import PaymentOps.Lib.RoundingLimits
import PaymentOps.Mapping.JsonSource
import PaymentOps.Mapping.Targets

/-!
# Values that cannot be converted

Every value has a text, but not every value has minor units: an infinite, undefined or too large
number raises where a text that is no number counts as 0.  `mapJson_returns_iff` says which sources
an accepted mapping maps.
-/

namespace PaymentOps.Mapping

open Decimal Text

variable {F : Type}

/-- A value that has minor units: a number must be finite, and its hundredfold within what a
decimal of the context or a float can hold. -/
def Convertible (py : PythonOps F) : MappedValue F → Prop
  | .decimal (.finite d) => |d.toRat * 100| < contextLimit
  | .decimal _ => False
  | .json (.int n) => ∃ q, binary64 n = some q ∧ |q * 100| < binary64Limit
  | .json (.float f) => ∃ q, py.value f = .finite q ∧ |q * 100| < binary64Limit
  | .json _ => True

section

variable {u : Unicode} {py : PythonOps F}

theorem floatMinor_finite (q : ℚ) :
    (∃ n, floatMinor (.finite q) = .ok n) ↔ |q * 100| < binary64Limit := by
  rw [← not_le, ← binary64_eq_none_iff]
  dsimp only [floatMinor]
  cases binary64 (q * 100) <;> simp

theorem minor_finite (d : Decimal) :
    (∃ n, DecimalNumber.minor (.finite d) = some n) ↔ |d.toRat * 100| < contextLimit := by
  rw [← not_le, ← overflows_context28_iff]
  unfold DecimalNumber.minor
  by_cases h : overflows (context28 (d.toRat * 100)) <;> simp [h]

theorem toMinor_decimal (d : DecimalNumber) :
    (∃ n, toMinor u py (.decimal d) = .ok n) ↔ ∃ n, d.minor = some n := by
  dsimp only [toMinor]
  cases d.minor <;> simp

theorem toMinor_ok_iff (v : MappedValue F) :
    (∃ n, toMinor u py v = .ok n) ↔ Convertible py v := by
  cases v with
  | decimal d =>
    rw [toMinor_decimal]
    cases d with
    | finite d => exact minor_finite d
    | infinity negative => simp [DecimalNumber.minor, Convertible]
    | nan negative signaling payload => simp [DecimalNumber.minor, Convertible]
  | json v =>
    cases v with
    | int n =>
      dsimp only [toMinor, Convertible]
      cases binary64 (n : ℚ) with
      | none => simp
      | some q => simpa only [Option.some.injEq, exists_eq_left'] using floatMinor_finite q
    | float f =>
      dsimp only [toMinor, Convertible]
      cases py.value f with
      | finite q => simpa only [Number.finite.injEq, exists_eq_left'] using floatMinor_finite q
      | infinite => simp [floatMinor]
      | nan => simp [floatMinor]
    | _ => simp [toMinor, Convertible]

/-! ## Records -/

section

variable {Source Record : Type} {reader : Reader Source Record F} {record : Record}
  {fm : FieldMapping}

/-- Every slot but that of the minor units takes a text. -/
theorem convert_ok (value : MappedValue F) {slot : Slot} (h : slot ≠ .amountMinor) :
    ∃ x, slot.convert u (reader.ops u py) value = .ok x := by
  cases slot with
  | amountMinor => exact absurd rfl h
  | _ => exact ⟨_, rfl⟩

/-- A field of an accepted mapping whose value is converted. -/
theorem converts_iff (htarget : fm.target ∈ allowedTargets) :
    Converts u (reader.ops u py) record fm ↔ (fm.target = "amount.amount_minor" →
      ∀ value, placed (reader.ops u py) record fm = some value →
        Convertible py (applyTransforms (reader.ops u py) value fm.transforms)) := by
  obtain ⟨slot, hslot⟩ := Slot.exists_path htarget
  have hof : slotOf fm.target = some slot := by rw [← hslot, slotOf_path]
  have hminor : fm.target = "amount.amount_minor" ↔ slot = .amountMinor := by
    rw [← hslot]
    exact path_eq_minor slot
  have hconvert : Converts u (reader.ops u py) record fm ↔
      ∀ value, placed (reader.ops u py) record fm = some value →
        ∃ x, slot.convert u (reader.ops u py)
          (applyTransforms (reader.ops u py) value fm.transforms) = .ok x := by
    simp [Converts, placedValue, hof]
  rw [hconvert, hminor]
  by_cases h : slot = .amountMinor
  · subst h
    have hmap : ∀ e : Except ServiceError ℤ,
        (∃ x, e.map Stored.minor = .ok x) ↔ ∃ n, e = .ok n := by
      intro e
      cases e <;> simp [Except.map]
    simp only [forall_const, Slot.convert, hmap]
    exact forall₂_congr fun value _ => toMinor_ok_iff _
  · exact ⟨fun _ heq => absurd heq h, fun _ value _ => convert_ok _ h⟩

end

/-! ## Sources -/

variable {definition : MappingDefinition} {source : JsonValue F} {clock : Instant}

/-- The records of decoded JSON are found without errors. -/
theorem extractRecords_json (h : definition.sourceFormat ≠ .customXml) :
    extractRecords ((JsonValue.reader u).ops u py) definition source =
      .ok (jsonRecords u py definition source) := by
  unfold jsonRecords extractRecords
  cases hformat : definition.sourceFormat with
  | csv => rfl
  | json => by_cases hs : truthy definition.recordSelector <;> simp [hs, Except.toOption]
  | customXml => exact absurd hformat h

theorem mapM_tokenizePath_ok_iff (paths : List String) :
    (∃ tokens, paths.mapM (tokenizePath u) = .ok tokens) ↔ ∀ path ∈ paths, Readable u path := by
  have hone : ∀ path, (∃ tokens, tokenizePath u path = .ok tokens) ↔ Readable u path := by
    intro path
    unfold tokenizePath
    by_cases h : Readable u path <;> simp [h]
  constructor
  · rintro ⟨tokens, h⟩ path hpath
    obtain ⟨b, -, hb⟩ := Except.exists_of_mapM h hpath
    exact (hone path).mp ⟨b, hb⟩
  · intro h
    exact Except.exists_mapM fun path hpath => (hone path).mpr (h path hpath)

end

/-- An accepted mapping maps decoded JSON, or rows of texts, exactly when the selectors that it
reads have no endless index and every amount that it places is convertible. -/
theorem mapJson_returns_iff {F : Type} (u : Unicode) (py : PythonOps F)
    (definition : MappingDefinition) (source : JsonValue F) (clock : Instant)
    (hvalid : (validateMapping definition).valid) (hformat : definition.sourceFormat ≠ .customXml) :
    (∃ result, mapJson u py definition source clock = .ok result) ↔
      (∀ path ∈ readSelectors definition (jsonRecords u py definition source), Readable u path) ∧
      ∀ record ∈ jsonRecords u py definition source, ∀ fm ∈ definition.fields,
        fm.target = "amount.amount_minor" →
        ∀ value, placed ((JsonValue.reader u).ops u py) record fm = some value →
          Convertible py
            (applyTransforms ((JsonValue.reader u).ops u py) value fm.transforms) := by
  have htargets := (WellFormed.of_valid hvalid).allowed
  have hmapped : (∃ result, mapToCanonical u ((JsonValue.reader u).ops u py) definition source
      clock = .ok result) ↔ ∀ record ∈ jsonRecords u py definition source,
        ∀ fm ∈ definition.fields, Converts u ((JsonValue.reader u).ops u py) record fm := by
    rw [mapToCanonical_converts_iff htargets, extractRecords_json hformat]
    simp
  have hboth : (∃ result, mapJson u py definition source clock = .ok result) ↔
      (∃ tokens, (readSelectors definition (jsonRecords u py definition source)).mapM
        (tokenizePath u) = .ok tokens) ∧
      ∃ result, mapToCanonical u ((JsonValue.reader u).ops u py) definition source clock =
        .ok result := by
    unfold mapJson
    simp only [Except.bind_eq_ok]
    exact ⟨fun ⟨result, tokens, htokens, hresult⟩ => ⟨⟨tokens, htokens⟩, result, hresult⟩,
      fun ⟨⟨tokens, htokens⟩, result, hresult⟩ => ⟨result, tokens, htokens, hresult⟩⟩
  rw [hboth, mapM_tokenizePath_ok_iff, hmapped]
  refine and_congr Iff.rfl (forall₂_congr fun record _ => forall₂_congr fun fm hfm => ?_)
  exact converts_iff (htargets fm hfm)

/-- An amount that is read as a decimal. -/
def decimalAmount : MappingDefinition where
  mappingVersion := "1"
  sourceFormat := .json
  fields := [{
    source := "amount", target := "amount.amount_minor", transforms := ["parse_decimal"] }]

/-- An infinite amount is a decimal, and a decimal is rounded without a guard. -/
theorem decimalAmount_infinity_raises :
    (validateMapping decimalAmount).valid ∧ decimalAmount.sourceFormat ≠ .customXml ∧
      ¬ ∃ result, mapJson .ascii .noFloats decimalAmount
        (.dict [("amount", .str "Infinity")]) 0 = .ok result := by
  refine ⟨by decide +kernel, by decide, ?_⟩
  rintro ⟨result, h⟩
  have hraises : mapJson .ascii .noFloats decimalAmount (.dict [("amount", .str "Infinity")]) 0 =
      .error (.overflowError "cannot convert Infinity to integer") := rfl
  rw [hraises] at h
  cases h

theorem mapJson_returns_iff_decimalAmount :
    (∃ result, mapJson .ascii .noFloats decimalAmount (.dict [("amount", .str "12,50")]) 0 =
        .ok result) ↔
      (∀ path ∈ readSelectors decimalAmount (jsonRecords .ascii .noFloats decimalAmount
        (.dict [("amount", .str "12,50")])), Readable .ascii path) ∧
      ∀ record ∈ jsonRecords .ascii .noFloats decimalAmount (.dict [("amount", .str "12,50")]),
        ∀ fm ∈ decimalAmount.fields, fm.target = "amount.amount_minor" →
        ∀ value, placed ((JsonValue.reader .ascii).ops .ascii .noFloats) record fm = some value →
          Convertible .noFloats (applyTransforms ((JsonValue.reader .ascii).ops .ascii .noFloats)
            value fm.transforms) :=
  mapJson_returns_iff .ascii .noFloats decimalAmount (.dict [("amount", .str "12,50")]) 0
    (by decide +kernel) (by decide)

end PaymentOps.Mapping
