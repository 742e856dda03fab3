import PaymentOps.Mapping.Targets

/-!
# Required fields

A required field reports `MAP-001` when its source is missing or empty.  The transforms and the
conversion into the transaction come later, so a value that was there can still be lost:
`mapToCanonical_required_iff` says when it is kept.
-/

namespace PaymentOps

open Text

/-- Nothing, or nothing but empty texts. -/
def Node.Empty : Node → Prop
  | .absent => True
  | .text s => s = ""
  | .texts l => ∀ s ∈ l, s = ""
  | _ => False

namespace Mapping

variable {Source Record F : Type} (u : Unicode) (py : PythonOps F)
  (reader : Reader Source Record F)

/-- The minor units that a source value denotes, `none` where 0 is put in their place. -/
def denotedMinor : MappedValue F → Option ℤ
  | .json .null => none
  | .json (.list _) => none
  | .json (.dict _) => none
  | .json (.str s) => textMinor u s
  | value => (toMinor u py value).toOption

/-- A field reported that its value is missing. -/
def Reported (issues : List MappingIssue) (fm : FieldMapping) : Prop :=
  ∃ issue ∈ issues, issue.code = "MAP-001" ∧ issue.path = some fm.target

/-- A field placed a value: its target is not empty and, for an amount, what the source denotes. -/
def Delivered (record : Record) (tx : PaymentTransaction) (fm : FieldMapping) : Prop :=
  ∃ value, placed (reader.ops u py) record fm = some value ∧
    ¬ (resolveField tx fm.target).Empty ∧
    (fm.target = "amount.amount_minor" →
      ∃ n, denotedMinor u py value = some n ∧ resolveField tx fm.target = .number n)

/-- The text of a value at a target. -/
def targetText (target : String) (value : MappedValue F) : String :=
  if target = "amount.currency" then u.upper (take 3 (value.str py)) else value.str py

/-- The transforms of a field leave a source value what it is: an amount that denotes a number
still denotes that number, another value keeps a text. -/
def Kept (fm : FieldMapping) (value : MappedValue F) : Prop :=
  if fm.target = "amount.amount_minor" then
    ∃ n, denotedMinor u py value = some n ∧
      toMinor u py (applyTransforms (reader.ops u py) value fm.transforms) = .ok n
  else targetText u py fm.target (applyTransforms (reader.ops u py) value fm.transforms) ≠ ""

section

variable {u py reader} {record : Record} {tx : PaymentTransaction} {fm : FieldMapping}
  {fields : List FieldMapping}

/-- In an accepted mapping a report is about the field of its target. -/
theorem reported_iff (hnodup : (fields.map (·.target)).Nodup) (hfm : fm ∈ fields) :
    Reported (fields.flatMap (fieldIssues (reader.ops u py) record)) fm ↔
      presentValue (reader.ops u py) record fm.source = none ∧ fm.required = .required := by
  have hone : ∀ fm' : FieldMapping, ∀ issue ∈ fieldIssues (reader.ops u py) record fm',
      issue = missingIssue fm' ∧ presentValue (reader.ops u py) record fm'.source = none ∧
        fm'.required = .required := by
    intro fm' issue hissue
    unfold fieldIssues at hissue
    split_ifs at hissue with h
    · exact ⟨List.mem_singleton.mp hissue, Option.isNone_iff_eq_none.mp h.1, h.2⟩
    · cases hissue
  constructor
  · rintro ⟨issue, hissue, -, hpath⟩
    obtain ⟨fm', hfm', hissue⟩ := List.mem_flatMap.mp hissue
    obtain ⟨rfl, hmissing, hrequired⟩ := hone fm' issue hissue
    have htarget : fm'.target = fm.target := Option.some.inj hpath
    obtain rfl : fm' = fm := List.inj_on_of_nodup_map hnodup hfm' hfm htarget
    exact ⟨hmissing, hrequired⟩
  · rintro ⟨hmissing, hrequired⟩
    refine ⟨missingIssue fm, List.mem_flatMap.mpr ⟨fm, hfm, ?_⟩, rfl, rfl⟩
    rw [fieldIssues, if_pos ⟨Option.isNone_iff_eq_none.mpr hmissing, hrequired⟩]
    exact List.mem_singleton_self _

/-- A required field places what is present, and nothing else. -/
theorem placed_of_required (hrequired : fm.required = .required) :
    placed (reader.ops u py) record fm = presentValue (reader.ops u py) record fm.source := by
  unfold placed
  cases presentValue (reader.ops u py) record fm.source with
  | some value => rfl
  | none => cases fm.default <;> simp [hrequired]

/-- What a field of an accepted mapping delivers, by the image of its value. -/
theorem delivered_iff (hnode : ∀ value, placedValue (reader.ops u py) record fm = some value →
      targetImage u (reader.ops u py) fm.target value = .ok (resolveField tx fm.target)) :
    Delivered u py reader record tx fm ↔
      ∃ value, placed (reader.ops u py) record fm = some value ∧ Kept u py reader fm value := by
  refine exists_congr fun value => and_congr_right fun hvalue => ?_
  have himage := hnode (applyTransforms (reader.ops u py) value fm.transforms)
    (by rw [placedValue, hvalue]; rfl)
  unfold Kept targetText
  generalize applyTransforms (reader.ops u py) value fm.transforms = image at himage ⊢
  generalize resolveField tx fm.target = node at himage ⊢
  unfold targetImage at himage
  by_cases hminor : fm.target = "amount.amount_minor"
  · simp only [hminor, if_true, Except.map_eq_ok] at himage ⊢
    obtain ⟨n, hn, rfl⟩ := himage
    have hto : toMinor u py image = .ok n := hn
    simp [hto, Node.Empty]
  · simp only [hminor, if_false] at himage ⊢
    by_cases hcurrency : fm.target = "amount.currency"
    · simp only [hcurrency, if_true] at himage ⊢
      obtain rfl := Except.ok.inj himage
      simp [Node.Empty]
    · simp only [hcurrency, if_false] at himage ⊢
      split_ifs at himage
      · obtain rfl := Except.ok.inj himage
        simp [Node.Empty]
      · obtain rfl := Except.ok.inj himage
        simp [Node.Empty]

end

/-- An accepted mapping keeps the promise for a required field of a record exactly when the value
is missing or survives the transforms of the field. -/
theorem mapToCanonical_required_iff {Source Record F : Type} (u : Unicode) (py : PythonOps F)
    (reader : Reader Source Record F) (definition : MappingDefinition) (source : Source)
    (clock : Instant) (result : MappingResult) (hvalid : (validateMapping definition).valid)
    (h : mapToCanonical u (reader.ops u py) definition source clock = .ok result) :
    ∃ records mapped, extractRecords (reader.ops u py) definition source = .ok records ∧
      records.zipIdx.mapM (fun r => mapRecord u (reader.ops u py) definition.fields r.1 r.2) =
        .ok mapped ∧
      result.message.transactions = mapped.map (·.1) ∧ result.issues = mapped.flatMap (·.2) ∧
      ∀ (i : ℕ) (record : Record) (r : PaymentTransaction × List MappingIssue),
        records[i]? = some record → mapped[i]? = some r →
        ∀ fm ∈ definition.fields, fm.required = .required →
          ((¬ Reported r.2 fm ↔ Delivered u py reader record r.1 fm) ↔
            ∀ value, presentValue (reader.ops u py) record fm.source = some value →
              Kept u py reader fm value) := by
  have hwf := WellFormed.of_valid hvalid
  have htargets := hwf.allowed
  obtain ⟨records, mapped, hrecords, hmapped, htransactions, hissues⟩ := mapToCanonical_parts h
  refine ⟨records, mapped, hrecords, hmapped, htransactions, hissues, ?_⟩
  intro i record r hrecord hr fm hfm hrequired
  obtain ⟨record', hrecord', hone⟩ := Except.exists_of_mapM_zipIdx hmapped hr
  obtain rfl : record = record' := Option.some.inj (hrecord.symm.trans hrecord')
  obtain ⟨hconverts, htx, hreports⟩ := (mapRecord_eq_ok htargets).mp hone
  have hagree := fill_targetsAgree (recordPath (0 + i)) htargets hwf.targets hconverts
  rw [hreports, reported_iff hwf.targets hfm, htx, delivered_iff (hagree.mapped fm hfm),
    placed_of_required hrequired]
  cases presentValue (reader.ops u py) record fm.source with
  | none => simp [hrequired]
  | some value => simp

/-- An amount that must be there. -/
def requiredAmount : MappingDefinition where
  mappingVersion := "1"
  sourceFormat := .json
  fields := [{ source := "amount", target := "amount.amount_minor", required := .required }]

/-- A text that is no number counts as 0, without a report. -/
theorem requiredAmount_not_delivered :
    (validateMapping requiredAmount).valid ∧
      ∃ result : MappingResult,
        mapToCanonical .ascii ((JsonValue.reader .ascii).ops .ascii .noFloats) requiredAmount
          (.dict [("amount", .str "n/a")]) 0 = .ok result ∧
        ∃ tx, result.message.transactions = [tx] ∧
          ∀ fm ∈ requiredAmount.fields, ¬ (¬ Reported result.issues fm ↔
            Delivered .ascii .noFloats (JsonValue.reader .ascii)
              (.dict [("amount", .str "n/a")]) tx fm) := by
  have hdenoted : denotedMinor .ascii .noFloats (.json (.str "n/a")) = none := by decide +kernel
  refine ⟨by decide +kernel, _, rfl, _, rfl, fun fm hfm hpromise => ?_⟩
  obtain rfl := List.mem_singleton.mp hfm
  obtain ⟨value, hvalue, -, hminor⟩ := hpromise.mp fun ⟨_, hissue, _⟩ => nomatch hissue
  obtain rfl : .json (.str "n/a") = value := Option.some.inj hvalue
  obtain ⟨n, hn, -⟩ := hminor rfl
  rw [hdenoted] at hn
  cases hn

theorem mapToCanonical_required_iff_amount :
    ∃ result : MappingResult,
      mapToCanonical .ascii ((JsonValue.reader .ascii).ops .ascii .noFloats) requiredAmount
        (.dict [("amount", .str "12.50")]) 0 = .ok result ∧
      ∃ records mapped, extractRecords ((JsonValue.reader .ascii).ops .ascii .noFloats)
          requiredAmount (.dict [("amount", .str "12.50")]) = .ok records ∧
        records.zipIdx.mapM (fun r => mapRecord .ascii
          ((JsonValue.reader .ascii).ops .ascii .noFloats) requiredAmount.fields r.1 r.2) =
            .ok mapped ∧
        result.message.transactions = mapped.map (·.1) ∧
        result.issues = mapped.flatMap (·.2) ∧
        ∀ (i : ℕ) (record : JsonValue Empty) (r : PaymentTransaction × List MappingIssue),
          records[i]? = some record → mapped[i]? = some r →
          ∀ fm ∈ requiredAmount.fields, fm.required = .required →
            ((¬ Reported r.2 fm ↔
                Delivered .ascii .noFloats (JsonValue.reader .ascii) record r.1 fm) ↔
              ∀ value, presentValue ((JsonValue.reader .ascii).ops .ascii .noFloats) record
                  fm.source = some value →
                Kept .ascii .noFloats (JsonValue.reader .ascii) fm value) :=
  ⟨_, rfl, mapToCanonical_required_iff .ascii .noFloats (JsonValue.reader .ascii) requiredAmount
    (.dict [("amount", .str "12.50")]) 0 _ (by decide +kernel) rfl⟩

end Mapping

end PaymentOps
