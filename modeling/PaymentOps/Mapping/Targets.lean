import PaymentOps.Mapping.JsonSource
import PaymentOps.Mapping.Placement

/-!
# Targets

The validator's list of targets, the assignments of the mapper and the field paths of the rule
engine name the same fields.  A mapped target resolves to what its own field placed there, an
unmapped one to `None` or to the default of a container that another field created, and the order
of the fields does not matter (`mapToCanonical_targets`).
-/

namespace PaymentOps.Mapping

open Text

/-- The targets that collect texts. -/
def listTargets : List String :=
  ["debtor.postal_address.address_lines", "creditor.postal_address.address_lines",
    "remittance.unstructured"]

/-- What a value at a target resolves to. -/
def targetImage {Source Record Value : Type} (u : Unicode) (ops : SourceOps Source Record Value)
    (target : String) (value : Value) : Except ServiceError Node :=
  if target = "amount.amount_minor" then (ops.toMinor value).map .number
  else if target = "amount.currency" then (ops.str value).map fun s => .text (u.upper (take 3 s))
  else if target ∈ listTargets then (ops.str value).map fun s => .texts [s]
  else (ops.str value).map .text

/-- What a new container holds at a target. -/
def containerDefault (target : String) : Node :=
  if target = "amount.amount_minor" then .number 0
  else if target = "amount.currency" then .text "EUR"
  else if target ∈ listTargets then .texts []
  else .absent

/-- The names on the way to the container of a target. -/
def containerOf (target : String) : List String := ((split '.' target).filter (· ≠ "")).dropLast

/-! ## Slots -/

section

variable {Source Record Value : Type} (u : Unicode) (ops : SourceOps Source Record Value)

theorem path_eq_minor (slot : Slot) : slot.path = "amount.amount_minor" ↔ slot = .amountMinor :=
  ⟨fun h => Slot.path_injective (b := .amountMinor) h, fun h => by rw [h]; decide⟩

theorem path_eq_currency (slot : Slot) : slot.path = "amount.currency" ↔ slot = .currency :=
  ⟨fun h => Slot.path_injective (b := .currency) h, fun h => by rw [h]; decide⟩

theorem path_mem_listTargets (slot : Slot) : slot.path ∈ listTargets ↔
    slot ∈ [.address .debtor .addressLines, .address .creditor .addressLines, .unstructured] := by
  have hall : ∀ a ∈ Slot.all, a.path ∈ listTargets ↔
      a ∈ [.address .debtor .addressLines, .address .creditor .addressLines, .unstructured] := by
    decide +kernel
  exact hall slot (Slot.mem_all slot)

theorem targetImage_path (slot : Slot) (value : Value) : targetImage u ops slot.path value =
    (slot.convert u ops value).map fun x => slot.image x := by
  have hmap : ∀ {α β : Type} (e : Except ServiceError α) (f : α → Stored) (g : Stored → β),
      (e.map f).map g = e.map fun a => g (f a) := by
    intro α β e f g
    cases e <;> rfl
  unfold targetImage
  simp only [path_eq_minor, path_eq_currency, path_mem_listTargets]
  cases slot with
  | address side field =>
    simp only [Slot.convert, hmap]
    cases side <;> cases field <;> rfl
  | _ =>
    simp only [Slot.convert, hmap]
    rfl

theorem containerDefault_path (slot : Slot) : containerDefault slot.path = slot.default := by
  unfold containerDefault
  simp only [path_eq_minor, path_eq_currency, path_mem_listTargets]
  cases slot with
  | address side field => cases side <;> cases field <;> rfl
  | _ => rfl

theorem containerOf_path (slot : Slot) : containerOf slot.path = slot.holder.names := by
  rw [containerOf, Slot.split_path, Slot.holder_names]

/-! ## One record -/

/-- The transaction that a mapping makes of a record agrees with the rule engine on its targets. -/
structure TargetsAgree (fields : List FieldMapping) (record : Record) (tx : PaymentTransaction) :
    Prop where
  /-- a mapped target resolves to the image of the value of its own field -/
  mapped : ∀ fm ∈ fields, ∀ value, placedValue ops record fm = some value →
    targetImage u ops fm.target value = .ok (resolveField tx fm.target)
  /-- another target resolves to nothing, or to the default of a container that is there for
  another field -/
  unmapped : ∀ target ∈ allowedTargets,
    (∀ fm ∈ fields, fm.target = target → placedValue ops record fm = none) →
      resolveField tx target = .absent ∨
        resolveField tx target = containerDefault target ∧
          ∃ fm ∈ fields, (placedValue ops record fm).isSome ∧
            containerOf fm.target = containerOf target

variable {u ops} {record : Record} {fields fields' : List FieldMapping}

theorem mem_stored {slot : Slot} {x : Stored} :
    (slot, x) ∈ fields.filterMap (storedBy u ops record) ↔
      ∃ fm ∈ fields, ∃ value, placedValue ops record fm = some value ∧ fm.target = slot.path ∧
        slot.convert u ops value = .ok x := by
  simp only [List.mem_filterMap, storedBy_eq_some]

theorem fill_targetsAgree (pre : String)
    (htargets : ∀ fm ∈ fields, fm.target ∈ allowedTargets)
    (hnodup : (fields.map (·.target)).Nodup) (hconverts : ∀ fm ∈ fields, Converts u ops record fm) :
    TargetsAgree u ops fields record
      (Slot.fill pre (fields.filterMap (storedBy u ops record))) where
  mapped := by
    intro fm hfm value hvalue
    obtain ⟨slot, hslot⟩ := Slot.exists_path (htargets fm hfm)
    have hof : slotOf fm.target = some slot := by rw [← hslot, slotOf_path]
    obtain ⟨x, hx⟩ := hconverts fm hfm value hvalue slot hof
    have hmem : (slot, x) ∈ fields.filterMap (storedBy u ops record) :=
      mem_stored.mpr ⟨fm, hfm, value, hvalue, hslot.symm, hx⟩
    rw [← hslot, targetImage_path, Slot.resolveField_path,
      (Slot.get_fill pre (nodup_stored hnodup) slot).1 x hmem, hx]
    rfl
  unmapped := by
    intro target htarget hnone
    obtain ⟨slot, rfl⟩ := Slot.exists_path htarget
    have hfree : slot ∉ (fields.filterMap (storedBy u ops record)).map (·.1) := by
      intro h
      obtain ⟨⟨s, x⟩, hmem, rfl⟩ := List.mem_map.mp h
      obtain ⟨fm, hfm, value, hvalue, hpath, -⟩ := mem_stored.mp hmem
      rw [hnone fm hfm hpath] at hvalue
      cases hvalue
    rw [Slot.resolveField_path, containerDefault_path, containerOf_path]
    rcases (Slot.get_fill pre (nodup_stored hnodup) slot).2 hfree with
      ⟨habsent, -⟩ | ⟨hdefault, p, hp, hholder⟩
    · exact .inl habsent
    · obtain ⟨fm, hfm, value, hvalue, hpath, -⟩ := mem_stored.mp hp
      refine .inr ⟨hdefault, fm, hfm, by rw [hvalue]; rfl, ?_⟩
      rw [hpath, containerOf_path, hholder]

/-- The order in which values are stored does not matter. -/
theorem get_fill_perm {pre pre' : String} {stored stored' : List (Slot × Stored)}
    (h : stored'.Perm stored) (hnodup : (stored.map (·.1)).Nodup) (slot : Slot) :
    slot.get (Slot.fill pre' stored') = slot.get (Slot.fill pre stored) := by
  have hkeys : (stored'.map (·.1)).Perm (stored.map (·.1)) := h.map _
  have hfill := Slot.get_fill pre hnodup slot
  have hfill' := Slot.get_fill pre' (hkeys.nodup_iff.mpr hnodup) slot
  by_cases hslot : slot ∈ stored.map (·.1)
  · obtain ⟨⟨s, x⟩, hmem, rfl⟩ := List.mem_map.mp hslot
    rw [hfill.1 x hmem, hfill'.1 x (h.mem_iff.mpr hmem)]
  · rcases hfill.2 hslot with ⟨habsent, hnone⟩ | ⟨hdefault, p, hp, hholder⟩
    · rcases hfill'.2 (mt hkeys.mem_iff.mp hslot) with ⟨habsent', -⟩ | ⟨-, p, hp, hholder⟩
      · rw [habsent, habsent']
      · exact absurd hholder (hnone p (h.mem_iff.mp hp))
    · rcases hfill'.2 (mt hkeys.mem_iff.mp hslot) with ⟨-, hnone⟩ | ⟨hdefault', -⟩
      · exact absurd hholder (hnone p (h.mem_iff.mpr hp))
      · rw [hdefault, hdefault']

/-! ## Messages -/

/-- Two transactions that the rule engine cannot tell apart by their targets. -/
def SameTargets (tx tx' : PaymentTransaction) : Prop :=
  ∀ target ∈ allowedTargets, resolveField tx' target = resolveField tx target

theorem sameTargets_fill {pre pre' : String} (hperm : fields'.Perm fields)
    (hnodup : (fields.map (·.target)).Nodup) :
    SameTargets (Slot.fill pre (fields.filterMap (storedBy u ops record)))
      (Slot.fill pre' (fields'.filterMap (storedBy u ops record))) := by
  intro target htarget
  obtain ⟨slot, rfl⟩ := Slot.exists_path htarget
  rw [Slot.resolveField_path, Slot.resolveField_path]
  exact get_fill_perm (hperm.filterMap _) (nodup_stored hnodup) slot

/-- The validator, the mapper and the rule engine agree on the targets of an accepted mapping, in
every order of its fields. -/
theorem mapToCanonical_targets {Source Record Value : Type} (u : Unicode)
    (ops : SourceOps Source Record Value) (definition : MappingDefinition) (source : Source)
    (clock : Instant) (result : MappingResult) (hvalid : (validateMapping definition).valid)
    (h : mapToCanonical u ops definition source clock = .ok result) :
    ∃ records, extractRecords ops definition source = .ok records ∧
      List.Forall₂ (TargetsAgree u ops definition.fields) records result.message.transactions ∧
      ∀ fields : List FieldMapping, fields.Perm definition.fields →
        ∃ result', mapToCanonical u ops { definition with fields := fields } source clock =
            .ok result' ∧
          List.Forall₂ SameTargets result.message.transactions result'.message.transactions := by
  have hwf := WellFormed.of_valid hvalid
  have htargets := hwf.allowed
  obtain ⟨records, hrecords, hconverts, htransactions, -⟩ :=
    mapToCanonical_transactions htargets h
  refine ⟨records, hrecords, ?_, ?_⟩
  · rw [htransactions, List.forall₂_map_right_iff]
    refine List.forall₂_iff_get.mpr ⟨by simp, fun i hi hi' => ?_⟩
    have hrecord : records.get ⟨i, hi⟩ ∈ records := List.get_mem _ _
    simpa using fill_targetsAgree (recordPath i) htargets hwf.targets
      (hconverts _ hrecord)
  · intro fields hperm
    set reordered : MappingDefinition := { definition with fields := fields } with hreordered
    have htargets' : ∀ fm ∈ reordered.fields, fm.target ∈ allowedTargets :=
      fun fm hfm => htargets fm (hperm.mem_iff.mp hfm)
    obtain ⟨result', hresult'⟩ :
        ∃ result', mapToCanonical u ops reordered source clock = .ok result' :=
      (mapToCanonical_converts_iff htargets').mpr ⟨records, hrecords, fun record hrecord fm hfm =>
        hconverts record hrecord fm (hperm.mem_iff.mp hfm)⟩
    obtain ⟨records', hrecords', -, htransactions', -⟩ :=
      mapToCanonical_transactions htargets' hresult'
    obtain rfl : records = records' := Except.ok.inj (hrecords.symm.trans hrecords')
    refine ⟨result', hresult', ?_⟩
    rw [htransactions, htransactions', List.forall₂_map_left_iff, List.forall₂_map_right_iff]
    exact List.forall₂_same.mpr fun r _ => sameTargets_fill hperm hwf.targets

end

/-- A name and a currency of one record, in either order. -/
def nameAndCurrency : MappingDefinition where
  mappingVersion := "1"
  sourceFormat := .json
  fields := [{ source := "name", target := "debtor.name", transforms := ["trim"] },
    { source := "ccy", target := "amount.currency" }]

/-- A record with a name and a currency. -/
def nameAndCurrencyRecord : JsonValue Empty :=
  .dict [("name", .str " Rossi "), ("ccy", .str "eur0")]

theorem mapToCanonical_targets_name_currency :
    ∃ result : MappingResult,
      mapToCanonical .ascii ((JsonValue.reader .ascii).ops .ascii .noFloats) nameAndCurrency
          nameAndCurrencyRecord 0 = .ok result ∧
      ∃ records, extractRecords ((JsonValue.reader .ascii).ops .ascii .noFloats) nameAndCurrency
          nameAndCurrencyRecord = .ok records ∧
        List.Forall₂ (TargetsAgree .ascii ((JsonValue.reader .ascii).ops .ascii .noFloats)
          nameAndCurrency.fields) records result.message.transactions ∧
        ∀ fields : List FieldMapping, fields.Perm nameAndCurrency.fields →
          ∃ result', mapToCanonical .ascii ((JsonValue.reader .ascii).ops .ascii .noFloats)
              { nameAndCurrency with fields := fields } nameAndCurrencyRecord 0 = .ok result' ∧
            List.Forall₂ SameTargets result.message.transactions result'.message.transactions :=
  ⟨_, rfl, mapToCanonical_targets .ascii _ nameAndCurrency nameAndCurrencyRecord 0 _
    (by decide +kernel) rfl⟩

end PaymentOps.Mapping
