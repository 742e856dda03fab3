import Mathlib.Data.List.Induction
import Mathlib.Data.List.Nodup
import PaymentOps.Lib.Fallible
import PaymentOps.Mapping.Slots
import PaymentOps.Mapping.Validator

/-!
# What a mapping places

A field of a mapping places a value at its target, or reports that the value is missing
(`mapRecord_eq`).  The targets that the validator allows are slots, so a record is mapped exactly
when all placed values are converted (`mapRecord_eq_ok`), and then each slot holds what was placed
in it (`Slot.get_fill`).
-/

namespace PaymentOps.Mapping

open Text

/-! ## Slots and targets -/

namespace Slot

/-- Both sides of a payment. -/
def sides : List Side := [.debtor, .creditor]

/-- Every slot. -/
def all : List Slot :=
  [instructionId, endToEndId, transactionId, amountMinor, currency, unstructured] ++
  sides.flatMap fun side => partyName side ::
    ([.streetName, .buildingNumber, .postcode, .townName, .country, .addressLines].map
        (address side) ++
      [.iban, .name, .otherIdentification].map (account side) ++
      [.bic, .name].map (agent side))

theorem mem_all (slot : Slot) : slot ∈ all := by
  cases slot with
  | partyName side => cases side <;> decide
  | address side field => cases side <;> cases field <;> decide
  | account side field => cases side <;> cases field <;> decide
  | agent side field => cases side <;> cases field <;> decide
  | _ => decide

theorem path_injective {a b : Slot} (h : a.path = b.path) : a = b := by
  have hall : ∀ a ∈ all, ∀ b ∈ all, a.path = b.path → a = b := by decide +kernel
  exact hall a (mem_all a) b (mem_all b) h

/-- Every target that the validator allows is a slot. -/
theorem exists_path {target : String} (h : target ∈ allowedTargets) :
    ∃ slot : Slot, slot.path = target := by
  have hall : ∀ t ∈ allowedTargets, ∃ slot ∈ all, slot.path = t := by decide +kernel
  obtain ⟨slot, -, hslot⟩ := hall target h
  exact ⟨slot, hslot⟩

theorem holder_names (slot : Slot) : slot.names.dropLast = slot.holder.names := by
  cases slot <;> rfl

end Slot

/-! ## One record -/

section

variable {Source Record Value : Type} (u : Unicode) (ops : SourceOps Source Record Value)

/-- What a field takes from a record, before its transforms. -/
def placed (record : Record) (fm : FieldMapping) : Option Value :=
  match presentValue ops record fm.source, fm.default with
  | some value, _ => some value
  | none, some value => if fm.required = .required then none else some (ops.ofString value)
  | none, none => none

/-- What a field takes from a record, after its transforms. -/
def placedValue (record : Record) (fm : FieldMapping) : Option Value :=
  (placed ops record fm).map fun value => applyTransforms ops value fm.transforms

/-- A required field reports that its value is missing. -/
def fieldIssues (record : Record) (fm : FieldMapping) : List MappingIssue :=
  if (presentValue ops record fm.source).isNone ∧ fm.required = .required then [missingIssue fm]
  else []

/-- What a field does to the transaction. -/
def storeField (record : Record) (pre : String) (tx : PaymentTransaction) (fm : FieldMapping) :
    Except ServiceError PaymentTransaction :=
  match placedValue ops record fm with
  | some value => setTarget u ops tx fm.target value pre
  | none => .ok tx

theorem mapField_eq (record : Record) (pre : String) (acc : PaymentTransaction × List MappingIssue)
    (fm : FieldMapping) : mapField u ops record pre acc fm =
      (storeField u ops record pre acc.1 fm).map fun tx =>
        (tx, acc.2 ++ fieldIssues ops record fm) := by
  unfold mapField storeField placedValue placed fieldIssues
  cases hvalue : presentValue ops record fm.source with
  | some value => simp
  | none =>
    by_cases hrequired : fm.required = .required
    · cases fm.default <;> simp [hrequired, Except.map]
    · cases fm.default <;> simp [hrequired, Except.map]

/-- The transaction and the issues of a record come about independently. -/
theorem mapRecord_eq (fields : List FieldMapping) (record : Record) (index : ℕ) :
    mapRecord u ops fields record index =
      (fields.foldlM (storeField u ops record (recordPath index)) {}).map fun tx =>
        (tx, fields.flatMap (fieldIssues ops record)) := by
  have hrun : ∀ (fields : List FieldMapping) (tx : PaymentTransaction) (issues : List MappingIssue),
      fields.foldlM (mapField u ops record (recordPath index)) (tx, issues) =
        (fields.foldlM (storeField u ops record (recordPath index)) tx).map fun tx =>
          (tx, issues ++ fields.flatMap (fieldIssues ops record)) := by
    intro fields
    induction fields with
    | nil =>
      intro tx issues
      simp [pure, Except.pure, Except.map]
    | cons fm fields ih =>
      intro tx issues
      rw [List.foldlM_cons, List.foldlM_cons, mapField_eq]
      cases hstore : storeField u ops record (recordPath index) tx fm with
      | error e => rfl
      | ok tx' =>
        show fields.foldlM _ (tx', issues ++ fieldIssues ops record fm) = _
        rw [ih, List.append_assoc]
        rfl
  exact hrun fields {} []

end

/-! ## Stored values -/

namespace Slot

variable {pre : String} {stored : List (Slot × Stored)} {slot : Slot} {x : Stored}

/-- A new transaction with values stored in some slots. -/
def fill (pre : String) (stored : List (Slot × Stored)) : PaymentTransaction :=
  stored.foldl (fun tx p => p.1.put pre p.2 tx) {}

theorem fill_append (pre : String) (stored : List (Slot × Stored)) (p : Slot × Stored) :
    fill pre (stored ++ [p]) = p.1.put pre p.2 (fill pre stored) := by
  rw [fill, List.foldl_append]
  rfl

theorem image_ne_absent (x : Stored) (slot : Slot) : slot.image x ≠ .absent := by
  cases slot with
  | address side field => cases field <;> nofun
  | _ => nofun

/-- A slot of which nothing is stored holds its default when a slot of its container is stored. -/
def Untouched (stored : List (Slot × Stored)) (slot : Slot) (n : Node) : Prop :=
  n = .absent ∧ (∀ p ∈ stored, p.1.holder ≠ slot.holder) ∨
    n = slot.default ∧ ∃ p ∈ stored, p.1.holder = slot.holder

theorem get_empty (slot : Slot) : slot.get {} = .absent := by
  cases slot with
  | partyName side => cases side <;> rfl
  | address side field => cases side <;> rfl
  | account side field => cases side <;> rfl
  | agent side field => cases side <;> rfl
  | _ => rfl

theorem Untouched.absent_or_default {n : Node} (h : Untouched stored slot n) :
    n = .absent ∨ n = slot.default :=
  h.imp And.left And.left

/-- A value in another container touches neither the slot nor its default. -/
theorem Untouched.append_of_ne {n : Node} {p : Slot × Stored} (h : Untouched stored slot n)
    (hholder : p.1.holder ≠ slot.holder) : Untouched (stored ++ [p]) slot n := by
  rcases h with ⟨habsent, hnone⟩ | ⟨hdefault, q, hq, heq⟩
  · refine .inl ⟨habsent, fun q hq => ?_⟩
    rcases List.mem_append.mp hq with hq | hq
    · exact hnone q hq
    · rw [List.mem_singleton.mp hq]
      exact hholder
  · exact .inr ⟨hdefault, q, by simp [hq], heq⟩

/-- A value in the same container brings the default of the slot. -/
theorem Untouched.append_of_eq {n : Node} {p : Slot × Stored} (h : Untouched stored slot n)
    (hholder : p.1.holder = slot.holder) :
    Untouched (stored ++ [p]) slot (if n = .absent then slot.default else n) := by
  refine .inr ⟨?_, p, by simp, hholder⟩
  rcases h.absent_or_default with habsent | hdefault
  · rw [if_pos habsent]
  · rw [hdefault]
    split_ifs <;> rfl

/-- What the slots hold after one value each: the values that are stored, and nothing or a default
elsewhere. -/
theorem get_fill (pre : String) (hnodup : (stored.map (·.1)).Nodup) (slot : Slot) :
    (∀ x, (slot, x) ∈ stored → slot.get (fill pre stored) = slot.image x) ∧
      (slot ∉ stored.map (·.1) → Untouched stored slot (slot.get (fill pre stored))) := by
  induction stored using List.reverseRecOn with
  | nil => exact ⟨nofun, fun _ => .inl ⟨get_empty slot, nofun⟩⟩
  | append_singleton stored p ih =>
    obtain ⟨a, y⟩ := p
    rw [List.map_append, List.nodup_append] at hnodup
    obtain ⟨hnodup, -, hnew⟩ := hnodup
    obtain ⟨hmem, hfree⟩ := ih hnodup
    have ha : a ∉ stored.map (·.1) := fun h => hnew a h a (by simp) rfl
    rw [fill_append]
    by_cases hslot : a = slot
    · subst hslot
      refine ⟨fun x hx => ?_, fun h => absurd (by simp) h⟩
      rcases List.mem_append.mp hx with hx | hx
      · exact absurd (List.mem_map_of_mem (f := (·.1)) hx) ha
      · obtain rfl : x = y := by simpa using hx
        exact get_put_self (hfree ha).absent_or_default
    · have hother : ∀ x, (slot, x) ∈ stored ++ [(a, y)] → (slot, x) ∈ stored := by
        intro x hx
        rcases List.mem_append.mp hx with hx | hx
        · exact hx
        · simp only [List.mem_singleton, Prod.mk.injEq] at hx
          exact absurd hx.1.symm hslot
      have hbefore : slot ∉ (stored ++ [(a, y)]).map (·.1) →
          Untouched stored slot (slot.get (fill pre stored)) := fun h =>
        hfree fun hs => h (by simp [List.mem_map.mp hs])
      by_cases hholder : a.holder = slot.holder
      · rw [get_put_of_ne hholder hslot]
        refine ⟨fun x hx => ?_, fun h => (hbefore h).append_of_eq hholder⟩
        rw [hmem x (hother x hx), if_neg (image_ne_absent x slot)]
      · rw [get_put_of_holder hholder]
        exact ⟨fun x hx => hmem x (hother x hx), fun h => (hbefore h).append_of_ne hholder⟩

end Slot

/-! ## The fields of an accepted mapping -/

/-- The slot of a target. -/
def slotOf (target : String) : Option Slot := Slot.all.find? (·.path = target)

theorem slotOf_path (slot : Slot) : slotOf slot.path = some slot := by
  cases h : slotOf slot.path with
  | none =>
    have hnone := List.find?_eq_none.mp h slot (Slot.mem_all slot)
    simp at hnone
  | some other =>
    have hpath : other.path = slot.path := by simpa using List.find?_some h
    rw [Slot.path_injective hpath]

section

variable {Source Record Value : Type} (u : Unicode) (ops : SourceOps Source Record Value)

/-- The value that a field places is converted. -/
def Converts (record : Record) (fm : FieldMapping) : Prop :=
  ∀ value, placedValue ops record fm = some value → ∀ slot, slotOf fm.target = some slot →
    ∃ x, slot.convert u ops value = .ok x

/-- The slot of a field and what is stored there. -/
def storedBy (record : Record) (fm : FieldMapping) : Option (Slot × Stored) :=
  (placedValue ops record fm).bind fun value => (slotOf fm.target).bind fun slot =>
    (slot.convert u ops value).toOption.map fun x => (slot, x)

variable {u ops} {record : Record} {fm : FieldMapping} {fields : List FieldMapping}

theorem storedBy_eq_some {slot : Slot} {x : Stored} : storedBy u ops record fm = some (slot, x) ↔
    ∃ value, placedValue ops record fm = some value ∧ fm.target = slot.path ∧
      slot.convert u ops value = .ok x := by
  have hslot : ∀ {s : Slot}, slotOf fm.target = some s ↔ fm.target = s.path := by
    intro s
    constructor
    · intro h
      have hpath := List.find?_some h
      simpa [eq_comm] using hpath
    · intro h
      rw [h, slotOf_path]
  have hok : ∀ {e : Except ServiceError Stored} {y : Stored}, e.toOption = some y ↔ e = .ok y := by
    intro e y
    cases e <;> simp [Except.toOption]
  unfold storedBy
  simp only [Option.bind_eq_some_iff, Option.map_eq_some_iff, Prod.mk.injEq]
  constructor
  · rintro ⟨value, hvalue, s, hs, y, hy, rfl, rfl⟩
    exact ⟨value, hvalue, hslot.mp hs, hok.mp hy⟩
  · rintro ⟨value, hvalue, htarget, hx⟩
    exact ⟨value, hvalue, slot, hslot.mpr htarget, x, hok.mpr hx, rfl, rfl⟩

/-- One field of an accepted mapping. -/
theorem storeField_eq_ok (htarget : fm.target ∈ allowedTargets) {pre : String}
    {tx tx' : PaymentTransaction} : storeField u ops record pre tx fm = .ok tx' ↔
      Converts u ops record fm ∧
        tx' = ((storedBy u ops record fm).map fun p => p.1.put pre p.2 tx).getD tx := by
  obtain ⟨slot, hslot⟩ := Slot.exists_path htarget
  have hof : slotOf fm.target = some slot := by rw [← hslot, slotOf_path]
  unfold storeField Converts storedBy
  cases hvalue : placedValue ops record fm with
  | none => simp [eq_comm]
  | some value =>
    dsimp only
    rw [← hslot, Slot.setTarget_path]
    simp only [Option.some.injEq, forall_eq', slotOf_path, Option.bind_some]
    cases hconvert : slot.convert u ops value with
    | error e => simp [Except.map]
    | ok x => simp [Except.map, Except.toOption, eq_comm]

/-- A record is mapped exactly when every placed value is converted, and then its transaction is
filled with what the fields store. -/
theorem storeFields_eq_ok (htargets : ∀ fm ∈ fields, fm.target ∈ allowedTargets) {pre : String}
    {tx : PaymentTransaction} : fields.foldlM (storeField u ops record pre) {} = .ok tx ↔
      (∀ fm ∈ fields, Converts u ops record fm) ∧
        tx = Slot.fill pre (fields.filterMap (storedBy u ops record)) := by
  have hrun : ∀ (fields : List FieldMapping), (∀ fm ∈ fields, fm.target ∈ allowedTargets) →
      ∀ start tx, fields.foldlM (storeField u ops record pre) start = .ok tx ↔
        (∀ fm ∈ fields, Converts u ops record fm) ∧
          tx = (fields.filterMap (storedBy u ops record)).foldl
            (fun tx p => p.1.put pre p.2 tx) start := by
    intro fields
    induction fields with
    | nil =>
      intro _ start tx
      simp [pure, Except.pure, eq_comm]
    | cons fm fields ih =>
      intro h start tx
      obtain ⟨hfm, hfields⟩ := List.forall_mem_cons.mp h
      rw [List.foldlM_cons, Except.bind_eq_ok]
      simp only [storeField_eq_ok hfm, ih hfields, List.forall_mem_cons]
      cases hstored : storedBy u ops record fm with
      | none =>
        rw [List.filterMap_cons_none hstored]
        simp [and_assoc]
      | some p =>
        rw [List.filterMap_cons_some hstored]
        simp [and_assoc]
  exact hrun fields htargets {} tx

theorem mapRecord_eq_ok (htargets : ∀ fm ∈ fields, fm.target ∈ allowedTargets) {index : ℕ}
    {r : PaymentTransaction × List MappingIssue} :
    mapRecord u ops fields record index = .ok r ↔
      (∀ fm ∈ fields, Converts u ops record fm) ∧
        r.1 = Slot.fill (recordPath index) (fields.filterMap (storedBy u ops record)) ∧
        r.2 = fields.flatMap (fieldIssues ops record) := by
  rw [mapRecord_eq, Except.map_eq_ok]
  simp only [storeFields_eq_ok htargets]
  constructor
  · rintro ⟨tx, ⟨hconverts, htx⟩, rfl⟩
    exact ⟨hconverts, htx, rfl⟩
  · rintro ⟨hconverts, htx, hissues⟩
    exact ⟨r.1, ⟨hconverts, htx⟩, by rw [← hissues]⟩

/-- No two fields store in one slot. -/
theorem nodup_stored (h : (fields.map (·.target)).Nodup) :
    ((fields.filterMap (storedBy u ops record)).map (·.1)).Nodup := by
  have hsub : ((fields.filterMap (storedBy u ops record)).map (·.1.path)).Sublist
      (fields.map (·.target)) := by
    clear h
    induction fields with
    | nil => exact List.Sublist.refl _
    | cons fm fields ih =>
      cases hstored : storedBy u ops record fm with
      | none =>
        rw [List.filterMap_cons_none hstored]
        exact ih.cons _
      | some p =>
        obtain ⟨value, -, htarget, -⟩ := storedBy_eq_some.mp hstored
        rw [List.filterMap_cons_some hstored, List.map_cons, List.map_cons, htarget]
        exact ih.cons_cons _
  have hpaths := hsub.nodup h
  rw [← Function.comp_def Slot.path, ← List.map_map] at hpaths
  exact List.Nodup.of_map Slot.path hpaths

/-! ## Messages -/

variable {definition : MappingDefinition} {source : Source} {clock : Instant}

/-- What the transactions and the issues of a message are. -/
theorem mapToCanonical_transactions
    (htargets : ∀ fm ∈ definition.fields, fm.target ∈ allowedTargets)
    {result : MappingResult} (h : mapToCanonical u ops definition source clock = .ok result) :
    ∃ records, extractRecords ops definition source = .ok records ∧
      (∀ record ∈ records, ∀ fm ∈ definition.fields, Converts u ops record fm) ∧
      result.message.transactions = records.zipIdx.map (fun r =>
        Slot.fill (recordPath r.2) (definition.fields.filterMap (storedBy u ops r.1))) ∧
      result.issues = records.flatMap fun record =>
        definition.fields.flatMap (fieldIssues ops record) := by
  obtain ⟨records, mapped, hrecords, hmapped, htransactions, hissues⟩ := mapToCanonical_parts h
  have hone : ∀ r ∈ records.zipIdx, ∀ b, mapRecord u ops definition.fields r.1 r.2 = .ok b →
      b = (Slot.fill (recordPath r.2) (definition.fields.filterMap (storedBy u ops r.1)),
        definition.fields.flatMap (fieldIssues ops r.1)) := by
    intro r _ b hb
    obtain ⟨-, htx, hissues⟩ := (mapRecord_eq_ok htargets).mp hb
    rw [← htx, ← hissues]
  have heq := Except.eq_map_of_mapM hmapped hone
  refine ⟨records, hrecords, fun record hrecord => ?_, ?_, ?_⟩
  · obtain ⟨i, hi, rfl⟩ := List.mem_iff_getElem.mp hrecord
    have hmem : (records[i], i) ∈ records.zipIdx :=
      List.mem_zipIdx_iff_getElem?.mpr (List.getElem?_eq_getElem hi)
    obtain ⟨b, -, hb⟩ := Except.exists_of_mapM hmapped hmem
    exact ((mapRecord_eq_ok htargets).mp hb).1
  · rw [htransactions, heq, List.map_map]
    rfl
  · have hfst : records.zipIdx.map (·.1) = records := List.zipIdx_map_fst 0 records
    rw [hissues, heq, List.flatMap_map]
    conv_rhs => rw [← hfst, List.flatMap_map]

/-- A source is mapped exactly when its records are found and mapped one by one. -/
theorem mapToCanonical_ok_iff :
    (∃ result, mapToCanonical u ops definition source clock = .ok result) ↔
      ∃ records, extractRecords ops definition source = .ok records ∧
        ∀ i record, records[i]? = some record →
          ∃ r, mapRecord u ops definition.fields record i = .ok r := by
  constructor
  · rintro ⟨result, h⟩
    obtain ⟨records, mapped, hrecords, hmapped, -, -⟩ := mapToCanonical_parts h
    refine ⟨records, hrecords, fun i record hi => ?_⟩
    have hlen := Except.length_mapM hmapped
    rw [List.length_zipIdx] at hlen
    obtain ⟨hlt, -⟩ := List.getElem?_eq_some_iff.mp hi
    have hi' : i < mapped.length := hlen ▸ hlt
    have hm : mapped[i]? = some mapped[i] := List.getElem?_eq_getElem hi'
    obtain ⟨record', hrecord, hmap⟩ := Except.exists_of_mapM_zipIdx hmapped hm
    rw [hi] at hrecord
    cases hrecord
    rw [Nat.zero_add] at hmap
    exact ⟨_, hmap⟩
  · rintro ⟨records, hrecords, hall⟩
    have hmapped : ∀ r ∈ records.zipIdx,
        ∃ b, mapRecord u ops definition.fields r.1 r.2 = .ok b := by
      rintro ⟨record, i⟩ hr
      exact hall i record (List.mem_zipIdx_iff_getElem?.mp hr)
    obtain ⟨mapped, hmapped⟩ := Except.exists_mapM hmapped
    obtain ⟨result, hresult, -⟩ := exists_mapToCanonical clock hrecords hmapped
    exact ⟨result, hresult⟩

/-- A source is mapped by an accepted mapping exactly when every placed value is converted. -/
theorem mapToCanonical_converts_iff
    (htargets : ∀ fm ∈ definition.fields, fm.target ∈ allowedTargets) :
    (∃ result, mapToCanonical u ops definition source clock = .ok result) ↔
      ∃ records, extractRecords ops definition source = .ok records ∧
        ∀ record ∈ records, ∀ fm ∈ definition.fields, Converts u ops record fm := by
  have hrecord : ∀ record index, (∃ r, mapRecord u ops definition.fields record index = .ok r) ↔
      ∀ fm ∈ definition.fields, Converts u ops record fm := by
    intro record index
    simp only [mapRecord_eq_ok htargets]
    exact ⟨fun ⟨r, hconverts, _⟩ => hconverts, fun hconverts => ⟨(_, _), hconverts, rfl, rfl⟩⟩
  simp only [mapToCanonical_ok_iff, hrecord, List.mem_iff_getElem?, forall_exists_index]
  exact exists_congr fun records => and_congr Iff.rfl forall_comm

end

end PaymentOps.Mapping
