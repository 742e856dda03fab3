import PaymentOps.Address.CloudNova
import PaymentOps.Repair.Proposals

/-!
# Repaired addresses

What the changes of an address make of it, and what the CloudNova provider says about the result.

* `value_repaired`: a field of the repaired address is the new value, if there is one;
* `country_repaired`, `sourceTown_repaired`: what the provider finds in the repaired address;
* `repair_fixpoint_iff`: when the repaired address is changed no more;
* `repairable_ready_iff`: when the repaired address is ready.
-/

namespace PaymentOps.Repair

open Text
open Address (normalizeWhitespace townCandidates)
open Address.CloudNova (sourceTown)

/-- The address after a change, when the repaired message is read again. -/
def reread (a : PostalAddress) (change : DiffEntry) : PostalAddress :=
  let field := (segments change.path).getLastD ""
  match change.after with
  | none => a
  | some v =>
    if field = "Ctry" then Leaf.country.replace v a
    else if field = "TwnNm" then Leaf.town.replace v a
    else a

/-- The address with all its changes. -/
def repaired (provider : AddressProvider) (a : PostalAddress) : PostalAddress :=
  (addressChanges provider a).foldl reread a

/-- The value to which the generator changes a field. -/
def newValue (provider : AddressProvider) (a : PostalAddress) (leaf : Leaf) : Option String :=
  if truthy a.sourcePath then
    (leaf.resolved (provider a)).filter fun v => v ≠ "" ∧ leaf.received a ≠ some v
  else none

/-! ## The fields of the repaired address -/

section

variable {provider : AddressProvider} {a : PostalAddress} {leaf : Leaf} {v : String}

theorem newValue_eq_some : newValue provider a leaf = some v ↔ truthy a.sourcePath ∧
    leaf.resolved (provider a) = some v ∧ v ≠ "" ∧ leaf.received a ≠ some v := by
  unfold newValue
  split_ifs with hpath <;> simp [hpath, Option.filter_eq_some_iff]

theorem newValue_eq_none : newValue provider a leaf = none ↔ truthy a.sourcePath →
    ∀ v, leaf.resolved (provider a) = some v → v ≠ "" → leaf.received a = some v := by
  unfold newValue
  split_ifs with hpath <;> simp [hpath, Option.filter_eq_none_iff]

/-- The change of a field to `v`. -/
def leafChange (a : PostalAddress) (leaf : Leaf) (v : String) : DiffEntry where
  path := a.sourcePath.getD "" ++ "/" ++ leaf.name
  before := leaf.received a
  after := some v
  source := .addressProvider

/-- The changes of an address are its new values. -/
theorem addressChanges_eq_newValue (provider : AddressProvider) (a : PostalAddress) :
    addressChanges provider a =
      ((newValue provider a .country).map (leafChange a .country)).toList ++
        ((newValue provider a .town).map (leafChange a .town)).toList := by
  have hfield : ∀ leaf : Leaf, truthy a.sourcePath →
      fieldChange (a.sourcePath.getD "") leaf.name (leaf.received a) (leaf.resolved (provider a)) =
        ((newValue provider a leaf).map (leafChange a leaf)).toList := by
    intro leaf hpath
    unfold fieldChange newValue
    rw [if_pos hpath]
    cases leaf.resolved (provider a) with
    | none => rfl
    | some v =>
      simp only [truthy_some]
      by_cases hv : v ≠ "" ∧ leaf.received a ≠ some v
      · rw [if_pos hv, Option.filter_some_pos (by simpa using hv)]
        rfl
      · rw [if_neg hv, Option.filter_some_neg (by simpa using hv)]
        rfl
  unfold addressChanges
  split_ifs with hpath
  · exact congrArg₂ (· ++ ·) (hfield .country hpath) (hfield .town hpath)
  · simp [newValue, hpath]

theorem addressChanges_eq_nil : addressChanges provider a = [] ↔
    newValue provider a .country = none ∧ newValue provider a .town = none := by
  rw [addressChanges_eq_newValue]
  simp

theorem reread_leafChange (b : PostalAddress) :
    reread b (leafChange a leaf v) = leaf.replace v b := by
  have hfield : (segments (leafChange a leaf v).path).getLastD "" = leaf.name := by
    rw [leafChange, segments_append, segments_leaf, List.getLastD_concat]
  unfold reread
  rw [hfield]
  cases leaf <;> rfl

theorem foldl_leafChange (new : Option String) (b : PostalAddress) :
    ((new.map (leafChange a leaf)).toList).foldl reread b =
      new.elim b fun v => leaf.replace v b := by
  cases new with
  | none => rfl
  | some v => exact reread_leafChange b

/-- What a new value of one field makes of a field. -/
theorem fields_replace {new : Option String} (hne : ∀ v, new = some v → truthy (some v))
    (leaf leaf' : Leaf) (b : PostalAddress) :
    leaf'.value (new.elim b fun v => leaf.replace v b) =
        (if leaf = leaf' then new else none).or (leaf'.value b) ∧
      leaf'.received (new.elim b fun v => leaf.replace v b) =
        (if leaf = leaf' then new else none).or (leaf'.received b) := by
  cases new with
  | none => simp
  | some v =>
    have hor : ∀ received, Text.or (some v) received = some v := fun _ => if_pos (hne v rfl)
    cases leaf with
    | country =>
      cases leaf' with
      | country => exact ⟨rfl, hor _⟩
      | town => exact ⟨rfl, rfl⟩
    | town =>
      cases leaf' with
      | country => exact ⟨rfl, rfl⟩
      | town => exact ⟨rfl, hor _⟩

/-- A field of the repaired address, and the value received for it. -/
theorem value_repaired (provider : AddressProvider) (a : PostalAddress) (leaf : Leaf) :
    leaf.value (repaired provider a) = (newValue provider a leaf).or (leaf.value a) ∧
      leaf.received (repaired provider a) = (newValue provider a leaf).or (leaf.received a) := by
  have hne : ∀ leaf v, newValue provider a leaf = some v → truthy (some v) := by
    intro leaf v h
    exact truthy_some.mpr (newValue_eq_some.mp h).2.2.1
  have hcountry := fields_replace (hne .country) .country leaf a
  have htown := fields_replace (hne .town) .town leaf
    ((newValue provider a .country).elim a fun v => Leaf.country.replace v a)
  rw [repaired, addressChanges_eq_newValue, List.foldl_append, foldl_leafChange,
    foldl_leafChange, htown.1, htown.2, hcountry.1, hcountry.2]
  cases leaf <;> simp

theorem rest_repaired (provider : AddressProvider) (a : PostalAddress) :
    (repaired provider a).sourcePath = a.sourcePath ∧
      (repaired provider a).addressLines = a.addressLines := by
  have hstep : ∀ change b, (reread b change).sourcePath = b.sourcePath ∧
      (reread b change).addressLines = b.addressLines := by
    intro change b
    unfold reread
    cases change.after with
    | none => exact ⟨rfl, rfl⟩
    | some v => dsimp only; split_ifs <;> exact ⟨rfl, rfl⟩
  unfold repaired
  generalize addressChanges provider a = changes
  induction changes generalizing a with
  | nil => exact ⟨rfl, rfl⟩
  | cons change changes ih =>
    have h := hstep change a
    have hrest := ih (a := reread a change)
    exact ⟨hrest.1.trans h.1, hrest.2.trans h.2⟩

end

/-! ## The CloudNova provider -/

/-- The provider as the generator sees it. -/
def cloudNova (u : Unicode) (isUpper : Char → Bool) : AddressProvider := fun a =>
  let analysis := Address.CloudNova.analyze u isUpper a
  { countryCode := analysis.countryCode
    townName := analysis.townName
    fallback := analysis.fallback }

section

variable {u : Unicode} {isUpper : Char → Bool} {a : PostalAddress} {v : String}

theorem resolved_country : Leaf.country.resolved (cloudNova u isUpper a) =
    (Address.CloudNova.country u a).value := rfl

/-- The town of the field, or else the first candidate of the lines. -/
theorem resolved_town : Leaf.town.resolved (cloudNova u isUpper a) =
    if truthy (sourceTown a) then sourceTown a
    else (townCandidates u isUpper a.addressLines).head? :=
  Address.CloudNova.town_value fun _ => Address.CloudNova.country_valid

/-- The provider finds the same country in the repaired address. -/
theorem country_repaired :
    (Address.CloudNova.country u (repaired (cloudNova u isUpper) a)).value =
      (Address.CloudNova.country u a).value := by
  have hvalue := (value_repaired (cloudNova u isUpper) a .country).1
  have hlines := (rest_repaired (cloudNova u isUpper) a).2
  cases hnew : newValue (cloudNova u isUpper) a .country with
  | none =>
    rw [hnew, Option.none_or] at hvalue
    simp only [Leaf.value] at hvalue
    unfold Address.CloudNova.country
    rw [hvalue, hlines]
  | some code =>
    rw [hnew, Option.some_or] at hvalue
    have hcode : (Address.CloudNova.country u a).value = some code :=
      (newValue_eq_some.mp hnew).2.1
    have hvalid := Address.CloudNova.country_valid hcode
    rw [hcode, (Address.CloudNova.country_of_code hvalue hvalid).2]

/-- A new town is read with single blanks. -/
theorem sourceTown_repaired (u : Unicode) (isUpper : Char → Bool) (a : PostalAddress) :
    sourceTown (repaired (cloudNova u isUpper) a) =
      (newValue (cloudNova u isUpper) a .town).elim (sourceTown a)
        fun town => some (normalizeWhitespace town) := by
  have hvalue := (value_repaired (cloudNova u isUpper) a .town).1
  simp only [Leaf.value] at hvalue
  unfold sourceTown
  rw [hvalue]
  cases hnew : newValue (cloudNova u isUpper) a .town with
  | none => rfl
  | some town =>
    have hne := truthy_some.mpr (newValue_eq_some.mp hnew).2.2.1
    rw [Option.some_or, if_pos hne]
    rfl

/-- A new town is not blank, and one that the field gives has single blanks already. -/
theorem newTown_spec {town : String} (h : newValue (cloudNova u isUpper) a .town = some town) :
    normalizeWhitespace town ≠ "" ∧ (truthy (sourceTown a) → normalizeWhitespace town = town) := by
  obtain ⟨-, hresolved, hne, -⟩ := newValue_eq_some.mp h
  rw [resolved_town] at hresolved
  by_cases hsource : truthy (sourceTown a)
  · rw [if_pos hsource] at hresolved
    have hwords : normalizeWhitespace town = town := by
      unfold sourceTown at hresolved
      split_ifs at hresolved
      obtain ⟨field, -, rfl⟩ := Option.map_eq_some_iff.mp hresolved
      exact Address.normalizeWhitespace_normalizeWhitespace field
    exact ⟨hwords.symm ▸ hne, fun _ => hwords⟩
  · rw [if_neg hsource] at hresolved
    have hcandidate := List.mem_of_head? hresolved
    exact ⟨(Address.normalizeWhitespace_candidate hcandidate).2, fun h => absurd h hsource⟩

/-- The country needs no second change. -/
theorem newCountry_repaired :
    newValue (cloudNova u isUpper) (repaired (cloudNova u isUpper) a) .country = none := by
  rw [Option.eq_none_iff_forall_ne_some]
  intro code hnew
  obtain ⟨hpath, hresolved, hne, hreceived⟩ := newValue_eq_some.mp hnew
  rw [resolved_country, country_repaired] at hresolved
  rw [(value_repaired _ _ .country).2] at hreceived
  rw [(rest_repaired _ _).1] at hpath
  cases hold : newValue (cloudNova u isUpper) a .country with
  | none =>
    rw [hold, Option.none_or] at hreceived
    exact hreceived (newValue_eq_none.mp hold hpath code hresolved hne)
  | some code' =>
    have hsame : (Address.CloudNova.country u a).value = some code' :=
      (newValue_eq_some.mp hold).2.1
    rw [hold, Option.some_or, ← hsame] at hreceived
    exact hreceived hresolved

/-- The town needs no second change exactly when the new one has single blanks. -/
theorem newTown_repaired :
    newValue (cloudNova u isUpper) (repaired (cloudNova u isUpper) a) .town = none ↔
      ∀ town, newValue (cloudNova u isUpper) a .town = some town →
        normalizeWhitespace town = town := by
  have hreceived := (value_repaired (cloudNova u isUpper) a .town).2
  obtain ⟨hpath, hlines⟩ := rest_repaired (cloudNova u isUpper) a
  have hsource := sourceTown_repaired u isUpper a
  rw [newValue_eq_none, resolved_town, hreceived, hpath, hlines, hsource]
  cases hold : newValue (cloudNova u isUpper) a .town with
  | none =>
    rw [newValue_eq_none, resolved_town] at hold
    exact iff_of_true hold nofun
  | some town =>
    obtain ⟨hwords, -⟩ := newTown_spec hold
    obtain ⟨hpath, -⟩ := newValue_eq_some.mp hold
    rw [Option.elim_some, if_pos (truthy_some.mpr hwords), Option.some_or]
    constructor
    · intro h town' htown
      obtain rfl := Option.some.inj htown
      exact (Option.some.inj (h hpath _ rfl hwords)).symm
    · intro h _ v hv _
      obtain rfl := Option.some.inj hv
      exact congrArg some (h town rfl).symm

end

/-- The repaired address is changed once more exactly when its town comes from the lines, is not the
one received and has other white space than single blanks. -/
theorem repair_fixpoint_iff (u : Unicode) (isUpper : Char → Bool) (a : PostalAddress) :
    addressChanges (cloudNova u isUpper) (repaired (cloudNova u isUpper) a) = [] ↔
      (truthy a.sourcePath →
        (∀ town, a.townName = some town → normalizeWhitespace town = "") →
        ∀ town, (townCandidates u isUpper a.addressLines).head? = some town →
          Leaf.town.received a ≠ some town → normalizeWhitespace town = town) := by
  have hblank : (∀ town, a.townName = some town → normalizeWhitespace town = "") ↔
      ¬ truthy (sourceTown a) := by
    rw [Address.CloudNova.truthy_sourceTown]
    push Not
    rfl
  rw [addressChanges_eq_nil, newTown_repaired, and_iff_right newCountry_repaired, hblank]
  constructor
  · intro h hpath hsource town hfirst hreceived
    have hresolved : Leaf.town.resolved (cloudNova u isUpper a) = some town := by
      rw [resolved_town, if_neg hsource, hfirst]
    have hne := (Address.normalizeWhitespace_candidate (List.mem_of_head? hfirst)).1
    exact h town (newValue_eq_some.mpr ⟨hpath, hresolved, hne, hreceived⟩)
  · intro h town hnew
    by_cases hsource : truthy (sourceTown a)
    · exact (newTown_spec hnew).2 hsource
    · obtain ⟨hpath, hresolved, -, hreceived⟩ := newValue_eq_some.mp hnew
      rw [resolved_town, if_neg hsource] at hresolved
      exact h hpath hsource town hresolved hreceived

/-- A town with two blanks between its words is changed to one with a single blank in the second
round. -/
theorem repair_again_reggio :
    let provider := cloudNova .ascii Char.isUpper
    let a : PostalAddress :=
      { addressLines := ["Via Roma 1, Reggio  Emilia, Italy"]
        sourcePath := some "/Document/FIToFICstmrCdtTrf/CdtTrfTxInf[1]/Cdtr/PstlAdr" }
    addressChanges provider (repaired provider a) ≠ [] := by
  decide +kernel

/-! ## Readiness -/

section

variable {u : Unicode} {isUpper : Char → Bool} {a : PostalAddress}

/-- The country field of the repaired address is a code when it was one or has been changed. -/
theorem country_ok_repaired :
    (Address.CloudNova.country u (repaired (cloudNova u isUpper) a)).ok ↔
      (Address.CloudNova.country u a).ok ∨
        (newValue (cloudNova u isUpper) a .country).isSome := by
  have hvalue := (value_repaired (cloudNova u isUpper) a .country).1
  rw [Address.CloudNova.country_ok_iff, Address.CloudNova.country_ok_iff]
  change (∃ code, Leaf.country.value (repaired (cloudNova u isUpper) a) = some code ∧ _) ↔ _
  rw [hvalue]
  cases hnew : newValue (cloudNova u isUpper) a .country with
  | none => simp [Leaf.value]
  | some code =>
    have hvalid := Address.CloudNova.country_valid (newValue_eq_some.mp hnew).2.1
    simp [hvalid]

theorem truthy_sourceTown_repaired :
    truthy (sourceTown (repaired (cloudNova u isUpper) a)) ↔
      truthy (sourceTown a) ∨ (newValue (cloudNova u isUpper) a .town).isSome := by
  rw [sourceTown_repaired]
  cases hnew : newValue (cloudNova u isUpper) a .town with
  | none => simp
  | some town => simpa [truthy_some] using (newTown_spec hnew).1

end

/-- The repaired address is ready exactly when the generator looks at it, and each of the country
and the town is there or is changed. -/
theorem repairable_ready_iff (u : Unicode) (isUpper : Char → Bool) (a : PostalAddress)
    (h : (Address.CloudNova.analyze u isUpper a).readiness = .repairable) :
    (Address.CloudNova.analyze u isUpper (repaired (cloudNova u isUpper) a)).readiness = .ready ↔
      truthy a.sourcePath ∧
        ((∃ code, a.country = some code ∧ isValidCountryCode code) ∨
          ∃ code, (Address.CloudNova.analyze u isUpper a).countryCode = some code ∧
            Leaf.country.received a ≠ some code) ∧
        ((∃ town, a.townName = some town ∧ normalizeWhitespace town ≠ "") ∨
          ∃ town, (townCandidates u isUpper a.addressLines).head? = some town ∧
            Leaf.town.received a ≠ some town) := by
  rw [Address.CloudNova.readiness_ready]
  by_cases hpath : truthy a.sourcePath
  · have hcountry : (newValue (cloudNova u isUpper) a .country).isSome ↔
        ∃ code, (Address.CloudNova.analyze u isUpper a).countryCode = some code ∧
          Leaf.country.received a ≠ some code := by
      rw [Option.isSome_iff_exists]
      apply exists_congr
      intro code
      rw [newValue_eq_some, and_iff_right hpath]
      constructor
      · rintro ⟨hresolved, -, hreceived⟩
        exact ⟨hresolved, hreceived⟩
      · rintro ⟨hresolved, hreceived⟩
        exact ⟨hresolved, Address.CloudNova.ne_empty_of_valid
          (Address.CloudNova.country_valid hresolved), hreceived⟩
    have htown : truthy (sourceTown a) ∨ (newValue (cloudNova u isUpper) a .town).isSome ↔
        truthy (sourceTown a) ∨ ∃ town,
          (townCandidates u isUpper a.addressLines).head? = some town ∧
            Leaf.town.received a ≠ some town := by
      by_cases hsource : truthy (sourceTown a)
      · simp [hsource]
      · rw [Option.isSome_iff_exists]
        apply or_congr_right
        apply exists_congr
        intro town
        rw [newValue_eq_some, and_iff_right hpath, resolved_town, if_neg hsource]
        constructor
        · rintro ⟨hfirst, -, hreceived⟩
          exact ⟨hfirst, hreceived⟩
        · rintro ⟨hfirst, hreceived⟩
          exact ⟨hfirst, (Address.normalizeWhitespace_candidate (List.mem_of_head? hfirst)).1,
            hreceived⟩
    rw [country_ok_repaired, truthy_sourceTown_repaired, hcountry, htown,
      Address.CloudNova.country_ok_iff, Address.CloudNova.truthy_sourceTown]
    simp [hpath]
  · -- the generator leaves the address as it is, and it was not ready
    have hsame : repaired (cloudNova u isUpper) a = a := by
      simp [repaired, addressChanges, hpath]
    rw [hsame, ← Address.CloudNova.readiness_ready, h]
    simp [hpath]

/-- A country can be derived from its name, but the town is missing in the end. -/
theorem not_ready_italy :
    let provider := cloudNova .ascii Char.isUpper
    let a : PostalAddress :=
      { country := some "Italy"
        originalFields := { ctry := some "Italy" }
        sourcePath := some "/Document/FIToFICstmrCdtTrf/CdtTrfTxInf[1]/Cdtr/PstlAdr" }
    (Address.CloudNova.analyze .ascii Char.isUpper a).readiness = .repairable ∧
      (Address.CloudNova.analyze .ascii Char.isUpper (repaired provider a)).readiness ≠ .ready := by
  decide +kernel

/-- An address line that names a town and a country. -/
def milano : PostalAddress where
  addressLines := ["Main Street 10, 20121 Milano, Milano, Italy"]
  sourcePath := some "/Document/FIToFICstmrCdtTrf/CdtTrfTxInf[1]/Cdtr/PstlAdr"

theorem repairable_ready_milano :
    (Address.CloudNova.analyze .ascii Char.isUpper
        (repaired (cloudNova .ascii Char.isUpper) milano)).readiness = .ready ↔
      truthy milano.sourcePath ∧
        ((∃ code, milano.country = some code ∧ isValidCountryCode code) ∨
          ∃ code, (Address.CloudNova.analyze .ascii Char.isUpper milano).countryCode = some code ∧
            Leaf.country.received milano ≠ some code) ∧
        ((∃ town, milano.townName = some town ∧ normalizeWhitespace town ≠ "") ∨
          ∃ town, (townCandidates .ascii Char.isUpper milano.addressLines).head? = some town ∧
            Leaf.town.received milano ≠ some town) :=
  repairable_ready_iff .ascii Char.isUpper milano (by decide +kernel)

end PaymentOps.Repair
