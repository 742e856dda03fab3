import PaymentOps.Address.Normalization
import PaymentOps.Domain.Models

/-!
# The CloudNova address provider

What the provider says about an address: the country and the town that are there or can be derived,
and how ready the address is.
-/

namespace PaymentOps.Address

open Text

/-- The result of an address provider. -/
structure AddressAnalysis where
  provider : String
  providerVersion : String
  countryCode : Option String := none
  countryName : Option String := none
  townName : Option String := none
  postcode : Option String := none
  streetName : Option String := none
  buildingNumber : Option String := none
  normalizedFields : List (String × String) := []
  readiness : AddressReadiness := .unresolved
  evidenceLevel : EvidenceLevel := .low
  available : Bool := true
  note : Option String := none
  fallback : Bool := false
  evidence : List String := []
  deriving DecidableEq, Repr

/-- `_classify`: the readiness of an address by what is known and what can be repaired. -/
def classifyReadiness (countryOk townOk countryRepairable townRepairable hasSignal : Bool) :
    AddressReadiness :=
  if countryOk && townOk then .ready
  else if countryRepairable || townRepairable then .repairable
  else if hasSignal then .reviewRequired
  else .unresolved

namespace CloudNova

/-- What is found out about the country or the town. -/
structure Finding where
  value : Option String := none
  ok : Bool := false
  repairable : Bool := false
  note : Option String := none
  evidence : List String := []

section

variable (u : Unicode) (isUpper : Char → Bool)

/-- Country resolution. -/
def country (address : PostalAddress) : Finding :=
  if truthy address.country then
    let raw := address.country.getD ""
    if isValidCountryCode raw then
      { value := some (u.upper raw)
        ok := true
        note := some "valid ISO alpha-2 code"
        evidence := ["country is a valid ISO alpha-2 code (HIGH)"] }
    else
      let code := normalizeCountryName u raw
      if truthy code then
        { value := code
          repairable := true
          note := some ("normalised from name '" ++ raw ++ "'")
          evidence := ["country name '" ++ raw ++ "' normalised to " ++ code.getD "" ++ " (HIGH)"] }
      else
        { note := some ("unknown country value '" ++ raw ++ "'")
          evidence := ["country value '" ++ raw ++ "' not recognised (LOW)"] }
  else
    let (code, level) := extractCountryFromLines u address.addressLines
    if truthy code then
      { value := code
        repairable := true
        note := some "derived from address line"
        evidence := ["country derived from address line (" ++ level.value ++ ")"] }
    else {}

/-- `normalize_whitespace(address.town_name) if address.town_name else None` -/
def sourceTown (address : PostalAddress) : Option String :=
  if truthy address.townName then address.townName.map normalizeWhitespace else none

/-- Town resolution. -/
def town (address : PostalAddress) (countryCode : Option String) : Finding :=
  if truthy (sourceTown address) then
    { value := sourceTown address
      ok := true
      evidence := ["town present in source (HIGH)"] }
  else
    let (name, level) := extractTownFromLines u isUpper address.addressLines countryCode
    if truthy name then
      { value := name
        repairable := true
        evidence := ["town derived from address line (" ++ level.value ++ ")"] }
    else { value := name }

/-- High when both parts are known or can be repaired, low when neither is. -/
def overallLevel (countryOk countryRepairable townOk townRepairable : Bool) : EvidenceLevel :=
  if (countryOk || countryRepairable) && (townOk || townRepairable) then .high
  else if countryOk || countryRepairable || townOk || townRepairable then .medium
  else .low

/-- A key with its value, when there is one. -/
def entry (key : String) (value : Option String) : List (String × String) :=
  if truthy value then [(key, value.getD "")] else []

/-- `CloudNovaAddressProvider.analyze` -/
def analyze (address : PostalAddress) : AddressAnalysis :=
  let country := country u address
  let town := town u isUpper address country.value
  { provider := "cloudnova"
    providerVersion := "0.1.0"
    countryCode := country.value
    countryName := if truthy country.value && ! country.ok then country.note else none
    townName := town.value
    normalizedFields := entry "country" country.value ++ entry "town_name" town.value
    readiness := classifyReadiness country.ok town.ok country.repairable town.repairable
      (truthy address.country || truthy (sourceTown address) || ! address.addressLines.isEmpty)
    evidenceLevel := overallLevel country.ok country.repairable town.ok town.repairable
    available := true
    note := country.note
    evidence := country.evidence ++ town.evidence }

end

/-! ## Countries -/

section

variable {u : Unicode} {isUpper : Char → Bool} {address : PostalAddress} {c : String}

/-- The code that the provider finds in a country field, without normalizing it first. -/
theorem analyze_countryCode (hcountry : address.country = some c)
    (hlines : address.addressLines = []) : (analyze u isUpper address).countryCode =
      if isValidCountryCode c then some (u.upper c) else normalizeCountryName u c := by
  show (country u address).value = _
  unfold country
  rw [hcountry, hlines]
  by_cases hempty : c = ""
  · subst hempty
    rw [normalizeCountryName_empty]
    rfl
  · rw [if_pos (truthy_some.mpr hempty)]
    dsimp only [Option.getD_some]
    split_ifs with hcode hname
    · rfl
    · rfl
    · exact (not_truthy_name hname).symm

/-- A country that the provider finds is a code. -/
theorem country_valid {code : String} (h : (country u address).value = some code) :
    isValidCountryCode code := by
  unfold country at h
  dsimp only at h
  split_ifs at h with hfield hraw hname hlines
  · have hmem := mem_tables_of_code hraw
    obtain ⟨-, -, -, hupper⟩ := normalized_of_mem_tables (u := u) hmem
    exact (Option.some.inj h).symm.trans hupper ▸ hraw
  · exact valid_of_name h
  · exact valid_of_lines h

theorem ne_empty_of_valid {code : String} (hcode : isValidCountryCode code) : code ≠ "" := by
  rintro rfl
  revert hcode
  decide +kernel

theorem country_of_code {code : String} (h : address.country = some code)
    (hcode : isValidCountryCode code) :
    (country u address).ok ∧ (country u address).value = some code := by
  have hne := ne_empty_of_valid hcode
  obtain ⟨-, -, -, hupper⟩ := normalized_of_mem_tables (u := u) (mem_tables_of_code hcode)
  simp [country, h, truthy_some.mpr hne, hcode, hupper]

/-- The field settles the country exactly when it is a code as it stands. -/
theorem country_ok_iff : (country u address).ok ↔
    ∃ code, address.country = some code ∧ isValidCountryCode code := by
  constructor
  · intro h
    unfold country at h
    dsimp only at h
    split_ifs at h with hfield hraw
    obtain ⟨raw, hsome, -⟩ := truthy_iff.mp hfield
    rw [hsome] at hraw
    exact ⟨raw, hsome, hraw⟩
  · rintro ⟨code, hsome, hcode⟩
    exact (country_of_code hsome hcode).1

/-! ## Towns -/

theorem truthy_sourceTown : truthy (sourceTown address) ↔
    ∃ town, address.townName = some town ∧ normalizeWhitespace town ≠ "" := by
  unfold sourceTown
  cases htown : address.townName with
  | none => simp
  | some town =>
    by_cases hempty : town = ""
    · subst hempty
      have hwords : normalizeWhitespace "" = "" := by decide
      simp [truthy, hwords]
    · simp [truthy, hempty]

/-- The town of the field, or else the first candidate of the lines. -/
theorem town_value {countryCode : Option String}
    (hcode : ∀ code ∈ countryCode, isValidCountryCode code) :
    (town u isUpper address countryCode).value =
      if truthy (sourceTown address) then sourceTown address
      else (townCandidates u isUpper address.addressLines).head? := by
  unfold town
  rw [← extractTownFromLines_eq hcode]
  split_ifs with hsource
  · rfl
  · dsimp only
    split_ifs <;> rfl

theorem town_ok {countryCode : Option String} :
    (town u isUpper address countryCode).ok = truthy (sourceTown address) := by
  unfold town
  split_ifs with hsource
  · exact hsource.symm
  · dsimp only
    split_ifs <;> simpa using hsource

theorem readiness_ready : (analyze u isUpper address).readiness = .ready ↔
    (country u address).ok ∧ truthy (sourceTown address) := by
  have h : (analyze u isUpper address).readiness = classifyReadiness (country u address).ok
      (town u isUpper address (country u address).value).ok (country u address).repairable
      (town u isUpper address (country u address).value).repairable
      (truthy address.country || truthy (sourceTown address) || ! address.addressLines.isEmpty) :=
    rfl
  rw [h, town_ok]
  unfold classifyReadiness
  split_ifs <;> simp_all

end

/-- The provider and the normalizer agree on a country exactly when it is a code as it stands, or a
name once it is stripped and upper-cased, or nothing even to the normalizer. -/
theorem countryCode_eq_iff (u : Unicode) (hu : u.KeepsWords) (isUpper : Char → Bool)
    (address : PostalAddress) (c : String) (hcountry : address.country = some c)
    (hlines : address.addressLines = []) :
    ((analyze u isUpper address).countryCode = (normalizeCountryField u (some c)).1 ∧
        ((analyze u isUpper address).countryCode = none ↔
          (normalizeCountryField u (some c)).1 = none)) ↔
      isValidCountryCode c ∨ (normalizeCountryName u c).isSome ∨
        isValidCountryCode (cleaned u c) = false ∧ normalizeCountryName u (cleaned u c) = none := by
  rw [analyze_countryCode hcountry hlines, normalizeCountryField_code]
  by_cases hcode : isValidCountryCode c
  · -- a code is a code after any normalization
    have hmem := mem_tables_of_code hcode
    obtain ⟨-, -, hstrip, hupper⟩ := normalized_of_mem_tables (u := u) hmem
    have hcleaned : cleaned u c = c := by
      rw [cleaned_of_mem_tables hu (by rwa [hstrip, hupper]), hstrip, hupper]
    simp [hcode, hcleaned, hupper]
  · cases hname : normalizeCountryName u c with
    | some code =>
      -- a name is the same name to the normalizer, where it is no code
      have hcleaned := cleaned_of_mem_tables hu (mem_tables_of_name hname)
      obtain ⟨-, -, hstrip, hupper⟩ := normalized_of_mem_tables (u := u) (mem_tables_of_name hname)
      have hnormalized : normalizeCountryName u (cleaned u c) = some code := by
        rw [normalizeCountryName, hcleaned, hstrip, hupper]
        exact hname
      have hnocode : isValidCountryCode (cleaned u c) = false := by
        rw [hcleaned]
        exact (name_spec hname).1
      simp [hcode, hnocode, hnormalized]
    | none =>
      by_cases hcleaned : isValidCountryCode (cleaned u c) <;> simp [hcode, hcleaned, eq_comm]

/-- A code in lower case is one to the normalizer only. -/
theorem countryCode_ne_lower_case :
    ¬ ((analyze .ascii Char.isUpper { country := some "it" }).countryCode =
        (normalizeCountryField .ascii (some "it")).1 ∧
      ((analyze .ascii Char.isUpper { country := some "it" }).countryCode = none ↔
        (normalizeCountryField .ascii (some "it")).1 = none)) := by
  decide +kernel

theorem countryCode_eq_iff_italy :
    ((analyze .ascii Char.isUpper { country := some " Italy " }).countryCode =
          (normalizeCountryField .ascii (some " Italy ")).1 ∧
        ((analyze .ascii Char.isUpper { country := some " Italy " }).countryCode = none ↔
          (normalizeCountryField .ascii (some " Italy ")).1 = none)) ↔
      isValidCountryCode " Italy " ∨ (normalizeCountryName .ascii " Italy ").isSome ∨
        isValidCountryCode (cleaned .ascii " Italy ") = false ∧
          normalizeCountryName .ascii (cleaned .ascii " Italy ") = none :=
  countryCode_eq_iff .ascii Unicode.ascii_keepsWords Char.isUpper { country := some " Italy " }
    " Italy " rfl rfl

end CloudNova

end PaymentOps.Address
