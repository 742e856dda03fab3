import PaymentOps.Domain.Countries
import PaymentOps.Rules.Base

/-!
# Address rules

The rules about the country of an address, its town and its structure, and the rule set of
CloudNova, in which they follow the structural rules.  An address rule has a finding for each
address on which it fails, so `mem_addressRule` says all about one.
-/

namespace PaymentOps

open Text

/-- Some field of `_STRUCTURED_FIELDS` has a value. -/
def hasStructured (a : PostalAddress) : Bool :=
  truthy a.streetName || truthy a.buildingNumber || truthy a.postcode || truthy a.townName ||
    truthy a.country

/-- `_addresses` -/
def labelledAddresses (tx : PaymentTransaction) : List (String × PostalAddress) :=
  ((tx.debtor.bind (·.postalAddress)).map ("Dbtr", ·)).toList ++
    ((tx.creditor.bind (·.postalAddress)).map ("Cdtr", ·)).toList ++
    ((tx.debtorAgent.bind (·.postalAddress)).map ("DbtrAgt", ·)).toList ++
    ((tx.creditorAgent.bind (·.postalAddress)).map ("CdtrAgt", ·)).toList

/-- What an address rule looks for, and what it says about an address with the given label. -/
structure AddressCheck where
  ruleId : String
  severity : Severity
  message : String
  evidence : String → PostalAddress → String
  suggestedAction : Option String := none
  fails : PostalAddress → Bool

/-- The finding of a check on an address. -/
def AddressCheck.finding (c : AddressCheck) (label : String) (a : PostalAddress) :
    RuleFinding where
  ruleId := c.ruleId
  rulesetVersion := rulesetVersion
  severity := c.severity
  target := label ++ "/PstlAdr"
  message := c.message
  evidence := [c.evidence label a]
  suggestedAction := c.suggestedAction

/-- A rule with one finding for each address on which it fails. -/
def addressRule (c : AddressCheck) : Rule where
  ruleId := c.ruleId
  severity := c.severity
  evaluate tx := ((labelledAddresses tx).filter (c.fails ·.2)).map fun p => c.finding p.1 p.2

/-- A country without a town. -/
def townMissing : AddressCheck where
  ruleId := "ADR-001"
  severity := .warning
  message := "Town name is missing"
  evidence label _ := label ++ "/PstlAdr/TwnNm is absent"
  suggestedAction := some "Provide TwnNm or derive from address lines"
  fails a := a.townName.isNone && a.country.isSome

/-- An address without a country. -/
def countryMissing : AddressCheck where
  ruleId := "ADR-002"
  severity := .error
  message := "Country is missing"
  evidence label _ := label ++ "/PstlAdr/Ctry is absent"
  suggestedAction := some "Provide ISO 3166-1 alpha-2 Ctry"
  fails a := a.country.isNone

/-- A country that is no code. -/
def invalidCountryCode : AddressCheck where
  ruleId := "ADR-003"
  severity := .error
  message := "Country code is not a valid ISO 3166-1 alpha-2 code"
  evidence _ a := "Ctry='" ++ a.country.getD "None" ++ "'"
  suggestedAction := some "Normalise to ISO alpha-2 code"
  fails a := a.country.any (! isValidCountryCode ·)

/-- Lines without structured fields. -/
def unstructuredAddress : AddressCheck where
  ruleId := "ADR-004"
  severity := .warning
  message := "Address is unstructured and requires readiness review"
  evidence label _ := label ++ "/PstlAdr contains only AdrLine"
  suggestedAction := some "Structure address from AdrLine"
  fails a := ! hasStructured a && ! a.addressLines.isEmpty

/-- Lines beside structured fields. -/
def hybridAddress : AddressCheck where
  ruleId := "ADR-005"
  severity := .info
  message := "Hybrid address (structured + AdrLine) requires evaluation"
  evidence label _ := label ++ "/PstlAdr has both structured fields and AdrLine"
  fails a := hasStructured a && ! a.addressLines.isEmpty

/-- ADR-001. -/
def townMissingRule : Rule := addressRule townMissing

/-- ADR-002. -/
def countryMissingRule : Rule := addressRule countryMissing

/-- ADR-003. -/
def invalidCountryCodeRule : Rule := addressRule invalidCountryCode

/-- ADR-004. -/
def unstructuredAddressRule : Rule := addressRule unstructuredAddress

/-- ADR-005. -/
def hybridAddressRule : Rule := addressRule hybridAddress

/-- The checks in the order of the rules. -/
def addressChecks : List AddressCheck :=
  [townMissing, countryMissing, invalidCountryCode, unstructuredAddress, hybridAddress]

/-- The rules about addresses. -/
def addressRules : RuleEngine :=
  [townMissingRule, countryMissingRule, invalidCountryCodeRule, unstructuredAddressRule,
    hybridAddressRule]

/-- `ADDRESS_RULESET` -/
def addressRuleset : RuleEngine := structuralRules ++ addressRules

/-- `build_address_ruleset` -/
def buildAddressRuleset : RuleEngine := addressRuleset

/-! ## Findings -/

section

variable {m : PaymentMessage} {rules overlay : RuleEngine} {f : RuleFinding}

theorem mem_evaluate : f ∈ rules.evaluate m ↔
    ∃ tx ∈ m.transactions, ∃ rule ∈ rules, f ∈ rule.evaluate tx := by
  simp [RuleEngine.evaluate]

theorem mem_evaluate_append :
    f ∈ RuleEngine.evaluate (rules ++ overlay) m ↔
      f ∈ rules.evaluate m ∨ f ∈ overlay.evaluate m := by
  simp only [mem_evaluate, List.mem_append, or_and_right, exists_or, and_or_left]

theorem mem_addressRule {c : AddressCheck} {tx : PaymentTransaction} :
    f ∈ (addressRule c).evaluate tx ↔
      ∃ p ∈ labelledAddresses tx, c.fails p.2 ∧ c.finding p.1 p.2 = f := by
  simp [addressRule, and_assoc]

theorem addressRules_eq : addressRules = addressChecks.map addressRule := rfl

/-- A finding of the address rules is one check's finding about one address. -/
theorem mem_addressRules : f ∈ addressRules.evaluate m ↔
    ∃ tx ∈ m.transactions, ∃ p ∈ labelledAddresses tx, ∃ c ∈ addressChecks,
      c.fails p.2 ∧ c.finding p.1 p.2 = f := by
  rw [mem_evaluate, addressRules_eq]
  constructor
  · rintro ⟨tx, htx, rule, hrule, hf⟩
    obtain ⟨c, hc, rfl⟩ := List.mem_map.mp hrule
    obtain ⟨p, hp, hfails, hfinding⟩ := mem_addressRule.mp hf
    exact ⟨tx, htx, p, hp, c, hc, hfails, hfinding⟩
  · rintro ⟨tx, htx, p, hp, c, hc, hfails, hfinding⟩
    exact ⟨tx, htx, _, List.mem_map_of_mem hc, mem_addressRule.mpr ⟨p, hp, hfails, hfinding⟩⟩

/-- A finding carries the id and the severity of its rule. -/
theorem finding_of_rule {rule : Rule} (hrule : rule ∈ addressRuleset) {tx : PaymentTransaction}
    (hf : f ∈ rule.evaluate tx) : f.ruleId = rule.ruleId ∧ f.severity = rule.severity := by
  have hstructural : ∀ id severity element message evidence fails,
      rule = structuralRule id severity element message evidence fails →
        f.ruleId = rule.ruleId ∧ f.severity = rule.severity := by
    rintro id severity element message evidence fails rfl
    simp only [structuralRule] at hf
    split_ifs at hf with hfails
    · obtain rfl := List.mem_singleton.mp hf
      exact ⟨rfl, rfl⟩
    · cases hf
  rcases List.mem_append.mp hrule with h | h
  · simp only [structuralRules, List.mem_cons, List.not_mem_nil, or_false] at h
    rcases h with rfl | rfl | rfl | rfl | rfl | rfl <;>
      exact hstructural _ _ _ _ _ _ rfl
  · rw [addressRules_eq] at h
    obtain ⟨c, -, rfl⟩ := List.mem_map.mp h
    obtain ⟨p, -, -, rfl⟩ := mem_addressRule.mp hf
    exact ⟨rfl, rfl⟩

end

end PaymentOps
