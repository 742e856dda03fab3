import PaymentOps.Domain.Models

/-!
# The rules engine

A rule looks at one transaction and returns its findings; the engine runs every rule on every
transaction.  The structural rules are the ones that look at a single field.
-/

namespace PaymentOps

open Text

/-- How severe a finding is. -/
inductive Severity where
  | info | warning | error | critical
  deriving DecidableEq, Repr

/-- What a rule finds, and where. -/
structure RuleFinding where
  ruleId : String
  rulesetVersion : String
  severity : Severity
  target : String
  message : String
  evidence : List String := []
  suggestedAction : Option String := none
  deriving DecidableEq, Repr

/-- The version that each finding carries. -/
def rulesetVersion : String := "cloudnova-address-v1"

/-- A rule judges each transaction by itself. -/
structure Rule where
  ruleId : String
  severity : Severity := .warning
  evaluate : PaymentTransaction → List RuleFinding

/-- A `RuleEngine` is its rules. -/
abbrev RuleEngine := List Rule

/-- The findings, by transaction and then by rule. -/
def RuleEngine.evaluate (rules : RuleEngine) (message : PaymentMessage) : List RuleFinding :=
  message.transactions.flatMap fun tx => rules.flatMap fun rule => rule.evaluate tx

/-- A finding that blocks a candidate. -/
def RuleFinding.blocking (f : RuleFinding) : Bool :=
  f.severity = .error || f.severity = .critical

/-- Some finding blocks the candidate. -/
def blockingFindings (findings : List RuleFinding) : Bool := findings.any (·.blocking)

theorem blockingFindings_eq_false {findings : List RuleFinding} :
    blockingFindings findings = false ↔
      ∀ f ∈ findings, f.severity ≠ .error ∧ f.severity ≠ .critical := by
  simp [blockingFindings, RuleFinding.blocking]

/-! ## Structural rules -/

/-- A rule with one finding, about the element `element` of the transaction. -/
def structuralRule (ruleId : String) (severity : Severity) (element message evidence : String)
    (fails : PaymentTransaction → Bool) : Rule where
  ruleId := ruleId
  severity := severity
  evaluate tx :=
    if fails tx then
      [{ ruleId := ruleId, rulesetVersion := rulesetVersion, severity := severity
         target := tx.sourcePath.getD "None" ++ element, message := message
         evidence := [evidence] }]
    else []

/-- ISO-001. -/
def missingInstructionIdRule : Rule :=
  structuralRule "ISO-001" .warning "/PmtId" "Payment instruction ID (InstrId) is missing"
    "PmtId/InstrId is absent" fun tx => ! truthy tx.instructionId

/-- ISO-002. -/
def missingAmountRule : Rule :=
  structuralRule "ISO-002" .error "/Amt" "Amount is missing or non-positive"
    "Amt/InstdAmt is absent or zero" fun tx => tx.amount.all (·.amountMinor ≤ 0)

/-- ISO-003. -/
def missingEndToEndIdRule : Rule :=
  structuralRule "ISO-003" .info "/PmtId" "End-to-end ID (EndToEndId) is missing"
    "PmtId/EndToEndId is absent" fun tx => ! truthy tx.endToEndId

/-- SEM-001. -/
def missingDebtorAgentBicRule : Rule :=
  structuralRule "SEM-001" .warning "/DbtrAgt" "Debtor agent BIC is missing"
    "DbtrAgt/FinInstnId/BICFI is absent" fun tx => tx.debtorAgent.any (! truthy ·.bic)

/-- SEM-002. -/
def missingCreditorAgentBicRule : Rule :=
  structuralRule "SEM-002" .warning "/CdtrAgt" "Creditor agent BIC is missing"
    "CdtrAgt/FinInstnId/BICFI is absent" fun tx => tx.creditorAgent.any (! truthy ·.bic)

/-- SEM-003. -/
def missingCreditorAccountRule : Rule :=
  structuralRule "SEM-003" .warning "/CdtrAcct" "Creditor account identification missing"
    "CdtrAcct/Id is empty" fun tx =>
      tx.creditorAccount.any fun a => ! (truthy a.iban || truthy a.otherIdentification)

/-- The rules about the structure of a transaction. -/
def structuralRules : RuleEngine :=
  [missingInstructionIdRule, missingAmountRule, missingEndToEndIdRule, missingDebtorAgentBicRule,
    missingCreditorAgentBicRule, missingCreditorAccountRule]

end PaymentOps
