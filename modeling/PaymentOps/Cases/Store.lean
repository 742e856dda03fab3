import PaymentOps.Domain.Models
import PaymentOps.Lib.Session
import PaymentOps.Lib.Table

/-!
# Cases

The rows of the payment cases, which have different ids, of the operators' actions on them and of
the audit trail.
-/

namespace PaymentOps.Cases

/-- The states of a case. -/
inductive CaseStatus where
  | new | analyzed | repairProposed | reviewRequired | approved | rejected | closed
  deriving DecidableEq, Repr

/-- `status in ("APPROVED", "REJECTED", "CLOSED")` -/
def CaseStatus.terminal : CaseStatus → Bool
  | approved | rejected | closed => true
  | new | analyzed | repairProposed | reviewRequired => false

/-- The columns of `payment_cases` that are read. -/
structure PaymentCase where
  caseId : String
  organizationId : Option String := none
  messageType : Option String := none
  mappingVersion : Option String := none
  integrationProfileVersion : Option String := none
  addressProviderCoverage : Option String := none
  status : CaseStatus := .new
  idempotencyKey : Option String := none
  deriving DecidableEq, Repr

/-- A row of `case_actions`. -/
structure CaseAction where
  organizationId : String
  caseId : String
  action : String
  operator : Option String
  note : Option String
  createdAt : Instant
  deriving DecidableEq, Repr

/-- `action_metadata` -/
structure ActionMetadata where
  classification : Option String := none
  action : Option String := none
  note : Option String := none
  role : Option String := none
  entryId : Option ℕ := none
  deriving DecidableEq, Repr

/-- A row of `audit_events`. -/
structure AuditEvent where
  organizationId : Option String := none
  caseId : Option String := none
  profileId : Option String := none
  profileVersion : Option String := none
  eventType : String
  userIdentity : Option String := none
  actionMetadata : Option ActionMetadata := none
  createdAt : Instant
  deriving DecidableEq, Repr

/-- The tables of the cases. -/
structure CaseStore where
  cases : Table PaymentCase.caseId := {}
  actions : List CaseAction := []
  auditEvents : List AuditEvent := []

/-- What the case services raise. -/
inductive CaseError where
  | lookupError (message : String)
  | valueError (message : String)
  | integrityError (column : String)
  | dataError (column : String)
  | multipleResultsFound
  | analysisError (message : String)
  | httpException (status : ℕ) (detail : String)
  deriving DecidableEq, Repr

/-- A session over the tables of the cases. -/
abbrev CaseService (α : Type) := Session CaseStore CaseError α

/-- `get_case` -/
def getCase (org caseId : String) (s : CaseStore) : Except CaseError PaymentCase :=
  match (s.cases.find caseId).filter (·.organizationId = some org) with
  | some case => .ok case
  | none => .error (.lookupError "case not found")

theorem getCase_eq_ok {org caseId : String} {s : CaseStore} {case : PaymentCase} :
    getCase org caseId s = .ok case ↔
      s.cases.find caseId = some case ∧ case.organizationId = some org := by
  have hfilter : (s.cases.find caseId).filter (·.organizationId = some org) = some case ↔
      s.cases.find caseId = some case ∧ case.organizationId = some org := by
    rw [Option.filter_eq_some_iff, decide_eq_true_iff]
  rw [← hfilter, getCase]
  cases (s.cases.find caseId).filter (·.organizationId = some org) <;> simp

end PaymentOps.Cases
