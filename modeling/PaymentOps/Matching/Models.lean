import PaymentOps.Lib.Calendar
import PaymentOps.Lib.Decimal
import PaymentOps.Lib.Dict
import PaymentOps.Lib.JsonDumps

/-!
# Records, policies and decisions of the matching engine
-/

namespace PaymentOps.Matching

/-- The kinds of records. -/
inductive RecordType where
  | payment | expectedPayment | invoice | ledgerEntry | accountEvent
  deriving DecidableEq, Repr

/-- Result of comparing a single field between two records. -/
inductive FieldStatus where
  | exact | mismatch | missing | notApplicable
  deriving DecidableEq, Repr

/-- How a field is compared. -/
inductive ComparisonType where
  | exact | fuzzy | range | none
  deriving DecidableEq, Repr

/-- What the evaluation says of a pair. -/
inductive MatchClassification where
  | matched | possibleMatch | unmatched | reviewRequired | duplicateCandidate
  deriving DecidableEq, Repr

/-- The name of a classification. -/
def MatchClassification.value : MatchClassification → String
  | .matched => "MATCHED"
  | .possibleMatch => "POSSIBLE_MATCH"
  | .unmatched => "UNMATCHED"
  | .reviewRequired => "REVIEW_REQUIRED"
  | .duplicateCandidate => "DUPLICATE_CANDIDATE"

/-- Lifecycle of a reconciliation run; `PARTIAL` is `partlyFailed`. -/
inductive MatchStatus where
  | queued | running | completed | partlyFailed | failed
  deriving DecidableEq, Repr

/-- Canonical match record. -/
structure MatchRecord where
  recordId : String
  recordType : RecordType
  organizationId : String
  profileId : Option String := none
  sourceSystem : Option String := none
  messageType : Option String := none
  instructionId : Option String := none
  endToEndId : Option String := none
  transactionId : Option String := none
  amount : Option Decimal := none
  currency : Option String := none
  bookingDate : Option Date := none
  valueDate : Option Date := none
  debtorName : Option String := none
  creditorName : Option String := none
  debtorAccount : Option String := none
  creditorAccount : Option String := none
  debtorAgent : Option String := none
  creditorAgent : Option String := none
  remittanceReference : Option String := none
  externalReference : Option String := none
  country : Option String := none
  sourceHash : Option String := none
  metadata : Dict String Json := []

/-- The fields that the matcher compares, in the order of `_FIELD_SPECS`. -/
inductive Field where
  | transactionId | endToEndId | debtorAccount | creditorAccount | debtorAgent | creditorAgent
  | currency | country | amount | bookingDate | valueDate | remittanceReference
  | externalReference | debtorName | creditorName
  deriving DecidableEq, Repr

/-- The key of a field in a policy. -/
def Field.key : Field → String
  | transactionId => "transaction_id"
  | endToEndId => "end_to_end_id"
  | debtorAccount => "debtor_account"
  | creditorAccount => "creditor_account"
  | debtorAgent => "debtor_agent"
  | creditorAgent => "creditor_agent"
  | currency => "currency"
  | country => "country"
  | amount => "amount"
  | bookingDate => "booking_date"
  | valueDate => "value_date"
  | remittanceReference => "remittance_reference"
  | externalReference => "external_reference"
  | debtorName => "debtor_name"
  | creditorName => "creditor_name"

/-- A normalized value. -/
inductive Value where
  | text (s : String)
  | decimal (d : Decimal)
  deriving DecidableEq

/-- `str(value)` -/
def Value.str : Value → String
  | text s => s
  | decimal d => d.toString

/-- Structured result of comparing one field between two records. -/
structure FieldMatchResult where
  field : Field
  comparisonType : ComparisonType
  normalizedA : Option Value
  normalizedB : Option Value
  similarity : ℚ
  weight : ℚ
  critical : Bool
  status : FieldStatus
  explanationCode : String
  deriving DecidableEq

/-- A critical-field conflict that may override a high fuzzy score. -/
structure CriticalConflict where
  code : String
  field : Field
  detail : String
  deriving DecidableEq

/-- Deterministic match evaluation result between exactly two records. -/
structure MatchDecision where
  recordAId : String
  recordBId : String
  classification : MatchClassification
  matchScore : ℚ
  criticalConflicts : List CriticalConflict
  fieldResults : List FieldMatchResult
  explanationCodes : List String
  policyVersion : String
  engineVersion : String
  deriving DecidableEq

/-- Versioned, configurable deterministic matching policy. -/
structure MatchingPolicy where
  organizationId : String
  name : String
  version : ℕ := 1
  fieldWeights : Dict String ℚ := []
  thresholds : Dict String ℚ := []
  dateTolerances : Dict String ℤ := []
  amountTolerances : Dict String ℚ := []
  criticalFields : List String := []
  fuzzyAlgorithms : Dict String String := []
  deriving DecidableEq

/-- `default_policy` -/
def defaultPolicy (organizationId : String) (name : String := "Development Baseline")
    (version : ℕ := 1) : MatchingPolicy where
  organizationId := organizationId
  name := name
  version := version
  fieldWeights := [
    ("transaction_id", 30), ("end_to_end_id", 25), ("debtor_account", 20),
    ("creditor_account", 20), ("amount", 15), ("currency", 10), ("remittance_reference", 15),
    ("external_reference", 10), ("debtor_name", 10), ("creditor_name", 10), ("booking_date", 5),
    ("value_date", 5), ("debtor_agent", 5), ("creditor_agent", 5), ("country", 5)]
  thresholds := [("matched", 85), ("possible_match", 60), ("review", 40)]
  dateTolerances := [("booking_date", 3), ("value_date", 3)]
  amountTolerances := []
  criticalFields := ["currency", "amount", "transaction_id", "debtor_account", "creditor_account"]
  fuzzyAlgorithms := [
    ("debtor_name", "token_set_ratio"), ("creditor_name", "token_set_ratio"),
    ("remittance_reference", "token_sort_ratio"), ("external_reference", "token_sort_ratio")]

end PaymentOps.Matching
