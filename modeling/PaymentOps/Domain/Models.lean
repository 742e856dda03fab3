import PaymentOps.Lib.Calendar

/-!
# Canonical domain models

The canonical payment message that every adapter produces, the status report of a pacs.002, and
the account reports of camt.053 and camt.054.  Fields that no adapter fills are left out.
-/

namespace PaymentOps

/-- A reading of the clock, in microseconds. -/
abbrev Instant := ℤ

/-- The formats that messages come from. -/
inductive SourceFormat where
  | xmlPacs008 | xmlPacs009 | xmlPain001 | xmlCamt053 | xmlCamt054 | json | csv | api | unknown
  deriving DecidableEq, Repr

/-- What is known of the validity of a message. -/
inductive ValidationStatus where
  | pending | valid | invalid | construction | rejected
  deriving DecidableEq, Repr

/-- The states of a repair candidate. -/
inductive CandidateStatus where
  | proposed | validated | reviewRequired | unresolved
  deriving DecidableEq, Repr

/-- How ready an address is for structured use. -/
inductive AddressReadiness where
  | ready | repairable | reviewRequired | unresolved
  deriving DecidableEq, Repr

/-- Uncalibrated evidence strength, not a probability. -/
inductive EvidenceLevel where
  | high | medium | low
  deriving DecidableEq, Repr

/-- The text of a level. -/
def EvidenceLevel.value : EvidenceLevel → String
  | high => "HIGH"
  | medium => "MEDIUM"
  | low => "LOW"

/-- A monetary value in minor units. -/
structure MonetaryAmount where
  amountMinor : ℤ := 0
  currency : String := "EUR"
  deriving DecidableEq, Repr

/-- `original_fields`: the address values as they were received. -/
structure OriginalFields where
  strtNm : Option String := none
  bldgNb : Option String := none
  pstCd : Option String := none
  twnNm : Option String := none
  ctry : Option String := none
  deriving DecidableEq, Repr

/-- A postal address in ISO 20022 PostalAddress24 terms. -/
structure PostalAddress where
  streetName : Option String := none
  buildingNumber : Option String := none
  postcode : Option String := none
  townName : Option String := none
  country : Option String := none
  addressLines : List String := []
  sourcePath : Option String := none
  originalFields : OriginalFields := {}
  deriving DecidableEq, Repr

/-- An account of a payment. -/
structure Account where
  iban : Option String := none
  otherIdentification : Option String := none
  name : Option String := none
  sourcePath : Option String := none
  deriving DecidableEq, Repr

/-- A financial institution (agent). -/
structure FinancialInstitution where
  bic : Option String := none
  clearingSystemMember : Option String := none
  name : Option String := none
  postalAddress : Option PostalAddress := none
  sourcePath : Option String := none
  deriving DecidableEq, Repr

/-- A party of a payment. -/
structure Party where
  name : Option String := none
  postalAddress : Option PostalAddress := none
  financialInstitution : Option FinancialInstitution := none
  sourcePath : Option String := none
  deriving DecidableEq, Repr

/-- Update the address of an agent, and nothing else. -/
def FinancialInstitution.mapAddress (f : PostalAddress → PostalAddress)
    (a : FinancialInstitution) : FinancialInstitution :=
  { a with postalAddress := a.postalAddress.map f }

/-- Update the address of a party, and nothing else. -/
def Party.mapAddress (f : PostalAddress → PostalAddress) (p : Party) : Party :=
  { p with postalAddress := p.postalAddress.map f }

/-- What a payment is for. -/
structure RemittanceInformation where
  unstructured : List String := []
  reference : Option String := none
  sourcePath : Option String := none
  deriving DecidableEq, Repr

/-- A single credit transfer transaction within a message. -/
structure PaymentTransaction where
  instructionId : Option String := none
  endToEndId : Option String := none
  transactionId : Option String := none
  amount : Option MonetaryAmount := none
  debtor : Option Party := none
  creditor : Option Party := none
  debtorAccount : Option Account := none
  creditorAccount : Option Account := none
  debtorAgent : Option FinancialInstitution := none
  creditorAgent : Option FinancialInstitution := none
  remittance : Option RemittanceInformation := none
  requestedExecutionDate : Option DateTime := none
  sourcePath : Option String := none
  deriving DecidableEq

/-- The canonical representation of a complete inbound payment message. -/
structure PaymentMessage where
  messageType : Option String := none
  messageId : Option String := none
  creationDatetime : Option DateTime := none
  transactions : List PaymentTransaction := []
  sourceFormat : SourceFormat := .unknown
  /-- `default_factory`: the clock when the message was built -/
  receivedAt : Instant
  validationStatus : ValidationStatus := .pending
  sourceMetadata : List (String × String) := []
  deriving DecidableEq

/-! ## Lifecycles -/

/-- The normalized statuses of a payment. -/
inductive PaymentStatus where
  | accepted | rejected | pending | processing | partiallyAccepted | unknown
  deriving DecidableEq, Repr

/-- `status.value` -/
def PaymentStatus.value : PaymentStatus → String
  | accepted => "ACCEPTED"
  | rejected => "REJECTED"
  | pending => "PENDING"
  | processing => "PROCESSING"
  | partiallyAccepted => "PARTIALLY_ACCEPTED"
  | unknown => "UNKNOWN"

theorem PaymentStatus.value_injective {a b : PaymentStatus} (h : a.value = b.value) : a = b := by
  cases a <;> cases b <;> first | rfl | exact absurd h (by decide)

theorem PaymentStatus.truthy_value (a : PaymentStatus) : Text.truthy (some a.value) := by
  cases a <;> decide

/-- What the correlation says of two profiles. -/
inductive CorrelationStatus where
  | correlated | possibleCorrelation | unresolved | conflict | ambiguous
  deriving DecidableEq, Repr

/-- The name of a correlation status. -/
def CorrelationStatus.value : CorrelationStatus → String
  | correlated => "CORRELATED"
  | possibleCorrelation => "POSSIBLE_CORRELATION"
  | unresolved => "UNRESOLVED"
  | conflict => "CONFLICT"
  | ambiguous => "AMBIGUOUS"

/-- A reason of a status. -/
structure StatusReason where
  code : Option String := none
  proprietaryCode : Option String := none
  additionalInformation : Option String := none
  originator : Option String := none
  deriving DecidableEq, Repr

/-- A reference to a related payment message. -/
structure RelatedPaymentReference where
  instructionId : Option String := none
  endToEndId : Option String := none
  transactionId : Option String := none
  amount : Option MonetaryAmount := none
  deriving DecidableEq, Repr

/-- A single transaction-level status within a pacs.002 status report. -/
structure TransactionStatus where
  originalInstructionId : Option String := none
  originalEndToEndId : Option String := none
  originalTransactionId : Option String := none
  rawIsoStatus : Option String := none
  normalizedStatus : PaymentStatus := .unknown
  reasons : List StatusReason := []
  amount : Option MonetaryAmount := none
  reference : Option RelatedPaymentReference := none
  deriving DecidableEq, Repr

/-- Canonical representation of a pacs.002 status report. -/
structure LifecycleStatusReport where
  messageFamily : String
  messageDefinition : String
  messageVersion : String
  namespace_ : String
  messageId : Option String := none
  creationDatetime : Option DateTime := none
  originalMessageId : Option String := none
  originalMessageDefinition : Option String := none
  groupStatusRaw : Option String := none
  groupStatus : PaymentStatus := .unknown
  transactionStatuses : List TransactionStatus := []
  deriving DecidableEq

/-! ## Account reporting -/

/-- Whether an entry is a credit or a debit. -/
inductive CreditDebitIndicator where
  | crdt | dbit
  deriving DecidableEq, Repr

/-- The code of an indicator. -/
def CreditDebitIndicator.value : CreditDebitIndicator → String
  | crdt => "CRDT"
  | dbit => "DBIT"

/-- Statements are camt.053, notifications camt.054. -/
inductive AccountReportType where
  | statement | notification
  deriving DecidableEq, Repr

/-- The kinds of balances. -/
inductive BalanceType where
  | opening | closing | interim | available | forwardAvailable
  deriving DecidableEq, Repr

/-- `BalanceType(code)` -/
def BalanceType.ofCode (code : String) : Option BalanceType :=
  if code = "OPBD" then some opening
  else if code = "CLBD" then some closing
  else if code = "ITBD" then some interim
  else if code = "AVLB" then some available
  else if code = "FWAV" then some forwardAvailable
  else none

/-- What the reconciliation says of an entry. -/
inductive AccountReconciliationStatus where
  | reconciled | possibleReconciliation | unmatchedAccountEntry | missingAccountEvent
  | amountMismatch | currencyMismatch | accountMismatch | referenceMismatch
  | duplicateAccountEntry | reviewRequired
  deriving DecidableEq, Repr

/-- The name of a reconciliation status. -/
def AccountReconciliationStatus.value : AccountReconciliationStatus → String
  | reconciled => "RECONCILED"
  | possibleReconciliation => "POSSIBLE_RECONCILIATION"
  | unmatchedAccountEntry => "UNMATCHED_ACCOUNT_ENTRY"
  | missingAccountEvent => "MISSING_ACCOUNT_EVENT"
  | amountMismatch => "AMOUNT_MISMATCH"
  | currencyMismatch => "CURRENCY_MISMATCH"
  | accountMismatch => "ACCOUNT_MISMATCH"
  | referenceMismatch => "REFERENCE_MISMATCH"
  | duplicateAccountEntry => "DUPLICATE_ACCOUNT_ENTRY"
  | reviewRequired => "REVIEW_REQUIRED"

/-- An account identifier in a camt message. -/
structure AccountReference where
  iban : Option String := none
  otherIdentification : Option String := none
  currency : Option String := none
  name : Option String := none
  servicerBic : Option String := none
  deriving DecidableEq, Repr

/-- A balance of a report. -/
structure AccountBalance where
  type : BalanceType
  amount : MonetaryAmount
  creditDebit : CreditDebitIndicator := .crdt
  deriving DecidableEq, Repr

/-- The code of a bank transaction. -/
structure BankTransactionCode where
  code : Option String := none
  proprietary : Option String := none
  family : Option String := none
  subFamily : Option String := none
  deriving DecidableEq, Repr

/-- A single account movement. -/
structure AccountEntry where
  entryReference : Option String := none
  accountServicerReference : Option String := none
  transactionId : Option String := none
  instructionId : Option String := none
  endToEndId : Option String := none
  uetr : Option String := none
  amount : Option MonetaryAmount := none
  currency : Option String := none
  creditDebit : Option CreditDebitIndicator := none
  bookingDate : Option Date := none
  valueDate : Option Date := none
  status : Option String := none
  bankTransactionCode : Option BankTransactionCode := none
  remittanceReference : Option String := none
  debtor : Option Party := none
  creditor : Option Party := none
  relatedAgents : List String := []
  originalMessageReference : Option String := none
  sourceMessageId : Option String := none
  reconciliationStatus : Option AccountReconciliationStatus := none
  evidence : List String := []
  deriving DecidableEq

/-- The text that `identity_hash` hashes: nine parts joined by `|`. -/
def AccountEntry.identityText (e : AccountEntry) : String :=
  Text.join "|" [
    e.accountServicerReference.getD "",
    e.transactionId.getD "",
    e.endToEndId.getD "",
    e.uetr.getD "",
    e.instructionId.getD "",
    e.entryReference.getD "",
    (e.amount.map fun a => toString a.amountMinor).getD "",
    e.currency.getD "",
    (e.creditDebit.map (·.value)).getD ""]

/-- Canonical account report: a camt.053 statement or a camt.054 notification. -/
structure AccountReport where
  messageFamily : String
  messageDefinition : Option String := none
  messageVersion : Option String := none
  namespace_ : String
  messageId : Option String := none
  creationDatetime : Option DateTime := none
  reportType : AccountReportType
  account : Option AccountReference := none
  statementId : Option String := none
  notificationId : Option String := none
  periodStart : Option Date := none
  periodEnd : Option Date := none
  balances : List AccountBalance := []
  entries : List AccountEntry := []
  deriving DecidableEq

/-- One camt message may contain several statements or notifications. -/
structure AccountReportBundle where
  messageFamily : String
  messageDefinition : String
  messageVersion : String
  namespace_ : String
  messageId : Option String := none
  creationDatetime : Option DateTime := none
  reportType : AccountReportType
  reports : List AccountReport := []
  deriving DecidableEq

/-- The entries of all reports of a message. -/
def AccountReportBundle.numberOfEntries (b : AccountReportBundle) : ℕ :=
  b.reports.foldl (fun n r => n + r.entries.length) 0

/-- What an adapter makes of a message. -/
inductive Artifact where
  | payment (message : PaymentMessage)
  | status (report : LifecycleStatusReport)
  | account (bundle : AccountReportBundle)
  deriving DecidableEq

/-! ## Failures -/

/-- The exceptions that leave the services. -/
inductive ServiceError where
  | malformedXml (message : String)
  | payloadTooLarge (message : String)
  | prohibitedEntity (message : String)
  | encodingError (message : String)
  | unsupportedMessage (identifier : String)
  | unsupportedMessageType (message : String)
  | validationError (message : String)
  | overflowError (message : String)
  | valueError (message : String)
  | indexError (message : String)
  | typeError (message : String)
  | integrityError (constraint : String)
  deriving DecidableEq, Repr

end PaymentOps
