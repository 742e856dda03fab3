import PaymentOps.Account.Reconciliation
import PaymentOps.Lib.RowOrder
import PaymentOps.Lib.Session
import PaymentOps.Lifecycle.Correlation

/-!
# The store of the ISO services

The tables that the ISO analysis and the account-reporting services read and write.  A row's key
is its position in its table; rows are never deleted.  Timestamps that no service reads are left
out, and so is the width of the columns: an insert takes every amount, while a 32-bit column
refuses one outside its range (`Service/StoredAmounts` says which).  The results are about runs
whose inserts the columns take.  `D` is the type of the digests of messages.
-/

namespace PaymentOps

/-- The columns of `iso_messages`. -/
structure IsoMessage (D : Type) where
  organizationId : String
  messageId : Option String
  messageFamily : String
  messageDefinition : String
  messageVersion : String
  namespace_ : String
  sourceAdapter : String
  adapterVersion : String
  schemaVersion : String
  schemaValidation : Bool
  messageHash : D
  inputHash : D
  canonicalModelVersion : String
  engineVersion : String
  status : String
  rawStatus : Option String
  normalizedStatus : Option String
  deriving DecidableEq

/-- The columns of `payment_lifecycles`. -/
structure PaymentLifecycleRow where
  organizationId : String
  endToEndId : Option String := none
  instructionId : Option String := none
  transactionId : Option String := none
  uetr : Option String := none
  originalMessageId : Option String := none
  debtorAccount : Option String := none
  creditorAccount : Option String := none
  amountMinor : Option ℤ := none
  currency : Option String := none
  currentStatus : String := "UNKNOWN"
  createdAt : Instant
  deriving DecidableEq, Repr

/-- The columns of `payment_lifecycle_events`. -/
structure PaymentLifecycleEventRow (D : Type) where
  organizationId : String
  lifecycleId : ℕ
  eventType : String
  messageFamily : Option String
  messageDefinition : Option String
  messageVersion : Option String
  messageId : Option String
  status : String
  rawStatusCode : Option String
  correlationEvidence : List String
  sourceHash : Option D
  deriving DecidableEq

/-- The columns of `account_reports`. -/
structure AccountReportRow where
  organizationId : String
  isoMessageId : Option ℕ
  messageId : Option String
  messageDefinition : String
  messageVersion : String
  reportType : AccountReportType
  accountIban : Option String
  accountOtherId : Option String
  accountCurrency : Option String
  servicerBic : Option String
  statementId : Option String
  notificationId : Option String
  periodStart : Option Date
  periodEnd : Option Date
  entryCount : ℕ
  deriving DecidableEq

/-- The columns of `account_entries`. -/
structure AccountEntryRow where
  organizationId : String
  reportId : ℕ
  entryReference : Option String
  accountServicerReference : Option String
  transactionId : Option String
  instructionId : Option String
  endToEndId : Option String
  uetr : Option String
  amountMinor : Option ℤ
  currency : Option String
  creditDebit : Option CreditDebitIndicator
  bookingDate : Option Date
  valueDate : Option Date
  status : Option String
  bankTxCode : Option String
  bankTxFamily : Option String
  bankTxSubFamily : Option String
  remittanceReference : Option String
  identityHash : String
  reconciliationStatus : Option AccountReconciliationStatus := none
  matchScore : Option ℚ := none
  lifecycleId : Option ℕ := none
  evidence : List String := []
  conflicts : List String := []
  deriving DecidableEq

/-- The columns of `account_balances`. -/
structure AccountBalanceRow where
  organizationId : String
  reportId : ℕ
  balanceType : BalanceType
  amountMinor : ℤ
  currency : String
  creditDebit : CreditDebitIndicator
  deriving DecidableEq

/-- The columns of `account_reconciliations`. -/
structure AccountReconciliationRow where
  organizationId : String
  accountEntryId : ℕ
  lifecycleId : Option ℕ
  classification : AccountReconciliationStatus
  matchScore : ℚ
  evidence : List String
  conflicts : List String
  status : String
  deriving DecidableEq

/-- The columns of `payment_cases` that the account services fill; `case_id` is unique. -/
structure PaymentCase where
  caseId : String
  organizationId : Option String
  messageType : String
  status : String
  deriving DecidableEq, Repr

/-- The audit events of account exceptions. -/
structure AuditEvent where
  organizationId : String
  caseId : String
  eventType : String
  classification : String
  entryId : ℕ
  deriving DecidableEq, Repr

/-- The tables. -/
structure Store (D : Type) where
  isoMessages : List (IsoMessage D) := []
  lifecycles : List PaymentLifecycleRow := []
  lifecycleEvents : List (PaymentLifecycleEventRow D) := []
  accountReports : List AccountReportRow := []
  accountBalances : List AccountBalanceRow := []
  accountEntries : List AccountEntryRow := []
  accountReconciliations : List AccountReconciliationRow := []
  cases : List PaymentCase := []
  auditEvents : List AuditEvent := []
  deriving DecidableEq

/-- What the deduplication hash of a message is computed from. -/
structure MessageKey (D : Type) where
  family : String
  version : String
  messageId : Option String
  hash : D
  deriving DecidableEq

/-- The hash functions: of a canonical model, of a message key, and of an entry identity. -/
structure Hashing (D : Type) where
  input : Artifact → D
  message : MessageKey D → D
  identity : String → String

/-- No two inputs of the message hashes have the same digest. -/
structure Hashing.Injective {D : Type} (hash : Hashing D) : Prop where
  input : Function.Injective hash.input
  message : Function.Injective hash.message

/-- Digests that keep what they are computed from. -/
inductive Digest where
  | input (artifact : Artifact)
  | message (family version : String) (messageId : Option String) (hash : Digest)
  deriving DecidableEq

/-- Hashing without collisions, as every digest keeps what is hashed. -/
def Hashing.structural : Hashing Digest where
  input := .input
  message k := .message k.family k.version k.messageId k.hash
  identity text := text

theorem Hashing.structural_injective : Hashing.structural.Injective where
  input a b h := by simpa [structural] using h
  message k l h := by
    cases k
    cases l
    simpa [structural] using h

/-- What a service is given by its surroundings: Unicode, the hash functions, and the orders in
which the database returns rows. -/
structure Env (D : Type) where
  unicode : Unicode
  hash : Hashing D
  isoOrder : RowOrder (Store D) Store.isoMessages
  lifecycleOrder : RowOrder (Store D) Store.lifecycles
  eventOrder : RowOrder (Store D) Store.lifecycleEvents
  entryOrder : RowOrder (Store D) Store.accountEntries

/-- Rows come back in the order of their keys. -/
def Env.insertion {D : Type} (hash : Hashing D) : Env D where
  unicode := .ascii
  hash := hash
  isoOrder := .insertion _ _
  lifecycleOrder := .insertion _ _
  eventOrder := .insertion _ _
  entryOrder := .insertion _ _

/-- A service call. -/
abbrev Service (D α : Type) := Session (Store D) ServiceError α

namespace Store

variable {D : Type}

/-- `session.add(row); commit(); refresh(row)`: the key of the new row. -/
def addLifecycle (row : PaymentLifecycleRow) : Service D ℕ :=
  .transact fun s =>
    .ok (s.lifecycles.length, { s with lifecycles := s.lifecycles ++ [row] })

/-- Insert a lifecycle event. -/
def addEvent (row : PaymentLifecycleEventRow D) : Service D Unit :=
  .commit fun s => { s with lifecycleEvents := s.lifecycleEvents ++ [row] }

/-- Update the lifecycle with key `id` in place. -/
def updateLifecycle (id : ℕ) (f : PaymentLifecycleRow → PaymentLifecycleRow) : Service D Unit :=
  .commit fun s => { s with lifecycles := s.lifecycles.modify id f }

/-- Update the account entry with key `id` in place. -/
def updateEntry (id : ℕ) (f : AccountEntryRow → AccountEntryRow) : Service D Unit :=
  .commit fun s => { s with accountEntries := s.accountEntries.modify id f }

end Store

end PaymentOps
