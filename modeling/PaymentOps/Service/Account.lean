import PaymentOps.Service.Store

/-!
# Account reporting

`ingestAccountReport` persists the reports of a camt message and, for each entry, either
recognizes an earlier entry with the same identity or reconciles the entry with a lifecycle.
-/

namespace PaymentOps

open Text Reconciliation

variable {D : Type}

/-- The statuses for which a case is opened. -/
def exceptionStatuses : List AccountReconciliationStatus :=
  [.missingAccountEvent, .amountMismatch, .currencyMismatch, .accountMismatch,
    .duplicateAccountEntry, .reviewRequired]

namespace AccountService

/-- `_persist_report`: the row of a report. -/
def persistReport (org : String) (report : AccountReport) (isoMessageId : Option ℕ) :
    Service D ℕ :=
  .transact fun s =>
    let row : AccountReportRow := {
      organizationId := org
      isoMessageId := isoMessageId
      messageId := report.messageId
      messageDefinition := (or report.messageDefinition (some "unknown")).getD "unknown"
      messageVersion := (or report.messageVersion (some "unknown")).getD "unknown"
      reportType := report.reportType
      accountIban := report.account.bind (·.iban)
      accountOtherId := report.account.bind (·.otherIdentification)
      accountCurrency := report.account.bind (·.currency)
      servicerBic := report.account.bind (·.servicerBic)
      statementId := report.statementId
      notificationId := report.notificationId
      periodStart := report.periodStart
      periodEnd := report.periodEnd
      entryCount := report.entries.length }
    .ok (s.accountReports.length, { s with accountReports := s.accountReports ++ [row] })

/-- The row of a balance. -/
def balanceRow (org : String) (reportId : ℕ) (bal : AccountBalance) : AccountBalanceRow where
  organizationId := org
  reportId := reportId
  balanceType := bal.type
  amountMinor := bal.amount.amountMinor
  currency := bal.amount.currency
  creditDebit := bal.creditDebit

/-- The balances of a report. -/
def persistBalances (org : String) (report : AccountReport) (reportId : ℕ) : Service D Unit :=
  if report.balances.isEmpty then pure ()
  else .commit fun s =>
    { s with accountBalances := s.accountBalances ++ report.balances.map (balanceRow org reportId) }

/-- `_entry_to_row`. -/
def entryToRow (org : String) (entry : AccountEntry) (reportId : ℕ) (identityHash : String) :
    AccountEntryRow where
  organizationId := org
  reportId := reportId
  entryReference := entry.entryReference
  accountServicerReference := entry.accountServicerReference
  transactionId := entry.transactionId
  instructionId := entry.instructionId
  endToEndId := entry.endToEndId
  uetr := entry.uetr
  amountMinor := entry.amount.map (·.amountMinor)
  currency := or entry.currency (entry.amount.map (·.currency))
  creditDebit := entry.creditDebit
  bookingDate := entry.bookingDate
  valueDate := entry.valueDate
  status := entry.status
  bankTxCode := entry.bankTransactionCode.bind (·.code)
  bankTxFamily := entry.bankTransactionCode.bind (·.family)
  bankTxSubFamily := entry.bankTransactionCode.bind (·.subFamily)
  remittanceReference := entry.remittanceReference
  identityHash := identityHash

/-- Insert an entry, under the next key. -/
def addEntry (row : AccountEntryRow) : Service D ℕ :=
  .transact fun s =>
    .ok (s.accountEntries.length, { s with accountEntries := s.accountEntries ++ [row] })

/-- `_add_lifecycle_event` of an entry. -/
def addLifecycleEvent (org : String) (lifecycleId : ℕ) (entry : AccountEntry)
    (report : AccountReport) (eventType : String) : Service D Unit :=
  Store.addEvent {
    organizationId := org
    lifecycleId := lifecycleId
    eventType := eventType
    messageFamily := some "camt"
    messageDefinition := report.messageDefinition
    messageVersion := report.messageVersion
    messageId := entry.sourceMessageId
    status := (or entry.status (some "BOOK")).getD "BOOK"
    rawStatusCode := entry.status
    correlationEvidence := entry.evidence
    sourceHash := none }

/-- The id of the case of an entry, by its identity alone. -/
def caseIdFor (identityHash : String) : String := "case-acct-" ++ take 16 identityHash

/-- Create one case per exception, unless the organization has it.  The case id is unique over
all organizations. -/
def ensureCase (org : String) (entryId : ℕ) (identityHash classification : String) :
    Service D Unit := do
  let caseId := caseIdFor identityHash
  let existing ← Session.read fun s : Store D =>
    s.cases.any fun c => c.caseId = caseId && c.organizationId = org
  if existing then pure ()
  else .transact fun s =>
    if s.cases.any (·.caseId = caseId) then .error (.integrityError "payment_cases.case_id")
    else .ok ((), { s with
      cases := s.cases ++ [{
        caseId := caseId, organizationId := org, messageType := classification
        status := "REVIEW_REQUIRED" }]
      auditEvents := s.auditEvents ++ [{
        organizationId := org, caseId := caseId, eventType := "account_exception.created"
        classification := classification, entryId := entryId }] })

/-- `_persist_reconciliation`, for an entry that may have one already. -/
def persistReconciliation (org : String) (entryId : ℕ) (lifecycleId : Option ℕ)
    (classification : AccountReconciliationStatus) (matchScore : ℚ)
    (evidence conflicts : List String) : Service D Unit :=
  .commit fun s => { s with accountReconciliations := s.accountReconciliations ++ [{
    organizationId := org, accountEntryId := entryId, lifecycleId := lifecycleId
    classification := classification, matchScore := matchScore, evidence := evidence
    conflicts := conflicts, status := "PENDING" }] }

/-- The context in which an entry is reconciled with a stored lifecycle. -/
def lifecycleContext (l : PaymentLifecycleRow) : LifecycleAccountContext where
  messageId := l.originalMessageId
  originalMessageId := l.originalMessageId
  transactionId := l.transactionId
  endToEndId := l.endToEndId
  instructionId := l.instructionId
  uetr := l.uetr
  reference := none
  amountMinor := l.amountMinor
  currency := l.currency
  debtorAccount := l.debtorAccount
  creditorAccount := l.creditorAccount

/-- The lifecycle shares a reference with the entry. -/
def entryMatches (org : String) (entry : AccountEntry) (l : PaymentLifecycleRow) : Bool :=
  l.organizationId == org &&
    ((truthy entry.uetr && l.uetr == entry.uetr) ||
      (truthy entry.transactionId && l.transactionId == entry.transactionId) ||
      (truthy entry.endToEndId && l.endToEndId == entry.endToEndId) ||
      (truthy entry.instructionId && l.instructionId == entry.instructionId))

/-- The entry has the identity in the organization. -/
def hasIdentity (org identityHash : String) (e : AccountEntryRow) : Bool :=
  e.organizationId == org && e.identityHash == identityHash

/-- `_report_type_of` -/
def reportTypeOf (s : Store D) (reportId : ℕ) : Option AccountReportType :=
  s.accountReports[reportId]?.map (·.reportType)

section

variable (env : Env D)

/-- The first entry of the organization with this identity. -/
def findEntryByIdentity (org identityHash : String) (s : Store D) :
    Option (ℕ × AccountEntryRow) :=
  env.entryOrder.first s (hasIdentity org identityHash)

/-- `_find_lifecycle_for_entry`: the first row that shares a reference. -/
def findLifecycleForEntry (org : String) (entry : AccountEntry) (s : Store D) :
    Option (ℕ × PaymentLifecycleRow) :=
  env.lifecycleOrder.first s (entryMatches org entry)

/-- `_reconcile_and_persist`. -/
def reconcileAndPersist (org : String) (entryId : ℕ) (identityHash : String)
    (entry : AccountEntry) (report : AccountReport)
    (lifecycle : Option (ℕ × PaymentLifecycleRow)) : Service D Unit :=
  match lifecycle with
  | none => do
    Store.updateEntry entryId fun row =>
      { row with
        reconciliationStatus := some .unmatchedAccountEntry, evidence := [], conflicts := [] }
    persistReconciliation org entryId none .unmatchedAccountEntry 0 [] []
  | some (lifecycleId, row) => do
    let result := reconcileAccountEntry env.unicode entry report.account (lifecycleContext row)
    let evidence := result.evidence.map Evidence.value
    let conflicts := result.conflicts.map Conflict.value
    Store.updateEntry entryId fun row =>
      { row with
        reconciliationStatus := some result.classification, matchScore := some result.matchScore
        evidence := evidence, conflicts := conflicts, lifecycleId := some lifecycleId }
    persistReconciliation org entryId (some lifecycleId) result.classification result.matchScore
      evidence conflicts
    addLifecycleEvent org lifecycleId entry report
      (if entry.creditDebit = some .dbit then "DEBIT_RECORDED" else "CREDIT_RECORDED")
    if exceptionStatuses.contains result.classification then
      ensureCase org entryId identityHash result.classification.value
    else pure ()

/-- Whether an entry repeats an entry of the same kind of report, or confirms one of the other
kind. -/
def duplicateStatus (s : Store D) (report : AccountReport) (reportId : ℕ)
    (existing : AccountEntryRow) : AccountReconciliationStatus :=
  if existing.reportId = reportId ∨ reportTypeOf s existing.reportId = some report.reportType then
    .duplicateAccountEntry
  else .reconciled

/-- One entry: a duplicate, a confirmation, or an entry to reconcile. -/
def ingestEntry (org : String) (report : AccountReport) (reportId : ℕ) (entry : AccountEntry) :
    Service D Unit := do
  let identityHash := env.hash.identity entry.identityText
  let existing ← Session.read (findEntryByIdentity env org identityHash)
  let store ← Session.read id
  let entryId ← addEntry (entryToRow org entry reportId identityHash)
  match existing with
  | some (_, existing) =>
    let status := duplicateStatus store report reportId existing
    Store.updateEntry entryId fun row =>
      { row with
        reconciliationStatus := some status
        evidence :=
          if status = .reconciled then ["ACCOUNT_EVENT_CONFIRMED"] else ["DUPLICATE_IDENTITY"]
        lifecycleId := existing.lifecycleId }
    if status = .reconciled then
      match existing.lifecycleId with
      | some lifecycleId =>
        addLifecycleEvent org lifecycleId entry report "ACCOUNT_EVENT_CONFIRMED"
      | none => pure ()
    else ensureCase org entryId identityHash "DUPLICATE_ACCOUNT_ENTRY"
  | none =>
    let lifecycle ← Session.read (findLifecycleForEntry env org entry)
    reconcileAndPersist env org entryId identityHash entry report lifecycle

/-- The part of the loop body that precedes the entries of a report. -/
def openReport (org : String) (isoMessageId : Option ℕ) (report : AccountReport) :
    Service D ℕ := do
  let reportId ← persistReport org report isoMessageId
  persistBalances org report reportId
  pure reportId

/-- One report with its balances and entries. -/
def ingestReport (org : String) (isoMessageId : Option ℕ) (report : AccountReport) :
    Service D Unit := do
  let reportId ← openReport org isoMessageId report
  Session.each (ingestEntry env org report reportId) report.entries

/-- Persist the reports of a camt message, then correlate and reconcile each entry. -/
def ingestAccountReport (org : String) (reports : List AccountReport) (isoMessageId : Option ℕ) :
    Service D Unit :=
  Session.each (ingestReport env org isoMessageId) reports

end

end AccountService

end PaymentOps
