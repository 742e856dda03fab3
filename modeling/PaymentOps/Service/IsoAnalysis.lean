import PaymentOps.Analysis.Pipeline
import PaymentOps.Service.Account

/-!
# The ISO analysis service

`analyzeIsoMessage` analyzes a payload, persists the message once per hash, and then either
ingests its account reports or correlates its transactions with the stored lifecycles.
-/

namespace PaymentOps

open Text Lifecycle

variable {D : Type}

namespace IsoAnalysis

/-- The fields of the result that correlation overwrites, transaction after transaction. -/
structure Correlation where
  status : Option String := none
  evidence : List String := []
  conflicts : List String := []
  lifecycleId : Option ℕ := none
  deriving DecidableEq, Repr

/-- The result with what the correlation says. -/
def withCorrelation (result : IsoAnalysisResult D) (c : Correlation) : IsoAnalysisResult D :=
  { result with
    correlationStatus := c.status
    correlationEvidence := c.evidence
    correlationConflicts := c.conflicts
    lifecycleId := c.lifecycleId }

/-- `_account_correlation_status` reads the statuses in the reports as they were analyzed. -/
def accountCorrelationStatus (reports : List AccountReport) : String :=
  let classifications :=
    reports.flatMap fun report => report.entries.filterMap (·.reconciliationStatus)
  if classifications.contains .reconciled then "CORRELATED" else "UNRESOLVED"

/-- What the hash of a message is computed from. -/
def messageKey (result : IsoAnalysisResult D) : MessageKey D where
  family := result.messageFamily
  version := result.messageVersion
  messageId := result.messageId
  hash := result.inputHash

/-- The row of an analyzed message. -/
def isoMessageRow (org : String) (result : IsoAnalysisResult D) (messageHash : D) :
    IsoMessage D where
  organizationId := org
  messageId := result.messageId
  messageFamily := result.messageFamily
  messageDefinition := result.messageDefinition
  messageVersion := result.messageVersion
  namespace_ := result.namespace_
  sourceAdapter := result.messageFamily ++ "_" ++ result.messageVersion
  adapterVersion := result.adapterVersion
  schemaVersion := result.schemaVersion
  schemaValidation := result.schemaValidation
  messageHash := messageHash
  inputHash := result.inputHash
  canonicalModelVersion := result.canonicalModelVersion
  engineVersion := result.engineVersion
  status := "ANALYZED"
  rawStatus := result.rawStatus
  normalizedStatus := result.normalizedStatus

/-- Insert a message, under the next key. -/
def persistIsoMessage (row : IsoMessage D) : Service D ℕ :=
  .transact fun s =>
    .ok (s.isoMessages.length, { s with isoMessages := s.isoMessages ++ [row] })

/-- The type of the event of a message. -/
def eventTypeFor (messageVersion : String) (normalizedStatus : Option String) : String :=
  if startsWith "pain" messageVersion then "INITIATED"
  else if startsWith "pacs.008" messageVersion then "INTERBANK_TRANSFER"
  else if startsWith "pacs.009" messageVersion then "FI_TRANSFER"
  else if startsWith "pacs.002" messageVersion then
    let status := (or normalizedStatus (some "")).getD ""
    if status ∈ ["ACCEPTED", "REJECTED", "PENDING", "PROCESSING"] then status
    else if status = "PARTIALLY_ACCEPTED" then "PROCESSING"
    else "STATUS_RECEIVED"
  else "STATUS_RECEIVED"

/-- `_profile_from_dict`: the accounts of the debtor and the creditor are dropped. -/
def profileFromDict (data : CorrelationProfile) : CorrelationProfile where
  messageId := data.messageId
  originalMessageId := data.originalMessageId
  instructionId := data.instructionId
  endToEndId := data.endToEndId
  transactionId := data.transactionId
  amount := data.amount
  currency := data.currency
  reference := data.reference
  account := data.account

/-- `_profile_from_lifecycle`. -/
def profileFromLifecycle (lifecycle : PaymentLifecycleRow) : CorrelationProfile where
  originalMessageId := lifecycle.originalMessageId
  instructionId := lifecycle.instructionId
  endToEndId := lifecycle.endToEndId
  transactionId := lifecycle.transactionId
  amount := lifecycle.amountMinor
  currency := lifecycle.currency
  debtorAccount := lifecycle.debtorAccount
  creditorAccount := lifecycle.creditorAccount

/-- The lifecycle that a transaction without a known lifecycle opens.  Its amount is one that the
column takes. -/
def newLifecycle (org : String) (profile : CorrelationProfile) (clock : Instant) :
    PaymentLifecycleRow where
  organizationId := org
  endToEndId := profile.endToEndId
  instructionId := profile.instructionId
  transactionId := profile.transactionId
  originalMessageId := profile.originalMessageId
  debtorAccount := profile.debtorAccount
  creditorAccount := profile.creditorAccount
  amountMinor := profile.amount
  currency := profile.currency
  currentStatus := "UNKNOWN"
  createdAt := clock

/-- The query of `_find_lifecycle`: a lifecycle of the organization that shares a reference. -/
def lookup (org : String) (profile : CorrelationProfile) (l : PaymentLifecycleRow) : Bool :=
  l.organizationId == org &&
    ((truthy profile.originalMessageId && l.originalMessageId == profile.originalMessageId) ||
      (truthy profile.transactionId && l.transactionId == profile.transactionId) ||
      (truthy profile.endToEndId && l.endToEndId == profile.endToEndId) ||
      (truthy profile.instructionId && l.instructionId == profile.instructionId))

/-- The correlation of a profile with a lifecycle that was found. -/
def correlationWith (u : Unicode) (profile : CorrelationProfile) (id : ℕ)
    (row : PaymentLifecycleRow) : Correlation :=
  let correlation := correlateProfiles u profile (profileFromLifecycle row)
  { status := some correlation.status.value
    evidence := correlation.evidence.map Evidence.value
    conflicts := correlation.conflicts
    lifecycleId := some id }

/-- The event that a message leaves on a lifecycle. -/
def eventRow (org : String) (result : IsoAnalysisResult D) (isoId : ℕ) (messageHash : D)
    (lifecycleId : ℕ) (evidence : List String) : PaymentLifecycleEventRow D where
  organizationId := org
  lifecycleId := lifecycleId
  eventType := eventTypeFor result.messageVersion result.normalizedStatus
  messageFamily := some result.messageFamily
  messageDefinition := some result.messageDefinition
  messageVersion := some result.messageVersion
  messageId := some (toString isoId)
  status := (or result.normalizedStatus (some "UNKNOWN")).getD "UNKNOWN"
  rawStatusCode := result.rawStatus
  correlationEvidence := evidence
  sourceHash := some messageHash

/-- A status report is a pacs.002. -/
def isStatusReport (result : IsoAnalysisResult D) : Bool :=
  startsWith "pacs.002" result.messageVersion

/-- The status of the message on a lifecycle, when the message has one. -/
def setStatus (normalizedStatus : Option String) (row : PaymentLifecycleRow) :
    PaymentLifecycleRow :=
  if truthy normalizedStatus then { row with currentStatus := normalizedStatus.getD "" } else row

section

variable (env : Env D) (org : String)

/-- The first lifecycle that the query finds for a profile. -/
def findLifecycle (profile : CorrelationProfile) (s : Store D) :
    Option (ℕ × PaymentLifecycleRow) :=
  env.lifecycleOrder.first s (lookup org profile)

section

variable (result : IsoAnalysisResult D) (isoId : ℕ) (messageHash : D)

/-- One transaction of a status report: an unknown parent is left alone. -/
def statusStep (c : Correlation) (data : CorrelationProfile) : Service D Correlation := do
  let profile := profileFromDict data
  match ← Session.read (findLifecycle env org profile) with
  | none => pure { c with status := some "UNRESOLVED" }
  | some (id, row) => do
    let c := correlationWith env.unicode profile id row
    Store.addEvent (eventRow org result isoId messageHash id c.evidence)
    if truthy result.normalizedStatus then
      Store.updateLifecycle id (setStatus result.normalizedStatus)
      pure c
    else pure c

/-- One transaction of a payment: it joins a lifecycle or opens one. -/
def paymentStep (clock : Instant) (c : Correlation) (data : CorrelationProfile) :
    Service D Correlation := do
  let profile := profileFromDict data
  match ← Session.read (findLifecycle env org profile) with
  | none => do
    let id ← Store.addLifecycle (newLifecycle org profile clock)
    let status := if truthy profile.endToEndId then "CORRELATED" else "UNRESOLVED"
    let c := { c with status := some status, evidence := [], lifecycleId := some id }
    Store.addEvent (eventRow org result isoId messageHash id c.evidence)
    pure c
  | some (id, row) => do
    let c := correlationWith env.unicode profile id row
    Store.addEvent (eventRow org result isoId messageHash id c.evidence)
    pure c

/-- `_update_lifecycle_status`: one more commit, which sets no status for a payment. -/
def updateLifecycleStatus (c : Correlation) : Service D Unit :=
  match c.lifecycleId with
  | none => pure ()
  | some id => Store.updateLifecycle id (setStatus result.normalizedStatus)

/-- `_correlate_and_build_lifecycle`. -/
def correlateAndBuildLifecycle (clock : Instant) : Service D Correlation :=
  if isStatusReport result then
    Session.fold (statusStep env org result isoId messageHash) {} result.correlationProfiles
  else do
    let c ← Session.fold (paymentStep env org result isoId messageHash clock) {}
      result.correlationProfiles
    updateLifecycleStatus result c
    pure c

end

variable [DecidableEq D]

/-- The message was persisted before. -/
def hasHash (messageHash : D) (r : IsoMessage D) : Bool :=
  r.organizationId == org && r.messageHash == messageHash

/-- The message that is stored with this hash. -/
def findByHash (messageHash : D) (s : Store D) : Option (ℕ × IsoMessage D) :=
  env.isoOrder.first s (hasHash org messageHash)

/-- The lifecycle of the first event of a message. -/
def lifecycleIdForMessage (isoId : ℕ) (s : Store D) : Option ℕ :=
  (env.eventOrder.first s fun e =>
    e.organizationId == org && e.messageId == some (toString isoId)).map (·.2.lifecycleId)

/-- The part of the service that follows the analysis. -/
def persistAnalysis (result : IsoAnalysisResult D) (clock : Instant) :
    Service D (IsoAnalysisResult D) := do
  let messageHash := env.hash.message (messageKey result)
  match ← Session.read (findByHash env org messageHash) with
  | some (isoId, _) => do
    let lifecycleId ← Session.read (lifecycleIdForMessage env org isoId)
    pure { result with lifecycleId := lifecycleId }
  | none => do
    let isoId ← persistIsoMessage (isoMessageRow org result messageHash)
    if result.accountReports.isEmpty then do
      let c ← correlateAndBuildLifecycle env org result isoId messageHash clock
      pure (withCorrelation result c)
    else do
      AccountService.ingestAccountReport env org result.accountReports (some isoId)
      let status := accountCorrelationStatus result.accountReports
      pure { result with correlationStatus := some status }

/-- Run the registry-based pipeline and persist the message and the lifecycle state. -/
def analyzeIsoMessage (pipeline : AnalysisPipeline) (payload : List UInt8) (clock : Instant) :
    Service D (IsoAnalysisResult D) := do
  let result ← Session.ofExcept (pipeline.analyzeIso env.hash payload clock)
  persistAnalysis env org result clock

end

end IsoAnalysis

end PaymentOps
