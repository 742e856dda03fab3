import PaymentOps.Lifecycle.Correlation
import PaymentOps.Repair.Generator
import PaymentOps.Service.Store

/-!
# The analysis pipeline

`analyzeIso` takes a payload to what the services need of it: the registered version, the schema
result, the repair candidate of a payment, the hash of the canonical model, and the correlation
profiles or the account reports.
-/

namespace PaymentOps

open Text Xml Iso Repair Lifecycle

/-- The result of analyzing any supported message.  The last fields are filled by the service. -/
structure IsoAnalysisResult (D : Type) where
  messageFamily : String
  messageDefinition : String
  messageVersion : String
  namespace_ : String
  messageId : Option String
  adapterVersion : String
  schemaValidation : Bool
  schemaVersion : String
  originalValidationStatus : String
  ruleFindings : List RuleFinding := []
  repairStatus : Option CandidateStatus := none
  candidateDiff : List DiffEntry := []
  canonicalModelVersion : String
  engineVersion : String
  inputHash : D
  warnings : List String := []
  rawStatus : Option String := none
  normalizedStatus : Option String := none
  correlationProfiles : List CorrelationProfile := []
  accountReportType : Option AccountReportType := none
  accountReports : List AccountReport := []
  accountEntryCount : ℕ := 0
  lifecycleId : Option ℕ := none
  correlationStatus : Option String := none
  correlationEvidence : List String := []
  correlationConflicts : List String := []

/-- The settings of an `AnalysisPipeline`. -/
structure AnalysisPipeline where
  generator : GeneratorEnv
  maxPayloadBytes : ℕ := 1048576
  maxTransactions : ℕ := 100

/-- The version that each result carries. -/
def engineVersion : String := "0.3.0"

namespace AnalysisPipeline

variable {D : Type}

/-- What the result says of the schema. -/
def validationText (valid : Bool) : String := if valid then "valid" else "invalid"

/-- The warning that the schema refuses the message. -/
def schemaWarnings (valid : Bool) : List String :=
  if valid then [] else ["Original message did not pass XSD validation"]

/-- The fields that every result takes from the metadata of the message. -/
def baseResult (registered : RegisteredMessage) (messageId : Option String) (valid : Bool)
    (canonicalModelVersion : String) (inputHash : D) : IsoAnalysisResult D where
  messageFamily := registered.messageFamily
  messageDefinition := registered.version.messageName
  messageVersion := registered.version.identifier
  namespace_ := registered.version.namespace_
  messageId := messageId
  adapterVersion := adapterVersion
  schemaValidation := valid
  schemaVersion := registered.version.identifier
  originalValidationStatus := validationText valid
  canonicalModelVersion := canonicalModelVersion
  engineVersion := engineVersion
  inputHash := inputHash
  warnings := schemaWarnings valid

/-- Some address of the message was resolved by the fallback of its provider. -/
def anyFallback (provider : AddressProvider) (message : PaymentMessage) : Bool :=
  message.transactions.any fun tx => (addresses tx).any fun a => (provider a.2).fallback

/-- The warnings of a payment: the schema, the state of its candidate, and the fallback. -/
def paymentWarnings (valid : Bool) (candidate : RepairCandidate) (fallback : Bool) :
    List String :=
  schemaWarnings valid ++
    (if candidate.status = .reviewRequired then ["Repair candidate requires human review"]
      else []) ++
    if fallback then ["ADDRESS_PROVIDER_FALLBACK"] else []

/-- A payment message with its schema result. -/
def checked (valid : Bool) (message : PaymentMessage) : PaymentMessage :=
  { message with validationStatus := if valid then .valid else .invalid }

section

variable (p : AnalysisPipeline) (hash : Hashing D)

/-- A payment message, after its schema result was recorded in it. -/
def isoPaymentResult (registered : RegisteredMessage) (root : Element) (valid : Bool)
    (message : PaymentMessage) (clock : Instant) : Except ServiceError (IsoAnalysisResult D) :=
  if p.maxTransactions < message.transactions.length then
    .error (.payloadTooLarge ("message exceeds " ++ toString p.maxTransactions ++ " transactions"))
  else do
    let message := checked valid message
    let candidate ← generateCandidate p.generator message (some root) clock
    let base := baseResult registered message.messageId valid "payment_domain.v2"
      (hash.input (.payment message))
    pure { base with
      ruleFindings := p.generator.rules.evaluate message
      repairStatus := some candidate.status
      candidateDiff := candidate.changes
      warnings := paymentWarnings valid candidate (anyFallback p.generator.provider message)
      correlationProfiles := profileFromMessage message }

/-- A status report is summarized by the status of its first transaction. -/
def isoStatusResult (registered : RegisteredMessage) (valid : Bool)
    (report : LifecycleStatusReport) : IsoAnalysisResult D :=
  let base := baseResult registered report.messageId valid "payment_domain.v2"
    (hash.input (.status report))
  { base with
    rawStatus :=
      match report.transactionStatuses with
      | [] => report.groupStatusRaw
      | tx :: _ => tx.rawIsoStatus
    normalizedStatus :=
      match report.transactionStatuses with
      | [] => some report.groupStatus.value
      | tx :: _ => some tx.normalizedStatus.value
    correlationProfiles := profileFromStatusReport report }

/-- The result of an account report. -/
def isoAccountResult (registered : RegisteredMessage) (valid : Bool)
    (bundle : AccountReportBundle) : Except ServiceError (IsoAnalysisResult D) :=
  if p.maxTransactions < bundle.numberOfEntries then
    .error
      (.payloadTooLarge ("message exceeds " ++ toString p.maxTransactions ++ " account entries"))
  else
    let base := baseResult registered bundle.messageId valid "payment_domain.v3"
      (hash.input (.account bundle))
    .ok { base with
      accountReportType := some bundle.reportType
      accountReports := bundle.reports
      accountEntryCount := bundle.numberOfEntries }

/-- The result for an artifact of an adapter. -/
def resultOf (registered : RegisteredMessage) (root : Element) (clock : Instant)
    (artifact : Artifact) : Except ServiceError (IsoAnalysisResult D) :=
  let valid := p.generator.xmlLibrary.validate registered.version.identifier root
  match artifact with
  | .status report => .ok (isoStatusResult hash registered valid report)
  | .payment message => isoPaymentResult p hash registered root valid message clock
  | .account bundle => isoAccountResult p hash registered valid bundle

/-- The registered version and the artifact of a payload. -/
def parseIso (payload : List UInt8) (clock : Instant) :
    Except ServiceError (Element × RegisteredMessage × Artifact) := do
  let root ← secureParse p.generator.xmlLibrary p.maxPayloadBytes payload
  let registered ← resolveRoot root
  let artifact ← registered.adapter.map p.generator.unicode clock root registered.version
  pure (root, registered, artifact)

/-- Analyze any supported message; the time of receipt of a payment is the clock. -/
def analyzeIso (payload : List UInt8) (clock : Instant) :
    Except ServiceError (IsoAnalysisResult D) := do
  let (root, registered, artifact) ← parseIso p payload clock
  resultOf p hash registered root clock artifact

end

end AnalysisPipeline

end PaymentOps
