import PaymentOps.Analysis.Pipeline
import PaymentOps.Lib.Fallible

/-!
# What the pipeline makes of each kind of message

The kind of a message is that of its registered version.  The clock only enters a payment, as its
time of receipt.
-/

namespace PaymentOps.AnalysisPipeline

open Text Xml Iso Repair Lifecycle

variable {D : Type} {p : AnalysisPipeline} {hash : Hashing D} {payload : List UInt8}
  {clock clock' : Instant} {root : Element} {registered : RegisteredMessage}

theorem mem_registry_of_resolveRoot (h : resolveRoot root = .ok registered) :
    registered ∈ registry := by
  unfold resolveRoot at h
  cases hns : extractNamespace root with
  | none => simp [hns] at h
  | some ns =>
    simp only [hns, resolveNamespace] at h
    cases hf : registry.find? (·.version.namespace_ = ns) with
    | none => simp [hf] at h
    | some r =>
      simp only [hf, Except.ok.injEq] at h
      rw [← h]
      exact List.mem_of_find?_eq_some hf

/-- The parts of a payload that was parsed. -/
theorem parseIso_ok {artifact : Artifact}
    (h : parseIso p payload clock = .ok (root, registered, artifact)) :
    secureParse p.generator.xmlLibrary p.maxPayloadBytes payload = .ok root ∧
      resolveRoot root = .ok registered ∧
      registered.adapter.map p.generator.unicode clock root registered.version = .ok artifact := by
  obtain ⟨root', hroot, h⟩ := Except.bind_eq_ok.mp h
  obtain ⟨registered', hreg, h⟩ := Except.bind_eq_ok.mp h
  obtain ⟨artifact', hart, h⟩ := Except.bind_eq_ok.mp h
  cases Except.pure_eq_ok.mp h
  exact ⟨hroot, hreg, hart⟩

/-- The artifact as received at another time. -/
def received (clock : Instant) : Artifact → Artifact
  | .payment message => .payment { message with receivedAt := clock }
  | artifact => artifact

theorem map_received (u : Unicode) (clock clock' : Instant) (root : Element)
    (version : SupportedVersion) (adapter : Adapter) :
    adapter.map u clock' root version =
      (adapter.map u clock root version).map (received clock') := by
  cases adapter with
  | pacs008 =>
    simp only [Adapter.map, mapPacs008ToCanonical]
    cases mapTransactions u root with
    | error e => rfl
    | ok transactions => rfl
  | pain001 =>
    simp only [Adapter.map, mapPain001ToCanonical]
    cases List.mapM (m := Except ServiceError) _ _ with
    | error e => rfl
    | ok transactions => rfl
  | pacs009 =>
    simp only [Adapter.map, mapPacs009ToCanonical]
    cases List.mapM (m := Except ServiceError) _ _ with
    | error e => rfl
    | ok transactions => rfl
  | pacs002 =>
    simp only [Adapter.map]
    cases mapPacs002ToStatus u root version with
    | error e => rfl
    | ok report => rfl
  | camt053 =>
    simp only [Adapter.map]
    cases mapCamt053ToAccountReport u root version with
    | error e => rfl
    | ok bundle => rfl
  | camt054 =>
    simp only [Adapter.map]
    cases mapCamt054ToAccountReport u root version with
    | error e => rfl
    | ok bundle => rfl

/-- The clock enters an artifact as the time of receipt of a payment, and nowhere else. -/
theorem parseIso_clock {artifact : Artifact}
    (h : parseIso p payload clock = .ok (root, registered, artifact)) (clock' : Instant) :
    parseIso p payload clock' = .ok (root, registered, received clock' artifact) := by
  obtain ⟨hroot, hreg, hmap⟩ := parseIso_ok h
  have hmap' : registered.adapter.map p.generator.unicode clock' root registered.version =
      .ok (received clock' artifact) := by
    rw [map_received _ clock, hmap]
    rfl
  simp only [parseIso, hroot, hreg, hmap', bind, Except.bind]
  rfl

theorem receivedAt_of_parse {message : PaymentMessage}
    (h : parseIso p payload clock = .ok (root, registered, .payment message)) :
    message.receivedAt = clock := by
  have h' := parseIso_clock h clock
  rw [h] at h'
  have hmessage : message = { message with receivedAt := clock } := by
    simpa [received] using h'
  rw [hmessage]

theorem analyzeIso_of_parse {artifact : Artifact}
    (h : parseIso p payload clock = .ok (root, registered, artifact)) :
    analyzeIso p hash payload clock = resultOf p hash registered root clock artifact := by
  rw [analyzeIso, h]
  rfl

/-- Status reports come from the adapter of pacs.002 only. -/
theorem version_of_status {report : LifecycleStatusReport}
    (h : parseIso p payload clock = .ok (root, registered, .status report)) :
    registered.version = pacs002Version := by
  obtain ⟨-, hreg, hmap⟩ := parseIso_ok h
  have hmem := mem_registry_of_resolveRoot hreg
  have hkind : ∀ r ∈ registry, r.adapter = .pacs002 → r.version = pacs002Version := by
    decide +kernel
  apply hkind registered hmem
  cases hadapter : registered.adapter with
  | pacs002 => rfl
  | _ =>
    rw [hadapter] at hmap
    obtain ⟨_, -, heq⟩ := Except.map_eq_ok.mp hmap
    cases heq

/-- Only a status report has a version of pacs.002. -/
theorem version_of_other {artifact : Artifact}
    (h : parseIso p payload clock = .ok (root, registered, artifact))
    (hother : ∀ report, artifact ≠ .status report) :
    startsWith "pacs.002" registered.version.identifier = false := by
  obtain ⟨-, hreg, hmap⟩ := parseIso_ok h
  have hkind : ∀ r ∈ registry, r.adapter ≠ .pacs002 →
      startsWith "pacs.002" r.version.identifier = false := by
    decide +kernel
  apply hkind registered (mem_registry_of_resolveRoot hreg)
  intro hadapter
  rw [hadapter] at hmap
  obtain ⟨report, -, heq⟩ := Except.map_eq_ok.mp hmap
  exact hother report heq.symm

theorem analyzeIso_ok {result : IsoAnalysisResult D}
    (h : analyzeIso p hash payload clock = .ok result) :
    ∃ root registered artifact, parseIso p payload clock = .ok (root, registered, artifact) ∧
      resultOf p hash registered root clock artifact = .ok result := by
  obtain ⟨⟨root, registered, artifact⟩, hparse, hres⟩ := Except.bind_eq_ok.mp h
  exact ⟨root, registered, artifact, hparse, hres⟩

/-- The result for anything but a payment is the same at any time. -/
theorem analyzeIso_clock {artifact : Artifact}
    (h : parseIso p payload clock = .ok (root, registered, artifact))
    (hother : ∀ message, artifact ≠ .payment message) (clock' : Instant) :
    analyzeIso p hash payload clock' = analyzeIso p hash payload clock := by
  rw [analyzeIso_of_parse h, analyzeIso_of_parse (parseIso_clock h clock')]
  cases artifact with
  | payment message => exact absurd rfl (hother message)
  | status report => rfl
  | account bundle => rfl

/-- What the services read of the result for a payment. -/
structure PaymentResult (hash : Hashing D) (registered : RegisteredMessage) (valid : Bool)
    (message : PaymentMessage) (result : IsoAnalysisResult D) : Prop where
  messageVersion : result.messageVersion = registered.version.identifier
  inputHash : result.inputHash = hash.input (.payment (checked valid message))
  normalizedStatus : result.normalizedStatus = none
  accountReports : result.accountReports = []
  correlationProfiles : result.correlationProfiles = profileFromMessage message

theorem paymentResult {valid : Bool} {message : PaymentMessage} {result : IsoAnalysisResult D}
    (h : isoPaymentResult p hash registered root valid message clock = .ok result) :
    PaymentResult hash registered valid message result := by
  by_cases hlen : p.maxTransactions < message.transactions.length
  · rw [isoPaymentResult, if_pos hlen] at h
    cases h
  rw [isoPaymentResult, if_neg hlen] at h
  obtain ⟨candidate, -, h⟩ := Except.bind_eq_ok.mp h
  obtain rfl := Except.pure_eq_ok.mp h
  exact ⟨rfl, rfl, rfl, rfl, rfl⟩

end PaymentOps.AnalysisPipeline
