import PaymentOps.Analysis.Pipeline
import PaymentOps.Batch.Service
import PaymentOps.Repair.AddressRepair
import PaymentOps.Repair.Validation

/-!
# The analysis of a mapped message

`analyzeMessage` runs the rules, the address provider and the generator on a message.  The rules
only judge: what a candidate is does not depend on them (`generateCandidate_eq_judged`).

* `composite_spec`: rules that are added to the baseline add findings and withhold the label
  `VALIDATED` from candidates that do not pass them, and change nothing else of a result;
* `ready_iff`: a message is `READY` exactly when the rules have nothing to say about its addresses
  and no town is blank.
-/

namespace PaymentOps.Analysis

open Batch (aggregateReadiness)
open Text Xml Iso Repair

/-- What a pipeline is built with. -/
structure MessageEnv where
  unicode : Unicode
  xmlLibrary : XmlLibrary
  provider : PostalAddress → Address.AddressAnalysis
  rules : RuleEngine

/-- The generator that the pipeline calls. -/
def MessageEnv.generator (env : MessageEnv) : GeneratorEnv where
  unicode := env.unicode
  xmlLibrary := env.xmlLibrary
  provider a :=
    let analysis := env.provider a
    { countryCode := analysis.countryCode
      townName := analysis.townName
      fallback := analysis.fallback }
  rules := env.rules

/-- The digests of a message and of the text of a tree. -/
structure Digests (D : Type) where
  message : PaymentMessage → D
  xml : Element → D

/-- An address of the result, at its path. -/
structure AnalysisAddress where
  party : String
  readiness : AddressReadiness
  evidenceLevel : EvidenceLevel
  countryCode : Option String
  townName : Option String
  provider : String
  providerVersion : String
  note : Option String
  fallback : Bool
  deriving DecidableEq

/-- The candidate is `some` exactly when one is asked for; it has no text without a tree. -/
structure AnalysisResult (D : Type) where
  messageType : Option String
  messageVersion : Option String
  originalValidationStatus : String
  ruleFindings : List RuleFinding
  addressAnalyses : List AnalysisAddress
  addressReadiness : String
  repairStatus : Option CandidateStatus
  candidateDiff : List DiffEntry
  candidateValidationStatus : Option CandidateStatus
  candidateXml : Option Element
  rulesetVersion : String
  addressProvider : Option String
  addressProviderVersion : Option String
  addressProviderFallback : Bool
  inputHash : D
  outputHash : Option D
  warnings : List String

/-- The arguments of `analyze_message`. -/
structure Request where
  message : PaymentMessage
  doc : Option Element := none
  xsdResult : Option Bool := none
  messageType : Option String := none
  messageVersion : Option String := none
  repair : Bool := true
  includeCandidateXml : Bool := false

/-- `_warnings` -/
def warnings (xsdValid : Bool) (candidate : Option RepairCandidate) (anyFallback : Bool) :
    List String :=
  AnalysisPipeline.schemaWarnings xsdValid ++
    (if candidate.any (·.status = .reviewRequired) then ["Repair candidate requires human review"]
      else []) ++
    if anyFallback then ["ADDRESS_PROVIDER_FALLBACK"] else []

/-- The addresses of a message with what the provider says of each. -/
def addressAnalyses (provider : PostalAddress → Address.AddressAnalysis)
    (message : PaymentMessage) : List (String × Address.AddressAnalysis) :=
  message.transactions.flatMap fun tx => (addresses tx).map fun a => (a.1, provider a.2)

/-- What the result says of an analyzed address. -/
def analysisAddress (a : String × Address.AddressAnalysis) : AnalysisAddress where
  party := a.1
  readiness := a.2.readiness
  evidenceLevel := a.2.evidenceLevel
  countryCode := a.2.countryCode
  townName := a.2.townName
  provider := a.2.provider
  providerVersion := a.2.providerVersion
  note := a.2.note
  fallback := a.2.fallback

section

variable {D : Type} (env : MessageEnv) (digests : Digests D)

/-- The result for a request whose candidate is known. -/
def resultOf (request : Request) (candidate : Option RepairCandidate) : AnalysisResult D :=
  let message := request.message
  let xsdValid := request.xsdResult.getD true
  let analyses := addressAnalyses env.provider message
  -- the provider of the last address for which one was available
  let used := (analyses.filter (·.2.available)).getLast?
  let anyFallback := analyses.any (·.2.fallback)
  { messageType := or request.messageType message.messageType
    messageVersion := request.messageVersion
    originalValidationStatus := AnalysisPipeline.validationText xsdValid
    ruleFindings := env.rules.evaluate message
    addressAnalyses := analyses.map analysisAddress
    addressReadiness := aggregateReadiness (analyses.map (·.2.readiness))
    repairStatus := candidate.map (·.status)
    candidateDiff := (candidate.map (·.changes)).getD []
    candidateValidationStatus := candidate.map (·.status)
    candidateXml := if request.includeCandidateXml then candidate.bind (·.xml) else none
    rulesetVersion := rulesetVersion
    addressProvider := used.map (·.2.provider)
    addressProviderVersion := used.map (·.2.providerVersion)
    addressProviderFallback := anyFallback
    inputHash := digests.message message
    outputHash := (candidate.bind (·.xml)).map digests.xml
    warnings := warnings xsdValid candidate anyFallback }

/-- `analyze_message` -/
def analyzeMessage (request : Request) (clock : Instant) :
    Except ServiceError (AnalysisResult D) :=
  if request.repair then
    (generateCandidate env.generator request.message request.doc clock).map fun candidate =>
      resultOf env digests request (some candidate)
  else .ok (resultOf env digests request none)

end

/-- A payment in the registry is analyzed as a message with a tree. -/
theorem isoPaymentResult_eq {D : Type} (p : AnalysisPipeline) (hash : Hashing D) (env : MessageEnv)
    (hp : p.generator = env.generator) (xml : Element → D) (registered : RegisteredMessage)
    (root : Element) (valid : Bool) (message : PaymentMessage) (clock : Instant) :
    p.isoPaymentResult hash registered root valid message clock =
      if p.maxTransactions < message.transactions.length then
        .error (.payloadTooLarge
          ("message exceeds " ++ toString p.maxTransactions ++ " transactions"))
      else
        let message := AnalysisPipeline.checked valid message
        let digests := { message := fun m => hash.input (.payment m), xml := xml }
        let request := { message := message, doc := some root, xsdResult := some valid }
        (analyzeMessage env digests request clock).map fun r =>
            { AnalysisPipeline.baseResult registered message.messageId valid "payment_domain.v2"
                r.inputHash with
              ruleFindings := r.ruleFindings
              repairStatus := r.repairStatus
              candidateDiff := r.candidateDiff
              warnings := r.warnings
              correlationProfiles := Lifecycle.profileFromMessage message } := by
  have hfallback : ∀ m, AnalysisPipeline.anyFallback env.generator.provider m =
      (addressAnalyses env.provider m).any (·.2.fallback) := by
    intro m
    simp [AnalysisPipeline.anyFallback, addressAnalyses, List.any_flatMap, Function.comp_def,
      MessageEnv.generator]
  unfold AnalysisPipeline.isoPaymentResult analyzeMessage
  split_ifs with hlen
  · rfl
  · dsimp only
    rw [hp, hfallback, if_pos rfl]
    cases generateCandidate env.generator (AnalysisPipeline.checked valid message) (some root)
      clock with
    | error e => rfl
    | ok candidate =>
      simp [bind, Except.bind, pure, Except.pure, Except.map, resultOf, warnings,
        AnalysisPipeline.paymentWarnings, MessageEnv.generator]

/-! ## The rules only judge -/

/-- A candidate before the rules are run on the message that it stands for. -/
structure Draft where
  message : PaymentMessage
  changes : List DiffEntry
  xml : Option Element := none
  xsdValid : Option Bool := none

/-- The candidate that a draft becomes when the rules have judged it. -/
def Draft.judged (d : Draft) (rules : RuleEngine) : RepairCandidate :=
  let findings := rules.evaluate d.message
  { changes := d.changes
    xml := d.xml
    status := statusOf (d.xsdValid.getD true && ! blockingFindings findings)
    xsdValid := d.xsdValid
    ruleFindings := findings }

section

variable (env : GeneratorEnv) (message : PaymentMessage) (doc : Option Element) (clock : Instant)

/-- What there is to judge when there are changes. -/
def draft : Except ServiceError Draft :=
  let changes := proposedChanges env.provider message
  match reconstructed message doc with
  | some root => do
    let r ← applyChanges env.unicode root changes
    let version ← identifyPacs008 r.tree
    let candidate ← mapPacs008ToCanonical env.unicode r.tree version clock
    pure {
      message := candidate
      changes := r.applied
      xml := some r.tree
      xsdValid := some (env.xmlLibrary.validate version.identifier r.tree) }
  | none => (applyToMessage env.unicode message changes).map fun candidate =>
      { message := candidate, changes := changes }

variable {env message doc clock}

/-- A candidate with changes is a draft, which does not depend on the rules, and their verdict. -/
theorem generateCandidate_eq_judged (hc : proposedChanges env.provider message ≠ []) :
    generateCandidate env message doc clock =
      (draft env message doc clock).map (·.judged env.rules) := by
  rw [generateCandidate_eq hc]
  unfold draft
  cases reconstructed message doc with
  | none =>
    dsimp only [modelCandidate]
    cases applyToMessage env.unicode message (proposedChanges env.provider message) with
    | error e => rfl
    | ok candidate =>
      simp [bind, Except.bind, pure, Except.pure, Except.map, Draft.judged]
  | some root =>
    dsimp only [xmlCandidate]
    cases applyChanges env.unicode root (proposedChanges env.provider message) with
    | error e => rfl
    | ok r =>
      simp only [bind, Except.bind]
      cases identifyPacs008 r.tree with
      | error e => rfl
      | ok version =>
        dsimp only
        cases mapPacs008ToCanonical env.unicode r.tree version clock with
        | error e => rfl
        | ok candidate => rfl

end

/-- The rules pass on a message exactly when both parts of them do. -/
theorem blocking_append {rules overlay : RuleEngine} {m : PaymentMessage} :
    blockingFindings (RuleEngine.evaluate (rules ++ overlay) m) =
      (blockingFindings (rules.evaluate m) || blockingFindings (overlay.evaluate m)) := by
  rw [Bool.eq_iff_iff, Bool.or_eq_true]
  simp only [blockingFindings, List.any_eq_true, mem_evaluate_append, or_and_right, exists_or]

theorem evaluate_sublist {rules overlay : RuleEngine} {m : PaymentMessage} :
    (rules.evaluate m).Sublist (RuleEngine.evaluate (rules ++ overlay) m) := by
  unfold RuleEngine.evaluate
  induction m.transactions with
  | nil => exact List.Sublist.refl _
  | cons tx txs ih =>
    rw [List.flatMap_cons, List.flatMap_cons, List.flatMap_append]
    exact (List.sublist_append_left _ _).append ih

theorem statusOf_eq_reviewRequired {b : Bool} :
    statusOf b = .reviewRequired ↔ ¬ statusOf b = .validated := by
  cases b <;> simp [statusOf]

theorem judged_status {d : Draft} {rules overlay : RuleEngine} :
    (d.judged (rules ++ overlay)).status = .validated ↔
      (d.judged rules).status = .validated ∧ RulesPass overlay d.message := by
  rw [rulesPass_iff]
  simp only [Draft.judged, statusOf_eq_validated, blocking_append]
  cases d.xsdValid.getD true <;> cases blockingFindings (rules.evaluate d.message) <;>
    simp

/-! ## Overlays -/

/-- What an overlay, which passes on the candidate or not, makes of a result. -/
structure Overlaid {D : Type} (passes : Prop) (r r' : AnalysisResult D) : Prop where
  findings : r.ruleFindings.Sublist r'.ruleFindings
  validated : r'.repairStatus = some .validated ↔ r.repairStatus = some .validated ∧ passes
  reviewRequired : r'.repairStatus = some .reviewRequired ↔
    r.repairStatus = some .reviewRequired ∨ r.repairStatus = some .validated ∧ ¬ passes
  warnings : r.warnings.Sublist r'.warnings
  rest : r' = { r with
    ruleFindings := r'.ruleFindings
    repairStatus := r'.repairStatus
    candidateValidationStatus := r'.repairStatus
    warnings := r'.warnings }

/-- The overlay is not asked, or passes on the candidate. -/
def OverlayPasses (env : MessageEnv) (overlay : RuleEngine) (request : Request)
    (clock : Instant) : Prop :=
  request.repair = false ∨ proposedChanges env.generator.provider request.message = [] ∨
    ∀ d, draft env.generator request.message request.doc clock = .ok d →
      RulesPass overlay d.message

section

variable {D : Type} {env : MessageEnv} {digests : Digests D} {request : Request}
  {overlay : RuleEngine} {passes : Prop}

/-- Results whose candidates differ by a verdict. -/
theorem overlaid_resultOf {c c' : Option RepairCandidate}
    (hchanges : c'.map (·.changes) = c.map (·.changes)) (hxml : c'.map (·.xml) = c.map (·.xml))
    (hvalidated : c'.map (·.status) = some .validated ↔
      c.map (·.status) = some .validated ∧ passes)
    (hreview : c'.map (·.status) = some .reviewRequired ↔
      c.map (·.status) = some .reviewRequired ∨ c.map (·.status) = some .validated ∧ ¬ passes) :
    Overlaid passes (resultOf env digests request c)
      (resultOf { env with rules := env.rules ++ overlay } digests request c') where
  findings := evaluate_sublist
  validated := hvalidated
  reviewRequired := hreview
  warnings := by
    have hany : ∀ o : Option RepairCandidate,
        o.any (·.status = .reviewRequired) = decide (o.map (·.status) = some .reviewRequired) := by
      intro o
      cases o <;> simp
    unfold resultOf warnings
    dsimp only
    refine List.Sublist.append (List.Sublist.append (List.Sublist.refl _) ?_) (List.Sublist.refl _)
    rw [hany, hany]
    by_cases h : c.map (·.status) = some .reviewRequired
    · simp [h, hreview.mpr (.inl h)]
    · simp [h]
  rest := by
    have hbind : ∀ o : Option RepairCandidate, o.bind (·.xml) = (o.map (·.xml)).getD none := by
      intro o
      cases o <;> rfl
    unfold resultOf
    dsimp only
    rw [hchanges, hbind c', hbind c, hxml]

end

/-- The rules of an organization and of a profile add findings to those of the baseline and keep the
label `VALIDATED` from a candidate that does not pass them; whatever else a result says, and whether
there is one, does not depend on them. -/
theorem composite_spec {D : Type} (env : MessageEnv) (digests : Digests D)
    (orgRules profileRules : RuleEngine) (request : Request) (clock : Instant) :
    let composite := { env with rules := compositeRuleEngine env.rules orgRules profileRules }
    (∀ e, analyzeMessage composite digests request clock = .error e ↔
      analyzeMessage env digests request clock = .error e) ∧
    ∀ r r', analyzeMessage env digests request clock = .ok r →
      analyzeMessage composite digests request clock = .ok r' →
        Overlaid (OverlayPasses env (orgRules ++ profileRules) request clock) r r' := by
  intro composite
  obtain ⟨overlay, hoverlay⟩ : ∃ overlay, orgRules ++ profileRules = overlay := ⟨_, rfl⟩
  have hcomposite : composite = { env with rules := env.rules ++ overlay } := by
    simp only [composite, compositeRuleEngine, List.append_assoc, hoverlay]
  rw [hcomposite, hoverlay]
  unfold analyzeMessage OverlayPasses
  cases request.repair with
  | false =>
    refine ⟨fun e => by simp, fun r r' hr hr' => ?_⟩
    cases hr
    cases hr'
    exact overlaid_resultOf rfl rfl (by simp) (by simp)
  | true =>
    simp only [if_true, Bool.true_eq_false, false_or]
    by_cases hc : proposedChanges env.generator.provider request.message = []
    · have hgen : ∀ rules, generateCandidate { env with rules := rules : MessageEnv }.generator
          request.message request.doc clock =
            .ok { changes := [], status := .validated,
                  note := some "No repair changes required" } := by
        intro rules
        exact if_pos hc
      rw [hgen, show env = { env with rules := env.rules } from rfl, hgen]
      refine ⟨fun e => by simp [Except.map], fun r r' hr hr' => ?_⟩
      cases hr
      cases hr'
      exact overlaid_resultOf rfl rfl (by simp [hc]) (by simp [hc])
    · have hgen : ∀ rules, generateCandidate { env with rules := rules : MessageEnv }.generator
          request.message request.doc clock =
            (draft env.generator request.message request.doc clock).map (·.judged rules) :=
        fun rules => generateCandidate_eq_judged hc
      rw [hgen, show generateCandidate env.generator _ _ _ = _ from hgen env.rules]
      cases draft env.generator request.message request.doc clock with
      | error e => exact ⟨fun e' => Iff.rfl, fun r r' hr => by cases hr⟩
      | ok d =>
        refine ⟨fun e => by simp [Except.map], fun r r' hr hr' => ?_⟩
        cases hr
        cases hr'
        refine overlaid_resultOf rfl rfl ?_ ?_
        · simp [hc, judged_status]
        · have hnot : ∀ rules, (d.judged rules).status = .reviewRequired ↔
              ¬ (d.judged rules).status = .validated := fun rules => statusOf_eq_reviewRequired
          simp only [Option.map_some, Option.some.injEq, hnot, judged_status, hc, false_or,
            Except.ok.injEq, forall_eq']
          tauto

/-! ## Readiness -/

section

variable {u : Unicode} {isUpper : Char → Bool} {m : PaymentMessage}

theorem aggregateReadiness_ready {levels : List AddressReadiness} :
    aggregateReadiness levels = "READY" ↔ levels ≠ [] ∧ ∀ level ∈ levels, level = .ready := by
  have hall : levels.all (· = .ready) = true ↔ ∀ level ∈ levels, level = .ready := by simp
  unfold aggregateReadiness
  split_ifs with hempty hready
  · simp_all
  · exact iff_of_true rfl ⟨by simpa using hempty, hall.mp hready⟩
  all_goals exact iff_of_false (by decide) fun h => hready (hall.mpr h.2)

/-- An address is ready exactly when only the rule about hybrid addresses can fail on it, and its
town is not blank. -/
theorem address_ready_iff {a : PostalAddress} :
    (Address.CloudNova.analyze u isUpper a).readiness = .ready ↔
      (∀ c ∈ addressChecks, c.fails a → c.ruleId = "ADR-005") ∧
        ∀ town, a.townName = some town → Address.normalizeWhitespace town ≠ "" := by
  rw [Address.CloudNova.readiness_ready, Address.CloudNova.country_ok_iff,
    Address.CloudNova.truthy_sourceTown]
  have hchecks : (∀ c ∈ addressChecks, c.fails a → c.ruleId = "ADR-005") ↔
      ¬ townMissing.fails a ∧ ¬ countryMissing.fails a ∧ ¬ invalidCountryCode.fails a ∧
        ¬ unstructuredAddress.fails a := by
    have hids : ∀ c ∈ [townMissing, countryMissing, invalidCountryCode, unstructuredAddress],
        c.ruleId ≠ "ADR-005" := by
      simp [townMissing, countryMissing, invalidCountryCode, unstructuredAddress]
    simp only [List.forall_mem_cons, List.not_mem_nil, false_implies, implies_true, and_true,
      addressChecks] at hids ⊢
    simp only [hids, imp_false]
    simp [hybridAddress]
  rw [hchecks]
  simp only [townMissing, countryMissing, invalidCountryCode, unstructuredAddress]
  cases hcountry : a.country with
  | none => simp
  | some code =>
    cases htown : a.townName with
    | none => simp
    | some town =>
      by_cases hcode : isValidCountryCode code
      · have hstructured : hasStructured a := by
          simp [hasStructured, hcountry,
            truthy_some.mpr (Address.CloudNova.ne_empty_of_valid hcode)]
        simp [hcode, hstructured]
      · simp [hcode]

/-- A finding about an address has the id of the check that fails. -/
theorem address_findings {P : String → Prop} (hP : ∀ rule ∈ structuralRules, P rule.ruleId) :
    (∀ f ∈ buildAddressRuleset.evaluate m, P f.ruleId) ↔
      ∀ tx ∈ m.transactions, ∀ a ∈ addresses tx, ∀ c ∈ addressChecks, c.fails a.2 → P c.ruleId := by
  constructor
  · intro h tx htx a ha c hc hfails
    apply h (c.finding a.1 a.2)
    exact mem_evaluate_append.mpr (.inr (mem_addressRules.mpr ⟨tx, htx, a, ha, c, hc, hfails, rfl⟩))
  · intro h f hf
    rcases mem_evaluate_append.mp hf with hf | hf
    · obtain ⟨tx, -, rule, hrule, hf⟩ := mem_evaluate.mp hf
      rw [(finding_of_rule (List.mem_append_left _ hrule) hf).1]
      exact hP rule hrule
    · obtain ⟨tx, htx, a, ha, c, hc, hfails, rfl⟩ := mem_addressRules.mp hf
      exact h tx htx a ha c hc hfails

end

theorem eq_resultOf {D : Type} {env : MessageEnv} {digests : Digests D} {request : Request}
    {clock : Instant} {r : AnalysisResult D}
    (h : analyzeMessage env digests request clock = .ok r) :
    ∃ candidate, r = resultOf env digests request candidate := by
  unfold analyzeMessage at h
  split_ifs at h
  · obtain ⟨candidate, -, rfl⟩ := Except.map_eq_ok.mp h
    exact ⟨_, rfl⟩
  · exact ⟨none, (Except.ok.inj h).symm⟩

/-- With the rules and the provider of CloudNova, a message is `READY` exactly when it has an
address, the rules find nothing about its addresses but that they are hybrid, and no town is
blank. -/
theorem ready_iff {D : Type} (env : MessageEnv) (digests : Digests D) (u : Unicode)
    (isUpper : Char → Bool) (hprovider : env.provider = Address.CloudNova.analyze u isUpper)
    (hrules : env.rules = buildAddressRuleset) (request : Request) (clock : Instant)
    (r : AnalysisResult D) (h : analyzeMessage env digests request clock = .ok r) :
    r.addressReadiness = "READY" ↔
      (∃ tx ∈ request.message.transactions, addresses tx ≠ []) ∧
        (∀ f ∈ r.ruleFindings, f.ruleId ∉ ["ADR-001", "ADR-002", "ADR-003", "ADR-004"]) ∧
        ∀ tx ∈ request.message.transactions, ∀ a ∈ addresses tx,
          ∀ town, a.2.townName = some town → Address.normalizeWhitespace town ≠ "" := by
  obtain ⟨candidate, rfl⟩ := eq_resultOf h
  have hlevels : (addressAnalyses env.provider request.message).map (·.2.readiness) =
      request.message.transactions.flatMap fun tx =>
        (addresses tx).map fun a => (Address.CloudNova.analyze u isUpper a.2).readiness := by
    simp [addressAnalyses, hprovider, List.map_flatMap, Function.comp_def]
  have hids : ∀ c ∈ addressChecks, c.ruleId ∉ ["ADR-001", "ADR-002", "ADR-003", "ADR-004"] ↔
      c.ruleId = "ADR-005" := by
    decide +kernel
  have hstructural : ∀ rule ∈ structuralRules,
      rule.ruleId ∉ ["ADR-001", "ADR-002", "ADR-003", "ADR-004"] := by
    simp [structuralRules, structuralRule, missingInstructionIdRule, missingAmountRule,
      missingEndToEndIdRule, missingDebtorAgentBicRule, missingCreditorAgentBicRule,
      missingCreditorAccountRule]
  have hfindings := address_findings (m := request.message)
    (P := (· ∉ ["ADR-001", "ADR-002", "ADR-003", "ADR-004"])) hstructural
  unfold resultOf
  dsimp only
  rw [hlevels, hrules, aggregateReadiness_ready, hfindings]
  apply and_congr
  · simp [List.flatMap_eq_nil_iff]
  · constructor
    · intro hready
      have hready : ∀ tx ∈ request.message.transactions, ∀ a ∈ addresses tx,
          (Address.CloudNova.analyze u isUpper a.2).readiness = .ready := by
        intro tx htx a ha
        exact hready _ (List.mem_flatMap.mpr ⟨tx, htx, List.mem_map_of_mem ha⟩)
      constructor
      · intro tx htx a ha c hc hfails
        exact (hids c hc).mpr ((address_ready_iff.mp (hready tx htx a ha)).1 c hc hfails)
      · intro tx htx a ha
        exact (address_ready_iff.mp (hready tx htx a ha)).2
    · rintro ⟨hchecks, htowns⟩ level hlevel
      obtain ⟨tx, htx, hlevel⟩ := List.mem_flatMap.mp hlevel
      obtain ⟨a, ha, rfl⟩ := List.mem_map.mp hlevel
      apply address_ready_iff.mpr
      refine ⟨fun c hc hfails => ?_, htowns tx htx a ha⟩
      exact (hids c hc).mp (hchecks tx htx a ha c hc hfails)

/-- A creditor in Milano, with a hybrid address. -/
def milano : PaymentMessage where
  transactions := [{
    creditor := some { postalAddress := some {
      townName := some "Milano", country := some "IT", addressLines := ["Via Roma 1"] } } }]
  receivedAt := 0

/-- The pipeline of CloudNova on texts in ASCII. -/
def cloudNovaEnv : MessageEnv where
  unicode := .ascii
  xmlLibrary := { fromstring := fun _ => .error .syntaxError, validate := fun _ _ => true }
  provider := Address.CloudNova.analyze .ascii Char.isUpper
  rules := buildAddressRuleset

theorem ready_iff_milano :
    let digests : Digests Unit := { message := fun _ => (), xml := fun _ => () }
    let r := resultOf cloudNovaEnv digests { message := milano, repair := false } none
    r.addressReadiness = "READY" ↔
      (∃ tx ∈ milano.transactions, addresses tx ≠ []) ∧
        (∀ f ∈ r.ruleFindings, f.ruleId ∉ ["ADR-001", "ADR-002", "ADR-003", "ADR-004"]) ∧
        ∀ tx ∈ milano.transactions, ∀ a ∈ addresses tx,
          ∀ town, a.2.townName = some town → Address.normalizeWhitespace town ≠ "" :=
  ready_iff cloudNovaEnv { message := fun _ => (), xml := fun _ => () } .ascii Char.isUpper rfl
    rfl { message := milano, repair := false } 0 _ rfl

end PaymentOps.Analysis
