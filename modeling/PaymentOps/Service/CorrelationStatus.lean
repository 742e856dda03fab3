import PaymentOps.Account.Classification
import PaymentOps.Iso.Entries
import PaymentOps.Service.EntryOutcome
import PaymentOps.Service.StatusReports

/-!
# The correlation status of an account report

The status that a call answers with is computed from the entries as they were parsed, and the
reconciliation writes its outcome to the stored rows only.

* `account_mapped`: no entry of a parsed report has a reconciliation status;
* `status_reconciled_iff`: when an entry step stores `RECONCILED`;
* `statusTells_iff`: the answer tells whether an entry was reconciled exactly when the message has
  a report and none of its entries gets reconciled;
* `reconciled_not_told` is a statement with a reconciled entry that is answered `UNRESOLVED`.
-/

namespace PaymentOps

open Reconciliation AccountService

/-! ## Parsed entries -/

namespace Iso

variable {u : Unicode} {version : SupportedVersion} {grp : Option Xml.Element}
  {el root : Xml.Element}

/-- No entry of a report has a reconciliation status. -/
def Unreconciled (report : AccountReport) : Prop :=
  ∀ e ∈ report.entries, e.reconciliationStatus = none

theorem reconciliationStatus_mapEntry {path : String} {entry : AccountEntry}
    (h : Camt.mapEntry u el path = .ok entry) : entry.reconciliationStatus = none := by
  obtain ⟨amount, -, h⟩ := Except.bind_eq_ok.mp h
  obtain rfl := Except.pure_eq_ok.mp h
  rfl

theorem unreconciled_mapStatement {report : AccountReport}
    (h : Camt.mapStatement u version grp el = .ok report) : Unreconciled report := by
  obtain ⟨balances, -, h⟩ := Except.bind_eq_ok.mp h
  obtain ⟨entries, hentries, h⟩ := Except.bind_eq_ok.mp h
  obtain rfl := Except.pure_eq_ok.mp h
  exact Except.forall_of_mapM (fun _ _ => reconciliationStatus_mapEntry) hentries

theorem unreconciled_mapNotification {report : AccountReport}
    (h : Camt.mapNotification u version grp el = .ok report) : Unreconciled report := by
  obtain ⟨entries, hentries, h⟩ := Except.bind_eq_ok.mp h
  obtain rfl := Except.pure_eq_ok.mp h
  exact Except.forall_of_mapM (fun _ _ => reconciliationStatus_mapEntry) hentries

/-- Reconciliation is not part of parsing. -/
theorem account_mapped {clock : Instant} {adapter : Adapter} {bundle : AccountReportBundle}
    (h : adapter.map u clock root version = .ok (.account bundle)) :
    ∀ report ∈ bundle.reports, Unreconciled report := by
  cases adapter with
  | camt053 =>
    obtain ⟨bundle', hbundle, heq⟩ := Except.map_eq_ok.mp h
    cases heq
    obtain ⟨reports, hreports, hbundle⟩ := Except.bind_eq_ok.mp hbundle
    obtain rfl := Except.pure_eq_ok.mp hbundle
    exact Except.forall_of_mapM (fun _ _ => unreconciled_mapStatement) hreports
  | camt054 =>
    obtain ⟨bundle', hbundle, heq⟩ := Except.map_eq_ok.mp h
    cases heq
    obtain ⟨reports, hreports, hbundle⟩ := Except.bind_eq_ok.mp hbundle
    obtain rfl := Except.pure_eq_ok.mp hbundle
    exact Except.forall_of_mapM (fun _ _ => unreconciled_mapNotification) hreports
  | _ =>
    obtain ⟨_, -, heq⟩ := Except.map_eq_ok.mp h
    cases heq

end Iso

variable {D : Type}

/-! ## Reconciled entries -/

namespace EntryStep

/-- The entry repeats one of a report of another kind, or it is the first with its identity and
agrees with the lifecycle that is found for it. -/
def Reconcilable (env : Env D) (st : EntryStep D) : Prop :=
  (∃ id e, st.existing env = some (id, e) ∧ e.reportId ≠ st.reportId ∧
    reportTypeOf st.before e.reportId ≠ some st.report.reportType) ∨
  (st.existing env = none ∧ ∃ id l,
    findLifecycleForEntry env st.org st.entry (st.added env) = some (id, l) ∧
      Agrees env.unicode st.entry st.report.account (lifecycleContext l))

variable {env : Env D} {st : EntryStep D}

theorem repeatStatus_reconciled_iff {e : AccountEntryRow} : st.repeatStatus e = .reconciled ↔
    e.reportId ≠ st.reportId ∧ reportTypeOf st.before e.reportId ≠ some st.report.reportType := by
  unfold repeatStatus duplicateStatus
  split_ifs with h
  · simp only [false_iff]
    tauto
  · simp only [true_iff]
    tauto

/-- The entries that a step stores as `RECONCILED`. -/
theorem status_reconciled_iff : st.status env = .reconciled ↔ st.Reconcilable env := by
  unfold status reconcilerResult Reconcilable
  rcases he : st.existing env with _ | ⟨id, e⟩
  · rcases hl : findLifecycleForEntry env st.org st.entry (st.added env) with _ | ⟨id, l⟩
    · simp
    · simp [reconciled_iff]
  · simp [repeatStatus_reconciled_iff]

instance : Decidable (st.Reconcilable env) := decidable_of_iff _ status_reconciled_iff

theorem finalRow_reconciled_iff :
    (st.finalRow env).reconciliationStatus = some .reconciled ↔ st.Reconcilable env := by
  rw [finalRow_status, Option.some_inj, status_reconciled_iff]

end EntryStep

/-! ## The answer -/

namespace IsoAnalysis

/-- The entry rows that a call adds, between the store before it and the one after it. -/
def persistedEntries (s t : Store D) : List AccountEntryRow :=
  t.accountEntries.drop s.accountEntries.length

/-- The call persisted a reconciled entry. -/
def HasReconciled (s t : Store D) : Prop :=
  ∃ row ∈ persistedEntries s t, row.reconciliationStatus = some .reconciled

/-- The status says whether an entry that the call persisted is reconciled. -/
def StatusTells (s t : Store D) (correlationStatus : Option String) : Prop :=
  (correlationStatus = some "CORRELATED" ↔ HasReconciled s t) ∧
    (¬ HasReconciled s t → correlationStatus = some "UNRESOLVED")

/-- Reports whose entries have no status are unresolved. -/
theorem accountCorrelationStatus_parsed {reports : List AccountReport}
    (h : ∀ report ∈ reports, Iso.Unreconciled report) :
    accountCorrelationStatus reports = "UNRESOLVED" := by
  have hnone : reports.flatMap (fun report =>
      report.entries.filterMap (·.reconciliationStatus)) = [] := by
    rw [List.flatMap_eq_nil_iff]
    intro report hreport
    rw [List.filterMap_eq_nil_iff]
    exact h report hreport
  unfold accountCorrelationStatus
  rw [hnone]
  rfl

section

variable [DecidableEq D] {env : Env D} {org : String} {pipeline : AnalysisPipeline}
  {payload : List UInt8} {clock : Instant} {s : Store D} {root : Xml.Element}
  {registered : Iso.RegisteredMessage} {bundle : AccountReportBundle}
  {analyzed result : IsoAnalysisResult D}

/-- The entry steps of the first call with a message. -/
def entrySteps (env : Env D) (org : String) (analyzed : IsoAnalysisResult D) (s : Store D) :
    List (EntryStep D) :=
  callSteps env ⟨org, analyzed.accountReports, some s.isoMessages.length⟩
    (recorded env org analyzed s)

omit [DecidableEq D] in
theorem accountReports_of_parse
    (hparse : pipeline.parseIso payload clock = .ok (root, registered, .account bundle))
    (hanalysis : pipeline.analyzeIso env.hash payload clock = .ok analyzed) :
    analyzed.accountReports = bundle.reports ∧ analyzed.correlationProfiles = [] ∧
      isStatusReport analyzed = false := by
  rw [AnalysisPipeline.analyzeIso_of_parse hparse] at hanalysis
  have hresult : AnalysisPipeline.isoAccountResult pipeline env.hash registered
      (pipeline.generator.xmlLibrary.validate registered.version.identifier root) bundle =
        .ok analyzed := hanalysis
  unfold AnalysisPipeline.isoAccountResult at hresult
  split_ifs at hresult
  obtain rfl := Except.ok.inj hresult
  exact ⟨rfl, rfl, AnalysisPipeline.version_of_other hparse (by simp)⟩

/-- A message without reports commits its own row only, and its result has no status. -/
theorem analyzeIsoMessage_empty
    (hanalysis : pipeline.analyzeIso env.hash payload clock = .ok analyzed)
    (hnew : ¬ Known env org analyzed s) (hreports : analyzed.accountReports = [])
    (hprofiles : analyzed.correlationProfiles = []) (hstatus : isStatusReport analyzed = false) :
    (analyzeIsoMessage env org pipeline payload clock).run s =
      ⟨[recorded env org analyzed s], .ok (withCorrelation analyzed {})⟩ := by
  rw [analyzeIsoMessage_ok hanalysis, persistAnalysis_new hnew]
  simp only [afterRecord, hreports, List.isEmpty_nil, if_true, correlateAndBuildLifecycle,
    hprofiles, hstatus, Bool.false_eq_true, if_false]
  rfl

/-- A message with reports: where the call ends, and the status of its result. -/
theorem analyzeIsoMessage_reports
    (hanalysis : pipeline.analyzeIso env.hash payload clock = .ok analyzed)
    (hnew : ¬ Known env org analyzed s) (hreports : analyzed.accountReports ≠ [])
    (hok : ((analyzeIsoMessage env org pipeline payload clock).run s).outcome = .ok result) :
    persistedEntries s (((analyzeIsoMessage env org pipeline payload clock).run s).final s) =
        (entrySteps env org analyzed s).map (·.finalRow env) ∧
      result.correlationStatus = some (accountCorrelationStatus analyzed.accountReports) := by
  rw [analyzeIsoMessage_ok hanalysis] at hok ⊢
  constructor
  · rw [Session.final_of_commits_cons (commits_account hnew hreports), persistedEntries]
    have hentries := ingest_entries env ⟨org, analyzed.accountReports, some s.isoMessages.length⟩
      (recorded env org analyzed s)
    rw [ingest] at hentries
    rw [hentries]
    exact List.drop_left
  · have hempty : analyzed.accountReports.isEmpty = false := by simpa using hreports
    rw [persistAnalysis_new hnew] at hok
    simp only [afterRecord, hempty, Bool.false_eq_true, if_false] at hok
    rcases ho : ((ingestAccountReport env org analyzed.accountReports
        (some s.isoMessages.length)).run (recorded env org analyzed s)).outcome with e | _
    · rw [Session.bind_error ho] at hok
      cases hok
    · rw [Session.bind_ok ho] at hok
      cases hok
      rfl

/-- The first call with an account report answers whether it persisted a reconciled entry exactly
when the message has a report and no entry gets reconciled in the store in which its turn comes. -/
theorem statusTells_iff (env : Env D) (org : String) (pipeline : AnalysisPipeline)
    (payload : List UInt8) (clock : Instant) (s : Store D)
    (hparse : pipeline.parseIso payload clock = .ok (root, registered, .account bundle))
    (hanalysis : pipeline.analyzeIso env.hash payload clock = .ok analyzed)
    (hnew : ¬ Known env org analyzed s)
    (hok : ((analyzeIsoMessage env org pipeline payload clock).run s).outcome = .ok result) :
    StatusTells s (((analyzeIsoMessage env org pipeline payload clock).run s).final s)
        result.correlationStatus ↔
      bundle.reports ≠ [] ∧ ∀ st ∈ entrySteps env org analyzed s, ¬ st.Reconcilable env := by
  obtain ⟨hreports, hprofiles, hstatus⟩ := accountReports_of_parse hparse hanalysis
  by_cases hempty : bundle.reports = []
  · have hrun := analyzeIsoMessage_empty hanalysis hnew (hreports.trans hempty) hprofiles hstatus
    rw [hrun] at hok ⊢
    cases hok
    have hnone : ¬ HasReconciled s (recorded env org analyzed s) := by
      simp [HasReconciled, persistedEntries, recorded]
    simp only [hempty, ne_eq, not_true_eq_false, false_and, iff_false]
    rintro ⟨-, hunresolved⟩
    cases hunresolved hnone
  · obtain ⟨hrows, hanswer⟩ := analyzeIsoMessage_reports hanalysis hnew
      (hreports.symm ▸ hempty) hok
    have hparsed : ∀ report ∈ bundle.reports, Iso.Unreconciled report :=
      Iso.account_mapped (AnalysisPipeline.parseIso_ok hparse).2.2
    rw [hreports, accountCorrelationStatus_parsed hparsed] at hanswer
    have hreconciled : HasReconciled s
        (((analyzeIsoMessage env org pipeline payload clock).run s).final s) ↔
          ∃ st ∈ entrySteps env org analyzed s, st.Reconcilable env := by
      rw [HasReconciled, hrows]
      simp only [List.mem_map, exists_exists_and_eq_and, EntryStep.finalRow_reconciled_iff]
    have hne : some "UNRESOLVED" ≠ some "CORRELATED" := by decide
    rw [StatusTells, hanswer, hreconciled]
    constructor
    · rintro ⟨hcorrelated, -⟩
      exact ⟨hempty, fun st hst hrec => hne (hcorrelated.mpr ⟨st, hst, hrec⟩)⟩
    · rintro ⟨-, hnone⟩
      have hno : ¬ ∃ st ∈ entrySteps env org analyzed s, st.Reconcilable env := by
        rintro ⟨st, hst, hrec⟩
        exact hnone st hst hrec
      exact ⟨iff_of_false hne hno, fun _ => rfl⟩

end

/-! ## A statement about one payment -/

/-- A pipeline that parses a statement. -/
def statementPipeline : AnalysisPipeline := samplePipeline (Iso.batchTree ["E-1"])

/-- A statement with one entry. -/
def statementReport : AccountReport :=
  { Iso.Camt.report Iso.camt053Version .statement none with
    messageId := some "S-1"
    creationDatetime := Iso.parseDatetime (some "2026-01-01T00:00:00")
    statementId := some "1"
    entries := [{
      endToEndId := some "E-1", amount := some ⟨200, "EUR"⟩, currency := some "EUR"
      creditDebit := some .crdt }] }

/-- The message of this statement. -/
def statementBundle : AccountReportBundle :=
  { Iso.Camt.bundle Iso.camt053Version .statement none [statementReport] with
    messageId := statementReport.messageId
    creationDatetime := statementReport.creationDatetime }

/-- The registration of camt.053. -/
def statementRegistered : Iso.RegisteredMessage := ⟨"camt", Iso.camt053Version, .camt053⟩

theorem statement_maps :
    Iso.mapCamt053ToAccountReport .ascii (Iso.batchTree ["E-1"]) Iso.camt053Version =
      .ok statementBundle := by
  decide +kernel

theorem statementPipeline_parse : statementPipeline.parseIso [60] 0 =
    .ok (Iso.batchTree ["E-1"], statementRegistered, .account statementBundle) := by
  have hmap : Iso.Adapter.map .ascii 0 (Iso.batchTree ["E-1"]) Iso.camt053Version .camt053 =
      .ok (.account statementBundle) := by
    rw [Iso.Adapter.map, statement_maps]
    rfl
  have hparse : statementPipeline.parseIso [60] 0 =
      (Iso.Adapter.map .ascii 0 (Iso.batchTree ["E-1"]) Iso.camt053Version .camt053 >>=
        fun artifact => pure (Iso.batchTree ["E-1"], statementRegistered, artifact)) := rfl
  rw [hparse, hmap]
  rfl

/-- The result of this statement. -/
def statementResult : IsoAnalysisResult Digest :=
  { AnalysisPipeline.baseResult statementRegistered statementBundle.messageId true
      "payment_domain.v3" (Hashing.structural.input (.account statementBundle)) with
    accountReportType := some .statement
    accountReports := [statementReport]
    accountEntryCount := 1 }

theorem statementPipeline_analyze :
    statementPipeline.analyzeIso Hashing.structural [60] 0 = .ok statementResult :=
  AnalysisPipeline.analyzeIso_of_parse statementPipeline_parse

/-- A call with the statement. -/
def statementCall (s : Store Digest) :
    Exec (Store Digest) ServiceError (IsoAnalysisResult Digest) :=
  (analyzeIsoMessage mixedEnv "org" statementPipeline [60] 0).run s

/-- The lifecycle of the payment. -/
def statementStore : Store Digest where
  lifecycles := [{
    organizationId := "org", endToEndId := some "E-1", amountMinor := some 200
    currency := some "EUR", createdAt := 0 }]

/-- Without a lifecycle the entry is not reconciled. -/
theorem statusTells_sample : ∃ result, (statementCall {}).outcome = .ok result ∧
    StatusTells {} ((statementCall {}).final {}) result.correlationStatus := by
  have hreturns : (statementCall {}).outcome.toBool := by decide +kernel
  obtain ⟨result, hok⟩ := Except.exists_of_toBool hreturns
  have hnone : ∀ st ∈ entrySteps mixedEnv "org" statementResult {},
      ¬ st.Reconcilable mixedEnv := by
    decide +kernel
  exact ⟨result, hok, (statusTells_iff mixedEnv "org" statementPipeline [60] 0 {}
    statementPipeline_parse statementPipeline_analyze (by decide +kernel) hok).mpr
      ⟨by decide +kernel, hnone⟩⟩

/-- The entry is reconciled with the lifecycle, and the answer is `UNRESOLVED`. -/
theorem reconciled_not_told :
    ((statementCall statementStore).final statementStore).accountEntries.map
        (·.reconciliationStatus) = [some .reconciled] ∧
      ∃ result, (statementCall statementStore).outcome = .ok result ∧
        result.correlationStatus = some "UNRESOLVED" ∧
        ¬ StatusTells statementStore ((statementCall statementStore).final statementStore)
          result.correlationStatus := by
  have hentries : ((statementCall statementStore).final statementStore).accountEntries.map
      (·.reconciliationStatus) = [some .reconciled] := by
    decide +kernel
  have hanswer : ((statementCall statementStore).outcome.map (·.correlationStatus)).toOption =
      some (some "UNRESOLVED") := by
    decide +kernel
  have hreturns : (statementCall statementStore).outcome.toBool := by decide +kernel
  obtain ⟨result, hok⟩ := Except.exists_of_toBool hreturns
  rw [hok] at hanswer
  have hstatus : result.correlationStatus = some "UNRESOLVED" := Option.some.inj hanswer
  refine ⟨hentries, result, hok, hstatus, fun htells => ?_⟩
  have hreconciled : HasReconciled statementStore
      ((statementCall statementStore).final statementStore) := by
    unfold HasReconciled
    decide +kernel
  rw [StatusTells, hstatus] at htells
  exact absurd (htells.1.mpr hreconciled) (by decide)

end IsoAnalysis

end PaymentOps
