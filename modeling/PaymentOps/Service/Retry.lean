import PaymentOps.Repair.Simulation
import PaymentOps.Service.EntryStep
import PaymentOps.Service.IsoSteps
import PaymentOps.Service.StatusReports

/-!
# A message that is submitted again

The row of a message is committed before everything that the message does to the lifecycles and
the account tables, and the row is what makes a second submission do nothing.  A failure after the
first commit therefore can not be made up for.  The row is found by a hash, and that of a payment
covers the time of receipt, so a payment that is submitted again later is another message.

* `atomicUpToRetry_iff`: a call can be retried exactly when it has nothing to commit besides the
  message;
* `idempotent_iff`: a second submission changes nothing exactly when it is no payment, or falls on
  the same instant, or was made before.
-/

namespace PaymentOps

open Text Lifecycle

variable {D : Type} {env : Env D} {org : String} {clock : Instant} {s : Store D}

/-! ## Growth of the tables -/

namespace AccountService

/-- A call with a report adds a report. -/
theorem ingestAccountReport_grows (env : Env D) (org : String) (report : AccountReport)
    (reports : List AccountReport) (iso : Option ℕ) (s : Store D) :
    s.accountReports.length <
      (((ingestAccountReport env org (report :: reports) iso).run s).final
        s).accountReports.length := by
  let size : Store D → ℕ := fun s => s.accountReports.length
  have hframe : EntryFrame size :=
    ⟨fun _ _ => rfl, fun _ _ => rfl, fun _ _ => rfl, fun _ _ _ => rfl⟩
  have hadd : ∀ r (s : Store D), size s < size (((persistReport org r iso).run s).final s) := by
    intro r s
    show s.accountReports.length < (s.accountReports ++ [_]).length
    rw [List.length_append, List.length_singleton]
    omega
  have hbalances : ∀ r id, Session.Ascends size (persistBalances org r id : Service D Unit) := by
    intro r id
    refine .of_leaves ?_
    unfold persistBalances
    exact .ite (.pure _) (.commit fun _ => rfl)
  have hreport : ∀ r (s : Store D), size s < size (((ingestReport env org iso r).run s).final s) :=
    fun r s => Session.Ascends.bind_lt
      (Session.Ascends.bind_lt (hadd r s) fun id => .bind (hbalances r id) fun _ => .pure _)
      fun id => .of_leaves (.each fun entry _ => ingestEntry_leaves hframe env org r id entry)
  rw [ingestAccountReport, Session.each_cons]
  exact Session.Ascends.bind_lt (hreport report s) fun _ =>
    .each fun r _ s => (hreport r s).le

/-- An account report does not touch the messages. -/
theorem ingestAccountReport_isoMessages (env : Env D) (org : String)
    (reports : List AccountReport) (iso : Option ℕ) :
    Session.Leaves Store.isoMessages (ingestAccountReport env org reports iso) := by
  apply ingestAccountReport_leaves
  · exact ⟨fun _ _ => rfl, fun _ _ => rfl, fun _ _ => rfl, fun _ _ _ => rfl⟩
  · exact fun _ _ => rfl
  · exact fun _ _ => rfl

end AccountService

namespace IsoAnalysis

variable {pipeline : AnalysisPipeline} {payload : List UInt8} {result : IsoAnalysisResult D}

/-- The number of events. -/
def eventCount (s : Store D) : ℕ := s.lifecycleEvents.length

theorem eventCount_withEvent (isoId : ℕ) (messageHash : D) (id : ℕ) (evidence : List String)
    (s : Store D) :
    eventCount (withEvent org result isoId messageHash id evidence s) = eventCount s + 1 := by
  simp [eventCount, withEvent]

theorem paymentStep_adds (env : Env D) (isoId : ℕ) (messageHash : D) (c : Correlation)
    (data : CorrelationProfile) (s : Store D) :
    eventCount s < eventCount
      (((paymentStep env org result isoId messageHash clock c data).run s).final s) := by
  obtain ⟨c', e, he, -, -, hcases⟩ :=
    paymentStep_cases env org result isoId messageHash clock c data s
  rw [he]
  rcases hcases with ⟨-, -, hfin⟩ | ⟨id, row, evidence, -, -, hfin⟩
  · rw [hfin, eventCount_withEvent]
    show eventCount s < eventCount s + 1
    omega
  · rw [hfin, eventCount_withEvent]
    omega

theorem statusStep_ascends (env : Env D) (hn : truthy result.normalizedStatus) (isoId : ℕ)
    (messageHash : D) (c : Correlation) (data : CorrelationProfile) :
    Session.Ascends eventCount (statusStep env org result isoId messageHash c data) := by
  intro s
  obtain ⟨c', e, he, -, hcases⟩ := statusStep_cases env hn isoId messageHash c data s
  rw [he]
  rcases hcases with ⟨-, -, hfin⟩ | ⟨id, row, evidence, -, -, hfin⟩
  · rw [hfin]
  · rw [hfin]
    show eventCount s ≤ eventCount (withEvent org result isoId messageHash id evidence s)
    rw [eventCount_withEvent]
    omega

/-- A status report that finds a lifecycle leaves an event. -/
theorem statusLoop_adds (env : Env D) (hn : truthy result.normalizedStatus) (isoId : ℕ)
    (messageHash : D) (c : Correlation) {xs : List CorrelationProfile} {s : Store D}
    (h : ∃ data ∈ xs, ∃ row ∈ s.lifecycles, lookup org (profileFromDict data) row) :
    eventCount s < eventCount
      (((Session.fold (statusStep env org result isoId messageHash) c xs).run s).final s) := by
  induction xs generalizing c with
  | nil => simp at h
  | cons x xs ih =>
    rw [Session.fold_cons]
    obtain ⟨c', e, he, ho, hcases⟩ := statusStep_cases env hn isoId messageHash c x s
    rcases hcases with ⟨hf, -, hfin⟩ | ⟨id, row, evidence, -, -, hfin⟩
    · -- the lifecycle is found further on
      obtain ⟨data, hdata, row, hrow, hlookup⟩ := h
      have hne : data ≠ x := by
        rintro rfl
        exact findLifecycle_eq_none.mp hf row hrow hlookup
      have hmem : data ∈ xs := (List.mem_cons.mp hdata).resolve_left hne
      rw [Session.bind_final (by rw [he, ho]), he, hfin]
      exact ih c' ⟨data, hmem, row, hrow, hlookup⟩
    · refine Session.Ascends.bind_lt ?_ fun c' =>
        .fold (fun b y _ => statusStep_ascends env hn isoId messageHash b y) c'
      rw [he, hfin]
      show eventCount s < eventCount (withEvent org result isoId messageHash id evidence s)
      rw [eventCount_withEvent]
      omega

section

variable [DecidableEq D]

/-! ## What a call leaves -/

/-- The messages after a call. -/
theorem isoMessages_final (hresult : pipeline.analyzeIso env.hash payload clock = .ok result) :
    (((analyzeIsoMessage env org pipeline payload clock).run s).final s).isoMessages =
      if Known env org result s then s.isoMessages
      else (recorded env org result s).isoMessages := by
  have hafter : ∀ isoId, Session.Leaves Store.isoMessages
      (afterRecord env org result isoId clock) := fun isoId =>
    .ite (.bind (correlateAndBuildLifecycle_leaves (fun _ _ => rfl) (fun _ _ => rfl) env org result
        isoId _ clock) fun _ => .pure _)
      (.bind (AccountService.ingestAccountReport_isoMessages env org _ _) fun _ => .pure _)
  rw [analyzeIsoMessage_ok hresult]
  split_ifs with hk
  · obtain ⟨r, hr⟩ := persistAnalysis_known hk
    rw [hr]
    rfl
  · rw [persistAnalysis_new hk, Session.final_cons]
    exact (hafter _).final _

/-- A call leaves the message behind. -/
theorem known_final (hresult : pipeline.analyzeIso env.hash payload clock = .ok result) :
    Known env org result (((analyzeIsoMessage env org pipeline payload clock).run s).final s) := by
  by_cases hk : Known env org result s
  · exact hk.mono (by rw [isoMessages_final hresult, if_pos hk]; exact List.Subset.refl _)
  · exact known_recorded.mono
      (by rw [isoMessages_final hresult, if_neg hk]; exact List.Subset.refl _)

/-! ## A failure and a retry -/

/-- A lifecycle without the time at which it was opened. -/
def undated (l : PaymentLifecycleRow) : PaymentLifecycleRow := { l with createdAt := 0 }

/-- An event without its references to the message. -/
def unsourced (e : PaymentLifecycleEventRow D) : PaymentLifecycleEventRow D :=
  { e with messageId := none, sourceHash := none }

/-- A report without its reference to the message. -/
def detached (r : AccountReportRow) : AccountReportRow := { r with isoMessageId := none }

/-- The two stores agree on what messages leave in them, apart from times and references to the
rows of the messages. -/
structure SameRecords (s t : Store D) : Prop where
  lifecycles : s.lifecycles.map undated = t.lifecycles.map undated
  lifecycleEvents : s.lifecycleEvents.map unsourced = t.lifecycleEvents.map unsourced
  accountReports : s.accountReports.map detached = t.accountReports.map detached
  accountEntries : s.accountEntries = t.accountEntries
  cases : s.cases = t.cases

/-- Whichever commit of the call fails, either nothing happened, or a later retry leads to what
the call would have led to. -/
def AtomicUpToRetry (env : Env D) (org : String) (pipeline : AnalysisPipeline)
    (payload : List UInt8) (clock : Instant) (s : Store D) : Prop :=
  let call := analyzeIsoMessage env org pipeline payload
  ∀ k < ((call clock).run s).commits.length,
    (call clock).crash k s = s ∨ ∀ retry ≥ clock,
      SameRecords (((call retry).run ((call clock).crash k s)).final ((call clock).crash k s))
        (((call clock).run s).final s)

/-- The message leaves nothing besides its own row: it has no account report, and each of its
transactions is in a status report and finds no lifecycle. -/
def OnlyMessage (org : String) (result : IsoAnalysisResult D) (s : Store D) : Prop :=
  result.accountReports = [] ∧ ∀ data ∈ result.correlationProfiles,
    isStatusReport result ∧ ∀ row ∈ s.lifecycles, ¬ lookup org (profileFromDict data) row

theorem commits_of_onlyMessage (hk : ¬ Known env org result s) (h : OnlyMessage org result s) :
    ((persistAnalysis env org result clock).run s).commits = [recorded env org result s] := by
  obtain ⟨hreports, hprofiles⟩ := h
  by_cases hs : isStatusReport result
  · rw [commits_status hk hreports hs, Session.fold_commits_nil]
    intro c data hdata
    have hf : findLifecycle env org (profileFromDict data) (recorded env org result s) = none :=
      findLifecycle_eq_none.mpr (hprofiles data hdata).2
    rw [statusStep_none hf]
  · have hnil : result.correlationProfiles = [] :=
      List.eq_nil_iff_forall_not_mem.mpr fun data hdata => hs (hprofiles data hdata).1
    rw [commits_payment hk hreports (by simpa using hs), hnil]
    rfl

/-- Any other message leaves more. -/
theorem grows_of_not_onlyMessage (hn : isStatusReport result → truthy result.normalizedStatus)
    (hk : ¬ Known env org result s) (h : ¬ OnlyMessage org result s) :
    let final := ((persistAnalysis env org result clock).run s).final s
    s.accountReports.length < final.accountReports.length ∨ eventCount s < eventCount final := by
  intro final
  by_cases hr : result.accountReports = []
  · right
    have hex : ∃ data ∈ result.correlationProfiles, isStatusReport result →
        ∃ row ∈ s.lifecycles, lookup org (profileFromDict data) row := by
      by_contra hno
      refine h ⟨hr, fun data hdata => ?_⟩
      by_contra hdata'
      apply hno
      refine ⟨data, hdata, fun hs => ?_⟩
      by_contra hrow
      exact hdata' ⟨hs, fun row hmem hlookup => hrow ⟨row, hmem, hlookup⟩⟩
    obtain ⟨data, hdata, hfind⟩ := hex
    by_cases hs : isStatusReport result
    · obtain ⟨row, hrow, hlookup⟩ := hfind hs
      show eventCount s < eventCount (Exec.final _ s)
      rw [Session.final_of_commits_cons (commits_status hk hr hs)]
      exact statusLoop_adds env (hn hs) _ _ {} (s := recorded env org result s)
        ⟨data, hdata, row, hrow, hlookup⟩
    · show eventCount s < eventCount (Exec.final _ s)
      rw [Session.final_of_commits_cons (commits_payment hk hr (by simpa using hs))]
      have hstep : ∀ (c : Correlation) (data : CorrelationProfile), Session.Ascends eventCount
          (paymentStep env org result s.isoMessages.length (env.hash.message (messageKey result))
            clock c data) :=
        fun c data s => (paymentStep_adds env _ _ c data s).le
      have hupdate : ∀ c, Session.Ascends (eventCount (D := D))
          (updateLifecycleStatus result c) := by
        intro c
        unfold updateLifecycleStatus
        cases c.lifecycleId with
        | none => exact .pure _
        | some id => exact .commit fun _ => Nat.le_refl _
      cases hp : result.correlationProfiles with
      | nil =>
        rw [hp] at hdata
        cases hdata
      | cons x xs =>
        show eventCount (recorded env org result s) < _
        refine Session.Ascends.bind_lt ?_ fun c => .bind (hupdate c) fun _ => .pure _
        rw [Session.fold_cons]
        exact Session.Ascends.bind_lt (paymentStep_adds env _ _ {} x _) fun c =>
          .fold (fun c y _ => hstep c y) c
  · left
    show s.accountReports.length < (Exec.final _ s).accountReports.length
    rw [Session.final_of_commits_cons (commits_account hk hr)]
    obtain ⟨report, reports, hreports⟩ := List.exists_cons_of_ne_nil hr
    rw [hreports]
    exact AccountService.ingestAccountReport_grows env org report reports _
      (recorded env org result s)

/-- A call is atomic up to a retry exactly when the payload is rejected, or was ingested before,
or leaves nothing besides the message. -/
theorem atomicUpToRetry_iff (env : Env D) (org : String) (pipeline : AnalysisPipeline)
    (payload : List UInt8) (clock : Instant) (s : Store D) :
    AtomicUpToRetry env org pipeline payload clock s ↔
      ∀ result, pipeline.analyzeIso env.hash payload clock = .ok result →
        Known env org result s ∨ OnlyMessage org result s := by
  constructor
  · intro h result hresult
    by_contra hno
    rw [not_or] at hno
    obtain ⟨hk, honly⟩ := hno
    have hcall : (analyzeIsoMessage env org pipeline payload clock).run s =
        (persistAnalysis env org result clock).run s := analyzeIsoMessage_ok hresult
    obtain ⟨tail, htail⟩ : ∃ tail, ((persistAnalysis env org result clock).run s).commits =
        recorded env org result s :: tail := by
      rw [persistAnalysis_new hk]
      exact ⟨_, rfl⟩
    have hgrows : s.accountReports.length < (Exec.final _ s).accountReports.length ∨
        eventCount s < eventCount (Exec.final ((persistAnalysis env org result clock).run s) s) :=
      grows_of_not_onlyMessage (truthy_of_statusReport hresult) hk honly
    have hlen : 1 < ((analyzeIsoMessage env org pipeline payload clock).run s).commits.length := by
      rw [hcall, htail]
      cases tail with
      | nil =>
        simp [Exec.final, htail, recorded, eventCount] at hgrows
      | cons c tail => simp
    have hcrash : (analyzeIsoMessage env org pipeline payload clock).crash 1 s =
        recorded env org result s := by
      simp [Session.crash, hcall, htail]
    -- the retry finds the message and does nothing
    have hretry : ((analyzeIsoMessage env org pipeline payload clock).run
        (recorded env org result s)).final (recorded env org result s) =
          recorded env org result s := by
      have hknown : Known env org result (recorded env org result s) := known_recorded
      obtain ⟨r, hr⟩ := persistAnalysis_known hknown
      rw [analyzeIsoMessage_ok hresult, hr]
      rfl
    rcases h 1 hlen with hsame | hsame
    · rw [hcrash] at hsame
      simpa [recorded] using congrArg (fun s => s.isoMessages.length) hsame
    · have hrecords := hsame clock le_rfl
      rw [hcrash, hretry, hcall] at hrecords
      rcases hgrows with hgrows | hgrows
      · have hlength := congrArg List.length hrecords.accountReports
        simp only [List.length_map, recorded] at hlength
        omega
      · have hlength := congrArg List.length hrecords.lifecycleEvents
        simp only [List.length_map, recorded] at hlength
        unfold eventCount at hgrows
        omega
  · intro h k hk
    left
    cases hresult : pipeline.analyzeIso env.hash payload clock with
    | error e =>
      rw [analyzeIsoMessage_error hresult] at hk
      simp at hk
    | ok result =>
      by_cases hknown : Known env org result s
      · obtain ⟨r, hr⟩ := persistAnalysis_known hknown
        rw [analyzeIsoMessage_ok hresult, hr] at hk
        simp at hk
      · rw [analyzeIsoMessage_ok hresult,
          commits_of_onlyMessage hknown ((h result hresult).resolve_left hknown)] at hk
        obtain rfl : k = 0 := by simpa using hk
        exact Session.crash_zero _ _

/-- A status report fails after its row was stored: the retry does nothing. -/
theorem status_lost_on_failure :
    ¬ AtomicUpToRetry mixedEnv "org" mixedPipeline [60] 0 mixedStore := by
  intro h
  have hlen : 1 < ((analyzeIsoMessage mixedEnv "org" mixedPipeline [60] 0).run
      mixedStore).commits.length := by
    decide +kernel
  rcases h 1 hlen with hsame | hsame
  · exact absurd hsame (by decide +kernel)
  · have hevents := (hsame 7 (by decide)).lifecycleEvents
    exact absurd hevents (by decide +kernel)

end

/-! ## A second submission -/

/-- The two stores have the same rows. -/
structure SameContents (s t : Store D) : Prop where
  isoMessages : ∀ r, r ∈ s.isoMessages ↔ r ∈ t.isoMessages
  lifecycles : ∀ r, r ∈ s.lifecycles ↔ r ∈ t.lifecycles
  lifecycleEvents : ∀ r, r ∈ s.lifecycleEvents ↔ r ∈ t.lifecycleEvents
  accountEntries : ∀ r, r ∈ s.accountEntries ↔ r ∈ t.accountEntries
  cases : ∀ r, r ∈ s.cases ↔ r ∈ t.cases

theorem SameContents.refl (s : Store D) : SameContents s s :=
  ⟨fun _ => Iff.rfl, fun _ => Iff.rfl, fun _ => Iff.rfl, fun _ => Iff.rfl, fun _ => Iff.rfl⟩

/-- Payments that were received at different times have different hashes. -/
theorem messageHash_ne (hinj : env.hash.Injective) {t₁ t₂ : Instant} {root : Xml.Element}
    {registered : Iso.RegisteredMessage} {message : PaymentMessage}
    {result₁ result₂ : IsoAnalysisResult D}
    (hparse : pipeline.parseIso payload t₂ = .ok (root, registered, .payment message))
    (h₁ : pipeline.analyzeIso env.hash payload t₁ = .ok result₁)
    (h₂ : pipeline.analyzeIso env.hash payload t₂ = .ok result₂) (hne : t₁ ≠ t₂) :
    env.hash.message (messageKey result₁) ≠ env.hash.message (messageKey result₂) := by
  rw [AnalysisPipeline.analyzeIso_of_parse (AnalysisPipeline.parseIso_clock hparse t₁)] at h₁
  rw [AnalysisPipeline.analyzeIso_of_parse hparse] at h₂
  have hinput₁ := (AnalysisPipeline.paymentResult h₁).inputHash
  have hinput₂ := (AnalysisPipeline.paymentResult h₂).inputHash
  intro h
  have hkey : result₁.inputHash = result₂.inputHash :=
    congrArg MessageKey.hash (hinj.message h)
  rw [hinput₁, hinput₂] at hkey
  have hmessage := hinj.input hkey
  have hreceived : t₁ = message.receivedAt := by
    injection hmessage with hmessage
    exact congrArg PaymentMessage.receivedAt hmessage
  exact hne (hreceived.trans (AnalysisPipeline.receivedAt_of_parse hparse))

section

variable [DecidableEq D]

/-- A submission at `t₂` adds nothing to what one at `t₁` left. -/
def Idempotent (env : Env D) (org : String) (pipeline : AnalysisPipeline) (payload : List UInt8)
    (t₁ t₂ : Instant) (s : Store D) : Prop :=
  let first := ((analyzeIsoMessage env org pipeline payload t₁).run s).final s
  SameContents (((analyzeIsoMessage env org pipeline payload t₂).run first).final first) first

/-- A second submission changes nothing exactly when it is rejected, or is no payment, or falls on
the instant of the first one, or finds that the store had its message before either. -/
theorem idempotent_iff (env : Env D) (hinj : env.hash.Injective) (org : String)
    (pipeline : AnalysisPipeline) (payload : List UInt8) (t₁ t₂ : Instant) (s : Store D) :
    Idempotent env org pipeline payload t₁ t₂ s ↔
      ∀ root registered message result,
        pipeline.parseIso payload t₂ = .ok (root, registered, .payment message) →
        pipeline.analyzeIso env.hash payload t₂ = .ok result →
        t₁ = t₂ ∨ Known env org result s := by
  constructor
  · intro h root registered message result hparse hresult
    by_contra hno
    rw [not_or] at hno
    obtain ⟨hne, hk⟩ := hno
    -- the first submission does not make the second one known
    have hk' : ¬ Known env org result
        (((analyzeIsoMessage env org pipeline payload t₁).run s).final s) := by
      rintro ⟨r, hr, hash⟩
      cases h₁ : pipeline.analyzeIso env.hash payload t₁ with
      | error e =>
        rw [analyzeIsoMessage_error h₁] at hr
        exact hk ⟨r, hr, hash⟩
      | ok result₁ =>
        rw [isoMessages_final h₁] at hr
        split_ifs at hr with hk₁
        · exact hk ⟨r, hr, hash⟩
        · rcases List.mem_append.mp hr with hr | hr
          · exact hk ⟨r, hr, hash⟩
          · obtain rfl := List.mem_singleton.mp hr
            apply messageHash_ne hinj hparse h₁ hresult hne
            simpa [hasHash, isoMessageRow] using hash
    apply hk'
    refine ⟨isoMessageRow org result (env.hash.message (messageKey result)),
      (h.isoMessages _).mp ?_, by simp [hasHash, isoMessageRow]⟩
    rw [isoMessages_final hresult, if_neg hk']
    exact List.mem_append_right _ List.mem_cons_self
  · intro h
    cases hresult : pipeline.analyzeIso env.hash payload t₂ with
    | error e =>
      unfold Idempotent
      dsimp only
      rw [analyzeIsoMessage_error hresult]
      exact SameContents.refl _
    | ok result =>
      have hknown : Known env org result
          (((analyzeIsoMessage env org pipeline payload t₁).run s).final s) := by
        obtain ⟨root, registered, artifact, hparse, -⟩ := AnalysisPipeline.analyzeIso_ok hresult
        by_cases hpay : ∃ message, artifact = .payment message
        · obtain ⟨message, rfl⟩ := hpay
          rcases h root registered message result hparse hresult with rfl | hk
          · exact known_final hresult
          · refine hk.mono ?_
            cases h₁ : pipeline.analyzeIso env.hash payload t₁ with
            | error e =>
              rw [analyzeIsoMessage_error h₁]
              exact List.Subset.refl _
            | ok result₁ =>
              rw [isoMessages_final h₁]
              split_ifs
              · exact List.Subset.refl _
              · exact List.subset_append_left _ _
        · have hclock : pipeline.analyzeIso env.hash payload t₁ =
              pipeline.analyzeIso env.hash payload t₂ :=
            AnalysisPipeline.analyzeIso_clock hparse (fun message hm => hpay ⟨message, hm⟩) t₁
          exact known_final (hclock.trans hresult)
      obtain ⟨r, hr⟩ := persistAnalysis_known hknown
      unfold Idempotent
      dsimp only
      rw [analyzeIsoMessage_ok hresult, hr]
      exact SameContents.refl _

theorem idempotent_iff_sample :
    Idempotent mixedEnv "org" (samplePipeline Repair.sampleTree) [60] 0 1 {} ↔
      ∀ root registered message result,
        (samplePipeline Repair.sampleTree).parseIso [60] 1 =
          .ok (root, registered, .payment message) →
        (samplePipeline Repair.sampleTree).analyzeIso Hashing.structural [60] 1 = .ok result →
        (0 : Instant) = 1 ∨ Known mixedEnv "org" result {} :=
  idempotent_iff mixedEnv Hashing.structural_injective "org" (samplePipeline Repair.sampleTree)
    [60] 0 1 {}

/-- The store once a pacs.008 is submitted. -/
def submitted (clock : Instant) (s : Store Digest) : Store Digest :=
  ((analyzeIsoMessage mixedEnv "org" (samplePipeline Repair.sampleTree) [60] clock).run s).final s

/-- The same pacs.008 a moment later is another message. -/
theorem payment_ingested_twice :
    ¬ Idempotent mixedEnv "org" (samplePipeline Repair.sampleTree) [60] 0 1 {} := by
  intro h
  have hnew : ∃ r, r ∈ (submitted 1 (submitted 0 {})).isoMessages ∧
      r ∉ (submitted 0 {}).isoMessages := by
    decide +kernel
  obtain ⟨r, hr, hnot⟩ := hnew
  exact hnot ((h.isoMessages r).mp hr)

end

end IsoAnalysis

end PaymentOps
