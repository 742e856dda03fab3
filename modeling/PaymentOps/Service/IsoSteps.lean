import PaymentOps.Analysis.Parsing
import PaymentOps.Service.IsoAnalysis

/-!
# The steps of the ISO analysis service

What each iteration over the transactions of a message commits, and what the call as a whole
commits.

* `statusStep_some`, `paymentStep_some`, `paymentStep_none`: one transaction;
* `persistAnalysis_known`, `persistAnalysis_new`: one message;
* `commits_payment`, `commits_status`, `commits_account`: what each kind of message commits;
* `transactionSteps` are the iterations over the transactions of a message.
-/

namespace PaymentOps.IsoAnalysis

open Text Lifecycle

variable {D : Type} {env : Env D} {org : String} {result : IsoAnalysisResult D} {isoId : ℕ}
  {messageHash : D} {clock : Instant} {c : Correlation} {data : CorrelationProfile} {s : Store D}

/-! ## Lookups -/

theorem findLifecycle_some {p : CorrelationProfile} {id : ℕ} {row : PaymentLifecycleRow}
    (h : findLifecycle env org p s = some (id, row)) :
    s.lifecycles[id]? = some row ∧ lookup org p row :=
  RowOrder.first_some h

theorem findLifecycle_eq_none {p : CorrelationProfile} :
    findLifecycle env org p s = none ↔ ∀ row ∈ s.lifecycles, ¬ lookup org p row :=
  RowOrder.first_eq_none

/-- A lifecycle without its status. -/
def stripped (l : PaymentLifecycleRow) : PaymentLifecycleRow := { l with currentStatus := "" }

/-- The store has these lifecycles, apart from their statuses. -/
def HasLifecycles (known : List PaymentLifecycleRow) (t : Store D) : Prop :=
  t.lifecycles.map stripped = known.map stripped

/-- The row under a key differs in its status only. -/
theorem HasLifecycles.row {known : List PaymentLifecycleRow} {t : Store D}
    (h : HasLifecycles known t) {key : ℕ} {row : PaymentLifecycleRow}
    (hrow : t.lifecycles[key]? = some row) :
    ∃ row', known[key]? = some row' ∧ stripped row' = stripped row := by
  have hmap := congrArg (·[key]?) h
  simp only [List.getElem?_map, hrow, Option.map_some] at hmap
  exact Option.map_eq_some_iff.mp hmap.symm

theorem HasLifecycles.known {known : List PaymentLifecycleRow} {t : Store D}
    (h : HasLifecycles known t) {key : ℕ} {row : PaymentLifecycleRow}
    (hrow : known[key]? = some row) :
    ∃ row', t.lifecycles[key]? = some row' ∧ stripped row' = stripped row := by
  have hmap := congrArg (·[key]?) h
  simp only [List.getElem?_map, hrow, Option.map_some] at hmap
  exact Option.map_eq_some_iff.mp hmap

theorem lookup_stripped (org : String) (p : CorrelationProfile) (l : PaymentLifecycleRow) :
    lookup org p (stripped l) = lookup org p l := rfl

theorem lookup_of_stripped {p : CorrelationProfile} {l l' : PaymentLifecycleRow}
    (h : stripped l' = stripped l) : lookup org p l' = lookup org p l := by
  rw [← lookup_stripped, h, lookup_stripped]

theorem stripped_setStatus (status : Option String) (l : PaymentLifecycleRow) :
    stripped (setStatus status l) = stripped l := by
  unfold setStatus
  split_ifs <;> rfl

/-! ## One transaction -/

/-- The store with an event on a lifecycle. -/
def withEvent (org : String) (result : IsoAnalysisResult D) (isoId : ℕ) (messageHash : D)
    (lifecycleId : ℕ) (evidence : List String) (s : Store D) : Store D :=
  { s with
    lifecycleEvents :=
      s.lifecycleEvents ++ [eventRow org result isoId messageHash lifecycleId evidence] }

/-- The store with the status of the message on a lifecycle. -/
def withStatus (result : IsoAnalysisResult D) (lifecycleId : ℕ) (s : Store D) : Store D :=
  { s with lifecycles := s.lifecycles.modify lifecycleId (setStatus result.normalizedStatus) }

/-- The store with a new lifecycle. -/
def withLifecycle (row : PaymentLifecycleRow) (s : Store D) : Store D :=
  { s with lifecycles := s.lifecycles ++ [row] }

theorem statusStep_none (h : findLifecycle env org (profileFromDict data) s = none) :
    (statusStep env org result isoId messageHash c data).run s =
      ⟨[], .ok { c with status := some "UNRESOLVED" }⟩ := by
  simp [statusStep, h]

theorem statusStep_some {id : ℕ} {row : PaymentLifecycleRow}
    (h : findLifecycle env org (profileFromDict data) s = some (id, row))
    (hn : truthy result.normalizedStatus) :
    (statusStep env org result isoId messageHash c data).run s =
      let c' := correlationWith env.unicode (profileFromDict data) id row
      let s' := withEvent org result isoId messageHash id c'.evidence s
      ⟨[s', withStatus result id s'], .ok c'⟩ := by
  simp only [statusStep, Session.read_bind, h, Store.addEvent, Store.updateLifecycle,
    Session.commit_bind, hn, if_true]
  rfl

/-- A transaction of a status report: either no lifecycle is found and nothing happens, or the
lifecycle gets an event and the status of the message. -/
theorem statusStep_cases (env : Env D) (hn : truthy result.normalizedStatus) (isoId : ℕ)
    (messageHash : D) (c : Correlation) (data : CorrelationProfile) (s : Store D) :
    ∃ c' e, (statusStep env org result isoId messageHash c data).run s = e ∧ e.outcome = .ok c' ∧
      ((findLifecycle env org (profileFromDict data) s = none ∧ e.commits = [] ∧ e.final s = s) ∨
        ∃ id row evidence, findLifecycle env org (profileFromDict data) s = some (id, row) ∧
          e.commits = [withEvent org result isoId messageHash id evidence s, e.final s] ∧
          e.final s =
            withStatus result id (withEvent org result isoId messageHash id evidence s)) := by
  cases hf : findLifecycle env org (profileFromDict data) s with
  | none => exact ⟨_, _, statusStep_none hf, rfl, .inl ⟨rfl, rfl, rfl⟩⟩
  | some found =>
    obtain ⟨id, row⟩ := found
    exact ⟨_, _, statusStep_some hf hn, rfl, .inr ⟨id, row, _, rfl, rfl, rfl⟩⟩

theorem paymentStep_none (h : findLifecycle env org (profileFromDict data) s = none) :
    ∃ c' s', s' = withLifecycle (newLifecycle org (profileFromDict data) clock) s ∧
      (paymentStep env org result isoId messageHash clock c data).run s =
        ⟨[s', withEvent org result isoId messageHash s.lifecycles.length [] s'], .ok c'⟩ ∧
      c'.lifecycleId = some s.lifecycles.length := by
  simp only [paymentStep, Session.read_bind, h, Store.addLifecycle]
  rw [Session.transact_bind rfl]
  exact ⟨_, _, rfl, rfl, rfl⟩

theorem paymentStep_some {id : ℕ} {row : PaymentLifecycleRow}
    (h : findLifecycle env org (profileFromDict data) s = some (id, row)) :
    (paymentStep env org result isoId messageHash clock c data).run s =
      let c' := correlationWith env.unicode (profileFromDict data) id row
      ⟨[withEvent org result isoId messageHash id c'.evidence s], .ok c'⟩ := by
  simp only [paymentStep, Session.read_bind, h]
  rfl

/-- A transaction of a payment: either it opens a lifecycle, or the lifecycle that it finds gets an
event. -/
theorem paymentStep_cases (env : Env D) (org : String) (result : IsoAnalysisResult D) (isoId : ℕ)
    (messageHash : D) (clock : Instant) (c : Correlation) (data : CorrelationProfile)
    (s : Store D) :
    ∃ c' e, (paymentStep env org result isoId messageHash clock c data).run s = e ∧
      e.outcome = .ok c' ∧ c'.lifecycleId.isSome ∧
      ((findLifecycle env org (profileFromDict data) s = none ∧
          e.commits =
            [withLifecycle (newLifecycle org (profileFromDict data) clock) s, e.final s] ∧
          e.final s = withEvent org result isoId messageHash s.lifecycles.length []
            (withLifecycle (newLifecycle org (profileFromDict data) clock) s)) ∨
        ∃ id row evidence, findLifecycle env org (profileFromDict data) s = some (id, row) ∧
          e.commits = [e.final s] ∧
          e.final s = withEvent org result isoId messageHash id evidence s) := by
  cases hf : findLifecycle env org (profileFromDict data) s with
  | none =>
    obtain ⟨c', s', rfl, he, hid⟩ := paymentStep_none hf
    exact ⟨c', _, he, rfl, by rw [hid]; rfl, .inl ⟨rfl, rfl, rfl⟩⟩
  | some found =>
    obtain ⟨id, row⟩ := found
    exact ⟨_, _, paymentStep_some hf, rfl, rfl, .inr ⟨id, row, _, rfl, rfl, rfl⟩⟩

theorem HasLifecycles.withLifecycle {known : List PaymentLifecycleRow} {t : Store D}
    (h : HasLifecycles known t) (row : PaymentLifecycleRow) :
    HasLifecycles (known ++ [row]) (withLifecycle row t) := by
  unfold HasLifecycles at h ⊢
  rw [IsoAnalysis.withLifecycle, List.map_append, List.map_append, h]

theorem HasLifecycles.withStatus {known : List PaymentLifecycleRow} {t : Store D}
    (h : HasLifecycles known t) (id : ℕ) :
    HasLifecycles known (withStatus result id t) := by
  refine Eq.trans (List.ext_getElem? ?_) h
  intro i
  simp only [IsoAnalysis.withStatus, List.getElem?_map, List.getElem?_modify]
  cases t.lifecycles[i]? with
  | none => rfl
  | some l =>
    by_cases hi : id = i
    · simp [hi, stripped_setStatus]
    · simp [hi]

/-- The transactions of a message keep what an event, a status on a lifecycle and the lifecycle of a
transaction of a payment keep. -/
theorem correlateAndBuildLifecycle_invariant {I : Store D → Prop}
    (hevents : ∀ s rows, I s → I { s with lifecycleEvents := rows })
    (hstatus : ∀ s id, I s → I (withStatus result id s))
    (hopen : isStatusReport result = false → ∀ data ∈ result.correlationProfiles, ∀ s, I s →
      I (withLifecycle (newLifecycle org (profileFromDict data) clock) s))
    (env : Env D) (isoId : ℕ) (messageHash : D) :
    Session.Keeps I (correlateAndBuildLifecycle env org result isoId messageHash clock) := by
  have hevent : ∀ row, Session.Keeps I (Store.addEvent row : Service D Unit) :=
    fun row => .commit fun s hs => hevents s _ hs
  have hupdate : ∀ id, Session.Keeps I
      (Store.updateLifecycle id (setStatus result.normalizedStatus) : Service D Unit) :=
    fun id => .commit fun s hs => hstatus s id hs
  unfold correlateAndBuildLifecycle
  cases hreport : isStatusReport result with
  | true =>
    refine .fold (fun c data _ => .bind (.read _) fun found => ?_) _
    cases found with
    | none => exact .pure _
    | some f =>
      exact .bind (hevent _) fun _ => .ite (.bind (hupdate _) fun _ => .pure _) (.pure _)
  | false =>
    refine .bind (.fold (fun c data hdata => .bind (.read _) fun found => ?_) _) fun c =>
      .bind ?_ fun _ => .pure _
    · cases found with
      | none =>
        refine .bind (.transact fun s a s' hs h => ?_) fun _ => .bind (hevent _) fun _ => .pure _
        cases h
        exact hopen hreport data hdata s hs
      | some f => exact .bind (hevent _) fun _ => .pure _
    · unfold updateLifecycleStatus
      cases c.lifecycleId with
      | none => exact .pure _
      | some id => exact hupdate id

/-- Correlation touches the lifecycles and their events only. -/
theorem correlateAndBuildLifecycle_leaves {γ : Type} {g : Store D → γ}
    (hl : ∀ s rows, g { s with lifecycles := rows } = g s)
    (he : ∀ s rows, g { s with lifecycleEvents := rows } = g s)
    (env : Env D) (org : String) (result : IsoAnalysisResult D) (isoId : ℕ) (messageHash : D)
    (clock : Instant) :
    Session.Leaves g (correlateAndBuildLifecycle env org result isoId messageHash clock) := by
  refine .of_keeps fun v => ?_
  apply correlateAndBuildLifecycle_invariant
  · exact fun s rows hs => (he s rows).trans hs
  · exact fun s id hs => (hl s _).trans hs
  · exact fun _ data _ s hs => (hl s _).trans hs

/-- A message keeps what its row keeps, and either its transactions or its account reports. -/
theorem analyzeIsoMessage_invariant [DecidableEq D] {I : Store D → Prop}
    {pipeline : AnalysisPipeline} {payload : List UInt8}
    (hmessages : ∀ s rows, I s → I { s with isoMessages := rows })
    (hcorrelate : ∀ result, pipeline.analyzeIso env.hash payload clock = .ok result →
      ∀ isoId messageHash, Session.Keeps I
        (correlateAndBuildLifecycle env org result isoId messageHash clock))
    (hingest : ∀ reports iso, Session.Keeps I
      (AccountService.ingestAccountReport env org reports iso)) :
    Session.Keeps I (analyzeIsoMessage env org pipeline payload clock) := by
  have hpersist : ∀ result, pipeline.analyzeIso env.hash payload clock = .ok result →
      Session.Keeps I (persistAnalysis env org result clock) := by
    intro result hresult
    refine .bind (.read _) fun found => ?_
    rcases found with _ | ⟨isoId, row⟩
    · refine .bind (.transact fun s a s' hs h => ?_) fun isoId => .ite ?_ ?_
      · cases h
        exact hmessages s _ hs
      · exact .bind (hcorrelate result hresult isoId _) fun _ => .pure _
      · exact .bind (hingest _ _) fun _ => .pure _
    · exact .bind (.read _) fun _ => .pure _
  intro s hs
  cases hresult : pipeline.analyzeIso env.hash payload clock with
  | error e =>
    rw [analyzeIsoMessage, hresult, Session.ofExcept_error_bind]
    exact ⟨by simp, by simp⟩
  | ok result =>
    rw [analyzeIsoMessage, hresult, Session.ofExcept_ok_bind]
    exact hpersist result hresult s hs

/-- The body of the loop over the transactions. -/
def transactionStep (env : Env D) (org : String) (result : IsoAnalysisResult D) (isoId : ℕ)
    (messageHash : D) (clock : Instant) :
    Correlation → CorrelationProfile → Service D Correlation :=
  if isStatusReport result then statusStep env org result isoId messageHash
  else paymentStep env org result isoId messageHash clock

/-! ## Kinds of messages -/

/-- The result of analyzing a status report, as far as the service reads it. -/
structure Summarizes (result : IsoAnalysisResult D) (report : LifecycleStatusReport) : Prop where
  statusReport : isStatusReport result
  reports : result.accountReports = []
  profiles : result.correlationProfiles = profileFromStatusReport report
  first : ∀ tx txs, report.transactionStatuses = tx :: txs →
    result.normalizedStatus = some tx.normalizedStatus.value
  normalized : ∃ status : PaymentStatus, result.normalizedStatus = some status.value

theorem Summarizes.truthy {report : LifecycleStatusReport} (h : Summarizes result report) :
    truthy result.normalizedStatus := by
  obtain ⟨status, hstatus⟩ := h.normalized
  rw [hstatus]
  exact status.truthy_value

section

variable {pipeline : AnalysisPipeline} {payload : List UInt8} {root : Xml.Element}
  {registered : Iso.RegisteredMessage} {hash : Hashing D}

theorem result_of_status {report : LifecycleStatusReport}
    (hparse : pipeline.parseIso payload clock = .ok (root, registered, .status report))
    (hresult : pipeline.analyzeIso hash payload clock = .ok result) :
    Summarizes result report := by
  rw [AnalysisPipeline.analyzeIso_of_parse hparse] at hresult
  obtain rfl := Except.ok.inj hresult
  have hversion : isStatusReport (AnalysisPipeline.isoStatusResult hash registered
      (pipeline.generator.xmlLibrary.validate registered.version.identifier root) report) := by
    show startsWith "pacs.002" registered.version.identifier
    rw [AnalysisPipeline.version_of_status hparse]
    decide +kernel
  refine ⟨hversion, rfl, rfl, fun tx txs htx => ?_, ?_⟩
  · simp only [AnalysisPipeline.isoStatusResult, htx]
  · cases htx : report.transactionStatuses with
    | nil => exact ⟨report.groupStatus, by simp only [AnalysisPipeline.isoStatusResult, htx]⟩
    | cons tx txs =>
      exact ⟨tx.normalizedStatus, by simp only [AnalysisPipeline.isoStatusResult, htx]⟩

theorem result_of_payment {message : PaymentMessage}
    (hparse : pipeline.parseIso payload clock = .ok (root, registered, .payment message))
    (hresult : pipeline.analyzeIso hash payload clock = .ok result) :
    isStatusReport result = false ∧ result.normalizedStatus = none ∧ result.accountReports = [] ∧
      result.correlationProfiles = profileFromMessage message := by
  rw [AnalysisPipeline.analyzeIso_of_parse hparse] at hresult
  have h := AnalysisPipeline.paymentResult hresult
  refine ⟨?_, h.normalizedStatus, h.accountReports, h.correlationProfiles⟩
  rw [isStatusReport, h.messageVersion, AnalysisPipeline.version_of_other hparse (by simp)]

/-- Every result is that of a payment, of a status report or of an account report. -/
theorem result_cases (hresult : pipeline.analyzeIso hash payload clock = .ok result) :
    (∃ root registered message,
        pipeline.parseIso payload clock = .ok (root, registered, .payment message) ∧
        isStatusReport result = false ∧ result.normalizedStatus = none ∧
        result.accountReports = [] ∧ result.correlationProfiles = profileFromMessage message) ∨
      (∃ root registered report,
        pipeline.parseIso payload clock = .ok (root, registered, .status report) ∧
        Summarizes result report) ∨
      ∃ root registered bundle,
        pipeline.parseIso payload clock = .ok (root, registered, .account bundle) ∧
        isStatusReport result = false ∧ result.correlationProfiles = [] := by
  obtain ⟨root, registered, artifact, hparse, hres⟩ := AnalysisPipeline.analyzeIso_ok hresult
  cases artifact with
  | payment message =>
    exact .inl ⟨root, registered, message, hparse, result_of_payment hparse hresult⟩
  | status report =>
    exact .inr (.inl ⟨root, registered, report, hparse, result_of_status hparse hresult⟩)
  | account bundle =>
    have hversion := AnalysisPipeline.version_of_other hparse (by simp)
    have hres' : AnalysisPipeline.isoAccountResult pipeline hash registered
        (pipeline.generator.xmlLibrary.validate registered.version.identifier root) bundle =
          .ok result := hres
    unfold AnalysisPipeline.isoAccountResult at hres'
    split_ifs at hres'
    obtain rfl := Except.ok.inj hres'
    exact .inr (.inr ⟨root, registered, bundle, hparse, hversion, rfl⟩)

/-- A status report has a status. -/
theorem truthy_of_statusReport (hresult : pipeline.analyzeIso hash payload clock = .ok result)
    (hs : isStatusReport result) : truthy result.normalizedStatus := by
  rcases result_cases hresult with ⟨_, _, _, -, h, -⟩ | ⟨_, _, report, -, h⟩ | ⟨_, _, _, -, h, -⟩
  · rw [h] at hs
    cases hs
  · exact h.truthy
  · rw [h] at hs
    cases hs

end

/-! ## One message -/

section

variable [DecidableEq D]

/-- The message was persisted before. -/
def Known (env : Env D) (org : String) (result : IsoAnalysisResult D) (s : Store D) : Prop :=
  ∃ r ∈ s.isoMessages, hasHash org (env.hash.message (messageKey result)) r

instance : Decidable (Known env org result s) := inferInstanceAs (Decidable (∃ r ∈ _, _))

theorem findByHash_eq_none :
    findByHash env org (env.hash.message (messageKey result)) s = none ↔
      ¬ Known env org result s := by
  rw [findByHash, RowOrder.first_eq_none]
  unfold Known
  push Not
  rfl

/-- The store with the message. -/
def recorded (env : Env D) (org : String) (result : IsoAnalysisResult D) (s : Store D) : Store D :=
  let row := isoMessageRow org result (env.hash.message (messageKey result))
  { s with isoMessages := s.isoMessages ++ [row] }

theorem known_recorded : Known env org result (recorded env org result s) :=
  ⟨_, List.mem_append_right _ List.mem_cons_self, by simp [hasHash, isoMessageRow]⟩

theorem Known.mono {t : Store D} (h : Known env org result s)
    (hsub : s.isoMessages ⊆ t.isoMessages) : Known env org result t := by
  obtain ⟨r, hr, hash⟩ := h
  exact ⟨r, hsub hr, hash⟩

/-- What the service does once the message is persisted. -/
def afterRecord (env : Env D) (org : String) (result : IsoAnalysisResult D) (isoId : ℕ)
    (clock : Instant) : Service D (IsoAnalysisResult D) :=
  let messageHash := env.hash.message (messageKey result)
  if result.accountReports.isEmpty then do
    let c ← correlateAndBuildLifecycle env org result isoId messageHash clock
    pure (withCorrelation result c)
  else do
    AccountService.ingestAccountReport env org result.accountReports (some isoId)
    let status := accountCorrelationStatus result.accountReports
    pure { result with correlationStatus := some status }

/-- A message that was persisted before changes nothing. -/
theorem persistAnalysis_known (h : Known env org result s) :
    ∃ r, (persistAnalysis env org result clock).run s = ⟨[], .ok r⟩ := by
  cases hf : findByHash env org (env.hash.message (messageKey result)) s with
  | none => exact absurd h (findByHash_eq_none.mp hf)
  | some found => exact ⟨_, by simp only [persistAnalysis, Session.read_bind, hf]; rfl⟩

theorem persistAnalysis_new (h : ¬ Known env org result s) :
    (persistAnalysis env org result clock).run s =
      let e := (afterRecord env org result s.isoMessages.length clock).run
        (recorded env org result s)
      ⟨recorded env org result s :: e.commits, e.outcome⟩ := by
  have hf := findByHash_eq_none.mpr h
  simp only [persistAnalysis, Session.read_bind, hf, persistIsoMessage]
  rw [Session.transact_bind rfl]
  rfl

/-- A new status report: its row, then its transactions. -/
theorem commits_status (h : ¬ Known env org result s) (hr : result.accountReports = [])
    (hs : isStatusReport result) :
    ((persistAnalysis env org result clock).run s).commits =
      recorded env org result s ::
        ((Session.fold (statusStep env org result s.isoMessages.length
          (env.hash.message (messageKey result))) {} result.correlationProfiles).run
            (recorded env org result s)).commits := by
  rw [persistAnalysis_new h]
  simp only [afterRecord, hr, List.isEmpty_nil, if_true, correlateAndBuildLifecycle, hs,
    Session.bind_pure_commits]

/-- A new payment: its row, then its transactions, then one more commit on the last lifecycle. -/
theorem commits_payment (h : ¬ Known env org result s) (hr : result.accountReports = [])
    (hs : isStatusReport result = false) :
    ((persistAnalysis env org result clock).run s).commits =
      recorded env org result s ::
        ((Session.fold (paymentStep env org result s.isoMessages.length
          (env.hash.message (messageKey result)) clock) {} result.correlationProfiles >>= fun c =>
            updateLifecycleStatus result c >>= fun _ => pure c).run
              (recorded env org result s)).commits := by
  rw [persistAnalysis_new h]
  simp only [afterRecord, hr, List.isEmpty_nil, if_true, correlateAndBuildLifecycle, hs,
    Session.bind_pure_commits, Bool.false_eq_true, if_false]

/-- A new account report: its row, then its reports. -/
theorem commits_account (h : ¬ Known env org result s) (hr : result.accountReports ≠ []) :
    ((persistAnalysis env org result clock).run s).commits =
      recorded env org result s ::
        ((AccountService.ingestAccountReport env org result.accountReports
          (some s.isoMessages.length)).run (recorded env org result s)).commits := by
  have hempty : result.accountReports.isEmpty = false := by simpa using hr
  rw [persistAnalysis_new h]
  simp only [afterRecord, hempty, Bool.false_eq_true, if_false, Session.bind_pure_commits]

theorem analyzeIsoMessage_ok {pipeline : AnalysisPipeline} {payload : List UInt8}
    (h : pipeline.analyzeIso env.hash payload clock = .ok result) :
    (analyzeIsoMessage env org pipeline payload clock).run s =
      (persistAnalysis env org result clock).run s := by
  rw [analyzeIsoMessage, h, Session.ofExcept_ok_bind]

theorem analyzeIsoMessage_error {pipeline : AnalysisPipeline} {payload : List UInt8}
    {e : ServiceError} (h : pipeline.analyzeIso env.hash payload clock = .error e) :
    (analyzeIsoMessage env org pipeline payload clock).run s = ⟨[], .error e⟩ := by
  rw [analyzeIsoMessage, h, Session.ofExcept_error_bind]

/-- The iterations over the transactions of a message, none when the message was persisted before
or is an account report. -/
def transactionSteps (env : Env D) (org : String) (result : IsoAnalysisResult D) (clock : Instant)
    (s : Store D) :
    List (Session.Iteration (Store D) ServiceError CorrelationProfile Correlation) :=
  if Known env org result s then []
  else if result.accountReports.isEmpty then
    Session.iterations
      (transactionStep env org result s.isoMessages.length
        (env.hash.message (messageKey result)) clock)
      {} result.correlationProfiles (recorded env org result s)
  else []

theorem transactionSteps_known (h : Known env org result s) :
    transactionSteps env org result clock s = [] := by
  rw [transactionSteps, if_pos h]

theorem transactionSteps_new (h : ¬ Known env org result s) (hr : result.accountReports = []) :
    transactionSteps env org result clock s =
      Session.iterations
        (transactionStep env org result s.isoMessages.length
          (env.hash.message (messageKey result)) clock)
        {} result.correlationProfiles (recorded env org result s) := by
  rw [transactionSteps, if_neg h, hr, List.isEmpty_nil, if_pos rfl]

end

end PaymentOps.IsoAnalysis
