import PaymentOps.Service.Integrity

/-!
# The history of a status

The current status of a lifecycle is a column of its own, beside the events that explain it.

* `replay` is the status that the events of a lifecycle give to it;
* `Sourced`: every lifecycle has the status that its events give to it;
* `Written`: the same, or the last event is there and its status is not yet;
* `status_history`: every store that a run commits is `Written`, and the one where it ends is
  `Sourced`.
-/

namespace PaymentOps

open AccountService Text Lifecycle

variable {D : Type}

/-- The event of a status report: it has the hash of a message, and its version is a pacs.002. -/
def isStatusEvent (ev : PaymentLifecycleEventRow D) : Bool :=
  ev.sourceHash.isSome && ev.messageVersion.any (startsWith "pacs.002")

/-- The status of the last status report on the lifecycle. -/
def replay (events : List (PaymentLifecycleEventRow D)) (key : ℕ) : String :=
  (((events.filter isStatusEvent).filter (·.lifecycleId = key)).getLast?.map (·.status)).getD
    "UNKNOWN"

/-- The lifecycles have the statuses that the events give to them. -/
structure Replays (events : List (PaymentLifecycleEventRow D))
    (lifecycles : List PaymentLifecycleRow) : Prop where
  known : ∀ ev ∈ events, ev.lifecycleId < lifecycles.length
  status : ∀ key l, lifecycles[key]? = some l → l.currentStatus = replay events key

/-- The statuses are those that the events replay. -/
def Sourced (s : Store D) : Prop := Replays s.lifecycleEvents s.lifecycles

/-- The statuses are those of the events, or of all of them but the last. -/
def Written (s : Store D) : Prop :=
  Sourced s ∨ ∃ events ev, s.lifecycleEvents = events ++ [ev] ∧ Replays events s.lifecycles

/-! ## Events -/

section

variable {events : List (PaymentLifecycleEventRow D)} {ev : PaymentLifecycleEventRow D} {key : ℕ}

theorem replay_append_of_not {more : List (PaymentLifecycleEventRow D)}
    (h : ∀ ev ∈ more, isStatusEvent ev = false) :
    replay (events ++ more) key = replay events key := by
  have hmore : more.filter isStatusEvent = [] :=
    List.filter_eq_nil_iff.mpr fun ev hev => by simp [h ev hev]
  rw [replay, List.filter_append, hmore, List.append_nil, replay]

theorem replay_append_of_ne (h : ev.lifecycleId ≠ key) :
    replay (events ++ [ev]) key = replay events key := by
  have hev : ([ev].filter isStatusEvent).filter (·.lifecycleId = key) = [] := by
    cases hstatus : isStatusEvent ev <;> simp [hstatus, h]
  rw [replay, List.filter_append, List.filter_append, hev, List.append_nil, replay]

theorem replay_append_self (h : isStatusEvent ev) :
    replay (events ++ [ev]) ev.lifecycleId = ev.status := by
  simp [replay, h]

theorem replay_of_unknown (h : ∀ ev ∈ events, ev.lifecycleId < key) :
    replay events key = "UNKNOWN" := by
  have hnone : (events.filter isStatusEvent).filter (·.lifecycleId = key) = [] := by
    apply List.filter_eq_nil_iff.mpr
    intro ev hev
    have hlt := h ev (List.mem_filter.mp hev).1
    simp only [decide_eq_true_eq]
    omega
  rw [replay, hnone]
  rfl

end

namespace Replays

variable {events : List (PaymentLifecycleEventRow D)} {lifecycles : List PaymentLifecycleRow}

/-- Events of other messages change no status. -/
theorem append (h : Replays events lifecycles) {more : List (PaymentLifecycleEventRow D)}
    (hmore : ∀ ev ∈ more, isStatusEvent ev = false)
    (hknown : ∀ ev ∈ more, ev.lifecycleId < lifecycles.length) :
    Replays (events ++ more) lifecycles where
  known ev hev := (List.mem_append.mp hev).elim (h.known ev) (hknown ev)
  status key l hl := by
    rw [replay_append_of_not hmore]
    exact h.status key l hl

/-- A new lifecycle has no events. -/
theorem append_lifecycle (h : Replays events lifecycles) {row : PaymentLifecycleRow}
    (hrow : row.currentStatus = "UNKNOWN") : Replays events (lifecycles ++ [row]) where
  known ev hev := by
    have hlt := h.known ev hev
    rw [List.length_append]
    omega
  status key l hl := by
    rcases Nat.lt_or_ge key lifecycles.length with hlt | hge
    · rw [List.getElem?_append_left hlt] at hl
      exact h.status key l hl
    · rw [List.getElem?_append_right hge] at hl
      have hkey : key - lifecycles.length = 0 := by
        have hlt := (List.getElem?_eq_some_iff.mp hl).1
        simpa using hlt
      rw [hkey] at hl
      obtain rfl : row = l := Option.some.inj hl
      rw [hrow, replay_of_unknown fun ev hev => Nat.lt_of_lt_of_le (h.known ev hev) hge]

/-- A status report leaves its event, and its status on the lifecycle. -/
theorem append_status (h : Replays events lifecycles) {ev : PaymentLifecycleEventRow D}
    (hev : isStatusEvent ev) (hlt : ev.lifecycleId < lifecycles.length)
    {f : PaymentLifecycleRow → PaymentLifecycleRow} (hf : ∀ l, (f l).currentStatus = ev.status) :
    Replays (events ++ [ev]) (lifecycles.modify ev.lifecycleId f) where
  known ev' hev' := by
    rw [List.length_modify]
    rcases List.mem_append.mp hev' with hev' | hev'
    · exact h.known ev' hev'
    · rw [List.mem_singleton.mp hev']
      exact hlt
  status key l hl := by
    rw [List.getElem?_modify] at hl
    obtain ⟨row, hrow, rfl⟩ := Option.map_eq_some_iff.mp hl
    by_cases hkey : ev.lifecycleId = key
    · rw [if_pos hkey, ← hkey, replay_append_self hev]
      exact hf row
    · rw [if_neg hkey, replay_append_of_ne hkey]
      exact h.status key row hrow

end Replays

/-! ## Transactions -/

namespace IsoAnalysis

variable {env : Env D} {org : String} {result : IsoAnalysisResult D} {isoId : ℕ}
  {messageHash : D} {clock : Instant} {I C : Store D → Prop}

/-- A payment has no status to set. -/
theorem updateLifecycleStatus_keeps (hnone : result.normalizedStatus = none) (c : Correlation) :
    Session.Keeps I (updateLifecycleStatus result c : Service D Unit) := by
  unfold updateLifecycleStatus
  cases c.lifecycleId with
  | none => exact .pure _
  | some key =>
    refine .commit fun s hs => ?_
    have hsame : s.lifecycles.modify key (setStatus result.normalizedStatus) = s.lifecycles := by
      rw [hnone]
      exact List.modify_id _ _
    rw [hsame]
    exact hs

/-- What holds again after each transaction holds again after the transactions of a message. -/
theorem correlate_restores
    (hstatus : isStatusReport result → ∀ c data,
      Session.Restores I C (statusStep env org result isoId messageHash c data))
    (hpayment : isStatusReport result = false → ∀ c data,
      Session.Restores I C (paymentStep env org result isoId messageHash clock c data))
    (hsilent : isStatusReport result = false →
      result.normalizedStatus = none ∨ result.correlationProfiles = [])
    (hC : ∀ s, I s → C s) : Session.Restores I C
      (correlateAndBuildLifecycle env org result isoId messageHash clock) := by
  unfold correlateAndBuildLifecycle
  split_ifs with hreport
  · exact .fold (fun c data _ => hstatus hreport c data) _
  · have hreport : isStatusReport result = false := by simpa using hreport
    rcases hsilent hreport with hnone | hprofiles
    · exact .bind (.fold (fun c data _ => hpayment hreport c data) _) fun c =>
        .bind (.of_keeps (updateLifecycleStatus_keeps hnone c) hC) fun _ => .pure _
    · intro s hs
      rw [hprofiles, Session.fold_nil, Session.pure_bind']
      exact ⟨fun c hc => absurd hc List.not_mem_nil, hs⟩

/-- A message that is no status report sets no status. -/
theorem silent_of_result {pipeline : AnalysisPipeline} {payload : List UInt8}
    (hresult : pipeline.analyzeIso env.hash payload clock = .ok result)
    (hreport : isStatusReport result = false) :
    result.normalizedStatus = none ∨ result.correlationProfiles = [] := by
  rcases result_cases hresult with ⟨_, _, _, -, -, hnone, -⟩ | ⟨_, _, _, -, hstatus⟩ |
    ⟨_, _, _, -, -, hprofiles⟩
  · exact .inl hnone
  · exact absurd (hreport.symm.trans hstatus.statusReport) Bool.false_ne_true
  · exact .inr hprofiles

end IsoAnalysis

/-! ## Operations -/

theorem EntryStep.newEvents_event {env : Env D} {st : EntryStep D} :
    ∀ ev ∈ st.newEvents env, ∃ id eventType, ev = st.event id eventType := by
  intro ev hev
  unfold newEvents at hev
  split at hev
  · split_ifs at hev
    · obtain ⟨id, -, rfl⟩ := List.mem_map.mp hev
      exact ⟨id, _, rfl⟩
    · cases hev
  · cases hev
  · exact ⟨_, _, List.mem_singleton.mp hev⟩

/-- What is known where an operation starts. -/
structure Historic (ids : LifecycleIds) (s : Store D) : Prop where
  consistent : s.Consistent ids
  sourced : Sourced s

namespace Historic

variable {ids : LifecycleIds} {s : Store D} {org : String}

/-- What keeps the rows in agreement and restores the statuses. -/
theorem restores {α : Type} {m : Service D α} (hkeeps : Session.Keeps (Store.Consistent ids) m)
    (h : Session.Restores Sourced Written m) : Session.Restores (Historic ids) Written m :=
  fun s hs => ⟨(h s hs.sourced).1, hkeeps.final hs.consistent, (h s hs.sourced).2⟩

/-- What keeps both. -/
theorem restores_of_keeps {α : Type} {m : Service D α} (h : Session.Keeps (Historic ids) m) :
    Session.Restores (Historic ids) Written m :=
  .of_keeps h fun _ hs => .inl hs.sourced

/-- An entry leaves events of its own only. -/
theorem ingestEntry (env : Env D) (org : String) (report : AccountReport) (reportId : ℕ)
    (entry : AccountEntry) :
    Session.Keeps (Historic ids) (AccountService.ingestEntry env org report reportId entry) := by
  refine .of_commits fun s hs c hc => ?_
  set st : EntryStep D := ⟨org, report, reportId, entry, s⟩
  have hstage : EntryStep.Stage env st c := EntryStep.exec_stages env st c hc
  refine ⟨hstage.consistent hs.consistent, ?_⟩
  have hmore : ∀ ev ∈ st.newEvents env, isStatusEvent ev = false ∧
      ev.lifecycleId < s.lifecycles.length := by
    intro ev hev
    refine ⟨?_, ?_⟩
    · obtain ⟨id, eventType, rfl⟩ := EntryStep.newEvents_event ev hev
      rfl
    · have howner := hs.consistent.linked.finalRow (EntryStep.newEvents_linked ev hev).2
      obtain ⟨l, hl, -⟩ := Option.map_eq_some_iff.mp howner
      exact (List.getElem?_eq_some_iff.mp hl).1
  have hsettling : ∀ events, List.Sublist events (st.newEvents env) →
      Replays (s.lifecycleEvents ++ events) s.lifecycles := by
    intro events hsub
    apply Replays.append hs.sourced
    · exact fun ev hev => (hmore ev (hsub.subset hev)).1
    · exact fun ev hev => (hmore ev (hsub.subset hev)).2
  cases hstage with
  | added => exact hs.sourced
  | settling reconciliations events hr he => exact hsettling events he
  | concluded text htext hfree => exact hsettling _ (List.Sublist.refl _)

theorem ingestAccountReport (env : Env D) (org : String) (reports : List AccountReport)
    (iso : Option ℕ) : Session.Keeps (Historic ids)
      (AccountService.ingestAccountReport env org reports iso) := by
  apply ingestAccountReport_invariant
  · exact fun s rows h =>
      ⟨h.consistent.congr rfl rfl rfl rfl (fun _ _ h => h) fun _ hev => .inl hev, h.sourced⟩
  · exact fun s rows h =>
      ⟨h.consistent.congr rfl rfl rfl rfl (fun _ _ h => h) fun _ hev => .inl hev, h.sourced⟩
  · exact ingestEntry env org

section

variable {result : IsoAnalysisResult D} {isoId : ℕ} {messageHash : D} {id : ℕ}
  {evidence : List String}

/-- The event of a message is that of a status report when the message is one. -/
theorem isStatusEvent_eventRow :
    isStatusEvent (IsoAnalysis.eventRow org result isoId messageHash id evidence) =
      IsoAnalysis.isStatusReport result := rfl

theorem status_eventRow (hn : truthy result.normalizedStatus) (l : PaymentLifecycleRow) :
    (IsoAnalysis.setStatus result.normalizedStatus l).currentStatus =
      (IsoAnalysis.eventRow org result isoId messageHash id evidence).status := by
  obtain ⟨status, hstatus, -⟩ := truthy_iff.mp hn
  rw [IsoAnalysis.setStatus, if_pos hn]
  simp only [IsoAnalysis.eventRow, hstatus]
  rw [hstatus] at hn
  simp [Text.or, hn]

theorem withEvent (h : Sourced s) (hreport : IsoAnalysis.isStatusReport result = false)
    (hlt : id < s.lifecycles.length) :
    Sourced (IsoAnalysis.withEvent org result isoId messageHash id evidence s) := by
  apply Replays.append h
  · intro ev hev
    rw [List.mem_singleton.mp hev, isStatusEvent_eventRow]
    exact hreport
  · intro ev hev
    rw [List.mem_singleton.mp hev]
    exact hlt

theorem withStatus (h : Sourced s) (hreport : IsoAnalysis.isStatusReport result = true)
    (hn : truthy result.normalizedStatus) (hlt : id < s.lifecycles.length) :
    Sourced (IsoAnalysis.withStatus result id
      (IsoAnalysis.withEvent org result isoId messageHash id evidence s)) :=
  Replays.append_status h (isStatusEvent_eventRow.trans hreport) hlt (status_eventRow hn)

/-- A transaction of a status report writes its event before its status. -/
theorem statusStep (hreport : IsoAnalysis.isStatusReport result)
    (hn : truthy result.normalizedStatus) (env : Env D) (c : IsoAnalysis.Correlation)
    (data : CorrelationProfile) : Session.Restores Sourced Written
      (IsoAnalysis.statusStep env org result isoId messageHash c data) := by
  intro s hs
  obtain ⟨c', e, rfl, -, ⟨-, hcommits, hfinal⟩ | ⟨id, row, evidence, hfound, hcommits, hfinal⟩⟩ :
      ∃ c' e, (IsoAnalysis.statusStep env org result isoId messageHash c data).run s = e ∧ _ :=
    IsoAnalysis.statusStep_cases env hn isoId messageHash c data s
  · rw [hcommits, hfinal]
    exact ⟨fun c hc => absurd hc List.not_mem_nil, hs⟩
  · obtain ⟨hrow, -⟩ := IsoAnalysis.findLifecycle_some hfound
    have hend : Sourced (IsoAnalysis.withStatus result id
        (IsoAnalysis.withEvent org result isoId messageHash id evidence s)) :=
      withStatus hs hreport hn (List.getElem?_eq_some_iff.mp hrow).1
    rw [hcommits, hfinal]
    refine ⟨fun c hc => ?_, hend⟩
    rcases List.mem_pair.mp hc with rfl | rfl
    · exact .inr ⟨_, _, rfl, hs⟩
    · exact .inl hend

theorem paymentStep (hreport : IsoAnalysis.isStatusReport result = false) (env : Env D)
    (clock : Instant) (c : IsoAnalysis.Correlation) (data : CorrelationProfile) :
    Session.Keeps Sourced
      (IsoAnalysis.paymentStep env org result isoId messageHash clock c data) := by
  refine .of_commits fun s hs t ht => ?_
  obtain ⟨c', e, rfl, -, -, ⟨-, hcommits, hfinal⟩ | ⟨id, row, evidence, hfound, hcommits,
      hfinal⟩⟩ := IsoAnalysis.paymentStep_cases env org result isoId messageHash clock c data s
  · have hopened : Sourced (IsoAnalysis.withLifecycle
        (IsoAnalysis.newLifecycle org (IsoAnalysis.profileFromDict data) clock) s) :=
      Replays.append_lifecycle hs rfl
    rw [hcommits, hfinal] at ht
    rcases List.mem_pair.mp ht with rfl | rfl
    · exact hopened
    · apply withEvent hopened hreport
      rw [IsoAnalysis.withLifecycle, List.length_append]
      exact Nat.lt_succ_self _
  · obtain ⟨hrow, -⟩ := IsoAnalysis.findLifecycle_some hfound
    rw [hcommits, hfinal] at ht
    obtain rfl := List.mem_singleton.mp ht
    exact withEvent hs hreport (List.getElem?_eq_some_iff.mp hrow).1

/-- The transactions of a message. -/
theorem correlate (htruthy : IsoAnalysis.isStatusReport result → truthy result.normalizedStatus)
    (hsilent : IsoAnalysis.isStatusReport result = false →
      result.normalizedStatus = none ∨ result.correlationProfiles = [])
    (env : Env D) (isoId : ℕ) (messageHash : D) (clock : Instant) :
    Session.Restores Sourced Written
      (IsoAnalysis.correlateAndBuildLifecycle env org result isoId messageHash clock) := by
  apply IsoAnalysis.correlate_restores
  · exact fun hreport c data => statusStep hreport (htruthy hreport) env c data
  · exact fun hreport c data => .of_keeps (paymentStep hreport env clock c data) fun _ hs => .inl hs
  · exact hsilent
  · exact fun _ hs => .inl hs

end

theorem analyzeIsoMessage [DecidableEq D] (env : Env D) (org : String)
    (pipeline : AnalysisPipeline) (payload : List UInt8) (clock : Instant) :
    Session.Restores (Historic ids) Written
      (IsoAnalysis.analyzeIsoMessage env org pipeline payload clock) := by
  have hpersist : ∀ result, pipeline.analyzeIso env.hash payload clock = .ok result →
      Session.Restores (Historic ids) Written
        (IsoAnalysis.persistAnalysis env org result clock) := by
    intro result hresult
    have htruthy := IsoAnalysis.truthy_of_statusReport hresult
    refine .bind (.read _) fun found => ?_
    rcases found with _ | ⟨isoId, row⟩
    · refine .bind (restores_of_keeps (.transact fun s a s' hs h => ?_)) fun isoId => .ite ?_ ?_
      · cases h
        exact ⟨hs.consistent.congr rfl rfl rfl rfl (fun _ _ h => h) fun _ hev => .inl hev,
          hs.sourced⟩
      · have hsilent := IsoAnalysis.silent_of_result hresult
        exact .bind (restores (Store.Consistent.correlate env org htruthy isoId _ clock)
          (correlate htruthy hsilent env isoId _ clock)) fun _ => .pure _
      · exact .bind (restores_of_keeps (ingestAccountReport env org _ _)) fun _ => .pure _
    · exact .bind (.read _) fun _ => .pure _
  intro s hs
  rcases hresult : pipeline.analyzeIso env.hash payload clock with e | result
  · rw [IsoAnalysis.analyzeIsoMessage_error hresult]
    exact ⟨fun c hc => absurd hc List.not_mem_nil, hs⟩
  · rw [IsoAnalysis.analyzeIsoMessage_ok hresult]
    exact hpersist result hresult s hs

/-- A detection opens cases only. -/
theorem detect (env : Env D) (org : String) (now : Instant) (windowHours : ℤ) :
    Session.Restores (Historic ids) Written
      (detectMissingAccountEvents env ids org now windowHours) := by
  have hcase : ∀ lifecycleId, Session.Keeps Sourced
      (ensureWith org (missingCaseId lifecycleId) (withMissingCase org lifecycleId) :
        Service D Unit) :=
    fun lifecycleId => ensureWith_invariant fun s hs _ => hs
  have hdetect : Session.Keeps (Sourced (D := D))
      (detectMissingAccountEvents env ids org now windowHours) :=
    .bind (.ofExcept _) fun cutoff => .bind (.read _) fun rows =>
      .fold (fun flagged l _ => .bind (.read _) fun found =>
        .ite (.pure _) (.bind (hcase _) fun _ => .pure _)) []
  exact restores (Store.Consistent.detect env org now windowHours)
    (.of_keeps hdetect fun _ hs => .inl hs)

/-- Every operation. -/
theorem perform [DecidableEq D] (env : Env D) (op : Operation) :
    Session.Restores (Historic ids) Written (AccountService.perform env ids op) := by
  cases op with
  | detect org now windowHours => exact detect env org now windowHours
  | ingest i =>
    exact .bind (restores_of_keeps (ingestAccountReport env i.org i.reports i.isoMessageId))
      fun _ => .pure _
  | message org pipeline payload clock =>
    exact .bind (analyzeIsoMessage env org pipeline payload clock) fun _ => .pure _

end Historic

/-- In every run from the empty store, every committed store has on each lifecycle the status that
the events say, or says so once its last event is left out, and the store where the run ends has
it, whatever calls have raised. -/
theorem status_history [DecidableEq D] (env : Env D) (ids : LifecycleIds)
    (ops : List Operation) :
    (∀ t ∈ Session.stores (perform env ids) ops ({} : Store D), Written t) ∧
      Sourced (Session.after (perform env ids) ops ({} : Store D)) := by
  have hstart : Historic ids ({} : Store D) :=
    ⟨Store.Consistent.empty, ⟨fun ev hev => absurd hev List.not_mem_nil, fun key l hl => by
      cases hl⟩⟩
  obtain ⟨hwritten, hend⟩ := Session.Restores.run (Historic.perform env) ops hstart
  exact ⟨hwritten, hend.sourced⟩

end PaymentOps
