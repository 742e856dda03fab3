import PaymentOps.Service.StatusHistory

/-!
# Where a status comes from

The status of a lifecycle is that of a status report which was stored before it, for the same
organization, also when calls are cut off between their commits.

* `Traced`: a status report is stored, and the event is its event;
* `Provenant`: every status is unknown or that of an event, and the event is traced;
* `status_provenance`: this holds wherever the calls of a run are cut off.
-/

namespace PaymentOps

open AccountService Text Lifecycle

variable {D : Type}

/-- The event is that of a status report which is stored for the organization. -/
structure Traces (s : Store D) (ev : PaymentLifecycleEventRow D) (isoId : ℕ) (m : IsoMessage D) :
    Prop where
  stored : s.isoMessages[isoId]? = some m
  organization : m.organizationId = ev.organizationId
  statusReport : startsWith "pacs.002" m.messageVersion
  normalized : m.normalizedStatus = some ev.status
  messageId : ev.messageId = some (toString isoId)
  hash : ev.sourceHash = some m.messageHash

/-- The event gives its status to the lifecycle. -/
def Gives (key : ℕ) (l : PaymentLifecycleRow) (ev : PaymentLifecycleEventRow D) : Prop :=
  isStatusEvent ev ∧ ev.lifecycleId = key ∧ ev.status = l.currentStatus

/-- Each status of the store was given by an event that traces to a stored message. -/
structure Provenant (s : Store D) : Prop where
  events : ∀ ev ∈ s.lifecycleEvents, isStatusEvent ev → ∃ isoId m, Traces s ev isoId m
  statuses : ∀ key l, s.lifecycles[key]? = some l →
    l.currentStatus = "UNKNOWN" ∨ ∃ ev ∈ s.lifecycleEvents, Gives key l ev

/-- The store in which a status report is stored under the key, while its transactions are
correlated. -/
def Storing (isoId : ℕ) (m : IsoMessage D) (s : Store D) : Prop :=
  Provenant s ∧ s.isoMessages[isoId]? = some m

namespace Provenant

variable {s t : Store D} {org : String}

/-- What is appended, and what becomes of the statuses. -/
theorem step (h : Provenant s) (events : List (PaymentLifecycleEventRow D))
    (hmessages : ∀ (isoId : ℕ) (m : IsoMessage D), s.isoMessages[isoId]? = some m →
      t.isoMessages[isoId]? = some m)
    (happend : t.lifecycleEvents = s.lifecycleEvents ++ events)
    (hevents : ∀ ev ∈ events, isStatusEvent ev → ∃ isoId m, Traces t ev isoId m)
    (hstatuses : ∀ key l, t.lifecycles[key]? = some l → l.currentStatus = "UNKNOWN" ∨
      (∃ ev ∈ events, Gives key l ev) ∨
        ∃ l', s.lifecycles[key]? = some l' ∧ l'.currentStatus = l.currentStatus) :
    Provenant t where
  events ev hev hstatus := by
    rw [happend] at hev
    rcases List.mem_append.mp hev with hev | hev
    · obtain ⟨isoId, m, htraces⟩ := h.events ev hev hstatus
      exact ⟨isoId, m, { htraces with stored := hmessages isoId m htraces.stored }⟩
    · exact hevents ev hev hstatus
  statuses key l hl := by
    rw [happend]
    rcases hstatuses key l hl with hunknown | ⟨ev, hev, hgives⟩ | ⟨l', hl', hsame⟩
    · exact .inl hunknown
    · exact .inr ⟨ev, List.mem_append_right _ hev, hgives⟩
    · rcases h.statuses key l' hl' with hunknown | ⟨ev, hev, hstatus, hkey, hgives⟩
      · exact .inl (hsame.symm.trans hunknown)
      · exact .inr ⟨ev, List.mem_append_left _ hev, hstatus, hkey, hgives.trans hsame⟩

/-- Events of other messages, and no change of a status. -/
theorem append (h : Provenant s) (events : List (PaymentLifecycleEventRow D))
    (hmessages : ∀ (isoId : ℕ) (m : IsoMessage D), s.isoMessages[isoId]? = some m →
      t.isoMessages[isoId]? = some m)
    (happend : t.lifecycleEvents = s.lifecycleEvents ++ events)
    (hevents : ∀ ev ∈ events, isStatusEvent ev = false)
    (hlifecycles : t.lifecycles = s.lifecycles) : Provenant t := by
  refine h.step events hmessages happend (fun ev hev hstatus => ?_) fun key l hl => ?_
  · exact absurd (hstatus.symm.trans (hevents ev hev)) Bool.noConfusion
  · exact .inr (.inr ⟨l, hlifecycles ▸ hl, rfl⟩)

theorem congr (h : Provenant s) (hmessages : t.isoMessages = s.isoMessages)
    (hevents : t.lifecycleEvents = s.lifecycleEvents) (hlifecycles : t.lifecycles = s.lifecycles) :
    Provenant t := by
  refine h.append [] (fun _ _ hm => hmessages ▸ hm) ?_ ?_ hlifecycles
  · rw [hevents, List.append_nil]
  · exact fun ev hev => absurd hev List.not_mem_nil

theorem withMessage (h : Provenant s) (m : IsoMessage D) :
    Storing s.isoMessages.length m { s with isoMessages := s.isoMessages ++ [m] } := by
  refine ⟨?_, List.getElem?_concat_length⟩
  refine h.append [] (fun isoId m' hm' => ?_) (List.append_nil _).symm
    (fun ev hev => absurd hev List.not_mem_nil) rfl
  exact (List.getElem?_append_left (List.getElem?_eq_some_iff.mp hm').1).trans hm'

theorem ingestEntry (env : Env D) (org : String) (report : AccountReport) (reportId : ℕ)
    (entry : AccountEntry) :
    Session.Keeps Provenant (AccountService.ingestEntry env org report reportId entry) := by
  refine .of_commits fun s hs c hc => ?_
  set st : EntryStep D := ⟨org, report, reportId, entry, s⟩
  have hstatus : ∀ events, List.Sublist events (st.newEvents env) →
      ∀ ev ∈ events, isStatusEvent ev = false := by
    intro events hsub ev hev
    obtain ⟨id, eventType, rfl⟩ := EntryStep.newEvents_event ev (hsub.subset hev)
    rfl
  cases EntryStep.exec_stages env st c hc with
  | added => exact hs.congr rfl rfl rfl
  | settling reconciliations events hr he =>
    exact hs.append _ (fun _ _ hm => hm) rfl (hstatus events he) rfl
  | concluded text htext hfree =>
    exact hs.append _ (fun _ _ hm => hm) rfl (hstatus _ (List.Sublist.refl _)) rfl

theorem ingestAccountReport (env : Env D) (org : String) (reports : List AccountReport)
    (iso : Option ℕ) :
    Session.Keeps Provenant (AccountService.ingestAccountReport env org reports iso) := by
  apply ingestAccountReport_invariant
  · exact fun s rows h => h.congr rfl rfl rfl
  · exact fun s rows h => h.congr rfl rfl rfl
  · exact ingestEntry env org

end Provenant

/-! ## Messages -/

namespace Storing

variable {org : String} {result : IsoAnalysisResult D} {isoId : ℕ} {messageHash : D} {s : Store D}

theorem withEvent (h : Storing isoId (IsoAnalysis.isoMessageRow org result messageHash) s)
    (hn : IsoAnalysis.isStatusReport result → truthy result.normalizedStatus) (id : ℕ)
    (evidence : List String) :
    Storing isoId (IsoAnalysis.isoMessageRow org result messageHash)
      (IsoAnalysis.withEvent org result isoId messageHash id evidence s) := by
  refine ⟨h.1.step _ (fun _ _ hm => hm) rfl (fun ev hev hstatus => ?_)
    fun key l hl => .inr (.inr ⟨l, hl, rfl⟩), h.2⟩
  obtain rfl := List.mem_singleton.mp hev
  have htruthy := hn hstatus
  obtain ⟨status, hnormalized, -⟩ := truthy_iff.mp htruthy
  refine ⟨isoId, _, h.2, rfl, hstatus, ?_, rfl, rfl⟩
  show result.normalizedStatus = some ((Text.or result.normalizedStatus _).getD _)
  rw [hnormalized] at htruthy ⊢
  simp [Text.or, htruthy]

/-- A status is set after the event that gives it. -/
theorem withStatus (h : Storing isoId (IsoAnalysis.isoMessageRow org result messageHash) s)
    (hreport : IsoAnalysis.isStatusReport result) (hn : truthy result.normalizedStatus) (id : ℕ)
    (evidence : List String) :
    Storing isoId (IsoAnalysis.isoMessageRow org result messageHash)
      (IsoAnalysis.withStatus result id
        (IsoAnalysis.withEvent org result isoId messageHash id evidence s)) := by
  obtain ⟨hprovenant, hstored⟩ := h.withEvent (fun _ => hn) id evidence
  refine ⟨⟨fun ev hev hstatus => ?_, fun key l hl => ?_⟩, hstored⟩
  · obtain ⟨isoId', m, htraces⟩ := hprovenant.events ev hev hstatus
    exact ⟨isoId', m, { htraces with }⟩
  · simp only [IsoAnalysis.withStatus, List.getElem?_modify] at hl
    obtain ⟨row, hrow, rfl⟩ := Option.map_eq_some_iff.mp hl
    by_cases hkey : id = key
    · refine .inr ⟨_, List.mem_append_right _ (List.mem_singleton_self _), hreport, hkey, ?_⟩
      rw [if_pos hkey]
      exact (Historic.status_eventRow hn row).symm
    · rw [if_neg hkey]
      exact hprovenant.statuses key row hrow

theorem withLifecycle (h : Storing isoId (IsoAnalysis.isoMessageRow org result messageHash) s)
    (row : PaymentLifecycleRow) (hrow : row.currentStatus = "UNKNOWN") :
    Storing isoId (IsoAnalysis.isoMessageRow org result messageHash)
      (IsoAnalysis.withLifecycle row s) := by
  refine ⟨h.1.step [] (fun _ _ hm => hm) (List.append_nil _).symm
    (fun ev hev => absurd hev List.not_mem_nil) fun key l hl => ?_, h.2⟩
  rcases Nat.lt_or_ge key s.lifecycles.length with hlt | hge
  · exact .inr (.inr ⟨l, (List.getElem?_append_left hlt).symm.trans hl, rfl⟩)
  · have hl' : l ∈ [row] :=
      List.mem_of_getElem? ((List.getElem?_append_right hge).symm.trans hl)
    rw [List.mem_singleton.mp hl']
    exact .inl hrow

theorem statusStep (hreport : IsoAnalysis.isStatusReport result)
    (hn : truthy result.normalizedStatus) (env : Env D) (c : IsoAnalysis.Correlation)
    (data : CorrelationProfile) :
    Session.Keeps (Storing isoId (IsoAnalysis.isoMessageRow org result messageHash))
      (IsoAnalysis.statusStep env org result isoId messageHash c data) := by
  refine .of_commits fun s hs t ht => ?_
  obtain ⟨c', e, rfl, -, ⟨-, hcommits, -⟩ | ⟨id, row, evidence, -, hcommits, hfinal⟩⟩ :
      ∃ c' e, (IsoAnalysis.statusStep env org result isoId messageHash c data).run s = e ∧ _ :=
    IsoAnalysis.statusStep_cases env hn isoId messageHash c data s
  · rw [hcommits] at ht
    cases ht
  · rw [hcommits, hfinal] at ht
    rcases List.mem_pair.mp ht with rfl | rfl
    · exact hs.withEvent (fun _ => hn) id evidence
    · exact hs.withStatus hreport hn id evidence

theorem paymentStep (hreport : IsoAnalysis.isStatusReport result = false) (env : Env D)
    (clock : Instant) (c : IsoAnalysis.Correlation) (data : CorrelationProfile) :
    Session.Keeps (Storing isoId (IsoAnalysis.isoMessageRow org result messageHash))
      (IsoAnalysis.paymentStep env org result isoId messageHash clock c data) := by
  have hsilent : IsoAnalysis.isStatusReport result → truthy result.normalizedStatus :=
    fun h => absurd (h.symm.trans hreport) Bool.noConfusion
  refine .of_commits fun s hs t ht => ?_
  obtain ⟨c', e, rfl, -, -, ⟨-, hcommits, hfinal⟩ | ⟨id, row, evidence, -, hcommits, hfinal⟩⟩ :=
    IsoAnalysis.paymentStep_cases env org result isoId messageHash clock c data s
  · have hopened := hs.withLifecycle
      (IsoAnalysis.newLifecycle org (IsoAnalysis.profileFromDict data) clock) rfl
    rw [hcommits, hfinal] at ht
    rcases List.mem_pair.mp ht with rfl | rfl
    · exact hopened
    · exact hopened.withEvent hsilent _ _
  · rw [hcommits, hfinal] at ht
    obtain rfl := List.mem_singleton.mp ht
    exact hs.withEvent hsilent id evidence

/-- The transactions of a message that is stored. -/
theorem correlate (htruthy : IsoAnalysis.isStatusReport result → truthy result.normalizedStatus)
    (hsilent : IsoAnalysis.isStatusReport result = false →
      result.normalizedStatus = none ∨ result.correlationProfiles = [])
    (env : Env D) (clock : Instant) :
    Session.Keeps (Storing isoId (IsoAnalysis.isoMessageRow org result messageHash))
      (IsoAnalysis.correlateAndBuildLifecycle env org result isoId messageHash clock) := by
  apply Session.Restores.keeps
  apply IsoAnalysis.correlate_restores
  · exact fun hreport c data =>
      .of_keeps (statusStep hreport (htruthy hreport) env c data) fun _ hs => hs
  · exact fun hreport c data =>
      .of_keeps (paymentStep hreport env clock c data) fun _ hs => hs
  · exact hsilent
  · exact fun _ hs => hs

end Storing

namespace Provenant

theorem analyzeIsoMessage [DecidableEq D] (env : Env D) (org : String)
    (pipeline : AnalysisPipeline) (payload : List UInt8) (clock : Instant) :
    Session.Keeps Provenant (IsoAnalysis.analyzeIsoMessage env org pipeline payload clock) := by
  have hpersist : ∀ result, pipeline.analyzeIso env.hash payload clock = .ok result →
      Session.Keeps Provenant (IsoAnalysis.persistAnalysis env org result clock) := by
    intro result hresult
    have htruthy := IsoAnalysis.truthy_of_statusReport hresult
    refine .bind (.read _) fun found => ?_
    rcases found with _ | ⟨isoId, row⟩
    · refine Session.Triple.bind (Q := fun isoId => Storing isoId
        (IsoAnalysis.isoMessageRow org result (env.hash.message (IsoAnalysis.messageKey result))))
        (.transact fun s a s' hs h => ?_) fun isoId => .ite (fun _ => ?_) fun _ => ?_
      · cases h
        exact ⟨(hs.withMessage _).1, hs.withMessage _⟩
      · refine Session.Triple.bind (Session.Triple.conseq
          (Storing.correlate htruthy (IsoAnalysis.silent_of_result hresult) env clock)
          (fun _ hs => hs) (fun _ hs => hs.1) fun _ _ hs => hs.1) fun _ => .pure fun s hs => hs
      · exact Session.Triple.bind (Session.Triple.conseq
          (ingestAccountReport env org _ _) (fun _ hs => hs.1) (fun _ hs => hs) fun _ _ hs => hs)
          fun _ => .pure fun s hs => hs
    · exact .bind (.read _) fun _ => .pure _
  intro s hs
  rcases hresult : pipeline.analyzeIso env.hash payload clock with e | result
  · rw [IsoAnalysis.analyzeIsoMessage_error hresult]
    exact ⟨fun c hc => absurd hc List.not_mem_nil, nofun⟩
  · rw [IsoAnalysis.analyzeIsoMessage_ok hresult]
    exact hpersist result hresult s hs

theorem perform [DecidableEq D] (env : Env D) (ids : LifecycleIds) (op : Operation) :
    Session.Keeps Provenant (AccountService.perform env ids op) := by
  cases op with
  | ingest i =>
    exact (ingestAccountReport env i.org i.reports i.isoMessageId).bind fun _ => .pure _
  | message org pipeline payload clock =>
    exact (analyzeIsoMessage env org pipeline payload clock).bind fun _ => .pure _
  | detect org now windowHours =>
    have hcase : ∀ lifecycleId, Session.Keeps Provenant
        (ensureWith org (missingCaseId lifecycleId) (withMissingCase org lifecycleId) :
          Service D Unit) :=
      fun lifecycleId => ensureWith_invariant fun s hs _ => hs.congr rfl rfl rfl
    exact .bind (.ofExcept _) fun cutoff => .bind (.read _) fun rows =>
      .fold (fun flagged l _ => .bind (.read _) fun found =>
        .ite (.pure _) (.bind (hcase _) fun _ => .pure _)) []

end Provenant

/-- Every status is unknown, or that of a stored status report of the organization, which has an
event on the lifecycle. -/
def Explained (s : Store D) : Prop :=
  ∀ (key : ℕ) l, s.lifecycles[key]? = some l → l.currentStatus = "UNKNOWN" ∨
    ∃ ev ∈ s.lifecycleEvents, ev.lifecycleId = key ∧ ∃ isoId m, Traces s ev isoId m ∧
      m.organizationId = l.organizationId ∧ m.normalizedStatus = some l.currentStatus

theorem Provenant.explained {ids : LifecycleIds} {s : Store D} (h : Provenant s)
    (hconsistent : s.Consistent ids) : Explained s := by
  intro key l hl
  rcases h.statuses key l hl with hunknown | ⟨ev, hev, hstatus, hkey, hgives⟩
  · exact .inl hunknown
  · obtain ⟨isoId, m, htraces⟩ := h.events ev hev hstatus
    refine .inr ⟨ev, hev, hkey, isoId, m, htraces, ?_, ?_⟩
    · have howner := hconsistent.events ev hev
      rw [hkey, Store.owner, hl] at howner
      rw [htraces.organization]
      exact (Option.some.inj howner).symm
    · rw [htraces.normalized, hgives]

/-- The statuses are explained wherever the calls of a run are cut off. -/
theorem status_provenance [DecidableEq D] (env : Env D) (ids : LifecycleIds)
    (calls : List (Operation × ℕ)) :
    Explained (Session.cutRun (perform env ids) calls ({} : Store D)) := by
  have hstart : Provenant ({} : Store D) :=
    ⟨fun ev hev => absurd hev List.not_mem_nil, fun key l hl => by cases hl⟩
  exact (Session.cutRun_of_keeps (fun op => Provenant.perform env ids op) calls hstart).explained
    (Session.cutRun_of_keeps (fun op => Store.Consistent.perform env op) calls
      (Store.Consistent.empty : ({} : Store D).Consistent ids))

end PaymentOps
