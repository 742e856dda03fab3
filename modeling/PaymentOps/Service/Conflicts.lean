import PaymentOps.Service.StatusReports

/-!
# Lifecycles in conflict with a transaction

A transaction is correlated with the lifecycle that the lookup returns, and leaves its event and
its status there even when the answer is `CONFLICT`.  `leavesConflicts_iff` says for which stores
and messages this cannot happen, in whatever order the database returns its rows.
-/

namespace PaymentOps.IsoAnalysis

open Text Lifecycle

variable {D : Type} {env : Env D} {org : String} {result : IsoAnalysisResult D} {isoId : ℕ}
  {messageHash : D} {clock : Instant} {s t : Store D}

/-- The events of a lifecycle. -/
def eventsOn (key : ℕ) (s : Store D) : List (PaymentLifecycleEventRow D) :=
  s.lifecycleEvents.filter (·.lifecycleId = key)

/-- The lifecycle has no new event and no new status. -/
def Untouched (key : ℕ) (s s' : Store D) : Prop :=
  eventsOn key s' = eventsOn key s ∧
    (s'.lifecycles[key]?).map (·.currentStatus) = (s.lifecycles[key]?).map (·.currentStatus)

/-- No iteration touches a lifecycle with which its transaction is in conflict. -/
def LeavesConflicts (u : Unicode)
    (steps : List (Session.Iteration (Store D) ServiceError CorrelationProfile Correlation)) :
    Prop :=
  ∀ it ∈ steps, ∀ (key : ℕ) (row : PaymentLifecycleRow), it.start.lifecycles[key]? = some row →
    (correlateProfiles u (profileFromDict it.item) (profileFromLifecycle row)).status =
      .conflict →
    ∀ c ∈ it.exec.commits, Untouched key it.start c

/-- The lifecycles after a transaction: a payment opens one when it finds none. -/
def lifecyclesAfter (org : String) (opens : Bool) (clock : Instant)
    (known : List PaymentLifecycleRow) (p : CorrelationProfile) : List PaymentLifecycleRow :=
  if opens && ! known.any (lookup org p) then known ++ [newLifecycle org p clock] else known

/-- No transaction looks up a lifecycle with which it is in conflict, among the lifecycles of the
store and those opened by the earlier transactions of the message. -/
def ConflictFree (org : String) (opens : Bool) (clock : Instant) :
    List PaymentLifecycleRow → List CorrelationProfile → Prop
  | _, [] => True
  | known, data :: rest =>
    (∀ row ∈ known, lookup org (profileFromDict data) row →
      ¬ Conflicting (profileFromDict data) (profileFromLifecycle row)) ∧
      ConflictFree org opens clock (lifecyclesAfter org opens clock known (profileFromDict data))
        rest

/-! ## One transaction -/

theorem eventsOn_withEvent (id : ℕ) (evidence : List String) (key : ℕ) (t : Store D) :
    eventsOn key (withEvent org result isoId messageHash id evidence t) =
      if id = key then
        eventsOn key t ++ [eventRow org result isoId messageHash id evidence]
      else eventsOn key t := by
  simp only [eventsOn, withEvent, List.filter_append]
  split_ifs with h
  · simp [eventRow, h]
  · simp [eventRow, h]

theorem untouched_withEvent {id key : ℕ} (hid : id ≠ key) (evidence : List String)
    (h : Untouched key s t) :
    Untouched key s (withEvent org result isoId messageHash id evidence t) := by
  refine ⟨?_, h.2⟩
  rw [eventsOn_withEvent, if_neg hid]
  exact h.1

theorem untouched_withStatus {id key : ℕ} (hid : id ≠ key) (h : Untouched key s t) :
    Untouched key s (withStatus result id t) := by
  refine ⟨h.1, ?_⟩
  rw [← h.2]
  simp [withStatus, hid]

theorem untouched_withLifecycle {key : ℕ} {row : PaymentLifecycleRow} (h : Untouched key s t)
    (hkey : key < t.lifecycles.length) : Untouched key s (withLifecycle row t) := by
  refine ⟨h.1, ?_⟩
  rw [← h.2, withLifecycle, List.getElem?_append_left hkey]

theorem untouched_refl (key : ℕ) (t : Store D) : Untouched key t t := ⟨rfl, rfl⟩

theorem HasLifecycles.any_lookup {known : List PaymentLifecycleRow} (h : HasLifecycles known t)
    (p : CorrelationProfile) : known.any (lookup org p) = t.lifecycles.any (lookup org p) := by
  have hmap : ∀ l : List PaymentLifecycleRow,
      (l.map stripped).any (lookup org p) = l.any (lookup org p) := by
    intro l
    rw [List.any_map]
    rfl
  rw [← hmap, ← h, hmap]

theorem conflicting_stripped {p : CorrelationProfile} {l l' : PaymentLifecycleRow}
    (h : stripped l' = stripped l) :
    Conflicting p (profileFromLifecycle l') ↔ Conflicting p (profileFromLifecycle l) := by
  have hstrip : ∀ x, Conflicting p (profileFromLifecycle (stripped x)) ↔
      Conflicting p (profileFromLifecycle x) := fun _ => Iff.rfl
  rw [← hstrip, h, hstrip]

theorem touched_withEvent (id : ℕ) (evidence : List String) (t : Store D) :
    ¬ Untouched id t (withEvent org result isoId messageHash id evidence t) := by
  intro h
  have hevents := h.1
  rw [eventsOn_withEvent, if_pos rfl] at hevents
  simpa using congrArg List.length hevents

/-- A transaction that finds no lifecycle leaves those of the store alone, and one that finds a
lifecycle leaves an event on it and leaves the others alone. -/
def Touches (found : Option (ℕ × PaymentLifecycleRow)) (t : Store D)
    (commits : List (Store D)) : Prop :=
  (found = none ∧ ∀ key < t.lifecycles.length, ∀ x ∈ commits, Untouched key t x) ∨
    ∃ id row, found = some (id, row) ∧
      (∀ key, id ≠ key → ∀ x ∈ commits, Untouched key t x) ∧ ∃ x ∈ commits, ¬ Untouched id t x

/-- A transaction of a status report. -/
theorem statusStep_touches (env : Env D) (org : String) (hn : truthy result.normalizedStatus)
    (isoId : ℕ) (messageHash : D) (c : Correlation) (data : CorrelationProfile)
    {known : List PaymentLifecycleRow} {t : Store D} (ht : HasLifecycles known t) :
    ∃ c' e, (statusStep env org result isoId messageHash c data).run t = e ∧
      e.outcome = .ok c' ∧ HasLifecycles known (e.final t) ∧
      Touches (findLifecycle env org (profileFromDict data) t) t e.commits := by
  obtain ⟨c', e, he, ho, hcases⟩ := statusStep_cases env hn isoId messageHash c data t
  refine ⟨c', e, he, ho, ?_⟩
  rcases hcases with ⟨hf, hcommits, hfin⟩ | ⟨id, row, evidence, hf, hcommits, hfin⟩
  · refine ⟨by rwa [hfin], .inl ⟨hf, fun key _ x hx => ?_⟩⟩
    rw [hcommits] at hx
    cases hx
  · have hevent : ∀ key, id ≠ key →
        Untouched key t (withEvent org result isoId messageHash id evidence t) :=
      fun key hid => untouched_withEvent hid evidence (untouched_refl key t)
    rw [hfin] at hcommits ⊢
    refine ⟨HasLifecycles.withStatus ht id, .inr ⟨id, row, hf, fun key hid x hx => ?_,
      _, hcommits ▸ List.mem_cons_self, touched_withEvent id evidence t⟩⟩
    rw [hcommits] at hx
    rcases List.mem_cons.mp hx with rfl | hx
    · exact hevent key hid
    · obtain rfl := List.mem_singleton.mp hx
      exact untouched_withStatus hid (hevent key hid)

/-- A transaction of a payment. -/
theorem paymentStep_touches (env : Env D) (org : String) (isoId : ℕ) (messageHash : D)
    (clock : Instant) (c : Correlation) (data : CorrelationProfile)
    {known : List PaymentLifecycleRow} {t : Store D} (ht : HasLifecycles known t) :
    ∃ c' e, (paymentStep env org result isoId messageHash clock c data).run t = e ∧
      e.outcome = .ok c' ∧
      HasLifecycles (lifecyclesAfter org true clock known (profileFromDict data)) (e.final t) ∧
      Touches (findLifecycle env org (profileFromDict data) t) t e.commits := by
  have hnone : findLifecycle env org (profileFromDict data) t = none ↔
      known.any (lookup org (profileFromDict data)) = false := by
    rw [findLifecycle_eq_none, ht.any_lookup, List.any_eq_false]
  obtain ⟨c', e, he, ho, -, hcases⟩ :=
    paymentStep_cases env org result isoId messageHash clock c data t
  refine ⟨c', e, he, ho, ?_⟩
  rcases hcases with ⟨hf, hcommits, hfin⟩ | ⟨id, row, evidence, hf, hcommits, hfin⟩
  · have hopen : ∀ key < t.lifecycles.length, Untouched key t
        (withLifecycle (newLifecycle org (profileFromDict data) clock) t) :=
      fun key hkey => untouched_withLifecycle (untouched_refl key t) hkey
    constructor
    · rw [lifecyclesAfter, hnone.mp hf, hfin]
      exact ht.withLifecycle _
    · refine .inl ⟨hf, fun key hkey x hx => ?_⟩
      rw [hcommits, hfin] at hx
      rcases List.mem_cons.mp hx with rfl | hx
      · exact hopen key hkey
      · obtain rfl := List.mem_singleton.mp hx
        exact untouched_withEvent (by omega) [] (hopen key hkey)
  · constructor
    · have hsome : known.any (lookup org (profileFromDict data)) = true := by
        rw [← Bool.not_eq_false, ← hnone, hf]
        simp
      rw [lifecyclesAfter, hsome, hfin]
      exact ht
    · rw [hfin] at hcommits
      refine .inr ⟨id, row, hf, fun key hid x hx => ?_, _, hcommits ▸ List.mem_cons_self,
        touched_withEvent id evidence t⟩
      rw [hcommits] at hx
      obtain rfl := List.mem_singleton.mp hx
      exact untouched_withEvent hid evidence (untouched_refl key t)

theorem transactionStep_cases (env : Env D) (org : String)
    (hn : isStatusReport result → truthy result.normalizedStatus)
    (isoId : ℕ) (messageHash : D) (clock : Instant) (c : Correlation) (data : CorrelationProfile)
    {known : List PaymentLifecycleRow} {t : Store D} (ht : HasLifecycles known t) :
    ∃ c' e, (transactionStep env org result isoId messageHash clock c data).run t = e ∧
      e.outcome = .ok c' ∧
      HasLifecycles (lifecyclesAfter org (! isStatusReport result) clock known
        (profileFromDict data)) (e.final t) ∧
      Touches (findLifecycle env org (profileFromDict data) t) t e.commits := by
  unfold transactionStep
  split_ifs with hs
  · have hsame : lifecyclesAfter org (! isStatusReport result) clock known
        (profileFromDict data) = known := by
      simp [lifecyclesAfter, hs]
    rw [hsame]
    exact statusStep_touches env org (hn hs) isoId messageHash c data ht
  · have hopens : (! isStatusReport result) = true := by simpa using hs
    rw [hopens]
    exact paymentStep_touches env org isoId messageHash clock c data ht

/-! ## All transactions -/

theorem leaves_of_free (env : Env D) (hn : isStatusReport result → truthy result.normalizedStatus)
    {xs : List CorrelationProfile} {known : List PaymentLifecycleRow} {c : Correlation}
    {t : Store D} (ht : HasLifecycles known t)
    (hfree : ConflictFree org (! isStatusReport result) clock known xs) :
    LeavesConflicts env.unicode (Session.iterations
      (transactionStep env org result isoId messageHash clock) c xs t) := by
  induction xs generalizing known c t with
  | nil => simp [LeavesConflicts, Session.iterations]
  | cons data xs ih =>
    obtain ⟨hhead, htail⟩ := hfree
    obtain ⟨c', e, he, ho, hafter, hcases⟩ :=
      transactionStep_cases env org hn isoId messageHash clock c data ht
    subst he
    rw [Session.iterations_cons_ok ho]
    intro it hit key row hrow hconflict
    rcases List.mem_cons.mp hit with rfl | hit
    · rcases hcases with ⟨-, hnone⟩ | ⟨id, row', hf, hothers, -⟩
      · exact hnone key (List.getElem?_eq_some_iff.mp hrow).1
      · -- the lifecycle that is found is not in conflict
        apply hothers key
        rintro rfl
        obtain ⟨hrow', hlookup⟩ := findLifecycle_some hf
        obtain rfl : row' = row := Option.some.inj (hrow'.symm.trans hrow)
        obtain ⟨row₀, hrow₀, hstrip⟩ := ht.row hrow
        refine hhead row₀ (List.mem_of_getElem? hrow₀) ?_ ?_
        · rwa [lookup_of_stripped hstrip]
        · rw [conflicting_stripped hstrip]
          exact (correlateProfiles_conflict _ _ _).mp hconflict
    · exact ih hafter htail it hit key row hrow hconflict

theorem free_of_leaves (env : Env D) (isoId : ℕ) (messageHash : D)
    (hn : isStatusReport result → truthy result.normalizedStatus)
    {xs : List CorrelationProfile} {known : List PaymentLifecycleRow}
    (hleaves : ∀ order : RowOrder (Store D) Store.lifecycles, ∃ c t, HasLifecycles known t ∧
      LeavesConflicts env.unicode (Session.iterations
        (transactionStep { env with lifecycleOrder := order } org result isoId messageHash clock)
        c xs t)) :
    ConflictFree org (! isStatusReport result) clock known xs := by
  induction xs generalizing known with
  | nil => trivial
  | cons data xs ih =>
    constructor
    · intro row hrow hlookup hconflict
      obtain ⟨key, hkey⟩ := List.mem_iff_getElem?.mp hrow
      -- an order that prefers the lifecycle in conflict
      obtain ⟨c, t, ht, hleave⟩ := hleaves (.preferring fun _ _ => key)
      obtain ⟨row', hrow', hstrip⟩ := ht.known hkey
      have hlookup' : lookup org (profileFromDict data) row' := by
        rwa [lookup_of_stripped hstrip]
      obtain ⟨c', e, he, ho, -, hcases⟩ := transactionStep_cases
        { env with lifecycleOrder := .preferring fun _ _ => key } org hn isoId messageHash clock c
        data ht
      subst he
      have hfirst : findLifecycle { env with lifecycleOrder := .preferring fun _ _ => key } org
          (profileFromDict data) t = some (key, row') :=
        RowOrder.preferring_first hrow' hlookup'
      rcases hcases with ⟨hf, -⟩ | ⟨id, row'', hf, -, x, hx, htouched⟩
      · cases hf.symm.trans hfirst
      · obtain ⟨rfl, rfl⟩ : id = key ∧ row'' = row' := by simpa using hf.symm.trans hfirst
        rw [Session.iterations_cons_ok ho] at hleave
        refine htouched (hleave _ List.mem_cons_self id row'' hrow' ?_ x hx)
        rw [correlateProfiles_conflict]
        exact (conflicting_stripped hstrip).mpr hconflict
    · refine ih fun order => ?_
      obtain ⟨c, t, ht, hleave⟩ := hleaves order
      obtain ⟨c', e, he, ho, hafter, -⟩ := transactionStep_cases
        { env with lifecycleOrder := order } org hn isoId messageHash clock c data ht
      subst he
      rw [Session.iterations_cons_ok ho] at hleave
      exact ⟨c', _, hafter, fun it hit => hleave it (List.mem_cons_of_mem _ hit)⟩

section

variable [DecidableEq D]

/-- A message leaves alone the lifecycles with which its transactions are in conflict, in whatever
order the database returns its rows, exactly when it was ingested before or no transaction looks
up such a lifecycle. -/
theorem leavesConflicts_iff (env : Env D) (org : String) (pipeline : AnalysisPipeline)
    (payload : List UInt8) (clock : Instant) (s : Store D) {result : IsoAnalysisResult D}
    (hresult : pipeline.analyzeIso env.hash payload clock = .ok result)
    (hreports : result.accountReports = []) :
    (∀ order : RowOrder (Store D) Store.lifecycles, LeavesConflicts env.unicode
      (transactionSteps { env with lifecycleOrder := order } org result clock s)) ↔
      Known env org result s ∨
        ConflictFree org (! isStatusReport result) clock s.lifecycles
          result.correlationProfiles := by
  have hn : isStatusReport result → truthy result.normalizedStatus :=
    truthy_of_statusReport hresult
  by_cases hk : Known env org result s
  · refine iff_of_true (fun order it hit => ?_) (.inl hk)
    have hnone : transactionSteps { env with lifecycleOrder := order } org result clock s = [] :=
      transactionSteps_known hk
    rw [hnone] at hit
    cases hit
  · have hsteps : ∀ order : RowOrder (Store D) Store.lifecycles,
        transactionSteps { env with lifecycleOrder := order } org result clock s =
          Session.iterations
            (transactionStep { env with lifecycleOrder := order } org result s.isoMessages.length
              (env.hash.message (messageKey result)) clock)
            {} result.correlationProfiles (recorded env org result s) := fun order =>
      transactionSteps_new hk hreports
    rw [or_iff_right hk]
    constructor
    · intro h
      refine free_of_leaves env s.isoMessages.length (env.hash.message (messageKey result)) hn
        fun order => ?_
      have horder := h order
      rw [hsteps] at horder
      exact ⟨{}, recorded env org result s, rfl, horder⟩
    · intro h order
      rw [hsteps]
      exact leaves_of_free { env with lifecycleOrder := order } hn rfl h

/-! ## A status report about another transaction -/

/-- A report that shares the end-to-end id, but not the transaction id. -/
def strangerTree : Xml.Element :=
  statusElement "Document" none [statusElement "FIToFIPmtStsRpt" none [
    statusElement "TxInfAndSts" none [
      statusElement "OrgnlEndToEndId" (some "NOTPROVIDED") [],
      statusElement "OrgnlTxId" (some "T-2") [],
      statusElement "TxSts" (some "RJCT") []]]]

/-- A report about a payment that is not stored. -/
def strangerReport : LifecycleStatusReport where
  messageFamily := "pacs"
  messageDefinition := "FIToFIPaymentStatusReportV16"
  messageVersion := "pacs.002.001.16"
  namespace_ := "urn:iso:std:iso:20022:tech:xsd:pacs.002.001.16"
  transactionStatuses := [
    { originalEndToEndId := some "NOTPROVIDED", originalTransactionId := some "T-2"
      rawIsoStatus := some "RJCT", normalizedStatus := .rejected }]

/-- The result of this report. -/
def strangerResult : IsoAnalysisResult Digest :=
  AnalysisPipeline.isoStatusResult Hashing.structural mixedRegistered true strangerReport

/-- A store with a payment of another transaction id. -/
def strangerStore : Store Digest where
  lifecycles := [
    { organizationId := "org", endToEndId := some "NOTPROVIDED", transactionId := some "T-1"
      createdAt := 0 }]

theorem strangerPipeline_analyze :
    (samplePipeline strangerTree).analyzeIso Hashing.structural [60] 0 = .ok strangerResult := by
  rfl

theorem leavesConflicts_iff_sample :
    (∀ order : RowOrder (Store Digest) Store.lifecycles, LeavesConflicts mixedEnv.unicode
      (transactionSteps { mixedEnv with lifecycleOrder := order } "org" strangerResult 0
        strangerStore)) ↔
      Known mixedEnv "org" strangerResult strangerStore ∨
        ConflictFree "org" (! isStatusReport strangerResult) 0 strangerStore.lifecycles
          strangerResult.correlationProfiles :=
  leavesConflicts_iff mixedEnv "org" (samplePipeline strangerTree) [60] 0 strangerStore
    strangerPipeline_analyze rfl

/-- The payment `T-1` is rejected by a report about `T-2`. -/
theorem conflicting_lifecycle_rejected :
    (∃ it ∈ transactionSteps mixedEnv "org" strangerResult 0 strangerStore,
      (it.start.lifecycles[0]?).any (fun row =>
        (correlateProfiles mixedEnv.unicode (profileFromDict it.item)
          (profileFromLifecycle row)).status = .conflict) ∧
      ∃ c ∈ it.exec.commits, ¬ eventsOn 0 c = eventsOn 0 it.start ∧
        c.lifecycles[0]?.map (·.currentStatus) = some "REJECTED") ∧
    ¬ LeavesConflicts mixedEnv.unicode
      (transactionSteps mixedEnv "org" strangerResult 0 strangerStore) := by
  have hstep : ∃ it ∈ transactionSteps mixedEnv "org" strangerResult 0 strangerStore,
      (it.start.lifecycles[0]?).any (fun row =>
        (correlateProfiles mixedEnv.unicode (profileFromDict it.item)
          (profileFromLifecycle row)).status = .conflict) ∧
      ∃ c ∈ it.exec.commits, ¬ eventsOn 0 c = eventsOn 0 it.start ∧
        c.lifecycles[0]?.map (·.currentStatus) = some "REJECTED" := by
    decide +kernel
  refine ⟨hstep, fun h => ?_⟩
  obtain ⟨it, hit, hconflict, c, hc, hevents, -⟩ := hstep
  obtain ⟨row, hrow, hstatus⟩ := (Option.any_eq_true _ _).mp hconflict
  exact hevents (h it hit 0 row hrow (by simpa using hstatus) c hc).1

end

end PaymentOps.IsoAnalysis
