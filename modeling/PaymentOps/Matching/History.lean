import PaymentOps.Matching.Counters
import PaymentOps.Matching.Narrowing
import PaymentOps.Matching.PolicyVersions

/-!
# Requests after other requests

A request stores its records and leaves only their ids to the worker, which loads every record of
the organization that has one of them.  So an earlier submission under the same id joins the run.

* `afterHistory_tables`: what a history leaves in the tables;
* `NoCollision`: no record of the history has an id that the worker looks up;
* `independent_iff`: the possible outcomes of a request are those without the history exactly when
  there is no collision;
* `resubmitted` is a request that is submitted a second time.
-/

namespace PaymentOps.Matching

/-! ## What is stored -/

/-- The rows of some records, up to the first record that cannot be stored. -/
def storedRows (org : String) : List MatchRecord → List MatchRecord
  | [] => []
  | r :: rs =>
    match domainToRow org r with
    | .error _ => []
    | .ok row => row :: storedRows org rs

/-- An earlier submission of the organization, or the execution of a run. -/
inductive Submission where
  | record (record : MatchRecord)
  | request (body : ReconciliationRequest)
  | delivery (runId : ℕ)

/-- The operation that a submission is. -/
def Submission.operation (org : String) : Submission → Operation
  | .record r => .createMatchRecord org r
  | .request body => .startReconciliation org body
  | .delivery runId => .runReconciliation runId

/-- The rows that a submission stores. -/
def Submission.rows (org : String) : Submission → List MatchRecord
  | .record r => storedRows org [r]
  | .request body => storedRows org (body.sourceRecords ++ body.candidateRecords)
  | .delivery _ => []

/-- The store after a history of submissions. -/
def afterHistory (env : MatchingEnv) (org : String) (history : List Submission)
    (s : RequestStore) : RequestStore :=
  afterOperations env (history.map (·.operation org)) s

/-- The rows that a history stores. -/
def historyRows (org : String) (history : List Submission) : List MatchRecord :=
  history.flatMap (·.rows org)

variable {org : String} {s t : RequestStore}

/-- The loop that stores the records of a request. -/
def storeRecords (org : String) (rs : List MatchRecord) : MatchingService Unit :=
  Session.each (fun r => do let _ ← createMatchRecord org r; pure ()) rs

theorem storeRecords_run (org : String) (rs : List MatchRecord) (s : RequestStore) :
    ((storeRecords org rs).run s).outcome = (rs.mapM (domainToRow org)).map (fun _ => ()) ∧
      ((storeRecords org rs).run s).final s =
        { s with records := s.records ++ storedRows org rs } := by
  induction rs generalizing s with
  | nil =>
    refine ⟨rfl, ?_⟩
    rw [storedRows, List.append_nil]
    rfl
  | cons r rs ih =>
    have hstep : storeRecords org (r :: rs) = (createMatchRecord org r >>= fun _ => pure ()) >>=
        fun _ => storeRecords org rs := rfl
    rw [hstep, List.mapM_cons]
    cases hrow : domainToRow org r with
    | error e =>
      have hrun : (createMatchRecord org r).run s = ⟨[], .error e⟩ :=
        Session.transact_error (by rw [hrow]; rfl)
      have hbind : ((createMatchRecord org r >>= fun _ => pure ()).run s).outcome = .error e := by
        rw [Session.bind_error (e := e) (by rw [hrun])]
      rw [Session.bind_error hbind, Session.bind_error (e := e) (by rw [hrun]), hrun, storedRows,
        hrow]
      exact ⟨rfl, by simp⟩
    | ok row =>
      set t : RequestStore := { s with records := s.records ++ [row] }
      have hrun : (createMatchRecord org r).run s = ⟨[t], .ok row⟩ :=
        Session.transact_ok (by rw [hrow]; rfl)
      have hbind : (createMatchRecord org r >>= fun _ => pure ()).run s = ⟨[t], .ok ()⟩ := by
        rw [Session.bind_ok (a := row) (by rw [hrun]), hrun]
        rfl
      obtain ⟨ho, hf⟩ := ih t
      rw [Session.bind_ok (a := ()) (by rw [hbind]), hbind]
      constructor
      · show ((storeRecords org rs).run t).outcome = _
        rw [ho]
        cases rs.mapM (domainToRow org) <;> rfl
      · rw [Session.final_append]
        show ((storeRecords org rs).run t).final t = _
        rw [hf, storedRows, hrow]
        simp [t]

namespace ReconciliationRequest

/-- All records of a request. -/
def records (body : ReconciliationRequest) : List MatchRecord :=
  body.sourceRecords ++ body.candidateRecords

/-- The ids that the request leaves to the worker. -/
def datasets (body : ReconciliationRequest) : RunDatasets where
  sourceIds := body.sourceRecords.map (·.recordId)
  candidateIds := body.candidateRecords.map (·.recordId)

/-- The request has records, and all of them can be stored. -/
def Accepted (org : String) (body : ReconciliationRequest) : Prop :=
  body.records ≠ [] ∧ ∃ rows, body.records.mapM (domainToRow org) = .ok rows

end ReconciliationRequest

/-- The run that a request queues. -/
def queuedRow (env : MatchingEnv) (org : String) (body : ReconciliationRequest)
    (s : RequestStore) : MatchRun where
  organizationId := org
  policyId := body.policyId
  policyVersion := toString (getPublishedPolicy env org body.policyId s).version

/-- The store in which the worker finds the run of a request. -/
def requested (env : MatchingEnv) (org : String) (body : ReconciliationRequest)
    (s : RequestStore) : RequestStore :=
  let stored := { s with records := s.records ++ storedRows org body.records }
  { stored with
    runs := s.runs ++ [queuedRow env org body stored]
    datasets := fun id => if id = s.runs.length then body.datasets else s.datasets id }

variable {env : MatchingEnv} {body : ReconciliationRequest}

theorem startReconciliation_of_ne (h : body.records ≠ []) :
    startReconciliation env org body = storeRecords org body.records >>= fun _ =>
      createReconciliationRun env org body.datasets body.policyId := by
  unfold startReconciliation
  rw [if_neg]
  · rfl
  · simpa [ReconciliationRequest.records] using h

theorem startReconciliation_accepted (env : MatchingEnv) (h : body.Accepted org)
    (s : RequestStore) :
    ((startReconciliation env org body).run s).outcome = .ok s.runs.length ∧
      ((startReconciliation env org body).run s).final s = requested env org body s := by
  obtain ⟨hne, rows, hrows⟩ := h
  obtain ⟨ho, hf⟩ := storeRecords_run org body.records s
  rw [hrows] at ho
  rw [startReconciliation_of_ne hne, Session.bind_final ho, Session.bind_ok ho, hf]
  exact ⟨rfl, rfl⟩

theorem startReconciliation_rejected (env : MatchingEnv) (h : ¬ body.Accepted org)
    (s : RequestStore) :
    (∃ e, ((startReconciliation env org body).run s).outcome = .error e) ∧
      (((startReconciliation env org body).run s).final s).records =
        s.records ++ storedRows org body.records := by
  by_cases hempty : body.records = []
  · have hstart : startReconciliation env org body =
        Session.raise (.unprocessable "no records provided") := by
      unfold startReconciliation
      rw [if_pos]
      simpa [ReconciliationRequest.records] using hempty
    rw [hstart, hempty]
    exact ⟨⟨_, rfl⟩, (List.append_nil _).symm⟩
  · obtain ⟨ho, hf⟩ := storeRecords_run org body.records s
    cases hrows : body.records.mapM (domainToRow org) with
    | ok rows => exact absurd ⟨hempty, rows, hrows⟩ h
    | error e =>
      rw [hrows] at ho
      rw [startReconciliation_of_ne hempty, Session.bind_final_error ho, Session.bind_error ho, hf]
      exact ⟨⟨e, rfl⟩, rfl⟩

/-- A request leaves its rows, whether it is accepted or not. -/
theorem startReconciliation_records (env : MatchingEnv) (org : String)
    (body : ReconciliationRequest) (s : RequestStore) :
    (((startReconciliation env org body).run s).final s).records =
      s.records ++ storedRows org body.records := by
  by_cases h : body.Accepted org
  · rw [(startReconciliation_accepted env h s).2]
    rfl
  · exact (startReconciliation_rejected env h s).2

theorem operation_records (env : MatchingEnv) (org : String) (sub : Submission)
    (s : RequestStore) :
    ((((sub.operation org).session env).run s).final s).records = s.records ++ sub.rows org := by
  cases sub with
  | record r =>
    have hloop : ((storeRecords org [r]).run s).commits =
        (((Submission.record r).operation org).session env |>.run s).commits :=
      Session.bind_pure_commits _ (fun _ => ()) s
    rw [← Session.final_congr_commits hloop, (storeRecords_run org [r] s).2, Submission.rows]
  | request body =>
    rw [Submission.operation, Operation.session,
      Session.final_congr_commits (Session.bind_pure_commits _ _ _)]
    exact startReconciliation_records env org body s
  | delivery runId =>
    rw [Submission.operation, Operation.session,
      Session.final_congr_commits (Session.bind_pure_commits _ _ _), Submission.rows,
      List.append_nil]
    have hleaves : Session.Leaves RequestStore.records (runReconciliation env runId) :=
      runReconciliation_leaves (fun _ _ => rfl) env runId
    exact hleaves.final s

theorem operation_versions (env : MatchingEnv) (org : String) (sub : Submission)
    (s : RequestStore) :
    ((((sub.operation org).session env).run s).final s).versions = s.versions := by
  have hleaves : Session.Leaves RequestStore.versions ((sub.operation org).session env) := by
    cases sub with
    | record r => exact .bind (createMatchRecord_leaves (fun _ _ => rfl) org r) fun _ => .pure _
    | request body =>
      exact .bind (startReconciliation_leaves (fun _ _ => rfl) (fun _ _ _ => rfl) env org body)
        fun _ => .pure _
    | delivery runId =>
      exact .bind (runReconciliation_leaves (fun _ _ => rfl) env runId) fun _ => .pure _
  exact hleaves.final s

/-- A history leaves its rows behind those of the store, and no policy version. -/
theorem afterHistory_tables (env : MatchingEnv) (org : String) (history : List Submission)
    (s : RequestStore) :
    (afterHistory env org history s).records = s.records ++ historyRows org history ∧
      (afterHistory env org history s).versions = s.versions := by
  induction history generalizing s with
  | nil => exact ⟨(List.append_nil _).symm, rfl⟩
  | cons sub history ih =>
    obtain ⟨hrecords, hversions⟩ := ih ((((sub.operation org).session env).run s).final s)
    rw [operation_records, List.append_assoc] at hrecords
    rw [operation_versions] at hversions
    exact ⟨hrecords, hversions⟩

/-! ## The outcome of a request -/

/-- The counters of a run and the classifications of its rows, with the ids of their sources. -/
structure RunOutcome where
  counts : Counts
  classifications : List (String × MatchClassification)
  deriving DecidableEq

/-- The outcome of the loop. -/
def LoopState.outcome (st : LoopState) : RunOutcome where
  counts := st.counts
  classifications := st.pending.map fun row => (row.sourceRecordId, row.classification)

/-- The outcome of a request, once the worker has executed its run. -/
def requestOutcome (env : MatchingEnv) (org : String) (body : ReconciliationRequest)
    (s : RequestStore) : Option RunOutcome :=
  let started := (startReconciliation env org body).run s
  started.outcome.toOption.bind fun runId =>
    let queued := started.final s
    let executed := (runReconciliation env runId).run queued
    executed.outcome.toOption.map fun run =>
      { counts := run.counts
        classifications := ((executed.final queued).candidates.drop queued.candidates.length).map
          fun row => (row.sourceRecordId, row.classification) }

/-- The loop of the run that a request queues. -/
def requestLoop (env : MatchingEnv) (org : String) (body : ReconciliationRequest)
    (s : RequestStore) : LoopState :=
  let t := requested env org body s
  let run := queuedRow env org body { s with records := t.records }
  (runConfig env s.runs.length run t).runLoop (runSources env s.runs.length run t)

theorem requestOutcome_accepted (h : body.Accepted org) (s : RequestStore) :
    requestOutcome env org body s = some (requestLoop env org body s).outcome := by
  obtain ⟨ho, hf⟩ := startReconciliation_accepted env h s
  set t := requested env org body s with ht
  set run := queuedRow env org body { s with records := t.records }
  have hrun : t.runs[s.runs.length]? = some run := by
    show (s.runs ++ [run])[s.runs.length]? = some run
    simp
  obtain ⟨ho', hf'⟩ : ((runReconciliation env s.runs.length).run t).outcome = _ ∧
      ((runReconciliation env s.runs.length).run t).final t = _ := runReconciliation_run hrun
  unfold requestOutcome
  dsimp only
  rw [ho, hf]
  show (((runReconciliation env s.runs.length).run t).outcome.toOption.map fun _ => _) = _
  rw [ho', hf', delivered, List.drop_left]
  rfl

theorem requestOutcome_rejected (h : ¬ body.Accepted org) (s : RequestStore) :
    requestOutcome env org body s = none := by
  obtain ⟨⟨e, he⟩, -⟩ := startReconciliation_rejected env h s
  rw [requestOutcome, he]
  rfl

/-! ## The key of the run -/

/-- The state under another run. -/
def LoopState.withRunId (runId : ℕ) (st : LoopState) : LoopState :=
  { st with pending := st.pending.map fun row => { row with runId := runId } }

namespace RunConfig

variable {cfg : RunConfig}

theorem iteration_withRunId (hf : cfg.faults = {}) (runId i : ℕ) (src : MatchRecord)
    (st : LoopState) :
    { cfg with runId := runId }.iteration i src (st.withRunId runId) =
      (cfg.iteration i src st).withRunId runId := by
  have hf' : { cfg with runId := runId }.faults = {} := hf
  by_cases hu : cfg.Unmatched src
  · have hu' : { cfg with runId := runId }.Unmatched src := hu
    rw [iteration_of_unmatched hf hu, iteration_of_unmatched hf' hu']
    rfl
  · obtain ⟨best, hbest⟩ : ∃ best, cfg.decided i src = some best :=
      Option.ne_none_iff_exists'.mp (mt (unmatched_iff hf).mpr hu)
    have hbest' : { cfg with runId := runId }.decided i src = some best := hbest
    rw [iteration_of_decided hbest, iteration_of_decided hbest', hf, if_neg (by simp),
      if_neg (by simp)]
    simp only [LoopState.withRunId, List.map_append, List.map_cons, List.map_nil]
    rfl

/-- The key of a run shows only in its rows. -/
theorem runLoop_withRunId (hf : cfg.faults = {}) (runId : ℕ) (sources : List MatchRecord) :
    { cfg with runId := runId }.runLoop sources = (cfg.runLoop sources).withRunId runId := by
  have hloop : ∀ (i : ℕ) (st : LoopState), { cfg with runId := runId }.loop i
      (st.withRunId runId) sources = (cfg.loop i st sources).withRunId runId := by
    induction sources with
    | nil => exact fun _ _ => rfl
    | cons src sources ih =>
      intro i st
      rw [loop, loop, iteration_withRunId hf, ih]
  exact hloop 0 (initialState sources)

/-- A row of a run is that of a source with a match. -/
theorem source_of_pending (hf : cfg.faults = {}) (sources : List MatchRecord) :
    ∀ row ∈ (cfg.runLoop sources).pending,
      ∃ src ∈ sources, src.recordId = row.sourceRecordId ∧ ¬ cfg.Unmatched src := by
  refine (loop_induction (P := fun st => ∀ row ∈ st.pending,
    ∃ src ∈ sources, src.recordId = row.sourceRecordId ∧ ¬ cfg.Unmatched src)
    (by simp [initialState]) fun v hv hst row hrow => ?_).2
  by_cases hu : cfg.Unmatched v.source
  · rw [after, iteration_of_unmatched hf hu] at hrow
    exact hst row hrow
  · obtain ⟨best, hbest⟩ : ∃ best, cfg.decided v.index v.source = some best :=
      Option.ne_none_iff_exists'.mp (mt (unmatched_iff hf).mpr hu)
    rw [after, iteration_of_decided hbest, hf, if_neg (by simp)] at hrow
    rcases List.mem_append.mp hrow with hrow | hrow
    · exact hst row hrow
    · obtain rfl := List.mem_singleton.mp hrow
      exact ⟨v.source, List.mem_of_getElem? (visits_source hv), rfl, hu⟩

theorem total_runLoop (hf : cfg.faults = {}) (sources : List MatchRecord) :
    (cfg.runLoop sources).counts.total = sources.length := by
  refine (counted_loop fun v _ => isolated_iff.mpr fun _ => ?_).2
  rw [hf]

end RunConfig

theorem LoopState.outcome_withRunId (runId : ℕ) (st : LoopState) :
    (st.withRunId runId).outcome = st.outcome := by
  simp [LoopState.outcome, LoopState.withRunId]

/-! ## Collisions -/

/-- The outcomes that a request may have, over the orders in which rows are returned. -/
def possibleOutcomes (unicode : Unicode) (fuzz : Fuzz) (org : String)
    (body : ReconciliationRequest) (s : RequestStore) : Set (Option RunOutcome) :=
  {x | ∃ recordOrder versionOrder,
    requestOutcome ⟨unicode, fuzz, recordOrder, versionOrder⟩ org body s = x}

/-- A request with these record ids has the outcomes that it has without the history. -/
def Independent (unicode : Unicode) (fuzz : Fuzz) (org : String) (history : List Submission)
    (ids : RunDatasets) : Prop :=
  ∀ (env : MatchingEnv) (s : RequestStore) (body : ReconciliationRequest), body.datasets = ids →
    possibleOutcomes unicode fuzz org body (afterHistory env org history s) =
      possibleOutcomes unicode fuzz org body s

/-- No record that the history stored has the id of a source record or, if there are sources, of
a candidate record. -/
def NoCollision (org : String) (history : List Submission) (ids : RunDatasets) : Prop :=
  ∀ row ∈ historyRows org history, row.recordId ∉ ids.sourceIds ∧
    (ids.sourceIds ≠ [] → row.recordId ∉ ids.candidateIds)

/-- Stores with the versions of `s` return what `s` returns where they have the same rows. -/
theorem exists_orders (env : MatchingEnv) (s : RequestStore) (rows : List MatchRecord) :
    ∃ recordOrder versionOrder, ∀ t, t.records = rows → t.versions = s.versions →
      (∀ org ids, rows.filter (hasRecordId org ids) = s.records.filter (hasRecordId org ids) →
        loadRecords ⟨env.unicode, env.fuzz, recordOrder, versionOrder⟩ org ids t =
          loadRecords env org ids s) ∧
      ∀ org policyId,
        getPublishedPolicy ⟨env.unicode, env.fuzz, recordOrder, versionOrder⟩ org policyId t =
          getPublishedPolicy env org policyId s := by
  obtain ⟨recordOrder, hselect⟩ := env.recordOrder.exists_select s rows
  refine ⟨recordOrder, env.versionOrder.pin s, fun t hrecords hversions =>
    ⟨fun org ids hfilter => ?_, fun org policyId => ?_⟩⟩
  · have hmap : ∀ l : List (ℕ × MatchRecord),
        l.map (fun r => rowToDomain r.2) = (l.map (·.2)).map rowToDomain := by simp
    rw [loadRecords, loadRecords, hmap, hmap]
    exact congrArg _ (hselect t hrecords _ hfilter)
  · cases policyId with
    | none => rfl
    | some policyId =>
      unfold getPublishedPolicy
      dsimp only
      have hpolicy : policyVersions ⟨env.unicode, env.fuzz, recordOrder, env.versionOrder.pin s⟩
          org policyId t = policyVersions env org policyId s := by
        rw [policyVersions, policyVersions]
        dsimp only
        rw [RowOrder.pin_select _ hversions]
      rw [hpolicy]

/-- The settings of the run of a request, from what the worker loads. -/
def requestConfig (env : MatchingEnv) (org : String) (body : ReconciliationRequest)
    (t : RequestStore) (runId : ℕ) : RunConfig where
  unicode := env.unicode
  fuzz := env.fuzz
  organizationId := org
  runId := runId
  candidateRecords := loadRecords env org body.datasets.candidateIds t
  policy := getPublishedPolicy env org body.policyId t

theorem requestLoop_eq (env : MatchingEnv) (org : String) (body : ReconciliationRequest)
    (s : RequestStore) :
    requestLoop env org body s =
      (requestConfig env org body (requested env org body s) s.runs.length).runLoop
        (loadRecords env org body.datasets.sourceIds (requested env org body s)) := by
  have hdatasets : (requested env org body s).datasets s.runs.length = body.datasets := if_pos rfl
  unfold requestLoop runConfig runSources
  dsimp only
  rw [hdatasets]
  rfl

theorem loadRecords_nil (env : MatchingEnv) (org : String) (s : RequestStore) :
    loadRecords env org [] s = [] := by
  rw [← List.length_eq_zero_iff, loadRecords, List.length_map, RowOrder.select_length,
    List.countP_eq_zero]
  simp [hasRecordId]

/-- Where the worker finds the same rows, the outcomes are the same. -/
theorem possibleOutcomes_subset (unicode : Unicode) (fuzz : Fuzz) {s t : RequestStore}
    (hversions : t.versions = s.versions)
    (hsources : t.records.filter (hasRecordId org body.datasets.sourceIds) =
      s.records.filter (hasRecordId org body.datasets.sourceIds))
    (hcandidates : body.datasets.sourceIds ≠ [] →
      t.records.filter (hasRecordId org body.datasets.candidateIds) =
        s.records.filter (hasRecordId org body.datasets.candidateIds)) :
    possibleOutcomes unicode fuzz org body s ⊆ possibleOutcomes unicode fuzz org body t := by
  rintro x ⟨recordOrder, versionOrder, rfl⟩
  by_cases hacc : body.Accepted org
  · set env : MatchingEnv := ⟨unicode, fuzz, recordOrder, versionOrder⟩
    obtain ⟨recordOrder', versionOrder', horders⟩ := exists_orders env (requested env org body s)
      (t.records ++ storedRows org body.records)
    refine ⟨recordOrder', versionOrder', ?_⟩
    set env' : MatchingEnv := ⟨unicode, fuzz, recordOrder', versionOrder'⟩
    obtain ⟨hload, hpolicy⟩ := horders (requested env' org body t) rfl hversions
    have happend : ∀ ids, t.records.filter (hasRecordId org ids) =
        s.records.filter (hasRecordId org ids) →
          (t.records ++ storedRows org body.records).filter (hasRecordId org ids) =
            (requested env org body s).records.filter (hasRecordId org ids) := by
      intro ids h
      show _ = (s.records ++ _).filter _
      rw [List.filter_append, List.filter_append, h]
    have hloop : (requestLoop env' org body t).outcome = (requestLoop env org body s).outcome := by
      rw [requestLoop_eq, requestLoop_eq]
      by_cases hempty : body.datasets.sourceIds = []
      · rw [hempty, loadRecords_nil, loadRecords_nil]
        rfl
      · have hs := hload org body.datasets.sourceIds (happend _ hsources)
        have hc := hload org body.datasets.candidateIds (happend _ (hcandidates hempty))
        have hp := hpolicy org body.policyId
        change loadRecords env' org _ (requested env' org body t) = _ at hs hc
        change getPublishedPolicy env' org _ (requested env' org body t) = _ at hp
        have hconfig : requestConfig env' org body (requested env' org body t) t.runs.length =
            { requestConfig env org body (requested env org body s) s.runs.length with
              runId := t.runs.length } := by
          simp only [requestConfig, hc, hp]
          rfl
        rw [hs, hconfig, RunConfig.runLoop_withRunId rfl, LoopState.outcome_withRunId]
    rw [requestOutcome_accepted hacc, requestOutcome_accepted hacc, hloop]
  · exact ⟨recordOrder, versionOrder, by
      rw [requestOutcome_rejected hacc, requestOutcome_rejected hacc]⟩

theorem mem_loadRecords {env : MatchingEnv} {ids : List String} {r : MatchRecord} :
    r ∈ loadRecords env org ids s ↔
      ∃ row ∈ s.records, hasRecordId org ids row ∧ rowToDomain row = r := by
  have hmap : loadRecords env org ids s =
      ((env.recordOrder.select s (hasRecordId org ids)).map (·.2)).map rowToDomain := by
    simp [loadRecords]
  rw [hmap, List.mem_map]
  simp only [(env.recordOrder.select_perm s _).mem_iff, List.mem_filter, and_assoc]

theorem length_loadRecords (env : MatchingEnv) (org : String) (ids : List String)
    (s : RequestStore) :
    (loadRecords env org ids s).length = s.records.countP (hasRecordId org ids) := by
  rw [loadRecords, List.length_map, RowOrder.select_length]

/-- The total of a run counts the rows with the id of a source. -/
theorem total_requestLoop (env : MatchingEnv) (org : String) (body : ReconciliationRequest)
    (s : RequestStore) :
    (requestLoop env org body s).counts.total =
      (s.records ++ storedRows org body.records).countP
        (hasRecordId org body.datasets.sourceIds) := by
  rw [requestLoop_eq, RunConfig.total_runLoop rfl, length_loadRecords]
  rfl

theorem domainToRow_organizationId {r row : MatchRecord} (h : domainToRow org r = .ok row) :
    row.organizationId = org := by
  unfold domainToRow at h
  split at h
  · cases h
    rfl
  · obtain ⟨amount, -, h⟩ := Except.bind_eq_ok.mp h
    cases Except.pure_eq_ok.mp h
    rfl

theorem organizationId_of_storedRows {rs : List MatchRecord} :
    ∀ row ∈ storedRows org rs, row.organizationId = org := by
  induction rs with
  | nil => simp [storedRows]
  | cons r rs ih =>
    intro row hrow
    rw [storedRows] at hrow
    split at hrow
    · cases hrow
    · rename_i first hfirst
      rcases List.mem_cons.mp hrow with rfl | hrow
      · exact domainToRow_organizationId hfirst
      · exact ih row hrow

theorem organizationId_of_historyRows (history : List Submission) :
    ∀ row ∈ historyRows org history, row.organizationId = org := by
  intro row hrow
  obtain ⟨sub, -, hrow⟩ := List.mem_flatMap.mp hrow
  cases sub with
  | record r => exact organizationId_of_storedRows row hrow
  | request body => exact organizationId_of_storedRows row hrow
  | delivery runId => cases hrow

/-! ## A request that notices -/

/-- Under this policy every pair matches whose names do not differ. -/
def lenientPolicy (org : String) : MatchingPolicy where
  organizationId := org
  name := "lenient"
  thresholds := [("matched", 0)]

/-- A store whose only policy is the lenient one. -/
def lenientStore (org : String) : RequestStore where
  policies := [⟨org, "lenient", "PUBLISHED"⟩]
  versions := [versionRow org 0 1 (lenientPolicy org)]

/-- A record that is set apart by its currency when it has the given id. -/
def probe (org sid currency id : String) : MatchRecord where
  recordId := id
  recordType := .payment
  organizationId := org
  currency := some (if id = sid then currency else currency ++ "!")

/-- The request with these ids whose records are probes. -/
def probeRequest (org sid currency : String) (ids : RunDatasets) : ReconciliationRequest where
  sourceRecords := ids.sourceIds.map (probe org sid currency)
  candidateRecords := ids.candidateIds.map (probe org sid currency)
  policyId := some 0

variable {sid currency : String} {ids : RunDatasets}

theorem probeRequest_datasets : (probeRequest org sid currency ids).datasets = ids := by
  have hids : ∀ l : List String, (l.map (probe org sid currency)).map (·.recordId) = l := by
    intro l
    rw [List.map_map]
    exact List.map_id l
  simp only [ReconciliationRequest.datasets, probeRequest, hids]

theorem probeRequest_records : (probeRequest org sid currency ids).records =
    (ids.sourceIds ++ ids.candidateIds).map (probe org sid currency) := by
  rw [List.map_append]
  rfl

theorem stored_probes (l : List String) :
    (l.map (probe org sid currency)).mapM (domainToRow org) =
        .ok (l.map (probe org sid currency)) ∧
      storedRows org (l.map (probe org sid currency)) = l.map (probe org sid currency) := by
  induction l with
  | nil => exact ⟨rfl, rfl⟩
  | cons id l ih =>
    have hrow : domainToRow org (probe org sid currency id) = .ok (probe org sid currency id) := rfl
    rw [List.map_cons, List.mapM_cons, storedRows, hrow, ih.1, ih.2]
    exact ⟨rfl, rfl⟩

theorem probeRequest_accepted (h : ids.sourceIds ≠ []) :
    (probeRequest org sid currency ids).Accepted org := by
  rw [ReconciliationRequest.Accepted, probeRequest_records]
  exact ⟨by simp [h], _, (stored_probes _).1⟩

theorem probeRequest_requested (env : MatchingEnv) (s : RequestStore) :
    (requested env org (probeRequest org sid currency ids) s).records =
      s.records ++ (ids.sourceIds ++ ids.candidateIds).map (probe org sid currency) := by
  show s.records ++ storedRows org _ = _
  rw [probeRequest_records, (stored_probes _).2]

/-- The policy that the worker resolves for the probes. -/
theorem lenient_published (env : MatchingEnv) (h : s.versions = (lenientStore org).versions) :
    getPublishedPolicy env org (some 0) s =
      versionPolicy org (versionRow org 0 1 (lenientPolicy org)) := by
  have hversions : versionsOf org 0 s = [versionRow org 0 1 (lenientPolicy org)] := by
    rw [versionsOf, h]
    simp [lenientStore, ofPolicy_versionRow]
  have hnumbered : Numbered s := by
    intro org' policyId i v hv
    have hmem := List.mem_of_getElem? hv
    rw [versionsOf, h] at hv hmem
    obtain rfl : v = versionRow org 0 1 (lenientPolicy org) :=
      List.mem_singleton.mp (List.mem_of_mem_filter hmem)
    have hlength := (List.length_filter_le (ofPolicy org' policyId) (lenientStore org).versions)
    have hi := (List.getElem?_eq_some_iff.mp hv).1
    have hone : (lenientStore org).versions.length = 1 := rfl
    show 1 = i + 1
    omega
  rw [getPublishedPolicy_of_numbered env hnumbered, hversions]
  rfl

/-- The lenient policy matches a record without names with every other record. -/
theorem matched_lenient (u : Unicode) (fuzz : Fuzz) {src : MatchRecord} (cand : MatchRecord)
    (hd : src.debtorName = none) (hc : src.creditorName = none) (v : String) :
    (evaluatePair u fuzz src cand (versionPolicy org (versionRow org 0 1 (lenientPolicy org)))
      v).classification = .matched := by
  have hnames : ¬ NamesConflict u fuzz
      (versionPolicy org (versionRow org 0 1 (lenientPolicy org))) src cand := by
    rintro ⟨field, hfield, a, ha, -⟩
    have hname : field = .debtorName ∨ field = .creditorName := by simpa using hfield
    rcases hname with rfl | rfl
    · simp [normalizeRecord, normalizeText, hd] at ha
    · simp [normalizeRecord, normalizeText, hc] at ha
  refine matched_of_noConflict ((conflicts_of_names rfl).mpr hnames) ?_
  have hscore : (evaluatePair u fuzz src cand
      (versionPolicy org (versionRow org 0 1 (lenientPolicy org))) v).matchScore = 0 := by
    refine score_of_weightless fun fr hfr => ?_
    obtain ⟨field, -, rfl⟩ := List.mem_map.mp hfr
    rw [fieldResult_weight]
    rfl
  rw [hscore]
  exact Rat.le_refl

theorem unmatched_of_decisionsFor {cfg : RunConfig} {src : MatchRecord}
    (h : cfg.decisionsFor src = []) : cfg.Unmatched src := by
  rw [RunConfig.Unmatched, RunConfig.ranked_eq_nil.mpr h]
  simp

/-- A source with candidates of which each one matches. -/
theorem not_unmatched_of_decisionsFor {cfg : RunConfig} {src : MatchRecord}
    (hne : cfg.decisionsFor src ≠ [])
    (h : ∀ d ∈ cfg.decisionsFor src, d.2.classification = .matched) : ¬ cfg.Unmatched src := by
  intro hu
  obtain ⟨best, rest, hr⟩ := List.exists_cons_of_ne_nil (mt RunConfig.ranked_eq_nil.mp hne)
  have hmem : best ∈ cfg.decisionsFor src := by
    rw [← List.mem_insertionSort (r := fun a b => b.2.matchScore ≤ a.2.matchScore)]
    rw [RunConfig.ranked] at hr
    rw [hr]
    exact List.mem_cons_self
  have hbest := hu best (by rw [hr]; rfl)
  rw [h best hmem] at hbest
  cases hbest

/-- Among themselves the probe of the given id finds no candidate. -/
theorem probe_alone (u : Unicode) (fuzz : Fuzz) (policy : MatchingPolicy) (runId : ℕ)
    {src : MatchRecord} {cands : List MatchRecord} (hsid : src.recordId = sid)
    (hcurrency : currency ≠ "") (hsrc : ∃ id, rowToDomain (probe org sid currency id) = src)
    (hcands : ∀ cand ∈ cands, ∃ id, rowToDomain (probe org sid currency id) = cand) :
    { unicode := u, fuzz := fuzz, organizationId := org, runId := runId
      candidateRecords := cands, policy := policy : RunConfig }.Unmatched src := by
  obtain ⟨id, rfl⟩ := hsrc
  obtain rfl : id = sid := hsid
  refine unmatched_of_decisionsFor ?_
  have hnone : ∀ cand ∈ cands, ¬ (cand.recordId ≠ id ∧ candidateMatches u cand
      (narrowingCriteria u (rowToDomain (probe org id currency id)) policy) = true) := by
    rintro cand hcand ⟨hne, hmatch⟩
    obtain ⟨id', rfl⟩ := hcands cand hcand
    have hid : id' ≠ id := hne
    have hlength : (currency ++ "!").length = currency.length + 1 :=
      String.length_append _ _
    have hother : currency ++ "!" ≠ currency := by
      intro h
      rw [h] at hlength
      omega
    have hother' : currency ++ "!" ≠ "" := by
      intro h
      rw [h] at hlength
      simp at hlength
    have hfits := ((candidateMatches_iff u _ _).mp hmatch).1
    have hcrit : (narrowingCriteria u (rowToDomain (probe org id currency id)) policy).currency =
        some currency := by
      show (some (if id = id then currency else currency ++ "!")).filter (· ≠ "") = _
      rw [if_pos rfl, filter_of_ne hcurrency]
    have hcand' : (rowToDomain (probe org id currency id')).currency = some (currency ++ "!") := by
      show some (if id' = id then currency else currency ++ "!") = _
      rw [if_neg hid]
    rw [CurrencyFits, hcrit, hcand'] at hfits
    exact hother (Option.some.inj (hfits (Text.truthy_some.mpr hcurrency)
      (Text.truthy_some.mpr hother')))
  have hfilter : filterCandidates u (rowToDomain (probe org id currency id)) cands policy
      defaultMaxCandidates = [] := by
    have hnil : cands.filter (fun cand => cand.recordId ≠ id && candidateMatches u cand
        (narrowingCriteria u (rowToDomain (probe org id currency id)) policy)) = [] := by
      rw [List.filter_eq_nil_iff]
      intro cand hcand hboth
      exact hnone cand hcand (by simpa using hboth)
    exact (congrArg (List.take _) hnil).trans List.take_nil
  rw [RunConfig.decisionsFor, hfilter, List.map_nil]

/-- The probe of the given id finds a record from elsewhere, unless the currencies differ. -/
theorem probe_matched (u : Unicode) (fuzz : Fuzz) (runId : ℕ) {cands : List MatchRecord}
    {row : MatchRecord} (hrow : row ∈ cands) (hne : row.recordId ≠ sid) (hempty : currency ≠ "")
    (hcurrency : Text.truthy row.currency → row.currency = some currency) :
    ¬ { unicode := u, fuzz := fuzz, organizationId := org, runId := runId
        candidateRecords := cands
        policy := versionPolicy org (versionRow org 0 1 (lenientPolicy org))
        : RunConfig }.Unmatched (rowToDomain (probe org sid currency sid)) := by
  set src := rowToDomain (probe org sid currency sid)
  set policy := versionPolicy org (versionRow org 0 1 (lenientPolicy org))
  have hmatch : candidateMatches u row (narrowingCriteria u src policy) := by
    refine (candidateMatches_iff u _ _).mpr ⟨?_, ?_, ?_, ?_, ?_⟩
    · intro _ hrow
      have hkey : (narrowingCriteria u src policy).currency = some currency := by
        show (some (if sid = sid then currency else currency ++ "!")).filter (· ≠ "") = _
        rw [if_pos rfl, filter_of_ne hempty]
      rw [hkey]
      exact hcurrency hrow
    · intro range hrange
      have hnone : (narrowingCriteria u src policy).amountRange = none := by
        unfold narrowingCriteria
        dsimp only
        split_ifs <;> rfl
      rw [hnone] at hrange
      cases hrange
    · exact .inl rfl
    · rintro pre hpre
      cases hpre
    · rintro account haccount
      cases haccount
  refine not_unmatched_of_decisionsFor ?_ ?_
  · have hfiltered : row ∈ cands.filter fun cand => cand.recordId ≠ src.recordId &&
        candidateMatches u cand (narrowingCriteria u src policy) :=
      List.mem_filter.mpr ⟨hrow, by
        rw [hmatch, Bool.and_true]
        exact decide_eq_true hne⟩
    have hnonempty : filterCandidates u src cands policy defaultMaxCandidates ≠ [] := by
      intro hnil
      rcases List.take_eq_nil_iff.mp hnil with hzero | hempty
      · cases hzero
      · rw [hempty] at hfiltered
        cases hfiltered
    simpa [RunConfig.decisionsFor] using hnonempty
  · intro d hd
    obtain ⟨cand, -, rfl⟩ := List.mem_map.mp hd
    exact matched_lenient u fuzz cand rfl rfl _

variable {unicode : Unicode} {fuzz : Fuzz} {history : List Submission}

/-- What an independent request of probes would have to show without the history. -/
theorem probes_agree (h : Independent unicode fuzz org history ids) (hne : ids.sourceIds ≠ [])
    (sid currency : String) :
    let env : MatchingEnv := ⟨unicode, fuzz, .insertion _ _, .insertion _ _⟩
    let body := probeRequest org sid currency ids
    ∃ recordOrder versionOrder,
      (requestLoop ⟨unicode, fuzz, recordOrder, versionOrder⟩ org body (lenientStore org)).outcome =
        (requestLoop env org body (afterHistory env org history (lenientStore org))).outcome := by
  intro env body
  have hin : requestOutcome env org body (afterHistory env org history (lenientStore org)) ∈
      possibleOutcomes unicode fuzz org body (lenientStore org) := by
    rw [← h env (lenientStore org) body probeRequest_datasets]
    exact ⟨_, _, rfl⟩
  obtain ⟨recordOrder, versionOrder, heq⟩ := hin
  have hacc : body.Accepted org := probeRequest_accepted hne
  rw [requestOutcome_accepted hacc, requestOutcome_accepted hacc] at heq
  exact ⟨recordOrder, versionOrder, Option.some.inj heq⟩

/-- A record of the history under the id of a source is one more source. -/
theorem sources_of_independent (h : Independent unicode fuzz org history ids) :
    ∀ row ∈ historyRows org history, row.recordId ∉ ids.sourceIds := by
  intro row hrow hmem
  obtain ⟨recordOrder, versionOrder, heq⟩ :=
    probes_agree h (List.ne_nil_of_mem hmem) "" "EUR"
  have htotal : (requestLoop _ org _ (lenientStore org)).counts.total =
      (requestLoop _ org _ (afterHistory _ org history (lenientStore org))).counts.total :=
    congrArg (·.counts.total) heq
  rw [total_requestLoop, total_requestLoop, probeRequest_datasets,
    (afterHistory_tables _ _ _ _).1] at htotal
  simp only [lenientStore, List.nil_append, List.countP_append] at htotal
  have hpos : 0 < (historyRows org history).countP (hasRecordId org ids.sourceIds) := by
    rw [List.countP_pos_iff]
    refine ⟨row, hrow, ?_⟩
    simp [hasRecordId, organizationId_of_historyRows history row hrow, hmem]
  omega

/-- A record of the history under the id of a candidate matches some source. -/
theorem candidates_of_independent (h : Independent unicode fuzz org history ids) :
    ∀ row ∈ historyRows org history, ids.sourceIds ≠ [] → row.recordId ∉ ids.candidateIds := by
  intro row hrow hne hmem
  obtain ⟨sid, rest, hids⟩ := List.exists_cons_of_ne_nil hne
  have hsid : sid ∈ ids.sourceIds := by rw [hids]; exact List.mem_cons_self
  have hrowId : row.recordId ≠ sid := by
    rintro rfl
    exact sources_of_independent h row hrow hsid
  obtain ⟨currency, hempty, hcurrency⟩ : ∃ currency, currency ≠ "" ∧
      (Text.truthy row.currency → row.currency = some currency) := by
    by_cases htruthy : Text.truthy row.currency
    · obtain ⟨currency, hsome, hne⟩ := Text.truthy_iff.mp htruthy
      exact ⟨currency, hne, fun _ => hsome⟩
    · exact ⟨"EUR", by decide, fun h => absurd h htruthy⟩
  obtain ⟨recordOrder, versionOrder, heq⟩ := probes_agree h hne sid currency
  set body := probeRequest org sid currency ids
  set env : MatchingEnv := ⟨unicode, fuzz, .insertion _ _, .insertion _ _⟩
  set env' : MatchingEnv := ⟨unicode, fuzz, recordOrder, versionOrder⟩
  set t := afterHistory env org history (lenientStore org)
  -- with the history, the probe has a row
  have hwith : ∃ row ∈ (requestLoop env org body t).pending, row.sourceRecordId = sid := by
    have htables := afterHistory_tables env org history (lenientStore org)
    have hpolicy : getPublishedPolicy env org body.policyId (requested env org body t) = _ :=
      lenient_published env htables.2
    have hsource : rowToDomain (probe org sid currency sid) ∈
        loadRecords env org ids.sourceIds (requested env org body t) := by
      refine mem_loadRecords.mpr ⟨probe org sid currency sid, ?_, ?_, rfl⟩
      · rw [probeRequest_requested]
        exact List.mem_append_right _ (List.mem_map_of_mem (List.mem_append_left _ hsid))
      · simp [hasRecordId, probe, hsid]
    have hfound : rowToDomain row ∈
        loadRecords env org ids.candidateIds (requested env org body t) := by
      refine mem_loadRecords.mpr ⟨row, ?_, ?_, rfl⟩
      · rw [probeRequest_requested, htables.1]
        exact List.mem_append_left _ (List.mem_append_right _ hrow)
      · simp [hasRecordId, organizationId_of_historyRows history row hrow, hmem]
    rw [requestLoop_eq, probeRequest_datasets]
    refine RunConfig.exists_row rfl hsource ?_
    rw [requestConfig, hpolicy, probeRequest_datasets]
    exact probe_matched unicode fuzz _ hfound hrowId hempty hcurrency
  -- without it, the probe has none
  have hwithout : ∀ row ∈ (requestLoop env' org body (lenientStore org)).pending,
      row.sourceRecordId ≠ sid := by
    have hprobe : ∀ ids', ∀ r ∈ loadRecords env' org ids' (requested env' org body
        (lenientStore org)), ∃ id, rowToDomain (probe org sid currency id) = r := by
      intro ids' r hr
      obtain ⟨row, hrow, -, rfl⟩ := mem_loadRecords.mp hr
      rw [probeRequest_requested] at hrow
      obtain ⟨id, -, rfl⟩ := List.mem_map.mp hrow
      exact ⟨id, rfl⟩
    rintro found hfound rfl
    rw [requestLoop_eq] at hfound
    obtain ⟨src, hsrc, hid, hmatched⟩ := RunConfig.source_of_pending rfl _ found hfound
    exact hmatched (probe_alone unicode fuzz _ _ hid hempty (hprobe _ src hsrc) (hprobe _))
  obtain ⟨found, hfound, hsource⟩ := hwith
  have hclass := congrArg RunOutcome.classifications heq
  have hmem : (sid, found.classification) ∈
      ((requestLoop env' org body (lenientStore org)).outcome).classifications := by
    rw [hclass]
    exact List.mem_map.mpr ⟨found, hfound, by rw [hsource]⟩
  obtain ⟨other, hother, hpair⟩ := List.mem_map.mp hmem
  exact hwithout other hother (congrArg Prod.fst hpair)

/-- Without a collision the worker loads what it would load without the history. -/
theorem filter_afterHistory (env : MatchingEnv) {l : List String}
    (h : ∀ row ∈ historyRows org history, row.recordId ∉ l) (s : RequestStore) :
    (afterHistory env org history s).records.filter (hasRecordId org l) =
      s.records.filter (hasRecordId org l) := by
  have hnil : (historyRows org history).filter (hasRecordId org l) = [] := by
    rw [List.filter_eq_nil_iff]
    intro row hrow
    simp [hasRecordId, h row hrow]
  rw [(afterHistory_tables env org history s).1, List.filter_append, hnil, List.append_nil]

/-- The requests with some record ids have the outcomes that they have without the history exactly
when the history stored no record that the worker would load for them. -/
theorem independent_iff (unicode : Unicode) (fuzz : Fuzz) (org : String)
    (history : List Submission) (ids : RunDatasets) :
    Independent unicode fuzz org history ids ↔ NoCollision org history ids := by
  constructor
  · intro h row hrow
    exact ⟨sources_of_independent h row hrow, candidates_of_independent h row hrow⟩
  · rintro h env s body rfl
    have hversions := (afterHistory_tables env org history s).2
    have hsources := filter_afterHistory env (fun row hrow => (h row hrow).1) s
    have hcandidates : body.datasets.sourceIds ≠ [] → _ := fun hne =>
      filter_afterHistory env (fun row hrow => (h row hrow).2 hne) s
    refine Set.Subset.antisymm ?_ ?_
    · exact possibleOutcomes_subset unicode fuzz hversions.symm hsources.symm
        fun hne => (hcandidates hne).symm
    · exact possibleOutcomes_subset unicode fuzz hversions hsources hcandidates

/-- A request of one source and one candidate. -/
def invoiceRequest : ReconciliationRequest where
  sourceRecords := [RunConfig.recordOf "s" "A"]
  candidateRecords := [RunConfig.recordOf "c" "A"]

/-- Submitted again, the request is a run over two sources. -/
theorem resubmitted :
    ¬ Independent .ascii .equality "org" [.request invoiceRequest] invoiceRequest.datasets := by
  intro h
  have hagain : (requestOutcome .insertion "org" invoiceRequest
      (afterHistory .insertion "org" [.request invoiceRequest] {})).map (·.counts.total) =
        some 2 := by
    decide +kernel
  have hin : requestOutcome .insertion "org" invoiceRequest
      (afterHistory .insertion "org" [.request invoiceRequest] {}) ∈
        possibleOutcomes .ascii .equality "org" invoiceRequest {} := by
    rw [← h .insertion {} invoiceRequest rfl]
    exact ⟨_, _, rfl⟩
  obtain ⟨recordOrder, versionOrder, hfirst⟩ := hin
  have hacc : invoiceRequest.Accepted "org" := ⟨by decide, _, rfl⟩
  rw [← hfirst, requestOutcome_accepted hacc] at hagain
  have htotal : (requestLoop _ "org" invoiceRequest {}).counts.total = 2 := Option.some.inj hagain
  rw [total_requestLoop] at htotal
  exact absurd htotal (by decide)

end PaymentOps.Matching
