import PaymentOps.Matching.OneToOne
import PaymentOps.Matching.Requests

/-!
# A task that is delivered more than once

The queue acknowledges a task after its execution, so a run may be executed again.  The executor
does not look at the status of the run: each delivery adds the rows of the run once more.

* `deliveredOnce_iff`: further deliveries change nothing exactly when a delivery has no row to
  add, in whatever order the records are loaded;
* `rows_added_twice` is a run of one source and one candidate with two deliveries.
-/

namespace PaymentOps.Matching

namespace RunConfig

variable {cfg : RunConfig} {i : ℕ} {src : MatchRecord} {sources : List MatchRecord} {st : LoopState}

/-- No candidate of the source is worth persisting. -/
def Unmatched (cfg : RunConfig) (src : MatchRecord) : Prop :=
  ∀ best ∈ (cfg.ranked src).head?, best.2.classification = .unmatched

instance : Decidable (cfg.Unmatched src) := inferInstanceAs (Decidable (∀ _ ∈ _, _))

theorem decided_of_faultless (hf : cfg.faults = {}) (i : ℕ) (src : MatchRecord) :
    cfg.decided i src = (cfg.ranked src).head?.filter (·.2.classification ≠ .unmatched) := by
  rw [decided, hf, if_neg (by simp)]

theorem unmatched_iff (hf : cfg.faults = {}) : cfg.Unmatched src ↔ cfg.decided i src = none := by
  rw [decided_of_faultless hf, Option.filter_eq_none_iff]
  simp [Unmatched]

/-- A source without a match is counted as unmatched. -/
theorem iteration_of_unmatched (hf : cfg.faults = {}) (h : cfg.Unmatched src) :
    cfg.iteration i src st = { st with counts := st.counts.bump .unmatched } := by
  by_cases hd : cfg.decisionsFor src = []
  · simp [iteration, processSource, SourceM.raiseIf, SourceM.bump, hf, hd]
  · obtain ⟨best, rest, hr⟩ := List.exists_cons_of_ne_nil (mt ranked_eq_nil.mp hd)
    have hu : best.2.classification = .unmatched := h best (by rw [hr]; rfl)
    simp [iteration, processSource, SourceM.raiseIf, SourceM.bump, hf, hd, hr, hu]

theorem loop_of_unmatched (hf : cfg.faults = {}) (h : ∀ src ∈ sources, cfg.Unmatched src) :
    cfg.loop i st sources =
      { st with
        counts := { st.counts with unmatched := st.counts.unmatched + sources.length } } := by
  induction sources generalizing i st with
  | nil => rfl
  | cons src sources ih =>
    rw [loop, iteration_of_unmatched hf (h src (by simp)), ih fun y hy => h y (by simp [hy])]
    simp only [Counts.bump, List.length_cons]
    congr 2
    omega

theorem runLoop_of_unmatched (hf : cfg.faults = {}) (h : ∀ src ∈ sources, cfg.Unmatched src) :
    cfg.runLoop sources =
      { counts := { total := sources.length, unmatched := sources.length } } := by
  rw [runLoop, loop_of_unmatched hf h]
  simp [initialState]

/-- A source with a match gets a row. -/
theorem exists_row (hf : cfg.faults = {}) (hsrc : src ∈ sources) (h : ¬ cfg.Unmatched src) :
    ∃ row ∈ (cfg.runLoop sources).pending, row.sourceRecordId = src.recordId := by
  obtain ⟨i, hi⟩ := List.mem_iff_getElem?.mp hsrc
  obtain ⟨v, hv, rfl, rfl⟩ := cfg.exists_visit hi
  rcases hd : cfg.decided v.index v.source with _ | best
  · exact absurd ((unmatched_iff hf).mpr hd) h
  · let row := cfg.candidateRow v.source best.1 best.2 (cfg.verdict v.source best v.before).1
    have hrow : row ∈ (cfg.after v).pending := by
      rw [after, iteration_of_decided hd, hf, if_neg (by simp)]
      exact List.mem_append_right _ List.mem_cons_self
    exact ⟨row, (after_pending hv).subset hrow, rfl⟩

end RunConfig

/-! ## Deliveries -/

section

variable (env : MatchingEnv) (runId : ℕ)

/-- The store after a number of deliveries of the task of a run. -/
def afterDeliveries : ℕ → RequestStore → RequestStore
  | 0, s => s
  | k + 1, s => afterDeliveries k (((runReconciliation env runId).run s).final s)

/-- Any number of deliveries leaves the rows, with the decisions on them, and the run, with its
status and counters, as one delivery leaves them. -/
def DeliveredOnce (s : RequestStore) : Prop :=
  ∀ k ≥ 1, (afterDeliveries env runId k s).candidates = (afterDeliveries env runId 1 s).candidates ∧
    (afterDeliveries env runId k s).runs = (afterDeliveries env runId 1 s).runs

/-- No source of the run has a candidate worth persisting. -/
def NothingToPersist (s : RequestStore) : Prop :=
  ∀ run, s.runs[runId]? = some run → ∀ src ∈ runSources env runId run s,
    (runConfig env runId run s).Unmatched src

end

variable {env : MatchingEnv} {runId : ℕ} {run run' : MatchRun} {s t : RequestStore}

/-- The stores agree on everything that an execution of the run reads. -/
structure SameInputs (s t : RequestStore) : Prop where
  datasets : t.datasets = s.datasets
  versions : t.versions = s.versions
  records : t.records = s.records

/-- The environment in which every store returns its rows as `s` does. -/
def MatchingEnv.pin (env : MatchingEnv) (s : RequestStore) : MatchingEnv :=
  { env with recordOrder := env.recordOrder.pin s, versionOrder := env.versionOrder.pin s }

theorem runSources_pin (h : SameInputs s t) (horg : run'.organizationId = run.organizationId) :
    runSources (env.pin s) runId run' t = runSources env runId run s := by
  rw [runSources, loadRecords, MatchingEnv.pin, RowOrder.pin_select _ h.records, h.datasets, horg]
  rfl

theorem runConfig_pin (h : SameInputs s t) (horg : run'.organizationId = run.organizationId)
    (hpolicy : run'.policyId = run.policyId) :
    runConfig (env.pin s) runId run' t = runConfig env runId run s := by
  have hversions : ∀ org policyId, policyVersions (env.pin s) org policyId t =
      policyVersions env org policyId s := by
    intro org policyId
    rw [policyVersions, MatchingEnv.pin, RowOrder.pin_select _ h.versions]
    rfl
  have hpublished : getPublishedPolicy (env.pin s) run'.organizationId run'.policyId t =
      getPublishedPolicy env run.organizationId run.policyId s := by
    rw [horg, hpolicy]
    cases run.policyId with
    | none => rfl
    | some policyId =>
      unfold getPublishedPolicy
      dsimp only
      rw [hversions]
  have hload : ∀ org ids, loadRecords (env.pin s) org ids t = loadRecords env org ids s := by
    intro org ids
    rw [loadRecords, MatchingEnv.pin, RowOrder.pin_select _ h.records]
    rfl
  rw [runConfig, hpublished, hload, h.datasets, horg]
  rfl

/-- A delivery without a row to add leaves the run executed and nothing else. -/
theorem delivery_of_nothing (hrun : s.runs[runId]? = some run)
    (h : ∀ src ∈ runSources env runId run s, (runConfig env runId run s).Unmatched src) :
    ((runReconciliation env runId).run s).final s =
      delivered runId run
        { counts := {
            total := s.records.countP (hasRecordId run.organizationId (s.datasets runId).sourceIds)
            unmatched := s.records.countP
              (hasRecordId run.organizationId (s.datasets runId).sourceIds) } } s := by
  have hlen : (runSources env runId run s).length = s.records.countP
      (hasRecordId run.organizationId (s.datasets runId).sourceIds) := by
    rw [runSources, loadRecords, List.length_map, RowOrder.select_length]
  rw [(runReconciliation_run hrun).2, RunConfig.runLoop_of_unmatched rfl h, hlen]

theorem sameInputs_delivered (st : LoopState) : SameInputs s (delivered runId run st s) :=
  ⟨rfl, rfl, rfl⟩

theorem getElem?_delivered (hrun : s.runs[runId]? = some run) (st : LoopState) :
    (delivered runId run st s).runs[runId]? = some (finishedRun run st) := by
  have hlt : runId < s.runs.length := (List.getElem?_eq_some_iff.mp hrun).1
  simp [delivered, hlt]

theorem delivered_twice (st : LoopState) (hp : st.pending = []) :
    delivered runId (finishedRun run st) st (delivered runId run st s) =
      delivered runId run st s := by
  simp [delivered, hp, finishedRun]

/-- More deliveries change nothing, in whatever order the records are loaded, exactly when a
delivery adds no row. -/
theorem deliveredOnce_iff (unicode : Unicode) (fuzz : Fuzz) (runId : ℕ) (s : RequestStore) :
    (∀ recordOrder versionOrder,
      DeliveredOnce ⟨unicode, fuzz, recordOrder, versionOrder⟩ runId s) ↔
      ∀ recordOrder versionOrder,
        NothingToPersist ⟨unicode, fuzz, recordOrder, versionOrder⟩ runId s := by
  constructor
  · intro h recordOrder versionOrder run hrun src hsrc
    by_contra hmatch
    set env : MatchingEnv := ⟨unicode, fuzz, recordOrder, versionOrder⟩
    -- the second delivery loads what the first one loads
    have htwice := (h (recordOrder.pin s) (versionOrder.pin s) 2 (by decide)).1
    change (afterDeliveries (env.pin s) runId 2 s).candidates =
      (afterDeliveries (env.pin s) runId 1 s).candidates at htwice
    set st := (runConfig env runId run s).runLoop (runSources env runId run s)
    have hfirst : ((runReconciliation (env.pin s) runId).run s).final s =
        delivered runId run st s := by
      rw [(runReconciliation_run hrun).2, runSources_pin ⟨rfl, rfl, rfl⟩ rfl,
        runConfig_pin ⟨rfl, rfl, rfl⟩ rfl rfl]
    have hsecond : ((runReconciliation (env.pin s) runId).run (delivered runId run st s)).final
        (delivered runId run st s) =
          delivered runId (finishedRun run st) st (delivered runId run st s) := by
      have hsources : runSources (env.pin s) runId (finishedRun run st) (delivered runId run st s) =
          runSources env runId run s := runSources_pin (sameInputs_delivered st) rfl
      have hconfig : runConfig (env.pin s) runId (finishedRun run st) (delivered runId run st s) =
          runConfig env runId run s := runConfig_pin (sameInputs_delivered st) rfl rfl
      rw [(runReconciliation_run (getElem?_delivered hrun st)).2, hsources, hconfig]
    obtain ⟨row, hrow, -⟩ : ∃ row ∈ st.pending, row.sourceRecordId = src.recordId :=
      RunConfig.exists_row rfl hsrc hmatch
    rw [afterDeliveries, afterDeliveries, afterDeliveries, afterDeliveries, afterDeliveries, hfirst,
      hsecond] at htwice
    have hnil : st.pending = [] := by simpa [delivered] using htwice
    rw [hnil] at hrow
    cases hrow
  · intro h recordOrder versionOrder k hk
    set env : MatchingEnv := ⟨unicode, fuzz, recordOrder, versionOrder⟩
    obtain ⟨k, rfl⟩ : ∃ j, k = j + 1 := ⟨k - 1, by omega⟩
    rw [afterDeliveries, afterDeliveries, afterDeliveries]
    cases hrun : s.runs[runId]? with
    | none =>
      have hsame : ∀ k, afterDeliveries env runId k s = s := by
        intro k
        induction k with
        | zero => rfl
        | succ k ih => rw [afterDeliveries, runReconciliation_none hrun, ih]
      rw [runReconciliation_none hrun, hsame]
      exact ⟨rfl, rfl⟩
    | some run =>
      rw [delivery_of_nothing hrun (h recordOrder versionOrder run hrun)]
      set st : LoopState := { counts := { total := _, unmatched := _ } }
      -- a later delivery finds nothing either: the order it meets is an order for `s`
      have hagain : ((runReconciliation env runId).run (delivered runId run st s)).final
          (delivered runId run st s) = delivered runId run st s := by
        have hin : SameInputs (delivered runId run st s) s := ⟨rfl, rfl, rfl⟩
        have hsources : runSources (env.pin (delivered runId run st s)) runId run s =
            runSources env runId (finishedRun run st) (delivered runId run st s) :=
          runSources_pin hin rfl
        have hconfig : runConfig (env.pin (delivered runId run st s)) runId run s =
            runConfig env runId (finishedRun run st) (delivered runId run st s) :=
          runConfig_pin hin rfl rfl
        have hnothing := h (recordOrder.pin (delivered runId run st s))
          (versionOrder.pin (delivered runId run st s)) run hrun
        change ∀ src ∈ runSources (env.pin (delivered runId run st s)) runId run s,
          (runConfig (env.pin (delivered runId run st s)) runId run s).Unmatched src at hnothing
        rw [hsources, hconfig] at hnothing
        rw [delivery_of_nothing (getElem?_delivered hrun st) hnothing]
        exact delivered_twice st rfl
      have hsame : ∀ k, afterDeliveries env runId k (delivered runId run st s) =
          delivered runId run st s := by
        intro k
        induction k with
        | zero => rfl
        | succ k ih => rw [afterDeliveries, hagain, ih]
      rw [hsame]
      exact ⟨rfl, rfl⟩

/-- A queued run of one source with one candidate that matches it. -/
def queuedStore : RequestStore where
  runs := [{ organizationId := "org", policyVersion := "1" }]
  datasets := fun _ => { sourceIds := ["s"], candidateIds := ["c"] }
  records := [RunConfig.recordOf "s" "A", RunConfig.recordOf "c" "A"]

/-- The second delivery adds the row of the first one again. -/
theorem rows_added_twice : ¬ DeliveredOnce .insertion 0 queuedStore := by
  intro h
  have hrows := (h 2 (by decide)).1
  have hlength := congrArg List.length hrows
  exact absurd hlength (by decide +kernel)

end PaymentOps.Matching
