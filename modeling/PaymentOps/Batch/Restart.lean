import PaymentOps.Batch.Counters

/-!
# Restarting a batch

A worker that is killed leaves a job that is running, with the counters of its last commit.  The
next attempt starts over: its first commit in the loop replaces all of these counters, and where
there is no row to process they were never changed.  So it ends as the first attempt would have
(`restart_same`).
-/

namespace PaymentOps.Batch

open Csv Profiles

variable {env : BatchEnv} {c c' : Circumstances} {profile : IntegrationProfile} {rows : List Row}
  {job job' j : BatchJob} {csvText key : String} {id : ℕ} {s s' s₀ : BatchStore}

/-- A job without its times. -/
def BatchJob.untimed (job : BatchJob) : BatchJob :=
  { job with startedAt := none, completedAt := none }

/-- How an attempt ends: what it returns or raises, and its job without the times. -/
def resultOf (id : ℕ) (s : BatchStore) (e : Exec BatchStore BatchError (Option BatchReport)) :
    Except BatchError (Option BatchReport) × Option BatchJob :=
  (e.outcome, ((e.final s).jobs[id]?).map BatchJob.untimed)

/-! ## The job -/

/-- How the session of a job ends. -/
def jobResult (env : BatchEnv) (c : Circumstances) (csvText : String) (job : BatchJob) :
    Except BatchError (Option BatchReport) × BatchJob :=
  (((processText env c csvText).run job).outcome,
    (((processText env c csvText).run job).final job).untimed)

/-- Two jobs from which processing some rows ends in the same way. -/
structure Alike (env : BatchEnv) (rows : List Row) (job job' : BatchJob) : Prop where
  profileId : job.profileId = job'.profileId
  started (c c' : Circumstances) (e : BatchError) : loadProfile env job.profileId = .error e →
    (started c.startedAt rows.length job).untimed = (started c'.startedAt rows.length job').untimed
  processed (c c' : Circumstances) (profile : IntegrationProfile) :
    loadProfile env job.profileId = .ok profile →
    (processed env c profile rows job).untimed = (processed env c' profile rows job').untimed

theorem Alike.run (h : Alike env rows job job') (c c' : Circumstances) :
    ((processRows env c rows).run job).outcome = ((processRows env c' rows).run job').outcome ∧
      (((processRows env c rows).run job).final job).untimed =
        (((processRows env c' rows).run job').final job').untimed := by
  cases hprofile : loadProfile env job.profileId with
  | error e =>
    have hprofile' : loadProfile env job'.profileId = .error e := h.profileId ▸ hprofile
    rw [processRows_error hprofile, processRows_error hprofile']
    exact ⟨rfl, h.started c c' e hprofile⟩
  | ok profile =>
    have hprofile' : loadProfile env job'.profileId = .ok profile := h.profileId ▸ hprofile
    have hspec : RowsSpec env c profile rows job _ := processRows_spec hprofile
    have hspec' : RowsSpec env c' profile rows job' _ := processRows_spec hprofile'
    rw [hspec.outcome, hspec.final, hspec'.outcome, hspec'.final]
    have hprocessed := h.processed c c' profile hprofile
    have hreport : (Batch.processed env c profile rows job).report =
        (Batch.processed env c' profile rows job').report :=
      (congrArg BatchJob.report hprocessed :)
    exact ⟨congrArg Except.ok hreport, hprocessed⟩

/-- The times are only recorded. -/
theorem alike_of_untimed (h : job.untimed = job'.untimed) : Alike env rows job job' where
  profileId := (congrArg BatchJob.profileId h :)
  started c c' e _ := by
    have huntimed : ∀ (at_ : Instant) (job : BatchJob), (started at_ rows.length job).untimed =
        (started 0 rows.length job.untimed).untimed := fun _ _ => rfl
    rw [huntimed _ job, huntimed _ job', h]
  processed c c' profile _ := by
    have huntimed : ∀ (c : Circumstances) (job : BatchJob),
        (processed env c profile rows job).untimed =
          (processed env ⟨0, 0, true⟩ profile rows job.untimed).untimed := by
      intro c job
      cases rows <;> rfl
    rw [huntimed c job, huntimed c' job', h]

theorem alike_started (at_ : Instant) (job : BatchJob) :
    Alike env rows (started at_ rows.length job) job where
  profileId := rfl
  started _ _ _ _ := rfl
  processed c c' profile _ := by cases rows <;> rfl

/-- The counters of the rows that were done do not matter. -/
theorem alike_progressed (hprofile : loadProfile env job.profileId = .ok profile)
    (hrows : rows ≠ []) (n : ℕ) (tally : Tally) (at_ : Instant) :
    Alike env rows (progressed n tally rows.length (started at_ rows.length job)) job where
  profileId := rfl
  started c c' e he := by
    cases he.symm.trans hprofile
  processed c c' profile' _ := by
    cases rows with
    | nil => exact absurd rfl hrows
    | cons row rows => rfl

/-- A job that an attempt committed before a terminal status is processed to the same end. -/
theorem alike_of_commit (hj : j ∈ ((processRows env c rows).run job).commits)
    (hrunning : j.status.terminal = false) : Alike env rows j job := by
  cases hprofile : loadProfile env job.profileId with
  | error e =>
    rw [processRows_error hprofile] at hj
    obtain rfl := List.mem_singleton.mp hj
    exact alike_started _ _
  | ok profile =>
    rcases (processRows_spec hprofile).commits j hj with rfl | ⟨done, rest, hdone, hne, rfl⟩ | rfl
    · exact alike_started _ _
    · have hrows : rows ≠ [] := by
        rw [hdone]
        simp [hne]
      exact alike_progressed hprofile hrows _ _ _
    · rw [terminal_processed] at hrunning
      cases hrunning

/-- An attempt from a job that differs in its times ends in the same way. -/
theorem jobResult_of_untimed (h : job.untimed = job'.untimed) (c c' : Circumstances) :
    jobResult env c csvText job = jobResult env c' csvText job' := by
  unfold jobResult
  rcases processText_cases env csvText with ⟨message, hrun⟩ | ⟨e, hrun⟩ | ⟨rows, -, hrun⟩
  · have huntimed : ∀ job : BatchJob, ({ job with status := .failed } : BatchJob).untimed =
        { job.untimed with status := .failed } := fun _ => rfl
    rw [hrun, hrun, Session.final_singleton, Session.final_singleton, huntimed, huntimed, h]
  · rw [hrun, hrun, Session.final_nil, Session.final_nil, h]
  · rw [hrun, hrun]
    obtain ⟨hout, hfinal⟩ := (alike_of_untimed h : Alike env rows job job').run c c'
    rw [hout, hfinal]

/-- An attempt from a job that was committed before a terminal status ends as the attempt that
committed it. -/
theorem jobResult_of_commit (hj : j ∈ ((processText env c csvText).run job).commits)
    (hrunning : j.status.terminal = false) (c' : Circumstances) :
    jobResult env c' csvText j = jobResult env c' csvText job := by
  unfold jobResult
  rcases processText_cases env csvText with ⟨message, hrun⟩ | ⟨e, hrun⟩ | ⟨rows, -, hrun⟩
  · rw [hrun] at hj
    obtain rfl := List.mem_singleton.mp hj
    cases hrunning
  · rw [hrun] at hj
    cases hj
  · rw [hrun] at hj
    obtain ⟨hout, hfinal⟩ := (alike_of_commit hj hrunning).run c' c'
    rw [hrun, hrun, hout, hfinal]

/-! ## The store -/

theorem resultOf_processBatchAsync (h : s.jobs[id]? = some job)
    (hrunning : job.status.terminal = false) (hinput : s.inputs.get key = some csvText) :
    resultOf id s ((processBatchAsync env c id key).run s) =
      ((jobResult env c csvText job).1, some (jobResult env c csvText job).2) := by
  have hlt : id < s.jobs.length := (List.getElem?_eq_some_iff.mp h).1
  let e := (processText env c csvText).run job
  obtain ⟨deleted, hrun, hdeleted⟩ :=
    processBatchAsync_run h hrunning hinput (rfl : _ = e)
  have hjob : (((processBatchAsync env c id key).run s).final s).jobs[id]? =
      some (e.final job) := by
    have hcommits : (⟨e.commits.map fun j => withJob id j s, e.outcome⟩ :
        Exec BatchStore BatchError (Option BatchReport)).final s = withJob id (e.final job) s := by
      rw [← onJob_final h (processText env c csvText), onJob_run h]
    rw [hrun, Session.final_append, hcommits]
    rcases Session.final_mem
      (⟨deleted, e.outcome⟩ : Exec BatchStore BatchError (Option BatchReport))
      (withJob id (e.final job) s) with hfinal | hmem
    · rw [hfinal]
      exact List.getElem?_set_self hlt
    · rw [(hdeleted _ hmem).2.1]
      exact List.getElem?_set_self hlt
  rw [resultOf, hjob, hrun]
  rfl

theorem resultOf_missing_input (h : s.jobs[id]? = some job)
    (hrunning : job.status.terminal = false) (hinput : s.inputs.get key = none) :
    resultOf id s ((processBatchAsync env c id key).run s) =
      (.error (.lookupError "batch input not found"), some job.untimed) := by
  rw [processBatchAsync_missing_input h hrunning hinput, resultOf, Session.final_nil, h]
  rfl

/-- The result depends on the job without its times, and on its input. -/
theorem resultOf_congr (h : s.jobs[id]? = some job) (h' : s'.jobs[id]? = some job')
    (huntimed : job.untimed = job'.untimed) (hrunning : job.status.terminal = false)
    (hinput : s.inputs.get key = s'.inputs.get key) (c c' : Circumstances) :
    resultOf id s ((processBatchAsync env c id key).run s) =
      resultOf id s' ((processBatchAsync env c' id key).run s') := by
  have hstatus : job.status = job'.status := (congrArg BatchJob.status huntimed :)
  have hrunning' : job'.status.terminal = false := hstatus ▸ hrunning
  cases hget : s.inputs.get key with
  | none =>
    rw [resultOf_missing_input h hrunning hget,
      resultOf_missing_input h' hrunning' (hinput.symm.trans hget), huntimed]
  | some csvText =>
    rw [resultOf_processBatchAsync h hrunning hget,
      resultOf_processBatchAsync h' hrunning' (hinput.symm.trans hget),
      jobResult_of_untimed huntimed c c']

/-! ## Every run -/

variable {envs : BatchEnv → Prop}

/-- The input stays or is gone. -/
theorem Interrupted.input (h : Interrupted envs id key s₀ s) :
    s.inputs.get key = s₀.inputs.get key ∨ s.inputs.get key = none := by
  induction h with
  | start => exact .inl rfl
  | @killed s h env henv c k ih =>
    rcases Session.crash_mem (processBatchAsync env c id key) k s with hcrash | hcrash
    · rwa [hcrash]
    · obtain ⟨job, hjob⟩ := exists_job_of_mem hcrash
      obtain ⟨-, csvText, -, j, -, -, hinput⟩ := mem_processBatchAsync hjob hcrash
      rcases hinput with hsame | ⟨-, hnone⟩
      · rwa [hsame]
      · exact .inr hnone
  | elsewhere h hs hinput ih =>
    rcases hinput with hsame | hnone
    · rwa [hsame]
    · exact .inr hnone

/-- After attempts that were killed before a terminal status, an attempt ends as it would have at
first. -/
theorem Interrupted.result (h : Interrupted (· = env) id key s₀ s)
    (hjob : s.jobs[id]? = some job) (hrunning : job.status.terminal = false)
    (hinput : s.inputs.get key = s₀.inputs.get key) (c c' : Circumstances) :
    resultOf id s ((processBatchAsync env c id key).run s) =
      resultOf id s₀ ((processBatchAsync env c' id key).run s₀) := by
  induction h generalizing job with
  | start => exact resultOf_congr hjob hjob rfl hrunning rfl c c'
  | @killed s h env' henv c₁ k ih =>
    obtain rfl := henv
    rcases Session.crash_mem (processBatchAsync env' c₁ id key) k s with hcrash | hcrash
    · rw [hcrash] at hjob hinput ⊢
      exact ih hjob hrunning hinput
    · -- the job of the crash is one that this attempt committed
      obtain ⟨job₁, hjob₁⟩ := exists_job_of_mem hcrash
      obtain ⟨hrunning₁, csvText, hget, j, hj, hjob', hsame⟩ := mem_processBatchAsync hjob₁ hcrash
      obtain rfl : j = job := Option.some.inj (hjob'.symm.trans hjob)
      have hinput₁ := hsame.resolve_right fun hterminal => by
        rw [hrunning] at hterminal
        cases hterminal.1
      rw [resultOf_processBatchAsync hjob hrunning (hinput₁.trans hget),
        jobResult_of_commit hj hrunning c, ← resultOf_processBatchAsync hjob₁ hrunning₁ hget]
      exact ih hjob₁ hrunning₁ (hinput₁.symm.trans hinput)
  | @elsewhere s s' h hs hin ih =>
    have hsame : s'.inputs.get key = s.inputs.get key := by
      rcases hin with hsame | hnone
      · exact hsame
      · rcases h.input with hkept | hgone
        · rw [hinput, hkept]
        · rw [hnone, hgone]
    have hjob' : s.jobs[id]? = some job := hs.symm.trans hjob
    rw [resultOf_congr hjob hjob' rfl hrunning hsame c c]
    exact ih hjob' hrunning (hsame.symm.trans hinput)

/-- However often a worker was killed, the attempt that follows ends with the status, the counters
and the report of an uninterrupted one, and a job in a terminal status is not changed. -/
theorem restart_same (env : BatchEnv) (id : ℕ) (key : String) (s₀ : BatchStore)
    (c c' : Circumstances) :
    (∀ s job, Interrupted (· = env) id key s₀ s → s.jobs[id]? = some job →
      job.status.terminal = false → s.inputs.get key = s₀.inputs.get key →
      resultOf id s ((processBatchAsync env c id key).run s) =
        resultOf id s₀ ((processBatchAsync env c' id key).run s₀)) ∧
      ∀ job, s₀.jobs[id]? = some job → job.status.terminal = true →
        (processBatchAsync env c id key).run s₀ = ⟨[], .ok job.report⟩ := by
  constructor
  · intro s job h hjob hrunning hinput
    exact h.result hjob hrunning hinput c c'
  · intro job hjob hterminal
    exact processBatchAsync_terminal hjob hterminal

/-- The job of the attempt that was killed when it had started. -/
def sampleRunning : BatchJob where
  organizationId := "acme"
  profileId := 0
  profileVersion := 1
  status := .running
  totalRecords := 2
  createdAt := 0
  startedAt := some 1

/-- The store after the upload of the sample. -/
def sampleSubmitted : BatchStore := submitted "acme" 0 1 sampleInput 0 {}

/-- The store that an attempt leaves which is killed in between. -/
def sampleKilled : BatchStore :=
  Session.crash (processBatchAsync sampleEnv sampleCircumstances 0 (inputKey 0)) 1 sampleSubmitted

theorem restart_same_sample :
    resultOf 0 sampleKilled
        ((processBatchAsync sampleEnv sampleCircumstances 0 (inputKey 0)).run sampleKilled) =
      resultOf 0 sampleSubmitted
        ((processBatchAsync sampleEnv sampleCircumstances 0 (inputKey 0)).run sampleSubmitted) ∧
    ∃ report, (processBatchAsync sampleEnv sampleCircumstances 0 (inputKey 0)).run sampleResult =
      ⟨[], .ok report⟩ :=
  ⟨(restart_same sampleEnv 0 (inputKey 0) sampleSubmitted sampleCircumstances
      sampleCircumstances).1 sampleKilled sampleRunning
      (@Interrupted.killed (· = sampleEnv) 0 (inputKey 0) sampleSubmitted sampleSubmitted .start
        sampleEnv rfl sampleCircumstances 1) (by decide +kernel) rfl (by decide +kernel),
    _, (restart_same sampleEnv 0 (inputKey 0) sampleResult sampleCircumstances
      sampleCircumstances).2 _ rfl rfl⟩

end PaymentOps.Batch
