import PaymentOps.Batch.Service

/-!
# What processing a job commits

A loop over the rows commits the counters of the rows so far, and each of these commits replaces
all the counters of the one before (`progressed_progressed`).  So the counters with which an attempt
starts are gone with its first commit in the loop.
-/

namespace PaymentOps.Batch

open Csv Profiles

variable {env : BatchEnv} {c : Circumstances} {profile : IntegrationProfile} {rows : List Row}
  {tally : Tally} {job : BatchJob} {csvText key : String} {id : ℕ} {s t : BatchStore}

/-- The tally when some more rows are done. -/
def tallyOf (env : BatchEnv) (profile : IntegrationProfile) (tally : Tally)
    (rows : List (Row × ℕ)) : Tally :=
  rows.foldl (fun t row => t.addRow (analyzeRow env profile row)) tally

@[simp] theorem tallyOf_nil : tallyOf env profile tally [] = tally := rfl

theorem tallyOf_cons (row : Row × ℕ) (rows : List (Row × ℕ)) :
    tallyOf env profile tally (row :: rows) =
      tallyOf env profile (tally.addRow (analyzeRow env profile row)) rows := rfl

@[simp] theorem progressed_progressed (n m total : ℕ) (tally tally' : Tally) (job : BatchJob) :
    progressed n tally total (progressed m tally' total job) = progressed n tally total job := rfl

/-! ## The loop -/

/-- The commit of a row, if it is one of those at which the progress is written. -/
theorem processRow_run (env : BatchEnv) (profile : IntegrationProfile) (total i : ℕ) (row : Row)
    (tally : Tally) (job : BatchJob) :
    let tally' := tally.addRow (analyzeRow env profile (row, i))
    ((processRow env profile total tally (row, i)).run job).outcome = .ok tally' ∧
      (((processRow env profile total tally (row, i)).run job).commits =
          [progressed (i + 1) tally' total job] ∨
        ((processRow env profile total tally (row, i)).run job).commits = [] ∧ i + 1 ≠ total) := by
  intro tally'
  unfold processRow
  dsimp only
  split_ifs with h
  · exact ⟨rfl, .inl rfl⟩
  · exact ⟨rfl, .inr ⟨rfl, fun htotal => h (.inr htotal)⟩⟩

/-- What the loop over the remaining rows does. -/
structure LoopSpec (env : BatchEnv) (profile : IntegrationProfile) (total i : ℕ) (tally : Tally)
    (rows : List Row) (job : BatchJob) (e : Exec BatchJob BatchError Tally) : Prop where
  outcome : e.outcome = .ok (tallyOf env profile tally (rows.zipIdx i))
  final : e.final job =
    if rows.isEmpty then job
    else progressed total (tallyOf env profile tally (rows.zipIdx i)) total job
  commits : ∀ j ∈ e.commits, ∃ done rest, rows = done ++ rest ∧ done ≠ [] ∧
    j = progressed (i + done.length) (tallyOf env profile tally (done.zipIdx i)) total job

theorem loop_spec (env : BatchEnv) (profile : IntegrationProfile) {total i : ℕ}
    (h : i + rows.length = total) (tally : Tally) (job : BatchJob) :
    LoopSpec env profile total i tally rows job
      ((Session.fold (processRow env profile total) tally (rows.zipIdx i)).run job) := by
  induction rows generalizing i tally job with
  | nil => exact ⟨rfl, rfl, fun j hj => nomatch hj⟩
  | cons row rows ih =>
    rw [List.zipIdx_cons, Session.fold_cons]
    obtain ⟨hrow, hcommits⟩ := processRow_run env profile total i row tally job
    let tally' := tally.addRow (analyzeRow env profile (row, i))
    let job' := ((processRow env profile total tally (row, i)).run job).final job
    have hrest := @ih (i + 1) (by rw [List.length_cons] at h; omega) tally' job'
    have hjob' : ∀ n T, progressed n T total job' = progressed n T total job := by
      intro n T
      rcases hcommits with hc | ⟨hc, -⟩
      · have : job' = progressed (i + 1) tally' total job := by simp [job', Exec.final, hc, tally']
        rw [this, progressed_progressed]
      · have : job' = job := by simp [job', Exec.final, hc]
        rw [this]
    rw [Session.bind_ok hrow]
    refine ⟨hrest.outcome, ?_, ?_⟩
    · rw [Session.final_append]
      refine hrest.final.trans ?_
      cases rows with
      | nil =>
        -- the last row always commits
        have htotal : i + 1 = total := h
        rcases hcommits with hc | ⟨-, hne⟩
        · simp [job', Exec.final, hc, tallyOf_cons, List.zipIdx_cons, htotal]
        · exact absurd htotal hne
      | cons row' rows => exact hjob' _ _
    · intro j hj
      rcases List.mem_append.mp hj with hj | hj
      · rcases hcommits with hc | ⟨hc, -⟩
        · rw [hc, List.mem_singleton] at hj
          exact ⟨[row], rows, rfl, List.cons_ne_nil row [], hj⟩
        · simp [hc] at hj
      · obtain ⟨done, rest, hdone, -, hj⟩ := hrest.commits j hj
        refine ⟨row :: done, rest, by rw [hdone, List.cons_append], List.cons_ne_nil row done, ?_⟩
        rw [hj, hjob', List.zipIdx_cons, tallyOf_cons, List.length_cons, Nat.add_assoc,
          Nat.add_comm 1]

/-! ## One attempt -/

/-- The job after the loop over all rows. -/
def looped (env : BatchEnv) (c : Circumstances) (profile : IntegrationProfile) (rows : List Row)
    (job : BatchJob) : BatchJob :=
  let job := started c.startedAt rows.length job
  if rows.isEmpty then job
  else progressed rows.length (tallyOf env profile {} rows.zipIdx) rows.length job

/-- The job at the end. -/
def processed (env : BatchEnv) (c : Circumstances) (profile : IntegrationProfile)
    (rows : List Row) (job : BatchJob) : BatchJob :=
  finished c.completedAt (tallyOf env profile {} rows.zipIdx) rows.length
    (looped env c profile rows job)

theorem processRows_error {e : BatchError} (h : loadProfile env job.profileId = .error e) :
    (processRows env c rows).run job = ⟨[started c.startedAt rows.length job], .error e⟩ := by
  rw [processRows, Session.commit_bind, Session.read_bind,
    show (started c.startedAt rows.length job).profileId = job.profileId from rfl, h]
  rfl

/-- What a job whose profile is there commits, and where it ends. -/
structure RowsSpec (env : BatchEnv) (c : Circumstances) (profile : IntegrationProfile)
    (rows : List Row) (job : BatchJob) (e : Exec BatchJob BatchError (Option BatchReport)) :
    Prop where
  outcome : e.outcome = .ok (processed env c profile rows job).report
  final : e.final job = processed env c profile rows job
  commits : ∀ j ∈ e.commits, j = started c.startedAt rows.length job ∨
    (∃ done rest, rows = done ++ rest ∧ done ≠ [] ∧
      j = progressed done.length (tallyOf env profile {} done.zipIdx) rows.length
        (started c.startedAt rows.length job)) ∨
    j = processed env c profile rows job

theorem processRows_spec (h : loadProfile env job.profileId = .ok profile) :
    RowsSpec env c profile rows job ((processRows env c rows).run job) := by
  have hloop := loop_spec env profile (Nat.zero_add rows.length) {}
    (started c.startedAt rows.length job)
  have hrun : (processRows env c rows).run job =
      ⟨started c.startedAt rows.length job ::
          (((Session.fold (processRow env profile rows.length) {} rows.zipIdx).run
            (started c.startedAt rows.length job)).commits ++
          [processed env c profile rows job]),
        .ok (processed env c profile rows job).report⟩ := by
    rw [processRows, Session.commit_bind, Session.read_bind,
      show (started c.startedAt rows.length job).profileId = job.profileId from rfl, h,
      Session.ofExcept_ok_bind, Session.bind_ok hloop.outcome, hloop.final]
    rfl
  rw [hrun]
  refine ⟨rfl, ?_, fun j hj => ?_⟩
  · rw [Session.final_cons, Session.final_append, Session.final_singleton]
  · rcases List.mem_cons.mp hj with rfl | hj
    · exact .inl rfl
    · rcases List.mem_append.mp hj with hj | hj
      · obtain ⟨done, rest, hdone, hne, hj⟩ := hloop.commits j hj
        rw [Nat.zero_add] at hj
        exact .inr (.inl ⟨done, rest, hdone, hne, hj⟩)
      · exact .inr (.inr (List.mem_singleton.mp hj))

/-- An input is over a limit, can not be read, or has rows to process. -/
theorem processText_cases (env : BatchEnv) (csvText : String) :
    (∃ message, ∀ c job, (processText env c csvText).run job =
      ⟨[{ job with status := .failed }], .error (.batchLimitError message)⟩) ∨
    (∃ e, ∀ c job, (processText env c csvText).run job = ⟨[], .error (.csvError e)⟩) ∨
    ∃ rows, dictReader excel csvText = .ok rows ∧
      ∀ c job, (processText env c csvText).run job = (processRows env c rows).run job := by
  unfold processText
  split_ifs with hbytes
  · exact .inl ⟨_, fun c job => rfl⟩
  · cases hread : dictReader excel csvText with
    | error e => exact .inr (.inl ⟨e, fun c job => rfl⟩)
    | ok rows =>
      by_cases hrows : maxRows < rows.length
      · left
        refine ⟨"too many rows", fun c job => ?_⟩
        rw [Except.mapError, Session.ofExcept_ok_bind, if_pos hrows]
        rfl
      · right
        right
        refine ⟨rows, rfl, fun c job => ?_⟩
        rw [Except.mapError, Session.ofExcept_ok_bind, if_neg hrows]

/-! ## The store -/

theorem getRow_bind {α : Type} (h : s.jobs[id]? = some job) (f : BatchJob → BatchService α) :
    (getRow id >>= f).run s = (f job).run s := by
  have hrow : (getRow id).run s = ⟨[], .ok job⟩ := by
    rw [getRow, Session.read_bind, h]
    rfl
  rw [Session.bind_ok (congrArg Exec.outcome hrow), hrow]
  rfl

theorem getInput_bind {α : Type} (h : s.inputs.get key = some csvText)
    (f : String → BatchService α) : (getInput key >>= f).run s = (f csvText).run s := by
  have hinput : (getInput key).run s = ⟨[], .ok csvText⟩ := by
    rw [getInput, Session.read_bind, h]
    rfl
  rw [Session.bind_ok (congrArg Exec.outcome hinput), hinput]
  rfl

/-- A job in a terminal status is left as it is. -/
theorem processBatchAsync_terminal (h : s.jobs[id]? = some job)
    (hterminal : job.status.terminal = true) :
    (processBatchAsync env c id key).run s = ⟨[], .ok job.report⟩ := by
  rw [processBatchAsync, getRow_bind h, if_pos hterminal]
  rfl

theorem processBatchAsync_missing_input (h : s.jobs[id]? = some job)
    (hrunning : job.status.terminal = false) (hinput : s.inputs.get key = none) :
    (processBatchAsync env c id key).run s =
      ⟨[], .error (.lookupError "batch input not found")⟩ := by
  have hget : (getInput key).run s = ⟨[], .error (.lookupError "batch input not found")⟩ := by
    rw [getInput, Session.read_bind, hinput]
    rfl
  rw [processBatchAsync, getRow_bind h, if_neg (by simp [hrunning]),
    Session.bind_error (congrArg Exec.outcome hget), hget]

theorem withJob_self (h : s.jobs[id]? = some job) : withJob id job s = s := by
  obtain ⟨hlt, rfl⟩ := List.getElem?_eq_some_iff.mp h
  rw [withJob, List.set_getElem_self hlt]

theorem onJob_run {α : Type} (h : s.jobs[id]? = some job) (m : JobSession α) :
    (onJob id job m).run s =
      ⟨(m.run job).commits.map fun j => withJob id j s, (m.run job).outcome⟩ := by
  have hpart : (s.jobs[id]?).getD job = job := by
    rw [h]
    rfl
  rw [onJob, Session.zoom]
  simp only [hpart]
  cases (m.run job).outcome <;> rfl

theorem onJob_final {α : Type} (h : s.jobs[id]? = some job) (m : JobSession α) :
    ((onJob id job m).run s).final s = withJob id ((m.run job).final job) s := by
  rw [onJob_run h, Exec.final, Exec.final, List.getLast?_map]
  cases (m.run job).commits.getLast? with
  | none => exact (withJob_self h).symm
  | some j => rfl

/-- The commits of an attempt are those of its job; the input is deleted after them. -/
theorem processBatchAsync_run (h : s.jobs[id]? = some job)
    (hrunning : job.status.terminal = false) (hinput : s.inputs.get key = some csvText)
    {e : Exec BatchJob BatchError (Option BatchReport)}
    (he : (processText env c csvText).run job = e) :
    ∃ deleted : List BatchStore,
      (processBatchAsync env c id key).run s =
        ⟨e.commits.map (fun j => withJob id j s) ++ deleted, e.outcome⟩ ∧
      ∀ t ∈ deleted, (∃ report, e.outcome = .ok report) ∧
        t.jobs = s.jobs.set id (e.final job) ∧ t.inputs.get key = none := by
  have hon := onJob_run h (processText env c csvText)
  have hfinal := onJob_final h (processText env c csvText)
  rw [he] at hon hfinal
  rw [processBatchAsync, getRow_bind h, if_neg (by simp [hrunning]), getInput_bind hinput]
  cases hout : e.outcome with
  | error err =>
    refine ⟨[], ?_, fun t ht => nomatch ht⟩
    rw [Session.bind_error (e := err) (by rw [hon, hout]), hon, List.append_nil]
  | ok report =>
    rw [Session.bind_ok (a := report) (by rw [hon, hout]), hfinal]
    refine ⟨((deleteInput c key >>= fun _ => pure report).run
      (withJob id (e.final job) s)).commits, ?_, fun t ht => ⟨⟨report, rfl⟩, ?_⟩⟩
    · rw [hon]
      unfold deleteInput
      split_ifs <;> rfl
    · unfold deleteInput at ht
      split_ifs at ht
      · obtain rfl := List.mem_singleton.mp ht
        refine ⟨rfl, Dict.get_eq_none.mpr fun p hp => ?_⟩
        simpa using (List.mem_filter.mp hp).2
      · cases ht

theorem terminal_processed : (processed env c profile rows job).status.terminal = true := by
  show (if (tallyOf env profile {} rows.zipIdx).failed = 0 then JobStatus.completed
    else .partlyFailed).terminal = true
  split_ifs <;> rfl

/-- Where an attempt ends without an exception the job is in a terminal status. -/
theorem terminal_of_outcome {report : Option BatchReport}
    (h : ((processText env c csvText).run job).outcome = .ok report) :
    (((processText env c csvText).run job).final job).status.terminal = true := by
  rcases processText_cases env csvText with ⟨message, hrun⟩ | ⟨e, hrun⟩ | ⟨rows, -, hrun⟩
  · rw [hrun] at h
    cases h
  · rw [hrun] at h
    cases h
  · rw [hrun] at h ⊢
    cases hprofile : loadProfile env job.profileId with
    | error e =>
      rw [processRows_error hprofile] at h
      cases h
    | ok profile =>
      rw [(processRows_spec hprofile).final]
      exact terminal_processed

theorem exists_job_of_mem (ht : t ∈ ((processBatchAsync env c id key).run s).commits) :
    ∃ job, s.jobs[id]? = some job := by
  cases hjob : s.jobs[id]? with
  | some job => exact ⟨job, rfl⟩
  | none =>
    have hrow : (getRow id).run s = ⟨[], .error (.lookupError "job not found")⟩ := by
      rw [getRow, Session.read_bind, hjob]
      rfl
    rw [processBatchAsync, Session.bind_error (congrArg Exec.outcome hrow), hrow] at ht
    cases ht

/-- Every commit of an attempt has one of the rows that its job goes through. -/
theorem mem_processBatchAsync (h : s.jobs[id]? = some job)
    (ht : t ∈ ((processBatchAsync env c id key).run s).commits) :
    job.status.terminal = false ∧ ∃ csvText, s.inputs.get key = some csvText ∧
      ∃ j ∈ ((processText env c csvText).run job).commits, t.jobs[id]? = some j ∧
        (t.inputs.get key = s.inputs.get key ∨
          j.status.terminal = true ∧ t.inputs.get key = none) := by
  have hlt : id < s.jobs.length := (List.getElem?_eq_some_iff.mp h).1
  cases hrunning : job.status.terminal with
  | true =>
    rw [processBatchAsync_terminal h hrunning] at ht
    cases ht
  | false =>
    cases hinput : s.inputs.get key with
    | none =>
      rw [processBatchAsync_missing_input h hrunning hinput] at ht
      cases ht
    | some csvText =>
      obtain ⟨deleted, hrun, hdeleted⟩ :=
        processBatchAsync_run h hrunning hinput (rfl : _ = (processText env c csvText).run job)
      rw [hrun] at ht
      refine ⟨rfl, csvText, rfl, ?_⟩
      rcases List.mem_append.mp ht with ht | ht
      · obtain ⟨j, hj, rfl⟩ := List.mem_map.mp ht
        exact ⟨j, hj, List.getElem?_set_self hlt, .inl hinput⟩
      · obtain ⟨⟨report, hout⟩, hjobs, hnone⟩ := hdeleted t ht
        have hterminal := terminal_of_outcome hout
        refine ⟨_, ?_, by rw [hjobs, List.getElem?_set_self hlt], .inr ⟨hterminal, hnone⟩⟩
        rcases Session.final_mem ((processText env c csvText).run job) job with hfinal | hmem
        · rw [hfinal, hrunning] at hterminal
          cases hterminal
        · exact hmem

/-! ## Attempts -/

/-- The stores after some attempts at a job that were killed.  Between the attempts whatever does
not belong to the job changes, and its input may expire. -/
inductive Interrupted (envs : BatchEnv → Prop) (id : ℕ) (key : String) (s₀ : BatchStore) :
    BatchStore → Prop
  | start : Interrupted envs id key s₀ s₀
  | killed {s : BatchStore} (h : Interrupted envs id key s₀ s) {env : BatchEnv}
      (henv : envs env) (c : Circumstances) (k : ℕ) :
      Interrupted envs id key s₀ (Session.crash (processBatchAsync env c id key) k s)
  | elsewhere {s s' : BatchStore} (h : Interrupted envs id key s₀ s)
      (hjob : s'.jobs[id]? = s.jobs[id]?)
      (hinput : s'.inputs.get key = s.inputs.get key ∨ s'.inputs.get key = none) :
      Interrupted envs id key s₀ s'

/-! ## A job of two rows -/

/-- The row of a published profile. -/
def sampleProfile : IntegrationProfileRow where
  organizationId := "acme"
  name := "transfers"
  description := ""
  status := .published
  inputFormat := .csv
  outputFormat := .analysisJson
  retentionPolicy := .metadataOnly
  addressPolicy := "auto"
  aiPolicy := "disabled"
  allowedMessages := []
  mapping := { mappingVersion := "v1", sourceFormat := .csv }
  rules := []
  versionNumber := 1

/-- The analysis of the second row raises. -/
def sampleEnv : BatchEnv where
  profiles := fun _ => some sampleProfile
  engine := fun _ _ payload =>
    if payload = "name\nBerta" then .error (.service (.valueError "unknown country"))
    else .ok { levels := [.ready], ruleFindings := [] }

/-- A file of two rows. -/
def sampleInput : String := "name\nAnna\nBerta\n"

/-- An attempt whose redis entry is deleted. -/
def sampleCircumstances : Circumstances where
  startedAt := 1
  completedAt := 2
  deletes := true

end PaymentOps.Batch
