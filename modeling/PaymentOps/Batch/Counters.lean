import PaymentOps.Batch.Commits

/-!
# The counters of a batch

Each row falls into one bucket: the one of its readiness, or the one of the rows that failed.  The
tally counts the rows of each bucket, and every commit of a job writes a tally together with the
number of rows it covers.  An attempt that starts after others keeps their counters until its first
commit in the loop, and since the input is the same these counters fit as well.
-/

namespace PaymentOps.Batch

open Csv Profiles

variable {env : BatchEnv} {c : Circumstances} {profile : IntegrationProfile} {rows : List Row}
  {tally : Tally} {job j : BatchJob} {csvText key : String} {id : ℕ} {s t : BatchStore}

/-! ## Buckets -/

/-- The counters of a job, by what became of a row. -/
inductive Bucket where
  | ready | repairable | reviewRequired | unresolved | failed
  deriving DecidableEq, Repr

/-- The status of the rows of a bucket; a row without a status has failed. -/
def Bucket.status : Bucket → Option String
  | ready => some "READY"
  | repairable => some "REPAIRABLE"
  | reviewRequired => some "REVIEW_REQUIRED"
  | unresolved => some "UNRESOLVED"
  | failed => none

/-- The status of a row with its index, unless its analysis raises. -/
def rowStatus (env : BatchEnv) (profile : IntegrationProfile) (row : Row × ℕ) :
    Option String :=
  (analyzeRow env profile row).toOption.map statusOf

/-- The counter of a job. -/
def BatchJob.countIn (job : BatchJob) : Bucket → ℕ
  | .ready => job.readyCount
  | .repairable => job.repairableCount
  | .reviewRequired => job.reviewRequiredCount
  | .unresolved => job.unresolvedCount
  | .failed => job.failedCount

/-- The counter of a tally. -/
def Tally.countIn (tally : Tally) : Bucket → ℕ
  | .ready => countOf tally.counts "READY"
  | .repairable => countOf tally.counts "REPAIRABLE"
  | .reviewRequired => countOf tally.counts "REVIEW_REQUIRED"
  | .unresolved => countOf tally.counts "UNRESOLVED"
  | .failed => tally.failed

/-- The rows of a bucket. -/
def rowsIn (env : BatchEnv) (profile : IntegrationProfile) (rows : List (Row × ℕ)) (b : Bucket) :
    ℕ :=
  rows.countP fun row => rowStatus env profile row = b.status

/-- The sum over the buckets. -/
def sumOver (f : Bucket → ℕ) : ℕ :=
  f .ready + f .repairable + f .reviewRequired + f .unresolved + f .failed

theorem aggregateReadiness_cases (levels : List AddressReadiness) :
    aggregateReadiness levels = "READY" ∨ aggregateReadiness levels = "REPAIRABLE" ∨
      aggregateReadiness levels = "REVIEW_REQUIRED" ∨ aggregateReadiness levels = "UNRESOLVED" := by
  unfold aggregateReadiness
  split_ifs <;> simp

/-- Each row falls into one bucket. -/
theorem existsUnique_bucket (env : BatchEnv) (profile : IntegrationProfile) (row : Row × ℕ) :
    ∃! b : Bucket, rowStatus env profile row = b.status := by
  have hinjective : ∀ b b' : Bucket, b.status = b'.status → b = b' := by
    intro b b' h
    cases b <;> cases b' <;> simp [Bucket.status] at h ⊢
  suffices h : ∃ b : Bucket, rowStatus env profile row = b.status by
    obtain ⟨b, hb⟩ := h
    exact ⟨b, hb, fun b' hb' => hinjective b' b (hb'.symm.trans hb)⟩
  cases hrow : analyzeRow env profile row with
  | error e =>
    exact ⟨.failed, by rw [rowStatus, hrow]; rfl⟩
  | ok result =>
    obtain ⟨text, -, hresult⟩ := Except.bind_eq_ok.mp hrow
    obtain ⟨r, -, rfl⟩ := Except.map_eq_ok.mp hresult
    have hstatus : rowStatus env profile row =
        some (if Text.truthy (some (aggregateReadiness r.levels)) then aggregateReadiness r.levels
          else "UNRESOLVED") := by
      rw [rowStatus, hrow]
      rfl
    rcases aggregateReadiness_cases r.levels with h | h | h | h
    · exact ⟨.ready, by rw [hstatus, h]; rfl⟩
    · exact ⟨.repairable, by rw [hstatus, h]; rfl⟩
    · exact ⟨.reviewRequired, by rw [hstatus, h]; rfl⟩
    · exact ⟨.unresolved, by rw [hstatus, h]; rfl⟩

/-- The buckets share out the rows. -/
theorem sumOver_rowsIn (env : BatchEnv) (profile : IntegrationProfile)
    (rows : List (Row × ℕ)) :
    sumOver (rowsIn env profile rows) = rows.length := by
  induction rows with
  | nil => rfl
  | cons row rows ih =>
    obtain ⟨b, hb, -⟩ := existsUnique_bucket env profile row
    simp only [sumOver, rowsIn, List.countP_cons, List.length_cons, hb] at ih ⊢
    cases b <;> simp [Bucket.status] at ih ⊢ <;> omega

/-! ## The tally -/

theorem countOf_increment (d : Dict String ℕ) (k k' : String) :
    countOf (increment d k) k' = countOf d k' + if k = k' then 1 else 0 := by
  unfold countOf increment
  split_ifs with h
  · rw [← h, Dict.get_set_self]
    rfl
  · rw [Dict.get_set_of_ne _ _ (Ne.symm h)]
    rfl

theorem countIn_addRow (tally : Tally) (row : Row × ℕ) (b : Bucket) :
    (tally.addRow (analyzeRow env profile row)).countIn b =
      tally.countIn b + if rowStatus env profile row = b.status then 1 else 0 := by
  unfold rowStatus
  cases analyzeRow env profile row with
  | error e => cases b <;> simp [Tally.addRow, Tally.countIn, Except.toOption, Bucket.status]
  | ok result =>
    cases b <;>
      simp [Tally.addRow, Tally.countIn, Except.toOption, Bucket.status, countOf_increment]

theorem countIn_tallyOf (tally : Tally) (rows : List (Row × ℕ)) (b : Bucket) :
    (tallyOf env profile tally rows).countIn b = tally.countIn b + rowsIn env profile rows b := by
  induction rows generalizing tally with
  | nil => rfl
  | cons row rows ih =>
    rw [tallyOf_cons, ih, countIn_addRow, rowsIn, rowsIn, List.countP_cons]
    simp only [decide_eq_true_eq]
    omega

/-- The tally counts the rows of each bucket. -/
theorem countIn_tallyOf_empty (env : BatchEnv) (profile : IntegrationProfile)
    (rows : List (Row × ℕ)) (b : Bucket) :
    (tallyOf env profile {} rows).countIn b = rowsIn env profile rows b := by
  have hempty : ({} : Tally).countIn b = 0 := by cases b <;> rfl
  rw [countIn_tallyOf, hempty, Nat.zero_add]

theorem countIn_progressed (n total : ℕ) (tally : Tally) (job : BatchJob) :
    (progressed n tally total job).countIn = tally.countIn := by
  funext b
  cases b <;> rfl

theorem countIn_finished (at_ : Instant) (total : ℕ) (tally : Tally) (job : BatchJob) :
    (finished at_ tally total job).countIn = tally.countIn := by
  funext b
  cases b <;> rfl

theorem sumOver_tallyOf (env : BatchEnv) (profile : IntegrationProfile) (rows : List Row) :
    sumOver (tallyOf env profile {} rows.zipIdx).countIn = rows.length := by
  rw [funext (countIn_tallyOf_empty env profile rows.zipIdx), sumOver_rowsIn, List.length_zipIdx]

/-! ## Every commit -/

/-- The counters fit each other and the input. -/
structure Balanced (csvText : String) (job : BatchJob) : Prop where
  sum : sumOver job.countIn = job.processedRecords
  le_total : job.processedRecords ≤ job.totalRecords
  le_rows : ∀ rows, dictReader excel csvText = .ok rows → job.processedRecords ≤ rows.length

/-- The counters of a job that is done: each row is counted in its bucket. -/
def CountedOnce (env : BatchEnv) (csvText : String) (job : BatchJob) : Prop :=
  ∃ rows profile, dictReader excel csvText = .ok rows ∧
    loadProfile env job.profileId = .ok profile ∧ job.processedRecords = job.totalRecords ∧
    job.totalRecords = rows.length ∧
    (∀ row ∈ rows.zipIdx, ∃! b : Bucket, rowStatus env profile row = b.status) ∧
    ∀ b : Bucket, job.countIn b = rowsIn env profile rows.zipIdx b

theorem processedRecords_processed (env : BatchEnv) (c : Circumstances)
    (profile : IntegrationProfile) (h : job.processedRecords ≤ rows.length) :
    (processed env c profile rows job).processedRecords = rows.length := by
  cases rows with
  | nil => exact Nat.le_zero.mp h
  | cons row rows => rfl

theorem totalRecords_processed :
    (processed env c profile rows job).totalRecords = rows.length := by
  cases rows <;> rfl

theorem profileId_processed : (processed env c profile rows job).profileId = job.profileId := by
  cases rows <;> rfl

/-- What an attempt commits from balanced counters. -/
theorem Balanced.commit (h : Balanced csvText job)
    (hj : j ∈ ((processText env c csvText).run job).commits) :
    Balanced csvText j ∧
      (j.status = .completed ∨ j.status = .partlyFailed → CountedOnce env csvText j) := by
  have hstarted : ∀ rows, dictReader excel csvText = .ok rows →
      Balanced csvText (started c.startedAt rows.length job) := fun rows hrows =>
    ⟨h.sum, h.le_rows rows hrows, h.le_rows⟩
  rcases processText_cases env csvText with ⟨message, hrun⟩ | ⟨e, hrun⟩ | ⟨rows, hrows, hrun⟩
  · rw [hrun] at hj
    obtain rfl := List.mem_singleton.mp hj
    exact ⟨⟨h.sum, h.le_total, h.le_rows⟩, by simp⟩
  · rw [hrun] at hj
    cases hj
  · rw [hrun] at hj
    have hrows' : ∀ rows', dictReader excel csvText = .ok rows' → rows' = rows := by
      intro rows' h'
      exact Except.ok.inj (h'.symm.trans hrows)
    cases hprofile : loadProfile env job.profileId with
    | error e =>
      rw [processRows_error hprofile] at hj
      obtain rfl := List.mem_singleton.mp hj
      exact ⟨hstarted rows hrows, by simp [started]⟩
    | ok profile =>
      rcases (processRows_spec hprofile).commits j hj with rfl | ⟨done, rest, hdone, -, rfl⟩ | rfl
      · exact ⟨hstarted rows hrows, by simp [started]⟩
      · -- the counters of the rows that are done
        have hle : done.length ≤ rows.length := by
          rw [hdone, List.length_append]
          omega
        refine ⟨⟨?_, hle, fun rows' h' => hrows' rows' h' ▸ hle⟩, ?_⟩
        · rw [countIn_progressed, sumOver_tallyOf]
          rfl
        · simp [progressed, writeCounts, started]
      · have hprocessed := processedRecords_processed env c profile (h.le_rows rows hrows)
        have hcount : (processed env c profile rows job).countIn =
            (tallyOf env profile {} rows.zipIdx).countIn := countIn_finished _ _ _ _
        refine ⟨⟨?_, ?_, fun rows' h' => ?_⟩, fun _ => ?_⟩
        · rw [hcount, sumOver_tallyOf, hprocessed]
        · rw [hprocessed, totalRecords_processed]
        · rw [hprocessed, hrows' rows' h']
        · refine ⟨rows, profile, hrows, by rw [profileId_processed, hprofile], ?_,
            totalRecords_processed, fun row _ => existsUnique_bucket env profile row, fun b => ?_⟩
          · rw [hprocessed, totalRecords_processed]
          · rw [hcount, countIn_tallyOf_empty]

/-! ## Every run -/

/-- The store after a new job and its input. -/
def submitted (org : String) (profileId : ℕ) (profileVersion : ℤ) (csvText : String)
    (clock : Instant) (s : BatchStore) : BatchStore :=
  ((createBatch org profileId profileVersion csvText clock).run s).final s

variable {org : String} {profileId : ℕ} {profileVersion : ℤ} {clock : Instant} {s₀ : BatchStore}
  {envs : BatchEnv → Prop}

theorem submitted_job :
    ∃ job, (submitted org profileId profileVersion csvText clock s₀).jobs[s₀.jobs.length]? =
        some job ∧ Balanced csvText job := by
  let job : BatchJob := {
    organizationId := org
    profileId := profileId
    profileVersion := profileVersion
    createdAt := clock }
  refine ⟨job, ?_, rfl, Nat.le_refl 0, fun _ _ => Nat.zero_le _⟩
  show (s₀.jobs ++ [job])[s₀.jobs.length]? = some job
  simp

theorem submitted_input :
    (submitted org profileId profileVersion csvText clock s₀).inputs.get
      (inputKey s₀.jobs.length) = some csvText :=
  Dict.get_set_self s₀.inputs _ csvText

/-- An input that is there is the one that was submitted. -/
theorem eq_of_input {text : String}
    (h : s.inputs.get key = some csvText ∨ s.inputs.get key = none)
    (hget : s.inputs.get key = some text) : text = csvText := by
  rcases h with h | h
  · exact Option.some.inj (hget.symm.trans h)
  · cases hget.symm.trans h

/-- After any interrupted attempts the counters fit each other, and the input is the one that was
submitted, unless it is gone. -/
theorem Interrupted.balanced (h : Interrupted envs id key s₀ s)
    (hjob : ∃ job, s₀.jobs[id]? = some job ∧ Balanced csvText job)
    (hinput : s₀.inputs.get key = some csvText) :
    (∃ job, s.jobs[id]? = some job ∧ Balanced csvText job) ∧
      (s.inputs.get key = some csvText ∨ s.inputs.get key = none) := by
  induction h with
  | start => exact ⟨hjob, .inl hinput⟩
  | @killed s h env henv c k ih =>
    obtain ⟨⟨job, hs, hbalanced⟩, htext⟩ := ih
    rcases Session.crash_mem (processBatchAsync env c id key) k s with hcrash | hcrash
    · rw [hcrash]
      exact ⟨⟨job, hs, hbalanced⟩, htext⟩
    · obtain ⟨-, text, hget, j, hj, hjob', hinputs⟩ := mem_processBatchAsync hs hcrash
      obtain rfl : text = csvText := eq_of_input htext hget
      refine ⟨⟨j, hjob', (hbalanced.commit hj).1⟩, ?_⟩
      rcases hinputs with hsame | ⟨-, hnone⟩
      · exact .inl (hsame.trans hget)
      · exact .inr hnone
  | elsewhere h hs hin ih =>
    obtain ⟨hjob', htext⟩ := ih
    rw [hs]
    refine ⟨hjob', ?_⟩
    rcases hin with hin | hin
    · rwa [hin]
    · exact .inr hin

/-- At every commit of every attempt, whatever happened in the attempts before it, the buckets add
up to the rows that are done; when the job is done, each row is counted in its bucket. -/
theorem counters_at_commit
    (h : Interrupted (fun _ => True) s₀.jobs.length (inputKey s₀.jobs.length)
      (submitted org profileId profileVersion csvText clock s₀) s)
    (ht : t ∈ ((processBatchAsync env c s₀.jobs.length (inputKey s₀.jobs.length)).run s).commits) :
    ∃ job, t.jobs[s₀.jobs.length]? = some job ∧
      job.readyCount + job.repairableCount + job.reviewRequiredCount + job.unresolvedCount +
        job.failedCount = job.processedRecords ∧
      job.processedRecords ≤ job.totalRecords ∧
      (job.status = .completed ∨ job.status = .partlyFailed → CountedOnce env csvText job) := by
  obtain ⟨⟨job, hs, hbalanced⟩, htext⟩ := h.balanced submitted_job submitted_input
  obtain ⟨-, text, hget, j, hj, hjob, -⟩ := mem_processBatchAsync hs ht
  obtain rfl : text = csvText := eq_of_input htext hget
  obtain ⟨hj', hdone⟩ := hbalanced.commit hj
  exact ⟨j, hjob, hj'.sum, hj'.le_total, hdone⟩

/-- The second attempt at a job of two rows, after one that was killed when it had started. -/
def sampleRetry : Exec BatchStore BatchError (Option BatchReport) :=
  (processBatchAsync sampleEnv sampleCircumstances 0 (inputKey 0)).run
    (Session.crash (processBatchAsync sampleEnv sampleCircumstances 0 (inputKey 0)) 1
      (submitted "acme" 0 1 sampleInput 0 {}))

/-- What it leaves. -/
def sampleResult : BatchStore where
  jobs := [{
    organizationId := "acme"
    profileId := 0
    profileVersion := 1
    status := .partlyFailed
    totalRecords := 2
    processedRecords := 2
    readyCount := 1
    failedCount := 1
    report := some {
      totalRecords := 2
      ready := 1
      repairable := 0
      reviewRequired := 0
      unresolved := 0
      failed := 1
      topRuleFindings := [] }
    createdAt := 0
    startedAt := some 1
    completedAt := some 2 }]

theorem sampleResult_mem : sampleResult ∈ sampleRetry.commits := by
  decide +kernel

theorem counters_at_commit_sample :
    ∃ job, sampleResult.jobs[0]? = some job ∧
      job.readyCount + job.repairableCount + job.reviewRequiredCount + job.unresolvedCount +
        job.failedCount = job.processedRecords ∧
      job.processedRecords ≤ job.totalRecords ∧
      (job.status = .completed ∨ job.status = .partlyFailed →
        CountedOnce sampleEnv sampleInput job) :=
  @counters_at_commit sampleEnv sampleCircumstances sampleInput _ sampleResult "acme" 0 1 0 {}
    (.killed .start trivial sampleCircumstances 1) sampleResult_mem

end PaymentOps.Batch
