import Mathlib.Data.List.Sort
import PaymentOps.Batch.Rows
import PaymentOps.Lib.Session

/-!
# Batches

`processBatchAsync` reads the stored input of a job and analyzes it row by row.  Its counters are
committed when the job starts, at every `progressInterval`-th row, at the last row and at the end;
a worker that is killed leaves the last of these commits.

Jobs are keyed by their position, the stored inputs by their redis key.  What the engine says about
a row, or raises, is a parameter, `BatchEnv.engine`, down to the levels of the addresses of its
message; it may differ for two rows with one text.
-/

namespace PaymentOps.Batch

open Csv Profiles

/-- The states of a job. -/
inductive JobStatus where
  | queued | running | completed | partlyFailed | failed
  deriving DecidableEq, Repr

/-- The name of a state. -/
def JobStatus.value : JobStatus → String
  | queued => "QUEUED"
  | running => "RUNNING"
  | completed => "COMPLETED"
  | partlyFailed => "PARTIAL"
  | failed => "FAILED"

/-- `job.status in ("COMPLETED", "PARTIAL", "FAILED")` -/
def JobStatus.terminal (status : JobStatus) : Bool :=
  ["COMPLETED", "PARTIAL", "FAILED"].contains status.value

/-- The report of a finished job. -/
structure BatchReport where
  totalRecords : ℕ
  ready : ℕ
  repairable : ℕ
  reviewRequired : ℕ
  unresolved : ℕ
  failed : ℕ
  topRuleFindings : List (String × ℕ)
  deriving DecidableEq, Repr

/-- A row of `batch_jobs`. -/
structure BatchJob where
  organizationId : String
  profileId : ℕ
  profileVersion : ℤ
  status : JobStatus := .queued
  totalRecords : ℕ := 0
  processedRecords : ℕ := 0
  readyCount : ℕ := 0
  repairableCount : ℕ := 0
  reviewRequiredCount : ℕ := 0
  unresolvedCount : ℕ := 0
  failedCount : ℕ := 0
  report : Option BatchReport := none
  createdAt : Instant
  startedAt : Option Instant := none
  completedAt : Option Instant := none
  deriving DecidableEq, Repr

/-- The jobs, and the inputs in redis. -/
structure BatchStore where
  jobs : List BatchJob := []
  inputs : Dict String String := []
  deriving DecidableEq

/-- What the batch service raises. -/
inductive BatchError where
  | lookupError (message : String)
  | batchLimitError (message : String)
  | noResultFound
  | csvError (e : Csv.Error)

/-- A session over the jobs and their inputs. -/
abbrev BatchService (α : Type) := Session BatchStore BatchError α

/-- What the engine finds in the message of a row. -/
structure EngineResult where
  levels : List AddressReadiness
  ruleFindings : List RuleFinding

/-- What a batch reads of the result of an analysis. -/
structure AnalysisResult where
  addressReadiness : Option String
  ruleFindings : List RuleFinding

/-- What does not change while a job is processed. -/
structure BatchEnv where
  profiles : ℕ → Option IntegrationProfileRow
  /-- the analysis of the row with the index -/
  engine : IntegrationProfile → ℕ → String → Except RowError EngineResult

/-- What one attempt meets: the clock where it starts and where it ends, and whether redis deletes
the input. -/
structure Circumstances where
  startedAt : Instant
  completedAt : Instant
  deletes : Bool

/-- The longest file, in bytes. -/
def maxFileBytes : ℕ := 2000000

/-- The most rows of a file. -/
def maxRows : ℕ := 5000

/-- The rows between two commits of the progress. -/
def progressInterval : ℕ := 25

/-! ## Rows -/

/-- `_aggregate_readiness` -/
def aggregateReadiness (levels : List AddressReadiness) : String :=
  if levels.isEmpty then "UNRESOLVED"
  else if levels.all (· = .ready) then "READY"
  else if levels.contains .unresolved then "UNRESOLVED"
  else if levels.contains .reviewRequired then "REVIEW_REQUIRED"
  else "REPAIRABLE"

/-- `analyze_profile` of the row with the index, down to what a batch reads. -/
def analyzeProfile (env : BatchEnv) (profile : IntegrationProfile) (index : ℕ) (payload : String) :
    Except RowError AnalysisResult :=
  (env.engine profile index payload).map fun r =>
    { addressReadiness := some (aggregateReadiness r.levels), ruleFindings := r.ruleFindings }

/-- The body of the `try` block of a row. -/
def analyzeRow (env : BatchEnv) (profile : IntegrationProfile) (row : Row × ℕ) :
    Except RowError AnalysisResult := do
  let text ← (csvTextRow row.1).mapError .service
  analyzeProfile env profile row.2 text

/-- `str(result.get("address_readiness") or "UNRESOLVED")` -/
def statusOf (result : AnalysisResult) : String :=
  if Text.truthy result.addressReadiness then result.addressReadiness.getD "" else "UNRESOLVED"

/-- `counts`, `failed` and `top_rules` -/
structure Tally where
  counts : Dict String ℕ :=
    [("READY", 0), ("REPAIRABLE", 0), ("REVIEW_REQUIRED", 0), ("UNRESOLVED", 0)]
  failed : ℕ := 0
  topRules : Dict String ℕ := []

/-- `d.get(k, 0)` -/
def countOf (d : Dict String ℕ) (k : String) : ℕ := (d.get k).getD 0

/-- `d[k] = d.get(k, 0) + 1` -/
def increment (d : Dict String ℕ) (k : String) : Dict String ℕ := d.set k (countOf d k + 1)

/-- What a row adds. -/
def Tally.addRow (tally : Tally) : Except RowError AnalysisResult → Tally
  | .ok result =>
    { tally with
      counts := increment tally.counts (statusOf result)
      topRules := result.ruleFindings.foldl (fun d f => increment d f.ruleId) tally.topRules }
  | .error _ => { tally with failed := tally.failed + 1 }

/-- The ten rules with the most findings, in the order in which they came up. -/
def topRuleFindings (topRules : Dict String ℕ) : List (String × ℕ) :=
  (topRules.insertionSort fun a b => b.2 ≤ a.2).take 10

/-- `_write_counts` -/
def writeCounts (job : BatchJob) (tally : Tally) (total : ℕ) : BatchJob :=
  { job with
    readyCount := countOf tally.counts "READY"
    repairableCount := countOf tally.counts "REPAIRABLE"
    reviewRequiredCount := countOf tally.counts "REVIEW_REQUIRED"
    unresolvedCount := countOf tally.counts "UNRESOLVED"
    failedCount := tally.failed
    report := some {
      totalRecords := total
      ready := countOf tally.counts "READY"
      repairable := countOf tally.counts "REPAIRABLE"
      reviewRequired := countOf tally.counts "REVIEW_REQUIRED"
      unresolved := countOf tally.counts "UNRESOLVED"
      failed := tally.failed
      topRuleFindings := topRuleFindings tally.topRules } }

/-! ## A job -/

/-- The job that is processed. -/
abbrev JobSession (α : Type) := Session BatchJob BatchError α

/-- `_load_profile` -/
def loadProfile (env : BatchEnv) (profileId : ℕ) : Except BatchError IntegrationProfile :=
  match env.profiles profileId with
  | none => .error .noResultFound
  | some row => .ok {
      id := some profileId
      organizationId := row.organizationId
      name := row.name
      inputFormat := row.inputFormat
      status := row.status
      mapping := row.mapping
      rules := row.rules
      versionNumber := row.versionNumber
      addressPolicy := row.addressPolicy }

/-- The job as it starts: the counters of an earlier attempt stay. -/
def started (at_ : Instant) (total : ℕ) (job : BatchJob) : BatchJob :=
  { job with status := .running, startedAt := some at_, totalRecords := total }

/-- The job when `n` rows are done. -/
def progressed (n : ℕ) (tally : Tally) (total : ℕ) (job : BatchJob) : BatchJob :=
  writeCounts { job with processedRecords := n } tally total

/-- The job when all its rows are counted. -/
def finished (at_ : Instant) (tally : Tally) (total : ℕ) (job : BatchJob) : BatchJob :=
  writeCounts
    { job with
      status := if tally.failed = 0 then .completed else .partlyFailed
      completedAt := some at_ }
    tally total

/-- One row with its index.  `processed_records` is written with the next commit, which is the one
of the last row at the latest. -/
def processRow (env : BatchEnv) (profile : IntegrationProfile) (total : ℕ) (tally : Tally)
    (row : Row × ℕ) : JobSession Tally := do
  let tally := tally.addRow (analyzeRow env profile row)
  if (row.2 + 1) % progressInterval = 0 ∨ row.2 + 1 = total then
    .commit (progressed (row.2 + 1) tally total)
  pure tally

/-- The attempt from its first commit on. -/
def processRows (env : BatchEnv) (c : Circumstances) (rows : List Row) :
    JobSession (Option BatchReport) := do
  .commit (started c.startedAt rows.length)
  let profileId ← .read BatchJob.profileId
  let profile ← .ofExcept (loadProfile env profileId)
  let tally ← .fold (processRow env profile rows.length) {} rows.zipIdx
  .commit (finished c.completedAt tally rows.length)
  .read BatchJob.report

/-- A job over a limit fails. -/
def exceed (message : String) : JobSession (Option BatchReport) := do
  .commit fun job => { job with status := .failed }
  .raise (.batchLimitError message)

/-- The attempt on the text of an input: the limits, then its rows. -/
def processText (env : BatchEnv) (c : Circumstances) (csvText : String) :
    JobSession (Option BatchReport) :=
  if maxFileBytes < csvText.utf8ByteSize then exceed "batch file too large"
  else do
    let rows ← .ofExcept ((dictReader excel csvText).mapError .csvError)
    if maxRows < rows.length then exceed "too many rows" else processRows env c rows

/-! ## The service -/

/-- The row of a new job. -/
def createBatchJob (org : String) (profileId : ℕ) (profileVersion : ℤ) (clock : Instant) :
    BatchService ℕ :=
  .transact fun s =>
    let job : BatchJob := {
      organizationId := org
      profileId := profileId
      profileVersion := profileVersion
      createdAt := clock }
    .ok (s.jobs.length, { s with jobs := s.jobs ++ [job] })

/-- The redis key of a job's input. -/
def inputKey (jobId : ℕ) : String := "paymentops:batch:" ++ toString jobId ++ ":input"

/-- Store the input of a job. -/
def storeInput (jobId : ℕ) (csvText : String) : BatchService String :=
  .transact fun s =>
    .ok (inputKey jobId, { s with inputs := s.inputs.set (inputKey jobId) csvText })

/-- `POST /api/v1/batches`, up to the limit on the size of the body. -/
def createBatch (org : String) (profileId : ℕ) (profileVersion : ℤ) (csvText : String)
    (clock : Instant) : BatchService ℕ := do
  let id ← createBatchJob org profileId profileVersion clock
  let _ ← storeInput id csvText
  pure id

/-- The row of a job. -/
def getRow (jobId : ℕ) : BatchService BatchJob := do
  match ← .read fun s => s.jobs[jobId]? with
  | some job => pure job
  | none => .raise (.lookupError "job not found")

/-- The stored input of a key. -/
def getInput (key : String) : BatchService String := do
  match ← .read fun s => s.inputs.get key with
  | some text => pure text
  | none => .raise (.lookupError "batch input not found")

/-- The store with another row for a job. -/
def withJob (jobId : ℕ) (job : BatchJob) (s : BatchStore) : BatchStore :=
  { s with jobs := s.jobs.set jobId job }

/-- A session on the row of a loaded job. -/
def onJob {α : Type} (jobId : ℕ) (job : BatchJob) (m : JobSession α) : BatchService α :=
  .zoom (fun s => (s.jobs[jobId]?).getD job) (withJob jobId) id m

/-- Deleting the input; a failure is only logged. -/
def deleteInput (c : Circumstances) (key : String) : BatchService Unit :=
  if c.deletes then .commit fun s => { s with inputs := s.inputs.filter (·.1 ≠ key) } else pure ()

/-- A job in a terminal status is not processed again. -/
def processBatchAsync (env : BatchEnv) (c : Circumstances) (jobId : ℕ) (key : String) :
    BatchService (Option BatchReport) := do
  let job ← getRow jobId
  if job.status.terminal then pure job.report
  else do
    let csvText ← getInput key
    let report ← onJob jobId job (processText env c csvText)
    deleteInput c key
    pure report

end PaymentOps.Batch
