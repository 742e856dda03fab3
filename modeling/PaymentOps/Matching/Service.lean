import PaymentOps.Lib.Session
import PaymentOps.Matching.Candidates
import Mathlib.Data.List.Sort

/-!
# Reconciliation runs

`executeReconciliation` as the worker runs it: the loop over the source records with its
counters and its map of claimed candidates, and the two commits around it.  Each source has
three steps that may raise, the narrowing of the candidates, the evaluation of the pairs and the
persistence of the result; `Faults` says which of them do.  The last commit writes the candidates
as they are: the results are about runs in which it succeeds, and `flush` says of which candidates
it can.
-/

namespace PaymentOps.Matching

/-- The buckets in which a run counts its sources. -/
inductive Bucket where
  | matched | possibleMatch | reviewRequired | unmatched | duplicateCandidate | failed
  deriving DecidableEq, Repr

/-- The counters of a run. -/
structure Counts where
  total : ℕ
  matched : ℕ := 0
  possibleMatch : ℕ := 0
  reviewRequired : ℕ := 0
  unmatched : ℕ := 0
  duplicateCandidate : ℕ := 0
  failed : ℕ := 0
  deriving DecidableEq, Repr

namespace Counts

/-- The counter of a bucket. -/
def get (c : Counts) : Bucket → ℕ
  | .matched => c.matched
  | .possibleMatch => c.possibleMatch
  | .reviewRequired => c.reviewRequired
  | .unmatched => c.unmatched
  | .duplicateCandidate => c.duplicateCandidate
  | .failed => c.failed

/-- `counts[bucket] += 1` -/
def bump (c : Counts) : Bucket → Counts
  | .matched => { c with matched := c.matched + 1 }
  | .possibleMatch => { c with possibleMatch := c.possibleMatch + 1 }
  | .reviewRequired => { c with reviewRequired := c.reviewRequired + 1 }
  | .unmatched => { c with unmatched := c.unmatched + 1 }
  | .duplicateCandidate => { c with duplicateCandidate := c.duplicateCandidate + 1 }
  | .failed => { c with failed := c.failed + 1 }

/-- The sources counted in some bucket. -/
def counted (c : Counts) : ℕ :=
  c.matched + c.possibleMatch + c.reviewRequired + c.unmatched + c.duplicateCandidate + c.failed

end Counts

/-- A row of `match_candidates`. -/
structure MatchCandidate where
  organizationId : String
  runId : ℕ
  sourceRecordId : String
  candidateRecordId : String
  matchScore : ℚ
  classification : MatchClassification
  criticalConflicts : List CriticalConflict
  fieldResults : List FieldMatchResult
  explanationCodes : List String
  policyVersion : String
  engineVersion : String
  status : String := "PENDING"
  deriving DecidableEq

/-- A row of `match_runs`; the report repeats the counters. -/
structure MatchRun where
  organizationId : String
  runType : String := "RECONCILIATION"
  status : MatchStatus := .queued
  policyId : Option ℕ := none
  policyVersion : String
  counts : Counts := { total := 0 }
  report : Option Counts := none
  deriving DecidableEq

/-- The tables that a reconciliation run reads and writes. -/
structure MatchingStore where
  runs : List MatchRun := []
  candidates : List MatchCandidate := []
  deriving DecidableEq

/-- What the worker raises. -/
inductive MatchingError where
  | lookupError (message : String)
  deriving DecidableEq

/-- Which steps of the source at a position of the list raise an exception. -/
structure Faults where
  narrowing : ℕ → Bool := fun _ => false
  evaluation : ℕ → Bool := fun _ => false
  persistence : ℕ → Bool := fun _ => false

/-- What the loop over the sources updates.  `pending` are the rows added to the session, which
the commit after the loop writes. -/
structure LoopState where
  counts : Counts
  claimed : Dict String String := []
  pending : List MatchCandidate := []
  deriving DecidableEq

/-- The body of the loop: an exception keeps the updates made before it. -/
abbrev SourceM := ExceptT Unit (StateM LoopState)

namespace SourceM

/-- The outcome of the body and the loop state it leaves. -/
def exec {α : Type} (m : SourceM α) (st : LoopState) : Except Unit α × LoopState :=
  m.run.run st

/-- Count a source. -/
def bump (b : Bucket) : SourceM Unit := modify fun st => { st with counts := st.counts.bump b }

/-- Note which source has claimed a candidate. -/
def claim (candidateId sourceId : String) : SourceM Unit :=
  modify fun st => { st with claimed := st.claimed.set candidateId sourceId }

/-- A step that may raise. -/
def raiseIf (b : Bool) : SourceM Unit := if b then throw () else pure ()

end SourceM

open SourceM

/-- Everything a run is given, besides its sources. -/
structure RunConfig where
  unicode : Unicode
  fuzz : Fuzz
  organizationId : String
  runId : ℕ
  candidateRecords : List MatchRecord
  policy : MatchingPolicy
  faults : Faults := {}

/-- The version that each candidate carries. -/
def engineVersion : String := "0.2.0"

namespace RunConfig

variable (cfg : RunConfig)

/-- The candidates of a source, each with the decision on the pair. -/
def decisionsFor (src : MatchRecord) : List (MatchRecord × MatchDecision) :=
  (filterCandidates cfg.unicode src cfg.candidateRecords cfg.policy defaultMaxCandidates).map
    fun cand => (cand, evaluatePair cfg.unicode cfg.fuzz src cand cfg.policy engineVersion)

/-- `decisions.sort(key=match_score, reverse=True)`: strongest first, ties in their old order. -/
def ranked (src : MatchRecord) : List (MatchRecord × MatchDecision) :=
  (cfg.decisionsFor src).insertionSort fun a b => b.2.matchScore ≤ a.2.matchScore

/-- The row of a candidate. -/
def candidateRow (src cand : MatchRecord) (decision : MatchDecision)
    (classification : MatchClassification) : MatchCandidate where
  organizationId := cfg.organizationId
  runId := cfg.runId
  sourceRecordId := src.recordId
  candidateRecordId := cand.recordId
  matchScore := decision.matchScore
  classification := classification
  criticalConflicts := decision.criticalConflicts
  fieldResults := decision.fieldResults
  explanationCodes := decision.explanationCodes
  policyVersion := decision.policyVersion
  engineVersion := decision.engineVersion

/-- `_persist_candidate`, which only adds to the session. -/
def persistCandidate (i : ℕ) (src cand : MatchRecord) (decision : MatchDecision)
    (classification : MatchClassification) : SourceM Unit := do
  raiseIf (cfg.faults.persistence i)
  modify fun st =>
    { st with pending := st.pending ++ [cfg.candidateRow src cand decision classification] }

/-- The classification under which the best candidate of a source is persisted, with the bucket
in which the source is counted. -/
def resolve (claimed : Dict String String) (src : MatchRecord)
    (decisions : List (MatchRecord × MatchDecision)) (best : MatchRecord × MatchDecision) :
    MatchClassification × Bucket :=
  let strong := decisions.filter fun d => d.2.classification = .matched
  if 1 < strong.length then (.duplicateCandidate, .duplicateCandidate)
  else if (claimed.get best.1.recordId).any (· ≠ src.recordId) then
    (.reviewRequired, .reviewRequired)
  else match best.2.classification with
    | .matched => (.matched, .matched)
    | .possibleMatch => (.possibleMatch, .possibleMatch)
    | c => (c, .reviewRequired)

/-- The body of the `try` in the loop of `execute_reconciliation`. -/
def processSource (i : ℕ) (src : MatchRecord) : SourceM Unit := do
  raiseIf (cfg.faults.narrowing i)
  if (cfg.decisionsFor src).isEmpty then
    bump .unmatched
  else
    raiseIf (cfg.faults.evaluation i)
    match cfg.ranked src with
    | [] => pure ()
    | best :: rest =>
      if best.2.classification = .unmatched then
        bump .unmatched
      else
        let (classification, bucket) :=
          resolve (← get).claimed src (best :: rest) best
        bump bucket
        if classification = .matched ∨ classification = .possibleMatch then
          claim best.1.recordId src.recordId
        cfg.persistCandidate i src best.1 best.2 classification

/-- One iteration: an exception counts the source as failed. -/
def iteration (i : ℕ) (src : MatchRecord) (st : LoopState) : LoopState :=
  match (cfg.processSource i src).exec st with
  | (.ok _, st) => st
  | (.error _, st) => { st with counts := st.counts.bump .failed }

/-- An iteration of the loop: the position of its source, the source, the state it starts in. -/
structure Visit where
  index : ℕ
  source : MatchRecord
  before : LoopState

/-- The iterations over the sources, from position `i` on. -/
def visitsFrom (i : ℕ) (st : LoopState) : List MatchRecord → List Visit
  | [] => []
  | src :: sources => ⟨i, src, st⟩ :: visitsFrom (i + 1) (cfg.iteration i src st) sources

/-- The loop over the sources, from position `i` on. -/
def loop (i : ℕ) (st : LoopState) : List MatchRecord → LoopState
  | [] => st
  | src :: sources => loop (i + 1) (cfg.iteration i src st) sources

/-- The state before the loop. -/
def initialState (sources : List MatchRecord) : LoopState where
  counts := { total := sources.length }

/-- The loop of a run over its sources. -/
def runLoop (sources : List MatchRecord) : LoopState :=
  cfg.loop 0 (initialState sources) sources

/-- The iterations of a run. -/
def visits (sources : List MatchRecord) : List Visit :=
  cfg.visitsFrom 0 (initialState sources) sources

/-- The state that an iteration leaves. -/
def after (v : Visit) : LoopState := cfg.iteration v.index v.source v.before

/-- `_get_run`: the run must exist in the organization. -/
def findRun (s : MatchingStore) : Except MatchingError MatchRun :=
  match s.runs[cfg.runId]?.filter (·.organizationId = cfg.organizationId) with
  | some run => .ok run
  | none => .error (.lookupError "reconciliation run not found")

/-- Write the row of the run. -/
def setRun (run : MatchRun) (s : MatchingStore) : MatchingStore :=
  { s with runs := s.runs.set cfg.runId run }

/-- `execute_reconciliation`. -/
def executeReconciliation (sources : List MatchRecord) :
    Session MatchingStore MatchingError MatchRun := do
  let run ← Session.ofExcept (← Session.read cfg.findRun)
  let run := { run with status := .running }
  Session.commit (cfg.setRun run)
  let final := cfg.runLoop sources
  let run := { run with
    counts := final.counts
    report := some final.counts
    status := if final.counts.failed = 0 then .completed else .partlyFailed }
  Session.commit fun s =>
    { cfg.setRun run s with candidates := s.candidates ++ final.pending }
  pure run

end RunConfig

end PaymentOps.Matching
