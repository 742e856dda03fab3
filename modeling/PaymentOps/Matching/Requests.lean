import PaymentOps.Lib.RowOrder
import PaymentOps.Matching.Service

/-!
# Reconciliation requests

The matching service around a run: policies and their published versions, match records, the
request that queues a run, and the worker that executes it from the ids that the request left.
Rows are keyed by their position.

* `publishPolicy` adds a version, `getPublishedPolicy` resolves the latest one;
* `createMatchRecord` stores a record as its columns keep it;
* `startReconciliation` is the request, `runReconciliation` one delivery of its task.
-/

namespace PaymentOps.Matching

/-- A row of `matching_policies`. -/
structure MatchingPolicyRow where
  organizationId : String
  name : String
  status : String := "DRAFT"
  deriving DecidableEq, Repr

/-- A row of `matching_policy_versions`. -/
structure MatchingPolicyVersion where
  policyId : ℕ
  organizationId : String
  versionNumber : ℕ
  name : String
  fieldWeights : Dict String ℚ
  thresholds : Dict String ℚ
  dateTolerances : Dict String ℤ
  amountTolerances : Dict String ℚ
  criticalFields : List String
  fuzzyAlgorithms : Dict String String
  deriving DecidableEq

/-- The datasets of a run: the ids of its records. -/
structure RunDatasets where
  sourceIds : List String := []
  candidateIds : List String := []
  deriving DecidableEq, Repr

/-- The tables of the matching service.  A row of `match_records` has the columns of a
`MatchRecord`; `datasets` are the two dataset columns of `match_runs`, by the key of the run. -/
structure RequestStore extends MatchingStore where
  datasets : ℕ → RunDatasets := fun _ => {}
  policies : List MatchingPolicyRow := []
  versions : List MatchingPolicyVersion := []
  records : List MatchRecord := []

/-- What the matching endpoints raise. -/
inductive RequestError where
  | lookupError (message : String)
  | numericOverflow
  | unprocessable (detail : String)
  deriving DecidableEq, Repr

/-- A session over the tables of the matching service. -/
abbrev MatchingService (α : Type) := Session RequestStore RequestError α

/-- What the service is given by its surroundings: Unicode, the fuzzy library, and the orders in
which the database returns rows. -/
structure MatchingEnv where
  unicode : Unicode
  fuzz : Fuzz
  recordOrder : RowOrder RequestStore RequestStore.records
  versionOrder : RowOrder RequestStore RequestStore.versions

/-! ## Columns -/

/-- A value as a `Numeric(24, 6)` column keeps it: rounded to six places, halves away from zero. -/
def quantize6 (d : Decimal) : Decimal :=
  let coefficient :=
    if -6 ≤ d.exponent then d.coefficient * 10 ^ (d.exponent + 6).toNat
    else (2 * d.coefficient + 10 ^ (-6 - d.exponent).toNat) / (2 * 10 ^ (-6 - d.exponent).toNat)
  { negative := d.negative && coefficient ≠ 0, coefficient := coefficient, exponent := -6 }

/-- A value as the column keeps it, if it is not too large. -/
def numericColumn (d : Decimal) : Except RequestError Decimal :=
  if (quantize6 d).coefficient < 10 ^ 24 then .ok (quantize6 d) else .error .numericOverflow

/-- `_domain_to_row`, as the database returns the row once it is stored. -/
def domainToRow (org : String) (record : MatchRecord) : Except RequestError MatchRecord :=
  match record.amount with
  | none => .ok { record with organizationId := org }
  | some amount => do
    let amount ← numericColumn amount
    pure { record with organizationId := org, amount := some amount }

/-- `_row_to_domain`: the metadata is passed under a name that the model ignores. -/
def rowToDomain (row : MatchRecord) : MatchRecord := { row with metadata := [] }

/-! ## Policies -/

/-- `create_policy`: a draft of this name. -/
def createPolicy (org name : String) : MatchingService ℕ :=
  .transact fun s =>
    .ok (s.policies.length, { s with policies := s.policies ++ [⟨org, name, "DRAFT"⟩] })

/-- `get_policy_row`: the policy must exist in the organization. -/
def getPolicyRow (org : String) (policyId : ℕ) (s : RequestStore) :
    Except RequestError MatchingPolicyRow :=
  match s.policies[policyId]?.filter (·.organizationId = org) with
  | some row => .ok row
  | none => .error (.lookupError "matching policy not found")

/-- The version belongs to the policy. -/
def ofPolicy (org : String) (policyId : ℕ) (v : MatchingPolicyVersion) : Bool :=
  v.policyId == policyId && v.organizationId == org

/-- `_next_version`: the versions of the policy are counted. -/
def nextVersion (org : String) (policyId : ℕ) (s : RequestStore) : ℕ :=
  s.versions.countP (ofPolicy org policyId) + 1

/-- The row of a published version. -/
def versionRow (org : String) (policyId version : ℕ) (policy : MatchingPolicy) :
    MatchingPolicyVersion where
  policyId := policyId
  organizationId := org
  versionNumber := version
  name := policy.name
  fieldWeights := policy.fieldWeights
  thresholds := policy.thresholds
  dateTolerances := policy.dateTolerances
  amountTolerances := policy.amountTolerances
  criticalFields := policy.criticalFields
  fuzzyAlgorithms := policy.fuzzyAlgorithms

/-- The policy that a version holds. -/
def versionPolicy (org : String) (v : MatchingPolicyVersion) : MatchingPolicy where
  organizationId := org
  name := v.name
  version := v.versionNumber
  fieldWeights := v.fieldWeights
  thresholds := v.thresholds
  dateTolerances := v.dateTolerances
  amountTolerances := v.amountTolerances
  criticalFields := v.criticalFields
  fuzzyAlgorithms := v.fuzzyAlgorithms

/-- Publish a policy as an immutable version. -/
def publishPolicy (org : String) (policyId : ℕ) (policy : MatchingPolicy) :
    MatchingService MatchingPolicyVersion := do
  let row ← Session.ofExcept (← Session.read (getPolicyRow org policyId))
  let version ← Session.read (nextVersion org policyId)
  let pv := versionRow org policyId version policy
  Session.commit fun s =>
    { s with
      versions := s.versions ++ [pv]
      policies := s.policies.set policyId { row with status := "PUBLISHED" } }
  pure pv

/-! ## Records -/

/-- `create_match_record`. -/
def createMatchRecord (org : String) (record : MatchRecord) : MatchingService MatchRecord :=
  .transact fun s => do
    let row ← domainToRow org record
    pure (row, { s with records := s.records ++ [row] })

/-! ## Runs -/

/-- The body of a request for a reconciliation. -/
structure ReconciliationRequest where
  sourceRecords : List MatchRecord
  candidateRecords : List MatchRecord
  policyId : Option ℕ := none

section

variable (env : MatchingEnv)

/-- The versions of a policy, latest first. -/
def policyVersions (org : String) (policyId : ℕ) (s : RequestStore) :
    List MatchingPolicyVersion :=
  ((env.versionOrder.select s (ofPolicy org policyId)).map (·.2)).insertionSort
    fun a b => b.versionNumber ≤ a.versionNumber

/-- Resolve the latest published version of a policy, or else the development baseline. -/
def getPublishedPolicy (org : String) (policyId : Option ℕ) (s : RequestStore) :
    MatchingPolicy :=
  match policyId with
  | none => defaultPolicy org
  | some policyId =>
    match (policyVersions env org policyId s).head? with
    | none => defaultPolicy org
    | some v => versionPolicy org v

/-- `create_reconciliation_run`: a pending run over these records. -/
def createReconciliationRun (org : String) (datasets : RunDatasets) (policyId : Option ℕ) :
    MatchingService ℕ :=
  .transact fun s =>
    let row : MatchRun := {
      organizationId := org
      policyId := policyId
      policyVersion := toString (getPublishedPolicy env org policyId s).version }
    .ok (s.runs.length, { s with
      runs := s.runs ++ [row]
      datasets := fun id => if id = s.runs.length then datasets else s.datasets id })

/-- `start_reconciliation`: the records are stored, then the run is queued with their ids. -/
def startReconciliation (org : String) (body : ReconciliationRequest) : MatchingService ℕ :=
  if body.sourceRecords.isEmpty && body.candidateRecords.isEmpty then
    Session.raise (.unprocessable "no records provided")
  else do
    Session.each (fun r => do let _ ← createMatchRecord org r; pure ())
      (body.sourceRecords ++ body.candidateRecords)
    createReconciliationRun env org
      { sourceIds := body.sourceRecords.map (·.recordId)
        candidateIds := body.candidateRecords.map (·.recordId) }
      body.policyId

/-- The query of `_load_records`. -/
def hasRecordId (org : String) (ids : List String) (r : MatchRecord) : Bool :=
  r.organizationId == org && ids.contains r.recordId

/-- The records of these ids, as the worker loads them. -/
def loadRecords (org : String) (ids : List String) (s : RequestStore) : List MatchRecord :=
  (env.recordOrder.select s (hasRecordId org ids)).map fun r => rowToDomain r.2

/-- The settings with which the worker executes a run. -/
def runConfig (runId : ℕ) (run : MatchRun) (s : RequestStore) : RunConfig where
  unicode := env.unicode
  fuzz := env.fuzz
  organizationId := run.organizationId
  runId := runId
  candidateRecords :=
    loadRecords env run.organizationId (s.datasets runId).candidateIds s
  policy := getPublishedPolicy env run.organizationId run.policyId s

/-- The source records of a run, as the worker loads them. -/
def runSources (runId : ℕ) (run : MatchRun) (s : RequestStore) : List MatchRecord :=
  loadRecords env run.organizationId (s.datasets runId).sourceIds s

/-- An error of the run among those of the service. -/
def liftError : MatchingError → RequestError
  | .lookupError message => .lookupError message

/-- A session on the runs and their candidates. -/
def onMatchingStore {α : Type} : Session MatchingStore MatchingError α → MatchingService α :=
  Session.zoom RequestStore.toMatchingStore (fun c s => { s with toMatchingStore := c }) liftError

/-- `_run_reconciliation`: one delivery of the task, in which no source raises. -/
def runReconciliation (runId : ℕ) : MatchingService MatchRun := do
  match ← Session.read fun s : RequestStore => s.runs[runId]? with
  | none => Session.raise (.lookupError ("reconciliation run not found: " ++ toString runId))
  | some run => do
    let sources ← Session.read (runSources env runId run)
    let cfg ← Session.read (runConfig env runId run)
    onMatchingStore (cfg.executeReconciliation sources)

end

/-! ## One delivery -/

/-- The row of a run whose loop is done. -/
def finishedRun (run : MatchRun) (st : LoopState) : MatchRun :=
  { run with
    counts := st.counts
    report := some st.counts
    status := if st.counts.failed = 0 then .completed else .partlyFailed }

/-- The store once a run is executed. -/
def delivered (runId : ℕ) (run : MatchRun) (st : LoopState) (s : RequestStore) : RequestStore :=
  { s with
    runs := s.runs.set runId (finishedRun run st)
    candidates := s.candidates ++ st.pending }

theorem executeReconciliation_run (cfg : RunConfig) {run : MatchRun} {s : MatchingStore}
    (h : s.runs[cfg.runId]? = some run) (horg : run.organizationId = cfg.organizationId)
    (sources : List MatchRecord) :
    ((cfg.executeReconciliation sources).run s).outcome =
        .ok (finishedRun run (cfg.runLoop sources)) ∧
      ((cfg.executeReconciliation sources).run s).final s =
        { runs := s.runs.set cfg.runId (finishedRun run (cfg.runLoop sources))
          candidates := s.candidates ++ (cfg.runLoop sources).pending } := by
  have hf : cfg.findRun s = .ok run := by
    simp [RunConfig.findRun, h, Option.filter, horg]
  unfold RunConfig.executeReconciliation
  rw [Session.read_bind]
  simp only [hf, Session.ofExcept_ok_bind, Session.commit_bind, Session.pure_apply,
    Session.final_cons, Session.final_nil]
  refine ⟨rfl, ?_⟩
  simp only [RunConfig.setRun, List.set_set]
  rfl

variable {env : MatchingEnv} {runId : ℕ} {run : MatchRun} {s : RequestStore}

/-- One delivery executes the run and stores its rows. -/
theorem runReconciliation_run (h : s.runs[runId]? = some run) :
    let st := (runConfig env runId run s).runLoop (runSources env runId run s)
    ((runReconciliation env runId).run s).outcome = .ok (finishedRun run st) ∧
      ((runReconciliation env runId).run s).final s = delivered runId run st s := by
  intro st
  have hexec := executeReconciliation_run (runConfig env runId run s) h rfl
    (runSources env runId run s)
  unfold runReconciliation
  rw [Session.read_bind, h]
  simp only [Session.read_bind]
  constructor
  · show Except.mapError liftError _ = _
    rw [hexec.1]
    rfl
  · rw [onMatchingStore, Session.zoom_final _ _ _ _ rfl, hexec.2]
    rfl

theorem runReconciliation_none (h : s.runs[runId]? = none) :
    ((runReconciliation env runId).run s).final s = s := by
  unfold runReconciliation
  rw [Session.read_bind, h]
  rfl

/-- Rows come back in the order of their keys. -/
def MatchingEnv.insertion : MatchingEnv where
  unicode := .ascii
  fuzz := .equality
  recordOrder := .insertion _ _
  versionOrder := .insertion _ _

end PaymentOps.Matching
