import PaymentOps.Batch.Counters
import PaymentOps.Profiles.Snapshots

/-!
# The profile version of a job

A job records a profile version.  The number comes from the request, where it is 1 unless the
client says otherwise, and nothing compares it with the profile; the worker loads the profile as
it is when the job is processed.

* `analysesOf` is what an attempt at a job asks of the engine (`processBatchAsync_congr`);
* `analyzedAsRecorded_iff`: the rows are analyzed with the content that the profile had at the
  recorded version exactly when that is the profile's version and the last update until then, if
  there is any, has the content that the profile had;
* `edited_before_processing` is a draft that is edited while its job is queued.
-/

namespace PaymentOps.Batch

open Csv Mapping Profiles

variable {env env' : BatchEnv} {c : Circumstances} {rows : List Row} {job : BatchJob}
  {jobId : ℕ} {key : String} {b : BatchStore}

/-! ## What is analyzed -/

/-- The rows that are processed with their positions, each with the profile for it. -/
def analyses (env : BatchEnv) (job : BatchJob) (rows : List Row) :
    List ((Row × ℕ) × IntegrationProfile) :=
  match loadProfile env job.profileId with
  | .error _ => []
  | .ok profile => rows.zipIdx.map fun row => (row, profile)

/-- The rows of an input, unless it is over a limit or can not be read. -/
def rowsWithin (csvText : String) : List Row :=
  if maxFileBytes < csvText.utf8ByteSize then []
  else
    match dictReader excel csvText with
    | .error _ => []
    | .ok rows => if maxRows < rows.length then [] else rows

/-- The analyses of an attempt at a job. -/
def analysesOf (env : BatchEnv) (jobId : ℕ) (key : String) (b : BatchStore) :
    List ((Row × ℕ) × IntegrationProfile) :=
  match b.jobs[jobId]?, b.inputs.get key with
  | some job, some csvText =>
    if job.status.terminal then [] else analyses env job (rowsWithin csvText)
  | _, _ => []

theorem fold_processRow_congr {profile : IntegrationProfile} {total : ℕ}
    {rows : List (Row × ℕ)}
    (h : ∀ row ∈ rows, analyzeRow env profile row = analyzeRow env' profile row) (tally : Tally) :
    Session.fold (processRow env profile total) tally rows =
      Session.fold (processRow env' profile total) tally rows := by
  induction rows generalizing tally with
  | nil => rfl
  | cons row rows ih =>
    have hrow : processRow env profile total tally row =
        processRow env' profile total tally row := by
      unfold processRow
      rw [h row List.mem_cons_self]
    rw [Session.fold_cons, Session.fold_cons, hrow]
    refine congrArg _ (funext fun tally' => ?_)
    exact ih (fun r hr => h r (List.mem_cons_of_mem _ hr)) tally'

theorem processRows_congr (hprofiles : env.profiles = env'.profiles)
    (h : ∀ a ∈ analyses env job rows, analyzeRow env a.2 a.1 = analyzeRow env' a.2 a.1) :
    (processRows env c rows).run job = (processRows env' c rows).run job := by
  have hload : loadProfile env job.profileId = loadProfile env' job.profileId := by
    rw [loadProfile, loadProfile, hprofiles]
  unfold processRows
  rw [Session.commit_bind, Session.commit_bind, Session.read_bind, Session.read_bind,
    show (started c.startedAt rows.length job).profileId = job.profileId from rfl, ← hload]
  unfold analyses at h
  cases hprofile : loadProfile env job.profileId with
  | error e => rfl
  | ok profile =>
    rw [hprofile] at h
    rw [Session.ofExcept_ok_bind, Session.ofExcept_ok_bind,
      fold_processRow_congr (fun row hrow => h _ (List.mem_map.mpr ⟨row, hrow, rfl⟩)) {}]

/-- An attempt asks nothing of the engine but its analyses. -/
theorem processBatchAsync_congr (hprofiles : env.profiles = env'.profiles)
    (h : ∀ a ∈ analysesOf env jobId key b, analyzeRow env a.2 a.1 = analyzeRow env' a.2 a.1) :
    (processBatchAsync env c jobId key).run b = (processBatchAsync env' c jobId key).run b := by
  cases hjob : b.jobs[jobId]? with
  | none =>
    have hget : (getRow jobId).run b = ⟨[], .error (.lookupError "job not found")⟩ := by
      rw [getRow, Session.read_bind, hjob]
      rfl
    rw [processBatchAsync, processBatchAsync, Session.bind_error (congrArg Exec.outcome hget),
      Session.bind_error (congrArg Exec.outcome hget)]
  | some job =>
    rw [processBatchAsync, processBatchAsync, getRow_bind hjob, getRow_bind hjob]
    by_cases hterminal : job.status.terminal = true
    · rw [if_pos hterminal, if_pos hterminal]
    rw [if_neg hterminal, if_neg hterminal]
    cases hinput : b.inputs.get key with
    | none =>
      have hget : (getInput key).run b =
          ⟨[], .error (.lookupError "batch input not found")⟩ := by
        rw [getInput, Session.read_bind, hinput]
        rfl
      rw [Session.bind_error (congrArg Exec.outcome hget),
        Session.bind_error (congrArg Exec.outcome hget)]
    | some csvText =>
      rw [getInput_bind hinput, getInput_bind hinput]
      have htext : (processText env c csvText).run job = (processText env' c csvText).run job := by
        simp only [analysesOf, hjob, hinput, if_neg hterminal] at h
        unfold processText
        unfold rowsWithin at h
        split_ifs at h ⊢ with hbytes
        · rfl
        cases hread : dictReader excel csvText with
        | error e => rfl
        | ok rows =>
          rw [hread] at h
          dsimp only at h
          rw [Except.mapError, Session.ofExcept_ok_bind, Session.ofExcept_ok_bind]
          split_ifs at h ⊢ with hrows
          · rfl
          · exact processRows_congr hprofiles h
      have hon := onJob_run hjob (processText env c csvText)
      have hon' := onJob_run hjob (processText env' c csvText)
      rw [htext, ← hon'] at hon
      rw [Session.bind_apply, Session.bind_apply, hon]

/-! ## The content of a profile -/

/-- How a profile maps a row, and which rules it applies to it. -/
structure ProfileContent where
  mapping : MappingDefinition
  rules : List RuleConfig

/-- The content of a loaded profile. -/
def contentOf (profile : IntegrationProfile) : ProfileContent := ⟨profile.mapping, profile.rules⟩

/-- The content of a profile's row. -/
def rowContent (row : IntegrationProfileRow) : ProfileContent := ⟨row.mapping, row.rules⟩

/-- The content of a published version. -/
def snapshotContent (v : IntegrationProfileVersion) : ProfileContent := ⟨v.mapping, v.rules⟩

/-- What a profile says at a version: the row, if this is its version, or else a snapshot. -/
def contentAt (s : ProfileStore) (id : ℕ) (version : ℤ) : Option ProfileContent :=
  match s.profiles[id]?.filter (·.versionNumber = version) with
  | some row => some (rowContent row)
  | none =>
    (s.versions.find? fun v => v.profileId = id ∧ v.versionNumber = version).map snapshotContent

section

variable {db : ProfileColumns} {calls : List ProfileCall} {s : ProfileStore} {id : ℕ}
  {row : IntegrationProfileRow}

theorem snapshotsMatch_after (db : ProfileColumns) (calls : List ProfileCall) :
    SnapshotsMatch (Session.after (perform db) calls {}) :=
  Session.after_of_commits (by simp [SnapshotsMatch])
    fun _ _ _ hs _ ht => snapshotsMatch_step hs ht

/-- A profile has the content of its row, at its own version number and at no other. -/
theorem contentAt_eq (hs : SnapshotsMatch s) (hrow : s.profiles[id]? = some row) (version : ℤ) :
    contentAt s id version =
      if version = row.versionNumber then some (rowContent row) else none := by
  unfold contentAt
  rw [hrow]
  by_cases hversion : version = row.versionNumber
  · simp [Option.filter, hversion]
  · -- every snapshot of the profile has the number of the row
    have hnone : ∀ v ∈ s.versions, ¬ (v.profileId = id ∧ v.versionNumber = version) := by
      rintro v hv ⟨rfl, rfl⟩
      obtain ⟨row', hrow', heq⟩ := hs v hv
      rw [hrow] at hrow'
      cases hrow'
      exact hversion heq.symm
    simpa [Option.filter, Ne.symm hversion, hversion] using hnone

/-- The update goes through: the profile is the organization's, it is not published, and its row
fits. -/
def Updatable (db : ProfileColumns) (org : String) (id : ℕ) (profile : IntegrationProfile)
    (s : ProfileStore) : Bool :=
  match Profiles.getRow org id s with
  | .error _ => false
  | .ok row => row.status ≠ .published && db.takesProfile (updatedRow row profile)

/-- The body with which a call replaces the content of the profile. -/
def acceptedUpdate (db : ProfileColumns) (id : ℕ) (call : ProfileCall × ProfileStore) :
    Option IntegrationProfile :=
  match call.1 with
  | .update org id' profile => if id' = id ∧ Updatable db org id profile call.2 then some profile
    else none
  | _ => none

/-- The bodies with which a run replaces the content of the profile, in their order. -/
def acceptedUpdates (db : ProfileColumns) (id : ℕ) (calls : List ProfileCall) (s : ProfileStore) :
    List IntegrationProfile :=
  (Session.calls (perform db) calls s).filterMap (acceptedUpdate db id)

theorem updateProfile_final (hrow : s.profiles[id]? = some row) (org : String)
    (profile : IntegrationProfile) :
    ((updateProfile db org id profile).run s).final s =
      if Updatable db org id profile s then
        { s with profiles := s.profiles.set id (updatedRow row profile) }
      else s := by
  unfold updateProfile Updatable
  cases hget : Profiles.getRow org id s with
  | error e =>
    rw [Session.transact_error (by rw [hget]; rfl)]
    rfl
  | ok row₀ =>
    obtain rfl : row₀ = row := Option.some.inj ((getRow_eq_ok.mp hget).1.symm.trans hrow)
    by_cases hpublished : row₀.status = .published
    · rw [Session.transact_error (by rw [hget]; exact if_pos hpublished)]
      simp [hpublished]
    by_cases htakes : db.takesProfile (updatedRow row₀ profile)
    · rw [Session.transact_ok
        (by rw [hget]; exact (if_neg hpublished).trans (if_pos htakes))]
      simp [hpublished, htakes]
    · rw [Session.transact_error
        (by rw [hget]; exact (if_neg hpublished).trans (if_neg htakes))]
      simp [hpublished, htakes]

/-- The content of a profile after a call. -/
theorem content_of_call (db : ProfileColumns) (hrow : s.profiles[id]? = some row)
    (call : ProfileCall) :
    ∃ row', (((perform db call).run s).final s).profiles[id]? = some row' ∧
      rowContent row' =
        ((acceptedUpdate db id (call, s)).map contentOf).getD (rowContent row) := by
  have hlt : id < s.profiles.length := (List.getElem?_eq_some_iff.mp hrow).1
  cases call with
  | create org profile =>
    refine ⟨row, ?_, rfl⟩
    refine Session.final_of_commits (I := fun t : ProfileStore => t.profiles[id]? = some row) hrow
      fun t ht => ?_
    obtain ⟨-, rfl⟩ := mem_createProfile.mp ht
    rw [List.getElem?_append_left hlt, hrow]
  | publish org id' =>
    refine Session.final_of_commits (I := fun t : ProfileStore =>
      ∃ row', t.profiles[id]? = some row' ∧ rowContent row' = rowContent row)
      ⟨row, hrow, rfl⟩ fun t ht => ?_
    obtain ⟨row₀, hp, rfl⟩ := mem_publishProfile.mp ht
    by_cases hid : id' = id
    · subst hid
      obtain rfl : row₀ = row := Option.some.inj ((getRow_eq_ok.mp hp.1).1.symm.trans hrow)
      exact ⟨_, List.getElem?_set_self hlt, rfl⟩
    · exact ⟨row, by rw [List.getElem?_set_ne hid, hrow], rfl⟩
  | update org id' profile =>
    by_cases hid : id' = id
    · subst hid
      rw [perform, updateProfile_final hrow]
      by_cases haccept : Updatable db org id' profile s = true
      · rw [if_pos haccept]
        refine ⟨_, List.getElem?_set_self hlt, ?_⟩
        simp only [acceptedUpdate, haccept, and_self, if_true]
        rfl
      · rw [if_neg haccept]
        refine ⟨row, hrow, ?_⟩
        simp [acceptedUpdate, haccept]
    · refine ⟨row, ?_, by simp [acceptedUpdate, hid]⟩
      refine Session.final_of_commits (I := fun t : ProfileStore => t.profiles[id]? = some row)
        hrow fun t ht => ?_
      obtain ⟨row₀, -, -, rfl⟩ := mem_updateProfile ht
      rw [List.getElem?_set_ne hid, hrow]

/-- The content of a profile after a run: that of the last update, or the one that it had. -/
theorem content_after (db : ProfileColumns) (hrow : s.profiles[id]? = some row)
    (calls : List ProfileCall) :
    ∃ row', (Session.after (perform db) calls s).profiles[id]? = some row' ∧
      rowContent row' =
        ((acceptedUpdates db id calls s).getLast?.map contentOf).getD (rowContent row) := by
  induction calls generalizing s row with
  | nil => exact ⟨row, hrow, rfl⟩
  | cons call calls ih =>
    obtain ⟨row₁, hrow₁, hcontent₁⟩ := content_of_call db hrow call
    obtain ⟨row', hrow', hcontent'⟩ := ih hrow₁
    refine ⟨row', hrow', ?_⟩
    rw [hcontent', hcontent₁, acceptedUpdates, acceptedUpdates, Session.calls, List.filterMap_cons]
    cases acceptedUpdate db id (call, s) with
    | none => rfl
    | some profile =>
      rw [List.getLast?_cons]
      cases (List.filterMap (acceptedUpdate db id) (Session.calls (perform db) calls
        (((perform db call).run s).final s))).getLast? <;> rfl

end

/-! ## A job and its version -/

/-- The body of `POST /api/v1/batches`. -/
structure CreateBatchRequest where
  profileId : ℕ
  csv : String
  profileVersion : ℤ := 1

/-- `POST /api/v1/batches`: the profile must be the organization's; its status and its version
number are not looked at. -/
def postBatch (profiles : ProfileStore) (org : String) (body : CreateBatchRequest)
    (clock : Instant) : BatchService ℕ :=
  if maxFileBytes < body.csv.utf8ByteSize then .raise (.batchLimitError "batch file too large")
  else do
    let _ ← .ofExcept ((Profiles.getRow org body.profileId profiles).mapError fun _ =>
      .lookupError "profile not found")
    createBatch org body.profileId body.profileVersion body.csv clock

/-- The worker finds the profiles as they are in the store. -/
def workerEnv (profiles : ProfileStore)
    (engine : IntegrationProfile → ℕ → String → Except RowError EngineResult) : BatchEnv where
  profiles id := profiles.profiles[id]?
  engine := engine

/-- The job is created in the one store of profiles and processed in the other: each row is
analyzed with the content that the profile had at the recorded version. -/
def AnalyzedAsRecorded (created processed : ProfileStore)
    (engine : IntegrationProfile → ℕ → String → Except RowError EngineResult) (jobId : ℕ)
    (b : BatchStore) : Prop :=
  ∀ job, b.jobs[jobId]? = some job →
    ∀ a ∈ analysesOf (workerEnv processed engine) jobId (inputKey jobId) b,
      contentAt created job.profileId job.profileVersion = some (contentOf a.2)

theorem postBatch_ok {profiles : ProfileStore} {org : String} {body : CreateBatchRequest}
    {clock : Instant}
    (h : ((postBatch profiles org body clock).run b).outcome = .ok jobId) :
    ∃ row job, profiles.profiles[body.profileId]? = some row ∧
      let b' := ((postBatch profiles org body clock).run b).final b
      b'.jobs[jobId]? = some job ∧ b'.inputs.get (inputKey jobId) = some body.csv ∧
        job.status = .queued ∧ job.profileId = body.profileId ∧
        job.profileVersion = body.profileVersion := by
  unfold postBatch at h ⊢
  split_ifs at h ⊢ with hbytes
  · cases h
  cases hrow : Profiles.getRow org body.profileId profiles with
  | error e =>
    rw [hrow] at h
    cases h
  | ok row =>
    rw [hrow] at h
    obtain rfl : b.jobs.length = jobId := Except.ok.inj h
    let job : BatchJob := {
      organizationId := org
      profileId := body.profileId
      profileVersion := body.profileVersion
      createdAt := clock }
    refine ⟨row, job, (getRow_eq_ok.mp hrow).1, ?_, submitted_input, rfl, rfl, rfl⟩
    show (b.jobs ++ [job])[b.jobs.length]? = some job
    simp

theorem analysesOf_eq {profile : IntegrationProfile} {csvText : String}
    (hjob : b.jobs[jobId]? = some job) (hstatus : job.status = .queued)
    (hinput : b.inputs.get key = some csvText)
    (hprofile : loadProfile env job.profileId = .ok profile) :
    analysesOf env jobId key b = (rowsWithin csvText).zipIdx.map fun row => (row, profile) := by
  have hrunning : ¬ job.status.terminal = true := by
    rw [hstatus]
    decide
  simp only [analysesOf, hjob, hinput, if_neg hrunning, analyses, hprofile]

theorem loadProfile_workerEnv {profiles : ProfileStore} {id : ℕ} {row : IntegrationProfileRow}
    (hrow : profiles.profiles[id]? = some row)
    (engine : IntegrationProfile → ℕ → String → Except RowError EngineResult) :
    ∃ profile, loadProfile (workerEnv profiles engine) id = .ok profile ∧
      contentOf profile = rowContent row := by
  simp only [loadProfile, workerEnv, hrow]
  exact ⟨_, rfl, rfl⟩

/-- The rows of a job are analyzed as its version says exactly when there are none, or the version
is that of the profile and the last update before the job is processed, if there is any, has the
content that the profile had when the job was created. -/
theorem analyzedAsRecorded_iff (db : ProfileColumns) (earlier later : List ProfileCall)
    (engine : IntegrationProfile → ℕ → String → Except RowError EngineResult) (org : String)
    (body : CreateBatchRequest) (clock : Instant) (b : BatchStore) (jobId : ℕ)
    (haccepted : ((postBatch (Session.after (perform db) earlier {}) org body clock).run
      b).outcome = .ok jobId) :
    let created := Session.after (perform db) earlier {}
    AnalyzedAsRecorded created (Session.after (perform db) later created) engine jobId
        (((postBatch created org body clock).run b).final b) ↔
      rowsWithin body.csv = [] ∨
        ∃ row, created.profiles[body.profileId]? = some row ∧
          body.profileVersion = row.versionNumber ∧
          ∀ update ∈ (acceptedUpdates db body.profileId later created).getLast?,
            contentOf update = rowContent row := by
  intro created
  obtain ⟨row, job, hrow, hjob, hinput, hstatus, hid, hversion⟩ := postBatch_ok haccepted
  obtain ⟨row', hrow', hcontent'⟩ := content_after db hrow later
  obtain ⟨profile, hload, hcontent⟩ := loadProfile_workerEnv hrow' engine
  rw [← hid] at hload
  have hmatch := snapshotsMatch_after db earlier
  have hanalyses := analysesOf_eq hjob hstatus hinput hload
  -- what the job says, and what its rows are analyzed with
  have hrecorded : AnalyzedAsRecorded created (Session.after (perform db) later created) engine
      jobId (((postBatch created org body clock).run b).final b) ↔
      ∀ r ∈ (rowsWithin body.csv).zipIdx, body.profileVersion = row.versionNumber ∧
        contentOf profile = rowContent row := by
    unfold AnalyzedAsRecorded
    constructor
    · intro h r hr
      have hsome := h job hjob (r, profile) (by rw [hanalyses]; exact List.mem_map.mpr ⟨r, hr, rfl⟩)
      rw [hid, hversion, contentAt_eq hmatch hrow] at hsome
      split_ifs at hsome with heq
      exact ⟨heq, (Option.some.inj hsome).symm⟩
    · intro h job' hjob' a ha
      obtain rfl : job' = job := Option.some.inj (hjob'.symm.trans hjob)
      rw [hanalyses] at ha
      obtain ⟨r, hr, rfl⟩ := List.mem_map.mp ha
      obtain ⟨heq, hsame⟩ := h r hr
      rw [hid, hversion, contentAt_eq hmatch hrow, if_pos heq, hsame]
  rw [hrecorded, hcontent, hcontent']
  cases hrows : rowsWithin body.csv with
  | nil => simp
  | cons r rs =>
    have hupdates : ((acceptedUpdates db body.profileId later created).getLast?.map
        contentOf).getD (rowContent row) = rowContent row ↔
        ∀ update ∈ (acceptedUpdates db body.profileId later created).getLast?,
          contentOf update = rowContent row := by
      cases (acceptedUpdates db body.profileId later created).getLast? <;> simp
    constructor
    · intro h
      obtain ⟨heq, hsame⟩ := h (r, 0) List.mem_cons_self
      exact .inr ⟨row, hrow, heq, hupdates.mp hsame⟩
    · rintro (hnil | ⟨row₁, hrow₁, heq, hsame⟩)
      · cases hnil
      · obtain rfl : row₁ = row := Option.some.inj (hrow₁.symm.trans hrow)
        exact fun _ _ => ⟨heq, hupdates.mpr hsame⟩

/-- A store with a draft. -/
def draftProfiles : ProfileStore :=
  Session.after (perform anyColumns) [.create "org" draftBody] {}

/-- The draft with another column for the name of the creditor. -/
def editedBody : IntegrationProfile :=
  { draftBody with
    mapping := {
      mappingVersion := "1"
      sourceFormat := .csv
      fields := [{ source := "debtor", target := "creditor.name" }] } }

/-- A batch of one row, for the version that clients name by default. -/
def draftBatch : CreateBatchRequest where
  profileId := 0
  csv := "creditor,debtor\nAnna,Berta\n"

theorem analyzedAsRecorded_published :
    AnalyzedAsRecorded draftProfiles
        (Session.after (perform anyColumns) [.publish "org" 0] draftProfiles) sampleEnv.engine 0
        (((postBatch draftProfiles "org" draftBatch 0).run {}).final {}) ↔
      rowsWithin draftBatch.csv = [] ∨
        ∃ row, draftProfiles.profiles[draftBatch.profileId]? = some row ∧
          draftBatch.profileVersion = row.versionNumber ∧
          ∀ update ∈ (acceptedUpdates anyColumns draftBatch.profileId [.publish "org" 0]
              draftProfiles).getLast?,
            contentOf update = rowContent row :=
  analyzedAsRecorded_iff anyColumns [.create "org" draftBody] [.publish "org" 0] sampleEnv.engine
    "org" draftBatch 0 {} 0 rfl

/-- The draft is edited between the creation of the job and its processing: the row is mapped in
another way than the recorded version says. -/
theorem edited_before_processing :
    ((postBatch draftProfiles "org" draftBatch 0).run {}).outcome = .ok 0 ∧
      ¬ AnalyzedAsRecorded draftProfiles
        (Session.after (perform anyColumns) [.update "org" 0 editedBody] draftProfiles)
        sampleEnv.engine 0 (((postBatch draftProfiles "org" draftBatch 0).run {}).final {}) := by
  refine ⟨rfl, fun h => ?_⟩
  have hcontent := h _ rfl _ List.mem_cons_self
  have hfields : draftBody.mapping.fields = editedBody.mapping.fields :=
    congrArg (fun content => (content.map (·.mapping.fields)).getD []) hcontent
  exact absurd hfields (by decide)

end PaymentOps.Batch
