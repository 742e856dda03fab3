import PaymentOps.Cases.Store
import PaymentOps.Lib.Interleaving
import PaymentOps.Profiles.Integration

/-!
# The analysis of a payload under a profile

A request looks its idempotency key up, analyses the payload, and inserts a case.  The column of
the key has an index that is not unique.

* `profileAnalyze` is a request by itself, `analyses` are requests at the same time;
* `oneCase_iff`: there is one case for a key, and all that its requests return refers to it, exactly
  when each request that inserts a case finds none at its insert either;
* `two_cases_for_one_key` is a schedule with two cases.
-/

namespace PaymentOps.Cases

open TwoStep Profiles

/-- What `analyze_profile` returns, as far as the case keeps it. -/
structure ProfileAnalysis where
  caseId : String
  mappingVersion : String
  integrationProfileVersion : String
  addressProviderCoverage : String
  candidateValidationStatus : Option String := none
  deriving DecidableEq, Repr

/-- A request, with the profile that `get_profile` finds for it and with what `analyze_profile`
returns for its payload. -/
structure ProfileCall where
  organizationId : String
  allowedProfiles : List String := []
  profileId : String
  profile : Option IntegrationProfile
  analyzeProfile : IntegrationProfile → Except String ProfileAnalysis
  idempotencyKey : Option String := none
  auditedAt : Instant := 0

/-- `_case_to_dict` -/
structure CaseDict where
  caseId : String
  status : CaseStatus
  mappingVersion : Option String
  integrationProfileVersion : Option String
  addressProviderCoverage : Option String
  idempotent : Bool := true
  deriving DecidableEq, Repr

/-- The responses: a new case, or the one that the key has already. -/
inductive AnalyzeResponse where
  | existing (case : CaseDict)
  | analysed (result : ProfileAnalysis)
  deriving DecidableEq, Repr

/-- The case that a response names. -/
def AnalyzeResponse.caseId : AnalyzeResponse → String
  | existing case => case.caseId
  | analysed result => result.caseId

/-- The name of an input format. -/
def inputFormatValue : Profiles.InputFormat → String
  | .iso20022Xml => "ISO20022_XML"
  | .customXml => "CUSTOM_XML"
  | .json => "JSON"
  | .csv => "CSV"

/-- The profile of the call: the client may use it, it exists, and it is published. -/
def checkProfile (call : ProfileCall) : Except CaseError IntegrationProfile :=
  if call.allowedProfiles ≠ [] ∧ call.profileId ∉ call.allowedProfiles then
    .error (.httpException 403 "profile not authorized for client")
  else
    match call.profile with
    | none => .error (.httpException 404 "profile not found")
    | some profile =>
      if profile.status ≠ .published then .error (.httpException 409 "profile not published")
      else .ok profile

/-- The cases of an organization with an idempotency key. -/
def casesWithKey (org key : String) (s : CaseStore) : List PaymentCase :=
  s.cases.rows.filter fun case =>
    case.organizationId = some org && case.idempotencyKey = some key

/-- The case that has the idempotency key. -/
def findExistingCase (org key : String) (s : CaseStore) : Except CaseError (Option PaymentCase) :=
  match casesWithKey org key s with
  | [] => .ok none
  | [case] => .ok (some case)
  | _ :: _ :: _ => .error .multipleResultsFound

/-- `if body.idempotency_key: ...` -/
def lookUp (call : ProfileCall) (s : CaseStore) : Except CaseError (Option PaymentCase) :=
  match call.idempotencyKey with
  | none => .ok none
  | some key => if key = "" then .ok none else findExistingCase call.organizationId key s

/-- What precedes the analysis: the profile, and the case that is there for the key. -/
def checkAnalyze (call : ProfileCall) (s : CaseStore) :
    Except CaseError (IntegrationProfile × Option PaymentCase) := do
  let profile ← checkProfile call
  let existing ← lookUp call s
  pure (profile, existing)

/-- A case as the response has it. -/
def caseToDict (case : PaymentCase) : CaseDict where
  caseId := case.caseId
  status := case.status
  mappingVersion := case.mappingVersion
  integrationProfileVersion := case.integrationProfileVersion
  addressProviderCoverage := case.addressProviderCoverage

/-- The row of the case that a call opens. -/
def newCase (call : ProfileCall) (profile : IntegrationProfile) (result : ProfileAnalysis) :
    PaymentCase where
  caseId := result.caseId
  organizationId := some call.organizationId
  messageType := some (inputFormatValue profile.inputFormat)
  mappingVersion := some result.mappingVersion
  integrationProfileVersion := some result.integrationProfileVersion
  addressProviderCoverage := some result.addressProviderCoverage
  status :=
    if result.candidateValidationStatus = some "REVIEW_REQUIRED" then .reviewRequired
    else .analyzed
  idempotencyKey := call.idempotencyKey

/-- `AuditEvent(case_id=case.case_id, event_type="analysis_completed")` -/
def completedEvent (caseId : String) (clock : Instant) : AuditEvent where
  caseId := some caseId
  eventType := "analysis_completed"
  createdAt := clock

/-- `String(128)` -/
def idempotencyKeyLimit : ℕ := 128

/-- `_persist_case` -/
def persistCase (call : ProfileCall) (profile : IntegrationProfile) (result : ProfileAnalysis)
    (s : CaseStore) : Except CaseError CaseStore :=
  if call.idempotencyKey.any (idempotencyKeyLimit < ·.length) then
    .error (.dataError "idempotency_key")
  else
    match s.cases.insert (newCase call profile result) with
    | none => .error (.integrityError "case_id")
    | some cases => .ok {
        s with
        cases := cases
        auditEvents := s.auditEvents ++ [completedEvent result.caseId call.auditedAt] }

/-- The analysis, and its commit. -/
def commitAnalyze (call : ProfileCall) (profile : IntegrationProfile) (s : CaseStore) :
    Except CaseError (ProfileAnalysis × CaseStore) := do
  let result ← (call.analyzeProfile profile).mapError .analysisError
  let t ← persistCase call profile result s
  pure (result, t)

/-- `POST /api/v1/profiles/{id}/analyze`. -/
def profileAnalyze (call : ProfileCall) : CaseService AnalyzeResponse := do
  let checked ← .read (checkAnalyze call)
  let (profile, existing) ← .ofExcept checked
  match existing with
  | some case => pure (.existing (caseToDict case))
  | none => do
    let result ← .transact (commitAnalyze call profile)
    pure (.analysed result)

/-- Requests at the same time. -/
def analyses (call : ℕ → ProfileCall) :
    TwoStep ℕ CaseStore IntegrationProfile (Except CaseError AnalyzeResponse) where
  read i s :=
    match checkAnalyze (call i) s with
    | .error e => .inl (.error e)
    | .ok (_, some case) => .inl (.ok (.existing (caseToDict case)))
    | .ok (profile, none) => .inr profile
  write i profile s :=
    match commitAnalyze (call i) profile s with
    | .error e => (.error e, s)
    | .ok (result, t) => (.ok (.analysed result), t)

/-- A request that nothing interrupts is a call of the endpoint. -/
theorem analyses_alone (call : ℕ → ProfileCall) (i : ℕ) (s : CaseStore) :
    (analyses call).alone i s =
      (((profileAnalyze (call i)).run s).outcome, ((profileAnalyze (call i)).run s).final s) := by
  rw [profileAnalyze, Session.read_bind]
  cases hcheck : checkAnalyze (call i) s with
  | error e => simp [alone, analyses, hcheck]
  | ok checked =>
    obtain ⟨profile, existing⟩ := checked
    rw [Session.ofExcept_ok_bind]
    cases existing with
    | some case => simp [alone, analyses, hcheck]
    | none =>
      cases hcommit : commitAnalyze (call i) profile s with
      | error e =>
        simp [alone, analyses, hcheck, hcommit, Session.bind_apply, Session.transact_error hcommit]
      | ok r => simp [alone, analyses, hcheck, hcommit, Session.transact_bind hcommit]

/-! ## Requests with one key -/

/-- Calls in progress, each with the profile that it has loaded. -/
abbrev Analysing := Config ℕ CaseStore IntegrationProfile (Except CaseError AnalyzeResponse)

variable {call : ℕ → ProfileCall} {org key : String} {s t : CaseStore} {c : Analysing}

/-- The request has the key. -/
def HasKey (org key : String) (call : ProfileCall) : Prop :=
  call.organizationId = org ∧ call.idempotencyKey = some key

/-- There is at most one case for the key: what its requests have returned refers to it, and no
lookup has raised. -/
structure OneCase (call : ℕ → ProfileCall) (org key : String) (c : Analysing) : Prop where
  single : (casesWithKey org key c.store).length ≤ 1
  answers : ∀ a ∈ c.answers, HasKey org key (call a.1) → a.2 ≠ .error .multipleResultsFound ∧
    ∀ response, a.2 = .ok response →
      ∃ case ∈ casesWithKey org key c.store, case.caseId = response.caseId

/-- A request with the key that inserts its case finds, at its insert, no case for the key. -/
def InsertsFirst (call : ℕ → ProfileCall) (org key : String) (c : Analysing) : Step ℕ → Prop
  | .read _ => True
  | .write i => HasKey org key (call i) → ∀ profile, c.held.lookup i = some profile →
    ∀ r, commitAnalyze (call i) profile c.store = .ok r → casesWithKey org key c.store = []

theorem commitAnalyze_eq_ok {call : ProfileCall} {profile : IntegrationProfile}
    {r : ProfileAnalysis × CaseStore} (h : commitAnalyze call profile s = .ok r) :
    r.2.cases.rows = s.cases.rows ++ [newCase call profile r.1] := by
  obtain ⟨result, -, h⟩ := Except.bind_eq_ok.mp h
  obtain ⟨t, hpersist, h⟩ := Except.bind_eq_ok.mp h
  cases h
  unfold persistCase at hpersist
  split_ifs at hpersist
  split at hpersist
  · cases hpersist
  · rename_i cases hinsert
    cases hpersist
    exact (Table.insert_eq_some hinsert).2

theorem casesWithKey_insert {call : ProfileCall} {profile : IntegrationProfile}
    {result : ProfileAnalysis} (h : t.cases.rows = s.cases.rows ++ [newCase call profile result])
    (hkey : HasKey org key call) :
    casesWithKey org key t = casesWithKey org key s ++ [newCase call profile result] := by
  obtain ⟨horg, hkey⟩ := hkey
  rw [casesWithKey, h, List.filter_append]
  simp [newCase, horg, hkey, casesWithKey]

theorem casesWithKey_insert_other {call : ProfileCall} {profile : IntegrationProfile}
    {result : ProfileAnalysis} (h : t.cases.rows = s.cases.rows ++ [newCase call profile result])
    (hkey : ¬ HasKey org key call) : casesWithKey org key t = casesWithKey org key s := by
  have hnew : [newCase call profile result].filter (fun case =>
      case.organizationId = some org && case.idempotencyKey = some key) = [] := by
    rw [List.filter_eq_nil_iff]
    intro case hcase h
    obtain rfl := List.mem_singleton.mp hcase
    rw [Bool.and_eq_true, decide_eq_true_eq, decide_eq_true_eq] at h
    exact hkey ⟨Option.some.inj h.1, h.2⟩
  rw [casesWithKey, h, List.filter_append, hnew]
  exact List.append_nil _

/-- A lookup finds the case, if there is one. -/
theorem lookUp_of_single {call : ProfileCall} (hkey : HasKey org key call)
    (hsingle : (casesWithKey org key s).length ≤ 1) :
    lookUp call s ≠ .error .multipleResultsFound ∧
      ∀ case, lookUp call s = .ok (some case) → case ∈ casesWithKey org key s := by
  obtain ⟨rfl, hkey⟩ := hkey
  unfold lookUp
  rw [hkey]
  dsimp only
  split_ifs
  · simp
  · unfold findExistingCase
    split
    · simp
    · rename_i case hcases
      refine ⟨nofun, fun case' h => ?_⟩
      cases h
      rw [hcases]
      exact List.mem_singleton_self case
    · rename_i hcases
      rw [hcases] at hsingle
      simp at hsingle

theorem commitAnalyze_ne_multiple (call : ProfileCall) (profile : IntegrationProfile)
    (s : CaseStore) : commitAnalyze call profile s ≠ .error .multipleResultsFound := by
  unfold commitAnalyze persistCase
  cases call.analyzeProfile profile with
  | error e => exact nofun
  | ok result =>
    simp only [Except.mapError, bind, Except.bind]
    split_ifs
    · exact nofun
    · cases s.cases.insert (newCase call profile result) with
      | none => exact nofun
      | some cases => exact nofun

theorem checkProfile_ne_multiple (call : ProfileCall) :
    checkProfile call ≠ .error .multipleResultsFound := by
  unfold checkProfile
  split_ifs
  · exact nofun
  · split
    · exact nofun
    · split_ifs <;> exact nofun

/-- What a request with the key answers at its read, when there is at most one case. -/
theorem read_of_single {i : ℕ} {answer : Except CaseError AnalyzeResponse}
    (hkey : HasKey org key (call i)) (hsingle : (casesWithKey org key s).length ≤ 1)
    (hread : (analyses call).read i s = .inl answer) :
    answer ≠ .error .multipleResultsFound ∧
      ∀ response, answer = .ok response →
        ∃ case ∈ casesWithKey org key s, case.caseId = response.caseId := by
  obtain ⟨hlookUp, hfound⟩ := lookUp_of_single hkey hsingle
  simp only [analyses, checkAnalyze] at hread
  cases hprofile : checkProfile (call i) with
  | error e =>
    simp only [hprofile, bind, Except.bind] at hread
    cases hread
    refine ⟨fun h => checkProfile_ne_multiple (call i) (hprofile.trans ?_), nofun⟩
    exact congrArg Except.error (Except.error.inj h)
  | ok profile =>
    cases hcase : lookUp (call i) s with
    | error e =>
      simp only [hprofile, hcase, bind, Except.bind] at hread
      cases hread
      refine ⟨fun h => hlookUp (hcase.trans ?_), nofun⟩
      exact congrArg Except.error (Except.error.inj h)
    | ok existing =>
      simp only [hprofile, hcase, bind, Except.bind, pure, Except.pure] at hread
      cases existing with
      | none => cases hread
      | some case =>
        cases hread
        refine ⟨nofun, fun response h => ?_⟩
        cases h
        exact ⟨case, hfound case hcase, rfl⟩

/-- A step keeps the one case exactly when it inserts no other one. -/
theorem oneCase_step (hone : OneCase call org key c) (e : Step ℕ) :
    OneCase call org key ((analyses call).step c e) ↔ InsertsFirst call org key c e := by
  rcases step_cases (analyses call) c e with ⟨hfree, -, heq⟩ | ⟨i, answer, rfl, hread, heq⟩ |
    ⟨i, profile, rfl, -, -, heq⟩ | ⟨i, profile, l₁, l₂, rfl, hlookup, -, heq⟩
  · rw [heq]
    refine iff_of_true hone ?_
    cases e with
    | read i => trivial
    | write i =>
      intro _ profile hprofile
      cases (hfree i rfl).symm.trans hprofile
  · rw [heq]
    refine iff_of_true ⟨hone.single, fun a ha hkey => ?_⟩ trivial
    rcases List.mem_append.mp ha with ha | ha
    · exact hone.answers a ha hkey
    · obtain rfl := List.mem_singleton.mp ha
      exact read_of_single hkey hone.single hread
  · rw [heq]
    exact iff_of_true ⟨hone.single, hone.answers⟩ trivial
  · rw [heq]
    cases hcommit : commitAnalyze (call i) profile c.store with
    | error e =>
      have hwrite : (analyses call).write i profile c.store = (.error e, c.store) := by
        simp only [analyses, hcommit]
      rw [hwrite]
      refine iff_of_true ⟨hone.single, fun a ha hkey => ?_⟩ fun _ profile' h r hr => ?_
      · rcases List.mem_append.mp ha with ha | ha
        · exact hone.answers a ha hkey
        · obtain rfl := List.mem_singleton.mp ha
          refine ⟨fun h => commitAnalyze_ne_multiple (call i) profile c.store ?_, nofun⟩
          exact hcommit.trans (congrArg Except.error (Except.error.inj h))
      · cases hlookup.symm.trans h
        cases hcommit.symm.trans hr
    | ok r =>
      have hwrite : (analyses call).write i profile c.store = (.ok (.analysed r.1), r.2) := by
        simp only [analyses, hcommit]
      rw [hwrite]
      have hrows := commitAnalyze_eq_ok hcommit
      by_cases hkey : HasKey org key (call i)
      · have hcases := casesWithKey_insert hrows hkey
        have hfirst : InsertsFirst call org key c (.write i) ↔
            casesWithKey org key c.store = [] := by
          constructor
          · exact fun h => h hkey profile hlookup r hcommit
          · exact fun h _ _ _ _ _ => h
        rw [hfirst]
        constructor
        · rintro ⟨hsingle, -⟩
          rw [hcases, List.length_append, List.length_singleton] at hsingle
          apply List.length_eq_zero_iff.mp
          omega
        · intro hnone
          refine ⟨by rw [hcases, hnone]; simp, fun a ha hkey' => ?_⟩
          rw [hcases]
          rcases List.mem_append.mp ha with ha | ha
          · obtain ⟨hne, hrefers⟩ := hone.answers a ha hkey'
            refine ⟨hne, fun response h => ?_⟩
            obtain ⟨case, hmem, hcase⟩ := hrefers response h
            exact ⟨case, List.mem_append_left _ hmem, hcase⟩
          · obtain rfl := List.mem_singleton.mp ha
            refine ⟨nofun, fun response h => ?_⟩
            cases h
            exact ⟨_, List.mem_append_right _ List.mem_cons_self, rfl⟩
      · have hcases := casesWithKey_insert_other hrows hkey
        refine iff_of_true ⟨by rw [hcases]; exact hone.single, fun a ha hkey' => ?_⟩
          fun h => absurd h hkey
        rw [hcases]
        rcases List.mem_append.mp ha with ha | ha
        · exact hone.answers a ha hkey'
        · obtain rfl := List.mem_singleton.mp ha
          exact absurd hkey' hkey

/-- In every schedule of requests there is at most one case for a key, what its requests return
refers to it, and no lookup of the key raises, exactly when each request with the key that inserts
its case finds none for the key at its insert either. -/
theorem oneCase_iff (call : ℕ → ProfileCall) (org key : String) {s : CaseStore}
    (hsingle : (casesWithKey org key s).length ≤ 1) (steps : List (Step ℕ)) :
    (∀ c ∈ (analyses call).reached steps ⟨s, [], []⟩, OneCase call org key c) ↔
      (analyses call).Along (InsertsFirst call org key) steps ⟨s, [], []⟩ := by
  apply forall_reached_iff
  · exact fun c e hone => oneCase_step hone e
  · exact ⟨hsingle, by simp⟩

/-- A published profile. -/
def publishedProfile : IntegrationProfile where
  organizationId := "org"
  name := "Payments"
  status := .published
  inputFormat := .json
  mapping := { mappingVersion := "1", sourceFormat := .json }

/-- A request and its retries, whose analyses generate case ids of their own. -/
def retries (i : ℕ) : ProfileCall where
  organizationId := "org"
  profileId := "profile"
  profile := some publishedProfile
  analyzeProfile _ := .ok {
    caseId := "case-" ++ String.ofList (List.replicate i 'x')
    mappingVersion := "1"
    integrationProfileVersion := "1"
    addressProviderCoverage := "UNKNOWN" }
  idempotencyKey := some "key"

/-- The retry comes after the request, and both are answered. -/
theorem oneCase_in_turn :
    ((analyses retries).run [.read 0, .write 0, .read 1, .write 1]
        ⟨{}, [], []⟩).answers.length = 2 ∧
      ∀ c ∈ (analyses retries).reached [.read 0, .write 0, .read 1, .write 1] ⟨{}, [], []⟩,
        OneCase retries "org" "key" c := by
  refine ⟨by decide, ?_⟩
  have hnone : ((analyses retries).run [.read 0, .write 0, .read 1] ⟨{}, [], []⟩).held = [] := by
    decide
  have halong : (analyses retries).Along (InsertsFirst retries "org" "key")
      [.read 0, .write 0, .read 1, .write 1] ⟨{}, [], []⟩ := by
    refine ⟨trivial, fun _ _ _ _ _ => rfl, trivial, fun _ profile h => ?_, trivial⟩
    cases (congrArg (List.lookup 1) hnone).symm.trans h
  exact (oneCase_iff retries "org" "key" (by decide) _).mpr halong

/-- Both requests look the key up before either of them inserts its case. -/
theorem two_cases_for_one_key :
    ¬ ∀ c ∈ (analyses retries).reached [.read 0, .read 1, .write 0, .write 1] ⟨{}, [], []⟩,
      OneCase retries "org" "key" c := by
  intro h
  have hlast := (h _ (run_mem_reached (analyses retries) _ _)).single
  exact absurd hlast (by decide)

end PaymentOps.Cases
