import PaymentOps.Lib.Fallible
import PaymentOps.Lib.Session
import PaymentOps.Mapping.Validator
import PaymentOps.Rules.Declarative

/-!
# Integration profiles

A profile says how a customer's input is mapped and which rules apply.  Rows are keyed by their
position; `integration_profile_versions` only grows.

* `createProfile`, `updateProfile` and `publishProfile` are the operations of the service;
* `perform` is one call, `performed_cases` says what it can commit.
-/

namespace PaymentOps.Profiles

open Mapping

/-- The states of a profile. -/
inductive ProfileStatus where
  | draft | testing | published | archived
  deriving DecidableEq, Repr

/-- The formats that a profile reads. -/
inductive InputFormat where
  | iso20022Xml | customXml | json | csv
  deriving DecidableEq, Repr

/-- The formats that a profile writes. -/
inductive OutputFormat where
  | analysisJson | canonicalJson | candidateXml
  deriving DecidableEq, Repr

/-- What is kept of a payload. -/
inductive RetentionPolicy where
  | zero | metadataOnly | configured
  deriving DecidableEq, Repr

/-- `IntegrationProfile`: a request body, or a row as the service reads it. -/
structure IntegrationProfile where
  id : Option ℕ := none
  organizationId : String
  name : String
  description : String := ""
  status : ProfileStatus := .draft
  inputFormat : InputFormat
  outputFormat : OutputFormat := .analysisJson
  retentionPolicy : RetentionPolicy := .metadataOnly
  addressPolicy : String := "auto"
  aiPolicy : String := "disabled"
  allowedMessages : List String := []
  mapping : MappingDefinition
  rules : List RuleConfig := []
  versionNumber : ℤ := 1

/-- The version of the profile's mapping. -/
def IntegrationProfile.mappingVersion (profile : IntegrationProfile) : String :=
  profile.mapping.mappingVersion

/-- The version of the customer rules, the same for every profile. -/
def IntegrationProfile.rulesetVersion (_ : IntegrationProfile) : String := "cloudnova-customer-v1"

/-- A row of `integration_profiles`. -/
structure IntegrationProfileRow where
  organizationId : String
  name : String
  description : String
  status : ProfileStatus
  inputFormat : InputFormat
  outputFormat : OutputFormat
  retentionPolicy : RetentionPolicy
  addressPolicy : String
  aiPolicy : String
  allowedMessages : List String
  mapping : MappingDefinition
  rules : List RuleConfig
  versionNumber : ℤ

/-- A row of `integration_profile_versions`. -/
structure IntegrationProfileVersion where
  profileId : ℕ
  organizationId : String
  versionNumber : ℤ
  name : String
  inputFormat : InputFormat
  mapping : MappingDefinition
  rules : List RuleConfig
  mappingVersion : String
  rulesetVersion : String

/-- The tables of the profiles. -/
structure ProfileStore where
  profiles : List IntegrationProfileRow := []
  versions : List IntegrationProfileVersion := []

/-- What the profile service raises. -/
inductive ProfileError where
  | lookupError (message : String)
  | valueError (message : String)
  | databaseError
  deriving DecidableEq, Repr

/-- A session over the tables of the profiles. -/
abbrev ProfileService (α : Type) := Session ProfileStore ProfileError α

/-- Which rows the columns of the database take. -/
structure ProfileColumns where
  takesProfile : IntegrationProfileRow → Bool
  takesVersion : IntegrationProfileVersion → Bool

/-! ## Rows -/

/-- `_to_domain` -/
def toDomain (id : ℕ) (row : IntegrationProfileRow) : IntegrationProfile where
  id := some id
  organizationId := row.organizationId
  name := row.name
  description := row.description
  status := row.status
  inputFormat := row.inputFormat
  outputFormat := row.outputFormat
  retentionPolicy := row.retentionPolicy
  addressPolicy := row.addressPolicy
  aiPolicy := row.aiPolicy
  allowedMessages := row.allowedMessages
  mapping := row.mapping
  rules := row.rules
  versionNumber := row.versionNumber

/-- The row of a new profile: the status and the version number are those of the body. -/
def newRow (org : String) (profile : IntegrationProfile) : IntegrationProfileRow where
  organizationId := org
  name := profile.name
  description := profile.description
  status := profile.status
  inputFormat := profile.inputFormat
  outputFormat := profile.outputFormat
  retentionPolicy := profile.retentionPolicy
  addressPolicy := profile.addressPolicy
  aiPolicy := profile.aiPolicy
  allowedMessages := profile.allowedMessages
  mapping := profile.mapping
  rules := profile.rules
  versionNumber := profile.versionNumber

/-- A row with the content of a body; the status and the version number stay. -/
def updatedRow (row : IntegrationProfileRow) (profile : IntegrationProfile) :
    IntegrationProfileRow :=
  { newRow row.organizationId profile with
    status := row.status
    versionNumber := row.versionNumber }

/-- The snapshot of a profile. -/
def snapshot (id : ℕ) (row : IntegrationProfileRow) : IntegrationProfileVersion where
  profileId := id
  organizationId := row.organizationId
  versionNumber := row.versionNumber
  name := row.name
  inputFormat := row.inputFormat
  mapping := row.mapping
  rules := row.rules
  mappingVersion := (toDomain id row).mappingVersion
  rulesetVersion := (toDomain id row).rulesetVersion

/-- The row of a profile, which must be the organization's. -/
def getRow (org : String) (id : ℕ) (s : ProfileStore) :
    Except ProfileError IntegrationProfileRow :=
  match s.profiles[id]?.filter (·.organizationId = org) with
  | some row => .ok row
  | none => .error (.lookupError "profile not found")

/-- `validate_profile`. -/
def validateProfile (profile : IntegrationProfile) : List String :=
  (validateMapping profile.mapping).errors.map
    (fun e => "mapping: " ++ e.code ++ " " ++ e.message) ++
  profile.rules.flatMap fun rc =>
    (validateRuleConfig rc).map fun e => "rule " ++ rc.ruleId ++ ": " ++ e

/-! ## Operations -/

section

variable (db : ProfileColumns)

/-- `create_profile`: the row takes its status from the profile. -/
def createProfile (org : String) (profile : IntegrationProfile) :
    ProfileService IntegrationProfile :=
  .transact fun s =>
    let row := newRow org profile
    if db.takesProfile row then
      .ok (toDomain s.profiles.length row, { s with profiles := s.profiles ++ [row] })
    else .error .databaseError

/-- `update_profile`, unless the profile is published. -/
def updateProfile (org : String) (id : ℕ) (profile : IntegrationProfile) :
    ProfileService IntegrationProfile :=
  .transact fun s => do
    let row ← getRow org id s
    if row.status = .published then
      .error (.valueError "published profiles are immutable; create a new draft version")
    else if db.takesProfile (updatedRow row profile) then
      pure (toDomain id (updatedRow row profile),
        { s with profiles := s.profiles.set id (updatedRow row profile) })
    else .error .databaseError

/-- Validate, snapshot an immutable version, and publish. -/
def publishProfile (org : String) (id : ℕ) : ProfileService IntegrationProfile :=
  .transact fun s => do
    let row ← getRow org id s
    let errors := validateProfile (toDomain id row)
    let published := { row with status := .published }
    if errors ≠ [] then .error (.valueError (Text.join "; " errors))
    else if db.takesVersion (snapshot id row) then
      pure (toDomain id published,
        { s with
          versions := s.versions ++ [snapshot id row]
          profiles := s.profiles.set id published })
    else .error .databaseError

/-- A call of the service. -/
inductive ProfileCall where
  | create (org : String) (profile : IntegrationProfile)
  | update (org : String) (id : ℕ) (profile : IntegrationProfile)
  | publish (org : String) (id : ℕ)

/-- What a call does. -/
def perform : ProfileCall → ProfileService IntegrationProfile
  | .create org profile => createProfile db org profile
  | .update org id profile => updateProfile db org id profile
  | .publish org id => publishProfile db org id

end

/-! ## What an operation commits -/

variable {db : ProfileColumns} {org : String} {id : ℕ} {row : IntegrationProfileRow}
  {profile : IntegrationProfile} {call : ProfileCall} {s t : ProfileStore}

theorem getRow_eq_ok :
    getRow org id s = .ok row ↔ s.profiles[id]? = some row ∧ row.organizationId = org := by
  have hfilter : (s.profiles[id]?).filter (·.organizationId = org) = some row ↔
      s.profiles[id]? = some row ∧ row.organizationId = org := by
    rw [Option.filter_eq_some_iff, decide_eq_true_iff]
  rw [← hfilter, getRow]
  cases (s.profiles[id]?).filter (·.organizationId = org) <;> simp

/-- No error is found exactly in a well formed mapping with valid rules. -/
theorem validateProfile_eq_nil :
    validateProfile profile = [] ↔
      WellFormed profile.mapping ∧ ∀ rc ∈ profile.rules, validateRuleConfig rc = [] := by
  simp [validateProfile, validateMapping_eq_nil]

theorem mem_createProfile :
    t ∈ ((createProfile db org profile).run s).commits ↔
      db.takesProfile (newRow org profile) ∧
        t = { s with profiles := s.profiles ++ [newRow org profile] } := by
  unfold createProfile
  rw [Session.mem_transact]
  by_cases htakes : db.takesProfile (newRow org profile)
  · simp [htakes, eq_comm]
  · simp [htakes]

theorem mem_updateProfile (h : t ∈ ((updateProfile db org id profile).run s).commits) :
    ∃ row, s.profiles[id]? = some row ∧ row.status ≠ .published ∧
      t = { s with profiles := s.profiles.set id (updatedRow row profile) } := by
  obtain ⟨a, h⟩ := Session.mem_transact.mp h
  obtain ⟨row, hrow, h⟩ := Except.bind_eq_ok.mp h
  split_ifs at h with hpub htakes
  cases Except.pure_eq_ok.mp h
  exact ⟨row, (getRow_eq_ok.mp hrow).1, hpub, rfl⟩

/-- The profile can be published: it is the organization's, it is valid, and the snapshot fits. -/
def Publishable (db : ProfileColumns) (org : String) (id : ℕ) (row : IntegrationProfileRow)
    (s : ProfileStore) : Prop :=
  getRow org id s = .ok row ∧ validateProfile (toDomain id row) = [] ∧
    db.takesVersion (snapshot id row)

theorem mem_publishProfile :
    t ∈ ((publishProfile db org id).run s).commits ↔
      ∃ row, Publishable db org id row s ∧
        t = { s with
          versions := s.versions ++ [snapshot id row]
          profiles := s.profiles.set id { row with status := .published } } := by
  unfold publishProfile
  rw [Session.mem_transact]
  constructor
  · rintro ⟨a, h⟩
    obtain ⟨row, hrow, h⟩ := Except.bind_eq_ok.mp h
    dsimp only at h
    split_ifs at h with hvalid htakes
    cases Except.pure_eq_ok.mp h
    exact ⟨row, ⟨hrow, not_not.mp hvalid, htakes⟩, rfl⟩
  · rintro ⟨row, ⟨hrow, hvalid, htakes⟩, rfl⟩
    refine ⟨toDomain id { row with status := .published }, Except.bind_eq_ok.mpr ⟨row, hrow, ?_⟩⟩
    simp only [hvalid, ne_eq, not_true_eq_false, if_false, htakes, if_true]
    rfl

/-- What a call commits. -/
theorem performed_cases (h : t ∈ ((perform db call).run s).commits) :
    (∃ org profile, call = .create org profile ∧ db.takesProfile (newRow org profile) ∧
      t = { s with profiles := s.profiles ++ [newRow org profile] }) ∨
    (∃ org id profile row, call = .update org id profile ∧ s.profiles[id]? = some row ∧
      row.status ≠ .published ∧
      t = { s with profiles := s.profiles.set id (updatedRow row profile) }) ∨
    ∃ org id row, call = .publish org id ∧ Publishable db org id row s ∧
      t = { s with
        versions := s.versions ++ [snapshot id row]
        profiles := s.profiles.set id { row with status := .published } } := by
  cases call with
  | create org profile =>
    obtain ⟨htakes, ht⟩ := mem_createProfile.mp h
    exact .inl ⟨org, profile, rfl, htakes, ht⟩
  | update org id profile =>
    obtain ⟨row, hrow, hpub, ht⟩ := mem_updateProfile h
    exact .inr (.inl ⟨org, id, profile, row, rfl, hrow, hpub, ht⟩)
  | publish org id =>
    obtain ⟨row, hp, ht⟩ := mem_publishProfile.mp h
    exact .inr (.inr ⟨org, id, row, rfl, hp, ht⟩)

end PaymentOps.Profiles
