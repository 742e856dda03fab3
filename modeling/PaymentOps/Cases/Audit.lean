import Mathlib.Data.List.Sort
import PaymentOps.Cases.ProfileAnalysis
import PaymentOps.Cases.Workflow
import PaymentOps.Lib.RowOrder
import PaymentOps.Service.ConfirmationChain

/-!
# The audit trail of an organization

Analyses, operators' actions and account reports write the cases and the audit trail of one
database.  An organization lists the events that carry its id.

* `listAuditEvents` is the listing;
* `perform` is an operation on the tables, `Deployment` what all of them share;
* `audited_iff`: in a run, every event about a case of an organization carries its id, and its
  listings have all of these events and no others, exactly when no analysis stores a case;
* `analysis_unlisted` is an analysis whose event its organization does not see.
-/

namespace PaymentOps.Cases

open Text

/-! ## The listing -/

/-- The parameters of a listing. -/
structure AuditQuery where
  limit : ℤ := 200
  caseId : Option String := none

/-- `_audit_dict` -/
structure AuditEntry where
  timestamp : Instant
  actor : Option String
  event : String
  resource : Option String
  caseId : Option String
  profileVersion : Option String
  result : Option String
  deriving DecidableEq, Repr

/-- An audit event as the endpoint returns it. -/
def auditDict (e : AuditEvent) : AuditEntry where
  timestamp := e.createdAt
  actor := e.userIdentity
  event := e.eventType
  resource := or e.profileId e.caseId
  caseId := e.caseId
  profileVersion := e.profileVersion
  result := or (or (e.actionMetadata.bind (·.classification)) (e.actionMetadata.bind (·.action)))
    (some e.eventType)

/-- `max(1, min(limit, 1000))` -/
def clampLimit (limit : ℤ) : ℕ := (max 1 (min limit 1000)).toNat

/-- The conditions of the query. -/
def selects (org : String) (query : AuditQuery) (e : AuditEvent) : Bool :=
  e.organizationId = some org && (!truthy query.caseId || e.caseId = query.caseId)

/-- The newest events that carry the id of the organization. -/
def listAuditEvents (order : RowOrder CaseStore CaseStore.auditEvents) (org : String)
    (query : AuditQuery) (s : CaseStore) : List AuditEntry :=
  let found : List AuditEvent := (order.select s (selects org query)).map (·.2)
  ((found.insertionSort fun a b => b.createdAt ≤ a.createdAt).take
    (clampLimit query.limit)).map auditDict

/-! ## Operations -/

/-- What the pipeline returns, as far as the case keeps it. -/
structure AnalysisResult where
  caseId : String
  messageType : Option String := none
  addressProviderCoverage : Option String := none
  deriving DecidableEq, Repr

/-- A call of `AnalysisService.analyze`, with what the pipeline returns for its payload. -/
structure AnalyzeCall where
  pipeline : Except String AnalysisResult
  persist : Bool := false
  organizationId : Option String := none
  auditedAt : Instant := 0

/-- The row of the case of an analyzed payload. -/
def analyzedCase (call : AnalyzeCall) (result : AnalysisResult) : PaymentCase where
  caseId := result.caseId
  organizationId := call.organizationId
  messageType := result.messageType
  addressProviderCoverage := result.addressProviderCoverage

/-- `_persist` -/
def persist (call : AnalyzeCall) (result : AnalysisResult) (s : CaseStore) :
    Except CaseError CaseStore :=
  match s.cases.insert (analyzedCase call result) with
  | none => .error (.integrityError "case_id")
  | some cases => .ok {
      s with
      cases := cases
      auditEvents := s.auditEvents ++ [completedEvent result.caseId call.auditedAt] }

/-- `POST /api/v1/analyze`: the case and its event are committed together. -/
def analyze (call : AnalyzeCall) : CaseService AnalysisResult := do
  let result ← .ofExcept (call.pipeline.mapError .analysisError)
  if call.persist then .transact fun s => (persist call result s).map fun t => (result, t)
  else pure result

variable {D : Type}

/-- The database: the tables of the cases, and those that only the account services use. -/
structure Deployment (D : Type) where
  tables : CaseStore := {}
  account : Store D := {}

/-- The name of a status. -/
def CaseStatus.value : CaseStatus → String
  | new => "NEW"
  | analyzed => "ANALYZED"
  | repairProposed => "REPAIR_PROPOSED"
  | reviewRequired => "REVIEW_REQUIRED"
  | approved => "APPROVED"
  | rejected => "REJECTED"
  | closed => "CLOSED"

/-- A case as the account services read it. -/
def accountCase (case : PaymentCase) : PaymentOps.PaymentCase where
  caseId := case.caseId
  organizationId := case.organizationId
  messageType := case.messageType.getD ""
  status := case.status.value

/-- The store in which the account services run. -/
def Deployment.accountStore (d : Deployment D) : Store D :=
  { d.account with cases := d.tables.cases.rows.map accountCase, auditEvents := [] }

/-- The row of a case that `_ensure_case` opens. -/
def exceptionCase (case : PaymentOps.PaymentCase) : PaymentCase where
  caseId := case.caseId
  organizationId := case.organizationId
  messageType := some case.messageType
  status := .reviewRequired

/-- The row of the event of an exception. -/
def exceptionEvent (clock : ℕ → Instant) (e : PaymentOps.AuditEvent) : AuditEvent where
  organizationId := some e.organizationId
  caseId := some e.caseId
  eventType := e.eventType
  actionMetadata := some { classification := some e.classification, entryId := some e.entryId }
  createdAt := clock e.entryId

/-- What the account services have committed, in the tables that they share. -/
def Deployment.withAccount (clock : ℕ → Instant) (c : Store D) (d : Deployment D) :
    Deployment D where
  tables := {
    d.tables with
    cases := (d.tables.cases.insertAll
      ((c.cases.drop d.tables.cases.rows.length).map exceptionCase)).getD d.tables.cases
    auditEvents := d.tables.auditEvents ++ c.auditEvents.map (exceptionEvent clock) }
  account := { c with cases := [], auditEvents := [] }

/-- What is called of a deployment. -/
inductive Operation where
  | analyze (call : AnalyzeCall)
  | profileAnalyze (call : ProfileCall)
  | transition (call : Transition)
  | accountReport (i : Ingestion) (clock : ℕ → Instant)

/-- What an operation raises. -/
inductive OperationError where
  | caseError (e : CaseError)
  | accountError (e : ServiceError)
  deriving DecidableEq, Repr

/-- A service on the tables of the cases. -/
def onTables {α : Type} (m : CaseService α) : Session (Deployment D) OperationError Unit := do
  let _ ← m.zoom Deployment.tables (fun tables d => { d with tables := tables }) .caseError
  pure ()

/-- What an operation does to the deployment. -/
def perform (env : Env D) : Operation → Session (Deployment D) OperationError Unit
  | .analyze call => onTables (analyze call)
  | .profileAnalyze call => onTables (profileAnalyze call)
  | .transition call => onTables (transitionCase call)
  | .accountReport i clock =>
    (ingest env i).zoom Deployment.accountStore (Deployment.withAccount clock) .accountError

/-! ## Events about the cases of an organization -/

/-- A case of the organization has the id. -/
def Owns (s : CaseStore) (org : String) (caseId : Option String) : Prop :=
  ∃ case ∈ s.cases.rows, caseId = some case.caseId ∧ case.organizationId = some org

/-- Every event about a case of an organization carries its id. -/
def EventsCarried (s : CaseStore) : Prop :=
  ∀ e ∈ s.auditEvents, ∀ org, Owns s org e.caseId → e.organizationId = some org

/-- The listings of an organization have the events about its cases, as far as the limit goes, and
none about the case of another organization. -/
structure Audited (s : CaseStore) : Prop where
  carried : EventsCarried s
  listed : ∀ order org query, s.auditEvents.countP (selects org query) ≤ clampLimit query.limit →
    ∀ e ∈ s.auditEvents, Owns s org e.caseId →
      (truthy query.caseId → e.caseId = query.caseId) →
        auditDict e ∈ listAuditEvents order org query s
  own : ∀ order org query, ∀ d ∈ listAuditEvents order org query s, ∀ owner,
    Owns s owner d.caseId → owner = org

/-- Every event about a case has its case. -/
def EventsKnown (s : CaseStore) : Prop :=
  ∀ e ∈ s.auditEvents, ∀ caseId, e.caseId = some caseId → (s.cases.find caseId).isSome

variable {s t : CaseStore} {org : String}

theorem selects_iff {query : AuditQuery} {e : AuditEvent} :
    selects org query e ↔
      e.organizationId = some org ∧ (truthy query.caseId → e.caseId = query.caseId) := by
  cases h : truthy query.caseId <;> simp [selects, h]

theorem mem_listAuditEvents {order : RowOrder CaseStore CaseStore.auditEvents}
    {query : AuditQuery} {d : AuditEntry} (h : d ∈ listAuditEvents order org query s) :
    ∃ e ∈ s.auditEvents, selects org query e ∧ auditDict e = d := by
  unfold listAuditEvents at h
  obtain ⟨e, he, rfl⟩ := List.mem_map.mp h
  have hfound := (List.mem_insertionSort _).mp (List.mem_of_mem_take he)
  obtain ⟨hmem, hselects⟩ := List.mem_filter.mp ((order.select_perm s _).mem_iff.mp hfound)
  exact ⟨e, hmem, hselects, rfl⟩

theorem listed_of_fits {order : RowOrder CaseStore CaseStore.auditEvents} {query : AuditQuery}
    (hfits : s.auditEvents.countP (selects org query) ≤ clampLimit query.limit) {e : AuditEvent}
    (he : e ∈ s.auditEvents) (hselects : selects org query e) :
    auditDict e ∈ listAuditEvents order org query s := by
  unfold listAuditEvents
  apply List.mem_map_of_mem
  rw [List.take_of_length_le, List.mem_insertionSort]
  · exact (order.select_perm s _).mem_iff.mpr (List.mem_filter.mpr ⟨he, hselects⟩)
  · rw [List.length_insertionSort, List.length_map, order.select_length]
    exact hfits

/-- The listings follow from the events. -/
theorem audited_iff_carried : Audited s ↔ EventsCarried s := by
  refine ⟨Audited.carried, fun h => ⟨h, ?_, ?_⟩⟩
  · intro order org query hfits e he howns hquery
    exact listed_of_fits hfits he (selects_iff.mpr ⟨h e he org howns, hquery⟩)
  · intro order org query d hd owner howns
    obtain ⟨e, he, hselects, rfl⟩ := mem_listAuditEvents hd
    have horg := (selects_iff.mp hselects).1
    exact Option.some.inj ((h e he owner howns).symm.trans horg)

/-! ## Writers -/

/-- The cases of `s` are in `t`, with their owners. -/
def Extends (s t : CaseStore) : Prop :=
  ∀ caseId case, s.cases.find caseId = some case →
    ∃ case', t.cases.find caseId = some case' ∧ case'.organizationId = case.organizationId

theorem owns_iff {caseId : Option String} :
    Owns s org caseId ↔ ∃ k case, caseId = some k ∧ s.cases.find k = some case ∧
      case.organizationId = some org := by
  constructor
  · rintro ⟨case, hmem, rfl, horg⟩
    exact ⟨case.caseId, case, rfl, Table.find_eq_some.mpr ⟨hmem, rfl⟩, horg⟩
  · rintro ⟨k, case, rfl, hfind, horg⟩
    obtain ⟨hmem, rfl⟩ := Table.find_eq_some.mp hfind
    exact ⟨case, hmem, rfl, horg⟩

/-- A case that was there has the owner that it had. -/
theorem Extends.owns_iff (h : Extends s t) {e : AuditEvent} (he : e ∈ s.auditEvents)
    (hknown : EventsKnown s) : Owns t org e.caseId ↔ Owns s org e.caseId := by
  rw [Cases.owns_iff, Cases.owns_iff]
  refine exists_congr fun k => ?_
  constructor
  · rintro ⟨case', hcase, hfind', horg⟩
    obtain ⟨case, hfind⟩ := Option.isSome_iff_exists.mp (hknown e he k hcase)
    obtain ⟨case'', hfind'', howner⟩ := h k case hfind
    cases hfind'.symm.trans hfind''
    exact ⟨case, hcase, hfind, howner.symm.trans horg⟩
  · rintro ⟨case, hcase, hfind, horg⟩
    obtain ⟨case', hfind', howner⟩ := h k case hfind
    exact ⟨case', hcase, hfind', howner.trans horg⟩

/-- Events that are added with their cases. -/
theorem EventsKnown.append (hknown : EventsKnown s) (h : Extends s t) {events : List AuditEvent}
    (hevents : t.auditEvents = s.auditEvents ++ events)
    (hnew : ∀ e ∈ events, ∀ k, e.caseId = some k → (t.cases.find k).isSome) : EventsKnown t := by
  intro e he k hcase
  rw [hevents] at he
  rcases List.mem_append.mp he with he | he
  · obtain ⟨case, hfind⟩ := Option.isSome_iff_exists.mp (hknown e he k hcase)
    obtain ⟨case', hfind', -⟩ := h k case hfind
    rw [hfind']
    rfl
  · exact hnew e he k hcase

/-- Only the events that are added count. -/
theorem carried_append_iff (hcarried : EventsCarried s) (hknown : EventsKnown s)
    (h : Extends s t) {events : List AuditEvent}
    (hevents : t.auditEvents = s.auditEvents ++ events) :
    EventsCarried t ↔ ∀ e ∈ events, ∀ org, Owns t org e.caseId → e.organizationId = some org := by
  constructor
  · intro hcarried' e he
    exact hcarried' e (hevents ▸ List.mem_append_right _ he)
  · intro hnew e he org howns
    rw [hevents] at he
    rcases List.mem_append.mp he with he | he
    · exact hcarried e he org ((h.owns_iff he hknown).mp howns)
    · exact hnew e he org howns

/-- An analysis stores its case, for `owner`, and an event without an organization. -/
def StoresCase (owner : Option String) (s t : CaseStore) : Prop :=
  ∃ case clock, case.organizationId = owner ∧ s.cases.insert case = some t.cases ∧
    t.auditEvents = s.auditEvents ++ [completedEvent case.caseId clock]

namespace StoresCase

variable {owner : Option String}

theorem extension (h : StoresCase owner s t) : Extends s t := by
  obtain ⟨case, clock, -, hinsert, -⟩ := h
  exact fun k case' hfind => ⟨case', Table.find_insert hinsert hfind, rfl⟩

theorem known (h : StoresCase owner s t) (hknown : EventsKnown s) : EventsKnown t := by
  obtain ⟨case, clock, -, hinsert, hevents⟩ := id h
  refine hknown.append h.extension hevents fun e he k hcase => ?_
  obtain rfl := List.mem_singleton.mp he
  cases hcase
  rw [Table.find_inserted hinsert]
  rfl

/-- The event is missing to an organization that owns the case. -/
theorem carried_iff (h : StoresCase owner s t) (hknown : EventsKnown s)
    (hcarried : EventsCarried s) : EventsCarried t ↔ owner = none := by
  obtain ⟨case, clock, rfl, hinsert, hevents⟩ := id h
  rw [carried_append_iff hcarried hknown h.extension hevents]
  have hfind : t.cases.find case.caseId = some case := Table.find_inserted hinsert
  constructor
  · intro hnew
    cases horg : case.organizationId with
    | none => rfl
    | some org =>
      have howns : Owns t org (completedEvent case.caseId clock).caseId :=
        owns_iff.mpr ⟨_, case, rfl, hfind, horg⟩
      cases hnew _ List.mem_cons_self org howns
  · intro hnone e he org howns
    obtain rfl := List.mem_singleton.mp he
    obtain ⟨k, case', hcase, hfind', horg⟩ := owns_iff.mp howns
    cases hcase
    cases hfind.symm.trans hfind'
    cases hnone.symm.trans horg

end StoresCase

/-- The analysis is to be stored, and its case id is free. -/
def AnalyzeCall.Stores (call : AnalyzeCall) (s : CaseStore) : Prop :=
  call.persist = true ∧ ∃ result, call.pipeline = .ok result ∧ s.cases.find result.caseId = none

/-- The checks pass, no case has the key, the key is short enough and the case id is free. -/
def ProfileStores (call : ProfileCall) (s : CaseStore) : Prop :=
  ∃ profile result, checkAnalyze call s = .ok (profile, none) ∧
    call.analyzeProfile profile = .ok result ∧
    ¬ call.idempotencyKey.any (idempotencyKeyLimit < ·.length) ∧
    s.cases.find result.caseId = none

theorem analyze_commits {call : AnalyzeCall} :
    t ∈ ((analyze call).run s).commits ↔ call.persist = true ∧
      ∃ result, call.pipeline = .ok result ∧ persist call result s = .ok t := by
  unfold analyze
  cases hpipeline : call.pipeline with
  | error e => simp [Except.mapError]
  | ok result =>
    simp only [Except.mapError, Session.ofExcept_ok_bind]
    split_ifs with hpersist
    · cases hp : persist call result s with
      | error e => simp [Session.mem_transact, hp, hpersist, Except.map]
      | ok t' => simp [Session.mem_transact, hp, hpersist, Except.map]
    · simp [hpersist]

theorem profileAnalyze_commits {call : ProfileCall} :
    t ∈ ((profileAnalyze call).run s).commits ↔
      ∃ profile, checkAnalyze call s = .ok (profile, none) ∧
        ∃ result, commitAnalyze call profile s = .ok (result, t) := by
  rw [profileAnalyze, Session.read_bind]
  cases hcheck : checkAnalyze call s with
  | error e => simp
  | ok checked =>
    obtain ⟨profile, existing⟩ := checked
    rw [Session.ofExcept_ok_bind]
    cases existing with
    | some case => simp
    | none => simp [Session.bind_pure_commits, Session.mem_transact]

/-- What an analysis leaves in the tables. -/
theorem stored_of_analyze {call : AnalyzeCall} (h : t ∈ ((analyze call).run s).commits) :
    call.Stores s ∧ StoresCase call.organizationId s t := by
  obtain ⟨hpersist, result, hpipeline, h⟩ := analyze_commits.mp h
  unfold persist at h
  split at h
  · cases h
  · rename_i cases hinsert
    cases h
    refine ⟨⟨hpersist, result, hpipeline, (Table.insert_eq_some hinsert).1⟩, ?_⟩
    exact ⟨analyzedCase call result, call.auditedAt, rfl, hinsert, rfl⟩

theorem exists_of_stores {call : AnalyzeCall} (h : call.Stores s) :
    ∃ t, t ∈ ((analyze call).run s).commits := by
  obtain ⟨hpersist, result, hpipeline, hfree⟩ := h
  obtain ⟨cases, hinsert, -⟩ := Table.insert_of_find_eq_none (a := analyzedCase call result) hfree
  have hstored : ∃ t, persist call result s = .ok t := by
    unfold persist
    rw [hinsert]
    exact ⟨_, rfl⟩
  obtain ⟨t, ht⟩ := hstored
  exact ⟨t, analyze_commits.mpr ⟨hpersist, result, hpipeline, ht⟩⟩

theorem stored_of_profileAnalyze {call : ProfileCall}
    (h : t ∈ ((profileAnalyze call).run s).commits) :
    ProfileStores call s ∧ StoresCase (some call.organizationId) s t := by
  obtain ⟨profile, hcheck, result, h⟩ := profileAnalyze_commits.mp h
  obtain ⟨result', hresult, h⟩ := Except.bind_eq_ok.mp h
  obtain ⟨t', hpersist, h⟩ := Except.bind_eq_ok.mp h
  cases h
  unfold persistCase at hpersist
  split_ifs at hpersist with hkey
  split at hpersist
  · cases hpersist
  · rename_i cases hinsert
    cases hpersist
    refine ⟨⟨profile, result, hcheck, Except.mapError_eq_ok.mp hresult, hkey,
      (Table.insert_eq_some hinsert).1⟩, ?_⟩
    exact ⟨newCase call profile result, call.auditedAt, rfl, hinsert, rfl⟩

theorem exists_of_profileStores {call : ProfileCall} (h : ProfileStores call s) :
    ∃ t, t ∈ ((profileAnalyze call).run s).commits := by
  obtain ⟨profile, result, hcheck, hanalysis, hkey, hfree⟩ := h
  obtain ⟨cases, hinsert, -⟩ :=
    Table.insert_of_find_eq_none (a := newCase call profile result) hfree
  have hstored : ∃ t, persistCase call profile result s = .ok t := by
    unfold persistCase
    rw [if_neg hkey, hinsert]
    exact ⟨_, rfl⟩
  obtain ⟨t, ht⟩ := hstored
  refine ⟨t, profileAnalyze_commits.mpr ⟨profile, hcheck, result, Except.bind_eq_ok.mpr ?_⟩⟩
  exact ⟨result, Except.mapError_eq_ok.mpr hanalysis, Except.bind_eq_ok.mpr ⟨t, ht, rfl⟩⟩

/-- An operator's action adds an event of the organization that owns the case. -/
theorem transition_known_carried {call : Transition} (hknown : EventsKnown s)
    (hcarried : EventsCarried s) (h : t ∈ ((transitionCase call).run s).commits) :
    EventsKnown t ∧ EventsCarried t := by
  obtain ⟨case', h⟩ := Session.mem_transact.mp h
  obtain ⟨⟨loaded, newStatus⟩, hcheck, h⟩ := Except.bind_eq_ok.mp h
  obtain ⟨case'', -, h⟩ := Except.bind_eq_ok.mp h
  cases h
  obtain ⟨case, hcase, -⟩ := checkTransition_eq_ok.mp hcheck
  obtain ⟨hfind, horg⟩ := getCase_eq_ok.mp hcase
  have hfind' := (getCase_eq_ok.mp (getCase_commitTransition hcase loaded newStatus)).1
  have hextends : Extends s (commitTransition call loaded newStatus s) := by
    intro k case hfind
    rw [commitTransition, Table.find_modify]
    split_ifs
    · exact ⟨_, congrArg _ hfind, rfl⟩
    · exact ⟨case, hfind, rfl⟩
  refine ⟨hknown.append hextends rfl fun e he k hcase => ?_,
    (carried_append_iff hcarried hknown hextends rfl).mpr fun e he org howns => ?_⟩
  · obtain rfl := List.mem_singleton.mp he
    cases hcase
    rw [hfind']
    rfl
  · obtain rfl := List.mem_singleton.mp he
    obtain ⟨k, case, hcase, hfind'', horg'⟩ := owns_iff.mp howns
    cases hcase
    cases hfind'.symm.trans hfind''
    exact horg.symm.trans horg'

/-! ## Account reports -/

section

open AccountService

/-- What an account report adds to the cases and to the audit trail: cases of its organization with
ids of their own, and events about them. -/
def Opened (org : String) (base cases : List PaymentOps.PaymentCase)
    (events : List PaymentOps.AuditEvent) : Prop :=
  ∃ opened, cases = base ++ opened ∧ (cases.map (·.caseId)).Nodup ∧
    ∀ e ∈ events, e.organizationId = org ∧
      ∃ case ∈ opened, case.caseId = e.caseId ∧ case.organizationId = org

theorem Opened.add {base cases : List PaymentOps.PaymentCase}
    {events : List PaymentOps.AuditEvent} (h : Opened org base cases events)
    {case : PaymentOps.PaymentCase} {e : PaymentOps.AuditEvent}
    (hfree : ∀ c ∈ cases, c.caseId ≠ case.caseId) (horg : case.organizationId = org)
    (heorg : e.organizationId = org) (hcase : case.caseId = e.caseId) :
    Opened org base (cases ++ [case]) (events ++ [e]) := by
  obtain ⟨opened, rfl, hnodup, hevents⟩ := h
  refine ⟨opened ++ [case], List.append_assoc _ _ _, ?_, fun e' he' => ?_⟩
  · rw [List.map_append, List.map_singleton]
    refine List.nodup_append.mpr ⟨hnodup, List.nodup_singleton _, fun k hk k' hk' => ?_⟩
    obtain rfl := List.mem_singleton.mp hk'
    obtain ⟨c, hmem, rfl⟩ := List.mem_map.mp hk
    exact hfree c hmem
  · rcases List.mem_append.mp he' with he' | he'
    · obtain ⟨horg', c, hmem, hc⟩ := hevents e' he'
      exact ⟨horg', c, List.mem_append_left _ hmem, hc⟩
    · obtain rfl := List.mem_singleton.mp he'
      exact ⟨heorg, case, List.mem_append_right _ List.mem_cons_self, hcase, horg⟩

theorem ensureCase_opened {base : List PaymentOps.PaymentCase} (entryId : ℕ)
    (identityHash classification : String) :
    Session.Keeps (fun s : Store D => Opened org base s.cases s.auditEvents)
      (ensureCase org entryId identityHash classification) := by
  rw [ensureCase_eq]
  apply ensureWith_invariant
  intro s hs hfree
  exact hs.add (fun c hc hcase => hfree ⟨c, hc, hcase⟩) rfl rfl rfl

theorem ingest_opened (env : Env D) (i : Ingestion) {base : List PaymentOps.PaymentCase} :
    Session.Keeps (fun s : Store D => Opened i.org base s.cases s.auditEvents) (ingest env i) := by
  apply ingestAccountReport_invariant
  · exact fun _ _ hs => hs
  · exact fun _ _ hs => hs
  · intro report reportId entry
    apply ingestEntry_invariant
    · exact fun _ _ hs => hs
    · exact fun _ _ hs => hs
    · exact fun _ _ hs => hs
    · exact ensureCase_opened

/-- The cases that an account report opens are inserted. -/
theorem withAccount_cases {d : Deployment D} {c : Store D} {opened : List PaymentOps.PaymentCase}
    (hcases : c.cases = d.tables.cases.rows.map accountCase ++ opened)
    (hnodup : (c.cases.map (·.caseId)).Nodup) (clock : ℕ → Instant) :
    (d.withAccount clock c).tables.cases.rows =
      d.tables.cases.rows ++ opened.map exceptionCase := by
  have hdrop : c.cases.drop d.tables.cases.rows.length = opened := by
    rw [hcases]
    exact List.drop_left' (List.length_map _)
  have hids : ((d.tables.cases.rows ++ opened.map exceptionCase).map PaymentCase.caseId).Nodup := by
    rw [hcases, List.map_append, List.map_map] at hnodup
    rw [List.map_append, List.map_map]
    exact hnodup
  simp only [Deployment.withAccount, hdrop, Table.insertAll_of_nodup hids, Option.getD_some]

/-- An account report adds events of the organization that owns the cases. -/
theorem account_known_carried {d : Deployment D} {c : Store D} (hknown : EventsKnown d.tables)
    (hcarried : EventsCarried d.tables)
    (h : Opened org (d.tables.cases.rows.map accountCase) c.cases c.auditEvents)
    (clock : ℕ → Instant) :
    EventsKnown (d.withAccount clock c).tables ∧ EventsCarried (d.withAccount clock c).tables := by
  obtain ⟨opened, hcases, hnodup, hevents⟩ := h
  have hrows := withAccount_cases hcases hnodup clock
  have hextends : Extends d.tables (d.withAccount clock c).tables := by
    intro k case hfind
    obtain ⟨hmem, hcase⟩ := Table.find_eq_some.mp hfind
    refine ⟨case, Table.find_eq_some.mpr ⟨?_, hcase⟩, rfl⟩
    rw [hrows]
    exact List.mem_append_left _ hmem
  have hopened : ∀ e ∈ c.auditEvents.map (exceptionEvent clock), e.organizationId = some org ∧
      ∃ case, (d.withAccount clock c).tables.cases.find case.caseId = some case ∧
        e.caseId = some case.caseId ∧ case.organizationId = some org := by
    intro e he
    obtain ⟨e', he', rfl⟩ := List.mem_map.mp he
    obtain ⟨horg, case, hmem, hcase, hcaseOrg⟩ := hevents e' he'
    refine ⟨congrArg some horg, exceptionCase case, Table.find_eq_some.mpr ⟨?_, rfl⟩,
      congrArg some hcase.symm, hcaseOrg⟩
    rw [hrows]
    exact List.mem_append_right _ (List.mem_map_of_mem hmem)
  refine ⟨hknown.append hextends rfl fun e he k hcase => ?_,
    (carried_append_iff hcarried hknown hextends rfl).mpr fun e he owner howns => ?_⟩
  · obtain ⟨-, case, hfind, hcase', -⟩ := hopened e he
    cases hcase.symm.trans hcase'
    rw [hfind]
    rfl
  · obtain ⟨horg, case, hfind, hcase', hcaseOrg⟩ := hopened e he
    obtain ⟨k, case', hcase, hfind', howner⟩ := owns_iff.mp howns
    cases hcase'.symm.trans hcase
    cases hfind.symm.trans hfind'
    rw [horg, ← hcaseOrg, howner]

end

/-! ## Runs -/

/-- The operation stores the case of an analysis for an organization. -/
def Operation.StoresAnalysis (s : CaseStore) : Operation → Prop
  | .analyze call => call.organizationId ≠ none ∧ call.Stores s
  | .profileAnalyze call => ProfileStores call s
  | .transition _ => False
  | .accountReport _ _ => False

theorem mem_onTables {α : Type} {m : CaseService α} {d d' : Deployment D} :
    d' ∈ ((onTables m).run d).commits ↔
      ∃ t ∈ (m.run d.tables).commits, { d with tables := t } = d' := by
  rw [onTables, Session.bind_pure_commits]
  exact List.mem_map

/-- What holds from operation to operation. -/
def Deployment.SoundTrail (d : Deployment D) : Prop :=
  EventsKnown d.tables ∧ EventsCarried d.tables

/-- An operation keeps the events, and adds one that its organization does not see when it stores
the case of an analysis. -/
theorem perform_spec (env : Env D) (op : Operation) {d : Deployment D} (hsound : d.SoundTrail) :
    (∀ d' ∈ ((perform env op).run d).commits, EventsKnown d'.tables) ∧
      ((∀ d' ∈ ((perform env op).run d).commits, EventsCarried d'.tables) ↔
        ¬ op.StoresAnalysis d.tables) := by
  obtain ⟨hknown, hcarried⟩ := hsound
  cases op with
  | analyze call =>
    refine ⟨fun d' hd' => ?_, ?_, ?_⟩
    · obtain ⟨t, ht, rfl⟩ := mem_onTables.mp hd'
      exact (stored_of_analyze ht).2.known hknown
    · rintro h ⟨horg, hstores⟩
      obtain ⟨t, ht⟩ := exists_of_stores hstores
      have hcarried' := h _ (mem_onTables.mpr ⟨t, ht, rfl⟩)
      exact horg (((stored_of_analyze ht).2.carried_iff hknown hcarried).mp hcarried')
    · intro h d' hd'
      obtain ⟨t, ht, rfl⟩ := mem_onTables.mp hd'
      obtain ⟨hstores, hstored⟩ := stored_of_analyze ht
      apply (hstored.carried_iff hknown hcarried).mpr
      by_contra horg
      exact h ⟨horg, hstores⟩
  | profileAnalyze call =>
    refine ⟨fun d' hd' => ?_, ?_, ?_⟩
    · obtain ⟨t, ht, rfl⟩ := mem_onTables.mp hd'
      exact (stored_of_profileAnalyze ht).2.known hknown
    · intro h hstores
      obtain ⟨t, ht⟩ := exists_of_profileStores hstores
      have hcarried' := h _ (mem_onTables.mpr ⟨t, ht, rfl⟩)
      cases ((stored_of_profileAnalyze ht).2.carried_iff hknown hcarried).mp hcarried'
    · intro h d' hd'
      obtain ⟨t, ht, rfl⟩ := mem_onTables.mp hd'
      exact absurd (stored_of_profileAnalyze ht).1 h
  | transition call =>
    have hkept : ∀ d' ∈ ((perform env (.transition call)).run d).commits,
        EventsKnown d'.tables ∧ EventsCarried d'.tables := by
      intro d' hd'
      obtain ⟨t, ht, rfl⟩ := mem_onTables.mp hd'
      exact transition_known_carried hknown hcarried ht
    exact ⟨fun d' hd' => (hkept d' hd').1, iff_of_true (fun d' hd' => (hkept d' hd').2) id⟩
  | accountReport i clock =>
    have hkept : ∀ d' ∈ ((perform env (.accountReport i clock)).run d).commits,
        EventsKnown d'.tables ∧ EventsCarried d'.tables := by
      intro d' hd'
      obtain ⟨c, hc, rfl⟩ := List.mem_map.mp hd'
      have hstart : Opened i.org (d.tables.cases.rows.map accountCase) d.accountStore.cases
          d.accountStore.auditEvents := by
        refine ⟨[], (List.append_nil _).symm, ?_, by simp [Deployment.accountStore]⟩
        rw [Deployment.accountStore, List.map_map]
        exact d.tables.cases.unique
      exact account_known_carried hknown hcarried ((ingest_opened env i _ hstart).1 c hc) clock
    exact ⟨fun d' hd' => (hkept d' hd').1, iff_of_true (fun d' hd' => (hkept d' hd').2) id⟩

/-- In every run, the events about the cases of an organization carry its id, and its listings have
these events and no others, in every store that is committed, exactly when no operation stores
the case of an analysis for an organization. -/
theorem audited_iff (env : Env D) (ops : List Operation) {d : Deployment D}
    (hknown : EventsKnown d.tables) (haudited : Audited d.tables) :
    (∀ d' ∈ Session.stores (perform env) ops d, Audited d'.tables) ↔
      ∀ c ∈ Session.calls (perform env) ops d, ¬ c.1.StoresAnalysis c.2.tables := by
  have hstart : d.SoundTrail := ⟨hknown, haudited.carried⟩
  constructor
  · intro h
    have hcalls := Session.calls_of_final hstart fun c hc (hI : c.2.SoundTrail) =>
      Session.final_of_commits (I := Deployment.SoundTrail) hI fun d' hd' =>
        ⟨(perform_spec env c.1 hI).1 d' hd', (h d' (Session.mem_stores.mpr ⟨c, hc, hd'⟩)).carried⟩
    intro c hc
    refine (perform_spec env c.1 (hcalls c hc)).2.mp fun d' hd' => ?_
    exact (h d' (Session.mem_stores.mpr ⟨c, hc, hd'⟩)).carried
  · intro h d' hd'
    have hstores := Session.stores_of_calls hstart fun c hc (hI : c.2.SoundTrail) d' hd' =>
      ⟨(perform_spec env c.1 hI).1 d' hd', (perform_spec env c.1 hI).2.mpr (h c hc) d' hd'⟩
    exact audited_iff_carried.mpr (hstores.2 d' hd').2

/-- A case of the organization. -/
def sampleDeployment : Deployment Digest where
  tables := { cases := { rows := [{ caseId := "case", organizationId := some "org" }] } }

/-- An exception among the entries of a report, and an approval. -/
def sampleOperations : List Operation :=
  [.accountReport ⟨"org", [sampleReport .statement, sampleReport .statement], none⟩ fun _ => 0,
    .transition { organizationId := "org", caseId := "case", action := "approve" }]

theorem audited_sample :
    Session.stores (perform (.insertion .structural)) sampleOperations sampleDeployment ≠ [] ∧
      ∀ d' ∈ Session.stores (perform (.insertion .structural)) sampleOperations sampleDeployment,
        Audited d'.tables := by
  have hstores : 0 < (Session.stores (perform (.insertion .structural)) sampleOperations
      sampleDeployment).length := by decide +kernel
  refine ⟨List.ne_nil_of_length_pos hstores, ?_⟩
  have hnone : EventsCarried sampleDeployment.tables := fun e he => absurd he List.not_mem_nil
  have hknown : EventsKnown sampleDeployment.tables := fun e he => absurd he List.not_mem_nil
  apply (audited_iff (.insertion .structural) sampleOperations hknown
    (audited_iff_carried.mpr hnone)).mpr
  intro c hc
  obtain ⟨op, d⟩ := c
  rcases List.mem_pair.mp (Session.mem_of_calls hc) with hop | hop
  · cases hop
    exact id
  · cases hop
    exact id

/-- The event of an analysis has no organization. -/
theorem analysis_unlisted :
    ¬ ∀ d' ∈ Session.stores (perform (.insertion .structural)) [.profileAnalyze (retries 0)]
      ({} : Deployment Digest), Audited d'.tables := by
  have hunlisted : ∃ d' ∈ Session.stores (perform (.insertion .structural))
      [.profileAnalyze (retries 0)] ({} : Deployment Digest), ∃ e ∈ d'.tables.auditEvents,
        ∃ case ∈ d'.tables.cases.rows, (e.caseId = some case.caseId ∧
          case.organizationId = some "org") ∧ e.organizationId = none := by
    decide +kernel
  intro h
  obtain ⟨d', hd', e, he, case, hcase, howns, hnone⟩ := hunlisted
  cases hnone.symm.trans ((h d' hd').carried e he "org" ⟨case, hcase, howns⟩)

end PaymentOps.Cases
