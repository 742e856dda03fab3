import PaymentOps.Cases.Store
import PaymentOps.Lib.Fallible
import PaymentOps.Lib.Interleaving

/-!
# The workflow of a case

An operator's action reads the case and commits its new status with an action and an audit event.
The guard on closed cases looks at the status that was read.

* `transitionCase` is an action by itself, `transitions` are actions at the same time;
* `decided_iff`: a decision stays and the audit trail names it exactly when each action finds,
  at its commit, the status that it has read or the one that it writes;
* `approved_and_rejected` is a schedule in which an approval is overwritten.
-/

namespace PaymentOps.Cases

open TwoStep

/-- A call of `transition_case`. -/
structure Transition where
  organizationId : String
  caseId : String
  action : String
  operator : Option String := none
  note : Option String := none
  actedAt : Instant := 0
  auditedAt : Instant := 0

/-- `_ALLOWED` -/
def allowed (action : String) : Option CaseStatus :=
  if action = "approve" then some .approved
  else if action = "reject" then some .rejected
  else if action = "close" then some .closed
  else none

/-- What precedes the write: the status that was read, and the new one. -/
def checkTransition (call : Transition) (s : CaseStore) :
    Except CaseError (CaseStatus × CaseStatus) := do
  let case ← getCase call.organizationId call.caseId s
  match allowed call.action with
  | none => .error (.valueError ("unsupported action '" ++ call.action ++ "'"))
  | some newStatus =>
    if case.status.terminal ∧ case.status ≠ newStatus then
      .error (.valueError "case already closed")
    else .ok (case.status, newStatus)

/-- The action that a transition records. -/
def actionRow (call : Transition) : CaseAction where
  organizationId := call.organizationId
  caseId := call.caseId
  action := call.action
  operator := call.operator
  note := call.note
  createdAt := call.actedAt

/-- The audit event of a transition. -/
def actionEvent (call : Transition) : AuditEvent where
  organizationId := some call.organizationId
  caseId := some call.caseId
  eventType := "case." ++ call.action
  userIdentity := call.operator
  actionMetadata := some { action := some call.action, note := call.note }
  createdAt := call.auditedAt

/-- The commit of the new status, with the action and the audit event. -/
def commitTransition (call : Transition) (loaded newStatus : CaseStatus) (s : CaseStore) :
    CaseStore where
  cases := s.cases.modify call.caseId
    (fun case => { case with status := written loaded newStatus case.status }) fun _ => rfl
  actions := s.actions ++ [actionRow call]
  auditEvents := s.auditEvents ++ [actionEvent call]

/-- `transition_case`: the case, its action and its event in one commit. -/
def transitionCase (call : Transition) : CaseService PaymentCase :=
  .transact fun s => do
    let (loaded, newStatus) ← checkTransition call s
    let t := commitTransition call loaded newStatus s
    let case ← getCase call.organizationId call.caseId t
    pure (case, t)

/-- Actions at the same time. -/
def transitions (call : ℕ → Transition) :
    TwoStep ℕ CaseStore (CaseStatus × CaseStatus) (Except CaseError PaymentCase) where
  read i s :=
    match checkTransition (call i) s with
    | .error e => .inl (.error e)
    | .ok r => .inr r
  write i r s :=
    let t := commitTransition (call i) r.1 r.2 s
    (getCase (call i).organizationId (call i).caseId t, t)

variable {call : ℕ → Transition} {s : CaseStore} {caseId : String}
  {loaded newStatus status : CaseStatus} {i : ℕ}

/-! ## One action -/

theorem terminal_of_allowed {action : String} (h : allowed action = some status) :
    status.terminal = true := by
  unfold allowed at h
  split_ifs at h <;> cases h <;> rfl

theorem checkTransition_eq_ok {call : Transition} :
    checkTransition call s = .ok (loaded, newStatus) ↔
      ∃ case, getCase call.organizationId call.caseId s = .ok case ∧ case.status = loaded ∧
        allowed call.action = some newStatus ∧
        (loaded.terminal = true → loaded = newStatus) := by
  unfold checkTransition
  cases hcase : getCase call.organizationId call.caseId s with
  | error e => simp [bind, Except.bind]
  | ok case =>
    cases hallowed : allowed call.action with
    | none => simp [bind, Except.bind]
    | some status =>
      by_cases hclosed : case.status.terminal = true ∧ case.status ≠ status
      · simp only [bind, Except.bind, if_pos hclosed, reduceCtorEq, false_iff]
        rintro ⟨case', heq, rfl, hnew, hsame⟩
        cases heq
        cases hnew
        exact hclosed.2 (hsame hclosed.1)
      · simp only [bind, Except.bind, if_neg hclosed, Except.ok.injEq, Prod.mk.injEq]
        constructor
        · rintro ⟨rfl, rfl⟩
          exact ⟨case, rfl, rfl, rfl, fun h => not_not.mp fun hne => hclosed ⟨h, hne⟩⟩
        · rintro ⟨case', rfl, rfl, hnew, -⟩
          exact ⟨rfl, Option.some.inj hnew⟩

theorem getCase_commitTransition {call : Transition} {case : PaymentCase}
    (h : getCase call.organizationId call.caseId s = .ok case)
    (loaded newStatus : CaseStatus) :
    getCase call.organizationId call.caseId (commitTransition call loaded newStatus s) =
      .ok { case with status := written loaded newStatus case.status } := by
  obtain ⟨hfind, horg⟩ := getCase_eq_ok.mp h
  apply getCase_eq_ok.mpr
  refine ⟨?_, horg⟩
  rw [commitTransition, Table.find_modify, if_pos rfl, hfind, Option.map_some]

/-- An action that nothing interrupts is a call of the service. -/
theorem transitions_alone (call : ℕ → Transition) (i : ℕ) (s : CaseStore) :
    (transitions call).alone i s =
      (((transitionCase (call i)).run s).outcome, ((transitionCase (call i)).run s).final s) := by
  cases hcheck : checkTransition (call i) s with
  | error e =>
    rw [transitionCase, Session.transact_error (by rw [hcheck]; rfl)]
    simp [alone, transitions, hcheck]
  | ok r =>
    obtain ⟨loaded, newStatus⟩ := r
    obtain ⟨case, hcase, -⟩ := checkTransition_eq_ok.mp hcheck
    have hget := getCase_commitTransition hcase loaded newStatus
    have hrun : (transitionCase (call i)).run s =
        ⟨[commitTransition (call i) loaded newStatus s],
          .ok { case with status := written loaded newStatus case.status }⟩ := by
      apply Session.transact_ok
      rw [hcheck]
      show (getCase (call i).organizationId (call i).caseId
        (commitTransition (call i) loaded newStatus s) >>= fun case => pure (case, _)) = _
      rw [hget]
      rfl
    rw [hrun]
    simp [alone, transitions, hcheck, hget]

/-- The status of a case. -/
def statusOf (caseId : String) (s : CaseStore) : Option CaseStatus :=
  (s.cases.find caseId).map (·.status)

theorem statusOf_commitTransition (call : Transition) (loaded newStatus : CaseStatus)
    (s : CaseStore) (caseId : String) :
    statusOf caseId (commitTransition call loaded newStatus s) =
      if call.caseId = caseId then (statusOf caseId s).map (written loaded newStatus)
      else statusOf caseId s := by
  rw [statusOf, commitTransition, Table.find_modify]
  split_ifs
  · rw [Option.map_map, statusOf, Option.map_map]
    rfl
  · rfl

/-! ## Actions at the same time -/

/-- The configurations of a schedule of actions. -/
abbrev Acting := Config ℕ CaseStore (CaseStatus × CaseStatus) (Except CaseError PaymentCase)

/-- The audit events of a case since the store `s`. -/
def eventsSince (s : CaseStore) (caseId : String) (c : Acting) : List AuditEvent :=
  (c.store.auditEvents.drop s.auditEvents.length).filter (·.caseId = some caseId)

/-- The last audit event of the case names the action whose status the case has. -/
def LastNamed (s : CaseStore) (caseId : String) (c : Acting) : Prop :=
  ∀ event, (eventsSince s caseId c).getLast? = some event →
    ∃ action status, event.eventType = "case." ++ action ∧ allowed action = some status ∧
      statusOf caseId c.store = some status

/-- A decision on the case in the one configuration is that of the other. -/
def DecisionKept (caseId : String) (c d : Acting) : Prop :=
  ∀ status, statusOf caseId c.store = some status → status.terminal = true →
    statusOf caseId d.store = some status

/-- The commit of an action on the case finds the status that the action has read, or the one that
it writes. -/
def FindsStatus (call : ℕ → Transition) (caseId : String) (c : Acting) : Step ℕ → Prop
  | .read _ => True
  | .write i => ∀ r, c.held.lookup i = some r → (call i).caseId = caseId →
    statusOf caseId c.store = some r.1 ∨ statusOf caseId c.store = some r.2

/-- What an action holds: it has passed the guard, and the case has been decided since, unless it
has the status that was read. -/
def HeldFits (call : ℕ → Transition) (caseId : String) (c : Acting) (i : ℕ)
    (r : CaseStatus × CaseStatus) : Prop :=
  allowed (call i).action = some r.2 ∧ (r.1.terminal = true → r.1 = r.2) ∧
    ((call i).caseId = caseId → ∃ current, statusOf caseId c.store = some current ∧
      (current = r.1 ∨ current.terminal = true))

/-- What holds of the store and of the transitions in progress. -/
structure ActingInv (call : ℕ → Transition) (s : CaseStore) (caseId : String) (c : Acting) :
    Prop where
  held : ∀ p ∈ c.held, HeldFits call caseId c p.1 p.2
  events : s.auditEvents <+: c.store.auditEvents

variable {c d : Acting} {e : Step ℕ}

theorem ActingInv.events_commit (h : ActingInv call s caseId c) (i : ℕ)
    (hd : d.store = commitTransition (call i) loaded newStatus c.store) :
    eventsSince s caseId d = eventsSince s caseId c ++
      if (call i).caseId = caseId then [actionEvent (call i)] else [] := by
  have hadded : d.store.auditEvents = c.store.auditEvents ++ [actionEvent (call i)] := by
    rw [hd]
    rfl
  rw [eventsSince, hadded, List.drop_append_of_le_length h.events.length_le, List.filter_append]
  refine congrArg _ ?_
  by_cases hcase : (call i).caseId = caseId
  · simp [actionEvent, hcase]
  · simp [actionEvent, hcase]

theorem HeldFits.mono {r : CaseStatus × CaseStatus} (h : HeldFits call caseId c i r)
    (hstatus : ∀ current, statusOf caseId c.store = some current →
      statusOf caseId d.store = some current ∨
        ∃ decided, statusOf caseId d.store = some decided ∧ decided.terminal = true) :
    HeldFits call caseId d i r := by
  refine ⟨h.1, h.2.1, fun hcase => ?_⟩
  obtain ⟨current, hcurrent, hread⟩ := h.2.2 hcase
  rcases hstatus current hcurrent with hsame | ⟨decided, hdecided, hterminal⟩
  · exact ⟨current, hsame, hread⟩
  · exact ⟨decided, hdecided, .inr hterminal⟩

theorem actingInv_step (h : ActingInv call s caseId c) (e : Step ℕ) :
    ActingInv call s caseId ((transitions call).step c e) := by
  rcases step_cases (transitions call) c e with ⟨-, -, heq⟩ | ⟨i, answer, -, -, heq⟩ |
    ⟨i, r, -, -, hread, heq⟩ | ⟨i, r, l₁, l₂, -, -, hheld, heq⟩
  · rw [heq]
    exact h
  · rw [heq]
    exact ⟨h.held, h.events⟩
  · rw [heq]
    refine ⟨fun p hp => ?_, h.events⟩
    rcases List.mem_append.mp hp with hp | hp
    · exact h.held p hp
    · obtain rfl := List.mem_singleton.mp hp
      -- the action has just read the status
      have hcheck : checkTransition (call i) c.store = .ok r := by
        simp only [transitions] at hread
        split at hread <;> cases hread
        assumption
      obtain ⟨case, hcase, hstatus, hallowed, hsame⟩ := checkTransition_eq_ok.mp hcheck
      refine ⟨hallowed, hsame, ?_⟩
      rintro rfl
      have hfind := (getCase_eq_ok.mp hcase).1
      exact ⟨case.status, by simp [statusOf, hfind], .inl hstatus⟩
  · rw [heq]
    refine ⟨fun p hp => ?_, h.events.trans (List.prefix_append _ _)⟩
    have hp : p ∈ c.held := by
      rw [hheld]
      exact List.mem_append.mpr ((List.mem_append.mp hp).imp id (List.mem_cons_of_mem _))
    have hi := h.held (i, r) (by rw [hheld]; simp)
    refine (h.held p hp).mono fun current hcurrent => ?_
    show statusOf caseId (commitTransition (call i) r.1 r.2 c.store) = _ ∨
      ∃ decided, statusOf caseId (commitTransition (call i) r.1 r.2 c.store) = _ ∧ _
    rw [statusOf_commitTransition, hcurrent]
    by_cases hcase : (call i).caseId = caseId
    · by_cases hsame : r.2 = r.1
      · left
        simp [hcase, written, hsame]
      · right
        exact ⟨r.2, by simp [hcase, written, hsame], terminal_of_allowed hi.1⟩
    · left
      simp [hcase]

/-- The event of an action names it, so the last event is right when the case has its status. -/
theorem lastNamed_commit {events : List AuditEvent} {current : CaseStatus}
    (hevents : eventsSince s caseId d = events ++ [actionEvent (call i)])
    (hallowed : allowed (call i).action = some newStatus)
    (hstatus : statusOf caseId d.store = some current) :
    LastNamed s caseId d ↔ current = newStatus := by
  unfold LastNamed
  rw [hevents, List.getLast?_concat, hstatus]
  constructor
  · intro h
    obtain ⟨action, status, heq, hstatus, hcurrent⟩ := h _ rfl
    -- the event type determines the action
    have haction : (call i).action = action := by
      have hlist := congrArg String.toList heq
      rw [actionEvent, String.toList_append, String.toList_append] at hlist
      exact String.toList_injective (List.append_cancel_left hlist)
    rw [← haction, hallowed] at hstatus
    exact (Option.some.inj hcurrent).trans (Option.some.inj hstatus).symm
  · rintro rfl event hevent
    obtain rfl := Option.some.inj hevent
    exact ⟨(call i).action, current, rfl, hallowed, rfl⟩

/-- What is written is the new status, over no decision but that one, exactly when the status that
is there is the one that was read or the new one. -/
theorem written_iff {current : CaseStatus} (hsame : loaded.terminal = true → loaded = newStatus)
    (hterminal : newStatus.terminal = true) (hread : current = loaded ∨ current.terminal = true) :
    written loaded newStatus current = newStatus ∧
        (current.terminal = true → written loaded newStatus current = current) ↔
      current = loaded ∨ current = newStatus := by
  by_cases hchanged : newStatus = loaded
  · subst hchanged
    simp [written]
  · have hwritten : written loaded newStatus current = newStatus := if_neg hchanged
    rw [hwritten]
    constructor
    · rintro ⟨-, hkept⟩
      exact hread.imp id fun h => (hkept h).symm
    · rintro (rfl | rfl)
      · exact ⟨rfl, fun h => (hsame h).symm⟩
      · exact ⟨rfl, fun _ => rfl⟩

/-- A step keeps the decision and the name of it exactly when it finds the status as it should. -/
theorem step_keeps_iff (h : ActingInv call s caseId c) (hnamed : LastNamed s caseId c)
    (e : Step ℕ) :
    LastNamed s caseId ((transitions call).step c e) ∧
        DecisionKept caseId c ((transitions call).step c e) ↔ FindsStatus call caseId c e := by
  have hkept : DecisionKept caseId c c := fun _ hs _ => hs
  rcases step_cases (transitions call) c e with ⟨hnone, -, heq⟩ | ⟨i, answer, rfl, -, heq⟩ |
    ⟨i, r, rfl, -, -, heq⟩ | ⟨i, r, l₁, l₂, rfl, hlookup, hheld, heq⟩
  · rw [heq]
    refine iff_of_true ⟨hnamed, hkept⟩ ?_
    cases e with
    | read i => trivial
    | write i =>
      intro r hr
      cases (hnone i rfl).symm.trans hr
  · rw [heq]
    exact iff_of_true ⟨hnamed, hkept⟩ trivial
  · rw [heq]
    exact iff_of_true ⟨hnamed, hkept⟩ trivial
  · set d := (transitions call).step c (.write i)
    have hstore : d.store = commitTransition (call i) r.1 r.2 c.store := by
      rw [heq]
      rfl
    have hevents := h.events_commit i hstore
    have hstatus := statusOf_commitTransition (call i) r.1 r.2 c.store caseId
    rw [← hstore] at hstatus
    by_cases hcase : (call i).caseId = caseId
    · obtain ⟨hallowed, hsame, hfits⟩ := h.held (i, r) (by rw [hheld]; simp)
      obtain ⟨current, hcurrent, hread⟩ := hfits hcase
      rw [if_pos hcase, hcurrent, Option.map_some] at hstatus
      rw [if_pos hcase] at hevents
      have hnamed' : LastNamed s caseId d ↔ written r.1 r.2 current = r.2 :=
        lastNamed_commit hevents hallowed hstatus
      have hkept' : DecisionKept caseId c d ↔
          (current.terminal = true → written r.1 r.2 current = current) := by
        simp [DecisionKept, hcurrent, hstatus]
      have hfinds : FindsStatus call caseId c (.write i) ↔ current = r.1 ∨ current = r.2 := by
        simp [FindsStatus, hlookup, hcase, hcurrent]
      rw [hnamed', hkept', hfinds]
      exact written_iff hsame (terminal_of_allowed hallowed) hread
    · rw [if_neg hcase] at hstatus
      rw [if_neg hcase, List.append_nil] at hevents
      refine iff_of_true ⟨?_, ?_⟩ fun r' _ hcase' => absurd hcase' hcase
      · rw [LastNamed, hevents, hstatus]
        exact hnamed
      · intro status hs _
        rw [hstatus]
        exact hs

/-- In every schedule of actions a decision on a case stays, and the last audit event of the case
names the action whose status it has, exactly when each action on the case finds, at its commit,
the status that it has read or the one that it writes. -/
theorem decided_iff (call : ℕ → Transition) (caseId : String) (s : CaseStore)
    (steps : List (Step ℕ)) :
    ((∀ c ∈ (transitions call).reached steps ⟨s, [], []⟩, LastNamed s caseId c) ∧
        ((transitions call).reached steps ⟨s, [], []⟩).Pairwise (DecisionKept caseId)) ↔
      (transitions call).Along (FindsStatus call caseId) steps ⟨s, [], []⟩ := by
  have hinv : ActingInv call s caseId ⟨s, [], []⟩ := ⟨by simp, List.prefix_refl _⟩
  have hnamed : LastNamed s caseId ⟨s, [], []⟩ := by simp [LastNamed, eventsSince]
  apply reached_iff (I := ActingInv call s caseId)
  · intro a b d hab hbd status h hterminal
    exact hbd status (hab status h hterminal) hterminal
  · exact fun c e h => actingInv_step h e
  · exact fun c e h hc => step_keeps_iff h hc e
  · exact hinv
  · exact hnamed

/-- A case of the organization. -/
def openCase : CaseStore where
  cases := { rows := [{ caseId := "case-x", organizationId := some "org" }] }

/-- The first action approves the case, the others reject it. -/
def approveAndReject : ℕ → Transition
  | 0 => { organizationId := "org", caseId := "case-x", action := "approve" }
  | _ => { organizationId := "org", caseId := "case-x", action := "reject" }

/-- Both actions read the case before either of them commits: the approval is overwritten. -/
theorem approved_and_rejected :
    ¬ ((∀ c ∈ (transitions approveAndReject).reached [.read 0, .read 1, .write 0, .write 1]
          ⟨openCase, [], []⟩, LastNamed openCase "case-x" c) ∧
      ((transitions approveAndReject).reached [.read 0, .read 1, .write 0, .write 1]
        ⟨openCase, [], []⟩).Pairwise (DecisionKept "case-x")) := by
  rintro ⟨-, hpair⟩
  have hkept := List.pairwise_iff_getElem.mp hpair 3 4 (by decide) (by decide) (by decide)
  have hstatus := hkept .approved (by decide) rfl
  exact absurd hstatus (by decide)

end PaymentOps.Cases
