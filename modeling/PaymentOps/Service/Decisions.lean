import PaymentOps.Domain.Models
import PaymentOps.Lib.Fallible
import PaymentOps.Lib.Interleaving

/-!
# Decisions of operators

An operator decides on an account reconciliation, a match candidate or a message correlation.  The
three services load the row, set its status, operator, note and time, and commit the columns that
have changed.  What they differ in is a `DecisionKind`.

* `decisions` are decisions at the same time, `deciding_step_iff` is what one step does;
* `decisions_whole_iff`: a row shows the last decision as a whole exactly when each commit finds
  every column that it leaves out as it was loaded.
-/

namespace PaymentOps.Decisions

open TwoStep

/-- The columns that a decision sets. -/
structure Decision where
  status : String
  operator : Option String := none
  note : Option String := none
  decidedAt : Option Instant := none
  deriving DecidableEq, Repr

attribute [ext] Decision

/-- A row, with the columns that a service reads or sets. -/
structure DecidedRow where
  organizationId : String
  decision : Decision
  deriving DecidableEq, Repr

/-- What a row that is not found is called, and `status_map`. -/
structure DecisionKind where
  notFound : String
  statusMap : List (String × String)

/-- `decide_account_reconciliation` -/
def accountReconciliation : DecisionKind where
  notFound := "account reconciliation not found"
  statusMap := [("confirm", "CONFIRMED"), ("reject", "REJECTED"), ("duplicate", "DUPLICATE"),
    ("review", "REVIEW_REQUIRED")]

/-- `decide_candidate` -/
def matchCandidate : DecisionKind where
  notFound := "match candidate not found"
  statusMap := [("confirm", "CONFIRMED"), ("reject", "REJECTED"), ("duplicate", "DUPLICATE"),
    ("review", "REVIEW_REQUIRED")]

/-- `decide_correlation` -/
def messageCorrelation : DecisionKind where
  notFound := "correlation not found"
  statusMap := [("confirm", "CORRELATED"), ("reject", "UNRESOLVED"), ("leave", "UNRESOLVED")]

/-- What a decision raises. -/
inductive DecisionError where
  | lookupError (message : String)
  | valueError (message : String)
  | staleDataError
  deriving DecidableEq, Repr

/-- A call of one of the services; a row is named by its position. -/
structure DecideCall where
  organizationId : String
  rowId : ℕ
  action : String
  operator : Option String := none
  note : Option String := none
  decidedAt : Instant := 0

/-- The decision of a call whose action stands for the status. -/
def DecideCall.decision (call : DecideCall) (status : String) : Decision where
  status := status
  operator := call.operator
  note := call.note
  decidedAt := some call.decidedAt

/-- What the columns hold after a commit of those that have changed. -/
def Decision.merge (loaded new current : Decision) : Decision where
  status := written loaded.status new.status current.status
  operator := written loaded.operator new.operator current.operator
  note := written loaded.note new.note current.note
  decidedAt := written loaded.decidedAt new.decidedAt current.decidedAt

section

variable (kind : DecisionKind)

/-- What precedes the commit: the decision that was loaded, and the new one. -/
def checkDecision (call : DecideCall) (rows : List DecidedRow) :
    Except DecisionError (Decision × Decision) :=
  match rows[call.rowId]?.filter (·.organizationId = call.organizationId) with
  | none => .error (.lookupError kind.notFound)
  | some row =>
    match kind.statusMap.lookup call.action with
    | none => .error (.valueError ("unsupported action '" ++ call.action ++ "'"))
    | some status => .ok (row.decision, call.decision status)

/-- The commit, and the row as it is read again. -/
def commitDecision (call : DecideCall) (loaded new : Decision) (rows : List DecidedRow) :
    Except DecisionError DecidedRow × List DecidedRow :=
  match rows[call.rowId]? with
  | none => (.error .staleDataError, rows)
  | some row =>
    let decided := { row with decision := loaded.merge new row.decision }
    (.ok decided, rows.set call.rowId decided)

/-- Decisions at the same time. -/
def decisions (call : ℕ → DecideCall) :
    TwoStep ℕ (List DecidedRow) (Decision × Decision) (Except DecisionError DecidedRow) where
  read i rows :=
    match checkDecision kind (call i) rows with
    | .error e => .inl (.error e)
    | .ok r => .inr r
  write i r rows := commitDecision (call i) r.1 r.2 rows

end

/-- The configurations of a schedule of decisions. -/
abbrev Deciding :=
  Config ℕ (List DecidedRow) (Decision × Decision) (Except DecisionError DecidedRow)

/-- The call whose decision on the row was committed last. -/
def lastDecided (call : ℕ → DecideCall) (rowId : ℕ) (c : Deciding) : Option ℕ :=
  ((c.answers.filter fun a => a.2.toBool ∧ (call a.1).rowId = rowId).getLast?).map (·.1)

/-- The row shows the decision of a call. -/
def Shows (kind : DecisionKind) (call : DecideCall) (rows : List DecidedRow) : Prop :=
  ∃ row status, rows[call.rowId]? = some row ∧ kind.statusMap.lookup call.action = some status ∧
    row.decision = call.decision status

/-- The row shows the last decision as a whole. -/
def Whole (kind : DecisionKind) (call : ℕ → DecideCall) (rowId : ℕ) (c : Deciding) : Prop :=
  ∀ i ∈ lastDecided call rowId c, Shows kind (call i) c.store

/-- A column that the commit leaves out holds what was loaded. -/
structure LeavesLoaded (loaded new current : Decision) : Prop where
  status : new.status = loaded.status → current.status = loaded.status
  operator : new.operator = loaded.operator → current.operator = loaded.operator
  note : new.note = loaded.note → current.note = loaded.note
  decidedAt : new.decidedAt = loaded.decidedAt → current.decidedAt = loaded.decidedAt

/-- The commit of a decision on the row finds the columns that it leaves out as they were loaded. -/
def FindsLoaded (call : ℕ → DecideCall) (rowId : ℕ) (c : Deciding) : Step ℕ → Prop
  | .read _ => True
  | .write i => ∀ r row, c.held.lookup i = some r → c.store[rowId]? = some row →
    (call i).rowId = rowId → LeavesLoaded r.1 r.2 row.decision

/-- What a call holds is its decision. -/
def HoldsDecisions (kind : DecisionKind) (call : ℕ → DecideCall) (c : Deciding) : Prop :=
  ∀ p ∈ c.held, ∃ status, kind.statusMap.lookup (call p.1).action = some status ∧
    p.2.2 = (call p.1).decision status

variable {kind : DecisionKind} {call : ℕ → DecideCall} {rowId i : ℕ} {c : Deciding}
  {loaded new current : Decision}

/-! ## One commit -/

theorem written_eq_new {α : Type} [DecidableEq α] {loaded new current : α} :
    written loaded new current = new ↔ (new = loaded → current = loaded) := by
  unfold written
  split_ifs with h
  · rw [h, imp_iff_right rfl]
  · exact iff_of_true rfl fun h' => absurd h' h

/-- The row shows the new decision exactly when no other change is under it. -/
theorem merge_eq_iff : loaded.merge new current = new ↔ LeavesLoaded loaded new current := by
  rw [Decision.merge, Decision.ext_iff]
  simp only [written_eq_new]
  constructor
  · rintro ⟨hstatus, hoperator, hnote, hdecidedAt⟩
    exact ⟨hstatus, hoperator, hnote, hdecidedAt⟩
  · rintro ⟨hstatus, hoperator, hnote, hdecidedAt⟩
    exact ⟨hstatus, hoperator, hnote, hdecidedAt⟩

/-- What a check finds is the decision of the row and that of the call. -/
theorem checkDecision_eq_ok {call : DecideCall} {rows : List DecidedRow} :
    checkDecision kind call rows = .ok (loaded, new) ↔
      ∃ row status, rows[call.rowId]? = some row ∧ row.organizationId = call.organizationId ∧
        kind.statusMap.lookup call.action = some status ∧ row.decision = loaded ∧
        call.decision status = new := by
  unfold checkDecision
  cases hrow : rows[call.rowId]? with
  | none => simp
  | some row =>
    by_cases horg : row.organizationId = call.organizationId
    · cases hstatus : kind.statusMap.lookup call.action <;> simp [Option.filter, horg]
    · simp [Option.filter, horg]

/-! ## Decisions at the same time -/

/-- A step neither commits a decision nor changes a row, or it is a commit. -/
theorem deciding_step_cases (kind : DecisionKind) (call : ℕ → DecideCall) (c : Deciding)
    (e : Step ℕ) :
    (((decisions kind call).step c e).store = c.store ∧
      (∀ rowId, lastDecided call rowId ((decisions kind call).step c e) =
        lastDecided call rowId c) ∧
      ∀ rowId, FindsLoaded call rowId c e) ∨
    ∃ i r row, e = .write i ∧ c.held.lookup i = some r ∧ (i, r) ∈ c.held ∧
      c.store[(call i).rowId]? = some row ∧
      ((decisions kind call).step c e).store =
        c.store.set (call i).rowId { row with decision := r.1.merge r.2 row.decision } ∧
      ∀ rowId, lastDecided call rowId ((decisions kind call).step c e) =
        if (call i).rowId = rowId then some i else lastDecided call rowId c := by
  have hfailed : ∀ (a : List (ℕ × Except DecisionError DecidedRow)) i error rowId,
      (a ++ [(i, Except.error error)]).filter
          (fun a => a.2.toBool ∧ (call a.1).rowId = rowId) =
        a.filter fun a => a.2.toBool ∧ (call a.1).rowId = rowId := by
    intro a i error rowId
    simp [Except.toBool]
  rcases step_cases (decisions kind call) c e with ⟨hnone, -, heq⟩ | ⟨i, answer, rfl, hread, heq⟩ |
    ⟨i, r, rfl, -, -, heq⟩ | ⟨i, r, l₁, l₂, rfl, hlookup, hheld, heq⟩
  · left
    rw [heq]
    refine ⟨rfl, fun _ => rfl, fun rowId => ?_⟩
    cases e with
    | read i => trivial
    | write i =>
      intro r row hr
      cases (hnone i rfl).symm.trans hr
  · left
    rw [heq]
    refine ⟨rfl, fun rowId => ?_, fun _ => trivial⟩
    obtain ⟨error, rfl⟩ : ∃ error, answer = .error error := by
      simp only [decisions] at hread
      split at hread
      · exact ⟨_, (Sum.inl.inj hread).symm⟩
      · cases hread
    simp only [lastDecided, hfailed]
  · left
    rw [heq]
    exact ⟨rfl, fun _ => rfl, fun _ => trivial⟩
  · cases hrow : c.store[(call i).rowId]? with
    | none =>
      left
      have hcommit : (decisions kind call).write i r c.store =
          (.error .staleDataError, c.store) := by
        simp only [decisions, commitDecision, hrow]
      rw [heq, hcommit]
      refine ⟨rfl, fun rowId => by simp only [lastDecided, hfailed], ?_⟩
      rintro rowId r' row - hrow' rfl
      cases hrow.symm.trans hrow'
    | some row =>
      right
      refine ⟨i, r, row, rfl, hlookup, by rw [hheld]; simp, hrow, ?_⟩
      have hcommit : (decisions kind call).write i r c.store =
          (.ok { row with decision := r.1.merge r.2 row.decision },
            c.store.set (call i).rowId { row with decision := r.1.merge r.2 row.decision }) := by
        simp only [decisions, commitDecision, hrow]
      rw [heq, hcommit]
      refine ⟨rfl, fun rowId => ?_⟩
      unfold lastDecided
      rw [List.filter_append]
      by_cases h : (call i).rowId = rowId
      · simp [h, Except.toBool]
      · simp [h]

theorem holdsDecisions_step (h : HoldsDecisions kind call c) (e : Step ℕ) :
    HoldsDecisions kind call ((decisions kind call).step c e) := by
  rcases step_cases (decisions kind call) c e with ⟨-, -, heq⟩ | ⟨i, answer, -, -, heq⟩ |
    ⟨i, r, -, -, hread, heq⟩ | ⟨i, r, l₁, l₂, -, -, hheld, heq⟩
  · rw [heq]
    exact h
  · rw [heq]
    exact h
  · rw [heq]
    intro p hp
    rcases List.mem_append.mp hp with hp | hp
    · exact h p hp
    · obtain rfl := List.mem_singleton.mp hp
      have hcheck : checkDecision kind (call i) c.store = .ok r := by
        simp only [decisions] at hread
        split at hread <;> cases hread
        assumption
      obtain ⟨row, status, -, -, hstatus, -, hnew⟩ := checkDecision_eq_ok.mp hcheck
      exact ⟨status, hstatus, hnew.symm⟩
  · rw [heq]
    intro p hp
    apply h p
    rw [hheld]
    exact List.mem_append.mpr ((List.mem_append.mp hp).imp id (List.mem_cons_of_mem _))

/-- A step keeps the decision on a row whole exactly when it finds what it leaves out as it was
loaded. -/
theorem deciding_step_iff (hheld : HoldsDecisions kind call c) (hwhole : Whole kind call rowId c)
    (e : Step ℕ) :
    Whole kind call rowId ((decisions kind call).step c e) ↔ FindsLoaded call rowId c e := by
  rcases deciding_step_cases kind call c e with ⟨hstore, hlast, hfinds⟩ |
    ⟨i, r, row, rfl, hlookup, hmem, hrow, hstore, hlast⟩
  · refine iff_of_true ?_ (hfinds rowId)
    rw [Whole, hlast, hstore]
    exact hwhole
  · by_cases hid : (call i).rowId = rowId
    · subst hid
      obtain ⟨status, hstatus, hnew⟩ := hheld (i, r) hmem
      have hfinds : FindsLoaded call (call i).rowId c (.write i) ↔
          LeavesLoaded r.1 r.2 row.decision := by
        constructor
        · exact fun h => h r row hlookup hrow rfl
        · intro h r' row' hr' hrow' _
          cases hlookup.symm.trans hr'
          cases hrow.symm.trans hrow'
          exact h
      have hlength := (List.getElem?_eq_some_iff.mp hrow).1
      rw [hfinds, ← merge_eq_iff, Whole, hlast, if_pos rfl, hstore]
      dsimp only at hstatus hnew
      simp [Shows, hlength, hstatus, ← hnew]
    · refine iff_of_true ?_ fun r' row' _ _ hid' => absurd hid' hid
      rw [Whole, hlast, if_neg hid, hstore]
      intro j hj
      obtain ⟨row', status, hrow', hshows⟩ := hwhole j hj
      refine ⟨row', status, ?_, hshows⟩
      -- the other row is not touched
      have hother : (call j).rowId = rowId := by
        obtain ⟨p, hp, rfl⟩ := Option.map_eq_some_iff.mp hj
        have hkeep := (List.mem_filter.mp (List.mem_of_getLast? hp)).2
        exact (of_decide_eq_true hkeep).2
      rwa [List.getElem?_set_ne fun h => hid (h.trans hother)]

/-- In every schedule of decisions, a row shows in every store the decision that was committed last
as a whole exactly when each commit finds every column that it leaves out as it was loaded. -/
theorem decisions_whole_iff (kind : DecisionKind) (call : ℕ → DecideCall) (rowId : ℕ)
    (rows : List DecidedRow) (steps : List (Step ℕ)) :
    (∀ c ∈ (decisions kind call).reached steps ⟨rows, [], []⟩, Whole kind call rowId c) ↔
      (decisions kind call).Along (FindsLoaded call rowId) steps ⟨rows, [], []⟩ := by
  apply forall_reached_iff_of_inv (I := HoldsDecisions kind call)
  · exact fun c e h => holdsDecisions_step h e
  · exact fun c e h hc => deciding_step_iff h hc e
  · exact fun p hp => absurd hp List.not_mem_nil
  · exact fun i hi => absurd hi (by simp [lastDecided])

/-- One operator confirms a candidate while another leaves it for review. -/
def confirmAndReview : ℕ → DecideCall
  | 0 => { organizationId := "org", rowId := 0, action := "confirm", operator := some "anna" }
  | _ => { organizationId := "org", rowId := 0, action := "review", operator := some "ben" }

/-- The candidate is confirmed in the end, in the name of the one who did not confirm it. -/
example : (((decisions matchCandidate confirmAndReview).run [.read 0, .read 1, .write 0, .write 1]
    ⟨[{ organizationId := "org", decision := { status := "REVIEW_REQUIRED" } }], [], []⟩).store.map
      fun row => (row.decision.status, row.decision.operator)) = [("CONFIRMED", some "ben")] := by
  decide

end PaymentOps.Decisions
