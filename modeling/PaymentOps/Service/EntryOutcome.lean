import PaymentOps.Service.EntryStep

/-!
# What an entry step leaves

The store and the outcome of one call of `_ingest_entry`.  A step adds one entry, settles it, and
at most then ensures a case, which is the only part that may raise.

* `settled` is the store once the entry has its status, `exceptionText` the exception for which a
  case is ensured;
* `exec_eq`: the step is its settling followed by the case;
* `exec_commits`: every commit of the step has its row, as it is added or as it is settled;
* `openReport_run`: a report is opened under the next key;
* `ensureWith_known`, `ensureWith_free` and `ensureWith_taken`: a case is there already, is
  opened, or collides with that of another organization.
-/

namespace PaymentOps

open Reconciliation AccountService

variable {D : Type}

/-! ## The case of an exception -/

namespace AccountService

/-- The organization has a case with the id. -/
def HasCase (org caseId : String) (s : Store D) : Prop :=
  ∃ c ∈ s.cases, c.caseId = caseId ∧ c.organizationId = org

/-- Some organization has a case with the id. -/
def CaseTaken (caseId : String) (s : Store D) : Prop := ∃ c ∈ s.cases, c.caseId = caseId

instance (org caseId : String) (s : Store D) : Decidable (HasCase org caseId s) :=
  inferInstanceAs (Decidable (∃ c ∈ _, _))

instance (caseId : String) (s : Store D) : Decidable (CaseTaken caseId s) :=
  inferInstanceAs (Decidable (∃ c ∈ _, _))

theorem HasCase.taken {org caseId : String} {s : Store D} (h : HasCase org caseId s) :
    CaseTaken caseId s := by
  obtain ⟨c, hc, hid, -⟩ := h
  exact ⟨c, hc, hid⟩

/-- The case that an exception opens. -/
def exceptionCase (org identityHash classification : String) : PaymentCase where
  caseId := caseIdFor identityHash
  organizationId := org
  messageType := classification
  status := "REVIEW_REQUIRED"

/-- The store with the case of an exception, and with its audit event. -/
def withCase (org : String) (entryId : ℕ) (identityHash classification : String) (s : Store D) :
    Store D :=
  { s with
    cases := s.cases ++ [exceptionCase org identityHash classification]
    auditEvents := s.auditEvents ++ [{
      organizationId := org, caseId := caseIdFor identityHash
      eventType := "account_exception.created", classification := classification
      entryId := entryId }] }

/-- Write a case and what goes with it, unless the organization has a case with the id.  The id is
unique over all organizations. -/
def ensureWith (org caseId : String) (write : Store D → Store D) : Service D Unit := do
  let existing ← Session.read fun s : Store D =>
    s.cases.any fun c => c.caseId = caseId && c.organizationId = org
  if existing then pure ()
  else .transact fun s =>
    if s.cases.any (·.caseId = caseId) then .error (.integrityError "payment_cases.case_id")
    else .ok ((), write s)

section

variable {org caseId identityHash classification : String} {entryId : ℕ} {s : Store D}
  {write : Store D → Store D}

private theorem any_case :
    (s.cases.any fun c => c.caseId = caseId && c.organizationId = org) =
      decide (HasCase org caseId s) := by
  rw [Bool.eq_iff_iff, decide_eq_true_iff]
  simp [HasCase]

private theorem any_taken :
    (s.cases.any (·.caseId = caseId)) = decide (CaseTaken caseId s) := by
  rw [Bool.eq_iff_iff, decide_eq_true_iff]
  simp [CaseTaken]

theorem ensureWith_known (h : HasCase org caseId s) :
    (ensureWith org caseId write).run s = ⟨[], .ok ()⟩ := by
  simp only [ensureWith, Session.read_bind, any_case, h, decide_true, if_true, Session.pure_apply]

theorem ensureWith_free (h : ¬ CaseTaken caseId s) :
    (ensureWith org caseId write).run s = ⟨[write s], .ok ()⟩ := by
  have hown : ¬ HasCase org caseId s := fun hc => h hc.taken
  simp only [ensureWith, Session.read_bind, any_case, hown, decide_false, Bool.false_eq_true,
    if_false]
  refine Session.transact_ok ?_
  rw [any_taken, decide_eq_false h, if_neg Bool.false_ne_true]

/-- The case id belongs to another organization. -/
theorem ensureWith_taken (h : CaseTaken caseId s) (hown : ¬ HasCase org caseId s) :
    (ensureWith org caseId write).run s =
      ⟨[], .error (.integrityError "payment_cases.case_id")⟩ := by
  simp only [ensureWith, Session.read_bind, any_case, hown, decide_false, Bool.false_eq_true,
    if_false]
  refine Session.transact_error ?_
  rw [any_taken, decide_eq_true h, if_pos rfl]

/-- A case is written under an id that is free. -/
theorem ensureWith_invariant {I : Store D → Prop}
    (h : ∀ s, I s → ¬ CaseTaken caseId s → I (write s)) :
    Session.Keeps I (ensureWith org caseId write) := by
  refine .of_commits fun s hs c hc => ?_
  by_cases htaken : CaseTaken caseId s
  · by_cases hown : HasCase org caseId s
    · rw [ensureWith_known hown] at hc
      cases hc
    · rw [ensureWith_taken htaken hown] at hc
      cases hc
  · rw [ensureWith_free htaken] at hc
    obtain rfl := List.mem_singleton.mp hc
    exact h s hs htaken

theorem ensureCase_eq : (ensureCase org entryId identityHash classification : Service D Unit) =
    ensureWith org (caseIdFor identityHash) (withCase org entryId identityHash classification) :=
  rfl

theorem ensureCase_known (h : HasCase org (caseIdFor identityHash) s) :
    (ensureCase org entryId identityHash classification).run s = ⟨[], .ok ()⟩ := by
  rw [ensureCase_eq, ensureWith_known h]

theorem ensureCase_free (h : ¬ CaseTaken (caseIdFor identityHash) s) :
    (ensureCase org entryId identityHash classification).run s =
      ⟨[withCase org entryId identityHash classification s], .ok ()⟩ := by
  rw [ensureCase_eq, ensureWith_free h]

theorem ensureCase_taken (h : CaseTaken (caseIdFor identityHash) s)
    (hown : ¬ HasCase org (caseIdFor identityHash) s) :
    (ensureCase org entryId identityHash classification).run s =
      ⟨[], .error (.integrityError "payment_cases.case_id")⟩ := by
  rw [ensureCase_eq, ensureWith_taken h hown]

end

end AccountService

/-! ## Opening a report -/

/-- A store with one more report, and its balances. -/
def Store.withReport (s : Store D) (row : AccountReportRow) (balances : List AccountBalanceRow) :
    Store D :=
  { s with
    accountReports := s.accountReports ++ [row]
    accountBalances := s.accountBalances ++ balances }

/-- A report is opened under the next key, then its balances are added. -/
theorem openReport_run (org : String) (report : AccountReport) :
    ∃ row : Option ℕ → AccountReportRow,
      (∀ iso, (row iso).organizationId = org ∧ (row iso).reportType = report.reportType ∧
        (row iso).isoMessageId = iso) ∧
      (∀ iso k, { row iso with isoMessageId := k } = row k) ∧
      ∀ (iso : Option ℕ) (s : Store D),
        ((openReport org iso report).run s).outcome = .ok s.accountReports.length ∧
          ((openReport org iso report).run s).final s = s.withReport (row iso)
            (report.balances.map (balanceRow org s.accountReports.length)) ∧
          ∀ c ∈ ((openReport org iso report).run s).commits, ∃ balances,
            c = s.withReport (row iso) balances := by
  obtain ⟨row, hrow, hset, hadd⟩ : ∃ row : Option ℕ → AccountReportRow,
      (∀ iso, (row iso).organizationId = org ∧ (row iso).reportType = report.reportType ∧
        (row iso).isoMessageId = iso) ∧
      (∀ iso k, { row iso with isoMessageId := k } = row k) ∧
      ∀ (iso : Option ℕ) (s : Store D), (persistReport org report iso).run s =
        ⟨[{ s with accountReports := s.accountReports ++ [row iso] }],
          .ok s.accountReports.length⟩ :=
    ⟨fun iso => _, fun _ => ⟨rfl, rfl, rfl⟩, fun _ _ => rfl, fun _ _ => rfl⟩
  refine ⟨row, hrow, hset, fun iso s => ?_⟩
  have hopened : ({ s with accountReports := s.accountReports ++ [row iso] } : Store D) =
      s.withReport (row iso) [] := by
    rw [Store.withReport, List.append_nil]
  have hpersist : (persistReport org report iso).run s =
      ⟨[s.withReport (row iso) []], .ok s.accountReports.length⟩ := by
    rw [hadd, hopened]
  have hok : ((persistReport org report iso).run s).outcome = .ok s.accountReports.length := by
    rw [hpersist]
  have hbalances : (persistBalances org report s.accountReports.length).run
      (s.withReport (row iso) []) = ⟨if report.balances.isEmpty then [] else
        [s.withReport (row iso) (report.balances.map (balanceRow org s.accountReports.length))],
        .ok ()⟩ := by
    unfold persistBalances
    split_ifs with hempty
    · rfl
    · simp [Session.commit_apply, Store.withReport]
  have hrun : (openReport org iso report).run s =
      ⟨s.withReport (row iso) [] :: if report.balances.isEmpty then [] else
        [s.withReport (row iso) (report.balances.map (balanceRow org s.accountReports.length))],
        .ok s.accountReports.length⟩ := by
    rw [openReport, Session.bind_ok hok, hpersist, Session.final_singleton, Session.bind_ok
      (a := ()) (by rw [hbalances]), hbalances]
    simp
  rw [hrun]
  refine ⟨rfl, ?_, fun c hc => ?_⟩
  · rw [Session.final_cons]
    split_ifs with hempty
    · rw [List.isEmpty_iff.mp hempty]
      rfl
    · rfl
  · rcases List.mem_cons.mp hc with rfl | hc
    · exact ⟨[], rfl⟩
    · split_ifs at hc
      · cases hc
      · exact ⟨_, List.mem_singleton.mp hc⟩

/-! ## The step -/

namespace EntryStep

variable (env : Env D) (st : EntryStep D)

/-- The lifecycle with which the step reconciles its entry. -/
def lifecycle : Option (ℕ × PaymentLifecycleRow) :=
  match st.existing env with
  | some _ => none
  | none => findLifecycleForEntry env st.org st.entry (st.added env)

/-- The comparison of the entry with a lifecycle. -/
def reconciledWith (row : PaymentLifecycleRow) : AccountReconciliationResult :=
  reconcileAccountEntry env.unicode st.entry st.report.account (lifecycleContext row)

/-- The entry as the step leaves it. -/
def finalRow : AccountEntryRow :=
  match st.existing env, st.lifecycle env with
  | some (_, e), _ =>
    { st.row env with
      reconciliationStatus := some (st.repeatStatus e)
      evidence :=
        if st.repeatStatus e = .reconciled then ["ACCOUNT_EVENT_CONFIRMED"]
        else ["DUPLICATE_IDENTITY"]
      lifecycleId := e.lifecycleId }
  | none, none =>
    { st.row env with
      reconciliationStatus := some .unmatchedAccountEntry, evidence := [], conflicts := [] }
  | none, some (id, l) =>
    let result := st.reconciledWith env l
    { st.row env with
      reconciliationStatus := some result.classification, matchScore := some result.matchScore
      evidence := result.evidence.map Evidence.value
      conflicts := result.conflicts.map Conflict.value, lifecycleId := some id }

/-- The reconciliations that the step stores. -/
def newReconciliations : List AccountReconciliationRow :=
  match st.existing env, st.lifecycle env with
  | some _, _ => []
  | none, none => [{
      organizationId := st.org, accountEntryId := st.rowId, lifecycleId := none
      classification := .unmatchedAccountEntry, matchScore := 0, evidence := []
      conflicts := [], status := "PENDING" }]
  | none, some (id, l) =>
    let result := st.reconciledWith env l
    [{
      organizationId := st.org, accountEntryId := st.rowId, lifecycleId := some id
      classification := result.classification, matchScore := result.matchScore
      evidence := result.evidence.map Evidence.value
      conflicts := result.conflicts.map Conflict.value, status := "PENDING" }]

/-- The event that the entry adds to a lifecycle. -/
def event (id : ℕ) (eventType : String) : PaymentLifecycleEventRow D where
  organizationId := st.org
  lifecycleId := id
  eventType := eventType
  messageFamily := some "camt"
  messageDefinition := st.report.messageDefinition
  messageVersion := st.report.messageVersion
  messageId := st.entry.sourceMessageId
  status := (Text.or st.entry.status (some "BOOK")).getD "BOOK"
  rawStatusCode := st.entry.status
  correlationEvidence := st.entry.evidence
  sourceHash := none

/-- The events that the step stores. -/
def newEvents : List (PaymentLifecycleEventRow D) :=
  match st.existing env, st.lifecycle env with
  | some (_, e), _ =>
    if st.repeatStatus e = .reconciled then
      e.lifecycleId.toList.map fun id => st.event id "ACCOUNT_EVENT_CONFIRMED"
    else []
  | none, none => []
  | none, some (id, _) =>
    [st.event id
      (if st.entry.creditDebit = some .dbit then "DEBIT_RECORDED" else "CREDIT_RECORDED")]

/-- The exception for which the step ensures a case. -/
def exceptionText : Option String :=
  match st.existing env, st.lifecycle env with
  | some (_, e), _ =>
    if st.repeatStatus e = .reconciled then none else some "DUPLICATE_ACCOUNT_ENTRY"
  | none, none => none
  | none, some (_, l) =>
    if exceptionStatuses.contains (st.reconciledWith env l).classification then
      some (st.reconciledWith env l).classification.value
    else none

/-- The store once the entry is settled. -/
def settled : Store D :=
  { st.before with
    accountEntries := st.before.accountEntries ++ [st.finalRow env]
    accountReconciliations := st.before.accountReconciliations ++ st.newReconciliations env
    lifecycleEvents := st.before.lifecycleEvents ++ st.newEvents env }

/-- What follows the settling. -/
def conclusion : Service D Unit :=
  match st.exceptionText env with
  | none => pure ()
  | some text => ensureCase st.org st.rowId (st.identityHash env) text

variable {env : Env D} {st : EntryStep D}

theorem modify_added {l : List AccountEntryRow} (row : AccountEntryRow)
    (f : AccountEntryRow → AccountEntryRow) : (l ++ [row]).modify l.length f = l ++ [f row] := by
  apply List.ext_getElem?
  intro i
  grind

/-- What the step does once its row is added. -/
def followUp (env : Env D) (st : EntryStep D) : Service D Unit :=
  match st.existing env with
  | some (_, existing) => do
    let status := st.repeatStatus existing
    Store.updateEntry st.rowId fun row =>
      { row with
        reconciliationStatus := some status
        evidence :=
          if status = .reconciled then ["ACCOUNT_EVENT_CONFIRMED"] else ["DUPLICATE_IDENTITY"]
        lifecycleId := existing.lifecycleId }
    if status = .reconciled then
      match existing.lifecycleId with
      | some lifecycleId =>
        addLifecycleEvent st.org lifecycleId st.entry st.report "ACCOUNT_EVENT_CONFIRMED"
      | none => pure ()
    else ensureCase st.org st.rowId (st.identityHash env) "DUPLICATE_ACCOUNT_ENTRY"
  | none => do
    let lifecycle ← Session.read (findLifecycleForEntry env st.org st.entry)
    reconcileAndPersist env st.org st.rowId (st.identityHash env) st.entry st.report lifecycle

theorem exec_added : st.exec env =
    ⟨st.added env :: ((st.followUp env).run (st.added env)).commits,
      ((st.followUp env).run (st.added env)).outcome⟩ := by
  have hadd : st.exec env = (addEntry (st.row env) >>= fun _ => st.followUp env).run st.before :=
    rfl
  rw [hadd, addEntry, Session.transact_bind rfl]
  rfl

theorem find_lifecycle (h : st.existing env = none) :
    findLifecycleForEntry env st.org st.entry (st.added env) = st.lifecycle env := by
  simp only [lifecycle, h]

/-- A step settles its entry, then ensures the case of an exception. -/
theorem exec_eq (env : Env D) (st : EntryStep D) :
    st.after env = ((st.conclusion env).run (st.settled env)).final (st.settled env) ∧
      (st.exec env).outcome = ((st.conclusion env).run (st.settled env)).outcome := by
  rw [after, exec_added, Session.final_cons, followUp]
  rcases he : st.existing env with _ | ⟨i, e⟩
  · dsimp only
    rw [Session.read_bind, find_lifecycle he]
    rcases hl : st.lifecycle env with _ | ⟨id, l⟩
    · simp only [reconcileAndPersist, Store.updateEntry, persistReconciliation, conclusion,
        exceptionText, settled, finalRow, newReconciliations, newEvents, he, hl,
        Session.commit_bind, Session.commit_apply, Session.final_cons, Session.final_nil,
        Session.pure_apply, added, modify_added, List.append_nil, rowId, and_self]
    · obtain ⟨result, hresult⟩ : ∃ r, reconcileAccountEntry env.unicode st.entry
          st.report.account (lifecycleContext l) = r := ⟨_, rfl⟩
      simp only [reconcileAndPersist, Store.updateEntry, persistReconciliation, conclusion,
        addLifecycleEvent, Store.addEvent, exceptionText, settled, finalRow, newReconciliations,
        newEvents, event, he, hl, reconciledWith, hresult, Session.commit_bind,
        Session.final_cons, added, modify_added, rowId]
      by_cases hx : exceptionStatuses.contains result.classification
      · simp only [hx, if_true, and_self]
      · simp only [hx]
        exact ⟨rfl, rfl⟩
  · by_cases hr : st.repeatStatus e = .reconciled
    · rcases hid : e.lifecycleId with _ | id
      · simp only [Store.updateEntry, conclusion, exceptionText, settled, finalRow,
          newReconciliations, newEvents, he, hr, hid, if_true, Session.commit_bind,
          Session.final_cons, Session.final_nil, Session.pure_apply, added, modify_added, rowId,
          Option.toList_none, List.map_nil, List.append_nil, and_self]
      · simp only [Store.updateEntry, addLifecycleEvent, Store.addEvent, conclusion, exceptionText,
          settled, finalRow, newReconciliations, newEvents, event, he, hr, hid, if_true,
          Session.commit_bind, Session.commit_apply, Session.final_cons, Session.final_nil,
          Session.pure_apply, added, modify_added, rowId, Option.toList_some, List.map_cons,
          List.map_nil, List.append_nil, and_self]
    · simp only [Store.updateEntry, conclusion, exceptionText, settled, finalRow,
        newReconciliations, newEvents, he, hr, if_false, Session.commit_bind,
        Session.final_cons, added, modify_added, List.append_nil, rowId, and_self]

theorem after_mem : st.after env ∈ (st.exec env).commits := by
  rw [after, exec_added, Session.final_cons]
  rcases Session.final_mem ⟨((st.followUp env).run (st.added env)).commits, _⟩ (st.added env) with
    hf | hf
  · rw [hf]
    exact List.mem_cons_self
  · exact List.mem_cons_of_mem _ hf

private theorem settle_commits {f : AccountEntryRow → AccountEntryRow}
    {tail : Unit → Service D Unit}
    (hf : f (st.row env) = st.finalRow env) (ht : Session.Leaves Store.accountEntries (tail ())) :
    ∀ c ∈ ((Store.updateEntry st.rowId f >>= tail).run (st.added env)).commits,
      c.accountEntries = st.before.accountEntries ++ [st.finalRow env] := by
  have hmodify : (st.added env).accountEntries.modify st.rowId f =
      st.before.accountEntries ++ [st.finalRow env] := by
    rw [← hf]
    exact modify_added _ _
  intro c hc
  rw [Store.updateEntry, Session.commit_bind] at hc
  rcases List.mem_cons.mp hc with rfl | hc
  · exact hmodify
  · rw [ht _ c hc]
    exact hmodify

theorem followUp_commits : ∀ c ∈ ((st.followUp env).run (st.added env)).commits,
    c.accountEntries = st.before.accountEntries ++ [st.finalRow env] := by
  rw [followUp]
  rcases he : st.existing env with _ | ⟨i, e⟩
  · dsimp only
    rw [Session.read_bind, find_lifecycle he]
    rcases hl : st.lifecycle env with _ | ⟨id, l⟩ <;> unfold reconcileAndPersist
    · apply settle_commits
      · unfold finalRow
        rw [he, hl]
      · exact persistReconciliation_entries _ _ _ _ _ _ _
    · apply settle_commits
      · unfold finalRow
        rw [he, hl]
        rfl
      · exact .bind (persistReconciliation_entries _ _ _ _ _ _ _) fun _ =>
          .bind (addLifecycleEvent_entries _ _ _ _ _) fun _ =>
          .ite (ensureCase_entries _ _ _ _) (.pure _)
  · apply settle_commits
    · unfold finalRow
      rw [he]
    · refine .ite ?_ (ensureCase_entries _ _ _ _)
      cases e.lifecycleId with
      | none => exact .pure _
      | some l => exact addLifecycleEvent_entries _ _ _ _ _

/-- The entries at every commit of a step: the row is added, then settled. -/
theorem exec_commits : ∀ c ∈ (st.exec env).commits,
    c.accountEntries = st.before.accountEntries ++ [st.row env] ∨
      c.accountEntries = st.before.accountEntries ++ [st.finalRow env] := by
  rw [exec_added]
  intro c hc
  rcases List.mem_cons.mp hc with rfl | hc
  · exact .inl rfl
  · exact .inr (followUp_commits c hc)

theorem conclusion_leaves {γ : Type} {g : Store D → γ}
    (hg : ∀ s rows rows', g { s with cases := rows, auditEvents := rows' } = g s) :
    Session.Leaves g (st.conclusion env) := by
  unfold conclusion
  cases st.exceptionText env with
  | none => exact .pure _
  | some text => exact ensureCase_leaves hg _ _ _ _

/-- What the case does not touch is as the settling left it. -/
theorem after_eq {γ : Type} {g : Store D → γ}
    (hg : ∀ s rows rows', g { s with cases := rows, auditEvents := rows' } = g s) :
    g (st.after env) = g (st.settled env) := by
  rw [(exec_eq env st).1]
  exact (conclusion_leaves hg).final _

/-- The status of the row is that of the step. -/
theorem finalRow_status : (st.finalRow env).reconciliationStatus = some (st.status env) := by
  unfold finalRow status reconcilerResult lifecycle
  rcases he : st.existing env with _ | ⟨i, e⟩
  · rcases hl : findLifecycleForEntry env st.org st.entry (st.added env) with _ | ⟨id, l⟩
    · rfl
    · rfl
  · rfl

/-- The added row keeps the fields that identify its booking. -/
theorem finalRow_booking : (st.finalRow env).organizationId = st.org ∧
    (st.finalRow env).identityHash = st.identityHash env ∧
    (st.finalRow env).reportId = st.reportId := by
  unfold finalRow
  split <;> exact ⟨rfl, rfl, rfl⟩

/-- What the entries look like at every commit of a step. -/
theorem exec_committed : ∀ c ∈ (st.exec env).commits, st.Committed env c.accountEntries := by
  obtain ⟨horg, hhash, -⟩ : (st.finalRow env).organizationId = st.org ∧ _ := finalRow_booking
  intro c hc
  rcases exec_commits c hc with hrow | hrow
  · exact ⟨st.row env, hrow, rfl, rfl, .inl rfl⟩
  · exact ⟨st.finalRow env, hrow, horg, hhash, .inr finalRow_status⟩

theorem after_entries :
    (st.after env).accountEntries = st.before.accountEntries ++ [st.finalRow env] :=
  after_eq (g := Store.accountEntries) fun _ _ _ => rfl

theorem after_lifecycles : (st.after env).lifecycles = st.before.lifecycles :=
  after_eq (g := Store.lifecycles) fun _ _ _ => rfl

theorem repeatStatus_eq (st : EntryStep D) (e : AccountEntryRow) :
    st.repeatStatus e = .duplicateAccountEntry ∨ st.repeatStatus e = .reconciled := by
  unfold repeatStatus duplicateStatus
  split_ifs
  · exact .inl rfl
  · exact .inr rfl

/-- A case is ensured for the statuses that are exceptions. -/
theorem exceptionText_eq : st.exceptionText env =
    if st.status env ∈ exceptionStatuses then some (st.status env).value else none := by
  unfold exceptionText status reconcilerResult lifecycle
  rcases he : st.existing env with _ | ⟨i, e⟩
  · rcases hl : findLifecycleForEntry env st.org st.entry (st.added env) with _ | ⟨id, l⟩
    · rfl
    · simp only [List.contains_iff_mem]
      rfl
  · rcases repeatStatus_eq st e with hr | hr
    · simp only [hr]
      rfl
    · simp only [hr]
      rfl

/-- How a step ends: settled, or with a case where its case id is free. -/
theorem after_cases (env : Env D) (st : EntryStep D) :
    (st.exceptionText env = none ∧ st.after env = st.settled env) ∨
      ∃ text, st.exceptionText env = some text ∧
        ((CaseTaken (caseIdFor (st.identityHash env)) st.before ∧ st.after env = st.settled env) ∨
          (¬ CaseTaken (caseIdFor (st.identityHash env)) st.before ∧
            st.after env =
              withCase st.org st.rowId (st.identityHash env) text (st.settled env))) := by
  rw [(exec_eq env st).1, conclusion]
  rcases st.exceptionText env with _ | text
  · exact .inl ⟨rfl, rfl⟩
  refine .inr ⟨text, rfl, ?_⟩
  by_cases htaken : CaseTaken (caseIdFor (st.identityHash env)) st.before
  · left
    have htaken' : CaseTaken (caseIdFor (st.identityHash env)) (st.settled env) := htaken
    by_cases hown : HasCase st.org (caseIdFor (st.identityHash env)) (st.settled env)
    · dsimp only
      rw [ensureCase_known hown]
      exact ⟨htaken, rfl⟩
    · dsimp only
      rw [ensureCase_taken htaken' hown]
      exact ⟨htaken, rfl⟩
  · right
    have hfree : ¬ CaseTaken (caseIdFor (st.identityHash env)) (st.settled env) := htaken
    dsimp only
    rw [ensureCase_free hfree]
    exact ⟨htaken, rfl⟩

/-- The row of the step where the step ends. -/
theorem after_row : (st.after env).accountEntries[st.rowId]? = some (st.finalRow env) := by
  rw [after_entries, rowId, List.getElem?_append_right (Nat.le_refl _), Nat.sub_self]
  rfl

/-- The first entry with its identity is reconciled with the lifecycle that is found. -/
theorem finalRow_found {id : ℕ} {l : PaymentLifecycleRow} (he : st.existing env = none)
    (hl : st.lifecycle env = some (id, l)) :
    (st.finalRow env).reconciliationStatus = some (st.reconciledWith env l).classification ∧
      (st.finalRow env).lifecycleId = some id := by
  unfold finalRow
  rw [he, hl]
  exact ⟨rfl, rfl⟩

theorem finalRow_unmatched (he : st.existing env = none) (hl : st.lifecycle env = none) :
    (st.finalRow env).reconciliationStatus = some .unmatchedAccountEntry := by
  unfold finalRow
  rw [he, hl]

end EntryStep

/-! ## The entries of a run -/

/-- The rows that a report adds are those of its entry steps. -/
theorem ingestReport_entries (env : Env D) (org : String) (iso : Option ℕ) (report : AccountReport)
    (s : Store D) : (((ingestReport env org iso report).run s).final s).accountEntries =
      s.accountEntries ++ (reportSteps env org iso report s).map (·.finalRow env) := by
  obtain ⟨row, -, -, hopen⟩ := openReport_run (D := D) org report
  have ho := (hopen iso s).1
  have hentries := Session.each_final_append (g := Store.accountEntries)
    (h := fun v => [EntryStep.finalRow env ⟨org, report, s.accountReports.length, v.1, v.2⟩])
    (f := ingestEntry env org report s.accountReports.length)
    (fun entry t => @EntryStep.after_entries D env ⟨org, report, _, entry, t⟩)
    report.entries (((openReport org iso report).run s).final s)
  rw [(ingestReport_run ho).2, hentries, (openReport_entries org iso report).final s, reportSteps,
    ho]
  dsimp only
  rw [List.map_map, List.map_eq_flatMap]
  rfl

/-- The rows that a call adds are those of its entry steps. -/
theorem ingest_entries (env : Env D) (i : Ingestion) (s : Store D) :
    (((ingest env i).run s).final s).accountEntries =
      s.accountEntries ++ (callSteps env i s).map (·.finalRow env) := by
  rw [ingest, ingestAccountReport, callSteps, List.map_flatMap]
  exact Session.each_final_append (fun report t => ingestReport_entries env _ _ report t) _ s

variable {env : Env D} {I : List AccountEntryRow → Prop}

/-- Each step keeps what is known of the entries. -/
def StepsKeep (env : Env D) (I : List AccountEntryRow → Prop) (steps : List (EntryStep D)) :
    Prop :=
  ∀ st ∈ steps, I st.before.accountEntries → ∀ rows, st.Committed env rows → I rows

/-- What every entry step of a run keeps holds in every store that the run commits. -/
theorem run_keeps {run : List Ingestion} {s : Store D} (hs : I s.accountEntries)
    (h : StepsKeep env I (runSteps env run s)) :
    ∀ t ∈ runStores env run s, I t.accountEntries := by
  refine run_commits (I := fun t : Store D => I t.accountEntries) hs ?_ ?_
  · intro org iso report t ht c hc
    rw [openReport_entries org iso report t c hc]
    exact ht
  · intro st hst hI c hc
    exact h st hst hI _ (EntryStep.exec_committed c hc)

end PaymentOps
