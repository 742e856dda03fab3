import PaymentOps.Service.AccountCases
import PaymentOps.Service.MissingEvents

/-!
# The integrity of the store

The rows of a reconciliation, of an event and of a case repeat what other rows say, and each has its
own organization.  No constraint of the database ties them together.

* `Store.Consistent`: what the rows of a store say of each other agrees;
* `Stage` is what a step has written at one of its commits;
* `Store.Consistent.perform`: every operation keeps it, commit by commit;
* `integrity`: it holds after every run, wherever its calls are cut off, and the page of a lifecycle
  then shows the events of its organization.
-/

namespace PaymentOps

open Reconciliation AccountService

variable {D : Type}

/-- A reconciliation says of its entry what the entry says. -/
structure Settles (r : AccountReconciliationRow) (e : AccountEntryRow) : Prop where
  organization : e.organizationId = r.organizationId
  status : e.reconciliationStatus = some r.classification
  lifecycle : e.lifecycleId = r.lifecycleId
  score : e.matchScore.getD 0 = r.matchScore
  evidence : e.evidence = r.evidence
  conflicts : e.conflicts = r.conflicts

/-- An audit event says of its entry, and of its case, what these say. -/
structure Records (s : Store D) (a : AuditEvent) : Prop where
  entry : ∃ e status, s.accountEntries[a.entryId]? = some e ∧ e.organizationId = a.organizationId ∧
    e.reconciliationStatus = some status ∧ status ∈ exceptionStatuses ∧
    a.classification = status.value ∧ a.caseId = caseIdFor e.identityHash
  case : ∃ c ∈ s.cases, c.caseId = a.caseId ∧ c.organizationId = a.organizationId ∧
    c.messageType = a.classification

/-- A case was opened for an exception, or for a lifecycle of its organization. -/
def Opened (ids : LifecycleIds) (s : Store D) (c : PaymentCase) : Prop :=
  (∃ a ∈ s.auditEvents, a.caseId = c.caseId) ∨
    ∃ key, c.caseId = missingCaseId (ids.value key) ∧
      (∃ org ∈ s.owner key, c.organizationId = some org) ∧ c.messageType = "MISSING_ACCOUNT_EVENT"

/-- What the rows of the store say of each other agrees. -/
structure Store.Consistent (ids : LifecycleIds) (s : Store D) : Prop where
  events : ∀ ev ∈ s.lifecycleEvents, s.owner ev.lifecycleId = some ev.organizationId
  linked : LinkedWithin s
  reconciliations : ∀ r ∈ s.accountReconciliations,
    ∃ e, s.accountEntries[r.accountEntryId]? = some e ∧ Settles r e
  single : (s.accountReconciliations.map (·.accountEntryId)).Nodup
  audits : ∀ a ∈ s.auditEvents, Records s a
  recorded : (s.auditEvents.map (·.caseId)).Nodup
  cases : ∀ c ∈ s.cases, Opened ids s c
  caseIds : (s.cases.map (·.caseId)).Nodup

namespace Store.Consistent

variable {ids : LifecycleIds} {s t : Store D} {org : String}

theorem empty : ({} : Store D).Consistent ids where
  events _ h := absurd h List.not_mem_nil
  linked _ h := absurd h List.not_mem_nil
  reconciliations _ h := absurd h List.not_mem_nil
  single := List.nodup_nil
  audits _ h := absurd h List.not_mem_nil
  recorded := List.nodup_nil
  cases _ h := absurd h List.not_mem_nil
  caseIds := List.nodup_nil

/-- Lifecycles keep their organizations, and new events are on lifecycles of their own. -/
theorem congr (h : s.Consistent ids) (hentries : t.accountEntries = s.accountEntries)
    (hreconciliations : t.accountReconciliations = s.accountReconciliations)
    (hcases : t.cases = s.cases) (haudits : t.auditEvents = s.auditEvents)
    (howner : ∀ key org, s.owner key = some org → t.owner key = some org)
    (hevents : ∀ ev ∈ t.lifecycleEvents, ev ∈ s.lifecycleEvents ∨
      t.owner ev.lifecycleId = some ev.organizationId) : t.Consistent ids where
  events ev hev := (hevents ev hev).elim (fun hev => howner _ _ (h.events ev hev)) id
  linked := h.linked.congr hentries howner
  reconciliations := by
    rw [hreconciliations, hentries]
    exact h.reconciliations
  single := by
    rw [hreconciliations]
    exact h.single
  audits a ha := by
    obtain ⟨hentry, hcase⟩ := h.audits a (haudits ▸ ha)
    exact ⟨hentries ▸ hentry, hcases ▸ hcase⟩
  recorded := by
    rw [haudits]
    exact h.recorded
  cases c hc := by
    rcases h.cases c (hcases ▸ hc) with haudit | ⟨key, hid, ⟨org, hown, horg⟩, htype⟩
    · exact .inl (haudits ▸ haudit)
    · exact .inr ⟨key, hid, ⟨org, howner key org hown, horg⟩, htype⟩
  caseIds := by
    rw [hcases]
    exact h.caseIds

/-! ## Entries -/

/-- An entry on a lifecycle of its organization, with what goes with it. -/
theorem withEntry (h : s.Consistent ids) (row : AccountEntryRow)
    (reconciliations : List AccountReconciliationRow) (events : List (PaymentLifecycleEventRow D))
    (hlinked : ∀ key, row.lifecycleId = some key → s.owner key = some row.organizationId)
    (hsettles : ∀ r ∈ reconciliations, r.accountEntryId = s.accountEntries.length ∧ Settles r row)
    (hsingle : reconciliations.length ≤ 1)
    (hevents : ∀ ev ∈ events, s.owner ev.lifecycleId = some ev.organizationId) :
    Store.Consistent ids { s with
      accountEntries := s.accountEntries ++ [row]
      accountReconciliations := s.accountReconciliations ++ reconciliations
      lifecycleEvents := s.lifecycleEvents ++ events } where
  events ev hev := (List.mem_append.mp hev).elim (h.events ev) (hevents ev)
  linked e he key hkey := by
    rcases List.mem_append.mp he with he | he
    · exact h.linked e he key hkey
    · obtain rfl := List.mem_singleton.mp he
      exact hlinked key hkey
  reconciliations r hr := by
    rcases List.mem_append.mp hr with hr | hr
    · obtain ⟨e, he, hsettle⟩ := h.reconciliations r hr
      have hlt := (List.getElem?_eq_some_iff.mp he).1
      exact ⟨e, (List.getElem?_append_left hlt).trans he, hsettle⟩
    · obtain ⟨hid, hsettle⟩ := hsettles r hr
      refine ⟨row, ?_, hsettle⟩
      rw [hid, List.getElem?_append_right (Nat.le_refl _), Nat.sub_self]
      rfl
  single := by
    rw [List.map_append, List.nodup_append]
    refine ⟨h.single, ?_, ?_⟩
    · cases reconciliations with
      | nil => exact List.nodup_nil
      | cons r rs =>
        obtain rfl : rs = [] := List.eq_nil_of_length_eq_zero (by simpa using hsingle)
        exact List.nodup_singleton _
    · -- the entry is new, so no reconciliation names it yet
      intro a ha b hb
      obtain ⟨r, hr, rfl⟩ := List.mem_map.mp ha
      obtain ⟨r', hr', rfl⟩ := List.mem_map.mp hb
      obtain ⟨e, he, -⟩ := h.reconciliations r hr
      have hlt := (List.getElem?_eq_some_iff.mp he).1
      have hid := (hsettles r' hr').1
      omega
  audits a ha := by
    obtain ⟨⟨e, status, he, hentry⟩, hcase⟩ := h.audits a ha
    have hlt := (List.getElem?_eq_some_iff.mp he).1
    exact ⟨⟨e, status, (List.getElem?_append_left hlt).trans he, hentry⟩, hcase⟩
  recorded := h.recorded
  cases := h.cases
  caseIds := h.caseIds

/-- A free id is the id of no other case. -/
theorem nodup_caseIds {c : PaymentCase} (h : (s.cases.map (·.caseId)).Nodup)
    (hfree : ¬ CaseTaken c.caseId s) : ((s.cases ++ [c]).map (·.caseId)).Nodup := by
  rw [List.map_append, List.nodup_append]
  refine ⟨h, List.nodup_singleton _, ?_⟩
  intro a ha b hb heq
  obtain ⟨c', hc', rfl⟩ := List.mem_map.mp ha
  obtain rfl := List.mem_singleton.mp hb
  exact hfree ⟨c', hc', heq⟩

/-- A case under a free id, for an entry with an exception. -/
theorem withCase (h : s.Consistent ids) {entryId : ℕ} {e : AccountEntryRow}
    {status : AccountReconciliationStatus} (he : s.accountEntries[entryId]? = some e)
    (horg : e.organizationId = org) (hstatus : e.reconciliationStatus = some status)
    (hexc : status ∈ exceptionStatuses)
    (hfree : ¬ CaseTaken (caseIdFor e.identityHash) s) :
    (withCase org entryId e.identityHash status.value s).Consistent ids where
  events := h.events
  linked := h.linked
  reconciliations := h.reconciliations
  single := h.single
  audits a ha := by
    rcases List.mem_append.mp ha with ha | ha
    · obtain ⟨hentry, c, hc, hcase⟩ := h.audits a ha
      exact ⟨hentry, c, List.mem_append_left _ hc, hcase⟩
    · obtain rfl := List.mem_singleton.mp ha
      exact ⟨⟨e, status, he, horg, hstatus, hexc, rfl, rfl⟩, _,
        List.mem_append_right _ List.mem_cons_self, rfl, rfl, rfl⟩
  recorded := by
    rw [AccountService.withCase, List.map_append, List.nodup_append]
    refine ⟨h.recorded, List.nodup_singleton _, ?_⟩
    intro a ha b hb heq
    obtain ⟨audit, haudit, rfl⟩ := List.mem_map.mp ha
    obtain rfl := List.mem_singleton.mp hb
    obtain ⟨c, hc, hid, -⟩ := (h.audits audit haudit).case
    exact hfree ⟨c, hc, hid.trans heq⟩
  cases c hc := by
    rcases List.mem_append.mp hc with hc | hc
    · rcases h.cases c hc with ⟨a, ha, hid⟩ | hlifecycle
      · exact .inl ⟨a, List.mem_append_left _ ha, hid⟩
      · exact .inr hlifecycle
    · obtain rfl := List.mem_singleton.mp hc
      exact .inl ⟨_, List.mem_append_right _ List.mem_cons_self, rfl⟩
  caseIds := nodup_caseIds h.caseIds hfree

/-- The case of a lifecycle under a free id. -/
theorem withMissingCase (h : s.Consistent ids) {key : ℕ} (howner : s.owner key = some org)
    (hfree : ¬ CaseTaken (missingCaseId (ids.value key)) s) :
    (withMissingCase org (ids.value key) s).Consistent ids where
  events := h.events
  linked := h.linked
  reconciliations := h.reconciliations
  single := h.single
  audits a ha := by
    obtain ⟨hentry, c, hc, hcase⟩ := h.audits a ha
    exact ⟨hentry, c, List.mem_append_left _ hc, hcase⟩
  recorded := h.recorded
  cases c hc := by
    rcases List.mem_append.mp hc with hc | hc
    · exact h.cases c hc
    · obtain rfl := List.mem_singleton.mp hc
      exact .inr ⟨key, rfl, ⟨org, howner, rfl⟩, rfl⟩
  caseIds := nodup_caseIds h.caseIds hfree

end Store.Consistent

/-! ## The commits of a step -/

namespace EntryStep

/-- The store when the entry is settled, with a part of what goes with it. -/
def settling (env : Env D) (st : EntryStep D) (reconciliations : List AccountReconciliationRow)
    (events : List (PaymentLifecycleEventRow D)) : Store D :=
  { st.before with
    accountEntries := st.before.accountEntries ++ [st.finalRow env]
    accountReconciliations := st.before.accountReconciliations ++ reconciliations
    lifecycleEvents := st.before.lifecycleEvents ++ events }

/-- What a step has written at one of its commits: the row of its entry, then, once the entry is
settled, the reconciliation, the event and the case, in this order. -/
inductive Stage (env : Env D) (st : EntryStep D) : Store D → Prop
  | added : Stage env st (st.added env)
  | settling (reconciliations : List AccountReconciliationRow)
      (events : List (PaymentLifecycleEventRow D))
      (hreconciliations : reconciliations.Sublist (st.newReconciliations env))
      (hevents : events.Sublist (st.newEvents env)) :
      Stage env st (st.settling env reconciliations events)
  | concluded (text : String) (htext : st.exceptionText env = some text)
      (hfree : ¬ CaseTaken (caseIdFor (st.identityHash env)) st.before) :
      Stage env st (withCase st.org st.rowId (st.identityHash env) text (st.settled env))

variable {env : Env D} {st : EntryStep D}

/-- The only commit after the settling is that of a case under a free id. -/
theorem conclusion_stage : ∀ c ∈ ((st.conclusion env).run (st.settled env)).commits,
    Stage env st c := by
  intro c hc
  unfold conclusion at hc
  rcases htext : st.exceptionText env with _ | text
  · rw [htext] at hc
    cases hc
  rw [htext] at hc
  dsimp only at hc
  by_cases htaken : CaseTaken (caseIdFor (st.identityHash env)) (st.settled env)
  · by_cases hown : HasCase st.org (caseIdFor (st.identityHash env)) (st.settled env)
    · rw [ensureCase_known hown] at hc
      cases hc
    · rw [ensureCase_taken htaken hown] at hc
      cases hc
  · rw [ensureCase_free htaken] at hc
    obtain rfl := List.mem_singleton.mp hc
    exact .concluded text htext htaken

/-- Every commit of a step is one of its stages. -/
theorem exec_stages (env : Env D) (st : EntryStep D) : ∀ c ∈ (st.exec env).commits,
    Stage env st c := by
  rw [exec_added]
  intro c hc
  rcases List.mem_cons.mp hc with rfl | hc
  · exact .added
  have hsettled : ∀ c ∈ ((st.conclusion env).run (st.settled env)).commits, Stage env st c :=
    conclusion_stage
  have hstart : Stage env st (st.settling env [] []) :=
    .settling _ _ (List.nil_sublist _) (List.nil_sublist _)
  have hmiddle : Stage env st (st.settling env (st.newReconciliations env) []) :=
    .settling _ _ (List.Sublist.refl _) (List.nil_sublist _)
  have hend : Stage env st (st.settled env) :=
    .settling _ _ (List.Sublist.refl _) (List.Sublist.refl _)
  rw [followUp] at hc
  rcases he : st.existing env with _ | ⟨i, e⟩
  · rw [he] at hc
    dsimp only at hc
    rw [Session.read_bind, find_lifecycle he] at hc
    rcases hl : st.lifecycle env with _ | ⟨id, l⟩
    · simp only [settling, settled, finalRow, newReconciliations, newEvents, he, hl,
        List.append_nil] at hstart hend
      simp only [hl, reconcileAndPersist, Store.updateEntry, persistReconciliation,
        Session.commit_bind, Session.commit_apply, added, modify_added, rowId, List.mem_cons,
        List.not_mem_nil, or_false] at hc
      rcases hc with rfl | rfl
      · exact hstart
      · exact hend
    · obtain ⟨result, hresult⟩ : ∃ r, reconcileAccountEntry env.unicode st.entry
          st.report.account (lifecycleContext l) = r := ⟨_, rfl⟩
      simp only [conclusion, exceptionText, settling, settled, finalRow, newReconciliations,
        newEvents, event, he, hl, reconciledWith, hresult, List.append_nil]
        at hstart hend hmiddle hsettled
      simp only [hl, reconcileAndPersist, Store.updateEntry, persistReconciliation,
        addLifecycleEvent, Store.addEvent, hresult, Session.commit_bind, added, modify_added, rowId,
        List.mem_cons] at hc
      rcases hc with rfl | rfl | rfl | hc
      · exact hstart
      · exact hmiddle
      · exact hend
      · apply hsettled
        by_cases hx : exceptionStatuses.contains result.classification
        · simpa only [hx, if_true, rowId] using hc
        · rw [if_neg hx] at hc
          cases hc
  · rw [he] at hc
    dsimp only at hc
    simp only [conclusion, exceptionText, settling, settled, finalRow, newReconciliations,
      newEvents, event, he, List.append_nil] at hstart hend hsettled
    rw [Store.updateEntry, Session.commit_bind] at hc
    simp only [added, modify_added, rowId, List.mem_cons] at hc
    rcases hc with rfl | hc
    · exact hstart
    by_cases hr : st.repeatStatus e = .reconciled
    · rw [if_pos hr] at hc
      rcases hid : e.lifecycleId with _ | id
      · rw [hid] at hc
        cases hc
      · simp only [hid, addLifecycleEvent, Store.addEvent, Session.commit_apply,
          List.mem_singleton] at hc
        rw [hc]
        simpa [hr, hid] using hend
    · rw [if_neg hr] at hc
      apply hsettled
      simpa [hr, rowId] using hc

/-- A new reconciliation says what the entry says. -/
theorem newReconciliations_settle : ∀ r ∈ st.newReconciliations env,
    r.accountEntryId = st.before.accountEntries.length ∧ Settles r (st.finalRow env) := by
  intro r hr
  unfold newReconciliations at hr
  rcases he : st.existing env with _ | ⟨i, e⟩
  · rcases hl : st.lifecycle env with _ | ⟨id, l⟩
    · rw [he, hl] at hr
      obtain rfl := List.mem_singleton.mp hr
      refine ⟨rfl, ?_⟩
      unfold finalRow
      rw [he, hl]
      exact ⟨rfl, rfl, rfl, rfl, rfl, rfl⟩
    · rw [he, hl] at hr
      obtain rfl := List.mem_singleton.mp hr
      refine ⟨rfl, ?_⟩
      unfold finalRow
      rw [he, hl]
      exact ⟨rfl, rfl, rfl, rfl, rfl, rfl⟩
  · rw [he] at hr
    cases hr

theorem newReconciliations_length : (st.newReconciliations env).length ≤ 1 := by
  unfold newReconciliations
  split
  · exact Nat.zero_le 1
  · exact Nat.le_refl 1
  · exact Nat.le_refl 1

/-- A new event is on the lifecycle of the entry. -/
theorem newEvents_linked : ∀ ev ∈ st.newEvents env, ev.organizationId = st.org ∧
    (st.finalRow env).lifecycleId = some ev.lifecycleId := by
  intro ev hev
  unfold newEvents at hev
  unfold finalRow
  rcases he : st.existing env with _ | ⟨i, e⟩
  · rcases hl : st.lifecycle env with _ | ⟨id, l⟩
    · rw [he, hl] at hev
      cases hev
    · rw [he, hl] at hev
      obtain rfl := List.mem_singleton.mp hev
      exact ⟨rfl, rfl⟩
  · rw [he] at hev
    dsimp only at hev
    split_ifs at hev
    · obtain ⟨id, hid, rfl⟩ := List.mem_map.mp hev
      exact ⟨rfl, Option.mem_toList.mp hid⟩
    · cases hev

/-- Every stage of a step is consistent. -/
theorem Stage.consistent {ids : LifecycleIds} {c : Store D} (h : st.before.Consistent ids)
    (hc : Stage env st c) : c.Consistent ids := by
  obtain ⟨horg, hhash, -⟩ : (st.finalRow env).organizationId = st.org ∧ _ := finalRow_booking
  have hlinked : ∀ key, (st.finalRow env).lifecycleId = some key →
      st.before.owner key = some (st.finalRow env).organizationId := fun key hkey =>
    (h.linked.finalRow hkey).trans (congrArg some horg.symm)
  have hevents : ∀ ev ∈ st.newEvents env,
      st.before.owner ev.lifecycleId = some ev.organizationId := by
    intro ev hev
    obtain ⟨hown, hkey⟩ := newEvents_linked ev hev
    rw [hown]
    exact h.linked.finalRow hkey
  have hsettling : ∀ reconciliations events,
      List.Sublist reconciliations (st.newReconciliations env) →
      List.Sublist events (st.newEvents env) →
      (st.settling env reconciliations events).Consistent ids := by
    intro reconciliations events hr he
    apply h.withEntry _ _ _ hlinked
    · exact fun r hmem => newReconciliations_settle r (hr.subset hmem)
    · exact hr.length_le.trans newReconciliations_length
    · exact fun ev hmem => hevents ev (he.subset hmem)
  cases hc with
  | added =>
    have hadded := h.withEntry (st.row env) [] [] (fun key hkey => by cases hkey) (by simp)
      (by simp) (by simp)
    simp only [List.append_nil] at hadded
    exact hadded
  | settling reconciliations events hr he => exact hsettling reconciliations events hr he
  | concluded text htext hfree =>
    have hsettled : (st.settled env).Consistent ids :=
      hsettling _ _ (List.Sublist.refl _) (List.Sublist.refl _)
    have hexc : st.status env ∈ exceptionStatuses ∧ (st.status env).value = text := by
      rw [exceptionText_eq] at htext
      split_ifs at htext with hexc
      · exact ⟨hexc, Option.some.inj htext⟩
    rw [← hexc.2, ← hhash]
    apply hsettled.withCase settled_row horg finalRow_status hexc.1
    rwa [hhash]

end EntryStep

/-! ## Operations -/

namespace Store.Consistent

variable {ids : LifecycleIds} {s : Store D} {org : String}

theorem ingestAccountReport (env : Env D) (org : String) (reports : List AccountReport)
    (iso : Option ℕ) : Session.Keeps (Store.Consistent ids)
      (AccountService.ingestAccountReport env org reports iso) := by
  apply ingestAccountReport_invariant
  · exact fun s rows h => h.congr rfl rfl rfl rfl (fun _ _ h => h) fun _ hev => .inl hev
  · exact fun s rows h => h.congr rfl rfl rfl rfl (fun _ _ h => h) fun _ hev => .inl hev
  · intro report reportId entry
    refine .of_commits fun s hs c hc => ?_
    exact (EntryStep.exec_stages env ⟨org, report, reportId, entry, s⟩ c hc).consistent hs

open IsoAnalysis in
/-- An event on a lifecycle of the organization. -/
theorem withEvent (h : s.Consistent ids) (result : IsoAnalysisResult D) (isoId : ℕ)
    (messageHash : D) {id : ℕ} (howner : s.owner id = some org) (evidence : List String) :
    (withEvent org result isoId messageHash id evidence s).Consistent ids := by
  refine h.congr rfl rfl rfl rfl (fun _ _ h => h) fun ev hev => ?_
  rcases List.mem_append.mp hev with hev | hev
  · exact .inl hev
  · obtain rfl := List.mem_singleton.mp hev
    exact .inr howner

open IsoAnalysis in
theorem withStatus (h : s.Consistent ids) (result : IsoAnalysisResult D) (id : ℕ) :
    (withStatus result id s).Consistent ids :=
  h.congr rfl rfl rfl rfl (fun key _ hown => (Store.owner_withStatus result id key s).trans hown)
    fun _ hev => .inl hev

open IsoAnalysis in
theorem withLifecycle (h : s.Consistent ids) (row : PaymentLifecycleRow) :
    (withLifecycle row s).Consistent ids :=
  h.congr rfl rfl rfl rfl (fun _ _ hown => Store.owner_withLifecycle row hown)
    fun _ hev => .inl hev

/-- The transactions of a message. -/
theorem correlate (env : Env D) (org : String) {result : IsoAnalysisResult D}
    (htruthy : IsoAnalysis.isStatusReport result → Text.truthy result.normalizedStatus)
    (isoId : ℕ) (messageHash : D) (clock : Instant) : Session.Keeps (Store.Consistent ids)
      (IsoAnalysis.correlateAndBuildLifecycle env org result isoId messageHash clock) := by
  have howner : ∀ {s : Store D} {profile id row},
      IsoAnalysis.findLifecycle env org profile s = some (id, row) → s.owner id = some org := by
    intro s profile id row hfound
    obtain ⟨hrow, hlookup⟩ := IsoAnalysis.findLifecycle_some hfound
    simp only [IsoAnalysis.lookup, Bool.and_eq_true, beq_iff_eq] at hlookup
    exact Option.map_eq_some_iff.mpr ⟨row, hrow, hlookup.1⟩
  unfold IsoAnalysis.correlateAndBuildLifecycle
  split_ifs with hreport
  · refine .fold (fun c data _ => .of_commits fun s hs t ht => ?_) _
    obtain ⟨c', e, rfl, -, ⟨-, hcommits, -⟩ | ⟨id, row, evidence, hfound, hcommits, hfinal⟩⟩ :
        ∃ c' e, (IsoAnalysis.statusStep env org result isoId messageHash c data).run s = e ∧ _ :=
      IsoAnalysis.statusStep_cases env (htruthy hreport) isoId messageHash c data s
    · rw [hcommits] at ht
      cases ht
    · have hevent := hs.withEvent result isoId messageHash (howner hfound) evidence
      rw [hcommits, hfinal] at ht
      rcases List.mem_cons.mp ht with rfl | ht
      · exact hevent
      · obtain rfl := List.mem_singleton.mp ht
        exact hevent.withStatus result id
  · refine .bind (.fold (fun c data _ => .of_commits fun s hs t ht => ?_) _) fun c =>
      .bind ?_ fun _ => .pure _
    · obtain ⟨c', e, rfl, -, -, ⟨-, hcommits, hfinal⟩ | ⟨id, row, evidence, hfound, hcommits,
          hfinal⟩⟩ := IsoAnalysis.paymentStep_cases env org result isoId messageHash clock c data s
      · have hopened := hs.withLifecycle
          (IsoAnalysis.newLifecycle org (IsoAnalysis.profileFromDict data) clock)
        rw [hcommits, hfinal] at ht
        rcases List.mem_cons.mp ht with rfl | ht
        · exact hopened
        · obtain rfl := List.mem_singleton.mp ht
          apply hopened.withEvent
          rw [Store.owner, IsoAnalysis.withLifecycle,
            List.getElem?_append_right (Nat.le_refl _), Nat.sub_self]
          rfl
      · rw [hcommits, hfinal] at ht
        obtain rfl := List.mem_singleton.mp ht
        exact hs.withEvent result isoId messageHash (howner hfound) evidence
    · unfold IsoAnalysis.updateLifecycleStatus
      cases c.lifecycleId with
      | none => exact .pure _
      | some id => exact .commit fun s hs => hs.withStatus result id

theorem analyzeIsoMessage [DecidableEq D] (env : Env D) (org : String)
    (pipeline : AnalysisPipeline) (payload : List UInt8) (clock : Instant) :
    Session.Keeps (Store.Consistent ids)
      (IsoAnalysis.analyzeIsoMessage env org pipeline payload clock) := by
  apply IsoAnalysis.analyzeIsoMessage_invariant
  · exact fun s rows h => h.congr rfl rfl rfl rfl (fun _ _ h => h) fun _ hev => .inl hev
  · intro result hresult isoId messageHash
    exact correlate env org (IsoAnalysis.truthy_of_statusReport hresult) isoId messageHash clock
  · exact ingestAccountReport env org

/-- A detection opens the cases of lifecycles of the organization. -/
theorem detect (env : Env D) (org : String) (now : Instant) (windowHours : ℤ) :
    Session.Keeps (Store.Consistent ids)
      (detectMissingAccountEvents env ids org now windowHours) := by
  refine .of_commits fun s hs c hc => ?_
  rcases hcutoff : cutoffAt now windowHours with e | cutoff
  · rw [detect_error hcutoff] at hc
    cases hc
  rw [detect_run hcutoff] at hc
  have hstep : ∀ flagged, ∀ l ∈ env.lifecycleOrder.select s (acceptedBefore org cutoff),
      Session.Keeps (fun t => t.Consistent ids ∧ t.lifecycles = s.lifecycles)
        (detectLifecycle env ids org flagged l) := by
    intro flagged l hl
    refine .of_commits fun t ht c hc => ?_
    obtain ⟨hrow, haccepted⟩ := RowOrder.mem_select.mp hl
    simp only [acceptedBefore, Bool.and_eq_true, beq_iff_eq] at haccepted
    have howner : t.owner l.1 = some org := by
      rw [Store.owner, ht.2]
      exact Option.map_eq_some_iff.mpr ⟨l.2, hrow, haccepted.1.1⟩
    rcases detectLifecycle_cases env ids org flagged l t with
      ⟨-, hrun⟩ | ⟨-, ⟨-, hrun⟩ | ⟨hfree, hrun⟩ | ⟨-, -, hrun⟩⟩
    · rw [hrun] at hc
      cases hc
    · rw [hrun] at hc
      cases hc
    · rw [hrun] at hc
      obtain rfl := List.mem_singleton.mp hc
      exact ⟨ht.1.withMissingCase howner hfree, ht.2⟩
    · rw [hrun] at hc
      cases hc
  exact ((Session.Keeps.fold hstep [] s ⟨hs, rfl⟩).1 c hc).1

/-- Every commit of every operation is consistent. -/
theorem perform [DecidableEq D] (env : Env D) (op : Operation) :
    Session.Keeps (Store.Consistent ids) (AccountService.perform env ids op) := by
  cases op with
  | detect org now windowHours => exact detect env org now windowHours
  | ingest i =>
    exact (ingestAccountReport env i.org i.reports i.isoMessageId).bind fun _ => .pure _
  | message org pipeline payload clock =>
    exact (analyzeIsoMessage env org pipeline payload clock).bind fun _ => .pure _

end Store.Consistent

/-! ## The page of a lifecycle -/

/-- `get_lifecycle`: a lifecycle of the organization, and the events on it, whosever they are.
There is none where the service raises a `LookupError`. -/
def getLifecycle (env : Env D) (ids : LifecycleIds) (org lifecycleId : String) (s : Store D) :
    Option (PaymentLifecycleRow × List (PaymentLifecycleEventRow D)) :=
  let rows := env.lifecycleOrder.select s (·.organizationId == org)
  (rows.find? fun row => ids.value row.1 == lifecycleId).map fun row =>
    (row.2, (env.eventOrder.select s (·.lifecycleId == row.1)).map (·.2))

/-- Wherever the calls of a run are cut off, what the rows of the store say of each other agrees,
and the page of a lifecycle shows, of all events, those of its organization on it. -/
theorem integrity [DecidableEq D] (env : Env D) (ids : LifecycleIds)
    (calls : List (Operation × ℕ)) :
    (Session.cutRun (perform env ids) calls {}).Consistent ids ∧
      ∀ org lifecycleId row events,
        getLifecycle env ids org lifecycleId (Session.cutRun (perform env ids) calls {}) =
            some (row, events) →
          row.organizationId = org ∧
            events.Perm ((Session.cutRun (perform env ids) calls {}).lifecycleEvents.filter
              fun ev => ev.organizationId == org && ids.value ev.lifecycleId == lifecycleId) := by
  have hconsistent := Session.cutRun_of_keeps (fun op => Store.Consistent.perform env op) calls
    (Store.Consistent.empty : ({} : Store D).Consistent ids)
  refine ⟨hconsistent, fun org lifecycleId row events hpage => ?_⟩
  set s := Session.cutRun (perform env ids) calls ({} : Store D)
  obtain ⟨⟨key, row'⟩, hfind, heq⟩ := Option.map_eq_some_iff.mp hpage
  obtain ⟨rfl, rfl⟩ : row' = row ∧ _ = events := Prod.mk.inj heq
  obtain ⟨hrow, horg⟩ := RowOrder.mem_select.mp (List.mem_of_find?_eq_some hfind)
  have hid : ids.value key = lifecycleId := by simpa using List.find?_some hfind
  have howner : s.owner key = some org :=
    Option.map_eq_some_iff.mpr ⟨row', hrow, by simpa using horg⟩
  refine ⟨by simpa using horg, (RowOrder.select_perm _ _ _).trans (List.Perm.of_eq ?_)⟩
  apply List.filter_congr
  intro ev hev
  have hevent := hconsistent.events ev hev
  by_cases hkey : ev.lifecycleId = key
  · rw [hkey, howner] at hevent
    simp [hkey, hid, Option.some.inj hevent]
  · have hother : ids.value ev.lifecycleId ≠ lifecycleId := fun h =>
      hkey (ids.injective (h.trans hid.symm))
    rw [beq_false_of_ne hkey, beq_false_of_ne hother, Bool.and_false]

end PaymentOps
