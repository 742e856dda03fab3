import PaymentOps.Service.LiveEntries

/-!
# The cases of account exceptions

An exception should have a case for its classification and for the identity of its entry.  The id
of a case is made of sixteen characters of the identity; the classification has no part in it, and
no two organizations can have the same one.

* `Store.ExceptionsCovered`: every exception has its case, and only one;
* `exceptionsCovered_iff`: it holds wherever a step of a run or a call of it ends, exactly when
  each exception finds its case id unused or under a case of its own;
* `duplicate_without_case` is a run that leaves an exception without a case.
-/

namespace PaymentOps

open AccountService

variable {D : Type}

/-- The case was opened for the classification of an entry with the identity. -/
def RecordedFor (s : Store D) (org identityHash text : String) (c : PaymentCase) : Prop :=
  c.organizationId = org ∧ c.messageType = text ∧
    ∃ a ∈ s.auditEvents, a.caseId = c.caseId ∧ a.classification = text ∧
      ∃ e ∈ s.accountEntries[a.entryId]?, e.organizationId = org ∧ e.identityHash = identityHash

instance (s : Store D) (org identityHash text : String) (c : PaymentCase) :
    Decidable (RecordedFor s org identityHash text c) :=
  inferInstanceAs (Decidable (_ ∧ _ ∧ ∃ _ ∈ _, _ ∧ _ ∧ ∃ _ ∈ _, _))

/-- Every exception has a case of its organization for its classification and its identity, and no
second one. -/
structure Store.ExceptionsCovered (s : Store D) : Prop where
  covered : ∀ row ∈ s.accountEntries, ∀ status ∈ row.reconciliationStatus,
    status ∈ exceptionStatuses → ∃ c ∈ s.cases,
      RecordedFor s row.organizationId row.identityHash status.value c
  once : s.cases.Pairwise fun c c' => ∀ org identityHash text,
    RecordedFor s org identityHash text c → ¬ RecordedFor s org identityHash text c'

/-- An audit event names its entry, whose identity its case id comes from, and no two cases of
accounts have the same id. -/
structure Store.CasesTracked (s : Store D) : Prop where
  audits : ∀ a ∈ s.auditEvents, ∃ e ∈ s.accountEntries[a.entryId]?,
    a.caseId = caseIdFor e.identityHash
  ids : s.cases.Pairwise fun c c' =>
    c.caseId = c'.caseId → ∀ identityHash, c.caseId ≠ caseIdFor identityHash

theorem RecordedFor.mono {s t : Store D} {org identityHash text : String} {c : PaymentCase}
    (h : RecordedFor s org identityHash text c) (haudits : s.auditEvents ⊆ t.auditEvents)
    {rows : List AccountEntryRow} (hentries : t.accountEntries = s.accountEntries ++ rows) :
    RecordedFor t org identityHash text c := by
  obtain ⟨horg, htext, a, ha, hcase, hclass, e, he, hid⟩ := h
  refine ⟨horg, htext, a, haudits ha, hcase, hclass, e, ?_, hid⟩
  rw [hentries, List.getElem?_append_left (List.getElem?_eq_some_iff.mp he).1]
  exact he

namespace Store.CasesTracked

variable {s : Store D}

/-- A case that was recorded for an identity has its case id. -/
theorem caseId_of_recorded (h : s.CasesTracked) {org identityHash text : String} {c : PaymentCase}
    (hc : RecordedFor s org identityHash text c) : c.caseId = caseIdFor identityHash := by
  obtain ⟨-, -, a, ha, hcase, -, e, he, -, hid⟩ := hc
  obtain ⟨e', he', hcase'⟩ := h.audits a ha
  rw [← hcase, hcase', Option.mem_unique he' he, hid]

/-- New entries do not make a case that of another identity. -/
theorem recorded_of_append (h : s.CasesTracked) {t : Store D}
    {org identityHash text : String} {c : PaymentCase}
    (hc : RecordedFor t org identityHash text c) (haudits : t.auditEvents = s.auditEvents)
    {rows : List AccountEntryRow} (hentries : t.accountEntries = s.accountEntries ++ rows) :
    RecordedFor s org identityHash text c := by
  obtain ⟨horg, htext, a, ha, hcase, hclass, e, he, hid⟩ := hc
  rw [haudits] at ha
  obtain ⟨e', he', -⟩ := h.audits a ha
  rw [hentries, List.getElem?_append_left (List.getElem?_eq_some_iff.mp he').1] at he
  exact ⟨horg, htext, a, ha, hcase, hclass, e, he, hid⟩

theorem once (h : s.CasesTracked) : s.cases.Pairwise fun c c' => ∀ org identityHash text,
    RecordedFor s org identityHash text c → ¬ RecordedFor s org identityHash text c' := by
  refine h.ids.imp fun hids org identityHash text hc hc' => ?_
  have hid := h.caseId_of_recorded hc
  exact hids (hid.trans (h.caseId_of_recorded hc').symm) identityHash hid

end Store.CasesTracked

/-! ## One step -/

namespace EntryStep

variable {env : Env D} {st : EntryStep D}

/-- An exception finds its case id unused, or a case of its own under it. -/
def CaseFits (env : Env D) (st : EntryStep D) : Prop :=
  st.status env ∈ exceptionStatuses →
    ¬ CaseTaken (caseIdFor (st.identityHash env)) st.before ∨
      ∃ c ∈ st.before.cases,
        RecordedFor st.before st.org (st.identityHash env) (st.status env).value c

instance : Decidable (st.CaseFits env) := inferInstanceAs (Decidable (_ → _ ∨ ∃ _ ∈ _, _))

theorem after_grows : st.before.cases ⊆ (st.after env).cases ∧
    st.before.auditEvents ⊆ (st.after env).auditEvents := by
  rcases after_cases env st with ⟨-, h⟩ | ⟨text, -, ⟨-, h⟩ | ⟨-, h⟩⟩
  · rw [h]
    exact ⟨List.Subset.refl _, List.Subset.refl _⟩
  · rw [h]
    exact ⟨List.Subset.refl _, List.Subset.refl _⟩
  · rw [h]
    exact ⟨List.subset_append_left _ _, List.subset_append_left _ _⟩

theorem audits_settled (h : st.before.CasesTracked) :
    ∀ a ∈ (st.settled env).auditEvents, ∃ e ∈ (st.settled env).accountEntries[a.entryId]?,
      a.caseId = caseIdFor e.identityHash := by
  intro a ha
  obtain ⟨e, he, hcase⟩ := h.audits a ha
  refine ⟨e, ?_, hcase⟩
  rw [settled, List.getElem?_append_left (List.getElem?_eq_some_iff.mp he).1]
  exact he

theorem settled_row : (st.settled env).accountEntries[st.rowId]? = some (st.finalRow env) := by
  rw [settled, rowId, List.getElem?_append_right (Nat.le_refl _), Nat.sub_self]
  rfl

theorem tracked_after (h : st.before.CasesTracked) : (st.after env).CasesTracked := by
  have hsettled : (st.settled env).CasesTracked := ⟨audits_settled h, h.ids⟩
  rcases after_cases env st with ⟨-, heq⟩ | ⟨text, -, ⟨-, heq⟩ | ⟨hfree, heq⟩⟩
  · rwa [heq]
  · rwa [heq]
  rw [heq]
  constructor
  · intro a ha
    rcases List.mem_append.mp ha with ha | ha
    · exact audits_settled h a ha
    · obtain rfl := List.mem_singleton.mp ha
      refine ⟨st.finalRow env, settled_row, ?_⟩
      rw [finalRow_booking.2.1]
  · refine List.pairwise_append.mpr ⟨h.ids, List.pairwise_singleton _ _, ?_⟩
    intro c hc c' hc' hid
    obtain rfl := List.mem_singleton.mp hc'
    exact absurd ⟨c, hc, hid⟩ hfree

/-- An exception whose case id is unused opens its case. -/
theorem recorded_of_free (hexc : st.status env ∈ exceptionStatuses)
    (hfree : ¬ CaseTaken (caseIdFor (st.identityHash env)) st.before) :
    ∃ c ∈ (st.after env).cases,
      RecordedFor (st.after env) st.org (st.identityHash env) (st.status env).value c := by
  have htext : st.exceptionText env = some (st.status env).value := by
    rw [exceptionText_eq, if_pos hexc]
  rcases after_cases env st with ⟨hnone, -⟩ | ⟨text, hsome, ⟨htaken, -⟩ | ⟨-, heq⟩⟩
  · rw [htext] at hnone
    cases hnone
  · exact absurd htaken hfree
  · obtain rfl : (st.status env).value = text := Option.some.inj (htext.symm.trans hsome)
    obtain ⟨horg, hhash, -⟩ : (st.finalRow env).organizationId = st.org ∧ _ := finalRow_booking
    rw [heq]
    exact ⟨_, List.mem_append_right _ List.mem_cons_self, rfl, rfl, _,
      List.mem_append_right _ List.mem_cons_self, rfl, rfl, st.finalRow env, settled_row, horg,
      hhash⟩

/-- The exceptions stay covered exactly when that of the step has its case. -/
theorem covered_after_iff (htracked : st.before.CasesTracked)
    (hcovered : st.before.ExceptionsCovered) :
    (st.after env).ExceptionsCovered ↔ st.CaseFits env := by
  obtain ⟨horg, hhash, -⟩ : (st.finalRow env).organizationId = st.org ∧ _ := finalRow_booking
  obtain ⟨hcases, haudits⟩ : st.before.cases ⊆ (st.after env).cases ∧ _ := after_grows
  constructor
  · intro h hexc
    by_contra hno
    rw [not_or, not_not] at hno
    obtain ⟨c, hc, hrec⟩ := h.covered (st.finalRow env)
      (by rw [after_entries]; simp) _ finalRow_status hexc
    have heq : st.after env = st.settled env := by
      rcases after_cases env st with ⟨-, heq⟩ | ⟨text, -, ⟨-, heq⟩ | ⟨hfree, -⟩⟩
      · exact heq
      · exact heq
      · exact absurd hno.1 hfree
    rw [heq, horg, hhash] at hrec
    rw [heq] at hc
    exact hno.2 ⟨c, hc, htracked.recorded_of_append hrec rfl rfl⟩
  · intro hfits
    refine ⟨fun row hrow status hstatus hexc => ?_, (tracked_after htracked).once⟩
    rw [after_entries] at hrow
    rcases List.mem_append.mp hrow with hrow | hrow
    · obtain ⟨c, hc, hrec⟩ := hcovered.covered row hrow status hstatus hexc
      exact ⟨c, hcases hc, hrec.mono haudits after_entries⟩
    · obtain rfl := List.mem_singleton.mp hrow
      obtain rfl : st.status env = status :=
        Option.some.inj (finalRow_status.symm.trans hstatus)
      rw [horg, hhash]
      rcases hfits hexc with hfree | ⟨c, hc, hrec⟩
      · exact recorded_of_free hexc hfree
      · exact ⟨c, hcases hc, hrec.mono haudits after_entries⟩

end EntryStep

/-! ## Runs -/

/-- The store has no account exceptions, no account cases and no audit events of such cases. -/
structure Store.WithoutAccountCases (s : Store D) : Prop where
  entries : ∀ row ∈ s.accountEntries, ∀ status ∈ row.reconciliationStatus,
    status ∉ exceptionStatuses
  cases : ∀ c ∈ s.cases, ∀ identityHash, c.caseId ≠ caseIdFor identityHash
  audits : s.auditEvents = []

namespace Store.WithoutAccountCases

variable {s : Store D}

theorem tracked (h : s.WithoutAccountCases) : s.CasesTracked := by
  constructor
  · simp [h.audits]
  · exact List.Pairwise.imp_of_mem (fun hc _ _ _ => h.cases _ hc)
      (List.pairwise_of_forall fun _ _ => trivial)

theorem covered (h : s.WithoutAccountCases) : s.ExceptionsCovered :=
  ⟨fun row hrow status hstatus hexc => absurd hexc (h.entries row hrow status hstatus),
    h.tracked.once⟩

end Store.WithoutAccountCases

/-- What opening a report does not touch. -/
theorem openReport_tables (org : String) (iso : Option ℕ) (report : AccountReport) (s : Store D) :
    let t := ((openReport org iso report).run s).final s
    t.accountEntries = s.accountEntries ∧ t.cases = s.cases ∧ t.auditEvents = s.auditEvents :=
  ⟨(openReport_entries org iso report).final s,
    (openReport_leaves (g := Store.cases) (fun _ _ => rfl) (fun _ _ => rfl) org iso report).final s,
    (openReport_leaves (g := Store.auditEvents) (fun _ _ => rfl) (fun _ _ => rfl) org iso
      report).final s⟩

theorem Store.CasesTracked.congr {s t : Store D} (h : s.CasesTracked)
    (heq : t.accountEntries = s.accountEntries ∧ t.cases = s.cases ∧
      t.auditEvents = s.auditEvents) : t.CasesTracked := by
  obtain ⟨hentries, hcases, haudits⟩ := heq
  constructor
  · rw [hentries, haudits]
    exact h.audits
  · rw [hcases]
    exact h.ids

theorem Store.ExceptionsCovered.congr {s t : Store D} (h : s.ExceptionsCovered)
    (heq : t.accountEntries = s.accountEntries ∧ t.cases = s.cases ∧
      t.auditEvents = s.auditEvents) : t.ExceptionsCovered := by
  obtain ⟨hentries, hcases, haudits⟩ := heq
  have hrec : ∀ org identityHash text c,
      RecordedFor t org identityHash text c ↔ RecordedFor s org identityHash text c := by
    intro org identityHash text c
    unfold RecordedFor
    rw [hentries, haudits]
  constructor
  · simp only [hrec, hentries, hcases]
    exact h.covered
  · simp only [hrec, hcases]
    exact h.once

/-- Every exception has its case, and only one, wherever a step of a run ends and wherever a call
of it ends, exactly when each exception finds its case id unused or under a case of its own. -/
theorem exceptionsCovered_iff (env : Env D) (run : List Ingestion) (s : Store D)
    (hs : s.WithoutAccountCases) :
    ((∀ st ∈ runSteps env run s, (st.after env).ExceptionsCovered) ∧
        ∀ c ∈ Session.calls (ingest env) run s,
          (((ingest env c.1).run c.2).final c.2).ExceptionsCovered) ↔
      ∀ st ∈ runSteps env run s, st.CaseFits env := by
  have hopen : ∀ org iso report (t : Store D), t.CasesTracked ∧ t.ExceptionsCovered →
      (((openReport org iso report).run t).final t).CasesTracked ∧
        (((openReport org iso report).run t).final t).ExceptionsCovered := by
    rintro org iso report t ⟨htracked, hcovered⟩
    have htables := openReport_tables org iso report t
    exact ⟨htracked.congr htables, hcovered.congr htables⟩
  constructor
  · rintro ⟨h, -⟩
    have hstarts := (run_starts ⟨hs.tracked, hs.covered⟩ hopen fun st hst hI =>
      ⟨EntryStep.tracked_after hI.1, h st hst⟩).1
    intro st hst
    obtain ⟨htracked, hcovered⟩ := hstarts st hst
    exact (EntryStep.covered_after_iff htracked hcovered).mp (h st hst)
  · intro h
    have hstep : ∀ st ∈ runSteps env run s, st.before.CasesTracked ∧ st.before.ExceptionsCovered →
        (st.after env).CasesTracked ∧ (st.after env).ExceptionsCovered :=
      fun st hst hI =>
        ⟨EntryStep.tracked_after hI.1, (EntryStep.covered_after_iff hI.1 hI.2).mpr (h st hst)⟩
    obtain ⟨hstarts, hcalls⟩ := run_starts ⟨hs.tracked, hs.covered⟩ hopen hstep
    exact ⟨fun st hst => (hstep st hst (hstarts st hst)).2, fun c hc => (hcalls c hc).2⟩

/-! ## An exception of an exception -/

/-- A store that knows the payment `E-1` with another amount. -/
def mismatchStore : Store Digest where
  lifecycles := [{
    organizationId := "org", endToEndId := some "E-1", amountMinor := some 200
    currency := some "EUR", createdAt := 0 }]

theorem mismatchStore_fresh : mismatchStore.WithoutAccountCases :=
  ⟨by simp [mismatchStore], by simp [mismatchStore], rfl⟩

theorem exceptionsCovered_sample :
    (∀ st ∈ runSteps (.insertion .structural) [sampleIngestion .statement] mismatchStore,
      (st.after (.insertion .structural)).ExceptionsCovered) ∧
    ∀ c ∈ Session.calls (ingest (.insertion .structural)) [sampleIngestion .statement]
        mismatchStore,
      (((ingest (.insertion .structural) c.1).run c.2).final c.2).ExceptionsCovered :=
  (exceptionsCovered_iff (.insertion .structural) [sampleIngestion .statement] mismatchStore
    mismatchStore_fresh).mpr (by decide +kernel)

/-- The entry has another amount than its payment; repeated, it is a duplicate, and this exception
finds the case of the first one. -/
theorem duplicate_without_case :
    ∃ c ∈ Session.calls (ingest (.insertion .structural))
        [sampleIngestion .statement, sampleIngestion .statement] mismatchStore,
      ¬ (((ingest (.insertion .structural) c.1).run c.2).final c.2).ExceptionsCovered := by
  have hmissing : ∃ c ∈ Session.calls (ingest (.insertion .structural))
        [sampleIngestion .statement, sampleIngestion .statement] mismatchStore,
      let t := ((ingest (.insertion .structural) c.1).run c.2).final c.2
      ∃ row ∈ t.accountEntries, ∃ status ∈ row.reconciliationStatus,
        status ∈ exceptionStatuses ∧ ∀ c' ∈ t.cases,
          ¬ RecordedFor t row.organizationId row.identityHash status.value c' := by
    decide +kernel
  obtain ⟨c, hc, row, hrow, status, hstatus, hexc, hnone⟩ := hmissing
  refine ⟨c, hc, fun h => ?_⟩
  obtain ⟨c', hc', hrec⟩ := h.covered row hrow status hstatus hexc
  exact hnone c' hc' hrec

end PaymentOps
