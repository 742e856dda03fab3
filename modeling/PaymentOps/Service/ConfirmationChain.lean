import PaymentOps.Service.EntryOutcome
import Mathlib.Logic.Relation

/-!
# Who says that an entry is reconciled

An entry is stored as `RECONCILED` either because the reconciler said so or because it confirms
an earlier entry of the other kind of report.  The confirmation does not look at the status of
the earlier entry, so a chain of confirmations need not start at an entry that was reconciled.

* `Justified` is what a reconciled entry should have: a chain that starts at the reconciler;
* `reconciled_justified`: in a run that only confirms reconciled entries, every reconciled entry
  is justified, in every store that the run commits;
* `unjustified_confirmation` is a run of two messages that stores an unjustified one.
-/

namespace PaymentOps

open Reconciliation AccountService Relation

variable {D : Type}

namespace EntryStep

variable (env : Env D)

/-- The reconciler returned `RECONCILED` for the entry of the step. -/
def Reconciles (st : EntryStep D) : Prop :=
  (st.reconcilerResult env).map (·.classification) = some .reconciled

instance (st : EntryStep D) : Decidable (st.Reconciles env) :=
  inferInstanceAs (Decidable (_ = _))

/-- The step `st` confirms the entry that the earlier step `st'` of the run stored. -/
def Confirms (steps : List (EntryStep D)) (st st' : EntryStep D) : Prop :=
  st' ∈ steps ∧ st.confirmed env = some st'.rowId ∧ st'.org = st.org ∧
    st'.identityHash env = st.identityHash env

/-- The entry of the step was reconciled by the reconciler, or confirms such an entry directly
or through a chain of confirmations. -/
def Justified (steps : List (EntryStep D)) (st : EntryStep D) : Prop :=
  ∃ root ∈ steps, ReflTransGen (Confirms env steps) st root ∧ root.Reconciles env

/-- The step confirms an earlier entry only if that entry is reconciled. -/
def ConfirmsReconciled (st : EntryStep D) : Prop :=
  ∀ e ∈ st.existing env, st.repeatStatus e.2 = .reconciled →
    e.2.reconciliationStatus = some .reconciled

instance (st : EntryStep D) : Decidable (st.ConfirmsReconciled env) :=
  inferInstanceAs (Decidable (∀ _ ∈ _, _ → _))

end EntryStep

/-- Every reconciled entry was stored by a step of the run that is justified. -/
def EntriesJustified (env : Env D) (steps : List (EntryStep D)) (entries : List AccountEntryRow) :
    Prop :=
  ∀ i row, entries[i]? = some row → row.reconciliationStatus = some .reconciled →
    ∃ st ∈ steps, st.rowId = i ∧ st.org = row.organizationId ∧
      st.identityHash env = row.identityHash ∧ st.Justified env steps

namespace EntryStep

variable {env : Env D} {steps : List (EntryStep D)} {st : EntryStep D}

theorem hasIdentity_iff {org h : String} {e : AccountEntryRow} :
    hasIdentity org h e ↔ e.organizationId = org ∧ e.identityHash = h := by
  simp [hasIdentity]

/-- A step that stores `RECONCILED` is justified, if what it confirms is. -/
theorem justified_of_status (hmem : st ∈ steps)
    (hI : EntriesJustified env steps st.before.accountEntries)
    (hc : st.ConfirmsReconciled env) (hst : st.status env = .reconciled) :
    st.Justified env steps := by
  rcases he : st.existing env with _ | ⟨i, e⟩
  · refine ⟨st, hmem, .refl, ?_⟩
    unfold Reconciles
    rcases hr : st.reconcilerResult env with _ | r
    · simp [status, he, hr] at hst
    · simp only [status, he, hr, Option.map_some, Option.getD_some] at hst
      rw [Option.map_some, hst]
  · have hrep : st.repeatStatus e = .reconciled := by
      simpa [status, he] using hst
    have hrec : e.reconciliationStatus = some .reconciled := hc (i, e) he hrep
    obtain ⟨hrow, hid⟩ := RowOrder.first_some he
    obtain ⟨horg, hhash⟩ := hasIdentity_iff.mp hid
    obtain ⟨st', hmem', hi, horg', hhash', root, hroot, hchain, hrr⟩ := hI i e hrow hrec
    have hconf : Confirms env steps st st' := by
      refine ⟨hmem', ?_, horg'.trans horg, hhash'.trans hhash⟩
      simp [confirmed, he, hrep, hi]
    exact ⟨root, hroot, .head hconf hchain, hrr⟩

/-- The step lemma: one entry step keeps the entries justified. -/
theorem entriesJustified_step (hmem : st ∈ steps) (hc : st.ConfirmsReconciled env)
    (hI : EntriesJustified env steps st.before.accountEntries) {rows : List AccountEntryRow}
    (hrows : st.Committed env rows) : EntriesJustified env steps rows := by
  obtain ⟨row, rfl, horg, hhash, hstatus⟩ := hrows
  intro i r hr hrec
  by_cases hi : i < st.before.accountEntries.length
  · rw [List.getElem?_append_left hi] at hr
    exact hI i r hr hrec
  · rw [List.getElem?_append_right (by omega), List.getElem?_singleton] at hr
    split_ifs at hr with hlen
    cases hr
    have hst : st.status env = .reconciled := by
      rcases hstatus with h | h
      · rw [h] at hrec
        cases hrec
      · rw [h] at hrec
        exact Option.some.inj hrec
    exact ⟨st, hmem, by rw [rowId]; omega, horg.symm, hhash.symm,
      justified_of_status hmem hI hc hst⟩

end EntryStep

/-- In a run of ingestions that only confirms reconciled entries, every entry stored as
`RECONCILED` traces back to an entry that the reconciler reconciled. -/
theorem reconciled_justified (env : Env D) (run : List Ingestion) (s : Store D)
    (hs : s.accountEntries = [])
    (hc : ∀ st ∈ runSteps env run s, st.ConfirmsReconciled env) :
    ∀ t ∈ runStores env run s, EntriesJustified env (runSteps env run s) t.accountEntries := by
  have h0 : EntriesJustified env (runSteps env run s) s.accountEntries := by
    intro i row hrow
    rw [hs] at hrow
    simp at hrow
  exact run_keeps h0 fun st hst hI rows hrows =>
    EntryStep.entriesJustified_step hst (hc st hst) hI hrows

/-! ## Two runs -/

/-- A report with one entry, which refers to the payment `E-1`. -/
def sampleReport (type : AccountReportType) : AccountReport where
  messageFamily := "camt"
  namespace_ := ""
  reportType := type
  entries := [{
    endToEndId := some "E-1", amount := some ⟨100, "EUR"⟩, currency := some "EUR"
    creditDebit := some .crdt }]

/-- The notification of an entry, then the statement that contains it. -/
def sampleIngestions : List Ingestion :=
  [⟨"org", [sampleReport .notification], none⟩, ⟨"org", [sampleReport .statement], none⟩]

/-- A store that knows the payment `E-1`. -/
def sampleLifecycles : Store Digest where
  lifecycles := [{
    organizationId := "org", endToEndId := some "E-1", amountMinor := some 100
    currency := some "EUR", createdAt := 0 }]

theorem reconciled_justified_sample :
    (∀ st ∈ runSteps (.insertion .structural) sampleIngestions sampleLifecycles,
      st.ConfirmsReconciled (.insertion .structural)) ∧
    ∀ t ∈ runStores (.insertion .structural) sampleIngestions sampleLifecycles,
      EntriesJustified (.insertion .structural)
        (runSteps (.insertion .structural) sampleIngestions sampleLifecycles)
        t.accountEntries := by
  have hc : ∀ st ∈ runSteps (.insertion .structural) sampleIngestions sampleLifecycles,
      st.ConfirmsReconciled (.insertion .structural) := by
    decide +kernel
  exact ⟨hc, reconciled_justified _ _ _ rfl hc⟩

/-- Without the payment, the notification is unmatched; the statement is stored as `RECONCILED`
all the same, although the reconciler never said so. -/
theorem unjustified_confirmation :
    ∃ t ∈ runStores (.insertion .structural) sampleIngestions {},
      ¬ EntriesJustified (.insertion .structural)
        (runSteps (.insertion .structural) sampleIngestions {}) t.accountEntries := by
  have hnone : ∀ st ∈ runSteps (.insertion .structural) sampleIngestions {},
      ¬ st.Reconciles (.insertion .structural) := by
    decide +kernel
  have hrow : ∃ t ∈ runStores (.insertion .structural) sampleIngestions {},
      (t.accountEntries[1]?.bind (·.reconciliationStatus)) = some .reconciled := by
    decide +kernel
  obtain ⟨t, ht, hrow⟩ := hrow
  refine ⟨t, ht, fun h => ?_⟩
  obtain ⟨row, hget, hrec⟩ := Option.bind_eq_some_iff.mp hrow
  obtain ⟨st, -, -, -, -, root, hroot, -, hr⟩ := h 1 row hget hrec
  exact hnone root hroot hr

end PaymentOps
