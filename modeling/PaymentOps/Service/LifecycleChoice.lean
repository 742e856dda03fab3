import PaymentOps.Account.Classification
import PaymentOps.Service.ConfirmationChain

/-!
# Which lifecycle an entry is reconciled with

The lifecycle of an entry is the first row that shares any of its references, and the reconciler
sees that row only.  Another lifecycle with which the entry would be reconciled is not looked at,
and one whose references are equal only up to case and surrounding blanks is not found.

* `stored_reconciled_iff`: a new entry that some lifecycle reconciles is stored as `RECONCILED`
  in every order of the rows, exactly when the entry agrees with every row that may come first;
* `reconciling_passed_over` is a lifecycle that is passed over.
-/

namespace PaymentOps

open Reconciliation AccountService

variable {D : Type}

namespace EntryStep

section

variable (u : Unicode) (st : EntryStep D)

/-- A lifecycle of the organization with which the reconciler reconciles the entry. -/
def Reconciling (l : PaymentLifecycleRow) : Prop :=
  l.organizationId = st.org ∧
    (reconcileAccountEntry u st.entry st.report.account (lifecycleContext l)).classification =
      .reconciled

/-- The entry of the step is stored as `RECONCILED` and linked to a lifecycle that reconciles
it. -/
def StoredReconciled (t : Store D) : Prop :=
  ∃ row id l, t.accountEntries[st.rowId]? = some row ∧
    row.reconciliationStatus = some .reconciled ∧ row.lifecycleId = some id ∧
    t.lifecycles[id]? = some l ∧ st.Reconciling u l

/-- The entry agrees with a lifecycle of its organization. -/
def AgreesWith (l : PaymentLifecycleRow) : Prop :=
  l.organizationId = st.org ∧ Agrees u st.entry st.report.account (lifecycleContext l)

/-- Some lifecycle carries a reference of the entry, and the entry agrees with each that does. -/
def ChoiceAgrees : Prop :=
  (∃ l ∈ st.before.lifecycles, entryMatches st.org st.entry l) ∧
    ∀ l ∈ st.before.lifecycles, entryMatches st.org st.entry l → st.AgreesWith u l

instance (l : PaymentLifecycleRow) : Decidable (st.Reconciling u l) :=
  inferInstanceAs (Decidable (_ ∧ _))

instance (l : PaymentLifecycleRow) : Decidable (st.AgreesWith u l) :=
  inferInstanceAs (Decidable (_ ∧ _))

instance : Decidable (st.ChoiceAgrees u) :=
  inferInstanceAs (Decidable ((∃ _ ∈ _, _) ∧ ∀ _ ∈ _, _ → _))

/-- No entry of the organization has the identity of this one. -/
def IsNew (env : Env D) : Prop :=
  ∀ e ∈ st.before.accountEntries, ¬ hasIdentity st.org (st.identityHash env) e

instance (env : Env D) : Decidable (st.IsNew env) :=
  inferInstanceAs (Decidable (∀ _ ∈ _, _))

end

variable {env : Env D} {st : EntryStep D} {u : Unicode}

theorem existing_eq_none : st.existing env = none ↔ st.IsNew env := RowOrder.first_eq_none

theorem reconciling_iff {l : PaymentLifecycleRow} : st.Reconciling u l ↔ st.AgreesWith u l := by
  unfold Reconciling AgreesWith
  rw [reconciled_iff]

theorem entryMatches_org {org : String} {entry : AccountEntry} {l : PaymentLifecycleRow}
    (h : entryMatches org entry l) : l.organizationId = org := by
  simp only [entryMatches, Bool.and_eq_true, beq_iff_eq] at h
  exact h.1

/-- The lifecycle of a new entry is the first row that shares a reference. -/
theorem lifecycle_of_new (h : st.IsNew env) :
    st.lifecycle env = env.lifecycleOrder.first (st.added env) (entryMatches st.org st.entry) := by
  unfold lifecycle
  rw [existing_eq_none.mpr h]
  rfl

theorem storedReconciled_iff (h : st.IsNew env) :
    st.StoredReconciled env.unicode (st.after env) ↔
      ∃ id l, st.lifecycle env = some (id, l) ∧ st.AgreesWith env.unicode l := by
  have he := existing_eq_none.mpr h
  unfold StoredReconciled
  rw [after_row, after_lifecycles]
  rcases hl : st.lifecycle env with _ | ⟨id, l⟩
  · constructor
    · rintro ⟨row, id, l, hrow, hstatus, -⟩
      cases hrow
      rw [finalRow_unmatched he hl] at hstatus
      cases hstatus
    · rintro ⟨id, l, hnone, -⟩
      cases hnone
  · obtain ⟨hstatus, hid⟩ := finalRow_found he hl
    rw [lifecycle_of_new h] at hl
    obtain ⟨hget, hmatch⟩ := RowOrder.first_some hl
    constructor
    · rintro ⟨row, id', l', hrow, hrec, hid', hget', -⟩
      cases hrow
      refine ⟨id, l, rfl, reconciling_iff.mp ⟨entryMatches_org hmatch, ?_⟩⟩
      exact Option.some.inj (hstatus.symm.trans hrec)
    · rintro ⟨id', l', hsome, hagree⟩
      cases hsome
      refine ⟨_, id, l, rfl, ?_, hid, hget, reconciling_iff.mpr hagree⟩
      rw [hstatus]
      exact congrArg some (reconciling_iff.mpr hagree).2

/-- A new entry that some lifecycle reconciles is stored as `RECONCILED` whatever row comes first,
exactly when some lifecycle carries one of its references and it agrees with all that do. -/
theorem stored_reconciled_iff (env : Env D) (st : EntryStep D) (h : st.IsNew env) :
    ((∃ l ∈ st.before.lifecycles, st.Reconciling env.unicode l) →
      ∀ order : RowOrder (Store D) Store.lifecycles,
        st.StoredReconciled env.unicode (st.after { env with lifecycleOrder := order })) ↔
      ((∃ l ∈ st.before.lifecycles, st.AgreesWith env.unicode l) →
        st.ChoiceAgrees env.unicode) := by
  have hstored : ∀ order : RowOrder (Store D) Store.lifecycles,
      st.StoredReconciled env.unicode (st.after { env with lifecycleOrder := order }) ↔
        ∃ id l, order.first (st.added env) (entryMatches st.org st.entry) = some (id, l) ∧
          st.AgreesWith env.unicode l := by
    intro order
    have hnew : st.IsNew { env with lifecycleOrder := order } := h
    have hiff := storedReconciled_iff hnew
    rwa [lifecycle_of_new hnew] at hiff
  simp only [hstored, reconciling_iff]
  refine imp_congr_right fun _ => ⟨fun hall => ⟨?_, ?_⟩, ?_⟩
  · obtain ⟨id, l, hfirst, -⟩ := hall env.lifecycleOrder
    obtain ⟨hget, hmatch⟩ := RowOrder.first_some hfirst
    exact ⟨l, List.mem_of_getElem? hget, hmatch⟩
  · intro l hl hmatch
    obtain ⟨i, hi⟩ := List.getElem?_of_mem hl
    -- any row that matches may come first
    obtain ⟨id, l', hfirst, hagree⟩ := hall (.preferring fun _ _ => i)
    rw [RowOrder.preferring_first hi hmatch] at hfirst
    cases hfirst
    exact hagree
  · rintro ⟨⟨l, hl, hmatch⟩, hall⟩ order
    obtain ⟨i, hi⟩ := List.getElem?_of_mem hl
    obtain ⟨id, l', hfirst⟩ := RowOrder.exists_first (o := order) (s := st.added env) hi hmatch
    obtain ⟨hget, hmatch'⟩ := RowOrder.first_some hfirst
    exact ⟨id, l', hfirst, hall l' (List.mem_of_getElem? hget) hmatch'⟩

/-- An entry of the payment `T-1`, and a store that has the payment after another one with the
same end-to-end id. -/
def sampleChoice (others : List PaymentLifecycleRow) : EntryStep Digest where
  org := "org"
  report := sampleReport .statement
  reportId := 0
  entry := {
    transactionId := some "T-1", endToEndId := some "E-1", amount := some ⟨100, "EUR"⟩
    currency := some "EUR", creditDebit := some .crdt }
  before := {
    lifecycles := others ++ [{
      organizationId := "org", transactionId := some "T-1", endToEndId := some "E-1"
      amountMinor := some 100, currency := some "EUR", createdAt := 0 }] }

/-- A payment of another amount under the same end-to-end id. -/
def otherPayment : PaymentLifecycleRow where
  organizationId := "org"
  transactionId := some "T-0"
  endToEndId := some "E-1"
  amountMinor := some 200
  currency := some "EUR"
  createdAt := 0

theorem stored_reconciled_sample :
    (sampleChoice []).IsNew (.insertion .structural) ∧
      ((∃ l ∈ (sampleChoice []).before.lifecycles, (sampleChoice []).Reconciling .ascii l) →
        ∀ order : RowOrder (Store Digest) Store.lifecycles,
          (sampleChoice []).StoredReconciled .ascii
            ((sampleChoice []).after
              { Env.insertion .structural with lifecycleOrder := order })) := by
  have hnew : (sampleChoice []).IsNew (.insertion .structural) := by
    decide
  have hchoice : (sampleChoice []).ChoiceAgrees .ascii := by
    decide +kernel
  exact ⟨hnew, (stored_reconciled_iff _ _ hnew).mpr fun _ => hchoice⟩

/-- The payment `T-1` reconciles the entry, but the other payment comes first and its amount
differs. -/
theorem reconciling_passed_over :
    (sampleChoice [otherPayment]).IsNew (.insertion .structural) ∧
      ¬ ((∃ l ∈ (sampleChoice [otherPayment]).before.lifecycles,
            (sampleChoice [otherPayment]).Reconciling .ascii l) →
          ∀ order : RowOrder (Store Digest) Store.lifecycles,
            (sampleChoice [otherPayment]).StoredReconciled .ascii
              ((sampleChoice [otherPayment]).after
                { Env.insertion .structural with lifecycleOrder := order })) := by
  have hnew : (sampleChoice [otherPayment]).IsNew (.insertion .structural) := by
    decide
  refine ⟨hnew, fun h => ?_⟩
  have hex : ∃ l ∈ (sampleChoice [otherPayment]).before.lifecycles,
      (sampleChoice [otherPayment]).Reconciling .ascii l := by
    decide +kernel
  obtain ⟨id, l, hl, hagree⟩ := (storedReconciled_iff hnew).mp (h hex (.insertion _ _))
  have hfirst : (sampleChoice [otherPayment]).lifecycle (.insertion .structural) =
      some (0, otherPayment) := by
    decide +kernel
  obtain rfl : otherPayment = l := congrArg Prod.snd (Option.some.inj (hfirst.symm.trans hl))
  exact absurd hagree (by decide +kernel)

end EntryStep

end PaymentOps
