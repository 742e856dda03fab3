import PaymentOps.Account.Reconciliation

/-!
# What the reconciler compares

The classification of an entry against a lifecycle, in terms of the fields of both.  Each conflict
of `reconcileAccountEntry` is one relation between them: `CurrencyDiffers`, `AmountDiffers`,
`AccountWrong`, `DirectionWrong`, `ReferenceDiffers`.

* `classification_eq`: the classification as a choice between these relations;
* `reconciled_iff`: an entry is reconciled exactly when it `Agrees` with the lifecycle.
-/

namespace PaymentOps.Reconciliation

open Text

section

variable (u : Unicode)

/-- A reference as the comparison sees it, stripped and in capitals. -/
def normalizedRef (a : Option String) : Option String := a.map fun s => u.upper (strip s)

/-- Both references are present and differ. -/
def RefDiffers (a b : Option String) : Prop :=
  truthy a ∧ truthy b ∧ normalizedRef u a ≠ normalizedRef u b

/-- Both references are present and equal. -/
def RefShared (a b : Option String) : Prop :=
  truthy a ∧ truthy b ∧ normalizedRef u a = normalizedRef u b

instance (a b : Option String) : Decidable (RefDiffers u a b) :=
  inferInstanceAs (Decidable (_ ∧ _ ∧ _))

instance (a b : Option String) : Decidable (RefShared u a b) :=
  inferInstanceAs (Decidable (_ ∧ _ ∧ _))

variable (entry : AccountEntry) (account : Option AccountReference)
  (lifecycle : LifecycleAccountContext)

/-- The currency of an entry, or else that of its amount. -/
def entryCurrency : Option String := or entry.currency (entry.amount.map (·.currency))

/-- The account of an entry, by its IBAN or else by its other id. -/
def entryAccount : Option String :=
  or (account.bind (·.iban)) (account.bind (·.otherIdentification))

/-- Some reference is present on both sides and differs. -/
def ReferenceDiffers : Prop :=
  RefDiffers u entry.uetr lifecycle.uetr ∨
    RefDiffers u entry.transactionId lifecycle.transactionId ∨
    RefDiffers u entry.endToEndId lifecycle.endToEndId ∨
    RefDiffers u entry.instructionId lifecycle.instructionId ∨
    RefDiffers u entry.accountServicerReference lifecycle.accountServicerReference

/-- The entry and the lifecycle have a strong reference in common. -/
def SharesReference : Prop :=
  RefShared u entry.uetr lifecycle.uetr ∨
    RefShared u entry.transactionId lifecycle.transactionId ∨
    RefShared u entry.endToEndId lifecycle.endToEndId ∨
    RefShared u entry.instructionId lifecycle.instructionId

/-- The amounts are present and differ. -/
def AmountDiffers : Prop :=
  ∃ a ∈ entry.amount.map (·.amountMinor), ∃ b ∈ lifecycle.amountMinor, a ≠ b

/-- The amounts are present and equal. -/
def AmountAgrees : Prop :=
  ∃ a ∈ entry.amount.map (·.amountMinor), lifecycle.amountMinor = some a

/-- The currencies are present and differ. -/
def CurrencyDiffers : Prop :=
  truthy (entryCurrency entry) ∧ truthy lifecycle.currency ∧
    (entryCurrency entry).map u.upper ≠ lifecycle.currency.map u.upper

/-- The currencies are present and equal. -/
def CurrencyAgrees : Prop :=
  truthy (entryCurrency entry) ∧ truthy lifecycle.currency ∧
    (entryCurrency entry).map u.upper = lifecycle.currency.map u.upper

/-- The account of the entry is neither that of the debtor nor that of the creditor. -/
def AccountWrong : Prop :=
  truthy (entryAccount account) ∧ truthy lifecycle.creditorAccount ∧
    truthy lifecycle.debtorAccount ∧
    ¬ sameAccount u (entryAccount account) lifecycle.creditorAccount ∧
    ¬ sameAccount u (entryAccount account) lifecycle.debtorAccount

/-- The entry is a debit on the account of the creditor, or a credit on that of the debtor. -/
def DirectionWrong : Prop :=
  ∃ expected ∈ expectedDirection u (entryAccount account) lifecycle,
    ∃ actual ∈ entry.creditDebit, actual ≠ expected

instance : Decidable (ReferenceDiffers u entry lifecycle) :=
  inferInstanceAs (Decidable (_ ∨ _ ∨ _ ∨ _ ∨ _))

instance : Decidable (SharesReference u entry lifecycle) :=
  inferInstanceAs (Decidable (_ ∨ _ ∨ _ ∨ _))

instance : Decidable (AmountDiffers entry lifecycle) :=
  inferInstanceAs (Decidable (∃ _ ∈ _, ∃ _ ∈ _, _))

instance : Decidable (AmountAgrees entry lifecycle) :=
  inferInstanceAs (Decidable (∃ _ ∈ _, _))

instance : Decidable (CurrencyDiffers u entry lifecycle) :=
  inferInstanceAs (Decidable (_ ∧ _ ∧ _))

instance : Decidable (CurrencyAgrees u entry lifecycle) :=
  inferInstanceAs (Decidable (_ ∧ _ ∧ _))

instance : Decidable (AccountWrong u account lifecycle) :=
  inferInstanceAs (Decidable (_ ∧ _ ∧ _ ∧ _ ∧ _))

instance : Decidable (DirectionWrong u entry account lifecycle) :=
  inferInstanceAs (Decidable (∃ _ ∈ _, ∃ _ ∈ _, _))

/-- The classification of an entry without conflicts. -/
def evidenceClass : AccountReconciliationStatus :=
  if SharesReference u entry lifecycle ∧ AmountAgrees entry lifecycle ∧
      CurrencyAgrees u entry lifecycle then .reconciled
  else if SharesReference u entry lifecycle ∨
      AmountAgrees entry lifecycle ∧ CurrencyAgrees u entry lifecycle then .possibleReconciliation
  else .unmatchedAccountEntry

/-- The entry is that of the payment: a strong reference, the amount and the currency are the
same, and nothing speaks against it. -/
structure Agrees : Prop where
  reference : SharesReference u entry lifecycle
  amount : AmountAgrees entry lifecycle
  currency : CurrencyAgrees u entry lifecycle
  sameReferences : ¬ ReferenceDiffers u entry lifecycle
  rightAccount : ¬ AccountWrong u account lifecycle
  rightDirection : ¬ DirectionWrong u entry account lifecycle

end

/-! ## One comparison -/

variable {u : Unicode} {entry : AccountEntry} {account : Option AccountReference}
  {lifecycle : LifecycleAccountContext}

theorem mem_compareRef_conflicts {a b : Option String} {code : Evidence} {c : Conflict} :
    c ∈ (compareRef u a b code).2 ↔ c = .id ∧ RefDiffers u a b := by
  unfold compareRef RefDiffers normalizedRef
  split_ifs with h heq
  · simp [heq]
  · simp [h, heq]
  · simp only [List.not_mem_nil, false_iff]
    exact fun hd => h ⟨hd.2.1, hd.2.2.1⟩

theorem mem_compareRef_evidence {a b : Option String} {code e : Evidence} :
    e ∈ (compareRef u a b code).1 ↔ e = code ∧ RefShared u a b := by
  unfold compareRef RefShared normalizedRef
  split_ifs with h heq
  · simp [h, heq]
  · simp [heq]
  · simp only [List.not_mem_nil, false_iff]
    exact fun hd => h ⟨hd.2.1, hd.2.2.1⟩

theorem mem_compareAmount_conflicts {a b : Option ℤ} {c : Conflict} :
    c ∈ (compareAmount a b).2 ↔ c = .amount ∧ ∃ x ∈ a, ∃ y ∈ b, x ≠ y := by
  cases a <;> cases b <;> simp [compareAmount]
  split_ifs with h <;> simp [h]

theorem mem_compareAmount_evidence {a b : Option ℤ} {e : Evidence} :
    e ∈ (compareAmount a b).1 ↔ e = .amountExact ∧ ∃ x ∈ a, b = some x := by
  cases a <;> cases b <;> simp [compareAmount]
  split_ifs with h <;> simp [h, eq_comm]

theorem mem_compareCurrency_conflicts {a b : Option String} {c : Conflict} :
    c ∈ (compareCurrency u a b).2 ↔
      c = .currency ∧ truthy a ∧ truthy b ∧ a.map u.upper ≠ b.map u.upper := by
  unfold compareCurrency
  split_ifs with h heq
  · simp [heq]
  · simp [h, heq]
  · simp only [List.not_mem_nil, false_iff]
    exact fun hd => h ⟨hd.2.1, hd.2.2.1⟩

theorem mem_compareCurrency_evidence {a b : Option String} {e : Evidence} :
    e ∈ (compareCurrency u a b).1 ↔
      e = .currencyExact ∧ truthy a ∧ truthy b ∧ a.map u.upper = b.map u.upper := by
  unfold compareCurrency
  split_ifs with h heq
  · simp [h, heq]
  · simp [heq]
  · simp only [List.not_mem_nil, false_iff]
    exact fun hd => h ⟨hd.2.1, hd.2.2.1⟩

theorem sameAccount_expected {ea : Option String} {l : LifecycleAccountContext}
    {e : CreditDebitIndicator} (h : expectedDirection u ea l = some e) :
    sameAccount u ea l.creditorAccount ∨ sameAccount u ea l.debtorAccount := by
  unfold expectedDirection at h
  split_ifs at h with hc hd
  · exact .inl hc
  · exact .inr hd

theorem mem_compareAccount_conflicts {c : Conflict} :
    c ∈ (compareAccount u (entryAccount account) entry.creditDebit lifecycle).2 ↔
      (c = .account ∧ AccountWrong u account lifecycle) ∨
        (c = .creditDebit ∧ DirectionWrong u entry account lifecycle) := by
  rcases he : expectedDirection u (entryAccount account) lifecycle with _ | expected
  · have hdir : ¬ DirectionWrong u entry account lifecycle := by
      simp [DirectionWrong, he]
    simp only [compareAccount, he, hdir, and_false, or_false]
    unfold AccountWrong
    by_cases hacc : AccountWrong u account lifecycle
    · unfold AccountWrong at hacc
      rw [if_pos hacc]
      rw [List.mem_singleton]
      exact ⟨fun hc => ⟨hc, hacc⟩, fun hc => hc.1⟩
    · unfold AccountWrong at hacc
      rw [if_neg hacc]
      simp only [hacc, List.not_mem_nil, and_false]
  · have hacc : ¬ AccountWrong u account lifecycle := fun hw =>
      (sameAccount_expected he).elim hw.2.2.2.1 hw.2.2.2.2
    rcases ha : entry.creditDebit with _ | actual
    · have hdir : ¬ DirectionWrong u entry account lifecycle := by
        simp [DirectionWrong, ha]
      simp only [compareAccount, he, hdir, hacc, and_false, or_false, iff_false]
      unfold AccountWrong at hacc
      rw [if_neg hacc]
      exact List.not_mem_nil
    · simp only [compareAccount, he, hacc, and_false, false_or, DirectionWrong, ha,
        Option.mem_some_iff, exists_eq_left']
      split_ifs with h <;> simp [h]

theorem mem_compareAccount_evidence {ea : Option String} {dir : Option CreditDebitIndicator}
    {e : Evidence} (h : e ∈ (compareAccount u ea dir lifecycle).1) :
    e = .accountExact ∨ e = .creditDebitExpected := by
  unfold compareAccount at h
  grind

theorem mem_compareReference {a b : Option String} {e : Evidence}
    (h : e ∈ compareReference u a b) : e = .referenceNormalizedExact := by
  unfold compareReference at h
  split_ifs at h
  · exact List.mem_singleton.mp h
  · cases h

/-! ## All comparisons -/

theorem mem_conflicts {c : Conflict} :
    c ∈ (reconcileAccountEntry u entry account lifecycle).conflicts ↔
      (c = .id ∧ ReferenceDiffers u entry lifecycle) ∨
        (c = .amount ∧ AmountDiffers entry lifecycle) ∨
        (c = .currency ∧ CurrencyDiffers u entry lifecycle) ∨
        (c = .account ∧ AccountWrong u account lifecycle) ∨
        (c = .creditDebit ∧ DirectionWrong u entry account lifecycle) := by
  have hacc : c ∈ (compareAccount u (or (account.bind (·.iban))
      (account.bind (·.otherIdentification))) entry.creditDebit lifecycle).2 ↔ _ :=
    mem_compareAccount_conflicts
  simp only [reconcileAccountEntry, entryIdentity, List.mem_append, mem_compareRef_conflicts,
    mem_compareAmount_conflicts, mem_compareCurrency_conflicts, hacc, ReferenceDiffers,
    AmountDiffers, CurrencyDiffers, entryCurrency]
  cases c <;> simp only [reduceCtorEq, true_and, false_and, or_false, false_or, or_assoc]

theorem mem_evidence {e : Evidence}
    (he : e ∉ [.accountExact, .creditDebitExpected, .referenceNormalizedExact]) :
    e ∈ (reconcileAccountEntry u entry account lifecycle).evidence ↔
      (e = .uetrExact ∧ RefShared u entry.uetr lifecycle.uetr) ∨
        (e = .txidExact ∧ RefShared u entry.transactionId lifecycle.transactionId) ∨
        (e = .e2eExact ∧ RefShared u entry.endToEndId lifecycle.endToEndId) ∨
        (e = .instrExact ∧ RefShared u entry.instructionId lifecycle.instructionId) ∨
        (e = .accountServicerExact ∧
          RefShared u entry.accountServicerReference lifecycle.accountServicerReference) ∨
        (e = .amountExact ∧ AmountAgrees entry lifecycle) ∨
        (e = .currencyExact ∧ CurrencyAgrees u entry lifecycle) := by
  simp only [List.mem_cons, List.not_mem_nil, or_false, not_or] at he
  have haccount : ∀ ea dir, e ∉ (compareAccount u ea dir lifecycle).1 := fun ea dir h =>
    (mem_compareAccount_evidence h).elim he.1 he.2.1
  have hreference : ∀ a b, e ∉ compareReference u a b := fun a b h =>
    he.2.2 (mem_compareReference h)
  simp only [reconcileAccountEntry, entryIdentity, List.mem_append, mem_compareRef_evidence,
    mem_compareAmount_evidence, mem_compareCurrency_evidence, haccount, hreference, AmountAgrees,
    CurrencyAgrees, entryCurrency, or_false, or_assoc]

theorem strong_iff :
    (reconcileAccountEntry u entry account lifecycle).evidence.any Evidence.isStrong ↔
      SharesReference u entry lifecycle := by
  have hstrong : ∀ e, Evidence.isStrong e →
      (e ∈ (reconcileAccountEntry u entry account lifecycle).evidence ↔
        (e = .uetrExact ∧ RefShared u entry.uetr lifecycle.uetr) ∨
          (e = .txidExact ∧ RefShared u entry.transactionId lifecycle.transactionId) ∨
          (e = .e2eExact ∧ RefShared u entry.endToEndId lifecycle.endToEndId) ∨
          (e = .instrExact ∧ RefShared u entry.instructionId lifecycle.instructionId)) := by
    intro e he
    cases e <;> simp only [Evidence.isStrong, Bool.false_eq_true] at he <;>
      simp [mem_evidence]
  rw [List.any_eq_true]
  constructor
  · rintro ⟨e, he, hs⟩
    rcases (hstrong e hs).mp he with ⟨-, h⟩ | ⟨-, h⟩ | ⟨-, h⟩ | ⟨-, h⟩
    · exact .inl h
    · exact .inr (.inl h)
    · exact .inr (.inr (.inl h))
    · exact .inr (.inr (.inr h))
  · rintro (h | h | h | h)
    · exact ⟨.uetrExact, (hstrong _ rfl).mpr (by simp [h]), rfl⟩
    · exact ⟨.txidExact, (hstrong _ rfl).mpr (by simp [h]), rfl⟩
    · exact ⟨.e2eExact, (hstrong _ rfl).mpr (by simp [h]), rfl⟩
    · exact ⟨.instrExact, (hstrong _ rfl).mpr (by simp [h]), rfl⟩

theorem amountExact_iff :
    .amountExact ∈ (reconcileAccountEntry u entry account lifecycle).evidence ↔
      AmountAgrees entry lifecycle := by
  rw [mem_evidence (by decide)]
  simp

theorem currencyExact_iff :
    .currencyExact ∈ (reconcileAccountEntry u entry account lifecycle).evidence ↔
      CurrencyAgrees u entry lifecycle := by
  rw [mem_evidence (by decide)]
  simp

/-- The classification as a choice between the relations of the entry and the lifecycle. -/
theorem classification_eq :
    (reconcileAccountEntry u entry account lifecycle).classification =
      if CurrencyDiffers u entry lifecycle then .currencyMismatch
      else if AmountDiffers entry lifecycle then .amountMismatch
      else if AccountWrong u account lifecycle then .accountMismatch
      else if DirectionWrong u entry account lifecycle ∨ ReferenceDiffers u entry lifecycle then
        .reviewRequired
      else evidenceClass u entry lifecycle := by
  have hclass : (reconcileAccountEntry u entry account lifecycle).classification =
      classify (reconcileAccountEntry u entry account lifecycle).evidence
        (reconcileAccountEntry u entry account lifecycle).conflicts := rfl
  rw [hclass, classify]
  simp only [List.contains_iff_mem, mem_conflicts, strong_iff, amountExact_iff, currencyExact_iff,
    reduceCtorEq, true_and, false_and, or_false, false_or, evidenceClass]
  by_cases hs : SharesReference u entry lifecycle
  · by_cases ha : AmountAgrees entry lifecycle <;>
      by_cases hc : CurrencyAgrees u entry lifecycle <;> simp [hs, ha, hc]
  · by_cases ha : AmountAgrees entry lifecycle <;>
      by_cases hc : CurrencyAgrees u entry lifecycle <;> simp [hs, ha, hc]

theorem AmountAgrees.not_differs (h : AmountAgrees entry lifecycle) :
    ¬ AmountDiffers entry lifecycle := by
  obtain ⟨a, ha, hb⟩ := h
  rintro ⟨a', ha', b, hb', hne⟩
  rw [Option.mem_unique ha ha'] at hb
  exact hne (Option.some.inj (hb.symm.trans hb'))

theorem CurrencyAgrees.not_differs (h : CurrencyAgrees u entry lifecycle) :
    ¬ CurrencyDiffers u entry lifecycle := fun hd => hd.2.2 h.2.2

/-- An entry is reconciled with a lifecycle exactly when it agrees with it. -/
theorem reconciled_iff :
    (reconcileAccountEntry u entry account lifecycle).classification = .reconciled ↔
      Agrees u entry account lifecycle := by
  rw [classification_eq]
  constructor
  · intro h
    split_ifs at h with hcur hamt hacc hrev
    unfold evidenceClass at h
    split_ifs at h with hall
    obtain ⟨hs, ha, hc⟩ := hall
    exact ⟨hs, ha, hc, fun hr => hrev (.inr hr), hacc, fun hd => hrev (.inl hd)⟩
  · intro h
    rw [if_neg h.currency.not_differs, if_neg h.amount.not_differs, if_neg h.rightAccount,
      if_neg (not_or.mpr ⟨h.rightDirection, h.sameReferences⟩), evidenceClass,
      if_pos ⟨h.reference, h.amount, h.currency⟩]

instance : Decidable (Agrees u entry account lifecycle) := decidable_of_iff _ reconciled_iff

/-! ## A context without accounts -/

/-- The context with the accounts of the debtor and the creditor left out. -/
def withoutAccounts (lifecycle : LifecycleAccountContext) : LifecycleAccountContext :=
  { lifecycle with debtorAccount := none, creditorAccount := none }

/-- Without the accounts nothing is wrong with the account or the direction of an entry. -/
theorem classification_withoutAccounts :
    (reconcileAccountEntry u entry account (withoutAccounts lifecycle)).classification =
      if CurrencyDiffers u entry lifecycle then .currencyMismatch
      else if AmountDiffers entry lifecycle then .amountMismatch
      else if ReferenceDiffers u entry lifecycle then .reviewRequired
      else evidenceClass u entry lifecycle := by
  have hacc : ¬ AccountWrong u account (withoutAccounts lifecycle) := by
    simp [AccountWrong, withoutAccounts, truthy]
  have hdir : ¬ DirectionWrong u entry account (withoutAccounts lifecycle) := by
    simp [DirectionWrong, expectedDirection, sameAccount, withoutAccounts, truthy]
  rw [classification_eq, if_neg hacc]
  simp only [hdir, false_or]
  rfl

/-- The accounts matter unless the currency or the amount differs first, or nothing is wrong with
the account, and with the direction only where a reference differs as well. -/
theorem classification_withoutAccounts_iff :
    (reconcileAccountEntry u entry account (withoutAccounts lifecycle)).classification =
        (reconcileAccountEntry u entry account lifecycle).classification ↔
      CurrencyDiffers u entry lifecycle ∨ AmountDiffers entry lifecycle ∨
        (¬ AccountWrong u account lifecycle ∧
          (DirectionWrong u entry account lifecycle → ReferenceDiffers u entry lifecycle)) := by
  have hclass : evidenceClass u entry lifecycle ≠ .accountMismatch ∧
      evidenceClass u entry lifecycle ≠ .reviewRequired := by
    unfold evidenceClass
    split_ifs <;> decide
  rw [classification_withoutAccounts, classification_eq]
  by_cases hcur : CurrencyDiffers u entry lifecycle
  · simp [hcur]
  by_cases hamt : AmountDiffers entry lifecycle
  · simp [hcur, hamt]
  by_cases hacc : AccountWrong u account lifecycle
  · by_cases href : ReferenceDiffers u entry lifecycle <;> simp [hcur, hamt, hacc, href, hclass]
  by_cases href : ReferenceDiffers u entry lifecycle
  · simp [hcur, hamt, hacc, href]
  · by_cases hdir : DirectionWrong u entry account lifecycle <;>
      simp [hcur, hamt, hacc, href, hdir, hclass]

end PaymentOps.Reconciliation
