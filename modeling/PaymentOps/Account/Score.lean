import PaymentOps.Account.Classification
import PaymentOps.Lib.Rounding

/-!
# Reconciled entries and their score

The direction and the account of an entry under one condition, `AccountFits`, and the score of an
entry as the weight of what it has in common with the lifecycle.

* `reconciled_iff_fits`: when an entry is reconciled, and that no conflict lets it be;
* `score_bounded_iff`: the score leaves 0..100 exactly where the accounts of debtor and creditor
  coincide, so that one account counts twice, and next to nothing else is missing.
-/

namespace PaymentOps.Reconciliation

open Text

section

variable (u : Unicode) (entry : AccountEntry) (account : Option AccountReference)
  (lifecycle : LifecycleAccountContext)

/-- The reported account, where there is one, is the account of the creditor and not debited, or
else that of the debtor and not credited, or neither while one of these is unknown. -/
def AccountFits : Prop :=
  truthy (entryAccount account) →
    (sameAccount u (entryAccount account) lifecycle.creditorAccount ∧
      (entry.creditDebit = none ∨ entry.creditDebit = some .crdt)) ∨
    (¬ sameAccount u (entryAccount account) lifecycle.creditorAccount ∧
      sameAccount u (entryAccount account) lifecycle.debtorAccount ∧
      (entry.creditDebit = none ∨ entry.creditDebit = some .dbit)) ∨
    (¬ sameAccount u (entryAccount account) lifecycle.creditorAccount ∧
      ¬ sameAccount u (entryAccount account) lifecycle.debtorAccount ∧
      ¬ (truthy lifecycle.creditorAccount ∧ truthy lifecycle.debtorAccount))

/-- The remittance references are present and normalize alike. -/
def RemittanceAgrees : Prop :=
  truthy entry.remittanceReference ∧ truthy lifecycle.reference ∧
    entry.remittanceReference.bind (Matching.normalizeReference u) =
      lifecycle.reference.bind (Matching.normalizeReference u)

/-- The reported account is that of the debtor as well as that of the creditor. -/
def AccountsCoincide : Prop :=
  sameAccount u (entryAccount account) lifecycle.creditorAccount ∧
    sameAccount u (entryAccount account) lifecycle.debtorAccount

/-- Everything but the account agrees, up to one of the currency and the direction. -/
structure AgreesOnAll : Prop where
  uetr : RefShared u entry.uetr lifecycle.uetr
  transactionId : RefShared u entry.transactionId lifecycle.transactionId
  endToEndId : RefShared u entry.endToEndId lifecycle.endToEndId
  instructionId : RefShared u entry.instructionId lifecycle.instructionId
  accountServicerReference :
    RefShared u entry.accountServicerReference lifecycle.accountServicerReference
  amount : AmountAgrees entry lifecycle
  remittance : RemittanceAgrees u entry lifecycle
  currencyOrDirection : CurrencyAgrees u entry lifecycle ∨ entry.creditDebit = some .crdt

instance : Decidable (RemittanceAgrees u entry lifecycle) :=
  inferInstanceAs (Decidable (_ ∧ _ ∧ _))

end

variable {u : Unicode} {entry : AccountEntry} {account : Option AccountReference}
  {lifecycle : LifecycleAccountContext}

/-! ## Account and direction -/

theorem sameAccount_truthy {a b : Option String} (h : sameAccount u a b) :
    truthy a ∧ truthy b := by
  simp only [sameAccount, Bool.and_eq_true] at h
  exact h.1

/-- The direction is that of the creditor where the account is his. -/
theorem directionWrong_iff :
    DirectionWrong u entry account lifecycle ↔
      (sameAccount u (entryAccount account) lifecycle.creditorAccount ∧
        entry.creditDebit = some .dbit) ∨
      (¬ sameAccount u (entryAccount account) lifecycle.creditorAccount ∧
        sameAccount u (entryAccount account) lifecycle.debtorAccount ∧
        entry.creditDebit = some .crdt) := by
  unfold DirectionWrong expectedDirection
  by_cases hc : sameAccount u (entryAccount account) lifecycle.creditorAccount
  · rcases hdir : entry.creditDebit with _ | _ | _ <;> simp [hc]
  · by_cases hd : sameAccount u (entryAccount account) lifecycle.debtorAccount
    · rcases hdir : entry.creditDebit with _ | _ | _ <;> simp [hc, hd]
    · simp [hc, hd]

theorem accountFits_iff :
    AccountFits u entry account lifecycle ↔
      ¬ AccountWrong u account lifecycle ∧ ¬ DirectionWrong u entry account lifecycle := by
  rw [directionWrong_iff, AccountWrong, AccountFits]
  by_cases hc : sameAccount u (entryAccount account) lifecycle.creditorAccount
  · have ht := (sameAccount_truthy hc).1
    rcases hdir : entry.creditDebit with _ | _ | _ <;> simp [hc, ht]
  · by_cases hd : sameAccount u (entryAccount account) lifecycle.debtorAccount
    · have ht := (sameAccount_truthy hd).1
      rcases hdir : entry.creditDebit with _ | _ | _ <;> simp [hc, hd, ht]
    · simp [hc, hd]

/-- Whatever the conflict is, the entry is set aside for it. -/
theorem classification_of_conflicts
    (h : (reconcileAccountEntry u entry account lifecycle).conflicts ≠ []) :
    (reconcileAccountEntry u entry account lifecycle).classification ≠ .reconciled ∧
      (reconcileAccountEntry u entry account lifecycle).classification ≠
        .possibleReconciliation := by
  obtain ⟨c, hc⟩ := List.exists_mem_of_ne_nil _ h
  rw [classification_eq]
  rcases mem_conflicts.mp hc with ⟨-, hw⟩ | ⟨-, hw⟩ | ⟨-, hw⟩ | ⟨-, hw⟩ | ⟨-, hw⟩
  all_goals
    split_ifs
    all_goals first
      | exact ⟨by decide, by decide⟩
      | simp_all

/-- An entry is reconciled exactly when no reference differs, a strong one is shared, amount and
currency agree and the account fits; with a conflict it is not even possibly reconciled. -/
theorem reconciled_iff_fits (u : Unicode) (entry : AccountEntry)
    (account : Option AccountReference) (lifecycle : LifecycleAccountContext) :
    ((reconcileAccountEntry u entry account lifecycle).classification = .reconciled ↔
      ¬ ReferenceDiffers u entry lifecycle ∧ SharesReference u entry lifecycle ∧
        AmountAgrees entry lifecycle ∧ CurrencyAgrees u entry lifecycle ∧
        AccountFits u entry account lifecycle) ∧
    ((reconcileAccountEntry u entry account lifecycle).conflicts ≠ [] →
      (reconcileAccountEntry u entry account lifecycle).classification ≠ .reconciled ∧
      (reconcileAccountEntry u entry account lifecycle).classification ≠
        .possibleReconciliation) := by
  refine ⟨?_, classification_of_conflicts⟩
  rw [reconciled_iff, accountFits_iff]
  constructor
  · intro h
    exact ⟨h.sameReferences, h.reference, h.amount, h.currency, h.rightAccount, h.rightDirection⟩
  · rintro ⟨hsame, href, hamount, hcurrency, haccount, hdirection⟩
    exact ⟨href, hamount, hcurrency, hsame, haccount, hdirection⟩

/-! ## The weight of the evidence -/

theorem weightOf_nil : weightOf [] = 0 := rfl

theorem weightOf_singleton (e : Evidence) : weightOf [e] = e.weight := zero_add _

theorem weightOf_append (es es' : List Evidence) :
    weightOf (es ++ es') = weightOf es + weightOf es' := by
  have hfold : ∀ (l : List Evidence) (w : ℚ),
      l.foldl (fun w code => w + code.weight) w = w + weightOf l := by
    intro l
    induction l with
    | nil => exact fun w => (add_zero w).symm
    | cons e l ih =>
      intro w
      have hcons : weightOf (e :: l) = 0 + e.weight + weightOf l := ih _
      rw [List.foldl_cons, ih, hcons]
      ring
  rw [weightOf, List.foldl_append, hfold]
  rfl

theorem weightOf_nonneg (es : List Evidence) : 0 ≤ weightOf es := by
  induction es with
  | nil => exact le_rfl
  | cons e es ih =>
    have hweight : 0 ≤ e.weight := by cases e <;> decide
    rw [← List.singleton_append, weightOf_append, weightOf_singleton]
    exact add_nonneg hweight ih

theorem weightOf_ite (p : Prop) [Decidable p] (e : Evidence) :
    weightOf (if p then [e] else []) = if p then e.weight else 0 := by
  split_ifs
  · exact weightOf_singleton e
  · exact weightOf_nil

theorem weightOf_compareRef {a b : Option String} {code : Evidence} :
    weightOf (compareRef u a b code).1 = if RefShared u a b then code.weight else 0 := by
  by_cases hshared : RefShared u a b
  · obtain ⟨ha, hb, heq⟩ := hshared
    rw [if_pos ⟨ha, hb, heq⟩, compareRef, if_pos ⟨ha, hb⟩]
    refine Eq.trans ?_ (weightOf_singleton code)
    exact congrArg (fun p : List Evidence × List Conflict => weightOf p.1) (if_pos heq)
  · rw [if_neg hshared, compareRef]
    by_cases hpresent : truthy a ∧ truthy b
    · rw [if_pos hpresent]
      exact congrArg (fun p : List Evidence × List Conflict => weightOf p.1)
        (if_neg fun heq => hshared ⟨hpresent.1, hpresent.2, heq⟩)
    · rw [if_neg hpresent]
      rfl

theorem weightOf_compareAmount : weightOf
    (compareAmount (entry.amount.map (·.amountMinor)) lifecycle.amountMinor).1 =
      if AmountAgrees entry lifecycle then 20 else 0 := by
  by_cases hagrees : AmountAgrees entry lifecycle
  · obtain ⟨a, ha, hb⟩ := hagrees
    rw [if_pos ⟨a, ha, hb⟩, Option.mem_def.mp ha, hb, compareAmount, if_pos rfl]
    exact weightOf_singleton _
  · rw [if_neg hagrees]
    cases ha : entry.amount.map (·.amountMinor) with
    | none => rfl
    | some a =>
      cases hb : lifecycle.amountMinor with
      | none => rfl
      | some b =>
        have hne : a ≠ b := by
          rintro rfl
          exact hagrees ⟨a, ha, hb⟩
        rw [compareAmount, if_neg hne]
        rfl

theorem weightOf_compareCurrency :
    weightOf (compareCurrency u (entryCurrency entry) lifecycle.currency).1 =
      if CurrencyAgrees u entry lifecycle then 10 else 0 := by
  by_cases hagrees : CurrencyAgrees u entry lifecycle
  · obtain ⟨ha, hb, heq⟩ := hagrees
    rw [if_pos ⟨ha, hb, heq⟩, compareCurrency, if_pos ⟨ha, hb⟩, if_pos heq]
    exact weightOf_singleton _
  · rw [if_neg hagrees, compareCurrency]
    by_cases hpresent : truthy (entryCurrency entry) ∧ truthy lifecycle.currency
    · rw [if_pos hpresent, if_neg fun heq => hagrees ⟨hpresent.1, hpresent.2, heq⟩]
      rfl
    · rw [if_neg hpresent]
      rfl

theorem weightOf_compareReference :
    weightOf (compareReference u entry.remittanceReference lifecycle.reference) =
      if RemittanceAgrees u entry lifecycle then 15 else 0 := weightOf_ite _ _

/-- The direction is the expected one. -/
def DirectionExpected (u : Unicode) (entry : AccountEntry) (account : Option AccountReference)
    (lifecycle : LifecycleAccountContext) : Prop :=
  ∃ expected ∈ expectedDirection u (entryAccount account) lifecycle,
    entry.creditDebit = some expected

instance : Decidable (DirectionExpected u entry account lifecycle) :=
  inferInstanceAs (Decidable (∃ _ ∈ _, _))

/-- An account that is both accounts of the lifecycle has the weight of two. -/
theorem weightOf_compareAccount :
    weightOf (compareAccount u (entryAccount account) entry.creditDebit lifecycle).1 =
      (if sameAccount u (entryAccount account) lifecycle.creditorAccount then 15 else 0) +
      (if sameAccount u (entryAccount account) lifecycle.debtorAccount then 15 else 0) +
      (if DirectionExpected u entry account lifecycle then 5 else 0) := by
  have haccount : weightOf
      ((if sameAccount u (entryAccount account) lifecycle.creditorAccount then [.accountExact]
        else []) ++
      if sameAccount u (entryAccount account) lifecycle.debtorAccount then [.accountExact]
        else []) =
      (if sameAccount u (entryAccount account) lifecycle.creditorAccount then 15 else 0) +
      (if sameAccount u (entryAccount account) lifecycle.debtorAccount then 15 else 0) := by
    rw [weightOf_append, weightOf_ite, weightOf_ite]
    rfl
  rw [← haccount]
  rcases he : expectedDirection u (entryAccount account) lifecycle with _ | expected
  · have hnot : ¬ DirectionExpected u entry account lifecycle := by
      simp [DirectionExpected, he]
    rw [if_neg hnot, add_zero]
    simp only [compareAccount, he]
    exact apply_ite (fun p : List Evidence × List Conflict => weightOf p.1) _ _ _ |>.trans
      (ite_self _)
  · rcases hd : entry.creditDebit with _ | actual
    · have hnot : ¬ DirectionExpected u entry account lifecycle := by
        simp [DirectionExpected, hd]
      rw [if_neg hnot, add_zero]
      simp only [compareAccount, he]
      exact apply_ite (fun p : List Evidence × List Conflict => weightOf p.1) _ _ _ |>.trans
        (ite_self _)
    · simp only [compareAccount, he]
      by_cases h : actual = expected
      · have hyes : DirectionExpected u entry account lifecycle :=
          ⟨expected, he, hd.trans (congrArg some h)⟩
        rw [if_pos h, if_pos hyes, weightOf_append, weightOf_singleton]
        rfl
      · have hnot : ¬ DirectionExpected u entry account lifecycle := by
          simpa [DirectionExpected, he, hd] using h
        rw [if_neg h, if_neg hnot, add_zero]

/-! ## The score -/

theorem weightOf_evidence :
    weightOf (reconcileAccountEntry u entry account lifecycle).evidence =
      (if RefShared u entry.uetr lifecycle.uetr then 40 else 0) +
      (if RefShared u entry.transactionId lifecycle.transactionId then 40 else 0) +
      (if RefShared u entry.endToEndId lifecycle.endToEndId then 30 else 0) +
      (if RefShared u entry.instructionId lifecycle.instructionId then 20 else 0) +
      (if RefShared u entry.accountServicerReference lifecycle.accountServicerReference then 20
        else 0) +
      (if AmountAgrees entry lifecycle then 20 else 0) +
      (if CurrencyAgrees u entry lifecycle then 10 else 0) +
      ((if sameAccount u (entryAccount account) lifecycle.creditorAccount then 15 else 0) +
        (if sameAccount u (entryAccount account) lifecycle.debtorAccount then 15 else 0) +
        (if DirectionExpected u entry account lifecycle then 5 else 0)) +
      (if RemittanceAgrees u entry lifecycle then 15 else 0) := by
  rw [← weightOf_compareAccount, ← weightOf_compareReference, ← weightOf_compareCurrency,
    ← weightOf_compareAmount]
  simp only [reconcileAccountEntry, weightOf_append, weightOf_compareRef]
  rfl

theorem ite_weight_le (p : Prop) [Decidable p] {w : ℚ} (hw : 0 ≤ w) :
    0 ≤ (if p then w else 0) ∧ (if p then w else 0) ≤ w := by
  split_ifs
  · exact ⟨hw, le_rfl⟩
  · exact ⟨le_rfl, hw⟩

theorem weightOf_weightedCodes : weightOf weightedCodes = 215 := by decide +kernel

/-- The score is within its range up to the weight of all codes. -/
theorem score_le_of_weight {es : List Evidence} (h : weightOf es ≤ 215) : score es ≤ 100 := by
  refine Decimal.round2_le (n := 100) ?_
  rw [weightOf_weightedCodes, div_le_iff₀ (by norm_num)]
  push_cast
  linarith

theorem lt_score_of_weight {es : List Evidence} (h : 220 ≤ weightOf es) : 100 < score es := by
  have hround : ((102 : ℤ) : ℚ) ≤ score es := by
    refine Decimal.le_round2 ?_
    rw [weightOf_weightedCodes, le_div_iff₀ (by norm_num)]
    push_cast
    linarith
  push_cast at hround
  linarith

theorem score_nonneg {es : List Evidence} (h : 0 ≤ weightOf es) : 0 ≤ score es := by
  have hround : ((0 : ℤ) : ℚ) ≤ score es := by
    refine Decimal.le_round2 ?_
    rw [weightOf_weightedCodes]
    push_cast
    positivity
  exact_mod_cast hround

/-- All codes weigh 230 with an account that counts twice. -/
theorem score_of_agrees (hcoincide : AccountsCoincide u account lifecycle)
    (hall : AgreesOnAll u entry lifecycle) :
    100 < score (reconcileAccountEntry u entry account lifecycle).evidence := by
  obtain ⟨hcreditor, hdebtor⟩ := hcoincide
  refine lt_score_of_weight ?_
  rw [weightOf_evidence, if_pos hall.uetr, if_pos hall.transactionId, if_pos hall.endToEndId,
    if_pos hall.instructionId, if_pos hall.accountServicerReference, if_pos hall.amount,
    if_pos hall.remittance, if_pos hcreditor, if_pos hdebtor]
  rcases hall.currencyOrDirection with hcurrency | hdirection
  · have hdir := (ite_weight_le (DirectionExpected u entry account lifecycle)
      (w := 5) (by norm_num)).1
    rw [if_pos hcurrency]
    linarith
  · have hcur := (ite_weight_le (CurrencyAgrees u entry lifecycle) (w := 10) (by norm_num)).1
    have hexpected : DirectionExpected u entry account lifecycle :=
      ⟨.crdt, if_pos hcreditor, hdirection⟩
    rw [if_pos hexpected]
    linarith

/-- Each part of the weight but the currency and the direction is needed to exceed 215. -/
theorem agrees_of_weight
    (hgt : 215 < weightOf (reconcileAccountEntry u entry account lifecycle).evidence) :
    AccountsCoincide u account lifecycle ∧ AgreesOnAll u entry lifecycle := by
  have h₁ := (ite_weight_le (RefShared u entry.uetr lifecycle.uetr) (w := 40) (by norm_num)).2
  have h₂ := (ite_weight_le (RefShared u entry.transactionId lifecycle.transactionId)
    (w := 40) (by norm_num)).2
  have h₃ := (ite_weight_le (RefShared u entry.endToEndId lifecycle.endToEndId)
    (w := 30) (by norm_num)).2
  have h₄ := (ite_weight_le (RefShared u entry.instructionId lifecycle.instructionId)
    (w := 20) (by norm_num)).2
  have h₅ := (ite_weight_le (RefShared u entry.accountServicerReference
    lifecycle.accountServicerReference) (w := 20) (by norm_num)).2
  have h₆ := (ite_weight_le (AmountAgrees entry lifecycle) (w := 20) (by norm_num)).2
  have h₇ := (ite_weight_le (CurrencyAgrees u entry lifecycle) (w := 10) (by norm_num)).2
  have h₈ := (ite_weight_le (sameAccount u (entryAccount account) lifecycle.creditorAccount)
    (w := 15) (by norm_num)).2
  have h₉ := (ite_weight_le (sameAccount u (entryAccount account) lifecycle.debtorAccount)
    (w := 15) (by norm_num)).2
  have h₁₀ := (ite_weight_le (DirectionExpected u entry account lifecycle)
    (w := 5) (by norm_num)).2
  have h₁₁ := (ite_weight_le (RemittanceAgrees u entry lifecycle) (w := 15) (by norm_num)).2
  rw [weightOf_evidence] at hgt
  have hcreditor : sameAccount u (entryAccount account) lifecycle.creditorAccount := by
    by_contra h
    rw [if_neg h] at hgt
    linarith
  have hdebtor : sameAccount u (entryAccount account) lifecycle.debtorAccount := by
    by_contra h
    rw [if_neg h] at hgt
    linarith
  refine ⟨⟨hcreditor, hdebtor⟩, ⟨?_, ?_, ?_, ?_, ?_, ?_, ?_, ?_⟩⟩
  case refine_8 =>
    by_contra h
    obtain ⟨hcurrency, hdirection⟩ := not_or.mp h
    have hunexpected : ¬ DirectionExpected u entry account lifecycle := by
      rintro ⟨expected, he, hd⟩
      obtain rfl : CreditDebitIndicator.crdt = expected :=
        Option.some.inj ((if_pos hcreditor).symm.trans he)
      exact hdirection hd
    rw [if_neg hcurrency, if_neg hunexpected] at hgt
    linarith
  all_goals
    by_contra h
    rw [if_neg h] at hgt
    linarith

/-- The score is in its range unless the accounts coincide and everything else agrees, up to one
of the currency and the direction. -/
theorem score_bounded_iff (u : Unicode) (entry : AccountEntry) (account : Option AccountReference)
    (lifecycle : LifecycleAccountContext) :
    (0 ≤ (reconcileAccountEntry u entry account lifecycle).matchScore ∧
      (reconcileAccountEntry u entry account lifecycle).matchScore ≤ 100) ↔
      ¬ (AccountsCoincide u account lifecycle ∧ AgreesOnAll u entry lifecycle) := by
  have hscore : (reconcileAccountEntry u entry account lifecycle).matchScore =
      score (reconcileAccountEntry u entry account lifecycle).evidence := rfl
  rw [hscore]
  constructor
  · rintro ⟨-, hle⟩ ⟨hcoincide, hall⟩
    exact hle.not_gt (score_of_agrees hcoincide hall)
  · intro hnot
    exact ⟨score_nonneg (weightOf_nonneg _),
      score_le_of_weight (not_lt.mp (mt agrees_of_weight hnot))⟩

/-! ## A transfer of an account to itself -/

/-- A credited entry with every reference, 100.00 EUR. -/
def ownTransfer : AccountEntry where
  uetr := some "U-1"
  transactionId := some "TX-1"
  endToEndId := some "E2E-1"
  instructionId := some "INSTR-1"
  accountServicerReference := some "ASR-1"
  remittanceReference := some "INV-1"
  amount := some { amountMinor := 10000, currency := "EUR" }
  creditDebit := some .crdt

/-- An account with an IBAN and another id. -/
def ownAccount : AccountReference where
  iban := some "DE89370400440532013000"

/-- The payment of which the account is both the debtor and the creditor. -/
def ownPayment : LifecycleAccountContext where
  uetr := some "U-1"
  transactionId := some "TX-1"
  endToEndId := some "E2E-1"
  instructionId := some "INSTR-1"
  accountServicerReference := some "ASR-1"
  reference := some "INV-1"
  amountMinor := some 10000
  currency := some "EUR"
  debtorAccount := some "DE89370400440532013000"
  creditorAccount := some "DE89370400440532013000"

theorem score_exceeds_100 :
    (reconcileAccountEntry .ascii ownTransfer (some ownAccount) ownPayment).matchScore =
      10698 / 100 ∧
    ¬ (0 ≤ (reconcileAccountEntry .ascii ownTransfer (some ownAccount) ownPayment).matchScore ∧
      (reconcileAccountEntry .ascii ownTransfer (some ownAccount) ownPayment).matchScore ≤
        100) := by
  decide +kernel

end PaymentOps.Reconciliation
