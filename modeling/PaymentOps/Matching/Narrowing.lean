import PaymentOps.Matching.Candidates
import PaymentOps.Matching.Evaluation

/-!
# Narrowing against evaluation

Narrowing compares five keys of a pair before the pair is evaluated, under rules of its own: fixed
windows for amounts and dates, and no weights.  So it may drop a pair that the evaluation matches.

* `candidateMatches_iff`: the five comparisons;
* `neverHidden_iff`: a pair is never lost to narrowing, whatever the thresholds and the critical
  fields, exactly when its keys agree or its names differ so much that nothing matches it;
* `hidden_by_dates` is a pair that matches but lies outside the window of dates.
-/

namespace PaymentOps.Matching

open Text

variable {u : Unicode} {fuzz : Fuzz} {policy : MatchingPolicy} {source cand : MatchRecord}

/-! ## The comparisons -/

section

variable (u : Unicode) (cand : MatchRecord) (crit : NarrowingCriteria)

/-- The currencies do not differ where both are present. -/
def CurrencyFits : Prop :=
  truthy crit.currency → truthy cand.currency → cand.currency = crit.currency

/-- The amount is in the range, where both are present. -/
def AmountFits : Prop :=
  ∀ range ∈ crit.amountRange, ∀ a ∈ cand.amount, range.1 ≤ a.toRat ∧ a.toRat ≤ range.2

/-- A date is in a range, where there are both. -/
def DateFits : Prop :=
  crit.dateFields = [] ∨ cand.valueDate = none ∧ cand.bookingDate = none ∨ dateWithin cand crit

/-- The reference starts as the source's does. -/
def ReferenceFits : Prop :=
  ∀ pre ∈ crit.referencePrefix, pre ≠ "" →
    ∃ norm ∈ normalizeReference u ((or cand.remittanceReference cand.externalReference).getD ""),
      take 8 norm = pre

/-- The account is that of the source, where the source has one. -/
def AccountFits : Prop :=
  ∀ account ∈ crit.account,
    compactAccount u ((or cand.debtorAccount cand.creditorAccount).getD "") =
      compactAccount u account

end

theorem candidateMatches_iff (u : Unicode) (cand : MatchRecord) (crit : NarrowingCriteria) :
    candidateMatches u cand crit ↔ CurrencyFits cand crit ∧ AmountFits cand crit ∧
      DateFits cand crit ∧ ReferenceFits u cand crit ∧ AccountFits u cand crit := by
  have hany : ∀ {α : Type} (o : Option α) (p : α → Bool), ¬ o.any p ↔ ∀ a ∈ o, p a = false := by
    intro α o p
    cases o <;> simp
  have hcurrency : CurrencyFits cand crit ↔
      ¬ (truthy crit.currency ∧ truthy cand.currency ∧ cand.currency ≠ crit.currency) := by
    simp [CurrencyFits]
  have hamount : AmountFits cand crit ↔ ¬ crit.amountRange.any fun range =>
      cand.amount.any fun a => !(range.1 ≤ a.toRat && a.toRat ≤ range.2) := by
    rw [hany, AmountFits]
    refine forall₂_congr fun range _ => ?_
    rw [← Bool.not_eq_true, hany]
    simp
  have hdate : DateFits cand crit ↔ ¬ (crit.dateFields ≠ [] ∧
      ¬ (cand.valueDate = none ∧ cand.bookingDate = none) ∧ ¬ dateWithin cand crit) := by
    rw [DateFits, not_and_or, not_and_or, not_not, not_not, not_not]
  have hreference : ReferenceFits u cand crit ↔ ¬ crit.referencePrefix.any fun pre =>
      let ref := (or cand.remittanceReference cand.externalReference).getD ""
      pre ≠ "" && (normalizeReference u ref).all fun norm => take 8 norm ≠ pre := by
    rw [hany, ReferenceFits]
    refine forall₂_congr fun pre _ => ?_
    dsimp only
    generalize normalizeReference u ((or cand.remittanceReference cand.externalReference).getD "")
      = norm
    cases norm <;> simp
  have haccount : AccountFits u cand crit ↔ ¬ crit.account.any fun account =>
      compactAccount u ((or cand.debtorAccount cand.creditorAccount).getD "") ≠
        compactAccount u account := by
    rw [hany, AccountFits]
    simp
  have hchain : ∀ (a b c d e : Prop) [Decidable a] [Decidable b] [Decidable c] [Decidable d]
      [Decidable e], (if a then false else if b then false else if c then false
        else if d then false else if e then false else true) = true ↔
          ¬ a ∧ ¬ b ∧ ¬ c ∧ ¬ d ∧ ¬ e := by
    intro a b c d e _ _ _ _ _
    split_ifs with ha hb hc hd he <;> simp [*]
  rw [hcurrency, hamount, hdate, hreference, haccount]
  exact hchain _ _ _ _ _

/-! ## Complete records -/

/-- Every field that is compared is present. -/
structure Complete (record : MatchRecord) : Prop where
  transactionId : truthy record.transactionId
  endToEndId : truthy record.endToEndId
  debtorAccount : truthy record.debtorAccount
  creditorAccount : truthy record.creditorAccount
  debtorAgent : truthy record.debtorAgent
  creditorAgent : truthy record.creditorAgent
  currency : truthy record.currency
  country : truthy record.country
  amount : record.amount.isSome
  bookingDate : record.bookingDate.isSome
  valueDate : record.valueDate.isSome
  remittanceReference : truthy record.remittanceReference
  externalReference : truthy record.externalReference
  debtorName : truthy record.debtorName
  creditorName : truthy record.creditorName

/-- The percentage of the policy, or the default. -/
def amountTolerance (policy : MatchingPolicy) : ℚ :=
  (policy.amountTolerances.get "amount").getD defaultAmountPct

/-- Complete records whose amounts and tolerance are not negative and whose currencies, where they
are the same, are written the same. -/
structure Comparable (u : Unicode) (policy : MatchingPolicy) (source cand : MatchRecord) :
    Prop where
  left : Complete source
  right : Complete cand
  amount : ∀ a ∈ source.amount, 0 ≤ a.toRat
  tolerance : 0 ≤ amountTolerance policy
  currency : normalizeRecord u cand .currency = normalizeRecord u source .currency →
    cand.currency = source.currency

/-- The pair agrees on everything by which candidates are narrowed. -/
structure KeysAgree (u : Unicode) (policy : MatchingPolicy) (source cand : MatchRecord) :
    Prop where
  currency : normalizeRecord u cand .currency = normalizeRecord u source .currency
  amount : amountTolerance policy = 0 ∨ ∀ a ∈ source.amount, ∀ b ∈ cand.amount,
    (amountWindow a.toRat (amountTolerance policy)).1 ≤ b.toRat ∧
      b.toRat ≤ (amountWindow a.toRat (amountTolerance policy)).2
  date : ∃ field : DateField, ∃ d ∈ field.of source, ∃ d' ∈ field.of cand,
    d'.daysApart d ≤ defaultDateWindowDays
  reference : ∀ ref ∈ source.remittanceReference, ∀ norm ∈ normalizeReference u ref,
    ∃ ref' ∈ cand.remittanceReference, ∃ norm' ∈ normalizeReference u ref',
      take 8 norm' = take 8 norm
  account : source.debtorAccount.map (compactAccount u) = cand.debtorAccount.map (compactAccount u)

theorem take_ne_empty {n : ℕ} (hn : n ≠ 0) {s : String} (h : s ≠ "") : take n s ≠ "" := by
  intro htake
  have hlist := congrArg String.toList htake
  rw [toList_take, String.toList_empty, List.take_eq_nil_iff] at hlist
  rcases hlist with hzero | hnil
  · exact hn hzero
  · exact h (String.toList_eq_nil_iff.mp hnil)

theorem normalizeReference_ne {ref norm : String} (h : normalizeReference u ref = some norm) :
    norm ≠ "" := by
  unfold normalizeReference orNone at h
  split_ifs at h with hempty
  obtain rfl := Option.some.inj h
  exact hempty

theorem DateField.exists_iff {p : DateField → Prop} :
    (∃ field, p field) ↔ p .bookingDate ∨ p .valueDate := by
  constructor
  · rintro ⟨field, h⟩
    cases field with
    | bookingDate => exact .inl h
    | valueDate => exact .inr h
  · rintro (h | h)
    · exact ⟨.bookingDate, h⟩
    · exact ⟨.valueDate, h⟩

theorem or_of_truthy {a : Option String} (h : truthy a) (b : Option String) : or a b = a :=
  if_pos h

theorem filter_of_ne {s : String} (h : s ≠ "") : (some s).filter (· ≠ "") = some s := by
  simp [Option.filter, h]

/-- Narrowing keeps a pair exactly when its keys agree. -/
theorem candidateMatches_of_complete (h : Comparable u policy source cand) :
    candidateMatches u cand (narrowingCriteria u source policy) ↔
      KeysAgree u policy source cand := by
  obtain ⟨currency, hcurrency, hcne⟩ := truthy_iff.mp h.left.currency
  obtain ⟨ref, href, hrne⟩ := truthy_iff.mp h.left.remittanceReference
  obtain ⟨ref', href', -⟩ := truthy_iff.mp h.right.remittanceReference
  obtain ⟨account, haccount, hane⟩ := truthy_iff.mp h.left.debtorAccount
  obtain ⟨account', haccount', -⟩ := truthy_iff.mp h.right.debtorAccount
  set crit := narrowingCriteria u source policy with hcrit
  have hcur : CurrencyFits cand crit ↔
      normalizeRecord u cand .currency = normalizeRecord u source .currency := by
    have hkey : crit.currency = source.currency := by
      rw [hcurrency]
      show source.currency.filter (· ≠ "") = _
      rw [hcurrency, filter_of_ne hcne]
    rw [CurrencyFits, hkey]
    constructor
    · intro hfits
      rw [normalizeRecord, normalizeRecord, hfits h.left.currency h.right.currency]
    · exact fun hsame _ _ => h.currency hsame
  have ham : AmountFits cand crit ↔ (amountTolerance policy = 0 ∨ ∀ a ∈ source.amount,
      ∀ b ∈ cand.amount, (amountWindow a.toRat (amountTolerance policy)).1 ≤ b.toRat ∧
        b.toRat ≤ (amountWindow a.toRat (amountTolerance policy)).2) := by
    have hkey : crit.amountRange = if amountTolerance policy = 0 then none
        else source.amount.map fun a => amountWindow a.toRat (amountTolerance policy) := rfl
    rw [AmountFits, hkey]
    by_cases hzero : amountTolerance policy = 0
    · simp [hzero]
    · rw [if_neg hzero]
      simp [hzero]
  have hdate : DateFits cand crit ↔ ∃ field : DateField, ∃ d ∈ field.of source,
      ∃ d' ∈ field.of cand, d'.daysApart d ≤ defaultDateWindowDays := by
    obtain ⟨booking, hbooking⟩ := Option.isSome_iff_exists.mp h.left.bookingDate
    obtain ⟨value, hvalue⟩ := Option.isSome_iff_exists.mp h.left.valueDate
    obtain ⟨booking', hbooking'⟩ := Option.isSome_iff_exists.mp h.right.bookingDate
    obtain ⟨value', hvalue'⟩ := Option.isSome_iff_exists.mp h.right.valueDate
    have hkey : crit.dateFields = [(.bookingDate, booking), (.valueDate, value)] := by
      simp [hcrit, narrowingCriteria, DateField.of, hbooking, hvalue]
    rw [DateFits, dateWithin, hkey, DateField.exists_iff]
    simp [DateField.of, hbooking, hvalue, hbooking', hvalue', hcrit, narrowingCriteria]
  have hreference : ReferenceFits u cand crit ↔ ∀ ref ∈ source.remittanceReference,
      ∀ norm ∈ normalizeReference u ref, ∃ ref' ∈ cand.remittanceReference,
        ∃ norm' ∈ normalizeReference u ref', take 8 norm' = take 8 norm := by
    have hkey : crit.referencePrefix = (normalizeReference u ref).map (take 8) := by
      show (((or source.remittanceReference source.externalReference).filter (· ≠ "")).bind
        (normalizeReference u)).map (take 8) = _
      rw [or_of_truthy h.left.remittanceReference, href, filter_of_ne hrne]
      rfl
    rw [ReferenceFits, hkey, or_of_truthy h.right.remittanceReference, href, href']
    cases hnorm : normalizeReference u ref with
    | none => simp [hnorm]
    | some norm =>
      have hne : take 8 norm ≠ "" := take_ne_empty (by decide) (normalizeReference_ne hnorm)
      simp [hnorm, hne]
  have hacc : AccountFits u cand crit ↔
      source.debtorAccount.map (compactAccount u) = cand.debtorAccount.map (compactAccount u) := by
    have hkey : crit.account = some account := by
      show (or source.debtorAccount source.creditorAccount).filter (· ≠ "") = _
      rw [or_of_truthy h.left.debtorAccount, haccount, filter_of_ne hane]
    rw [AccountFits, hkey, or_of_truthy h.right.debtorAccount, haccount, haccount']
    simp [eq_comm]
  rw [candidateMatches_iff, hcur, ham, hdate, hreference, hacc]
  constructor
  · rintro ⟨hcurrency, hamount, hdate, hreference, haccount⟩
    exact ⟨hcurrency, hamount, hdate, hreference, haccount⟩
  · intro k
    exact ⟨k.currency, k.amount, k.date, k.reference, k.account⟩

/-! ## Lost pairs -/

/-- Whatever the thresholds and the critical fields, a pair that matches passes narrowing. -/
def NeverHidden (u : Unicode) (fuzz : Fuzz) (policy : MatchingPolicy)
    (source cand : MatchRecord) : Prop :=
  ∀ thresholds criticalFields,
    let p := { policy with thresholds := thresholds, criticalFields := criticalFields }
    (evaluatePair u fuzz source cand p).classification = .matched →
      candidateMatches u cand (narrowingCriteria u source p)

/-- No match of a pair is lost exactly when its keys agree, or nothing matches it. -/
theorem neverHidden_iff (u : Unicode) (fuzz : Fuzz) (policy : MatchingPolicy)
    (source cand : MatchRecord) (h : Comparable u policy source cand) :
    NeverHidden u fuzz policy source cand ↔
      NamesConflict u fuzz policy source cand ∨ KeysAgree u policy source cand := by
  rw [← candidateMatches_of_complete h]
  constructor
  · intro hnever
    by_cases hnames : NamesConflict u fuzz policy source cand
    · exact .inl hnames
    · right
      -- the policy that asks for no more than the score of the pair
      let plain := { policy with criticalFields := [] }
      let score := (evaluatePair u fuzz source cand plain).matchScore
      have hmatched : (evaluatePair u fuzz source cand
          { policy with thresholds := [("matched", score)], criticalFields := [] }).classification =
            .matched := by
        exact matched_of_noConflict ((conflicts_of_names rfl).mpr hnames) Rat.le_refl
      exact hnever [("matched", score)] [] hmatched
  · rintro (hnames | hkeys) thresholds criticalFields p hmatched
    · have hp : NamesConflict u fuzz p source cand := hnames
      exact absurd hmatched (not_matched_of_namesConflict hp _)
    · exact hkeys

/-- A complete record, given its id and the day of its two dates. -/
def invoiceOn (recordId : String) (date : Date) : MatchRecord where
  recordId := recordId
  recordType := .invoice
  organizationId := "org"
  endToEndId := some "E2E-1"
  transactionId := some "TX-1"
  amount := some { coefficient := 100 }
  currency := some "EUR"
  bookingDate := some date
  valueDate := some date
  debtorName := some "ACME"
  creditorName := some "SUPPLIER"
  debtorAccount := some "DE89370400440532013000"
  creditorAccount := some "FR7630006000011234567890189"
  debtorAgent := some "DEUTDEFF"
  creditorAgent := some "BNPAFRPP"
  remittanceReference := some "INV-2024-0001"
  externalReference := some "EXT-1"
  country := some "DE"

theorem complete_invoiceOn (recordId : String) (date : Date) :
    Complete (invoiceOn recordId date) where
  transactionId := rfl
  endToEndId := rfl
  debtorAccount := rfl
  creditorAccount := rfl
  debtorAgent := rfl
  creditorAgent := rfl
  currency := rfl
  country := rfl
  amount := rfl
  bookingDate := rfl
  valueDate := rfl
  remittanceReference := rfl
  externalReference := rfl
  debtorName := rfl
  creditorName := rfl

/-- A date of the sample. -/
def newYear : Date := ⟨2024, 1, 1, by decide⟩
/-- A date outside its window. -/
def candlemas : Date := ⟨2024, 2, 2, by decide⟩

theorem comparable_invoices : Comparable .ascii (defaultPolicy "org") (invoiceOn "s" newYear)
    (invoiceOn "c" candlemas) where
  left := complete_invoiceOn _ _
  right := complete_invoiceOn _ _
  amount := by
    rintro a ⟨⟩
    decide +kernel
  tolerance := by decide +kernel
  currency := fun _ => rfl

/-- A month apart, the pair matches and is never seen. -/
theorem hidden_by_dates :
    Complete (invoiceOn "s" newYear) ∧ Complete (invoiceOn "c" candlemas) ∧
      (invoiceOn "c" candlemas).recordId ≠ (invoiceOn "s" newYear).recordId ∧
      (evaluatePair .ascii .equality (invoiceOn "s" newYear) (invoiceOn "c" candlemas)
        (defaultPolicy "org")).classification = .matched ∧
      candidateMatches .ascii (invoiceOn "c" candlemas)
        (narrowingCriteria .ascii (invoiceOn "s" newYear) (defaultPolicy "org")) = false := by
  refine ⟨complete_invoiceOn _ _, complete_invoiceOn _ _, by decide, by decide +kernel, ?_⟩
  decide +kernel

theorem neverHidden_iff_invoices :
    NeverHidden .ascii .equality (defaultPolicy "org") (invoiceOn "s" newYear)
        (invoiceOn "c" candlemas) ↔
      NamesConflict .ascii .equality (defaultPolicy "org") (invoiceOn "s" newYear)
          (invoiceOn "c" candlemas) ∨
        KeysAgree .ascii (defaultPolicy "org") (invoiceOn "s" newYear)
          (invoiceOn "c" candlemas) :=
  neverHidden_iff .ascii .equality (defaultPolicy "org") _ _ comparable_invoices

end PaymentOps.Matching
