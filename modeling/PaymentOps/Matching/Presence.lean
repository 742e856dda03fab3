import PaymentOps.Matching.Narrowing

/-!
# Narrowing on absent fields

A criterion of narrowing compares a field that both records have, or it should let the candidate
pass.  The date, the reference and the account are each read from one of two fields, and there a
candidate is also rejected when it has only the other field, or for the account and the reference
neither.

* `Disagrees`: some criterion compares a field of both records and rejects it;
* `Crosses`: a criterion rejects the candidate without a field to compare;
* `droppedOnDisagreement_iff`: absence drops a candidate exactly when only criteria that cross
  reject it.
-/

namespace PaymentOps.Matching

open Text

/-! ## One of two fields -/

/-- The field that `a or b` reads. -/
inductive Alternative where
  | first | second
  deriving DecidableEq, Repr

/-- The field that `a or b` reads with its text, if there is any. -/
def readOf (a b : Option String) : Option (Alternative × String) :=
  if truthy a then a.map (.first, ·)
  else if truthy b then b.map (.second, ·)
  else none

/-- The text that was read, or the empty one. -/
def textOf (read : Option (Alternative × String)) : String := (read.map (·.2)).getD ""

theorem filter_or (a b : Option String) :
    (or a b).filter (· ≠ "") = (readOf a b).map (·.2) := by
  unfold Text.or readOf
  split_ifs with ha hb
  · obtain ⟨s, rfl, hs⟩ := truthy_iff.mp ha
    exact filter_of_ne hs
  · obtain ⟨s, rfl, hs⟩ := truthy_iff.mp hb
    exact filter_of_ne hs
  · cases b with
    | none => rfl
    | some s =>
      have hs : s = "" := by simpa [truthy] using hb
      simp [Option.filter, hs]

theorem getD_or (a b : Option String) : (or a b).getD "" = textOf (readOf a b) := by
  unfold Text.or readOf
  split_ifs with ha hb
  · obtain ⟨s, rfl, -⟩ := truthy_iff.mp ha
    rfl
  · obtain ⟨s, rfl, -⟩ := truthy_iff.mp hb
    rfl
  · cases b with
    | none => rfl
    | some s =>
      have hs : s = "" := by simpa [truthy] using hb
      exact hs

section

variable (key : String → Option String) (source cand : Option (Alternative × String))

/-- A criterion on one of two fields: the key of the candidate is that of the source, if the
source has one. -/
def KeyFits : Prop := ∀ p ∈ source, key p.2 = none ∨ key (textOf cand) = key p.2

/-- Both records are read at the same field, and the keys differ. -/
def KeysDiffer : Prop :=
  ∃ p ∈ source, ∃ q ∈ cand, q.1 = p.1 ∧ key p.2 ≠ none ∧ key q.2 ≠ key p.2

/-- The field of the source is not that of the candidate, and what is read instead differs. -/
def KeyCrosses : Prop :=
  ∃ p ∈ source, (∀ q ∈ cand, q.1 ≠ p.1) ∧ key p.2 ≠ none ∧ key (textOf cand) ≠ key p.2

end

theorem not_keyFits {key : String → Option String} {source cand : Option (Alternative × String)} :
    ¬ KeyFits key source cand ↔ KeysDiffer key source cand ∨ KeyCrosses key source cand := by
  simp only [KeyFits, not_forall, not_or]
  constructor
  · rintro ⟨p, hp, hkey, hne⟩
    by_cases hsame : ∃ q ∈ cand, q.1 = p.1
    · obtain ⟨q, hq, hfield⟩ := hsame
      refine .inl ⟨p, hp, q, hq, hfield, hkey, ?_⟩
      rwa [Option.mem_def.mp hq] at hne
    · exact .inr ⟨p, hp, fun q hq hfield => hsame ⟨q, hq, hfield⟩, hkey, hne⟩
  · rintro (⟨p, hp, q, hq, -, hkey, hne⟩ | ⟨p, hp, -, hkey, hne⟩)
    · refine ⟨p, hp, hkey, ?_⟩
      rwa [Option.mem_def.mp hq]
    · exact ⟨p, hp, hkey, hne⟩

/-! ## The criteria -/

section

variable (u : Unicode) (policy : MatchingPolicy) (source cand : MatchRecord)

/-- The reference that narrowing reads. -/
def referenceOf (record : MatchRecord) : Option (Alternative × String) :=
  readOf record.remittanceReference record.externalReference

/-- The account that narrowing reads. -/
def accountOf (record : MatchRecord) : Option (Alternative × String) :=
  readOf record.debtorAccount record.creditorAccount

/-- What narrowing compares of a reference. -/
def referenceKey (reference : String) : Option String :=
  (normalizeReference u reference).map (take 8)

/-- What narrowing compares of an account. -/
def accountKey (account : String) : Option String := some (compactAccount u account)

/-- Both records have a currency, and not the same. -/
def CurrenciesDiffer : Prop :=
  ∃ a ∈ source.currency, ∃ b ∈ cand.currency, a ≠ "" ∧ b ≠ "" ∧ b ≠ a

/-- The amount of the candidate is outside the window around that of the source. -/
def AmountsDiffer : Prop :=
  amountTolerance policy ≠ 0 ∧ ∃ a ∈ source.amount, ∃ b ∈ cand.amount,
    ¬ ((amountWindow a.toRat (amountTolerance policy)).1 ≤ b.toRat ∧
      b.toRat ≤ (amountWindow a.toRat (amountTolerance policy)).2)

/-- Both records have a date in the field. -/
def DateShared (field : DateField) : Prop :=
  (field.of source).isSome ∧ (field.of cand).isSome

/-- A date field of the candidate is within the window around the same field of the source. -/
def DateClose (field : DateField) : Prop :=
  ∃ d ∈ field.of source, ∃ d' ∈ field.of cand, d'.daysApart d ≤ defaultDateWindowDays

/-- Some date field is present on both records, and none that is lies within the window. -/
def DatesDiffer : Prop :=
  (∃ field, DateShared source cand field) ∧ ∀ field, ¬ DateClose source cand field

/-- Each record has a date, but not in the same field. -/
def DatesCross : Prop :=
  (∃ field : DateField, (field.of source).isSome) ∧
    (∃ field : DateField, (field.of cand).isSome) ∧ ∀ field, ¬ DateShared source cand field

/-- Some criterion compares a field that is present on both records, and its values disagree. -/
def Disagrees : Prop :=
  CurrenciesDiffer source cand ∨ AmountsDiffer policy source cand ∨ DatesDiffer source cand ∨
    KeysDiffer (referenceKey u) (referenceOf source) (referenceOf cand) ∨
    KeysDiffer (accountKey u) (accountOf source) (accountOf cand)

/-- Some criterion has no field that is present on both records and rejects the candidate. -/
def Crosses : Prop :=
  DatesCross source cand ∨ KeyCrosses (referenceKey u) (referenceOf source) (referenceOf cand) ∨
    KeyCrosses (accountKey u) (accountOf source) (accountOf cand)

/-- A candidate is dropped only on a disagreement. -/
def DroppedOnDisagreement : Prop :=
  candidateMatches u cand (narrowingCriteria u source policy) = false →
    Disagrees u policy source cand

end

variable {u : Unicode} {policy : MatchingPolicy} {source cand : MatchRecord}

theorem not_currencyFits : ¬ CurrencyFits cand (narrowingCriteria u source policy) ↔
    CurrenciesDiffer source cand := by
  have hkey : (narrowingCriteria u source policy).currency =
      source.currency.filter (· ≠ "") := rfl
  rw [CurrencyFits, hkey, CurrenciesDiffer]
  cases source.currency with
  | none => simp
  | some a =>
    cases cand.currency with
    | none => simp
    | some b =>
      by_cases ha : a = ""
      · have hnone : (some a).filter (· ≠ "") = none := by simp [Option.filter, ha]
        rw [hnone]
        simp [ha]
      · rw [filter_of_ne ha]
        simp [truthy_some, ha]

theorem not_amountFits : ¬ AmountFits cand (narrowingCriteria u source policy) ↔
    AmountsDiffer policy source cand := by
  have hkey : (narrowingCriteria u source policy).amountRange =
      if amountTolerance policy = 0 then none
      else source.amount.map fun a => amountWindow a.toRat (amountTolerance policy) := rfl
  rw [AmountFits, hkey, AmountsDiffer]
  by_cases hzero : amountTolerance policy = 0
  · simp [hzero]
  · rw [if_neg hzero]
    simp only [hzero, ne_eq, not_false_eq_true, true_and, not_forall]
    simp

theorem mem_dateFields {p : DateField × Date} :
    p ∈ (narrowingCriteria u source policy).dateFields ↔ p.1.of source = some p.2 := by
  have hkey : (narrowingCriteria u source policy).dateFields =
      [DateField.bookingDate, DateField.valueDate].filterMap fun field =>
        (field.of source).map (field, ·) := rfl
  rw [hkey, List.mem_filterMap]
  constructor
  · rintro ⟨field, -, h⟩
    obtain ⟨d, hd, rfl⟩ := Option.map_eq_some_iff.mp h
    exact hd
  · intro h
    refine ⟨p.1, ?_, ?_⟩
    · cases p.1 <;> simp
    · rw [h]
      rfl

theorem dateWithin_iff : dateWithin cand (narrowingCriteria u source policy) ↔
    ∃ field, DateClose source cand field := by
  have hwindow : (narrowingCriteria u source policy).dateWindowDays = defaultDateWindowDays := rfl
  rw [dateWithin, List.any_eq_true]
  constructor
  · rintro ⟨p, hp, h⟩
    obtain ⟨d', hd', hclose⟩ := (Option.any_eq_true _ _).mp h
    exact ⟨p.1, p.2, mem_dateFields.mp hp, d', hd', by simpa [hwindow] using hclose⟩
  · rintro ⟨field, d, hd, d', hd', hclose⟩
    refine ⟨(field, d), mem_dateFields.mpr hd, (Option.any_eq_true _ _).mpr ⟨d', hd', ?_⟩⟩
    simpa [hwindow] using hclose

theorem dateFields_ne_nil : (narrowingCriteria u source policy).dateFields ≠ [] ↔
    ∃ field : DateField, (field.of source).isSome := by
  constructor
  · intro h
    obtain ⟨p, hp⟩ := List.exists_mem_of_ne_nil _ h
    exact ⟨p.1, Option.isSome_iff_exists.mpr ⟨p.2, mem_dateFields.mp hp⟩⟩
  · rintro ⟨field, h⟩
    obtain ⟨d, hd⟩ := Option.isSome_iff_exists.mp h
    have hmem : (field, d) ∈ (narrowingCriteria u source policy).dateFields :=
      mem_dateFields.mpr hd
    exact List.ne_nil_of_mem hmem

theorem not_dateFits : ¬ DateFits cand (narrowingCriteria u source policy) ↔
    DatesDiffer source cand ∨ DatesCross source cand := by
  have hcand : ¬ (cand.valueDate = none ∧ cand.bookingDate = none) ↔
      ∃ field : DateField, (field.of cand).isSome := by
    rw [DateField.exists_iff, DateField.of, DateField.of]
    cases cand.bookingDate <;> cases cand.valueDate <;> simp
  rw [DateFits, not_or, not_or, ← ne_eq, dateFields_ne_nil, hcand, dateWithin_iff, not_exists]
  constructor
  · rintro ⟨hs, hc, hfar⟩
    by_cases hshared : ∃ field, DateShared source cand field
    · exact .inl ⟨hshared, hfar⟩
    · exact .inr ⟨hs, hc, not_exists.mp hshared⟩
  · rintro (⟨⟨field, hs, hc⟩, hfar⟩ | ⟨hs, hc, hnone⟩)
    · exact ⟨⟨field, hs⟩, ⟨field, hc⟩, hfar⟩
    · refine ⟨hs, hc, fun field hclose => hnone field ?_⟩
      obtain ⟨d, hd, d', hd', -⟩ := hclose
      exact ⟨Option.isSome_iff_exists.mpr ⟨d, hd⟩, Option.isSome_iff_exists.mpr ⟨d', hd'⟩⟩

theorem referenceFits_iff : ReferenceFits u cand (narrowingCriteria u source policy) ↔
    KeyFits (referenceKey u) (referenceOf source) (referenceOf cand) := by
  have hkey : (narrowingCriteria u source policy).referencePrefix =
      (referenceOf source).bind fun p => referenceKey u p.2 := by
    show (((or source.remittanceReference source.externalReference).filter (· ≠ "")).bind
      (normalizeReference u)).map (take 8) = (readOf _ _).bind _
    rw [filter_or]
    rcases readOf source.remittanceReference source.externalReference with _ | p <;> rfl
  have htext : (or cand.remittanceReference cand.externalReference).getD "" =
      textOf (referenceOf cand) := getD_or _ _
  rw [ReferenceFits, hkey, htext, KeyFits]
  rcases referenceOf source with _ | p
  · simp
  · have hread : ∀ pre, (∃ norm ∈ normalizeReference u (textOf (referenceOf cand)),
        take 8 norm = pre) ↔ referenceKey u (textOf (referenceOf cand)) = some pre := by
      intro pre
      rw [referenceKey, Option.map_eq_some_iff]
      rfl
    simp only [hread, Option.bind_some, Option.mem_some_iff, forall_eq']
    cases hnorm : referenceKey u p.2 with
    | none => simp
    | some pre =>
      have hpre : pre ≠ "" := by
        obtain ⟨norm, hnorm', rfl⟩ := Option.map_eq_some_iff.mp hnorm
        exact take_ne_empty (by decide) (normalizeReference_ne hnorm')
      simp [hpre]

theorem accountFits_iff : AccountFits u cand (narrowingCriteria u source policy) ↔
    KeyFits (accountKey u) (accountOf source) (accountOf cand) := by
  have hkey : (narrowingCriteria u source policy).account = (accountOf source).map (·.2) :=
    filter_or _ _
  rw [AccountFits, hkey, getD_or, KeyFits]
  rcases accountOf source with _ | p
  · simp
  · simp [accountKey, accountOf]

/-- A candidate is dropped on a disagreement, or on fields that one of the records lacks. -/
theorem dropped_iff (u : Unicode) (policy : MatchingPolicy) (source cand : MatchRecord) :
    candidateMatches u cand (narrowingCriteria u source policy) = false ↔
      Disagrees u policy source cand ∨ Crosses u source cand := by
  rw [← Bool.not_eq_true, candidateMatches_iff, referenceFits_iff, accountFits_iff]
  simp only [not_and_or, not_currencyFits, not_amountFits, not_dateFits, not_keyFits, Disagrees,
    Crosses]
  tauto

/-- Absence drops a candidate exactly when a criterion crosses and none disagrees. -/
theorem droppedOnDisagreement_iff (u : Unicode) (policy : MatchingPolicy)
    (source cand : MatchRecord) :
    DroppedOnDisagreement u policy source cand ↔
      ¬ (Crosses u source cand ∧ ¬ Disagrees u policy source cand) := by
  rw [DroppedOnDisagreement, dropped_iff]
  constructor
  · rintro h ⟨hcrosses, hagrees⟩
    exact hagrees (h (.inr hcrosses))
  · rintro h (hdisagrees | hcrosses)
    · exact hdisagrees
    · by_contra hagrees
      exact h ⟨hcrosses, hagrees⟩

/-! ## A candidate without an account -/

/-- A payment of which only the transaction and perhaps the account of the debtor is known. -/
def sparsePayment (recordId : String) (debtorAccount : Option String) : MatchRecord where
  recordId := recordId
  recordType := .payment
  organizationId := "org"
  transactionId := some "TX-1"
  debtorAccount := debtorAccount

/-- The candidate has no account, no date and no reference, and is dropped. -/
theorem dropped_without_account :
    candidateMatches .ascii (sparsePayment "c" none) (narrowingCriteria .ascii
      (sparsePayment "s" (some "DE89370400440532013000")) (defaultPolicy "org")) = false ∧
    ¬ DroppedOnDisagreement .ascii (defaultPolicy "org")
      (sparsePayment "s" (some "DE89370400440532013000")) (sparsePayment "c" none) := by
  have hdropped : candidateMatches .ascii (sparsePayment "c" none) (narrowingCriteria .ascii
      (sparsePayment "s" (some "DE89370400440532013000")) (defaultPolicy "org")) = false := by
    decide +kernel
  refine ⟨hdropped, fun h => ?_⟩
  rcases h hdropped with ⟨_, ⟨⟩, _⟩ | ⟨_, _, ⟨⟩, _⟩ | hdates | ⟨_, ⟨⟩, _⟩ | ⟨_, _, _, ⟨⟩, _⟩
  obtain ⟨⟨field, hshared, -⟩, -⟩ := hdates
  cases field with
  | bookingDate => cases hshared
  | valueDate => cases hshared

end PaymentOps.Matching
