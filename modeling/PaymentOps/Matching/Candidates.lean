import PaymentOps.Matching.Matcher

/-!
# Candidate retrieval narrowing

`narrowingCriteria` derives structured criteria from a source record, and `candidateMatches`
applies them to one candidate in memory.
-/

namespace PaymentOps.Matching

open Text

/-- The most candidates of a source. -/
def defaultMaxCandidates : ℕ := 20
/-- The days around a date of the source. -/
def defaultDateWindowDays : ℕ := 7
/-- The percentage around the amount of the source. -/
def defaultAmountPct : ℚ := 20

/-- The two date fields that narrowing reads. -/
inductive DateField where
  | bookingDate | valueDate
  deriving DecidableEq, Repr

/-- The date of a record in a field. -/
def DateField.of (record : MatchRecord) : DateField → Option Date
  | bookingDate => record.bookingDate
  | valueDate => record.valueDate

/-- The criteria of `narrowing_criteria`; a key that the dictionary lacks is `none` or empty. -/
structure NarrowingCriteria where
  organizationId : String
  recordType : RecordType
  maxCandidates : ℕ
  currency : Option String
  amountRange : Option (ℚ × ℚ)
  dateWindowDays : ℕ
  dateFields : List (DateField × Date)
  referencePrefix : Option String
  account : Option String

/-- `amount ± amount * tolerance / 100` in decimal arithmetic. -/
def amountWindow (amount tolerance : ℚ) : ℚ × ℚ :=
  let margin := Decimal.context28 (amount * Decimal.context28 (tolerance / 100))
  (Decimal.context28 (amount - margin), Decimal.context28 (amount + margin))

/-- `narrowing_criteria`. -/
def narrowingCriteria (u : Unicode) (record : MatchRecord) (policy : MatchingPolicy)
    (maxCandidates : ℕ := defaultMaxCandidates) : NarrowingCriteria :=
  let tolerance := (policy.amountTolerances.get "amount").getD defaultAmountPct
  let reference := or record.remittanceReference record.externalReference
  let account := or record.debtorAccount record.creditorAccount
  { organizationId := record.organizationId
    recordType := record.recordType
    maxCandidates := maxCandidates
    currency := record.currency.filter (· ≠ "")
    amountRange :=
      if tolerance = 0 then none
      else record.amount.map fun amount => amountWindow amount.toRat tolerance
    dateWindowDays := defaultDateWindowDays
    dateFields := [DateField.bookingDate, DateField.valueDate].filterMap fun field =>
      (field.of record).map (field, ·)
    referencePrefix :=
      ((reference.filter (· ≠ "")).bind (normalizeReference u)).map (take 8)
    account := account.filter (· ≠ "") }

/-- An account as narrowing compares it. -/
def compactAccount (u : Unicode) (account : String) : String :=
  u.upper (replace '-' "" (replace ' ' "" account))

/-- Some date field of the candidate lies within the window of the same field of the source. -/
def dateWithin (cand : MatchRecord) (crit : NarrowingCriteria) : Bool :=
  crit.dateFields.any fun (field, date) =>
    (field.of cand).any fun d => d.daysApart date ≤ crit.dateWindowDays

/-- `_candidate_matches`: no criterion speaks against the candidate. -/
def candidateMatches (u : Unicode) (cand : MatchRecord) (crit : NarrowingCriteria) : Bool :=
  if truthy crit.currency ∧ truthy cand.currency ∧ cand.currency ≠ crit.currency then false
  else if crit.amountRange.any fun (lo, hi) =>
      cand.amount.any fun a => !(lo ≤ a.toRat && a.toRat ≤ hi) then false
  else if crit.dateFields ≠ [] ∧ ¬ (cand.valueDate = none ∧ cand.bookingDate = none) ∧
      ¬ dateWithin cand crit then false
  else if crit.referencePrefix.any fun pre =>
      let ref := (or cand.remittanceReference cand.externalReference).getD ""
      pre ≠ "" && (normalizeReference u ref).all fun norm => take 8 norm ≠ pre then false
  else if crit.account.any fun account =>
      compactAccount u ((or cand.debtorAccount cand.creditorAccount).getD "") ≠
        compactAccount u account then false
  else true

/-- Narrow a bounded candidate set in memory. -/
def filterCandidates (u : Unicode) (source : MatchRecord) (candidates : List MatchRecord)
    (policy : MatchingPolicy) (maxCandidates : ℕ) : List MatchRecord :=
  let crit := narrowingCriteria u source policy maxCandidates
  (candidates.filter fun cand =>
    cand.recordId ≠ source.recordId && candidateMatches u cand crit).take maxCandidates

end PaymentOps.Matching
