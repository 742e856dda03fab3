import PaymentOps.Lib.CalendarText
import PaymentOps.Matching.Symmetry

/-!
# A record against itself

Every comparer finds a value equal to itself, so a record that differs from another in its id only
has the highest score, as soon as one field counts at all.  Dates are compared through a text that
is read back, which works from the year 1000 on.
-/

namespace PaymentOps.Matching

variable {u : Unicode} {fuzz : Fuzz} {policy : MatchingPolicy} {na : Field → Option Value}
  {field : Field} {weight : ℚ} {critical : Bool} {a : Option Value}

/-- What was compared is the same. -/
def Agreeing (fr : FieldMatchResult) : Prop :=
  fr.status = .missing ∨ fr.status = .exact ∧ fr.similarity = 100

/-! ## The comparers -/

theorem agreeing_exactResult {okCode : String} :
    Agreeing (exactResult field a a weight critical okCode) := by
  rcases a with _ | a
  · exact .inl rfl
  · unfold exactResult
    dsimp only
    rw [if_pos rfl]
    exact .inr ⟨rfl, rfl⟩

theorem agreeing_amountResult : Agreeing (amountResult field a a weight critical policy) := by
  rcases a with _ | _ | x
  · exact .inl rfl
  · exact .inl rfl
  · unfold amountResult
    dsimp only
    rw [if_pos rfl]
    exact .inr ⟨rfl, rfl⟩

theorem agreeing_dateResult (hdate : ∀ v ∈ a, (Date.fromisoformat (Text.take 10 v.str)).isSome)
    (htolerance : 0 ≤ (policy.dateTolerances.get field.key).getD 0) :
    Agreeing (dateResult field a a weight critical policy) := by
  rcases a with _ | a
  · exact .inl rfl
  · obtain ⟨d, hd⟩ := Option.isSome_iff_exists.mp (hdate a rfl)
    have hsame : ((d.daysApart d : ℕ) : ℤ) ≤ (policy.dateTolerances.get field.key).getD 0 := by
      simpa [Date.daysApart] using htolerance
    unfold dateResult
    dsimp only
    rw [hd]
    dsimp only
    rw [if_pos hsame]
    exact .inr ⟨rfl, rfl⟩

theorem agreeing_fuzzyResult {algorithm okCode : String} :
    Agreeing (fuzzyResult field a a weight critical fuzz algorithm okCode) := by
  rcases a with _ | a
  · exact .inl rfl
  · unfold fuzzyResult
    dsimp only
    rw [if_pos rfl]
    exact .inr ⟨rfl, rfl⟩

/-- The dates of the record can be read back. -/
def DatesReadable (na : Field → Option Value) : Prop :=
  ∀ field ∈ [Field.bookingDate, Field.valueDate], ∀ v ∈ na field,
    (Date.fromisoformat (Text.take 10 v.str)).isSome

theorem agreeing_fieldResult (hdates : DatesReadable na)
    (htolerances : ∀ p ∈ policy.dateTolerances, 0 ≤ p.2) :
    Agreeing (fieldResult fuzz policy na na field) := by
  have htolerance : ∀ key, 0 ≤ (policy.dateTolerances.get key).getD 0 := by
    intro key
    cases hget : policy.dateTolerances.get key with
    | none => exact le_rfl
    | some tolerance => exact htolerances _ (Dict.mem_of_get hget)
  cases field with
  | amount => exact agreeing_amountResult
  | bookingDate => exact agreeing_dateResult (hdates _ (by simp)) (htolerance _)
  | valueDate => exact agreeing_dateResult (hdates _ (by simp)) (htolerance _)
  | remittanceReference | externalReference | debtorName | creditorName =>
    exact agreeing_fuzzyResult
  | _ => exact agreeing_exactResult

/-! ## The decision -/

theorem score_of_agreeing {results : List FieldMatchResult} (h : ∀ fr ∈ results, Agreeing fr)
    (hcounted : ∃ fr ∈ results, 0 < fr.weight ∧ fr.status ≠ .missing) : score results = 100 := by
  obtain ⟨fr, hfr, hcounts⟩ := hcounted
  have hne : counted results ≠ [] := List.ne_nil_of_mem (mem_counted.mpr ⟨hfr, hcounts⟩)
  have hpos : 0 < ((counted results).map (·.weight)).sum :=
    sum_weights_pos (fun fr hfr => (mem_counted.mp hfr).2.1) hne
  have hall : ∀ fr ∈ counted results, fr.similarity = 100 := fun fr hfr =>
    ((h fr (mem_counted.mp hfr).1).resolve_left (mem_counted.mp hfr).2.2).2
  rw [score_eq, if_neg hpos.not_ge, weightedMean_of_eq counted_weight_nonneg hpos hall]
  exact_mod_cast Decimal.round2_intCast 100

theorem criticalConflicts_of_agreeing {results : List FieldMatchResult}
    (h : ∀ fr ∈ results, Agreeing fr) (criticalFields : List String) :
    criticalConflicts results criticalFields = [] := by
  refine List.flatMap_eq_nil_iff.mpr fun fr hfr => ?_
  have hstatus : fr.status ≠ .mismatch := by
    rcases h fr hfr with hmissing | ⟨hexact, -⟩
    · rw [hmissing]
      decide
    · rw [hexact]
      decide
  rw [if_neg fun hc => hstatus hc.2, if_neg fun hc => hstatus hc.2.1]
  rfl

theorem datesReadable (record : MatchRecord) (hbooking : ∀ d ∈ record.bookingDate, 1000 ≤ d.year)
    (hvalue : ∀ d ∈ record.valueDate, 1000 ≤ d.year) :
    DatesReadable (normalizeRecord u record) := by
  have hread : ∀ (o : Option Date), (∀ d ∈ o, 1000 ≤ d.year) →
      ∀ v ∈ (o.bind normalizeDate).map Value.text,
        (Date.fromisoformat (Text.take 10 v.str)).isSome := by
    rintro (_ | d) hyear v hv
    · cases hv
    · obtain rfl : Value.text d.strftime = v := Option.some.inj hv
      exact Option.isSome_iff_exists.mpr ⟨d, d.fromisoformat_strftime (hyear d rfl)⟩
  intro field hfield
  rcases (by simpa using hfield : field = .bookingDate ∨ field = .valueDate) with rfl | rfl
  · exact hread _ hbooking
  · exact hread _ hvalue

theorem normalizeRecord_recordId (record : MatchRecord) (recordId : String) :
    normalizeRecord u { record with recordId := recordId } = normalizeRecord u record := by
  funext field
  cases field <;> rfl

/-- A record matches its copy under another id, unless nothing of it counts. -/
theorem selfMatch (u : Unicode) (fuzz : Fuzz) (record : MatchRecord) (recordId : String)
    (policy : MatchingPolicy) (v : String)
    (hbooking : ∀ d ∈ record.bookingDate, 1000 ≤ d.year)
    (hvalue : ∀ d ∈ record.valueDate, 1000 ≤ d.year)
    (hthresholds : ∀ p ∈ policy.thresholds, p.2 ≤ 100)
    (htolerances : ∀ p ∈ policy.dateTolerances, 0 ≤ p.2)
    (hcounted : ∃ fr ∈ (evaluatePair u fuzz record { record with recordId := recordId } policy
      v).fieldResults, 0 < fr.weight ∧ fr.status ≠ .missing) :
    let decision := evaluatePair u fuzz record { record with recordId := recordId } policy v
    decision.matchScore = 100 ∧ decision.criticalConflicts = [] ∧
      decision.classification = .matched := by
  intro decision
  have hagree : ∀ fr ∈ decision.fieldResults, Agreeing fr := by
    intro fr hfr
    obtain ⟨field, -, rfl⟩ := List.mem_map.mp hfr
    rw [normalizeRecord_recordId]
    exact agreeing_fieldResult (datesReadable record hbooking hvalue) htolerances
  have hscore : decision.matchScore = 100 := by
    rw [matchScore_eq]
    exact score_of_agreeing hagree hcounted
  have hconflicts : decision.criticalConflicts = [] := by
    rw [criticalConflicts_eq]
    exact criticalConflicts_of_agreeing hagree _
  refine ⟨hscore, hconflicts, matched_of_noConflict hconflicts ?_⟩
  rw [hscore]
  cases hget : policy.thresholds.get "matched" with
  | none => norm_num
  | some threshold => exact hthresholds _ (Dict.mem_of_get hget)

/-- A dated payment of 100. -/
def datedPayment : MatchRecord where
  recordId := "p"
  recordType := .payment
  organizationId := "org"
  amount := some { coefficient := 100 }
  bookingDate := some ⟨2024, 1, 31, by decide⟩
  debtorName := some "ACME S.P.A."

theorem selfMatch_datedPayment :
    let decision := evaluatePair .ascii .equality datedPayment { datedPayment with recordId := "q" }
      (defaultPolicy "org") "0.2.0"
    decision.matchScore = 100 ∧ decision.criticalConflicts = [] ∧
      decision.classification = .matched :=
  selfMatch .ascii .equality datedPayment "q" (defaultPolicy "org") "0.2.0"
    (by rintro d ⟨⟩; decide) (by rintro d ⟨⟩) (by decide +kernel) (by decide +kernel)
    (by decide +kernel)

end PaymentOps.Matching
