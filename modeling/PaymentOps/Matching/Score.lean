import PaymentOps.Lib.Rounding
import PaymentOps.Lib.WeightedMean
import PaymentOps.Matching.Evaluation

/-!
# The score and the guards

The score of a pair as the weighted mean of similarities in 0..100, and what a pair without
conflicts cannot have.

* `score_bounds`: the score is in 0..100, whatever the weights are;
* `scoreOrRaise_eq`: its division is never one by zero;
* `evaluatePair_guarded`: no score gets past a critical mismatch or a materially different name.
-/

namespace PaymentOps.Matching

variable {u : Unicode} {fuzz : Fuzz} {policy : MatchingPolicy} {recordA recordB : MatchRecord}
  {na nb : Field → Option Value} {field : Field} {weight : ℚ} {critical : Bool}

/-! ## Similarities -/

/-- The similarity is a percentage. -/
def InRange (fr : FieldMatchResult) : Prop := 0 ≤ fr.similarity ∧ fr.similarity ≤ 100

theorem inRange_missing {a b : Option Value} {kind : ComparisonType} :
    InRange (missingResult field a b weight critical kind) := ⟨le_rfl, by norm_num [missingResult]⟩

theorem inRange_compared {kind : ComparisonType} {a b : Value} {similarity : ℚ}
    {status : FieldStatus} {code : String} (h0 : 0 ≤ similarity) (h100 : similarity ≤ 100) :
    InRange (comparedResult field weight critical kind a b similarity status code) := ⟨h0, h100⟩

theorem Fuzz.sim_bounds (a b algorithm : String) :
    0 ≤ fuzz.sim a b algorithm ∧ fuzz.sim a b algorithm ≤ 100 := by
  unfold Fuzz.sim
  split_ifs
  · exact ⟨le_rfl, by norm_num⟩
  · exact ⟨le_min (by norm_num) (le_max_left _ _), min_le_left _ _⟩

theorem inRange_exactResult {a b : Option Value} {okCode : String} :
    InRange (exactResult field a b weight critical okCode) := by
  unfold exactResult
  split
  · split_ifs
    · exact inRange_compared (by norm_num) le_rfl
    · exact inRange_compared le_rfl (by norm_num)
  · exact inRange_missing

theorem inRange_amountResult {a b : Option Value} :
    InRange (amountResult field a b weight critical policy) := by
  unfold amountResult
  split
  · dsimp only
    split_ifs
    · exact inRange_compared (by norm_num) le_rfl
    · exact inRange_compared (by norm_num) le_rfl
    · exact inRange_compared le_rfl (by norm_num)
    · exact inRange_compared le_rfl (by norm_num)
  · exact inRange_missing

theorem inRange_dateResult {a b : Option Value} :
    InRange (dateResult field a b weight critical policy) := by
  unfold dateResult
  split
  · split
    · dsimp only
      split_ifs
      · exact inRange_compared (by norm_num) le_rfl
      · exact inRange_compared le_rfl (by norm_num)
    · exact inRange_compared le_rfl (by norm_num)
  · exact inRange_missing

theorem inRange_fuzzyResult {a b : Option Value} {algorithm okCode : String} :
    InRange (fuzzyResult field a b weight critical fuzz algorithm okCode) := by
  unfold fuzzyResult
  split
  · split_ifs
    · exact inRange_compared (by norm_num) le_rfl
    · exact inRange_compared (Fuzz.sim_bounds _ _ _).1 (Fuzz.sim_bounds _ _ _).2
  · exact inRange_missing

theorem inRange_fieldResult : InRange (fieldResult fuzz policy na nb field) := by
  cases field with
  | amount => exact inRange_amountResult
  | bookingDate | valueDate => exact inRange_dateResult
  | remittanceReference | externalReference | debtorName | creditorName =>
    exact inRange_fuzzyResult
  | _ => exact inRange_exactResult

/-! ## The score -/

/-- The results that the score counts. -/
def counted (results : List FieldMatchResult) : List FieldMatchResult :=
  results.filter fun fr => 0 < fr.weight ∧ fr.status ≠ .missing

theorem mem_counted {results : List FieldMatchResult} {fr : FieldMatchResult} :
    fr ∈ counted results ↔ fr ∈ results ∧ 0 < fr.weight ∧ fr.status ≠ .missing := by
  simp [counted]

theorem score_eq (results : List FieldMatchResult) : score results =
    if ((counted results).map (·.weight)).sum ≤ 0 then 0
    else Decimal.round2 (weightedMean (counted results) (·.weight) (·.similarity)) := rfl

theorem counted_weight_nonneg {results : List FieldMatchResult} :
    ∀ fr ∈ counted results, 0 ≤ fr.weight := fun _ hfr => (mem_counted.mp hfr).2.1.le

theorem score_bounds {results : List FieldMatchResult} (h : ∀ fr ∈ results, InRange fr) :
    0 ≤ score results ∧ score results ≤ 100 := by
  rw [score_eq]
  split_ifs with htotal
  · exact ⟨le_rfl, by norm_num⟩
  · have hpos := not_le.mp htotal
    have hrange : ∀ fr ∈ counted results, InRange fr := fun fr hfr => h fr (mem_counted.mp hfr).1
    have hlow : ((0 : ℤ) : ℚ) ≤ weightedMean (counted results) (·.weight) (·.similarity) :=
      le_weightedMean counted_weight_nonneg hpos fun fr hfr => by simpa using (hrange fr hfr).1
    have hhigh : weightedMean (counted results) (·.weight) (·.similarity) ≤ ((100 : ℤ) : ℚ) :=
      weightedMean_le counted_weight_nonneg hpos fun fr hfr => by simpa using (hrange fr hfr).2
    exact ⟨by exact_mod_cast Decimal.le_round2 hlow, by exact_mod_cast Decimal.round2_le hhigh⟩

/-- `a / b`, which raises `ZeroDivisionError` when `b` is zero. -/
def divide (a b : ℚ) : Option ℚ := if b = 0 then none else some (a / b)

/-- `_score` with the division that may raise. -/
def scoreOrRaise (results : List FieldMatchResult) : Option ℚ :=
  let counted := results.filter fun fr => 0 < fr.weight ∧ fr.status ≠ .missing
  let totalWeight := (counted.map (·.weight)).sum
  let weighted := (counted.map fun fr => fr.weight * fr.similarity).sum
  if totalWeight ≤ 0 then some 0 else (divide weighted totalWeight).map Decimal.round2

theorem scoreOrRaise_eq (results : List FieldMatchResult) :
    scoreOrRaise results = some (score results) := by
  unfold scoreOrRaise score
  dsimp only
  split_ifs with htotal
  · rfl
  · rw [divide, if_neg (not_le.mp htotal).ne']
    rfl

/-! ## The guards -/

theorem normalizeName_ne {name norm : String} (h : normalizeName u name = some norm) :
    norm ≠ "" := by
  unfold normalizeName Text.orNone at h
  dsimp only at h
  split_ifs at h with hempty
  obtain rfl := Option.some.inj h
  exact hempty

/-- A normalized text is never empty. -/
theorem normalizeText_ne {f : String → Option String} (hf : ∀ s t, f s = some t → t ≠ "")
    {raw : Option String} {v : Value} (h : normalizeText f raw = some v) : v.str ≠ "" := by
  obtain ⟨t, ht, rfl⟩ := Option.map_eq_some_iff.mp h
  obtain ⟨s, -, hs⟩ := Option.bind_eq_some_iff.mp ht
  exact hf s t hs

theorem name_ne_empty (hname : field = .debtorName ∨ field = .creditorName) {v : Value}
    (h : normalizeRecord u recordA field = some v) : v.str ≠ "" := by
  rcases hname with rfl | rfl
  · exact normalizeText_ne (fun _ _ => normalizeName_ne) h
  · exact normalizeText_ne (fun _ _ => normalizeName_ne) h

/-- A name that is present on both sides is materially different when its similarity is low. -/
theorem hardMismatch_of_low {a b : Value} (ha : na field = some a) (hb : nb field = some b)
    (hname : field = .debtorName ∨ field = .creditorName) (hane : a.str ≠ "") (hbne : b.str ≠ "")
    (hlow : (fieldResult fuzz policy na nb field).similarity < nameMismatchThreshold) :
    HardMismatch (fieldResult fuzz policy na nb field) := by
  rw [hardMismatch_iff (by simpa using hname)]
  have hfuzzy : fieldResult fuzz policy na nb field = fuzzyResult field (na field) (nb field)
      ((policy.fieldWeights.get field.key).getD 0) (policy.criticalFields.contains field.key) fuzz
      ((policy.fuzzyAlgorithms.get field.key).getD "token_sort_ratio") (exactCode field) := by
    rcases hname with rfl | rfl <;> rfl
  rw [hfuzzy, ha, hb, fuzzyResult] at hlow
  split_ifs at hlow with heq
  · exact absurd hlow (by norm_num [comparedResult, nameMismatchThreshold])
  · exact ⟨a, ha, b, hb, heq, hane, hbne, hlow⟩

/-- Every mismatch of a critical field is a conflict. -/
theorem criticalConflicts_of_mismatch {results : List FieldMatchResult} {fr : FieldMatchResult}
    {criticalFields : List String} (hfr : fr ∈ results)
    (hcritical : criticalFields.contains fr.field.key) (hstatus : fr.status = .mismatch) :
    criticalConflicts results criticalFields ≠ [] := by
  intro hnil
  have hboth := List.flatMap_eq_nil_iff.mp hnil fr hfr
  have hfields := (List.append_eq_nil_iff.mp hboth).1
  rw [if_pos ⟨hcritical, hstatus⟩] at hfields
  cases hfields

theorem no_conflicts_of_match {score : ℚ} {conflicts : List CriticalConflict}
    (h : classify score conflicts policy = .matched ∨
      classify score conflicts policy = .possibleMatch) : conflicts = [] := by
  by_contra hne
  rw [classify, if_pos hne] at h
  split_ifs at h <;> simp at h

theorem fuzzyResult_normalized (a b : Option Value) (algorithm okCode : String) :
    (fuzzyResult field a b weight critical fuzz algorithm okCode).normalizedA = a ∧
      (fuzzyResult field a b weight critical fuzz algorithm okCode).normalizedB = b := by
  unfold fuzzyResult
  rcases a with _ | a
  · exact ⟨rfl, rfl⟩
  · rcases b with _ | b
    · exact ⟨rfl, rfl⟩
    · dsimp only
      by_cases h : a = b
      · rw [if_pos h]
        exact ⟨rfl, rfl⟩
      · rw [if_neg h]
        exact ⟨rfl, rfl⟩

/-- The names of a result are those of the records. -/
theorem name_of_fieldResult (hname : field = .debtorName ∨ field = .creditorName) :
    (fieldResult fuzz policy na nb field).normalizedA = na field ∧
      (fieldResult fuzz policy na nb field).normalizedB = nb field := by
  rcases hname with rfl | rfl
  · exact fuzzyResult_normalized _ _ _ _
  · exact fuzzyResult_normalized _ _ _ _

/-- The score of a pair is a percentage whose division never fails, and a pair that is matched,
or possibly, has no mismatch in a critical field and no party name, present on both sides, that
differs materially. -/
theorem evaluatePair_guarded (u : Unicode) (fuzz : Fuzz) (recordA recordB : MatchRecord)
    (policy : MatchingPolicy) (v : String) :
    let decision := evaluatePair u fuzz recordA recordB policy v
    (0 ≤ decision.matchScore ∧ decision.matchScore ≤ 100) ∧
    scoreOrRaise decision.fieldResults = some decision.matchScore ∧
    (decision.classification = .matched ∨ decision.classification = .possibleMatch →
      ∀ fr ∈ decision.fieldResults,
        (fr.field.key ∈ policy.criticalFields → fr.status ≠ .mismatch) ∧
        (fr.field = .debtorName ∨ fr.field = .creditorName → fr.normalizedA.isSome →
          fr.normalizedB.isSome → nameMismatchThreshold ≤ fr.similarity)) := by
  intro decision
  refine ⟨score_bounds ?_, scoreOrRaise_eq _, fun hmatch fr hfr => ?_⟩
  · intro fr hfr
    obtain ⟨field, -, rfl⟩ := List.mem_map.mp hfr
    exact inRange_fieldResult
  · have hnil : criticalConflicts decision.fieldResults policy.criticalFields = [] :=
      no_conflicts_of_match hmatch
    refine ⟨fun hcritical hstatus => ?_, fun hname ha hb => ?_⟩
    · exact criticalConflicts_of_mismatch hfr (by simpa using hcritical) hstatus hnil
    · by_contra hlow
      obtain ⟨field, -, rfl⟩ := List.mem_map.mp hfr
      rw [fieldResult_field] at hname
      rw [(name_of_fieldResult hname).1] at ha
      rw [(name_of_fieldResult hname).2] at hb
      obtain ⟨a, ha⟩ := Option.isSome_iff_exists.mp ha
      obtain ⟨b, hb⟩ := Option.isSome_iff_exists.mp hb
      have hhard := hardMismatch_of_low ha hb hname (name_ne_empty hname ha)
        (name_ne_empty hname hb) (not_le.mp hlow)
      exact criticalConflicts_of_hard hfr (by rwa [fieldResult_field]) hhard _ hnil

end PaymentOps.Matching
