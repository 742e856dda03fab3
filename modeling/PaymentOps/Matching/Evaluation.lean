import PaymentOps.Matching.Matcher

/-!
# What the evaluation of a pair amounts to

The weight and the field of each result, the conflicts of a policy without critical fields, and
the classification that follows.

* `NamesConflict`: a party name that differs materially, the one conflict that no policy waives;
* `matched_of_noConflict`: without it, a policy without critical fields matches the pair as soon
  as its score reaches the threshold.
-/

namespace PaymentOps.Matching

variable {u : Unicode} {fuzz : Fuzz} {policy : MatchingPolicy} {source cand : MatchRecord}
  {na nb : Field → Option Value} {field : Field}

@[simp] theorem fieldResult_field : (fieldResult fuzz policy na nb field).field = field := by
  cases field <;>
    simp only [fieldResult, exactResult, amountResult, dateResult, fuzzyResult] <;>
    repeat' split
  all_goals rfl

@[simp] theorem fieldResult_weight : (fieldResult fuzz policy na nb field).weight =
    (policy.fieldWeights.get field.key).getD 0 := by
  cases field <;>
    simp only [fieldResult, exactResult, amountResult, dateResult, fuzzyResult] <;>
    repeat' split
  all_goals rfl

/-- A policy without weights gives every pair the score 0. -/
theorem score_of_weightless {results : List FieldMatchResult} (h : ∀ fr ∈ results, fr.weight = 0) :
    score results = 0 := by
  have hcounted : results.filter (fun fr => 0 < fr.weight ∧ fr.status ≠ .missing) = [] := by
    rw [List.filter_eq_nil_iff]
    intro fr hfr
    simp [h fr hfr]
  unfold score
  dsimp only
  rw [hcounted]
  exact if_pos Rat.le_refl

/-- A comparison of party names that blocks a match. -/
def HardMismatch (fr : FieldMatchResult) : Prop :=
  fr.status = .mismatch ∧ fr.similarity < nameMismatchThreshold ∧
    Text.truthy (fr.normalizedA.map Value.str) ∧ Text.truthy (fr.normalizedB.map Value.str)

/-- Some party name of the pair differs materially. -/
def NamesConflict (u : Unicode) (fuzz : Fuzz) (policy : MatchingPolicy)
    (source cand : MatchRecord) : Prop :=
  ∃ field ∈ [Field.debtorName, Field.creditorName],
    ∃ a ∈ normalizeRecord u source field, ∃ b ∈ normalizeRecord u cand field,
      a ≠ b ∧ a.str ≠ "" ∧ b.str ≠ "" ∧ fuzz.sim a.str b.str
        ((policy.fuzzyAlgorithms.get field.key).getD "token_sort_ratio") < nameMismatchThreshold

theorem hardMismatch_fuzzyResult {a b : Option Value} {weight : ℚ} {critical : Bool}
    {algorithm okCode : String} :
    HardMismatch (fuzzyResult field a b weight critical fuzz algorithm okCode) ↔
      ∃ a' ∈ a, ∃ b' ∈ b, a' ≠ b' ∧ a'.str ≠ "" ∧ b'.str ≠ "" ∧
        fuzz.sim a'.str b'.str algorithm < nameMismatchThreshold := by
  cases a with
  | none => simp [fuzzyResult, HardMismatch, missingResult]
  | some a' =>
    cases b with
    | none => simp [fuzzyResult, HardMismatch, missingResult]
    | some b' =>
      by_cases hab : a' = b'
      · simp [fuzzyResult, HardMismatch, comparedResult, hab]
      · by_cases hsim : fuzz.sim a'.str b'.str algorithm < nameMismatchThreshold
        · have hlow : ¬ 85 ≤ fuzz.sim a'.str b'.str algorithm := by
            intro h85
            have := lt_of_le_of_lt h85 hsim
            norm_num [nameMismatchThreshold] at this
          simp [fuzzyResult, HardMismatch, comparedResult, hab, hsim, hlow, Text.truthy_some]
        · simp [fuzzyResult, HardMismatch, comparedResult, hab, hsim]

theorem hardMismatch_iff (hfield : field ∈ [Field.debtorName, Field.creditorName]) :
    HardMismatch (fieldResult fuzz policy na nb field) ↔
      ∃ a ∈ na field, ∃ b ∈ nb field, a ≠ b ∧ a.str ≠ "" ∧ b.str ≠ "" ∧ fuzz.sim a.str b.str
        ((policy.fuzzyAlgorithms.get field.key).getD "token_sort_ratio") <
          nameMismatchThreshold := by
  have hname : field = .debtorName ∨ field = .creditorName := by simpa using hfield
  rcases hname with rfl | rfl
  · exact hardMismatch_fuzzyResult
  · exact hardMismatch_fuzzyResult

/-- Without critical fields only party names conflict. -/
theorem criticalConflicts_nil {results : List FieldMatchResult} :
    criticalConflicts results [] = [] ↔
      ∀ fr ∈ results, fr.field = .debtorName ∨ fr.field = .creditorName → ¬ HardMismatch fr := by
  rw [criticalConflicts, List.flatMap_eq_nil_iff]
  refine forall₂_congr fun fr _ => ?_
  simp only [List.contains_nil, Bool.false_eq_true, false_and, if_false, List.nil_append,
    ite_eq_right_iff, List.cons_ne_nil, imp_false]
  rw [HardMismatch, not_and]

/-- A material difference of the names is a conflict under every policy. -/
theorem criticalConflicts_of_hard {results : List FieldMatchResult} {fr : FieldMatchResult}
    (hfr : fr ∈ results) (hname : fr.field = .debtorName ∨ fr.field = .creditorName)
    (hhard : HardMismatch fr) (criticalFields : List String) :
    criticalConflicts results criticalFields ≠ [] := by
  intro hnil
  have hboth := List.flatMap_eq_nil_iff.mp hnil fr hfr
  have hnames := (List.append_eq_nil_iff.mp hboth).2
  rw [if_pos ⟨hname, hhard⟩] at hnames
  cases hnames

theorem fieldResult_mem (hfield : field ∈ [Field.debtorName, Field.creditorName]) :
    fieldResult fuzz policy na nb field ∈ Field.specs.map (fieldResult fuzz policy na nb) := by
  have hname : field = .debtorName ∨ field = .creditorName := by simpa using hfield
  rcases hname with rfl | rfl
  · exact List.mem_map_of_mem (by decide)
  · exact List.mem_map_of_mem (by decide)

theorem conflicts_of_names (hcritical : policy.criticalFields = []) {v : String} :
    (evaluatePair u fuzz source cand policy v).criticalConflicts = [] ↔
      ¬ NamesConflict u fuzz policy source cand := by
  show criticalConflicts (Field.specs.map _) policy.criticalFields = [] ↔ _
  rw [hcritical, criticalConflicts_nil]
  constructor
  · rintro h ⟨field, hfield, hhard⟩
    exact h _ (fieldResult_mem hfield) (by simpa using hfield) ((hardMismatch_iff hfield).mpr hhard)
  · rintro h fr hfr hname hhard
    obtain ⟨field, -, rfl⟩ := List.mem_map.mp hfr
    have hfield : field ∈ [Field.debtorName, Field.creditorName] := by simpa using hname
    exact h ⟨field, hfield, (hardMismatch_iff hfield).mp hhard⟩

theorem classification_eq (v : String) : (evaluatePair u fuzz source cand policy v).classification =
    classify (evaluatePair u fuzz source cand policy v).matchScore
      (evaluatePair u fuzz source cand policy v).criticalConflicts policy := rfl

/-- No policy matches a pair whose names differ materially. -/
theorem not_matched_of_namesConflict (h : NamesConflict u fuzz policy source cand) (v : String) :
    (evaluatePair u fuzz source cand policy v).classification ≠ .matched := by
  obtain ⟨field, hfield, hhard⟩ := h
  have hconflicts : (evaluatePair u fuzz source cand policy v).criticalConflicts ≠ [] :=
    criticalConflicts_of_hard (fieldResult_mem hfield) (by simpa using hfield)
      ((hardMismatch_iff hfield).mpr hhard) _
  rw [classification_eq, classify, if_pos hconflicts]
  split_ifs <;> simp

/-- Without a conflict the score decides. -/
theorem matched_of_noConflict {v : String}
    (h : (evaluatePair u fuzz source cand policy v).criticalConflicts = [])
    (hscore : (policy.thresholds.get "matched").getD 85 ≤
      (evaluatePair u fuzz source cand policy v).matchScore) :
    (evaluatePair u fuzz source cand policy v).classification = .matched := by
  rw [classification_eq, h, classify]
  simp [hscore]

end PaymentOps.Matching
