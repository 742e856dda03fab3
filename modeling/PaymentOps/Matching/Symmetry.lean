import PaymentOps.Matching.Score

/-!
# Symmetry

Which of the two records is called the source does not matter to the evaluation of a pair, as long
as it does not to the scorers of the fuzzy library: each result of the reversed pair is that of
the pair with its two values swapped.

* `fieldResult_swap`: the comparers, one by one;
* `evaluatePair_symm`: the decision.
-/

namespace PaymentOps.Matching

variable {u : Unicode} {fuzz : Fuzz} {policy : MatchingPolicy} {na nb : Field → Option Value}
  {field : Field} {weight : ℚ} {critical : Bool} {a b : Option Value}

/-- The scorers do not depend on the order of the two texts, and return percentages. -/
structure Fuzz.Symmetric (fuzz : Fuzz) : Prop where
  comm : ∀ algorithm a b, fuzz.algorithm algorithm a b = fuzz.algorithm algorithm b a
  bounds : ∀ algorithm a b,
    0 ≤ fuzz.algorithm algorithm a b ∧ fuzz.algorithm algorithm a b ≤ 100

/-- The result with its two values swapped. -/
def FieldMatchResult.swap (fr : FieldMatchResult) : FieldMatchResult :=
  { fr with normalizedA := fr.normalizedB, normalizedB := fr.normalizedA }

theorem Fuzz.Symmetric.sim_comm (h : fuzz.Symmetric) (s t algorithm : String) :
    fuzz.sim s t algorithm = fuzz.sim t s algorithm := by
  unfold Fuzz.sim
  rw [h.comm]
  exact if_congr or_comm rfl rfl

/-! ## The comparers -/

theorem exactResult_swap {okCode : String} : exactResult field b a weight critical okCode =
    (exactResult field a b weight critical okCode).swap := by
  rcases a with _ | a
  · rcases b with _ | b <;> rfl
  · rcases b with _ | b
    · rfl
    · unfold exactResult
      dsimp only
      by_cases h : a.str = b.str
      · rw [if_pos h, if_pos h.symm]
        rfl
      · rw [if_neg h, if_neg (Ne.symm h)]
        rfl

/-- The difference of two amounts is rounded alike in both directions. -/
theorem withinAmountTolerance_comm (x y tolerance : ℚ) :
    withinAmountTolerance y x tolerance = withinAmountTolerance x y tolerance := by
  have hdiff : |Decimal.context28 (y - x)| = |Decimal.context28 (x - y)| := by
    rw [← neg_sub, Decimal.context28_neg, abs_neg]
  unfold withinAmountTolerance
  rw [hdiff, max_comm (Decimal.context28 |y|)]

theorem amountResult_swap : amountResult field b a weight critical policy =
    (amountResult field a b weight critical policy).swap := by
  rcases a with _ | _ | x
  · rcases b with _ | _ | y <;> rfl
  · rcases b with _ | _ | y <;> rfl
  · rcases b with _ | _ | y
    · rfl
    · rfl
    · have hwithin : (policy.amountTolerances.get field.key).any
          (withinAmountTolerance y.toRat x.toRat) =
            (policy.amountTolerances.get field.key).any
              (withinAmountTolerance x.toRat y.toRat) := by
        congr 1
        funext tolerance
        exact withinAmountTolerance_comm _ _ _
      unfold amountResult
      dsimp only
      rw [hwithin]
      by_cases heq : x.toRat = y.toRat
      · rw [if_pos heq, if_pos heq.symm]
        rfl
      · rw [if_neg heq, if_neg (Ne.symm heq)]
        split_ifs <;> rfl

theorem daysApart_comm (d d' : Date) : d.daysApart d' = d'.daysApart d := by
  unfold Date.daysApart
  omega

theorem dateResult_swap : dateResult field b a weight critical policy =
    (dateResult field a b weight critical policy).swap := by
  rcases a with _ | a
  · rcases b with _ | b <;> rfl
  · rcases b with _ | b
    · rfl
    · unfold dateResult
      dsimp only
      rcases Date.fromisoformat (Text.take 10 a.str) with _ | da
      · rcases Date.fromisoformat (Text.take 10 b.str) with _ | db <;> rfl
      · rcases Date.fromisoformat (Text.take 10 b.str) with _ | db
        · rfl
        · dsimp only
          rw [daysApart_comm db da]
          split_ifs <;> rfl

theorem fuzzyResult_swap (h : fuzz.Symmetric) {algorithm okCode : String} :
    fuzzyResult field b a weight critical fuzz algorithm okCode =
      (fuzzyResult field a b weight critical fuzz algorithm okCode).swap := by
  rcases a with _ | a
  · rcases b with _ | b <;> rfl
  · rcases b with _ | b
    · rfl
    · unfold fuzzyResult
      dsimp only
      by_cases heq : a = b
      · rw [if_pos heq, if_pos heq.symm]
        rfl
      · rw [if_neg heq, if_neg (Ne.symm heq), h.sim_comm]
        rfl

theorem fieldResult_swap (h : fuzz.Symmetric) (field : Field) :
    fieldResult fuzz policy nb na field = (fieldResult fuzz policy na nb field).swap := by
  cases field with
  | amount => exact amountResult_swap
  | bookingDate | valueDate => exact dateResult_swap
  | remittanceReference | externalReference | debtorName | creditorName =>
    exact fuzzyResult_swap h
  | _ => exact exactResult_swap

/-! ## The decision -/

theorem score_swap (results : List FieldMatchResult) :
    score (results.map FieldMatchResult.swap) = score results := by
  have hcounted : counted (results.map FieldMatchResult.swap) =
      (counted results).map FieldMatchResult.swap := List.filter_map
  rw [score_eq, score_eq, weightedMean, weightedMean, hcounted]
  simp only [List.map_map]
  rfl

theorem criticalConflicts_swap (results : List FieldMatchResult) (criticalFields : List String) :
    criticalConflicts (results.map FieldMatchResult.swap) criticalFields =
      criticalConflicts results criticalFields := by
  unfold criticalConflicts
  rw [List.flatMap_map]
  congr 1
  funext fr
  congr 1
  refine if_congr ?_ rfl rfl
  simp only [FieldMatchResult.swap]
  tauto

/-- The codes of the results, each once. -/
def codesOf (results : List FieldMatchResult) : List String :=
  results.foldl (fun codes fr =>
    if codes.contains fr.explanationCode then codes else codes ++ [fr.explanationCode]) []

theorem codesOf_swap (results : List FieldMatchResult) :
    codesOf (results.map FieldMatchResult.swap) = codesOf results := by
  rw [codesOf, List.foldl_map]
  rfl

section

variable {recordA recordB : MatchRecord} {v : String}

theorem matchScore_eq : (evaluatePair u fuzz recordA recordB policy v).matchScore =
    score (evaluatePair u fuzz recordA recordB policy v).fieldResults := rfl

theorem criticalConflicts_eq : (evaluatePair u fuzz recordA recordB policy v).criticalConflicts =
    criticalConflicts (evaluatePair u fuzz recordA recordB policy v).fieldResults
      policy.criticalFields := rfl

theorem explanationCodes_eq : (evaluatePair u fuzz recordA recordB policy v).explanationCodes =
    codesOf (evaluatePair u fuzz recordA recordB policy v).fieldResults := by
  unfold codesOf evaluatePair
  with_reducible rfl

end

theorem fieldResults_swap (h : fuzz.Symmetric) (recordA recordB : MatchRecord) (v v' : String) :
    (evaluatePair u fuzz recordB recordA policy v).fieldResults =
      (evaluatePair u fuzz recordA recordB policy v').fieldResults.map FieldMatchResult.swap := by
  show Field.specs.map _ = (Field.specs.map _).map _
  rw [List.map_map]
  exact List.map_congr_left fun field _ => fieldResult_swap h field

/-- The evaluation of a pair does not depend on the order of its records. -/
theorem evaluatePair_symm (u : Unicode) (fuzz : Fuzz) (h : fuzz.Symmetric)
    (recordA recordB : MatchRecord) (policy : MatchingPolicy) (v : String) :
    let decision := evaluatePair u fuzz recordA recordB policy v
    let reversed := evaluatePair u fuzz recordB recordA policy v
    reversed.matchScore = decision.matchScore ∧
    reversed.classification = decision.classification ∧
    reversed.criticalConflicts = decision.criticalConflicts ∧
    reversed.explanationCodes = decision.explanationCodes ∧
    reversed.fieldResults.map (fun fr => (fr.field, fr.status, fr.similarity)) =
      decision.fieldResults.map fun fr => (fr.field, fr.status, fr.similarity) := by
  intro decision reversed
  have hresults : reversed.fieldResults = decision.fieldResults.map FieldMatchResult.swap :=
    fieldResults_swap h recordA recordB v v
  have hscore : reversed.matchScore = decision.matchScore := by
    rw [matchScore_eq, hresults, score_swap, ← matchScore_eq]
  have hconflicts : reversed.criticalConflicts = decision.criticalConflicts := by
    rw [criticalConflicts_eq, hresults, criticalConflicts_swap, ← criticalConflicts_eq]
  refine ⟨hscore, ?_, hconflicts, ?_, ?_⟩
  · rw [classification_eq, hscore, hconflicts, ← classification_eq]
  · rw [explanationCodes_eq, hresults, codesOf_swap, ← explanationCodes_eq]
  · rw [hresults, List.map_map]
    rfl

theorem symmetric_equality : Fuzz.equality.Symmetric where
  comm algorithm s t := by
    have heq : ∀ s t : String, (if s = t then (100 : ℚ) else 0) = if t = s then 100 else 0 :=
      fun s t => if_congr eq_comm rfl rfl
    unfold Fuzz.algorithm
    split_ifs <;> exact heq s t
  bounds algorithm s t := by
    have hrange : ∀ s t : String, 0 ≤ (if s = t then (100 : ℚ) else 0) ∧
        (if s = t then (100 : ℚ) else 0) ≤ 100 := by
      intro s t
      split_ifs <;> norm_num
    unfold Fuzz.algorithm
    split_ifs <;> exact hrange s t

/-- A payment of a debtor. -/
def paymentOf (recordId debtorName : String) : MatchRecord where
  recordId := recordId
  recordType := .payment
  organizationId := "org"
  debtorName := some debtorName
  currency := some "EUR"

theorem evaluatePair_symm_payments :
    let decision := evaluatePair .ascii .equality (paymentOf "a" "ACME") (paymentOf "b" "GLOBEX")
      (defaultPolicy "org") "0.2.0"
    let reversed := evaluatePair .ascii .equality (paymentOf "b" "GLOBEX") (paymentOf "a" "ACME")
      (defaultPolicy "org") "0.2.0"
    reversed.matchScore = decision.matchScore ∧
    reversed.classification = decision.classification ∧
    reversed.criticalConflicts = decision.criticalConflicts ∧
    reversed.explanationCodes = decision.explanationCodes ∧
    reversed.fieldResults.map (fun fr => (fr.field, fr.status, fr.similarity)) =
      decision.fieldResults.map fun fr => (fr.field, fr.status, fr.similarity) :=
  evaluatePair_symm .ascii .equality symmetric_equality (paymentOf "a" "ACME")
    (paymentOf "b" "GLOBEX") (defaultPolicy "org") "0.2.0"

end PaymentOps.Matching
