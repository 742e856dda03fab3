import PaymentOps.Matching.Normalization

/-!
# Pair evaluation

`evaluatePair` compares two records field by field and derives a score in 0..100, the critical
conflicts and a classification.  The similarity functions of the fuzzy library are parameters.
Scores are idealised: the weighted mean and its rounding are over exact rationals where the code
computes with doubles, so a score may differ from the code's in its last place.
-/

namespace PaymentOps.Matching

/-- The scorers of the fuzzy library. -/
structure Fuzz where
  ratio : String → String → ℚ
  partialRatio : String → String → ℚ
  tokenSortRatio : String → String → ℚ
  tokenSetRatio : String → String → ℚ

namespace Fuzz

/-- The scorer of a name, the token sort ratio by default. -/
def algorithm (fuzz : Fuzz) (name : String) : String → String → ℚ :=
  if name = "ratio" then fuzz.ratio
  else if name = "partial_ratio" then fuzz.partialRatio
  else if name = "token_set_ratio" then fuzz.tokenSetRatio
  else fuzz.tokenSortRatio

/-- The characters that a fuzzy comparison reads. -/
def maxFuzzyLen : ℕ := 512

/-- `_sim`: both inputs are capped, the result is clamped to 0..100. -/
def sim (fuzz : Fuzz) (a b algorithm : String) : ℚ :=
  if a = "" ∨ b = "" then 0
  else
    min 100 (max 0 (fuzz.algorithm algorithm (Text.take maxFuzzyLen a) (Text.take maxFuzzyLen b)))

/-- Equal texts have similarity 100, all others 0. -/
def equality : Fuzz where
  ratio a b := if a = b then 100 else 0
  partialRatio a b := if a = b then 100 else 0
  tokenSortRatio a b := if a = b then 100 else 0
  tokenSetRatio a b := if a = b then 100 else 0

end Fuzz

/-- A party-name similarity below this bound blocks automatic matching. -/
def nameMismatchThreshold : ℚ := 70

/-- The code of a conflict in a field. -/
def conflictCode : Field → String
  | .currency => "MATCH-CRITICAL-CURRENCY-CONFLICT"
  | .transactionId => "MATCH-CRITICAL-TXID-CONFLICT"
  | .debtorAccount | .creditorAccount => "MATCH-CRITICAL-IBAN-CONFLICT"
  | .amount => "MATCH-CRITICAL-AMOUNT-CONFLICT"
  | _ => "MATCH-CRITICAL-CONFLICT"

/-- The code of agreement in a field. -/
def exactCode : Field → String
  | .transactionId => "MATCH-TXID-EXACT"
  | .endToEndId => "MATCH-E2E-EXACT"
  | .debtorAccount | .creditorAccount => "MATCH-IBAN-EXACT"
  | .debtorAgent | .creditorAgent => "MATCH-BIC-EXACT"
  | .currency => "MATCH-CURRENCY-EXACT"
  | .country => "MATCH-COUNTRY-EXACT"
  | .remittanceReference | .externalReference => "MATCH-REF-EXACT"
  | .debtorName | .creditorName => "MATCH-NAME-HIGH-SIMILARITY"
  | _ => "MATCH-FIELD-EXACT"

section comparers

variable (field : Field) (na nb : Option Value) (weight : ℚ) (critical : Bool)

/-- The result of a comparison for which one side is absent. -/
def missingResult (kind : ComparisonType) : FieldMatchResult where
  field := field
  comparisonType := kind
  normalizedA := na
  normalizedB := nb
  similarity := 0
  weight := weight
  critical := critical
  status := .missing
  explanationCode := "MATCH-FIELD-MISSING"

/-- The result of a comparison of two present values. -/
def comparedResult (kind : ComparisonType) (a b : Value) (similarity : ℚ) (status : FieldStatus)
    (code : String) : FieldMatchResult where
  field := field
  comparisonType := kind
  normalizedA := some a
  normalizedB := some b
  similarity := similarity
  weight := weight
  critical := critical
  status := status
  explanationCode := code

/-- `_exact_result`: 100 for equal texts, 0 for others. -/
def exactResult (okCode : String) : FieldMatchResult :=
  match na, nb with
  | some a, some b =>
    if a.str = b.str then comparedResult field weight critical .exact a b 100 .exact okCode
    else comparedResult field weight critical .exact a b 0 .mismatch (conflictCode field)
  | _, _ => missingResult field na nb weight critical .exact

/-- The amounts differ by at most the tolerance, in percent of the larger one. -/
def withinAmountTolerance (a b tolerance : ℚ) : Bool :=
  let diff := |Decimal.context28 (a - b)|
  let base := max (max (Decimal.context28 |a|) (Decimal.context28 |b|)) 1
  diff ≤ Decimal.context28 (base * Decimal.context28 (tolerance / 100))

/-- `_amount_result`: equal, or within the tolerance of the policy. -/
def amountResult (policy : MatchingPolicy) : FieldMatchResult :=
  match na, nb with
  | some (.decimal a), some (.decimal b) =>
    let compared := comparedResult field weight critical .range (.text a.toString)
      (.text b.toString)
    if a.toRat = b.toRat then compared 100 .exact "MATCH-AMOUNT-EXACT"
    else if (policy.amountTolerances.get field.key).any (withinAmountTolerance a.toRat b.toRat)
    then compared 100 .exact "MATCH-AMOUNT-WITHIN-TOLERANCE"
    else compared 0 .mismatch
      (if critical then "MATCH-CRITICAL-AMOUNT-CONFLICT" else "MATCH-AMOUNT-MISMATCH")
  | _, _ => missingResult field na nb weight critical .range

/-- `_date_result`: within the days of the policy. -/
def dateResult (policy : MatchingPolicy) : FieldMatchResult :=
  match na, nb with
  | some a, some b =>
    match Date.fromisoformat (Text.take 10 a.str), Date.fromisoformat (Text.take 10 b.str) with
    | some da, some db =>
      let compared := comparedResult field weight critical .range (.text da.isoformat)
        (.text db.isoformat)
      if (da.daysApart db : ℤ) ≤ (policy.dateTolerances.get field.key).getD 0 then
        compared 100 .exact "MATCH-DATE-WITHIN-TOLERANCE"
      else compared 0 .mismatch "MATCH-DATE-OUTSIDE-TOLERANCE"
    | _, _ => comparedResult field weight critical .range a b 0 .mismatch "MATCH-DATE-INVALID"
  | _, _ => missingResult field na nb weight critical .range

/-- `_fuzzy_result`: the similarity of the normalized texts. -/
def fuzzyResult (fuzz : Fuzz) (algorithm okCode : String) : FieldMatchResult :=
  match na, nb with
  | some a, some b =>
    if a = b then comparedResult field weight critical .fuzzy a b 100 .exact okCode
    else
      let sim := fuzz.sim a.str b.str algorithm
      comparedResult field weight critical .fuzzy a b sim (if 85 ≤ sim then .exact else .mismatch)
        (if 85 ≤ sim then "MATCH-NAME-HIGH-SIMILARITY"
        else if 60 ≤ sim then "MATCH-NAME-MEDIUM-SIMILARITY"
        else "MATCH-NAME-LOW-SIMILARITY")
  | _, _ => missingResult field na nb weight critical .fuzzy

end comparers

/-- `_FIELD_SPECS`, in order. -/
def Field.specs : List Field :=
  [.transactionId, .endToEndId, .debtorAccount, .creditorAccount, .debtorAgent, .creditorAgent,
    .currency, .country, .amount, .bookingDate, .valueDate, .remittanceReference,
    .externalReference, .debtorName, .creditorName]

/-- The comparison of one field under a policy. -/
def fieldResult (fuzz : Fuzz) (policy : MatchingPolicy) (na nb : Field → Option Value)
    (field : Field) : FieldMatchResult :=
  let weight := (policy.fieldWeights.get field.key).getD 0
  let critical := policy.criticalFields.contains field.key
  match field with
  | .amount => amountResult field (na field) (nb field) weight critical policy
  | .bookingDate | .valueDate => dateResult field (na field) (nb field) weight critical policy
  | .remittanceReference | .externalReference | .debtorName | .creditorName =>
    fuzzyResult field (na field) (nb field) weight critical fuzz
      ((policy.fuzzyAlgorithms.get field.key).getD "token_sort_ratio") (exactCode field)
  | _ => exactResult field (na field) (nb field) weight critical (exactCode field)

/-- The conflicts in critical fields. -/
def criticalConflicts (results : List FieldMatchResult) (criticalFields : List String) :
    List CriticalConflict :=
  results.flatMap fun fr =>
    (if criticalFields.contains fr.field.key ∧ fr.status = .mismatch then
      [{ code := conflictCode fr.field, field := fr.field,
         detail := "critical field '" ++ fr.field.key ++ "' mismatch" }]
    else []) ++
    (if (fr.field = .debtorName ∨ fr.field = .creditorName) ∧ fr.status = .mismatch ∧
        fr.similarity < nameMismatchThreshold ∧ Text.truthy (fr.normalizedA.map Value.str) ∧
        Text.truthy (fr.normalizedB.map Value.str) then
      [{ code := "MATCH-CRITICAL-NAME-CONFLICT", field := fr.field,
         detail := "party name '" ++ fr.field.key ++ "' differs materially" }]
    else [])

/-- The weighted mean of the similarities of the fields that could be compared. -/
def score (results : List FieldMatchResult) : ℚ :=
  let counted := results.filter fun fr => 0 < fr.weight ∧ fr.status ≠ .missing
  let totalWeight := (counted.map (·.weight)).sum
  let weighted := (counted.map fun fr => fr.weight * fr.similarity).sum
  if totalWeight ≤ 0 then 0 else Decimal.round2 (weighted / totalWeight)

/-- `_classify`: a conflict holds the pair back, else the thresholds decide. -/
def classify (score : ℚ) (conflicts : List CriticalConflict) (policy : MatchingPolicy) :
    MatchClassification :=
  let matchedT := (policy.thresholds.get "matched").getD 85
  let possibleT := (policy.thresholds.get "possible_match").getD 60
  let reviewT := (policy.thresholds.get "review").getD 40
  if conflicts ≠ [] then
    if reviewT ≤ score then .reviewRequired else .unmatched
  else if matchedT ≤ score then .matched
  else if possibleT ≤ score then .possibleMatch
  else if reviewT ≤ score then .reviewRequired
  else .unmatched

/-- Evaluate a single record pair against a policy. -/
def evaluatePair (u : Unicode) (fuzz : Fuzz) (recordA recordB : MatchRecord)
    (policy : MatchingPolicy) (engineVersion : String := "0.1.0") : MatchDecision :=
  let na := normalizeRecord u recordA
  let nb := normalizeRecord u recordB
  let fieldResults := Field.specs.map (fieldResult fuzz policy na nb)
  let conflicts := criticalConflicts fieldResults policy.criticalFields
  let matchScore := score fieldResults
  { recordAId := recordA.recordId
    recordBId := recordB.recordId
    classification := classify matchScore conflicts policy
    matchScore := matchScore
    criticalConflicts := conflicts
    fieldResults := fieldResults
    explanationCodes := fieldResults.foldl (fun codes fr =>
      if codes.contains fr.explanationCode then codes else codes ++ [fr.explanationCode]) []
    policyVersion := toString policy.version
    engineVersion := engineVersion }

end PaymentOps.Matching
