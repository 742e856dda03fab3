import PaymentOps.Lib.JsonDumps
import PaymentOps.Matching.Ranking
import PaymentOps.Matching.Score

/-!
# The evidence of a run as JSON

The rows of a run are encoded by the one commit after the loop.  Their field results hold what
`model_dump` leaves, which is a text where an amount was compared, and the amount itself where the
other record has none.

* `representable_iff`: the results of a pair, value by value;
* `flush_isSome_iff`: the commit of a run.
-/

namespace PaymentOps.Matching

/-- The name of a comparison. -/
def ComparisonType.value : ComparisonType → String
  | exact => "EXACT"
  | fuzzy => "FUZZY"
  | range => "RANGE"
  | none => "NONE"

/-- The name of a status. -/
def FieldStatus.value : FieldStatus → String
  | exact => "EXACT"
  | mismatch => "MISMATCH"
  | missing => "MISSING"
  | notApplicable => "NOT_APPLICABLE"

/-- A normalized value as `model_dump` leaves it. -/
def dumpValue : Option Value → PyValue
  | none => .none
  | some (.text s) => .str s
  | some (.decimal d) => .decimal d

/-- `fr.model_dump()`; the original values are never set. -/
def FieldMatchResult.modelDump (fr : FieldMatchResult) : List (String × PyValue) := [
  ("field", .str fr.field.key), ("comparison_type", .str fr.comparisonType.value),
  ("original_a", .none), ("original_b", .none), ("normalized_a", dumpValue fr.normalizedA),
  ("normalized_b", dumpValue fr.normalizedB), ("similarity", .num fr.similarity),
  ("weight", .num fr.weight), ("critical", .bool fr.critical), ("status", .str fr.status.value),
  ("explanation_code", .str fr.explanationCode)]

/-- `c.model_dump()` -/
def CriticalConflict.modelDump (c : CriticalConflict) : List (String × PyValue) :=
  [("code", .str c.code), ("field", .str c.field.key), ("detail", .str c.detail)]

/-- The three JSON columns of a row. -/
def MatchCandidate.jsonColumns (row : MatchCandidate) : PyValue :=
  .list [.list (row.criticalConflicts.map fun c => .dict c.modelDump),
    .list (row.fieldResults.map fun fr => .dict fr.modelDump),
    .list (row.explanationCodes.map .str)]

/-- What the commit sends to the JSON columns, `none` where the encoder raises. -/
def flush (rows : List MatchCandidate) : Option Json :=
  PyValue.dumps (.list (rows.map MatchCandidate.jsonColumns))

/-- Every value inside the field results is one that JSON can represent. -/
def AllRepresentable (results : List FieldMatchResult) : Prop :=
  ∀ fr ∈ results, ∀ p ∈ fr.modelDump, PyValue.Representable p.2

/-- Both records have an amount, or neither. -/
def AmountsPaired (recordA recordB : MatchRecord) : Prop :=
  recordA.amount.isSome ↔ recordB.amount.isSome

variable {u : Unicode} {fuzz : Fuzz} {policy : MatchingPolicy} {recordA recordB : MatchRecord}
  {na nb : Field → Option Value} {field : Field} {weight : ℚ} {critical : Bool}

/-! ## One result -/

/-- Not an amount. -/
def Textual (a : Option Value) : Prop := ∀ v ∈ a, ∃ s, v = .text s

theorem representable_dumpValue {a : Option Value} :
    PyValue.Representable (dumpValue a) ↔ Textual a := by
  rcases a with _ | s | d
  · exact iff_of_true .none (by simp [Textual])
  · exact iff_of_true (.str s) (by simp [Textual])
  · refine iff_of_false (fun h => nomatch h) (by simp [Textual])

theorem representable_modelDump (fr : FieldMatchResult) :
    (∀ p ∈ fr.modelDump, PyValue.Representable p.2) ↔
      Textual fr.normalizedA ∧ Textual fr.normalizedB := by
  simp only [FieldMatchResult.modelDump, List.forall_mem_cons, List.not_mem_nil, false_imp_iff,
    implies_true, and_true, representable_dumpValue]
  constructor
  · rintro ⟨-, -, -, -, ha, hb, -⟩
    exact ⟨ha, hb⟩
  · rintro ⟨ha, hb⟩
    exact ⟨.str _, .str _, .none, .none, ha, hb, .num _, .num _, .bool _, .str _, .str _⟩

theorem textual_text (s : String) : Textual (some (.text s)) := by
  simp [Textual]

theorem textual_map {o : Option String} : Textual (o.map .text) := by
  intro v hv
  obtain ⟨s, -, rfl⟩ := Option.map_eq_some_iff.mp hv
  exact ⟨s, rfl⟩

theorem textual_normalizeRecord (h : field ≠ .amount) :
    Textual (normalizeRecord u recordA field) := by
  cases field with
  | amount => exact absurd rfl h
  | _ => exact textual_map

/-! ## The comparers -/

/-- Both values of a result are texts or absent. -/
def TextualResult (fr : FieldMatchResult) : Prop :=
  Textual fr.normalizedA ∧ Textual fr.normalizedB

section

variable {a b : Option Value} (ha : Textual a) (hb : Textual b)
include ha hb

theorem textual_exactResult {okCode : String} :
    TextualResult (exactResult field a b weight critical okCode) := by
  unfold exactResult
  split
  · split_ifs
    · exact ⟨ha, hb⟩
    · exact ⟨ha, hb⟩
  · exact ⟨ha, hb⟩

theorem textual_dateResult : TextualResult (dateResult field a b weight critical policy) := by
  unfold dateResult
  split
  · split
    · dsimp only
      split_ifs
      · exact ⟨textual_text _, textual_text _⟩
      · exact ⟨textual_text _, textual_text _⟩
    · exact ⟨ha, hb⟩
  · exact ⟨ha, hb⟩

theorem textual_fuzzyResult {algorithm okCode : String} :
    TextualResult (fuzzyResult field a b weight critical fuzz algorithm okCode) := by
  rw [TextualResult, (fuzzyResult_normalized a b algorithm okCode).1,
    (fuzzyResult_normalized a b algorithm okCode).2]
  exact ⟨ha, hb⟩

end

/-- Two amounts are written as texts, one amount is kept as it is. -/
theorem textual_amountResult {x y : Option Decimal} :
    TextualResult (amountResult field (x.map .decimal) (y.map .decimal) weight critical policy) ↔
      (x.isSome ↔ y.isSome) := by
  have hnone : Textual none := by simp [Textual]
  have hdecimal : ∀ d, ¬ Textual (some (.decimal d)) := by simp [Textual]
  rcases x with _ | x
  · rcases y with _ | y
    · exact iff_of_true ⟨hnone, hnone⟩ Iff.rfl
    · exact iff_of_false (fun h => hdecimal y h.2) (by simp)
  · rcases y with _ | y
    · exact iff_of_false (fun h => hdecimal x h.1) (by simp)
    · refine iff_of_true ?_ (by simp)
      simp only [Option.map_some, amountResult]
      split_ifs
      all_goals exact ⟨textual_text _, textual_text _⟩

theorem textual_fieldResult (h : field ≠ .amount) : TextualResult
    (fieldResult fuzz policy (normalizeRecord u recordA) (normalizeRecord u recordB) field) := by
  have ha : Textual (normalizeRecord u recordA field) := textual_normalizeRecord h
  have hb : Textual (normalizeRecord u recordB field) := textual_normalizeRecord h
  cases field with
  | amount => exact absurd rfl h
  | bookingDate | valueDate => exact textual_dateResult ha hb
  | remittanceReference | externalReference | debtorName | creditorName =>
    exact textual_fuzzyResult ha hb
  | _ => exact textual_exactResult ha hb

/-- The results of a pair can be represented exactly when its amounts are paired. -/
theorem representable_iff (v : String) :
    AllRepresentable (evaluatePair u fuzz recordA recordB policy v).fieldResults ↔
      AmountsPaired recordA recordB := by
  have hresult : ∀ fr, (∀ p ∈ fr.modelDump, PyValue.Representable p.2) ↔ TextualResult fr :=
    representable_modelDump
  have hamount : ∀ o : Option Decimal, (o.bind normalizeAmount).map Value.decimal =
      o.map Value.decimal := by
    rintro (_ | d) <;> rfl
  have hpaired : TextualResult (fieldResult fuzz policy (normalizeRecord u recordA)
      (normalizeRecord u recordB) .amount) ↔ AmountsPaired recordA recordB := by
    show TextualResult (amountResult .amount ((recordA.amount.bind normalizeAmount).map .decimal)
      ((recordB.amount.bind normalizeAmount).map .decimal) _ _ policy) ↔ _
    rw [hamount, hamount]
    exact textual_amountResult
  rw [← hpaired, AllRepresentable]
  simp only [hresult]
  constructor
  · intro h
    exact h _ (List.mem_map_of_mem (by decide))
  · intro h fr hfr
    obtain ⟨field, -, rfl⟩ := List.mem_map.mp hfr
    by_cases hfield : field = .amount
    · rwa [hfield]
    · exact textual_fieldResult hfield

/-! ## The commit -/

theorem representable_jsonColumns (row : MatchCandidate) :
    PyValue.Representable row.jsonColumns ↔ AllRepresentable row.fieldResults := by
  have hconflicts : PyValue.Representable
      (.list (row.criticalConflicts.map fun c => .dict c.modelDump)) := by
    rw [PyValue.representable_list, List.forall_mem_map]
    intro c _
    simp only [PyValue.representable_dict, CriticalConflict.modelDump, List.forall_mem_cons,
      List.not_mem_nil, false_imp_iff, implies_true, and_true]
    exact ⟨.str _, .str _, .str _⟩
  have hcodes : PyValue.Representable (.list (row.explanationCodes.map .str)) := by
    rw [PyValue.representable_list, List.forall_mem_map]
    exact fun s _ => .str s
  have hresults : PyValue.Representable
      (.list (row.fieldResults.map fun fr => .dict fr.modelDump)) ↔
        AllRepresentable row.fieldResults := by
    rw [PyValue.representable_list, List.forall_mem_map]
    exact forall₂_congr fun fr _ => PyValue.representable_dict
  rw [← hresults, MatchCandidate.jsonColumns, PyValue.representable_list]
  simp only [List.forall_mem_cons, List.not_mem_nil, false_imp_iff, implies_true, and_true]
  exact ⟨fun h => h.2.1, fun h => ⟨hconflicts, h, hcodes⟩⟩

theorem flush_isSome (rows : List MatchCandidate) :
    (flush rows).isSome ↔ ∀ row ∈ rows, AllRepresentable row.fieldResults := by
  rw [flush, PyValue.dumps_isSome, PyValue.representable_list, List.forall_mem_map]
  exact forall₂_congr fun row _ => representable_jsonColumns row

namespace RunConfig

variable {cfg : RunConfig} {i : ℕ} {src : MatchRecord} {st : LoopState} {row : MatchCandidate}

/-- The row is the one that an iteration persists. -/
def Persists (cfg : RunConfig) (v : Visit) (row : MatchCandidate) : Prop :=
  ∃ best, cfg.decided v.index v.source = some best ∧ cfg.faults.persistence v.index = false ∧
    row = cfg.candidateRow v.source best.1 best.2 (cfg.verdict v.source best v.before).1

theorem mem_iteration_pending : row ∈ (cfg.iteration i src st).pending ↔
    row ∈ st.pending ∨ cfg.Persists ⟨i, src, st⟩ row := by
  rcases hd : cfg.decided i src with _ | best
  · obtain ⟨b, -, hb⟩ := iteration_of_undecided hd st
    simp [hb, Persists, hd]
  · rw [iteration_of_decided hd]
    by_cases hp : cfg.faults.persistence i
    · rw [if_pos hp]
      simp [settled, Persists, hp]
    · rw [if_neg hp]
      simp only [Bool.not_eq_true] at hp
      simp [Persists, hd, hp]

theorem mem_loop_pending {sources : List MatchRecord} : row ∈ (cfg.loop i st sources).pending ↔
    row ∈ st.pending ∨ ∃ v ∈ cfg.visitsFrom i st sources, cfg.Persists v row := by
  induction sources generalizing i st with
  | nil => simp [loop, visitsFrom]
  | cons src sources ih =>
    rw [loop, visitsFrom, ih, mem_iteration_pending, or_assoc, List.exists_mem_cons_iff]

theorem mem_runLoop_pending {sources : List MatchRecord} : row ∈ (cfg.runLoop sources).pending ↔
    ∃ v ∈ cfg.visits sources, cfg.Persists v row := by
  rw [runLoop, mem_loop_pending, visits]
  simp [initialState]

theorem decided_decisionOn {best : MatchRecord × MatchDecision}
    (h : cfg.decided i src = some best) : best.2 = cfg.decisionOn src best.1 := by
  obtain ⟨-, -, rest, hr, -⟩ := decided_eq_some h
  obtain ⟨⟨cand, -, rfl⟩, -⟩ := ranked_max hr
  rfl

/-- The field results of a pair can be represented exactly when both records have an amount or
neither has one, and the commit of a run succeeds exactly when this is so for every source and
the candidate that is persisted for it. -/
theorem flush_isSome_iff (cfg : RunConfig) (sources : List MatchRecord) :
    (∀ (recordA recordB : MatchRecord) (policy : MatchingPolicy) (v : String),
      AllRepresentable (evaluatePair cfg.unicode cfg.fuzz recordA recordB policy v).fieldResults ↔
        AmountsPaired recordA recordB) ∧
    ((flush (cfg.runLoop sources).pending).isSome ↔
      ∀ v ∈ cfg.visits sources, ∀ best, cfg.decided v.index v.source = some best →
        cfg.faults.persistence v.index = false → AmountsPaired v.source best.1) := by
  refine ⟨fun recordA recordB policy v => representable_iff v, ?_⟩
  have hrow : ∀ (v : Visit) (best : MatchRecord × MatchDecision),
      cfg.decided v.index v.source = some best → ∀ classification,
        (AllRepresentable (cfg.candidateRow v.source best.1 best.2 classification).fieldResults ↔
          AmountsPaired v.source best.1) := by
    intro v best hd classification
    show AllRepresentable best.2.fieldResults ↔ _
    rw [decided_decisionOn hd]
    exact representable_iff _
  rw [flush_isSome]
  constructor
  · intro h v hv best hd hp
    exact (hrow v best hd _).mp (h _ (mem_runLoop_pending.mpr ⟨v, hv, best, hd, hp, rfl⟩))
  · intro h row hmem
    obtain ⟨v, hv, best, hd, hp, rfl⟩ := mem_runLoop_pending.mp hmem
    exact (hrow v best hd _).mpr (h v hv best hd hp)

/-- A payment that may have an amount. -/
def payment (recordId transactionId : String) (amount : Option Decimal) : MatchRecord :=
  { recordOf recordId transactionId with amount := amount }

/-- The first source matches, and the second one, whose candidate has no amount, makes the commit
of both fail. -/
theorem flush_fails_on_unpaired :
    ¬ AllRepresentable (evaluatePair .ascii .equality (payment "t" "B" (some ⟨false, 100, 0⟩))
        (payment "d" "B" none) (defaultPolicy "org") engineVersion).fieldResults ∧
    flush ({ sampleRun {} with
        candidateRecords := [payment "c" "A" none, payment "d" "B" none] : RunConfig }.runLoop
      [payment "s" "A" none, payment "t" "B" (some ⟨false, 100, 0⟩)]).pending = none ∧
    (flush ({ sampleRun {} with
        candidateRecords := [payment "c" "A" none, payment "d" "B" none] : RunConfig }.runLoop
      [payment "s" "A" none]).pending).isSome := by
  refine ⟨?_, Option.not_isSome_iff_eq_none.mp (by decide +kernel), by decide +kernel⟩
  rw [representable_iff]
  simp [AmountsPaired, payment, recordOf]

end RunConfig

end PaymentOps.Matching
