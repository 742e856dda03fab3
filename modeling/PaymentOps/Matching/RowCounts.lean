import PaymentOps.Matching.OneToOne

/-!
# The counters and the rows of a run

The counters of a run are its report, the rows are what operators work through.  A source is counted
before its row is persisted, so a counter says what is stored, and what was lost besides.

* `iteration_rows`, `iteration_sources`: what one source does to both;
* `report_accounts`: every source ends as a stored row, as unmatched or as failed, and each counter
  exceeds the stored rows by the rows that were lost.
-/

namespace PaymentOps.Matching

/-- The counter for the rows with a classification. -/
def bucketOf : MatchClassification → Bucket
  | .matched => .matched
  | .possibleMatch => .possibleMatch
  | .unmatched => .unmatched
  | .reviewRequired => .reviewRequired
  | .duplicateCandidate => .duplicateCandidate

/-- The rows that a counter should count. -/
def rowsIn (b : Bucket) (rows : List MatchCandidate) : ℕ :=
  rows.countP fun row => bucketOf row.classification = b

/-- The sources of such a counter may have a row. -/
def Bucket.persisted (b : Bucket) : Bool := b ≠ .unmatched && b ≠ .failed

theorem rowsIn_append (b : Bucket) (rows : List MatchCandidate) (row : MatchCandidate) :
    rowsIn b (rows ++ [row]) =
      rowsIn b rows + if bucketOf row.classification = b then 1 else 0 := by
  rw [rowsIn, rowsIn, List.countP_append, List.countP_singleton]
  simp only [decide_eq_true_eq]

theorem Counts.get_bump (c : Counts) (b b' : Bucket) :
    (c.bump b').get b = c.get b + if b' = b then 1 else 0 := by
  by_cases h : b' = b
  · rw [h, get_bump_self, if_pos rfl]
  · rw [get_bump_of_ne c (Ne.symm h), if_neg h, Nat.add_zero]

namespace RunConfig

variable {cfg : RunConfig} {i : ℕ} {src : MatchRecord} {best : MatchRecord × MatchDecision}
  {st : LoopState} {b : Bucket}

/-- The source is counted in the bucket, and its row is lost. -/
def lost (cfg : RunConfig) (b : Bucket) (v : Visit) : Bool :=
  cfg.faults.persistence v.index &&
    (cfg.decided v.index v.source).any fun best => (cfg.verdict v.source best v.before).2 = b

theorem classify_ne_duplicate (score : ℚ) (conflicts : List CriticalConflict)
    (policy : MatchingPolicy) : classify score conflicts policy ≠ .duplicateCandidate := by
  unfold classify
  dsimp only
  split_ifs <;> exact MatchClassification.noConfusion

/-- The row of a source is counted in the bucket of its classification. -/
theorem verdict_bucket (h : cfg.decided i src = some best) (st : LoopState) :
    (cfg.verdict src best st).2 = bucketOf (cfg.verdict src best st).1 ∧
      (cfg.verdict src best st).2.persisted := by
  obtain ⟨-, -, rest, hrest, hne⟩ := decided_eq_some h
  have hmem : best ∈ cfg.decisionsFor src :=
    (List.mem_insertionSort _).mp (hrest ▸ List.mem_cons_self : best ∈ cfg.ranked src)
  obtain ⟨cand, -, hbest⟩ := List.mem_map.mp hmem
  have hdup : best.2.classification ≠ .duplicateCandidate := by
    rw [← hbest]
    exact classify_ne_duplicate _ _ _
  unfold verdict resolve
  dsimp only
  split_ifs
  · exact ⟨rfl, rfl⟩
  · exact ⟨rfl, rfl⟩
  · cases hcls : best.2.classification with
    | matched => exact ⟨rfl, rfl⟩
    | possibleMatch => exact ⟨rfl, rfl⟩
    | reviewRequired => exact ⟨rfl, rfl⟩
    | unmatched => exact absurd hcls hne
    | duplicateCandidate => exact absurd hcls hdup

/-- What a source adds to a counter is a row, or a row that is lost. -/
theorem iteration_rows (hb : b.persisted) (cfg : RunConfig) (i : ℕ) (src : MatchRecord)
    (st : LoopState) :
    (cfg.iteration i src st).counts.get b + rowsIn b st.pending =
      st.counts.get b + rowsIn b (cfg.iteration i src st).pending +
        if cfg.lost b ⟨i, src, st⟩ then 1 else 0 := by
  simp only [Bucket.persisted, Bool.and_eq_true, decide_eq_true_eq] at hb
  rcases h : cfg.decided i src with _ | best
  · obtain ⟨b', hb', hit⟩ := iteration_of_undecided h st
    have hne : b' ≠ b := by
      rcases hb' with rfl | rfl
      · exact Ne.symm hb.1
      · exact Ne.symm hb.2
    rw [hit, lost, h, Counts.get_bump, if_neg hne, Option.any_none, Bool.and_false,
      if_neg Bool.false_ne_true]
    rfl
  · have hcounted : (cfg.settled src best st).counts.get b =
        st.counts.get b + if (cfg.verdict src best st).2 = b then 1 else 0 := Counts.get_bump _ _ _
    rw [iteration_of_decided h]
    simp only [lost, h, Option.any_some]
    cases hp : cfg.faults.persistence i with
    | false =>
      simp only [Bool.false_eq_true, if_false, Bool.false_and]
      rw [rowsIn_append, hcounted, (verdict_bucket h st).1]
      exact (Nat.add_right_comm _ _ _).trans (Nat.add_assoc _ _ _)
    | true =>
      simp only [if_true, Bool.true_and, decide_eq_true_eq]
      rw [Counts.get_bump, if_neg (Ne.symm hb.2), hcounted, Nat.add_zero]
      exact Nat.add_right_comm _ _ _

/-- A source becomes a row, or it is counted as unmatched or as failed. -/
theorem iteration_sources (cfg : RunConfig) (i : ℕ) (src : MatchRecord) (st : LoopState) :
    (cfg.iteration i src st).pending.length + (cfg.iteration i src st).counts.unmatched +
        (cfg.iteration i src st).counts.failed =
      st.pending.length + st.counts.unmatched + st.counts.failed + 1 := by
  have hunmatched : ∀ (c : Counts) b, (c.bump b).unmatched =
      c.unmatched + if b = .unmatched then 1 else 0 := fun c b => c.get_bump .unmatched b
  have hfailed : ∀ (c : Counts) b, (c.bump b).failed = c.failed + if b = .failed then 1 else 0 :=
    fun c b => c.get_bump .failed b
  rcases h : cfg.decided i src with _ | best
  · obtain ⟨b', hb', hit⟩ := iteration_of_undecided h st
    rw [hit]
    rcases hb' with rfl | rfl
    · simp only [hunmatched, hfailed, if_true, reduceCtorEq, if_false]
      omega
    · simp only [hunmatched, hfailed, if_true, reduceCtorEq, if_false]
      omega
  · obtain ⟨-, hpersisted⟩ := verdict_bucket h st
    simp only [Bucket.persisted, Bool.and_eq_true, decide_eq_true_eq] at hpersisted
    rw [iteration_of_decided h]
    split_ifs
    · simp only [settled, hunmatched, hfailed, if_true, reduceCtorEq, if_false, hpersisted.1,
        hpersisted.2]
      omega
    · simp only [settled, hunmatched, hfailed, if_false, hpersisted.1, hpersisted.2,
        List.length_append, List.length_singleton]
      omega

/-! ## The loop -/

theorem loop_rows (hb : b.persisted) (cfg : RunConfig) (i : ℕ) (st : LoopState)
    (sources : List MatchRecord) :
    (cfg.loop i st sources).counts.get b + rowsIn b st.pending =
      st.counts.get b + rowsIn b (cfg.loop i st sources).pending +
        (cfg.visitsFrom i st sources).countP (cfg.lost b) := by
  induction sources generalizing i st with
  | nil => rfl
  | cons src sources ih =>
    have hstep := iteration_rows hb cfg i src st
    have hrest := ih (i + 1) (cfg.iteration i src st)
    rw [loop, visitsFrom, List.countP_cons]
    omega

theorem loop_sources (cfg : RunConfig) (i : ℕ) (st : LoopState) (sources : List MatchRecord) :
    (cfg.loop i st sources).pending.length + (cfg.loop i st sources).counts.unmatched +
        (cfg.loop i st sources).counts.failed =
      st.pending.length + st.counts.unmatched + st.counts.failed + sources.length := by
  induction sources generalizing i st with
  | nil => rfl
  | cons src sources ih =>
    have hstep := iteration_sources cfg i src st
    have hrest := ih (i + 1) (cfg.iteration i src st)
    rw [loop, List.length_cons]
    omega

/-! ## The report -/

/-- No row is lost exactly when no source with a candidate worth persisting fails there. -/
theorem none_lost_iff (cfg : RunConfig) (sources : List MatchRecord) :
    (∀ b : Bucket, b.persisted → (cfg.visits sources).countP (cfg.lost b) = 0) ↔
      ∀ i src, sources[i]? = some src →
        (cfg.decided i src).isSome → cfg.faults.persistence i = false := by
  constructor
  · intro hnone i src hsrc hdec
    obtain ⟨best, hbest⟩ := Option.isSome_iff_exists.mp hdec
    obtain ⟨v, hv, rfl, rfl⟩ := cfg.exists_visit hsrc
    by_contra hp
    have hlost : cfg.lost (cfg.verdict v.source best v.before).2 v := by
      simp only [lost, hbest, Option.any_some, decide_true, Bool.and_true]
      exact Bool.of_not_eq_false hp
    exact List.countP_eq_zero.mp (hnone _ (verdict_bucket hbest v.before).2) v hv hlost
  · intro hper b _
    apply List.countP_eq_zero.mpr
    intro v hv hlost
    obtain ⟨hp, hany⟩ := Bool.and_eq_true_iff.mp hlost
    obtain ⟨best, hbest, -⟩ := (Option.any_eq_true _ _).mp hany
    have hspared : cfg.faults.persistence v.index = false :=
      hper v.index v.source (visits_source hv) (Option.isSome_of_eq_some hbest)
    exact absurd (hspared.symm.trans hp) Bool.noConfusion

/-- Every source ends as a stored row, as unmatched or as failed.  Each other counter counts the
stored rows with its classification and the rows that were lost, so the report agrees with the
rows exactly when no source that has a candidate worth persisting raises while it is persisted. -/
theorem report_accounts (cfg : RunConfig) (sources : List MatchRecord) (s : MatchingStore)
    (run : MatchRun) (h : ((cfg.executeReconciliation sources).run s).outcome = .ok run) :
    (cfg.newRows sources s).length + run.counts.unmatched + run.counts.failed = sources.length ∧
    (∀ b : Bucket, b.persisted → run.counts.get b =
      rowsIn b (cfg.newRows sources s) + (cfg.visits sources).countP (cfg.lost b)) ∧
    ((∀ b : Bucket, b.persisted → run.counts.get b = rowsIn b (cfg.newRows sources s)) ↔
      ∀ i src, sources[i]? = some src →
        (cfg.decided i src).isSome → cfg.faults.persistence i = false) := by
  rw [newRows_eq h, (executeReconciliation_ok h).1, ← none_lost_iff]
  have hsources := loop_sources cfg 0 (initialState sources) sources
  have hrows : ∀ b : Bucket, b.persisted → (cfg.runLoop sources).counts.get b =
      rowsIn b (cfg.runLoop sources).pending + (cfg.visits sources).countP (cfg.lost b) := by
    intro b hb
    have hloop := loop_rows hb cfg 0 (initialState sources) sources
    have hget : (initialState sources).counts.get b = 0 := by
      cases b <;> rfl
    rw [hget, Nat.zero_add] at hloop
    exact hloop
  refine ⟨hsources.trans (Nat.zero_add _), hrows, ?_⟩
  apply forall_congr'
  intro b
  apply imp_congr_right
  intro hb
  have := hrows b hb
  omega

theorem report_accounts_sample :
    ((sampleRun {}).newRows [recordOf "s" "A"] sampleStore).length + 0 + 0 = 1 :=
  (report_accounts (sampleRun {}) [recordOf "s" "A"] sampleStore
    ⟨"org", "RECONCILIATION", .completed, none, "1", { total := 1, matched := 1 },
      some { total := 1, matched := 1 }⟩ (by decide +kernel)).1

end RunConfig

end PaymentOps.Matching
