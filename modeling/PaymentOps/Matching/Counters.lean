import PaymentOps.Matching.Iteration

/-!
# The counters of a reconciliation run

Every source should be counted in exactly one bucket, and a failed one should have claimed
nothing.  The source is counted and claims its candidate before it is persisted, so the
bookkeeping is right exactly when no decided source fails while it is persisted.
-/

namespace PaymentOps.Matching

/-- The iteration counts its source in one bucket, and claims nothing if that bucket is
`failed`. -/
def Isolated (st st' : LoopState) : Prop :=
  (∃ b, st'.counts = st.counts.bump b) ∧
    (st'.counts.failed ≠ st.counts.failed → st'.claimed = st.claimed)

/-- The bookkeeping that a finished run promises. -/
structure Tallied (cfg : RunConfig) (sources : List MatchRecord) (run : MatchRun) : Prop where
  sum : run.counts.matched + run.counts.possibleMatch + run.counts.reviewRequired +
    run.counts.unmatched + run.counts.duplicateCandidate + run.counts.failed = run.counts.total
  total : run.counts.total = sources.length
  isolated : ∀ v ∈ cfg.visits sources, Isolated v.before (cfg.after v)

namespace RunConfig

variable {cfg : RunConfig} {i : ℕ} {src : MatchRecord} {best : MatchRecord × MatchDecision}
  {st : LoopState}

theorem verdict_bucket_ne_failed : (cfg.verdict src best st).2 ≠ .failed := by
  unfold verdict
  rcases resolve_cases st.claimed src (cfg.ranked src) best with h | h | ⟨-, -, h⟩
  · simp [h]
  · simp [h]
  · exact h

theorem failed_bump_of_ne {c : Counts} {b : Bucket} (h : b ≠ .failed) :
    (c.bump b).failed = c.failed := c.get_bump_of_ne h.symm

theorem isolated_of_undecided (h : cfg.decided i src = none) :
    Isolated st (cfg.iteration i src st) := by
  obtain ⟨b, -, hb⟩ := iteration_of_undecided h st
  rw [hb]
  exact ⟨⟨b, rfl⟩, fun _ => rfl⟩

theorem isolated_of_persisted (h : cfg.decided i src = some best)
    (hp : cfg.faults.persistence i = false) : Isolated st (cfg.iteration i src st) := by
  rw [iteration_of_decided h, hp]
  refine ⟨⟨(cfg.verdict src best st).2, rfl⟩, fun hf => absurd ?_ hf⟩
  exact failed_bump_of_ne verdict_bucket_ne_failed

/-- A decided source whose persistence raises is counted twice. -/
theorem not_isolated_of_persistence_fault (h : cfg.decided i src = some best)
    (hp : cfg.faults.persistence i = true) : ¬ Isolated st (cfg.iteration i src st) := by
  rintro ⟨⟨b, hb⟩, -⟩
  rw [iteration_of_decided h, hp] at hb
  have hc : st.counts.counted + 1 + 1 = st.counts.counted + 1 := by
    simpa [settled] using congrArg Counts.counted hb
  omega

theorem isolated_iff : Isolated st (cfg.iteration i src st) ↔
    ((cfg.decided i src).isSome → cfg.faults.persistence i = false) := by
  rcases h : cfg.decided i src with _ | best
  · simpa using isolated_of_undecided h
  · cases hp : cfg.faults.persistence i
    · simpa using isolated_of_persisted h hp
    · simpa using not_isolated_of_persistence_fault h hp

/-- When every iteration counts one source, the buckets add up to the number of sources. -/
theorem counted_loop {sources : List MatchRecord}
    (h : ∀ v ∈ cfg.visitsFrom i st sources, Isolated v.before (cfg.after v)) :
    (cfg.loop i st sources).counts.counted = st.counts.counted + sources.length ∧
      (cfg.loop i st sources).counts.total = st.counts.total := by
  induction sources generalizing i st with
  | nil => exact ⟨rfl, rfl⟩
  | cons src sources ih =>
    rw [visitsFrom] at h
    obtain ⟨⟨b, hb⟩, -⟩ := h ⟨i, src, st⟩ (by simp)
    obtain ⟨hc, ht⟩ := ih fun v hv => h v (List.mem_cons_of_mem _ hv)
    have hb' : (cfg.iteration i src st).counts = st.counts.bump b := hb
    rw [hb', Counts.counted_bump] at hc
    rw [hb', Counts.total_bump] at ht
    rw [loop, List.length_cons]
    exact ⟨by omega, ht⟩

/-- The counters of a run add up, with each source in one bucket, exactly when no source that
has a candidate worth persisting raises while it is persisted. -/
theorem tallied_iff (cfg : RunConfig) (sources : List MatchRecord) (s : MatchingStore)
    (run : MatchRun) (h : ((cfg.executeReconciliation sources).run s).outcome = .ok run) :
    Tallied cfg sources run ↔ ∀ i src, sources[i]? = some src →
      (cfg.decided i src).isSome → cfg.faults.persistence i = false := by
  have hcounts : run.counts = (cfg.runLoop sources).counts := (executeReconciliation_ok h).1
  constructor
  · rintro ⟨-, -, hiso⟩ i src hsrc
    obtain ⟨v, hv, rfl, rfl⟩ := cfg.exists_visit hsrc
    exact isolated_iff.mp (hiso v hv)
  · intro hper
    have hiso : ∀ v ∈ cfg.visits sources, Isolated v.before (cfg.after v) := fun v hv =>
      isolated_iff.mpr (hper v.index v.source (cfg.visits_source hv))
    obtain ⟨hc, ht⟩ := counted_loop hiso
    have htotal : (cfg.runLoop sources).counts.total = sources.length := ht
    have hcounted : (cfg.runLoop sources).counts.counted = sources.length := by
      rw [show (initialState sources).counts.counted = 0 from rfl, Nat.zero_add] at hc
      exact hc
    refine ⟨?_, hcounts ▸ htotal, hiso⟩
    rw [hcounts, htotal]
    exact hcounted

/-- The row of the only source is lost, and the source is counted as matched and as failed. -/
theorem not_tallied_of_persistence_fault :
    ∃ run, (((sampleRun { persistence := fun _ => true }).executeReconciliation
        [recordOf "s" "A"]).run sampleStore).outcome = .ok run ∧
      ¬ Tallied (sampleRun { persistence := fun _ => true }) [recordOf "s" "A"] run := by
  refine ⟨⟨"org", "RECONCILIATION", .partlyFailed, none, "1",
    { total := 1, matched := 1, failed := 1 }, some { total := 1, matched := 1, failed := 1 }⟩,
    by decide +kernel, fun h => ?_⟩
  exact absurd h.sum (by decide)

theorem tallied_iff_sample :
    Tallied (sampleRun {}) [recordOf "s" "A"] ⟨"org", "RECONCILIATION", .completed, none, "1",
        { total := 1, matched := 1 }, some { total := 1, matched := 1 }⟩ ↔
      ∀ i src, [recordOf "s" "A"][i]? = some src →
        ((sampleRun {}).decided i src).isSome → (sampleRun {}).faults.persistence i = false :=
  tallied_iff (sampleRun {}) [recordOf "s" "A"] sampleStore _ (by decide +kernel)

end RunConfig

end PaymentOps.Matching
