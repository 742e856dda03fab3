import PaymentOps.Matching.OneToOne

/-!
# The best candidate

The decision that a run records for a source is the best of its first twenty candidates in the
order of the list: the candidates are cut before they are evaluated.

* `ranked_max`: the first of the ranked decisions has the highest score;
* `recordsBest_first_twenty`: what is recorded, and when the same is true of all candidates.
-/

namespace PaymentOps.Matching

/-! ## Thresholds -/

/-- The score from which a pair is matched. -/
def matchedThreshold (policy : MatchingPolicy) : ℚ := (policy.thresholds.get "matched").getD 85

/-- The score from which a pair is a possible match. -/
def possibleThreshold (policy : MatchingPolicy) : ℚ :=
  (policy.thresholds.get "possible_match").getD 60

/-- The score from which a pair is reviewed. -/
def reviewThreshold (policy : MatchingPolicy) : ℚ := (policy.thresholds.get "review").getD 40

/-- The thresholds are in their order. -/
structure ThresholdsOrdered (policy : MatchingPolicy) : Prop where
  possible_le : possibleThreshold policy ≤ matchedThreshold policy
  review_le : reviewThreshold policy ≤ possibleThreshold policy

/-- Under ordered thresholds a conflict does not change which pairs are unmatched. -/
theorem classify_unmatched_iff {policy : MatchingPolicy} (h : ThresholdsOrdered policy)
    (score : ℚ) (conflicts : List CriticalConflict) :
    classify score conflicts policy = .unmatched ↔ score < reviewThreshold policy := by
  have hpossible := h.possible_le
  have hreview := h.review_le
  unfold matchedThreshold possibleThreshold reviewThreshold at *
  unfold classify
  dsimp only
  split_ifs with hconflicts hr hm hp hr
  · simpa using hr
  · simpa using hr
  · have hle := hreview.trans (hpossible.trans hm)
    simpa using hle
  · have hle := hreview.trans hp
    simpa using hle
  · simpa using hr
  · simpa using hr

namespace RunConfig

variable (cfg : RunConfig)

/-- The candidates of the run that narrowing leaves to a source. -/
def passing (src : MatchRecord) : List MatchRecord :=
  cfg.candidateRecords.filter fun cand =>
    cand.recordId ≠ src.recordId && candidateMatches cfg.unicode cand
      (narrowingCriteria cfg.unicode src cfg.policy defaultMaxCandidates)

/-- The decision on a source and a candidate. -/
def decisionOn (src cand : MatchRecord) : MatchDecision :=
  evaluatePair cfg.unicode cfg.fuzz src cand cfg.policy engineVersion

/-- The row that an iteration adds has the highest score of the candidates, and a source that is
counted as unmatched is unmatched with each of them. -/
def RecordsBest (v : Visit) (rows : List MatchCandidate) (cands : List MatchRecord) : Prop :=
  (∀ row, (cfg.after v).pending = v.before.pending ++ [row] → row ∈ rows ∧
    (∃ cand ∈ cands, row.candidateRecordId = cand.recordId ∧
      row.matchScore = (cfg.decisionOn v.source cand).matchScore) ∧
    ∀ cand ∈ cands, (cfg.decisionOn v.source cand).matchScore ≤ row.matchScore) ∧
  ((cfg.after v).counts = v.before.counts.bump .unmatched →
    ∀ cand ∈ cands, (cfg.decisionOn v.source cand).classification = .unmatched)

variable {cfg} {i : ℕ} {src : MatchRecord} {best : MatchRecord × MatchDecision} {st : LoopState}

theorem mem_ranked {d : MatchRecord × MatchDecision} : d ∈ cfg.ranked src ↔
    ∃ cand ∈ (cfg.passing src).take defaultMaxCandidates, d = (cand, cfg.decisionOn src cand) := by
  rw [ranked, List.mem_insertionSort, decisionsFor, List.mem_map]
  exact exists_congr fun cand => and_congr Iff.rfl eq_comm

/-- The first of the ranked decisions has the highest score. -/
theorem ranked_max {rest : List (MatchRecord × MatchDecision)} (h : cfg.ranked src = best :: rest) :
    (∃ cand ∈ (cfg.passing src).take defaultMaxCandidates,
      best = (cand, cfg.decisionOn src cand)) ∧
    ∀ cand ∈ (cfg.passing src).take defaultMaxCandidates,
      (cfg.decisionOn src cand).matchScore ≤ best.2.matchScore := by
  let r : MatchRecord × MatchDecision → MatchRecord × MatchDecision → Prop :=
    fun a b => b.2.matchScore ≤ a.2.matchScore
  have : Std.Total r := ⟨fun a b => le_total _ _⟩
  have : IsTrans _ r := ⟨fun a b c hab hbc => le_trans hbc hab⟩
  have hsorted : (cfg.ranked src).Pairwise r := List.pairwise_insertionSort r _
  refine ⟨mem_ranked.mp (h ▸ List.mem_cons_self), fun cand hcand => ?_⟩
  have hmem : (cand, cfg.decisionOn src cand) ∈ cfg.ranked src := mem_ranked.mpr ⟨cand, hcand, rfl⟩
  rw [h] at hsorted hmem
  rcases List.mem_cons.mp hmem with heq | hrest
  · rw [← heq]
  · exact (List.pairwise_cons.mp hsorted).1 _ hrest

theorem bump_unmatched {c : Counts} {b : Bucket} (h : c.bump b = c.bump .unmatched) :
    b = .unmatched := by
  by_contra hne
  have hget := congrArg (Counts.get · .unmatched) h
  simp only [Counts.get_bump_self, Counts.get_bump_of_ne c (Ne.symm hne)] at hget
  omega

theorem resolve_ne_unmatched (claimed : Dict String String) (src : MatchRecord)
    (decisions : List (MatchRecord × MatchDecision)) (best : MatchRecord × MatchDecision) :
    (resolve claimed src decisions best).2 ≠ .unmatched := by
  unfold resolve
  dsimp only
  split_ifs
  · simp
  · simp
  · split <;> simp

theorem unmatched_of_undecided (hspared : cfg.Spared i) (hd : cfg.decided i src = none)
    {rest : List (MatchRecord × MatchDecision)} (hr : cfg.ranked src = best :: rest) :
    best.2.classification = .unmatched := by
  obtain ⟨hn, he, -⟩ := hspared
  have hnone : (cfg.ranked src).head?.filter (·.2.classification ≠ .unmatched) = none := by
    simpa [decided, hn, he] using hd
  by_contra hne
  simp [hr, hne] at hnone

/-- A source without a decision is counted as unmatched, below the review threshold with all that
it was evaluated with. -/
theorem after_of_undecided (h : ThresholdsOrdered cfg.policy) {v : Visit}
    (hspared : cfg.Spared v.index) (hd : cfg.decided v.index v.source = none) :
    (cfg.after v).pending = v.before.pending ∧
      (cfg.after v).counts = v.before.counts.bump .unmatched ∧
      ∀ cand ∈ (cfg.passing v.source).take defaultMaxCandidates,
        (cfg.decisionOn v.source cand).matchScore < reviewThreshold cfg.policy := by
  refine ⟨?_, ?_, ?_⟩
  · obtain ⟨b, -, hb⟩ := iteration_of_undecided hd v.before
    rw [after, hb]
  · obtain ⟨hn, he, -⟩ := id hspared
    by_cases hnil : cfg.decisionsFor v.source = []
    · simp [after, iteration, processSource, SourceM.raiseIf, SourceM.bump, hn, hnil]
    · obtain ⟨best, rest, hr⟩ := List.exists_cons_of_ne_nil (mt ranked_eq_nil.mp hnil)
      simp [after, iteration, processSource, SourceM.raiseIf, SourceM.bump, hn, he, hnil, hr,
        unmatched_of_undecided hspared hd hr]
  · intro cand hcand
    obtain ⟨best, rest, hr⟩ :=
      List.exists_cons_of_ne_nil (List.ne_nil_of_mem (mem_ranked.mpr ⟨cand, hcand, rfl⟩))
    obtain ⟨⟨cand', -, rfl⟩, hmax⟩ := ranked_max hr
    have hunmatched := unmatched_of_undecided hspared hd hr
    exact (hmax cand hcand).trans_lt ((classify_unmatched_iff h _ _).mp hunmatched)

/-- The best candidate of a source with a decision is persisted. -/
theorem after_of_decided (h : ThresholdsOrdered cfg.policy) {v : Visit}
    (hspared : cfg.Spared v.index) (hd : cfg.decided v.index v.source = some best) :
    ∃ cand ∈ (cfg.passing v.source).take defaultMaxCandidates, ∃ classification,
      (cfg.after v).pending = v.before.pending ++
        [cfg.candidateRow v.source cand (cfg.decisionOn v.source cand) classification] ∧
      (cfg.after v).counts ≠ v.before.counts.bump .unmatched ∧
      reviewThreshold cfg.policy ≤ (cfg.decisionOn v.source cand).matchScore ∧
      ∀ other ∈ (cfg.passing v.source).take defaultMaxCandidates,
        (cfg.decisionOn v.source other).matchScore ≤ (cfg.decisionOn v.source cand).matchScore := by
  obtain ⟨-, -, hp⟩ := hspared
  obtain ⟨-, -, rest, hr, hmatched⟩ := decided_eq_some hd
  obtain ⟨⟨cand, hcand, rfl⟩, hmax⟩ := ranked_max hr
  refine ⟨cand, hcand, (cfg.verdict v.source (cand, cfg.decisionOn v.source cand) v.before).1,
    ?_, ?_, ?_, hmax⟩
  · rw [after, iteration_of_decided hd, hp]
    rfl
  · rw [after, iteration_of_decided hd, hp]
    exact fun hcounts => resolve_ne_unmatched _ _ _ _ (bump_unmatched hcounts)
  · exact not_lt.mp (mt (classify_unmatched_iff h _ _).mpr hmatched)

theorem recordsBest_of_unmatched (h : ThresholdsOrdered cfg.policy) {v : Visit}
    {rows : List MatchCandidate} {cands : List MatchRecord}
    (hpending : (cfg.after v).pending = v.before.pending)
    (hcounts : (cfg.after v).counts = v.before.counts.bump .unmatched) :
    cfg.RecordsBest v rows cands ↔ ∀ cand ∈ cands,
      (cfg.decisionOn v.source cand).matchScore < reviewThreshold cfg.policy := by
  have hiff : ∀ cand, (cfg.decisionOn v.source cand).classification = .unmatched ↔
      (cfg.decisionOn v.source cand).matchScore < reviewThreshold cfg.policy :=
    fun cand => classify_unmatched_iff h _ _
  constructor
  · intro hbest cand hcand
    exact (hiff cand).mp (hbest.2 hcounts cand hcand)
  · intro hlow
    refine ⟨fun row hrow => ?_, fun _ cand hcand => (hiff cand).mpr (hlow cand hcand)⟩
    rw [hpending] at hrow
    simp at hrow

theorem recordsBest_of_recorded {v : Visit} {rows : List MatchCandidate}
    {cands : List MatchRecord} {cand : MatchRecord} {classification : MatchClassification}
    (hcand : cand ∈ cands)
    (hpending : (cfg.after v).pending = v.before.pending ++
      [cfg.candidateRow v.source cand (cfg.decisionOn v.source cand) classification])
    (hrow : cfg.candidateRow v.source cand (cfg.decisionOn v.source cand) classification ∈ rows)
    (hcounts : (cfg.after v).counts ≠ v.before.counts.bump .unmatched) :
    cfg.RecordsBest v rows cands ↔ ∀ other ∈ cands,
      (cfg.decisionOn v.source other).matchScore ≤ (cfg.decisionOn v.source cand).matchScore := by
  constructor
  · intro hbest
    exact (hbest.1 _ hpending).2.2
  · intro hmax
    refine ⟨fun row heq => ?_, fun h => absurd h hcounts⟩
    rw [hpending] at heq
    obtain rfl := List.singleton_inj.mp (List.append_cancel_left heq)
    exact ⟨hrow, ⟨cand, hcand, rfl, rfl⟩, hmax⟩

/-- Among the first twenty candidates that pass narrowing the best one is recorded, and a source
is counted as unmatched only if each of them is.  The same holds of all candidates that pass
exactly when no later one reaches the review threshold with a higher score than the first twenty. -/
theorem recordsBest_first_twenty (cfg : RunConfig) (sources : List MatchRecord)
    (s : MatchingStore) (run : MatchRun)
    (hrun : ((cfg.executeReconciliation sources).run s).outcome = .ok run)
    (hthresholds : ThresholdsOrdered cfg.policy) (v : Visit) (hv : v ∈ cfg.visits sources)
    (hspared : cfg.Spared v.index) :
    cfg.RecordsBest v (cfg.newRows sources s)
      ((cfg.passing v.source).take defaultMaxCandidates) ∧
    (cfg.RecordsBest v (cfg.newRows sources s) (cfg.passing v.source) ↔
      ∀ cand ∈ (cfg.passing v.source).drop defaultMaxCandidates,
        (cfg.decisionOn v.source cand).matchScore < reviewThreshold cfg.policy ∨
        ∃ other ∈ (cfg.passing v.source).take defaultMaxCandidates,
          (cfg.decisionOn v.source cand).matchScore ≤
            (cfg.decisionOn v.source other).matchScore) := by
  have hall : ∀ {p : MatchRecord → Prop}, (∀ cand ∈ cfg.passing v.source, p cand) ↔
      (∀ cand ∈ (cfg.passing v.source).take defaultMaxCandidates, p cand) ∧
        ∀ cand ∈ (cfg.passing v.source).drop defaultMaxCandidates, p cand := by
    intro p
    rw [← List.forall_mem_append, List.take_append_drop]
  rcases hd : cfg.decided v.index v.source with _ | decision
  · obtain ⟨hpending, hcounts, hlow⟩ := after_of_undecided hthresholds hspared hd
    rw [recordsBest_of_unmatched hthresholds hpending hcounts,
      recordsBest_of_unmatched hthresholds hpending hcounts, hall]
    refine ⟨hlow, ⟨fun h cand hcand => .inl (h.2 cand hcand), fun h => ⟨hlow, ?_⟩⟩⟩
    intro cand hcand
    rcases h cand hcand with hcand | ⟨other, hother, hle⟩
    · exact hcand
    · exact hle.trans_lt (hlow other hother)
  · obtain ⟨best, hbest, classification, hpending, hcounts, hreview, hmax⟩ :=
      after_of_decided hthresholds hspared hd
    have hrow : cfg.candidateRow v.source best (cfg.decisionOn v.source best) classification ∈
        cfg.newRows sources s := by
      rw [newRows_eq hrun]
      refine (after_pending hv).subset ?_
      rw [hpending]
      simp
    rw [recordsBest_of_recorded hbest hpending hrow hcounts,
      recordsBest_of_recorded (List.mem_of_mem_take hbest) hpending hrow hcounts, hall]
    refine ⟨hmax, ⟨fun h cand hcand => .inr ⟨best, hbest, h.2 cand hcand⟩, fun h => ⟨hmax, ?_⟩⟩⟩
    intro cand hcand
    rcases h cand hcand with hlow | ⟨other, hother, hle⟩
    · exact (hlow.trans_le hreview).le
    · exact hle.trans (hmax other hother)

/-! ## A late candidate -/

/-- Twenty candidates that do not match the source `A`, and then one that does. -/
def crowdedRun : RunConfig :=
  { sampleRun {} with
    candidateRecords := List.replicate 20 (recordOf "c" "B") ++ [recordOf "d" "A"] }

theorem thresholdsOrdered_default : ThresholdsOrdered (defaultPolicy "org") where
  possible_le := by decide +kernel
  review_le := by decide +kernel

theorem crowdedRun_visit :
    ⟨0, recordOf "s" "A", initialState [recordOf "s" "A"]⟩ ∈
      crowdedRun.visits [recordOf "s" "A"] := by
  simp [visits, visitsFrom]

/-- The source is counted as unmatched, as the candidate that matches it is the twenty-first. -/
theorem not_recordsBest_crowded :
    ∃ v ∈ crowdedRun.visits [recordOf "s" "A"], crowdedRun.Spared v.index ∧
      ThresholdsOrdered crowdedRun.policy ∧
      (∃ cand ∈ crowdedRun.passing v.source,
        (crowdedRun.decisionOn v.source cand).classification = .matched) ∧
      (crowdedRun.after v).counts = v.before.counts.bump .unmatched ∧
      ¬ crowdedRun.RecordsBest v (crowdedRun.newRows [recordOf "s" "A"] sampleStore)
        (crowdedRun.passing v.source) := by
  refine ⟨_, crowdedRun_visit, ⟨rfl, rfl, rfl⟩, thresholdsOrdered_default, ?_⟩
  have hmatched : (crowdedRun.passing (recordOf "s" "A")).any fun cand =>
      (crowdedRun.decisionOn (recordOf "s" "A") cand).classification = .matched := by
    decide +kernel
  obtain ⟨cand, hcand, hclass⟩ := List.any_eq_true.mp hmatched
  have hclass' : (crowdedRun.decisionOn (recordOf "s" "A") cand).classification = .matched := by
    simpa using hclass
  have hcounts : (crowdedRun.after ⟨0, recordOf "s" "A", initialState [recordOf "s" "A"]⟩).counts =
      (initialState [recordOf "s" "A"]).counts.bump .unmatched := by
    decide +kernel
  refine ⟨⟨cand, hcand, hclass'⟩, hcounts, fun hbest => ?_⟩
  have hunmatched := hbest.2 hcounts cand hcand
  rw [hclass'] at hunmatched
  cases hunmatched

theorem recordsBest_crowded :
    crowdedRun.RecordsBest ⟨0, recordOf "s" "A", initialState [recordOf "s" "A"]⟩
      (crowdedRun.newRows [recordOf "s" "A"] sampleStore)
      ((crowdedRun.passing (recordOf "s" "A")).take defaultMaxCandidates) :=
  (recordsBest_first_twenty crowdedRun [recordOf "s" "A"] sampleStore
    ⟨"org", "RECONCILIATION", .completed, none, "1", { total := 1, unmatched := 1 },
      some { total := 1, unmatched := 1 }⟩ (by decide +kernel) thresholdsOrdered_default
    ⟨0, recordOf "s" "A", initialState [recordOf "s" "A"]⟩ crowdedRun_visit ⟨rfl, rfl, rfl⟩).1

end RunConfig

end PaymentOps.Matching
