import PaymentOps.Matching.Iteration

/-!
# One-to-one matching within a run

The map of claimed candidates only grows and no candidate changes its owner, so a candidate is
persisted as matched for sources of one record id only.

* `Owned` is the loop invariant, `owned_iteration` its step lemma;
* `oneToOne` is the statement about the rows that a run stores.
-/

namespace PaymentOps.Matching

namespace RunConfig

/-- Every row that was persisted as a match is backed by the claim of its source. -/
def Owned (st : LoopState) : Prop :=
  ∀ row ∈ st.pending, Claims row.classification →
    st.claimed.get row.candidateRecordId = some row.sourceRecordId

variable {cfg : RunConfig} {i : ℕ} {src : MatchRecord} {best : MatchRecord × MatchDecision}
  {st : LoopState} {sources : List MatchRecord}

/-- A decided source claims its candidate only when no other source has. -/
theorem settled_extends : st.claimed.Extends (cfg.settled src best st).claimed := by
  unfold settled verdict
  dsimp only
  split_ifs with hc
  · apply Dict.Extends.set
    intro owner ho
    rcases resolve_cases st.claimed src (cfg.ranked src) best with hr | hr | ⟨hown, -⟩
    · simp [hr, Claims] at hc
    · simp [hr, Claims] at hc
    · exact hown owner ho
  · exact Dict.Extends.refl _

theorem iteration_extends : st.claimed.Extends (cfg.iteration i src st).claimed := by
  rcases h : cfg.decided i src with _ | best
  · obtain ⟨b, -, hb⟩ := iteration_of_undecided h st
    rw [hb]
    exact Dict.Extends.refl _
  · rw [iteration_of_decided h]
    split_ifs
    · exact settled_extends
    · exact settled_extends

/-- The rows of an iteration are those before it and at most one more, which is owned. -/
theorem owned_iteration (hst : Owned st) : Owned (cfg.iteration i src st) := by
  intro row hrow hclaims
  have hext : st.claimed.Extends (cfg.iteration i src st).claimed := iteration_extends
  rcases h : cfg.decided i src with _ | best
  · obtain ⟨b, -, hb⟩ := iteration_of_undecided h st
    rw [hb] at hrow
    exact hext _ _ (hst row hrow hclaims)
  · rw [iteration_of_decided h] at hrow hext ⊢
    split_ifs at hrow hext ⊢ with hp
    · exact hext _ _ (hst row hrow hclaims)
    · rcases List.mem_append.mp hrow with hrow | hrow
      · exact hext _ _ (hst row hrow hclaims)
      · obtain rfl := List.mem_singleton.mp hrow
        have hc : Claims (cfg.verdict src best st).1 := hclaims
        simp only [settled, if_pos hc]
        exact Dict.get_set_self _ _ _

/-! ## Rows are only added -/

theorem iteration_pending : st.pending <+: (cfg.iteration i src st).pending := by
  rcases h : cfg.decided i src with _ | best
  · obtain ⟨b, -, hb⟩ := iteration_of_undecided h st
    simp [hb]
  · rw [iteration_of_decided h]
    split_ifs
    · exact List.prefix_refl _
    · exact List.prefix_append _ _

theorem loop_pending : st.pending <+: (cfg.loop i st sources).pending := by
  induction sources generalizing i st with
  | nil => exact List.prefix_refl _
  | cons src sources ih => exact iteration_pending.trans ih

theorem after_pending {v : Visit} (hv : v ∈ cfg.visitsFrom i st sources) :
    (cfg.after v).pending <+: (cfg.loop i st sources).pending := by
  induction sources generalizing i st with
  | nil => simp [visitsFrom] at hv
  | cons src sources ih =>
    rw [visitsFrom] at hv
    rcases List.mem_cons.mp hv with rfl | hv
    · exact loop_pending
    · exact ih hv

/-! ## The rows of a run -/

/-- The rows that a run stores. -/
def newRows (cfg : RunConfig) (sources : List MatchRecord) (s : MatchingStore) :
    List MatchCandidate :=
  (((cfg.executeReconciliation sources).run s).final s).candidates.drop s.candidates.length

theorem newRows_eq {s : MatchingStore} {run : MatchRun}
    (h : ((cfg.executeReconciliation sources).run s).outcome = .ok run) :
    cfg.newRows sources s = (cfg.runLoop sources).pending := by
  rw [newRows, (executeReconciliation_ok h).2, List.drop_left]

theorem owned_runLoop : Owned (cfg.runLoop sources) := by
  have h0 : Owned (initialState sources) := by simp [Owned, initialState]
  exact (loop_induction h0 fun v _ hv => owned_iteration hv).2

/-- Another source has claimed the candidate. -/
def ClaimedByAnother (st : LoopState) (src cand : MatchRecord) : Prop :=
  ∃ owner, st.claimed.get cand.recordId = some owner ∧ owner ≠ src.recordId

/-- No step of the source at position `i` raises. -/
def Spared (cfg : RunConfig) (i : ℕ) : Prop :=
  cfg.faults.narrowing i = false ∧ cfg.faults.evaluation i = false ∧
    cfg.faults.persistence i = false

/-- What the iteration does to a source whose best candidate another source has claimed. -/
theorem iteration_of_claimed (hspared : cfg.Spared i)
    (hbest : (cfg.ranked src).head? = some best) (hcl : ClaimedByAnother st src best.1) :
    if best.2.classification = .unmatched then
      cfg.iteration i src st = { st with counts := st.counts.bump .unmatched }
    else
      ∃ row, (cfg.iteration i src st).pending = st.pending ++ [row] ∧
        row.sourceRecordId = src.recordId ∧ row.candidateRecordId = best.1.recordId ∧
        (row.classification = .reviewRequired ∨ row.classification = .duplicateCandidate) := by
  obtain ⟨hn, he, hp⟩ := hspared
  obtain ⟨rest, hr⟩ := List.head?_eq_some_iff.mp hbest
  split_ifs with hu
  · have hd : cfg.decisionsFor src ≠ [] := by
      rw [ne_eq, ← ranked_eq_nil, hr]
      simp
    simp [iteration, processSource, SourceM.raiseIf, SourceM.bump, hn, he, hd, hr, hu]
  · have hdec : cfg.decided i src = some best := by
      simp [decided, hn, he, hr, hu]
    obtain ⟨owner, ho, hne⟩ := hcl
    refine ⟨cfg.candidateRow src best.1 best.2 (cfg.verdict src best st).1, ?_, rfl, rfl,
      (resolve_of_claimed _ ho hne).symm⟩
    rw [iteration_of_decided hdec, hp]
    rfl

/-- After a run no candidate is persisted as matched for two source record ids, and a source
whose best candidate another source has claimed is persisted for review, unless that candidate
is classified `UNMATCHED`: then it is only counted. -/
theorem oneToOne (cfg : RunConfig) (sources : List MatchRecord) (s : MatchingStore)
    (run : MatchRun) (h : ((cfg.executeReconciliation sources).run s).outcome = .ok run) :
    (∀ row ∈ cfg.newRows sources s, ∀ row' ∈ cfg.newRows sources s,
      Claims row.classification → Claims row'.classification →
      row.candidateRecordId = row'.candidateRecordId →
      row.sourceRecordId = row'.sourceRecordId) ∧
    ∀ v ∈ cfg.visits sources, cfg.Spared v.index →
      ∀ best, (cfg.ranked v.source).head? = some best →
      ClaimedByAnother v.before v.source best.1 →
      if best.2.classification = .unmatched then
        cfg.after v = { v.before with counts := v.before.counts.bump .unmatched }
      else
        ∃ row ∈ cfg.newRows sources s, (cfg.after v).pending = v.before.pending ++ [row] ∧
          row.sourceRecordId = v.source.recordId ∧
          row.candidateRecordId = best.1.recordId ∧
          (row.classification = .reviewRequired ∨
            row.classification = .duplicateCandidate) := by
  rw [newRows_eq h]
  refine ⟨fun row hrow row' hrow' hc hc' hcand => ?_, fun v hv hspared best hbest hcl => ?_⟩
  · have ho : (cfg.runLoop sources).claimed.get row.candidateRecordId =
        some row.sourceRecordId := owned_runLoop row hrow hc
    have ho' : (cfg.runLoop sources).claimed.get row'.candidateRecordId =
        some row'.sourceRecordId := owned_runLoop row' hrow' hc'
    rw [hcand, ho'] at ho
    exact (Option.some.inj ho).symm
  · have hit := iteration_of_claimed hspared hbest hcl
    split_ifs at hit ⊢
    · exact hit
    · obtain ⟨row, hpend, hrow⟩ := hit
      have hmem : row ∈ (cfg.after v).pending := by
        rw [after, hpend]
        simp
      exact ⟨row, (after_pending hv).subset hmem, hpend, hrow⟩

/-- The second source finds only a candidate that the first one claimed and that does not match
it: nothing is persisted for it. -/
theorem unmatched_source_not_persisted :
    ∃ v ∈ (sampleRun {}).visits [recordOf "s" "A", recordOf "t" "B"],
      ∃ best, ((sampleRun {}).ranked v.source).head? = some best ∧
        ClaimedByAnother v.before v.source best.1 ∧
        ∀ row ∈ (sampleRun {}).newRows [recordOf "s" "A", recordOf "t" "B"] sampleStore,
          row.sourceRecordId ≠ v.source.recordId := by
  refine ⟨⟨1, recordOf "t" "B", (sampleRun {}).iteration 0 (recordOf "s" "A")
    (initialState [recordOf "s" "A", recordOf "t" "B"])⟩, by simp [visits, visitsFrom], ?_⟩
  have hhead : ((sampleRun {}).ranked (recordOf "t" "B")).head?.map (·.1.recordId) = some "c" := by
    decide +kernel
  obtain ⟨best, hbest, hid⟩ := Option.map_eq_some_iff.mp hhead
  refine ⟨best, hbest, ⟨"s", ?_, by decide⟩, by decide +kernel⟩
  rw [hid]
  decide +kernel

theorem oneToOne_sample :
    let rows := (sampleRun {}).newRows [recordOf "s" "A", recordOf "t" "A"] sampleStore
    ∀ row ∈ rows, ∀ row' ∈ rows, Claims row.classification → Claims row'.classification →
      row.candidateRecordId = row'.candidateRecordId →
      row.sourceRecordId = row'.sourceRecordId :=
  (oneToOne (sampleRun {}) [recordOf "s" "A", recordOf "t" "A"] sampleStore
    ⟨"org", "RECONCILIATION", .completed, none, "1",
      { total := 2, matched := 1, reviewRequired := 1 },
      some { total := 2, matched := 1, reviewRequired := 1 }⟩ (by decide +kernel)).1

end RunConfig

end PaymentOps.Matching
