import PaymentOps.Matching.Service

/-!
# One iteration of a reconciliation run

What the body of the loop does to the loop state, case by case.  A source is *decided* when its
candidates could be narrowed and evaluated and the best one is not classified `UNMATCHED`;
whether it is depends on the inputs alone, not on the sources before it.

* `iteration_of_undecided`: an undecided source is only counted, as unmatched or as failed;
* `iteration_of_decided`: a decided source is counted and claims before it is persisted.
-/

namespace PaymentOps.Matching

namespace Counts

@[simp] theorem get_bump_self (c : Counts) (b : Bucket) : (c.bump b).get b = c.get b + 1 := by
  cases b <;> rfl

theorem get_bump_of_ne (c : Counts) {b b' : Bucket} (h : b' ≠ b) :
    (c.bump b).get b' = c.get b' := by
  cases b <;> cases b' <;> first | rfl | exact absurd rfl h

@[simp] theorem total_bump (c : Counts) (b : Bucket) : (c.bump b).total = c.total := by
  cases b <;> rfl

@[simp] theorem counted_bump (c : Counts) (b : Bucket) :
    (c.bump b).counted = c.counted + 1 := by
  cases b <;> simp only [bump, counted] <;> omega

end Counts

namespace SourceM

variable {α β : Type} (st : LoopState)

@[simp] theorem exec_pure (a : α) : (pure a : SourceM α).exec st = (.ok a, st) := rfl

@[simp] theorem exec_throw : (throw () : SourceM α).exec st = (.error (), st) := rfl

@[simp] theorem exec_get : (get : SourceM LoopState).exec st = (.ok st, st) := rfl

@[simp] theorem exec_modify (f : LoopState → LoopState) :
    (modify f : SourceM PUnit).exec st = (.ok ⟨⟩, f st) := rfl

@[simp] theorem exec_bind (m : SourceM α) (f : α → SourceM β) :
    (m >>= f).exec st = match m.exec st with
      | (.ok a, st') => (f a).exec st'
      | (.error e, st') => (.error e, st') := by
  show ((m.run >>= ExceptT.bindCont f).run st) = _
  simp only [exec, StateT.run_bind]
  rcases m.run.run st with ⟨_ | a, st'⟩ <;> rfl

end SourceM

namespace RunConfig

variable (cfg : RunConfig)

/-- The best candidate of a source that gets as far as being persisted. -/
def decided (i : ℕ) (src : MatchRecord) : Option (MatchRecord × MatchDecision) :=
  if cfg.faults.narrowing i ∨ cfg.faults.evaluation i then none
  else (cfg.ranked src).head?.filter (·.2.classification ≠ .unmatched)

/-- The classification and the bucket of a decided source. -/
def verdict (src : MatchRecord) (best : MatchRecord × MatchDecision) (st : LoopState) :
    MatchClassification × Bucket :=
  resolve st.claimed src (cfg.ranked src) best

/-- The candidate of a decided source is claimed. -/
def Claims (c : MatchClassification) : Prop := c = .matched ∨ c = .possibleMatch

instance : DecidablePred Claims := fun _ => inferInstanceAs (Decidable (_ ∨ _))

/-- The loop state in which a decided source is about to be persisted. -/
def settled (src : MatchRecord) (best : MatchRecord × MatchDecision) (st : LoopState) :
    LoopState :=
  { st with
    counts := st.counts.bump (cfg.verdict src best st).2
    claimed :=
      if Claims (cfg.verdict src best st).1 then st.claimed.set best.1.recordId src.recordId
      else st.claimed }

variable {cfg} {i : ℕ} {src : MatchRecord} {best : MatchRecord × MatchDecision} {st : LoopState}

theorem ranked_eq_nil : cfg.ranked src = [] ↔ cfg.decisionsFor src = [] := by
  rw [← List.length_eq_zero_iff, ranked, List.length_insertionSort, List.length_eq_zero_iff]

theorem decided_eq_some (h : cfg.decided i src = some best) :
    cfg.faults.narrowing i = false ∧ cfg.faults.evaluation i = false ∧
      ∃ rest, cfg.ranked src = best :: rest ∧ best.2.classification ≠ .unmatched := by
  unfold decided at h
  split_ifs at h with hf
  obtain ⟨hhead, hcls⟩ := Option.filter_eq_some_iff.mp h
  obtain ⟨rest, hrest⟩ := List.head?_eq_some_iff.mp hhead
  simp only [not_or, Bool.not_eq_true] at hf
  exact ⟨hf.1, hf.2, rest, hrest, by simpa using hcls⟩

/-- The three outcomes of `resolve`: ambiguity on the side of the source, a candidate that
another source claimed, and the classification of the pair itself. -/
theorem resolve_cases (claimed : Dict String String) (src : MatchRecord)
    (decisions : List (MatchRecord × MatchDecision)) (best : MatchRecord × MatchDecision) :
    resolve claimed src decisions best = (.duplicateCandidate, .duplicateCandidate) ∨
    resolve claimed src decisions best = (.reviewRequired, .reviewRequired) ∨
    (∀ owner, claimed.get best.1.recordId = some owner → owner = src.recordId) ∧
      (resolve claimed src decisions best).1 = best.2.classification ∧
      (resolve claimed src decisions best).2 ≠ .failed := by
  unfold resolve
  dsimp only
  split
  · exact .inl rfl
  · split
    · exact .inr (.inl rfl)
    · rename_i hown
      refine .inr (.inr ⟨fun owner ho => ?_, ?_⟩)
      · simpa [ho] using hown
      · split <;> simp_all

theorem resolve_of_claimed {claimed : Dict String String} {src : MatchRecord}
    {best : MatchRecord × MatchDecision} {owner : String}
    (decisions : List (MatchRecord × MatchDecision))
    (h : claimed.get best.1.recordId = some owner) (hne : owner ≠ src.recordId) :
    (resolve claimed src decisions best).1 = .duplicateCandidate ∨
      (resolve claimed src decisions best).1 = .reviewRequired := by
  rcases resolve_cases claimed src decisions best with hr | hr | ⟨hown, -⟩
  · exact .inl (by rw [hr])
  · exact .inr (by rw [hr])
  · exact absurd (hown owner h) hne

/-- An undecided source is only counted. -/
theorem iteration_of_undecided (h : cfg.decided i src = none) (st : LoopState) :
    ∃ b, (b = .unmatched ∨ b = .failed) ∧
      cfg.iteration i src st = { st with counts := st.counts.bump b } := by
  by_cases hn : cfg.faults.narrowing i
  · exact ⟨.failed, .inr rfl, by simp [iteration, processSource, SourceM.raiseIf, hn]⟩
  by_cases hd : cfg.decisionsFor src = []
  · exact ⟨.unmatched, .inl rfl, by
      simp [iteration, processSource, SourceM.raiseIf, SourceM.bump, hn, hd]⟩
  by_cases he : cfg.faults.evaluation i
  · exact ⟨.failed, .inr rfl, by
      simp [iteration, processSource, SourceM.raiseIf, hn, hd, he]⟩
  obtain ⟨best, rest, hr⟩ := List.exists_cons_of_ne_nil (mt ranked_eq_nil.mp hd)
  have hu : best.2.classification = .unmatched := by
    by_contra hu
    simp [decided, hn, he, hr, hu] at h
  exact ⟨.unmatched, .inl rfl, by
    simp [iteration, processSource, SourceM.raiseIf, SourceM.bump, hn, hd, he, hr, hu]⟩

/-- A decided source is counted and claims its candidate before the step that may still fail. -/
theorem iteration_of_decided (h : cfg.decided i src = some best) :
    cfg.iteration i src st =
      if cfg.faults.persistence i then
        { cfg.settled src best st with
          counts := (cfg.settled src best st).counts.bump .failed }
      else
        { cfg.settled src best st with
          pending := st.pending ++
            [cfg.candidateRow src best.1 best.2 (cfg.verdict src best st).1] } := by
  obtain ⟨hn, he, rest, hr, hu⟩ := decided_eq_some h
  have hd : cfg.decisionsFor src ≠ [] := by
    rw [ne_eq, ← ranked_eq_nil, hr]
    simp
  have hv : cfg.verdict src best st = resolve st.claimed src (best :: rest) best := by
    rw [verdict, hr]
  by_cases hc : Claims (resolve st.claimed src (best :: rest) best).1 <;>
    by_cases hp : cfg.faults.persistence i
  all_goals
    have hc' := hc
    unfold Claims at hc'
    simp [iteration, processSource, persistCandidate, SourceM.raiseIf, SourceM.bump,
      SourceM.claim, settled, hn, he, hd, hr, hu, hv, hp, hc, hc']

/-! ## The loop -/

theorem visitsFrom_source {sources : List MatchRecord} {v : Visit}
    (h : v ∈ cfg.visitsFrom i st sources) :
    ∃ j, v.index = i + j ∧ sources[j]? = some v.source := by
  induction sources generalizing i st with
  | nil => simp [visitsFrom] at h
  | cons src sources ih =>
    rw [visitsFrom] at h
    rcases List.mem_cons.mp h with rfl | h
    · exact ⟨0, rfl, rfl⟩
    · obtain ⟨j, hj, hs⟩ := ih h
      exact ⟨j + 1, by omega, by simpa using hs⟩

theorem visits_source {sources : List MatchRecord} {v : Visit} (h : v ∈ cfg.visits sources) :
    sources[v.index]? = some v.source := by
  obtain ⟨j, hj, hs⟩ := visitsFrom_source h
  rw [hj, Nat.zero_add]
  exact hs

theorem exists_visitsFrom {sources : List MatchRecord} {j : ℕ} (h : sources[j]? = some src) :
    ∃ v ∈ cfg.visitsFrom i st sources, v.index = i + j ∧ v.source = src := by
  induction sources generalizing i st j with
  | nil => simp at h
  | cons head sources ih =>
    rw [visitsFrom]
    cases j with
    | zero =>
      have hs : head = src := by simpa using h
      exact ⟨⟨i, head, st⟩, by simp, rfl, hs⟩
    | succ j =>
      obtain ⟨v, hv, hi, hs⟩ : ∃ v ∈ cfg.visitsFrom (i + 1) (cfg.iteration i head st) sources,
          v.index = i + 1 + j ∧ v.source = src := ih (by simpa using h)
      exact ⟨v, List.mem_cons_of_mem _ hv, by omega, hs⟩

/-- Every source is visited, at its position. -/
theorem exists_visit {sources : List MatchRecord} (h : sources[i]? = some src) :
    ∃ v ∈ cfg.visits sources, v.index = i ∧ v.source = src := by
  obtain ⟨v, hv, hi, hs⟩ : ∃ v ∈ cfg.visitsFrom 0 (initialState sources) sources,
      v.index = 0 + i ∧ v.source = src := exists_visitsFrom h
  exact ⟨v, hv, by omega, hs⟩

/-- What every iteration keeps holds before each iteration and after the loop. -/
theorem loop_induction {P : LoopState → Prop} {sources : List MatchRecord} (hst : P st)
    (h : ∀ v ∈ cfg.visitsFrom i st sources, P v.before → P (cfg.after v)) :
    (∀ v ∈ cfg.visitsFrom i st sources, P v.before) ∧ P (cfg.loop i st sources) := by
  induction sources generalizing i st with
  | nil => exact ⟨by simp [visitsFrom], hst⟩
  | cons src sources ih =>
    rw [visitsFrom] at h ⊢
    rw [loop]
    have hafter : P (cfg.iteration i src st) := h ⟨i, src, st⟩ (by simp) hst
    obtain ⟨hv, hl⟩ := ih hafter fun v hv => h v (List.mem_cons_of_mem _ hv)
    refine ⟨fun v hmem => ?_, hl⟩
    rcases List.mem_cons.mp hmem with rfl | hmem
    · exact hst
    · exact hv v hmem

/-! ## The run -/

/-- A run that returns has counted its sources in the loop and stored the rows it added. -/
theorem executeReconciliation_ok {sources : List MatchRecord} {s : MatchingStore} {run : MatchRun}
    (h : ((cfg.executeReconciliation sources).run s).outcome = .ok run) :
    run.counts = (cfg.runLoop sources).counts ∧
      (((cfg.executeReconciliation sources).run s).final s).candidates =
        s.candidates ++ (cfg.runLoop sources).pending := by
  unfold executeReconciliation at h ⊢
  rw [Session.read_bind] at h ⊢
  rcases hf : cfg.findRun s with e | row
  · rw [hf, Session.ofExcept_error_bind] at h
    cases h
  · simp only [hf, Session.ofExcept_ok_bind] at h ⊢
    simp only [Session.commit_bind, Session.pure_apply, Session.final_cons, Session.final_nil]
      at h ⊢
    cases h
    exact ⟨rfl, rfl⟩

/-! ## A small run -/

/-- A payment with this transaction. -/
def recordOf (recordId transactionId : String) : MatchRecord where
  recordId := recordId
  recordType := .payment
  organizationId := "org"
  transactionId := some transactionId

/-- A run over one candidate with the default policy. -/
def sampleRun (faults : Faults) : RunConfig where
  unicode := .ascii
  fuzz := .equality
  organizationId := "org"
  runId := 0
  candidateRecords := [recordOf "c" "A"]
  policy := defaultPolicy "org"
  faults := faults

/-- A store with one pending run. -/
def sampleStore : MatchingStore where
  runs := [{ organizationId := "org", policyVersion := "1" }]

end RunConfig

end PaymentOps.Matching
