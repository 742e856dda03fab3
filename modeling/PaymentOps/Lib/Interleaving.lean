import Mathlib.Data.List.Basic

/-!
# Operations in two steps

An operation reads the store and later writes to it on the strength of what it has read.  Other
operations may read and write in between, and an operation may never get to its write.

* `TwoStep.step` is one step of one of the operations, `step_cases` says what it can do;
* `reached` are the configurations of a run, `Along` is a condition on its steps, and `observe` what
  somebody who watches it notes;
* `observe_of_along` and `reached_iff` are the rules for runs.
-/

/-- The operations `ι` on stores `σ`: the read ends the operation with an answer or leaves what the
operation holds on to; the write is its commit. -/
structure TwoStep (ι σ ρ ω : Type) where
  read : ι → σ → ω ⊕ ρ
  write : ι → ρ → σ → ω × σ

namespace TwoStep

/-- An operation takes its first or its second step. -/
inductive Step (ι : Type) where
  | read (call : ι)
  | write (call : ι)
  deriving DecidableEq, Repr

/-- The store, what the operations between their steps hold, and the answers so far. -/
structure Config (ι σ ρ ω : Type) where
  store : σ
  held : List (ι × ρ) := []
  answers : List (ι × ω) := []

/-- What a session writes to a column that it has loaded: nothing, unless it changed it. -/
def written {α : Type} [DecidableEq α] (loaded new current : α) : α :=
  if new = loaded then current else new

@[simp] theorem written_loaded {α : Type} [DecidableEq α] (loaded new : α) :
    written loaded new loaded = new := by
  unfold written
  split_ifs with h
  · exact h.symm
  · rfl

variable {ι σ ρ ω : Type} [DecidableEq ι] (ops : TwoStep ι σ ρ ω)

/-- A read of an operation that is under way, and a write of one that is not, do nothing. -/
def step (c : Config ι σ ρ ω) : Step ι → Config ι σ ρ ω
  | .read i =>
    match c.held.lookup i with
    | some _ => c
    | none =>
      match ops.read i c.store with
      | .inl answer => { c with answers := c.answers ++ [(i, answer)] }
      | .inr r => { c with held := c.held ++ [(i, r)] }
  | .write i =>
    match c.held.lookup i with
    | none => c
    | some r =>
      { store := (ops.write i r c.store).2
        held := c.held.eraseP (·.1 = i)
        answers := c.answers ++ [(i, (ops.write i r c.store).1)] }

/-- The configuration after a schedule. -/
def run (steps : List (Step ι)) (c : Config ι σ ρ ω) : Config ι σ ρ ω := steps.foldl ops.step c

/-- The configurations of a run, from the first one on. -/
def reached : List (Step ι) → Config ι σ ρ ω → List (Config ι σ ρ ω)
  | [], c => [c]
  | e :: es, c => c :: reached es (ops.step c e)

/-- Each step of a run meets the condition in the configuration in which it is taken. -/
def Along (C : Config ι σ ρ ω → Step ι → Prop) : List (Step ι) → Config ι σ ρ ω → Prop
  | [], _ => True
  | e :: es, c => C c e ∧ Along C es (ops.step c e)

instance decidableAlong (C : Config ι σ ρ ω → Step ι → Prop) [∀ c e, Decidable (C c e)] :
    ∀ es c, Decidable (ops.Along C es c)
  | [], _ => isTrue trivial
  | e :: es, c =>
    have := decidableAlong C es (ops.step c e)
    inferInstanceAs (Decidable (C c e ∧ ops.Along C es (ops.step c e)))

/-- What an observer, who sees each step with the configuration in which it is taken, has noted at
the end of a run. -/
def observe {τ : Type} (f : Config ι σ ρ ω → Step ι → τ → τ) :
    List (Step ι) → Config ι σ ρ ω → τ → τ
  | [], _, t => t
  | e :: es, c, t => observe f es (ops.step c e) (f c e t)

/-- The operation by itself. -/
def alone (i : ι) (s : σ) : ω × σ :=
  match ops.read i s with
  | .inl answer => (answer, s)
  | .inr r => ops.write i r s

variable {ops} {C : Config ι σ ρ ω → Step ι → Prop} {c : Config ι σ ρ ω} {es : List (Step ι)}

/-! ## Steps -/

theorem split_of_lookup {i : ι} {r : ρ} {held : List (ι × ρ)} (h : held.lookup i = some r) :
    ∃ l₁ l₂, held = l₁ ++ (i, r) :: l₂ ∧ held.eraseP (·.1 = i) = l₁ ++ l₂ := by
  induction held with
  | nil => cases h
  | cons p held ih =>
    obtain ⟨j, r'⟩ := p
    by_cases hij : i = j
    · subst hij
      have hr : r' = r := by simpa using h
      exact ⟨[], held, by rw [hr]; rfl, by simp⟩
    · rw [List.lookup_cons, beq_false_of_ne hij] at h
      obtain ⟨l₁, l₂, hl, herase⟩ := ih h
      refine ⟨(j, r') :: l₁, l₂, by rw [hl]; rfl, ?_⟩
      rw [List.eraseP_cons_of_neg (by simpa using Ne.symm hij), herase, List.cons_append]

/-- What a step can do: nothing, end an operation with its read, go on with one, or commit one. -/
theorem step_cases (ops : TwoStep ι σ ρ ω) (c : Config ι σ ρ ω) (e : Step ι) :
    ((∀ i, e = .write i → c.held.lookup i = none) ∧
      (∀ i, e = .read i → (c.held.lookup i).isNone = false) ∧ ops.step c e = c) ∨
    (∃ i answer, e = .read i ∧ ops.read i c.store = .inl answer ∧
      ops.step c e = { c with answers := c.answers ++ [(i, answer)] }) ∨
    (∃ i r, e = .read i ∧ c.held.lookup i = none ∧ ops.read i c.store = .inr r ∧
      ops.step c e = { c with held := c.held ++ [(i, r)] }) ∨
    ∃ i r l₁ l₂, e = .write i ∧ c.held.lookup i = some r ∧ c.held = l₁ ++ (i, r) :: l₂ ∧
      ops.step c e =
        { store := (ops.write i r c.store).2
          held := l₁ ++ l₂
          answers := c.answers ++ [(i, (ops.write i r c.store).1)] } := by
  cases e with
  | read i =>
    cases hheld : c.held.lookup i with
    | some r =>
      left
      refine ⟨fun j hj => (nomatch hj), fun j hj => ?_, by simp only [step, hheld]⟩
      cases hj
      rw [hheld]
      rfl
    | none =>
      cases hread : ops.read i c.store with
      | inl answer => exact .inr (.inl ⟨i, answer, rfl, hread, by simp only [step, hheld, hread]⟩)
      | inr r =>
        exact .inr (.inr (.inl ⟨i, r, rfl, hheld, hread, by simp only [step, hheld, hread]⟩))
  | write i =>
    cases hheld : c.held.lookup i with
    | none =>
      left
      refine ⟨fun j hj => ?_, fun j hj => (nomatch hj), by simp only [step, hheld]⟩
      cases hj
      exact hheld
    | some r =>
      obtain ⟨l₁, l₂, hsplit, herase⟩ := split_of_lookup hheld
      refine .inr (.inr (.inr ⟨i, r, l₁, l₂, rfl, hheld, hsplit, ?_⟩))
      simp only [step, hheld, herase]

/-- An operation that nothing interrupts. -/
theorem run_alone (ops : TwoStep ι σ ρ ω) (i : ι) (s : σ) :
    ops.run [.read i, .write i] ⟨s, [], []⟩ =
      ⟨(ops.alone i s).2, [], [(i, (ops.alone i s).1)]⟩ := by
  simp only [run, List.foldl_cons, List.foldl_nil, alone]
  cases hread : ops.read i s <;> simp [step, hread]

/-! ## Runs -/

theorem run_mem_reached (ops : TwoStep ι σ ρ ω) (es : List (Step ι)) (c : Config ι σ ρ ω) :
    ops.run es c ∈ ops.reached es c := by
  induction es generalizing c with
  | nil => exact List.mem_singleton_self c
  | cons e es ih => exact List.mem_cons_of_mem _ (ih (ops.step c e))

theorem Along.of_append {es' : List (Step ι)} (h : ops.Along C (es ++ es') c) :
    ops.Along C es c := by
  induction es generalizing c with
  | nil => trivial
  | cons e es ih => exact ⟨h.1, ih h.2⟩

/-- What the steps of a run keep, of the configuration and of what an observer has noted, holds at
its end. -/
theorem observe_of_along {τ : Type} {f : Config ι σ ρ ω → Step ι → τ → τ} {t : τ}
    {I : Config ι σ ρ ω → τ → Prop} (hc : I c t)
    (hstep : ∀ c e t, I c t → C c e → I (ops.step c e) (f c e t)) (h : ops.Along C es c) :
    I (ops.run es c) (ops.observe f es c t) := by
  induction es generalizing c t with
  | nil => exact hc
  | cons e es ih => exact ih (hstep c e t hc h.1) h.2

/-- A property of the configurations, and a transitive one of each and the later ones, hold of a
run exactly when all its steps meet the condition under which one step keeps them. -/
theorem reached_iff {I P : Config ι σ ρ ω → Prop}
    {R : Config ι σ ρ ω → Config ι σ ρ ω → Prop}
    (htrans : ∀ {a b d}, R a b → R b d → R a d)
    (hinv : ∀ c e, I c → I (ops.step c e))
    (hstep : ∀ c e, I c → P c → ((P (ops.step c e) ∧ R c (ops.step c e)) ↔ C c e))
    (hI : I c) (hc : P c) :
    ((∀ d ∈ ops.reached es c, P d) ∧ (ops.reached es c).Pairwise R) ↔ ops.Along C es c := by
  induction es generalizing c with
  | nil => simp [reached, Along, hc]
  | cons e es ih =>
    have hhead : ops.step c e ∈ ops.reached es (ops.step c e) := by
      cases es <;> exact List.mem_cons_self
    have hlater : R c (ops.step c e) → (ops.reached es (ops.step c e)).Pairwise R →
        ∀ d ∈ ops.reached es (ops.step c e), R c d := by
      intro hR hpair d hd
      cases es with
      | nil =>
        obtain rfl := List.mem_singleton.mp hd
        exact hR
      | cons e' es =>
        rcases List.mem_cons.mp hd with rfl | hd
        · exact hR
        · exact htrans hR ((List.pairwise_cons.mp hpair).1 d hd)
    rw [reached, Along, List.forall_mem_cons, List.pairwise_cons]
    constructor
    · rintro ⟨⟨-, hP⟩, hRc, hpair⟩
      have hPe := hP _ hhead
      exact ⟨(hstep c e hI hc).mp ⟨hPe, hRc _ hhead⟩, (ih (hinv c e hI) hPe).mp ⟨hP, hpair⟩⟩
    · rintro ⟨hCe, halong⟩
      obtain ⟨hPe, hRe⟩ := (hstep c e hI hc).mpr hCe
      obtain ⟨hP, hpair⟩ := (ih (hinv c e hI) hPe).mpr halong
      exact ⟨⟨hc, hP⟩, hlater hRe hpair, hpair⟩

/-- A property of the configurations holds of a run exactly when all its steps meet the condition
under which one step keeps it. -/
theorem forall_reached_iff {P : Config ι σ ρ ω → Prop}
    (hstep : ∀ c e, P c → (P (ops.step c e) ↔ C c e)) (hc : P c) :
    (∀ d ∈ ops.reached es c, P d) ↔ ops.Along C es c := by
  have h : ((∀ d ∈ ops.reached es c, P d) ∧ (ops.reached es c).Pairwise fun _ _ => True) ↔
      ops.Along C es c := by
    apply reached_iff (I := fun _ => True)
    · exact fun _ _ => trivial
    · exact fun _ _ _ => trivial
    · intro c e _ hP
      rw [and_iff_left trivial]
      exact hstep c e hP
    · trivial
    · exact hc
  rw [← h]
  exact (and_iff_left (List.pairwise_of_forall fun _ _ => trivial)).symm

/-- The same for a condition that is exact only where an invariant of the steps holds. -/
theorem forall_reached_iff_of_inv {I P : Config ι σ ρ ω → Prop}
    (hinv : ∀ c e, I c → I (ops.step c e))
    (hstep : ∀ c e, I c → P c → (P (ops.step c e) ↔ C c e)) (hI : I c) (hc : P c) :
    (∀ d ∈ ops.reached es c, P d) ↔ ops.Along C es c := by
  have h : ((∀ d ∈ ops.reached es c, P d) ∧ (ops.reached es c).Pairwise fun _ _ => True) ↔
      ops.Along C es c := by
    apply reached_iff (I := I)
    · exact fun _ _ => trivial
    · exact hinv
    · intro c e hI hP
      rw [and_iff_left trivial]
      exact hstep c e hI hP
    · exact hI
    · exact hc
  rw [← h]
  exact (and_iff_left (List.pairwise_of_forall fun _ _ => trivial)).symm

end TwoStep
