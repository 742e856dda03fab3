import Mathlib.Data.List.Basic

/-!
# Sessions that commit

A session runs against a store and leaves a trail of committed stores behind.  An exception
stops it, and everything committed before the exception stays.

* `Session` is the monad, `transact` its only writing operation;
* `Session.Keeps` and `Session.Triple` are the rules for what every committed store satisfies;
* `Session.Leaves` and `Session.Ascends` say what a session does not change or only adds to;
* `Session.Restores` says what every committed store satisfies and what the last one has again;
* `Session.visited` lists the stores in which the iterations of a loop start;
* `Session.crash` is the store left when the commit after the `k`-th one fails.
-/

/-- What one execution leaves behind: the stores it committed, oldest first, and its outcome. -/
structure Exec (σ ε α : Type) where
  commits : List σ
  outcome : Except ε α

/-- The last committed store, or the store of departure when nothing was committed. -/
def Exec.final {σ ε α : Type} (e : Exec σ ε α) (s : σ) : σ := e.commits.getLast?.getD s

/-- A computation that reads a store, commits to it and may raise. -/
structure Session (σ ε α : Type) where
  run : σ → Exec σ ε α

namespace Session

variable {σ ε α β : Type}

/-- One transaction: either the commit fails and nothing is written, or one store is committed. -/
def transact (f : σ → Except ε (α × σ)) : Session σ ε α where
  run s := match f s with
    | .error e => ⟨[], .error e⟩
    | .ok (a, s') => ⟨[s'], .ok a⟩

/-- A transaction that cannot fail and returns nothing. -/
def commit (f : σ → σ) : Session σ ε Unit := transact fun s => .ok ((), f s)

/-- Read from the store. -/
def read (f : σ → α) : Session σ ε α := ⟨fun s => ⟨[], .ok (f s)⟩⟩

/-- Raise an exception. -/
def raise (e : ε) : Session σ ε α := ⟨fun _ => ⟨[], .error e⟩⟩

/-- Return, or raise, what a computation without a store does. -/
def ofExcept (x : Except ε α) : Session σ ε α := ⟨fun _ => ⟨[], x⟩⟩

protected def pure (a : α) : Session σ ε α := ⟨fun _ => ⟨[], .ok a⟩⟩

protected def bind (m : Session σ ε α) (f : α → Session σ ε β) : Session σ ε β where
  run s := match (m.run s).outcome with
    | .error e => ⟨(m.run s).commits, .error e⟩
    | .ok a =>
      ⟨(m.run s).commits ++ ((f a).run ((m.run s).final s)).commits,
        ((f a).run ((m.run s).final s)).outcome⟩

instance : Monad (Session σ ε) where
  pure := Session.pure
  bind := Session.bind

/-- `for x in xs: f(x)` -/
def each (f : α → Session σ ε Unit) : List α → Session σ ε Unit
  | [] => pure ()
  | x :: xs => do f x; each f xs

/-- A loop that carries a value: `for x in xs: b = f(b, x)`. -/
def fold (f : β → α → Session σ ε β) : β → List α → Session σ ε β
  | b, [] => pure b
  | b, x :: xs => do fold f (← f b x) xs

/-- Run a session on a part of the store. -/
def zoom {τ ε' : Type} (part : σ → τ) (put : τ → σ → σ) (wrap : ε → ε') (m : Session τ ε α) :
    Session σ ε' α where
  run s :=
    ⟨(m.run (part s)).commits.map fun c => put c s, (m.run (part s)).outcome.mapError wrap⟩

/-! ## Running the primitives -/

@[simp] theorem pure_apply (a : α) (s : σ) :
    (pure a : Session σ ε α).run s = ⟨[], .ok a⟩ := rfl

@[simp] theorem read_apply (f : σ → α) (s : σ) :
    (read f : Session σ ε α).run s = ⟨[], .ok (f s)⟩ := rfl

@[simp] theorem raise_apply (e : ε) (s : σ) :
    (raise e : Session σ ε α).run s = ⟨[], .error e⟩ := rfl

@[simp] theorem ofExcept_apply (x : Except ε α) (s : σ) :
    (ofExcept x : Session σ ε α).run s = ⟨[], x⟩ := rfl

@[simp] theorem commit_apply (f : σ → σ) (s : σ) :
    (commit f : Session σ ε Unit).run s = ⟨[f s], .ok ()⟩ := rfl

theorem transact_ok {f : σ → Except ε (α × σ)} {s s' : σ} {a : α} (h : f s = .ok (a, s')) :
    (transact f).run s = ⟨[s'], .ok a⟩ := by
  simp only [transact, h]

theorem transact_error {f : σ → Except ε (α × σ)} {s : σ} {e : ε} (h : f s = .error e) :
    (transact f).run s = ⟨[], .error e⟩ := by
  simp only [transact, h]

/-- What a transaction commits. -/
theorem mem_transact {f : σ → Except ε (α × σ)} {s t : σ} :
    t ∈ ((transact f).run s).commits ↔ ∃ a, f s = .ok (a, t) := by
  rcases hf : f s with e | ⟨a, s'⟩
  · simp [transact_error hf]
  · simp [transact_ok hf, eq_comm]

theorem bind_apply (m : Session σ ε α) (f : α → Session σ ε β) (s : σ) :
    (m >>= f).run s = match (m.run s).outcome with
      | .error e => ⟨(m.run s).commits, .error e⟩
      | .ok a =>
        ⟨(m.run s).commits ++ ((f a).run ((m.run s).final s)).commits,
          ((f a).run ((m.run s).final s)).outcome⟩ := rfl

theorem bind_ok {m : Session σ ε α} {f : α → Session σ ε β} {s : σ} {a : α}
    (h : (m.run s).outcome = .ok a) :
    (m >>= f).run s =
      ⟨(m.run s).commits ++ ((f a).run ((m.run s).final s)).commits,
        ((f a).run ((m.run s).final s)).outcome⟩ := by
  rw [bind_apply, h]

theorem bind_error {m : Session σ ε α} {f : α → Session σ ε β} {s : σ} {e : ε}
    (h : (m.run s).outcome = .error e) : (m >>= f).run s = ⟨(m.run s).commits, .error e⟩ := by
  rw [bind_apply, h]

@[simp] theorem read_bind (g : σ → α) (f : α → Session σ ε β) (s : σ) :
    (read g >>= f).run s = (f (g s)).run s := rfl

@[simp] theorem pure_bind' (a : α) (f : α → Session σ ε β) (s : σ) :
    (pure a >>= f).run s = (f a).run s := rfl

@[simp] theorem raise_bind (e : ε) (f : α → Session σ ε β) (s : σ) :
    (raise e >>= f).run s = ⟨[], .error e⟩ := rfl

@[simp] theorem ofExcept_ok_bind (a : α) (f : α → Session σ ε β) (s : σ) :
    (ofExcept (.ok a) >>= f).run s = (f a).run s := rfl

@[simp] theorem ofExcept_error_bind (e : ε) (f : α → Session σ ε β) (s : σ) :
    (ofExcept (.error e) >>= f).run s = ⟨[], .error e⟩ := rfl

theorem commit_bind (g : σ → σ) (f : Unit → Session σ ε β) (s : σ) :
    (commit g >>= f).run s =
      ⟨g s :: ((f ()).run (g s)).commits, ((f ()).run (g s)).outcome⟩ := rfl

theorem zoom_final {τ ε' : Type} (part : σ → τ) (put : τ → σ → σ) (wrap : ε → ε')
    (m : Session τ ε α) {s : σ} (h : put (part s) s = s) :
    ((zoom part put wrap m).run s).final s = put ((m.run (part s)).final (part s)) s := by
  rw [zoom, Exec.final, Exec.final, List.getLast?_map]
  cases (m.run (part s)).commits.getLast? with
  | none => exact h.symm
  | some c => rfl

theorem transact_bind {g : σ → Except ε (α × σ)} {s s' : σ} {a : α} (h : g s = .ok (a, s'))
    (f : α → Session σ ε β) :
    (transact g >>= f).run s = ⟨s' :: ((f a).run s').commits, ((f a).run s').outcome⟩ := by
  have hg : (transact g).run s = ⟨[s'], .ok a⟩ := transact_ok h
  rw [bind_ok (a := a) (by rw [hg]), hg]
  rfl

@[simp] theorem each_nil (f : α → Session σ ε Unit) : each f [] = pure () := rfl

theorem each_cons (f : α → Session σ ε Unit) (x : α) (xs : List α) :
    each f (x :: xs) = f x >>= fun _ => each f xs := rfl

@[simp] theorem fold_nil (f : β → α → Session σ ε β) (b : β) : fold f b [] = pure b := rfl

theorem fold_cons (f : β → α → Session σ ε β) (b : β) (x : α) (xs : List α) :
    fold f b (x :: xs) = f b x >>= fun b' => fold f b' xs := rfl

/-! ## The store at the end -/

@[simp] theorem final_nil (o : Except ε α) (s : σ) :
    (⟨[], o⟩ : Exec σ ε α).final s = s := rfl

@[simp] theorem final_singleton (s' : σ) (o : Except ε α) (s : σ) :
    (⟨[s'], o⟩ : Exec σ ε α).final s = s' := rfl

theorem final_append (l l' : List σ) (o : Except ε α) (s : σ) :
    (⟨l ++ l', o⟩ : Exec σ ε α).final s =
      (⟨l', o⟩ : Exec σ ε α).final ((⟨l, o⟩ : Exec σ ε α).final s) := by
  simp only [Exec.final, List.getLast?_append]
  cases l'.getLast? <;> rfl

@[simp] theorem final_cons (s' : σ) (l : List σ) (o : Except ε α) (s : σ) :
    (⟨s' :: l, o⟩ : Exec σ ε α).final s = (⟨l, o⟩ : Exec σ ε α).final s' :=
  final_append [s'] l o s

theorem final_of_commits_cons {e : Exec σ ε α} {e' : Exec σ ε β} {c : σ}
    (h : e.commits = c :: e'.commits) (s : σ) : e.final s = e'.final c := by
  rw [Exec.final, Exec.final, h, List.getLast?_cons]
  cases e'.commits.getLast? <;> rfl

theorem final_congr_commits {e : Exec σ ε α} {e' : Exec σ ε β} (h : e.commits = e'.commits)
    (s : σ) : e.final s = e'.final s := by
  rw [Exec.final, Exec.final, h]

/-- A result that is only rewritten leaves the same trail. -/
theorem bind_pure_commits (m : Session σ ε α) (g : α → β) (s : σ) :
    ((m >>= fun a => pure (g a)).run s).commits = (m.run s).commits := by
  rcases ho : (m.run s).outcome with e | a
  · rw [bind_error ho]
  · rw [bind_ok ho]
    simp

theorem final_mem (e : Exec σ ε α) (s : σ) : e.final s = s ∨ e.final s ∈ e.commits := by
  rcases h : e.commits.getLast? with _ | s'
  · left; simp [Exec.final, h]
  · right; simpa [Exec.final, h] using List.mem_of_getLast? h

theorem final_of_commits {I : σ → Prop} {m : Session σ ε α} {s : σ} (hs : I s)
    (h : ∀ c ∈ (m.run s).commits, I c) : I ((m.run s).final s) := by
  rcases final_mem (m.run s) s with hf | hf
  · rwa [hf]
  · exact h _ hf

theorem bind_final {m : Session σ ε α} {f : α → Session σ ε β} {s : σ} {a : α}
    (h : (m.run s).outcome = .ok a) :
    ((m >>= f).run s).final s = ((f a).run ((m.run s).final s)).final ((m.run s).final s) := by
  rw [bind_ok h, final_append]
  rfl

theorem bind_final_error {m : Session σ ε α} {f : α → Session σ ε β} {s : σ} {e : ε}
    (h : (m.run s).outcome = .error e) : ((m >>= f).run s).final s = (m.run s).final s := by
  rw [bind_error h]
  rfl

/-! ## What every committed store satisfies -/

/-- Started in a store with `P`, every committed store has `C`, and on success the last store
has `Q`. -/
def Triple (P : σ → Prop) (m : Session σ ε α) (C : σ → Prop) (Q : α → σ → Prop) : Prop :=
  ∀ s, P s → (∀ c ∈ (m.run s).commits, C c) ∧
    ∀ a, (m.run s).outcome = .ok a → Q a ((m.run s).final s)

namespace Triple

variable {P P' : σ → Prop} {C : σ → Prop} {Q Q' : α → σ → Prop} {R : β → σ → Prop}

theorem pure {a : α} (h : ∀ s, P s → Q a s) :
    Triple (ε := ε) P (Pure.pure a) C Q := by
  rintro s hs
  refine ⟨by simp, ?_⟩
  rintro b ⟨⟩
  exact h s hs

theorem read {f : σ → α} (h : ∀ s, P s → Q (f s) s) :
    Triple (ε := ε) P (Session.read f) C Q := by
  rintro s hs
  refine ⟨by simp, ?_⟩
  rintro b ⟨⟩
  exact h s hs

theorem ofExcept {x : Except ε α} (h : ∀ a s, x = .ok a → P s → Q a s) :
    Triple P (Session.ofExcept x) C Q := by
  intro s hs
  exact ⟨by simp, fun a ha => h a s ha hs⟩

theorem transact {f : σ → Except ε (α × σ)}
    (h : ∀ s a s', P s → f s = .ok (a, s') → C s' ∧ Q a s') :
    Triple P (Session.transact f) C Q := by
  intro s hs
  rcases hf : f s with e | ⟨a, s'⟩
  · rw [transact_error hf]
    exact ⟨by simp, by simp⟩
  · obtain ⟨hC, hQ⟩ := h s a s' hs hf
    rw [transact_ok hf]
    refine ⟨by simpa using hC, ?_⟩
    rintro b ⟨⟩
    exact hQ

theorem commit {f : σ → σ} {Q : Unit → σ → Prop} (h : ∀ s, P s → C (f s) ∧ Q () (f s)) :
    Triple (ε := ε) P (Session.commit f) C Q :=
  transact fun s a s' hs hf => by
    cases hf
    exact h s hs

theorem bind {m : Session σ ε α} {f : α → Session σ ε β} (hm : Triple P m C Q)
    (hf : ∀ a, Triple (Q a) (f a) C R) : Triple P (m >>= f) C R := by
  intro s hs
  obtain ⟨hC, hQ⟩ := hm s hs
  rcases ho : (m.run s).outcome with e | a
  · rw [bind_error ho]
    exact ⟨hC, by simp⟩
  · obtain ⟨hC', hR⟩ := hf a _ (hQ a ho)
    refine ⟨?_, fun b hb => ?_⟩
    · rw [bind_ok ho]
      intro c hc
      rcases List.mem_append.mp hc with hc | hc
      · exact hC c hc
      · exact hC' c hc
    · rw [bind_final ho]
      rw [bind_ok ho] at hb
      exact hR b hb

theorem conseq {C' : σ → Prop} {m : Session σ ε α} (hm : Triple P m C Q) (hP : ∀ s, P' s → P s)
    (hC : ∀ s, C s → C' s) (hQ : ∀ a s, Q a s → Q' a s) : Triple P' m C' Q' := by
  intro s hs
  obtain ⟨hc, hq⟩ := hm s (hP s hs)
  exact ⟨fun t ht => hC t (hc t ht), fun a ha => hQ a _ (hq a ha)⟩

theorem ite {b : Prop} [Decidable b] {m m' : Session σ ε α}
    (h : b → Triple P m C Q) (h' : ¬ b → Triple P m' C Q) :
    Triple P (if b then m else m') C Q := by
  split_ifs with hb
  · exact h hb
  · exact h' hb

/-- A loop whose body keeps `P` keeps `P`. -/
theorem each {f : α → Session σ ε Unit} {xs : List α}
    (h : ∀ x ∈ xs, Triple P (f x) C fun _ => P) : Triple P (each f xs) C fun _ => P := by
  induction xs with
  | nil => exact pure fun s hs => hs
  | cons x xs ih =>
    rw [each_cons]
    exact bind (h x (by simp)) fun _ => ih fun y hy => h y (by simp [hy])

/-- A loop that carries a value keeps what relates the value to the store. -/
theorem fold {I : β → σ → Prop} {f : β → α → Session σ ε β} {xs : List α}
    (h : ∀ b, ∀ x ∈ xs, Triple (I b) (f b x) C I) (b : β) :
    Triple (I b) (Session.fold f b xs) C I := by
  induction xs generalizing b with
  | nil => exact pure fun s hs => hs
  | cons x xs ih =>
    rw [fold_cons]
    exact bind (h b x (by simp)) fun b' => ih (fun b y hy => h b y (by simp [hy])) b'

/-- A loop that appends to a list, where what an item appends does not depend on the store. -/
theorem fold_append {γ : Type} {f : List γ → α → Session σ ε (List γ)} {g : α → List γ}
    {xs : List α} (h : ∀ b, ∀ x ∈ xs, Triple P (f b x) C fun b' s => P s ∧ b' = b ++ g x)
    (b : List γ) :
    Triple P (Session.fold f b xs) C fun b' s => P s ∧ b' = b ++ xs.flatMap g := by
  induction xs generalizing b with
  | nil => exact pure fun s hs => ⟨hs, by simp⟩
  | cons x xs ih =>
    rw [fold_cons]
    refine bind (h b x (by simp)) fun b' => ?_
    have hrest := ih (fun b y hy => h b y (by simp [hy])) b'
    rintro s ⟨hs, rfl⟩
    simpa [List.append_assoc] using hrest s hs

/-- The store at the end satisfies what the commits and the start satisfy. -/
theorem final {m : Session σ ε α} (hm : Triple C m C Q) {s : σ} (hs : C s) :
    C ((m.run s).final s) :=
  final_of_commits hs (hm s hs).1

end Triple

/-- Every commit of `m` keeps the invariant `I`. -/
def Keeps (I : σ → Prop) (m : Session σ ε α) : Prop := Triple I m I fun _ => I

theorem Keeps.of_commits {I : σ → Prop} {m : Session σ ε α}
    (h : ∀ s, I s → ∀ c ∈ (m.run s).commits, I c) : Keeps I m := by
  intro s hs
  exact ⟨h s hs, fun a _ => final_of_commits hs (h s hs)⟩

namespace Keeps

variable {I : σ → Prop}

theorem pure (a : α) : Keeps (ε := ε) I (Pure.pure a) := Triple.pure fun _ hs => hs

theorem read (f : σ → α) : Keeps (ε := ε) I (Session.read f) := Triple.read fun _ hs => hs

theorem ofExcept (x : Except ε α) : Keeps I (Session.ofExcept x) :=
  Triple.ofExcept fun _ _ _ hs => hs

theorem transact {f : σ → Except ε (α × σ)}
    (h : ∀ s a s', I s → f s = .ok (a, s') → I s') : Keeps I (Session.transact f) :=
  Triple.transact fun s a s' hs hf => ⟨h s a s' hs hf, h s a s' hs hf⟩

theorem commit {f : σ → σ} (h : ∀ s, I s → I (f s)) : Keeps (ε := ε) I (Session.commit f) :=
  Triple.commit fun s hs => ⟨h s hs, h s hs⟩

theorem ite {b : Prop} [Decidable b] {m m' : Session σ ε α} (h : Keeps I m) (h' : Keeps I m') :
    Keeps I (if b then m else m') :=
  Triple.ite (fun _ => h) fun _ => h'

theorem bind {m : Session σ ε α} {f : α → Session σ ε β} (hm : Keeps I m)
    (hf : ∀ a, Keeps I (f a)) : Keeps I (m >>= f) :=
  Triple.bind hm fun a => hf a

theorem fold {f : β → α → Session σ ε β} {xs : List α} (h : ∀ b, ∀ x ∈ xs, Keeps I (f b x))
    (b : β) : Keeps I (Session.fold f b xs) :=
  Triple.fold h b

end Keeps

/-! ## Frames -/

/-- No commit of `m` changes `g`. -/
def Leaves {γ : Type} (g : σ → γ) (m : Session σ ε α) : Prop :=
  ∀ s, ∀ c ∈ (m.run s).commits, g c = g s

namespace Leaves

variable {γ : Type} {g : σ → γ}

theorem pure (a : α) : Leaves g (Pure.pure a : Session σ ε α) := by
  intro s c hc
  simp at hc

theorem read (f : σ → α) : Leaves g (Session.read f : Session σ ε α) := by
  intro s c hc
  simp at hc

theorem ofExcept (x : Except ε α) : Leaves g (Session.ofExcept x : Session σ ε α) := by
  intro s c hc
  simp at hc

theorem transact {f : σ → Except ε (α × σ)}
    (h : ∀ s a s', f s = .ok (a, s') → g s' = g s) : Leaves g (Session.transact f) := by
  intro s c hc
  rcases hf : f s with e | ⟨a, s'⟩
  · rw [transact_error hf] at hc
    simp at hc
  · rw [transact_ok hf, List.mem_singleton] at hc
    rw [hc]
    exact h s a s' hf

theorem commit {f : σ → σ} (h : ∀ s, g (f s) = g s) :
    Leaves g (Session.commit f : Session σ ε Unit) :=
  transact fun s a s' hf => by
    cases hf
    exact h s

theorem ite {b : Prop} [Decidable b] {m m' : Session σ ε α} (h : Leaves g m) (h' : Leaves g m') :
    Leaves g (if b then m else m') := by
  split_ifs
  · exact h
  · exact h'

theorem final {m : Session σ ε α} (h : Leaves g m) (s : σ) : g ((m.run s).final s) = g s := by
  rcases final_mem (m.run s) s with hf | hf
  · rw [hf]
  · exact h s _ hf

theorem bind {m : Session σ ε α} {f : α → Session σ ε β} (hm : Leaves g m)
    (hf : ∀ a, Leaves g (f a)) : Leaves g (m >>= f) := by
  intro s c hc
  rcases ho : (m.run s).outcome with e | a
  · rw [bind_error ho] at hc
    exact hm s c hc
  · rw [bind_ok ho] at hc
    rcases List.mem_append.mp hc with hc | hc
    · exact hm s c hc
    · rw [hf a _ c hc]
      exact hm.final s

theorem each {f : α → Session σ ε Unit} {xs : List α} (h : ∀ x ∈ xs, Leaves g (f x)) :
    Leaves g (Session.each f xs) := by
  induction xs with
  | nil => exact pure ()
  | cons x xs ih =>
    rw [each_cons]
    exact bind (h x (by simp)) fun _ => ih fun y hy => h y (by simp [hy])

theorem fold {f : β → α → Session σ ε β} {xs : List α} (h : ∀ b, ∀ x ∈ xs, Leaves g (f b x))
    (b : β) : Leaves g (Session.fold f b xs) := by
  induction xs generalizing b with
  | nil => exact pure b
  | cons x xs ih =>
    rw [fold_cons]
    exact bind (h b x (by simp)) fun b' => ih (fun b y hy => h b y (by simp [hy])) b'

theorem zoom {τ ε' : Type} {part : σ → τ} {put : τ → σ → σ} (wrap : ε → ε') {m : Session τ ε α}
    (h : ∀ c s, g (put c s) = g s) : Leaves g (Session.zoom part put wrap m) := by
  intro s c hc
  obtain ⟨d, -, rfl⟩ := List.mem_map.mp hc
  exact h d s

theorem keeps {m : Session σ ε α} (h : Leaves g m) (P : γ → Prop) :
    Keeps (fun s => P (g s)) m :=
  Keeps.of_commits fun s hs c hc => (h s c hc).symm ▸ hs

theorem of_keeps {m : Session σ ε α} (h : ∀ v, Keeps (fun s => g s = v) m) : Leaves g m :=
  fun s => (h (g s) s rfl).1

end Leaves

/-! ## Growth -/

/-- Where `m` ends, `g` is no smaller than where it starts. -/
def Ascends (g : σ → ℕ) (m : Session σ ε α) : Prop := ∀ s, g s ≤ g ((m.run s).final s)

namespace Ascends

variable {g : σ → ℕ}

theorem pure (a : α) : Ascends g (Pure.pure a : Session σ ε α) := fun _ => Nat.le_refl _

theorem commit {f : σ → σ} (h : ∀ s, g s ≤ g (f s)) :
    Ascends g (Session.commit f : Session σ ε Unit) := h

theorem of_leaves {m : Session σ ε α} (h : Leaves g m) : Ascends g m :=
  fun s => Nat.le_of_eq (h.final s).symm

/-- What has grown stays. -/
theorem bind_lt {m : Session σ ε α} {f : α → Session σ ε β} {s : σ}
    (hm : g s < g ((m.run s).final s)) (hf : ∀ a, Ascends g (f a)) :
    g s < g (((m >>= f).run s).final s) := by
  rcases ho : (m.run s).outcome with e | a
  · rwa [bind_final_error ho]
  · rw [bind_final ho]
    exact Nat.lt_of_lt_of_le hm (hf a _)

theorem bind {m : Session σ ε α} {f : α → Session σ ε β} (hm : Ascends g m)
    (hf : ∀ a, Ascends g (f a)) : Ascends g (m >>= f) := by
  intro s
  rcases ho : (m.run s).outcome with e | a
  · rw [bind_final_error ho]
    exact hm s
  · rw [bind_final ho]
    exact Nat.le_trans (hm s) (hf a _)

theorem each {f : α → Session σ ε Unit} {xs : List α} (h : ∀ x ∈ xs, Ascends g (f x)) :
    Ascends g (Session.each f xs) := by
  induction xs with
  | nil => exact pure ()
  | cons x xs ih =>
    rw [each_cons]
    exact bind (h x (by simp)) fun _ => ih fun y hy => h y (by simp [hy])

theorem fold {f : β → α → Session σ ε β} {xs : List α} (h : ∀ b, ∀ x ∈ xs, Ascends g (f b x))
    (b : β) : Ascends g (Session.fold f b xs) := by
  induction xs generalizing b with
  | nil => exact pure b
  | cons x xs ih =>
    rw [fold_cons]
    exact bind (h b x (by simp)) fun b' => ih (fun b y hy => h b y (by simp [hy])) b'

end Ascends

/-! ## What holds again at the end -/

/-- Started in a store with `I`, every committed store has `C`, and the last one has `I` again, also
when an exception ends the run. -/
def Restores (I C : σ → Prop) (m : Session σ ε α) : Prop :=
  ∀ s, I s → (∀ c ∈ (m.run s).commits, C c) ∧ I ((m.run s).final s)

namespace Restores

variable {I C : σ → Prop}

theorem of_keeps {m : Session σ ε α} (h : Keeps I m) (hC : ∀ s, I s → C s) : Restores I C m :=
  fun s hs => ⟨fun c hc => hC c ((h s hs).1 c hc), h.final hs⟩

theorem keeps {m : Session σ ε α} (h : Restores I I m) : Keeps I m :=
  .of_commits fun s hs => (h s hs).1

theorem pure (a : α) : Restores I C (Pure.pure a : Session σ ε α) :=
  fun _ hs => ⟨by simp, hs⟩

theorem read (f : σ → α) : Restores I C (Session.read f : Session σ ε α) :=
  fun _ hs => ⟨by simp, hs⟩

theorem ofExcept (x : Except ε α) : Restores I C (Session.ofExcept x : Session σ ε α) :=
  fun _ hs => ⟨by simp, hs⟩

theorem ite {b : Prop} [Decidable b] {m m' : Session σ ε α} (h : Restores I C m)
    (h' : Restores I C m') : Restores I C (if b then m else m') := by
  split_ifs
  · exact h
  · exact h'

theorem bind {m : Session σ ε α} {f : α → Session σ ε β} (hm : Restores I C m)
    (hf : ∀ a, Restores I C (f a)) : Restores I C (m >>= f) := by
  intro s hs
  obtain ⟨hC, hI⟩ := hm s hs
  rcases ho : (m.run s).outcome with e | a
  · rw [bind_final_error ho, bind_error ho]
    exact ⟨hC, hI⟩
  · obtain ⟨hC', hI'⟩ := hf a _ hI
    rw [bind_final ho, bind_ok ho]
    refine ⟨fun c hc => ?_, hI'⟩
    rcases List.mem_append.mp hc with hc | hc
    · exact hC c hc
    · exact hC' c hc

theorem fold {f : β → α → Session σ ε β} {xs : List α} (h : ∀ b, ∀ x ∈ xs, Restores I C (f b x))
    (b : β) : Restores I C (Session.fold f b xs) := by
  induction xs generalizing b with
  | nil => exact pure b
  | cons x xs ih =>
    rw [fold_cons]
    exact bind (h b x (by simp)) fun b' => ih (fun b y hy => h b y (by simp [hy])) b'

end Restores

/-! ## The iterations of a loop -/

/-- Each iteration that a loop reaches, with the store in which it starts. -/
def visited (f : α → Session σ ε Unit) : List α → σ → List (α × σ)
  | [], _ => []
  | x :: xs, s =>
    (x, s) :: match ((f x).run s).outcome with
      | .error _ => []
      | .ok _ => visited f xs (((f x).run s).final s)

/-- The commits of a loop are those of the iterations it reaches. -/
theorem mem_each_commits {f : α → Session σ ε Unit} {xs : List α} {s c : σ} :
    c ∈ ((each f xs).run s).commits ↔ ∃ v ∈ visited f xs s, c ∈ ((f v.1).run v.2).commits := by
  induction xs generalizing s with
  | nil => simp [visited]
  | cons x xs ih =>
    rw [each_cons, visited]
    rcases ho : ((f x).run s).outcome with e | _
    · rw [bind_error ho]
      simp
    · rw [bind_ok ho]
      simp only [List.mem_append, ih, List.mem_cons, exists_eq_or_imp]

/-- What each iteration hands on holds where each starts and at the end of the loop. -/
theorem each_final_of_visited {I : σ → Prop} {f : α → Session σ ε Unit} {xs : List α} {s : σ}
    (hs : I s) (h : ∀ v ∈ visited f xs s, I v.2 → I (((f v.1).run v.2).final v.2)) :
    (∀ v ∈ visited f xs s, I v.2) ∧ I (((each f xs).run s).final s) := by
  induction xs generalizing s with
  | nil => exact ⟨by simp [visited], hs⟩
  | cons x xs ih =>
    rw [visited] at h ⊢
    have hfin : I (((f x).run s).final s) := h (x, s) (by simp) hs
    rw [each_cons]
    rcases ho : ((f x).run s).outcome with e | _
    · rw [bind_final_error ho]
      exact ⟨by simpa using hs, hfin⟩
    · rw [ho] at h
      obtain ⟨hv, hend⟩ := ih hfin fun v hmem => h v (List.mem_cons_of_mem _ hmem)
      rw [bind_final ho]
      refine ⟨fun v hmem => ?_, hend⟩
      rcases List.mem_cons.mp hmem with rfl | hmem
      · exact hs
      · exact hv v hmem

/-- A loop keeps `I` when each iteration it reaches keeps `I` from the store it starts in. -/
theorem each_commits_of_visited {I : σ → Prop} {f : α → Session σ ε Unit} {xs : List α} {s : σ}
    (hs : I s)
    (h : ∀ v ∈ visited f xs s, I v.2 → ∀ c ∈ ((f v.1).run v.2).commits, I c) :
    (∀ v ∈ visited f xs s, I v.2) ∧ ∀ c ∈ ((each f xs).run s).commits, I c := by
  obtain ⟨hv, -⟩ := each_final_of_visited hs fun v hv hI => final_of_commits hI (h v hv hI)
  refine ⟨hv, fun c hc => ?_⟩
  obtain ⟨v, hvm, hc⟩ := mem_each_commits.mp hc
  exact h v hvm (hv v hvm) c hc

/-- A loop whose iterations append to a table appends what the iterations it reaches append. -/
theorem each_final_append {γ : Type} {g : σ → List γ} {h : α × σ → List γ}
    {f : α → Session σ ε Unit}
    (hstep : ∀ x s, g (((f x).run s).final s) = g s ++ h (x, s)) (xs : List α) (s : σ) :
    g (((each f xs).run s).final s) = g s ++ (visited f xs s).flatMap h := by
  induction xs generalizing s with
  | nil => simp [visited]
  | cons x xs ih =>
    rw [each_cons, visited, List.flatMap_cons, ← List.append_assoc, ← hstep x s]
    rcases ho : ((f x).run s).outcome with e | _
    · rw [bind_final_error ho]
      simp
    · rw [bind_final ho]
      exact ih _

/-- An iteration of a loop that carries a value: the item, the store in which it starts, and what
it leaves behind. -/
structure Iteration (σ ε α β : Type) where
  item : α
  start : σ
  exec : Exec σ ε β

/-- The iterations that a loop reaches. -/
def iterations (f : β → α → Session σ ε β) : β → List α → σ → List (Iteration σ ε α β)
  | _, [], _ => []
  | b, x :: xs, s =>
    ⟨x, s, (f b x).run s⟩ :: match ((f b x).run s).outcome with
      | .error _ => []
      | .ok b' => iterations f b' xs (((f b x).run s).final s)

theorem iterations_cons_ok {f : β → α → Session σ ε β} {b b' : β} {x : α} {s : σ}
    (h : ((f b x).run s).outcome = .ok b') (xs : List α) :
    iterations f b (x :: xs) s =
      ⟨x, s, (f b x).run s⟩ :: iterations f b' xs (((f b x).run s).final s) := by
  rw [iterations, h]

/-- A loop whose iterations commit nothing. -/
theorem fold_commits_nil {f : β → α → Session σ ε β} {xs : List α} {s : σ}
    (h : ∀ b, ∀ x ∈ xs, ((f b x).run s).commits = []) (b : β) :
    ((fold f b xs).run s).commits = [] := by
  induction xs generalizing b with
  | nil => rfl
  | cons x xs ih =>
    have hx := h b x (by simp)
    rw [fold_cons]
    rcases ho : ((f b x).run s).outcome with e | b'
    · rw [bind_error ho]
      exact hx
    · rw [bind_ok ho, hx, show ((f b x).run s).final s = s by simp [Exec.final, hx]]
      simpa using ih (fun b y hy => h b y (by simp [hy])) b'

/-- Every iteration succeeds and keeps `I`. -/
def Total (I : σ → Prop) (f : β → α → Session σ ε β) (xs : List α) : Prop :=
  ∀ b, ∀ x ∈ xs, ∀ s, I s → ∃ b', ((f b x).run s).outcome = .ok b' ∧ I (((f b x).run s).final s)

namespace Total

variable {I : σ → Prop} {f : β → α → Session σ ε β} {x : α} {xs : List α}

theorem tail (h : Total I f (x :: xs)) : Total I f xs :=
  fun b y hy => h b y (List.mem_cons_of_mem x hy)

theorem outcome (h : Total I f xs) (b : β) {s : σ} (hs : I s) :
    ∃ b', ((fold f b xs).run s).outcome = .ok b' ∧ I (((fold f b xs).run s).final s) := by
  induction xs generalizing b s with
  | nil => exact ⟨b, rfl, hs⟩
  | cons x xs ih =>
    obtain ⟨b', ho, hI⟩ := h b x (by simp) s hs
    rw [fold_cons, bind_final ho, bind_ok ho]
    exact ih h.tail b' hI

/-- Each iteration starts in a store with `I`. -/
theorem start (h : Total I f xs) (b : β) {s : σ} (hs : I s) {it : Iteration σ ε α β}
    (hit : it ∈ iterations f b xs s) : it.item ∈ xs ∧ I it.start := by
  induction xs generalizing b s with
  | nil => simp [iterations] at hit
  | cons x xs ih =>
    obtain ⟨b', ho, hI⟩ := h b x (by simp) s hs
    rw [iterations_cons_ok ho] at hit
    rcases List.mem_cons.mp hit with rfl | hit
    · exact ⟨by simp, hs⟩
    · obtain ⟨hmem, hstart⟩ := ih h.tail b' hI hit
      exact ⟨List.mem_cons_of_mem x hmem, hstart⟩

/-- Every item has its iteration. -/
theorem exists_iteration (h : Total I f xs) (b : β) {s : σ} (hs : I s) (hx : x ∈ xs) :
    ∃ it ∈ iterations f b xs s, it.item = x := by
  induction xs generalizing b s with
  | nil => simp at hx
  | cons y xs ih =>
    obtain ⟨b', ho, hI⟩ := h b y (by simp) s hs
    rw [iterations_cons_ok ho]
    rcases List.mem_cons.mp hx with rfl | hx
    · exact ⟨_, List.mem_cons_self, rfl⟩
    · obtain ⟨it, hit, hitem⟩ := ih h.tail b' hI hx
      exact ⟨it, List.mem_cons_of_mem _ hit, hitem⟩

end Total

/-! ## Runs and crashes -/

/-- The calls of a run, each with the store in which it starts.  A call that raises leaves what
it committed, and the next call starts there. -/
def calls (f : α → Session σ ε β) : List α → σ → List (α × σ)
  | [], _ => []
  | x :: xs, s => (x, s) :: calls f xs (((f x).run s).final s)

theorem mem_of_calls {f : α → Session σ ε β} {xs : List α} {s : σ} {c : α × σ}
    (hc : c ∈ calls f xs s) : c.1 ∈ xs := by
  induction xs generalizing s with
  | nil => cases hc
  | cons y xs ih =>
    rcases List.mem_cons.mp hc with rfl | hc
    · exact List.mem_cons_self
    · exact List.mem_cons_of_mem _ (ih hc)

theorem calls_map_fst (f : α → Session σ ε β) (xs : List α) (s : σ) :
    (calls f xs s).map Prod.fst = xs := by
  induction xs generalizing s with
  | nil => rfl
  | cons x xs ih => rw [calls, List.map_cons, ih]

theorem exists_call {f : α → Session σ ε β} {xs : List α} {x : α} (hx : x ∈ xs) (s : σ) :
    ∃ s', (x, s') ∈ calls f xs s := by
  induction xs generalizing s with
  | nil => cases hx
  | cons y xs ih =>
    rw [calls]
    rcases List.mem_cons.mp hx with rfl | hx
    · exact ⟨s, List.mem_cons_self⟩
    · obtain ⟨s', hs'⟩ := ih hx (((f y).run s).final s)
      exact ⟨s', List.mem_cons_of_mem _ hs'⟩

/-- Every store committed in a run. -/
def stores (f : α → Session σ ε β) (xs : List α) (s : σ) : List σ :=
  (calls f xs s).flatMap fun c => ((f c.1).run c.2).commits

theorem mem_stores {f : α → Session σ ε β} {xs : List α} {s t : σ} :
    t ∈ stores f xs s ↔ ∃ c ∈ calls f xs s, t ∈ ((f c.1).run c.2).commits :=
  List.mem_flatMap

/-- What each call of a run hands on holds where its calls start. -/
theorem calls_of_final {I : σ → Prop} {f : α → Session σ ε β} {xs : List α} {s : σ} (hs : I s)
    (h : ∀ c ∈ calls f xs s, I c.2 → I (((f c.1).run c.2).final c.2)) :
    ∀ c ∈ calls f xs s, I c.2 := by
  induction xs generalizing s with
  | nil => simp [calls]
  | cons x xs ih =>
    rw [calls] at h ⊢
    intro c hcm
    rcases List.mem_cons.mp hcm with rfl | hcm
    · exact hs
    · exact ih (h (x, s) (by simp) hs) (fun d hd => h d (List.mem_cons_of_mem _ hd)) c hcm

/-- What each call of a run keeps holds where its calls start and in every store committed. -/
theorem stores_of_calls {I : σ → Prop} {f : α → Session σ ε β} {xs : List α} {s : σ} (hs : I s)
    (h : ∀ c ∈ calls f xs s, I c.2 → ∀ t ∈ ((f c.1).run c.2).commits, I t) :
    (∀ c ∈ calls f xs s, I c.2) ∧ ∀ t ∈ stores f xs s, I t := by
  have hc := calls_of_final hs fun c hc hI => final_of_commits hI (h c hc hI)
  refine ⟨hc, fun t ht => ?_⟩
  obtain ⟨c, hcm, ht⟩ := mem_stores.mp ht
  exact h c hcm (hc c hcm) t ht

/-- The store that a run leaves behind. -/
def after (f : α → Session σ ε β) : List α → σ → σ
  | [], s => s
  | x :: xs, s => after f xs (((f x).run s).final s)

theorem after_append (f : α → Session σ ε β) (xs ys : List α) (s : σ) :
    after f (xs ++ ys) s = after f ys (after f xs s) := by
  induction xs generalizing s with
  | nil => rfl
  | cons x xs ih => exact ih _

theorem after_of_commits {I : σ → Prop} {f : α → Session σ ε β} {xs : List α} {s : σ} (hs : I s)
    (h : ∀ x ∈ xs, ∀ s, I s → ∀ t ∈ ((f x).run s).commits, I t) : I (after f xs s) := by
  induction xs generalizing s with
  | nil => exact hs
  | cons x xs ih =>
    rw [after]
    refine ih (final_of_commits hs (h x List.mem_cons_self s hs)) fun y hy => ?_
    exact h y (List.mem_cons_of_mem _ hy)

/-- What holds in every store that a run of calls commits, and what holds where the run ends. -/
theorem Restores.run {I C : σ → Prop} {f : α → Session σ ε β} (h : ∀ x, Restores I C (f x))
    (xs : List α) {s : σ} (hs : I s) : (∀ t ∈ stores f xs s, C t) ∧ I (after f xs s) := by
  induction xs generalizing s with
  | nil => exact ⟨fun t ht => absurd ht List.not_mem_nil, hs⟩
  | cons x xs ih =>
    obtain ⟨hC, hI⟩ := h x s hs
    obtain ⟨hrest, hend⟩ := ih hI
    refine ⟨fun t ht => ?_, hend⟩
    obtain ⟨c, hc, ht⟩ := mem_stores.mp ht
    rcases List.mem_cons.mp hc with rfl | hc
    · exact hC t ht
    · exact hrest t (mem_stores.mpr ⟨c, hc, ht⟩)

/-- The store left behind when the commit after the `k`-th one fails. -/
def crash (m : Session σ ε α) (k : ℕ) (s : σ) : σ := ((m.run s).commits.take k).getLast?.getD s

/-- A crash leaves the store of departure or one that was committed. -/
theorem crash_mem (m : Session σ ε α) (k : ℕ) (s : σ) :
    crash m k s = s ∨ crash m k s ∈ (m.run s).commits := by
  unfold crash
  rcases h : ((m.run s).commits.take k).getLast? with _ | t
  · exact .inl rfl
  · exact .inr (List.mem_of_mem_take (List.mem_of_getLast? h))

@[simp] theorem crash_zero (m : Session σ ε α) (s : σ) : crash m 0 s = s := by
  simp [crash]

/-- A run of calls, each of which fails after a number of its commits.  A number that it does not
reach leaves the call complete. -/
def cutRun (f : α → Session σ ε β) : List (α × ℕ) → σ → σ
  | [], s => s
  | (x, k) :: calls, s => cutRun f calls (crash (f x) k s)

/-- What every call keeps holds after a run of calls that fail anywhere. -/
theorem cutRun_of_keeps {I : σ → Prop} {f : α → Session σ ε β} (h : ∀ x, Keeps I (f x))
    (calls : List (α × ℕ)) {s : σ} (hs : I s) : I (cutRun f calls s) := by
  induction calls generalizing s with
  | nil => exact hs
  | cons call calls ih =>
    apply ih
    rcases crash_mem (f call.1) call.2 s with hcrash | hcrash
    · rwa [hcrash]
    · exact (h call.1 s hs).1 _ hcrash

end Session
