import Mathlib.Data.List.Forall2

/-!
# Computations that may fail

Inversion of the successful runs of `Except` computations: binds, folds, and maps over lists.
-/

namespace Except

variable {ε α β : Type}

/-- A sequence succeeds when both of its parts do. -/
theorem bind_eq_ok {x : Except ε α} {f : α → Except ε β} {b : β} :
    (x >>= f) = .ok b ↔ ∃ a, x = .ok a ∧ f a = .ok b := by
  cases x with
  | error e => simp [bind, Except.bind]
  | ok a => simp [bind, Except.bind]

theorem map_eq_ok {x : Except ε α} {f : α → β} {b : β} :
    x.map f = .ok b ↔ ∃ a, x = .ok a ∧ f a = b := by
  cases x with
  | error e => simp [Except.map]
  | ok a => simp [Except.map]

theorem mapError_eq_ok {ε' : Type} {x : Except ε α} {f : ε → ε'} {a : α} :
    x.mapError f = .ok a ↔ x = .ok a := by
  cases x with
  | error e => simp [Except.mapError]
  | ok b => simp [Except.mapError]

theorem pure_eq_ok {a b : α} : (pure a : Except ε α) = .ok b ↔ a = b := by
  simp [pure, Except.pure]

theorem exists_of_toBool {x : Except ε α} (h : x.toBool) : ∃ a, x = .ok a := by
  cases x with
  | error e => cases h
  | ok a => exact ⟨a, rfl⟩

theorem exists_ok (a : α) : ∃ r, (.ok a : Except ε α) = .ok r := ⟨a, rfl⟩

theorem exists_ite {b : Prop} [Decidable b] {x y : Except ε α} (hx : ∃ r, x = .ok r)
    (hy : ∃ r, y = .ok r) : ∃ r, (if b then x else y) = .ok r := by
  split_ifs
  · exact hx
  · exact hy

theorem exists_bind {x : Except ε α} {f : α → Except ε β} (hx : ∃ a, x = .ok a)
    (hf : ∀ a, ∃ b, f a = .ok b) : ∃ b, x >>= f = .ok b := by
  obtain ⟨a, rfl⟩ := hx
  exact hf a

/-- What every step preserves holds after the whole fold. -/
theorem foldlM_invariant {P : β → Prop} {f : β → α → Except ε β} {l : List α}
    (step : ∀ a ∈ l, ∀ b b', P b → f b a = .ok b' → P b') {b b' : β} (hb : P b)
    (h : l.foldlM f b = .ok b') : P b' := by
  induction l generalizing b with
  | nil =>
    obtain rfl : b = b' := pure_eq_ok.mp h
    exact hb
  | cons a l ih =>
    rw [List.foldlM_cons] at h
    obtain ⟨c, hc, hrest⟩ := bind_eq_ok.mp h
    exact ih (fun a' ha' => step a' (by simp [ha'])) (step a (by simp) b c hb hc) hrest

/-- A fold whose steps succeed or not whatever precedes them. -/
theorem exists_foldlM_iff {C : α → Prop} {f : β → α → Except ε β} {l : List α}
    (h : ∀ b, ∀ a ∈ l, (∃ b', f b a = .ok b') ↔ C a) (b : β) :
    (∃ b', l.foldlM f b = .ok b') ↔ ∀ a ∈ l, C a := by
  induction l generalizing b with
  | nil => exact iff_of_true ⟨b, rfl⟩ (by simp)
  | cons a l ih =>
    have ih := ih fun b a ha => h b a (List.mem_cons_of_mem _ ha)
    rw [List.forall_mem_cons, ← h b a List.mem_cons_self]
    constructor
    · rintro ⟨b', hb'⟩
      rw [List.foldlM_cons] at hb'
      obtain ⟨c, hc, hrest⟩ := bind_eq_ok.mp hb'
      exact ⟨⟨c, hc⟩, (ih c).mp ⟨b', hrest⟩⟩
    · rintro ⟨⟨c, hc⟩, hrest⟩
      obtain ⟨b', hb'⟩ := (ih c).mpr hrest
      refine ⟨b', ?_⟩
      rw [List.foldlM_cons, hc]
      exact hb'

/-- A fold of which no step changes anything. -/
theorem foldlM_eq_self {f : β → α → Except ε β} {l : List α} {b : β}
    (h : ∀ a ∈ l, f b a = .ok b) : l.foldlM f b = .ok b := by
  induction l with
  | nil => rfl
  | cons a l ih =>
    rw [List.foldlM_cons, h a (by simp)]
    exact ih fun a' ha' => h a' (by simp [ha'])

/-- A map over a list of arguments of which each has its result. -/
theorem mapM_map_ok {γ : Type} {f : α → β} {g : β → Except ε γ} {h : α → γ}
    (hg : ∀ a, g (f a) = .ok (h a)) (l : List α) : (l.map f).mapM g = .ok (l.map h) := by
  induction l with
  | nil => rfl
  | cons a l ih =>
    rw [List.map_cons, List.mapM_cons, hg, ih]
    rfl

/-- A result of a map comes from one of the arguments. -/
theorem exists_of_mem_mapM {f : α → Except ε β} {l : List α} {r : List β} (h : l.mapM f = .ok r)
    {b : β} (hb : b ∈ r) : ∃ a ∈ l, f a = .ok b := by
  induction l generalizing r with
  | nil =>
    obtain rfl : [] = r := pure_eq_ok.mp h
    simp at hb
  | cons a l ih =>
    rw [List.mapM_cons] at h
    obtain ⟨x, hx, h⟩ := bind_eq_ok.mp h
    obtain ⟨xs, hxs, h⟩ := bind_eq_ok.mp h
    obtain rfl : x :: xs = r := pure_eq_ok.mp h
    rcases List.mem_cons.mp hb with rfl | hb
    · exact ⟨a, by simp, hx⟩
    · obtain ⟨a', ha', hf⟩ := ih hxs hb
      exact ⟨a', by simp [ha'], hf⟩

/-- What every result of the function has, the results of a map have. -/
theorem forall_of_mapM {P : β → Prop} {f : α → Except ε β} (hf : ∀ a b, f a = .ok b → P b)
    {l : List α} {r : List β} (h : l.mapM f = .ok r) : ∀ b ∈ r, P b := by
  intro b hb
  obtain ⟨a, -, ha⟩ := exists_of_mem_mapM h hb
  exact hf a b ha

/-- A map of which every argument has a result. -/
theorem exists_mapM {f : α → Except ε β} {l : List α} (h : ∀ a ∈ l, ∃ b, f a = .ok b) :
    ∃ r, l.mapM f = .ok r := by
  induction l with
  | nil => exact ⟨[], rfl⟩
  | cons a l ih =>
    obtain ⟨b, hb⟩ := h a (by simp)
    obtain ⟨r, hr⟩ := ih fun a' ha' => h a' (by simp [ha'])
    refine ⟨b :: r, ?_⟩
    rw [List.mapM_cons, hb, hr]
    rfl

/-- The results are those of the arguments, one by one. -/
theorem forall₂_of_mapM {f : α → Except ε β} {l : List α} {r : List β} (h : l.mapM f = .ok r) :
    List.Forall₂ (fun a b => f a = .ok b) l r := by
  induction l generalizing r with
  | nil =>
    obtain rfl : [] = r := pure_eq_ok.mp h
    exact .nil
  | cons a l ih =>
    rw [List.mapM_cons] at h
    obtain ⟨x, hx, h⟩ := bind_eq_ok.mp h
    obtain ⟨xs, hxs, h⟩ := bind_eq_ok.mp h
    obtain rfl : x :: xs = r := pure_eq_ok.mp h
    exact .cons hx (ih hxs)

/-- Every argument has its result. -/
theorem exists_of_mapM {f : α → Except ε β} {l : List α} {r : List β} (h : l.mapM f = .ok r)
    {a : α} (ha : a ∈ l) : ∃ b ∈ r, f a = .ok b := by
  have hall := forall₂_of_mapM h
  clear h
  induction hall with
  | nil => cases ha
  | cons hab _ ih =>
    rcases List.mem_cons.mp ha with rfl | ha
    · exact ⟨_, by simp, hab⟩
    · obtain ⟨b, hb, hf⟩ := ih ha
      exact ⟨b, by simp [hb], hf⟩

/-- Results that are those of a function. -/
theorem eq_map_of_mapM {f : α → Except ε β} {g : α → β} {l : List α} {r : List β}
    (h : l.mapM f = .ok r) (hg : ∀ a ∈ l, ∀ b, f a = .ok b → b = g a) : r = l.map g := by
  have hall := forall₂_of_mapM h
  clear h
  induction hall with
  | nil => rfl
  | cons hab _ ih =>
    obtain ⟨hhead, htail⟩ := List.forall_mem_cons.mp hg
    rw [List.map_cons, hhead _ hab, ih htail]

theorem length_mapM {f : α → Except ε β} {l : List α} {r : List β} (h : l.mapM f = .ok r) :
    r.length = l.length :=
  (forall₂_of_mapM h).length_eq.symm

/-- The result at an index comes from the argument at that index. -/
theorem exists_of_mapM_zipIdx {f : α × ℕ → Except ε β} {l : List α} {k i : ℕ} {r : List β} {b : β}
    (h : (l.zipIdx k).mapM f = .ok r) (hb : r[i]? = some b) :
    ∃ a, l[i]? = some a ∧ f (a, k + i) = .ok b := by
  induction l generalizing k i r with
  | nil =>
    obtain rfl : [] = r := pure_eq_ok.mp h
    simp at hb
  | cons a l ih =>
    rw [List.zipIdx_cons, List.mapM_cons] at h
    obtain ⟨x, hx, h⟩ := bind_eq_ok.mp h
    obtain ⟨xs, hxs, h⟩ := bind_eq_ok.mp h
    obtain rfl : x :: xs = r := pure_eq_ok.mp h
    cases i with
    | zero =>
      obtain rfl : x = b := by simpa using hb
      exact ⟨a, rfl, hx⟩
    | succ i =>
      obtain ⟨c, hc, hfc⟩ := ih hxs (by simpa using hb)
      exact ⟨c, by simpa using hc, by rwa [show k + (i + 1) = k + 1 + i by omega]⟩

/-- A change of one argument changes the result at its index. -/
theorem mapM_zipIdx_modify {f : α × ℕ → Except ε β} {g : α → α} {h : β → β} {l : List α}
    {k i : ℕ} {a : α} (ha : l[i]? = some a) (hf : f (g a, k + i) = (f (a, k + i)).map h) :
    ((l.modify i g).zipIdx k).mapM f = ((l.zipIdx k).mapM f).map fun r => r.modify i h := by
  induction l generalizing k i with
  | nil => simp at ha
  | cons b l ih =>
    cases i with
    | zero =>
      obtain rfl : b = a := by simpa using ha
      rw [Nat.add_zero] at hf
      rw [List.modify_zero_cons, List.zipIdx_cons, List.zipIdx_cons, List.mapM_cons,
        List.mapM_cons, hf]
      cases f (b, k) with
      | error e => rfl
      | ok x =>
        cases (l.zipIdx (k + 1)).mapM f with
        | error e => rfl
        | ok xs => rfl
    | succ i =>
      have ha' : l[i]? = some a := by simpa using ha
      have hf' : f (g a, k + 1 + i) = (f (a, k + 1 + i)).map h := by
        rwa [show k + 1 + i = k + (i + 1) by omega]
      rw [List.modify_succ_cons, List.zipIdx_cons, List.zipIdx_cons, List.mapM_cons,
        List.mapM_cons, ih ha' hf']
      cases f (b, k) with
      | error e => rfl
      | ok x =>
        cases (l.zipIdx (k + 1)).mapM f with
        | error e => rfl
        | ok xs => rfl

/-- What two computations have in common when the same is read of their results. -/
theorem cases_of_map_eq {γ : Type} {x y : Except ε α} {g : α → γ} (h : x.map g = y.map g) :
    (∃ e, x = .error e ∧ y = .error e) ∨ ∃ a b, x = .ok a ∧ y = .ok b ∧ g a = g b := by
  rcases x with e | a <;> rcases y with e' | b
  · cases h
    exact .inl ⟨e, rfl, rfl⟩
  · cases h
  · cases h
  · exact .inr ⟨a, b, rfl, rfl, Except.ok.inj h⟩

/-- A fold of which each step respects what is read of the state. -/
theorem map_foldlM_congr {γ : Type} {f : β → α → Except ε β} {g : β → γ}
    (h : ∀ b b' a, g b = g b' → (f b a).map g = (f b' a).map g) (l : List α) {b b' : β}
    (hb : g b = g b') : (l.foldlM f b).map g = (l.foldlM f b').map g := by
  induction l generalizing b b' with
  | nil => exact congrArg Except.ok hb
  | cons a l ih =>
    rw [List.foldlM_cons, List.foldlM_cons]
    obtain ⟨e, hfirst, hsecond⟩ | ⟨c, c', hfirst, hsecond, hc⟩ := cases_of_map_eq (h b b' a hb)
    · rw [hfirst, hsecond]
    · rw [hfirst, hsecond]
      exact ih hc

end Except
