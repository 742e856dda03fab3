import Mathlib.Data.List.Basic

/-!
# Dictionaries

A Python dictionary as its list of items, keys in order of insertion.  `Dict.Extends` is the
relation of a dictionary to one in which no key has been given another value since; `Dict.tally`
counts the elements of a list under their keys.
-/

/-- The items of a dictionary. -/
abbrev Dict (κ α : Type) := List (κ × α)

namespace Dict

variable {κ α : Type} [DecidableEq κ]

/-- `d.get(k)` -/
def get (d : Dict κ α) (k : κ) : Option α := (d.find? (·.1 = k)).map (·.2)

/-- `d[k] = v`: the value of an existing key is replaced in place. -/
def set (d : Dict κ α) (k : κ) (v : α) : Dict κ α :=
  match d with
  | [] => [(k, v)]
  | (k', v') :: d => if k' = k then (k, v) :: d else (k', v') :: set d k v

/-- `k in d` -/
def contains (d : Dict κ α) (k : κ) : Bool := (d.get k).isSome

@[simp] theorem get_nil (k : κ) : get ([] : Dict κ α) k = none := rfl

theorem get_cons (k' : κ) (v' : α) (d : Dict κ α) (k : κ) :
    get ((k', v') :: d) k = if k' = k then some v' else get d k := by
  unfold get
  split_ifs with h <;> simp [h]

@[simp] theorem get_set_self (d : Dict κ α) (k : κ) (v : α) : (d.set k v).get k = some v := by
  induction d with
  | nil => simp [set, get_cons]
  | cons p d ih =>
    rw [set]
    split_ifs with h
    · simp [get_cons]
    · rw [get_cons, if_neg h, ih]

theorem get_set_of_ne (d : Dict κ α) {k k' : κ} (v : α) (h : k' ≠ k) :
    (d.set k v).get k' = d.get k' := by
  induction d with
  | nil => simp [set, get_cons, h.symm]
  | cons p d ih =>
    obtain ⟨k₀, v₀⟩ := p
    rw [set]
    split_ifs with h₀
    · rw [get_cons, get_cons, if_neg h.symm, if_neg (h₀ ▸ h.symm)]
    · rw [get_cons, get_cons, ih]

/-- A new key is appended. -/
theorem set_of_get_eq_none {d : Dict κ α} {k : κ} (v : α) (h : d.get k = none) :
    d.set k v = d ++ [(k, v)] := by
  induction d with
  | nil => rfl
  | cons p d ih =>
    rw [get_cons] at h
    split_ifs at h with hk
    rw [set, if_neg hk, ih h]
    rfl

theorem get_eq_none {d : Dict κ α} {k : κ} : d.get k = none ↔ ∀ p ∈ d, p.1 ≠ k := by
  simp [get]

theorem mem_of_get {d : Dict κ α} {k : κ} {v : α} (h : d.get k = some v) : (k, v) ∈ d := by
  obtain ⟨p, hp, rfl⟩ := Option.map_eq_some_iff.mp h
  obtain rfl : p.1 = k := by simpa using List.find?_some hp
  exact List.mem_of_find?_eq_some hp

theorem mem_set_self (d : Dict κ α) (k : κ) (v : α) : (k, v) ∈ d.set k v := by
  induction d with
  | nil => simp [set]
  | cons p d ih =>
    rw [set]
    split_ifs
    · exact List.mem_cons_self
    · exact List.mem_cons_of_mem _ ih

theorem mem_of_mem_set {d : Dict κ α} {k : κ} {v : α} {p : κ × α} (h : p ∈ d.set k v) :
    p ∈ d ∨ p = (k, v) := by
  induction d with
  | nil => exact .inr (List.mem_singleton.mp h)
  | cons q d ih =>
    rw [set] at h
    split_ifs at h
    · rcases List.mem_cons.mp h with h | h
      · exact .inr h
      · exact .inl (List.mem_cons_of_mem _ h)
    · rcases List.mem_cons.mp h with h | h
      · exact .inl (h ▸ List.mem_cons_self)
      · exact (ih h).imp (List.mem_cons_of_mem _) id

/-- What a new value adds to a count of something over the items. -/
theorem count_flatMap_set_le {β : Type} [DecidableEq β] (d : Dict κ α) (k : κ) (v : α)
    (f : κ × α → List β) (b : β) :
    ((d.set k v).flatMap f).count b ≤ (d.flatMap f).count b + (f (k, v)).count b := by
  induction d with
  | nil => simp [set]
  | cons p d ih =>
    obtain ⟨k', v'⟩ := p
    rw [set]
    split_ifs
    · rw [List.flatMap_cons, List.flatMap_cons, List.count_append, List.count_append]
      omega
    · rw [List.flatMap_cons, List.flatMap_cons, List.count_append, List.count_append]
      omega

/-- Every key of `d` still has its value in `d'`. -/
def Extends (d d' : Dict κ α) : Prop := ∀ k v, d.get k = some v → d'.get k = some v

namespace Extends

theorem refl (d : Dict κ α) : Extends d d := fun _ _ h => h

theorem trans {d₁ d₂ d₃ : Dict κ α} (h : Extends d₁ d₂) (h' : Extends d₂ d₃) :
    Extends d₁ d₃ := fun k v hk => h' k v (h k v hk)

/-- First come, first served: setting a key that is free, or has that value already. -/
theorem set {d : Dict κ α} {k : κ} {v : α} (h : ∀ w, d.get k = some w → w = v) :
    Extends d (d.set k v) := by
  intro k' v' hk'
  by_cases hk : k' = k
  · subst hk
    rw [get_set_self, h v' hk']
  · rwa [get_set_of_ne d v hk]

end Extends

/-! ## Counts -/

/-- `d.get(k, 0)` -/
def countOf (d : Dict κ ℕ) (k : κ) : ℕ := (d.get k).getD 0

/-- `sum(d.values())` -/
def total (d : Dict κ ℕ) : ℕ := d.foldr (fun p n => p.2 + n) 0

/-- `d[k] = d.get(k, 0) + 1` -/
def bump (d : Dict κ ℕ) (k : κ) : Dict κ ℕ := d.set k (d.countOf k + 1)

/-- The elements of a list, counted under their keys. -/
def tally {ι : Type} (key : ι → κ) (xs : List ι) : Dict κ ℕ :=
  xs.foldl (fun d x => bump d (key x)) []

theorem countOf_bump (d : Dict κ ℕ) (k k' : κ) :
    (d.bump k).countOf k' = d.countOf k' + if k = k' then 1 else 0 := by
  unfold bump
  by_cases h : k = k'
  · rw [← h, if_pos rfl, countOf, get_set_self, Option.getD_some]
  · rw [if_neg h, countOf, get_set_of_ne _ _ (Ne.symm h), countOf, Nat.add_zero]

theorem total_set (d : Dict κ ℕ) (k : κ) (n : ℕ) :
    (d.set k n).total + d.countOf k = d.total + n := by
  induction d with
  | nil => simp [set, total, countOf]
  | cons p d ih =>
    obtain ⟨k', m⟩ := p
    have htotal : ∀ (p : κ × ℕ) (d : Dict κ ℕ), total (p :: d) = p.2 + total d := fun _ _ => rfl
    rw [set, countOf, get_cons, htotal]
    split_ifs with h
    · rw [htotal, Option.getD_some]
      omega
    · rw [countOf] at ih
      rw [htotal]
      omega

theorem total_bump (d : Dict κ ℕ) (k : κ) : (d.bump k).total = d.total + 1 := by
  have h := d.total_set k (d.countOf k + 1)
  unfold bump
  omega

/-- Each element is counted under its key. -/
theorem countOf_tally {ι : Type} (key : ι → κ) (xs : List ι) (k : κ) :
    (tally key xs).countOf k = xs.countP (key · = k) := by
  have hfold : ∀ d : Dict κ ℕ, countOf (xs.foldl (fun d x => bump d (key x)) d) k =
      d.countOf k + xs.countP (key · = k) := by
    induction xs with
    | nil => exact fun d => rfl
    | cons x xs ih =>
      intro d
      rw [List.foldl_cons, ih, countOf_bump, List.countP_cons]
      simp only [decide_eq_true_eq]
      omega
  rw [tally, hfold]
  exact Nat.zero_add _

/-- Each element is counted once. -/
theorem total_tally {ι : Type} (key : ι → κ) (xs : List ι) :
    (tally key xs).total = xs.length := by
  have hfold : ∀ d : Dict κ ℕ,
      total (xs.foldl (fun d x => bump d (key x)) d) = d.total + xs.length := by
    induction xs with
    | nil => exact fun d => rfl
    | cons x xs ih =>
      intro d
      rw [List.foldl_cons, ih, total_bump, List.length_cons]
      omega
  rw [tally, hfold]
  exact Nat.zero_add _

end Dict
