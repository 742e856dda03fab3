import Mathlib.Data.List.Nodup

/-!
# Tables with a unique column

The rows of a table in which no two rows have the same key.  Rows are found by their key, changed
in place without a change of their keys, and inserted unless their key is taken.
-/

/-- Rows with different keys. -/
structure Table {κ α : Type} (key : α → κ) where
  rows : List α := []
  unique : (rows.map key).Nodup := by simp

namespace Table

variable {κ α : Type} [DecidableEq κ] {key : α → κ} {t : Table key} {a b : α} {k k' : κ}

/-- `SELECT ... WHERE key = k` -/
def find (t : Table key) (k : κ) : Option α := t.rows.find? fun a => key a = k

theorem find_eq_some : t.find k = some a ↔ a ∈ t.rows ∧ key a = k := by
  constructor
  · intro h
    exact ⟨List.mem_of_find?_eq_some h, by simpa using List.find?_some h⟩
  · rintro ⟨hmem, rfl⟩
    cases hfind : t.find (key a) with
    | none =>
      have hne := List.find?_eq_none.mp hfind a hmem
      simp at hne
    | some b =>
      have hkey : key b = key a := by simpa using List.find?_some hfind
      exact congrArg some
        (List.inj_on_of_nodup_map t.unique (List.mem_of_find?_eq_some hfind) hmem hkey)

theorem find_eq_none : t.find k = none ↔ ∀ a ∈ t.rows, key a ≠ k := by
  simp [find, List.find?_eq_none]

/-- `UPDATE`, of every row. -/
def map (f : α → α) (hf : ∀ a, key (f a) = key a) (t : Table key) : Table key where
  rows := t.rows.map f
  unique := by
    rw [List.map_map, show key ∘ f = key from funext hf]
    exact t.unique

theorem find_map (f : α → α) (hf : ∀ a, key (f a) = key a) (t : Table key) (k : κ) :
    (t.map f hf).find k = (t.find k).map f := by
  rw [find, map, List.find?_map]
  simp only [Function.comp_def, hf]
  rfl

/-- `UPDATE ... WHERE key = k` -/
def modify (k : κ) (f : α → α) (hf : ∀ a, key (f a) = key a) (t : Table key) : Table key :=
  t.map (fun a => if key a = k then f a else a) fun a => by
    split_ifs
    · exact hf a
    · rfl

theorem find_modify (k : κ) (f : α → α) (hf : ∀ a, key (f a) = key a) (t : Table key) (k' : κ) :
    (t.modify k f hf).find k' = if k = k' then (t.find k').map f else t.find k' := by
  rw [modify, find_map]
  cases hfind : t.find k' with
  | none => split_ifs <;> rfl
  | some a =>
    obtain rfl : key a = k' := (find_eq_some.mp hfind).2
    by_cases hk : k = key a
    · simp [hk]
    · simp [hk, Ne.symm hk]

/-- `INSERT`, which the database refuses when the key is taken. -/
def insert (a : α) (t : Table key) : Option (Table key) :=
  if h : key a ∈ t.rows.map key then none
  else some {
    rows := t.rows ++ [a]
    unique := by
      rw [List.map_append, List.map_singleton]
      refine List.nodup_append.mpr ⟨t.unique, List.nodup_singleton _, fun x hx y hy => ?_⟩
      rw [List.mem_singleton.mp hy]
      exact fun heq => h (heq ▸ hx) }

theorem insert_eq_some {t' : Table key} (h : t.insert a = some t') :
    t.find (key a) = none ∧ t'.rows = t.rows ++ [a] := by
  unfold insert at h
  split_ifs at h with hmem
  cases h
  refine ⟨find_eq_none.mpr fun b hb hkey => ?_, rfl⟩
  exact hmem (List.mem_map.mpr ⟨b, hb, hkey⟩)

theorem insert_of_find_eq_none (h : t.find (key a) = none) :
    ∃ t', t.insert a = some t' ∧ t'.rows = t.rows ++ [a] := by
  have hmem : key a ∉ t.rows.map key := by
    intro hmem
    obtain ⟨b, hb, hkey⟩ := List.mem_map.mp hmem
    exact find_eq_none.mp h b hb hkey
  unfold insert
  rw [dif_neg hmem]
  exact ⟨_, rfl, rfl⟩

/-- Several `INSERT`s of one transaction. -/
def insertAll (l : List α) (t : Table key) : Option (Table key) :=
  if h : ((t.rows ++ l).map key).Nodup then some ⟨t.rows ++ l, h⟩ else none

theorem insertAll_of_nodup {l : List α} (h : ((t.rows ++ l).map key).Nodup) :
    t.insertAll l = some ⟨t.rows ++ l, h⟩ := dif_pos h

/-- A row that is there stays there. -/
theorem find_insert {t' : Table key} (h : t.insert a = some t') (hfind : t.find k = some b) :
    t'.find k = some b := by
  obtain ⟨hmem, hkey⟩ := find_eq_some.mp hfind
  refine find_eq_some.mpr ⟨?_, hkey⟩
  rw [(insert_eq_some h).2]
  exact List.mem_append_left _ hmem

/-- The row that is inserted. -/
theorem find_inserted {t' : Table key} (h : t.insert a = some t') : t'.find (key a) = some a := by
  refine find_eq_some.mpr ⟨?_, rfl⟩
  rw [(insert_eq_some h).2]
  exact List.mem_append_right _ List.mem_cons_self

end Table
