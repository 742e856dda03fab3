import Mathlib.Data.List.Nodup

/-!
# Tables whose rows come back in any order

A table is a list of rows, a row's key is its position, and rows are only ever appended or
updated in place.  A query without `ORDER BY` returns the matching rows in an order of the
database's choosing, which may differ from store to store and from query to query.

* `RowOrder` is one such choice, `RowOrder.select` and `RowOrder.first` are the queries;
* `RowOrder.select_perm`: whatever the order, the rows are the same;
* `RowOrder.exists_select`: what is returned in one store may be returned in another one with the
  same matching rows;
* `RowOrder.insertion` returns rows in the order of their keys;
* `RowOrder.preferring` puts a chosen key first, `RowOrder.pin` keeps to the choices of one store.
-/

/-- An order for the rows of `table`, for every store and every query. -/
structure RowOrder (σ : Type) {α : Type} (table : σ → List α) where
  order : σ → (α → Bool) → List ℕ
  perm : ∀ s p, (order s p).Perm (List.range (table s).length)

namespace RowOrder

variable {σ α : Type} {table : σ → List α}

/-- The rows that satisfy `p`, with their keys, in the order of the database. -/
def select (o : RowOrder σ table) (s : σ) (p : α → Bool) : List (ℕ × α) :=
  (o.order s p).filterMap fun i => ((table s)[i]?.filter p).map (i, ·)

/-- `scalars().first()`: the first row returned, if any. -/
def first (o : RowOrder σ table) (s : σ) (p : α → Bool) : Option (ℕ × α) :=
  (o.select s p).head?

theorem mem_select {o : RowOrder σ table} {s : σ} {p : α → Bool} {i : ℕ} {r : α} :
    (i, r) ∈ o.select s p ↔ (table s)[i]? = some r ∧ p r := by
  simp only [select, List.mem_filterMap, Option.map_eq_some_iff, Option.filter_eq_some_iff,
    Prod.mk.injEq]
  constructor
  · rintro ⟨j, -, r', ⟨hr, hp⟩, rfl, rfl⟩
    exact ⟨hr, hp⟩
  · rintro ⟨hr, hp⟩
    have hi : i < (table s).length := (List.getElem?_eq_some_iff.mp hr).1
    exact ⟨i, (o.perm s p).mem_iff.mpr (List.mem_range.mpr hi), r, ⟨hr, hp⟩, rfl, rfl⟩

theorem first_some {o : RowOrder σ table} {s : σ} {p : α → Bool} {i : ℕ} {r : α}
    (h : o.first s p = some (i, r)) : (table s)[i]? = some r ∧ p r :=
  mem_select.mp (List.mem_of_mem_head? h)

theorem first_eq_none {o : RowOrder σ table} {s : σ} {p : α → Bool} :
    o.first s p = none ↔ ∀ r ∈ table s, ¬ p r := by
  rw [first, List.head?_eq_none_iff, List.eq_nil_iff_forall_not_mem]
  constructor
  · intro h r hr hp
    obtain ⟨i, hi⟩ := List.getElem?_of_mem hr
    exact h (i, r) (mem_select.mpr ⟨hi, hp⟩)
  · rintro h ⟨i, r⟩ hir
    obtain ⟨hi, hp⟩ := mem_select.mp hir
    exact h r (List.mem_of_getElem? hi) hp

theorem exists_first {o : RowOrder σ table} {s : σ} {p : α → Bool} {i : ℕ} {r : α}
    (hr : (table s)[i]? = some r) (hp : p r) : ∃ j r', o.first s p = some (j, r') := by
  rcases h : o.first s p with _ | ⟨j, r'⟩
  · exact absurd hp (first_eq_none.mp h r (List.mem_of_getElem? hr))
  · exact ⟨j, r', rfl⟩

theorem filterMap_range (l : List α) (p : α → Bool) :
    (List.range l.length).filterMap (fun i => l[i]?.filter p) = l.filter p := by
  induction l with
  | nil => rfl
  | cons a l ih =>
    rw [List.length_cons, List.range_succ_eq_map, List.filterMap_cons, List.filterMap_map]
    cases h : p a <;> simpa [h, Option.filter, Function.comp_def] using ih

theorem map_select (o : RowOrder σ table) (s : σ) (p : α → Bool) :
    (o.select s p).map (·.2) = (o.order s p).filterMap fun i => (table s)[i]?.filter p := by
  rw [select, List.map_filterMap]
  simp [Function.comp_def]

/-- A query returns the matching rows, each once. -/
theorem select_perm (o : RowOrder σ table) (s : σ) (p : α → Bool) :
    ((o.select s p).map (·.2)).Perm ((table s).filter p) := by
  rw [map_select, ← filterMap_range (table s)]
  exact (o.perm s p).filterMap _

/-- A query returns no key twice. -/
theorem select_keys_nodup (o : RowOrder σ table) (s : σ) (p : α → Bool) :
    ((o.select s p).map (·.1)).Nodup := by
  rw [select, List.map_filterMap]
  refine List.Nodup.filterMap (fun i j k hi hj => ?_) ((o.perm s p).nodup_iff.mpr List.nodup_range)
  have hkey : ∀ i, k ∈ (((table s)[i]?.filter p).map (i, ·)).map Prod.fst → k = i := by
    intro i h
    obtain ⟨row, hrow, rfl⟩ := Option.map_eq_some_iff.mp h
    obtain ⟨r, -, rfl⟩ := Option.map_eq_some_iff.mp hrow
    rfl
  exact (hkey i hi).symm.trans (hkey j hj)

theorem select_length (o : RowOrder σ table) (s : σ) (p : α → Bool) :
    (o.select s p).length = (table s).countP p := by
  rw [← List.length_map (·.2), (o.select_perm s p).length_eq, List.countP_eq_length_filter]

/-- The order that returns the rows of every store as `o` does in `s₀`. -/
def pin (o : RowOrder σ table) (s₀ : σ) : RowOrder σ table where
  order s p := if (table s).length = (table s₀).length then o.order s₀ p else o.order s p
  perm s p := by
    split_ifs with h
    · rw [h]
      exact o.perm s₀ p
    · exact o.perm s p

theorem pin_select (o : RowOrder σ table) {s s₀ : σ} (h : table s = table s₀) (p : α → Bool) :
    (o.pin s₀).select s p = o.select s₀ p := by
  simp only [select, pin, h, if_true]

/-- Any order of what a scan finds is the order of some scan. -/
theorem exists_perm_filterMap {β : Type} {f : β → Option α} {rows found : List α}
    (h : rows.Perm found) {keys : List β} (hfound : keys.filterMap f = found) :
    ∃ keys' : List β, keys'.Perm keys ∧ keys'.filterMap f = rows := by
  induction h generalizing keys with
  | nil => exact ⟨keys, .refl _, hfound⟩
  | cons a _ ih =>
    obtain ⟨pre, k, post, rfl, hpre, hk, hpost⟩ := List.filterMap_eq_cons_iff.mp hfound
    obtain ⟨post', hperm, hrows⟩ := ih hpost
    refine ⟨pre ++ k :: post', (hperm.cons k).append_left pre, ?_⟩
    rw [List.filterMap_append, List.filterMap_eq_nil_iff.mpr hpre, List.filterMap_cons_some hk,
      hrows, List.nil_append]
  | swap a b rest =>
    obtain ⟨pre, k, post, rfl, hpre, hk, hpost⟩ := List.filterMap_eq_cons_iff.mp hfound
    obtain ⟨mid, k', post, rfl, hmid, hk', rfl⟩ := List.filterMap_eq_cons_iff.mp hpost
    refine ⟨pre ++ k' :: k :: (mid ++ post), ?_, ?_⟩
    · refine List.Perm.append_left pre ?_
      exact (List.Perm.swap k k' _).trans (List.perm_middle.symm.cons k)
    · simp only [List.filterMap_append, List.filterMap_eq_nil_iff.mpr hpre,
        List.filterMap_eq_nil_iff.mpr hmid, List.filterMap_cons_some hk,
        List.filterMap_cons_some hk', List.nil_append]
  | trans _ _ ih ih' =>
    obtain ⟨mid, hperm, hmid⟩ := ih' hfound
    obtain ⟨keys', hperm', hrows⟩ := ih hmid
    exact ⟨keys', hperm'.trans hperm, hrows⟩

/-- Some order returns the given rows wherever they are the matching ones. -/
theorem exists_order (rows : List α) (found : (α → Bool) → List α) :
    ∃ o : RowOrder σ table, ∀ t, table t = rows → ∀ p, (found p).Perm (rows.filter p) →
      (o.select t p).map (·.2) = found p := by
  have hkeys : ∀ p, ∃ keys : List ℕ, keys.Perm (List.range rows.length) ∧
      ((found p).Perm (rows.filter p) →
        keys.filterMap (fun i => rows[i]?.filter p) = found p) := by
    intro p
    by_cases h : (found p).Perm (rows.filter p)
    · obtain ⟨keys, hk, hrows⟩ := exists_perm_filterMap h (filterMap_range rows p)
      exact ⟨keys, hk, fun _ => hrows⟩
    · exact ⟨_, .refl _, fun h' => absurd h' h⟩
  choose keys hperm hrows using hkeys
  let o : RowOrder σ table := {
    order := fun t p =>
      if (table t).length = rows.length then keys p else List.range (table t).length
    perm := by
      intro t p
      split_ifs with h
      · rw [h]
        exact hperm p
      · exact .refl _ }
  refine ⟨o, fun t ht p h => ?_⟩
  rw [map_select, ← hrows p h, ht]
  simp only [o, ht, if_true]

/-- What the queries return in one store they may return wherever the matching rows are the
same. -/
theorem exists_select (o : RowOrder σ table) (s : σ) (rows : List α) :
    ∃ o' : RowOrder σ table, ∀ t, table t = rows → ∀ p, rows.filter p = (table s).filter p →
      (o'.select t p).map (·.2) = (o.select s p).map (·.2) := by
  obtain ⟨o', ho'⟩ : ∃ o' : RowOrder σ table, _ :=
    exists_order rows fun p => (o.select s p).map (·.2)
  refine ⟨o', fun t ht p h => ho' t ht p ?_⟩
  rw [h]
  exact o.select_perm s p

/-- A query with a limit returns everything that `keep` keeps of a table, in whatever order the
rows come, exactly when the query finds all of it and the limit cuts nothing off. -/
theorem limit_finds_all_iff {β : Type} (rows : List α) (p : α → Bool) (keep : α → Option β)
    (limit : ℕ) :
    (∀ found : List α, found.Perm (rows.filter p) →
        ((found.take limit).filterMap keep).Perm (rows.filterMap keep)) ↔
      (∀ a ∈ rows, (keep a).isSome → p a) ∧
        (rows.filterMap keep = [] ∨ rows.countP p ≤ limit) := by
  let kept : α → Bool := fun a => (keep a).isSome
  have hlength : ∀ l : List α, (l.filterMap keep).length = l.countP kept := fun l =>
    List.length_filterMap_eq_countP
  have hsplit : (rows.filter p).countP kept + (rows.filter (! p ·)).countP kept =
      rows.countP kept := by
    rw [← List.countP_append]
    exact (List.filter_append_perm p rows).countP_eq kept
  constructor
  · intro h
    have hcount : ∀ found : List α, found.Perm (rows.filter p) →
        (found.take limit).countP kept = rows.countP kept := by
      intro found hfound
      rw [← hlength, ← hlength, (h found hfound).length_eq]
    have hcut : ((rows.filter p).take limit).countP kept ≤ (rows.filter p).countP kept :=
      (List.take_sublist _ _).countP_le
    have hall := hcount (rows.filter p) (.refl _)
    have hmissed : (rows.filter (! p ·)).countP kept = 0 := by omega
    refine ⟨fun a ha hkeep => ?_, ?_⟩
    · by_contra hp
      exact List.countP_eq_zero.mp hmissed a (List.mem_filter.mpr ⟨ha, by simpa using hp⟩) hkeep
    · by_cases hnil : rows.filterMap keep = []
      · exact .inl hnil
      · right
        by_contra hlimit
        have hpos : 0 < (rows.filter p).countP kept := by
          have hne := List.length_pos_of_ne_nil hnil
          rw [hlength] at hne
          omega
        obtain ⟨a, ha, hkeep⟩ := List.countP_pos_iff.mp hpos
        obtain ⟨pre, post, heq⟩ := List.append_of_mem ha
        -- the row that is kept may come last, and then it is cut off
        have hperm : (pre ++ post ++ [a]).Perm (rows.filter p) := by
          rw [heq, List.append_assoc]
          exact .append_left pre List.perm_append_comm
        have hlast := hcount _ hperm
        have hfit : limit ≤ (pre ++ post).length := by
          rw [List.countP_eq_length_filter, heq] at hlimit
          simp only [List.length_append, List.length_cons] at hlimit ⊢
          omega
        rw [List.take_append_of_le_length hfit] at hlast
        have hle : ((pre ++ post).take limit).countP kept ≤ (pre ++ post).countP kept :=
          (List.take_sublist _ _).countP_le
        have hone : (rows.filter p).countP kept = (pre ++ post).countP kept + 1 := by
          rw [heq]
          simp only [List.countP_append, List.countP_cons_of_pos hkeep]
          omega
        omega
  · rintro ⟨hfind, hfits⟩ found hfound
    have hnone : ∀ a ∈ rows, ¬ p a → keep a = none := fun a ha hp =>
      Option.not_isSome_iff_eq_none.mp fun hkeep => hp (hfind a ha hkeep)
    rcases hfits with hnil | hlimit
    · have hkeep := List.filterMap_eq_nil_iff.mp hnil
      have hempty : (found.take limit).filterMap keep = [] := by
        refine List.filterMap_eq_nil_iff.mpr fun a ha => hkeep a ?_
        exact (List.mem_filter.mp (hfound.mem_iff.mp (List.mem_of_mem_take ha))).1
      rw [hnil, hempty]
    · have htake : found.take limit = found := by
        apply List.take_of_length_le
        rw [hfound.length_eq, ← List.countP_eq_length_filter]
        exact hlimit
      rw [htake]
      refine (hfound.filterMap keep).trans ?_
      have hrest : (rows.filter (! p ·)).filterMap keep = [] := by
        refine List.filterMap_eq_nil_iff.mpr fun a ha => ?_
        obtain ⟨hmem, hp⟩ := List.mem_filter.mp ha
        exact hnone a hmem (by simpa using hp)
      have hboth := (List.filter_append_perm p rows).filterMap keep
      rwa [List.filterMap_append, hrest, List.append_nil] at hboth

/-- Rows in the order of their keys. -/
def insertion (σ : Type) {α : Type} (table : σ → List α) : RowOrder σ table where
  order s _ := List.range (table s).length
  perm _ _ := .refl _

/-- Rows in the order of their keys, except that the key `k s p` comes first where it exists. -/
def preferring (k : σ → (α → Bool) → ℕ) : RowOrder σ table where
  order s p :=
    (List.range (table s).length).filter (· == k s p) ++
      (List.range (table s).length).filter (! · == k s p)
  perm _ _ := List.filter_append_perm _ _

theorem preferring_first {k : σ → (α → Bool) → ℕ} {s : σ} {p : α → Bool} {r : α}
    (hr : (table s)[k s p]? = some r) (hp : p r) :
    (preferring k : RowOrder σ table).first s p = some (k s p, r) := by
  have hk : k s p < (table s).length := (List.getElem?_eq_some_iff.mp hr).1
  have hf : (List.range (table s).length).filter (· == k s p) = [k s p] := by
    rw [List.filter_beq, List.count_eq_one_of_mem List.nodup_range (List.mem_range.mpr hk)]
    rfl
  simp [first, select, preferring, hf, hr, hp]

end RowOrder
