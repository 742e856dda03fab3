import PaymentOps.Lib.RowOrder
import PaymentOps.Lib.Session

/-!
# Tables with several owners

The rows of one owner are those that satisfy a predicate, and `rank` numbers them: the key that a
row would have if the owner had the table to itself.

* `getElem?_rank`: a row of the owner is found under its rank among the rows of the owner;
* `rank_append`: keys of stored rows keep their ranks when rows are appended;
* `RowOrder.insertion_first` and `RowOrder.insertion_rank`: in the order of keys, the first match
  has the least key, and the least rank;
* `Session.Alike` and `Session.Parts`: two runs that end alike, and two runs of which one stops
  where the other goes on; `each_alike` and `each_parts` carry them through a loop.
-/

/-- How many of the rows before a key are the owner's. -/
def rank {α : Type} (p : α → Bool) (rows : List α) (k : ℕ) : ℕ := (rows.take k).countP p

section

variable {α : Type} {p : α → Bool} {rows : List α} {k : ℕ}

theorem rank_append (h : k ≤ rows.length) (l : List α) : rank p (rows ++ l) k = rank p rows k := by
  rw [rank, List.take_append_of_le_length h, rank]

theorem rank_length : rank p rows rows.length = (rows.filter p).length := by
  rw [rank, List.take_length, List.countP_eq_length_filter]

/-- A row of the owner is found under its rank. -/
theorem getElem?_rank {a : α} (h : rows[k]? = some a) (ha : p a) :
    (rows.filter p)[rank p rows k]? = some a := by
  induction rows generalizing k with
  | nil => simp at h
  | cons b rows ih =>
    cases k with
    | zero =>
      obtain rfl : b = a := by simpa using h
      simp [rank, ha]
    | succ k =>
      have hk := ih (k := k) (by simpa using h)
      unfold rank at hk ⊢
      by_cases hb : p b
      · simpa [hb] using hk
      · simpa [hb] using hk

/-- Two rows of the owner with one rank have one key. -/
theorem rank_inj {j : ℕ} {a b : α} (hk : rows[k]? = some a) (ha : p a) (hj : rows[j]? = some b)
    (hb : p b) (h : rank p rows k = rank p rows j) : k = j := by
  have hlt : ∀ {i i' : ℕ} {c : α}, rows[i]? = some c → p c → i < i' →
      rank p rows i < rank p rows i' := by
    intro i i' c hi hc hii
    have hsucc : rank p rows (i + 1) = rank p rows i + 1 := by
      rw [rank, List.take_add_one, hi, List.countP_append, rank]
      simp [hc]
    have hmono : rank p rows (i + 1) ≤ rank p rows i' := by
      have hsub : (rows.take (i + 1)).Sublist (rows.take i') :=
        List.take_sublist_take_left hii
      exact hsub.countP_le
    omega
  by_contra hne
  rcases Nat.lt_or_gt_of_ne hne with hlt' | hlt'
  · have := hlt hk ha hlt'
    omega
  · have := hlt hj hb hlt'
    omega

/-- The rank of the first match is its place among the rows of the owner. -/
theorem rank_findIdx {q : α → Bool} (h : ∀ a, q a → p a) (rows : List α) :
    (rows.filter p).findIdx q = rank p rows (rows.findIdx q) := by
  induction rows with
  | nil => rfl
  | cons a rows ih =>
    by_cases hq : q a
    · have hp := h a hq
      simp [List.findIdx_cons, hq, hp, rank]
    · by_cases hp : p a
      · simpa [List.findIdx_cons, hq, hp, rank] using ih
      · simpa [List.findIdx_cons, hq, hp, rank] using ih

end

namespace RowOrder

variable {σ α : Type} {table : σ → List α}

/-- In the order of keys, the first match has the least key. -/
theorem insertion_first (s : σ) (p : α → Bool) :
    (insertion σ table).first s p =
      (table s)[(table s).findIdx p]?.map ((table s).findIdx p, ·) := by
  have hlist : ∀ rows : List α,
      ((List.range rows.length).filterMap fun i => (rows[i]?.filter p).map (i, ·)).head? =
        rows[rows.findIdx p]?.map (rows.findIdx p, ·) := by
    intro rows
    induction rows with
    | nil => rfl
    | cons a rows ih =>
      rw [List.length_cons, List.range_succ_eq_map, List.filterMap_cons, List.filterMap_map]
      by_cases ha : p a
      · simp [ha, List.findIdx_cons, Option.filter]
      · have hshift : (fun i => ((a :: rows)[i]?.filter p).map (i, ·)) ∘ Nat.succ =
            fun i => ((rows[i]?.filter p).map (i, ·)).map fun r => (r.1 + 1, r.2) := by
          funext i
          simp [Function.comp_def]
        have hhead : ((a :: rows)[0]?.filter p).map (0, ·) = none := by
          simp [Option.filter, ha]
        have hidx : (a :: rows).findIdx p = rows.findIdx p + 1 := by
          simp [List.findIdx_cons, ha]
        simp only [hhead, hidx, hshift, List.getElem?_cons_succ]
        rw [← List.map_filterMap, List.head?_map, ih]
        simp [Function.comp_def]
  exact hlist (table s)

/-- In the order of keys, the first match has the least rank. -/
theorem insertion_rank {p q : α → Bool} (h : ∀ a, q a → p a) (s : σ) :
    ((insertion σ table).first s q).map (fun r => (rank p (table s) r.1, r.2)) =
      ((table s).filter p)[((table s).filter p).findIdx q]?.map
        (((table s).filter p).findIdx q, ·) := by
  rw [insertion_first, rank_findIdx h]
  rcases hrow : (table s)[(table s).findIdx q]? with _ | a
  · have hnone : ∀ a ∈ table s, ¬ q a := by
      intro a ha hqa
      have hlt := List.findIdx_lt_length_of_exists ⟨a, ha, hqa⟩
      have hge := List.getElem?_eq_none_iff.mp hrow
      omega
    have hidx : ((table s).filter p).findIdx q = ((table s).filter p).length :=
      List.findIdx_eq_length.mpr fun a ha => by simpa using hnone a (List.mem_filter.mp ha).1
    rw [← rank_findIdx h, hidx, List.getElem?_eq_none (Nat.le_refl _)]
    rfl
  · have hqa : q a := by
      obtain ⟨hlt, heq⟩ := List.getElem?_eq_some_iff.mp hrow
      rw [← heq]
      exact List.findIdx_getElem
    rw [getElem?_rank hrow (h a hqa)]
    rfl

end RowOrder

namespace Session

variable {σ ε α β : Type}

/-- The two runs have the same outcome and end in related stores. -/
def Alike (R : σ → σ → Prop) (m m' : Session σ ε Unit) (s s' : σ) : Prop :=
  (m.run s).outcome = (m'.run s').outcome ∧ R ((m.run s).final s) ((m'.run s').final s')

theorem Alike.mono {R R' : σ → σ → Prop} {m m' : Session σ ε Unit} {s s' : σ}
    (h : Alike R m m' s s') (hR : ∀ t t', R t t' → R' t t') : Alike R' m m' s s' :=
  ⟨h.1, hR _ _ h.2⟩

/-- One of the two runs stops, and the other one gets further, as measured by `g`. -/
def Parts (g : σ → ℕ) (m m' : Session σ ε Unit) (s s' : σ) : Prop :=
  (∃ e, (m.run s).outcome = .error e ∧ g ((m.run s).final s) < g ((m'.run s').final s')) ∨
    ∃ e, (m'.run s').outcome = .error e ∧ g ((m'.run s').final s') < g ((m.run s).final s)

/-- Runs that part do not end in stores with the same measure. -/
theorem Parts.not_alike {R : σ → σ → Prop} {g : σ → ℕ} (hR : ∀ {t t'}, R t t' → g t = g t')
    {m m' : Session σ ε Unit} {s s' : σ} (h : Parts g m m' s s') : ¬ Alike R m m' s s' := by
  rintro ⟨-, hend⟩
  have heq := hR hend
  rcases h with ⟨-, -, hlt⟩ | ⟨-, -, hlt⟩
  · omega
  · omega

section

variable {R : σ → σ → Prop} {g : σ → ℕ} {m m' : Session σ ε β} {k k' : β → Session σ ε Unit}
  {s s' : σ} {b b' : β}

theorem Alike.bind (hm : (m.run s).outcome = .ok b) (hm' : (m'.run s').outcome = .ok b')
    (h : Alike R (k b) (k' b') ((m.run s).final s) ((m'.run s').final s')) :
    Alike R (m >>= k) (m' >>= k') s s' := by
  unfold Alike
  rw [bind_final hm, bind_final hm', bind_ok hm, bind_ok hm']
  exact h

theorem Parts.bind (hm : (m.run s).outcome = .ok b) (hm' : (m'.run s').outcome = .ok b')
    (h : Parts g (k b) (k' b') ((m.run s).final s) ((m'.run s').final s')) :
    Parts g (m >>= k) (m' >>= k') s s' := by
  unfold Parts
  rw [bind_final hm, bind_final hm', bind_ok hm, bind_ok hm']
  exact h

/-- Once the runs have parted they stay so. -/
theorem Parts.bind_ascends {n n' : Session σ ε Unit} {l l' : Unit → Session σ ε Unit}
    (h : Parts g n n' s s') (hl : ∀ b, Ascends g (l b)) (hl' : ∀ b, Ascends g (l' b)) :
    Parts g (n >>= l) (n' >>= l') s s' := by
  have hgrows : ∀ {n : Session σ ε Unit} {l : Unit → Session σ ε Unit} (s : σ),
      (∀ b, Ascends g (l b)) → g ((n.run s).final s) ≤ g (((n >>= l).run s).final s) := by
    intro n l s hl
    rcases ho : (n.run s).outcome with e | b
    · rewrite [bind_final_error ho]
      exact Nat.le_refl _
    · rw [bind_final ho]
      exact hl b _
  rcases h with ⟨e, he, hlt⟩ | ⟨e, he, hlt⟩
  · refine .inl ⟨e, by rw [bind_error he], ?_⟩
    rw [bind_final_error he]
    exact Nat.lt_of_lt_of_le hlt (hgrows s' hl')
  · refine .inr ⟨e, by rw [bind_error he], ?_⟩
    rw [bind_final_error he]
    exact Nat.lt_of_lt_of_le hlt (hgrows s hl)

end

variable {R : σ → σ → Prop} {g : σ → ℕ} {f f' : α → Session σ ε Unit} {xs : List α}

/-- Loops whose iterations end alike end alike. -/
theorem each_alike {s s' : σ} (hR : R s s')
    (h : ∀ v ∈ visited f xs s, ∀ t', R v.2 t' → Alike R (f v.1) (f' v.1) v.2 t') :
    Alike R (each f xs) (each f' xs) s s' := by
  induction xs generalizing s s' with
  | nil => exact ⟨rfl, hR⟩
  | cons x xs ih =>
    rw [visited] at h
    obtain ⟨hout, hend⟩ := h (x, s) List.mem_cons_self s' hR
    rw [each_cons, each_cons]
    rcases ho : ((f x).run s).outcome with e | b
    · have ho' : ((f' x).run s').outcome = .error e := hout.symm.trans ho
      unfold Alike
      rw [bind_final_error ho, bind_final_error ho', bind_error ho, bind_error ho']
      exact ⟨rfl, hend⟩
    · rw [ho] at h
      refine Alike.bind ho (hout.symm.trans ho) ?_
      exact ih hend fun v hv => h v (List.mem_cons_of_mem _ hv)

/-- Loops part at the first iteration that does. -/
theorem each_parts {A : α × σ → Prop} {s s' : σ} (hR : R s s')
    (h : ∀ v ∈ visited f xs s, ∀ t', R v.2 t' →
      (A v → Alike R (f v.1) (f' v.1) v.2 t') ∧ (¬ A v → Parts g (f v.1) (f' v.1) v.2 t'))
    (hf : ∀ x, Ascends g (f x)) (hf' : ∀ x, Ascends g (f' x))
    (hno : ∃ v ∈ visited f xs s, ¬ A v) : Parts g (each f xs) (each f' xs) s s' := by
  induction xs generalizing s s' with
  | nil => simp [visited] at hno
  | cons x xs ih =>
    rw [visited] at h hno
    obtain ⟨halike, hparts⟩ := h (x, s) List.mem_cons_self s' hR
    rw [each_cons, each_cons]
    by_cases hA : A (x, s)
    · obtain ⟨hout, hend⟩ := halike hA
      rcases ho : ((f x).run s).outcome with e | b
      · rw [ho] at hno
        obtain ⟨v, hv, hbad⟩ := hno
        obtain rfl := List.mem_singleton.mp hv
        exact absurd hA hbad
      · rw [ho] at h hno
        refine Parts.bind ho (hout.symm.trans ho) (ih hend (fun v hv => h v ?_) ?_)
        · exact List.mem_cons_of_mem _ hv
        · obtain ⟨v, hv, hbad⟩ := hno
          rcases List.mem_cons.mp hv with rfl | hv
          · exact absurd hA hbad
          · exact ⟨v, hv, hbad⟩
    · exact (hparts hA).bind_ascends (fun _ => .each fun y _ => hf y) fun _ =>
        .each fun y _ => hf' y

end Session
