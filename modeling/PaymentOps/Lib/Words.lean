import PaymentOps.Lib.Text

/-!
# Words

The words of a list are its maximal runs of elements that are no separators.

* `fields_append_cons`, `fields_intercalate`: how words come apart at a separator;
* `fields_fields`: splitting at some separators first changes nothing;
* `replaceRuns_eq`: replacing each run of separators joins the words;
* `toList_collapse`: `Text.collapse` joins the words of a text by single spaces.
-/

namespace Words

variable {α β : Type} {p q : α → Bool} {c : α} {w l : List α}

/-- The nonempty runs between the elements of which `p` holds. -/
def fields (p : α → Bool) (l : List α) : List (List α) := (l.splitOnP p).filter (! ·.isEmpty)

@[simp] theorem fields_nil : fields p [] = [] := rfl

/-- A separator ends a word. -/
theorem fields_append_cons (hc : p c) (a b : List α) :
    fields p (a ++ c :: b) = fields p a ++ fields p b := by
  rw [fields, List.splitOnP_append_cons _ _ hc, List.filter_append]
  rfl

theorem fields_cons_of_sep (hc : p c) (l : List α) : fields p (c :: l) = fields p l :=
  fields_append_cons hc [] l

theorem fields_of_word (hw : ∀ x ∈ w, p x = false) (hne : w ≠ []) : fields p w = [w] := by
  rw [fields, List.splitOnP_eq_singleton hw]
  cases w with
  | nil => exact absurd rfl hne
  | cons x w => rfl

/-- A list is a word, or a word followed by a separator and a list. -/
theorem fieldsInduction {motive : List α → Prop}
    (word : ∀ w, (∀ x ∈ w, p x = false) → motive w)
    (sep : ∀ w c l, (∀ x ∈ w, p x = false) → p c → motive l → motive (w ++ c :: l))
    (l : List α) : motive l := by
  induction hn : l.length using Nat.strong_induction_on generalizing l with
  | _ n ih =>
    have hword : ∀ x ∈ l.takeWhile (! p ·), p x = false := by
      intro x hx
      simpa using List.mem_takeWhile_imp hx
    cases hdrop : l.dropWhile (! p ·) with
    | nil =>
      have hl : l.takeWhile (! p ·) = l := by
        have h := List.takeWhile_append_dropWhile (p := (! p ·)) (l := l)
        rwa [hdrop, List.append_nil] at h
      rw [hl] at hword
      exact word l hword
    | cons c rest =>
      have hl : l.takeWhile (! p ·) ++ c :: rest = l := by
        rw [← hdrop]
        exact List.takeWhile_append_dropWhile
      have hc : p c := by
        have h := List.head?_dropWhile_not (! p ·) l
        rw [hdrop] at h
        simpa using h
      have hlen : rest.length < n := by
        rw [← hn, ← hl]
        simp
        omega
      rw [← hl]
      exact sep _ c rest hword hc (ih rest.length hlen rest rfl)

theorem fields_word (hw : ∀ x ∈ w, p x = false) : fields p w = if w.isEmpty then [] else [w] := by
  cases w with
  | nil => rfl
  | cons x w => exact fields_of_word hw (List.cons_ne_nil x w)

theorem mem_fields (h : w ∈ fields p l) : w ≠ [] ∧ ∀ x ∈ w, p x = false ∧ x ∈ l := by
  induction l using fieldsInduction (p := p) with
  | word l hl =>
    rw [fields_word hl] at h
    split_ifs at h with hempty
    · cases h
    · obtain rfl := List.mem_singleton.mp h
      exact ⟨by simpa using hempty, fun x hx => ⟨hl x hx, hx⟩⟩
  | sep v c l hv hc ih =>
    rw [fields_append_cons hc, List.mem_append] at h
    rcases h with h | h
    · rw [fields_word hv] at h
      split_ifs at h with hempty
      · cases h
      · obtain rfl := List.mem_singleton.mp h
        exact ⟨by simpa using hempty, fun x hx => ⟨hv x hx, by simp [hx]⟩⟩
    · obtain ⟨hne, hmem⟩ := ih h
      exact ⟨hne, fun x hx => ⟨(hmem x hx).1, by simp [(hmem x hx).2]⟩⟩

theorem intercalate_cons_cons (s : α) (v w : List α) (ws : List (List α)) :
    [s].intercalate (v :: w :: ws) = v ++ s :: [s].intercalate (w :: ws) := by
  simp [List.intercalate]

theorem mem_intercalate {sep : List α} {ls : List (List α)} (h : c ∈ sep.intercalate ls) :
    c ∈ sep ∨ ∃ l ∈ ls, c ∈ l := by
  induction ls with
  | nil => cases h
  | cons l ls ih =>
    cases ls with
    | nil => exact Or.inr ⟨l, by simp, by simpa [List.intercalate] using h⟩
    | cons m ls =>
      rw [List.intercalate_cons_cons, List.mem_append, List.mem_append] at h
      rcases h with (hl | hsep) | hrest
      · exact Or.inr ⟨l, by simp, hl⟩
      · exact Or.inl hsep
      · refine (ih hrest).imp id ?_
        rintro ⟨l', hl', hc⟩
        exact ⟨l', List.mem_cons_of_mem l hl', hc⟩

theorem mem_intercalate_of_mem {s c : α} {ls : List (List α)} (hl : l ∈ ls) (hc : c ∈ l) :
    c ∈ [s].intercalate ls := by
  induction ls with
  | nil => cases hl
  | cons m ls ih =>
    cases ls with
    | nil =>
      obtain rfl := List.mem_singleton.mp hl
      simpa [List.intercalate] using hc
    | cons m' ls =>
      rw [intercalate_cons_cons, List.mem_append, List.mem_cons]
      rcases List.mem_cons.mp hl with rfl | hrest
      · exact Or.inl hc
      · exact Or.inr (Or.inr (ih hrest))

theorem map_intercalate {s : α} (f : α → β) (ls : List (List α)) :
    ([s].intercalate ls).map f = [f s].intercalate (ls.map (List.map f)) := by
  induction ls with
  | nil => rfl
  | cons l ls ih =>
    cases ls with
    | nil => simp [List.intercalate]
    | cons m ls =>
      rw [intercalate_cons_cons, List.map_append, List.map_cons, ih]
      simp

theorem flatMap_intercalate {s : α} {f : α → List α} (hs : f s = [s]) (ls : List (List α)) :
    ([s].intercalate ls).flatMap f = [s].intercalate (ls.map (·.flatMap f)) := by
  induction ls with
  | nil => rfl
  | cons l ls ih =>
    cases ls with
    | nil => simp [List.intercalate]
    | cons m ls =>
      rw [intercalate_cons_cons, List.flatMap_append, List.flatMap_cons, hs, ih]
      simp

/-- The words of a list that is joined are those of its parts. -/
theorem fields_intercalate (hc : p c) (ls : List (List α)) :
    fields p ([c].intercalate ls) = ls.flatMap (fields p) := by
  induction ls with
  | nil => rfl
  | cons l ls ih =>
    cases ls with
    | nil => simp [List.intercalate]
    | cons l' ls =>
      rw [intercalate_cons_cons, fields_append_cons hc, ih]
      rfl

theorem fields_map {p : α → Bool} {q : β → Bool} {f : α → β} (h : ∀ x ∈ l, q (f x) = p x) :
    fields q (l.map f) = (fields p l).map (List.map f) := by
  induction l using fieldsInduction (p := p) with
  | word w hw =>
    have hmap : ∀ y ∈ w.map f, q y = false := by
      intro y hy
      obtain ⟨x, hx, rfl⟩ := List.mem_map.mp hy
      rw [h x hx, hw x hx]
    rw [fields_word hw, fields_word hmap]
    cases w <;> rfl
  | sep w c l hw hc ih =>
    have hmap : ∀ y ∈ w.map f, q y = false := by
      intro y hy
      obtain ⟨x, hx, rfl⟩ := List.mem_map.mp hy
      rw [h x (by simp [hx]), hw x hx]
    have hsep : q (f c) := by rw [h c (by simp), hc]
    rw [List.map_append, List.map_cons, fields_append_cons hsep, fields_append_cons hc,
      List.map_append, ih fun x hx => h x (by simp [hx]), fields_word hw, fields_word hmap]
    cases w <;> rfl

theorem exists_mem_fields (hc : p c = false) (h : c ∈ l) : ∃ w ∈ fields p l, c ∈ w := by
  induction l using fieldsInduction (p := p) with
  | word w hw => exact ⟨w, by simp [fields_of_word hw (List.ne_nil_of_mem h)], h⟩
  | sep w d l hw hd ih =>
    rw [fields_append_cons hd]
    rcases List.mem_append.mp h with hword | hrest
    · refine ⟨w, List.mem_append_left _ ?_, hword⟩
      simp [fields_of_word hw (List.ne_nil_of_mem hword)]
    · have hne : c ≠ d := by
        rintro rfl
        simp [hc] at hd
      obtain ⟨v, hv, hcv⟩ := ih ((List.mem_cons.mp hrest).resolve_left hne)
      exact ⟨v, List.mem_append_right _ hv, hcv⟩

/-- Joined words have the characters that separate none. -/
theorem mem_intercalate_fields {s : α} (hs : p s) (hc : p c = false) :
    c ∈ [s].intercalate (fields p l) ↔ c ∈ l := by
  constructor
  · intro h
    have hne : c ∉ [s] := by
      rw [List.mem_singleton]
      rintro rfl
      simp [hc] at hs
    obtain ⟨w, hw, hcw⟩ := (mem_intercalate h).resolve_left hne
    exact ((mem_fields hw).2 c hcw).2
  · intro h
    obtain ⟨w, hw, hcw⟩ := exists_mem_fields hc h
    exact mem_intercalate_of_mem hw hcw

/-- Words are found again in the parts between some of the separators. -/
theorem fields_fields (h : ∀ x, p x → q x) (l : List α) :
    (fields p l).flatMap (fields q) = fields q l := by
  induction l using fieldsInduction (p := p) with
  | word w hw =>
    rw [fields_word hw]
    cases w <;> simp
  | sep w c l hw hc ih =>
    rw [fields_append_cons hc, fields_append_cons (h c hc), List.flatMap_append, ih,
      fields_word hw]
    cases w <;> simp

theorem fields_eq_nil : fields p l = [] ↔ ∀ x ∈ l, p x := by
  induction l using fieldsInduction (p := p) with
  | word w hw =>
    cases w with
    | nil => simp
    | cons x w =>
      rw [fields_of_word hw (List.cons_ne_nil x w)]
      simp [hw x (by simp)]
  | sep w c l hw hc ih =>
    rw [fields_append_cons hc, List.append_eq_nil_iff, ih]
    cases w with
    | nil => simp [hc]
    | cons x w =>
      rw [fields_of_word hw (List.cons_ne_nil x w)]
      simp [hw x (by simp)]

/-- Replacing each element by a word of its own, or leaving a separator, keeps the words apart. -/
theorem fields_flatMap {f : α → List α} (hsep : ∀ x, p x → f x = [x])
    (hword : ∀ x, p x = false → f x ≠ [] ∧ ∀ y ∈ f x, p y = false) (l : List α) :
    fields p (l.flatMap f) = (fields p l).map (·.flatMap f) := by
  have hone : ∀ w : List α, (∀ x ∈ w, p x = false) →
      fields p (w.flatMap f) = (fields p w).map (·.flatMap f) := by
    intro w hw
    cases w with
    | nil => rfl
    | cons x w =>
      have hne : (x :: w).flatMap f ≠ [] := by
        simp [List.flatMap_cons, (hword x (hw x (by simp))).1]
      have hmem : ∀ y ∈ (x :: w).flatMap f, p y = false := by
        intro y hy
        obtain ⟨z, hz, hy⟩ := List.mem_flatMap.mp hy
        exact (hword z (hw z hz)).2 y hy
      rw [fields_of_word hmem hne, fields_of_word hw (List.cons_ne_nil x w)]
      rfl
  induction l using fieldsInduction (p := p) with
  | word w hw => exact hone w hw
  | sep w c l hw hc ih =>
    rw [List.flatMap_append, List.flatMap_cons, hsep c hc, List.singleton_append,
      fields_append_cons hc, fields_append_cons hc, List.map_append, hone w hw, ih]

theorem fields_append_of_seps {t : List α} (ht : ∀ x ∈ t, p x) (l : List α) :
    fields p (l ++ t) = fields p l := by
  cases t with
  | nil => rw [List.append_nil]
  | cons c t =>
    have hnil : fields p t = [] := fields_eq_nil.mpr fun x hx => ht x (by simp [hx])
    rw [fields_append_cons (ht c (by simp)), hnil, List.append_nil]

theorem fields_dropWhile (l : List α) : fields p (l.dropWhile p) = fields p l := by
  induction l with
  | nil => rfl
  | cons c l ih =>
    by_cases hc : p c
    · rw [List.dropWhile_cons_of_pos hc, ih, fields_cons_of_sep hc]
    · rw [List.dropWhile_cons_of_neg hc]

/-! ## Replacing the separators -/

/-- Each run of elements of which `p` holds becomes one `s`. -/
def replaceRuns (p : α → Bool) (s : α) : List α → List α
  | [] => []
  | [c] => [if p c then s else c]
  | c :: d :: l =>
    if p c then
      if p d then replaceRuns p s (d :: l) else s :: replaceRuns p s (d :: l)
    else c :: replaceRuns p s (d :: l)

variable {s : α}

theorem replaceRuns_append_word (hw : ∀ x ∈ w, p x = false) (l : List α) :
    replaceRuns p s (w ++ l) = w ++ replaceRuns p s l := by
  induction w with
  | nil => rfl
  | cons c w ih =>
    have hc : p c = false := hw c (by simp)
    have hrest := ih fun x hx => hw x (by simp [hx])
    rw [List.cons_append, List.cons_append, ← hrest]
    cases hwl : w ++ l with
    | nil => simp [replaceRuns, hc]
    | cons d m => simp [replaceRuns, hc]

/-- The words joined by `s`, with an `s` in front when a separator comes first, and maybe one at
the end. -/
theorem replaceRuns_eq (l : List α) :
    ∃ b, replaceRuns p s l =
        (if l.head?.any p then [s] else []) ++ [s].intercalate (fields p l) ++ b ∧
      (b = [] ∨ b = [s] ∧ fields p l ≠ []) := by
  induction l using fieldsInduction (p := p) with
  | word w hw =>
    refine ⟨[], ?_, Or.inl rfl⟩
    have hself := replaceRuns_append_word (s := s) hw []
    cases w with
    | nil => rfl
    | cons c w =>
      rw [fields_of_word hw (List.cons_ne_nil c w)]
      simpa [hw c (by simp), List.intercalate, replaceRuns] using hself
  | sep w c l hw hc ih =>
    obtain ⟨b, heq, hb⟩ := ih
    have hsep : replaceRuns p s (c :: l) = s :: ([s].intercalate (fields p l) ++ b) := by
      cases l with
      | nil =>
        obtain rfl : b = [] := hb.resolve_right fun h => h.2 rfl
        simp [replaceRuns, hc]
      | cons d l =>
        by_cases hd : p d
        · rw [replaceRuns, if_pos hc, if_pos hd, heq]
          simp [hd]
        · rw [replaceRuns, if_pos hc, if_neg hd, heq]
          simp [hd]
    rw [replaceRuns_append_word hw, hsep, fields_append_cons hc]
    cases w with
    | nil => exact ⟨b, by simp [hc], by simpa using hb⟩
    | cons x w =>
      have hx : p x = false := hw x (by simp)
      rw [fields_of_word hw (List.cons_ne_nil x w)]
      cases hl : fields p l with
      | nil =>
        obtain rfl : b = [] := hb.resolve_right fun h => h.2 hl
        exact ⟨[s], by simp [hx, List.intercalate], Or.inr ⟨rfl, by simp⟩⟩
      | cons y ys =>
        refine ⟨b, by simp [hx, List.intercalate], ?_⟩
        rcases hb with rfl | ⟨rfl, -⟩
        · exact Or.inl rfl
        · exact Or.inr ⟨rfl, by simp⟩

/-- Words that are joined start with a word. -/
theorem of_mem_head?_intercalate {c : α} (h : c ∈ ([s].intercalate (fields p l)).head?) :
    p c = false := by
  cases hws : fields p l with
  | nil => simp [hws] at h
  | cons w ws =>
    obtain ⟨hne, hw⟩ := mem_fields (show w ∈ fields p l by rw [hws]; exact List.mem_cons_self)
    obtain ⟨d, w, rfl⟩ := List.exists_cons_of_ne_nil hne
    have hd : d = c := by
      cases ws with
      | nil => simpa [hws, List.intercalate] using h
      | cons v ws => simpa [hws, intercalate_cons_cons] using h
    exact hd ▸ (hw d (by simp)).1

/-- Words that are joined end with a word. -/
theorem of_mem_getLast?_intercalate {ws : List (List α)}
    (hws : ∀ w ∈ ws, w ≠ [] ∧ ∀ x ∈ w, p x = false) {c : α}
    (h : c ∈ ([s].intercalate ws).getLast?) : p c = false := by
  induction ws with
  | nil => simp at h
  | cons w ws ih =>
    obtain ⟨hne, hw⟩ := hws w (by simp)
    cases ws with
    | nil =>
      rw [List.intercalate_singleton] at h
      exact hw c (List.mem_of_getLast? h)
    | cons v ws =>
      have hrest : [s].intercalate (v :: ws) ≠ [] := by
        obtain ⟨x, v, rfl⟩ := List.exists_cons_of_ne_nil (hws v (by simp)).1
        cases ws <;> simp [List.intercalate]
      apply ih fun w' hw' => hws w' (List.mem_cons_of_mem w hw')
      rw [intercalate_cons_cons, List.getLast?_append_cons] at h
      obtain ⟨d, m, hm⟩ := List.exists_cons_of_ne_nil hrest
      rwa [hm, List.getLast?_cons_cons, ← hm] at h

theorem fields_replaceRuns (hs : q s) (l : List α) :
    fields q (replaceRuns p s l) = (fields p l).flatMap (fields q) := by
  obtain ⟨b, heq, hb⟩ := replaceRuns_eq (p := p) (s := s) l
  have hend : ∀ x ∈ b, q x := by
    rcases hb with rfl | ⟨rfl, -⟩
    · simp
    · simpa using hs
  rw [heq, fields_append_of_seps hend]
  split_ifs
  · rw [List.singleton_append, fields_cons_of_sep hs, fields_intercalate hs]
  · rw [List.nil_append, fields_intercalate hs]

end Words

/-! ## White space -/

namespace Text

theorem toList_join (l : List String) :
    (join " " l).toList = [' '].intercalate (l.map String.toList) := by
  rw [join, String.toList_intercalate]
  rfl

theorem squeeze_eq (l : List Char) : squeeze l = Words.replaceRuns isSpace ' ' l := by
  induction l using squeeze.induct with
  | case1 => rfl
  | case2 c => rfl
  | case3 c d l hc hd ih => simp only [squeeze, Words.replaceRuns, hc, hd, if_true, ih]
  | case4 c d l hc hd ih => simp [squeeze, Words.replaceRuns, hc, hd, ih]
  | case5 c d l hc ih => simp [squeeze, Words.replaceRuns, hc, ih]

theorem fields_strip (s : String) :
    Words.fields isSpace (strip s).toList = Words.fields isSpace s.toList := by
  have hback : s.toList.dropWhile isSpace = (strip s).toList ++
      ((s.toList.dropWhile isSpace).reverse.takeWhile isSpace).reverse := by
    rw [strip, String.toList_ofList, ← List.reverse_append, List.takeWhile_append_dropWhile,
      List.reverse_reverse]
  have hend : ∀ c ∈ ((s.toList.dropWhile isSpace).reverse.takeWhile isSpace).reverse,
      isSpace c := by
    intro c hc
    exact List.mem_takeWhile_imp (List.mem_reverse.mp hc)
  rw [← Words.fields_dropWhile s.toList, hback, Words.fields_append_of_seps hend]

/-- White space around a text goes. -/
theorem strip_append {a x b : List Char} (ha : ∀ c ∈ a, isSpace c) (hb : ∀ c ∈ b, isSpace c)
    (hfirst : ∀ c ∈ x.head?, isSpace c = false) (hlast : ∀ c ∈ x.getLast?, isSpace c = false) :
    strip (String.ofList (a ++ x ++ b)) = String.ofList x := by
  have hfront : (a ++ x ++ b).dropWhile isSpace = if x = [] then [] else x ++ b := by
    rw [List.append_assoc, List.dropWhile_append_of_pos ha]
    cases x with
    | nil => simpa [List.dropWhile_eq_nil_iff] using hb
    | cons c x => simp [hfirst c (by simp)]
  rw [strip, String.toList_ofList, hfront]
  split_ifs with hx
  · rw [hx]
    rfl
  · rw [List.reverse_append, List.dropWhile_append_of_pos (by simpa using hb)]
    obtain ⟨c, l, hl⟩ := List.exists_cons_of_ne_nil (mt List.reverse_eq_nil_iff.mp hx)
    have hc : isSpace c = false := hlast c (by rw [← List.head?_reverse, hl]; rfl)
    rw [hl, List.dropWhile_cons_of_neg (by simp [hc]), ← hl, List.reverse_reverse]

/-- A text with no white space at its ends is stripped. -/
theorem stripped_of_ends {s : String} (hfirst : ∀ c ∈ s.toList.head?, isSpace c = false)
    (hlast : ∀ c ∈ s.toList.getLast?, isSpace c = false) : Stripped s := by
  have h := strip_append (a := []) (x := s.toList) (b := []) nofun nofun hfirst hlast
  rwa [List.nil_append, List.append_nil, String.ofList_toList] at h

theorem stripped_strip (s : String) : Stripped (strip s) := by
  have hdrop : ∀ (l : List Char), ∀ c ∈ (l.dropWhile isSpace).head?, isSpace c = false := by
    intro l c hc
    have hhead := List.head?_dropWhile_not isSpace l
    rw [Option.mem_def.mp hc] at hhead
    simpa using hhead
  have hlist : (strip s).toList =
      ((s.toList.dropWhile isSpace).reverse.dropWhile isSpace).reverse := String.toList_ofList
  apply stripped_of_ends
  · -- the second cut leaves the first character where it is
    intro c hc
    rw [hlist, List.head?_reverse] at hc
    obtain ⟨t, ht⟩ := List.dropWhile_suffix (l := (s.toList.dropWhile isSpace).reverse) isSpace
    apply hdrop s.toList c
    rw [← List.getLast?_reverse, ← ht, List.getLast?_append, Option.mem_def.mp hc]
    rfl
  · intro c hc
    rw [hlist, List.getLast?_reverse] at hc
    exact hdrop _ c hc

theorem toList_collapse (s : String) :
    (collapse s).toList = [' '].intercalate (Words.fields isSpace s.toList) := by
  obtain ⟨b, heq, hb⟩ := Words.replaceRuns_eq (p := isSpace) (s := ' ') s.toList
  have hfront : ∀ c ∈ if s.toList.head?.any isSpace then [' '] else [], isSpace c := by
    split_ifs <;> simp [show isSpace ' ' from by decide]
  have hend : ∀ c ∈ b, isSpace c := by
    rcases hb with rfl | ⟨rfl, -⟩
    · simp
    · simp [show isSpace ' ' from by decide]
  rw [collapse, squeeze_eq, heq, strip_append hfront hend
    (fun c hc => Words.of_mem_head?_intercalate hc)
    (fun c hc => Words.of_mem_getLast?_intercalate
      (fun w hw => ⟨(Words.mem_fields hw).1, fun x hx => ((Words.mem_fields hw).2 x hx).1⟩) hc),
    String.toList_ofList]

end Text
