import PaymentOps.Lib.Words
import PaymentOps.Matching.Normalization

/-!
# The words of a name

* `normalizeName_eq`: a normalized name joins the words of the tokens that the suffix rules give;
* `joinSuffix_of_spells`, `canonical_cases`: what the suffix rules do to tokens;
* `applySuffixes_eq_self`: which tokens they leave alone.
-/

namespace PaymentOps.Matching

open Text

variable {t : String} {tokens : List String} {n : ℕ}

/-! ## Tokens and words -/

/-- What is left of a name: letters and digits. -/
def isWordChar (c : Char) : Bool := isNameChar c && c ≠ ' '

/-- What ends a token of a name. -/
def isSep (c : Char) : Bool := isSpace c || c = '.' || c = ','

/-- The words of a token: what stands between its punctuation. -/
def wordsOf (t : String) : List String := (Words.fields (! isWordChar ·) t.toList).map String.ofList

/-- The tokens of a name, in capitals. -/
def nameTokens (name : String) : List String :=
  (Words.fields isSep name.toList).map fun t => String.ofList (t.map Char.toUpper)

/-- The canonical spelling of a token. -/
def canonical (t : String) : String := (companySuffixes.get (joinSuffix.lower t)).getD t

/-- The suffix rules of `normalizeCompanySuffix`. -/
def applySuffixes (tokens : List String) : List String :=
  (joinSuffix 2 (joinSuffix 3 tokens)).map canonical

theorem ascii_of_isAlphanum {c : Char} (h : c.isAlphanum) : c.toNat < 128 := by
  have hle : ∀ d : Char, c.val ≤ d.val → d.toNat < 128 → c.toNat < 128 := by
    intro d hcd hd
    exact lt_of_le_of_lt hcd hd
  rcases Bool.or_eq_true_iff.mp h with halpha | hdigit
  · rcases Bool.or_eq_true_iff.mp halpha with hupper | hlower
    · exact hle 'Z' (of_decide_eq_true hupper).2 (by decide)
    · exact hle 'z' (of_decide_eq_true (Bool.and_eq_true_iff.mp hlower).2) (by decide)
  · exact hle '9' (of_decide_eq_true (Bool.and_eq_true_iff.mp hdigit).2) (by decide)

theorem isSpace_of_isWordChar {c : Char} (h : isWordChar c) : isSpace c = false := by
  by_cases hc : c.toNat < 128
  · have hascii := of_ascii (P := fun c => isWordChar c → isSpace c = false) (by decide) hc
    exact hascii h
  · have halpha : c.isAlphanum = false := Bool.eq_false_iff.mpr (mt ascii_of_isAlphanum hc)
    obtain ⟨hname, hne⟩ : (192 ≤ c.toNat ∧ c.toNat ≤ 255 ∨ c = ' ') ∧ c ≠ ' ' := by
      simpa [isWordChar, isNameChar, halpha] using h
    have hlatin : 192 ≤ c.toNat ∧ c.toNat ≤ 255 := hname.resolve_right hne
    simp only [isSpace, Bool.or_eq_false_iff, Bool.and_eq_false_iff, decide_eq_false_iff_not,
      beq_eq_false_iff_ne]
    omega

theorem isSep_toUpper (c : Char) : isSep c.toUpper = isSep c := by
  by_cases hc : c.toNat < 128
  · exact of_ascii (P := fun c => isSep c.toUpper = isSep c) (by decide) hc
  · rw [toUpper_of_not_ascii (not_lt.mp hc)]

theorem isWordChar_toLower (c : Char) : isWordChar c.toLower = isWordChar c := by
  by_cases hc : c.toNat < 128
  · exact of_ascii (P := fun c => isWordChar c.toLower = isWordChar c) (by decide) hc
  · rw [toLower_of_not_ascii (not_lt.mp hc)]

theorem dropPunctuation_eq (l : List Char) :
    dropPunctuation l = Words.replaceRuns (! isNameChar ·) ' ' l := by
  induction l using dropPunctuation.induct with
  | case1 => rfl
  | case2 c => cases hc : isNameChar c <;> simp [dropPunctuation, Words.replaceRuns, hc]
  | case3 c d l hc ih => simp [dropPunctuation, Words.replaceRuns, hc, ih]
  | case4 c d l hc hd ih => simp [dropPunctuation, Words.replaceRuns, hc, hd, ih]
  | case5 c d l hc hd ih => simp [dropPunctuation, Words.replaceRuns, hc, hd, ih]

/-- Without its punctuation a text is left with its words. -/
theorem fields_dropPunctuation (l : List Char) :
    Words.fields isSpace (dropPunctuation l) = Words.fields (! isWordChar ·) l := by
  have hname : ∀ w ∈ Words.fields (! isNameChar ·) l,
      Words.fields isSpace w = Words.fields (! isWordChar ·) w := by
    intro w hw
    have hchar : ∀ c ∈ w, isSpace (id c) = ! isWordChar c := by
      intro c hc
      have hkept : isNameChar c := by simpa using ((Words.mem_fields hw).2 c hc).1
      by_cases hspace : c = ' '
      · rw [hspace]
        decide
      · have hword : isWordChar c := by simp [isWordChar, hkept, hspace]
        rw [hword, id, isSpace_of_isWordChar hword]
        rfl
    have hmap := Words.fields_map hchar
    simpa using hmap
  have hpunct : ∀ c, (! isNameChar c) → (! isWordChar c) := by
    intro c hc
    simp only [Bool.not_eq_true'] at hc
    simp [isWordChar, hc]
  rw [dropPunctuation_eq, Words.fields_replaceRuns (by decide), ← Words.fields_fields hpunct]
  exact List.flatMap_congr hname

theorem wordsOf_word (hne : t ≠ "") (hw : ∀ c ∈ t.toList, isWordChar c) : wordsOf t = [t] := by
  rw [wordsOf, Words.fields_of_word (by simpa using hw) (by simpa using hne)]
  simp

/-- The words of a token are its own words. -/
theorem of_mem_wordsOf {w : String} (h : w ∈ wordsOf t) :
    wordsOf w = [w] ∧ w ≠ "" ∧ ∀ c ∈ w.toList, isWordChar c ∧ c ∈ t.toList := by
  obtain ⟨l, hl, rfl⟩ := List.mem_map.mp h
  obtain ⟨hne, hmem⟩ := Words.mem_fields hl
  have hchars : ∀ c ∈ (String.ofList l).toList, isWordChar c ∧ c ∈ t.toList := by
    simpa using hmem
  have hempty : String.ofList l ≠ "" := by simpa using hne
  exact ⟨wordsOf_word hempty fun c hc => (hchars c hc).1, hempty, hchars⟩

theorem wordsOf_join (l : List String) : wordsOf (join " " l) = l.flatMap wordsOf := by
  rw [wordsOf, toList_join, Words.fields_intercalate (by decide), List.flatMap_map,
    List.map_flatMap]
  rfl

/-- The tokens to which `normalizeCompanySuffix` applies its rules. -/
def suffixTokens (u : Unicode) (name : String) : List String :=
  split ' ' (u.upper (collapse (strip (replace ',' " " (replace '.' " " name)))))

theorem normalizeCompanySuffix_eq (u : Unicode) (name : String) :
    normalizeCompanySuffix u name = join " " (applySuffixes (suffixTokens u name)) := rfl

theorem collapse_dropPunctuation (t : String) :
    collapse (String.ofList (dropPunctuation t.toList)) = join " " (wordsOf t) := by
  apply String.toList_injective
  rw [toList_collapse, String.toList_ofList, fields_dropPunctuation, toList_join, wordsOf,
    List.map_map]
  simp [Function.comp_def]

/-- The name joins the words of its tokens. -/
theorem normalizeName_eq (u : Unicode) (value : String) :
    normalizeName u value = orNone (u.casefold (join " "
      ((applySuffixes (suffixTokens u (collapse (u.nfkc value)))).flatMap wordsOf))) := by
  unfold normalizeName
  dsimp only
  rw [collapse_dropPunctuation, normalizeCompanySuffix_eq, wordsOf_join]

theorem map_eq_self {α : Type} {f : α → α} {l : List α} (h : ∀ x ∈ l, f x = x) : l.map f = l :=
  (List.map_congr_left h).trans (List.map_id l)

theorem toList_replace_space (c : Char) (s : String) :
    (replace c " " s).toList = s.toList.map fun d => if d = c then ' ' else d := by
  rw [replace, String.toList_ofList, List.map_eq_flatMap]
  apply List.flatMap_congr
  intro d _
  split_ifs <;> rfl

/-- Dots and commas become spaces. -/
def blank (c : Char) : Char := if c = '.' ∨ c = ',' then ' ' else c

theorem toList_replace_blank (name : String) :
    (replace ',' " " (replace '.' " " name)).toList = name.toList.map blank := by
  rw [toList_replace_space, toList_replace_space, List.map_map]
  apply List.map_congr_left
  intro c _
  by_cases hdot : c = '.'
  · rw [hdot]
    rfl
  · by_cases hcomma : c = ',' <;> simp [blank, hdot, hcomma]

theorem isSpace_blank (c : Char) : isSpace (blank c) = isSep c := by
  by_cases hdot : c = '.'
  · rw [hdot]
    decide
  · by_cases hcomma : c = ','
    · rw [hcomma]
      decide
    · simp [isSep, blank, hdot, hcomma]

theorem blank_of_not_isSep {c : Char} (h : isSep c = false) : blank c = c := by
  simp only [isSep, Bool.or_eq_false_iff, decide_eq_false_iff_not] at h
  simp [blank, h.1.2, h.2]

/-- White space, dots and commas separate the tokens. -/
theorem fields_compact (name : String) :
    Words.fields isSpace (strip (replace ',' " " (replace '.' " " name))).toList =
      Words.fields isSep name.toList := by
  rw [fields_strip, toList_replace_blank, Words.fields_map fun c _ => isSpace_blank c]
  apply map_eq_self
  intro w hw
  exact map_eq_self fun c hc => blank_of_not_isSep ((Words.mem_fields hw).2 c hc).1

/-! ## The suffix rules -/

/-- The canonical spellings. -/
def legalForms : List String := companySuffixes.map (·.2)

/-- The last `n` tokens are single characters that spell a legal form. -/
def Spells (n : ℕ) (tokens : List String) : Prop :=
  n ≤ tokens.length ∧ (tokens.drop (tokens.length - n)).all (·.length = 1) ∧
    companySuffixes.contains (joinSuffix.lower (join "" (tokens.drop (tokens.length - n))))

instance : Decidable (Spells n tokens) := inferInstanceAs (Decidable (_ ∧ _ ∧ _))

theorem legalForms_spec : ∀ t ∈ legalForms,
    t.length ≠ 1 ∧ wordsOf t = [t] ∧ canonical t = t ∧
      t.toList.all fun c => c.toNat < 128 && c.toUpper = c && ! isSep c := by
  decide +kernel

theorem joinSuffix_of_not_spells (h : ¬ Spells n tokens) : joinSuffix n tokens = tokens := by
  unfold joinSuffix
  dsimp only
  split_ifs with hsingle
  · split
    · rename_i suffix hsuffix
      exact absurd ⟨hsingle.1, hsingle.2, by rw [Dict.contains, hsuffix]; rfl⟩ h
    · rfl
  · rfl

/-- A legal form that is spelled out becomes one token. -/
theorem joinSuffix_of_spells (h : Spells n tokens) : ∃ front last, ∃ form ∈ legalForms,
    tokens = front ++ last ∧ last.length = n ∧ (∀ t ∈ last, t.length = 1) ∧
      companySuffixes.contains (joinSuffix.lower (join "" last)) ∧
      joinSuffix n tokens = front ++ [form] := by
  obtain ⟨hlen, hsingle, hform⟩ := h
  obtain ⟨form, hget⟩ := Option.isSome_iff_exists.mp hform
  refine ⟨tokens.take (tokens.length - n), tokens.drop (tokens.length - n), form,
    List.mem_map_of_mem (Dict.mem_of_get hget), (List.take_append_drop _ _).symm, ?_, ?_, hform, ?_⟩
  · rw [List.length_drop]
    omega
  · simpa using hsingle
  · unfold joinSuffix
    dsimp only
    rw [if_pos ⟨hlen, hsingle⟩, hget]

/-- A token of more characters at the end spells nothing. -/
theorem not_spells_append {front : List String} (hn : 0 < n) (ht : t.length ≠ 1) :
    ¬ Spells n (front ++ [t]) := by
  rintro ⟨hlen, hsingle, -⟩
  have hmem : t ∈ (front ++ [t]).drop ((front ++ [t]).length - n) := by
    rw [List.drop_append_of_le_length (by simp; omega)]
    simp
  exact ht (by simpa using List.all_eq_true.mp hsingle t hmem)

/-- Some legal form is spelled out at the end. -/
def SpellsForm (tokens : List String) : Prop := Spells 3 tokens ∨ Spells 2 tokens

theorem join_of_not_spells (h : ¬ SpellsForm tokens) :
    joinSuffix 2 (joinSuffix 3 tokens) = tokens := by
  rw [SpellsForm, not_or] at h
  rw [joinSuffix_of_not_spells h.1, joinSuffix_of_not_spells h.2]

theorem join_of_spells (h : SpellsForm tokens) : ∃ front last, ∃ form ∈ legalForms,
    tokens = front ++ last ∧ 2 ≤ last.length ∧ (∀ t ∈ last, t.length = 1) ∧
      companySuffixes.contains (joinSuffix.lower (join "" last)) ∧
      joinSuffix 2 (joinSuffix 3 tokens) = front ++ [form] := by
  by_cases h3 : Spells 3 tokens
  · obtain ⟨front, last, form, hform, htokens, hlen, hsingle, hspelled, hjoin⟩ :=
      joinSuffix_of_spells h3
    have hlong := (legalForms_spec form hform).1
    refine ⟨front, last, form, hform, htokens, by omega, hsingle, hspelled, ?_⟩
    rw [hjoin, joinSuffix_of_not_spells (not_spells_append (by decide) hlong)]
  · obtain ⟨front, last, form, hform, htokens, hlen, hsingle, hspelled, hjoin⟩ :=
      joinSuffix_of_spells (h.resolve_left h3)
    refine ⟨front, last, form, hform, htokens, by omega, hsingle, hspelled, ?_⟩
    rw [joinSuffix_of_not_spells h3, hjoin]

/-- The spellings that have a shorter canonical one. -/
def longForms : List String := ["LIMITED", "INCORPORATED"]

theorem longForms_spec : ∀ t ∈ longForms, t.length ≠ 1 ∧ wordsOf t = [t] ∧ canonical t ≠ t := by
  decide +kernel

/-- A token in capitals. -/
def Token (t : String) : Prop := ∀ c ∈ t.toList, c.toUpper = c ∧ isSep c = false

theorem not_mem_longForms_of_legal (h : t ∈ legalForms) : t ∉ longForms := fun hlong =>
  (longForms_spec t hlong).2.2 (legalForms_spec t h).2.2.1

/-- A token that the rules change is one of the long forms. -/
theorem canonical_cases (h : Token t) :
    canonical t = t ∨ t ∈ longForms ∧ canonical t ∈ legalForms := by
  unfold canonical
  cases hget : companySuffixes.get (joinSuffix.lower t) with
  | none => exact Or.inl rfl
  | some form =>
    have hmem : (joinSuffix.lower t, form) ∈ companySuffixes := Dict.mem_of_get hget
    have hupper : String.ofList ((joinSuffix.lower t).toList.map Char.toUpper) = t := by
      apply String.toList_injective
      rw [joinSuffix.lower, String.toList_ofList, String.toList_ofList, List.map_map]
      exact map_eq_self fun c hc => (toUpper_toLower c).trans (h c hc).1
    have htable : ∀ p ∈ companySuffixes, p.1.toList.any isSep ∨
        String.ofList (p.1.toList.map Char.toUpper) = p.2 ∨
        String.ofList (p.1.toList.map Char.toUpper) ∈ longForms := by
      decide +kernel
    rcases htable _ hmem with hsep | hsame | hlong
    · obtain ⟨c, hc, hcsep⟩ := List.any_eq_true.mp hsep
      rw [joinSuffix.lower, String.toList_ofList] at hc
      obtain ⟨d, hd, rfl⟩ := List.mem_map.mp hc
      rw [← isSep_toUpper, toUpper_toLower, (h d hd).1, (h d hd).2] at hcsep
      cases hcsep
    · exact Or.inl (hsame.symm.trans hupper)
    · exact Or.inr ⟨hupper ▸ hlong, List.mem_map_of_mem hmem⟩

theorem canonical_eq_iff (h : Token t) : canonical t = t ↔ t ∉ longForms := by
  constructor
  · intro heq hlong
    exact (longForms_spec t hlong).2.2 heq
  · intro hnot
    exact (canonical_cases h).resolve_right fun hlong => hnot hlong.1

/-- A list of tokens stays as it is when nothing in it is a legal form to rewrite. -/
theorem applySuffixes_eq_self (h : ∀ t ∈ tokens, Token t) :
    applySuffixes tokens = tokens ↔ ¬ SpellsForm tokens ∧ ∀ t ∈ tokens, t ∉ longForms := by
  by_cases hspells : SpellsForm tokens
  · obtain ⟨front, last, form, -, htokens, hlen, -, -, hjoin⟩ := join_of_spells hspells
    have hshort : (applySuffixes tokens).length < tokens.length := by
      rw [applySuffixes, hjoin, htokens]
      simp
      omega
    constructor
    · intro heq
      rw [heq] at hshort
      exact absurd hshort (lt_irrefl _)
    · exact fun hnot => absurd hspells hnot.1
  · rw [applySuffixes, join_of_not_spells hspells]
    constructor
    · intro heq
      refine ⟨hspells, fun t ht => (canonical_eq_iff (h t ht)).mp ?_⟩
      exact List.map_inj_left.mp (heq.trans (List.map_id tokens).symm) t ht
    · exact fun hnot => map_eq_self fun t ht => (canonical_eq_iff (h t ht)).mpr (hnot.2 t ht)

end PaymentOps.Matching
