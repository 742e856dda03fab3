import Mathlib.Data.List.Forall2
import PaymentOps.Matching.NameTokens

/-!
# Normalizing a name twice

`normalizeName` replaces the legal form of a name before it drops the punctuation.
`normalizeName_idempotent_iff`: a second call changes nothing exactly when no legal form appears
only once the punctuation is gone (`Settled`).
-/

namespace PaymentOps.Matching

open Text

variable {u : Unicode} {s t : String} {tokens words : List String} {n : ℕ}

/-! ## Rules that change longer words -/

/-- Two lists of words that differ in longer words only. -/
def Alike : List String → List String → Prop :=
  List.Forall₂ fun v w => v = w ∨ v.length ≠ 1 ∧ w.length ≠ 1

theorem Alike.symm {v w : List String} (h : Alike v w) : Alike w v := by
  induction h with
  | nil => exact List.Forall₂.nil
  | cons hvw _ ih => exact List.Forall₂.cons (hvw.imp Eq.symm And.symm) ih

theorem Alike.eq_of_single {v w : List String} (h : Alike v w) (hv : ∀ x ∈ v, x.length = 1) :
    v = w := by
  induction h with
  | nil => rfl
  | @cons x y v w hxy _ ih =>
    have hx : x = y := hxy.resolve_right fun hlong => hlong.1 (hv x (by simp))
    rw [hx, ih fun z hz => hv z (by simp [hz])]

theorem Alike.spells {v w : List String} (h : Alike v w) (hv : Spells n v) : Spells n w := by
  obtain ⟨hlen, hsingle, hform⟩ := hv
  have hlength : v.length = w.length := List.Forall₂.length_eq h
  have hdrop : v.drop (v.length - n) = w.drop (w.length - n) := by
    rw [← hlength]
    have halike : Alike (v.drop (v.length - n)) (w.drop (v.length - n)) :=
      List.forall₂_drop _ h
    exact halike.eq_of_single (by simpa using hsingle)
  exact ⟨hlength ▸ hlen, hdrop ▸ hsingle, hdrop ▸ hform⟩

theorem Alike.spellsForm_iff {v w : List String} (h : Alike v w) :
    SpellsForm v ↔ SpellsForm w :=
  ⟨Or.imp h.spells h.spells, Or.imp h.symm.spells h.symm.spells⟩

/-- The canonical spellings change longer words only. -/
theorem alike_canonical (h : ∀ t ∈ tokens, Token t) :
    Alike ((tokens.map canonical).flatMap wordsOf) (tokens.flatMap wordsOf) := by
  induction tokens with
  | nil => exact List.Forall₂.nil
  | cons t tokens ih =>
    have hhead : Alike (wordsOf (canonical t)) (wordsOf t) := by
      rcases canonical_cases (h t (by simp)) with heq | ⟨hlong, hlegal⟩
      · rw [heq]
        exact List.forall₂_same.mpr fun _ _ => Or.inl rfl
      · obtain ⟨ht, hwords, -⟩ := longForms_spec t hlong
        obtain ⟨hc, hcanonical, -⟩ := legalForms_spec _ hlegal
        rw [hwords, hcanonical]
        exact List.Forall₂.cons (Or.inr ⟨hc, ht⟩) List.Forall₂.nil
    exact List.rel_append hhead (ih fun t' ht' => h t' (by simp [ht']))

/-! ## One call -/

/-- The words of the normalized name, in capitals. -/
def resultWords (tokens : List String) : List String := (applySuffixes tokens).flatMap wordsOf

theorem mem_applySuffixes (h : ∀ t ∈ tokens, Token t) (ht : t ∈ applySuffixes tokens) :
    t ∈ tokens ∧ t ∉ longForms ∨ t ∈ legalForms := by
  obtain ⟨t', ht', rfl⟩ := List.mem_map.mp ht
  have hjoined : t' ∈ tokens ∨ t' ∈ legalForms := by
    by_cases hspells : SpellsForm tokens
    · obtain ⟨front, last, form, hform, htokens, -, -, -, hjoin⟩ := join_of_spells hspells
      rw [hjoin, List.mem_append, List.mem_singleton] at ht'
      rcases ht' with hfront | rfl
      · exact Or.inl (htokens ▸ List.mem_append_left last hfront)
      · exact Or.inr hform
    · rw [join_of_not_spells hspells] at ht'
      exact Or.inl ht'
  rcases hjoined with hmem | hlegal
  · rcases canonical_cases (h t' hmem) with heq | ⟨-, hlegal⟩
    · rw [heq]
      exact Or.inl ⟨hmem, (canonical_eq_iff (h t' hmem)).mp heq⟩
    · exact Or.inr hlegal
  · rw [(legalForms_spec t' hlegal).2.2.1]
    exact Or.inr hlegal

/-- A token of more characters that is no long form stays. -/
theorem mem_applySuffixes_of_mem (h : ∀ t ∈ tokens, Token t) (ht : t ∈ tokens)
    (hlong : t ∉ longForms) (hlen : t.length ≠ 1) : t ∈ applySuffixes tokens := by
  refine List.mem_map.mpr ⟨t, ?_, (canonical_eq_iff (h t ht)).mpr hlong⟩
  by_cases hspells : SpellsForm tokens
  · obtain ⟨front, last, form, -, htokens, -, hsingle, -, hjoin⟩ := join_of_spells hspells
    rw [htokens, List.mem_append] at ht
    rw [hjoin]
    exact List.mem_append_left _ (ht.resolve_right fun hlast => hlen (hsingle t hlast))
  · rwa [join_of_not_spells hspells]

theorem token_of_legal (h : t ∈ legalForms) : Token t := by
  intro c hc
  have hall := List.all_eq_true.mp (legalForms_spec t h).2.2.2 c hc
  simp only [Bool.and_eq_true, decide_eq_true_eq, Bool.not_eq_true'] at hall
  exact ⟨hall.1.2, hall.2⟩

theorem token_of_mem_applySuffixes (h : ∀ t ∈ tokens, Token t) (ht : t ∈ applySuffixes tokens) :
    Token t :=
  (mem_applySuffixes h ht).elim (fun hmem => h t hmem.1) token_of_legal

/-- A word of one character is the token. -/
theorem eq_of_mem_wordsOf_single {w : String} (hlen : t.length = 1) (hw : w ∈ wordsOf t) :
    w = t := by
  obtain ⟨c, hc⟩ := List.length_eq_one_iff.mp (String.length_toList.trans hlen)
  by_cases hword : isWordChar c
  · have hself : wordsOf t = [t] := by
      apply wordsOf_word
      · intro hempty
        rw [hempty] at hc
        cases hc
      · simpa [hc] using hword
    simpa [hself] using hw
  · have hnil : wordsOf t = [] := by
      rw [wordsOf, hc, Words.fields_eq_nil.mpr (by simpa using hword)]
      rfl
    rw [hnil] at hw
    cases hw

/-- No long form is among the words when none is hidden in a longer token. -/
theorem resultWords_long (h : ∀ t ∈ tokens, Token t) :
    (∀ v ∈ resultWords tokens, v ∉ longForms) ↔
      ∀ t ∈ tokens, ∀ w ∈ wordsOf t, w ∈ longForms → t = w := by
  constructor
  · intro hnone t ht w hw hwlong
    by_cases htlong : t ∈ longForms
    · rw [(longForms_spec t htlong).2.1, List.mem_singleton] at hw
      exact hw.symm
    · by_cases hlen : t.length = 1
      · exact (eq_of_mem_wordsOf_single hlen hw).symm
      · have hkept := mem_applySuffixes_of_mem h ht htlong hlen
        exact absurd hwlong (hnone w (List.mem_flatMap.mpr ⟨t, hkept, hw⟩))
  · intro hown v hv hvlong
    obtain ⟨t, ht, hvt⟩ := List.mem_flatMap.mp hv
    rcases mem_applySuffixes h ht with ⟨hmem, hnot⟩ | hlegal
    · exact hnot (hown t hmem v hvt hvlong ▸ hvlong)
    · rw [(legalForms_spec t hlegal).2.1, List.mem_singleton] at hvt
      exact not_mem_longForms_of_legal hlegal (hvt ▸ hvlong)

/-- The words spell a legal form when those of the name do and its tokens do not. -/
theorem resultWords_spells (h : ∀ t ∈ tokens, Token t) :
    ¬ SpellsForm (resultWords tokens) ↔
      (SpellsForm (tokens.flatMap wordsOf) → SpellsForm tokens) := by
  by_cases hspells : SpellsForm tokens
  · obtain ⟨front, last, form, hform, -, -, -, -, hjoin⟩ := join_of_spells hspells
    obtain ⟨hlen, hwords, hcanonical, -⟩ := legalForms_spec form hform
    have hresult : resultWords tokens = (front.map canonical).flatMap wordsOf ++ [form] := by
      rw [resultWords, applySuffixes, hjoin]
      simp [hcanonical, hwords]
    have hnot : ¬ SpellsForm (resultWords tokens) := by
      rw [hresult]
      rintro (h3 | h2)
      · exact not_spells_append (by decide) hlen h3
      · exact not_spells_append (by decide) hlen h2
    exact ⟨fun _ _ => hspells, fun _ => hnot⟩
  · have hresult : resultWords tokens = (tokens.map canonical).flatMap wordsOf := by
      rw [resultWords, applySuffixes, join_of_not_spells hspells]
    rw [hresult, (alike_canonical h).spellsForm_iff]
    exact ⟨fun hnot hwords => absurd hwords hnot, fun himp hwords => hspells (himp hwords)⟩

/-! ## ASCII names -/

theorem nameTokens_token (name : String) : ∀ t ∈ nameTokens name, Token t ∧ t ≠ "" := by
  intro t ht
  obtain ⟨l, hl, rfl⟩ := List.mem_map.mp ht
  obtain ⟨hne, hmem⟩ := Words.mem_fields hl
  refine ⟨?_, by simpa using hne⟩
  intro c hc
  rw [String.toList_ofList] at hc
  obtain ⟨d, hd, rfl⟩ := List.mem_map.mp hc
  exact ⟨toUpper_toUpper d, (isSep_toUpper d).trans (hmem d hd).1⟩

/-- The suffix rules see the tokens of an ASCII name. -/
theorem suffixTokens_ascii {name : String} (h : name.IsAscii) :
    suffixTokens u name = split ' ' (join " " (nameTokens name)) := by
  have hcollapse : (collapse (strip (replace ',' " " (replace '.' " " name)))).toList =
      [' '].intercalate (Words.fields isSep name.toList) := by
    rw [toList_collapse, fields_compact]
  have hascii : (collapse (strip (replace ',' " " (replace '.' " " name)))).IsAscii := by
    intro c hc
    rw [hcollapse] at hc
    rcases Words.mem_intercalate hc with hspace | ⟨w, hw, hcw⟩
    · obtain rfl := List.mem_singleton.mp hspace
      decide
    · exact h c ((Words.mem_fields hw).2 c hcw).2
  have hjoin : u.upper (collapse (strip (replace ',' " " (replace '.' " " name)))) =
      join " " (nameTokens name) := by
    apply String.toList_injective
    rw [u.upper_ascii _ hascii, hcollapse, String.toList_ofList, toList_join, nameTokens,
      List.map_map, Words.map_intercalate]
    simp [Function.comp_def]
  rw [suffixTokens, hjoin]

/-- The suffix rules make nothing of a name without tokens. -/
theorem resultWords_split {tokens : List String} (h : ∀ t ∈ tokens, Token t) :
    resultWords (split ' ' (join " " tokens)) = resultWords tokens := by
  cases tokens with
  | nil => decide +kernel
  | cons t tokens =>
    have hsplit : split ' ' (join (String.singleton ' ') (t :: tokens)) = t :: tokens := by
      apply split_join (List.cons_ne_nil t tokens)
      intro t' ht' hspace
      exact absurd (h t' ht' ' ' hspace).2 (by decide)
    exact congrArg resultWords hsplit

theorem nameTokens_collapse (name : String) : nameTokens (collapse name) = nameTokens name := by
  have hsep : ∀ c, isSpace c → isSep c := by
    intro c hc
    simp [isSep, hc]
  rw [nameTokens, toList_collapse, Words.fields_intercalate (by decide), Words.fields_fields hsep]
  rfl

theorem ascii_collapse {name : String} (h : name.IsAscii) : (collapse name).IsAscii := by
  intro c hc
  rw [toList_collapse] at hc
  rcases Words.mem_intercalate hc with hspace | ⟨w, hw, hcw⟩
  · obtain rfl := List.mem_singleton.mp hspace
    decide
  · exact h c ((Words.mem_fields hw).2 c hcw).2

theorem nameTokens_ascii {name : String} (h : name.IsAscii) : ∀ t ∈ nameTokens name, t.IsAscii := by
  intro t ht c hc
  obtain ⟨l, hl, rfl⟩ := List.mem_map.mp ht
  rw [String.toList_ofList] at hc
  obtain ⟨d, hd, rfl⟩ := List.mem_map.mp hc
  exact toUpper_ascii (h d ((Words.mem_fields hl).2 d hd).2)

theorem ascii_of_legal (h : t ∈ legalForms) : t.IsAscii := by
  intro c hc
  have hall := List.all_eq_true.mp (legalForms_spec t h).2.2.2 c hc
  simp only [Bool.and_eq_true, decide_eq_true_eq] at hall
  exact hall.1.1

theorem ascii_join (h : ∀ t ∈ tokens, t.IsAscii) : (join " " tokens).IsAscii := by
  intro c hc
  rw [toList_join] at hc
  rcases Words.mem_intercalate hc with hspace | ⟨l, hl, hcl⟩
  · obtain rfl := List.mem_singleton.mp hspace
    decide
  · obtain ⟨t, ht, rfl⟩ := List.mem_map.mp hl
    exact h t ht c hcl

theorem resultWords_ascii (h : ∀ t ∈ tokens, Token t) (hascii : ∀ t ∈ tokens, t.IsAscii) :
    ∀ w ∈ resultWords tokens, w.IsAscii := by
  intro w hw c hc
  obtain ⟨t, ht, hwt⟩ := List.mem_flatMap.mp hw
  have hct : c ∈ t.toList := ((of_mem_wordsOf hwt).2.2 c hc).2
  rcases mem_applySuffixes h ht with ⟨hmem, -⟩ | hlegal
  · exact hascii t hmem c hct
  · exact ascii_of_legal hlegal c hct

/-- The normalized name of an ASCII name. -/
theorem normalizeName_ascii (hs : s.IsAscii) : normalizeName u s =
    orNone (joinSuffix.lower (join " " (resultWords (nameTokens s)))) := by
  have htokens : ∀ t ∈ nameTokens s, Token t := fun t ht => (nameTokens_token s t ht).1
  have hwords : (applySuffixes (suffixTokens u (collapse s))).flatMap wordsOf =
      resultWords (nameTokens s) := by
    rw [suffixTokens_ascii (ascii_collapse hs), nameTokens_collapse]
    exact resultWords_split htokens
  rw [normalizeName_eq, u.nfkc_ascii s hs, hwords, u.casefold_ascii]
  · rfl
  · exact ascii_join (resultWords_ascii htokens (nameTokens_ascii hs))

/-! ## Two calls -/

theorem resultWords_token (h : ∀ t ∈ tokens, Token t) :
    ∀ w ∈ resultWords tokens, Token w ∧ wordsOf w = [w] ∧ w ≠ "" := by
  intro w hw
  obtain ⟨t, ht, hwt⟩ := List.mem_flatMap.mp hw
  obtain ⟨hself, hne, hchars⟩ := of_mem_wordsOf hwt
  exact ⟨fun c hc => token_of_mem_applySuffixes h ht c (hchars c hc).2, hself, hne⟩

/-- The tokens of joined tokens are these, whatever their case. -/
theorem nameTokens_lower_join (h : ∀ t ∈ tokens, Token t ∧ t ≠ "") :
    nameTokens (joinSuffix.lower (join " " tokens)) = tokens := by
  have hlower : ∀ c ∈ (join " " tokens).toList, isSep c.toLower = isSep c := by
    intro c _
    rw [← isSep_toUpper, toUpper_toLower, isSep_toUpper]
  have hparts : ∀ t ∈ tokens, Words.fields isSep t.toList = [t.toList] := by
    intro t ht
    exact Words.fields_of_word (fun c hc => ((h t ht).1 c hc).2) (by simpa using (h t ht).2)
  have hfields : Words.fields isSep (join " " tokens).toList = tokens.map String.toList := by
    rw [toList_join, Words.fields_intercalate (by decide), List.flatMap_map,
      List.flatMap_congr hparts, ← List.map_eq_flatMap]
  rw [nameTokens, joinSuffix.lower, String.toList_ofList, Words.fields_map hlower, hfields,
    List.map_map, List.map_map]
  apply map_eq_self
  intro t ht
  apply String.toList_injective
  simp only [Function.comp_apply, String.toList_ofList, List.map_map]
  exact map_eq_self fun c hc => (toUpper_toLower c).trans ((h t ht).1 c hc).1

/-- The second call applies the suffix rules to the words that the first one found. -/
theorem normalizeName_lower_join (h : ∀ t ∈ words, Token t ∧ wordsOf t = [t] ∧ t ≠ "")
    (hascii : ∀ t ∈ words, t.IsAscii) :
    normalizeName u (joinSuffix.lower (join " " words)) =
      orNone (joinSuffix.lower (join " " (applySuffixes words))) := by
  have hlower : (joinSuffix.lower (join " " words)).IsAscii := by
    intro c hc
    rw [joinSuffix.lower, String.toList_ofList] at hc
    obtain ⟨d, hd, rfl⟩ := List.mem_map.mp hc
    exact toLower_ascii (ascii_join hascii d hd)
  have hself : ∀ t ∈ applySuffixes words, wordsOf t = [t] := by
    intro t ht
    rcases mem_applySuffixes (fun t ht => (h t ht).1) ht with ⟨hmem, -⟩ | hlegal
    · exact (h t hmem).2.1
    · exact (legalForms_spec t hlegal).2.1
  rw [normalizeName_ascii hlower, nameTokens_lower_join fun t ht => ⟨(h t ht).1, (h t ht).2.2⟩,
    resultWords, List.flatMap_congr hself, ← List.map_eq_flatMap, List.map_id']

/-- No legal form appears only once the punctuation is gone. -/
structure Settled (name : String) : Prop where
  /-- `LIMITED` and `INCORPORATED` are no part of a longer token -/
  whole : ∀ t ∈ nameTokens name, ∀ w ∈ wordsOf t, w ∈ longForms → t = w
  /-- initials that spell a legal form are tokens already -/
  spelled : SpellsForm ((nameTokens name).flatMap wordsOf) → SpellsForm (nameTokens name)

theorem settled_iff {name : String} : Settled name ↔
    applySuffixes (resultWords (nameTokens name)) = resultWords (nameTokens name) := by
  have htokens : ∀ t ∈ nameTokens name, Token t := fun t ht => (nameTokens_token name t ht).1
  rw [applySuffixes_eq_self fun w hw => (resultWords_token htokens w hw).1,
    resultWords_spells htokens, resultWords_long htokens]
  exact ⟨fun h => ⟨h.spelled, h.whole⟩, fun h => ⟨h.2, h.1⟩⟩

theorem eq_of_orNone {a b : String} (h : orNone a = some b) : a = b := by
  unfold orNone at h
  split_ifs at h
  exact Option.some.inj h

/-- Normalizing an ASCII name once more changes nothing exactly when the name is settled. -/
theorem normalizeName_idempotent_iff (u : Unicode) {s : String} (hs : s.IsAscii) :
    (normalizeName u s).bind (normalizeName u) = normalizeName u s ↔ Settled s := by
  have htokens : ∀ t ∈ nameTokens s, Token t := fun t ht => (nameTokens_token s t ht).1
  have hascii := resultWords_ascii htokens (nameTokens_ascii hs)
  have hwords := resultWords_token htokens
  rw [settled_iff, normalizeName_ascii hs]
  generalize resultWords (nameTokens s) = words at hascii hwords ⊢
  have hback : nameTokens (joinSuffix.lower (join " " words)) = words :=
    nameTokens_lower_join fun w hw => ⟨(hwords w hw).1, (hwords w hw).2.2⟩
  by_cases hempty : joinSuffix.lower (join " " words) = ""
  · obtain rfl : words = [] := by
      rw [← hback, hempty]
      rfl
    exact iff_of_true rfl rfl
  rw [orNone_of_ne hempty, Option.bind_some, normalizeName_lower_join hwords hascii]
  have hrewritten : ∀ t ∈ applySuffixes words, Token t ∧ t ≠ "" := by
    intro t ht
    refine ⟨token_of_mem_applySuffixes (fun w hw => (hwords w hw).1) ht, ?_⟩
    rcases mem_applySuffixes (fun w hw => (hwords w hw).1) ht with ⟨hmem, -⟩ | hlegal
    · exact (hwords t hmem).2.2
    · have hself : t ∈ wordsOf t := by
        rw [(legalForms_spec t hlegal).2.1]
        exact List.mem_singleton_self t
      exact (of_mem_wordsOf hself).2.1
  constructor
  · intro heq
    have htexts := congrArg nameTokens (eq_of_orNone heq)
    rwa [nameTokens_lower_join hrewritten, hback] at htexts
  · intro heq
    rw [heq, orNone_of_ne hempty]

theorem settled_spelled : Settled "ACME S.P.A." := by
  have hascii : "ACME S.P.A.".toList.all (·.toNat < 128) := by decide
  refine (normalizeName_idempotent_iff Unicode.ascii fun c hc => ?_).mp (by decide +kernel)
  simpa using List.all_eq_true.mp hascii c hc

/-- With hyphens the legal form is found by the second call only. -/
theorem not_idempotent_hyphens : "ACME S-P-A".toList.all (·.toNat < 128) ∧
    normalizeName Unicode.ascii "ACME S-P-A" = some "acme s p a" ∧
    normalizeName Unicode.ascii "acme s p a" = some "acme spa" := by
  decide +kernel

end PaymentOps.Matching
