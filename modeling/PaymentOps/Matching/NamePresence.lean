import PaymentOps.Matching.NameTokens
import PaymentOps.Matching.Score

/-!
# Names that normalize to nothing

`_PUNCT_RE` keeps the letters of Latin-1, so a name of another script has no words and its field
counts as missing.

* `normalizeName_isSome_iff`: what a name must contain to keep a word (`KeepsWord`);
* `guarded_iff`: the names of a pair are compared and guarded exactly when both keep one.
-/

namespace PaymentOps.Matching

open Text

variable {u : Unicode} {fuzz : Fuzz} {policy : MatchingPolicy} {t : String}
  {tokens : List String} {field : Field}

/-! ## Words that stay -/

/-- The text has a word. -/
def HasWord (t : String) : Prop := ∃ c ∈ t.toList, isWordChar c

theorem wordsOf_eq_nil : wordsOf t = [] ↔ ¬ HasWord t := by
  rw [wordsOf, List.map_eq_nil_iff, Words.fields_eq_nil, HasWord]
  simp

theorem flatMap_wordsOf_eq_nil : tokens.flatMap wordsOf = [] ↔ ¬ ∃ t ∈ tokens, HasWord t := by
  rw [List.flatMap_eq_nil_iff]
  simp only [wordsOf_eq_nil, not_exists, not_and]

theorem hasWord_of_legal (h : t ∈ legalForms) : HasWord t := by
  by_contra hnone
  have hself := (legalForms_spec t h).2.1
  rw [wordsOf_eq_nil.mpr hnone] at hself
  cases hself

/-- A text that spells a legal form in any case has a word. -/
theorem hasWord_of_suffix (h : companySuffixes.contains (joinSuffix.lower t)) : HasWord t := by
  have htable : ∀ p ∈ companySuffixes, p.1.toList.any isWordChar := by decide +kernel
  obtain ⟨form, hget⟩ := Option.isSome_iff_exists.mp h
  obtain ⟨c, hc, hword⟩ := List.any_eq_true.mp (htable _ (Dict.mem_of_get hget))
  rw [joinSuffix.lower, String.toList_ofList] at hc
  obtain ⟨d, hd, rfl⟩ := List.mem_map.mp hc
  exact ⟨d, hd, isWordChar_toLower d ▸ hword⟩

theorem hasWord_canonical (t : String) : HasWord (canonical t) ↔ HasWord t := by
  cases hget : companySuffixes.get (joinSuffix.lower t) with
  | none => rw [canonical, hget, Option.getD_none]
  | some form =>
    have hlegal : form ∈ legalForms := List.mem_map_of_mem (Dict.mem_of_get hget)
    rw [canonical, hget, Option.getD_some]
    exact iff_of_true (hasWord_of_legal hlegal)
      (hasWord_of_suffix (Option.isSome_iff_exists.mpr ⟨form, hget⟩))

/-- The suffix rules keep words and make none. -/
theorem exists_hasWord_applySuffixes :
    (∃ t ∈ applySuffixes tokens, HasWord t) ↔ ∃ t ∈ tokens, HasWord t := by
  have hmap : (∃ t ∈ applySuffixes tokens, HasWord t) ↔
      ∃ t ∈ joinSuffix 2 (joinSuffix 3 tokens), HasWord t := by
    simp only [applySuffixes, List.mem_map, exists_exists_and_eq_and, hasWord_canonical]
  rw [hmap]
  by_cases hspells : SpellsForm tokens
  · obtain ⟨front, last, form, hform, htokens, -, -, hspelled, hjoin⟩ := join_of_spells hspells
    rw [hjoin]
    refine iff_of_true ⟨form, by simp, hasWord_of_legal hform⟩ ?_
    obtain ⟨c, hc, hword⟩ := hasWord_of_suffix hspelled
    rw [join, String.toList_intercalate] at hc
    obtain ⟨l, hl, hcl⟩ := (Words.mem_intercalate hc).resolve_left List.not_mem_nil
    obtain ⟨t, ht, rfl⟩ := List.mem_map.mp hl
    exact ⟨t, htokens ▸ List.mem_append_right front ht, c, hcl, hword⟩
  · rw [join_of_not_spells hspells]

theorem exists_hasWord_split : (∃ w ∈ split ' ' t, HasWord w) ↔ HasWord t := by
  have hwords : (split ' ' t).flatMap wordsOf = wordsOf t := by
    rw [← wordsOf_join]
    exact congrArg wordsOf (join_split ' ' t)
  rw [← not_iff_not, ← flatMap_wordsOf_eq_nil, hwords, wordsOf_eq_nil]

/-! ## What a name must contain -/

/-- Some character of the name, in capitals, is a letter or a digit that `_PUNCT_RE` keeps. -/
def KeepsWord (u : Unicode) (name : String) : Prop :=
  ∃ c ∈ (u.nfkc name).toList, isSep c = false ∧ HasWord (u.upper (String.singleton c))

theorem hasWord_upper (hu : u.Charwise) (t : String) :
    HasWord (u.upper t) ↔ ∃ c ∈ t.toList, HasWord (u.upper (String.singleton c)) := by
  rw [HasWord, hu.upper t]
  simp only [List.mem_flatMap, HasWord]
  constructor
  · rintro ⟨d, ⟨c, hc, hd⟩, hword⟩
    exact ⟨c, hc, d, hd, hword⟩
  · rintro ⟨c, hc, d, hd, hword⟩
    exact ⟨d, ⟨c, hc, hd⟩, hword⟩

theorem not_hasWord_space : ¬ HasWord (u.upper (String.singleton ' ')) := by
  have hascii : (String.singleton ' ').IsAscii := by
    simp [String.IsAscii]
  rintro ⟨c, hc, hword⟩
  rw [u.upper_ascii _ hascii] at hc
  obtain rfl : c = ' ' := by simpa using hc
  exact absurd hword (by decide)

/-- The suffix rules see the characters of the name that separate no tokens. -/
theorem hasWord_compact (hu : u.Charwise) (name : String) :
    HasWord (u.upper (collapse (strip (replace ',' " " (replace '.' " "
      (collapse (u.nfkc name))))))) ↔ KeepsWord u name := by
  rw [hasWord_upper hu, toList_collapse, fields_compact, toList_collapse,
    Words.fields_intercalate (by decide),
    Words.fields_fields fun c (hc : isSpace c) => by simp [isSep, hc]]
  constructor
  · rintro ⟨c, hc, hword⟩
    have hne : c ∉ [' '] := by
      intro hspace
      exact not_hasWord_space (List.mem_singleton.mp hspace ▸ hword)
    obtain ⟨w, hw, hcw⟩ := (Words.mem_intercalate hc).resolve_left hne
    exact ⟨c, ((Words.mem_fields hw).2 c hcw).2, ((Words.mem_fields hw).2 c hcw).1, hword⟩
  · rintro ⟨c, hc, hsep, hword⟩
    exact ⟨c, (Words.mem_intercalate_fields (by decide) hsep).mpr hc, hword⟩

theorem join_eq_empty (h : ∀ t ∈ tokens, t ≠ "") : join " " tokens = "" ↔ tokens = [] := by
  constructor
  · intro hempty
    by_contra hne
    obtain ⟨t, ht⟩ := List.exists_mem_of_ne_nil tokens hne
    obtain ⟨c, hc⟩ := List.exists_mem_of_ne_nil t.toList (by simpa using h t ht)
    have hmem : c ∈ (join " " tokens).toList := by
      rw [toList_join]
      exact Words.mem_intercalate_of_mem (List.mem_map_of_mem ht) hc
    rw [hempty] at hmem
    cases hmem
  · rintro rfl
    rfl

/-- A name normalizes to something exactly when it keeps a word. -/
theorem normalizeName_isSome_iff (hu : u.Charwise) (name : String) :
    (normalizeName u name).isSome ↔ KeepsWord u name := by
  have hwords : (applySuffixes (suffixTokens u (collapse (u.nfkc name)))).flatMap wordsOf = [] ↔
      ¬ KeepsWord u name := by
    rw [flatMap_wordsOf_eq_nil, exists_hasWord_applySuffixes, suffixTokens, exists_hasWord_split,
      hasWord_compact hu]
  have hne : ∀ w ∈ (applySuffixes (suffixTokens u (collapse (u.nfkc name)))).flatMap wordsOf,
      w ≠ "" := by
    intro w hw
    obtain ⟨t, -, hwt⟩ := List.mem_flatMap.mp hw
    exact (of_mem_wordsOf hwt).2.1
  have hfold : ∀ s, u.casefold s = "" ↔ s = "" := by
    refine fun s => ⟨hu.casefold s, ?_⟩
    rintro rfl
    rw [u.casefold_ascii "" (by simp [String.IsAscii])]
    rfl
  rw [normalizeName_eq, ← not_iff_not, ← hwords, ← join_eq_empty hne, ← hfold, orNone]
  split_ifs with h <;> simp [h]

/-! ## The field of a name -/

/-- The name that a field compares. -/
def partyName (field : Field) (record : MatchRecord) : Option String :=
  match field with
  | .debtorName => record.debtorName
  | .creditorName => record.creditorName
  | _ => none

/-- The results for `field` are not missing, and names that differ materially are a conflict. -/
def Guarded (decision : MatchDecision) (field : Field) : Prop :=
  ∀ fr ∈ decision.fieldResults, fr.field = field → fr.status ≠ .missing ∧
    (fr.status = .mismatch → fr.similarity < nameMismatchThreshold →
      decision.criticalConflicts ≠ [])

theorem normalizeRecord_name (hfield : field = .debtorName ∨ field = .creditorName)
    {record : MatchRecord} {name : String} (hname : partyName field record = some name) :
    normalizeRecord u record field = normalizeText (normalizeName u) (some name) := by
  rcases hfield with rfl | rfl
  · exact congrArg (normalizeText (normalizeName u)) hname
  · exact congrArg (normalizeText (normalizeName u)) hname

theorem normalizeText_isSome (hu : u.Charwise) (name : String) :
    (normalizeText (normalizeName u) (some name)).isSome ↔ KeepsWord u name := by
  rw [← normalizeName_isSome_iff hu, normalizeText, Option.isSome_map]
  by_cases hempty : name = ""
  · have hnone : ¬ KeepsWord u "" := by
      rintro ⟨c, hc, -⟩
      rw [u.nfkc_ascii "" (by simp [String.IsAscii])] at hc
      cases hc
    rw [← normalizeName_isSome_iff hu] at hnone
    rw [hempty]
    exact iff_of_false (by simp) hnone
  · simp [Option.filter, hempty]

theorem fuzzyResult_missing {a b : Option Value} {weight : ℚ} {critical : Bool}
    {algorithm okCode : String} :
    (fuzzyResult field a b weight critical fuzz algorithm okCode).status ≠ .missing ↔
      a.isSome ∧ b.isSome := by
  cases a with
  | none => simp [fuzzyResult, missingResult]
  | some a =>
    cases b with
    | none => simp [fuzzyResult, missingResult]
    | some b =>
      simp only [fuzzyResult]
      split_ifs <;> simp [comparedResult]

theorem nameResult_missing {na nb : Field → Option Value}
    (hfield : field = .debtorName ∨ field = .creditorName) :
    (fieldResult fuzz policy na nb field).status ≠ .missing ↔
      (na field).isSome ∧ (nb field).isSome := by
  rcases hfield with rfl | rfl
  · exact fuzzyResult_missing
  · exact fuzzyResult_missing

/-- The names of a pair are compared, and guarded, exactly when both keep a word. -/
theorem guarded_iff (hu : u.Charwise) (fuzz : Fuzz) (policy : MatchingPolicy) (v : String)
    {recordA recordB : MatchRecord} {nameA nameB : String}
    (hfield : field = .debtorName ∨ field = .creditorName)
    (ha : partyName field recordA = some nameA) (hb : partyName field recordB = some nameB) :
    Guarded (evaluatePair u fuzz recordA recordB policy v) field ↔
      KeepsWord u nameA ∧ KeepsWord u nameB := by
  have hpresent : (fieldResult fuzz policy (normalizeRecord u recordA) (normalizeRecord u recordB)
      field).status ≠ .missing ↔ KeepsWord u nameA ∧ KeepsWord u nameB := by
    rw [nameResult_missing hfield, normalizeRecord_name hfield ha, normalizeRecord_name hfield hb,
      normalizeText_isSome hu, normalizeText_isSome hu]
  have hmem : fieldResult fuzz policy (normalizeRecord u recordA) (normalizeRecord u recordB)
      field ∈ (evaluatePair u fuzz recordA recordB policy v).fieldResults :=
    fieldResult_mem (by simpa using hfield)
  constructor
  · intro h
    exact hpresent.mp (h _ hmem fieldResult_field).1
  · rintro hkept fr hfr rfl
    obtain ⟨field, -, rfl⟩ := List.mem_map.mp hfr
    rw [fieldResult_field] at hfield hpresent
    refine ⟨hpresent.mpr hkept, fun hmismatch hlow => ?_⟩
    have hboth := (nameResult_missing hfield).mp (hpresent.mpr hkept)
    obtain ⟨a, hna⟩ := Option.isSome_iff_exists.mp hboth.1
    obtain ⟨b, hnb⟩ := Option.isSome_iff_exists.mp hboth.2
    have hhard := hardMismatch_of_low hna hnb hfield (name_ne_empty hfield hna)
      (name_ne_empty hfield hnb) hlow
    exact criticalConflicts_of_hard hfr (by rwa [fieldResult_field]) hhard _

/-- A payment of 100 by a debtor. -/
def paymentBy (recordId debtorName : String) : MatchRecord where
  recordId := recordId
  recordType := .payment
  organizationId := "org"
  amount := some { coefficient := 100 }
  currency := some "EUR"
  debtorName := some debtorName

theorem guarded_latin :
    Guarded (evaluatePair .ascii .equality (paymentBy "a" "ACME") (paymentBy "b" "Zenith")
        (defaultPolicy "org") "0.2.0") .debtorName ↔
      KeepsWord .ascii "ACME" ∧ KeepsWord .ascii "Zenith" :=
  guarded_iff Unicode.ascii_charwise .equality (defaultPolicy "org") "0.2.0" (Or.inl rfl) rfl rfl

/-- Payments by two different debtors are matched because neither name has a Latin letter. -/
theorem matched_without_names :
    let decision := evaluatePair .ascii .equality (paymentBy "a" "東京銀行") (paymentBy "b" "大阪商事")
      (defaultPolicy "org") "0.2.0"
    ¬ Guarded decision .debtorName ∧ decision.classification = .matched ∧
      decision.matchScore = 100 ∧ decision.criticalConflicts = [] := by
  intro decision
  refine ⟨fun h => ?_, by decide +kernel, by decide +kernel, by decide +kernel⟩
  have hmem : fieldResult .equality (defaultPolicy "org")
      (normalizeRecord .ascii (paymentBy "a" "東京銀行"))
      (normalizeRecord .ascii (paymentBy "b" "大阪商事")) .debtorName ∈ decision.fieldResults :=
    fieldResult_mem (by simp)
  have hmissing : (fieldResult .equality (defaultPolicy "org")
      (normalizeRecord .ascii (paymentBy "a" "東京銀行"))
      (normalizeRecord .ascii (paymentBy "b" "大阪商事")) .debtorName).status = .missing := by
    decide +kernel
  exact (h _ hmem fieldResult_field).1 hmissing

end PaymentOps.Matching
