import PaymentOps.Domain.Countries
import PaymentOps.Domain.Models
import PaymentOps.Lib.Words

/-!
# Normalization of addresses

Countries and towns as they are read from the country field and from the lines of an address.

`cleaned_of_mem_tables` says that a text which is in the tables once it is stripped and upper-cased
is the same to the normalizer.
-/

open Text in
/-- What upper-casing and NFKC do to the words of a text. -/
structure Unicode.KeepsWords (u : Unicode) : Prop where
  /-- upper-casing maps each character by itself -/
  upper : ∀ s, (u.upper s).toList = s.toList.flatMap fun c => (u.upper (String.singleton c)).toList
  /-- white space has no upper case -/
  upper_space : ∀ c, isSpace c → u.upper (String.singleton c) = String.singleton c
  /-- other characters neither vanish nor become white space -/
  upper_word : ∀ c, isSpace c = false → u.upper (String.singleton c) ≠ "" ∧
    ∀ d ∈ (u.upper (String.singleton c)).toList, isSpace d = false
  /-- NFKC makes the same words of a text with and without white space at its ends -/
  nfkc_strip : ∀ s, Words.fields isSpace (u.nfkc (strip s)).toList =
    Words.fields isSpace (u.nfkc s).toList
  /-- NFKC keeps an upper case in ASCII -/
  nfkc_upper : ∀ s, (u.upper s).IsAscii → u.upper (u.nfkc s) = u.upper s

namespace Text

theorem isSpace_toUpper (c : Char) : isSpace c.toUpper = isSpace c := by
  by_cases hc : c.toNat < 128
  · exact of_ascii (P := fun c => isSpace c.toUpper = isSpace c) (by decide) hc
  · rw [toUpper_of_not_ascii (not_lt.mp hc)]

theorem toUpper_of_isSpace {c : Char} (h : isSpace c) : c.toUpper = c := by
  by_cases hc : c.toNat < 128
  · exact of_ascii (P := fun c => isSpace c → c.toUpper = c) (by decide) hc h
  · exact toUpper_of_not_ascii (not_lt.mp hc)

end Text

theorem Unicode.ascii_keepsWords : Unicode.ascii.KeepsWords where
  upper := Unicode.ascii_charwise.upper
  upper_space c hc := by simp [Unicode.ascii, Text.toUpper_of_isSpace hc]
  upper_word c hc := by simp [Unicode.ascii, Text.isSpace_toUpper, hc]
  nfkc_strip := Text.fields_strip
  nfkc_upper _ _ := rfl

namespace PaymentOps.Address

open Text

/-- `" ".join(value.split())` -/
def normalizeWhitespace (value : String) : String :=
  join " " ((Words.fields isSpace value.toList).map String.ofList)

section

variable (u : Unicode)

/-- The text that the normalizer looks up. -/
def cleaned (raw : String) : String := u.upper (normalizeWhitespace (u.nfkc raw))

/-- The code of a country field, with the level of the evidence and a note. -/
def normalizeCountryField (raw : Option String) :
    Option String × EvidenceLevel × Option String :=
  if truthy raw then
    let raw := raw.getD ""
    if isValidCountryCode (cleaned u raw) then
      (some (cleaned u raw), .high, some "valid ISO alpha-2 code")
    else
      let code := normalizeCountryName u (cleaned u raw)
      if truthy code then (code, .high, some ("normalised from name '" ++ raw ++ "'"))
      else (none, .low, some ("unknown country value '" ++ raw ++ "'"))
  else (none, .low, some "no country value")

/-- `[part.strip() for part in value.split(",") if part.strip()]` -/
def splitCommas (value : String) : List String := ((split ',' value).map strip).filter (· ≠ "")

/-- The code that a token of an address line stands for. -/
def tokenCountry (token : String) : Option String :=
  let token := normalizeWhitespace (u.nfkc token)
  if isValidCountryCode (u.upper token) then some (u.upper token)
  else (normalizeCountryName u token).filter (· ≠ "")

/-- The first country that the lines name. -/
def extractCountryFromLines (lines : List String) : Option String × EvidenceLevel :=
  match (lines.flatMap splitCommas).findSome? (tokenCountry u) with
  | some code => (some code, .medium)
  | none => (none, .low)

/-- The token names the country, by its code or by one of its names. -/
def isCountryToken (token : String) (countryCode : Option String) : Bool :=
  let token := normalizeWhitespace token
  isValidCountryCode (u.upper token) || truthy (normalizeCountryName u token) ||
    truthy countryCode && countryCode = some (u.upper token)

/-- `2 <= len(candidate) <= 35 and candidate[0].isupper()` -/
def plausibleTown (isUpper : Char → Bool) (candidate : String) : Bool :=
  2 ≤ candidate.length && candidate.length ≤ 35 && candidate.toList.head?.any isUpper

/-- The first plausible town that stands before a country. -/
def extractTownFromLines (isUpper : Char → Bool) (lines : List String)
    (countryCode : Option String) : Option String × EvidenceLevel :=
  let town := lines.findSome? fun line =>
    let tokens := splitCommas line
    (tokens.zip tokens.tail).findSome? fun p =>
      if isCountryToken u p.2 countryCode && plausibleTown isUpper p.1 then some p.1 else none
  match town with
  | some town => (some town, .medium)
  | none => (none, .low)

end

/-! ## Words -/

section

variable {u : Unicode}

theorem toList_normalizeWhitespace (s : String) :
    (normalizeWhitespace s).toList = [' '].intercalate (Words.fields isSpace s.toList) := by
  have hid : String.toList ∘ String.ofList = id := funext fun l => String.toList_ofList
  rw [normalizeWhitespace, toList_join, List.map_map, hid, List.map_id]

/-- Words can be collapsed before or after they are upper-cased. -/
theorem upper_normalizeWhitespace (hu : u.KeepsWords) (s : String) :
    u.upper (normalizeWhitespace s) = normalizeWhitespace (u.upper s) := by
  have hsep : ∀ c, isSpace c → (u.upper (String.singleton c)).toList = [c] := by
    intro c hc
    rw [hu.upper_space c hc, String.toList_singleton]
  have hword : ∀ c, isSpace c = false → (u.upper (String.singleton c)).toList ≠ [] ∧
      ∀ d ∈ (u.upper (String.singleton c)).toList, isSpace d = false := by
    intro c hc
    obtain ⟨hne, hmem⟩ := hu.upper_word c hc
    exact ⟨fun hnil => hne (String.toList_eq_nil_iff.mp hnil), hmem⟩
  apply String.toList_inj.mp
  rw [hu.upper, toList_normalizeWhitespace, toList_normalizeWhitespace, hu.upper s,
    Words.fields_flatMap hsep hword, Words.flatMap_intercalate (hsep ' ' (by decide))]

/-- White space at the ends plays no part in the normalizer. -/
theorem cleaned_strip (hu : u.KeepsWords) (s : String) : cleaned u (strip s) = cleaned u s := by
  rw [cleaned, cleaned, normalizeWhitespace, hu.nfkc_strip, ← normalizeWhitespace]

/-- Words that are joined once stay as they are. -/
theorem normalizeWhitespace_normalizeWhitespace (s : String) :
    normalizeWhitespace (normalizeWhitespace s) = normalizeWhitespace s := by
  apply String.toList_inj.mp
  rw [toList_normalizeWhitespace, toList_normalizeWhitespace,
    Words.fields_intercalate (by decide), Words.fields_fields fun _ => id]

/-- A text that is not blank has a word. -/
theorem normalizeWhitespace_ne_empty {s : String} (h : strip s ≠ "") :
    normalizeWhitespace s ≠ "" := by
  intro hempty
  apply h
  have hspace : ∀ c ∈ s.toList, isSpace c := by
    by_contra hne
    simp only [not_forall, Bool.not_eq_true] at hne
    obtain ⟨c, hc, hword⟩ := hne
    obtain ⟨w, hw, hcw⟩ := Words.exists_mem_fields hword hc
    have hmem := Words.mem_intercalate_of_mem (s := ' ') hw hcw
    rw [← toList_normalizeWhitespace, hempty] at hmem
    cases hmem
  rw [strip, List.dropWhile_eq_nil_iff.mpr hspace]
  rfl

theorem normalizeWhitespace_strip (s : String) :
    normalizeWhitespace (strip s) = normalizeWhitespace s := by
  rw [normalizeWhitespace, fields_strip, ← normalizeWhitespace]

/-- What the normalizer and the provider look up in the tables. -/
def tableTexts : List String := validCountryCodes ++ countryNameToCode.map (·.1)

theorem stripped_normalizeWhitespace (s : String) : Stripped (normalizeWhitespace s) := by
  apply stripped_of_ends
  · intro c hc
    rw [toList_normalizeWhitespace] at hc
    exact Words.of_mem_head?_intercalate hc
  · intro c hc
    rw [toList_normalizeWhitespace] at hc
    apply Words.of_mem_getLast?_intercalate _ hc
    intro w hw
    exact ⟨(Words.mem_fields hw).1, fun x hx => ((Words.mem_fields hw).2 x hx).1⟩

/-- The texts of the tables are normalized. -/
theorem normalized_of_mem_tables {s : String} (h : s ∈ tableTexts) :
    s.IsAscii ∧ normalizeWhitespace s = s ∧ strip s = s ∧ u.upper s = s := by
  have hall : ∀ s ∈ tableTexts, s.toList.all (·.toNat < 128) = true ∧ normalizeWhitespace s = s ∧
      strip s = s ∧ String.ofList (s.toList.map Char.toUpper) = s := by
    decide +kernel
  obtain ⟨hascii, hwords, hstrip, hupper⟩ := hall s h
  have hs : s.IsAscii := by simpa [String.IsAscii] using hascii
  exact ⟨hs, hwords, hstrip, by rw [u.upper_ascii s hs, hupper]⟩

/-- A text that is in the tables once it is stripped and upper-cased is the same to the
normalizer. -/
theorem cleaned_of_mem_tables (hu : u.KeepsWords) {s : String}
    (h : u.upper (strip s) ∈ tableTexts) : cleaned u s = u.upper (strip s) := by
  obtain ⟨hascii, hwords, -⟩ := normalized_of_mem_tables (u := u) h
  rw [← cleaned_strip hu, cleaned, upper_normalizeWhitespace hu, hu.nfkc_upper _ hascii, hwords]

theorem mem_tables_of_code {s : String} (h : isValidCountryCode s) : s ∈ tableTexts :=
  List.mem_append_left _ (List.contains_iff_mem.mp h)

/-- The name that a text stands for. -/
theorem mem_tables_of_name {s code : String} (h : normalizeCountryName u s = some code) :
    u.upper (strip s) ∈ tableTexts :=
  List.mem_append_right _ (List.mem_map.mpr ⟨_, Dict.mem_of_get h, rfl⟩)

/-- The name of a country is no code, and its code is not empty. -/
theorem name_spec {s code : String} (h : normalizeCountryName u s = some code) :
    isValidCountryCode (u.upper (strip s)) = false ∧ code ≠ "" := by
  have hall : ∀ p ∈ countryNameToCode, isValidCountryCode p.1 = false ∧ p.2 ≠ "" := by
    decide +kernel
  exact hall _ (Dict.mem_of_get h)

theorem not_truthy_name {s : String} (h : ¬ truthy (normalizeCountryName u s)) :
    normalizeCountryName u s = none := by
  cases hname : normalizeCountryName u s with
  | none => rfl
  | some code =>
    rw [hname, truthy_some] at h
    exact absurd (name_spec hname).2 h

/-- No country has an empty name. -/
theorem normalizeCountryName_empty : normalizeCountryName u "" = none := by
  have hstrip : strip "" = "" := by decide
  have hupper : u.upper "" = "" := u.upper_ascii "" nofun
  rw [normalizeCountryName, hstrip, hupper]
  decide +kernel

/-- The code that the normalizer finds. -/
theorem normalizeCountryField_code (raw : String) : (normalizeCountryField u (some raw)).1 =
    if isValidCountryCode (cleaned u raw) then some (cleaned u raw)
    else normalizeCountryName u (cleaned u raw) := by
  by_cases hempty : raw = ""
  · subst hempty
    have hcleaned : cleaned u "" = "" := by
      rw [cleaned, u.nfkc_ascii "" nofun]
      exact u.upper_ascii "" nofun
    rw [hcleaned, normalizeCountryName_empty]
    rfl
  · unfold normalizeCountryField
    rw [if_pos (truthy_some.mpr hempty)]
    dsimp only [Option.getD_some]
    split_ifs with hcode hname
    · rfl
    · rfl
    · exact (not_truthy_name hname).symm

/-! ## Lines -/

/-- The names stand for codes. -/
theorem valid_of_name {s code : String} (h : normalizeCountryName u s = some code) :
    isValidCountryCode code := by
  have hall : ∀ p ∈ countryNameToCode, isValidCountryCode p.2 := by
    decide +kernel
  exact hall _ (Dict.mem_of_get h)

/-- A country that the lines name is a code. -/
theorem valid_of_lines {lines : List String} {code : String}
    (h : (extractCountryFromLines u lines).1 = some code) : isValidCountryCode code := by
  unfold extractCountryFromLines at h
  cases hfind : (lines.flatMap splitCommas).findSome? (tokenCountry u) with
  | none =>
    rw [hfind] at h
    cases h
  | some found =>
    rw [hfind] at h
    obtain rfl : found = code := Option.some.inj h
    obtain ⟨token, -, htoken⟩ := List.exists_of_findSome?_eq_some hfind
    dsimp only [tokenCountry] at htoken
    split_ifs at htoken with hcode
    · exact Option.some.inj htoken ▸ hcode
    · exact valid_of_name (Option.filter_eq_some_iff.mp htoken).1

/-- The parts of the lines that stand directly before a country and look like a town. -/
def townCandidates (u : Unicode) (isUpper : Char → Bool) (lines : List String) : List String :=
  lines.flatMap fun line =>
    let tokens := splitCommas line
    (tokens.zip tokens.tail).filterMap fun p =>
      if isCountryToken u p.2 none && plausibleTown isUpper p.1 then some p.1 else none

/-- A code adds nothing to the tokens that stand for a country. -/
theorem isCountryToken_eq {countryCode : Option String}
    (hcode : ∀ code ∈ countryCode, isValidCountryCode code) (token : String) :
    isCountryToken u token countryCode = isCountryToken u token none := by
  cases countryCode with
  | none => rfl
  | some code =>
    by_cases htoken : code = u.upper (normalizeWhitespace token)
    · have hvalid := hcode code rfl
      rw [htoken] at hvalid
      simp [isCountryToken, hvalid]
    · simp [isCountryToken, htoken]

/-- The town is the first candidate, whatever the code. -/
theorem extractTownFromLines_eq {isUpper : Char → Bool} {lines : List String}
    {countryCode : Option String} (hcode : ∀ code ∈ countryCode, isValidCountryCode code) :
    (extractTownFromLines u isUpper lines countryCode).1 =
      (townCandidates u isUpper lines).head? := by
  unfold extractTownFromLines
  rw [townCandidates, List.head?_flatMap]
  simp only [List.head?_filterMap, isCountryToken_eq hcode]
  split
  · exact Eq.symm ‹_›
  · exact Eq.symm ‹_›

/-- A candidate is no blank. -/
theorem normalizeWhitespace_candidate {isUpper : Char → Bool} {lines : List String} {town : String}
    (h : town ∈ townCandidates u isUpper lines) : town ≠ "" ∧ normalizeWhitespace town ≠ "" := by
  obtain ⟨line, -, htown⟩ := List.mem_flatMap.mp h
  obtain ⟨p, hp, hsome⟩ := List.mem_filterMap.mp htown
  split_ifs at hsome with hplausible
  obtain rfl : p.1 = town := Option.some.inj hsome
  obtain ⟨hmem, hne⟩ := List.mem_filter.mp (List.of_mem_zip hp).1
  obtain ⟨part, -, hpart⟩ := List.mem_map.mp hmem
  have hstrip : strip part ≠ "" := by simpa [hpart] using hne
  refine ⟨by simpa using hne, ?_⟩
  rw [← hpart, normalizeWhitespace_strip]
  exact normalizeWhitespace_ne_empty hstrip

theorem stripped_candidate {isUpper : Char → Bool} {lines : List String} {town : String}
    (h : town ∈ townCandidates u isUpper lines) : Stripped town := by
  obtain ⟨line, -, htown⟩ := List.mem_flatMap.mp h
  obtain ⟨p, hp, hsome⟩ := List.mem_filterMap.mp htown
  split_ifs at hsome
  obtain rfl : p.1 = town := Option.some.inj hsome
  obtain ⟨part, -, hpart⟩ := List.mem_map.mp (List.mem_filter.mp (List.of_mem_zip hp).1).1
  rw [← hpart]
  exact stripped_strip part

end

end PaymentOps.Address
