import Mathlib.Data.List.Basic
import Mathlib.Data.List.TakeWhile

/-!
# Python strings

The string operations that Python programs use, as functions on character lists.  What depends
on the Unicode tables (`upper`, `casefold`, NFKC, decimal digits) is a parameter, `Unicode`,
which fixes only its behaviour on ASCII.
-/

namespace Text

/-- `str.isspace` for one character. -/
def isSpace (c : Char) : Bool :=
  let n := c.toNat
  (9 ≤ n && n ≤ 13) || (28 ≤ n && n ≤ 32) || n == 0x85 || n == 0xa0 || n == 0x1680 ||
    (0x2000 ≤ n && n ≤ 0x200a) || n == 0x2028 || n == 0x2029 || n == 0x202f || n == 0x205f ||
    n == 0x3000

/-- `s.strip()` -/
def strip (s : String) : String :=
  String.ofList ((s.toList.dropWhile isSpace).reverse.dropWhile isSpace).reverse

/-- `s.strip(chars)` -/
def stripChars (chars : List Char) (s : String) : String :=
  String.ofList ((s.toList.dropWhile (chars.contains ·)).reverse.dropWhile
    (chars.contains ·)).reverse

/-- `s.rstrip(chars)` -/
def rstripChars (chars : List Char) (s : String) : String :=
  String.ofList (s.toList.reverse.dropWhile (chars.contains ·)).reverse

/-- `s.replace(c, t)` for a single character `c` -/
def replace (c : Char) (t : String) (s : String) : String :=
  String.ofList (s.toList.flatMap fun d => if d = c then t.toList else [d])

/-- `s.split(c)` -/
def split (c : Char) (s : String) : List String :=
  (s.toList.splitOn c).map String.ofList

/-- `s.partition(c)` without the separator: what stands before the first `c` and after it. -/
def partition (c : Char) (s : String) : String × String :=
  (String.ofList (s.toList.takeWhile (· ≠ c)), String.ofList (s.toList.dropWhile (· ≠ c)).tail)

/-- `sep.join(words)` -/
def join (sep : String) (words : List String) : String := sep.intercalate words

/-- `s[:n]` -/
def take (n : ℕ) (s : String) : String := String.ofList (s.toList.take n)

/-- `s.startswith(t)` -/
def startsWith (t s : String) : Bool := t.toList.isPrefixOf s.toList

/-- `re.sub(r"\s+", " ", s)` -/
def squeeze : List Char → List Char
  | [] => []
  | [c] => [if isSpace c then ' ' else c]
  | c :: d :: cs =>
    if isSpace c then
      if isSpace d then squeeze (d :: cs) else ' ' :: squeeze (d :: cs)
    else c :: squeeze (d :: cs)

/-! ## Optional strings -/

/-- The truth value of `str | None`. -/
def truthy (s : Option String) : Bool := s.any (· ≠ "")

/-- `a or b` -/
def or (a b : Option String) : Option String := if truthy a then a else b

/-- `s or None` -/
def orNone (s : String) : Option String := if s = "" then none else some s

@[simp] theorem truthy_none : truthy none = false := rfl

theorem truthy_some {s : String} : truthy (some s) ↔ s ≠ "" := by simp [truthy]

theorem truthy_iff {o : Option String} : truthy o ↔ ∃ s, o = some s ∧ s ≠ "" := by
  cases o <;> simp [truthy]

theorem orNone_of_ne {s : String} (h : s ≠ "") : orNone s = some s := by simp [orNone, h]

/-! ## Characters of the results -/

@[simp] theorem toList_take (n : ℕ) (s : String) : (take n s).toList = s.toList.take n :=
  String.toList_ofList

/-- A text is stripped when neither end is white space. -/
def Stripped (s : String) : Prop := strip s = s

instance (s : String) : Decidable (Stripped s) := inferInstanceAs (Decidable (strip s = s))

theorem split_append (c : Char) (s t : String) :
    split c (s ++ String.singleton c ++ t) = split c s ++ split c t := by
  have h : (s ++ String.singleton c ++ t).toList = s.toList ++ c :: t.toList := by
    simp [String.toList_append]
  rw [split, h, List.splitOn_append_cons_self, List.map_append]
  rfl

theorem split_of_not_mem {c : Char} {s : String} (h : c ∉ s.toList) : split c s = [s] := by
  rw [split, List.splitOn_eq_singleton h]
  simp

theorem partition_append {c : Char} {s : String} (h : c ∉ s.toList) (t : String) :
    partition c (s ++ String.singleton c ++ t) = (s, t) := by
  have hl : (s ++ String.singleton c ++ t).toList = s.toList ++ c :: t.toList := by
    simp [String.toList_append]
  have hs : ∀ d ∈ s.toList, (decide (d ≠ c)) = true := by
    intro d hd
    simp only [decide_eq_true_eq]
    rintro rfl
    exact h hd
  rw [partition, hl, List.takeWhile_append_of_pos hs, List.dropWhile_append_of_pos hs]
  simp

theorem partition_of_not_mem {c : Char} {s : String} (h : c ∉ s.toList) :
    partition c s = (s, "") := by
  have hs : ∀ d ∈ s.toList, (decide (d ≠ c)) = true := by
    intro d hd
    simp only [decide_eq_true_eq]
    rintro rfl
    exact h hd
  rw [partition, List.takeWhile_eq_self_iff.mpr hs, List.dropWhile_eq_nil_iff.mpr hs]
  simp

theorem rstripChars_append {c : Char} {s : String} (h : s.toList.getLast? ≠ some c) :
    rstripChars [c] (s ++ String.singleton c) = s := by
  have hl : (s ++ String.singleton c).toList.reverse = c :: s.toList.reverse := by
    simp
  have hd : s.toList.reverse.dropWhile (fun d => [c].contains d) = s.toList.reverse := by
    cases hr : s.toList.reverse with
    | nil => rfl
    | cons d l =>
      have hdc : d ≠ c := by
        rintro rfl
        apply h
        rw [← List.head?_reverse, hr]
        rfl
      simp [hdc]
  rw [rstripChars, hl, List.dropWhile_cons_of_pos (by simp), hd]
  simp

theorem split_join {c : Char} {l : List String} (hl : l ≠ []) (h : ∀ s ∈ l, c ∉ s.toList) :
    split c (join (String.singleton c) l) = l := by
  have hnil : l.map String.toList ≠ [] := by simpa using hl
  rw [split, join, String.toList_intercalate, String.toList_singleton, List.splitOn_intercalate]
  · simp [List.map_map, Function.comp_def]
  · simpa using h
  · exact hnil

theorem join_cons_cons (sep s t : String) (l : List String) :
    join sep (s :: t :: l) = s ++ sep ++ join sep (t :: l) := by
  apply String.toList_injective
  simp [join, String.toList_intercalate, List.intercalate]

theorem split_ne_nil (c : Char) (s : String) : split c s ≠ [] := by
  rw [split, Ne, List.map_eq_nil_iff]
  exact List.splitOn_ne_nil c s.toList

/-- The words of a text that is joined are those of its parts. -/
theorem split_join_flatMap (c : Char) {l : List String} (hl : l ≠ []) :
    split c (join (String.singleton c) l) = l.flatMap (split c) := by
  obtain ⟨s, l, rfl⟩ := List.exists_cons_of_ne_nil hl
  induction l generalizing s with
  | nil => simp [join]
  | cons t l ih =>
    rw [join_cons_cons, split_append, ih t (List.cons_ne_nil t l)]
    rfl

theorem join_split (c : Char) (s : String) : join (String.singleton c) (split c s) = s := by
  apply String.toList_injective
  rw [join, split, String.toList_intercalate, String.toList_singleton, List.map_map]
  simp [Function.comp_def]

end Text

/-! ## Unicode -/

/-- All characters of `s` are ASCII. -/
def String.IsAscii (s : String) : Prop := ∀ c ∈ s.toList, c.toNat < 128

namespace Text

/-- What holds of the first 128 characters holds of every ASCII character. -/
theorem of_ascii {P : Char → Prop} (h : ∀ n < 128, P (Char.ofNat n)) {c : Char}
    (hc : c.toNat < 128) : P c := by
  have hn := h c.toNat hc
  rwa [Char.ofNat_toNat] at hn

theorem toUpper_of_not_ascii {c : Char} (h : 128 ≤ c.toNat) : c.toUpper = c := by
  refine dif_neg fun hlower => ?_
  have hhigh : c.toNat ≤ 122 := hlower.2
  omega

theorem toLower_of_not_ascii {c : Char} (h : 128 ≤ c.toNat) : c.toLower = c := by
  refine dif_neg fun hupper => ?_
  have hhigh : c.toNat ≤ 90 := hupper.2
  omega

@[simp] theorem toUpper_toLower (c : Char) : c.toLower.toUpper = c.toUpper := by
  by_cases hc : c.toNat < 128
  · exact of_ascii (P := fun c => c.toLower.toUpper = c.toUpper) (by decide) hc
  · rw [toLower_of_not_ascii (not_lt.mp hc)]

@[simp] theorem toLower_toUpper (c : Char) : c.toUpper.toLower = c.toLower := by
  by_cases hc : c.toNat < 128
  · exact of_ascii (P := fun c => c.toUpper.toLower = c.toLower) (by decide) hc
  · rw [toUpper_of_not_ascii (not_lt.mp hc)]

@[simp] theorem toUpper_toUpper (c : Char) : c.toUpper.toUpper = c.toUpper := by
  rw [← toUpper_toLower c.toUpper, toLower_toUpper, toUpper_toLower]

theorem toUpper_ascii {c : Char} (hc : c.toNat < 128) : c.toUpper.toNat < 128 :=
  of_ascii (P := fun c => c.toUpper.toNat < 128) (by decide) hc

theorem toLower_ascii {c : Char} (hc : c.toNat < 128) : c.toLower.toNat < 128 :=
  of_ascii (P := fun c => c.toLower.toNat < 128) (by decide) hc

end Text

/-- The part of Python's string methods that reads the Unicode tables. -/
structure Unicode where
  upper : String → String
  casefold : String → String
  nfkc : String → String
  /-- the value of a decimal digit of any script -/
  digit : Char → Option ℕ
  upper_ascii : ∀ s, s.IsAscii → upper s = String.ofList (s.toList.map Char.toUpper)
  casefold_ascii : ∀ s, s.IsAscii → casefold s = String.ofList (s.toList.map Char.toLower)
  nfkc_ascii : ∀ s, s.IsAscii → nfkc s = s
  digit_ascii : ∀ c : Char, c.toNat < 128 →
    digit c = if c.isDigit then some (c.toNat - 48) else none

/-- The tables cut down to ASCII. -/
def Unicode.ascii : Unicode where
  upper s := String.ofList (s.toList.map Char.toUpper)
  casefold s := String.ofList (s.toList.map Char.toLower)
  nfkc s := s
  digit c := if c.isDigit then some (c.toNat - 48) else none
  upper_ascii _ _ := rfl
  casefold_ascii _ _ := rfl
  nfkc_ascii _ _ := rfl
  digit_ascii _ _ := rfl

/-- Upper-casing maps each character by itself, and case folding loses no text. -/
structure Unicode.Charwise (u : Unicode) : Prop where
  upper : ∀ s, (u.upper s).toList =
    s.toList.flatMap fun c => (u.upper (String.singleton c)).toList
  casefold : ∀ s, u.casefold s = "" → s = ""

theorem Unicode.ascii_charwise : Unicode.ascii.Charwise where
  upper s := by simp [Unicode.ascii, List.map_eq_flatMap]
  casefold s h := by simpa [Unicode.ascii] using h

/-- `re.sub(r"\s+", " ", s).strip()` -/
def Text.collapse (s : String) : String := strip (String.ofList (squeeze s.toList))
