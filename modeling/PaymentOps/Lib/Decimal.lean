import Mathlib.Data.Int.Log
import Mathlib.Data.Rat.Floor
import PaymentOps.Lib.Text

/-!
# Decimal and binary numbers

Python's `round`, `float` and `Decimal` over exact rationals: a float is the rational that it
denotes, an operation on floats or decimals is the exact operation followed by the rounding of
the format.
-/

/-- A finite `decimal.Decimal`: `(-1)^negative * coefficient * 10^exponent`. -/
structure Decimal where
  negative : Bool := false
  coefficient : ℕ
  exponent : ℤ := 0
  deriving DecidableEq

namespace Decimal

/-- The number that a decimal stands for. -/
def toRat (d : Decimal) : ℚ :=
  (if d.negative then -1 else 1) * d.coefficient * (10 : ℚ) ^ d.exponent

/-- `str(d)`: scientific notation is used for positive and for very small exponents. -/
def toString (d : Decimal) : String :=
  let digits := Nat.toDigits 10 d.coefficient
  let left := d.exponent + digits.length
  let point := if d.exponent ≤ 0 ∧ -6 < left then left else 1
  let body :=
    if point ≤ 0 then '0' :: '.' :: List.replicate (-point).toNat '0' ++ digits
    else if digits.length ≤ point then
      digits ++ List.replicate (point - digits.length).toNat '0'
    else digits.take point.toNat ++ '.' :: digits.drop point.toNat
  let power :=
    if left = point then []
    else 'E' :: (if 0 ≤ left - point then '+' else '-') :: Nat.toDigits 10 (left - point).natAbs
  String.ofList ((if d.negative then ['-'] else []) ++ body ++ power)

/-- Round to the nearest integer, ties to even. -/
def roundHalfEven (q : ℚ) : ℤ :=
  let f := ⌊q⌋
  if q - f < 1 / 2 then f
  else if 1 / 2 < q - f then f + 1
  else if f % 2 = 0 then f else f + 1

/-- `round(q, 2)` -/
def round2 (q : ℚ) : ℚ := roundHalfEven (q * 100) / 100

/-- The nearest binary64 number, `none` where the format overflows to an infinity. -/
def binary64 (q : ℚ) : Option ℚ :=
  if q = 0 then some 0
  else
    let ulp : ℚ := 2 ^ max (Int.log 2 |q| - 52) (-1074)
    let r := roundHalfEven (q / ulp) * ulp
    if (2 : ℚ) ^ 1024 ≤ |r| then none else some r

/-- Round to the 28 significant digits of the default decimal context. -/
def context28 (q : ℚ) : ℚ :=
  if q = 0 then 0
  else
    let ulp : ℚ := 10 ^ (Int.log 10 |q| - 27)
    roundHalfEven (q / ulp) * ulp

/-- The exponent of the leading digit is past the limit of the default decimal context. -/
def overflows (q : ℚ) : Bool := 999999 < Int.log 10 |q|

/-- A number as `float` and `Decimal` read it. -/
inductive Number where
  | finite (q : ℚ)
  | infinite
  | nan
  deriving DecidableEq

/-! ## Reading numbers -/

/-- The leading digits, as values. -/
def takeDigits (u : Unicode) : List Char → List ℕ × List Char
  | [] => ([], [])
  | c :: cs =>
    match u.digit c with
    | some d => (d :: (takeDigits u cs).1, (takeDigits u cs).2)
    | none => ([], c :: cs)

/-- The number that digits write. -/
def ofDigits (ds : List ℕ) : ℕ := ds.foldl (fun n d => 10 * n + d) 0

/-- A sign and what follows it. -/
def takeSign : List Char → Bool × List Char
  | '-' :: cs => (true, cs)
  | '+' :: cs => (false, cs)
  | cs => (false, cs)

/-- An exponent that extends to the end of the text, zero when there is none. -/
def readExponent (u : Unicode) : List Char → Option ℤ
  | [] => some 0
  | e :: cs =>
    let (neg, cs) := takeSign cs
    let (ds, rest) := takeDigits u cs
    if (e = 'e' ∨ e = 'E') ∧ ds ≠ [] ∧ rest = [] then
      some (if neg then -(ofDigits ds : ℤ) else ofDigits ds)
    else none

/-- Digits with an optional point and an optional exponent. -/
def readUnsigned (u : Unicode) (cs : List Char) : Option ℚ := do
  let (whole, cs) := takeDigits u cs
  let (fraction, cs) := match cs with
    | '.' :: cs => takeDigits u cs
    | cs => ([], cs)
  if whole = [] ∧ fraction = [] then none
  else
    let e ← readExponent u cs
    some (ofDigits (whole ++ fraction) * (10 : ℚ) ^ (e - fraction.length))

/-- The text in lower case. -/
def lower (cs : List Char) : List Char := cs.map Char.toLower

/-- A signed number, or the name of an infinity or of a NaN. -/
def readNumber (u : Unicode) (cs : List Char) : Option Number :=
  let (neg, cs) := takeSign cs
  if lower cs = "inf".toList ∨ lower cs = "infinity".toList then some .infinite
  else if lower cs = "nan".toList then some .nan
  else (readUnsigned u cs).map fun q => .finite (if neg then -q else q)

/-- Drop underscores, each of which must stand between two digits. -/
def dropUnderscores (u : Unicode) (afterDigit : Bool) : List Char → Option (List Char)
  | [] => some []
  | '_' :: c :: cs =>
    if afterDigit && (u.digit c).isSome then dropUnderscores u false (c :: cs) else none
  | ['_'] => none
  | c :: cs => (dropUnderscores u (u.digit c).isSome cs).map (c :: ·)

/-- `float(s)` before rounding, `none` where it raises `ValueError`. -/
def ofFloatText (u : Unicode) (s : String) : Option Number :=
  (dropUnderscores u false (Text.strip s).toList).bind (readNumber u)

/-- `Decimal(s)`, `none` where it raises. -/
def ofDecimalText (u : Unicode) (s : String) : Option Number :=
  readNumber u ((Text.strip s).toList.filter (· ≠ '_'))

end Decimal

/-! ## Reading integers -/

namespace Text

open Decimal

/-- `int(s)`, `none` where it raises. -/
def int (u : Unicode) (s : String) : Option ℤ :=
  let (neg, cs) := takeSign (strip s).toList
  (dropUnderscores u false cs).bind fun cs =>
    let (ds, rest) := takeDigits u cs
    if ds ≠ [] ∧ rest = [] then some (if neg then -(ofDigits ds : ℤ) else ofDigits ds) else none

variable {u : Unicode} {c : Char} {cs : List Char}

theorem toNat_of_isDigit (h : c.isDigit) : 48 ≤ c.toNat ∧ c.toNat ≤ 57 := by
  simp only [Char.isDigit, Bool.and_eq_true, decide_eq_true_eq] at h
  exact ⟨UInt32.le_iff_toNat_le.mp h.1, UInt32.le_iff_toNat_le.mp h.2⟩

theorem toNat_of_isAlpha (h : c.isAlpha) :
    (65 ≤ c.toNat ∧ c.toNat ≤ 90) ∨ (97 ≤ c.toNat ∧ c.toNat ≤ 122) := by
  have hupper : c.isUpper = decide ('A'.val ≤ c.val ∧ c.val ≤ 'Z'.val) := rfl
  have hlower : c.isLower = (decide ('a'.val ≤ c.val) && decide (c.val ≤ 'z'.val)) := rfl
  have halpha : c.isAlpha = (c.isUpper || c.isLower) := rfl
  rw [halpha, hupper, hlower] at h
  simp only [Bool.or_eq_true, Bool.and_eq_true, decide_eq_true_eq] at h
  rcases h with h | h
  · exact .inl ⟨UInt32.le_iff_toNat_le.mp h.1, UInt32.le_iff_toNat_le.mp h.2⟩
  · exact .inr ⟨UInt32.le_iff_toNat_le.mp h.1, UInt32.le_iff_toNat_le.mp h.2⟩

theorem isSpace_of_isDigit (h : c.isDigit) : isSpace c = false := by
  have hc := toNat_of_isDigit h
  simp [isSpace]
  omega

theorem digit_of_isDigit (h : c.isDigit) : u.digit c = some (c.toNat - 48) := by
  have hc := toNat_of_isDigit h
  rw [u.digit_ascii c (by omega), if_pos h]

theorem digit_of_isAlpha (h : c.isAlpha) : u.digit c = none := by
  have hc := toNat_of_isAlpha h
  rw [u.digit_ascii c (by omega), if_neg]
  intro hd
  have := toNat_of_isDigit hd
  omega

theorem takeDigits_of_isDigit (h : ∀ c ∈ cs, c.isDigit) :
    takeDigits u cs = (cs.map fun c => c.toNat - 48, []) := by
  induction cs with
  | nil => rfl
  | cons c cs ih =>
    have hc : u.digit c = some (c.toNat - 48) := digit_of_isDigit (h c (by simp))
    rw [takeDigits, hc, ih fun d hd => h d (by simp [hd])]
    rfl

theorem dropUnderscores_cons (hc : c ≠ '_') (b : Bool) :
    dropUnderscores u b (c :: cs) = (dropUnderscores u (u.digit c).isSome cs).map (c :: ·) := by
  rw [dropUnderscores]
  · intro d ds h
    exact absurd h hc
  · intro h
    exact absurd h hc

/-- There are no underscores to drop. -/
theorem dropUnderscores_of_ne (h : ∀ c ∈ cs, c ≠ '_') (b : Bool) :
    dropUnderscores u b cs = some cs := by
  induction cs generalizing b with
  | nil => rfl
  | cons c cs ih =>
    rw [dropUnderscores_cons (h c (by simp)), ih fun d hd => h d (by simp [hd])]
    rfl

theorem ofDigits_toDigits (n : ℕ) :
    ofDigits ((Nat.toDigits 10 n).map fun c => c.toNat - 48) = n := by
  have h := Nat.ofDigitChars_toDigits (b := 10) (n := n) (by decide) (by decide)
  rw [Nat.ofDigitChars_eq_foldl] at h
  rw [ofDigits, List.foldl_map]
  exact h

/-- A text without white space is stripped already. -/
theorem strip_of_not_isSpace {s : String} (h : ∀ c ∈ s.toList, isSpace c = false) :
    strip s = s := by
  have hd : ∀ l : List Char, (∀ c ∈ l, isSpace c = false) → l.dropWhile isSpace = l := by
    intro l hl
    cases l with
    | nil => rfl
    | cons c l => simp [hl c (by simp)]
  rw [strip, hd _ h, hd _ (by simpa using h), List.reverse_reverse, String.ofList_toList]

theorem strip_of_isDigit {s : String} (h : ∀ c ∈ s.toList, c.isDigit) : strip s = s :=
  strip_of_not_isSpace fun c hc => isSpace_of_isDigit (h c hc)

theorem takeSign_cons (h : c ≠ '-') (h' : c ≠ '+') : takeSign (c :: cs) = (false, c :: cs) := by
  unfold takeSign
  split
  · rename_i heq
    cases heq
    contradiction
  · rename_i heq
    cases heq
    contradiction
  · rfl

/-- The decimal digits of a number. -/
theorem toList_toString (n : ℕ) : (toString n).toList = Nat.toDigits 10 n := by
  rw [Nat.toString_eq_ofList_toDigits, String.toList_ofList]

theorem isDigit_of_mem_toString {n : ℕ} (h : c ∈ (toString n).toList) : c.isDigit := by
  rw [toList_toString] at h
  exact Nat.isDigit_of_mem_toDigits (by decide) (by decide) h

/-- `int(str(n)) == n` -/
theorem int_toString (n : ℕ) : int u (toString n) = some (n : ℤ) := by
  have hdig : ∀ c ∈ Nat.toDigits 10 n, c.isDigit := fun c hc =>
    Nat.isDigit_of_mem_toDigits (by decide) (by decide) hc
  have hsign : takeSign (Nat.toDigits 10 n) = (false, Nat.toDigits 10 n) := by
    rcases hd : Nat.toDigits 10 n with _ | ⟨c, cs⟩
    · rfl
    · have hc : c.isDigit := hdig c (by simp [hd])
      apply takeSign_cons
      · rintro rfl
        exact absurd hc (by decide)
      · rintro rfl
        exact absurd hc (by decide)
  have hstrip : strip (toString n) = toString n :=
    strip_of_isDigit fun c hc => isDigit_of_mem_toString hc
  have hne : ∀ c ∈ Nat.toDigits 10 n, c ≠ '_' := by
    rintro c hc rfl
    exact absurd (hdig '_' hc) (by decide)
  unfold int
  rw [hstrip, toList_toString, hsign]
  simp only [dropUnderscores_of_ne hne, Option.bind_some, takeDigits_of_isDigit hdig,
    ofDigits_toDigits]
  simp [Nat.toDigits_ne_nil]

/-- A text that starts with a letter is no integer. -/
theorem int_of_isAlpha {s : String} (hs : (strip s).toList = c :: cs) (hc : c.isAlpha) :
    int u s = none := by
  have hn := toNat_of_isAlpha hc
  have hne : ∀ d : Char, (d.toNat < 65 ∨ 90 < d.toNat ∧ d.toNat < 97) → c ≠ d := by
    rintro d hd rfl
    omega
  unfold int
  rw [hs, takeSign_cons (hne '-' (by decide)) (hne '+' (by decide))]
  simp only [dropUnderscores_cons (hne '_' (by decide)), Option.bind_map]
  cases dropUnderscores u (u.digit c).isSome cs with
  | none => rfl
  | some cs' => simp [takeDigits, digit_of_isAlpha hc]

end Text
