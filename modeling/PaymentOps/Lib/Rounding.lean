import Mathlib.Tactic.Linarith
import Mathlib.Tactic.FieldSimp
import PaymentOps.Lib.Decimal

/-!
# Rounding twice

A product of decimals is rounded to the digits of the context, and the result to an integer.

* `roundHalfEven_spec`: rounding to an integer goes to the nearest one, and to the even one of two;
* `le_context28`, `context28_le`: rounding to the context does not cross what the context can
  represent;
* `nearest_iff`: the two roundings together reach the nearest integer, unless the first one ends
  halfway between two integers on the side from which the second one goes wrong.
-/

namespace Decimal

/-! ## Integers -/

theorem roundHalfEven_spec (q : ℚ) :
    |q - roundHalfEven q| < 1 / 2 ∨
      |q - roundHalfEven q| = 1 / 2 ∧ Even (roundHalfEven q) := by
  have hlow := Int.floor_le q
  have hhigh := Int.lt_floor_add_one q
  unfold roundHalfEven
  dsimp only
  split_ifs with hlt hgt heven
  · left
    rw [abs_of_nonneg (by linarith)]
    exact hlt
  · left
    push_cast
    rw [abs_of_nonpos (by linarith)]
    linarith
  · right
    have hhalf : q - ⌊q⌋ = 1 / 2 := le_antisymm (not_lt.mp hgt) (not_lt.mp hlt)
    rw [hhalf]
    exact ⟨by norm_num, Int.even_iff.mpr heven⟩
  · right
    have hhalf : q - ⌊q⌋ = 1 / 2 := le_antisymm (not_lt.mp hgt) (not_lt.mp hlt)
    refine ⟨?_, ?_⟩
    · push_cast
      rw [← sub_sub, hhalf]
      norm_num
    · rw [Int.even_iff]
      omega

theorem abs_sub_roundHalfEven_le (q : ℚ) : |q - roundHalfEven q| ≤ 1 / 2 := by
  rcases roundHalfEven_spec q with h | ⟨h, -⟩
  · exact h.le
  · exact h.le

/-- The nearest integer, the even one of two, is unique. -/
theorem roundHalfEven_unique {q : ℚ} {n : ℤ}
    (h : |q - n| < 1 / 2 ∨ |q - n| = 1 / 2 ∧ Even n) : roundHalfEven q = n := by
  have htriangle : |(roundHalfEven q : ℚ) - n| ≤ |q - roundHalfEven q| + |q - n| := by
    have hsplit : (roundHalfEven q : ℚ) - n = (q - n) - (q - roundHalfEven q) := by ring
    rw [hsplit, add_comm]
    exact abs_sub _ _
  by_contra hne
  have hint : (1 : ℤ) ≤ |roundHalfEven q - n| := Int.one_le_abs (sub_ne_zero.mpr hne)
  have hone : (1 : ℚ) ≤ |(roundHalfEven q : ℚ) - n| := by exact_mod_cast hint
  rcases roundHalfEven_spec q with hlt | ⟨hhalf, heven⟩
  · rcases h with h | ⟨h, -⟩
    · linarith
    · linarith
  · rcases h with h | ⟨h, heven'⟩
    · linarith
    · -- both are even, so they are two apart
      have htwo : (2 : ℤ) ≤ |roundHalfEven q - n| := by
        obtain ⟨a, ha⟩ := heven
        obtain ⟨b, hb⟩ := heven'
        rw [ha, hb] at hint ⊢
        rcases abs_cases (a + a - (b + b)) with ⟨habs, -⟩ | ⟨habs, -⟩
        · omega
        · omega
      have htwo' : (2 : ℚ) ≤ |(roundHalfEven q : ℚ) - n| := by exact_mod_cast htwo
      linarith

theorem roundHalfEven_neg (q : ℚ) : roundHalfEven (-q) = -roundHalfEven q := by
  apply roundHalfEven_unique
  have habs : |-q - ((-roundHalfEven q : ℤ) : ℚ)| = |q - roundHalfEven q| := by
    push_cast
    rw [← abs_neg]
    congr 1
    ring
  rw [habs, even_neg]
  exact roundHalfEven_spec q

/-- Rounding does not cross an integer. -/
theorem le_roundHalfEven {n : ℤ} {q : ℚ} (h : n ≤ q) : n ≤ roundHalfEven q := by
  have hq := (abs_le.mp (abs_sub_roundHalfEven_le q)).2
  have hlt : (n : ℚ) < roundHalfEven q + 1 := by linarith
  exact_mod_cast Int.lt_add_one_iff.mp (by exact_mod_cast hlt)

theorem roundHalfEven_le {n : ℤ} {q : ℚ} (h : q ≤ n) : roundHalfEven q ≤ n := by
  have hq := (abs_le.mp (abs_sub_roundHalfEven_le q)).1
  have hlt : (roundHalfEven q : ℚ) < n + 1 := by linarith
  exact Int.lt_add_one_iff.mp (by exact_mod_cast hlt)

/-! ## Two decimals -/

theorem le_round2 {n : ℤ} {q : ℚ} (h : n ≤ q) : n ≤ round2 q := by
  have hscaled : ((n * 100 : ℤ) : ℚ) ≤ q * 100 := by
    push_cast
    linarith
  have hround : ((n * 100 : ℤ) : ℚ) ≤ roundHalfEven (q * 100) := by
    exact_mod_cast le_roundHalfEven hscaled
  rw [round2, le_div_iff₀ (by norm_num)]
  exact_mod_cast hround

theorem round2_le {n : ℤ} {q : ℚ} (h : q ≤ n) : round2 q ≤ n := by
  have hscaled : q * 100 ≤ ((n * 100 : ℤ) : ℚ) := by
    push_cast
    linarith
  have hround : (roundHalfEven (q * 100) : ℚ) ≤ ((n * 100 : ℤ) : ℚ) := by
    exact_mod_cast roundHalfEven_le hscaled
  rw [round2, div_le_iff₀ (by norm_num)]
  exact_mod_cast hround

/-- A whole number has no decimals to round. -/
theorem round2_intCast (n : ℤ) : round2 n = n := le_antisymm (round2_le le_rfl) (le_round2 le_rfl)

/-! ## The nearest integer -/

/-- The nearest integer is at most one half away. -/
theorem nearest_iff_abs_le {q : ℚ} {n : ℤ} :
    (∀ m : ℤ, |q - n| ≤ |q - m|) ↔ |q - n| ≤ 1 / 2 := by
  constructor
  · intro h
    exact (h (roundHalfEven q)).trans (abs_sub_roundHalfEven_le q)
  · intro h m
    by_cases hm : m = n
    · rw [hm]
    · have hone : (1 : ℚ) ≤ |(m : ℚ) - n| := by
        have hint : (1 : ℤ) ≤ |m - n| := Int.one_le_abs (sub_ne_zero.mpr hm)
        exact_mod_cast hint
      have htriangle : |(m : ℚ) - n| ≤ |q - n| + |q - m| := by
        have hsplit : (m : ℚ) - n = (q - n) - (q - m) := by ring
        rw [hsplit]
        exact abs_sub _ _
      linarith

/-! ## The digits of the context -/

/-- The distance of the decimals with 28 significant digits around a number. -/
def ulp28 (q : ℚ) : ℚ := 10 ^ (Int.log 10 |q| - 27)

theorem ulp28_pos (q : ℚ) : 0 < ulp28 q := zpow_pos (by norm_num) _

theorem context28_of_ne {q : ℚ} (h : q ≠ 0) :
    context28 q = roundHalfEven (q / ulp28 q) * ulp28 q := if_neg h

theorem context28_zero : context28 0 = 0 := if_pos rfl

theorem context28_neg (q : ℚ) : context28 (-q) = -context28 q := by
  by_cases hq : q = 0
  · rw [hq, neg_zero, context28_zero, neg_zero]
  · have hulp : ulp28 (-q) = ulp28 q := by rw [ulp28, ulp28, abs_neg]
    rw [context28_of_ne (neg_ne_zero.mpr hq), context28_of_ne hq, hulp, neg_div,
      roundHalfEven_neg]
    push_cast
    ring

theorem abs_sub_context28_le (q : ℚ) : |q - context28 q| ≤ ulp28 q / 2 := by
  have hpos := ulp28_pos q
  by_cases hq : q = 0
  · rw [hq, context28_zero]
    simpa using (half_pos (ulp28_pos 0)).le
  · have hcancel : q - context28 q = (q / ulp28 q - roundHalfEven (q / ulp28 q)) * ulp28 q := by
      rw [context28_of_ne hq, sub_mul, div_mul_cancel₀ _ hpos.ne']
    rw [hcancel, abs_mul, abs_of_pos hpos]
    have h := mul_le_mul_of_nonneg_right (abs_sub_roundHalfEven_le (q / ulp28 q)) hpos.le
    linarith

/-- A number that the context can represent next to `q`. -/
def OnGrid (q h : ℚ) : Prop := ∃ n : ℤ, Even n ∧ h = n * ulp28 q

theorem le_context28 {q h : ℚ} (hgrid : OnGrid q h) (hle : h ≤ q) : h ≤ context28 q := by
  by_cases hq : q = 0
  · rw [hq, context28_zero]
    exact hq ▸ hle
  · obtain ⟨n, -, rfl⟩ := hgrid
    rw [context28_of_ne hq]
    refine mul_le_mul_of_nonneg_right ?_ (ulp28_pos q).le
    exact_mod_cast le_roundHalfEven ((le_div_iff₀ (ulp28_pos q)).mpr hle)

theorem context28_le {q h : ℚ} (hgrid : OnGrid q h) (hle : q ≤ h) : context28 q ≤ h := by
  by_cases hq : q = 0
  · rw [hq, context28_zero]
    exact hq ▸ hle
  · obtain ⟨n, -, rfl⟩ := hgrid
    rw [context28_of_ne hq]
    refine mul_le_mul_of_nonneg_right ?_ (ulp28_pos q).le
    exact_mod_cast roundHalfEven_le ((div_le_iff₀ (ulp28_pos q)).mpr hle)

/-- What is at most half a step away is rounded to an even number of steps. -/
theorem context28_of_near {q h : ℚ} (hgrid : OnGrid q h) (hq : q ≠ 0)
    (hnear : |q - h| ≤ ulp28 q / 2) : context28 q = h := by
  obtain ⟨n, heven, rfl⟩ := hgrid
  have hpos := ulp28_pos q
  set y := q / ulp28 q with hy
  have hscaled : |y - n| ≤ 1 / 2 := by
    have hcancel : q - n * ulp28 q = (y - n) * ulp28 q := by
      rw [sub_mul, hy, div_mul_cancel₀ _ hpos.ne']
    rw [hcancel, abs_mul, abs_of_pos hpos] at hnear
    nlinarith
  have hround : roundHalfEven y = n := by
    apply roundHalfEven_unique
    rcases hscaled.lt_or_eq with hlt | heq
    · exact .inl hlt
    · exact .inr ⟨heq, heven⟩
  rw [context28_of_ne hq, ← hy, hround]

theorem log_le {q : ℚ} {n : ℕ} (hq : |q| < 10 ^ n) : Int.log 10 |q| ≤ n := by
  by_cases hzero : q = 0
  · simp [hzero]
  · have hlt : Int.log 10 |q| < n := by
      refine (Int.lt_zpow_iff_log_lt (by norm_num) (abs_pos.mpr hzero)).mp ?_
      exact_mod_cast hq
    omega

/-- Halves are among the numbers of the context, up to 25 digits before the point. -/
theorem onGrid_half {q : ℚ} (hq : |q| < 10 ^ 25) (k : ℤ) : OnGrid q (k + 1 / 2) := by
  have hlog : Int.log 10 |q| ≤ 25 := log_le hq
  obtain ⟨m, hm⟩ := Int.eq_ofNat_of_zero_le (sub_nonneg.mpr hlog)
  refine ⟨(2 * k + 1) * (5 * 10 ^ (m + 1)), ?_, ?_⟩
  · refine Even.mul_left ?_ _
    refine Even.mul_left ?_ _
    exact (Int.even_pow.mpr ⟨by decide, by omega⟩)
  · have hexp : Int.log 10 |q| - 27 = -((m : ℤ) + 2) := by omega
    rw [ulp28, hexp, zpow_neg]
    have hpow : (10 : ℚ) ^ ((m : ℤ) + 2) = 10 ^ (m + 2) := by exact_mod_cast rfl
    rw [hpow]
    push_cast
    field_simp
    ring

/-! ## Both roundings -/

/-- Halfway between two integers the even one wins. -/
theorem roundHalfEven_half (k : ℤ) :
    roundHalfEven (k + 1 / 2) = if Even k then k else k + 1 := by
  have hfloor : ⌊(k : ℚ) + 1 / 2⌋ = k := by
    rw [Int.floor_eq_iff]
    constructor
    · linarith
    · linarith
  have hhalf : (k : ℚ) + 1 / 2 - k = 1 / 2 := by ring
  rw [roundHalfEven, hfloor]
  simp only [hhalf, lt_irrefl, if_false, Int.even_iff]

/-- The first rounding does not end halfway between two integers on the side from which the second
one goes to the farther integer. -/
def RoundsOnce (q : ℚ) : Prop :=
  ∀ k : ℤ, q ≠ k + 1 / 2 → |q - (k + 1 / 2)| ≤ ulp28 q / 2 → (q < k + 1 / 2 ↔ Even k)

theorem ulp28_le_one {q : ℚ} (hq : |q| < 10 ^ 25) : ulp28 q ≤ 1 := by
  have hlog : Int.log 10 |q| ≤ 25 := log_le hq
  exact zpow_le_one_of_nonpos₀ (by norm_num) (by omega)

/-- No half is near zero. -/
theorem ne_zero_of_near {q : ℚ} {k : ℤ} (hnear : |q - (k + 1 / 2)| ≤ ulp28 q / 2) : q ≠ 0 := by
  rintro rfl
  have hhalf : (1 / 2 : ℚ) ≤ |(k : ℚ) + 1 / 2| := by
    rcases le_or_gt 0 k with hk | hk
    · have hk' : (0 : ℚ) ≤ k := by exact_mod_cast hk
      rw [abs_of_nonneg (by linarith)]
      linarith
    · have hk' : (k : ℚ) ≤ -1 := by exact_mod_cast Int.le_sub_one_of_lt hk
      rw [abs_of_nonpos (by linarith)]
      linarith
  rw [zero_sub, abs_neg] at hnear
  have hulp : ulp28 0 < 1 := by
    rw [ulp28]
    norm_num
  linarith

/-- What the context represents is rounded once. -/
theorem roundsOnce_of_exact {q : ℚ} (hq : |q| < 10 ^ 25) (hexact : context28 q = q) :
    RoundsOnce q := by
  intro k hne hnear
  have hhalf := context28_of_near (onGrid_half hq k) (ne_zero_of_near hnear) hnear
  exact absurd (hexact.symm.trans hhalf) hne

theorem roundsOnce_of_nearest {q : ℚ} (hq : |q| < 10 ^ 25)
    (h : |q - roundHalfEven (context28 q)| ≤ 1 / 2) : RoundsOnce q := by
  intro k hne hnear
  have hzero := ne_zero_of_near hnear
  rw [context28_of_near (onGrid_half hq k) hzero hnear, roundHalfEven_half] at h
  split_ifs at h with heven
  · refine iff_of_true ?_ heven
    have hle := (abs_le.mp h).2
    exact lt_of_le_of_ne (by linarith) hne
  · refine iff_of_false ?_ heven
    push_cast at h
    have hge := (abs_le.mp h).1
    linarith

theorem nearest_of_roundsOnce {q : ℚ} (hq : |q| < 10 ^ 25) (h : RoundsOnce q) :
    |q - roundHalfEven (context28 q)| ≤ 1 / 2 := by
  set c := context28 q with hc
  set n := roundHalfEven c with hn
  have hnear : |q - c| ≤ ulp28 q / 2 := abs_sub_context28_le q
  have hulp := ulp28_le_one hq
  have hcases : |c - n| < 1 / 2 ∨ |c - n| = 1 / 2 ∧ Even n := roundHalfEven_spec c
  rw [abs_le]
  rcases hcases with hlt | ⟨hhalf, heven⟩
  · -- the halves around `n` are not crossed
    obtain ⟨hlow, hhigh⟩ := abs_lt.mp hlt
    constructor
    · by_contra hbelow
      have hle : q ≤ ((n - 1 : ℤ) : ℚ) + 1 / 2 := by
        push_cast
        linarith
      have hcross := context28_le (onGrid_half hq (n - 1)) hle
      push_cast at hcross
      linarith
    · by_contra habove
      have hle : (n : ℚ) + 1 / 2 ≤ q := by linarith
      have hcross := le_context28 (onGrid_half hq n) hle
      linarith
  · obtain ⟨hlow, hhigh⟩ := abs_le.mp hnear
    rcases abs_eq (by norm_num : (0 : ℚ) ≤ 1 / 2) |>.mp hhalf with hup | hdown
    · have hck : c = n + 1 / 2 := by linarith
      by_cases hqc : q = n + 1 / 2
      · constructor
        · linarith
        · linarith
      · have hside := (h n hqc (by rwa [← hck])).mpr heven
        constructor
        · linarith
        · linarith
    · have hck : c = ((n - 1 : ℤ) : ℚ) + 1 / 2 := by
        push_cast
        linarith
      by_cases hqc : q = ((n - 1 : ℤ) : ℚ) + 1 / 2
      · push_cast at hqc
        constructor
        · linarith
        · linarith
      · have hodd : ¬ Even (n - 1) := by
          rw [Int.even_iff] at heven ⊢
          omega
        have hside := mt (h (n - 1) hqc (by rwa [← hck])).mp hodd
        push_cast at hside hck
        constructor
        · linarith
        · linarith

/-- The two roundings together reach the nearest integer exactly when they are as good as one. -/
theorem nearest_iff {q : ℚ} (hq : |q| < 10 ^ 25) :
    |q - roundHalfEven (context28 q)| ≤ 1 / 2 ↔ RoundsOnce q :=
  ⟨roundsOnce_of_nearest hq, nearest_of_roundsOnce hq⟩

theorem not_overflows {q : ℚ} (hq : |q| < 10 ^ 25) : overflows (context28 q) = false := by
  have hnear := abs_sub_context28_le q
  have hulp := ulp28_le_one hq
  have hbound : |context28 q| < 10 ^ 26 := by
    have htriangle : |context28 q| ≤ |q| + |q - context28 q| := by
      have hsplit : context28 q = q - (q - context28 q) := by ring
      calc |context28 q| = |q - (q - context28 q)| := by rw [← hsplit]
        _ ≤ |q| + |q - context28 q| := abs_sub _ _
    have hpow : (10 : ℚ) ^ 25 + 1 ≤ 10 ^ 26 := by norm_num
    linarith
  have hlog : Int.log 10 |context28 q| ≤ 26 := log_le hbound
  simp only [overflows, decide_eq_false_iff_not]
  omega

end Decimal
