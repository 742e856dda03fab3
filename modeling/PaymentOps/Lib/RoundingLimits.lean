import PaymentOps.Lib.Rounding

/-!
# Where rounding overflows

A number is rounded to a fixed count of significant digits.  `limit_iff` says from which number on
the result reaches a power of the base, and `binary64_eq_none_iff` and `overflows_context28_iff`
which numbers the two formats have no room for.
-/

namespace Decimal

/-- An even number of steps is reached from half a step below it. -/
theorem even_le_roundHalfEven {n : ℤ} (heven : Even n) {y : ℚ} :
    n ≤ roundHalfEven y ↔ (n : ℚ) - 1 / 2 ≤ y := by
  constructor
  · intro h
    have hnear := (abs_le.mp (abs_sub_roundHalfEven_le y)).1
    have hcast : (n : ℚ) ≤ roundHalfEven y := by exact_mod_cast h
    linarith
  · intro h
    by_cases hy : (n : ℚ) ≤ y
    · exact le_roundHalfEven hy
    · have hround : roundHalfEven y = n := by
        apply roundHalfEven_unique
        rw [abs_of_neg (by linarith)]
        rcases h.lt_or_eq with hlt | heq
        · exact .inl (by linarith)
        · exact .inr ⟨by linarith, heven⟩
      exact hround.ge

theorem abs_roundHalfEven (y : ℚ) : |(roundHalfEven y : ℚ)| = roundHalfEven |y| := by
  have hpos : ∀ x : ℚ, 0 ≤ x → (0 : ℚ) ≤ roundHalfEven x := by
    intro x hx
    exact_mod_cast le_roundHalfEven (n := 0) (by exact_mod_cast hx)
  rcases le_total 0 y with hy | hy
  · rw [abs_of_nonneg hy, abs_of_nonneg (hpos y hy)]
  · rw [abs_of_nonpos hy, roundHalfEven_neg]
    push_cast
    rw [abs_of_nonpos]
    have hneg := hpos (-y) (by linarith)
    rw [roundHalfEven_neg] at hneg
    push_cast at hneg
    linarith

/-- The distance of the numbers with `p` significant digits to the base `b` around `a`. -/
def step (b p : ℕ) (a : ℚ) : ℚ := (b : ℚ) ^ (Int.log b a - (p - 1))

section

variable {b p : ℕ} {a : ℚ}

theorem step_pos (hb : 1 < b) (a : ℚ) : 0 < step b p a :=
  zpow_pos (by exact_mod_cast Nat.zero_lt_of_lt hb) _

theorem pow_mul_step (hb : 1 < b) (k : ℕ) :
    ((b ^ k : ℕ) : ℤ) * step b p a = (b : ℚ) ^ (Int.log b a - (p - 1) + k) := by
  have hb0 : (b : ℚ) ≠ 0 := by exact_mod_cast (Nat.zero_lt_of_lt hb).ne'
  rw [step, zpow_add₀ hb0, mul_comm]
  push_cast
  rw [zpow_natCast]

/-- Rounding does not pass the next power of the base. -/
theorem rounded_le (hb : 1 < b) : (roundHalfEven (a / step b p a) : ℚ) * step b p a ≤
    (b : ℚ) ^ (Int.log b a + 1) := by
  have hstep := step_pos (p := p) hb a
  have htop : (((b ^ p : ℕ) : ℤ) : ℚ) * step b p a = (b : ℚ) ^ (Int.log b a + 1) := by
    rw [pow_mul_step hb]
    congr 1
    ring
  have hle : roundHalfEven (a / step b p a) ≤ ((b ^ p : ℕ) : ℤ) := by
    apply roundHalfEven_le
    rw [div_le_iff₀ hstep, htop]
    exact (Int.lt_zpow_succ_log_self hb a).le
  rw [← htop]
  exact mul_le_mul_of_nonneg_right (by exact_mod_cast hle) hstep.le

/-- Rounding does not pass the power of the base below. -/
theorem le_rounded (hb : 1 < b) (hp : 1 ≤ p) (ha : 0 < a) :
    (b : ℚ) ^ Int.log b a ≤ roundHalfEven (a / step b p a) * step b p a := by
  have hstep := step_pos (p := p) hb a
  have hbottom : (((b ^ (p - 1) : ℕ) : ℤ) : ℚ) * step b p a = (b : ℚ) ^ Int.log b a := by
    rw [pow_mul_step hb]
    congr 1
    push_cast [hp]
    ring
  have hge : ((b ^ (p - 1) : ℕ) : ℤ) ≤ roundHalfEven (a / step b p a) := by
    apply le_roundHalfEven
    rw [le_div_iff₀ hstep, hbottom]
    exact Int.zpow_log_le_self hb ha
  rw [← hbottom]
  exact mul_le_mul_of_nonneg_right (by exact_mod_cast hge) hstep.le

/-- Rounding reaches the next power of the base from half a step below it. -/
theorem next_le_rounded_iff (hb : 1 < b) (heven : Even b) (hp : 1 ≤ p) :
    (b : ℚ) ^ (Int.log b a + 1) ≤ roundHalfEven (a / step b p a) * step b p a ↔
      (b : ℚ) ^ (Int.log b a + 1) - step b p a / 2 ≤ a := by
  have hstep := step_pos (p := p) hb a
  have htop : (b : ℚ) ^ (Int.log b a + 1) = (((b ^ p : ℕ) : ℤ) : ℚ) * step b p a := by
    rw [pow_mul_step hb]
    congr 1
    ring
  have heven' : Even ((b ^ p : ℕ) : ℤ) := by
    exact_mod_cast Nat.even_pow.mpr ⟨heven, by omega⟩
  have hround := even_le_roundHalfEven heven' (y := a / step b p a)
  rw [le_div_iff₀ hstep, ← Int.cast_le (R := ℚ)] at hround
  rw [htop, mul_le_mul_iff_left₀ hstep, hround]
  constructor
  · intro h
    linarith
  · intro h
    linarith

/-- Rounding to `p` significant digits reaches a power of the base from half a step below it. -/
theorem limit_iff (hb : 1 < b) (heven : Even b) (hp : 1 ≤ p) (ha : 0 < a) (e : ℤ) :
    (b : ℚ) ^ e ≤ roundHalfEven (a / step b p a) * step b p a ↔
      (b : ℚ) ^ e - (b : ℚ) ^ (e - p) / 2 ≤ a := by
  have hb1 : (1 : ℚ) < b := by exact_mod_cast hb
  have hb0 : (b : ℚ) ≠ 0 := by linarith
  have hpos : ∀ k : ℤ, 0 < (b : ℚ) ^ k := fun k => zpow_pos (by linarith) k
  have hmono : ∀ {k l : ℤ}, k ≤ l → (b : ℚ) ^ k ≤ (b : ℚ) ^ l := fun h =>
    zpow_le_zpow_right₀ hb1.le h
  rcases lt_trichotomy (Int.log b a) (e - 1) with hlog | hlog | hlog
  · -- the number is too small
    have hround := rounded_le (p := p) (a := a) hb
    have hhigh : a < (b : ℚ) ^ (Int.log b a + 1) := Int.lt_zpow_succ_log_self hb a
    have hbelow : (b : ℚ) ^ (Int.log b a + 1) ≤ (b : ℚ) ^ (e - 1) := hmono (by omega)
    have hsmall : (b : ℚ) ^ (e - p) ≤ (b : ℚ) ^ (e - 1) := hmono (by omega)
    have htwo : 2 * (b : ℚ) ^ (e - 1) ≤ (b : ℚ) ^ e := by
      have hsplit : (b : ℚ) ^ e = b * (b : ℚ) ^ (e - 1) := by
        rw [← zpow_one_add₀ hb0]
        congr 1
        ring
      have hb2 : (2 : ℚ) ≤ b := by exact_mod_cast hb
      rw [hsplit]
      exact mul_le_mul_of_nonneg_right hb2 (hpos _).le
    have hx := hpos (e - 1)
    constructor
    · intro h
      linarith
    · intro h
      linarith
  · -- the power is the next one
    obtain rfl : e = Int.log b a + 1 := by omega
    have hgrid : (b : ℚ) ^ (Int.log b a + 1 - p) = step b p a := by
      rw [step]
      congr 1
      ring
    rw [hgrid]
    exact next_le_rounded_iff hb heven hp
  · -- the power is passed already
    have hround := le_rounded (p := p) hb hp ha
    have hlow : (b : ℚ) ^ Int.log b a ≤ a := Int.zpow_log_le_self hb ha
    have hle : (b : ℚ) ^ e ≤ (b : ℚ) ^ Int.log b a := hmono (by omega)
    have hhalf := hpos (e - p)
    constructor
    · intro _
      linarith
    · intro _
      linarith

end

/-! ## The two formats -/

/-- The first number that rounds past the largest exponent of the default decimal context. -/
def contextLimit : ℚ := 10 ^ (1000000 : ℤ) - 10 ^ (999972 : ℤ) / 2

/-- The first number that rounds to an infinity. -/
def binary64Limit : ℚ := 2 ^ (1024 : ℤ) - 2 ^ (971 : ℤ) / 2

theorem zpow_sub_half_pos {b : ℕ} (hb : 1 < b) {e k : ℤ} (h : k ≤ e) :
    0 < (b : ℚ) ^ e - (b : ℚ) ^ k / 2 := by
  have hb1 : (1 : ℚ) < b := by exact_mod_cast hb
  have hpos : 0 < (b : ℚ) ^ k := zpow_pos (by linarith) k
  have hle := zpow_le_zpow_right₀ hb1.le h
  linarith

theorem contextLimit_pos : 0 < contextLimit :=
  zpow_sub_half_pos (b := 10) (by decide) (by omega)

theorem binary64Limit_pos : 0 < binary64Limit :=
  zpow_sub_half_pos (b := 2) (by decide) (by omega)

theorem abs_context28 {q : ℚ} (hq : q ≠ 0) :
    |context28 q| = roundHalfEven (|q| / step 10 28 |q|) * step 10 28 |q| := by
  have hpos := ulp28_pos q
  have hulp : step 10 28 |q| = ulp28 q := by
    rw [step, ulp28]
    norm_num
  rw [context28_of_ne hq, abs_mul, abs_roundHalfEven, abs_div, abs_of_pos hpos, hulp]

theorem overflows_context28_iff (q : ℚ) : overflows (context28 q) ↔ contextLimit ≤ |q| := by
  by_cases hq : q = 0
  · rw [hq, context28_zero, abs_zero]
    refine iff_of_false ?_ (not_le.mpr contextLimit_pos)
    simp [overflows]
  · have hiff := limit_iff (b := 10) (p := 28) (by decide) (by decide) (by decide)
      (abs_pos.mpr hq) 1000000
    rw [← abs_context28 hq] at hiff
    refine Iff.trans ?_ hiff
    rw [overflows, decide_eq_true_eq]
    by_cases hc : context28 q = 0
    · rw [hc, abs_zero, Int.log_zero_right]
      exact iff_of_false (by decide) (not_le.mpr (zpow_pos (by norm_num) _))
    · rw [Int.zpow_le_iff_le_log (by decide) (abs_pos.mpr hc)]
      omega

/-- The distance of the doubles around a number. -/
def ulp64 (a : ℚ) : ℚ := 2 ^ max (Int.log 2 a - 52) (-1074)

/-- Among the normal doubles the distance follows from the count of digits. -/
theorem ulp64_eq_step {a : ℚ} (h : -1022 ≤ Int.log 2 a) : ulp64 a = step 2 53 a := by
  rw [ulp64, step, max_eq_left (by omega)]
  norm_num

theorem lt_one_of_log {a : ℚ} (h : Int.log 2 a < -1022) : a < 1 := by
  refine (Int.lt_zpow_succ_log_self (b := 2) (by decide) a).trans_le ?_
  exact zpow_le_one_of_nonpos₀ (by norm_num) (by omega)

/-- A subnormal number stays far below the limit. -/
theorem subnormal_lt {a : ℚ} (h : Int.log 2 a < -1022) :
    (roundHalfEven (a / ulp64 a) : ℚ) * ulp64 a < 2 ^ (1024 : ℤ) := by
  have hpos : 0 < ulp64 a := zpow_pos (by norm_num) _
  have hone : ulp64 a ≤ 1 := zpow_le_one_of_nonpos₀ (by norm_num) (by omega)
  have hlt := lt_one_of_log h
  have hround : (roundHalfEven (a / ulp64 a) : ℚ) ≤ a / ulp64 a + 1 / 2 := by
    have hnear := (abs_le.mp (abs_sub_roundHalfEven_le (a / ulp64 a))).1
    linarith
  calc (roundHalfEven (a / ulp64 a) : ℚ) * ulp64 a
      ≤ (a / ulp64 a + 1 / 2) * ulp64 a := mul_le_mul_of_nonneg_right hround hpos.le
    _ = a + ulp64 a / 2 := by
        rw [add_mul, div_mul_cancel₀ _ hpos.ne']
        ring
    _ < 2 ^ (1 : ℤ) := by
        rw [zpow_one]
        linarith
    _ ≤ 2 ^ (1024 : ℤ) := zpow_le_zpow_right₀ (by norm_num) (by omega)

theorem binary64_eq_none_iff (q : ℚ) : binary64 q = none ↔ binary64Limit ≤ |q| := by
  by_cases hq : q = 0
  · rw [hq, abs_zero]
    exact iff_of_false (by simp [binary64]) (not_le.mpr binary64Limit_pos)
  · have ha := abs_pos.mpr hq
    have hpos : 0 < ulp64 |q| := zpow_pos (by norm_num) _
    have habs : abs ((roundHalfEven (q / ulp64 |q|) : ℚ) * ulp64 |q|) =
        roundHalfEven (|q| / ulp64 |q|) * ulp64 |q| := by
      rw [abs_mul, abs_roundHalfEven, abs_div, abs_of_pos hpos]
    have hnone : binary64 q = none ↔
        (2 : ℚ) ^ (1024 : ℤ) ≤ roundHalfEven (|q| / ulp64 |q|) * ulp64 |q| := by
      rw [← habs, binary64, if_neg hq]
      dsimp only
      rw [← ulp64]
      split_ifs with h
      · exact iff_of_true rfl h
      · exact iff_of_false nofun h
    rw [hnone]
    by_cases hlog : -1022 ≤ Int.log 2 |q|
    · rw [ulp64_eq_step hlog]
      exact limit_iff (b := 2) (p := 53) (by decide) (by decide) (by decide) ha 1024
    · refine iff_of_false (not_le.mpr (subnormal_lt (by omega))) (not_le.mpr ?_)
      refine (lt_one_of_log (by omega)).trans_le ?_
      have htop : (2 : ℚ) ^ (1 : ℤ) ≤ 2 ^ (1024 : ℤ) :=
        zpow_le_zpow_right₀ (by norm_num) (by omega)
      have hhalf : (2 : ℚ) ^ (971 : ℤ) ≤ 2 ^ (1024 : ℤ) :=
        zpow_le_zpow_right₀ (by norm_num) (by omega)
      rw [zpow_one] at htop
      rw [binary64Limit]
      generalize (2 : ℚ) ^ (1024 : ℤ) = x at htop hhalf ⊢
      generalize (2 : ℚ) ^ (971 : ℤ) = y at hhalf ⊢
      linarith

end Decimal
