import PaymentOps.Lib.RoundingLimits

/-!
# Where rounding passes a bound

Rounding keeps the order of numbers, so the numbers that a rounding takes past a bound are
themselves those past a bound.  A `Cut` is such a bound, which may belong to the numbers past it.

* `past_nearest`: the cut for rounding to an integer, ties to even;
* `Format.past_pull`: the cut for rounding to a number format, found without rounding the number
  that is asked about;
* `double`, `decimal28`: the two formats.
-/

namespace Decimal

/-- A bound, which may belong to the numbers past it. -/
structure Cut where
  bound : ℚ
  closed : Bool
  deriving DecidableEq

namespace Cut

variable {c : Cut} {q r u : ℚ} {n : ℤ}

/-- The number lies past the cut. -/
def Past (c : Cut) (q : ℚ) : Prop := c.bound < q ∨ c.closed ∧ c.bound = q

instance (c : Cut) (q : ℚ) : Decidable (c.Past q) :=
  inferInstanceAs (Decidable (_ ∨ _ ∧ _))

theorem past_closed (hc : c.closed) : c.Past q ↔ c.bound ≤ q := by
  rw [Past, le_iff_lt_or_eq]
  simp [hc]

theorem past_open (hc : c.closed = false) : c.Past q ↔ c.bound < q := by
  simp [Past, hc]

theorem Past.bound_le (h : c.Past q) : c.bound ≤ q := by
  rcases h with h | ⟨-, h⟩
  · exact h.le
  · exact h.le

theorem Past.mono (h : c.Past q) (hqr : q ≤ r) : c.Past r := by
  rcases h with h | ⟨hc, h⟩
  · exact .inl (h.trans_le hqr)
  · exact (past_closed hc).mpr (h.trans_le hqr)

/-- The cut between the numbers that are stretched by a factor. -/
def scale (u : ℚ) (c : Cut) : Cut where
  bound := c.bound * u
  closed := c.closed

theorem past_scale (hu : 0 < u) : (c.scale u).Past (q * u) ↔ c.Past q := by
  simp [Past, scale, mul_lt_mul_iff_left₀ hu, hu.ne']

theorem past_scale_inv (hu : 0 < u) : (c.scale u⁻¹).Past q ↔ c.Past (q * u) := by
  have h := past_scale (c := c) (q := q * u) (inv_pos.mpr hu)
  rwa [mul_inv_cancel_right₀ hu.ne'] at h

/-! ## Integers -/

/-- The least integer past the cut. -/
def least (c : Cut) : ℤ := if c.closed then ⌈c.bound⌉ else ⌊c.bound⌋ + 1

theorem least_le_iff : c.least ≤ n ↔ c.Past n := by
  unfold least
  split_ifs with hc
  · rw [past_closed hc, Int.ceil_le]
  · rw [past_open (by simpa using hc), Int.add_one_le_iff, Int.floor_lt]

/-- The cut between the numbers that are rounded to an integer: half a unit below the least integer,
and there itself when that one is even. -/
def nearest (c : Cut) : Cut where
  bound := c.least - 1 / 2
  closed := c.least % 2 = 0

theorem past_nearest : c.nearest.Past q ↔ c.Past (roundHalfEven q) := by
  rw [← least_le_iff]
  by_cases heven : Even c.least
  · rw [past_closed (by simpa [nearest] using Int.even_iff.mp heven), even_le_roundHalfEven heven]
    rfl
  · rw [past_open (by simpa [nearest, Int.even_iff] using heven)]
    change (c.least : ℚ) - 1 / 2 < q ↔ _
    constructor
    · intro h
      have hnear := (abs_le.mp (abs_sub_roundHalfEven_le q)).2
      have hlt : ((c.least - 1 : ℤ) : ℚ) < roundHalfEven q := by
        push_cast
        linarith
      exact Int.sub_one_lt_iff.mp (by exact_mod_cast hlt)
    · intro h
      have hcast : (c.least : ℚ) ≤ roundHalfEven q := by exact_mod_cast h
      have hnear := (abs_le.mp (abs_sub_roundHalfEven_le q)).1
      refine lt_of_le_of_ne (by linarith) ?_
      rintro rfl
      -- the half goes to the even integer below
      have hhalf := roundHalfEven_half (c.least - 1)
      rw [if_pos ((Int.not_even_iff_odd.mp heven).sub_odd odd_one)] at hhalf
      have hbelow : roundHalfEven ((c.least : ℚ) - 1 / 2) = c.least - 1 := by
        rw [← hhalf]
        congr 1
        push_cast
        ring
      omega

/-! ## Powers of the base -/

/-- The exponent of the last power of the base that is not past the cut. -/
def binade (b : ℕ) (c : Cut) : ℤ :=
  if c.closed then Int.clog b c.bound - 1 else Int.log b c.bound

theorem binade_spec {b : ℕ} (hb : 1 < b) (hpos : 0 < c.bound) :
    ¬ c.Past ((b : ℚ) ^ c.binade b) ∧ c.Past ((b : ℚ) ^ (c.binade b + 1)) := by
  unfold binade
  split_ifs with hc
  · rw [past_closed hc, past_closed hc, not_le, sub_add_cancel]
    exact ⟨Int.zpow_pred_clog_lt_self hb hpos, Int.self_le_zpow_clog hb _⟩
  · have hopen : c.closed = false := by simpa using hc
    rw [past_open hopen, past_open hopen, not_lt]
    exact ⟨Int.zpow_log_le_self hb hpos, Int.lt_zpow_succ_log_self hb _⟩

/-- A power that is not past the cut is not past the last of these. -/
theorem le_binade {b : ℕ} (hb : 1 < b) (hpos : 0 < c.bound) {e : ℤ}
    (h : ¬ c.Past ((b : ℚ) ^ e)) : e ≤ c.binade b := by
  by_contra hlt
  have hb1 : (1 : ℚ) ≤ b := by exact_mod_cast hb.le
  exact h ((binade_spec hb hpos).2.mono (zpow_le_zpow_right₀ hb1 (by omega)))

end Cut

/-! ## Number formats -/

/-- A format in which the distance of neighbours follows from the exponent of the leading digit. -/
structure Format where
  base : ℕ
  exponent : ℤ → ℤ
  one_lt_base : 1 < base
  mono : ∀ {m n : ℤ}, m ≤ n → exponent m ≤ exponent n

namespace Format

variable {f : Format} {c : Cut} {q : ℚ} {e n : ℤ}

/-- The distance of the numbers of the format whose leading digit has the given exponent. -/
def step (f : Format) (e : ℤ) : ℚ := (f.base : ℚ) ^ f.exponent e

/-- The nearest number of the format, the even one of two. -/
def round (f : Format) (q : ℚ) : ℚ :=
  roundHalfEven (q / f.step (Int.log f.base |q|)) * f.step (Int.log f.base |q|)

theorem base_pos (f : Format) : (0 : ℚ) < f.base := by
  exact_mod_cast Nat.zero_lt_of_lt f.one_lt_base

theorem one_le_base (f : Format) : (1 : ℚ) ≤ f.base := by
  exact_mod_cast f.one_lt_base.le

theorem step_pos (f : Format) (e : ℤ) : 0 < f.step e := zpow_pos f.base_pos _

@[simp] theorem round_zero (f : Format) : f.round 0 = 0 := by
  have hzero : roundHalfEven 0 = 0 := by decide +kernel
  simp [round, hzero]

theorem round_neg (f : Format) (q : ℚ) : f.round (-q) = -f.round q := by
  rw [round, abs_neg, neg_div, roundHalfEven_neg]
  push_cast
  rw [neg_mul, ← round]

/-- A power of the base is a number of steps, unless it is below one step. -/
theorem exists_zpow_eq (h : f.exponent e ≤ n) : ∃ m : ℤ, (f.base : ℚ) ^ n = m * f.step e := by
  obtain ⟨k, hk⟩ := Int.eq_ofNat_of_zero_le (sub_nonneg.mpr h)
  refine ⟨(f.base : ℤ) ^ k, ?_⟩
  obtain rfl : n = k + f.exponent e := by omega
  rw [step, zpow_add₀ f.base_pos.ne', zpow_natCast]
  push_cast
  rfl

/-- Rounding does not pass a power of the base from below. -/
theorem round_le_zpow (hexp : f.exponent (Int.log f.base |q|) ≤ e) (h : q ≤ (f.base : ℚ) ^ e) :
    f.round q ≤ (f.base : ℚ) ^ e := by
  have hstep := f.step_pos (Int.log f.base |q|)
  obtain ⟨m, hm⟩ := exists_zpow_eq hexp
  rw [hm] at h ⊢
  refine mul_le_mul_of_nonneg_right ?_ hstep.le
  exact_mod_cast roundHalfEven_le ((div_le_iff₀ hstep).mpr h)

/-- Rounding does not pass a power of the base from above. -/
theorem zpow_le_round (hnormal : ∀ n, e ≤ n → f.exponent n ≤ n) (h : (f.base : ℚ) ^ e ≤ q) :
    (f.base : ℚ) ^ e ≤ f.round q := by
  have hpos : 0 < q := (zpow_pos f.base_pos e).trans_le h
  have habs : |q| = q := abs_of_pos hpos
  have hlog : e ≤ Int.log f.base q := (Int.zpow_le_iff_le_log f.one_lt_base hpos).mp h
  obtain ⟨m, hm⟩ := exists_zpow_eq (hnormal _ hlog)
  have hstep := f.step_pos (Int.log f.base q)
  have hself : (f.base : ℚ) ^ Int.log f.base q ≤ q := Int.zpow_log_le_self f.one_lt_base hpos
  refine (zpow_le_zpow_right₀ f.one_le_base hlog).trans ?_
  rw [round, habs]
  rw [hm] at hself ⊢
  refine mul_le_mul_of_nonneg_right ?_ hstep.le
  exact_mod_cast le_roundHalfEven ((le_div_iff₀ hstep).mpr hself)

theorem abs_round (f : Format) (q : ℚ) : |f.round q| = f.round |q| := by
  have hstep := f.step_pos (Int.log f.base |q|)
  rw [round, round, abs_abs, abs_mul, abs_of_pos hstep, abs_roundHalfEven, abs_div,
    abs_of_pos hstep]

theorem round_nonneg (f : Format) (hq : 0 ≤ q) : 0 ≤ f.round q := by
  rw [← abs_of_nonneg hq, ← abs_round]
  exact abs_nonneg _

theorem abs_sub_round_le (f : Format) (q : ℚ) :
    |q - f.round q| ≤ f.step (Int.log f.base |q|) / 2 := by
  have hstep := f.step_pos (Int.log f.base |q|)
  have hscale : q - f.round q = (q / f.step (Int.log f.base |q|) -
      roundHalfEven (q / f.step (Int.log f.base |q|))) * f.step (Int.log f.base |q|) := by
    rw [sub_mul, div_mul_cancel₀ _ hstep.ne', round]
  rw [hscale, abs_mul, abs_of_pos hstep]
  have h := mul_le_mul_of_nonneg_right
    (abs_sub_roundHalfEven_le (q / f.step (Int.log f.base |q|))) hstep.le
  linarith

/-- The cut between the numbers that are rounded to the format. -/
def pull (f : Format) (c : Cut) : Cut :=
  let u := f.step (c.binade f.base)
  (c.scale u⁻¹).nearest.scale u

theorem past_pull_step : (f.pull c).Past q ↔
    c.Past (roundHalfEven (q / f.step (c.binade f.base)) * f.step (c.binade f.base)) := by
  have hstep := f.step_pos (c.binade f.base)
  have hq : q = q / f.step (c.binade f.base) * f.step (c.binade f.base) := by
    rw [div_mul_cancel₀ _ hstep.ne']
  conv_lhs => rw [hq]
  rw [pull, Cut.past_scale hstep, Cut.past_nearest, Cut.past_scale_inv hstep]

/-- The cut between the numbers that are rounded lies above the last power of the base that is not
past the cut. -/
theorem zpow_binade_lt (hpos : 0 < c.bound)
    (hnormal : f.exponent (c.binade f.base) ≤ c.binade f.base) :
    (f.base : ℚ) ^ c.binade f.base < (f.pull c).bound := by
  have hstep := f.step_pos (c.binade f.base)
  obtain ⟨m, hm⟩ := exists_zpow_eq hnormal
  have hbefore := (Cut.binade_spec f.one_lt_base hpos).1
  rw [hm, ← Cut.past_scale_inv hstep, ← Cut.least_le_iff, not_le] at hbefore
  have hle : (m : ℚ) + 1 ≤ ((c.scale (f.step (c.binade f.base))⁻¹).least : ℚ) := by
    exact_mod_cast hbefore
  rw [hm]
  refine mul_lt_mul_of_pos_right ?_ hstep
  change (m : ℚ) < ((c.scale (f.step (c.binade f.base))⁻¹).least : ℚ) - 1 / 2
  linarith

/-- A number is rounded past a cut exactly when it is past the cut that is pulled back. -/
theorem past_pull (hpos : 0 < c.bound)
    (hnormal : ∀ e, c.binade f.base ≤ e → f.exponent e ≤ e) (hq : 0 ≤ q) :
    (f.pull c).Past q ↔ c.Past (f.round q) := by
  obtain ⟨hbefore, hpast⟩ := Cut.binade_spec f.one_lt_base hpos
  set e := c.binade f.base with he
  have hlow := zpow_binade_lt hpos (hnormal e le_rfl)
  rcases hq.eq_or_lt with rfl | hq
  · have hbound := (zpow_pos f.base_pos e).trans hlow
    rw [round_zero]
    refine iff_of_false (fun h => ?_) fun h => ?_
    · exact absurd h.bound_le (not_le.mpr hbound)
    · exact absurd h.bound_le (not_le.mpr hpos)
  have habs : |q| = q := abs_of_pos hq
  rcases lt_trichotomy (Int.log f.base q) e with hlog | hlog | hlog
  · -- the number is below the power, and so is what it is rounded to
    have hbelow : q < (f.base : ℚ) ^ e := (Int.lt_zpow_iff_log_lt f.one_lt_base hq).mpr hlog
    refine iff_of_false (fun h => ?_) fun h => ?_
    · exact absurd (h.bound_le.trans_lt hbelow) (not_lt.mpr hlow.le)
    · refine hbefore (h.mono (round_le_zpow ?_ hbelow.le))
      rw [habs]
      exact (f.mono hlog.le).trans (hnormal e le_rfl)
  · rw [past_pull_step, ← he, ← hlog, round, habs]
  · -- the number reaches the next power, and so does what it is rounded to
    have hnext : (f.base : ℚ) ^ (e + 1) ≤ q :=
      (Int.zpow_le_iff_le_log f.one_lt_base hq).mpr hlog
    have hround := zpow_le_round (fun n hn => hnormal n (by omega)) hnext
    refine iff_of_true (Cut.Past.mono ?_ hnext) (hpast.mono hround)
    obtain ⟨m, hm⟩ := exists_zpow_eq ((hnormal e le_rfl).trans (Int.le_add_one le_rfl))
    have hself : roundHalfEven m = m :=
      le_antisymm (roundHalfEven_le le_rfl) (le_roundHalfEven le_rfl)
    rwa [past_pull_step, ← he, hm, mul_div_cancel_right₀ _ (f.step_pos e).ne', hself, ← hm]

end Format

/-! ## The two formats -/

/-- The doubles, without a largest one. -/
def double : Format where
  base := 2
  exponent e := max (e - 52) (-1074)
  one_lt_base := by decide
  mono h := max_le_max (by omega) le_rfl

/-- The decimals of 28 significant digits. -/
def decimal28 : Format where
  base := 10
  exponent e := e - 27
  one_lt_base := by decide
  mono h := by omega

/-- A normal double is exact to 53 digits. -/
theorem abs_sub_double_le {q : ℚ} (hq : (2 : ℚ) ^ (-1022 : ℤ) ≤ q) :
    |q - double.round q| ≤ q / 2 ^ 53 := by
  have hpos : 0 < q := (zpow_pos (by norm_num) _).trans_le hq
  have hlog : -1022 ≤ Int.log 2 q := by
    apply (Int.zpow_le_iff_le_log (by decide) hpos).mp
    exact_mod_cast hq
  have hstep : double.step (Int.log 2 q) = 2 ^ Int.log 2 q / 2 ^ 52 := by
    have hexp : double.exponent (Int.log 2 q) = Int.log 2 q - 52 := max_eq_left (by omega)
    rw [Format.step, hexp, zpow_sub₀ double.base_pos.ne']
    norm_num [double]
  have hself : (2 : ℚ) ^ Int.log 2 q ≤ q := by exact_mod_cast Int.zpow_log_le_self (by decide) hpos
  have hnear := double.abs_sub_round_le q
  rw [abs_of_pos hpos] at hnear
  change _ ≤ double.step (Int.log 2 q) / 2 at hnear
  rw [hstep] at hnear
  linarith

theorem binary64_eq (q : ℚ) :
    binary64 q = if (2 : ℚ) ^ 1024 ≤ |double.round q| then none else some (double.round q) := by
  by_cases hq : q = 0
  · subst hq
    simp [binary64]
  · rw [binary64, if_neg hq]
    rfl

theorem context28_eq (q : ℚ) : context28 q = decimal28.round q := by
  by_cases hq : q = 0
  · rw [hq, context28_zero, Format.round_zero]
  · rw [context28_of_ne hq]
    rfl

end Decimal
