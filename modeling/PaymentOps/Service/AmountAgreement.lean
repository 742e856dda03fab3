import PaymentOps.Lib.Cuts
import PaymentOps.Service.StoredAmounts

/-!
# Two conversions of an amount

The amount of a payment is converted with doubles, the amount of an account entry with decimals.
Each conversion is a staircase, so the two agree on an amount that no step of one separates from
the same step of the other.

* `floatCut`, `decimalCut`: where a conversion passes a cut of the minor units;
* `amountsAgree_iff`: the amounts on which the two agree;
* `agree_of_cents`: whole cents, up to 2^50 of them, are among these.
-/

namespace PaymentOps.AmountAgreement

open Text Iso Decimal

/-! ## The cuts of the conversions -/

/-- The amounts that end past a cut of the minor units once they are read as a double, multiplied by
100 and rounded to a double again. -/
def floatCut (c : Cut) : Cut := double.pull ((double.pull c).scale 100⁻¹)

/-- The amounts that end past a cut of the minor units once they are multiplied by 100 and rounded
to a decimal. -/
def decimalCut (c : Cut) : Cut := (decimal28.pull c).scale 100⁻¹

/-- Half a minor unit below `k + 1`, from where `k + 1` or more minor units are reached. -/
def halfCut (k : ℕ) : Cut := (Cut.mk (k + 1) true).nearest

/-- From here on there is no double. -/
def overflowCut : Cut where
  bound := 2 ^ 1024
  closed := true

/-- The amount is a double even after it is multiplied, and no step of one conversion separates it
from the same step of the other. -/
structure Agree (value : ℚ) : Prop where
  finite : ¬ (floatCut overflowCut).Past |value|
  steps : ∀ k : ℕ, (floatCut (halfCut k)).Past |value| ↔ (decimalCut (halfCut k)).Past |value|

/-! ## Past the cuts -/

section

variable {c : Cut} {a : ℚ}

/-- A cut that one half is not past is among the normal doubles, also after it is divided by 100. -/
theorem exponent_le {e : ℤ} (he : -8 ≤ e) : double.exponent e ≤ e := by
  change max (e - 52) (-1074) ≤ e
  omega

theorem past_floatCut (hc : ¬ c.Past (1 / 2)) (ha : 0 ≤ a) :
    (floatCut c).Past a ↔ c.Past (double.round (double.round a * 100)) := by
  have hpos : 0 < c.bound := by
    by_contra hle
    exact hc (.inl (by linarith))
  have hhalf : ¬ c.Past ((double.base : ℚ) ^ (-1 : ℤ)) := by
    convert hc using 2
    norm_num [double]
  have hbinade := Cut.le_binade double.one_lt_base hpos hhalf
  have hnormal : ∀ e, c.binade double.base ≤ e → double.exponent e ≤ e := fun e he =>
    exponent_le (by omega)
  -- the second cut lies above the 256th part of one
  have hlow : 1 / 2 < (double.pull c).bound := by
    refine lt_of_le_of_lt ?_ (Format.zpow_binade_lt hpos (hnormal _ le_rfl))
    refine le_trans ?_ (zpow_le_zpow_right₀ double.one_le_base hbinade)
    norm_num [double]
  have hbound : ((double.pull c).scale 100⁻¹).bound = (double.pull c).bound / 100 := by
    rw [div_eq_mul_inv]
    rfl
  have hpos' : 0 < ((double.pull c).scale 100⁻¹).bound := by
    rw [hbound]
    linarith
  have hsmall : ¬ ((double.pull c).scale 100⁻¹).Past ((double.base : ℚ) ^ (-8 : ℤ)) := by
    intro h
    have hpow : (double.base : ℚ) ^ (-8 : ℤ) = 1 / 256 := by norm_num [double]
    have hle := h.bound_le
    rw [hbound, hpow] at hle
    linarith
  have hbinade' := Cut.le_binade double.one_lt_base hpos' hsmall
  have hround := double.round_nonneg ha
  rw [floatCut, Format.past_pull hpos' (fun e he => exponent_le (by omega)) ha,
    Cut.past_scale_inv (by norm_num), Format.past_pull hpos hnormal (by linarith)]

theorem past_decimalCut (hpos : 0 < c.bound) (ha : 0 ≤ a) :
    (decimalCut c).Past a ↔ c.Past (context28 (a * 100)) := by
  have hnormal : ∀ e, c.binade decimal28.base ≤ e → decimal28.exponent e ≤ e := by
    intro e _
    change e - 27 ≤ e
    omega
  rw [decimalCut, Cut.past_scale_inv (by norm_num), Format.past_pull hpos hnormal (by linarith),
    context28_eq]

theorem not_past_halfCut (k : ℕ) : ¬ (halfCut k).Past (1 / 2) := by
  have hhalf : roundHalfEven (1 / 2) = 0 := by decide +kernel
  rw [halfCut, Cut.past_nearest, hhalf, Cut.past_closed rfl]
  push_cast
  linarith [show (0 : ℚ) ≤ k from Nat.cast_nonneg k]

theorem halfCut_pos (k : ℕ) : 0 < (halfCut k).bound := by
  have h := not_past_halfCut k
  by_contra hle
  exact h (.inl (by linarith))

theorem past_halfCut {k : ℕ} {q : ℚ} : (halfCut k).Past q ↔ (k : ℤ) < roundHalfEven q := by
  rw [halfCut, Cut.past_nearest, Cut.past_closed rfl, ← Int.add_one_le_iff, ← Int.cast_le (R := ℚ)]
  push_cast
  rfl

end

/-! ## The conversions -/

/-- The double that is rounded to minor units. -/
def product (value : ℚ) : ℚ := double.round (double.round value * 100)

theorem abs_product (value : ℚ) : |product value| = product |value| := by
  have hscale : |(100 : ℚ)| = 100 := abs_of_pos (by norm_num)
  rw [product, Format.abs_round, abs_mul, Format.abs_round, hscale, product]

theorem two_pow_eq : (2 : ℚ) ^ 1024 = (double.base : ℚ) ^ (1024 : ℤ) := by
  rw [← zpow_natCast]
  rfl

/-- What is no double before the multiplication is none after it. -/
theorem le_product {value : ℚ} (h : (2 : ℚ) ^ 1024 ≤ |double.round value|) :
    (2 : ℚ) ^ 1024 ≤ |product value| := by
  have hscale : |(100 : ℚ)| = 100 := abs_of_pos (by norm_num)
  rw [product, Format.abs_round, abs_mul, hscale]
  have hle : (2 : ℚ) ^ 1024 ≤ |double.round value| * 100 :=
    h.trans (le_mul_of_one_le_right (abs_nonneg _) (by norm_num))
  rw [two_pow_eq] at hle ⊢
  exact Format.zpow_le_round (fun n hn => exponent_le (by omega)) hle

/-- The minor units of a payment. -/
theorem floatMinor_of_decimal (u : Unicode) {s : String} (h : Xsd.decimal s) :
    Pacs008.floatMinor u (strip s) =
      if 2 ^ 1024 ≤ |product (Xsd.decimalValue s)| then
        .error (.overflowError "cannot convert float infinity to integer")
      else .ok (roundHalfEven (product (Xsd.decimalValue s))) := by
  rw [Pacs008.floatMinor, Xsd.ofFloatText_strip u h]
  dsimp only
  rw [binary64_eq]
  by_cases hfirst : (2 : ℚ) ^ 1024 ≤ |double.round (Xsd.decimalValue s)|
  · rw [if_pos hfirst, if_pos (le_product hfirst)]
    rfl
  · rw [if_neg hfirst, Option.bind_some, binary64_eq, ← product]
    split_ifs
    · rfl
    · rfl

theorem lt_contextLimit {a : ℚ} (h : a < 10 ^ (999999 : ℤ)) : a < contextLimit := by
  have hhalf : (10 : ℚ) ^ (999972 : ℤ) ≤ 10 ^ (999999 : ℤ) :=
    zpow_le_zpow_right₀ (by norm_num) (by omega)
  have hsplit : (10 : ℚ) ^ (1000000 : ℤ) = 10 * 10 ^ (999999 : ℤ) :=
    zpow_one_add₀ (by norm_num) 999999
  have hpos : (0 : ℚ) < 10 ^ (999999 : ℤ) := zpow_pos (by norm_num) _
  rw [contextLimit, hsplit]
  clear hsplit
  generalize (10 : ℚ) ^ (999999 : ℤ) = x at *
  generalize (10 : ℚ) ^ (999972 : ℤ) = y at *
  linarith

/-- A double is small for the decimals of the context. -/
theorem not_overflows_of_double {value : ℚ} (h : ¬ (2 : ℚ) ^ 1024 ≤ |product value|) :
    overflows (context28 (value * 100)) = false := by
  have hfinite : |value| < binary64Limit := by
    rw [← not_le, ← binary64_eq_none_iff, binary64_eq, if_neg (mt le_product h)]
    exact nofun
  have hlimit : binary64Limit ≤ (2 : ℚ) ^ (1024 : ℤ) :=
    sub_le_self _ (half_pos (zpow_pos (by norm_num) _)).le
  have hten : (2 : ℚ) ^ (1024 : ℤ) ≤ 10 ^ (1024 : ℤ) := by
    rw [zpow_ofNat, zpow_ofNat]
    exact pow_le_pow_left₀ (by norm_num) (by norm_num) 1024
  have hscale : (10 : ℚ) ^ (1026 : ℤ) = 10 ^ (1024 : ℤ) * 100 := by
    rw [show (1026 : ℤ) = 1024 + 2 from rfl, zpow_add₀ (by norm_num)]
    norm_num
  have hvalue : |value * 100| < 10 ^ (1026 : ℤ) := by
    rw [hscale, abs_mul, abs_of_pos (by norm_num : (0 : ℚ) < 100)]
    exact mul_lt_mul_of_pos_right (hfinite.trans_le (hlimit.trans hten)) (by norm_num)
  rw [← Bool.not_eq_true, overflows_context28_iff, not_le]
  exact lt_contextLimit (hvalue.trans_le (zpow_le_zpow_right₀ (by norm_num) (by omega)))

/-! ## Agreement -/

/-- Whole numbers that are not negative are the same when they are past the same numbers. -/
theorem eq_iff_forall_lt {m n : ℤ} (hm : 0 ≤ m) (hn : 0 ≤ n) :
    m = n ↔ ∀ k : ℕ, (k : ℤ) < m ↔ (k : ℤ) < n := by
  constructor
  · rintro rfl k
    rfl
  · intro h
    have hmn := h m.toNat
    have hnm := h n.toNat
    omega

/-- Both conversions keep the sign, so that the size of the amount decides. -/
theorem rounded_eq_iff (value : ℚ) :
    roundHalfEven (product value) = roundHalfEven (context28 (value * 100)) ↔
      roundHalfEven (product |value|) = roundHalfEven (context28 (|value| * 100)) := by
  rcases abs_choice value with h | h
  · rw [h]
  · rw [h, product, product, Format.round_neg, neg_mul, Format.round_neg, roundHalfEven_neg,
      neg_mul, context28_neg, roundHalfEven_neg, neg_inj]

/-- No step separates the conversions exactly when they reach the same minor units. -/
theorem agree_iff (value : ℚ) : Agree value ↔ ¬ (2 : ℚ) ^ 1024 ≤ |product value| ∧
    roundHalfEven (product |value|) = roundHalfEven (context28 (|value| * 100)) := by
  have ha : 0 ≤ |value| := abs_nonneg value
  have hoverflow : (floatCut overflowCut).Past |value| ↔ (2 : ℚ) ^ 1024 ≤ |product value| := by
    rw [past_floatCut _ ha, ← product, Cut.past_closed rfl, ← abs_product]
    · rfl
    · rw [Cut.past_closed rfl, not_le]
      exact one_half_lt_one.trans (one_lt_pow₀ (by norm_num) (by norm_num))
  have hsteps : (∀ k : ℕ, (floatCut (halfCut k)).Past |value| ↔
      (decimalCut (halfCut k)).Past |value|) ↔
        roundHalfEven (product |value|) = roundHalfEven (context28 (|value| * 100)) := by
    have hround := double.round_nonneg ha
    have hfloat : 0 ≤ roundHalfEven (product |value|) :=
      le_roundHalfEven (by exact_mod_cast double.round_nonneg (by linarith))
    have hdecimal : 0 ≤ roundHalfEven (context28 (|value| * 100)) := by
      rw [context28_eq]
      exact le_roundHalfEven (by exact_mod_cast decimal28.round_nonneg (by linarith))
    rw [eq_iff_forall_lt hfloat hdecimal]
    refine forall_congr' fun k => ?_
    rw [past_floatCut (not_past_halfCut k) ha, past_decimalCut (halfCut_pos k) ha, past_halfCut,
      past_halfCut, product]
  rw [← hoverflow, ← hsteps]
  exact ⟨fun h => ⟨h.finite, h.steps⟩, fun h => ⟨h.1, h.2⟩⟩

/-- The minor units of a payment are those of an account entry exactly when no step separates the
conversions. -/
theorem floatMinor_eq_iff (u : Unicode) {s : String} (h : Xsd.decimal s) :
    Pacs008.floatMinor u (strip s) = .ok (decimalMinor u (strip s)) ↔
      Agree (Xsd.decimalValue s) := by
  rw [agree_iff, floatMinor_of_decimal u h, StoredAmounts.decimalMinor_of_decimal u h]
  by_cases hpast : (2 : ℚ) ^ 1024 ≤ |product (Xsd.decimalValue s)|
  · rw [if_pos hpast]
    exact iff_of_false nofun fun hagree => hagree.1 hpast
  · rw [if_neg hpast, not_overflows_of_double hpast, if_neg (by decide), Except.ok.injEq,
      rounded_eq_iff, and_iff_right hpast]

/-- Two elements with the same text, which a schema admits, are mapped to the same amount exactly
when no step separates the conversions. -/
theorem amountsAgree_iff (u : Unicode) (payment entry : Xml.Element) (s currency currency' : String)
    (hs : Xsd.decimal s) (hpayment : payment.text = some s) (hentry : entry.text = some s)
    (hget : payment.get "Ccy" = some currency)
    (hcode : CamtSchema.activeOrHistoricCurrencyCode currency)
    (hget' : entry.get "Ccy" = some currency')
    (hcode' : CamtSchema.activeOrHistoricCurrencyCode currency') :
    (∃ a b, Pacs008.mapAmount u (some payment) = .ok (some a) ∧
        mapAmount u (some entry) = .ok (some b) ∧ a.amountMinor = b.amountMinor) ↔
      Agree (Xsd.decimalValue s) := by
  have hmap : mapAmount u (some entry) = .ok (some ⟨decimalMinor u (strip s), currency'⟩) := by
    rw [CamtSchema.mapAmount_of_currency u hget' hcode', StoredAmounts.text_of_decimal hs hentry]
    rfl
  have hmap' : Pacs008.mapAmount u (some payment) =
      (Pacs008.floatMinor u (strip s)).map fun minor => some ⟨minor, currency⟩ := by
    have hne : s ≠ "" := by
      rintro rfl
      exact absurd hs (by decide)
    have htext : (Text.or payment.text (some "0")).getD "0" = s := by
      rw [hpayment, Text.or, if_pos (truthy_some.mpr hne)]
      rfl
    dsimp only [Pacs008.mapAmount]
    rw [htext]
    cases Pacs008.floatMinor u (strip s) with
    | error e => rfl
    | ok minor =>
      change (monetaryAmount minor (currencyOf payment)).bind (fun a => .ok (some a)) = _
      rw [CamtSchema.monetaryAmount_of_currency hget hcode minor]
      rfl
  rw [← floatMinor_eq_iff u hs, hmap, hmap']
  cases Pacs008.floatMinor u (strip s) with
  | error e => simp [Except.map]
  | ok minor => simp [Except.map]

/-- One and a half cents above a euro: the double below it is rounded down, the decimal to the even
neighbour above. -/
theorem amounts_differ_half_cent :
    Xsd.decimal "1.015" ∧
      ¬ ∃ a b,
        Pacs008.mapAmount .ascii (some (StoredAmounts.amountElement "1.015")) = .ok (some a) ∧
          mapAmount .ascii (some (StoredAmounts.amountElement "1.015")) = .ok (some b) ∧
            a.amountMinor = b.amountMinor := by
  have hfloat : Pacs008.mapAmount .ascii (some (StoredAmounts.amountElement "1.015")) =
      .ok (some ⟨101, "EUR"⟩) := by
    decide +kernel
  have hdecimal : mapAmount .ascii (some (StoredAmounts.amountElement "1.015")) =
      .ok (some ⟨102, "EUR"⟩) := by
    decide +kernel
  refine ⟨by decide +kernel, ?_⟩
  rintro ⟨a, b, ha, hb, hab⟩
  obtain rfl : ⟨101, "EUR"⟩ = a := Option.some.inj (Except.ok.inj (hfloat.symm.trans ha))
  obtain rfl : ⟨102, "EUR"⟩ = b := Option.some.inj (Except.ok.inj (hdecimal.symm.trans hb))
  exact absurd hab (by decide)

/-! ## Whole cents -/

/-- An amount of whole cents is converted without loss, up to 2^50 of them. -/
theorem agree_of_cents (n : ℕ) (hn : n ≤ 2 ^ 50) : Agree (n / 100) := by
  have hcents : (n : ℚ) / 100 * 100 = n := div_mul_cancel₀ _ (by norm_num)
  have hbound : (n : ℚ) ≤ 2 ^ 50 := by exact_mod_cast hn
  have habs : |(n : ℚ) / 100| = n / 100 := abs_of_nonneg (by positivity)
  rcases Nat.eq_zero_or_pos n with rfl | hpos
  · have hzero : product 0 = 0 := by simp [product]
    rw [agree_iff, habs]
    norm_num [hzero, context28_zero]
  have hone : (1 : ℚ) ≤ n := by exact_mod_cast hpos
  have hsmall : (2 : ℚ) ^ (-1022 : ℤ) ≤ 2 ^ (-7 : ℤ) := zpow_le_zpow_right₀ (by norm_num) (by omega)
  have hseven : (2 : ℚ) ^ (-7 : ℤ) = 1 / 128 := by norm_num
  rw [hseven] at hsmall
  -- the first rounding is off by an eighth of a cent at most, and so is the second one
  have hfirst := abs_sub_double_le (q := n / 100) (hsmall.trans (by linarith))
  set d := double.round (n / 100) with hd
  have hlow := (abs_le.mp hfirst).1
  have hhigh := (abs_le.mp hfirst).2
  have hnear : |(n : ℚ) - d * 100| ≤ 1 / 8 := by
    rw [abs_le]
    constructor <;> linarith
  obtain ⟨hlow', hhigh'⟩ := abs_le.mp hnear
  have hsecond := abs_sub_double_le (q := d * 100) (hsmall.trans (by linarith))
  have hproduct : product (n / 100) = double.round (d * 100) := rfl
  rw [← hproduct] at hsecond
  obtain ⟨hlow₂, hhigh₂⟩ := abs_le.mp hsecond
  have hfloat : roundHalfEven (product (n / 100)) = n := by
    apply roundHalfEven_unique
    left
    rw [abs_lt]
    push_cast
    constructor <;> linarith
  have hdecimal : roundHalfEven (context28 n) = n := by
    have hlog : Int.log 10 |(n : ℚ)| ≤ 16 := by
      apply log_le
      rw [Nat.abs_cast]
      exact hbound.trans_lt (by norm_num)
    have hulp : ulp28 n ≤ 10 ^ (-11 : ℤ) := zpow_le_zpow_right₀ (by norm_num) (by omega)
    have heleven : (10 : ℚ) ^ (-11 : ℤ) < 1 := by norm_num
    have hcontext := abs_sub_context28_le n
    apply roundHalfEven_unique
    left
    rw [abs_sub_comm]
    push_cast
    linarith
  rw [agree_iff, habs, hcents, hfloat, hdecimal]
  refine ⟨?_, rfl⟩
  rw [abs_product, habs, not_le]
  have hlarge : (2 : ℚ) ^ 52 < 2 ^ 1024 := pow_lt_pow_right₀ (by norm_num) (by norm_num)
  exact lt_of_le_of_lt (by linarith) hlarge

theorem amountsAgree_ten_euros :
    ∃ a b, Pacs008.mapAmount .ascii (some (StoredAmounts.amountElement "10.25")) = .ok (some a) ∧
      mapAmount .ascii (some (StoredAmounts.amountElement "10.25")) = .ok (some b) ∧
        a.amountMinor = b.amountMinor := by
  have hvalue : Xsd.decimalValue "10.25" = (1025 : ℕ) / 100 := by decide +kernel
  have hagree : Agree (Xsd.decimalValue "10.25") := by
    rw [hvalue]
    exact agree_of_cents 1025 (by decide)
  exact (amountsAgree_iff .ascii (StoredAmounts.amountElement "10.25")
    (StoredAmounts.amountElement "10.25") "10.25" "EUR" "EUR" (by decide +kernel) rfl rfl
    (by decide +kernel) (by decide +kernel) (by decide +kernel) (by decide +kernel)).mpr hagree

end PaymentOps.AmountAgreement
