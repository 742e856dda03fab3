import PaymentOps.Iso.CamtSchema
import PaymentOps.Iso.Registry
import PaymentOps.Lib.DecimalText
import PaymentOps.Lib.Rounding
import PaymentOps.Service.IsoAnalysis

/-!
# Amounts in the database

An amount is a text without a bound on its digits, and is stored in minor units in an integer
column of 32 bits: of a lifecycle, an account entry or an account balance.

* `decimalMinor_of_decimal`: the minor units of a text that a schema admits;
* `amountStored_iff`: they fit into the column and are the nearest to the amount exactly when the
  amount is in the range of the column and is not rounded twice in the same direction;
* `amount_too_large` is an amount of 21 474 836.48.
-/

namespace PaymentOps.StoredAmounts

open Text Iso Lifecycle IsoAnalysis AccountService

/-! ## The columns -/

/-- The values of an `Integer` column. -/
def IsInteger32 (n : ℤ) : Prop := -2147483648 ≤ n ∧ n ≤ 2147483647

instance (n : ℤ) : Decidable (IsInteger32 n) := inferInstanceAs (Decidable (_ ∧ _))

/-- The column holds the value, as the nearest integer to the value times 100. -/
def Kept (value : ℚ) (n : ℤ) : Prop :=
  IsInteger32 n ∧ ∀ m : ℤ, |value * 100 - n| ≤ |value * 100 - m|

/-- Every column where the amount is stored holds the value. -/
structure AmountStored (value : ℚ) (a : MonetaryAmount) : Prop where
  lifecycle : ∀ org tx messageId clock, tx.amount = some a → ∃ n,
    (newLifecycle org (profileFromDict (profileFromTransaction tx messageId)) clock).amountMinor =
      some n ∧ Kept value n
  entry : ∀ org entry reportId identityHash, entry.amount = some a → ∃ n,
    (entryToRow org entry reportId identityHash).amountMinor = some n ∧ Kept value n
  balance : ∀ org reportId bal, bal.amount = a →
    Kept value (balanceRow org reportId bal).amountMinor

/-- The columns hold the minor units of the amount. -/
theorem amountStored_iff_kept {value : ℚ} {a : MonetaryAmount} :
    AmountStored value a ↔ Kept value a.amountMinor := by
  constructor
  · intro h
    exact h.balance "" 0 { type := .opening, amount := a, creditDebit := .crdt } rfl
  · intro h
    refine ⟨?_, ?_, ?_⟩
    · intro org tx messageId clock htx
      exact ⟨a.amountMinor, congrArg (Option.map MonetaryAmount.amountMinor) htx, h⟩
    · intro org entry reportId identityHash hentry
      exact ⟨a.amountMinor, congrArg (Option.map MonetaryAmount.amountMinor) hentry, h⟩
    · rintro org reportId bal rfl
      exact h

/-! ## The conversion -/

/-- The minor units of a text that a schema admits. -/
theorem decimalMinor_of_decimal (u : Unicode) {s : String} (h : Xsd.decimal s) :
    decimalMinor u (strip s) =
      if Decimal.overflows (Decimal.context28 (Xsd.decimalValue s * 100)) then 0
      else Decimal.roundHalfEven (Decimal.context28 (Xsd.decimalValue s * 100)) := by
  rw [decimalMinor, Xsd.ofDecimalText_strip u h]

theorem text_of_decimal {e : Xml.Element} {s : String} (h : Xsd.decimal s)
    (he : e.text = some s) : text (some e) = some (strip s) := by
  have hne : strip s ≠ "" := by
    intro hempty
    obtain ⟨hcollapse, hchars⟩ := Xsd.isDecimalChar_of_mem_collapse h
    have hlist := Xsd.toList_strip hcollapse fun c hc =>
      Xsd.isSpace_of_isDecimalChar (hchars c hc)
    rw [hempty] at hlist
    exact hcollapse hlist.symm
  rw [text, Option.bind_some, he, Option.bind_some, orNone_of_ne hne]

/-- The value is in the range of the column, and rounding it twice is as good as rounding it
once. -/
def Storable (value : ℚ) : Prop :=
  -2147483648 - 1 / 2 ≤ value * 100 ∧ value * 100 < 2147483647 + 1 / 2 ∧
    Decimal.RoundsOnce (value * 100)

theorem abs_lt_of_bounds {x : ℚ} (hlow : -2147483648 - 1 / 2 ≤ x) (hhigh : x ≤ 2147483647 + 1 / 2) :
    |x| < 10 ^ 25 := by
  have hbound : |x| ≤ 2147483649 := abs_le.mpr ⟨by linarith, by linarith⟩
  have hpow : (2147483649 : ℚ) < 10 ^ 25 := by norm_num
  exact hbound.trans_lt hpow

/-- What is kept is near the range of the column. -/
theorem abs_lt_of_kept {value : ℚ} {n : ℤ} (h : Kept value n) : |value * 100| < 10 ^ 25 := by
  obtain ⟨⟨hmin, hmax⟩, hnear⟩ := h
  obtain ⟨hlow, hhigh⟩ := abs_le.mp (Decimal.nearest_iff_abs_le.mp hnear)
  have hmin' : (-2147483648 : ℚ) ≤ n := by exact_mod_cast hmin
  have hmax' : (n : ℚ) ≤ 2147483647 := by exact_mod_cast hmax
  exact abs_lt_of_bounds (by linarith) (by linarith)

/-- An exact half goes to the even neighbour. -/
theorem even_of_half {x : ℚ} (hx : |x| < 10 ^ 25) {k : ℤ} (hk : x = k + 1 / 2) :
    Even (Decimal.roundHalfEven (Decimal.context28 x)) := by
  have hgrid := Decimal.onGrid_half hx k
  have hcontext : Decimal.context28 x = k + 1 / 2 := le_antisymm
    (Decimal.context28_le hgrid hk.le) (Decimal.le_context28 hgrid hk.ge)
  rw [hcontext, Decimal.roundHalfEven_half]
  split_ifs with heven
  · exact heven
  · exact (Int.not_even_iff_odd.mp heven).add_one

theorem kept_iff {value : ℚ} (hx : |value * 100| < 10 ^ 25) :
    Kept value (Decimal.roundHalfEven (Decimal.context28 (value * 100))) ↔ Storable value := by
  rw [Kept, Decimal.nearest_iff_abs_le, Decimal.nearest_iff hx, Storable, ← and_assoc]
  refine and_congr_left fun hround => ?_
  set x := value * 100
  set n := Decimal.roundHalfEven (Decimal.context28 x)
  have hnear : |x - n| ≤ 1 / 2 := (Decimal.nearest_iff hx).mpr hround
  obtain ⟨hlow, hhigh⟩ := abs_le.mp hnear
  constructor
  · rintro ⟨hmin, hmax⟩
    have hmin' : (-2147483648 : ℚ) ≤ n := by exact_mod_cast hmin
    have hmax' : (n : ℚ) ≤ 2147483647 := by exact_mod_cast hmax
    refine ⟨by linarith, ?_⟩
    by_contra hge
    have hhalf : x = (2147483647 : ℤ) + 1 / 2 := by
      push_cast
      linarith
    have heven : Even n := even_of_half hx hhalf
    have hn : (n : ℚ) = 2147483647 := by
      push_cast at hhalf
      linarith
    have hn' : n = 2147483647 := by exact_mod_cast hn
    rw [hn'] at heven
    exact absurd heven (by decide)
  · rintro ⟨hmin, hmax⟩
    constructor
    · by_contra hlt
      have hle : n ≤ -2147483649 := by omega
      have hle' : (n : ℚ) ≤ -2147483649 := by exact_mod_cast hle
      have hhalf : x = (-2147483649 : ℤ) + 1 / 2 := by
        push_cast
        linarith
      have heven : Even n := even_of_half hx hhalf
      have hn : (n : ℚ) = -2147483649 := by
        push_cast at hhalf
        linarith
      have hn' : n = -2147483649 := by exact_mod_cast hn
      rw [hn'] at heven
      exact absurd heven (by decide)
    · have hlt : (n : ℚ) < 2147483648 := by linarith
      have hlt' : n < 2147483648 := by exact_mod_cast hlt
      omega

/-- The amount of an element whose text a schema admits is mapped, and stored as it is exactly when
it is in the range of the columns and is not rounded twice in the same direction. -/
theorem amountStored_iff (u : Unicode) (e : Xml.Element) (s currency : String)
    (hs : Xsd.decimal s) (he : e.text = some s) (hget : e.get "Ccy" = some currency)
    (hcode : CamtSchema.activeOrHistoricCurrencyCode currency) :
    ∃ a, mapAmount u (some e) = .ok (some a) ∧
      (AmountStored (Xsd.decimalValue s) a ↔ Storable (Xsd.decimalValue s)) := by
  have hmap : mapAmount u (some e) = .ok (some ⟨decimalMinor u (strip s), currency⟩) := by
    rw [CamtSchema.mapAmount_of_currency u hget hcode, text_of_decimal hs he]
    rfl
  refine ⟨_, hmap, ?_⟩
  rw [amountStored_iff_kept, decimalMinor_of_decimal u hs]
  have hfits : |Xsd.decimalValue s * 100| < 10 ^ 25 →
      (Kept (Xsd.decimalValue s)
        (if Decimal.overflows (Decimal.context28 (Xsd.decimalValue s * 100)) then 0
        else Decimal.roundHalfEven (Decimal.context28 (Xsd.decimalValue s * 100))) ↔
        Storable (Xsd.decimalValue s)) := by
    intro hx
    rw [Decimal.not_overflows hx, if_neg (by decide)]
    exact kept_iff hx
  constructor
  · intro h
    exact (hfits (abs_lt_of_kept h)).mp h
  · intro h
    exact (hfits (abs_lt_of_bounds h.1 h.2.1.le)).mpr h

/-! ## A large payment -/

/-- An amount in euros. -/
def amountElement (value : String) : Xml.Element :=
  .node (.name (some Iso.pacs008Version.namespace_) "InstdAmt") [("Ccy", "EUR")] (some value) []
    none

/-- An amount of one euro and a half cent, which goes to the even neighbour. -/
theorem amountStored_iff_sample :
    ∃ a, mapAmount .ascii (some (amountElement "1.005")) = .ok (some a) ∧
      AmountStored (Xsd.decimalValue "1.005") a := by
  obtain ⟨a, hmap, hiff⟩ := amountStored_iff .ascii (amountElement "1.005") "1.005" "EUR"
    (by decide +kernel) rfl (by decide +kernel) (by decide +kernel)
  have hvalue : Xsd.decimalValue "1.005" * 100 = 100.5 := by
    have hread : Xsd.decimalValue "1.005" = 1.005 := by decide +kernel
    rw [hread]
    norm_num
  refine ⟨a, hmap, hiff.mpr ⟨?_, ?_, ?_⟩⟩
  · rw [hvalue]
    norm_num
  · rw [hvalue]
    norm_num
  · rw [hvalue]
    refine Decimal.roundsOnce_of_exact ?_ (by decide +kernel)
    norm_num

/-- An amount that no column can hold. -/
theorem amount_too_large :
    Xsd.decimal "21474836.48" ∧
      ∃ a, mapAmount .ascii (some (amountElement "21474836.48")) = .ok (some a) ∧
        ¬ AmountStored (Xsd.decimalValue "21474836.48") a := by
  refine ⟨by decide +kernel, ⟨2147483648, "EUR"⟩, ?_, ?_⟩
  · decide +kernel
  · rw [amountStored_iff_kept]
    intro h
    exact absurd h.1 (by decide)

end PaymentOps.StoredAmounts
