import PaymentOps.Lib.Decimal

/-!
# Decimals with infinities and NaNs

`decimal.Decimal` as it is read from a text and printed, without rounding.
-/

/-- A `decimal.Decimal`. -/
inductive DecimalNumber where
  | finite (d : Decimal)
  | infinity (negative : Bool)
  | nan (negative signaling : Bool) (payload : ℕ)
  deriving DecidableEq

namespace DecimalNumber

open Decimal

/-- The exponent is one that the format can hold. -/
def fits (d : Decimal) : Bool :=
  d.exponent + (Nat.toDigits 10 d.coefficient).length ≤ 1000000000000000000 &&
    -1999999999999999997 ≤ d.exponent

/-- Digits with an optional point and an optional exponent. -/
def readFinite (u : Unicode) (negative : Bool) (cs : List Char) : Option Decimal := do
  let (whole, cs) := takeDigits u cs
  let (fraction, cs) := match cs with
    | '.' :: cs => takeDigits u cs
    | cs => ([], cs)
  if whole = [] ∧ fraction = [] then none
  else
    let e ← readExponent u cs
    let d := {
      negative := negative
      coefficient := ofDigits (whole ++ fraction)
      exponent := e - fraction.length }
    if fits d then some d else none

/-- What follows `name`, when it is digits only. -/
def readPayload (u : Unicode) (name : List Char) (cs : List Char) : Option ℕ :=
  if name.isPrefixOf (lower cs) then
    let (ds, rest) := takeDigits u (cs.drop name.length)
    if rest = [] then some (ofDigits ds) else none
  else none

/-- `Decimal(s)`, `none` where it raises. -/
def read (u : Unicode) (s : String) : Option DecimalNumber :=
  let (negative, cs) := takeSign ((Text.strip s).toList.filter (· ≠ '_'))
  if lower cs = "inf".toList ∨ lower cs = "infinity".toList then some (.infinity negative)
  else
    match readPayload u "nan".toList cs, readPayload u "snan".toList cs with
    | some payload, _ => some (.nan negative false payload)
    | none, some payload => some (.nan negative true payload)
    | none, none => (readFinite u negative cs).map .finite

/-- `str(d)` -/
def toString : DecimalNumber → String
  | finite d => d.toString
  | infinity negative => (if negative then "-" else "") ++ "Infinity"
  | nan negative signaling payload =>
    (if negative then "-" else "") ++ (if signaling then "sNaN" else "NaN") ++
      (if payload = 0 then "" else payload.repr)

/-- `int(round(d * 100))`, `none` where it raises: the product is rounded to the context, which has
no room for a number past its largest exponent, and only a number is rounded to an integer. -/
def minor : DecimalNumber → Option ℤ
  | finite d =>
    let product := context28 (d.toRat * 100)
    if overflows product then none else some (roundHalfEven product)
  | infinity _ => none
  | nan _ _ _ => none

example : (read .ascii " -1_0.50E+1 ").map toString = some "-105.0" := by decide +kernel

example : (read .ascii "sNaN12").map toString = some "sNaN12" := by decide +kernel

end DecimalNumber
