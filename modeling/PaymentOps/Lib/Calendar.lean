import Mathlib.Algebra.Group.Nat.Defs
import Mathlib.Data.Int.Basic
import PaymentOps.Lib.Text

/-!
# Calendar dates

Dates of the proleptic Gregorian calendar from year 1 to year 9999, their ordinals, and the ISO
8601 texts that Python's `date.fromisoformat` and `datetime.fromisoformat` read.
-/

namespace Calendar

/-- The leap years of the proleptic Gregorian calendar. -/
def isLeap (y : ℕ) : Bool := y % 4 == 0 && (y % 100 != 0 || y % 400 == 0)

/-- The days of a month. -/
def daysInMonth (y m : ℕ) : ℕ :=
  if m = 2 then (if isLeap y then 29 else 28)
  else if m = 4 ∨ m = 6 ∨ m = 9 ∨ m = 11 then 30 else 31

/-- The year, the month and the day are those of a date. -/
def isDate (y m d : ℕ) : Bool :=
  1 ≤ y && y ≤ 9999 && 1 ≤ m && m ≤ 12 && 1 ≤ d && d ≤ daysInMonth y m

/-- The number of days before January 1st of year `y`. -/
def daysBeforeYear (y : ℕ) : ℕ := (y - 1) * 365 + (y - 1) / 4 - (y - 1) / 100 + (y - 1) / 400

/-- The number of days of year `y` before the first of month `m`. -/
def daysBeforeMonth (y m : ℕ) : ℕ :=
  (List.range (m - 1)).foldl (fun days i => days + daysInMonth y (i + 1)) 0

end Calendar

open Calendar

/-- `datetime.date` -/
structure Date where
  year : ℕ
  month : ℕ
  day : ℕ
  valid : isDate year month day = true
  deriving DecidableEq

namespace Date

/-- `date(y, m, d)`, which raises outside the calendar. -/
def mk? (y m d : ℕ) : Option Date :=
  if h : isDate y m d = true then some ⟨y, m, d, h⟩ else none

/-- `d.toordinal()` -/
def ordinal (d : Date) : ℕ := daysBeforeYear d.year + daysBeforeMonth d.year d.month + d.day

/-- `abs((a - b).days)` -/
def daysApart (a b : Date) : ℕ := ((a.ordinal : ℤ) - b.ordinal).natAbs

/-- `n` in decimal, with zeros on the left up to `width` digits. -/
def pad (width n : ℕ) : String :=
  String.ofList (List.replicate (width - (Nat.toDigits 10 n).length) '0' ++ Nat.toDigits 10 n)

/-- `d.strftime("%Y-%m-%d")`: the year is not padded. -/
def strftime (d : Date) : String := pad 1 d.year ++ "-" ++ pad 2 d.month ++ "-" ++ pad 2 d.day

/-- `d.isoformat()` -/
def isoformat (d : Date) : String := pad 4 d.year ++ "-" ++ pad 2 d.month ++ "-" ++ pad 2 d.day

/-- A fixed number of ASCII digits and what follows them. -/
def parseDigits : ℕ → List Char → Option (ℕ × List Char)
  | 0, cs => some (0, cs)
  | n + 1, cs => do
    let c ← cs.head?
    if c.isDigit then
      let (v, rest) ← parseDigits n cs.tail
      some ((c.toNat - 48) * 10 ^ n + v, rest)
    else none

/-- The date with the given ordinal. -/
def ofOrdinal (n : ℕ) : Option Date := do
  -- an estimate that is at most one year too early, as a year has at most 366 days
  let guess := (n - 1) * 400 / 146097 + 1
  let y := if daysBeforeYear (guess + 1) < n then guess + 1
    else if daysBeforeYear guess < n then guess else guess - 1
  let inYear := n - daysBeforeYear y
  let m := ((List.range 12).filter fun i => daysBeforeMonth y (i + 1) < inYear).length
  mk? y m (inYear - daysBeforeMonth y m)

/-- The ordinal of the Monday of ISO week 1 of year `y`. -/
def isoWeek1Monday (y : ℕ) : ℕ :=
  let jan1 := daysBeforeYear y + 1
  -- Mondays are the ordinals that are 1 modulo 7
  let weekday := (jan1 + 6) % 7
  if 3 < weekday then jan1 + 7 - weekday else jan1 - weekday

/-- The day `d` of ISO week `w` of year `y`. -/
def ofIsoCalendar (y w d : ℕ) : Option Date :=
  if 1 ≤ y ∧ y ≤ 9999 ∧ 1 ≤ w ∧ isoWeek1Monday y + 7 * (w - 1) < isoWeek1Monday (y + 1) ∧
      1 ≤ d ∧ d ≤ 7 then
    ofOrdinal (isoWeek1Monday y + 7 * (w - 1) + (d - 1))
  else none

/-- What stands after the `W` of a week date. -/
def parseWeek (year : ℕ) (sep : Bool) (cs : List Char) : Option Date := do
  let (week, cs) ← parseDigits 2 cs
  match sep, cs with
  | _, [] => ofIsoCalendar year week 1
  | true, '-' :: cs | false, cs => do
    let (day, rest) ← parseDigits 1 cs
    if rest.isEmpty then ofIsoCalendar year week day else none
  | true, _ => none

/-- What stands after the year of a month date. -/
def parseMonth (year : ℕ) (sep : Bool) (cs : List Char) : Option Date := do
  let (month, cs) ← parseDigits 2 cs
  match sep, cs with
  | true, '-' :: cs | false, cs => do
    let (day, rest) ← parseDigits 2 cs
    if rest.isEmpty then mk? year month day else none
  | true, _ => none

/-- `date.fromisoformat(s)`: `YYYY-MM-DD`, `YYYYMMDD`, and the week dates `YYYY-Www-D`,
`YYYYWwwD`, `YYYY-Www`, `YYYYWww`. -/
def fromisoformat (s : String) : Option Date := do
  let (year, cs) ← parseDigits 4 s.toList
  match cs with
  | '-' :: 'W' :: cs => parseWeek year true cs
  | 'W' :: cs => parseWeek year false cs
  | '-' :: cs => parseMonth year true cs
  | cs => parseMonth year false cs

end Date

/-- `datetime.datetime`: microseconds since midnight, and since UTC unless it is naive. -/
structure DateTime where
  date : Date
  time : ℕ
  offset : Option ℤ := none
  deriving DecidableEq

namespace DateTime

open Date

/-- The fraction of a second in microseconds; digits after the sixth are dropped. -/
def parseFraction : List Char → Option ℕ
  | [] => some 0
  | c :: cs =>
    if (c == '.' || c == ',') && ! cs.isEmpty && cs.all Char.isDigit then
      (parseDigits (min 6 cs.length) cs).map fun v => v.1 * Nat.pow 10 (6 - cs.length)
    else none

/-- `HH[:MM[:SS[.f]]]` or `HH[MM[SS[.f]]]`: hours, minutes, seconds and microseconds. -/
def parseClock (cs : List Char) : Option (ℕ × ℕ × ℕ × ℕ) := do
  let (h, cs) ← parseDigits 2 cs
  let sep := cs.head? == some ':'
  if cs.isEmpty then some (h, 0, 0, 0)
  else
    let (m, cs) ← parseDigits 2 (if sep then cs.tail else cs)
    if cs.isEmpty then some (h, m, 0, 0)
    else if sep && cs.head? != some ':' then none
    else
      let (s, cs) ← parseDigits 2 (if sep then cs.tail else cs)
      let f ← parseFraction cs
      some (h, m, s, f)

/-- The microseconds since midnight. -/
def microseconds (h m s f : ℕ) : ℕ := ((h * 60 + m) * 60 + s) * 1000000 + f

/-- What follows the time: nothing, `Z`, or a signed offset of less than a day. -/
def parseOffset : List Char → Option (Option ℤ)
  | [] => some none
  | ['Z'] => some (some 0)
  | sign :: cs => do
    let (h, m, s, f) ← parseClock cs
    let n := microseconds h m s f
    if sign = 'Z' ∨ microseconds 24 0 0 0 ≤ n then none
    else some (some (if sign = '-' then -(n : ℤ) else n))

/-- An offset from UTC starts here. -/
def isOffsetSign (c : Char) : Bool := c = '-' || c = '+' || c = 'Z'

/-- A time with an optional offset from UTC. -/
def parseTime (cs : List Char) : Option (ℕ × Option ℤ) := do
  let (h, m, s, f) ← parseClock (cs.takeWhile (! isOffsetSign ·))
  let offset ← parseOffset (cs.dropWhile (! isOffsetSign ·))
  if h < 24 ∧ m < 60 ∧ s < 60 then some (microseconds h m s f, offset) else none

/-- The position of the separator between the date and the time. -/
def findSeparator (cs : List Char) : ℕ :=
  if cs.length = 7 then 7
  else if cs[4]? = some '-' then
    if cs[5]? = some 'W' then
      -- `YYYY-Www-dd`: a digit after the day means that the hyphen is the separator
      if cs[8]? = some '-' then (if cs[10]?.any Char.isDigit then 8 else 10) else 8
    else 10
  else if cs[4]? = some 'W' then
    let digits := 7 + ((cs.drop 7).takeWhile Char.isDigit).length
    if digits < 9 then digits else if digits % 2 = 0 then 7 else 8
  else 8

/-- `datetime.fromisoformat(s)` -/
def fromisoformat (s : String) : Option DateTime := do
  let cs := s.toList
  let sep := findSeparator cs
  let date ← Date.fromisoformat (String.ofList (cs.take sep))
  if (cs.drop (sep + 1)).isEmpty then some { date := date, time := 0 }
  else
    let (time, offset) ← parseTime (cs.drop (sep + 1))
    some { date := date, time := time, offset := offset }

end DateTime
