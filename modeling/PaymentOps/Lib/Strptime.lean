import PaymentOps.Lib.Calendar

/-!
# `datetime.strptime`

A format is matched as the regular expression that Python makes of it: the alternatives of a
directive are tried in order, and the first match counts only if it reaches the end of the text.
-/

namespace Strptime

/-- A class of characters: `\d`, or a range such as `[0-5]`. -/
inductive CharClass where
  | digit
  | range (low high : Char)
  deriving DecidableEq, Repr

/-- The character is in the class. -/
def CharClass.accepts (u : Unicode) : CharClass → Char → Bool
  | digit, c => (u.digit c).isSome
  | range low high, c => low ≤ c && c ≤ high

/-- The directives of a format. -/
inductive Directive where
  | year | month | day | hour | minute | second
  deriving DecidableEq, Repr

/-- What a directive matches. -/
def Directive.alternatives : Directive → List (List CharClass)
  | year => [[.digit, .digit, .digit, .digit]]
  | month => [[.range '1' '1', .range '0' '2'], [.range '0' '0', .range '1' '9'],
      [.range '1' '9']]
  | day => [[.range '3' '3', .range '0' '1'], [.range '1' '2', .digit],
      [.range '0' '0', .range '1' '9'], [.range '1' '9'], [.range ' ' ' ', .range '1' '9']]
  | hour => [[.range '2' '2', .range '0' '3'], [.range '0' '1', .digit], [.digit]]
  | minute => [[.range '0' '5', .digit], [.digit]]
  | second => [[.range '6' '6', .range '0' '1'], [.range '0' '5', .digit], [.digit]]

/-- A format consists of literal characters and directives. -/
inductive Item where
  | literal (c : Char)
  | directive (d : Directive)
  deriving DecidableEq, Repr

/-- The number that the classes read at the start of a text, and what follows it. -/
def takeNumber (u : Unicode) : List CharClass → ℕ → List Char → Option (ℕ × List Char)
  | [], n, cs => some (n, cs)
  | _ :: _, _, [] => none
  | k :: ks, n, c :: cs =>
    if k.accepts u c then
      takeNumber u ks (((u.digit c).map fun d => 10 * n + d).getD n) cs
    else none

/-- All matches of a format, in the order in which they are tried. -/
def allMatches (u : Unicode) : List Item → List Char → List (List (Directive × ℕ) × List Char)
  | [], cs => [([], cs)]
  | .literal _ :: _, [] => []
  | .literal c :: items, d :: cs => if d.toLower = c.toLower then allMatches u items cs else []
  | .directive d :: items, cs =>
    d.alternatives.flatMap fun classes =>
      match takeNumber u classes 0 cs with
      | none => []
      | some (n, rest) => (allMatches u items rest).map fun r => ((d, n) :: r.1, r.2)

/-- `datetime.strptime(s, format)`, `none` where it raises `ValueError`. -/
def strptime (u : Unicode) (format : List Item) (s : String) : Option DateTime :=
  match (allMatches u format s.toList).head? with
  | some (values, []) =>
    let value := fun d default => (values.lookup d).getD default
    let second := value .second 0
    if second < 60 then
      (Date.mk? (value .year 1900) (value .month 1) (value .day 1)).map fun date =>
        { date := date, time := DateTime.microseconds (value .hour 0) (value .minute 0) second 0 }
    else none
  | _ => none

/-- `t.isoformat()` of a naive time without a fraction of a second. -/
def isoformat (t : DateTime) : String :=
  let seconds := t.time / 1000000
  t.date.isoformat ++ "T" ++ Date.pad 2 (seconds / 3600) ++ ":" ++
    Date.pad 2 (seconds / 60 % 60) ++ ":" ++ Date.pad 2 (seconds % 60)

/-- `%Y%m%d` -/
def compactDate : List Item := [.directive .year, .directive .month, .directive .day]

/-- `%d/%m/%Y` -/
def slashedDate : List Item :=
  [.directive .day, .literal '/', .directive .month, .literal '/', .directive .year]

/-- `%Y-%m-%d` -/
def isoDate : List Item :=
  [.directive .year, .literal '-', .directive .month, .literal '-', .directive .day]

/-- `%Y-%m-%dT%H:%M:%S` -/
def isoDateTime : List Item :=
  isoDate ++ [.literal 'T', .directive .hour, .literal ':', .directive .minute, .literal ':',
    .directive .second]

example : (strptime .ascii compactDate "202412").map isoformat = some "2024-01-02T00:00:00" := by
  decide +kernel

end Strptime
