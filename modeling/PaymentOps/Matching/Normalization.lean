import PaymentOps.Matching.Models

/-!
# Normalization for matching

The normalizers of `matching_engine.normalization`.  Each takes the original value and returns a
derived one, `none` where nothing is left.
-/

namespace PaymentOps.Matching

open Text

/-- The legal forms with their short forms. -/
def companySuffixes : Dict String String := [
  ("spa", "SPA"), ("s.p.a.", "SPA"), ("s p a", "SPA"), ("srl", "SRL"), ("s.r.l.", "SRL"),
  ("s r l", "SRL"), ("ltd", "LTD"), ("limited", "LTD"), ("gmbh", "GMBH"), ("inc", "INC"),
  ("incorporated", "INC"), ("llc", "LLC"), ("l.l.c.", "LLC"), ("bv", "BV"), ("n.v.", "NV"),
  ("ag", "AG")]

section

variable (u : Unicode)

/-- Uppercase and collapse whitespace; punctuation stays. -/
def normalizeIdentifier (value : String) : Option String :=
  orNone (u.upper (collapse (u.nfkc value)))

/-- `normalize_iban`. -/
def normalizeIban (value : String) : Option String :=
  orNone (u.upper (replace (Char.ofNat 0xa0) "" (replace '-' "" (replace ' ' "" (u.nfkc value)))))

/-- `normalize_bic`. -/
def normalizeBic (value : String) : Option String :=
  orNone (u.upper (collapse (u.nfkc value)))

/-- Uppercase, without spaces, hyphens, dots and `#`. -/
def normalizeReference (value : String) : Option String :=
  orNone (u.upper
    (replace '#' "" (replace '.' "" (replace '-' "" (replace ' ' "" (u.nfkc value))))))

/-- Join a run of `n` trailing one-letter tokens that spells a legal form. -/
def joinSuffix (n : ℕ) (tokens : List String) : List String :=
  let trailing := tokens.drop (tokens.length - n)
  if n ≤ tokens.length ∧ trailing.all (·.length = 1) then
    match companySuffixes.get (lower (join "" trailing)) with
    | some suffix => tokens.take (tokens.length - n) ++ [suffix]
    | none => tokens
  else tokens
where
  lower (s : String) : String := String.ofList (s.toList.map Char.toLower)

/-- Replace common legal-form spellings with a canonical token. -/
def normalizeCompanySuffix (name : String) : String :=
  let compact := strip (replace ',' " " (replace '.' " " name))
  let tokens := split ' ' (u.upper (collapse compact))
  let tokens := joinSuffix 2 (joinSuffix 3 tokens)
  join " " (tokens.map fun t => (companySuffixes.get (joinSuffix.lower t)).getD t)

/-- A character that `_PUNCT_RE` keeps. -/
def isNameChar (c : Char) : Bool :=
  let n := c.toNat
  c.isAlphanum || (0xc0 ≤ n && n ≤ 0xff) || c = ' '

/-- `_PUNCT_RE.sub(" ", s)`: each run of other characters becomes one space. -/
def dropPunctuation : List Char → List Char
  | [] => []
  | [c] => [if isNameChar c then c else ' ']
  | c :: d :: cs =>
    if isNameChar c then c :: dropPunctuation (d :: cs)
    else if isNameChar d then ' ' :: dropPunctuation (d :: cs)
    else dropPunctuation (d :: cs)

/-- NFKC, collapse, canonical legal form, no punctuation, casefold. -/
def normalizeName (value : String) : Option String :=
  let s := normalizeCompanySuffix u (collapse (u.nfkc value))
  orNone (u.casefold (collapse (String.ofList (dropPunctuation s.toList))))

/-- `normalize_currency`. -/
def normalizeCurrency (value : String) : Option String :=
  orNone (u.upper (collapse (u.nfkc value)))

/-- `normalize_amount`. -/
def normalizeAmount (value : Decimal) : Option Decimal := some value

/-- `normalize_country`. -/
def normalizeCountry (value : String) : Option String :=
  orNone (u.upper (collapse (u.nfkc value)))

/-- `normalize_date`. -/
def normalizeDate (value : Date) : Option String := some value.strftime

/-- A text field is skipped when it is absent or empty. -/
def normalizeText (f : String → Option String) (raw : Option String) : Option Value :=
  ((raw.filter (· ≠ "")).bind f).map .text

/-- `normalize_record(record).values[key]` for the fields that the matcher compares. -/
def normalizeRecord (record : MatchRecord) : Field → Option Value
  | .transactionId => normalizeText (normalizeIdentifier u) record.transactionId
  | .endToEndId => normalizeText (normalizeIdentifier u) record.endToEndId
  | .debtorAccount => normalizeText (normalizeIban u) record.debtorAccount
  | .creditorAccount => normalizeText (normalizeIban u) record.creditorAccount
  | .debtorAgent => normalizeText (normalizeBic u) record.debtorAgent
  | .creditorAgent => normalizeText (normalizeBic u) record.creditorAgent
  | .currency => normalizeText (normalizeCurrency u) record.currency
  | .country => normalizeText (normalizeCountry u) record.country
  | .amount => (record.amount.bind normalizeAmount).map .decimal
  | .bookingDate => (record.bookingDate.bind normalizeDate).map .text
  | .valueDate => (record.valueDate.bind normalizeDate).map .text
  | .remittanceReference => normalizeText (normalizeReference u) record.remittanceReference
  | .externalReference => normalizeText (normalizeReference u) record.externalReference
  | .debtorName => normalizeText (normalizeName u) record.debtorName
  | .creditorName => normalizeText (normalizeName u) record.creditorName

end

end PaymentOps.Matching
