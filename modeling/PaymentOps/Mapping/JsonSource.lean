import PaymentOps.Domain.Countries
import PaymentOps.Lib.DecimalNumber
import PaymentOps.Lib.Strptime
import PaymentOps.Lib.Words
import PaymentOps.Mapping.JsonPath

/-!
# Mapping decoded JSON

The transforms and the conversions of the mapping engine, and decoded JSON as its source.  A CSV
source is a list of rows, so it is decoded JSON as well.
-/

namespace PaymentOps.Mapping

open Text

variable {F : Type}

/-- What the mapper passes on: a decoded value, or a decimal that `parse_decimal` made of a text. -/
inductive MappedValue (F : Type) where
  | json (v : JsonValue F)
  | decimal (d : DecimalNumber)

/-- Python's floats, and what it prints of values and maps of letters. -/
structure PythonOps (F : Type) where
  /-- the number that a float denotes -/
  value : F → Decimal.Number
  /-- `str.lower` -/
  lower : String → String
  /-- `str(v)` of a float, a list or a dictionary -/
  repr : JsonValue F → String

/-- ASCII letters, no floats, and nothing printed but `[]`. -/
def PythonOps.noFloats : PythonOps Empty where
  value := nofun
  lower s := String.ofList (s.toList.map Char.toLower)
  repr _ := "[]"

section

variable (u : Unicode) (py : PythonOps F)

/-! ## Transforms -/

/-- A text among the mapped values. -/
def MappedValue.text (s : String) : MappedValue F := .json (.str s)

/-- `Decimal(value.strip().replace(",", "."))` -/
def readDecimal (s : String) : Option DecimalNumber :=
  DecimalNumber.read u (replace ',' "." (strip s))

/-- `[A-Za-z0-9\s\-]` -/
def isSafeChar (c : Char) : Bool := c.isAlphanum || isSpace c || c = '-'

/-- `parse_date`: the first of the formats that fits. -/
def parseDate (s : String) : Option String :=
  [Strptime.isoDate, Strptime.isoDateTime, Strptime.compactDate, Strptime.slashedDate].findSome?
    fun format => (Strptime.strptime u format (strip s)).map Strptime.isoformat

/-- A transform of a text. -/
def transformText (name s : String) : MappedValue F :=
  match name with
  | "trim" => .text (strip s)
  | "collapse_whitespace" => .text (join " " ((Words.fields isSpace s.toList).map String.ofList))
  | "upper" => .text (u.upper s)
  | "lower" => .text (py.lower s)
  | "normalize_unicode" => .text (u.nfkc s)
  | "remove_safe_punctuation" => .text (String.ofList (s.toList.filter isSafeChar))
  | "country_to_iso2" => .text ((normalizeCountryName u s).getD s)
  | "parse_decimal" => ((readDecimal u s).map .decimal).getD (.text s)
  | "parse_date" => .text ((parseDate u s).getD s)
  | "normalize_iban_whitespace" =>
    .text (u.upper (String.ofList (s.toList.filter fun c => ! isSpace c)))
  | "normalize_bic_case" => .text (u.upper s)
  -- the suffix is looked for, but the text is the same with and without one
  | "company_suffix_normalization" => .text (strip s)
  | _ => .text s

/-- `transform(name, value)`: every transform leaves alone what is no text. -/
def transform (name : String) : MappedValue F → MappedValue F
  | .json (.str s) => transformText u py name s
  | v => v

/-! ## Conversions -/

/-- `str(value)` -/
def MappedValue.str : MappedValue F → String
  | .json .null => "None"
  | .json (.bool b) => if b then "True" else "False"
  | .json (.int n) => toString n
  | .json (.str s) => s
  | .json v => py.repr v
  | .decimal d => d.toString

/-- `int(round(f * 100))` of a float. -/
def floatMinor : Decimal.Number → Except ServiceError ℤ
  | .finite q =>
    match Decimal.binary64 (q * 100) with
    | some product => .ok (Decimal.roundHalfEven product)
    | none => .error (.overflowError "cannot convert float infinity to integer")
  | .infinite => .error (.overflowError "cannot convert float infinity to integer")
  | .nan => .error (.valueError "cannot convert float NaN to integer")

/-- What rounding a decimal raises. -/
def decimalError : DecimalNumber → ServiceError
  | .finite _ => .overflowError "[<class 'decimal.Overflow'>]"
  | .infinity _ => .overflowError "cannot convert Infinity to integer"
  | .nan _ false _ => .valueError "cannot convert NaN to integer"
  | .nan _ true _ => .valueError "[<class 'decimal.InvalidOperation'>]"

/-- The amount that a text denotes, `none` where reading or rounding it raises. -/
def textMinor (s : String) : Option ℤ := (readDecimal u s).bind DecimalNumber.minor

/-- `_to_minor`, with everything that it raises. -/
def toMinor : MappedValue F → Except ServiceError ℤ
  | .decimal d =>
    match d.minor with
    | some n => .ok n
    | none => .error (decimalError d)
  | .json (.bool b) => .ok (if b then 100 else 0)
  | .json (.int n) =>
    match Decimal.binary64 n with
    | some q => floatMinor (.finite q)
    | none => .error (.overflowError "int too large to convert to float")
  | .json (.float f) => floatMinor (py.value f)
  | .json (.str s) => .ok ((textMinor u s).getD 0)
  | .json _ => .ok 0

/-- `value == ""` -/
def MappedValue.isEmpty : MappedValue F → Bool
  | .json (.str s) => s = ""
  | _ => false

end

/-! ## Sources -/

/-- How records are found and read; the values of a record are decoded values. -/
structure Reader (Source Record F : Type) where
  asList : Source → Option (List Record)
  asDict : Source → Option Record
  resolveJsonPath : Source → String → List Record
  xpath : Source → String → Except ServiceError (Option (List Record))
  getValue : Record → String → Option (JsonValue F)

/-- The operations of a mapping on such a source. -/
def Reader.ops {Source Record : Type} (reader : Reader Source Record F) (u : Unicode)
    (py : PythonOps F) : SourceOps Source Record (MappedValue F) where
  asList := reader.asList
  asDict := reader.asDict
  resolveJsonPath := reader.resolveJsonPath
  xpath := reader.xpath
  getValue record source := (reader.getValue record source).map .json
  ofString := .text
  isEmpty := MappedValue.isEmpty
  transform := transform u py
  str value := .ok (value.str py)
  toMinor := toMinor u py

namespace JsonValue

/-- The value is `null`. -/
def isNull : JsonValue F → Bool
  | null => true
  | _ => false

/-- The value is an object. -/
def isDict : JsonValue F → Bool
  | dict _ => true
  | _ => false

/-- `_get_value` of a record that is no XML element; `none` is `None`. -/
def getValue (u : Unicode) (record : JsonValue F) (source : String) : Option (JsonValue F) :=
  match record with
  | dict members =>
    let value :=
      if startsWith "$" source then (follow (tokenize u source) [dict members]).head?
      else Dict.get members source
    value.filter (! ·.isNull)
  | _ => none

/-- Decoded JSON is no XML element. -/
def reader (u : Unicode) : Reader (JsonValue F) (JsonValue F) F where
  asList
    | list items => some items
    | _ => none
  asDict
    | dict members => some (dict members)
    | _ => none
  resolveJsonPath data path := follow (tokenize u path) [data]
  xpath _ _ := .ok none
  getValue := getValue u

end JsonValue

/-- The selectors that are read while the records of a source are mapped. -/
def readSelectors (definition : MappingDefinition) (records : List (JsonValue F)) : List String :=
  (if definition.sourceFormat = .json ∧ truthy definition.recordSelector then
    definition.recordSelector.toList else []) ++
  (if records.any JsonValue.isDict then
    (definition.fields.map (·.source)).filter (startsWith "$" ·) else [])

/-- The records of decoded JSON. -/
def jsonRecords (u : Unicode) (py : PythonOps F) (definition : MappingDefinition)
    (source : JsonValue F) : List (JsonValue F) :=
  ((extractRecords ((JsonValue.reader u).ops u py) definition source).toOption).getD []

/-- `map_to_canonical` on decoded JSON: the tokenizer refuses a selector with an index that is too
long, and otherwise the mapper does its work. -/
def mapJson (u : Unicode) (py : PythonOps F) (definition : MappingDefinition)
    (source : JsonValue F) (clock : Instant) : Except ServiceError MappingResult := do
  let _ ← (readSelectors definition (jsonRecords u py definition source)).mapM (tokenizePath u)
  mapToCanonical u ((JsonValue.reader u).ops u py) definition source clock

end PaymentOps.Mapping
