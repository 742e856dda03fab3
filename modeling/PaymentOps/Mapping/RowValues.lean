import PaymentOps.Mapping.Conversion
import PaymentOps.Mapping.Selectors

/-!
# Mapping rows

The transforms and the conversions of the mapping engine on what a path reaches in a row of a CSV
file.  A row may hold the cells that have no column, so it is no decoded JSON.

* `rowValues` are the operations of the mapper on such values, and `RowValue.toMinor_ok_iff` says
  which of them have minor units;
* `mapRows` is the mapper on rows, with the selectors that the tokenizer refuses.
-/

namespace PaymentOps.Mapping

open Csv Decimal Text

/-- What the mapper passes on: what a path reaches, or a decimal that `parse_decimal` made of a
text. -/
inductive RowValue where
  | data (d : Data)
  | decimal (d : DecimalNumber)

/-- What Python maps of letters, and prints of rows and of cells without a column. -/
structure RowPython where
  /-- `str.lower` -/
  lower : String → String
  /-- `str(d)` of anything but a text -/
  repr : Data → String

/-- A row holds no float. -/
def RowPython.ops (py : RowPython) : PythonOps Empty :=
  { PythonOps.noFloats with lower := py.lower }

/-- ASCII letters, and nothing printed but `[]`. -/
def RowPython.ascii : RowPython where
  lower := PythonOps.noFloats.lower
  repr _ := "[]"

namespace RowValue

/-- The value of a text. -/
def text (s : String) : RowValue := .data (.scalar (.text s))

section

variable (u : Unicode) (py : RowPython)

/-- `transform(name, value)`: every transform leaves alone what is no text. -/
def transform (name : String) : RowValue → RowValue
  | .data (.scalar (.text s)) =>
    match transformText u py.ops name s with
    | .json (.str t) => .text t
    | .decimal d => .decimal d
    -- no transform of a text gives anything else
    | .json _ => .text s
  | v => v

/-- `str(value)` -/
def str : RowValue → String
  | .data (.scalar (.text s)) => s
  | .data d => py.repr d
  | .decimal d => d.toString

/-- `_to_minor`: what is neither a number nor a text has 0 minor units. -/
def toMinor : RowValue → Except ServiceError ℤ
  | .data (.scalar (.text s)) => Mapping.toMinor u py.ops (.json (.str s))
  | .data _ => .ok 0
  | .decimal d => Mapping.toMinor u py.ops (.decimal d)

/-- `value == ""` -/
def isEmpty : RowValue → Bool
  | .data (.scalar (.text s)) => s = ""
  | _ => false

end

/-- A value that has minor units: a decimal must be finite, and its hundredfold within what a
decimal of the context can hold. -/
def Convertible : RowValue → Prop
  | .decimal (.finite d) => |d.toRat * 100| < contextLimit
  | .decimal _ => False
  | .data _ => True

variable {u : Unicode} {py : RowPython}

theorem toMinor_ok_iff (v : RowValue) : (∃ n, v.toMinor u py = .ok n) ↔ v.Convertible := by
  unfold toMinor
  split
  · exact iff_of_true ⟨_, rfl⟩ trivial
  · exact iff_of_true ⟨_, rfl⟩ trivial
  · rename_i d
    refine (Mapping.toMinor_ok_iff _).trans ?_
    cases d <;> exact Iff.rfl

end RowValue

section

variable (u : Unicode) (py : RowPython)

/-- The operations of the mapper on the values of rows. -/
def rowValues : ValueOps RowValue where
  ofData := .data
  isEmpty := RowValue.isEmpty
  transform := RowValue.transform u py
  str := RowValue.str py
  toMinor := RowValue.toMinor u py

/-- Only the rows themselves are records in which a field is looked up by a path. -/
def Data.isDict : Data → Bool
  | .dict _ => true
  | _ => false

/-- The selectors that are read while records are mapped. -/
def rowSelectors (definition : MappingDefinition) (records : List Data) : List String :=
  (if definition.sourceFormat = .json ∧ truthy definition.recordSelector then
    definition.recordSelector.toList else []) ++
  (if records.any Data.isDict then
    (definition.fields.map (·.source)).filter (startsWith "$" ·) else [])

/-- The records that a mapping takes from rows. -/
def rowRecords (definition : MappingDefinition) (rows : List Row) : List Data :=
  ((extractRecords (rowOps u (rowValues u py)) definition rows).toOption).getD []

/-- `map_to_canonical` on rows: the tokenizer refuses a selector with an index that is too long, and
otherwise the mapper does its work. -/
def mapRows (definition : MappingDefinition) (rows : List Row) (clock : Instant) :
    Except ServiceError MappingResult := do
  let _ ← (rowSelectors definition (rowRecords u py definition rows)).mapM (tokenizePath u)
  mapToCanonical u (rowOps u (rowValues u py)) definition rows clock

end

/-- Rows are mapped exactly when the mapper maps them and no selector that it reads is refused. -/
theorem mapRows_eq_ok {u : Unicode} {py : RowPython} {definition : MappingDefinition}
    {rows : List Row} {clock : Instant} {result : MappingResult} :
    mapRows u py definition rows clock = .ok result ↔
      (∀ path ∈ rowSelectors definition (rowRecords u py definition rows), Readable u path) ∧
        mapToCanonical u (rowOps u (rowValues u py)) definition rows clock = .ok result := by
  rw [mapRows, Except.bind_eq_ok, ← mapM_tokenizePath_ok_iff]
  exact ⟨fun ⟨tokens, htokens, hresult⟩ => ⟨⟨tokens, htokens⟩, hresult⟩,
    fun ⟨⟨tokens, htokens⟩, hresult⟩ => ⟨tokens, htokens, hresult⟩⟩

/-- A selector without an index is read. -/
theorem readable_of_tokens {u : Unicode} {path : String}
    (h : ∀ i, .index i ∉ tokenize u path) : Readable u path := by
  intro p hp
  cases p with
  | skipped c => trivial
  | token t text =>
    cases t with
    | key name => trivial
    | wildcard => trivial
    | index i =>
      refine absurd ?_ (h i)
      rw [tokenize_eq]
      exact List.mem_filterMap.mpr ⟨_, hp, rfl⟩

end PaymentOps.Mapping
