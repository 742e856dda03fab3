import PaymentOps.Lib.CsvRows
import PaymentOps.Profiles.Integration

/-!
# The text of a row

A batch is read once, and each of its rows is written out again as a file of one row, which is
analyzed like any other input of the profile.  The row is written without quotes.

`agreesDirect_iff` says which rows come back as they were.
-/

namespace PaymentOps.Batch

open Csv Mapping Profiles Text

/-- What stops the analysis of a row. -/
inductive RowError where
  | csvError (e : Csv.Error)
  | service (e : ServiceError)

/-! ## The text that a row becomes -/

/-- An item of `",".join(row.keys())` -/
def keyText : Option String → Except ServiceError String
  | some name => .ok name
  | none => .error (.typeError "expected str instance, NoneType found")

/-- An item of `",".join(row.values())` -/
def valueText : Csv.Value → Except ServiceError String
  | .text s => .ok s
  | .missing => .error (.typeError "expected str instance, NoneType found")
  | .rest _ => .error (.typeError "expected str instance, list found")

/-- `"\n".join([",".join(row.keys()), ",".join(row.values())])` -/
def csvTextRow (row : Row) : Except ServiceError String := do
  let keys ← row.mapM fun p => keyText p.1
  let values ← row.mapM fun p => valueText p.2
  pure (join "\n" [join "," keys, join "," values])

/-- `map_input` of a CSV profile, for the payload that the text encodes. -/
def mapInput {Record Value : Type} (u : Unicode) (ops : SourceOps (List Row) Record Value)
    (profile : IntegrationProfile) (payload : String) (clock : Instant) :
    Except RowError MappingResult := do
  let rows ← (dictReader excel payload).mapError .csvError
  (mapToCanonical u ops profile.mapping rows clock).mapError .service

/-- A row with these names and cells is read again as that row, so that it is mapped as it is in
every input that consists of it. -/
structure AgreesDirect (header cells : List String) : Prop where
  reparsed : ∃ text, csvTextRow (rowOf header cells) = .ok text ∧
    dictReader excel text = .ok [rowOf header cells]
  mapped : ∀ {Value : Type} (u : Unicode) (ops : SourceOps (List Row) Row Value)
    (profile : IntegrationProfile) (text direct : String) (clock : Instant),
    csvTextRow (rowOf header cells) = .ok text →
    dictReader excel direct = .ok [rowOf header cells] →
    mapInput u ops profile text clock = mapInput u ops profile direct clock

variable {header cells : List String}

/-! ## Which rows come back -/

theorem csvTextRow_rowOf (hlen : header.length = cells.length) :
    csvTextRow (rowOf header cells) = .ok (join "\n" [join "," header, join "," cells]) := by
  let item : String × String → Option String × Csv.Value := fun p => (some p.1, .text p.2)
  have hkeys : (rowOf header cells).mapM (fun p => keyText p.1) = .ok header := by
    have hmap := Except.mapM_map_ok (f := item) (g := fun p => keyText p.1) (h := fun p => p.1)
      (fun p => rfl) (header.zip cells)
    rwa [List.map_fst_zip hlen.le] at hmap
  have hvalues : (rowOf header cells).mapM (fun p => valueText p.2) = .ok cells := by
    have hmap := Except.mapM_map_ok (f := item) (g := fun p => valueText p.2) (h := fun p => p.2)
      (fun p => rfl) (header.zip cells)
    rwa [List.map_snd_zip hlen.ge] at hmap
  rw [csvTextRow, hkeys, hvalues]
  rfl

theorem toList_join_comma (fields : List String) :
    (join "," fields).toList = joined excel fields := by
  rw [join, String.toList_intercalate]
  rfl

theorem toList_text (header cells : List String) :
    (join "\n" [join "," header, join "," cells]).toList =
      joined excel header ++ '\n' :: joined excel cells := by
  rw [join, String.toList_intercalate]
  simp [toList_join_comma]

theorem joined_ne_nil : joined excel cells ≠ [] ↔ cells ≠ [] ∧ cells ≠ [""] := by
  cases cells with
  | nil => simp [joined]
  | cons cell cells =>
    cases cells with
    | nil => simp
    | cons t cells => simp [joined_cons]

/-- A row comes back exactly when its names and its cells need no quotes and its line is not
empty. -/
theorem agreesDirect_iff (hnodup : header.Nodup) (hnames : "" ∉ header)
    (hlen : header.length = cells.length) :
    AgreesDirect header cells ↔
      (∀ s ∈ header ++ cells, Plain excel s.toList) ∧ cells ≠ [] ∧ cells ≠ [""] := by
  have hread := dictReader_iff hnodup hlen hnames (toList_text header cells)
  rw [joined_ne_nil] at hread
  constructor
  · rintro ⟨⟨text, htext, hrow⟩, -⟩
    rw [csvTextRow_rowOf hlen] at htext
    cases htext
    exact hread.mp hrow
  · intro h
    have hrow := hread.mpr h
    refine ⟨⟨_, csvTextRow_rowOf hlen, hrow⟩, ?_⟩
    intro Value u ops profile text direct clock htext hdirect
    rw [csvTextRow_rowOf hlen] at htext
    cases htext
    rw [mapInput, mapInput, hrow, hdirect]

theorem agreesDirect_iff_sample :
    AgreesDirect ["name", "amount"] ["John Smith", "10.00"] ↔
      (∀ s ∈ ["name", "amount"] ++ ["John Smith", "10.00"], Plain excel s.toList) ∧
        ["John Smith", "10.00"] ≠ [] ∧ ["John Smith", "10.00"] ≠ [""] :=
  agreesDirect_iff (by decide) (by decide) rfl

/-- A comma in a name moves the amount into the next column, and the rest of the name into the
column of the amount. -/
theorem comma_shifts_columns :
    dictReader excel "name,amount\n\"Smith, John\",10.00\n" =
        .ok [rowOf ["name", "amount"] ["Smith, John", "10.00"]] ∧
      (∃ text, csvTextRow (rowOf ["name", "amount"] ["Smith, John", "10.00"]) = .ok text ∧
        dictReader excel text =
          .ok [[(some "name", .text "Smith"), (some "amount", .text " John"),
            (none, .rest ["10.00"])]]) ∧
      ¬ AgreesDirect ["name", "amount"] ["Smith, John", "10.00"] := by
  have hread : ∃ text, csvTextRow (rowOf ["name", "amount"] ["Smith, John", "10.00"]) = .ok text ∧
      dictReader excel text =
        .ok [[(some "name", .text "Smith"), (some "amount", .text " John"),
          (none, .rest ["10.00"])]] := ⟨"name,amount\nSmith, John,10.00", rfl, rfl⟩
  refine ⟨rfl, hread, ?_⟩
  rintro ⟨⟨text, htext, hrow⟩, -⟩
  obtain ⟨text', htext', hrow'⟩ := hread
  rw [htext'] at htext
  cases htext
  rw [hrow'] at hrow
  exact absurd (Except.ok.inj hrow) (by decide)

end PaymentOps.Batch
