import PaymentOps.Batch.Rows
import PaymentOps.Mapping.RowValues

/-!
# Rows and records

A CSV profile reads its input as rows, and its mapping takes records from them in the format of the
mapping, which is a setting of its own.

* `mapRecord_ok_iff` says which rows are converted;
* `keepsRows_iff`: every row of every file becomes one transaction exactly when the mapping takes
  the rows for its records, reads all its paths, and all amounts are converted;
* `selector_loses_rows` is a profile that is accepted and maps nothing.
-/

namespace PaymentOps.Batch

open Csv Mapping Profiles Text

section

variable {Value : Type} (u : Unicode) (ops : ValueOps Value)

/-- The mapping takes the rows for its records. -/
def SelectsRows (definition : MappingDefinition) : Prop :=
  definition.sourceFormat = .csv ∨ definition.sourceFormat = .json ∧
    ∃ selector, definition.recordSelector = some selector ∧ tokenize u selector = [.wildcard]

/-- Every path of the mapping that is read from a row has indices that `int` reads. -/
def ReadsFields (definition : MappingDefinition) : Prop :=
  ∀ fm ∈ definition.fields, startsWith "$" fm.source → Readable u fm.source

/-- What a field takes from a record, before its transforms. -/
def placedValue (record : Data) (fm : FieldMapping) : Option Value :=
  match presentValue (rowOps u ops) record fm.source, fm.default with
  | some value, _ => some value
  | none, some value =>
    if fm.required = .required then none else some ((rowOps u ops).ofString value)
  | none, none => none

/-- The target is the amount in minor units. -/
def isAmountMinor (target : String) : Bool :=
  ["amount", "amount_minor"].isPrefixOf ((split '.' target).filter (· ≠ ""))

/-- What the field takes from the record is converted, when it is an amount. -/
def FieldConverts (record : Data) (fm : FieldMapping) : Prop :=
  isAmountMinor fm.target = true → ∀ value, placedValue u ops record fm = some value →
    ∃ n, ops.toMinor (applyTransforms (rowOps u ops) value fm.transforms) = .ok n

end

section

variable (u : Unicode) (py : RowPython)

/-- `map_input` of a CSV profile, for the payload that the text encodes. -/
def mapCsv (profile : IntegrationProfile) (payload : String) (clock : Instant) :
    Except RowError MappingResult := do
  let rows ← (dictReader excel payload).mapError .csvError
  (mapRows u py profile.mapping rows clock).mapError .service

/-- Each row of each file becomes one transaction of the message. -/
def KeepsRows (profile : IntegrationProfile) : Prop :=
  ∀ payload rows clock, dictReader excel payload = .ok rows →
    ∃ result, mapCsv u py profile payload clock = .ok result ∧
      result.message.transactions.length = rows.length ∧
      ∀ i row tx, rows[i]? = some row → result.message.transactions[i]? = some tx →
        ∃ issues, mapRecord u (rowOps u (rowValues u py)) profile.mapping.fields (.dict row) i =
          .ok (tx, issues)

/-- No amount of any row of any file is a decimal without minor units. -/
def AmountsConvert (definition : MappingDefinition) : Prop :=
  ∀ payload rows, dictReader excel payload = .ok rows → ∀ row ∈ rows,
    ∀ fm ∈ definition.fields, isAmountMinor fm.target = true →
      ∀ value, placedValue u (rowValues u py) (.dict row) fm = some value →
        (applyTransforms (rowOps u (rowValues u py)) value fm.transforms).Convertible

end

/-! ## One record -/

section

variable {Value : Type} (u : Unicode) (ops : ValueOps Value)

theorem setAccount_ok (account : Account) (seg : List String) (value : Value) :
    ∃ r, setAccount (rowOps u ops) account seg value = .ok r := by
  cases seg with
  | nil => exact Except.exists_ok _
  | cons field _ =>
    apply Except.exists_ite (Except.exists_ok _)
    apply Except.exists_ite (Except.exists_ok _)
    apply Except.exists_ite (Except.exists_ok _)
    apply Except.exists_ok

theorem setAgent_ok (agent : FinancialInstitution) (seg : List String) (value : Value) :
    ∃ r, setAgent (rowOps u ops) agent seg value = .ok r := by
  cases seg with
  | nil => exact Except.exists_ok _
  | cons field _ =>
    apply Except.exists_ite (Except.exists_ok _)
    apply Except.exists_ite (Except.exists_ok _)
    apply Except.exists_ok

theorem setRemittance_ok (remittance : RemittanceInformation) (seg : List String)
    (value : Value) : ∃ r, setRemittance (rowOps u ops) remittance seg value = .ok r := by
  cases seg with
  | nil => exact Except.exists_ok _
  | cons field _ => exact Except.exists_ite (Except.exists_ok _) (Except.exists_ok _)

theorem setAddress_ok (addr : PostalAddress) (seg : List String) (value : Value)
    (path : String) : ∃ r, setAddress (rowOps u ops) addr seg value path = .ok r := by
  cases seg with
  | nil => exact Except.exists_ok _
  | cons field _ =>
    apply Except.exists_ite (Except.exists_ok _)
    apply Except.exists_ite (Except.exists_ok _)
    apply Except.exists_ite (Except.exists_ok _)
    apply Except.exists_ite (Except.exists_ok _)
    apply Except.exists_ite (Except.exists_ok _)
    apply Except.exists_ite (Except.exists_ok _)
    apply Except.exists_ok

theorem setParty_ok (party : Party) (seg : List String) (value : Value) (tx : PaymentTransaction)
    (pre label : String) : ∃ r, setParty (rowOps u ops) party seg value tx pre label = .ok r := by
  cases seg with
  | nil => exact Except.exists_ok _
  | cons field rest =>
    refine Except.exists_bind ?_ fun party => ?_
    · apply Except.exists_ite (Except.exists_ok _)
      apply Except.exists_ite
      · exact Except.exists_bind (setAddress_ok u ops _ rest value _) fun _ => Except.exists_ok _
      · apply Except.exists_ok
    · exact Except.exists_ite (Except.exists_ok _) (Except.exists_ok _)

/-- Only an amount may fail to be set. -/
theorem setTarget_ok_iff (tx : PaymentTransaction) (target : String) (value : Value)
    (pre : String) : (∃ r, setTarget u (rowOps u ops) tx target value pre = .ok r) ↔
      (isAmountMinor target = true → ∃ n, ops.toMinor value = .ok n) := by
  unfold setTarget isAmountMinor
  cases (split '.' target).filter (· ≠ "") with
  | nil => exact iff_of_true ⟨_, rfl⟩ nofun
  | cons head seg =>
    by_cases hamount : head = "amount"
    · subst hamount
      cases seg with
      | nil => exact iff_of_true ⟨_, rfl⟩ nofun
      | cons field rest =>
        by_cases hminor : field = "amount_minor"
        · subst hminor
          dsimp only
          rw [if_pos rfl]
          simp only [setAmount, rowOps, if_true]
          cases hvalue : ops.toMinor value with
          | error e => simp [bind, Except.bind]
          | ok n => simp [bind, Except.bind, pure, Except.pure]
        · have hother :
              ["amount", "amount_minor"].isPrefixOf ("amount" :: field :: rest) = false := by
            simp [List.isPrefixOf, Ne.symm hminor]
          refine iff_of_true ?_ fun h => by rw [hother] at h; cases h
          dsimp only
          rw [if_pos rfl]
          simp only [setAmount, if_neg hminor]
          split_ifs <;> exact ⟨_, rfl⟩
    · have hother : ["amount", "amount_minor"].isPrefixOf (head :: seg) = false := by
        simp [List.isPrefixOf, Ne.symm hamount]
      refine iff_of_true ?_ fun h => by rw [hother] at h; cases h
      dsimp only
      rw [if_neg hamount]
      apply Except.exists_ite (Except.exists_ok _)
      apply Except.exists_ite (Except.exists_ok _)
      apply Except.exists_ite (Except.exists_ok _)
      apply Except.exists_ite (setParty_ok u ops _ seg value tx pre "Dbtr")
      apply Except.exists_ite (setParty_ok u ops _ seg value tx pre "Cdtr")
      apply Except.exists_ite
      · exact Except.exists_bind (setAccount_ok u ops _ seg value) fun _ => Except.exists_ok _
      apply Except.exists_ite
      · exact Except.exists_bind (setAccount_ok u ops _ seg value) fun _ => Except.exists_ok _
      apply Except.exists_ite
      · exact Except.exists_bind (setAgent_ok u ops _ seg value) fun _ => Except.exists_ok _
      apply Except.exists_ite
      · exact Except.exists_bind (setAgent_ok u ops _ seg value) fun _ => Except.exists_ok _
      apply Except.exists_ite
      · exact Except.exists_bind (setRemittance_ok u ops _ seg value) fun _ => Except.exists_ok _
      · apply Except.exists_ok

theorem mapField_ok_iff (record : Data) (pre : String)
    (acc : PaymentTransaction × List MappingIssue) (fm : FieldMapping) :
    (∃ r, mapField u (rowOps u ops) record pre acc fm = .ok r) ↔ FieldConverts u ops record fm := by
  have hplace : ∀ value : Value,
      (∃ r, (setTarget u (rowOps u ops) acc.1 fm.target
        (applyTransforms (rowOps u ops) value fm.transforms) pre).map (fun tx => (tx, acc.2)) =
          .ok r) ↔ (isAmountMinor fm.target = true → ∃ n,
        ops.toMinor (applyTransforms (rowOps u ops) value fm.transforms) = .ok n) := by
    intro value
    rw [← setTarget_ok_iff u ops acc.1 fm.target _ pre]
    constructor
    · rintro ⟨r, hr⟩
      obtain ⟨tx, htx, -⟩ := Except.map_eq_ok.mp hr
      exact ⟨tx, htx⟩
    · rintro ⟨tx, htx⟩
      exact ⟨(tx, acc.2), by rw [htx]; rfl⟩
  unfold mapField FieldConverts placedValue
  cases hvalue : presentValue (rowOps u ops) record fm.source with
  | some value =>
    refine (hplace value).trans ?_
    simp
  | none =>
    cases hdefault : fm.default with
    | none =>
      dsimp only
      split_ifs
      · simp
      · simp
    | some value =>
      dsimp only
      split_ifs
      · simp
      · refine (hplace _).trans ?_
        simp

theorem mapRecord_ok_iff (fields : List FieldMapping) (record : Data) (index : ℕ) :
    (∃ r, mapRecord u (rowOps u ops) fields record index = .ok r) ↔
      ∀ fm ∈ fields, FieldConverts u ops record fm :=
  Except.exists_foldlM_iff (fun acc fm _ => mapField_ok_iff u ops record _ acc fm) _

end

theorem fieldConverts_iff {u : Unicode} {py : RowPython} {record : Data} {fm : FieldMapping} :
    FieldConverts u (rowValues u py) record fm ↔ (isAmountMinor fm.target = true →
      ∀ value, placedValue u (rowValues u py) record fm = some value →
        (applyTransforms (rowOps u (rowValues u py)) value fm.transforms).Convertible) := by
  refine forall_congr' fun _ => forall₂_congr fun value _ => ?_
  exact RowValue.toMinor_ok_iff _

/-! ## A file whose columns no path names -/

/-- A row under the names `a b` and `c d`. -/
def spacedRow (cells : String × String) : Row :=
  [(some "a b", .text cells.1), (some "c d", .text cells.2)]

/-- The cells of three rows. -/
def spacedCells : List (String × String) := [("1", "2"), ("3", "4"), ("5", "6")]

theorem dictReader_spaced :
    dictReader excel "a b,c d\n1,2\n3,4\n5,6\n" = .ok (spacedCells.map spacedRow) := rfl

variable {u : Unicode} {tokens : List Token}

/-- The names in a path have no blanks. -/
theorem key_ne_spaced {path name : String} (h : .key name ∈ tokenize u path) :
    name ≠ "a b" ∧ name ≠ "c d" := by
  constructor
  · rintro rfl
    exact absurd (key_chars h ' ' (by decide)) (by decide)
  · rintro rfl
    exact absurd (key_chars h ' ' (by decide)) (by decide)

theorem length_pairs (cells : List (String × String)) :
    (cells.flatMap fun c => [c.1, c.2]).length = 2 * cells.length := by
  induction cells with
  | nil => rfl
  | cons c cells ih =>
    rw [List.flatMap_cons, List.length_append, ih, List.length_cons]
    show 2 + 2 * cells.length = 2 * (cells.length + 1)
    omega

/-- From rows under such names a path leads to nothing, or to all their cells. -/
theorem follow_spaced (hkeys : ∀ name, .key name ∈ tokens → name ≠ "a b" ∧ name ≠ "c d")
    (hne : tokens ≠ []) (cells : List (String × String)) :
    (follow tokens (cells.map fun c => .dict (spacedRow c))).length = 0 ∨
      (follow tokens (cells.map fun c => .dict (spacedRow c))).length = 2 * cells.length := by
  obtain ⟨token, tokens, rfl⟩ := List.exists_cons_of_ne_nil hne
  rw [follow_cons, List.flatMap_map]
  cases token with
  | key name =>
    left
    obtain ⟨hab, hcd⟩ := hkeys name List.mem_cons_self
    have hnone : ∀ c : String × String, Data.select (.key name) (.dict (spacedRow c)) = [] := by
      intro c
      have hget : (spacedRow c).get (some name) = none := by
        apply Dict.get_eq_none.mpr
        simp [spacedRow, hab.symm, hcd.symm]
      rw [Data.select, hget]
      rfl
    rw [List.flatMap_eq_nil_iff.mpr fun c _ => hnone c, follow_nil]
    rfl
  | index i =>
    left
    have hnone : ∀ c : String × String, Data.select (.index i) (.dict (spacedRow c)) = [] :=
      fun c => rfl
    rw [List.flatMap_eq_nil_iff.mpr fun c _ => hnone c, follow_nil]
    rfl
  | wildcard =>
    have hcells : cells.flatMap (fun c => Data.select .wildcard (.dict (spacedRow c))) =
        (cells.flatMap fun c => [c.1, c.2]).map fun s => .scalar (.text s) := by
      rw [List.map_flatMap]
      rfl
    rw [hcells]
    cases tokens with
    | nil =>
      right
      rw [follow_nil_tokens, List.length_map, length_pairs]
    | cons token tokens =>
      left
      rw [follow_cells (List.cons_ne_nil _ _)]
      rfl

/-- Of three such rows, a path selects three records only if it selects the rows. -/
theorem wildcard_of_length {path : String}
    (h : (resolveJsonPath u (.list (spacedCells.map spacedRow)) path).length = 3) :
    tokenize u path = [.wildcard] := by
  have hkeys : ∀ name, .key name ∈ tokenize u path → name ≠ "a b" ∧ name ≠ "c d" :=
    fun name hname => key_ne_spaced hname
  unfold resolveJsonPath at h
  generalize tokenize u path = tokens at h hkeys
  cases tokens with
  | nil => cases h
  | cons token tokens =>
    have hrest : ∀ name, .key name ∈ tokens → name ≠ "a b" ∧ name ≠ "c d" :=
      fun name hname => hkeys name (List.mem_cons_of_mem _ hname)
    rw [follow_cons, List.flatMap_singleton] at h
    cases token with
    | key name =>
      rw [Data.select, follow_nil] at h
      · cases h
      all_goals nofun
    | index i =>
      -- at most one row is selected
      exfalso
      have hrow : ∃ cells : List (String × String), cells.length ≤ 1 ∧
          Data.select (.index i) (.list (spacedCells.map spacedRow)) =
            cells.map fun c => .dict (spacedRow c) := by
        refine ⟨spacedCells[i]?.toList, ?_, ?_⟩
        · cases spacedCells[i]? <;> simp
        · rw [Data.select, List.getElem?_map]
          cases spacedCells[i]? <;> rfl
      obtain ⟨cells, hlen, hselect⟩ := hrow
      rw [hselect] at h
      cases tokens with
      | nil =>
        rw [follow_nil_tokens, List.length_map] at h
        omega
      | cons token tokens =>
        rcases follow_spaced hrest (List.cons_ne_nil _ _) cells with h' | h' <;> omega
    | wildcard =>
      have hselect : Data.select .wildcard (.list (spacedCells.map spacedRow)) =
          spacedCells.map fun c => .dict (spacedRow c) := rfl
      rw [hselect] at h
      cases tokens with
      | nil => rfl
      | cons token tokens =>
        have hlen : spacedCells.length = 3 := rfl
        rcases follow_spaced hrest (List.cons_ne_nil _ _) spacedCells with h' | h' <;> omega

/-! ## Files -/

variable {Value : Type} {ops : ValueOps Value} {definition : MappingDefinition}

/-- The records of the rows are the rows. -/
theorem extractRecords_rows (ops : ValueOps Value) (h : SelectsRows u definition)
    (rows : List Row) :
    extractRecords (rowOps u ops) definition rows = .ok (rows.map .dict) := by
  unfold extractRecords
  rcases h with hcsv | ⟨hjson, selector, hselector, htokens⟩
  · rw [hcsv]
    rfl
  · have htruthy : truthy definition.recordSelector = true := by
      have hne : selector ≠ "" := by
        rintro rfl
        cases htokens
      simp [truthy, hselector, hne]
    rw [hjson]
    dsimp only
    rw [if_pos htruthy, hselector]
    show Except.ok (resolveJsonPath u (.list rows) selector) = _
    rw [resolveJsonPath, htokens, follow_cons, List.flatMap_singleton]
    rfl

/-- A mapping that takes three records from three rows under names with blanks takes the rows. -/
theorem selectsRows_of_length {records : List Data}
    (h : extractRecords (rowOps u ops) definition (spacedCells.map spacedRow) = .ok records)
    (hlen : records.length = 3) : SelectsRows u definition := by
  unfold extractRecords at h
  cases hformat : definition.sourceFormat with
  | csv => exact .inl hformat
  | json =>
    rw [hformat] at h
    dsimp only at h
    split_ifs at h with htruthy
    · cases hselector : definition.recordSelector with
      | none =>
        rw [hselector] at htruthy
        cases htruthy
      | some selector =>
        rw [hselector] at h
        cases h
        exact .inr ⟨hformat, selector, hselector, wildcard_of_length hlen⟩
    · cases h
      cases hlen
  | customXml =>
    rw [hformat] at h
    dsimp only at h
    split_ifs at h
    · cases h
      cases hlen
    · cases h
      cases hlen

section

variable {py : RowPython} {profile : IntegrationProfile} {payload : String} {clock : Instant}
  {rows : List Row}

theorem mapCsv_eq_ok {result : MappingResult} (hread : dictReader excel payload = .ok rows) :
    mapCsv u py profile payload clock = .ok result ↔
      mapRows u py profile.mapping rows clock = .ok result := by
  rw [mapCsv, hread]
  exact Except.mapError_eq_ok

/-- Of the rows every path that starts with a dollar is read. -/
theorem readsFields_of_selectors {records : List Data} (hdict : records.any Data.isDict)
    (h : ∀ path ∈ rowSelectors definition records, Readable u path) : ReadsFields u definition := by
  intro fm hfm hsource
  apply h
  rw [rowSelectors, if_pos hdict]
  exact List.mem_append_right _
    (List.mem_filter.mpr ⟨List.mem_map_of_mem hfm, hsource⟩)

/-- When the mapping takes the rows, a selector that is read is one of a field. -/
theorem readable_selectors (hselects : SelectsRows u definition) (hreads : ReadsFields u definition)
    (records : List Data) : ∀ path ∈ rowSelectors definition records, Readable u path := by
  intro path hpath
  rcases List.mem_append.mp hpath with hrecord | hfield
  · split_ifs at hrecord with hjson
    · rcases hselects with hcsv | ⟨-, selector, hselector, htokens⟩
      · rw [hcsv] at hjson
        exact absurd hjson.1 (by decide)
      · rw [hselector] at hrecord
        obtain rfl := List.mem_singleton.mp hrecord
        exact readable_of_tokens fun i => by simp [htokens]
    · cases hrecord
  · split_ifs at hfield
    · obtain ⟨hmem, hsource⟩ := List.mem_filter.mp hfield
      obtain ⟨fm, hfm, rfl⟩ := List.mem_map.mp hmem
      exact hreads fm hfm hsource
    · cases hfield

end

/-- Rows are mapped one by one when the mapping selects them, its sources are read, and their
amounts convert. -/
theorem exists_mapRows {py : RowPython} {definition : MappingDefinition} {rows : List Row}
    (hselects : SelectsRows u definition) (hreads : ReadsFields u definition)
    (hconvert : ∀ row ∈ rows, ∀ fm ∈ definition.fields, isAmountMinor fm.target = true →
      ∀ value, placedValue u (rowValues u py) (.dict row) fm = some value →
        (applyTransforms (rowOps u (rowValues u py)) value fm.transforms).Convertible)
    (clock : Instant) :
    ∃ result, mapRows u py definition rows clock = .ok result ∧
      result.message.transactions.length = rows.length ∧
      ∀ i row tx, rows[i]? = some row → result.message.transactions[i]? = some tx →
        ∃ issues, mapRecord u (rowOps u (rowValues u py)) definition.fields (.dict row) i =
          .ok (tx, issues) := by
  have hrecords := extractRecords_rows (rowValues u py) hselects rows
  have hall : ∀ r ∈ (rows.map Data.dict).zipIdx, ∃ b,
      mapRecord u (rowOps u (rowValues u py)) definition.fields r.1 r.2 = .ok b := by
    rintro ⟨record, i⟩ hr
    obtain ⟨row, hrow, rfl⟩ := List.mem_map.mp (List.fst_mem_of_mem_zipIdx hr)
    refine (mapRecord_ok_iff u _ _ _ i).mpr fun fm hfm => ?_
    exact fieldConverts_iff.mpr (hconvert row hrow fm hfm)
  obtain ⟨mapped, hmapped⟩ := Except.exists_mapM hall
  obtain ⟨result, hresult, htx⟩ := exists_mapToCanonical clock hrecords hmapped
  refine ⟨result, mapRows_eq_ok.mpr ⟨readable_selectors hselects hreads _, hresult⟩, ?_,
    fun i row tx hrow hi => ?_⟩
  · rw [htx, List.length_map, Except.length_mapM hmapped, List.length_zipIdx, List.length_map]
  · rw [htx, List.getElem?_map] at hi
    obtain ⟨m, hm, rfl⟩ := Option.map_eq_some_iff.mp hi
    obtain ⟨record, hrecord, hmap⟩ := Except.exists_of_mapM_zipIdx hmapped hm
    rw [List.getElem?_map, hrow] at hrecord
    obtain rfl := Option.some.inj hrecord
    rw [Nat.zero_add] at hmap
    exact ⟨m.2, hmap⟩

/-- A CSV profile makes one transaction of each row of each file exactly when its mapping takes the
rows for its records, in its own format or by a path that selects them, no path of a field has an
endless index, and all amounts are converted. -/
theorem keepsRows_iff (u : Unicode) (py : RowPython) (profile : IntegrationProfile) :
    KeepsRows u py profile ↔ SelectsRows u profile.mapping ∧ ReadsFields u profile.mapping ∧
      AmountsConvert u py profile.mapping := by
  constructor
  · intro hkeeps
    obtain ⟨result, hresult, hlen, -⟩ := hkeeps _ _ 0 dictReader_spaced
    obtain ⟨hreadable, hresult⟩ := mapRows_eq_ok.mp ((mapCsv_eq_ok dictReader_spaced).mp hresult)
    obtain ⟨records, mapped, hrecords, hmapped, htx, -⟩ := mapToCanonical_parts hresult
    have hselects : SelectsRows u profile.mapping := by
      apply selectsRows_of_length hrecords
      rw [htx, List.length_map, Except.length_mapM hmapped, List.length_zipIdx] at hlen
      exact hlen
    refine ⟨hselects, ?_, ?_⟩
    · have hdict : (rowRecords u py profile.mapping (spacedCells.map spacedRow)).any
          Data.isDict := by
        rw [rowRecords, extractRecords_rows _ hselects]
        rfl
      exact readsFields_of_selectors hdict hreadable
    · intro payload rows hread row hrow fm hfm
      obtain ⟨i, hi, rfl⟩ := List.mem_iff_getElem.mp hrow
      obtain ⟨result, -, hlen, hbuilt⟩ := hkeeps payload rows 0 hread
      have hrow : rows[i]? = some rows[i] := List.getElem?_eq_getElem hi
      have htx := List.getElem?_eq_getElem (hlen ▸ hi)
      obtain ⟨issues, hmapped⟩ := hbuilt i _ _ hrow htx
      have hconverts := (mapRecord_ok_iff u _ profile.mapping.fields _ i).mp ⟨_, hmapped⟩
      exact fieldConverts_iff.mp (hconverts fm hfm)
  · rintro ⟨hselects, hreads, hconvert⟩ payload rows clock hread
    obtain ⟨result, hresult, hrows⟩ :=
      exists_mapRows hselects hreads (hconvert payload rows hread) clock
    exact ⟨result, (mapCsv_eq_ok hread).mpr hresult, hrows⟩

/-- A CSV profile with a mapping for JSON. -/
def selectorProfile : IntegrationProfile where
  organizationId := "org"
  name := "Payments"
  inputFormat := .csv
  mapping := {
    mappingVersion := "1"
    sourceFormat := .json
    recordSelector := some "$.payments[*]"
    fields := [{ source := "id", target := "instruction_id" }] }

/-- The profile is accepted, and its message has no transaction for the row. -/
theorem selector_loses_rows :
    ¬ ∀ profile : IntegrationProfile, validateProfile profile = [] → profile.inputFormat = .csv →
      KeepsRows .ascii .ascii profile := by
  intro h
  have hread : dictReader excel "id\nA\n" = .ok [[(some "id", .text "A")]] := rfl
  obtain ⟨result, hresult, hlen, -⟩ := h selectorProfile (by decide) rfl _ _ 0 hread
  cases hresult
  cases hlen

end PaymentOps.Batch
