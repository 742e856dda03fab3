import PaymentOps.Lib.Dict
import PaymentOps.Lib.Fallible
import PaymentOps.Lib.Text

/-!
# CSV

The reader of Python's `csv` module with its default options: quoted fields, a quote in a quoted
field written twice, nothing rejected that can be read somehow.  The lines come from a stream that
ends them at `\n` only, so that a `\r` reaches the reader.

* `Reader.step` is the automaton, `records` its run over the lines;
* `dictReader` gives each record the names of the first one;
* a field is `Plain` when it can be written without quotes: `records_joined` reads such fields
  back, and by `count_records` nothing else is ever read back without the loss of a quote.
-/

namespace Csv

/-- The characters of a dialect and its longest field. -/
structure Dialect where
  delimiter : Char
  quotechar : Char
  fieldLimit : ℕ
  delimiter_ne_quotechar : delimiter ≠ quotechar
  delimiter_ne_newline : delimiter ≠ '\n' ∧ delimiter ≠ '\r'
  quotechar_ne_newline : quotechar ≠ '\n' ∧ quotechar ≠ '\r'

/-- The default dialect, with the default of `csv.field_size_limit`. -/
def excel : Dialect where
  delimiter := ','
  quotechar := '"'
  fieldLimit := 131072
  delimiter_ne_quotechar := by decide
  delimiter_ne_newline := by decide
  quotechar_ne_newline := by decide

/-- The states of the reader. -/
inductive State where
  | startRecord | startField | inField | inQuotedField | quoteInQuotedField | eatCrnl
  deriving DecidableEq, Repr

/-- `csv.Error` -/
inductive Error where
  | newLineInUnquotedField
  | fieldLimit
  deriving DecidableEq, Repr

/-- The record so far, and the field that is being read. -/
structure Reader where
  state : State := .startRecord
  field : List Char := []
  fields : List String := []
  deriving DecidableEq, Repr

/-- The ends of a line. -/
def isNewline (c : Char) : Bool := c == '\n' || c == '\r'

namespace Reader

/-- The field is complete. -/
def saveField (r : Reader) (state : State) : Reader where
  state := state
  field := []
  fields := r.fields ++ [String.ofList r.field]

/-- One more character of the field, unless it is too long. -/
def addChar (d : Dialect) (r : Reader) (c : Char) (state : State) : Except Error Reader :=
  if d.fieldLimit ≤ r.field.length then .error .fieldLimit
  else .ok { r with state := state, field := r.field ++ [c] }

/-- The first character of a field. -/
def startField (d : Dialect) (r : Reader) (c : Char) : Except Error Reader :=
  if isNewline c then .ok (r.saveField .eatCrnl)
  else if c = d.quotechar then .ok { r with state := .inQuotedField }
  else if c = d.delimiter then .ok (r.saveField .startField)
  else r.addChar d c .inField

/-- One character. -/
def step (d : Dialect) (r : Reader) (c : Char) : Except Error Reader :=
  match r.state with
  | .startRecord => if isNewline c then .ok { r with state := .eatCrnl } else r.startField d c
  | .startField => r.startField d c
  | .inField =>
    if isNewline c then .ok (r.saveField .eatCrnl)
    else if c = d.delimiter then .ok (r.saveField .startField)
    else r.addChar d c .inField
  | .inQuotedField =>
    if c = d.quotechar then .ok { r with state := .quoteInQuotedField }
    else r.addChar d c .inQuotedField
  | .quoteInQuotedField =>
    if c = d.quotechar then r.addChar d c .inQuotedField
    else if c = d.delimiter then .ok (r.saveField .startField)
    else if isNewline c then .ok (r.saveField .eatCrnl)
    else r.addChar d c .inField
  | .eatCrnl => if isNewline c then .ok r else .error .newLineInUnquotedField

/-- The end of a line. -/
def endLine (r : Reader) : Reader :=
  match r.state with
  | .startField | .inField | .quoteInQuotedField => r.saveField .startRecord
  | .eatCrnl => { r with state := .startRecord }
  | .startRecord | .inQuotedField => r

/-- One line of the input. -/
def readLine (d : Dialect) (r : Reader) (line : List Char) : Except Error Reader :=
  (line.foldlM (step d) r).map endLine

end Reader

/-- The lines of a stream, each with the `\n` that ends it. -/
def lines : List Char → List (List Char)
  | [] => []
  | c :: cs =>
    if c = '\n' then [c] :: lines cs
    else
      match lines cs with
      | [] => [[c]]
      | line :: rest => (c :: line) :: rest

/-- The records of the lines.  The input may end in a quoted field. -/
def records (d : Dialect) : Reader → List (List Char) → Except Error (List (List String))
  | r, [] =>
    .ok (if ! r.field.isEmpty || r.state == .inQuotedField then [(r.saveField .startRecord).fields]
      else [])
  | r, line :: rest => do
    let r ← r.readLine d line
    if r.state = .startRecord then do
      pure (r.fields :: (← records d {} rest))
    else records d r rest

/-- A value of a row: a cell, `None` where the record is too short, the rest of one too long. -/
inductive Value where
  | text (s : String)
  | missing
  | rest (cells : List String)
  deriving DecidableEq, Repr

/-- A row; the cells without a name are under the key `None`. -/
abbrev Row := Dict (Option String) Value

/-- The cells under the names of their columns. -/
def toRow (fieldnames cells : List String) : Row :=
  let d : Row := (fieldnames.zip cells).foldl (fun d p => d.set (some p.1) (.text p.2)) []
  if fieldnames.length < cells.length then d.set none (.rest (cells.drop fieldnames.length))
  else (fieldnames.drop cells.length).foldl (fun d name => d.set (some name) .missing) d

/-- `list(csv.DictReader(io.StringIO(text)))` -/
def dictReader (d : Dialect) (text : String) : Except Error (List Row) := do
  match ← records d {} (lines text.toList) with
  | [] => pure []
  | fieldnames :: rest => pure ((rest.filter fun cells => ! cells.isEmpty).map (toRow fieldnames))

/-! ## Lines -/

@[simp] theorem flatten_lines (cs : List Char) : (lines cs).flatten = cs := by
  induction cs with
  | nil => rfl
  | cons c cs ih =>
    rw [lines]
    split_ifs with hc
    · simp [ih]
    · cases hl : lines cs with
      | nil => simpa [hl] using ih
      | cons line rest => simpa [hl] using ih

theorem lines_of_not_mem {cs : List Char} (h : '\n' ∉ cs) (hne : cs ≠ []) : lines cs = [cs] := by
  induction cs with
  | nil => exact absurd rfl hne
  | cons c cs ih =>
    obtain ⟨hc, hcs⟩ := not_or.mp (List.mem_cons.not.mp h)
    rw [lines, if_neg (Ne.symm hc)]
    cases cs with
    | nil => rfl
    | cons b bs => rw [ih hcs (List.cons_ne_nil b bs)]

theorem lines_append_newline {cs : List Char} (h : '\n' ∉ cs) (rest : List Char) :
    lines (cs ++ '\n' :: rest) = (cs ++ ['\n']) :: lines rest := by
  induction cs with
  | nil => simp [lines]
  | cons c cs ih =>
    obtain ⟨hc, hcs⟩ := not_or.mp (List.mem_cons.not.mp h)
    rw [List.cons_append, lines, if_neg (Ne.symm hc), ih hcs]
    rfl

/-! ## What one character does -/

variable {d : Dialect}

/-- A field that can be written as it is. -/
structure Plain (d : Dialect) (s : List Char) : Prop where
  chars : ∀ c ∈ s, c ≠ d.delimiter ∧ isNewline c = false
  head : s.head? ≠ some d.quotechar
  length : s.length ≤ d.fieldLimit

theorem plain_nil : Plain d [] := ⟨by simp, by simp, by simp⟩

/-- A plain field grows by a character that does not end it and does not open it as a quoted one. -/
theorem Plain.append {s : List Char} (h : Plain d s) (hlen : s.length < d.fieldLimit) {c : Char}
    (hc : c ≠ d.delimiter ∧ isNewline c = false) (hquote : s = [] → c ≠ d.quotechar) :
    Plain d (s ++ [c]) := by
  refine ⟨fun b hb => ?_, ?_, ?_⟩
  · rcases List.mem_append.mp hb with hb | hb
    · exact h.chars b hb
    · rwa [List.mem_singleton.mp hb]
  · cases s with
    | nil => simpa using hquote rfl
    | cons a s => simpa using h.head
  · rw [List.length_append, List.length_singleton]
    omega

namespace Reader

variable {r r' : Reader} {c : Char} {st : State} {cs : List Char}

/-- The characters that have become part of a field. -/
def chars (r : Reader) : List Char := r.fields.flatMap String.toList ++ r.field

@[simp] theorem chars_saveField : (r.saveField st).chars = r.chars := by
  simp [chars, saveField]

@[simp] theorem chars_endLine : r.endLine.chars = r.chars := by
  unfold endLine
  split
  · exact chars_saveField
  · exact chars_saveField
  · exact chars_saveField
  · rfl
  · rfl
  · rfl

theorem addChar_eq_ok :
    r.addChar d c st = .ok r' ↔
      r.field.length < d.fieldLimit ∧ r' = { r with state := st, field := r.field ++ [c] } := by
  unfold addChar
  split_ifs with h
  · simp only [false_iff, not_and]
    omega
  · simp only [Except.ok.injEq]
    constructor
    · rintro rfl
      exact ⟨by omega, rfl⟩
    · rintro ⟨-, rfl⟩
      rfl

/-- A character ends a field, ends the line, is a quote that is not part of the field, or becomes
the next character of the field. -/
theorem step_cases (h : r.step d c = .ok r') :
    (∃ st, r' = r.saveField st ∧ (st = .eatCrnl ∨ st = .startField)) ∨
    ((r.state = .startRecord ∨ r.state = .eatCrnl) ∧ r' = { r with state := .eatCrnl }) ∨
    (∃ st, c = d.quotechar ∧ r' = { r with state := st }) ∨
    ∃ st, r.field.length < d.fieldLimit ∧ r' = { r with state := st, field := r.field ++ [c] } ∧
      (r.state = .inQuotedField ∨ r.state = .quoteInQuotedField ∨
        st = .inField ∧ (c ≠ d.delimiter ∧ isNewline c = false) ∧
          (r.state ≠ .inField → c ≠ d.quotechar)) := by
  have hstart : r.startField d c = .ok r' →
      (∃ st, r' = r.saveField st ∧ (st = .eatCrnl ∨ st = .startField)) ∨
      (∃ st, c = d.quotechar ∧ r' = { r with state := st }) ∨
      r.field.length < d.fieldLimit ∧ r' = { r with state := .inField, field := r.field ++ [c] } ∧
        (c ≠ d.delimiter ∧ isNewline c = false) ∧ c ≠ d.quotechar := by
    intro h
    unfold startField at h
    split_ifs at h with hnl hq hd
    · exact .inl ⟨_, (Except.ok.inj h).symm, .inl rfl⟩
    · exact .inr (.inl ⟨_, hq, (Except.ok.inj h).symm⟩)
    · exact .inl ⟨_, (Except.ok.inj h).symm, .inr rfl⟩
    · obtain ⟨hlen, hr'⟩ := addChar_eq_ok.mp h
      exact .inr (.inr ⟨hlen, hr', ⟨hd, by simpa using hnl⟩, hq⟩)
  unfold step at h
  cases hs : r.state <;> simp only [hs] at h
  case startRecord =>
    split_ifs at h with hnl
    · exact .inr (.inl ⟨.inl rfl, (Except.ok.inj h).symm⟩)
    · rcases hstart h with h | h | ⟨hlen, hr', hc, hq⟩
      · exact .inl h
      · exact .inr (.inr (.inl h))
      · exact .inr (.inr (.inr ⟨_, hlen, hr', .inr (.inr ⟨rfl, hc, fun _ => hq⟩)⟩))
  case startField =>
    rcases hstart h with h | h | ⟨hlen, hr', hc, hq⟩
    · exact .inl h
    · exact .inr (.inr (.inl h))
    · exact .inr (.inr (.inr ⟨_, hlen, hr', .inr (.inr ⟨rfl, hc, fun _ => hq⟩)⟩))
  case inField =>
    split_ifs at h with hnl hd
    · exact .inl ⟨_, (Except.ok.inj h).symm, .inl rfl⟩
    · exact .inl ⟨_, (Except.ok.inj h).symm, .inr rfl⟩
    · obtain ⟨hlen, hr'⟩ := addChar_eq_ok.mp h
      have hc : c ≠ d.delimiter ∧ isNewline c = false := ⟨hd, by simpa using hnl⟩
      exact .inr (.inr (.inr ⟨_, hlen, hr', .inr (.inr ⟨rfl, hc, fun h => absurd rfl h⟩)⟩))
  case inQuotedField =>
    split_ifs at h with hq
    · exact .inr (.inr (.inl ⟨_, hq, (Except.ok.inj h).symm⟩))
    · obtain ⟨hlen, hr'⟩ := addChar_eq_ok.mp h
      exact .inr (.inr (.inr ⟨_, hlen, hr', .inl rfl⟩))
  case quoteInQuotedField =>
    split_ifs at h with hq hd hnl
    · obtain ⟨hlen, hr'⟩ := addChar_eq_ok.mp h
      exact .inr (.inr (.inr ⟨_, hlen, hr', .inr (.inl rfl)⟩))
    · exact .inl ⟨_, (Except.ok.inj h).symm, .inr rfl⟩
    · exact .inl ⟨_, (Except.ok.inj h).symm, .inl rfl⟩
    · obtain ⟨hlen, hr'⟩ := addChar_eq_ok.mp h
      exact .inr (.inr (.inr ⟨_, hlen, hr', .inr (.inl rfl)⟩))
  case eatCrnl =>
    split_ifs at h with hnl
    · obtain rfl := Except.ok.inj h
      exact .inr (.inl ⟨.inr rfl, by rw [← hs]⟩)

/-- Nothing was read as a quoted field. -/
structure Clean (d : Dialect) (r : Reader) : Prop where
  fields : ∀ s ∈ r.fields, Plain d s.toList
  field : Plain d r.field
  unquoted : r.state ≠ .inQuotedField ∧ r.state ≠ .quoteInQuotedField
  started : r.field = [] ↔ r.state ≠ .inField

theorem clean_empty : Clean d {} :=
  ⟨by simp, plain_nil, by simp, by simp⟩

theorem Clean.saveField (h : Clean d r)
    (hst : st = .eatCrnl ∨ st = .startField ∨ st = .startRecord) : Clean d (r.saveField st) where
  fields := by
    intro s hs
    rcases List.mem_append.mp hs with hs | hs
    · exact h.fields s hs
    · rw [List.mem_singleton.mp hs, String.toList_ofList]
      exact h.field
  field := plain_nil
  unquoted := by rcases hst with rfl | rfl | rfl <;> simp [Reader.saveField]
  started := by rcases hst with rfl | rfl | rfl <;> simp [Reader.saveField]

/-- Each character goes into a field or is dropped. -/
theorem chars_step (h : r.step d c = .ok r') : r'.chars = r.chars ∨ r'.chars = r.chars ++ [c] := by
  rcases step_cases h with ⟨st, rfl, -⟩ | ⟨-, rfl⟩ | ⟨st, -, rfl⟩ | ⟨st, -, rfl, -⟩
  · exact .inl chars_saveField
  · exact .inl rfl
  · exact .inl rfl
  · exact .inr (by simp [chars])

/-- A clean reader stays clean, or drops a quote. -/
theorem Clean.step (hr : Clean d r) (h : r.step d c = .ok r') :
    Clean d r' ∨ c = d.quotechar ∧ r'.chars = r.chars := by
  rcases step_cases h with ⟨st, rfl, hst⟩ | ⟨hs, rfl⟩ | ⟨st, hc, rfl⟩ | ⟨st, hlen, rfl, hs⟩
  · left
    rcases hst with rfl | rfl
    · exact hr.saveField (.inl rfl)
    · exact hr.saveField (.inr (.inl rfl))
  · left
    have hfield : r.field = [] := by
      apply hr.started.mpr
      rcases hs with hs | hs <;> simp [hs]
    exact ⟨hr.fields, hr.field, by simp, by simp [hfield]⟩
  · exact .inr ⟨hc, rfl⟩
  · left
    rcases hs with hs | hs | ⟨rfl, hc, hquote⟩
    · exact absurd hs hr.unquoted.1
    · exact absurd hs hr.unquoted.2
    · have hfield : Plain d (r.field ++ [c]) :=
        hr.field.append hlen hc fun hnil => hquote (hr.started.mp hnil)
      exact ⟨hr.fields, hfield, by simp, by simp⟩

/-- The quotes of the fields come from the text, and as long as none is dropped the reader is
clean. -/
theorem count_foldlM (h : cs.foldlM (step d) r = .ok r') :
    r'.chars.count d.quotechar ≤ r.chars.count d.quotechar + cs.count d.quotechar ∧
      (Clean d r → Clean d r' ∨
        r'.chars.count d.quotechar < r.chars.count d.quotechar + cs.count d.quotechar) := by
  induction cs generalizing r with
  | nil =>
    obtain rfl := Except.pure_eq_ok.mp h
    exact ⟨by simp, fun hr => .inl hr⟩
  | cons c cs ih =>
    rw [List.foldlM_cons] at h
    obtain ⟨r₁, h₁, h⟩ := Except.bind_eq_ok.mp h
    obtain ⟨hle, hclean⟩ := ih h
    have hcount : (c :: cs).count d.quotechar =
        cs.count d.quotechar + [c].count d.quotechar := by
      rw [← List.singleton_append, List.count_append, Nat.add_comm]
    have hstep : r₁.chars.count d.quotechar ≤
        r.chars.count d.quotechar + [c].count d.quotechar := by
      rcases chars_step h₁ with h₁ | h₁
      · rw [h₁]
        omega
      · rw [h₁, List.count_append]
    refine ⟨by omega, fun hr => ?_⟩
    rcases hr.step h₁ with hr₁ | ⟨rfl, hkept⟩
    · rcases hclean hr₁ with h | h
      · exact .inl h
      · exact .inr (by omega)
    · right
      rw [hkept] at hle
      rw [hcount, List.count_singleton_self]
      omega

theorem Clean.endLine (h : Clean d r) : Clean d r.endLine := by
  unfold Reader.endLine
  cases hs : r.state with
  | startRecord => exact h
  | startField => exact h.saveField (.inr (.inr rfl))
  | inField => exact h.saveField (.inr (.inr rfl))
  | inQuotedField => exact absurd hs h.unquoted.1
  | quoteInQuotedField => exact absurd hs h.unquoted.2
  | eatCrnl => exact ⟨h.fields, h.field, by simp, by simpa [hs] using h.started⟩

theorem count_readLine (h : r.readLine d cs = .ok r') :
    r'.chars.count d.quotechar ≤ r.chars.count d.quotechar + cs.count d.quotechar ∧
      (Clean d r → Clean d r' ∨
        r'.chars.count d.quotechar < r.chars.count d.quotechar + cs.count d.quotechar) := by
  obtain ⟨r₁, h₁, rfl⟩ := Except.map_eq_ok.mp h
  obtain ⟨hle, hclean⟩ := count_foldlM h₁
  rw [chars_endLine]
  refine ⟨hle, fun hr => ?_⟩
  rcases hclean hr with hr₁ | hlt
  · exact .inl hr₁.endLine
  · exact .inr hlt

end Reader

/-! ## What is read back -/

/-- The characters of the fields of some records. -/
def contents (rs : List (List String)) : List Char := rs.flatten.flatMap String.toList

theorem contents_cons (cells : List String) (rs : List (List String)) :
    contents (cells :: rs) = cells.flatMap String.toList ++ contents rs := by
  simp [contents]

open Reader in
/-- A quote that is not part of a field is lost, and without one the fields are plain. -/
theorem count_records {r : Reader} {ls : List (List Char)} {rs : List (List String)}
    (h : records d r ls = .ok rs) :
    (contents rs).count d.quotechar ≤
        r.chars.count d.quotechar + ls.flatten.count d.quotechar ∧
      (Clean d r → (∀ cells ∈ rs, ∀ s ∈ cells, Plain d s.toList) ∨
        (contents rs).count d.quotechar <
          r.chars.count d.quotechar + ls.flatten.count d.quotechar) := by
  induction ls generalizing r rs with
  | nil =>
    rw [records] at h
    obtain rfl := Except.ok.inj h
    split_ifs
    · have hc : contents [(r.saveField .startRecord).fields] = r.chars := by
        simp [contents, saveField, chars]
      refine ⟨by rw [hc]; simp, fun hr => .inl fun cells hcells => ?_⟩
      rw [List.mem_singleton.mp hcells]
      exact (hr.saveField (.inr (.inr rfl))).fields
    · exact ⟨by simp [contents], fun _ => .inl (by simp)⟩
  | cons line ls ih =>
    rw [records] at h
    obtain ⟨r₁, h₁, h⟩ := Except.bind_eq_ok.mp h
    obtain ⟨hle₁, hclean₁⟩ := count_readLine h₁
    rw [List.flatten_cons, List.count_append]
    split_ifs at h with hstate
    · obtain ⟨rs', hrs', h⟩ := Except.bind_eq_ok.mp h
      obtain rfl := Except.pure_eq_ok.mp h
      obtain ⟨hle, hclean⟩ := ih hrs'
      have hfields : (r₁.fields.flatMap String.toList).count d.quotechar ≤
          r₁.chars.count d.quotechar := by
        rw [chars, List.count_append]
        omega
      have hempty : (({} : Reader).chars).count d.quotechar = 0 := rfl
      rw [contents_cons, List.count_append]
      refine ⟨by omega, fun hr => ?_⟩
      rcases hclean₁ hr with hr₁ | hlt
      · rcases hclean clean_empty with hplain | hlt
        · left
          intro cells hcells
          rcases List.mem_cons.mp hcells with rfl | hcells
          · exact hr₁.fields
          · exact hplain cells hcells
        · exact .inr (by omega)
      · exact .inr (by omega)
    · obtain ⟨hle, hclean⟩ := ih h
      refine ⟨by omega, fun hr => ?_⟩
      rcases hclean₁ hr with hr₁ | hlt
      · rcases hclean hr₁ with hplain | hlt
        · exact .inl hplain
        · exact .inr (by omega)
      · exact .inr (by omega)

/-! ## Plain fields are read back -/

/-- The fields of a record, written as they are. -/
def joined (d : Dialect) (fields : List String) : List Char :=
  [d.delimiter].intercalate (fields.map String.toList)

@[simp] theorem joined_singleton (s : String) : joined d [s] = s.toList := by
  simp [joined]

theorem joined_cons (s t : String) (fields : List String) :
    joined d (s :: t :: fields) = s.toList ++ d.delimiter :: joined d (t :: fields) := by
  simp [joined]

theorem count_joined {q : Char} (hq : q ≠ d.delimiter) (fields : List String) :
    (joined d fields).count q = (fields.flatMap String.toList).count q := by
  induction fields with
  | nil => rfl
  | cons s fields ih =>
    cases fields with
    | nil => simp
    | cons t fields =>
      rw [joined_cons, List.count_append, List.count_cons_of_ne hq.symm, ih, ← List.count_append,
        ← List.flatMap_cons]

theorem not_mem_joined {c : Char} (hc : c ≠ d.delimiter) {fields : List String}
    (h : ∀ s ∈ fields, c ∉ s.toList) : c ∉ joined d fields := by
  rw [← List.count_eq_zero, count_joined hc, List.count_eq_zero]
  intro hmem
  obtain ⟨s, hs, hcs⟩ := List.mem_flatMap.mp hmem
  exact h s hs hcs

theorem Plain.newline_not_mem {s : List Char} (h : Plain d s) : '\n' ∉ s :=
  fun hmem => by simpa [isNewline] using (h.chars _ hmem).2

theorem newline_not_mem_joined {fields : List String} (h : ∀ s ∈ fields, Plain d s.toList) :
    '\n' ∉ joined d fields :=
  not_mem_joined d.delimiter_ne_newline.1.symm fun s hs => (h s hs).newline_not_mem

namespace Reader

variable {r : Reader} {s : List Char}

theorem foldlM_inField (hs : ∀ c ∈ s, c ≠ d.delimiter ∧ isNewline c = false)
    (hstate : r.state = .inField) (hlen : r.field.length + s.length ≤ d.fieldLimit) :
    s.foldlM (step d) r = .ok { r with field := r.field ++ s } := by
  induction s generalizing r with
  | nil => simp [pure, Except.pure]
  | cons c s ih =>
    obtain ⟨hd, hnl⟩ := hs c List.mem_cons_self
    rw [List.length_cons] at hlen
    have hstep : r.step d c = .ok { r with field := r.field ++ [c] } := by
      simp only [step, hstate, hnl, hd, if_false, Bool.false_eq_true]
      rw [addChar, if_neg (by omega)]
    rw [List.foldlM_cons, hstep]
    have hrest := ih (r := { r with field := r.field ++ [c] })
      (fun b hb => hs b (List.mem_cons_of_mem _ hb)) hstate (by simp; omega)
    simpa [bind, Except.bind] using hrest

/-- A plain field is read as it is. -/
theorem foldlM_plain (hs : Plain d s) (hstate : r.state = .startField) (hfield : r.field = []) :
    ∃ st, s.foldlM (step d) r = .ok { r with state := st, field := s } ∧
      (st = .startField ∨ st = .inField) := by
  cases s with
  | nil =>
    obtain ⟨st, field, fields⟩ := r
    cases hstate
    cases hfield
    exact ⟨.startField, rfl, .inl rfl⟩
  | cons c s =>
    obtain ⟨hd, hnl⟩ := hs.chars c List.mem_cons_self
    have hq : c ≠ d.quotechar := by simpa using hs.head
    have hlen := hs.length
    rw [List.length_cons] at hlen
    have hstep : r.step d c = .ok { r with state := .inField, field := [c] } := by
      simp only [step, hstate, startField, hnl, hd, hq, if_false, Bool.false_eq_true]
      rw [addChar, hfield, if_neg (by simp; omega)]
      rfl
    refine ⟨.inField, ?_, .inr rfl⟩
    rw [List.foldlM_cons, hstep]
    exact foldlM_inField (r := { r with state := .inField, field := [c] })
      (fun b hb => hs.chars b (List.mem_cons_of_mem _ hb)) rfl (by simp; omega)

/-- Plain fields are read up to the end of the last one. -/
theorem foldlM_joined {t : String} {fields : List String} (h : ∀ s ∈ t :: fields, Plain d s.toList)
    (hstate : r.state = .startField) (hfield : r.field = []) :
    ∃ r', (joined d (t :: fields)).foldlM (step d) r = .ok r' ∧
      (r'.state = .startField ∨ r'.state = .inField) ∧
      r'.fields ++ [String.ofList r'.field] = r.fields ++ t :: fields := by
  induction fields generalizing t r with
  | nil =>
    obtain ⟨st, hrun, hst⟩ := foldlM_plain (h t List.mem_cons_self) hstate hfield
    rw [joined_singleton]
    exact ⟨_, hrun, hst, by simp⟩
  | cons u fields ih =>
    obtain ⟨st, hrun, hst⟩ := foldlM_plain (h t List.mem_cons_self) hstate hfield
    let r₁ : Reader := { r with state := st, field := t.toList }
    have hdel : isNewline d.delimiter = false := by
      simp [isNewline, d.delimiter_ne_newline]
    have hstep : step d r₁ d.delimiter = .ok (r₁.saveField .startField) := by
      rcases hst with rfl | rfl
      · simp [r₁, step, startField, hdel, d.delimiter_ne_quotechar]
      · simp [r₁, step, hdel]
    obtain ⟨r', hrest, hr', hfields⟩ := ih (t := u) (r := r₁.saveField .startField)
      (fun s hs => h s (List.mem_cons_of_mem _ hs)) rfl rfl
    refine ⟨r', ?_, hr', ?_⟩
    · rw [joined_cons, List.foldlM_append, hrun]
      simp only [bind, Except.bind, List.foldlM_cons]
      rw [hstep]
      exact hrest
    · rw [hfields]
      simp [r₁, saveField]

/-- At the start of a record the first character is read as at the start of a field. -/
theorem foldlM_startRecord (hs : s ≠ []) (hnl : ∀ c, s.head? = some c → isNewline c = false) :
    s.foldlM (step d) {} = s.foldlM (step d) { state := .startField } := by
  cases s with
  | nil => exact absurd rfl hs
  | cons c s =>
    have hc : isNewline c = false := hnl c rfl
    have hstep : step d {} c = step d { state := .startField } c := by
      simp [step, startField, hc, saveField, addChar]
    rw [List.foldlM_cons, List.foldlM_cons, hstep]

end Reader

open Reader

theorem isNewline_head_joined {t : String} {fields : List String}
    (h : ∀ s ∈ t :: fields, Plain d s.toList) {c : Char}
    (hc : (joined d (t :: fields)).head? = some c) : isNewline c = false := by
  have hmem := List.mem_of_mem_head? hc
  rcases eq_or_ne c d.delimiter with rfl | hdel
  · simp [isNewline, d.delimiter_ne_newline]
  · by_contra hnl
    refine not_mem_joined hdel (fun s hs hcs => hnl ?_) hmem
    exact ((h s hs).chars c hcs).2

/-- A line of plain fields is a record, also without its `\n`. -/
theorem readLine_joined {fields : List String} (h : ∀ s ∈ fields, Plain d s.toList)
    (hne : joined d fields ≠ []) {tail : List Char} (htail : tail = [] ∨ tail = ['\n']) :
    ∃ r, readLine d {} (joined d fields ++ tail) = .ok r ∧ r.state = .startRecord ∧
      r.fields = fields := by
  cases fields with
  | nil => exact absurd rfl hne
  | cons t fields =>
    obtain ⟨r, hrun, hstate, hfields⟩ :=
      foldlM_joined (r := { state := .startField }) h rfl rfl
    rw [← foldlM_startRecord hne fun c hc => isNewline_head_joined h hc] at hrun
    rw [readLine, List.foldlM_append, hrun]
    rcases htail with rfl | rfl
    · refine ⟨r.endLine, rfl, ?_⟩
      rcases hstate with hs | hs <;> simpa [endLine, hs, saveField] using hfields
    · refine ⟨r.saveField .startRecord, ?_, rfl, hfields⟩
      rcases hstate with hs | hs <;>
        simp [bind, Except.bind, pure, Except.pure, Except.map, step, Reader.startField, hs,
          isNewline, endLine, saveField]

/-- Two lines of plain fields are two records. -/
theorem records_joined {header cells : List String}
    (h : ∀ s ∈ header ++ cells, Plain d s.toList) (hheader : joined d header ≠ [])
    (hcells : joined d cells ≠ []) :
    records d {} (lines (joined d header ++ '\n' :: joined d cells)) = .ok [header, cells] := by
  have hplain : ∀ s ∈ header, Plain d s.toList := fun s hs => h s (List.mem_append_left _ hs)
  have hplain' : ∀ s ∈ cells, Plain d s.toList := fun s hs => h s (List.mem_append_right _ hs)
  rw [lines_append_newline (newline_not_mem_joined hplain),
    lines_of_not_mem (newline_not_mem_joined hplain') hcells]
  obtain ⟨r, hr, hstate, rfl⟩ := readLine_joined hplain hheader (.inr rfl)
  obtain ⟨r', hr', hstate', rfl⟩ := readLine_joined hplain' hcells (.inl rfl)
  rw [List.append_nil] at hr'
  simp [records, hr, hr', hstate, hstate', bind, Except.bind, pure, Except.pure]

end Csv
