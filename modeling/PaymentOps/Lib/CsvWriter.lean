import PaymentOps.Lib.Csv

/-!
# CSV, written

The writer of Python's `csv` module with its default options: a field is quoted when it has to be,
and a record ends with `\r\n`.

* `writeRow` is one record, `write` are all;
* `Takes` is what the reader makes of a part of the text;
* `records_write_iff`: the records are read back as they were exactly when no field is longer than
  the reader allows.
-/

namespace Csv

variable {d : Dialect}

/-- The character is written between quotes only. -/
def isSpecial (d : Dialect) (c : Char) : Bool :=
  c == d.delimiter || c == d.quotechar || isNewline c

/-- The characters of a quoted field, quotes twice. -/
def doubled (d : Dialect) (s : List Char) : List Char :=
  s.flatMap fun c => if c = d.quotechar then [c, c] else [c]

/-- A field, quoted where it must be. -/
def writeField (d : Dialect) (s : String) : List Char :=
  if s.toList.any (isSpecial d) then d.quotechar :: doubled d s.toList ++ [d.quotechar]
  else s.toList

/-- The fields of a record.  A record of one empty field is told from an empty record by quotes. -/
def writeFields (d : Dialect) (cells : List String) : List Char :=
  let text := [d.delimiter].intercalate (cells.map (writeField d))
  if text.isEmpty && ! cells.isEmpty then [d.quotechar, d.quotechar] else text

/-- `writer.writerow(cells)` -/
def writeRow (d : Dialect) (cells : List String) : List Char := writeFields d cells ++ ['\r', '\n']

/-- Rows, one after the other. -/
def write (d : Dialect) (rows : List (List String)) : List Char := rows.flatMap (writeRow d)

/-! ## Parts of a text -/

/-- The part takes the reader from one state to the other, whatever follows it. -/
def Takes (d : Dialect) (r : Reader) (part : List Char) (r' : Reader) : Prop :=
  ∀ rest, rest ≠ [] → records d r (lines (part ++ rest)) = records d r' (lines rest)

namespace Takes

open Reader

variable {r r₁ r₂ : Reader} {part part' : List Char} {c : Char}

theorem nil (r : Reader) : Takes d r [] r := fun _ _ => rfl

theorem append (h : Takes d r part r₁) (h' : Takes d r₁ part' r₂) :
    Takes d r (part ++ part') r₂ := by
  intro rest hne
  rw [List.append_assoc, h _ (by simp [hne])]
  exact h' rest hne

/-- A line goes on after a character. -/
theorem records_cons (hc : c ≠ '\n') (h : r.step d c = .ok r₁) {rest : List Char}
    (hne : rest ≠ []) : records d r (lines (c :: rest)) = records d r₁ (lines rest) := by
  have hreadLine : ∀ line, r.readLine d (c :: line) = r₁.readLine d line := by
    intro line
    rw [readLine, List.foldlM_cons, h]
    rfl
  rw [lines, if_neg hc]
  cases hlines : lines rest with
  | nil =>
    have hrest := flatten_lines rest
    rw [hlines] at hrest
    exact absurd hrest.symm hne
  | cons line ls =>
    dsimp only
    rw [records, records, hreadLine]

theorem char (hc : c ≠ '\n') (h : r.step d c = .ok r₁) : Takes d r [c] r₁ :=
  fun _ hne => records_cons hc h hne

theorem cons (hc : c ≠ '\n') (h : r.step d c = .ok r₁) (hrest : Takes d r₁ part r₂) :
    Takes d r (c :: part) r₂ :=
  (char hc h).append hrest

/-- A line may end in a quoted field. -/
theorem newline (hstate : r.state = .inQuotedField) (hlen : r.field.length < d.fieldLimit) :
    Takes d r ['\n'] { r with field := r.field ++ ['\n'] } := by
  intro rest _
  have hstep : r.step d '\n' = .ok { r with field := r.field ++ ['\n'] } := by
    simp only [step, hstate, d.quotechar_ne_newline.1.symm, if_false]
    rw [addChar, if_neg (by omega)]
  have hread : r.readLine d ['\n'] = .ok { r with field := r.field ++ ['\n'] } := by
    rw [readLine, List.foldlM_cons, hstep]
    simp [bind, Except.bind, pure, Except.pure, Except.map, endLine, hstate]
  rw [List.singleton_append, lines, if_pos rfl, records, hread]
  simp [bind, Except.bind, hstate]

/-- Characters within a line. -/
theorem of_foldlM (hpart : '\n' ∉ part) (h : part.foldlM (step d) r = .ok r₁) :
    Takes d r part r₁ := by
  induction part generalizing r with
  | nil =>
    obtain rfl := Except.pure_eq_ok.mp h
    exact nil r
  | cons c part ih =>
    obtain ⟨hc, hpart⟩ := not_or.mp (List.mem_cons.not.mp hpart)
    rw [List.foldlM_cons] at h
    obtain ⟨r', hstep, h⟩ := Except.bind_eq_ok.mp h
    exact cons (Ne.symm hc) hstep (ih hpart h)

end Takes

/-! ## One field -/

section

open Reader

variable {r : Reader} {s : List Char}

/-- Between quotes any character is read as it was written. -/
theorem takes_doubled (hstate : r.state = .inQuotedField)
    (hlen : r.field.length + s.length ≤ d.fieldLimit) :
    Takes d r (doubled d s) { r with field := r.field ++ s } := by
  induction s generalizing r with
  | nil => simpa [doubled] using Takes.nil r
  | cons c s ih =>
    rw [List.length_cons] at hlen
    have hrest : Takes d { r with field := r.field ++ [c] } (doubled d s)
        { r with field := r.field ++ c :: s } := by
      have hnext := ih (r := { r with field := r.field ++ [c] }) hstate (by simp; omega)
      simpa using hnext
    have hsplit : doubled d (c :: s) =
        (if c = d.quotechar then [c, c] else [c]) ++ doubled d s := List.flatMap_cons
    rw [hsplit]
    refine Takes.append ?_ hrest
    by_cases hq : c = d.quotechar
    · -- the first quote might end the field, the second one does not
      have hnl : c ≠ '\n' := hq ▸ d.quotechar_ne_newline.1
      have hfirst : r.step d c = .ok { r with state := .quoteInQuotedField } := by
        simp [step, hstate, hq]
      have hsecond : step d { r with state := .quoteInQuotedField } c =
          .ok { r with field := r.field ++ [c] } := by
        simp only [step, hq, if_true]
        rw [addChar, if_neg (by dsimp only; omega), hstate]
      rw [if_pos hq]
      exact .cons hnl hfirst (.char hnl hsecond)
    · rw [if_neg hq]
      by_cases hnl : c = '\n'
      · rw [hnl]
        exact .newline hstate (by omega)
      · have hstep : r.step d c = .ok { r with field := r.field ++ [c] } := by
          simp only [step, hstate, hq, if_false]
          rw [addChar, if_neg (by omega)]
        exact .char hnl hstep

/-- A reader that has read a field. -/
def FieldRead (r : Reader) (cells : List String) (s : String) : Prop :=
  (r.state = .startField ∨ r.state = .inField ∨ r.state = .quoteInQuotedField) ∧
    r.field = s.toList ∧ r.fields = cells

/-- A field is read as it was written. -/
theorem takes_writeField (cells : List String) {s : String}
    (hlen : s.toList.length ≤ d.fieldLimit) :
    ∃ r, Takes d { state := .startField, fields := cells } (writeField d s) r ∧
      FieldRead r cells s := by
  unfold writeField
  split_ifs with hspecial
  · let opened : Reader := { state := .inQuotedField, fields := cells }
    have hopen : step d { state := .startField, fields := cells } d.quotechar = .ok opened := by
      simp [step, startField, isNewline, d.quotechar_ne_newline, opened]
    have hclose : step d { opened with field := s.toList } d.quotechar =
        .ok { opened with state := .quoteInQuotedField, field := s.toList } := by
      simp [step, opened]
    have hbody := takes_doubled (r := opened) (s := s.toList) rfl (by simpa [opened] using hlen)
    refine ⟨_, .cons d.quotechar_ne_newline.1 hopen (hbody.append
      (.char d.quotechar_ne_newline.1 hclose)), .inr (.inr rfl), rfl, rfl⟩
  · have hplain : Plain d s.toList := by
      have hchars : ∀ c ∈ s.toList, c ≠ d.delimiter ∧ c ≠ d.quotechar ∧ isNewline c = false := by
        intro c hc
        have hc' : ¬ isSpecial d c := fun h => hspecial (List.any_eq_true.mpr ⟨c, hc, h⟩)
        simpa [isSpecial, and_assoc] using hc'
      refine ⟨fun c hc => ⟨(hchars c hc).1, (hchars c hc).2.2⟩, fun hhead => ?_, hlen⟩
      exact (hchars _ (List.mem_of_mem_head? hhead)).2.1 rfl
    obtain ⟨st, hrun, hst⟩ := foldlM_plain (r := { state := .startField, fields := cells }) hplain
      rfl rfl
    exact ⟨_, .of_foldlM hplain.newline_not_mem hrun, hst.imp id .inl, rfl, rfl⟩

/-! ## One record -/

/-- The fields of a record, as they are written one after the other. -/
def separated (d : Dialect) (cells : List String) : List Char :=
  [d.delimiter].intercalate (cells.map (writeField d))

theorem separated_cons (s t : String) (cells : List String) :
    separated d (s :: t :: cells) = writeField d s ++ d.delimiter :: separated d (t :: cells) := by
  simp [separated]

theorem takes_separated (done : List String) {t : String} {cells : List String}
    (hlen : ∀ s ∈ t :: cells, s.toList.length ≤ d.fieldLimit) :
    ∃ r init last, Takes d { state := .startField, fields := done } (separated d (t :: cells)) r ∧
      FieldRead r init last ∧ init ++ [last] = done ++ t :: cells := by
  induction cells generalizing done t with
  | nil =>
    obtain ⟨r, htakes, hread⟩ := takes_writeField done (hlen t List.mem_cons_self)
    exact ⟨r, done, t, by simpa [separated] using htakes, hread, rfl⟩
  | cons u cells ih =>
    obtain ⟨r, htakes, hstate, hfield, hfields⟩ :=
      takes_writeField done (hlen t List.mem_cons_self)
    have hdel : isNewline d.delimiter = false := by
      simp [isNewline, d.delimiter_ne_newline]
    have hsave : r.saveField .startField = { state := .startField, fields := done ++ [t] } := by
      rw [saveField, hfield, hfields, String.ofList_toList]
    have hstep : r.step d d.delimiter =
        .ok { state := .startField, fields := done ++ [t] } := by
      rw [← hsave]
      rcases hstate with hs | hs | hs <;>
        simp [step, Reader.startField, hs, hdel, d.delimiter_ne_quotechar]
    obtain ⟨r', init, last, hrest, hread, heq⟩ := ih (done ++ [t]) (t := u)
      fun s hs => hlen s (List.mem_cons_of_mem _ hs)
    refine ⟨r', init, last, ?_, hread, by simpa using heq⟩
    rw [separated_cons]
    exact htakes.append (.cons d.delimiter_ne_newline.1 hstep hrest)

/-- The line ends, and the record with it. -/
theorem records_endOfRecord {r : Reader} (hstate : r.state = .eatCrnl) (rest : List Char) :
    records d r (lines ('\n' :: rest)) = (records d {} (lines rest)).map (r.fields :: ·) := by
  have hread : r.readLine d ['\n'] = .ok { r with state := .startRecord } := by
    have hstep : r.step d '\n' = .ok r := by
      simp [step, hstate, isNewline]
    rw [readLine, List.foldlM_cons, hstep]
    simp [bind, Except.bind, pure, Except.pure, Except.map, endLine, hstate]
  rw [lines, if_pos rfl, records, hread]
  simp only [bind, Except.bind, if_true]
  cases records d {} (lines rest) <;> rfl

/-- A field ends at the end of its line. -/
theorem FieldRead.step_return {cells : List String} {s : String} (h : FieldRead r cells s) :
    r.step d '\r' = .ok { state := .eatCrnl, fields := cells ++ [s] } := by
  obtain ⟨hstate, hfield, hfields⟩ := h
  have hsave : r.saveField .eatCrnl = { state := .eatCrnl, fields := cells ++ [s] } := by
    rw [saveField, hfield, hfields, String.ofList_toList]
  have hq : '\r' ≠ d.quotechar := d.quotechar_ne_newline.2.symm
  have hdel : '\r' ≠ d.delimiter := d.delimiter_ne_newline.2.symm
  rw [← hsave]
  rcases hstate with hs | hs | hs <;> simp [step, Reader.startField, hs, isNewline, hq, hdel]

/-- A record starts as a field does, unless the line is empty. -/
theorem records_startRecord {c : Char} (hc : isNewline c = false) (part : List Char) :
    records d {} (lines (c :: part)) = records d { state := .startField } (lines (c :: part)) := by
  have hnl : c ≠ '\n' := by
    rintro rfl
    cases hc
  have hread : ∀ line, readLine d {} (c :: line) =
      readLine d { state := .startField } (c :: line) := by
    intro line
    rw [readLine, readLine, foldlM_startRecord (List.cons_ne_nil c line)]
    rintro c' hc'
    cases hc'
    exact hc
  rw [lines, if_neg hnl]
  cases lines part <;> simp only [records, hread]

/-- No record but an empty one starts with the end of its line. -/
theorem isNewline_head_separated {t : String} {cells : List String} {c : Char}
    (hc : (separated d (t :: cells)).head? = some c) : isNewline c = false := by
  have hfield : ∀ c, (writeField d t).head? = some c → isNewline c = false := by
    intro c hc
    unfold writeField at hc
    split_ifs at hc with hspecial
    · cases hc
      simp [isNewline, d.quotechar_ne_newline]
    · by_contra hnl
      refine hspecial (List.any_eq_true.mpr ⟨c, List.mem_of_mem_head? hc, ?_⟩)
      simp [isSpecial, Bool.not_eq_false _ ▸ hnl]
  cases cells with
  | nil => exact hfield c (by simpa [separated] using hc)
  | cons u cells =>
    rw [separated_cons] at hc
    cases hwritten : writeField d t with
    | nil =>
      rw [hwritten] at hc
      cases hc
      simp [isNewline, d.delimiter_ne_newline]
    | cons b part =>
      rw [hwritten] at hc
      obtain rfl : b = c := Option.some.inj hc
      exact hfield b (by rw [hwritten]; rfl)

/-- Only a record of one empty field is written as an empty record is. -/
theorem eq_of_separated_eq_nil {t : String} {cells : List String}
    (h : separated d (t :: cells) = []) : t = "" ∧ cells = [] := by
  cases cells with
  | nil =>
    refine ⟨?_, rfl⟩
    rw [separated, List.map_singleton, List.intercalate_singleton, writeField] at h
    split_ifs at h
    · cases h
    · exact String.toList_inj.mp h
  | cons u cells =>
    rw [separated_cons] at h
    cases (List.append_eq_nil_iff.mp h).2

/-- What follows the last field of a record. -/
theorem records_lastField {init : List String} {last : String} (h : FieldRead r init last)
    (rest : List Char) : records d r (lines ('\r' :: '\n' :: rest)) =
      (records d {} (lines rest)).map ((init ++ [last]) :: ·) := by
  rw [Takes.records_cons (by decide) h.step_return (List.cons_ne_nil _ _)]
  exact records_endOfRecord rfl rest

/-- A record is read back, and the rest follows. -/
theorem records_writeRow {cells : List String}
    (hlen : ∀ s ∈ cells, s.toList.length ≤ d.fieldLimit) (rest : List Char) :
    records d {} (lines (writeRow d cells ++ rest)) =
      (records d {} (lines rest)).map (cells :: ·) := by
  have hend : ['\r', '\n'] ++ rest = '\r' :: '\n' :: rest := rfl
  rw [writeRow, List.append_assoc, hend]
  cases cells with
  | nil =>
    have hreturn : step d {} '\r' = .ok { state := .eatCrnl } := rfl
    have hempty : writeFields d [] = [] := rfl
    rw [hempty, List.nil_append, Takes.records_cons (by decide) hreturn (List.cons_ne_nil _ _)]
    exact records_endOfRecord rfl rest
  | cons t cells =>
    cases hseparated : separated d (t :: cells) with
    | nil =>
      obtain ⟨rfl, rfl⟩ := eq_of_separated_eq_nil hseparated
      have hquotes : writeFields d [""] = [d.quotechar, d.quotechar] := rfl
      have hnl : isNewline d.quotechar = false := by
        simp [isNewline, d.quotechar_ne_newline]
      have hopen : step d { state := .startField } d.quotechar =
          .ok { state := .inQuotedField } := by
        simp [step, Reader.startField, hnl]
      have hclose : step d { state := .inQuotedField } d.quotechar =
          .ok { state := .quoteInQuotedField } := by
        simp [step]
      rw [hquotes]
      refine (records_startRecord hnl _).trans ?_
      rw [List.append_eq, List.singleton_append,
        Takes.records_cons d.quotechar_ne_newline.1 hopen (List.cons_ne_nil _ _),
        Takes.records_cons d.quotechar_ne_newline.1 hclose (List.cons_ne_nil _ _)]
      exact records_lastField ⟨.inr (.inr rfl), rfl, rfl⟩ rest
    | cons c part =>
      have hfields : writeFields d (t :: cells) = separated d (t :: cells) := by
        show (if (separated d (t :: cells)).isEmpty && _ then _ else separated d (t :: cells)) = _
        rw [hseparated]
        rfl
      have hnl : isNewline c = false :=
        isNewline_head_separated (congrArg List.head? hseparated)
      obtain ⟨r, init, last, htakes, hread, heq⟩ := takes_separated (d := d) [] hlen
      rw [hseparated] at htakes
      rw [hfields, hseparated, List.cons_append, records_startRecord hnl, ← List.cons_append,
        htakes _ (List.cons_ne_nil _ _), records_lastField hread, heq]
      rfl

end

/-! ## All records -/

/-- Records whose fields are not too long are read back as they were. -/
theorem records_write {rows : List (List String)}
    (hlen : ∀ cells ∈ rows, ∀ s ∈ cells, s.toList.length ≤ d.fieldLimit) :
    records d {} (lines (write d rows)) = .ok rows := by
  induction rows with
  | nil => rfl
  | cons cells rows ih =>
    have hwrite : write d (cells :: rows) = writeRow d cells ++ write d rows := List.flatMap_cons
    rw [hwrite, records_writeRow (hlen cells List.mem_cons_self),
      ih fun cells' h => hlen cells' (List.mem_cons_of_mem _ h)]
    rfl

/-- No field is longer than the limit. -/
structure Bounded (d : Dialect) (r : Reader) : Prop where
  field : r.field.length ≤ d.fieldLimit
  fields : ∀ s ∈ r.fields, s.toList.length ≤ d.fieldLimit

namespace Bounded

open Reader

variable {r r' : Reader} {cs : List Char}

theorem empty : Bounded d {} := ⟨Nat.zero_le _, fun _ hs => absurd hs List.not_mem_nil⟩

theorem saveField (h : Bounded d r) (st : State) : Bounded d (r.saveField st) where
  field := Nat.zero_le _
  fields := by
    intro s hs
    rcases List.mem_append.mp hs with hs | hs
    · exact h.fields s hs
    · rw [List.mem_singleton.mp hs, String.toList_ofList]
      exact h.field

theorem step (h : Bounded d r) {c : Char} (hstep : r.step d c = .ok r') : Bounded d r' := by
  rcases step_cases hstep with ⟨st, rfl, -⟩ | ⟨-, rfl⟩ | ⟨st, -, rfl⟩ | ⟨st, hlen, rfl, -⟩
  · exact h.saveField st
  · exact ⟨h.field, h.fields⟩
  · exact ⟨h.field, h.fields⟩
  · refine ⟨?_, h.fields⟩
    rw [List.length_append, List.length_singleton]
    omega

theorem foldlM (h : Bounded d r) (hrun : cs.foldlM (Reader.step d) r = .ok r') :
    Bounded d r' := by
  induction cs generalizing r with
  | nil =>
    obtain rfl := Except.pure_eq_ok.mp hrun
    exact h
  | cons c cs ih =>
    rw [List.foldlM_cons] at hrun
    obtain ⟨r₁, hstep, hrun⟩ := Except.bind_eq_ok.mp hrun
    exact ih (h.step hstep) hrun

theorem readLine (h : Bounded d r) (hrun : r.readLine d cs = .ok r') : Bounded d r' := by
  obtain ⟨r₁, hchars, rfl⟩ := Except.map_eq_ok.mp hrun
  have h₁ := h.foldlM hchars
  unfold endLine
  split
  · exact h₁.saveField _
  · exact h₁.saveField _
  · exact h₁.saveField _
  · exact ⟨h₁.field, h₁.fields⟩
  · exact h₁
  · exact h₁

/-- Nothing longer is ever read. -/
theorem records (h : Bounded d r) {ls : List (List Char)} {rows : List (List String)}
    (hrows : records d r ls = .ok rows) :
    ∀ cells ∈ rows, ∀ s ∈ cells, s.toList.length ≤ d.fieldLimit := by
  induction ls generalizing r rows with
  | nil =>
    rw [Csv.records] at hrows
    obtain rfl := Except.ok.inj hrows
    split_ifs
    · intro cells hcells
      obtain rfl := List.mem_singleton.mp hcells
      exact (h.saveField _).fields
    · exact fun cells hcells => absurd hcells List.not_mem_nil
  | cons line ls ih =>
    rw [Csv.records] at hrows
    obtain ⟨r₁, hread, hrows⟩ := Except.bind_eq_ok.mp hrows
    have h₁ := h.readLine hread
    split_ifs at hrows
    · obtain ⟨rows', hrows', hrows⟩ := Except.bind_eq_ok.mp hrows
      obtain rfl := Except.pure_eq_ok.mp hrows
      intro cells hcells
      rcases List.mem_cons.mp hcells with rfl | hcells
      · exact h₁.fields
      · exact ih empty hrows' cells hcells
    · exact ih h₁ hrows

end Bounded

/-- Records are read back as they were exactly when no field is longer than the reader allows. -/
theorem records_write_iff {rows : List (List String)} :
    records d {} (lines (write d rows)) = .ok rows ↔
      ∀ cells ∈ rows, ∀ s ∈ cells, s.toList.length ≤ d.fieldLimit :=
  ⟨fun h => Bounded.empty.records h, records_write⟩

end Csv
