import Mathlib.Data.List.Nodup
import PaymentOps.Lib.Csv

/-!
# One row, written and read

A header and a row of cells, written without quotes on two lines, are read back as that row exactly
when every name and every cell is plain and the row is not an empty line (`dictReader_iff`).
-/

namespace Csv

variable {d : Dialect} {header cells names cs : List String}

/-- The row in which each name has its cell. -/
def rowOf (header cells : List String) : Row :=
  (header.zip cells).map fun p => (some p.1, .text p.2)

/-- `dict(zip(fieldnames, row))` -/
def zipped (names cs : List String) : Row :=
  (names.zip cs).foldl (fun d p => d.set (some p.1) (.text p.2)) []

theorem toRow_eq (names cs : List String) :
    toRow names cs =
      if names.length < cs.length then (zipped names cs).set none (.rest (cs.drop names.length))
      else (names.drop cs.length).foldl (fun d name => d.set (some name) .missing)
        (zipped names cs) := rfl

/-! ## Distinct names -/

theorem foldl_set_of_nodup (ps : List (String × String)) (acc : Row)
    (h : (acc.map (·.1) ++ ps.map fun p => some p.1).Nodup) :
    ps.foldl (fun d p => d.set (some p.1) (.text p.2)) acc =
      acc ++ ps.map fun p => (some p.1, .text p.2) := by
  induction ps generalizing acc with
  | nil => simp
  | cons p ps ih =>
    rw [List.map_cons] at h
    have hnew : acc.get (some p.1) = none := by
      refine Dict.get_eq_none.mpr fun q hq hqp => ?_
      have hdisjoint := (List.nodup_append.mp h).2.2 q.1 (List.mem_map_of_mem hq) (some p.1)
        List.mem_cons_self
      exact hdisjoint hqp
    rw [List.foldl_cons, Dict.set_of_get_eq_none _ hnew, ih]
    · simp
    · simpa using h

theorem toRow_eq_rowOf (hnodup : header.Nodup) (hlen : header.length = cells.length) :
    toRow header cells = rowOf header cells := by
  have hkeys : ((header.zip cells).map fun p => (some p.1 : Option String)).Nodup := by
    have hmap : ((header.zip cells).map fun p => (some p.1 : Option String)) =
        header.map some := by
      have hfst : (header.zip cells).map (·.1) = header := List.map_fst_zip hlen.le
      rw [← congrArg (List.map some) hfst, List.map_map]
      rfl
    rw [hmap]
    exact hnodup.map fun _ _ h => Option.some.inj h
  rw [toRow_eq, if_neg (by omega), List.drop_eq_nil_of_le (by omega), List.foldl_nil, zipped,
    foldl_set_of_nodup _ _ (by simpa using hkeys)]
  rfl

/-! ## The record behind a row -/

theorem mem_zipped {p : Option String × Value} (h : p ∈ zipped names cs) :
    ∃ name ∈ names, ∃ cell ∈ cs, p = (some name, .text cell) := by
  have hfold : ∀ (ps : List (String × String)) (acc : Row),
      p ∈ ps.foldl (fun d q => d.set (some q.1) (.text q.2)) acc →
        p ∈ acc ∨ ∃ q ∈ ps, p = (some q.1, .text q.2) := by
    intro ps
    induction ps with
    | nil => exact fun acc h => .inl h
    | cons q ps ih =>
      intro acc h
      rcases ih _ h with h | ⟨q', hq', hp⟩
      · rcases Dict.mem_of_mem_set h with h | h
        · exact .inl h
        · exact .inr ⟨q, List.mem_cons_self, h⟩
      · exact .inr ⟨q', List.mem_cons_of_mem q hq', hp⟩
  rcases hfold _ _ h with h | ⟨q, hq, hp⟩
  · cases h
  · exact ⟨q.1, (List.of_mem_zip hq).1, q.2, (List.of_mem_zip hq).2, hp⟩

theorem mem_rowOf {p : Option String × Value} (h : p ∈ rowOf header cells) :
    ∃ name cell, p = (some name, .text cell) := by
  obtain ⟨q, -, rfl⟩ := List.mem_map.mp h
  exact ⟨q.1, q.2, rfl⟩

theorem exists_cell (hlen : header.length = cells.length) {name : String} (h : name ∈ header) :
    ∃ cell, (some name, .text cell) ∈ rowOf header cells := by
  rw [← List.map_fst_zip hlen.le] at h
  obtain ⟨p, hp, rfl⟩ := List.mem_map.mp h
  exact ⟨p.2, List.mem_map_of_mem hp⟩

theorem exists_name (hlen : header.length = cells.length) {cell : String} (h : cell ∈ cells) :
    ∃ name, (some name, .text cell) ∈ rowOf header cells := by
  rw [← List.map_snd_zip hlen.ge] at h
  obtain ⟨p, hp, rfl⟩ := List.mem_map.mp h
  exact ⟨p.1, List.mem_map_of_mem hp⟩

/-- A record that gives a cell to each name has as many cells as there are names. -/
theorem zipped_of_toRow (h : toRow names cs = rowOf header cells) :
    zipped names cs = rowOf header cells ∧ names.length = cs.length := by
  rw [toRow_eq] at h
  split_ifs at h with hlt
  · have hmem := Dict.mem_set_self (zipped names cs) none (Value.rest (cs.drop names.length))
    rw [h] at hmem
    obtain ⟨name, cell, hp⟩ := mem_rowOf hmem
    cases hp
  · rcases List.eq_nil_or_concat (names.drop cs.length) with hdrop | ⟨init, last, hdrop⟩
    · rw [hdrop, List.foldl_nil] at h
      have hle := List.drop_eq_nil_iff.mp hdrop
      exact ⟨h, by omega⟩
    · rw [hdrop, List.concat_eq_append, List.foldl_append, List.foldl_cons, List.foldl_nil] at h
      have hmem := Dict.mem_set_self
        (init.foldl (fun d name => d.set (some name) .missing) (zipped names cs)) (some last)
        Value.missing
      rw [h] at hmem
      obtain ⟨name, cell, hp⟩ := mem_rowOf hmem
      cases hp

/-! ## Counting -/

/-- The characters of a key and its value. -/
def itemChars (p : Option String × Value) : List Char :=
  (p.1.map String.toList).getD [] ++
    match p.2 with
    | .text s => s.toList
    | .missing => []
    | .rest cells => cells.flatMap String.toList

theorem count_zipped_le (names cs : List String) (q : Char) :
    ((zipped names cs).flatMap itemChars).count q ≤
      (names.flatMap String.toList).count q + (cs.flatMap String.toList).count q := by
  have hfold : ∀ (names cs : List String) (acc : Row),
      (((names.zip cs).foldl (fun d p => d.set (some p.1) (.text p.2)) acc).flatMap
          itemChars).count q ≤
        (acc.flatMap itemChars).count q + (names.flatMap String.toList).count q +
          (cs.flatMap String.toList).count q := by
    intro names
    induction names with
    | nil => intro cs acc; simp
    | cons name names ih =>
      intro cs acc
      cases cs with
      | nil => simp
      | cons cell cs =>
        have hset := Dict.count_flatMap_set_le acc (some name) (Value.text cell) itemChars q
        have hitem : (itemChars (some name, .text cell)).count q =
            name.toList.count q + cell.toList.count q := by
          simp [itemChars]
        have hrest := ih cs (acc.set (some name) (.text cell))
        rw [List.zip_cons_cons, List.foldl_cons, List.flatMap_cons, List.flatMap_cons,
          List.count_append, List.count_append]
        dsimp only
        omega
  simpa [zipped] using hfold names cs []

theorem count_rowOf (hlen : header.length = cells.length) (q : Char) :
    ((rowOf header cells).flatMap itemChars).count q =
      (header.flatMap String.toList).count q + (cells.flatMap String.toList).count q := by
  induction header generalizing cells with
  | nil =>
    obtain rfl := List.length_eq_zero_iff.mp hlen.symm
    rfl
  | cons name header ih =>
    cases cells with
    | nil => simp at hlen
    | cons cell cells =>
      have hrest := @ih cells (by simpa using hlen)
      rw [rowOf, List.zip_cons_cons, List.map_cons, ← rowOf, List.flatMap_cons, List.count_append,
        List.flatMap_cons, List.flatMap_cons, List.count_append, List.count_append, hrest]
      simp only [itemChars, Option.map_some, Option.getD_some, List.count_append]
      omega

theorem length_records_le {r : Reader} {ls : List (List Char)} {rs : List (List String)}
    (h : records d r ls = .ok rs) (hfresh : ls ≠ [] ∨ r = {}) : rs.length ≤ ls.length := by
  induction ls generalizing r rs with
  | nil =>
    obtain rfl := hfresh.resolve_left (by simp)
    obtain rfl := Except.ok.inj h
    rfl
  | cons line ls ih =>
    rw [records] at h
    obtain ⟨r₁, h₁, h⟩ := Except.bind_eq_ok.mp h
    split_ifs at h with hstate
    · obtain ⟨rs', hrs', h⟩ := Except.bind_eq_ok.mp h
      obtain rfl := Except.pure_eq_ok.mp h
      have hle := ih hrs' (.inr rfl)
      simp only [List.length_cons]
      omega
    · cases ls with
      | nil =>
        obtain rfl := Except.ok.inj h
        split_ifs <;> simp
      | cons l ls =>
        have hle := ih h (.inl (by simp))
        simp only [List.length_cons] at hle ⊢
        omega

/-! ## The round trip -/

theorem dictReader_eq_ok {text : String} {rows : List Row} (h : dictReader d text = .ok rows)
    (hne : rows ≠ []) :
    ∃ names rest, records d {} (lines text.toList) = .ok (names :: rest) ∧
      rows = (rest.filter fun cells => ! cells.isEmpty).map (toRow names) := by
  obtain ⟨rs, hrs, h⟩ := Except.bind_eq_ok.mp h
  cases rs with
  | nil => exact absurd (Except.pure_eq_ok.mp h).symm hne
  | cons names rest => exact ⟨names, rest, hrs, (Except.pure_eq_ok.mp h).symm⟩

theorem dictReader_of_plain (hnodup : header.Nodup) (hlen : header.length = cells.length)
    (hnames : "" ∉ header) (hplain : ∀ s ∈ header ++ cells, Plain d s.toList)
    (hcells : joined d cells ≠ []) {text : String}
    (htext : text.toList = joined d header ++ '\n' :: joined d cells) :
    dictReader d text = .ok [rowOf header cells] := by
  have hheader : joined d header ≠ [] := by
    cases header with
    | nil =>
      obtain rfl := List.length_eq_zero_iff.mp hlen.symm
      exact absurd rfl hcells
    | cons name header =>
      have hname : name ≠ "" := fun h => hnames (h ▸ List.mem_cons_self)
      cases header with
      | nil => simpa using hname
      | cons t header => simp [joined_cons]
  have hempty : cells.isEmpty = false := by
    cases cells with
    | nil => exact absurd rfl hcells
    | cons cell cells => rfl
  unfold dictReader
  rw [htext, records_joined hplain hheader hcells]
  simp [bind, Except.bind, pure, Except.pure, hempty, toRow_eq_rowOf hnodup hlen]

/-- Two lines in which the quotes all belong to the fields. -/
theorem plain_of_dictReader (hlen : header.length = cells.length) {text : String}
    (htext : text.toList = joined d header ++ '\n' :: joined d cells)
    (h : dictReader d text = .ok [rowOf header cells]) :
    ∀ s ∈ header ++ cells, Plain d s.toList := by
  obtain ⟨names, rest, hrs, hrows⟩ := dictReader_eq_ok h (by simp)
  obtain ⟨cs, hcs, hrow⟩ : ∃ cs ∈ rest, toRow names cs = rowOf header cells := by
    have hmem : rowOf header cells ∈ (rest.filter fun cells => ! cells.isEmpty).map (toRow names) :=
      hrows ▸ List.mem_singleton_self _
    obtain ⟨cs, hcs, hrow⟩ := List.mem_map.mp hmem
    exact ⟨cs, (List.mem_filter.mp hcs).1, hrow⟩
  obtain ⟨hzip, -⟩ := zipped_of_toRow hrow
  -- the quotes of the row are those of the text, and they are all among the fields read
  have htotal : text.toList.count d.quotechar =
      ((rowOf header cells).flatMap itemChars).count d.quotechar := by
    have hq := d.delimiter_ne_quotechar.symm
    rw [htext, List.count_append, List.count_cons_of_ne d.quotechar_ne_newline.1.symm,
      count_joined hq, count_joined hq, count_rowOf hlen]
  have hread : ((rowOf header cells).flatMap itemChars).count d.quotechar ≤
      (contents (names :: rest)).count d.quotechar := by
    have hsub : (cs.flatMap String.toList).count d.quotechar ≤
        (contents rest).count d.quotechar := by
      obtain ⟨before, after, rfl⟩ := List.append_of_mem hcs
      simp only [contents, List.flatten_append, List.flatten_cons, List.flatMap_append,
        List.count_append]
      omega
    have hle := count_zipped_le names cs d.quotechar
    rw [hzip] at hle
    rw [contents_cons, List.count_append]
    omega
  obtain ⟨-, hclean⟩ := count_records hrs
  rw [flatten_lines] at hclean
  have hplain : ∀ cells ∈ names :: rest, ∀ s ∈ cells, Plain d s.toList := by
    rcases hclean Reader.clean_empty with h | h
    · exact h
    · have hempty : (({} : Reader).chars).count d.quotechar = 0 := rfl
      omega
  have hitem : ∀ p ∈ rowOf header cells, ∃ name ∈ names, ∃ cell ∈ cs,
      p = (some name, .text cell) := fun p hp => mem_zipped (hzip ▸ hp)
  intro s hs
  rcases List.mem_append.mp hs with hs | hs
  · obtain ⟨cell, hp⟩ := exists_cell hlen hs
    obtain ⟨name, hname, cell', -, heq⟩ := hitem _ hp
    cases heq
    exact hplain names List.mem_cons_self _ hname
  · obtain ⟨name, hp⟩ := exists_name hlen hs
    obtain ⟨name', -, cell, hcell, heq⟩ := hitem _ hp
    cases heq
    exact hplain cs (List.mem_cons_of_mem _ hcs) _ hcell

/-- A row is not an empty line. -/
theorem joined_ne_nil_of_dictReader (hheader : ∀ s ∈ header, Plain d s.toList) {text : String}
    (htext : text.toList = joined d header ++ '\n' :: joined d cells) {row : Row}
    (h : dictReader d text = .ok [row]) : joined d cells ≠ [] := by
  intro hnil
  obtain ⟨names, rest, hrs, hrows⟩ := dictReader_eq_ok h (by simp)
  rw [htext, hnil, lines_append_newline (newline_not_mem_joined hheader)] at hrs
  have hle := length_records_le hrs (.inr rfl)
  have hrest : rest = [] := by
    apply List.length_eq_zero_iff.mp
    simpa [lines] using hle
  rw [hrest] at hrows
  simp at hrows

theorem dictReader_iff (hnodup : header.Nodup) (hlen : header.length = cells.length)
    (hnames : "" ∉ header) {text : String}
    (htext : text.toList = joined d header ++ '\n' :: joined d cells) :
    dictReader d text = .ok [rowOf header cells] ↔
      (∀ s ∈ header ++ cells, Plain d s.toList) ∧ joined d cells ≠ [] := by
  constructor
  · intro h
    have hplain := plain_of_dictReader hlen htext h
    exact ⟨hplain, joined_ne_nil_of_dictReader
      (fun s hs => hplain s (List.mem_append_left _ hs)) htext h⟩
  · rintro ⟨hplain, hcells⟩
    exact dictReader_of_plain hnodup hlen hnames hplain hcells htext

end Csv
