import PaymentOps.Lib.Calendar

/-!
# Dates as texts

`date.fromisoformat` reads back what `isoformat` writes, and `strftime` writes the same from the
year 1000 on.
-/

namespace Date

open Calendar

/-! ## Numbers of a fixed width -/

theorem isDigit_replicate {k : ℕ} : ∀ c ∈ List.replicate k '0', c.isDigit := by
  intro c hc
  rw [List.eq_of_mem_replicate hc]
  rfl

theorem isDigit_of_mem_pad {w n : ℕ} {c : Char} (h : c ∈ (pad w n).toList) : c.isDigit := by
  rw [pad, String.toList_ofList, List.mem_append] at h
  rcases h with h | h
  · exact isDigit_replicate c h
  · exact Nat.isDigit_of_mem_toDigits (by decide) (by decide) h

theorem length_pad {w n : ℕ} (hw : 0 < w) (h : n < 10 ^ w) :
    (pad w n).toList.length = w := by
  have hlen : (Nat.toDigits 10 n).length ≤ w :=
    (Nat.length_toDigits_le_iff (by decide) hw).mpr h
  rw [pad, String.toList_ofList, List.length_append, List.length_replicate]
  omega

theorem ofDigitChars_pad (w n : ℕ) : Nat.ofDigitChars 10 (pad w n).toList 0 = n := by
  rw [pad, String.toList_ofList, Nat.ofDigitChars_append, Nat.ofDigitChars_replicate_zero,
    Nat.mul_zero, Nat.ofDigitChars_ten_toDigits]

theorem parseDigits_append {cs : List Char} (h : ∀ c ∈ cs, c.isDigit) (rest : List Char) :
    parseDigits cs.length (cs ++ rest) = some (Nat.ofDigitChars 10 cs 0, rest) := by
  induction cs with
  | nil => simp [parseDigits]
  | cons c cs ih =>
    have hc : c.isDigit := h c (by simp)
    have hcs : parseDigits cs.length (cs ++ rest) = some (Nat.ofDigitChars 10 cs 0, rest) :=
      ih fun d hd => h d (List.mem_cons_of_mem c hd)
    have hvalue : Nat.ofDigitChars 10 (c :: cs) 0 =
        (c.toNat - 48) * 10 ^ cs.length + Nat.ofDigitChars 10 cs 0 := by
      rw [Nat.ofDigitChars_cons, Nat.ofDigitChars_eq_ofDigitChars_zero, Nat.mul_zero, Nat.zero_add,
        Nat.mul_comm]
      rfl
    simp [parseDigits, hc, hcs, hvalue]

theorem parseDigits_pad {w n : ℕ} (hw : 0 < w) (h : n < 10 ^ w)
    (rest : List Char) : parseDigits w ((pad w n).toList ++ rest) = some (n, rest) := by
  have hparse := parseDigits_append (fun c hc => isDigit_of_mem_pad (w := w) (n := n) hc) rest
  rwa [length_pad hw h, ofDigitChars_pad] at hparse

theorem pad_eq_cons {w n : ℕ} (hw : 0 < w) (h : n < 10 ^ w) :
    ∃ c cs, (pad w n).toList = c :: cs ∧ c.isDigit := by
  cases hpad : (pad w n).toList with
  | nil =>
    have hlen := length_pad hw h
    rw [hpad] at hlen
    exact absurd hlen.symm hw.ne'
  | cons c cs => exact ⟨c, cs, rfl, isDigit_of_mem_pad (by rw [hpad]; simp)⟩

/-! ## Dates -/

variable (d : Date)

theorem bounds : (1 ≤ d.year ∧ d.year ≤ 9999) ∧ (1 ≤ d.month ∧ d.month ≤ 12) ∧
    1 ≤ d.day ∧ d.day ≤ 31 := by
  have hvalid := d.valid
  simp only [isDate, Bool.and_eq_true, decide_eq_true_eq] at hvalid
  obtain ⟨⟨⟨⟨⟨hy, hy'⟩, hm⟩, hm'⟩, hd⟩, hd'⟩ := hvalid
  have hmonth : daysInMonth d.year d.month ≤ 31 := by
    unfold daysInMonth
    split_ifs <;> omega
  exact ⟨⟨hy, hy'⟩, ⟨hm, hm'⟩, hd, hd'.trans hmonth⟩

theorem toList_isoformat : d.isoformat.toList = (pad 4 d.year).toList ++
    '-' :: ((pad 2 d.month).toList ++ '-' :: ((pad 2 d.day).toList ++ [])) := by
  simp [isoformat, String.toList_append]

theorem parseMonth_pad : parseMonth d.year true
    ((pad 2 d.month).toList ++ '-' :: ((pad 2 d.day).toList ++ [])) = some d := by
  obtain ⟨-, ⟨-, hm⟩, -, hd⟩ := d.bounds
  have hmk : mk? d.year d.month d.day = some d := dif_pos d.valid
  simp only [parseMonth, parseDigits_pad (w := 2) (n := d.month) (by decide) (by omega),
    parseDigits_pad (w := 2) (n := d.day) (by decide) (by omega), Option.bind_eq_bind,
    Option.bind_some, List.isEmpty_nil, if_true, hmk]

/-- `date.fromisoformat(d.isoformat()) == d` -/
theorem fromisoformat_isoformat : fromisoformat d.isoformat = some d := by
  obtain ⟨⟨-, hy⟩, ⟨-, hm⟩, -⟩ := d.bounds
  obtain ⟨c, cs, hpad, hdigit⟩ := pad_eq_cons (w := 2) (n := d.month) (by decide) (by omega)
  have hne : c ≠ 'W' := by
    rintro rfl
    exact absurd hdigit (by decide)
  have hread := d.parseMonth_pad
  rw [fromisoformat, toList_isoformat, parseDigits_pad (by decide) (by omega)]
  rw [hpad] at hread ⊢
  simp only [Option.bind_eq_bind, Option.bind_some, List.cons_append]
  -- the month starts with a digit, so the text is no week date
  split
  · rename_i heq
    cases heq
    exact absurd rfl hne
  · rename_i heq
    cases heq
  · rename_i heq
    cases heq
    exact hread
  · rename_i heq
    exact absurd rfl (heq _)

theorem length_isoformat : d.isoformat.toList.length = 10 := by
  obtain ⟨⟨hy, hy'⟩, ⟨hm, hm'⟩, hd, hd'⟩ := d.bounds
  rw [toList_isoformat]
  simp [length_pad (w := 4) (n := d.year) (by decide) (by omega),
    length_pad (w := 2) (n := d.month) (by decide) (by omega),
    length_pad (w := 2) (n := d.day) (by decide) (by omega)]

/-- From the year 1000 on `strftime` has nothing to pad. -/
theorem strftime_eq_isoformat (h : 1000 ≤ d.year) : d.strftime = d.isoformat := by
  have hlen : ¬ (Nat.toDigits 10 d.year).length ≤ 3 := by
    rw [Nat.length_toDigits_le_iff (by decide) (by decide)]
    omega
  have hpad : pad 1 d.year = pad 4 d.year := by
    have h1 : 1 - (Nat.toDigits 10 d.year).length = 0 := by omega
    have h4 : 4 - (Nat.toDigits 10 d.year).length = 0 := by omega
    rw [pad, pad, h1, h4]
  rw [strftime, isoformat, hpad]

theorem fromisoformat_strftime (h : 1000 ≤ d.year) :
    fromisoformat (Text.take 10 d.strftime) = some d := by
  have htake : Text.take 10 d.isoformat = d.isoformat := by
    rw [Text.take, List.take_of_length_le d.length_isoformat.le, String.ofList_toList]
  rw [d.strftime_eq_isoformat h, htake, d.fromisoformat_isoformat]

end Date
