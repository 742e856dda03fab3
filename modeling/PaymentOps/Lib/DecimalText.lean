import PaymentOps.Lib.Decimal
import PaymentOps.Lib.Schema

/-!
# The texts of `xs:decimal` in Python

`ofDecimalText_strip`, `ofFloatText_strip`: Python's `Decimal` and `float` read a text of
`xs:decimal` as the number that it stands for, whatever the Unicode tables say of other digits.
-/

namespace Xsd

open Text Decimal

variable {u : Unicode} {s : String} {cs ds rest : List Char}

/-! ## The characters -/

/-- Digits, signs and the point. -/
def isDecimalChar (c : Char) : Bool := c.isDigit || c = '.' || c = '+' || c = '-'

theorem toNat_of_isDecimalChar {c : Char} (h : isDecimalChar c) :
    43 ≤ c.toNat ∧ c.toNat ≤ 57 := by
  simp only [isDecimalChar, Bool.or_eq_true, decide_eq_true_eq] at h
  rcases h with ((h | rfl) | rfl) | rfl
  · have hc := toNat_of_isDigit h
    omega
  · decide
  · decide
  · decide

/-- The digits of a text, with or without a point between them. -/
theorem unsignedDecimal_cases (h : unsignedDecimal cs) :
    ∃ whole fraction : List Char, (∀ c ∈ whole, c.isDigit) ∧ (∀ c ∈ fraction, c.isDigit) ∧
      ¬ (whole = [] ∧ fraction = []) ∧
      unsignedValue cs = digitsValue (whole ++ fraction) / 10 ^ fraction.length ∧
      (cs = whole ∧ fraction = [] ∨ cs = whole ++ '.' :: fraction) := by
  have hwhole : ∀ c ∈ cs.takeWhile Char.isDigit, c.isDigit := fun c hc => List.mem_takeWhile_imp hc
  have hsplit : cs.takeWhile Char.isDigit ++ cs.dropWhile Char.isDigit = cs :=
    List.takeWhile_append_dropWhile
  refine ⟨cs.takeWhile Char.isDigit, (cs.dropWhile Char.isDigit).tail, hwhole, ?_⟩
  unfold unsignedDecimal at h
  unfold unsignedValue
  split at h
  · rename_i hd
    rw [hd, List.append_nil] at hsplit
    rw [hd]
    refine ⟨by simp, ?_, rfl, .inl ⟨hsplit.symm, rfl⟩⟩
    rintro ⟨hnil, -⟩
    rw [← hsplit, hnil] at h
    cases h
  · rename_i fraction hd
    simp only [Bool.and_eq_true, List.all_eq_true, decide_eq_true_eq] at h
    rw [hd] at hsplit ⊢
    refine ⟨h.1, ?_, rfl, .inr hsplit.symm⟩
    rintro ⟨hnil, hfraction⟩
    rw [List.tail_cons] at hfraction
    rw [← hsplit, hnil, hfraction] at h
    exact absurd h.2 (by decide)
  · cases h

theorem mem_of_unsigned (h : unsignedDecimal cs) : ∀ c ∈ cs, c.isDigit ∨ c = '.' := by
  obtain ⟨whole, fraction, hwhole, hfraction, -, -, ⟨rfl, -⟩ | rfl⟩ := unsignedDecimal_cases h
  · exact fun c hc => .inl (hwhole c hc)
  · intro c hc
    rcases List.mem_append.mp hc with hc | hc
    · exact .inl (hwhole c hc)
    · rcases List.mem_cons.mp hc with rfl | hc
      · exact .inr rfl
      · exact .inl (hfraction c hc)

/-! ## Reading the digits -/

theorem takeDigits_append (hd : ∀ c ∈ ds, c.isDigit)
    (hr : ∀ c ∈ rest.head?, u.digit c = none) :
    takeDigits u (ds ++ rest) = (ds.map fun c => c.toNat - 48, rest) := by
  induction ds with
  | nil =>
    cases rest with
    | nil => rfl
    | cons c rest =>
      rw [List.nil_append, takeDigits, hr c rfl]
      rfl
  | cons c ds ih =>
    have hc : u.digit c = some (c.toNat - 48) := digit_of_isDigit (hd c List.mem_cons_self)
    rw [List.cons_append, takeDigits, hc, ih fun d hd' => hd d (List.mem_cons_of_mem _ hd')]
    rfl

theorem digitsValue_eq (ds : List Char) :
    digitsValue ds = ofDigits (ds.map fun c => c.toNat - 48) := by
  rw [digitsValue, ofDigits, List.foldl_map]

theorem readUnsigned_of_unsigned (u : Unicode) (h : unsignedDecimal cs) :
    readUnsigned u cs = some (unsignedValue cs) := by
  obtain ⟨whole, fraction, hwhole, hfraction, hne, hvalue, hcs⟩ := unsignedDecimal_cases h
  have hpoint : u.digit '.' = none := by
    rw [u.digit_ascii '.' (by decide)]
    rfl
  have hread : takeDigits u whole = (whole.map fun c => c.toNat - 48, []) :=
    takeDigits_of_isDigit hwhole
  have hread' : takeDigits u fraction = (fraction.map fun c => c.toNat - 48, []) :=
    takeDigits_of_isDigit hfraction
  have hpow : (10 : ℚ) ^ ((0 : ℤ) - (fraction.map fun c => c.toNat - 48).length) =
      (10 ^ fraction.length)⁻¹ := by
    rw [List.length_map, zero_sub, zpow_neg, zpow_natCast]
  have hne' : ¬ (whole.map (fun c => c.toNat - 48) = [] ∧
      fraction.map (fun c => c.toNat - 48) = []) := by
    simpa using hne
  have hresult : (ofDigits (whole.map (fun c => c.toNat - 48) ++
      fraction.map fun c => c.toNat - 48) : ℚ) *
        10 ^ ((0 : ℤ) - (fraction.map fun c => c.toNat - 48).length) = unsignedValue cs := by
    rw [hpow, hvalue, digitsValue_eq, List.map_append, div_eq_mul_inv]
  rw [← hresult]
  rcases hcs with ⟨rfl, rfl⟩ | rfl
  · unfold readUnsigned
    simp only [hread]
    rw [if_neg]
    · rfl
    · simpa using hne
  · have hpart : takeDigits u (whole ++ '.' :: fraction) =
        (whole.map fun c => c.toNat - 48, '.' :: fraction) :=
      takeDigits_append hwhole (by simp [hpoint])
    unfold readUnsigned
    simp only [hpart, hread']
    rw [if_neg hne']
    rfl

/-! ## Signs and names -/

/-- A number is no name. -/
theorem lower_ne (h : unsignedDecimal cs) {letter : Char} {letters : List Char}
    (hdigit : letter.isDigit = false) (hpoint : letter ≠ '.') : lower cs ≠ letter :: letters := by
  intro heq
  cases hcs : cs with
  | nil =>
    rw [hcs] at heq
    cases heq
  | cons c rest =>
    have hc : c.isDigit ∨ c = '.' := mem_of_unsigned h c (by simp [hcs])
    have hlower : c.toLower = c := by
      rcases hc with hc | rfl
      · have hn := toNat_of_isDigit hc
        refine dif_neg fun hupper => ?_
        have hle : 65 ≤ c.toNat := UInt32.le_iff_toNat_le.mp hupper.1
        omega
      · decide
    have hletter : c = letter := by
      rw [hcs, lower, List.map_cons, hlower] at heq
      exact (List.cons.inj heq).1
    rcases hc with hc | hc
    · rw [hletter, hdigit] at hc
      cases hc
    · exact hpoint (hletter.symm.trans hc)

theorem readNumber_of_unsigned (u : Unicode) {neg : Bool} {text : List Char}
    (hsign : takeSign text = (neg, cs)) (h : unsignedDecimal cs) :
    readNumber u text = some (.finite (if neg then -unsignedValue cs else unsignedValue cs)) := by
  have hinf : lower cs ≠ "inf".toList := lower_ne h rfl (by decide)
  have hinfinity : lower cs ≠ "infinity".toList := lower_ne h rfl (by decide)
  have hnan : lower cs ≠ "nan".toList := lower_ne h rfl (by decide)
  unfold readNumber
  simp only [hsign, if_neg (not_or.mpr ⟨hinf, hinfinity⟩), if_neg hnan,
    readUnsigned_of_unsigned u h]
  rfl

theorem takeSign_of_unsigned (h : unsignedDecimal cs) : takeSign cs = (false, cs) := by
  cases cs with
  | nil => rfl
  | cons c rest =>
    have hc : c.isDigit ∨ c = '.' := mem_of_unsigned h c List.mem_cons_self
    have hne : c ≠ '-' ∧ c ≠ '+' := by
      constructor
      · rintro rfl
        exact absurd hc (by decide)
      · rintro rfl
        exact absurd hc (by decide)
    exact takeSign_cons hne.1 hne.2

/-- The text between the white space is read as the number that it stands for. -/
theorem readNumber_collapse (u : Unicode) (h : decimal s) :
    readNumber u (collapse s) = some (.finite (decimalValue s)) := by
  have hminus : ∀ cs, takeSign ('-' :: cs) = (true, cs) := fun _ => rfl
  have hplus : ∀ cs, takeSign ('+' :: cs) = (false, cs) := fun _ => rfl
  unfold decimal at h
  unfold decimalValue
  split at h
  · rename_i cs hs
    rw [hs, readNumber_of_unsigned u (hminus cs) h]
    rfl
  · rename_i cs hs
    rw [hs, readNumber_of_unsigned u (hplus cs) h]
    rfl
  · exact readNumber_of_unsigned u (takeSign_of_unsigned h) h

/-! ## White space -/

theorem isDecimalChar_of_mem_collapse (h : decimal s) :
    collapse s ≠ [] ∧ ∀ c ∈ collapse s, isDecimalChar c := by
  have hunsigned : ∀ cs, unsignedDecimal cs → ∀ c ∈ cs, isDecimalChar c := by
    intro cs hcs c hc
    rcases mem_of_unsigned hcs c hc with hc | rfl
    · simp [isDecimalChar, hc]
    · decide
  unfold decimal at h
  split at h
  · rename_i cs hs
    rw [hs]
    exact ⟨by simp, List.forall_mem_cons.mpr ⟨by decide, hunsigned cs h⟩⟩
  · rename_i cs hs
    rw [hs]
    exact ⟨by simp, List.forall_mem_cons.mpr ⟨by decide, hunsigned cs h⟩⟩
  · refine ⟨?_, hunsigned _ h⟩
    intro hnil
    rw [hnil] at h
    cases h

theorem isSpace_of_isDecimalChar {c : Char} (h : isDecimalChar c) : Text.isSpace c = false := by
  have hc := toNat_of_isDecimalChar h
  simp [Text.isSpace]
  omega

theorem isSpace_of_xml {c : Char} (h : Xsd.isSpace c) : Text.isSpace c := by
  simp only [Xsd.isSpace, Bool.or_eq_true, decide_eq_true_eq] at h
  rcases h with ((rfl | rfl) | rfl) | rfl <;> decide

/-- Dropping more kinds of white space drops no more, where what follows is none of it. -/
theorem dropWhile_of_head {p q : Char → Bool} {l : List Char} (hpq : ∀ c, q c → p c)
    (hhead : ∀ c ∈ (l.dropWhile q).head?, p c = false) : l.dropWhile p = l.dropWhile q := by
  induction l with
  | nil => rfl
  | cons c l ih =>
    by_cases hq : q c
    · rw [List.dropWhile_cons_of_pos hq] at hhead ⊢
      rw [List.dropWhile_cons_of_pos (hpq c hq), ih hhead]
    · rw [List.dropWhile_cons_of_neg hq] at hhead ⊢
      have hp := hhead c rfl
      rw [List.dropWhile_cons_of_neg (by simp [hp])]

/-- Python strips the white space of XML, where there is no other. -/
theorem toList_strip (hne : collapse s ≠ [])
    (hspace : ∀ c ∈ collapse s, Text.isSpace c = false) : (Text.strip s).toList = collapse s := by
  set start := s.toList.dropWhile Xsd.isSpace with hstart
  have hcollapse : collapse s = (start.reverse.dropWhile Xsd.isSpace).reverse := rfl
  have hrest : start.reverse.dropWhile Text.isSpace = start.reverse.dropWhile Xsd.isSpace := by
    refine dropWhile_of_head (fun c => isSpace_of_xml) fun c hc => hspace c ?_
    rw [hcollapse, List.mem_reverse]
    exact List.mem_of_mem_head? hc
  have hfirst : s.toList.dropWhile Text.isSpace = start := by
    refine dropWhile_of_head (fun c => isSpace_of_xml) fun c hc => hspace c ?_
    -- the first character is one of the text, which is not empty
    obtain ⟨front, hfront⟩ : ∃ front, front ++ start.reverse.dropWhile Xsd.isSpace =
        start.reverse := ⟨_, List.takeWhile_append_dropWhile⟩
    have hback : start = collapse s ++ front.reverse := by
      rw [hcollapse, ← List.reverse_append, hfront, List.reverse_reverse]
    rw [← hstart, hback, List.head?_append_of_ne_nil _ hne] at hc
    exact List.mem_of_mem_head? hc
  rw [Text.strip, String.toList_ofList, hfirst, hrest, ← hcollapse]

/-- Stripping a text of `xs:decimal` twice leaves the characters of the number. -/
theorem toList_strip_strip (h : decimal s) :
    (Text.strip (Text.strip s)).toList = collapse s ∧ ∀ c ∈ collapse s, c ≠ '_' := by
  obtain ⟨hne, hchars⟩ := isDecimalChar_of_mem_collapse h
  have hspace : ∀ c ∈ collapse s, Text.isSpace c = false := fun c hc =>
    isSpace_of_isDecimalChar (hchars c hc)
  have hstrip := toList_strip hne hspace
  have htwice : Text.strip (Text.strip s) = Text.strip s :=
    strip_of_not_isSpace fun c hc => hspace c (hstrip ▸ hc)
  refine ⟨by rw [htwice, hstrip], ?_⟩
  rintro c hc rfl
  exact absurd (toNat_of_isDecimalChar (hchars _ hc)) (by decide)

/-- Python's `Decimal` reads a text of `xs:decimal`, also once it is stripped. -/
theorem ofDecimalText_strip (u : Unicode) (h : decimal s) :
    ofDecimalText u (Text.strip s) = some (.finite (decimalValue s)) := by
  obtain ⟨hlist, hunderscore⟩ := toList_strip_strip h
  have hfilter : (collapse s).filter (· ≠ '_') = collapse s :=
    List.filter_eq_self.mpr fun c hc => by simpa using hunderscore c hc
  rw [ofDecimalText, hlist, hfilter]
  exact readNumber_collapse u h

/-- Python's `float` reads it as the same number. -/
theorem ofFloatText_strip (u : Unicode) (h : decimal s) :
    ofFloatText u (Text.strip s) = some (.finite (decimalValue s)) := by
  obtain ⟨hlist, hunderscore⟩ := toList_strip_strip h
  rw [ofFloatText, hlist, dropUnderscores_of_ne hunderscore, Option.bind_some]
  exact readNumber_collapse u h

end Xsd
