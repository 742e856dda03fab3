import Mathlib.Data.List.Chain

/-!
# Encodings of texts

UTF-8 and UTF-16, with and without a byte-order mark.

* `encode` is a text in bytes, `encodeText_infix` says that a part of a text is a part of its bytes;
* `utf8_ascii` says that ASCII characters are their own bytes in UTF-8;
* `utf16_adjacent` says that the characters of Latin-1 stand between zeros in UTF-16.
-/

/-- UTF-8, and UTF-16 in either byte order. -/
inductive Encoding where
  | utf8 | utf16le | utf16be
  deriving DecidableEq, Repr

namespace Encoding

/-- The code units of a character in UTF-16. -/
def utf16Units (c : Char) : List ℕ :=
  if c.toNat < 0x10000 then [c.toNat]
  else
    let v := c.toNat - 0x10000
    [0xD800 + v / 0x400, 0xDC00 + v % 0x400]

/-- The bytes of a character. -/
def encodeChar (c : Char) : Encoding → List UInt8
  | utf8 => String.utf8EncodeChar c
  | utf16le => (utf16Units c).flatMap fun u => [(u % 256).toUInt8, (u / 256).toUInt8]
  | utf16be => (utf16Units c).flatMap fun u => [(u / 256).toUInt8, (u % 256).toUInt8]

/-- The bytes of a text. -/
def encodeText (enc : Encoding) (text : List Char) : List UInt8 := text.flatMap (enc.encodeChar ·)

/-- The byte order mark. -/
def byteOrderMark : Char := Char.ofNat 0xFEFF

/-- The bytes of a text, after the byte order mark if there is one. -/
def encode (enc : Encoding) (bom : Bool) (text : List Char) : List UInt8 :=
  enc.encodeText (if bom then byteOrderMark :: text else text)

theorem encodeText_infix (enc : Encoding) {part text : List Char} (h : part <:+: text) :
    enc.encodeText part <:+: enc.encodeText text := by
  obtain ⟨before, after, rfl⟩ := h
  refine ⟨enc.encodeText before, enc.encodeText after, ?_⟩
  simp only [encodeText, List.flatMap_append]

theorem encode_infix (enc : Encoding) (bom : Bool) {part text : List Char}
    (h : part <:+: text) : enc.encodeText part <:+: enc.encode bom text := by
  apply encodeText_infix
  cases bom with
  | false => exact h
  | true => exact h.trans (List.suffix_cons _ _).isInfix

theorem encodeChar_ne_nil (enc : Encoding) (c : Char) : enc.encodeChar c ≠ [] := by
  cases enc with
  | utf8 => exact String.utf8EncodeChar_ne_nil
  | utf16le =>
    simp only [encodeChar, utf16Units]
    split_ifs <;> simp
  | utf16be =>
    simp only [encodeChar, utf16Units]
    split_ifs <;> simp

theorem encode_ne_nil (enc : Encoding) (bom : Bool) {text : List Char} (h : text ≠ []) :
    enc.encode bom text ≠ [] := by
  obtain ⟨c, text, rfl⟩ := List.exists_cons_of_ne_nil h
  cases bom <;> simp [encode, encodeText, encodeChar_ne_nil]

theorem utf8_ascii {text : List Char} (h : ∀ c ∈ text, c.toNat < 128) :
    utf8.encodeText text = text.map fun c => c.toNat.toUInt8 := by
  induction text with
  | nil => rfl
  | cons c text ih =>
    have hc : c.toNat < 128 := h c List.mem_cons_self
    have hchar : utf8.encodeChar c = [c.toNat.toUInt8] := by
      have hval : c.val.toNat ≤ 127 := Nat.lt_succ_iff.mp hc
      simp only [encodeChar, String.utf8EncodeChar, if_pos hval]
      rfl
    rw [encodeText, List.flatMap_cons, hchar, List.map_cons, ← ih fun d hd => h d (by simp [hd])]
    rfl

/-! ## Latin-1 in UTF-16 -/

/-- One of two adjacent bytes is zero, or the first one is not ASCII. -/
def Apart (a b : UInt8) : Prop := a = 0 ∨ b = 0 ∨ 128 ≤ a

theorem utf16Units_latin1 {c : Char} (h : c.toNat < 256) : utf16Units c = [c.toNat] :=
  if_pos (by omega)

theorem utf16be_chain {text : List Char} (h : ∀ c ∈ text, c.toNat < 256) (a : UInt8) :
    (a :: utf16be.encodeText text).IsChain Apart := by
  induction text generalizing a with
  | nil => exact List.isChain_singleton a
  | cons c text ih =>
    have hc : c.toNat < 256 := h c List.mem_cons_self
    have hchar : utf16be.encodeChar c = [0, (c.toNat % 256).toUInt8] := by
      have hhigh : c.toNat / 256 = 0 := by omega
      simp [encodeChar, utf16Units_latin1 hc, hhigh]
    rw [encodeText, List.flatMap_cons, hchar]
    refine List.isChain_cons_cons.mpr ⟨.inr (.inl rfl), List.isChain_cons_cons.mpr ⟨.inl rfl, ?_⟩⟩
    exact ih (fun d hd => h d (List.mem_cons_of_mem _ hd)) _

theorem utf16le_chain {text : List Char} (h : ∀ c ∈ text, c.toNat < 256) {a : UInt8}
    (ha : a = 0 ∨ 128 ≤ a) : (a :: utf16le.encodeText text).IsChain Apart := by
  induction text generalizing a with
  | nil => exact List.isChain_singleton a
  | cons c text ih =>
    have hc : c.toNat < 256 := h c List.mem_cons_self
    have hchar : utf16le.encodeChar c = [(c.toNat % 256).toUInt8, 0] := by
      have hhigh : c.toNat / 256 = 0 := by omega
      simp [encodeChar, utf16Units_latin1 hc, hhigh]
    rw [encodeText, List.flatMap_cons, hchar]
    refine List.isChain_cons_cons.mpr ⟨ha.imp id .inr, List.isChain_cons_cons.mpr
      ⟨.inr (.inl rfl), ?_⟩⟩
    exact ih (fun d hd => h d (List.mem_cons_of_mem _ hd)) (.inl rfl)

/-- No two ASCII characters are adjacent in a text of Latin-1 in UTF-16. -/
theorem utf16_adjacent {enc : Encoding} (henc : enc ≠ utf8) (bom : Bool) {text : List Char}
    (h : ∀ c ∈ text, c.toNat < 256) : (enc.encode bom text).IsChain Apart := by
  cases enc with
  | utf8 => exact absurd rfl henc
  | utf16le =>
    cases bom with
    | false => exact (utf16le_chain h (.inl rfl)).tail
    | true =>
      show (0xFF :: 0xFE :: utf16le.encodeText text).IsChain Apart
      have hafter := utf16le_chain h (a := 0xFE) (.inr (by decide))
      exact List.isChain_cons_cons.mpr ⟨.inr (.inr (by decide)), hafter⟩
  | utf16be =>
    cases bom with
    | false => exact (utf16be_chain h 0).tail
    | true =>
      show (0xFE :: 0xFF :: utf16be.encodeText text).IsChain Apart
      exact List.isChain_cons_cons.mpr ⟨.inr (.inr (by decide)), utf16be_chain h _⟩

end Encoding
