import Mathlib.Data.List.Infix
import PaymentOps.Iso.Registry
import PaymentOps.Lib.Encoding

/-!
# Document types and entities

`secureParse` looks for the markers of document types and entities in the bytes of the payload.  The
parser reads them in the encoding of the document.

* `prohibited_iff`: a document with a marker is refused before the parser reads it exactly when it
  is in UTF-8, or when its bytes in UTF-16 happen to spell a marker;
* `not_spells_of_latin1` says that those of a document of Latin-1 never do;
* `utf16_doctype_parsed` is a document that the parser reads.
-/

namespace PaymentOps.Iso

/-- A declaration of a document type or of an entity starts with one of these. -/
def declarations : List (List Char) := ["<!DOCTYPE".toList, "<!ENTITY".toList]

/-- The document has a declaration of a document type or of an entity. -/
def Declares (document : List Char) : Prop := ∃ d ∈ declarations, d <:+: document

/-- The bytes spell a marker, in letters of either case. -/
def SpellsMarker (data : List UInt8) : Prop :=
  ∃ spelled, spelled <:+: data ∧ spelled.map upperByte ∈ dtdMarkers

theorem containsBytes_iff {marker data : List UInt8} :
    containsBytes marker data = true ↔ marker <:+: data := by
  rw [containsBytes, List.any_eq_true, List.infix_iff_prefix_suffix]
  constructor
  · rintro ⟨after, hafter, hprefix⟩
    exact ⟨after, List.isPrefixOf_iff_prefix.mp hprefix, (List.mem_tails _ _).mp hafter⟩
  · rintro ⟨after, hprefix, hsuffix⟩
    exact ⟨after, (List.mem_tails _ _).mpr hsuffix, List.isPrefixOf_iff_prefix.mpr hprefix⟩

/-- What the guard looks for. -/
theorem guard_iff (data : List UInt8) :
    dtdMarkers.any (containsBytes · (data.map upperByte)) = true ↔ SpellsMarker data := by
  rw [List.any_eq_true]
  constructor
  · rintro ⟨marker, hmarker, hcontains⟩
    obtain ⟨before, after, heq⟩ := containsBytes_iff.mp hcontains
    obtain ⟨l, after', hdata, hl, rfl⟩ := List.map_eq_append_iff.mp heq.symm
    obtain ⟨before', spelled, rfl, rfl, rfl⟩ := List.map_eq_append_iff.mp hl
    exact ⟨spelled, ⟨before', after', hdata.symm⟩, hmarker⟩
  · rintro ⟨spelled, hspelled, hmarker⟩
    exact ⟨_, hmarker, containsBytes_iff.mpr (hspelled.map upperByte)⟩

/-- A letter is not folded to a symbol. -/
theorem upperByte_eq_symbol {b symbol : UInt8} (hsymbol : symbol < 65)
    (h : upperByte b = symbol) : b = symbol := by
  unfold upperByte at h
  split_ifs at h with hlower
  · have h97 : 97 ≤ b.toNat := UInt8.le_iff_toNat_le.mp hlower.1
    have h65 : symbol.toNat < 65 := UInt8.lt_iff_toNat_lt.mp hsymbol
    have hsub : (b - 32).toNat = b.toNat - 32 := UInt8.toNat_sub_of_le b 32
      (UInt8.le_iff_toNat_le.mpr (Nat.le_trans (by decide) h97))
    rw [← h, hsub] at h65
    omega
  · exact h

/-- A marker starts with two symbols. -/
theorem marker_start {spelled : List UInt8} (h : spelled.map upperByte ∈ dtdMarkers) :
    [60, 33] <+: spelled := by
  have hstart : ∀ marker ∈ dtdMarkers, [60, 33] <+: marker := by decide
  obtain ⟨rest, hrest⟩ := hstart _ h
  obtain ⟨a, spelled, rfl, ha, htail⟩ := List.map_eq_cons_iff.mp hrest.symm
  obtain ⟨b, spelled, rfl, hb, -⟩ := List.map_eq_cons_iff.mp htail
  rw [upperByte_eq_symbol (by decide) ha, upperByte_eq_symbol (by decide) hb]
  exact ⟨spelled, rfl⟩

/-- The bytes of a document of Latin-1 in UTF-16 spell no marker. -/
theorem not_spells_of_latin1 {enc : Encoding} (henc : enc ≠ .utf8) (bom : Bool)
    {document : List Char} (h : ∀ c ∈ document, c.toNat < 256) :
    ¬ SpellsMarker (enc.encode bom document) := by
  rintro ⟨spelled, hspelled, hmarker⟩
  have hinfix := (marker_start hmarker).isInfix.trans hspelled
  have hchain := List.IsChain.infix (Encoding.utf16_adjacent henc bom h) hinfix
  have hapart : Encoding.Apart 60 33 := (List.isChain_cons_cons.mp hchain).1
  rcases hapart with h | h | h
  · exact absurd h (by decide)
  · exact absurd h (by decide)
  · exact absurd h (by decide)

theorem utf8_spells {bom : Bool} {document : List Char} (h : Declares document) :
    SpellsMarker (Encoding.utf8.encode bom document) := by
  obtain ⟨declaration, hmem, hinfix⟩ := h
  have hall : declarations.all fun d => d.all fun c => c.toNat < 128 := by decide
  have hascii : ∀ d ∈ declarations, ∀ c ∈ d, c.toNat < 128 := fun d hd c hc =>
    of_decide_eq_true (List.all_eq_true.mp (List.all_eq_true.mp hall d hd) c hc)
  have hbytes := Encoding.utf8.encode_infix bom hinfix
  rw [Encoding.utf8_ascii (hascii declaration hmem)] at hbytes
  have hmarkers : ∀ d ∈ declarations,
      (d.map fun c => c.toNat.toUInt8).map upperByte ∈ dtdMarkers := by decide
  exact ⟨_, hbytes, hmarkers declaration hmem⟩

theorem secureParse_prohibited_iff (lib : XmlLibrary) {maxBytes : ℕ} {data : List UInt8}
    (hdata : data ≠ []) (hsize : data.length ≤ maxBytes) :
    secureParse lib maxBytes data =
        .error (.prohibitedEntity "DTD or entity declarations are not permitted") ↔
      SpellsMarker data := by
  have hempty : ¬ data.isEmpty = true := by simpa using hdata
  rw [secureParse, if_neg hempty, if_neg (Nat.not_lt.mpr hsize), ← guard_iff]
  constructor
  · intro h
    by_contra hguard
    rw [if_neg hguard] at h
    split at h <;> cases h
  · exact fun hguard => if_pos hguard

/-- A document with a declaration is refused whatever a parser would make of it exactly when it is
in UTF-8, or its bytes in UTF-16 spell a marker. -/
theorem prohibited_iff {maxBytes : ℕ} (enc : Encoding) (bom : Bool) {document : List Char}
    (hdeclares : Declares document) (hsize : (enc.encode bom document).length ≤ maxBytes) :
    (∀ lib, secureParse lib maxBytes (enc.encode bom document) =
        .error (.prohibitedEntity "DTD or entity declarations are not permitted")) ↔
      enc = .utf8 ∨ SpellsMarker (enc.encode bom document) := by
  have hdata : enc.encode bom document ≠ [] := by
    apply enc.encode_ne_nil
    rintro rfl
    obtain ⟨declaration, hmem, hinfix⟩ := hdeclares
    have hne : ∀ d ∈ declarations, d ≠ [] := by decide
    exact hne _ hmem (List.infix_nil.mp hinfix)
  have hlib : XmlLibrary := {
    fromstring := fun _ => .error .syntaxError
    validate := fun _ _ => true }
  constructor
  · intro h
    exact .inr ((secureParse_prohibited_iff hlib hdata hsize).mp (h hlib))
  · rintro (rfl | hspells) lib
    · exact (secureParse_prohibited_iff lib hdata hsize).mpr (utf8_spells hdeclares)
    · exact (secureParse_prohibited_iff lib hdata hsize).mpr hspells

/-- A document with a document type. -/
def doctypeDocument : List Char := "<!DOCTYPE a><a/>".toList

theorem declares_doctype : Declares doctypeDocument :=
  ⟨_, List.mem_cons_self, ⟨[], " a><a/>".toList, by decide⟩⟩

/-- A library whose parser reads the document. -/
def readingLibrary : XmlLibrary where
  fromstring _ := .ok (.node (.name none "a") [] none [] none)
  validate _ _ := true

/-- In UTF-8 it is refused. -/
theorem utf8_doctype_prohibited :
    secureParse readingLibrary 1048576 (Encoding.utf8.encode false doctypeDocument) =
      .error (.prohibitedEntity "DTD or entity declarations are not permitted") :=
  (prohibited_iff .utf8 false declares_doctype (by decide)).mpr (.inl rfl) readingLibrary

/-- In UTF-16 with a byte-order mark the parser reads it. -/
theorem utf16_doctype_parsed :
    ¬ ∀ lib, secureParse lib 1048576 (Encoding.utf16le.encode true doctypeDocument) =
      .error (.prohibitedEntity "DTD or entity declarations are not permitted") := by
  intro h
  have hguard : dtdMarkers.any (containsBytes ·
      ((Encoding.utf16le.encode true doctypeDocument).map upperByte)) = false := by decide
  have hread := h readingLibrary
  rw [secureParse, if_neg (by decide), if_neg (by decide), hguard] at hread
  cases hread

end PaymentOps.Iso
