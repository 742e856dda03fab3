import Mathlib.Data.Rat.Floor
import PaymentOps.Lib.Xml

/-!
# Schemas of XML trees

The part of XML Schema that describes sequences of elements with bounds on their occurrence, and
texts with required attributes.

* `SimpleType` is a set of texts, `decimal` is `xs:decimal` and `decimalValue` its numbers;
* `simpleContent` and `sequence` are the two kinds of content of an element;
* `type_of_child` and `exists_attribute` are what an accepted element promises of its child
  elements and its attributes.

A comment may stand anywhere, and attributes of the schema instance namespace are left alone.
-/

namespace Xsd

open Xml

/-! ## Texts -/

/-- The texts that a type admits. -/
abbrev SimpleType := String → Bool

/-- `xs:string` -/
def string : SimpleType := fun _ => true

/-- A restriction of `xs:string` by its length. -/
def maxLength (n : ℕ) : SimpleType := fun s => s.length ≤ n

/-- A restriction of `xs:string` to these values. -/
def enumeration (values : List String) : SimpleType := fun s => values.contains s

/-- `[A-Z]{n}` -/
def capitals (n : ℕ) : SimpleType := fun s => s.length = n && s.toList.all Char.isUpper

/-- The white space of XML. -/
def isSpace (c : Char) : Bool := c = ' ' || c = '\t' || c = '\n' || c = '\r'

/-- The text without the white space around it. -/
def collapse (s : String) : List Char :=
  ((s.toList.dropWhile isSpace).reverse.dropWhile isSpace).reverse

/-- Digits with an optional point, at least one of them. -/
def unsignedDecimal (cs : List Char) : Bool :=
  match cs.dropWhile Char.isDigit with
  | [] => ! cs.isEmpty
  | '.' :: fraction => fraction.all Char.isDigit && 1 < cs.length
  | _ => false

/-- `xs:decimal` -/
def decimal : SimpleType := fun s =>
  match collapse s with
  | '-' :: cs => unsignedDecimal cs
  | '+' :: cs => unsignedDecimal cs
  | cs => unsignedDecimal cs

/-- `xs:boolean` -/
def boolean : SimpleType := fun s =>
  ["true", "false", "1", "0"].any fun value => collapse s = value.toList

/-- The number that digits write. -/
def digitsValue (cs : List Char) : ℕ := cs.foldl (fun n c => 10 * n + (c.toNat - 48)) 0

/-- The number that digits with an optional point write. -/
def unsignedValue (cs : List Char) : ℚ :=
  let fraction := (cs.dropWhile Char.isDigit).tail
  digitsValue (cs.takeWhile Char.isDigit ++ fraction) / 10 ^ fraction.length

/-- The number that a text of `xs:decimal` stands for. -/
def decimalValue (s : String) : ℚ :=
  match collapse s with
  | '-' :: cs => -unsignedValue cs
  | '+' :: cs => unsignedValue cs
  | cs => unsignedValue cs

/-! ## Contents -/

/-- The elements that an element may have. -/
abbrev ComplexType := Element → Bool

/-- The child elements. -/
def childElements (e : Element) : List Element := e.nodes.filter (·.tag ≠ .special)

/-- The text of an element, with what follows its child nodes. -/
def content (e : Element) : String :=
  e.nodes.foldl (fun s c => s ++ c.tail.getD "") (e.text.getD "")

/-- The namespace of the attributes that a validator reads itself. -/
def instanceNamespace : String := "\x7bhttp://www.w3.org/2001/XMLSchema-instance\x7d"

/-- The attributes that a type must declare.  Those of the instance namespace are let through,
without what `xsi:type` and `xsi:nil` mean to a validator. -/
def attributes (e : Element) : List (String × String) :=
  e.attrib.filter fun a => ! Text.startsWith instanceNamespace a.1

/-- A text, and a value for each of the declared attributes. -/
def simpleContent (type : SimpleType) (required : List (String × SimpleType)) :
    ComplexType := fun e =>
  (childElements e).isEmpty && type (content e) &&
    (attributes e).all (fun a => required.any fun use => use.1 == a.1 && use.2 a.2) &&
    required.all fun use => (attributes e).any (·.1 == use.1)

/-- An element of a sequence, once unless it says otherwise. -/
structure Particle where
  name : String
  type : ComplexType
  minOccurs : ℕ := 1
  maxOccurs : Option ℕ := some 1

namespace Particle

/-- The element may be missing. -/
def optional (p : Particle) : Particle := { p with minOccurs := 0 }

/-- The element may be repeated. -/
def unbounded (p : Particle) : Particle := { p with maxOccurs := none }

/-- The element may be repeated up to a bound. -/
def atMost (n : ℕ) (p : Particle) : Particle := { p with maxOccurs := some n }

@[simp] theorem name_optional (p : Particle) : p.optional.name = p.name := rfl

@[simp] theorem name_unbounded (p : Particle) : p.unbounded.name = p.name := rfl

@[simp] theorem name_atMost (n : ℕ) (p : Particle) : (p.atMost n).name = p.name := rfl

/-- The element has the name of the particle. -/
def names (ns : String) (p : Particle) (e : Element) : Bool := e.tag = .name (some ns) p.name

end Particle

/-- The elements are those of the particles, in their order. -/
def sequenceOf (ns : String) : List Particle → List Element → Bool
  | [], elements => elements.isEmpty
  | p :: particles, elements =>
    let mine := elements.takeWhile (p.names ns)
    p.minOccurs ≤ mine.length && p.maxOccurs.all (mine.length ≤ ·) && mine.all p.type &&
      sequenceOf ns particles (elements.dropWhile (p.names ns))

/-- Elements in the order of the particles, and nothing else. -/
def sequence (ns : String) (particles : List Particle) : ComplexType := fun e =>
  (attributes e).isEmpty && (content e).toList.all isSpace &&
    sequenceOf ns particles (childElements e)

/-- The tree of a schema whose only global element is the particle. -/
def accepts (ns : String) (root : Particle) (e : Element) : Bool := root.names ns e && root.type e

/-! ## What is accepted -/

variable {ns name : String} {particles : List Particle} {e c : Element}

theorem exists_particle_of_mem {elements : List Element} (h : sequenceOf ns particles elements)
    (hc : c ∈ elements) : ∃ p ∈ particles, p.names ns c ∧ p.type c := by
  induction particles generalizing elements with
  | nil =>
    rw [sequenceOf, List.isEmpty_iff] at h
    subst h
    cases hc
  | cons p particles ih =>
    simp only [sequenceOf, Bool.and_eq_true, List.all_eq_true] at h
    obtain ⟨⟨-, hmine⟩, hrest⟩ := h
    rw [← List.takeWhile_append_dropWhile (p := p.names ns) (l := elements)] at hc
    rcases List.mem_append.mp hc with hc | hc
    · exact ⟨p, List.mem_cons_self, List.mem_takeWhile_imp hc, hmine c hc⟩
    · obtain ⟨p', hp', h'⟩ := ih hrest hc
      exact ⟨p', List.mem_cons_of_mem _ hp', h'⟩

/-- A child element has the type that the sequence gives to its name. -/
theorem type_of_child {p : Particle} (h : sequence ns particles e) (hp : p ∈ particles)
    (hc : c ∈ e.children p.name) (hname : p.name ≠ "")
    (hnames : (particles.map (·.name)).Nodup) : p.type c := by
  obtain ⟨hmem, hlocal⟩ := List.mem_filter.mp hc
  have hlocal' : c.localName = p.name := by simpa using hlocal
  have hspecial : c.tag ≠ .special := by
    intro htag
    rw [Element.localName, htag] at hlocal'
    exact hname hlocal'.symm
  simp only [sequence, Bool.and_eq_true] at h
  obtain ⟨q, hq, htag, htype⟩ := exists_particle_of_mem h.2
    (List.mem_filter.mpr ⟨hmem, by simpa using hspecial⟩)
  have htag' : c.tag = .name (some ns) q.name := by simpa [Particle.names] using htag
  rw [Element.localName, htag'] at hlocal'
  -- the names tell the particles apart
  obtain rfl : q = p := List.inj_on_of_nodup_map hnames hq hp hlocal'
  exact htype

/-- A required attribute is there, with a value of its type. -/
theorem exists_attribute {type use : SimpleType} (h : simpleContent type [(name, use)] e)
    (hname : Text.startsWith instanceNamespace name = false) :
    ∃ value, e.get name = some value ∧ use value := by
  simp only [simpleContent, Bool.and_eq_true, List.all_eq_true, List.any_eq_true,
    List.mem_singleton, exists_eq_left, forall_eq, beq_iff_eq] at h
  obtain ⟨⟨-, hall⟩, a, ha, hkey⟩ := h
  have hattrib : a ∈ e.attrib := (List.mem_filter.mp ha).1
  cases hget : e.attrib.find? (·.1 = name) with
  | none =>
    have hno := List.find?_eq_none.mp hget a hattrib
    exact absurd hkey (by simpa using hno)
  | some b =>
    have hb : b.1 = name := by simpa using List.find?_some hget
    have hmem : b ∈ attributes e := by
      refine List.mem_filter.mpr ⟨List.mem_of_find?_eq_some hget, ?_⟩
      rw [hb, hname]
      rfl
    exact ⟨b.2, by rw [Element.get, hget]; rfl, (hall b hmem).2⟩

end Xsd
