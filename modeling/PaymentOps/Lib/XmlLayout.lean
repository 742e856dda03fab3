import PaymentOps.Lib.SchemaUpdates

/-!
# The layout of XML trees

White space between the child elements of an element is layout.  A printer may put it there, and a
reader that goes by elements does not see it.

* `Element.plain` is a tree without its layout;
* `children_plain`, `child_plain`: the reads by local name, `childElements_plain` that of a schema;
* `Xsd.IgnoresLayout` is a type that does not look at the layout, `ignoresLayout_sequence` and
  `ignoresLayout_simpleContent` say that those of a schema do not.
-/

namespace Xml.Element

/-! ## Plain trees -/

/-- The text, unless it is white space. -/
def unlessBlank (t : Option String) : Option String :=
  if (t.getD "").toList.all Xsd.isSpace then none else t

/-- Some child node is an element. -/
def hasElements (e : Element) : Bool := e.nodes.any (·.tag ≠ .special)

mutual

/-- The tree without white space around its elements. -/
def plain : Element → Element
  | node tag attrib text nodes tail =>
    if nodes.any (·.tag ≠ .special) then
      node tag attrib (unlessBlank text) (plainNodes nodes) (unlessBlank tail)
    else node tag attrib text nodes (unlessBlank tail)

/-- `plain` of each node. -/
def plainNodes : List Element → List Element
  | [] => []
  | c :: nodes => plain c :: plainNodes nodes

end

variable {e e' c n : Element} {name : String}

theorem plainNodes_eq (nodes : List Element) : plainNodes nodes = nodes.map plain := by
  induction nodes with
  | nil => rfl
  | cons c nodes ih => rw [plainNodes, List.map_cons, ih]

@[simp] theorem tag_plain (e : Element) : e.plain.tag = e.tag := by
  obtain ⟨tag, attrib, text, nodes, tail⟩ := e
  rw [plain]
  split <;> rfl

@[simp] theorem attrib_plain (e : Element) : e.plain.attrib = e.attrib := by
  obtain ⟨tag, attrib, text, nodes, tail⟩ := e
  rw [plain]
  split <;> rfl

@[simp] theorem tail_plain (e : Element) : e.plain.tail = unlessBlank e.tail := by
  obtain ⟨tag, attrib, text, nodes, tail⟩ := e
  rw [plain]
  split <;> rfl

theorem text_plain (e : Element) :
    e.plain.text = if e.hasElements then unlessBlank e.text else e.text := by
  obtain ⟨tag, attrib, text, nodes, tail⟩ := e
  rw [plain]
  unfold hasElements Element.nodes
  split <;> rfl

theorem nodes_plain (e : Element) :
    e.plain.nodes = if e.hasElements then e.nodes.map plain else e.nodes := by
  obtain ⟨tag, attrib, text, nodes, tail⟩ := e
  rw [plain]
  by_cases h : nodes.any (·.tag ≠ .special)
  · rw [if_pos h, if_pos (show (node tag attrib text nodes tail).hasElements from h)]
    exact plainNodes_eq nodes
  · rw [if_neg h, if_neg (show ¬ (node tag attrib text nodes tail).hasElements from h)]
    rfl

@[simp] theorem localName_plain (e : Element) : e.plain.localName = e.localName := by
  rw [localName, localName, tag_plain]

@[simp] theorem namespace?_plain (e : Element) : e.plain.namespace? = e.namespace? := by
  rw [namespace?, namespace?, tag_plain]

@[simp] theorem get_plain (e : Element) (key : String) : e.plain.get key = e.get key := by
  rw [get, get, attrib_plain]

@[simp] theorem isEmpty_nodes_plain (e : Element) : e.plain.nodes.isEmpty = e.nodes.isEmpty := by
  rw [nodes_plain]
  split
  · exact List.isEmpty_map
  · rfl

theorem tag_of_hasElements_eq_false (h : e.hasElements = false) (hc : c ∈ e.nodes) :
    c.tag = .special := by
  simpa using List.any_eq_false.mp h c hc

/-- Reads of elements read the plain elements. -/
theorem filter_nodes_plain {P : Element → Bool} (hplain : ∀ c, P c.plain = P c)
    (hspecial : ∀ c : Element, c.tag = .special → P c = false) (e : Element) :
    e.plain.nodes.filter P = (e.nodes.filter P).map plain := by
  rw [nodes_plain]
  cases h : e.hasElements with
  | true =>
    rw [if_pos rfl, List.filter_map]
    exact congrArg _ (List.filter_congr fun c _ => hplain c)
  | false =>
    have hnone : e.nodes.filter P = [] := List.filter_eq_nil_iff.mpr fun c hc =>
      ne_true_of_eq_false (hspecial c (tag_of_hasElements_eq_false h hc))
    rw [if_neg Bool.false_ne_true, hnone]
    rfl

theorem children_plain (hname : name ≠ "") (e : Element) :
    e.plain.children name = (e.children name).map plain := by
  refine filter_nodes_plain (fun c => by rw [localName_plain]) (fun c hc => ?_) e
  rw [localName, hc]
  exact decide_eq_false (Ne.symm hname)

theorem child_plain (hname : name ≠ "") (e : Element) :
    e.plain.child name = (e.child name).map plain := by
  rw [← head?_children, children_plain hname, List.head?_map, head?_children]

theorem childElements_plain (e : Element) :
    Xsd.childElements e.plain = (Xsd.childElements e).map plain := by
  refine filter_nodes_plain (fun c => by rw [tag_plain]) (fun c hc => ?_) e
  rw [hc]
  rfl

/-! ## Updates -/

theorem unlessBlank_unlessBlank (t : Option String) :
    unlessBlank (unlessBlank t) = unlessBlank t := by
  rw [unlessBlank, unlessBlank]
  split_ifs <;> rfl

theorem hasElements_eq_of_tags (h : e.nodes.map tag = e'.nodes.map tag) :
    e.hasElements = e'.hasElements := by
  have hany : ∀ l : List Element, l.any (·.tag ≠ .special) = (l.map tag).any (· ≠ .special) := by
    intro l
    rw [List.any_map]
    rfl
  rw [hasElements, hasElements, hany, hany, h]

theorem tags_plain (e : Element) : e.plain.nodes.map tag = e.nodes.map tag := by
  rw [nodes_plain]
  split
  · rw [List.map_map]
    exact List.map_congr_left fun c _ => tag_plain c
  · rfl

@[simp] theorem hasElements_plain (e : Element) : e.plain.hasElements = e.hasElements :=
  hasElements_eq_of_tags (tags_plain e)

theorem plain_eq_plain (htag : e.tag = e'.tag) (hattrib : e.attrib = e'.attrib)
    (htext : e.plain.text = e'.plain.text) (hnodes : e.plain.nodes = e'.plain.nodes)
    (htail : unlessBlank e.tail = unlessBlank e'.tail) : e.plain = e'.plain := by
  rw [← tag_plain, ← tag_plain e'] at htag
  rw [← attrib_plain, ← attrib_plain e'] at hattrib
  rw [← tail_plain, ← tail_plain e'] at htail
  revert htag hattrib htext hnodes htail
  cases e.plain
  cases e'.plain
  rintro rfl rfl rfl rfl rfl
  rfl

mutual

@[simp] theorem plain_plain : ∀ e : Element, e.plain.plain = e.plain
  | node tag attrib text nodes tail => by
    have hnodes := plainNodes_plainNodes nodes
    rw [plainNodes_eq, plainNodes_eq] at hnodes
    refine plain_eq_plain (tag_plain _) (attrib_plain _) ?_ ?_ ?_
    · rw [text_plain, text_plain, hasElements_plain]
      split
      · exact unlessBlank_unlessBlank text
      · rfl
    · rw [nodes_plain, nodes_plain, hasElements_plain]
      split
      · exact hnodes
      · rfl
    · rw [tail_plain, unlessBlank_unlessBlank]

theorem plainNodes_plainNodes :
    ∀ nodes : List Element, plainNodes (plainNodes nodes) = plainNodes nodes
  | [] => rfl
  | c :: nodes => by
    rw [plainNodes, plainNodes, plain_plain c, plainNodes_plainNodes nodes]

end

theorem map_plain_map_plain (nodes : List Element) :
    (nodes.map plain).map plain = nodes.map plain := by
  rw [List.map_map]
  exact List.map_congr_left fun c _ => plain_plain c

/-- A position leads to elements of the same tag. -/
theorem tag_at?_plain (pos : List ℕ) (e : Element) :
    (at? pos e.plain).map tag = (at? pos e).map tag := by
  induction pos generalizing e with
  | nil => exact congrArg some (tag_plain e)
  | cons k pos ih =>
    rw [at?, at?, nodes_plain]
    split
    · rw [List.getElem?_map]
      cases e.nodes[k]? with
      | none => rfl
      | some c => exact ih c
    · rfl

/-- The update of a tree does not depend on its layout. -/
structure RespectsLayout (f : Element → Element) : Prop where
  tag : ∀ e, (f e).tag = e.tag
  plain : ∀ e, (f e.plain).plain = (f e).plain

namespace RespectsLayout

theorem setText (t : Option String) : RespectsLayout (setText t) where
  tag := tag_setText t
  plain e := by
    have hsame : ∀ e : Element, (e.setText t).hasElements = e.hasElements := by
      intro e
      rw [hasElements, hasElements, nodes_setText]
    have hattrib : ∀ e : Element, (e.setText t).attrib = e.attrib := by
      intro e
      cases e
      rfl
    refine plain_eq_plain ?_ ?_ ?_ ?_ ?_
    · rw [tag_setText, tag_setText, tag_plain]
    · rw [hattrib, hattrib, attrib_plain]
    · rw [text_plain, text_plain, hsame, hsame, hasElements_plain, text_setText, text_setText]
    · rw [nodes_plain, nodes_plain, hsame, hsame, hasElements_plain, nodes_setText, nodes_setText,
        nodes_plain]
      split
      · exact map_plain_map_plain e.nodes
      · rfl
    · rw [(KeepsFrame.setText t).tail, (KeepsFrame.setText t).tail, tail_plain,
        unlessBlank_unlessBlank]

/-- The child nodes are exchanged for others. -/
theorem setNodes {l : Element → List Element}
    (hplain : ∀ e : Element, (l e.plain).map Element.plain = (l e).map Element.plain)
    (hkeeps : ∀ e : Element, (e.setNodes (l e)).hasElements = false → e.hasElements = false)
    (hsame : ∀ e : Element, e.hasElements = false → l e.plain = l e) :
    RespectsLayout fun e => e.setNodes (l e) where
  tag e := tag_setNodes (l e) e
  plain e := by
    have htags : (e.plain.setNodes (l e.plain)).hasElements = (e.setNodes (l e)).hasElements := by
      apply hasElements_eq_of_tags
      have hmap := congrArg (List.map Element.tag) (hplain e)
      rw [nodes_setNodes, nodes_setNodes]
      simpa [List.map_map, Function.comp_def] using hmap
    have htail : ∀ (l : List Element) (e : Element), (e.setNodes l).tail = e.tail := by
      intro l e
      cases e
      rfl
    refine plain_eq_plain ?_ ?_ ?_ ?_ ?_
    · rw [tag_setNodes, tag_setNodes, tag_plain]
    · rw [attrib_setNodes, attrib_setNodes, attrib_plain]
    · rw [text_plain, text_plain, htags, text_setNodes, text_setNodes, text_plain]
      cases h : (e.setNodes (l e)).hasElements with
      | true =>
        simp only [if_true]
        split
        · exact unlessBlank_unlessBlank _
        · rfl
      | false => rw [hkeeps e h]; rfl
    · rw [nodes_plain, nodes_plain, htags, nodes_setNodes, nodes_setNodes]
      cases h : (e.setNodes (l e)).hasElements with
      | true => exact hplain e
      | false => exact hsame e (hkeeps e h)
    · rw [htail, htail, tail_plain, unlessBlank_unlessBlank]

theorem updateNode {f : Element → Element} (hf : RespectsLayout f) (k : ℕ) :
    RespectsLayout (updateNode k f) := by
  refine setNodes ?_ ?_ ?_
  · intro e
    rw [nodes_plain]
    split
    · refine List.ext_getElem? fun i => ?_
      simp only [List.getElem?_map, List.getElem?_modify]
      cases e.nodes[i]? with
      | none => rfl
      | some c =>
        by_cases hk : k = i
        · simp [hk, hf.plain]
        · simp [hk]
    · rfl
  · intro e h
    rw [← h]
    refine (hasElements_eq_of_tags ?_).symm
    rw [nodes_setNodes, map_modify_of_keeps hf.tag]
  · intro e h
    rw [nodes_plain, h]
    rfl

theorem updateAt {f : Element → Element} (hf : RespectsLayout f) :
    ∀ pos, RespectsLayout (updateAt pos f)
  | [] => hf
  | k :: pos => (updateAt hf pos).updateNode k

/-- A child is appended, and the children are sorted. -/
theorem insert {key : Element → ℕ} {n : Element → Element}
    (hkey : ∀ c : Element, key c.plain = key c) (hn : ∀ e : Element, n e.plain = n e)
    (htag : ∀ e, (n e).tag ≠ .special) :
    RespectsLayout fun e => (e.append (n e)).sortNodes key := by
  have hnodes : (fun e : Element => (e.append (n e)).sortNodes key) = fun e : Element =>
      e.setNodes ((e.nodes ++ [n e]).insertionSort fun a b => key a ≤ key b) := by
    funext e
    cases e
    rfl
  rw [hnodes]
  refine setNodes ?_ ?_ ?_
  · intro e
    have hsort : ∀ l : List Element, (l.insertionSort fun a b => key a ≤ key b).map Element.plain =
        (l.map Element.plain).insertionSort fun a b => key a ≤ key b := by
      intro l
      refine List.map_insertionSort (fun a b => key a ≤ key b) (fun a b => key a ≤ key b) _ l ?_
      intro a _ b _
      rw [hkey, hkey]
    rw [hsort, hsort, hn, List.map_append, List.map_append, nodes_plain]
    split
    · rw [map_plain_map_plain]
    · rfl
  · intro e h
    -- the new child is an element
    have hmem : n e ∈ (e.nodes ++ [n e]).insertionSort fun a b => key a ≤ key b :=
      (List.mem_insertionSort _).mpr (by simp)
    have hspecial := tag_of_hasElements_eq_false h (by rw [nodes_setNodes]; exact hmem)
    exact absurd hspecial (htag e)
  · intro e h
    rw [nodes_plain, h, hn]
    rfl

end RespectsLayout

end Xml.Element

/-! ## Schemas -/

namespace Xsd

open Xml Element

/-- White space, as a schema sees it. -/
def blank (t : Option String) : Bool := (t.getD "").toList.all isSpace

theorem blank_unlessBlank (t : Option String) : blank (unlessBlank t) = blank t := by
  rw [unlessBlank]
  split_ifs with h
  · exact h.symm
  · rfl

theorem blank_content (e : Element) :
    (content e).toList.all isSpace = (blank e.text && e.nodes.all fun c => blank c.tail) := by
  have hfold : ∀ (l : List Element) (s : String),
      (l.foldl (fun s c => s ++ c.tail.getD "") s).toList.all isSpace =
        (s.toList.all isSpace && l.all fun c => blank c.tail) := by
    intro l
    induction l with
    | nil => simp
    | cons c l ih =>
      intro s
      rw [List.foldl_cons, ih, String.toList_append, List.all_append, List.all_cons, Bool.and_assoc]
      rfl
  exact hfold e.nodes _

theorem blank_content_plain (e : Element) :
    (content e.plain).toList.all isSpace = (content e).toList.all isSpace := by
  rw [blank_content, blank_content, text_plain, nodes_plain]
  split
  · rw [blank_unlessBlank, List.all_map]
    congr 1
    refine congrArg _ (funext fun c => ?_)
    rw [Function.comp, tail_plain, blank_unlessBlank]
  · rfl

theorem attributes_plain (e : Element) : attributes e.plain = attributes e := by
  rw [attributes, attributes, attrib_plain]

/-- The type takes an element with or without its layout. -/
def IgnoresLayout (type : ComplexType) : Prop := ∀ e, type e.plain = type e

theorem ignoresLayout_simpleContent (type : SimpleType) (required : List (String × SimpleType)) :
    IgnoresLayout (simpleContent type required) := by
  intro e
  simp only [simpleContent, attributes_plain, childElements_plain, List.isEmpty_map]
  cases h : e.hasElements with
  | true =>
    -- a simple type has no elements
    have hsome : (childElements e).isEmpty = false := by
      obtain ⟨c, hc, htag⟩ := List.any_eq_true.mp h
      have hmem : c ∈ childElements e := List.mem_filter.mpr ⟨hc, htag⟩
      cases hl : childElements e with
      | nil =>
        rw [hl] at hmem
        cases hmem
      | cons _ _ => rfl
    rw [hsome]
    rfl
  | false =>
    have hcontent : content e.plain = content e := by
      rw [content, content, text_plain, nodes_plain, h, if_neg Bool.false_ne_true,
        if_neg Bool.false_ne_true]
    rw [hcontent]

theorem sequenceOf_plain {ns : String} {particles : List Particle}
    (h : ∀ p ∈ particles, IgnoresLayout p.type) (elements : List Element) :
    sequenceOf ns particles (elements.map plain) = sequenceOf ns particles elements := by
  induction particles generalizing elements with
  | nil => exact List.isEmpty_map
  | cons p particles ih =>
    rw [List.forall_mem_cons] at h
    have hnames : p.names ns ∘ plain = p.names ns := by
      funext c
      rw [Function.comp, Particle.names, Particle.names, tag_plain]
    have htype : p.type ∘ plain = p.type := funext h.1
    simp only [sequenceOf, List.takeWhile_map, List.dropWhile_map, hnames, List.length_map,
      List.all_map, htype, ih h.2]

theorem ignoresLayout_sequence {ns : String} {particles : List Particle}
    (h : ∀ p ∈ particles, IgnoresLayout p.type) : IgnoresLayout (sequence ns particles) := by
  intro e
  rw [sequence, sequence, attributes_plain, blank_content_plain, childElements_plain,
    sequenceOf_plain h]

theorem ignoresLayout_nil : ∀ p ∈ ([] : List Particle), IgnoresLayout p.type := by
  simp

theorem ignoresLayout_cons {p : Particle} {particles : List Particle} (hp : IgnoresLayout p.type)
    (h : ∀ q ∈ particles, IgnoresLayout q.type) : ∀ q ∈ p :: particles, IgnoresLayout q.type :=
  List.forall_mem_cons.mpr ⟨hp, h⟩

theorem accepts_plain {ns : String} {root : Particle} (h : IgnoresLayout root.type) (e : Element) :
    accepts ns root e.plain = accepts ns root e := by
  rw [accepts, accepts, h e, Particle.names, Particle.names, tag_plain]

end Xsd
