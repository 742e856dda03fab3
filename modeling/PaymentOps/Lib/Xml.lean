import Mathlib.Data.List.Sort
import PaymentOps.Lib.Text

/-!
# XML trees

Trees as an XML library hands them out, read by local name and updated in place.

* `Element` is a node with its text, its child nodes and the text after it;
* `Element.children` and `Element.child` are the reads by local name;
* `Element.locate` is the position of the `n`-th child with a name, `Element.updateAt` the
  update at a position.  A position is a path of indices: it stands for a reference to a node.

* `Element.descend` is the position to which a list of names and numbers leads;
* `Element.Everywhere` is a property of all nodes of a tree.

`children_updateNode` says what an update does to the reads of the node, `children_append` and
`children_sortNodes` what inserting and sorting do, `at?_updateAt` and `at?_updateAt_of_apart` what
an update at a position leaves there and elsewhere.

Texts are XML text, which has no control characters.
-/

namespace Xml

/-- Comments and processing instructions have no name. -/
inductive Tag where
  | name (ns : Option String) (localName : String)
  | special
  deriving DecidableEq, Repr

/-- A node with its attributes, its text, its child nodes, and the text that follows it. -/
inductive Element where
  | node (tag : Tag) (attrib : List (String × String)) (text : Option String)
    (nodes : List Element) (tail : Option String)

namespace Element

/-- The tag of an element. -/
def tag : Element → Tag
  | node tag _ _ _ _ => tag

/-- The attributes of an element. -/
def attrib : Element → List (String × String)
  | node _ attrib _ _ _ => attrib

/-- The text before the first child node. -/
def text : Element → Option String
  | node _ _ text _ _ => text

/-- The child nodes, comments included. -/
def nodes : Element → List Element
  | node _ _ _ nodes _ => nodes

/-- The text after the element. -/
def tail : Element → Option String
  | node _ _ _ _ tail => tail

/-- The tag without its namespace. -/
def localName (e : Element) : String :=
  match e.tag with
  | .name _ l => l
  | .special => ""

/-- The namespace of the tag. -/
def namespace? (e : Element) : Option String :=
  match e.tag with
  | .name ns _ => ns
  | .special => none

/-- The value of an attribute. -/
def get (e : Element) (key : String) : Option String :=
  (e.attrib.find? (·.1 = key)).map (·.2)

/-- The child nodes with a local name. -/
def children (e : Element) (name : String) : List Element :=
  e.nodes.filter (·.localName = name)

/-- The first child node with a local name. -/
def child (e : Element) (name : String) : Option Element :=
  e.nodes.find? (·.localName = name)

/-- Replace the text.  Whether a library takes the text is for the caller to check. -/
def setText (t : Option String) : Element → Element
  | node tag attrib _ nodes tail => node tag attrib t nodes tail

/-- Replace the child nodes. -/
def setNodes (l : List Element) : Element → Element
  | node tag attrib text _ tail => node tag attrib text l tail

/-- Update the child node with index `k`. -/
def updateNode (k : ℕ) (f : Element → Element) (e : Element) : Element :=
  e.setNodes (e.nodes.modify k f)

/-- The node at a position. -/
def at? : List ℕ → Element → Option Element
  | [], e => some e
  | k :: pos, e => e.nodes[k]?.bind (at? pos)

/-- Update the node at a position. -/
def updateAt : List ℕ → (Element → Element) → Element → Element
  | [], f, e => f e
  | k :: pos, f, e => e.updateNode k (updateAt pos f)

/-- The index of the `n`-th child node with a local name. -/
def locate (e : Element) (name : String) (n : ℕ) : Option ℕ :=
  (e.nodes.findIdxs (·.localName = name))[n]?

/-- `parent.append(child)` -/
def append (e c : Element) : Element := e.setNodes (e.nodes ++ [c])

/-- Sort the child nodes by a key, equal keys in the order they have. -/
def sortNodes (key : Element → ℕ) (e : Element) : Element :=
  e.setNodes (e.nodes.insertionSort fun a b => key a ≤ key b)

/-! ## The parts of an updated element -/

@[simp] theorem nodes_setNodes (l : List Element) (e : Element) : (e.setNodes l).nodes = l := by
  cases e
  rfl

@[simp] theorem tag_setNodes (l : List Element) (e : Element) : (e.setNodes l).tag = e.tag := by
  cases e
  rfl

@[simp] theorem text_setNodes (l : List Element) (e : Element) :
    (e.setNodes l).text = e.text := by
  cases e
  rfl

@[simp] theorem attrib_setNodes (l : List Element) (e : Element) :
    (e.setNodes l).attrib = e.attrib := by
  cases e
  rfl

@[simp] theorem tag_setText (t : Option String) (e : Element) : (e.setText t).tag = e.tag := by
  cases e
  rfl

@[simp] theorem text_setText (t : Option String) (e : Element) : (e.setText t).text = t := by
  cases e
  rfl

@[simp] theorem nodes_setText (t : Option String) (e : Element) :
    (e.setText t).nodes = e.nodes := by
  cases e
  rfl

@[simp] theorem localName_setText (t : Option String) (e : Element) :
    (e.setText t).localName = e.localName := by
  simp [localName]

@[simp] theorem localName_setNodes (l : List Element) (e : Element) :
    (e.setNodes l).localName = e.localName := by
  simp [localName]

@[simp] theorem localName_updateNode (k : ℕ) (f : Element → Element) (e : Element) :
    (e.updateNode k f).localName = e.localName := localName_setNodes _ e

@[simp] theorem nodes_updateNode (k : ℕ) (f : Element → Element) (e : Element) :
    (e.updateNode k f).nodes = e.nodes.modify k f := nodes_setNodes _ e

@[simp] theorem localName_append (e c : Element) : (e.append c).localName = e.localName :=
  localName_setNodes _ e

@[simp] theorem localName_sortNodes (key : Element → ℕ) (e : Element) :
    (e.sortNodes key).localName = e.localName := localName_setNodes _ e

/-- Updates keep the local name of what they update. -/
def KeepsName (f : Element → Element) : Prop := ∀ e, (f e).localName = e.localName

theorem KeepsName.setText (t : Option String) : KeepsName (setText t) := localName_setText t

theorem KeepsName.updateNode (k : ℕ) (f : Element → Element) : KeepsName (updateNode k f) :=
  localName_updateNode k f

theorem KeepsName.append (c : Element) : KeepsName (append · c) := (localName_append · c)

theorem KeepsName.sortNodes (key : Element → ℕ) : KeepsName (sortNodes key) :=
  localName_sortNodes key

theorem KeepsName.updateAt {f : Element → Element} (hf : KeepsName f) :
    ∀ pos, KeepsName (updateAt pos f)
  | [] => hf
  | k :: _ => KeepsName.updateNode k _

/-- Updates keep what the parent of an element reads of it. -/
structure KeepsFrame (f : Element → Element) : Prop where
  tag : ∀ e, (f e).tag = e.tag
  tail : ∀ e, (f e).tail = e.tail

theorem KeepsFrame.setNodes (l : Element → List Element) :
    KeepsFrame fun e => e.setNodes (l e) where
  tag e := tag_setNodes (l e) e
  tail e := by
    cases e
    rfl

theorem KeepsFrame.setText (t : Option String) : KeepsFrame (setText t) where
  tag := tag_setText t
  tail e := by
    cases e
    rfl

theorem KeepsFrame.updateNode (k : ℕ) (f : Element → Element) : KeepsFrame (updateNode k f) :=
  .setNodes fun e => e.nodes.modify k f

theorem KeepsFrame.updateAt {f : Element → Element} (hf : KeepsFrame f) :
    ∀ pos, KeepsFrame (updateAt pos f)
  | [] => hf
  | k :: _ => .updateNode k _

theorem KeepsFrame.keepsName {f : Element → Element} (hf : KeepsFrame f) : KeepsName f := by
  intro e
  rw [localName, localName, hf.tag]

/-! ## Reads by local name -/

theorem head?_children (e : Element) (name : String) : (e.children name).head? = e.child name := by
  rw [children, child, List.head?_filter]

@[simp] theorem children_setText (t : Option String) (e : Element) (name : String) :
    (e.setText t).children name = e.children name := by
  simp [children]

theorem locate_eq_some {e : Element} {name : String} {n k : ℕ} (h : e.locate name n = some k) :
    ∃ c, e.nodes[k]? = some c ∧ c.localName = name ∧ (e.children name)[n]? = some c := by
  unfold locate at h
  obtain ⟨hn, hk⟩ := List.getElem?_eq_some_iff.mp h
  have hlt : k < e.nodes.length := by
    have := List.getElem_findIdxs_lt hn
    omega
  have hp := List.getElem_getElem_findIdxs hn
  have hlen : n < (e.children name).length := by
    rw [children, ← List.countP_eq_length_filter]
    rwa [List.length_findIdxs] at hn
  have hget := List.getElem_filter_eq_getElem_getElem_findIdxs hlen
  simp only [hk] at hp hget
  exact ⟨e.nodes[k], List.getElem?_eq_getElem hlt, by simpa using hp,
    by rw [List.getElem?_eq_getElem hlen, ← hget]; rfl⟩

theorem locate_isSome {e : Element} {name : String} {n : ℕ}
    (h : n < (e.children name).length) : ∃ k, e.locate name n = some k := by
  have hn : n < (e.nodes.findIdxs (·.localName = name)).length := by
    rw [children, ← List.countP_eq_length_filter] at h
    rwa [List.length_findIdxs]
  exact ⟨_, List.getElem?_eq_getElem hn⟩

theorem locate_eq_none {e : Element} {name : String} {n : ℕ} :
    e.locate name n = none ↔ (e.children name).length ≤ n := by
  rw [locate, List.getElem?_eq_none_iff, List.length_findIdxs, List.countP_eq_length_filter]
  rfl

theorem filter_modify_of_findIdxs {α : Type} {p : α → Bool} {f : α → α} (hf : ∀ a, p (f a) = p a)
    {l : List α} {n k : ℕ} (h : (l.findIdxs p)[n]? = some k) :
    (l.modify k f).filter p = (l.filter p).modify n f := by
  induction l generalizing n k with
  | nil => simp at h
  | cons a l ih =>
    rw [List.findIdxs_cons, List.findIdxs_start] at h
    cases hp : p a with
    | false =>
      simp only [hp, Bool.false_eq_true, if_false, List.getElem?_map, Option.map_eq_some_iff] at h
      obtain ⟨j, hj, rfl⟩ := h
      simp [List.modify_succ_cons, hp, ih hj]
    | true =>
      simp only [hp, if_true] at h
      cases n with
      | zero =>
        obtain rfl : 0 = k := by simpa using h
        simp [hp, hf]
      | succ n =>
        simp only [List.getElem?_cons_succ, List.getElem?_map, Option.map_eq_some_iff] at h
        obtain ⟨j, hj, rfl⟩ := h
        simp [List.modify_succ_cons, hp, ih hj]

theorem filter_modify_of_not {α : Type} {p : α → Bool} {f : α → α} (hf : ∀ a, p (f a) = p a)
    {l : List α} {k : ℕ} {a : α} (h : l[k]? = some a) (ha : p a = false) :
    (l.modify k f).filter p = l.filter p := by
  induction l generalizing k with
  | nil => simp
  | cons b l ih =>
    cases k with
    | zero =>
      obtain rfl : b = a := by simpa using h
      simp [hf, ha]
    | succ k =>
      rw [List.modify_succ_cons, List.filter_cons, List.filter_cons, ih (by simpa using h)]

/-- An update of the `n`-th child with a name is an update of the `n`-th element read under that
name, and of nothing read under another. -/
theorem children_updateNode {e : Element} {name : String} {n k : ℕ} {f : Element → Element}
    (hf : KeepsName f) (h : e.locate name n = some k) (name' : String) :
    (e.updateNode k f).children name' =
      if name' = name then (e.children name).modify n f else e.children name' := by
  unfold children updateNode
  rw [nodes_setNodes]
  split_ifs with hname
  · subst hname
    exact filter_modify_of_findIdxs (fun a => by rw [hf a]) h
  · obtain ⟨c, hc, hcn, -⟩ := locate_eq_some h
    refine filter_modify_of_not (fun a => by rw [hf a]) hc ?_
    rw [hcn]
    simpa using Ne.symm hname

theorem child_updateNode {e : Element} {name : String} {k : ℕ} {f : Element → Element}
    (hf : KeepsName f) (h : e.locate name 0 = some k) (name' : String) :
    (e.updateNode k f).child name' =
      if name' = name then (e.child name).map f else e.child name' := by
  rw [← head?_children, children_updateNode hf h, ← head?_children]
  split_ifs
  · cases e.children name <;> rfl
  · exact head?_children e name'

theorem children_append (e c : Element) (name : String) :
    (e.append c).children name =
      if c.localName = name then e.children name ++ [c] else e.children name := by
  unfold children append
  rw [nodes_setNodes, List.filter_append]
  split_ifs with h
  · simp [h]
  · simp [h]

/-- Sorting by a key of the local name changes no read. -/
theorem children_sortNodes {key : Element → ℕ}
    (hkey : ∀ a b : Element, a.localName = b.localName → key a = key b) (e : Element)
    (name : String) : (e.sortNodes key).children name = e.children name := by
  unfold children sortNodes
  rw [nodes_setNodes]
  have hsorted : (e.nodes.filter (·.localName = name)).Pairwise fun a b => key a ≤ key b := by
    apply List.pairwise_of_forall_mem_list
    intro a ha b hb
    have hab : a.localName = b.localName := by
      simp only [List.mem_filter, decide_eq_true_eq] at ha hb
      exact ha.2.trans hb.2.symm
    exact (hkey a b hab).le
  have hsub := (List.sublist_insertionSort hsorted List.filter_sublist).filter
    (·.localName = name)
  rw [List.filter_filter] at hsub
  simp only [Bool.and_self] at hsub
  apply Eq.symm
  apply hsub.eq_of_length
  exact ((List.perm_insertionSort _ e.nodes).filter _).length_eq.symm

/-! ## Positions -/

theorem at?_cons {k : ℕ} {pos : List ℕ} {e c : Element} :
    at? (k :: pos) e = some c ↔ ∃ d, e.nodes[k]? = some d ∧ at? pos d = some c :=
  Option.bind_eq_some_iff

theorem updateAt_append (pos pos' : List ℕ) (f : Element → Element) (e : Element) :
    updateAt (pos ++ pos') f e = updateAt pos (updateAt pos' f) e := by
  induction pos generalizing e with
  | nil => rfl
  | cons k pos ih =>
    simp only [List.cons_append, updateAt]
    congr 1
    funext c
    exact ih c

/-- The position to which steps lead; a step is a local name and a number among the child nodes
with that name. -/
def descend : Element → List (String × ℕ) → Option (List ℕ)
  | _, [] => some []
  | e, (name, n) :: steps =>
    (e.locate name n).bind fun k => e.nodes[k]?.bind fun c => (descend c steps).map (k :: ·)

theorem descend_cons {e : Element} {name : String} {n : ℕ} {steps : List (String × ℕ)}
    {pos : List ℕ} :
    descend e ((name, n) :: steps) = some pos ↔
      ∃ k c pos', e.locate name n = some k ∧ e.nodes[k]? = some c ∧
        descend c steps = some pos' ∧ pos = k :: pos' := by
  simp only [descend, Option.bind_eq_some_iff, Option.map_eq_some_iff]
  constructor
  · rintro ⟨k, hk, c, hc, pos', hpos, rfl⟩
    exact ⟨k, c, pos', hk, hc, hpos, rfl⟩
  · rintro ⟨k, c, pos', hk, hc, hpos, rfl⟩
    exact ⟨k, hk, c, hc, pos', hpos, rfl⟩

/-- Reading a child and going on is a descent. -/
theorem exists_descend_cons {e c : Element} {name : String} {n : ℕ}
    {steps : List (String × ℕ)} {pos : List ℕ} (hc : (e.children name)[n]? = some c)
    (hpos : descend c steps = some pos) :
    ∃ k, e.locate name n = some k ∧ e.nodes[k]? = some c ∧
      descend e ((name, n) :: steps) = some (k :: pos) := by
  obtain ⟨k, hk⟩ := locate_isSome (List.getElem?_eq_some_iff.mp hc).1
  obtain ⟨c', hc', -, hget⟩ := locate_eq_some hk
  obtain rfl : c' = c := Option.some.inj (hget.symm.trans hc)
  exact ⟨k, hk, hc', descend_cons.mpr ⟨k, c', pos, hk, hc', hpos, rfl⟩⟩

theorem descend_append {e c : Element} {steps steps' : List (String × ℕ)} {pos : List ℕ}
    (h : descend e steps = some pos) (hc : at? pos e = some c) :
    descend e (steps ++ steps') = (descend c steps').map (pos ++ ·) := by
  induction steps generalizing e pos with
  | nil =>
    cases h
    cases hc
    simp
  | cons s steps ih =>
    obtain ⟨name, n⟩ := s
    obtain ⟨k, d, pos', hk, hd, hpos, rfl⟩ := descend_cons.mp h
    obtain ⟨d', hd', hc⟩ := at?_cons.mp hc
    obtain rfl : d' = d := Option.some.inj (hd'.symm.trans hd)
    simp [descend, hk, hd', ih hpos hc, Function.comp_def]

/-! ## Properties of all nodes -/

/-- The element and all nodes below it satisfy `P`. -/
def Everywhere (P : Element → Prop) (e : Element) : Prop := ∀ pos c, at? pos e = some c → P c

theorem everywhere_iff {P : Element → Prop} {e : Element} :
    Everywhere P e ↔ P e ∧ ∀ c ∈ e.nodes, Everywhere P c := by
  constructor
  · intro h
    refine ⟨h [] e rfl, fun c hc pos d hd => ?_⟩
    obtain ⟨k, hk⟩ := List.getElem?_of_mem hc
    exact h (k :: pos) d (at?_cons.mpr ⟨c, hk, hd⟩)
  · rintro ⟨he, hnodes⟩ pos c hc
    cases pos with
    | nil =>
      cases hc
      exact he
    | cons k pos =>
      obtain ⟨d, hd, hc⟩ := at?_cons.mp hc
      exact hnodes d (List.mem_of_getElem? hd) pos c hc

theorem map_modify_of_keeps {β : Type} {g : Element → β} {f : Element → Element}
    (h : ∀ e, g (f e) = g e) (l : List Element) (k : ℕ) : (l.modify k f).map g = l.map g := by
  induction l generalizing k with
  | nil => simp
  | cons a l ih =>
    cases k with
    | zero => simp [h]
    | succ k => simp [List.modify_succ_cons, ih]

/-- An update keeps a property of all nodes, when it keeps it below the place of the update and
the property looks at local names only. -/
theorem Everywhere.updateAt {P : Element → Prop}
    (hP : ∀ e e' : Element, e'.localName = e.localName →
      e'.nodes.map localName = e.nodes.map localName → P e → P e')
    {f : Element → Element} (hf : KeepsName f) {pos : List ℕ} {e c : Element}
    (hc : at? pos e = some c) (hfc : Everywhere P c → Everywhere P (f c))
    (h : Everywhere P e) : Everywhere P (updateAt pos f e) := by
  induction pos generalizing e with
  | nil =>
    cases hc
    exact hfc h
  | cons k pos ih =>
    obtain ⟨d, hd, hc⟩ := at?_cons.mp hc
    obtain ⟨he, hnodes⟩ := everywhere_iff.mp h
    refine everywhere_iff.mpr ⟨?_, fun x hx => ?_⟩
    · refine hP e _ (localName_updateNode _ _ e) ?_ he
      rw [Element.updateAt, nodes_updateNode]
      exact map_modify_of_keeps (hf.updateAt pos) _ _
    · rw [Element.updateAt, nodes_updateNode] at hx
      obtain ⟨i, hi⟩ := List.getElem?_of_mem hx
      rw [List.getElem?_modify] at hi
      by_cases hki : k = i
      · have hx' : Element.updateAt pos f d = x := by simpa [← hki, hd] using hi
        rw [← hx']
        exact ih hc (hnodes d (List.mem_of_getElem? hd))
      · have hx' : e.nodes[i]? = some x := by simpa [hki] using hi
        exact hnodes x (List.mem_of_getElem? hx')

/-! ## Updates and positions -/

section

variable {f : Element → Element} {e : Element} {pos pos' : List ℕ}
  {steps steps' : List (String × ℕ)}

/-- A step leads to one child, and no other step does. -/
theorem locate_inj {name name' : String} {n n' k : ℕ} (h : e.locate name n = some k)
    (h' : e.locate name' n' = some k) : name = name' ∧ n = n' := by
  obtain ⟨d, hd, rfl, -⟩ := locate_eq_some h
  obtain ⟨d', hd', rfl, -⟩ := locate_eq_some h'
  obtain rfl : d' = d := Option.some.inj (hd'.symm.trans hd)
  refine ⟨rfl, ?_⟩
  have hnodup : (e.nodes.findIdxs (·.localName = d'.localName)).Nodup :=
    List.pairwise_findIdxs.imp fun h => ne_of_lt h
  obtain ⟨hn, hk⟩ := List.getElem?_eq_some_iff.mp h
  obtain ⟨hn', hk'⟩ := List.getElem?_eq_some_iff.mp h'
  exact (hnodup.getElem_inj_iff).mp (hk.trans hk'.symm)

theorem locate_updateNode (hf : KeepsName f) (k : ℕ) (name : String) (n : ℕ) :
    (e.updateNode k f).locate name n = e.locate name n := by
  have hmap : ∀ l : List Element, l.findIdxs (·.localName = name) =
      (l.map localName).findIdxs (· = name) := by
    intro l
    rw [List.findIdxs_map]
    rfl
  rw [locate, locate, hmap, hmap, nodes_updateNode, map_modify_of_keeps hf]

theorem at?_updateAt : at? pos (updateAt pos f e) = (at? pos e).map f := by
  induction pos generalizing e with
  | nil => rfl
  | cons k pos ih =>
    rw [updateAt, at?, at?, nodes_updateNode, List.getElem?_modify_eq]
    cases e.nodes[k]? with
    | none => rfl
    | some d => exact ih

/-- An update does not change where steps lead, unless they lead below its place. -/
theorem descend_updateAt (hf : KeepsName f) (hpos : descend e steps = some pos)
    (hbelow : steps <+: steps' → steps' = steps) :
    descend (updateAt pos f e) steps' = descend e steps' := by
  induction steps generalizing e pos steps' with
  | nil =>
    obtain rfl := hbelow List.nil_prefix
    rfl
  | cons step steps ih =>
    obtain ⟨name, n⟩ := step
    obtain ⟨k, d, pos, hk, hd, hdpos, rfl⟩ := descend_cons.mp hpos
    rcases steps' with _ | ⟨⟨name', n'⟩, steps'⟩
    · rfl
    · rw [updateAt, descend, descend, locate_updateNode (hf.updateAt pos)]
      cases hk' : e.locate name' n' with
      | none => rfl
      | some k' =>
        rw [Option.bind_some, Option.bind_some, nodes_updateNode]
        by_cases hkk : k = k'
        · subst hkk
          obtain ⟨rfl, rfl⟩ := locate_inj hk hk'
          have hrest : descend (updateAt pos f d) steps' = descend d steps' :=
            ih hdpos fun h => (List.cons.inj (hbelow (List.cons_prefix_cons.mpr ⟨rfl, h⟩))).2
          rw [List.getElem?_modify_eq, hd]
          exact congrArg (Option.map (k :: ·)) hrest
        · rw [List.getElem?_modify_ne _ _ hkk]

/-- An update is not seen where steps lead that go another way. -/
theorem at?_updateAt_of_apart (hpos : descend e steps = some pos)
    (hpos' : descend e steps' = some pos') (hstart : ¬ steps <+: steps')
    (hstart' : ¬ steps' <+: steps) : at? pos' (updateAt pos f e) = at? pos' e := by
  induction steps generalizing e pos pos' steps' with
  | nil => exact absurd List.nil_prefix hstart
  | cons step steps ih =>
    obtain ⟨name, n⟩ := step
    obtain ⟨k, d, pos, hk, hd, hdpos, rfl⟩ := descend_cons.mp hpos
    rcases steps' with _ | ⟨⟨name', n'⟩, steps'⟩
    · exact absurd List.nil_prefix hstart'
    · obtain ⟨k', d', pos', hk', hd', hdpos', rfl⟩ := descend_cons.mp hpos'
      rw [updateAt, at?, at?, nodes_updateNode]
      by_cases hkk : k = k'
      · subst hkk
        obtain ⟨rfl, rfl⟩ := locate_inj hk hk'
        obtain rfl : d' = d := Option.some.inj (hd'.symm.trans hd)
        have hrest : at? pos' (updateAt pos f d') = at? pos' d' :=
          ih hdpos hdpos' (fun h => hstart (List.cons_prefix_cons.mpr ⟨rfl, h⟩))
            fun h => hstart' (List.cons_prefix_cons.mpr ⟨rfl, h⟩)
        rw [List.getElem?_modify_eq, hd]
        exact hrest
      · rw [List.getElem?_modify_ne _ _ hkk]

end

end Element

end Xml
