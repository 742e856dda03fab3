import PaymentOps.Repair.Proposals

/-!
# Where the paths of pacs.008 lead

The adapter writes the path of an address, the reconstruction reads it back by splitting.  In a
tree with such an address the path leads to it, and the change of a field of the address is an
update of that element: of the text of the field, or of its children when the field is missing.

* `walk_eq`: a path that denotes steps leads where the steps lead;
* `segments_denote`: the paths of the adapter denote the steps to the address;
* `applyOne_of_address`: what one change does to a tree.
-/

namespace PaymentOps.Repair

open Text Xml Element

variable {u : Unicode}

/-! ## Segments -/

/-- A segment that is read back as a step. -/
structure Denotes (u : Unicode) (segment : String) (step : String × ℕ) : Prop where
  plain : '/' ∉ segment.toList ∧ segment ≠ ""
  name : stripIndex segment = step.1
  index : segmentIndex u segment = .ok (step.2 : ℤ)

theorem denotes_of_plain {s : String} (hslash : '/' ∉ s.toList) (hbracket : '[' ∉ s.toList)
    (hs : s ≠ "") : Denotes u s (s, 0) where
  plain := ⟨hslash, hs⟩
  name := by rw [stripIndex, partition_of_not_mem hbracket]
  index := by
    rw [segmentIndex, partition_of_not_mem hbracket]
    rfl

theorem not_mem_toString {c : Char} (hc : c.isDigit = false) (n : ℕ) :
    c ∉ (toString n).toList := by
  intro h
  rw [isDigit_of_mem_toString h] at hc
  cases hc

/-- A numbered segment such as `CdtTrfTxInf[3]`. -/
theorem denotes_of_indexed {s : String} (hslash : '/' ∉ s.toList) (hbracket : '[' ∉ s.toList)
    (n : ℕ) : Denotes u (s ++ "[" ++ (toString n ++ "]")) (s, n) := by
  have hpart : partition '[' (s ++ "[" ++ (toString n ++ "]")) = (s, toString n ++ "]") :=
    partition_append hbracket _
  refine ⟨⟨?_, ?_⟩, ?_, ?_⟩
  · have hn : '/' ∉ (toString n).toList := not_mem_toString (by decide) n
    simp only [String.toList_append, List.mem_append, not_or]
    exact ⟨⟨hslash, by decide⟩, hn, by decide⟩
  · intro h
    have hlen := congrArg String.length h
    simp at hlen
  · rw [stripIndex, hpart]
  · have hstrip : rstripChars [']'] (toString n ++ "]") = toString n := by
      apply rstripChars_append
      intro h
      exact not_mem_toString (c := ']') (by decide) n (List.mem_of_getLast? h)
    have hne : toString n ++ "]" ≠ "" := by
      intro h
      have hlen := congrArg String.length h
      simp at hlen
    rw [segmentIndex, hpart]
    simp only [if_neg hne, hstrip, int_toString]

theorem plain_of_denote {segs : List String} {steps : List (String × ℕ)}
    (h : List.Forall₂ (Denotes u) segs steps) : ∀ s ∈ segs, '/' ∉ s.toList ∧ s ≠ "" := by
  induction h with
  | nil => simp
  | cons hd _ ih => exact List.forall_mem_cons.mpr ⟨hd.plain, ih⟩

/-! ## Navigation -/

theorem childByLocal_eq {node : Element} {segment : String} {step : String × ℕ}
    (h : Denotes u segment step) :
    childByLocal u node segment = .ok (node.locate step.1 step.2) := by
  unfold childByLocal
  rw [h.index, h.name]
  simp only [bind, Except.bind, pure, Except.pure]
  by_cases hlen : ((node.nodes.findIdxs (·.localName = step.1)).length : ℤ) ≤ step.2
  · rw [if_pos hlen, locate, List.getElem?_eq_none (by omega)]
  · rw [if_neg hlen, if_pos (by omega), Int.toNat_natCast]

theorem walk_eq {segs : List String} {steps : List (String × ℕ)}
    (h : List.Forall₂ (Denotes u) segs steps) (node : Element) :
    walk u node segs = .ok (descend node steps) := by
  induction h generalizing node with
  | nil => rfl
  | @cons seg step segs steps hd _ ih =>
    obtain ⟨name, n⟩ := step
    rw [walk, childByLocal_eq hd, descend]
    simp only [bind, Except.bind]
    cases node.locate name n with
    | none => rfl
    | some k =>
      cases hk : node.nodes[k]? with
      | none => simp [hk, pure, Except.pure]
      | some c => simp [hk, ih c, Except.map]

theorem navigate_eq {root : Element} {path seg : String} {segs : List String}
    {steps : List (String × ℕ)} (hpath : segments path = seg :: segs)
    (hroot : root.localName = stripIndex seg) (h : List.Forall₂ (Denotes u) segs steps) :
    navigate u root path = .ok (descend root steps) := by
  simp only [navigate, hpath, hroot, if_true]
  exact walk_eq h root

/-! ## The paths of the adapter -/

namespace Place

/-- The path of the address of a transaction, as the pacs.008 adapter writes it. -/
def path (i : ℕ) : Place → String
  | debtor => Iso.Pacs008.transactionPath i ++ "/Dbtr" ++ "/PstlAdr"
  | creditor => Iso.Pacs008.transactionPath i ++ "/Cdtr" ++ "/PstlAdr"
  | debtorAgent => Iso.Pacs008.transactionPath i ++ "/DbtrAgt" ++ "/FinInstnId/PstlAdr"
  | creditorAgent => Iso.Pacs008.transactionPath i ++ "/CdtrAgt" ++ "/FinInstnId/PstlAdr"

/-- The names from the transaction down to the address. -/
def names : Place → List String
  | debtor => ["Dbtr", "PstlAdr"]
  | creditor => ["Cdtr", "PstlAdr"]
  | debtorAgent => ["DbtrAgt", "FinInstnId", "PstlAdr"]
  | creditorAgent => ["CdtrAgt", "FinInstnId", "PstlAdr"]

/-- The steps from the root down to the address. -/
def steps (i : ℕ) (p : Place) : List (String × ℕ) :=
  ("FIToFICstmrCdtTrf", 0) :: ("CdtTrfTxInf", i) :: p.names.map (·, 0)

/-- The names on the way to the address of a place. -/
def segments (i : ℕ) (p : Place) : List String :=
  "FIToFICstmrCdtTrf" :: ("CdtTrfTxInf" ++ "[" ++ (toString i ++ "]")) :: p.names

theorem segments_denote (i : ℕ) (p : Place) :
    List.Forall₂ (Denotes u) (p.segments i) (p.steps i) := by
  have hplain : ∀ s ∈ ["FIToFICstmrCdtTrf", "Dbtr", "Cdtr", "DbtrAgt", "CdtrAgt", "FinInstnId",
      "PstlAdr"], Denotes u s (s, 0) := by
    intro s hs
    have h : '/' ∉ s.toList ∧ '[' ∉ s.toList ∧ s ≠ "" := by
      revert s
      decide
    exact denotes_of_plain h.1 h.2.1 h.2.2
  refine .cons (hplain _ (by decide)) (.cons ?_ ?_)
  · exact denotes_of_indexed (by decide) (by decide) i
  · cases p <;> simp [names, hplain]

theorem segments_transactionPath (i : ℕ) :
    Repair.segments (Iso.Pacs008.transactionPath i) =
      ["Document", "FIToFICstmrCdtTrf", "CdtTrfTxInf" ++ "[" ++ (toString i ++ "]")] := by
  have hprefix : "/Document/FIToFICstmrCdtTrf/CdtTrfTxInf[" =
      "/Document/FIToFICstmrCdtTrf" ++ "/" ++ "CdtTrfTxInf" ++ "[" := by
    decide
  have hpath : Iso.Pacs008.transactionPath i =
      "/Document/FIToFICstmrCdtTrf" ++ "/" ++ ("CdtTrfTxInf" ++ "[" ++ (toString i ++ "]")) := by
    refine (congrArg (· ++ toString i ++ "]") hprefix).trans ?_
    simp only [String.append_assoc]
  have hindexed : Denotes Unicode.ascii ("CdtTrfTxInf" ++ "[" ++ (toString i ++ "]"))
      ("CdtTrfTxInf", i) := denotes_of_indexed (by decide) (by decide) i
  have hhead : Repair.segments "/Document/FIToFICstmrCdtTrf" =
      ["Document", "FIToFICstmrCdtTrf"] := by
    decide
  calc Repair.segments (Iso.Pacs008.transactionPath i)
      = Repair.segments "/Document/FIToFICstmrCdtTrf" ++
          Repair.segments ("CdtTrfTxInf" ++ "[" ++ (toString i ++ "]")) := by
        rw [hpath]
        exact segments_append _ _
    _ = ["Document", "FIToFICstmrCdtTrf"] ++ ["CdtTrfTxInf" ++ "[" ++ (toString i ++ "]")] :=
        congrArg₂ _ hhead (segments_of_not_mem hindexed.plain.1 hindexed.plain.2)
    _ = _ := rfl

theorem segments_path (i : ℕ) (p : Place) :
    Repair.segments (p.path i) = "Document" :: p.segments i := by
  have happ : ∀ s t t' : String, t = "/" ++ t' → Repair.segments (s ++ t) =
      Repair.segments s ++ Repair.segments t' := by
    rintro s t t' rfl
    rw [← String.append_assoc, segments_append]
  have hdbtr : Repair.segments "Dbtr" = ["Dbtr"] := by decide
  have hcdtr : Repair.segments "Cdtr" = ["Cdtr"] := by decide
  have hdbtrAgt : Repair.segments "DbtrAgt" = ["DbtrAgt"] := by decide
  have hcdtrAgt : Repair.segments "CdtrAgt" = ["CdtrAgt"] := by decide
  have hadr : Repair.segments "PstlAdr" = ["PstlAdr"] := by decide
  have hfi : Repair.segments "FinInstnId/PstlAdr" = ["FinInstnId", "PstlAdr"] := by decide
  cases p with
  | debtor =>
    rw [path, happ _ _ "PstlAdr" (by decide), happ _ _ "Dbtr" (by decide),
      segments_transactionPath, hdbtr, hadr]
    rfl
  | creditor =>
    rw [path, happ _ _ "PstlAdr" (by decide), happ _ _ "Cdtr" (by decide),
      segments_transactionPath, hcdtr, hadr]
    rfl
  | debtorAgent =>
    rw [path, happ _ _ "FinInstnId/PstlAdr" (by decide), happ _ _ "DbtrAgt" (by decide),
      segments_transactionPath, hdbtrAgt, hfi]
    rfl
  | creditorAgent =>
    rw [path, happ _ _ "FinInstnId/PstlAdr" (by decide), happ _ _ "CdtrAgt" (by decide),
      segments_transactionPath, hcdtrAgt, hfi]
    rfl

end Place

/-! ## What one change does to an address -/

/-- The children of a postal address are in the order of the schema. -/
def Ordered (e : Element) : Prop :=
  e.localName = "PstlAdr" → (e.nodes.map orderIndex).Pairwise (· ≤ ·)

/-- `a'` is the address `a` with `v` as its field `leaf`. -/
structure Repaired (leaf v : String) (a a' : Element) : Prop where
  field : Iso.childText (some a') leaf = some v
  frame : ∀ name, name ≠ leaf → a'.children name = a.children name

theorem orderIndex_congr {a b : Element} (h : a.localName = b.localName) :
    orderIndex a = orderIndex b := by
  rw [orderIndex, orderIndex, h]

theorem ordered_congr (e e' : Element) (hname : e'.localName = e.localName)
    (hnodes : e'.nodes.map localName = e.nodes.map localName) (h : Ordered e) : Ordered e' := by
  intro hadr
  have hidx : ∀ l : List Element, l.map orderIndex =
      (l.map localName).map (postalAddressOrder.idxOf ·) := by
    intro l
    rw [List.map_map]
    rfl
  rw [hidx, hnodes, ← hidx]
  exact h (hname ▸ hadr)

section

variable {a : Element} {leaf v : String} (hv : Stripped v ∧ v ≠ "")

include hv

theorem text_of_stripped {c : Element} (hc : c.text = some v) : Iso.text (some c) = some v := by
  have hs : strip v = v := hv.1
  simp [Iso.text, hc, hs, orNone_of_ne hv.2]

theorem repaired_setText {k : ℕ} (hk : a.locate leaf 0 = some k) :
    Repaired leaf v a (a.updateNode k (setText (some v))) where
  field := by
    obtain ⟨c, -, -, hc⟩ := locate_eq_some hk
    have hchild : a.child leaf = some c := by
      rw [← head?_children, List.head?_eq_getElem?, hc]
    have hchild' : (a.updateNode k (setText (some v))).child leaf =
        some (c.setText (some v)) := by
      rw [child_updateNode (.setText _) hk, if_pos rfl, hchild]
      rfl
    rw [Iso.childText, Iso.child, Option.bind_some, hchild']
    exact text_of_stripped hv (text_setText _ c)
  frame name hname := by
    rw [children_updateNode (.setText _) hk, if_neg hname]

theorem repaired_insertMissing (hnone : a.locate leaf 0 = none) :
    Repaired leaf v a (insertMissing leaf (some v) a) := by
  have hread : ∀ name, (insertMissing leaf (some v) a).children name =
      if leaf = name then a.children name ++ [newChild a leaf (some v)] else a.children name := by
    intro name
    unfold insertMissing reorderChildren
    rw [children_sortNodes fun _ _ => orderIndex_congr, children_append]
    rfl
  have hempty : a.children leaf = [] := by
    have hlen := locate_eq_none.mp hnone
    exact List.length_eq_zero_iff.mp (by omega)
  constructor
  · have hchild : (insertMissing leaf (some v) a).child leaf =
        some (newChild a leaf (some v)) := by
      rw [← head?_children, hread, if_pos rfl, hempty]
      rfl
    rw [Iso.childText, Iso.child, Option.bind_some, hchild]
    exact text_of_stripped hv rfl
  · intro name hname
    rw [hread, if_neg (Ne.symm hname)]

end

theorem ordered_setText {a : Element} {leaf : String} {k : ℕ} {t : Option String}
    (hk : a.locate leaf 0 = some k) (h : Everywhere Ordered a) :
    Everywhere Ordered (a.updateNode k (setText t)) := by
  obtain ⟨c, hc, -, -⟩ := locate_eq_some hk
  show Everywhere Ordered (Element.updateAt [k] (setText t) a)
  refine Everywhere.updateAt ordered_congr (.setText t)
    (at?_cons.mpr ⟨c, hc, rfl⟩) (fun hcs => ?_) h
  obtain ⟨hco, hnodes⟩ := everywhere_iff.mp hcs
  refine everywhere_iff.mpr ⟨ordered_congr c _ (localName_setText t c) (by simp) hco, ?_⟩
  simpa using hnodes

theorem ordered_insertMissing {a : Element} {leaf : String} {t : Option String}
    (h : Everywhere Ordered a) : Everywhere Ordered (insertMissing leaf t a) := by
  obtain ⟨-, hnodes⟩ := everywhere_iff.mp h
  have hnew : Everywhere Ordered (newChild a leaf t) := by
    refine everywhere_iff.mpr ⟨fun _ => ?_, ?_⟩
    · exact List.Pairwise.nil
    · intro c hc
      cases hc
  unfold insertMissing reorderChildren sortNodes
  refine everywhere_iff.mpr ⟨fun _ => ?_, fun c hc => ?_⟩
  · have : IsTrans Element fun a b => orderIndex a ≤ orderIndex b :=
      ⟨fun _ _ _ => le_trans⟩
    have : Std.Total fun a b : Element => orderIndex a ≤ orderIndex b :=
      ⟨fun _ _ => le_total _ _⟩
    rw [nodes_setNodes, List.pairwise_map]
    exact List.pairwise_insertionSort _ _
  · rw [nodes_setNodes, List.mem_insertionSort, append, nodes_setNodes, List.mem_append,
      List.mem_singleton] at hc
    rcases hc with hc | rfl
    · exact hnodes c hc
    · exact hnew

/-- The address with `v` written to a field: to the element that is there, or to a new one. -/
def writeField (leaf v : String) (a : Element) : Element :=
  match a.locate leaf 0 with
  | some k => a.updateNode k (setText (some v))
  | none => insertMissing leaf (some v) a

theorem keepsFrame_insertMissing (leaf : String) (v : Option String) :
    KeepsFrame (insertMissing leaf v) where
  tag e := (tag_setNodes _ _).trans (tag_setNodes _ e)
  tail e := by
    cases e
    rfl

@[simp] theorem checkText_some (v : String) :
    checkText (some v) = if XmlCompatible v then .ok () else .error incompatibleText := by
  simp [checkText]

/-- One change of a field of an address is an update of the address, if the text is written. -/
theorem applyOne_at {root a : Element} {i : ℕ} {place : Place} {leaf : Leaf} {v : String}
    {entry : DiffEntry} {pos : List ℕ} (hroot : root.localName = "Document")
    (hpos : descend root (place.steps i) = some pos) (ha : at? pos root = some a)
    (hname : a.localName = "PstlAdr") (hpath : entry.path = place.path i ++ "/" ++ leaf.name)
    (hafter : entry.after = some v) :
    ∃ g, KeepsFrame g ∧
      applyOne u root entry = (checkText (some v)).map (fun _ => some (root.updateAt pos g)) ∧
      g a = writeField leaf.name v a := by
  have hdoc : root.localName = stripIndex "Document" := by
    rw [hroot]
    decide
  have hleaf : Denotes u leaf.name (leaf.name, 0) := by
    cases leaf
    · exact denotes_of_plain (by decide) (by decide) (by decide)
    · exact denotes_of_plain (by decide) (by decide) (by decide)
  have hsegs : segments entry.path = "Document" :: (place.segments i ++ [leaf.name]) := by
    rw [hpath, segments_append, Place.segments_path,
      segments_of_not_mem hleaf.plain.1 hleaf.plain.2]
    rfl
  have hnav : navigate u root entry.path =
      .ok ((a.locate leaf.name 0).bind fun k => a.nodes[k]?.map fun _ => pos ++ [k]) := by
    rw [navigate_eq hsegs hdoc (List.rel_append (place.segments_denote i) (.cons hleaf .nil)),
      descend_append hpos ha]
    simp only [descend, Option.map_bind]
    congr 1
    congr 1
    funext k
    cases hc : a.nodes[k]? <;> simp [hc]
  rcases hk : a.locate leaf.name 0 with _ | k
  · -- the field is missing: the path of its parent leads to the address
    have hparent : navigate u root (join "/" (segments entry.path).dropLast) = .ok (some pos) := by
      have hdrop : (segments entry.path).dropLast = "Document" :: place.segments i := by
        rw [hsegs, ← List.cons_append, List.dropLast_concat]
      have hplain : ∀ s ∈ "Document" :: place.segments i, '/' ∉ s.toList ∧ s ≠ "" := by
        intro s hs
        rcases List.mem_cons.mp hs with rfl | hs
        · decide
        · exact plain_of_denote (place.segments_denote (u := u) i) s hs
      have hjoin := segments_join hplain
      rw [hdrop, navigate_eq hjoin hdoc (place.segments_denote i), hpos]
    have hlast : (segments entry.path).getLastD "" = leaf.name := by
      rw [hsegs, ← List.cons_append, List.getLastD_concat]
    have hlen : ¬ (segments entry.path).length < 2 := by
      rw [hsegs]
      simp [Place.segments]
    have horder : leaf.name ∈ postalAddressOrder := by
      cases leaf <;> decide
    have htag : (root.at? pos).any (·.tag = .special) = false := by
      rw [ha]
      by_contra h
      have hspecial : a.tag = .special := by simpa using h
      rw [localName, hspecial] at hname
      exact absurd hname (by decide)
    refine ⟨insertMissing leaf.name (some v), keepsFrame_insertMissing _ _, ?_, ?_⟩
    · rw [applyOne, hnav, hk]
      simp only [bind, Except.bind, Option.bind_none, createMissing, hlast, hleaf.name,
        hparent, hafter, horder, htag, if_neg hlen]
      cases checkText (some v) <;> simp [pure, Except.pure, Except.map]
    · rw [writeField, hk]
  · obtain ⟨c, hc, -, -⟩ := locate_eq_some hk
    refine ⟨updateNode k (setText (some v)), .updateNode k _, ?_, ?_⟩
    · rw [applyOne, hnav, hk, hafter]
      simp only [bind, Except.bind, Option.bind_some, hc, Option.map_some, updateAt_append]
      cases checkText (some v) <;> rfl
    · rw [writeField, hk]

/-- One change of a field of an address.  Whether the element exists or has to be created, the
address is repaired, stays in schema order, and nothing else in the tree changes. -/
theorem applyOne_of_address {root a : Element} {i : ℕ} {place : Place} {leaf : Leaf}
    {v : String} {entry : DiffEntry} {pos : List ℕ} (hroot : root.localName = "Document")
    (hpos : descend root (place.steps i) = some pos) (ha : at? pos root = some a)
    (hname : a.localName = "PstlAdr") (hpath : entry.path = place.path i ++ "/" ++ leaf.name)
    (hafter : entry.after = some v) (hv : Stripped v ∧ v ≠ "") (hxml : XmlCompatible v) :
    ∃ g, KeepsName g ∧ applyOne u root entry = .ok (some (root.updateAt pos g)) ∧
      Repaired leaf.name v a (g a) ∧ (Everywhere Ordered a → Everywhere Ordered (g a)) := by
  obtain ⟨g, hg, happly, hga⟩ := applyOne_at (u := u) hroot hpos ha hname hpath hafter
  rw [checkText_some, if_pos hxml] at happly
  refine ⟨g, hg.keepsName, happly, ?_, ?_⟩
  · rw [hga, writeField]
    cases hk : a.locate leaf.name 0 with
    | none => exact repaired_insertMissing hv hk
    | some k => exact repaired_setText hv hk
  · rw [hga, writeField]
    cases hk : a.locate leaf.name 0 with
    | none => exact ordered_insertMissing
    | some k => exact ordered_setText hk

end PaymentOps.Repair
