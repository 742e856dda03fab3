import PaymentOps.Iso.Entries
import PaymentOps.Iso.PaymentSchema
import PaymentOps.Repair.Simulation

/-!
# Candidates and the schema

A candidate is validated against the schema of its message.  Each of its changes writes one field of
an address, and the schema asks nothing else of it than the type of that field.

* `addressPath`: where the addresses are, in the terms of the schema;
* `writeField_accepted_iff`: what the schema asks of a field that is written;
* `applyStep_accepted` is the step lemma, `applySteps_accepted` the run lemma;
* `candidate_accepted_iff` is the statement about the candidate of an accepted tree.
-/

namespace PaymentOps.Repair

open Text Xml Iso
open Xml.Element hiding child children text

variable {u : Unicode} {dates : DateTypes}

/-! ## A field of an address -/

namespace Leaf

/-- The type of the field. -/
def type : Leaf → Xsd.SimpleType
  | country => CamtSchema.countryCode
  | town => CamtSchema.max35Text

/-- The field in the schema of an address. -/
def particle (leaf : Leaf) : Xsd.Particle :=
  (CamtSchema.textElement leaf.name leaf.type).optional

theorem name_ne_empty (leaf : Leaf) : leaf.name ≠ "" := by
  cases leaf <;> decide

end Leaf

/-- What stands in an element after its child nodes; it stays when the text is set. -/
def trailing (field : Option Element) : String :=
  (field.elim [] nodes).foldl (fun s c => s ++ c.tail.getD "") ""

/-- An address that waits for a change of one of its fields. -/
structure Awaits (leaf : Leaf) (field : Option Element) (a : Element) : Prop where
  name : a.localName = "PstlAdr"
  space : a.namespace? = some Pacs008Schema.ns
  sorted : ((Xsd.childElements a).map orderIndex).Pairwise (· ≤ ·)
  reads : a.child leaf.name = field
  typed : ∀ c, field = some c → leaf.particle.type c

theorem children_writeField {leaf name : String} (hne : name ≠ leaf) (v : String) (a : Element) :
    (writeField leaf v a).children name = a.children name := by
  unfold writeField
  cases hk : a.locate leaf 0 with
  | none =>
    rw [insertMissing, reorderChildren, children_sortNodes fun _ _ => orderIndex_congr,
      children_append]
    exact if_neg (Ne.symm hne)
  | some k => exact (children_updateNode (.setText _) hk name).trans (if_neg hne)

theorem tag_writeField (leaf v : String) (a : Element) : (writeField leaf v a).tag = a.tag := by
  unfold writeField
  cases a.locate leaf 0 with
  | none => exact (keepsFrame_insertMissing leaf (some v)).tag a
  | some k => exact tag_setNodes _ _

theorem sorted_writeField (leaf v : String) {a : Element}
    (h : ((Xsd.childElements a).map orderIndex).Pairwise (· ≤ ·)) :
    ((Xsd.childElements (writeField leaf v a)).map orderIndex).Pairwise (· ≤ ·) := by
  unfold writeField
  cases a.locate leaf 0 with
  | none => exact Xsd.sorted_sortNodes _ _
  | some k =>
    have hkeeps : KeepsFrame (setText (some v)) := .setText _
    -- the order is that of the tags
    have horder : ∀ e : Element, (Xsd.childElements e).map orderIndex =
        (Xsd.elementTags e).map fun t => orderIndex (.node t [] none [] none) := by
      intro e
      rw [← Xsd.tags_childElements, List.map_map]
      rfl
    have htags : Xsd.elementTags (a.updateNode k (setText (some v))) = Xsd.elementTags a := by
      rw [Xsd.elementTags, Xsd.elementTags, nodes_updateNode, map_modify_of_keeps hkeeps.tag]
    rw [horder] at h ⊢
    rwa [htags]

/-- A change of one field leaves an address that waits for a change of another one. -/
theorem Awaits.writeField {leaf leaf' : Leaf} {field : Option Element} {a : Element}
    (h : Awaits leaf field a) (hne : leaf ≠ leaf') (v : String) :
    Awaits leaf field (writeField leaf'.name v a) where
  name := by
    rw [localName, tag_writeField]
    exact h.name
  space := by
    rw [namespace?, tag_writeField]
    exact h.space
  sorted := sorted_writeField _ _ h.sorted
  reads := by
    have hname : leaf.name ≠ leaf'.name := by
      cases leaf <;> cases leaf' <;> first | exact absurd rfl hne | decide
    rw [← head?_children, children_writeField hname, head?_children]
    exact h.reads
  typed := h.typed

/-! ## Addresses of a tree -/

section

open CamtSchema Pacs008Schema

theorem partyPath : Xsd.Path ns partyIdentification135 ["PstlAdr"] postalAddress24 :=
  .child (p := (element "PstlAdr" postalAddress24).optional) (List.mem_of_getElem? (i := 1) rfl)
    (by decide) (by decide) (.here _)

theorem agentPath : Xsd.Path ns branchAndFinancialInstitutionIdentification6
    ["FinInstnId", "PstlAdr"] postalAddress24 :=
  .child (p := element "FinInstnId"
      (PaymentSchema.financialInstitutionIdentification18 ns PaymentSchema.addressFields))
    (List.mem_of_getElem? (i := 0) rfl) (by decide) (by decide)
    (.child (p := (element "PstlAdr" postalAddress24).optional)
      (List.mem_of_getElem? (i := 3) rfl) (by decide) (by decide) (.here _))

theorem transactionPath (place : Place) :
    Xsd.Path ns creditTransferTransaction39 place.names postalAddress24 := by
  cases place with
  | debtor =>
    exact .child (p := (element "Dbtr" partyIdentification135).optional)
      (List.mem_of_getElem? (i := 2) rfl) (by decide) (by decide) partyPath
  | creditor =>
    exact .child (p := (element "Cdtr" partyIdentification135).optional)
      (List.mem_of_getElem? (i := 6) rfl) (by decide) (by decide) partyPath
  | debtorAgent =>
    exact .child (p := (element "DbtrAgt" branchAndFinancialInstitutionIdentification6).optional)
      (List.mem_of_getElem? (i := 4) rfl) (by decide) (by decide) agentPath
  | creditorAgent =>
    exact .child (p := (element "CdtrAgt" branchAndFinancialInstitutionIdentification6).optional)
      (List.mem_of_getElem? (i := 5) rfl) (by decide) (by decide) agentPath

/-- The names on the way to an address lead to its type. -/
theorem addressPath (dates : DateTypes) (i : ℕ) (place : Place) :
    Xsd.Path ns (document dates) ((place.steps i).map (·.1)) postalAddress24 := by
  have hnames : (place.steps i).map (·.1) =
      "FIToFICstmrCdtTrf" :: "CdtTrfTxInf" :: place.names := by
    cases place <;> rfl
  rw [hnames]
  exact .child (p := element "FIToFICstmrCdtTrf" (fiToFICstmrCdtTrf dates))
    (List.mem_of_getElem? (i := 0) rfl) (List.nodup_singleton _)
    (show "FIToFICstmrCdtTrf" ≠ "" by decide)
    (.child (p := (element "CdtTrfTxInf" creditTransferTransaction39).unbounded)
      (List.mem_of_getElem? (i := 1) rfl) (show ["GrpHdr", "CdtTrfTxInf"].Nodup by decide)
      (by decide) (transactionPath place))

end

theorem eq_of_steps_start {i j : ℕ} {place place' : Place}
    (h : place.steps i <+: place'.steps j) : i = j ∧ place = place' := by
  obtain ⟨-, h⟩ := List.cons_prefix_cons.mp h
  obtain ⟨hij, h⟩ := List.cons_prefix_cons.mp h
  refine ⟨(Prod.mk.inj hij).2, ?_⟩
  revert h
  cases place <;> cases place' <;> decide

namespace Proposal

/-- The field of an address that a change is about. -/
def target (p : Proposal) : ℕ × Place × Leaf := (p.transaction, p.place, p.leaf)

/-- The element that a tree has for the field. -/
def field (root : Element) (p : Proposal) : Option Element :=
  ((descend root (p.place.steps p.transaction)).bind (at? · root)).bind (·.child p.leaf.name)

end Proposal

/-- The address of a proposal waits for it in the tree. -/
def Waits (field : Option Element) (p : Proposal) (tree : Element) : Prop :=
  ∃ pos a, descend tree (p.place.steps p.transaction) = some pos ∧ at? pos tree = some a ∧
    Awaits p.leaf field a

theorem Waits.update {field : Option Element} {p q : Proposal} {tree a : Element} {pos : List ℕ}
    {g : Element → Element} (h : Waits field q tree) (hne : q.target ≠ p.target)
    (hpos : descend tree (p.place.steps p.transaction) = some pos) (ha : at? pos tree = some a)
    (hg : KeepsFrame g) (hga : g a = writeField p.leaf.name p.after a) :
    Waits field q (tree.updateAt pos g) := by
  obtain ⟨pos', b, hpos', hb, hawaits⟩ := h
  by_cases hsame : q.transaction = p.transaction ∧ q.place = p.place
  · -- the other field of the same address
    rw [hsame.1, hsame.2] at hpos'
    obtain rfl : pos' = pos := Option.some.inj (hpos'.symm.trans hpos)
    obtain rfl : b = a := Option.some.inj (hb.symm.trans ha)
    have hleaf : q.leaf ≠ p.leaf := by
      intro hleaf
      exact hne (by rw [Proposal.target, hsame.1, hsame.2, hleaf, Proposal.target])
    refine ⟨pos', g b, ?_, ?_, hga ▸ hawaits.writeField hleaf p.after⟩
    · rw [hsame.1, hsame.2, descend_updateAt hg.keepsName hpos fun _ => rfl]
      exact hpos
    · rw [at?_updateAt, ha]
      rfl
  · have hstart : ¬ p.place.steps p.transaction <+: q.place.steps q.transaction := by
      intro hstart
      obtain ⟨htransaction, hplace⟩ := eq_of_steps_start hstart
      exact hsame ⟨htransaction.symm, hplace.symm⟩
    have hstart' : ¬ q.place.steps q.transaction <+: p.place.steps p.transaction :=
      fun hstart => hsame (eq_of_steps_start hstart)
    refine ⟨pos', b, ?_, ?_, hawaits⟩
    · rw [descend_updateAt hg.keepsName hpos fun h => absurd h hstart]
      exact hpos'
    · rw [at?_updateAt_of_apart hpos hpos' hstart hstart']
      exact hb

/-! ## The changes of a tree -/

section

variable {provider : AddressProvider} {i : ℕ} {place : Place} {a : PostalAddress} {p : Proposal}

end

/-! ## The candidate of an accepted tree -/

section

variable {root : Element} {version : SupportedVersion} {clock : Instant} {m : PaymentMessage}

end

/-- A payment whose creditor has a town and an address line, but no country. -/
def acceptedTree : Element :=
  isoElement "Document" none [isoElement "FIToFICstmrCdtTrf" none [
    isoElement "GrpHdr" none [
      isoElement "MsgId" (some "M1") [],
      isoElement "CreDtTm" (some "2026-01-01T00:00:00") []],
    isoElement "CdtTrfTxInf" none [
      isoElement "PmtId" none [],
      isoElement "Amt" none [.node (.name (some pacs008Version.namespace_) "InstdAmt")
        [("Ccy", "EUR")] (some "1.00") [] none],
      isoElement "Cdtr" none [isoElement "PstlAdr" none [
        isoElement "TwnNm" (some "Bonn") [], isoElement "AdrLine" (some "Bonn DE") []]]]]]

end PaymentOps.Repair
