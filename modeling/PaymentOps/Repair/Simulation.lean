import PaymentOps.Lib.Fallible
import PaymentOps.Repair.Navigation

/-!
# XML repair simulates model repair

Repairing the tree of a pacs.008 and mapping it gives the message that repairing the mapped
message gives.

* `mapPacs008_updateAt`: an update of an address in the tree is an update of that address in the
  message, and of nothing else;
* `Represents` relates a tree and a message, `applyOne_simulates` is its step lemma;
* `reconstruction_simulates` is the statement about all changes of a message.
-/

namespace PaymentOps.Repair

open Text Xml Iso
open Xml.Element hiding child children text

variable {u : Unicode}

/-! ## Reading a repaired address -/

theorem Repaired.childText_eq {leaf v : String} {a a' : Element} (h : Repaired leaf v a a')
    (name : String) (hname : name ≠ leaf) : childText (some a') name = childText (some a) name := by
  simp only [childText, child, Option.bind_some, ← head?_children, h.frame name hname]

theorem mapAddress_repaired {leaf : Leaf} {v path : String} {a a' : Element}
    (h : Repaired leaf.name v a a') :
    mapAddress (some a') path = (mapAddress (some a) path).map (leaf.replace v ·) := by
  have hlines : children (some a') "AdrLine" = children (some a) "AdrLine" :=
    h.frame "AdrLine" (by cases leaf <;> decide)
  have hstrt := h.childText_eq "StrtNm" (by cases leaf <;> decide)
  have hbldg := h.childText_eq "BldgNb" (by cases leaf <;> decide)
  have hpst := h.childText_eq "PstCd" (by cases leaf <;> decide)
  cases leaf with
  | country =>
    have htown := h.childText_eq "TwnNm" (by decide)
    have hctry : childText (some a') "Ctry" = some v := h.field
    simp only [mapAddress, Option.map_some, hlines, hstrt, hbldg, hpst, htown, hctry,
      Leaf.replace]
  | town =>
    have hctry := h.childText_eq "Ctry" (by decide)
    have htown : childText (some a') "TwnNm" = some v := h.field
    simp only [mapAddress, Option.map_some, hlines, hstrt, hbldg, hpst, htown, hctry,
      Leaf.replace]

/-- `g` does to the element `a` what `f` does to the address that it maps to. -/
def Simulates (g : Element → Element) (f : PostalAddress → PostalAddress) (a : Element) : Prop :=
  KeepsName g ∧ ∀ path, mapAddress (some (g a)) path = (mapAddress (some a) path).map f

section

variable {g : Element → Element} {f : PostalAddress → PostalAddress} {a : Element}

/-- The read of a child after an update of a child. -/
theorem child_update {e c : Element} {name : String} {k : ℕ} {h : Element → Element}
    (hh : KeepsName h) (hk : e.locate name 0 = some k) (hc : e.nodes[k]? = some c)
    (name' : String) :
    child (some (e.updateNode k h)) name' =
      if name' = name then some (h c) else child (some e) name' := by
  obtain ⟨c', hc', -, hget⟩ := locate_eq_some hk
  obtain rfl : c' = c := Option.some.inj (hc'.symm.trans hc)
  have hchild : e.child name = some c' := by
    rw [← head?_children, List.head?_eq_getElem?, hget]
  rw [child, Option.bind_some, child_updateNode hh hk, hchild]
  rfl

theorem child_of_locate {e c : Element} {name : String} {k : ℕ}
    (hk : e.locate name 0 = some k) (hc : e.nodes[k]? = some c) :
    child (some e) name = some c := by
  obtain ⟨c', hc', -, hget⟩ := locate_eq_some hk
  obtain rfl : c' = c := Option.some.inj (hc'.symm.trans hc)
  rw [child, Option.bind_some, ← head?_children, List.head?_eq_getElem?, hget]

theorem mapParty_update {c : Element} {k : ℕ} (hk : c.locate "PstlAdr" 0 = some k)
    (ha : c.nodes[k]? = some a) (hg : Simulates g f a) (path : String) :
    mapParty (some (c.updateNode k g)) path = (mapParty (some c) path).map (·.mapAddress f) := by
  simp [mapParty, childText, child_update hg.1 hk ha, child_of_locate hk ha, hg.2,
    Party.mapAddress]

theorem mapAgent_update {c fi : Element} {k k' : ℕ} (hk : c.locate "FinInstnId" 0 = some k)
    (hfi : c.nodes[k]? = some fi) (hk' : fi.locate "PstlAdr" 0 = some k')
    (ha : fi.nodes[k']? = some a) (hg : Simulates g f a) (path : String) :
    mapAgent (some (c.updateNode k (updateNode k' g))) path =
      (mapAgent (some c) path).map (·.mapAddress f) := by
  simp [mapAgent, childText, child_update (.updateNode k' g) hk hfi, child_of_locate hk hfi,
    child_update hg.1 hk' ha, child_of_locate hk' ha, hg.2, FinancialInstitution.mapAddress]

/-- An update of an address of a transaction. -/
theorem mapTransaction_updateAt {tx : Element} {place : Place} {pos : List ℕ}
    (hpos : descend tx (place.names.map (·, 0)) = some pos) (ha : at? pos tx = some a)
    (hg : Simulates g f a) (i : ℕ) :
    Pacs008.mapTransaction u (tx.updateAt pos g) i =
      (Pacs008.mapTransaction u tx i).map (place.update f ·) := by
  cases place with
  | debtor | creditor =>
    obtain ⟨k, c, pos₁, hk, hc, hpos₁, rfl⟩ := descend_cons.mp hpos
    obtain ⟨k', a', pos₂, hk', ha', hpos₂, rfl⟩ := descend_cons.mp hpos₁
    cases hpos₂
    obtain rfl : a' = a := by simpa [at?, hc, ha'] using ha
    have hread := child_update (.updateNode k' g) hk hc
    simp only [Pacs008.mapTransaction, updateAt, hread]
    simp only [String.reduceEq, if_true, if_false, mapParty_update hk' ha' hg,
      ← child_of_locate hk hc, Place.update]
    cases Pacs008.mapAmount u (child (child (some tx) "Amt") "InstdAmt") <;> rfl
  | debtorAgent | creditorAgent =>
    obtain ⟨k, c, pos₁, hk, hc, hpos₁, rfl⟩ := descend_cons.mp hpos
    obtain ⟨k', fi, pos₂, hk', hfi, hpos₂, rfl⟩ := descend_cons.mp hpos₁
    obtain ⟨k'', a', pos₃, hk'', ha', hpos₃, rfl⟩ := descend_cons.mp hpos₂
    cases hpos₃
    obtain rfl : a' = a := by simpa [at?, hc, hfi, ha'] using ha
    have hread := child_update (.updateNode k' (updateNode k'' g)) hk hc
    simp only [Pacs008.mapTransaction, updateAt, hread]
    simp only [String.reduceEq, if_true, if_false, mapAgent_update hk' hfi hk'' ha' hg,
      ← child_of_locate hk hc, Place.update]
    cases Pacs008.mapAmount u (child (child (some tx) "Amt") "InstdAmt") <;> rfl

/-- An update of an address in a tree is an update of that address in the message. -/
theorem mapPacs008_updateAt {root : Element} {place : Place} {i : ℕ} {pos : List ℕ}
    (hpos : descend root (place.steps i) = some pos) (ha : at? pos root = some a)
    (hg : Simulates g f a) (version : SupportedVersion) (clock : Instant) :
    mapPacs008ToCanonical u (root.updateAt pos g) version clock =
      (mapPacs008ToCanonical u root version clock).map fun m =>
        { m with transactions := m.transactions.modify i (place.update f ·) } := by
  obtain ⟨k, msg, pos₁, hk, hmsg, hpos₁, rfl⟩ := descend_cons.mp hpos
  obtain ⟨k', tx, pos, hk', htx, hpos₂, rfl⟩ := descend_cons.mp hpos₁
  have ha' : at? pos tx = some a := by simpa [at?, hmsg, htx] using ha
  have hkeep : KeepsName (updateAt pos g) := hg.1.updateAt pos
  have hroot := child_update (.updateNode k' (updateAt pos g)) hk hmsg "FIToFICstmrCdtTrf"
  rw [if_pos rfl] at hroot
  have hgrp : child (some (msg.updateNode k' (updateAt pos g))) "GrpHdr" =
      child (some msg) "GrpHdr" := by
    have hread := children_updateNode hkeep hk' "GrpHdr"
    rw [if_neg (by decide)] at hread
    simp only [child, Option.bind_some, ← head?_children, hread]
  have htxs : mapTransactions u (root.updateAt (k :: k' :: pos) g) =
      (mapTransactions u root).map fun r => r.modify i (place.update f ·) := by
    obtain ⟨tx', htx', -, hget⟩ := locate_eq_some hk'
    obtain rfl : tx' = tx := Option.some.inj (htx'.symm.trans htx)
    have hread := children_updateNode hkeep hk' "CdtTrfTxInf"
    rw [if_pos rfl] at hread
    unfold mapTransactions
    simp only [updateAt, hroot, children, hread, child_of_locate hk hmsg]
    refine Except.mapM_zipIdx_modify hget ?_
    exact mapTransaction_updateAt hpos₂ ha' hg _
  unfold mapPacs008ToCanonical
  rw [htxs]
  simp only [updateAt, hroot, hgrp, child_of_locate hk hmsg]
  cases mapTransactions u root with
  | error e => rfl
  | ok r => rfl

end

/-! ## The address of a mapped transaction -/

theorem exists_descend_of_child {e c : Element} {name : String} {steps : List (String × ℕ)}
    {pos : List ℕ} (hc : child (some e) name = some c) (hpos : descend c steps = some pos) :
    ∃ k, e.nodes[k]? = some c ∧ descend e ((name, 0) :: steps) = some (k :: pos) := by
  have hget : (e.children name)[0]? = some c := by
    rw [← List.head?_eq_getElem?, head?_children]
    exact hc
  obtain ⟨k, -, hk, hdesc⟩ := exists_descend_cons hget hpos
  exact ⟨k, hk, hdesc⟩

theorem localName_of_child {e c : Element} {name : String} (hc : child (some e) name = some c) :
    c.localName = name := by
  have hfind : e.nodes.find? (·.localName = name) = some c := hc
  simpa using List.find?_some hfind

theorem mapAddress_some {el : Option Element} {path : String} {addr : PostalAddress}
    (h : mapAddress el path = some addr) : ∃ e, el = some e ∧ addr.sourcePath = some path := by
  obtain ⟨e, he, rfl⟩ := Option.map_eq_some_iff.mp h
  exact ⟨e, he, rfl⟩

theorem mapParty_address {el : Option Element} {path : String} {addr : PostalAddress}
    (h : (mapParty el path).bind (·.postalAddress) = some addr) :
    ∃ c a, el = some c ∧ child (some c) "PstlAdr" = some a ∧
      addr.sourcePath = some (path ++ "/PstlAdr") := by
  obtain ⟨p, hp, haddr⟩ := Option.bind_eq_some_iff.mp h
  obtain ⟨c, hc, rfl⟩ := Option.map_eq_some_iff.mp hp
  obtain ⟨a, ha, hpath⟩ := mapAddress_some haddr
  exact ⟨c, a, hc, ha, hpath⟩

theorem mapAgent_address {el : Option Element} {path : String} {addr : PostalAddress}
    (h : (mapAgent el path).bind (·.postalAddress) = some addr) :
    ∃ c fi a, el = some c ∧ child (some c) "FinInstnId" = some fi ∧
      child (some fi) "PstlAdr" = some a ∧
      addr.sourcePath = some (path ++ "/FinInstnId/PstlAdr") := by
  obtain ⟨p, hp, haddr⟩ := Option.bind_eq_some_iff.mp h
  obtain ⟨c, hc, rfl⟩ := Option.map_eq_some_iff.mp hp
  obtain ⟨a, ha, hpath⟩ := mapAddress_some haddr
  obtain ⟨fi, hfi, hadr⟩ := Option.bind_eq_some_iff.mp ha
  exact ⟨c, fi, a, hc, hfi, by simpa [child] using hadr, hpath⟩

/-- The address of a mapped transaction comes from an element of the transaction. -/
theorem exists_address_of_transaction {tx : Element} {i : ℕ} {t : PaymentTransaction}
    {place : Place} {addr : PostalAddress} (ht : Pacs008.mapTransaction u tx i = .ok t)
    (haddr : place.address t = some addr) :
    addr.sourcePath = some (place.path i) ∧
      ∃ pos a, descend tx (place.names.map (·, 0)) = some pos ∧ at? pos tx = some a ∧
        a.localName = "PstlAdr" := by
  unfold Pacs008.mapTransaction at ht
  obtain ⟨amount, -, ht⟩ := Except.bind_eq_ok.mp ht
  obtain rfl := Except.pure_eq_ok.mp ht
  cases place with
  | debtor | creditor =>
    obtain ⟨c, a, hc, ha, hpath⟩ := mapParty_address haddr
    obtain ⟨k, hk, hdesc⟩ := exists_descend_of_child ha (show descend a [] = some [] from rfl)
    obtain ⟨k', hk', hdesc'⟩ := exists_descend_of_child hc hdesc
    exact ⟨hpath, _, a, hdesc', by simp [at?, hk, hk'], localName_of_child ha⟩
  | debtorAgent | creditorAgent =>
    obtain ⟨c, fi, a, hc, hfi, ha, hpath⟩ := mapAgent_address haddr
    obtain ⟨k, hk, hdesc⟩ := exists_descend_of_child ha (show descend a [] = some [] from rfl)
    obtain ⟨k', hk', hdesc'⟩ := exists_descend_of_child hfi hdesc
    obtain ⟨k'', hk'', hdesc''⟩ := exists_descend_of_child hc hdesc'
    exact ⟨hpath, _, a, hdesc'', by simp [at?, hk, hk', hk''], localName_of_child ha⟩

/-- The tree represents the message. -/
def Represents (u : Unicode) (version : SupportedVersion) (clock : Instant) (root : Element)
    (m : PaymentMessage) : Prop :=
  mapPacs008ToCanonical u root version clock = .ok m

variable {version : SupportedVersion} {clock : Instant} {root : Element} {m : PaymentMessage}

/-- Every address of a message comes from an element of its tree. -/
theorem exists_address {i : ℕ} {t : PaymentTransaction} {place : Place} {addr : PostalAddress}
    (h : Represents u version clock root m) (ht : m.transactions[i]? = some t)
    (haddr : place.address t = some addr) :
    addr.sourcePath = some (place.path i) ∧
      ∃ pos a, descend root (place.steps i) = some pos ∧ at? pos root = some a ∧
        a.localName = "PstlAdr" := by
  unfold Represents mapPacs008ToCanonical at h
  obtain ⟨txs, htxs, h⟩ := Except.bind_eq_ok.mp h
  obtain rfl := Except.pure_eq_ok.mp h
  obtain ⟨tx, htx, hmap⟩ := Except.exists_of_mapM_zipIdx htxs ht
  rw [Nat.zero_add] at hmap
  obtain ⟨hpath, pos, a, hdesc, ha, hname⟩ := exists_address_of_transaction hmap haddr
  refine ⟨hpath, ?_⟩
  cases hmsg : child (some root) "FIToFICstmrCdtTrf" with
  | none => simp [hmsg, children] at htx
  | some msg =>
    rw [hmsg] at htx
    obtain ⟨k', -, hk', hdesc'⟩ := exists_descend_cons htx hdesc
    obtain ⟨k, hk, hdesc''⟩ := exists_descend_of_child hmsg hdesc'
    exact ⟨_, a, hdesc'', by simp [at?, hk, hk', ha], hname⟩

/-! ## All changes of a message -/

/-- The message has an address at the target of the proposal, and the proposal is written with
the path of that address. -/
def Targets (m : PaymentMessage) (p : Proposal) : Prop :=
  p.base = p.place.path p.transaction ∧ p.HasTarget m

theorem Targets.apply {f : Leaf → String → PostalAddress → PostalAddress} {p q : Proposal}
    (h : Targets m p) : Targets (q.apply f m) p :=
  ⟨h.1, h.2.apply⟩

/-- The repair of the message that corresponds to the changes. -/
def repairMessage (m : PaymentMessage) (ps : List Proposal) : PaymentMessage :=
  ps.foldl (Proposal.apply fun leaf v a => leaf.replace v a) m

/-- The entry of a proposal after it was applied. -/
def Proposal.validated (p : Proposal) : DiffEntry := { p.diff with status := .validated }

/-- The step lemma: one change of the tree is that change of the message. -/
theorem applyOne_simulates {p : Proposal} (hroot : root.localName = "Document")
    (h : Represents u version clock root m) (ht : Targets m p)
    (hv : Stripped p.after ∧ p.after ≠ "" ∧ XmlCompatible p.after) :
    ∃ tree, applyOne u root p.diff = .ok (some tree) ∧
      Represents u version clock tree (p.apply (fun leaf v a => leaf.replace v a) m) ∧
      tree.tag = root.tag ∧ (Everywhere Ordered root → Everywhere Ordered tree) := by
  obtain ⟨hbase, t, addr, htx, haddr⟩ := ht
  obtain ⟨-, pos, a, hpos, ha, hname⟩ := exists_address h htx haddr
  have hpath : p.diff.path = p.place.path p.transaction ++ "/" ++ p.leaf.name := by
    rw [Proposal.diff, hbase]
  obtain ⟨g, hg, happly, hrep, hord⟩ :=
    applyOne_of_address (u := u) hroot hpos ha hname hpath rfl ⟨hv.1, hv.2.1⟩ hv.2.2
  have hsim : Simulates g (p.leaf.replace p.after ·) a :=
    ⟨hg, fun path => mapAddress_repaired hrep⟩
  refine ⟨root.updateAt pos g, happly, ?_, ?_, ?_⟩
  · rw [Represents, mapPacs008_updateAt hpos ha hsim, h]
    rfl
  · obtain ⟨k, -, pos', -, -, -, rfl⟩ := descend_cons.mp hpos
    exact tag_setNodes _ _
  · exact Everywhere.updateAt ordered_congr hg ha hord

/-- The run lemma: all changes of the tree are those changes of the message. -/
theorem applySteps_simulate (ps : List Proposal) (r : Reconstruction) {m : PaymentMessage}
    (hroot : r.tree.localName = "Document") (h : Represents u version clock r.tree m)
    (ht : ∀ p ∈ ps, Targets m p)
    (hv : ∀ p ∈ ps, Stripped p.after ∧ p.after ≠ "" ∧ XmlCompatible p.after) :
    ∃ tree, (ps.map Proposal.diff).foldlM (applyStep u) r =
        .ok { r with tree := tree, applied := r.applied ++ ps.map Proposal.validated } ∧
      Represents u version clock tree (repairMessage m ps) ∧ tree.tag = r.tree.tag ∧
      (Everywhere Ordered r.tree → Everywhere Ordered tree) := by
  induction ps generalizing r m with
  | nil => exact ⟨r.tree, by simp [pure, Except.pure], h, rfl, id⟩
  | cons p ps ih =>
    obtain ⟨tree, happly, hrep, htag, hord⟩ :=
      applyOne_simulates hroot h (ht p (by simp)) (hv p (by simp))
    have hstep : applyStep u r p.diff =
        .ok { r with tree := tree, applied := r.applied ++ [p.validated] } := by
      rw [applyStep, happly]
      rfl
    have hroot' : tree.localName = "Document" := by
      rw [localName, htag]
      exact hroot
    obtain ⟨tree', hfold, hrep', htag', hord'⟩ :=
      ih { r with tree := tree, applied := r.applied ++ [p.validated] } hroot' hrep
        (fun q hq => (ht q (by simp [hq])).apply) fun q hq => hv q (by simp [hq])
    refine ⟨tree', ?_, hrep', htag'.trans htag, fun ho => hord' (hord ho)⟩
    rw [List.map_cons, List.foldlM_cons, hstep]
    simpa [bind, Except.bind] using hfold

theorem tag_of_identifyPacs008 (h : identifyPacs008 root = .ok version) :
    root.localName = "Document" := by
  unfold identifyPacs008 at h
  unfold Element.localName
  cases htag : root.tag with
  | special => simp [htag] at h
  | name ns l =>
    by_cases hl : l = "Document"
    · exact hl
    · simp [htag, hl] at h

/-- The clock only gives the time of receipt. -/
theorem represents_clock (h : Represents u version clock root m) (clock' : Instant) :
    mapPacs008ToCanonical u root version clock' = .ok { m with receivedAt := clock' } := by
  unfold Represents mapPacs008ToCanonical at h
  obtain ⟨txs, htxs, h⟩ := Except.bind_eq_ok.mp h
  obtain rfl := Except.pure_eq_ok.mp h
  exact Except.bind_eq_ok.mpr ⟨txs, htxs, rfl⟩

theorem targets_of_mem {provider : AddressProvider} {p : Proposal}
    (h : Represents u version clock root m) (hp : p ∈ proposals provider m) : Targets m p := by
  obtain ⟨t, addr, ht, haddr, -, hbase, -⟩ := mem_proposals.mp hp
  obtain ⟨hpath, -⟩ := exists_address h ht haddr
  rw [hpath] at hbase
  exact ⟨hbase, t, addr, ht, haddr⟩

/-- XML repair simulates model repair.  For a pacs.008 tree with its addresses in schema order and
the changes that are derived from its own addresses, with texts that the XML library writes, every
change is applied, the original stays as it is, the addresses stay in schema order, and the new
tree maps to the original message with exactly these changes made. -/
theorem reconstruction_simulates (u : Unicode) (provider : AddressProvider) (root : Element)
    (version : SupportedVersion) (clock clock' : Instant) (message : PaymentMessage)
    (hid : identifyPacs008 root = .ok version)
    (hmap : mapPacs008ToCanonical u root version clock = .ok message)
    (hord : root.Everywhere Ordered)
    (hv : ∀ c ∈ proposedChanges provider message, ∀ v ∈ c.after,
      Stripped v ∧ v ≠ "" ∧ XmlCompatible v) :
    ∃ r, applyChanges u root (proposedChanges provider message) = .ok r ∧
      r.applied = (proposedChanges provider message).map
        (fun c => { c with status := .validated }) ∧
      r.original = root ∧ r.tree.Everywhere Ordered ∧
      mapPacs008ToCanonical u r.tree version clock' =
        .ok { repairMessage message (proposals provider message) with receivedAt := clock' } := by
  have hrep : Represents u version clock root message := hmap
  have hroot : root.localName = "Document" := tag_of_identifyPacs008 hid
  have hval : ∀ p ∈ proposals provider message,
      Stripped p.after ∧ p.after ≠ "" ∧ XmlCompatible p.after := by
    intro p hp
    have hc : p.diff ∈ proposedChanges provider message := by
      rw [proposedChanges_eq]
      exact List.mem_map_of_mem hp
    exact hv _ hc p.after rfl
  obtain ⟨tree, hfold, hrep', -, hord'⟩ := applySteps_simulate (proposals provider message)
    { original := root, tree := root } hroot hrep (fun p hp => targets_of_mem hrep hp) hval
  rw [← proposedChanges_eq] at hfold
  refine ⟨_, hfold, ?_, rfl, hord' hord, represents_clock hrep' clock'⟩
  rw [proposedChanges_eq, List.map_map]
  rfl

/-! ## A tree with two transactions -/

/-- An element without attributes. -/
def isoElement (name : String) (text : Option String) (nodes : List Element) : Element :=
  .node (.name (some pacs008Version.namespace_) name) [] text nodes none

/-- The second creditor has a town and an address line, but no country. -/
def sampleTree : Element :=
  isoElement "Document" none [isoElement "FIToFICstmrCdtTrf" none [
    isoElement "CdtTrfTxInf" none [isoElement "Dbtr" none [isoElement "Nm" (some "A") []]],
    isoElement "CdtTrfTxInf" none [isoElement "Cdtr" none [isoElement "PstlAdr" none [
      isoElement "TwnNm" (some "Bonn") [], isoElement "AdrLine" (some "Bonn DE") []]]]]]

/-- A provider that finds a country. -/
def sampleProvider : AddressProvider := fun _ => { countryCode := some "DE" }

/-- The message of the sample tree. -/
def sampleMessage : PaymentMessage where
  messageType := some "pacs.008.001.08"
  transactions := [
    { debtor := some {
        name := some "A", sourcePath := some "/Document/FIToFICstmrCdtTrf/CdtTrfTxInf[0]/Dbtr" }
      sourcePath := some "/Document/FIToFICstmrCdtTrf/CdtTrfTxInf[0]" },
    { creditor := some {
        postalAddress := some {
          townName := some "Bonn", addressLines := ["Bonn DE"]
          sourcePath := some "/Document/FIToFICstmrCdtTrf/CdtTrfTxInf[1]/Cdtr/PstlAdr"
          originalFields := { twnNm := some "Bonn" } }
        sourcePath := some "/Document/FIToFICstmrCdtTrf/CdtTrfTxInf[1]/Cdtr" }
      sourcePath := some "/Document/FIToFICstmrCdtTrf/CdtTrfTxInf[1]" }]
  sourceFormat := .xmlPacs008
  receivedAt := 0
  sourceMetadata := [("message_name", "FIToFICustomerCreditTransferV08")]

theorem sampleTree_maps :
    mapPacs008ToCanonical .ascii sampleTree pacs008Version 0 = .ok sampleMessage := by
  decide +kernel

theorem sampleTree_ordered : sampleTree.Everywhere Ordered := by
  have hnode : ∀ name text nodes, (isoElement name text nodes).Everywhere Ordered ↔
      (name = "PstlAdr" → (nodes.map orderIndex).Pairwise (· ≤ ·)) ∧
        ∀ c ∈ nodes, c.Everywhere Ordered := fun _ _ _ => everywhere_iff
  simp only [sampleTree, hnode, List.forall_mem_cons, List.not_mem_nil, false_imp_iff,
    implies_true, and_true]
  decide +kernel

/-- A provider that answers with a control character, which no XML document can hold. -/
def controlProvider : AddressProvider := fun _ => { townName := some "Mi\u0001lano" }

/-- The value is stripped and not blank, and still the run ends with the error of the library. -/
theorem reconstruction_incompatible :
    identifyPacs008 sampleTree = .ok pacs008Version ∧
    mapPacs008ToCanonical .ascii sampleTree pacs008Version 0 = .ok sampleMessage ∧
    sampleTree.Everywhere Ordered ∧
    (∀ c ∈ proposedChanges controlProvider sampleMessage, ∀ v ∈ c.after,
      Stripped v ∧ v ≠ "") ∧
    applyChanges .ascii sampleTree (proposedChanges controlProvider sampleMessage) =
      .error incompatibleText := by
  refine ⟨by decide +kernel, sampleTree_maps, sampleTree_ordered, by decide +kernel, ?_⟩
  have hrun : (applyChanges .ascii sampleTree
      (proposedChanges controlProvider sampleMessage)).map (·.applied) =
        .error incompatibleText := by
    decide +kernel
  cases happly : applyChanges .ascii sampleTree
      (proposedChanges controlProvider sampleMessage) with
  | error e =>
    rw [happly] at hrun
    exact congrArg Except.error (Except.error.inj hrun)
  | ok r =>
    rw [happly] at hrun
    cases hrun

theorem reconstruction_simulates_sample :
    proposedChanges sampleProvider sampleMessage ≠ [] ∧
    ∃ r, applyChanges .ascii sampleTree (proposedChanges sampleProvider sampleMessage) = .ok r ∧
      r.applied = (proposedChanges sampleProvider sampleMessage).map
        (fun c => { c with status := .validated }) ∧
      r.original = sampleTree ∧ r.tree.Everywhere Ordered ∧
      mapPacs008ToCanonical .ascii r.tree pacs008Version 1 =
        .ok { repairMessage sampleMessage (proposals sampleProvider sampleMessage) with
          receivedAt := 1 } := by
  refine ⟨by decide +kernel, reconstruction_simulates .ascii sampleProvider sampleTree
    pacs008Version 0 1 sampleMessage (by decide +kernel) sampleTree_maps sampleTree_ordered ?_⟩
  decide +kernel

end PaymentOps.Repair
