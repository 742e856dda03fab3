import PaymentOps.Lib.Fallible
import PaymentOps.Repair.Generator

/-!
# What a change is about

A change names its target by a path.  A `Proposal` names it by what it is: the transaction, the
party or agent, and the field of its address from which the change was derived.

* `proposedChanges_eq`: the changes of a message are its proposals, written as paths;
* `mem_proposals`: what a proposal of a message is;
* `segments_append`, `segments_join`: how paths are read back;
* `applyToMessage_of_addressed`, `applyToMessage_of_noIndex`: what changes do to a message whose
  paths name their targets, or no transaction at all.
-/

namespace PaymentOps.Repair

open Text Xml

/-- The parties and agents of a transaction that have an address. -/
inductive Place where
  | debtor | creditor | debtorAgent | creditorAgent
  deriving DecidableEq, Repr

namespace Place

/-- The places of addresses, in the order in which they are asked about. -/
def all : List Place := [debtor, creditor, debtorAgent, creditorAgent]

/-- The address of a place, if the transaction has one. -/
def address (tx : PaymentTransaction) : Place → Option PostalAddress
  | debtor => tx.debtor.bind (·.postalAddress)
  | creditor => tx.creditor.bind (·.postalAddress)
  | debtorAgent => tx.debtorAgent.bind (·.postalAddress)
  | creditorAgent => tx.creditorAgent.bind (·.postalAddress)

/-- Update the address of the party or agent, and nothing else. -/
def update (f : PostalAddress → PostalAddress) (tx : PaymentTransaction) :
    Place → PaymentTransaction
  | debtor => { tx with debtor := tx.debtor.map (·.mapAddress f) }
  | creditor => { tx with creditor := tx.creditor.map (·.mapAddress f) }
  | debtorAgent => { tx with debtorAgent := tx.debtorAgent.map (·.mapAddress f) }
  | creditorAgent => { tx with creditorAgent := tx.creditorAgent.map (·.mapAddress f) }

theorem mem_all (p : Place) : p ∈ all := by
  cases p <;> decide

theorem address_update (f : PostalAddress → PostalAddress) (tx : PaymentTransaction)
    (p q : Place) :
    q.address (p.update f tx) = if q = p then (p.address tx).map f else q.address tx := by
  cases p <;> cases q <;>
    simp [address, update, Option.bind_map, Option.map_bind, Party.mapAddress,
      FinancialInstitution.mapAddress]

end Place

/-- The fields of an address that the generator changes. -/
inductive Leaf where
  | country | town
  deriving DecidableEq, Repr

namespace Leaf

/-- The element of a leaf. -/
def name : Leaf → String
  | country => "Ctry"
  | town => "TwnNm"

/-- The value received, as the generator reads it. -/
def received (a : PostalAddress) : Leaf → Option String
  | country => or a.originalFields.ctry a.country
  | town => or a.originalFields.twnNm a.townName

/-- What the provider has found out about a leaf. -/
def resolved (analysis : AddressAnalysis) : Leaf → Option String
  | country => analysis.countryCode
  | town => analysis.townName

/-- What the address has in a leaf. -/
def value (a : PostalAddress) : Leaf → Option String
  | country => a.country
  | town => a.townName

/-- Set the field, and nothing else. -/
def set (v : String) (a : PostalAddress) : Leaf → PostalAddress
  | country => { a with country := some v }
  | town => { a with townName := some v }

/-- Set the field and the value received for it, and nothing else. -/
def replace (v : String) (a : PostalAddress) : Leaf → PostalAddress
  | country =>
    { a with country := some v, originalFields := { a.originalFields with ctry := some v } }
  | town =>
    { a with townName := some v, originalFields := { a.originalFields with twnNm := some v } }

end Leaf

/-- A proposed change and its target. -/
structure Proposal where
  transaction : ℕ
  place : Place
  leaf : Leaf
  base : String
  before : Option String
  after : String
  deriving DecidableEq, Repr

namespace Proposal

/-- The change that a proposal becomes. -/
def diff (p : Proposal) : DiffEntry where
  path := p.base ++ "/" ++ p.leaf.name
  before := p.before
  after := some p.after
  source := .addressProvider

/-- Apply the change to its target in the message, where `f` is what it does to the address. -/
def apply (f : Leaf → String → PostalAddress → PostalAddress) (m : PaymentMessage)
    (p : Proposal) : PaymentMessage :=
  let update := fun tx => p.place.update (f p.leaf p.after) tx
  { m with transactions := m.transactions.modify p.transaction update }

/-- The message has an address at the target of the proposal. -/
def HasTarget (p : Proposal) (m : PaymentMessage) : Prop :=
  ∃ t a, m.transactions[p.transaction]? = some t ∧ p.place.address t = some a

theorem HasTarget.apply {f : Leaf → String → PostalAddress → PostalAddress} {p q : Proposal}
    {m : PaymentMessage} (h : p.HasTarget m) : p.HasTarget (q.apply f m) := by
  obtain ⟨t, a, ht, ha⟩ := h
  simp only [HasTarget, Proposal.apply, List.getElem?_modify, ht]
  by_cases htx : q.transaction = p.transaction
  · simp only [htx, if_true]
    refine ⟨_, if p.place = q.place then f q.leaf q.after a else a, rfl, ?_⟩
    rw [Place.address_update]
    split_ifs with hplace
    · rw [← hplace, ha]
      rfl
    · exact ha
  · exact ⟨t, a, by simp [htx], ha⟩

end Proposal

/-- The message with its proposals applied, each to its target. -/
def appliedMessage (m : PaymentMessage) (ps : List Proposal) : PaymentMessage :=
  ps.foldl (Proposal.apply fun leaf v a => leaf.set v a) m

/-- The proposal for a leaf, when it is resolved to another value than the one received. -/
def leafProposals (i : ℕ) (place : Place) (a : PostalAddress) (analysis : AddressAnalysis)
    (leaf : Leaf) : List Proposal :=
  match leaf.resolved analysis with
  | none => []
  | some v =>
    if v ≠ "" ∧ leaf.received a ≠ some v then
      [{ transaction := i, place := place, leaf := leaf, base := a.sourcePath.getD ""
         before := leaf.received a, after := v }]
    else []

/-- The proposals for an address. -/
def addressProposals (provider : AddressProvider) (i : ℕ) (place : Place) (a : PostalAddress) :
    List Proposal :=
  if truthy a.sourcePath then
    leafProposals i place a (provider a) .country ++ leafProposals i place a (provider a) .town
  else []

/-- The proposals for a transaction. -/
def transactionProposals (provider : AddressProvider) (i : ℕ) (tx : PaymentTransaction) :
    List Proposal :=
  Place.all.flatMap fun place =>
    (place.address tx).toList.flatMap (addressProposals provider i place)

/-- The proposals for the addresses of a message. -/
def proposals (provider : AddressProvider) (message : PaymentMessage) : List Proposal :=
  message.transactions.zipIdx.flatMap fun t => transactionProposals provider t.2 t.1

theorem fieldChange_eq (i : ℕ) (place : Place) (a : PostalAddress) (analysis : AddressAnalysis)
    (leaf : Leaf) :
    fieldChange (a.sourcePath.getD "") leaf.name (leaf.received a) (leaf.resolved analysis) =
      (leafProposals i place a analysis leaf).map Proposal.diff := by
  unfold fieldChange leafProposals
  cases leaf.resolved analysis with
  | none => simp
  | some v =>
    simp only [truthy_some]
    split_ifs <;> rfl

theorem addressChanges_eq (provider : AddressProvider) (i : ℕ) (place : Place)
    (a : PostalAddress) :
    addressChanges provider a = (addressProposals provider i place a).map Proposal.diff := by
  unfold addressChanges addressProposals
  split_ifs
  · rw [List.map_append, ← fieldChange_eq, ← fieldChange_eq]
    rfl
  · rfl

/-- The changes of a message are its proposals. -/
theorem proposedChanges_eq (provider : AddressProvider) (message : PaymentMessage) :
    proposedChanges provider message = (proposals provider message).map Proposal.diff := by
  have htx : ∀ (tx : PaymentTransaction) (i : ℕ),
      ((addresses tx).flatMap fun a => addressChanges provider a.2) =
        (transactionProposals provider i tx).map Proposal.diff := by
    intro tx i
    have hplace : ∀ (o : Option PostalAddress) (label : String) (place : Place),
        ((o.map (label, ·)).toList.flatMap fun a => addressChanges provider a.2) =
          (o.toList.flatMap (addressProposals provider i place)).map Proposal.diff := by
      intro o label place
      cases o with
      | none => rfl
      | some a => simp [addressChanges_eq provider i place a]
    simp only [addresses, transactionProposals, Place.all, List.flatMap_append,
      List.flatMap_cons, List.flatMap_nil, List.map_append, List.append_nil, Place.address]
    rw [hplace _ _ .debtor, hplace _ _ .creditor, hplace _ _ .debtorAgent,
      hplace _ _ .creditorAgent]
    simp only [List.append_assoc]
  unfold proposedChanges proposals
  conv_lhs => rw [← List.zipIdx_map_fst 0 message.transactions]
  rw [List.flatMap_map, List.map_flatMap]
  congr 1
  funext t
  exact htx t.1 t.2

/-- What a proposal of a message is. -/
theorem mem_proposals {provider : AddressProvider} {message : PaymentMessage} {p : Proposal} :
    p ∈ proposals provider message ↔
      ∃ tx a, message.transactions[p.transaction]? = some tx ∧ p.place.address tx = some a ∧
        truthy a.sourcePath ∧ p.base = a.sourcePath.getD "" ∧
        p.leaf.resolved (provider a) = some p.after ∧ p.after ≠ "" ∧
        p.before = p.leaf.received a ∧ p.before ≠ some p.after := by
  have hleaf : ∀ (i : ℕ) (place : Place) (a : PostalAddress) (leaf : Leaf),
      p ∈ leafProposals i place a (provider a) leaf ↔
        p.transaction = i ∧ p.place = place ∧ p.leaf = leaf ∧ p.base = a.sourcePath.getD "" ∧
          leaf.resolved (provider a) = some p.after ∧ p.after ≠ "" ∧
          p.before = leaf.received a ∧ p.before ≠ some p.after := by
    intro i place a leaf
    unfold leafProposals
    cases h : leaf.resolved (provider a) with
    | none => simp
    | some v =>
      obtain ⟨i', place', leaf', base, before, after⟩ := p
      dsimp only
      split_ifs with hv
      · simp only [List.mem_singleton, Proposal.mk.injEq, Option.some.injEq]
        constructor
        · rintro ⟨rfl, rfl, rfl, rfl, rfl, rfl⟩
          exact ⟨rfl, rfl, rfl, rfl, rfl, hv.1, rfl, hv.2⟩
        · rintro ⟨rfl, rfl, rfl, rfl, rfl, -, rfl, -⟩
          exact ⟨rfl, rfl, rfl, rfl, rfl, rfl⟩
      · simp only [List.not_mem_nil, Option.some.injEq, false_iff]
        rintro ⟨-, -, -, -, rfl, hne, rfl, hbefore⟩
        exact hv ⟨hne, hbefore⟩
  have haddr : ∀ (i : ℕ) (place : Place) (a : PostalAddress),
      p ∈ addressProposals provider i place a ↔
        p.transaction = i ∧ p.place = place ∧ truthy a.sourcePath ∧
          p.base = a.sourcePath.getD "" ∧ p.leaf.resolved (provider a) = some p.after ∧
          p.after ≠ "" ∧ p.before = p.leaf.received a ∧ p.before ≠ some p.after := by
    intro i place a
    unfold addressProposals
    split_ifs with h
    · rw [List.mem_append, hleaf, hleaf]
      cases p.leaf <;> simp [h]
    · simp [h]
  unfold proposals transactionProposals
  simp only [List.mem_flatMap, Prod.exists, List.mem_zipIdx_iff_getElem?, Option.mem_toList,
    haddr, Place.mem_all, true_and]
  constructor
  · rintro ⟨tx, i, htx, place, a, ha, rfl, rfl, hrest⟩
    exact ⟨tx, a, htx, ha, hrest⟩
  · rintro ⟨tx, a, htx, ha, hrest⟩
    exact ⟨tx, p.transaction, htx, p.place, a, ha, rfl, rfl, hrest⟩

theorem hasTarget_of_mem {provider : AddressProvider} {message : PaymentMessage} {p : Proposal}
    (hp : p ∈ proposals provider message) : p.HasTarget message := by
  obtain ⟨tx, a, htx, ha, -⟩ := mem_proposals.mp hp
  exact ⟨tx, a, htx, ha⟩

theorem ne_empty_of_mem {provider : AddressProvider} {message : PaymentMessage} {p : Proposal}
    (hp : p ∈ proposals provider message) : p.after ≠ "" := by
  obtain ⟨-, -, -, -, -, -, -, hne, -⟩ := mem_proposals.mp hp
  exact hne

/-! ## Paths -/

theorem segments_append (s t : String) : segments (s ++ "/" ++ t) = segments s ++ segments t := by
  have h : s ++ "/" ++ t = s ++ String.singleton '/' ++ t := rfl
  rw [segments, h, split_append, List.filter_append]
  rfl

theorem segments_of_not_mem {s : String} (h : '/' ∉ s.toList) (hs : s ≠ "") :
    segments s = [s] := by
  simp [segments, split_of_not_mem h, hs]

theorem segments_leaf (leaf : Leaf) : segments leaf.name = [leaf.name] := by
  cases leaf <;> decide +kernel

theorem segments_join {l : List String} (h : ∀ s ∈ l, '/' ∉ s.toList ∧ s ≠ "") :
    segments (join "/" l) = l := by
  rcases eq_or_ne l [] with rfl | hl
  · decide
  · have hsplit : split '/' (join (String.singleton '/') l) = l :=
      split_join hl fun s hs => (h s hs).1
    have hfilter : l.filter (· ≠ "") = l :=
      List.filter_eq_self.mpr fun s hs => by simpa using (h s hs).2
    rw [segments]
    exact (congrArg (List.filter (· ≠ "")) hsplit).trans hfilter

/-! ## Changes of a message -/

section

variable {u : Unicode} {m : PaymentMessage} {p : Proposal}

/-- No index can be read from the second segment of the path. -/
def NoIndex (u : Unicode) (base : String) : Prop :=
  ∃ first second rest, segments base = first :: second :: rest ∧
    int u (stripChars ['[', ']'] second) = none

theorem applyChange_of_noIndex {base : String} {leaf : Leaf} {change : DiffEntry}
    (h : NoIndex u base) (hpath : change.path = base ++ "/" ++ leaf.name) (m : PaymentMessage) :
    applyChangeToMessage u m change = .ok m := by
  obtain ⟨first, second, rest, hseg, hint⟩ := h
  have hsegs : segments change.path = first :: second :: (rest ++ [leaf.name]) := by
    rw [hpath, segments_append, hseg, segments_leaf]
    rfl
  unfold applyChangeToMessage
  rw [hsegs]
  rcases rest with _ | ⟨party, rest⟩
  · rfl
  · rcases rest with _ | ⟨x, rest⟩
    · simp only [List.nil_append, List.cons_append, hint]
    · simp only [List.cons_append, hint]

/-- The path of the proposal names the transaction, and the debtor or the creditor, of which it was
derived.  A negative index counts from the end. -/
def Proposal.Addressed (u : Unicode) (m : PaymentMessage) (p : Proposal) : Prop :=
  ∃ first second party rest index, segments p.base = first :: second :: party :: rest ∧
    int u (stripChars ['[', ']'] second) = some index ∧
    (index = p.transaction ∨ index + m.transactions.length = p.transaction) ∧
    (p.place = .debtor ∧ party = "Dbtr" ∨ p.place = .creditor ∧ party = "Cdtr")

theorem setAddressField_leaf {v : String} (hv : v ≠ "") (leaf : Leaf) :
    setAddressField leaf.name (some v) = fun a => leaf.set v a := by
  funext a
  cases leaf <;> simp [setAddressField, Leaf.name, Leaf.set, truthy_some, hv]

/-- A change that names its target is made there. -/
theorem applyChange_of_addressed (h : p.Addressed u m) (ht : p.HasTarget m) (hv : p.after ≠ "") :
    applyChangeToMessage u m p.diff = .ok (p.apply (fun leaf v a => leaf.set v a) m) := by
  obtain ⟨first, second, party, rest, index, hseg, hint, hindex, hplace⟩ := h
  obtain ⟨tx, -, htx, -⟩ := ht
  have hlt : p.transaction < m.transactions.length := (List.getElem?_eq_some_iff.mp htx).1
  have hsegs : segments p.diff.path = first :: second :: party :: (rest ++ [p.leaf.name]) := by
    rw [Proposal.diff, segments_append, hseg, segments_leaf]
    rfl
  have htransaction : (if index < 0 then (m.transactions.length : ℤ) + index else index) =
      p.transaction := by
    split_ifs <;> omega
  have hrange : (0 : ℤ) ≤ p.transaction ∧ (p.transaction : ℤ) < m.transactions.length := by
    omega
  have hupdate : applyToTransaction party p.leaf.name (some p.after) =
      fun tx => p.place.update (fun a => p.leaf.set p.after a) tx := by
    funext tx
    obtain ⟨hp, rfl⟩ | ⟨hp, rfl⟩ := hplace <;>
      simp [applyToTransaction, setAddressField_leaf hv, hp, Place.update]
  have hfield : ∀ last more, rest ++ [p.leaf.name] = last :: more →
      (last :: more).getLastD "" = p.leaf.name := by
    intro last more hlast
    rw [← hlast, List.getLastD_concat]
  rcases hlast : rest ++ [p.leaf.name] with _ | ⟨last, more⟩
  · simp at hlast
  · rw [hlast] at hsegs
    have hafter : p.diff.after = some p.after := rfl
    unfold applyChangeToMessage
    simp only [hsegs, hint, hafter, htransaction, hfield last more hlast, hupdate]
    rw [if_pos hrange, Int.toNat_natCast]
    rfl

/-- All changes that name their targets are made there. -/
theorem applyToMessage_of_addressed (ps : List Proposal) {m : PaymentMessage}
    (h : ∀ p ∈ ps, p.Addressed u m ∧ p.HasTarget m ∧ p.after ≠ "") :
    applyToMessage u m (ps.map Proposal.diff) = .ok (appliedMessage m ps) := by
  induction ps generalizing m with
  | nil => rfl
  | cons p ps ih =>
    obtain ⟨haddressed, ht, hv⟩ := h p List.mem_cons_self
    have hrest : ∀ q ∈ ps, q.Addressed u (p.apply (fun leaf v a => leaf.set v a) m) ∧
        q.HasTarget (p.apply (fun leaf v a => leaf.set v a) m) ∧ q.after ≠ "" := by
      intro q hq
      obtain ⟨haddressed, ht, hv⟩ := h q (List.mem_cons_of_mem _ hq)
      refine ⟨?_, ht.apply, hv⟩
      simpa [Proposal.Addressed, Proposal.apply] using haddressed
    rw [applyToMessage, List.map_cons, List.foldlM_cons,
      applyChange_of_addressed haddressed ht hv]
    exact ih hrest

/-- Changes without an index are skipped. -/
theorem applyToMessage_of_noIndex {ps : List Proposal} (h : ∀ p ∈ ps, NoIndex u p.base) :
    applyToMessage u m (ps.map Proposal.diff) = .ok m := by
  refine Except.foldlM_eq_self fun change hchange => ?_
  obtain ⟨p, hp, rfl⟩ := List.mem_map.mp hchange
  exact applyChange_of_noIndex (h p hp) rfl m

end

end PaymentOps.Repair
