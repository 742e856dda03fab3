import PaymentOps.Iso.Registry

/-!
# Controlled XML reconstruction

`applyChanges` copies the tree, then resolves the path of each change in the copy and sets the
text of what it finds there, or creates a missing child of a postal address in schema order.  The
XML library refuses to write a text that no XML document can hold: the run ends with its
`ValueError`.
-/

namespace PaymentOps.Repair

open Text Xml

/-- The states of a change. -/
inductive ChangeStatus where
  | proposed | validated | rejected
  deriving DecidableEq, Repr

/-- Who proposes a change. -/
inductive ChangeSource where
  | addressProvider | rule | normalization | manual
  deriving DecidableEq, Repr

/-- A single structured change proposal. -/
structure DiffEntry where
  path : String
  before : Option String
  after : Option String
  source : ChangeSource
  status : ChangeStatus := .proposed
  deriving DecidableEq, Repr

/-- PostalAddress24 child order. -/
def postalAddressOrder : List String :=
  ["AdrTp", "Dept", "SubDept", "StrtNm", "BldgNb", "PstCd", "TwnNm", "Ctry", "AdrLine"]

/-- The place of an element in the schema sequence; unknown names go last. -/
def orderIndex (e : Element) : ℕ := postalAddressOrder.idxOf e.localName

/-- `[s for s in path.split("/") if s]` -/
def segments (path : String) : List String := (split '/' path).filter (· ≠ "")

/-- `segment.split("[", 1)[0]` -/
def stripIndex (segment : String) : String := (partition '[' segment).1

section

variable (u : Unicode)

/-- `int(index_str.rstrip("]")) if index_str else 0` -/
def segmentIndex (segment : String) : Except ServiceError ℤ :=
  let indexStr := (partition '[' segment).2
  if indexStr = "" then .ok 0
  else match int u (rstripChars [']'] indexStr) with
    | some index => .ok index
    | none => .error (.valueError "invalid literal for int()")

/-- The index of the child node that a segment selects.  A negative index counts from the end of
the matches. -/
def childByLocal (node : Element) (segment : String) : Except ServiceError (Option ℕ) := do
  let index ← segmentIndex u segment
  let matches' := node.nodes.findIdxs (·.localName = stripIndex segment)
  if (matches'.length : ℤ) ≤ index then pure none
  else if 0 ≤ index then pure (node.locate (stripIndex segment) index.toNat)
  else if 0 ≤ matches'.length + index then
    pure matches'[(matches'.length + index).toNat]?
  else .error (.indexError "list index out of range")

/-- The position to which segments lead. -/
def walk : Element → List String → Except ServiceError (Option (List ℕ))
  | _, [] => .ok (some [])
  | node, seg :: rest => do
    match ← childByLocal u node seg with
    | none => pure none
    | some k =>
      match node.nodes[k]? with
      | none => pure none
      | some c => (walk c rest).map fun pos => pos.map (k :: ·)

/-- Navigate a path; a first segment with the name of the root stands for the root. -/
def navigate (root : Element) (path : String) : Except ServiceError (Option (List ℕ)) :=
  match segments path with
  | [] => .ok none
  | seg :: rest =>
    if root.localName = stripIndex seg then walk u root rest else walk u root (seg :: rest)

/-- A character that the XML library writes: no control character but tab and line ends, and no
noncharacter. -/
def isXmlChar (c : Char) : Bool :=
  (c = '\t' || c = '\n' || c = '\r' || 32 ≤ c.toNat) && c.toNat ≠ 0xFFFE && c.toNat ≠ 0xFFFF

/-- A text that the XML library writes. -/
def XmlCompatible (text : String) : Prop := ∀ c ∈ text.toList, isXmlChar c

instance : DecidablePred XmlCompatible := fun text =>
  decidable_of_iff (text.toList.all isXmlChar) List.all_eq_true

/-- What the XML library raises for any other text. -/
def incompatibleText : ServiceError :=
  .valueError
    "All strings must be XML compatible: Unicode or ASCII, no NULL bytes or control characters"

/-- The check of `element.text = value`; there is none of `element.text = None`. -/
def checkText (value : Option String) : Except ServiceError Unit :=
  if ∀ text ∈ value, XmlCompatible text then .ok () else .error incompatibleText

/-- `_reorder_children` -/
def reorderChildren (parent : Element) : Element := parent.sortNodes orderIndex

/-- A new child of an element, in the namespace of the element. -/
def newChild (parent : Element) (name : String) (value : Option String) : Element :=
  .node (.name parent.namespace? name) [] value [] none

/-- The element with a new child, in the order of the schema. -/
def insertMissing (name : String) (value : Option String) (parent : Element) : Element :=
  reorderChildren (parent.append (newChild parent name value))

/-- Create a missing child of a postal address; `none` when there is no place for it. -/
def createMissing (root : Element) (path : String) (value : Option String) :
    Except ServiceError (Option Element) :=
  if (segments path).length < 2 then .ok none
  else do
    let leafName := stripIndex ((segments path).getLastD "")
    match ← navigate u root (join "/" (segments path).dropLast) with
    | none => pure none
    | some pos =>
      if leafName ∉ postalAddressOrder then pure none
      else if (root.at? pos).any (·.tag = .special) then
        .error (.typeError "argument of type 'function' is not iterable")
      else do
        checkText value
        pure (some (root.updateAt pos (insertMissing leafName value)))

/-- The tree after one change, `none` when the change is rejected. -/
def applyOne (root : Element) (change : DiffEntry) : Except ServiceError (Option Element) := do
  match ← navigate u root change.path with
  | some pos => do
    checkText change.after
    pure (some (root.updateAt pos (Element.setText change.after)))
  | none => createMissing u root change.path change.after

/-- The original tree, the copy that is changed, and the entries so far. -/
structure Reconstruction where
  original : Element
  tree : Element
  applied : List DiffEntry := []

/-- One change: validated when it was made, rejected when the way to its element is not there. -/
def applyStep (r : Reconstruction) (change : DiffEntry) : Except ServiceError Reconstruction := do
  match ← applyOne u r.tree change with
  | some tree =>
    pure { r with tree := tree, applied := r.applied ++ [{ change with status := .validated }] }
  | none => pure { r with applied := r.applied ++ [{ change with status := .rejected }] }

/-- Apply the changes to a copy of the tree. -/
def applyChanges (root : Element) (changes : List DiffEntry) :
    Except ServiceError Reconstruction :=
  changes.foldlM (applyStep u) { original := root, tree := root }

end

end PaymentOps.Repair
