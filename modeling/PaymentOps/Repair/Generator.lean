import PaymentOps.Repair.Reconstruction
import PaymentOps.Rules.Base

/-!
# Repair candidates

`generateCandidate` turns what the address provider says about the addresses of a message into
changes, applies them to the tree of a pacs.008 or to the message itself, and validates the
result again.
-/

namespace PaymentOps.Repair

open Text Xml Iso

/-- What the address provider resolves of an address. -/
structure AddressAnalysis where
  countryCode : Option String := none
  townName : Option String := none
  fallback : Bool := false
  deriving DecidableEq, Repr

/-- What a provider finds out about an address. -/
abbrev AddressProvider := PostalAddress → AddressAnalysis

/-- The labelled addresses of a transaction. -/
def addresses (tx : PaymentTransaction) : List (String × PostalAddress) :=
  ((tx.debtor.bind (·.postalAddress)).map ("Dbtr", ·)).toList ++
    ((tx.creditor.bind (·.postalAddress)).map ("Cdtr", ·)).toList ++
    ((tx.debtorAgent.bind (·.postalAddress)).map ("DbtrAgt", ·)).toList ++
    ((tx.creditorAgent.bind (·.postalAddress)).map ("CdtrAgt", ·)).toList

/-- One change, when the provider has a value and it is not the one received. -/
def fieldChange (base leaf : String) (raw value : Option String) : List DiffEntry :=
  if truthy value ∧ raw ≠ value then
    [{ path := base ++ "/" ++ leaf, before := raw, after := value, source := .addressProvider }]
  else []

/-- The changes of one address. -/
def addressChanges (provider : AddressProvider) (addr : PostalAddress) : List DiffEntry :=
  if truthy addr.sourcePath then
    let analysis := provider addr
    let base := addr.sourcePath.getD ""
    fieldChange base "Ctry" (or addr.originalFields.ctry addr.country) analysis.countryCode ++
      fieldChange base "TwnNm" (or addr.originalFields.twnNm addr.townName) analysis.townName
  else []

/-- The changes that `generate_candidate` derives from the addresses of a message. -/
def proposedChanges (provider : AddressProvider) (message : PaymentMessage) : List DiffEntry :=
  message.transactions.flatMap fun tx =>
    (addresses tx).flatMap fun a => addressChanges provider a.2

/-! ## Applying changes to a message -/

/-- `addr.country = value` or `addr.town_name = value` -/
def setAddressField (field : String) (value : Option String) (addr : PostalAddress) :
    PostalAddress :=
  if field = "Ctry" ∧ truthy value then { addr with country := value }
  else if field = "TwnNm" ∧ truthy value then { addr with townName := value }
  else addr

/-- The effect of a change on the transaction that it names. -/
def applyToTransaction (party field : String) (value : Option String) (tx : PaymentTransaction) :
    PaymentTransaction :=
  if party = "Cdtr" then
    { tx with creditor := tx.creditor.map (Party.mapAddress (setAddressField field value)) }
  else if party = "Dbtr" then
    { tx with debtor := tx.debtor.map (Party.mapAddress (setAddressField field value)) }
  else tx

/-- One change.  The second segment of its path is read as the index of the transaction; a
negative index counts from the end. -/
def applyChangeToMessage (u : Unicode) (message : PaymentMessage) (change : DiffEntry) :
    Except ServiceError PaymentMessage :=
  match segments change.path with
  | _ :: second :: party :: last :: rest =>
    match int u (stripChars ['[', ']'] second) with
    | none => .ok message
    | some index =>
      let n : ℤ := message.transactions.length
      let i := if index < 0 then n + index else index
      let field := (last :: rest).getLastD ""
      if 0 ≤ i ∧ i < n then
        let transactions :=
          message.transactions.modify i.toNat (applyToTransaction party field change.after)
        .ok { message with transactions := transactions }
      else .error (.indexError "list index out of range")
  | _ => .ok message

/-- `_apply_to_message`: the changes in their order. -/
def applyToMessage (u : Unicode) (message : PaymentMessage) (changes : List DiffEntry) :
    Except ServiceError PaymentMessage :=
  changes.foldlM (applyChangeToMessage u) message

/-! ## Candidates -/

/-- A candidate repair of a message; `xml` is the tree of which the text is returned. -/
structure RepairCandidate where
  changes : List DiffEntry
  xml : Option Element := none
  status : CandidateStatus
  xsdValid : Option Bool := none
  ruleFindings : List RuleFinding := []
  note : Option String := none

/-- The surroundings of the generator. -/
structure GeneratorEnv where
  unicode : Unicode
  xmlLibrary : XmlLibrary
  provider : AddressProvider
  rules : RuleEngine

/-- The status of a candidate by whether it passed. -/
def statusOf (passed : Bool) : CandidateStatus := if passed then .validated else .reviewRequired

section

variable (env : GeneratorEnv)

/-- The candidate of a pacs.008 tree. -/
def xmlCandidate (root : Element) (changes : List DiffEntry) (clock : Instant) :
    Except ServiceError RepairCandidate := do
  let r ← applyChanges env.unicode root changes
  let version ← identifyPacs008 r.tree
  let valid := env.xmlLibrary.validate version.identifier r.tree
  let candidateMessage ← mapPacs008ToCanonical env.unicode r.tree version clock
  let findings := env.rules.evaluate candidateMessage
  pure {
    changes := r.applied
    xml := some r.tree
    status := statusOf (valid && ! blockingFindings findings)
    xsdValid := some valid
    ruleFindings := findings }

/-- The candidate of a message without a reconstructor. -/
def modelCandidate (message : PaymentMessage) (changes : List DiffEntry) :
    Except ServiceError RepairCandidate := do
  let candidateMessage ← applyToMessage env.unicode message changes
  let findings := env.rules.evaluate candidateMessage
  pure {
    changes := changes
    status := statusOf (! blockingFindings findings)
    ruleFindings := findings }

/-- Generate, reconstruct and validate again.  `doc` is the tree of an ISO message. -/
def generateCandidate (message : PaymentMessage) (doc : Option Element) (clock : Instant) :
    Except ServiceError RepairCandidate :=
  let changes := proposedChanges env.provider message
  if changes = [] then
    .ok { changes := [], status := .validated, note := some "No repair changes required" }
  else
    match doc, message.sourceFormat with
    | some root, .xmlPacs008 => xmlCandidate env root changes clock
    | _, _ => modelCandidate env message changes

end

end PaymentOps.Repair
