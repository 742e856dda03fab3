import PaymentOps.Domain.Models
import PaymentOps.Lib.Fallible

/-!
# The mapping engine

`mapToCanonical` makes a canonical message of source records by declarative field mappings.  How a
record is read, and what the transforms and conversions make of a value, comes from `SourceOps`:
the mapper only decides which value goes where.
-/

namespace PaymentOps.Mapping

open Text

/-- `SourceFormat` of the mapping engine. -/
inductive InputFormat where
  | json | csv | customXml
  deriving DecidableEq, Repr

/-- The name of an input format. -/
def InputFormat.value : InputFormat → String
  | json => "json"
  | csv => "csv"
  | customXml => "custom_xml"

/-- How much a field is needed. -/
inductive FieldRequirement where
  | required | optional | conditional
  deriving DecidableEq, Repr

/-- How bad an issue is. -/
inductive MappingSeverity where
  | info | warning | error
  deriving DecidableEq, Repr

/-- A single source to canonical target field mapping. -/
structure FieldMapping where
  source : String
  target : String
  required : FieldRequirement := .optional
  transforms : List String := []
  default : Option String := none
  deriving DecidableEq, Repr

/-- A mapping: its fields, and where the records are. -/
structure MappingDefinition where
  mappingVersion : String
  sourceFormat : InputFormat
  recordSelector : Option String := none
  fields : List FieldMapping := []
  deriving DecidableEq, Repr

/-- What is wrong with a mapping or a record, and where. -/
structure MappingIssue where
  code : String
  severity : MappingSeverity
  message : String
  path : Option String := none
  deriving DecidableEq, Repr

/-- The mapped message with the issues of its records. -/
structure MappingResult where
  message : PaymentMessage
  mappingVersion : String
  issues : List MappingIssue := []

/-- Reading sources, records and their values. -/
structure SourceOps (Source Record Value : Type) where
  /-- the source, when it is a list of records -/
  asList : Source → Option (List Record)
  /-- the source, when it is a dictionary -/
  asDict : Source → Option Record
  resolveJsonPath : Source → String → List Record
  /-- the records that an XPath selects, when the source is an element -/
  xpath : Source → String → Except ServiceError (Option (List Record))
  getValue : Record → String → Option Value
  ofString : String → Value
  /-- `value == ""` -/
  isEmpty : Value → Bool
  transform : String → Value → Value
  /-- `str(value)` -/
  str : Value → Except ServiceError String
  toMinor : Value → Except ServiceError ℤ

section

variable {Source Record Value : Type} (u : Unicode) (ops : SourceOps Source Record Value)

/-- `_extract_records`. -/
def extractRecords (definition : MappingDefinition) (source : Source) :
    Except ServiceError (List Record) :=
  match definition.sourceFormat with
  | .csv => .ok ((ops.asList source).getD [])
  | .json =>
    if truthy definition.recordSelector then
      .ok (ops.resolveJsonPath source (definition.recordSelector.getD ""))
    else .ok (ops.asDict source).toList
  | .customXml =>
    if truthy definition.recordSelector then
      (ops.xpath source (definition.recordSelector.getD "")).map (·.getD [])
    else .ok []

/-- The transforms of a field, one after the other. -/
def applyTransforms (value : Value) (transforms : List String) : Value :=
  transforms.foldl (fun v name => ops.transform name v) value

/-- The format that a message says it comes from. -/
def sourceFormat : InputFormat → SourceFormat
  | .json => .json
  | .csv => .csv
  | .customXml => .xmlPain001

/-! ## Targets -/

/-- Set a field of the amount. -/
def setAmount (amount : MonetaryAmount) (field : String) (value : Value) :
    Except ServiceError MonetaryAmount :=
  if field = "amount_minor" then do
    pure { amount with amountMinor := ← ops.toMinor value }
  else if field = "currency" then do
    pure { amount with currency := u.upper (take 3 (← ops.str value)) }
  else .ok amount

/-- The path of an address is recorded as soon as one of its fields is a target. -/
def setAddress (addr : PostalAddress) (seg : List String) (value : Value) (path : String) :
    Except ServiceError PostalAddress :=
  match seg with
  | [] => .ok addr
  | field :: _ =>
    let addr := { addr with sourcePath := some path }
    if field = "street_name" then do
      pure { addr with streetName := some (← ops.str value) }
    else if field = "building_number" then do
      pure { addr with buildingNumber := some (← ops.str value) }
    else if field = "postcode" then do
      pure { addr with postcode := some (← ops.str value) }
    else if field = "town_name" then do
      pure { addr with townName := some (← ops.str value) }
    else if field = "country" then do
      let country ← ops.str value
      let originalFields := { addr.originalFields with ctry := some country }
      pure { addr with country := some country, originalFields := originalFields }
    else if field = "address_lines" then do
      pure { addr with addressLines := addr.addressLines ++ [← ops.str value] }
    else .ok addr

/-- The party with one field set. -/
def setPartyField (party : Party) (field : String) (rest : List String) (value : Value)
    (path : String) : Except ServiceError Party :=
  if field = "name" then do
    pure { party with name := some (← ops.str value) }
  else if field = "postal_address" then do
    let addr ← setAddress ops (party.postalAddress.getD {}) rest value (path ++ "/PstlAdr")
    pure { party with postalAddress := some addr }
  else .ok party

/-- Set a field of a party, or of its address. -/
def setParty (party : Party) (seg : List String) (value : Value) (tx : PaymentTransaction)
    (pre label : String) : Except ServiceError PaymentTransaction :=
  match seg with
  | [] => .ok tx
  | field :: rest => do
    let party ← setPartyField ops party field rest value (pre ++ "/" ++ label)
    if label = "Dbtr" then pure { tx with debtor := some party }
    else pure { tx with creditor := some party }

/-- Set a field of an account. -/
def setAccount (account : Account) (seg : List String) (value : Value) :
    Except ServiceError Account :=
  match seg with
  | [] => .ok account
  | field :: _ =>
    if field = "iban" then do
      pure { account with iban := some (← ops.str value) }
    else if field = "name" then do
      pure { account with name := some (← ops.str value) }
    else if field = "other_identification" then do
      pure { account with otherIdentification := some (← ops.str value) }
    else .ok account

/-- Set a field of an agent. -/
def setAgent (agent : FinancialInstitution) (seg : List String) (value : Value) :
    Except ServiceError FinancialInstitution :=
  match seg with
  | [] => .ok agent
  | field :: _ =>
    if field = "bic" then do
      pure { agent with bic := some (← ops.str value) }
    else if field = "name" then do
      pure { agent with name := some (← ops.str value) }
    else .ok agent

/-- Set a field of the remittance. -/
def setRemittance (remittance : RemittanceInformation) (seg : List String) (value : Value) :
    Except ServiceError RemittanceInformation :=
  match seg with
  | [] => .ok remittance
  | field :: _ =>
    if field = "unstructured" then do
      pure { remittance with unstructured := remittance.unstructured ++ [← ops.str value] }
    else .ok remittance

/-- `_set_target`: an unknown target is ignored. -/
def setTarget (tx : PaymentTransaction) (target : String) (value : Value) (pre : String) :
    Except ServiceError PaymentTransaction :=
  match (split '.' target).filter (· ≠ "") with
  | [] => .ok tx
  | head :: seg =>
    if head = "amount" then
      match seg with
      | [] => .ok tx
      | field :: _ => do
        pure { tx with amount := some (← setAmount u ops (tx.amount.getD {}) field value) }
    else if head = "instruction_id" then do
      pure { tx with instructionId := some (← ops.str value) }
    else if head = "end_to_end_id" then do
      pure { tx with endToEndId := some (← ops.str value) }
    else if head = "transaction_id" then do
      pure { tx with transactionId := some (← ops.str value) }
    else if head = "debtor" then setParty ops (tx.debtor.getD {}) seg value tx pre "Dbtr"
    else if head = "creditor" then setParty ops (tx.creditor.getD {}) seg value tx pre "Cdtr"
    else if head = "debtor_account" then do
      pure { tx with debtorAccount := some (← setAccount ops (tx.debtorAccount.getD {}) seg value) }
    else if head = "creditor_account" then do
      let account ← setAccount ops (tx.creditorAccount.getD {}) seg value
      pure { tx with creditorAccount := some account }
    else if head = "debtor_agent" then do
      pure { tx with debtorAgent := some (← setAgent ops (tx.debtorAgent.getD {}) seg value) }
    else if head = "creditor_agent" then do
      pure { tx with creditorAgent := some (← setAgent ops (tx.creditorAgent.getD {}) seg value) }
    else if head = "remittance" then do
      pure { tx with remittance := some (← setRemittance ops (tx.remittance.getD {}) seg value) }
    else .ok tx

/-! ## Records -/

/-- The value of a field, `none` when it is missing or empty. -/
def presentValue (record : Record) (source : String) : Option Value :=
  (ops.getValue record source).filter fun v => ! ops.isEmpty v

/-- The issue of a field that a record does not have. -/
def missingIssue (fm : FieldMapping) : MappingIssue where
  code := "MAP-001"
  severity := .error
  message := "Required source field missing"
  path := some fm.target

/-- One field of one record: the transaction and the issues so far. -/
def mapField (record : Record) (pre : String) (acc : PaymentTransaction × List MappingIssue)
    (fm : FieldMapping) : Except ServiceError (PaymentTransaction × List MappingIssue) :=
  let place := fun value =>
    (setTarget u ops acc.1 fm.target (applyTransforms ops value fm.transforms) pre).map
      fun tx => (tx, acc.2)
  match presentValue ops record fm.source, fm.default with
  | some value, _ => place value
  | none, some value =>
    if fm.required = .required then .ok (acc.1, acc.2 ++ [missingIssue fm])
    else place (ops.ofString value)
  | none, none =>
    if fm.required = .required then .ok (acc.1, acc.2 ++ [missingIssue fm]) else .ok acc

/-- `transactions[i]` -/
def recordPath (index : ℕ) : String := "transactions[" ++ toString index ++ "]"

/-- One record: its fields in their order, with their issues. -/
def mapRecord (fields : List FieldMapping) (record : Record) (index : ℕ) :
    Except ServiceError (PaymentTransaction × List MappingIssue) :=
  fields.foldlM (mapField u ops record (recordPath index)) ({}, [])

/-- `map_to_canonical`. -/
def mapToCanonical (definition : MappingDefinition) (source : Source) (clock : Instant) :
    Except ServiceError MappingResult := do
  let records ← extractRecords ops definition source
  let mapped ← records.zipIdx.mapM fun r => mapRecord u ops definition.fields r.1 r.2
  let message : PaymentMessage := {
    messageType := some definition.sourceFormat.value
    sourceFormat := sourceFormat definition.sourceFormat
    transactions := mapped.map (·.1)
    receivedAt := clock }
  pure {
    message := message
    mappingVersion := definition.mappingVersion
    issues := mapped.flatMap (·.2) }

end

section

variable {Source Record Value : Type} {u : Unicode} {ops : SourceOps Source Record Value}
  {definition : MappingDefinition} {source : Source} {clock : Instant}

/-- What a message is made of. -/
theorem mapToCanonical_parts {result : MappingResult}
    (h : mapToCanonical u ops definition source clock = .ok result) :
    ∃ records mapped, extractRecords ops definition source = .ok records ∧
      records.zipIdx.mapM (fun r => mapRecord u ops definition.fields r.1 r.2) = .ok mapped ∧
      result.message.transactions = mapped.map (·.1) ∧ result.issues = mapped.flatMap (·.2) := by
  obtain ⟨records, hrecords, h⟩ := Except.bind_eq_ok.mp h
  obtain ⟨mapped, hmapped, h⟩ := Except.bind_eq_ok.mp h
  obtain rfl := Except.pure_eq_ok.mp h
  exact ⟨records, mapped, hrecords, hmapped, rfl, rfl⟩

/-- Records that are mapped one by one make a message. -/
theorem exists_mapToCanonical (clock : Instant) {records : List Record}
    {mapped : List (PaymentTransaction × List MappingIssue)}
    (hrecords : extractRecords ops definition source = .ok records)
    (hmapped : records.zipIdx.mapM (fun r => mapRecord u ops definition.fields r.1 r.2) =
      .ok mapped) :
    ∃ result, mapToCanonical u ops definition source clock = .ok result ∧
      result.message.transactions = mapped.map (·.1) := by
  rw [mapToCanonical, hrecords]
  simp only [bind, Except.bind]
  rw [hmapped]
  exact ⟨_, rfl, rfl⟩

end

end PaymentOps.Mapping
