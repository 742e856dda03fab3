import PaymentOps.Matching.Requests

/-!
# Rows of match records

The two converters between a match record and its row, field by field.  A record is built from
keyword arguments, of which the model ignores the ones that it does not know.

* `rowToDomain_domainToRow`: what a record is after both;
* `roundTrip_iff`: the records that both leave as they are;
* `domainToRow_stored`, `rowToDomain_stored`: the rows of a `RequestStore` are these rows, as their
  columns keep them.
-/

namespace PaymentOps.Matching

/-- The name of a kind of records. -/
def RecordType.value : RecordType → String
  | payment => "PAYMENT"
  | expectedPayment => "EXPECTED_PAYMENT"
  | invoice => "INVOICE"
  | ledgerEntry => "LEDGER_ENTRY"
  | accountEvent => "ACCOUNT_EVENT"

namespace RecordRows

/-! ## Building a record -/

/-- What the constructor of a record raises. -/
inductive RecordError where
  | valueError (message : String)
  | validationError (field : String)
  deriving DecidableEq, Repr

/-- The value of a keyword argument; `tableMetadata` is the attribute of that name that every row
inherits from its base class. -/
inductive Argument where
  | text (s : Option String)
  | recordType (t : RecordType)
  | amount (d : Option Decimal)
  | date (d : Option Date)
  | dict (d : Dict String Json)
  | tableMetadata

/-- The keyword arguments of the model. -/
abbrev Arguments := Dict String Argument

/-- `RecordType(value)` -/
def recordType (value : String) : Except RecordError RecordType :=
  match [.payment, .expectedPayment, .invoice, .ledgerEntry, .accountEvent].find?
      fun t : RecordType => t.value = value with
  | some t => .ok t
  | none => .error (.valueError ("'" ++ value ++ "' is not a valid RecordType"))

section

variable (arguments : Arguments) (field : String)

/-- A field of type `str`. -/
def requiredText : Except RecordError String :=
  match arguments.get field with
  | some (.text (some s)) => .ok s
  | _ => .error (.validationError field)

/-- A field of type `RecordType`. -/
def requiredType : Except RecordError RecordType :=
  match arguments.get field with
  | some (.recordType t) => .ok t
  | _ => .error (.validationError field)

/-- A field of type `str | None`, which is absent by default. -/
def optionalText : Except RecordError (Option String) :=
  match arguments.get field with
  | none => .ok none
  | some (.text s) => .ok s
  | some _ => .error (.validationError field)

/-- A field of type `Decimal | None`, which is absent by default. -/
def optionalAmount : Except RecordError (Option Decimal) :=
  match arguments.get field with
  | none => .ok none
  | some (.amount d) => .ok d
  | some _ => .error (.validationError field)

/-- A field of type `date | None`, which is absent by default. -/
def optionalDate : Except RecordError (Option Date) :=
  match arguments.get field with
  | none => .ok none
  | some (.date d) => .ok d
  | some _ => .error (.validationError field)

/-- A dictionary, which is empty by default. -/
def dictionary : Except RecordError (Dict String Json) :=
  match arguments.get field with
  | none => .ok []
  | some (.dict d) => .ok d
  | some _ => .error (.validationError field)

end

/-- `MatchRecord(**arguments)`, where `extra="ignore"`. -/
def matchRecord (arguments : Arguments) : Except RecordError MatchRecord := do
  pure {
    recordId := ← requiredText arguments "record_id"
    recordType := ← requiredType arguments "record_type"
    organizationId := ← requiredText arguments "organization_id"
    profileId := ← optionalText arguments "profile_id"
    sourceSystem := ← optionalText arguments "source_system"
    messageType := ← optionalText arguments "message_type"
    instructionId := ← optionalText arguments "instruction_id"
    endToEndId := ← optionalText arguments "end_to_end_id"
    transactionId := ← optionalText arguments "transaction_id"
    amount := ← optionalAmount arguments "amount"
    currency := ← optionalText arguments "currency"
    bookingDate := ← optionalDate arguments "booking_date"
    valueDate := ← optionalDate arguments "value_date"
    debtorName := ← optionalText arguments "debtor_name"
    creditorName := ← optionalText arguments "creditor_name"
    debtorAccount := ← optionalText arguments "debtor_account"
    creditorAccount := ← optionalText arguments "creditor_account"
    debtorAgent := ← optionalText arguments "debtor_agent"
    creditorAgent := ← optionalText arguments "creditor_agent"
    remittanceReference := ← optionalText arguments "remittance_reference"
    externalReference := ← optionalText arguments "external_reference"
    country := ← optionalText arguments "country"
    sourceHash := ← optionalText arguments "source_hash"
    metadata := ← dictionary arguments "metadata" }

/-! ## The converters -/

/-- A row of `match_records`. -/
structure MatchRecordRow where
  organizationId : String
  recordId : String
  recordType : String
  profileId : Option String
  sourceSystem : Option String
  messageType : Option String
  instructionId : Option String
  endToEndId : Option String
  transactionId : Option String
  amount : Option Decimal
  currency : Option String
  bookingDate : Option Date
  valueDate : Option Date
  debtorName : Option String
  creditorName : Option String
  debtorAccount : Option String
  creditorAccount : Option String
  debtorAgent : Option String
  creditorAgent : Option String
  remittanceReference : Option String
  externalReference : Option String
  country : Option String
  sourceHash : Option String
  metadataJson : Dict String Json

/-- `_domain_to_row` -/
def domainToRow (org : String) (record : MatchRecord) : MatchRecordRow where
  organizationId := org
  recordId := record.recordId
  recordType := record.recordType.value
  profileId := record.profileId
  sourceSystem := record.sourceSystem
  messageType := record.messageType
  instructionId := record.instructionId
  endToEndId := record.endToEndId
  transactionId := record.transactionId
  amount := record.amount
  currency := record.currency
  bookingDate := record.bookingDate
  valueDate := record.valueDate
  debtorName := record.debtorName
  creditorName := record.creditorName
  debtorAccount := record.debtorAccount
  creditorAccount := record.creditorAccount
  debtorAgent := record.debtorAgent
  creditorAgent := record.creditorAgent
  remittanceReference := record.remittanceReference
  externalReference := record.externalReference
  country := record.country
  sourceHash := record.sourceHash
  metadataJson := record.metadata

/-- `_row_to_domain`: the last argument has a name that the model does not know. -/
def rowToDomain (row : MatchRecordRow) : Except RecordError MatchRecord := do
  let type ← recordType row.recordType
  matchRecord [
    ("record_id", .text (some row.recordId)),
    ("record_type", .recordType type),
    ("organization_id", .text (some row.organizationId)),
    ("profile_id", .text row.profileId),
    ("source_system", .text row.sourceSystem),
    ("message_type", .text row.messageType),
    ("instruction_id", .text row.instructionId),
    ("end_to_end_id", .text row.endToEndId),
    ("transaction_id", .text row.transactionId),
    ("amount", .amount row.amount),
    ("currency", .text row.currency),
    ("booking_date", .date row.bookingDate),
    ("value_date", .date row.valueDate),
    ("debtor_name", .text row.debtorName),
    ("creditor_name", .text row.creditorName),
    ("debtor_account", .text row.debtorAccount),
    ("creditor_account", .text row.creditorAccount),
    ("debtor_agent", .text row.debtorAgent),
    ("creditor_agent", .text row.creditorAgent),
    ("remittance_reference", .text row.remittanceReference),
    ("external_reference", .text row.externalReference),
    ("country", .text row.country),
    ("source_hash", .text row.sourceHash),
    ("metadata_json", .tableMetadata)]

/-! ## Round trips -/

theorem recordType_value (t : RecordType) : recordType t.value = .ok t := by
  cases t <;> decide +kernel

/-- What a record is after both converters. -/
theorem rowToDomain_domainToRow (org : String) (r : MatchRecord) :
    rowToDomain (domainToRow org r) = .ok { r with organizationId := org, metadata := [] } := by
  unfold rowToDomain
  rw [domainToRow, recordType_value]
  rfl

/-- A record of the organization comes back as it is exactly when it has no metadata. -/
theorem roundTrip_iff (org : String) (r : MatchRecord) (h : r.organizationId = org) :
    rowToDomain (domainToRow org r) = .ok r ↔ r.metadata = [] := by
  rw [rowToDomain_domainToRow, Except.ok.injEq]
  constructor
  · intro hsame
    exact (congrArg MatchRecord.metadata hsame).symm
  · intro hempty
    obtain ⟨⟩ := r
    obtain rfl := h
    obtain rfl := hempty
    rfl

/-- The branch of a payment is lost. -/
theorem metadata_lost :
    let r : MatchRecord :=
      { recordId := "P-1"
        recordType := .payment
        organizationId := "org-1"
        metadata := [("branch", .str "01")] }
    r.organizationId = "org-1" ∧ rowToDomain (domainToRow "org-1" r) ≠ .ok r := by
  refine ⟨rfl, fun h => ?_⟩
  rw [rowToDomain_domainToRow, Except.ok.injEq] at h
  cases congrArg MatchRecord.metadata h

theorem roundTrip_iff_payment :
    let r : MatchRecord :=
      { recordId := "P-1"
        recordType := .payment
        organizationId := "org-1"
        amount := some { coefficient := 1025, exponent := -2 } }
    rowToDomain (domainToRow "org-1" r) = .ok r ↔ r.metadata = [] :=
  roundTrip_iff "org-1" _ rfl

/-! ## Rows of a store -/

/-- The row as its columns keep it. -/
def stored (row : MatchRecordRow) : Except RequestError MatchRecordRow :=
  match row.amount with
  | none => .ok row
  | some amount => (numericColumn amount).map fun amount => { row with amount := some amount }

/-- A row of a `RequestStore`. -/
def ofStore (row : MatchRecord) : MatchRecordRow := domainToRow row.organizationId row

/-- What a store keeps of a record is its row. -/
theorem domainToRow_stored (org : String) (r : MatchRecord) :
    (Matching.domainToRow org r).map ofStore = stored (domainToRow org r) := by
  unfold Matching.domainToRow stored
  dsimp only [domainToRow]
  cases r.amount with
  | none => rfl
  | some amount =>
    dsimp only
    cases numericColumn amount <;> rfl

/-- What a store reads from a row is the record of the row. -/
theorem rowToDomain_stored (row : MatchRecord) :
    rowToDomain (ofStore row) = .ok (Matching.rowToDomain row) :=
  rowToDomain_domainToRow row.organizationId row

end RecordRows

end PaymentOps.Matching
