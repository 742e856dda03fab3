import PaymentOps.Domain.Models

/-!
# Field paths of rules

`resolveField` walks from a transaction along the names of a path, as the rule engine reads the
field that a customer's rule is about.
-/

namespace PaymentOps

open Text

/-- What a path can reach. -/
inductive Node where
  | absent
  | text (s : String)
  | number (n : ℤ)
  | texts (l : List String)
  | time (t : DateTime)
  | fields (f : OriginalFields)
  | transaction (tx : PaymentTransaction)
  | amount (a : MonetaryAmount)
  | party (p : Party)
  | address (a : PostalAddress)
  | account (a : Account)
  | agent (a : FinancialInstitution)
  | remittance (r : RemittanceInformation)
  deriving DecidableEq

namespace Node

/-- An attribute that may be `None`. -/
def ofOption {α : Type} (f : α → Node) (o : Option α) : Node := (o.map f).getD absent

@[simp] theorem ofOption_none {α : Type} (f : α → Node) : ofOption f none = absent := rfl

@[simp] theorem ofOption_some {α : Type} (f : α → Node) (a : α) : ofOption f (some a) = f a := rfl

/-- `getattr` of a transaction. -/
def transactionAttr (tx : PaymentTransaction) (name : String) : Node :=
  match name with
  | "instruction_id" => ofOption text tx.instructionId
  | "end_to_end_id" => ofOption text tx.endToEndId
  | "transaction_id" => ofOption text tx.transactionId
  | "amount" => ofOption amount tx.amount
  | "debtor" => ofOption party tx.debtor
  | "creditor" => ofOption party tx.creditor
  | "debtor_account" => ofOption account tx.debtorAccount
  | "creditor_account" => ofOption account tx.creditorAccount
  | "debtor_agent" => ofOption agent tx.debtorAgent
  | "creditor_agent" => ofOption agent tx.creditorAgent
  | "remittance" => ofOption remittance tx.remittance
  | "requested_execution_date" => ofOption time tx.requestedExecutionDate
  | "source_path" => ofOption text tx.sourcePath
  | "debtor_name" => ofOption text (tx.debtor.bind (·.name))
  | "creditor_name" => ofOption text (tx.creditor.bind (·.name))
  | _ => absent

/-- `getattr` of an amount. -/
def amountAttr (a : MonetaryAmount) (name : String) : Node :=
  match name with
  | "amount_minor" => number a.amountMinor
  | "currency" => text a.currency
  | _ => absent

/-- `getattr` of a party. -/
def partyAttr (p : Party) (name : String) : Node :=
  match name with
  | "name" => ofOption text p.name
  | "postal_address" => ofOption address p.postalAddress
  | "financial_institution" => ofOption agent p.financialInstitution
  | "source_path" => ofOption text p.sourcePath
  | _ => absent

/-- `getattr` of an address. -/
def addressAttr (a : PostalAddress) (name : String) : Node :=
  match name with
  | "street_name" => ofOption text a.streetName
  | "building_number" => ofOption text a.buildingNumber
  | "postcode" => ofOption text a.postcode
  | "town_name" => ofOption text a.townName
  | "country" => ofOption text a.country
  | "address_lines" => texts a.addressLines
  | "source_path" => ofOption text a.sourcePath
  | "original_fields" => fields a.originalFields
  | _ => absent

/-- `getattr` of an account. -/
def accountAttr (a : Account) (name : String) : Node :=
  match name with
  | "iban" => ofOption text a.iban
  | "other_identification" => ofOption text a.otherIdentification
  | "name" => ofOption text a.name
  | "source_path" => ofOption text a.sourcePath
  | _ => absent

/-- `getattr` of an agent. -/
def agentAttr (a : FinancialInstitution) (name : String) : Node :=
  match name with
  | "bic" => ofOption text a.bic
  | "clearing_system_member" => ofOption text a.clearingSystemMember
  | "name" => ofOption text a.name
  | "postal_address" => ofOption address a.postalAddress
  | "source_path" => ofOption text a.sourcePath
  | _ => absent

/-- `getattr` of the remittance. -/
def remittanceAttr (r : RemittanceInformation) (name : String) : Node :=
  match name with
  | "unstructured" => texts r.unstructured
  | "reference" => ofOption text r.reference
  | "source_path" => ofOption text r.sourcePath
  | _ => absent

/-- `_get_attr`, on the fields of the canonical models: `None` where there is no such field. -/
def attr (node : Node) (name : String) : Node :=
  match node with
  | transaction tx => transactionAttr tx name
  | amount a => amountAttr a name
  | party p => partyAttr p name
  | address a => addressAttr a name
  | account a => accountAttr a name
  | agent a => agentAttr a name
  | remittance r => remittanceAttr r name
  | _ => absent

theorem attr_ofOption {α : Type} (f : α → Node) (o : Option α) (name : String) :
    (ofOption f o).attr name = ofOption (fun a => (f a).attr name) o := by
  cases o <;> rfl

end Node

/-- `resolve_field`: once a name leads to `None`, the rest of the path does. -/
def resolveField (tx : PaymentTransaction) (path : String) : Node :=
  ((split '.' path).filter (· ≠ "")).foldl Node.attr (.transaction tx)

end PaymentOps
