import PaymentOps.Mapping.Mapper
import PaymentOps.Rules.Fields

/-!
# Slots of a transaction

A slot is a place that a mapping can fill.  `put` stores a value there and `get` reads it, in the
way of the mapper and of the rule engine: `setTarget_path` and `resolveField_path` say so.

* `get_put_self`: what is stored is read;
* `get_put_of_ne`: the other slots keep what they hold, but for the defaults of a container that
  comes into being.
-/

namespace PaymentOps.Mapping

open Text

/-- The sides of a payment. -/
inductive Side where
  | debtor | creditor
  deriving DecidableEq, Repr

/-- The name of a side in a target. -/
def Side.name : Side → String
  | debtor => "debtor"
  | creditor => "creditor"

/-- The fields of an address that a mapping sets. -/
inductive AddressSlot where
  | streetName | buildingNumber | postcode | townName | country | addressLines
  deriving DecidableEq, Repr

/-- The name of an address field in a target. -/
def AddressSlot.name : AddressSlot → String
  | streetName => "street_name"
  | buildingNumber => "building_number"
  | postcode => "postcode"
  | townName => "town_name"
  | country => "country"
  | addressLines => "address_lines"

/-- The fields of an account that a mapping sets. -/
inductive AccountSlot where
  | iban | name | otherIdentification
  deriving DecidableEq, Repr

/-- The name of an account field in a target. -/
def AccountSlot.text : AccountSlot → String
  | iban => "iban"
  | name => "name"
  | otherIdentification => "other_identification"

/-- The fields of an agent that a mapping sets. -/
inductive AgentSlot where
  | bic | name
  deriving DecidableEq, Repr

/-- The name of an agent field in a target. -/
def AgentSlot.text : AgentSlot → String
  | bic => "bic"
  | name => "name"

/-- The fields of a transaction that a mapping sets. -/
inductive Slot where
  | instructionId
  | endToEndId
  | transactionId
  | amountMinor
  | currency
  | partyName (side : Side)
  | address (side : Side) (field : AddressSlot)
  | account (side : Side) (field : AccountSlot)
  | agent (side : Side) (field : AgentSlot)
  | unstructured
  deriving DecidableEq, Repr

/-- A container of slots. -/
inductive Holder where
  | transaction
  | amount
  | party (side : Side)
  | address (side : Side)
  | account (side : Side)
  | agent (side : Side)
  | remittance
  deriving DecidableEq, Repr

/-- The names on the way to a container. -/
def Holder.names : Holder → List String
  | transaction => []
  | amount => ["amount"]
  | party side => [side.name]
  | address side => [side.name, "postal_address"]
  | account side => [side.name ++ "_account"]
  | agent side => [side.name ++ "_agent"]
  | remittance => ["remittance"]

/-- What is stored: minor units, or a text. -/
inductive Stored where
  | minor (n : ℤ)
  | text (s : String)
  deriving DecidableEq

/-- The minor units that are stored. -/
def Stored.toMinor : Stored → ℤ
  | minor n => n
  | text _ => 0

/-- The text that is stored. -/
def Stored.toText : Stored → String
  | minor _ => ""
  | text s => s

namespace Slot

/-- The names on the way to a slot. -/
def names : Slot → List String
  | instructionId => ["instruction_id"]
  | endToEndId => ["end_to_end_id"]
  | transactionId => ["transaction_id"]
  | amountMinor => ["amount", "amount_minor"]
  | currency => ["amount", "currency"]
  | partyName side => [side.name, "name"]
  | address side field => [side.name, "postal_address", field.name]
  | account side field => [side.name ++ "_account", field.text]
  | agent side field => [side.name ++ "_agent", field.text]
  | unstructured => ["remittance", "unstructured"]

/-- The target path of a slot. -/
def path (slot : Slot) : String := join "." slot.names

/-- What holds the slot. -/
def holder : Slot → Holder
  | instructionId => .transaction
  | endToEndId => .transaction
  | transactionId => .transaction
  | amountMinor => .amount
  | currency => .amount
  | partyName side => .party side
  | address side _ => .address side
  | account side _ => .account side
  | agent side _ => .agent side
  | unstructured => .remittance

/-- What the slot holds when its container is new. -/
def default : Slot → Node
  | amountMinor => .number 0
  | currency => .text "EUR"
  | address _ .addressLines => .texts []
  | unstructured => .texts []
  | _ => .absent

/-! ## Reading -/

/-- The party of a side. -/
def partyOf (tx : PaymentTransaction) : Side → Option Party
  | .debtor => tx.debtor
  | .creditor => tx.creditor

/-- The account of a side. -/
def accountOf (tx : PaymentTransaction) : Side → Option Account
  | .debtor => tx.debtorAccount
  | .creditor => tx.creditorAccount

/-- The agent of a side. -/
def agentOf (tx : PaymentTransaction) : Side → Option FinancialInstitution
  | .debtor => tx.debtorAgent
  | .creditor => tx.creditorAgent

/-- A field of an address. -/
def getAddress (a : PostalAddress) : AddressSlot → Node
  | .streetName => .ofOption .text a.streetName
  | .buildingNumber => .ofOption .text a.buildingNumber
  | .postcode => .ofOption .text a.postcode
  | .townName => .ofOption .text a.townName
  | .country => .ofOption .text a.country
  | .addressLines => .texts a.addressLines

/-- A field of an account. -/
def getAccount (a : Account) : AccountSlot → Node
  | .iban => .ofOption .text a.iban
  | .name => .ofOption .text a.name
  | .otherIdentification => .ofOption .text a.otherIdentification

/-- A field of an agent. -/
def getAgent (a : FinancialInstitution) : AgentSlot → Node
  | .bic => .ofOption .text a.bic
  | .name => .ofOption .text a.name

/-- What a transaction has in a slot. -/
def get (tx : PaymentTransaction) : Slot → Node
  | instructionId => .ofOption .text tx.instructionId
  | endToEndId => .ofOption .text tx.endToEndId
  | transactionId => .ofOption .text tx.transactionId
  | amountMinor => .ofOption (fun a => .number a.amountMinor) tx.amount
  | currency => .ofOption (fun a => .text a.currency) tx.amount
  | partyName side => .ofOption (fun p => .ofOption .text p.name) (partyOf tx side)
  | address side field =>
    .ofOption (fun p => .ofOption (getAddress · field) p.postalAddress) (partyOf tx side)
  | account side field => .ofOption (getAccount · field) (accountOf tx side)
  | agent side field => .ofOption (getAgent · field) (agentOf tx side)
  | unstructured => .ofOption (fun r => .texts r.unstructured) tx.remittance

/-! ## Storing -/

/-- Set a field of an address; a line is added, and the path of the address becomes the target's. -/
def putAddress (a : PostalAddress) (s : String) (path : String) : AddressSlot → PostalAddress
  | .streetName => { a with sourcePath := some path, streetName := some s }
  | .buildingNumber => { a with sourcePath := some path, buildingNumber := some s }
  | .postcode => { a with sourcePath := some path, postcode := some s }
  | .townName => { a with sourcePath := some path, townName := some s }
  | .country =>
    { a with
      sourcePath := some path
      country := some s
      originalFields := { a.originalFields with ctry := some s } }
  | .addressLines => { a with sourcePath := some path, addressLines := a.addressLines ++ [s] }

/-- Set a field of an account. -/
def putAccount (a : Account) (s : String) : AccountSlot → Account
  | .iban => { a with iban := some s }
  | .name => { a with name := some s }
  | .otherIdentification => { a with otherIdentification := some s }

/-- Set a field of an agent. -/
def putAgent (a : FinancialInstitution) (s : String) : AgentSlot → FinancialInstitution
  | .bic => { a with bic := some s }
  | .name => { a with name := some s }

/-- Replace the party of a side. -/
def withParty (tx : PaymentTransaction) (p : Party) : Side → PaymentTransaction
  | .debtor => { tx with debtor := some p }
  | .creditor => { tx with creditor := some p }

/-- Replace the account of a side. -/
def withAccount (tx : PaymentTransaction) (a : Account) : Side → PaymentTransaction
  | .debtor => { tx with debtorAccount := some a }
  | .creditor => { tx with creditorAccount := some a }

/-- Replace the agent of a side. -/
def withAgent (tx : PaymentTransaction) (a : FinancialInstitution) : Side → PaymentTransaction
  | .debtor => { tx with debtorAgent := some a }
  | .creditor => { tx with creditorAgent := some a }

/-- The address path that the mapper records. -/
def addressPath (pre : String) : Side → String
  | .debtor => pre ++ "/" ++ "Dbtr" ++ "/PstlAdr"
  | .creditor => pre ++ "/" ++ "Cdtr" ++ "/PstlAdr"

/-- Store something in a slot; the containers on the way are created. -/
def put (pre : String) (x : Stored) (tx : PaymentTransaction) : Slot → PaymentTransaction
  | instructionId => { tx with instructionId := some x.toText }
  | endToEndId => { tx with endToEndId := some x.toText }
  | transactionId => { tx with transactionId := some x.toText }
  | amountMinor => { tx with amount := some { tx.amount.getD {} with amountMinor := x.toMinor } }
  | currency => { tx with amount := some { tx.amount.getD {} with currency := x.toText } }
  | partyName side => withParty tx { (partyOf tx side).getD {} with name := some x.toText } side
  | address side field =>
    let party := (partyOf tx side).getD {}
    let addr := putAddress (party.postalAddress.getD {}) x.toText (addressPath pre side) field
    withParty tx { party with postalAddress := some addr } side
  | account side field =>
    withAccount tx (putAccount ((accountOf tx side).getD {}) x.toText field) side
  | agent side field => withAgent tx (putAgent ((agentOf tx side).getD {}) x.toText field) side
  | unstructured =>
    let remittance := tx.remittance.getD {}
    { tx with
      remittance := some
        { remittance with unstructured := remittance.unstructured ++ [x.toText] } }

/-- What a slot that held nothing holds afterwards. -/
def image (x : Stored) : Slot → Node
  | amountMinor => .number x.toMinor
  | address _ .addressLines => .texts [x.toText]
  | unstructured => .texts [x.toText]
  | _ => .text x.toText

/-- What is stored of a value: minor units, the start of a text in upper case, or a text. -/
def convert {Source Record Value : Type} (u : Unicode) (ops : SourceOps Source Record Value)
    (value : Value) : Slot → Except ServiceError Stored
  | amountMinor => (ops.toMinor value).map .minor
  | currency => (ops.str value).map fun s => .text (u.upper (take 3 s))
  | _ => (ops.str value).map .text

/-! ## The mapper and the rule engine -/

theorem names_spec (slot : Slot) : ∀ s ∈ slot.names, s ≠ "" ∧ '.' ∉ s.toList := by
  cases slot with
  | instructionId => decide
  | endToEndId => decide
  | transactionId => decide
  | amountMinor => decide
  | currency => decide
  | partyName side => cases side <;> decide
  | address side field => cases side <;> cases field <;> decide
  | account side field => cases side <;> cases field <;> decide
  | agent side field => cases side <;> cases field <;> decide
  | unstructured => decide

theorem names_ne_nil (slot : Slot) : slot.names ≠ [] := by
  cases slot <;> exact List.cons_ne_nil _ _

theorem split_path (slot : Slot) : (split '.' slot.path).filter (· ≠ "") = slot.names := by
  have hsplit : split '.' slot.path = slot.names :=
    split_join (names_ne_nil slot) fun s hs => (names_spec slot s hs).2
  rw [hsplit, List.filter_eq_self]
  intro s hs
  simpa using (names_spec slot s hs).1

/-- The rule engine reads the slots by their paths. -/
theorem resolveField_path (tx : PaymentTransaction) (slot : Slot) :
    resolveField tx slot.path = slot.get tx := by
  rw [resolveField, split_path]
  cases slot with
  | instructionId => rfl
  | endToEndId => rfl
  | transactionId => rfl
  | amountMinor => exact Node.attr_ofOption Node.amount tx.amount "amount_minor"
  | currency => exact Node.attr_ofOption Node.amount tx.amount "currency"
  | partyName side =>
    cases side with
    | debtor => exact Node.attr_ofOption Node.party tx.debtor "name"
    | creditor => exact Node.attr_ofOption Node.party tx.creditor "name"
  | address side field =>
    have hparty : ∀ o : Option Party,
        ((Node.ofOption Node.party o).attr "postal_address").attr field.name =
          .ofOption (fun p => .ofOption (getAddress · field) p.postalAddress) o := by
      intro o
      cases o with
      | none => rfl
      | some p =>
        have haddress := Node.attr_ofOption Node.address p.postalAddress field.name
        cases field <;> exact haddress
    cases side with
    | debtor => exact hparty tx.debtor
    | creditor => exact hparty tx.creditor
  | account side field =>
    have haccount : ∀ o : Option Account, (Node.ofOption Node.account o).attr field.text =
        .ofOption (getAccount · field) o := by
      intro o
      rw [Node.attr_ofOption]
      cases field <;> rfl
    cases side with
    | debtor => exact haccount tx.debtorAccount
    | creditor => exact haccount tx.creditorAccount
  | agent side field =>
    have hagent : ∀ o : Option FinancialInstitution, (Node.ofOption Node.agent o).attr field.text =
        .ofOption (getAgent · field) o := by
      intro o
      rw [Node.attr_ofOption]
      cases field <;> rfl
    cases side with
    | debtor => exact hagent tx.debtorAgent
    | creditor => exact hagent tx.creditorAgent
  | unstructured => exact Node.attr_ofOption Node.remittance tx.remittance "unstructured"

variable {Source Record Value : Type} (u : Unicode) (ops : SourceOps Source Record Value)

theorem setAddress_name (a : PostalAddress) (field : AddressSlot) (value : Value) (path : String) :
    setAddress ops a [field.name] value path =
      (ops.str value).map fun s => putAddress a s path field := by
  unfold setAddress
  cases field <;> cases ops.str value <;> rfl

theorem setAccount_text (a : Account) (field : AccountSlot) (value : Value) :
    setAccount ops a [field.text] value = (ops.str value).map fun s => putAccount a s field := by
  unfold setAccount
  cases field <;> cases ops.str value <;> rfl

theorem setAgent_text (a : FinancialInstitution) (field : AgentSlot) (value : Value) :
    setAgent ops a [field.text] value = (ops.str value).map fun s => putAgent a s field := by
  unfold setAgent
  cases field <;> cases ops.str value <;> rfl

theorem setAmount_minor (a : MonetaryAmount) (value : Value) :
    setAmount u ops a "amount_minor" value =
      (ops.toMinor value).map fun n => { a with amountMinor := n } := by
  unfold setAmount
  cases ops.toMinor value <;> rfl

theorem setAmount_currency (a : MonetaryAmount) (value : Value) :
    setAmount u ops a "currency" value =
      (ops.str value).map fun s => { a with currency := u.upper (take 3 s) } := by
  unfold setAmount
  cases ops.str value <;> rfl

theorem setRemittance_unstructured (r : RemittanceInformation) (value : Value) :
    setRemittance ops r ["unstructured"] value =
      (ops.str value).map fun s => { r with unstructured := r.unstructured ++ [s] } := by
  unfold setRemittance
  cases ops.str value <;> rfl

theorem setPartyField_name (p : Party) (value : Value) (path : String) :
    setPartyField ops p "name" [] value path =
      (ops.str value).map fun s => { p with name := some s } := by
  unfold setPartyField
  cases ops.str value <;> rfl

theorem setPartyField_address (p : Party) (field : AddressSlot) (value : Value) (path : String) :
    setPartyField ops p "postal_address" [field.name] value path =
      (ops.str value).map fun s => { p with
        postalAddress := some
          (putAddress (p.postalAddress.getD {}) s (path ++ "/PstlAdr") field) } := by
  have haddress := setAddress_name ops (p.postalAddress.getD {}) field value (path ++ "/PstlAdr")
  unfold setPartyField
  rw [if_neg (by decide), if_pos rfl, haddress]
  cases ops.str value <;> rfl

/-- The mapper fills the slots by their paths. -/
theorem setTarget_path (tx : PaymentTransaction) (slot : Slot) (value : Value) (pre : String) :
    setTarget u ops tx slot.path value pre =
      (slot.convert u ops value).map fun x => slot.put pre x tx := by
  rw [setTarget, split_path]
  cases slot with
  | instructionId =>
    simp only [convert]
    cases ops.str value <;> rfl
  | endToEndId =>
    simp only [convert]
    cases ops.str value <;> rfl
  | transactionId =>
    simp only [convert]
    cases ops.str value <;> rfl
  | amountMinor =>
    show (setAmount u ops (tx.amount.getD {}) "amount_minor" value >>= fun a =>
      pure { tx with amount := some a }) = _
    simp only [setAmount_minor, convert]
    cases ops.toMinor value <;> rfl
  | currency =>
    show (setAmount u ops (tx.amount.getD {}) "currency" value >>= fun a =>
      pure { tx with amount := some a }) = _
    simp only [setAmount_currency, convert]
    cases ops.str value <;> rfl
  | partyName side =>
    cases side with
    | debtor =>
      show setParty ops (tx.debtor.getD {}) ["name"] value tx pre "Dbtr" = _
      unfold setParty
      simp only [setPartyField_name, convert]
      cases ops.str value <;> rfl
    | creditor =>
      show setParty ops (tx.creditor.getD {}) ["name"] value tx pre "Cdtr" = _
      unfold setParty
      simp only [setPartyField_name, convert]
      cases ops.str value <;> rfl
  | address side field =>
    cases side with
    | debtor =>
      show setParty ops (tx.debtor.getD {}) ["postal_address", field.name] value tx pre "Dbtr" = _
      unfold setParty
      simp only [setPartyField_address, convert]
      cases ops.str value <;> rfl
    | creditor =>
      show setParty ops (tx.creditor.getD {}) ["postal_address", field.name] value tx pre "Cdtr" = _
      unfold setParty
      simp only [setPartyField_address, convert]
      cases ops.str value <;> rfl
  | account side field =>
    cases side with
    | debtor =>
      show (setAccount ops (tx.debtorAccount.getD {}) [field.text] value >>= fun a =>
        pure { tx with debtorAccount := some a }) = _
      simp only [setAccount_text, convert]
      cases ops.str value <;> rfl
    | creditor =>
      show (setAccount ops (tx.creditorAccount.getD {}) [field.text] value >>= fun a =>
        pure { tx with creditorAccount := some a }) = _
      simp only [setAccount_text, convert]
      cases ops.str value <;> rfl
  | agent side field =>
    cases side with
    | debtor =>
      show (setAgent ops (tx.debtorAgent.getD {}) [field.text] value >>= fun a =>
        pure { tx with debtorAgent := some a }) = _
      simp only [setAgent_text, convert]
      cases ops.str value <;> rfl
    | creditor =>
      show (setAgent ops (tx.creditorAgent.getD {}) [field.text] value >>= fun a =>
        pure { tx with creditorAgent := some a }) = _
      simp only [setAgent_text, convert]
      cases ops.str value <;> rfl
  | unstructured =>
    show (setRemittance ops (tx.remittance.getD {}) ["unstructured"] value >>= fun r =>
      pure { tx with remittance := some r }) = _
    simp only [setRemittance_unstructured, convert]
    cases ops.str value <;> rfl

/-! ## What a slot holds -/

variable {pre : String} {x : Stored} {tx : PaymentTransaction}

/-- A slot that held nothing but its default holds what is stored. -/
theorem get_put_self {slot : Slot} (h : slot.get tx = .absent ∨ slot.get tx = slot.default) :
    slot.get (slot.put pre x tx) = slot.image x := by
  cases slot with
  | instructionId => rfl
  | endToEndId => rfl
  | transactionId => rfl
  | amountMinor => rfl
  | currency => rfl
  | partyName side => cases side <;> rfl
  | address side field =>
    have hlines : ∀ o : Option Party,
        (Node.ofOption (fun p => .ofOption (getAddress · .addressLines) p.postalAddress) o =
            .absent ∨
          Node.ofOption (fun p => .ofOption (getAddress · .addressLines) p.postalAddress) o =
            .texts []) → ((o.getD {}).postalAddress.getD {}).addressLines = [] := by
      rintro (_ | ⟨_, _ | a, _, _⟩) ho
      · rfl
      · rfl
      · simpa [getAddress] using ho
    have happend : ∀ l : List String, l = [] →
        Node.texts (l ++ [x.toText]) = .texts [x.toText] := by
      rintro l rfl
      rfl
    cases field with
    | addressLines => cases side <;> exact happend _ (hlines _ h)
    | _ => cases side <;> rfl
  | account side field => cases side <;> cases field <;> rfl
  | agent side field => cases side <;> cases field <;> rfl
  | unstructured =>
    have hlines : (tx.remittance.getD {}).unstructured = [] := by
      simp only [get, default] at h
      cases hr : tx.remittance with
      | none => rfl
      | some r => simpa [hr] using h
    show Node.texts ((tx.remittance.getD {}).unstructured ++ [x.toText]) = .texts [x.toText]
    rw [hlines]
    rfl

section

variable {side side' : Side}

theorem partyOf_withParty_self (p : Party) : partyOf (withParty tx p side) side = some p := by
  cases side <;> rfl

theorem partyOf_withParty_of_ne (h : side ≠ side') (p : Party) :
    partyOf (withParty tx p side) side' = partyOf tx side' := by
  cases side <;> cases side' <;> first | rfl | exact absurd rfl h

theorem accountOf_withAccount_self (a : Account) :
    accountOf (withAccount tx a side) side = some a := by
  cases side <;> rfl

theorem accountOf_withAccount_of_ne (h : side ≠ side') (a : Account) :
    accountOf (withAccount tx a side) side' = accountOf tx side' := by
  cases side <;> cases side' <;> first | rfl | exact absurd rfl h

theorem agentOf_withAgent_self (a : FinancialInstitution) :
    agentOf (withAgent tx a side) side = some a := by
  cases side <;> rfl

theorem agentOf_withAgent_of_ne (h : side ≠ side') (a : FinancialInstitution) :
    agentOf (withAgent tx a side) side' = agentOf tx side' := by
  cases side <;> cases side' <;> first | rfl | exact absurd rfl h

/-- What is not read of a party is left alone, whether the party was there or not. -/
theorem ofOption_withParty {f : Party → Node} {p : Party}
    (h : f p = Node.ofOption f (partyOf tx side)) (side' : Side) :
    Node.ofOption f (partyOf (withParty tx p side) side') = Node.ofOption f (partyOf tx side') := by
  by_cases hside : side = side'
  · subst hside
    rw [partyOf_withParty_self, Node.ofOption_some, h]
  · rw [partyOf_withParty_of_ne hside]

end

/-- A slot in another container is left alone. -/
theorem get_put_of_holder {slot other : Slot} (h : slot.holder ≠ other.holder) :
    other.get (slot.put pre x tx) = other.get tx := by
  cases slot with
  | partyName side =>
    cases other with
    | partyName side' =>
      have hside : side ≠ side' := fun heq => h (congrArg Holder.party heq)
      simp only [get, put, partyOf_withParty_of_ne hside]
    | address side' field' =>
      refine ofOption_withParty ?_ side'
      cases partyOf tx side <;> rfl
    | _ => cases side <;> rfl
  | address side field =>
    cases other with
    | partyName side' =>
      refine ofOption_withParty ?_ side'
      cases partyOf tx side <;> rfl
    | address side' field' =>
      have hside : side ≠ side' := fun heq => h (congrArg Holder.address heq)
      simp only [get, put, partyOf_withParty_of_ne hside]
    | _ => cases side <;> rfl
  | account side field =>
    cases other with
    | account side' field' =>
      have hside : side ≠ side' := fun heq => h (congrArg Holder.account heq)
      simp only [get, put, accountOf_withAccount_of_ne hside]
    | _ => cases side <;> rfl
  | agent side field =>
    cases other with
    | agent side' field' =>
      have hside : side ≠ side' := fun heq => h (congrArg Holder.agent heq)
      simp only [get, put, agentOf_withAgent_of_ne hside]
    | _ => cases side <;> rfl
  | _ =>
    cases other with
    | _ => first | rfl | exact absurd rfl h

/-- An address keeps its other fields. -/
theorem getAddress_putAddress {field other : AddressSlot} (h : field ≠ other) (a : PostalAddress)
    (s path : String) : getAddress (putAddress a s path field) other = getAddress a other := by
  cases field <;> cases other <;> first | rfl | exact absurd rfl h

theorem getAccount_putAccount {field other : AccountSlot} (h : field ≠ other) (a : Account)
    (s : String) : getAccount (putAccount a s field) other = getAccount a other := by
  cases field <;> cases other <;> first | rfl | exact absurd rfl h

theorem getAgent_putAgent {field other : AgentSlot} (h : field ≠ other)
    (a : FinancialInstitution) (s : String) :
    getAgent (putAgent a s field) other = getAgent a other := by
  cases field <;> cases other <;> first | rfl | exact absurd rfl h

theorem ite_absent (n : Node) : (if n = .absent then .absent else n) = n := by
  split_ifs with h
  · exact h.symm
  · rfl

/-- Reading from what is there or else from a new container. -/
theorem getD_eq_ite {α : Type} {f : α → Node} {d : α} (h : ∀ a, f a = .absent → f d = .absent)
    (o : Option α) :
    f (o.getD d) = if Node.ofOption f o = .absent then f d else Node.ofOption f o := by
  cases o with
  | none => exact (if_pos rfl).symm
  | some a =>
    rw [Node.ofOption_some]
    split_ifs with ha
    · exact ha.trans (h a ha).symm
    · rfl

theorem ofOption_bind {α β : Type} (f : β → Node) (g : α → Option β) (o : Option α) :
    Node.ofOption (fun a => Node.ofOption f (g a)) o = Node.ofOption f (o.bind g) := by
  cases o <;> rfl

/-- Another slot of the same container holds its default when the container is new. -/
theorem get_put_of_ne {slot other : Slot} (hc : slot.holder = other.holder) (h : slot ≠ other) :
    other.get (slot.put pre x tx) =
      if other.get tx = .absent then other.default else other.get tx := by
  cases slot with
  | partyName side =>
    cases other <;> cases hc
    exact absurd rfl h
  | unstructured =>
    cases other <;> cases hc
    exact absurd rfl h
  | amountMinor =>
    cases other <;> cases hc
    · exact absurd rfl h
    · exact getD_eq_ite (f := fun a : MonetaryAmount => .text a.currency) nofun tx.amount
  | currency =>
    cases other <;> cases hc
    · exact getD_eq_ite (f := fun a : MonetaryAmount => .number a.amountMinor) nofun tx.amount
    · exact absurd rfl h
  | address side field =>
    cases other <;> cases hc
    rename_i other
    have hne : field ≠ other := fun heq => h (by rw [heq])
    have hdefault : ∀ a, getAddress a other = .absent → getAddress {} other = .absent := by
      intro a ha
      cases other <;> first | rfl | exact nomatch ha
    have hkeep : ∀ o : Option Party,
        getAddress (putAddress ((o.getD {}).postalAddress.getD {}) x.toText (addressPath pre side)
          field) other =
        if Node.ofOption (fun p => Node.ofOption (getAddress · other) p.postalAddress) o = .absent
        then getAddress {} other
        else Node.ofOption (fun p => Node.ofOption (getAddress · other) p.postalAddress) o := by
      intro o
      have haddr : (o.getD {}).postalAddress.getD {} = (o.bind (·.postalAddress)).getD {} := by
        cases o <;> rfl
      rw [getAddress_putAddress hne, haddr, ofOption_bind]
      exact getD_eq_ite hdefault _
    have hnew : getAddress {} other = default (address side other) := by
      cases other <;> rfl
    rw [hnew] at hkeep
    simp only [get, put, partyOf_withParty_self]
    exact hkeep (partyOf tx side)
  | account side field =>
    cases other <;> cases hc
    rename_i other
    have hne : field ≠ other := fun heq => h (by rw [heq])
    have hnew : getAccount {} other = .absent := by
      cases other <;> rfl
    have hkeep : ∀ o : Option Account, getAccount (putAccount (o.getD {}) x.toText field) other =
        if Node.ofOption (getAccount · other) o = .absent then .absent
        else Node.ofOption (getAccount · other) o := by
      intro o
      have hget := getD_eq_ite (f := (getAccount · other)) (d := {}) (fun _ _ => hnew) o
      rw [hnew] at hget
      rw [getAccount_putAccount hne, hget]
    simp only [get, put, accountOf_withAccount_self]
    exact hkeep (accountOf tx side)
  | agent side field =>
    cases other <;> cases hc
    rename_i other
    have hne : field ≠ other := fun heq => h (by rw [heq])
    have hnew : getAgent {} other = .absent := by
      cases other <;> rfl
    have hkeep : ∀ o : Option FinancialInstitution,
        getAgent (putAgent (o.getD {}) x.toText field) other =
        if Node.ofOption (getAgent · other) o = .absent then .absent
        else Node.ofOption (getAgent · other) o := by
      intro o
      have hget := getD_eq_ite (f := (getAgent · other)) (d := {}) (fun _ _ => hnew) o
      rw [hnew] at hget
      rw [getAgent_putAgent hne, hget]
    simp only [get, put, agentOf_withAgent_self]
    exact hkeep (agentOf tx side)
  | _ =>
    cases other <;> cases hc <;> first | exact (ite_absent _).symm | exact absurd rfl h

end Slot

end PaymentOps.Mapping
