import PaymentOps.Domain.Models
import PaymentOps.Lib.Decimal
import PaymentOps.Lib.Xml

/-!
# Reading ISO 20022 messages

The accessors that every adapter uses, and the mapping of amounts, parties, accounts, agents and
addresses that the adapters share.  The reads go by local name and do not look at namespaces.
-/

namespace PaymentOps.Iso

open Text Xml

/-- The versions that the adapters accept. -/
structure SupportedVersion where
  identifier : String
  messageName : String
  namespace_ : String
  rootElement : String
  deriving DecidableEq, Repr

/-- `extract_namespace`. -/
def extractNamespace (root : Element) : Option String := root.namespace?

/-- The first child element whose local name matches. -/
def child (el : Option Element) (name : String) : Option Element := el.bind (·.child name)

/-- The children of this local name. -/
def children (el : Option Element) (name : String) : List Element :=
  match el with
  | none => []
  | some e => e.children name

/-- The stripped text of an element, none when it is blank. -/
def text (el : Option Element) : Option String :=
  (el.bind (·.text)).bind fun t => orNone (strip t)

/-- `child_text`: the text of the first child of this name. -/
def childText (el : Option Element) (name : String) : Option String := text (child el name)

/-- `parse_datetime`, none for what is no date. -/
def parseDatetime (value : Option String) : Option DateTime :=
  if truthy value then value.bind fun v => DateTime.fromisoformat (replace 'Z' "+00:00" v)
  else none

/-- `date.fromisoformat(value[:10])`, `None` where it raises. -/
def parseDay (value : String) : Option Date := Date.fromisoformat (take 10 value)

/-! ## Amounts -/

/-- `MonetaryAmount(...)`, which raises unless the currency has three characters. -/
def monetaryAmount (minor : ℤ) (currency : String) : Except ServiceError MonetaryAmount :=
  if currency.length = 3 then .ok { amountMinor := minor, currency := currency }
  else .error (.validationError "MonetaryAmount.currency")

/-- `int(round(Decimal(value) * 100))`, zero where it raises. -/
def decimalMinor (u : Unicode) (value : String) : ℤ :=
  match Decimal.ofDecimalText u value with
  | some (.finite q) =>
    if Decimal.overflows (Decimal.context28 (q * 100)) then 0
    else Decimal.roundHalfEven (Decimal.context28 (q * 100))
  | _ => 0

/-- `el.get("Ccy") or "EUR"` -/
def currencyOf (el : Element) : String := (or (el.get "Ccy") (some "EUR")).getD "EUR"

/-- An amount in the minor unit, with its currency. -/
def mapAmount (u : Unicode) (el : Option Element) : Except ServiceError (Option MonetaryAmount) :=
  match el, text el with
  | some e, some value => (monetaryAmount (decimalMinor u value) (currencyOf e)).map some
  | _, _ => .ok none

/-! ## Parties -/

/-- `map_address`, none when no field of it is there. -/
def mapAddress (el : Option Element) (path : String) : Option PostalAddress :=
  el.map fun e =>
    let fields : OriginalFields := {
      strtNm := childText (some e) "StrtNm"
      bldgNb := childText (some e) "BldgNb"
      pstCd := childText (some e) "PstCd"
      twnNm := childText (some e) "TwnNm"
      ctry := childText (some e) "Ctry" }
    { streetName := fields.strtNm
      buildingNumber := fields.bldgNb
      postcode := fields.pstCd
      townName := fields.twnNm
      country := fields.ctry
      addressLines := (children (some e) "AdrLine").filterMap fun x => text (some x)
      sourcePath := some path
      originalFields := fields }

/-- `map_party`, with the path of its address. -/
def mapParty (el : Option Element) (path : String) : Option Party :=
  el.map fun e =>
    { name := childText (some e) "Nm"
      postalAddress := mapAddress (child (some e) "PstlAdr") (path ++ "/PstlAdr")
      sourcePath := some path }

/-- `map_account`. -/
def mapAccount (el : Option Element) (path : String) : Option Account :=
  el.map fun e =>
    let id := child (some e) "Id"
    { iban := childText id "IBAN"
      otherIdentification := childText (child id "Othr") "Id"
      name := childText (some e) "Nm"
      sourcePath := some path }

/-- `map_agent`, with the path of its address. -/
def mapAgent (el : Option Element) (path : String) : Option FinancialInstitution :=
  el.map fun e =>
    let fi := child (some e) "FinInstnId"
    { bic := childText fi "BICFI"
      clearingSystemMember := childText (child fi "ClrSysMmbId") "MmbId"
      name := childText fi "Nm"
      postalAddress := mapAddress (child fi "PstlAdr") (path ++ "/FinInstnId/PstlAdr")
      sourcePath := some path }

/-- `map_remittance`. -/
def mapRemittance (el : Option Element) (path : String) : Option RemittanceInformation :=
  el.map fun e =>
    { unstructured := (children (some e) "Ustrd").filterMap fun x => text (some x)
      reference := childText (child (some e) "Strd") "CdtrRefInf"
      sourcePath := some path }

end PaymentOps.Iso
