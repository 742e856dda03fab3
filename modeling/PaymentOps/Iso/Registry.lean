import PaymentOps.Iso.Camt
import PaymentOps.Iso.Pacs002
import PaymentOps.Iso.Payments

/-!
# The message registry

The supported messages, each under its exact namespace; a message is dispatched by the namespace
of its root element.  `secureParse` is the way from the payload to the tree; the parser and the
schemas belong to the XML library.
-/

namespace PaymentOps.Iso

open Xml

/-- What the XML library reports of a text that it cannot parse. -/
inductive ParseFailure where
  | syntaxError
  | valueError
  deriving DecidableEq, Repr

/-- The XML library: its parser, and the bundled schema of each version. -/
structure XmlLibrary where
  fromstring : List UInt8 → Except ParseFailure Element
  validate : String → Element → Bool

/-! ## Secure parsing -/

/-- `bytes.upper()` for one byte. -/
def upperByte (b : UInt8) : UInt8 := if 97 ≤ b ∧ b ≤ 122 then b - 32 else b

/-- `b"<!DOCTYPE"` and `b"<!ENTITY"` -/
def dtdMarkers : List (List UInt8) :=
  ["<!DOCTYPE", "<!ENTITY"].map fun s => s.toList.map fun c => c.toNat.toUInt8

/-- `marker in data` -/
def containsBytes (marker data : List UInt8) : Bool := data.tails.any (marker.isPrefixOf ·)

/-- `secure_parse`: the size, the markers, then the library. -/
def secureParse (lib : XmlLibrary) (maxBytes : ℕ) (data : List UInt8) :
    Except ServiceError Element :=
  if data.isEmpty then .error (.malformedXml "Empty payload")
  else if maxBytes < data.length then
    .error (.payloadTooLarge ("Payload exceeds " ++ toString maxBytes ++ " bytes"))
  else if dtdMarkers.any (containsBytes · (data.map upperByte)) then
    .error (.prohibitedEntity "DTD or entity declarations are not permitted")
  else
    match lib.fromstring data with
    | .error .syntaxError => .error (.malformedXml "XML could not be parsed")
    | .error .valueError => .error (.encodingError "XML encoding could not be resolved")
    | .ok root => .ok root

/-! ## Versions -/

/-- The namespace of a message identifier. -/
def namespaceOf (identifier : String) : String :=
  "urn:iso:std:iso:20022:tech:xsd:" ++ identifier

/-- The supported version of pacs.008. -/
def pacs008Version : SupportedVersion where
  identifier := "pacs.008.001.08"
  messageName := "FIToFICustomerCreditTransferV08"
  namespace_ := namespaceOf "pacs.008.001.08"
  rootElement := "FIToFICstmrCdtTrf"

/-- The supported version of pain.001. -/
def pain001Version : SupportedVersion where
  identifier := "pain.001.001.13"
  messageName := "CustomerCreditTransferInitiationV13"
  namespace_ := namespaceOf "pain.001.001.13"
  rootElement := "CstmrCdtTrfInitn"

/-- The supported version of pacs.002. -/
def pacs002Version : SupportedVersion where
  identifier := "pacs.002.001.16"
  messageName := "FIToFIPaymentStatusReportV16"
  namespace_ := namespaceOf "pacs.002.001.16"
  rootElement := "FIToFIPmtStsRpt"

/-- The supported version of pacs.009. -/
def pacs009Version : SupportedVersion where
  identifier := "pacs.009.001.13"
  messageName := "FinancialInstitutionCreditTransferV13"
  namespace_ := namespaceOf "pacs.009.001.13"
  rootElement := "FICdtTrf"

/-- The supported version of camt.053. -/
def camt053Version : SupportedVersion where
  identifier := "camt.053.001.14"
  messageName := "BankToCustomerStatementV14"
  namespace_ := namespaceOf "camt.053.001.14"
  rootElement := "Stmt"

/-- The supported version of camt.054. -/
def camt054Version : SupportedVersion where
  identifier := "camt.054.001.14"
  messageName := "BankToCustomerDebitCreditNotificationV14"
  namespace_ := namespaceOf "camt.054.001.14"
  rootElement := "Ntfctn"

/-- pacs.008 namespaces that are not supported. -/
def knownPacs008Namespaces : List String :=
  ["02", "04", "05", "09", "11", "12"].map fun v => namespaceOf ("pacs.008.001." ++ v)

/-- The supported pacs.008 version of a tree. -/
def identifyPacs008 (root : Element) : Except ServiceError SupportedVersion :=
  match root.tag with
  | .special => .error (.unsupportedMessageType "Message root is not a namespaced XML element")
  | .name ns localName =>
    let ns := ns.getD ""
    if localName ≠ "Document" then
      .error (.unsupportedMessageType "Not a pacs.008 message (unexpected root element)")
    else if ns = pacs008Version.namespace_ then .ok pacs008Version
    else if ns ∈ knownPacs008Namespaces then
      .error (.unsupportedMessageType ("Unsupported pacs.008 version: " ++ ns))
    else .error (.unsupportedMessageType "Unsupported message namespace")

/-! ## Registration -/

/-- The adapters of the registry. -/
inductive Adapter where
  | pacs008 | pain001 | pacs002 | pacs009 | camt053 | camt054
  deriving DecidableEq, Repr

/-- What an adapter makes of a tree, with the clock at that time. -/
def Adapter.map (u : Unicode) (clock : Instant) (root : Element) (version : SupportedVersion) :
    Adapter → Except ServiceError Artifact
  | pacs008 => (mapPacs008ToCanonical u root version clock).map .payment
  | pain001 => (mapPain001ToCanonical u root version clock).map .payment
  | pacs002 => (mapPacs002ToStatus u root version).map .status
  | pacs009 => (mapPacs009ToCanonical u root version clock).map .payment
  | camt053 => (mapCamt053ToAccountReport u root version).map .account
  | camt054 => (mapCamt054ToAccountReport u root version).map .account

/-- A registered message: its definition and its adapter. -/
structure RegisteredMessage where
  messageFamily : String
  version : SupportedVersion
  adapter : Adapter
  deriving DecidableEq, Repr

/-- The version of every adapter. -/
def adapterVersion : String := "0.1.0"

/-- The registered messages, in their order. -/
def registry : List RegisteredMessage :=
  [⟨"pacs", pacs008Version, .pacs008⟩, ⟨"pain", pain001Version, .pain001⟩,
    ⟨"pacs", pacs002Version, .pacs002⟩, ⟨"pacs", pacs009Version, .pacs009⟩,
    ⟨"camt", camt053Version, .camt053⟩, ⟨"camt", camt054Version, .camt054⟩]

/-- The registered message of a namespace. -/
def resolveNamespace (ns : String) : Except ServiceError RegisteredMessage :=
  match registry.find? (·.version.namespace_ = ns) with
  | some message => .ok message
  | none => .error (.unsupportedMessage ns)

/-- Resolve a document by the namespace of its root element. -/
def resolveRoot (root : Element) : Except ServiceError RegisteredMessage :=
  match extractNamespace root with
  | some ns => resolveNamespace ns
  | none => .error (.unsupportedMessage "message has no namespace")

end PaymentOps.Iso
