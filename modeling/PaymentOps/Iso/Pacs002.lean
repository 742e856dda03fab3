import PaymentOps.Iso.Common

/-!
# pacs.002 status reports

A status report is not a payment: it carries the status of each original transaction, raw and
normalized, and the references to it.
-/

namespace PaymentOps.Iso

open Text Xml

/-- Controlled mapping of raw ISO status codes to the analytical statuses. -/
def normalizeStatus (raw : Option String) : PaymentStatus :=
  match raw with
  | none => .unknown
  | some raw =>
    if raw ∈ ["ACCP", "ACSP", "ACWC", "ACSC", "ACCC"] then .accepted
    else if raw = "RCVD" then .processing
    else if raw = "PDNG" then .pending
    else if raw = "PART" then .partiallyAccepted
    else if raw ∈ ["RJCT", "CANC"] then .rejected
    else .unknown

namespace Pacs002

/-- The reasons of a status. -/
def reasons (txEl : Element) : List StatusReason :=
  (children (some txEl) "StsRsnInf").map fun inf =>
    let rsn := child (some inf) "Rsn"
    { code := childText rsn "Cd"
      proprietaryCode := childText rsn "Prprtry"
      additionalInformation := childText (some inf) "AddtlInf"
      originator := childText (some inf) "Orgnl" }

/-- The original transaction that a status refers to. -/
def reference (u : Unicode) (orgnlTxRef : Option Element) :
    Except ServiceError (Option RelatedPaymentReference) :=
  match orgnlTxRef with
  | none => .ok none
  | some e => do
    let pmtId := child (some e) "PmtId"
    let amount ← mapAmount u (child (child (some e) "Amt") "InstdAmt")
    pure (some {
      instructionId := childText pmtId "InstrId"
      endToEndId := childText pmtId "EndToEndId"
      transactionId := childText pmtId "TxId"
      amount := amount })

/-- One `TxInfAndSts` block. -/
def mapStatus (u : Unicode) (txEl : Element) : Except ServiceError TransactionStatus := do
  let raw := childText (some txEl) "TxSts"
  let orgnlTxRef := child (some txEl) "OrgnlTxRef"
  let amount ← mapAmount u (child (child orgnlTxRef "Amt") "InstdAmt")
  let ref ← reference u orgnlTxRef
  pure {
    originalInstructionId := childText (some txEl) "OrgnlInstrId"
    originalEndToEndId := childText (some txEl) "OrgnlEndToEndId"
    originalTransactionId := childText (some txEl) "OrgnlTxId"
    rawIsoStatus := raw
    normalizedStatus := normalizeStatus raw
    reasons := reasons txEl
    amount := amount
    reference := ref }

end Pacs002

/-- `map_pacs002_to_status`. -/
def mapPacs002ToStatus (u : Unicode) (root : Element) (version : SupportedVersion) :
    Except ServiceError LifecycleStatusReport := do
  let msgRoot := child (some root) version.rootElement
  let grp := child msgRoot "GrpHdr"
  let orgnlGrp := child msgRoot "OrgnlGrpInfAndSts"
  let groupRaw := childText orgnlGrp "GrpSts"
  let statuses ← (children msgRoot "TxInfAndSts").mapM (Pacs002.mapStatus u)
  pure {
    messageFamily := (partition '.' version.identifier).1
    messageDefinition := version.messageName
    messageVersion := version.identifier
    namespace_ := version.namespace_
    messageId := childText grp "MsgId"
    creationDatetime := parseDatetime (childText grp "CreDtTm")
    originalMessageId := childText orgnlGrp "OrgnlMsgId"
    originalMessageDefinition := childText orgnlGrp "OrgnlMsgNmId"
    groupStatusRaw := groupRaw
    groupStatus := normalizeStatus groupRaw
    transactionStatuses := statuses }

end PaymentOps.Iso
