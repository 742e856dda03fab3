import PaymentOps.Iso.Common

/-!
# Adapters of payment messages

pacs.008, pain.001 and pacs.009 to the canonical `PaymentMessage`.  The time of receipt is the
clock when the message is built.  The paths that the adapters record differ: pacs.008 numbers its
transactions, pain.001 and pacs.009 do not.
-/

namespace PaymentOps.Iso

open Text Xml

/-- The fields of a message that its adapter takes from the version and the group header. -/
def paymentMessage (version : SupportedVersion) (format : SourceFormat) (receivedAt : Instant)
    (grp : Option Element) (transactions : List PaymentTransaction)
    (metadata : List (String × String)) : PaymentMessage where
  messageType := some version.identifier
  messageId := childText grp "MsgId"
  creationDatetime := parseDatetime (childText grp "CreDtTm")
  transactions := transactions
  sourceFormat := format
  receivedAt := receivedAt
  validationStatus := .pending
  sourceMetadata := ("message_name", version.messageName) :: metadata

/-! ## pacs.008 -/

namespace Pacs008

/-- `int(round(float(text) * 100))`: a text that is no number counts as zero, an infinity
raises. -/
def floatMinor (u : Unicode) (value : String) : Except ServiceError ℤ :=
  match Decimal.ofFloatText u value with
  | none | some .nan => .ok 0
  | some .infinite => .error (.overflowError "cannot convert float infinity to integer")
  | some (.finite q) =>
    match (Decimal.binary64 q).bind fun x => Decimal.binary64 (x * 100) with
    | none => .error (.overflowError "cannot convert float infinity to integer")
    | some x => .ok (Decimal.roundHalfEven x)

/-- `_map_amount` of a pacs.008, which raises past the binary64 numbers. -/
def mapAmount (u : Unicode) (el : Option Element) : Except ServiceError (Option MonetaryAmount) :=
  match el with
  | none => .ok none
  | some e => do
    let minor ← floatMinor u (strip ((or e.text (some "0")).getD "0"))
    let amount ← monetaryAmount minor (currencyOf e)
    pure (some amount)

/-- pacs.008 keeps the unstructured remittance only. -/
def mapRemittance (el : Option Element) (path : String) : Option RemittanceInformation :=
  el.map fun e =>
    { unstructured := (children (some e) "Ustrd").filterMap fun x => text (some x)
      sourcePath := some path }

/-- The path of the transaction with the given index. -/
def transactionPath (index : ℕ) : String :=
  "/Document/FIToFICstmrCdtTrf/CdtTrfTxInf[" ++ toString index ++ "]"

/-- A transaction of a pacs.008, with the paths of its addresses. -/
def mapTransaction (u : Unicode) (tx : Element) (index : ℕ) :
    Except ServiceError PaymentTransaction := do
  let path := transactionPath index
  let pmt := child (some tx) "PmtId"
  let amount ← mapAmount u (child (child (some tx) "Amt") "InstdAmt")
  pure {
    instructionId := childText pmt "InstrId"
    endToEndId := childText pmt "EndToEndId"
    transactionId := childText pmt "TxId"
    amount := amount
    debtor := mapParty (child (some tx) "Dbtr") (path ++ "/Dbtr")
    creditor := mapParty (child (some tx) "Cdtr") (path ++ "/Cdtr")
    debtorAccount := mapAccount (child (some tx) "DbtrAcct") (path ++ "/DbtrAcct")
    creditorAccount := mapAccount (child (some tx) "CdtrAcct") (path ++ "/CdtrAcct")
    debtorAgent := mapAgent (child (some tx) "DbtrAgt") (path ++ "/DbtrAgt")
    creditorAgent := mapAgent (child (some tx) "CdtrAgt") (path ++ "/CdtrAgt")
    remittance := mapRemittance (child (some tx) "RmtInf") (path ++ "/RmtInf")
    sourcePath := some path }

end Pacs008

/-- The transactions of a pacs.008, each mapped with its index. -/
def mapTransactions (u : Unicode) (root : Element) :
    Except ServiceError (List PaymentTransaction) :=
  ((children (child (some root) "FIToFICstmrCdtTrf") "CdtTrfTxInf").zipIdx).mapM fun p =>
    Pacs008.mapTransaction u p.1 p.2

/-- `map_pacs008_to_canonical`. -/
def mapPacs008ToCanonical (u : Unicode) (root : Element) (version : SupportedVersion)
    (receivedAt : Instant) : Except ServiceError PaymentMessage := do
  let grp := child (child (some root) "FIToFICstmrCdtTrf") "GrpHdr"
  let transactions ← mapTransactions u root
  pure (paymentMessage version .xmlPacs008 receivedAt grp transactions [])

/-! ## pain.001 -/

namespace Pain001

/-- The path of the payments of a pain.001. -/
def pmtInfPath : String := "/CstmrCdtTrfInitn/PmtInf"

/-- A transaction with the debtor details of its `PmtInf` block. -/
def mapTransaction (u : Unicode) (pmtInf tx : Element) :
    Except ServiceError PaymentTransaction := do
  let path := pmtInfPath ++ "/CdtTrfTxInf"
  let pmtId := child (some tx) "PmtId"
  let reqdExctn :=
    or (childText (some pmtInf) "ReqdExctnDt") (childText (some pmtInf) "ReqdExctnDtTm")
  let amount ← mapAmount u (child (child (some tx) "Amt") "InstdAmt")
  pure {
    instructionId := childText pmtId "InstrId"
    endToEndId := childText pmtId "EndToEndId"
    transactionId := childText pmtId "TxId"
    amount := amount
    debtor := mapParty (child (some pmtInf) "Dbtr") (pmtInfPath ++ "/Dbtr")
    creditor := mapParty (child (some tx) "Cdtr") (path ++ "/Cdtr")
    debtorAccount := mapAccount (child (some pmtInf) "DbtrAcct") (pmtInfPath ++ "/DbtrAcct")
    creditorAccount := mapAccount (child (some tx) "CdtrAcct") (path ++ "/CdtrAcct")
    debtorAgent := mapAgent (child (some pmtInf) "DbtrAgt") (pmtInfPath ++ "/DbtrAgt")
    creditorAgent := mapAgent (child (some tx) "CdtrAgt") (path ++ "/CdtrAgt")
    remittance := mapRemittance (child (some tx) "RmtInf") (path ++ "/RmtInf")
    requestedExecutionDate := parseDatetime reqdExctn
    sourcePath := some path }

end Pain001

/-- `map_pain001_to_canonical`. -/
def mapPain001ToCanonical (u : Unicode) (root : Element) (version : SupportedVersion)
    (receivedAt : Instant) : Except ServiceError PaymentMessage := do
  let msgRoot := child (some root) version.rootElement
  let blocks := (children msgRoot "PmtInf").flatMap fun pmtInf =>
    (children (some pmtInf) "CdtTrfTxInf").map (pmtInf, ·)
  let transactions ← blocks.mapM fun b => Pain001.mapTransaction u b.1 b.2
  pure (paymentMessage version .xmlPain001 receivedAt (child msgRoot "GrpHdr") transactions [])

/-! ## pacs.009 -/

namespace Pacs009

/-- A debtor or creditor that is a financial institution; its address is not mapped. -/
def fiParty (el : Option Element) (path : String) : Option Party :=
  el.map fun e =>
    let fi := child (some e) "FinInstnId"
    { name := childText fi "Nm"
      financialInstitution := some {
        bic := childText fi "BICFI"
        name := childText fi "Nm"
        sourcePath := some path }
      sourcePath := some path }

/-- The path of the transactions of a pacs.009. -/
def transactionPath : String := "/FICdtTrf/CdtTrfTxInf"

/-- A transaction of a pacs.009. -/
def mapTransaction (u : Unicode) (tx : Element) : Except ServiceError PaymentTransaction := do
  let path := transactionPath
  let pmtId := child (some tx) "PmtId"
  let amount ← mapAmount u (child (child (some tx) "Amt") "InstdAmt")
  pure {
    instructionId := childText pmtId "InstrId"
    endToEndId := childText pmtId "EndToEndId"
    transactionId := childText pmtId "TxId"
    amount := amount
    debtor := fiParty (child (some tx) "Dbtr") (path ++ "/Dbtr")
    creditor := fiParty (child (some tx) "Cdtr") (path ++ "/Cdtr")
    debtorAgent := mapAgent (child (some tx) "DbtrAgt") (path ++ "/DbtrAgt")
    creditorAgent := mapAgent (child (some tx) "CdtrAgt") (path ++ "/CdtrAgt")
    debtorAccount := mapAccount (child (some tx) "DbtrAcct") (path ++ "/DbtrAcct")
    creditorAccount := mapAccount (child (some tx) "CdtrAcct") (path ++ "/CdtrAcct")
    sourcePath := some path }

/-- An element without child nodes counts as false. -/
def variant (tx : Element) : String :=
  if (child (some tx) "UndrlygCstmrCdtTrf").any (! ·.nodes.isEmpty) then "COV" else "CORE"

end Pacs009

/-- `map_pacs009_to_canonical`. -/
def mapPacs009ToCanonical (u : Unicode) (root : Element) (version : SupportedVersion)
    (receivedAt : Instant) : Except ServiceError PaymentMessage := do
  let msgRoot := child (some root) version.rootElement
  let grp := child msgRoot "GrpHdr"
  let sttlmMtd := childText (child grp "SttlmInf") "SttlmMtd"
  let txs := children msgRoot "CdtTrfTxInf"
  let transactions ← txs.mapM (Pacs009.mapTransaction u)
  pure (paymentMessage version .xmlPacs009 receivedAt grp transactions
    [("settlement_method", sttlmMtd.getD ""), ("variants", join "," (txs.map Pacs009.variant))])

end PaymentOps.Iso
