import PaymentOps.Iso.Common

/-!
# camt.053 statements and camt.054 notifications

Both carry the same `Ntry` structure; a statement also has balances and a period.
-/

namespace PaymentOps.Iso

open Text Xml

namespace Camt

/-- `_map_account`. -/
def mapAccount (el : Option Element) : Option AccountReference :=
  el.map fun e =>
    let id := child (some e) "Id"
    { iban := childText id "IBAN"
      otherIdentification := childText (child id "Othr") "Id"
      currency := childText (some e) "Ccy"
      name := childText (some e) "Nm"
      servicerBic := childText (child (child (some e) "Svcr") "FinInstnId") "BICFI" }

/-- `CreditDebitIndicator(cdi) if cdi in ("CRDT", "DBIT")` -/
def creditDebit (cdi : Option String) : Option CreditDebitIndicator :=
  if cdi = some "CRDT" then some .crdt else if cdi = some "DBIT" then some .dbit else none

/-- A balance of an unknown type, or without an amount, is skipped. -/
def mapBalance (u : Unicode) (el : Element) : Except ServiceError (Option AccountBalance) :=
  let tp := child (some el) "Tp"
  let code := or (childText (child tp "CdOrPrtry") "Cd") (childText tp "Cd")
  match code.bind BalanceType.ofCode with
  | none => .ok none
  | some type => do
    let amount ← mapAmount u (child (some el) "Amt")
    pure <| amount.map fun amount =>
      { type := type, amount := amount
        creditDebit := (creditDebit (childText (some el) "CdtDbtInd")).getD .crdt }

/-- `_bank_tx_code`, none when no part of it is there. -/
def bankTxCode (el : Option Element) : Option BankTransactionCode :=
  el.map fun e =>
    let domn := child (some e) "Domn"
    let fmly := child domn "Fmly"
    { code := childText domn "Cd"
      family := childText fmly "Cd"
      subFamily := childText fmly "SubFmlyCd"
      proprietary := childText (child (some e) "Prtry") "Cd" }

/-- The unstructured remittance of a transaction. -/
def remittance (tx : Option Element) : Option String :=
  text (children (child tx "RmtInf") "Ustrd").head?

/-- The BICs of the agents of a transaction. -/
def relatedAgents (tx : Option Element) : List String :=
  ["DbtrAgt", "CdtrAgt"].filterMap fun name =>
    childText (child (child (child tx "RltdAgts") name) "FinInstnId") "BICFI"

/-- The date of an entry: `Dt`, or the day of `DtTm`. -/
def entryDate (el : Option Element) : Option Date :=
  (or (childText el "Dt") (childText el "DtTm")).bind parseDay

/-- Map a camt `Ntry` element. -/
def mapEntry (u : Unicode) (el : Element) (path : String) : Except ServiceError AccountEntry := do
  let amountEl := child (some el) "Amt"
  let amount ← mapAmount u amountEl
  let tx := child (child (some el) "NtryDtls") "TxDtls"
  let refs := child tx "Refs"
  let statusEl := child (some el) "Sts"
  let parties := child tx "RltdPties"
  pure {
    entryReference := childText (some el) "NtryRef"
    accountServicerReference := childText (some el) "AcctSvcrRef"
    transactionId := childText refs "TxId"
    instructionId := childText refs "InstrId"
    endToEndId := childText refs "EndToEndId"
    uetr := childText refs "UETR"
    amount := amount
    currency := or (amount.map (·.currency)) (amountEl.bind (·.get "Ccy"))
    creditDebit := creditDebit (childText (some el) "CdtDbtInd")
    bookingDate := entryDate (child (some el) "BookgDt")
    valueDate := entryDate (child (some el) "ValDt")
    status := or (text statusEl) (childText statusEl "Cd")
    bankTransactionCode := bankTxCode (child (some el) "BkTxCd")
    remittanceReference := remittance tx
    debtor := mapParty (child parties "Dbtr") (path ++ "/NtryDtls/TxDtls/RltdPties/Dbtr")
    creditor := mapParty (child parties "Cdtr") (path ++ "/NtryDtls/TxDtls/RltdPties/Cdtr")
    relatedAgents := relatedAgents tx
    originalMessageReference := childText refs "AcctSvcrRef" }

/-- A date of the period of a statement. -/
def periodDate (el : Option Element) : Option Date :=
  (text el).bind parseDay

/-- The bundle of the reports of a message. -/
def bundle (version : SupportedVersion) (type : AccountReportType) (grp : Option Element)
    (reports : List AccountReport) : AccountReportBundle where
  messageFamily := "camt"
  messageDefinition := version.messageName
  messageVersion := version.identifier
  namespace_ := version.namespace_
  messageId := childText grp "MsgId"
  creationDatetime := parseDatetime (childText grp "CreDtTm")
  reportType := type
  reports := reports

/-- What every report of a message takes from its version and group header. -/
def report (version : SupportedVersion) (type : AccountReportType) (grp : Option Element) :
    AccountReport where
  messageFamily := "camt"
  messageDefinition := some version.messageName
  messageVersion := some version.identifier
  namespace_ := version.namespace_
  messageId := childText grp "MsgId"
  creationDatetime := parseDatetime (childText grp "CreDtTm")
  reportType := type

/-- A statement of a camt.053. -/
def mapStatement (u : Unicode) (version : SupportedVersion) (grp : Option Element)
    (stmt : Element) : Except ServiceError AccountReport := do
  let balances ← (children (some stmt) "Bal").mapM (mapBalance u)
  let entries ← (children (some stmt) "Ntry").mapM (mapEntry u · "/BkToCstmrStmt/Stmt/Ntry")
  let period := child (some stmt) "FrToDt"
  pure { report version .statement grp with
    account := mapAccount (child (some stmt) "Acct")
    statementId := childText (some stmt) "Id"
    periodStart := (periodDate (child period "FrDtTm")).orElse fun _ =>
      periodDate (child period "FrDt")
    periodEnd := (periodDate (child period "ToDtTm")).orElse fun _ =>
      periodDate (child period "ToDt")
    balances := balances.reduceOption
    entries := entries }

/-- A notification of a camt.054. -/
def mapNotification (u : Unicode) (version : SupportedVersion) (grp : Option Element)
    (ntfctn : Element) : Except ServiceError AccountReport := do
  let entries ← (children (some ntfctn) "Ntry").mapM
    (mapEntry u · "/BkToCstmrDbtCdtNtfctn/Ntfctn/Ntry")
  pure { report version .notification grp with
    account := mapAccount (child (some ntfctn) "Acct")
    notificationId := childText (some ntfctn) "Id"
    entries := entries }

end Camt

/-- `map_camt053_to_account_report`. -/
def mapCamt053ToAccountReport (u : Unicode) (root : Element) (version : SupportedVersion) :
    Except ServiceError AccountReportBundle := do
  let msgRoot := child (some root) "BkToCstmrStmt"
  let grp := child msgRoot "GrpHdr"
  let reports ← (children msgRoot "Stmt").mapM (Camt.mapStatement u version grp)
  pure (Camt.bundle version .statement grp reports)

/-- `map_camt054_to_account_report`. -/
def mapCamt054ToAccountReport (u : Unicode) (root : Element) (version : SupportedVersion) :
    Except ServiceError AccountReportBundle := do
  let msgRoot := child (some root) "BkToCstmrDbtCdtNtfctn"
  let grp := child msgRoot "GrpHdr"
  let reports ← (children msgRoot "Ntfctn").mapM (Camt.mapNotification u version grp)
  pure (Camt.bundle version .notification grp reports)

end PaymentOps.Iso
