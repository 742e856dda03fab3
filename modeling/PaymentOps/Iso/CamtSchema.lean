import PaymentOps.Iso.Camt
import PaymentOps.Lib.Schema

/-!
# The schemas of camt.053 and camt.054

The bundled subset schemas, type by type under the names that they have there.  The two differ in
the element around the entries, and a statement has a period and balances besides.  The dates of
XML Schema are a parameter.

* `report_of_accepts`, `entry_of_report`, `amount_of_entry`: what is inside an accepted tree;
* `mapAmount_of_accepted`: an accepted amount is mapped.
-/

namespace PaymentOps.Iso

open Text Xml Xsd

/-- The built-in types for dates. -/
structure DateTypes where
  date : SimpleType
  dateTime : SimpleType

namespace CamtSchema

/-- An element with a text. -/
def textElement (name : String) (type : SimpleType) : Particle where
  name := name
  type := simpleContent type []

/-- An element of a complex type. -/
def element (name : String) (type : ComplexType) : Particle where
  name := name
  type := type

@[simp] theorem name_textElement (name : String) (type : SimpleType) :
    (textElement name type).name = name := rfl

@[simp] theorem name_element (name : String) (type : ComplexType) :
    (element name type).name = name := rfl

/-! ## Simple types -/

/-- Whether an entry is a credit or a debit. -/
def creditDebitCode : SimpleType := enumeration ["CRDT", "DBIT"]
/-- The codes of the kinds of balances. -/
def balanceType12Code : SimpleType := enumeration ["OPBD", "CLBD", "ITBD", "AVLB", "FWAV"]
/-- Texts of at most 35 characters. -/
def max35Text : SimpleType := maxLength 35
/-- Texts of at most 34 characters. -/
def max34Text : SimpleType := maxLength 34
/-- Texts of at most 36 characters. -/
def max36Text : SimpleType := maxLength 36
/-- Texts of at most 140 characters. -/
def max140Text : SimpleType := maxLength 140
/-- Texts of at most 70 characters. -/
def max70Text : SimpleType := maxLength 70
/-- Texts of at most 16 characters. -/
def max16Text : SimpleType := maxLength 16
/-- Texts of at most 4 characters. -/
def max4Text : SimpleType := maxLength 4
/-- An IBAN, of which only the length is checked. -/
def iban2007Identifier : SimpleType := maxLength 34
/-- A BIC, of which only the length is checked. -/
def bicfiDec2014Identifier : SimpleType := maxLength 11
/-- A currency is three capitals. -/
def activeOrHistoricCurrencyCode : SimpleType := capitals 3
/-- A country is two capitals. -/
def countryCode : SimpleType := capitals 2

/-! ## Complex types -/

/-- An amount with its currency. -/
def activeOrHistoricCurrencyAndAmount : ComplexType :=
  simpleContent decimal [("Ccy", activeOrHistoricCurrencyCode)]

section

variable (dates : DateTypes) (ns : String)

/-- The header of a message. -/
def groupHeader81 : ComplexType := sequence ns [
  textElement "MsgId" max35Text,
  textElement "CreDtTm" dates.dateTime]

/-- The period of a report. -/
def dateTimePeriod1 : ComplexType := sequence ns [
  (textElement "FrDtTm" dates.dateTime).optional,
  (textElement "ToDtTm" dates.dateTime).optional]

/-- The kind of a balance. -/
def balanceType5Choice : ComplexType := sequence ns [
  (textElement "Cd" balanceType12Code).optional]

/-- The kind of a balance, in its element. -/
def balanceType12 : ComplexType := sequence ns [
  (element "CdOrPrtry" (balanceType5Choice ns)).optional]

/-- A balance with its amount and date. -/
def cashBalance8 : ComplexType := sequence ns [
  element "Tp" (balanceType12 ns),
  element "Amt" activeOrHistoricCurrencyAndAmount,
  textElement "CdtDbtInd" creditDebitCode]

/-- An account that has no IBAN. -/
def genericAccountIdentification1 : ComplexType := sequence ns [
  textElement "Id" max34Text]

/-- An account, by its IBAN or otherwise. -/
def accountIdentification4Choice : ComplexType := sequence ns [
  (textElement "IBAN" iban2007Identifier).optional,
  (element "Othr" (genericAccountIdentification1 ns)).optional]

/-- An institution, by its BIC or its name. -/
def financialInstitutionIdentification18 : ComplexType := sequence ns [
  (textElement "BICFI" bicfiDec2014Identifier).optional,
  (textElement "Nm" max140Text).optional]

/-- An agent. -/
def branchAndFinancialInstitutionIdentification6 : ComplexType := sequence ns [
  element "FinInstnId" (financialInstitutionIdentification18 ns)]

/-- The account that a report is about. -/
def cashAccount40 : ComplexType := sequence ns [
  (element "Id" (accountIdentification4Choice ns)).optional,
  (textElement "Ccy" activeOrHistoricCurrencyCode).optional,
  (textElement "Nm" max70Text).optional,
  (element "Svcr" (branchAndFinancialInstitutionIdentification6 ns)).optional]

/-- The status of an entry. -/
def entryStatus1Choice : ComplexType := sequence ns [
  (textElement "Cd" max4Text).optional]

/-- A date, or a date with a time. -/
def dateAndDateTime2Choice : ComplexType := sequence ns [
  (textElement "Dt" dates.date).optional,
  (textElement "DtTm" dates.dateTime).optional]

/-- The family of a bank transaction code. -/
def bankTransactionCodeStructure6 : ComplexType := sequence ns [
  (textElement "Cd" max4Text).optional,
  (textElement "SubFmlyCd" max4Text).optional]

/-- The domain of a bank transaction code. -/
def bankTransactionCodeStructure5 : ComplexType := sequence ns [
  (textElement "Cd" max4Text).optional,
  (element "Fmly" (bankTransactionCodeStructure6 ns)).optional]

/-- A code of the bank's own. -/
def proprietaryBankTransactionCodeStructure1 : ComplexType := sequence ns [
  (textElement "Cd" max35Text).optional]

/-- A bank transaction code. -/
def bankTransactionCodeStructure4 : ComplexType := sequence ns [
  (element "Domn" (bankTransactionCodeStructure5 ns)).optional,
  (element "Prtry" (proprietaryBankTransactionCodeStructure1 ns)).optional]

/-- The references of a transaction. -/
def transactionReferences : ComplexType := sequence ns [
  (textElement "InstrId" max35Text).optional,
  (textElement "EndToEndId" max35Text).optional,
  (textElement "TxId" max35Text).optional,
  (textElement "UETR" max36Text).optional,
  (textElement "AcctSvcrRef" max35Text).optional]

/-- A postal address. -/
def postalAddress24 : ComplexType := sequence ns [
  (textElement "StrtNm" max70Text).optional,
  (textElement "BldgNb" max16Text).optional,
  (textElement "PstCd" max16Text).optional,
  (textElement "TwnNm" max35Text).optional,
  (textElement "Ctry" countryCode).optional]

/-- A party with its address. -/
def partyIdentification135 : ComplexType := sequence ns [
  (textElement "Nm" max140Text).optional,
  (element "PstlAdr" (postalAddress24 ns)).optional]

/-- The parties of a transaction and their accounts. -/
def transactionParties : ComplexType := sequence ns [
  (element "Dbtr" (partyIdentification135 ns)).optional,
  (element "Cdtr" (partyIdentification135 ns)).optional]

/-- The agents of a transaction. -/
def transactionAgents : ComplexType := sequence ns [
  (element "DbtrAgt" (branchAndFinancialInstitutionIdentification6 ns)).optional,
  (element "CdtrAgt" (branchAndFinancialInstitutionIdentification6 ns)).optional]

/-- What a transaction is for. -/
def remittanceInformation : ComplexType := sequence ns [
  (textElement "Ustrd" max140Text).optional.unbounded]

/-- One transaction of an entry. -/
def entryTransactionDetail : ComplexType := sequence ns [
  (element "Refs" (transactionReferences ns)).optional,
  (element "Amt" activeOrHistoricCurrencyAndAmount).optional,
  (element "RltdPties" (transactionParties ns)).optional,
  (element "RltdAgts" (transactionAgents ns)).optional,
  (element "RmtInf" (remittanceInformation ns)).optional]

/-- The transactions of an entry. -/
def entryDetails : ComplexType := sequence ns [
  (element "TxDtls" (entryTransactionDetail ns)).optional.unbounded]

/-- An entry, with any number of details. -/
def reportEntry13 : ComplexType := sequence ns [
  (textElement "NtryRef" max35Text).optional,
  element "Amt" activeOrHistoricCurrencyAndAmount,
  textElement "CdtDbtInd" creditDebitCode,
  (element "Sts" (entryStatus1Choice ns)).optional,
  (element "BookgDt" (dateAndDateTime2Choice dates ns)).optional,
  (element "ValDt" (dateAndDateTime2Choice dates ns)).optional,
  (textElement "AcctSvcrRef" max35Text).optional,
  (element "BkTxCd" (bankTransactionCodeStructure4 ns)).optional,
  (element "NtryDtls" (entryDetails ns)).optional.unbounded]

/-- A statement. -/
def statement : ComplexType := sequence ns [
  textElement "Id" max35Text,
  (textElement "ElctrncSeqNb" decimal).optional,
  (textElement "CreDtTm" dates.dateTime).optional,
  (element "Acct" (cashAccount40 ns)).optional,
  (element "FrToDt" (dateTimePeriod1 dates ns)).optional,
  (element "Bal" (cashBalance8 ns)).optional.unbounded,
  (element "Ntry" (reportEntry13 dates ns)).unbounded]

/-- A notification. -/
def notification : ComplexType := sequence ns [
  textElement "Id" max35Text,
  (textElement "ElctrncSeqNb" decimal).optional,
  (textElement "CreDtTm" dates.dateTime).optional,
  (element "Acct" (cashAccount40 ns)).optional,
  (element "Ntry" (reportEntry13 dates ns)).unbounded]

/-- The message of a camt.053. -/
def bkToCstmrStmt : ComplexType := sequence ns [
  element "GrpHdr" (groupHeader81 dates ns),
  (element "Stmt" (statement dates ns)).unbounded]

/-- The message of a camt.054. -/
def bkToCstmrDbtCdtNtfctn : ComplexType := sequence ns [
  element "GrpHdr" (groupHeader81 dates ns),
  (element "Ntfctn" (notification dates ns)).unbounded]

end

/-! ## Documents -/

/-- The namespace of each kind of report. -/
def targetNamespace : AccountReportType → String
  | .statement => "urn:iso:std:iso:20022:tech:xsd:camt.053.001.14"
  | .notification => "urn:iso:std:iso:20022:tech:xsd:camt.054.001.14"

/-- The element that holds the reports. -/
def messageName : AccountReportType → String
  | .statement => "BkToCstmrStmt"
  | .notification => "BkToCstmrDbtCdtNtfctn"

/-- The element of each kind of report. -/
def reportName : AccountReportType → String
  | .statement => "Stmt"
  | .notification => "Ntfctn"

section

variable (dates : DateTypes)

/-- The type of each kind of report. -/
def report (type : AccountReportType) : ComplexType :=
  match type with
  | .statement => statement dates (targetNamespace .statement)
  | .notification => notification dates (targetNamespace .notification)

/-- The type of its message. -/
def message (type : AccountReportType) : ComplexType :=
  match type with
  | .statement => bkToCstmrStmt dates (targetNamespace .statement)
  | .notification => bkToCstmrDbtCdtNtfctn dates (targetNamespace .notification)

/-- The type of its document. -/
def document (type : AccountReportType) : ComplexType :=
  sequence (targetNamespace type) [element (messageName type) (message dates type)]

/-- The schema accepts the tree. -/
def accepts (type : AccountReportType) (root : Element) : Bool :=
  Xsd.accepts (targetNamespace type) (element "Document" (document dates type)) root

end

/-! ## What is accepted -/

section

variable {dates : DateTypes} {ns : String} {type : AccountReportType} {root e c : Element}

/-- The reports of a message. -/
def reports (type : AccountReportType) (root : Element) : List Element :=
  children (child (some root) (messageName type)) (reportName type)

theorem report_of_accepts (h : accepts dates type root) (hc : c ∈ reports type root) :
    report dates type c := by
  simp only [accepts, Xsd.accepts, Bool.and_eq_true] at h
  have hdocument : sequence (targetNamespace type) [element (messageName type)
      (message dates type)] root := h.2
  unfold reports at hc
  cases hm : child (some root) (messageName type) with
  | none =>
    rw [hm] at hc
    cases hc
  | some m =>
    rw [hm] at hc
    have hmem : m ∈ root.children (messageName type) := by
      rw [child, Option.bind_some, ← Element.head?_children] at hm
      exact List.mem_of_mem_head? hm
    have hmessage : message dates type m :=
      type_of_child hdocument List.mem_cons_self hmem (by cases type <;> simp [messageName])
        (by simp)
    cases type with
    | statement =>
      exact type_of_child hmessage (List.mem_cons_of_mem _ List.mem_cons_self) hc (by simp)
        (by simp)
    | notification =>
      exact type_of_child hmessage (List.mem_cons_of_mem _ List.mem_cons_self) hc (by simp)
        (by simp)

theorem entry_of_report (h : report dates type e) (hc : c ∈ e.children "Ntry") :
    reportEntry13 dates (targetNamespace type) c := by
  cases type with
  | statement =>
    have hp : (element "Ntry" (reportEntry13 dates
        (targetNamespace .statement))).unbounded.type c :=
      type_of_child h (by simp) hc (by simp) (by simp)
    exact hp
  | notification =>
    have hp : (element "Ntry" (reportEntry13 dates
        (targetNamespace .notification))).unbounded.type c :=
      type_of_child h (by simp) hc (by simp) (by simp)
    exact hp

theorem balance_of_statement (h : statement dates ns e) (hc : c ∈ e.children "Bal") :
    cashBalance8 ns c := by
  have hp : (element "Bal" (cashBalance8 ns)).optional.unbounded.type c :=
    type_of_child h (by simp) hc (by simp) (by simp)
  exact hp

/-- The amount of an entry is an amount of the schema. -/
theorem amount_of_entry (h : reportEntry13 dates ns e) (hc : child (some e) "Amt" = some c) :
    activeOrHistoricCurrencyAndAmount c := by
  rw [child, Option.bind_some, ← Element.head?_children] at hc
  have hp : (element "Amt" activeOrHistoricCurrencyAndAmount).type c :=
    type_of_child h (by simp) (List.mem_of_mem_head? hc) (by simp) (by simp)
  exact hp

theorem amount_of_balance (h : cashBalance8 ns e) (hc : child (some e) "Amt" = some c) :
    activeOrHistoricCurrencyAndAmount c := by
  rw [child, Option.bind_some, ← Element.head?_children] at hc
  have hp : (element "Amt" activeOrHistoricCurrencyAndAmount).type c :=
    type_of_child h (by simp) (List.mem_of_mem_head? hc) (by simp) (by simp)
  exact hp

/-- A currency of three letters is one of an amount. -/
theorem monetaryAmount_of_currency {currency : String} (hget : e.get "Ccy" = some currency)
    (hcode : activeOrHistoricCurrencyCode currency) (minor : ℤ) :
    monetaryAmount minor (currencyOf e) = .ok ⟨minor, currency⟩ := by
  have hlength : currency.length = 3 := by
    simp only [activeOrHistoricCurrencyCode, capitals, Bool.and_eq_true, decide_eq_true_eq] at hcode
    exact hcode.1
  have hcurrency : currencyOf e = currency := by
    have hne : currency ≠ "" := by
      rintro rfl
      exact absurd hlength (by decide)
    rw [currencyOf, hget, Text.or, if_pos (truthy_some.mpr hne)]
    rfl
  rw [hcurrency, monetaryAmount, if_pos hlength]

/-- An amount in a currency of three letters is mapped. -/
theorem mapAmount_of_currency (u : Unicode) {currency : String} (hget : e.get "Ccy" = some currency)
    (hcode : activeOrHistoricCurrencyCode currency) :
    mapAmount u (some e) =
      .ok ((text (some e)).map fun value => ⟨decimalMinor u value, currency⟩) := by
  unfold mapAmount
  cases text (some e) with
  | none => rfl
  | some value =>
    simp only [monetaryAmount_of_currency hget hcode]
    rfl

theorem mapAmount_of_accepted (u : Unicode) (h : activeOrHistoricCurrencyAndAmount e) :
    ∃ amount, mapAmount u (some e) = .ok amount := by
  obtain ⟨currency, hget, hcode⟩ := exists_attribute h (by decide)
  exact ⟨_, mapAmount_of_currency u hget hcode⟩

end

end CamtSchema

end PaymentOps.Iso
