import PaymentOps.Iso.CamtSchema
import PaymentOps.Iso.Registry
import PaymentOps.Lib.SchemaUpdates

/-!
# The schemas of payments and status reports

The bundled subset schemas of pacs.008, pain.001, pacs.009 and pacs.002, type by type under the
names that they have there.  A type that several of them have is written once, for a namespace and
for the fields of its addresses.

* `validateMessage` is the bundled schema of each registered version.
-/

namespace PaymentOps.Iso

open Text Xml Xsd CamtSchema

/-! ## Shared types -/

namespace PaymentSchema

/-- Texts of at most 3 characters. -/
def max3Text : SimpleType := maxLength 3
/-- Texts of at most 5 characters. -/
def max5Text : SimpleType := maxLength 5
/-- Texts of at most 15 characters, whatever they are. -/
def max15NumericText : SimpleType := maxLength 15
/-- Texts of at most 105 characters. -/
def max105Text : SimpleType := maxLength 105

/-- The fields of an address of pacs.008 and pain.001. -/
def addressFields : List Particle := [
  (textElement "AdrTp" Xsd.string).optional,
  (textElement "Dept" max70Text).optional,
  (textElement "SubDept" max70Text).optional,
  (textElement "StrtNm" max70Text).optional,
  (textElement "BldgNb" max16Text).optional,
  (textElement "PstCd" max16Text).optional,
  (textElement "TwnNm" max35Text).optional,
  (textElement "Ctry" countryCode).optional,
  ((textElement "AdrLine" max70Text).optional).atMost 2]

section

variable (ns : String)

/-- A clearing system. -/
def clearingSystemIdentification3Choice : ComplexType := sequence ns [
  (textElement "Cd" max5Text).optional,
  (textElement "Prtry" max35Text).optional]

/-- How the message is settled. -/
def settlementInstruction7 : ComplexType := sequence ns [
  (textElement "SttlmMtd" max4Text).optional,
  (element "ClrSys" (clearingSystemIdentification3Choice ns)).optional]

/-- The identifiers of a payment. -/
def paymentIdentification6 : ComplexType := sequence ns [
  (textElement "InstrId" max35Text).optional,
  (textElement "EndToEndId" max35Text).optional,
  (textElement "TxId" max35Text).optional]

/-- The instructed amount. -/
def amountType4Choice : ComplexType := sequence ns [
  element "InstdAmt" activeOrHistoricCurrencyAndAmount]

/-- The identification of a party. -/
def partyIdentification135Choice : ComplexType := sequence ns [
  (textElement "PrvtId" Xsd.string).optional,
  (textElement "OrgId" Xsd.string).optional]

/-- An account that has no IBAN. -/
def genericAccountIdentification1 : ComplexType := sequence ns [
  textElement "Id" max34Text,
  (textElement "SchmeNm" Xsd.string).optional]

/-- An account, by its IBAN or otherwise. -/
def accountIdentification4Choice : ComplexType := sequence ns [
  (textElement "IBAN" iban2007Identifier).optional,
  (element "Othr" (genericAccountIdentification1 ns)).optional]

/-- An account of a payment. -/
def cashAccount38 : ComplexType := sequence ns [
  element "Id" (accountIdentification4Choice ns),
  (textElement "Nm" max140Text).optional]

/-- What a payment is for. -/
def remittanceInformation16 : ComplexType := sequence ns [
  (textElement "Ustrd" max140Text).optional.unbounded,
  (textElement "Strd" Xsd.string).optional]

variable (fields : List Particle)

/-- A postal address of these fields. -/
def postalAddress24 : ComplexType := sequence ns fields

/-- A party with its address. -/
def partyIdentification135 : ComplexType := sequence ns [
  (textElement "Nm" max140Text).optional,
  (element "PstlAdr" (postalAddress24 ns fields)).optional,
  (element "Id" (partyIdentification135Choice ns)).optional]

/-- An institution with its address. -/
def financialInstitutionIdentification18 : ComplexType := sequence ns [
  (textElement "BICFI" bicfiDec2014Identifier).optional,
  (textElement "ClrSysMmbId" Xsd.string).optional,
  (textElement "Nm" max140Text).optional,
  (element "PstlAdr" (postalAddress24 ns fields)).optional]

/-- An agent. -/
def branchAndFinancialInstitutionIdentification6 : ComplexType := sequence ns [
  element "FinInstnId" (financialInstitutionIdentification18 ns fields)]

end

end PaymentSchema

open PaymentSchema

/-! ## pacs.008 -/

namespace Pacs008Schema

/-- The target namespace. -/
def ns : String := namespaceOf "pacs.008.001.08"

/-- The header of a pacs.008. -/
def groupHeader93 (dates : DateTypes) : ComplexType := sequence ns [
  textElement "MsgId" max35Text,
  textElement "CreDtTm" dates.dateTime,
  (textElement "NbOfTxs" max15NumericText).optional,
  (element "SttlmInf" (settlementInstruction7 ns)).optional,
  (textElement "InstrForDbtrAgt" max140Text).optional]

/-- A postal address of a pacs.008. -/
def postalAddress24 : ComplexType := PaymentSchema.postalAddress24 ns addressFields

/-- A party of a pacs.008. -/
def partyIdentification135 : ComplexType :=
  PaymentSchema.partyIdentification135 ns addressFields

/-- An agent of a pacs.008. -/
def branchAndFinancialInstitutionIdentification6 : ComplexType :=
  PaymentSchema.branchAndFinancialInstitutionIdentification6 ns addressFields

/-- A transaction of a pacs.008. -/
def creditTransferTransaction39 : ComplexType := sequence ns [
  element "PmtId" (paymentIdentification6 ns),
  element "Amt" (amountType4Choice ns),
  (element "Dbtr" partyIdentification135).optional,
  (element "DbtrAcct" (cashAccount38 ns)).optional,
  (element "DbtrAgt" branchAndFinancialInstitutionIdentification6).optional,
  (element "CdtrAgt" branchAndFinancialInstitutionIdentification6).optional,
  (element "Cdtr" partyIdentification135).optional,
  (element "CdtrAcct" (cashAccount38 ns)).optional,
  (element "RmtInf" (remittanceInformation16 ns)).optional]

/-- The message of a pacs.008. -/
def fiToFICstmrCdtTrf (dates : DateTypes) : ComplexType := sequence ns [
  element "GrpHdr" (groupHeader93 dates),
  (element "CdtTrfTxInf" creditTransferTransaction39).unbounded]

/-- The document of a pacs.008. -/
def document (dates : DateTypes) : ComplexType := sequence ns [
  element "FIToFICstmrCdtTrf" (fiToFICstmrCdtTrf dates)]

/-- The schema accepts the tree. -/
def accepts (dates : DateTypes) (root : Element) : Bool :=
  Xsd.accepts ns (element "Document" (document dates)) root

end Pacs008Schema

/-! ## pain.001 -/

namespace Pain001Schema

/-- The namespace of pain.001. -/
def ns : String := namespaceOf "pain.001.001.13"

/-- The header of a pain.001. -/
def groupHeader85 (dates : DateTypes) : ComplexType := sequence ns [
  textElement "MsgId" max35Text,
  textElement "CreDtTm" dates.dateTime,
  (textElement "NbOfTxs" max15NumericText).optional,
  (element "InitgPty" (partyIdentification135 ns addressFields)).optional]

/-- A transaction of a pain.001. -/
def creditTransferTransaction42 (dates : DateTypes) : ComplexType := sequence ns [
  element "PmtId" (paymentIdentification6 ns),
  element "Amt" (amountType4Choice ns),
  (element "CdtrAgt" (branchAndFinancialInstitutionIdentification6 ns addressFields)).optional,
  (element "Cdtr" (partyIdentification135 ns addressFields)).optional,
  (element "CdtrAcct" (cashAccount38 ns)).optional,
  (element "RmtInf" (remittanceInformation16 ns)).optional,
  (textElement "ReqdExctnDt" dates.date).optional]

/-- The transactions of one debtor. -/
def paymentInstruction34 (dates : DateTypes) : ComplexType := sequence ns [
  (textElement "PmtInfId" max35Text).optional,
  textElement "PmtMtd" max3Text,
  (textElement "BtchBookg" Xsd.boolean).optional,
  (textElement "NbOfTxs" max15NumericText).optional,
  (textElement "ReqdExctnDt" dates.date).optional,
  (element "Dbtr" (partyIdentification135 ns addressFields)).optional,
  (element "DbtrAcct" (cashAccount38 ns)).optional,
  (element "DbtrAgt" (branchAndFinancialInstitutionIdentification6 ns addressFields)).optional,
  (element "CdtTrfTxInf" (creditTransferTransaction42 dates)).unbounded]

/-- The message of a pain.001. -/
def cstmrCdtTrfInitn (dates : DateTypes) : ComplexType := sequence ns [
  element "GrpHdr" (groupHeader85 dates),
  (element "PmtInf" (paymentInstruction34 dates)).unbounded]

/-- The document of a pain.001. -/
def document (dates : DateTypes) : ComplexType := sequence ns [
  element "CstmrCdtTrfInitn" (cstmrCdtTrfInitn dates)]

/-- The schema of pain.001. -/
def accepts (dates : DateTypes) (root : Element) : Bool :=
  Xsd.accepts ns (element "Document" (document dates)) root

end Pain001Schema

/-! ## pacs.009 -/

namespace Pacs009Schema

/-- The namespace of pacs.009. -/
def ns : String := namespaceOf "pacs.009.001.13"

/-- The addresses of institutions have no departments. -/
def addressFields : List Particle := [
  (textElement "AdrTp" Xsd.string).optional,
  (textElement "StrtNm" max70Text).optional,
  (textElement "BldgNb" max16Text).optional,
  (textElement "PstCd" max16Text).optional,
  (textElement "TwnNm" max35Text).optional,
  (textElement "Ctry" countryCode).optional,
  ((textElement "AdrLine" max70Text).optional).atMost 2]

/-- The header of a pacs.009. -/
def groupHeader91 (dates : DateTypes) : ComplexType := sequence ns [
  textElement "MsgId" max35Text,
  textElement "CreDtTm" dates.dateTime,
  (textElement "NbOfTxs" max15NumericText).optional,
  (element "SttlmInf" (settlementInstruction7 ns)).optional]

/-- The institutions of a transfer. -/
def institution : ComplexType := branchAndFinancialInstitutionIdentification6 ns addressFields

/-- A transaction of a pacs.009. -/
def creditTransferTransaction48 : ComplexType := sequence ns [
  element "PmtId" (paymentIdentification6 ns),
  element "Amt" (amountType4Choice ns),
  (element "IntrmyAgt1" institution).optional,
  (element "IntrmyAgt2" institution).optional,
  (element "IntrmyAgt3" institution).optional,
  (element "DbtrAgt" institution).optional,
  (element "Dbtr" institution).optional,
  (element "DbtrAcct" (cashAccount38 ns)).optional,
  (element "CdtrAgt" institution).optional,
  (element "Cdtr" institution).optional,
  (element "CdtrAcct" (cashAccount38 ns)).optional,
  (element "RmtInf" (remittanceInformation16 ns)).optional]

/-- The message of a pacs.009. -/
def fiCdtTrf (dates : DateTypes) : ComplexType := sequence ns [
  element "GrpHdr" (groupHeader91 dates),
  (element "CdtTrfTxInf" creditTransferTransaction48).unbounded]

/-- The document of a pacs.009. -/
def document (dates : DateTypes) : ComplexType := sequence ns [
  element "FICdtTrf" (fiCdtTrf dates)]

/-- The schema of pacs.009. -/
def accepts (dates : DateTypes) (root : Element) : Bool :=
  Xsd.accepts ns (element "Document" (document dates)) root

end Pacs009Schema

/-! ## pacs.002 -/

namespace Pacs002Schema

/-- The namespace of pacs.002. -/
def ns : String := namespaceOf "pacs.002.001.16"

/-- The addresses of a report have no type. -/
def postalAddress24 : ComplexType := sequence ns [
  (textElement "StrtNm" max70Text).optional,
  (textElement "BldgNb" max16Text).optional,
  (textElement "PstCd" max16Text).optional,
  (textElement "TwnNm" max35Text).optional,
  (textElement "Ctry" countryCode).optional,
  ((textElement "AdrLine" max70Text).optional).atMost 2]

/-- A party of a pacs.002. -/
def partyIdentification135 : ComplexType := sequence ns [
  (textElement "Nm" max140Text).optional,
  (element "PstlAdr" postalAddress24).optional]

/-- The header of a pacs.002. -/
def groupHeader91 (dates : DateTypes) : ComplexType := sequence ns [
  textElement "MsgId" max35Text,
  textElement "CreDtTm" dates.dateTime]

/-- The message that the statuses are about. -/
def originalGroupHeader14 : ComplexType := sequence ns [
  textElement "OrgnlMsgId" max35Text,
  (textElement "OrgnlMsgNmId" max35Text).optional,
  (textElement "GrpSts" max4Text).optional]

/-- The reason of a status, by its code or in words. -/
def statusReason6Choice : ComplexType := sequence ns [
  (textElement "Cd" max4Text).optional,
  (textElement "Prprtry" max35Text).optional]

/-- A reason with its further texts. -/
def statusReasonInformation12 : ComplexType := sequence ns [
  (textElement "Orgnl" max35Text).optional,
  (element "Rsn" statusReason6Choice).optional,
  (textElement "AddtlInf" max105Text).optional]

/-- What is repeated of the original transaction. -/
def originalTransactionReference30 : ComplexType := sequence ns [
  (element "PmtId" (paymentIdentification6 ns)).optional,
  (element "Amt" (amountType4Choice ns)).optional,
  (element "CdtrAgt"
    (CamtSchema.branchAndFinancialInstitutionIdentification6 ns)).optional,
  (element "Cdtr" partyIdentification135).optional]

/-- The status of one transaction. -/
def paymentTransaction128 : ComplexType := sequence ns [
  (textElement "OrgnlInstrId" max35Text).optional,
  (textElement "OrgnlEndToEndId" max35Text).optional,
  (textElement "OrgnlTxId" max35Text).optional,
  (textElement "TxSts" max4Text).optional,
  (element "StsRsnInf" statusReasonInformation12).optional.unbounded,
  (element "OrgnlTxRef" originalTransactionReference30).optional]

/-- The message of a pacs.002, with any number of statuses. -/
def fiToFIPmtStsRpt (dates : DateTypes) : ComplexType := sequence ns [
  element "GrpHdr" (groupHeader91 dates),
  element "OrgnlGrpInfAndSts" originalGroupHeader14,
  (element "TxInfAndSts" paymentTransaction128).optional.unbounded]

/-- The document of a pacs.002. -/
def document (dates : DateTypes) : ComplexType := sequence ns [
  element "FIToFIPmtStsRpt" (fiToFIPmtStsRpt dates)]

/-- The schema of pacs.002. -/
def accepts (dates : DateTypes) (root : Element) : Bool :=
  Xsd.accepts ns (element "Document" (document dates)) root

end Pacs002Schema

/-! ## The bundled schemas -/

/-- The bundled schema of each version. -/
def schemas (dates : DateTypes) : List (String × (Element → Bool)) :=
  [(pacs008Version.identifier, Pacs008Schema.accepts dates),
    (pain001Version.identifier, Pain001Schema.accepts dates),
    (pacs002Version.identifier, Pacs002Schema.accepts dates),
    (pacs009Version.identifier, Pacs009Schema.accepts dates),
    (camt053Version.identifier, CamtSchema.accepts dates .statement),
    (camt054Version.identifier, CamtSchema.accepts dates .notification)]

/-- Validate a document against the schema of its version. -/
def validateMessage (dates : DateTypes) (identifier : String) (root : Element) : Bool :=
  ((schemas dates).lookup identifier).any (· root)

end PaymentOps.Iso
