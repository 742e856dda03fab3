import PaymentOps.Account.Classification
import PaymentOps.Repair.Simulation
import PaymentOps.Service.EntryOutcome
import PaymentOps.Service.PaymentLifecycles

/-!
# The account context of a payment

The profile of a transaction carries its accounts, `profileFromDict` drops them on the way to the
stored lifecycle, and an entry is reconciled with the stored lifecycle.

* `payment_lifecycles`: the lifecycle that a payment with one transaction opens;
* `classification_stored`: it classifies an entry as the transaction without its accounts does;
* `context_survives_iff`: the stored lifecycle classifies an entry as the transaction would, exactly
  when the accounts do not matter for the entry;
* `wrong_account_reconciled` is an entry on another account that is reconciled.
-/

namespace PaymentOps

open Text Lifecycle Reconciliation IsoAnalysis AccountService

variable {D : Type}

/-- The context that a profile describes, accounts included. -/
def profileContext (profile : CorrelationProfile) : LifecycleAccountContext where
  messageId := profile.messageId
  originalMessageId := profile.originalMessageId
  transactionId := profile.transactionId
  endToEndId := profile.endToEndId
  instructionId := profile.instructionId
  reference := profile.reference
  amountMinor := profile.amount
  currency := profile.currency
  debtorAccount := profile.debtorAccount
  creditorAccount := profile.creditorAccount

/-- The context of a transaction of a message. -/
def transactionContext (message : PaymentMessage) (tx : PaymentTransaction) :
    LifecycleAccountContext :=
  profileContext (profileFromTransaction tx message.messageId)

/-- The stored lifecycle classifies as the profile does without its accounts. -/
theorem classification_stored (u : Unicode) (entry : AccountEntry)
    (account : Option AccountReference) {org : String} {profile : CorrelationProfile}
    {clock : Instant} {row : PaymentLifecycleRow}
    (hrow : stripped row = stripped (newLifecycle org (profileFromDict profile) clock)) :
    (reconcileAccountEntry u entry account (lifecycleContext row)).classification =
      (reconcileAccountEntry u entry account
        (withoutAccounts (profileContext profile))).classification := by
  have hcontext : lifecycleContext (stripped row) =
      lifecycleContext (stripped (newLifecycle org (profileFromDict profile) clock)) := by
    rw [hrow]
  have hrow' : lifecycleContext row =
      lifecycleContext (newLifecycle org (profileFromDict profile) clock) := hcontext
  rw [hrow', classification_eq, classification_eq]
  rfl

namespace IsoAnalysis

variable [DecidableEq D] {env : Env D} {org : String} {pipeline : AnalysisPipeline}
  {payload : List UInt8} {clock : Instant} {s : Store D} {result : IsoAnalysisResult D}

/-- The lifecycle that a payment with one transaction opens in a store without lifecycles. -/
theorem payment_lifecycles {profile : CorrelationProfile}
    (hresult : pipeline.analyzeIso env.hash payload clock = .ok result)
    (hstatus : isStatusReport result = false) (hreports : result.accountReports = [])
    (hnormalized : result.normalizedStatus = none)
    (hprofiles : result.correlationProfiles = [profile]) (hempty : s.lifecycles = [])
    (hnew : ¬ Known env org result s) :
    (((analyzeIsoMessage env org pipeline payload clock).run s).final s).lifecycles =
      [newLifecycle org (profileFromDict profile) clock] := by
  rw [lifecycles_of_payment hresult hstatus hreports hnormalized hnew, hprofiles, hempty]
  rfl

end IsoAnalysis

namespace EntryStep

/-- The entry of the step is stored with the classification that the context gives, and not as
`RECONCILED` where the account or the direction is wrong. -/
def ContextSurvives (u : Unicode) (st : EntryStep D) (context : LifecycleAccountContext)
    (t : Store D) : Prop :=
  (t.accountEntries[st.rowId]?.bind (·.reconciliationStatus) =
      some (reconcileAccountEntry u st.entry st.report.account context).classification) ∧
    (AccountWrong u st.report.account context ∨
        DirectionWrong u st.entry st.report.account context →
      t.accountEntries[st.rowId]?.bind (·.reconciliationStatus) ≠ some .reconciled)

/-- The accounts of the context do not decide the classification of the entry: the currency or the
amount differs, or nothing is wrong with the account, and with the direction only where a reference
differs as well. -/
def AccountsIdle (u : Unicode) (st : EntryStep D) (context : LifecycleAccountContext) : Prop :=
  CurrencyDiffers u st.entry context ∨ AmountDiffers st.entry context ∨
    (¬ AccountWrong u st.report.account context ∧
      (DirectionWrong u st.entry st.report.account context →
        ReferenceDiffers u st.entry context))

instance (u : Unicode) (st : EntryStep D) (context : LifecycleAccountContext) :
    Decidable (st.AccountsIdle u context) :=
  inferInstanceAs (Decidable (_ ∨ _ ∨ _))

end EntryStep

section

variable [DecidableEq D] {root : Xml.Element} {registered : Iso.RegisteredMessage}
  {message : PaymentMessage} {tx : PaymentTransaction} {result : IsoAnalysisResult D}

/-- A payment with one transaction is ingested, and an entry is then reconciled with its
lifecycle, whose status may have changed: the entry gets the classification that the transaction
gives it exactly when the accounts do not decide it. -/
theorem context_survives_iff (env : Env D) (org : String) (pipeline : AnalysisPipeline)
    (payload : List UInt8) (clock : Instant) (s : Store D)
    (hparse : pipeline.parseIso payload clock = .ok (root, registered, .payment message))
    (hresult : pipeline.analyzeIso env.hash payload clock = .ok result)
    (htx : message.transactions = [tx]) (hempty : s.lifecycles = [])
    (hnew : ¬ Known env org result s) (st : EntryStep D) {id : ℕ}
    {created row : PaymentLifecycleRow}
    (hcreated : (((analyzeIsoMessage env org pipeline payload clock).run s).final
      s).lifecycles[id]? = some created)
    (hsame : stripped row = stripped created) (hfirst : st.existing env = none)
    (hfound : st.lifecycle env = some (id, row)) :
    st.ContextSurvives env.unicode (transactionContext message tx) (st.after env) ↔
      st.AccountsIdle env.unicode (transactionContext message tx) := by
  set context := transactionContext message tx with hcontext
  have hlifecycles : (((analyzeIsoMessage env org pipeline payload clock).run s).final
      s).lifecycles = [newLifecycle org
        (profileFromDict (profileFromTransaction tx message.messageId)) clock] := by
    rcases result_cases hresult with ⟨_, _, message', hparse', hstatus, hnormalized, hreports,
        hprofiles⟩ | ⟨_, _, _, hparse', -⟩ | ⟨_, _, _, hparse', -⟩
    · rw [hparse] at hparse'
      cases hparse'
      rw [profileFromMessage, htx] at hprofiles
      exact payment_lifecycles hresult hstatus hreports hnormalized hprofiles hempty hnew
    · rw [hparse] at hparse'
      cases hparse'
    · rw [hparse] at hparse'
      cases hparse'
  have hrow : stripped row = stripped (newLifecycle org
      (profileFromDict (profileFromTransaction tx message.messageId)) clock) := by
    rw [hlifecycles] at hcreated
    rw [hsame, List.mem_singleton.mp (List.mem_of_getElem? hcreated)]
  have hstored : (st.after env).accountEntries[st.rowId]?.bind (·.reconciliationStatus) =
        some (reconcileAccountEntry env.unicode st.entry st.report.account
          (withoutAccounts context)).classification := by
    rw [EntryStep.after_row, Option.bind_some, (EntryStep.finalRow_found hfirst hfound).1]
    exact congrArg some (classification_stored env.unicode st.entry st.report.account hrow)
  unfold EntryStep.ContextSurvives EntryStep.AccountsIdle
  rw [hstored, Option.some_inj, classification_withoutAccounts_iff]
  refine and_iff_left_of_imp fun hidle hwrong hrec => ?_
  -- what is reconciled agrees with the transaction, accounts included
  have hequal := classification_withoutAccounts_iff.mpr hidle
  have hagrees := reconciled_iff.mp (hequal.symm.trans (Option.some.inj hrec))
  exact hwrong.elim hagrees.rightAccount hagrees.rightDirection

end

/-! ## A payment with both accounts -/

/-- An account with a name. -/
def accountElement (name iban : String) : Xml.Element :=
  Repair.isoElement name none [
    Repair.isoElement "Id" none [Repair.isoElement "IBAN" (some iban) []]]

/-- A payment of one euro from `DE1` to `DE2`. -/
def accountTree : Xml.Element :=
  Repair.isoElement "Document" none [Repair.isoElement "FIToFICstmrCdtTrf" none [
    Repair.isoElement "CdtTrfTxInf" none [
      Repair.isoElement "PmtId" none [Repair.isoElement "EndToEndId" (some "E-1") []],
      Repair.isoElement "Amt" none [Repair.isoElement "InstdAmt" (some "1.00") []],
      accountElement "DbtrAcct" "DE1", accountElement "CdtrAcct" "DE2"]]]

/-- A transaction between two accounts. -/
def accountTransaction : PaymentTransaction where
  endToEndId := some "E-1"
  amount := some ⟨100, "EUR"⟩
  debtorAccount := some {
    iban := some "DE1"
    sourcePath := some "/Document/FIToFICstmrCdtTrf/CdtTrfTxInf[0]/DbtrAcct" }
  creditorAccount := some {
    iban := some "DE2"
    sourcePath := some "/Document/FIToFICstmrCdtTrf/CdtTrfTxInf[0]/CdtrAcct" }
  sourcePath := some "/Document/FIToFICstmrCdtTrf/CdtTrfTxInf[0]"

/-- The message of this transaction. -/
def accountMessage : PaymentMessage where
  messageType := some "pacs.008.001.08"
  transactions := [accountTransaction]
  sourceFormat := .xmlPacs008
  receivedAt := 0
  sourceMetadata := [("message_name", "FIToFICustomerCreditTransferV08")]

theorem accountTree_maps :
    Iso.mapPacs008ToCanonical .ascii accountTree Iso.pacs008Version 0 = .ok accountMessage := by
  decide +kernel

/-- A pipeline that parses this message. -/
def accountPipeline : AnalysisPipeline := samplePipeline accountTree

theorem accountPipeline_parse : accountPipeline.parseIso [60] 0 =
    .ok (accountTree, ⟨"pacs", Iso.pacs008Version, .pacs008⟩, .payment accountMessage) := by
  have hmap : Iso.Adapter.map .ascii 0 accountTree Iso.pacs008Version .pacs008 =
      .ok (.payment accountMessage) := by
    rw [Iso.Adapter.map, accountTree_maps]
    rfl
  have hparse : accountPipeline.parseIso [60] 0 =
      (Iso.Adapter.map .ascii 0 accountTree Iso.pacs008Version .pacs008 >>= fun artifact =>
        pure (accountTree, ⟨"pacs", Iso.pacs008Version, .pacs008⟩, artifact)) := rfl
  rw [hparse, hmap]
  rfl

/-- The lifecycle of the payment, and an entry of one euro on an account. -/
def accountStep (iban : String) : EntryStep Digest where
  org := "org"
  report := {
    messageFamily := "camt", namespace_ := "", reportType := .statement
    account := some { iban := some iban } }
  reportId := 0
  entry := {
    endToEndId := some "E-1", amount := some ⟨100, "EUR"⟩, currency := some "EUR"
    creditDebit := some .crdt }
  before := {
    lifecycles := [newLifecycle "org"
      (profileFromDict (profileFromTransaction accountTransaction none)) 0] }

/-- The store once the payment is ingested. -/
def accountStore : Store Digest :=
  ((analyzeIsoMessage mixedEnv "org" accountPipeline [60] 0).run {}).final {}

theorem accountStore_lifecycles : accountStore.lifecycles = (accountStep "").before.lifecycles := by
  decide +kernel

theorem accountPipeline_result :
    ∃ result, accountPipeline.analyzeIso mixedEnv.hash [60] 0 = .ok result := by
  apply Except.exists_of_toBool
  decide +kernel

/-- An entry on the account of the creditor. -/
theorem context_survives_sample :
    (accountStep "DE2").ContextSurvives .ascii
      (transactionContext accountMessage accountTransaction)
      ((accountStep "DE2").after mixedEnv) := by
  obtain ⟨result, hresult⟩ := accountPipeline_result
  have hidle : (accountStep "DE2").AccountsIdle .ascii
      (transactionContext accountMessage accountTransaction) := by
    decide +kernel
  have hnew : ¬ Known mixedEnv "org" result {} := by
    rintro ⟨r, hr, -⟩
    cases hr
  have hcreated : accountStore.lifecycles[0]? = (accountStep "DE2").before.lifecycles[0]? :=
    congrArg (·[0]?) accountStore_lifecycles
  exact (context_survives_iff mixedEnv "org" accountPipeline [60] 0 {} accountPipeline_parse hresult
    rfl rfl hnew (accountStep "DE2") hcreated rfl (by decide +kernel) (by decide +kernel)).mpr hidle

/-- An entry on neither account is reconciled with the lifecycle of the payment. -/
theorem wrong_account_reconciled :
    accountStore.lifecycles = (accountStep "DE9").before.lifecycles ∧
      (accountStep "DE9").existing mixedEnv = none ∧
      (accountStep "DE9").lifecycle mixedEnv =
        (accountStep "DE9").before.lifecycles[0]?.map (0, ·) ∧
      ¬ (accountStep "DE9").ContextSurvives .ascii
        (transactionContext accountMessage accountTransaction)
        ((accountStep "DE9").after mixedEnv) := by
  refine ⟨accountStore_lifecycles, by decide +kernel, by decide +kernel, fun h => ?_⟩
  have hwrong : AccountWrong .ascii (accountStep "DE9").report.account
      (transactionContext accountMessage accountTransaction) := by
    decide +kernel
  have hstored : ((accountStep "DE9").after mixedEnv).accountEntries[0]?.bind
      (·.reconciliationStatus) =
      some .reconciled := by
    decide +kernel
  exact h.2 (.inl hwrong) hstored

end PaymentOps
