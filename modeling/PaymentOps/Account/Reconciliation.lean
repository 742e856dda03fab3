import PaymentOps.Domain.Models
import PaymentOps.Matching.Normalization

/-!
# Reconciliation of an account entry

`reconcileAccountEntry` compares one entry with the account context of a lifecycle: evidence and
conflicts per identifier, amount, currency, account and direction, then a score and a
classification.
-/

namespace PaymentOps.Reconciliation

open Text

/-- What an entry and a lifecycle agree in. -/
inductive Evidence where
  | uetrExact | txidExact | e2eExact | instrExact | accountServicerExact | amountExact
  | currencyExact | accountExact | referenceNormalizedExact | creditDebitExpected
  deriving DecidableEq, Repr

/-- The code of a piece of evidence. -/
def Evidence.value : Evidence → String
  | uetrExact => "RECON-UETR-EXACT"
  | txidExact => "RECON-TXID-EXACT"
  | e2eExact => "RECON-E2E-EXACT"
  | instrExact => "RECON-INSTR-EXACT"
  | accountServicerExact => "RECON-ACCOUNT-SERVICER-EXACT"
  | amountExact => "RECON-AMOUNT-EXACT"
  | currencyExact => "RECON-CURRENCY-EXACT"
  | accountExact => "RECON-ACCOUNT-EXACT"
  | referenceNormalizedExact => "RECON-REFERENCE-NORMALIZED-EXACT"
  | creditDebitExpected => "RECON-CREDITDEBIT-EXPECTED"

/-- What an entry and a lifecycle contradict each other in. -/
inductive Conflict where
  | amount | currency | account | id | creditDebit
  deriving DecidableEq, Repr

/-- The code of a conflict. -/
def Conflict.value : Conflict → String
  | amount => "RECON-AMOUNT-CONFLICT"
  | currency => "RECON-CURRENCY-CONFLICT"
  | account => "RECON-ACCOUNT-CONFLICT"
  | id => "RECON-ID-CONFLICT"
  | creditDebit => "RECON-CREDITDEBIT-CONFLICT"

/-- Deterministic account-relevant identifiers of a payment lifecycle. -/
structure LifecycleAccountContext where
  messageId : Option String := none
  originalMessageId : Option String := none
  transactionId : Option String := none
  endToEndId : Option String := none
  instructionId : Option String := none
  uetr : Option String := none
  accountServicerReference : Option String := none
  reference : Option String := none
  amountMinor : Option ℤ := none
  currency : Option String := none
  debtorAccount : Option String := none
  creditorAccount : Option String := none
  deriving DecidableEq, Repr

/-- Deterministic identity-key extraction for an account entry. -/
structure EntryIdentity where
  uetr : Option String
  transactionId : Option String
  endToEndId : Option String
  instructionId : Option String
  accountServicerReference : Option String
  entryReference : Option String
  reference : Option String
  amountMinor : Option ℤ
  currency : Option String
  account : Option String

/-- The strong identifiers of an entry, with the account of its report. -/
def entryIdentity (entry : AccountEntry) (account : Option AccountReference) : EntryIdentity where
  uetr := entry.uetr
  transactionId := entry.transactionId
  endToEndId := entry.endToEndId
  instructionId := entry.instructionId
  accountServicerReference := entry.accountServicerReference
  entryReference := entry.entryReference
  reference := entry.remittanceReference
  amountMinor := entry.amount.map (·.amountMinor)
  currency := or entry.currency (entry.amount.map (·.currency))
  account := or (account.bind (·.iban)) entry.accountServicerReference

/-- What the comparison of an entry with a lifecycle finds. -/
structure AccountReconciliationResult where
  classification : AccountReconciliationStatus
  evidence : List Evidence
  conflicts : List Conflict
  matchScore : ℚ
  deriving DecidableEq

section

variable (u : Unicode)

/-- The evidence and the conflicts of one identifier, as `_compare` appends them. -/
def compareRef (a b : Option String) (code : Evidence) : List Evidence × List Conflict :=
  if truthy a ∧ truthy b then
    if a.map (fun s => u.upper (strip s)) = b.map (fun s => u.upper (strip s)) then ([code], [])
    else ([], [.id])
  else ([], [])

/-- An account without blanks and hyphens, in capitals. -/
def compactAccount (a : String) : String := u.upper (replace '-' "" (replace ' ' "" a))

/-- The account is known and is the given account of the lifecycle. -/
def sameAccount (entryAccount lifecycleAccount : Option String) : Bool :=
  truthy entryAccount && truthy lifecycleAccount &&
    entryAccount.map (compactAccount u) == lifecycleAccount.map (compactAccount u)

/-- The direction that an entry of the account should have: a debit of the debtor, a credit of the
creditor. -/
def expectedDirection (entryAccount : Option String) (lifecycle : LifecycleAccountContext) :
    Option CreditDebitIndicator :=
  if sameAccount u entryAccount lifecycle.creditorAccount then some .crdt
  else if sameAccount u entryAccount lifecycle.debtorAccount then some .dbit
  else none

/-- Evidence of equal amounts, or a conflict of two that differ. -/
def compareAmount (a b : Option ℤ) : List Evidence × List Conflict :=
  match a, b with
  | some a, some b => if a = b then ([.amountExact], []) else ([], [.amount])
  | _, _ => ([], [])

/-- Evidence of equal currencies, or a conflict of two that differ. -/
def compareCurrency (a b : Option String) : List Evidence × List Conflict :=
  if truthy a ∧ truthy b then
    if a.map u.upper = b.map u.upper then ([.currencyExact], []) else ([], [.currency])
  else ([], [])

/-- Account and direction of the entry against those of the lifecycle. -/
def compareAccount (entryAccount : Option String) (direction : Option CreditDebitIndicator)
    (lifecycle : LifecycleAccountContext) : List Evidence × List Conflict :=
  let creditor := sameAccount u entryAccount lifecycle.creditorAccount
  let debtor := sameAccount u entryAccount lifecycle.debtorAccount
  let evidence : List Evidence :=
    (if creditor then [.accountExact] else []) ++ (if debtor then [.accountExact] else [])
  match expectedDirection u entryAccount lifecycle, direction with
  | some expected, some actual =>
    if actual = expected then (evidence ++ [.creditDebitExpected], [])
    else (evidence, [.creditDebit])
  | _, _ =>
    -- the account is known but is neither account of the lifecycle
    if truthy entryAccount ∧ truthy lifecycle.creditorAccount ∧ truthy lifecycle.debtorAccount ∧
        ¬ creditor ∧ ¬ debtor then (evidence, [.account])
    else (evidence, [])

/-- Evidence of a reference that is present on both sides and equal. -/
def compareReference (a b : Option String) : List Evidence :=
  if truthy a ∧ truthy b ∧
      a.bind (Matching.normalizeReference u) = b.bind (Matching.normalizeReference u)
  then [.referenceNormalizedExact] else []

end

/-- The weight of a piece of evidence in the score. -/
def Evidence.weight : Evidence → ℚ
  | uetrExact => 40
  | txidExact => 40
  | e2eExact => 30
  | instrExact => 20
  | accountServicerExact => 20
  | accountExact => 15
  | amountExact => 20
  | currencyExact => 10
  | referenceNormalizedExact => 15
  | creditDebitExpected => 5

/-- The codes to which `_score` gives a weight. -/
def weightedCodes : List Evidence :=
  [.uetrExact, .txidExact, .e2eExact, .instrExact, .accountServicerExact, .accountExact,
    .amountExact, .currencyExact, .referenceNormalizedExact, .creditDebitExpected]

/-- The weights of the evidence, added up in its order. -/
def weightOf (codes : List Evidence) : ℚ := codes.foldl (fun w code => w + code.weight) 0

/-- Deterministic score from weighted evidence. -/
def score (evidence : List Evidence) : ℚ :=
  Decimal.round2 (100 * weightOf evidence / weightOf weightedCodes)

/-- The evidence identifies the payment by itself. -/
def Evidence.isStrong : Evidence → Bool
  | uetrExact | txidExact | e2eExact | instrExact => true
  | _ => false

/-- `_classify`: the status that evidence and conflicts give an entry. -/
def classify (evidence : List Evidence) (conflicts : List Conflict) :
    AccountReconciliationStatus :=
  let hasStrong := evidence.any Evidence.isStrong
  let hasAmount := evidence.contains .amountExact
  let hasCurrency := evidence.contains .currencyExact
  if conflicts.contains .currency then .currencyMismatch
  else if conflicts.contains .amount then .amountMismatch
  else if conflicts.contains .account then .accountMismatch
  else if conflicts.contains .creditDebit ∨ conflicts.contains .id then .reviewRequired
  else if hasStrong ∧ hasAmount ∧ hasCurrency then .reconciled
  else if hasStrong ∧ (hasAmount ∨ hasCurrency) then .possibleReconciliation
  else if hasAmount ∧ hasCurrency then .possibleReconciliation
  else if hasStrong then .possibleReconciliation
  else .unmatchedAccountEntry

/-- Deterministically reconcile one account entry against a payment lifecycle context. -/
def reconcileAccountEntry (u : Unicode) (entry : AccountEntry)
    (account : Option AccountReference) (lifecycle : LifecycleAccountContext) :
    AccountReconciliationResult :=
  let ident := entryIdentity entry account
  let uetr := compareRef u ident.uetr lifecycle.uetr .uetrExact
  let txid := compareRef u ident.transactionId lifecycle.transactionId .txidExact
  let e2e := compareRef u ident.endToEndId lifecycle.endToEndId .e2eExact
  let instr := compareRef u ident.instructionId lifecycle.instructionId .instrExact
  let servicer := compareRef u ident.accountServicerReference lifecycle.accountServicerReference
    .accountServicerExact
  let amount := compareAmount ident.amountMinor lifecycle.amountMinor
  let currency := compareCurrency u ident.currency lifecycle.currency
  let entryAccount := or (account.bind (·.iban)) (account.bind (·.otherIdentification))
  let acct := compareAccount u entryAccount entry.creditDebit lifecycle
  let reference := compareReference u ident.reference lifecycle.reference
  let evidence := uetr.1 ++ txid.1 ++ e2e.1 ++ instr.1 ++ servicer.1 ++ amount.1 ++ currency.1 ++
    acct.1 ++ reference
  let conflicts := uetr.2 ++ txid.2 ++ e2e.2 ++ instr.2 ++ servicer.2 ++ amount.2 ++
    currency.2 ++ acct.2
  { classification := classify evidence conflicts
    evidence := evidence
    conflicts := conflicts
    matchScore := score evidence }

end PaymentOps.Reconciliation
