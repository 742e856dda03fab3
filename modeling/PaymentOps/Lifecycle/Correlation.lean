import PaymentOps.Domain.Models
import PaymentOps.Matching.Normalization

/-!
# Lifecycle correlation

`correlateProfiles` compares the identifiers of two messages and says whether they belong to the
same payment lifecycle.  `correlateProfiles_conflict` characterizes when the answer is `CONFLICT`,
`correlateProfiles_correlated` what `CORRELATED` needs.  The answer does not depend on the order
of the two messages (`correlateProfiles_comm`), and the service asks in both orders.
-/

namespace PaymentOps.Lifecycle

open Text

/-- What two profiles have in common. -/
inductive Evidence where
  | messageIdExact | originalMessageIdExact | transactionIdExact | endToEndIdExact
  | instructionIdExact | amountExact | currencyExact | referenceExact | accountExact
  deriving DecidableEq, Repr

/-- The code of a piece of evidence. -/
def Evidence.value : Evidence → String
  | messageIdExact => "MESSAGE_ID_EXACT"
  | originalMessageIdExact => "ORIGINAL_MESSAGE_ID_EXACT"
  | transactionIdExact => "TRANSACTION_ID_EXACT"
  | endToEndIdExact => "END_TO_END_ID_EXACT"
  | instructionIdExact => "INSTRUCTION_ID_EXACT"
  | amountExact => "AMOUNT_EXACT"
  | currencyExact => "CURRENCY_EXACT"
  | referenceExact => "REFERENCE_EXACT"
  | accountExact => "ACCOUNT_EXACT"

/-- Extracted identifiers for lifecycle correlation. -/
structure CorrelationProfile where
  messageId : Option String := none
  originalMessageId : Option String := none
  instructionId : Option String := none
  endToEndId : Option String := none
  transactionId : Option String := none
  amount : Option ℤ := none
  currency : Option String := none
  reference : Option String := none
  account : Option String := none
  debtorAccount : Option String := none
  creditorAccount : Option String := none
  deriving DecidableEq, Repr

/-- What the correlation of two profiles finds. -/
structure CorrelationResult where
  status : CorrelationStatus
  evidence : List Evidence
  conflicts : List String
  deriving DecidableEq, Repr

/-- An account, by its IBAN or else by its other id. -/
def accountIdentifier (a : Option Account) : Option String :=
  or (a.bind (·.iban)) (a.bind (·.otherIdentification))

/-- `profile_from_transaction`. -/
def profileFromTransaction (tx : PaymentTransaction) (messageId : Option String) :
    CorrelationProfile where
  messageId := messageId
  instructionId := tx.instructionId
  endToEndId := tx.endToEndId
  transactionId := tx.transactionId
  amount := tx.amount.map (·.amountMinor)
  currency := tx.amount.map (·.currency)
  reference := or (tx.remittance.bind (·.reference)) (tx.remittance.bind (·.unstructured.head?))
  account := or (tx.creditorAccount.bind (·.iban)) (tx.debtorAccount.bind (·.iban))
  debtorAccount := accountIdentifier tx.debtorAccount
  creditorAccount := accountIdentifier tx.creditorAccount

/-- The correlation profile of one transaction status of a report. -/
def profileFromStatus (report : LifecycleStatusReport) (tx : TransactionStatus) :
    CorrelationProfile where
  messageId := report.messageId
  originalMessageId := report.originalMessageId
  instructionId := tx.originalInstructionId
  endToEndId := tx.originalEndToEndId
  transactionId := tx.originalTransactionId
  amount := tx.amount.map (·.amountMinor)
  currency := tx.amount.map (·.currency)
  reference := tx.reference.bind (·.endToEndId)
  account := tx.reference.bind (·.transactionId)

/-- The profiles of the blocks of a status report. -/
def profileFromStatusReport (report : LifecycleStatusReport) : List CorrelationProfile :=
  report.transactionStatuses.map (profileFromStatus report)

/-- The profiles of the transactions of a message. -/
def profileFromMessage (message : PaymentMessage) : List CorrelationProfile :=
  message.transactions.map fun tx => profileFromTransaction tx message.messageId

/-- Both sides are present and equal. -/
def sameText (a b : Option String) : Bool := truthy a && truthy b && a == b

/-- The evidence and the conflicts of one identifier, as `_compare_identifier` appends them. -/
def compareIdentifier (a b : Option String) (label : String) (exactCode : Evidence) :
    List Evidence × List String :=
  if truthy a ∧ truthy b then
    if a = b then ([exactCode], []) else ([], [label ++ "_CONFLICT"])
  else ([], [])

/-- The strongest link between two messages. -/
def messageIdEvidence (a b : CorrelationProfile) : List Evidence :=
  if sameText a.messageId b.originalMessageId then [.originalMessageIdExact]
  else if sameText a.originalMessageId b.messageId then [.originalMessageIdExact]
  else if sameText a.messageId b.messageId then [.messageIdExact]
  else []

/-- `correlate_profiles`. -/
def correlateProfiles (u : Unicode) (a b : CorrelationProfile) : CorrelationResult :=
  let transactionId :=
    compareIdentifier a.transactionId b.transactionId "TRANSACTION_ID" .transactionIdExact
  let endToEndId := compareIdentifier a.endToEndId b.endToEndId "END_TO_END_ID" .endToEndIdExact
  let instructionId :=
    compareIdentifier a.instructionId b.instructionId "INSTRUCTION_ID" .instructionIdExact
  let amount : List Evidence :=
    if a.amount.isSome ∧ b.amount.isSome ∧ a.amount = b.amount ∧ sameText a.currency b.currency
    then [.amountExact, .currencyExact] else []
  let reference : List Evidence :=
    if truthy a.reference ∧ truthy b.reference ∧
        sameText (a.reference.bind (Matching.normalizeReference u))
          (b.reference.bind (Matching.normalizeReference u))
    then [.referenceExact] else []
  let account : List Evidence :=
    if truthy a.account ∧ truthy b.account ∧
        a.account.map (replace ' ' "") = b.account.map (replace ' ' "")
    then [.accountExact] else []
  let evidence := messageIdEvidence a b ++ transactionId.1 ++ endToEndId.1 ++ instructionId.1 ++
    amount ++ reference ++ account
  let conflicts := transactionId.2 ++ endToEndId.2 ++ instructionId.2
  let status : CorrelationStatus :=
    if conflicts ≠ [] then .conflict
    else if evidence.contains .originalMessageIdExact ∨ evidence.contains .messageIdExact ∨
        evidence.contains .transactionIdExact then .correlated
    else if evidence.contains .endToEndIdExact ∨ evidence.contains .instructionIdExact then
      .possibleCorrelation
    else if evidence.contains .amountExact ∧ evidence.contains .currencyExact then
      .possibleCorrelation
    else .unresolved
  { status := status, evidence := evidence, conflicts := conflicts }

/-- Both sides are present and differ. -/
def Differ (a b : Option String) : Prop := truthy a ∧ truthy b ∧ a ≠ b

instance (a b : Option String) : Decidable (Differ a b) :=
  inferInstanceAs (Decidable (_ ∧ _ ∧ _))

/-- Some identifier that both profiles carry differs. -/
def Conflicting (a b : CorrelationProfile) : Prop :=
  Differ a.transactionId b.transactionId ∨ Differ a.endToEndId b.endToEndId ∨
    Differ a.instructionId b.instructionId

instance (a b : CorrelationProfile) : Decidable (Conflicting a b) :=
  inferInstanceAs (Decidable (_ ∨ _ ∨ _))

theorem compareIdentifier_conflicts (a b : Option String) (label : String) (code : Evidence) :
    (compareIdentifier a b label code).2 ≠ [] ↔ Differ a b := by
  unfold compareIdentifier Differ
  split_ifs with h h'
  · simp [h']
  · simp [h, h']
  · simp only [ne_eq, not_true_eq_false, false_iff]
    exact fun hd => h ⟨hd.1, hd.2.1⟩

/-- Two profiles are in conflict exactly when some identifier of both differs. -/
theorem correlateProfiles_conflict (u : Unicode) (a b : CorrelationProfile) :
    (correlateProfiles u a b).status = .conflict ↔ Conflicting a b := by
  have hstatus : ∀ (c p q r : Prop) [Decidable c] [Decidable p] [Decidable q] [Decidable r],
      (if c then CorrelationStatus.conflict else if p then .correlated
        else if q then .possibleCorrelation else if r then .possibleCorrelation
        else .unresolved) = .conflict ↔ c := by
    intro c p q r _ _ _ _
    split_ifs with hc <;> simp [hc]
  have hc : (correlateProfiles u a b).status = .conflict ↔
      (correlateProfiles u a b).conflicts ≠ [] :=
    hstatus _ _ _ _
  have happ : (correlateProfiles u a b).conflicts ≠ [] ↔
      (compareIdentifier a.transactionId b.transactionId "TRANSACTION_ID"
        .transactionIdExact).2 ≠ [] ∨
      (compareIdentifier a.endToEndId b.endToEndId "END_TO_END_ID" .endToEndIdExact).2 ≠ [] ∨
      (compareIdentifier a.instructionId b.instructionId "INSTRUCTION_ID"
        .instructionIdExact).2 ≠ [] := by
    simp only [correlateProfiles, ne_eq, List.append_eq_nil_iff, not_and_or, or_assoc]
  rw [hc, happ, compareIdentifier_conflicts, compareIdentifier_conflicts,
    compareIdentifier_conflicts]
  rfl

/-! ## The order of the two profiles -/

theorem sameText_comm (a b : Option String) : sameText a b = sameText b a := by
  unfold sameText
  rw [Bool.and_comm (truthy a), Bool.beq_comm]

theorem compareIdentifier_comm (a b : Option String) (label : String) (code : Evidence) :
    compareIdentifier a b label code = compareIdentifier b a label code := by
  unfold compareIdentifier
  have hboth : (truthy a = true ∧ truthy b = true) = (truthy b = true ∧ truthy a = true) :=
    propext and_comm
  simp only [hboth, eq_comm (a := a)]

/-- The two directions of the original message id are tried one after the other, and both give
the same evidence. -/
theorem messageIdEvidence_comm (a b : CorrelationProfile) :
    messageIdEvidence a b = messageIdEvidence b a := by
  unfold messageIdEvidence
  rw [sameText_comm b.messageId a.originalMessageId, sameText_comm b.originalMessageId a.messageId,
    sameText_comm b.messageId a.messageId]
  split_ifs <;> rfl

theorem correlateProfiles_comm (u : Unicode) (a b : CorrelationProfile) :
    correlateProfiles u a b = correlateProfiles u b a := by
  have hamount : (a.amount.isSome ∧ b.amount.isSome ∧ a.amount = b.amount ∧
      sameText a.currency b.currency) = (b.amount.isSome ∧ a.amount.isSome ∧
      b.amount = a.amount ∧ sameText b.currency a.currency) := by
    rw [sameText_comm b.currency, eq_comm (a := b.amount)]
    exact propext and_left_comm
  have hreference : (truthy a.reference ∧ truthy b.reference ∧
      sameText (a.reference.bind (Matching.normalizeReference u))
        (b.reference.bind (Matching.normalizeReference u))) =
      (truthy b.reference ∧ truthy a.reference ∧
        sameText (b.reference.bind (Matching.normalizeReference u))
          (a.reference.bind (Matching.normalizeReference u))) := by
    rw [sameText_comm (b.reference.bind _)]
    exact propext and_left_comm
  have haccount : (truthy a.account ∧ truthy b.account ∧
      a.account.map (replace ' ' "") = b.account.map (replace ' ' "")) =
      (truthy b.account ∧ truthy a.account ∧
        b.account.map (replace ' ' "") = a.account.map (replace ' ' "")) := by
    rw [eq_comm (a := b.account.map _)]
    exact propext and_left_comm
  unfold correlateProfiles
  simp only [messageIdEvidence_comm b a, compareIdentifier_comm b.transactionId,
    compareIdentifier_comm b.endToEndId, compareIdentifier_comm b.instructionId, hamount,
    hreference, haccount]

/-! ## What a correlation rests on -/

/-- The two messages are linked by a message id: one names the other as its original, or both
carry the same id. -/
def MessageIdLink (a b : CorrelationProfile) : Prop :=
  sameText a.messageId b.originalMessageId ∨ sameText a.originalMessageId b.messageId ∨
    sameText a.messageId b.messageId

theorem messageIdEvidence_ne_nil (a b : CorrelationProfile) :
    messageIdEvidence a b ≠ [] ↔ MessageIdLink a b := by
  unfold messageIdEvidence MessageIdLink
  split_ifs <;> simp [*]

/-- An identifier adds no evidence but its own. -/
theorem mem_compareIdentifier {a b : Option String} {label : String} {code e : Evidence} :
    e ∈ (compareIdentifier a b label code).1 ↔ e = code ∧ sameText a b := by
  unfold compareIdentifier sameText
  split_ifs with h h'
  · simp [h, h']
  · simp [h']
  · have : ¬(truthy a = true ∧ truthy b = true) := h
    simp only [List.not_mem_nil, false_iff, Bool.and_eq_true]
    exact fun hs => this hs.2.1

/-- The evidence that ties two messages on its own comes from the message ids and the transaction
ids alone. -/
theorem correlateProfiles_link {u : Unicode} {a b : CorrelationProfile}
    (h : .originalMessageIdExact ∈ (correlateProfiles u a b).evidence ∨
      .messageIdExact ∈ (correlateProfiles u a b).evidence ∨
      .transactionIdExact ∈ (correlateProfiles u a b).evidence) :
    MessageIdLink a b ∨ sameText a.transactionId b.transactionId := by
  have hlink : ∀ e ∈ messageIdEvidence a b, MessageIdLink a b := fun e he =>
    (messageIdEvidence_ne_nil a b).mp (List.ne_nil_of_mem he)
  have hrest : ∀ (c : Prop) [Decidable c] (es : List Evidence) (e : Evidence),
      e ∈ (if c then es else []) → e ∈ es := by
    intro c _ es e he
    split_ifs at he
    · exact he
    · cases he
  have hmem : ∀ e ∈ (correlateProfiles u a b).evidence,
      e ∈ messageIdEvidence a b ∨ e = .transactionIdExact ∧
          sameText a.transactionId b.transactionId ∨
        e = .endToEndIdExact ∨ e = .instructionIdExact ∨ e ∈ [.amountExact, .currencyExact] ∨
        e ∈ [.referenceExact] ∨ e ∈ [.accountExact] := by
    intro e he
    simp only [correlateProfiles, List.mem_append, mem_compareIdentifier] at he
    rcases he with (((((he | he) | he) | he) | he) | he) | he
    · exact .inl he
    · exact .inr (.inl he)
    · exact .inr (.inr (.inl he.1))
    · exact .inr (.inr (.inr (.inl he.1)))
    · exact .inr (.inr (.inr (.inr (.inl (hrest _ _ e he)))))
    · exact .inr (.inr (.inr (.inr (.inr (.inl (hrest _ _ e he))))))
    · exact .inr (.inr (.inr (.inr (.inr (.inr (hrest _ _ e he))))))
  rcases h with h | h | h
  · exact .inl (hlink _ (by simpa using hmem _ h))
  · exact .inl (hlink _ (by simpa using hmem _ h))
  · rcases hmem _ h with h | h | h
    · exact .inl (hlink _ h)
    · exact .inr h.2
    · simp at h

theorem correlateProfiles_correlated {u : Unicode} {a b : CorrelationProfile}
    (h : (correlateProfiles u a b).status = .correlated) :
    ¬Conflicting a b ∧ (MessageIdLink a b ∨ sameText a.transactionId b.transactionId) := by
  have hstatus : ∀ (c p q r : Prop) [Decidable c] [Decidable p] [Decidable q] [Decidable r],
      (if c then CorrelationStatus.conflict else if p then .correlated
        else if q then .possibleCorrelation else if r then .possibleCorrelation
        else .unresolved) = .correlated → p := by
    intro c p q r _ _ _ _
    split_ifs with hc hp <;> simp [*]
  constructor
  · rw [← correlateProfiles_conflict u, h]
    simp
  · have hp : (correlateProfiles u a b).evidence.contains .originalMessageIdExact ∨
        (correlateProfiles u a b).evidence.contains .messageIdExact ∨
        (correlateProfiles u a b).evidence.contains .transactionIdExact :=
      hstatus _ _ _ _ h
    simp only [List.contains_iff_mem] at hp
    exact correlateProfiles_link hp

/-- Correlating does not depend on which message comes first, reports a conflict exactly for
identifiers that both carry and that differ, and a correlation only without one and on a message
id or the transaction id. -/
theorem correlateProfiles_characterized (u : Unicode) (a b : CorrelationProfile) :
    correlateProfiles u a b = correlateProfiles u b a ∧
    ((correlateProfiles u a b).status = .conflict ↔ Conflicting a b) ∧
    ((correlateProfiles u a b).status = .correlated →
      ¬Conflicting a b ∧ (MessageIdLink a b ∨ sameText a.transactionId b.transactionId)) :=
  ⟨correlateProfiles_comm u a b, correlateProfiles_conflict u a b, correlateProfiles_correlated⟩

end PaymentOps.Lifecycle
