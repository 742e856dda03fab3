import Mathlib
import PaymentOps.Domain.Models

/-!
# The identity of an account entry

`identityText` is what the identity of an entry is the hash of: nine texts joined by `|`.  The
dates and the currency of the amount are not among them, and a `|` inside a value is not escaped.
So two entries have one text in two ways: all nine texts agree, or they differ and cut the same
sequence of pieces differently (`Shifted`).
-/

namespace PaymentOps

open Text

namespace AccountEntry

/-- The references of an entry, in the order in which the identity has them. -/
def references (e : AccountEntry) : List (Option String) :=
  [e.accountServicerReference, e.transactionId, e.endToEndId, e.uetr, e.instructionId,
    e.entryReference]

/-- A reference is absent or a non-empty text. -/
def ReferencesFilled (e : AccountEntry) : Prop := some "" ∉ e.references

/-- The texts that the identity joins. -/
def identityParts (e : AccountEntry) : List String :=
  [e.accountServicerReference.getD "",
    e.transactionId.getD "",
    e.endToEndId.getD "",
    e.uetr.getD "",
    e.instructionId.getD "",
    e.entryReference.getD "",
    (e.amount.map fun a => toString a.amountMinor).getD "",
    e.currency.getD "",
    (e.creditDebit.map (·.value)).getD ""]

/-- Two entries agree on everything that identifies a booking. -/
structure SameBooking (e₁ e₂ : AccountEntry) : Prop where
  accountServicerReference : e₁.accountServicerReference = e₂.accountServicerReference
  transactionId : e₁.transactionId = e₂.transactionId
  endToEndId : e₁.endToEndId = e₂.endToEndId
  uetr : e₁.uetr = e₂.uetr
  instructionId : e₁.instructionId = e₂.instructionId
  entryReference : e₁.entryReference = e₂.entryReference
  amount : e₁.amount = e₂.amount
  currency : e₁.currency = e₂.currency
  creditDebit : e₁.creditDebit = e₂.creditDebit
  bookingDate : e₁.bookingDate = e₂.bookingDate
  valueDate : e₁.valueDate = e₂.valueDate

/-- Two entries agree on what identifies a booking and is not in the identity. -/
structure SameContext (e₁ e₂ : AccountEntry) : Prop where
  amountCurrency : e₁.amount.map (·.currency) = e₂.amount.map (·.currency)
  emptyCurrency : e₁.currency = some "" ↔ e₂.currency = some ""
  bookingDate : e₁.bookingDate = e₂.bookingDate
  valueDate : e₁.valueDate = e₂.valueDate

/-- Different texts that give the same pieces when they are cut at every `|`. -/
def Shifted (e₁ e₂ : AccountEntry) : Prop :=
  e₁.identityParts ≠ e₂.identityParts ∧
    e₁.identityParts.flatMap (split '|') = e₂.identityParts.flatMap (split '|')

instance (e₁ e₂ : AccountEntry) : Decidable (Shifted e₁ e₂) :=
  inferInstanceAs (Decidable (_ ∧ _))

variable {e₁ e₂ : AccountEntry}

/-- Texts without a `|` are not shifted. -/
theorem not_shifted (h₁ : ∀ s ∈ e₁.identityParts, '|' ∉ s.toList)
    (h₂ : ∀ s ∈ e₂.identityParts, '|' ∉ s.toList) : ¬ Shifted e₁ e₂ := by
  have hcut : ∀ l : List String, (∀ s ∈ l, '|' ∉ s.toList) → l.flatMap (split '|') = l := by
    intro l hl
    rw [List.flatMap_congr fun s hs => split_of_not_mem (hl s hs)]
    simp
  rintro ⟨hne, hsame⟩
  rw [hcut _ h₁, hcut _ h₂] at hsame
  exact hne hsame

/-! ## The joined text -/

/-- Joined texts are equal when their pieces are. -/
theorem identityText_eq_iff (e₁ e₂ : AccountEntry) :
    e₁.identityText = e₂.identityText ↔
      e₁.identityParts.flatMap (split '|') = e₂.identityParts.flatMap (split '|') := by
  have hsplit : ∀ e : AccountEntry,
      split '|' e.identityText = e.identityParts.flatMap (split '|') := fun e =>
    split_join_flatMap '|' (l := e.identityParts) (List.cons_ne_nil _ _)
  rw [← hsplit, ← hsplit]
  constructor
  · exact congrArg (split '|')
  · intro h
    -- joining the pieces again gives the text back
    rw [← join_split '|' e₁.identityText, h, join_split]

/-! ## The parts -/

theorem getD_eq_iff {o p : Option String} (ho : o ≠ some "") (hp : p ≠ some "") :
    o.getD "" = p.getD "" ↔ o = p := by
  cases o with
  | none =>
    cases p with
    | none => simp
    | some s => simpa using Ne.symm hp
  | some r =>
    cases p with
    | none => simpa using ho
    | some s => simp

theorem int_repr_ne (n : ℤ) : n.repr ≠ "" := by
  rw [Int.repr_eq_if]
  split_ifs
  · exact Nat.repr_ne_empty
  · simp

/-- The amount of an entry is in its text but for the currency. -/
theorem amountText_eq_iff (a b : Option MonetaryAmount) :
    (a.map fun x => toString x.amountMinor).getD "" =
        (b.map fun x => toString x.amountMinor).getD "" ∧
      a.map (·.currency) = b.map (·.currency) ↔ a = b := by
  rw [getD_eq_iff (by simp [int_repr_ne]) (by simp [int_repr_ne])]
  cases a with
  | none => cases b <;> simp
  | some x =>
    cases b with
    | none => simp
    | some y =>
      obtain ⟨m, c⟩ := x
      obtain ⟨n, d⟩ := y
      simp [Int.toString_eq_repr, Int.repr_inj]

theorem creditDebitText_eq_iff (c d : Option CreditDebitIndicator) :
    (c.map (·.value)).getD "" = (d.map (·.value)).getD "" ↔ c = d := by
  rcases c with _ | c <;> rcases d with _ | d <;> (try cases c) <;> (try cases d) <;> decide

theorem currencyText_eq_iff (c d : Option String) :
    c.getD "" = d.getD "" ∧ (c = some "" ↔ d = some "") ↔ c = d := by
  constructor
  · rintro ⟨h, hempty⟩
    by_cases hc : c = some ""
    · rw [hc, hempty.mp hc]
    · exact (getD_eq_iff hc (mt hempty.mpr hc)).mp h
  · rintro rfl
    exact ⟨rfl, Iff.rfl⟩

/-- The identity and its context together determine the booking. -/
theorem sameBooking_iff (h₁ : e₁.ReferencesFilled) (h₂ : e₂.ReferencesFilled) :
    SameBooking e₁ e₂ ↔ e₁.identityParts = e₂.identityParts ∧ SameContext e₁ e₂ := by
  have href : ∀ {o p : Option String}, o ∈ e₁.references → p ∈ e₂.references →
      (o.getD "" = p.getD "" ↔ o = p) := fun ho hp =>
    getD_eq_iff (ne_of_mem_of_not_mem ho h₁) (ne_of_mem_of_not_mem hp h₂)
  constructor
  · intro h
    refine ⟨?_, ⟨by rw [h.amount], by rw [h.currency], h.bookingDate, h.valueDate⟩⟩
    rw [identityParts, identityParts, h.accountServicerReference, h.transactionId, h.endToEndId,
      h.uetr, h.instructionId, h.entryReference, h.amount, h.currency, h.creditDebit]
  · rintro ⟨hparts, hcontext⟩
    simp only [identityParts, List.cons.injEq, and_true] at hparts
    obtain ⟨hasr, htx, he2e, huetr, hinstr, hentry, hamount, hcurrency, hdirection⟩ := hparts
    exact
      { accountServicerReference := (href (by simp [references]) (by simp [references])).mp hasr
        transactionId := (href (by simp [references]) (by simp [references])).mp htx
        endToEndId := (href (by simp [references]) (by simp [references])).mp he2e
        uetr := (href (by simp [references]) (by simp [references])).mp huetr
        instructionId := (href (by simp [references]) (by simp [references])).mp hinstr
        entryReference := (href (by simp [references]) (by simp [references])).mp hentry
        amount := (amountText_eq_iff _ _).mp ⟨hamount, hcontext.amountCurrency⟩
        currency := (currencyText_eq_iff _ _).mp ⟨hcurrency, hcontext.emptyCurrency⟩
        creditDebit := (creditDebitText_eq_iff _ _).mp hdirection
        bookingDate := hcontext.bookingDate
        valueDate := hcontext.valueDate }

/-- Entries of one identity are one booking exactly when their texts are not shifted against each
other and equal texts come with equal dates and an equal currency of the amount. -/
theorem identity_faithful_iff {hash : String → String} (hinj : Function.Injective hash)
    (h₁ : e₁.ReferencesFilled) (h₂ : e₂.ReferencesFilled) :
    (hash e₁.identityText = hash e₂.identityText → SameBooking e₁ e₂) ↔
      ¬ Shifted e₁ e₂ ∧ (e₁.identityParts = e₂.identityParts → SameContext e₁ e₂) := by
  rw [hinj.eq_iff, identityText_eq_iff, sameBooking_iff h₁ h₂, Shifted]
  have hpieces : e₁.identityParts = e₂.identityParts →
      e₁.identityParts.flatMap (split '|') = e₂.identityParts.flatMap (split '|') := fun h => by
    rw [h]
  constructor
  · intro h
    exact ⟨fun hs => hs.1 (h hs.2).1, fun hparts => (h (hpieces hparts)).2⟩
  · rintro ⟨hshift, hcontext⟩ hsame
    have hparts : e₁.identityParts = e₂.identityParts := by
      by_contra hne
      exact hshift ⟨hne, hsame⟩
    exact ⟨hparts, hcontext hparts⟩

/-- A booking that a bank repeats under the same references. -/
def rent (day : Date) : AccountEntry where
  endToEndId := some "RENT"
  amount := some { amountMinor := 90000, currency := "EUR" }
  currency := some "EUR"
  creditDebit := some .dbit
  bookingDate := some day

/-- The rent of March. -/
def rentOfMarch : AccountEntry := rent ⟨2024, 3, 1, rfl⟩

/-- The rent of April. -/
def rentOfApril : AccountEntry := rent ⟨2024, 4, 1, rfl⟩

theorem rent_referencesFilled (day : Date) : (rent day).ReferencesFilled := by
  simp [ReferencesFilled, references, rent]

theorem identity_faithful_iff_rent :
    (id rentOfMarch.identityText = id rentOfApril.identityText →
        SameBooking rentOfMarch rentOfApril) ↔
      ¬ Shifted rentOfMarch rentOfApril ∧ (rentOfMarch.identityParts = rentOfApril.identityParts →
        SameContext rentOfMarch rentOfApril) :=
  identity_faithful_iff Function.injective_id (rent_referencesFilled _)
    (rent_referencesFilled _)

/-- The rent of March and the rent of April have one identity. -/
theorem identity_not_faithful :
    rentOfMarch.ReferencesFilled ∧ rentOfApril.ReferencesFilled ∧
      rentOfMarch.identityText = rentOfApril.identityText ∧
      ¬ SameBooking rentOfMarch rentOfApril := by
  refine ⟨rent_referencesFilled _, rent_referencesFilled _, rfl, fun h => ?_⟩
  have hmonth := congrArg (Option.map Date.month) h.bookingDate
  exact absurd hmonth (by decide)

example : Shifted { endToEndId := some "A|", uetr := some "B" }
    { endToEndId := some "A", uetr := some "|B" } := by
  decide +kernel

end AccountEntry

end PaymentOps
