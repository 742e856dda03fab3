import PaymentOps.Lib.Nested

/-!
# Redaction of log events

`redactProcessor` replaces what stands under a sensitive key before an event is logged.  Below the
top level a sensitive key only hides a scalar or a tuple: a dictionary or a list under it is
entered and its own keys decide, and a tuple elsewhere is left as it is.  `redactProcessor_at`
says at every position what is left.
-/

namespace PaymentOps.Logging

/-- Field names that must never be serialized into logs. -/
def sensitiveFieldNames : List String :=
  ["iban", "account", "account_number", "iban_number", "name", "customer_name", "address",
    "payload", "body", "creditor", "debtor", "raw", "raw_payload", "password", "secret", "token",
    "key", "credential", "bic", "swift", "pan", "card_number", "balance"]

/-- A logged value that is not a container. -/
inductive Scalar (A : Type) where
  | text (s : String)
  | other (a : A)
  deriving DecidableEq

/-- `K` are the keys and `A` the objects that are neither texts nor containers. -/
abbrev LogValue (K A : Type) := Nested K (Scalar A)

variable {K A : Type}

/-- What stands for a sensitive value. -/
def redacted : Scalar A := .text "[REDACTED]"

/-- `lowered` is `str(k).lower()`. -/
def sensitive (lowered : K → String) (k : K) : Bool := sensitiveFieldNames.contains (lowered k)

/-- The values that redaction enters. -/
def isDictOrList : LogValue K A → Bool
  | .dict _ => true
  | .list _ => true
  | _ => false

mutual

/-- `_redact`. -/
def redact (lowered : K → String) : LogValue K A → LogValue K A
  | .dict members => .dict (redactMembers lowered members)
  | .list items => .list (redactItems lowered items)
  | .tuple items => .list (redactItems lowered items)
  | .scalar s => .scalar s

/-- `_redact` of the members of a dictionary. -/
def redactMembers (lowered : K → String) : List (K × LogValue K A) → List (K × LogValue K A)
  | [] => []
  | (k, v) :: members =>
    (k, if isDictOrList v then redact lowered v
      else if sensitive lowered k then .scalar redacted else v) :: redactMembers lowered members

/-- `_redact` of the items of a list. -/
def redactItems (lowered : K → String) : List (LogValue K A) → List (LogValue K A)
  | [] => []
  | v :: items => (if isDictOrList v then redact lowered v else v) :: redactItems lowered items

end

/-- The processor on the fields of a record; a sensitive one is replaced whatever it holds. -/
def redactProcessor (lowered : K → String) (event : List (K × LogValue K A)) :
    List (K × LogValue K A) :=
  event.map fun m =>
    (m.1, if sensitive lowered m.1 then .scalar redacted else redact lowered m.2)

variable (lowered : K → String)

/-! ## One level -/

/-- What redaction makes of a value inside a container, `own` being its key in a dictionary. -/
def redactChild (own : Option K) (v : LogValue K A) : LogValue K A :=
  if isDictOrList v then redact lowered v
  else if own.any (sensitive lowered) then .scalar redacted else v

theorem redactMembers_eq_map (members : List (K × LogValue K A)) :
    redactMembers lowered members =
      members.map fun m => (m.1, redactChild lowered (some m.1) m.2) := by
  induction members with
  | nil => rfl
  | cons m members ih =>
    rw [redactMembers, ih]
    rfl

theorem redactItems_eq_map (items : List (LogValue K A)) :
    redactItems lowered items = items.map (redactChild lowered none) := by
  induction items with
  | nil => rfl
  | cons v items ih =>
    rw [redactItems, ih]
    rfl

/-- Redaction keeps the children of a container in their places. -/
theorem redact_children (v : LogValue K A) :
    (redact lowered v).children = v.children.map fun c => (c.1, redactChild lowered c.1 c.2) := by
  cases v with
  | scalar s => rfl
  | dict members => simp [redact, Nested.children, redactMembers_eq_map, Function.comp_def]
  | list items => simp [redact, Nested.children, redactItems_eq_map, Function.comp_def]
  | tuple items => simp [redact, Nested.children, redactItems_eq_map, Function.comp_def]

theorem redactProcessor_children (event : List (K × LogValue K A)) :
    (Nested.dict (redactProcessor lowered event)).children =
      (Nested.dict event).children.map fun c =>
        (c.1, if c.1.any (sensitive lowered) then .scalar redacted else redact lowered c.2) := by
  simp [redactProcessor, Nested.children, Function.comp_def]

/-! ## Positions -/

/-- Inside a container, redaction hides a position in a scalar or a tuple that is the value of a
sensitive key, as long as the way there leads through dictionaries and lists. -/
def hides : List ℕ → Option K → LogValue K A → Bool
  | _, own, .scalar _ => own.any (sensitive lowered)
  | _, own, .tuple _ => own.any (sensitive lowered)
  | [], _, _ => false
  | i :: p, _, v => v.children[i]?.any fun c => hides p c.1 c.2

/-- In an event, redaction hides what is under a sensitive key of the event itself, and enters
every other container there. -/
def hidesInEvent : List ℕ → List (K × LogValue K A) → Bool
  | [], _ => false
  | i :: p, event => event[i]?.any fun m => sensitive lowered m.1 ||
    match p with
    | [] => false
    | j :: q => m.2.children[j]?.any fun c => hides lowered q c.1 c.2

theorem hides_cons {v : LogValue K A} (h : isDictOrList v) (i : ℕ) (p : List ℕ) (own : Option K) :
    hides lowered (i :: p) own v = v.children[i]?.any fun c => hides lowered p c.1 c.2 := by
  cases v with
  | scalar s => cases h
  | dict members => rfl
  | list items => rfl
  | tuple items => cases h

theorem hides_of_atom {v : LogValue K A} (h : isDictOrList v = false) (p : List ℕ)
    (own : Option K) : hides lowered p own v = own.any (sensitive lowered) := by
  cases v with
  | scalar s => cases p <;> rfl
  | dict members => cases h
  | list items => cases h
  | tuple items => cases p <;> rfl

theorem scalarAt_redacted {p : List ℕ} {s : Scalar A}
    (h : Nested.scalarAt p (.scalar redacted : LogValue K A) = some s) : s = redacted := by
  cases p with
  | nil => exact (Option.some.inj h).symm
  | cons i p => cases h

/-- What redaction leaves at a position of a value: nothing but the marker where the position is
hidden, and otherwise what was there. -/
def Leaves (hidden : Bool) (p : List ℕ) (v out : LogValue K A) : Prop :=
  (hidden = true → ∀ s, out.scalarAt p = some s → s = redacted) ∧
    (hidden = false → out.scalarAt p = v.scalarAt p)

theorem redactChild_atom {v : LogValue K A} (hv : isDictOrList v = false) (p : List ℕ)
    (own : Option K) : Leaves (hides lowered p own v) p v (redactChild lowered own v) := by
  rw [hides_of_atom lowered hv, redactChild, if_neg (by simp [hv])]
  constructor
  · intro h s hs
    rw [if_pos h] at hs
    exact scalarAt_redacted hs
  · intro h
    rw [if_neg (by simp [h])]

theorem redactChild_leaves (p : List ℕ) (own : Option K) (v : LogValue K A) :
    Leaves (hides lowered p own v) p v (redactChild lowered own v) := by
  induction p generalizing own v with
  | nil =>
    cases v with
    | scalar s => exact redactChild_atom lowered rfl [] own
    | dict members => exact ⟨nofun, fun _ => rfl⟩
    | list items => exact ⟨nofun, fun _ => rfl⟩
    | tuple items => exact redactChild_atom lowered rfl [] own
  | cons i p ih =>
    cases hv : isDictOrList v with
    | false => exact redactChild_atom lowered hv (i :: p) own
    | true =>
      rw [hides_cons lowered hv, redactChild, if_pos hv, Leaves, Nested.scalarAt_cons,
        Nested.scalarAt_cons, redact_children, List.getElem?_map]
      cases v.children[i]? with
      | none => exact ⟨nofun, fun _ => rfl⟩
      | some c => exact ih c.1 c.2

theorem redact_leaves (j : ℕ) (q : List ℕ) (v : LogValue K A) :
    Leaves (v.children[j]?.any fun c => hides lowered q c.1 c.2) (j :: q) v (redact lowered v) := by
  rw [Leaves, Nested.scalarAt_cons, Nested.scalarAt_cons, redact_children, List.getElem?_map]
  cases v.children[j]? with
  | none => exact ⟨nofun, fun _ => rfl⟩
  | some c => exact redactChild_leaves lowered q c.1 c.2

theorem redactProcessor_leaves (p : List ℕ) (event : List (K × LogValue K A)) :
    Leaves (hidesInEvent lowered p event) p (.dict event)
      (.dict (redactProcessor lowered event)) := by
  cases p with
  | nil => exact ⟨nofun, fun _ => rfl⟩
  | cons i p =>
    rw [Leaves, Nested.scalarAt_cons, Nested.scalarAt_cons, redactProcessor_children,
      List.getElem?_map, hidesInEvent, Nested.children, List.getElem?_map]
    cases event[i]? with
    | none => exact ⟨nofun, fun _ => rfl⟩
    | some m =>
      obtain ⟨k, v⟩ := m
      simp only [Option.map_some, Option.bind_some, Option.any_some]
      cases hk : sensitive lowered k with
      | true => exact ⟨fun _ s hs => scalarAt_redacted hs, nofun⟩
      | false =>
        cases p with
        | nil =>
          refine ⟨nofun, fun _ => ?_⟩
          cases v <;> rfl
        | cons j q => exact redact_leaves lowered j q v

/-- Redaction moves nothing: what an event holds afterwards is the marker or was there before. -/
theorem scalarAt_redactProcessor {p : List ℕ} {event : List (K × LogValue K A)} {s : Scalar A}
    (h : (Nested.dict (redactProcessor lowered event)).scalarAt p = some s) :
    s = redacted ∨ (Nested.dict event).scalarAt p = some s := by
  have hleaves := redactProcessor_leaves lowered p event
  cases hhidden : hidesInEvent lowered p event with
  | true => exact .inl (hleaves.1 hhidden s h)
  | false => exact .inr ((hleaves.2 hhidden).symm.trans h)

/-! ## Completeness -/

/-- Redaction hides only what is under a sensitive key. -/
theorem under_of_hides {p : List ℕ} {own : Option K} {v : LogValue K A}
    (h : hides lowered p own v) :
    (own.any (sensitive lowered) || v.isUnder (sensitive lowered) p) = true := by
  induction p generalizing own v with
  | nil =>
    cases v with
    | scalar s => simpa [hides, Nested.isUnder] using h
    | dict members => cases h
    | list items => cases h
    | tuple items => simpa [hides, Nested.isUnder] using h
  | cons i p ih =>
    cases hv : isDictOrList v with
    | false =>
      rw [hides_of_atom lowered hv] at h
      rw [h, Bool.true_or]
    | true =>
      rw [hides_cons lowered hv, Option.any_eq_true] at h
      obtain ⟨c, hc, hhides⟩ := h
      rw [Nested.isUnder_cons, hc, Option.any_some, ih hhides, Bool.or_true]

theorem under_of_hidesInEvent {p : List ℕ} {event : List (K × LogValue K A)}
    (h : hidesInEvent lowered p event) :
    (Nested.dict event).isUnder (sensitive lowered) p := by
  cases p with
  | nil => cases h
  | cons i p =>
    rw [hidesInEvent, Option.any_eq_true] at h
    obtain ⟨m, hm, hhides⟩ := h
    rw [Nested.isUnder_cons, Nested.children, List.getElem?_map, hm, Option.map_some,
      Option.any_some, Option.any_some]
    cases hk : sensitive lowered m.1 with
    | true => rfl
    | false =>
      rw [hk, Bool.false_or] at hhides
      rw [Bool.false_or]
      cases p with
      | nil => cases hhides
      | cons j q =>
        obtain ⟨c, hc, hq⟩ := (Option.any_eq_true _ _).mp hhides
        rw [Nested.isUnder_cons, hc, Option.any_some, under_of_hides lowered hq]

/-- No scalar under a sensitive key survives, and every other scalar is preserved. -/
def Complete (event : List (K × LogValue K A)) : Prop :=
  ∀ p s, (Nested.dict event).scalarAt p = some s →
    ((Nested.dict event).isUnder (sensitive lowered) p →
      ∀ t, (Nested.dict (redactProcessor lowered event)).scalarAt p = some t → t = redacted) ∧
    ((Nested.dict event).isUnder (sensitive lowered) p = false →
      (Nested.dict (redactProcessor lowered event)).scalarAt p = some s)

/-- Redaction is complete on exactly the events in which every scalar under a sensitive key stands
where redaction hides it. -/
theorem redactProcessor_complete_iff (event : List (K × LogValue K A)) :
    Complete lowered event ↔ ∀ p s, (Nested.dict event).scalarAt p = some s → s ≠ redacted →
      (Nested.dict event).isUnder (sensitive lowered) p → hidesInEvent lowered p event := by
  constructor
  · intro h p s hs hne hunder
    by_contra hhidden
    have hleft := (redactProcessor_leaves lowered p event).2 (Bool.eq_false_iff.mpr hhidden)
    exact hne ((h p s hs).1 hunder s (hleft.trans hs))
  · intro h p s hs
    have hleaves := redactProcessor_leaves lowered p event
    cases hhidden : hidesInEvent lowered p event with
    | true =>
      refine ⟨fun _ => hleaves.1 hhidden, fun hfree => ?_⟩
      rw [under_of_hidesInEvent lowered hhidden] at hfree
      cases hfree
    | false =>
      have hleft := (hleaves.2 hhidden).trans hs
      refine ⟨fun hunder t ht => ?_, fun _ => hleft⟩
      by_contra hne
      have hst : s = t := Option.some.inj (hleft.symm.trans ht)
      have := h p s hs (hst ▸ hne) hunder
      rw [hhidden] at this
      cases this

/-- A list of accounts under a sensitive key of a logged payload is written out. -/
theorem redactProcessor_not_complete :
    ¬ Complete (A := Empty) id
      [("data", .dict [("account", .list [.scalar (.text "DE89370400440532013000")])])] := by
  intro h
  have hlost := (h [0, 0, 0] (.text "DE89370400440532013000") rfl).1 (by decide +kernel) _ rfl
  exact absurd hlost (by decide)

end PaymentOps.Logging
