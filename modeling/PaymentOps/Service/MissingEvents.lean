import PaymentOps.Lib.Calendar
import PaymentOps.Service.ConfirmationChain
import PaymentOps.Service.IsoSteps

/-!
# Missing account events

A lifecycle that was accepted before the cutoff and has no account entry is reported, and a case is
opened for it.  Detection runs again and again, with ingestions in between.

* `detectMissingAccountEvents` is the detection, `cutoffAt` its cutoff;
* `detect_outcome` and `detect_returns_iff`: what a detection returns, and when it returns at all;
* `Tracked`: the lifecycles returned so far are those with a case, and each has one;
* `LinkedWithin`: entries are linked to lifecycles of their own organization;
* `missingEvents_once` is about all stores and all runs, `detection_fails` about stores and windows
  for which a detection misses what is promised.
-/

namespace PaymentOps

open AccountService

variable {D : Type}

/-! ## The cutoff -/

/-- January 1st of a year, midnight UTC. -/
def instantOfYear (y : ℕ) : Instant :=
  ((Calendar.daysBeforeYear y : ℤ) - Calendar.daysBeforeYear 1970) * (24 * 3600 * 1000000)

/-- A `datetime` can hold the instant. -/
def IsDatetime (t : Instant) : Prop := instantOfYear 1 ≤ t ∧ t < instantOfYear 10000

instance (t : Instant) : Decidable (IsDatetime t) := inferInstanceAs (Decidable (_ ∧ _))

namespace AccountService

/-- `timedelta(hours=hours)` -/
def timedeltaHours (hours : ℤ) : Except ServiceError ℤ :=
  let days := hours / 24
  if days < -2 ^ 31 ∨ 2 ^ 31 ≤ days then
    .error (.overflowError "Python int too large to convert to C int")
  else if 999999999 < days ∨ days < -999999999 then
    .error (.overflowError
      ("days=" ++ toString days ++ "; must have magnitude <= 999999999"))
  else .ok (hours * (3600 * 1000000))

/-- `datetime.now(UTC) - timedelta(hours=window_hours)` -/
def cutoffAt (now : Instant) (windowHours : ℤ) : Except ServiceError Instant := do
  let window ← timedeltaHours windowHours
  if IsDatetime (now - window) then .ok (now - window)
  else .error (.overflowError "date value out of range")

/-! ## Detection -/

/-- An account event is expected within this many hours of acceptance. -/
def defaultAccountWindowHours : ℤ := 48

/-- The `lifecycle_id` of each row of `payment_lifecycles`, which is unique. -/
structure LifecycleIds where
  value : ℕ → String
  injective : Function.Injective value

/-- The lifecycle of the organization was accepted, and created before the cutoff. -/
def acceptedBefore (org : String) (cutoff : Instant) (l : PaymentLifecycleRow) : Bool :=
  l.organizationId == org && l.currentStatus == "ACCEPTED" && l.createdAt < cutoff

/-- The entry of the organization is linked to the lifecycle. -/
def linkedTo (org : String) (lifecycleId : ℕ) (e : AccountEntryRow) : Bool :=
  e.organizationId == org && e.lifecycleId == some lifecycleId

/-- The id of the case of a lifecycle. -/
def missingCaseId (lifecycleId : String) : String := "case-missing-" ++ lifecycleId

/-- The store with the case of a lifecycle. -/
def withMissingCase (org lifecycleId : String) (s : Store D) : Store D :=
  { s with
    cases := s.cases ++ [{
      caseId := missingCaseId lifecycleId, organizationId := org
      messageType := "MISSING_ACCOUNT_EVENT", status := "REVIEW_REQUIRED" }] }

section

variable (env : Env D) (ids : LifecycleIds) (org : String)

/-- The body of the loop over the lifecycles. -/
def detectLifecycle (flagged : List String) (lifecycle : ℕ × PaymentLifecycleRow) :
    Service D (List String) := do
  let hasEvent ← Session.read fun s => env.entryOrder.first s (linkedTo org lifecycle.1)
  if hasEvent.isSome then pure flagged
  else do
    let lifecycleId := ids.value lifecycle.1
    ensureWith org (missingCaseId lifecycleId) (withMissingCase org lifecycleId)
    pure (flagged ++ [lifecycleId])

/-- Lifecycles that reached ACCEPTED but have no account event within the window. -/
def detectMissingAccountEvents (now : Instant)
    (windowHours : ℤ := defaultAccountWindowHours) : Service D (List String) := do
  let cutoff ← .ofExcept (cutoffAt now windowHours)
  let lifecycles ← .read fun s => env.lifecycleOrder.select s (acceptedBefore org cutoff)
  Session.fold (detectLifecycle env ids org) [] lifecycles

end

/-- The lifecycle of the organization was accepted, was created before the cutoff, and has no entry
of the organization. -/
def Unreported (org : String) (cutoff : Instant) (s : Store D) (key : ℕ) : Prop :=
  ∃ l, s.lifecycles[key]? = some l ∧ l.organizationId = org ∧ l.currentStatus = "ACCEPTED" ∧
    l.createdAt < cutoff ∧ ∀ e ∈ s.accountEntries, e.organizationId = org →
      e.lifecycleId ≠ some key

/-! ## One lifecycle -/

section

variable {env : Env D} {ids : LifecycleIds} {org : String} {cutoff : Instant} {s : Store D}
  {flagged : List String} {l : ℕ × PaymentLifecycleRow}

/-- The organization has an entry on the lifecycle. -/
def HasEvent (org : String) (key : ℕ) (s : Store D) : Prop :=
  ∃ e ∈ s.accountEntries, linkedTo org key e

instance (key : ℕ) : Decidable (HasEvent org key s) :=
  inferInstanceAs (Decidable (∃ e ∈ _, _))

theorem detectLifecycle_run : (detectLifecycle env ids org flagged l).run s =
    if HasEvent org l.1 s then ⟨[], .ok flagged⟩
    else (ensureWith org (missingCaseId (ids.value l.1))
      (withMissingCase org (ids.value l.1)) >>= fun _ =>
        pure (flagged ++ [ids.value l.1])).run s := by
  have hfound : (env.entryOrder.first s (linkedTo org l.1)).isSome ↔ HasEvent org l.1 s := by
    rw [Option.isSome_iff_ne_none, ne_eq, RowOrder.first_eq_none]
    simp [HasEvent]
  rw [detectLifecycle, Session.read_bind]
  by_cases h : HasEvent org l.1 s
  · rw [if_pos h, if_pos (hfound.mpr h)]
    rfl
  · rw [if_neg h, if_neg (mt hfound.mp h)]

/-- An iteration passes over a lifecycle with an event, flags one that has its case, opens the case
of one that is free, or fails on the case of another organization. -/
theorem detectLifecycle_cases (env : Env D) (ids : LifecycleIds) (org : String)
    (flagged : List String) (l : ℕ × PaymentLifecycleRow) (s : Store D) :
    (HasEvent org l.1 s ∧ (detectLifecycle env ids org flagged l).run s = ⟨[], .ok flagged⟩) ∨
      ¬ HasEvent org l.1 s ∧
        ((HasCase org (missingCaseId (ids.value l.1)) s ∧
            (detectLifecycle env ids org flagged l).run s =
              ⟨[], .ok (flagged ++ [ids.value l.1])⟩) ∨
          (¬ CaseTaken (missingCaseId (ids.value l.1)) s ∧
            (detectLifecycle env ids org flagged l).run s =
              ⟨[withMissingCase org (ids.value l.1) s], .ok (flagged ++ [ids.value l.1])⟩) ∨
          (CaseTaken (missingCaseId (ids.value l.1)) s ∧
            ¬ HasCase org (missingCaseId (ids.value l.1)) s ∧
            (detectLifecycle env ids org flagged l).run s =
              ⟨[], .error (.integrityError "payment_cases.case_id")⟩)) := by
  rw [detectLifecycle_run]
  by_cases hevent : HasEvent org l.1 s
  · exact .inl ⟨hevent, if_pos hevent⟩
  · rw [if_neg hevent, Session.bind_apply]
    refine .inr ⟨hevent, ?_⟩
    by_cases htaken : CaseTaken (missingCaseId (ids.value l.1)) s
    · by_cases hown : HasCase org (missingCaseId (ids.value l.1)) s
      · rw [ensureWith_known hown]
        exact .inl ⟨hown, rfl⟩
      · rw [ensureWith_taken htaken hown]
        exact .inr (.inr ⟨htaken, hown, rfl⟩)
    · rw [ensureWith_free htaken]
      exact .inr (.inl ⟨htaken, rfl⟩)

/-- Opening a case leaves the events as they are. -/
theorem detectLifecycle_spec (env : Env D) (ids : LifecycleIds) (org : String)
    (flagged : List String) (l : ℕ × PaymentLifecycleRow) (s : Store D) :
    Session.Triple (fun t => t.accountEntries = s.accountEntries)
      (detectLifecycle env ids org flagged l) (fun t => t.accountEntries = s.accountEntries)
      fun flagged' t => t.accountEntries = s.accountEntries ∧
        flagged' = flagged ++ if HasEvent org l.1 s then [] else [ids.value l.1] := by
  intro t ht
  have hsame : HasEvent org l.1 t ↔ HasEvent org l.1 s := by
    rw [HasEvent, HasEvent, ht]
  rcases detectLifecycle_cases env ids org flagged l t with
    ⟨hevent, hrun⟩ | ⟨hevent, ⟨-, hrun⟩ | ⟨-, hrun⟩ | ⟨-, -, hrun⟩⟩
  · rw [hrun, if_pos (hsame.mp hevent)]
    exact ⟨by simp, fun _ h => by cases h; exact ⟨ht, (List.append_nil _).symm⟩⟩
  · rw [hrun, if_neg (mt hsame.mpr hevent)]
    exact ⟨by simp, fun _ h => by cases h; exact ⟨ht, rfl⟩⟩
  · rw [hrun, if_neg (mt hsame.mpr hevent)]
    refine ⟨fun c hc => ?_, fun _ h => by cases h; exact ⟨ht, rfl⟩⟩
    rw [List.mem_singleton.mp hc]
    exact ht
  · rw [hrun]
    exact ⟨by simp, nofun⟩

/-! ## All lifecycles -/

/-- Opening the case of one lifecycle makes no case of another organization. -/
theorem taken_withMissingCase {key caseId : String} (hfree : ¬ CaseTaken (missingCaseId key) s) :
    (CaseTaken caseId (withMissingCase org key s) →
        HasCase org caseId (withMissingCase org key s)) ↔
      (CaseTaken caseId s → HasCase org caseId s) := by
  have htaken : CaseTaken caseId (withMissingCase org key s) ↔
      CaseTaken caseId s ∨ missingCaseId key = caseId := by
    simp [CaseTaken, withMissingCase, or_and_right, exists_or]
  have hown : HasCase org caseId (withMissingCase org key s) ↔
      HasCase org caseId s ∨ missingCaseId key = caseId := by
    simp [HasCase, withMissingCase, or_and_right, exists_or]
  rw [htaken, hown]
  by_cases hkey : missingCaseId key = caseId
  · subst hkey
    exact iff_of_true (fun _ => .inr rfl) fun h => absurd h hfree
  · simp only [hkey, or_false]

/-- The loop gets to its end exactly when the organization has every case that is taken. -/
theorem detectLoop_returns_iff (rows : List (ℕ × PaymentLifecycleRow)) (flagged : List String)
    (s : Store D) :
    (∃ r, ((Session.fold (detectLifecycle env ids org) flagged rows).run s).outcome = .ok r) ↔
      ∀ l ∈ rows, ¬ HasEvent org l.1 s → CaseTaken (missingCaseId (ids.value l.1)) s →
        HasCase org (missingCaseId (ids.value l.1)) s := by
  induction rows generalizing flagged s with
  | nil => simp
  | cons l rows ih =>
    rw [Session.fold_cons, List.forall_mem_cons, Session.bind_apply]
    rcases detectLifecycle_cases env ids org flagged l s with
      ⟨hevent, hrun⟩ | ⟨hevent, ⟨hown, hrun⟩ | ⟨hfree, hrun⟩ | ⟨htaken, hown, hrun⟩⟩
    · rw [hrun, and_iff_right fun h => absurd hevent h]
      exact ih flagged s
    · rw [hrun, and_iff_right fun _ _ => hown]
      exact ih _ s
    · rw [hrun, and_iff_right fun _ h => absurd h hfree]
      refine (ih _ (withMissingCase org (ids.value l.1) s)).trans ?_
      exact forall₂_congr fun _ _ => imp_congr_right fun _ => taken_withMissingCase hfree
    · rw [hrun]
      exact iff_of_false (by simp) fun h => hown (h.1 hevent htaken)

/-- The lifecycles that the loop passes over are those with an event. -/
theorem unreported_iff (env : Env D) {key : ℕ} : Unreported org cutoff s key ↔
    (∃ l, (key, l) ∈ env.lifecycleOrder.select s (acceptedBefore org cutoff)) ∧
      ¬ HasEvent org key s := by
  have hevent : ¬ HasEvent org key s ↔ ∀ e ∈ s.accountEntries, e.organizationId = org →
      e.lifecycleId ≠ some key := by
    simp [HasEvent, linkedTo]
  rw [hevent]
  simp only [Unreported, RowOrder.mem_select, acceptedBefore, Bool.and_eq_true, beq_iff_eq,
    decide_eq_true_eq]
  constructor
  · rintro ⟨l, hl, horg, hstatus, hcreated, hnone⟩
    exact ⟨⟨l, hl, ⟨horg, hstatus⟩, hcreated⟩, hnone⟩
  · rintro ⟨⟨l, hl, ⟨horg, hstatus⟩, hcreated⟩, hnone⟩
    exact ⟨l, hl, horg, hstatus, hcreated, hnone⟩

theorem flatMap_reported (rows : List (ℕ × PaymentLifecycleRow)) :
    (rows.flatMap fun l => if HasEvent org l.1 s then [] else [ids.value l.1]) =
      ((rows.filter fun l => ¬ HasEvent org l.1 s).map Prod.fst).map ids.value := by
  induction rows with
  | nil => rfl
  | cons l rows ih =>
    rw [List.flatMap_cons, ih]
    by_cases h : HasEvent org l.1 s <;> simp [h]

variable {now : Instant} {windowHours : ℤ}

theorem detect_run (hcutoff : cutoffAt now windowHours = .ok cutoff) :
    (detectMissingAccountEvents env ids org now windowHours).run s =
      (Session.fold (detectLifecycle env ids org) []
        (env.lifecycleOrder.select s (acceptedBefore org cutoff))).run s := by
  rw [detectMissingAccountEvents, hcutoff, Session.ofExcept_ok_bind, Session.read_bind]

theorem detect_error {e : ServiceError} (hcutoff : cutoffAt now windowHours = .error e) :
    (detectMissingAccountEvents env ids org now windowHours).run s = ⟨[], .error e⟩ := by
  rw [detectMissingAccountEvents, hcutoff, Session.ofExcept_error_bind]

/-- What is returned are the lifecycles without an account event, each once. -/
theorem detect_outcome
    (h : ((detectMissingAccountEvents env ids org now windowHours).run s).outcome = .ok flagged) :
    ∃ cutoff, cutoffAt now windowHours = .ok cutoff ∧ flagged.Nodup ∧
      ∀ id, id ∈ flagged ↔ ∃ key, ids.value key = id ∧ Unreported org cutoff s key := by
  cases hcutoff : cutoffAt now windowHours with
  | error e =>
    rw [detect_error hcutoff] at h
    cases h
  | ok cutoff =>
    rw [detect_run hcutoff] at h
    have hflagged := ((Session.Triple.fold_append (fun b l _ =>
      detectLifecycle_spec env ids org b l s) [] s rfl).2 flagged h).2
    rw [List.nil_append, flatMap_reported] at hflagged
    have hkeys : (((env.lifecycleOrder.select s (acceptedBefore org cutoff)).filter
        fun l => ¬ HasEvent org l.1 s).map Prod.fst).Nodup :=
      (RowOrder.select_keys_nodup _ _ _).sublist (List.filter_sublist.map _)
    refine ⟨cutoff, rfl, hflagged ▸ hkeys.map ids.injective, fun id => ?_⟩
    rw [hflagged, List.mem_map]
    refine exists_congr fun key => ?_
    rw [unreported_iff env, and_comm]
    simp

/-- A detection returns unless its cutoff is no datetime, or the case of a lifecycle without an
account event belongs to another organization. -/
theorem detect_returns_iff :
    (∃ flagged, ((detectMissingAccountEvents env ids org now windowHours).run s).outcome =
        .ok flagged) ↔
      ∃ cutoff, cutoffAt now windowHours = .ok cutoff ∧ ∀ key, Unreported org cutoff s key →
        CaseTaken (missingCaseId (ids.value key)) s →
          HasCase org (missingCaseId (ids.value key)) s := by
  cases hcutoff : cutoffAt now windowHours with
  | error e =>
    rw [detect_error hcutoff]
    exact iff_of_false nofun nofun
  | ok cutoff =>
    rw [detect_run hcutoff, detectLoop_returns_iff]
    simp only [Except.ok.injEq, exists_eq_left', unreported_iff env]
    constructor
    · rintro h key ⟨⟨l, hl⟩, hevent⟩
      exact h (key, l) hl hevent
    · intro h l hl hevent
      exact h l.1 ⟨⟨l.2, hl⟩, hevent⟩

end

/-! ## The owners of lifecycles -/

end AccountService

/-- The organization of the lifecycle. -/
def Store.owner (s : Store D) (key : ℕ) : Option String :=
  s.lifecycles[key]?.map (·.organizationId)

/-- A lifecycle keeps its organization when another one is opened. -/
theorem Store.owner_withLifecycle (row : PaymentLifecycleRow) {s : Store D} {key : ℕ}
    {org : String} (h : s.owner key = some org) :
    (IsoAnalysis.withLifecycle row s).owner key = some org := by
  obtain ⟨l, hl, horg⟩ := Option.map_eq_some_iff.mp h
  have hlt : key < s.lifecycles.length := (List.getElem?_eq_some_iff.mp hl).1
  exact Option.map_eq_some_iff.mpr ⟨l, (List.getElem?_append_left hlt).trans hl, horg⟩

/-- A lifecycle keeps its organization when its status changes. -/
theorem Store.owner_withStatus (result : IsoAnalysisResult D) (id key : ℕ) (s : Store D) :
    (IsoAnalysis.withStatus result id s).owner key = s.owner key := by
  have hset : ∀ l, (IsoAnalysis.setStatus result.normalizedStatus l).organizationId =
      l.organizationId := by
    intro l
    unfold IsoAnalysis.setStatus
    split_ifs <;> rfl
  rw [Store.owner, IsoAnalysis.withStatus, List.getElem?_modify, Store.owner]
  cases s.lifecycles[key]? with
  | none => rfl
  | some l => by_cases hid : id = key <;> simp [hid, hset]

namespace AccountService

/-! ## The cases of the lifecycles -/

/-- The lifecycles with a case are those that were returned, each has one, and the case belongs to
the organization of its lifecycle. -/
structure Tracked (ids : LifecycleIds) (returned : List String) (s : Store D) : Prop where
  once : ∀ key, s.cases.countP (·.caseId = missingCaseId (ids.value key)) =
    if ids.value key ∈ returned then 1 else 0
  owned : ∀ key, ∀ c ∈ s.cases, c.caseId = missingCaseId (ids.value key) →
    ∃ org ∈ s.owner key, c.organizationId = some org

theorem missingCaseId_injective : Function.Injective missingCaseId := by
  intro a b h
  simpa [missingCaseId] using h

/-- The case of an exception is not the case of a lifecycle. -/
theorem caseIdFor_ne (identityHash lifecycleId : String) :
    caseIdFor identityHash ≠ missingCaseId lifecycleId := by
  intro h
  have hchars := congrArg String.toList h
  rw [caseIdFor, missingCaseId, String.toList_append, String.toList_append] at hchars
  cases hchars

namespace Tracked

variable {ids : LifecycleIds} {returned : List String} {s t : Store D} {org : String} {key : ℕ}

theorem empty (h : ∀ key, ¬ CaseTaken (missingCaseId (ids.value key)) s) : Tracked ids [] s where
  once key := by
    rw [if_neg List.not_mem_nil, List.countP_eq_zero]
    exact fun c hc hid => h key ⟨c, hc, of_decide_eq_true hid⟩
  owned key c hc hid := absurd ⟨c, hc, hid⟩ (h key)

theorem congr (h : Tracked ids returned s) (hcases : t.cases = s.cases)
    (hlifecycles : t.lifecycles = s.lifecycles) : Tracked ids returned t where
  once key := hcases ▸ h.once key
  owned key := by
    rw [hcases, Store.owner, hlifecycles]
    exact h.owned key

/-- Only a lifecycle that was returned has a case. -/
theorem taken_iff (h : Tracked ids returned s) :
    CaseTaken (missingCaseId (ids.value key)) s ↔ ids.value key ∈ returned := by
  have honce := h.once key
  have hpos : CaseTaken (missingCaseId (ids.value key)) s ↔
      0 < s.cases.countP (·.caseId = missingCaseId (ids.value key)) := by
    simp [CaseTaken, List.countP_pos_iff]
  rw [hpos, honce]
  split_ifs with hmem <;> simp [hmem]

/-- The case of a lifecycle belongs to the organization of the lifecycle. -/
theorem hasCase (h : Tracked ids returned s) (howner : s.owner key = some org)
    (htaken : CaseTaken (missingCaseId (ids.value key)) s) :
    HasCase org (missingCaseId (ids.value key)) s := by
  obtain ⟨c, hc, hid⟩ := htaken
  obtain ⟨org', howner', horg⟩ := h.owned key c hc hid
  obtain rfl := Option.mem_unique howner' howner
  exact ⟨c, hc, hid, horg⟩

/-- Returning a lifecycle once more changes nothing. -/
theorem again (h : Tracked ids returned s)
    (htaken : CaseTaken (missingCaseId (ids.value key)) s) :
    Tracked ids (returned ++ [ids.value key]) s where
  once key' := by
    have hmem := h.taken_iff.mp htaken
    have hsame : ids.value key' ∈ returned ++ [ids.value key] ↔ ids.value key' ∈ returned := by
      rw [List.mem_append, List.mem_singleton]
      exact or_iff_left_of_imp fun heq => heq ▸ hmem
    rw [h.once key']
    exact if_congr hsame.symm rfl rfl
  owned := h.owned

/-- The lifecycle that is returned for the first time gets its case. -/
theorem opened (h : Tracked ids returned s) (howner : s.owner key = some org)
    (hfree : ¬ CaseTaken (missingCaseId (ids.value key)) s) :
    Tracked ids (returned ++ [ids.value key]) (withMissingCase org (ids.value key) s) where
  once key' := by
    have hcount := h.once key'
    have hnew := mt h.taken_iff.mpr hfree
    rw [withMissingCase, List.countP_append, hcount, List.countP_singleton]
    by_cases hkey : key = key'
    · subst hkey
      simp [hnew]
    · have hid : ids.value key ≠ ids.value key' := fun heq => hkey (ids.injective heq)
      have hcase : missingCaseId (ids.value key) ≠ missingCaseId (ids.value key') :=
        fun heq => hid (missingCaseId_injective heq)
      simp [hcase, hid.symm]
  owned key' c hc hid := by
    rcases List.mem_append.mp hc with hc | hc
    · exact h.owned key' c hc hid
    · obtain rfl := List.mem_singleton.mp hc
      obtain rfl := ids.injective (missingCaseId_injective hid)
      exact ⟨org, howner, rfl⟩

/-- The case of an exception changes nothing. -/
theorem withCase (h : Tracked ids returned s) (entryId : ℕ)
    (identityHash classification : String) :
    Tracked ids returned (AccountService.withCase org entryId identityHash classification s) where
  once key := by
    have hid := caseIdFor_ne identityHash (ids.value key)
    rw [AccountService.withCase, List.countP_append, h.once key, List.countP_singleton]
    simp [exceptionCase, hid]
  owned key c hc hid := by
    rcases List.mem_append.mp hc with hc | hc
    · exact h.owned key c hc hid
    · obtain rfl := List.mem_singleton.mp hc
      exact absurd hid (caseIdFor_ne _ _)

theorem withLifecycle (h : Tracked ids returned s) (row : PaymentLifecycleRow) :
    Tracked ids returned (IsoAnalysis.withLifecycle row s) where
  once := h.once
  owned key c hc hid := by
    obtain ⟨org, howner, horg⟩ := h.owned key c hc hid
    exact ⟨org, Store.owner_withLifecycle row howner, horg⟩

theorem withStatus (h : Tracked ids returned s) (result : IsoAnalysisResult D) (id : ℕ) :
    Tracked ids returned (IsoAnalysis.withStatus result id s) where
  once := h.once
  owned key c hc hid := by
    obtain ⟨org, howner, horg⟩ := h.owned key c hc hid
    exact ⟨org, (Store.owner_withStatus result id key s).trans howner, horg⟩

/-- Account reports open no case of a lifecycle. -/
theorem ingestAccountReport (env : Env D) (org : String) (reports : List AccountReport)
    (iso : Option ℕ) :
    Session.Keeps (Tracked ids returned)
      (AccountService.ingestAccountReport env org reports iso) := by
  apply ingestAccountReport_invariant
  · exact fun _ _ hs => hs.congr rfl rfl
  · exact fun _ _ hs => hs.congr rfl rfl
  · intro report reportId entry
    apply ingestEntry_invariant
    · exact fun _ _ hs => hs.congr rfl rfl
    · exact fun _ _ hs => hs.congr rfl rfl
    · exact fun _ _ hs => hs.congr rfl rfl
    · intro entryId identityHash classification
      rw [ensureCase_eq]
      apply ensureWith_invariant
      exact fun s hs _ => hs.withCase entryId identityHash classification

/-- A message opens no case of a lifecycle, and leaves each lifecycle to its organization. -/
theorem analyzeIsoMessage [DecidableEq D] (env : Env D) (org : String)
    (pipeline : AnalysisPipeline) (payload : List UInt8) (clock : Instant) :
    Session.Keeps (Tracked ids returned)
      (IsoAnalysis.analyzeIsoMessage env org pipeline payload clock) := by
  apply IsoAnalysis.analyzeIsoMessage_invariant
  · exact fun _ _ hs => hs.congr rfl rfl
  · intro result _ isoId messageHash
    apply IsoAnalysis.correlateAndBuildLifecycle_invariant
    · exact fun _ _ hs => hs.congr rfl rfl
    · exact fun _ id hs => hs.withStatus result id
    · exact fun _ _ _ _ hs => hs.withLifecycle _
  · exact ingestAccountReport env org

/-- An iteration over a lifecycle of the organization flags it together with its case. -/
theorem detectLifecycle (env : Env D) {rows : List PaymentLifecycleRow}
    {l : ℕ × PaymentLifecycleRow} (hl : rows[l.1]?.map (·.organizationId) = some org)
    (flagged : List String) :
    Session.Triple (fun s => Tracked ids (returned ++ flagged) s ∧ s.lifecycles = rows)
      (AccountService.detectLifecycle env ids org flagged l) (fun _ => True)
      fun flagged' s => Tracked ids (returned ++ flagged') s ∧ s.lifecycles = rows := by
  rintro s ⟨htracked, rfl⟩
  rcases detectLifecycle_cases env ids org flagged l s with
    ⟨-, hrun⟩ | ⟨-, ⟨hown, hrun⟩ | ⟨hfree, hrun⟩ | ⟨-, -, hrun⟩⟩
  · rw [hrun]
    exact ⟨fun _ _ => trivial, fun _ h => by cases h; exact ⟨htracked, rfl⟩⟩
  · rw [hrun]
    refine ⟨fun _ _ => trivial, fun _ h => ?_⟩
    cases h
    rw [← List.append_assoc]
    exact ⟨htracked.again hown.taken, rfl⟩
  · rw [hrun]
    refine ⟨fun _ _ => trivial, fun _ h => ?_⟩
    cases h
    rw [← List.append_assoc]
    exact ⟨htracked.opened hl hfree, rfl⟩
  · rw [hrun]
    exact ⟨fun _ _ => trivial, nofun⟩

variable {env : Env D} {now : Instant} {windowHours : ℤ} {flagged : List String}

/-- No lifecycle of the organization has the case of another one, so a detection returns. -/
theorem detect_returns (h : Tracked ids returned s) (env : Env D) (org : String)
    {cutoff : Instant} (hcutoff : cutoffAt now windowHours = .ok cutoff) :
    ∃ flagged, ((detectMissingAccountEvents env ids org now windowHours).run s).outcome =
      .ok flagged := by
  refine detect_returns_iff.mpr ⟨cutoff, hcutoff, ?_⟩
  rintro key ⟨l, hl, horg, -⟩ htaken
  exact h.hasCase (Option.map_eq_some_iff.mpr ⟨l, hl, horg⟩) htaken

/-- What a detection returns has its cases when it ends. -/
theorem detect (h : Tracked ids returned s)
    (hok : ((detectMissingAccountEvents env ids org now windowHours).run s).outcome =
      .ok flagged) :
    Tracked ids (returned ++ flagged)
      (((detectMissingAccountEvents env ids org now windowHours).run s).final s) := by
  cases hcutoff : cutoffAt now windowHours with
  | error e =>
    rw [detect_error hcutoff] at hok
    cases hok
  | ok cutoff =>
    rw [detect_run hcutoff] at hok ⊢
    have hrows : ∀ l ∈ env.lifecycleOrder.select s (acceptedBefore org cutoff),
        s.lifecycles[l.1]?.map (·.organizationId) = some org := by
      intro l hl
      obtain ⟨hrow, haccepted⟩ := RowOrder.mem_select.mp hl
      simp only [acceptedBefore, Bool.and_eq_true, beq_iff_eq] at haccepted
      exact Option.map_eq_some_iff.mpr ⟨l.2, hrow, haccepted.1.1⟩
    have hloop := Session.Triple.fold
      (I := fun b t => Tracked ids (returned ++ b) t ∧ t.lifecycles = s.lifecycles)
      (fun b l hl => detectLifecycle env (hrows l hl) b) []
    have hstart : Tracked ids (returned ++ []) s ∧ s.lifecycles = s.lifecycles := by
      rw [List.append_nil]
      exact ⟨h, rfl⟩
    exact ((hloop s hstart).2 flagged hok).1

end Tracked

/-! ## Entries on the lifecycles of their organization -/

/-- An entry is linked to a lifecycle of its organization only. -/
def LinkedWithin (s : Store D) : Prop :=
  ∀ e ∈ s.accountEntries, ∀ key, e.lifecycleId = some key → s.owner key = some e.organizationId

/-- The lifecycle of the organization was accepted, was created before the cutoff, and no entry at
all is linked to it. -/
def Unlinked (org : String) (cutoff : Instant) (s : Store D) (key : ℕ) : Prop :=
  ∃ l, s.lifecycles[key]? = some l ∧ l.organizationId = org ∧ l.currentStatus = "ACCEPTED" ∧
    l.createdAt < cutoff ∧ ∀ e ∈ s.accountEntries, e.lifecycleId ≠ some key

namespace LinkedWithin

variable {s t : Store D} {org : String} {cutoff : Instant} {key : ℕ}

theorem congr (h : LinkedWithin s) (hentries : t.accountEntries = s.accountEntries)
    (howner : ∀ key org, s.owner key = some org → t.owner key = some org) : LinkedWithin t := by
  intro e he key hkey
  exact howner key _ (h e (hentries ▸ he) key hkey)

/-- What links no entry to a lifecycle of another organization asks about all entries. -/
theorem unreported_iff (h : LinkedWithin s) : Unreported org cutoff s key ↔
    Unlinked org cutoff s key := by
  refine exists_congr fun l => and_congr_right fun hl => and_congr_right fun horg =>
    and_congr_right fun _ => and_congr_right fun _ => forall₂_congr fun e he => ?_
  refine ⟨fun hown hkey => hown ?_ hkey, fun hkey _ => hkey⟩
  have howner : s.owner key = some org := Option.map_eq_some_iff.mpr ⟨l, hl, horg⟩
  exact Option.some.inj ((h e he key hkey).symm.trans howner)

/-- A step links its entry to a lifecycle that it finds, or as an earlier entry is linked. -/
theorem finalRow {env : Env D} {st : EntryStep D} (h : LinkedWithin st.before)
    (hkey : (st.finalRow env).lifecycleId = some key) : st.before.owner key = some st.org := by
  unfold EntryStep.finalRow at hkey
  rcases hexisting : st.existing env with _ | ⟨i, e⟩
  · rcases hlifecycle : st.lifecycle env with _ | ⟨id, l⟩
    · rw [hexisting, hlifecycle] at hkey
      cases hkey
    · rw [hexisting, hlifecycle] at hkey
      cases hkey
      rw [EntryStep.lifecycle, hexisting] at hlifecycle
      obtain ⟨hl, hmatches⟩ := RowOrder.first_some hlifecycle
      simp only [entryMatches, Bool.and_eq_true, beq_iff_eq] at hmatches
      exact Option.map_eq_some_iff.mpr ⟨l, hl, hmatches.1⟩
  · rw [hexisting] at hkey
    obtain ⟨he, hidentity⟩ := RowOrder.first_some hexisting
    simp only [hasIdentity, Bool.and_eq_true, beq_iff_eq] at hidentity
    rw [← hidentity.1]
    exact h e (List.mem_of_getElem? he) key hkey

theorem ingestEntry (env : Env D) (org : String) (report : AccountReport) (reportId : ℕ)
    (entry : AccountEntry) :
    Session.Keeps LinkedWithin (AccountService.ingestEntry env org report reportId entry) := by
  refine .of_commits fun s hs c hc => ?_
  have hlifecycles : c.lifecycles = s.lifecycles :=
    ingestEntry_leaves (g := Store.lifecycles)
      ⟨fun _ _ => rfl, fun _ _ => rfl, fun _ _ => rfl, fun _ _ _ => rfl⟩ env org report reportId
      entry s c hc
  have howner : ∀ key, c.owner key = s.owner key := fun key => by
    rw [Store.owner, Store.owner, hlifecycles]
  obtain ⟨st, hst, rfl, rfl⟩ : ∃ st : EntryStep D,
      c ∈ (st.exec env).commits ∧ st.before = s ∧ st.org = org :=
    ⟨⟨org, report, reportId, entry, s⟩, hc, rfl, rfl⟩
  intro e he key hkey
  rw [howner]
  rcases EntryStep.exec_commits c hst with hentries | hentries
  · rw [hentries] at he
    rcases List.mem_append.mp he with he | he
    · exact hs e he key hkey
    · obtain rfl := List.mem_singleton.mp he
      cases hkey
  · rw [hentries] at he
    rcases List.mem_append.mp he with he | he
    · exact hs e he key hkey
    · obtain rfl := List.mem_singleton.mp he
      rw [EntryStep.finalRow_booking.1]
      exact finalRow hs hkey

theorem ingestAccountReport (env : Env D) (org : String) (reports : List AccountReport)
    (iso : Option ℕ) :
    Session.Keeps LinkedWithin (AccountService.ingestAccountReport env org reports iso) := by
  apply ingestAccountReport_invariant
  · exact fun _ _ hs => hs.congr rfl fun _ _ h => h
  · exact fun _ _ hs => hs.congr rfl fun _ _ h => h
  · exact ingestEntry env org

theorem analyzeIsoMessage [DecidableEq D] (env : Env D) (org : String)
    (pipeline : AnalysisPipeline) (payload : List UInt8) (clock : Instant) :
    Session.Keeps LinkedWithin
      (IsoAnalysis.analyzeIsoMessage env org pipeline payload clock) := by
  apply IsoAnalysis.analyzeIsoMessage_invariant
  · exact fun _ _ hs => hs.congr rfl fun _ _ h => h
  · intro result _ isoId messageHash
    apply IsoAnalysis.correlateAndBuildLifecycle_invariant
    · exact fun _ _ hs => hs.congr rfl fun _ _ h => h
    · exact fun s id hs => hs.congr rfl fun key _ h =>
        (Store.owner_withStatus result id key s).trans h
    · exact fun _ _ _ _ hs => hs.congr rfl fun _ _ h => Store.owner_withLifecycle _ h
  · exact ingestAccountReport env org

/-- A detection opens cases only. -/
theorem detect (env : Env D) (ids : LifecycleIds) (org : String) (now : Instant)
    (windowHours : ℤ) :
    Session.Keeps LinkedWithin (detectMissingAccountEvents env ids org now windowHours) := by
  have hcase : ∀ lifecycleId, Session.Keeps LinkedWithin
      (ensureWith org (missingCaseId lifecycleId) (withMissingCase org lifecycleId) :
        Service D Unit) := by
    intro lifecycleId
    apply ensureWith_invariant
    exact fun s hs _ => hs.congr rfl fun _ _ h => h
  exact .bind (.ofExcept _) fun cutoff => .bind (.read _) fun rows =>
    .fold (fun flagged l _ => .bind (.read _) fun found =>
      .ite (.pure _) (.bind (hcase _) fun _ => .pure _)) []

end LinkedWithin

/-! ## Runs -/

/-- What is called on the store.  The endpoint and the worker's task make the same detection. -/
inductive Operation where
  | detect (org : String) (now : Instant) (windowHours : ℤ)
  | ingest (i : Ingestion)
  | message (org : String) (pipeline : AnalysisPipeline) (payload : List UInt8) (clock : Instant)

/-- A call that raises returns no lifecycle. -/
def answer (e : Exec (Store D) ServiceError (List String)) : List String :=
  e.outcome.toOption.getD []

section

variable [DecidableEq D] (env : Env D) (ids : LifecycleIds)

/-- The lifecycles that a call returns. -/
def perform : Operation → Service D (List String)
  | .detect org now windowHours => detectMissingAccountEvents env ids org now windowHours
  | .ingest i => do
    ingest env i
    pure []
  | .message org pipeline payload clock => do
    let _ ← IsoAnalysis.analyzeIsoMessage env org pipeline payload clock
    pure []

/-- The lifecycles that the calls of a run return. -/
def returned (ops : List Operation) (s : Store D) : List String :=
  (Session.calls (perform env ids) ops s).flatMap fun c => answer ((perform env ids c.1).run c.2)

end

/-- No lifecycle has a case, and entries are linked to lifecycles of their organization only. -/
structure Fresh (ids : LifecycleIds) (s : Store D) : Prop where
  free : ∀ key, ¬ CaseTaken (missingCaseId (ids.value key)) s
  linked : LinkedWithin s

/-- The list has the ids of the lifecycles with `P`, each once. -/
structure Lists (ids : LifecycleIds) (P : ℕ → Prop) (flagged : List String) : Prop where
  nodup : flagged.Nodup
  mem_iff : ∀ id, id ∈ flagged ↔ ∃ key, ids.value key = id ∧ P key

/-- The detection returns the lifecycles without any entry, each once. -/
def Detects (env : Env D) (ids : LifecycleIds) (org : String) (now : Instant) (windowHours : ℤ)
    (s : Store D) : Prop :=
  ∃ flagged cutoff,
    ((detectMissingAccountEvents env ids org now windowHours).run s).outcome = .ok flagged ∧
      cutoffAt now windowHours = .ok cutoff ∧ Lists ids (Unlinked org cutoff s) flagged

section

variable {env : Env D} {ids : LifecycleIds} {returned : List String} {s : Store D}

/-- A call that returns no lifecycle. -/
theorem Tracked.silent {α : Type} {m : Service D α} (hm : Session.Keeps (Tracked ids returned) m)
    (h : Tracked ids returned s) :
    Tracked ids (returned ++ answer ((m >>= fun _ => pure []).run s))
      (((m >>= fun _ => (pure [] : Service D (List String))).run s).final s) := by
  have hsilent : answer ((m >>= fun _ => pure []).run s) = [] := by
    rw [answer, Session.bind_apply]
    cases (m.run s).outcome <;> rfl
  rw [hsilent, List.append_nil]
  exact (hm.bind fun _ => .pure _).final h

variable [DecidableEq D]

/-- What a call returns has its cases when it ends. -/
theorem Tracked.perform (h : Tracked ids returned s) (env : Env D) (op : Operation) :
    Tracked ids (returned ++ answer ((AccountService.perform env ids op).run s))
      (((AccountService.perform env ids op).run s).final s) := by
  cases op with
  | ingest i => exact silent (ingestAccountReport env i.org i.reports i.isoMessageId) h
  | message org pipeline payload clock =>
    exact silent (analyzeIsoMessage env org pipeline payload clock) h
  | detect org now windowHours =>
    rw [answer, AccountService.perform]
    cases hok : ((detectMissingAccountEvents env ids org now windowHours).run s).outcome with
    | ok flagged => exact h.detect hok
    | error e =>
      -- only the cutoff can fail, and nothing is committed before it
      cases hcutoff : cutoffAt now windowHours with
      | ok cutoff =>
        obtain ⟨flagged, hreturns⟩ := h.detect_returns env org hcutoff
        cases hreturns.symm.trans hok
      | error e =>
        rw [detect_error hcutoff]
        exact (List.append_nil returned).symm ▸ h

theorem LinkedWithin.perform (h : LinkedWithin s) (op : Operation) :
    LinkedWithin (((AccountService.perform env ids op).run s).final s) := by
  cases op with
  | ingest i =>
    exact ((ingestAccountReport env i.org i.reports i.isoMessageId).bind fun _ => .pure _).final h
  | message org pipeline payload clock =>
    exact ((analyzeIsoMessage env org pipeline payload clock).bind fun _ => .pure _).final h
  | detect org now windowHours => exact (detect env ids org now windowHours).final h

/-- After a run the lifecycles with a case are those that were returned. -/
theorem Tracked.run (h : Tracked ids returned s) (env : Env D) (ops : List Operation) :
    Tracked ids (returned ++ AccountService.returned env ids ops s)
      (Session.after (AccountService.perform env ids) ops s) := by
  induction ops generalizing returned s with
  | nil => exact (List.append_nil returned).symm ▸ h
  | cons op ops ih =>
    have hrest := ih (h.perform env op)
    rw [List.append_assoc] at hrest
    exact hrest

/-- The calls of a run start in stores where the cases are tracked and the entries linked. -/
theorem Fresh.calls (h : Fresh ids s) (ops : List Operation) :
    ∀ c ∈ Session.calls (perform env ids) ops s,
      (∃ returned, Tracked ids returned c.2) ∧ LinkedWithin c.2 := by
  refine Session.calls_of_final (I := fun t => (∃ returned, Tracked ids returned t) ∧
    LinkedWithin t) ⟨⟨[], .empty h.free⟩, h.linked⟩ fun c _ hc => ?_
  obtain ⟨⟨returned, htracked⟩, hlinked⟩ := hc
  exact ⟨⟨_, htracked.perform env c.1⟩, hlinked.perform c.1⟩

end

/-- In every store a detection that returns has the lifecycles without an entry of the
organization, and it returns unless its cutoff is no datetime or another organization has one of
the cases.  In every run of detections and ingestions each detection with a cutoff has the
lifecycles without any entry, and in the end the lifecycles that were returned have one case each
and no other has one. -/
theorem missingEvents_once [DecidableEq D] (env : Env D) (ids : LifecycleIds) :
    (∀ (org : String) (now : Instant) (windowHours : ℤ) (s : Store D),
      (∀ flagged,
        ((detectMissingAccountEvents env ids org now windowHours).run s).outcome = .ok flagged →
          ∃ cutoff, cutoffAt now windowHours = .ok cutoff ∧
            Lists ids (Unreported org cutoff s) flagged) ∧
      ((∃ flagged,
        ((detectMissingAccountEvents env ids org now windowHours).run s).outcome = .ok flagged) ↔
          ∃ cutoff, cutoffAt now windowHours = .ok cutoff ∧ ∀ key, Unreported org cutoff s key →
            CaseTaken (missingCaseId (ids.value key)) s →
              HasCase org (missingCaseId (ids.value key)) s)) ∧
    ∀ (s : Store D) (ops : List Operation), Fresh ids s →
      (∀ org now windowHours cutoff t,
        (.detect org now windowHours, t) ∈ Session.calls (perform env ids) ops s →
          cutoffAt now windowHours = .ok cutoff → Detects env ids org now windowHours t) ∧
      ∀ key, (Session.after (perform env ids) ops s).cases.countP
          (·.caseId = missingCaseId (ids.value key)) =
        if ids.value key ∈ returned env ids ops s then 1 else 0 := by
  refine ⟨fun org now windowHours s => ⟨fun flagged h => ?_, detect_returns_iff⟩,
    fun s ops hfresh => ⟨fun org now windowHours cutoff t hcall hcutoff => ?_, fun key => ?_⟩⟩
  · obtain ⟨cutoff, hcutoff, hnodup, hmem⟩ := detect_outcome h
    exact ⟨cutoff, hcutoff, hnodup, hmem⟩
  · obtain ⟨⟨returned, htracked⟩, hlinked⟩ := hfresh.calls ops _ hcall
    obtain ⟨flagged, hok⟩ := htracked.detect_returns env org hcutoff
    obtain ⟨cutoff', hcutoff', hnodup, hmem⟩ := detect_outcome hok
    obtain rfl := Except.ok.inj (hcutoff.symm.trans hcutoff')
    refine ⟨flagged, cutoff, hok, hcutoff, hnodup, fun id => (hmem id).trans ?_⟩
    exact exists_congr fun key => and_congr_right fun _ => hlinked.unreported_iff
  · have htracked := (Tracked.empty hfresh.free).run env ops
    rw [List.nil_append] at htracked
    exact htracked.once key

/-- Ids of different lengths. -/
def sampleIds : LifecycleIds where
  value key := "life-" ++ String.ofList (List.replicate (key + 1) '0')
  injective a b h := by
    have hlength := congrArg String.length h
    simp only [String.length_append, String.length_ofList, List.length_replicate] at hlength
    omega

/-- The payment `E-1` is accepted. -/
def acceptedStore : Store Digest where
  lifecycles := [{
    organizationId := "org", endToEndId := some "E-1", amountMinor := some 100
    currency := some "EUR", currentStatus := "ACCEPTED", createdAt := 0 }]

theorem acceptedStore_fresh : Fresh sampleIds acceptedStore where
  free key := by
    rintro ⟨c, hc, -⟩
    cases hc
  linked e he := by cases he

/-- Three days later. -/
def sampleClock : Instant := 3 * 24 * 3600 * 1000000

/-- The statement arrives after two detections, and before a third one. -/
def sampleRun : List Operation :=
  [.detect "org" sampleClock defaultAccountWindowHours,
    .detect "org" sampleClock defaultAccountWindowHours,
    .ingest ⟨"org", [sampleReport .statement], none⟩,
    .detect "org" sampleClock defaultAccountWindowHours]

theorem missingEvents_once_sample :
    returned (.insertion .structural) sampleIds sampleRun acceptedStore = ["life-0", "life-0"] ∧
      (Session.after (perform (.insertion .structural) sampleIds) sampleRun
        acceptedStore).cases.countP (·.caseId = missingCaseId "life-0") = 1 := by
  have hreturned : returned (.insertion .structural) sampleIds sampleRun acceptedStore =
      ["life-0", "life-0"] := by decide +kernel
  have hcount := ((missingEvents_once (.insertion .structural) sampleIds).2 acceptedStore
    sampleRun acceptedStore_fresh).2 0
  rw [hreturned] at hcount
  exact ⟨hreturned, hcount⟩

/-- Another organization has an entry on the lifecycle. -/
def linkedElsewhere : Store Digest :=
  { acceptedStore with
    accountEntries := [{ entryToRow "other" { endToEndId := some "E-1" } 0 "" with
      lifecycleId := some 0 }] }

/-- Another organization has the case of the lifecycle. -/
def caseElsewhere : Store Digest := withMissingCase "other" "life-0" acceptedStore

/-- A window may be too wide for a cutoff, an entry of another organization is not seen, and the
case of another organization is in the way. -/
theorem detection_fails :
    ¬ Detects (.insertion .structural) sampleIds "org" sampleClock 100000000 ({} : Store Digest) ∧
      ¬ Detects (.insertion .structural) sampleIds "org" sampleClock 48 linkedElsewhere ∧
        ¬ Detects (.insertion .structural) sampleIds "org" sampleClock 48 caseElsewhere := by
  refine ⟨?_, ?_, ?_⟩
  · rintro ⟨flagged, cutoff, -, hcutoff, -⟩
    have herror : cutoffAt sampleClock 100000000 =
        .error (.overflowError "date value out of range") := by decide +kernel
    cases herror.symm.trans hcutoff
  · rintro ⟨flagged, cutoff, hok, -, hlists⟩
    have hflagged : ((detectMissingAccountEvents (.insertion .structural) sampleIds "org"
        sampleClock 48).run linkedElsewhere).outcome = .ok ["life-0"] := by decide +kernel
    obtain rfl := Except.ok.inj (hflagged.symm.trans hok)
    obtain ⟨key, hkey, l, -, -, -, -, hnone⟩ := (hlists.mem_iff "life-0").mp (by decide)
    obtain rfl : key = 0 := sampleIds.injective (hkey.trans (by decide))
    exact hnone _ List.mem_cons_self rfl
  · rintro ⟨flagged, cutoff, hok, -, -⟩
    have herror : ((detectMissingAccountEvents (.insertion .structural) sampleIds "org"
        sampleClock 48).run caseElsewhere).outcome =
          .error (.integrityError "payment_cases.case_id") := by decide +kernel
    cases herror.symm.trans hok

end AccountService

end PaymentOps
