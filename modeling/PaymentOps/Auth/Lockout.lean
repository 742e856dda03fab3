import PaymentOps.Auth.Users

/-!
# The lockout

A login reads the user, verifies the password against the hash that it has read, and commits the
counter of failures.  Logins at the same time count from the same number.

* `authenticate` is a login by itself, `logins` are logins at the same time;
* `lockout_holds`: no failure is lost and at most `maxFailedLogins` wrong passwords are verified
  in a row, in every run in which a login commits over the counter that it has read and a wrong
  password is verified only while the failures, with those under way, are below the limit;
* `failure_lost` is a schedule in which two failures count as one.
-/

namespace PaymentOps.Auth

open TwoStep

/-- A call of `authenticate`. -/
structure LoginAttempt where
  email : String
  password : String
  clock : Instant := 0

/-- Logins at the same time. -/
def logins (p : Primitives) (attempt : ℕ → LoginAttempt) :
    TwoStep ℕ AuthStore (AppUser × Bool) (Except AuthError AppUser) where
  read i s :=
    let user := s.userByEmail p (attempt i).email
    match checkLogin p (attempt i).clock (attempt i).password user with
    | .error e => .inl (.error e)
    | .ok r => .inr r
  write i r s :=
    let t := commitLogin (attempt i).clock r.1 r.2 s
    (loginOutcome r.1 r.2 t, t)

/-- A login that nothing interrupts is a call of the service. -/
theorem logins_alone (p : Primitives) (attempt : ℕ → LoginAttempt) (i : ℕ) (s : AuthStore) :
    let e := (authenticate p (attempt i).clock (attempt i).email (attempt i).password).run s
    (logins p attempt).alone i s = (e.outcome, e.final s) := by
  intro e
  have he : e =
      (authenticate p (attempt i).clock (attempt i).email (attempt i).password).run s := rfl
  rw [authenticate, Session.read_bind] at he
  cases hcheck : checkLogin p (attempt i).clock (attempt i).password
      (s.userByEmail p (attempt i).email) with
  | error err =>
    rw [hcheck, Session.ofExcept_error_bind] at he
    simp [alone, logins, hcheck, he]
  | ok r =>
    rw [hcheck, Session.ofExcept_ok_bind] at he
    simp only [Session.commit_bind, Session.read_bind] at he
    simp [alone, logins, hcheck, he]

/-! ## Logins at the same time -/

/-- Logins in progress, each with the user that it has read. -/
abbrev LoggingIn := Config ℕ AuthStore (AppUser × Bool) (Except AuthError AppUser)

/-- What the logins of one user amount to when none of them is lost: the failures since the last
success or lock, the lock, and the wrong passwords that have been verified since. -/
structure Tally where
  counted : ℕ
  lock : Option Instant
  verified : ℕ := 0
  deriving DecidableEq, Repr

namespace Tally

/-- The tally after a successful login. -/
def succeeded : Tally := { counted := 0, lock := none }

/-- The tally after a failed login, which locks the account when it is one too many. -/
def failed (clock : Instant) (t : Tally) : Tally :=
  if maxFailedLogins ≤ t.counted + 1 then { counted := 0, lock := some (clock + lockout) }
  else { t with counted := t.counted + 1 }

end Tally

section

variable (p : Primitives) (attempt : ℕ → LoginAttempt) (id : ℕ)

/-- The read of the login verifies a wrong password of the user. -/
def verifiesWrong (c : LoggingIn) (i : ℕ) : Bool :=
  (c.held.lookup i).isNone &&
    match (logins p attempt).read i c.store with
    | .inl _ => false
    | .inr r => r.1.id = id && !r.2

/-- The tally of the user after a step. -/
def tallied (c : LoggingIn) : Step ℕ → Tally → Tally
  | .read i, t =>
    if verifiesWrong p attempt id c i then { t with verified := t.verified + 1 } else t
  | .write i, t =>
    match c.held.lookup i with
    | none => t
    | some r =>
      if r.1.id ≠ id then t
      else if r.2 then .succeeded
      else t.failed (attempt i).clock

/-- The wrong passwords of the user that have been verified and not counted. -/
def underWay (c : LoggingIn) : ℕ := c.held.countP fun held => held.2.1.id = id && !held.2.2

/-- The row of the user agrees with the tally, which is within the limit. -/
def LockoutHolds (c : LoggingIn) (t : Tally) : Prop :=
  (c.store.users.find id).map (fun user => (user.failedLoginCount, user.lockedUntil)) =
      some (t.counted, t.lock) ∧
    t.verified ≤ maxFailedLogins

/-- A login of the user commits over the counter and the lock that it has read, and verifies a
wrong password only while the failures, with those under way, are below the limit. -/
def InTurn (c : LoggingIn) : Step ℕ → Prop
  | .read i => verifiesWrong p attempt id c i →
    ∀ user ∈ c.store.users.find id, user.failedLoginCount + underWay id c < maxFailedLogins
  | .write i => ∀ r ∈ c.held.lookup i, r.1.id = id → ∀ user ∈ c.store.users.find id,
    user.failedLoginCount = r.1.failedLoginCount ∧ user.lockedUntil = r.1.lockedUntil

instance (c : LoggingIn) (e : Step ℕ) : Decidable (InTurn p attempt id c e) := by
  cases e <;> unfold InTurn <;> infer_instance

end

variable {p : Primitives} {attempt : ℕ → LoginAttempt} {id : ℕ} {c : LoggingIn} {t : Tally}

/-- The counter and the lock of a user after a login over the row that it has read. -/
theorem saveLogin_loaded (clock : Instant) (correct : Bool) {loaded user : AppUser}
    (hcount : user.failedLoginCount = loaded.failedLoginCount)
    (hlock : user.lockedUntil = loaded.lockedUntil) :
    (saveLogin loaded (afterLogin clock loaded correct) user).failedLoginCount =
        (afterLogin clock loaded correct).failedLoginCount ∧
      (saveLogin loaded (afterLogin clock loaded correct) user).lockedUntil =
        (afterLogin clock loaded correct).lockedUntil := by
  simp [saveLogin, hcount, hlock]

/-- A wrong password of a user whose row agrees with the tally. -/
theorem failed_agrees (clock : Instant) {user : AppUser}
    (hcount : user.failedLoginCount = t.counted) (hlock : user.lockedUntil = t.lock) :
    (failed clock user).failedLoginCount = (t.failed clock).counted ∧
      (failed clock user).lockedUntil = (t.failed clock).lock := by
  unfold failed Tally.failed
  rw [hcount]
  split_ifs
  · exact ⟨rfl, rfl⟩
  · exact ⟨rfl, hlock⟩

/-- The row of a user after the commit of a login. -/
theorem find_write (p : Primitives) (attempt : ℕ → LoginAttempt) (i : ℕ) (r : AppUser × Bool)
    (s : AuthStore) (id : ℕ) :
    ((logins p attempt).write i r s).2.users.find id =
      if r.1.id = id then
        (s.users.find id).map (saveLogin r.1 (afterLogin (attempt i).clock r.1 r.2))
      else s.users.find id :=
  Table.find_modify r.1.id (saveLogin r.1 (afterLogin (attempt i).clock r.1 r.2)) (fun _ => rfl)
    s.users id

/-- A failure is either counted or ends the tally. -/
theorem verified_failed (clock : Instant) (t : Tally) {n : ℕ}
    (h : t.verified ≤ t.counted + (n + 1)) :
    (t.failed clock).verified ≤ (t.failed clock).counted + n ∧
      (t.failed clock).verified ≤ t.verified := by
  unfold Tally.failed
  split_ifs
  · constructor
    · apply Nat.zero_le
    · apply Nat.zero_le
  · constructor
    · show t.verified ≤ t.counted + 1 + n
      omega
    · exact Nat.le_refl _

/-- What the run keeps: a wrong password that has been verified is counted or under way. -/
structure TallyInv (id : ℕ) (c : LoggingIn) (t : Tally) : Prop where
  holds : LockoutHolds id c t
  verified : t.verified ≤ t.counted + underWay id c

theorem tallyInv_step (p : Primitives) (attempt : ℕ → LoginAttempt) (e : Step ℕ)
    (h : TallyInv id c t) (hturn : InTurn p attempt id c e) :
    TallyInv id ((logins p attempt).step c e) (tallied p attempt id c e t) := by
  obtain ⟨⟨hagrees, hlimit⟩, hverified⟩ := h
  obtain ⟨user, hfind, hpair⟩ := Option.map_eq_some_iff.mp hagrees
  obtain ⟨hcount, hlock⟩ := Prod.mk.inj hpair
  rcases step_cases (logins p attempt) c e with ⟨hfree, hbusy, heq⟩ |
    ⟨i, answer, rfl, hread, heq⟩ | ⟨i, r, rfl, hfree, hread, heq⟩ |
    ⟨i, r, l₁, l₂, rfl, hlookup, hheld, heq⟩
  · have htally : tallied p attempt id c e t = t := by
      cases e with
      | read i => simp [tallied, verifiesWrong, hbusy i rfl]
      | write i => simp [tallied, hfree i rfl]
    rw [heq, htally]
    exact ⟨⟨hagrees, hlimit⟩, hverified⟩
  · have htally : tallied p attempt id c (.read i) t = t := by
      simp [tallied, verifiesWrong, hread]
    rw [heq, htally]
    exact ⟨⟨hagrees, hlimit⟩, hverified⟩
  · rw [heq]
    have hwrong : verifiesWrong p attempt id c i = (r.1.id = id && !r.2) := by
      simp [verifiesWrong, hfree, hread]
    have hunder : underWay id { c with held := c.held ++ [(i, r)] } =
        underWay id c + if verifiesWrong p attempt id c i then 1 else 0 := by
      rw [hwrong, underWay, underWay, List.countP_append, List.countP_singleton]
    by_cases hv : verifiesWrong p attempt id c i = true
    · have hroom := hturn hv user hfind
      rw [if_pos hv] at hunder
      rw [tallied, if_pos hv]
      refine ⟨⟨hagrees, ?_⟩, ?_⟩
      · show t.verified + 1 ≤ maxFailedLogins
        omega
      · rw [hunder]
        show t.verified + 1 ≤ t.counted + (underWay id c + 1)
        omega
    · rw [if_neg hv] at hunder
      rw [tallied, if_neg hv]
      refine ⟨⟨hagrees, hlimit⟩, ?_⟩
      rw [hunder]
      exact hverified
  · rw [heq]
    have hunder : underWay id c =
        underWay id { c with held := l₁ ++ l₂ } + if r.1.id = id && !r.2 then 1 else 0 := by
      simp only [underWay, hheld, List.countP_append, List.countP_cons]
      omega
    have hfind' := find_write p attempt i r c.store id
    rw [hfind] at hfind'
    by_cases hid : r.1.id = id
    · -- the login commits over the row that it has read
      obtain ⟨hcount', hlock'⟩ := hturn r hlookup hid user hfind
      have hsaved := saveLogin_loaded (attempt i).clock r.2 hcount' hlock'
      rw [if_pos hid, Option.map_some] at hfind'
      cases hcorrect : r.2 with
      | true =>
        have htally : tallied p attempt id c (.write i) t = .succeeded := by
          simp [tallied, hlookup, hid, hcorrect]
        rw [htally]
        rw [hcorrect] at hsaved hfind'
        refine ⟨⟨?_, Nat.zero_le _⟩, Nat.zero_le _⟩
        rw [hfind', Option.map_some, hsaved.1, hsaved.2]
        rfl
      | false =>
        have htally : tallied p attempt id c (.write i) t = t.failed (attempt i).clock := by
          simp [tallied, hlookup, hid, hcorrect]
        rw [htally]
        rw [hcorrect] at hsaved hfind'
        obtain ⟨hfailed, hlocked⟩ := failed_agrees (attempt i).clock
          (hcount'.symm.trans hcount) (hlock'.symm.trans hlock)
        simp only [hid, hcorrect, Bool.not_false, Bool.and_true, decide_true, if_true] at hunder
        rw [hunder] at hverified
        obtain ⟨hkept, hle⟩ := verified_failed (attempt i).clock t hverified
        refine ⟨⟨?_, hle.trans hlimit⟩, hkept⟩
        rw [hfind', Option.map_some, hsaved.1, hsaved.2]
        exact congrArg some (Prod.ext hfailed hlocked)
    · rw [if_neg hid] at hfind'
      have htally : tallied p attempt id c (.write i) t = t := by
        simp [tallied, hlookup, hid]
      simp only [hid, decide_false, Bool.false_and, Bool.false_eq_true, if_false,
        Nat.add_zero] at hunder
      rw [htally]
      refine ⟨⟨by rw [hfind', Option.map_some, hpair], hlimit⟩, ?_⟩
      rw [hunder] at hverified
      exact hverified

/-- In every run in which the logins of a user commit over what they have read, and verify wrong
passwords only while there is room for them, no failure is lost, and the account is locked before
more than `maxFailedLogins` wrong passwords are verified. -/
theorem lockout_holds (p : Primitives) (attempt : ℕ → LoginAttempt) {id : ℕ} {s : AuthStore}
    {user : AppUser} (hfind : s.users.find id = some user) {steps steps' : List (Step ℕ)}
    (hturn : (logins p attempt).Along (InTurn p attempt id) (steps ++ steps') ⟨s, [], []⟩) :
    LockoutHolds id ((logins p attempt).run steps ⟨s, [], []⟩)
      ((logins p attempt).observe (tallied p attempt id) steps ⟨s, [], []⟩
        { counted := user.failedLoginCount, lock := user.lockedUntil }) := by
  have hinv : TallyInv id ⟨s, [], []⟩
      { counted := user.failedLoginCount, lock := user.lockedUntil } :=
    ⟨⟨by rw [hfind, Option.map_some], Nat.zero_le _⟩, Nat.zero_le _⟩
  have hrun := observe_of_along (I := TallyInv id) hinv
    (fun c e t h hc => tallyInv_step p attempt e h hc) hturn.of_append
  exact hrun.holds

/-- Two logins with a wrong password. -/
def twoWrong : ℕ → LoginAttempt := fun _ => { email := "user@example.com", password := "wrong" }

/-- One failure after the other. -/
theorem lockout_holds_in_turn :
    LockoutHolds 1 ((logins plainPrimitives twoWrong).run
        [.read 0, .write 0, .read 1, .write 1] ⟨oneUser, [], []⟩)
      ((logins plainPrimitives twoWrong).observe (tallied plainPrimitives twoWrong 1)
        [.read 0, .write 0, .read 1, .write 1] ⟨oneUser, [], []⟩
        { counted := 0, lock := none }) := by
  have hturn : (logins plainPrimitives twoWrong).Along (InTurn plainPrimitives twoWrong 1)
      ([.read 0, .write 0, .read 1, .write 1] ++ []) ⟨oneUser, [], []⟩ := by decide
  exact lockout_holds plainPrimitives twoWrong rfl hturn

/-- Both logins read the counter before either of them commits: two failures count as one. -/
theorem failure_lost :
    ¬ LockoutHolds 1 ((logins plainPrimitives twoWrong).run
        [.read 0, .read 1, .write 0, .write 1] ⟨oneUser, [], []⟩)
      ((logins plainPrimitives twoWrong).observe (tallied plainPrimitives twoWrong 1)
        [.read 0, .read 1, .write 0, .write 1] ⟨oneUser, [], []⟩
        { counted := 0, lock := none }) := by
  rintro ⟨hagrees, -⟩
  exact absurd hagrees (by decide)

end PaymentOps.Auth
