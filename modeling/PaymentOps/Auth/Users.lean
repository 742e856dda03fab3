import PaymentOps.Auth.Passwords
import PaymentOps.Domain.Models
import PaymentOps.Lib.Interleaving
import PaymentOps.Lib.Session
import PaymentOps.Lib.Table

/-!
# Users and sessions

Local users with hashed passwords, and revocable sessions of which only the hashes of the tokens
are stored.  Instants count microseconds.  The column `email` is unique as well as the id, so that
there is one row to find.
-/

namespace PaymentOps.Auth

open Text

/-- The roles of users. -/
inductive UserRole where
  | admin | operator | viewer
  deriving DecidableEq, Repr

/-- The states of an account. -/
inductive UserStatus where
  | active | disabled
  deriving DecidableEq, Repr

/-- A row of `app_users`. -/
structure AppUser where
  id : ℕ
  organizationId : String
  email : String
  displayName : String
  passwordHash : String
  role : UserRole := .viewer
  status : UserStatus := .active
  failedLoginCount : ℕ := 0
  lockedUntil : Option Instant := none
  lastLoginAt : Option Instant := none
  deriving DecidableEq, Repr

/-- A row of `user_sessions`. -/
structure UserSession where
  userId : ℕ
  organizationId : String
  tokenHash : String
  expiresAt : Instant
  lastSeenAt : Option Instant
  revokedAt : Option Instant := none
  deriving DecidableEq, Repr

/-- The tables of users and of their sessions. -/
structure AuthStore where
  users : Table AppUser.id := {}
  sessions : Table UserSession.tokenHash := {}

/-- What the user service raises. -/
inductive AuthError where
  | authenticationError (message : String)
  | accountDisabledError (message : String)
  | lookupError (message : String)
  | valueError (message : String)
  | integrityError (column : String)
  deriving DecidableEq, Repr

/-- A session over the tables of users. -/
abbrev AuthService (α : Type) := Session AuthStore AuthError α

/-- The failures after which an account is locked. -/
def maxFailedLogins : ℕ := 5

/-- Seconds in the unit of instants. -/
def microseconds (seconds : ℤ) : ℤ := seconds * 1000000

/-- `timedelta(minutes=LOCKOUT_MINUTES)` -/
def lockout : ℤ := microseconds (15 * 60)

/-- `timedelta(hours=SESSION_TTL_HOURS)` -/
def sessionTtl : ℤ := microseconds (8 * 60 * 60)

/-- `normalize_email`. -/
def normalizeEmail (p : Primitives) (email : String) : String := p.lower (strip email)

namespace AuthStore

/-- The user with the normalized address. -/
def userByEmail (p : Primitives) (email : String) (s : AuthStore) : Option AppUser :=
  s.users.rows.find? (·.email = normalizeEmail p email)

/-- Change the row of a user, but not its id. -/
def updateUser (id : ℕ) (f : AppUser → AppUser) (hf : ∀ user, (f user).id = user.id)
    (s : AuthStore) : AuthStore :=
  { s with users := s.users.modify id f hf }

end AuthStore

/-! ## Logins -/

section

variable (p : Primitives)

/-- What precedes the write of a login: it raises, or goes on with the user that was read and with
whether the password was correct. -/
def checkLogin (clock : Instant) (password : String) (user : Option AppUser) :
    Except AuthError (AppUser × Bool) :=
  match user with
  | none => .error (.authenticationError "invalid credentials")
  | some user =>
    if user.lockedUntil.any (clock < ·) then
      .error (.authenticationError "account temporarily locked")
    else if ! verifyPassword p password user.passwordHash then .ok (user, false)
    else if user.status ≠ .active then .error (.accountDisabledError "account disabled")
    else .ok (user, true)

/-- A user after a wrong password. -/
def failed (clock : Instant) (user : AppUser) : AppUser :=
  if maxFailedLogins ≤ user.failedLoginCount + 1 then
    { user with lockedUntil := some (clock + lockout), failedLoginCount := 0 }
  else { user with failedLoginCount := user.failedLoginCount + 1 }

/-- A user after a login. -/
def loggedIn (clock : Instant) (user : AppUser) : AppUser :=
  { user with failedLoginCount := 0, lockedUntil := none, lastLoginAt := some clock }

/-- The user as the session leaves it. -/
def afterLogin (clock : Instant) (user : AppUser) (correct : Bool) : AppUser :=
  if correct then loggedIn clock user else failed clock user

/-- The columns that a session has changed are written over those that are there. -/
def saveLogin (loaded changed current : AppUser) : AppUser :=
  { current with
    failedLoginCount :=
      TwoStep.written loaded.failedLoginCount changed.failedLoginCount current.failedLoginCount
    lockedUntil := TwoStep.written loaded.lockedUntil changed.lockedUntil current.lockedUntil
    lastLoginAt := TwoStep.written loaded.lastLoginAt changed.lastLoginAt current.lastLoginAt }

/-- The commit of a login. -/
def commitLogin (clock : Instant) (loaded : AppUser) (correct : Bool) (s : AuthStore) :
    AuthStore :=
  s.updateUser loaded.id (saveLogin loaded (afterLogin clock loaded correct)) fun _ => rfl

/-- What a login returns after its commit. -/
def loginOutcome (loaded : AppUser) (correct : Bool) (s : AuthStore) : Except AuthError AppUser :=
  if correct then
    match s.users.find loaded.id with
    | some user => .ok user
    | none => .error (.lookupError "could not refresh instance")
  else .error (.authenticationError "invalid credentials")

/-- `authenticate`: count the failure, or take the counter and the lock back. -/
def authenticate (clock : Instant) (email password : String) : AuthService AppUser := do
  let user ← .read (AuthStore.userByEmail p email)
  let (user, correct) ← .ofExcept (checkLogin p clock password user)
  .commit (commitLogin clock user correct)
  let s ← .read id
  .ofExcept (loginOutcome user correct s)

end

/-! ## Sessions -/

section

variable (p : Primitives)

/-- The token is generated; it is `token` here. -/
def createSession (clock : Instant) (user : AppUser) (token : String) :
    AuthService (String × Instant) :=
  .transact fun s =>
    match s.sessions.insert {
        userId := user.id
        organizationId := user.organizationId
        tokenHash := p.sha256 token
        expiresAt := clock + sessionTtl
        lastSeenAt := some clock } with
    | some sessions => .ok ((token, clock + sessionTtl), { s with sessions := sessions })
    | none => .error (.integrityError "token_hash")

/-- The active user of a session that is neither expired nor revoked. -/
def liveUser (clock : Instant) (token : String) (s : AuthStore) : Option AppUser :=
  match s.sessions.find (p.sha256 token) with
  | none => none
  | some session =>
    if session.revokedAt.isSome ∨ session.expiresAt ≤ clock then none
    else (s.users.find session.userId).filter (·.status = .active)

/-- `resolve_session`: the active user of a session that is neither revoked nor expired. -/
def resolveSession (clock : Instant) (token : String) : AuthService (Option AppUser) := do
  match ← .read (liveUser p clock token) with
  | none => pure none
  | some user =>
    .commit fun s =>
      { s with
        sessions := s.sessions.modify (p.sha256 token)
          (fun session => { session with lastSeenAt := some clock }) fun _ => rfl }
    pure (some user)

/-- The sessions with revocations where `revokes` says so and there is none yet. -/
def revokeWhere (clock : Instant) (revokes : UserSession → Bool) (s : AuthStore) : AuthStore :=
  { s with
    sessions := s.sessions.map
      (fun session =>
        { session with
          revokedAt :=
            if revokes session && session.revokedAt.isNone then some clock else session.revokedAt })
      fun _ => rfl }

/-- `revoke_session`. -/
def revokeSession (clock : Instant) (token : String) : AuthService Unit := do
  match ← .read fun s : AuthStore => s.sessions.find (p.sha256 token) with
  | none => pure ()
  | some session =>
    if session.revokedAt.isNone then
      .commit (revokeWhere clock (·.tokenHash = session.tokenHash))
    else pure ()

end

/-- The number of sessions that it has revoked. -/
def revokeAllSessions (clock : Instant) (userId : ℕ) : AuthService ℕ :=
  .transact fun s =>
    let mine := s.sessions.rows.filter fun session =>
      session.userId = userId && session.revokedAt.isNone
    .ok (mine.length, revokeWhere clock (·.userId = userId) s)

/-! ## Administration -/

/-- The commit of `revoke_all_sessions` writes the changed user as well. -/
def setPassword (p : Primitives) (clock : Instant) (userId : ℕ) (salt : List (Fin 256))
    (newPassword : String) : AuthService Unit :=
  match hashPassword p salt newPassword with
  | none => .raise (.valueError "pbkdf2_hmac")
  | some stored => .commit fun s =>
    (revokeWhere clock (·.userId = userId) s).updateUser userId
      (fun user =>
        { user with passwordHash := stored, failedLoginCount := 0, lockedUntil := none })
      fun _ => rfl

/-- `set_status`, which revokes the sessions of a user who is disabled. -/
def setStatus (clock : Instant) (userId : ℕ) (status : UserStatus) : AuthService Unit :=
  .commit fun s =>
    (if status = .disabled then revokeWhere clock (·.userId = userId) s else s).updateUser userId
      (fun user => { user with status := status }) fun _ => rfl

/-- `set_role`. -/
def setRole (userId : ℕ) (role : UserRole) : AuthService Unit :=
  .commit fun s => s.updateUser userId (fun user => { user with role := role }) fun _ => rfl

/-! ## A store with one user -/

/-- A user with the password `a`. -/
def firstUser : AppUser where
  id := 1
  organizationId := "org"
  email := "user@example.com"
  displayName := "User"
  passwordHash := "pbkdf2_sha256$1$00$61"

/-- A store with one user. -/
def oneUser : AuthStore where
  users := { rows := [firstUser] }

end PaymentOps.Auth
