import PaymentOps.Auth.Users
import PaymentOps.Cases.Store
import PaymentOps.Lib.Calendar
import PaymentOps.Lib.JsonDumps

/-!
# The login endpoint

The trusted web server calls it with its own credentials and those of the user.  A login that fails
is answered in the same words whatever its reason, unless the password was correct.

* `login` is the endpoint and `responses` what it answers to a sequence of requests;
* `authenticate_wrong` says how a login with a wrong password ends;
* `login_does_not_enumerate`: wrong passwords are answered alike in any two stores that agree but
  for the user of the email.
-/

namespace PaymentOps.Auth

open Text

/-- A row of `api_clients`. -/
structure ApiClient where
  clientId : String
  organizationId : String
  secretHash : String
  allowedProfiles : List String := []
  status : String := "ACTIVE"
  lastUsedAt : Option Instant := none
  deriving DecidableEq, Repr

/-- The API client that a request is made by. -/
structure AuthenticatedClient where
  clientId : String
  organizationId : String
  allowedProfiles : List String
  deriving DecidableEq, Repr

/-- The tables of a login. -/
structure LoginStore where
  auth : AuthStore := {}
  clients : Table ApiClient.clientId := {}
  auditEvents : List Cases.AuditEvent := []

/-- What an endpoint raises. -/
inductive ApiError where
  | httpException (status : ℕ) (detail : String)
  | unhandled (error : AuthError)
  deriving DecidableEq, Repr

/-- A response, as far as the client can tell it from another. -/
structure HttpResponse where
  status : ℕ
  body : Json

/-- What the exception handlers make of an exception. -/
def errorResponse (correlationId : String) : ApiError → HttpResponse
  | .httpException status detail => { status := status, body := .obj [("detail", .str detail)] }
  | .unhandled _ => {
      status := 500
      body := .obj [
        ("error", .obj [
          ("code", .str "internal_error"),
          ("message", .str "Internal server error.")]),
        ("correlation_id", .str correlationId)] }

/-- A request with what the server adds to it: the token that it generates and its clock. -/
structure LoginRequest where
  xClientId : String
  xClientSecret : String
  email : String
  password : String
  token : String := ""
  correlationId : String := ""
  calledAt : Instant := 0
  checkedAt : Instant := 0
  issuedAt : Instant := 0
  auditedAt : Instant := 0

/-- A session over the tables of a login. -/
abbrev LoginService (α : Type) := Session LoginStore ApiError α

/-! ## Texts -/

/-- The name of a role. -/
def UserRole.value : UserRole → String
  | admin => "ADMIN"
  | operator => "OPERATOR"
  | viewer => "VIEWER"

/-- `str(uuid.UUID(int=n))` -/
def uuidText (n : ℕ) : String :=
  let digit (i : ℕ) := hexChar (n / 16 ^ (31 - i) % 16)
  let group (start count : ℕ) := String.ofList ((List.range count).map fun i => digit (start + i))
  join "-" [group 0 8, group 8 4, group 12 4, group 16 4, group 20 12]

/-- The ordinal of January 1st, 1970, where the clock starts. -/
def epochOrdinal : ℕ := 719163

/-- `t.isoformat()` of an instant in UTC. -/
def isoformat (t : Instant) : String :=
  let seconds := t / 1000000
  let fraction := (t % 1000000).toNat
  let inDay := (seconds % 86400).toNat
  let day := (Date.ofOrdinal (seconds / 86400 + epochOrdinal).toNat).elim "" Date.isoformat
  day ++ "T" ++ Date.pad 2 (inDay / 3600) ++ ":" ++ Date.pad 2 (inDay / 60 % 60) ++ ":" ++
    Date.pad 2 (inDay % 60) ++ (if fraction = 0 then "" else "." ++ Date.pad 6 fraction) ++ "+00:00"

/-- A user as the response has it. -/
def userDict (user : AppUser) : Json :=
  .obj [
    ("id", .str (uuidText user.id)),
    ("email", .str user.email),
    ("display_name", .str user.displayName),
    ("role", .str user.role.value),
    ("organization_id", .str user.organizationId)]

/-! ## The API client -/

section

variable (p : Primitives)

/-- The iterations of the hash of a client's secret. -/
def clientIterations : ℕ := 200000

/-- `none` where it raises a `ValueError`, which `bytes.fromhex` does. -/
def verifySecret (secret stored : String) : Option Bool :=
  match split '$' stored with
  | saltHex :: digestHex :: rest => do
    let salt ← fromHex saltHex
    let expected ← fromHex (join "$" (digestHex :: rest))
    let actual ← p.pbkdf2 secret salt clientIterations
    pure (decide (actual = expected))
  | _ => some false

/-- What precedes the write of `get_api_client`. -/
def checkClient (secret : String) (client : Option ApiClient) : Except ApiError ApiClient :=
  match client with
  | none => .error (.httpException 401 "invalid client")
  | some client =>
    if client.status ≠ "ACTIVE" then .error (.httpException 403 "client disabled")
    else
      match verifySecret p secret client.secretHash with
      | none => .error (.unhandled (.valueError "fromhex"))
      | some false => .error (.httpException 401 "invalid credentials")
      | some true => .ok client

/-- `client.last_used_at = datetime.now(UTC)` -/
def touchClient (clientId : String) (clock : Instant) (s : LoginStore) : LoginStore :=
  { s with
    clients := s.clients.modify clientId
      (fun client => { client with lastUsedAt := some clock }) fun _ => rfl }

/-- `get_api_client`: the active client with this id and secret. -/
def getApiClient (clock : Instant) (xClientId xClientSecret : String) :
    LoginService AuthenticatedClient := do
  let client ← .read fun s : LoginStore => s.clients.find xClientId
  let client ← .ofExcept (checkClient p xClientSecret client)
  .commit (touchClient client.clientId clock)
  pure {
    clientId := client.clientId
    organizationId := client.organizationId
    allowedProfiles := client.allowedProfiles }

/-! ## The endpoint -/

/-- The service on the tables of the users. -/
def onAuth {α : Type} (wrap : AuthError → ApiError) (m : AuthService α) : LoginService α :=
  m.zoom LoginStore.auth (fun auth s => { s with auth := auth }) wrap

/-- The one answer to every refused login. -/
def invalidCredentials : ApiError := .httpException 401 "Invalid email or password."

/-- What the endpoint makes of the errors of `authenticate`. -/
def loginError : AuthError → ApiError
  | .accountDisabledError _ => .httpException 403 "Account disabled. Contact your administrator."
  | .authenticationError _ => invalidCredentials
  | .lookupError message => .unhandled (.lookupError message)
  | .valueError message => .unhandled (.valueError message)
  | .integrityError column => .unhandled (.integrityError column)

/-- The audit event of a login. -/
def loginEvent (user : AppUser) (clock : Instant) : Cases.AuditEvent where
  organizationId := some user.organizationId
  eventType := "auth.login"
  userIdentity := some user.email
  actionMetadata := some { role := some user.role.value }
  createdAt := clock

/-- `POST /api/v1/auth/login`. -/
def login (req : LoginRequest) : LoginService Json := do
  let _ ← getApiClient p req.calledAt req.xClientId req.xClientSecret
  let user ← onAuth loginError (authenticate p req.checkedAt req.email req.password)
  let (token, expiresAt) ← onAuth .unhandled (createSession p req.issuedAt user req.token)
  .commit fun s => { s with auditEvents := s.auditEvents ++ [loginEvent user req.auditedAt] }
  pure (.obj [
    ("session_token", .str token),
    ("expires_at", .str (isoformat expiresAt)),
    ("user", userDict user)])

/-- The response to what an endpoint returns or raises. -/
def respond (correlationId : String) : Except ApiError Json → HttpResponse
  | .ok body => { status := 200, body := body }
  | .error e => errorResponse correlationId e

/-- The responses to requests one after the other. -/
def responses (requests : List LoginRequest) (s : LoginStore) : List HttpResponse :=
  (Session.calls (login p) requests s).map fun c =>
    respond c.1.correlationId ((login p c.1).run c.2).outcome

end

variable {p : Primitives} {s t : LoginStore} {email : String} {req : LoginRequest}

/-! ## Wrong passwords -/

/-- No user of the email has the password. -/
def Wrong (p : Primitives) (email password : String) (s : AuthStore) : Prop :=
  ∀ user ∈ s.userByEmail p email, verifyPassword p password user.passwordHash = false

instance (p : Primitives) (email password : String) (s : AuthStore) :
    Decidable (Wrong p email password s) :=
  inferInstanceAs (Decidable (∀ user ∈ s.userByEmail p email,
    verifyPassword p password user.passwordHash = false))

/-- A login with a wrong password raises a generic error, and all that it writes is a failure. -/
theorem authenticate_wrong {password : String} {s : AuthStore} (h : Wrong p email password s)
    (clock : Instant) :
    (∃ message, ((authenticate p clock email password).run s).outcome =
        .error (.authenticationError message)) ∧
      ∀ t ∈ ((authenticate p clock email password).run s).commits,
        ∃ user, t = commitLogin clock user false s := by
  rw [authenticate, Session.read_bind]
  cases huser : s.userByEmail p email with
  | none => exact ⟨⟨_, rfl⟩, by simp [checkLogin]⟩
  | some user =>
    have hwrong := h user huser
    unfold checkLogin
    dsimp only
    split_ifs with hlocked hverify hstatus
    · exact ⟨⟨_, rfl⟩, by simp⟩
    · refine ⟨⟨_, rfl⟩, fun t ht => ⟨user, ?_⟩⟩
      exact List.mem_singleton.mp ht
    · simp [hwrong] at hverify
    · simp [hwrong] at hverify

/-- A client but for the time of its last call. -/
def ApiClient.untouched (client : ApiClient) : ApiClient := { client with lastUsedAt := none }

theorem checkClient_untouched (p : Primitives) (secret : String) (client : Option ApiClient) :
    checkClient p secret (client.map ApiClient.untouched) =
      (checkClient p secret client).map ApiClient.untouched := by
  cases client with
  | none => rfl
  | some client =>
    simp only [Option.map_some, checkClient, ApiClient.untouched]
    split_ifs
    · rfl
    · cases verifySecret p secret client.secretHash with
      | none => rfl
      | some verified => cases verified <;> rfl

/-- How a request with a wrong password ends. -/
def wrongError (p : Primitives) (req : LoginRequest) (s : LoginStore) : ApiError :=
  match checkClient p req.xClientSecret (s.clients.find req.xClientId) with
  | .error e => e
  | .ok _ => invalidCredentials

/-- The clients but for their calls, and the passwords of the users, are the same. -/
structure SameSecrets (p : Primitives) (s t : LoginStore) : Prop where
  clients : ∀ clientId, (t.clients.find clientId).map ApiClient.untouched =
    (s.clients.find clientId).map ApiClient.untouched
  passwords : ∀ email password, Wrong p email password s.auth → Wrong p email password t.auth

namespace SameSecrets

theorem refl (p : Primitives) (s : LoginStore) : SameSecrets p s s :=
  ⟨fun _ => rfl, fun _ _ h => h⟩

theorem trans {u : LoginStore} (hst : SameSecrets p s t) (htu : SameSecrets p t u) :
    SameSecrets p s u :=
  ⟨fun clientId => (htu.clients clientId).trans (hst.clients clientId),
    fun email password h => htu.passwords email password (hst.passwords email password h)⟩

theorem wrongError_eq (h : SameSecrets p s t) (req : LoginRequest) :
    wrongError p req t = wrongError p req s := by
  have hcheck : (checkClient p req.xClientSecret (t.clients.find req.xClientId)).map
        ApiClient.untouched =
      (checkClient p req.xClientSecret (s.clients.find req.xClientId)).map ApiClient.untouched := by
    rw [← checkClient_untouched, ← checkClient_untouched, h.clients]
  unfold wrongError
  cases hs : checkClient p req.xClientSecret (s.clients.find req.xClientId) with
  | error e =>
    cases ht : checkClient p req.xClientSecret (t.clients.find req.xClientId) with
    | error e' =>
      rw [hs, ht] at hcheck
      exact Except.error.inj hcheck
    | ok client =>
      rw [hs, ht] at hcheck
      cases hcheck
  | ok client =>
    cases ht : checkClient p req.xClientSecret (t.clients.find req.xClientId) with
    | error e =>
      rw [hs, ht] at hcheck
      cases hcheck
    | ok client' => rfl

theorem touchClient (p : Primitives) (clientId : String) (clock : Instant) (s : LoginStore) :
    SameSecrets p s (touchClient clientId clock s) := by
  refine ⟨fun clientId' => ?_, fun _ _ h => h⟩
  rw [Auth.touchClient, Table.find_modify]
  split_ifs
  · rw [Option.map_map]
    rfl
  · rfl

end SameSecrets

theorem userByEmail_updateUser (p : Primitives) (email : String) (s : AuthStore) (id : ℕ)
    {f : AppUser → AppUser} (hf : ∀ user, (f user).id = user.id)
    (hemail : ∀ user, (f user).email = user.email) :
    (s.updateUser id f hf).userByEmail p email =
      (s.userByEmail p email).map fun user => if user.id = id then f user else user := by
  have hsame : ∀ user : AppUser, (if user.id = id then f user else user).email = user.email := by
    intro user
    split_ifs
    · exact hemail user
    · rfl
  rw [AuthStore.userByEmail, AuthStore.updateUser, Table.modify, Table.map, List.find?_map]
  simp only [Function.comp_def, hsame]
  rfl

theorem wrong_commitLogin {password : String} {s : AuthStore} (h : Wrong p email password s)
    (clock : Instant) (loaded : AppUser) (correct : Bool) :
    Wrong p email password (commitLogin clock loaded correct s) := by
  intro user huser
  have hsaved := userByEmail_updateUser p email s loaded.id
    (f := saveLogin loaded (afterLogin clock loaded correct)) (fun _ => rfl) fun _ => rfl
  rw [commitLogin, hsaved] at huser
  obtain ⟨user', huser', rfl⟩ := Option.map_eq_some_iff.mp huser
  split_ifs
  · exact h user' huser'
  · exact h user' huser'

theorem getApiClient_run (p : Primitives) (clock : Instant) (xClientId xClientSecret : String)
    (s : LoginStore) :
    (getApiClient p clock xClientId xClientSecret).run s =
      match checkClient p xClientSecret (s.clients.find xClientId) with
      | .error e => ⟨[], .error e⟩
      | .ok client =>
        ⟨[touchClient client.clientId clock s], .ok {
          clientId := client.clientId
          organizationId := client.organizationId
          allowedProfiles := client.allowedProfiles }⟩ := by
  rw [getApiClient, Session.read_bind]
  cases checkClient p xClientSecret (s.clients.find xClientId) <;> rfl

/-- A request with a wrong password, and what it changes. -/
theorem login_wrong (h : Wrong p req.email req.password s.auth) :
    ((login p req).run s).outcome = .error (wrongError p req s) ∧
      ∀ t ∈ ((login p req).run s).commits, SameSecrets p s t := by
  have hrun := getApiClient_run p req.calledAt req.xClientId req.xClientSecret s
  unfold wrongError
  rw [login]
  cases hclient : checkClient p req.xClientSecret (s.clients.find req.xClientId) with
  | error e =>
    rw [hclient] at hrun
    rw [Session.bind_error (by rw [hrun]), hrun]
    exact ⟨rfl, by simp⟩
  | ok client =>
    rw [hclient] at hrun
    set touched := touchClient client.clientId req.calledAt s
    have htouched : SameSecrets p s touched := .touchClient p client.clientId req.calledAt s
    obtain ⟨⟨message, hout⟩, hcommits⟩ := authenticate_wrong h req.checkedAt
    have hauth : ((onAuth loginError
        (authenticate p req.checkedAt req.email req.password)).run touched).outcome =
          .error invalidCredentials := by
      show Except.mapError loginError (Exec.outcome _) = _
      rw [show touched.auth = s.auth from rfl, hout]
      rfl
    rw [Session.bind_ok (by rw [hrun]), hrun, Session.final_singleton, Session.bind_error hauth]
    refine ⟨rfl, fun t ht => ?_⟩
    rcases List.mem_append.mp ht with ht | ht
    · rw [List.mem_singleton.mp ht]
      exact htouched
    · -- the failure is counted
      obtain ⟨auth, hauth, rfl⟩ := List.mem_map.mp ht
      obtain ⟨user, rfl⟩ := hcommits auth hauth
      refine htouched.trans ⟨fun _ => rfl, fun email password hwrong => ?_⟩
      exact wrong_commitLogin hwrong req.checkedAt user false

/-- The responses to requests with wrong passwords. -/
theorem responses_wrong {requests : List LoginRequest}
    (h : ∀ req ∈ requests, Wrong p req.email req.password s.auth) :
    responses p requests s = requests.map fun req =>
      errorResponse req.correlationId (wrongError p req s) := by
  have hsame : ∀ c ∈ Session.calls (login p) requests s, SameSecrets p s c.2 := by
    refine Session.calls_of_final (I := SameSecrets p s) (.refl p s) fun c hc hst => ?_
    have hwrong := hst.passwords _ _ (h c.1 (Session.mem_of_calls hc))
    exact Session.final_of_commits hst fun t ht => hst.trans ((login_wrong hwrong).2 t ht)
  have hrespond : ∀ c ∈ Session.calls (login p) requests s,
      respond c.1.correlationId ((login p c.1).run c.2).outcome =
        errorResponse c.1.correlationId (wrongError p c.1 s) := by
    intro c hc
    have hwrong := (hsame c hc).passwords _ _ (h c.1 (Session.mem_of_calls hc))
    rw [(login_wrong hwrong).1, (hsame c hc).wrongError_eq]
    rfl
  calc responses p requests s
      = (Session.calls (login p) requests s).map fun c =>
          errorResponse c.1.correlationId (wrongError p c.1 s) := List.map_congr_left hrespond
    _ = ((Session.calls (login p) requests s).map Prod.fst).map fun req =>
          errorResponse req.correlationId (wrongError p req s) := by
        rw [List.map_map]
        rfl
    _ = requests.map fun req => errorResponse req.correlationId (wrongError p req s) := by
        rw [Session.calls_map_fst]

/-! ## Two stores -/

/-- The stores differ only in whether the email is registered, in the failures, the lock and the
status of its user, and in sessions. -/
structure DifferOnlyIn (p : Primitives) (email : String) (s t : LoginStore) : Prop where
  clients : s.clients = t.clients
  auditEvents : s.auditEvents = t.auditEvents
  others : s.auth.users.rows.filter (·.email ≠ normalizeEmail p email) =
    t.auth.users.rows.filter (·.email ≠ normalizeEmail p email)
  user : ∀ a ∈ s.auth.userByEmail p email, ∀ b ∈ t.auth.userByEmail p email,
    b = { a with
      failedLoginCount := b.failedLoginCount
      lockedUntil := b.lockedUntil
      status := b.status }

/-- Two stores that differ only in the user of an email answer alike to any requests with that
email and passwords that are not those of the user. -/
theorem login_does_not_enumerate {p : Primitives} {email : String} {s t : LoginStore}
    (h : DifferOnlyIn p email s t) {requests : List LoginRequest}
    (hemail : ∀ req ∈ requests, normalizeEmail p req.email = normalizeEmail p email)
    (hs : ∀ req ∈ requests, Wrong p email req.password s.auth)
    (ht : ∀ req ∈ requests, Wrong p email req.password t.auth) :
    responses p requests s = responses p requests t := by
  have hwrong : ∀ {s : LoginStore}, (∀ req ∈ requests, Wrong p email req.password s.auth) →
      ∀ req ∈ requests, Wrong p req.email req.password s.auth := by
    intro s hs req hreq user huser
    refine hs req hreq user ?_
    rwa [AuthStore.userByEmail, ← hemail req hreq]
  rw [responses_wrong (hwrong hs), responses_wrong (hwrong ht)]
  refine List.map_congr_left fun req _ => ?_
  rw [wrongError, wrongError, h.clients]

/-- The web server as a client, with the secret `s`. -/
def webClient : Table ApiClient.clientId where
  rows := [{ clientId := "web", organizationId := "org", secretHash := "00$73" }]

/-- Six requests with a wrong password. -/
def guesses : List LoginRequest :=
  List.replicate 6 {
    xClientId := "web"
    xClientSecret := "s"
    email := "user@example.com"
    password := "guess" }

/-- The user is registered in the one store and not in the other. -/
theorem guesses_answered_alike :
    responses plainPrimitives guesses { auth := oneUser, clients := webClient } =
      responses plainPrimitives guesses { clients := webClient } := by
  have hdiffer : DifferOnlyIn plainPrimitives "user@example.com"
      { auth := oneUser, clients := webClient } { clients := webClient } :=
    ⟨rfl, rfl, by decide, by decide⟩
  exact login_does_not_enumerate hdiffer (by decide) (by decide) (by decide)

end PaymentOps.Auth
