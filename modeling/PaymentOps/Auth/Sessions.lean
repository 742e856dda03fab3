import PaymentOps.Auth.Users

/-!
# Revocation

A session that has been revoked is not resolved by any later call.

* `Carries` is what every call keeps of the sessions, and `carries_after` says it of runs;
* `Revokes` are the calls that revoke a session, and `revokes_final` says that they do;
* `revocation_is_permanent` is the result about runs, with what a resolved session is.
-/

namespace PaymentOps.Auth

/-- A call of the user service. -/
inductive AuthCall where
  | authenticate (clock : Instant) (email password : String)
  | createSession (clock : Instant) (user : AppUser) (token : String)
  | resolveSession (clock : Instant) (token : String)
  | revokeSession (clock : Instant) (token : String)
  | revokeAllSessions (clock : Instant) (userId : ℕ)
  | setPassword (clock : Instant) (userId : ℕ) (salt : List (Fin 256)) (newPassword : String)
  | setStatus (clock : Instant) (userId : ℕ) (status : UserStatus)
  | setRole (userId : ℕ) (role : UserRole)

variable (p : Primitives)

/-- What a call does. -/
def AuthCall.perform : AuthCall → AuthService Unit
  | authenticate clock email password => do
    let _ ← Auth.authenticate p clock email password
    pure ()
  | createSession clock user token => do
    let _ ← Auth.createSession p clock user token
    pure ()
  | resolveSession clock token => do
    let _ ← Auth.resolveSession p clock token
    pure ()
  | revokeSession clock token => Auth.revokeSession p clock token
  | revokeAllSessions clock userId => do
    let _ ← Auth.revokeAllSessions clock userId
    pure ()
  | setPassword clock userId salt newPassword => Auth.setPassword p clock userId salt newPassword
  | setStatus clock userId status => Auth.setStatus clock userId status
  | setRole userId role => Auth.setRole userId role

/-- The call revokes the session of the token, which is one of the user. -/
def AuthCall.Revokes (token : String) (userId : ℕ) : AuthCall → Prop
  | revokeSession _ token' => token' = token
  | revokeAllSessions _ userId' => userId' = userId
  | setPassword _ userId' salt newPassword =>
    userId' = userId ∧ (hashPassword p salt newPassword).isSome
  | setStatus _ userId' status => userId' = userId ∧ status = .disabled
  | authenticate .. | createSession .. | resolveSession .. | setRole .. => False

/-- The store after some calls. -/
abbrev afterCalls (calls : List AuthCall) (s : AuthStore) : AuthStore :=
  Session.after (AuthCall.perform p) calls s

variable {p} {s t : AuthStore} {token hash : String} {userId : ℕ} {clock : Instant}

/-! ## What a call keeps -/

/-- The sessions of the one store are in the other one, with their users, and those that were
revoked are revoked. -/
def Carries (s t : AuthStore) : Prop :=
  ∀ hash session, s.sessions.find hash = some session →
    ∃ session', t.sessions.find hash = some session' ∧ session'.userId = session.userId ∧
      (session.revokedAt.isSome → session'.revokedAt.isSome)

namespace Carries

theorem refl (s : AuthStore) : Carries s s := fun _ session h => ⟨session, h, rfl, id⟩

theorem trans {u : AuthStore} (hst : Carries s t) (htu : Carries t u) : Carries s u := by
  intro hash session h
  obtain ⟨session', h', huser', hrevoked'⟩ := hst hash session h
  obtain ⟨session'', h'', huser'', hrevoked''⟩ := htu hash session' h'
  exact ⟨session'', h'', huser''.trans huser', fun hr => hrevoked'' (hrevoked' hr)⟩

/-- The users are of no concern. -/
theorem of_sessions_eq (h : t.sessions = s.sessions) : Carries s t := by
  intro hash session hfind
  rw [← h] at hfind
  exact ⟨session, hfind, rfl, id⟩

theorem map {f : UserSession → UserSession} (hf : ∀ a, (f a).tokenHash = a.tokenHash)
    (huser : ∀ a, (f a).userId = a.userId)
    (hrevoked : ∀ a, a.revokedAt.isSome → (f a).revokedAt.isSome) :
    Carries s { s with sessions := s.sessions.map f hf } := by
  intro hash session h
  refine ⟨f session, ?_, huser session, hrevoked session⟩
  rw [Table.find_map, h, Option.map_some]

theorem revokeWhere (clock : Instant) (revokes : UserSession → Bool) (s : AuthStore) :
    Carries s (revokeWhere clock revokes s) := by
  apply map
  · intro a
    rfl
  · intro a ha
    dsimp only
    split_ifs
    · rfl
    · exact ha

theorem insert {session : UserSession} {sessions : Table UserSession.tokenHash}
    (h : s.sessions.insert session = some sessions) :
    Carries s { s with sessions := sessions } :=
  fun _ session' hfind => ⟨session', Table.find_insert h hfind, rfl, id⟩

end Carries

theorem commit_carries {f : AuthStore → AuthStore} (h : ∀ t, Carries t (f t)) :
    Session.Keeps (ε := AuthError) (Carries s) (.commit f) :=
  .commit fun t ht => ht.trans (h t)

theorem createSession_carries (p : Primitives) (clock : Instant) (user : AppUser)
    (token : String) : Session.Keeps (Carries s) (createSession p clock user token) := by
  apply Session.Keeps.transact
  intro t a t' ht hrun
  split at hrun <;> cases hrun
  rename_i sessions hinsert
  exact ht.trans (.insert hinsert)

theorem resolveSession_carries (p : Primitives) (clock : Instant) (token : String) :
    Session.Keeps (Carries s) (resolveSession p clock token) := by
  apply Session.Keeps.bind (.read _)
  intro user
  cases user with
  | none => exact .pure _
  | some user =>
    apply Session.Keeps.bind
    · apply commit_carries
      intro t
      apply Carries.map
      · intro a
        dsimp only
        split_ifs <;> rfl
      · intro a ha
        split_ifs <;> exact ha
    · exact fun _ => .pure _

/-- A call keeps the sessions. -/
theorem perform_carries (p : Primitives) (call : AuthCall) :
    Session.Keeps (Carries s) (call.perform p) := by
  cases call with
  | authenticate clock email password =>
    refine .bind ?_ fun _ => .pure _
    refine .bind (.read _) fun user => .bind (.ofExcept _) fun r => .bind ?_ fun _ =>
      .bind (.read _) fun t => .ofExcept _
    exact commit_carries fun t => .of_sessions_eq rfl
  | createSession clock user token =>
    exact .bind (createSession_carries p clock user token) fun _ => .pure _
  | resolveSession clock token =>
    exact .bind (resolveSession_carries p clock token) fun _ => .pure _
  | revokeSession clock token =>
    apply Session.Keeps.bind (.read _)
    intro session
    cases session with
    | none => exact .pure _
    | some session => exact .ite (commit_carries fun t => .revokeWhere _ _ _) (.pure _)
  | revokeAllSessions clock userId =>
    refine .bind ?_ fun _ => .pure _
    apply Session.Keeps.transact
    intro t a t' ht hrun
    cases hrun
    exact ht.trans (.revokeWhere _ _ _)
  | setPassword clock userId salt newPassword =>
    show Session.Keeps _ (setPassword p clock userId salt newPassword)
    unfold setPassword
    split
    · exact .ofExcept _
    · exact commit_carries fun t => (Carries.revokeWhere _ _ _).trans (.of_sessions_eq rfl)
  | setStatus clock userId status =>
    apply commit_carries
    intro t
    split_ifs
    · exact (Carries.revokeWhere _ _ _).trans (.of_sessions_eq rfl)
    · exact .of_sessions_eq rfl
  | setRole userId role => exact commit_carries fun t => .of_sessions_eq rfl

theorem carries_after (p : Primitives) (calls : List AuthCall) (s : AuthStore) :
    Carries s (afterCalls p calls s) :=
  Session.after_of_commits (.refl s) fun call _ t ht => (perform_carries p call t ht).1

/-! ## Revocations -/

/-- The session of a token has been revoked. -/
def RevokedFor (p : Primitives) (token : String) (s : AuthStore) : Prop :=
  ∃ session, s.sessions.find (p.sha256 token) = some session ∧ session.revokedAt.isSome

theorem RevokedFor.carried (h : RevokedFor p token s) (hst : Carries s t) :
    RevokedFor p token t := by
  obtain ⟨session, hfind, hrevoked⟩ := h
  obtain ⟨session', hfind', -, hrevoked'⟩ := hst _ session hfind
  exact ⟨session', hfind', hrevoked' hrevoked⟩

theorem revokedFor_revokeWhere (clock : Instant) {revokes : UserSession → Bool}
    {session : UserSession} (hfind : s.sessions.find (p.sha256 token) = some session)
    (hrevokes : revokes session = true) : RevokedFor p token (revokeWhere clock revokes s) := by
  refine ⟨_, by rw [revokeWhere, Table.find_map, hfind, Option.map_some], ?_⟩
  cases hrevoked : session.revokedAt <;> simp [hrevokes]

/-- A revoking call leaves the session revoked. -/
theorem revokes_final {call : AuthCall} {session : UserSession}
    (hfind : s.sessions.find (p.sha256 token) = some session)
    (hrevokes : call.Revokes p token session.userId) :
    RevokedFor p token (((call.perform p).run s).final s) := by
  cases call with
  | revokeSession clock token' =>
    obtain rfl : token' = token := hrevokes
    show RevokedFor p token' (((revokeSession p clock token').run s).final s)
    rw [revokeSession, Session.read_bind, hfind]
    dsimp only
    cases hrevoked : session.revokedAt with
    | none =>
      rw [Option.isNone_none, if_pos rfl]
      exact revokedFor_revokeWhere clock hfind (by simp)
    | some at' => exact ⟨session, hfind, by rw [hrevoked]; rfl⟩
  | revokeAllSessions clock userId =>
    obtain rfl : userId = session.userId := hrevokes
    exact revokedFor_revokeWhere clock hfind (by simp)
  | setPassword clock userId salt newPassword =>
    obtain ⟨rfl, hhash⟩ := hrevokes
    obtain ⟨stored, hstored⟩ := Option.isSome_iff_exists.mp hhash
    show RevokedFor p token (((setPassword p clock session.userId salt newPassword).run s).final s)
    rw [setPassword, hstored]
    have hrevoked : RevokedFor p token (revokeWhere clock (·.userId = session.userId) s) :=
      revokedFor_revokeWhere clock hfind (by simp)
    exact hrevoked.carried (.of_sessions_eq rfl)
  | setStatus clock userId status =>
    obtain ⟨rfl, rfl⟩ := hrevokes
    have hrevoked : RevokedFor p token (revokeWhere clock (·.userId = session.userId) s) :=
      revokedFor_revokeWhere clock hfind (by simp)
    exact hrevoked.carried (.of_sessions_eq rfl)
  | authenticate => exact hrevokes.elim
  | createSession => exact hrevokes.elim
  | resolveSession => exact hrevokes.elim
  | setRole => exact hrevokes.elim

/-! ## Issued tokens -/

theorem createSession_issues {created expiresAt : Instant} {user : AppUser}
    (h : ((createSession p created user token).run s).outcome = .ok (token, expiresAt)) :
    ∃ session, (((createSession p created user token).run s).final s).sessions.find
        (p.sha256 token) = some session ∧ session.userId = user.id := by
  unfold createSession at h ⊢
  set row : UserSession := {
    userId := user.id
    organizationId := user.organizationId
    tokenHash := p.sha256 token
    expiresAt := created + sessionTtl
    lastSeenAt := some created }
  cases hinsert : s.sessions.insert row with
  | none =>
    rw [Session.transact_error (by rw [hinsert])] at h
    cases h
  | some sessions =>
    rw [Session.transact_ok (by rw [hinsert])]
    refine ⟨row, Table.find_eq_some.mpr ⟨?_, rfl⟩, rfl⟩
    show row ∈ sessions.rows
    rw [(Table.insert_eq_some hinsert).2]
    exact List.mem_append_right _ List.mem_cons_self

theorem performCreate_final (p : Primitives) (created : Instant) (user : AppUser)
    (token : String) (s : AuthStore) :
    (((AuthCall.createSession created user token).perform p).run s).final s =
      ((createSession p created user token).run s).final s :=
  Session.final_congr_commits (Session.bind_pure_commits _ (fun _ => ()) s) s

/-- Whom a session is resolved to. -/
theorem resolveSession_outcome (p : Primitives) (clock : Instant) (token : String)
    (s : AuthStore) :
    ((resolveSession p clock token).run s).outcome = .ok (liveUser p clock token s) := by
  rw [resolveSession, Session.read_bind]
  cases liveUser p clock token s <;> rfl

theorem liveUser_eq_some {user : AppUser} (h : liveUser p clock token s = some user) :
    ∃ session, s.sessions.find (p.sha256 token) = some session ∧ session.revokedAt = none ∧
      clock < session.expiresAt ∧ s.users.find session.userId = some user ∧
      user.status = .active := by
  unfold liveUser at h
  split at h
  · cases h
  · rename_i session hfind
    split_ifs at h with hdead
    obtain ⟨hrevoked, hexpires⟩ := not_or.mp hdead
    obtain ⟨huser, hstatus⟩ := Option.filter_eq_some_iff.mp h
    refine ⟨session, hfind, by simpa using hrevoked, not_le.mp hexpires, huser, ?_⟩
    exact of_decide_eq_true hstatus

theorem liveUser_of_revoked (h : RevokedFor p token s) (clock : Instant) :
    liveUser p clock token s = none := by
  obtain ⟨session, hfind, hrevoked⟩ := h
  rw [liveUser, hfind]
  exact if_pos (.inl hrevoked)

/-- In every run, from any store, a token that has been issued is resolved to nobody once it or
the sessions of its user have been revoked; and whoever a token is resolved to is the active user
of a session that is neither expired nor revoked. -/
theorem revocation_is_permanent (p : Primitives) (s : AuthStore) (earlier : List AuthCall)
    (token : String) (checked : Instant) :
    (∀ created expiresAt user between revocation later,
      ((createSession p created user token).run (afterCalls p earlier s)).outcome =
          .ok (token, expiresAt) →
        AuthCall.Revokes p token user.id revocation →
        ((resolveSession p checked token).run (afterCalls p
          (earlier ++ .createSession created user token :: (between ++ revocation :: later))
          s)).outcome = .ok none) ∧
      ∀ user, ((resolveSession p checked token).run (afterCalls p earlier s)).outcome =
          .ok (some user) →
        ∃ session, (afterCalls p earlier s).sessions.find (p.sha256 token) = some session ∧
          session.revokedAt = none ∧ checked < session.expiresAt ∧
          (afterCalls p earlier s).users.find session.userId = some user ∧
          user.status = .active := by
  constructor
  · intro created expiresAt user between revocation later hissued hrevokes
    simp only [afterCalls, Session.after_append, Session.after]
    obtain ⟨session, hfind, huser⟩ := createSession_issues hissued
    rw [← performCreate_final] at hfind
    obtain ⟨session', hfind', huser', -⟩ := carries_after p between _ _ session hfind
    rw [← huser, ← huser'] at hrevokes
    have hrevoked := (revokes_final hfind' hrevokes).carried (carries_after p later _)
    rw [resolveSession_outcome]
    exact congrArg Except.ok (liveUser_of_revoked hrevoked checked)
  · intro user h
    rw [resolveSession_outcome] at h
    exact liveUser_eq_some (Except.ok.inj h)

/-- The user has a session until he is disabled; that he is enabled again does not restore it. -/
theorem revocation_after_disabling :
    (∃ session, (afterCalls plainPrimitives [.createSession 0 firstUser "token"]
        oneUser).sessions.find "token" = some session ∧ session.revokedAt = none) ∧
      ((resolveSession plainPrimitives 3 "token").run (afterCalls plainPrimitives
        [.createSession 0 firstUser "token", .setStatus 1 1 .disabled, .setStatus 2 1 .active]
        oneUser)).outcome = .ok none := by
  constructor
  · obtain ⟨session, hfind, hrevoked, -⟩ := (revocation_is_permanent plainPrimitives oneUser
      [.createSession 0 firstUser "token"] "token" 1).2 firstUser rfl
    exact ⟨session, hfind, hrevoked⟩
  · exact (revocation_is_permanent plainPrimitives oneUser [] "token" 3).1 0 sessionTtl firstUser
      [] (.setStatus 1 1 .disabled) [.setStatus 2 1 .active] rfl ⟨rfl, rfl⟩

end PaymentOps.Auth
