import TradingHub.Services.Auth

set_option autoImplicit false

/-! # What a request does to the users and the token store

`Effect` lists, once for all, what each request of the authentication service can do to the rows of
`users` and to the revocations, with its reply; `serve_effect` says that a request served on a clean
session does one of these things. Everything that is said about runs of the service follows from
it. -/

namespace TradingHub

open Library

/-- `decode` returns the claims of the token it is given. -/
theorem TokenService.decode_eq_ok {token claims : TokenClaims} {expectedType : TokenType} {now : ℚ}
    (h : TokenService.decode token expectedType now = .ok claims) : claims = token := by
  unfold TokenService.decode at h
  split at h
  · exact absurd h (by simp)
  · split at h
    · exact absurd h (by simp)
    · split at h
      · exact absurd h (by simp)
      · exact (Except.ok.inj h).symm

theorem TokenService.decode_eq_error {token : TokenClaims} {expectedType : TokenType} {now : ℚ}
    {e : AuthError} (h : TokenService.decode token expectedType now = .error e) :
    ∃ message, e = .invalidToken message := by
  unfold TokenService.decode at h
  split at h
  · exact ⟨_, (Except.error.inj h).symm⟩
  · split at h
    · exact ⟨_, (Except.error.inj h).symm⟩
    · split at h
      · exact ⟨_, (Except.error.inj h).symm⟩
      · exact absurd h (by simp)

/-! ## The second factor and the credentials -/

/-- The row after credentials were accepted: at most the second factor was used. -/
theorem accepted_cases {env : AuthEnv} {id id' : String} {user accepted : UserRecord}
    {password : String} {totpCode : Option String} {now : ℚ}
    (h : checkCredentials env (some (id, user)) password totpCode now = .accepted id' accepted) :
    (user.totpEnabled = false ∧ accepted = user) ∨
      (user.totpEnabled = true ∧ consumeTotp env user (totpCode.getD "") now = .ok accepted) := by
  simp only [checkCredentials] at h
  split at h
  · exact absurd h (by simp)
  · split at h
    · exact absurd h (by simp)
    · split at h
      · next henabled =>
        split at h
        · exact absurd h (by simp)
        · split at h
          · next consumed hconsumed =>
            exact .inr ⟨henabled, hconsumed.trans (congrArg _ (Credentials.accepted.inj h).2)⟩
          · split at h
            · exact absurd h (by simp)
            · exact absurd h (by simp)
      · next henabled =>
        exact .inl ⟨by simpa using henabled, (Credentials.accepted.inj h).2.symm⟩

/-- Using the second factor burns a time step and changes nothing else. -/
theorem consumeTotp_eq_ok {env : AuthEnv} {user consumed : UserRecord} {code : String} {now : ℚ}
    (h : consumeTotp env user code now = .ok consumed) :
    ∃ secret counter, env.decrypt (user.totpSecretEnc.getD "") = some secret ∧
      env.totp.verifyCounter secret code now = .ok (some counter) ∧
      (∀ last, user.totpLastCounter = some last → last < counter) ∧
      consumed = { user with totpLastCounter := some counter } := by
  unfold consumeTotp at h
  split at h
  · exact absurd h (by simp)
  · next secret hsecret =>
    split at h
    · exact absurd h (by simp)
    · exact absurd h (by simp)
    · next counter hcounter =>
      split at h
      · exact absurd h (by simp)
      · next hfresh =>
        refine ⟨secret, counter, hsecret, hcounter, fun last hlast => ?_, (Except.ok.inj h).symm⟩
        rw [hlast] at hfresh
        simpa using hfresh

/-! ## Effects -/

/-- The row of a user who logs in, with the password hashed anew if the parameters changed. -/
def UserRecord.rehashed (env : AuthEnv) (draws : Draws) (password : String) (user : UserRecord) :
    UserRecord :=
  if env.needsRehash user.passwordHash then
    { user with passwordHash := env.hash draws.salt password }
  else user

/-- What a request served in the state `s` can reply, and the users and revocations it leaves. -/
inductive Effect (env : AuthEnv) (draws : Draws) (s : AuthServer) :
    AuthRequest → Except AuthFailure AuthReply → Dict String UserRecord → TokenStore → Prop
  /-- A request other than `refresh` raises. -/
  | raised {request : AuthRequest} (failure : AuthFailure)
      (hrequest : ∀ token, request ≠ .refresh token) :
      Effect env draws s request (.error failure) s.db.users s.tokenStore
  | registered {email password : String} (hnew : s.db.users.get? draws.userId = none) :
      Effect env draws s (.register email password) (.ok (.registered draws.userId))
        (s.db.users.set draws.userId { email := env.text.lower email
                                       passwordHash := env.hash draws.salt password
                                       role := "trader" })
        s.tokenStore
  | loggedIn {email password : String} {totpCode ip : Option String} {id : String}
      {user accepted : UserRecord} (hget : s.db.users.get? id = some user)
      (haccepted : checkCredentials env (some (id, user)) password totpCode s.now
        = .accepted id accepted) :
      Effect env draws s (.login email password totpCode ip)
        (.ok (.pair (env.tokens.issuePair id (accepted.rehashed env draws password).role
          (accepted.rehashed env draws password).tokenGeneration draws.accessJti draws.refreshJti
          s.now)))
        (s.db.users.set id (accepted.rehashed env draws password)) s.tokenStore
  | invalid {token : TokenClaims} {message : String}
      (hdecode : TokenService.decode token .refresh s.now = .error (.invalidToken message)) :
      Effect env draws s (.refresh token) (.error (.token (.invalidToken message))) s.db.users
        s.tokenStore
  | inactive {token : TokenClaims}
      (hinactive : ∀ user, s.db.users.get? token.subject = some user → user.isActive = false) :
      Effect env draws s (.refresh token) (.error (authenticationError "User no longer active."))
        s.db.users s.tokenStore
  /-- A revoked token: the sessions of its user are dropped. -/
  | reused {token : TokenClaims} {user : UserRecord}
      (hdecode : TokenService.decode token .refresh s.now = .ok token)
      (hget : s.db.users.get? token.subject = some user) (hactive : user.isActive = true)
      (hrevoked : (s.tokenStore.isRevoked token.jti s.now).1 = true) :
      Effect env draws s (.refresh token)
        (.error (authenticationError "This refresh token has been revoked."))
        (s.db.users.set token.subject { user with tokenGeneration := user.tokenGeneration + 1 })
        (s.tokenStore.isRevoked token.jti s.now).2
  /-- A token of a session that has been dropped. -/
  | outdated {token : TokenClaims} {user : UserRecord}
      (hdecode : TokenService.decode token .refresh s.now = .ok token)
      (hget : s.db.users.get? token.subject = some user) (hactive : user.isActive = true)
      (hrevoked : (s.tokenStore.isRevoked token.jti s.now).1 = false)
      (hgeneration : token.generation < user.tokenGeneration) :
      Effect env draws s (.refresh token)
        (.error (authenticationError "This session has been invalidated."))
        s.db.users (s.tokenStore.isRevoked token.jti s.now).2
  | rotated {token : TokenClaims} {user : UserRecord}
      (hdecode : TokenService.decode token .refresh s.now = .ok token)
      (hget : s.db.users.get? token.subject = some user) (hactive : user.isActive = true)
      (hrevoked : (s.tokenStore.isRevoked token.jti s.now).1 = false)
      (hgeneration : user.tokenGeneration ≤ token.generation) :
      Effect env draws s (.refresh token)
        (.ok (.pair (env.tokens.issuePair token.subject user.role user.tokenGeneration
          draws.accessJti draws.refreshJti s.now)))
        s.db.users
        ((s.tokenStore.isRevoked token.jti s.now).2.revoke token.jti
          (remainingTtl token.expiresAt s.now) s.now)
  | loggedOut {token : TokenClaims}
      (hdecode : TokenService.decode token .refresh s.now = .ok token) :
      Effect env draws s (.logout token) (.ok .done) s.db.users
        (s.tokenStore.revoke token.jti (remainingTtl token.expiresAt s.now) s.now)
  | ignored {token : TokenClaims} {e : AuthError}
      (hdecode : TokenService.decode token .refresh s.now = .error e) :
      Effect env draws s (.logout token) (.ok .done) s.db.users s.tokenStore
  | enrolled {userId : String} {user : UserRecord} (hget : s.db.users.get? userId = some user)
      (hdisabled : user.totpEnabled = false) :
      Effect env draws s (.enroll userId)
        (.ok (.enrolment draws.secret (env.totp.provisioningUri draws.secret user.email)))
        (s.db.users.set userId
          { user with totpSecretEnc := some (env.encrypt draws.nonce draws.secret) })
        s.tokenStore
  | confirmed {userId code : String} {user consumed : UserRecord}
      (hget : s.db.users.get? userId = some user) (hsecret : user.totpSecretEnc.getD "" ≠ "")
      (hconsumed : consumeTotp env user code s.now = .ok consumed) :
      Effect env draws s (.confirm userId code) (.ok .done)
        (s.db.users.set userId { consumed with totpEnabled := true }) s.tokenStore
  | disabled {userId code : String} {user consumed : UserRecord}
      (hget : s.db.users.get? userId = some user) (henabled : user.totpEnabled = true)
      (hsecret : user.totpSecretEnc.getD "" ≠ "")
      (hconsumed : consumeTotp env user code s.now = .ok consumed) :
      Effect env draws s (.disable userId code) (.ok .done)
        (s.db.users.set userId
          { consumed with totpEnabled := false, totpSecretEnc := none, totpLastCounter := none })
        s.tokenStore

/-- The outcome of a request: one of the effects, a clean session and an unchanged clock. -/
structure Outcome (env : AuthEnv) (draws : Draws) (s : AuthServer) (request : AuthRequest)
    (result : Except AuthFailure AuthReply × AuthServer) : Prop where
  effect : Effect env draws s request result.1 result.2.db.users result.2.tokenStore
  clean : result.2.committed = result.2.db
  clock : result.2.now = s.now

namespace AuthService

-- What running a handler to its end unfolds.
attribute [local simp] handle authenticate recordAudit commitSecurityEvent AuthServer.setUser
  AuthServer.setThrottle AuthServer.setTokenStore bind Act.bind pure Act.pure Act.read Act.modify
  Act.raise Act.ofExcept

variable {env : AuthEnv} {draws : Draws} {s : AuthServer}

/-- A handler that returns is committed. -/
theorem Outcome.of_ok {request : AuthRequest} {reply : AuthReply} {users : Dict String UserRecord}
    {tokenStore : TokenStore}
    (h : ∃ s', handle env draws request s = (.ok reply, s') ∧ s'.db.users = users ∧
      s'.tokenStore = tokenStore ∧ s'.now = s.now)
    (heffect : Effect env draws s request (.ok reply) users tokenStore) :
    Outcome env draws s request (serve env draws request s) := by
  obtain ⟨s', hrun, rfl, rfl, hnow⟩ := h
  rw [serve, hrun]
  exact ⟨heffect, rfl, hnow⟩

/-- A handler that raises is rolled back to what it had committed. -/
theorem Outcome.of_error {request : AuthRequest} {failure : AuthFailure}
    {users : Dict String UserRecord} {tokenStore : TokenStore}
    (h : ∃ s', handle env draws request s = (.error failure, s') ∧ s'.committed.users = users ∧
      s'.tokenStore = tokenStore ∧ s'.now = s.now)
    (heffect : Effect env draws s request (.error failure) users tokenStore) :
    Outcome env draws s request (serve env draws request s) := by
  obtain ⟨s', hrun, rfl, rfl, hnow⟩ := h
  rw [serve, hrun]
  exact ⟨heffect, rfl, hnow⟩

theorem outcome_register {email password : String} (hclean : s.committed = s.db) :
    Outcome env draws s (.register email password)
      (serve env draws (.register email password) s) := by
  by_cases hemail : (s.findByEmail (env.text.lower (env.text.lower email))).isSome
  · refine Outcome.of_error ?_ (.raised (.conflict "A user with this email already exists.")
      (by simp))
    simp [register, hemail, hclean]
  · by_cases hid : (s.db.users.get? draws.userId).isSome
    · refine Outcome.of_error ?_ (.raised (.token (.external "IntegrityError")) (by simp))
      simp [register, hemail, hid, hclean]
    · refine Outcome.of_ok ?_ (.registered (by simpa using hid))
      simp [register, hemail, hid]

/-- The row that is found by its email is the row of its key. -/
theorem get?_of_findByEmail {email id : String} {user : UserRecord}
    (h : s.findByEmail email = some (id, user)) : s.db.users.get? id = some user :=
  (Dict.get?_eq_some_iff _ _ _).2 (List.mem_of_find?_eq_some h)

/-- Credentials are accepted for the row that was found. -/
theorem found_of_accepted {found : Option (String × UserRecord)} {password : String}
    {totpCode : Option String} {now : ℚ} {id : String} {accepted : UserRecord}
    (h : checkCredentials env found password totpCode now = .accepted id accepted) :
    ∃ user, found = some (id, user) := by
  unfold checkCredentials at h
  split at h
  · exact absurd h (by simp)
  · next id' user =>
    refine ⟨user, ?_⟩
    split at h
    · exact absurd h (by simp)
    · split at h
      · exact absurd h (by simp)
      · split at h
        · simp only at h
          split at h
          · exact absurd h (by simp)
          · split at h
            · rw [(Credentials.accepted.inj h).1]
            · split at h
              · exact absurd h (by simp)
              · exact absurd h (by simp)
        · rw [(Credentials.accepted.inj h).1]

theorem outcome_login {email password : String} {totpCode ip : Option String}
    (hclean : s.committed = s.db) :
    Outcome env draws s (.login email password totpCode ip)
      (serve env draws (.login email password totpCode ip) s) := by
  by_cases hlocked : (s.throttle.isLocked env.text (env.text.lower email) s.now).1
  · refine Outcome.of_error ?_ (.raised (.accountLocked
      ((s.throttle.isLocked env.text (env.text.lower email) s.now).2.retryAfter env.text
        (env.text.lower email) s.now)) (by simp))
    simp [hlocked]
  · cases hcheck : checkCredentials env
        (s.findByEmail (env.text.lower (env.text.lower email))) password totpCode s.now with
    | rejected failure action userId =>
      refine Outcome.of_error ?_ (.raised failure (by simp))
      simp [hlocked, hcheck]
    | raised failure =>
      refine Outcome.of_error ?_ (.raised failure (by simp))
      simp [hlocked, hcheck, hclean]
    | accepted id accepted =>
      obtain ⟨user, hfound⟩ := found_of_accepted hcheck
      rw [hfound] at hcheck
      refine Outcome.of_ok ?_ (.loggedIn (get?_of_findByEmail hfound) hcheck)
      simp [logIn, hlocked, hfound, hcheck, UserRecord.rehashed]

theorem outcome_refresh {token : TokenClaims} (hclean : s.committed = s.db) :
    Outcome env draws s (.refresh token) (serve env draws (.refresh token) s) := by
  cases hdecode : TokenService.decode token .refresh s.now with
  | error e =>
    obtain ⟨message, rfl⟩ := TokenService.decode_eq_error hdecode
    refine Outcome.of_error ?_ (.invalid hdecode)
    simp [refresh, hdecode, hclean]
  | ok claims =>
    obtain rfl := TokenService.decode_eq_ok hdecode
    cases hget : s.db.users.get? claims.subject with
    | none =>
      refine Outcome.of_error ?_ (.inactive (by simp [hget]))
      simp [refresh, hdecode, hget, hclean]
    | some user =>
      cases hactive : user.isActive with
      | false =>
        refine Outcome.of_error ?_ (.inactive (by simp [hget, hactive]))
        simp [refresh, hdecode, hget, hactive, hclean]
      | true =>
        cases hrevoked : (s.tokenStore.isRevoked claims.jti s.now).1 with
        | true =>
          refine Outcome.of_error ?_ (.reused hdecode hget hactive hrevoked)
          simp [refresh, rotate, invalidateSessions, hdecode, hget, hactive, hrevoked]
        | false =>
          by_cases hgeneration : claims.generation < user.tokenGeneration
          · refine Outcome.of_error ?_ (.outdated hdecode hget hactive hrevoked hgeneration)
            simp [refresh, rotate, hdecode, hget, hactive, hrevoked, hgeneration, hclean]
          · refine Outcome.of_ok ?_
              (.rotated hdecode hget hactive hrevoked (not_lt.1 hgeneration))
            simp [refresh, rotate, hdecode, hget, hactive, hrevoked, hgeneration]

theorem outcome_logout {token : TokenClaims} :
    Outcome env draws s (.logout token) (serve env draws (.logout token) s) := by
  cases hdecode : TokenService.decode token .refresh s.now with
  | error e =>
    refine Outcome.of_ok ?_ (.ignored hdecode)
    simp [logout, hdecode]
  | ok claims =>
    obtain rfl := TokenService.decode_eq_ok hdecode
    refine Outcome.of_ok ?_ (.loggedOut hdecode)
    simp [logout, hdecode]

theorem outcome_enroll {userId : String} (hclean : s.committed = s.db) :
    Outcome env draws s (.enroll userId) (serve env draws (.enroll userId) s) := by
  cases hget : s.db.users.get? userId with
  | none =>
    refine Outcome.of_error ?_ (.raised (.notFound "User not found.") (by simp))
    simp [beginTotpEnrollment, hget, hclean]
  | some user =>
    cases henabled : user.totpEnabled with
    | true =>
      refine Outcome.of_error ?_ (.raised (.conflict
        "Two-factor authentication is already enabled; disable it first to re-enrol.") (by simp))
      simp [beginTotpEnrollment, hget, henabled, hclean]
    | false =>
      refine Outcome.of_ok ?_ (.enrolled hget henabled)
      simp [beginTotpEnrollment, hget, henabled]

theorem outcome_confirm {userId code : String} (hclean : s.committed = s.db) :
    Outcome env draws s (.confirm userId code) (serve env draws (.confirm userId code) s) := by
  cases hget : s.db.users.get? userId with
  | none =>
    refine Outcome.of_error ?_ (.raised (.notFound "No pending TOTP enrolment.") (by simp))
    simp [confirmTotp, hget, hclean]
  | some user =>
    by_cases hsecret : user.totpSecretEnc.getD "" = ""
    · refine Outcome.of_error ?_ (.raised (.notFound "No pending TOTP enrolment.") (by simp))
      simp [confirmTotp, hget, hsecret, hclean]
    · cases hconsumed : consumeTotp env user code s.now with
      | error failure =>
        refine Outcome.of_error ?_ (.raised failure (by simp))
        simp [confirmTotp, hget, hsecret, hconsumed, hclean]
      | ok consumed =>
        refine Outcome.of_ok ?_ (.confirmed hget hsecret hconsumed)
        simp [confirmTotp, hget, hsecret, hconsumed]

theorem outcome_disable {userId code : String} (hclean : s.committed = s.db) :
    Outcome env draws s (.disable userId code) (serve env draws (.disable userId code) s) := by
  cases hget : s.db.users.get? userId with
  | none =>
    refine Outcome.of_error ?_ (.raised (.notFound "User not found.") (by simp))
    simp [disableTotp, hget, hclean]
  | some user =>
    by_cases henabled : user.totpEnabled = true ∧ user.totpSecretEnc.getD "" ≠ ""
    · cases hconsumed : consumeTotp env user code s.now with
      | error failure =>
        refine Outcome.of_error ?_ (.raised failure (by simp))
        simp [disableTotp, hget, henabled, hconsumed, hclean]
      | ok consumed =>
        refine Outcome.of_ok ?_ (.disabled hget henabled.1 henabled.2 hconsumed)
        simp [disableTotp, hget, henabled, hconsumed]
    · have hguard : (!user.totpEnabled || decide (user.totpSecretEnc.getD "" = "")) = true := by
        cases hon : user.totpEnabled with
        | false => rfl
        | true => simpa [hon] using henabled
      refine Outcome.of_error ?_ (.raised
        (.conflict "Two-factor authentication is not enabled.") (by simp))
      simp [disableTotp, hget, hguard, hclean]

/-- A request served on a clean session has one of the effects, and leaves the session clean. -/
theorem serve_outcome (env : AuthEnv) (draws : Draws) (request : AuthRequest) {s : AuthServer}
    (hclean : s.committed = s.db) :
    Outcome env draws s request (serve env draws request s) := by
  cases request with
  | register email password => exact outcome_register hclean
  | login email password totpCode ip => exact outcome_login hclean
  | refresh token => exact outcome_refresh hclean
  | logout token => exact outcome_logout
  | enroll userId => exact outcome_enroll hclean
  | confirm userId code => exact outcome_confirm hclean
  | disable userId code => exact outcome_disable hclean

end AuthService

end TradingHub
