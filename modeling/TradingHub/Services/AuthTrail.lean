import TradingHub.Services.LockoutWait
import TradingHub.Services.Registration

set_option autoImplicit false

/-! # The trail of the authentication service

The unit of work rolls back whatever a rejected request has written, and the events most worth
recording end in a rejection, so the service commits their rows before it raises. Here the audit log
is read back: `Served.trail` says which rows a request and its reply call for, and
`auth_trail_exact` that after every run the committed log is the rows of the requests served, in
their order. What is committed along with the row of a rejection is a new generation of a user
whose revoked token was presented, and nothing else. -/

namespace TradingHub

open Library

/-! ## What a reply calls for -/

/-- The action under which a rejection of credentials is recorded. -/
def AuthFailure.recordedAs (failure : AuthFailure) : Option AuthAction :=
  if failure = authenticationError "Invalid email or password." then some .loginFailed
  else if failure = authenticationError "This account is disabled." then some .loginDisabled
  else if failure = authenticationError "Invalid two-factor code." then some .twoFactorFailed
  else none

namespace Served

/-- The user whose row has the email of the request. -/
def identified (env : AuthEnv) (e : Served) (email : String) : Option String :=
  (e.before.findByEmail (env.text.lower (env.text.lower email))).map Prod.fst

/-- The rows that tell of a request. -/
def trail (env : AuthEnv) (e : Served) : List AuthAudit :=
  match e.request, e.reply with
  | .register _ _, .ok (.registered id) => [⟨.register, some id, none⟩]
  | .login _ _ _ ip, .ok (.pair pair) => [⟨.login, some pair.access.subject, ip⟩]
  | .login _ _ _ ip, .error (.accountLocked _) => [⟨.lockedOut, none, ip⟩]
  | .login email _ _ ip, .error failure =>
    failure.recordedAs.toList.map (⟨·, e.identified env email, ip⟩)
  | .refresh token, .error _ =>
    if e.drops token.subject then
      [⟨.sessionsInvalidated "refresh_token_reuse", some token.subject, none⟩]
    else []
  | .logout token, .ok _ =>
    if TokenService.decode token .refresh e.before.now = .ok token then
      [⟨.logout, some token.subject, none⟩]
    else []
  | .confirm userId _, .ok _ => [⟨.twoFactorEnabled, some userId, none⟩]
  | .disable userId _, .ok _ => [⟨.twoFactorDisabled, some userId, none⟩]
  | _, _ => []

end Served

/-- The row of a user whose sessions are dropped. -/
def UserRecord.dropped (user : UserRecord) : UserRecord :=
  { user with tokenGeneration := user.tokenGeneration + 1 }

/-- pyotp raises exceptions of its own. -/
def TotpService.RaisesOwn (totp : TotpService) : Prop :=
  ∀ secret moment e, totp.codeAt secret moment = .error e → ∃ text, e = .external text

/-! ## The exceptions of a login -/

namespace TotpService

variable {totp : TotpService} {secret code : String}

theorem tryOffset_error (hown : totp.RaisesOwn) {current offset : ℤ} {matched : Option ℤ}
    {e : AuthError} (h : totp.tryOffset secret code current matched offset = .error e) :
    ∃ text, e = .external text := by
  simp only [tryOffset, bind, Except.bind] at h
  split at h
  · next hcode =>
    obtain rfl := Except.error.inj h
    exact hown _ _ _ hcode
  · next value hvalue =>
    split at h
    · next hcompare =>
      obtain rfl := Except.error.inj h
      unfold compareDigest at hcompare
      split at hcompare
      · exact absurd hcompare (by simp)
      · exact ⟨_, (Except.error.inj hcompare).symm⟩
    · split at h
      · exact absurd h (by simp [pure, Except.pure])
      · exact absurd h (by simp [pure, Except.pure])

/-- Verification raises only exceptions that are not the application's. -/
theorem verifyCounter_error (hown : totp.RaisesOwn) {now : ℚ} {e : AuthError}
    (h : totp.verifyCounter secret code now = .error e) : ∃ text, e = .external text := by
  have hloop : ∀ (current : ℤ) (offsets : List ℤ) (matched : Option ℤ),
      offsets.foldlM (totp.tryOffset secret (PyString.strip code) current) matched = .error e →
      ∃ text, e = .external text := by
    intro current offsets
    induction offsets with
    | nil => intro matched hrun; exact absurd hrun (by simp [pure, Except.pure])
    | cons offset offsets ih =>
      intro matched hrun
      simp only [List.foldlM_cons, bind, Except.bind] at hrun
      split at hrun
      · next htry =>
        obtain rfl := Except.error.inj hrun
        exact tryOffset_error hown htry
      · exact ih _ hrun
  unfold verifyCounter at h
  simp only at h
  split at h
  · exact hloop _ _ _ h
  · exact absurd h (by simp)

end TotpService

variable {env : AuthEnv} {draws : Draws} {s : AuthServer}

/-- A code is refused as invalid, or the exception is not the application's. -/
theorem consumeTotp_error (hown : env.totp.RaisesOwn) {user : UserRecord} {code : String} {now : ℚ}
    {failure : AuthFailure} (h : consumeTotp env user code now = .error failure) :
    failure = authenticationError "Invalid two-factor code." ∨
      (failure.isAuthentication = false ∧ failure.recordedAs = none) := by
  unfold consumeTotp at h
  split at h
  · obtain rfl := Except.error.inj h
    exact .inr ⟨rfl, rfl⟩
  · split at h
    · next hraised =>
      obtain rfl := Except.error.inj h
      obtain ⟨text, rfl⟩ := TotpService.verifyCounter_error hown hraised
      exact .inr ⟨rfl, rfl⟩
    · exact .inl (Except.error.inj h).symm
    · split at h
      · exact .inl (Except.error.inj h).symm
      · exact absurd h (by simp)

/-- Credentials that are rejected, with the record of the rejection, and exceptions without one. -/
theorem checkCredentials_recorded (hown : env.totp.RaisesOwn)
    (found : Option (String × UserRecord)) (password : String) (totpCode : Option String) (now : ℚ) :
    match checkCredentials env found password totpCode now with
    | .rejected failure action userId =>
      failure.recordedAs = some action ∧ userId = found.map Prod.fst
    | .raised failure => failure.recordedAs = none
    | .accepted _ _ => True := by
  cases found with
  | none => exact ⟨by decide, rfl⟩
  | some found =>
    obtain ⟨id, user⟩ := found
    simp only [checkCredentials]
    by_cases hverify : env.verify user.passwordHash password = true
    · by_cases hactive : user.isActive = true
      · by_cases henabled : user.totpEnabled = true
        · by_cases hcode : totpCode.getD "" = ""
          · simp [hverify, hactive, henabled, hcode, AuthFailure.recordedAs, authenticationError]
          · cases hconsume : consumeTotp env user (totpCode.getD "") now with
            | ok consumed => simp [hverify, hactive, henabled, hcode]
            | error failure =>
              rcases consumeTotp_error hown hconsume with rfl | ⟨hforeign, hnone⟩
              · simp [hverify, hactive, henabled, hcode, AuthFailure.recordedAs,
                  AuthFailure.isAuthentication, authenticationError]
              · simp [hverify, hactive, henabled, hcode, hforeign, hnone]
        · simp [hverify, hactive, henabled]
      · simp [hverify, hactive, AuthFailure.recordedAs, authenticationError]
    · simp [hverify, AuthFailure.recordedAs, authenticationError]

/-! ## What a request leaves in the trail -/

/-- A request served in the state `s` has left the rows that tell of it, and if it was rejected no
    other change than sessions dropped. -/
structure Told (env : AuthEnv) (draws : Draws) (s : AuthServer) (request : AuthRequest)
    (result : Except AuthFailure AuthReply × AuthServer) : Prop where
  audit : result.2.committed.audit
    = s.committed.audit ++ (Served.mk s draws request result.1).trail env
  users : ∀ failure, result.1 = .error failure → ∀ id,
    result.2.committed.users.get? id = (s.committed.users.get? id).map fun user =>
      if (Served.mk s draws request result.1).drops id then user.dropped else user

/-- The rows of a login that is refused for anything but a lock. -/
theorem Served.trail_rejected {email password : String} {totpCode ip : Option String}
    {failure : AuthFailure} (hlock : ∀ wait, failure ≠ .accountLocked wait) :
    (Served.mk s draws (.login email password totpCode ip) (.error failure)).trail env
      = failure.recordedAs.toList.map
          (⟨·, (s.findByEmail (env.text.lower (env.text.lower email))).map Prod.fst, ip⟩) := by
  cases failure with
  | accountLocked wait => exact absurd rfl (hlock wait)
  | _ => rfl

namespace AuthService

-- What running a handler to its end unfolds.
attribute [local simp] serve handle recordAudit commitSecurityEvent AuthServer.setUser
  AuthServer.setThrottle AuthServer.setTokenStore bind Act.bind pure Act.pure Act.read Act.modify
  Act.raise Act.ofExcept

theorem told_register {email password : String} (hclean : s.committed = s.db) :
    Told env draws s (.register email password)
      (serve env draws (.register email password) s) := by
  by_cases hemail : (s.findByEmail (env.text.lower (env.text.lower email))).isSome
  · constructor
    · simp [register, hemail, Served.trail]
    · simp [register, hemail, Served.drops]
  · by_cases hid : (s.db.users.get? draws.userId).isSome
    · constructor
      · simp [register, hemail, hid, Served.trail]
      · simp [register, hemail, hid, Served.drops]
    · constructor
      · simp [register, hemail, hid, Served.trail, hclean]
      · simp [register, hemail, hid]

theorem told_login (hown : env.totp.RaisesOwn) {email password : String}
    {totpCode ip : Option String} (hclean : s.committed = s.db) :
    Told env draws s (.login email password totpCode ip)
      (serve env draws (.login email password totpCode ip) s) := by
  cases hlocked : (s.throttle.isLocked env.text (env.text.lower email) s.now).1 with
  | true =>
    constructor
    · simp [authenticate, hlocked, Served.trail, hclean]
    · simp [authenticate, hlocked, Served.drops, hclean]
  | false =>
    rw [serve_login hlocked]
    have hrecorded := checkCredentials_recorded hown
      (s.findByEmail (env.text.lower (env.text.lower email))) password totpCode s.now
    cases hcheck : checkCredentials env
        (s.findByEmail (env.text.lower (env.text.lower email))) password totpCode s.now with
    | rejected failure action userId =>
      rw [hcheck] at hrecorded
      obtain ⟨haction, rfl⟩ := hrecorded
      constructor
      · have hlock : ∀ wait, failure ≠ .accountLocked wait := by
          rintro wait rfl
          exact absurd haction (by simp [AuthFailure.recordedAs, authenticationError])
        simp only [loginResult]
        rw [Served.trail_rejected hlock, haction, hclean]
        rfl
      · simp [loginResult, Served.drops, hclean]
    | raised failure =>
      rw [hcheck] at hrecorded
      constructor
      · have hlock : ∀ wait, failure ≠ .accountLocked wait := by
          rintro wait rfl
          exact (checkCredentials_ne_accountLocked env _ password totpCode s.now wait).2 hcheck
        simp only [loginResult]
        rw [Served.trail_rejected hlock, hrecorded]
        exact (List.append_nil _).symm
      · simp [loginResult, Served.drops]
    | accepted id user =>
      constructor
      · simp [loginResult, Served.trail, hclean, TokenService.issuePair, TokenService.encode]
      · simp [loginResult]

theorem told_refresh {token : TokenClaims} (hclean : s.committed = s.db) :
    Told env draws s (.refresh token) (serve env draws (.refresh token) s) := by
  cases hdecode : TokenService.decode token .refresh s.now with
  | error e =>
    obtain ⟨message, rfl⟩ := TokenService.decode_eq_error hdecode
    constructor
    · simp [refresh, hdecode, Served.trail, Served.drops, authenticationError]
    · simp [refresh, hdecode, Served.drops, authenticationError]
  | ok claims =>
    obtain rfl := TokenService.decode_eq_ok hdecode
    cases hget : s.db.users.get? claims.subject with
    | none =>
      constructor
      · simp [refresh, hdecode, hget, Served.trail, Served.drops, authenticationError]
      · simp [refresh, hdecode, hget, Served.drops, authenticationError]
    | some user =>
      cases hactive : user.isActive with
      | false =>
        constructor
        · simp [refresh, hdecode, hget, hactive, Served.trail, Served.drops, authenticationError]
        · simp [refresh, hdecode, hget, hactive, Served.drops, authenticationError]
      | true =>
        cases hrevoked : (s.tokenStore.isRevoked claims.jti s.now).1 with
        | true =>
          constructor
          · simp [refresh, rotate, invalidateSessions, hdecode, hget, hactive, hrevoked, hclean,
              Served.trail, Served.drops]
          · intro failure _ id
            by_cases hid : id = claims.subject
            · subst hid
              simp [refresh, rotate, invalidateSessions, hdecode, hget, hactive, hrevoked, hclean,
                Served.drops, UserRecord.dropped]
            · simp [refresh, rotate, invalidateSessions, hdecode, hget, hactive, hrevoked, hclean,
                Served.drops, Dict.get?_set_of_ne _ _ hid, Ne.symm hid]
        | false =>
          by_cases hgeneration : claims.generation < user.tokenGeneration
          · constructor
            · simp [refresh, rotate, hdecode, hget, hactive, hrevoked, hgeneration, Served.trail,
                Served.drops, authenticationError]
            · simp [refresh, rotate, hdecode, hget, hactive, hrevoked, hgeneration, Served.drops,
                authenticationError]
          · constructor
            · simp [refresh, rotate, hdecode, hget, hactive, hrevoked, hgeneration, hclean,
                Served.trail]
            · simp [refresh, rotate, hdecode, hget, hactive, hrevoked, hgeneration]

theorem told_logout {token : TokenClaims} (hclean : s.committed = s.db) :
    Told env draws s (.logout token) (serve env draws (.logout token) s) := by
  cases hdecode : TokenService.decode token .refresh s.now with
  | error e =>
    constructor
    · simp [logout, hdecode, Served.trail, hclean]
    · simp [logout, hdecode]
  | ok claims =>
    obtain rfl := TokenService.decode_eq_ok hdecode
    constructor
    · simp [logout, hdecode, Served.trail, hclean]
    · simp [logout, hdecode]

theorem told_enroll {userId : String} (hclean : s.committed = s.db) :
    Told env draws s (.enroll userId) (serve env draws (.enroll userId) s) := by
  cases hget : s.db.users.get? userId with
  | none =>
    constructor
    · simp [beginTotpEnrollment, hget, Served.trail]
    · simp [beginTotpEnrollment, hget, Served.drops]
  | some user =>
    cases henabled : user.totpEnabled with
    | true =>
      constructor
      · simp [beginTotpEnrollment, hget, henabled, Served.trail]
      · simp [beginTotpEnrollment, hget, henabled, Served.drops]
    | false =>
      constructor
      · simp [beginTotpEnrollment, hget, henabled, Served.trail, hclean]
      · simp [beginTotpEnrollment, hget, henabled]

theorem told_confirm {userId code : String} (hclean : s.committed = s.db) :
    Told env draws s (.confirm userId code) (serve env draws (.confirm userId code) s) := by
  cases hget : s.db.users.get? userId with
  | none =>
    constructor
    · simp [confirmTotp, hget, Served.trail]
    · simp [confirmTotp, hget, Served.drops]
  | some user =>
    by_cases hsecret : user.totpSecretEnc.getD "" = ""
    · constructor
      · simp [confirmTotp, hget, hsecret, Served.trail]
      · simp [confirmTotp, hget, hsecret, Served.drops]
    · cases hconsumed : consumeTotp env user code s.now with
      | error failure =>
        constructor
        · simp [confirmTotp, hget, hsecret, hconsumed, Served.trail]
        · simp [confirmTotp, hget, hsecret, hconsumed, Served.drops]
      | ok consumed =>
        constructor
        · simp [confirmTotp, hget, hsecret, hconsumed, Served.trail, hclean]
        · simp [confirmTotp, hget, hsecret, hconsumed]

theorem told_disable {userId code : String} (hclean : s.committed = s.db) :
    Told env draws s (.disable userId code) (serve env draws (.disable userId code) s) := by
  cases hget : s.db.users.get? userId with
  | none =>
    constructor
    · simp [disableTotp, hget, Served.trail]
    · simp [disableTotp, hget, Served.drops]
  | some user =>
    cases hguard : !user.totpEnabled || decide (user.totpSecretEnc.getD "" = "") with
    | true =>
      constructor
      · simp [disableTotp, hget, hguard, Served.trail]
      · simp [disableTotp, hget, hguard, Served.drops]
    | false =>
      cases hconsumed : consumeTotp env user code s.now with
      | error failure =>
        constructor
        · simp [disableTotp, hget, hguard, hconsumed, Served.trail]
        · simp [disableTotp, hget, hguard, hconsumed, Served.drops]
      | ok consumed =>
        constructor
        · simp [disableTotp, hget, hguard, hconsumed, Served.trail, hclean]
        · simp [disableTotp, hget, hguard, hconsumed]

/-- The step: a request served on a clean session leaves the rows that tell of it. -/
theorem serve_told (hown : env.totp.RaisesOwn) (request : AuthRequest)
    (hclean : s.committed = s.db) :
    Told env draws s request (serve env draws request s) := by
  cases request with
  | register email password => exact told_register hclean
  | login email password totpCode ip => exact told_login hown hclean
  | refresh token => exact told_refresh hclean
  | logout token => exact told_logout hclean
  | enroll userId => exact told_enroll hclean
  | confirm userId code => exact told_confirm hclean
  | disable userId code => exact told_disable hclean

end AuthService

/-! ## Runs -/

namespace Chronicle

variable {guard : AuthHistory → AuthInput → Prop} {first server : AuthServer} {past : List Served}

/-- The next request leaves the rows that tell of it. -/
theorem told (h : Chronicle env guard first server past) (hown : env.totp.RaisesOwn)
    (input : AuthInput) :
    Told env input.draws (server.atMoment input.moment) input.request
      (AuthService.serve env input.draws input.request (server.atMoment input.moment)) :=
  AuthService.serve_told hown input.request h.clean

/-- The rows of a run. -/
theorem audit (h : Chronicle env guard first server past) (hown : env.totp.RaisesOwn) :
    server.committed.audit
      = first.committed.audit ++ past.reverse.flatMap (Served.trail env) := by
  induction h with
  | start _ => simp
  | @served server past h input _ ih =>
    have haudit : (server.after env input).committed.audit
        = server.committed.audit ++ (server.served env input).trail env := (h.told hown input).audit
    rw [haudit, ih, List.reverse_cons, List.flatMap_append, List.append_assoc]
    simp

end Chronicle

/-- The committed audit log after a run of the service is the rows that tell of the requests, each
    with its own and in the order they were served, although a rejected request is rolled back; and a
    request that is rejected changes no row of a user, unless it presented a revoked token: then the
    sessions of that user are dropped, and that is all. -/
theorem auth_trail_exact (env : AuthEnv) (hown : env.totp.RaisesOwn)
    {guard : AuthHistory → AuthInput → Prop} {first server : AuthServer} {past : List Served}
    (h : Chronicle env guard first server past) :
    server.committed.audit
        = first.committed.audit ++ past.reverse.flatMap (Served.trail env) ∧
      ∀ input failure, (server.served env input).reply = .error failure → ∀ id,
        (server.after env input).committed.users.get? id
          = (server.committed.users.get? id).map fun user =>
              if (server.served env input).drops id then user.dropped else user :=
  ⟨h.audit hown, fun input failure hreply id => (h.told hown input).users failure hreply id⟩

/-- A wrong password, a login, an exchange of its token and a second use of the token. -/
def trailInputs : List AuthInput :=
  [⟨0, {}, .login "a@x.io" "guess" none (some "10.0.0.1")⟩] ++ reuseInputs

/-- What the log has to say about them. -/
theorem auth_trail_sample :
    let h := trailInputs.foldl (AuthHistory.step .sample) ⟨.sample, []⟩
    h.server.committed.audit = [⟨.loginFailed, some "u", some "10.0.0.1"⟩,
      ⟨.login, some "u", none⟩, ⟨.login, some "u", none⟩,
      ⟨.sessionsInvalidated "refresh_token_reuse", some "u", none⟩] := by
  intro h
  have hown : AuthEnv.sample.totp.RaisesOwn := by
    intro secret moment e hcode
    exact absurd hcode (by simp [AuthEnv.sample])
  have hrun : Chronicle .sample (fun _ _ => True) .sample h.server h.past :=
    chronicle_of_inputs rfl rfl
  have htrail : h.past.reverse.flatMap (Served.trail .sample)
      = [⟨.loginFailed, some "u", some "10.0.0.1"⟩, ⟨.login, some "u", none⟩,
        ⟨.login, some "u", none⟩,
        ⟨.sessionsInvalidated "refresh_token_reuse", some "u", none⟩] := by decide +kernel
  rw [(auth_trail_exact .sample hown hrun).1, htrail]
  rfl

end TradingHub
