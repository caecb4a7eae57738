import TradingHub.Security.Lockouts
import TradingHub.Services.GuessQuota
import TradingHub.Services.Sessions

set_option autoImplicit false

/-! # Rejected credentials are counted

`authenticate` counts and audits a failure on four of its exits, and on those only if the exception
it meets is an `AuthenticationError`. The one call that can raise anything else in a state that the
service reaches is `hmac.compare_digest`, which refuses text that is not ASCII. `str.isdigit` lets
such text through, so a code of Arabic digits ends the login with a `TypeError`: the password was
right, and the attempt is neither counted nor audited.

`rejection_counted_iff` says that this is the only way. It needs that a second factor that is on has
a secret the cipher can decrypt, which `SecretDrawn` carries along a run. -/

namespace TradingHub

open Library

/-! ## Verifying a code -/

/-- The authenticator makes ASCII codes of the secret, for every moment of the epoch up to `last`;
    a `datetime` shows none beyond the year 9999. -/
def TotpService.MakesCodes (totp : TotpService) (last : ℤ) (secret : String) : Prop :=
  ∀ moment, 0 ≤ moment → moment ≤ last → ∃ code, totp.codeAt secret moment = .ok code ∧
    PyString.isAscii code = true

/-- The code consists of digits, not all of them ASCII. -/
def ForeignDigits (code : String) : Prop :=
  PyString.isDigit (PyString.strip code) = true ∧ PyString.isAscii (PyString.strip code) = false

instance (code : String) : Decidable (ForeignDigits code) :=
  inferInstanceAs (Decidable (_ ∧ _))

namespace TotpService

variable {totp : TotpService} {last : ℤ} {secret : String} (code : String)

/-- A round of the loop at a moment of the epoch: it returns, exactly if the code is ASCII. -/
theorem tryOffset_of_makesCodes (hcodes : totp.MakesCodes last secret) {current offset : ℤ}
    (hmoment : 0 ≤ current + offset * totp.interval ∧ current + offset * totp.interval ≤ last)
    (matched : Option ℤ) :
    (PyString.isAscii code = true →
      ∃ result, totp.tryOffset secret code current matched offset = .ok result) ∧
    (PyString.isAscii code = false → ∃ text,
      totp.tryOffset secret code current matched offset = .error (.external text)) := by
  obtain ⟨value, hvalue, hascii⟩ := hcodes _ hmoment.1 hmoment.2
  simp only [tryOffset, hvalue, bind, Except.bind, compareDigest, hascii, Bool.true_and]
  constructor
  · intro hcode
    simp only [hcode, if_true]
    split <;> exact ⟨_, rfl⟩
  · intro hcode
    simp only [hcode]
    exact ⟨_, rfl⟩

/-- The moments of the drift window are those of an epoch that does not end in it. -/
theorem window_within (hinterval : 0 ≤ totp.interval) {now : ℚ}
    (hnow : (totp.validWindow * totp.interval : ℤ) ≤ now)
    (hlast : now + (totp.validWindow * totp.interval : ℤ) ≤ last) :
    ∀ offset ∈ Int.range (-totp.validWindow) (totp.validWindow + 1),
      0 ≤ ⌊now⌋ + offset * totp.interval ∧ ⌊now⌋ + offset * totp.interval ≤ last := by
  intro offset hoffset
  obtain ⟨hlow, hhigh⟩ := Int.mem_range_iff.1 hoffset
  have hfirst := mul_le_mul_of_nonneg_right hlow hinterval
  have hfinal := mul_le_mul_of_nonneg_right (Int.le_of_lt_add_one hhigh) hinterval
  have hstart : totp.validWindow * totp.interval ≤ ⌊now⌋ := Int.le_floor.2 hnow
  have hend : ⌊now⌋ + totp.validWindow * totp.interval ≤ last := by
    have hbound : ((⌊now⌋ + totp.validWindow * totp.interval : ℤ) : ℚ) ≤ last := by
      rw [Int.cast_add]
      exact (add_le_add_left (Int.floor_le now) _).trans hlast
    exact_mod_cast hbound
  exact ⟨by linarith, by linarith⟩

/-- Verification returns unless the digits of the code are not all ASCII. -/
theorem verifyCounter_of_makesCodes (hcodes : totp.MakesCodes last secret)
    (hwindow : 0 ≤ totp.validWindow) (hinterval : 0 ≤ totp.interval) {now : ℚ}
    (hnow : (totp.validWindow * totp.interval : ℤ) ≤ now)
    (hlast : now + (totp.validWindow * totp.interval : ℤ) ≤ last) :
    (¬ ForeignDigits code → ∃ result, totp.verifyCounter secret code now = .ok result) ∧
      (ForeignDigits code → ∃ text, totp.verifyCounter secret code now = .error (.external text)) := by
  have hpositive : (0 : ℚ) ≤ now :=
    le_trans (by exact_mod_cast mul_nonneg hwindow hinterval) hnow
  have hmoment := window_within hinterval hnow hlast
  unfold verifyCounter
  simp only [if_neg (not_lt.2 hpositive)]
  by_cases hdigit : PyString.isDigit (PyString.strip code) = true
  · simp only [if_pos hdigit]
    constructor
    · intro hcode
      have hascii : PyString.isAscii (PyString.strip code) = true := by
        simpa [ForeignDigits, hdigit] using hcode
      have hloop : ∀ (offsets : List ℤ), (∀ offset ∈ offsets, 0 ≤ ⌊now⌋ + offset * totp.interval ∧
          ⌊now⌋ + offset * totp.interval ≤ last) → ∀ matched, ∃ result,
            offsets.foldlM (totp.tryOffset secret (PyString.strip code) ⌊now⌋) matched
              = .ok result := by
        intro offsets
        induction offsets with
        | nil => exact fun _ matched => ⟨matched, rfl⟩
        | cons offset offsets ih =>
          intro hall matched
          obtain ⟨next, hnext⟩ := (tryOffset_of_makesCodes _ hcodes
            (hall offset (by simp)) matched).1 hascii
          simp only [List.foldlM_cons, hnext, bind, Except.bind]
          exact ih (fun o ho => hall o (by simp [ho])) next
      exact hloop _ hmoment none
    · -- The window is not empty: the first comparison raises.
      rintro ⟨-, hforeign⟩
      have hfirst : -totp.validWindow ∈ Int.range (-totp.validWindow) (totp.validWindow + 1) :=
        Int.mem_range_iff.2 ⟨le_rfl, by omega⟩
      cases hrange : Int.range (-totp.validWindow) (totp.validWindow + 1) with
      | nil => exact absurd (hrange ▸ hfirst) (by simp)
      | cons offset offsets =>
        obtain ⟨text, htext⟩ := (tryOffset_of_makesCodes (PyString.strip code) hcodes
          (hmoment offset (by simp [hrange])) none).2 hforeign
        refine ⟨text, ?_⟩
        simp only [List.foldlM_cons, htext, bind, Except.bind]
  · simp only [if_neg hdigit]
    exact ⟨fun _ => ⟨none, rfl⟩, fun h => absurd h.1 hdigit⟩

end TotpService

/-! ## Stored secrets -/

/-- A stored secret was encrypted by the service, and one that the authenticator accepts; a second
    factor that is on has one. -/
structure UserRecord.SecretDrawn (env : AuthEnv) (last : ℤ) (user : UserRecord) : Prop where
  drawn : ∀ token, user.totpSecretEnc = some token →
    ∃ nonce secret, env.totp.MakesCodes last secret ∧ token = env.encrypt nonce secret
  stored : user.totpEnabled = true → user.totpSecretEnc ≠ none

/-- Every row has such a secret or none. -/
def SecretsDrawn (env : AuthEnv) (last : ℤ) (users : Dict String UserRecord) : Prop :=
  ∀ id user, users.get? id = some user → user.SecretDrawn env last

variable {env : AuthEnv} {last : ℤ} {draws : Draws} {s : AuthServer}

theorem SecretsDrawn.set {users : Dict String UserRecord} {id : String} {row : UserRecord}
    (h : SecretsDrawn env last users) (hrow : row.SecretDrawn env last) :
    SecretsDrawn env last (users.set id row) := by
  intro id' user huser
  rw [Dict.get?_set] at huser
  split at huser
  · exact Option.some.inj huser ▸ hrow
  · exact h id' user huser

/-- A row with the same second factor. -/
theorem UserRecord.SecretDrawn.congr {user user' : UserRecord} (h : user.SecretDrawn env last)
    (hsecret : user'.totpSecretEnc = user.totpSecretEnc)
    (hstored : user'.totpEnabled = true → user.totpSecretEnc ≠ none) : user'.SecretDrawn env last :=
  ⟨by rw [hsecret]; exact h.drawn, by rw [hsecret]; exact hstored⟩

/-- The step: whatever a request does to the users, their secrets stay drawn. -/
theorem Effect.secretsDrawn {request : AuthRequest} {reply : Except AuthFailure AuthReply}
    {users : Dict String UserRecord} {tokenStore : TokenStore}
    (h : Effect env draws s request reply users tokenStore)
    (hdrawn : SecretsDrawn env last s.db.users) (hcodes : env.totp.MakesCodes last draws.secret) :
    SecretsDrawn env last users := by
  cases h with
  | registered hnew => exact hdrawn.set ⟨by simp, by simp⟩
  | @loggedIn email password totpCode ip id user accepted hget haccepted =>
    have haccepted' : accepted.totpSecretEnc = user.totpSecretEnc ∧
        accepted.totpEnabled = user.totpEnabled := by
      rcases accepted_cases haccepted with ⟨-, rfl⟩ | ⟨-, hconsumed⟩
      · exact ⟨rfl, rfl⟩
      · obtain ⟨-, -, -, -, -, rfl⟩ := consumeTotp_eq_ok hconsumed
        exact ⟨rfl, rfl⟩
    have hrehashed : (accepted.rehashed env draws password).totpSecretEnc = accepted.totpSecretEnc ∧
        (accepted.rehashed env draws password).totpEnabled = accepted.totpEnabled := by
      unfold UserRecord.rehashed
      split <;> exact ⟨rfl, rfl⟩
    refine hdrawn.set ((hdrawn id user hget).congr (hrehashed.1.trans haccepted'.1) fun hon => ?_)
    exact (hdrawn id user hget).stored (haccepted'.2 ▸ hrehashed.2 ▸ hon)
  | @reused token user hdecode hget =>
    exact hdrawn.set ((hdrawn _ user hget).congr rfl (hdrawn _ user hget).stored)
  | @enrolled userId user hget hdisabled =>
    refine hdrawn.set ⟨fun token htoken => ?_, by simp⟩
    exact ⟨draws.nonce, draws.secret, hcodes, (Option.some.inj htoken).symm⟩
  | @confirmed userId code user consumed hget hsecret hconsumed =>
    obtain ⟨-, -, -, -, -, rfl⟩ := consumeTotp_eq_ok hconsumed
    refine hdrawn.set ((hdrawn _ user hget).congr rfl fun _ hnone => hsecret ?_)
    rw [hnone, Option.getD_none]
  | disabled hget henabled hsecret hconsumed => exact hdrawn.set ⟨by simp, by simp⟩
  | _ => exact hdrawn

/-- The run: the secrets are drawn in every state that the service reaches. -/
theorem Chronicle.secretsDrawn {first server : AuthServer} {past : List Served}
    (h : Chronicle env (fun _ input => env.totp.MakesCodes last input.draws.secret) first server past)
    (hfirst : SecretsDrawn env last first.db.users) : SecretsDrawn env last server.db.users := by
  induction h with
  | start _ => exact hfirst
  | served h input hguard ih => exact (h.outcome input).effect.secretsDrawn ih hguard

/-! ## The outcome of a login -/

/-- A login compares a code of foreign digits: the password is right and the second factor on. -/
def ComparesForeignDigits (env : AuthEnv) (s : AuthServer) (email password : String)
    (totpCode : Option String) : Prop :=
  ∃ id user, s.findByEmail (env.text.lower (env.text.lower email)) = some (id, user) ∧
    env.verify user.passwordHash password = true ∧ user.isActive = true ∧
    user.totpEnabled = true ∧ ForeignDigits (totpCode.getD "")

/-- The failure counter of the identity, after the lookup of its lock, has gone up by one; those of
    the other `identities` are as they were. -/
structure CountedOnce (env : TextEnv) (identities : Set String) (identity : String) (now : ℚ)
    (throttle throttle' : LoginThrottle) : Prop where
  own : throttle'.failures env identity now
    = (throttle.isLocked env identity now).2.failures env identity now + 1
  others : ∀ other, normalise env other ∈ identities →
    normalise env other ≠ normalise env identity →
    throttle'.failures env other now = throttle.failures env other now

/-- What a login without a lock has to come to: a token pair, the demand for a code where none was
    given, or an `AuthenticationError` that is counted for the identity and leaves one committed
    audit row, and the users as they were. -/
def RejectionCounted (env : AuthEnv) (identities : Set String) (email : String)
    (totpCode : Option String) (s : AuthServer) :
    Except AuthFailure AuthReply × AuthServer → Prop
  | (.ok reply, _) => ∃ pair, reply = .pair pair
  | (.error failure, s') =>
    (failure = .twoFactorRequired ∧ totpCode.getD "" = "") ∨
      (failure.isAuthentication = true ∧
        CountedOnce env.text identities (env.text.lower email) s.now s.throttle s'.throttle ∧
        (∃ row, s'.committed.audit = s.committed.audit ++ [row]) ∧
        s'.committed.users = s.committed.users)

/-- How a login that is let through ends, by what it makes of the credentials. -/
def loginResult (env : AuthEnv) (draws : Draws) (email password : String) (ip : Option String)
    (s : AuthServer) (throttle : LoginThrottle) :
    Credentials → Except AuthFailure AuthReply × AuthServer
  | .rejected failure action userId =>
    let db := { s.db with audit := s.db.audit ++ [⟨action, userId, ip⟩] }
    (.error failure, { s with
      db, committed := db, throttle := throttle.recordFailure env.text (env.text.lower email) s.now })
  | .raised failure => (.error failure, { s with db := s.committed, throttle })
  | .accepted id user =>
    let db : AuthDb := ⟨s.db.users.set id (user.rehashed env draws password),
      s.db.audit ++ [⟨.login, some id, ip⟩]⟩
    (.ok (.pair (env.tokens.issuePair id (user.rehashed env draws password).role
        (user.rehashed env draws password).tokenGeneration draws.accessJti draws.refreshJti s.now)),
      { s with
        db, committed := db, throttle := throttle.recordSuccess env.text (env.text.lower email) })

namespace AuthService

attribute [local simp] handle authenticate logIn recordAudit commitSecurityEvent AuthServer.setUser
  AuthServer.setThrottle bind Act.bind pure Act.pure Act.read Act.modify Act.raise

/-- A login that is let through. -/
theorem serve_login {email password : String} {totpCode ip : Option String}
    (hunlocked : (s.throttle.isLocked env.text (env.text.lower email) s.now).1 = false) :
    serve env draws (.login email password totpCode ip) s =
      loginResult env draws email password ip s
        (s.throttle.isLocked env.text (env.text.lower email) s.now).2
        (checkCredentials env (s.findByEmail (env.text.lower (env.text.lower email))) password
          totpCode s.now) := by
  cases hcheck : checkCredentials env
      (s.findByEmail (env.text.lower (env.text.lower email))) password totpCode s.now with
  | rejected failure action userId => simp [serve, hunlocked, hcheck, loginResult]
  | raised failure => simp [serve, hunlocked, hcheck, loginResult]
  | accepted id user => simp [serve, hunlocked, hcheck, loginResult, UserRecord.rehashed]

end AuthService

/-- A failure is counted once. -/
theorem LoginThrottle.countedOnce {text : TextEnv} {identities : Set String} {identity : String}
    {now : ℚ} {throttle : LoginThrottle} (hsha : Set.InjOn text.sha256 identities)
    (hidentity : normalise text identity ∈ identities) (hlockout : 0 < throttle.lockoutSeconds) :
    CountedOnce text identities identity now throttle
      ((throttle.isLocked text identity now).2.recordFailure text identity now) := by
  cases throttle with
  | memory throttle =>
    constructor
    · simp only [LoginThrottle.recordFailure, LoginThrottle.isLocked, failures,
        InMemoryLoginThrottle.recordFailure, Dict.get?_set_self, Option.map_some, Option.getD_some]
      cases ((throttle.isLocked text identity now).2.entries.get? (normalise text identity)) <;> rfl
    · intro other _ hne
      have hlookup : (throttle.isLocked text identity now).2.entries.get? (normalise text other)
          = throttle.entries.get? (normalise text other) := by
        unfold InMemoryLoginThrottle.isLocked
        simp only
        split
        · rfl
        · split
          · rfl
          · split
            · rfl
            · exact (Dict.get?_erase _ _ _).trans (if_neg hne)
      simp only [LoginThrottle.recordFailure, LoginThrottle.isLocked, failures,
        InMemoryLoginThrottle.recordFailure, Dict.get?_set_of_ne _ _ hne, hlookup]
  | redis throttle =>
    have hpos : (0 : ℚ) < throttle.lockoutSeconds := by exact_mod_cast hlockout
    constructor
    · exact ((RedisLoginThrottle.recordFailure_keys hlockout now).1).trans
        (if_pos (by linarith))
    · intro other hother hne
      have hfail : RedisLoginThrottle.failKey text other
          ≠ RedisLoginThrottle.failKey text identity := fun heq =>
        hne (hsha hother hidentity ((String.append_right_inj "login_fail:").1 heq))
      simp only [LoginThrottle.recordFailure, LoginThrottle.isLocked, failures, RedisKeys.count]
      rw [RedisLoginThrottle.live_recordFailure_of_ne hfail
        (RedisLoginThrottle.failKey_ne_lockKey _ _)]

/-- The second factor of a user who has it on: foreign digits raise, any other code is accepted or
    refused. -/
theorem consumeTotp_of_drawn {user : UserRecord} (code : String) {now : ℚ}
    (hcipher : ∀ nonce secret, env.decrypt (env.encrypt nonce secret) = some secret)
    (hwindow : 0 ≤ env.totp.validWindow) (hinterval : 0 ≤ env.totp.interval)
    (hnow : (env.totp.validWindow * env.totp.interval : ℤ) ≤ now)
    (hlast : now + (env.totp.validWindow * env.totp.interval : ℤ) ≤ last)
    (hdrawn : user.SecretDrawn env last)
    (henabled : user.totpEnabled = true) :
    (ForeignDigits code →
      ∃ text, consumeTotp env user code now = .error (.token (.external text))) ∧
    (¬ ForeignDigits code → (∃ consumed, consumeTotp env user code now = .ok consumed) ∨
      consumeTotp env user code now = .error (authenticationError "Invalid two-factor code.")) := by
  obtain ⟨token, htoken⟩ := Option.ne_none_iff_exists'.1 (hdrawn.stored henabled)
  obtain ⟨nonce, secret, hcodes, rfl⟩ := hdrawn.drawn token htoken
  obtain ⟨hreturns, hraises⟩ := TotpService.verifyCounter_of_makesCodes code hcodes hwindow
    hinterval hnow hlast
  unfold consumeTotp
  simp only [htoken, Option.getD_some, hcipher]
  constructor
  · intro hforeign
    obtain ⟨text, htext⟩ := hraises hforeign
    exact ⟨text, by simp only [htext]⟩
  · intro hcode
    obtain ⟨result, hresult⟩ := hreturns hcode
    cases result with
    | none => simp [hresult]
    | some counter =>
      simp only [hresult]
      split
      · exact .inr rfl
      · exact .inl ⟨_, rfl⟩

/-- What the credentials of a login can come to, in a state that the service reaches. -/
theorem checkCredentials_cases (email password : String) (totpCode : Option String)
    (hcipher : ∀ nonce secret, env.decrypt (env.encrypt nonce secret) = some secret)
    (hwindow : 0 ≤ env.totp.validWindow) (hinterval : 0 ≤ env.totp.interval)
    (hnow : (env.totp.validWindow * env.totp.interval : ℤ) ≤ s.now)
    (hlast : s.now + (env.totp.validWindow * env.totp.interval : ℤ) ≤ last)
    (hdrawn : SecretsDrawn env last s.db.users) :
    let credentials := checkCredentials env
      (s.findByEmail (env.text.lower (env.text.lower email))) password totpCode s.now
    (ComparesForeignDigits env s email password totpCode ∧
        ∃ text, credentials = .raised (.token (.external text))) ∨
      (¬ ComparesForeignDigits env s email password totpCode ∧
        ((∃ failure action userId, credentials = .rejected failure action userId ∧
            failure.isAuthentication = true) ∨
          (credentials = .raised .twoFactorRequired ∧ totpCode.getD "" = "") ∨
          ∃ id user, credentials = .accepted id user)) := by
  intro credentials
  cases hfound : s.findByEmail (env.text.lower (env.text.lower email)) with
  | none =>
    refine .inr ⟨?_, .inl ⟨authenticationError "Invalid email or password.", .loginFailed, none,
      by simp only [credentials, hfound, checkCredentials], rfl⟩⟩
    rintro ⟨id, user, huser, -⟩
    exact absurd (hfound.symm.trans huser) (by simp)
  | some found =>
    obtain ⟨id, user⟩ := found
    -- Every exit before the code is compared is one of the counted ones.
    have hcompares : ComparesForeignDigits env s email password totpCode ↔
        env.verify user.passwordHash password = true ∧ user.isActive = true ∧
          user.totpEnabled = true ∧ ForeignDigits (totpCode.getD "") := by
      constructor
      · rintro ⟨id', user', huser, h⟩
        obtain ⟨rfl, rfl⟩ := Prod.mk.inj (Option.some.inj (hfound.symm.trans huser))
        exact h
      · exact fun h => ⟨id, user, hfound, h⟩
    rw [hcompares]
    simp only [credentials, hfound, checkCredentials]
    by_cases hverify : env.verify user.passwordHash password = true
    · by_cases hactive : user.isActive = true
      · by_cases henabled : user.totpEnabled = true
        · by_cases hempty : totpCode.getD "" = ""
          · have hcode : ¬ ForeignDigits "" := by decide
            simp [hverify, hactive, henabled, hempty, hcode]
          · have hdrawnUser := hdrawn id user (AuthService.get?_of_findByEmail hfound)
            obtain ⟨hraises, hreturns⟩ := consumeTotp_of_drawn (totpCode.getD "") hcipher
              hwindow hinterval hnow hlast hdrawnUser henabled
            by_cases hforeign : ForeignDigits (totpCode.getD "")
            · obtain ⟨text, htext⟩ := hraises hforeign
              simp [hverify, hactive, henabled, hempty, hforeign, htext,
                AuthFailure.isAuthentication]
            · rcases hreturns hforeign with ⟨consumed, hok⟩ | herror
              · simp [hverify, hactive, henabled, hempty, hforeign, hok]
              · simp [hverify, hactive, henabled, hempty, hforeign, herror,
                  AuthFailure.isAuthentication, authenticationError]
        · simp [hverify, hactive, henabled]
      · simp [hverify, hactive, AuthFailure.isAuthentication, authenticationError]
    · simp [hverify, AuthFailure.isAuthentication, authenticationError]

/-- In every state that the service reaches from users without a second factor, a login of an
    identity that is not locked out returns a token pair, asks for a code where none was given, or
    is counted once, audited once and leaves the users alone, exactly if it does not compare a code
    of digits that are not all ASCII. -/
theorem rejection_counted_iff (env : AuthEnv)
    (hcipher : ∀ nonce secret, env.decrypt (env.encrypt nonce secret) = some secret)
    (hwindow : 0 ≤ env.totp.validWindow) (hinterval : 0 ≤ env.totp.interval)
    (identities : Set String) (hsha : Set.InjOn env.text.sha256 identities)
    (server : AuthServer) (hclean : server.committed = server.db)
    (hfresh : ∀ id user, server.db.users.get? id = some user →
      user.totpEnabled = false ∧ user.totpSecretEnc = none)
    (inputs : List AuthInput) (last : ℤ)
    (hcodes : ∀ input ∈ inputs, env.totp.MakesCodes last input.draws.secret) (s : AuthServer)
    (hrun : s = (inputs.foldl (AuthHistory.step env) ⟨server, []⟩).server) (moment : ℚ)
    (hmoment : (env.totp.validWindow * env.totp.interval : ℤ) ≤ moment)
    (hlast : (s.atMoment moment).now + (env.totp.validWindow * env.totp.interval : ℤ) ≤ last)
    (draws : Draws)
    (email password : String) (totpCode ip : Option String)
    (hidentity : normalise env.text (env.text.lower email) ∈ identities)
    (hlockout : 0 < s.throttle.lockoutSeconds)
    (hunlocked : (s.throttle.isLocked env.text (env.text.lower email)
      (s.atMoment moment).now).1 = false) :
    RejectionCounted env identities email totpCode (s.atMoment moment)
        (AuthService.serve env draws (.login email password totpCode ip) (s.atMoment moment)) ↔
      ¬ ComparesForeignDigits env (s.atMoment moment) email password totpCode := by
  have hguarded : Guarded (AuthHistory.step env)
      (fun _ input => env.totp.MakesCodes last input.draws.secret) ⟨server, []⟩ inputs :=
    guarded_of_forall_mem inputs _ hcodes
  have hchronicle := chronicle_of_run hclean hguarded
  rw [← hrun] at hchronicle
  have hdrawn : SecretsDrawn env last s.db.users := hchronicle.secretsDrawn fun id user huser => by
    obtain ⟨hoff, hnone⟩ := hfresh id user huser
    exact ⟨by simp [hnone], fun hon => absurd (hoff.symm.trans hon) (by simp)⟩
  have hnow : (env.totp.validWindow * env.totp.interval : ℤ) ≤ (s.atMoment moment).now :=
    hmoment.trans (le_max_right _ _)
  have hserve : AuthService.serve env draws (.login email password totpCode ip)
      (s.atMoment moment) = _ := AuthService.serve_login hunlocked
  rw [hserve]
  obtain ⟨hforeign, text, hraised⟩ | ⟨hforeign, ⟨failure, action, userId, hrejected, hauth⟩ |
      ⟨hraised, hempty⟩ | ⟨id, user, haccepted⟩⟩ :=
    checkCredentials_cases (s := s.atMoment moment) email password totpCode hcipher hwindow
      hinterval hnow hlast hdrawn
  · rw [hraised]
    refine iff_of_false ?_ (not_not.2 hforeign)
    rintro (⟨hfailure, -⟩ | ⟨hauth, -⟩)
    · exact absurd hfailure (by simp)
    · exact absurd hauth (by simp [AuthFailure.isAuthentication])
  · rw [hrejected]
    have hcommitted : s.committed = s.db := hchronicle.clean
    refine iff_of_true (.inr ⟨hauth, ?_, ⟨⟨action, userId, ip⟩, ?_⟩, ?_⟩) hforeign
    · exact LoginThrottle.countedOnce hsha hidentity hlockout
    · show s.db.audit ++ _ = s.committed.audit ++ _
      rw [hcommitted]
    · show s.db.users = s.committed.users
      rw [hcommitted]
  · rw [hraised]
    exact iff_of_true (.inl ⟨rfl, hempty⟩) hforeign
  · rw [haccepted]
    exact iff_of_true ⟨_, rfl⟩ hforeign

/-- The sample with a cipher that marks its tokens, and codes that alternate. -/
def AuthEnv.marking : AuthEnv :=
  { AuthEnv.sample with
    totp := ⟨1, 30, fun _ moment => .ok (if moment / 30 % 2 = 0 then "000000" else "111111"),
      fun secret name => secret ++ name⟩
    encrypt := fun _ plaintext => "v:" ++ plaintext
    decrypt := fun token =>
      match token.toList with
      | 'v' :: ':' :: plaintext => some (String.ofList plaintext)
      | _ => none }

/-- The sample user turns the second factor on. -/
def enrolledInputs : List AuthInput :=
  [⟨1, { secret := "JBSWY3DPEHPK3PXP" }, .enroll "u"⟩, ⟨31, {}, .confirm "u" "111111"⟩]

/-- The state of the server after that. -/
def AuthServer.enrolled : AuthServer :=
  (enrolledInputs.foldl (AuthHistory.step .marking) ⟨.sample, []⟩).server

/-- A login with a wrong code. -/
theorem wrong_code_counted :
    RejectionCounted .marking {"a@x.io"} "a@x.io" (some "123456") (AuthServer.enrolled.atMoment 61)
      (AuthService.serve .marking {} (.login "a@x.io" "pw" (some "123456") none)
        (AuthServer.enrolled.atMoment 61)) := by
  refine (rejection_counted_iff .marking (fun nonce secret => ?_) (by decide) (by decide) {"a@x.io"}
    (Set.injOn_singleton _ _) .sample rfl (fun id user huser => ?_) enrolledInputs
    253402300799 (fun input _ moment _ _ => ?_) .enrolled rfl 61 (by decide +kernel)
    (by decide +kernel) {} "a@x.io" "pw" (some "123456") none (by decide +kernel)
    (by decide +kernel) (by decide +kernel)).2 ?_
  · simp [AuthEnv.marking]
  · have hrows : ∀ e ∈ AuthServer.sample.db.users.entries,
        e.2.totpEnabled = false ∧ e.2.totpSecretEnc = none := by decide +kernel
    exact hrows (id, user) ((Dict.get?_eq_some_iff _ _ _).1 huser)
  · refine ⟨_, rfl, ?_⟩
    split <;> decide
  · rintro ⟨_, _, -, -, -, -, hdigits⟩
    exact absurd hdigits (by decide +kernel)

/-- Six digits that are not ASCII. -/
def arabicDigits : String := "\u0661\u0662\u0663\u0664\u0665\u0666"

/-- A login with the right password and a code of such digits. -/
theorem foreign_code_uncounted :
    let served := AuthService.serve .marking {} (.login "a@x.io" "pw" (some arabicDigits) none)
      (AuthServer.enrolled.atMoment 61)
    ¬ RejectionCounted .marking {"a@x.io"} "a@x.io" (some arabicDigits)
        (AuthServer.enrolled.atMoment 61) served ∧
      served.2.throttle.failures AuthEnv.marking.text "a@x.io" 61 = 0 ∧
      served.2.committed.audit = AuthServer.enrolled.committed.audit := by
  intro served
  have hresult : served.1 = .error (.token (.external
      "comparing strings with non-ASCII characters is not supported")) := by decide +kernel
  refine ⟨fun hcounted => ?_, by decide +kernel, by decide +kernel⟩
  obtain ⟨result, s'⟩ := served
  obtain rfl : result = _ := hresult
  rcases hcounted with ⟨hfailure, -⟩ | ⟨hauth, -⟩
  · exact absurd hfailure (by simp)
  · exact absurd hauth (by simp [AuthFailure.isAuthentication])

end TradingHub
