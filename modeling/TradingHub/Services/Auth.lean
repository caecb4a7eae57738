import TradingHub.Library.Act
import TradingHub.Security.Throttle
import TradingHub.Security.TokenStore
import TradingHub.Security.Totp

set_option autoImplicit false

/-! # The authentication service

`AuthService` of `app/services/auth_service.py`, one request at a time. A request works on the
session's view of the tables; `serve` commits the view when the handler returns and rolls it back
when it raises, and a rejection that has to leave a trace commits before it raises. The token store
and the throttle are outside the transaction.

`AuthEnv` holds the libraries the service calls: password hashing, the cipher, pyotp and the text
functions. `Draws` is what one request draws at random. -/

namespace TradingHub

open Library

/-! ## Tables, errors and libraries -/

/-- A row of `users`, without its key. -/
structure UserRecord where
  email : String
  passwordHash : String
  role : String
  isActive : Bool := true
  totpEnabled : Bool := false
  totpSecretEnc : Option String := none
  totpLastCounter : Option ℤ := none
  tokenGeneration : ℤ := 0
deriving DecidableEq, Repr

inductive AuthAction
  | register
  | lockedOut
  | loginFailed
  | loginDisabled
  | twoFactorFailed
  | login
  | sessionsInvalidated (reason : String)
  | logout
  | twoFactorEnabled
  | twoFactorDisabled
deriving DecidableEq, Repr

/-- A row of the audit log. -/
structure AuthAudit where
  action : AuthAction
  userId : Option String
  ipAddress : Option String
deriving DecidableEq, Repr

structure AuthDb where
  users : Dict String UserRecord
  audit : List AuthAudit
deriving DecidableEq

/-- What a request raises. -/
inductive AuthFailure
  | token (error : AuthError)
  | twoFactorRequired
  | accountLocked (retryAfter : ℤ)
  | notFound (message : String)
  | conflict (message : String)
  | encryption (message : String)
deriving DecidableEq, Repr

/-- `isinstance(exc, AuthenticationError)`. -/
def AuthFailure.isAuthentication : AuthFailure → Bool
  | token (.invalidToken _) => true
  | token (.authentication _) => true
  | twoFactorRequired => true
  | _ => false

/-- `AuthenticationError(message)`. -/
def authenticationError (message : String) : AuthFailure := .token (.authentication message)

structure AuthEnv where
  text : TextEnv
  tokens : TokenService
  totp : TotpService
  /-- `PasswordHasher.verify`, of a hash and a password. -/
  verify : String → String → Bool
  /-- `PasswordHasher.hash`, of a salt and a password. -/
  hash : String → String → String
  needsRehash : String → Bool
  /-- `SecretCipher.encrypt`, of what it draws and a plaintext. -/
  encrypt : String → String → String
  /-- `SecretCipher.decrypt`; `none` stands for `EncryptionError`. -/
  decrypt : String → Option String

structure Draws where
  userId : String := ""
  salt : String := ""
  accessJti : String := ""
  refreshJti : String := ""
  secret : String := ""
  nonce : String := ""
deriving DecidableEq, Repr

/-- The clock, the session's view of the tables, the committed tables, and the two stores. -/
structure AuthServer where
  now : ℚ
  db : AuthDb
  committed : AuthDb
  tokenStore : TokenStore
  throttle : LoginThrottle
deriving DecidableEq

/-! ## Second factor -/

/-- `_consume_totp`: the user with the time step of the code burnt. -/
def consumeTotp (env : AuthEnv) (user : UserRecord) (code : String) (now : ℚ) :
    Except AuthFailure UserRecord :=
  match env.decrypt (user.totpSecretEnc.getD "") with
  | none => .error (.encryption "Failed to decrypt secret (bad key or corrupt data).")
  | some secret =>
    match env.totp.verifyCounter secret code now with
    | .error e => .error (.token e)
    | .ok none => .error (authenticationError "Invalid two-factor code.")
    | .ok (some counter) =>
      if user.totpLastCounter.any fun last => counter ≤ last then
        .error (authenticationError "Invalid two-factor code.")
      else .ok { user with totpLastCounter := some counter }

/-- What `authenticate` makes of the credentials. -/
inductive Credentials
  /-- A failure that is counted and audited. -/
  | rejected (failure : AuthFailure) (action : AuthAction) (userId : Option String)
  /-- An exception that is neither. -/
  | raised (failure : AuthFailure)
  | accepted (userId : String) (user : UserRecord)
deriving DecidableEq

/-- The part of `authenticate` between the user row and the record of the outcome. -/
def checkCredentials (env : AuthEnv) (found : Option (String × UserRecord)) (password : String)
    (totpCode : Option String) (now : ℚ) : Credentials :=
  match found with
  | none => .rejected (authenticationError "Invalid email or password.") .loginFailed none
  | some (id, user) =>
    if !env.verify user.passwordHash password then
      .rejected (authenticationError "Invalid email or password.") .loginFailed (some id)
    else if !user.isActive then
      .rejected (authenticationError "This account is disabled.") .loginDisabled (some id)
    else if user.totpEnabled then
      let code := totpCode.getD ""
      if code = "" then .raised .twoFactorRequired
      else
        match consumeTotp env user code now with
        | .ok user => .accepted id user
        | .error failure =>
          if failure.isAuthentication then .rejected failure .twoFactorFailed (some id)
          else .raised failure
    else .accepted id user

/-! ## The handlers -/

/-- An action of the service. -/
abbrev AuthAct (α : Type) : Type := Act AuthFailure AuthServer α

namespace AuthServer

def setUser (id : String) (user : UserRecord) (s : AuthServer) : AuthServer :=
  { s with db := { s.db with users := s.db.users.set id user } }

def setTokenStore (tokenStore : TokenStore) (s : AuthServer) : AuthServer := { s with tokenStore }

def setThrottle (throttle : LoginThrottle) (s : AuthServer) : AuthServer := { s with throttle }

/-- `get_by_email`, with the row's key. -/
def findByEmail (s : AuthServer) (email : String) : Option (String × UserRecord) :=
  s.db.users.entries.find? fun e => e.2.email = email

end AuthServer

namespace AuthService

/-- `AuditRepository.record`. -/
def recordAudit (action : AuthAction) (userId ipAddress : Option String) : AuthAct Unit :=
  Act.modify fun s =>
    { s with db := { s.db with audit := s.db.audit ++ [⟨action, userId, ipAddress⟩] } }

/-- `_commit_security_event`. -/
def commitSecurityEvent : AuthAct Unit := Act.modify fun s => { s with committed := s.db }

def register (env : AuthEnv) (draws : Draws) (email password : String) : AuthAct String := do
  let email := env.text.lower email
  let s ← Act.read
  if (s.findByEmail (env.text.lower email)).isSome then
    Act.raise (.conflict "A user with this email already exists.")
  else if (s.db.users.get? draws.userId).isSome then
    -- The identifier drawn is the primary key.
    Act.raise (.token (.external "IntegrityError"))
  else do
    Act.modify (AuthServer.setUser draws.userId
      { email, passwordHash := env.hash draws.salt password, role := "trader" })
    recordAudit .register (some draws.userId) none
    return draws.userId

/-- The end of `authenticate` for credentials that are accepted. -/
def logIn (env : AuthEnv) (draws : Draws) (email password : String) (ip : Option String)
    (id : String) (user : UserRecord) : AuthAct TokenPair := do
  let s ← Act.read
  Act.modify (AuthServer.setThrottle (s.throttle.recordSuccess env.text email))
  let user := if env.needsRehash user.passwordHash then
    { user with passwordHash := env.hash draws.salt password } else user
  Act.modify (AuthServer.setUser id user)
  recordAudit .login (some id) ip
  return env.tokens.issuePair id user.role user.tokenGeneration draws.accessJti draws.refreshJti
    s.now

/-- A login, at one reading of the clock: that of `is_locked` stands for the one of `retry_after`, which
    the source takes after it has committed the audit row. -/
def authenticate (env : AuthEnv) (draws : Draws) (email password : String)
    (totpCode ip : Option String) : AuthAct TokenPair := do
  let email := env.text.lower email
  let s ← Act.read
  let (locked, throttle) := s.throttle.isLocked env.text email s.now
  Act.modify (AuthServer.setThrottle throttle)
  if locked then do
    recordAudit .lockedOut none ip
    commitSecurityEvent
    Act.raise (.accountLocked (throttle.retryAfter env.text email s.now))
  else
    match checkCredentials env (s.findByEmail (env.text.lower email)) password totpCode s.now with
    | .rejected failure action userId => do
      Act.modify (AuthServer.setThrottle (throttle.recordFailure env.text email s.now))
      recordAudit action userId ip
      commitSecurityEvent
      Act.raise failure
    | .raised failure => Act.raise failure
    | .accepted id user => logIn env draws email password ip id user

/-- `_invalidate_sessions`. -/
def invalidateSessions (id : String) (user : UserRecord) (reason : String) : AuthAct Unit := do
  Act.modify (AuthServer.setUser id { user with tokenGeneration := user.tokenGeneration + 1 })
  recordAudit (.sessionsInvalidated reason) (some id) none

/-- The end of `refresh`, with the answer of the store about the token. -/
def rotate (env : AuthEnv) (draws : Draws) (claims : TokenClaims) (user : UserRecord)
    (revoked : Bool) : AuthAct TokenPair :=
  if revoked then do
    invalidateSessions claims.subject user "refresh_token_reuse"
    commitSecurityEvent
    Act.raise (authenticationError "This refresh token has been revoked.")
  else if claims.generation < user.tokenGeneration then
    Act.raise (authenticationError "This session has been invalidated.")
  else do
    let s ← Act.read
    Act.modify (AuthServer.setTokenStore
      (s.tokenStore.revoke claims.jti (remainingTtl claims.expiresAt s.now) s.now))
    return env.tokens.issuePair claims.subject user.role user.tokenGeneration draws.accessJti
      draws.refreshJti s.now

def refresh (env : AuthEnv) (draws : Draws) (token : TokenClaims) : AuthAct TokenPair := do
  let s ← Act.read
  match TokenService.decode token .refresh s.now with
  | .error e => Act.raise (.token e)
  | .ok claims =>
    match s.db.users.get? claims.subject with
    | none => Act.raise (authenticationError "User no longer active.")
    | some user =>
      if !user.isActive then Act.raise (authenticationError "User no longer active.")
      else do
        let (revoked, tokenStore) := s.tokenStore.isRevoked claims.jti s.now
        Act.modify (AuthServer.setTokenStore tokenStore)
        rotate env draws claims user revoked

def logout (token : TokenClaims) : AuthAct Unit := do
  let s ← Act.read
  match TokenService.decode token .refresh s.now with
  | .error _ => return ()
  | .ok claims => do
    Act.modify (AuthServer.setTokenStore
      (s.tokenStore.revoke claims.jti (remainingTtl claims.expiresAt s.now) s.now))
    recordAudit .logout (some claims.subject) none

/-- `begin_totp_enrollment`: the secret and its provisioning URI. -/
def beginTotpEnrollment (env : AuthEnv) (draws : Draws) (userId : String) :
    AuthAct (String × String) := do
  let s ← Act.read
  match s.db.users.get? userId with
  | none => Act.raise (.notFound "User not found.")
  | some user =>
    if user.totpEnabled then
      Act.raise (.conflict
        "Two-factor authentication is already enabled; disable it first to re-enrol.")
    else do
      Act.modify (AuthServer.setUser userId
        { user with totpSecretEnc := some (env.encrypt draws.nonce draws.secret) })
      return (draws.secret, env.totp.provisioningUri draws.secret user.email)

def confirmTotp (env : AuthEnv) (userId code : String) : AuthAct Unit := do
  let s ← Act.read
  match s.db.users.get? userId with
  | none => Act.raise (.notFound "No pending TOTP enrolment.")
  | some user =>
    if user.totpSecretEnc.getD "" = "" then Act.raise (.notFound "No pending TOTP enrolment.")
    else do
      let user ← Act.ofExcept (consumeTotp env user code s.now)
      Act.modify (AuthServer.setUser userId { user with totpEnabled := true })
      recordAudit .twoFactorEnabled (some userId) none

def disableTotp (env : AuthEnv) (userId code : String) : AuthAct Unit := do
  let s ← Act.read
  match s.db.users.get? userId with
  | none => Act.raise (.notFound "User not found.")
  | some user =>
    if !user.totpEnabled || user.totpSecretEnc.getD "" = "" then
      Act.raise (.conflict "Two-factor authentication is not enabled.")
    else do
      let user ← Act.ofExcept (consumeTotp env user code s.now)
      Act.modify (AuthServer.setUser userId
        { user with totpEnabled := false, totpSecretEnc := none, totpLastCounter := none })
      recordAudit .twoFactorDisabled (some userId) none

end AuthService

/-! ## Requests -/

inductive AuthRequest
  | register (email password : String)
  | login (email password : String) (totpCode ip : Option String)
  | refresh (token : TokenClaims)
  | logout (token : TokenClaims)
  | enroll (userId : String)
  | confirm (userId code : String)
  | disable (userId code : String)
deriving DecidableEq

inductive AuthReply
  | registered (userId : String)
  | pair (pair : TokenPair)
  | enrolment (secret uri : String)
  | done
deriving DecidableEq

/-- A request, the moment it is served and what it draws. -/
structure AuthInput where
  moment : ℚ
  draws : Draws
  request : AuthRequest
deriving DecidableEq

namespace AuthService

/-- The endpoint of a request. -/
def handle (env : AuthEnv) (draws : Draws) : AuthRequest → AuthAct AuthReply
  | .register email password => do return .registered (← register env draws email password)
  | .login email password totpCode ip => do
    return .pair (← authenticate env draws email password totpCode ip)
  | .refresh token => do return .pair (← refresh env draws token)
  | .logout token => do
    logout token
    return .done
  | .enroll userId => do
    let (secret, uri) ← beginTotpEnrollment env draws userId
    return .enrolment secret uri
  | .confirm userId code => do
    confirmTotp env userId code
    return .done
  | .disable userId code => do
    disableTotp env userId code
    return .done

/-- A request with its unit of work: commit on a return, roll back on a raise. -/
def serve (env : AuthEnv) (draws : Draws) (request : AuthRequest) (s : AuthServer) :
    Except AuthFailure AuthReply × AuthServer :=
  match handle env draws request s with
  | (.ok reply, s') => (.ok reply, { s' with committed := s'.db })
  | (.error failure, s') => (.error failure, { s' with db := s'.committed })

end AuthService

/-! ## A small instance -/

/-- ASCII texts, passwords and secrets in the clear, and one code for every time step. -/
def AuthEnv.sample : AuthEnv where
  text := ⟨fun text => String.ofList (text.toList.map Char.toLower), id⟩
  tokens := ⟨900, 1000⟩
  totp := ⟨1, 30, fun _ moment => .ok (toString (moment / 30)), fun secret name => secret ++ name⟩
  verify hashed password := hashed = password
  hash _ password := password
  needsRehash _ := false
  encrypt _ plaintext := plaintext
  decrypt token := if token = "" then none else some token

/-- One user, no revocations and no failures. -/
def AuthServer.sample : AuthServer :=
  let users := Dict.set .empty "u" { email := "a@x.io", passwordHash := "pw", role := "trader" }
  ⟨0, ⟨users, []⟩, ⟨users, []⟩, .memory .empty, .memory ⟨5, 300, .empty⟩⟩

end TradingHub
