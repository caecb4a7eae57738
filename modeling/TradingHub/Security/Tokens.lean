import Mathlib.Algebra.Order.Floor.Defs
import Mathlib.Algebra.Order.Round
import Mathlib.Data.Rat.Floor
import TradingHub.Library.Dict

set_option autoImplicit false

/-! # Tokens and their revocation

`app/security/tokens.py` and the Redis store of `app/security/token_store.py`. A token is its
claims: the signature is taken as verified, so a token that is presented was issued. Moments and
durations are rational numbers of seconds, the `exp` and `iat` claims whole ones. -/

namespace TradingHub

open Library

/-! ## Tokens -/

/-- The exceptions of the authentication layer; `external` stands for what a database or Redis
    call raises. -/
inductive AuthError
  | invalidToken (message : String)
  | authentication (message : String)
  | external (text : String)
deriving DecidableEq, Repr

inductive TokenType
  | access
  | refresh
deriving DecidableEq, Repr

/-- The text of the `type` claim. -/
def TokenType.value : TokenType → String
  | .access => "access"
  | .refresh => "refresh"

structure TokenClaims where
  subject : String
  role : String
  tokenType : TokenType
  jti : String
  expiresAt : ℤ
  issuedAt : ℤ
  generation : ℤ
deriving DecidableEq, Repr

structure TokenPair where
  access : TokenClaims
  refresh : TokenClaims
deriving DecidableEq, Repr

/-- The lifetimes of the tokens issued, in seconds. -/
structure TokenService where
  accessTtl : ℚ
  refreshTtl : ℚ
deriving DecidableEq, Repr

namespace TokenService

/-- `_encode`, at `now` with the identifier drawn. -/
def encode (subject role : String) (tokenType : TokenType) (ttl : ℚ) (generation : ℤ) (jti : String)
    (now : ℚ) : TokenClaims :=
  { subject, role, tokenType, jti, expiresAt := ⌊now + ttl⌋, issuedAt := ⌊now⌋, generation }

/-- `issue_pair`. -/
def issuePair (tokens : TokenService) (subject role : String) (generation : ℤ)
    (accessJti refreshJti : String) (now : ℚ) : TokenPair :=
  ⟨encode subject role .access tokens.accessTtl generation accessJti now,
    encode subject role .refresh tokens.refreshTtl generation refreshJti now⟩

/-- `decode` of a token with a valid signature. -/
def decode (claims : TokenClaims) (expectedType : TokenType) (now : ℚ) :
    Except AuthError TokenClaims :=
  if now < claims.issuedAt then .error (.invalidToken "Token is invalid.")
  else if claims.expiresAt ≤ now then .error (.invalidToken "Token has expired.")
  else if claims.tokenType ≠ expectedType then
    .error (.invalidToken ("Expected a " ++ expectedType.value ++ " token."))
  else .ok claims

end TokenService

/-- `_remaining_ttl` of `app/services/auth_service.py`: the seconds left, cut to a whole number. -/
def remainingTtl {K : Type} [Ring K] [LinearOrder K] [FloorRing K] (expiresAt : ℤ) (now : K) : ℤ :=
  let left := (expiresAt : K) - now
  max 1 (if left < 0 then ⌈left⌉ else ⌊left⌋)

/-! ## The revocation store -/

/-- A Redis database, as far as the stores use it: the moment at which each key set with an expiry
    lapses. -/
abbrev Redis : Type := Dict String ℚ

namespace Redis

/-- `SET key "1" EX seconds`. -/
def setEx (redis : Redis) (key : String) (seconds : ℤ) (now : ℚ) : Redis :=
  Dict.set redis key (now + seconds)

/-- `EXISTS key`. -/
def keyExists (redis : Redis) (key : String) (now : ℚ) : Bool :=
  match Dict.get? redis key with
  | some lapses => now < lapses
  | none => false

end Redis

namespace RedisTokenStore

/-- The key of a revoked identifier. -/
def key (jti : String) : String := "revoked_jti:" ++ jti

def revoke (redis : Redis) (jti : String) (ttlSeconds : ℤ) (now : ℚ) : Redis :=
  redis.setEx (key jti) (max ttlSeconds 1) now

def isRevoked (redis : Redis) (jti : String) (now : ℚ) : Bool := redis.keyExists (key jti) now

end RedisTokenStore

end TradingHub
