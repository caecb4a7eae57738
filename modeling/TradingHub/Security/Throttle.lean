import Mathlib.Algebra.Order.Floor.Defs
import Mathlib.Algebra.Order.Round
import Mathlib.Data.Rat.Floor
import Mathlib.Tactic.Linarith
import TradingHub.Library.Dict
import TradingHub.Library.PyString
import TradingHub.Library.Run

set_option autoImplicit false

/-! # Login throttling

`app/security/throttle.py`: the failed attempts of an identity are counted, and at a threshold the
identity is locked out for a time. The in-memory backend keeps one entry for an identity and clears
it when it finds its lock expired; the Redis backend keeps a counter and a lock as two keys with
expiries of their own. Moments are rational numbers of seconds; the methods that read the clock
take the reading. -/

namespace TradingHub

open Library

/-! ## Identities -/

/-- The text functions of Python's library: Unicode case folding and the digest of a key. -/
structure TextEnv where
  lower : String → String
  /-- `hashlib.sha256(text.encode("utf-8")).hexdigest()`. -/
  sha256 : String → String

/-- `_normalise`. -/
def normalise (env : TextEnv) (identity : String) : String := env.lower (PyString.strip identity)

/-! ## The in-memory backend -/

/-- `_Entry`. -/
structure ThrottleEntry where
  failures : ℤ := 0
  lockedUntil : ℚ := 0
deriving DecidableEq, Repr

structure InMemoryLoginThrottle where
  maxAttempts : ℤ := 5
  lockoutSeconds : ℤ := 300
  entries : Dict String ThrottleEntry
deriving DecidableEq

namespace InMemoryLoginThrottle

variable (env : TextEnv)

/-- The answer, and the throttle without the entry if its lock has expired. A `lockedUntil` of zero
    stands for no lock. -/
def isLocked (throttle : InMemoryLoginThrottle) (identity : String) (now : ℚ) :
    Bool × InMemoryLoginThrottle :=
  let key := normalise env identity
  match throttle.entries.get? key with
  | none => (false, throttle)
  | some entry =>
    if entry.lockedUntil = 0 then (false, throttle)
    else if now < entry.lockedUntil then (true, throttle)
    else (false, { throttle with entries := throttle.entries.erase key })

def retryAfter (throttle : InMemoryLoginThrottle) (identity : String) (now : ℚ) : ℤ :=
  match throttle.entries.get? (normalise env identity) with
  | none => 0
  | some entry =>
    if entry.lockedUntil = 0 then 0
    else
      let left := entry.lockedUntil - now
      max 0 (if left < 0 then ⌈left⌉ else ⌊left⌋)

def recordFailure (throttle : InMemoryLoginThrottle) (identity : String) (now : ℚ) :
    InMemoryLoginThrottle :=
  let key := normalise env identity
  let entry := (throttle.entries.get? key).getD {}
  let failures := entry.failures + 1
  let lockedUntil :=
    if throttle.maxAttempts ≤ failures then now + throttle.lockoutSeconds else entry.lockedUntil
  { throttle with entries := throttle.entries.set key ⟨failures, lockedUntil⟩ }

def recordSuccess (throttle : InMemoryLoginThrottle) (identity : String) : InMemoryLoginThrottle :=
  { throttle with entries := throttle.entries.erase (normalise env identity) }

end InMemoryLoginThrottle

/-! ## The Redis backend -/

/-- The value of a Redis key and the moment at which it lapses, if it has one. -/
structure RedisEntry where
  value : ℤ
  lapses : Option ℚ
deriving DecidableEq, Repr

/-- A Redis database of numbers. -/
abbrev RedisKeys : Type := Dict String RedisEntry

namespace RedisKeys

/-- The entry of a key that has not lapsed. -/
def live (keys : RedisKeys) (key : String) (now : ℚ) : Option RedisEntry :=
  (Dict.get? keys key).filter fun entry => entry.lapses.all fun lapses => now < lapses

/-- `INCR key`. -/
def incr (keys : RedisKeys) (key : String) (now : ℚ) : ℤ × RedisKeys :=
  match keys.live key now with
  | some entry => (entry.value + 1, Dict.set keys key { entry with value := entry.value + 1 })
  | none => (1, Dict.set keys key ⟨1, none⟩)

/-- `EXPIRE key seconds`. -/
def expire (keys : RedisKeys) (key : String) (seconds : ℤ) (now : ℚ) : RedisKeys :=
  match keys.live key now with
  | some entry => Dict.set keys key { entry with lapses := some (now + seconds) }
  | none => keys

/-- `SET key value EX seconds`. -/
def setEx (keys : RedisKeys) (key : String) (value seconds : ℤ) (now : ℚ) : RedisKeys :=
  Dict.set keys key ⟨value, some (now + seconds)⟩

/-- `EXISTS key`. -/
def keyExists (keys : RedisKeys) (key : String) (now : ℚ) : Bool := (keys.live key now).isSome

/-- `TTL key`: the seconds left, rounded; negative if there is no key or no expiry. -/
def ttl (keys : RedisKeys) (key : String) (now : ℚ) : ℤ :=
  match keys.live key now with
  | none => -2
  | some entry =>
    match entry.lapses with
    | none => -1
    | some lapses => ⌊lapses - now + 1 / 2⌋

/-- `DEL key`. -/
def delete (keys : RedisKeys) (key : String) : RedisKeys := Dict.erase keys key

end RedisKeys

structure RedisLoginThrottle where
  maxAttempts : ℤ := 5
  lockoutSeconds : ℤ := 300
  redis : RedisKeys
deriving DecidableEq

namespace RedisLoginThrottle

variable (env : TextEnv)

/-- `_FAIL_PREFIX + self._digest(identity)`. -/
def failKey (identity : String) : String := "login_fail:" ++ env.sha256 (normalise env identity)

/-- `_LOCK_PREFIX + self._digest(identity)`. -/
def lockKey (identity : String) : String := "login_lock:" ++ env.sha256 (normalise env identity)

def isLocked (throttle : RedisLoginThrottle) (identity : String) (now : ℚ) : Bool :=
  throttle.redis.keyExists (lockKey env identity) now

def retryAfter (throttle : RedisLoginThrottle) (identity : String) (now : ℚ) : ℤ :=
  let ttl := throttle.redis.ttl (lockKey env identity) now
  if 0 < ttl then max 0 ttl else 0

/-- The first round trip of `record_failure`: the failures counted, with the counter's expiry set
    anew. -/
def countFailure (throttle : RedisLoginThrottle) (identity : String) (now : ℚ) :
    ℤ × RedisLoginThrottle :=
  let key := failKey env identity
  let (failures, redis) := throttle.redis.incr key now
  (failures, { throttle with redis := redis.expire key throttle.lockoutSeconds now })

/-- The second round trip of `record_failure`, if the threshold is reached. -/
def lock (throttle : RedisLoginThrottle) (identity : String) (now : ℚ) : RedisLoginThrottle :=
  { throttle with
    redis := throttle.redis.setEx (lockKey env identity) 1 (max throttle.lockoutSeconds 1) now }

def recordFailure (throttle : RedisLoginThrottle) (identity : String) (now : ℚ) :
    RedisLoginThrottle :=
  let (failures, counted) := throttle.countFailure env identity now
  if throttle.maxAttempts ≤ failures then counted.lock env identity now else counted

def recordSuccess (throttle : RedisLoginThrottle) (identity : String) : RedisLoginThrottle :=
  { throttle with
    redis := (throttle.redis.delete (failKey env identity)).delete (lockKey env identity) }

end RedisLoginThrottle

/-- `get_login_throttle`: the backend in use. -/
inductive LoginThrottle
  | memory (throttle : InMemoryLoginThrottle)
  | redis (throttle : RedisLoginThrottle)
deriving DecidableEq

namespace LoginThrottle

variable (env : TextEnv)

/-- The answer, and the throttle after the lookup. -/
def isLocked (identity : String) (now : ℚ) : LoginThrottle → Bool × LoginThrottle
  | memory throttle => ((throttle.isLocked env identity now).1,
      memory (throttle.isLocked env identity now).2)
  | redis throttle => (throttle.isLocked env identity now, redis throttle)

def retryAfter (identity : String) (now : ℚ) : LoginThrottle → ℤ
  | memory throttle => throttle.retryAfter env identity now
  | redis throttle => throttle.retryAfter env identity now

def recordFailure (identity : String) (now : ℚ) : LoginThrottle → LoginThrottle
  | memory throttle => memory (throttle.recordFailure env identity now)
  | redis throttle => redis (throttle.recordFailure env identity now)

def recordSuccess (identity : String) : LoginThrottle → LoginThrottle
  | memory throttle => memory (throttle.recordSuccess env identity)
  | redis throttle => redis (throttle.recordSuccess env identity)

end LoginThrottle

/-! ## What the calls do to the keys and entries -/

namespace RedisKeys

theorem live_set (keys : RedisKeys) (key : String) (entry : RedisEntry) (key' : String) (now : ℚ) :
    RedisKeys.live (Dict.set keys key entry) key' now =
      if key' = key then (some entry).filter fun e => e.lapses.all fun lapses => now < lapses
      else keys.live key' now := by
  unfold live
  rw [Dict.get?_set]
  split <;> rfl

theorem live_delete (keys : RedisKeys) (key key' : String) (now : ℚ) :
    (keys.delete key).live key' now = if key' = key then none else keys.live key' now := by
  unfold live delete
  rw [Dict.get?_erase]
  split <;> rfl

/-- The value of a counter: zero if there is no live key. -/
def count (keys : RedisKeys) (key : String) (now : ℚ) : ℤ :=
  ((keys.live key now).map RedisEntry.value).getD 0

theorem count_of_get? {keys : RedisKeys} {key : String} {entry : RedisEntry} {lapses : ℚ}
    (h : Dict.get? keys key = some entry) (hlapses : entry.lapses = some lapses) (now : ℚ) :
    keys.count key now = if now < lapses then entry.value else 0 := by
  unfold count live
  rw [h, Option.filter_some, hlapses]
  by_cases hlive : now < lapses
  · simp [hlive]
  · simp [hlive]

/-- `INCR` and `EXPIRE` in one transaction. -/
theorem incr_expire (keys : RedisKeys) (key : String) (seconds : ℤ) (now : ℚ) :
    (keys.incr key now).1 = keys.count key now + 1 ∧
      (keys.incr key now).2.expire key seconds now =
        Dict.set (keys.incr key now).2 key ⟨keys.count key now + 1, some (now + seconds)⟩ := by
  unfold incr expire count
  cases hlive : keys.live key now with
  | none =>
    simp only [live_set, if_true, Option.map_none, Option.getD_none]
    exact ⟨rfl, rfl⟩
  | some entry =>
    have hlapses : entry.lapses.all (fun lapses => decide (now < lapses)) = true := by
      unfold live at hlive
      exact (Option.filter_eq_some_iff.1 hlive).2
    simp only [live_set, if_true, Option.map_some, Option.getD_some, Option.filter_some, hlapses]
    exact ⟨trivial, trivial⟩

/-- A key that is written lives until its expiry. -/
theorem live_set_self (keys : RedisKeys) (key : String) (value : ℤ) (lapses now : ℚ) :
    RedisKeys.live (Dict.set keys key ⟨value, some lapses⟩) key now =
      if now < lapses then some ⟨value, some lapses⟩ else none := by
  rw [live_set, if_pos rfl, Option.filter_some]
  simp

theorem live_set_of_ne (keys : RedisKeys) {key key' : String} (entry : RedisEntry) (now : ℚ)
    (h : key' ≠ key) : RedisKeys.live (Dict.set keys key entry) key' now = keys.live key' now := by
  rw [live_set, if_neg h]

theorem live_incr_of_ne (keys : RedisKeys) {key key' : String} (now now' : ℚ) (h : key' ≠ key) :
    (keys.incr key now).2.live key' now' = keys.live key' now' := by
  unfold incr
  split
  · exact live_set_of_ne keys _ now' h
  · exact live_set_of_ne keys _ now' h

end RedisKeys

/-- The counters and the locks have different keys. -/
theorem RedisLoginThrottle.failKey_ne_lockKey (digest digest' : String) :
    "login_fail:" ++ digest ≠ "login_lock:" ++ digest' := by
  intro h
  have := congrArg String.toList h
  simp at this

end TradingHub
