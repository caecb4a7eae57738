import TradingHub.Security.Throttle

set_option autoImplicit false

/-! # The two lockout backends side by side

The same login attempts, on any identities, against `InMemoryLoginThrottle` and
`RedisLoginThrottle` of `app/security/throttle.py`. What either backend knows of an identity follows
from its streak, the failures that count. The in-memory backend counts them all; the counter of the
Redis backend decays, so it counts those at the end of the streak that came less than a lockout
apart. -/

namespace TradingHub

open Library

/-! ## Attempts -/

/-- A login attempt on an identity, and whether its credentials are right. -/
structure LoginAttempt where
  identity : String
  moment : ℚ
  success : Bool
deriving DecidableEq, Repr

/-- `is_locked` and, if not locked, `record_success` or `record_failure`, as in `authenticate`. -/
def InMemoryLoginThrottle.attempt (env : TextEnv) (throttle : InMemoryLoginThrottle)
    (identity : String) (success : Bool) (now : ℚ) : Bool × InMemoryLoginThrottle :=
  match throttle.isLocked env identity now with
  | (true, throttle) => (true, throttle)
  | (false, throttle) =>
    (false, if success then throttle.recordSuccess env identity
      else throttle.recordFailure env identity now)

@[inherit_doc InMemoryLoginThrottle.attempt]
def RedisLoginThrottle.attempt (env : TextEnv) (throttle : RedisLoginThrottle)
    (identity : String) (success : Bool) (now : ℚ) : Bool × RedisLoginThrottle :=
  if throttle.isLocked env identity now then (true, throttle)
  else (false, if success then throttle.recordSuccess env identity
    else throttle.recordFailure env identity now)

/-! ## The failures that count -/

/-- The moments of the failures of an identity that count, the last one first. -/
abbrev Streak : Type := List ℚ

namespace Streak

variable (maxAttempts lockoutSeconds : ℤ)

/-- The end of the lock that the failures have put on in memory. A lock that would end at zero is
    none. -/
def lockEnd : Streak → Option ℚ
  | [] => none
  | last :: rest =>
    if maxAttempts ≤ rest.length + 1 ∧ last + lockoutSeconds ≠ 0 then some (last + lockoutSeconds)
    else none

/-- An attempt is rejected. -/
def lockedAt (streak : Streak) (now : ℚ) : Bool :=
  (lockEnd maxAttempts lockoutSeconds streak).any fun lapses => now < lapses

/-- The streak after an attempt: the failures that led to a lock that is over count no more, and
    neither do those before a success. -/
def next (streak : Streak) (success : Bool) (now : ℚ) : Streak :=
  match lockEnd maxAttempts lockoutSeconds streak with
  | some lapses => if now < lapses then streak else if success then [] else [now]
  | none => if success then [] else now :: streak

/-- The failures at the end of the streak that came less than a lockout apart. -/
def chain : Streak → ℤ
  | [] => 0
  | [_] => 1
  | moment :: last :: rest =>
    if moment < last + lockoutSeconds then chain (last :: rest) + 1 else 1

/-- The entry of the in-memory backend. -/
def entry : Streak → Option ThrottleEntry
  | [] => none
  | last :: rest =>
    some ⟨rest.length + 1, if maxAttempts ≤ rest.length + 1 then last + lockoutSeconds else 0⟩

/-- The counter of the Redis backend. -/
def counter (streak : Streak) (now : ℚ) : ℤ :=
  match streak with
  | [] => 0
  | last :: rest => if now < last + lockoutSeconds then chain lockoutSeconds (last :: rest) else 0

/-- The lock of the Redis backend is on. -/
def redisLocked (streak : Streak) (now : ℚ) : Bool :=
  match streak with
  | [] => false
  | last :: rest =>
    maxAttempts ≤ chain lockoutSeconds (last :: rest) ∧ now < last + lockoutSeconds

variable {maxAttempts lockoutSeconds}

/-- A lock of the Redis backend that is off stays off. -/
theorem redisLocked_eq_false_of_le {streak : Streak} {now t : ℚ}
    (h : streak.redisLocked maxAttempts lockoutSeconds now = false) (hle : now ≤ t) :
    streak.redisLocked maxAttempts lockoutSeconds t = false := by
  cases streak with
  | nil => rfl
  | cons last rest =>
    simp only [redisLocked, decide_eq_false_iff_not, not_and, not_lt] at h ⊢
    exact fun hfull => (h hfull).trans hle

/-- A failure that is not rejected: the new streak begins with it, and it prolongs what the counter
    of the Redis backend counts. -/
theorem next_failure {streak : Streak} {now : ℚ}
    (h : streak.lockedAt maxAttempts lockoutSeconds now = false) :
    ∃ rest, streak.next maxAttempts lockoutSeconds false now = now :: rest ∧
      chain lockoutSeconds (now :: rest) = streak.counter lockoutSeconds now + 1 := by
  unfold lockedAt at h
  unfold next
  cases hend : streak.lockEnd maxAttempts lockoutSeconds with
  | none =>
    refine ⟨streak, rfl, ?_⟩
    cases streak with
    | nil => rfl
    | cons last rest =>
      simp only [chain, counter]
      split <;> rfl
  | some lapses =>
    simp only [hend, Option.any_some, decide_eq_false_iff_not] at h
    simp only [if_neg h]
    refine ⟨[], rfl, ?_⟩
    -- The lock ends a lockout after the last failure, and so does the counter.
    cases streak with
    | nil => exact absurd hend (by simp [lockEnd])
    | cons last rest =>
      simp only [lockEnd] at hend
      split at hend
      · obtain rfl := Option.some.inj hend
        simp [chain, counter, h]
      · exact absurd hend (by simp)

end Streak

/-! ## The in-memory backend follows the streaks -/

namespace InMemoryLoginThrottle

variable {env : TextEnv} {throttle : InMemoryLoginThrottle} {identity : String} {streak : Streak}

theorem isLocked_of_entry
    (h : throttle.entries.get? (normalise env identity)
      = streak.entry throttle.maxAttempts throttle.lockoutSeconds) (now : ℚ) :
    throttle.isLocked env identity now =
      match streak.lockEnd throttle.maxAttempts throttle.lockoutSeconds with
      | none => (false, throttle)
      | some lapses =>
        if now < lapses then (true, throttle)
        else (false,
          { throttle with entries := throttle.entries.erase (normalise env identity) }) := by
  simp only [isLocked, h]
  cases streak with
  | nil => rfl
  | cons last rest =>
    by_cases hfull : throttle.maxAttempts ≤ rest.length + 1
    · by_cases hzero : last + (throttle.lockoutSeconds : ℚ) = 0
      · simp [Streak.entry, Streak.lockEnd, hfull, hzero]
      · simp [Streak.entry, Streak.lockEnd, hfull, hzero]
    · simp [Streak.entry, Streak.lockEnd, hfull]

theorem settings_isLocked (now : ℚ) :
    (throttle.isLocked env identity now).2.maxAttempts = throttle.maxAttempts ∧
      (throttle.isLocked env identity now).2.lockoutSeconds = throttle.lockoutSeconds := by
  simp only [isLocked]
  split
  · exact ⟨rfl, rfl⟩
  · split
    · exact ⟨rfl, rfl⟩
    · split
      · exact ⟨rfl, rfl⟩
      · exact ⟨rfl, rfl⟩

theorem settings_attempt (success : Bool) (now : ℚ) :
    (throttle.attempt env identity success now).2.maxAttempts = throttle.maxAttempts ∧
      (throttle.attempt env identity success now).2.lockoutSeconds = throttle.lockoutSeconds := by
  have hsettings : (throttle.isLocked env identity now).2.maxAttempts = throttle.maxAttempts ∧
      (throttle.isLocked env identity now).2.lockoutSeconds = throttle.lockoutSeconds :=
    settings_isLocked now
  unfold attempt
  rcases hlocked : throttle.isLocked env identity now with ⟨_ | _, after⟩
  · rw [hlocked] at hsettings
    cases success with
    | true => exact hsettings
    | false => exact hsettings
  · rw [hlocked] at hsettings
    exact hsettings

/-- A failure that is recorded is put on the streak. -/
theorem entry_recordFailure
    (h : throttle.entries.get? (normalise env identity)
      = streak.entry throttle.maxAttempts throttle.lockoutSeconds) (now : ℚ) :
    (throttle.recordFailure env identity now).entries =
      throttle.entries.set (normalise env identity)
        ⟨streak.length + 1, if throttle.maxAttempts ≤ streak.length + 1
          then now + throttle.lockoutSeconds else 0⟩ := by
  simp only [recordFailure, h]
  cases streak with
  | nil => simp [Streak.entry]
  | cons last rest =>
    -- A quota that the longer streak does not fill was not filled by the shorter one.
    by_cases hfull : throttle.maxAttempts ≤ (rest.length : ℤ) + 1 + 1
    · simp [Streak.entry, hfull]
    · have hshort : ¬ throttle.maxAttempts ≤ (rest.length : ℤ) + 1 := by omega
      simp [Streak.entry, hfull, hshort]

/-- The outcome of an attempt that is not rejected is put on the streak, or ends it. -/
theorem record_of_entry
    (h : throttle.entries.get? (normalise env identity)
      = streak.entry throttle.maxAttempts throttle.lockoutSeconds) (success : Bool) (now : ℚ)
    (key : String) :
    (if success then throttle.recordSuccess env identity
        else throttle.recordFailure env identity now).entries.get? key =
      if key = normalise env identity then
        Streak.entry throttle.maxAttempts throttle.lockoutSeconds
          (if success then [] else now :: streak)
      else throttle.entries.get? key := by
  cases success with
  | true => exact Dict.get?_erase throttle.entries _ key
  | false =>
    simp only [Bool.false_eq_true, if_false]
    rw [entry_recordFailure h now, Dict.get?_set]
    rfl

/-- An attempt: the answer and the entry follow the streak, and no other entry changes. -/
theorem attempt_of_entry
    (h : throttle.entries.get? (normalise env identity)
      = streak.entry throttle.maxAttempts throttle.lockoutSeconds) (success : Bool) (now : ℚ) :
    (throttle.attempt env identity success now).1 =
        streak.lockedAt throttle.maxAttempts throttle.lockoutSeconds now ∧
      ∀ key, (throttle.attempt env identity success now).2.entries.get? key =
        if key = normalise env identity then
          (streak.next throttle.maxAttempts throttle.lockoutSeconds success now).entry
            throttle.maxAttempts throttle.lockoutSeconds
        else throttle.entries.get? key := by
  unfold attempt Streak.lockedAt Streak.next
  rw [isLocked_of_entry h now]
  cases hend : streak.lockEnd throttle.maxAttempts throttle.lockoutSeconds with
  | none => exact ⟨rfl, record_of_entry h success now⟩
  | some lapses =>
    by_cases hnow : now < lapses
    · simp only [if_pos hnow]
      refine ⟨by simp [hnow], fun key => ?_⟩
      split
      · next hkey => rw [hkey, h]
      · rfl
    · -- The lock is over: the entry goes, and counting starts afresh.
      simp only [if_neg hnow]
      refine ⟨by simp [hnow], fun key => ?_⟩
      have hfresh : (throttle.entries.erase (normalise env identity)).get? (normalise env identity)
          = Streak.entry throttle.maxAttempts throttle.lockoutSeconds [] := by
        rw [Dict.get?_erase, if_pos rfl]
        rfl
      have hrecord := @record_of_entry env { throttle with
        entries := throttle.entries.erase (normalise env identity) } identity [] hfresh success now
        key
      refine hrecord.trans ?_
      by_cases hkey : key = normalise env identity
      · rw [if_pos hkey, if_pos hkey]
      · rw [if_neg hkey, if_neg hkey, Dict.get?_erase, if_neg hkey]

end InMemoryLoginThrottle

/-! ## The Redis backend follows the streaks -/

namespace RedisLoginThrottle

/-- The counter and the lock of the identity with the normalised form `key` follow its streak, now
    and at every later moment. -/
structure Follows (env : TextEnv) (throttle : RedisLoginThrottle) (key : String) (streak : Streak)
    (now : ℚ) : Prop where
  counter : ∀ t, now ≤ t → throttle.redis.count ("login_fail:" ++ env.sha256 key) t
    = streak.counter throttle.lockoutSeconds t
  locked : ∀ t, now ≤ t → throttle.redis.keyExists ("login_lock:" ++ env.sha256 key) t
    = streak.redisLocked throttle.maxAttempts throttle.lockoutSeconds t

variable {env : TextEnv} {throttle : RedisLoginThrottle} {identity : String} {streak : Streak}
  {now : ℚ}

/-- Only the two keys of an identity change when its failure is counted. -/
theorem live_recordFailure_of_ne {key : String} (hfail : key ≠ failKey env identity)
    (hlock : key ≠ lockKey env identity) (t : ℚ) :
    (throttle.recordFailure env identity now).redis.live key t = throttle.redis.live key t := by
  have hcounted : (throttle.countFailure env identity now).2.redis.live key t
      = throttle.redis.live key t := by
    simp only [countFailure]
    rw [(RedisKeys.incr_expire _ _ _ _).2, RedisKeys.live_set_of_ne _ _ _ hfail,
      RedisKeys.live_incr_of_ne _ _ _ hfail]
  simp only [recordFailure]
  split
  · simp only [lock, RedisKeys.setEx]
    rw [RedisKeys.live_set_of_ne _ _ _ hlock, hcounted]
  · exact hcounted

theorem live_attempt_of_ne {key : String} (success : Bool) (hfail : key ≠ failKey env identity)
    (hlock : key ≠ lockKey env identity) (t : ℚ) :
    (throttle.attempt env identity success now).2.redis.live key t = throttle.redis.live key t := by
  unfold attempt
  split
  · rfl
  · cases success with
    | true =>
      simp only [if_true, recordSuccess]
      rw [RedisKeys.live_delete, if_neg hlock, RedisKeys.live_delete, if_neg hfail]
    | false => exact live_recordFailure_of_ne hfail hlock t

/-- A failure counted: the value that `INCR` returns, and the two keys of the identity. -/
theorem recordFailure_keys (hL : 1 ≤ throttle.lockoutSeconds) (t : ℚ) :
    (throttle.recordFailure env identity now).redis.count (failKey env identity) t =
        (if t < now + throttle.lockoutSeconds
          then throttle.redis.count (failKey env identity) now + 1 else 0) ∧
      (throttle.recordFailure env identity now).redis.keyExists (lockKey env identity) t =
        if throttle.maxAttempts ≤ throttle.redis.count (failKey env identity) now + 1
          then decide (t < now + throttle.lockoutSeconds)
          else throttle.redis.keyExists (lockKey env identity) t := by
  have hne : lockKey env identity ≠ failKey env identity := (failKey_ne_lockKey _ _).symm
  have hseconds : max throttle.lockoutSeconds 1 = throttle.lockoutSeconds := max_eq_left hL
  have hcount : (throttle.countFailure env identity now).1
      = throttle.redis.count (failKey env identity) now + 1 := (RedisKeys.incr_expire _ _ 0 _).1
  have hfail : (throttle.countFailure env identity now).2.redis.count (failKey env identity) t =
      if t < now + throttle.lockoutSeconds
        then throttle.redis.count (failKey env identity) now + 1 else 0 := by
    simp only [countFailure, RedisKeys.count]
    rw [(RedisKeys.incr_expire _ _ _ _).2, RedisKeys.live_set_self]
    split <;> rfl
  have hlock : (throttle.countFailure env identity now).2.redis.live (lockKey env identity) t
      = throttle.redis.live (lockKey env identity) t := by
    simp only [countFailure]
    rw [(RedisKeys.incr_expire _ _ _ _).2, RedisKeys.live_set_of_ne _ _ _ hne,
      RedisKeys.live_incr_of_ne _ _ _ hne]
  simp only [recordFailure, hcount]
  split
  · have hseconds' : max (throttle.countFailure env identity now).2.lockoutSeconds 1
        = throttle.lockoutSeconds := hseconds
    simp only [lock, RedisKeys.setEx, RedisKeys.count, RedisKeys.keyExists, hseconds']
    rw [RedisKeys.live_set_of_ne _ _ _ hne.symm, RedisKeys.live_set_self]
    refine ⟨hfail, ?_⟩
    split <;> simp_all
  · exact ⟨hfail, by rw [RedisKeys.keyExists, hlock, RedisKeys.keyExists]⟩

theorem settings_recordFailure :
    (throttle.recordFailure env identity now).maxAttempts = throttle.maxAttempts ∧
      (throttle.recordFailure env identity now).lockoutSeconds = throttle.lockoutSeconds := by
  simp only [recordFailure]
  split
  · exact ⟨rfl, rfl⟩
  · exact ⟨rfl, rfl⟩

theorem settings_attempt (success : Bool) :
    (throttle.attempt env identity success now).2.maxAttempts = throttle.maxAttempts ∧
      (throttle.attempt env identity success now).2.lockoutSeconds = throttle.lockoutSeconds := by
  unfold attempt
  split
  · exact ⟨rfl, rfl⟩
  · cases success with
    | true => exact ⟨rfl, rfl⟩
    | false => exact settings_recordFailure

namespace Follows

theorem isLocked (h : Follows env throttle (normalise env identity) streak now) :
    throttle.isLocked env identity now
      = streak.redisLocked throttle.maxAttempts throttle.lockoutSeconds now :=
  h.locked now (le_refl _)

/-- A failure that neither backend rejects. -/
theorem recordFailure (h : Follows env throttle (normalise env identity) streak now)
    (hL : 1 ≤ throttle.lockoutSeconds)
    (hmemory : streak.lockedAt throttle.maxAttempts throttle.lockoutSeconds now = false)
    (hredis : streak.redisLocked throttle.maxAttempts throttle.lockoutSeconds now = false) :
    Follows env (throttle.recordFailure env identity now) (normalise env identity)
      (streak.next throttle.maxAttempts throttle.lockoutSeconds false now) now := by
  obtain ⟨rest, hnext, hchain⟩ := Streak.next_failure hmemory
  have hcount : throttle.redis.count (failKey env identity) now
      = streak.counter throttle.lockoutSeconds now := h.counter now (le_refl _)
  rw [hnext]
  constructor
  · intro t _
    rw [settings_recordFailure.2]
    refine (recordFailure_keys hL t).1.trans ?_
    simp only [Streak.counter, hcount, hchain]
  · intro t hle
    rw [settings_recordFailure.1, settings_recordFailure.2]
    refine (recordFailure_keys hL t).2.trans ?_
    simp only [Streak.redisLocked, hcount, hchain]
    split
    · next hfull => simp [hfull]
    · next hfull =>
      refine (h.locked t hle).trans ?_
      rw [Streak.redisLocked_eq_false_of_le hredis hle]
      simp [hfull]

theorem recordSuccess (throttle : RedisLoginThrottle) (now : ℚ) :
    Follows env (throttle.recordSuccess env identity) (normalise env identity) [] now := by
  constructor
  · intro t _
    show ((((throttle.redis.delete (failKey env identity)).delete (lockKey env identity)).live
      (failKey env identity) t).map RedisEntry.value).getD 0 = 0
    have hne : failKey env identity ≠ lockKey env identity := failKey_ne_lockKey _ _
    rw [RedisKeys.live_delete, if_neg hne, RedisKeys.live_delete, if_pos rfl]
    rfl
  · intro t _
    show (((throttle.redis.delete (failKey env identity)).delete (lockKey env identity)).live
      (lockKey env identity) t).isSome = false
    rw [RedisKeys.live_delete, if_pos rfl]
    rfl

/-- An attempt to which both backends give the same answer. -/
theorem attempt (h : Follows env throttle (normalise env identity) streak now)
    (hL : 1 ≤ throttle.lockoutSeconds)
    (hagree : streak.lockedAt throttle.maxAttempts throttle.lockoutSeconds now
      = streak.redisLocked throttle.maxAttempts throttle.lockoutSeconds now) (success : Bool) :
    Follows env (throttle.attempt env identity success now).2 (normalise env identity)
      (streak.next throttle.maxAttempts throttle.lockoutSeconds success now) now := by
  unfold RedisLoginThrottle.attempt
  rw [h.isLocked]
  cases hlocked : streak.redisLocked throttle.maxAttempts throttle.lockoutSeconds now with
  | true =>
    -- Both backends reject the attempt: the streak is as it was.
    have hnext : streak.next throttle.maxAttempts throttle.lockoutSeconds success now = streak := by
      rw [hlocked, Streak.lockedAt, Option.any_eq_true] at hagree
      obtain ⟨lapses, hend, hnow⟩ := hagree
      simp only [Streak.next, hend, if_pos (of_decide_eq_true hnow)]
    rw [hnext]
    exact h
  | false =>
    cases success with
    | true =>
      have hnext : streak.next throttle.maxAttempts throttle.lockoutSeconds true now = [] := by
        rw [hlocked, Streak.lockedAt] at hagree
        unfold Streak.next
        split
        · next lapses hend =>
          rw [hend, Option.any_some, decide_eq_false_iff_not] at hagree
          rw [if_neg hagree, if_pos rfl]
        · rfl
      rw [hnext]
      exact recordSuccess throttle now
    | false => exact h.recordFailure hL (hagree.trans hlocked) hlocked

/-- An attempt on another identity, with other keys. -/
theorem attempt_of_ne {key : String} (h : Follows env throttle key streak now)
    (hkey : env.sha256 key ≠ env.sha256 (normalise env identity)) (success : Bool) :
    Follows env (throttle.attempt env identity success now).2 key streak now := by
  have happend : ∀ text : String, text ++ env.sha256 key
      ≠ text ++ env.sha256 (normalise env identity) := by
    intro text heq
    exact hkey ((String.append_right_inj text).1 heq)
  constructor
  · intro t ht
    rw [(settings_attempt success).2, RedisKeys.count,
      live_attempt_of_ne success (happend _) (failKey_ne_lockKey _ _)]
    exact h.counter t ht
  · intro t ht
    rw [(settings_attempt success).1, (settings_attempt success).2, RedisKeys.keyExists,
      live_attempt_of_ne success (failKey_ne_lockKey _ _).symm (happend _)]
    exact h.locked t ht

theorem later {key : String} (h : Follows env throttle key streak now) {now' : ℚ}
    (hle : now ≤ now') : Follows env throttle key streak now' :=
  ⟨fun t ht => h.counter t (hle.trans ht), fun t ht => h.locked t (hle.trans ht)⟩

end Follows

end RedisLoginThrottle

/-! ## The same answers -/

/-- The two backends after the same attempts; whether they have answered alike so far, and the
    streaks of the identities. -/
structure LockoutPair where
  now : ℚ
  memory : InMemoryLoginThrottle
  redis : RedisLoginThrottle
  agreed : Bool
  streaks : String → Streak

namespace LockoutPair

def init (maxAttempts lockoutSeconds : ℤ) (now : ℚ) : LockoutPair :=
  ⟨now, ⟨maxAttempts, lockoutSeconds, .empty⟩, ⟨maxAttempts, lockoutSeconds, .empty⟩, true,
    fun _ => []⟩

/-- The attempt reaches both backends, at its moment or now if that is past. -/
def step (env : TextEnv) (s : LockoutPair) (a : LoginAttempt) : LockoutPair :=
  let now := max s.now a.moment
  let key := normalise env a.identity
  let memory := s.memory.attempt env a.identity a.success now
  let redis := s.redis.attempt env a.identity a.success now
  { now
    memory := memory.2
    redis := redis.2
    agreed := s.agreed && memory.1 == redis.1
    streaks := fun k =>
      if k = key then
        (s.streaks k).next s.memory.maxAttempts s.memory.lockoutSeconds a.success now
      else s.streaks k }

end LockoutPair

/-- For an attempt that comes less than a lockout after the last failure that counts: the failures
    that count fill the quota only if it is filled by failures that came less than a lockout apart.
    (A failure at the moment `-lockoutSeconds` puts on no lock in memory.) -/
def Streak.Quick (maxAttempts lockoutSeconds : ℤ) (now : ℚ) : Streak → Prop
  | [] => True
  | last :: rest => now < last + lockoutSeconds →
      ((maxAttempts ≤ rest.length + 1 ∧ last + (lockoutSeconds : ℚ) ≠ 0) ↔
        maxAttempts ≤ chain lockoutSeconds (last :: rest))

instance (maxAttempts lockoutSeconds : ℤ) (now : ℚ) :
    ∀ streak, Decidable (Streak.Quick maxAttempts lockoutSeconds now streak)
  | [] => inferInstanceAs (Decidable True)
  | last :: rest => inferInstanceAs (Decidable (now < last + lockoutSeconds →
      ((maxAttempts ≤ rest.length + 1 ∧ last + (lockoutSeconds : ℚ) ≠ 0) ↔
        maxAttempts ≤ Streak.chain lockoutSeconds (last :: rest))))

/-- The condition on an attempt: the streak of its identity is quick. -/
def QuickStreak (env : TextEnv) (s : LockoutPair) (a : LoginAttempt) : Prop :=
  (s.streaks (normalise env a.identity)).Quick s.memory.maxAttempts s.memory.lockoutSeconds
    (max s.now a.moment)

instance (env : TextEnv) (s : LockoutPair) (a : LoginAttempt) : Decidable (QuickStreak env s a) :=
  inferInstanceAs (Decidable (Streak.Quick _ _ _ _))

/-- Where the backends follow a streak, they give the same answer exactly if it is quick. -/
theorem Streak.lockedAt_eq_redisLocked_iff {maxAttempts lockoutSeconds : ℤ} {now : ℚ}
    {streak : Streak} :
    streak.lockedAt maxAttempts lockoutSeconds now
        = streak.redisLocked maxAttempts lockoutSeconds now ↔
      streak.Quick maxAttempts lockoutSeconds now := by
  cases streak with
  | nil => exact iff_of_true rfl trivial
  | cons last rest =>
    by_cases hnow : now < last + lockoutSeconds
    · by_cases hfull : maxAttempts ≤ rest.length + 1 ∧ last + (lockoutSeconds : ℚ) ≠ 0
      · simp [lockedAt, lockEnd, redisLocked, Quick, hnow, hfull]
      · simp [lockedAt, lockEnd, redisLocked, Quick, hnow, hfull]
    · by_cases hfull : maxAttempts ≤ rest.length + 1 ∧ last + (lockoutSeconds : ℚ) ≠ 0
      · simp [lockedAt, lockEnd, redisLocked, Quick, hnow, hfull]
      · simp [lockedAt, lockEnd, redisLocked, Quick, hnow, hfull]

namespace LockoutPair

/-- Both backends follow the streaks of the identities whose normalised forms are in `keys`. -/
structure Follows (env : TextEnv) (keys : Set String) (s : LockoutPair) : Prop where
  maxAttempts : s.redis.maxAttempts = s.memory.maxAttempts
  lockoutSeconds : s.redis.lockoutSeconds = s.memory.lockoutSeconds
  positive : 1 ≤ s.memory.lockoutSeconds
  memory : ∀ key, s.memory.entries.get? key
    = (s.streaks key).entry s.memory.maxAttempts s.memory.lockoutSeconds
  redis : ∀ key ∈ keys, RedisLoginThrottle.Follows env s.redis key (s.streaks key) s.now

variable {env : TextEnv} {keys : Set String} {s : LockoutPair}

theorem Follows.redis_answer (h : s.Follows env keys) {a : LoginAttempt}
    (ha : normalise env a.identity ∈ keys) :
    (s.redis.attempt env a.identity a.success (max s.now a.moment)).1 =
      (s.streaks (normalise env a.identity)).redisLocked s.memory.maxAttempts
        s.memory.lockoutSeconds (max s.now a.moment) := by
  have hlocked := ((h.redis _ ha).later (le_max_left s.now a.moment)).isLocked
  rw [h.maxAttempts, h.lockoutSeconds] at hlocked
  rw [← hlocked]
  unfold RedisLoginThrottle.attempt
  split
  · next hyes => exact hyes.symm
  · next hno => simpa using hno

/-- The next attempt gets the same answer exactly if the streak of its identity is quick. -/
theorem Follows.answers_iff (h : s.Follows env keys) {a : LoginAttempt}
    (ha : normalise env a.identity ∈ keys) :
    (s.memory.attempt env a.identity a.success (max s.now a.moment)).1
        = (s.redis.attempt env a.identity a.success (max s.now a.moment)).1 ↔
      QuickStreak env s a := by
  have hmemory := (InMemoryLoginThrottle.attempt_of_entry (h.memory (normalise env a.identity))
    a.success (max s.now a.moment)).1
  rw [hmemory, h.redis_answer ha]
  exact Streak.lockedAt_eq_redisLocked_iff

/-- An attempt that both backends answer alike. -/
theorem Follows.step (h : s.Follows env keys) (hsha : Set.InjOn env.sha256 keys) {a : LoginAttempt}
    (ha : normalise env a.identity ∈ keys)
    (hagree : (s.memory.attempt env a.identity a.success (max s.now a.moment)).1
      = (s.redis.attempt env a.identity a.success (max s.now a.moment)).1) :
    (s.step env a).Follows env keys := by
  obtain ⟨hanswer, hentries⟩ := InMemoryLoginThrottle.attempt_of_entry
    (h.memory (normalise env a.identity)) a.success (max s.now a.moment)
  have hmemory : (s.step env a).memory.maxAttempts = s.memory.maxAttempts ∧
      (s.step env a).memory.lockoutSeconds = s.memory.lockoutSeconds :=
    InMemoryLoginThrottle.settings_attempt a.success _
  have hredis : (s.step env a).redis.maxAttempts = s.redis.maxAttempts ∧
      (s.step env a).redis.lockoutSeconds = s.redis.lockoutSeconds :=
    RedisLoginThrottle.settings_attempt a.success
  have hsame : (s.streaks (normalise env a.identity)).lockedAt s.redis.maxAttempts
        s.redis.lockoutSeconds (max s.now a.moment) =
      (s.streaks (normalise env a.identity)).redisLocked s.redis.maxAttempts
        s.redis.lockoutSeconds (max s.now a.moment) := by
    rw [h.maxAttempts, h.lockoutSeconds, ← hanswer, hagree, h.redis_answer ha]
  refine ⟨?_, ?_, ?_, fun key => ?_, fun key hkey => ?_⟩
  · rw [hmemory.1, hredis.1, h.maxAttempts]
  · rw [hmemory.2, hredis.2, h.lockoutSeconds]
  · rw [hmemory.2]
    exact h.positive
  · rw [hmemory.1, hmemory.2]
    refine (hentries key).trans ?_
    by_cases hk : key = normalise env a.identity
    · simp only [LockoutPair.step, hk, if_true]
    · simp only [LockoutPair.step, if_neg hk]
      exact h.memory key
  · have hnow := (h.redis key hkey).later (le_max_left s.now a.moment)
    by_cases hk : key = normalise env a.identity
    · subst hk
      have hfollows := hnow.attempt (h.lockoutSeconds.symm ▸ h.positive) hsame a.success
      rw [h.maxAttempts, h.lockoutSeconds] at hfollows
      simpa only [LockoutPair.step, if_true] using hfollows
    · have hdigest : env.sha256 key ≠ env.sha256 (normalise env a.identity) :=
        fun heq => hk (hsha hkey ha heq)
      simpa only [LockoutPair.step, if_neg hk] using hnow.attempt_of_ne hdigest a.success

end LockoutPair

/-- The same attempts, on any identities, against both backends: every `is_locked` call gets the
    same answer from both, exactly if no identity is tried again within a lockout of filling its
    quota by failures of which two in a row came a lockout or more apart. -/
theorem lockout_backends_agree_iff (env : TextEnv) (maxAttempts lockoutSeconds : ℤ)
    (hlockout : 1 ≤ lockoutSeconds) (now : ℚ) (attempts : List LoginAttempt)
    (hsha : Set.InjOn env.sha256
      {key | ∃ a ∈ attempts, normalise env a.identity = key}) :
    Always (LockoutPair.step env) (fun s => s.agreed = true)
        (.init maxAttempts lockoutSeconds now) attempts ↔
      Guarded (LockoutPair.step env) (QuickStreak env) (.init maxAttempts lockoutSeconds now)
        attempts := by
  have hinit : (LockoutPair.init maxAttempts lockoutSeconds now).Follows env
      {key | ∃ a ∈ attempts, normalise env a.identity = key} :=
    ⟨rfl, rfl, hlockout, fun _ => rfl, fun _ _ => ⟨fun _ _ => rfl, fun _ _ => rfl⟩⟩
  refine always_iff_guarded_of_mem
    (I := fun s => s.agreed = true →
      s.Follows env {key | ∃ a ∈ attempts, normalise env a.identity = key})
    (A := fun a => a ∈ attempts) ?_ ?_ attempts _ (fun _ ha => ha) (fun _ => hinit) rfl
  · intro s a ha h hagreed
    simp only [LockoutPair.step, Bool.and_eq_true, beq_iff_eq] at hagreed
    exact (h hagreed.1).step hsha ⟨a, ha, rfl⟩ hagreed.2
  · intro s a ha h hagreed
    rw [← (h hagreed).answers_iff ⟨a, ha, rfl⟩]
    simp only [LockoutPair.step, hagreed, Bool.true_and, beq_iff_eq]

/-- ASCII texts in lower case, and the digests of two of them. -/
def TextEnv.sample : TextEnv where
  lower text := String.ofList (text.toList.map Char.toLower)
  sha256 text :=
    if text = "a@x.io" then "aa8a6b1226018606fb52fd4fb5e6f407d7a610c996250306acf156a247c08e26"
    else if text = "b@x.io" then "da9a33894db95b4ef8d14624dff99d9843211cb5bc458ea25fa45ecf5c0f73a8"
    else text

/-- Two failures on one identity, a rejected attempt, and another identity. -/
def quickAttempts : List LoginAttempt :=
  [⟨"a@x.io", 1, false⟩, ⟨"b@x.io", 2, false⟩, ⟨"a@x.io", 5, false⟩, ⟨"a@x.io", 6, true⟩,
    ⟨"a@x.io", 15, true⟩]

theorem quick_attempts_agree :
    Always (LockoutPair.step .sample) (fun s => s.agreed = true) (.init 2 10 0) quickAttempts := by
  have hsha : ∀ a ∈ quickAttempts, ∀ b ∈ quickAttempts,
      TextEnv.sample.sha256 (normalise .sample a.identity)
        = TextEnv.sample.sha256 (normalise .sample b.identity) →
      normalise .sample a.identity = normalise .sample b.identity := by decide +kernel
  refine (lockout_backends_agree_iff .sample 2 10 (by decide) 0 quickAttempts ?_).2
    (by decide +kernel)
  rintro _ ⟨a, ha, rfl⟩ _ ⟨b, hb, rfl⟩ heq
  exact hsha a ha b hb heq

/-- Two failures a lockout apart, and another attempt. -/
def slowAttempts : List LoginAttempt :=
  [⟨"a@x.io", 1, false⟩, ⟨"a@x.io", 20, false⟩, ⟨"a@x.io", 21, true⟩]

/-- In memory the identity is locked out, in Redis it is not. -/
theorem slow_attempts_disagree :
    ¬ Always (LockoutPair.step .sample) (fun s => s.agreed = true) (.init 2 10 0) slowAttempts := by
  intro h
  have hagreed := Always.last _ _ h
  exact absurd hagreed (by decide +kernel)

end TradingHub
