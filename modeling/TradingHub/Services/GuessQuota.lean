import TradingHub.Library.Bursts
import TradingHub.Services.Logins

set_option autoImplicit false

/-! # How many guesses a lockout lets through

Any number of concurrent logins with one email, none of which succeeds. The lock is checked before
the password is verified and the failure is counted after, so the calls in between are neither
refused nor counted. If a call gets past the check only while the failures counted and the calls in
between leave room for it, the failures come in bursts of at most `max_attempts`, a lockout apart,
with either backend. -/

namespace TradingHub

open Library

/-! ## What a throttle counts -/

namespace LoginThrottle

def maxAttempts : LoginThrottle → ℤ
  | memory throttle => throttle.maxAttempts
  | redis throttle => throttle.maxAttempts

def lockoutSeconds : LoginThrottle → ℤ
  | memory throttle => throttle.lockoutSeconds
  | redis throttle => throttle.lockoutSeconds

variable (env : TextEnv) (identity : String)

/-- The failures of an identity that the throttle counts. -/
def failures (now : ℚ) : LoginThrottle → ℤ
  | memory throttle =>
    ((throttle.entries.get? (normalise env identity)).map ThrottleEntry.failures).getD 0
  | redis throttle => throttle.redis.count (RedisLoginThrottle.failKey env identity) now

/-- The throttle has counted failures at these moments, the last `k` of them in its counter. An
    entry or a counter that is gone was left for a lockout. -/
def Tracks (moments : List ℚ) (k : ℤ) (now : ℚ) : LoginThrottle → Prop
  | memory throttle =>
    match throttle.entries.get? (normalise env identity) with
    | none => ∀ m ∈ moments, m + throttle.lockoutSeconds ≤ now
    | some entry => entry.failures = k ∧ (entry.lockedUntil ≠ 0 →
        throttle.maxAttempts ≤ k ∧ ∀ m ∈ moments, m + throttle.lockoutSeconds ≤ entry.lockedUntil)
  | redis throttle =>
    match Dict.get? throttle.redis (RedisLoginThrottle.failKey env identity) with
    | none => moments = []
    | some entry => entry.value = k ∧ ∃ lapses, entry.lapses = some lapses ∧
        ∀ m ∈ moments, m + throttle.lockoutSeconds ≤ lapses

variable {env identity} {moments : List ℚ} {k : ℤ} {now : ℚ} {throttle : LoginThrottle}

theorem lockoutSeconds_countFailure :
    (throttle.countFailure env identity now).2.lockoutSeconds = throttle.lockoutSeconds := by
  cases throttle with
  | memory throttle => rfl
  | redis throttle => rfl

theorem maxAttempts_countFailure :
    (throttle.countFailure env identity now).2.maxAttempts = throttle.maxAttempts := by
  cases throttle with
  | memory throttle => rfl
  | redis throttle => rfl

/-- The lookup keeps the settings. -/
theorem isLocked_settings :
    (throttle.isLocked env identity now).2.maxAttempts = throttle.maxAttempts ∧
      (throttle.isLocked env identity now).2.lockoutSeconds = throttle.lockoutSeconds := by
  cases throttle with
  | redis throttle => exact ⟨rfl, rfl⟩
  | memory throttle =>
    simp only [isLocked, InMemoryLoginThrottle.isLocked]
    split
    · exact ⟨rfl, rfl⟩
    · split
      · exact ⟨rfl, rfl⟩
      · split <;> exact ⟨rfl, rfl⟩

/-- A lookup that finds a lock changes nothing. -/
theorem eq_of_isLocked {throttle' : LoginThrottle}
    (h : (throttle.isLocked env identity now).1 = true)
    (h' : (throttle.isLocked env identity now).2 = throttle') : throttle' = throttle := by
  subst h'
  cases throttle with
  | redis throttle => rfl
  | memory throttle =>
    cases hget : throttle.entries.get? (normalise env identity) with
    | none => simp only [isLocked, InMemoryLoginThrottle.isLocked, hget]
    | some entry =>
      simp only [isLocked, InMemoryLoginThrottle.isLocked, hget] at h ⊢
      by_cases hzero : entry.lockedUntil = 0
      · simp only [if_pos hzero]
      · by_cases hlt : now < entry.lockedUntil
        · simp only [if_neg hzero, if_pos hlt]
        · exact absurd h (by simp [hzero, hlt])

/-- The counter stands, or it is gone and every failure is a lockout ago. -/
theorem Tracks.failures_cases (h : throttle.Tracks env identity moments k now) :
    throttle.failures env identity now = k ∨ (throttle.failures env identity now = 0 ∧
      ∀ m ∈ moments, m + throttle.lockoutSeconds ≤ now) := by
  cases throttle with
  | memory throttle =>
    simp only [Tracks] at h
    split at h
    · next hget => exact .inr ⟨by simp [failures, hget], h⟩
    · next entry hget => exact .inl (by simp [failures, hget, h.1])
  | redis throttle =>
    simp only [Tracks] at h
    split at h
    · next hget =>
      subst h
      exact .inr ⟨by simp [failures, RedisKeys.count, RedisKeys.live, hget], by simp⟩
    · next entry hget =>
      obtain ⟨hvalue, lapses, hlapses, hold⟩ := h
      have hcount := RedisKeys.count_of_get? hget hlapses now
      by_cases hlive : now < lapses
      · rw [if_pos hlive, hvalue] at hcount
        exact .inl hcount
      · rw [if_neg hlive] at hcount
        exact .inr ⟨hcount, fun m hm => (hold m hm).trans (not_lt.1 hlive)⟩

/-- Time passes. -/
theorem Tracks.mono (h : throttle.Tracks env identity moments k now) {t : ℚ} (ht : now ≤ t) :
    throttle.Tracks env identity moments k t := by
  cases throttle with
  | memory throttle =>
    simp only [Tracks] at h ⊢
    split at h
    · exact fun m hm => (h m hm).trans ht
    · exact h
  | redis throttle => exact h

/-- `is_locked` clears an entry only when its lock is over. -/
theorem Tracks.lookup (h : throttle.Tracks env identity moments k now) :
    (throttle.isLocked env identity now).2.Tracks env identity moments k now := by
  cases throttle with
  | redis throttle => exact h
  | memory throttle =>
    cases hget : throttle.entries.get? (normalise env identity) with
    | none => simpa [isLocked, InMemoryLoginThrottle.isLocked, hget] using h
    | some entry =>
      by_cases hzero : entry.lockedUntil = 0
      · simpa [isLocked, InMemoryLoginThrottle.isLocked, hget, hzero] using h
      · by_cases hlt : now < entry.lockedUntil
        · simpa [isLocked, InMemoryLoginThrottle.isLocked, hget, hzero, hlt] using h
        · simp only [Tracks, hget] at h
          simp only [isLocked, InMemoryLoginThrottle.isLocked, hget, hzero, hlt, if_false, Tracks,
            Dict.get?_erase, if_true]
          exact fun m hm => ((h.2 hzero).2 m hm).trans (not_lt.1 hlt)

/-- A failure is counted. -/
theorem Tracks.count (h : throttle.Tracks env identity moments k now)
    (hpast : ∀ m ∈ moments, m ≤ now) :
    (throttle.countFailure env identity now).2.Tracks env identity (now :: moments)
      (throttle.failures env identity now + 1) now := by
  -- A lock that the failure puts on ends a lockout after it.
  have hlockout : ∀ L : ℤ, ∀ m ∈ now :: moments, m + L ≤ now + L := by
    intro L m hm
    rcases List.mem_cons.1 hm with rfl | hm
    · exact le_rfl
    · exact add_le_add (hpast m hm) le_rfl
  cases throttle with
  | memory throttle =>
    simp only [countFailure, InMemoryLoginThrottle.recordFailure, Tracks, Dict.get?_set_self]
    cases hget : throttle.entries.get? (normalise env identity) with
    | none =>
      simp only [failures, hget, Option.map_none, Option.getD_none]
      refine ⟨trivial, fun hlocked => ?_⟩
      split at hlocked
      · next hfull =>
        rw [if_pos hfull]
        exact ⟨hfull, hlockout _⟩
      · exact absurd rfl hlocked
    | some entry =>
      simp only [Tracks, hget] at h
      simp only [failures, hget, Option.map_some, Option.getD_some]
      refine ⟨trivial, fun hlocked => ?_⟩
      split at hlocked
      · next hfull =>
        rw [if_pos hfull]
        exact ⟨hfull, hlockout _⟩
      · next hroom =>
        have hfull := (h.2 hlocked).1
        exact absurd hfull (by omega)
  | redis throttle =>
    have hcounted := RedisKeys.incr_expire throttle.redis
      (RedisLoginThrottle.failKey env identity) throttle.lockoutSeconds now
    simp only [countFailure, RedisLoginThrottle.countFailure, Tracks, hcounted.2,
      Dict.get?_set_self]
    exact ⟨rfl, _, rfl, hlockout _⟩

/-- The second round trip leaves the counter alone. -/
theorem Tracks.lock (h : throttle.Tracks env identity moments k now) :
    (throttle.lock env identity now).Tracks env identity moments k now := by
  cases throttle with
  | memory throttle => exact h
  | redis throttle =>
    have hkey : RedisLoginThrottle.failKey env identity ≠ RedisLoginThrottle.lockKey env identity :=
      RedisLoginThrottle.failKey_ne_lockKey _ _
    simp only [LoginThrottle.lock, RedisLoginThrottle.lock, RedisKeys.setEx, Tracks,
      Dict.get?_set_of_ne _ _ hkey]
    exact h

/-- The counter only decays. -/
theorem Tracks.failures_le (h : throttle.Tracks env identity moments k now) (hk : 0 ≤ k) {t : ℚ}
    (ht : now ≤ t) : throttle.failures env identity t ≤ throttle.failures env identity now := by
  cases throttle with
  | memory throttle => exact le_rfl
  | redis throttle =>
    simp only [Tracks] at h
    split at h
    · next hget => simp [failures, RedisKeys.count, RedisKeys.live, hget]
    · next entry hget =>
      obtain ⟨hvalue, lapses, hlapses, -⟩ := h
      simp only [failures, RedisKeys.count_of_get? hget hlapses]
      split
      · next hlive => rw [if_pos (ht.trans_lt hlive)]
      · split
        · exact hvalue ▸ hk
        · exact le_rfl

/-- The second round trip changes neither the settings nor the counter. -/
theorem lock_settings :
    (throttle.lock env identity now).maxAttempts = throttle.maxAttempts ∧
      (throttle.lock env identity now).lockoutSeconds = throttle.lockoutSeconds := by
  cases throttle with
  | memory throttle => exact ⟨rfl, rfl⟩
  | redis throttle => exact ⟨rfl, rfl⟩

theorem failures_lock (t : ℚ) :
    (throttle.lock env identity now).failures env identity t =
      throttle.failures env identity t := by
  cases throttle with
  | memory throttle => rfl
  | redis throttle =>
    have hkey : RedisLoginThrottle.failKey env identity ≠ RedisLoginThrottle.lockKey env identity :=
      RedisLoginThrottle.failKey_ne_lockKey _ _
    simp only [LoginThrottle.lock, RedisLoginThrottle.lock, RedisKeys.setEx, failures,
      RedisKeys.count, RedisKeys.live_set_of_ne _ _ _ hkey]

/-- A failure that is counted stands in the counter. -/
theorem Tracks.failures_count (h : throttle.Tracks env identity moments k now)
    (hpast : ∀ m ∈ moments, m ≤ now) (hlockout : 0 < throttle.lockoutSeconds) :
    (throttle.countFailure env identity now).2.failures env identity now =
      throttle.failures env identity now + 1 := by
  rcases (h.count hpast).failures_cases with hcount | ⟨-, hold⟩
  · exact hcount
  · have hnow := hold now (by simp)
    rw [lockoutSeconds_countFailure] at hnow
    have hpos : (0 : ℚ) < throttle.lockoutSeconds := by exact_mod_cast hlockout
    linarith

end LoginThrottle

/-! ## How far a call is with its guess -/

/-- The call is past the lock check, and its outcome is not yet recorded. -/
def LoginPhase.pending : LoginPhase → Bool
  | loading => true
  | verifying _ => true
  | recording _ _ => true
  | _ => false

/-- The credentials of the call were accepted. -/
def LoginPhase.accepted : LoginPhase → Bool
  | clearing _ _ _ => true
  | hashing _ _ _ => true
  | logging _ _ _ => true
  | returned _ _ _ _ => true
  | done _ => true
  | _ => false

/-- The call is past the lock check. -/
def LoginCall.passCheck (now : ℚ) (call : LoginCall) : LoginCall :=
  { call with phase := .loading, checkedAt := some now }

/-- What a step of a call that is not accepted does to the throttle and to the call. -/
inductive GuessStep (env : AuthEnv) (identity : String) (s : LoginStore) (call : LoginCall) :
    LoginStore → LoginCall → Prop
  | quiet {s' : LoginStore} {call' : LoginCall} (hclock : s'.now = s.now)
      (hthrottle : s'.throttle = s.throttle ∨
        s'.throttle = s.throttle.lock env.text identity s.now)
      (hpending : call'.phase.pending = call.phase.pending)
      (hmoments : call'.checkedAt = call.checkedAt ∧ call'.rejectedAt = call.rejectedAt)
      (hphase : call'.phase ≠ .checking) : GuessStep env identity s call s' call'
  | admitted (hphase : call.phase = .checking)
      (hunlocked : (s.throttle.isLocked env.text identity s.now).1 = false) :
      GuessStep env identity s call
        { s with throttle := (s.throttle.isLocked env.text identity s.now).2 }
        (call.passCheck s.now)
  | dropped {call' : LoginCall} (hpending : call.phase.pending = true)
      (hpending' : call'.phase.pending = false)
      (hmoments : call'.checkedAt = call.checkedAt ∧ call'.rejectedAt = call.rejectedAt)
      (hphase : call'.phase ≠ .checking) : GuessStep env identity s call s call'
  | rejected {call' : LoginCall} (hpending : call.phase.pending = true)
      (hpending' : call'.phase.pending = false)
      (hmoments : call'.checkedAt = call.checkedAt ∧ call'.rejectedAt = some s.now)
      (hphase : call'.phase ≠ .checking) :
      GuessStep env identity s call
        { s with throttle := (s.throttle.countFailure env.text identity s.now).2 } call'

theorem LoginStore.proceed_guess (env : AuthEnv) (email : String) (i : ℕ) (s : LoginStore)
    {call : LoginCall} (h : call.phase.accepted = false) :
    GuessStep env (env.text.lower email) s call (s.proceed env email i call).1
      (s.proceed env email i call).2 := by
  obtain ⟨password, totpCode, ip, draws, phase, checkedAt, rejectedAt⟩ := call
  cases phase with
  | checking =>
    simp only [proceed]
    cases hlocked : s.throttle.isLocked env.text (env.text.lower email) s.now with
    | mk locked throttle =>
      cases locked with
      | true =>
        have hsame : throttle = s.throttle :=
          LoginThrottle.eq_of_isLocked (congrArg Prod.fst hlocked) (congrArg Prod.snd hlocked)
        exact .quiet rfl (.inl hsame) rfl ⟨rfl, rfl⟩ (by simp)
      | false =>
        have hadmitted := @GuessStep.admitted env (env.text.lower email) s
          ⟨password, totpCode, ip, draws, .checking, checkedAt, rejectedAt⟩ rfl
          (congrArg Prod.fst hlocked)
        rw [hlocked] at hadmitted
        exact hadmitted
  | loading => exact .quiet rfl (.inl rfl) rfl ⟨rfl, rfl⟩ (by simp [proceed])
  | verifying found =>
    simp only [proceed]
    split
    · exact .quiet rfl (.inl rfl) rfl ⟨rfl, rfl⟩ (by simp)
    · exact .dropped rfl rfl ⟨rfl, rfl⟩ (by simp)
    · exact .dropped rfl rfl ⟨rfl, rfl⟩ (by simp)
  | recording failure entry =>
    simp only [proceed]
    split
    · next throttle hcount =>
      rw [show throttle = (s.throttle.countFailure env.text (env.text.lower email) s.now).2 by
        rw [hcount]]
      exact .rejected rfl rfl ⟨rfl, rfl⟩ (by simp)
    · next throttle hcount =>
      rw [show throttle = (s.throttle.countFailure env.text (env.text.lower email) s.now).2 by
        rw [hcount]]
      exact .rejected rfl rfl ⟨rfl, rfl⟩ (by simp)
  | locking failure entry => exact .quiet rfl (.inr rfl) rfl ⟨rfl, rfl⟩ (by simp [proceed])
  | auditing failure entry => exact .quiet rfl (.inl rfl) rfl ⟨rfl, rfl⟩ (by simp [proceed])
  | committing failure entry =>
    cases failure with
    | none => exact .quiet rfl (.inl rfl) rfl ⟨rfl, rfl⟩ (by simp [proceed])
    | some failure => exact .quiet rfl (.inl rfl) rfl ⟨rfl, rfl⟩ (by simp [proceed])
  | hinting => exact .quiet rfl (.inl rfl) rfl ⟨rfl, rfl⟩ (by simp [proceed])
  | raised failure => exact .quiet rfl (.inl rfl) rfl ⟨rfl, rfl⟩ (by simp [proceed])
  | _ => exact absurd h (by simp [LoginPhase.accepted])

/-! ## The moments of a call -/

/-- The moments of a call are in order: a call that is pending was checked, one that was rejected
    was checked before. -/
structure LoginCall.Timely (now : ℚ) (call : LoginCall) : Prop where
  fresh : call.phase = .checking → call.checkedAt = none ∧ call.rejectedAt = none
  pending : call.phase.pending = true →
    call.rejectedAt = none ∧ ∃ c, call.checkedAt = some c ∧ c ≤ now
  rejected : ∀ r, call.rejectedAt = some r → r ≤ now ∧ ∃ c, call.checkedAt = some c ∧ c ≤ r

namespace LoginCall.Timely

variable {now t : ℚ} {call call' : LoginCall}

theorem mono (h : call.Timely now) (ht : now ≤ t) : call.Timely t where
  fresh := h.fresh
  pending hpending := by
    obtain ⟨hnone, c, hc, hle⟩ := h.pending hpending
    exact ⟨hnone, c, hc, hle.trans ht⟩
  rejected r hr := ⟨(h.rejected r hr).1.trans ht, (h.rejected r hr).2⟩

/-- A step of the call keeps its moments in order. -/
theorem step {env : AuthEnv} {identity : String} {s s' : LoginStore} (h : call.Timely s.now)
    (hstep : GuessStep env identity s call s' call') : call'.Timely s.now := by
  cases hstep with
  | quiet _ _ hpending hmoments hphase =>
    refine ⟨fun hchecking => absurd hchecking hphase, fun hyes => ?_, fun r hr => ?_⟩
    · rw [hmoments.1, hmoments.2]
      exact h.pending (hpending.symm.trans hyes)
    · rw [hmoments.1]
      exact h.rejected r (hmoments.2.symm.trans hr)
  | admitted hphase _ =>
    refine ⟨fun hchecking => absurd hchecking (by simp [passCheck]), fun _ => ?_, fun r hr => ?_⟩
    · exact ⟨(h.fresh hphase).2, s.now, rfl, le_rfl⟩
    · exact absurd ((h.fresh hphase).2.symm.trans hr) (by simp)
  | dropped _ hpending' hmoments hphase =>
    refine ⟨fun hchecking => absurd hchecking hphase, fun hyes => ?_, fun r hr => ?_⟩
    · exact absurd (hpending'.symm.trans hyes) (by simp)
    · rw [hmoments.1]
      exact h.rejected r (hmoments.2.symm.trans hr)
  | rejected hpending hpending' hmoments hphase =>
    refine ⟨fun hchecking => absurd hchecking hphase, fun hyes => ?_, fun r hr => ?_⟩
    · exact absurd (hpending'.symm.trans hyes) (by simp)
    · obtain rfl := Option.some.inj (hmoments.2.symm.trans hr)
      rw [hmoments.1]
      exact ⟨le_rfl, (h.pending hpending).2⟩

end LoginCall.Timely

/-! ## Counting calls -/

/-- A call is replaced: what is counted changes by the two calls. -/
theorem countP_set_add {α : Type} {l : List α} {i : ℕ} {a : α} (hi : l[i]? = some a) (b : α)
    (p : α → Bool) :
    (l.set i b).countP p + (if p a then 1 else 0) = l.countP p + if p b then 1 else 0 := by
  obtain ⟨hlt, rfl⟩ := List.getElem?_eq_some_iff.1 hi
  have hle := List.boole_getElem_le_countP (p := p) hlt
  rw [List.countP_set hlt]
  omega

theorem countP_set_le {α : Type} {l : List α} {i : ℕ} {a : α} (hi : l[i]? = some a) {b : α}
    {p : α → Bool} (h : p b = true → p a = true) : (l.set i b).countP p ≤ l.countP p := by
  have hadd := countP_set_add hi b p
  by_cases hb : p b = true
  · rw [if_pos hb, if_pos (h hb)] at hadd
    omega
  · rw [if_neg hb] at hadd
    omega

theorem countP_set_of_neg {α : Type} {l : List α} {i : ℕ} {a : α} (hi : l[i]? = some a) (b : α)
    {p : α → Bool} (h : p a = false) :
    (l.set i b).countP p = l.countP p + if p b then 1 else 0 := by
  have hadd := countP_set_add hi b p
  rw [h] at hadd
  simpa using hadd

theorem countP_le_add {α : Type} {p q r : α → Bool} :
    ∀ (l : List α), (∀ a ∈ l, p a = true → q a = true ∨ r a = true) →
      l.countP p ≤ l.countP q + l.countP r := by
  intro l
  induction l with
  | nil => intro _; simp
  | cons a l ih =>
    intro h
    have htail := ih fun b hb => h b (by simp [hb])
    have hhead := h a (by simp)
    simp only [List.countP_cons]
    cases hp : p a with
    | false => simp only [Bool.false_eq_true, if_false]; omega
    | true =>
      rcases hhead hp with hq | hr
      · simp only [hq, if_true]; omega
      · simp only [hr, if_true]; omega

namespace LoginSystem

/-- The calls past the lock check whose outcome is not yet recorded. -/
def pending (s : LoginSystem) : ℕ := s.calls.countP fun call => call.phase.pending

/-- The calls that got past the lock check in the window from `a` on, of those that were rejected or
    may yet be. -/
def guessesFrom (gap : ℚ) (s : LoginSystem) (a : ℚ) : ℕ :=
  s.calls.countP fun call => (call.phase.pending || call.rejectedAt.isSome) &&
    call.checkedAt.any (inWindow a gap)

/-- The calls whose rejection was counted at a moment that satisfies `p`. -/
def rejections (s : LoginSystem) (p : ℚ → Bool) : ℕ :=
  s.calls.countP fun call => call.rejectedAt.any p

/-- The invariant of a run: the failures counted and the calls that may yet fail are at most `M`,
    and the rejections come in bursts of at most `M`, at least `L` seconds apart, that the throttle
    counts. -/
structure Metered (env : AuthEnv) (email : String) (M L : ℤ) (s : LoginSystem) : Prop where
  settings : s.store.throttle.maxAttempts = M ∧ s.store.throttle.lockoutSeconds = L
  timely : ∀ call ∈ s.calls, call.Timely s.store.now
  room : s.store.throttle.failures env.text (env.text.lower email) s.store.now + s.pending ≤ M
  bursts : ∃ moments k, Bursts (L : ℚ) M moments k ∧
    s.store.throttle.Tracks env.text (env.text.lower email) moments k s.store.now ∧
    (∀ m ∈ moments, m ≤ s.store.now) ∧ ∀ p, s.rejections p = moments.countP p
  checked : ∀ a, (s.guessesFrom L a : ℤ) ≤ M

/-- A call gets past the lock check only while the failures counted and the calls in between leave
    room for it. -/
def HasRoom (env : AuthEnv) (email : String) (s : LoginSystem) : LoginStep → Prop
  | .resume i =>
    let lookup := s.store.throttle.isLocked env.text (env.text.lower email) s.store.now
    (s.calls[i]?.any fun call => call.phase = .checking) = true → lookup.1 = false →
      lookup.2.failures env.text (env.text.lower email) s.store.now + s.pending
        < s.store.throttle.maxAttempts
  | _ => True

instance (env : AuthEnv) (email : String) (s : LoginSystem) : ∀ a, Decidable (s.HasRoom env email a)
  | .resume _ => inferInstanceAs (Decidable (_ → _ → _))
  | .start _ _ _ _ => inferInstanceAs (Decidable True)
  | .advance _ => inferInstanceAs (Decidable True)

/-- No call has succeeded. -/
def NoneAccepted (s : LoginSystem) : Prop := ∀ call ∈ s.calls, call.phase.accepted = false

variable {env : AuthEnv} {email : String} {M L : ℤ} {s : LoginSystem}

/-- The calls checked from `a` on are pending, or were rejected from `a` on. -/
theorem guessesFrom_le (h : ∀ call ∈ s.calls, call.Timely s.store.now) (gap a : ℚ) :
    s.guessesFrom gap a ≤ s.pending + s.rejections fun m => a ≤ m := by
  refine countP_le_add _ fun call hcall hguess => ?_
  simp only [Bool.and_eq_true, Bool.or_eq_true, Option.isSome_iff_exists] at hguess
  rcases hguess with ⟨hpending | ⟨r, hr⟩, hchecked⟩
  · exact .inl hpending
  · obtain ⟨-, t, ht, hle⟩ := (h call hcall).rejected r hr
    rw [ht] at hchecked
    have hat : a ≤ t := (of_decide_eq_true hchecked).1
    exact .inr (by simp [hr, hat.trans hle])

/-- The rejections from `a` on are counted, up to a lockout after. -/
theorem rejections_le {moments : List ℚ} {k : ℤ} {throttle : LoginThrottle} {now a : ℚ}
    {identity : String} (hbursts : Bursts (L : ℚ) M moments k)
    (htracks : throttle.Tracks env.text identity moments k now)
    (hlockout : throttle.lockoutSeconds = L) (hpast : ∀ m ∈ moments, m ≤ now) (ha : now < a + L) :
    (moments.countP (fun m => a ≤ m) : ℤ) ≤ throttle.failures env.text identity now := by
  rcases htracks.failures_cases with hcount | ⟨hzero, hold⟩
  · rw [hcount]
    refine hbursts.countP_le fun m _ hfrom m' hm' => ?_
    have hgap : a + (L : ℚ) ≤ m + L := add_le_add_left (of_decide_eq_true hfrom) _
    exact ((hpast m' hm').trans_lt ha).trans_le hgap
  · have hnone : moments.countP (fun m => a ≤ m) = 0 := by
      rw [List.countP_eq_zero]
      intro m hm
      have hlt : m + (L : ℚ) < a + L := (hlockout ▸ hold m hm).trans_lt ha
      simpa using lt_of_add_lt_add_right hlt
    simp [hnone, hzero]

/-- The counter and the bursts after a rejection. -/
theorem bursts_cons {moments : List ℚ} {k : ℤ} {throttle : LoginThrottle} {now : ℚ}
    {identity : String} (hbursts : Bursts (L : ℚ) M moments k)
    (htracks : throttle.Tracks env.text identity moments k now)
    (hlockout : throttle.lockoutSeconds = L) (hpast : ∀ m ∈ moments, m ≤ now)
    (hroom : throttle.failures env.text identity now + 1 ≤ M) :
    Bursts (L : ℚ) M (now :: moments) (throttle.failures env.text identity now + 1) := by
  rcases htracks.failures_cases with hcount | ⟨hzero, hold⟩
  · rw [hcount] at hroom ⊢
    exact hbursts.extend hroom hpast
  · rw [hzero] at hroom ⊢
    exact hbursts.start (by omega) (hlockout ▸ hold)

/-! ## What a step keeps -/

section Steps

variable {i : ℕ} {call call' : LoginCall} {store' : LoginStore}

theorem timely_set (h : ∀ call ∈ s.calls, call.Timely s.store.now)
    (hcall : call'.Timely s.store.now) (hclock : store'.now = s.store.now) :
    ∀ c ∈ s.calls.set i call', c.Timely store'.now := by
  intro c hc
  rw [hclock]
  rcases List.mem_or_eq_of_mem_set hc with hc | rfl
  · exact h c hc
  · exact hcall

/-- A step that neither admits nor records. -/
theorem Metered.quiet (h : s.Metered env email M L) (hi : s.calls[i]? = some call)
    (hcall : call'.Timely s.store.now) (hclock : store'.now = s.store.now)
    (hthrottle : store'.throttle = s.store.throttle ∨
      store'.throttle = s.store.throttle.lock env.text (env.text.lower email) s.store.now)
    (hpending : call'.phase.pending = true → call.phase.pending = true)
    (hmoments : call'.checkedAt = call.checkedAt ∧ call'.rejectedAt = call.rejectedAt) :
    Metered env email M L ⟨store', s.calls.set i call'⟩ := by
  obtain ⟨moments, k, hbursts, htracks, hpast, hcount⟩ := h.bursts
  have hsettings : store'.throttle.maxAttempts = M ∧ store'.throttle.lockoutSeconds = L := by
    rcases hthrottle with hsame | hlock
    · rw [hsame]
      exact h.settings
    · rw [hlock, LoginThrottle.lock_settings.1, LoginThrottle.lock_settings.2]
      exact h.settings
  have hfailures : store'.throttle.failures env.text (env.text.lower email) store'.now =
      s.store.throttle.failures env.text (env.text.lower email) s.store.now := by
    rw [hclock]
    rcases hthrottle with hsame | hlock
    · rw [hsame]
    · rw [hlock, LoginThrottle.failures_lock]
  have htracks' : store'.throttle.Tracks env.text (env.text.lower email) moments k store'.now := by
    rw [hclock]
    rcases hthrottle with hsame | hlock
    · rwa [hsame]
    · rw [hlock]
      exact htracks.lock
  refine ⟨hsettings, timely_set h.timely hcall hclock, ?_, ⟨moments, k, hbursts, htracks',
    fun m hm => hclock ▸ hpast m hm, fun p => ?_⟩, fun a => ?_⟩
  · have hle : (s.calls.set i call').countP (fun c => c.phase.pending) ≤ s.pending :=
      countP_set_le hi hpending
    have hroom := h.room
    show store'.throttle.failures env.text (env.text.lower email) store'.now +
      ((s.calls.set i call').countP fun c => c.phase.pending : ℕ) ≤ M
    omega
  · have hadd := countP_set_add hi call' fun c => c.rejectedAt.any p
    simp only [hmoments.2] at hadd
    rw [← hcount p]
    exact Nat.add_right_cancel hadd
  · have hle : guessesFrom L ⟨store', s.calls.set i call'⟩ a ≤ s.guessesFrom L a := by
      refine countP_set_le hi fun hguess => ?_
      simp only [hmoments.1, hmoments.2, Bool.and_eq_true, Bool.or_eq_true] at hguess ⊢
      exact ⟨hguess.1.imp_left hpending, hguess.2⟩
    exact (Int.ofNat_le.2 hle).trans (h.checked a)

/-- A call gets past the lock check. -/
theorem Metered.admitted (h : s.Metered env email M L) (hi : s.calls[i]? = some call)
    (hphase : call.phase = .checking)
    (hcall : (call.passCheck s.store.now).Timely s.store.now)
    (hroom : (s.store.throttle.isLocked env.text (env.text.lower email) s.store.now).2.failures
      env.text (env.text.lower email) s.store.now + s.pending < M) :
    Metered env email M L
      ⟨{ s.store with
          throttle := (s.store.throttle.isLocked env.text (env.text.lower email) s.store.now).2 },
        s.calls.set i (call.passCheck s.store.now)⟩ := by
  obtain ⟨moments, k, hbursts, htracks, hpast, hcount⟩ := h.bursts
  have hfresh := (h.timely call (List.mem_of_getElem? hi)).fresh hphase
  have htimely := timely_set (i := i) h.timely hcall rfl
  have hlockout : (s.store.throttle.isLocked env.text (env.text.lower email)
      s.store.now).2.lockoutSeconds = L := LoginThrottle.isLocked_settings.2.trans h.settings.2
  -- One more call is pending, and the rejections are those before.
  have hpending : (s.calls.set i (call.passCheck s.store.now)).countP (fun c => c.phase.pending) =
      s.pending + 1 :=
    countP_set_of_neg hi _ (by simp [hphase, LoginPhase.pending])
  have hrejections : ∀ p, rejections ⟨s.store, s.calls.set i (call.passCheck s.store.now)⟩ p =
      moments.countP p := by
    intro p
    have hset := countP_set_of_neg hi (call.passCheck s.store.now) (p := fun c => c.rejectedAt.any p)
      (by simp [hfresh.2])
    rw [← hcount p]
    simpa [rejections, LoginCall.passCheck, hfresh.2] using hset
  refine ⟨⟨LoginThrottle.isLocked_settings.1.trans h.settings.1, hlockout⟩, htimely, ?_,
    ⟨moments, k, hbursts, htracks.lookup, hpast, hrejections⟩, fun a => ?_⟩
  · show _ + ((List.countP _ _ : ℕ) : ℤ) ≤ M
    rw [hpending]
    push_cast
    omega
  · by_cases hin : inWindow a L s.store.now = true
    · have ha : a ≤ s.store.now ∧ s.store.now < a + L := of_decide_eq_true hin
      have hsplit := guessesFrom_le (s := ⟨s.store, s.calls.set i (call.passCheck s.store.now)⟩)
        htimely L a
      rw [hrejections, show pending ⟨s.store, s.calls.set i (call.passCheck s.store.now)⟩ =
        s.pending + 1 from hpending] at hsplit
      have hcounted := rejections_le hbursts htracks.lookup hlockout hpast ha.2
      show (guessesFrom L ⟨s.store, s.calls.set i (call.passCheck s.store.now)⟩ a : ℤ) ≤ M
      omega
    · have hset : guessesFrom L ⟨s.store, s.calls.set i (call.passCheck s.store.now)⟩ a ≤
          s.guessesFrom L a := by
        refine countP_set_le hi fun hguess => ?_
        simp only [LoginCall.passCheck, Option.any_some, Bool.and_eq_true] at hguess
        exact absurd hguess.2 hin
      exact (Int.ofNat_le.2 hset).trans (h.checked a)

/-- A rejection is counted. -/
theorem Metered.rejected (h : s.Metered env email M L) (hL : 0 < L) (hi : s.calls[i]? = some call)
    (hcall : call'.Timely s.store.now) (hpending : call.phase.pending = true)
    (hpending' : call'.phase.pending = false)
    (hmoments : call'.checkedAt = call.checkedAt ∧ call'.rejectedAt = some s.store.now) :
    Metered env email M L
      ⟨{ s.store with
          throttle :=
            (s.store.throttle.countFailure env.text (env.text.lower email) s.store.now).2 },
        s.calls.set i call'⟩ := by
  obtain ⟨moments, k, hbursts, htracks, hpast, hcount⟩ := h.bursts
  have hnone := ((h.timely call (List.mem_of_getElem? hi)).pending hpending).1
  -- The call is no longer pending, and its rejection is.
  have hp : (s.calls.set i call').countP (fun c => c.phase.pending) + 1 = s.pending := by
    have hadd := countP_set_add hi call' fun c => c.phase.pending
    simpa [hpending, hpending', pending] using hadd
  have hroom := h.room
  have hfailures := htracks.failures_count hpast (h.settings.2 ▸ hL)
  refine ⟨⟨LoginThrottle.maxAttempts_countFailure.trans h.settings.1,
    LoginThrottle.lockoutSeconds_countFailure.trans h.settings.2⟩,
    timely_set h.timely hcall rfl, ?_, ⟨s.store.now :: moments, _,
    bursts_cons hbursts htracks h.settings.2 hpast (by omega), htracks.count hpast, ?_,
    fun p => ?_⟩, fun a => ?_⟩
  · show (s.store.throttle.countFailure env.text (env.text.lower email) s.store.now).2.failures
        env.text (env.text.lower email) s.store.now +
      ((s.calls.set i call').countP fun c => c.phase.pending : ℕ) ≤ M
    rw [hfailures]
    omega
  · intro m hm
    rcases List.mem_cons.1 hm with rfl | hm
    · exact le_rfl
    · exact hpast m hm
  · have hset := countP_set_of_neg hi call' (p := fun c => c.rejectedAt.any p) (by simp [hnone])
    rw [List.countP_cons, ← hcount p]
    simpa [rejections, hmoments.2] using hset
  · have hle : (s.calls.set i call').countP (fun c => (c.phase.pending || c.rejectedAt.isSome) &&
        c.checkedAt.any (inWindow a L)) ≤ s.guessesFrom L a := by
      refine countP_set_le hi fun hguess => ?_
      simp only [hmoments.1, Bool.and_eq_true] at hguess
      simp only [hpending, Bool.true_or, Bool.true_and]
      exact hguess.2
    exact (Int.ofNat_le.2 hle).trans (h.checked a)

/-- What the step of a call keeps. -/
theorem Metered.resume (h : s.Metered env email M L) (hL : 0 < L) (hnone : s.NoneAccepted)
    (hroom : s.HasRoom env email (.resume i)) (hi : s.calls[i]? = some call) :
    (s.step env email (.resume i)).Metered env email M L := by
  have hmem := List.mem_of_getElem? hi
  have hstep := s.store.proceed_guess env email i (hnone call hmem)
  have hcall := (h.timely call hmem).step hstep
  rw [step_resume hi]
  generalize (s.store.proceed env email i call).1 = store' at hstep ⊢
  generalize (s.store.proceed env email i call).2 = call' at hstep hcall ⊢
  cases hstep with
  | quiet hclock hthrottle hpending hmoments _ =>
    exact h.quiet hi hcall hclock hthrottle (fun hyes => hpending.symm.trans hyes) hmoments
  | admitted hphase hunlocked =>
    have hless := hroom (by simp [hi, hphase]) hunlocked
    rw [h.settings.1] at hless
    exact h.admitted hi hphase hcall hless
  | dropped hpending hpending' hmoments _ =>
    exact h.quiet hi hcall rfl (.inl rfl) (fun _ => hpending) hmoments
  | rejected hpending hpending' hmoments _ =>
    exact h.rejected hL hi hcall hpending hpending' hmoments

end Steps

/-- A call starts. -/
theorem Metered.start (h : s.Metered env email M L) (password : String)
    (totpCode ip : Option String) (draws : Draws) :
    (s.step env email (.start password totpCode ip draws)).Metered env email M L := by
  obtain ⟨moments, k, hbursts, htracks, hpast, hcount⟩ := h.bursts
  refine ⟨h.settings, ?_, ?_, ⟨moments, k, hbursts, htracks, hpast, fun p => ?_⟩, fun a => ?_⟩
  · intro c hc
    rcases List.mem_append.1 hc with hc | hc
    · exact h.timely c hc
    · obtain rfl := List.mem_singleton.1 hc
      exact ⟨fun _ => ⟨rfl, rfl⟩, by simp [LoginPhase.pending], by simp⟩
  · simpa [LoginSystem.step, pending, LoginPhase.pending] using h.room
  · simpa [LoginSystem.step, rejections] using hcount p
  · simpa [LoginSystem.step, guessesFrom, LoginPhase.pending] using h.checked a

/-- Time passes. -/
theorem Metered.advance (h : s.Metered env email M L) (moment : ℚ) :
    (s.step env email (.advance moment)).Metered env email M L := by
  obtain ⟨moments, k, hbursts, htracks, hpast, hcount⟩ := h.bursts
  have hclock : s.store.now ≤ max s.store.now moment := le_max_left _ _
  have hdecay := htracks.failures_le hbursts.nonneg hclock
  refine ⟨h.settings, fun c hc => (h.timely c hc).mono hclock, ?_, ⟨moments, k, hbursts,
    htracks.mono hclock, fun m hm => (hpast m hm).trans hclock, hcount⟩, h.checked⟩
  exact (add_le_add hdecay le_rfl).trans h.room

/-- What one step keeps. -/
theorem Metered.step (h : s.Metered env email M L) (hL : 0 < L) (hnone : s.NoneAccepted)
    (a : LoginStep) (hroom : s.HasRoom env email a) :
    (LoginSystem.step env email s a).Metered env email M L := by
  cases a with
  | start password totpCode ip draws => exact h.start password totpCode ip draws
  | resume i =>
    cases hi : s.calls[i]? with
    | none => rwa [step_resume_of_none hi]
    | some call => exact h.resume hL hnone hroom hi
  | advance moment => exact h.advance moment

/-! ## Runs -/

instance (s : LoginSystem) : Decidable s.NoneAccepted :=
  inferInstanceAs (Decidable (∀ call ∈ s.calls, call.phase.accepted = false))

/-- In every half-open window of the length of a lockout, at most `max_attempts` of the calls that
    got past the lock check are rejected; and so it is for the moments at which these calls were
    checked. -/
def WithinQuota (s : LoginSystem) : Prop :=
  ∀ a : ℚ,
    (s.calls.countP (fun call =>
      call.rejectedAt.any (inWindow a s.store.throttle.lockoutSeconds)) : ℤ)
        ≤ s.store.throttle.maxAttempts ∧
    (s.calls.countP (fun call => call.rejectedAt.isSome &&
      call.checkedAt.any (inWindow a s.store.throttle.lockoutSeconds)) : ℤ)
        ≤ s.store.throttle.maxAttempts

theorem Metered.withinQuota (h : s.Metered env email M L) (hM : 1 ≤ M) (hL : 0 < L) :
    s.WithinQuota := by
  obtain ⟨moments, k, hbursts, -, -, hcount⟩ := h.bursts
  intro a
  rw [h.settings.1, h.settings.2]
  constructor
  · have hwindow := hbursts.countP_inWindow_le (by exact_mod_cast hL.le) (by omega) a
    rw [← hcount] at hwindow
    exact hwindow
  · have hle : s.calls.countP (fun call => call.rejectedAt.isSome &&
        call.checkedAt.any (inWindow a L)) ≤ s.guessesFrom L a := by
      refine List.countP_mono_left fun call _ hcall => ?_
      rw [Bool.and_eq_true] at hcall ⊢
      exact ⟨by simp [hcall.1], hcall.2⟩
    exact (Int.ofNat_le.2 hle).trans (h.checked a)

end LoginSystem

/-- The throttle has counted no failure of the identity. -/
def LoginThrottle.Fresh (env : TextEnv) (identity : String) : LoginThrottle → Prop
  | memory throttle => throttle.entries.get? (normalise env identity) = none
  | redis throttle => Dict.get? throttle.redis (RedisLoginThrottle.failKey env identity) = none

theorem LoginThrottle.Fresh.tracks {env : TextEnv} {identity : String} {throttle : LoginThrottle}
    (h : throttle.Fresh env identity) (now : ℚ) :
    throttle.Tracks env identity [] 0 now ∧ throttle.failures env identity now = 0 := by
  cases throttle with
  | memory throttle =>
    have hget : throttle.entries.get? (normalise env identity) = none := h
    simp [Tracks, failures, hget]
  | redis throttle =>
    have hget : Dict.get? throttle.redis (RedisLoginThrottle.failKey env identity) = none := h
    simp [Tracks, failures, RedisKeys.count, RedisKeys.live, hget]

/-- However the calls are interleaved, with either backend: if a call gets past the lock check only
    while the failures counted and the calls in between leave room for it, and none succeeds, the
    rejections stay within the quota. -/
theorem guess_quota (env : AuthEnv) (email : String) (store : LoginStore)
    (hmax : 1 ≤ store.throttle.maxAttempts) (hlockout : 0 < store.throttle.lockoutSeconds)
    (hfresh : store.throttle.Fresh env.text (env.text.lower email)) (steps : List LoginStep)
    (hnone : Always (LoginSystem.step env email) LoginSystem.NoneAccepted ⟨store, []⟩ steps)
    (hroom : Guarded (LoginSystem.step env email) (LoginSystem.HasRoom env email) ⟨store, []⟩
      steps) :
    Always (LoginSystem.step env email) LoginSystem.WithinQuota ⟨store, []⟩ steps := by
  obtain ⟨htracks, hzero⟩ := hfresh.tracks store.now
  have hinit : LoginSystem.Metered env email store.throttle.maxAttempts
      store.throttle.lockoutSeconds ⟨store, []⟩ := by
    refine ⟨⟨rfl, rfl⟩, by simp, ?_, ⟨[], 0, .nil, htracks, by simp, fun _ => rfl⟩, fun a => ?_⟩
    · simp only [hzero, LoginSystem.pending, List.countP_nil]
      omega
    · simp only [LoginSystem.guessesFrom, List.countP_nil]
      omega
  have hmetered := always_of_guarded
    (I := LoginSystem.Metered env email store.throttle.maxAttempts store.throttle.lockoutSeconds)
    (fun s a h hguard => h.step hlockout hguard.1 a hguard.2) steps _ hinit
    (hnone.guarded.and hroom)
  exact hmetered.mono (fun s h => h.withinQuota hmax hlockout) steps _

/-- An email without a user, and a throttle that locks for ten seconds after two failures. -/
def LoginStore.strict : LoginStore := ⟨0, .memory ⟨2, 10, .empty⟩, none, [], none⟩

/-- Three guesses, one after the other. -/
def guessesInTurn : List LoginStep :=
  .start "p1" none none {} :: List.replicate 6 (.resume 0) ++
    .start "p2" none none {} :: List.replicate 6 (.resume 1) ++
    .start "p3" none none {} :: List.replicate 4 (.resume 2)

theorem guesses_in_turn_within_quota :
    Always (LoginSystem.step .sample "a@x.io") LoginSystem.WithinQuota ⟨.strict, []⟩
      guessesInTurn :=
  guess_quota .sample "a@x.io" .strict (by decide) (by decide) rfl guessesInTurn
    (by decide +kernel) (by decide +kernel)

/-- Three guesses, step by step together. -/
def guessesTogether : List LoginStep :=
  .start "p1" none none {} :: .start "p2" none none {} :: .start "p3" none none {} ::
    (List.replicate 6 [.resume 0, .resume 1, .resume 2]).flatten

/-- All three are verified and rejected, though two lock the account. -/
theorem guesses_together_exceed_quota :
    Always (LoginSystem.step .sample "a@x.io") LoginSystem.NoneAccepted ⟨.strict, []⟩
        guessesTogether ∧
      ¬ (guessesTogether.foldl (LoginSystem.step .sample "a@x.io")
        ⟨.strict, []⟩).WithinQuota := by
  refine ⟨by decide +kernel, fun hquota => ?_⟩
  exact absurd (hquota 0).1 (by decide +kernel)

end TradingHub
