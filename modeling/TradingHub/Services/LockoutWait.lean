import Mathlib.Data.List.Induction
import TradingHub.Services.Auth

set_option autoImplicit false

/-! # The wait that a lockout reports

`authenticate` of `app/services/auth_service.py` refuses a locked identity with the `retry_after` of
`InMemoryLoginThrottle`: the seconds left on the lock, cut to a whole number. The lock itself is
compared with the clock as it is. So the wait that is reported is long enough exactly if a whole
number of seconds has passed since the failure that set the lock; in the last second of a lock it is
always reported as zero. -/

namespace TradingHub

open Library

/-! ## Calls of the throttle -/

inductive ThrottleCall
  | isLocked (identity : String) (now : ℚ)
  | recordFailure (identity : String) (now : ℚ)
  | recordSuccess (identity : String)
deriving DecidableEq, Repr

/-- The moment of the failure, if the call records one of the identity with the normalised form
    `key`. -/
def ThrottleCall.failureOf (env : TextEnv) (key : String) : ThrottleCall → Option ℚ
  | recordFailure identity now => if normalise env identity = key then some now else none
  | _ => none

namespace InMemoryLoginThrottle

variable (env : TextEnv)

/-- The throttle after a call. -/
def after (throttle : InMemoryLoginThrottle) : ThrottleCall → InMemoryLoginThrottle
  | .isLocked identity now => (throttle.isLocked env identity now).2
  | .recordFailure identity now => throttle.recordFailure env identity now
  | .recordSuccess identity => throttle.recordSuccess env identity

/-- The throttle after a list of calls. -/
def afterCalls (throttle : InMemoryLoginThrottle) (calls : List ThrottleCall) :
    InMemoryLoginThrottle :=
  calls.foldl (fun throttle call => throttle.after env call) throttle

end InMemoryLoginThrottle

/-- The last failure of an identity among the calls. -/
def lastFailureOf (env : TextEnv) (key : String) (calls : List ThrottleCall) : Option ℚ :=
  calls.reverse.findSome? fun call => call.failureOf env key

theorem lastFailureOf_concat (env : TextEnv) (key : String) (calls : List ThrottleCall)
    (call : ThrottleCall) :
    lastFailureOf env key (calls ++ [call]) =
      (call.failureOf env key).or (lastFailureOf env key calls) := by
  unfold lastFailureOf
  rw [List.reverse_append, List.reverse_singleton, List.singleton_append, List.findSome?_cons]
  cases call.failureOf env key with
  | none => rfl
  | some moment => rfl

/-! ## What a call does to an entry -/

namespace InMemoryLoginThrottle

variable {env : TextEnv} {throttle : InMemoryLoginThrottle} {key : String}

theorem settings_after (call : ThrottleCall) :
    (throttle.after env call).maxAttempts = throttle.maxAttempts ∧
      (throttle.after env call).lockoutSeconds = throttle.lockoutSeconds := by
  cases call with
  | isLocked identity now =>
    simp only [after, isLocked]
    split
    · exact ⟨rfl, rfl⟩
    · split
      · exact ⟨rfl, rfl⟩
      · split
        · exact ⟨rfl, rfl⟩
        · exact ⟨rfl, rfl⟩
  | recordFailure identity now => exact ⟨rfl, rfl⟩
  | recordSuccess identity => exact ⟨rfl, rfl⟩

/-- A call that records no failure of an identity keeps its entry or deletes it. -/
theorem get?_after {call : ThrottleCall} (h : call.failureOf env key = none) :
    (throttle.after env call).entries.get? key = throttle.entries.get? key ∨
      (throttle.after env call).entries.get? key = none := by
  have herase : ∀ key', (throttle.entries.erase key').get? key = throttle.entries.get? key ∨
      (throttle.entries.erase key').get? key = none := by
    intro key'
    rw [Dict.get?_erase]
    split
    · exact .inr rfl
    · exact .inl rfl
  cases call with
  | isLocked identity now =>
    simp only [after, isLocked]
    split
    · exact .inl rfl
    · split
      · exact .inl rfl
      · split
        · exact .inl rfl
        · exact herase _
  | recordFailure identity now =>
    have hkey : key ≠ normalise env identity := by
      rintro rfl
      simp [ThrottleCall.failureOf] at h
    exact .inl (Dict.get?_set_of_ne _ _ hkey)
  | recordSuccess identity => exact herase _

theorem afterCalls_concat (throttle : InMemoryLoginThrottle) (calls : List ThrottleCall)
    (call : ThrottleCall) :
    throttle.afterCalls env (calls ++ [call]) = (throttle.afterCalls env calls).after env call :=
  List.foldl_concat ..

theorem get?_afterCalls (calls : List ThrottleCall)
    (h : ∀ call ∈ calls, call.failureOf env key = none) :
    (throttle.afterCalls env calls).entries.get? key = throttle.entries.get? key ∨
      (throttle.afterCalls env calls).entries.get? key = none := by
  induction calls using List.reverseRecOn with
  | nil => exact .inl rfl
  | append_singleton calls call ih =>
    have hbefore := ih fun c hc => h c (by simp [hc])
    have hcall := @get?_after env (throttle.afterCalls env calls) key call (h call (by simp))
    rw [afterCalls_concat]
    rcases hcall with heq | hnone
    · rw [heq]
      exact hbefore
    · exact .inr hnone

/-- An entry with a lock has reached the threshold, and its lock ends a lockout after the last
    failure. -/
def Stamped (env : TextEnv) (calls : List ThrottleCall) (throttle : InMemoryLoginThrottle) : Prop :=
  ∀ key entry, throttle.entries.get? key = some entry → entry.lockedUntil ≠ 0 →
    throttle.maxAttempts ≤ entry.failures ∧
      ∃ last, lastFailureOf env key calls = some last ∧
        entry.lockedUntil = last + throttle.lockoutSeconds

/-- A failure from the threshold on sets the lock anew. -/
theorem Stamped.after {calls : List ThrottleCall} (h : Stamped env calls throttle)
    (call : ThrottleCall) : Stamped env (calls ++ [call]) (throttle.after env call) := by
  intro key entry hentry hlocked
  rw [(settings_after call).1, (settings_after call).2, lastFailureOf_concat]
  cases hfailure : call.failureOf env key with
  | none =>
    rw [Option.none_or]
    rcases @get?_after env throttle key call hfailure with heq | hnone
    · exact h key entry (heq.symm.trans hentry) hlocked
    · exact absurd (hentry.symm.trans hnone) (by simp)
  | some moment =>
    cases call with
    | isLocked identity now => exact absurd hfailure (by simp [ThrottleCall.failureOf])
    | recordSuccess identity => exact absurd hfailure (by simp [ThrottleCall.failureOf])
    | recordFailure identity now =>
      simp only [ThrottleCall.failureOf] at hfailure
      split at hfailure
      · next hkey =>
        obtain rfl := Option.some.inj hfailure
        subst hkey
        simp only [InMemoryLoginThrottle.after, recordFailure, Dict.get?_set_self,
          Option.some.injEq] at hentry
        subst hentry
        by_cases hfull : throttle.maxAttempts
            ≤ ((throttle.entries.get? (normalise env identity)).getD {}).failures + 1
        · exact ⟨hfull, now, rfl, by simp only [if_pos hfull]⟩
        · -- Below the threshold there was no lock before either.
          simp only [if_neg hfull] at hlocked
          cases hold : throttle.entries.get? (normalise env identity) with
          | none =>
            rw [hold] at hlocked
            exact absurd rfl hlocked
          | some old =>
            rw [hold] at hlocked hfull
            have hfull' := (h _ old hold hlocked).1
            simp only [Option.getD_some] at hfull
            omega
      · exact absurd hfailure (by simp)

theorem stamped_afterCalls (env : TextEnv) (maxAttempts lockoutSeconds : ℤ)
    (calls : List ThrottleCall) :
    Stamped env calls (afterCalls env ⟨maxAttempts, lockoutSeconds, .empty⟩ calls) := by
  induction calls using List.reverseRecOn with
  | nil =>
    intro key entry hentry
    exact absurd hentry (by simp [afterCalls])
  | append_singleton calls call ih =>
    rw [afterCalls_concat]
    exact ih.after call

theorem lockoutSeconds_afterCalls (calls : List ThrottleCall) :
    (throttle.afterCalls env calls).lockoutSeconds = throttle.lockoutSeconds :=
  run_keeps (I := fun t : InMemoryLoginThrottle => t.lockoutSeconds = throttle.lockoutSeconds)
    (fun _ call h => (settings_after call).2.trans h) calls throttle rfl

/-! ## The wait -/

/-- The wait is positive, and an identity that waits that long from `now` on, with none of its
    failures recorded, is not locked. -/
def WaitSuffices (env : TextEnv) (throttle : InMemoryLoginThrottle) (identity : String) (now : ℚ)
    (wait : ℤ) : Prop :=
  0 < wait ∧ ∀ later t, (∀ call ∈ later, call.failureOf env (normalise env identity) = none) →
    now + wait ≤ t → ((throttle.afterCalls env later).isLocked env identity t).1 = false

/-- A lock that is on, and the seconds left on it. -/
theorem isLocked_eq_true {identity : String} {now : ℚ}
    (h : (throttle.isLocked env identity now).1 = true) :
    (throttle.isLocked env identity now).2 = throttle ∧
      ∃ entry, throttle.entries.get? (normalise env identity) = some entry ∧
        entry.lockedUntil ≠ 0 ∧ now < entry.lockedUntil ∧
        throttle.retryAfter env identity now = ⌊entry.lockedUntil - now⌋ := by
  simp only [isLocked] at h ⊢
  split at h
  · exact absurd h (by simp)
  · next entry hentry =>
    split at h
    · exact absurd h (by simp)
    · next hzero =>
      split at h
      · next hlt =>
        have hleft : ¬ entry.lockedUntil - now < 0 := by linarith
        refine ⟨by simp only [if_neg hzero, if_pos hlt], entry, hentry, hzero, hlt, ?_⟩
        simp only [retryAfter, hentry, if_neg hzero, if_neg hleft]
        exact max_eq_right (Int.floor_nonneg.2 (not_lt.1 hleft))
      · exact absurd h (by simp)

/-- The seconds reported cover what is left exactly if that is a whole number. -/
theorem waitSuffices_iff {identity : String} {now : ℚ}
    (h : (throttle.isLocked env identity now).1 = true) :
    throttle.WaitSuffices env identity now (throttle.retryAfter env identity now) ↔
      ∃ entry, throttle.entries.get? (normalise env identity) = some entry ∧
        Int.fract (entry.lockedUntil - now) = 0 := by
  obtain ⟨-, entry, hentry, hzero, hlt, hwait⟩ := isLocked_eq_true h
  have hfract := Int.self_sub_floor (entry.lockedUntil - now)
  rw [hwait]
  constructor
  · rintro ⟨-, hfree⟩
    refine ⟨entry, hentry, ?_⟩
    have hopen := hfree [] _ (by simp) le_rfl
    simp only [afterCalls, List.foldl_nil, isLocked, hentry, if_neg hzero] at hopen
    split at hopen
    · exact absurd hopen (by simp)
    · next hover =>
      have hnonneg := Int.fract_nonneg (entry.lockedUntil - now)
      linarith
  · rintro ⟨entry', hentry', hwhole⟩
    obtain rfl := Option.some.inj (hentry.symm.trans hentry')
    rw [hwhole] at hfract
    constructor
    · have hpos : (0 : ℚ) < ⌊entry.lockedUntil - now⌋ := by linarith
      exact_mod_cast hpos
    · intro later t hquiet ht
      rcases @get?_afterCalls env throttle _ later hquiet with heq | hnone
      · have hover : ¬ t < entry.lockedUntil := by linarith
        simp only [isLocked, heq, hentry, if_neg hzero, if_neg hover]
      · simp only [isLocked, hnone]

end InMemoryLoginThrottle

/-! ## The refusal -/

namespace AuthService

/-- Only the lock check raises `AccountLockedError`. -/
theorem checkCredentials_ne_accountLocked (env : AuthEnv) (found : Option (String × UserRecord))
    (password : String) (totpCode : Option String) (now : ℚ) (wait : ℤ) :
    (∀ action userId, checkCredentials env found password totpCode now
      ≠ .rejected (.accountLocked wait) action userId) ∧
      checkCredentials env found password totpCode now ≠ .raised (.accountLocked wait) := by
  have hconsume : ∀ (user : UserRecord) (code : String),
      consumeTotp env user code now ≠ .error (.accountLocked wait) := by
    intro user code
    unfold consumeTotp
    split
    · simp
    · split
      · simp
      · simp [authenticationError]
      · split
        · simp [authenticationError]
        · simp
  cases found with
  | none => simp [checkCredentials, authenticationError]
  | some found =>
    obtain ⟨id, user⟩ := found
    have hcode := hconsume user (totpCode.getD "")
    simp only [checkCredentials]
    split
    · simp [authenticationError]
    · split
      · simp [authenticationError]
      · split
        · split
          · simp
          · split
            · simp
            · next failure hfailure =>
              have hne : failure ≠ .accountLocked wait := by
                rintro rfl
                exact hcode hfailure
              split
              · simp [hne]
              · simp [hne]
        · simp

attribute [local simp] authenticate logIn recordAudit commitSecurityEvent AuthServer.setUser
  AuthServer.setThrottle bind Act.bind pure Act.pure Act.read Act.modify Act.raise

/-- A login that is refused by a lock: the identity is locked, and the wait is that of the
    throttle. -/
theorem authenticate_accountLocked {env : AuthEnv} {draws : Draws} {email password : String}
    {totpCode ip : Option String} {s : AuthServer} {wait : ℤ}
    (h : (authenticate env draws email password totpCode ip s).1
      = .error (.accountLocked wait)) :
    let lookup := s.throttle.isLocked env.text (env.text.lower email) s.now
    lookup.1 = true ∧ lookup.2.retryAfter env.text (env.text.lower email) s.now = wait ∧
      (authenticate env draws email password totpCode ip s).2.throttle = lookup.2 := by
  intro lookup
  cases hlocked : (s.throttle.isLocked env.text (env.text.lower email) s.now).1 with
  | true =>
    have hwait : (s.throttle.isLocked env.text (env.text.lower email) s.now).2.retryAfter env.text
        (env.text.lower email) s.now = wait := by simpa [hlocked] using h
    exact ⟨rfl, hwait, by simp [hlocked, lookup]⟩
  | false =>
    have hcheck := checkCredentials_ne_accountLocked env
      (s.findByEmail (env.text.lower (env.text.lower email))) password totpCode s.now wait
    cases hcredentials : checkCredentials env
        (s.findByEmail (env.text.lower (env.text.lower email))) password totpCode s.now with
    | rejected failure action userId =>
      have hfailure : failure = .accountLocked wait := by simpa [hlocked, hcredentials] using h
      exact absurd (hfailure ▸ hcredentials) (hcheck.1 action userId)
    | raised failure =>
      have hfailure : failure = .accountLocked wait := by simpa [hlocked, hcredentials] using h
      exact absurd (hfailure ▸ hcredentials) hcheck.2
    | accepted id user => exact absurd h (by simp [hlocked, hcredentials])

end AuthService

open InMemoryLoginThrottle in
/-- After any calls of the in-memory throttle, a login is refused and told to wait. The refusal
    leaves the throttle as it is, and the wait is positive and long enough, with no more failures of
    the identity recorded, exactly if the login comes a whole number of seconds after the last
    failure of the identity. -/
theorem lockout_wait_suffices_iff (env : AuthEnv) (maxAttempts lockoutSeconds : ℤ)
    (calls : List ThrottleCall) (draws : Draws) (email password : String)
    (totpCode ip : Option String) (s : AuthServer) (wait : ℤ)
    (hthrottle : s.throttle
      = .memory (afterCalls env.text ⟨maxAttempts, lockoutSeconds, .empty⟩ calls))
    (hrefused : (AuthService.authenticate env draws email password totpCode ip s).1
      = .error (.accountLocked wait)) :
    (AuthService.authenticate env draws email password totpCode ip s).2.throttle = s.throttle ∧
      ((afterCalls env.text ⟨maxAttempts, lockoutSeconds, .empty⟩ calls).WaitSuffices env.text
          (env.text.lower email) s.now wait ↔
        ∃ last, lastFailureOf env.text (normalise env.text (env.text.lower email)) calls = some last ∧
          Int.fract (s.now - last) = 0) := by
  obtain ⟨hlocked, hwait, hafter⟩ := AuthService.authenticate_accountLocked hrefused
  have hstamped := stamped_afterCalls env.text maxAttempts lockoutSeconds calls
  have hseconds := @lockoutSeconds_afterCalls env.text ⟨maxAttempts, lockoutSeconds, .empty⟩ calls
  rw [hthrottle] at hlocked hwait hafter ⊢
  generalize afterCalls env.text ⟨maxAttempts, lockoutSeconds, .empty⟩ calls = throttle
    at hlocked hwait hafter hstamped hseconds ⊢
  obtain ⟨hsame, entry, hentry, hzero, -, -⟩ := isLocked_eq_true hlocked
  have hwait' : throttle.retryAfter env.text (env.text.lower email) s.now = wait := by
    rw [← hwait, LoginThrottle.isLocked, hsame, LoginThrottle.retryAfter]
  refine ⟨hafter.trans (by rw [LoginThrottle.isLocked, hsame]), ?_⟩
  rw [← hwait', waitSuffices_iff hlocked]
  obtain ⟨-, last, hlast, hlapses⟩ := hstamped _ entry hentry hzero
  -- A lockout is a whole number of seconds, so what is left and what is past of it go together.
  have hwhole : Int.fract (entry.lockedUntil - s.now) = 0 ↔ Int.fract (s.now - last) = 0 := by
    rw [Int.fract_eq_zero_iff, Int.fract_eq_zero_iff, hlapses]
    constructor
    · rintro ⟨left, hleft⟩
      exact ⟨throttle.lockoutSeconds - left, by push_cast; linarith⟩
    · rintro ⟨past, hpast⟩
      exact ⟨throttle.lockoutSeconds - past, by push_cast; linarith⟩
  constructor
  · rintro ⟨entry', hentry', hfract⟩
    obtain rfl := Option.some.inj (hentry.symm.trans hentry')
    exact ⟨last, hlast, hwhole.1 hfract⟩
  · rintro ⟨last', hlast', hfract⟩
    obtain rfl := Option.some.inj (hlast.symm.trans hlast')
    exact ⟨entry, hentry, hwhole.2 hfract⟩

/-- One failure, with a quota of one and a lockout of ten seconds. -/
def oneFailure : List ThrottleCall := [.recordFailure "a@x.io" 1]

/-- A login on the locked identity at a moment. -/
def AuthServer.lockedAt (moment : ℚ) : AuthServer :=
  { AuthServer.sample with
    now := moment
    throttle := .memory (InMemoryLoginThrottle.afterCalls AuthEnv.sample.text ⟨1, 10, .empty⟩
      oneFailure) }

/-- Four seconds after the failure the login is told to wait for six, and that is enough. -/
theorem whole_second_wait_suffices :
    (InMemoryLoginThrottle.afterCalls AuthEnv.sample.text ⟨1, 10, .empty⟩
      oneFailure).WaitSuffices AuthEnv.sample.text
      (AuthEnv.sample.text.lower "a@x.io") (AuthServer.lockedAt 5).now 6 :=
  (lockout_wait_suffices_iff .sample 1 10 oneFailure {} "a@x.io" "pw" none none
    (AuthServer.lockedAt 5) 6 rfl (by decide +kernel)).2.2
    ⟨1, by decide +kernel, by decide +kernel⟩

/-- Half a second before the end of the lock the login is told to wait for no time at all, and it is
    still locked then. -/
theorem last_second_wait_zero :
    (AuthService.authenticate .sample {} "a@x.io" "pw" none none (AuthServer.lockedAt (21 / 2))).1
        = .error (.accountLocked 0) ∧
      ¬ (InMemoryLoginThrottle.afterCalls AuthEnv.sample.text ⟨1, 10, .empty⟩
        oneFailure).WaitSuffices AuthEnv.sample.text
        (AuthEnv.sample.text.lower "a@x.io") (21 / 2) 0 :=
  ⟨by decide +kernel, fun h => absurd h.1 (by decide)⟩

end TradingHub
