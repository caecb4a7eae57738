import TradingHub.Library.Bursts
import TradingHub.Security.Lockouts

set_option autoImplicit false

/-! # What a lockout lets through

Login attempts on any identities against `InMemoryLoginThrottle` of `app/security/throttle.py`. The
counter of an identity is cleared by a success and when an expired lock is looked at, and every
failure from the threshold on sets the lock anew. The failures since the last success come in
bursts of at most `max_attempts`, a lockout apart; the last burst is the streak that the entry
counts. -/

namespace TradingHub

open Library

/-! ## Attempts and their outcomes -/

namespace InMemoryLoginThrottle

variable (env : TextEnv)

/-- The throttle after a list of attempts. -/
def run (throttle : InMemoryLoginThrottle) (attempts : List LoginAttempt) : InMemoryLoginThrottle :=
  attempts.foldl (fun throttle a => (throttle.attempt env a.identity a.success a.moment).2) throttle

/-- The attempts of a list that are not refused, in order: their outcomes are recorded. -/
def recorded (throttle : InMemoryLoginThrottle) : List LoginAttempt → List LoginAttempt
  | [] => []
  | a :: attempts =>
    let (refused, throttle) := throttle.attempt env a.identity a.success a.moment
    if refused then throttle.recorded attempts else a :: throttle.recorded attempts

end InMemoryLoginThrottle

/-- The entries of a log on the identity with the normalised form `key`. -/
def attemptsOn (env : TextEnv) (key : String) (log : List LoginAttempt) : List LoginAttempt :=
  log.filter fun a => normalise env a.identity = key

/-- The moments of the failures since the last success, the last one first. -/
def failuresSinceSuccess (log : List LoginAttempt) : List ℚ :=
  (sinceLast LoginAttempt.success log).map LoginAttempt.moment

/-- The failures of a log in a stretch of time. -/
def failuresIn (w : ℚ → Bool) (log : List LoginAttempt) : ℕ :=
  log.countP fun a => !a.success && w a.moment

/-- In any stretch shorter than a lockout in which there is no success, there are at most
    `maxAttempts` failures. -/
def WithinQuota (maxAttempts lockoutSeconds : ℤ) (log : List LoginAttempt) : Prop :=
  ∀ w, Stretch (lockoutSeconds : ℚ) w → (∀ a ∈ log, a.success = true → w a.moment = false) →
    (failuresIn w log : ℤ) ≤ maxAttempts

theorem failuresSinceSuccess_concat (log : List LoginAttempt) (a : LoginAttempt) :
    failuresSinceSuccess (log ++ [a]) =
      if a.success then [] else a.moment :: failuresSinceSuccess log := by
  unfold failuresSinceSuccess
  rw [sinceLast_concat]
  cases a.success with
  | true => rfl
  | false => rfl

theorem failuresIn_concat (w : ℚ → Bool) (log : List LoginAttempt) (a : LoginAttempt) :
    failuresIn w (log ++ [a]) = failuresIn w log + if !a.success && w a.moment then 1 else 0 := by
  unfold failuresIn
  rw [List.countP_append, List.countP_singleton]

theorem attemptsOn_concat (env : TextEnv) (key : String) (log : List LoginAttempt)
    (a : LoginAttempt) :
    attemptsOn env key (log ++ [a]) =
      attemptsOn env key log ++ if normalise env a.identity = key then [a] else [] := by
  unfold attemptsOn
  rw [List.filter_append, List.filter_singleton]
  by_cases hkey : normalise env a.identity = key
  · simp [hkey]
  · simp [hkey]

/-- Up to a moment in a stretch without a success, the failures in the stretch come after the last
    success. -/
theorem failuresIn_le {gap : ℚ} {w : ℚ → Bool} (hw : Stretch gap w) {last : ℚ}
    (hlast : w last = true) {log : List LoginAttempt}
    (htimes : log.Pairwise fun a b => a.moment ≤ b.moment) (hpast : ∀ a ∈ log, a.moment ≤ last)
    (hsuccess : ∀ a ∈ log, a.success = true → w a.moment = false) :
    failuresIn w log ≤ (failuresSinceSuccess log).countP w := by
  induction log using List.reverseRecOn with
  | nil => exact le_rfl
  | append_singleton log a ih =>
    obtain ⟨htimes', -, hbefore⟩ := List.pairwise_append.1 htimes
    have hle := ih htimes' (fun b hb => hpast b (by simp [hb]))
      fun b hb => hsuccess b (by simp [hb])
    rw [failuresIn_concat, failuresSinceSuccess_concat]
    cases hs : a.success with
    | false =>
      simp only [Bool.not_false, Bool.true_and, Bool.false_eq_true, if_false, List.countP_cons]
      exact Nat.add_le_add_right hle _
    | true =>
      -- What comes before a success outside the stretch is outside it too.
      have hout : w a.moment = false := hsuccess a (by simp) hs
      have hnone : failuresIn w log = 0 := by
        unfold failuresIn
        rw [List.countP_eq_zero]
        intro b hb hin
        simp only [Bool.and_eq_true] at hin
        have hin' := hw.convex (hbefore b hb a (by simp)) (hpast a (by simp)) hin.2 hlast
        exact absurd (hout.symm.trans hin') (by simp)
      simp [hnone]

/-- One more entry of the log, with its failures in bursts. -/
theorem WithinQuota.concat {maxAttempts lockoutSeconds k : ℤ} {log : List LoginAttempt}
    {a : LoginAttempt} (h : WithinQuota maxAttempts lockoutSeconds log) (hmax : 0 ≤ maxAttempts)
    (hlockout : 0 ≤ lockoutSeconds)
    (htimes : (log ++ [a]).Pairwise fun a b => a.moment ≤ b.moment)
    (hbursts : Bursts (lockoutSeconds : ℚ) maxAttempts (failuresSinceSuccess (log ++ [a])) k) :
    WithinQuota maxAttempts lockoutSeconds (log ++ [a]) := by
  intro w hw hsuccess
  cases hin : w a.moment with
  | false =>
    have hold := h w hw fun b hb => hsuccess b (by simp [hb])
    rw [failuresIn_concat, hin]
    simpa using hold
  | true =>
    have hpast : ∀ b ∈ log ++ [a], b.moment ≤ a.moment := by
      intro b hb
      rcases List.mem_append.1 hb with hb | hb
      · exact (List.pairwise_append.1 htimes).2.2 b hb a (by simp)
      · rw [List.mem_singleton.1 hb]
    have hle := failuresIn_le hw hin htimes hpast hsuccess
    have hbound := hbursts.countP_stretch_le (by exact_mod_cast hlockout) hmax hw
    calc (failuresIn w (log ++ [a]) : ℤ)
        ≤ ((failuresSinceSuccess (log ++ [a])).countP w : ℕ) := by exact_mod_cast hle
      _ ≤ maxAttempts := hbound

/-! ## The streak is the last burst -/

/-- A refused attempt leaves the streak as it is. -/
theorem Streak.next_of_lockedAt {maxAttempts lockoutSeconds : ℤ} {streak : Streak} {now : ℚ}
    (h : streak.lockedAt maxAttempts lockoutSeconds now = true) (success : Bool) :
    streak.next maxAttempts lockoutSeconds success now = streak := by
  unfold lockedAt at h
  unfold next
  cases hend : streak.lockEnd maxAttempts lockoutSeconds with
  | none =>
    rw [hend] at h
    exact absurd h (by simp)
  | some lapses =>
    rw [hend] at h
    have hlt : now < lapses := by simpa using h
    simp only [if_pos hlt]

/-- The failures since the last success come in bursts, and the streak that is counted is the last
    of them. -/
structure Counted (maxAttempts lockoutSeconds : ℤ) (log : List LoginAttempt) (streak : Streak)
    (now : ℚ) : Prop where
  bursts : Bursts (lockoutSeconds : ℚ) maxAttempts (failuresSinceSuccess log) streak.length
  streak_prefix : streak <+: failuresSinceSuccess log
  sorted : (failuresSinceSuccess log).Pairwise fun m m' => m' ≤ m
  past : ∀ m ∈ failuresSinceSuccess log, 0 < m ∧ m ≤ now

namespace Counted

variable {maxAttempts lockoutSeconds : ℤ} {log : List LoginAttempt} {streak : Streak} {now : ℚ}

theorem mono (h : Counted maxAttempts lockoutSeconds log streak now) {t : ℚ} (ht : now ≤ t) :
    Counted maxAttempts lockoutSeconds log streak t :=
  ⟨h.bursts, h.streak_prefix, h.sorted, fun m hm => ⟨(h.past m hm).1, (h.past m hm).2.trans ht⟩⟩

/-- A lock is one of a full streak, and ends a lockout after its last failure. -/
theorem lockEnd_cases (h : Counted maxAttempts lockoutSeconds log streak now)
    (hmax : 1 ≤ maxAttempts) (hlockout : 0 < lockoutSeconds) :
    (streak.lockEnd maxAttempts lockoutSeconds = none ∧ (streak.length : ℤ) < maxAttempts) ∨
      ∃ last rest, streak = last :: rest ∧ maxAttempts ≤ streak.length ∧
        streak.lockEnd maxAttempts lockoutSeconds = some (last + lockoutSeconds) := by
  cases streak with
  | nil => exact .inl ⟨rfl, by simpa using (show 0 < maxAttempts by omega)⟩
  | cons last rest =>
    have hpos : 0 < last := (h.past last (h.streak_prefix.subset (by simp))).1
    have hend : last + (lockoutSeconds : ℚ) ≠ 0 := by
      have : (0 : ℚ) < lockoutSeconds := by exact_mod_cast hlockout
      exact (add_pos hpos this).ne'
    by_cases hfull : maxAttempts ≤ rest.length + 1
    · refine .inr ⟨last, rest, rfl, by simpa using hfull, ?_⟩
      rw [Streak.lockEnd, if_pos ⟨hfull, hend⟩]
    · refine .inl ⟨?_, by simpa using not_le.1 hfull⟩
      rw [Streak.lockEnd, if_neg fun hboth => hfull hboth.1]

/-- An attempt that is refused, the log being about its identity. -/
theorem refused (h : Counted maxAttempts lockoutSeconds log streak now) (hmax : 1 ≤ maxAttempts)
    (hlockout : 0 < lockoutSeconds) {t : ℚ}
    (hlocked : streak.lockedAt maxAttempts lockoutSeconds t = true) :
    maxAttempts ≤ (failuresSinceSuccess log).length ∧
      ∃ last, (failuresSinceSuccess log).head? = some last ∧ t - lockoutSeconds < last := by
  rcases h.lockEnd_cases hmax hlockout with ⟨hnone, -⟩ | ⟨last, rest, rfl, hfull, hend⟩
  · rw [Streak.lockedAt, hnone] at hlocked
    exact absurd hlocked (by simp)
  · rw [Streak.lockedAt, hend] at hlocked
    have hlt : t < last + lockoutSeconds := by simpa using hlocked
    obtain ⟨older, hfailures⟩ := h.streak_prefix
    have hlen := h.streak_prefix.length_le
    refine ⟨by omega, last, ?_, by linarith⟩
    rw [← hfailures]
    rfl

/-- An attempt that is not refused is put on the log. -/
theorem concat (h : Counted maxAttempts lockoutSeconds log streak now) (hmax : 1 ≤ maxAttempts)
    (hlockout : 0 < lockoutSeconds) {a : LoginAttempt} (hpos : 0 < a.moment)
    (hnow : now ≤ a.moment)
    (hlocked : streak.lockedAt maxAttempts lockoutSeconds a.moment = false) :
    Counted maxAttempts lockoutSeconds (log ++ [a])
      (streak.next maxAttempts lockoutSeconds a.success a.moment) a.moment := by
  have hpast : ∀ m ∈ failuresSinceSuccess log, 0 < m ∧ m ≤ a.moment :=
    fun m hm => ⟨(h.past m hm).1, (h.past m hm).2.trans hnow⟩
  cases hs : a.success with
  | true =>
    have hnil : failuresSinceSuccess (log ++ [a]) = [] := by
      rw [failuresSinceSuccess_concat, if_pos hs]
    have hnext : streak.next maxAttempts lockoutSeconds true a.moment = [] := by
      rcases h.lockEnd_cases hmax hlockout with ⟨hnone, -⟩ | ⟨last, rest, -, -, hend⟩
      · simp only [Streak.next, hnone, if_true]
      · rw [Streak.lockedAt, hend] at hlocked
        simp only [Option.any_some, decide_eq_false_iff_not] at hlocked
        simp only [Streak.next, hend, if_neg hlocked, if_true]
    rw [hnext]
    refine ⟨?_, ?_, ?_, ?_⟩
    · rw [hnil]
      exact Bursts.nil
    · rw [hnil]
    · rw [hnil]
      exact List.Pairwise.nil
    · rw [hnil]
      simp
  | false =>
    have hcons : failuresSinceSuccess (log ++ [a]) = a.moment :: failuresSinceSuccess log := by
      rw [failuresSinceSuccess_concat, if_neg (by simp [hs])]
    have hpast' : ∀ m ∈ failuresSinceSuccess (log ++ [a]), 0 < m ∧ m ≤ a.moment := by
      rw [hcons]
      intro m hm
      rcases List.mem_cons.1 hm with rfl | hm
      · exact ⟨hpos, le_rfl⟩
      · exact hpast m hm
    have hsorted : (failuresSinceSuccess (log ++ [a])).Pairwise fun m m' => m' ≤ m := by
      rw [hcons]
      exact List.pairwise_cons.2 ⟨fun m hm => (hpast m hm).2, h.sorted⟩
    rcases h.lockEnd_cases hmax hlockout with ⟨hnone, hroom⟩ | ⟨last, rest, hstreak, hfull, hend⟩
    · -- The streak goes on.
      have hnext : streak.next maxAttempts lockoutSeconds false a.moment = a.moment :: streak := by
        simp only [Streak.next, hnone, Bool.false_eq_true, if_false]
      rw [hnext]
      refine ⟨?_, ?_, hsorted, hpast'⟩
      · rw [hcons, List.length_cons]
        push_cast
        exact h.bursts.extend (by omega) fun m hm => (hpast m hm).2
      · rw [hcons]
        exact (List.prefix_cons_inj _).2 h.streak_prefix
    · -- The lock is over, and a new burst begins: every failure was a lockout ago.
      rw [Streak.lockedAt, hend] at hlocked
      simp only [Option.any_some, decide_eq_false_iff_not, not_lt] at hlocked
      have hnext : streak.next maxAttempts lockoutSeconds false a.moment = [a.moment] := by
        simp only [Streak.next, hend, if_neg (not_lt.2 hlocked), Bool.false_eq_true, if_false]
      have hlatest : ∀ m ∈ failuresSinceSuccess log, m ≤ last := by
        obtain ⟨older, hfailures⟩ := h.streak_prefix
        have hsorted' := h.sorted
        rw [← hfailures, hstreak, List.cons_append] at hsorted' ⊢
        intro m hm
        rcases List.mem_cons.1 hm with rfl | hm
        · exact le_rfl
        · exact (List.pairwise_cons.1 hsorted').1 m hm
      rw [hnext]
      refine ⟨?_, ?_, hsorted, hpast'⟩
      · rw [hcons]
        refine h.bursts.start hmax fun m hm => ?_
        exact (add_le_add (hlatest m hm) le_rfl).trans hlocked
      · rw [hcons]
        exact (List.prefix_cons_inj _).2 (List.nil_prefix)

end Counted

/-! ## The throttle meters its log -/

/-- The throttle and the log of the recorded outcomes: each entry counts the streak of its identity,
    whose failures keep the quota. -/
structure Metes (env : TextEnv) (maxAttempts lockoutSeconds : ℤ) (log : List LoginAttempt) (now : ℚ)
    (throttle : InMemoryLoginThrottle) : Prop where
  settings : throttle.maxAttempts = maxAttempts ∧ throttle.lockoutSeconds = lockoutSeconds
  times : log.Pairwise fun a b => a.moment ≤ b.moment
  past : ∀ a ∈ log, a.moment ≤ now
  entries : ∀ key, ∃ streak : Streak,
    throttle.entries.get? key = streak.entry maxAttempts lockoutSeconds ∧
      Counted maxAttempts lockoutSeconds (attemptsOn env key log) streak now
  quota : ∀ key, WithinQuota maxAttempts lockoutSeconds (attemptsOn env key log)

namespace Metes

variable {env : TextEnv} {maxAttempts lockoutSeconds : ℤ} {log : List LoginAttempt} {now : ℚ}
  {throttle : InMemoryLoginThrottle}

theorem new (env : TextEnv) (hmax : 1 ≤ maxAttempts) (now : ℚ) :
    Metes env maxAttempts lockoutSeconds [] now ⟨maxAttempts, lockoutSeconds, .empty⟩ := by
  refine ⟨⟨rfl, rfl⟩, List.Pairwise.nil, by simp, fun key => ⟨[], rfl, ?_⟩, fun key w _ _ => ?_⟩
  · exact ⟨Bursts.nil, List.prefix_refl _, List.Pairwise.nil, by simp [failuresSinceSuccess,
      attemptsOn]⟩
  · have hnone : failuresIn w (attemptsOn env key []) = 0 := rfl
    rw [hnone]
    exact_mod_cast (show 0 ≤ maxAttempts by omega)

/-- An attempt: the answer and the entry of its identity follow its streak. -/
theorem answer (h : Metes env maxAttempts lockoutSeconds log now throttle) (a : LoginAttempt) :
    let key := normalise env a.identity
    let result := throttle.attempt env a.identity a.success a.moment
    ∃ streak : Streak, Counted maxAttempts lockoutSeconds (attemptsOn env key log) streak now ∧
      result.1 = streak.lockedAt maxAttempts lockoutSeconds a.moment ∧
      (∀ key', result.2.entries.get? key' = if key' = key then
        (streak.next maxAttempts lockoutSeconds a.success a.moment).entry maxAttempts lockoutSeconds
        else throttle.entries.get? key') ∧
      result.2.maxAttempts = maxAttempts ∧ result.2.lockoutSeconds = lockoutSeconds := by
  intro key result
  obtain ⟨streak, hentry, hcounted⟩ := h.entries key
  have hstreak : throttle.entries.get? (normalise env a.identity)
      = streak.entry throttle.maxAttempts throttle.lockoutSeconds := by
    rw [h.settings.1, h.settings.2]
    exact hentry
  have hattempt := InMemoryLoginThrottle.attempt_of_entry hstreak a.success a.moment
  rw [h.settings.1, h.settings.2] at hattempt
  obtain ⟨hmax, hlockout⟩ := @InMemoryLoginThrottle.settings_attempt env throttle a.identity
    a.success a.moment
  exact ⟨streak, hcounted, hattempt.1, hattempt.2, hmax.trans h.settings.1,
    hlockout.trans h.settings.2⟩

/-- An attempt that is refused came less than a lockout after the last of enough failures. -/
theorem refused (h : Metes env maxAttempts lockoutSeconds log now throttle)
    (hmax : 1 ≤ maxAttempts) (hlockout : 0 < lockoutSeconds) {a : LoginAttempt}
    (hrefused : (throttle.attempt env a.identity a.success a.moment).1 = true) :
    let failures := failuresSinceSuccess (attemptsOn env (normalise env a.identity) log)
    maxAttempts ≤ failures.length ∧
      ∃ last, failures.head? = some last ∧ a.moment - lockoutSeconds < last := by
  obtain ⟨streak, hcounted, hanswer, -⟩ := h.answer a
  exact hcounted.refused hmax hlockout (hanswer.symm.trans hrefused)

/-- An attempt that is refused leaves everything as it is. -/
theorem attempt_refused (h : Metes env maxAttempts lockoutSeconds log now throttle)
    {a : LoginAttempt} (hnow : now ≤ a.moment)
    (hrefused : (throttle.attempt env a.identity a.success a.moment).1 = true) :
    Metes env maxAttempts lockoutSeconds log a.moment
      (throttle.attempt env a.identity a.success a.moment).2 := by
  obtain ⟨streak, hcounted, hanswer, hentries, hsettings⟩ := h.answer a
  have hnext := Streak.next_of_lockedAt (hanswer.symm.trans hrefused) a.success
  refine ⟨hsettings, h.times, fun b hb => (h.past b hb).trans hnow, fun key => ?_, h.quota⟩
  by_cases hkey : key = normalise env a.identity
  · subst hkey
    refine ⟨streak, ?_, hcounted.mono hnow⟩
    rw [hentries, if_pos rfl, hnext]
  · obtain ⟨streak', hentry', hcounted'⟩ := h.entries key
    refine ⟨streak', ?_, hcounted'.mono hnow⟩
    rw [hentries, if_neg hkey, hentry']

/-- The outcome of an attempt that is not refused is put on the log. -/
theorem attempt_recorded (h : Metes env maxAttempts lockoutSeconds log now throttle)
    (hmax : 1 ≤ maxAttempts) (hlockout : 0 < lockoutSeconds) {a : LoginAttempt}
    (hpos : 0 < a.moment) (hnow : now ≤ a.moment)
    (hrecorded : (throttle.attempt env a.identity a.success a.moment).1 = false) :
    Metes env maxAttempts lockoutSeconds (log ++ [a]) a.moment
      (throttle.attempt env a.identity a.success a.moment).2 := by
  obtain ⟨streak, hcounted, hanswer, hentries, hsettings⟩ := h.answer a
  have hcounted' := hcounted.concat hmax hlockout hpos hnow (hanswer.symm.trans hrecorded)
  have hpast : ∀ b ∈ log, b.moment ≤ a.moment := fun b hb => (h.past b hb).trans hnow
  have htimes : (log ++ [a]).Pairwise fun a b => a.moment ≤ b.moment := by
    refine List.pairwise_append.2 ⟨h.times, List.pairwise_singleton _ _, fun b hb c hc => ?_⟩
    rw [List.mem_singleton.1 hc]
    exact hpast b hb
  have hself : attemptsOn env (normalise env a.identity) (log ++ [a])
      = attemptsOn env (normalise env a.identity) log ++ [a] := by
    rw [attemptsOn_concat, if_pos rfl]
  have hother : ∀ key, key ≠ normalise env a.identity →
      attemptsOn env key (log ++ [a]) = attemptsOn env key log := by
    intro key hkey
    rw [attemptsOn_concat, if_neg (Ne.symm hkey), List.append_nil]
  refine ⟨hsettings, htimes, fun b hb => ?_, fun key => ?_, fun key => ?_⟩
  · rcases List.mem_append.1 hb with hb | hb
    · exact hpast b hb
    · rw [List.mem_singleton.1 hb]
  · by_cases hkey : key = normalise env a.identity
    · subst hkey
      refine ⟨_, ?_, hself ▸ hcounted'⟩
      rw [hentries, if_pos rfl]
    · obtain ⟨streak', hentry', hold⟩ := h.entries key
      refine ⟨streak', ?_, ?_⟩
      · rw [hentries, if_neg hkey, hentry']
      · rw [hother key hkey]
        exact hold.mono hnow
  · by_cases hkey : key = normalise env a.identity
    · subst hkey
      have hsorted : (attemptsOn env (normalise env a.identity) (log ++ [a])).Pairwise
          fun a b => a.moment ≤ b.moment := htimes.filter _
      rw [hself] at hsorted ⊢
      exact (h.quota _).concat (by omega) hlockout.le hsorted hcounted'.bursts
    · rw [hother key hkey]
      exact h.quota key

/-- A list of attempts, by induction on the list. -/
theorem run (hmax : 1 ≤ maxAttempts) (hlockout : 0 < lockoutSeconds) :
    ∀ (attempts log : List LoginAttempt) (now : ℚ) (throttle : InMemoryLoginThrottle),
      Metes env maxAttempts lockoutSeconds log now throttle →
      (attempts.Pairwise fun a b => a.moment ≤ b.moment) →
      (∀ a ∈ attempts, now ≤ a.moment ∧ 0 < a.moment) →
      ∃ now', Metes env maxAttempts lockoutSeconds (log ++ throttle.recorded env attempts) now'
        (throttle.run env attempts) := by
  intro attempts
  induction attempts with
  | nil =>
    intro log now throttle h _ _
    rw [InMemoryLoginThrottle.recorded, List.append_nil]
    exact ⟨now, h⟩
  | cons a attempts ih =>
    intro log now throttle h htimes hmoments
    obtain ⟨hlater, htimes⟩ := List.pairwise_cons.1 htimes
    obtain ⟨hnow, hpos⟩ := hmoments a (by simp)
    have hmoments' : ∀ b ∈ attempts, a.moment ≤ b.moment ∧ 0 < b.moment :=
      fun b hb => ⟨hlater b hb, (hmoments b (by simp [hb])).2⟩
    simp only [InMemoryLoginThrottle.recorded]
    cases hrefused : (throttle.attempt env a.identity a.success a.moment).1 with
    | true => exact ih _ _ _ (h.attempt_refused hnow hrefused) htimes hmoments'
    | false =>
      have hrest := ih _ _ _ (h.attempt_recorded hmax hlockout hpos hnow hrefused) htimes hmoments'
      rw [List.append_assoc] at hrest
      exact hrest

end Metes

/-- For every list of attempts at positive moments that do not decrease: in every half-open window
    of the length of a lockout without a success of an identity, at most `maxAttempts` of its
    failures are recorded; and an attempt is refused only if at least `maxAttempts` failures of its
    identity were recorded after its last success, the latest of them less than a lockout ago. -/
theorem lockout_windows (env : TextEnv) (maxAttempts lockoutSeconds : ℤ) (hmax : 1 ≤ maxAttempts)
    (hlockout : 0 < lockoutSeconds) (attempts : List LoginAttempt)
    (htimes : attempts.Pairwise fun a b => a.moment ≤ b.moment)
    (hpos : ∀ a ∈ attempts, 0 < a.moment) :
    let throttle : InMemoryLoginThrottle := ⟨maxAttempts, lockoutSeconds, .empty⟩
    (∀ key (start : ℚ), ∀ w ∈ [inWindow start (lockoutSeconds : ℚ),
        inWindowAfter start (lockoutSeconds : ℚ)],
      let log := attemptsOn env key (throttle.recorded env attempts)
      (∀ a ∈ log, a.success = true → w a.moment = false) → (failuresIn w log : ℤ) ≤ maxAttempts) ∧
    ∀ before a after, attempts = before ++ a :: after →
      ((throttle.run env before).attempt env a.identity a.success a.moment).1 = true →
      let failures := failuresSinceSuccess
        (attemptsOn env (normalise env a.identity) (throttle.recorded env before))
      maxAttempts ≤ failures.length ∧
        ∃ last, failures.head? = some last ∧ a.moment - lockoutSeconds < last := by
  intro throttle
  have hrun : ∀ attempts : List LoginAttempt,
      (attempts.Pairwise fun a b => a.moment ≤ b.moment) → (∀ a ∈ attempts, 0 < a.moment) →
      ∃ now, Metes env maxAttempts lockoutSeconds (throttle.recorded env attempts) now
        (throttle.run env attempts) := by
    intro attempts htimes hpos
    have hrest := Metes.run hmax hlockout attempts [] 0 throttle (Metes.new env hmax 0) htimes
      fun a ha => ⟨(hpos a ha).le, hpos a ha⟩
    rwa [List.nil_append] at hrest
  constructor
  · intro key start w hw log hsuccess
    obtain ⟨now, hmetes⟩ := hrun attempts htimes hpos
    have hstretch : Stretch (lockoutSeconds : ℚ) w := by
      simp only [List.mem_cons, List.not_mem_nil, or_false] at hw
      rcases hw with rfl | rfl
      · exact stretch_inWindow start _
      · exact stretch_inWindowAfter start _
    exact hmetes.quota key w hstretch hsuccess
  · intro before a after hsplit hrefused
    rw [hsplit] at htimes hpos
    obtain ⟨now, hmetes⟩ := hrun before (List.pairwise_append.1 htimes).1
      fun b hb => hpos b (by simp [hb])
    exact hmetes.refused hmax hlockout hrefused

/-- Two failures, a refused attempt, a failure after the lock, a success, and two failures. -/
def burstsOfAttempts : List LoginAttempt :=
  [⟨"a@x.io", 1, false⟩, ⟨" A@x.io", 4, false⟩, ⟨"a@x.io", 13, true⟩, ⟨"a@x.io", 14, false⟩,
    ⟨"a@x.io", 15, true⟩, ⟨"a@x.io", 16, false⟩, ⟨"b@x.io", 16, false⟩]

theorem bursts_of_attempts_windows :
    let throttle : InMemoryLoginThrottle := ⟨2, 10, .empty⟩
    (throttle.recorded .sample burstsOfAttempts).length = 6 ∧
      (failuresIn (inWindow 1 10) (attemptsOn .sample "a@x.io"
        (throttle.recorded .sample burstsOfAttempts)) : ℤ) ≤ 2 := by
  intro throttle
  have hwindows := lockout_windows .sample 2 10 (by decide) (by decide) burstsOfAttempts
    (by decide +kernel) (by decide +kernel)
  refine ⟨by decide +kernel, hwindows.1 "a@x.io" 1 (inWindow 1 10) ?_ (by decide +kernel)⟩
  exact List.mem_cons_self

end TradingHub
