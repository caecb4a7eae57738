import TradingHub.Core.CircuitCalls

set_option autoImplicit false

/-! # Calls through a circuit breaker, one after the other

`CircuitBreaker.call` of `app/core/resilience.py` where each call ends before the next one begins.
The breaker keeps a state, a counter, a flag and a moment; which calls it admits is told by the
calls it has let through: how many of them failed since the last success, and when the last one
failed. -/

namespace TradingHub

open Library

/-! ## One call -/

/-- A call that is over before the next one begins: the readings of the clock when it asks to be
    admitted and, if it is, when its outcome is recorded. It returns or raises an `Exception`. -/
structure SequentialCall where
  start : ℚ
  finish : ℚ
  returns : Bool
deriving DecidableEq, Repr

def SequentialCall.outcome (c : SequentialCall) : CallOutcome :=
  if c.returns then .returned else .raised

namespace CircuitBreaker

/-- `call`: whether it is admitted, and the breaker when it is over. -/
def call (b : CircuitBreaker) (c : SequentialCall) : Bool × CircuitBreaker :=
  match b.canAttempt c.start with
  | (true, b) => (true, b.settle c.finish c.outcome)
  | (false, b) => (false, b)

/-- The breaker after a list of calls. -/
def run (b : CircuitBreaker) (history : List SequentialCall) : CircuitBreaker :=
  history.foldl (fun b c => (b.call c).2) b

/-- The calls of a list that are admitted, in order. -/
def admitted (b : CircuitBreaker) : List SequentialCall → List SequentialCall
  | [] => []
  | c :: history =>
    let (admits, b) := b.call c
    if admits then c :: b.admitted history else b.admitted history

end CircuitBreaker

/-- The steps of a call with no other call in flight. -/
def SequentialCall.steps (i : ℕ) (c : SequentialCall) : List BreakerStep :=
  [.advance c.start, .start i, .advance c.finish, .finish i c.outcome]

/-- Among the calls of any run, one that meets no other in flight does to the breaker what `call`
    says. -/
theorem BreakerState.breaker_sequential {s : BreakerState} {i : ℕ} {c : SequentialCall}
    (hi : s.calls.get? i = none) (hstart : s.now ≤ c.start) (hfinish : c.start ≤ c.finish) :
    ((c.steps i).foldl BreakerState.step s).breaker = (s.breaker.call c).2 := by
  have hnow : max s.now c.start = c.start := max_eq_right hstart
  have hlater : max c.start c.finish = c.finish := max_eq_right hfinish
  simp only [SequentialCall.steps, List.foldl_cons, List.foldl_nil, CircuitBreaker.call]
  rw [show s.step (.advance c.start) = { s with now := c.start } by simp only [step, hnow]]
  rcases hcan : s.breaker.canAttempt c.start with ⟨admits, breaker⟩
  cases admits with
  | true => simp [step, hi, hcan, hlater]
  | false => simp [step, hi, hcan]

/-! ## What the admitted calls tell -/

/-- The calls that failed since the last success, the last one first. -/
def failedSinceSuccess (log : List SequentialCall) : List SequentialCall :=
  sinceLast SequentialCall.returns log

/-- The most recent call that failed. -/
def lastFailure (log : List SequentialCall) : Option SequentialCall :=
  log.reverse.find? fun c => !c.returns

theorem lastFailure_concat (log : List SequentialCall) (c : SequentialCall) :
    lastFailure (log ++ [c]) = if c.returns then lastFailure log else some c := by
  unfold lastFailure
  rw [List.reverse_append, List.reverse_singleton, List.singleton_append, List.find?_cons]
  cases c.returns with
  | true => rfl
  | false => rfl

/-! ## The breaker follows its log -/

namespace CircuitBreaker

/-- Between two calls: the counter holds the failures since the last success, the circuit is open
    exactly if they reach the threshold, and it was opened when the last of them ended. -/
structure Follows (failureThreshold : ℤ) (recoveryTimeout : ℚ) (log : List SequentialCall)
    (b : CircuitBreaker) : Prop where
  threshold : b.failureThreshold = failureThreshold
  timeout : b.recoveryTimeout = recoveryTimeout
  failures : b.failures = (failedSinceSuccess log).length
  state : b.state = if failureThreshold ≤ (failedSinceSuccess log).length then .open else .closed
  openedAt : b.state = .open → ∃ last, lastFailure log = some last ∧ b.openedAt = last.finish

namespace Follows

variable {failureThreshold : ℤ} {recoveryTimeout : ℚ} {log : List SequentialCall}
  {b : CircuitBreaker}

theorem new (hthreshold : 1 ≤ failureThreshold) :
    Follows failureThreshold recoveryTimeout [] { failureThreshold, recoveryTimeout } := by
  have hroom : ¬ failureThreshold ≤ 0 := by omega
  exact ⟨rfl, rfl, rfl, by simp [failedSinceSuccess, hroom], fun hopen => absurd hopen (by simp)⟩

/-- The circuit is closed, or open since the last failure. -/
theorem cases (h : Follows failureThreshold recoveryTimeout log b) :
    (((failedSinceSuccess log).length : ℤ) < failureThreshold ∧ b.state = .closed) ∨
      (failureThreshold ≤ (failedSinceSuccess log).length ∧ b.state = .open ∧
        ∃ last, lastFailure log = some last ∧ b.openedAt = last.finish) := by
  have hstate := h.state
  split at hstate
  · next hfull => exact .inr ⟨hfull, hstate, h.openedAt hstate⟩
  · next hroom => exact .inl ⟨not_le.1 hroom, hstate⟩

theorem canAttempt_iff (h : Follows failureThreshold recoveryTimeout log b) (now : ℚ) :
    (b.canAttempt now).1 = true ↔ ((failedSinceSuccess log).length : ℤ) < failureThreshold ∨
      ∃ last, lastFailure log = some last ∧ recoveryTimeout ≤ now - last.finish := by
  rcases h.cases with ⟨hroom, hclosed⟩ | ⟨hfull, hopen, last, hlast, hat⟩
  · simp [canAttempt, hclosed, hroom]
  · simp only [canAttempt, hopen, not_lt.2 hfull, false_or, hlast, Option.some.injEq,
      exists_eq_left', h.timeout, hat]
    split
    · next htime => simp [htime]
    · next hearly => simp [hearly]

/-- A success closes the circuit, whatever state it was in. -/
theorem success (hthreshold : 1 ≤ failureThreshold) {c : SequentialCall} (hc : c.returns = true)
    (h : b.failureThreshold = failureThreshold ∧ b.recoveryTimeout = recoveryTimeout) :
    Follows failureThreshold recoveryTimeout (log ++ [c]) b.recordSuccess := by
  have hroom : ¬ failureThreshold ≤ 0 := by omega
  have hnone : failedSinceSuccess (log ++ [c]) = [] := by
    rw [failedSinceSuccess, sinceLast_concat, if_pos hc]
  exact ⟨h.1, h.2, by rw [hnone]; rfl, by simp [hnone, hroom, recordSuccess],
    fun hopen => absurd hopen (by simp [recordSuccess])⟩

/-- A failure opens the circuit if it was probing or the counter reaches the threshold. While the
    circuit probes the counter is at the threshold already, since opening does not reset it. -/
theorem failure {c : SequentialCall} (hc : c.returns = false)
    (h : b.failureThreshold = failureThreshold ∧ b.recoveryTimeout = recoveryTimeout)
    (hcount : b.failures = (failedSinceSuccess log).length)
    (hstate : b.state = .closed ∨
      b.state = .halfOpen ∧ failureThreshold ≤ (failedSinceSuccess log).length) :
    Follows failureThreshold recoveryTimeout (log ++ [c]) (b.recordFailure c.finish) := by
  have hcons : failedSinceSuccess (log ++ [c]) = c :: failedSinceSuccess log := by
    unfold failedSinceSuccess
    rw [sinceLast_concat, if_neg (by simp [hc])]
  have hlast : lastFailure (log ++ [c]) = some c := by
    rw [lastFailure_concat, if_neg (by simp [hc])]
  have hopens : (b.state = .halfOpen ∨ b.failureThreshold ≤ b.failures + 1) ↔
      failureThreshold ≤ (failedSinceSuccess log).length + 1 := by
    rw [h.1, hcount]
    constructor
    · rintro (hhalf | hfull)
      · rcases hstate with hclosed | ⟨-, hfull⟩
        · exact absurd (hclosed.symm.trans hhalf) (by simp)
        · omega
      · exact hfull
    · exact .inr
  unfold recordFailure
  simp only [hopens]
  by_cases hfull : failureThreshold ≤ (failedSinceSuccess log).length + 1
  · rw [if_pos hfull]
    exact ⟨h.1, h.2, by simp [hcons, hcount], by simp [hcons, hfull], fun _ => ⟨c, hlast, rfl⟩⟩
  · rw [if_neg hfull]
    have hclosed : b.state = .closed := by
      rcases hstate with hclosed | ⟨-, hlong⟩
      · exact hclosed
      · omega
    exact ⟨h.1, h.2, by simp [hcons, hcount], by simp [hcons, hfull, hclosed],
      fun hopen => absurd (hclosed.symm.trans hopen) (by simp)⟩

/-- A call: it is put on the log if it is admitted. -/
theorem call (hthreshold : 1 ≤ failureThreshold) (h : Follows failureThreshold recoveryTimeout log b)
    (c : SequentialCall) :
    Follows failureThreshold recoveryTimeout (if (b.call c).1 then log ++ [c] else log)
      (b.call c).2 := by
  -- What `canAttempt` leaves for the outcome to be recorded on.
  have hsettle : ∀ b' : CircuitBreaker, b'.failureThreshold = failureThreshold →
      b'.recoveryTimeout = recoveryTimeout → b'.failures = (failedSinceSuccess log).length →
      (b'.state = .closed ∨
        b'.state = .halfOpen ∧ failureThreshold ≤ (failedSinceSuccess log).length) →
      Follows failureThreshold recoveryTimeout (log ++ [c]) (b'.settle c.finish c.outcome) := by
    intro b' hthreshold' htimeout' hcount hstate
    cases hc : c.returns with
    | true =>
      rw [SequentialCall.outcome, if_pos hc]
      exact success hthreshold hc ⟨hthreshold', htimeout'⟩
    | false =>
      rw [SequentialCall.outcome, if_neg (by simp [hc])]
      exact failure hc ⟨hthreshold', htimeout'⟩ hcount hstate
  unfold CircuitBreaker.call
  rcases h.cases with ⟨-, hclosed⟩ | ⟨hfull, hopen, -⟩
  · simp only [canAttempt, hclosed, if_true]
    exact hsettle b h.threshold h.timeout h.failures (.inl hclosed)
  · by_cases htime : b.recoveryTimeout ≤ c.start - b.openedAt
    · simp only [canAttempt, hopen, htime, if_true]
      exact hsettle _ h.threshold h.timeout h.failures (.inr ⟨rfl, hfull⟩)
    · simp only [canAttempt, hopen, htime, if_false, Bool.false_eq_true]
      exact h

/-- A list of calls, by induction on the list. -/
theorem run (hthreshold : 1 ≤ failureThreshold) :
    ∀ (history log : List SequentialCall) (b : CircuitBreaker),
      Follows failureThreshold recoveryTimeout log b →
      Follows failureThreshold recoveryTimeout (log ++ b.admitted history) (b.run history) := by
  intro history
  induction history with
  | nil =>
    intro log b h
    rw [admitted, List.append_nil]
    exact h
  | cons c history ih =>
    intro log b h
    have hcall := h.call hthreshold c
    have hrest := ih _ _ hcall
    simp only [admitted]
    cases hadmits : (b.call c).1 with
    | true =>
      rw [hadmits, if_pos rfl, List.append_assoc] at hrest
      exact hrest
    | false =>
      rw [hadmits, if_neg (by simp)] at hrest
      exact hrest

end Follows

end CircuitBreaker

/-- Calls one after the other, whatever the clock reads: the next one is admitted exactly if fewer
    than `failureThreshold` calls have failed since the last success, or the last failure was at
    least `recoveryTimeout` ago. -/
theorem sequential_call_admitted_iff (failureThreshold : ℤ) (recoveryTimeout : ℚ)
    (hthreshold : 1 ≤ failureThreshold) (history : List SequentialCall) (now : ℚ) :
    let b : CircuitBreaker := { failureThreshold, recoveryTimeout }
    ((b.run history).canAttempt now).1 = true ↔
      ((failedSinceSuccess (b.admitted history)).length : ℤ) < failureThreshold ∨
      ∃ last, lastFailure (b.admitted history) = some last ∧
        recoveryTimeout ≤ now - last.finish := by
  intro b
  have hfollows := CircuitBreaker.Follows.run hthreshold history [] b (.new hthreshold)
  rw [List.nil_append] at hfollows
  exact hfollows.canAttempt_iff now

/-- A failure opens the circuit, a call is rejected, the probe fails, and the next call comes too
    early again. -/
def failedProbe : List SequentialCall :=
  [⟨0, 1, false⟩, ⟨2, 3, true⟩, ⟨31, 32, false⟩]

theorem failed_probe_shuts :
    let b : CircuitBreaker := { failureThreshold := 1, recoveryTimeout := 30 }
    ((b.run failedProbe).canAttempt 61).1 = false ∧
      (((b.run failedProbe).canAttempt 61).1 = true ↔
        ((failedSinceSuccess (b.admitted failedProbe)).length : ℤ) < 1 ∨
        ∃ last, lastFailure (b.admitted failedProbe) = some last ∧ 30 ≤ 61 - last.finish) :=
  ⟨by decide +kernel, sequential_call_admitted_iff 1 30 (by decide) failedProbe 61⟩

end TradingHub
