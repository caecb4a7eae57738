import Mathlib.Tactic.Linarith
import TradingHub.Core.Resilience
import TradingHub.Library.Dict
import TradingHub.Library.Run

set_option autoImplicit false

/-! # Concurrent calls through one circuit breaker

`CircuitBreaker.call` of `app/core/resilience.py`, any number of calls at a time. A call holds the
lock of the breaker while it is admitted and again while its outcome is recorded, and is suspended
in between, so a run is a list of admissions and completions in any order, with the clock moving
between them.

The breaker does not know which call it records. A call that was admitted while the circuit was
closed may end long after it opened, and its outcome then closes the circuit, or clears the flag of
a probe that is still out. A call that ends by cancellation is not recorded at all. -/

namespace TradingHub

open Library

/-! ## The calls -/

/-- How an admitted call ends. `asyncio.CancelledError` is not an `Exception`: a cancelled call
    leaves `call` without reaching either branch of its `try`. -/
inductive CallOutcome
  | returned
  | raised
  | cancelled
deriving DecidableEq, Repr

inductive BreakerCall
  /-- `CircuitOpenError`. -/
  | rejected
  /-- The call was admitted and has not ended; a probe is a call that was not admitted from
      `closed`. -/
  | running (probe : Bool)
  | ended (outcome : CallOutcome)
deriving DecidableEq, Repr

/-- The breaker, the clock and the calls, with the moments at which `record_failure` has set the
    state to `open`. -/
structure BreakerState where
  breaker : CircuitBreaker
  now : ℚ
  calls : Dict ℕ BreakerCall
  openings : List ℚ

inductive BreakerStep
  | start (i : ℕ)
  | finish (i : ℕ) (outcome : CallOutcome)
  /-- Time passes. -/
  | advance (moment : ℚ)

namespace CircuitBreaker

/-- What the end of a call does to the breaker. -/
def settle (b : CircuitBreaker) (now : ℚ) : CallOutcome → CircuitBreaker
  | .returned => b.recordSuccess
  | .raised => b.recordFailure now
  | .cancelled => b

/-- `record_failure` sets the state to `open`. -/
def opens (b : CircuitBreaker) : Bool :=
  b.state = .halfOpen ∨ b.failureThreshold ≤ b.failures + 1

end CircuitBreaker

namespace BreakerState

/-- A breaker that `get_circuit_breaker` has just built. -/
def init (failureThreshold : ℤ) (recoveryTimeout now : ℚ) : BreakerState :=
  ⟨{ failureThreshold, recoveryTimeout }, now, .empty, []⟩

/-- A step of a call. A step that does not apply changes nothing. -/
def step (s : BreakerState) : BreakerStep → BreakerState
  | .start i =>
    match s.calls.get? i with
    | none =>
      match s.breaker.canAttempt s.now with
      | (true, breaker) =>
        { s with breaker, calls := s.calls.set i (.running (s.breaker.state ≠ .closed)) }
      | (false, breaker) => { s with breaker, calls := s.calls.set i .rejected }
    | some _ => s
  | .finish i outcome =>
    match s.calls.get? i with
    | some (.running _) =>
      { s with
        breaker := s.breaker.settle s.now outcome
        calls := s.calls.set i (.ended outcome)
        openings := if outcome = .raised ∧ s.breaker.opens then s.now :: s.openings
          else s.openings }
    | _ => s
  | .advance moment => { s with now := max s.now moment }

end BreakerState

/-! ## What a step can do -/

namespace BreakerState

variable {s : BreakerState}

/-- A call starts: it is admitted from `closed`, admitted as a probe, or rejected. -/
theorem start_cases (s : BreakerState) {i : ℕ} (hi : s.calls.get? i = none) :
    (s.breaker.state = .closed ∧
      s.step (.start i) = { s with calls := s.calls.set i (.running false) }) ∨
    ((s.breaker.state = .open ∧ s.breaker.recoveryTimeout ≤ s.now - s.breaker.openedAt ∨
        s.breaker.state = .halfOpen ∧ s.breaker.probeInFlight = false) ∧
      s.step (.start i) =
        { s with
          breaker := { s.breaker with state := .halfOpen, probeInFlight := true }
          calls := s.calls.set i (.running true) }) ∨
    ((s.breaker.state = .open ∧ s.now - s.breaker.openedAt < s.breaker.recoveryTimeout ∨
        s.breaker.state = .halfOpen ∧ s.breaker.probeInFlight = true) ∧
      s.step (.start i) = { s with calls := s.calls.set i .rejected }) := by
  obtain ⟨⟨threshold, timeout, state, failures, openedAt, probe⟩, now, calls, openings⟩ := s
  simp only at hi
  cases state with
  | closed => exact .inl ⟨rfl, by simp [step, hi, CircuitBreaker.canAttempt]⟩
  | «open» =>
    by_cases htime : timeout ≤ now - openedAt
    · exact .inr (.inl ⟨.inl ⟨rfl, htime⟩, by simp [step, hi, CircuitBreaker.canAttempt, htime]⟩)
    · exact .inr (.inr ⟨.inl ⟨rfl, not_le.1 htime⟩,
        by simp [step, hi, CircuitBreaker.canAttempt, htime]⟩)
  | halfOpen =>
    cases probe with
    | false => exact .inr (.inl ⟨.inr ⟨rfl, rfl⟩, by simp [step, hi, CircuitBreaker.canAttempt]⟩)
    | true => exact .inr (.inr ⟨.inr ⟨rfl, rfl⟩, by simp [step, hi, CircuitBreaker.canAttempt]⟩)

theorem step_start_of_known {i : ℕ} {call : BreakerCall} (hi : s.calls.get? i = some call) :
    s.step (.start i) = s := by
  simp only [step, hi]

/-- The end of a call that is running. -/
theorem step_finish {i : ℕ} {probe : Bool} (hi : s.calls.get? i = some (.running probe))
    (outcome : CallOutcome) :
    s.step (.finish i outcome) =
      { s with
        breaker := s.breaker.settle s.now outcome
        calls := s.calls.set i (.ended outcome)
        openings := if outcome = .raised ∧ s.breaker.opens then s.now :: s.openings
          else s.openings } := by
  simp only [step, hi]

theorem step_finish_of_idle {i : ℕ} {outcome : CallOutcome}
    (hi : ∀ probe, s.calls.get? i ≠ some (.running probe)) : s.step (.finish i outcome) = s := by
  simp only [step]

/-- A call is running, or it cannot end. -/
theorem running_or_idle (s : BreakerState) (i : ℕ) :
    (∃ probe, s.calls.get? i = some (.running probe)) ∨
      ∀ probe, s.calls.get? i ≠ some (.running probe) := by
  by_cases h : ∃ probe, s.calls.get? i = some (.running probe)
  · exact .inl h
  · exact .inr fun probe hcall => h ⟨probe, hcall⟩

end BreakerState

/-! ## A breaker that gets stuck -/

namespace BreakerState

/-- The call was admitted as a probe and has not ended. -/
def Probing (s : BreakerState) (i : ℕ) : Prop := s.calls.get? i = some (.running true)

/-- A half-open breaker that waits for a probe has one out. -/
def Waiting (s : BreakerState) : Prop :=
  s.breaker.state = .halfOpen → s.breaker.probeInFlight = true → ∃ i, s.Probing i

/-- With no call in flight, a call made `recoveryTimeout` after the circuit opened is admitted. -/
def Recovers (s : BreakerState) : Prop :=
  (∀ i probe, s.calls.get? i ≠ some (.running probe)) →
    (s.breaker.state = .open → s.breaker.recoveryTimeout ≤ s.now - s.breaker.openedAt) →
    ∀ i, s.calls.get? i = none → ∃ probe, (s.step (.start i)).calls.get? i = some (.running probe)

theorem Waiting.recovers {s : BreakerState} (h : s.Waiting) : s.Recovers := by
  intro hidle htime i hi
  rcases s.start_cases hi with ⟨-, hstep⟩ | ⟨-, hstep⟩ | ⟨hshut, -⟩
  · exact ⟨false, by simp [hstep]⟩
  · exact ⟨true, by simp [hstep]⟩
  · rcases hshut with ⟨hopen, hearly⟩ | ⟨hhalf, hprobe⟩
    · exact absurd (htime hopen) (not_le.2 hearly)
    · obtain ⟨j, hj⟩ := h hhalf hprobe
      exact absurd hj (hidle j true)

end BreakerState

/-- The condition on a step: a cancellation does not end the only probe that is out while the
    half-open breaker waits for it. -/
def ProbeNotLost (s : BreakerState) : BreakerStep → Prop
  | .finish i .cancelled => s.calls.get? i = some (.running true) →
      s.breaker.state = .halfOpen → s.breaker.probeInFlight = true →
      ∃ e ∈ s.calls.entries, e.1 ≠ i ∧ e.2 = .running true
  | _ => True

namespace BreakerState

theorem waiting_start {s : BreakerState} (h : s.Waiting) (i : ℕ) : (s.step (.start i)).Waiting := by
  cases hi : s.calls.get? i with
  | some call => rwa [step_start_of_known hi]
  | none =>
    -- A call that is not yet known is no probe, so its new entry hides none.
    have hother : ∀ call j, s.Probing j → (s.calls.set i call).get? j = some (.running true) := by
      intro call j hj
      rw [Dict.get?_set_of_ne _ _ (fun he => by simp [Probing, he, hi] at hj)]
      exact hj
    rcases s.start_cases hi with ⟨hclosed, hstep⟩ | ⟨-, hstep⟩ | ⟨-, hstep⟩
    · rw [hstep]
      intro hhalf
      exact absurd (hclosed.symm.trans hhalf) (by simp)
    · rw [hstep]
      exact fun _ _ => ⟨i, Dict.get?_set_self _ _ _⟩
    · rw [hstep]
      intro hhalf hprobe
      obtain ⟨j, hj⟩ := h hhalf hprobe
      exact ⟨j, hother _ j hj⟩

theorem waiting_cancelled_iff {s : BreakerState} (h : s.Waiting) {i : ℕ} {probe : Bool}
    (hi : s.calls.get? i = some (.running probe)) :
    (s.step (.finish i .cancelled)).Waiting ↔ ProbeNotLost s (.finish i .cancelled) := by
  rw [step_finish hi]
  constructor
  · intro hafter _ hhalf hprobe
    obtain ⟨j, hj⟩ := hafter hhalf hprobe
    have hji : j ≠ i := by
      rintro rfl
      exact absurd hj (by simp [Probing])
    exact ⟨(j, .running true), (Dict.get?_eq_some_iff _ _ _).1
      ((Dict.get?_set_of_ne _ _ hji).symm.trans hj), hji, rfl⟩
  · intro hguard hhalf hprobe
    have hprobing : ∃ j, j ≠ i ∧ s.Probing j := by
      obtain ⟨j, hj⟩ := h hhalf hprobe
      by_cases hji : j = i
      · obtain ⟨⟨k, call⟩, hmem, hk, rfl⟩ := hguard (hji ▸ hj) hhalf hprobe
        exact ⟨k, hk, (Dict.get?_eq_some_iff _ _ _).2 hmem⟩
      · exact ⟨j, hji, hj⟩
    obtain ⟨j, hji, hj⟩ := hprobing
    exact ⟨j, (Dict.get?_set_of_ne _ _ hji).trans hj⟩

/-- A recorded outcome clears the flag, so there is nothing to wait for. -/
theorem probeInFlight_settle (b : CircuitBreaker) (now : ℚ) {outcome : CallOutcome}
    (h : outcome ≠ .cancelled) : (b.settle now outcome).probeInFlight = false := by
  cases outcome with
  | returned => rfl
  | raised => simp only [CircuitBreaker.settle, CircuitBreaker.recordFailure]; split <;> rfl
  | cancelled => exact absurd rfl h

theorem waiting_step_iff (s : BreakerState) (a : BreakerStep) (h : s.Waiting) :
    (s.step a).Waiting ↔ ProbeNotLost s a := by
  cases a with
  | start i => exact iff_of_true (waiting_start h i) trivial
  | advance moment => exact iff_of_true h trivial
  | finish i outcome =>
    rcases s.running_or_idle i with ⟨probe, hi⟩ | hidle
    · by_cases hout : outcome = .cancelled
      · subst hout
        exact waiting_cancelled_iff h hi
      · refine iff_of_true ?_ ?_
        · rw [step_finish hi]
          intro _ hprobe
          exact absurd (probeInFlight_settle s.breaker s.now hout) (by simp_all)
        · cases outcome with
          | returned => trivial
          | raised => trivial
          | cancelled => exact absurd rfl hout
    · rw [step_finish_of_idle hidle]
      refine iff_of_true h ?_
      cases outcome with
      | returned => trivial
      | raised => trivial
      | cancelled => exact fun hi => absurd hi (hidle true)

end BreakerState

/-- However the calls are interleaved: throughout a run a half-open breaker that waits for a probe
    has one out, and admits a call once the others have ended and the timeout has passed, exactly
    if no step of the run cancels the last probe the breaker waits for. -/
theorem breaker_never_stuck_iff (failureThreshold : ℤ) (recoveryTimeout now : ℚ)
    (steps : List BreakerStep) :
    Always BreakerState.step (fun s => s.Waiting ∧ s.Recovers)
        (.init failureThreshold recoveryTimeout now) steps ↔
      Guarded BreakerState.step ProbeNotLost (.init failureThreshold recoveryTimeout now)
        steps := by
  have hinit : (BreakerState.init failureThreshold recoveryTimeout now).Waiting :=
    fun hhalf => absurd hhalf (by simp [BreakerState.init])
  refine always_iff_guarded (I := fun _ => True) (fun _ _ _ => trivial) ?_ steps _ trivial
    ⟨hinit, hinit.recovers⟩
  rintro s a - ⟨hwait, -⟩
  rw [← BreakerState.waiting_step_iff s a hwait]
  exact ⟨fun h => h.1, fun h => ⟨h, h.recovers⟩⟩

/-- A failure opens the circuit, the timeout passes, and the probe is cancelled. -/
def lostProbe : List BreakerStep :=
  [.start 0, .finish 0 .raised, .advance 30, .start 1, .finish 1 .cancelled, .advance 3600]

/-- The breaker waits for a probe that has ended: with no call in flight, an hour later, it rejects
    the next call. -/
theorem lost_probe_stuck :
    ¬ (lostProbe.foldl BreakerState.step (.init 1 30 0)).Waiting ∧
      ¬ (lostProbe.foldl BreakerState.step (.init 1 30 0)).Recovers := by
  have hcalls : (lostProbe.foldl BreakerState.step (.init 1 30 0)).calls.entries
      = [(0, .ended .raised), (1, .ended .cancelled)] := by decide +kernel
  have hidle : ∀ i probe, (lostProbe.foldl BreakerState.step (.init 1 30 0)).calls.get? i
      ≠ some (.running probe) := by
    intro i probe hi
    have hmem := (Dict.get?_eq_some_iff _ _ _).1 hi
    rw [hcalls] at hmem
    exact absurd hmem (by simp)
  constructor
  · intro h
    obtain ⟨i, hi⟩ := h (by decide +kernel) (by decide +kernel)
    exact hidle i true hi
  · intro h
    obtain ⟨probe, hi⟩ := h hidle (by decide +kernel) 2 (by decide +kernel)
    have hrejected : ((lostProbe.foldl BreakerState.step (.init 1 30 0)).step
        (.start 2)).calls.get? 2 = some .rejected := by decide +kernel
    exact absurd (hrejected.symm.trans hi) (by simp)

/-! ## A circuit that does not stay open -/

namespace BreakerState

/-- Less than `recoveryTimeout` after an opening, a call that starts is rejected. -/
def Shut (s : BreakerState) : Prop :=
  ∀ opening ∈ s.openings, s.now < opening + s.breaker.recoveryTimeout →
    ∀ i, s.calls.get? i = none → (s.step (.start i)).calls.get? i = some .rejected

/-- How the openings so far bear on the breaker: an open one remembers the last of them, and a
    half-open one has let all of them lapse. -/
structure OpeningsKnown (s : BreakerState) : Prop where
  past : ∀ opening ∈ s.openings, opening ≤ s.now
  mem : s.breaker.state = .open → s.breaker.openedAt ∈ s.openings
  last : s.breaker.state = .open → ∀ opening ∈ s.openings, opening ≤ s.breaker.openedAt
  lapsed : s.breaker.state = .halfOpen →
    ∀ opening ∈ s.openings, opening + s.breaker.recoveryTimeout ≤ s.now

/-- The circuit is shut in the time after its openings if it is open then. -/
theorem shut_iff {s : BreakerState} (h : s.OpeningsKnown) :
    s.Shut ↔ ∀ opening ∈ s.openings, s.now < opening + s.breaker.recoveryTimeout →
      s.breaker.state = .open := by
  constructor
  · intro hshut opening hmem hearly
    obtain ⟨i, hi⟩ := s.calls.exists_get?_eq_none
    have hrejected := hshut opening hmem hearly i hi
    rcases s.start_cases hi with ⟨-, hstep⟩ | ⟨-, hstep⟩ | ⟨hopen | hhalf, -⟩
    · exact absurd hrejected (by simp [hstep])
    · exact absurd hrejected (by simp [hstep])
    · exact hopen.1
    · exact absurd (h.lapsed hhalf.1 opening hmem) (not_le.2 hearly)
  · intro hopen opening hmem hearly i hi
    have hstate := hopen opening hmem hearly
    have hlast := h.last hstate opening hmem
    rcases s.start_cases hi with ⟨hclosed, -⟩ | ⟨⟨-, htime⟩ | ⟨hhalf, -⟩, -⟩ | ⟨-, hstep⟩
    · exact absurd (hclosed.symm.trans hstate) (by simp)
    · exact absurd htime (by linarith)
    · exact absurd (hhalf.symm.trans hstate) (by simp)
    · simp [hstep]

end BreakerState

/-- The condition on a step: no call returns while the circuit is open and its timeout has not
    passed. -/
def NoEarlySuccess (s : BreakerState) : BreakerStep → Prop
  | .finish i .returned => (∃ probe, s.calls.get? i = some (.running probe)) →
      s.breaker.state = .open → s.breaker.openedAt + s.breaker.recoveryTimeout ≤ s.now
  | _ => True

namespace BreakerState

theorem settle_recoveryTimeout (b : CircuitBreaker) (now : ℚ) (outcome : CallOutcome) :
    (b.settle now outcome).recoveryTimeout = b.recoveryTimeout := by
  cases outcome with
  | returned => rfl
  | raised => simp only [CircuitBreaker.settle, CircuitBreaker.recordFailure]; split <;> rfl
  | cancelled => rfl

/-- A failure that opens the circuit, and one that does not. -/
theorem recordFailure_cases (b : CircuitBreaker) (now : ℚ) :
    (b.opens = true ∧ (b.recordFailure now).state = .open ∧
      (b.recordFailure now).openedAt = now) ∨
    (b.opens = false ∧ b.state ≠ .halfOpen ∧ (b.recordFailure now).state = b.state ∧
      (b.recordFailure now).openedAt = b.openedAt) := by
  by_cases h : b.state = .halfOpen ∨ b.failureThreshold ≤ b.failures + 1
  · exact .inl ⟨by simp [CircuitBreaker.opens, h], by simp [CircuitBreaker.recordFailure, h],
      by simp [CircuitBreaker.recordFailure, h]⟩
  · exact .inr ⟨by simp [CircuitBreaker.opens, h], fun hhalf => h (.inl hhalf),
      by simp [CircuitBreaker.recordFailure, h], by simp [CircuitBreaker.recordFailure, h]⟩

namespace OpeningsKnown

variable {s : BreakerState}

theorem start (h : s.OpeningsKnown) (i : ℕ) : (s.step (.start i)).OpeningsKnown := by
  cases hi : s.calls.get? i with
  | some call => rwa [step_start_of_known hi]
  | none =>
    rcases s.start_cases hi with ⟨-, hstep⟩ | ⟨hprobe, hstep⟩ | ⟨-, hstep⟩
    · rw [hstep]
      exact ⟨h.past, h.mem, h.last, h.lapsed⟩
    · rw [hstep]
      refine ⟨h.past, fun hopen => absurd hopen (by simp), fun hopen => absurd hopen (by simp),
        fun _ opening hmem => ?_⟩
      show opening + s.breaker.recoveryTimeout ≤ s.now
      rcases hprobe with ⟨hopen, htime⟩ | ⟨hhalf, -⟩
      · have := h.last hopen opening hmem
        linarith
      · exact h.lapsed hhalf opening hmem
    · rw [hstep]
      exact ⟨h.past, h.mem, h.last, h.lapsed⟩

theorem finish (h : s.OpeningsKnown) {i : ℕ} {probe : Bool}
    (hi : s.calls.get? i = some (.running probe)) (outcome : CallOutcome) :
    (s.step (.finish i outcome)).OpeningsKnown := by
  rw [step_finish hi]
  cases outcome with
  | returned =>
    exact ⟨h.past, fun hopen => absurd hopen (by simp [CircuitBreaker.settle,
      CircuitBreaker.recordSuccess]), fun hopen => absurd hopen (by simp [CircuitBreaker.settle,
      CircuitBreaker.recordSuccess]), fun hhalf => absurd hhalf (by simp [CircuitBreaker.settle,
      CircuitBreaker.recordSuccess])⟩
  | cancelled => exact ⟨h.past, h.mem, h.last, h.lapsed⟩
  | raised =>
    rcases recordFailure_cases s.breaker s.now with ⟨hopens, hstate, hat⟩ |
      ⟨hopens, hhalf, hstate, hat⟩
    · simp only [hopens, and_self, if_true]
      -- The new opening is the last one: all the others are past.
      have hpast : ∀ opening ∈ s.now :: s.openings, opening ≤ s.now := by
        intro opening hmem
        rcases List.mem_cons.1 hmem with rfl | hmem
        · exact le_refl _
        · exact h.past opening hmem
      refine ⟨hpast, fun _ => ?_, fun _ opening hmem => ?_, fun hhalf => ?_⟩
      · exact List.mem_cons.2 (.inl hat)
      · exact (hpast opening hmem).trans_eq hat.symm
      · exact absurd (hstate.symm.trans hhalf) (by simp)
    · simp only [hopens, and_false, if_false, Bool.false_eq_true]
      refine ⟨h.past, fun hopen => ?_, fun hopen opening hmem => ?_, fun hhalf' => ?_⟩
      · show (s.breaker.recordFailure s.now).openedAt ∈ s.openings
        rw [hat]
        exact h.mem (hstate.symm.trans hopen)
      · exact (h.last (hstate.symm.trans hopen) opening hmem).trans_eq hat.symm
      · exact absurd (hstate.symm.trans hhalf') hhalf

theorem step (h : s.OpeningsKnown) (a : BreakerStep) : (s.step a).OpeningsKnown := by
  cases a with
  | start i => exact h.start i
  | finish i outcome =>
    rcases s.running_or_idle i with ⟨probe, hi⟩ | hidle
    · exact h.finish hi outcome
    · rwa [step_finish_of_idle hidle]
  | advance moment =>
    exact ⟨fun opening hmem => (h.past opening hmem).trans (le_max_left _ _), h.mem, h.last,
      fun hhalf opening hmem => (h.lapsed hhalf opening hmem).trans (le_max_left _ _)⟩

end OpeningsKnown

/-- The circuit is open in the time after its openings. -/
def OpenAfterOpenings (s : BreakerState) : Prop :=
  ∀ opening ∈ s.openings, s.now < opening + s.breaker.recoveryTimeout → s.breaker.state = .open

theorem openAfterOpenings_start {s : BreakerState} (hs : s.OpeningsKnown)
    (h : s.OpenAfterOpenings) (i : ℕ) : (s.step (.start i)).OpenAfterOpenings := by
  cases hi : s.calls.get? i with
  | some call => rwa [step_start_of_known hi]
  | none =>
    rcases s.start_cases hi with ⟨-, hstep⟩ | ⟨-, hstep⟩ | ⟨-, hstep⟩
    · rw [hstep]
      exact h
    · -- A probe is admitted when every opening has lapsed, so the half-open state breaks nothing.
      have hlapsed := (hs.start i).lapsed (by rw [hstep])
      intro opening hmem hearly
      exact absurd (hlapsed opening hmem) (not_le.2 hearly)
    · rw [hstep]
      exact h

theorem openAfterOpenings_finish_iff {s : BreakerState} (hs : s.OpeningsKnown)
    (h : s.OpenAfterOpenings) {i : ℕ} {probe : Bool}
    (hi : s.calls.get? i = some (.running probe)) (outcome : CallOutcome) :
    (s.step (.finish i outcome)).OpenAfterOpenings ↔ NoEarlySuccess s (.finish i outcome) := by
  rw [step_finish hi]
  cases outcome with
  | returned =>
    constructor
    · intro hafter _ hopen
      by_contra hearly
      exact absurd (hafter s.breaker.openedAt (hs.mem hopen) (not_le.1 hearly))
        (by simp [CircuitBreaker.settle, CircuitBreaker.recordSuccess])
    · intro hguard opening hmem hearly
      have hopen := h opening hmem hearly
      have hlast := hs.last hopen opening hmem
      have htime := hguard ⟨probe, hi⟩ hopen
      have hwindow : s.now < opening + s.breaker.recoveryTimeout := hearly
      exact absurd htime (by linarith)
  | cancelled => exact iff_of_true h trivial
  | raised =>
    refine iff_of_true ?_ trivial
    rcases recordFailure_cases s.breaker s.now with ⟨-, hstate, -⟩ | ⟨hopens, -, hstate, -⟩
    · exact fun _ _ _ => hstate
    · simp only [hopens, and_false, if_false, Bool.false_eq_true]
      intro opening hmem hearly
      rw [settle_recoveryTimeout] at hearly
      exact hstate.trans (h opening hmem hearly)

theorem openAfterOpenings_step_iff (s : BreakerState) (a : BreakerStep) (hs : s.OpeningsKnown)
    (h : s.OpenAfterOpenings) : (s.step a).OpenAfterOpenings ↔ NoEarlySuccess s a := by
  cases a with
  | start i => exact iff_of_true (openAfterOpenings_start hs h i) trivial
  | advance moment =>
    refine iff_of_true (fun opening hmem hearly => ?_) trivial
    exact h opening hmem ((le_max_left s.now moment).trans_lt hearly)
  | finish i outcome =>
    rcases s.running_or_idle i with ⟨probe, hi⟩ | hidle
    · exact openAfterOpenings_finish_iff hs h hi outcome
    · rw [step_finish_of_idle hidle]
      refine iff_of_true h ?_
      cases outcome with
      | returned =>
        rintro ⟨probe, hi⟩
        exact absurd hi (hidle probe)
      | raised => trivial
      | cancelled => trivial

end BreakerState

/-- However the calls are interleaved: throughout a run every call that starts less than
    `recoveryTimeout` after an opening is rejected, exactly if no call returns while the circuit is
    open and its timeout has not passed. -/
theorem open_circuit_stays_shut_iff (failureThreshold : ℤ) (recoveryTimeout now : ℚ)
    (steps : List BreakerStep) :
    Always BreakerState.step BreakerState.Shut (.init failureThreshold recoveryTimeout now) steps ↔
      Guarded BreakerState.step NoEarlySuccess (.init failureThreshold recoveryTimeout now)
        steps := by
  have hinit : (BreakerState.init failureThreshold recoveryTimeout now).OpeningsKnown :=
    ⟨fun _ hmem => absurd hmem (by simp [BreakerState.init]),
      fun hopen => absurd hopen (by simp [BreakerState.init]),
      fun hopen => absurd hopen (by simp [BreakerState.init]),
      fun hhalf => absurd hhalf (by simp [BreakerState.init])⟩
  refine always_iff_guarded (I := BreakerState.OpeningsKnown) (fun s a h => h.step a) ?_ steps _
    hinit fun _ hmem => absurd hmem (by simp [BreakerState.init])
  intro s a hs hshut
  rw [BreakerState.shut_iff (hs.step a)]
  exact BreakerState.openAfterOpenings_step_iff s a hs ((BreakerState.shut_iff hs).1 hshut)

/-- Two calls are admitted; the first fails and opens the circuit, the second returns late. -/
def lateSuccess : List BreakerStep :=
  [.start 0, .start 1, .finish 0 .raised, .advance 1, .finish 1 .returned]

/-- The circuit opened at 0 for 30 seconds, and at 1 it admits a call. -/
theorem late_success_admits :
    (0 : ℚ) ∈ (lateSuccess.foldl BreakerState.step (.init 1 30 0)).openings ∧
      (lateSuccess.foldl BreakerState.step (.init 1 30 0)).now = 1 ∧
      ((lateSuccess.foldl BreakerState.step (.init 1 30 0)).step (.start 2)).calls.get? 2
        = some (.running false) ∧
      ¬ Always BreakerState.step BreakerState.Shut (.init 1 30 0) lateSuccess := by
  have hadmitted : ((lateSuccess.foldl BreakerState.step (.init 1 30 0)).step
      (.start 2)).calls.get? 2 = some (.running false) := by decide +kernel
  refine ⟨by decide +kernel, by decide +kernel, hadmitted, fun h => ?_⟩
  have hrejected := Always.last _ _ h 0 (by decide +kernel) (by decide +kernel) 2
    (by decide +kernel)
  exact absurd (hadmitted.symm.trans hrejected) (by simp)

/-! ## More than one probe -/

/-- The condition on a step: no call returns or raises while another call is out as a probe. -/
def ProbeUndisturbed (s : BreakerState) : BreakerStep → Prop
  | .finish i outcome => outcome ≠ .cancelled →
      (∃ probe, s.calls.get? i = some (.running probe)) →
      ∀ e ∈ s.calls.entries, e.2 = .running true → e.1 = i
  | _ => True

instance (s : BreakerState) (i : ℕ) :
    Decidable (∃ probe, s.calls.get? i = some (.running probe)) :=
  decidable_of_iff (s.calls.get? i = some (.running false) ∨ s.calls.get? i = some (.running true))
    (by simp)

instance (s : BreakerState) : ∀ a, Decidable (ProbeUndisturbed s a)
  | .start _ => inferInstanceAs (Decidable True)
  | .advance _ => inferInstanceAs (Decidable True)
  | .finish i outcome => inferInstanceAs (Decidable (outcome ≠ .cancelled →
      (∃ probe, s.calls.get? i = some (.running probe)) →
      ∀ e ∈ s.calls.entries, e.2 = .running true → e.1 = i))

namespace BreakerState

/-- At most one probe is out, and while it is the breaker waits for it. -/
structure OneProbe (s : BreakerState) : Prop where
  unique : ∀ i j, s.Probing i → s.Probing j → i = j
  awaited : ∀ i, s.Probing i → s.breaker.state = .halfOpen ∧ s.breaker.probeInFlight = true

namespace OneProbe

variable {s : BreakerState}

/-- A probe that is out after a call's entry was set to something else was out before. -/
theorem probing_of_set {i j : ℕ} {call : BreakerCall} (hcall : call ≠ .running true)
    (hj : (s.calls.set i call).get? j = some (.running true)) : j ≠ i ∧ s.Probing j := by
  rw [Dict.get?_set] at hj
  split at hj
  · exact absurd (Option.some.inj hj) hcall
  · next hji => exact ⟨hji, hj⟩

/-- The entry of a call changes, and the call is not out as a probe. -/
theorem set (h : s.OneProbe) {i : ℕ} {call : BreakerCall} (hcall : call ≠ .running true) :
    OneProbe { s with calls := s.calls.set i call } :=
  ⟨fun j k hj hk => h.unique j k (probing_of_set hcall hj).2 (probing_of_set hcall hk).2,
    fun j hj => h.awaited j (probing_of_set hcall hj).2⟩

/-- No probe is out, and the only one that may now be is the one the breaker waits for. -/
theorem of_none {t : BreakerState} {i : ℕ} (honly : ∀ j, t.Probing j → j = i)
    (hwait : t.Probing i → t.breaker.state = .halfOpen ∧ t.breaker.probeInFlight = true) :
    t.OneProbe :=
  ⟨fun j k hj hk => (honly j hj).trans (honly k hk).symm, fun j hj => hwait (honly j hj ▸ hj)⟩

theorem start (h : s.OneProbe) (i : ℕ) : (s.step (.start i)).OneProbe := by
  cases hi : s.calls.get? i with
  | some call => rwa [step_start_of_known hi]
  | none =>
    rcases s.start_cases hi with ⟨-, hstep⟩ | ⟨hprobe, hstep⟩ | ⟨-, hstep⟩
    · rw [hstep]
      exact h.set (by simp)
    · rw [hstep]
      refine of_none (i := i) (fun j hj => ?_) fun _ => ⟨rfl, rfl⟩
      -- A probe already out would have kept the gate shut.
      by_contra hji
      have hj' : s.Probing j := (Dict.get?_set_of_ne _ _ hji).symm.trans hj
      obtain ⟨hhalf, hflag⟩ := h.awaited j hj'
      rcases hprobe with ⟨hopen, -⟩ | ⟨-, hclear⟩
      · exact absurd (hopen.symm.trans hhalf) (by simp)
      · exact absurd (hclear.symm.trans hflag) (by simp)
    · rw [hstep]
      exact h.set (by simp)

theorem finish (h : s.OneProbe) {i : ℕ} {outcome : CallOutcome} {probe : Bool}
    (hi : s.calls.get? i = some (.running probe))
    (hguard : ProbeUndisturbed s (.finish i outcome)) :
    (s.step (.finish i outcome)).OneProbe := by
  rw [step_finish hi]
  by_cases hout : outcome = .cancelled
  · subst hout
    exact h.set (by simp)
  · -- Nothing is out: the call that ends is the only one that could have been a probe.
    have hnone : ∀ j, ¬ (s.calls.set i (.ended outcome)).get? j = some (.running true) := by
      intro j hj
      obtain ⟨hji, hprobing⟩ := probing_of_set (by simp) hj
      exact hji (hguard hout ⟨probe, hi⟩ _ ((Dict.get?_eq_some_iff _ _ _).1 hprobing) rfl)
    exact ⟨fun j _ hj => absurd hj (hnone j), fun j hj => absurd hj (hnone j)⟩

theorem step (h : s.OneProbe) {a : BreakerStep} (hguard : ProbeUndisturbed s a) :
    (s.step a).OneProbe := by
  cases a with
  | start i => exact h.start i
  | finish i outcome =>
    rcases s.running_or_idle i with ⟨probe, hi⟩ | hidle
    · exact h.finish hi hguard
    · rwa [step_finish_of_idle hidle]
  | advance moment => exact ⟨h.unique, h.awaited⟩

end OneProbe

end BreakerState

/-- However the calls are interleaved, at every moment at most one probe is out, as long as no call
    returns or raises while another one is. -/
theorem at_most_one_probe (failureThreshold : ℤ) (recoveryTimeout now : ℚ)
    (steps : List BreakerStep)
    (hguard : Guarded BreakerState.step ProbeUndisturbed
      (.init failureThreshold recoveryTimeout now) steps) :
    Always BreakerState.step (fun s => ∀ i j, s.Probing i → s.Probing j → i = j)
      (.init failureThreshold recoveryTimeout now) steps := by
  have hinit : (BreakerState.init failureThreshold recoveryTimeout now).OneProbe :=
    ⟨fun _ _ hi => absurd hi (by simp [BreakerState.Probing, BreakerState.init]),
      fun _ hi => absurd hi (by simp [BreakerState.Probing, BreakerState.init])⟩
  have halways := always_of_guarded (I := BreakerState.OneProbe) (fun s a h hg => h.step hg) steps _
    hinit hguard
  exact Always.mono (fun s h => h.unique) steps _ halways

/-- A probe is let out, another call is rejected, and a second probe follows the first. -/
def probesInTurn : List BreakerStep :=
  [.start 0, .finish 0 .raised, .advance 30, .start 1, .start 2, .finish 1 .raised, .advance 60,
    .start 3]

theorem probes_in_turn :
    Always BreakerState.step (fun s => ∀ i j, s.Probing i → s.Probing j → i = j) (.init 1 30 0)
      probesInTurn :=
  at_most_one_probe 1 30 0 probesInTurn (by decide +kernel)

/-- A probe is let out, a call admitted before the circuit opened fails, and after another timeout
    a second probe is let out. -/
def probeOvertaken : List BreakerStep :=
  [.start 0, .start 1, .finish 0 .raised, .advance 30, .start 2, .finish 1 .raised, .advance 60,
    .start 3]

/-- Both probes are out. -/
theorem probe_overtaken :
    (probeOvertaken.foldl BreakerState.step (.init 1 30 0)).Probing 2 ∧
      (probeOvertaken.foldl BreakerState.step (.init 1 30 0)).Probing 3 ∧
      ¬ Always BreakerState.step (fun s => ∀ i j, s.Probing i → s.Probing j → i = j) (.init 1 30 0)
        probeOvertaken := by
  have hfirst : (probeOvertaken.foldl BreakerState.step (.init 1 30 0)).Probing 2 :=
    show Dict.get? _ _ = _ by decide +kernel
  have hsecond : (probeOvertaken.foldl BreakerState.step (.init 1 30 0)).Probing 3 :=
    show Dict.get? _ _ = _ by decide +kernel
  refine ⟨hfirst, hsecond, fun h => ?_⟩
  exact absurd (Always.last _ _ h 2 3 hfirst hsecond) (by decide)

end TradingHub
