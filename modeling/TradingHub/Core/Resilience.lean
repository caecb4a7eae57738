import Mathlib.Algebra.Order.Field.Rat

set_option autoImplicit false

/-! # The circuit breaker

`CircuitBreaker` of `app/core/resilience.py`. The injected clock is an argument: each method that
reads it takes the reading. -/

namespace TradingHub

inductive CircuitState
  | closed
  | open
  | halfOpen
deriving DecidableEq, Repr

/-- After `failureThreshold` consecutive failures the circuit opens and rejects calls for
    `recoveryTimeout` seconds; it then admits one probe at a time. -/
structure CircuitBreaker where
  failureThreshold : ℤ := 5
  recoveryTimeout : ℚ := 30
  state : CircuitState := .closed
  failures : ℤ := 0
  openedAt : ℚ := 0
  probeInFlight : Bool := false
deriving DecidableEq, Repr

namespace CircuitBreaker

/-- `_can_attempt`: whether a call is admitted, and the breaker after the decision. -/
def canAttempt (b : CircuitBreaker) (now : ℚ) : Bool × CircuitBreaker :=
  match b.state with
  | .closed => (true, b)
  | .open =>
    if b.recoveryTimeout ≤ now - b.openedAt then
      (true, { b with state := .halfOpen, probeInFlight := true })
    else (false, b)
  | .halfOpen =>
    if b.probeInFlight then (false, b) else (true, { b with probeInFlight := true })

def recordSuccess (b : CircuitBreaker) : CircuitBreaker :=
  { b with failures := 0, state := .closed, probeInFlight := false }

def recordFailure (b : CircuitBreaker) (now : ℚ) : CircuitBreaker :=
  let b' := { b with failures := b.failures + 1, probeInFlight := false }
  if b.state = .halfOpen ∨ b.failureThreshold ≤ b'.failures then
    { b' with state := .open, openedAt := now }
  else b'

end CircuitBreaker

end TradingHub
