import Mathlib.Algebra.Order.Field.Rat
import Mathlib.Algebra.Order.Ring.Basic
import Mathlib.Tactic.Linarith
import TradingHub.Library.Act

set_option autoImplicit false

/-! # Retries with backoff

`async_retry` of `app/core/resilience.py`. The wrapped function is any action, and so is the sleep:
it may raise, and it may change the state the next call starts in. The loop stops at the first call
that is not a failure it handles, or at the last one it has, and hands on what that call gave. -/

namespace TradingHub

open Library

/-- The arguments of `async_retry`; `exceptions` tells the exceptions that are handled. -/
structure RetryPolicy (ε : Type) where
  attempts : ℤ := 3
  baseDelay : ℚ := 1 / 5
  maxDelay : ℚ := 5
  exceptions : ε → Bool := fun _ => true

namespace RetryPolicy

variable {ε σ α : Type} (p : RetryPolicy ε) (assertion : ε)

/-- The loop of `wrapper` over the attempts from `attempt` on, `left` of them. Behind the loop, the
    assertion that an exception was seen raises `assertion`. -/
def retryFrom (sleep : ℚ → Act ε σ Unit) (func : Act ε σ α) :
    ℕ → ℤ → ℚ → Option ε → Act ε σ α
  | 0, _, _, lastExc => Act.raise (lastExc.getD assertion)
  | left + 1, attempt, delay, _ =>
    Act.tryExcept func fun exc =>
      if p.exceptions exc then
        -- `break`, and what was seen last is raised.
        if attempt = p.attempts then Act.raise exc
        else do
          sleep (min delay p.maxDelay)
          retryFrom sleep func left (attempt + 1) (delay * 2) (some exc)
      else Act.raise exc

def asyncRetry (sleep : ℚ → Act ε σ Unit) (func : Act ε σ α) : Act ε σ α :=
  p.retryFrom assertion sleep func p.attempts.toNat 1 p.baseDelay none

/-! ## The schedule -/

/-- The sleep after the call `i`. -/
def delay (i : ℕ) : ℚ := min (p.baseDelay * 2 ^ i) p.maxDelay

/-- The call raised an exception that is handled. -/
def Fails (r : Except ε α) : Prop := ∃ e, r = .error e ∧ p.exceptions e = true

/-- The state in which the call `i` starts, if the calls before it fail: each has run, and has been
    slept after. -/
def before (nap : ℚ → σ → σ) (func : Act ε σ α) (s : σ) : ℕ → σ
  | 0 => s
  | i + 1 => nap (p.delay i) (func (before nap func s i)).2

/-- The call `k` is the last: those before it fail, and it is not tried again. -/
structure LastCall (nap : ℚ → σ → σ) (func : Act ε σ α) (s : σ) (k : ℕ) : Prop where
  lt : (k : ℤ) < p.attempts
  failed : ∀ i < k, p.Fails (func (p.before nap func s i)).1
  ended : (k : ℤ) + 1 = p.attempts ∨ ¬ p.Fails (func (p.before nap func s k)).1

section

variable {p} {nap : ℚ → σ → σ} {func : Act ε σ α} {s : σ}

theorem LastCall.unique {j k : ℕ} (hj : p.LastCall nap func s j) (hk : p.LastCall nap func s k) :
    j = k := by
  have hle : ∀ {i l : ℕ}, p.LastCall nap func s i → p.LastCall nap func s l → i ≤ l := by
    intro i l hi hl
    by_contra hlt
    rcases hl.ended with hlast | hnot
    · have hi := hi.lt
      omega
    · exact hnot (hi.failed l (not_le.1 hlt))
  exact Nat.le_antisymm (hle hj hk) (hle hk hj)

/-- The loop from the call `i` on: `left` calls are still to come after it. -/
theorem retryFrom_eq (left i : ℕ) (hleft : (i : ℤ) + left + 1 = p.attempts) (lastExc : Option ε)
    (hfailed : ∀ j < i, p.Fails (func (p.before nap func s j)).1) :
    ∃ k, p.LastCall nap func s k ∧
      p.retryFrom assertion (fun d => Act.modify (nap d)) func (left + 1) (i + 1)
        (p.baseDelay * 2 ^ i) lastExc (p.before nap func s i) = func (p.before nap func s k) := by
  induction left generalizing i lastExc with
  | zero =>
    refine ⟨i, ⟨by omega, hfailed, Or.inl (by omega)⟩, ?_⟩
    have hlast : ((i : ℤ) + 1 = p.attempts) := by omega
    unfold retryFrom Act.tryExcept
    rcases func (p.before nap func s i) with ⟨e | a, s'⟩
    · simp only [hlast, if_true]
      split
      · rfl
      · rfl
    · rfl
  | succ left ih =>
    have hmore : ¬ ((i : ℤ) + 1 = p.attempts) := by omega
    rcases hcall : func (p.before nap func s i) with ⟨e | a, s'⟩
    · by_cases hhandled : p.exceptions e = true
      · -- The call is slept after, and the loop goes on with the next one.
        have hfails : ∀ j < i + 1, p.Fails (func (p.before nap func s j)).1 := by
          intro j hj
          rcases Nat.lt_succ_iff_lt_or_eq.1 hj with hj | rfl
          · exact hfailed j hj
          · exact ⟨e, by rw [hcall], hhandled⟩
        obtain ⟨k, hk, hrest⟩ := ih (i + 1) (by push_cast at hleft ⊢; omega) (some e) hfails
        refine ⟨k, hk, Eq.trans ?_ hrest⟩
        rw [retryFrom, Act.tryExcept, hcall]
        simp only [hhandled, if_true, if_neg hmore]
        rw [Act.bind_of_ok (show Act.modify (nap (min (p.baseDelay * 2 ^ i) p.maxDelay)) s'
          = (.ok (), p.before nap func s (i + 1)) by rw [before, hcall]; rfl)]
        rw [pow_succ, mul_assoc, Nat.cast_succ]
      · refine ⟨i, ⟨by omega, hfailed, Or.inr ?_⟩, ?_⟩
        · rintro ⟨e', he, hhandled'⟩
          rw [hcall] at he
          exact hhandled (Except.error.inj he ▸ hhandled')
        · rw [retryFrom, Act.tryExcept, hcall]
          simp only [hhandled]
          rfl
    · refine ⟨i, ⟨by omega, hfailed, Or.inr ?_⟩, ?_⟩
      · rintro ⟨e, he, -⟩
        rw [hcall] at he
        exact absurd he (by simp)
      · rw [retryFrom, Act.tryExcept, hcall]

end

theorem delay_le_max (i : ℕ) : p.delay i ≤ p.maxDelay := min_le_right _ _

theorem delay_mono (hbase : 0 ≤ p.baseDelay) {i j : ℕ} (hij : i ≤ j) : p.delay i ≤ p.delay j := by
  refine min_le_min_right _ (mul_le_mul_of_nonneg_left ?_ hbase)
  exact pow_le_pow_right₀ (by norm_num) hij

/-- What `async_retry` does, for every function and every sleep that does not raise: with at least
    one attempt there is exactly one last call (the first that does not raise a handled exception,
    or else the last one allowed), it is reached from the calls before it with one sleep after each,
    and the wrapper gives what it gives, in the state it leaves. The sleeps double from the base
    delay up to the bound. Without an attempt nothing is called, and the assertion raises. -/
theorem retry_schedule (nap : ℚ → σ → σ) (func : Act ε σ α) (s : σ) :
    (0 < p.attempts → ∃ k, p.LastCall nap func s k ∧ (∀ j, p.LastCall nap func s j → j = k) ∧
      p.asyncRetry assertion (fun d => Act.modify (nap d)) func s
        = func (p.before nap func s k)) ∧
    (p.attempts ≤ 0 →
      p.asyncRetry assertion (fun d => Act.modify (nap d)) func s = (.error assertion, s)) ∧
    (∀ i, p.delay i ≤ p.maxDelay) ∧
    (0 ≤ p.baseDelay → ∀ i j, i ≤ j → p.delay i ≤ p.delay j) := by
  refine ⟨fun hattempts => ?_, fun hnone => ?_, p.delay_le_max, fun hbase i j => p.delay_mono hbase⟩
  · have hleft : ((0 : ℕ) : ℤ) + ((p.attempts.toNat - 1 : ℕ) : ℤ) + 1 = p.attempts := by omega
    have hfailed : ∀ j < 0, p.Fails (func (p.before nap func s j)).1 :=
      fun j hj => absurd hj (Nat.not_lt_zero j)
    obtain ⟨k, hk, hrun⟩ := retryFrom_eq assertion _ 0 hleft none hfailed
    refine ⟨k, hk, fun j hj => hj.unique hk, Eq.trans ?_ hrun⟩
    have hsome : p.attempts.toNat - 1 + 1 = p.attempts.toNat := by omega
    rw [hsome, asyncRetry, pow_zero, mul_one, Nat.cast_zero, zero_add]
    rfl
  · rw [asyncRetry, Int.toNat_of_nonpos hnone]
    rfl

/-- Two failures and a success; the state counts the calls and notes the sleeps. -/
example :
    let func : Act String (ℕ × List ℚ) ℕ := fun s =>
      (if s.1 < 2 then .error "down" else .ok s.1, s.1 + 1, s.2)
    ({} : RetryPolicy String).asyncRetry "assertion"
        (fun d => Act.modify fun s => (s.1, s.2 ++ [d])) func (0, [])
      = (.ok 2, 3, [1 / 5, 2 / 5]) := by
  decide +kernel

end RetryPolicy

end TradingHub
