import Mathlib.Algebra.Order.BigOperators.Group.List
import Mathlib.Algebra.Order.Field.Basic
import Mathlib.Tactic.Linarith
import TradingHub.Analytics.Online

set_option autoImplicit false

/-! # What smoothing preserves

The mean of a window and Wilder's smoothing stay between the bounds of the values they take in, and
Wilder's smoothing with a period of two or more stays positive on values that are not negative. -/

namespace TradingHub

open Library

namespace Indicators

variable {K : Type} [Scalar K]

/-! ## The recursion -/

theorem smoothed_concat (step : K → K → K) {period : ℕ} {p : List K} (hlong : period ≤ p.length)
    (v : K) : smoothed step period (p ++ [v]) = step (smoothed step period p) v := by
  rw [smoothed, smoothed, List.drop_append_of_le_length hlong,
    List.take_append_of_le_length hlong, List.foldl_concat]

/-- What holds of the seed and is kept by the values holds of the smoothing. -/
theorem smoothed_induction {I : K → Prop} {step : K → K → K} {period : ℕ} {p : List K}
    (hseed : I (mean period (p.take period))) (hstep : ∀ prev, I prev → ∀ v ∈ p, I (step prev v)) :
    I (smoothed step period p) := by
  have hrest : ∀ v ∈ p.drop period, v ∈ p := fun v hv => List.mem_of_mem_drop hv
  unfold smoothed
  generalize mean period (p.take period) = prev at hseed
  generalize p.drop period = rest at hrest
  induction rest generalizing prev with
  | nil => exact hseed
  | cons v rest ih =>
    exact ih _ (hstep prev hseed v (hrest v (by simp))) fun w hw => hrest w (by simp [hw])

/-! ## Bounds -/

variable [LinearOrder K] [IsStrictOrderedRing K] {period : ℕ} {p : List K} {lo hi : K}

theorem le_mean (hperiod : 0 < period) (hlen : p.length = period) (h : ∀ v ∈ p, lo ≤ v) :
    lo ≤ mean period p := by
  have hpos : (0 : K) < period := Nat.cast_pos.2 hperiod
  have hsum := List.card_nsmul_le_sum p lo h
  rw [hlen, nsmul_eq_mul, mul_comm] at hsum
  exact (le_div_iff₀ hpos).2 hsum

theorem mean_le (hperiod : 0 < period) (hlen : p.length = period) (h : ∀ v ∈ p, v ≤ hi) :
    mean period p ≤ hi := by
  have hpos : (0 : K) < period := Nat.cast_pos.2 hperiod
  have hsum := List.sum_le_card_nsmul p hi h
  rw [hlen, nsmul_eq_mul, mul_comm] at hsum
  exact (div_le_iff₀ hpos).2 hsum

/-- The mean of the last inputs. -/
theorem mean_window_bounds (hperiod : 0 < period) (hlong : period ≤ p.length)
    (h : ∀ v ∈ p, lo ≤ v ∧ v ≤ hi) :
    lo ≤ mean period (window period p) ∧ mean period (window period p) ≤ hi := by
  have hlen : (window period p).length = period := by
    rw [window, List.length_drop]
    omega
  exact ⟨le_mean hperiod hlen fun v hv => (h v (List.mem_of_mem_drop hv)).1,
    mean_le hperiod hlen fun v hv => (h v (List.mem_of_mem_drop hv)).2⟩

theorem le_wilderStep (hperiod : 0 < period) {prev v : K} (hprev : lo ≤ prev) (hv : lo ≤ v) :
    lo ≤ wilderStep period prev v := by
  have hpos : (1 : K) ≤ period := Nat.one_le_cast.2 hperiod
  rw [wilderStep, le_div_iff₀ (by linarith)]
  have hmul := mul_le_mul_of_nonneg_right hprev (sub_nonneg.2 hpos)
  linarith

theorem wilderStep_le (hperiod : 0 < period) {prev v : K} (hprev : prev ≤ hi) (hv : v ≤ hi) :
    wilderStep period prev v ≤ hi := by
  have hpos : (1 : K) ≤ period := Nat.one_le_cast.2 hperiod
  rw [wilderStep, div_le_iff₀ (by linarith)]
  have hmul := mul_le_mul_of_nonneg_right hprev (sub_nonneg.2 hpos)
  linarith

theorem wilderStep_pos (hperiod : 2 ≤ period) {prev v : K} (hprev : 0 < prev) (hv : 0 ≤ v) :
    0 < wilderStep period prev v := by
  have hpos : (2 : K) ≤ period := Nat.ofNat_le_cast.2 hperiod
  have hmul : 0 < prev * ((period : K) - 1) := mul_pos hprev (by linarith)
  exact div_pos (by linarith) (by linarith)

theorem le_smoothed (hperiod : 0 < period) (hlong : period ≤ p.length) (h : ∀ v ∈ p, lo ≤ v) :
    lo ≤ smoothed (wilderStep period) period p := by
  refine smoothed_induction (I := fun a => lo ≤ a) ?_ fun prev hprev v hv =>
    le_wilderStep hperiod hprev (h v hv)
  exact le_mean hperiod (List.length_take_of_le hlong) fun v hv => h v (List.mem_of_mem_take hv)

theorem smoothed_le (hperiod : 0 < period) (hlong : period ≤ p.length) (h : ∀ v ∈ p, v ≤ hi) :
    smoothed (wilderStep period) period p ≤ hi := by
  refine smoothed_induction (I := fun a => a ≤ hi) ?_ fun prev hprev v hv =>
    wilderStep_le hperiod hprev (h v hv)
  exact mean_le hperiod (List.length_take_of_le hlong) fun v hv => h v (List.mem_of_mem_take hv)

/-- Gains and losses are smoothed without a sign. -/
theorem avg_nonneg (hperiod : 0 < period) {closes : List K}
    (hlong : period + 1 ≤ closes.length) : 0 ≤ avgGain period closes ∧ 0 ≤ avgLoss period closes := by
  have hpart : ∀ f : K → K, (∀ c, 0 ≤ f c) →
      0 ≤ smoothed (wilderStep period) period ((changes closes).map f) := by
    intro f hf
    refine le_smoothed hperiod (by rw [List.length_map, length_changes]; omega) fun v hv => ?_
    obtain ⟨c, -, rfl⟩ := List.mem_map.1 hv
    exact hf c
  exact ⟨hpart _ fun c => le_max_right c 0, hpart _ fun c => le_max_right (-c) 0⟩

omit [LinearOrder K] [IsStrictOrderedRing K] in
/-- With a period of one, nothing is smoothed. -/
theorem smoothed_one (p : List K) (v : K) : smoothed (wilderStep 1) 1 (p ++ [v]) = v := by
  by_cases hp : p = []
  · simp [hp, smoothed, mean]
  · rw [smoothed_concat _ (List.length_pos_iff.2 hp), wilderStep]
    simp

end Indicators

end TradingHub
