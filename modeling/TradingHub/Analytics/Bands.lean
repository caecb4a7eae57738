import Mathlib.Analysis.Real.Sqrt
import Mathlib.Tactic.NormNum
import TradingHub.Analytics.Online

set_option autoImplicit false

/-! # Bands around the mean

`sma` keeps a running sum, `bollinger_bands` cuts its windows out of the closes. Both refer to the
same `period` values at every index, so the bands lie around the mean of exactly the values whose
variance they are drawn from. -/

namespace TradingHub

open Library

namespace Indicators

/-! ## Windows -/

theorem length_slice {α : Type} {xs : List α} {period i : ℕ} (hperiod : period ≤ i + 1)
    (hi : i < xs.length) : (slice xs (i + 1 - period) (i + 1)).length = period := by
  rw [slice, List.length_drop, List.length_take]
  omega

theorem variance_nonneg (period : ℕ) (values : List ℝ) : 0 ≤ variance period values := by
  refine div_nonneg (List.sum_nonneg fun x hx => ?_) (Nat.cast_nonneg period)
  obtain ⟨v, -, rfl⟩ := List.mem_map.1 hx
  exact sq_nonneg _

/-- A band at the distance of `d` standard deviations of a window. -/
theorem sq_band_sub_mean (period : ℕ) (d : ℝ) (p : List ℝ) :
    (band Real.sqrt period d p - mean period (window period p)) ^ 2
      = d ^ 2 * variance period (window period p) := by
  rw [band, add_sub_cancel_left, mul_pow, Real.sq_sqrt (variance_nonneg _ _)]

/-! ## The bands -/

/-- The moving average is the mean of the window, and missing before there is one. The bands are
    there where the average is, on both sides of it, and their distance from it squared is the
    population variance of the same window, times the square of the factor. -/
theorem bollinger_bands_around_mean (closes : List ℝ) {period : ℕ} (hperiod : 1 ≤ period)
    (numStd : ℝ) :
    ∃ upper middle lower : List (Option ℝ),
      sma closes period = .ok middle ∧
      bollingerBands Real.sqrt closes period numStd = .ok (upper, middle, lower) ∧
      middle.length = closes.length ∧ upper.length = closes.length ∧
      lower.length = closes.length ∧
      (∀ i, i < closes.length → i < period - 1 →
        middle[i]? = some none ∧ upper[i]? = some none ∧ lower[i]? = some none) ∧
      (∀ i, i < closes.length → period - 1 ≤ i →
        let values := slice closes (i + 1 - period) (i + 1)
        let mean : ℝ := values.sum / period
        let variance : ℝ := (values.map fun x : ℝ => (x - mean) ^ 2).sum / period
        values.length = period ∧ ∃ u l, middle[i]? = some (some mean) ∧
          upper[i]? = some (some u) ∧ lower[i]? = some (some l) ∧
          (0 ≤ numStd → l ≤ mean ∧ mean ≤ u) ∧
          (u - mean) ^ 2 = numStd ^ 2 * variance ∧ (mean - l) ^ 2 = numStd ^ 2 * variance) := by
  refine ⟨_, _, _, sma_eq closes hperiod, bollingerBands_eq Real.sqrt closes hperiod numStd,
    length_online _ _, length_online _ _, length_online _ _, fun i hi hshort => ?_,
    fun i hi hlong => ?_⟩
  · rw [getElem?_since _ _ hi, getElem?_since _ _ hi, getElem?_since _ _ hi, if_pos (by omega),
      if_pos (by omega), if_pos (by omega)]
    exact ⟨rfl, rfl, rfl⟩
  · intro values mean variance
    have hvalues : values = window period (closes.take (i + 1)) := slice_eq_window hi
    have hmean : mean = Indicators.mean period (window period (closes.take (i + 1))) := by
      rw [← hvalues]
      rfl
    have hvariance : variance
        = Indicators.variance period (window period (closes.take (i + 1))) := by
      rw [← hvalues]
      rfl
    have hstd : 0 ≤ √variance := Real.sqrt_nonneg variance
    have hband : ∀ d, band Real.sqrt period d (closes.take (i + 1)) = mean + d * √variance :=
      fun d => by rw [band, hmean, hvariance]
    have hsq : ∀ d, (mean + d * √variance - mean) ^ 2 = d ^ 2 * variance := by
      intro d
      rw [← hband, hmean, hvariance]
      exact sq_band_sub_mean period d (closes.take (i + 1))
    refine ⟨length_slice (by omega) hi, mean + numStd * √variance, mean + -numStd * √variance, ?_, ?_,
      ?_, fun hnumStd => ⟨?_, ?_⟩, hsq numStd, ?_⟩
    · rw [getElem?_since _ _ hi, if_neg (by omega), hmean]
    · rw [getElem?_since _ _ hi, if_neg (by omega), hband]
    · rw [getElem?_since _ _ hi, if_neg (by omega), hband]
    · rw [neg_mul]
      exact add_le_of_nonpos_right (neg_nonpos.2 (mul_nonneg hnumStd hstd))
    · exact le_add_of_nonneg_right (mul_nonneg hnumStd hstd)
    · rw [← neg_sq, neg_sub, hsq, neg_sq]

/-- Five closes with windows of three. -/
theorem bollinger_bands_around_mean_five :
    ∃ upper middle lower : List (Option ℝ),
      sma [1, 2, 3, 4, 5] 3 = .ok middle ∧
      bollingerBands Real.sqrt [1, 2, 3, 4, 5] 3 2 = .ok (upper, middle, lower) ∧
      ∃ u l, middle[4]? = some (some 4) ∧ upper[4]? = some (some u) ∧
        lower[4]? = some (some l) ∧ l ≤ 4 ∧ 4 ≤ u := by
  obtain ⟨upper, middle, lower, hsma, hbands, -, -, -, -, hvalues⟩ :=
    bollinger_bands_around_mean [1, 2, 3, 4, 5] (show 1 ≤ 3 by decide) 2
  obtain ⟨-, u, l, hm, hu, hl, hle, -⟩ := hvalues 4 (by simp) (by decide)
  have hmean : (slice [(1 : ℝ), 2, 3, 4, 5] (4 + 1 - 3) (4 + 1)).sum / ((3 : ℕ) : ℝ) = 4 := by
    norm_num [slice]
  rw [hmean] at hm hle
  exact ⟨upper, middle, lower, hsma, hbands, u, l, hm, hu, hl, hle (by norm_num)⟩

end Indicators

end TradingHub
