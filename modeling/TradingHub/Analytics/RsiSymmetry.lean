import Mathlib.Algebra.BigOperators.Ring.List
import Mathlib.Tactic.FieldSimp
import TradingHub.Analytics.Averages

set_option autoImplicit false

/-! # Symmetries of RSI

Stretching and shifting a series of closes scales its smoothed gain and loss by one factor, and
negating the series swaps the two. RSI is a ratio of the two, so the first leaves it as it is and
the second mirrors it at 50. -/

namespace TradingHub

open Library

namespace Indicators

variable {K : Type} [Scalar K]

/-! ## Gains and losses of a transformed series -/

theorem changes_affine (a b : K) (closes : List K) :
    changes (closes.map fun x => a * x + b) = (changes closes).map fun c => a * c := by
  unfold changes
  rw [← List.map_tail, List.zipWith_map, List.map_zipWith]
  congr 1
  funext prev c
  ring

/-- Wilder's smoothing is linear. -/
theorem smoothed_mul (a : K) (period : ℕ) (p : List K) :
    smoothed (wilderStep period) period (p.map fun c => a * c)
      = a * smoothed (wilderStep period) period p := by
  unfold smoothed
  have hseed : mean period ((p.map fun c => a * c).take period) = a * mean period (p.take period) := by
    rw [mean, mean, ← List.map_take, List.sum_map_mul_left, List.map_id', mul_div_assoc]
  rw [hseed, ← List.map_drop, List.foldl_map]
  generalize mean period (p.take period) = prev
  generalize p.drop period = rest
  induction rest generalizing prev with
  | nil => rfl
  | cons v rest ih =>
    have hstep : wilderStep period (a * prev) (a * v) = a * wilderStep period prev v := by
      unfold wilderStep
      ring
    rw [List.foldl_cons, List.foldl_cons, hstep]
    exact ih _

/-- A factor that goes through `f` goes through the smoothing of what `f` makes of the changes. -/
theorem smoothed_part_affine {a : K} (b : K) {f : K → K} (hf : ∀ c, f (a * c) = a * f c)
    (period : ℕ) (closes : List K) :
    smoothed (wilderStep period) period ((changes (closes.map fun x => a * x + b)).map f)
      = a * smoothed (wilderStep period) period ((changes closes).map f) := by
  rw [changes_affine, ← smoothed_mul, List.map_map, List.map_map]
  congr 1
  exact List.map_congr_left fun c _ => hf c

variable [LinearOrder K]

theorem avgGain_neg (period : ℕ) (closes : List K) :
    avgGain period (closes.map fun x => -x) = avgLoss period closes := by
  have hneg : (closes.map fun x => -x) = closes.map fun x => -1 * x + 0 := by
    simp
  unfold avgGain avgLoss
  rw [hneg, changes_affine, List.map_map]
  congr 1
  refine List.map_congr_left fun c _ => ?_
  simp

theorem avgLoss_neg (period : ℕ) (closes : List K) :
    avgLoss period (closes.map fun x => -x) = avgGain period closes := by
  rw [← avgGain_neg, List.map_map]
  congr 1
  simp

variable [IsStrictOrderedRing K]

theorem avgGain_affine {a : K} (ha : 0 < a) (b : K) (period : ℕ) (closes : List K) :
    avgGain period (closes.map fun x => a * x + b) = a * avgGain period closes := by
  refine smoothed_part_affine b (fun c => ?_) period closes
  rw [mul_max_of_nonneg _ _ ha.le, mul_zero]

theorem avgLoss_affine {a : K} (ha : 0 < a) (b : K) (period : ℕ) (closes : List K) :
    avgLoss period (closes.map fun x => a * x + b) = a * avgLoss period closes := by
  refine smoothed_part_affine b (fun c => ?_) period closes
  rw [mul_max_of_nonneg _ _ ha.le, mul_zero, mul_neg]

/-! ## The ratio -/

omit [IsStrictOrderedRing K] in
theorem rsiFrom_mul {a : K} (ha : a ≠ 0) (gain loss : K) :
    rsiFrom (a * gain) (a * loss) = rsiFrom gain loss := by
  simp only [rsiFrom_eq, mul_eq_zero, ha, false_or]
  rw [mul_div_mul_left _ _ ha]

/-- The two ratios are mirrored, unless neither has a loss. -/
theorem rsiFrom_add_swap {gain loss : K} (hgain : 0 ≤ gain) (hloss : 0 ≤ loss) :
    rsiFrom gain loss + rsiFrom loss gain = if gain = 0 ∧ loss = 0 then 200 else 100 := by
  rw [rsiFrom_eq, rsiFrom_eq]
  by_cases hg : gain = 0
  · by_cases hl : loss = 0
    · rw [if_pos hl, if_pos hg, if_pos ⟨hg, hl⟩]
      norm_num
    · rw [if_neg hl, if_pos hg, if_neg fun h => hl h.2]
      simp [hg]
  · by_cases hl : loss = 0
    · rw [if_pos hl, if_neg hg, if_neg fun h => hg h.1]
      simp [hl]
    · rw [if_neg hl, if_neg hg, if_neg fun h => hg h.1]
      have hsum : gain + loss ≠ 0 := (add_pos (lt_of_le_of_ne hgain (Ne.symm hg))
        (lt_of_le_of_ne hloss (Ne.symm hl))).ne'
      have hsum' : loss + gain ≠ 0 := add_comm gain loss ▸ hsum
      have hgains : (100 : K) / (1 + gain / loss) = 100 * loss / (loss + gain) := by
        rw [one_add_div hl, div_div_eq_mul_div]
      have hlosses : (100 : K) / (1 + loss / gain) = 100 * gain / (gain + loss) := by
        rw [one_add_div hg, div_div_eq_mul_div]
      show 100 - 100 / (1 + gain / loss) + (100 - 100 / (1 + loss / gain)) = 100
      rw [hgains, hlosses]
      field_simp
      ring

/-! ## RSI -/

/-- RSI of a stretched and shifted series is that of the series; RSI of the negated series is
    mirrored at 50, except where both the smoothed gain and the smoothed loss are zero. -/
theorem rsi_symmetries (K : Type) [Scalar K] [LinearOrder K] [IsStrictOrderedRing K]
    (closes : List K) (period : ℕ) (hperiod : 1 ≤ period) :
    (∀ a b : K, 0 < a → rsi (closes.map fun x => a * x + b) period = rsi closes period) ∧
    ∃ out mirrored, rsi closes period = .ok out ∧
      rsi (closes.map fun x => -x) period = .ok mirrored ∧
      ∀ (i : ℕ) (v : K), out[i]? = some (some v) → ∃ w, mirrored[i]? = some (some w) ∧
        v + w = if avgGain period (closes.take (i + 1)) = 0 ∧
            avgLoss period (closes.take (i + 1)) = 0 then 200 else 100 := by
  refine ⟨fun a b ha => ?_, _, _, rsi_eq closes hperiod, rsi_eq _ hperiod, fun i v hv => ?_⟩
  · rw [rsi_eq closes hperiod, rsi_eq _ hperiod]
    refine congrArg Except.ok (List.ext_getElem? fun i => ?_)
    rw [getElem?_online, getElem?_online, List.length_map]
    split
    · rw [← List.map_take, since, since, List.length_map, avgGain_affine ha, avgLoss_affine ha,
        rsiFrom_mul ha.ne']
    · rfl
  · obtain ⟨hlt, hfirst, rfl⟩ := getElem?_online_since hv
    have hlen : (closes.take (i + 1)).length = i + 1 := List.length_take_of_le hlt
    refine ⟨rsiFrom (avgLoss period (closes.take (i + 1))) (avgGain period (closes.take (i + 1))),
      ?_, ?_⟩
    · rw [getElem?_online, List.length_map, if_pos hlt, since, ← List.map_take, List.length_map, hlen,
        if_neg (not_lt.2 hfirst), avgGain_neg, avgLoss_neg]
    · obtain ⟨hgain, hloss⟩ := avg_nonneg hperiod (hfirst.trans_eq hlen.symm)
      exact rsiFrom_add_swap hgain hloss

/-- Closes that rise, fall and stand still. -/
theorem rsi_symmetries_closes :
    rsi [(1 : ℚ), 2, 4, 3] 2 = .ok [none, none, some 100, some 60] ∧
    rsi ([(1 : ℚ), 2, 4, 3].map fun x => -x) 2 = .ok [none, none, some 0, some 40] ∧
    rsi ([(1 : ℚ), 2, 4, 3].map fun x => 3 * x + 7) 2 = rsi [(1 : ℚ), 2, 4, 3] 2 :=
  ⟨by decide +kernel, by decide +kernel,
    (rsi_symmetries ℚ [1, 2, 4, 3] 2 (by decide)).1 3 7 (by decide)⟩

end Indicators

end TradingHub
