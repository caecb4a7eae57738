import Mathlib.Algebra.BigOperators.Ring.List
import TradingHub.Analytics.Smoothing

set_option autoImplicit false

/-! # Averages stay within their data

Each of the averages of `app/analytics/indicators.py` is a convex combination of the inputs so far:
the running sum of `sma` and the cumulative ratio of `vwap` in closed form, the steps of `ema` and
`wilder_smoothing` one by one. -/

namespace TradingHub

open Library

namespace Indicators

variable {K : Type} [LinearOrder K]

/-- Every entry that is there is between the least and the greatest input up to it. -/
def WithinData (values : List K) (out : List (Option K)) : Prop :=
  ∀ i v, out[i]? = some (some v) →
    ∃ lo hi, (values.take (i + 1)).min? = some lo ∧ (values.take (i + 1)).max? = some hi ∧
      lo ≤ v ∧ v ≤ hi

/-- What is between all bounds of the inputs is between the least and the greatest one. -/
theorem exists_min_max {p : List K} (hp : p ≠ []) {v : K}
    (h : ∀ lo hi, (∀ w ∈ p, lo ≤ w) → (∀ w ∈ p, w ≤ hi) → lo ≤ v ∧ v ≤ hi) :
    ∃ lo hi, p.min? = some lo ∧ p.max? = some hi ∧ lo ≤ v ∧ v ≤ hi := by
  cases hmin : p.min? with
  | none => exact absurd (List.min?_eq_none_iff.1 hmin) hp
  | some lo =>
    cases hmax : p.max? with
    | none => exact absurd (List.max?_eq_none_iff.1 hmax) hp
    | some hi =>
      exact ⟨lo, hi, rfl, rfl,
        h lo hi (List.min?_eq_some_iff.1 hmin).2 (List.max?_eq_some_iff.1 hmax).2⟩

/-- An output whose value is between all bounds of its inputs. -/
theorem withinData_online {first : ℕ} {val : List K → K}
    (h : ∀ p lo hi, first ≤ p.length → (∀ w ∈ p, lo ≤ w) → (∀ w ∈ p, w ≤ hi) →
      lo ≤ val p ∧ val p ≤ hi) (values : List K) :
    WithinData values (online (since first val) values) := by
  intro i v hv
  obtain ⟨hlt, hfirst, rfl⟩ := getElem?_online_since hv
  have hlen : (values.take (i + 1)).length = i + 1 := List.length_take_of_le hlt
  refine exists_min_max (List.ne_nil_of_length_eq_add_one hlen) fun lo hi hlo hhi => ?_
  exact h _ lo hi (hfirst.trans_eq hlen.symm) hlo hhi

/-! ## Steps that stay between -/

/-- A step of a smoothing that stays between all bounds of what it takes in. -/
def StaysBetween (step : K → K → K) : Prop :=
  ∀ lo hi prev v, lo ≤ prev → prev ≤ hi → lo ≤ v → v ≤ hi → lo ≤ step prev v ∧ step prev v ≤ hi

variable [Scalar K] [IsStrictOrderedRing K] {period : ℕ}

theorem emaStep_staysBetween (hperiod : 0 < period) : StaysBetween (emaStep period : K → K → K) := by
  intro lo hi prev v hlo hhi hlo' hhi'
  have hpos : (1 : K) ≤ period := Nat.one_le_cast.2 hperiod
  obtain ⟨m, hm⟩ : ∃ m : K, m = 2 / (period + 1) := ⟨_, rfl⟩
  have hm0 : 0 ≤ m := hm ▸ div_nonneg zero_le_two (by linarith)
  have hm1 : m ≤ 1 := by
    rw [hm, div_le_one (by linarith)]
    linarith
  -- The step has the weight `m` on the new value and `1 - m` on the old one.
  have hstep : emaStep period prev v = v * m + prev * (1 - m) := by
    rw [emaStep, ← hm]
    ring
  have hbound : ∀ b : K, b = b * m + b * (1 - m) := fun b => by ring
  have hm1' : 0 ≤ 1 - m := sub_nonneg.2 hm1
  rw [hstep]
  constructor
  · rw [hbound lo]
    exact add_le_add (mul_le_mul_of_nonneg_right hlo' hm0) (mul_le_mul_of_nonneg_right hlo hm1')
  · rw [hbound hi]
    exact add_le_add (mul_le_mul_of_nonneg_right hhi' hm0) (mul_le_mul_of_nonneg_right hhi hm1')

theorem wilderStep_staysBetween (hperiod : 0 < period) :
    StaysBetween (wilderStep period : K → K → K) :=
  fun _ _ _ _ hlo hhi hlo' hhi' =>
    ⟨le_wilderStep hperiod hlo hlo', wilderStep_le hperiod hhi hhi'⟩

/-- Smoothing behind the mean of the first inputs. -/
theorem smoothed_withinData {step : K → K → K} (hstep : StaysBetween step) (hperiod : 0 < period)
    (values : List K) : WithinData values (online (since period (smoothed step period)) values) := by
  refine withinData_online (fun p lo hi hlong hlo hhi => ?_) values
  refine smoothed_induction (I := fun a => lo ≤ a ∧ a ≤ hi) ?_ fun prev hprev v hv =>
    hstep lo hi prev v hprev.1 hprev.2 (hlo v hv) (hhi v hv)
  have hlen : (p.take period).length = period := List.length_take_of_le hlong
  exact ⟨le_mean hperiod hlen fun v hv => hlo v (List.mem_of_mem_take hv),
    mean_le hperiod hlen fun v hv => hhi v (List.mem_of_mem_take hv)⟩

/-- The mean of the last inputs. -/
theorem mean_withinData (hperiod : 0 < period) (values : List K) :
    WithinData values (online (since period fun p => mean period (window period p)) values) := by
  refine withinData_online (fun p lo hi hlong hlo hhi => ?_) values
  exact mean_window_bounds hperiod hlong fun v hv => ⟨hlo v hv, hhi v hv⟩

/-! ## The volume weighted price -/

/-- `(c.high + c.low + c.close) / 3`. -/
def typical (c : Candle) : ℚ := (c.high + c.low + c.close) / 3

theorem cumPv_bounds {p : List Candle} (hvolume : ∀ c ∈ p, 0 ≤ c.volume) {lo hi : ℚ}
    (hlo : ∀ c ∈ p, lo ≤ typical c) (hhi : ∀ c ∈ p, typical c ≤ hi) :
    lo * cumVol p ≤ cumPv p ∧ cumPv p ≤ hi * cumVol p := by
  unfold cumVol cumPv
  rw [← List.sum_map_mul_left, ← List.sum_map_mul_left]
  exact ⟨List.sum_le_sum fun c hc => mul_le_mul_of_nonneg_right (hlo c hc) (hvolume c hc),
    List.sum_le_sum fun c hc => mul_le_mul_of_nonneg_right (hhi c hc) (hvolume c hc)⟩

theorem vwapAt_eq_none_iff {p : List Candle} (hvolume : ∀ c ∈ p, 0 ≤ c.volume) :
    vwapAt p = none ↔ cumVol p = 0 := by
  have hnonneg : 0 ≤ cumVol p := List.sum_nonneg fun v hv => by
    obtain ⟨c, hc, rfl⟩ := List.mem_map.1 hv
    exact hvolume c hc
  unfold vwapAt
  split
  · next hpos => exact iff_of_false (by simp) hpos.ne'
  · next hzero => exact iff_of_true rfl (le_antisymm (not_lt.1 hzero) hnonneg)

/-- The volume of more candles is at least as large. -/
theorem cumVol_take_mono {candles : List Candle} (hvolume : ∀ c ∈ candles, 0 ≤ c.volume) {m n : ℕ}
    (h : m ≤ n) : cumVol (candles.take m) ≤ cumVol (candles.take n) := by
  unfold cumVol
  refine List.Sublist.sum_le_sum ((List.take_sublist_take_left h).map _) fun v hv => ?_
  obtain ⟨c, hc, rfl⟩ := List.mem_map.1 hv
  exact hvolume c (List.mem_of_mem_take hc)

/-- The volume weighted price is there once there is volume, and stays within the typical prices. -/
theorem vwap_withinData {candles : List Candle} (hvolume : ∀ c ∈ candles, 0 ≤ c.volume) :
    WithinData (candles.map typical) (vwap candles) := by
  intro i v hv
  rw [vwap_eq, getElem?_online] at hv
  split at hv
  · next hlt =>
    have hv := Option.some.inj hv
    unfold vwapAt at hv
    split at hv
    · next hpos =>
      obtain rfl := Option.some.inj hv
      rw [← List.map_take]
      have hlen : (candles.take (i + 1)).length = i + 1 := List.length_take_of_le hlt
      have hne : candles.take (i + 1) ≠ [] := List.ne_nil_of_length_eq_add_one hlen
      refine exists_min_max (by simpa using hne) fun lo hi hlo hhi => ?_
      rw [le_div_iff₀ hpos, div_le_iff₀ hpos]
      exact cumPv_bounds (fun c hc => hvolume c (List.mem_of_mem_take hc))
        (fun c hc => hlo _ (List.mem_map_of_mem hc)) fun c hc => hhi _ (List.mem_map_of_mem hc)
    · exact absurd hv (by simp)
  · exact absurd hv (by simp)

theorem getElem?_vwap_none_iff {candles : List Candle} (hvolume : ∀ c ∈ candles, 0 ≤ c.volume) {i : ℕ}
    (hi : i < candles.length) :
    (vwap candles)[i]? = some none ↔ cumVol (candles.take (i + 1)) = 0 := by
  rw [vwap_eq, getElem?_online, if_pos hi, Option.some_inj]
  exact vwapAt_eq_none_iff fun c hc => hvolume c (List.mem_of_mem_take hc)

/-! ## The averages -/

/-- The averages are between the least and the greatest of their inputs so far; the volume weighted
    price is missing just while there is no volume. -/
theorem averages_within_data (K : Type) [Scalar K] [LinearOrder K] [IsStrictOrderedRing K] :
    (∀ (values : List K) (period : ℕ), 1 ≤ period →
      (∃ out, sma values period = .ok out ∧ WithinData values out) ∧
      (∃ out, ema values period = .ok out ∧ WithinData values out) ∧
      ∃ out, wilderSmoothing values period = .ok out ∧ WithinData values out) ∧
    ∀ candles : List Candle, (∀ c ∈ candles, 0 ≤ c.volume) →
      WithinData (candles.map typical) (vwap candles) ∧
      (∀ i, i < candles.length →
        ((vwap candles)[i]? = some none ↔ cumVol (candles.take (i + 1)) = 0)) ∧
      ∀ i j, i ≤ j → j < candles.length → (vwap candles)[i]? ≠ some none →
        (vwap candles)[j]? ≠ some none := by
  refine ⟨fun values period hperiod => ⟨?_, ?_, ?_⟩, fun candles hvolume => ⟨?_, ?_, ?_⟩⟩
  · exact ⟨_, sma_eq values hperiod, mean_withinData hperiod values⟩
  · exact ⟨_, ema_eq values hperiod,
      smoothed_withinData (emaStep_staysBetween hperiod) hperiod values⟩
  · exact ⟨_, wilderSmoothing_eq values hperiod,
      smoothed_withinData (wilderStep_staysBetween hperiod) hperiod values⟩
  · exact vwap_withinData hvolume
  · exact fun i hi => getElem?_vwap_none_iff hvolume hi
  · intro i j hij hj hdefined hmissing
    rw [Ne, getElem?_vwap_none_iff hvolume (hij.trans_lt hj)] at hdefined
    rw [getElem?_vwap_none_iff hvolume hj] at hmissing
    have hle := cumVol_take_mono hvolume (Nat.succ_le_succ hij)
    have hnonneg : 0 ≤ cumVol (candles.take (i + 1)) :=
      cumVol_take_mono hvolume (Nat.zero_le (i + 1))
    exact hdefined (le_antisymm (hle.trans hmissing.le) hnonneg)

/-- Two candles without volume, and two with. -/
theorem averages_within_data_candles :
    let candles : List Candle := [⟨0, 10, 12, 8, 10, 0⟩, ⟨1, 10, 12, 8, 10, 0⟩,
      ⟨2, 10, 14, 10, 12, 3⟩, ⟨3, 12, 13, 9, 11, 1⟩]
    vwap candles = [none, none, some 12, some (47 / 4)] ∧
      WithinData (candles.map typical) (vwap candles) ∧
      ∃ out, sma [(1 : ℚ), 2, 6] 2 = .ok out ∧ WithinData [(1 : ℚ), 2, 6] out := by
  intro candles
  exact ⟨by decide +kernel, ((averages_within_data ℚ).2 candles (by decide +kernel)).1,
    ((averages_within_data ℚ).1 [1, 2, 6] 2 (by decide)).1⟩

end Indicators

end TradingHub
