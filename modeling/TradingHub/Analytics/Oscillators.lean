import Mathlib.Tactic.NormNum
import TradingHub.Analytics.Division

set_option autoImplicit false

/-! # Bounded oscillators

RSI, both lines of the stochastic oscillator and ADX stay between 0 and 100. Each is made of averages
of values that are not negative, of ratios of these, and of averages of such ratios. -/

namespace TradingHub

open Library

namespace Indicators

/-- Every entry that is there is between the bounds. -/
def InRange {K : Type} [LE K] (lo hi : K) (out : List (Option K)) : Prop :=
  ∀ v, some v ∈ out → lo ≤ v ∧ v ≤ hi

theorem exists_of_mem_online_since {α β : Type} {first : ℕ} {val : List α → β} {xs : List α} {v : β}
    (h : some v ∈ online (since first val) xs) :
    ∃ n, n ≤ xs.length ∧ first ≤ n ∧ 0 < n ∧ v = val (xs.take n) := by
  obtain ⟨i, hi⟩ := List.mem_iff_getElem?.1 h
  obtain ⟨hlt, hfirst, rfl⟩ := getElem?_online_since hi
  exact ⟨i + 1, hlt, hfirst, Nat.succ_pos i, rfl⟩

/-- A line that is behind gaps. -/
theorem inRange_append {K : Type} [LE K] {lo hi : K} {k : ℕ} {out : List (Option K)}
    (h : InRange lo hi out) : InRange lo hi (List.replicate k none ++ out) := by
  intro v hv
  rcases List.mem_append.1 hv with hgap | hv
  · exact absurd (List.eq_of_mem_replicate hgap) (by simp)
  · exact h v hv

/-! ## RSI -/

section Rsi

variable {K : Type} [Scalar K] [LinearOrder K] [IsStrictOrderedRing K]

theorem rsiFrom_inRange {avgGain avgLoss : K} (hgain : 0 ≤ avgGain) (hloss : 0 ≤ avgLoss) :
    0 ≤ rsiFrom avgGain avgLoss ∧ rsiFrom avgGain avgLoss ≤ 100 := by
  rw [rsiFrom_eq]
  split
  · exact ⟨by norm_num, le_rfl⟩
  · have hrs : 0 ≤ avgGain / avgLoss := div_nonneg hgain hloss
    have hshare : 0 ≤ 100 / (1 + avgGain / avgLoss) := div_nonneg (by norm_num) (by linarith)
    have hle : 100 / (1 + avgGain / avgLoss) ≤ 100 := div_le_self (by norm_num) (by linarith)
    exact ⟨by linarith, by linarith⟩

theorem rsi_inRange (closes : List K) {period : ℕ} (hperiod : 0 < period) :
    InRange 0 100 (online (since (period + 1) fun p => rsiFrom (avgGain period p) (avgLoss period p))
      closes) := by
  intro v hv
  obtain ⟨n, hn, hlong, -, rfl⟩ := exists_of_mem_online_since hv
  obtain ⟨hgain, hloss⟩ := avg_nonneg hperiod (hlong.trans_eq (List.length_take_of_le hn).symm)
  exact rsiFrom_inRange hgain hloss

end Rsi

/-! ## Stochastic oscillator -/

theorem stochasticAt_inRange {p : List Candle} (hp : p ≠ []) (h : ∀ c ∈ p, ClosesInside c) :
    0 ≤ stochasticAt p ∧ stochasticAt p ≤ 100 := by
  unfold stochasticAt
  simp only
  split
  · next hrng =>
    have hlen : p.length - 1 < p.length := Nat.sub_lt (List.length_pos_iff.2 hp) (by decide)
    rw [List.getD_eq_getElem _ _ hlen]
    obtain ⟨c, hc, hmem⟩ : ∃ c, c = p[p.length - 1] ∧ c ∈ p := ⟨_, rfl, List.getElem_mem hlen⟩
    rw [← hc]
    have hhighest : c.high ≤ (p.map (·.high)).max?.getD 0 := by
      cases hmax : (p.map (·.high)).max? with
      | none => exact absurd (List.max?_eq_none_iff.1 hmax) (by simpa using hp)
      | some highest => exact (List.max?_eq_some_iff.1 hmax).2 _ (List.mem_map.2 ⟨c, hmem, rfl⟩)
    have hlowest : (p.map (·.low)).min?.getD 0 ≤ c.low := by
      cases hmin : (p.map (·.low)).min? with
      | none => exact absurd (List.min?_eq_none_iff.1 hmin) (by simpa using hp)
      | some lowest => exact (List.min?_eq_some_iff.1 hmin).2 _ (List.mem_map.2 ⟨c, hmem, rfl⟩)
    obtain ⟨hlow, hhigh⟩ := h c hmem
    rw [le_div_iff₀ hrng, div_le_iff₀ hrng]
    exact ⟨by linarith, by linarith⟩
  · exact ⟨le_rfl, by norm_num⟩

theorem stochasticK_inRange {candles : List Candle} (h : ∀ c ∈ candles, ClosesInside c)
    {kPeriod : ℕ} (hk : 0 < kPeriod) :
    InRange 0 100 (online (since kPeriod fun p => stochasticAt (window kPeriod p)) candles) := by
  intro v hv
  obtain ⟨n, hn, hlong, -, rfl⟩ := exists_of_mem_online_since hv
  refine stochasticAt_inRange (List.ne_nil_of_length_pos ?_) fun c hc =>
    h c (List.mem_of_mem_take (List.mem_of_mem_drop hc))
  rw [window, List.length_drop, List.length_take]
  omega

/-- A moving average of values in the range. -/
theorem mean_inRange {values : List ℚ} (h : ∀ v ∈ values, 0 ≤ v ∧ v ≤ 100) {period : ℕ}
    (hperiod : 0 < period) :
    InRange 0 100 (online (since period fun p => mean period (window period p)) values) := by
  intro v hv
  obtain ⟨n, hn, hlong, -, rfl⟩ := exists_of_mem_online_since hv
  exact mean_window_bounds hperiod (hlong.trans_eq (List.length_take_of_le hn).symm) fun w hw =>
    h w (List.mem_of_mem_take hw)

/-! ## ADX -/

theorem dxOf_inRange {a p m : ℚ} (ha : 0 ≤ a) (hp : 0 ≤ p) (hm : 0 ≤ m) :
    0 ≤ dxOf a p m ∧ dxOf a p m ≤ 100 := by
  unfold dxOf
  have hplus : 0 ≤ 100 * p / a := div_nonneg (by linarith) ha
  have hminus : 0 ≤ 100 * m / a := div_nonneg (by linarith) ha
  simp only
  split
  · next hdenom =>
    have habs : |100 * p / a - 100 * m / a| ≤ 100 * p / a + 100 * m / a :=
      abs_le.2 ⟨by linarith, by linarith⟩
    have habs' := abs_nonneg (100 * p / a - 100 * m / a)
    rw [le_div_iff₀ hdenom, div_le_iff₀ hdenom]
    exact ⟨by linarith, by linarith⟩
  · exact ⟨le_rfl, by norm_num⟩

theorem dxAt_inRange {period : ℕ} (hperiod : 0 < period) {p : List Candle}
    (h : ∀ c ∈ p, ClosesInside c) {v : ℚ} (hv : dxAt period p = some v) : 0 ≤ v ∧ v ≤ 100 := by
  have hnonneg : ∀ val : List Candle → ℚ, (∀ q, (∀ c ∈ q, ClosesInside c) → 0 ≤ val q) →
      ∀ s, smoothedAt period val p = some s → 0 ≤ s := by
    intro val hval s hs
    rw [smoothedAt, since] at hs
    split at hs
    · exact absurd hs (by simp)
    · next hlong =>
      obtain rfl := Option.some.inj hs
      refine le_smoothed hperiod (by omega) fun w hw => ?_
      obtain ⟨i, -, rfl⟩ := List.mem_map.1 hw
      exact hval _ fun c hc => h c (List.mem_of_mem_take hc)
  unfold dxAt dxEntry at hv
  split at hv
  · next a plus minus ha hplus hminus =>
    split at hv
    · exact absurd hv (by simp)
    · obtain rfl := Option.some.inj hv
      refine dxOf_inRange (hnonneg _ (fun q hq => trueRangeAt_nonneg hq) a ha)
        (hnonneg _ (fun q _ => ?_) plus hplus) (hnonneg _ (fun q _ => ?_) minus hminus)
      · rw [plusDmAt]
        split
        · next hmove => exact hmove.2.le
        · exact le_rfl
      · rw [minusDmAt]
        split
        · next hmove => exact hmove.2.le
        · exact le_rfl
  · exact absurd hv (by simp)

theorem adxLine_inRange {candles : List Candle} (h : ∀ c ∈ candles, ClosesInside c) {period : ℕ}
    (hperiod : 0 < period) : InRange 0 100 (adxLine period candles) := by
  refine inRange_append fun v hv => ?_
  obtain ⟨n, hn, hlong, -, rfl⟩ := exists_of_mem_online_since hv
  have hdx : ∀ w ∈ ((online (dxAt period) candles).reduceOption).take n, 0 ≤ w ∧ w ≤ 100 := by
    intro w hw
    obtain ⟨i, -, hi⟩ := List.mem_map.1 (List.reduceOption_mem_iff.1 (List.mem_of_mem_take hw))
    exact dxAt_inRange hperiod (fun c hc => h c (List.mem_of_mem_take hc)) hi
  have hlen : period ≤ (((online (dxAt period) candles).reduceOption).take n).length := by
    rw [List.length_take]
    omega
  exact ⟨le_smoothed hperiod hlen fun w hw => (hdx w hw).1,
    smoothed_le hperiod hlen fun w hw => (hdx w hw).2⟩

/-! ## The oscillators -/

/-- The oscillators return, also with a division that raises, and stay in range. -/
theorem oscillators_in_range (K : Type) [Scalar K] [LinearOrder K] [IsStrictOrderedRing K] :
    (∀ (closes : List K) (period : ℕ), 1 ≤ period →
      ∃ out, rsi closes period = .ok out ∧ Raising.rsi closes period = .ok out ∧ InRange 0 100 out) ∧
    (∀ (candles : List Candle) (kPeriod dPeriod : ℕ), (∀ c ∈ candles, ClosesInside c) →
      1 ≤ kPeriod → 1 ≤ dPeriod →
      ∃ k d, stochastic candles kPeriod dPeriod = .ok (k, d) ∧
        Raising.stochastic candles kPeriod dPeriod = .ok (k, d) ∧ InRange 0 100 k ∧ InRange 0 100 d) ∧
    (∀ (candles : List Candle) (period : ℕ), (∀ c ∈ candles, ClosesInside c) → 1 ≤ period →
      ∃ out, adx candles period = .ok out ∧ Raising.adx candles period = .ok out ∧
        InRange 0 100 out) := by
  refine ⟨fun closes period hperiod => ?_, fun candles kPeriod dPeriod h hk hd => ?_,
    fun candles period h hperiod => ?_⟩
  · have hrsi := rsi_eq closes hperiod
    exact ⟨_, hrsi, (Raising.rsi_eq closes period).trans hrsi, rsi_inRange closes hperiod⟩
  · have hstochastic := stochastic_eq candles hk hd
    have hrange := stochasticK_inRange h hk
    refine ⟨_, _, hstochastic, (Raising.stochastic_eq candles kPeriod dPeriod).trans hstochastic,
      hrange, inRange_append (mean_inRange (fun v hv => ?_) hd)⟩
    exact hrange v (List.reduceOption_mem_iff.1 hv)
  · have hadx := adx_eq candles hperiod
    exact ⟨_, hadx, (Raising.adx_eq candles period).trans hadx, adxLine_inRange h hperiod⟩

/-- RSI of a few closes, and ADX of a candle that moves. -/
theorem oscillators_in_range_closes :
    (∃ out, rsi [(1 : ℚ), 2, 4, 3] 2 = .ok out ∧ Raising.rsi [(1 : ℚ), 2, 4, 3] 2 = .ok out ∧
      InRange 0 100 out) ∧
    ∃ out, adx [moving] 1 = .ok out ∧ Raising.adx [moving] 1 = .ok out ∧ InRange 0 100 out :=
  ⟨(oscillators_in_range ℚ).1 _ 2 (by decide),
    (oscillators_in_range ℚ).2.2 [moving] 1 (by simp [ClosesInside, moving]; norm_num) le_rfl⟩

end Indicators

end TradingHub
