import TradingHub.Analytics.Adx
import TradingHub.Analytics.RsiSymmetry
import TradingHub.Analytics.SuperTrend

set_option autoImplicit false

/-! # Units of a chart

An indicator reads the same in any currency. When the prices of all candles are stretched by a
positive factor and shifted, the volumes are stretched and the clock is another, a line that runs
along the prices is stretched and shifted as they are, a distance between prices is stretched, and
an index without a unit stays as it is. Each indicator is put together from values on the prefixes
of its input, so it is enough to carry these over (`online_map`). -/

namespace TradingHub

open Library

/-- The candle with its prices stretched by `a` and shifted by `b`, its volume stretched by `v`, and
    another time. -/
def Candle.restate (a b v : ℚ) (time : ℤ → ℤ) (c : Candle) : Candle :=
  ⟨time c.timestamp, a * c.open + b, a * c.high + b, a * c.low + b, a * c.close + b, v * c.volume⟩

namespace Indicators

/-! ## Averages of the closes -/

section Closes

variable {K : Type} [Scalar K] [LinearOrder K] [IsStrictOrderedRing K] {a b : K} {period : ℕ}

/-- A value that is there once there are `first` inputs. -/
theorem since_map {α β γ δ : Type} {first : ℕ} {f : α → γ} {h : β → δ} {val : List α → β}
    {val' : List γ → δ} (hval : ∀ p, first ≤ p.length → val' (p.map f) = h (val p)) (p : List α) :
    since first val' (p.map f) = (since first val p).map h := by
  unfold since
  rw [List.length_map]
  split
  · rfl
  · next hlong => rw [hval p (not_lt.1 hlong), Option.map_some]

theorem window_map {α β : Type} (f : α → β) (period : ℕ) (p : List α) :
    window period (p.map f) = (window period p).map f := by
  rw [window, window, List.length_map, List.map_drop]

theorem mean_affine (hperiod : 0 < period) {p : List K} (hlen : p.length = period) :
    mean period (p.map fun x => a * x + b) = a * mean period p + b := by
  have hne : (period : K) ≠ 0 := Nat.cast_ne_zero.2 hperiod.ne'
  rw [mean, mean, List.sum_map_add, List.sum_map_mul_left, List.map_id', List.map_const',
    List.sum_replicate, hlen, nsmul_eq_mul, add_div, mul_div_assoc, mul_div_cancel_left₀ _ hne]

/-- Smoothing by a step that is carried over. -/
theorem smoothed_affine {step : K → K → K} (hperiod : 0 < period)
    (hstep : ∀ prev v, step (a * prev + b) (a * v + b) = a * step prev v + b) {p : List K}
    (hlong : period ≤ p.length) :
    smoothed step period (p.map fun x => a * x + b) = a * smoothed step period p + b := by
  have hlen : (p.take period).length = period := List.length_take_of_le hlong
  rw [smoothed, smoothed, ← List.map_take, ← List.map_drop, mean_affine hperiod hlen,
    List.foldl_map]
  generalize mean period (p.take period) = prev
  generalize p.drop period = rest
  induction rest generalizing prev with
  | nil => rfl
  | cons v rest ih =>
    rw [List.foldl_cons, List.foldl_cons, hstep]
    exact ih _

omit [LinearOrder K] [IsStrictOrderedRing K] in
theorem emaStep_affine (period : ℕ) (prev v : K) :
    emaStep period (a * prev + b) (a * v + b) = a * emaStep period prev v + b := by
  unfold emaStep
  ring

theorem sma_affine (a b : K) (period : ℕ) (closes : List K) :
    sma (closes.map fun x => a * x + b) period
      = (sma closes period).map (List.map (Option.map fun x => a * x + b)) := by
  rcases Nat.eq_zero_or_pos period with rfl | hperiod
  · rfl
  · rw [sma_eq _ hperiod, sma_eq _ hperiod]
    refine congrArg Except.ok (online_map (since_map fun p hlong => ?_) closes)
    rw [window_map]
    exact mean_affine hperiod (by rw [window, List.length_drop]; omega)

/-- The average that the MACD is made of. -/
theorem emaLine_affine (a b : K) (hperiod : 0 < period) (closes : List K) :
    online (since period (smoothed (emaStep period) period)) (closes.map fun x => a * x + b)
      = (online (since period (smoothed (emaStep period) period)) closes).map
          (Option.map fun x => a * x + b) :=
  online_map (since_map fun _ hlong => smoothed_affine hperiod (emaStep_affine period) hlong) closes

theorem ema_affine (a b : K) (period : ℕ) (closes : List K) :
    ema (closes.map fun x => a * x + b) period
      = (ema closes period).map (List.map (Option.map fun x => a * x + b)) := by
  rcases Nat.eq_zero_or_pos period with rfl | hperiod
  · rfl
  · rw [ema_eq _ hperiod, ema_eq _ hperiod]
    exact congrArg Except.ok (emaLine_affine a b hperiod closes)

/-- A difference of two averages forgets the shift. -/
theorem macdLine_affine (a b : K) {fast slow : ℕ} (hfast : 0 < fast) (hslow : 0 < slow)
    (closes : List K) :
    macdLine fast slow (closes.map fun x => a * x + b)
      = (macdLine fast slow closes).map (Option.map fun x => a * x) := by
  unfold macdLine
  rw [emaLine_affine a b hfast, emaLine_affine a b hslow, List.zipWith_map, List.map_zipWith]
  congr 1
  funext f s
  cases f with
  | none => rfl
  | some f =>
    cases s with
    | none => rfl
    | some s =>
      simp only [Option.map_some, Option.map₂_some_some]
      exact congrArg some (by ring)

theorem rsi_affine {a : K} (ha : 0 < a) (b : K) (period : ℕ) (closes : List K) :
    rsi (closes.map fun x => a * x + b) period = rsi closes period := by
  rcases Nat.eq_zero_or_pos period with rfl | hperiod
  · rfl
  · rw [rsi_eq _ hperiod, rsi_eq _ hperiod]
    refine congrArg Except.ok ((online_map (h := id) (fun p => ?_) closes).trans (List.map_id _))
    rw [since, since, List.length_map, avgGain_affine ha, avgLoss_affine ha, rsiFrom_mul ha.ne', id]

end Closes

/-! ## Distances between prices -/

section Candles

variable {a b v : ℚ} {time : ℤ → ℤ} {period : ℕ}

theorem closes_restate (a b v : ℚ) (time : ℤ → ℤ) (candles : List Candle) :
    (candles.map (Candle.restate a b v time)).map (·.close)
      = (candles.map (·.close)).map fun x => a * x + b := by
  rw [List.map_map, List.map_map]
  rfl

theorem getD_restate {p : List Candle} {i : ℕ} (hi : i < p.length) :
    (p.map (Candle.restate a b v time)).getD i default
      = (p.getD i default).restate a b v time := by
  rw [List.getD_eq_getElem _ _ (by rwa [List.length_map]), List.getD_eq_getElem _ _ hi,
    List.getElem_map]

theorem sub_affine (a b x y : ℚ) : a * x + b - (a * y + b) = a * (x - y) := by
  ring

theorem trueRangeAt_restate (ha : 0 < a) (p : List Candle) :
    trueRangeAt (p.map (Candle.restate a b v time)) = a * trueRangeAt p := by
  by_cases hp : p = []
  · subst hp
    simp [trueRangeAt, default]
  · have hpos := List.length_pos_iff.2 hp
    unfold trueRangeAt
    simp only [List.length_map]
    rw [getD_restate (by omega), getD_restate (by omega)]
    simp only [Candle.restate, sub_affine, abs_mul, abs_of_pos ha]
    split
    · rfl
    · rw [mul_max_of_nonneg _ _ ha.le, mul_max_of_nonneg _ _ ha.le]

theorem upMove_restate (p : List Candle) :
    upMove (p.map (Candle.restate a b v time)) = a * upMove p := by
  by_cases hp : p = []
  · subst hp
    simp [upMove]
  · have hpos := List.length_pos_iff.2 hp
    rw [upMove, upMove, List.length_map, getD_restate (by omega), getD_restate (by omega)]
    exact sub_affine a b _ _

theorem downMove_restate (p : List Candle) :
    downMove (p.map (Candle.restate a b v time)) = a * downMove p := by
  by_cases hp : p = []
  · subst hp
    simp [downMove]
  · have hpos := List.length_pos_iff.2 hp
    rw [downMove, downMove, List.length_map, getD_restate (by omega), getD_restate (by omega)]
    exact sub_affine a b _ _

theorem plusDmAt_restate (ha : 0 < a) (p : List Candle) :
    plusDmAt (p.map (Candle.restate a b v time)) = a * plusDmAt p := by
  rw [plusDmAt, plusDmAt, upMove_restate, downMove_restate]
  simp only [mul_lt_mul_iff_right₀ ha, mul_pos_iff_of_pos_left ha, mul_ite, mul_zero]

theorem minusDmAt_restate (ha : 0 < a) (p : List Candle) :
    minusDmAt (p.map (Candle.restate a b v time)) = a * minusDmAt p := by
  rw [minusDmAt, minusDmAt, upMove_restate, downMove_restate]
  simp only [mul_lt_mul_iff_right₀ ha, mul_pos_iff_of_pos_left ha, mul_ite, mul_zero]

/-- A distance is smoothed as a distance. -/
theorem smoothedAt_restate {val : List Candle → ℚ}
    (hval : ∀ p, val (p.map (Candle.restate a b v time)) = a * val p) (p : List Candle) :
    smoothedAt period val (p.map (Candle.restate a b v time))
      = (smoothedAt period val p).map fun x => a * x := by
  rw [smoothedAt, smoothedAt, online_map hval]
  exact since_map (fun q _ => smoothed_mul a period q) _

theorem atrAt_restate (ha : 0 < a) (p : List Candle) :
    atrAt period (p.map (Candle.restate a b v time)) = (atrAt period p).map fun x => a * x := by
  have hsmoothed : smoothedAt period trueRangeAt (p.map (Candle.restate a b v time))
      = (smoothedAt period trueRangeAt p).map fun x => a * x :=
    smoothedAt_restate (trueRangeAt_restate ha) p
  rwa [smoothedAt, smoothedAt, ← trueRange_eq, ← trueRange_eq] at hsmoothed

theorem atr_restate (ha : 0 < a) (candles : List Candle) (period : ℕ) :
    atr (candles.map (Candle.restate a b v time)) period
      = (atr candles period).map (List.map (Option.map fun x => a * x)) := by
  rcases Nat.eq_zero_or_pos period with rfl | hperiod
  · rfl
  · rw [atr_eq _ hperiod, atr_eq _ hperiod]
    exact congrArg Except.ok (online_map (atrAt_restate ha) candles)

/-! ## Indices without a unit -/

theorem dxOf_mul (ha : 0 < a) (x p m : ℚ) : dxOf (a * x) (a * p) (a * m) = dxOf x p m := by
  unfold dxOf
  rw [mul_left_comm 100 a p, mul_left_comm 100 a m, mul_div_mul_left _ _ ha.ne',
    mul_div_mul_left _ _ ha.ne']

theorem dxEntry_map (ha : 0 < a) (x p m : Option ℚ) :
    dxEntry (x.map fun r => a * r) (p.map fun r => a * r) (m.map fun r => a * r)
      = dxEntry x p m := by
  cases x with
  | none => rfl
  | some x =>
    cases p with
    | none => rfl
    | some p =>
      cases m with
      | none => rfl
      | some m => simp only [Option.map_some, dxEntry, mul_eq_zero, ha.ne', false_or, dxOf_mul ha]

theorem dxAt_restate (ha : 0 < a) (p : List Candle) :
    dxAt period (p.map (Candle.restate a b v time)) = dxAt period p := by
  rw [dxAt, dxAt, smoothedAt_restate (trueRangeAt_restate ha),
    smoothedAt_restate (plusDmAt_restate ha), smoothedAt_restate (minusDmAt_restate ha),
    dxEntry_map ha]

theorem adx_restate (ha : 0 < a) (candles : List Candle) (period : ℕ) :
    adx (candles.map (Candle.restate a b v time)) period = adx candles period := by
  rcases Nat.eq_zero_or_pos period with rfl | hperiod
  · simp [adx, adxWith, dxWith, wilderSmoothingWith, require, bind, Except.bind]
  · have hdx : online (dxAt period) (candles.map (Candle.restate a b v time))
        = online (dxAt period) candles :=
      (online_map (h := id) (dxAt_restate ha) candles).trans (List.map_id _)
    rw [adx_eq _ hperiod, adx_eq _ hperiod, adxLine, adxLine, hdx, List.length_map]

/-- The highest price of a window, and with the order turned around the lowest. -/
theorem foldl_affine {op : ℚ → ℚ → ℚ} (hop : ∀ x y, op (a * x + b) (a * y + b) = a * op x y + b)
    (x : ℚ) (xs : List ℚ) :
    (xs.map fun x => a * x + b).foldl op (a * x + b) = a * xs.foldl op x + b := by
  induction xs generalizing x with
  | nil => rfl
  | cons y xs ih =>
    rw [List.map_cons, List.foldl_cons, List.foldl_cons, hop]
    exact ih _

theorem max_affine (ha : 0 < a) (b x y : ℚ) : max (a * x + b) (a * y + b) = a * max x y + b := by
  rw [max_add_add_right, mul_max_of_nonneg _ _ ha.le]

theorem min_affine (ha : 0 < a) (b x y : ℚ) : min (a * x + b) (a * y + b) = a * min x y + b := by
  rw [min_add_add_right, mul_min_of_nonneg _ _ ha.le]

theorem stochasticAt_restate (ha : 0 < a) (p : List Candle) :
    stochasticAt (p.map (Candle.restate a b v time)) = stochasticAt p := by
  cases p with
  | nil => rfl
  | cons c p =>
    have hhigh : ((c :: p).map (Candle.restate a b v time)).map (·.high)
        = ((c :: p).map (·.high)).map fun x => a * x + b := by
      rw [List.map_map, List.map_map]
      rfl
    have hlow : ((c :: p).map (Candle.restate a b v time)).map (·.low)
        = ((c :: p).map (·.low)).map fun x => a * x + b := by
      rw [List.map_map, List.map_map]
      rfl
    rw [stochasticAt, stochasticAt, hhigh, hlow, List.length_map, getD_restate (by simp)]
    simp only [List.map_cons, List.max?_cons', List.min?_cons', Option.getD_some,
      foldl_affine (max_affine ha b), foldl_affine (min_affine ha b), sub_affine,
      mul_pos_iff_of_pos_left ha, Candle.restate]
    split
    · rw [mul_left_comm 100 a, mul_div_mul_left _ _ ha.ne']
    · rfl

theorem stochasticK_restate (ha : 0 < a) (candles : List Candle) (kPeriod : ℕ) :
    online (since kPeriod fun p => stochasticAt (window kPeriod p))
        (candles.map (Candle.restate a b v time))
      = online (since kPeriod fun p => stochasticAt (window kPeriod p)) candles := by
  refine (online_map (h := id) (fun p => ?_) candles).trans (List.map_id _)
  rw [since_map (h := id) fun q _ => by rw [window_map, stochasticAt_restate ha, id], Option.map_id]

/-! ## Lines along the prices -/

theorem cumVol_restate (p : List Candle) :
    cumVol (p.map (Candle.restate a b v time)) = v * cumVol p := by
  rw [cumVol, cumVol, List.map_map, ← List.sum_map_mul_left]
  rfl

theorem cumPv_restate (p : List Candle) :
    cumPv (p.map (Candle.restate a b v time)) = v * (a * cumPv p + b * cumVol p) := by
  rw [cumPv, cumPv, cumVol, ← List.sum_map_mul_left, ← List.sum_map_mul_left, ← List.sum_map_add,
    ← List.sum_map_mul_left, List.map_map]
  congr 1
  refine List.map_congr_left fun c _ => ?_
  simp only [Function.comp_apply, Candle.restate]
  ring

theorem vwapAt_restate (hv : 0 < v) (p : List Candle) :
    vwapAt (p.map (Candle.restate a b v time)) = (vwapAt p).map fun x => a * x + b := by
  unfold vwapAt
  simp only [cumVol_restate, cumPv_restate, mul_pos_iff_of_pos_left hv]
  split
  · next hpos =>
    rw [Option.map_some, mul_div_mul_left _ _ hv.ne', add_div, mul_div_assoc,
      mul_div_cancel_right₀ _ hpos.ne']
  · rfl

theorem vwap_restate (hv : 0 < v) (candles : List Candle) :
    vwap (candles.map (Candle.restate a b v time))
      = (vwap candles).map (Option.map fun x => a * x + b) := by
  rw [vwap_eq, vwap_eq]
  exact online_map (vwapAt_restate hv) candles

theorem supertrendNext_restate (ha : 0 < a) (multiplier : ℚ) (line : Option ℚ) (direction : ℤ)
    (c : Candle) (r : ℚ) :
    supertrendNext multiplier (line.map fun x => a * x + b, direction) (c.restate a b v time) (a * r)
      = (a * (supertrendNext multiplier (line, direction) c r).1 + b,
          (supertrendNext multiplier (line, direction) c r).2) := by
  have hupper : (a * c.high + b + (a * c.low + b)) / 2 + multiplier * (a * r)
      = a * ((c.high + c.low) / 2 + multiplier * r) + b := by ring
  have hlower : (a * c.high + b + (a * c.low + b)) / 2 - multiplier * (a * r)
      = a * ((c.high + c.low) / 2 - multiplier * r) + b := by ring
  have hlt : ∀ x y, a * x + b < a * y + b ↔ x < y := fun x y => by
    rw [add_lt_add_iff_right, mul_lt_mul_iff_right₀ ha]
  unfold supertrendNext
  simp only [Candle.restate, hupper, hlower]
  cases line with
  | none => rfl
  | some line =>
    simp only [Option.map_some, max_affine ha, min_affine ha, hlt]
    split
    · split <;> rfl
    · split <;> rfl

theorem supertrendState_restate (ha : 0 < a) (multiplier : ℚ) (p : List Candle) :
    supertrendState period multiplier (p.map (Candle.restate a b v time))
      = ((supertrendState period multiplier p).1.map fun x => a * x + b,
          (supertrendState period multiplier p).2) := by
  induction p using List.reverseRecOn with
  | nil => rfl
  | append_singleton p c ih =>
    have hatr : atrAt period ((p ++ [c]).map (Candle.restate a b v time))
        = (atrAt period (p ++ [c])).map fun x => a * x := atrAt_restate ha (p ++ [c])
    rw [List.map_append, List.map_singleton] at hatr ⊢
    rw [supertrendState_concat, supertrendState_concat, ih, hatr]
    cases atrAt period (p ++ [c]) with
    | none => rfl
    | some r => simp only [Option.map_some, supertrendNext_restate ha]

theorem supertrend_restate (ha : 0 < a) (candles : List Candle) (period : ℕ) (multiplier : ℚ) :
    supertrend (candles.map (Candle.restate a b v time)) period multiplier
      = (supertrend candles period multiplier).map
          (Prod.map (List.map (Option.map fun x => a * x + b)) id) := by
  rcases Nat.eq_zero_or_pos period with rfl | hperiod
  · rfl
  · rw [supertrend_eq _ hperiod, supertrend_eq _ hperiod]
    have hline : online (fun p => (atrAt period p).bind fun _ =>
          (supertrendState period multiplier p).1) (candles.map (Candle.restate a b v time))
        = (online (fun p => (atrAt period p).bind fun _ =>
          (supertrendState period multiplier p).1) candles).map (Option.map fun x => a * x + b) := by
      refine online_map (fun p => ?_) candles
      rw [atrAt_restate ha, supertrendState_restate ha]
      cases atrAt period p with
      | none => rfl
      | some r => rfl
    have hdirection : online (fun p => (atrAt period p).map fun _ =>
          (supertrendState period multiplier p).2) (candles.map (Candle.restate a b v time))
        = (online (fun p => (atrAt period p).map fun _ =>
          (supertrendState period multiplier p).2) candles).map id := by
      refine online_map (fun p => ?_) candles
      rw [atrAt_restate ha, supertrendState_restate ha, Option.map_map]
      rfl
    rw [hline, hdirection, List.map_id]
    rfl

end Candles

end Indicators

end TradingHub
