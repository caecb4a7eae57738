import Mathlib.Tactic.Linarith
import TradingHub.Analytics.Online

set_option autoImplicit false

/-! # No look-ahead

A chart that is drawn live must not repaint: an output that was shown stays when more inputs come.
Every indicator is stable in this sense, since each is put together from online transformations by
the rules of `Stable`. The offset trick of MACD and %D is `Stable.place`. -/

namespace TradingHub

open Library

namespace Indicators

variable {K : Type} [Scalar K]

/-! ## The stable parts -/

theorem stable_since {α β : Type} (P : α → Prop) (first : ℕ) (val : List α → β) :
    Stable P (online (since first val)) := by
  refine .online fun xs x _ h => ?_
  unfold since at h ⊢
  split at h
  · exact absurd rfl h
  · rw [if_neg (by rw [List.length_append]; omega)]
    simp

theorem stable_macdLine (fast slow : ℕ) :
    Stable (fun _ => True) (macdLine (K := K) fast slow) :=
  (stable_since _ _ _).zipWith (stable_since _ _ _) _

theorem stable_macdSignal (fast slow signal : ℕ) :
    Stable (fun _ => True) (macdSignal (K := K) fast slow signal) := by
  have hplace := (stable_macdLine (K := K) fast slow).place
    (stable_since _ signal (smoothed (emaStep signal) signal))
  exact hplace

theorem atrAt_concat {period : ℕ} {p : List Candle} (c : Candle) (h : atrAt period p ≠ none) :
    atrAt period (p ++ [c]) ≠ none := by
  have hlen : ∀ p, (trueRange p).length = p.length := fun p => by
    rw [trueRange, List.length_map, List.length_zipIdx]
  unfold atrAt since at h ⊢
  rw [hlen] at h ⊢
  split at h
  · exact absurd rfl h
  · rw [if_neg (by rw [List.length_append]; omega)]
    simp

theorem stable_atrAt (period : ℕ) : Stable (fun _ => True) (online (atrAt period)) :=
  .online fun _ c _ h => atrAt_concat c h

/-- The state of `supertrend` after one more candle. -/
theorem supertrendState_concat (period : ℕ) (multiplier : ℚ) (p : List Candle) (c : Candle) :
    supertrendState period multiplier (p ++ [c]) =
      match atrAt period (p ++ [c]) with
      | none => supertrendState period multiplier p
      | some a =>
        let next := supertrendNext multiplier (supertrendState period multiplier p) c a
        (some next.1, next.2) := by
  rw [supertrendState, online_concat, List.zip_append (by simp), List.foldl_append]
  rfl

/-- Where the average true range is there, so is the line. -/
theorem stable_supertrendLine (period : ℕ) (multiplier : ℚ) :
    Stable (fun _ => True) (online fun p =>
      (atrAt period p).bind fun _ => (supertrendState period multiplier p).1) := by
  refine .online fun p c _ h => ?_
  have hatr : atrAt period p ≠ none := fun hnone => h (by rw [hnone, Option.bind_none])
  obtain ⟨a, ha⟩ := Option.ne_none_iff_exists'.1 (atrAt_concat c hatr)
  rw [supertrendState_concat, ha]
  simp

theorem stable_supertrendDirection (period : ℕ) (multiplier : ℚ) :
    Stable (fun _ => True) (online fun p =>
      (atrAt period p).map fun _ => (supertrendState period multiplier p).2) := by
  refine .online fun p c _ h => ?_
  have hatr : atrAt period p ≠ none := fun hnone => h (by rw [hnone, Option.map_none])
  obtain ⟨a, ha⟩ := Option.ne_none_iff_exists'.1 (atrAt_concat c hatr)
  rw [ha]
  simp

/-- The volume only grows, so an average that is there stays. -/
theorem stable_vwapAt : Stable (fun c => 0 ≤ c.volume) (online vwapAt) := by
  refine .online fun xs c hc h => ?_
  have hgrow : cumVol (xs ++ [c]) = cumVol xs + c.volume := by simp [cumVol]
  unfold vwapAt at h ⊢
  split at h
  · next hpos =>
    rw [if_pos (by rw [hgrow]; linarith)]
    simp
  · exact absurd rfl h

theorem stable_stochasticK (kPeriod : ℕ) :
    Stable (fun _ => True)
      (online (since kPeriod fun p => stochasticAt (window kPeriod p))) :=
  stable_since _ _ _

theorem stable_stochasticD (kPeriod dPeriod : ℕ) :
    Stable (fun _ => True) fun candles : List Candle =>
      let k := online (since kPeriod fun p => stochasticAt (window kPeriod p)) candles
      List.replicate (candles.length - k.reduceOption.length) none
        ++ online (since dPeriod fun p => mean dPeriod (window dPeriod p)) k.reduceOption :=
  (stable_stochasticK kPeriod).place (stable_since _ _ _)

/-! ## The indicators -/

/-- On inputs in `P` the indicator returns a series of the length of its input, with its missing
    entries first, and keeps it when the input grows. -/
def NoLookAhead {α β : Type} (P : α → Prop) (f : List α → Except AppError (List (Option β))) :
    Prop :=
  ∀ xs ys, (∀ x ∈ xs ++ ys, P x) → ∃ out out', f xs = .ok out ∧ f (xs ++ ys) = .ok out' ∧
    out.length = xs.length ∧ Leading out ∧ out'.take xs.length = out

theorem NoLookAhead.of_stable {α β : Type} {P : α → Prop} {F : List α → List (Option β)}
    {f : List α → Except AppError (List (Option β))} (hF : Stable P F)
    (hf : ∀ xs, f xs = .ok (F xs)) : NoLookAhead P f :=
  fun xs ys hP => ⟨F xs, F (xs ++ ys), hf xs, hf (xs ++ ys), hF.length xs,
    hF.leading xs fun x hx => hP x (List.mem_append_left ys hx), hF.take xs ys⟩

/-- No indicator looks ahead, for any valid parameters. -/
structure AllCausal [LinearOrder K] (sqrt : K → K) : Prop where
  sma : ∀ period, 1 ≤ period → NoLookAhead (fun _ : K => True) (sma · period)
  ema : ∀ period, 1 ≤ period → NoLookAhead (fun _ : K => True) (ema · period)
  wilderSmoothing : ∀ period, 1 ≤ period →
    NoLookAhead (fun _ : K => True) (wilderSmoothing · period)
  rsi : ∀ period, 1 ≤ period → NoLookAhead (fun _ : K => True) (rsi · period)
  macd : ∀ fast slow signal, 0 < fast → fast < slow → 0 < signal →
    NoLookAhead (fun _ : K => True) (fun xs => (macd xs fast slow signal).map (·.1)) ∧
    NoLookAhead (fun _ : K => True) (fun xs => (macd xs fast slow signal).map (·.2.1)) ∧
    NoLookAhead (fun _ : K => True) (fun xs => (macd xs fast slow signal).map (·.2.2))
  bollingerBands : ∀ period numStd, 1 ≤ period →
    NoLookAhead (fun _ => True) (fun xs => (bollingerBands sqrt xs period numStd).map (·.1)) ∧
    NoLookAhead (fun _ => True) (fun xs => (bollingerBands sqrt xs period numStd).map (·.2.1)) ∧
    NoLookAhead (fun _ => True) (fun xs => (bollingerBands sqrt xs period numStd).map (·.2.2))
  atr : ∀ period, 1 ≤ period → NoLookAhead (fun _ => True) (atr · period)
  vwap : NoLookAhead (fun c => 0 ≤ c.volume) fun cs => .ok (vwap cs)
  stochastic : ∀ kPeriod dPeriod, 1 ≤ kPeriod → 1 ≤ dPeriod →
    NoLookAhead (fun _ => True) (fun cs => (stochastic cs kPeriod dPeriod).map (·.1)) ∧
    NoLookAhead (fun _ => True) (fun cs => (stochastic cs kPeriod dPeriod).map (·.2))
  supertrend : ∀ period multiplier, 1 ≤ period →
    NoLookAhead (fun _ => True) (fun cs => (supertrend cs period multiplier).map (·.1)) ∧
    NoLookAhead (fun _ => True) (fun cs => (supertrend cs period multiplier).map (·.2))

/-- Over every ordered field and with any square root. -/
theorem indicators_causal {K : Type} [Scalar K] [LinearOrder K] (sqrt : K → K) :
    AllCausal sqrt where
  sma _ h := .of_stable (stable_since _ _ _) fun xs => sma_eq xs h
  ema _ h := .of_stable (stable_since _ _ _) fun xs => ema_eq xs h
  wilderSmoothing _ h := .of_stable (stable_since _ _ _) fun xs => wilderSmoothing_eq xs h
  rsi _ h := .of_stable (stable_since _ _ _) fun xs => rsi_eq xs h
  macd fast slow signal hfast hslow hsignal := by
    have hmacd := fun xs : List K => macd_eq xs hslow hfast hsignal
    refine ⟨.of_stable (stable_macdLine fast slow) fun xs => ?_,
      .of_stable (stable_macdSignal fast slow signal) fun xs => ?_,
      .of_stable ((stable_macdLine fast slow).zipWith (stable_macdSignal fast slow signal)
        fun m s => m - s) fun xs => ?_⟩
    · rw [hmacd]; rfl
    · rw [hmacd]; rfl
    · rw [hmacd]; rfl
  bollingerBands period numStd h := by
    have hbands := fun xs : List K => bollingerBands_eq sqrt xs h numStd
    refine ⟨.of_stable (stable_since _ period (band sqrt period numStd)) fun xs => ?_,
      .of_stable (stable_since _ period fun p => mean period (window period p)) fun xs => ?_,
      .of_stable (stable_since _ period (band sqrt period (-numStd))) fun xs => ?_⟩
    · rw [hbands]; rfl
    · rw [hbands]; rfl
    · rw [hbands]; rfl
  atr period h := .of_stable (stable_atrAt period) fun cs => atr_eq cs h
  vwap := .of_stable stable_vwapAt fun cs => by rw [vwap_eq]
  stochastic kPeriod dPeriod hk hd := by
    have hstochastic := fun cs => stochastic_eq cs hk hd
    refine ⟨.of_stable (stable_stochasticK kPeriod) fun cs => ?_,
      .of_stable (stable_stochasticD kPeriod dPeriod) fun cs => ?_⟩
    · rw [hstochastic]; rfl
    · rw [hstochastic]; rfl
  supertrend period multiplier h := by
    have hsupertrend := fun cs => supertrend_eq cs h multiplier
    refine ⟨.of_stable (stable_supertrendLine period multiplier) fun cs => ?_,
      .of_stable (stable_supertrendDirection period multiplier) fun cs => ?_⟩
    · rw [hsupertrend]; rfl
    · rw [hsupertrend]; rfl

end Indicators

end TradingHub
