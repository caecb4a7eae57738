import Mathlib.Data.List.Induction
import Mathlib.Tactic.Ring
import TradingHub.Analytics.Indicators

set_option autoImplicit false

/-! # Indicators as online transformations

What each loop of the indicators computes: the value at an index, as a function of the inputs up to
it. The averages read a window or smooth behind a seed; the rest is put together from them. -/

namespace TradingHub

open Library

namespace Indicators

variable {K : Type} [Scalar K]

/-! ## Averages -/

/-- The last `period` inputs. -/
def window {α : Type} (period : ℕ) (p : List α) : List α := p.drop (p.length - period)

def mean (period : ℕ) (p : List K) : K := p.sum / period

/-- The mean of the first `period` inputs, and the others taken in one by one. -/
def smoothed (step : K → K → K) (period : ℕ) (p : List K) : K :=
  (p.drop period).foldl step (mean period (p.take period))

/-- An output that is there once there are `first` inputs. -/
def since {α β : Type} (first : ℕ) (val : List α → β) (p : List α) : Option β :=
  if p.length < first then none else some (val p)

theorem getElem?_since {α β : Type} (first : ℕ) (val : List α → β) {xs : List α} {i : ℕ}
    (hi : i < xs.length) :
    (online (since first val) xs)[i]? =
      some (if i + 1 < first then none else some (val (xs.take (i + 1)))) := by
  rw [getElem?_online, if_pos hi, since, List.length_take, Nat.min_eq_left (by omega)]

/-- An entry of an output that starts with `first` inputs. -/
theorem getElem?_online_since {α β : Type} {first : ℕ} {val : List α → β} {xs : List α} {i : ℕ} {v : β}
    (h : (online (since first val) xs)[i]? = some (some v)) :
    i < xs.length ∧ first ≤ i + 1 ∧ v = val (xs.take (i + 1)) := by
  by_cases hi : i < xs.length
  · rw [getElem?_since _ _ hi] at h
    split at h
    · exact absurd h (by simp)
    · next hlong => exact ⟨hi, by omega, (Option.some.inj (Option.some.inj h)).symm⟩
  · rw [getElem?_online, if_neg hi] at h
    exact absurd h (by simp)

theorem slice_eq_window {α : Type} {xs : List α} {period i : ℕ} (hi : i < xs.length) :
    slice xs (i + 1 - period) (i + 1) = window period (xs.take (i + 1)) := by
  unfold slice window
  rw [List.length_take, Nat.min_eq_left (by omega)]

/-- The running sum of `sma` is the sum of the window. -/
theorem runningSum (values : List K) {period : ℕ} (hperiod : 0 < period) :
    ∀ j, period ≤ j → j ≤ values.length →
      forRange period j (slice values 0 period).sum
        (fun s i => s + (values.getD i 0 - values.getD (i - period) 0))
        = (window period (values.take j)).sum := by
  intro j hj
  induction j, hj using Nat.le_induction with
  | base =>
    intro hle
    simp [forRange, slice, window, Nat.min_eq_left hle]
  | succ j hj ih =>
    intro hle
    -- One input enters the window at its end, and the first one leaves it.
    have hold : window period (values.take j)
        = values.getD (j - period) 0 :: (values.take j).drop (j - period + 1) := by
      unfold window
      rw [List.length_take, Nat.min_eq_left (by omega),
        List.drop_eq_getElem_cons (by rw [List.length_take]; omega), List.getElem_take,
        List.getD_eq_getElem _ _ (by omega)]
    have hnew : window period (values.take (j + 1))
        = (values.take j).drop (j - period + 1) ++ [values.getD j 0] := by
      unfold window
      rw [List.length_take, Nat.min_eq_left hle, List.take_add_one,
        List.getElem?_eq_getElem (show j < values.length by omega), Option.toList_some,
        List.drop_append_of_le_length (by rw [List.length_take]; omega),
        List.getD_eq_getElem _ _ (by omega), show j + 1 - period = j - period + 1 by omega]
    rw [forRange_succ hj, ih (by omega), hold, hnew, List.sum_cons, List.sum_append,
      List.sum_singleton]
    ring

theorem sma_eq (values : List K) {period : ℕ} (hperiod : 0 < period) :
    sma values period = .ok (online (since period fun p => mean period (window period p)) values) := by
  unfold sma smaWith require
  simp only [hperiod, decide_true, if_true, quotient, bind, Except.bind, pure, Except.pure]
  split
  · next hshort => exact congrArg _ (replicate_eq_online _ hshort)
  · next hlong =>
    rw [forRangeM_eq_ok _ fun _ _ _ _ => rfl]
    refine congrArg Except.ok (seeded_eq_online values Prod.fst Prod.snd
      (fun s i => s + (values.getD i 0 - values.getD (i - period) 0))
      (fun s i => some ((s + (values.getD i 0 - values.getD (i - period) 0)) / period))
      (fun _ _ => rfl) (fun _ _ => rfl) hperiod (by omega) ?_ fun j hj hlt => ?_)
    · have hseed := runningSum values hperiod period le_rfl (by omega)
      simp only [forRange, Nat.sub_self, List.range'_zero, List.foldl_nil] at hseed
      rw [mean, ← hseed]
      rfl
    · have hsum := runningSum values hperiod (j + 1) (by omega) (by omega)
      rw [forRange_succ hj] at hsum
      exact congrArg (fun s => some (s / (period : K))) hsum

example : sma [(1 : ℚ), 2, 3, 4, 5] 3 = .ok [none, none, some 2, some 3, some 4] := by
  decide +kernel

/-- A loop that smooths behind a seed. -/
theorem smoothing_eq (step : K → K → K) (values : List K) {period : ℕ} (hperiod : 0 < period)
    (hlong : period ≤ values.length) :
    (forRange period values.length
      ((slice values 0 period).sum / (period : K), (blank values.length).set (period - 1)
        (some ((slice values 0 period).sum / (period : K)))) fun t i =>
        (step t.1 (values.getD i 0), t.2.set i (some (step t.1 (values.getD i 0))))).2
      = online (since period (smoothed step period)) values := by
  refine seeded_eq_online values Prod.fst Prod.snd (fun s i => step s (values.getD i 0))
    (fun s i => some (step s (values.getD i 0)))
    (fun _ _ => rfl) (fun _ _ => rfl) hperiod hlong ?_ fun j hj hlt => ?_
  · simp only [smoothed, mean, slice, blank, List.drop_zero, List.take_take, Nat.min_self,
      List.drop_take_self, List.foldl_nil]
  · have hfold := forRange_eq_foldl (f := step) (a := period) (0 : K) (show j + 1 ≤ values.length
      from hlt) (mean period (values.take period))
    rw [forRange_succ hj] at hfold
    rw [smoothed, List.take_take, Nat.min_eq_left (by omega), ← hfold]
    rfl

theorem ema_eq (values : List K) {period : ℕ} (hperiod : 0 < period) :
    ema values period = .ok (online (since period (smoothed (emaStep period) period)) values) := by
  unfold ema require
  simp only [hperiod, decide_true, if_true, bind, Except.bind]
  split
  · next hshort => exact congrArg _ (replicate_eq_online _ hshort)
  · next hlong => exact congrArg _ (smoothing_eq (emaStep period) values hperiod (by omega))

theorem wilderSmoothing_eq (values : List K) {period : ℕ} (hperiod : 0 < period) :
    wilderSmoothing values period
      = .ok (online (since period (smoothed (wilderStep period) period)) values) := by
  unfold wilderSmoothing wilderSmoothingWith require
  simp only [hperiod, decide_true, if_true, quotient, bind, Except.bind, pure, Except.pure]
  split
  · next hshort => exact congrArg _ (replicate_eq_online _ hshort)
  · next hlong =>
    rw [forRangeM_eq_ok _ fun _ _ _ _ => rfl]
    exact congrArg Except.ok (smoothing_eq (wilderStep period) values hperiod (by omega))

/-! ## RSI -/

section Rsi

variable [LinearOrder K]

/-- The changes from each close to the next. -/
def changes (closes : List K) : List K := List.zipWith (fun prev c => c - prev) closes closes.tail

/-- The smoothed gain of the closes. -/
def avgGain (period : ℕ) (closes : List K) : K :=
  smoothed (wilderStep period) period ((changes closes).map fun c => max c 0)

/-- The smoothed loss of the closes. -/
def avgLoss (period : ℕ) (closes : List K) : K :=
  smoothed (wilderStep period) period ((changes closes).map fun c => max (-c) 0)

omit [LinearOrder K] in
@[simp] theorem length_changes (closes : List K) :
    (changes closes).length = closes.length - 1 := by
  rw [changes, List.length_zipWith, List.length_tail]
  omega

omit [LinearOrder K] in
theorem getElem?_changes (closes : List K) {i : ℕ} (hi : i + 1 < closes.length) :
    (changes closes)[i]? = some (closes.getD (i + 1) 0 - closes.getD i 0) := by
  rw [changes, List.getElem?_zipWith, List.getElem?_tail,
    List.getElem?_eq_getElem (show i < closes.length by omega), List.getElem?_eq_getElem hi,
    List.getD_eq_getElem _ _ hi, List.getD_eq_getElem _ _ (show i < closes.length by omega)]

omit [LinearOrder K] in
theorem changes_take (closes : List K) (n : ℕ) :
    changes (closes.take (n + 1)) = (changes closes).take n := by
  refine List.ext_getElem? fun i => ?_
  by_cases hi : i < n ∧ i + 1 < closes.length
  · have hlen : i + 1 < (closes.take (n + 1)).length := by rw [List.length_take]; omega
    rw [getElem?_changes _ hlen, List.getElem?_take_of_lt hi.1, getElem?_changes _ hi.2]
    simp only [List.getD_eq_getElem?_getD]
    rw [List.getElem?_take_of_lt (by omega), List.getElem?_take_of_lt (by omega)]
  · rw [List.getElem?_eq_none (by rw [length_changes, List.length_take]; omega),
      List.getElem?_eq_none (by rw [List.length_take, length_changes]; omega)]

omit [LinearOrder K] in
/-- A list that is filled with what `f` makes of the changes, behind a zero. -/
theorem fill_eq_cons (f : K → K) (closes : List K) (hlen : 0 < closes.length) :
    forRange 1 closes.length (List.replicate closes.length 0)
        (fun t i => t.set i (f (closes.getD i 0 - closes.getD (i - 1) 0)))
      = 0 :: (changes closes).map f := by
  have hentries := loop_getElem? (t := List.replicate closes.length 0) (fun _ => ()) id
    (fun _ _ => ()) (fun _ i => f (closes.getD i 0 - closes.getD (i - 1) 0)) 0
    (fun _ _ => rfl) (fun _ _ _ => rfl) closes.length hlen
    fun i _ hi => by rw [id, List.getElem?_replicate, if_pos hi]
  refine List.ext_getElem? fun j => (hentries j).trans ?_
  cases j with
  | zero =>
    rw [if_neg (by omega), id, List.getElem?_replicate, if_pos hlen]
    rfl
  | succ j =>
    rw [List.getElem?_cons_succ, List.getElem?_map]
    by_cases hj : j + 1 < closes.length
    · rw [if_pos ⟨by omega, hj⟩, getElem?_changes closes hj, Option.map_some]
      rfl
    · rw [if_neg (by omega), id, List.getElem?_replicate, if_neg hj,
        List.getElem?_eq_none (by rw [length_changes]; omega), Option.map_none]

/-- The lists of gains and losses. -/
theorem gains_losses (closes : List K) (hlen : 0 < closes.length) :
    forRange 1 closes.length (List.replicate closes.length 0, List.replicate closes.length 0)
        (fun t i =>
          let change := closes.getD i 0 - closes.getD (i - 1) 0
          (t.1.set i (max change 0), t.2.set i (max (-change) 0)))
      = (0 :: (changes closes).map (fun c => max c 0),
          0 :: (changes closes).map (fun c => max (-c) 0)) := by
  rw [← fill_eq_cons (fun c => max c 0) closes hlen,
    ← fill_eq_cons (fun c => max (-c) 0) closes hlen]
  exact forRange_prod _ _
    (fun t i => List.set t i (max (closes.getD i 0 - closes.getD (i - 1) 0) 0))
    (fun t i => List.set t i (max (-(closes.getD i 0 - closes.getD (i - 1) 0)) 0))

omit [LinearOrder K] in
/-- The state of the second loop of `rsi`, for one of the two lists. -/
theorem rsiState (period : ℕ) (cs : List K) {j : ℕ} (hj : period + 1 ≤ j) (hlt : j ≤ cs.length + 1) :
    forRange (period + 1) j ((slice (0 :: cs) 1 (period + 1)).sum / (period : K))
        (fun s i => wilderStep period s ((0 :: cs).getD i 0))
      = smoothed (wilderStep period) period (cs.take (j - 1)) := by
  rw [forRange_eq_foldl (f := wilderStep period) (0 : K) (by simpa using hlt)]
  obtain ⟨k, rfl⟩ : ∃ k, j = k + 1 := ⟨j - 1, by omega⟩
  simp only [slice, List.take_succ_cons, List.drop_succ_cons, List.drop_zero, smoothed, mean,
    Nat.add_sub_cancel]
  rw [List.take_take, Nat.min_eq_left (by omega)]

theorem rsi_eq (closes : List K) {period : ℕ} (hperiod : 0 < period) :
    rsi closes period = .ok (online (since (period + 1) fun p =>
      rsiFrom (avgGain period p) (avgLoss period p)) closes) := by
  unfold rsi rsiWith require
  simp only [hperiod, decide_true, if_true, quotient, rsiFromWith_quotient, bind, Except.bind, pure,
    Except.pure]
  split
  · next hshort => exact congrArg _ (replicate_eq_online _ (by omega))
  · next hlong =>
    rw [gains_losses closes (by omega)]
    simp only [forRangeM_eq_ok _ fun _ _ _ _ => rfl]
    have hstate : ∀ (f : K → K) j, period + 1 ≤ j → j ≤ closes.length →
        forRange (period + 1) j
            ((slice (0 :: (changes closes).map f) 1 (period + 1)).sum / (period : K))
            (fun s i => wilderStep period s ((0 :: (changes closes).map f).getD i 0))
          = smoothed (wilderStep period) period ((changes (closes.take j)).map f) := by
      intro f j hj hlt
      rw [rsiState period _ hj (by rw [List.length_map, length_changes]; omega)]
      obtain ⟨k, rfl⟩ : ∃ k, j = k + 1 := ⟨j - 1, by omega⟩
      rw [changes_take, List.map_take, Nat.add_sub_cancel]
    refine congrArg _ (seeded_eq_online closes Prod.fst Prod.snd
      (fun s i =>
        (wilderStep period s.1 ((0 :: (changes closes).map fun c => max c 0).getD i 0),
          wilderStep period s.2 ((0 :: (changes closes).map fun c => max (-c) 0).getD i 0)))
      (fun s i => some (rsiFrom
        (wilderStep period s.1 ((0 :: (changes closes).map fun c => max c 0).getD i 0))
        (wilderStep period s.2 ((0 :: (changes closes).map fun c => max (-c) 0).getD i 0))))
      (fun _ _ => rfl) (fun _ _ => rfl) (by omega) (by omega) ?_ fun j hj hlt => ?_)
    · have hgain := hstate (fun c => max c 0) (period + 1) le_rfl (by omega)
      have hloss := hstate (fun c => max (-c) 0) (period + 1) le_rfl (by omega)
      simp only [forRange, Nat.sub_self, List.range'_zero, List.foldl_nil] at hgain hloss
      rw [avgGain, avgLoss, ← hgain, ← hloss]
      rfl
    · have hgain := hstate (fun c => max c 0) (j + 1) (by omega) hlt
      have hloss := hstate (fun c => max (-c) 0) (j + 1) (by omega) hlt
      rw [forRange_succ hj] at hgain hloss
      rw [forRange_prod _ _
        (fun s i => wilderStep period s ((0 :: (changes closes).map fun c => max c 0).getD i 0))
        (fun s i => wilderStep period s ((0 :: (changes closes).map fun c => max (-c) 0).getD i 0)),
        avgGain, avgLoss, ← hgain, ← hloss]

end Rsi

/-! ## MACD -/

/-- The difference of the two averages, where both are there. -/
def macdLine (fast slow : ℕ) (closes : List K) : List (Option K) :=
  List.zipWith (Option.map₂ fun f s => f - s)
    (online (since fast (smoothed (emaStep fast) fast)) closes)
    (online (since slow (smoothed (emaStep slow) slow)) closes)

/-- The average of the entries of the line that are there, behind its gaps. -/
def macdSignal (fast slow signal : ℕ) (closes : List K) : List (Option K) :=
  List.replicate (closes.length - (macdLine fast slow closes).reduceOption.length) none
    ++ online (since signal (smoothed (emaStep signal) signal))
      (macdLine fast slow closes).reduceOption

@[simp] theorem length_macdLine (fast slow : ℕ) (closes : List K) :
    (macdLine fast slow closes).length = closes.length := by
  rw [macdLine, List.length_zipWith, length_online, length_online, Nat.min_self]

/-- The histogram is the difference of the line and the signal, where both are there. -/
theorem macd_eq (closes : List K) {fast slow signal : ℕ} (hslow : fast < slow) (hfast : 0 < fast)
    (hsignal : 0 < signal) :
    macd closes fast slow signal
      = .ok (macdLine fast slow closes, macdSignal fast slow signal closes,
          List.zipWith (Option.map₂ fun m s => m - s) (macdLine fast slow closes)
            (macdSignal fast slow signal closes)) := by
  have hle : (macdLine fast slow closes).reduceOption.length ≤ closes.length := by
    have h := List.reduceOption_length_le (macdLine fast slow closes)
    rwa [length_macdLine] at h
  unfold macd require
  simp only [hslow, hfast, hsignal, and_self, decide_true, if_true, bind, Except.bind,
    ema_eq closes hfast, ema_eq closes (hfast.trans hslow)]
  rw [show List.zipWith (Option.map₂ fun f s => f - s)
      (online (since fast (smoothed (emaStep fast) fast)) closes)
      (online (since slow (smoothed (emaStep slow) slow)) closes) = macdLine fast slow closes from rfl,
    ema_eq _ hsignal]
  obtain ⟨sd, hsd⟩ : ∃ sd, sd = online (since signal (smoothed (emaStep signal) signal))
    (macdLine fast slow closes).reduceOption := ⟨_, rfl⟩
  have hlen : closes.length = closes.length - (macdLine fast slow closes).reduceOption.length
      + sd.length := by
    rw [hsd, length_online, Nat.sub_add_cancel hle]
  simp only [macdSignal, ← hsd, length_macdLine]
  generalize closes.length - (macdLine fast slow closes).reduceOption.length = offset at hlen ⊢
  have hline := length_macdLine fast slow closes
  generalize macdLine fast slow closes = line at hline ⊢
  let start : List (Option K) × List (Option K) := (blank closes.length, blank closes.length)
  have hblank : start.1 = List.replicate (offset + sd.length) none := by rw [← hlen]; rfl
  have hhist : List.zipWith (Option.map₂ fun m s => m - s) line (List.replicate offset none ++ sd)
      = List.replicate offset none ++ (List.range sd.length).map fun j =>
        Option.map₂ (fun m s => m - s) (line.getD (offset + j) none) (sd.getD j none) := by
    refine List.ext_getElem? fun i => ?_
    rw [List.getElem?_zipWith]
    by_cases hi : i < offset
    · rw [List.getElem?_append_left (by simpa using hi), List.getElem?_append_left (by simpa using hi),
        List.getElem?_replicate, if_pos hi, List.getElem?_eq_getElem (by omega)]
      exact congrArg some (Option.map₂_none_right _ _)
    · obtain ⟨j, rfl⟩ : ∃ j, i = offset + j := ⟨i - offset, by omega⟩
      rw [List.getElem?_append_right (by simp), List.getElem?_append_right (by simp),
        List.length_replicate, Nat.add_sub_cancel_left, List.getElem?_map]
      by_cases hj : j < sd.length
      · rw [List.getElem?_eq_getElem (show offset + j < line.length by omega),
          List.getElem?_eq_getElem hj, List.getElem?_range hj, Option.map_some,
          List.getD_eq_getElem _ _ (show offset + j < line.length by omega),
          List.getD_eq_getElem _ _ hj]
      · rw [List.getElem?_eq_none (show line.length ≤ offset + j by omega),
          List.getElem?_eq_none (show (List.range sd.length).length ≤ j by simpa using hj)]
        rfl
  refine congrArg₂ (fun signalLine hist => Except.ok (line, signalLine, hist)) ?_ ?_
  · refine (placed_eq offset (t := start) Prod.fst (fun j => sd.getD j none) (fun t j _ => ?_)
      hblank).trans (by rw [map_getD_range])
    split
    · next hsig _ => rw [hsig]
    · rfl
  · refine (placed_eq offset (t := start) Prod.snd (fun j => Option.map₂ (fun m s => m - s)
      (line.getD (offset + j) none) (sd.getD j none)) (fun t j hfree => ?_) hblank).trans hhist.symm
    split
    · next hsig hmacd => rw [hsig, hmacd, Option.map₂_some_some]
    · next hmissing =>
      have hnone : Option.map₂ (fun m s => m - s) (line.getD (offset + j) none) (sd.getD j none)
          = none := by
        rw [Option.map₂_eq_none_iff]
        cases hsig : sd.getD j none with
        | none => exact .inr rfl
        | some sig =>
          cases hmacd : line.getD (offset + j) none with
          | none => exact .inl rfl
          | some m => exact absurd hmacd (hmissing sig m hsig)
      rw [hnone, set_getElem?_self hfree]

/-! ## Bollinger bands -/

/-- The variance of a window. -/
def variance (period : ℕ) (p : List K) : K :=
  (p.map fun x => (x - mean period p) ^ 2).sum / period

/-- The band at the distance of `d` standard deviations. -/
def band (sqrt : K → K) (period : ℕ) (d : K) (p : List K) : K :=
  mean period (window period p) + d * sqrt (variance period (window period p))

/-- The assertion in the loop never fires. -/
theorem bollingerBands_eq (sqrt : K → K) (closes : List K) {period : ℕ} (hperiod : 0 < period)
    (numStd : K) :
    bollingerBands sqrt closes period numStd
      = .ok (online (since period (band sqrt period numStd)) closes,
          online (since period fun p => mean period (window period p)) closes,
          online (since period (band sqrt period (-numStd))) closes) := by
  unfold bollingerBands require
  simp only [hperiod, decide_true, if_true, bind, Except.bind, sma_eq closes hperiod]
  have hmiddle : ∀ i, period - 1 ≤ i → i < closes.length →
      (online (since period fun p => mean period (window period p)) closes).getD i none
        = some (mean period (window period (closes.take (i + 1)))) := by
    intro i hi hlt
    rw [getD_online _ hlt, since, if_neg (by rw [List.length_take]; omega)]
  rw [forRangeM_eq_ok (fun t i =>
    (t.1.set i (some (band sqrt period numStd (closes.take (i + 1)))),
      t.2.set i (some (band sqrt period (-numStd) (closes.take (i + 1)))))) fun i hi hlt t => ?_]
  · have hprod := forRange_prod (a := period - 1) (b := closes.length) (blank closes.length)
      (blank closes.length)
      (fun t i => t.set i (some (band sqrt period numStd (closes.take (i + 1)))))
      (fun t i => t.set i (some (band sqrt period (-numStd) (closes.take (i + 1)))))
    simp only [hprod]
    have hfill := fun d => fill_eq_online closes
      (fun i => some (band sqrt period d (closes.take (i + 1)))) (band sqrt period d) hperiod
      fun _ _ _ => rfl
    exact congrArg₂ (fun upper lower => Except.ok (upper, _, lower)) (hfill numStd) (hfill (-numStd))
  · simp only [hmiddle i hi hlt, slice_eq_window hlt, band, variance, neg_mul, sub_eq_add_neg]

/-! ## Candles -/

/-- The true range of the last candle. -/
def trueRangeAt (p : List Candle) : ℚ :=
  let c := p.getD (p.length - 1) default
  if p.length - 1 = 0 then c.high - c.low
  else
    let prevClose := (p.getD (p.length - 1 - 1) default).close
    max (max (c.high - c.low) |c.high - prevClose|) |c.low - prevClose|

theorem trueRange_eq (candles : List Candle) : trueRange candles = online trueRangeAt candles := by
  refine eq_online (by rw [trueRange, List.length_map, List.length_zipIdx]) fun i hi => ?_
  have hlen : (candles.take (i + 1)).length = i + 1 := List.length_take_of_le hi
  rw [trueRange, List.getElem?_map, List.getElem?_zipIdx, List.getElem?_eq_getElem hi]
  simp only [Option.map_some, trueRangeAt, hlen, Nat.zero_add, Nat.add_sub_cancel,
    getD_take_succ _ le_rfl, getD_take_succ _ (Nat.sub_le i 1), List.getD_eq_getElem _ _ hi]

/-- The average true range after the last candle, if it is there. -/
def atrAt (period : ℕ) (p : List Candle) : Option ℚ :=
  since period (smoothed (wilderStep period) period) (trueRange p)

theorem atr_eq (candles : List Candle) {period : ℕ} (hperiod : 0 < period) :
    atr candles period = .ok (online (atrAt period) candles) := by
  have htrue : atrAt period = fun p => since period (smoothed (wilderStep period) period)
      (online trueRangeAt p) := funext fun p => by rw [atrAt, trueRange_eq]
  rw [atr, wilderSmoothing_eq _ hperiod, trueRange_eq, online_online, htrue]

/-- The volume of the candles, and their typical prices weighted with it. -/
def cumVol (p : List Candle) : ℚ := (p.map (·.volume)).sum

def cumPv (p : List Candle) : ℚ := (p.map fun c => (c.high + c.low + c.close) / 3 * c.volume).sum

def vwapAt (p : List Candle) : Option ℚ := if 0 < cumVol p then some (cumPv p / cumVol p) else none

theorem vwap_eq (candles : List Candle) : vwap candles = online vwapAt candles := by
  have hstate : candles.foldl (fun t c =>
      let typical := (c.high + c.low + c.close) / 3
      let cumPv := t.1.1 + typical * c.volume
      let cumVol := t.1.2 + c.volume
      ((cumPv, cumVol), t.2 ++ [if 0 < cumVol then some (cumPv / cumVol) else none]))
      (((0 : ℚ), (0 : ℚ)), []) = ((cumPv candles, cumVol candles), online vwapAt candles) := by
    induction candles using List.reverseRecOn with
    | nil => rfl
    | append_singleton candles c ih =>
      rw [List.foldl_append, ih, online_concat]
      simp only [List.foldl_cons, List.foldl_nil, vwapAt, cumPv, cumVol, List.map_append,
        List.map_cons, List.map_nil, List.sum_append, List.sum_singleton]
  exact congrArg Prod.snd hstate

/-- %K of a window of candles. -/
def stochasticAt (p : List Candle) : ℚ :=
  let highest := ((p.map (·.high)).max?).getD 0
  let lowest := ((p.map (·.low)).min?).getD 0
  if 0 < highest - lowest then
    100 * ((p.getD (p.length - 1) default).close - lowest) / (highest - lowest)
  else 0

/-- Putting a compacted series back. -/
theorem putBack_eq {β : Type} (offset : ℕ) (values : List (Option β)) :
    putBack offset values (blank (offset + values.length)) = List.replicate offset none ++ values := by
  have hplaced := placed_eq offset id (fun j => values.getD j none)
    (t := blank (offset + values.length)) (fun _ _ _ => rfl) rfl
  rwa [map_getD_range] at hplaced

/-- %K, and %D as the average of the entries of %K that are there. -/
theorem stochastic_eq (candles : List Candle) {kPeriod dPeriod : ℕ} (hk : 0 < kPeriod)
    (hd : 0 < dPeriod) :
    let k := online (since kPeriod fun p => stochasticAt (window kPeriod p)) candles
    stochastic candles kPeriod dPeriod
      = .ok (k, List.replicate (candles.length - k.reduceOption.length) none
          ++ online (since dPeriod fun p => mean dPeriod (window dPeriod p)) k.reduceOption) := by
  intro k
  have hfill := fill_eq_online candles
    (fun i => some (stochasticAt (window kPeriod (candles.take (i + 1)))))
    (fun p => stochasticAt (window kPeriod p)) hk fun _ _ _ => rfl
  have hle : k.reduceOption.length ≤ candles.length := length_reduceOption_online _ candles
  unfold stochastic stochasticWith
  simp only [if_neg (show ¬ kPeriod = 0 by omega), bind, Except.bind]
  rw [forRangeM_eq_ok (fun out i => out.set i
    (some (stochasticAt (window kPeriod (candles.take (i + 1)))))) fun i hi hlt out => ?_]
  · simp only [blank, hfill]
    rw [show online (fun p => if p.length < kPeriod then none
      else some (stochasticAt (window kPeriod p))) candles = k from rfl, smaWith_quotient, sma_eq _ hd]
    have hput := putBack_eq (candles.length - k.reduceOption.length)
      (online (since dPeriod fun p => mean dPeriod (window dPeriod p)) k.reduceOption)
    rw [length_online, Nat.sub_add_cancel hle] at hput
    exact congrArg (fun d => Except.ok (k, d)) hput
  · -- The window is not empty, and its last candle is the one at the index.
    have hlen : (window kPeriod (candles.take (i + 1))).length = kPeriod := by
      rw [window, List.length_drop, List.length_take]
      omega
    have hlast : (window kPeriod (candles.take (i + 1))).getD (kPeriod - 1) default
        = candles.getD i default := by
      simp only [List.getD_eq_getElem?_getD]
      rw [window, List.getElem?_drop, List.length_take, List.getElem?_take_of_lt (by omega),
        show min (i + 1) candles.length - kPeriod + (kPeriod - 1) = i by omega]
    rw [slice_eq_window hlt, stochasticAt, hlen, hlast]
    generalize window kPeriod (candles.take (i + 1)) = win at hlen
    cases win with
    | nil => exact absurd hlen (by simp; omega)
    | cons c cs =>
      simp only [List.map_cons, List.max?_cons', List.min?_cons', Option.getD_some,
        quotient_of_guard]
      rfl

/-- The loop of `supertrend` on a prefix: the previous line and direction. -/
def supertrendState (period : ℕ) (multiplier : ℚ) (p : List Candle) : Option ℚ × ℤ :=
  (p.zip (online (atrAt period) p)).foldl (fun s e =>
    match e.2 with
    | none => s
    | some a =>
      let next := supertrendNext multiplier s e.1 a
      (some next.1, next.2)) (none, 1)

/-- The line and the direction are there where the average true range is. -/
theorem supertrend_eq (candles : List Candle) {period : ℕ} (hperiod : 0 < period) (multiplier : ℚ) :
    supertrend candles period multiplier
      = .ok (online (fun p => (atrAt period p).bind fun _ => (supertrendState period multiplier p).1)
            candles,
          online (fun p => (atrAt period p).map fun _ => (supertrendState period multiplier p).2)
            candles) := by
  obtain ⟨atrS, hatr⟩ : ∃ atrS, atrS = online (atrAt period) candles := ⟨_, rfl⟩
  let next (s : Option ℚ × ℤ) (e : Candle × Option ℚ) : Option ℚ × ℤ :=
    match e.2 with
    | none => s
    | some a => (some (supertrendNext multiplier s e.1 a).1, (supertrendNext multiplier s e.1 a).2)
  let step (s : Option ℚ × ℤ) (i : ℕ) : Option ℚ × ℤ :=
    next s (candles.getD i default, atrS.getD i none)
  have hstate : ∀ j, j ≤ candles.length →
      forRange 0 j (none, 1) step = supertrendState period multiplier (candles.take j) := by
    intro j hj
    have hlen : (candles.zip atrS).length = candles.length := by
      rw [List.length_zip, hatr, length_online, Nat.min_self]
    have hread : ∀ i, 0 ≤ i → i < j → ∀ s, step s i
        = next s ((candles.zip atrS).getD i (default, none)) := by
      intro i _ hi s
      have hlt : i < atrS.length := by rw [hatr, length_online]; omega
      rw [List.getD_eq_getElem _ _ (by omega), List.getElem_zip]
      simp only [step]
      rw [List.getD_eq_getElem _ _ (by omega), List.getD_eq_getElem _ _ hlt]
    rw [forRange_congr hread, forRange_eq_foldl (f := next) _ (by omega), List.drop_zero,
      List.zip, List.take_zipWith, hatr, ← online_take]
    rfl
  have hemit : ∀ i, i < candles.length →
      step (forRange 0 i (none, 1) step) i
        = supertrendState period multiplier (candles.take (i + 1)) ∧
      atrS.getD i none = atrAt period (candles.take (i + 1)) := by
    intro i hi
    have hsucc : forRange 0 (i + 1) (none, 1) step = step (forRange 0 i (none, 1) step) i :=
      forRange_succ (Nat.zero_le i) _ _
    rw [← hsucc, hstate (i + 1) hi, hatr, getD_online _ hi]
    exact ⟨rfl, rfl⟩
  unfold supertrend
  simp only [atr_eq candles hperiod, bind, Except.bind, ← hatr]
  let start : (Option ℚ × ℤ) × List (Option ℚ) × List (Option ℤ) :=
    ((none, 1), blank candles.length, blank candles.length)
  refine congrArg₂ (fun line direction => Except.ok (line, direction)) ?_ ?_
  · refine loop_eq_online candles (t := start) (fun t => t.1) (fun t => t.2.1) step
      (fun s i => (atrS.getD i none).bind fun _ => (step s i).1) (fun t i => ?_)
      (fun t i hblank => ?_) rfl fun i hi => ?_
    · simp only [step, next]
      cases atrS.getD i none <;> rfl
    · simp only [step, next]
      cases atrS.getD i none with
      | none => exact (set_getElem?_self hblank).symm
      | some a => rfl
    · rw [(hemit i hi).1, (hemit i hi).2]
  · refine loop_eq_online candles (t := start) (fun t => t.1) (fun t => t.2.2) step
      (fun s i => (atrS.getD i none).map fun _ => (step s i).2) (fun t i => ?_)
      (fun t i hblank => ?_) rfl fun i hi => ?_
    · simp only [step, next]
      cases atrS.getD i none <;> rfl
    · simp only [step, next]
      cases atrS.getD i none with
      | none => exact (set_getElem?_self hblank).symm
      | some a => rfl
    · rw [(hemit i hi).1, (hemit i hi).2]

end Indicators

end TradingHub
