import Mathlib.Algebra.BigOperators.Group.List.Basic
import Mathlib.Algebra.Field.Basic
import Mathlib.Algebra.Order.Group.Abs
import TradingHub.Exchange.Models
import TradingHub.Library.Series

set_option autoImplicit false

/-! # Technical indicators

`app/analytics/indicators.py`, in exact arithmetic: series are over an ordered field, candles over
the rationals, and `** 0.5` is a parameter. A loop over indices is a `forRange`, a list that is
filled in is written with `set`, and an index is read with a default that the loops never reach.

The oscillators, and the averages that they are made of, are written for any division and used with
the one that always returns. The division of the language raises at zero, and does the same here:
see `TradingHub.Analytics.Division`. -/

namespace TradingHub

open Library

instance : Inhabited Candle := ⟨⟨0, 0, 0, 0, 0, 0⟩⟩

namespace Indicators

variable {K : Type} [Scalar K]

/-- `_require`. -/
def require (condition : Bool) (message : String) : Except AppError Unit :=
  if condition then .ok () else .error (.external "ValueError" message)

/-- `[None] * n`. -/
def blank {β : Type} (n : ℕ) : List (Option β) := List.replicate n none

/-- The division that returns whatever the divisor is. -/
def quotient (a b : K) : Except AppError K := .ok (a / b)

theorem quotient_of_guard [LinearOrder K] (a b : K) :
    (if 0 < b then quotient a b else pure 0) = .ok (if 0 < b then a / b else 0) := by
  split <;> rfl

/-! ## Averages -/

/-- `sma`, with the division `div`. -/
def smaWith (div : K → K → Except AppError K) (values : List K) (period : ℕ) :
    Except AppError (List (Option K)) := do
  require (0 < period) "period must be positive"
  let out := blank values.length
  if values.length < period then return out
  else
    let windowSum := (slice values 0 period).sum
    let entry ← div windowSum period
    let t ← forRangeM period values.length (windowSum, out.set (period - 1) (some entry)) fun t i => do
      let windowSum := t.1 + (values.getD i 0 - values.getD (i - period) 0)
      let entry ← div windowSum period
      return (windowSum, t.2.set i (some entry))
    return t.2

def sma (values : List K) (period : ℕ) : Except AppError (List (Option K)) :=
  smaWith quotient values period

@[simp] theorem smaWith_quotient (values : List K) (period : ℕ) :
    smaWith quotient values period = sma values period := rfl

def ema (values : List K) (period : ℕ) : Except AppError (List (Option K)) := do
  require (0 < period) "period must be positive"
  let out := blank values.length
  if values.length < period then return out
  else
    let multiplier : K := 2 / (period + 1)
    let prev := (slice values 0 period).sum / period
    let out := out.set (period - 1) (some prev)
    return (forRange period values.length (prev, out) fun t i =>
      let prev := (values.getD i 0 - t.1) * multiplier + t.1
      (prev, t.2.set i (some prev))).2

/-- The step of the loop of `ema`. -/
def emaStep (period : ℕ) (prev v : K) : K := (v - prev) * (2 / (period + 1)) + prev

/-- `wilder_smoothing`, with the division `div`. -/
def wilderSmoothingWith (div : K → K → Except AppError K) (values : List K) (period : ℕ) :
    Except AppError (List (Option K)) := do
  require (0 < period) "period must be positive"
  let out := blank values.length
  if values.length < period then return out
  else
    let prev ← div (slice values 0 period).sum period
    let t ← forRangeM period values.length (prev, out.set (period - 1) (some prev)) fun t i => do
      let prev ← div (t.1 * (period - 1) + values.getD i 0) period
      return (prev, t.2.set i (some prev))
    return t.2

def wilderSmoothing (values : List K) (period : ℕ) : Except AppError (List (Option K)) :=
  wilderSmoothingWith quotient values period

@[simp] theorem wilderSmoothingWith_quotient (values : List K) (period : ℕ) :
    wilderSmoothingWith quotient values period = wilderSmoothing values period := rfl

/-- The step of the loop of `wilder_smoothing`. -/
def wilderStep (period : ℕ) (prev v : K) : K := (prev * (period - 1) + v) / period

/-! ## Oscillators of the closes -/

section Rsi

variable [LinearOrder K]

/-- `_rsi_from`, with the division `div`. -/
def rsiFromWith {m : Type → Type} [Monad m] (div : K → K → m K) (avgGain avgLoss : K) : m K := do
  if avgLoss = 0 then return 100
  else
    let rs ← div avgGain avgLoss
    let share ← div 100 (1 + rs)
    return 100 - share

/-- `_rsi_from`. -/
def rsiFrom (avgGain avgLoss : K) : K :=
  Id.run (rsiFromWith (fun a b => pure (a / b)) avgGain avgLoss)

theorem rsiFrom_eq (avgGain avgLoss : K) :
    rsiFrom avgGain avgLoss
      = if avgLoss = 0 then 100 else 100 - 100 / (1 + avgGain / avgLoss) := by
  unfold rsiFrom rsiFromWith
  split <;> rfl

@[simp] theorem rsiFromWith_quotient (avgGain avgLoss : K) :
    rsiFromWith quotient avgGain avgLoss = .ok (rsiFrom avgGain avgLoss) := by
  unfold rsiFrom rsiFromWith
  split <;> rfl

/-- `rsi`, with the division `div`. -/
def rsiWith (div : K → K → Except AppError K) (closes : List K) (period : ℕ) :
    Except AppError (List (Option K)) := do
  require (0 < period) "period must be positive"
  let n := closes.length
  let out := blank n
  if n ≤ period then return out
  else
    let (gains, losses) := forRange 1 n (List.replicate n 0, List.replicate n 0) fun t i =>
      let change := closes.getD i 0 - closes.getD (i - 1) 0
      (t.1.set i (max change 0), t.2.set i (max (-change) 0))
    let avgGain ← div (slice gains 1 (period + 1)).sum period
    let avgLoss ← div (slice losses 1 (period + 1)).sum period
    let entry ← rsiFromWith div avgGain avgLoss
    let t ← forRangeM (period + 1) n ((avgGain, avgLoss), out.set period (some entry)) fun t i => do
      let avgGain ← div (t.1.1 * (period - 1) + gains.getD i 0) period
      let avgLoss ← div (t.1.2 * (period - 1) + losses.getD i 0) period
      let entry ← rsiFromWith div avgGain avgLoss
      return ((avgGain, avgLoss), t.2.set i (some entry))
    return t.2

def rsi (closes : List K) (period : ℕ) : Except AppError (List (Option K)) :=
  rsiWith quotient closes period

end Rsi

/-- The loop that puts a compacted series back behind the gaps of the line it was taken from. -/
def putBack {β : Type} (offset : ℕ) (values : List (Option β)) (out : List (Option β)) :
    List (Option β) :=
  forRange 0 values.length out fun out j => out.set (offset + j) (values.getD j none)

/-- `macd`: the line, the signal line and the histogram. -/
def macd (closes : List K) (fast slow signal : ℕ) :
    Except AppError (List (Option K) × List (Option K) × List (Option K)) := do
  require (fast < slow ∧ 0 < fast ∧ 0 < signal) "require slow > fast > 0 and signal > 0"
  let fastEma ← ema closes fast
  let slowEma ← ema closes slow
  let macdLine := List.zipWith (Option.map₂ fun f s => f - s) fastEma slowEma
  let defined := macdLine.reduceOption
  let signalDefined ← ema defined signal
  let offset := macdLine.length - defined.length
  let (signalLine, hist) := forRange 0 signalDefined.length
    (blank macdLine.length, blank macdLine.length) fun t j =>
      let sig := signalDefined.getD j none
      let idx := offset + j
      match sig, macdLine.getD idx none with
      | some sig, some macdVal => (t.1.set idx (some sig), t.2.set idx (some (macdVal - sig)))
      | sig, _ => (t.1.set idx sig, t.2)
  return (macdLine, signalLine, hist)

/-- `bollinger_bands`: upper, middle and lower. -/
def bollingerBands (sqrt : K → K) (closes : List K) (period : ℕ) (numStd : K) :
    Except AppError (List (Option K) × List (Option K) × List (Option K)) := do
  require (0 < period) "period must be positive"
  let middle ← sma closes period
  let (upper, lower) ← forRangeM (period - 1) closes.length
    (blank closes.length, blank closes.length) fun t i =>
      let window := slice closes (i + 1 - period) (i + 1)
      match middle.getD i none with
      | none => .error (.external "AssertionError" "")
      | some mean =>
        let variance := (window.map fun x : K => (x - mean) ^ 2).sum / (period : K)
        let std := sqrt variance
        .ok (t.1.set i (some (mean + numStd * std)), t.2.set i (some (mean - numStd * std)))
  return (upper, middle, lower)

/-! ## Candles -/

/-- `true_range`; the first one is high minus low. -/
def trueRange (candles : List Candle) : List ℚ :=
  candles.zipIdx.map fun e =>
    let c := e.1
    if e.2 = 0 then c.high - c.low
    else
      let prevClose := (candles.getD (e.2 - 1) default).close
      max (max (c.high - c.low) |c.high - prevClose|) |c.low - prevClose|

def atr (candles : List Candle) (period : ℕ) : Except AppError (List (Option ℚ)) :=
  wilderSmoothing (trueRange candles) period

def vwap (candles : List Candle) : List (Option ℚ) :=
  (candles.foldl (fun t c =>
    let typical := (c.high + c.low + c.close) / 3
    let cumPv := t.1.1 + typical * c.volume
    let cumVol := t.1.2 + c.volume
    ((cumPv, cumVol), t.2 ++ [if 0 < cumVol then some (cumPv / cumVol) else none]))
    (((0 : ℚ), (0 : ℚ)), [])).2

/-- `stochastic`: %K and %D, with the division `div`. A period of zero asks for the maximum of an
    empty window. -/
def stochasticWith (div : ℚ → ℚ → Except AppError ℚ) (candles : List Candle)
    (kPeriod dPeriod : ℕ) : Except AppError (List (Option ℚ) × List (Option ℚ)) := do
  let n := candles.length
  let emptyWindow : AppError := .external "ValueError" "max() iterable argument is empty"
  if kPeriod = 0 then .error emptyWindow
  else
    let k ← forRangeM (kPeriod - 1) n (blank n) fun k i =>
      let window := slice candles (i + 1 - kPeriod) (i + 1)
      match (window.map (·.high)).max?, (window.map (·.low)).min? with
      | some highest, some lowest => do
        let rng := highest - lowest
        let entry ← (if 0 < rng then
          div (100 * ((candles.getD i default).close - lowest)) rng else pure 0 : Except _ _)
        return k.set i (some entry)
      | _, _ => .error emptyWindow
    let kDefined := k.reduceOption
    let dDefined ← smaWith div kDefined dPeriod
    return (k, putBack (n - kDefined.length) dDefined (blank n))

def stochastic (candles : List Candle) (kPeriod dPeriod : ℕ) :
    Except AppError (List (Option ℚ) × List (Option ℚ)) :=
  stochasticWith quotient candles kPeriod dPeriod

/-- The part of `adx` that fills in the list `dx`: it has gaps where there is no average true range
    yet, or where that is zero. -/
def dxWith (div : ℚ → ℚ → Except AppError ℚ) (candles : List Candle) (period : ℕ) :
    Except AppError (List (Option ℚ)) := do
  let n := candles.length
  let tr := trueRange candles
  let (plusDm, minusDm) := forRange 1 n (List.replicate n 0, List.replicate n 0) fun t i =>
    let upMove := (candles.getD i default).high - (candles.getD (i - 1) default).high
    let downMove := (candles.getD (i - 1) default).low - (candles.getD i default).low
    (t.1.set i (if downMove < upMove ∧ 0 < upMove then upMove else 0),
      t.2.set i (if upMove < downMove ∧ 0 < downMove then downMove else 0))
  let atrS ← wilderSmoothingWith div tr period
  let plusS ← wilderSmoothingWith div plusDm period
  let minusS ← wilderSmoothingWith div minusDm period
  forRangeM 0 n (blank n) fun dx i =>
    match atrS.getD i none, plusS.getD i none, minusS.getD i none with
    | some a, some p, some m =>
      if a = 0 then pure dx
      else do
        let plusDi ← div (100 * p) a
        let minusDi ← div (100 * m) a
        let denom := plusDi + minusDi
        let entry ← (if 0 < denom then
          div (100 * |plusDi - minusDi|) denom else pure 0 : Except _ _)
        return dx.set i (some entry)
    | _, _, _ => pure dx

def dx (candles : List Candle) (period : ℕ) : Except AppError (List (Option ℚ)) :=
  dxWith quotient candles period

@[simp] theorem dxWith_quotient (candles : List Candle) (period : ℕ) :
    dxWith quotient candles period = dx candles period := rfl

/-- `adx`, with the division `div`. -/
def adxWith (div : ℚ → ℚ → Except AppError ℚ) (candles : List Candle) (period : ℕ) :
    Except AppError (List (Option ℚ)) := do
  let n := candles.length
  let out := blank n
  -- `n < 2 * period - 1`
  if n + 1 < 2 * period then return out
  else
    let dx ← dxWith div candles period
    let dxDefined := dx.reduceOption
    let adxDefined ← wilderSmoothingWith div dxDefined period
    return putBack (n - dxDefined.length) adxDefined out

def adx (candles : List Candle) (period : ℕ) : Except AppError (List (Option ℚ)) :=
  adxWith quotient candles period

/-- One candle of the loop of `supertrend`, with an average true range: the line and the
    direction. -/
def supertrendNext (multiplier : ℚ) (prev : Option ℚ × ℤ) (c : Candle) (a : ℚ) : ℚ × ℤ :=
  let hl2 := (c.high + c.low) / 2
  let upper := hl2 + multiplier * a
  let lower := hl2 - multiplier * a
  match prev.1 with
  | none => (lower, 1)
  | some prevLine =>
    if prev.2 = 1 then
      let lower := max lower prevLine
      if c.close < lower then (upper, -1) else (lower, prev.2)
    else
      let upper := min upper prevLine
      if upper < c.close then (lower, 1) else (upper, prev.2)

/-- `supertrend`: the line and the direction. -/
def supertrend (candles : List Candle) (period : ℕ) (multiplier : ℚ) :
    Except AppError (List (Option ℚ) × List (Option ℤ)) := do
  let n := candles.length
  let atrS ← atr candles period
  let t := forRange 0 n (((none : Option ℚ), (1 : ℤ)), blank n, blank n) fun t i =>
    match atrS.getD i none with
    | none => t
    | some a =>
      let next := supertrendNext multiplier t.1 (candles.getD i default) a
      ((some next.1, next.2), t.2.1.set i (some next.1), t.2.2.set i (some next.2))
  return t.2

end Indicators

end TradingHub
