import TradingHub.Analytics.Units
import TradingHub.Library.RelTriple
import TradingHub.Services.Operations

set_option autoImplicit false

/-! # Charts

`compute_indicator` of `app/services/market_service.py` and the endpoint of
`app/api/v1/analytics.py` that answers with it. What a chart shows does not depend on the units an
exchange quotes in: an exchange with the same candles in another currency, with its prices counted
from another origin or its volumes in other lots, gets the same requests, and the chart drawn from
its answers is the same chart with the labels of the axis changed.

The two runs are compared call by call (`Carries`): they leave the same trace, and what they return
is carried over. The formulas are compared in `Units`. -/

namespace TradingHub

open Library

/-! ## The endpoint -/

namespace MarketService

/-- `compute_indicator`: of an indicator with several series, its primary line. -/
def computeIndicator (sqrt : ℚ → ℚ) (name : String) (candles : List Candle) (period : ℕ) :
    Except AppError (List (Option ℚ)) :=
  let name := lower name
  let closes := candles.map (·.close)
  if name = "rsi" then Indicators.rsi closes period
  else if name = "sma" then Indicators.sma closes period
  else if name = "ema" then Indicators.ema closes period
  else if name = "atr" then Indicators.atr candles period
  else if name = "vwap" then .ok (Indicators.vwap candles)
  else if name = "adx" then Indicators.adx candles period
  else if name = "macd" then (Indicators.macd closes 12 26 9).map (·.1)
  else if name = "bollinger" then (Indicators.bollingerBands sqrt closes period 2).map (·.2.1)
  else if name = "stochastic" then (Indicators.stochastic candles period 3).map (·.1)
  else if name = "supertrend" then (Indicators.supertrend candles period 3).map (·.1)
  else .error (.validation ("Unknown indicator: " ++ name))

end MarketService

/-- The response of the endpoint; `latest` is the last value that is there. -/
structure IndicatorOut where
  symbol : String
  timeframe : String
  indicator : String
  values : List (Option ℚ)
  latest : Option ℚ
deriving DecidableEq, Repr

/-- `next((v for v in reversed(values) if v is not None), None)`. -/
def latestOf (values : List (Option ℚ)) : Option ℚ := values.reverse.findSome? id

/-- `get_indicator`. The route admits only positive periods. -/
def getIndicator (env : Env) (sqrt : ℚ → ℚ) (exchangeId symbol name timeframe : String) (period : ℕ)
    (limit : ℤ) : Service IndicatorOut := do
  let values ← MarketService.indicator env
    (fun name candles period => MarketService.computeIndicator sqrt name candles period.toNat)
    exchangeId symbol name timeframe period limit
  return ⟨symbol, timeframe, lower name, values, latestOf values⟩

/-! ## Readings -/

/-- What the values of an indicator are: prices, distances between prices, or numbers without a
    unit. -/
inductive Reading
  | level
  | spread
  | ratio
deriving DecidableEq, Repr

/-- A value where the prices are stretched by `a` and shifted by `b`. -/
def Reading.restate (a b : ℚ) : Reading → ℚ → ℚ
  | .level, x => a * x + b
  | .spread, x => a * x
  | .ratio, x => x

def reading (name : String) : Reading :=
  if name ∈ ["rsi", "adx", "stochastic"] then .ratio
  else if name ∈ ["atr", "macd"] then .spread
  else .level

def IndicatorOut.restate (a b : ℚ) (o : IndicatorOut) : IndicatorOut :=
  { o with
    values := o.values.map (Option.map ((reading o.indicator).restate a b))
    latest := o.latest.map ((reading o.indicator).restate a b) }

theorem latestOf_map (f : ℚ → ℚ) (values : List (Option ℚ)) :
    latestOf (values.map (Option.map f)) = (latestOf values).map f := by
  unfold latestOf
  rw [← List.map_reverse]
  induction values.reverse with
  | nil => rfl
  | cons v vs ih =>
    cases v with
    | none => exact ih
    | some v => rfl

/-! ## The formulas -/

namespace MarketService

open Indicators

variable {a b v : ℚ} {time : ℤ → ℤ}

theorem macdLine_of_macd (closes : List ℚ) :
    (macd closes 12 26 9).map (·.1) = .ok (macdLine 12 26 closes) := by
  rw [macd_eq closes (by decide) (by decide) (by decide)]
  rfl

/-- The middle of the bands is the average of the closes. -/
theorem bollingerMiddle (sqrt : ℚ → ℚ) (closes : List ℚ) (period : ℕ) :
    (bollingerBands sqrt closes period 2).map (·.2.1) = sma closes period := by
  rcases Nat.eq_zero_or_pos period with rfl | hperiod
  · rfl
  · rw [bollingerBands_eq sqrt closes hperiod, sma_eq closes hperiod]
    rfl

theorem stochasticK (ha : 0 < a) (candles : List Candle) (period : ℕ) :
    (stochastic (candles.map (Candle.restate a b v time)) period 3).map (·.1)
      = (stochastic candles period 3).map (·.1) := by
  rcases Nat.eq_zero_or_pos period with rfl | hperiod
  · rfl
  · rw [stochastic_eq _ hperiod (by decide), stochastic_eq _ hperiod (by decide)]
    exact congrArg Except.ok (stochasticK_restate ha candles period)

theorem map_ratio (r : Except AppError (List (Option ℚ))) :
    r.map (List.map (Option.map (Reading.ratio.restate a b))) = r := by
  have hid : Reading.ratio.restate a b = id := rfl
  rw [hid, Option.map_id, List.map_id_fun, Except.map_id, id]

/-- The primary line of an indicator, over candles in other units. -/
theorem computeIndicator_restate (ha : 0 < a) (hv : 0 < v) (sqrt : ℚ → ℚ) (name : String)
    (candles : List Candle) (period : ℕ) :
    computeIndicator sqrt name (candles.map (Candle.restate a b v time)) period
      = (computeIndicator sqrt name candles period).map
          (List.map (Option.map ((reading (lower name)).restate a b))) := by
  unfold computeIndicator
  simp only [closes_restate]
  generalize lower name = name
  by_cases h : name = "rsi"
  · subst h
    rw [if_pos rfl, if_pos rfl, rsi_affine ha]
    exact (map_ratio _).symm
  rw [if_neg h, if_neg h]
  by_cases h : name = "sma"
  · subst h
    exact sma_affine a b period _
  rw [if_neg h, if_neg h]
  by_cases h : name = "ema"
  · subst h
    exact ema_affine a b period _
  rw [if_neg h, if_neg h]
  by_cases h : name = "atr"
  · subst h
    exact atr_restate ha candles period
  rw [if_neg h, if_neg h]
  by_cases h : name = "vwap"
  · subst h
    exact congrArg Except.ok (vwap_restate hv candles)
  rw [if_neg h, if_neg h]
  by_cases h : name = "adx"
  · subst h
    rw [if_pos rfl, if_pos rfl, adx_restate ha]
    exact (map_ratio _).symm
  rw [if_neg h, if_neg h]
  by_cases h : name = "macd"
  · subst h
    rw [if_pos rfl, if_pos rfl, macdLine_of_macd, macdLine_of_macd,
      macdLine_affine a b (by decide) (by decide)]
    rfl
  rw [if_neg h, if_neg h]
  by_cases h : name = "bollinger"
  · subst h
    rw [if_pos rfl, if_pos rfl, bollingerMiddle, bollingerMiddle]
    exact sma_affine a b period _
  rw [if_neg h, if_neg h]
  by_cases h : name = "stochastic"
  · subst h
    rw [if_pos rfl, if_pos rfl, stochasticK ha]
    exact (map_ratio _).symm
  rw [if_neg h, if_neg h]
  by_cases h : name = "supertrend"
  · subst h
    rw [if_pos rfl, if_pos rfl, supertrend_restate ha]
    cases supertrend candles period 3 with
    | error e => rfl
    | ok t => rfl
  rw [if_neg h, if_neg h]
  rfl

theorem lower_of_supported : ∀ name ∈ supportedIndicators, lower name = name := by decide

end MarketService

/-! ## An exchange that quotes in other units -/

/-- A row of candles with its prices stretched by `a` and shifted by `b`, and its volume stretched
    by `v`. -/
def restateRow (a b v : ℚ) : List ℚ → List ℚ
  | ts :: o :: h :: low :: c :: vol :: rest =>
    ts :: (a * o + b) :: (a * h + b) :: (a * low + b) :: (a * c + b) :: (v * vol) :: rest
  | row => row

/-- The payload of a call; only candles are restated. -/
def restateReply (a b v : ℚ) : (m : Method) → m.Reply → m.Reply
  | .fetchOhlcv _ _ _ => List.map (restateRow a b v)
  | _ => id

def Env.restated (env : Env) (a b v : ℚ) : Env :=
  { env with ccxt := { env.ccxt with
      reply := fun log client m => (env.ccxt.reply log client m).map (restateReply a b v m) } }

section Exchange

variable {a b v : ℚ}

theorem candleOfRow_restate (row : List ℚ) :
    CcxtAdapter.candleOfRow (restateRow a b v row)
      = (CcxtAdapter.candleOfRow row).map (Candle.restate a b v id) := by
  unfold restateRow
  split
  · rfl
  · next hshort =>
    unfold CcxtAdapter.candleOfRow
    split
    · next ts o h low c vol rest => exact absurd rfl (hshort ts o h low c vol rest)
    · rfl

theorem candlesOfRows_restate (rows : List (List ℚ)) :
    (rows.map (restateRow a b v)).mapM CcxtAdapter.candleOfRow
      = (rows.mapM CcxtAdapter.candleOfRow).map (List.map (Candle.restate a b v id)) := by
  induction rows with
  | nil => rfl
  | cons row rows ih =>
    rw [List.map_cons, List.mapM_cons, List.mapM_cons, candleOfRow_restate, ih]
    cases CcxtAdapter.candleOfRow row with
    | error e => rfl
    | ok c =>
      cases rows.mapM CcxtAdapter.candleOfRow with
      | error e => rfl
      | ok cs => rfl

open CcxtAdapter

variable {env : Env} {c : CcxtAdapter}

theorem invoke_restated (client : CcxtClient) (m : Method) :
    Act.Carries (restateReply a b v m) (invoke env client m) (invoke (env.restated a b v) client m) := by
  intro w
  unfold invoke
  simp only [Act.bind_of_ok (show Act.read w = (.ok w, w) from rfl), Env.restated]
  cases env.ccxt.reply w.log client m with
  | error e => rfl
  | ok r => rfl

theorem buildClient_restated :
    Act.Carries id (c.buildClient env) (c.buildClient (env.restated a b v)) := by
  unfold buildClient
  refine Act.Carries.ite ?_ (Act.Carries.raise _ _)
  refine Act.Carries.bind (Act.Carries.refl _) fun _ => ?_
  refine Act.Carries.ite ?_ (Act.Carries.pure _ _)
  refine Act.Carries.tryExcept ?_ fun _ => Act.Carries.pure _ _
  exact (invoke_restated c.configured .setSandboxMode).bind fun _ => Act.Carries.pure _ _

theorem getClient_restated :
    Act.Carries id (c.getClient env) (c.getClient (env.restated a b v)) := by
  unfold getClient
  refine Act.Carries.bind (Act.Carries.refl _) fun w => ?_
  simp only [id]
  cases w.client with
  | some client => exact Act.Carries.pure _ _
  | none =>
    refine buildClient_restated.bind fun client => ?_
    exact Act.Carries.bind (Act.Carries.refl _) fun _ => Act.Carries.pure _ _

/-- The breakers see the same clock and the same successes and failures. -/
theorem breakerCall_restated {α β : Type} {f : α → β} {func : Service α} {func' : Service β}
    (h : Act.Carries f func func') :
    Act.Carries f (c.breakerCall env func) (c.breakerCall (env.restated a b v) func') := by
  unfold breakerCall
  refine Act.Carries.bind (Act.Carries.refl _) fun w => ?_
  refine Act.Carries.bind (Act.Carries.refl _) fun _ => ?_
  refine Act.Carries.ite ?_ (Act.Carries.raise _ _)
  refine Act.Carries.bind (h.tryExcept fun e => ?_) fun result => ?_
  · exact Act.Carries.bind (Act.Carries.refl _) fun _ => Act.Carries.raise _ _
  · exact Act.Carries.bind (Act.Carries.refl _) fun _ => Act.Carries.pure _ _

theorem call_restated (m : Method) :
    Act.Carries (restateReply a b v m) (c.call env m) (c.call (env.restated a b v) m) := by
  unfold call
  refine (breakerCall_restated ?_).tryExcept fun e => Act.Carries.raise _ _
  exact getClient_restated.bind fun client => invoke_restated client m

theorem close_restated : Act.Carries id (close env) (close (env.restated a b v)) := by
  unfold close
  refine Act.Carries.bind (Act.Carries.refl _) fun w => ?_
  simp only [id]
  cases w.client with
  | none => exact Act.Carries.pure _ _
  | some client =>
    exact (invoke_restated client .close).bind fun _ => Act.Carries.refl _

theorem fetchOhlcv_restated (symbol timeframe : String) (limit : ℤ) :
    Act.Carries (List.map (Candle.restate a b v id)) (c.fetchOhlcv env symbol timeframe limit)
      (c.fetchOhlcv (env.restated a b v) symbol timeframe limit) :=
  (call_restated (.fetchOhlcv symbol timeframe limit)).bind fun rows =>
    Act.Carries.ofExcept (candlesOfRows_restate rows)

theorem candles_restated (exchangeId symbol timeframe : String) (limit : ℤ) :
    Act.Carries (List.map (Candle.restate a b v id))
      (MarketService.candles env exchangeId symbol timeframe limit)
      (MarketService.candles (env.restated a b v) exchangeId symbol timeframe limit) := by
  unfold MarketService.candles
  split
  · unfold MarketService.withPublicAdapter
    refine Act.Carries.bind (Act.Carries.refl _) fun c => ?_
    have hclose : close env = close (env.restated a b v) :=
      funext fun w => by rw [close_restated w, Except.map_id]; rfl
    rw [← hclose]
    exact (fetchOhlcv_restated symbol timeframe limit).tryFinally
  · exact Act.Carries.raise _ _

theorem indicator_restated (ha : 0 < a) (hv : 0 < v) (sqrt : ℚ → ℚ)
    (exchangeId symbol name timeframe : String) (period limit : ℤ) :
    let compute := fun name candles (period : ℤ) =>
      MarketService.computeIndicator sqrt name candles period.toNat
    Act.Carries (List.map (Option.map ((reading (lower name)).restate a b)))
      (MarketService.indicator env compute exchangeId symbol name timeframe period limit)
      (MarketService.indicator (env.restated a b v) compute exchangeId symbol name timeframe period
        limit) := by
  intro compute
  unfold MarketService.indicator
  by_cases hname : lower name ∈ MarketService.supportedIndicators
  · rw [if_pos hname, if_pos hname]
    refine (candles_restated exchangeId symbol timeframe limit).bind fun candles => ?_
    refine Act.Carries.ofExcept ?_
    have hreading : reading (lower (lower name)) = reading (lower name) := by
      rw [MarketService.lower_of_supported _ hname]
    rw [← hreading]
    exact MarketService.computeIndicator_restate ha hv sqrt (lower name) candles period.toNat
  · rw [if_neg hname, if_neg hname]
    exact Act.Carries.raise _ _

end Exchange

/-- An exchange that quotes in other units gets the same requests, and its charts are the charts of
    the other one with the axis labelled anew: levels are stretched and shifted as the prices are,
    distances are stretched, and indices without a unit are the same, in exact arithmetic. Where the
    one request fails, the other fails the same way. -/
theorem charts_read_the_same {a b v : ℚ} (ha : 0 < a) (hv : 0 < v) (env : Env) (sqrt : ℚ → ℚ)
    (exchangeId symbol name timeframe : String) (period : ℕ) (limit : ℤ) (w : World) :
    getIndicator (env.restated a b v) sqrt exchangeId symbol name timeframe period limit w
      = ((getIndicator env sqrt exchangeId symbol name timeframe period limit w).1.map
            (IndicatorOut.restate a b),
          (getIndicator env sqrt exchangeId symbol name timeframe period limit w).2) := by
  have hcarries : Act.Carries (IndicatorOut.restate a b)
      (getIndicator env sqrt exchangeId symbol name timeframe period limit)
      (getIndicator (env.restated a b v) sqrt exchangeId symbol name timeframe period limit) := by
    refine (indicator_restated ha hv sqrt exchangeId symbol name timeframe period limit).bind
      fun values => ?_
    rw [latestOf_map]
    exact Act.Carries.pure (IndicatorOut.restate a b) _
  exact hcarries w

/-- An exchange that knows one series of candles. -/
def Env.charting : Env :=
  { Env.quiet 100 "n" with ccxt := { CcxtLibrary.quoting 100 with
      reply := fun log client m => match m with
        | .fetchOhlcv _ _ _ => .ok [[0, 10, 12, 9, 10, 1], [1, 10, 14, 10, 13, 2], [2, 13, 15, 11, 12, 1]]
        | m => (CcxtLibrary.quoting 100).reply log client m } }

/-- In cents instead of dollars, and counted from a price of five. -/
theorem charts_sample :
    (getIndicator Env.charting id "kraken" "BTC/USDT" "SMA" "1h" 2 50
        (World.boot ⟨true, true⟩ (Db.oneLiveAccount "kraken"))).1
      = .ok ⟨"BTC/USDT", "1h", "sma", [none, some (23 / 2), some (25 / 2)], some (25 / 2)⟩ ∧
    (getIndicator (Env.charting.restated 100 500 3) id "kraken" "BTC/USDT" "SMA" "1h" 2 50
        (World.boot ⟨true, true⟩ (Db.oneLiveAccount "kraken"))).1
      = .ok ⟨"BTC/USDT", "1h", "sma", [none, some 1650, some 1750], some 1750⟩ := by
  have hchart : (getIndicator Env.charting id "kraken" "BTC/USDT" "SMA" "1h" 2 50
        (World.boot ⟨true, true⟩ (Db.oneLiveAccount "kraken"))).1
      = .ok ⟨"BTC/USDT", "1h", "sma", [none, some (23 / 2), some (25 / 2)], some (25 / 2)⟩ := by
    decide +kernel
  refine ⟨hchart, ?_⟩
  rw [charts_read_the_same (by norm_num) (by norm_num), hchart]
  decide +kernel

end TradingHub
