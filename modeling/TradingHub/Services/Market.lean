import TradingHub.Services.Account

set_option autoImplicit false

/-! # The market and portfolio services

`app/services/market_service.py` and `app/services/portfolio_service.py`. The indicator formulas
are a parameter here: they are pure functions of the candles. -/

namespace TradingHub

open Library

namespace MarketService

/-- Use a public adapter and close it however the use ends. -/
def withPublicAdapter {α : Type} (env : Env) (exchangeId : String)
    (body : CcxtAdapter → Service α) : Service α := do
  let adapter ← ExchangeFactory.publicMarketAdapter exchangeId
  Act.tryFinally (body adapter) (CcxtAdapter.close env)

def ticker (env : Env) (exchangeId symbol : String) : Service Ticker :=
  withPublicAdapter env exchangeId fun adapter => adapter.fetchTicker env symbol

def orderBook (env : Env) (exchangeId symbol : String) (limit : ℤ) : Service OrderBook :=
  withPublicAdapter env exchangeId fun adapter => adapter.fetchOrderBook env symbol limit

def supportedTimeframes : List String :=
  ["1m", "3m", "5m", "15m", "30m", "1h", "2h", "4h", "6h", "12h", "1d", "1w", "1M"]

def candles (env : Env) (exchangeId symbol timeframe : String) (limit : ℤ) :
    Service (List Candle) :=
  if timeframe ∈ supportedTimeframes then
    withPublicAdapter env exchangeId fun adapter => adapter.fetchOhlcv env symbol timeframe limit
  else Act.raise (.validation ("Unsupported timeframe: " ++ timeframe))

def supportedIndicators : List String :=
  ["rsi", "sma", "ema", "atr", "vwap", "adx", "macd", "bollinger", "stochastic", "supertrend"]

def indicator (env : Env)
    (computeIndicator : String → List Candle → ℤ → Except AppError (List (Option ℚ)))
    (exchangeId symbol name timeframe : String) (period limit : ℤ) :
    Service (List (Option ℚ)) :=
  let name := lower name
  if name ∈ supportedIndicators then do
    let cs ← candles env exchangeId symbol timeframe limit
    Act.ofExcept (computeIndicator name cs period)
  else Act.raise (.validation ("Unknown indicator: " ++ name))

end MarketService

namespace PortfolioService

/-- Add one balance to the totals. -/
def addBalance (totals : Dict String Balance) (b : Balance) : Dict String Balance :=
  let t := (totals.get? b.asset).getD ⟨b.asset, 0, 0⟩
  totals.set b.asset ⟨b.asset, t.free + b.free, t.used + b.used⟩

/-- The loop of `aggregate_balances`: an account whose balances cannot be read is skipped. -/
def aggregateFrom (env : Env) (totals : Dict String Balance) :
    List ExchangeAccount → Service (Dict String Balance)
  | [] => return totals
  | account :: rest => do
    let balances ← Act.tryExcept
      (AccountService.adapterSession env account false fun adapter => adapter.fetchBalance env)
      (fun _ => return [])
    aggregateFrom env (balances.foldl addBalance totals) rest

def aggregateBalances (env : Env) (userId : String) : Service (Dict String Balance) := do
  let accounts ← AccountService.listAccounts env userId
  aggregateFrom env Dict.empty accounts

end PortfolioService

end TradingHub
