import TradingHub.Library.Decimals

set_option autoImplicit false

/-! # Domain values

The enumerations of `app/trading/enums.py`, the exception hierarchy of `app/core/exceptions.py`
and the transfer objects of `app/exchange/models.py`. A `Decimal` is a rational number, and the
result of every operation on it is fixed by the decimal context: Python computes in
`defaultContext`. A definition or statement that names no context is about exact arithmetic.

An exception carries the values its message is formatted from, not the formatted text. -/

namespace TradingHub

open Library
open DecimalContext (fix)

/-! ## Decimals -/

/-- `decimal.DefaultContext`: 28 digits, halves to even, and no digit below `Etiny`. `Overflow`, for
    a result of 10 to the power of a million or more, is not modelled. -/
@[reducible] def defaultContext : DecimalContext :=
  .ofPrecision 28 (-1000026) (by norm_num) (by norm_num)

/-! ## Enumerations -/

inductive OrderSide
  | buy
  | sell
deriving DecidableEq, Repr

inductive OrderType
  | market
  | limit
  | stop
  | stopLimit
  | takeProfit
  | trailingStop
deriving DecidableEq, Repr

inductive TimeInForce
  | gtc
  | ioc
  | fok
deriving DecidableEq, Repr

inductive OrderStatus
  | pending
  | open
  | partiallyFilled
  | filled
  | canceled
  | rejected
  | expired
deriving DecidableEq, Repr

/-- The text of a status in the database and the API. -/
def OrderStatus.value : OrderStatus → String
  | .pending => "pending"
  | .open => "open"
  | .partiallyFilled => "partially_filled"
  | .filled => "filled"
  | .canceled => "canceled"
  | .rejected => "rejected"
  | .expired => "expired"

inductive PositionSide
  | long
  | short
  | both
deriving DecidableEq, Repr

inductive MarginMode
  | isolated
  | cross
deriving DecidableEq, Repr

/-! ## Exceptions -/

/-- The limit a `RiskLimitError` names in its details; `equity` is the check that names none. -/
inductive RiskLimit
  | equity
  | maxLeverage
  | maxPositionMarginPct
  | minRiskReward
deriving DecidableEq, Repr

/-- An exception that leaves a service. `external` is any exception that is not an `AppError`
    (the database driver, ccxt, an enum constructor), by its class name and text. -/
inductive AppError
  | notFound (message : String)
  | validation (message : String)
  | authentication (message : String)
  | encryption (message : String)
  | exchange (exchangeId method text : String)
  | exchangeUnavailable (exchangeId text : String)
  | circuitOpen (circuit : String)
  | unsupportedExchange (message exchangeId : String)
  | insufficientBalance (asset : String) (need free : ℚ)
  | riskLimit (limit : RiskLimit)
  | external (name text : String)
deriving DecidableEq, Repr

/-- `isinstance(exc, ExchangeError)`. -/
def AppError.isExchangeError : AppError → Bool
  | .exchange _ _ _ => true
  | .exchangeUnavailable _ _ => true
  | .circuitOpen _ => true
  | _ => false

/-- `isinstance(exc, NotFoundError)`. -/
def AppError.isNotFound : AppError → Bool
  | .notFound _ => true
  | _ => false

/-! ## Transfer objects -/

structure Ticker where
  symbol : String
  last : ℚ
  bid : Option ℚ
  ask : Option ℚ
  high : Option ℚ
  low : Option ℚ
  baseVolume : Option ℚ
  timestamp : Option ℤ
deriving DecidableEq, Repr

structure OrderBookLevel where
  price : ℚ
  amount : ℚ
deriving DecidableEq, Repr

structure OrderBook where
  symbol : String
  bids : List OrderBookLevel
  asks : List OrderBookLevel
  timestamp : Option ℤ
deriving DecidableEq, Repr

structure Candle where
  timestamp : ℤ
  «open» : ℚ
  high : ℚ
  low : ℚ
  close : ℚ
  volume : ℚ
deriving DecidableEq, Repr

structure Balance where
  asset : String
  free : ℚ
  used : ℚ
deriving DecidableEq, Repr

def Balance.total [DecimalContext] (b : Balance) : ℚ := fix (b.free + b.used)

/-- A normalised request to place an order. -/
structure OrderRequest where
  symbol : String
  side : OrderSide
  type : OrderType
  amount : ℚ
  price : Option ℚ := none
  stopPrice : Option ℚ := none
  timeInForce : TimeInForce := .gtc
  reduceOnly : Bool := false
  postOnly : Bool := false
  leverage : Option ℤ := none
  clientOrderId : Option String := none
deriving DecidableEq, Repr

/-- An order as an adapter reports it. The paper adapter always knows the symbol; an exchange may
    report a null one, so the type of the symbol is a parameter. -/
structure Order (Symbol : Type) where
  id : String
  symbol : Symbol
  side : OrderSide
  type : OrderType
  status : OrderStatus
  amount : ℚ
  filled : ℚ
  price : Option ℚ
  average : Option ℚ
  timestamp : Option ℤ
  clientOrderId : Option String := none
  fee : ℚ := 0
  isPaper : Bool := false
deriving DecidableEq, Repr

structure Position where
  symbol : Option String
  side : PositionSide
  contracts : ℚ
  entryPrice : ℚ
  markPrice : Option ℚ
  leverage : ℤ
  marginMode : MarginMode
  unrealizedPnl : ℚ
  liquidationPrice : Option ℚ
deriving DecidableEq, Repr

end TradingHub
