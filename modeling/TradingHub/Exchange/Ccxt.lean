import TradingHub.Core.World

set_option autoImplicit false

/-! # The ccxt adapter

`app/exchange/ccxt_adapter.py`: the adapter over one ccxt client, built lazily, every call guarded
by the exchange's shared circuit breaker and its errors normalised. -/

namespace TradingHub

open Library

structure CcxtAdapter where
  info : ExchangeInfo
  credentials : Option ExchangeCredentials
  defaultMarketType : String
deriving DecidableEq, Repr

/-! ## Numbers -/

/-- `_dec`. -/
def dec : Option RawNumber → Option ℚ
  | none => none
  | some .emptyText => none
  | some (.num q) => some q

/-- `_dec0`. -/
def dec0 (value : Option RawNumber) : ℚ := (dec value).getD 0

namespace CcxtAdapter

/-! ## Lifecycle -/

/-- The constructor; a new adapter has no client yet. -/
def new (exchangeId : String) (credentials : Option ExchangeCredentials)
    (defaultMarketType : String := "spot") : Service CcxtAdapter :=
  match getInfo exchangeId with
  | none => Act.raise (.unsupportedExchange "The requested exchange is not supported." exchangeId)
  | some info => do
    Act.modify fun w => { w with client := none }
    return ⟨info, credentials, defaultMarketType⟩

/-- Make a call on a client and put it on the trace. -/
def invoke (env : Env) (client : CcxtClient) (m : Method) : Service m.Reply := do
  let w ← Act.read
  match env.ccxt.reply w.log client m with
  | .ok r => do
    Act.modify fun w => { w with log := w.log ++ [.call client m true] }
    return r
  | .error (name, text) => do
    Act.modify fun w => { w with log := w.log ++ [.call client m false] }
    Act.raise (.external name text)

/-- The client the configuration of `_build_client` describes, before sandbox mode. -/
def configured (c : CcxtAdapter) : CcxtClient :=
  match c.credentials with
  | some creds =>
    if creds.isComplete then
      { exchangeId := c.info.id
        apiKey := some creds.apiKey
        secret := some creds.apiSecret
        password := if creds.passphrase = some "" then none else creds.passphrase
        defaultType := c.defaultMarketType
        sandbox := false }
    else ⟨c.info.id, none, none, none, c.defaultMarketType, false⟩
  | none => ⟨c.info.id, none, none, none, c.defaultMarketType, false⟩

/-- Whether `_build_client` asks for sandbox mode. -/
def wantsSandbox (c : CcxtAdapter) : Bool :=
  match c.credentials with
  | some creds => creds.testnet && c.info.hasTestnet
  | none => false

/-- `_build_client`. An exception of `set_sandbox_mode` is logged and swallowed: the client is
    returned as it is. -/
def buildClient (c : CcxtAdapter) (env : Env) : Service CcxtClient := do
  if env.ccxt.installed then
    let client := c.configured
    Act.modify fun w => { w with log := w.log ++ [.built client] }
    if c.wantsSandbox then
      Act.tryExcept
        (do
          invoke env client .setSandboxMode
          return { client with sandbox := true })
        (fun _ => return client)
    else
      return client
  else
    Act.raise (.exchangeUnavailable c.info.id
      "ccxt is not installed; install it to use live exchange connectivity.")

/-- The `client` property: build it on first use. -/
def getClient (c : CcxtAdapter) (env : Env) : Service CcxtClient := do
  let w ← Act.read
  match w.client with
  | some client => return client
  | none => do
    let client ← c.buildClient env
    Act.modify fun w => { w with client := some client }
    return client

/-- `close`. -/
def close (env : Env) : Service Unit := do
  let w ← Act.read
  match w.client with
  | none => return ()
  | some client => do
    invoke env client .close
    Act.modify fun w => { w with client := none }

/-! ## Calls -/

/-- `get_circuit_breaker(f"ccxt:{info.id}")`. -/
def breakerOf (c : CcxtAdapter) (w : World) : CircuitBreaker :=
  (w.breakers.get? ("ccxt:" ++ c.info.id)).getD {}

def setBreaker (c : CcxtAdapter) (b : CircuitBreaker) (w : World) : World :=
  { w with breakers := w.breakers.set ("ccxt:" ++ c.info.id) b }

/-- `CircuitBreaker.call` on the exchange's breaker. -/
def breakerCall {α : Type} (c : CcxtAdapter) (env : Env) (func : Service α) : Service α := do
  let w ← Act.read
  let attempt := (c.breakerOf w).canAttempt (env.clock w.log)
  Act.modify (c.setBreaker attempt.2)
  if attempt.1 then do
    let result ← Act.tryExcept func fun e => do
      Act.modify fun w => c.setBreaker ((c.breakerOf w).recordFailure (env.clock w.log)) w
      Act.raise e
    Act.modify fun w => c.setBreaker (c.breakerOf w).recordSuccess w
    return result
  else
    Act.raise (.circuitOpen ("ccxt:" ++ c.info.id))

/-- How `_call` re-raises an exception. -/
def normaliseError (c : CcxtAdapter) (m : Method) (e : AppError) : AppError :=
  if e.isExchangeError then e
  else match e with
    | .external name text =>
      if name ∈ ["NetworkError", "RequestTimeout", "ExchangeNotAvailable", "DDoSProtection"] then
        .exchangeUnavailable c.info.id text
      else .exchange c.info.id m.name text
    | _ => .exchange c.info.id m.name ""

/-- `_call`. -/
def call (c : CcxtAdapter) (env : Env) (m : Method) : Service m.Reply :=
  Act.tryExcept
    (c.breakerCall env (do
      let client ← c.getClient env
      invoke env client m))
    (fun e => Act.raise (c.normaliseError m e))

/-! ## Market data -/

def fetchTicker (c : CcxtAdapter) (env : Env) (symbol : String) : Service Ticker := do
  let t ← c.call env (.fetchTicker symbol)
  return { symbol
           last := dec0 t.last.get
           bid := dec t.bid.get
           ask := dec t.ask.get
           high := dec t.high.get
           low := dec t.low.get
           baseVolume := dec t.baseVolume.get
           timestamp := t.timestamp.get }

/-- The levels of one side of a book; iterating an explicit null raises. -/
def parseLevels (levels : Field (List (RawNumber × RawNumber))) :
    Except AppError (List OrderBookLevel) :=
  match levels.getOr [] with
  | none => .error (.external "TypeError" "'NoneType' object is not iterable")
  | some ls => .ok (ls.map fun l => ⟨dec0 (some l.1), dec0 (some l.2)⟩)

def fetchOrderBook (c : CcxtAdapter) (env : Env) (symbol : String) (limit : ℤ) :
    Service OrderBook := do
  let ob ← c.call env (.fetchOrderBook symbol limit)
  let bids ← Act.ofExcept (parseLevels ob.bids)
  let asks ← Act.ofExcept (parseLevels ob.asks)
  return ⟨symbol, bids, asks, ob.timestamp.get⟩

/-- `Candle.from_ccxt`; a row of fewer than six numbers does not unpack. -/
def candleOfRow : List ℚ → Except AppError Candle
  | ts :: o :: h :: low :: c :: v :: _ => .ok ⟨if ts < 0 then ts.ceil else ts.floor, o, h, low, c, v⟩
  | _ => .error (.external "ValueError" "not enough values to unpack")

def fetchOhlcv (c : CcxtAdapter) (env : Env) (symbol timeframe : String) (limit : ℤ) :
    Service (List Candle) := do
  let rows ← c.call env (.fetchOhlcv symbol timeframe limit)
  Act.ofExcept (rows.mapM candleOfRow)

/-! ## Account -/

def fetchBalance [DecimalContext] (c : CcxtAdapter) (env : Env) : Service (List Balance) := do
  let raw ← c.call env .fetchBalance
  let assets := raw.free.keys ++ raw.used.keys.filter (fun a => a ∉ raw.free.keys)
  let balances := assets.map fun a =>
    (⟨a, dec0 ((raw.free.get? a).getD none), dec0 ((raw.used.get? a).getD none)⟩ : Balance)
  return balances.filter (fun b => 0 < b.total)

/-- `PositionSide(value)`. -/
def positionSide : String → Except AppError PositionSide
  | "long" => .ok .long
  | "short" => .ok .short
  | "both" => .ok .both
  | s => .error (.external "ValueError" s)

/-- `MarginMode(value)`. -/
def marginMode : String → Except AppError MarginMode
  | "isolated" => .ok .isolated
  | "cross" => .ok .cross
  | s => .error (.external "ValueError" s)

/-- `value or default` for texts: an empty text counts as missing. -/
def orText (dflt : String) (value : Option String) : String :=
  if value = some "" then dflt else value.getD dflt

/-- One open position of the payload; flat positions are left out. -/
def parsePosition (raw : RawPosition) : Except AppError (Option Position) := do
  let contracts := dec0 raw.contracts.get
  if contracts = 0 then
    return none
  else
    let side ← positionSide (orText "long" raw.side.get)
    let mode ← marginMode (orText "cross" raw.marginMode.get)
    let leverage := raw.leverage.get.getD 1
    return some
      { symbol := raw.symbol.getOr ""
        side
        contracts
        entryPrice := dec0 raw.entryPrice.get
        markPrice := dec raw.markPrice.get
        leverage := if leverage = 0 then 1 else leverage
        marginMode := mode
        unrealizedPnl := dec0 raw.unrealizedPnl.get
        liquidationPrice := dec raw.liquidationPrice.get }

def fetchPositions (c : CcxtAdapter) (env : Env) : Service (List Position) := do
  let raw ← c.call env .fetchPositions
  let positions ← Act.ofExcept (raw.mapM parsePosition)
  return positions.filterMap id

/-! ## Orders -/

/-- `_STATUS_MAP.get(status, OrderStatus.open)`. -/
def statusOf : Option String → OrderStatus
  | some "closed" => .filled
  | some "canceled" => .canceled
  | some "cancelled" => .canceled
  | some "expired" => .expired
  | some "rejected" => .rejected
  | _ => .open

/-- `OrderSide(value)`. -/
def orderSide : Option String → Except AppError OrderSide
  | some "buy" => .ok .buy
  | some "sell" => .ok .sell
  | some s => .error (.external "ValueError" s)
  | none => .error (.external "ValueError" "None")

/-- `OrderType(_normalise_type(value))`. -/
def orderType : Option String → OrderType
  | some "market" => .market
  | some "stop" => .stop
  | some "stop_market" => .stop
  | some "stop_limit" => .stopLimit
  | some "take_profit" => .takeProfit
  | some "trailing_stop" => .trailingStop
  | _ => .limit

/-- `_parse_order`. An explicit null for `id` is formatted as a text, one for `symbol` is kept. -/
def parseOrder (raw : RawOrder) (symbol : String) : Except AppError (Order (Option String)) := do
  let side ← orderSide (raw.side.getOr "buy")
  return { id := (raw.id.getOr "").getD "None"
           symbol := raw.symbol.getOr symbol
           side
           type := orderType (raw.type.getOr "limit")
           status := statusOf (raw.status.getOr "")
           amount := dec0 raw.amount.get
           filled := dec0 raw.filled.get
           price := dec raw.price.get
           average := dec raw.average.get
           timestamp := raw.timestamp.get
           clientOrderId := raw.clientOrderId.get
           fee := match raw.fee with
             | .value cost => dec0 cost.get
             | _ => 0
           isPaper := false }

def createOrder (c : CcxtAdapter) (env : Env) (request : OrderRequest) :
    Service (Order (Option String)) := do
  let raw ← c.call env (.createOrder request)
  Act.ofExcept (parseOrder raw request.symbol)

def cancelOrder (c : CcxtAdapter) (env : Env) (orderId symbol : String) :
    Service (Order (Option String)) := do
  let raw ← c.call env (.cancelOrder orderId symbol)
  Act.ofExcept (parseOrder raw symbol)

def fetchOpenOrders (c : CcxtAdapter) (env : Env) : Service (List (Order (Option String))) := do
  let raw ← c.call env .fetchOpenOrders
  Act.ofExcept (raw.mapM fun o => parseOrder o "")

end CcxtAdapter

end TradingHub
