import TradingHub.Services.Market
import TradingHub.Services.Trading

set_option autoImplicit false

/-! # Requests and runs

The operations of the services as one type, and the runs of a server: requests served one after
another, each in its own unit of work, and restarts that change the settings. A run is over the
world, so it sees the trace of everything the server did on its exchange clients. -/

namespace TradingHub

open Library

/-! ## Operations -/

/-- A request that trades. -/
inductive Trade
  | place (limits : RiskLimits) (r : PlaceOrder)
  | cancel (userId orderId : String)

/-- Carry out a trade; both kinds return the order's record. -/
def Trade.run [DecimalContext] (env : Env) : Trade → Service OrderRecord
  | place limits r => TradingService.placeOrder env limits r
  | cancel userId orderId => TradingService.cancelOrder env userId orderId

/-- What the router lets through. -/
def Trade.Admitted : Trade → Prop
  | place _ r => r.Admitted
  | cancel _ _ => True

/-- The account a trade is on, if the tables have one for it. -/
def Trade.account? (db : Db) : Trade → Option ExchangeAccount
  | place _ r => db.accounts.find? fun a => a.id = r.accountId ∧ a.userId = r.userId
  | cancel userId orderId =>
    (db.orders.find? fun o => o.id = orderId ∧ o.userId = userId).bind fun record =>
      db.accounts.find? fun a => a.id = record.accountId ∧ a.userId = userId

/-- An operation of the trading, account, portfolio or market service. -/
inductive Operation
  | trade (t : Trade)
  | getOrder (userId orderId : String)
  | listOrders (userId : String) (symbol status : Option String) (page pageSize : ℕ)
  | listOpenOrders (userId accountId : String)
  | listPositions (userId accountId : String)
  | createPaperAccount (userId exchangeId label marketType : String)
  | createLiveAccount (userId exchangeId label marketType apiKey apiSecret : String)
      (passphrase : Option String)
  | listAccounts (userId : String)
  | getAccount (accountId userId : String)
  | deleteAccount (accountId userId : String)
  | aggregateBalances (userId : String)
  | ticker (exchangeId symbol : String)
  | orderBook (exchangeId symbol : String) (limit : ℤ)
  | candles (exchangeId symbol timeframe : String) (limit : ℤ)
  | indicator (compute : String → List Candle → ℤ → Except AppError (List (Option ℚ)))
      (exchangeId symbol name timeframe : String) (period limit : ℤ)

/-- Carry out an operation and drop its result. -/
def Operation.run (env : Env) : Operation → Service Unit
  | trade t => do let _ ← t.run env
  | getOrder userId orderId => do let _ ← TradingService.getOrder env userId orderId
  | listOrders userId symbol status page pageSize => do
    let _ ← TradingService.listOrders env userId symbol status page pageSize
  | listOpenOrders userId accountId => do
    let _ ← TradingService.listOpenOrders env userId accountId
  | listPositions userId accountId => do
    let _ ← TradingService.listPositions env userId accountId
  | createPaperAccount userId exchangeId label marketType => do
    let _ ← AccountService.createPaperAccount env userId exchangeId label marketType
  | createLiveAccount userId exchangeId label marketType apiKey apiSecret passphrase => do
    let _ ← AccountService.createLiveAccount env userId exchangeId label marketType apiKey
      apiSecret passphrase
  | listAccounts userId => do let _ ← AccountService.listAccounts env userId
  | getAccount accountId userId => do let _ ← AccountService.getAccount env accountId userId
  | deleteAccount accountId userId => AccountService.deleteAccount env accountId userId
  | aggregateBalances userId => do let _ ← PortfolioService.aggregateBalances env userId
  | ticker exchangeId symbol => do let _ ← MarketService.ticker env exchangeId symbol
  | orderBook exchangeId symbol limit => do
    let _ ← MarketService.orderBook env exchangeId symbol limit
  | candles exchangeId symbol timeframe limit => do
    let _ ← MarketService.candles env exchangeId symbol timeframe limit
  | indicator compute exchangeId symbol name timeframe period limit => do
    let _ ← MarketService.indicator env compute exchangeId symbol name timeframe period limit

/-! ## Runs -/

/-- Serve one trade as a request. -/
def serveTrade [DecimalContext] (w : World) (request : Env × Trade) : World :=
  (getSession request.1 (request.2.run request.1) w).2

/-- Serve one operation as a request. -/
def serve (w : World) (request : Env × Operation) : World :=
  (getSession request.1 (request.2.run request.1) w).2

/-- The world of a server that has just been started on a database. -/
def World.boot (settings : Settings) (db : Db) : World :=
  ⟨settings, db, none, none, Dict.empty, []⟩

/-- Start the server again with other settings: what the process held in memory is gone. -/
def World.restart (settings : Settings) (w : World) : World :=
  { w with settings, ledger := none, client := none, breakers := Dict.empty }

/-- A step of a server's life: a trade, or a restart under another live-trading policy. -/
inductive Step
  | request (env : Env) (t : Trade)
  | restart (allowLiveTrading : Bool)

def Step.apply (w : World) : Step → World
  | request env t => serveTrade w (env, t)
  | restart allowLiveTrading => w.restart { w.settings with allowLiveTrading }

/-! ## A quiet environment -/

/-- An exchange that quotes every symbol at `last`, holds 1000 USDT and accepts every order. -/
def CcxtLibrary.quoting (last : ℚ) : CcxtLibrary where
  installed := true
  reply _ _
    | .setSandboxMode => .ok ()
    | .fetchTime => .ok ()
    | .fetchTicker _ => .ok ⟨.value (.num last), .absent, .absent, .absent, .absent, .absent, .absent⟩
    | .fetchOrderBook _ _ => .ok ⟨.absent, .absent, .absent⟩
    | .fetchOhlcv _ _ _ => .ok []
    | .fetchBalance => .ok ⟨Dict.empty.set "USDT" (some (.num 1000)), Dict.empty⟩
    | .fetchPositions => .ok []
    | .createOrder request => .ok (accepted "7" request.symbol "open" (.value (.num request.amount)))
    | .cancelOrder orderId symbol => .ok (accepted orderId symbol "canceled" .absent)
    | .fetchOrder orderId symbol => .ok (accepted orderId symbol "open" .absent)
    | .fetchOpenOrders => .ok []
    | .close => .ok ()
where
  accepted (orderId symbol status : String) (amount : Field RawNumber) : RawOrder :=
    { id := .value orderId, symbol := .value symbol, side := .absent, type := .absent
      status := .value status, amount, filled := .absent, price := .absent, average := .absent
      timestamp := .absent, clientOrderId := .absent, fee := .absent }

/-- No statement raises, and the identifiers drawn are made from `n`. -/
def Env.quiet (last : ℚ) (n : String) : Env where
  ccxt := CcxtLibrary.quoting last
  cipher := ⟨id, .ok⟩
  fault _ := none
  clock _ := 0
  orderHex := n
  clientOrderHex := n
  recordId := n

/-- A database with one live account `a` of user `u`. -/
def Db.oneLiveAccount (exchangeId : String) : Db :=
  ⟨[⟨"a", "u", exchangeId, "main", "spot", false, some "key", some "secret", none⟩], [], [], []⟩

/-- A market buy of one coin on the account `a`. -/
def Trade.sampleBuy : Trade :=
  .place {} ⟨"u", "a", "BTC/USDT", .buy, .market, 1, none, none, .gtc, false, false, none⟩

/-- A limit buy of one coin at 90 on the account `a`. -/
def Trade.sampleBid : Trade :=
  .place {} ⟨"u", "a", "BTC/USDT", .buy, .limit, 1, some 90, none, .gtc, false, false, none⟩

end TradingHub
