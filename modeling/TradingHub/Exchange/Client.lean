import TradingHub.Exchange.Paper

set_option autoImplicit false

/-! # Exchanges and their clients

The registry of supported exchanges (`app/exchange/registry.py`), the decrypted credentials
(`app/exchange/credentials.py`) and the surface of the ccxt client that the adapter uses: its
methods, the raw payloads they return and the trace of calls made on clients.

What an exchange answers is outside the program. It is a parameter (`CcxtLibrary`) that may answer
differently at every point of the trace. -/

namespace TradingHub

open Library

/-! ## Registry -/

structure ExchangeInfo where
  id : String
  name : String
  requiresPassphrase : Bool := false
  supportsFutures : Bool := true
  supportsMargin : Bool := true
  hasTestnet : Bool := true
deriving DecidableEq, Repr

def supportedExchanges : Dict String ExchangeInfo :=
  Dict.ofEntries ([
    { id := "binance", name := "Binance" },
    { id := "bybit", name := "Bybit" },
    { id := "okx", name := "OKX", requiresPassphrase := true },
    { id := "kucoin", name := "KuCoin", requiresPassphrase := true },
    { id := "kraken", name := "Kraken", hasTestnet := false },
    { id := "coinbase", name := "Coinbase", supportsFutures := false, hasTestnet := false },
    { id := "bitget", name := "Bitget", requiresPassphrase := true },
    { id := "gateio", name := "Gate.io" },
    { id := "mexc", name := "MEXC", hasTestnet := false }].map fun e => (e.id, e))

/-- `str.lower` as far as the registry's ASCII keys can tell: the ASCII letters and the Kelvin
    sign, the one other character whose lower case is ASCII. -/
def lower (s : String) : String :=
  String.ofList (s.toList.map fun c => if c = '\u212a' then 'k' else c.toLower)

def getInfo (exchangeId : String) : Option ExchangeInfo := supportedExchanges.get? (lower exchangeId)

def isSupported (exchangeId : String) : Bool := (getInfo exchangeId).isSome

/-! ## Credentials -/

structure ExchangeCredentials where
  apiKey : String
  apiSecret : String
  passphrase : Option String := none
  subaccount : Option String := none
  testnet : Bool := true
deriving DecidableEq, Repr

def ExchangeCredentials.isComplete (c : ExchangeCredentials) : Bool :=
  c.apiKey ≠ "" ∧ c.apiSecret ≠ ""

/-! ## Raw payloads -/

/-- A key of a payload dictionary: missing, explicitly null, or there. -/
inductive Field (α : Type)
  | absent
  | null
  | value (a : α)
deriving DecidableEq, Repr

/-- `d.get(key)`. -/
def Field.get {α : Type} : Field α → Option α
  | .absent => none
  | .null => none
  | .value a => some a

/-- `d.get(key, default)`; the default does not replace an explicit null. -/
def Field.getOr {α : Type} (dflt : α) : Field α → Option α
  | .absent => some dflt
  | .null => none
  | .value a => some a

/-- A numeric payload value; ccxt also sends empty strings. -/
inductive RawNumber
  | emptyText
  | num (q : ℚ)
deriving DecidableEq, Repr

structure RawTicker where
  last : Field RawNumber
  bid : Field RawNumber
  ask : Field RawNumber
  high : Field RawNumber
  low : Field RawNumber
  baseVolume : Field RawNumber
  timestamp : Field ℤ
deriving DecidableEq, Repr

structure RawOrderBook where
  bids : Field (List (RawNumber × RawNumber))
  asks : Field (List (RawNumber × RawNumber))
  timestamp : Field ℤ
deriving DecidableEq, Repr

structure RawOrder where
  id : Field String
  symbol : Field String
  side : Field String
  type : Field String
  status : Field String
  amount : Field RawNumber
  filled : Field RawNumber
  price : Field RawNumber
  average : Field RawNumber
  timestamp : Field ℤ
  clientOrderId : Field String
  /-- The `cost` of the fee dictionary. -/
  fee : Field (Field RawNumber)
deriving DecidableEq, Repr

/-- The `free` and `used` dictionaries of a balance payload. -/
structure RawBalance where
  free : Dict String (Option RawNumber)
  used : Dict String (Option RawNumber)
deriving DecidableEq

structure RawPosition where
  symbol : Field String
  side : Field String
  contracts : Field RawNumber
  entryPrice : Field RawNumber
  markPrice : Field RawNumber
  leverage : Field ℤ
  marginMode : Field String
  unrealizedPnl : Field RawNumber
  liquidationPrice : Field RawNumber
deriving DecidableEq, Repr

/-! ## Clients and their calls -/

/-- A ccxt client: the configuration it was built with, and whether sandbox mode was switched on. -/
structure CcxtClient where
  exchangeId : String
  apiKey : Option String
  secret : Option String
  password : Option String
  defaultType : String
  sandbox : Bool
deriving DecidableEq, Repr

/-- Whether the client was given any secret. -/
def CcxtClient.credentialed (c : CcxtClient) : Bool :=
  c.apiKey.isSome || c.secret.isSome || c.password.isSome

/-- The client methods the adapter calls. -/
inductive Method
  | setSandboxMode
  | fetchTime
  | fetchTicker (symbol : String)
  | fetchOrderBook (symbol : String) (limit : ℤ)
  | fetchOhlcv (symbol timeframe : String) (limit : ℤ)
  | fetchBalance
  | fetchPositions
  | createOrder (request : OrderRequest)
  | cancelOrder (orderId symbol : String)
  | fetchOrder (orderId symbol : String)
  | fetchOpenOrders
  | close
deriving DecidableEq, Repr

/-- The payload a method returns. -/
abbrev Method.Reply : Method → Type
  | .setSandboxMode => Unit
  | .fetchTime => Unit
  | .fetchTicker _ => RawTicker
  | .fetchOrderBook _ _ => RawOrderBook
  | .fetchOhlcv _ _ _ => List (List ℚ)
  | .fetchBalance => RawBalance
  | .fetchPositions => List RawPosition
  | .createOrder _ => RawOrder
  | .cancelOrder _ _ => RawOrder
  | .fetchOrder _ _ => RawOrder
  | .fetchOpenOrders => List RawOrder
  | .close => Unit

/-- The method's name, as the error texts show it. -/
def Method.name : Method → String
  | .setSandboxMode => "set_sandbox_mode"
  | .fetchTime => "fetch_time"
  | .fetchTicker _ => "fetch_ticker"
  | .fetchOrderBook _ _ => "fetch_order_book"
  | .fetchOhlcv _ _ _ => "fetch_ohlcv"
  | .fetchBalance => "fetch_balance"
  | .fetchPositions => "fetch_positions"
  | .createOrder _ => "create_order"
  | .cancelOrder _ _ => "cancel_order"
  | .fetchOrder _ _ => "fetch_order"
  | .fetchOpenOrders => "fetch_open_orders"
  | .close => "close"

/-- The trace of a server: clients built, calls made on them (and whether the call returned), and
    calls carried out by a paper adapter on the ledger of an account. -/
inductive Event
  | built (client : CcxtClient)
  | call (client : CcxtClient) (method : Method) (returned : Bool)
  | paper (accountId : String) (call : PaperCall)

/-- The ccxt package and the exchanges behind it. -/
structure CcxtLibrary where
  installed : Bool
  /-- What a call returns, or the class name and text of what it raises. -/
  reply : List Event → CcxtClient → (m : Method) → Except (String × String) m.Reply

end TradingHub
