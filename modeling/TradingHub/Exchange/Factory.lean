import TradingHub.Exchange.Ccxt

set_option autoImplicit false

/-! # Adapters and the factory that builds them

`app/exchange/factory.py` decides which adapter an account gets; `Adapter` is the port of
`app/exchange/base.py` with its two implementations. A paper adapter works on the ledger of the
session in progress and delegates market data to a credential-free ccxt adapter. -/

namespace TradingHub

open Library

/-- An exchange adapter. The paper adapter is tagged with the account whose ledger it works on. -/
inductive Adapter
  | paper (accountId : String) (engine : PaperAdapter) (market : CcxtAdapter)
  | live (exchange : CcxtAdapter)

/-- The order of the simulation as the port reports it. -/
def Order.ofPaper (o : Order String) : Order (Option String) :=
  { id := o.id, symbol := some o.symbol, side := o.side, type := o.type, status := o.status
    amount := o.amount, filled := o.filled, price := o.price, average := o.average
    timestamp := o.timestamp, clientOrderId := o.clientOrderId, fee := o.fee
    isPaper := o.isPaper }

/-- Run a paper-engine action on the ledger of the session. -/
def onLedger {α : Type} (x : Act AppError PaperLedger α) : Service α := do
  let w ← Act.read
  match w.ledger with
  | none => Act.raise (.external "AttributeError" "ledger")
  | some l => Act.zoom (fun _ => l) (fun l' w => { w with ledger := some l' }) x

/-- Put a call of the paper adapter on the trace. -/
def logPaper (accountId : String) (call : PaperCall) : Service Unit :=
  Act.modify fun w => { w with log := w.log ++ [.paper accountId call] }

namespace Adapter

/-- The ccxt adapter a port call ends at: the exchange itself, or the market-data source. -/
def ccxt : Adapter → CcxtAdapter
  | paper _ _ market => market
  | live exchange => exchange

def fetchTicker (a : Adapter) (env : Env) (symbol : String) : Service Ticker :=
  a.ccxt.fetchTicker env symbol

def fetchBalance [DecimalContext] (a : Adapter) (env : Env) : Service (List Balance) :=
  match a with
  | paper _ _ _ => onLedger (do let l ← Act.read; return PaperAdapter.fetchBalance l)
  | live exchange => exchange.fetchBalance env

/-- `fetch_positions`: the spot simulation keeps balances, not positions. -/
def fetchPositions (a : Adapter) (env : Env) : Service (List Position) :=
  match a with
  | paper _ _ _ => return []
  | live exchange => exchange.fetchPositions env

/-- `create_order`. The simulation's first step is to ask the market for the ticker. -/
def createOrder [DecimalContext] (a : Adapter) (env : Env) (request : OrderRequest) :
    Service (Order (Option String)) :=
  match a with
  | paper accountId engine market => do
    let orderId := "paper-" ++ env.orderHex
    let ticker ← market.fetchTicker env request.symbol
    logPaper accountId (.create (.ok ticker) orderId request)
    let order ← onLedger (engine.createOrder ⟨fun _ => .ok ticker⟩ orderId request)
    return order.ofPaper
  | live exchange => exchange.createOrder env request

def cancelOrder [DecimalContext] (a : Adapter) (env : Env) (orderId symbol : String) :
    Service (Order (Option String)) :=
  match a with
  | paper accountId engine _ => do
    logPaper accountId (.cancel orderId)
    let order ← onLedger (engine.cancelOrder orderId)
    return order.ofPaper
  | live exchange => exchange.cancelOrder env orderId symbol

def fetchOpenOrders (a : Adapter) (env : Env) : Service (List (Order (Option String))) :=
  match a with
  | paper _ _ _ =>
    onLedger (do
      let l ← Act.read
      return (PaperAdapter.fetchOpenOrders l none).map Order.ofPaper)
  | live exchange => exchange.fetchOpenOrders env

/-- `close`: both adapters release the underlying client. -/
def close (_ : Adapter) (env : Env) : Service Unit := CcxtAdapter.close env

end Adapter

namespace ExchangeFactory

/-- A credential-free adapter for public market data only. -/
def publicMarketAdapter (exchangeId : String) : Service CcxtAdapter :=
  if isSupported exchangeId then CcxtAdapter.new exchangeId none
  else Act.raise (.unsupportedExchange "The requested exchange is not supported." exchangeId)

/-- `build`. `paper` is the account's own mode; the server's policy can only make trading more
    restrictive. -/
def build (accountId exchangeId : String) (credentials : Option ExchangeCredentials) (paper : Bool)
    (marketType : String) (ledger : Option PaperLedger) : Service Adapter := do
  let w ← Act.read
  if isSupported exchangeId then
    if paper || !w.settings.allowLiveTrading then do
      let market ← publicMarketAdapter exchangeId
      Act.modify fun w => { w with ledger := some (ledger.getD (PaperLedger.new "USDT" 100000)) }
      return .paper accountId {} market
    else match credentials with
      | none =>
        Act.raise (.unsupportedExchange "Live trading requires complete API credentials." exchangeId)
      | some creds =>
        if creds.isComplete then do
          let exchange ← CcxtAdapter.new exchangeId
            (some { creds with testnet := w.settings.useExchangeTestnet }) marketType
          return .live exchange
        else
          Act.raise
            (.unsupportedExchange "Live trading requires complete API credentials." exchangeId)
  else
    Act.raise (.unsupportedExchange "The requested exchange is not supported." exchangeId)

end ExchangeFactory

end TradingHub
