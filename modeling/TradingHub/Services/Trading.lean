import TradingHub.Services.Account
import TradingHub.Trading.Risk

set_option autoImplicit false

/-! # The trading service

`app/services/trading_service.py`: order placement with its pre-trade risk check, cancellation by
local record, and the read paths over an adapter. -/

namespace TradingHub

open Library
open DecimalContext (fix)

/-- The arguments of `place_order`. -/
structure PlaceOrder where
  userId : String
  accountId : String
  symbol : String
  side : OrderSide
  type : OrderType
  amount : ℚ
  price : Option ℚ := none
  stopPrice : Option ℚ := none
  timeInForce : TimeInForce := .gtc
  reduceOnly : Bool := false
  postOnly : Bool := false
  leverage : Option ℤ := none
deriving DecidableEq, Repr

namespace PlaceOrder

/-- What `OrderCreate` lets through, the character set of the symbol apart. -/
def Admitted (r : PlaceOrder) : Prop :=
  0 < r.amount ∧ (∀ price, r.price = some price → 0 < price) ∧
  (∀ stop, r.stopPrice = some stop → 0 < stop) ∧
  (∀ leverage, r.leverage = some leverage → 1 ≤ leverage ∧ leverage ≤ 125) ∧
  (r.type = .limit ∨ r.type = .stopLimit → r.price ≠ none) ∧
  (r.type = .stop ∨ r.type = .stopLimit → r.stopPrice ≠ none)

/-- The request handed to the adapter. -/
def request (r : PlaceOrder) (env : Env) : OrderRequest :=
  { symbol := r.symbol
    side := r.side
    type := r.type
    amount := r.amount
    price := r.price
    stopPrice := r.stopPrice
    timeInForce := r.timeInForce
    reduceOnly := r.reduceOnly
    postOnly := r.postOnly
    leverage := r.leverage
    clientOrderId := some ("cth-" ++ env.clientOrderHex) }

/-- `Decimal(leverage or 1)`. -/
def effectiveLeverage (r : PlaceOrder) : ℚ :=
  match r.leverage with
  | none => 1
  | some leverage => if leverage = 0 then 1 else leverage

end PlaceOrder

namespace TradingService

/-- The asset `_quote_equity` looks for. -/
def equityAsset (symbol : String) : String :=
  let core := beforeChar ':' symbol
  if '/' ∈ core.toList then afterChar '/' core else "USDT"

/-- The total of the first balance in `asset`, 0 if there is none. -/
def totalOf [DecimalContext] (asset : String) (balances : List Balance) : ℚ :=
  match balances.find? (fun b => b.asset = asset) with
  | some b => b.total
  | none => 0

/-- `_quote_equity`: 0 when the balances cannot be read. -/
def quoteEquity [DecimalContext] (env : Env) (adapter : Adapter) (symbol : String) : Service ℚ := do
  let balances ← Act.tryExcept (adapter.fetchBalance env) (fun _ => return [])
  return totalOf (equityAsset symbol) balances

/-- The equity the risk check is given when the account shows none: enough for any leverage. -/
def checkedEquity [DecimalContext] (limits : RiskLimits) (equity notional : ℚ) : ℚ :=
  if 0 < equity then equity else fix (notional * limits.maxLeverage)

/-- `ref_price`: the price of the request, else the market's. -/
def referencePrice (env : Env) (adapter : Adapter) (r : PlaceOrder) : Service ℚ :=
  match r.price with
  | some price => return price
  | none => do
    let ticker ← adapter.fetchTicker env r.symbol
    return ticker.last

/-- The record `_persist` inserts. -/
def recordOf (env : Env) (userId : String) (account : ExchangeAccount) (symbol : String)
    (order : Order (Option String)) : OrderRecord :=
  { id := env.recordId
    userId
    accountId := account.id
    exchangeOrderId := some order.id
    clientOrderId := order.clientOrderId
    symbol
    side := order.side
    type := order.type
    status := order.status
    amount := order.amount
    filled := order.filled
    price := order.price
    average := order.average
    fee := order.fee
    isPaper := order.isPaper }

/-- `_persist`; the symbol column is not nullable and the id is the primary key. -/
def persist (env : Env) (userId : String) (account : ExchangeAccount)
    (order : Order (Option String)) : Service OrderRecord := do
  execute env .insertOrder
  match order.symbol with
  | none => Act.raise (.external "IntegrityError" "orders.symbol")
  | some symbol => do
    let record := recordOf env userId account symbol order
    let w ← Act.read
    if w.db.orders.any (fun o => o.id = record.id) then
      Act.raise (.external "IntegrityError" "orders.id")
    else do
      Act.modify fun w => { w with db := { w.db with orders := w.db.orders ++ [record] } }
      return record

/-- The body of `place_order` inside its adapter session. -/
def placeWith [DecimalContext] (env : Env) (limits : RiskLimits) (r : PlaceOrder)
    (account : ExchangeAccount) (adapter : Adapter) : Service OrderRecord := do
  let refPrice ← referencePrice env adapter r
  let equity ← quoteEquity env adapter r.symbol
  Act.ofExcept (limits.checkOrder (fix (r.amount * refPrice))
    (checkedEquity limits equity (fix (r.amount * refPrice))) r.effectiveLeverage)
  let order ← adapter.createOrder env (r.request env)
  let record ← persist env r.userId account order
  auditRecord env r.userId
    (.orderPlace r.accountId r.symbol r.side r.type order.isPaper order.status)
  return record

def placeOrder [DecimalContext] (env : Env) (limits : RiskLimits) (r : PlaceOrder) :
    Service OrderRecord := do
  let account ← AccountService.getAccount env r.accountId r.userId
  AccountService.adapterSession env account true (placeWith env limits r account)

def getOrder (env : Env) (userId orderId : String) : Service OrderRecord := do
  execute env .selectOrder
  let w ← Act.read
  match w.db.orders.find? (fun record => record.id = orderId ∧ record.userId = userId) with
  | none => Act.raise (.notFound "Order not found.")
  | some record => return record

/-- The status `cancel_order` writes: the adapter's answer, or canceled when the adapter does not
    know the order or the record carries no exchange id. -/
def cancelStatus [DecimalContext] (env : Env) (record : OrderRecord) (adapter : Adapter) :
    Service OrderStatus :=
  match record.exchangeOrderId with
  | none => return .canceled
  | some exchangeOrderId =>
    if exchangeOrderId = "" then return .canceled
    else
      Act.tryExcept
        (do
          let result ← adapter.cancelOrder env exchangeOrderId record.symbol
          return result.status)
        (fun e => if e.isNotFound then return .canceled else Act.raise e)

/-- Write a status to the row of an order. -/
def setStatus (orderId : String) (status : OrderStatus) (orders : List OrderRecord) :
    List OrderRecord :=
  orders.map fun o => if o.id = orderId then { o with status } else o

/-- The body of `cancel_order` inside its adapter session. -/
def cancelWith [DecimalContext] (env : Env) (userId : String) (record : OrderRecord)
    (adapter : Adapter) : Service OrderRecord := do
  let status ← cancelStatus env record adapter
  execute env .updateOrder
  Act.modify fun w =>
    { w with db := { w.db with orders := setStatus record.id status w.db.orders } }
  auditRecord env userId (.orderCancel record.accountId record.id)
  return { record with status }

/-- `cancel_order`, by the local record id. -/
def cancelOrder [DecimalContext] (env : Env) (userId orderId : String) : Service OrderRecord := do
  let record ← getOrder env userId orderId
  if record.status = .canceled ∨ record.status = .filled then
    return record
  else do
    let account ← AccountService.getAccount env record.accountId userId
    AccountService.adapterSession env account true (cancelWith env userId record)

def listOpenOrders (env : Env) (userId accountId : String) :
    Service (List (Order (Option String))) := do
  let account ← AccountService.getAccount env accountId userId
  AccountService.adapterSession env account false (fun adapter => adapter.fetchOpenOrders env)

def listPositions (env : Env) (userId accountId : String) : Service (List Position) := do
  let account ← AccountService.getAccount env accountId userId
  AccountService.adapterSession env account false (fun adapter => adapter.fetchPositions env)

/-- The rows `list_for_user` and `count_for_user` select; an empty text is no filter. -/
def listed (userId : String) (symbol status : Option String) (record : OrderRecord) : Bool :=
  record.userId = userId ∧ (symbol = none ∨ symbol = some "" ∨ symbol = some record.symbol) ∧
  (status = none ∨ status = some "" ∨ status = some record.status.value)

/-- `list_orders`: a page of the user's orders, newest first, and how many there are in all. -/
def listOrders (env : Env) (userId : String) (symbol status : Option String)
    (page pageSize : ℕ) : Service (List OrderRecord × ℕ) := do
  execute env .selectOrders
  let w ← Act.read
  let records := w.db.orders.filter (listed userId symbol status)
  return ((records.reverse.drop ((page - 1) * pageSize)).take pageSize, records.length)

end TradingService

end TradingHub
