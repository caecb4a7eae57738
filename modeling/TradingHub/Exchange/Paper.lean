import TradingHub.Exchange.Models
import TradingHub.Library.Act
import TradingHub.Library.Dict

set_option autoImplicit false

/-! # The paper-trading engine

`app/exchange/paper_store.py` and `app/exchange/paper.py`: the simulated ledger and the adapter
that fills, rests and cancels orders on it. The adapter's methods are actions over the ledger, so
what a method wrote before it raised is visible in the state it leaves.

An order fills at once or rests. A resting order moves the funds it would need from `free` to
`used`; cancelling recomputes that amount from the order and moves it back. The reservation is
stored nowhere else.

Every sum, difference and product of `Decimal`s is fixed by the context. -/

namespace TradingHub

open Library
open DecimalContext (fix)

/-! ## The ledger -/

/-- Mutable simulated balances and orders of one paper account. -/
structure PaperLedger where
  quoteAsset : String
  startingBalance : ℚ
  balances : Dict String Balance
  orders : Dict String (Order String)
deriving DecidableEq

/-- A freshly built ledger: `__post_init__` grants the starting balance in the quote asset. -/
def PaperLedger.new (quoteAsset : String) (startingBalance : ℚ) : PaperLedger :=
  { quoteAsset, startingBalance
    balances := Dict.empty.set quoteAsset ⟨quoteAsset, startingBalance, 0⟩
    orders := Dict.empty }

namespace PaperLedger

/-- `self._balances.get(asset, Balance(asset, 0, 0))`. -/
def balance (l : PaperLedger) (asset : String) : Balance :=
  (l.balances.get? asset).getD ⟨asset, 0, 0⟩

/-- `self._balances[asset] = Balance(asset, free, used)`. -/
def setBalance (l : PaperLedger) (asset : String) (free used : ℚ) : PaperLedger :=
  { l with balances := l.balances.set asset ⟨asset, free, used⟩ }

/-- `self._orders[order_id] = order`. -/
def setOrder (l : PaperLedger) (orderId : String) (order : Order String) : PaperLedger :=
  { l with orders := l.orders.set orderId order }

def free (l : PaperLedger) (asset : String) : ℚ := (l.balance asset).free

def used (l : PaperLedger) (asset : String) : ℚ := (l.balance asset).used

end PaperLedger

/-! ## Symbols -/

/-- `s.split(c, 1)[0]`. -/
def beforeChar (c : Char) (s : String) : String := String.ofList (s.toList.takeWhile (· ≠ c))

/-- `s.split(c, 1)[1]` for a string that contains `c`. -/
def afterChar (c : Char) (s : String) : String :=
  String.ofList ((s.toList.dropWhile (· ≠ c)).drop 1)

/-- Split a `BASE/QUOTE` (optionally `:SETTLE`) symbol into base and quote. -/
def splitSymbol (symbol defaultQuote : String) : String × String :=
  let core := beforeChar ':' symbol
  if '/' ∈ core.toList then (beforeChar '/' core, afterChar '/' core) else (core, defaultQuote)

/-! ## The adapter -/

/-- Where the adapter gets its market data: the read-only part of an exchange adapter. -/
structure MarketDataSource where
  fetchTicker : String → Except AppError Ticker

/-- The parameters of a `PaperAdapter`; the ledger it works on is the state of its methods. -/
structure PaperAdapter where
  quote : String := "USDT"
  feeRate : ℚ := 4 / 10000
deriving DecidableEq

namespace PaperAdapter

def credit [DecimalContext] (asset : String) (amount : ℚ) : Act AppError PaperLedger Unit :=
  Act.modify fun l => l.setBalance asset (fix (l.free asset + amount)) (l.used asset)

def debit [DecimalContext] (asset : String) (amount : ℚ) : Act AppError PaperLedger Unit := do
  let l ← Act.read
  if l.free asset < amount then
    Act.raise (.insufficientBalance asset amount (l.free asset))
  else
    Act.modify fun l => l.setBalance asset (fix (l.free asset - amount)) (l.used asset)

/-- Move `amount` from free to used, backing a resting order. -/
def reserve [DecimalContext] (asset : String) (amount : ℚ) : Act AppError PaperLedger Unit := do
  let l ← Act.read
  if l.free asset < amount then
    Act.raise (.insufficientBalance asset amount (l.free asset))
  else
    Act.modify fun l =>
      l.setBalance asset (fix (l.free asset - amount)) (fix (l.used asset + amount))

/-- Return reserved funds to free (never below zero used). -/
def release [DecimalContext] (asset : String) (amount : ℚ) : Act AppError PaperLedger Unit :=
  Act.modify fun l =>
    let released := min amount (l.used asset)
    l.setBalance asset (fix (l.free asset + released)) (fix (l.used asset - released))

/-- The (asset, amount) a resting `order` holds reserved. -/
def reservation [DecimalContext] (p : PaperAdapter) (order : Order String) : String × ℚ :=
  let pair := splitSymbol order.symbol p.quote
  match order.side with
  | .buy =>
    let price := order.price.getD 0
    let cost := fix (order.amount * price)
    (pair.2, fix (cost + fix (cost * p.feeRate)))
  | .sell => (pair.1, order.amount)

/-- The fill price, or `none` if the order rests. A marketable limit order never fills worse than
    the market; stop and conditional orders are not simulated and rest. -/
def resolveFillPrice (request : OrderRequest) (ticker : Ticker) : Option ℚ :=
  match request.type, request.price with
  | .market, _ => some ticker.last
  | .limit, some price =>
    if request.postOnly then none
    else if request.side = .buy ∧ ticker.last ≤ price then some (min price ticker.last)
    else if request.side = .sell ∧ price ≤ ticker.last then some (max price ticker.last)
    else none
  | _, _ => none

/-- The order object of the resting branch. -/
def restingOrder (orderId : String) (request : OrderRequest) (ticker : Ticker) : Order String :=
  { id := orderId
    symbol := request.symbol
    side := request.side
    type := request.type
    status := .open
    amount := request.amount
    filled := 0
    price := request.price
    average := none
    timestamp := ticker.timestamp
    clientOrderId := request.clientOrderId
    isPaper := true }

/-- The order object of the filled branch. -/
def filledOrder (orderId : String) (request : OrderRequest) (ticker : Ticker) (fillPrice fee : ℚ) :
    Order String :=
  { id := orderId
    symbol := request.symbol
    side := request.side
    type := request.type
    status := .filled
    amount := request.amount
    filled := request.amount
    price := request.price
    average := some fillPrice
    timestamp := ticker.timestamp
    clientOrderId := request.clientOrderId
    fee := fee
    isPaper := true }

/-- `create_order`; `orderId` is the identifier `_new_order_id` draws for this call. -/
def createOrder [DecimalContext] (p : PaperAdapter) (market : MarketDataSource) (orderId : String)
    (request : OrderRequest) : Act AppError PaperLedger (Order String) := do
  let ticker ← Act.ofExcept (market.fetchTicker request.symbol)
  let pair := splitSymbol request.symbol p.quote
  match resolveFillPrice request ticker with
  | none =>
    -- Resting: hold the funds the order would consume.
    let order := restingOrder orderId request ticker
    let reserved := p.reservation order
    reserve reserved.1 reserved.2
    Act.modify fun l => l.setOrder orderId order
    return order
  | some fillPrice =>
    let cost := fix (request.amount * fillPrice)
    let fee := fix (cost * p.feeRate)
    match request.side with
    | .buy =>
      debit pair.2 (fix (cost + fee))
      credit pair.1 request.amount
    | .sell =>
      debit pair.1 request.amount
      credit pair.2 (fix (cost - fee))
    let order := filledOrder orderId request ticker fillPrice fee
    Act.modify fun l => l.setOrder orderId order
    return order

/-- `cancel_order`; the symbol argument of the port is not used by the simulation. -/
def cancelOrder [DecimalContext] (p : PaperAdapter) (orderId : String) :
    Act AppError PaperLedger (Order String) := do
  let l ← Act.read
  match l.orders.get? orderId with
  | none => Act.raise (.notFound ("Paper order " ++ orderId ++ " not found."))
  | some order =>
    if order.status = .filled ∨ order.status = .canceled then
      return order
    else do
      -- Give the reserved funds back before marking the order cancelled.
      let reserved := p.reservation order
      release reserved.1 reserved.2
      let canceled := { order with status := .canceled, isPaper := true }
      Act.modify fun l => l.setOrder orderId canceled
      return canceled

/-- `fetch_balance`: the balances that are not empty. -/
def fetchBalance [DecimalContext] (l : PaperLedger) : List Balance :=
  l.balances.values.filter (fun b => 0 < b.total)

/-- `fetch_open_orders`. -/
def fetchOpenOrders (l : PaperLedger) (symbol : Option String) : List (Order String) :=
  l.orders.values.filter fun o =>
    (o.status = .open ∨ o.status = .partiallyFilled) ∧ (symbol = none ∨ symbol = some o.symbol)

end PaperAdapter

/-! ## Calls and runs -/

/-- A call on a paper adapter. `answer` is what the market-data source says when `create_order`
    asks it for the ticker of the request's symbol. -/
inductive PaperCall
  | create (answer : Except AppError Ticker) (orderId : String) (request : OrderRequest)
  | cancel (orderId : String)

namespace PaperCall

/-- Carry out one call. -/
def run [DecimalContext] (p : PaperAdapter) : PaperCall → Act AppError PaperLedger (Order String)
  | create answer orderId request => p.createOrder ⟨fun _ => answer⟩ orderId request
  | cancel orderId => p.cancelOrder orderId

/-- The order identifiers a list of calls draws. -/
def drawnIds : List PaperCall → List String
  | [] => []
  | create _ orderId _ :: calls => orderId :: drawnIds calls
  | cancel _ :: calls => drawnIds calls

/-- The inputs the engine is promised: positive amounts and prices, no negative market price. -/
def Admitted : PaperCall → Prop
  | create answer _ request => 0 < request.amount ∧ (∀ price, request.price = some price → 0 < price)
      ∧ ∀ ticker, answer = .ok ticker → 0 ≤ ticker.last
  | cancel _ => True

/-- The ledger a list of calls leaves, each succeeding or raising. -/
def runAll [DecimalContext] (p : PaperAdapter) (l : PaperLedger) (calls : List PaperCall) :
    PaperLedger :=
  calls.foldl (fun l call => (call.run p l).2) l

end PaperCall

end TradingHub
