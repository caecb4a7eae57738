import TradingHub.Library.RelTriple
import TradingHub.Services.FillPrices
import TradingHub.Services.Recovery

set_option autoImplicit false

/-! # Paper trading as bookkeeping

For every request on a paper account the service loads balances and open orders into a ledger, runs
the simulation on it and writes the balances back. `Journal` says what this is for, and does without
a ledger, balances or an exchange: it has the accounts and the orders, and what an account may spend
is worked out from its orders. `service_refines_journal` says that where statements, credentials and
exchanges answer, any run of placements and cancellations gives the replies of the journal, its
refusals included, and leaves the orders of the journal. Arithmetic and columns are exact, as in
`Books`. -/

namespace TradingHub

open Library PaperLedgerRepository AccountService TradingService

/-! ## The journal -/

/-- A trade, with the price of the market it is on. -/
structure Deal where
  env : Env
  trade : Trade
  last : ℚ

namespace PlaceOrder

/-- The price at which the order fills at once, if it does: the market's. -/
def fillAt (r : PlaceOrder) (last : ℚ) : Option ℚ :=
  match r.type, r.price, r.side with
  | .market, _, _ => some last
  | .limit, some price, .buy => if !r.postOnly && decide (last ≤ price) then some last else none
  | .limit, some price, .sell => if !r.postOnly && decide (price ≤ last) then some last else none
  | _, _, _ => none

/-- What the order takes from the account: a buy its cost and the fee, at the fill or at its own
    price, a sell the amount. -/
def needs (r : PlaceOrder) (fill : Option ℚ) : String × ℚ :=
  let pair := splitSymbol r.symbol "USDT"
  match r.side with
  | .buy =>
    let cost := r.amount * fill.getD (r.price.getD 0)
    (pair.2, cost + cost * (4 / 10000))
  | .sell => (pair.1, r.amount)

/-- The row of the order, filled at `fill` or open. -/
def row (r : PlaceOrder) (env : Env) (fill : Option ℚ) : OrderRecord :=
  { id := env.recordId
    userId := r.userId
    accountId := r.accountId
    exchangeOrderId := some ("paper-" ++ env.orderHex)
    clientOrderId := some ("cth-" ++ env.clientOrderHex)
    symbol := r.symbol
    side := r.side
    type := r.type
    status := if fill.isSome then .filled else .open
    amount := r.amount
    filled := if fill.isSome then r.amount else 0
    price := r.price
    average := fill
    fee := fill.elim 0 fun price => r.amount * price * (4 / 10000)
    isPaper := true }

end PlaceOrder

/-- The accounts and their orders. -/
structure Journal where
  accounts : List ExchangeAccount
  orders : List OrderRecord
deriving DecidableEq

namespace Journal

/-- What a database tells of accounts and orders. -/
def of (db : Db) : Journal := ⟨db.accounts, db.orders⟩

def tables (j : Journal) : Db := ⟨j.accounts, j.orders, [], []⟩

/-- What an account has of `asset`: the starting balance, and what its filled orders have moved. -/
def holding (j : Journal) (accountId asset : String) : ℚ :=
  (if asset = "USDT" then 100000 else 0) + j.tables.traded accountId asset

/-- What of it the open orders leave. -/
def spare (j : Journal) (accountId asset : String) : ℚ :=
  j.holding accountId asset - j.tables.reserved accountId asset

/-- What becomes of an order. -/
def place (j : Journal) (limits : RiskLimits) (r : PlaceOrder) (env : Env) (last : ℚ) :
    Except AppError OrderRecord :=
  if j.accounts.any fun a => a.id = r.accountId ∧ a.userId = r.userId then do
    let notional := r.amount * r.price.getD last
    let equity := checkedEquity limits (j.holding r.accountId (quoteOf r.symbol)) notional
    limits.checkOrder notional equity r.effectiveLeverage
    let fill := r.fillAt last
    let needs := r.needs fill
    if j.spare r.accountId needs.1 < needs.2 then
      .error (.insufficientBalance needs.1 needs.2 (j.spare r.accountId needs.1))
    else if j.orders.any fun o => o.id = env.recordId then
      .error (.external "IntegrityError" "orders.id")
    else
      return r.row env fill
  else .error (.notFound "Account not found.")

/-- What becomes of a cancellation, and the orders it leaves. -/
def cancel (j : Journal) (userId orderId : String) : Except AppError OrderRecord × Journal :=
  match j.orders.find? fun o => o.id = orderId ∧ o.userId = userId with
  | none => (.error (.notFound "Order not found."), j)
  | some record =>
    if record.status = .canceled ∨ record.status = .filled then (.ok record, j)
    else (.ok { record with status := .canceled },
      { j with orders := setStatus orderId .canceled j.orders })

def serve (j : Journal) (d : Deal) : Except AppError OrderRecord × Journal :=
  match d.trade with
  | .place limits r =>
    match j.place limits r d.env d.last with
    | .ok row => (.ok row, { j with orders := j.orders ++ [row] })
    | .error e => (.error e, j)
  | .cancel userId orderId => j.cancel userId orderId

end Journal

/-! ## The server -/

/-- The deal, served as a request. -/
def Deal.serve (w : World) (d : Deal) : Except AppError OrderRecord × World :=
  getSession d.env (d.trade.run d.env) w

/-- No circuit of the server is open or being probed. -/
def World.CircuitsClosed (w : World) : Prop :=
  ∀ id b, w.breakers.get? id = some b → b.state = .closed

/-- A server whose accounts trade on paper, on exchanges it supports, with its circuits closed. -/
structure World.OnPaper (w : World) : Prop where
  paper : ∀ a ∈ w.db.accounts, isPaperEffective w.settings a = true
  supported : ∀ a ∈ w.db.accounts, isSupported a.exchangeId = true
  closed : w.CircuitsClosed

/-- Statements do not raise, secrets can be read, and the exchange quotes the pair at the price of
    the deal whenever it is asked. -/
structure Deal.Honest (accounts : List ExchangeAccount) (d : Deal) : Prop where
  promises : d.env.Promises fun _ last => 0 ≤ last
  admitted : d.trade.Admitted
  quiet : ∀ st, d.env.fault st = none
  credentials : ∀ a ∈ accounts, ∃ c, decryptCredentials d.env a = .ok c
  installed : d.env.ccxt.installed = true
  quoted : ∀ limits r, d.trade = .place limits r → ∀ log client, ∃ raw,
    d.env.ccxt.reply log client (.fetchTicker r.symbol) = .ok raw ∧ dec0 raw.last.get = d.last
  closes : ∀ log client, d.env.ccxt.reply log client .close = .ok ()

/-! ## The market -/

section Market

variable {settings : Settings} {db : Db} {l : PaperLedger} {env : Env} {c : CcxtAdapter}

/-- The session of a request in progress, with its working copy. -/
structure Dealing (settings : Settings) (db : Db) (l : PaperLedger) (w : World) : Prop where
  settings : w.settings = settings
  db : w.db = db
  ledger : w.ledger = some l
  closed : w.CircuitsClosed

theorem World.CircuitsClosed.breakerOf {w : World} (h : w.CircuitsClosed) (c : CcxtAdapter) :
    (c.breakerOf w).state = .closed := by
  unfold CcxtAdapter.breakerOf
  cases hget : w.breakers.get? ("ccxt:" ++ c.info.id) with
  | none => rfl
  | some b => exact h _ _ hget

theorem World.CircuitsClosed.setBreaker {w : World} (h : w.CircuitsClosed) (c : CcxtAdapter)
    {b : CircuitBreaker} (hb : b.state = .closed) : (c.setBreaker b w).CircuitsClosed := by
  intro id b' hget
  rw [CcxtAdapter.setBreaker, Dict.get?_set] at hget
  split at hget
  · exact Option.some.inj hget ▸ hb
  · exact h id b' hget

theorem Dealing.setBreaker {w : World} (h : Dealing settings db l w) (c : CcxtAdapter)
    {b : CircuitBreaker} (hb : b.state = .closed) : Dealing settings db l (c.setBreaker b w) :=
  ⟨h.settings, h.db, h.ledger, h.closed.setBreaker c hb⟩

/-- A closed circuit admits a call and stays closed. -/
theorem CircuitBreaker.canAttempt_of_closed {b : CircuitBreaker} (h : b.state = .closed) (now : ℚ) :
    b.canAttempt now = (true, b) := by
  unfold canAttempt
  rw [h]

namespace CcxtAdapter

/-- The client of a market-data source is there, or is built. -/
theorem getClient_dealing (hkeyless : c.credentials = none) (hinstalled : env.ccxt.installed = true) :
    Act.Triple (Dealing settings db l) (c.getClient env) (fun _ => Dealing settings db l)
      (fun _ _ => False) := by
  have hsandbox : c.wantsSandbox = false := by rw [wantsSandbox, hkeyless]
  refine Act.Triple.read_bind_eq fun w hw => ?_
  cases w.client with
  | some client => exact Act.Triple.pure fun _ heq => heq ▸ hw
  | none =>
    have hbuild : Act.Triple (· = w) (c.buildClient env) (fun _ => Dealing settings db l)
        (fun _ _ => False) := by
      unfold buildClient
      simp only [hinstalled, if_true, hsandbox]
      refine Act.Triple.bind (Q := fun _ => Dealing settings db l) (Act.Triple.modify ?_)
        fun _ => Act.Triple.pure fun _ h => h
      rintro _ rfl
      exact ⟨hw.settings, hw.db, hw.ledger, hw.closed⟩
    exact Act.Triple.bind hbuild fun client => Act.Triple.bind
      (Q := fun _ => Dealing settings db l)
      (Act.Triple.modify fun _ h => ⟨h.settings, h.db, h.ledger, h.closed⟩)
      fun _ => Act.Triple.pure fun _ h => h

/-- A request for a ticker that the exchange answers. -/
theorem call_dealing (hkeyless : c.credentials = none) (hinstalled : env.ccxt.installed = true)
    {symbol : String} {last : ℚ}
    (hquoted : ∀ log client, ∃ raw,
      env.ccxt.reply log client (.fetchTicker symbol) = .ok raw ∧ dec0 raw.last.get = last) :
    Act.Triple (Dealing settings db l) (c.call env (.fetchTicker symbol))
      (fun (raw : RawTicker) w => dec0 raw.last.get = last ∧ Dealing settings db l w)
      (fun _ _ => False) := by
  have hinvoke : ∀ client, Act.Triple (Dealing settings db l) (invoke env client (.fetchTicker symbol))
      (fun (raw : RawTicker) w => dec0 raw.last.get = last ∧ Dealing settings db l w)
      (fun _ _ => False) := by
    intro client
    refine Act.Triple.read_bind fun w hw => ?_
    obtain ⟨raw, hraw, hlast⟩ := hquoted w.log client
    simp only [hraw]
    refine Act.Triple.bind (Q := fun _ => Dealing settings db l) (Act.Triple.modify ?_)
      fun _ => Act.Triple.pure fun _ h => ⟨hlast, h⟩
    exact fun _ h => ⟨h.settings, h.db, h.ledger, h.closed⟩
  refine Act.Triple.tryExcept (F := fun _ _ => False) ?_ fun e _ h => h.elim
  refine Act.Triple.read_bind_eq fun w hw => ?_
  simp only [CircuitBreaker.canAttempt_of_closed (hw.closed.breakerOf c), if_true]
  refine Act.Triple.bind (Q := fun _ => Dealing settings db l) (Act.Triple.modify ?_) fun _ => ?_
  · rintro _ rfl
    exact hw.setBreaker c (hw.closed.breakerOf c)
  · refine Act.Triple.bind (Act.Triple.tryExcept (F := fun _ _ => False)
      (Act.Triple.bind (getClient_dealing hkeyless hinstalled) hinvoke) fun e _ h => h.elim)
      fun raw => ?_
    refine Act.Triple.bind (Q := fun _ w => dec0 raw.last.get = last ∧ Dealing settings db l w)
      (Act.Triple.modify ?_) fun _ => Act.Triple.pure fun _ h => h
    exact fun w h => ⟨h.1, h.2.setBreaker c rfl⟩

theorem fetchTicker_dealing (hkeyless : c.credentials = none) (hinstalled : env.ccxt.installed = true)
    {symbol : String} {last : ℚ}
    (hquoted : ∀ log client, ∃ raw,
      env.ccxt.reply log client (.fetchTicker symbol) = .ok raw ∧ dec0 raw.last.get = last) :
    Act.Triple (Dealing settings db l) (c.fetchTicker env symbol)
      (fun ticker w => ticker.last = last ∧ Dealing settings db l w) (fun _ _ => False) :=
  Act.Triple.bind (call_dealing hkeyless hinstalled hquoted)
    fun _ => Act.Triple.pure fun _ h => h

end CcxtAdapter

end Market

/-! ## Placing -/

section Place

variable {db : Db} {l : PaperLedger} {env : Env} {limits : RiskLimits} {r : PlaceOrder} {last : ℚ}

/-- The paper engine fills where the journal does. -/
theorem PlaceOrder.resolveFillPrice_eq (r : PlaceOrder) (env : Env) (ticker : Ticker) :
    PaperAdapter.resolveFillPrice (r.request env) ticker = r.fillAt ticker.last := by
  unfold PaperAdapter.resolveFillPrice PlaceOrder.fillAt PlaceOrder.request
  cases r.type with
  | market => rfl
  | limit =>
    cases r.price with
    | none => rfl
    | some price =>
      cases r.postOnly with
      | true => cases r.side <;> rfl
      | false =>
        cases r.side with
        | buy => by_cases h : ticker.last ≤ price <;> simp [h]
        | sell => by_cases h : price ≤ ticker.last <;> simp [h]
  | _ => rfl

/-- What the engine asks for is what the journal does; it takes it, or refuses. -/
theorem PlaceOrder.engine_decides (r : PlaceOrder) (env : Env) (l : PaperLedger) (ticker : Ticker)
    {account : ExchangeAccount} (hid : account.id = r.accountId) :
    let run := ({} : PaperAdapter).createOrder ⟨fun _ => .ok ticker⟩ ("paper-" ++ env.orderHex)
      (r.request env) l
    let needs := r.needs (r.fillAt ticker.last)
    (l.free needs.1 < needs.2 ∧
      run = (.error (.insufficientBalance needs.1 needs.2 (l.free needs.1)), l)) ∨
    (¬ l.free needs.1 < needs.2 ∧ ∃ o l', run = (.ok o, l') ∧ o.symbol = r.symbol ∧
      recordOf env r.userId account r.symbol o.ofPaper = r.row env (r.fillAt ticker.last)) := by
  intro run needs
  have hrun : run = _ := PaperAdapter.createOrder_run _ _ _ _ _
  simp only [r.resolveFillPrice_eq env ticker] at hrun
  cases hfill : r.fillAt ticker.last with
  | none =>
    have hneeds : ({} : PaperAdapter).reservation
        (PaperAdapter.restingOrder ("paper-" ++ env.orderHex) (r.request env) ticker) = needs := by
      simp only [needs, hfill, PlaceOrder.needs, PaperAdapter.reservation,
        PaperAdapter.restingOrder, PlaceOrder.request]
      cases r.side <;> rfl
    simp only [hfill, hneeds] at hrun
    by_cases hshort : l.free needs.1 < needs.2
    · rw [if_pos hshort] at hrun
      exact Or.inl ⟨hshort, hrun⟩
    · rw [if_neg hshort] at hrun
      refine Or.inr ⟨hshort, _, _, hrun, rfl, ?_⟩
      simp [recordOf, Order.ofPaper, PaperAdapter.restingOrder, PlaceOrder.row,
        PlaceOrder.request, hid]
  | some fill =>
    have hneeds : ({} : PaperAdapter).charge (r.request env) fill = needs := by
      simp only [needs, hfill, PlaceOrder.needs, PaperAdapter.charge, PlaceOrder.request]
      cases r.side <;> rfl
    simp only [hfill, hneeds] at hrun
    by_cases hshort : l.free needs.1 < needs.2
    · rw [if_pos hshort] at hrun
      exact Or.inl ⟨hshort, hrun⟩
    · rw [if_neg hshort] at hrun
      refine Or.inr ⟨hshort, _, _, hrun, rfl, ?_⟩
      simp [recordOf, Order.ofPaper, PaperAdapter.filledOrder, PaperAdapter.fee, PlaceOrder.row,
        PlaceOrder.request, hid]

/-- The equity the check is given is what the journal gives it. -/
theorem checkedEquity_total {asset : String} {total : ℚ} (notional : ℚ)
    (hkeyed : ∀ a b, l.balances.get? a = some b → b.asset = a)
    (htotal : (l.balance asset).total = total) :
    checkedEquity limits (totalOf asset (PaperAdapter.fetchBalance l)) notional
      = checkedEquity limits total notional := by
  rw [totalOf_fetchBalance hkeyed, htotal]
  unfold checkedEquity
  by_cases hpos : 0 < total <;> simp [hpos]

/-- A session that has left the accounts and orders of `j`. -/
structure Session (settings : Settings) (j : Journal) (w : World) : Prop where
  settings : w.settings = settings
  journal : Journal.of w.db = j
  ledger : ∃ l, w.ledger = some l
  closed : w.CircuitsClosed

/-- The row of an order whose id is new is inserted. -/
theorem persist_decided {settings : Settings} {account : ExchangeAccount}
    {order : Order (Option String)} (hquiet : ∀ st, env.fault st = none)
    (hsymbol : order.symbol = some r.symbol) {row : OrderRecord}
    (hrow : recordOf env r.userId account r.symbol order = row) :
    Act.Triple (fun w => ∃ l', Dealing settings db l' w) (persist env r.userId account order)
      (fun record w => ¬ (db.orders.any fun o => o.id = env.recordId) ∧ record = row ∧
        Session settings ⟨db.accounts, db.orders ++ [row]⟩ w)
      (fun e w => (db.orders.any fun o => o.id = env.recordId) = true ∧
        e = .external "IntegrityError" "orders.id" ∧ w.settings = settings ∧ w.CircuitsClosed) := by
  have hid : (recordOf env r.userId account r.symbol order).id = env.recordId := rfl
  refine Act.Triple.bind (execute_triple fun f w hf => absurd hf (by simp [hquiet])) fun _ => ?_
  simp only [hsymbol]
  refine Act.Triple.read_bind_eq fun w hw => ?_
  obtain ⟨l', hw⟩ := hw
  rw [hid, hw.db]
  by_cases hany : (db.orders.any fun o => o.id = env.recordId) = true
  · rw [if_pos hany]
    exact Act.Triple.raise fun _ heq => ⟨hany, rfl, heq ▸ hw.settings, heq ▸ hw.closed⟩
  · rw [if_neg hany]
    refine Act.Triple.bind (Q := fun _ => Session settings ⟨db.accounts, db.orders ++ [row]⟩)
      (Act.Triple.modify ?_) fun _ => Act.Triple.pure fun _ h => ⟨hany, hrow, h⟩
    rintro _ rfl
    refine ⟨hw.settings, ?_, ⟨l', hw.ledger⟩, hw.closed⟩
    rw [Journal.of, hw.db, hrow]

variable {settings : Settings} {account : ExchangeAccount} {info : ExchangeInfo}

/-- The engine is asked for the order. -/
theorem createOrder_decided (hid : account.id = r.accountId)
    (hinstalled : env.ccxt.installed = true)
    (hquoted : ∀ log client, ∃ raw,
      env.ccxt.reply log client (.fetchTicker r.symbol) = .ok raw ∧ dec0 raw.last.get = last) :
    Act.Triple (Dealing settings db l)
      ((Adapter.paper account.id {} ⟨info, none, "spot"⟩).createOrder env (r.request env))
      (fun order w => ¬ l.free (r.needs (r.fillAt last)).1 < (r.needs (r.fillAt last)).2 ∧
        order.symbol = some r.symbol ∧
        recordOf env r.userId account r.symbol order = r.row env (r.fillAt last) ∧
        ∃ l', Dealing settings db l' w)
      (fun e w => l.free (r.needs (r.fillAt last)).1 < (r.needs (r.fillAt last)).2 ∧
        e = .insufficientBalance (r.needs (r.fillAt last)).1 (r.needs (r.fillAt last)).2
          (l.free (r.needs (r.fillAt last)).1) ∧
        w.settings = settings ∧ w.CircuitsClosed) := by
  refine Act.Triple.bind ((CcxtAdapter.fetchTicker_dealing rfl hinstalled hquoted).conseq
    (fun _ h => h) (fun _ _ h => h) fun _ _ h => h.elim) fun ticker => ?_
  refine Act.Triple.of_fact fun hlast => ?_
  subst hlast
  refine Act.Triple.bind (Q := fun _ => Dealing settings db l) (Act.Triple.modify fun w h =>
    ⟨h.settings, h.db, h.ledger, h.closed⟩) fun _ => ?_
  intro w hw
  have hledger := Adapter.onLedger_run hw.ledger (({} : PaperAdapter).createOrder
    ⟨fun _ => .ok ticker⟩ ("paper-" ++ env.orderHex) (r.request env))
  rcases r.engine_decides env l ticker hid with
    ⟨hshort, hrun⟩ | ⟨hfunded, o, l', hrun, hsymbol, hrow⟩
  · rw [hrun] at hledger
    rw [Act.bind_of_error hledger]
    exact ⟨hshort, rfl, hw.settings, hw.closed⟩
  · rw [hrun] at hledger
    rw [Act.bind_of_ok hledger]
    exact ⟨hfunded, congrArg some hsymbol, hrow, l', hw.settings, hw.db, rfl, hw.closed⟩

/-- The ledger of a session is what the journal makes of the orders. -/
structure Books (db : Db) (accountId : String) (l : PaperLedger) : Prop where
  openOrders : ∀ id o, l.orders.get? id = some o → o.status = .open
  free : ∀ asset, l.free asset = (Journal.of db).spare accountId asset
  total : ∀ asset, (l.balance asset).total = (Journal.of db).holding accountId asset
  keyed : ∀ a b, l.balances.get? a = some b → b.asset = a

/-- The verdict of the journal on an order of an account it has. -/
theorem Journal.place_eq {j : Journal} (limits : RiskLimits) (env : Env) (last : ℚ)
    (hany : (j.accounts.any fun a => a.id = r.accountId ∧ a.userId = r.userId) = true) :
    j.place limits r env last =
      match limits.checkOrder (r.amount * r.price.getD last)
        (checkedEquity limits (j.holding r.accountId (quoteOf r.symbol))
          (r.amount * r.price.getD last)) r.effectiveLeverage with
      | .error e => .error e
      | .ok () =>
        if j.spare r.accountId (r.needs (r.fillAt last)).1 < (r.needs (r.fillAt last)).2 then
          .error (.insufficientBalance (r.needs (r.fillAt last)).1 (r.needs (r.fillAt last)).2
            (j.spare r.accountId (r.needs (r.fillAt last)).1))
        else if j.orders.any fun o => o.id = env.recordId then
          .error (.external "IntegrityError" "orders.id")
        else .ok (r.row env (r.fillAt last)) := by
  unfold place
  rw [if_pos hany]
  cases hcheck : limits.checkOrder (r.amount * r.price.getD last)
    (checkedEquity limits (j.holding r.accountId (quoteOf r.symbol))
      (r.amount * r.price.getD last)) r.effectiveLeverage with
  | error e => simp only [hcheck, bind, Except.bind]
  | ok _ =>
    simp only [hcheck, bind, Except.bind]
    rfl

/-- The body of a placement does what the journal says. -/
theorem placeWith_decided (hid : account.id = r.accountId) (hquiet : ∀ st, env.fault st = none)
    (hinstalled : env.ccxt.installed = true)
    (hquoted : ∀ log client, ∃ raw,
      env.ccxt.reply log client (.fetchTicker r.symbol) = .ok raw ∧ dec0 raw.last.get = last)
    (hbooks : Books db r.accountId l)
    (hany : ((Journal.of db).accounts.any fun a => a.id = r.accountId ∧ a.userId = r.userId) = true) :
    Act.Triple (Dealing settings db l)
      (placeWith env limits r account (.paper account.id {} ⟨info, none, "spot"⟩))
      (fun record w => (Journal.of db).place limits r env last = .ok record ∧
        Session settings ⟨db.accounts, db.orders ++ [record]⟩ w)
      (fun e w => (Journal.of db).place limits r env last = .error e ∧ w.settings = settings ∧
        w.CircuitsClosed) := by
  have hplace := Journal.place_eq limits env last hany
  have href : Act.Triple (Dealing settings db l)
      (referencePrice env (.paper account.id {} ⟨info, none, "spot"⟩) r)
      (fun ref w => ref = r.price.getD last ∧ Dealing settings db l w) (fun _ _ => False) := by
    unfold referencePrice
    cases r.price with
    | some price => exact Act.Triple.pure fun _ h => ⟨rfl, h⟩
    | none =>
      exact Act.Triple.bind (CcxtAdapter.fetchTicker_dealing rfl hinstalled hquoted)
        fun _ => Act.Triple.pure fun _ h => h
  refine Act.Triple.bind (href.conseq (fun _ h => h) (fun _ _ h => h) fun _ _ h => h.elim)
    fun ref => Act.Triple.of_fact fun href => ?_
  subst href
  -- The equity is read off the working copy.
  refine Act.Triple.bind (Q := fun equity w => equity = totalOf (equityAsset r.symbol)
    (PaperAdapter.fetchBalance l) ∧ Dealing settings db l w) ?_
    fun equity => Act.Triple.of_fact fun hequity => ?_
  · intro w hw
    rw [quoteEquity_paper hw.ledger]
    exact ⟨rfl, hw⟩
  subst hequity
  rw [equityAsset_eq, checkedEquity_total _ hbooks.keyed (hbooks.total _)]
  refine Act.Triple.bind (Q := fun _ w => limits.checkOrder (r.amount * r.price.getD last)
    (checkedEquity limits ((Journal.of db).holding r.accountId (quoteOf r.symbol))
      (r.amount * r.price.getD last)) r.effectiveLeverage = .ok () ∧ Dealing settings db l w)
    (Act.Triple.ofExcept (fun _ hok _ h => ⟨hok, h⟩) fun e herr _ h => ?_)
    fun _ => Act.Triple.of_fact fun hchecked => ?_
  · have hrefused : limits.checkOrder (r.amount * r.price.getD last)
        (checkedEquity limits ((Journal.of db).holding r.accountId (quoteOf r.symbol))
          (r.amount * r.price.getD last)) r.effectiveLeverage = .error e := herr
    exact ⟨by rw [hplace, hrefused], h.settings, h.closed⟩
  rw [hchecked] at hplace
  simp only at hplace
  refine Act.Triple.bind ((createOrder_decided hid hinstalled hquoted).conseq (fun _ h => h)
    (fun _ _ h => h) fun e w h => ?_) fun order => ?_
  · rw [hbooks.free] at h
    exact ⟨by rw [hplace, if_pos h.1, h.2.1], h.2.2⟩
  refine Act.Triple.of_fact fun hfunded => Act.Triple.of_fact fun hsymbol =>
    Act.Triple.of_fact fun hrow => ?_
  rw [hbooks.free] at hfunded
  rw [if_neg hfunded] at hplace
  refine Act.Triple.bind ((persist_decided hquiet hsymbol hrow).conseq (fun _ h => h)
    (fun _ _ h => h) fun e w h => ?_) fun record => ?_
  · refine ⟨?_, h.2.2⟩
    rw [hplace, h.2.1]
    exact if_pos h.1
  refine Act.Triple.of_fact fun hnew => Act.Triple.of_fact fun hrecord => ?_
  subst hrecord
  refine Act.Triple.bind (Q := fun _ => Session settings
    ⟨db.accounts, db.orders ++ [r.row env (r.fillAt last)]⟩) ?_ fun _ => Act.Triple.pure fun _ h =>
    ⟨hplace.trans (if_neg hnew), h⟩
  refine Act.Triple.bind (execute_triple fun f w hf => absurd hf (by simp [hquiet])) fun _ => ?_
  exact Act.Triple.modify fun _ h => ⟨h.settings, h.journal, h.ledger, h.closed⟩

/-- The clean-up writes balances and closes the client: the journal does not see it. -/
theorem endSession_decided (account : ExchangeAccount) {J : Journal → Prop}
    (hquiet : ∀ st, env.fault st = none)
    (hcloses : ∀ log client, env.ccxt.reply log client .close = .ok ()) (a : Adapter) :
    Act.Triple (fun w => J (Journal.of w.db) ∧ w.settings = settings ∧ w.CircuitsClosed)
      (endSession env account true true a)
      (fun _ w => J (Journal.of w.db) ∧ w.settings = settings ∧ w.CircuitsClosed)
      (fun _ _ => False) := by
  have hexecute : ∀ st, Act.Triple
      (fun w => J (Journal.of w.db) ∧ w.settings = settings ∧ w.CircuitsClosed) (execute env st)
      (fun _ w => J (Journal.of w.db) ∧ w.settings = settings ∧ w.CircuitsClosed)
      (fun _ _ => False) :=
    fun st => execute_triple fun f w hf => absurd hf (by simp [hquiet])
  refine Act.Triple.tryFinally (F := fun _ _ => False) (R := fun _ w => J (Journal.of w.db) ∧
    w.settings = settings ∧ w.CircuitsClosed) ?_ (fun _ => ?_) fun _ _ h => h.elim
  · refine Act.Triple.read_bind fun w _ => ?_
    cases w.ledger with
    | none => exact Act.Triple.pure fun _ h => h
    | some l =>
      exact Act.Triple.bind (hexecute _) fun _ => Act.Triple.bind
        (Act.Triple.modify fun _ h => h) fun _ => hexecute _
  · refine Act.Triple.read_bind fun w _ => ?_
    cases w.client with
    | none => exact Act.Triple.pure fun _ h => h
    | some client =>
      refine Act.Triple.bind (Q := fun _ w => J (Journal.of w.db) ∧ w.settings = settings ∧
        w.CircuitsClosed) (Act.Triple.read_bind fun w _ => ?_) fun _ =>
        Act.Triple.modify fun _ h => h
      simp only [hcloses]
      exact Act.Triple.bind (Act.Triple.modify fun _ h => h) fun _ => Act.Triple.pure fun _ h => h

/-- A paper session in which the body does what is wanted. -/
theorem adapterSession_decided {α : Type} {body : Adapter → Service α} {J : α → Journal → Prop}
    {E : AppError → Prop} {w : World} (hquiet : ∀ st, env.fault st = none)
    (hcredentials : ∃ c, decryptCredentials env account = .ok c)
    (hcloses : ∀ log client, env.ccxt.reply log client .close = .ok ())
    (hmode : isPaperEffective w.settings account = true)
    (hinfo : getInfo account.exchangeId = some info) (hclosed : w.CircuitsClosed)
    (hbody : Act.Triple (Dealing w.settings w.db (ledgerOf account.id w.db))
      (body (.paper account.id {} ⟨info, none, "spot"⟩))
      (fun a w' => J a (Journal.of w'.db) ∧ w'.settings = w.settings ∧ w'.CircuitsClosed)
      (fun e w' => E e ∧ w'.settings = w.settings ∧ w'.CircuitsClosed)) :
    Act.Triple (· = w) (adapterSession env account true body)
      (fun a w' => J a (Journal.of w'.db) ∧ w'.settings = w.settings ∧ w'.CircuitsClosed)
      (fun e w' => E e ∧ w'.settings = w.settings ∧ w'.CircuitsClosed) := by
  intro s hs
  rw [show s = w from hs]
  obtain ⟨c, hcreds⟩ := hcredentials
  have hbuild : buildAdapter env account (some (ledgerOf account.id w.db)) w
      = (.ok (.paper account.id {} ⟨info, none, "spot"⟩),
        { w with client := none, ledger := some (ledgerOf account.id w.db) }) := by
    rw [buildAdapter_paper hmode, hcreds, hinfo]
    rfl
  unfold adapterSession
  rw [Act.bind_of_ok (loadPaperLedger_of (hquiet _) (hquiet _) hmode), Act.bind_of_ok hbuild]
  have hfinally := Act.Triple.tryFinally hbody
    (fun a => (endSession_decided account (J := J a) hquiet hcloses
      (.paper account.id {} ⟨info, none, "spot"⟩)).conseq (fun _ h => h) (fun _ _ h => h)
        fun _ _ h => h.elim)
    (fun e => (endSession_decided account (J := fun _ => E e) hquiet hcloses
      (.paper account.id {} ⟨info, none, "spot"⟩)).conseq (fun _ h => h) (fun _ _ h => h)
        fun _ _ h => h.elim)
  exact hfinally _ ⟨rfl, rfl, rfl, hclosed⟩

/-- A placement does what the journal says. -/
theorem placeOrder_decided {w : World} {d : Deal} (hw : w.OnPaper) (hd : d.Honest w.db.accounts)
    (htrade : d.trade = .place limits r) (hbooks : ∀ acc, Books w.db acc (ledgerOf acc w.db)) :
    Act.Triple (· = w) (placeOrder d.env limits r)
      (fun record w' => ((Journal.of w.db).place limits r d.env d.last = .ok record ∧
        Journal.of w'.db = ⟨w.db.accounts, w.db.orders ++ [record]⟩) ∧
        w'.settings = w.settings ∧ w'.CircuitsClosed)
      (fun e w' => (Journal.of w.db).place limits r d.env d.last = .error e ∧
        w'.settings = w.settings ∧ w'.CircuitsClosed) := by
  intro s hs
  rw [show s = w from hs]
  unfold placeOrder
  cases hfind : w.db.accounts.find? (fun a => a.id = r.accountId ∧ a.userId = r.userId) with
  | none =>
    have hget : getAccount d.env r.accountId r.userId w
        = (.error (.notFound "Account not found."), w) := by
      refine (Act.bind_of_ok (execute_run (hd.quiet _) w)).trans
        ((Act.bind_of_ok (read_run w)).trans ?_)
      rw [hfind]
      rfl
    rw [Act.bind_of_error hget]
    refine ⟨?_, rfl, hw.closed⟩
    have hnone : ((Journal.of w.db).accounts.any fun a =>
        a.id = r.accountId ∧ a.userId = r.userId) = false :=
      List.any_eq_false.2 (List.find?_eq_none.1 hfind)
    unfold Journal.place
    rw [hnone]
    rfl
  | some account =>
    have hmem := List.mem_of_find?_eq_some hfind
    have hkey : account.id = r.accountId ∧ account.userId = r.userId := by
      simpa using List.find?_some hfind
    obtain ⟨info, hinfo⟩ := Option.isSome_iff_exists.1 (hw.supported account hmem)
    have hany : ((Journal.of w.db).accounts.any fun a =>
        a.id = r.accountId ∧ a.userId = r.userId) = true :=
      List.any_eq_true.2 ⟨account, hmem, by simpa using hkey⟩
    rw [Act.bind_of_ok (getAccount_of (hd.quiet _) hfind)]
    refine adapterSession_decided (J := fun record j =>
        (Journal.of w.db).place limits r d.env d.last = .ok record ∧
          j = ⟨w.db.accounts, w.db.orders ++ [record]⟩)
      (E := fun e => (Journal.of w.db).place limits r d.env d.last = .error e) hd.quiet
      (hd.credentials account hmem) hd.closes (hw.paper account hmem) hinfo hw.closed ?_ w rfl
    refine (placeWith_decided hkey.1 hd.quiet hd.installed (hd.quoted limits r htrade)
      (hkey.1 ▸ hbooks account.id) hany).conseq (fun _ h => h) ?_ fun _ _ h => h
    exact fun record w' h => ⟨⟨h.1, h.2.journal⟩, h.2.settings, h.2.closed⟩

/-- An order the engine is asked to cancel is open, or unknown to it. -/
theorem cancelStatus_decided {record : OrderRecord}
    (hopen : ∀ id o, l.orders.get? id = some o → o.status = .open) :
    Act.Triple (Dealing settings db l)
      (cancelStatus env record (.paper account.id {} ⟨info, none, "spot"⟩))
      (fun status w => status = .canceled ∧ ∃ l', Dealing settings db l' w) (fun _ _ => False) := by
  unfold cancelStatus
  cases record.exchangeOrderId with
  | none => exact Act.Triple.pure fun _ h => ⟨rfl, l, h⟩
  | some id =>
    by_cases hid : id = ""
    · simp only [if_pos hid]
      exact Act.Triple.pure fun _ h => ⟨rfl, l, h⟩
    · simp only [if_neg hid]
      intro w hw
      have hcancel : (Adapter.paper account.id {} ⟨info, none, "spot"⟩).cancelOrder env id
          record.symbol w = _ := Adapter.cancelOrder_paper_run hw.ledger id record.symbol
      rw [PaperAdapter.cancelOrder_run] at hcancel
      unfold Act.tryExcept
      cases hget : l.orders.get? id with
      | none =>
        simp only [hget] at hcancel
        rw [Act.bind_of_error hcancel]
        exact ⟨rfl, l, hw.settings, hw.db, rfl, hw.closed⟩
      | some o =>
        have hstatus := hopen id o hget
        simp only [hget, hstatus] at hcancel
        rw [Act.bind_of_ok hcancel]
        exact ⟨rfl, _, hw.settings, hw.db, rfl, hw.closed⟩

theorem cancelWith_decided (userId : String) {record : OrderRecord}
    (hquiet : ∀ st, env.fault st = none)
    (hopen : ∀ id o, l.orders.get? id = some o → o.status = .open) :
    Act.Triple (Dealing settings db l)
      (cancelWith env userId record (.paper account.id {} ⟨info, none, "spot"⟩))
      (fun record' w => (record' = { record with status := .canceled } ∧
        Journal.of w.db = ⟨db.accounts, setStatus record.id .canceled db.orders⟩) ∧
        w.settings = settings ∧ w.CircuitsClosed)
      (fun _ w => False ∧ w.settings = settings ∧ w.CircuitsClosed) := by
  refine Act.Triple.bind ((cancelStatus_decided hopen).conseq (fun _ h => h) (fun _ _ h => h)
    fun _ _ h => h.elim) fun status => Act.Triple.of_fact fun hstatus => ?_
  subst hstatus
  refine Act.Triple.bind (execute_triple fun f w hf => absurd hf (by simp [hquiet])) fun _ => ?_
  refine Act.Triple.bind (Q := fun _ =>
    Session settings ⟨db.accounts, setStatus record.id .canceled db.orders⟩)
    (Act.Triple.modify ?_) fun _ => ?_
  · rintro w ⟨l', hw⟩
    refine ⟨hw.settings, ?_, ⟨l', hw.ledger⟩, hw.closed⟩
    rw [Journal.of, hw.db]
  · refine Act.Triple.bind (Q := fun _ =>
      Session settings ⟨db.accounts, setStatus record.id .canceled db.orders⟩) ?_
      fun _ => Act.Triple.pure fun _ h => ⟨⟨rfl, h.journal⟩, h.settings, h.closed⟩
    refine Act.Triple.bind (execute_triple fun f w hf => absurd hf (by simp [hquiet])) fun _ => ?_
    exact Act.Triple.modify fun _ h => ⟨h.settings, h.journal, h.ledger, h.closed⟩

theorem Journal.cancel_missing {j : Journal} {userId orderId : String}
    (hfind : j.orders.find? (fun o => o.id = orderId ∧ o.userId = userId) = none) :
    j.cancel userId orderId = (.error (.notFound "Order not found."), j) := by
  unfold cancel
  rw [hfind]

theorem Journal.cancel_found {j : Journal} {userId orderId : String} {record : OrderRecord}
    (hfind : j.orders.find? (fun o => o.id = orderId ∧ o.userId = userId) = some record) :
    j.cancel userId orderId =
      if record.status = .canceled ∨ record.status = .filled then (.ok record, j)
      else (.ok { record with status := .canceled },
        { j with orders := setStatus orderId .canceled j.orders }) := by
  unfold cancel
  rw [hfind]

/-- A cancellation does what the journal says. -/
theorem cancelOrder_decided (userId orderId : String) {w : World} {d : Deal} (hw : w.OnPaper)
    (hd : d.Honest w.db.accounts) (howned : w.db.Owned)
    (hbooks : ∀ acc, Books w.db acc (ledgerOf acc w.db)) :
    Act.Triple (· = w) (cancelOrder d.env userId orderId)
      (fun record w' => (Journal.of w.db).cancel userId orderId = (.ok record, Journal.of w'.db) ∧
        w'.settings = w.settings ∧ w'.CircuitsClosed)
      (fun e w' => (Journal.of w.db).cancel userId orderId = (.error e, Journal.of w.db) ∧
        w'.settings = w.settings ∧ w'.CircuitsClosed) := by
  intro s hs
  rw [show s = w from hs]
  unfold cancelOrder
  cases hfind : w.db.orders.find? (fun o => o.id = orderId ∧ o.userId = userId) with
  | none =>
    have hget : getOrder d.env userId orderId w = (.error (.notFound "Order not found."), w) := by
      refine (Act.bind_of_ok (execute_run (hd.quiet _) w)).trans
        ((Act.bind_of_ok (read_run w)).trans ?_)
      rw [hfind]
      rfl
    rw [Act.bind_of_error hget]
    exact ⟨Journal.cancel_missing hfind, rfl, hw.closed⟩
  | some record =>
    have hmem := List.mem_of_find?_eq_some hfind
    have hkey : record.id = orderId ∧ record.userId = userId := by simpa using List.find?_some hfind
    have hget : getOrder d.env userId orderId w = (.ok record, w) := by
      refine (Act.bind_of_ok (execute_run (hd.quiet _) w)).trans
        ((Act.bind_of_ok (read_run w)).trans ?_)
      rw [hfind]
      rfl
    rw [Act.bind_of_ok hget]
    have hcancel := Journal.cancel_found (j := Journal.of w.db) hfind
    by_cases hdone : record.status = .canceled ∨ record.status = .filled
    · rw [if_pos hdone] at hcancel ⊢
      exact ⟨hcancel, rfl, hw.closed⟩
    rw [if_neg hdone] at hcancel ⊢
    cases haccount : w.db.accounts.find? (fun a => a.id = record.accountId ∧ a.userId = userId) with
    | none =>
      obtain ⟨a, ha, hid, huser⟩ := howned.order record hmem
      exact absurd (List.find?_eq_none.1 haccount a ha) (by simp [hid, huser, hkey.2])
    | some account =>
      have hacc := List.mem_of_find?_eq_some haccount
      obtain ⟨info, hinfo⟩ := Option.isSome_iff_exists.1 (hw.supported account hacc)
      rw [Act.bind_of_ok (getAccount_of (hd.quiet _) haccount)]
      have hsession := adapterSession_decided (J := fun record' j =>
          record' = { record with status := .canceled } ∧
            j = ⟨w.db.accounts, setStatus record.id .canceled w.db.orders⟩)
        (E := fun _ => False) hd.quiet (hd.credentials account hacc) hd.closes
        (hw.paper account hacc) hinfo hw.closed
        (cancelWith_decided userId hd.quiet (hbooks account.id).openOrders)
      refine hsession.conseq (fun _ h => h) (fun record' w' h => ?_) (fun _ _ h => h.1.elim) w rfl
      obtain ⟨⟨rfl, hjournal⟩, hrest⟩ := h
      refine ⟨?_, hrest⟩
      rw [hcancel, hjournal, hkey.1]
      rfl

end Place

/-! ## The refinement -/

/-- The ledger that is loaded for an account is what the journal makes of its orders. -/
theorem Recorded.books {drawn : List String} {db : Db} (h : Recorded Balanced drawn db)
    (acc : String) : Books db acc (ledgerOf acc db) := by
  have hbooked := fun asset => h.booked acc asset
  constructor
  · intro id o hget
    obtain ⟨l, hm, -, -⟩ := h.ledger acc
    rw [hm.loaded, PaperLedger.openOrder] at hget
    obtain ⟨o', -, hopen⟩ := Option.bind_eq_some_iff.1 hget
    obtain ⟨hstatus, heq⟩ := Option.ite_none_right_eq_some.1 hopen
    rw [← Option.some.inj heq]
    exact hstatus
  · intro asset
    have htotal := (hbooked asset).total_eq
    rw [(hbooked asset).used_eq] at htotal
    show _ = (if asset = "USDT" then 100000 else 0) + db.traded acc asset - db.reserved acc asset
    linarith
  · exact fun asset => (hbooked asset).total_eq
  · exact fun a b => asset_of_ledgerOf

/-- The turn of a server that a deal is. -/
def Deal.turn (d : Deal) : Turn := .serve d.env (.trade d.trade)

theorem Deal.apply_turn (w : World) (d : Deal) : d.turn.apply w = (d.serve w).2 := by
  show (getSession d.env (Operation.run d.env (.trade d.trade)) w).2 = _
  unfold Deal.serve getSession
  rcases hrun : d.trade.run d.env w with ⟨e | record, w'⟩
  · have hop : Operation.run d.env (.trade d.trade) w = (.error e, w') := Act.bind_of_error hrun
    rw [hop]
  · have hop : Operation.run d.env (.trade d.trade) w = (.ok (), w') := Act.bind_of_ok hrun
    rw [hop]
    cases d.env.fault .commit <;> rfl

/-- The step: a deal served is a deal entered in the journal. -/
theorem Deal.serve_journal {w : World} {d : Deal} (hw : w.OnPaper) (hd : d.Honest w.db.accounts)
    (howned : w.db.Owned) (hbooks : ∀ acc, Books w.db acc (ledgerOf acc w.db)) :
    (d.serve w).1 = ((Journal.of w.db).serve d).1 ∧
      Journal.of (d.serve w).2.db = ((Journal.of w.db).serve d).2 ∧
      (d.serve w).2.settings = w.settings ∧ (d.serve w).2.CircuitsClosed := by
  unfold Deal.serve getSession Journal.serve
  cases htrade : d.trade with
  | place limits r =>
    have hplaced := placeOrder_decided hw hd htrade hbooks w rfl
    simp only [Trade.run]
    rcases hrun : placeOrder d.env limits r w with ⟨e | record, w'⟩
    · rw [hrun] at hplaced
      rw [hplaced.1]
      exact ⟨rfl, rfl, hplaced.2⟩
    · rw [hrun] at hplaced
      rw [hplaced.1.1, hd.quiet]
      exact ⟨rfl, hplaced.1.2, hplaced.2⟩
  | cancel userId orderId =>
    have hcanceled := cancelOrder_decided userId orderId hw hd howned hbooks w rfl
    simp only [Trade.run]
    rcases hrun : cancelOrder d.env userId orderId w with ⟨e | record, w'⟩
    · rw [hrun] at hcanceled
      rw [hcanceled.1]
      exact ⟨rfl, rfl, hcanceled.2⟩
    · rw [hrun] at hcanceled
      rw [hcanceled.1, hd.quiet]
      exact ⟨rfl, rfl, hcanceled.2⟩

theorem Journal.accounts_serve (j : Journal) (d : Deal) : (j.serve d).2.accounts = j.accounts := by
  unfold serve
  cases d.trade with
  | place limits r =>
    cases hplace : j.place limits r d.env d.last with
    | ok row => simp [hplace]
    | error e => simp [hplace]
  | cancel userId orderId =>
    cases hfind : j.orders.find? (fun o => o.id = orderId ∧ o.userId = userId) with
    | none => simp only [cancel_missing hfind]
    | some record =>
      simp only [cancel_found hfind]
      split <;> rfl

/-- The service and the journal after the same deals. -/
structure Refines (accounts : List ExchangeAccount) (drawn : List String) (w : World)
    (j : Journal) : Prop where
  journal : Journal.of w.db = j
  accounts : w.db.accounts = accounts
  onPaper : w.OnPaper
  recorded : Recorded Balanced drawn w.db
  reachable : Reachable w

/-- The step keeps the two together. -/
theorem Refines.serve {accounts : List ExchangeAccount} {drawn : List String} {w : World}
    {j : Journal} {d : Deal} (h : Refines accounts drawn w j) (hd : d.Honest accounts)
    (hfresh : ∀ n ∈ d.turn.draws, n ∉ drawn) :
    (d.serve w).1 = (j.serve d).1 ∧
      Refines accounts (drawn ++ d.turn.draws) (d.serve w).2 (j.serve d).2 := by
  obtain ⟨rfl, rfl, hpaper, hrecorded, hreachable⟩ := h
  obtain ⟨hreply, hjournal, hsettings, hclosed⟩ :=
    Deal.serve_journal hpaper hd hreachable.owned hrecorded.books
  have haccounts : (d.serve w).2.db.accounts = w.db.accounts :=
    (congrArg Journal.accounts hjournal).trans (Journal.accounts_serve _ d)
  refine ⟨hreply, hjournal, haccounts, ⟨?_, ?_, hclosed⟩, ?_, ?_⟩
  · rw [haccounts, hsettings]
    exact hpaper.paper
  · rw [haccounts]
    exact hpaper.supported
  · rw [← d.apply_turn w]
    exact hrecorded.turn balanced_invariant ⟨hd.promises, hd.admitted⟩ hfresh
  · rw [← d.apply_turn w]
    exact Reachable.serve w d.env (.trade d.trade) hreachable hd.promises.selects

/-- The service refines the journal. Whatever has happened before, on a server whose accounts trade
    on paper, every run of placements and cancellations for which statements, credentials and
    exchanges answer gives reply for reply what the journal gives, and leaves its orders: which
    orders are filled, left open or refused, for which reason and with which figures, is decided by
    the accounts, the orders so far and the prices, and by nothing else the service keeps. -/
theorem service_refines_journal (settings : Settings) (turns : List Turn)
    (hturns : ∀ t ∈ turns, t.Promised fun _ last => 0 ≤ last) (w : World)
    (hw : turns.foldl Turn.apply (World.boot settings ⟨[], [], [], []⟩) = w) (hpaper : w.OnPaper)
    (deals : List Deal) (hdeals : ∀ d ∈ deals, d.Honest w.db.accounts)
    (hids : (turns.flatMap Turn.draws ++ deals.flatMap fun d => d.turn.draws).Nodup) :
    outputs Deal.serve w deals = outputs Journal.serve (Journal.of w.db) deals ∧
      Journal.of (runState Deal.serve w deals).db
        = runState Journal.serve (Journal.of w.db) deals := by
  have hstart : Refines w.db.accounts (turns.flatMap Turn.draws) w (Journal.of w.db) :=
    ⟨rfl, rfl, hpaper,
      hw ▸ Recorded.run balanced_invariant settings turns hturns (List.nodup_append.1 hids).1,
      hw ▸ reachable_of_turns settings turns hturns⟩
  have hstep : ∀ drawn w' j (d : Deal), d.Honest w.db.accounts →
      (∀ n ∈ d.turn.draws, n ∉ drawn) → Refines w.db.accounts drawn w' j → (d.serve w').1 = (j.serve d).1 ∧
        Refines w.db.accounts (drawn ++ d.turn.draws) (d.serve w').2 (j.serve d).2 :=
    fun _ _ _ _ hd hfresh h => h.serve hd hfresh
  obtain ⟨hreplies, hend⟩ := simulates_fresh hstep deals _ w _ hdeals hids hstart
  exact ⟨hreplies, hend.journal⟩

/-- A server with one paper account. -/
def World.oneAccount : World :=
  [Turn.serve (Env.quoting 100 "a") (.createPaperAccount "u" "kraken" "main" "spot")].foldl
    Turn.apply (World.boot {} ⟨[], [], [], []⟩)

/-- A coin is bought at the market, another is bid for, two are offered, and the bid is taken back. -/
def Deal.samples : List Deal :=
  [⟨.quoting 100 "1", Trade.sampleBuy, 100⟩, ⟨.quoting 100 "2", Trade.sampleBid, 100⟩,
    ⟨.quoting 100 "3", .place {} ⟨"u", "a", "BTC/USDT", .sell, .limit, 2, some 120, none, .gtc,
      false, false, none⟩, 100⟩, ⟨.quoting 100 "4", .cancel "u" "2", 100⟩]

theorem Deal.samples_honest : ∀ d ∈ Deal.samples, d.Honest World.oneAccount.db.accounts := by
  have hhonest : ∀ (n : String) (t : Trade), t.Admitted →
      (∀ limits r, t = .place limits r → r.symbol = "BTC/USDT") →
      Deal.Honest World.oneAccount.db.accounts ⟨.quoting 100 n, t, 100⟩ := by
    intro n t hadm hsymbol
    refine ⟨Env.quoting_promises n (by norm_num), hadm, fun _ => rfl, ?_, rfl, ?_, fun _ _ => rfl⟩
    · intro a ha
      have hpaper : ∀ a ∈ World.oneAccount.db.accounts, a.isPaper = true := by decide +kernel
      exact ⟨none, by simp [decryptCredentials, hpaper a ha]⟩
    · intro limits r htrade log client
      refine ⟨⟨.value (.num 100), .absent, .absent, .absent, .absent, .absent, .absent⟩, ?_, rfl⟩
      simp only [Env.quoting, hsymbol limits r htrade, if_true]
      rfl
  intro d hd
  simp only [Deal.samples, List.mem_cons, List.not_mem_nil, or_false] at hd
  rcases hd with rfl | rfl | rfl | rfl
  · refine hhonest _ _ ?_ ?_
    · simp [Trade.Admitted, Trade.sampleBuy, PlaceOrder.Admitted]
    · rintro limits r ⟨⟩
      rfl
  · refine hhonest _ _ ?_ ?_
    · simp [Trade.Admitted, Trade.sampleBid, PlaceOrder.Admitted]
    · rintro limits r ⟨⟩
      rfl
  · refine hhonest _ _ ?_ ?_
    · simp [Trade.Admitted, PlaceOrder.Admitted]
    · rintro limits r ⟨⟩
      rfl
  · exact hhonest _ _ trivial (fun _ _ h => absurd h (by simp))

theorem journal_sample :
    (outputs Deal.serve World.oneAccount Deal.samples).map (Except.map (·.status))
      = [.ok .filled, .ok .open, .error (.insufficientBalance "BTC" 2 1), .ok .canceled] := by
  have hpaper : World.oneAccount.OnPaper := by
    refine ⟨by decide +kernel, by decide +kernel, ?_⟩
    intro id b hget
    have hnone : World.oneAccount.breakers = Dict.empty := by decide +kernel
    exact absurd hget (by simp [hnone])
  have hrefines := service_refines_journal {} _ (fun t ht => ?_) World.oneAccount rfl hpaper
    Deal.samples Deal.samples_honest (by decide +kernel)
  · rw [hrefines.1]
    decide +kernel
  · rw [List.mem_singleton.1 ht]
    exact ⟨Env.quoting_promises _ (by norm_num), trivial⟩

end TradingHub
