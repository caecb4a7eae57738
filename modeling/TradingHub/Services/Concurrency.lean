import TradingHub.Exchange.Paper.Agreement
import TradingHub.Library.ReadCommitted
import TradingHub.Services.Durability

set_option autoImplicit false

/-! # Concurrent orders on one paper account

`place_order` requests on the same paper account, interleaved statement by statement on the balance
rows of the account. Each loads the rows with a row lock, lets the engine work on its copy, reads
the rows again and writes its copy back.

The lock keeps two requests apart only if there is a row to lock. Two requests that both find the
account without rows, or one that gains an asset while another is waiting for its locks, overwrite
what the other has committed. -/

namespace TradingHub

open Library Library.ReadCommitted PaperLedgerRepository AccountService TradingService

/-! ## Rows and ledgers -/

/-- The columns of a `PaperBalanceRecord` of one account, apart from its key. -/
structure PaperRow where
  free : ℚ
  used : ℚ
deriving DecidableEq, Repr

/-- The balances of the ledger `load` builds from the rows it is given. -/
def balancesOfRows (rows : Dict String PaperRow) : Dict String Balance :=
  if rows.entries = [] then Dict.empty.set "USDT" ⟨"USDT", 100000, 0⟩
  else rows.mapValues fun asset row => ⟨asset, row.free, row.used⟩

/-- The ledger the engine works on. The orders it is given do not matter to the balances. -/
def ledgerOfRows (rows : Dict String PaperRow) : PaperLedger :=
  ⟨"USDT", 100000, balancesOfRows rows, Dict.empty⟩

/-- What `save` writes of a ledger. -/
def rowsOfLedger (l : PaperLedger) : Dict String PaperRow :=
  l.balances.mapValues fun _ b => ⟨b.free, b.used⟩

theorem get?_balancesOfRows {rows : Dict String PaperRow} (hne : rows.entries ≠ []) (a : String) :
    (balancesOfRows rows).get? a = (rows.get? a).map fun row => ⟨a, row.free, row.used⟩ := by
  rw [balancesOfRows, if_neg hne, Dict.get?_mapValues]

theorem get?_rowsOfLedger (l : PaperLedger) (a : String) :
    (rowsOfLedger l).get? a = (l.balances.get? a).map fun b => ⟨b.free, b.used⟩ :=
  Dict.get?_mapValues _ _ a

theorem asset_of_balancesOfRows (rows : Dict String PaperRow) (a : String) (b : Balance)
    (h : (balancesOfRows rows).get? a = some b) : b.asset = a := by
  by_cases hempty : rows.entries = []
  · rw [balancesOfRows, if_pos hempty, Dict.get?_set] at h
    split at h
    · next ha => rw [← Option.some.inj h, ha]
    · exact absurd h (by simp)
  · rw [get?_balancesOfRows hempty] at h
    obtain ⟨row, -, rfl⟩ := Option.map_eq_some_iff.1 h
    rfl

/-! ## Requests -/

/-- A `place_order` request with what it meets outside the database: the answers of the market to
    its two ticker reads, and the identifiers it draws. -/
structure PaperOrder where
  env : Env
  limits : RiskLimits
  r : PlaceOrder
  quote : Except AppError ℚ
  answer : Except AppError Ticker

namespace PaperOrder

/-- `ref_price`: the price of the request, else what the first ticker read says. -/
def refPrice (q : PaperOrder) : Except AppError ℚ :=
  match q.r.price with
  | some price => .ok price
  | none => q.quote

/-- The body of `place_order` as far as it concerns the ledger: the risk check, then the engine. -/
def body (q : PaperOrder) : Act AppError PaperLedger (Order String) := do
  let refPrice ← Act.ofExcept q.refPrice
  let l ← Act.read
  Act.ofExcept (q.limits.checkOrder (q.r.amount * refPrice)
    (checkedEquity q.limits
      (totalOf (equityAsset q.r.symbol) (PaperAdapter.fetchBalance l)) (q.r.amount * refPrice))
    q.r.effectiveLeverage)
  PaperAdapter.createOrder {} ⟨fun _ => q.answer⟩ ("paper-" ++ q.env.orderHex) (q.r.request q.env)

/-- The base and the quote asset of the order. -/
def scope (q : PaperOrder) : List String :=
  [(splitSymbol q.r.symbol "USDT").1, (splitSymbol q.r.symbol "USDT").2]

theorem mem_scope (q : PaperOrder) (asset : String) :
    asset ∈ q.scope ↔ asset ∈ assetsOf "USDT" q.r.symbol := by
  simp [scope, assetsOf]

/-- The body raises and leaves the ledger alone, or it is the call of the engine. -/
theorem body_run (q : PaperOrder) (l : PaperLedger) :
    q.body l =
      match q.refPrice with
      | .error e => (.error e, l)
      | .ok refPrice =>
        match q.limits.checkOrder (q.r.amount * refPrice)
            (checkedEquity q.limits
              (totalOf (equityAsset q.r.symbol) (PaperAdapter.fetchBalance l))
              (q.r.amount * refPrice))
            q.r.effectiveLeverage with
        | .error e => (.error e, l)
        | .ok () => PaperAdapter.createOrder {} ⟨fun _ => q.answer⟩ ("paper-" ++ q.env.orderHex)
            (q.r.request q.env) l := by
  unfold body
  cases q.refPrice with
  | error e => rfl
  | ok refPrice =>
    rw [Act.bind_of_ok (show Act.ofExcept (.ok refPrice) l = (.ok refPrice, l) from rfl),
      Act.bind_of_ok (show (Act.read : Act AppError _ _) l = (.ok l, l) from rfl)]
    simp only
    cases q.limits.checkOrder (q.r.amount * refPrice) (checkedEquity q.limits
      (totalOf (equityAsset q.r.symbol) (PaperAdapter.fetchBalance l)) (q.r.amount * refPrice))
      q.r.effectiveLeverage with
    | error e => rfl
    | ok _ => rfl

/-- A property of ledgers that the engine keeps is kept by the body. -/
theorem body_keeps {I : PaperLedger → Prop} (q : PaperOrder) {l : PaperLedger} (h : I l)
    (hcreate : I (PaperAdapter.createOrder {} ⟨fun _ => q.answer⟩ ("paper-" ++ q.env.orderHex)
      (q.r.request q.env) l).2) : I (q.body l).2 := by
  rw [body_run]
  split
  · exact h
  · split
    · exact h
    · exact hcreate

theorem body_frame (q : PaperOrder) (l : PaperLedger) :
    SameRows (assetsOf "USDT" q.r.symbol)ᶜ l (q.body l).2 :=
  q.body_keeps (I := SameRows (assetsOf "USDT" q.r.symbol)ᶜ l) (fun _ _ => rfl)
    (PaperAdapter.createOrder_frame (p := {}) _ _ (q.r.request q.env) l)

theorem body_balances_none (q : PaperOrder) (l : PaperLedger) (a : String)
    (h : (q.body l).2.balances.get? a = none) : l.balances.get? a = none :=
  q.body_keeps (I := fun l' => l'.balances.get? a = none → l.balances.get? a = none) id
    (PaperAdapter.run_balances_none {} (.create q.answer ("paper-" ++ q.env.orderHex)
      (q.r.request q.env)) l a) h

/-- The body looks at the assets of its symbol only. -/
theorem body_sameRows (q : PaperOrder) {S : Set String} {l l' : PaperLedger}
    (hS : assetsOf "USDT" q.r.symbol ⊆ S) (h : SameRows S l l')
    (hl : ∀ a b, l.balances.get? a = some b → b.asset = a)
    (hl' : ∀ a b, l'.balances.get? a = some b → b.asset = a) :
    (q.body l').1 = (q.body l).1 ∧ SameRows S (q.body l).2 (q.body l').2 := by
  have hequity : totalOf (equityAsset q.r.symbol) (PaperAdapter.fetchBalance l)
      = totalOf (equityAsset q.r.symbol) (PaperAdapter.fetchBalance l') := by
    have hquote : l.balance (quoteOf q.r.symbol) = l'.balance (quoteOf q.r.symbol) := by
      rw [PaperLedger.balance, PaperLedger.balance, h (quoteOf q.r.symbol) (hS (Or.inr rfl))]
    rw [equityAsset_eq, totalOf_fetchBalance hl, totalOf_fetchBalance hl', hquote]
  rw [body_run, body_run, hequity]
  split
  · exact ⟨rfl, h⟩
  · split
    · exact ⟨rfl, h⟩
    · exact PaperAdapter.createOrder_sameRows hS h

end PaperOrder

/-- The transactions of `place_order`. A session whose body raised still saves its copy, but does
    not commit. The ORM writes the columns whose value changed. -/
def paperOrders : Program String PaperRow PaperOrder where
  compute q rows := ((q.body (ledgerOfRows rows)).1.toOption.isSome,
    rowsOfLedger (q.body (ledgerOfRows rows)).2)
  patch old new row :=
    ⟨if new.free = old.free then row.free else new.free,
      if new.used = old.used then row.used else new.used⟩

/-- What the library asks of the transactions. -/
theorem paperOrders_local : paperOrders.Local PaperOrder.scope "USDT" where
  agree q rows rows' hne hne' hagree := by
    have hrows : SameRows (assetsOf "USDT" q.r.symbol) (ledgerOfRows rows) (ledgerOfRows rows') := by
      intro a ha
      show (balancesOfRows rows).get? a = (balancesOfRows rows').get? a
      rw [get?_balancesOfRows hne, get?_balancesOfRows hne', hagree a ((q.mem_scope a).2 ha)]
    obtain ⟨hresult, hsame⟩ := q.body_sameRows subset_rfl hrows (asset_of_balancesOfRows rows)
      (asset_of_balancesOfRows rows')
    refine ⟨by simp only [paperOrders, hresult], fun a ha => ?_⟩
    show (rowsOfLedger _).get? a = (rowsOfLedger _).get? a
    rw [get?_rowsOfLedger, get?_rowsOfLedger, hsame a ((q.mem_scope a).1 ha)]
  frame q rows hne a ha := by
    have hframe := q.body_frame (ledgerOfRows rows) a fun h => ha ((q.mem_scope a).2 h)
    show (rowsOfLedger _).get? a = rows.get? a
    rw [get?_rowsOfLedger, ← hframe, show (ledgerOfRows rows).balances = balancesOfRows rows from rfl,
      get?_balancesOfRows hne, Option.map_map]
    exact Option.map_id'
  seeded q hnone := by
    have hget : (q.body (ledgerOfRows Dict.empty)).2.balances.get? "USDT" = none := by
      change (rowsOfLedger _).get? "USDT" = none at hnone
      rwa [get?_rowsOfLedger, Option.map_eq_none_iff] at hnone
    exact absurd (q.body_balances_none _ "USDT" hget) (by decide +kernel)
  patch_self old new := by
    have hfree : (if new.free = old.free then old.free else new.free) = new.free := by
      split
      · next h => exact h.symm
      · rfl
    have hused : (if new.used = old.used then old.used else new.used) = new.used := by
      split
      · next h => exact h.symm
      · rfl
    show (⟨_, _⟩ : PaperRow) = new
    rw [hfree, hused]

/-! ## Running one request on its own -/

/-- The balance rows of an account. -/
def rowsOf (accountId : String) (db : Db) : Dict String PaperRow :=
  (balancesOf accountId db.balances).mapValues fun _ b => ⟨b.free, b.used⟩

theorem get?_rowsOf (accountId : String) (db : Db) (a : String) : (rowsOf accountId db).get? a
    = ((balancesOf accountId db.balances).get? a).map fun b => ⟨b.free, b.used⟩ :=
  Dict.get?_mapValues _ _ a

theorem ledgerOf_sameRows (accountId : String) (db : Db) :
    SameRows Set.univ (ledgerOf accountId db) (ledgerOfRows (rowsOf accountId db)) := by
  intro a _
  show _ = (balancesOfRows (rowsOf accountId db)).get? a
  by_cases hempty : (balancesOf accountId db.balances).entries = []
  · simp [ledgerOf, hempty, balancesOfRows, rowsOf, Dict.mapValues]
  · have hne : (rowsOf accountId db).entries ≠ [] := by simpa [rowsOf, Dict.mapValues] using hempty
    rw [get?_balancesOfRows hne, get?_rowsOf, Option.map_map]
    cases hget : (ledgerOf accountId db).balances.get? a with
    | none => rw [get?_balancesOf_of_ledgerOf hget]; rfl
    | some b =>
      have hget' : (balancesOf accountId db.balances).get? a = some b := by
        rwa [ledgerOf, if_neg hempty] at hget
      have hasset := asset_of_ledgerOf hget
      subst hasset
      rw [hget']
      rfl

/-- What a request met and did on a ledger is a run of its body. -/
theorem Placement.Of.body {env : Env} {limits : RiskLimits} {r : PlaceOrder} {l : PaperLedger}
    {log log' : List Event} {p : Placement} (hp : p.Of env limits r {} l log log') :
    PaperOrder.body ⟨env, limits, r, .ok p.refPrice, .ok p.ticker⟩ l = (.ok p.order, p.ledger) := by
  have href : PaperOrder.refPrice ⟨env, limits, r, .ok p.refPrice, .ok p.ticker⟩ = .ok p.refPrice := by
    unfold PaperOrder.refPrice
    split
    · next price hprice => rw [hp.given price hprice]
    · rfl
  have hchecked : limits.checkOrder (r.amount * p.refPrice)
      (checkedEquity limits (totalOf (equityAsset r.symbol) (PaperAdapter.fetchBalance l))
        (r.amount * p.refPrice)) r.effectiveLeverage = .ok () := hp.checked
  rw [PaperOrder.body_run, href]
  simp only [hchecked]
  exact hp.created

/-- The serial run of a request is the request served on its own: it leaves the balance rows that
    `place_order` leaves. -/
theorem serial_placeOrder {env : Env} {limits : RiskLimits} {r : PlaceOrder} {w w' : World}
    {record : OrderRecord}
    (hmode : ∀ account, (Trade.place limits r).account? w.db = some account →
      isPaperEffective w.settings account = true)
    (h : placeOrder env limits r w = (.ok record, w')) :
    ∃ account quote answer, (Trade.place limits r).account? w.db = some account ∧
      ∀ a, (rowsOf account.id w'.db).get? a
        = (paperOrders.serial (rowsOf account.id w.db) ⟨env, limits, r, quote, answer⟩).get? a := by
  obtain ⟨account, p, hfind, hp, -, -, -, hdb, -⟩ := placeOrder_paper_ok hmode h
  refine ⟨account, .ok p.refPrice, .ok p.ticker, hfind, fun a => ?_⟩
  have hbody := hp.body
  obtain ⟨hresult, hsame⟩ := PaperOrder.body_sameRows
    ⟨env, limits, r, .ok p.refPrice, .ok p.ticker⟩ (Set.subset_univ _)
    (ledgerOf_sameRows account.id w.db) (fun _ _ => asset_of_ledgerOf)
    (asset_of_balancesOfRows (rowsOf account.id w.db))
  rw [hbody] at hresult hsame
  have hok : (paperOrders.compute ⟨env, limits, r, .ok p.refPrice, .ok p.ticker⟩
      (rowsOf account.id w.db)).1 = true := by
    simp only [paperOrders, hresult]
    rfl
  rw [Program.serial, if_pos hok, Dict.get?_update, get?_rowsOf, get?_rowsOf, hdb]
  show Option.map _ ((balancesOf account.id (saveRows account.id p.ledger.balances
    w.db.balances)).get? a) = ((rowsOfLedger _).get? a).or _
  rw [get?_balancesOf_saveRows, get?_rowsOfLedger, ← hsame a (Set.mem_univ a)]
  cases p.ledger.balances.get? a <;> rfl

/-! ## Interleavings -/

/-- However the statements of any number of orders on one account are interleaved, the balances
    committed are those of the committed orders one after another in commit order, as long as each
    order, at the read of its `save`, finds no row of its two assets that its `load` did not return,
    and no row at all if its `load` returned none. -/
theorem concurrent_orders_serialise (rows : Dict String PaperRow)
    (actions : List (Action String PaperOrder))
    (hcovered : Guarded paperOrders.step (Program.Covered PaperOrder.scope) (State.init rows)
      actions) (asset : String) :
    (actions.foldl paperOrders.step (State.init rows)).committed.get? asset
      = ((actions.foldl paperOrders.step (State.init rows)).log.foldl paperOrders.serial
          rows).get? asset :=
  serialises paperOrders_local rows actions hcovered asset

/-- A market buy of `amount` coins at 100. -/
def PaperOrder.sampleBuy (n : String) (amount : ℚ) : PaperOrder where
  env := Env.quiet 100 n
  limits := {}
  r := ⟨"u", "a", "BTC/USDT", .buy, .market, amount, none, none, .gtc, false, false, none⟩
  quote := .ok 100
  answer := .ok ⟨"BTC/USDT", 100, none, none, none, none, none, none⟩

/-- Two orders, the second of which starts while the first has its new rows inserted and has to wait
    for it. -/
def waitingOrders : List (Action String PaperOrder) :=
  [.select 0 (.sampleBuy "1" 1), .lock 0, .save 0, .write 0 "USDT", .write 0 "BTC",
    .select 1 (.sampleBuy "2" 2), .commit 0, .lock 1, .rollback 1,
    .select 1 (.sampleBuy "3" 2), .lock 1, .select 0 (.sampleBuy "4" 4), .lock 0, .save 1,
    .write 1 "USDT", .lock 0, .write 1 "BTC", .commit 1, .lock 0, .rollback 0]

theorem concurrent_orders_sample :
    ((waitingOrders.foldl paperOrders.step (State.init Dict.empty)).committed.get? "BTC")
      = some ⟨3, 0⟩ ∧
    ∀ asset, (waitingOrders.foldl paperOrders.step (State.init Dict.empty)).committed.get? asset
      = ((waitingOrders.foldl paperOrders.step (State.init Dict.empty)).log.foldl paperOrders.serial
          Dict.empty).get? asset :=
  ⟨by decide +kernel, concurrent_orders_serialise Dict.empty waitingOrders (by decide +kernel)⟩

/-- The first two orders of an account, both loaded before either has saved. -/
def firstOrders : List (Action String PaperOrder) :=
  [.select 0 (.sampleBuy "1" 1), .lock 0, .select 1 (.sampleBuy "2" 2), .lock 1,
    .save 0, .write 0 "USDT", .write 0 "BTC", .commit 0,
    .save 1, .write 1 "USDT", .write 1 "BTC", .commit 1]

/-- Both orders commit, and the second overwrites the balances of the first: one after another they
    buy three coins, here the account ends with two. -/
theorem first_orders_lose_update :
    (firstOrders.foldl paperOrders.step (State.init Dict.empty)).log.length = 2 ∧
    (firstOrders.foldl paperOrders.step (State.init Dict.empty)).committed.get? "BTC"
      = some ⟨2, 0⟩ ∧
    (firstOrders.foldl paperOrders.step (State.init Dict.empty)).committed.get? "BTC"
      ≠ ((firstOrders.foldl paperOrders.step (State.init Dict.empty)).log.foldl paperOrders.serial
          Dict.empty).get? "BTC" := by
  decide +kernel

end TradingHub
