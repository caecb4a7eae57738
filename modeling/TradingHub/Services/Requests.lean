import TradingHub.Services.Specs

set_option autoImplicit false

/-! # Trades on paper

What a `place_order` or `cancel_order` request on an account that trades on paper has done when it
returned. `Placement` and `CancelOutcome` name what happened on the ledger; the request then wrote
the order row (or its status), the audit row and the ledger, or nothing at all. -/

namespace TradingHub

open Library PaperLedgerRepository AccountService
open DecimalContext (fix)

variable {env : Env} {w w' : World}

/-! ## The paper adapter -/

namespace Adapter

variable {accountId : String} {engine : PaperAdapter} {market : CcxtAdapter} {l : PaperLedger}

theorem onLedger_run {α : Type} (hl : w.ledger = some l) (x : Act AppError PaperLedger α) :
    onLedger x w = ((x l).1, { w with ledger := some (x l).2 }) := by
  unfold onLedger
  rw [Act.bind_of_ok (show (Act.read : Service World) w = (.ok w, w) from rfl), hl]
  rfl

theorem onLedger_ok {α : Type} {x : Act AppError PaperLedger α} {a : α}
    (h : onLedger x w = (.ok a, w')) (hl : w.ledger = some l) :
    ∃ l', x l = (.ok a, l') ∧ w' = { w with ledger := some l' } := by
  rw [onLedger_run hl] at h
  obtain ⟨ha, rfl⟩ := Prod.mk.inj h
  exact ⟨(x l).2, Prod.ext ha rfl, rfl⟩

theorem fetchBalance_paper [DecimalContext] (hl : w.ledger = some l) :
    (paper accountId engine market).fetchBalance env w
      = (.ok (PaperAdapter.fetchBalance l), w) := by
  obtain ⟨settings, db, ledger, client, breakers, log⟩ := w
  obtain rfl : ledger = some l := hl
  rfl

theorem createOrder_paper_ok [DecimalContext] {request : OrderRequest}
    {order : Order (Option String)} (hl : w.ledger = some l)
    (h : (paper accountId engine market).createOrder env request w = (.ok order, w')) :
    ∃ ticker o l' w₁, market.fetchTicker env request.symbol w = (.ok ticker, w₁) ∧
      engine.createOrder ⟨fun _ => .ok ticker⟩ ("paper-" ++ env.orderHex) request l = (.ok o, l') ∧
      order = o.ofPaper ∧
      w' = { w₁ with
        log := w₁.log ++ [.paper accountId (.create (.ok ticker) ("paper-" ++ env.orderHex) request)]
        ledger := some l' } := by
  obtain ⟨ticker, w₁, hticker, h⟩ := Act.bind_eq_ok.1 h
  have hl₁ : w₁.ledger = some l := (CcxtAdapter.fetchTicker_ok hticker).1.ledger.trans hl
  obtain ⟨_, _, hlog, h⟩ := Act.bind_eq_ok.1 h
  obtain rfl := Act.modify_eq_ok.1 hlog
  obtain ⟨o, w₂, hledger, h⟩ := Act.bind_eq_ok.1 h
  obtain ⟨rfl, rfl⟩ := Act.pure_eq_ok.1 h
  obtain ⟨l', hrun, rfl⟩ := onLedger_ok hledger hl₁
  exact ⟨ticker, o, l', w₁, hticker, hrun, rfl, rfl⟩

theorem cancelOrder_paper_run [DecimalContext] (hl : w.ledger = some l) (orderId symbol : String) :
    (paper accountId engine market).cancelOrder env orderId symbol w =
      ((engine.cancelOrder orderId l).1.map Order.ofPaper,
        { w with log := w.log ++ [.paper accountId (.cancel orderId)]
                 ledger := some (engine.cancelOrder orderId l).2 }) := by
  refine (Act.bind_of_ok (show logPaper accountId (.cancel orderId) w = (.ok (), _) from rfl)).trans ?_
  have hrun := onLedger_run (w := { w with log := w.log ++ [.paper accountId (.cancel orderId)] })
    hl (engine.cancelOrder orderId)
  rcases hr : engine.cancelOrder orderId l with ⟨e | o, l'⟩
  · rw [hr] at hrun
    exact Act.bind_of_error hrun
  · rw [hr] at hrun
    exact (Act.bind_of_ok hrun).trans rfl

end Adapter

/-! ## The equity of a paper account -/

/-- The quote asset of a symbol. -/
def quoteOf (symbol : String) : String := (splitSymbol symbol "USDT").2

theorem TradingService.equityAsset_eq (symbol : String) : equityAsset symbol = quoteOf symbol := by
  unfold equityAsset quoteOf splitSymbol
  simp only
  split <;> rfl

/-- Every balance of a loaded ledger stands under its own asset. -/
theorem asset_of_ledgerOf {accountId : String} {db : Db} {a : String} {b : Balance}
    (h : (ledgerOf accountId db).balances.get? a = some b) : b.asset = a := by
  unfold ledgerOf at h
  simp only at h
  split at h
  · rw [Dict.get?_set] at h
    split at h
    · next ha =>
      obtain rfl := Option.some.inj h
      exact ha.symm
    · exact absurd h (by simp)
  · obtain ⟨row, -, hrow⟩ := List.mem_map.1 (Dict.mem_of_get?_ofEntries h)
    obtain ⟨rfl, rfl⟩ := Prod.mk.inj hrow
    rfl

/-- The equity the risk check sees is the total of the asset if that is positive, else nothing. -/
theorem TradingService.totalOf_fetchBalance [DecimalContext] {l : PaperLedger} {asset : String}
    (hkeyed : ∀ a b, l.balances.get? a = some b → b.asset = a) :
    totalOf asset (PaperAdapter.fetchBalance l)
      = if 0 < (l.balance asset).total then (l.balance asset).total else 0 := by
  have hmem : ∀ b, b ∈ PaperAdapter.fetchBalance l → b.asset = asset →
      l.balances.get? asset = some b ∧ 0 < b.total := by
    intro b hb hasset
    obtain ⟨hvalue, hpos⟩ := List.mem_filter.1 hb
    obtain ⟨k, hk⟩ := (Dict.mem_values_iff _ b).1 hvalue
    rw [← hkeyed k b hk, hasset] at hk
    exact ⟨hk, of_decide_eq_true hpos⟩
  unfold totalOf
  split
  · next b hfind =>
    obtain ⟨hget, hpos⟩ := hmem b (List.mem_of_find?_eq_some hfind)
      (by simpa using List.find?_some hfind)
    rw [PaperLedger.balance, hget, Option.getD_some, if_pos hpos]
  · next hfind =>
    refine (if_neg fun hpos => ?_).symm
    cases hget : l.balances.get? asset with
    | none =>
      rw [PaperLedger.balance, hget] at hpos
      exact absurd hpos (by simp [Balance.total])
    | some b =>
      rw [PaperLedger.balance, hget, Option.getD_some] at hpos
      have hb : b ∈ PaperAdapter.fetchBalance l :=
        List.mem_filter.2 ⟨(Dict.mem_values_iff _ b).2 ⟨asset, hget⟩, decide_eq_true hpos⟩
      exact absurd (hkeyed asset b hget) (by simpa using List.find?_eq_none.1 hfind b hb)

/-! ## Placing -/

/-- What `place_order` met and did on a ledger. -/
structure Placement where
  refPrice : ℚ
  ticker : Ticker
  order : Order String
  ledger : PaperLedger

/-- `p` is what placing `r` with the paper engine on the ledger `l` amounts to, on a trace that grew
    from `log` to `log'`: both prices come from the request or from a ticker read on the way, the
    risk check passed, the engine accepted. -/
structure Placement.Of [DecimalContext] (env : Env) (limits : RiskLimits) (r : PlaceOrder)
    (engine : PaperAdapter) (l : PaperLedger) (log log' : List Event) (p : Placement) : Prop where
  given : ∀ price, r.price = some price → p.refPrice = price
  quoted : r.price = none → TickerRead env r.symbol log log' p.refPrice
  ticker : TickerRead env r.symbol log log' p.ticker.last
  checked : limits.checkOrder (fix (r.amount * p.refPrice))
    (TradingService.checkedEquity limits
      (TradingService.totalOf (TradingService.equityAsset r.symbol) (PaperAdapter.fetchBalance l))
      (fix (r.amount * p.refPrice))) r.effectiveLeverage = .ok ()
  created : engine.createOrder ⟨fun _ => .ok p.ticker⟩ ("paper-" ++ env.orderHex) (r.request env) l
    = (.ok p.order, p.ledger)

theorem Placement.Of.widen [DecimalContext] {limits : RiskLimits} {r : PlaceOrder}
    {engine : PaperAdapter} {l : PaperLedger} {log log₁ log₂ : List Event} {p : Placement}
    (h : p.Of env limits r engine l log log₁) (hgrown : log₁ <+: log₂) :
    p.Of env limits r engine l log log₂ :=
  { h with
    quoted := fun hp => (h.quoted hp).widen List.prefix_rfl hgrown
    ticker := h.ticker.widen List.prefix_rfl hgrown }

/-- The order row of a placement. -/
def Placement.record (env : Env) (r : PlaceOrder) (account : ExchangeAccount) (p : Placement) :
    OrderRecord :=
  TradingService.recordOf env r.userId account p.order.symbol p.order.ofPaper

/-- The tables after a placement: the order row, the audit row and the balances. -/
def Placement.commit (env : Env) (r : PlaceOrder) (account : ExchangeAccount) (db : Db)
    (p : Placement) : Db :=
  { accounts := db.accounts
    orders := db.orders ++ [p.record env r account]
    balances := saveRows account.id p.ledger.balances db.balances
    audit := db.audit ++ [⟨some r.userId,
      .orderPlace r.accountId r.symbol r.side r.type p.order.isPaper p.order.status⟩] }

namespace TradingService

theorem auditRecord_ok {userId : String} {detail : AuditDetail}
    (h : auditRecord env userId detail w = (.ok (), w')) :
    w' = { w with db := { w.db with audit := w.db.audit ++ [⟨some userId, detail⟩] } } := by
  obtain ⟨_, _, hx, h⟩ := Act.bind_eq_ok.1 h
  obtain ⟨-, rfl⟩ := execute_eq_ok.1 hx
  exact (Act.modify_eq_ok.1 h).symm

theorem persist_ok {userId : String} {account : ExchangeAccount} {order : Order (Option String)}
    {record : OrderRecord} (h : persist env userId account order w = (.ok record, w')) :
    ∃ symbol, order.symbol = some symbol ∧ record = recordOf env userId account symbol order ∧
      (∀ o ∈ w.db.orders, o.id ≠ env.recordId) ∧
      w' = { w with db := { w.db with orders := w.db.orders ++ [record] } } := by
  obtain ⟨_, _, hx, h⟩ := Act.bind_eq_ok.1 h
  obtain ⟨-, rfl⟩ := execute_eq_ok.1 hx
  cases hsymbol : order.symbol with
  | none =>
    rw [hsymbol] at h
    exact absurd h (by simp)
  | some symbol =>
    rw [hsymbol] at h
    obtain ⟨_, _, hread, h⟩ := Act.bind_eq_ok.1 h
    obtain ⟨rfl, rfl⟩ := Act.read_eq_ok.1 hread
    split at h
    · exact absurd h (by simp)
    · next hfresh =>
      obtain ⟨_, _, hmod, h⟩ := Act.bind_eq_ok.1 h
      obtain rfl := Act.modify_eq_ok.1 hmod
      obtain ⟨rfl, rfl⟩ := Act.pure_eq_ok.1 h
      refine ⟨symbol, rfl, rfl, fun o ho hid => hfresh ?_, rfl⟩
      exact List.any_eq_true.2 ⟨o, ho, decide_eq_true hid⟩

theorem getOrder_ok {userId orderId : String} {record : OrderRecord}
    (h : getOrder env userId orderId w = (.ok record, w')) :
    w = w' ∧ w.db.orders.find? (fun o => o.id = orderId ∧ o.userId = userId) = some record := by
  obtain ⟨_, _, hx, h⟩ := Act.bind_eq_ok.1 h
  obtain ⟨-, rfl⟩ := execute_eq_ok.1 hx
  obtain ⟨_, _, hread, h⟩ := Act.bind_eq_ok.1 h
  obtain ⟨rfl, rfl⟩ := Act.read_eq_ok.1 hread
  cases hfind : w.db.orders.find? (fun o => o.id = orderId ∧ o.userId = userId) with
  | none =>
    rw [hfind] at h
    exact absurd h (by simp)
  | some o =>
    rw [hfind] at h
    obtain ⟨rfl, rfl⟩ := Act.pure_eq_ok.1 h
    exact ⟨rfl, rfl⟩

theorem quoteEquity_paper [DecimalContext] {accountId : String} {engine : PaperAdapter}
    {market : CcxtAdapter} {l : PaperLedger} (hl : w.ledger = some l) (symbol : String) :
    quoteEquity env (.paper accountId engine market) symbol w
      = (.ok (totalOf (equityAsset symbol) (PaperAdapter.fetchBalance l)), w) := by
  unfold quoteEquity
  have hbalances : Act.tryExcept (Adapter.fetchBalance (.paper accountId engine market) env)
      (fun _ => return []) w = (.ok (PaperAdapter.fetchBalance l), w) := by
    unfold Act.tryExcept
    rw [Adapter.fetchBalance_paper hl]
  rw [Act.bind_of_ok hbalances]
  rfl

theorem referencePrice_paper_ok {a : Adapter} {r : PlaceOrder} {refPrice : ℚ}
    (h : referencePrice env a r w = (.ok refPrice, w')) :
    Traffic w w' ∧ (∀ price, r.price = some price → refPrice = price) ∧
      (r.price = none → TickerRead env r.symbol w.log w'.log refPrice) := by
  unfold referencePrice at h
  cases hp : r.price with
  | some price =>
    rw [hp] at h
    obtain ⟨rfl, rfl⟩ := Act.pure_eq_ok.1 h
    exact ⟨Traffic.refl _, fun _ hq => Option.some.inj hq, fun hq => absurd hq (by simp)⟩
  | none =>
    rw [hp] at h
    obtain ⟨ticker, w₁, hticker, h⟩ := Act.bind_eq_ok.1 h
    obtain ⟨rfl, rfl⟩ := Act.pure_eq_ok.1 h
    obtain ⟨htraffic, hlast⟩ := CcxtAdapter.fetchTicker_ok hticker
    exact ⟨htraffic, fun _ hq => absurd hq (by simp), fun _ => hlast⟩

theorem placeWith_paper_ok [DecimalContext] {limits : RiskLimits} {r : PlaceOrder}
    {account : ExchangeAccount}
    {accountId : String} {engine : PaperAdapter} {market : CcxtAdapter} {l : PaperLedger}
    {record : OrderRecord} (hl : w.ledger = some l)
    (h : placeWith env limits r account (.paper accountId engine market) w = (.ok record, w')) :
    ∃ p : Placement, p.Of env limits r engine l w.log w'.log ∧
      record = p.record env r account ∧ (∀ o ∈ w.db.orders, o.id ≠ env.recordId) ∧ w'.settings = w.settings ∧
      w'.ledger = some p.ledger ∧
      w'.db = { p.commit env r account w.db with balances := w.db.balances } ∧
      ∃ new, w'.log = w.log ++ new ∧ paperCalls new =
        [(accountId, .create (.ok p.ticker) ("paper-" ++ env.orderHex) (r.request env))] := by
  obtain ⟨refPrice, w₁, href, h⟩ := Act.bind_eq_ok.1 h
  obtain ⟨ht₁, hgiven, hquoted⟩ := referencePrice_paper_ok href
  have hl₁ : w₁.ledger = some l := ht₁.ledger.trans hl
  rw [Act.bind_of_ok (quoteEquity_paper hl₁ r.symbol)] at h
  obtain ⟨_, _, hcheck, h⟩ := Act.bind_eq_ok.1 h
  obtain ⟨hpass, rfl⟩ := Act.ofExcept_eq_ok.1 hcheck
  obtain ⟨_, _, hcreate, h⟩ := Act.bind_eq_ok.1 h
  obtain ⟨ticker, order, l', w₂, hticker, hrun, rfl, rfl⟩ := Adapter.createOrder_paper_ok hl₁ hcreate
  obtain ⟨ht₂, hlast⟩ := CcxtAdapter.fetchTicker_ok hticker
  obtain ⟨_, _, hpersist, h⟩ := Act.bind_eq_ok.1 h
  obtain ⟨symbol, hsymbol, rfl, hfresh, rfl⟩ := persist_ok hpersist
  obtain rfl := Option.some.inj hsymbol
  obtain ⟨_, _, haudit, h⟩ := Act.bind_eq_ok.1 h
  obtain rfl := auditRecord_ok haudit
  obtain ⟨rfl, rfl⟩ := Act.pure_eq_ok.1 h
  have ht := ht₁.trans ht₂
  obtain ⟨new, hlog, hnew⟩ := ht.log
  have hgrown : w₂.log <+: w₂.log ++ [.paper accountId (.create (.ok ticker)
    ("paper-" ++ env.orderHex) (r.request env))] := List.prefix_append _ _
  refine ⟨⟨refPrice, ticker, order, l'⟩, ⟨hgiven, fun hp => ?_, hlast.widen ht₁.log_prefix hgrown,
    hpass, hrun⟩, rfl, fun o ho => hfresh o ?_, ht.settings, rfl, ?_, ?_⟩
  · exact (hquoted hp).widen List.prefix_rfl (ht₂.log_prefix.trans hgrown)
  · simpa [ht.db] using ho
  · simp [Placement.commit, Placement.record, ht.db, Order.ofPaper]
  · refine ⟨new ++ [.paper accountId (.create (.ok ticker) ("paper-" ++ env.orderHex)
      (r.request env))], ?_, ?_⟩
    · simp [hlog]
    · rw [paperCalls, List.filterMap_append]
      rw [paperCalls] at hnew
      rw [hnew]
      rfl

end TradingService

/-! ## Cancelling -/

/-- What cancelling the order of `record` on the ledger `l` comes to: the status written, the
    ledger left and the calls made on the paper engine. -/
inductive CancelOutcome [DecimalContext] (engine : PaperAdapter) (record : OrderRecord)
    (l : PaperLedger) :
    OrderStatus → PaperLedger → List PaperCall → Prop
  /-- The record carries no exchange id: nothing is asked of the engine. -/
  | unnamed (h : record.exchangeOrderId = none ∨ record.exchangeOrderId = some "") :
      CancelOutcome engine record l .canceled l []
  /-- The engine does not know the order: the fallback. -/
  | unknown (id : String) (hid : record.exchangeOrderId = some id) (hne : id ≠ "")
      (h : l.orders.get? id = none) :
      CancelOutcome engine record l .canceled l [.cancel id]
  | answered (id : String) (order : Order String) (l' : PaperLedger)
      (hid : record.exchangeOrderId = some id) (hne : id ≠ "")
      (h : engine.cancelOrder id l = (.ok order, l')) :
      CancelOutcome engine record l order.status l' [.cancel id]

/-- The tables after a cancellation: the status, the audit row and the balances. -/
def cancelCommit (userId accountId : String) (record : OrderRecord) (status : OrderStatus)
    (l : PaperLedger) (db : Db) : Db :=
  { accounts := db.accounts
    orders := TradingService.setStatus record.id status db.orders
    balances := saveRows accountId l.balances db.balances
    audit := db.audit ++ [⟨some userId, .orderCancel record.accountId record.id⟩] }

namespace TradingService

theorem cancelStatus_paper_ok [DecimalContext] {record : OrderRecord} {accountId : String}
    {engine : PaperAdapter}
    {market : CcxtAdapter} {l : PaperLedger} {status : OrderStatus} (hl : w.ledger = some l)
    (h : cancelStatus env record (.paper accountId engine market) w = (.ok status, w')) :
    ∃ l' calls, CancelOutcome engine record l status l' calls ∧
      w' = { w with log := w.log ++ calls.map (.paper accountId), ledger := some l' } := by
  have hsame : w = { w with log := w.log ++ ([] : List PaperCall).map (.paper accountId)
                            ledger := some l } := by
    rw [← hl, List.map_nil, List.append_nil]
  unfold cancelStatus at h
  cases hid : record.exchangeOrderId with
  | none =>
    rw [hid] at h
    obtain ⟨rfl, rfl⟩ := Act.pure_eq_ok.1 h
    exact ⟨l, [], .unnamed (Or.inl hid), hsame⟩
  | some id =>
    rw [hid] at h
    simp only at h
    split at h
    · next hempty =>
      obtain ⟨rfl, rfl⟩ := Act.pure_eq_ok.1 h
      exact ⟨l, [], .unnamed (Or.inr (hempty ▸ hid)), hsame⟩
    · next hne =>
      have hrun : (Adapter.paper accountId engine market).cancelOrder env id record.symbol w = _ :=
        Adapter.cancelOrder_paper_run hl id record.symbol
      rcases hengine : engine.cancelOrder id l with ⟨e | o, l'⟩
      · -- The engine raises only for an order it does not know, and has then changed nothing.
        obtain ⟨hget, he, rfl⟩ | ⟨_, _, _, he, _⟩ | ⟨_, _, _, he, _⟩ :=
          PaperAdapter.cancelOrder_cases hengine
        · rw [hengine] at hrun
          rcases Act.tryExcept_eq_ok.1 h with h | ⟨e', w₁, hraise, h⟩
          · rw [Act.bind_of_error hrun] at h
            exact absurd (congrArg Prod.fst h) (by simp)
          · rw [Act.bind_of_error hrun] at hraise
            obtain ⟨he', rfl⟩ := Prod.mk.inj hraise
            obtain rfl := Except.error.inj he
            obtain rfl := Except.error.inj he'
            obtain ⟨rfl, rfl⟩ := Act.pure_eq_ok.1 h
            exact ⟨l', [.cancel id], .unknown id hid hne hget, rfl⟩
        · exact absurd he (by simp)
        · exact absurd he (by simp)
      · rw [hengine] at hrun
        rcases Act.tryExcept_eq_ok.1 h with h | ⟨e', w₁, hraise, h⟩
        · rw [Act.bind_of_ok hrun] at h
          obtain ⟨rfl, rfl⟩ := Act.pure_eq_ok.1 h
          exact ⟨l', [.cancel id], .answered id o l' hid hne hengine, rfl⟩
        · rw [Act.bind_of_ok hrun] at hraise
          exact absurd (congrArg Prod.fst hraise) (by simp [pure, Act.pure])

theorem cancelWith_paper_ok [DecimalContext] {userId : String} {record out : OrderRecord}
    {accountId : String}
    {engine : PaperAdapter} {market : CcxtAdapter} {l : PaperLedger} (hl : w.ledger = some l)
    (h : cancelWith env userId record (.paper accountId engine market) w = (.ok out, w')) :
    ∃ status l' calls, CancelOutcome engine record l status l' calls ∧
      out = { record with status } ∧ w'.settings = w.settings ∧ w'.ledger = some l' ∧
      w'.db = { cancelCommit userId accountId record status l' w.db with
        balances := w.db.balances } ∧
      w'.log = w.log ++ calls.map (.paper accountId) := by
  obtain ⟨status, w₁, hstatus, h⟩ := Act.bind_eq_ok.1 h
  obtain ⟨l', calls, hout, rfl⟩ := cancelStatus_paper_ok hl hstatus
  obtain ⟨_, _, hx, h⟩ := Act.bind_eq_ok.1 h
  obtain ⟨-, rfl⟩ := execute_eq_ok.1 hx
  obtain ⟨_, _, hmod, h⟩ := Act.bind_eq_ok.1 h
  obtain rfl := Act.modify_eq_ok.1 hmod
  obtain ⟨_, _, haudit, h⟩ := Act.bind_eq_ok.1 h
  obtain rfl := auditRecord_ok haudit
  obtain ⟨rfl, rfl⟩ := Act.pure_eq_ok.1 h
  exact ⟨status, l', calls, hout, rfl, rfl, rfl, rfl, rfl⟩

end TradingService

/-! ## Requests -/

theorem paperCalls_append (log new : List Event) :
    paperCalls (log ++ new) = paperCalls log ++ paperCalls new :=
  List.filterMap_append

theorem paperCalls_map (accountId : String) (calls : List PaperCall) :
    paperCalls (calls.map (.paper accountId)) = calls.map (accountId, ·) := by
  induction calls with
  | nil => rfl
  | cons call calls ih =>
    rw [List.map_cons, List.map_cons, ← ih]
    rfl

namespace TradingService

theorem mem_setStatus {orderId : String} {status : OrderStatus} {orders : List OrderRecord}
    {o : OrderRecord} (h : o ∈ setStatus orderId status orders) :
    ∃ o₀ ∈ orders, o = (if o₀.id = orderId then { o₀ with status } else o₀) ∧ o.id = o₀.id ∧
      o.accountId = o₀.accountId ∧ o.isPaper = o₀.isPaper := by
  obtain ⟨o₀, ho₀, rfl⟩ := List.mem_map.1 h
  refine ⟨o₀, ho₀, rfl, ?_⟩
  split <;> exact ⟨rfl, rfl, rfl⟩

/-- A `place_order` that returned ran a session on its account. -/
theorem placeOrder_session [DecimalContext] {limits : RiskLimits} {r : PlaceOrder}
    {record : OrderRecord} (h : placeOrder env limits r w = (.ok record, w')) :
    ∃ account, (Trade.place limits r).account? w.db = some account ∧
      adapterSession env account true (placeWith env limits r account) w = (.ok record, w') := by
  obtain ⟨account, _, hget, hsession⟩ := Act.bind_eq_ok.1 h
  obtain ⟨rfl, hfind⟩ := getAccount_ok hget
  exact ⟨account, hfind, hsession⟩

/-- A `cancel_order` that returned found the order finished, or ran a session on its account. -/
theorem cancelOrder_session [DecimalContext] {userId orderId : String} {out : OrderRecord}
    (h : cancelOrder env userId orderId w = (.ok out, w')) :
    ∃ record, w.db.orders.find? (fun o => o.id = orderId ∧ o.userId = userId) = some record ∧
      ((record.status = .canceled ∨ record.status = .filled) ∧ out = record ∧ w' = w ∨
        ¬ (record.status = .canceled ∨ record.status = .filled) ∧
          ∃ account, (Trade.cancel userId orderId).account? w.db = some account ∧
            account.id = record.accountId ∧
            adapterSession env account true (cancelWith env userId record) w = (.ok out, w')) := by
  obtain ⟨record, _, hget, hcancel⟩ := Act.bind_eq_ok.1 h
  obtain ⟨rfl, hfind⟩ := getOrder_ok hget
  refine ⟨record, hfind, ?_⟩
  split at hcancel
  · next hdone =>
    obtain ⟨rfl, rfl⟩ := Act.pure_eq_ok.1 hcancel
    exact Or.inl ⟨hdone, rfl, rfl⟩
  · next hdone =>
    obtain ⟨account, _, hgetAccount, hsession⟩ := Act.bind_eq_ok.1 hcancel
    obtain ⟨rfl, hacc⟩ := getAccount_ok hgetAccount
    have haccount : (Trade.cancel userId orderId).account? w.db = some account := by
      rw [Trade.account?, hfind, Option.bind_some]
      exact hacc
    have hid := List.find?_some hacc
    simp only [decide_eq_true_eq] at hid
    exact Or.inr ⟨hdone, account, haccount, hid.1, hsession⟩

/-- A `place_order` that returned on an account that trades on paper. -/
theorem placeOrder_paper_ok [DecimalContext] {limits : RiskLimits} {r : PlaceOrder}
    {record : OrderRecord} (hmode : ∀ account, (Trade.place limits r).account? w.db = some account →
      isPaperEffective w.settings account = true)
    (h : placeOrder env limits r w = (.ok record, w')) :
    ∃ account, ∃ p : Placement, (Trade.place limits r).account? w.db = some account ∧
      p.Of env limits r {} (ledgerOf account.id w.db) w.log w'.log ∧
      record = p.record env r account ∧ (∀ o ∈ w.db.orders, o.id ≠ env.recordId) ∧ w'.settings = w.settings ∧
      w'.db = p.commit env r account w.db ∧
      ∃ new, w'.log = w.log ++ new ∧ paperCalls new =
        [(account.id, .create (.ok p.ticker) ("paper-" ++ env.orderHex) (r.request env))] := by
  obtain ⟨account, hfind, hsession⟩ := placeOrder_session h
  obtain ⟨info, w₁, hbody, hsave⟩ := adapterSession_paper_ok (hmode account hfind) hsession
  obtain ⟨p, hp, hrecord, hfresh, hset, hledger, hdb, new, hlog, hnew⟩ :=
    placeWith_paper_ok rfl hbody
  have htraffic := hsave p.ledger hledger
  obtain ⟨new', hlog', hnew'⟩ := htraffic.log
  refine ⟨account, p, hfind, hp.widen htraffic.log_prefix, hrecord, hfresh,
    htraffic.settings.trans hset, ?_, new ++ new', ?_, ?_⟩
  · rw [htraffic.db]
    simp only [savedDb, hdb, Placement.commit]
  · simp only [hlog', hlog, List.append_assoc]
  · rw [paperCalls_append, hnew, hnew', List.append_nil]

/-- A `cancel_order` that returned on an account that trades on paper. -/
theorem cancelOrder_paper_ok [DecimalContext] {userId orderId : String} {out : OrderRecord}
    (hmode : ∀ account, (Trade.cancel userId orderId).account? w.db = some account →
      isPaperEffective w.settings account = true)
    (h : cancelOrder env userId orderId w = (.ok out, w')) :
    ∃ record, w.db.orders.find? (fun o => o.id = orderId ∧ o.userId = userId) = some record ∧
      ((record.status = .canceled ∨ record.status = .filled) ∧ out = record ∧ w' = w ∨
        ¬ (record.status = .canceled ∨ record.status = .filled) ∧
          ∃ account status l' calls, (Trade.cancel userId orderId).account? w.db = some account ∧
            account.id = record.accountId ∧
            CancelOutcome {} record (ledgerOf account.id w.db) status l' calls ∧
            out = { record with status } ∧ w'.settings = w.settings ∧
            w'.db = cancelCommit userId account.id record status l' w.db ∧
            ∃ new, w'.log = w.log ++ new ∧ paperCalls new = calls.map (account.id, ·)) := by
  obtain ⟨record, hfind, hdone | ⟨hlive, account, haccount, hid, hsession⟩⟩ := cancelOrder_session h
  · exact ⟨record, hfind, Or.inl hdone⟩
  · refine ⟨record, hfind, Or.inr ⟨hlive, ?_⟩⟩
    obtain ⟨info, w₁, hbody, hsave⟩ := adapterSession_paper_ok (hmode account haccount) hsession
    obtain ⟨status, l', calls, hout, hrec, hset, hledger, hdb, hlog⟩ :=
      cancelWith_paper_ok rfl hbody
    have htraffic := hsave l' hledger
    obtain ⟨new', hlog', hnew'⟩ := htraffic.log
    refine ⟨account, status, l', calls, haccount, hid, hout, hrec,
      htraffic.settings.trans hset, ?_, calls.map (.paper account.id) ++ new', ?_, ?_⟩
    · rw [htraffic.db]
      simp only [savedDb, hdb, cancelCommit]
    · simp only [hlog', hlog, List.append_assoc]
    · rw [paperCalls_append, hnew', List.append_nil, paperCalls_map]

end TradingService

/-! ## All or nothing -/

/-- The whole effect of a trade on the tables of an account that trades on paper. -/
def Trade.Effect (env : Env) (account : ExchangeAccount) (w w' : World) : Trade → Prop
  | place limits r =>
    ∃ p : Placement, p.Of env limits r {} (ledgerOf account.id w.db) w.log w'.log ∧
      w'.db = p.commit env r account w.db
  | cancel userId orderId =>
    ∃ record status l calls,
      w.db.orders.find? (fun o => o.id = orderId ∧ o.userId = userId) = some record ∧
      CancelOutcome {} record (ledgerOf account.id w.db) status l calls ∧
      w'.db = cancelCommit userId account.id record status l w.db

/-- Whatever raises on the way, a trade on paper ends with the tables as they were, or with the
    order row or its new status, the audit row and the balances of the one operation. -/
theorem trade_all_or_nothing (env : Env) (w : World) (t : Trade)
    (hmode : ∀ account, t.account? w.db = some account →
      isPaperEffective w.settings account = true) :
    (serveTrade w (env, t)).db = w.db ∨
      ∃ account, t.account? w.db = some account ∧
        t.Effect env account w (serveTrade w (env, t)) := by
  obtain ⟨record, w', hrun, hserve⟩ | ⟨e, w', hserve, hdb⟩ := getSession_cases env (t.run env) w
  · rw [serveTrade, hserve]
    cases t with
    | place limits r =>
      obtain ⟨account, p, hacc, hp, -, -, -, hdb, -⟩ := TradingService.placeOrder_paper_ok hmode hrun
      exact Or.inr ⟨account, hacc, p, hp, hdb⟩
    | cancel userId orderId =>
      obtain ⟨order, hfind, ⟨-, -, rfl⟩ | ⟨-, account, status, l', calls, hacc, -, hout, -, -, hdb, -⟩⟩ :=
        TradingService.cancelOrder_paper_ok hmode hrun
      · exact Or.inl rfl
      · exact Or.inr ⟨account, hacc, order, status, l', calls, hfind, hout, hdb⟩
  · rw [serveTrade, hserve]
    exact Or.inl hdb

theorem trade_all_or_nothing_sample :
    (serveTrade (World.boot {} (Db.oneLiveAccount "kraken")) (Env.quiet 100 "1", Trade.sampleBuy)).db
        ≠ Db.oneLiveAccount "kraken" ∧
      ∃ account, Trade.sampleBuy.account? (Db.oneLiveAccount "kraken") = some account ∧
        Trade.sampleBuy.Effect (Env.quiet 100 "1") account
          (World.boot {} (Db.oneLiveAccount "kraken"))
          (serveTrade (World.boot {} (Db.oneLiveAccount "kraken"))
            (Env.quiet 100 "1", Trade.sampleBuy)) := by
  have hne : (serveTrade (World.boot {} (Db.oneLiveAccount "kraken"))
      (Env.quiet 100 "1", Trade.sampleBuy)).db ≠ Db.oneLiveAccount "kraken" := by decide +kernel
  refine ⟨hne, ?_⟩
  exact (trade_all_or_nothing (Env.quiet 100 "1") (World.boot {} (Db.oneLiveAccount "kraken"))
    Trade.sampleBuy (fun account _ => by simp [isPaperEffective, World.boot])).resolve_left hne

end TradingHub
