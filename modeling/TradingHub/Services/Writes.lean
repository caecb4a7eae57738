import TradingHub.Services.TenantIsolation

set_option autoImplicit false

/-! # What an operation writes

Exchange calls, price reads and the read paths of the services leave the tables alone, whether they
return or raise (`OnDb`). What is left are the few places that write, and `Operation.Wrote` says
once everything an operation that returned can have done to the tables; results about runs split on
it and never unfold a service again. -/

namespace TradingHub

open Library PaperLedgerRepository AccountService

variable {env : Env} {w w' : World} {db : Db}

/-! ## Actions that leave the tables alone -/

/-- The tables are `db`. -/
def OnDb (db : Db) (w : World) : Prop := w.db = db

theorem onDb_of_traffic {α : Type} {x : Service α} (h : ∀ w₀, Act.Keeps (Traffic w₀) x) :
    Act.Keeps (OnDb db) x := by
  intro w hw
  have htraffic := h w w (Traffic.refl w)
  rcases hx : x w with ⟨e | a, w'⟩ <;> rw [hx] at htraffic <;> exact htraffic.db.trans hw

/-- An action that leaves the tables alone, run from some world. -/
theorem db_of_keeps {α : Type} {x : Service α} {r : Except AppError α}
    (h : ∀ db, Act.Keeps (OnDb db) x) (hx : x w = (r, w')) : w'.db = w.db := by
  have hfinal : OnDb w.db (x w).2 := (h w.db).final rfl
  rwa [hx] at hfinal

theorem execute_onDb (hselects : env.SelectsRead) {st : Statement} (hst : st.isSelect = true) :
    Act.Keeps (OnDb db) (execute env st) :=
  execute_triple fun f w hf hw => (hselects st f hst hf w.db).trans hw

theorem onLedger_onDb {α : Type} (x : Act AppError PaperLedger α) :
    Act.Keeps (OnDb db) (onLedger x) := by
  unfold onLedger
  refine Act.Keeps.bind Act.Keeps.read fun w => ?_
  split
  · exact Act.Keeps.raise _
  · next l _ =>
    intro w hw
    have h : OnDb db { w with ledger := some (x l).2 } := hw
    unfold Act.zoom
    rcases (x l).1 with e | r <;> exact h

theorem call_onDb (c : CcxtAdapter) (m : Method) : Act.Keeps (OnDb db) (c.call env m) :=
  onDb_of_traffic fun w₀ => CcxtAdapter.call_traffic m w₀

theorem fetchTicker_onDb (c : CcxtAdapter) (symbol : String) :
    Act.Keeps (OnDb db) (c.fetchTicker env symbol) :=
  Act.Keeps.bind (call_onDb c _) fun _ => Act.Keeps.pure _

theorem close_onDb : Act.Keeps (OnDb db) (CcxtAdapter.close env) :=
  onDb_of_traffic fun w₀ => CcxtAdapter.close_traffic w₀

namespace Adapter

theorem fetchBalance_onDb (a : Adapter) : Act.Keeps (OnDb db) (a.fetchBalance env) := by
  cases a with
  | paper accountId engine market => exact onLedger_onDb _
  | live exchange => exact Act.Keeps.bind (call_onDb exchange _) fun _ => Act.Keeps.pure _

theorem fetchPositions_onDb (a : Adapter) : Act.Keeps (OnDb db) (a.fetchPositions env) := by
  cases a with
  | paper accountId engine market => exact Act.Keeps.pure _
  | live exchange =>
    refine Act.Keeps.bind (call_onDb exchange _) fun _ => ?_
    exact Act.Keeps.bind (Act.Keeps.ofExcept _) fun _ => Act.Keeps.pure _

theorem fetchOpenOrders_onDb (a : Adapter) : Act.Keeps (OnDb db) (a.fetchOpenOrders env) := by
  cases a with
  | paper accountId engine market => exact onLedger_onDb _
  | live exchange => exact Act.Keeps.bind (call_onDb exchange _) fun _ => Act.Keeps.ofExcept _

theorem createOrder_onDb (a : Adapter) (request : OrderRequest) :
    Act.Keeps (OnDb db) (a.createOrder env request) := by
  cases a with
  | paper accountId engine market =>
    refine Act.Keeps.bind (fetchTicker_onDb market _) fun _ => ?_
    refine Act.Keeps.bind (Act.Keeps.modify fun _ hw => hw) fun _ => ?_
    exact Act.Keeps.bind (onLedger_onDb _) fun _ => Act.Keeps.pure _
  | live exchange => exact Act.Keeps.bind (call_onDb exchange _) fun _ => Act.Keeps.ofExcept _

theorem cancelOrder_onDb (a : Adapter) (orderId symbol : String) :
    Act.Keeps (OnDb db) (a.cancelOrder env orderId symbol) := by
  cases a with
  | paper accountId engine market =>
    refine Act.Keeps.bind (Act.Keeps.modify fun _ hw => hw) fun _ => ?_
    exact Act.Keeps.bind (onLedger_onDb _) fun _ => Act.Keeps.pure _
  | live exchange => exact Act.Keeps.bind (call_onDb exchange _) fun _ => Act.Keeps.ofExcept _

end Adapter

/-! ## Read paths -/

namespace AccountService

theorem getAccount_onDb (hselects : env.SelectsRead) (accountId userId : String) :
    Act.Keeps (OnDb db) (getAccount env accountId userId) := by
  refine Act.Keeps.bind (execute_onDb hselects rfl) fun _ => ?_
  refine Act.Keeps.bind Act.Keeps.read fun w => ?_
  split
  · exact Act.Keeps.raise _
  · exact Act.Keeps.pure _

theorem listAccounts_onDb (hselects : env.SelectsRead) (userId : String) :
    Act.Keeps (OnDb db) (listAccounts env userId) :=
  Act.Keeps.bind (execute_onDb hselects rfl) fun _ =>
    Act.Keeps.bind Act.Keeps.read fun _ => Act.Keeps.pure _

theorem loadPaperLedger_onDb (hselects : env.SelectsRead) (account : ExchangeAccount) :
    Act.Keeps (OnDb db) (loadPaperLedger env account) := by
  refine Act.Keeps.bind Act.Keeps.read fun w => ?_
  split
  · refine Act.Keeps.bind ?_ fun _ => Act.Keeps.pure _
    refine Act.Keeps.bind (execute_onDb hselects rfl) fun _ => ?_
    refine Act.Keeps.bind (execute_onDb hselects rfl) fun _ => ?_
    exact Act.Keeps.bind Act.Keeps.read fun _ => Act.Keeps.pure _
  · exact Act.Keeps.pure _

theorem buildAdapter_onDb (account : ExchangeAccount) (ledger : Option PaperLedger) :
    Act.Keeps (OnDb db) (buildAdapter env account ledger) := by
  intro w hw
  cases hmode : isPaperEffective w.settings account with
  | true =>
    rw [buildAdapter_paper hmode]
    cases decryptCredentials env account with
    | error e => exact hw
    | ok credentials => cases getInfo account.exchangeId <;> exact hw
  | false =>
    obtain ⟨e, hrun⟩ | ⟨info, creds, -, -, -, hrun⟩ := buildAdapter_live env hmode ledger
    · rw [hrun]
      exact hw
    · rw [hrun]
      exact hw

/-- A session that is not persisted. -/
theorem adapterSession_onDb {α : Type} (hselects : env.SelectsRead) (account : ExchangeAccount)
    {body : Adapter → Service α} (hbody : ∀ a, Act.Keeps (OnDb db) (body a)) :
    Act.Keeps (OnDb db) (adapterSession env account false body) := by
  refine Act.Keeps.bind (loadPaperLedger_onDb hselects account) fun ledger => ?_
  refine Act.Keeps.bind (buildAdapter_onDb account ledger) fun a => ?_
  refine Act.Keeps.tryFinally (hbody a) (Act.Keeps.tryFinally ?_ close_onDb)
  exact Act.Keeps.bind Act.Keeps.read fun _ => Act.Keeps.pure _

end AccountService

namespace TradingService

theorem getOrder_onDb (hselects : env.SelectsRead) (userId orderId : String) :
    Act.Keeps (OnDb db) (getOrder env userId orderId) := by
  refine Act.Keeps.bind (execute_onDb hselects rfl) fun _ => ?_
  refine Act.Keeps.bind Act.Keeps.read fun w => ?_
  split
  · exact Act.Keeps.raise _
  · exact Act.Keeps.pure _

theorem accountRead_onDb {α : Type} (hselects : env.SelectsRead) (accountId userId : String)
    {body : Adapter → Service α} (hbody : ∀ a, Act.Keeps (OnDb db) (body a)) :
    Act.Keeps (OnDb db) (do
      let account ← getAccount env accountId userId
      adapterSession env account false body) :=
  Act.Keeps.bind (getAccount_onDb hselects _ _) fun account =>
    adapterSession_onDb hselects account hbody

theorem quoteEquity_onDb (a : Adapter) (symbol : String) :
    Act.Keeps (OnDb db) (quoteEquity env a symbol) :=
  Act.Keeps.bind (Act.Keeps.tryExcept a.fetchBalance_onDb fun _ => Act.Keeps.pure _)
    fun _ => Act.Keeps.pure _

theorem referencePrice_onDb (a : Adapter) (r : PlaceOrder) :
    Act.Keeps (OnDb db) (referencePrice env a r) := by
  unfold referencePrice
  split
  · exact Act.Keeps.pure _
  · exact Act.Keeps.bind (fetchTicker_onDb a.ccxt _) fun _ => Act.Keeps.pure _

theorem cancelStatus_onDb (record : OrderRecord) (a : Adapter) :
    Act.Keeps (OnDb db) (cancelStatus env record a) := by
  unfold cancelStatus
  split
  · exact Act.Keeps.pure _
  · split
    · exact Act.Keeps.pure _
    · refine Act.Keeps.tryExcept
        (Act.Keeps.bind (a.cancelOrder_onDb _ _) fun _ => Act.Keeps.pure _) fun e => ?_
      split
      · exact Act.Keeps.pure _
      · exact Act.Keeps.raise _

end TradingService

/-- Aggregation reads account by account; the account it skips has changed nothing. -/
theorem PortfolioService.aggregateFrom_onDb (hselects : env.SelectsRead)
    (accounts : List ExchangeAccount) :
    ∀ totals, Act.Keeps (OnDb db) (aggregateFrom env totals accounts) := by
  induction accounts with
  | nil => exact fun _ => Act.Keeps.pure _
  | cons account rest ih =>
    intro totals
    refine Act.Keeps.bind (Act.Keeps.tryExcept ?_ fun _ => Act.Keeps.pure _) fun _ => ih _
    exact adapterSession_onDb hselects account fun a => a.fetchBalance_onDb

namespace MarketService

theorem withPublicAdapter_onDb {α : Type} (exchangeId : String) {body : CcxtAdapter → Service α}
    (hbody : ∀ c, Act.Keeps (OnDb db) (body c)) :
    Act.Keeps (OnDb db) (withPublicAdapter env exchangeId body) := by
  refine Act.Keeps.bind ?_ fun c => Act.Keeps.tryFinally (hbody c) close_onDb
  unfold ExchangeFactory.publicMarketAdapter CcxtAdapter.new
  split
  · split
    · exact Act.Keeps.raise _
    · exact Act.Keeps.bind (Act.Keeps.modify fun _ hw => hw) fun _ => Act.Keeps.pure _
  · exact Act.Keeps.raise _

theorem candles_onDb (exchangeId symbol timeframe : String) (limit : ℤ) :
    Act.Keeps (OnDb db) (candles env exchangeId symbol timeframe limit) := by
  unfold candles
  split
  · exact withPublicAdapter_onDb exchangeId fun c =>
      Act.Keeps.bind (call_onDb c _) fun _ => Act.Keeps.ofExcept _
  · exact Act.Keeps.raise _

end MarketService

/-- The operations that write to the tables. -/
def Operation.writes : Operation → Bool
  | .trade _ => true
  | .createPaperAccount _ _ _ _ => true
  | .createLiveAccount _ _ _ _ _ _ _ => true
  | .deleteAccount _ _ => true
  | _ => false

/-- The other operations leave the tables alone, even where they raise. -/
theorem Operation.run_onDb (hselects : env.SelectsRead) {op : Operation} (hop : op.writes = false) :
    Act.Keeps (OnDb db) (op.run env) := by
  have hdrop : ∀ {α : Type} {x : Service α}, Act.Keeps (OnDb db) x →
      Act.Keeps (OnDb db) (do let _ ← x; pure () : Service Unit) :=
    fun hx => Act.Keeps.bind hx fun _ => Act.Keeps.pure _
  cases op with
  | trade t => exact absurd hop (by simp [writes])
  | createPaperAccount userId exchangeId label marketType => exact absurd hop (by simp [writes])
  | createLiveAccount userId exchangeId label marketType apiKey apiSecret passphrase =>
    exact absurd hop (by simp [writes])
  | deleteAccount accountId userId => exact absurd hop (by simp [writes])
  | getOrder userId orderId => exact hdrop (TradingService.getOrder_onDb hselects _ _)
  | listOrders userId symbol status page pageSize =>
    refine hdrop (Act.Keeps.bind (execute_onDb hselects rfl) fun _ => ?_)
    exact Act.Keeps.bind Act.Keeps.read fun _ => Act.Keeps.pure _
  | listOpenOrders userId accountId =>
    exact hdrop (TradingService.accountRead_onDb hselects _ _ fun a => a.fetchOpenOrders_onDb)
  | listPositions userId accountId =>
    exact hdrop (TradingService.accountRead_onDb hselects _ _ fun a => a.fetchPositions_onDb)
  | listAccounts userId => exact hdrop (AccountService.listAccounts_onDb hselects _)
  | getAccount accountId userId => exact hdrop (AccountService.getAccount_onDb hselects _ _)
  | aggregateBalances userId =>
    exact hdrop (Act.Keeps.bind (AccountService.listAccounts_onDb hselects _) fun accounts =>
      PortfolioService.aggregateFrom_onDb hselects accounts _)
  | ticker exchangeId symbol =>
    exact hdrop (MarketService.withPublicAdapter_onDb _ fun c => fetchTicker_onDb c _)
  | orderBook exchangeId symbol limit =>
    refine hdrop (MarketService.withPublicAdapter_onDb _ fun c => ?_)
    refine Act.Keeps.bind (call_onDb c _) fun _ => Act.Keeps.bind (Act.Keeps.ofExcept _) fun _ => ?_
    exact Act.Keeps.bind (Act.Keeps.ofExcept _) fun _ => Act.Keeps.pure _
  | candles exchangeId symbol timeframe limit => exact hdrop (MarketService.candles_onDb _ _ _ _)
  | indicator compute exchangeId symbol name timeframe period limit =>
    refine hdrop ?_
    unfold MarketService.indicator
    simp only
    split
    · exact Act.Keeps.bind (MarketService.candles_onDb _ _ _ _) fun _ => Act.Keeps.ofExcept _
    · exact Act.Keeps.raise _

/-! ## What the writing operations do -/

namespace TradingService

/-- Inside its session a placement writes the order row and the audit row, whatever the adapter. -/
theorem placeWith_wrote {limits : RiskLimits} {r : PlaceOrder} {account : ExchangeAccount}
    {a : Adapter} {record : OrderRecord}
    (h : placeWith env limits r account a w = (.ok record, w')) :
    ∃ symbol order w₁ w₂, a.createOrder env (r.request env) w₁ = (.ok order, w₂) ∧
      record = recordOf env r.userId account symbol order ∧
      (∀ o ∈ w.db.orders, o.id ≠ env.recordId) ∧
      w'.db = { w.db with
        orders := w.db.orders ++ [record]
        audit := w.db.audit ++ [⟨some r.userId,
          .orderPlace r.accountId r.symbol r.side r.type record.isPaper record.status⟩] } := by
  obtain ⟨refPrice, w₁, href, h⟩ := Act.bind_eq_ok.1 h
  obtain ⟨equity, w₂, hequity, h⟩ := Act.bind_eq_ok.1 h
  obtain ⟨_, _, hcheck, h⟩ := Act.bind_eq_ok.1 h
  obtain ⟨-, rfl⟩ := Act.ofExcept_eq_ok.1 hcheck
  obtain ⟨order, w₃, hcreate, h⟩ := Act.bind_eq_ok.1 h
  have hdb : w₃.db = w.db :=
    (db_of_keeps (fun _ => a.createOrder_onDb _) hcreate).trans
      ((db_of_keeps (fun _ => quoteEquity_onDb a _) hequity).trans
        (db_of_keeps (fun _ => referencePrice_onDb a r) href))
  obtain ⟨_, _, hpersist, h⟩ := Act.bind_eq_ok.1 h
  obtain ⟨symbol, -, rfl, hfresh, rfl⟩ := persist_ok hpersist
  obtain ⟨_, _, haudit, h⟩ := Act.bind_eq_ok.1 h
  obtain rfl := auditRecord_ok haudit
  obtain ⟨rfl, rfl⟩ := Act.pure_eq_ok.1 h
  refine ⟨symbol, order, w₂, w₃, hcreate, rfl, hdb ▸ hfresh, ?_⟩
  simp only [hdb]
  rfl

/-- Inside its session a cancellation writes a status and the audit row, whatever the adapter. -/
theorem cancelWith_wrote {userId : String} {record out : OrderRecord} {a : Adapter}
    (h : cancelWith env userId record a w = (.ok out, w')) :
    w'.db = { w.db with
      orders := setStatus record.id out.status w.db.orders
      audit := w.db.audit ++ [⟨some userId, .orderCancel record.accountId record.id⟩] } := by
  obtain ⟨status, w₁, hstatus, h⟩ := Act.bind_eq_ok.1 h
  have hdb := db_of_keeps (fun _ => cancelStatus_onDb record a) hstatus
  obtain ⟨_, _, hx, h⟩ := Act.bind_eq_ok.1 h
  obtain ⟨-, rfl⟩ := execute_eq_ok.1 hx
  obtain ⟨_, _, hmod, h⟩ := Act.bind_eq_ok.1 h
  obtain rfl := Act.modify_eq_ok.1 hmod
  obtain ⟨_, _, haudit, h⟩ := Act.bind_eq_ok.1 h
  obtain rfl := auditRecord_ok haudit
  obtain ⟨rfl, rfl⟩ := Act.pure_eq_ok.1 h
  simp only [hdb]

end TradingService

/-- The account `create_live_account` inserts. -/
def AccountService.liveAccount (env : Env)
    (userId exchangeId label marketType apiKey apiSecret : String) (passphrase : Option String) :
    ExchangeAccount :=
  { id := env.recordId, userId, exchangeId, label, marketType, isPaper := false
    apiKeyEnc := some (env.cipher.encrypt apiKey)
    apiSecretEnc := some (env.cipher.encrypt apiSecret)
    passphraseEnc := if passphrase = some "" then none else passphrase.map env.cipher.encrypt }

/-- An account row and its audit row are added. -/
def Db.addAccount (account : ExchangeAccount) (detail : AuditDetail) (db : Db) : Db :=
  { db with
    accounts := db.accounts ++ [account]
    audit := db.audit ++ [⟨some account.userId, detail⟩] }

theorem AccountService.insert_wrote {account : ExchangeAccount} {detail : AuditDetail}
    {a : ExchangeAccount}
    (h : (do insertAccount env account
             auditRecord env account.userId detail
             return account : Service ExchangeAccount) w = (.ok a, w')) :
    (∀ a ∈ w.db.accounts, a.id ≠ account.id) ∧ w'.db = w.db.addAccount account detail := by
  obtain ⟨_, _, hinsert, h⟩ := Act.bind_eq_ok.1 h
  obtain ⟨hfresh, rfl⟩ := insertAccount_ok hinsert
  obtain ⟨_, _, haudit, h⟩ := Act.bind_eq_ok.1 h
  obtain ⟨-, rfl⟩ := Act.pure_eq_ok.1 h
  exact ⟨hfresh, by rw [auditRecord_ok haudit]; rfl⟩

/-- What an operation that returned has done to the tables. -/
inductive Operation.Wrote (env : Env) (w w' : World) : Operation → Prop
  | nothing {op : Operation} (hop : op.writes = false) (hdb : w'.db = w.db) : Wrote env w w' op
  /-- The paper engine took the order; the row, the audit row and the ledger are written. -/
  | placedPaper {limits : RiskLimits} {r : PlaceOrder} {account : ExchangeAccount} {p : Placement}
      (hacc : (Trade.place limits r).account? w.db = some account)
      (hmode : isPaperEffective w.settings account = true)
      (hp : p.Of env limits r {} (ledgerOf account.id w.db) w.log w'.log)
      (hnew : ∀ o ∈ w.db.orders, o.id ≠ env.recordId)
      (hdb : w'.db = p.commit env r account w.db) : Wrote env w w' (.trade (.place limits r))
  /-- The exchange took the order; the row and the audit row are written. -/
  | placedLive {limits : RiskLimits} {r : PlaceOrder} {account : ExchangeAccount}
      {record : OrderRecord} {symbol : String} {order : Order (Option String)} {log : List Event}
      {client : CcxtClient} {raw : RawOrder}
      (hacc : (Trade.place limits r).account? w.db = some account)
      (hmode : isPaperEffective w.settings account = false)
      (hreply : env.ccxt.reply log client (.createOrder (r.request env)) = .ok raw)
      (hparse : CcxtAdapter.parseOrder raw r.symbol = .ok order)
      (hrecord : record = TradingService.recordOf env r.userId account symbol order)
      (hnew : ∀ o ∈ w.db.orders, o.id ≠ env.recordId)
      (hdb : w'.db = { w.db with
        orders := w.db.orders ++ [record]
        audit := w.db.audit ++ [⟨some r.userId,
          .orderPlace r.accountId r.symbol r.side r.type record.isPaper record.status⟩] }) :
      Wrote env w w' (.trade (.place limits r))
  /-- The order to cancel was finished already. -/
  | finished {userId orderId : String} {record : OrderRecord}
      (hfind : w.db.orders.find? (fun o => o.id = orderId ∧ o.userId = userId) = some record)
      (hdone : record.status = .canceled ∨ record.status = .filled) (hdb : w'.db = w.db) :
      Wrote env w w' (.trade (.cancel userId orderId))
  /-- The paper engine was asked to cancel. -/
  | canceledPaper {userId orderId : String} {record : OrderRecord} {account : ExchangeAccount}
      {status : OrderStatus} {l : PaperLedger} {calls : List PaperCall}
      (hfind : w.db.orders.find? (fun o => o.id = orderId ∧ o.userId = userId) = some record)
      (hopen : ¬ (record.status = .canceled ∨ record.status = .filled))
      (hacc : (Trade.cancel userId orderId).account? w.db = some account)
      (haccount : account.id = record.accountId)
      (hmode : isPaperEffective w.settings account = true)
      (hout : CancelOutcome {} record (ledgerOf account.id w.db) status l calls)
      (hdb : w'.db = cancelCommit userId account.id record status l w.db) :
      Wrote env w w' (.trade (.cancel userId orderId))
  /-- The exchange was asked to cancel and accepted, or the row carries no exchange id. -/
  | canceledLive {userId orderId : String} {record : OrderRecord} {account : ExchangeAccount}
      {status : OrderStatus}
      (hfind : w.db.orders.find? (fun o => o.id = orderId ∧ o.userId = userId) = some record)
      (hopen : ¬ (record.status = .canceled ∨ record.status = .filled))
      (hacc : (Trade.cancel userId orderId).account? w.db = some account)
      (haccount : account.id = record.accountId)
      (hmode : isPaperEffective w.settings account = false)
      (hcall : record.exchangeOrderId = none ∨ record.exchangeOrderId = some "" ∨
        ∃ id log client raw, record.exchangeOrderId = some id ∧
          env.ccxt.reply log client (.cancelOrder id record.symbol) = .ok raw)
      (hdb : w'.db = { w.db with
        orders := TradingService.setStatus record.id status w.db.orders
        audit := w.db.audit ++ [⟨some userId, .orderCancel record.accountId record.id⟩] }) :
      Wrote env w w' (.trade (.cancel userId orderId))
  | createdPaper {userId exchangeId label marketType : String}
      (hnew : ∀ a ∈ w.db.accounts, a.id ≠ env.recordId)
      (hdb : w'.db = w.db.addAccount
        ⟨env.recordId, userId, exchangeId, label, marketType, true, none, none, none⟩
        (.accountCreate true exchangeId label)) :
      Wrote env w w' (.createPaperAccount userId exchangeId label marketType)
  | createdLive {userId exchangeId label marketType apiKey apiSecret : String}
      {passphrase : Option String} (hnew : ∀ a ∈ w.db.accounts, a.id ≠ env.recordId)
      (hdb : w'.db = w.db.addAccount
        (liveAccount env userId exchangeId label marketType apiKey apiSecret passphrase)
        (.accountCreate false exchangeId label)) :
      Wrote env w w'
        (.createLiveAccount userId exchangeId label marketType apiKey apiSecret passphrase)
  | deleted {accountId userId : String} {account : ExchangeAccount}
      (hfind : w.db.accounts.find? (fun a => a.id = accountId ∧ a.userId = userId) = some account)
      (hdb : w'.db = { w.db.without account.id with
        audit := w.db.audit ++ [⟨some userId, .accountDelete accountId⟩] }) :
      Wrote env w w' (.deleteAccount accountId userId)

namespace Operation.Wrote

/-- A placement that returned. -/
theorem of_place {limits : RiskLimits} {r : PlaceOrder} {record : OrderRecord}
    (h : TradingService.placeOrder env limits r w = (.ok record, w')) :
    Wrote env w w' (.trade (.place limits r)) := by
  obtain ⟨account, hacc, hsession⟩ := TradingService.placeOrder_session h
  cases hmode : isPaperEffective w.settings account with
  | true =>
    obtain ⟨account', p, hacc', hp, -, hnew, -, hdb, -⟩ :=
      TradingService.placeOrder_paper_ok (fun a ha => by
        rw [← Option.some.inj (hacc.symm.trans ha)]
        exact hmode) h
    obtain rfl := Option.some.inj (hacc.symm.trans hacc')
    exact .placedPaper hacc hmode hp hnew hdb
  | false =>
    obtain ⟨info, creds, w₁, -, hbody, htraffic⟩ := adapterSession_live_ok hmode hsession
    obtain ⟨symbol, order, w₂, w₃, hcreate, hrecord, hnew, hdb⟩ :=
      TradingService.placeWith_wrote hbody
    obtain ⟨raw, w₄, hcall, hret⟩ := Act.bind_eq_ok.1 hcreate
    obtain ⟨hparse, -⟩ := Act.ofExcept_eq_ok.1 hret
    obtain ⟨b, b', client, w₅, -, hreply, -⟩ := CcxtAdapter.call_ok hcall
    exact .placedLive hacc hmode hreply hparse hrecord hnew (htraffic.db.trans hdb)

/-- A cancellation that returned. -/
theorem of_cancel {userId orderId : String} {out : OrderRecord}
    (h : TradingService.cancelOrder env userId orderId w = (.ok out, w')) :
    Wrote env w w' (.trade (.cancel userId orderId)) := by
  obtain ⟨record, hfind, ⟨hdone, -, rfl⟩ | ⟨hopen, account, hacc, haccount, hsession⟩⟩ :=
    TradingService.cancelOrder_session h
  · exact .finished hfind hdone rfl
  · cases hmode : isPaperEffective w.settings account with
    | true =>
      obtain ⟨record', hfind', ⟨hdone, -⟩ | ⟨-, account', status, l, calls, hacc', -, hout, -, -,
        hdb, -⟩⟩ := TradingService.cancelOrder_paper_ok (fun a ha => by
          rw [← Option.some.inj (hacc.symm.trans ha)]
          exact hmode) h
      · obtain rfl := Option.some.inj (hfind.symm.trans hfind')
        exact absurd hdone hopen
      · obtain rfl := Option.some.inj (hfind.symm.trans hfind')
        obtain rfl := Option.some.inj (hacc.symm.trans hacc')
        exact .canceledPaper hfind hopen hacc haccount hmode hout hdb
    | false =>
      obtain ⟨info, creds, w₁, -, hbody, htraffic⟩ := adapterSession_live_ok hmode hsession
      have hdb := TradingService.cancelWith_wrote hbody
      obtain ⟨-, -, -, hcall⟩ := TradingService.cancelWith_live_ok rfl hbody
      refine .canceledLive hfind hopen hacc haccount hmode ?_ (htraffic.db.trans hdb)
      refine hcall.imp_right (Or.imp_right ?_)
      rintro ⟨id, client, -, hid, -, -, -, log, raw, hreply, -⟩
      exact ⟨id, log, client, raw, hid, hreply⟩

/-- A deletion that returned. -/
theorem of_delete {accountId userId : String} {u : Unit}
    (h : AccountService.deleteAccount env accountId userId w = (.ok u, w')) :
    Wrote env w w' (.deleteAccount accountId userId) := by
  obtain ⟨account, _, hget, h⟩ := Act.bind_eq_ok.1 h
  obtain ⟨rfl, hfind⟩ := getAccount_ok hget
  obtain ⟨_, _, hx, h⟩ := Act.bind_eq_ok.1 h
  obtain ⟨-, rfl⟩ := execute_eq_ok.1 hx
  obtain ⟨_, _, hmod, h⟩ := Act.bind_eq_ok.1 h
  obtain rfl := Act.modify_eq_ok.1 hmod
  exact .deleted hfind (by rw [auditRecord_ok h]; rfl)

end Operation.Wrote

/-- The inversion: an operation that returned has written one of these things. -/
theorem Operation.run_wrote {op : Operation} {u : Unit} (hselects : env.SelectsRead)
    (h : op.run env w = (.ok u, w')) : op.Wrote env w w' := by
  by_cases hop : op.writes = false
  · exact .nothing hop (db_of_keeps (fun _ => op.run_onDb hselects hop) h)
  have hdrop : ∀ {α : Type} {x : Service α}, (do let _ ← x; pure () : Service Unit) w = (.ok u, w') →
      ∃ a, x w = (.ok a, w') := by
    intro α x h
    obtain ⟨a, _, hx, h⟩ := Act.bind_eq_ok.1 h
    obtain ⟨-, rfl⟩ := Act.pure_eq_ok.1 h
    exact ⟨a, hx⟩
  cases op with
  | trade t =>
    obtain ⟨record, hx⟩ := hdrop h
    cases t with
    | place limits r => exact .of_place hx
    | cancel userId orderId => exact .of_cancel hx
  | createPaperAccount userId exchangeId label marketType =>
    obtain ⟨_, hx⟩ := hdrop h
    obtain ⟨hnew, hdb⟩ := AccountService.insert_wrote hx
    exact .createdPaper hnew hdb
  | createLiveAccount userId exchangeId label marketType apiKey apiSecret passphrase =>
    obtain ⟨_, hx⟩ := hdrop h
    unfold AccountService.createLiveAccount at hx
    cases hinfo : getInfo exchangeId with
    | none =>
      rw [hinfo] at hx
      exact absurd hx (by simp)
    | some info =>
      rw [hinfo] at hx
      simp only at hx
      split at hx
      · exact absurd hx (by simp)
      · obtain ⟨hnew, hdb⟩ := AccountService.insert_wrote hx
        exact .createdLive hnew hdb
  | deleteAccount accountId userId => exact .of_delete h
  | _ => exact absurd rfl hop

end TradingHub
