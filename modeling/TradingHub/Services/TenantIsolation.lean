import TradingHub.Services.Tenants

set_option autoImplicit false

/-! # Tenant isolation

The calls of one user, one after another, on tables that the operations of all users have filled.
Such tables are owned (`Reachable.owned`), so a call does to the user's rows what it would do if
there were no others, answers the same, and leaves the rows of the others as they are. -/

namespace TradingHub

open Library Library.Act

/-! ## The calls of a user -/

/-- A call that is made with a user's id; the ids of accounts and orders are the caller's choice. -/
inductive UserCall
  | placeOrder (limits : RiskLimits) (r : PlaceOrder)
  | cancelOrder (orderId : String)
  | getOrder (orderId : String)
  | listOrders (symbol status : Option String) (page pageSize : ℕ)
  | listOpenOrders (accountId : String)
  | listPositions (accountId : String)
  | getAccount (accountId : String)
  | listAccounts
  | deleteAccount (accountId : String)
  | aggregateBalances

/-- What a call returns. -/
inductive Reply
  | order (record : OrderRecord)
  | orders (page : List OrderRecord) (total : ℕ)
  | openOrders (orders : List (Order (Option String)))
  | positions (positions : List Position)
  | account (account : ExchangeAccount)
  | accounts (accounts : List ExchangeAccount)
  | deleted
  | balances (totals : Dict String Balance)

namespace UserCall

def run (env : Env) (userId : String) : UserCall → Service Reply
  | placeOrder limits r => do
    return .order (← TradingService.placeOrder env limits { r with userId })
  | cancelOrder orderId => do return .order (← TradingService.cancelOrder env userId orderId)
  | getOrder orderId => do return .order (← TradingService.getOrder env userId orderId)
  | listOrders symbol status page pageSize => do
    let (records, total) ← TradingService.listOrders env userId symbol status page pageSize
    return .orders records total
  | listOpenOrders accountId => do
    return .openOrders (← TradingService.listOpenOrders env userId accountId)
  | listPositions accountId => do
    return .positions (← TradingService.listPositions env userId accountId)
  | getAccount accountId => do return .account (← AccountService.getAccount env accountId userId)
  | listAccounts => do return .accounts (← AccountService.listAccounts env userId)
  | deleteAccount accountId => do
    AccountService.deleteAccount env accountId userId
    return .deleted
  | aggregateBalances => do return .balances (← PortfolioService.aggregateBalances env userId)

/-- The primary key a call draws is not that of another user's order. -/
def DrawsNew (userId : String) (db : Db) : Env × UserCall → Prop
  | (env, .placeOrder _ _) => FreshFor userId db env.recordId
  | _ => True

/-- A call answers the same on the tables and on the user's rows, and keeps them so related. -/
theorem run_rel {env : Env} {userId : String} {start : Db} (call : UserCall)
    (hselects : env.SelectsRead) (hdraws : DrawsNew userId start (env, call)) :
    RelTriple (Beside (Own userId start)) (call.run env userId) (call.run env userId)
      (fun _ => Beside (Own userId start)) (Beside Anyhow) := by
  have hreply : ∀ {α : Type} {x : Service α} (f : α → Reply),
      RelTriple (Beside (Own userId start)) x x (fun _ => Beside (Own userId start))
        (Beside Anyhow) →
      RelTriple (Beside (Own userId start)) (do return f (← x)) (do return f (← x))
        (fun _ => Beside (Own userId start)) (Beside Anyhow) :=
    fun f hx => RelTriple.bind hx fun _ => RelTriple.pure fun _ _ h => h
  cases call with
  | placeOrder limits r =>
    exact hreply _ (TradingService.placeOrder_rel (r := { r with userId }) hselects hdraws limits)
  | cancelOrder orderId => exact hreply _ (TradingService.cancelOrder_rel hselects orderId)
  | getOrder orderId =>
    exact hreply _ ((TradingService.getOrder_rel hselects orderId).conseq (fun _ _ h => h)
      (fun _ _ _ h => h.mono fun _ _ hd => hd.toOwn) fun _ _ h => h.anyhow)
  | listOrders symbol status page pageSize =>
    exact RelTriple.bind (rel_of_keeps (TradingService.listOrders_rel hselects symbol status page
      pageSize)) fun _ => RelTriple.pure fun _ _ h => h
  | listOpenOrders accountId =>
    exact hreply _ (TradingService.accountRead_rel hselects accountId fun _ a =>
      a.fetchOpenOrders_beside)
  | listPositions accountId =>
    exact hreply _ (TradingService.accountRead_rel hselects accountId fun _ a =>
      a.fetchPositions_beside)
  | getAccount accountId =>
    exact hreply _ ((AccountService.getAccount_on hselects accountId).conseq (fun _ _ h => h)
      (fun _ _ _ h => h.mono fun _ _ hd => hd.toOwn) fun _ _ h => h)
  | listAccounts =>
    exact hreply _ ((AccountService.listAccounts_rel hselects).conseq (fun _ _ h => h)
      (fun _ _ _ h => h.mono fun _ _ hd => hd.1) fun _ _ h => h.anyhow)
  | deleteAccount accountId =>
    exact RelTriple.bind (AccountService.deleteAccount_rel hselects accountId) fun _ =>
      RelTriple.pure fun _ _ h => h
  | aggregateBalances => exact hreply _ (PortfolioService.aggregateBalances_rel hselects)

end UserCall

/-! ## Requests and runs -/

/-- Serve one call of the user as a request. -/
def serveCall (userId : String) (w : World) (request : Env × UserCall) :
    Except AppError Reply × World :=
  getSession request.1 (request.2.run request.1 userId) w

/-- A request that fails is rolled back, whatever its handler left. -/
theorem getSession_rel {env : Env} {D : Db → Db → Prop} {α : Type} {x : Service α}
    (hx : RelTriple (Beside D) x x (fun _ => Beside D) (Beside Anyhow)) {w w' : World}
    (h : Beside D w w') : (getSession env x w).1 = (getSession env x w').1 ∧
      Beside D (getSession env x w).2 (getSession env x w').2 := by
  obtain ⟨db', rfl, hd⟩ := h
  unfold getSession
  obtain ⟨a, s, t, hs, ht, hq⟩ | ⟨e, s, t, hs, ht, he⟩ := (hx _ _ ⟨db', rfl, hd⟩).cases
  · rw [hs, ht]
    cases env.fault .commit with
    | none => exact ⟨rfl, hq⟩
    | some f =>
      -- A commit that raises leaves the tables as they were.
      obtain ⟨_, rfl, -⟩ := hq
      exact ⟨rfl, db', rfl, hd⟩
  · rw [hs, ht]
    obtain ⟨_, rfl, -⟩ := he
    exact ⟨rfl, db', rfl, hd⟩

/-- The world without the rows of other users. -/
def World.ofUser (userId : String) (w : World) : World := { w with db := w.db.ofUser userId }

theorem Own.start {userId : String} {db : Db} (h : db.Owned) :
    Own userId db db (db.ofUser userId) :=
  ⟨rfl, h, fun _ _ => rfl⟩

/-- The run: the calls answer as they do on the user's rows, and the rows of the others stay. -/
theorem own_run (userId : String) {w : World} (hw : w.db.Owned) (requests : List (Env × UserCall))
    (hselects : ∀ request ∈ requests, request.1.SelectsRead)
    (hdraws : ∀ request ∈ requests, UserCall.DrawsNew userId w.db request) :
    outputs (serveCall userId) w requests
        = outputs (serveCall userId) (w.ofUser userId) requests ∧
      Beside (Own userId w.db) (runState (serveCall userId) w requests)
        (runState (serveCall userId) (w.ofUser userId) requests) := by
  have hstep : ∀ s t (request : Env × UserCall),
      request.1.SelectsRead ∧ UserCall.DrawsNew userId w.db request → Beside (Own userId w.db) s t →
        (serveCall userId s request).1 = (serveCall userId t request).1 ∧
          Beside (Own userId w.db) (serveCall userId s request).2 (serveCall userId t request).2 :=
    fun _ _ request hA h => getSession_rel (request.2.run_rel hA.1 hA.2) h
  exact outputs_eq hstep requests w (w.ofUser userId)
    (fun request hr => ⟨hselects request hr, hdraws request hr⟩) ⟨_, rfl, Own.start hw⟩

/-! ## Reachable tables -/

/-- The worlds that servers reach: started on empty tables, they serve the operations of all users,
    and are started again under other settings. -/
inductive Reachable : World → Prop
  | boot (settings : Settings) : Reachable (World.boot settings ⟨[], [], [], []⟩)
  | serve (w : World) (env : Env) (op : Operation) (h : Reachable w) (hselects : env.SelectsRead) :
    Reachable (TradingHub.serve w (env, op))
  | restart (w : World) (settings : Settings) (h : Reachable w) : Reachable (w.restart settings)

/-- What a run on the tables and on some user's rows leaves owned. -/
theorem owned_of_rel (userId : String) {w w' : World} {α : Type} {x : Service α} {a : α}
    (hw : w.db.Owned)
    (hx : RelTriple (Beside (Own userId w.db)) x x (fun _ => Beside (Own userId w.db))
      (Beside Anyhow)) (hrun : x w = (.ok a, w')) : w'.db.Owned := by
  obtain ⟨_, _, -, h⟩ := hx.left_ok (t := w.ofUser userId) ⟨_, rfl, Own.start hw⟩ hrun
  exact h.owned

theorem withPublicAdapter_beside {env : Env} {D : Db → Db → Prop} {α : Type} (exchangeId : String)
    {body : CcxtAdapter → Service α} (hbody : ∀ c, RelKeeps (Beside D) (body c)) :
    RelKeeps (Beside D) (MarketService.withPublicAdapter env exchangeId body) :=
  RelKeeps.bind (publicMarketAdapter_beside exchangeId) fun c =>
    RelKeeps.tryFinally (hbody c) CcxtAdapter.close_beside

theorem candles_beside {env : Env} {D : Db → Db → Prop} (exchangeId symbol timeframe : String)
    (limit : ℤ) : RelKeeps (Beside D) (MarketService.candles env exchangeId symbol timeframe limit) := by
  unfold MarketService.candles
  split
  · exact withPublicAdapter_beside _ fun c => CcxtAdapter.parse_beside _
  · exact RelKeeps.raise _

/-- An account is inserted under an id that no account has. -/
theorem AccountService.insertAccount_ok {env : Env} {account : ExchangeAccount} {w w' : World}
    (h : insertAccount env account w = (.ok (), w')) :
    (∀ a ∈ w.db.accounts, a.id ≠ account.id) ∧
      w' = { w with db := { w.db with accounts := w.db.accounts ++ [account] } } := by
  obtain ⟨_, _, hx, h⟩ := Act.bind_eq_ok.1 h
  obtain ⟨-, rfl⟩ := execute_eq_ok.1 hx
  obtain ⟨_, _, hread, h⟩ := Act.bind_eq_ok.1 h
  obtain ⟨rfl, rfl⟩ := Act.read_eq_ok.1 hread
  split at h
  · exact absurd h (by simp)
  · next hnew =>
    refine ⟨fun a ha hid => hnew (List.any_eq_true.2 ⟨a, ha, decide_eq_true (Or.inl hid)⟩), ?_⟩
    exact (Act.modify_eq_ok.1 h).symm

theorem auditRecord_ok {env : Env} {userId : String} {detail : AuditDetail} {w w' : World}
    (h : auditRecord env userId detail w = (.ok (), w')) :
    w' = { w with db := { w.db with audit := w.db.audit ++ [⟨some userId, detail⟩] } } := by
  obtain ⟨_, _, hx, h⟩ := Act.bind_eq_ok.1 h
  obtain ⟨-, rfl⟩ := execute_eq_ok.1 hx
  exact (Act.modify_eq_ok.1 h).symm

/-- An account is created. -/
theorem owned_of_create {env : Env} {account : ExchangeAccount} {userId : String}
    {detail : AuditDetail} {w w' : World} {a : ExchangeAccount} (hw : w.db.Owned)
    (h : (do AccountService.insertAccount env account
             auditRecord env userId detail
             return account : Service ExchangeAccount) w = (.ok a, w')) : w'.db.Owned := by
  obtain ⟨_, _, hinsert, h⟩ := Act.bind_eq_ok.1 h
  obtain ⟨hfresh, rfl⟩ := AccountService.insertAccount_ok hinsert
  obtain ⟨_, _, haudit, h⟩ := Act.bind_eq_ok.1 h
  obtain ⟨-, rfl⟩ := Act.pure_eq_ok.1 h
  rw [auditRecord_ok haudit]
  exact (ownWrite_audit userId (hw.insertAccount hfresh) detail).owned

/-- The step: an operation of any user that returns leaves the tables owned. -/
theorem Operation.run_owned {env : Env} {w w' : World} {op : Operation} {u : Unit}
    (hselects : env.SelectsRead) (hw : w.db.Owned) (hrun : op.run env w = (.ok u, w')) :
    w'.db.Owned := by
  have hdrop : ∀ {α : Type} {x : Service α}, (do let _ ← x; pure () : Service Unit) w = (.ok u, w') →
      ∃ a, x w = (.ok a, w') := by
    intro α x h
    obtain ⟨a, _, hx, h⟩ := Act.bind_eq_ok.1 h
    obtain ⟨-, rfl⟩ := Act.pure_eq_ok.1 h
    exact ⟨a, hx⟩
  cases op with
  | trade t =>
    obtain ⟨record, hx⟩ := hdrop hrun
    cases t with
    | place limits r =>
      -- The order was inserted, so its id was new.
      obtain ⟨hid, hnew, -⟩ := TradingService.placeOrder_appends hx
      exact owned_of_rel r.userId hw (TradingService.placeOrder_rel hselects
        (fun o ho _ => hid ▸ hnew o ho) limits) hx
    | cancel userId orderId =>
      exact owned_of_rel userId hw (TradingService.cancelOrder_rel hselects orderId) hx
  | getOrder userId orderId =>
    obtain ⟨_, hx⟩ := hdrop hrun
    exact owned_of_rel userId hw (UserCall.run_rel (.getOrder orderId) hselects trivial)
      (Act.bind_eq_ok.2 ⟨_, _, hx, rfl⟩)
  | listOrders userId symbol status page pageSize =>
    obtain ⟨_, hx⟩ := hdrop hrun
    exact owned_of_rel userId hw (rel_of_keeps (TradingService.listOrders_rel hselects
      symbol status page pageSize)) hx
  | listOpenOrders userId accountId =>
    obtain ⟨_, hx⟩ := hdrop hrun
    exact owned_of_rel userId hw (TradingService.accountRead_rel hselects accountId
      fun _ a => a.fetchOpenOrders_beside) hx
  | listPositions userId accountId =>
    obtain ⟨_, hx⟩ := hdrop hrun
    exact owned_of_rel userId hw (TradingService.accountRead_rel hselects accountId
      fun _ a => a.fetchPositions_beside) hx
  | createPaperAccount userId exchangeId label marketType =>
    obtain ⟨_, hx⟩ := hdrop hrun
    exact owned_of_create hw hx
  | createLiveAccount userId exchangeId label marketType apiKey apiSecret passphrase =>
    obtain ⟨_, hx⟩ := hdrop hrun
    unfold AccountService.createLiveAccount at hx
    cases hinfo : getInfo exchangeId with
    | none =>
      rw [hinfo] at hx
      exact absurd hx (by simp)
    | some info =>
      rw [hinfo] at hx
      simp only at hx
      split at hx
      · exact absurd hx (by simp)
      · exact owned_of_create hw hx
  | listAccounts userId =>
    obtain ⟨_, hx⟩ := hdrop hrun
    exact owned_of_rel userId hw (UserCall.run_rel .listAccounts hselects trivial)
      (Act.bind_eq_ok.2 ⟨_, _, hx, rfl⟩)
  | getAccount accountId userId =>
    obtain ⟨_, hx⟩ := hdrop hrun
    exact owned_of_rel userId hw (UserCall.run_rel (.getAccount accountId) hselects trivial)
      (Act.bind_eq_ok.2 ⟨_, _, hx, rfl⟩)
  | deleteAccount accountId userId =>
    exact owned_of_rel userId hw (AccountService.deleteAccount_rel hselects accountId) hrun
  | aggregateBalances userId =>
    obtain ⟨_, hx⟩ := hdrop hrun
    exact owned_of_rel userId hw (PortfolioService.aggregateBalances_rel hselects) hx
  | ticker exchangeId symbol =>
    -- Market data is nobody's.
    obtain ⟨_, hx⟩ := hdrop hrun
    exact owned_of_rel "" hw (rel_of_keeps (withPublicAdapter_beside exchangeId
      fun c => CcxtAdapter.fetchTicker_beside symbol)) hx
  | orderBook exchangeId symbol limit =>
    obtain ⟨_, hx⟩ := hdrop hrun
    refine owned_of_rel "" hw (rel_of_keeps (withPublicAdapter_beside exchangeId
      fun c => ?_)) hx
    exact RelKeeps.bind (CcxtAdapter.call_beside _) fun _ => RelKeeps.bind (RelKeeps.ofExcept _)
      fun _ => RelKeeps.bind (RelKeeps.ofExcept _) fun _ => RelKeeps.pure _
  | candles exchangeId symbol timeframe limit =>
    obtain ⟨_, hx⟩ := hdrop hrun
    exact owned_of_rel "" hw (rel_of_keeps (candles_beside _ _ _ _)) hx
  | indicator compute exchangeId symbol name timeframe period limit =>
    obtain ⟨_, hx⟩ := hdrop hrun
    unfold MarketService.indicator at hx
    split at hx
    · exact owned_of_rel "" hw (rel_of_keeps (RelKeeps.bind (candles_beside _ _ _ _)
        fun _ => RelKeeps.ofExcept _)) hx
    · exact absurd hx (by simp)

/-- The run: reachable tables are owned. -/
theorem Reachable.owned {w : World} (h : Reachable w) : w.db.Owned := by
  induction h with
  | boot settings => exact Db.Owned.empty
  | serve w env op _ hselects ih =>
    obtain ⟨u, w', hrun, hserve⟩ | ⟨e, w', hserve, hdb⟩ := getSession_cases env (op.run env) w
    · show (getSession env (op.run env) w).2.db.Owned
      rw [hserve]
      exact op.run_owned hselects ih hrun
    · show (getSession env (op.run env) w).2.db.Owned
      rw [hserve]
      exact hdb ▸ ih
  | restart w settings _ ih => exact ih

/-- The tables of some reachable world. -/
def Db.Reachable (db : Db) : Prop := ∃ w, TradingHub.Reachable w ∧ w.db = db

theorem Db.Reachable.owned {db : Db} (h : db.Reachable) : db.Owned := by
  obtain ⟨w, hw, rfl⟩ := h
  exact hw.owned

/-! ## Isolation -/

/-- The calls of a user, on any two servers whose tables are reachable and which differ at most in
    the rows of other users, get the same answers from the same exchanges; and they leave all rows of
    every other user as they are. A primary key that is drawn is new among the orders of other users,
    and a `SELECT` that raises changes nothing. -/
theorem tenants_isolated (userId : String) (w w' : World) (hreach : w.db.Reachable)
    (hreach' : w'.db.Reachable) (hsame : w.ofUser userId = w'.ofUser userId)
    (requests : List (Env × UserCall)) (hselects : ∀ request ∈ requests, request.1.SelectsRead)
    (hdraws : ∀ request ∈ requests, UserCall.DrawsNew userId w.db request ∧
      UserCall.DrawsNew userId w'.db request) :
    (∀ other, other ≠ userId →
      (runState (serveCall userId) w requests).db.ofUser other = w.db.ofUser other) ∧
    outputs (serveCall userId) w requests = outputs (serveCall userId) w' requests := by
  obtain ⟨hout, _, -, hown⟩ := own_run userId hreach.owned requests hselects
    fun request hr => (hdraws request hr).1
  obtain ⟨hout', -⟩ := own_run userId hreach'.owned requests hselects
    fun request hr => (hdraws request hr).2
  exact ⟨hown.others, by rw [hout, hout', hsame]⟩

/-- Two users with a paper account each, the second of which has an order; and the first alone. -/
def World.tenants : World :=
  [(Env.quiet 100 "a", .createPaperAccount "u" "kraken" "main" "spot"),
    (Env.quiet 100 "b", .createPaperAccount "v" "kraken" "main" "spot"),
    (Env.quiet 100 "1", .trade (.place {}
      ⟨"v", "b", "BTC/USDT", .buy, .limit, 1, some 90, none, .gtc, false, false, none⟩))].foldl
    serve (World.boot {} ⟨[], [], [], []⟩)

def World.tenant : World :=
  serve (World.boot {} ⟨[], [], [], []⟩)
    (Env.quiet 100 "a", .createPaperAccount "u" "kraken" "main" "spot")

/-- The first user bids, and tries the account and the order of the second. -/
def tenantCalls : List (Env × UserCall) :=
  [(Env.quiet 100 "2", .placeOrder {}
      ⟨"u", "a", "BTC/USDT", .buy, .limit, 1, some 90, none, .gtc, false, false, none⟩),
    (Env.quiet 100 "3", .getAccount "b"), (Env.quiet 100 "4", .cancelOrder "1"),
    (Env.quiet 100 "5", .deleteAccount "b"), (Env.quiet 100 "6", .aggregateBalances)]

theorem tenants_isolated_sample :
    let w := World.boot {} World.tenants.db
    let w' := World.boot {} World.tenant.db
    (w.db.ofUser "v").orders.map (·.id) = ["1"] ∧ (w'.db.ofUser "v").orders = [] ∧
      (runState (serveCall "u") w tenantCalls).db.ofUser "v" = w.db.ofUser "v" ∧
      outputs (serveCall "u") w tenantCalls = outputs (serveCall "u") w' tenantCalls := by
  intro w w'
  have hquiet : ∀ n, (Env.quiet 100 n).SelectsRead := fun _ _ _ _ h => absurd h (by simp [Env.quiet])
  have hreach : w.db.Reachable := ⟨World.tenants, .serve _ _ _ (.serve _ _ _ (.serve _ _ _
    (.boot {}) (hquiet _)) (hquiet _)) (hquiet _), rfl⟩
  have hreach' : w'.db.Reachable := ⟨World.tenant, .serve _ _ _ (.boot {}) (hquiet _), rfl⟩
  have hsame : w.ofUser "u" = w'.ofUser "u" := by
    have hdb : w.db.ofUser "u" = w'.db.ofUser "u" := by decide +kernel
    unfold World.ofUser
    rw [hdb]
    rfl
  have h := tenants_isolated "u" w w' hreach hreach' hsame tenantCalls
    (fun request hr => ?_) fun request hr => ?_
  · exact ⟨by decide +kernel, by decide +kernel, h.1 "v" (by decide), h.2⟩
  · have hall : ∀ request ∈ tenantCalls, ∃ n, request.1 = Env.quiet 100 n := by
      simp [tenantCalls]
    obtain ⟨n, hn⟩ := hall request hr
    exact hn ▸ hquiet n
  · simp only [tenantCalls, List.mem_cons, List.not_mem_nil, or_false] at hr
    rcases hr with rfl | rfl | rfl | rfl | rfl
    · have hfresh : FreshFor "u" w.db "2" := by
        unfold FreshFor
        decide +kernel
      have hfresh' : FreshFor "u" w'.db "2" := by
        unfold FreshFor
        decide +kernel
      exact ⟨hfresh, hfresh'⟩
    all_goals exact ⟨trivial, trivial⟩

end TradingHub
