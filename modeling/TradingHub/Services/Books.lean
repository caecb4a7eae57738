import TradingHub.Services.Writes

set_option autoImplicit false

/-! # The books of the paper accounts

The tables of a server that has served anybody's operations in any order, was restarted under other
settings in between, and whose requests failed at any statement. `Recorded I` says that every
account is mirrored by a ledger with the property `I`; it is an invariant of all such runs as soon
as `I` is one of the paper engine (`EngineInvariant`). So what has been proved of one long-lived
ledger holds of the committed tables: here, that the books of every account balance.

Nothing is asked of the settings. A paper order that meets a server trading live is not cancelled,
because the exchange does not know it; a live order that meets a server trading on paper is not an
order of the simulation.

Decimal arithmetic is exact here, and columns keep every digit. What their rounding does is in
`TradingHub.Services.StoredDecimals`. -/

namespace TradingHub

open Library PaperLedgerRepository AccountService

/-! ## Runs of a server -/

/-- A turn of a server's life: an operation of some user, or a restart under other settings. -/
inductive Turn
  | serve (env : Env) (op : Operation)
  | restart (settings : Settings)

namespace Turn

def apply (w : World) : Turn → World
  | serve env op => TradingHub.serve w (env, op)
  | restart settings => w.restart settings

/-- The identifiers a turn draws for paper orders. -/
def draws : Turn → List String
  | serve env (.trade (.place _ _)) => [env.orderHex]
  | _ => []

end Turn

/-- What the router lets through. -/
def Operation.Admitted : Operation → Prop
  | .trade t => t.Admitted
  | _ => True

/-- What is promised of the outside: a `SELECT` that raises changes nothing, quotes are `good`, and
    the exchange neither hands out nor knows an order id of the simulation. -/
structure Env.Promises (good : String → ℚ → Prop) (env : Env) : Prop where
  selects : env.SelectsRead
  quoted : ∀ log client symbol raw, env.ccxt.reply log client (.fetchTicker symbol) = .ok raw →
    good symbol (dec0 raw.last.get)
  created : ∀ log client request raw n, env.ccxt.reply log client (.createOrder request) = .ok raw →
    (raw.id.getOr "").getD "None" ≠ "paper-" ++ n
  unknown : ∀ log client n symbol raw,
    env.ccxt.reply log client (.cancelOrder ("paper-" ++ n) symbol) ≠ .ok raw

def Turn.Promised (good : String → ℚ → Prop) : Turn → Prop
  | serve env op => env.Promises good ∧ op.Admitted
  | restart _ => True

/-! ## Invariants of the engine -/

/-- A property of ledgers that the engine establishes and keeps, for well-formed orders under new
    identifiers and for good quotes. -/
structure EngineInvariant (good : String → ℚ → Prop) (I : PaperLedger → Prop) : Prop where
  new : I (PaperLedger.new "USDT" 100000)
  create : ∀ {l : PaperLedger} {ticker : Ticker} {orderId : String} {request : OrderRequest}, I l →
    l.orders.get? orderId = none → 0 < request.amount →
    (∀ price, request.price = some price → 0 < price) → good request.symbol ticker.last →
    I (({} : PaperAdapter).createOrder ⟨fun _ => .ok ticker⟩ orderId request l).2
  cancel : ∀ {l : PaperLedger} (orderId : String), I l →
    I (({} : PaperAdapter).cancelOrder orderId l).2

/-- No balance is negative, `used` is what the open orders reserve, and the fills explain the
    totals. -/
def Balanced (l : PaperLedger) : Prop := LedgerInv {} l ∧ Explained {} "USDT" 100000 l

theorem balanced_invariant : EngineInvariant (fun _ last => 0 ≤ last) Balanced where
  new := ⟨LedgerInv.new "USDT" (by norm_num), Explained.new⟩
  create := fun h hnew hamt hprice hlast =>
    ⟨h.1.createOrder (by norm_num) (by norm_num) hamt hprice
      (fun ticker ht => (Except.ok.inj ht) ▸ hlast) hnew, h.2.createOrder _ _ _ hnew⟩
  cancel orderId h := ⟨h.1.cancelOrder orderId, h.2.cancelOrder orderId⟩

/-- The id of a parsed order is the text the payload gives. -/
theorem CcxtAdapter.parseOrder_id {raw : RawOrder} {symbol : String} {order : Order (Option String)}
    (h : parseOrder raw symbol = .ok order) : order.id = (raw.id.getOr "").getD "None" := by
  unfold parseOrder at h
  cases hside : orderSide (raw.side.getOr "buy") with
  | ok side =>
    rw [hside] at h
    rw [← Except.ok.inj h]
  | error e =>
    rw [hside] at h
    exact absurd h (by simp [bind, Except.bind])

/-! ## What other accounts' rows leave alone -/

/-- The relation depends on the paper rows of the account and on what its balance rows amount to. -/
theorem Mirrors.reframe {acc : String} {db db' : Db} {l : PaperLedger} (h : Mirrors acc db l)
    (hrows : ∀ r, IsPaperRow acc r → (r ∈ db'.orders ↔ r ∈ db.orders))
    (hbalances : Agree Set.univ (ledgerOf acc db') (ledgerOf acc db)) : Mirrors acc db' l := by
  have hframe : Mirrors acc { db' with balances := db.balances } l := h.frame hrows rfl
  exact { hframe with
    balances := fun a ha =>
      ⟨(hbalances a ha).1.trans (h.balances a ha).1, (hbalances a ha).2.trans (h.balances a ha).2⟩ }

theorem agree_of_balancesOf {acc : String} {db db' : Db}
    (h : balancesOf acc db'.balances = balancesOf acc db.balances) :
    Agree Set.univ (ledgerOf acc db') (ledgerOf acc db) := by
  have hsame : (ledgerOf acc db').balances = (ledgerOf acc db).balances := by
    unfold ledgerOf
    rw [h]
  intro a _
  unfold PaperLedger.free PaperLedger.used PaperLedger.balance
  rw [hsame]
  exact ⟨rfl, rfl⟩

/-- Writing a status to the row of `record` concerns the rows of its account and mode only. -/
theorem mem_setStatus_iff {db : Db} (hids : db.DistinctIds) {record r : OrderRecord}
    (hmem : record ∈ db.orders) (status : OrderStatus)
    (hother : ¬ (r.accountId = record.accountId ∧ r.isPaper = record.isPaper)) :
    r ∈ TradingService.setStatus record.id status db.orders ↔ r ∈ db.orders := by
  have hrow : ∀ o ∈ db.orders, o.id = record.id → o = record := fun o ho hid =>
    List.inj_on_of_nodup_map hids ho hmem hid
  constructor
  · intro hr
    obtain ⟨o, ho, rfl⟩ := List.mem_map.1 hr
    by_cases hid : o.id = record.id
    · rw [if_pos hid, hrow o ho hid] at hother
      exact absurd ⟨rfl, rfl⟩ hother
    · rwa [if_neg hid]
  · intro hr
    have hid : r.id ≠ record.id := fun hid => hother (by rw [hrow r hr hid]; exact ⟨rfl, rfl⟩)
    exact List.mem_map.2 ⟨r, hr, if_neg hid⟩

/-! ## The invariant -/

/-- Rows have distinct ids, no live row carries an id of the simulation, and every account is
    mirrored by a ledger with the property `I`, whose order identifiers have been drawn. -/
structure Recorded (I : PaperLedger → Prop) (drawn : List String) (db : Db) : Prop where
  ids : db.DistinctIds
  foreign : ∀ r ∈ db.orders, r.isPaper = false → ∀ n, r.exchangeOrderId ≠ some ("paper-" ++ n)
  ledger : ∀ acc, ∃ l, Mirrors acc db l ∧ I l ∧
    ∀ id, l.orders.get? id ≠ none → ∃ n ∈ drawn, id = "paper-" ++ n

namespace Recorded

variable {good : String → ℚ → Prop} {I : PaperLedger → Prop} {drawn : List String} {db db' : Db}
  {env : Env} {w w' : World}

/-- An account without rows is a fresh ledger. -/
theorem fresh {acc : String} (hI : EngineInvariant good I) (drawn : List String)
    (hbalances : ∀ b ∈ db.balances, b.accountId ≠ acc)
    (horders : ∀ o ∈ db.orders, o.accountId ≠ acc) :
    ∃ l, Mirrors acc db l ∧ I l ∧ ∀ id, l.orders.get? id ≠ none → ∃ n ∈ drawn, id = "paper-" ++ n :=
  ⟨_, (Durable.new hbalances horders).mirrors, hI.new, fun _ hid => absurd rfl hid⟩

theorem empty (hI : EngineInvariant good I) : Recorded I [] ⟨[], [], [], []⟩ where
  ids := List.nodup_nil
  foreign := by simp
  ledger _ := fresh hI [] (by simp) (by simp)

theorem weaken (h : Recorded I drawn db) (more : List String) : Recorded I (drawn ++ more) db := by
  refine ⟨h.ids, h.foreign, fun acc => ?_⟩
  obtain ⟨l, hm, hl, hk⟩ := h.ledger acc
  exact ⟨l, hm, hl, fun id hid =>
    (hk id hid).imp fun _ hn => ⟨List.mem_append_left _ hn.1, hn.2⟩⟩

theorem imp {J : PaperLedger → Prop} (h : Recorded I drawn db) (hIJ : ∀ l, I l → J l) :
    Recorded J drawn db := by
  refine ⟨h.ids, h.foreign, fun acc => ?_⟩
  obtain ⟨l, hm, hl, hk⟩ := h.ledger acc
  exact ⟨l, hm, hIJ l hl, hk⟩

/-- Every account whose rows are not written stays mirrored by its ledger. -/
theorem kept {acc : String} (h : Recorded I drawn db)
    (hrows : ∀ r, IsPaperRow acc r → (r ∈ db'.orders ↔ r ∈ db.orders))
    (hbalances : Agree Set.univ (ledgerOf acc db') (ledgerOf acc db)) :
    ∃ l, Mirrors acc db' l ∧ I l ∧
      ∀ id, l.orders.get? id ≠ none → ∃ n ∈ drawn, id = "paper-" ++ n := by
  obtain ⟨l, hm, hl, hk⟩ := h.ledger acc
  exact ⟨l, hm.reframe hrows hbalances, hl, hk⟩

theorem of_tables (h : Recorded I drawn db) (horders : db'.orders = db.orders)
    (hbalances : db'.balances = db.balances) : Recorded I drawn db' := by
  refine ⟨by rw [Db.DistinctIds, horders]; exact h.ids, by rw [horders]; exact h.foreign, ?_⟩
  exact fun acc => h.kept (fun r _ => by rw [horders]) (agree_of_balancesOf (by rw [hbalances]))

/-- A placement on paper. -/
theorem place_paper (hI : EngineInvariant good I) (h : Recorded I drawn db) {limits : RiskLimits}
    {r : PlaceOrder} {account : ExchangeAccount} {p : Placement} {log log' : List Event}
    (hadm : r.Admitted) (hgood : good r.symbol p.ticker.last)
    (hp : p.Of env limits r {} (ledgerOf account.id db) log log')
    (hnew : ∀ o ∈ db.orders, o.id ≠ env.recordId) (hfresh : env.orderHex ∉ drawn) :
    Recorded I (drawn ++ [env.orderHex]) (p.commit env r account db) := by
  obtain ⟨-, hpaper, -⟩ := PaperAdapter.createOrder_order hp.created
  refine ⟨nodup_map_concat h.ids hnew, fun o ho hlive => ?_, fun acc => ?_⟩
  · rcases List.mem_append.1 ho with ho | ho
    · exact h.foreign o ho hlive
    · rw [List.mem_singleton.1 ho] at hlive
      exact absurd (hpaper.symm.trans hlive) (by simp)
  · by_cases hacc : acc = account.id
    · subst hacc
      obtain ⟨l, hm, hl, hk⟩ := h.ledger account.id
      have hk' : ∀ id, l.orders.get? id ≠ none → ∃ n ∈ drawn ++ [env.orderHex], id = "paper-" ++ n :=
        fun id hid => (hk id hid).imp fun _ hn => ⟨List.mem_append_left _ hn.1, hn.2⟩
      have hfree : l.orders.get? ("paper-" ++ env.orderHex) = none := by
        by_contra hsome
        obtain ⟨n, hn, heq⟩ := hk _ hsome
        exact hfresh ((String.append_right_inj "paper-").1 heq ▸ hn)
      refine ⟨_, hm.place rfl hp hnew hfree, hI.create hl hfree hadm.1 hadm.2.1 hgood, ?_⟩
      refine PaperCall.run_known (.create _ _ _) hk' fun id hid => ?_
      exact ⟨env.orderHex, by simp, by simpa [PaperCall.drawnIds] using hid⟩
    · refine (h.weaken [env.orderHex]).kept (fun o ho => ?_) (agree_of_balancesOf ?_)
      · rw [Placement.commit, List.mem_append, List.mem_singleton]
        refine or_iff_left fun heq => hacc ?_
        rw [← ho.1, heq]
        rfl
      · rw [Placement.commit, balancesOf_saveRows_of_ne hacc]

/-- A live order is recorded, under an id of the exchange. -/
theorem place_live (h : Recorded I drawn db) {record : OrderRecord} (hlive : record.isPaper = false)
    (hid : ∀ n, record.exchangeOrderId ≠ some ("paper-" ++ n))
    (hnew : ∀ o ∈ db.orders, o.id ≠ record.id) (horders : db'.orders = db.orders ++ [record])
    (hbalances : db'.balances = db.balances) : Recorded I drawn db' := by
  refine ⟨by rw [Db.DistinctIds, horders]; exact nodup_map_concat h.ids hnew, ?_, fun acc => ?_⟩
  · rw [horders]
    intro o ho holive
    rcases List.mem_append.1 ho with ho | ho
    · exact h.foreign o ho holive
    · rw [List.mem_singleton.1 ho]
      exact hid
  · refine h.kept (fun o ho => ?_) (agree_of_balancesOf (by rw [hbalances]))
    rw [horders, List.mem_append, List.mem_singleton]
    refine or_iff_left fun heq => ?_
    have hpaper := ho.2
    rw [heq, hlive] at hpaper
    exact absurd hpaper (by simp)

/-- A status is written: the ids stay distinct and the exchange ids what they were. -/
theorem set_status (h : Recorded I drawn db) {orderId : String} {status : OrderStatus}
    (horders : db'.orders = TradingService.setStatus orderId status db.orders) :
    db'.DistinctIds ∧ ∀ r ∈ db'.orders, r.isPaper = false →
      ∀ n, r.exchangeOrderId ≠ some ("paper-" ++ n) := by
  refine ⟨?_, ?_⟩
  · rw [Db.DistinctIds, horders, TradingService.map_id_setStatus]
    exact h.ids
  · rw [horders]
    intro r hr hlive
    obtain ⟨o, ho, rfl⟩ := List.mem_map.1 hr
    by_cases hid : o.id = orderId
    · rw [if_pos hid] at hlive ⊢
      exact h.foreign o ho hlive
    · rw [if_neg hid] at hlive ⊢
      exact h.foreign o ho hlive

/-- The row of a live order is written: no mirrored account is concerned. -/
theorem cancel_live_row (h : Recorded I drawn db) {record : OrderRecord} (status : OrderStatus)
    (hmem : record ∈ db.orders) (hlive : record.isPaper = false)
    (horders : db'.orders = TradingService.setStatus record.id status db.orders)
    (hbalances : ∀ acc, Agree Set.univ (ledgerOf acc db') (ledgerOf acc db)) :
    Recorded I drawn db' := by
  obtain ⟨hids, hforeign⟩ := h.set_status horders
  refine ⟨hids, hforeign, fun acc => h.kept (fun r hr => ?_) (hbalances acc)⟩
  rw [horders]
  refine mem_setStatus_iff h.ids hmem status fun hsame => ?_
  exact absurd (hr.2.symm.trans (hsame.2.trans hlive)) (by simp)

/-- Asked to cancel a live order, the paper engine leaves the ledger as it was. -/
theorem paper_ignores_live (h : Recorded I drawn db) {record : OrderRecord} {acc : String}
    {status : OrderStatus} {l : PaperLedger} {calls : List PaperCall} (hmem : record ∈ db.orders)
    (hlive : record.isPaper = false)
    (hout : CancelOutcome {} record (ledgerOf acc db) status l calls) : l = ledgerOf acc db := by
  cases hout with
  | unnamed _ => rfl
  | unknown _ _ _ _ => rfl
  | answered id order l' hid hne hrun =>
    obtain ⟨-, he, -⟩ | ⟨_, hget, -⟩ | ⟨_, hget, -⟩ := PaperAdapter.cancelOrder_cases hrun
    · exact absurd he (by simp)
    all_goals
      obtain ⟨l₀, hm, -, hk⟩ := h.ledger acc
      rw [hm.loaded, PaperLedger.openOrder] at hget
      obtain ⟨o, ho, -⟩ := Option.bind_eq_some_iff.1 hget
      obtain ⟨n, -, rfl⟩ := hk id (by rw [ho]; simp)
      exact absurd hid (h.foreign record hmem hlive n)

/-- A cancellation on the paper engine, of an order of either kind. -/
theorem cancel_paper (hI : EngineInvariant good I) (h : Recorded I drawn db) {userId : String}
    {record : OrderRecord} {account : ExchangeAccount} {status : OrderStatus} {l : PaperLedger}
    {calls : List PaperCall} (hmem : record ∈ db.orders)
    (hopen : ¬ (record.status = .canceled ∨ record.status = .filled))
    (hacc : account.id = record.accountId)
    (hout : CancelOutcome {} record (ledgerOf account.id db) status l calls) :
    Recorded I drawn (cancelCommit userId account.id record status l db) := by
  cases hpaper : record.isPaper with
  | false =>
    obtain rfl := h.paper_ignores_live hmem hpaper hout
    refine h.cancel_live_row status hmem hpaper rfl fun acc => ?_
    by_cases hne : acc = account.id
    · subst hne
      exact (ledgerOf_saved _ (fun _ h => h) rfl).1
    · exact agree_of_balancesOf (by rw [cancelCommit, balancesOf_saveRows_of_ne hne])
  | true =>
    have horders : (cancelCommit userId account.id record status l db).orders
        = TradingService.setStatus record.id status db.orders := rfl
    obtain ⟨hids, hforeign⟩ := h.set_status horders
    refine ⟨hids, hforeign, fun acc => ?_⟩
    by_cases hne : acc = account.id
    · subst hne
      obtain ⟨l₀, hm, hl, hk⟩ := h.ledger account.id
      obtain ⟨id, -, -, -, hmirrors⟩ := hm.cancel userId hmem ⟨hacc.symm, hpaper⟩ hopen hout
      exact ⟨_, hmirrors, hI.cancel id hl, PaperCall.run_known (.cancel id) hk
        fun _ hid => absurd hid (by simp [PaperCall.drawnIds])⟩
    · refine h.kept (fun r hr => ?_) (agree_of_balancesOf ?_)
      · refine mem_setStatus_iff h.ids hmem status fun hsame => hne ?_
        rw [← hr.1, hsame.1, hacc]
      · rw [cancelCommit, balancesOf_saveRows_of_ne hne]

/-- An account is deleted: its rows are gone, the others stay. -/
theorem delete (hI : EngineInvariant good I) (h : Recorded I drawn db) (accountId : String)
    (horders : db'.orders = (db.without accountId).orders)
    (hbalances : db'.balances = (db.without accountId).balances) : Recorded I drawn db' := by
  refine ⟨?_, ?_, fun acc => ?_⟩
  · rw [Db.DistinctIds, horders]
    exact h.ids.sublist (List.filter_sublist.map _)
  · rw [horders]
    exact fun r hr => h.foreign r (List.mem_filter.1 hr).1
  · by_cases hacc : acc = accountId
    · subst hacc
      refine fresh hI drawn ?_ ?_
      · rw [hbalances]
        exact fun b hb => of_decide_eq_true (List.mem_filter.1 hb).2
      · rw [horders]
        exact fun o ho => of_decide_eq_true (List.mem_filter.1 ho).2
    · refine h.kept (fun r hr => ?_) (agree_of_balancesOf ?_)
      · rw [horders, Db.without, List.mem_filter]
        exact and_iff_left (decide_eq_true fun heq => hacc (hr.1.symm.trans heq))
      · rw [hbalances, Db.without, balancesOf, balancesOf, filter_filter_of_imp]
        exact fun b _ hb => decide_eq_true fun heq => hacc ((of_decide_eq_true hb).symm.trans heq)

/-- What an operation has written keeps the accounts in order. -/
theorem wrote (hI : EngineInvariant good I) (h : Recorded I drawn w.db) {op : Operation}
    (henv : env.Promises good) (hadm : op.Admitted)
    (hfresh : ∀ n ∈ (Turn.serve env op).draws, n ∉ drawn) (hwrote : op.Wrote env w w') :
    Recorded I (drawn ++ (Turn.serve env op).draws) w'.db := by
  cases hwrote with
  | nothing hop hdb => exact hdb ▸ h.weaken _
  | placedPaper hacc hmode hp hnew hdb =>
    obtain ⟨seen, client, raw, rest, -, -, hreply, hlast⟩ := hp.ticker
    rw [hdb]
    exact h.place_paper hI hadm (hlast ▸ henv.quoted _ _ _ _ hreply) hp hnew
      (hfresh env.orderHex (by simp [Turn.draws]))
  | placedLive hacc hmode hreply hparse hrecord hnew hdb =>
    have hlive := (CcxtAdapter.parseOrder_ok hparse).1
    rw [hdb]
    refine (h.weaken _).place_live (by rw [hrecord]; exact hlive) (fun n hid => ?_)
      (by rw [hrecord]; exact hnew) rfl rfl
    rw [hrecord] at hid
    refine henv.created _ _ _ _ n hreply ?_
    rw [← CcxtAdapter.parseOrder_id hparse]
    exact Option.some.inj hid
  | finished hfind hdone hdb => exact hdb ▸ h.weaken _
  | canceledPaper hfind hopen hacc haccount hmode hout hdb =>
    rw [hdb]
    exact (h.cancel_paper hI (List.mem_of_find?_eq_some hfind) hopen haccount hout).weaken _
  | canceledLive hfind hopen hacc haccount hmode hcall hdb =>
    have hmem := List.mem_of_find?_eq_some hfind
    rename_i userId orderId record account status
    cases hpaper : record.isPaper with
    | false =>
      exact (h.cancel_live_row status hmem hpaper (by rw [hdb])
        fun acc => agree_of_balancesOf (by rw [hdb])).weaken _
    | true =>
      -- The exchange does not know the order, so the request has not returned.
      obtain ⟨l, hm, -, hk⟩ := h.ledger record.accountId
      obtain ⟨id, order, hid, hne, hget, -⟩ := hm.open_row hmem ⟨rfl, hpaper⟩ hopen
      obtain ⟨n, -, rfl⟩ := hk id (by rw [hget]; simp)
      rcases hcall with hnone | hempty | ⟨id', log, client, raw, hid', hreply⟩
      · exact absurd (hid.symm.trans hnone) (by simp)
      · exact absurd (Option.some.inj (hid.symm.trans hempty)) hne
      · obtain rfl := Option.some.inj (hid.symm.trans hid')
        exact absurd hreply (henv.unknown _ _ _ _ _)
  | createdPaper hnew hdb => exact (h.of_tables (by rw [hdb]; rfl) (by rw [hdb]; rfl)).weaken _
  | createdLive hnew hdb => exact (h.of_tables (by rw [hdb]; rfl) (by rw [hdb]; rfl)).weaken _
  | deleted hfind hdb => exact (h.delete hI _ (by rw [hdb]) (by rw [hdb])).weaken _

/-- The step: a turn, successful or not, keeps the accounts in order. -/
theorem turn (hI : EngineInvariant good I) (h : Recorded I drawn w.db) {t : Turn}
    (ht : t.Promised good) (hfresh : ∀ n ∈ t.draws, n ∉ drawn) :
    Recorded I (drawn ++ t.draws) (t.apply w).db := by
  cases t with
  | restart settings => exact h.weaken _
  | serve env op =>
    show Recorded I _ (getSession env (op.run env) w).2.db
    obtain ⟨u, w', hrun, hserve⟩ | ⟨e, w', hserve, hdb⟩ := getSession_cases env (op.run env) w
    · rw [hserve]
      exact h.wrote hI ht.1 ht.2 hfresh (op.run_wrote ht.1.selects hrun)
    · rw [hserve]
      exact hdb ▸ h.weaken _

/-- The run: whatever the engine keeps, the committed tables of every account keep. -/
theorem run (hI : EngineInvariant good I) (settings : Settings) (turns : List Turn)
    (hturns : ∀ t ∈ turns, t.Promised good) (hids : (turns.flatMap Turn.draws).Nodup) :
    Recorded I (turns.flatMap Turn.draws)
      (turns.foldl Turn.apply (World.boot settings ⟨[], [], [], []⟩)).db := by
  have hrun := run_fresh (I := fun drawn (w : World) => Recorded I drawn w.db)
    (fun _ _ _ h ht hfresh => h.turn hI ht hfresh) turns []
    (World.boot settings ⟨[], [], [], []⟩) (Recorded.empty hI) hturns (by simpa using hids)
  simpa using hrun

end Recorded

/-! ## The books -/

/-- The paper orders of an account. -/
def Db.paperOrders (db : Db) (accountId : String) : List OrderRecord :=
  db.orders.filter fun r => r.accountId = accountId ∧ r.isPaper

theorem Db.mem_paperOrders {db : Db} {acc : String} {r : OrderRecord} :
    r ∈ db.paperOrders acc ↔ r ∈ db.orders ∧ IsPaperRow acc r := by
  simp [paperOrders, IsPaperRow]

/-- The order a row records. -/
def OrderRecord.order (r : OrderRecord) : Order String := orderOf (r.exchangeOrderId.getD "") r

@[simp] theorem OrderRecord.status_order (r : OrderRecord) : r.order.status = r.status := rfl

/-- A sum over the orders of a mirrored ledger is the sum over the rows of the account. -/
theorem Mirrors.sumBy_orders {acc : String} {db : Db} {l : PaperLedger} (h : Mirrors acc db l)
    (hids : db.DistinctIds) (f : Order String → ℚ)
    (hf : ∀ o, f { o with timestamp := none } = f o) :
    (l.orders.sumBy fun _ o => f o) = ((db.paperOrders acc).map fun r => f r.order).sum := by
  refine l.orders.sumBy_eq_sum_map _ (fun r => r.exchangeOrderId.getD "") ?_ ?_ ?_
  · refine List.Nodup.map_on (fun r hr r' hr' heq => ?_) (hids.of_map.filter _)
    obtain ⟨hmem, hacc⟩ := Db.mem_paperOrders.1 hr
    obtain ⟨hmem', hacc'⟩ := Db.mem_paperOrders.1 hr'
    obtain ⟨id, -, hid, -⟩ := h.row r hmem hacc
    obtain ⟨id', -, hid', -⟩ := h.row r' hmem' hacc'
    rw [hid, hid', Option.getD_some, Option.getD_some] at heq
    exact h.exchangeId_inj r hmem r' hmem' hacc hacc' (by rw [hid, hid', heq])
  · intro r hr
    obtain ⟨hmem, hacc⟩ := Db.mem_paperOrders.1 hr
    obtain ⟨id, order, hid, -, hget, -, heq⟩ := h.row r hmem hacc
    refine ⟨order, by rw [hid]; exact hget, ?_⟩
    rw [OrderRecord.order, hid, Option.getD_some, heq, hf]
  · intro id hget
    obtain ⟨r, hmem, hacc, hid⟩ := h.listed id hget
    exact ⟨r, Db.mem_paperOrders.2 ⟨hmem, hacc⟩, by rw [hid, Option.getD_some]⟩

/-- What the open paper orders of an account reserve in `asset`. -/
def Db.reserved (db : Db) (accountId asset : String) : ℚ :=
  ((db.paperOrders accountId).map fun r => ({} : PaperAdapter).reservedIn r.order asset).sum

/-- What the filled paper orders of an account have moved in `asset`. -/
def Db.traded (db : Db) (accountId asset : String) : ℚ :=
  ((db.paperOrders accountId).map fun r => ({} : PaperAdapter).fillEffect r.order asset).sum

/-- The books of an account balance in `asset`. -/
structure Db.Booked (db : Db) (accountId asset : String) : Prop where
  free_nonneg : 0 ≤ (ledgerOf accountId db).free asset
  used_nonneg : 0 ≤ (ledgerOf accountId db).used asset
  used_eq : (ledgerOf accountId db).used asset = db.reserved accountId asset
  total_eq : (ledgerOf accountId db).free asset + (ledgerOf accountId db).used asset
    = (if asset = "USDT" then 100000 else 0) + db.traded accountId asset

theorem Recorded.booked {drawn : List String} {db : Db} (h : Recorded Balanced drawn db)
    (acc asset : String) : db.Booked acc asset := by
  obtain ⟨l₀, hm, ⟨hinv, hexplained⟩, -⟩ := h.ledger acc
  obtain ⟨hfree, hused⟩ := hm.balances asset (Set.mem_univ _)
  have hreserved : l₀.used asset = db.reserved acc asset := by
    rw [hinv.used_eq, PaperAdapter.openReservations,
      hm.sumBy_orders h.ids (fun o => ({} : PaperAdapter).reservedIn o asset) fun _ => rfl]
    rfl
  have htraded : l₀.free asset + l₀.used asset
      = (if asset = "USDT" then 100000 else 0) + db.traded acc asset := by
    rw [hexplained asset, PaperAdapter.fillEffects,
      hm.sumBy_orders h.ids (fun o => ({} : PaperAdapter).fillEffect o asset) fun _ => rfl]
    rfl
  constructor
  · exact hfree ▸ hinv.free_nonneg asset
  · exact hused ▸ hinv.used_nonneg asset
  · exact hused.trans hreserved
  · rw [hfree, hused]
    exact htraded

/-- After every run of operations of any users, successful or failed at any point, and restarts
    under any settings, the books of every account balance in every asset: nothing is negative, what
    is held in `used` is what its open orders reserve, and the total is the starting balance and what
    its filled orders have moved. -/
theorem committed_books_balance (settings : Settings) (turns : List Turn)
    (hturns : ∀ t ∈ turns, t.Promised fun _ last => 0 ≤ last)
    (hids : (turns.flatMap Turn.draws).Nodup) (acc asset : String) :
    (turns.foldl Turn.apply (World.boot settings ⟨[], [], [], []⟩)).db.Booked acc asset :=
  (Recorded.run balanced_invariant settings turns hturns hids).booked acc asset

/-- An exchange that has one market, quotes it at `last` and does nothing else. -/
def Env.quoting (last : ℚ) (n : String) : Env :=
  { Env.quiet last n with
    ccxt :=
      { installed := true
        reply := fun log client m =>
          match m with
          | .fetchTicker symbol =>
            if symbol = "BTC/USDT" then
              (CcxtLibrary.quoting last).reply log client (.fetchTicker symbol)
            else .error ("BadSymbol", symbol)
          | .close => .ok ()
          | _ => .error ("ExchangeError", "market data only") } }

theorem Env.quoting_promises {good : String → ℚ → Prop} {last : ℚ} (n : String)
    (h : good "BTC/USDT" last) : (Env.quoting last n).Promises good where
  selects _ _ _ hf := absurd hf (by simp [Env.quoting, Env.quiet])
  quoted log client symbol raw hreply := by
    simp only [Env.quoting] at hreply
    split at hreply
    · next hsymbol => exact hsymbol ▸ (Except.ok.inj hreply) ▸ h
    · exact absurd hreply (by simp)
  created _ _ _ _ _ hreply := absurd hreply (by simp [Env.quoting])
  unknown _ _ _ _ _ := by simp [Env.quoting]

/-- A paper account that buys at the market and bids below it. -/
def Turn.sampleTurns : List Turn :=
  [.serve (Env.quoting 100 "a") (.createPaperAccount "u" "kraken" "main" "spot"),
    .serve (Env.quoting 100 "1") (.trade Trade.sampleBuy), .restart ⟨true, true⟩,
    .serve (Env.quoting 100 "2") (.trade Trade.sampleBid)]

theorem Turn.sampleTurns_promised {good : String → ℚ → Prop} (h : good "BTC/USDT" 100) :
    ∀ t ∈ Turn.sampleTurns, t.Promised good := by
  have henv := fun n => Env.quoting_promises n h
  intro t ht
  simp only [Turn.sampleTurns, List.mem_cons, List.not_mem_nil, or_false] at ht
  rcases ht with rfl | rfl | rfl | rfl
  · exact ⟨henv _, trivial⟩
  · exact ⟨henv _, by simp [Operation.Admitted, Trade.Admitted, Trade.sampleBuy, PlaceOrder.Admitted]⟩
  · trivial
  · exact ⟨henv _, by simp [Operation.Admitted, Trade.Admitted, Trade.sampleBid, PlaceOrder.Admitted]⟩

theorem committed_books_sample :
    let db := (Turn.sampleTurns.foldl Turn.apply (World.boot {} ⟨[], [], [], []⟩)).db
    let l := ledgerOf "a" db
    db.reserved "a" "USDT" = 90036 / 1000 ∧ db.traded "a" "BTC" = 1 ∧
      l.used "USDT" = db.reserved "a" "USDT" ∧
      l.free "BTC" + l.used "BTC" = (if "BTC" = "USDT" then 100000 else 0) + db.traded "a" "BTC" := by
  intro db l
  have hids : (Turn.sampleTurns.flatMap Turn.draws).Nodup := by decide
  have hbooks := committed_books_balance {} Turn.sampleTurns
    (Turn.sampleTurns_promised (by norm_num)) hids "a"
  exact ⟨by decide +kernel, by decide +kernel, (hbooks "USDT").used_eq, (hbooks "BTC").total_eq⟩

end TradingHub
