import TradingHub.Exchange.Paper.StoredLedger
import TradingHub.Services.Durability
import TradingHub.Services.FillPrices

set_option autoImplicit false

/-! # Rounded columns

The amounts of orders and balances are `Numeric(36, 18)` columns, so a request meets the rows the
previous one left rounded to eighteen fractional digits. `serveStored` is a request with that
rounding, beside that of the decimal context; over a run of such requests, what resting orders
reserve is cleared again if every order was held within its release and the context raised no sum
or difference in `used` (`HoldsWithin`), and a reservation that is not is left in `used` for
good. -/

namespace TradingHub

open Library PaperLedgerRepository AccountService
open DecimalContext (fix)

/-! ## The columns -/

def OrderRecord.stored (r : OrderRecord) : OrderRecord :=
  { r with
    amount := numeric r.amount
    filled := numeric r.filled
    price := r.price.map numeric
    average := r.average.map numeric
    fee := numeric r.fee }

def PaperBalanceRecord.stored (r : PaperBalanceRecord) : PaperBalanceRecord :=
  { r with free := numeric r.free, used := numeric r.used }

/-- The tables with every `Numeric(36, 18)` column rounded. -/
def Db.stored (db : Db) : Db :=
  { db with orders := db.orders.map OrderRecord.stored
            balances := db.balances.map PaperBalanceRecord.stored }

/-- Serve one trade as a request; its rows are kept as the columns round them. -/
def serveStored [DecimalContext] (w : World) (request : Env × Trade) : World :=
  { serveTrade w request with db := (serveTrade w request).db.stored }

namespace PaperLedgerRepository

theorem get?_balancesOf_stored (accountId : String) (rows : List PaperBalanceRecord) (a : String) :
    (balancesOf accountId (rows.map PaperBalanceRecord.stored)).get? a
      = ((balancesOf accountId rows).get? a).map Balance.stored := by
  have hfilter : (rows.map PaperBalanceRecord.stored).filter (·.accountId = accountId)
      = (rows.filter (·.accountId = accountId)).map PaperBalanceRecord.stored := by
    rw [List.filter_map]
    rfl
  unfold balancesOf
  rw [← Dict.get?_ofEntries_mapValues, hfilter, List.map_map, List.map_map]
  rfl

theorem orderOf_stored (id : String) (r : OrderRecord) :
    orderOf id r.stored = (orderOf id r).stored := rfl

/-- Loading the rounded tables gives the rounded balances; the starting balance is round. -/
theorem ledgerOf_stored (accountId : String) (db : Db) (a : String) :
    (ledgerOf accountId db.stored).free a = numeric ((ledgerOf accountId db).free a) ∧
      (ledgerOf accountId db.stored).used a = numeric ((ledgerOf accountId db).used a) := by
  have hempty : (balancesOf accountId db.stored.balances).entries = []
      ↔ (balancesOf accountId db.balances).entries = [] := by
    simp only [Dict.entries_eq_nil_iff, Db.stored, get?_balancesOf_stored, Option.map_eq_none_iff]
  have hbalance : (ledgerOf accountId db.stored).balances.get? a
      = ((ledgerOf accountId db).balances.get? a).map Balance.stored := by
    unfold ledgerOf
    simp only [hempty]
    split
    · rw [Dict.get?_set]
      split
      · have hround : numeric 100000 = 100000 :=
          roundAway_of_onGrid numericScale_pos ⟨100000 * 10 ^ 18, by norm_num [numericScale]⟩
        simp [Balance.stored, hround]
      · rfl
    · exact get?_balancesOf_stored _ _ _
  unfold PaperLedger.free PaperLedger.used PaperLedger.balance
  rw [hbalance]
  cases (ledgerOf accountId db).balances.get? a with
  | none => exact ⟨numeric_zero.symm, numeric_zero.symm⟩
  | some b => exact ⟨rfl, rfl⟩

end PaperLedgerRepository

/-- The rounded tables mirror the rounded ledger. -/
theorem Mirrors.stored {acc : String} {db : Db} {l : PaperLedger} (h : Mirrors acc db l) :
    Mirrors acc db.stored l.stored := by
  constructor
  · intro a ha
    obtain ⟨hfree, hused⟩ := h.balances a ha
    obtain ⟨hfree', hused'⟩ := ledgerOf_stored acc db a
    rw [hfree', hused', hfree, hused]
    exact ⟨(l.free_stored a).symm, (l.used_stored a).symm⟩
  · intro r hr hacc
    obtain ⟨r₀, hr₀, rfl⟩ := List.mem_map.1 hr
    obtain ⟨id, order, hid, hne, hget, hstatus, heq⟩ := h.row r₀ hr₀ hacc
    refine ⟨id, order.stored, hid, hne, by rw [l.get?_orders_stored, hget]; rfl, hstatus, ?_⟩
    rw [orderOf_stored, heq]
    rfl
  · intro id hget
    have hget₀ : l.orders.get? id ≠ none := fun hnone => hget (by
      rw [l.get?_orders_stored, hnone]
      rfl)
    obtain ⟨r, hr, hacc, hid⟩ := h.listed id hget₀
    exact ⟨r.stored, List.mem_map.2 ⟨r, hr, rfl⟩, hacc, hid⟩
  · intro r hr r' hr' hacc hacc' hid
    obtain ⟨r₀, hr₀, rfl⟩ := List.mem_map.1 hr
    obtain ⟨r₀', hr₀', rfl⟩ := List.mem_map.1 hr'
    rw [h.id_inj r₀ hr₀ r₀' hr₀' hacc hacc' hid]
  · intro r hr r' hr' hacc hacc' hid
    obtain ⟨r₀, hr₀, rfl⟩ := List.mem_map.1 hr
    obtain ⟨r₀', hr₀', rfl⟩ := List.mem_map.1 hr'
    rw [h.exchangeId_inj r₀ hr₀ r₀' hr₀' hacc hacc' hid]

/-! ## One row for an asset -/

namespace PaperLedgerRepository

/-- The account has at most one balance row for an asset. -/
def DistinctAssets (accountId : String) (rows : List PaperBalanceRecord) : Prop :=
  ((rows.filter (·.accountId = accountId)).map (·.asset)).Nodup

/-- Rewriting amounts leaves the assets of an account as they are. -/
theorem assets_map {accountId : String} {f : PaperBalanceRecord → PaperBalanceRecord}
    (hf : ∀ r, (f r).accountId = r.accountId ∧ (f r).asset = r.asset)
    (rows : List PaperBalanceRecord) :
    ((rows.map f).filter (·.accountId = accountId)).map (·.asset)
      = (rows.filter (·.accountId = accountId)).map (·.asset) := by
  rw [List.filter_map, List.map_map]
  simp only [Function.comp_def, hf]

theorem DistinctAssets.upsertRow {accountId : String} {rows : List PaperBalanceRecord}
    (h : DistinctAssets accountId rows) (e : String × Balance) :
    DistinctAssets accountId (upsertRow accountId rows e) := by
  unfold PaperLedgerRepository.upsertRow
  split
  · unfold DistinctAssets
    rw [assets_map fun r => by split <;> exact ⟨rfl, rfl⟩]
    exact h
  · next hnone =>
    unfold DistinctAssets
    rw [List.filter_append, List.filter_cons_of_pos (by simp), List.filter_nil, List.map_append,
      List.map_singleton]
    refine h.append (List.nodup_singleton _) (List.disjoint_singleton.2 fun hmem => hnone ?_)
    obtain ⟨r, hr, hasset⟩ := List.mem_map.1 hmem
    obtain ⟨hr, hacc⟩ := List.mem_filter.1 hr
    exact List.any_eq_true.2 ⟨r, hr, decide_eq_true ⟨of_decide_eq_true hacc, hasset⟩⟩

theorem DistinctAssets.saveRows {accountId : String} (balances : Dict String Balance) :
    ∀ {rows : List PaperBalanceRecord}, DistinctAssets accountId rows →
      DistinctAssets accountId (saveRows accountId balances rows) := by
  unfold PaperLedgerRepository.saveRows
  induction balances.entries with
  | nil => exact fun h => h
  | cons e entries ih => exact fun h => ih (h.upsertRow e)

/-- With one row for an asset, the row is what is loaded. -/
theorem DistinctAssets.get? {accountId : String} {rows : List PaperBalanceRecord}
    (h : DistinctAssets accountId rows) {b : PaperBalanceRecord} (hb : b ∈ rows)
    (hacc : b.accountId = accountId) :
    (balancesOf accountId rows).get? b.asset = some ⟨b.asset, b.free, b.used⟩ := by
  have hmem : b ∈ rows.filter (·.accountId = accountId) :=
    List.mem_filter.2 ⟨hb, decide_eq_true hacc⟩
  refine Dict.get?_ofEntries_of_unique (List.mem_map.2 ⟨b, hmem, rfl⟩) fun v hv => ?_
  obtain ⟨b', hb', heq⟩ := List.mem_map.1 hv
  obtain ⟨hasset, rfl⟩ := Prod.mk.inj heq
  rw [List.inj_on_of_nodup_map h hb' hmem hasset]

end PaperLedgerRepository

/-! ## The property and its condition -/

/-- If the account has no open order, nothing of it is in `used`. -/
def NothingLocked (accountId : String) (db : Db) : Prop :=
  (∀ r ∈ db.orders, r.accountId = accountId →
    ¬ (r.status = .open ∨ r.status = .partiallyFilled)) →
  ∀ b ∈ db.balances, b.accountId = accountId → b.used = 0

instance (accountId : String) (db : Db) : Decidable (NothingLocked accountId db) :=
  inferInstanceAs (Decidable (_ → _))

/-- A request that rests an order reserves no more than cancelling the stored order releases, and
    adding the reservation to `used` does not come out higher in the columns than it is: for every
    answer of the exchange at which the order rests, where the free balance covers it. Cancelling an
    order does not leave more in the columns than there is, where `used` covers the reservation. -/
def HoldsWithin [DecimalContext] (accountId : String) (w : World) : Env × Trade → Prop
  | (env, .place _ r) =>
    ∀ log client raw, env.ccxt.reply log client (.fetchTicker r.symbol) = .ok raw →
      let order := PaperAdapter.restingOrder ("paper-" ++ env.orderHex) (r.request env)
        (RawTicker.ticker r.symbol raw)
      let reserved := ({} : PaperAdapter).reservation order
      let used := (ledgerOf accountId w.db).used reserved.1
      ¬ (r.request env).Takes (RawTicker.ticker r.symbol raw).last →
      reserved.2 ≤ (ledgerOf accountId w.db).free reserved.1 →
      ({} : PaperAdapter).HeldWithin order ∧
        numeric (fix (used + reserved.2)) ≤ numeric (used + reserved.2)
  | (_, .cancel userId orderId) =>
    ∀ record id, w.db.orders.find? (fun o => o.id = orderId ∧ o.userId = userId) = some record →
      ¬ (record.status = .canceled ∨ record.status = .filled) → record.exchangeOrderId = some id →
      let reserved := ({} : PaperAdapter).reservation (orderOf id record)
      let used := (ledgerOf accountId w.db).used reserved.1
      reserved.2 ≤ used → numeric (fix (used - reserved.2)) ≤ numeric (used - reserved.2)

/-! ## The invariant -/

/-- The account mirrors a settled ledger whose order identifiers have been drawn. -/
structure SettledAccount [DecimalContext] (acc : String) (drawn : List String) (db : Db) :
    Prop where
  ledger : ∃ l, Mirrors acc db l ∧ Settled {} l ∧
    ∀ id, l.orders.get? id ≠ none → ∃ n ∈ drawn, id = "paper-" ++ n
  paper : ∀ r ∈ db.orders, r.accountId = acc → r.isPaper = true
  distinct : DistinctAssets acc db.balances

namespace SettledAccount

variable [DecimalContext] {acc : String} {drawn : List String} {db : Db}

/-- An account without rows. -/
theorem new (hbalances : ∀ b ∈ db.balances, b.accountId ≠ acc)
    (horders : ∀ o ∈ db.orders, o.accountId ≠ acc) : SettledAccount acc [] db := by
  have hnone : db.balances.filter (·.accountId = acc) = [] :=
    List.filter_eq_nil_iff.2 fun b hb => by simpa using hbalances b hb
  exact ⟨⟨_, Mirrors.new hbalances horders, Settled.new _ _, fun _ hid => absurd rfl hid⟩,
    fun r hr hacc => absurd hacc (horders r hr), by simp [DistinctAssets, hnone]⟩

theorem nothingLocked (h : SettledAccount acc drawn db) : NothingLocked acc db := by
  intro hclosed b hb hacc
  obtain ⟨l, hm, hs, -⟩ := h.ledger
  have hzero : ∀ a, l.used a = 0 := by
    refine hs.used_eq_zero fun id order hget hopen => ?_
    obtain ⟨r, hr, hracc, hid⟩ := hm.listed id (by rw [hget]; simp)
    obtain ⟨id', order', hid', -, hget', -, heq⟩ := hm.row r hr hracc
    obtain rfl := Option.some.inj (hid.symm.trans hid')
    obtain rfl := Option.some.inj (hget.symm.trans hget')
    exact hclosed r hr hracc.1 (Or.inl ((congrArg Order.status heq).trans hopen))
  have hget := h.distinct.get? hb hacc
  have hne : (balancesOf acc db.balances).entries ≠ [] := by
    intro hempty
    rw [(Dict.entries_eq_nil_iff _).1 hempty] at hget
    exact absurd hget (by simp)
  have hused := (hm.balances b.asset (Set.mem_univ _)).2
  rw [hzero] at hused
  unfold PaperLedger.used PaperLedger.balance ledgerOf at hused
  simp only [if_neg hne, hget, Option.getD_some] at hused
  exact hused

/-- Rounding tables that mirror a ledger which is settled when it is rounded. -/
theorem of_mirrors {l : PaperLedger} (hm : Mirrors acc db l) (hs : Settled {} l.stored)
    (hk : ∀ id, l.orders.get? id ≠ none → ∃ n ∈ drawn, id = "paper-" ++ n)
    (hpaper : ∀ r ∈ db.orders, r.accountId = acc → r.isPaper = true)
    (hdistinct : DistinctAssets acc db.balances) : SettledAccount acc drawn db.stored := by
  refine ⟨⟨l.stored, hm.stored, hs, fun id hid => hk id fun hnone => hid ?_⟩, fun r hr hacc => ?_, ?_⟩
  · rw [l.get?_orders_stored, hnone]
    rfl
  · obtain ⟨r₀, hr₀, rfl⟩ := List.mem_map.1 hr
    exact hpaper r₀ hr₀ hacc
  · unfold DistinctAssets Db.stored
    rw [assets_map (f := PaperBalanceRecord.stored) fun _ => ⟨rfl, rfl⟩]
    exact hdistinct

/-- A request that changed nothing. -/
theorem stored (h : SettledAccount acc drawn db) (n : String) :
    SettledAccount acc (drawn ++ [n]) db.stored := by
  obtain ⟨l, hm, hs, hk⟩ := h.ledger
  exact of_mirrors hm hs.stored
    (fun id hid => (hk id hid).imp fun _ hm => ⟨List.mem_append_left _ hm.1, hm.2⟩) h.paper h.distinct

/-- A placement that was carried out. -/
theorem place {env : Env} {limits : RiskLimits} {r : PlaceOrder} {account : ExchangeAccount}
    {p : Placement} {w : World} {log' : List Event} (h : SettledAccount acc drawn w.db)
    (hacc : account.id = acc) (hadm : r.Admitted) (hfresh : env.orderHex ∉ drawn)
    (hheld : HoldsWithin acc w (env, .place limits r))
    (hp : p.Of env limits r {} (ledgerOf acc w.db) w.log log')
    (hrecord : ∀ o ∈ w.db.orders, o.id ≠ env.recordId) :
    SettledAccount acc (drawn ++ [env.orderHex]) (p.commit env r account w.db).stored := by
  obtain ⟨l, hm, hs, hk⟩ := h.ledger
  have hnew : l.orders.get? ("paper-" ++ env.orderHex) = none := by
    by_contra hsome
    obtain ⟨n, hn, heq⟩ := hk _ hsome
    exact hfresh ((String.append_right_inj "paper-").1 heq ▸ hn)
  refine of_mirrors (hm.place hacc hp hrecord hnew)
    (hs.createOrder (by norm_num) hadm.1 hadm.2.1 hnew fun ticker hticker hrests hle => ?_)
    ?_ (fun o ho hoacc => ?_) ?_
  · obtain rfl := Except.ok.inj hticker
    obtain ⟨log, client, raw, -, -, -, hreply, hlast⟩ := hp.ticker
    have hrests' : ¬ (r.request env).Takes (RawTicker.ticker r.symbol raw).last := by
      intro htakes
      rw [PaperAdapter.resolveFillPrice_eq_some_iff.2 ⟨hlast ▸ htakes, rfl⟩] at hrests
      exact absurd hrests (by simp)
    set order := PaperAdapter.restingOrder ("paper-" ++ env.orderHex) (r.request env) p.ticker
    set reserved := ({} : PaperAdapter).reservation order
    obtain ⟨hfree, hused⟩ := hm.balances reserved.1 (Set.mem_univ _)
    have hkept : ({} : PaperAdapter).HeldWithin order ∧
        numeric (fix ((ledgerOf acc w.db).used reserved.1 + reserved.2))
          ≤ numeric ((ledgerOf acc w.db).used reserved.1 + reserved.2) :=
      hheld log client raw hreply hrests' (hle.trans hfree.ge)
    rwa [hused] at hkept
  · refine PaperCall.run_known (.create _ _ _)
      (fun id hid => (hk id hid).imp fun _ hn => ⟨List.mem_append_left _ hn.1, hn.2⟩) fun id hid => ?_
    exact ⟨env.orderHex, by simp, by simpa [PaperCall.drawnIds] using hid⟩
  · rcases List.mem_append.1 ho with ho | ho
    · exact h.paper o ho hoacc
    · rw [List.mem_singleton.1 ho]
      exact (PaperAdapter.createOrder_order hp.created).2.1
  · rw [← hacc]
    exact (hacc ▸ h.distinct).saveRows _

/-- A cancellation that was carried out. -/
theorem cancel {env : Env} {userId : String} {record : OrderRecord} {account : ExchangeAccount}
    {status : OrderStatus} {l' : PaperLedger} {calls : List PaperCall}
    (h : SettledAccount acc drawn db) (hmem : record ∈ db.orders) (hacc : account.id = acc)
    (hrecord : account.id = record.accountId)
    (hlive : ¬ (record.status = .canceled ∨ record.status = .filled))
    (hkept : ∀ id, record.exchangeOrderId = some id →
      let reserved := ({} : PaperAdapter).reservation (orderOf id record)
      let used := (ledgerOf acc db).used reserved.1
      reserved.2 ≤ used → numeric (fix (used - reserved.2)) ≤ numeric (used - reserved.2))
    (hout : CancelOutcome {} record (ledgerOf acc db) status l' calls) :
    SettledAccount acc (drawn ++ [env.orderHex])
      (cancelCommit userId account.id record status l' db).stored := by
  subst hacc
  obtain ⟨l, hm, hs, hk⟩ := h.ledger
  have hrow : IsPaperRow account.id record := ⟨hrecord.symm, h.paper record hmem hrecord.symm⟩
  obtain ⟨id, hid, -, -, hmirrors⟩ := hm.cancel userId hmem hrow hlive hout
  refine of_mirrors hmirrors (hs.cancelOrder fun order hget _ hle => ?_) ?_ (fun o ho hoacc => ?_)
    (h.distinct.saveRows _)
  · -- The row that is cancelled reserves what the order does.
    obtain ⟨id', order', hid', -, hget', -, heq, -⟩ := hm.open_row hmem hrow hlive
    obtain rfl := Option.some.inj (hid.symm.trans hid')
    obtain rfl := Option.some.inj (hget.symm.trans hget')
    have hreserved : ({} : PaperAdapter).reservation (orderOf id record)
        = ({} : PaperAdapter).reservation order := by rw [heq]; rfl
    obtain ⟨-, hused⟩ := hm.balances (({} : PaperAdapter).reservation order).1 (Set.mem_univ _)
    have hleft := hkept id hid
    simp only [hreserved, hused] at hleft
    exact hleft hle
  · exact PaperCall.run_known (.cancel id)
      (fun id hid => (hk id hid).imp fun _ hn => ⟨List.mem_append_left _ hn.1, hn.2⟩)
      fun _ hid => absurd hid (by simp [PaperCall.drawnIds])
  · obtain ⟨o₀, ho₀, -, -, hacc₀, hpaper₀⟩ := TradingService.mem_setStatus ho
    exact hpaper₀.trans (h.paper o₀ ho₀ (hacc₀.symm.trans hoacc))

/-- The step: a request on the account, successful or not. -/
theorem serve {w : World} {env : Env} {t : Trade} (h : SettledAccount acc drawn w.db)
    (hon : ∀ account, t.account? w.db = some account →
      account.id = acc ∧ isPaperEffective w.settings account = true)
    (hadm : t.Admitted) (hheld : HoldsWithin acc w (env, t)) (hfresh : env.orderHex ∉ drawn) :
    SettledAccount acc (drawn ++ [env.orderHex]) (serveStored w (env, t)).db := by
  show SettledAccount acc _ (serveTrade w (env, t)).db.stored
  unfold serveTrade
  obtain ⟨record, w', hrun, hserve⟩ | ⟨e, w', hserve, hdb⟩ := getSession_cases env (t.run env) w
  · rw [hserve]
    cases t with
    | place limits r =>
      obtain ⟨account, p, hacc, hp, -, hrecord, -, hdb, -⟩ :=
        TradingService.placeOrder_paper_ok (fun account ha => (hon account ha).2) hrun
      obtain ⟨rfl, -⟩ := hon account hacc
      simp only [hdb]
      exact h.place rfl hadm hfresh hheld hp hrecord
    | cancel userId orderId =>
      obtain ⟨record', hfind, ⟨-, -, rfl⟩ | ⟨hlive, account, status, l', calls, hacc, hrecord, hout,
        -, -, hdb, -⟩⟩ := TradingService.cancelOrder_paper_ok
          (fun account ha => (hon account ha).2) hrun
      · -- The order was finished already: nothing changed.
        exact h.stored _
      · obtain ⟨rfl, -⟩ := hon account hacc
        simp only [hdb]
        exact h.cancel (List.mem_of_find?_eq_some hfind) rfl hrecord hlive
          (fun id hid => hheld record' id hfind hlive hid) hout
  · rw [hserve]
    simp only [hdb]
    exact h.stored _

end SettledAccount

/-- In every decimal context, in every run of requests on one account that trades on paper, starting
    without rows, whose orders are held within their releases and whose sums in `used` are not raised
    by rounding: whenever the account has no open order, nothing of it is in `used`. Order
    identifiers are drawn once. -/
theorem nothing_stays_locked [DecimalContext] (acc : String) (w : World)
    (requests : List (Env × Trade)) (hbalances : ∀ b ∈ w.db.balances, b.accountId ≠ acc)
    (horders : ∀ o ∈ w.db.orders, o.accountId ≠ acc)
    (hon : Guarded serveStored (fun w request => ∀ account,
      request.2.account? w.db = some account →
        account.id = acc ∧ isPaperEffective w.settings account = true) w requests)
    (hadm : ∀ request ∈ requests, request.2.Admitted)
    (hids : (requests.map (·.1.orderHex)).Nodup)
    (hheld : Guarded serveStored (HoldsWithin acc) w requests) :
    Always serveStored (fun w => NothingLocked acc w.db) w requests := by
  have hguard := (hon.and (guarded_of_forall_mem requests w hadm)).and hheld
  have hrun := always_fresh (I := fun drawn w => SettledAccount acc drawn w.db)
    (fun drawn w request h hg hfresh => h.serve hg.1.1 hg.1.2 hg.2 hfresh) requests [] w
    (SettledAccount.new hbalances horders) hguard hids
  refine hrun.mono (fun w h => ?_) requests w
  obtain ⟨drawn, h⟩ := h
  exact h.nothingLocked

/-- A paper account without rows. -/
def World.onPaper : World :=
  World.boot {} ⟨[⟨"a", "u", "kraken", "main", "spot", true, none, none, none⟩], [], [], []⟩

/-- A bid is placed and cancelled again. -/
def bidAndCancel (bid : Trade) : List (Env × Trade) :=
  [(Env.quiet 100 "1", bid), (Env.quiet 100 "2", .cancel "u" "1")]

theorem nothing_stays_locked_sample :
    (((bidAndCancel Trade.sampleBid).foldl (@serveStored defaultContext)
        World.onPaper).db.orders.map (·.status) = [.canceled]) ∧
      Always (@serveStored defaultContext) (fun w => NothingLocked "a" w.db) World.onPaper
        (bidAndCancel Trade.sampleBid) := by
  have hon : ∀ (w : World) (t : Trade), (∀ x ∈ w.db.accounts, x.id = "a" ∧ x.isPaper = true) →
      ∀ account, t.account? w.db = some account →
        account.id = "a" ∧ isPaperEffective w.settings account = true := by
    intro w t hall account hacc
    obtain ⟨hid, hpaper⟩ := hall account (Trade.account?_mem hacc)
    exact ⟨hid, by simp [isPaperEffective, hpaper]⟩
  refine ⟨by decide +kernel, ?_⟩
  refine @nothing_stays_locked defaultContext "a" World.onPaper (bidAndCancel Trade.sampleBid)
    (by simp [World.onPaper, World.boot]) (by simp [World.onPaper, World.boot])
    ⟨hon _ _ (by decide +kernel), hon _ _ (by decide +kernel), trivial⟩ (fun request hr => ?_)
    (by decide) ⟨fun log client raw hraw => ?_, fun record id hfind _ hid => ?_, trivial⟩
  · rcases List.mem_pair.1 hr with rfl | rfl
    · simp [Trade.Admitted, Trade.sampleBid, PlaceOrder.Admitted]
    · trivial
  · obtain rfl := Except.ok.inj hraw
    intro order reserved used _ _
    show @PaperAdapter.HeldWithin defaultContext _ _ ∧ _
    decide +kernel
  · -- The reservation does not depend on the identifier, and there is one row to look at.
    have hrow : ∀ r ∈ (@serveStored defaultContext World.onPaper
        (Env.quiet 100 "1", Trade.sampleBid)).db.orders,
        let reserved := @PaperAdapter.reservation defaultContext {} (orderOf "" r)
        let used := (ledgerOf "a" (@serveStored defaultContext World.onPaper
          (Env.quiet 100 "1", Trade.sampleBid)).db).used reserved.1
        reserved.2 ≤ used → numeric (@fix defaultContext (used - reserved.2))
          ≤ numeric (used - reserved.2) := by decide +kernel
    exact hrow record (List.mem_of_find?_eq_some hfind)

/-- A bid of 0.00000000000000125 coins at 1: its reservation, the fee included, ends in half of the
    last digit that is kept. -/
def Trade.tieBid : Trade :=
  .place {} ⟨"u", "a", "BTC/USDT", .buy, .limit, 125 / 10 ^ 17, some 1, none, .gtc, false, false, none⟩

/-- The tie is rounded up when it is reserved and down when it is released: the last digit stays
    locked on an account without open orders. -/
theorem tie_stays_locked :
    (∀ request ∈ bidAndCancel Trade.tieBid, request.2.Admitted) ∧
      ((bidAndCancel Trade.tieBid).foldl (@serveStored defaultContext)
        World.onPaper).db.balances.map (·.used) = [1 / 10 ^ 18] ∧
      ¬ Always (@serveStored defaultContext) (fun w => NothingLocked "a" w.db) World.onPaper
        (bidAndCancel Trade.tieBid) := by
  refine ⟨fun request hr => ?_, by decide +kernel, by decide +kernel⟩
  rcases List.mem_pair.1 hr with rfl | rfl
  · refine ⟨by norm_num, ?_⟩
    simp
  · trivial

end TradingHub
