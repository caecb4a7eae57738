import TradingHub.Exchange.Paper.Agreement
import TradingHub.Library.Run
import TradingHub.Services.Requests

set_option autoImplicit false

/-! # The durable ledger refines one long-lived ledger

A paper account has no ledger object that outlives a request. Its balances are rows of one table,
its orders rows of another that only ever gives back the open ones, and its starting balance is
granted whenever the first table has no rows for it. `Mirrors` relates the two tables to a single
ledger on which the engine carried out the operations of the successful requests; every request
keeps it, so the durable account behaves as that ledger does. -/

namespace TradingHub

open Library PaperLedgerRepository AccountService

/-! ## Balance rows -/

namespace PaperLedgerRepository

/-- The entry of a balance row. -/
def balanceEntry (r : PaperBalanceRecord) : String × Balance := (r.asset, ⟨r.asset, r.free, r.used⟩)

theorem balancesOf_concat (accountId : String) (rows : List PaperBalanceRecord)
    (r : PaperBalanceRecord) (h : r.accountId = accountId) :
    balancesOf accountId (rows ++ [r])
      = (balancesOf accountId rows).set r.asset ⟨r.asset, r.free, r.used⟩ := by
  simp only [balancesOf, List.filter_append, List.map_append]
  rw [List.filter_cons_of_pos (by simpa using h), List.filter_nil, List.map_singleton,
    Dict.ofEntries_concat]

theorem get?_balancesOf_eq_none_iff (accountId : String) (rows : List PaperBalanceRecord)
    (asset : String) :
    (balancesOf accountId rows).get? asset = none
      ↔ ∀ r ∈ rows, ¬ (r.accountId = accountId ∧ r.asset = asset) := by
  rw [balancesOf, Dict.get?_ofEntries_eq_none_iff]
  constructor
  · intro h r hr hra
    exact h (balanceEntry r) (List.mem_map.2 ⟨r, List.mem_filter.2 ⟨hr, by simpa using hra.1⟩, rfl⟩)
      hra.2
  · rintro h e he rfl
    obtain ⟨r, hr, rfl⟩ := List.mem_map.1 he
    obtain ⟨hr, hacc⟩ := List.mem_filter.1 hr
    exact h r hr ⟨by simpa using hacc, rfl⟩

/-- Upserting one balance assigns it and leaves the other assets of the account alone. -/
theorem get?_balancesOf_upsertRow (accountId : String) (rows : List PaperBalanceRecord)
    (asset : String) (b : Balance) (a : String) :
    (balancesOf accountId (upsertRow accountId rows (asset, b))).get? a
      = if a = asset then some ⟨asset, b.free, b.used⟩ else (balancesOf accountId rows).get? a := by
  unfold upsertRow
  split
  · next hany =>
    obtain ⟨r₀, hr₀, hkey⟩ := List.any_eq_true.1 hany
    have hkey : r₀.accountId = accountId ∧ r₀.asset = asset := by simpa using hkey
    have hmap : ∀ rows : List PaperBalanceRecord,
        ((rows.map fun r => if r.accountId = accountId ∧ r.asset = asset then
            { r with free := b.free, used := b.used } else r).filter (·.accountId = accountId)).map
            balanceEntry
          = ((rows.filter (·.accountId = accountId)).map balanceEntry).map fun e =>
            if e.1 = asset then (e.1, ⟨asset, b.free, b.used⟩) else e := by
      intro rows
      induction rows with
      | nil => rfl
      | cons r rows ih =>
        rw [List.map_cons]
        by_cases hacc : r.accountId = accountId
        · by_cases hasset : r.asset = asset
          · rw [if_pos ⟨hacc, hasset⟩, List.filter_cons_of_pos (by simpa using hacc),
              List.filter_cons_of_pos (by simpa using hacc), List.map_cons, List.map_cons,
              List.map_cons, ih]
            simp [balanceEntry, hasset]
          · rw [if_neg (fun h => hasset h.2), List.filter_cons_of_pos (by simpa using hacc),
              List.filter_cons_of_pos (by simpa using hacc), List.map_cons, List.map_cons,
              List.map_cons, ih]
            simp [balanceEntry, hasset]
        · rw [if_neg (fun h => hacc h.1), List.filter_cons_of_neg (by simpa using hacc),
            List.filter_cons_of_neg (by simpa using hacc), ih]
    have hmem : asset ∈ (((rows.filter (·.accountId = accountId)).map balanceEntry).map Prod.fst) :=
      List.mem_map.2 ⟨balanceEntry r₀, List.mem_map.2 ⟨r₀, List.mem_filter.2
        ⟨hr₀, by simpa using hkey.1⟩, rfl⟩, hkey.2⟩
    have := Dict.get?_ofEntries_map ((rows.filter (·.accountId = accountId)).map balanceEntry) asset
      ⟨asset, b.free, b.used⟩ a
    rw [← hmap] at this
    simp only [hmem, and_true] at this
    exact this
  · rw [balancesOf_concat accountId rows ⟨accountId, asset, b.free, b.used⟩ rfl, Dict.get?_set]

/-- After a save the rows hold the ledger's balances, and the old row of any other asset. -/
theorem get?_balancesOf_saveRows (accountId : String) (balances : Dict String Balance)
    (rows : List PaperBalanceRecord) (a : String) :
    (balancesOf accountId (saveRows accountId balances rows)).get? a
      = match balances.get? a with
        | some b => some ⟨a, b.free, b.used⟩
        | none => (balancesOf accountId rows).get? a := by
  obtain ⟨entries, hnodup⟩ := balances
  show (balancesOf accountId (entries.foldl (upsertRow accountId) rows)).get? a
    = match getEntry a entries with
      | some b => some ⟨a, b.free, b.used⟩
      | none => (balancesOf accountId rows).get? a
  induction entries generalizing rows with
  | nil => rfl
  | cons e entries ih =>
    obtain ⟨asset, b⟩ := e
    rw [List.map_cons, List.nodup_cons] at hnodup
    rw [List.foldl_cons, ih _ hnodup.2, getEntry]
    by_cases hasset : asset = a
    · subst hasset
      rw [(getEntry_eq_none_iff asset entries).2 hnodup.1, if_pos rfl]
      simp only
      rw [get?_balancesOf_upsertRow, if_pos rfl]
    · rw [if_neg hasset]
      cases getEntry a entries with
      | some b' => rfl
      | none =>
        simp only
        rw [get?_balancesOf_upsertRow, if_neg (fun h => hasset h.symm)]

/-- A loaded ledger is never empty: it has the account's rows, or the starting balance. -/
theorem ledgerOf_balances_ne (accountId : String) (db : Db) :
    ∃ a, (ledgerOf accountId db).balances.get? a ≠ none := by
  unfold ledgerOf
  simp only
  split
  · exact ⟨"USDT", by simp⟩
  · next hne =>
    rw [Dict.entries_eq_nil_iff] at hne
    exact not_forall.1 hne

theorem get?_balancesOf_of_ledgerOf {accountId : String} {db : Db} {a : String}
    (h : (ledgerOf accountId db).balances.get? a = none) :
    (balancesOf accountId db.balances).get? a = none := by
  unfold ledgerOf at h
  simp only at h
  split at h
  · next hempty => exact (Dict.entries_eq_nil_iff _).1 hempty a
  · exact h

/-- Saving a ledger that lost no asset and loading it again: the balances are the ledger's, and
    the account has rows. -/
theorem ledgerOf_saved {accountId : String} {db : Db} (db' : Db) {l : PaperLedger}
    (hkeys : ∀ a, l.balances.get? a = none → (ledgerOf accountId db).balances.get? a = none)
    (hsaved : db'.balances = saveRows accountId l.balances db.balances) :
    Agree Set.univ (ledgerOf accountId db') l ∧
      (balancesOf accountId db'.balances).entries ≠ [] := by
  have hget : ∀ a, (balancesOf accountId db'.balances).get? a
      = (l.balances.get? a).map fun b => ⟨a, b.free, b.used⟩ := by
    intro a
    rw [hsaved, get?_balancesOf_saveRows]
    cases h : l.balances.get? a with
    | some b => rfl
    | none => exact get?_balancesOf_of_ledgerOf (hkeys a h)
  have hne : (balancesOf accountId db'.balances).entries ≠ [] := by
    intro hempty
    obtain ⟨a, ha⟩ := ledgerOf_balances_ne accountId db
    have hnone := (Dict.entries_eq_nil_iff _).1 hempty a
    rw [hget, Option.map_eq_none_iff] at hnone
    exact ha (hkeys a hnone)
  refine ⟨fun a _ => ?_, hne⟩
  have hbal : (ledgerOf accountId db').balances = balancesOf accountId db'.balances := by
    unfold ledgerOf
    simp only [if_neg hne]
  unfold PaperLedger.free PaperLedger.used PaperLedger.balance
  rw [hbal, hget]
  cases l.balances.get? a <;> exact ⟨rfl, rfl⟩

end PaperLedgerRepository

/-! ## The simulation relation -/

/-- The open order of a ledger under an identifier, without its timestamp. -/
def PaperLedger.openOrder (l : PaperLedger) (id : String) : Option (Order String) :=
  (l.orders.get? id).bind fun o => if o.status = .open then some { o with timestamp := none } else none

/-- The row records a paper order of the account. -/
def IsPaperRow (accountId : String) (r : OrderRecord) : Prop :=
  r.accountId = accountId ∧ r.isPaper = true

/-- The row `r` is the record of an order of the ledger. -/
def IsRowOf (l : PaperLedger) (r : OrderRecord) : Prop :=
  ∃ id order, r.exchangeOrderId = some id ∧ id ≠ "" ∧ l.orders.get? id = some order ∧
    (order.status = .open ∨ order.status = .filled ∨ order.status = .canceled) ∧
    orderOf id r = { order with timestamp := none }

/-- The record of an order stays one when another order of the ledger is written. -/
theorem IsRowOf.set {l l' : PaperLedger} {r : OrderRecord} {key : String} {written : Order String}
    (h : IsRowOf l r) (horders : l'.orders = l.orders.set key written)
    (hne : r.exchangeOrderId ≠ some key) : IsRowOf l' r := by
  obtain ⟨id, order, hid, hnonempty, hget, hstatus, heq⟩ := h
  have hkey : id ≠ key := fun he => hne (he ▸ hid)
  refine ⟨id, order, hid, hnonempty, ?_, hstatus, heq⟩
  rw [horders, Dict.get?_set_of_ne _ _ hkey, hget]

/-- A row is added whose value of `f` no other row has. -/
theorem inj_append {β : Type} {P : OrderRecord → Prop} {rows : List OrderRecord} {new : OrderRecord}
    {f : OrderRecord → β}
    (h : ∀ r ∈ rows, ∀ r' ∈ rows, P r → P r' → f r = f r' → r = r')
    (hnew : ∀ r ∈ rows, P r → f r ≠ f new) :
    ∀ r ∈ rows ++ [new], ∀ r' ∈ rows ++ [new], P r → P r' → f r = f r' → r = r' := by
  intro r hr r' hr' hP hP' heq
  rcases List.mem_append.1 hr with hr | hr
  · rcases List.mem_append.1 hr' with hr' | hr'
    · exact h r hr r' hr' hP hP' heq
    · rw [List.mem_singleton.1 hr'] at heq
      exact absurd heq (hnew r hr hP)
  · rw [List.mem_singleton.1 hr] at heq ⊢
    rcases List.mem_append.1 hr' with hr' | hr'
    · exact absurd heq.symm (hnew r' hr' hP')
    · exact (List.mem_singleton.1 hr').symm

/-- The tables hold the ledger `l` of the account: its balances, and one row for each order. -/
structure Mirrors (accountId : String) (db : Db) (l : PaperLedger) : Prop where
  balances : Agree Set.univ (ledgerOf accountId db) l
  row : ∀ r ∈ db.orders, IsPaperRow accountId r → IsRowOf l r
  listed : ∀ id, l.orders.get? id ≠ none →
    ∃ r ∈ db.orders, IsPaperRow accountId r ∧ r.exchangeOrderId = some id
  id_inj : ∀ r ∈ db.orders, ∀ r' ∈ db.orders, IsPaperRow accountId r → IsPaperRow accountId r' →
    r.id = r'.id → r = r'
  exchangeId_inj : ∀ r ∈ db.orders, ∀ r' ∈ db.orders, IsPaperRow accountId r →
    IsPaperRow accountId r' → r.exchangeOrderId = r'.exchangeOrderId → r = r'

namespace Mirrors

variable {acc : String} {db : Db} {l : PaperLedger}

/-- Entries of `_load_open_orders` come from open rows of the account. -/
theorem mem_openEntries {orders : List OrderRecord} {id : String} {o : Order String}
    (h : (id, o) ∈ (orders.filter (isOpenPaper acc)).filterMap orderEntry) :
    ∃ r ∈ orders, IsPaperRow acc r ∧ (r.status = .open ∨ r.status = .partiallyFilled) ∧
      r.exchangeOrderId = some id ∧ o = orderOf id r := by
  obtain ⟨r, hr, he⟩ := List.mem_filterMap.1 h
  obtain ⟨hr, hopen⟩ := List.mem_filter.1 hr
  have hopen : r.accountId = acc ∧ r.isPaper ∧ (r.status = .open ∨ r.status = .partiallyFilled) := by
    simpa [isOpenPaper] using hopen
  unfold orderEntry at he
  split at he
  · exact absurd he (by simp)
  · next id' hid =>
    split at he
    · exact absurd he (by simp)
    · obtain ⟨rfl, rfl⟩ := Prod.mk.inj (Option.some.inj he)
      exact ⟨r, hr, ⟨hopen.1, hopen.2.1⟩, hopen.2.2, hid, rfl⟩

/-- The open orders that are loaded are those of the ledger. -/
theorem loaded (h : Mirrors acc db l) (id : String) :
    (ledgerOf acc db).orders.get? id = l.openOrder id := by
  show (loadOpenOrders acc db.orders).get? id = _
  unfold loadOpenOrders PaperLedger.openOrder
  cases ho : l.orders.get? id with
  | none =>
    refine (Dict.get?_ofEntries_eq_none_iff _ _).2 ?_
    rintro ⟨id', o⟩ he rfl
    obtain ⟨r, hr, hacc, -, hid, -⟩ := mem_openEntries he
    obtain ⟨id₁, order, hid₁, -, hget, -⟩ := h.row r hr hacc
    obtain rfl := Option.some.inj (hid.symm.trans hid₁)
    rw [hget] at ho
    exact absurd ho (by simp)
  | some o =>
    obtain ⟨r, hr, hacc, hid⟩ := h.listed id (by rw [ho]; simp)
    obtain ⟨id₁, order, hid₁, hne, hget, hstatus, heq⟩ := h.row r hr hacc
    obtain rfl := Option.some.inj (hid.symm.trans hid₁)
    obtain rfl := Option.some.inj (ho.symm.trans hget)
    have hsame : r.status = o.status := congrArg Order.status heq
    rw [Option.bind_some]
    split
    · next hopen =>
      refine Dict.get?_ofEntries_of_unique (List.mem_filterMap.2 ⟨r, List.mem_filter.2 ⟨hr, ?_⟩, ?_⟩)
        fun o' ho' => ?_
      · simp [isOpenPaper, hacc.1, hacc.2, hsame, hopen]
      · simp [orderEntry, hid, hne, heq]
      · obtain ⟨r', hr', hacc', -, hid', rfl⟩ := mem_openEntries ho'
        rw [h.exchangeId_inj r' hr' r hr hacc' hacc (hid'.trans hid.symm), heq]
    · next hclosed =>
      refine (Dict.get?_ofEntries_eq_none_iff _ _).2 ?_
      rintro ⟨id', o'⟩ he rfl
      obtain ⟨r', hr', hacc', hopen, hid', -⟩ := mem_openEntries he
      rw [h.exchangeId_inj r' hr' r hr hacc' hacc (hid'.trans hid.symm), hsame] at hopen
      rcases hstatus with hs | hs | hs
      · exact hclosed hs
      · rw [hs] at hopen
        exact absurd hopen (by simp)
      · rw [hs] at hopen
        exact absurd hopen (by simp)

/-- An account without rows has a fresh ledger. -/
theorem new (hbalances : ∀ b ∈ db.balances, b.accountId ≠ acc)
    (horders : ∀ o ∈ db.orders, o.accountId ≠ acc) :
    Mirrors acc db (PaperLedger.new "USDT" 100000) := by
  have hempty : (balancesOf acc db.balances).entries = [] := by
    refine (Dict.entries_eq_nil_iff _).2 fun a => ?_
    exact (get?_balancesOf_eq_none_iff _ _ _).2 fun b hb h => hbalances b hb h.1
  refine ⟨fun a _ => ?_, fun r hr hacc => absurd hacc.1 (horders r hr), fun id h => absurd rfl h,
    fun r hr _ _ hacc => absurd hacc.1 (horders r hr),
    fun r hr _ _ hacc => absurd hacc.1 (horders r hr)⟩
  unfold ledgerOf
  simp only [if_pos hempty]
  exact ⟨rfl, rfl⟩

/-- Placing an order keeps the relation: the same call succeeds on the long-lived ledger. -/
theorem place [DecimalContext] {env : Env} {limits : RiskLimits} {r : PlaceOrder}
    {account : ExchangeAccount}
    {p : Placement} {log log' : List Event} (h : Mirrors acc db l) (hacc : account.id = acc)
    (hp : p.Of env limits r {} (ledgerOf acc db) log log')
    (hrecord : ∀ o ∈ db.orders, o.id ≠ env.recordId)
    (hfresh : l.orders.get? ("paper-" ++ env.orderHex) = none) :
    Mirrors acc (p.commit env r account db) ((PaperCall.create (.ok p.ticker)
      ("paper-" ++ env.orderHex) (r.request env)).run {} l).2 := by
  obtain ⟨hsame, hagree⟩ := PaperAdapter.createOrder_agree (p := {}) ⟨fun _ => .ok p.ticker⟩
    ("paper-" ++ env.orderHex) (Set.subset_univ (assetsOf _ (r.request env).symbol)) h.balances
  rw [hp.created] at hsame hagree
  obtain ⟨hid, hpaper, hstatus⟩ := PaperAdapter.createOrder_order hp.created
  have horders : ((PaperCall.create (.ok p.ticker) ("paper-" ++ env.orderHex)
      (r.request env)).run {} l).2.orders = l.orders.set ("paper-" ++ env.orderHex) p.order :=
    PaperAdapter.createOrder_orders (Prod.ext hsame rfl)
  have hkeys := PaperAdapter.run_balances_none {}
    (.create (.ok p.ticker) ("paper-" ++ env.orderHex) (r.request env)) (ledgerOf acc db)
  rw [show PaperCall.run {} (.create (.ok p.ticker) ("paper-" ++ env.orderHex) (r.request env))
    (ledgerOf acc db) = _ from hp.created] at hkeys
  obtain ⟨hsaved, -⟩ := ledgerOf_saved (p.commit env r account db) hkeys
    (by rw [Placement.commit, hacc])
  have hnew : IsRowOf ((PaperCall.create (.ok p.ticker) ("paper-" ++ env.orderHex)
      (r.request env)).run {} l).2 (p.record env r account) := by
    refine ⟨"paper-" ++ env.orderHex, p.order, congrArg some hid, ?_, ?_, ?_, ?_⟩
    · simp
    · rw [horders, Dict.get?_set_self]
    · exact hstatus.imp_right Or.inl
    · rw [← hid]
      simp [PaperLedgerRepository.orderOf, Placement.record, TradingService.recordOf,
        Order.ofPaper, hpaper]
  have hold : ∀ o ∈ db.orders, IsPaperRow acc o →
      o.exchangeOrderId ≠ some ("paper-" ++ env.orderHex) := by
    intro o ho hoacc heq
    obtain ⟨id, order, hid', -, hget, -⟩ := h.row o ho hoacc
    obtain rfl := Option.some.inj (heq.symm.trans hid')
    rw [hget] at hfresh
    exact absurd hfresh (by simp)
  have hexch : (p.record env r account).exchangeOrderId = some ("paper-" ++ env.orderHex) :=
    congrArg some hid
  constructor
  · exact fun a ha => ⟨(hsaved a ha).1.trans (hagree a ha).1, (hsaved a ha).2.trans (hagree a ha).2⟩
  · intro o ho hoacc
    rcases List.mem_append.1 ho with ho | ho
    · exact (h.row o ho hoacc).set horders (hold o ho hoacc)
    · rw [List.mem_singleton.1 ho]
      exact hnew
  · intro id hget
    rw [horders, Dict.get?_set] at hget
    split at hget
    · next he =>
      exact ⟨p.record env r account, List.mem_append_right _ (List.mem_singleton.2 rfl),
        ⟨hacc, hpaper⟩, by rw [he]; exact hexch⟩
    · obtain ⟨o, ho, hoacc, hoid⟩ := h.listed id hget
      exact ⟨o, List.mem_append_left _ ho, hoacc, hoid⟩
  · exact inj_append h.id_inj fun o ho _ => hrecord o ho
  · exact inj_append h.exchangeId_inj fun o ho hoacc => hexch ▸ hold o ho hoacc

/-- A row that is not finished is the record of an open order, which is loaded. -/
theorem open_row (h : Mirrors acc db l) {record : OrderRecord} (hmem : record ∈ db.orders)
    (hacc : IsPaperRow acc record)
    (hlive : ¬ (record.status = .canceled ∨ record.status = .filled)) :
    ∃ id order, record.exchangeOrderId = some id ∧ id ≠ "" ∧ l.orders.get? id = some order ∧
      order.status = .open ∧ orderOf id record = { order with timestamp := none } ∧
      (ledgerOf acc db).orders.get? id = some { order with timestamp := none } := by
  obtain ⟨id, order, hid, hne, hget, hstatus, heq⟩ := h.row record hmem hacc
  have hsame : record.status = order.status := congrArg Order.status heq
  have hopen : order.status = .open := by
    rcases hstatus with hs | hs | hs
    · exact hs
    · exact absurd (Or.inr (hsame.trans hs)) hlive
    · exact absurd (Or.inl (hsame.trans hs)) hlive
  refine ⟨id, order, hid, hne, hget, hopen, heq, ?_⟩
  rw [h.loaded, PaperLedger.openOrder, hget, Option.bind_some, if_pos hopen]

/-- Writing a status to the row of `record` is the only change to the rows of the account. -/
theorem mem_setStatus (h : Mirrors acc db l) {record : OrderRecord} (hmem : record ∈ db.orders)
    (hacc : IsPaperRow acc record) {status : OrderStatus} {o : OrderRecord}
    (ho : o ∈ TradingService.setStatus record.id status db.orders) (hoacc : IsPaperRow acc o) :
    o = { record with status } ∨ (o ∈ db.orders ∧ o.id ≠ record.id) := by
  obtain ⟨o₀, ho₀, rfl⟩ := List.mem_map.1 ho
  by_cases hid : o₀.id = record.id
  · simp only [if_pos hid] at hoacc ⊢
    rw [h.id_inj o₀ ho₀ record hmem hoacc hacc hid]
    exact Or.inl rfl
  · simp only [if_neg hid]
    exact Or.inr ⟨ho₀, hid⟩

/-- A status is written to the row of `record`, whose value of `f` no other row has. -/
theorem inj_setStatus {β : Type} (h : Mirrors acc db l) {record : OrderRecord}
    (hmem : record ∈ db.orders) (hacc : IsPaperRow acc record) {status : OrderStatus}
    {f : OrderRecord → β} (hf : ∀ r ∈ db.orders, ∀ r' ∈ db.orders, IsPaperRow acc r →
      IsPaperRow acc r' → f r = f r' → r = r')
    (hother : ∀ r ∈ db.orders, IsPaperRow acc r → r.id ≠ record.id → f r ≠ f { record with status }) :
    ∀ r ∈ TradingService.setStatus record.id status db.orders,
      ∀ r' ∈ TradingService.setStatus record.id status db.orders, IsPaperRow acc r →
        IsPaperRow acc r' → f r = f r' → r = r' := by
  intro r hr r' hr' hracc hracc' heq
  rcases h.mem_setStatus hmem hacc hr hracc with rfl | ⟨hr, hid⟩
  · rcases h.mem_setStatus hmem hacc hr' hracc' with rfl | ⟨hr', hid'⟩
    · rfl
    · exact absurd heq.symm (hother r' hr' hracc' hid')
  · rcases h.mem_setStatus hmem hacc hr' hracc' with rfl | ⟨hr', hid'⟩
    · exact absurd heq (hother r hr hracc hid)
    · exact hf r hr r' hr' hracc hracc' heq

/-- Cancelling keeps the relation, and never takes the fallback for an unknown order. -/
theorem cancel [DecimalContext] (h : Mirrors acc db l) (userId : String) {record : OrderRecord}
    (hmem : record ∈ db.orders) (hacc : IsPaperRow acc record)
    (hlive : ¬ (record.status = .canceled ∨ record.status = .filled)) {status : OrderStatus}
    {l₁ : PaperLedger} {calls : List PaperCall}
    (hout : CancelOutcome {} record (ledgerOf acc db) status l₁ calls) :
    ∃ id, record.exchangeOrderId = some id ∧ calls = [.cancel id] ∧
      ((PaperCall.cancel id).run {} (ledgerOf acc db)).2 = l₁ ∧
      Mirrors acc (cancelCommit userId acc record status l₁ db)
        ((PaperCall.cancel id).run {} l).2 := by
  obtain ⟨id, order, hid, hne, hget, hopen, heq, hload⟩ := h.open_row hmem hacc hlive
  obtain ⟨l₂, l', hrun, hrun', hagree, -, horders⟩ := PaperAdapter.cancelOrder_agree (p := {}) hload
    hget hopen hopen rfl h.balances
  cases hout with
  | unnamed hnone =>
    rcases hnone with hnone | hnone
    · exact absurd (hid.symm.trans hnone) (by simp)
    · exact absurd (Option.some.inj (hid.symm.trans hnone)) hne
  | unknown id' hid' _ hnone =>
    obtain rfl := Option.some.inj (hid.symm.trans hid')
    rw [hload] at hnone
    exact absurd hnone (by simp)
  | answered id' order' _ hid' _ hanswer =>
    obtain rfl := Option.some.inj (hid.symm.trans hid')
    obtain ⟨ho', rfl⟩ := Prod.mk.inj (hrun.symm.trans hanswer)
    obtain rfl := Except.ok.inj ho'
    refine ⟨id, hid, rfl, congrArg Prod.snd hrun, ?_⟩
    rw [show (PaperCall.cancel id).run {} l = _ from hrun']
    have hkeys := PaperAdapter.run_balances_none {} (.cancel id) (ledgerOf acc db)
    rw [show PaperCall.run {} (.cancel id) (ledgerOf acc db) = _ from hrun] at hkeys
    obtain ⟨hsaved, -⟩ := ledgerOf_saved
      (cancelCommit userId acc record .canceled l₂ db) hkeys rfl
    have hother : ∀ o ∈ db.orders, IsPaperRow acc o → o.id ≠ record.id →
        o.exchangeOrderId ≠ some id := by
      intro o ho hoacc hoid hoex
      exact hoid (congrArg OrderRecord.id
        (h.exchangeId_inj o ho record hmem hoacc hacc (hoex.trans hid.symm)))
    constructor
    · exact fun a ha =>
        ⟨(hsaved a ha).1.trans (hagree a ha).1, (hsaved a ha).2.trans (hagree a ha).2⟩
    · intro o ho hoacc
      obtain rfl | ⟨ho, hoid⟩ := h.mem_setStatus hmem hacc ho hoacc
      · refine ⟨id, _, hid, hne, by rw [horders, Dict.get?_set_self], Or.inr (Or.inr rfl), ?_⟩
        have hpaper : order.isPaper = true := (congrArg Order.isPaper heq).symm
        show { orderOf id record with status := .canceled } = _
        rw [heq]
        simp only [hpaper]
      · exact (h.row o ho hoacc).set horders (hother o ho hoacc hoid)
    · intro id' hget'
      have hold : l.orders.get? id' ≠ none := by
        rw [horders, Dict.get?_set] at hget'
        split at hget'
        · next he => rw [he, hget]; simp
        · exact hget'
      obtain ⟨o, ho, hoacc, hoid⟩ := h.listed id' hold
      refine ⟨_, List.mem_map.2 ⟨o, ho, rfl⟩, ?_, ?_⟩ <;> split <;> first | exact hoacc | exact hoid
    · exact h.inj_setStatus hmem hacc h.id_inj fun _ _ _ hoid => hoid
    · exact h.inj_setStatus hmem hacc h.exchangeId_inj fun o ho hoacc hoid heq =>
        hother o ho hoacc hoid (heq.trans hid)

end Mirrors

/-! ## Runs -/

/-- The calls on the ledger of an account, out of the calls of all paper adapters. -/
def callsOf (accountId : String) (calls : List (String × PaperCall)) : List PaperCall :=
  calls.filterMap fun c => if c.1 = accountId then some c.2 else none

/-- The calls a request made on the ledger of the account, if the request succeeded. -/
def committedCalls (accountId : String) (w : World) (request : Env × Trade) : List PaperCall :=
  match getSession request.1 (request.2.run request.1) w with
  | (.ok _, w') => callsOf accountId (paperCalls (w'.log.drop w.log.length))
  | (.error _, _) => []

/-- The calls of the successful requests of a run. -/
def operations (accountId : String) : World → List (Env × Trade) → List PaperCall
  | _, [] => []
  | w, request :: rest =>
    committedCalls accountId w request ++ operations accountId (serveTrade w request) rest

/-- What holds between the tables and the calls carried out so far, `drawn` being the identifiers
    the requests drew. -/
structure Durable (accountId : String) (drawn : List String) (db : Db) (calls : List PaperCall) :
    Prop where
  mirrors : Mirrors accountId db (PaperCall.runAll {} (PaperLedger.new "USDT" 100000) calls)
  paper : ∀ r ∈ db.orders, r.accountId = accountId → r.isPaper = true
  started : calls ≠ [] → (balancesOf accountId db.balances).entries ≠ []
  known : ∀ id, (PaperCall.runAll {} (PaperLedger.new "USDT" 100000) calls).orders.get? id ≠ none →
    ∃ n ∈ drawn, id = "paper-" ++ n

/-- Whatever holds of the identifiers recorded and of those a call draws, holds of the identifiers
    recorded after the call. -/
theorem PaperCall.run_known [DecimalContext] {p : PaperAdapter} (call : PaperCall) {l : PaperLedger}
    {P : String → Prop} (h : ∀ id, l.orders.get? id ≠ none → P id)
    (hdrawn : ∀ id ∈ drawnIds [call], P id) :
    ∀ id, (call.run p l).2.orders.get? id ≠ none → P id := by
  intro id hid
  by_cases hcall : id ∈ drawnIds [call]
  · exact hdrawn id hcall
  · exact h id fun hnone => hid (run_get?_of_not_drawn hcall hnone)

namespace Durable

variable {acc : String} {drawn : List String} {w : World} {calls : List PaperCall}

/-- An account without rows is a fresh ledger. -/
theorem new {db : Db} (hbalances : ∀ b ∈ db.balances, b.accountId ≠ acc)
    (horders : ∀ o ∈ db.orders, o.accountId ≠ acc) : Durable acc [] db [] :=
  ⟨Mirrors.new hbalances horders, fun r hr hacc => absurd hacc (horders r hr),
    fun h => absurd rfl h, fun _ h => absurd rfl h⟩

theorem weaken (h : Durable acc drawn w.db calls) (n : String) :
    Durable acc (drawn ++ [n]) w.db calls :=
  ⟨h.mirrors, h.paper, h.started, fun id hid =>
    (h.known id hid).imp fun _ hm => ⟨List.mem_append_left _ hm.1, hm.2⟩⟩

/-- One more call on the long-lived ledger. -/
theorem runAll_concat (call : PaperCall) :
    PaperCall.runAll {} (PaperLedger.new "USDT" 100000) (calls ++ [call])
      = (call.run {} (PaperCall.runAll {} (PaperLedger.new "USDT" 100000) calls)).2 := by
  simp only [PaperCall.runAll, List.foldl_append, List.foldl_cons, List.foldl_nil]

/-- What one call on the account's ledger, saved, does to the relation. -/
theorem step (h : Durable acc drawn w.db calls) {call : PaperCall} {db' : Db} {n : String}
    (hmirrors : Mirrors acc db'
      (call.run {} (PaperCall.runAll {} (PaperLedger.new "USDT" 100000) calls)).2)
    (hpaper : ∀ r ∈ db'.orders, r.accountId = acc → r.isPaper = true)
    (hsaved : db'.balances
      = saveRows acc (call.run {} (ledgerOf acc w.db)).2.balances w.db.balances)
    (hdrawn : ∀ id ∈ PaperCall.drawnIds [call], id = "paper-" ++ n) :
    Durable acc (drawn ++ [n]) db' (calls ++ [call]) := by
  refine ⟨by rw [runAll_concat]; exact hmirrors, hpaper, fun _ => ?_, fun id hid => ?_⟩
  · exact (ledgerOf_saved _ (PaperAdapter.run_balances_none {} call _) hsaved).2
  · rw [runAll_concat] at hid
    exact PaperCall.run_known _ (fun id hid => (h.weaken n).known id hid)
      (fun id hid => ⟨n, by simp, hdrawn id hid⟩) id hid

theorem callsOf_new {w w' : World} {new : List Event} (cs : List PaperCall)
    (hlog : w'.log = w.log ++ new) (hnew : paperCalls new = cs.map (acc, ·)) :
    callsOf acc (paperCalls (w'.log.drop w.log.length)) = cs := by
  rw [hlog, List.drop_left, hnew, callsOf, List.filterMap_map]
  simp

/-- The step: a request on the account, successful or not, keeps the relation. -/
theorem serve (h : Durable acc drawn w.db calls) {env : Env} {t : Trade}
    (hon : ∀ account, t.account? w.db = some account →
      account.id = acc ∧ isPaperEffective w.settings account = true)
    (hfresh : env.orderHex ∉ drawn) :
    Durable acc (drawn ++ [env.orderHex]) (serveTrade w (env, t)).db
      (calls ++ committedCalls acc w (env, t)) := by
  unfold committedCalls serveTrade
  obtain ⟨record, w', hrun, hserve⟩ | ⟨e, w', hserve, hdb⟩ := getSession_cases env (t.run env) w
  · rw [hserve]
    cases t with
    | place limits r =>
      obtain ⟨account, p, hacc, hp, -, hrecord, -, hdb, new, hlog, hnew⟩ :=
        TradingService.placeOrder_paper_ok (fun account ha => (hon account ha).2) hrun
      obtain ⟨rfl, -⟩ := hon account hacc
      have hfree : (PaperCall.runAll {} (PaperLedger.new "USDT" 100000) calls).orders.get?
          ("paper-" ++ env.orderHex) = none := by
        by_contra hsome
        obtain ⟨n, hn, heq⟩ := h.known _ hsome
        exact hfresh ((String.append_right_inj "paper-").1 heq ▸ hn)
      simp only [callsOf_new [_] hlog hnew, hdb]
      refine h.step (h.mirrors.place rfl hp hrecord hfree) (fun o ho hoacc => ?_) ?_
        (by simp [PaperCall.drawnIds])
      · rcases List.mem_append.1 ho with ho | ho
        · exact h.paper o ho hoacc
        · rw [List.mem_singleton.1 ho]
          exact (PaperAdapter.createOrder_order hp.created).2.1
      rw [show (PaperCall.create _ _ _).run {} (ledgerOf account.id w.db) = _ from hp.created]
      rfl
    | cancel userId orderId =>
      obtain ⟨record', hfind, ⟨-, -, rfl⟩ | ⟨hlive, account, status, l', calls', hacc, hrecord, hout, -, -,
        hdb, new, hlog, hnew⟩⟩ := TradingService.cancelOrder_paper_ok
          (fun account ha => (hon account ha).2) hrun
      · -- The order was finished already: the request changed and called nothing.
        simp only [List.drop_length]
        exact (List.append_nil calls).symm ▸ h.weaken _
      · obtain ⟨rfl, -⟩ := hon account hacc
        have hmem := List.mem_of_find?_eq_some hfind
        obtain ⟨id, -, rfl, rfl, hmirrors⟩ := h.mirrors.cancel userId
          hmem ⟨hrecord.symm, h.paper record' hmem hrecord.symm⟩ hlive hout
        simp only [callsOf_new _ hlog hnew, hdb]
        refine h.step hmirrors (fun o ho hoacc => ?_) rfl (by simp [PaperCall.drawnIds])
        obtain ⟨o₀, ho₀, -, -, hacc₀, hpaper₀⟩ := TradingService.mem_setStatus ho
        exact hpaper₀.trans (h.paper o₀ ho₀ (hacc₀.symm.trans hoacc))
  · rw [hserve]
    simp only [hdb, List.append_nil]
    exact h.weaken _

/-- The run: by induction over the requests, the identifiers drawn so far being disjoint from
    those still to come. -/
theorem run : ∀ (requests : List (Env × Trade)) (drawn : List String) (w : World)
    (calls : List PaperCall), Durable acc drawn w.db calls →
    Guarded serveTrade (fun w request => ∀ account, request.2.account? w.db = some account →
      account.id = acc ∧ isPaperEffective w.settings account = true) w requests →
    (drawn ++ requests.map (·.1.orderHex)).Nodup →
    Durable acc (drawn ++ requests.map (·.1.orderHex)) (requests.foldl serveTrade w).db
      (calls ++ operations acc w requests) := by
  intro requests
  induction requests with
  | nil =>
    intro drawn w calls h _ _
    simpa [operations] using h
  | cons request rest ih =>
    intro drawn w calls h hon hnodup
    rw [List.map_cons, ← List.singleton_append, ← List.append_assoc] at hnodup ⊢
    have hfresh : request.1.orderHex ∉ drawn := fun hmem =>
      List.disjoint_of_nodup_append (List.nodup_append.1 hnodup).1 hmem (by simp)
    rw [operations, ← List.append_assoc, List.foldl_cons]
    exact ih _ _ _ (h.serve hon.1 hfresh) hon.2 hnodup

end Durable

/-- For every run of requests on one account that trades on paper, starting without rows, what is
    loaded from the tables is one ledger on which the engine carried out the successful
    operations: the same balances and open orders, the starting balance granted once. And an order
    that is not finished can always be cancelled on the loaded ledger: the fallback for an unknown
    order is not reached. Order identifiers are drawn once. -/
theorem durable_ledger_refines (acc : String) (w : World) (requests : List (Env × Trade))
    (hbalances : ∀ b ∈ w.db.balances, b.accountId ≠ acc)
    (horders : ∀ o ∈ w.db.orders, o.accountId ≠ acc)
    (hon : Guarded serveTrade (fun w request => ∀ account,
      request.2.account? w.db = some account →
        account.id = acc ∧ isPaperEffective w.settings account = true) w requests)
    (hids : (requests.map (·.1.orderHex)).Nodup) :
    let db := (requests.foldl serveTrade w).db
    let calls := operations acc w requests
    let l := PaperCall.runAll {} (PaperLedger.new "USDT" 100000) calls
    (∀ a, (ledgerOf acc db).free a = l.free a ∧ (ledgerOf acc db).used a = l.used a) ∧
      (∀ id, (ledgerOf acc db).orders.get? id = l.openOrder id) ∧
      (calls ≠ [] → (balancesOf acc db.balances).entries ≠ []) ∧
      ∀ record ∈ db.orders, record.accountId = acc →
        ¬ (record.status = .canceled ∨ record.status = .filled) →
        ∃ id order l', record.exchangeOrderId = some id ∧ id ≠ "" ∧
          ({} : PaperAdapter).cancelOrder id (ledgerOf acc db) = (.ok order, l') := by
  intro db calls l
  have h := Durable.run requests [] w [] (Durable.new hbalances horders) hon (by simpa using hids)
  rw [List.nil_append] at h
  refine ⟨fun a => h.mirrors.balances a (Set.mem_univ a), h.mirrors.loaded, h.started, ?_⟩
  intro record hmem hacc hlive
  obtain ⟨id, order, hid, hne, hget, hopen, -, hload⟩ :=
    h.mirrors.open_row hmem ⟨hacc, h.paper record hmem hacc⟩ hlive
  obtain ⟨l₁, -, hrun, -⟩ := PaperAdapter.cancelOrder_agree (p := {}) hload hload hopen hopen rfl
    (Agree.refl _ _)
  exact ⟨id, _, l₁, hid, hne, hrun⟩

/-- A bid that rests and is cancelled by the next request. -/
theorem durable_ledger_sample :
    let requests := [(Env.quiet 100 "1", Trade.sampleBid), (Env.quiet 100 "2", .cancel "u" "1")]
    let w := World.boot {} (Db.oneLiveAccount "kraken")
    let db := (requests.foldl serveTrade w).db
    let l := PaperCall.runAll {} (PaperLedger.new "USDT" 100000) (operations "a" w requests)
    (operations "a" w requests).length = 2 ∧
      (∀ a, (ledgerOf "a" db).free a = l.free a ∧ (ledgerOf "a" db).used a = l.used a) ∧
      ∀ id, (ledgerOf "a" db).orders.get? id = l.openOrder id := by
  intro requests w db l
  have hpolicy : ∀ (w : World) account, w.settings = {} →
      isPaperEffective w.settings account = true := by
    intro w account hw
    simp [hw, isPaperEffective]
  have hone : ∀ (w : World) (t : Trade) account, (∀ x ∈ w.db.accounts, x.id = "a") →
      t.account? w.db = some account → account.id = "a" := by
    intro w t account hall hacc
    exact hall account (Trade.account?_mem hacc)
  have h := durable_ledger_refines "a" w requests (by simp [w, World.boot, Db.oneLiveAccount])
    (by simp [w, World.boot, Db.oneLiveAccount])
    ⟨fun account hacc => ⟨hone _ _ account (by decide +kernel) hacc, hpolicy _ account rfl⟩,
      fun account hacc => ⟨hone _ _ account (by decide +kernel) hacc,
        hpolicy _ account (by decide +kernel)⟩, trivial⟩ (by decide)
  exact ⟨by decide +kernel, h.1, h.2.1⟩

end TradingHub
