import TradingHub.Library.LockedSection
import TradingHub.Services.Concurrency
import TradingHub.Services.TerminalStatuses

set_option autoImplicit false

/-! # Concurrent cancellations on one paper account

`cancel_order` requests on the same paper account, interleaved statement by statement on the order
rows and the balance rows of the account. Each reads the record of its order without a lock and
goes on if it is not finished; locks the balance rows; loads the open orders; lets the engine
cancel on its copy; writes the status, and saves the balances.

Several may have read the same order as open. Those that get the lock after the first has committed
do not find the order among the open ones any more, the engine does not know it, and the fallback
leaves the balances alone: the reservation is released once. -/

namespace TradingHub

open Library Library.LockedSection PaperLedgerRepository AccountService TradingService

/-! ## The transactions -/

/-- The body of `cancel_order` as far as it concerns the ledger: the status to write. -/
def cancelBody (record : OrderRecord) : Act AppError PaperLedger OrderStatus :=
  match record.exchangeOrderId with
  | none => return .canceled
  | some exchangeOrderId =>
    if exchangeOrderId = "" then return .canceled
    else
      Act.tryExcept
        (do
          let result ← PaperAdapter.cancelOrder {} exchangeOrderId
          return result.status)
        (fun e => if e.isNotFound then return .canceled else Act.raise e)

/-- What cancelling comes to on a ledger is the run of the body. -/
theorem CancelOutcome.body {record : OrderRecord} {l l' : PaperLedger} {status : OrderStatus}
    {calls : List PaperCall} (h : CancelOutcome {} record l status l' calls) :
    cancelBody record l = (.ok status, l') := by
  unfold cancelBody
  cases h with
  | unnamed hnone =>
    rcases hnone with hnone | hempty
    · rw [hnone]
      rfl
    · rw [hempty]
      rfl
  | unknown id hid hne hget =>
    have hraise : PaperAdapter.cancelOrder {} id l
        = (.error (.notFound ("Paper order " ++ id ++ " not found.")), l) := by
      rw [PaperAdapter.cancelOrder_run, hget]
    rw [hid]
    simp only [if_neg hne, Act.tryExcept]
    rw [Act.bind_of_error hraise]
    rfl
  | answered id order _ hid hne hrun =>
    rw [hid]
    simp only [if_neg hne, Act.tryExcept]
    rw [Act.bind_of_ok hrun]
    rfl

/-- The reservation of the order of a row; it does not depend on the identifier. -/
def reservedBy (record : OrderRecord) : String × ℚ :=
  ({} : PaperAdapter).reservation (orderOf record.id record)

/-- Cancelling an open order whose reservation is covered moves it from used to free. -/
theorem cancelBody_releases {record : OrderRecord} {l : PaperLedger} {id : String}
    (hid : record.exchangeOrderId = some id) (hne : id ≠ "")
    (hget : l.orders.get? id = some (orderOf id record))
    (hlive : ¬ (record.status = .canceled ∨ record.status = .filled))
    (hle : (reservedBy record).2 ≤ l.used (reservedBy record).1) :
    ∃ l', cancelBody record l = (.ok .canceled, l') ∧ ∀ a, l'.balances.get? a =
      if a = (reservedBy record).1
      then some ⟨a, l.free a + (reservedBy record).2, l.used a - (reservedBy record).2⟩
      else l.balances.get? a := by
  have hopen : ¬ ((orderOf id record).status = .filled ∨ (orderOf id record).status = .canceled) :=
    fun hst => hlive hst.symm
  have hmin : min (({} : PaperAdapter).reservation (orderOf id record)).2
      (l.used (({} : PaperAdapter).reservation (orderOf id record)).1) = (reservedBy record).2 :=
    min_eq_left hle
  have hrun : PaperAdapter.cancelOrder {} id l
      = (.ok { orderOf id record with status := .canceled, isPaper := true },
        (l.hold (reservedBy record).1 (-(reservedBy record).2)).setOrder id
          { orderOf id record with status := .canceled, isPaper := true }) := by
    rw [PaperAdapter.cancelOrder_run, hget]
    simp only [if_neg hopen, hmin]
    rfl
  refine ⟨_, (CancelOutcome.answered id _ _ hid hne hrun).body, fun a => ?_⟩
  show (l.hold (reservedBy record).1 (-(reservedBy record).2)).balances.get? a = _
  rw [PaperLedger.hold, PaperLedger.setBalance, Dict.get?_set]
  split
  · next ha => rw [ha, sub_neg_eq_add, ← sub_eq_add_neg, DecimalContext.fix_exact,
      DecimalContext.fix_exact]
  · rfl

/-- The ledger a session works on: the rows it has locked and the open orders it has read. -/
def ledgerOfTables (accountId : String) (rows : Dict String PaperRow) (orders : List OrderRecord) :
    PaperLedger :=
  ⟨"USDT", 100000, balancesOfRows rows, loadOpenOrders accountId orders⟩

/-- The transactions of `cancel_order` on an account; a query is the user and the order. A record
    that is finished is returned as it is. -/
def paperCancels (accountId : String) :
    Program String PaperRow (List OrderRecord) (String × String) OrderRecord where
  rows :=
    { compute := fun (record, orders) rows =>
        ((cancelBody record (ledgerOfTables accountId rows orders)).1.toOption.isSome,
          rowsOfLedger (cancelBody record (ledgerOfTables accountId rows orders)).2)
      patch := paperOrders.patch }
  read query orders :=
    (orders.find? fun o => o.id = query.2 ∧ o.userId = query.1).filter fun record =>
      record.accountId = accountId ∧ ¬ (record.status = .canceled ∨ record.status = .filled)
  alter := fun (record, orders) rows committed =>
    match (cancelBody record (ledgerOfTables accountId rows orders)).1 with
    | .ok status => setStatus record.id status committed
    | .error _ => committed

/-! ## Tables that hold the reservations -/

/-- What an order row has reserved in `asset`: its reservation while `_load_open_orders` selects
    it. -/
def heldBy (accountId : String) (record : OrderRecord) (asset : String) : ℚ :=
  if isOpenPaper accountId record ∧ (reservedBy record).1 = asset then (reservedBy record).2 else 0

/-- The record is of the account, and not finished. -/
def Cancelable (accountId : String) (orders : List OrderRecord) (record : OrderRecord) : Prop :=
  record ∈ orders ∧ record.accountId = accountId ∧
    ¬ (record.status = .canceled ∨ record.status = .filled)

/-- The balance rows hold what the open orders have reserved. Order ids are the primary key; an
    order of the account that is not finished is an open paper order with an identifier of its own,
    its reservation is not negative, and there is a row for it. -/
structure Held (accountId : String) (rows : Dict String PaperRow) (orders : List OrderRecord) :
    Prop where
  ids : (orders.map (·.id)).Nodup
  named : ∀ record, Cancelable accountId orders record →
    isOpenPaper accountId record = true ∧ ∃ id, record.exchangeOrderId = some id ∧ id ≠ ""
  named_inj : ∀ record record', Cancelable accountId orders record →
    Cancelable accountId orders record' → record.exchangeOrderId = record'.exchangeOrderId →
      record = record'
  reservation_nonneg : ∀ record, Cancelable accountId orders record →
    0 ≤ (reservedBy record).2
  row : ∀ record, Cancelable accountId orders record →
    rows.get? (reservedBy record).1 ≠ none
  covered : ∀ asset row, rows.get? asset = some row →
    (orders.map fun record => heldBy accountId record asset).sum ≤ row.used

/-! ## The tables after cancellations -/

/-- The order rows with those of `done` canceled. -/
def canceledIn (done : List String) (orders : List OrderRecord) : List OrderRecord :=
  orders.map fun o => if o.id ∈ done then { o with status := .canceled } else o

/-- The sum of the reservations in `asset` of the orders of `done`, each counted once. -/
def releasedOf (accountId : String) (orders : List OrderRecord) (done : List String)
    (asset : String) : ℚ :=
  (orders.map fun o => if o.id ∈ done then heldBy accountId o asset else 0).sum

/-- The tables in which exactly the orders of `done` have been canceled: each of their reservations
    has moved from used to free, once, and nothing else has changed. -/
structure Canceled (accountId : String) (rows₀ : Dict String PaperRow) (orders₀ : List OrderRecord)
    (done : List String) (rows : Dict String PaperRow) (orders : List OrderRecord) : Prop where
  orders : orders = canceledIn done orders₀
  rows : ∀ asset, rows.get? asset = (rows₀.get? asset).map fun row =>
    ⟨row.free + releasedOf accountId orders₀ done asset,
      row.used - releasedOf accountId orders₀ done asset⟩

/-! ## Sums over the orders -/

section Sums

variable {accountId : String} {orders : List OrderRecord} {rows : Dict String PaperRow}
  {record : OrderRecord} {done : List String}

theorem Cancelable.of_open (hmem : record ∈ orders) (hopen : isOpenPaper accountId record = true) :
    Cancelable accountId orders record := by
  obtain ⟨hacc, -, hstatus⟩ := of_decide_eq_true hopen
  refine ⟨hmem, hacc, ?_⟩
  rcases hstatus with hst | hst <;> simp [hst]

theorem Held.heldBy_nonneg (h : Held accountId rows orders) (hmem : record ∈ orders)
    (asset : String) : 0 ≤ heldBy accountId record asset := by
  unfold heldBy
  split
  · next hcond => exact h.reservation_nonneg record (Cancelable.of_open hmem hcond.1)
  · exact le_rfl

theorem releasedOf_le (h : Held accountId rows orders) (done : List String) (asset : String) :
    releasedOf accountId orders done asset
      ≤ (orders.map fun record => heldBy accountId record asset).sum := by
  refine List.sum_le_sum fun o ho => ?_
  split
  · exact le_rfl
  · exact h.heldBy_nonneg ho asset

/-- With distinct ids, one order contributes once. -/
theorem sum_of_id {f : OrderRecord → ℚ} (hids : (orders.map (·.id)).Nodup) (hmem : record ∈ orders) :
    (orders.map fun o => if o.id = record.id then f o else 0).sum = f record := by
  induction orders with
  | nil => exact absurd hmem (by simp)
  | cons o orders ih =>
    rw [List.map_cons, List.nodup_cons] at hids
    rw [List.map_cons, List.sum_cons]
    rcases List.mem_cons.1 hmem with rfl | hmem
    · have hothers : orders.map (fun o => if o.id = record.id then f o else 0)
          = orders.map fun _ => 0 :=
        List.map_congr_left fun o ho => if_neg fun heq => hids.1 (List.mem_map.2 ⟨o, ho, heq⟩)
      rw [if_pos rfl, hothers]
      simp
    · have hne : o.id ≠ record.id := fun heq => hids.1 (List.mem_map.2 ⟨record, hmem, heq.symm⟩)
      rw [if_neg hne, zero_add, ih hids.2 hmem]

/-- One more order canceled: its reservation is added, unless it has been before. -/
theorem releasedOf_concat (hids : (orders.map (·.id)).Nodup) (hmem : record ∈ orders)
    (asset : String) : releasedOf accountId orders (done ++ [record.id]) asset
      = releasedOf accountId orders done asset
        + if record.id ∈ done then 0 else heldBy accountId record asset := by
  by_cases hdone : record.id ∈ done
  · have hsame : ∀ o : OrderRecord, o.id ∈ done ++ [record.id] ↔ o.id ∈ done := by
      intro o
      rw [List.mem_append, List.mem_singleton]
      exact or_iff_left_of_imp fun heq => heq ▸ hdone
    simp only [releasedOf, hsame, if_pos hdone, add_zero]
  · rw [if_neg hdone, ← sum_of_id (f := fun o => heldBy accountId o asset) hids hmem]
    unfold releasedOf
    rw [← List.sum_map_add]
    refine congrArg List.sum (List.map_congr_left fun o _ => ?_)
    by_cases hid : o.id = record.id
    · rw [if_pos (by simp [hid]), if_neg (by rwa [hid]), if_pos hid, zero_add]
    · simp [hid]

theorem canceledIn_concat (done : List String) (orders : List OrderRecord) (orderId : String) :
    setStatus orderId .canceled (canceledIn done orders) = canceledIn (done ++ [orderId]) orders := by
  unfold setStatus canceledIn
  rw [List.map_map]
  refine List.map_congr_left fun o _ => ?_
  simp only [Function.comp_apply, List.mem_append, List.mem_singleton]
  by_cases hdone : o.id ∈ done
  · rw [if_pos hdone, if_pos (Or.inl hdone)]
    split <;> rfl
  · rw [if_neg hdone]
    by_cases hid : o.id = orderId
    · rw [if_pos hid, if_pos (Or.inr hid)]
    · rw [if_neg hid, if_neg (by simp [hdone, hid])]

end Sums

/-! ## Cancelling on the tables -/

theorem mem_canceledIn {done : List String} {orders : List OrderRecord} {o : OrderRecord}
    (ho : o ∈ canceledIn done orders) (hlive : o.status ≠ .canceled) : o ∈ orders ∧ o.id ∉ done := by
  obtain ⟨o₀, ho₀, rfl⟩ := List.mem_map.1 ho
  split at hlive
  · exact absurd rfl hlive
  · next hdone =>
    rw [if_neg hdone]
    exact ⟨ho₀, hdone⟩

namespace Held

variable {accountId : String} {rows₀ rows : Dict String PaperRow} {orders₀ orders : List OrderRecord}
  {record : OrderRecord} {done : List String} {id : String}

/-- The open orders that are loaded under an exchange id: the one order that has it, unless it is
    canceled. -/
theorem get?_loadOpenOrders (h : Held accountId rows₀ orders₀)
    (hrecord : Cancelable accountId orders₀ record) (hid : record.exchangeOrderId = some id)
    (hne : id ≠ "") :
    (loadOpenOrders accountId (canceledIn done orders₀)).get? id
      = if record.id ∈ done then none else some (orderOf id record) := by
  have honly : ∀ o, (id, o) ∈ ((canceledIn done orders₀).filter (isOpenPaper accountId)).filterMap
      orderEntry → o = orderOf id record ∧ record.id ∉ done := by
    intro o ho
    obtain ⟨r, hr, hacc, hstatus, hrid, rfl⟩ := Mirrors.mem_openEntries ho
    have hlive : ¬ (r.status = .canceled ∨ r.status = .filled) := by
      rcases hstatus with hst | hst <;> simp [hst]
    obtain ⟨hr₀, hdone⟩ := mem_canceledIn hr fun hst => hlive (Or.inl hst)
    obtain rfl := h.named_inj r record ⟨hr₀, hacc.1, hlive⟩ hrecord (hrid.trans hid.symm)
    exact ⟨rfl, hdone⟩
  unfold loadOpenOrders
  split
  · next hdone =>
    refine (Dict.get?_ofEntries_eq_none_iff _ _).2 ?_
    rintro ⟨id', o⟩ he rfl
    exact (honly o he).2 hdone
  · next hdone =>
    refine Dict.get?_ofEntries_of_unique (List.mem_filterMap.2 ⟨record, List.mem_filter.2
      ⟨List.mem_map.2 ⟨record, hrecord.1, if_neg hdone⟩, (h.named record hrecord).1⟩, ?_⟩)
      fun o ho => (honly o ho).1
    simp [orderEntry, hid, hne]

end Held

namespace Canceled

variable {accountId : String} {rows₀ rows : Dict String PaperRow} {orders₀ orders : List OrderRecord}
  {record : OrderRecord} {done : List String}

/-- What a cancellation saves: the order's reservation moved from used to free if it has not been
    before, the balances as they were otherwise. Its status is canceled in any case. -/
theorem run (h : Canceled accountId rows₀ orders₀ done rows orders)
    (hheld : Held accountId rows₀ orders₀) (hrecord : Cancelable accountId orders₀ record) :
    ∃ l, cancelBody record (ledgerOfTables accountId rows orders) = (.ok .canceled, l) ∧
      ∀ asset, (rowsOfLedger l).get? asset = (rows₀.get? asset).map fun row =>
        ⟨row.free + releasedOf accountId orders₀ (done ++ [record.id]) asset,
          row.used - releasedOf accountId orders₀ (done ++ [record.id]) asset⟩ := by
  obtain ⟨hopen, id, hid, hne⟩ := hheld.named record hrecord
  have hget : (ledgerOfTables accountId rows orders).orders.get? id
      = if record.id ∈ done then none else some (orderOf id record) := by
    rw [ledgerOfTables, h.orders]
    exact hheld.get?_loadOpenOrders hrecord hid hne
  have hne₀ : rows.entries ≠ [] := by
    intro hnil
    have hrow := h.rows (reservedBy record).1
    rw [(Dict.entries_eq_nil_iff rows).1 hnil] at hrow
    exact hheld.row record hrecord (Option.map_eq_none_iff.1 hrow.symm)
  have hbalance : ∀ asset, (ledgerOfTables accountId rows orders).balances.get? asset
      = (rows₀.get? asset).map fun row =>
        ⟨asset, row.free + releasedOf accountId orders₀ done asset,
          row.used - releasedOf accountId orders₀ done asset⟩ := by
    intro asset
    rw [ledgerOfTables, get?_balancesOfRows hne₀, h.rows, Option.map_map]
    rfl
  by_cases hdone : record.id ∈ done
  · -- Canceled before the lock was obtained: the engine does not know the order any more.
    rw [if_pos hdone] at hget
    refine ⟨_, (CancelOutcome.unknown id hid hne hget).body, fun asset => ?_⟩
    rw [get?_rowsOfLedger, hbalance, Option.map_map,
      releasedOf_concat hheld.ids hrecord.1, if_pos hdone, add_zero]
    rfl
  · rw [if_neg hdone] at hget
    obtain ⟨row, hrow⟩ := Option.ne_none_iff_exists'.1 (hheld.row record hrecord)
    have hamount : heldBy accountId record (reservedBy record).1 = (reservedBy record).2 :=
      if_pos ⟨hopen, rfl⟩
    have hused : (ledgerOfTables accountId rows orders).used (reservedBy record).1
        = row.used - releasedOf accountId orders₀ done (reservedBy record).1 := by
      rw [PaperLedger.used, PaperLedger.balance, hbalance, hrow]
      rfl
    have hfree : (ledgerOfTables accountId rows orders).free (reservedBy record).1
        = row.free + releasedOf accountId orders₀ done (reservedBy record).1 := by
      rw [PaperLedger.free, PaperLedger.balance, hbalance, hrow]
      rfl
    -- The reservations that have not moved yet are still in used.
    have hcovered : (reservedBy record).2
        ≤ (ledgerOfTables accountId rows orders).used (reservedBy record).1 := by
      have hle := releasedOf_le hheld (done ++ [record.id]) (reservedBy record).1
      have hsum := hheld.covered _ row hrow
      rw [releasedOf_concat hheld.ids hrecord.1, if_neg hdone, hamount] at hle
      rw [hused]
      linarith
    obtain ⟨l, hrun, hl⟩ := cancelBody_releases hid hne hget hrecord.2.2 hcovered
    refine ⟨l, hrun, fun asset => ?_⟩
    rw [get?_rowsOfLedger, hl, releasedOf_concat hheld.ids hrecord.1, if_neg hdone]
    split
    · next hasset =>
      subst hasset
      rw [hrow, hused, hfree, hamount, Option.map_some, Option.map_some, ← add_assoc, ← sub_sub]
    · next hasset =>
      rw [hbalance, heldBy, if_neg fun hcond => hasset hcond.2.symm, add_zero, Option.map_map]
      rfl

end Canceled

/-! ## Cancellations one after another -/

namespace Canceled

variable {accountId : String} {rows₀ rows : Dict String PaperRow} {orders₀ orders : List OrderRecord}
  {record : OrderRecord} {done : List String}

theorem init (rows : Dict String PaperRow) (orders : List OrderRecord) :
    Canceled accountId rows orders [] rows orders := by
  constructor
  · simp [canceledIn]
  · intro asset
    simp [releasedOf]

/-- The serial run of a cancellation, whatever has been canceled since its record was read. -/
theorem serial (h : Canceled accountId rows₀ orders₀ done rows orders)
    (hheld : Held accountId rows₀ orders₀) (hrecord : Cancelable accountId orders₀ record) :
    Canceled accountId rows₀ orders₀ (done ++ [record.id])
      ((paperCancels accountId).serial (rows, orders) record).1
      ((paperCancels accountId).serial (rows, orders) record).2 := by
  obtain ⟨l, hrun, hl⟩ := h.run hheld hrecord
  have hserial : (paperCancels accountId).serial (rows, orders) record
      = ((paperCancels accountId).rows.publish rows (rowsOfLedger l) rows,
        setStatus record.id .canceled orders) := by
    simp [Program.serial, paperCancels, hrun, Except.toOption]
  rw [hserial]
  constructor
  · rw [h.orders]
    exact canceledIn_concat done orders₀ record.id
  · intro asset
    have hself : ∀ old new, (paperCancels accountId).rows.patch old new old = new :=
      paperOrders_local.patch_self
    show ((paperCancels accountId).rows.publish rows (rowsOfLedger l) rows).get? asset = _
    rw [ReadCommitted.Program.get?_publish hself rfl, hl, h.rows]
    cases rows₀.get? asset <;> rfl

/-- Cancellations one after another. -/
theorem foldl (hheld : Held accountId rows₀ orders₀) :
    ∀ (log : List OrderRecord) (done : List String) (tables : Dict String PaperRow × List OrderRecord),
      Canceled accountId rows₀ orders₀ done tables.1 tables.2 →
      (∀ record ∈ log, Cancelable accountId orders₀ record) →
      Canceled accountId rows₀ orders₀ (done ++ log.map (·.id))
        (log.foldl (paperCancels accountId).serial tables).1
        (log.foldl (paperCancels accountId).serial tables).2 := by
  intro log
  induction log with
  | nil =>
    intro done tables h _
    simpa using h
  | cons record log ih =>
    intro done tables h hlog
    rw [List.map_cons, ← List.singleton_append, ← List.append_assoc, List.foldl_cons]
    exact ih _ _ (h.serial hheld (hlog record List.mem_cons_self))
      fun r hr => hlog r (List.mem_cons_of_mem _ hr)

end Canceled

/-- What the library asks of the transactions, on tables in which orders have been canceled. -/
theorem paperCancels_sound {accountId : String} {rows₀ : Dict String PaperRow}
    {orders₀ : List OrderRecord} (hheld : Held accountId rows₀ orders₀) :
    (paperCancels accountId).Sound
      (fun rows orders => ∃ done, Canceled accountId rows₀ orders₀ done rows orders)
      (Cancelable accountId orders₀) where
  read rows orders query record := by
    rintro ⟨done, h⟩ hread
    obtain ⟨hfind, hlive⟩ := Option.filter_eq_some_iff.1 hread
    obtain ⟨hacc, hlive⟩ := of_decide_eq_true hlive
    have hmem := List.mem_of_find?_eq_some hfind
    rw [h.orders] at hmem
    exact ⟨(mem_canceledIn hmem fun hst => hlive (Or.inl hst)).1, hacc, hlive⟩
  serial rows orders record := by
    rintro ⟨done, h⟩ hrecord
    exact ⟨done ++ [record.id], h.serial hheld hrecord⟩
  nonempty rows orders record := by
    rintro ⟨done, h⟩ hrecord hnil
    have hrow := h.rows (reservedBy record).1
    rw [(Dict.entries_eq_nil_iff rows).1 hnil] at hrow
    exact hheld.row record hrecord (Option.map_eq_none_iff.1 hrow.symm)
  closed rows orders record asset := by
    rintro ⟨done, h⟩ hrecord hsaved hnone
    obtain ⟨l, hrun, hl⟩ := h.run hheld hrecord
    have hrow := h.rows asset
    rw [hnone] at hrow
    refine hsaved ?_
    show (rowsOfLedger (cancelBody record (ledgerOfTables accountId rows orders)).2).get? asset = none
    rw [hrun, hl, Option.map_eq_none_iff.1 hrow.symm]
    rfl

/-! ## Running one request on its own -/

/-- Ledgers with the same rows and orders cannot be told apart by cancelling. -/
theorem CancelOutcome.sameRows {record : OrderRecord} {l l' l₁ : PaperLedger} {status : OrderStatus}
    {calls : List PaperCall} (h : CancelOutcome {} record l status l₁ calls)
    (horders : l'.orders = l.orders) (hsame : SameRows Set.univ l l') :
    ∃ l₁', CancelOutcome {} record l' status l₁' calls ∧ SameRows Set.univ l₁ l₁' := by
  cases h with
  | unnamed hnone => exact ⟨l', .unnamed hnone, hsame⟩
  | unknown id hid hne hget => exact ⟨l', .unknown id hid hne (horders ▸ hget), hsame⟩
  | answered id order _ hid hne hrun =>
    obtain ⟨hresult, hsame'⟩ :=
      PaperAdapter.cancelOrder_sameRows horders hsame
    rw [hrun] at hresult hsame'
    exact ⟨(({} : PaperAdapter).cancelOrder id l').2,
      .answered id order _ hid hne (Prod.ext hresult rfl), hsame'⟩

/-- The serial run of a request is the request served on its own: it leaves the order rows and the
    balance rows that `cancel_order` leaves. -/
theorem serial_cancelOrder {env : Env} {userId orderId : String} {w w' : World} {out : OrderRecord}
    (hmode : ∀ account, (Trade.cancel userId orderId).account? w.db = some account →
      isPaperEffective w.settings account = true)
    (h : TradingService.cancelOrder env userId orderId w = (.ok out, w')) :
    w' = w ∨ ∃ account record, (Trade.cancel userId orderId).account? w.db = some account ∧
      (paperCancels account.id).read (userId, orderId) w.db.orders = some record ∧
      w'.db.orders = ((paperCancels account.id).serial
        (rowsOf account.id w.db, w.db.orders) record).2 ∧
      ∀ a, (rowsOf account.id w'.db).get? a = ((paperCancels account.id).serial
        (rowsOf account.id w.db, w.db.orders) record).1.get? a := by
  obtain ⟨record, hfind, ⟨-, -, rfl⟩ | ⟨hlive, account, status, l, calls, hacc, hid, hout, -, -, hdb,
    -⟩⟩ := cancelOrder_paper_ok hmode h
  · exact Or.inl rfl
  have horders : (ledgerOfTables account.id (rowsOf account.id w.db) w.db.orders).orders
      = (ledgerOf account.id w.db).orders := rfl
  obtain ⟨l', hout', hsame⟩ := hout.sameRows horders (ledgerOf_sameRows account.id w.db)
  have hserial : (paperCancels account.id).serial (rowsOf account.id w.db, w.db.orders) record
      = ((paperCancels account.id).rows.publish (rowsOf account.id w.db) (rowsOfLedger l')
        (rowsOf account.id w.db), setStatus record.id status w.db.orders) := by
    simp [Program.serial, paperCancels, hout'.body, Except.toOption]
  have hself : ∀ old new, (paperCancels account.id).rows.patch old new old = new :=
    paperOrders_local.patch_self
  refine Or.inr ⟨account, record, hacc, ?_, ?_, fun a => ?_⟩
  · exact Option.filter_eq_some_iff.2 ⟨hfind, decide_eq_true ⟨hid.symm, hlive⟩⟩
  · rw [hserial, hdb]
    rfl
  · rw [hserial]
    show _ = ((paperCancels account.id).rows.publish (rowsOf account.id w.db) (rowsOfLedger l')
      (rowsOf account.id w.db)).get? a
    rw [ReadCommitted.Program.get?_publish hself rfl, get?_rowsOfLedger, ← hsame a (Set.mem_univ a),
      get?_rowsOf, get?_rowsOf, hdb]
    show Option.map _ ((balancesOf account.id (saveRows account.id l.balances
      w.db.balances)).get? a) = _
    rw [get?_balancesOf_saveRows]
    cases l.balances.get? a <;> rfl

/-! ## Requests one after another -/

section Sequential

variable {accountId : String}

/-- What can be cancelled after cancellations could be before. -/
theorem Canceled.cancelable {rows₀ rows : Dict String PaperRow} {orders₀ orders : List OrderRecord}
    {done : List String} (h : Canceled accountId rows₀ orders₀ done rows orders)
    {record : OrderRecord} (hrecord : Cancelable accountId orders record) :
    Cancelable accountId orders₀ record := by
  obtain ⟨hmem, hacc, hlive⟩ := hrecord
  rw [h.orders] at hmem
  exact ⟨(mem_canceledIn hmem fun hst => hlive (Or.inl hst)).1, hacc, hlive⟩

/-- Cancellations leave the other reservations held. -/
theorem Canceled.held {rows₀ rows : Dict String PaperRow} {orders₀ orders : List OrderRecord}
    {done : List String} (h : Canceled accountId rows₀ orders₀ done rows orders)
    (hheld : Held accountId rows₀ orders₀) : Held accountId rows orders := by
  have hsame : ∀ record, Cancelable accountId orders record →
      Cancelable accountId orders₀ record := fun record => h.cancelable
  constructor
  · have hkeys : orders.map (·.id) = orders₀.map (·.id) := by
      rw [h.orders, canceledIn, List.map_map]
      refine List.map_congr_left fun o _ => ?_
      simp only [Function.comp_apply]
      split <;> rfl
    exact hkeys ▸ hheld.ids
  · exact fun record hrecord => hheld.named record (hsame record hrecord)
  · exact fun record record' hrecord hrecord' =>
      hheld.named_inj record record' (hsame record hrecord) (hsame record' hrecord')
  · exact fun record hrecord => hheld.reservation_nonneg record (hsame record hrecord)
  · intro record hrecord hnone
    rw [h.rows] at hnone
    exact hheld.row record (hsame record hrecord) (Option.map_eq_none_iff.1 hnone)
  · intro asset row hrow
    rw [h.rows] at hrow
    obtain ⟨row₀, hrow₀, rfl⟩ := Option.map_eq_some_iff.1 hrow
    have hsum := hheld.covered asset row₀ hrow₀
    -- What is held now and what has been released make up what was held.
    have hsplit : (orders.map fun record => heldBy accountId record asset).sum
        + releasedOf accountId orders₀ done asset
          = (orders₀.map fun record => heldBy accountId record asset).sum := by
      rw [h.orders, canceledIn, List.map_map, releasedOf, ← List.sum_map_add]
      refine congrArg List.sum (List.map_congr_left fun o _ => ?_)
      by_cases hdone : o.id ∈ done
      · simp [hdone, heldBy, isOpenPaper]
      · simp [hdone]
    show _ ≤ row₀.used - _
    linarith

/-- What the open orders have reserved is in `used` of the ledger that is loaded. -/
theorem Held.le_used {db : Db} (h : Held accountId (rowsOf accountId db) db.orders)
    (asset : String) : (db.orders.map fun record => heldBy accountId record asset).sum
      ≤ (ledgerOf accountId db).used asset := by
  have hrow := (ledgerOf_sameRows accountId db).agree asset (Set.mem_univ asset)
  rw [hrow.2, PaperLedger.used, PaperLedger.balance]
  cases hget : (rowsOf accountId db).get? asset with
  | some row =>
    have hne : (rowsOf accountId db).entries ≠ [] := by
      intro hnil
      rw [(Dict.entries_eq_nil_iff _).1 hnil] at hget
      exact absurd hget (by simp)
    show _ ≤ (((balancesOfRows (rowsOf accountId db)).get? asset).getD _).used
    rw [get?_balancesOfRows hne, hget]
    exact h.covered asset row hget
  | none =>
    -- No order has anything reserved in an asset without a row.
    have hzero : db.orders.map (fun record => heldBy accountId record asset)
        = db.orders.map fun _ => 0 := by
      refine List.map_congr_left fun record hmem => if_neg ?_
      rintro ⟨hopen, rfl⟩
      exact h.row record (Cancelable.of_open hmem hopen) hget
    have hnonneg : 0 ≤ (((ledgerOfRows (rowsOf accountId db)).balances.get? asset).getD
        ⟨asset, 0, 0⟩).used := by
      show 0 ≤ (((balancesOfRows (rowsOf accountId db)).get? asset).getD _).used
      by_cases hnil : (rowsOf accountId db).entries = []
      · rw [balancesOfRows, if_pos hnil, Dict.get?_set]
        split <;> exact le_rfl
      · rw [get?_balancesOfRows hnil, hget]
        exact le_rfl
    rw [hzero]
    simpa using hnonneg

end Sequential

/-! ### What a placement adds -/

namespace Placement

variable {accountId : String} {env : Env} {limits : RiskLimits} {r : PlaceOrder}
  {account : ExchangeAccount} {p : Placement} {db : Db} {log log' : List Event}

/-- The balance rows after a placement: what the ledger has, else what was there. -/
theorem get?_rowsOf_commit (hacc : account.id = accountId) (a : String) :
    (rowsOf accountId (p.commit env r account db)).get? a
      = ((p.ledger.balances.get? a).map fun b => ⟨b.free, b.used⟩).or
        ((rowsOf accountId db).get? a) := by
  rw [get?_rowsOf, get?_rowsOf]
  show Option.map _ ((balancesOf accountId (saveRows account.id p.ledger.balances
    db.balances)).get? a) = _
  rw [hacc, get?_balancesOf_saveRows]
  cases p.ledger.balances.get? a <;> rfl

/-- A balance row after a placement holds what the ledger has in `used`. -/
theorem Of.row_used (hp : p.Of env limits r {} (ledgerOf accountId db) log log')
    (hacc : account.id = accountId) {asset : String} {row : PaperRow}
    (hrow : (rowsOf accountId (p.commit env r account db)).get? asset = some row) :
    row.used = p.ledger.used asset := by
  rw [get?_rowsOf_commit hacc] at hrow
  cases hb : p.ledger.balances.get? asset with
  | some b =>
    rw [hb] at hrow
    rw [← Option.some.inj hrow, PaperLedger.used, PaperLedger.balance, hb]
    rfl
  | none =>
    -- An asset that the ledger does not have had no row before.
    have hkeys := PaperAdapter.run_balances_none {} (.create (.ok p.ticker)
      ("paper-" ++ env.orderHex) (r.request env)) (ledgerOf accountId db) asset
    rw [show PaperCall.run {} (.create (.ok p.ticker) ("paper-" ++ env.orderHex) (r.request env))
      (ledgerOf accountId db) = _ from hp.created] at hkeys
    rw [hb, get?_rowsOf, get?_balancesOf_of_ledgerOf (hkeys hb)] at hrow
    exact absurd hrow (by simp)

/-- The new order is open if and only if it is loaded. -/
theorem Of.isOpenPaper_record {l : PaperLedger} (hp : p.Of env limits r {} l log log')
    (hacc : account.id = accountId) :
    isOpenPaper accountId (p.record env r account) = true ↔ p.order.status = .open := by
  obtain ⟨-, hpaper, hstatus⟩ := PaperAdapter.createOrder_order hp.created
  unfold isOpenPaper
  rw [decide_eq_true_iff]
  refine ⟨fun hst => hstatus.resolve_right fun hfilled => ?_, fun hst => ⟨hacc, hpaper, Or.inl hst⟩⟩
  rcases hst.2.2 with hst | hst <;> exact absurd (hfilled.symm.trans hst) (by simp)

/-- What the new row has reserved is what the order has. -/
theorem Of.heldBy_record {l : PaperLedger} (hp : p.Of env limits r {} l log log')
    (hacc : account.id = accountId) (a : String) :
    heldBy accountId (p.record env r account) a = PaperAdapter.reservedIn {} p.order a := by
  unfold heldBy PaperAdapter.reservedIn
  simp only [hp.isOpenPaper_record hacc]
  rfl

/-- The orders of the account that are not finished, with the new one if it rests. -/
theorem Of.cancelable {l : PaperLedger} (hp : p.Of env limits r {} l log log')
    {record : OrderRecord}
    (h : Cancelable accountId (p.commit env r account db).orders record) :
    Cancelable accountId db.orders record ∨
      record = p.record env r account ∧ p.order.status = .open := by
  obtain ⟨-, -, hstatus⟩ := PaperAdapter.createOrder_order hp.created
  obtain ⟨hmem, hacc, hlive⟩ := h
  rcases List.mem_append.1 hmem with hmem | hmem
  · exact Or.inl ⟨hmem, hacc, hlive⟩
  · obtain rfl := List.mem_singleton.1 hmem
    exact Or.inr ⟨rfl, hstatus.resolve_right fun hfilled => hlive (Or.inr hfilled)⟩

end Placement

/-- Placing an order keeps the reservations held, the new one with the others. -/
theorem Held.place {accountId : String} {db : Db} {env : Env} {limits : RiskLimits} {r : PlaceOrder}
    {account : ExchangeAccount} {p : Placement} {log log' : List Event}
    (h : Held accountId (rowsOf accountId db) db.orders) (hacc : account.id = accountId)
    (hadm : r.Admitted) (hp : p.Of env limits r {} (ledgerOf accountId db) log log')
    (hrecord : ∀ o ∈ db.orders, o.id ≠ env.recordId)
    (hunknown : ∀ record, Cancelable accountId db.orders record →
      record.exchangeOrderId ≠ some ("paper-" ++ env.orderHex)) :
    Held accountId (rowsOf accountId (p.commit env r account db))
      (p.commit env r account db).orders := by
  obtain ⟨hid, -, -⟩ := PaperAdapter.createOrder_order hp.created
  obtain ⟨hused, hnonneg, hlisted⟩ :=
    PaperAdapter.createOrder_reserves (by norm_num) hadm.1 hadm.2.1 hp.created
  have hexch : (p.record env r account).exchangeOrderId = some ("paper-" ++ env.orderHex) :=
    congrArg some hid
  constructor
  · exact nodup_map_concat h.ids hrecord
  · intro record hlive
    rcases hp.cancelable hlive with hold | ⟨rfl, hopen⟩
    · exact h.named record hold
    · exact ⟨(hp.isOpenPaper_record hacc).2 hopen, _, hexch, by simp⟩
  · intro record record' hlive hlive' heq
    rcases hp.cancelable hlive with hold | ⟨rfl, -⟩
    · rcases hp.cancelable hlive' with hold' | ⟨rfl, -⟩
      · exact h.named_inj record record' hold hold' heq
      · exact absurd (heq.trans hexch) (hunknown record hold)
    · rcases hp.cancelable hlive' with hold' | ⟨rfl, -⟩
      · exact absurd (heq.symm.trans hexch) (hunknown record' hold')
      · rfl
  · intro record hlive
    rcases hp.cancelable hlive with hold | ⟨rfl, -⟩
    · exact h.reservation_nonneg record hold
    · exact hnonneg
  · intro record hlive
    rw [Placement.get?_rowsOf_commit hacc]
    rcases hp.cancelable hlive with hold | ⟨rfl, hopen⟩
    · obtain ⟨row, hrow⟩ := Option.ne_none_iff_exists'.1 (h.row record hold)
      rw [hrow]
      cases p.ledger.balances.get? (reservedBy record).1 <;> simp
    · obtain ⟨b, hb⟩ := Option.ne_none_iff_exists'.1 (hlisted hopen)
      show ((p.ledger.balances.get? (({} : PaperAdapter).reservation p.order).1).map _).or _ ≠ none
      rw [hb]
      simp
  · intro asset row hrow
    show ((db.orders ++ [p.record env r account]).map fun record =>
      heldBy accountId record asset).sum ≤ _
    rw [List.map_append, List.map_singleton, List.sum_append, List.sum_singleton,
      hp.heldBy_record hacc, hp.row_used hacc hrow, hused]
    exact add_le_add_left (h.le_used asset) _

/-! ### The invariant -/

/-- The balance rows hold the reservations, and the identifiers of the open orders are drawn
    ones. -/
structure HeldAccount (accountId : String) (drawn : List String) (db : Db) : Prop where
  held : Held accountId (rowsOf accountId db) db.orders
  known : ∀ record, Cancelable accountId db.orders record →
    ∃ n ∈ drawn, record.exchangeOrderId = some ("paper-" ++ n)

namespace HeldAccount

variable {acc : String} {drawn : List String} {db : Db}

/-- An account without rows. -/
theorem new (hbalances : ∀ b ∈ db.balances, b.accountId ≠ acc)
    (horders : ∀ o ∈ db.orders, o.accountId ≠ acc) (hids : db.DistinctIds) :
    HeldAccount acc [] db := by
  have hnone : ∀ record, ¬ Cancelable acc db.orders record := fun record h => horders record h.1 h.2.1
  have hempty : ∀ a, (rowsOf acc db).get? a = none := by
    intro a
    rw [get?_rowsOf, (get?_balancesOf_eq_none_iff _ _ _).2 fun b hb h => hbalances b hb h.1]
    rfl
  refine ⟨⟨hids, ?_, ?_, ?_, ?_, fun asset row hrow => ?_⟩, ?_⟩
  · exact fun record h => absurd h (hnone record)
  · exact fun record _ h => absurd h (hnone record)
  · exact fun record h => absurd h (hnone record)
  · exact fun record h => absurd h (hnone record)
  · exact absurd ((hempty asset).symm.trans hrow) (by simp)
  · exact fun record h => absurd h (hnone record)

theorem weaken (h : HeldAccount acc drawn db) (n : String) : HeldAccount acc (drawn ++ [n]) db :=
  ⟨h.held, fun record hrecord =>
    (h.known record hrecord).imp fun _ hm => ⟨List.mem_append_left _ hm.1, hm.2⟩⟩

/-- A placement that was carried out. -/
theorem place {env : Env} {limits : RiskLimits} {r : PlaceOrder} {account : ExchangeAccount}
    {p : Placement} {log log' : List Event} (h : HeldAccount acc drawn db) (hacc : account.id = acc)
    (hadm : r.Admitted) (hfresh : env.orderHex ∉ drawn)
    (hp : p.Of env limits r {} (ledgerOf acc db) log log')
    (hrecord : ∀ o ∈ db.orders, o.id ≠ env.recordId) :
    HeldAccount acc (drawn ++ [env.orderHex]) (p.commit env r account db) := by
  refine ⟨h.held.place hacc hadm hp hrecord fun record hold heq => ?_, fun record hlive => ?_⟩
  · obtain ⟨n, hn, hknown⟩ := h.known record hold
    rw [hknown] at heq
    exact hfresh ((String.append_right_inj "paper-").1 (Option.some.inj heq) ▸ hn)
  · rcases hp.cancelable hlive with hold | ⟨rfl, -⟩
    · exact (h.weaken _).known record hold
    · exact ⟨env.orderHex, by simp, congrArg some (PaperAdapter.createOrder_order hp.created).1⟩

/-- A cancellation that was carried out. -/
theorem cancel {env : Env} {userId orderId : String} {w w' : World} {out : OrderRecord}
    (h : HeldAccount acc drawn w.db)
    (hon : ∀ account, (Trade.cancel userId orderId).account? w.db = some account →
      account.id = acc ∧ isPaperEffective w.settings account = true)
    (hrun : TradingService.cancelOrder env userId orderId w = (.ok out, w')) :
    HeldAccount acc drawn w'.db := by
  obtain rfl | ⟨account, record, hacc, hread, horders, hrows⟩ :=
    serial_cancelOrder (fun account ha => (hon account ha).2) hrun
  · exact h
  obtain ⟨rfl, -⟩ := hon account hacc
  have hrecord : Cancelable account.id w.db.orders record :=
    (paperCancels_sound h.held).read _ _ _ _ ⟨[], Canceled.init _ _⟩ hread
  have hserial := (Canceled.init _ _).serial h.held hrecord
  have hafter : Canceled account.id (rowsOf account.id w.db) w.db.orders ([] ++ [record.id])
      (rowsOf account.id w'.db) w'.db.orders :=
    ⟨horders.trans hserial.orders, fun a => (hrows a).trans (hserial.rows a)⟩
  exact ⟨hafter.held h.held, fun record' hlive => h.known record' (hafter.cancelable hlive)⟩

/-- The step: a request on the account, successful or not. -/
theorem serve {w : World} {env : Env} {t : Trade} (h : HeldAccount acc drawn w.db)
    (hon : ∀ account, t.account? w.db = some account →
      account.id = acc ∧ isPaperEffective w.settings account = true)
    (hadm : t.Admitted) (hfresh : env.orderHex ∉ drawn) :
    HeldAccount acc (drawn ++ [env.orderHex]) (serveTrade w (env, t)).db := by
  unfold serveTrade
  obtain ⟨record, w', hrun, hserve⟩ | ⟨e, w', hserve, hdb⟩ := getSession_cases env (t.run env) w
  · rw [hserve]
    cases t with
    | place limits r =>
      obtain ⟨account, p, hacc, hp, -, hrecord, -, hdb, -⟩ :=
        TradingService.placeOrder_paper_ok (fun account ha => (hon account ha).2) hrun
      obtain ⟨rfl, -⟩ := hon account hacc
      simp only [hdb]
      exact h.place rfl hadm hfresh hp hrecord
    | cancel userId orderId => exact (h.cancel hon hrun).weaken _
  · rw [hserve]
    simp only [hdb]
    exact h.weaken _

end HeldAccount

end TradingHub
