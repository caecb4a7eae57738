import TradingHub.Core.World
import TradingHub.Library.Pages

set_option autoImplicit false

/-! # Pages of orders

`TradingService.list_orders` and the two queries behind it, `list_for_user` and `count_for_user` of
`app/repositories/order_repository.py`. A page is a query of its own, sorted by the time of creation
and by nothing else, so the order of the rows created at one instant is up to the database, and may
be another one in the query of the next page. -/

namespace TradingHub

open Library

/-- A row of the table of orders: the record and the instant it was created, in microseconds. -/
structure OrderRow extends OrderRecord where
  createdAt : ℤ
deriving DecidableEq, Repr

/-- `if text: stmt = stmt.where(column == text)`: no text and the empty text do not filter. -/
def selects (text : Option String) (value : String) : Bool :=
  match text with
  | none => true
  | some text => text = "" || value = text

/-- The `WHERE` clause of the two queries. -/
def OrderRow.isSelected (userId : String) (symbol status : Option String) (row : OrderRow) : Bool :=
  row.userId = userId && selects symbol row.symbol && selects status row.status.value

/-- The rows a user asks for. -/
def selected (orders : List OrderRow) (userId : String) (symbol status : Option String) :
    List OrderRow :=
  orders.filter (OrderRow.isSelected userId symbol status)

/-- `list_for_user`; `orderBy` is what the database makes of `ORDER BY created_at DESC`. -/
def listForUser (orderBy : List OrderRow → List OrderRow) (orders : List OrderRow) (userId : String)
    (symbol status : Option String := none) (limit : ℕ := 50) (offset : ℕ := 0) : List OrderRow :=
  ((orderBy (selected orders userId symbol status)).drop offset).take limit

/-- `count_for_user`. -/
def countForUser (orders : List OrderRow) (userId : String) (symbol status : Option String := none) :
    ℕ :=
  (selected orders userId symbol status).length

/-- `list_orders`; the route lets through pages from 1 on. -/
def listOrders (orderBy : List OrderRow → List OrderRow) (orders : List OrderRow) (userId : String)
    (symbol status : Option String := none) (page : ℕ := 1) (pageSize : ℕ := 50) :
    List OrderRow × ℕ :=
  let offset := (page - 1) * pageSize
  let items := listForUser orderBy orders userId symbol status pageSize offset
  let total := countForUser orders userId symbol status
  (items, total)

/-! ## Reading all pages -/

/-- The database sorts as the query says, and breaks ties in some way. -/
def Consistent (orderBy : List OrderRow → List OrderRow) : Prop :=
  ∀ rows, (orderBy rows).Perm rows ∧ Descending OrderRow.createdAt (orderBy rows)

/-- The pages from 1 to the last one, put together; the query of each page sorts in its own way. -/
def allPages (orderBy : ℕ → List OrderRow → List OrderRow) (orders : List OrderRow) (userId : String)
    (symbol status : Option String) (pageSize : ℕ) : List OrderRow :=
  (List.range (pageCount pageSize (countForUser orders userId symbol status))).flatMap fun k =>
    (listOrders (orderBy k) orders userId symbol status (k + 1) pageSize).1

/-- However the database breaks ties, the pages hold every selected order exactly once, and the total
    is the number of these. -/
structure PagesPartition (orders : List OrderRow) (userId : String) (symbol status : Option String)
    (pageSize : ℕ) : Prop where
  once : ∀ orderBy : ℕ → List OrderRow → List OrderRow, (∀ k, Consistent (orderBy k)) →
    (allPages orderBy orders userId symbol status pageSize).Perm
      (selected orders userId symbol status)
  total : ∀ orderBy page, (listOrders orderBy orders userId symbol status page pageSize).2
    = (selected orders userId symbol status).length

theorem allPages_eq (orderBy : ℕ → List OrderRow → List OrderRow) (orders : List OrderRow)
    (userId : String) (symbol status : Option String) (pageSize : ℕ) :
    allPages orderBy orders userId symbol status pageSize
      = pages pageSize (pageCount pageSize (selected orders userId symbol status).length) fun k =>
        orderBy k (selected orders userId symbol status) := rfl

/-- Identifiers are the primary key, so no row is selected twice. -/
theorem selected_nodup {orders : List OrderRow} (hids : (orders.map fun row => row.id).Nodup)
    (userId : String) (symbol status : Option String) :
    (selected orders userId symbol status).Nodup :=
  (List.Nodup.of_map _ hids).filter _

theorem pagesPartition_of_ties {orders : List OrderRow}
    (hids : (orders.map fun row => row.id).Nodup) {userId : String} {symbol status : Option String}
    {pageSize : ℕ} (hsize : 1 ≤ pageSize)
    (hties : TiesOnOnePage OrderRow.createdAt pageSize (selected orders userId symbol status)) :
    PagesPartition orders userId symbol status pageSize := by
  have hnodup := selected_nodup hids userId symbol status
  refine ⟨fun orderBy hconsistent => ?_, fun _ _ => rfl⟩
  rw [allPages_eq]
  exact pages_perm hsize hnodup hties (fun k => (hconsistent k _).1) fun k => (hconsistent k _).2

/-- The pages partition the selected orders if no two of them were created at one instant. -/
theorem pagesPartition_of_instants {orders : List OrderRow}
    (hids : (orders.map fun row => row.id).Nodup) {userId : String} {symbol status : Option String}
    {pageSize : ℕ} (hsize : 1 ≤ pageSize)
    (hinstants : ((selected orders userId symbol status).map OrderRow.createdAt).Nodup) :
    PagesPartition orders userId symbol status pageSize :=
  pagesPartition_of_ties hids hsize (tiesOnOnePage_of_nodup hinstants)

/-- The pages partition the selected orders exactly if those created at one instant have their places
    on one page. -/
theorem pages_partition_iff (orders : List OrderRow) (hids : (orders.map fun row => row.id).Nodup)
    (userId : String) (symbol status : Option String) (pageSize : ℕ) (hsize : 1 ≤ pageSize) :
    PagesPartition orders userId symbol status pageSize
      ↔ TiesOnOnePage OrderRow.createdAt pageSize (selected orders userId symbol status) := by
  have hnodup := selected_nodup hids userId symbol status
  constructor
  · intro h
    by_contra hties
    obtain ⟨rank, hpages⟩ := exists_not_pages_perm hsize hnodup hties
    refine hpages ?_
    have honce := h.once (fun k => sortDesc OrderRow.createdAt (rank k)) fun k rows =>
      ⟨sortDesc_perm _ _ rows, sortDesc_descending _ _ rows⟩
    rwa [allPages_eq] at honce
  · exact pagesPartition_of_ties hids hsize

/-! ## Two orders of one instant -/

/-- A filled market order of a user, created at an instant. -/
def orderAt (id : String) (createdAt : ℤ) : OrderRow :=
  { id, userId := "u", accountId := "acc", exchangeOrderId := none, clientOrderId := none
    symbol := "BTC/USDT", side := .buy, type := .market, status := .filled, amount := 1, filled := 1
    price := none, average := some 100, fee := 1 / 25, isPaper := true, createdAt }

/-- Three orders, two of them created at one instant, on pages of two: the last page is the oldest
    order, whatever the database does. -/
theorem pages_partition_three :
    PagesPartition [orderAt "a" 1, orderAt "b" 2, orderAt "c" 2] "u" none none 2 :=
  (pages_partition_iff [orderAt "a" 1, orderAt "b" 2, orderAt "c" 2] (by decide) "u" none none 2
    (by decide)).2 (by decide)

/-- Two orders created at one instant, on pages of one: the database may put the first order in front
    when it is asked for page 1, and behind when it is asked for page 2. Then both pages show it, and
    none shows the other order. -/
theorem pages_repeat_tied_order :
    allPages (fun k => sortDesc OrderRow.createdAt
        (if k = 0 then firstRank (orderAt "a" 1) else lastRank (orderAt "a" 1)))
      [orderAt "a" 1, orderAt "b" 1] "u" none none 1 = [orderAt "a" 1, orderAt "a" 1] ∧
    ¬ PagesPartition [orderAt "a" 1, orderAt "b" 1] "u" none none 1 := by
  have hpages : allPages (fun k => sortDesc OrderRow.createdAt
        (if k = 0 then firstRank (orderAt "a" 1) else lastRank (orderAt "a" 1)))
      [orderAt "a" 1, orderAt "b" 1] "u" none none 1 = [orderAt "a" 1, orderAt "a" 1] := by
    decide +kernel
  refine ⟨hpages, fun h => ?_⟩
  have honce := h.once _ fun k rows =>
    ⟨sortDesc_perm OrderRow.createdAt (if k = 0 then firstRank (orderAt "a" 1)
      else lastRank (orderAt "a" 1)) rows, sortDesc_descending _ _ rows⟩
  rw [hpages] at honce
  exact absurd honce (by decide +kernel)

end TradingHub
