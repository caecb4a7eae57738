import TradingHub.Exchange.Paper
import Mathlib.Tactic.Linarith
import Mathlib.Tactic.Ring

set_option autoImplicit false

/-! # What the paper engine keeps over whole runs

`createOrder_cases` and `cancelOrder_cases` say once everything a call can do to the ledger, in any
decimal context; the invariants below split on them and never unfold an action again. Two laws hold
after every call of every run on a fresh ledger, if the arithmetic is exact:

* **soundness** (`LedgerInv`): no balance is negative, and what an asset has in `used` is exactly
  what the open orders reserve in it (`Backed`), so the clamp of `release` never takes effect;
* **conservation** (`Explained`): the total of an asset is its starting balance plus the
  effect of the filled orders. -/

namespace TradingHub

open Library
open DecimalContext (fix)

/-! ## Balances after an update -/

namespace PaperLedger

theorem free_setBalance (l : PaperLedger) (asset : String) (free used : ℚ) (a : String) :
    (l.setBalance asset free used).free a = if a = asset then free else l.free a := by
  simp only [PaperLedger.free, balance, setBalance, Dict.get?_set]
  split <;> rfl

theorem used_setBalance (l : PaperLedger) (asset : String) (free used : ℚ) (a : String) :
    (l.setBalance asset free used).used a = if a = asset then used else l.used a := by
  simp only [PaperLedger.used, balance, setBalance, Dict.get?_set]
  split <;> rfl

@[simp] theorem orders_setBalance (l : PaperLedger) (asset : String) (free used : ℚ) :
    (l.setBalance asset free used).orders = l.orders := rfl

@[simp] theorem free_setOrder (l : PaperLedger) (id : String) (o : Order String) (a : String) :
    (l.setOrder id o).free a = l.free a := rfl

@[simp] theorem used_setOrder (l : PaperLedger) (id : String) (o : Order String) (a : String) :
    (l.setOrder id o).used a = l.used a := rfl

@[simp] theorem orders_setOrder (l : PaperLedger) (id : String) (o : Order String) :
    (l.setOrder id o).orders = l.orders.set id o := rfl

section

variable [DecimalContext]

/-- Add `amount` to what is free in `asset`: a credit, or a debit that was covered. -/
def moveFree (l : PaperLedger) (asset : String) (amount : ℚ) : PaperLedger :=
  l.setBalance asset (fix (l.free asset + amount)) (l.used asset)

/-- Move `amount` from free to used in `asset`: a reservation, or a release when negative. -/
def hold (l : PaperLedger) (asset : String) (amount : ℚ) : PaperLedger :=
  l.setBalance asset (fix (l.free asset - amount)) (fix (l.used asset + amount))

theorem free_moveFree_eq (l : PaperLedger) (asset : String) (amount : ℚ) (a : String) :
    (l.moveFree asset amount).free a
      = if a = asset then fix (l.free asset + amount) else l.free a := by
  rw [moveFree, free_setBalance]

@[simp] theorem used_moveFree (l : PaperLedger) (asset : String) (amount : ℚ) (a : String) :
    (l.moveFree asset amount).used a = l.used a := by
  rw [moveFree, used_setBalance]
  split
  · next h => rw [h]
  · rfl

@[simp] theorem orders_moveFree (l : PaperLedger) (asset : String) (amount : ℚ) :
    (l.moveFree asset amount).orders = l.orders := rfl

theorem free_hold_eq (l : PaperLedger) (asset : String) (amount : ℚ) (a : String) :
    (l.hold asset amount).free a
      = if a = asset then fix (l.free asset - amount) else l.free a := by
  rw [hold, free_setBalance]

theorem used_hold_eq (l : PaperLedger) (asset : String) (amount : ℚ) (a : String) :
    (l.hold asset amount).used a
      = if a = asset then fix (l.used asset + amount) else l.used a := by
  rw [hold, used_setBalance]

@[simp] theorem orders_hold (l : PaperLedger) (asset : String) (amount : ℚ) :
    (l.hold asset amount).orders = l.orders := rfl

end

theorem free_moveFree (l : PaperLedger) (asset : String) (amount : ℚ) (a : String) :
    (l.moveFree asset amount).free a = l.free a + if a = asset then amount else 0 := by
  rw [free_moveFree_eq, DecimalContext.fix_exact]
  split
  · next h => rw [h]
  · rw [add_zero]

theorem free_hold (l : PaperLedger) (asset : String) (amount : ℚ) (a : String) :
    (l.hold asset amount).free a = l.free a - if a = asset then amount else 0 := by
  rw [free_hold_eq, DecimalContext.fix_exact]
  split
  · next h => rw [h]
  · rw [sub_zero]

theorem used_hold (l : PaperLedger) (asset : String) (amount : ℚ) (a : String) :
    (l.hold asset amount).used a = l.used a + if a = asset then amount else 0 := by
  rw [used_hold_eq, DecimalContext.fix_exact]
  split
  · next h => rw [h]
  · rw [add_zero]

theorem credit_nonneg {l : PaperLedger} {asset : String} {amount : ℚ}
    (h : ∀ a, 0 ≤ l.free a) (hamt : 0 ≤ amount) (a : String) :
    0 ≤ (l.moveFree asset amount).free a := by
  have ha := h a
  rw [free_moveFree]
  split <;> linarith

theorem debit_nonneg {l : PaperLedger} {asset : String} {amount : ℚ}
    (h : ∀ a, 0 ≤ l.free a) (hle : amount ≤ l.free asset) (a : String) :
    0 ≤ (l.moveFree asset (-amount)).free a := by
  have ha := h a
  rw [free_moveFree]
  split
  · next he => subst he; linarith
  · linarith

theorem hold_nonneg {l : PaperLedger} {asset : String} {amount : ℚ}
    (h : ∀ a, 0 ≤ l.free a) (hle : amount ≤ l.free asset) (a : String) :
    0 ≤ (l.hold asset amount).free a := by
  have ha := h a
  rw [free_hold]
  split
  · next he => subst he; linarith
  · linarith

end PaperLedger

/-! ## What a call does -/

theorem OrderSide.buy_or_sell (side : OrderSide) : side = .buy ∨ side = .sell := by
  cases side <;> simp

/-- The order fills at once when the market is at `last`: a market order does, and a limit order
    that crosses it and is not post-only. -/
def OrderRequest.Takes (request : OrderRequest) (last : ℚ) : Prop :=
  request.type = .market ∨ request.type = .limit ∧ request.postOnly = false ∧
    ∃ price, request.price = some price ∧
      (request.side = .buy ∧ last ≤ price ∨ request.side = .sell ∧ price ≤ last)

/-- A fill is at the market. -/
theorem PaperAdapter.resolveFillPrice_eq_some_iff {request : OrderRequest} {ticker : Ticker}
    {price : ℚ} : resolveFillPrice request ticker = some price ↔
      request.Takes ticker.last ∧ price = ticker.last := by
  unfold PaperAdapter.resolveFillPrice OrderRequest.Takes
  split
  · next htype =>
    simp only [htype, Option.some.injEq, true_or, true_and]
    exact eq_comm
  · next limit htype hlimit =>
    rw [htype, hlimit]
    cases hpost : request.postOnly with
    | true => simp
    | false =>
      rcases request.side.buy_or_sell with hside | hside
      · by_cases hle : ticker.last ≤ limit
        · simp only [hside, hle, Bool.false_eq_true, if_false, true_and, and_self, if_true,
            min_eq_right]
          simp only [hle, Option.some.injEq, exists_eq_left', true_or, or_true, true_and]
          exact eq_comm
        · simp [hside, hle]
      · by_cases hle : limit ≤ ticker.last
        · simp [hside, hle, eq_comm]
        · simp [hside, hle]
  · next hmarket hlimit =>
    simp only [reduceCtorEq, false_iff, not_and]
    rintro (htype | ⟨htype, -, price, hprice, -⟩)
    · exact absurd htype hmarket
    · exact absurd hprice (hlimit price htype)

namespace PaperAdapter

variable [DecimalContext] {p : PaperAdapter} {l l' : PaperLedger}

/-- The fee of a fill at `price`. -/
def fee (p : PaperAdapter) (request : OrderRequest) (price : ℚ) : ℚ :=
  fix (fix (request.amount * price) * p.feeRate)

/-- The ledger after a fill at `price`, before the order is recorded. -/
def settle (p : PaperAdapter) (l : PaperLedger) (request : OrderRequest) (price : ℚ) :
    PaperLedger :=
  let pair := splitSymbol request.symbol p.quote
  let cost := fix (request.amount * price)
  match request.side with
  | .buy => (l.moveFree pair.2 (-fix (cost + p.fee request price))).moveFree pair.1 request.amount
  | .sell => (l.moveFree pair.1 (-request.amount)).moveFree pair.2 (fix (cost - p.fee request price))

/-- What a fill at `price` has to find free, and in which asset. -/
def charge (p : PaperAdapter) (request : OrderRequest) (price : ℚ) : String × ℚ :=
  let pair := splitSymbol request.symbol p.quote
  match request.side with
  | .buy => (pair.2, fix (fix (request.amount * price) + p.fee request price))
  | .sell => (pair.1, request.amount)

@[simp] theorem used_settle (p : PaperAdapter) (l : PaperLedger) (request : OrderRequest)
    (price : ℚ) (a : String) : (p.settle l request price).used a = l.used a := by
  unfold settle
  cases request.side <;> simp

@[simp] theorem orders_settle (p : PaperAdapter) (l : PaperLedger) (request : OrderRequest)
    (price : ℚ) : (p.settle l request price).orders = l.orders := by
  unfold settle
  cases request.side <;> simp

theorem debit_run (asset : String) (amount : ℚ) (l : PaperLedger) :
    debit asset amount l
      = if l.free asset < amount
        then (.error (.insufficientBalance asset amount (l.free asset)), l)
        else (.ok (), l.moveFree asset (-amount)) := by
  simp only [debit, Act.bind_of_ok (show (Act.read : Act AppError _ _) l = (.ok l, l) from rfl)]
  split
  · rfl
  · rw [PaperLedger.moveFree, ← sub_eq_add_neg]; rfl

theorem reserve_run (asset : String) (amount : ℚ) (l : PaperLedger) :
    reserve asset amount l
      = if l.free asset < amount
        then (.error (.insufficientBalance asset amount (l.free asset)), l)
        else (.ok (), l.hold asset amount) := by
  simp only [reserve, Act.bind_of_ok (show (Act.read : Act AppError _ _) l = (.ok l, l) from rfl)]
  split <;> rfl

theorem release_run (asset : String) (amount : ℚ) (l : PaperLedger) :
    release asset amount l = (.ok (), l.hold asset (-(min amount (l.used asset)))) := by
  rw [PaperLedger.hold, sub_neg_eq_add, ← sub_eq_add_neg]; rfl

/-- The run of `create_order`, with the ledger operations carried out. -/
theorem createOrder_run (p : PaperAdapter) (market : MarketDataSource) (orderId : String)
    (request : OrderRequest) (l : PaperLedger) :
    p.createOrder market orderId request l =
      match market.fetchTicker request.symbol with
      | .error e => (.error e, l)
      | .ok ticker =>
        match resolveFillPrice request ticker with
        | none =>
          let order := restingOrder orderId request ticker
          let reserved := p.reservation order
          if l.free reserved.1 < reserved.2
          then (.error (.insufficientBalance reserved.1 reserved.2 (l.free reserved.1)), l)
          else (.ok order, (l.hold reserved.1 reserved.2).setOrder orderId order)
        | some price =>
          let need := p.charge request price
          let order := filledOrder orderId request ticker price (p.fee request price)
          if l.free need.1 < need.2
          then (.error (.insufficientBalance need.1 need.2 (l.free need.1)), l)
          else (.ok order, (p.settle l request price).setOrder orderId order) := by
  unfold createOrder
  cases hf : market.fetchTicker request.symbol with
  | error e => exact Act.bind_of_error rfl
  | ok ticker =>
    rw [Act.bind_of_ok (show Act.ofExcept (.ok ticker) l = (.ok ticker, l) from rfl)]
    cases hr : resolveFillPrice request ticker with
    | none =>
      simp only [hr]
      split
      · next hlt => exact Act.bind_of_error (by rw [reserve_run, if_pos hlt])
      · next hlt =>
        rw [Act.bind_of_ok (by rw [reserve_run, if_neg hlt])]
        rfl
    | some price =>
      -- Both sides debit one leg and credit the other; only the debit can raise.
      simp only [hr, charge, settle, fee]
      rcases request.side.buy_or_sell with hs | hs
      · simp only [hs]
        split
        · next hlt => exact Act.bind_of_error (by rw [debit_run, if_pos hlt])
        · next hlt =>
          rw [Act.bind_of_ok (by rw [debit_run, if_neg hlt])]
          rfl
      · simp only [hs]
        split
        · next hlt => exact Act.bind_of_error (by rw [debit_run, if_pos hlt])
        · next hlt =>
          rw [Act.bind_of_ok (by rw [debit_run, if_neg hlt])]
          rfl

/-- The run of `cancel_order`, with the ledger operations carried out. -/
theorem cancelOrder_run (p : PaperAdapter) (orderId : String) (l : PaperLedger) :
    p.cancelOrder orderId l =
      match l.orders.get? orderId with
      | none => (.error (.notFound ("Paper order " ++ orderId ++ " not found.")), l)
      | some order =>
        if order.status = .filled ∨ order.status = .canceled then (.ok order, l)
        else
          let reserved := p.reservation order
          let canceled := { order with status := .canceled, isPaper := true }
          (.ok canceled,
            (l.hold reserved.1 (-(min reserved.2 (l.used reserved.1)))).setOrder orderId canceled) := by
  unfold cancelOrder
  rw [Act.bind_of_ok (show (Act.read : Act AppError _ _) l = (.ok l, l) from rfl)]
  cases ho : l.orders.get? orderId with
  | none => rfl
  | some order =>
    simp only
    split
    · rfl
    · rw [Act.bind_of_ok (release_run _ _ l)]
      rfl

/-- Everything `create_order` can do: leave the ledger alone, rest the order or fill it. -/
theorem createOrder_cases {market : MarketDataSource} {orderId : String} {request : OrderRequest}
    {r : Except AppError (Order String)} (h : p.createOrder market orderId request l = (r, l')) :
    (∃ e, r = .error e ∧ l' = l) ∨
    (∃ ticker, market.fetchTicker request.symbol = .ok ticker ∧
      resolveFillPrice request ticker = none ∧
      (p.reservation (restingOrder orderId request ticker)).2
        ≤ l.free (p.reservation (restingOrder orderId request ticker)).1 ∧
      r = .ok (restingOrder orderId request ticker) ∧
      l' = (l.hold (p.reservation (restingOrder orderId request ticker)).1
        (p.reservation (restingOrder orderId request ticker)).2).setOrder orderId
          (restingOrder orderId request ticker)) ∨
    (∃ ticker price, market.fetchTicker request.symbol = .ok ticker ∧
      resolveFillPrice request ticker = some price ∧
      (p.charge request price).2 ≤ l.free (p.charge request price).1 ∧
      r = .ok (filledOrder orderId request ticker price (p.fee request price)) ∧
      l' = (p.settle l request price).setOrder orderId
        (filledOrder orderId request ticker price (p.fee request price))) := by
  rw [createOrder_run] at h
  split at h
  · next e _ =>
    obtain ⟨rfl, rfl⟩ := Prod.mk.inj h
    exact Or.inl ⟨e, rfl, rfl⟩
  · next ticker hf =>
    split at h
    · next hr =>
      simp only at h
      split at h
      · obtain ⟨rfl, rfl⟩ := Prod.mk.inj h
        exact Or.inl ⟨_, rfl, rfl⟩
      · next hle =>
        obtain ⟨rfl, rfl⟩ := Prod.mk.inj h
        exact Or.inr (Or.inl ⟨ticker, hf, hr, not_lt.1 hle, rfl, rfl⟩)
    · next price hr =>
      simp only at h
      split at h
      · obtain ⟨rfl, rfl⟩ := Prod.mk.inj h
        exact Or.inl ⟨_, rfl, rfl⟩
      · next hle =>
        obtain ⟨rfl, rfl⟩ := Prod.mk.inj h
        exact Or.inr (Or.inr ⟨ticker, price, hf, hr, not_lt.1 hle, rfl, rfl⟩)

/-- Everything `cancel_order` can do: refuse an unknown order, return a finished one as it is, or
    release the reservation and mark the order canceled. -/
theorem cancelOrder_cases {orderId : String} {r : Except AppError (Order String)}
    (h : p.cancelOrder orderId l = (r, l')) :
    (l.orders.get? orderId = none ∧
      r = .error (.notFound ("Paper order " ++ orderId ++ " not found.")) ∧ l' = l) ∨
    (∃ order, l.orders.get? orderId = some order ∧
      (order.status = .filled ∨ order.status = .canceled) ∧ r = .ok order ∧ l' = l) ∨
    (∃ order, l.orders.get? orderId = some order ∧
      ¬ (order.status = .filled ∨ order.status = .canceled) ∧
      r = .ok { order with status := .canceled, isPaper := true } ∧
      l' = (l.hold (p.reservation order).1
        (-(min (p.reservation order).2 (l.used (p.reservation order).1)))).setOrder orderId
          { order with status := .canceled, isPaper := true }) := by
  rw [cancelOrder_run] at h
  split at h
  · next ho =>
    obtain ⟨rfl, rfl⟩ := Prod.mk.inj h
    exact Or.inl ⟨ho, rfl, rfl⟩
  · next order ho =>
    split at h
    · next hs =>
      obtain ⟨rfl, rfl⟩ := Prod.mk.inj h
      exact Or.inr (Or.inl ⟨order, ho, hs, rfl, rfl⟩)
    · next hs =>
      obtain ⟨rfl, rfl⟩ := Prod.mk.inj h
      exact Or.inr (Or.inr ⟨order, ho, hs, rfl, rfl⟩)

end PaperAdapter

/-! ## Reservations and fills of a ledger -/

namespace PaperAdapter

/-- What `order` holds reserved in `asset`: its reservation while it is open, nothing else. -/
def reservedIn [DecimalContext] (p : PaperAdapter) (order : Order String) (asset : String) : ℚ :=
  if order.status = .open ∧ (p.reservation order).1 = asset then (p.reservation order).2 else 0

/-- The sum of the amounts reserved in `asset` by the open orders of the ledger. -/
def openReservations [DecimalContext] (p : PaperAdapter) (l : PaperLedger) (asset : String) : ℚ :=
  l.orders.sumBy fun _ order => p.reservedIn order asset

/-- The effect of `order` on the total of `asset`: a filled buy adds the amount of base and takes
    the cost and the fee from quote, a filled sell does the opposite net of the fee. -/
def fillEffect (p : PaperAdapter) (order : Order String) (asset : String) : ℚ :=
  if order.status = .filled then
    let pair := splitSymbol order.symbol p.quote
    let cost := order.amount * order.average.getD 0
    match order.side with
    | .buy => (if asset = pair.1 then order.amount else 0)
        - (if asset = pair.2 then cost + order.fee else 0)
    | .sell => (if asset = pair.2 then cost - order.fee else 0)
        - (if asset = pair.1 then order.amount else 0)
  else 0

/-- The effect of all filled orders of the ledger on the total of `asset`. -/
def fillEffects (p : PaperAdapter) (l : PaperLedger) (asset : String) : ℚ :=
  l.orders.sumBy fun _ order => p.fillEffect order asset

variable {p : PaperAdapter} {l l' : PaperLedger}

theorem reservedIn_of_closed [DecimalContext] {order : Order String} (h : order.status ≠ .open)
    (asset : String) :
    p.reservedIn order asset = 0 := by
  rw [reservedIn, if_neg (fun hs => h hs.1)]

theorem reservedIn_of_open [DecimalContext] {order : Order String} (h : order.status = .open)
    (asset : String) :
    p.reservedIn order asset
      = if asset = (p.reservation order).1 then (p.reservation order).2 else 0 := by
  rw [reservedIn]
  by_cases ha : asset = (p.reservation order).1
  · rw [if_pos ha, if_pos ⟨h, ha.symm⟩]
  · rw [if_neg ha, if_neg (fun hs => ha hs.2.symm)]

theorem fillEffect_of_not_filled {order : Order String} (h : order.status ≠ .filled)
    (asset : String) : p.fillEffect order asset = 0 := by
  rw [fillEffect, if_neg h]

theorem reservation_nonneg [DecimalContext] (hfee : 0 ≤ p.feeRate) {order : Order String}
    (hamt : 0 ≤ order.amount) (hprice : ∀ price, order.price = some price → 0 ≤ price) :
    0 ≤ (p.reservation order).2 := by
  unfold reservation
  cases order.side with
  | buy =>
    have hp : 0 ≤ order.price.getD 0 := by
      cases ho : order.price with
      | none => exact le_refl 0
      | some price => exact hprice price ho
    have hcost : 0 ≤ fix (order.amount * order.price.getD 0) :=
      DecimalContext.fix_nonneg (mul_nonneg hamt hp)
    have hfees : 0 ≤ fix (fix (order.amount * order.price.getD 0) * p.feeRate) :=
      DecimalContext.fix_nonneg (mul_nonneg hcost hfee)
    exact DecimalContext.fix_nonneg (add_nonneg hcost hfees)
  | sell => exact hamt

end PaperAdapter

/-! ## Soundness -/

/-- `used` is what the open orders reserve, no recorded order has a negative reservation, and the
    engine knows three statuses only. -/
structure Backed (p : PaperAdapter) (l : PaperLedger) : Prop where
  used_eq : ∀ a, l.used a = p.openReservations l a
  reservation_nonneg : ∀ id order, l.orders.get? id = some order → 0 ≤ (p.reservation order).2
  status : ∀ id order, l.orders.get? id = some order →
    order.status = .open ∨ order.status = .filled ∨ order.status = .canceled

/-- A backed ledger without negative balances. -/
structure LedgerInv (p : PaperAdapter) (l : PaperLedger) : Prop extends Backed p l where
  free_nonneg : ∀ a, 0 ≤ l.free a

namespace Backed

variable {p : PaperAdapter} {l l' : PaperLedger}

theorem new (quote : String) (start : ℚ) : Backed p (PaperLedger.new quote start) where
  used_eq a := by
    simp only [PaperLedger.new, PaperLedger.used, PaperLedger.balance, Dict.get?_set]
    split <;> rfl
  reservation_nonneg id order h := by simp [PaperLedger.new] at h
  status id order h := by simp [PaperLedger.new] at h

theorem reservedIn_nonneg (h : Backed p l) (a : String) (id : String) (order : Order String)
    (ho : l.orders.get? id = some order) : 0 ≤ p.reservedIn order a := by
  unfold PaperAdapter.reservedIn
  split
  · exact h.reservation_nonneg id order ho
  · exact le_refl 0

theorem used_nonneg (h : Backed p l) (a : String) : 0 ≤ l.used a := by
  rw [h.used_eq]
  exact Dict.sumBy_nonneg _ _ (h.reservedIn_nonneg a)

/-- An open order's reservation is covered by `used`, so releasing it is never clamped. -/
theorem reservation_le_used (h : Backed p l) {id : String} {order : Order String}
    (ho : l.orders.get? id = some order) (hopen : order.status = .open) :
    (p.reservation order).2 ≤ l.used (p.reservation order).1 := by
  have hle : p.reservedIn order (p.reservation order).1 ≤ l.used (p.reservation order).1 := by
    rw [h.used_eq]
    exact Dict.le_sumBy _ _ (h.reservedIn_nonneg _) ho
  rwa [PaperAdapter.reservedIn, if_pos ⟨hopen, rfl⟩] at hle

/-- Recording a new order keeps the ledger backed when `used` moved by its reservation. -/
theorem record (h : Backed p l) {id : String} {order : Order String}
    (hnew : l.orders.get? id = none) (horders : l'.orders = l.orders)
    (hused : ∀ a, l'.used a = l.used a + p.reservedIn order a)
    (hres : 0 ≤ (p.reservation order).2)
    (hstatus : order.status = .open ∨ order.status = .filled ∨ order.status = .canceled) :
    Backed p (l'.setOrder id order) where
  used_eq a := by
    rw [PaperLedger.used_setOrder, hused, h.used_eq, PaperAdapter.openReservations,
      PaperAdapter.openReservations, PaperLedger.orders_setOrder, horders,
      Dict.sumBy_set_new _ _ _ hnew]
  reservation_nonneg id' order' ho := by
    rw [PaperLedger.orders_setOrder, horders, Dict.get?_set] at ho
    split at ho
    · exact (Option.some.inj ho) ▸ hres
    · exact h.reservation_nonneg id' order' ho
  status id' order' ho := by
    rw [PaperLedger.orders_setOrder, horders, Dict.get?_set] at ho
    split at ho
    · exact (Option.some.inj ho) ▸ hstatus
    · exact h.status id' order' ho

/-- `create_order` keeps a ledger backed when it draws a new identifier. -/
theorem createOrder (h : Backed p l) (hfee : 0 ≤ p.feeRate) {market : MarketDataSource}
    {orderId : String} {request : OrderRequest} (hamt : 0 < request.amount)
    (hprice : ∀ price, request.price = some price → 0 < price)
    (hnew : l.orders.get? orderId = none) :
    Backed p (p.createOrder market orderId request l).2 := by
  rcases hrun : p.createOrder market orderId request l with ⟨r, l'⟩
  obtain ⟨e, -, rfl⟩ | ⟨ticker, -, -, -, -, rfl⟩ | ⟨ticker, price, -, -, -, -, rfl⟩ :=
    PaperAdapter.createOrder_cases hrun
  · exact h
  · refine h.record hnew rfl (fun a => ?_) (PaperAdapter.reservation_nonneg hfee hamt.le
      fun price hp => (hprice price hp).le) (Or.inl rfl)
    rw [PaperLedger.used_hold, PaperAdapter.reservedIn_of_open rfl]
  · refine h.record hnew (PaperAdapter.orders_settle p l request price) (fun a => ?_)
      (PaperAdapter.reservation_nonneg hfee hamt.le fun price hp => (hprice price hp).le)
      (Or.inr (Or.inl rfl))
    rw [PaperAdapter.used_settle,
      PaperAdapter.reservedIn_of_closed (by simp [PaperAdapter.filledOrder]), add_zero]

/-- On a backed ledger `cancel_order` releases the whole reservation: the clamp is not reached. -/
theorem cancel_releases (h : Backed p l) {orderId : String} {order : Order String}
    (ho : l.orders.get? orderId = some order)
    (hs : ¬ (order.status = .filled ∨ order.status = .canceled)) :
    order.status = .open ∧
      min (p.reservation order).2 (l.used (p.reservation order).1) = (p.reservation order).2 := by
  have hopen : order.status = .open := by
    rcases h.status orderId order ho with hst | hst | hst
    · exact hst
    · exact absurd (Or.inl hst) hs
    · exact absurd (Or.inr hst) hs
  exact ⟨hopen, min_eq_left (h.reservation_le_used ho hopen)⟩

/-- `cancel_order` keeps a ledger backed. -/
theorem cancelOrder (h : Backed p l) (orderId : String) :
    Backed p (p.cancelOrder orderId l).2 := by
  rcases hrun : p.cancelOrder orderId l with ⟨r, l'⟩
  obtain ⟨-, -, rfl⟩ | ⟨order, -, -, -, rfl⟩ | ⟨order, ho, hs, -, rfl⟩ :=
    PaperAdapter.cancelOrder_cases hrun
  · exact h
  · exact h
  · obtain ⟨hopen, hmin⟩ := h.cancel_releases ho hs
    rw [hmin]
    have hres := h.reservation_nonneg orderId order ho
    constructor
    · intro a
      rw [PaperLedger.used_setOrder, PaperLedger.used_hold, h.used_eq,
        PaperAdapter.openReservations, PaperAdapter.openReservations, PaperLedger.orders_setOrder,
        PaperLedger.orders_hold, Dict.sumBy_set, ho, Option.map_some, Option.getD_some,
        PaperAdapter.reservedIn_of_closed (show Order.status { order with
          status := .canceled, isPaper := true } ≠ .open by simp),
        PaperAdapter.reservedIn_of_open hopen]
      split <;> ring
    · intro id' order' ho'
      rw [PaperLedger.orders_setOrder, PaperLedger.orders_hold, Dict.get?_set] at ho'
      split at ho'
      · exact (Option.some.inj ho') ▸ hres
      · exact h.reservation_nonneg id' order' ho'
    · intro id' order' ho'
      rw [PaperLedger.orders_setOrder, PaperLedger.orders_hold, Dict.get?_set] at ho'
      split at ho'
      · exact (Option.some.inj ho') ▸ Or.inr (Or.inr rfl)
      · exact h.status id' order' ho'

end Backed

namespace LedgerInv

variable {p : PaperAdapter} {l : PaperLedger}

theorem new (quote : String) {start : ℚ} (hstart : 0 ≤ start) :
    LedgerInv p (PaperLedger.new quote start) where
  toBacked := Backed.new quote start
  free_nonneg a := by
    have : (PaperLedger.new quote start).free a
        = if a = quote then start else 0 := by
      simp only [PaperLedger.new, PaperLedger.free, PaperLedger.balance, Dict.get?_set]
      split <;> rfl
    rw [this]
    split
    · exact hstart
    · exact le_refl 0

/-- After a covered fill no free balance is negative: the fee never exceeds the proceeds. -/
theorem free_settle_nonneg (h : LedgerInv p l) (hfee1 : p.feeRate ≤ 1) {request : OrderRequest}
    {price : ℚ} (hamt : 0 < request.amount) (hprice : 0 ≤ price)
    (hle : (p.charge request price).2 ≤ l.free (p.charge request price).1) :
    ∀ a, 0 ≤ (p.settle l request price).free a := by
  unfold PaperAdapter.charge at hle
  unfold PaperAdapter.settle
  rcases request.side.buy_or_sell with hs | hs
  · simp only [hs] at hle ⊢
    exact PaperLedger.credit_nonneg (PaperLedger.debit_nonneg h.free_nonneg hle) hamt.le
  · simp only [hs] at hle ⊢
    have hcost : 0 ≤ request.amount * price := mul_nonneg hamt.le hprice
    have hproceeds : 0 ≤ request.amount * price - request.amount * price * p.feeRate := by
      have := mul_le_mul_of_nonneg_left hfee1 hcost
      linarith
    exact PaperLedger.credit_nonneg (PaperLedger.debit_nonneg h.free_nonneg hle) hproceeds

/-- `create_order` keeps the invariant when it draws a new identifier. -/
theorem createOrder (hfee : 0 ≤ p.feeRate) (hfee1 : p.feeRate ≤ 1) (h : LedgerInv p l)
    {market : MarketDataSource} {orderId : String} {request : OrderRequest}
    (hamt : 0 < request.amount) (hprice : ∀ price, request.price = some price → 0 < price)
    (hlast : ∀ ticker, market.fetchTicker request.symbol = .ok ticker → 0 ≤ ticker.last)
    (hnew : l.orders.get? orderId = none) :
    LedgerInv p (p.createOrder market orderId request l).2 := by
  refine ⟨h.toBacked.createOrder hfee hamt hprice hnew, ?_⟩
  rcases hrun : p.createOrder market orderId request l with ⟨r, l'⟩
  obtain ⟨e, -, rfl⟩ | ⟨ticker, -, -, hle, -, rfl⟩ | ⟨ticker, price, hf, hr, hle, -, rfl⟩ :=
    PaperAdapter.createOrder_cases hrun
  · exact h.free_nonneg
  · exact PaperLedger.hold_nonneg h.free_nonneg hle
  · obtain ⟨-, rfl⟩ := PaperAdapter.resolveFillPrice_eq_some_iff.1 hr
    exact h.free_settle_nonneg hfee1 hamt (hlast ticker hf) hle

/-- `cancel_order` keeps the invariant. -/
theorem cancelOrder (h : LedgerInv p l) (orderId : String) :
    LedgerInv p (p.cancelOrder orderId l).2 := by
  refine ⟨h.toBacked.cancelOrder orderId, ?_⟩
  rcases hrun : p.cancelOrder orderId l with ⟨r, l'⟩
  obtain ⟨-, -, rfl⟩ | ⟨order, -, -, -, rfl⟩ | ⟨order, ho, hs, -, rfl⟩ :=
    PaperAdapter.cancelOrder_cases hrun
  · exact h.free_nonneg
  · exact h.free_nonneg
  · have hres := h.reservation_nonneg orderId order ho
    rw [(h.toBacked.cancel_releases ho hs).2]
    intro a
    have := h.free_nonneg a
    rw [PaperLedger.free_setOrder, PaperLedger.free_hold]
    split <;> linarith

end LedgerInv

/-! ## Runs -/

namespace PaperCall

variable {p : PaperAdapter} {l : PaperLedger}

/-- A call that raises leaves the ledger as it was: every raise comes before the first write. -/
theorem run_error [DecimalContext] {call : PaperCall} {e : AppError}
    (h : (call.run p l).1 = .error e) :
    (call.run p l).2 = l := by
  rcases hrun : call.run p l with ⟨r, l'⟩
  rw [hrun] at h
  cases call with
  | create answer orderId request =>
    obtain ⟨-, -, rfl⟩ | ⟨_, -, -, -, rfl, -⟩ | ⟨_, _, -, -, -, rfl, -⟩ :=
      PaperAdapter.createOrder_cases hrun
    · rfl
    · exact absurd h (by simp)
    · exact absurd h (by simp)
  | cancel orderId =>
    obtain ⟨-, -, rfl⟩ | ⟨_, -, -, -, rfl⟩ | ⟨_, -, -, rfl, -⟩ :=
      PaperAdapter.cancelOrder_cases hrun
    · rfl
    · rfl
    · exact absurd h (by simp)

/-- A call records an order only under the identifier it draws or cancels. -/
theorem run_get?_of_not_drawn [DecimalContext] {call : PaperCall} {id : String}
    (hid : id ∉ drawnIds [call]) (h : l.orders.get? id = none) :
    (call.run p l).2.orders.get? id = none := by
  rcases hrun : call.run p l with ⟨r, l'⟩
  cases call with
  | create answer orderId request =>
    have hne : id ≠ orderId := by simpa [drawnIds] using hid
    obtain ⟨-, -, rfl⟩ | ⟨_, -, -, -, -, rfl⟩ | ⟨_, _, -, -, -, -, rfl⟩ :=
      PaperAdapter.createOrder_cases hrun
    · exact h
    · simpa [Dict.get?_set_of_ne _ _ hne] using h
    · simpa [Dict.get?_set_of_ne _ _ hne] using h
  | cancel orderId =>
    obtain ⟨-, -, rfl⟩ | ⟨_, -, -, -, rfl⟩ | ⟨order, ho, -, -, rfl⟩ :=
      PaperAdapter.cancelOrder_cases hrun
    · exact h
    · exact h
    · have hne : id ≠ orderId := by
        rintro rfl
        rw [h] at ho
        exact absurd ho (by simp)
      simpa [Dict.get?_set_of_ne _ _ hne] using h

/-- The run rule of the engine: what every call with a new identifier keeps, a run keeps. -/
theorem runAll_invariant {I : PaperLedger → Prop} (ok : PaperCall → Prop)
    (hcreate : ∀ l answer orderId request, I l → ok (create answer orderId request) →
      l.orders.get? orderId = none → I ((create answer orderId request).run p l).2)
    (hcancel : ∀ l orderId, I l → I ((cancel orderId).run p l).2) :
    ∀ (calls : List PaperCall) (l : PaperLedger), I l → (∀ call ∈ calls, ok call) →
      (drawnIds calls).Nodup → (∀ id ∈ drawnIds calls, l.orders.get? id = none) →
      I (runAll p l calls) := by
  intro calls
  induction calls with
  | nil => intro l hl _ _ _; exact hl
  | cons call calls ih =>
    intro l hl hok hnodup hfresh
    have hok' : ∀ c ∈ calls, ok c := fun c hc => hok c (List.mem_cons_of_mem _ hc)
    cases call with
    | create answer orderId request =>
      rw [drawnIds, List.nodup_cons] at hnodup
      refine ih _ (hcreate l answer orderId request hl (hok _ List.mem_cons_self)
        (hfresh orderId List.mem_cons_self)) hok' hnodup.2 (fun id hid => ?_)
      refine run_get?_of_not_drawn ?_ (hfresh id (List.mem_cons_of_mem _ hid))
      simp only [drawnIds, List.mem_singleton]
      rintro rfl
      exact hnodup.1 hid
    | cancel orderId =>
      exact ih _ (hcancel l orderId hl) hok' hnodup
        (fun id hid => run_get?_of_not_drawn (by simp [drawnIds]) (hfresh id hid))

end PaperCall

/-- After every run of admitted calls on a fresh ledger, no balance is negative and `used` is the
    sum of the open reservations; and a call that raises changes nothing. -/
theorem ledger_backed_after_run (p : PaperAdapter) (hfee : 0 ≤ p.feeRate) (hfee1 : p.feeRate ≤ 1)
    (quote : String) (start : ℚ) (hstart : 0 ≤ start) (calls : List PaperCall)
    (hadm : ∀ call ∈ calls, call.Admitted) (hids : (PaperCall.drawnIds calls).Nodup) :
    let l := PaperCall.runAll p (PaperLedger.new quote start) calls
    (∀ a, 0 ≤ l.free a ∧ 0 ≤ l.used a ∧ l.used a = p.openReservations l a) ∧
      ∀ (call : PaperCall) (e : AppError), (call.run p l).1 = .error e →
        (call.run p l).2.balances = l.balances ∧ (call.run p l).2.orders = l.orders := by
  intro l
  have hinv : LedgerInv p l := by
    refine PaperCall.runAll_invariant PaperCall.Admitted ?_ ?_ calls _
      (LedgerInv.new quote hstart) hadm hids (fun _ _ => rfl)
    · intro l answer orderId request hl hadm hnew
      exact hl.createOrder hfee hfee1 hadm.1 hadm.2.1 hadm.2.2 hnew
    · intro l orderId hl
      exact hl.cancelOrder orderId
  refine ⟨fun a => ⟨hinv.free_nonneg a, hinv.used_nonneg a, hinv.used_eq a⟩, fun call e he => ?_⟩
  rw [PaperCall.run_error he]
  exact ⟨rfl, rfl⟩

/-- A market buy, a limit buy that rests, its cancellation and an unknown cancellation, all at a
    market price of 100. -/
def sampleCalls : List PaperCall :=
  let ticker : Ticker := ⟨"BTC/USDT", 100, none, none, none, none, none, none⟩
  [.create (.ok ticker) "paper-1" ⟨"BTC/USDT", .buy, .market, 1, none, none, .gtc, false, false,
    none, none⟩,
   .create (.ok ticker) "paper-2" ⟨"BTC/USDT", .buy, .limit, 2, some 90, none, .gtc, false, false,
    none, none⟩,
   .cancel "paper-2",
   .cancel "paper-3"]

theorem ledger_backed_after_sample :
    let l := PaperCall.runAll {} (PaperLedger.new "USDT" 1000) sampleCalls
    (∀ a, 0 ≤ l.free a ∧ 0 ≤ l.used a ∧ l.used a = ({} : PaperAdapter).openReservations l a) ∧
      ∀ (call : PaperCall) (e : AppError), (call.run {} l).1 = .error e →
        (call.run {} l).2.balances = l.balances ∧ (call.run {} l).2.orders = l.orders :=
  ledger_backed_after_run {} (by norm_num) (by norm_num) "USDT" 1000 (by norm_num) sampleCalls
    (by simp [sampleCalls, PaperCall.Admitted]) (by decide)

/-! ## Conservation -/

namespace PaperAdapter

variable {p : PaperAdapter} {l : PaperLedger}

/-- A fill moves exactly the effect its order records. -/
theorem free_settle (p : PaperAdapter) (l : PaperLedger) (orderId : String)
    (request : OrderRequest) (ticker : Ticker) (price : ℚ) (a : String) :
    (p.settle l request price).free a = l.free a
      + p.fillEffect (filledOrder orderId request ticker price (p.fee request price)) a := by
  unfold settle fillEffect filledOrder
  simp only [if_true, Option.getD_some]
  cases request.side with
  | buy =>
    simp only [PaperLedger.free_moveFree, DecimalContext.fix_exact]
    split_ifs <;> ring
  | sell =>
    simp only [PaperLedger.free_moveFree, DecimalContext.fix_exact]
    split_ifs <;> ring

end PaperAdapter

/-- The total of every asset is its starting balance plus the effect of the filled orders. -/
def Explained (p : PaperAdapter) (quote : String) (start : ℚ) (l : PaperLedger) : Prop :=
  ∀ a, l.free a + l.used a = (if a = quote then start else 0) + p.fillEffects l a

namespace Explained

variable {p : PaperAdapter} {quote : String} {start : ℚ} {l : PaperLedger}

theorem new : Explained p quote start (PaperLedger.new quote start) := by
  intro a
  simp only [PaperLedger.new, PaperLedger.free, PaperLedger.used, PaperLedger.balance,
    Dict.get?_set, PaperAdapter.fillEffects, Dict.sumBy_empty, add_zero]
  split <;> simp

theorem createOrder (h : Explained p quote start l) (market : MarketDataSource) (orderId : String)
    (request : OrderRequest) (hnew : l.orders.get? orderId = none) :
    Explained p quote start (p.createOrder market orderId request l).2 := by
  intro a
  have ha := h a
  rcases hrun : p.createOrder market orderId request l with ⟨r, l'⟩
  obtain ⟨-, -, rfl⟩ | ⟨ticker, -, -, -, -, rfl⟩ | ⟨ticker, price, -, -, -, -, rfl⟩ :=
    PaperAdapter.createOrder_cases hrun
  · exact ha
  · -- Resting moves funds between the two halves of one balance.
    rw [PaperLedger.free_setOrder, PaperLedger.used_setOrder, PaperLedger.free_hold,
      PaperLedger.used_hold, PaperAdapter.fillEffects, PaperLedger.orders_setOrder,
      PaperLedger.orders_hold, Dict.sumBy_set_new _ _ _ hnew,
      PaperAdapter.fillEffect_of_not_filled (by simp [PaperAdapter.restingOrder])]
    rw [PaperAdapter.fillEffects] at ha
    linarith
  · rw [PaperLedger.free_setOrder, PaperLedger.used_setOrder, PaperAdapter.used_settle,
      PaperAdapter.free_settle p l orderId request ticker, PaperAdapter.fillEffects,
      PaperLedger.orders_setOrder, PaperAdapter.orders_settle, Dict.sumBy_set_new _ _ _ hnew]
    rw [PaperAdapter.fillEffects] at ha
    linarith

theorem cancelOrder (h : Explained p quote start l) (orderId : String) :
    Explained p quote start (p.cancelOrder orderId l).2 := by
  intro a
  have ha := h a
  rcases hrun : p.cancelOrder orderId l with ⟨r, l'⟩
  obtain ⟨-, -, rfl⟩ | ⟨order, -, -, -, rfl⟩ | ⟨order, ho, hs, -, rfl⟩ :=
    PaperAdapter.cancelOrder_cases hrun
  · exact ha
  · exact ha
  · -- Neither the order before the cancel nor the one after it is filled.
    rw [PaperLedger.free_setOrder, PaperLedger.used_setOrder, PaperLedger.free_hold,
      PaperLedger.used_hold, PaperAdapter.fillEffects, PaperLedger.orders_setOrder,
      PaperLedger.orders_hold, Dict.sumBy_set, ho, Option.map_some, Option.getD_some,
      PaperAdapter.fillEffect_of_not_filled (fun hf => hs (Or.inl hf)),
      PaperAdapter.fillEffect_of_not_filled (show Order.status { order with
        status := .canceled, isPaper := true } ≠ .filled by simp)]
    rw [PaperAdapter.fillEffects] at ha
    linarith

end Explained

/-- After every run on a fresh ledger the fills explain the balances: nothing else moved a total. -/
theorem fills_explain_balances (p : PaperAdapter) (quote : String) (start : ℚ)
    (calls : List PaperCall) (hids : (PaperCall.drawnIds calls).Nodup) (a : String) :
    let l := PaperCall.runAll p (PaperLedger.new quote start) calls
    l.free a + l.used a = (if a = quote then start else 0) + p.fillEffects l a := by
  have h : Explained p quote start (PaperCall.runAll p (PaperLedger.new quote start) calls) := by
    refine PaperCall.runAll_invariant (fun _ => True) ?_ ?_ calls _ Explained.new
      (fun _ _ => trivial) hids (fun _ _ => rfl)
    · intro l answer orderId request hl _ hnew
      exact hl.createOrder _ orderId request hnew
    · intro l orderId hl
      exact hl.cancelOrder orderId
  exact h a

theorem fills_explain_sample :
    let l := PaperCall.runAll {} (PaperLedger.new "USDT" 1000) sampleCalls
    l.free "USDT" + l.used "USDT"
      = (if "USDT" = "USDT" then 1000 else 0) + ({} : PaperAdapter).fillEffects l "USDT" :=
  fills_explain_balances {} "USDT" 1000 sampleCalls (by decide) "USDT"

end TradingHub
