import TradingHub.Exchange.Paper.Proofs
import TradingHub.Library.Rounding
import Mathlib.Data.Rat.Floor

set_option autoImplicit false

/-! # A ledger kept in Numeric columns

Between two requests a ledger lies in `Numeric(36, 18)` columns, which keep eighteen fractional
digits. A resting order is reserved from the request as it came and released from the row as it
was kept, and both amounts are rounded once more when `used` is stored: the reservation up at a
tie, the release down.

`HeldWithin` says that the one is no more than the other. `Settled` is what is left of a backed
ledger then, if the decimal context does not raise `used` by what the columns can tell: `used` is at
most what cancelling the open orders will take off, so that nothing is left of it without open
orders. -/

namespace TradingHub

open Library
open DecimalContext (fix)

/-! ## What the columns keep -/

/-- The multiple kept by the `Numeric(36, 18)` columns. -/
def numericScale : ℕ := 10 ^ 18

theorem numericScale_pos : 0 < numericScale := by decide

/-- What a `Numeric(36, 18)` column keeps of a `Decimal`. -/
def numeric (q : ℚ) : ℚ := roundAway numericScale q

theorem numeric_numeric (q : ℚ) : numeric (numeric q) = numeric q :=
  roundAway_of_onGrid numericScale_pos (onGrid_roundAway numericScale_pos)

@[simp] theorem numeric_zero : numeric 0 = 0 := roundAway_zero

theorem numeric_nonneg {q : ℚ} (h : 0 ≤ q) : 0 ≤ numeric q := roundAway_nonneg h

def Balance.stored (b : Balance) : Balance :=
  { b with free := numeric b.free, used := numeric b.used }

def Order.stored {Symbol : Type} (o : Order Symbol) : Order Symbol :=
  { o with
    amount := numeric o.amount
    filled := numeric o.filled
    price := o.price.map numeric
    average := o.average.map numeric
    fee := numeric o.fee }

theorem Order.stored_stored {Symbol : Type} (o : Order Symbol) : o.stored.stored = o.stored := by
  unfold stored
  simp only [numeric_numeric, Option.map_map, show numeric ∘ numeric = numeric from
    funext numeric_numeric]

/-- The ledger as it is loaded after it was saved. -/
def PaperLedger.stored (l : PaperLedger) : PaperLedger :=
  { l with
    balances := l.balances.mapValues fun _ => Balance.stored
    orders := l.orders.mapValues fun _ => Order.stored }

namespace PaperLedger

theorem free_stored (l : PaperLedger) (a : String) : l.stored.free a = numeric (l.free a) := by
  unfold free balance stored
  simp only [Dict.get?_mapValues]
  cases l.balances.get? a with
  | none => exact numeric_zero.symm
  | some b => rfl

theorem used_stored (l : PaperLedger) (a : String) : l.stored.used a = numeric (l.used a) := by
  unfold used balance stored
  simp only [Dict.get?_mapValues]
  cases l.balances.get? a with
  | none => exact numeric_zero.symm
  | some b => rfl

theorem get?_orders_stored (l : PaperLedger) (id : String) :
    l.stored.orders.get? id = (l.orders.get? id).map Order.stored :=
  Dict.get?_mapValues _ _ _

end PaperLedger

/-! ## Reserved and released -/

namespace PaperAdapter

variable [DecimalContext] {p : PaperAdapter}

theorem reservation_stored_asset (order : Order String) :
    (p.reservation order.stored).1 = (p.reservation order).1 := by
  unfold reservation Order.stored
  cases order.side <;> rfl

/-- What is kept reserved for a resting order is no more than what cancelling its row takes off. -/
def HeldWithin (p : PaperAdapter) (order : Order String) : Prop :=
  roundAway numericScale (p.reservation order).2
    ≤ roundToward numericScale (p.reservation order.stored).2

instance (p : PaperAdapter) (order : Order String) : Decidable (p.HeldWithin order) :=
  inferInstanceAs (Decidable (_ ≤ _))

/-- What cancelling `order` takes off the stored `used` of `asset`. -/
def releasedIn (p : PaperAdapter) (order : Order String) (asset : String) : ℚ :=
  roundToward numericScale (p.reservedIn order asset)

/-- What cancelling all open orders takes off. -/
def openReleases (p : PaperAdapter) (l : PaperLedger) (asset : String) : ℚ :=
  l.orders.sumBy fun _ order => p.releasedIn order asset

theorem releasedIn_of_closed {order : Order String} (h : order.status ≠ .open) (asset : String) :
    p.releasedIn order asset = 0 := by
  rw [releasedIn, reservedIn_of_closed h, roundToward_zero]

theorem releasedIn_of_open {order : Order String} (h : order.status = .open) (asset : String) :
    p.releasedIn order asset = if asset = (p.reservation order).1
      then roundToward numericScale (p.reservation order).2 else 0 := by
  rw [releasedIn, reservedIn_of_open h]
  split
  · rfl
  · exact roundToward_zero

/-- For an order that rests it is the condition that matters, a closed one holds nothing. -/
theorem HeldWithin.reservedIn_le {order : Order String}
    (h : order.status = .open → p.HeldWithin order) (asset : String) :
    numeric (p.reservedIn order asset) ≤ p.releasedIn order.stored asset := by
  by_cases hopen : order.status = .open
  · have hstored : order.stored.status = .open := hopen
    rw [reservedIn_of_open hopen, releasedIn_of_open hstored, reservation_stored_asset]
    split
    · exact h hopen
    · exact numeric_zero.le
  · have hstored : order.stored.status ≠ .open := hopen
    rw [reservedIn_of_closed hopen, releasedIn_of_closed hstored, numeric_zero]

theorem openReleases_stored (l : PaperLedger) (asset : String) :
    p.openReleases l.stored asset = l.orders.sumBy fun _ order => p.releasedIn order.stored asset :=
  Dict.sumBy_mapValues l.orders (fun _ => Order.stored) fun _ order => p.releasedIn order asset

/-- Rounding keeps a reservation from becoming negative. -/
theorem reservation_stored_nonneg (hfee : 0 ≤ p.feeRate) {order : Order String}
    (hamt : 0 ≤ order.amount) (hprice : ∀ price, order.price = some price → 0 ≤ price) :
    0 ≤ (p.reservation order.stored).2 := by
  refine reservation_nonneg hfee (numeric_nonneg hamt) fun price hp => ?_
  obtain ⟨price', hp', rfl⟩ := Option.map_eq_some_iff.1 hp
  exact numeric_nonneg (hprice price' hp')

end PaperAdapter

/-! ## Settled ledgers -/

/-- A ledger as the columns keep it, whose `used` cancelling the open orders will clear. -/
structure Settled [DecimalContext] (p : PaperAdapter) (l : PaperLedger) : Prop where
  used_kept : ∀ a, OnGrid numericScale (l.used a)
  used_nonneg : ∀ a, 0 ≤ l.used a
  used_le : ∀ a, l.used a ≤ p.openReleases l a
  order_kept : ∀ id order, l.orders.get? id = some order → order.stored = order
  reservation_nonneg : ∀ id order, l.orders.get? id = some order → 0 ≤ (p.reservation order).2
  status : ∀ id order, l.orders.get? id = some order →
    order.status = .open ∨ order.status = .filled ∨ order.status = .canceled

namespace Settled

variable [DecimalContext] {p : PaperAdapter} {l l' : PaperLedger}

theorem new (quote : String) (start : ℚ) : Settled p (PaperLedger.new quote start) := by
  have hused : ∀ a, (PaperLedger.new quote start).used a = 0 := by
    intro a
    simp only [PaperLedger.new, PaperLedger.used, PaperLedger.balance, Dict.get?_set]
    split <;> rfl
  constructor
  · exact fun a => (hused a).symm ▸ onGrid_zero
  · exact fun a => (hused a).ge
  · exact fun a => (hused a).le
  all_goals exact fun id order h => absurd h (by simp [PaperLedger.new])

theorem releasedIn_nonneg (h : Settled p l) (a : String) (id : String) (order : Order String)
    (ho : l.orders.get? id = some order) : 0 ≤ p.releasedIn order a := by
  refine roundToward_nonneg ?_
  unfold PaperAdapter.reservedIn
  split
  · exact h.reservation_nonneg id order ho
  · exact le_rfl

/-- Without open orders nothing is left in `used`. -/
theorem used_eq_zero (h : Settled p l)
    (hclosed : ∀ id order, l.orders.get? id = some order → order.status ≠ .open) (a : String) :
    l.used a = 0 := by
  have hnone : p.openReleases l a = (Dict.empty : Dict String (Order String)).sumBy fun _ _ => 0 := by
    rw [PaperAdapter.openReleases, Dict.sumBy_congr fun id order ho =>
      PaperAdapter.releasedIn_of_closed (hclosed id order ho) a]
    simp [Dict.sumBy]
  exact le_antisymm ((h.used_le a).trans hnone.le) (h.used_nonneg a)

/-- Saving and loading changes nothing that counts. -/
theorem openReleases_stored (h : Settled p l) (a : String) :
    (l.orders.sumBy fun _ order => p.releasedIn order.stored a) = p.openReleases l a :=
  Dict.sumBy_congr fun id order ho => by rw [h.order_kept id order ho]

theorem stored (h : Settled p l) : Settled p l.stored := by
  have hused : ∀ a, l.stored.used a = l.used a := fun a => by
    rw [PaperLedger.used_stored, numeric, roundAway_of_onGrid numericScale_pos (h.used_kept a)]
  have horders : ∀ id, l.stored.orders.get? id = l.orders.get? id := fun id => by
    rw [PaperLedger.get?_orders_stored]
    cases ho : l.orders.get? id with
    | none => rfl
    | some order => rw [Option.map_some, h.order_kept id order ho]
  constructor
  · exact fun a => (hused a).symm ▸ h.used_kept a
  · exact fun a => (hused a).symm ▸ h.used_nonneg a
  · intro a
    rw [hused, PaperAdapter.openReleases_stored, h.openReleases_stored]
    exact h.used_le a
  · exact fun id order ho => h.order_kept id order (horders id ▸ ho)
  · exact fun id order ho => h.reservation_nonneg id order (horders id ▸ ho)
  · exact fun id order ho => h.status id order (horders id ▸ ho)

/-- Writing one order and saving keeps a ledger settled if the releases still cover `used`. -/
theorem setOrder (h : Settled p l) {id : String} {order : Order String}
    (horders : l'.orders = l.orders)
    (hused : ∀ a, 0 ≤ l'.stored.used a ∧
      l'.stored.used a ≤ p.openReleases (l'.setOrder id order).stored a)
    (hres : 0 ≤ (p.reservation order.stored).2)
    (hstatus : order.status = .open ∨ order.status = .filled ∨ order.status = .canceled) :
    Settled p (l'.setOrder id order).stored := by
  have hget : ∀ id' order', (l'.setOrder id order).stored.orders.get? id' = some order' →
      order' = order.stored ∨ l.orders.get? id' = some order' := by
    intro id' order' ho
    rw [PaperLedger.get?_orders_stored, PaperLedger.orders_setOrder, horders, Dict.get?_set] at ho
    split at ho
    · exact Or.inl (Option.some.inj ho).symm
    · obtain ⟨order₀, ho₀, rfl⟩ := Option.map_eq_some_iff.1 ho
      exact Or.inr (by rw [ho₀, h.order_kept id' order₀ ho₀])
  constructor
  · intro a
    rw [PaperLedger.used_stored]
    exact onGrid_roundAway numericScale_pos
  · exact fun a => (hused a).1
  · exact fun a => (hused a).2
  · intro id' order' ho
    rcases hget id' order' ho with rfl | ho
    · exact order.stored_stored
    · exact h.order_kept id' order' ho
  · intro id' order' ho
    rcases hget id' order' ho with rfl | ho
    · exact hres
    · exact h.reservation_nonneg id' order' ho
  · intro id' order' ho
    rcases hget id' order' ho with rfl | ho
    · exact hstatus
    · exact h.status id' order' ho

/-- Recording a new order: `used` grew by no more than its reservation, and the order is held within
    its release. -/
theorem record (h : Settled p l) {id : String} {order : Order String}
    (hnew : l.orders.get? id = none) (horders : l'.orders = l.orders)
    (hused : ∀ a, 0 ≤ l'.used a ∧ numeric (l'.used a) ≤ numeric (l.used a + p.reservedIn order a))
    (hres : 0 ≤ (p.reservation order).2) (hres' : 0 ≤ (p.reservation order.stored).2)
    (hheld : order.status = .open → p.HeldWithin order)
    (hstatus : order.status = .open ∨ order.status = .filled ∨ order.status = .canceled) :
    Settled p (l'.setOrder id order).stored := by
  refine h.setOrder horders (fun a => ?_) hres' hstatus
  have hreserved : 0 ≤ p.reservedIn order a := by
    unfold PaperAdapter.reservedIn
    split
    · exact hres
    · exact le_rfl
  obtain ⟨hnonneg, hgrown⟩ := hused a
  have hkept : l'.stored.used a ≤ l.used a + numeric (p.reservedIn order a) := by
    rw [PaperLedger.used_stored]
    exact hgrown.trans
      (roundAway_add numericScale_pos (h.used_kept a) (h.used_nonneg a) hreserved).le
  constructor
  · rw [PaperLedger.used_stored]
    exact numeric_nonneg hnonneg
  · rw [PaperAdapter.openReleases_stored, PaperLedger.orders_setOrder, horders,
      Dict.sumBy_set_new _ _ _ hnew, h.openReleases_stored]
    exact hkept.trans (add_le_add (h.used_le a) (PaperAdapter.HeldWithin.reservedIn_le hheld a))

/-- `create_order` keeps a ledger settled if a resting order is held within its release, and the
    sum in `used` is not raised. -/
theorem createOrder (h : Settled p l) (hfee : 0 ≤ p.feeRate) {market : MarketDataSource}
    {orderId : String} {request : OrderRequest} (hamt : 0 < request.amount)
    (hprice : ∀ price, request.price = some price → 0 < price)
    (hnew : l.orders.get? orderId = none)
    (hheld : ∀ ticker, market.fetchTicker request.symbol = .ok ticker →
      PaperAdapter.resolveFillPrice request ticker = none →
      let order := PaperAdapter.restingOrder orderId request ticker
      (p.reservation order).2 ≤ l.free (p.reservation order).1 →
      p.HeldWithin order ∧ numeric (fix (l.used (p.reservation order).1 + (p.reservation order).2))
        ≤ numeric (l.used (p.reservation order).1 + (p.reservation order).2)) :
    Settled p (p.createOrder market orderId request l).2.stored := by
  have hprice' : ∀ price, request.price = some price → 0 ≤ price := fun price hp =>
    (hprice price hp).le
  rcases hrun : p.createOrder market orderId request l with ⟨r, l'⟩
  obtain ⟨e, -, rfl⟩ | ⟨ticker, hf, hr, hle, -, rfl⟩ | ⟨ticker, price, -, -, -, -, rfl⟩ :=
    PaperAdapter.createOrder_cases hrun
  · exact h.stored
  · obtain ⟨hwithin, hadded⟩ := hheld ticker hf hr hle
    have hres := PaperAdapter.reservation_nonneg (p := p) hfee
      (show 0 ≤ (PaperAdapter.restingOrder orderId request ticker).amount from hamt.le) hprice'
    refine h.record hnew rfl (fun a => ?_) hres
      (PaperAdapter.reservation_stored_nonneg hfee hamt.le hprice') (fun _ => hwithin) (Or.inl rfl)
    rw [PaperLedger.used_hold_eq, PaperAdapter.reservedIn_of_open rfl]
    split
    · next ha =>
      rw [ha]
      exact ⟨DecimalContext.fix_nonneg (add_nonneg (h.used_nonneg _) hres), hadded⟩
    · rw [add_zero]
      exact ⟨h.used_nonneg a, le_rfl⟩
  · refine h.record hnew (PaperAdapter.orders_settle p l request price) (fun a => ?_)
      (PaperAdapter.reservation_nonneg hfee hamt.le hprice')
      (PaperAdapter.reservation_stored_nonneg hfee hamt.le hprice')
      (fun hopen => absurd hopen (by simp [PaperAdapter.filledOrder])) (Or.inr (Or.inl rfl))
    rw [PaperAdapter.used_settle,
      PaperAdapter.reservedIn_of_closed (by simp [PaperAdapter.filledOrder]), add_zero]
    exact ⟨h.used_nonneg a, le_rfl⟩

/-- What a release leaves in `used` is covered by the other releases: either it took off what it
    counts for, or the clamp took effect and nothing is left. -/
theorem used_released (h : Settled p l) {asset : String} {amount : ℚ} (a : String) {rest : ℚ}
    (hrest : 0 ≤ rest) (hkept : amount ≤ l.used asset →
      numeric (fix (l.used asset - amount)) ≤ numeric (l.used asset - amount))
    (hle : l.used a ≤ rest + if a = asset then roundToward numericScale amount else 0) :
    0 ≤ (l.hold asset (-(min amount (l.used asset)))).stored.used a ∧
      (l.hold asset (-(min amount (l.used asset)))).stored.used a ≤ rest := by
  rw [PaperLedger.used_stored, PaperLedger.used_hold_eq]
  by_cases ha : a = asset
  · subst ha
    rw [if_pos rfl] at hle
    rw [if_pos rfl, ← sub_eq_add_neg]
    refine ⟨numeric_nonneg (DecimalContext.fix_nonneg (sub_nonneg.2 (min_le_right _ _))), ?_⟩
    rcases le_total amount (l.used a) with hcover | hclamp
    · rw [min_eq_left hcover]
      have hoff : numeric (l.used a - amount) = l.used a - roundToward numericScale amount :=
        roundAway_sub numericScale_pos (h.used_kept a) hcover
      linarith [hkept hcover]
    · rw [min_eq_right hclamp, sub_self, DecimalContext.fix_zero, numeric_zero]
      exact hrest
  · rw [if_neg ha, add_zero] at hle
    rw [if_neg ha, numeric, roundAway_of_onGrid numericScale_pos (h.used_kept a)]
    exact ⟨h.used_nonneg a, hle⟩

/-- `cancel_order` keeps a ledger settled if what it leaves in `used` is not raised. -/
theorem cancelOrder (h : Settled p l) {orderId : String}
    (hkept : ∀ order, l.orders.get? orderId = some order → order.status = .open →
      (p.reservation order).2 ≤ l.used (p.reservation order).1 →
      numeric (fix (l.used (p.reservation order).1 - (p.reservation order).2))
        ≤ numeric (l.used (p.reservation order).1 - (p.reservation order).2)) :
    Settled p (p.cancelOrder orderId l).2.stored := by
  rcases hrun : p.cancelOrder orderId l with ⟨r, l'⟩
  obtain ⟨-, -, rfl⟩ | ⟨order, -, -, -, rfl⟩ | ⟨order, ho, hs, -, rfl⟩ :=
    PaperAdapter.cancelOrder_cases hrun
  · exact h.stored
  · exact h.stored
  · have hopen : order.status = .open := by
      rcases h.status orderId order ho with hst | hst | hst
      · exact hst
      · exact absurd (Or.inl hst) hs
      · exact absurd (Or.inr hst) hs
    have hres : 0 ≤ (p.reservation order.stored).2 := by
      rw [h.order_kept orderId order ho]
      exact h.reservation_nonneg orderId order ho
    refine h.setOrder rfl (fun a => ?_) hres (Or.inr (Or.inr rfl))
    -- The canceled order releases nothing any more, the others what they did.
    have hclosed : p.releasedIn (Order.stored
        { order with status := .canceled, isPaper := true }) a = 0 :=
      PaperAdapter.releasedIn_of_closed (by simp [Order.stored]) a
    have hrest : p.openReleases (((l.hold (p.reservation order).1
        (-(min (p.reservation order).2 (l.used (p.reservation order).1)))).setOrder orderId
          { order with status := .canceled, isPaper := true }).stored) a
        = p.openReleases l a - p.releasedIn order a := by
      rw [PaperAdapter.openReleases_stored, PaperLedger.orders_setOrder, PaperLedger.orders_hold,
        Dict.sumBy_set, ho, h.openReleases_stored, Option.map_some, Option.getD_some, hclosed,
        h.order_kept orderId order ho, add_zero]
    rw [hrest]
    refine h.used_released a (sub_nonneg.2 (Dict.le_sumBy _ _ (h.releasedIn_nonneg a) ho))
      (hkept order ho hopen) ?_
    rw [← PaperAdapter.releasedIn_of_open hopen, sub_add_cancel]
    exact h.used_le a

end Settled

/-- In exact arithmetic the condition is exact for one order: placed where nothing is in `used`,
    saved, cancelled and saved again, it leaves nothing there if and only if it was held within its
    release. -/
theorem PaperAdapter.cancel_clears_iff {p : PaperAdapter} {l : PaperLedger} {id : String}
    {order : Order String} (hzero : l.used (p.reservation order).1 = 0)
    (hopen : order.status = .open) :
    let placed := (l.hold (p.reservation order).1 (p.reservation order).2).setOrder id order
    (p.cancelOrder id placed.stored).2.stored.used (p.reservation order).1 = 0
      ↔ p.HeldWithin order := by
  intro placed
  have hget : placed.stored.orders.get? id = some order.stored := by
    rw [PaperLedger.get?_orders_stored, PaperLedger.orders_setOrder, Dict.get?_set_self]
    rfl
  have hused : placed.stored.used (p.reservation order).1 = numeric (p.reservation order).2 := by
    rw [PaperLedger.used_stored, PaperLedger.used_setOrder, PaperLedger.used_hold, hzero,
      if_pos rfl, zero_add]
  have hstatus : ¬ (order.stored.status = .filled ∨ order.stored.status = .canceled) := by
    simp [Order.stored, hopen]
  have hkept : OnGrid numericScale (numeric (p.reservation order).2) :=
    onGrid_roundAway numericScale_pos
  rw [PaperLedger.used_stored, cancelOrder_run, hget]
  simp only [if_neg hstatus]
  rw [PaperLedger.used_setOrder, PaperLedger.used_hold, reservation_stored_asset, hused,
    if_pos rfl, ← sub_eq_add_neg]
  rcases le_total (p.reservation order.stored).2 (numeric (p.reservation order).2) with hle | hle
  · rw [min_eq_left hle, numeric, roundAway_sub numericScale_pos hkept hle, sub_eq_zero]
    have hround : roundToward numericScale (p.reservation order.stored).2
        ≤ roundToward numericScale (numeric (p.reservation order).2) := roundToward_mono hle
    rw [roundToward_of_onGrid numericScale_pos hkept] at hround
    exact ⟨fun heq => heq.le, fun hheld => le_antisymm hheld hround⟩
  · rw [min_eq_right hle, sub_self]
    exact ⟨fun _ => roundAway_le_roundToward numericScale_pos hle, fun _ => numeric_zero⟩

end TradingHub
