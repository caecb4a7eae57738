import TradingHub.Exchange.Paper.Proofs
import TradingHub.Library.Run

set_option autoImplicit false

/-! # What backs a resting buy

A resting order reserves what `_reservation` makes of the stored order, and the stored order keeps
the limit price of the request but not its stop price. So a buy that rests without a limit price
(a stop, take-profit or trailing-stop order) reserves nothing. A buy with one is backed unless a
rounding takes something off: its reservation, or the sum in `used`, where it can be too small to
count beside what is there.

`Book` is a ledger together with the request each order was placed with: the stop price is to be
found there only. -/

namespace TradingHub

open Library
open DecimalContext (fix)

/-- What `OrderCreate` lets through, the character set of the symbol apart. -/
def OrderRequest.Admitted (r : OrderRequest) : Prop :=
  0 < r.amount ∧ (∀ price, r.price = some price → 0 < price) ∧
  (∀ stop, r.stopPrice = some stop → 0 < stop) ∧
  (∀ leverage, r.leverage = some leverage → 1 ≤ leverage ∧ leverage ≤ 125) ∧
  (r.type = .limit ∨ r.type = .stopLimit → r.price ≠ none) ∧
  (r.type = .stop ∨ r.type = .stopLimit → r.stopPrice ≠ none)

namespace PaperCall

/-- The request of a call that places an order. -/
def request? : PaperCall → Option OrderRequest
  | create _ _ request => some request
  | cancel _ => none

end PaperCall

/-- A ledger, and the requests its orders were placed with. -/
structure Book where
  ledger : PaperLedger
  requests : Dict String OrderRequest

namespace Book

def new (quote : String) (start : ℚ) : Book := ⟨PaperLedger.new quote start, Dict.empty⟩

/-- The requests after a call that ended with `result`. -/
def note (requests : Dict String OrderRequest) (result : Except AppError (Order String)) :
    PaperCall → Dict String OrderRequest
  | .create _ orderId request =>
    match result with
    | .ok _ => requests.set orderId request
    | .error _ => requests
  | .cancel _ => requests

/-- Carry out a call and note the request of an order placed. -/
def step [DecimalContext] (p : PaperAdapter) (b : Book) (call : PaperCall) : Book :=
  ⟨(call.run p b.ledger).2, note b.requests (call.run p b.ledger).1 call⟩

end Book

section

variable [DecimalContext]

/-- The order's reservation is in its quote asset, positive, and covers its amount at the limit
    price of the request, or at the stop price when there is no limit price. -/
def BuyBacked (p : PaperAdapter) (order : Order String) (request : OrderRequest) : Prop :=
  (p.reservation order).1 = (splitSymbol order.symbol p.quote).2 ∧ 0 < (p.reservation order).2 ∧
    ∀ price, (request.price <|> request.stopPrice) = some price →
      order.amount * price * (1 + p.feeRate) ≤ (p.reservation order).2

/-- Every open buy order of the ledger is backed, and what the open orders reserve in an asset is
    held there for all of them together. -/
structure BuysBacked (p : PaperAdapter) (b : Book) : Prop where
  buy : ∀ id order, b.ledger.orders.get? id = some order → order.status = .open →
    order.side = .buy → ∃ request, b.requests.get? id = some request ∧ BuyBacked p order request
  held : ∀ a, p.openReservations b.ledger a ≤ b.ledger.used a

/-- Rounding the cost, the fee and their sum takes nothing off in the end. -/
def CostKept (feeRate amount price : ℚ) : Prop :=
  amount * price * (1 + feeRate) ≤ fix (fix (amount * price) + fix (fix (amount * price) * feeRate))

/-- The call rests no buy without a limit price, and no rounding takes anything off: not off what a
    buy that comes to rest costs, not off `used` when a reservation is added to it, and not when one
    is taken from it. -/
def KeepsBacked (p : PaperAdapter) (b : Book) : PaperCall → Prop
  | .create (.ok ticker) orderId request =>
    let order := PaperAdapter.restingOrder orderId request ticker
    let reserved := p.reservation order
    PaperAdapter.resolveFillPrice request ticker = none → reserved.2 ≤ b.ledger.free reserved.1 →
      (request.side = .buy →
        ∃ price, request.price = some price ∧ CostKept p.feeRate request.amount price) ∧
      b.ledger.used reserved.1 + reserved.2 ≤ fix (b.ledger.used reserved.1 + reserved.2)
  | .create (.error _) _ _ => True
  | .cancel orderId => ∀ order, b.ledger.orders.get? orderId = some order → order.status = .open →
      let reserved := p.reservation order
      b.ledger.used reserved.1 - reserved.2 ≤ fix (b.ledger.used reserved.1 - reserved.2)

end

/-! ## What the open orders reserve -/

/-- `used` covers what the open orders reserve, no recorded order has a negative reservation, and
    the engine knows three statuses only. -/
structure Covered [DecimalContext] (p : PaperAdapter) (l : PaperLedger) : Prop where
  held : ∀ a, p.openReservations l a ≤ l.used a
  reservation_nonneg : ∀ id order, l.orders.get? id = some order → 0 ≤ (p.reservation order).2
  status : ∀ id order, l.orders.get? id = some order →
    order.status = .open ∨ order.status = .filled ∨ order.status = .canceled

namespace Covered

variable [DecimalContext] {p : PaperAdapter} {l l' : PaperLedger}

theorem new (quote : String) (start : ℚ) : Covered p (PaperLedger.new quote start) where
  held a := by
    simp only [PaperLedger.new, PaperLedger.used, PaperLedger.balance, Dict.get?_set,
      PaperAdapter.openReservations, Dict.sumBy_empty]
    split <;> exact le_rfl
  reservation_nonneg id order h := by simp [PaperLedger.new] at h
  status id order h := by simp [PaperLedger.new] at h

theorem reservedIn_nonneg (h : Covered p l) (a : String) (id : String) (order : Order String)
    (ho : l.orders.get? id = some order) : 0 ≤ p.reservedIn order a := by
  unfold PaperAdapter.reservedIn
  split
  · exact h.reservation_nonneg id order ho
  · exact le_rfl

/-- What one open order reserves is covered, so releasing it is never clamped. -/
theorem reservation_le_used (h : Covered p l) {id : String} {order : Order String}
    (ho : l.orders.get? id = some order) (hopen : order.status = .open) :
    (p.reservation order).2 ≤ l.used (p.reservation order).1 := by
  have hle : p.reservedIn order (p.reservation order).1 ≤ l.used (p.reservation order).1 :=
    (Dict.le_sumBy _ _ (h.reservedIn_nonneg _) ho).trans (h.held _)
  rwa [PaperAdapter.reservedIn, if_pos ⟨hopen, rfl⟩] at hle

/-- Writing one order keeps the ledger covered if `used` covers the reservations then. -/
theorem setOrder (h : Covered p l) {id : String} {order : Order String}
    (horders : l'.orders = l.orders)
    (hheld : ∀ a, p.openReservations (l'.setOrder id order) a ≤ l'.used a)
    (hres : 0 ≤ (p.reservation order).2)
    (hstatus : order.status = .open ∨ order.status = .filled ∨ order.status = .canceled) :
    Covered p (l'.setOrder id order) := by
  refine ⟨hheld, fun id' order' ho => ?_, fun id' order' ho => ?_⟩ <;>
    rw [PaperLedger.orders_setOrder, horders, Dict.get?_set] at ho <;> split at ho
  · exact (Option.some.inj ho) ▸ hres
  · exact h.reservation_nonneg id' order' ho
  · exact (Option.some.inj ho) ▸ hstatus
  · exact h.status id' order' ho

/-- A new order adds its reservation. -/
theorem record (h : Covered p l) {id : String} {order : Order String}
    (hnew : l.orders.get? id = none) (horders : l'.orders = l.orders)
    (hused : ∀ a, l.used a + p.reservedIn order a ≤ l'.used a) (hres : 0 ≤ (p.reservation order).2)
    (hstatus : order.status = .open ∨ order.status = .filled ∨ order.status = .canceled) :
    Covered p (l'.setOrder id order) := by
  refine h.setOrder horders (fun a => ?_) hres hstatus
  calc p.openReservations (l'.setOrder id order) a
      = p.openReservations l a + p.reservedIn order a := by
        rw [PaperAdapter.openReservations, PaperAdapter.openReservations,
          PaperLedger.orders_setOrder, horders, Dict.sumBy_set_new _ _ _ hnew]
    _ ≤ l.used a + p.reservedIn order a := add_le_add_left (h.held a) _
    _ ≤ l'.used a := hused a

/-- `create_order` keeps a ledger covered if adding the reservation rounds nothing off `used`. -/
theorem createOrder (h : Covered p l) (hfee : 0 ≤ p.feeRate) {market : MarketDataSource}
    {orderId : String} {request : OrderRequest} (hamt : 0 < request.amount)
    (hprice : ∀ price, request.price = some price → 0 < price)
    (hnew : l.orders.get? orderId = none)
    (hkept : ∀ ticker, market.fetchTicker request.symbol = .ok ticker →
      PaperAdapter.resolveFillPrice request ticker = none →
      let reserved := p.reservation (PaperAdapter.restingOrder orderId request ticker)
      reserved.2 ≤ l.free reserved.1 →
      l.used reserved.1 + reserved.2 ≤ fix (l.used reserved.1 + reserved.2)) :
    Covered p (p.createOrder market orderId request l).2 := by
  have hprice' : ∀ price, request.price = some price → 0 ≤ price := fun price hp =>
    (hprice price hp).le
  rcases hrun : p.createOrder market orderId request l with ⟨r, l'⟩
  obtain ⟨e, -, rfl⟩ | ⟨ticker, hf, hr, hle, -, rfl⟩ | ⟨ticker, price, -, -, -, -, rfl⟩ :=
    PaperAdapter.createOrder_cases hrun
  · exact h
  · refine h.record hnew rfl (fun a => ?_) (PaperAdapter.reservation_nonneg hfee hamt.le hprice')
      (Or.inl rfl)
    rw [PaperLedger.used_hold_eq, PaperAdapter.reservedIn_of_open rfl]
    split
    · next ha => exact ha ▸ hkept ticker hf hr hle
    · exact (add_zero _).le
  · refine h.record hnew (PaperAdapter.orders_settle p l request price) (fun a => ?_)
      (PaperAdapter.reservation_nonneg hfee hamt.le hprice') (Or.inr (Or.inl rfl))
    rw [PaperAdapter.used_settle,
      PaperAdapter.reservedIn_of_closed (by simp [PaperAdapter.filledOrder]), add_zero]

/-- `cancel_order` keeps a ledger covered if taking the reservation rounds nothing off `used`. -/
theorem cancelOrder (h : Covered p l) {orderId : String}
    (hkept : ∀ order, l.orders.get? orderId = some order → order.status = .open →
      l.used (p.reservation order).1 - (p.reservation order).2
        ≤ fix (l.used (p.reservation order).1 - (p.reservation order).2)) :
    Covered p (p.cancelOrder orderId l).2 := by
  rcases hrun : p.cancelOrder orderId l with ⟨r, l'⟩
  obtain ⟨-, -, rfl⟩ | ⟨order, -, -, -, rfl⟩ | ⟨order, ho, hs, -, rfl⟩ :=
    PaperAdapter.cancelOrder_cases hrun
  · exact h
  · exact h
  · have hopen : order.status = .open := by
      rcases h.status orderId order ho with hst | hst | hst
      · exact hst
      · exact absurd (Or.inl hst) hs
      · exact absurd (Or.inr hst) hs
    rw [min_eq_left (h.reservation_le_used ho hopen)]
    refine h.setOrder rfl (fun a => ?_) (h.reservation_nonneg orderId order ho) (Or.inr (Or.inr rfl))
    have hheld := h.held a
    -- The canceled order reserves nothing any more, the others what they did.
    rw [PaperAdapter.openReservations, PaperLedger.orders_setOrder, PaperLedger.orders_hold,
      Dict.sumBy_set, ho, Option.map_some, Option.getD_some,
      PaperAdapter.reservedIn_of_closed (show Order.status { order with
        status := .canceled, isPaper := true } ≠ .open by simp),
      PaperAdapter.reservedIn_of_open hopen, PaperLedger.used_hold_eq]
    rw [PaperAdapter.openReservations] at hheld
    split
    · next ha =>
      have hrounded := hkept order ho hopen
      rw [← sub_eq_add_neg, ← ha]
      rw [← ha] at hrounded
      linarith
    · linarith

end Covered

/-! ## What a call does to a book -/

namespace Book

variable [DecimalContext] {p : PaperAdapter} {b : Book}

/-- The invariant: the ledger is covered, and an open buy is backed by its request. -/
structure Noted (p : PaperAdapter) (b : Book) : Prop where
  covered : Covered p b.ledger
  buy : ∀ id order, b.ledger.orders.get? id = some order → order.status = .open →
    order.side = .buy → ∃ request, b.requests.get? id = some request ∧ BuyBacked p order request

theorem Noted.buysBacked (h : Noted p b) : BuysBacked p b := ⟨h.buy, h.covered.held⟩

/-- A resting buy is backed if it has a limit price and rounding takes nothing off its cost. -/
theorem buyBacked_of_priced (hfee : 0 ≤ p.feeRate) {orderId : String} {request : OrderRequest}
    {ticker : Ticker} (hadm : request.Admitted) (hside : request.side = .buy) {price : ℚ}
    (hprice : request.price = some price) (hcover : CostKept p.feeRate request.amount price) :
    BuyBacked p (PaperAdapter.restingOrder orderId request ticker) request := by
  have hcost : 0 < request.amount * price * (1 + p.feeRate) :=
    mul_pos (mul_pos hadm.1 (hadm.2.1 price hprice)) (by linarith)
  have hreserved : p.reservation (PaperAdapter.restingOrder orderId request ticker)
      = ((splitSymbol request.symbol p.quote).2, fix (fix (request.amount * price)
        + fix (fix (request.amount * price) * p.feeRate))) := by
    simp only [PaperAdapter.reservation, PaperAdapter.restingOrder, hside, hprice,
      Option.getD_some]
  unfold BuyBacked
  rw [hreserved]
  refine ⟨rfl, hcost.trans_le hcover, fun price' hprice' => ?_⟩
  rw [hprice] at hprice'
  obtain rfl : price = price' := Option.some.inj hprice'
  exact hcover

/-- What a placement does to a book: nothing, or it adds an order of the request, which is open only
    if it rests and is covered. -/
theorem step_create (p : PaperAdapter) (b : Book) (answer : Except AppError Ticker)
    (orderId : String) (request : OrderRequest) :
    b.step p (.create answer orderId request) = b ∨
      ∃ ticker order, answer = .ok ticker ∧
        (b.step p (.create answer orderId request)).ledger.orders
          = b.ledger.orders.set orderId order ∧
        (b.step p (.create answer orderId request)).requests = b.requests.set orderId request ∧
        (order.status = .open → order = PaperAdapter.restingOrder orderId request ticker ∧
          PaperAdapter.resolveFillPrice request ticker = none ∧
          (p.reservation order).2 ≤ b.ledger.free (p.reservation order).1) := by
  unfold step
  rcases hrun : (PaperCall.create answer orderId request).run p b.ledger with ⟨r, l'⟩
  obtain ⟨e, rfl, rfl⟩ | ⟨ticker, hticker, hfill, hle, rfl, rfl⟩ |
    ⟨ticker, price, hticker, -, -, rfl, rfl⟩ := PaperAdapter.createOrder_cases hrun
  · exact Or.inl rfl
  · exact Or.inr ⟨ticker, _, hticker, rfl, rfl, fun _ => ⟨rfl, hfill, hle⟩⟩
  · refine Or.inr ⟨ticker, PaperAdapter.filledOrder orderId request ticker price
      (p.fee request price), hticker, ?_, rfl, fun h => absurd h (by simp [PaperAdapter.filledOrder])⟩
    rw [PaperLedger.orders_setOrder, PaperAdapter.orders_settle]

/-- A cancellation only closes an order. -/
theorem step_cancel (p : PaperAdapter) (b : Book) (orderId : String) :
    (b.step p (.cancel orderId)).requests = b.requests ∧
      ∀ id order, (b.step p (.cancel orderId)).ledger.orders.get? id = some order →
        order.status = .open → b.ledger.orders.get? id = some order := by
  unfold step
  rcases hrun : (PaperCall.cancel orderId).run p b.ledger with ⟨r, l'⟩
  refine ⟨rfl, fun id order ho hopen => ?_⟩
  obtain ⟨-, -, rfl⟩ | ⟨_, -, -, -, rfl⟩ | ⟨old, -, -, -, rfl⟩ :=
    PaperAdapter.cancelOrder_cases hrun
  · exact ho
  · exact ho
  · rw [PaperLedger.orders_setOrder, PaperLedger.orders_hold, Dict.get?_set] at ho
    split at ho
    · rw [← Option.some.inj ho] at hopen
      exact absurd hopen (by simp)
    · exact ho

/-- What the engine is promised of a call, and that the identifier it draws is new. -/
def Allowed (b : Book) (call : PaperCall) : Prop :=
  (∀ request, call.request? = some request → request.Admitted) ∧
    ∀ id ∈ PaperCall.drawnIds [call], b.ledger.orders.get? id = none

/-- The step: an allowed call that rounds nothing off keeps the book noted. -/
theorem Noted.step (h : Noted p b) (hfee : 0 ≤ p.feeRate) {call : PaperCall}
    (hallowed : b.Allowed call) (hkept : KeepsBacked p b call) : Noted p (b.step p call) := by
  obtain ⟨hadm, hnew⟩ := hallowed
  cases call with
  | create answer orderId request =>
    have hadm' := hadm request rfl
    have hnew' := hnew orderId (by simp [PaperCall.drawnIds])
    refine ⟨h.covered.createOrder hfee hadm'.1 hadm'.2.1 hnew' fun ticker hticker hrests hle => ?_, ?_⟩
    · obtain rfl : answer = .ok ticker := hticker
      exact (hkept hrests hle).2
    obtain hsame | ⟨ticker, order, rfl, horders, hrequests, hrests⟩ :=
      step_create p b answer orderId request
    · rw [hsame]
      exact h.buy
    · intro id order' ho hopen hside
      rw [horders, Dict.get?_set] at ho
      rw [hrequests, Dict.get?_set]
      split at ho
      · next hid =>
        obtain rfl := Option.some.inj ho
        obtain ⟨rfl, hnone, hle⟩ := hrests hopen
        obtain ⟨price, hprice, hcover⟩ := (hkept hnone hle).1 hside
        exact ⟨request, if_pos hid, buyBacked_of_priced hfee hadm' hside hprice hcover⟩
      · next hid =>
        rw [if_neg hid]
        exact h.buy id order' ho hopen hside
  | cancel orderId =>
    obtain ⟨hrequests, hopen⟩ := step_cancel p b orderId
    refine ⟨h.covered.cancelOrder hkept, fun id order ho hst hside => ?_⟩
    rw [hrequests]
    exact h.buy id order (hopen id order ho hst) hst hside

/-- The calls of a run are allowed if what they place is admitted and no identifier is drawn
    twice. -/
theorem allowed_run (p : PaperAdapter) : ∀ (calls : List PaperCall) (b : Book),
    (∀ call ∈ calls, ∀ request, call.request? = some request → request.Admitted) →
    (PaperCall.drawnIds calls).Nodup →
    (∀ id ∈ PaperCall.drawnIds calls, b.ledger.orders.get? id = none) →
    Guarded (Book.step p) Allowed b calls := by
  intro calls
  induction calls with
  | nil => intro b _ _ _; trivial
  | cons call calls ih =>
    intro b hadm hnodup hfresh
    have hsplit : PaperCall.drawnIds (call :: calls)
        = PaperCall.drawnIds [call] ++ PaperCall.drawnIds calls := by
      cases call <;> rfl
    rw [hsplit] at hnodup hfresh
    refine ⟨⟨hadm call (by simp), fun id hid => hfresh id (by simp [hid])⟩, ih _ (fun c hc =>
      hadm c (by simp [hc])) (List.nodup_append.1 hnodup).2.1 fun id hid => ?_⟩
    exact PaperCall.run_get?_of_not_drawn
      (fun hdrawn => List.disjoint_of_nodup_append hnodup hdrawn hid)
      (hfresh id (List.mem_append_right _ hid))

end Book

/-- In every run of calls with admitted requests on a fresh ledger, whatever the market answers, in
    every decimal context: if no call rests a buy that has no limit price or rounds off what backs
    an order, then every open buy is backed in every ledger reached. -/
theorem resting_buys_backed [DecimalContext] (p : PaperAdapter) (hfee : 0 ≤ p.feeRate)
    (quote : String) (start : ℚ) (calls : List PaperCall)
    (hadm : ∀ call ∈ calls, ∀ request, call.request? = some request → request.Admitted)
    (hids : (PaperCall.drawnIds calls).Nodup)
    (hkept : Guarded (Book.step p) (KeepsBacked p) (Book.new quote start) calls) :
    Always (Book.step p) (BuysBacked p) (Book.new quote start) calls := by
  have hallowed : Guarded (Book.step p) Book.Allowed (Book.new quote start) calls :=
    Book.allowed_run p calls _ hadm hids fun id _ => by simp [Book.new, PaperLedger.new]
  have hnoted : Book.Noted p (Book.new quote start) :=
    ⟨Covered.new quote start, fun id order ho => by simp [Book.new, PaperLedger.new] at ho⟩
  have hrun := always_of_guarded
    (fun (b : Book) (call : PaperCall) (hb : Book.Noted p b) hg => hb.step hfee hg.1 hg.2) calls
    (Book.new quote start) hnoted (hallowed.and hkept)
  exact hrun.mono (fun b hb => hb.buysBacked) calls _

/-- A bid for two coins at 90 that rests, and its cancellation. -/
def bidAndWithdraw : List PaperCall :=
  [.create (.ok ⟨"BTC/USDT", 100, none, none, none, none, none, none⟩) "paper-1"
    ⟨"BTC/USDT", .buy, .limit, 2, some 90, none, .gtc, false, false, none, none⟩, .cancel "paper-1"]

/-- A stop buy of a thousand coins at 120, which the account cannot pay for. -/
def unpricedStop : PaperCall :=
  .create (.ok ⟨"BTC/USDT", 100, none, none, none, none, none, none⟩) "paper-1"
    ⟨"BTC/USDT", .buy, .stop, 1000, none, some 120, .gtc, false, false, none, none⟩

theorem resting_bid_backed :
    Always (@Book.step defaultContext {}) (@BuysBacked defaultContext {}) (Book.new "USDT" 1000)
      bidAndWithdraw := by
  refine @resting_buys_backed defaultContext {} (by norm_num) "USDT" 1000 bidAndWithdraw ?_ ?_
    ⟨fun _ _ => ⟨fun _ => ⟨90, rfl, ?_⟩, ?_⟩, fun order ho _ => ?_, trivial⟩
  · intro call hcall request hrequest
    rcases List.mem_pair.1 hcall with rfl | rfl
    · obtain rfl := Option.some.inj hrequest
      simp [OrderRequest.Admitted]
    · exact absurd hrequest (by simp [PaperCall.request?])
  · simp [bidAndWithdraw, PaperCall.drawnIds]
  · unfold CostKept
    decide +kernel
  · decide +kernel
  · obtain rfl : (⟨"paper-1", "BTC/USDT", .buy, .limit, .open, 2, 0, some 90, none, none, none, 0,
        true⟩ : Order String) = order :=
      Option.some.inj (Eq.trans (by decide +kernel) ho)
    decide +kernel

/-- The stop buy is admitted and rests, with nothing reserved. -/
theorem unpriced_stop_unbacked :
    (∀ request, unpricedStop.request? = some request → request.Admitted) ∧
      (@Book.step defaultContext {} (Book.new "USDT" 1000) unpricedStop).ledger.used "USDT" = 0 ∧
      ¬ Always (@Book.step defaultContext {}) (@BuysBacked defaultContext {}) (Book.new "USDT" 1000)
        [unpricedStop] := by
  refine ⟨fun request hrequest => ?_, by decide +kernel, fun halways => ?_⟩
  · obtain rfl := Option.some.inj hrequest
    simp [OrderRequest.Admitted]
  · obtain ⟨order, horder, hopen, hside, hnothing⟩ : ∃ order,
        (@Book.step defaultContext {} (Book.new "USDT" 1000) unpricedStop).ledger.orders.get? "paper-1"
          = some order ∧ order.status = .open ∧ order.side = .buy ∧
            (@PaperAdapter.reservation defaultContext {} order).2 = 0 :=
      ⟨⟨"paper-1", "BTC/USDT", .buy, .stop, .open, 1000, 0, none, none, none, none, 0, true⟩,
        by decide +kernel, rfl, rfl, by decide +kernel⟩
    obtain ⟨request, -, hbacked⟩ := @BuysBacked.buy defaultContext {} _ halways.2 "paper-1" order
      horder hopen hside
    exact absurd hbacked.2.1 (by rw [hnothing]; exact lt_irrefl 0)

end TradingHub
