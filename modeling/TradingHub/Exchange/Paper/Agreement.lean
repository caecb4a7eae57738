import TradingHub.Exchange.Paper.Proofs
import Mathlib.Data.Set.Basic

set_option autoImplicit false

/-! # Ledgers that agree on some assets

The engine looks at the balances of the two assets of a symbol and at nothing else of them, not
even at whether an asset is present. So it cannot tell apart two ledgers that agree there, and
leaves them in agreement: the durable copy of a ledger may order its balances differently, drop
empty ones, or hold other assets that somebody else is changing. -/

namespace TradingHub

open Library

/-- The ledgers have the same free and used balance in every asset of `S`. -/
def Agree (S : Set String) (l l' : PaperLedger) : Prop :=
  ∀ a ∈ S, l.free a = l'.free a ∧ l.used a = l'.used a

namespace Agree

variable {S : Set String} {l l' : PaperLedger}

theorem refl (S : Set String) (l : PaperLedger) : Agree S l l := fun _ _ => ⟨rfl, rfl⟩

theorem setOrder (h : Agree S l l') (id id' : String) (o o' : Order String) :
    Agree S (l.setOrder id o) (l'.setOrder id' o') := h

theorem moveFree [DecimalContext] (h : Agree S l l') (asset : String) (amount : ℚ) :
    Agree S (l.moveFree asset amount) (l'.moveFree asset amount) := by
  intro a ha
  obtain ⟨hf, hu⟩ := h a ha
  rw [PaperLedger.free_moveFree_eq, PaperLedger.free_moveFree_eq, PaperLedger.used_moveFree,
    PaperLedger.used_moveFree]
  split
  · next heq => exact heq ▸ ⟨by rw [hf], hu⟩
  · exact ⟨hf, hu⟩

theorem hold [DecimalContext] (h : Agree S l l') (asset : String) (amount : ℚ) :
    Agree S (l.hold asset amount) (l'.hold asset amount) := by
  intro a ha
  obtain ⟨hf, hu⟩ := h a ha
  rw [PaperLedger.free_hold_eq, PaperLedger.free_hold_eq, PaperLedger.used_hold_eq,
    PaperLedger.used_hold_eq]
  split
  · next heq => exact heq ▸ ⟨by rw [hf], by rw [hu]⟩
  · exact ⟨hf, hu⟩

end Agree

/-! ## The assets of a request -/

/-- The base and the quote asset of a symbol. -/
def assetsOf (quote symbol : String) : Set String :=
  {(splitSymbol symbol quote).1, (splitSymbol symbol quote).2}

namespace PaperAdapter

variable [DecimalContext] {p : PaperAdapter} {S : Set String} {l l' : PaperLedger}

theorem charge_mem (p : PaperAdapter) (request : OrderRequest) (price : ℚ) :
    (p.charge request price).1 ∈ assetsOf p.quote request.symbol := by
  unfold charge assetsOf
  cases request.side <;> simp

theorem reservation_mem (p : PaperAdapter) (order : Order String) :
    (p.reservation order).1 ∈ assetsOf p.quote order.symbol := by
  unfold reservation assetsOf
  cases order.side <;> simp

/-- A relation between ledgers that the engine cannot break while it works on the assets of `S`. -/
structure Respected (S : Set String) (R : PaperLedger → PaperLedger → Prop) : Prop where
  free : ∀ {l l'}, R l l' → ∀ a ∈ S, l.free a = l'.free a
  moveFree : ∀ {l l'}, R l l' → ∀ a ∈ S, ∀ amount, R (l.moveFree a amount) (l'.moveFree a amount)
  hold : ∀ {l l'}, R l l' → ∀ a ∈ S, ∀ amount, R (l.hold a amount) (l'.hold a amount)
  setOrder : ∀ {l l'}, R l l' → ∀ id order, R (l.setOrder id order) (l'.setOrder id order)

/-- `create_order` answers alike on related ledgers, and leaves them related. -/
theorem createOrder_respected {R : PaperLedger → PaperLedger → Prop} {market : MarketDataSource}
    {orderId : String} {request : OrderRequest}
    (hR : Respected (assetsOf p.quote request.symbol) R) (h : R l l') :
    (p.createOrder market orderId request l').1 = (p.createOrder market orderId request l).1 ∧
      R (p.createOrder market orderId request l).2 (p.createOrder market orderId request l').2 := by
  rw [createOrder_run, createOrder_run]
  cases market.fetchTicker request.symbol with
  | error e => exact ⟨rfl, h⟩
  | ok ticker =>
    simp only
    cases resolveFillPrice request ticker with
    | none =>
      have hmem := reservation_mem p (restingOrder orderId request ticker)
      simp only
      rw [hR.free h _ hmem]
      split
      · exact ⟨rfl, h⟩
      · exact ⟨rfl, hR.setOrder (hR.hold h _ hmem _) _ _⟩
    | some price =>
      simp only
      rw [hR.free h _ (charge_mem p request price)]
      split
      · exact ⟨rfl, h⟩
      · refine ⟨rfl, hR.setOrder ?_ _ _⟩
        unfold settle
        cases request.side with
        | buy => exact hR.moveFree (hR.moveFree h _ (Or.inr rfl) _) _ (Or.inl rfl) _
        | sell => exact hR.moveFree (hR.moveFree h _ (Or.inl rfl) _) _ (Or.inr rfl) _

/-- Ledgers that agree on the assets of the symbol stay so. -/
theorem createOrder_agree (market : MarketDataSource) (orderId : String) {request : OrderRequest}
    (hS : assetsOf p.quote request.symbol ⊆ S) (h : Agree S l l') :
    (p.createOrder market orderId request l').1 = (p.createOrder market orderId request l).1 ∧
      Agree S (p.createOrder market orderId request l).2
        (p.createOrder market orderId request l').2 :=
  createOrder_respected
    { free := fun h a ha => (h a (hS ha)).1
      moveFree := fun h a _ amount => h.moveFree a amount
      hold := fun h a _ amount => h.hold a amount
      setOrder := fun h id order => h.setOrder id id order order } h

end PaperAdapter

/-! ## Ledgers with the same rows -/

/-- The ledgers have the same balance, or none, in every asset of `S`. -/
def SameRows (S : Set String) (l l' : PaperLedger) : Prop :=
  ∀ a ∈ S, l.balances.get? a = l'.balances.get? a

namespace SameRows

variable {S : Set String} {l l' : PaperLedger} {asset : String}

theorem agree (h : SameRows S l l') : Agree S l l' := by
  intro a ha
  simp only [PaperLedger.free, PaperLedger.used, PaperLedger.balance, h a ha, and_self]

theorem setBalance (h : SameRows S l l') (asset : String) (free used : ℚ) :
    SameRows S (l.setBalance asset free used) (l'.setBalance asset free used) := by
  intro a ha
  rw [PaperLedger.setBalance, PaperLedger.setBalance, Dict.get?_set, Dict.get?_set, h a ha]

theorem moveFree [DecimalContext] (h : SameRows S l l') (hasset : asset ∈ S) (amount : ℚ) :
    SameRows S (l.moveFree asset amount) (l'.moveFree asset amount) := by
  obtain ⟨hfree, hused⟩ := h.agree asset hasset
  rw [PaperLedger.moveFree, PaperLedger.moveFree, hfree, hused]
  exact h.setBalance _ _ _

theorem hold [DecimalContext] (h : SameRows S l l') (hasset : asset ∈ S) (amount : ℚ) :
    SameRows S (l.hold asset amount) (l'.hold asset amount) := by
  obtain ⟨hfree, hused⟩ := h.agree asset hasset
  rw [PaperLedger.hold, PaperLedger.hold, hfree, hused]
  exact h.setBalance _ _ _

end SameRows

namespace PaperAdapter

variable [DecimalContext] {p : PaperAdapter} {S : Set String} {l l' : PaperLedger}

/-- Ledgers with the same rows in the assets of the symbol stay so. -/
theorem createOrder_sameRows {market : MarketDataSource} {orderId : String}
    {request : OrderRequest} (hS : assetsOf p.quote request.symbol ⊆ S) (h : SameRows S l l') :
    (p.createOrder market orderId request l').1 = (p.createOrder market orderId request l).1 ∧
      SameRows S (p.createOrder market orderId request l).2
        (p.createOrder market orderId request l').2 :=
  createOrder_respected
    { free := fun h a ha => (h.agree a (hS ha)).1
      moveFree := fun h _ ha amount => h.moveFree (hS ha) amount
      hold := fun h _ ha amount => h.hold (hS ha) amount
      setOrder := fun h _ _ => h } h

/-- The rows of the assets that are not in the symbol of a request stay as they are. -/
theorem createOrder_frame (market : MarketDataSource) (orderId : String) (request : OrderRequest)
    (l : PaperLedger) :
    SameRows (assetsOf p.quote request.symbol)ᶜ l (p.createOrder market orderId request l).2 := by
  have hset : ∀ {l' : PaperLedger} {asset : String} (free used : ℚ),
      asset ∈ assetsOf p.quote request.symbol →
      SameRows (assetsOf p.quote request.symbol)ᶜ l l' →
      SameRows (assetsOf p.quote request.symbol)ᶜ l (l'.setBalance asset free used) := by
    intro l' asset free used hmem h a ha
    rw [h a ha, PaperLedger.setBalance, Dict.get?_set_of_ne]
    exact fun heq => ha (heq ▸ hmem)
  rcases hrun : p.createOrder market orderId request l with ⟨r, l₁⟩
  obtain ⟨e, -, rfl⟩ | ⟨ticker, -, -, -, -, rfl⟩ | ⟨ticker, price, -, -, -, -, rfl⟩ :=
    createOrder_cases hrun
  · exact fun _ _ => rfl
  · exact hset _ _ (reservation_mem p (restingOrder orderId request ticker)) fun _ _ => rfl
  · show SameRows _ l (p.settle l request price)
    unfold settle
    cases request.side with
    | buy => exact hset _ _ (Or.inl rfl) (hset _ _ (Or.inr rfl) fun _ _ => rfl)
    | sell => exact hset _ _ (Or.inr rfl) (hset _ _ (Or.inl rfl) fun _ _ => rfl)

/-- Cancelling on ledgers with the same rows and the same orders. -/
theorem cancelOrder_sameRows {orderId : String} (horders : l'.orders = l.orders)
    (h : SameRows Set.univ l l') :
    (p.cancelOrder orderId l').1 = (p.cancelOrder orderId l).1 ∧
      SameRows Set.univ (p.cancelOrder orderId l).2 (p.cancelOrder orderId l').2 := by
  rw [cancelOrder_run, cancelOrder_run, horders]
  cases l.orders.get? orderId with
  | none => exact ⟨rfl, h⟩
  | some order =>
    simp only
    split
    · exact ⟨rfl, h⟩
    · rw [(h.agree _ (Set.mem_univ (p.reservation order).1)).2]
      exact ⟨rfl, h.hold (Set.mem_univ _) _⟩

/-- The order `create_order` returned is the one it recorded. -/
theorem createOrder_orders {market : MarketDataSource} {orderId : String} {request : OrderRequest}
    {order : Order String} (h : p.createOrder market orderId request l = (.ok order, l')) :
    l'.orders = l.orders.set orderId order := by
  obtain ⟨_, he, -⟩ | ⟨ticker, -, -, -, ho, rfl⟩ | ⟨ticker, price, -, -, -, ho, rfl⟩ :=
    createOrder_cases h
  · exact absurd he (by simp)
  · rw [Except.ok.inj ho]
    rfl
  · rw [Except.ok.inj ho, PaperLedger.orders_setOrder, orders_settle]

/-- The order `create_order` returns carries the identifier drawn and is open or filled. -/
theorem createOrder_order {market : MarketDataSource} {orderId : String} {request : OrderRequest}
    {order : Order String} (h : p.createOrder market orderId request l = (.ok order, l')) :
    order.id = orderId ∧ order.isPaper = true ∧
      (order.status = .open ∨ order.status = .filled) := by
  obtain ⟨_, he, -⟩ | ⟨ticker, -, -, -, ho, -⟩ | ⟨ticker, price, -, -, -, ho, -⟩ :=
    createOrder_cases h
  · exact absurd he (by simp)
  · rw [Except.ok.inj ho]
    exact ⟨rfl, rfl, Or.inl rfl⟩
  · rw [Except.ok.inj ho]
    exact ⟨rfl, rfl, Or.inr rfl⟩

/-- No call takes an asset out of the ledger. -/
theorem run_balances_none (p : PaperAdapter) (call : PaperCall) (l : PaperLedger) (a : String)
    (h : (call.run p l).2.balances.get? a = none) : l.balances.get? a = none := by
  have hset : ∀ (l : PaperLedger) (asset : String) (free used : ℚ),
      (l.setBalance asset free used).balances.get? a = none → l.balances.get? a = none := by
    intro l asset free used hnone
    rw [PaperLedger.setBalance, Dict.get?_set] at hnone
    split at hnone
    · exact absurd hnone (by simp)
    · exact hnone
  rcases hrun : call.run p l with ⟨r, l₁⟩
  rw [hrun] at h
  cases call with
  | create answer orderId request =>
    obtain ⟨e, -, rfl⟩ | ⟨ticker, -, -, -, -, rfl⟩ | ⟨ticker, price, -, -, -, -, rfl⟩ :=
      createOrder_cases hrun
    · exact h
    · exact hset _ _ _ _ h
    · change (p.settle l request price).balances.get? a = none at h
      unfold settle at h
      rcases request.side.buy_or_sell with hs | hs <;> simp only [hs] at h
      · exact hset _ _ _ _ (hset _ _ _ _ h)
      · exact hset _ _ _ _ (hset _ _ _ _ h)
  | cancel orderId =>
    obtain ⟨-, -, rfl⟩ | ⟨order, -, -, -, rfl⟩ | ⟨order, -, -, -, rfl⟩ := cancelOrder_cases hrun
    · exact h
    · exact h
    · exact hset _ _ _ _ h

/-- Cancelling an open order on two ledgers that hold it with the same reservation. -/
theorem cancelOrder_agree {orderId : String} {order order' : Order String}
    (ho : l.orders.get? orderId = some order) (ho' : l'.orders.get? orderId = some order')
    (hopen : order.status = .open) (hopen' : order'.status = .open)
    (hres : p.reservation order' = p.reservation order) (h : Agree Set.univ l l') :
    ∃ l₁ l₁', p.cancelOrder orderId l
        = (.ok { order with status := .canceled, isPaper := true }, l₁) ∧
      p.cancelOrder orderId l'
        = (.ok { order' with status := .canceled, isPaper := true }, l₁') ∧
      Agree Set.univ l₁ l₁' ∧
      l₁.orders = l.orders.set orderId { order with status := .canceled, isPaper := true } ∧
      l₁'.orders = l'.orders.set orderId { order' with status := .canceled, isPaper := true } := by
  rw [cancelOrder_run, cancelOrder_run, ho, ho']
  simp only [hopen, hopen', hres, reduceCtorEq, or_self, if_false]
  refine ⟨_, _, rfl, rfl, ?_, rfl, rfl⟩
  rw [(h _ (Set.mem_univ (p.reservation order).1)).2]
  exact (h.hold _ _).setOrder _ _ _ _

end PaperAdapter

/-! ## Reservations in exact arithmetic -/

namespace PaperAdapter

variable {p : PaperAdapter} {l l' : PaperLedger}

/-- An order that is created moves its reservation to `used`, of an asset the ledger then has. -/
theorem createOrder_reserves {market : MarketDataSource} {orderId : String} {request : OrderRequest}
    {order : Order String} (hfee : 0 ≤ p.feeRate) (hamt : 0 < request.amount)
    (hprice : ∀ price, request.price = some price → 0 < price)
    (h : p.createOrder market orderId request l = (.ok order, l')) :
    (∀ a, l'.used a = l.used a + p.reservedIn order a) ∧ 0 ≤ (p.reservation order).2 ∧
      (order.status = .open → l'.balances.get? (p.reservation order).1 ≠ none) := by
  have hprice' : ∀ price, request.price = some price → 0 ≤ price := fun price hp =>
    (hprice price hp).le
  obtain ⟨_, he, -⟩ | ⟨ticker, -, -, -, ho, rfl⟩ | ⟨ticker, price, -, -, -, ho, rfl⟩ :=
    createOrder_cases h
  · exact absurd he (by simp)
  · obtain rfl := Except.ok.inj ho
    refine ⟨fun a => ?_, reservation_nonneg hfee hamt.le hprice', fun _ => ?_⟩
    · rw [PaperLedger.used_setOrder, PaperLedger.used_hold, reservedIn_of_open rfl]
    · show (PaperLedger.hold _ _ _).balances.get? _ ≠ none
      rw [PaperLedger.hold, PaperLedger.setBalance, Dict.get?_set_self]
      simp
  · obtain rfl := Except.ok.inj ho
    refine ⟨fun a => ?_, reservation_nonneg hfee hamt.le hprice', fun hopen => ?_⟩
    · rw [PaperLedger.used_setOrder, used_settle, reservedIn_of_closed (by simp [filledOrder]),
        add_zero]
    · exact absurd hopen (by simp [filledOrder])

/-- Cancelling an open order whose reservation is covered moves it from used to free. -/
theorem cancelOrder_releases {orderId : String} {order : Order String}
    (ho : l.orders.get? orderId = some order) (hopen : order.status = .open)
    (hle : (p.reservation order).2 ≤ l.used (p.reservation order).1) :
    (p.cancelOrder orderId l).2.used (p.reservation order).1
        = l.used (p.reservation order).1 - (p.reservation order).2 ∧
      (p.cancelOrder orderId l).2.free (p.reservation order).1
        = l.free (p.reservation order).1 + (p.reservation order).2 := by
  rw [cancelOrder_run, ho]
  simp only
  rw [if_neg (by simp [hopen]), min_eq_left hle, PaperLedger.used_setOrder,
    PaperLedger.free_setOrder, PaperLedger.used_hold, PaperLedger.free_hold, if_pos rfl]
  constructor <;> ring

end PaperAdapter

end TradingHub
