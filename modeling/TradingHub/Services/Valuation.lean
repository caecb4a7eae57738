import TradingHub.Services.Books
import Mathlib.Algebra.BigOperators.Group.Finset.Piecewise
import Mathlib.Algebra.BigOperators.Ring.Finset

set_option autoImplicit false

/-! # Prices that do not move

A valuation gives every asset a price of its own, and a quote is fair under it if it prices the base
of the symbol in its quote accordingly. Where all quotes are fair, a fill exchanges equal values and
takes the fee, so a paper account is worth its starting balance less the fees of its filled orders:
no sequence of orders and cancellations, of whatever types, makes money out of nothing. Arithmetic
and columns are exact, as in `Books`. -/

namespace TradingHub

open Library PaperLedgerRepository

/-- The quote prices the base of the symbol in its quote as the valuation does. -/
def Fair (value : String → ℚ) (symbol : String) (last : ℚ) : Prop :=
  last * value (splitSymbol symbol "USDT").2 = value (splitSymbol symbol "USDT").1

/-- What the fee of an order is worth; an order that has not been filled has cost nothing. -/
def Order.feeWorth (value : String → ℚ) (o : Order String) : ℚ :=
  if o.status = .filled then o.fee * value (quoteOf o.symbol) else 0

/-- The order was filled at a fair price, and its fee is not negative. -/
def FilledFairly (value : String → ℚ) (o : Order String) : Prop :=
  o.status = .filled → 0 ≤ o.fee ∧ ∃ price, o.average = some price ∧ Fair value o.symbol price

/-! ## One order -/

section Order

variable {value : String → ℚ} {S : Finset String}

theorem sum_value_ite {asset : String} (h : asset ∈ S) (x : ℚ) :
    (S.sum fun a => value a * if a = asset then x else 0) = value asset * x := by
  simp only [mul_ite, mul_zero, Finset.sum_ite_eq', h, if_true]

/-- At a fair price the two legs of a fill are worth the same, and the fee is what it costs. -/
theorem FilledFairly.sum_fillEffect {o : Order String} (h : FilledFairly value o)
    (hbase : (splitSymbol o.symbol "USDT").1 ∈ S) (hquote : (splitSymbol o.symbol "USDT").2 ∈ S) :
    (S.sum fun a => value a * ({} : PaperAdapter).fillEffect o a) = - o.feeWorth value := by
  unfold PaperAdapter.fillEffect Order.feeWorth quoteOf
  by_cases hst : o.status = .filled
  · obtain ⟨-, price, havg, hfair⟩ := h hst
    unfold Fair at hfair
    simp only [if_pos hst, havg, Option.getD_some]
    cases o.side with
    | buy =>
      simp only [mul_sub, Finset.sum_sub_distrib, sum_value_ite hbase, sum_value_ite hquote]
      rw [← hfair]
      ring
    | sell =>
      simp only [mul_sub, Finset.sum_sub_distrib, sum_value_ite hbase, sum_value_ite hquote]
      rw [← hfair]
      ring
  · simp [if_neg hst]

end Order

/-! ## The engine -/

/-- The filled orders of the ledger were filled fairly. -/
def TradesFairly (value : String → ℚ) (l : PaperLedger) : Prop :=
  ∀ id o, l.orders.get? id = some o → FilledFairly value o

theorem EngineInvariant.and {good : String → ℚ → Prop} {I J : PaperLedger → Prop}
    (hI : EngineInvariant good I) (hJ : EngineInvariant good J) :
    EngineInvariant good fun l => I l ∧ J l where
  new := ⟨hI.new, hJ.new⟩
  create := fun h hnew hamt hprice hgood =>
    ⟨hI.create h.1 hnew hamt hprice hgood, hJ.create h.2 hnew hamt hprice hgood⟩
  cancel orderId h := ⟨hI.cancel orderId h.1, hJ.cancel orderId h.2⟩

theorem EngineInvariant.mono {good good' : String → ℚ → Prop} {I : PaperLedger → Prop}
    (hI : EngineInvariant good I) (hgood : ∀ symbol last, good' symbol last → good symbol last) :
    EngineInvariant good' I :=
  { hI with create := fun h hnew hamt hprice hlast =>
      hI.create h hnew hamt hprice (hgood _ _ hlast) }

/-- A fill is at the market, so at fair quotes the engine fills fairly. -/
theorem tradesFairly_invariant (value : String → ℚ) :
    EngineInvariant (fun symbol last => 0 ≤ last ∧ Fair value symbol last) (TradesFairly value) where
  new id o h := absurd h (by simp [PaperLedger.new])
  create := by
    intro l ticker orderId request h hnew hamt hprice hgood id o hget
    rcases hrun : ({} : PaperAdapter).createOrder ⟨fun _ => .ok ticker⟩ orderId request l with ⟨r, l'⟩
    rw [hrun] at hget
    obtain ⟨e, -, rfl⟩ | ⟨t, -, -, -, -, rfl⟩ | ⟨t, price, ht, hr, -, -, rfl⟩ :=
      PaperAdapter.createOrder_cases hrun
    · exact h id o hget
    · rw [PaperLedger.orders_setOrder, PaperLedger.orders_hold, Dict.get?_set] at hget
      split at hget
      · rw [← Option.some.inj hget]
        exact fun hst => absurd hst (by simp [PaperAdapter.restingOrder])
      · exact h id o hget
    · rw [PaperLedger.orders_setOrder, PaperAdapter.orders_settle, Dict.get?_set] at hget
      split at hget
      · obtain rfl := Except.ok.inj ht
        obtain ⟨-, rfl⟩ := PaperAdapter.resolveFillPrice_eq_some_iff.1 hr
        rw [← Option.some.inj hget]
        intro _
        refine ⟨?_, ticker.last, rfl, hgood.2⟩
        exact mul_nonneg (mul_nonneg hamt.le hgood.1) (by norm_num)
      · exact h id o hget
  cancel := by
    intro l orderId h id o hget
    rcases hrun : ({} : PaperAdapter).cancelOrder orderId l with ⟨r, l'⟩
    rw [hrun] at hget
    obtain ⟨-, -, rfl⟩ | ⟨_, -, -, -, rfl⟩ | ⟨order, -, -, -, rfl⟩ :=
      PaperAdapter.cancelOrder_cases hrun
    · exact h id o hget
    · exact h id o hget
    · rw [PaperLedger.orders_setOrder, PaperLedger.orders_hold, Dict.get?_set] at hget
      split at hget
      · rw [← Option.some.inj hget]
        exact fun hst => absurd hst (by simp)
      · exact h id o hget

/-! ## The accounts -/

/-- What the balances of an account are worth. -/
def Db.worth (value : String → ℚ) (accountId : String) (db : Db) : ℚ :=
  (ledgerOf accountId db).balances.sumBy fun a b => value a * (b.free + b.used)

/-- What the fees of an account's filled paper orders are worth. -/
def Db.fees (value : String → ℚ) (accountId : String) (db : Db) : ℚ :=
  ((db.paperOrders accountId).map fun r => r.order.feeWorth value).sum

/-- The worth of a ledger, summed over any assets that include those it has balances in. -/
theorem PaperLedger.sumBy_worth (l : PaperLedger) (value : String → ℚ) {S : Finset String}
    (hS : ∀ a, l.balances.get? a ≠ none → a ∈ S) :
    (l.balances.sumBy fun a b => value a * (b.free + b.used))
      = S.sum fun a => value a * (l.free a + l.used a) := by
  rw [Dict.sumBy_eq_finset_sum _ _ hS]
  refine Finset.sum_congr rfl fun a _ => ?_
  unfold PaperLedger.free PaperLedger.used PaperLedger.balance
  cases l.balances.get? a <;> simp

/-- Fair orders move no more value than their fees. -/
theorem sum_traded {value : String → ℚ} {S : Finset String} (rows : List OrderRecord)
    (hfair : ∀ r ∈ rows, FilledFairly value r.order)
    (hS : ∀ r ∈ rows, (splitSymbol r.symbol "USDT").1 ∈ S ∧ (splitSymbol r.symbol "USDT").2 ∈ S) :
    (S.sum fun a => value a * (rows.map fun r => ({} : PaperAdapter).fillEffect r.order a).sum)
      = - (rows.map fun r => r.order.feeWorth value).sum := by
  induction rows with
  | nil => simp
  | cons r rows ih =>
    have hrow := (hfair r (by simp)).sum_fillEffect (hS r (by simp)).1 (hS r (by simp)).2
    have hrest := ih (fun r' h => hfair r' (by simp [h])) (fun r' h => hS r' (by simp [h]))
    simp only [List.map_cons, List.sum_cons, mul_add, Finset.sum_add_distrib, hrow, hrest]
    ring

/-- The rows of a mirrored ledger were filled as its orders were. -/
theorem Mirrors.filledFairly {acc : String} {db : Db} {l : PaperLedger} {value : String → ℚ}
    (h : Mirrors acc db l) (hl : TradesFairly value l) :
    ∀ r ∈ db.paperOrders acc, FilledFairly value r.order := by
  intro r hr
  obtain ⟨hmem, hacc⟩ := Db.mem_paperOrders.1 hr
  obtain ⟨id, order, hid, -, hget, -, heq⟩ := h.row r hmem hacc
  rw [OrderRecord.order, hid, Option.getD_some, heq]
  exact hl id order hget

/-- While every quote is fair under some valuation, every account is worth what it started with less
    the fees of its filled orders; so with prices that are not negative it is never worth more. -/
theorem fair_prices_only_cost_fees (value : String → ℚ) (settings : Settings) (turns : List Turn)
    (hturns : ∀ t ∈ turns, t.Promised fun symbol last => 0 ≤ last ∧ Fair value symbol last)
    (hids : (turns.flatMap Turn.draws).Nodup) (acc : String) :
    let db := (turns.foldl Turn.apply (World.boot settings ⟨[], [], [], []⟩)).db
    db.worth value acc = 100000 * value "USDT" - db.fees value acc ∧
      ((∀ a, 0 ≤ value a) → db.worth value acc ≤ 100000 * value "USDT") := by
  intro db
  have hI := (balanced_invariant.mono fun _ _ h => h.1).and (tradesFairly_invariant value)
  have h : Recorded _ _ db := Recorded.run hI settings turns hturns hids
  obtain ⟨l, hm, ⟨-, htrades⟩, -⟩ := h.ledger acc
  have hbalanced : Recorded Balanced _ db := h.imp fun _ hl => hl.1
  have hfair := hm.filledFairly htrades
  -- The assets in question: those of the balances, of the orders, and the starting one.
  let S : Finset String := insert "USDT" ((ledgerOf acc db).balances.keys.toFinset ∪
    ((db.paperOrders acc).flatMap fun r =>
      [(splitSymbol r.symbol "USDT").1, (splitSymbol r.symbol "USDT").2]).toFinset)
  have hkeys : ∀ a, (ledgerOf acc db).balances.get? a ≠ none → a ∈ S := by
    intro a ha
    have hmem : a ∈ (ledgerOf acc db).balances.keys := by
      by_contra hno
      exact ha ((Dict.get?_eq_none_iff _ a).2 hno)
    simp [S, hmem]
  have hlegs : ∀ r ∈ db.paperOrders acc,
      (splitSymbol r.symbol "USDT").1 ∈ S ∧ (splitSymbol r.symbol "USDT").2 ∈ S := by
    intro r hr
    simp only [S, Finset.mem_insert, Finset.mem_union, List.mem_toFinset, List.mem_flatMap]
    exact ⟨Or.inr (Or.inr ⟨r, hr, by simp⟩), Or.inr (Or.inr ⟨r, hr, by simp⟩)⟩
  have htotal : ∀ a, (ledgerOf acc db).free a + (ledgerOf acc db).used a
      = (if a = "USDT" then 100000 else 0)
        + ((db.paperOrders acc).map fun r => ({} : PaperAdapter).fillEffect r.order a).sum :=
    fun a => (hbalanced.booked acc a).total_eq
  have hworth : db.worth value acc = 100000 * value "USDT" - db.fees value acc := by
    rw [Db.worth, PaperLedger.sumBy_worth _ value hkeys]
    simp only [htotal, mul_add, Finset.sum_add_distrib, sum_traded _ hfair hlegs]
    rw [sum_value_ite (by simp [S]), Db.fees]
    ring
  refine ⟨hworth, fun hvalue => ?_⟩
  have hfees : 0 ≤ db.fees value acc := by
    refine List.sum_nonneg fun x hx => ?_
    obtain ⟨r, hr, rfl⟩ := List.mem_map.1 hx
    unfold Order.feeWorth
    split
    · next hst => exact mul_nonneg (hfair r hr hst).1 (hvalue _)
    · exact le_refl 0
  linarith

/-- One coin bought at 100 and a bid that rests: the account has lost the fee, 0.04. -/
theorem fair_prices_sample :
    let value : String → ℚ := fun a => if a = "BTC" then 100 else if a = "USDT" then 1 else 0
    let db := (Turn.sampleTurns.foldl Turn.apply (World.boot {} ⟨[], [], [], []⟩)).db
    db.fees value "a" = 4 / 100 ∧
      db.worth value "a" = 100000 * value "USDT" - db.fees value "a" := by
  intro value db
  have hfair : Fair value "BTC/USDT" 100 := by
    unfold Fair
    decide +kernel
  have hids : (Turn.sampleTurns.flatMap Turn.draws).Nodup := by decide
  exact ⟨by decide +kernel, (fair_prices_only_cost_fees value {} Turn.sampleTurns
    (Turn.sampleTurns_promised ⟨by norm_num, hfair⟩) hids "a").1⟩

end TradingHub
