import TradingHub.Services.Requests

set_option autoImplicit false

/-! # The price of a simulated fill

The paper adapter fills at the last price of a ticker, and `fetch_ticker` makes 0 of a last price
that the exchange did not report. An order that takes liquidity at that price is then filled for
nothing. So is a buy that costs so little that the balance it is taken from rounds back. -/

namespace TradingHub

open Library PaperAdapter
open DecimalContext (fix)

/-! ## Filled orders of the adapter -/

/-- The ticker `fetch_ticker` makes of a payload. -/
def RawTicker.ticker (symbol : String) (t : RawTicker) : Ticker :=
  { symbol
    last := dec0 t.last.get
    bid := dec t.bid.get
    ask := dec t.ask.get
    high := dec t.high.get
    low := dec t.low.get
    baseVolume := dec t.baseVolume.get
    timestamp := t.timestamp.get }

/-- The payload reports a last price above zero. -/
def RawTicker.PositiveLast (raw : RawTicker) : Prop :=
  ∃ last, raw.last = .value (.num last) ∧ 0 < last

section

variable [DecimalContext]

/-- The buy was charged its cost and fee at the price `average`, which left less of the quote asset
    than there was, and then was given its amount. -/
def Paid (p : PaperAdapter) (request : OrderRequest) (average : ℚ) (l l' : PaperLedger) : Prop :=
  ∃ l₁, debit (splitSymbol request.symbol p.quote).2 (p.charge request average).2 l = (.ok (), l₁) ∧
    l₁.free (splitSymbol request.symbol p.quote).2 < l.free (splitSymbol request.symbol p.quote).2 ∧
    ∀ a, l'.free a = (l₁.moveFree (splitSymbol request.symbol p.quote).1 request.amount).free a

/-- The order was filled at a positive price, the payload reported one, and a buy has paid for what
    it bought. -/
def PricedFill (p : PaperAdapter) (raw : RawTicker) (request : OrderRequest) (l l' : PaperLedger)
    (order : Order (Option String)) : Prop :=
  (∃ last, raw.last = .value (.num last)) ∧
    ∃ average, order.average = some average ∧ 0 < average ∧
      (request.side = .buy → Paid p request average l l')

/-- Whatever the market and the account: where the exchange answers with the payload, an order of
    the request that is filled from the ledger `l` is priced. -/
def FillsPriced (p : PaperAdapter) (raw : RawTicker) (request : OrderRequest) (l : PaperLedger) :
    Prop :=
  ∀ (accountId : String) (market : CcxtAdapter) (env : Env) (w w₁ w' : World)
    (order : Order (Option String)),
    w.ledger = some l → market.call env (.fetchTicker request.symbol) w = (.ok raw, w₁) →
    (Adapter.paper accountId p market).createOrder env request w = (.ok order, w') →
    order.status = .filled → ∃ l', w'.ledger = some l' ∧ PricedFill p raw request l l' order

/-- The order is filled at `last`: it takes liquidity there, and its funds are there. -/
def PaperAdapter.Fills (p : PaperAdapter) (l : PaperLedger) (request : OrderRequest) (last : ℚ) :
    Prop :=
  request.Takes last ∧ (p.charge request last).2 ≤ l.free (p.charge request last).1

/-- The cost of a buy at `last` is not lost when what it leaves of the quote asset is rounded. -/
def PaperAdapter.Counts (p : PaperAdapter) (l : PaperLedger) (request : OrderRequest) (last : ℚ) :
    Prop :=
  request.side = .buy → fix (l.free (splitSymbol request.symbol p.quote).2
    - (p.charge request last).2) < l.free (splitSymbol request.symbol p.quote).2

end

theorem CcxtAdapter.fetchTicker_of_call {c : CcxtAdapter} {env : Env} {symbol : String}
    {raw : RawTicker} {w w₁ : World} (h : c.call env (.fetchTicker symbol) w = (.ok raw, w₁)) :
    c.fetchTicker env symbol w = (.ok (raw.ticker symbol), w₁) :=
  (Act.bind_of_ok h).trans rfl

theorem PaperAdapter.charge_of_buy [DecimalContext] (p : PaperAdapter) {request : OrderRequest}
    (hside : request.side = .buy) (price : ℚ) :
    (p.charge request price).1 = (splitSymbol request.symbol p.quote).2 := by
  rw [charge, hside]

/-- A buy has paid exactly if its cost counts. -/
theorem paid_iff [DecimalContext] {p : PaperAdapter} {request : OrderRequest} {l : PaperLedger}
    {last : ℚ} (hside : request.side = .buy)
    (hfunds : (p.charge request last).2 ≤ l.free (p.charge request last).1) :
    Paid p request last l (p.settle l request last) ↔ p.Counts l request last := by
  have hdebit : debit (splitSymbol request.symbol p.quote).2 (p.charge request last).2 l
      = (.ok (), l.moveFree (splitSymbol request.symbol p.quote).2 (-(p.charge request last).2)) := by
    rw [debit_run, if_neg (not_lt.2 (p.charge_of_buy hside last ▸ hfunds))]
  have hsettle : p.settle l request last
      = (l.moveFree (splitSymbol request.symbol p.quote).2 (-(p.charge request last).2)).moveFree
          (splitSymbol request.symbol p.quote).1 request.amount := by
    simp only [settle, charge, hside]
  have hleft : (l.moveFree (splitSymbol request.symbol p.quote).2
      (-(p.charge request last).2)).free (splitSymbol request.symbol p.quote).2
        = fix (l.free (splitSymbol request.symbol p.quote).2 - (p.charge request last).2) := by
    rw [PaperLedger.free_moveFree_eq, if_pos rfl, sub_eq_add_neg]
  constructor
  · rintro ⟨l₁, hrun, hless, -⟩ -
    obtain ⟨-, rfl⟩ := Prod.mk.inj (hdebit.symm.trans hrun)
    exact hleft ▸ hless
  · intro hcounts
    exact ⟨_, hdebit, hleft ▸ hcounts hside, fun a => by rw [hsettle]⟩

/-- A fill at the price of the ticker is priced exactly if the payload reports that price to be
    positive and the cost of a buy counts. -/
theorem pricedFill_iff [DecimalContext] {p : PaperAdapter} {raw : RawTicker} {request : OrderRequest}
    {l : PaperLedger} (orderId : String)
    (hfunds : (p.charge request (raw.ticker request.symbol).last).2
      ≤ l.free (p.charge request (raw.ticker request.symbol).last).1) :
    PricedFill p raw request l
        ((p.settle l request (raw.ticker request.symbol).last).setOrder orderId
          (filledOrder orderId request (raw.ticker request.symbol) (raw.ticker request.symbol).last
            (p.fee request (raw.ticker request.symbol).last)))
        (filledOrder orderId request (raw.ticker request.symbol) (raw.ticker request.symbol).last
          (p.fee request (raw.ticker request.symbol).last)).ofPaper ↔
      raw.PositiveLast ∧ p.Counts l request (raw.ticker request.symbol).last := by
  constructor
  · rintro ⟨⟨last, hraw⟩, average, haverage, hpos, hpaid⟩
    obtain rfl : _ = average := Option.some.inj haverage
    refine ⟨⟨last, hraw, ?_⟩, fun hside => (paid_iff hside hfunds).1 (hpaid hside) hside⟩
    exact lt_of_lt_of_eq hpos (show dec0 raw.last.get = last by rw [hraw]; rfl)
  · rintro ⟨⟨last, hraw, hpos⟩, hcounts⟩
    refine ⟨⟨last, hraw⟩, _, rfl, ?_, fun hside => (paid_iff hside hfunds).2 hcounts⟩
    exact lt_of_lt_of_eq hpos (show last = dec0 raw.last.get by rw [hraw]; rfl)

/-! ## Unpriced fills -/

/-- An exchange that answers every ticker request with the payload. -/
def CcxtLibrary.reporting (raw : RawTicker) : CcxtLibrary where
  installed := true
  reply log client
    | .fetchTicker _ => .ok raw
    | m => (CcxtLibrary.quoting 1).reply log client m

/-- The first ticker request of a fresh adapter is answered with the payload. -/
theorem call_reporting (raw : RawTicker) (symbol : String) (l : PaperLedger) :
    ∃ w₁, (⟨⟨"kraken", "Kraken", false, true, true, false⟩, none, "spot"⟩ : CcxtAdapter).call
        { Env.quiet 1 "1" with ccxt := CcxtLibrary.reporting raw } (.fetchTicker symbol)
        { World.boot {} ⟨[], [], [], []⟩ with ledger := some l } = (.ok raw, w₁) :=
  ⟨_, rfl⟩

/-- An order that takes liquidity at the price of the ticker is filled, if its funds are there. -/
theorem Adapter.createOrder_filled [DecimalContext] (accountId : String) {p : PaperAdapter}
    {market : CcxtAdapter} {env : Env} {raw : RawTicker} {request : OrderRequest} {w w₁ : World}
    {l : PaperLedger} (hl : w.ledger = some l)
    (hcall : market.call env (.fetchTicker request.symbol) w = (.ok raw, w₁))
    (hfills : p.Fills l request (raw.ticker request.symbol).last) :
    ∃ w', (Adapter.paper accountId p market).createOrder env request w
        = (.ok (filledOrder ("paper-" ++ env.orderHex) request (raw.ticker request.symbol)
          (raw.ticker request.symbol).last
          (p.fee request (raw.ticker request.symbol).last)).ofPaper, w') ∧
      w'.ledger = some ((p.settle l request (raw.ticker request.symbol).last).setOrder
        ("paper-" ++ env.orderHex) (filledOrder ("paper-" ++ env.orderHex) request
          (raw.ticker request.symbol) (raw.ticker request.symbol).last
          (p.fee request (raw.ticker request.symbol).last))) := by
  obtain ⟨htakes, hfunds⟩ := hfills
  have hticker := CcxtAdapter.fetchTicker_of_call hcall
  have hl₁ : w₁.ledger = some l := (CcxtAdapter.fetchTicker_ok hticker).1.ledger.trans hl
  have hrun := createOrder_run p ⟨fun _ => .ok (raw.ticker request.symbol)⟩
    ("paper-" ++ env.orderHex) request l
  simp only [resolveFillPrice_eq_some_iff.2 ⟨htakes, rfl⟩, if_neg (not_lt.2 hfunds)] at hrun
  have hledger := Adapter.onLedger_run (w := { w₁ with log := w₁.log ++ [.paper accountId
    (.create (.ok (raw.ticker request.symbol)) ("paper-" ++ env.orderHex) request)] }) hl₁
    (p.createOrder ⟨fun _ => .ok (raw.ticker request.symbol)⟩ ("paper-" ++ env.orderHex) request)
  rw [hrun] at hledger
  exact ⟨_, (Act.bind_of_ok hticker).trans
    ((Act.bind_of_ok rfl).trans ((Act.bind_of_ok hledger).trans rfl)), rfl⟩

/-- A request is filled from a ledger only at a price that the exchange has reported and that is
    positive, and a buy pays for it, exactly if that is so where the order is filled at the price
    the adapter makes of the payload: whatever the market and the account, in every decimal
    context. -/
theorem fills_priced_iff [DecimalContext] (p : PaperAdapter) (raw : RawTicker)
    (request : OrderRequest) (l : PaperLedger) :
    FillsPriced p raw request l ↔ (p.Fills l request (raw.ticker request.symbol).last →
      raw.PositiveLast ∧ p.Counts l request (raw.ticker request.symbol).last) := by
  constructor
  · intro hpriced hfills
    obtain ⟨w₁, hcall⟩ := call_reporting raw request.symbol l
    obtain ⟨w', hrun, hledger⟩ := Adapter.createOrder_filled "a" rfl hcall hfills
    obtain ⟨l', hl', hfill⟩ := hpriced _ _ _ _ _ _ _ rfl hcall hrun rfl
    obtain rfl := Option.some.inj (hledger.symm.trans hl')
    exact (pricedFill_iff _ hfills.2).1 hfill
  · rintro hcond accountId market env w w₁ w' order hl hcall hrun hfilled
    obtain ⟨ticker, o, l', w₂, hticker, hcreate, rfl, rfl⟩ := Adapter.createOrder_paper_ok hl hrun
    rw [CcxtAdapter.fetchTicker_of_call hcall] at hticker
    obtain rfl := Except.ok.inj (congrArg Prod.fst hticker)
    refine ⟨l', rfl, ?_⟩
    obtain ⟨e, he, -⟩ | ⟨ticker, -, -, -, ho, -⟩ |
      ⟨ticker, price, hticker', hfill, hfunds, ho, rfl⟩ := createOrder_cases hcreate
    · exact absurd he (by simp)
    · rw [Except.ok.inj ho] at hfilled
      exact absurd hfilled (by simp [Order.ofPaper, restingOrder])
    · obtain rfl := Except.ok.inj hticker'
      obtain ⟨htakes, rfl⟩ := resolveFillPrice_eq_some_iff.1 hfill
      rw [Except.ok.inj ho]
      exact (pricedFill_iff _ hfunds).2 (hcond ⟨htakes, hfunds⟩)

/-- A ticker payload with nothing but a last price. -/
def RawTicker.lastOnly (last : Field RawNumber) : RawTicker :=
  ⟨last, .absent, .absent, .absent, .absent, .absent, .absent⟩

/-- A market buy of a thousand coins. -/
def marketBuy : OrderRequest :=
  ⟨"BTC/USDT", .buy, .market, 1000, none, none, .gtc, false, false, none, none⟩

theorem reported_fill_priced :
    @FillsPriced defaultContext {} (.lastOnly (.value (.num 100))) marketBuy
      (PaperLedger.new "USDT" 1000000) :=
  (@fills_priced_iff defaultContext {} (.lastOnly (.value (.num 100))) marketBuy
    (PaperLedger.new "USDT" 1000000)).2 fun _ =>
      ⟨⟨100, rfl, by norm_num⟩, fun _ => by decide +kernel⟩

/-- A market buy that is quoted nothing is filled at 0 for a new account. -/
theorem not_fillsPriced_of_unreported [DecimalContext] (last : Field RawNumber)
    (hlast : last = .absent ∨ last = .null ∨ last = .value .emptyText) :
    ¬ FillsPriced {} (.lastOnly last) marketBuy (PaperLedger.new "USDT" 100000) := by
  intro hpriced
  have hzero : ((RawTicker.lastOnly last).ticker marketBuy.symbol).last = 0 := by
    rcases hlast with rfl | rfl | rfl <;> rfl
  have hcharge : ({} : PaperAdapter).charge marketBuy 0
      = ((splitSymbol marketBuy.symbol "USDT").2, 0) := by
    simp [charge, fee, marketBuy]
  have hfills : ({} : PaperAdapter).Fills (PaperLedger.new "USDT" 100000) marketBuy
      ((RawTicker.lastOnly last).ticker marketBuy.symbol).last := by
    rw [hzero, Fills, hcharge]
    exact ⟨.inl rfl, by decide +kernel⟩
  obtain ⟨⟨reported, hreported, -⟩, -⟩ := (fills_priced_iff _ _ _ _).1 hpriced hfills
  rcases hlast with rfl | rfl | rfl <;> simp [RawTicker.lastOnly] at hreported

/-- The market buy is filled though the payload reports no last price: it is missing, null or
    empty. -/
theorem unreported_fills_unpriced :
    ¬ @FillsPriced defaultContext {} (.lastOnly .absent) marketBuy (PaperLedger.new "USDT" 100000) ∧
      ¬ @FillsPriced defaultContext {} (.lastOnly .null) marketBuy (PaperLedger.new "USDT" 100000) ∧
      ¬ @FillsPriced defaultContext {} (.lastOnly (.value .emptyText)) marketBuy
        (PaperLedger.new "USDT" 100000) :=
  ⟨@not_fillsPriced_of_unreported defaultContext _ (Or.inl rfl),
    @not_fillsPriced_of_unreported defaultContext _ (Or.inr (Or.inl rfl)),
    @not_fillsPriced_of_unreported defaultContext _ (Or.inr (Or.inr rfl))⟩

end TradingHub
