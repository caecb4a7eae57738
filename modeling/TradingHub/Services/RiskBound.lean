import TradingHub.Services.Requests

set_option autoImplicit false

/-! # The risk check and the fill

The pre-trade risk check prices an order with the price of the request when there is one, and the
paper engine fills it at a price it chooses later, which is the market's. The check bounds what is
traded for the orders that are worth no more at the market than at the price they were checked at.
The others are market orders and limit sells that carry a price below the market, and orders whose
value the check has rounded down. -/

namespace TradingHub

open Library PaperLedgerRepository AccountService TradingService
open DecimalContext (fix)

variable {env : Env} {w w' : World}

/-! ## The bound -/

/-- What decides at which price an order is checked and at which it is filled. -/
structure OrderKind where
  type : OrderType
  side : OrderSide
  postOnly : Bool
  amount : ℚ
  price : Option ℚ
deriving DecidableEq, Repr

namespace OrderKind

/-- An order of the kind, with nothing else in it. -/
def request (kind : OrderKind) : OrderRequest :=
  { symbol := "BTC/USDT"
    side := kind.side
    type := kind.type
    amount := kind.amount
    price := kind.price
    postOnly := kind.postOnly }

/-- What `OrderCreate` lets through. -/
def Admitted (kind : OrderKind) : Prop :=
  0 < kind.amount ∧ ∀ price, kind.price = some price → 0 < price

end OrderKind

def PlaceOrder.kind (r : PlaceOrder) : OrderKind :=
  ⟨r.type, r.side, r.postOnly, r.amount, r.price⟩

theorem PlaceOrder.takes_kind (r : PlaceOrder) (env : Env) (last : ℚ) :
    r.kind.request.Takes last ↔ (r.request env).Takes last :=
  Iff.rfl

/-- The limit that the check compares with is no more than the share of the balance that it stands
    for: rounding has not raised it. -/
def RiskLimits.Unraised [DecimalContext] (limits : RiskLimits) (b : Balance) (leverage : ℚ) : Prop :=
  fix (fix (b.total * leverage) * limits.maxPositionMarginPct)
    ≤ (b.free + b.used) * leverage * limits.maxPositionMarginPct

/-- The check bounds what is traded, for the orders of one kind that meet the market at `last`: an
    order of the kind that is filled has a notional within the share of the account's equity that
    the limits allow. -/
def RiskBounded [DecimalContext] (kind : OrderKind) (last : ℚ) : Prop :=
  ∀ (env : Env) (limits : RiskLimits) (w w' : World) (r : PlaceOrder) (account : ExchangeAccount)
    (b : Balance) (record : OrderRecord),
    r.kind = kind → r.Admitted → (Trade.place limits r).account? w.db = some account →
    isPaperEffective w.settings account = true →
    (ledgerOf account.id w.db).balance (quoteOf r.symbol) = b → 0 < b.total →
    limits.Unraised b r.effectiveLeverage →
    (∀ q, TickerRead env r.symbol w.log w'.log q → q = last) →
    getSession env (placeOrder env limits r) w = (.ok record, w') → record.status = .filled →
    ∃ average, record.average = some average ∧ r.amount * average
      ≤ (b.free + b.used) * r.effectiveLeverage * limits.maxPositionMarginPct

/-- The check saw the price of the request, or else the market's. -/
theorem Placement.Of.refPrice_eq [DecimalContext] {limits : RiskLimits} {r : PlaceOrder}
    {engine : PaperAdapter} {l : PaperLedger} {log log' : List Event} {p : Placement} {last : ℚ}
    (hp : p.Of env limits r engine l log log')
    (hreads : ∀ q, TickerRead env r.symbol log log' q → q = last) :
    p.refPrice = r.price.getD last := by
  cases hprice : r.price with
  | none => exact hreads _ (hp.quoted hprice)
  | some price => exact hp.given price hprice

theorem riskBounded_of_kind [DecimalContext] {kind : OrderKind} {last : ℚ}
    (hkind : kind.Admitted → kind.request.Takes last →
      kind.amount * last ≤ fix (kind.amount * kind.price.getD last)) : RiskBounded kind last := by
  rintro env limits w w' r account b record rfl hadm hacc hmode rfl hequity hlimit hreads hrun hfilled
  have hpaper : ∀ account', (Trade.place limits r).account? w.db = some account' →
      isPaperEffective w.settings account' = true := by
    intro account' hacc'
    rwa [← Option.some.inj (hacc.symm.trans hacc')]
  obtain ⟨account', p, hacc', hp, rfl, -⟩ := placeOrder_paper_ok hpaper (getSession_eq_ok hrun)
  obtain rfl := Option.some.inj (hacc.symm.trans hacc')
  -- The check saw the account's equity, so it bounds the notional at the reference price.
  have hcheck := hp.checked
  rw [equityAsset_eq, totalOf_fetchBalance fun _ _ => asset_of_ledgerOf, if_pos hequity,
    checkedEquity, if_pos hequity, RiskLimits.checkOrder_ok_iff, hp.refPrice_eq hreads] at hcheck
  obtain ⟨e, he, -⟩ | ⟨ticker, -, -, -, ho, -⟩ | ⟨ticker, fill, hticker, hfill, -, ho, -⟩ :=
    PaperAdapter.createOrder_cases hp.created
  · exact absurd he (by simp)
  · have hopen : p.order.status = .open := by rw [Except.ok.inj ho]; rfl
    exact absurd (hfilled.symm.trans hopen) (by simp)
  · obtain rfl := Except.ok.inj hticker
    obtain ⟨htakes, rfl⟩ := PaperAdapter.resolveFillPrice_eq_some_iff.1 hfill
    rw [hreads _ hp.ticker] at htakes
    refine ⟨p.ticker.last, ?_, ?_⟩
    · show p.order.average = some p.ticker.last
      rw [Except.ok.inj ho]
      rfl
    · rw [hreads _ hp.ticker]
      calc r.amount * last ≤ fix (r.amount * r.price.getD last) :=
            hkind ⟨hadm.1, hadm.2.1⟩ ((r.takes_kind env last).2 htakes)
        _ ≤ _ := hcheck.2.2
        _ ≤ _ := hlimit

/-! ## Running an order to its fill -/

theorem Adapter.createOrder_paper_of [DecimalContext] {accountId : String} {engine : PaperAdapter}
    {market : CcxtAdapter} {l l' : PaperLedger} {request : OrderRequest} {ticker : Ticker}
    {o : Order String} {w₁ : World}
    (hticker : market.fetchTicker env request.symbol w = (.ok ticker, w₁)) (hl : w₁.ledger = some l)
    (hrun : engine.createOrder ⟨fun _ => .ok ticker⟩ ("paper-" ++ env.orderHex) request l
      = (.ok o, l')) :
    ∃ w₂, (Adapter.paper accountId engine market).createOrder env request w = (.ok o.ofPaper, w₂) ∧
      w₂.ledger = some l' ∧ w₂.db = w₁.db := by
  have hledger := Adapter.onLedger_run (w := { w₁ with log := w₁.log ++ [.paper accountId
    (.create (.ok ticker) ("paper-" ++ env.orderHex) request)] }) hl
    (engine.createOrder ⟨fun _ => .ok ticker⟩ ("paper-" ++ env.orderHex) request)
  rw [hrun] at hledger
  exact ⟨_, (Act.bind_of_ok hticker).trans ((Act.bind_of_ok rfl).trans
    ((Act.bind_of_ok hledger).trans rfl)), rfl, rfl⟩

/-- In a quiet environment a session that has a ledger is closed. -/
theorem endSession_quiet {l : PaperLedger} (last : ℚ) (n : String) (account : ExchangeAccount)
    (a : Adapter) (hl : w.ledger = some l) :
    ∃ w', endSession (Env.quiet last n) account true true a w = (.ok (), w') := by
  obtain ⟨settings, db, ledger, client, breakers, log⟩ := w
  obtain rfl : ledger = some l := hl
  cases client with
  | none => exact ⟨_, rfl⟩
  | some client => exact ⟨_, rfl⟩

theorem tickerRead_quiet {symbol n : String} {log log' : List Event} {last q : ℚ}
    (h : TickerRead (Env.quiet last n) symbol log log' q) : q = last := by
  obtain ⟨seen, client, raw, rest, -, -, hreply, rfl⟩ := h
  obtain rfl := Except.ok.inj hreply
  rfl

/-! ## Orders that escape the check -/

/-- A paper account. -/
def ExchangeAccount.sample : ExchangeAccount :=
  ⟨"a", "u", "kraken", "main", "spot", true, none, none, none⟩

/-- The paper account holds `usdt`, and `btc` coins. -/
def Db.holding (usdt btc : ℚ) : Db :=
  ⟨[.sample], [], [⟨"a", "USDT", usdt, 0⟩, ⟨"a", "BTC", btc, 0⟩], []⟩

/-- An order of the kind on the paper account. -/
def OrderKind.sample (kind : OrderKind) : PlaceOrder :=
  ⟨"u", "a", "BTC/USDT", kind.side, kind.type, kind.amount, kind.price, none, .gtc, false,
    kind.postOnly, none⟩

theorem splitSymbol_btc : splitSymbol "BTC/USDT" "USDT" = ("BTC", "USDT") := by decide +kernel

/-- Limits under which `usdt` just allow an order that is worth `notional`. -/
def RiskLimits.allowing (notional usdt : ℚ) : RiskLimits :=
  { maxPositionMarginPct := notional / usdt }

theorem OrderKind.sample_admitted {kind : OrderKind} {last : ℚ} (hadm : kind.Admitted)
    (htakes : kind.request.Takes last) :
    kind.sample.Admitted := by
  have htype : kind.type = .market ∨ kind.type = .limit := htakes.imp_right And.left
  refine ⟨hadm.1, hadm.2, fun stop hstop => absurd hstop (by simp [sample]),
    fun leverage hleverage => absurd hleverage (by simp [sample]), fun hlimit hnone => ?_,
    fun hstop => ?_⟩
  · obtain hmarket | ⟨-, -, price, hprice, -⟩ := htakes
    · rw [show kind.sample.type = .market from hmarket] at hlimit
      exact absurd hlimit (by simp)
    · exact absurd (hnone.symm.trans hprice) (by simp)
  · rcases htype with h | h <;> rw [show kind.sample.type = _ from h] at hstop <;>
      exact absurd hstop (by simp)

theorem holding_balance (usdt btc : ℚ) :
    (ledgerOf "a" (Db.holding usdt btc)).balance (quoteOf "BTC/USDT") = ⟨"USDT", usdt, 0⟩ := by
  rw [quoteOf, splitSymbol_btc]
  rfl

/-- The market of the paper account. -/
def CcxtAdapter.sample : CcxtAdapter :=
  ⟨⟨"kraken", "Kraken", false, true, true, false⟩, none, "spot"⟩

/-- The market is read for the reference price, if there is none in the request, and once more for
    the order. -/
theorem sample_reads (kind : OrderKind) (last : ℚ) (db : Db) (l : PaperLedger) :
    ∃ w₁ w₂, referencePrice (Env.quiet last "1") (.paper "a" {} .sample) kind.sample
        { World.boot {} db with ledger := some l } = (.ok (kind.price.getD last), w₁) ∧
      w₁.ledger = some l ∧ CcxtAdapter.fetchTicker .sample (Env.quiet last "1") "BTC/USDT" w₁
        = (.ok ⟨"BTC/USDT", last, none, none, none, none, none, none⟩, w₂) ∧
      w₂.ledger = some l ∧ w₂.db = db := by
  obtain ⟨type, side, postOnly, amount, price⟩ := kind
  cases price with
  | none => refine ⟨_, _, rfl, rfl, rfl, ?_, ?_⟩ <;> rfl
  | some price => refine ⟨_, _, rfl, rfl, rfl, ?_, ?_⟩ <;> rfl

section

variable [DecimalContext] {kind : OrderKind} {last notional usdt : ℚ}

theorem holding_total (husdt : fix usdt = usdt) : (⟨"USDT", usdt, 0⟩ : Balance).total = usdt := by
  rw [Balance.total, add_zero, husdt]

/-- What the account may trade comes out as the notional. -/
theorem allowing_limit (hpos : 0 < usdt) (husdt : fix usdt = usdt) (hnotional : fix notional = notional) :
    fix (fix (usdt * 1) * (RiskLimits.allowing notional usdt).maxPositionMarginPct) = notional := by
  rw [mul_one, husdt, RiskLimits.allowing, mul_div_cancel₀ _ hpos.ne', hnotional]

theorem sample_checked (hpos : 0 < usdt) (husdt : fix usdt = usdt)
    (hnotional : fix notional = notional) :
    (RiskLimits.allowing notional usdt).checkOrder notional
      (checkedEquity (RiskLimits.allowing notional usdt) (totalOf (equityAsset kind.sample.symbol)
        (PaperAdapter.fetchBalance (ledgerOf "a" (Db.holding usdt kind.amount)))) notional)
      kind.sample.effectiveLeverage = .ok () := by
  rw [show kind.sample.symbol = "BTC/USDT" from rfl, equityAsset_eq,
    totalOf_fetchBalance fun _ _ => asset_of_ledgerOf, holding_balance, holding_total husdt,
    if_pos hpos, checkedEquity, if_pos hpos, RiskLimits.checkOrder_ok_iff]
  refine ⟨hpos, ?_, ?_⟩
  · show (1 : ℚ) ≤ 20
    norm_num
  · exact (allowing_limit hpos husdt hnotional).ge

theorem sample_funded (hfunds : fix (fix (kind.amount * last)
      + ({} : PaperAdapter).fee (kind.sample.request env) last) ≤ usdt) :
    (PaperAdapter.charge {} (kind.sample.request env) last).2
      ≤ (ledgerOf "a" (Db.holding usdt kind.amount)).free
        (PaperAdapter.charge {} (kind.sample.request env) last).1 := by
  unfold PaperAdapter.charge
  simp only [PlaceOrder.request, OrderKind.sample, splitSymbol_btc]
  cases kind.side with
  | buy => exact hfunds
  | sell => exact le_rfl

/-- An order that resolves to a fill and finds what it is charged is filled. -/
theorem PaperAdapter.createOrder_of_funded {p : PaperAdapter} {request : OrderRequest}
    {ticker : Ticker} {l : PaperLedger} {fill : ℚ} (orderId : String)
    (hfill : resolveFillPrice request ticker = some fill)
    (hfree : (p.charge request fill).2 ≤ l.free (p.charge request fill).1) :
    p.createOrder ⟨fun _ => .ok ticker⟩ orderId request l =
      (.ok (filledOrder orderId request ticker fill (p.fee request fill)),
        (p.settle l request fill).setOrder orderId
          (filledOrder orderId request ticker fill (p.fee request fill))) := by
  rw [createOrder_run]
  simp only [hfill, if_neg (not_lt.2 hfree)]

/-- In a quiet environment an order that passes the check and is accepted becomes the first row. -/
theorem placeWith_quiet {last equity refPrice : ℚ} {n : String} {limits : RiskLimits}
    {r : PlaceOrder} {account : ExchangeAccount} {a : Adapter} {o : Order String} {w₁ w₂ w₃ : World}
    (href : referencePrice (Env.quiet last n) a r w = (.ok refPrice, w₁))
    (hequity : quoteEquity (Env.quiet last n) a r.symbol w₁ = (.ok equity, w₂))
    (hcheck : limits.checkOrder (fix (r.amount * refPrice))
      (checkedEquity limits equity (fix (r.amount * refPrice))) r.effectiveLeverage = .ok ())
    (hcreate : a.createOrder (Env.quiet last n) (r.request (Env.quiet last n)) w₂
      = (.ok o.ofPaper, w₃)) (horders : w₃.db.orders = []) :
    ∃ record w', placeWith (Env.quiet last n) limits r account a w = (.ok record, w') ∧
      w'.ledger = w₃.ledger ∧ record.status = o.status ∧ record.average = o.average := by
  obtain ⟨settings, ⟨accounts, orders, balances, audit⟩, ledger, client, breakers, log⟩ := w₃
  obtain rfl : orders = [] := horders
  refine ⟨_, _, (Act.bind_of_ok href).trans ((Act.bind_of_ok hequity).trans
    ((Act.bind_of_ok (Act.ofExcept_eq_ok.2 ⟨hcheck, rfl⟩)).trans
      ((Act.bind_of_ok hcreate).trans rfl))), rfl, rfl, rfl⟩

/-- An account that just allows the order, and has the funds for it. -/
structure Afforded (kind : OrderKind) (last notional usdt : ℚ) : Prop where
  takes : kind.request.Takes last
  notional : fix (kind.amount * kind.price.getD last) = notional
  positive : 0 < usdt
  fixed : fix usdt = usdt
  funded : fix (fix (kind.amount * last)
    + ({} : PaperAdapter).fee (kind.sample.request (Env.quiet last "1")) last) ≤ usdt

theorem Afforded.placed (h : Afforded kind last notional usdt) :
    ∃ record w' l', placeWith (Env.quiet last "1") (.allowing notional usdt) kind.sample .sample
        (.paper "a" {} .sample) { World.boot {} (Db.holding usdt kind.amount) with
          ledger := some (ledgerOf "a" (Db.holding usdt kind.amount)) } = (.ok record, w') ∧
      w'.ledger = some l' ∧ record.status = .filled ∧ record.average = some last := by
  obtain ⟨w₁, w₂, href, hl₁, hticker, hl₂, hdb⟩ := sample_reads kind last
    (Db.holding usdt kind.amount) (ledgerOf "a" (Db.holding usdt kind.amount))
  obtain ⟨htakes, rfl, hpos, hfixed, hfunded⟩ := h
  have hfill : PaperAdapter.resolveFillPrice (kind.sample.request (Env.quiet last "1"))
      ⟨"BTC/USDT", last, none, none, none, none, none, none⟩ = some last :=
    PaperAdapter.resolveFillPrice_eq_some_iff.2 ⟨htakes, rfl⟩
  have hrun := PaperAdapter.createOrder_of_funded ("paper-" ++ (Env.quiet last "1").orderHex) hfill
    (sample_funded hfunded)
  obtain ⟨w₃, hcreate, hl₃, hdb₃⟩ : ∃ w₃, (Adapter.paper "a" {} .sample).createOrder
      (Env.quiet last "1") (kind.sample.request (Env.quiet last "1")) w₁ = (.ok _, w₃) ∧
        w₃.ledger = some _ ∧ w₃.db = w₂.db := Adapter.createOrder_paper_of hticker hl₂ hrun
  obtain ⟨record, w', hplaced, hl', hstatus, haverage⟩ := placeWith_quiet href
    (quoteEquity_paper hl₁ _) (sample_checked hpos hfixed (DecimalContext.fix_fix _)) hcreate
    (by rw [hdb₃, hdb]; rfl)
  exact ⟨record, w', _, hplaced, hl'.trans hl₃, hstatus, haverage⟩

/-- The order is filled at the market. -/
theorem Afforded.filled (h : Afforded kind last notional usdt) :
    ∃ record w', getSession (Env.quiet last "1")
        (placeOrder (Env.quiet last "1") (.allowing notional usdt) kind.sample)
        (World.boot {} (Db.holding usdt kind.amount)) = (.ok record, w') ∧
      record.status = .filled ∧ record.average = some last := by
  obtain ⟨record, w₁, l', hplaced, hl', hstatus, haverage⟩ := h.placed
  obtain ⟨w₂, hend⟩ := endSession_quiet last "1" .sample (.paper "a" {} .sample) hl'
  have hbuilt : buildAdapter (Env.quiet last "1") .sample
      (some (ledgerOf "a" (Db.holding usdt kind.amount)))
      (World.boot {} (Db.holding usdt kind.amount)) = (.ok (.paper "a" {} .sample), _) :=
    buildAdapter_paper rfl _
  refine ⟨record, w₂, ?_, hstatus, haverage⟩
  have hrun : placeOrder (Env.quiet last "1") (.allowing notional usdt) kind.sample
      (World.boot {} (Db.holding usdt kind.amount)) = (.ok record, w₂) :=
    (Act.bind_of_ok (show getAccount _ _ _ _ = (.ok ExchangeAccount.sample, _) from rfl)).trans <|
      (Act.bind_of_ok (show loadPaperLedger _ _ _ =
        (.ok (some (ledgerOf "a" (Db.holding usdt kind.amount))), _) from rfl)).trans <|
      (Act.bind_of_ok hbuilt).trans (Act.tryFinally_eq_ok.2 ⟨w₁, hplaced, hend⟩)
  rw [getSession, hrun]
  rfl

/-- An account that just allows what the order is checked at does not allow more. -/
theorem not_riskBounded (hadm : kind.Admitted) (htakes : kind.request.Takes last)
    (hless : fix (kind.amount * kind.price.getD last) < kind.amount * last) :
    ¬ RiskBounded kind last := by
  intro h
  let need := fix (fix (kind.amount * last)
    + ({} : PaperAdapter).fee (kind.sample.request (Env.quiet last "1")) last)
  have hfixed : fix (max need 1) = max need 1 := by
    rcases max_choice need 1 with heq | heq <;> rw [heq] <;> simp [need]
  have hafforded : Afforded kind last (fix (kind.amount * kind.price.getD last)) (max need 1) :=
    ⟨htakes, rfl, lt_max_of_lt_right one_pos, hfixed, le_max_left _ _⟩
  obtain ⟨record, w', hrun, hstatus, haverage⟩ := hafforded.filled
  have hlimit := allowing_limit hafforded.positive hfixed
    (DecimalContext.fix_fix (kind.amount * kind.price.getD last))
  have hexact : (max need 1 + 0) * 1 * (RiskLimits.allowing
      (fix (kind.amount * kind.price.getD last)) (max need 1)).maxPositionMarginPct
        = fix (kind.amount * kind.price.getD last) := by
    rw [add_zero, mul_one, RiskLimits.allowing, mul_div_cancel₀ _ hafforded.positive.ne']
  obtain ⟨average, havg, hbound⟩ := h (Env.quiet last "1") _
    (World.boot {} (Db.holding (max need 1) kind.amount)) w' kind.sample .sample
    ⟨"USDT", max need 1, 0⟩ record rfl (OrderKind.sample_admitted hadm htakes) rfl rfl
    (holding_balance (max need 1) kind.amount) ((holding_total hfixed).symm ▸ hafforded.positive)
    (by
      rw [RiskLimits.Unraised, holding_total hfixed]
      exact (hlimit.trans hexact.symm).le) (fun q => tickerRead_quiet) hrun hstatus
  obtain rfl := Option.some.inj (haverage.symm.trans havg)
  exact absurd (hbound.trans hexact.le) (not_le.2 hless)

/-- The check bounds what is traded exactly for the kinds of orders that do not fill at the market
    where they are worth more than the check made of them, in every decimal context. -/
theorem risk_check_bounds_fills (kind : OrderKind) (last : ℚ) :
    RiskBounded kind last ↔ (kind.Admitted → kind.request.Takes last →
      kind.amount * last ≤ fix (kind.amount * kind.price.getD last)) := by
  constructor
  · intro h hadm htakes
    exact not_lt.1 fun hless => not_riskBounded hadm htakes hless h
  · exact riskBounded_of_kind

end

/-- A fresh account has 100000 USDT, so one order may be worth 50000. A market buy of 900 coins that
    carries the price 1 is checked as an order worth 900 and filled at 100. -/
theorem priced_market_buy_escapes_check :
    ¬ @RiskBounded defaultContext ⟨.market, .buy, false, 900, some 1⟩ 100 := by
  intro h
  let env := Env.quiet 100 "1"
  let r : PlaceOrder :=
    ⟨"u", "a", "BTC/USDT", .buy, .market, 900, some 1, none, .gtc, false, false, none⟩
  let w := World.boot {} ⟨[.sample], [], [], []⟩
  have hfill : (getSession env (@placeOrder defaultContext env {} r) w).1.toOption.map
      (fun o => (o.status, o.average)) = some (.filled, some 100) := by decide +kernel
  rcases hrun : getSession env (@placeOrder defaultContext env {} r) w with ⟨e | record, w'⟩
  · rw [hrun] at hfill
    exact absurd hfill (by simp [Except.toOption])
  · rw [hrun] at hfill
    obtain ⟨hstatus, haverage⟩ := Prod.mk.inj (Option.some.inj hfill)
    obtain ⟨average, havg, hbound⟩ := h env {} w w' r .sample ⟨"USDT", 100000, 0⟩ record rfl
      (by simp [PlaceOrder.Admitted, r]) rfl rfl (by decide +kernel) (by decide +kernel)
      (by unfold RiskLimits.Unraised; decide +kernel) (fun q => tickerRead_quiet) hrun hstatus
    obtain rfl := Option.some.inj (haverage.symm.trans havg)
    exact absurd hbound (by decide +kernel)

end TradingHub
