import TradingHub.Services.Durability

set_option autoImplicit false

/-! # When a cancellation has happened

`cancel_order` writes the status canceled when the adapter says so, but also when the adapter does
not know the order and when the record has no exchange id. Which adapter is asked depends on the
server's policy at that time, not on where the order was placed. So an order placed live is
reported canceled, without anything having been cancelled, by a server that was restarted on paper.

`CancelSafe` is the condition on a cancel request under which this does not happen; under it, over
every run with restarts, a status becomes canceled only if the reservation was released or the
exchange accepted the cancellation. The invariant is that every account is mirrored
(`Mirrors`) by a backed ledger: its paper rows are exactly the orders whose reservations make up
what the ledger holds in `used`, whatever happens to its live rows in between. -/

namespace TradingHub

open Library PaperLedgerRepository AccountService

variable {env : Env} {w w' : World}

/-! ## Trades on a live exchange -/

namespace CcxtAdapter

variable {c : CcxtAdapter}

/-- A client built for the adapter belongs to its exchange. -/
theorem buildClient_ok {client : CcxtClient} (h : c.buildClient env w = (.ok client, w')) :
    client.exchangeId = c.info.id := by
  have hconf := configured_exchangeId c
  unfold buildClient at h
  split at h
  · obtain ⟨_, _, _, h⟩ := Act.bind_eq_ok.1 h
    split at h
    · rcases Act.tryExcept_eq_ok.1 h with h | ⟨_, _, _, h⟩
      · obtain ⟨_, _, _, h⟩ := Act.bind_eq_ok.1 h
        obtain ⟨rfl, -⟩ := Act.pure_eq_ok.1 h
        exact hconf
      · obtain ⟨rfl, -⟩ := Act.pure_eq_ok.1 h
        exact hconf
    · obtain ⟨rfl, -⟩ := Act.pure_eq_ok.1 h
      exact hconf
  · exact absurd h (by simp)

theorem getClient_ok {client : CcxtClient} (hnone : w.client = none)
    (h : c.getClient env w = (.ok client, w')) : client.exchangeId = c.info.id := by
  unfold getClient at h
  rw [Act.bind_of_ok (show (Act.read : Service World) w = (.ok w, w) from rfl), hnone] at h
  obtain ⟨cl, w₁, hbuild, h⟩ := Act.bind_eq_ok.1 h
  obtain ⟨_, _, _, h⟩ := Act.bind_eq_ok.1 h
  obtain ⟨rfl, -⟩ := Act.pure_eq_ok.1 h
  exact buildClient_ok hbuild

/-- The first call of an adapter, if it returned: the exchange accepted it. -/
theorem call_accepted {m : Method} {r : m.Reply} (hnone : w.client = none)
    (h : c.call env m w = (.ok r, w')) :
    ∃ client new, client.exchangeId = c.info.id ∧ w'.log = w.log ++ new ∧
      .call client m true ∈ new ∧ ∃ log, env.ccxt.reply log client m = .ok r := by
  obtain ⟨b, b', client, w₁, hclient, hreply, rfl⟩ := call_ok h
  have htraffic : Traffic (c.setBreaker b w) (c.getClient env (c.setBreaker b w)).2 :=
    (getClient_traffic (c.setBreaker b w)).final (Traffic.refl _)
  rw [hclient] at htraffic
  obtain ⟨new, hlog, -⟩ := htraffic.log
  refine ⟨client, new ++ [.call client m true], getClient_ok (w := c.setBreaker b w) hnone hclient,
    ?_, by simp, w₁.log, hreply⟩
  show w₁.log ++ [.call client m true] = _
  rw [hlog, List.append_assoc]
  rfl

/-- What the adapter raises is never a `NotFoundError`. -/
theorem normaliseError_isNotFound (m : Method) (e : AppError) :
    (c.normaliseError m e).isNotFound = false := by
  unfold normaliseError
  cases e <;> simp only [AppError.isExchangeError, if_true, if_false, Bool.false_eq_true] <;>
    first
      | rfl
      | (split <;> rfl)

theorem cancelOrder_isNotFound {orderId symbol : String} {e : AppError}
    (h : c.cancelOrder env orderId symbol w = (.error e, w')) : e.isNotFound = false := by
  rcases hcall : c.call env (.cancelOrder orderId symbol) w with ⟨e' | raw, w₁⟩
  · have hraise := hcall
    unfold call Act.tryExcept at hraise
    unfold cancelOrder at h
    rw [Act.bind_of_error hcall] at h
    obtain ⟨he, -⟩ := Prod.mk.inj h
    obtain rfl := Except.error.inj he
    split at hraise
    · exact absurd (congrArg Prod.fst hraise) (by simp)
    · obtain ⟨he, -⟩ := Prod.mk.inj hraise
      rw [← Except.error.inj he]
      exact normaliseError_isNotFound _ _
  · unfold cancelOrder at h
    rw [Act.bind_of_ok hcall] at h
    obtain ⟨hparse, -⟩ := Prod.mk.inj h
    unfold parseOrder at hparse
    cases hside : orderSide (raw.side.getOr "buy") with
    | ok side =>
      rw [hside] at hparse
      exact absurd hparse (by simp [pure, Except.pure, bind, Except.bind])
    | error e₁ =>
      rw [hside] at hparse
      obtain rfl : e₁ = e := Except.error.inj hparse
      unfold orderSide at hside
      split at hside
      · exact absurd hside (by simp)
      · exact absurd hside (by simp)
      · rw [← Except.error.inj hside]; rfl
      · rw [← Except.error.inj hside]; rfl

/-- A parsed order is live, and its status is the one the payload names. -/
theorem parseOrder_ok {raw : RawOrder} {symbol : String} {order : Order (Option String)}
    (h : parseOrder raw symbol = .ok order) :
    order.isPaper = false ∧ order.status = statusOf (raw.status.getOr "") := by
  unfold parseOrder at h
  cases hside : orderSide (raw.side.getOr "buy") with
  | ok side =>
    rw [hside] at h
    rw [← Except.ok.inj h]
    exact ⟨rfl, rfl⟩
  | error e =>
    rw [hside] at h
    exact absurd h (by simp [bind, Except.bind])

end CcxtAdapter

namespace TradingService

/-- What placing an order on a live exchange writes: a live row, and nothing to the balances. -/
theorem placeWith_live_ok {limits : RiskLimits} {r : PlaceOrder} {account : ExchangeAccount}
    {exchange : CcxtAdapter} {record : OrderRecord}
    (h : placeWith env limits r account (.live exchange) w = (.ok record, w')) :
    record.isPaper = false ∧ record.id = env.recordId ∧
      (∀ o ∈ w.db.orders, o.id ≠ env.recordId) ∧ w'.db.orders = w.db.orders ++ [record] ∧
      w'.db.balances = w.db.balances ∧ w'.db.accounts = w.db.accounts := by
  obtain ⟨refPrice, w₁, href, h⟩ := Act.bind_eq_ok.1 h
  have ht₁ := (referencePrice_paper_ok href).1
  obtain ⟨equity, w₂, hequity, h⟩ := Act.bind_eq_ok.1 h
  have ht₂ : Traffic w₁ w₂ := by
    have hkeeps : Act.Keeps (Traffic w₁) (quoteEquity env (.live exchange) r.symbol) :=
      Act.Keeps.bind (Act.Keeps.tryExcept (Act.Keeps.bind (CcxtAdapter.call_traffic _ w₁)
        fun _ => Act.Keeps.pure _) fun _ => Act.Keeps.pure _) fun _ => Act.Keeps.pure _
    have := hkeeps.final (Traffic.refl w₁)
    rwa [hequity] at this
  obtain ⟨_, _, hcheck, h⟩ := Act.bind_eq_ok.1 h
  obtain ⟨-, rfl⟩ := Act.ofExcept_eq_ok.1 hcheck
  obtain ⟨order, _, hcreate, h⟩ := Act.bind_eq_ok.1 h
  obtain ⟨raw, w₃, hcall, hret⟩ := Act.bind_eq_ok.1 hcreate
  obtain ⟨hparse, rfl⟩ := Act.ofExcept_eq_ok.1 hret
  have ht₃ : Traffic w₂ w₃ := CcxtAdapter.call_ok_traffic hcall
  have hdb : w₃.db = w.db := ht₃.db.trans (ht₂.db.trans ht₁.db)
  obtain ⟨_, _, hpersist, h⟩ := Act.bind_eq_ok.1 h
  obtain ⟨symbol, -, rfl, hfresh, rfl⟩ := persist_ok hpersist
  obtain ⟨_, _, haudit, h⟩ := Act.bind_eq_ok.1 h
  obtain rfl := auditRecord_ok haudit
  obtain ⟨rfl, rfl⟩ := Act.pure_eq_ok.1 h
  refine ⟨(CcxtAdapter.parseOrder_ok hparse).1, rfl, hdb ▸ hfresh, ?_, ?_, ?_⟩ <;>
    simp only [hdb]

/-- What cancelling through a live exchange has done: the record carries no exchange id, or the
    exchange accepted the call and named the status. The fallback is out of reach, the adapter
    raises no `NotFoundError`. -/
theorem cancelWith_live_ok {userId : String} {record out : OrderRecord} {exchange : CcxtAdapter}
    (hnone : w.client = none)
    (h : cancelWith env userId record (.live exchange) w = (.ok out, w')) :
    w'.db.orders = setStatus record.id out.status w.db.orders ∧
      w'.db.balances = w.db.balances ∧ w'.db.accounts = w.db.accounts ∧
      (record.exchangeOrderId = none ∨ record.exchangeOrderId = some "" ∨
        ∃ id client new, record.exchangeOrderId = some id ∧ client.exchangeId = exchange.info.id ∧
          w'.log = w.log ++ new ∧ .call client (.cancelOrder id record.symbol) true ∈ new ∧
          ∃ log raw, env.ccxt.reply log client (.cancelOrder id record.symbol) = .ok raw ∧
            out.status = CcxtAdapter.statusOf (raw.status.getOr "")) := by
  obtain ⟨status, w₁, hstatus, h⟩ := Act.bind_eq_ok.1 h
  obtain ⟨_, _, hx, h⟩ := Act.bind_eq_ok.1 h
  obtain ⟨-, rfl⟩ := execute_eq_ok.1 hx
  obtain ⟨_, _, hmod, h⟩ := Act.bind_eq_ok.1 h
  obtain rfl := Act.modify_eq_ok.1 hmod
  obtain ⟨_, _, haudit, h⟩ := Act.bind_eq_ok.1 h
  obtain rfl := auditRecord_ok haudit
  obtain ⟨rfl, rfl⟩ := Act.pure_eq_ok.1 h
  unfold cancelStatus at hstatus
  cases hid : record.exchangeOrderId with
  | none =>
    rw [hid] at hstatus
    obtain ⟨-, rfl⟩ := Act.pure_eq_ok.1 hstatus
    exact ⟨rfl, rfl, rfl, Or.inl rfl⟩
  | some id =>
    rw [hid] at hstatus
    simp only at hstatus
    split at hstatus
    · next hempty =>
      obtain ⟨-, rfl⟩ := Act.pure_eq_ok.1 hstatus
      exact ⟨rfl, rfl, rfl, Or.inr (Or.inl (by rw [hempty]))⟩
    · rcases Act.tryExcept_eq_ok.1 hstatus with hstatus | ⟨e, w₂, hraise, hfall⟩
      · obtain ⟨order, _, hcancel, hstatus⟩ := Act.bind_eq_ok.1 hstatus
        obtain ⟨rfl, rfl⟩ := Act.pure_eq_ok.1 hstatus
        obtain ⟨raw, _, hcall, hret⟩ := Act.bind_eq_ok.1 hcancel
        obtain ⟨hparse, rfl⟩ := Act.ofExcept_eq_ok.1 hret
        have hdb := (CcxtAdapter.call_ok_traffic hcall).db
        obtain ⟨client, new, hex, hlog, hmem, log, hreply⟩ := CcxtAdapter.call_accepted hnone hcall
        refine ⟨by simp only [hdb], by simp only [hdb], by simp only [hdb],
          Or.inr (Or.inr ⟨id, client, new, rfl, hex, hlog, hmem, log, raw, hreply,
            (CcxtAdapter.parseOrder_ok hparse).2⟩)⟩
      · rcases hcancel : exchange.cancelOrder env id record.symbol w with ⟨e' | order, w₃⟩
        · rw [Act.bind_of_error (show (Adapter.live exchange).cancelOrder env id record.symbol w = _
            from hcancel)] at hraise
          obtain ⟨he, -⟩ := Prod.mk.inj hraise
          rw [← Except.error.inj he, CcxtAdapter.cancelOrder_isNotFound hcancel] at hfall
          exact absurd hfall (by simp)
        · rw [Act.bind_of_ok (show (Adapter.live exchange).cancelOrder env id record.symbol w = _
            from hcancel)] at hraise
          exact absurd (congrArg Prod.fst hraise) (by simp [pure, Act.pure])

end TradingService

/-! ## What other requests leave alone -/

namespace PaperLedgerRepository

/-- Saving the ledger of one account keeps the rows of the others. -/
theorem balancesOf_saveRows_of_ne {accountId acc : String} (hne : acc ≠ accountId)
    (balances : Dict String Balance) (rows : List PaperBalanceRecord) :
    balancesOf acc (saveRows accountId balances rows) = balancesOf acc rows := by
  have hupsert : ∀ rows e, (upsertRow accountId rows e).filter (·.accountId = acc)
      = rows.filter (·.accountId = acc) := by
    intro rows e
    unfold upsertRow
    split
    · -- An updated row belongs to the saved account, before and after.
      rw [List.filter_map]
      refine (List.map_congr_left fun r hr => ?_).trans ((List.map_id _).trans
        (List.filter_congr fun r _ => ?_))
      · have hacc := (List.mem_filter.1 hr).2
        simp only [Function.comp_apply, decide_eq_true_eq] at hacc
        split at hacc
        · next hkey => exact absurd (hacc.symm.trans hkey.1) hne
        · next hkey => rw [if_neg hkey, id]
      · simp only [Function.comp_apply]
        split <;> rfl
    · rw [List.filter_append, List.filter_cons_of_neg (by simpa using fun h => hne h.symm),
        List.filter_nil, List.append_nil]
  unfold balancesOf saveRows
  congr 2
  induction balances.entries generalizing rows with
  | nil => rfl
  | cons e entries ih => rw [List.foldl_cons, ih, hupsert]

end PaperLedgerRepository

/-- The relation depends on the paper rows and the balance rows of the account only. -/
theorem Mirrors.frame {acc : String} {db db' : Db} {l : PaperLedger} (h : Mirrors acc db l)
    (hrows : ∀ r, IsPaperRow acc r → (r ∈ db'.orders ↔ r ∈ db.orders))
    (hbalances : balancesOf acc db'.balances = balancesOf acc db.balances) : Mirrors acc db' l where
  balances a ha := by
    have hsame : (ledgerOf acc db').balances = (ledgerOf acc db).balances := by
      unfold ledgerOf
      rw [hbalances]
    have := h.balances a ha
    unfold PaperLedger.free PaperLedger.used PaperLedger.balance at this ⊢
    rw [hsame]
    exact this
  row r hr hacc := h.row r ((hrows r hacc).1 hr) hacc
  listed id hid := by
    obtain ⟨r, hr, hacc, hrid⟩ := h.listed id hid
    exact ⟨r, (hrows r hacc).2 hr, hacc, hrid⟩
  id_inj r hr r' hr' hacc hacc' :=
    h.id_inj r ((hrows r hacc).1 hr) r' ((hrows r' hacc').1 hr') hacc hacc'
  exchangeId_inj r hr r' hr' hacc hacc' :=
    h.exchangeId_inj r ((hrows r hacc).1 hr) r' ((hrows r' hacc').1 hr') hacc hacc'

/-! ## The property and its condition -/

/-- The reservation of a paper order went back from used to free in its account's ledger. -/
def Released (w w' : World) (record : OrderRecord) : Prop :=
  record.isPaper = true ∧ ∃ id, record.exchangeOrderId = some id ∧
    let reserved := ({} : PaperAdapter).reservation (orderOf id record)
    (ledgerOf record.accountId w'.db).used reserved.1
        = (ledgerOf record.accountId w.db).used reserved.1 - reserved.2 ∧
      (ledgerOf record.accountId w'.db).free reserved.1
        = (ledgerOf record.accountId w.db).free reserved.1 + reserved.2

/-- The exchange of a live order's account accepted a cancellation of it, between `w` and `w'`. -/
def AcceptedLive (w w' : World) (record : OrderRecord) : Prop :=
  record.isPaper = false ∧ ∃ id account info client new, record.exchangeOrderId = some id ∧
    account ∈ w.db.accounts ∧ account.id = record.accountId ∧
    getInfo account.exchangeId = some info ∧ client.exchangeId = info.id ∧
    w'.log = w.log ++ new ∧ .call client (.cancelOrder id record.symbol) true ∈ new

/-- A step reports a cancellation only if it has happened. -/
def ReportsTruly (w w' : World) : Prop :=
  ∀ record ∈ w.db.orders, record.status ≠ .canceled →
    ∀ row ∈ w'.db.orders, row.id = record.id → row.status = .canceled →
      Released w w' record ∨ AcceptedLive w w' record

/-- The condition on a cancel request, in the state it meets: a live order is cancelled through the
    exchange and has an id there, a paper order on paper, or else by an exchange that refuses. -/
def CancelSafe (w : World) : Step → Prop
  | .request env (.cancel userId orderId) =>
    ∀ record, w.db.orders.find? (fun o => o.id = orderId ∧ o.userId = userId) = some record →
      ¬ (record.status = .canceled ∨ record.status = .filled) →
      ∀ account, (Trade.cancel userId orderId).account? w.db = some account →
        (record.isPaper = false → isPaperEffective w.settings account = false ∧
          record.exchangeOrderId ≠ none ∧ record.exchangeOrderId ≠ some "") ∧
        (record.isPaper = true → isPaperEffective w.settings account = true ∨
          ∀ id log client raw, record.exchangeOrderId = some id →
            env.ccxt.reply log client (.cancelOrder id record.symbol) ≠ .ok raw)
  | _ => True

/-- What the router lets through: the order of a placement is well formed. -/
def Step.Admitted : Step → Prop
  | request _ (.place _ r) => r.Admitted
  | _ => True

/-- The identifiers a list of steps draws for paper orders. -/
def drawnBy : List Step → List String
  | [] => []
  | .request env _ :: steps => env.orderHex :: drawnBy steps
  | .restart _ :: steps => drawnBy steps

/-! ## The invariant -/

/-- Rows have distinct ids, and every account is mirrored by a backed ledger whose order
    identifiers have been drawn. -/
structure Accounted (drawn : List String) (db : Db) : Prop where
  id_inj : ∀ r ∈ db.orders, ∀ r' ∈ db.orders, r.id = r'.id → r = r'
  ledger : ∀ acc, ∃ l, Mirrors acc db l ∧ Backed {} l ∧
    ∀ id, l.orders.get? id ≠ none → ∃ n ∈ drawn, id = "paper-" ++ n

namespace Accounted

variable {drawn : List String}

/-- Tables without orders and balances. -/
theorem new {db : Db} (horders : db.orders = []) (hbalances : db.balances = []) :
    Accounted [] db := by
  refine ⟨fun r hr => absurd hr (by simp [horders]), fun acc => ?_⟩
  have h : Durable acc [] db [] := Durable.new (by simp [hbalances]) (by simp [horders])
  exact ⟨_, h.mirrors, Backed.new _ _, h.known⟩

theorem weaken {db : Db} (h : Accounted drawn db) (more : List String) :
    Accounted (drawn ++ more) db := by
  refine ⟨h.id_inj, fun acc => ?_⟩
  obtain ⟨l, hm, hb, hk⟩ := h.ledger acc
  exact ⟨l, hm, hb, fun id hid => (hk id hid).imp fun _ hn => ⟨List.mem_append_left _ hn.1, hn.2⟩⟩

/-- A step that leaves the orders alone reports nothing. -/
theorem reports_of_orders_eq (h : Accounted drawn w.db) (heq : w'.db.orders = w.db.orders) :
    ReportsTruly w w' := by
  intro record hr hst row hrow hid hcanceled
  rw [heq] at hrow
  rw [h.id_inj row hrow record hr hid] at hcanceled
  exact absurd hcanceled hst

/-- A step that appends a row with a new id reports nothing, and the ids stay distinct. -/
theorem append_row {record : OrderRecord} (h : Accounted drawn w.db)
    (heq : w'.db.orders = w.db.orders ++ [record]) (hfresh : ∀ o ∈ w.db.orders, o.id ≠ record.id) :
    ReportsTruly w w' ∧ ∀ r ∈ w'.db.orders, ∀ r' ∈ w'.db.orders, r.id = r'.id → r = r' := by
  rw [heq]
  constructor
  · intro o ho hst row hrow hid hcanceled
    rw [heq] at hrow
    rcases List.mem_append.1 hrow with hrow | hrow
    · rw [h.id_inj row hrow o ho hid] at hcanceled
      exact absurd hcanceled hst
    · rw [List.mem_singleton.1 hrow] at hid
      exact absurd hid.symm (hfresh o ho)
  · intro r hr r' hr' hid
    have hinj : ∀ r ∈ w.db.orders, ∀ r' ∈ w.db.orders, True → True → r.id = r'.id → r = r' :=
      fun r hr r' hr' _ _ => h.id_inj r hr r' hr'
    exact inj_append hinj (fun o ho _ => hfresh o ho) r hr r' hr' trivial trivial hid

/-- Writing a status to the row of `record` changes that row only, and the ids stay distinct. -/
theorem set_status {record : OrderRecord} {status : OrderStatus} (h : Accounted drawn w.db)
    (hmem : record ∈ w.db.orders)
    (heq : w'.db.orders = TradingService.setStatus record.id status w.db.orders) :
    (∀ o ∈ w'.db.orders, o = { record with status } ∨ o ∈ w.db.orders ∧ o.id ≠ record.id) ∧
      (∀ o ∈ w.db.orders, o.id ≠ record.id → o ∈ w'.db.orders) ∧
      ∀ r ∈ w'.db.orders, ∀ r' ∈ w'.db.orders, r.id = r'.id → r = r' := by
  have hrows : ∀ o ∈ w'.db.orders, o = { record with status } ∨
      o ∈ w.db.orders ∧ o.id ≠ record.id := by
    intro o ho
    rw [heq] at ho
    obtain ⟨o₀, ho₀, hval, -⟩ := TradingService.mem_setStatus ho
    split at hval
    · next hid =>
      rw [h.id_inj o₀ ho₀ record hmem hid] at hval
      exact Or.inl hval
    · next hid => exact Or.inr (hval ▸ ⟨ho₀, hid⟩)
  refine ⟨hrows, fun o ho hid => ?_, fun r hr r' hr' hid => ?_⟩
  · rw [heq]
    exact List.mem_map.2 ⟨o, ho, if_neg hid⟩
  · rcases hrows r hr with rfl | ⟨hr, hne⟩ <;> rcases hrows r' hr' with rfl | ⟨hr', hne'⟩
    · rfl
    · exact absurd hid.symm hne'
    · exact absurd hid hne
    · exact h.id_inj r hr r' hr' hid

theorem place_paper {limits : RiskLimits} {r : PlaceOrder} {account : ExchangeAccount}
    {p : Placement} (h : Accounted drawn w.db) (hadm : r.Admitted)
    (hp : p.Of env limits r {} (ledgerOf account.id w.db) w.log w'.log)
    (hrecord : ∀ o ∈ w.db.orders, o.id ≠ env.recordId) (hfresh : env.orderHex ∉ drawn)
    (hdb : w'.db = p.commit env r account w.db) :
    Accounted (drawn ++ [env.orderHex]) w'.db ∧ ReportsTruly w w' := by
  have hrows : w'.db.orders = w.db.orders ++ [p.record env r account] := by rw [hdb]; rfl
  obtain ⟨hreports, hinj⟩ := h.append_row hrows hrecord
  refine ⟨⟨hinj, fun acc => ?_⟩, hreports⟩
  obtain ⟨l, hm, hb, hk⟩ := h.ledger acc
  have hk' : ∀ id, l.orders.get? id ≠ none → ∃ n ∈ drawn ++ [env.orderHex], id = "paper-" ++ n :=
    fun id hid => (hk id hid).imp fun _ hn => ⟨List.mem_append_left _ hn.1, hn.2⟩
  by_cases hacc : acc = account.id
  · subst hacc
    have hnew : l.orders.get? ("paper-" ++ env.orderHex) = none := by
      by_contra hsome
      obtain ⟨n, hn, heq⟩ := hk _ hsome
      exact hfresh ((String.append_right_inj "paper-").1 heq ▸ hn)
    refine ⟨_, hdb ▸ hm.place rfl hp hrecord hnew,
      hb.createOrder (by norm_num) hadm.1 hadm.2.1 hnew, ?_⟩
    refine PaperCall.run_known (.create _ _ _) hk' fun id hid => ?_
    exact ⟨env.orderHex, by simp, by simpa [PaperCall.drawnIds] using hid⟩
  · refine ⟨l, hm.frame (fun o ho => ?_) ?_, hb, hk'⟩
    · rw [hdb, Placement.commit, List.mem_append, List.mem_singleton]
      refine or_iff_left fun heq => hacc ?_
      rw [← ho.1, heq]
      rfl
    · rw [hdb, Placement.commit, balancesOf_saveRows_of_ne hacc]

theorem place_live {record : OrderRecord} (h : Accounted drawn w.db)
    (hlive : record.isPaper = false) (hfresh : ∀ o ∈ w.db.orders, o.id ≠ record.id)
    (horders : w'.db.orders = w.db.orders ++ [record])
    (hbalances : w'.db.balances = w.db.balances) (more : List String) :
    Accounted (drawn ++ more) w'.db ∧ ReportsTruly w w' := by
  obtain ⟨hreports, hinj⟩ := h.append_row horders hfresh
  refine ⟨⟨hinj, fun acc => ?_⟩, hreports⟩
  obtain ⟨l, hm, hb, hk⟩ := (h.weaken more).ledger acc
  refine ⟨l, hm.frame (fun o ho => ?_) (by rw [hbalances]), hb, hk⟩
  rw [horders, List.mem_append, List.mem_singleton]
  refine or_iff_left fun heq => ?_
  have hpaper := ho.2
  rw [heq, hlive] at hpaper
  exact absurd hpaper (by simp)

/-- A cancellation on paper releases the whole reservation, since `used` backs it. -/
theorem released {userId : String} {record : OrderRecord} {account : ExchangeAccount}
    {status : OrderStatus} {l₁ : PaperLedger} {calls : List PaperCall} (h : Accounted drawn w.db)
    (hmem : record ∈ w.db.orders) (hacc : account.id = record.accountId)
    (hpaper : record.isPaper = true)
    (hlive : ¬ (record.status = .canceled ∨ record.status = .filled))
    (hout : CancelOutcome {} record (ledgerOf account.id w.db) status l₁ calls)
    (hdb : w'.db = cancelCommit userId account.id record status l₁ w.db) : Released w w' record := by
  obtain ⟨l, hm, hb, -⟩ := h.ledger account.id
  obtain ⟨id, order, hid, -, hget, hopen, heq, hload⟩ := hm.open_row hmem ⟨hacc.symm, hpaper⟩ hlive
  obtain ⟨id', hid', -, hrun, -⟩ := hm.cancel userId hmem ⟨hacc.symm, hpaper⟩ hlive hout
  obtain rfl := Option.some.inj (hid.symm.trans hid')
  have hsaved := (ledgerOf_saved w'.db
    (PaperAdapter.run_balances_none {} (.cancel id) (ledgerOf account.id w.db))
    (by rw [hdb, hrun]; rfl)).1
  refine ⟨hpaper, id, hid, ?_⟩
  simp only
  rw [heq, ← hacc]
  have hle : (({} : PaperAdapter).reservation { order with timestamp := none }).2
      ≤ (ledgerOf account.id w.db).used
        (({} : PaperAdapter).reservation { order with timestamp := none }).1 := by
    have hcovered := hb.reservation_le_used hget hopen
    rw [(hm.balances _ (Set.mem_univ _)).2]
    exact hcovered
  obtain ⟨hused, hfree⟩ := PaperAdapter.cancelOrder_releases hload hopen hle
  obtain ⟨hfree', hused'⟩ := hsaved _ (Set.mem_univ _)
  exact ⟨hused'.trans hused, hfree'.trans hfree⟩

/-- A cancellation on paper. -/
theorem cancel_paper {userId : String} {record : OrderRecord} {account : ExchangeAccount}
    {status : OrderStatus} {l₁ : PaperLedger} {calls : List PaperCall} (h : Accounted drawn w.db)
    (hmem : record ∈ w.db.orders) (hacc : account.id = record.accountId)
    (hpaper : record.isPaper = true)
    (hlive : ¬ (record.status = .canceled ∨ record.status = .filled))
    (hout : CancelOutcome {} record (ledgerOf account.id w.db) status l₁ calls)
    (hdb : w'.db = cancelCommit userId account.id record status l₁ w.db) (more : List String) :
    Accounted (drawn ++ more) w'.db ∧ ReportsTruly w w' := by
  have horders : w'.db.orders = TradingService.setStatus record.id status w.db.orders := by
    rw [hdb]; rfl
  obtain ⟨hrows, hkept, hinj⟩ := h.set_status hmem horders
  constructor
  · refine ⟨hinj, fun acc => ?_⟩
    obtain ⟨l, hm, hb, hk⟩ := (h.weaken more).ledger acc
    by_cases hne : acc = account.id
    · subst hne
      obtain ⟨id, -, -, -, hmirrors⟩ :=
        hm.cancel userId hmem ⟨hacc.symm, hpaper⟩ hlive hout
      exact ⟨_, hdb ▸ hmirrors, hb.cancelOrder id,
        PaperCall.run_known (.cancel id) hk
          fun _ hid => absurd hid (by simp [PaperCall.drawnIds])⟩
    · refine ⟨l, hm.frame (fun o ho => ?_) ?_, hb, hk⟩
      · have hother : o.accountId ≠ record.accountId := fun heq => hne (by rw [← ho.1, heq, hacc])
        constructor
        · intro hmem'
          rcases hrows o hmem' with rfl | ⟨ho', -⟩
          · exact absurd rfl hother
          · exact ho'
        · intro ho'
          exact hkept o ho' fun hid => hother (by rw [h.id_inj o ho' record hmem hid])
      · rw [hdb, cancelCommit, balancesOf_saveRows_of_ne hne]
  · intro o ho hst row hrow hid hcanceled
    rcases hrows row hrow with rfl | ⟨hrow', -⟩
    · rw [h.id_inj o ho record hmem hid.symm]
      exact Or.inl (h.released hmem hacc hpaper hlive hout hdb)
    · rw [h.id_inj row hrow' o ho hid] at hcanceled
      exact absurd hcanceled hst

theorem cancel_live {record : OrderRecord} (h : Accounted drawn w.db) (status : OrderStatus)
    (hmem : record ∈ w.db.orders) (hlive : record.isPaper = false)
    (hstatus : w'.db.orders = TradingService.setStatus record.id status w.db.orders)
    (hbalances : w'.db.balances = w.db.balances) (haccepted : AcceptedLive w w' record)
    (more : List String) : Accounted (drawn ++ more) w'.db ∧ ReportsTruly w w' := by
  obtain ⟨hrows, hkept, hinj⟩ := h.set_status hmem hstatus
  constructor
  · refine ⟨hinj, fun acc => ?_⟩
    obtain ⟨l, hm, hb, hk⟩ := (h.weaken more).ledger acc
    refine ⟨l, hm.frame (fun o ho => ?_) (by rw [hbalances]), hb, hk⟩
    have hpaper := ho.2
    constructor
    · intro hmem'
      rcases hrows o hmem' with rfl | ⟨ho', -⟩
      · exact absurd (hpaper.symm.trans hlive) (by simp)
      · exact ho'
    · intro ho'
      refine hkept o ho' fun hid => ?_
      rw [h.id_inj o ho' record hmem hid, hlive] at hpaper
      exact absurd hpaper (by simp)
  · intro o ho hst row hrow hid hcanceled
    rcases hrows row hrow with rfl | ⟨hrow', -⟩
    · rw [h.id_inj o ho record hmem hid.symm]
      exact Or.inr haccepted
    · rw [h.id_inj row hrow' o ho hid] at hcanceled
      exact absurd hcanceled hst

/-- A placement that has returned. -/
theorem place_request {env : Env} {limits : RiskLimits} {r : PlaceOrder} {record : OrderRecord}
    {w' : World} (h : Accounted drawn w.db)
    (hadm : (Step.request env (.place limits r)).Admitted) (hfresh : env.orderHex ∉ drawn)
    (hrun : (Trade.place limits r).run env w = (.ok record, w')) :
    Accounted (drawn ++ [env.orderHex]) w'.db ∧ ReportsTruly w w' := by
  obtain ⟨account, hacc, hsession⟩ := TradingService.placeOrder_session hrun
  cases hmode : isPaperEffective w.settings account with
  | true =>
    obtain ⟨account', p, hacc', hp, -, hrecord, -, hdb, -⟩ :=
      TradingService.placeOrder_paper_ok (fun a ha => by
        rw [← Option.some.inj (hacc.symm.trans ha)]
        exact hmode) hrun
    exact h.place_paper hadm hp hrecord hfresh hdb
  | false =>
    obtain ⟨info, creds, w₁, -, hbody, htraffic⟩ := adapterSession_live_ok hmode hsession
    obtain ⟨hlive, hid, hnew, horders, hbalances, -⟩ := TradingService.placeWith_live_ok hbody
    exact h.place_live hlive (hid ▸ hnew) (by rw [htraffic.db, horders])
      (by rw [htraffic.db, hbalances]) _

/-- A cancellation that was carried out on an adapter for live trading: the order was placed live,
    and the exchange has accepted the cancellation. -/
theorem cancel_request_live {env : Env} {userId orderId : String} {order record : OrderRecord}
    {account : ExchangeAccount} {w' : World} (h : Accounted drawn w.db)
    (hsafe : CancelSafe w (.request env (.cancel userId orderId)))
    (hfind : w.db.orders.find? (fun o => o.id = orderId ∧ o.userId = userId) = some order)
    (hopen : ¬ (order.status = .canceled ∨ order.status = .filled))
    (hacc : (Trade.cancel userId orderId).account? w.db = some account)
    (haccount : account.id = order.accountId) (hmode : isPaperEffective w.settings account = false)
    (hsession : adapterSession env account true (TradingService.cancelWith env userId order) w
      = (.ok record, w')) (new : List String) :
    Accounted (drawn ++ new) w'.db ∧ ReportsTruly w w' := by
  have hmem := List.mem_of_find?_eq_some hfind
  obtain ⟨hsafeLive, hsafePaper⟩ := hsafe order hfind hopen account hacc
  obtain ⟨info, creds, w₁, hinfo, hbody, htraffic⟩ := adapterSession_live_ok hmode hsession
  obtain ⟨hstatus, hbalances, haccounts, hcall⟩ := TradingService.cancelWith_live_ok rfl hbody
  cases hpaper : order.isPaper with
  | true =>
    -- A paper order in front of the exchange: it has an id, and the exchange refuses it.
    obtain ⟨l, hm, -⟩ := h.ledger order.accountId
    obtain ⟨id, _, hid, hne, -⟩ := hm.row order hmem ⟨rfl, hpaper⟩
    rcases hsafePaper hpaper with hmode' | hrefuses
    · exact absurd (hmode.symm.trans hmode') (by simp)
    · rcases hcall with hnone | hempty | ⟨id', client, _, hid', -, -, -, log, raw, hreply, -⟩
      · exact absurd (hid.symm.trans hnone) (by simp)
      · exact absurd (Option.some.inj (hid.symm.trans hempty)) hne
      · exact absurd hreply (hrefuses id' log client raw hid')
  | false =>
    obtain ⟨-, hsome, hnonempty⟩ := hsafeLive hpaper
    rcases hcall with hnone | hempty | ⟨id, client, events, hid, hex, hlog, hcalled, -⟩
    · exact absurd hnone hsome
    · exact absurd hempty hnonempty
    · obtain ⟨events', hlog', -⟩ := htraffic.log
      have haccepted : w'.log = w.log ++ (events ++ events') := by
        rw [hlog', hlog, List.append_assoc]
      exact h.cancel_live record.status hmem hpaper (by rw [htraffic.db, hstatus])
        (by rw [htraffic.db, hbalances]) ⟨hpaper, id, account, info, client, events ++ events', hid,
          Trade.account?_mem hacc, haccount, hinfo, hex, haccepted,
          List.mem_append_left _ hcalled⟩ new

/-- A cancellation that has returned. -/
theorem cancel_request {env : Env} {userId orderId : String} {record : OrderRecord} {w' : World}
    (h : Accounted drawn w.db) (hsafe : CancelSafe w (.request env (.cancel userId orderId)))
    (hrun : (Trade.cancel userId orderId).run env w = (.ok record, w')) (new : List String) :
    Accounted (drawn ++ new) w'.db ∧ ReportsTruly w w' := by
  obtain ⟨order, hfind, ⟨-, -, rfl⟩ | ⟨hopen, account, hacc, haccount, hsession⟩⟩ :=
    TradingService.cancelOrder_session hrun
  · exact ⟨h.weaken _, h.reports_of_orders_eq rfl⟩
  · cases hmode : isPaperEffective w.settings account with
    | false => exact h.cancel_request_live hsafe hfind hopen hacc haccount hmode hsession new
    | true =>
      have hpaper : order.isPaper = true := by
        by_contra hlive
        obtain ⟨hmode', -⟩ := (hsafe order hfind hopen account hacc).1 (by simpa using hlive)
        exact absurd (hmode.symm.trans hmode') (by simp)
      obtain ⟨order', hfind', ⟨hdone, -⟩ | ⟨-, account', status, l', calls, hacc', -, hout, -, -,
        hdb, -⟩⟩ := TradingService.cancelOrder_paper_ok (fun a ha => by
          rw [← Option.some.inj (hacc.symm.trans ha)]
          exact hmode) hrun
      · obtain rfl := Option.some.inj (hfind.symm.trans hfind')
        exact absurd hdone hopen
      · obtain rfl := Option.some.inj (hfind.symm.trans hfind')
        obtain rfl := Option.some.inj (hacc.symm.trans hacc')
        exact h.cancel_paper (List.mem_of_find?_eq_some hfind) haccount hpaper hopen hout hdb new

/-- One step of the server keeps the accounts in order and reports truly. -/
theorem step {step : Step} (h : Accounted drawn w.db) (hadm : step.Admitted)
    (hsafe : CancelSafe w step) (hfresh : ∀ n ∈ drawnBy [step], n ∉ drawn) :
    Accounted (drawn ++ drawnBy [step]) (step.apply w).db ∧ ReportsTruly w (step.apply w) := by
  cases step with
  | restart allowLiveTrading => exact ⟨h.weaken [], h.reports_of_orders_eq rfl⟩
  | request env t =>
    show Accounted (drawn ++ [env.orderHex]) (getSession env (t.run env) w).2.db ∧
      ReportsTruly w (getSession env (t.run env) w).2
    obtain ⟨record, w', hrun, hserve⟩ | ⟨e, w', hserve, hdb⟩ := getSession_cases env (t.run env) w
    · rw [hserve]
      cases t with
      | place limits r =>
        exact h.place_request hadm (hfresh env.orderHex (by simp [drawnBy])) hrun
      | cancel userId orderId => exact h.cancel_request hsafe hrun [env.orderHex]
    · rw [hserve]
      exact ⟨hdb ▸ h.weaken _, h.reports_of_orders_eq (by rw [hdb])⟩

end Accounted

end TradingHub
