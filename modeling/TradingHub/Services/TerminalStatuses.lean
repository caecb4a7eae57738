import TradingHub.Services.Cancellation

set_option autoImplicit false

/-! # Terminal statuses

`cancel_order` returns a canceled or filled order as it is. An order that the exchange has rejected
or let expire passes this guard: the adapter is asked to cancel it, and whatever comes back, the
exchange's next status or canceled from a paper adapter that does not know the order, replaces the
terminal status.

`CancelsLive` is the condition on a cancel request under which no terminal status is lost. Under it
`TerminalKept` holds between any two states of a run, by a step lemma that looks at the one row a
request writes. -/

namespace TradingHub

open Library AccountService

variable {env : Env} {w w' : World}

/-! ## The property -/

/-- The statuses of an order that is finished. -/
def OrderStatus.Terminal (s : OrderStatus) : Prop :=
  s = .filled ∨ s = .canceled ∨ s = .rejected ∨ s = .expired

/-- The status in the row with this id. -/
def Db.statusOf? (db : Db) (id : String) : Option OrderStatus :=
  (db.orders.find? fun o => o.id = id).map (·.status)

/-- Every order with a terminal status is still there, with this status. -/
def TerminalKept (db db' : Db) : Prop :=
  ∀ id s, db.statusOf? id = some s → s.Terminal → db'.statusOf? id = some s

theorem TerminalKept.refl (db : Db) : TerminalKept db db := fun _ _ h _ => h

theorem TerminalKept.trans {db₁ db₂ db₃ : Db} (h : TerminalKept db₁ db₂)
    (h' : TerminalKept db₂ db₃) : TerminalKept db₁ db₃ :=
  fun id s hs ht => h' id s (h id s hs ht) ht

theorem TerminalKept.of_orders_eq {db db' : Db} (h : db'.orders = db.orders) :
    TerminalKept db db' := by
  intro id s hs _
  rwa [Db.statusOf?, h]

/-! ## The condition -/

/-- Whatever an exchange answers to a cancellation of the order, it names the status the order
    has. -/
def AnswersItsStatus (env : Env) (record : OrderRecord) : Prop :=
  ∀ id log client raw, record.exchangeOrderId = some id →
    env.ccxt.reply log client (.cancelOrder id record.symbol) = .ok raw →
    CcxtAdapter.statusOf (raw.status.getOr "") = record.status

/-- The condition on a cancel request, in the state it meets: a rejected or expired order is only
    cancelled on its exchange, under its id there, and the exchange answers with its status. -/
def CancelsLive (w : World) : Step → Prop
  | .request env (.cancel userId orderId) =>
    ∀ record, w.db.orders.find? (fun o => o.id = orderId ∧ o.userId = userId) = some record →
      record.status = .rejected ∨ record.status = .expired →
      ∀ account, (Trade.cancel userId orderId).account? w.db = some account →
        isPaperEffective w.settings account = false ∧ record.exchangeOrderId ≠ none ∧
          record.exchangeOrderId ≠ some "" ∧ AnswersItsStatus env record
  | _ => True

/-! ## What a request writes -/

/-- A row with a new key. -/
theorem nodup_map_concat {γ κ : Type} {key : γ → κ} {rows : List γ} {row : γ}
    (h : (rows.map key).Nodup) (hnew : ∀ r ∈ rows, key r ≠ key row) :
    ((rows ++ [row]).map key).Nodup := by
  rw [List.map_append, List.map_singleton]
  refine h.append (List.nodup_singleton _) (List.disjoint_singleton.2 fun hmem => ?_)
  obtain ⟨r, hr, hkey⟩ := List.mem_map.1 hmem
  exact hnew r hr hkey

/-- The primary key of the orders. -/
def Db.DistinctIds (db : Db) : Prop := (db.orders.map (·.id)).Nodup

namespace TradingService

/-- A placement that returned has appended its record, under a new id. -/
theorem placeOrder_appends {limits : RiskLimits} {r : PlaceOrder} {record : OrderRecord}
    (h : placeOrder env limits r w = (.ok record, w')) :
    record.id = env.recordId ∧ (∀ o ∈ w.db.orders, o.id ≠ record.id) ∧
      w'.db.orders = w.db.orders ++ [record] := by
  obtain ⟨account, hacc, hsession⟩ := placeOrder_session h
  cases hmode : isPaperEffective w.settings account with
  | true =>
    obtain ⟨account', p, -, -, rfl, hfresh, -, hdb, -⟩ := placeOrder_paper_ok (fun a ha => by
      rw [← Option.some.inj (hacc.symm.trans ha)]
      exact hmode) h
    exact ⟨rfl, hfresh, by rw [hdb]; rfl⟩
  | false =>
    obtain ⟨info, creds, w₁, -, hbody, htraffic⟩ := adapterSession_live_ok hmode hsession
    obtain ⟨-, hid, hnew, horders, -⟩ := placeWith_live_ok hbody
    exact ⟨hid, hid ▸ hnew, by rw [htraffic.db, horders]⟩

/-- A cancellation that returned has left the orders alone, or written one status to one row; if
    the order was finished, under the condition, it is the status it had. -/
theorem cancelOrder_writes {userId orderId : String} {out : OrderRecord}
    (h : cancelOrder env userId orderId w = (.ok out, w'))
    (hsafe : CancelsLive w (.request env (.cancel userId orderId))) :
    w'.db.orders = w.db.orders ∨
      ∃ record ∈ w.db.orders, ∃ status, w'.db.orders = setStatus record.id status w.db.orders ∧
        (record.status.Terminal → status = record.status) := by
  obtain ⟨record, hfind, ⟨-, -, rfl⟩ | ⟨hopen, account, hacc, -, hsession⟩⟩ := cancelOrder_session h
  · exact Or.inl rfl
  have hmem := List.mem_of_find?_eq_some hfind
  have hsafe := hsafe record hfind
  cases hmode : isPaperEffective w.settings account with
  | true =>
    obtain ⟨record', hfind', ⟨hdone, -⟩ | ⟨-, account', status, l', calls, -, -, -, -, -, hdb, -⟩⟩ :=
      cancelOrder_paper_ok (fun a ha => by
        rw [← Option.some.inj (hacc.symm.trans ha)]
        exact hmode) h
    · obtain rfl := Option.some.inj (hfind.symm.trans hfind')
      exact absurd hdone hopen
    · obtain rfl := Option.some.inj (hfind.symm.trans hfind')
      refine Or.inr ⟨record, hmem, status, by rw [hdb]; rfl, fun hterminal => ?_⟩
      -- On paper the condition leaves no rejected or expired order to cancel.
      rcases hterminal with hst | hst | hst
      · exact absurd (Or.inr hst) hopen
      · exact absurd (Or.inl hst) hopen
      · exact absurd (hmode.symm.trans (hsafe hst account hacc).1) (by simp)
  | false =>
    obtain ⟨info, creds, w₁, -, hbody, htraffic⟩ := adapterSession_live_ok hmode hsession
    obtain ⟨horders, -, -, hcall⟩ := cancelWith_live_ok rfl hbody
    refine Or.inr ⟨record, hmem, out.status, by rw [htraffic.db, horders], fun hterminal => ?_⟩
    rcases hterminal with hst | hst | hst
    · exact absurd (Or.inr hst) hopen
    · exact absurd (Or.inl hst) hopen
    · obtain ⟨-, hsome, hnonempty, hanswers⟩ := hsafe hst account hacc
      rcases hcall with hnone | hempty | ⟨id, client, _, hid, -, -, -, log, raw, hreply, hstatus⟩
      · exact absurd hnone hsome
      · exact absurd hempty hnonempty
      · rw [hstatus]
        exact hanswers id log client raw hid hreply

end TradingService

/-! ## Steps and runs -/

/-- Appending a row under a new id loses no status. -/
theorem TerminalKept.append {db db' : Db} {record : OrderRecord}
    (h : db'.orders = db.orders ++ [record]) : TerminalKept db db' := by
  intro id s hs _
  obtain ⟨o, hfind, hst⟩ := Option.map_eq_some_iff.1 hs
  rw [Db.statusOf?, h, List.find?_append, hfind]
  exact congrArg some hst

/-- The row of an order is the first with its id. -/
theorem Db.DistinctIds.find? {db : Db} (h : db.DistinctIds) {record : OrderRecord}
    (hmem : record ∈ db.orders) : db.orders.find? (fun o => o.id = record.id) = some record := by
  cases hfind : db.orders.find? (fun o => o.id = record.id) with
  | none => exact absurd (List.find?_eq_none.1 hfind record hmem) (by simp)
  | some o =>
    have hid : o.id = record.id := by simpa using List.find?_some hfind
    rw [List.inj_on_of_nodup_map h (List.mem_of_find?_eq_some hfind) hmem hid]

theorem TradingService.map_id_setStatus (orderId : String) (status : OrderStatus)
    (orders : List OrderRecord) :
    (setStatus orderId status orders).map (·.id) = orders.map (·.id) := by
  rw [setStatus, List.map_map]
  refine List.map_congr_left fun o _ => ?_
  simp only [Function.comp_apply]
  split <;> rfl

theorem TradingService.find?_setStatus (orderId id : String) (status : OrderStatus)
    (orders : List OrderRecord) :
    (setStatus orderId status orders).find? (fun o => o.id = id)
      = (orders.find? fun o => o.id = id).map
          fun o => if o.id = orderId then { o with status } else o := by
  rw [setStatus, List.find?_map]
  congr 2
  funext o
  simp only [Function.comp_apply]
  split <;> rfl

/-- Writing the status of an order loses none, if it is not finished or keeps the status it has. -/
theorem TerminalKept.setStatus {db db' : Db} {record : OrderRecord} {status : OrderStatus}
    (hids : db.DistinctIds) (hmem : record ∈ db.orders)
    (h : db'.orders = TradingService.setStatus record.id status db.orders)
    (hstatus : record.status.Terminal → status = record.status) : TerminalKept db db' := by
  intro id s hs hterminal
  obtain ⟨o, hfind, rfl⟩ := Option.map_eq_some_iff.1 hs
  rw [Db.statusOf?, h, TradingService.find?_setStatus, hfind, Option.map_some, Option.map_some]
  split
  · next hid =>
    have ho : o.id = id := by simpa using List.find?_some hfind
    rw [← ho, hid, hids.find? hmem] at hfind
    obtain rfl := Option.some.inj hfind
    exact congrArg some (hstatus hterminal)
  · rfl

/-- The step: it keeps the primary key and the terminal statuses. -/
theorem terminalKept_step {step : Step} (hids : w.db.DistinctIds) (hsafe : CancelsLive w step) :
    (step.apply w).db.DistinctIds ∧ TerminalKept w.db (step.apply w).db := by
  cases step with
  | restart allowLiveTrading => exact ⟨hids, TerminalKept.refl _⟩
  | request env t =>
    show (getSession env (t.run env) w).2.db.DistinctIds ∧
      TerminalKept w.db (getSession env (t.run env) w).2.db
    obtain ⟨record, w', hrun, hserve⟩ | ⟨e, w', hserve, hdb⟩ := getSession_cases env (t.run env) w
    · rw [hserve]
      cases t with
      | place limits r =>
        obtain ⟨-, hfresh, horders⟩ := TradingService.placeOrder_appends hrun
        refine ⟨?_, TerminalKept.append horders⟩
        rw [Db.DistinctIds, horders]
        exact nodup_map_concat hids hfresh
      | cancel userId orderId =>
        obtain hsame | ⟨order, hmem, status, horders, hstatus⟩ :=
          TradingService.cancelOrder_writes hrun hsafe
        · exact ⟨by rwa [Db.DistinctIds, hsame], TerminalKept.of_orders_eq hsame⟩
        · refine ⟨?_, TerminalKept.setStatus hids hmem horders hstatus⟩
          rwa [Db.DistinctIds, horders, TradingService.map_id_setStatus]
    · rw [hserve]
      exact ⟨hdb ▸ hids, TerminalKept.of_orders_eq (by rw [hdb])⟩

/-- In every run of trades and restarts whose cancel requests meet the condition, an order that has
    a terminal status in some state has it in every later state. -/
theorem terminal_statuses_kept (w : World) (hids : w.db.DistinctIds) (steps : List Step)
    (hsafe : Guarded Step.apply CancelsLive w steps) (before between after : List Step)
    (hsteps : steps = before ++ between ++ after) :
    TerminalKept (before.foldl Step.apply w).db ((before ++ between).foldl Step.apply w).db := by
  rw [hsteps] at hsafe
  obtain ⟨hsafe, -⟩ := guarded_append after (before ++ between) w hsafe
  obtain ⟨hbefore, hbetween⟩ := guarded_append between before w hsafe
  have hmid : (before.foldl Step.apply w).db.DistinctIds :=
    run_invariant (I := fun w => w.db.DistinctIds)
      (fun _ _ h hg => (terminalKept_step h hg).1) before w hids hbefore
  have hrun := run_invariant
    (I := fun w' => w'.db.DistinctIds ∧ TerminalKept (before.foldl Step.apply w).db w'.db)
    (fun _ _ h hg => ⟨(terminalKept_step h.1 hg).1, h.2.trans (terminalKept_step h.1 hg).2⟩)
    between _ ⟨hmid, TerminalKept.refl _⟩ hbetween
  rw [List.foldl_append]
  exact hrun.2

/-- A quiet environment whose exchange answers every order and every cancellation with `status`. -/
def Env.answering (status n : String) : Env :=
  { Env.quiet 100 n with
    ccxt :=
      { installed := true
        reply := fun log client m =>
          match m with
          | .createOrder request =>
            .ok (CcxtLibrary.quoting.accepted "7" request.symbol status
              (.value (.num request.amount)))
          | .cancelOrder orderId symbol =>
            .ok (CcxtLibrary.quoting.accepted orderId symbol status .absent)
          | m => (CcxtLibrary.quoting 100).reply log client m } }

/-- A server on which live trading is allowed, with one live account. -/
def World.live : World := World.boot ⟨true, true⟩ (Db.oneLiveAccount "binance")

/-- A live bid that the exchange rejects. -/
def Step.rejectedBid : Step := .request (.answering "rejected" "1") Trade.sampleBid

/-- The rejected bid, and a cancellation the exchange answers with rejected. -/
theorem terminal_statuses_kept_sample :
    let cancel := Step.request (.answering "rejected" "2") (.cancel "u" "1")
    let w := Step.rejectedBid.apply World.live
    w.db.statusOf? "1" = some .rejected ∧ TerminalKept w.db (cancel.apply w).db := by
  intro cancel w
  refine ⟨by decide +kernel, ?_⟩
  refine terminal_statuses_kept World.live List.nodup_nil [.rejectedBid, cancel]
    ⟨trivial, fun record hfind _ account hacc => ?_, trivial⟩ [.rejectedBid] [cancel] [] rfl
  have hrows : ∀ o ∈ w.db.orders, o.exchangeOrderId = some "7" ∧ o.status = .rejected := by
    decide +kernel
  obtain ⟨hid, hst⟩ := hrows record (List.mem_of_find?_eq_some hfind)
  have haccounts : ∀ a ∈ w.db.accounts, isPaperEffective w.settings a = false := by decide +kernel
  refine ⟨haccounts account (Trade.account?_mem hacc), by simp [hid], by simp [hid], ?_⟩
  intro id log client raw _ hreply
  rw [hst, ← Except.ok.inj hreply]
  rfl

/-- The rejected bid, and a cancellation the exchange answers with canceled. -/
theorem rejected_order_canceled :
    let w := Step.rejectedBid.apply World.live
    let w' := Step.apply w (.request (.answering "canceled" "2") (.cancel "u" "1"))
    w.db.statusOf? "1" = some .rejected ∧ w'.db.statusOf? "1" = some .canceled ∧
      ¬ TerminalKept w.db w'.db := by
  intro w w'
  have hbefore : w.db.statusOf? "1" = some .rejected := by decide +kernel
  have hafter : w'.db.statusOf? "1" = some .canceled := by decide +kernel
  refine ⟨hbefore, hafter, fun hkept => ?_⟩
  have hsame := hkept "1" .rejected hbefore (Or.inr (Or.inr (Or.inl rfl)))
  rw [hafter] at hsame
  exact absurd hsame (by decide)

end TradingHub
