import TradingHub.Services.Books

set_option autoImplicit false

/-! # Getting the funds back

Nothing an account has reserved is out of reach. Where no statement raises, a cancellation of an
open paper order goes through (`cancel_of_healthy`), so cancelling the open orders one after another
closes them all; then the books of the account leave nothing in `used`. -/

namespace TradingHub

open Library PaperLedgerRepository AccountService

variable {env : Env} {w : World} {account : ExchangeAccount}

/-! ## Requests that go through -/

/-- No statement of the request raises, and the secrets of the account can be read. -/
structure Env.Healthy (env : Env) (account : ExchangeAccount) : Prop where
  quiet : ∀ st, env.fault st = none
  credentials : ∃ c, decryptCredentials env account = .ok c

theorem execute_run {st : Statement} (h : env.fault st = none) (w : World) :
    execute env st w = (.ok (), w) :=
  execute_eq_ok.2 ⟨h, rfl⟩

theorem read_run (w : World) : (Act.read : Service World) w = (.ok w, w) := rfl

namespace AccountService

theorem getAccount_of (h : env.fault .selectAccount = none) {accountId userId : String}
    (hfind : w.db.accounts.find? (fun a => a.id = accountId ∧ a.userId = userId) = some account) :
    getAccount env accountId userId w = (.ok account, w) := by
  refine (Act.bind_of_ok (execute_run h w)).trans ((Act.bind_of_ok (read_run w)).trans ?_)
  rw [hfind]
  rfl

theorem loadPaperLedger_of (hbalances : env.fault (.selectBalances account.id) = none)
    (horders : env.fault (.selectOpenOrders account.id) = none)
    (hmode : isPaperEffective w.settings account = true) :
    loadPaperLedger env account w = (.ok (some (ledgerOf account.id w.db)), w) := by
  have hload : PaperLedgerRepository.load env account.id w = (.ok (ledgerOf account.id w.db), w) :=
    (Act.bind_of_ok (execute_run hbalances w)).trans
      ((Act.bind_of_ok (execute_run horders w)).trans (Act.bind_of_ok (read_run w)))
  refine (Act.bind_of_ok (read_run w)).trans ?_
  rw [if_pos hmode]
  exact Act.bind_of_ok hload

/-- A paper session whose body makes no exchange call saves its working copy. -/
theorem adapterSession_paper_of {α : Type} {info : ExchangeInfo} {body : Adapter → Service α} {r : α}
    {w₁ : World} {l : PaperLedger} (h : env.Healthy account)
    (hmode : isPaperEffective w.settings account = true)
    (hinfo : getInfo account.exchangeId = some info)
    (hbody : body (.paper account.id {} ⟨info, none, "spot"⟩)
      { w with client := none, ledger := some (ledgerOf account.id w.db) } = (.ok r, w₁))
    (hl : w₁.ledger = some l) (hclient : w₁.client = none) :
    adapterSession env account true body w
      = (.ok r, { w₁ with db := savedDb account.id l w₁.db }) := by
  obtain ⟨c, hcreds⟩ := h.credentials
  obtain ⟨settings, db, ledger, client, breakers, log⟩ := w₁
  obtain rfl : ledger = some l := hl
  obtain rfl : client = none := hclient
  have hbuild : buildAdapter env account (some (ledgerOf account.id w.db)) w
      = (.ok (.paper account.id {} ⟨info, none, "spot"⟩),
        { w with client := none, ledger := some (ledgerOf account.id w.db) }) := by
    rw [buildAdapter_paper hmode, hcreds, hinfo]
    rfl
  let w₁ : World := ⟨settings, db, some l, none, breakers, log⟩
  have hsave : PaperLedgerRepository.save env account.id l w₁
      = (.ok (), { w₁ with db := savedDb account.id l w₁.db }) :=
    (Act.bind_of_ok (execute_run (h.quiet _) w₁)).trans
      ((Act.bind_of_ok (show Act.modify _ w₁ = (.ok (), _) from rfl)).trans
        (execute_run (h.quiet _) _))
  have hend : endSession env account true true (.paper account.id {} ⟨info, none, "spot"⟩) w₁
      = (.ok (), { w₁ with db := savedDb account.id l w₁.db }) :=
    Act.tryFinally_eq_ok.2 ⟨_, (Act.bind_of_ok (read_run w₁)).trans hsave, rfl⟩
  refine (Act.bind_of_ok (loadPaperLedger_of (h.quiet _) (h.quiet _) hmode)).trans
    ((Act.bind_of_ok hbuild).trans ?_)
  exact Act.tryFinally_eq_ok.2 ⟨w₁, hbody, hend⟩

end AccountService

namespace TradingService

theorem getOrder_of (h : env.Healthy account) {userId orderId : String} {record : OrderRecord}
    (hfind : w.db.orders.find? (fun o => o.id = orderId ∧ o.userId = userId) = some record) :
    getOrder env userId orderId w = (.ok record, w) := by
  refine (Act.bind_of_ok (execute_run (h.quiet _) w)).trans
    ((Act.bind_of_ok (read_run w)).trans ?_)
  rw [hfind]
  rfl

/-- Cancelling an order the working copy knows. -/
theorem cancelWith_paper_of {userId id accountId : String} {record : OrderRecord}
    {engine : PaperAdapter} {market : CcxtAdapter} {order : Order String} {l l' : PaperLedger}
    (h : env.Healthy account) (hl : w.ledger = some l) (hid : record.exchangeOrderId = some id)
    (hne : id ≠ "") (hrun : engine.cancelOrder id l = (.ok order, l')) :
    cancelWith env userId record (.paper accountId engine market) w
      = (.ok { record with status := order.status },
        { w with
          db := { w.db with
            orders := setStatus record.id order.status w.db.orders
            audit := w.db.audit ++ [⟨some userId, .orderCancel record.accountId record.id⟩] }
          log := w.log ++ [.paper accountId (.cancel id)]
          ledger := some l' }) := by
  have hcancel : (Adapter.paper accountId engine market).cancelOrder env id record.symbol w = _ :=
    Adapter.cancelOrder_paper_run hl id record.symbol
  rw [hrun] at hcancel
  have hstatus : cancelStatus env record (.paper accountId engine market) w
      = (.ok order.status, { w with
          log := w.log ++ [.paper accountId (.cancel id)], ledger := some l' }) := by
    unfold cancelStatus
    rw [hid]
    simp only [if_neg hne]
    exact Act.tryExcept_eq_ok.2 (Or.inl ((Act.bind_of_ok hcancel).trans rfl))
  refine (Act.bind_of_ok hstatus).trans ((Act.bind_of_ok (execute_run (h.quiet _) _)).trans ?_)
  refine (Act.bind_of_ok (show Act.modify _ _ = (.ok (), _) from rfl)).trans ?_
  exact (Act.bind_of_ok ((Act.bind_of_ok (execute_run (h.quiet _) _)).trans rfl)).trans rfl

/-- A request that cancels an order the loaded ledger knows goes through. -/
theorem cancelOrder_paper_of {userId id : String} {record : OrderRecord} {order : Order String}
    {info : ExchangeInfo} {l' : PaperLedger} (h : env.Healthy account)
    (hmode : isPaperEffective w.settings account = true)
    (hinfo : getInfo account.exchangeId = some info)
    (hfind : w.db.orders.find? (fun o => o.id = record.id ∧ o.userId = userId) = some record)
    (haccount : w.db.accounts.find? (fun a => a.id = record.accountId ∧ a.userId = userId)
      = some account)
    (hopen : ¬ (record.status = .canceled ∨ record.status = .filled))
    (hid : record.exchangeOrderId = some id) (hne : id ≠ "")
    (hrun : ({} : PaperAdapter).cancelOrder id (ledgerOf account.id w.db) = (.ok order, l')) :
    ∃ w', cancelOrder env userId record.id w = (.ok { record with status := order.status }, w') ∧
      w'.settings = w.settings ∧
      w'.db = cancelCommit userId account.id record order.status l' w.db := by
  have hbody : cancelWith env userId record (.paper account.id {} ⟨info, none, "spot"⟩)
      { w with client := none, ledger := some (ledgerOf account.id w.db) } = _ :=
    cancelWith_paper_of h rfl hid hne hrun
  have hsession := adapterSession_paper_of h hmode hinfo hbody rfl rfl
  have hcancel : (getAccount env record.accountId userId >>= fun account =>
      adapterSession env account true (cancelWith env userId record)) w = _ :=
    (Act.bind_of_ok (getAccount_of (h.quiet _) haccount)).trans hsession
  exact ⟨_, (Act.bind_of_ok (getOrder_of h hfind)).trans
    ((congrFun (if_neg hopen) w).trans hcancel), rfl, rfl⟩

end TradingService

/-! ## Cancelling an open order -/

/-- The paper orders of an account that are open. -/
def Db.openOrders (db : Db) (accountId : String) : List OrderRecord :=
  (db.paperOrders accountId).filter (·.status = .open)

theorem Db.mem_openOrders {db : Db} {acc : String} {r : OrderRecord} :
    r ∈ db.openOrders acc ↔ r ∈ db.orders ∧ IsPaperRow acc r ∧ r.status = .open := by
  simp [openOrders, mem_paperOrders, and_assoc]

/-- The account trades on paper and its user can address it and its orders. -/
structure Cancellable (I : PaperLedger → Prop) (drawn : List String) (account : ExchangeAccount)
    (w : World) : Prop where
  recorded : Recorded I drawn w.db
  mode : isPaperEffective w.settings account = true
  found : w.db.accounts.find? (fun a => a.id = account.id ∧ a.userId = account.userId) = some account
  user : ∀ r ∈ w.db.orders, r.accountId = account.id → r.userId = account.userId

namespace Cancellable

variable {good : String → ℚ → Prop} {I : PaperLedger → Prop} {drawn : List String}

/-- An order of the account is found under its id and the account's user. -/
theorem find_order (h : Cancellable I drawn account w) {r : OrderRecord} (hmem : r ∈ w.db.orders)
    (hacc : r.accountId = account.id) :
    w.db.orders.find? (fun o => o.id = r.id ∧ o.userId = account.userId) = some r := by
  have huser := h.user r hmem hacc
  cases hfind : w.db.orders.find? (fun o => o.id = r.id ∧ o.userId = account.userId) with
  | none => exact absurd (List.find?_eq_none.1 hfind r hmem) (by simp [huser])
  | some o =>
    have hkey : o.id = r.id ∧ o.userId = account.userId := by simpa using List.find?_some hfind
    rw [List.inj_on_of_nodup_map h.recorded.ids (List.mem_of_find?_eq_some hfind) hmem hkey.1]

/-- A cancellation of an open paper order goes through: its row is canceled, and nothing else of the
    orders changes. -/
theorem serve (h : Cancellable I drawn account w) (hI : EngineInvariant good I)
    (henv : env.Healthy account) (hsupported : isSupported account.exchangeId = true)
    {r : OrderRecord} (hmem : r ∈ w.db.orders) (hrow : IsPaperRow account.id r)
    (hopen : r.status = .open) :
    Cancellable I drawn account (serveTrade w (env, .cancel account.userId r.id)) ∧
      (serveTrade w (env, .cancel account.userId r.id)).db.orders
        = TradingService.setStatus r.id .canceled w.db.orders := by
  obtain ⟨info, hinfo⟩ := Option.isSome_iff_exists.1 hsupported
  have hlive : ¬ (r.status = .canceled ∨ r.status = .filled) := by simp [hopen]
  obtain ⟨l, hm, -, -⟩ := h.recorded.ledger account.id
  obtain ⟨id, order, hid, hne, -, ho, -, hload⟩ := hm.open_row hmem hrow hlive
  obtain ⟨l₁, -, hrun, -⟩ :=
    PaperAdapter.cancelOrder_agree (p := {}) hload hload ho ho rfl (Agree.refl _ _)
  have haccount : w.db.accounts.find? (fun a => a.id = r.accountId ∧ a.userId = account.userId)
      = some account := by
    rw [hrow.1]
    exact h.found
  obtain ⟨w', hcancel, hsettings, hdb⟩ := TradingService.cancelOrder_paper_of henv h.mode hinfo
    (h.find_order hmem hrow.1) haccount hlive hid hne hrun
  have hserve : serveTrade w (env, .cancel account.userId r.id) = w' := by
    show (getSession env (TradingService.cancelOrder env account.userId r.id) w).2 = w'
    simp only [getSession, hcancel, henv.quiet]
  have horders : w'.db.orders = TradingService.setStatus r.id .canceled w.db.orders := by
    rw [hdb]
    rfl
  rw [hserve]
  refine ⟨⟨hdb ▸ h.recorded.cancel_paper hI hmem hlive hrow.1.symm (.answered id _ l₁ hid hne hrun),
    by rw [hsettings]; exact h.mode, by rw [hdb]; exact h.found, fun o ho hacc => ?_⟩, horders⟩
  rw [horders] at ho
  obtain ⟨o₀, ho₀, rfl⟩ := List.mem_map.1 ho
  by_cases hid₀ : o₀.id = r.id
  · rw [if_pos hid₀] at hacc ⊢
    exact h.user o₀ ho₀ hacc
  · rw [if_neg hid₀] at hacc ⊢
    exact h.user o₀ ho₀ hacc

end Cancellable

/-! ## Cancelling all open orders -/

/-- The orders with the rows of `ids` canceled. -/
def cancelRows (ids : List String) (orders : List OrderRecord) : List OrderRecord :=
  orders.map fun o => if o.id ∈ ids then { o with status := .canceled } else o

theorem cancelRows_setStatus (id : String) (ids : List String) (orders : List OrderRecord) :
    cancelRows ids (TradingService.setStatus id .canceled orders) = cancelRows (id :: ids) orders := by
  unfold cancelRows TradingService.setStatus
  rw [List.map_map]
  refine List.map_congr_left fun o _ => ?_
  rw [Function.comp_apply]
  by_cases hid : o.id = id
  · subst hid
    by_cases hmem : o.id ∈ ids <;> simp [hmem]
  · by_cases hmem : o.id ∈ ids <;> simp [hid, hmem]

/-- The requests that cancel `rows`, each in an environment of its own. -/
def cancelRequests (env : OrderRecord → Env) (userId : String) (rows : List OrderRecord) :
    List (Env × Trade) :=
  rows.map fun r => (env r, .cancel userId r.id)

theorem Cancellable.serve_all {good : String → ℚ → Prop} {I : PaperLedger → Prop}
    {drawn : List String} (hI : EngineInvariant good I) {env : OrderRecord → Env}
    (hhealthy : ∀ r, (env r).Healthy account) (hsupported : isSupported account.exchangeId = true)
    (rows : List OrderRecord) :
    ∀ w, Cancellable I drawn account w →
      (∀ r ∈ rows, r ∈ w.db.orders ∧ IsPaperRow account.id r ∧ r.status = .open) →
      (rows.map (·.id)).Nodup →
      Cancellable I drawn account ((cancelRequests env account.userId rows).foldl serveTrade w) ∧
        ((cancelRequests env account.userId rows).foldl serveTrade w).db.orders
          = cancelRows (rows.map (·.id)) w.db.orders := by
  induction rows with
  | nil =>
    intro w h _ _
    refine ⟨h, ?_⟩
    simp [cancelRequests, cancelRows]
  | cons r rows ih =>
    intro w h hrows hnodup
    rw [List.map_cons, List.nodup_cons] at hnodup
    obtain ⟨hmem, hrow, hopen⟩ := hrows r (by simp)
    obtain ⟨hnext, horders⟩ := h.serve hI (hhealthy r) hsupported hmem hrow hopen
    have hrest : ∀ r' ∈ rows, r' ∈ (serveTrade w (env r, .cancel account.userId r.id)).db.orders ∧
        IsPaperRow account.id r' ∧ r'.status = .open := by
      intro r' hr'
      obtain ⟨hmem', hkey⟩ := hrows r' (by simp [hr'])
      have hne : r'.id ≠ r.id := fun heq => hnodup.1 (heq ▸ List.mem_map.2 ⟨r', hr', rfl⟩)
      rw [horders]
      exact ⟨List.mem_map.2 ⟨r', hmem', if_neg hne⟩, hkey⟩
    obtain ⟨hlast, hall⟩ := ih _ hnext hrest hnodup.2
    refine ⟨hlast, hall.trans ?_⟩
    rw [horders, cancelRows_setStatus]
    rfl

/-- Where no order of an account is open, nothing is reserved. -/
theorem Db.reserved_of_openOrders {db : Db} {acc : String} (h : db.openOrders acc = [])
    (asset : String) : db.reserved acc asset = 0 := by
  refine List.sum_eq_zero fun x hx => ?_
  obtain ⟨r, hr, rfl⟩ := List.mem_map.1 hx
  refine PaperAdapter.reservedIn_of_closed (fun hopen => ?_) asset
  have hmem : r ∈ db.openOrders acc := List.mem_filter.2 ⟨hr, decide_eq_true hopen⟩
  rw [h] at hmem
  exact absurd hmem (by simp)

section AllCanceled

variable {db db' : Db} {acc : String}

/-- After the open orders have been canceled none is open. -/
theorem openOrders_cancelRows
    (horders : db'.orders = cancelRows ((db.openOrders acc).map (·.id)) db.orders) :
    db'.openOrders acc = [] := by
  refine List.eq_nil_iff_forall_not_mem.2 fun r hr => ?_
  obtain ⟨hmem, hrow, hopen⟩ := Db.mem_openOrders.1 hr
  rw [horders] at hmem
  obtain ⟨o, ho, rfl⟩ := List.mem_map.1 hmem
  by_cases hid : o.id ∈ (db.openOrders acc).map (·.id)
  · rw [if_pos hid] at hopen
    exact absurd hopen (by simp)
  · rw [if_neg hid] at hrow hopen
    exact hid (List.mem_map.2 ⟨o, Db.mem_openOrders.2 ⟨ho, hrow, hopen⟩, rfl⟩)

/-- Cancelling open orders trades nothing. -/
theorem traded_cancelRows (hids : db.DistinctIds)
    (horders : db'.orders = cancelRows ((db.openOrders acc).map (·.id)) db.orders) (asset : String) :
    db'.traded acc asset = db.traded acc asset := by
  have hpaper : db'.paperOrders acc
      = cancelRows ((db.openOrders acc).map (·.id)) (db.paperOrders acc) := by
    rw [Db.paperOrders, horders, cancelRows, cancelRows, Db.paperOrders, List.filter_map]
    refine congrArg (List.map _) (List.filter_congr fun o _ => ?_)
    simp only [Function.comp_apply]
    split <;> rfl
  unfold Db.traded
  rw [hpaper, cancelRows, List.map_map]
  refine congrArg List.sum (List.map_congr_left fun o ho => ?_)
  rw [Function.comp_apply]
  split
  · next hid =>
    obtain ⟨o', ho', hsame⟩ := List.mem_map.1 hid
    obtain ⟨hmem', -, hopen⟩ := Db.mem_openOrders.1 ho'
    have heq : o' = o :=
      List.inj_on_of_nodup_map hids hmem' (Db.mem_paperOrders.1 ho).1 hsame
    rw [PaperAdapter.fillEffect_of_not_filled (by simp),
      PaperAdapter.fillEffect_of_not_filled (by simp [← heq, hopen])]
  · rfl

end AllCanceled

/-- An account is found under its id and its user. -/
theorem Db.Owned.find_account {db : Db} (h : db.Owned) (hacc : account ∈ db.accounts) :
    db.accounts.find? (fun a => a.id = account.id ∧ a.userId = account.userId) = some account := by
  cases hfind : db.accounts.find? (fun a => a.id = account.id ∧ a.userId = account.userId) with
  | none => exact absurd (List.find?_eq_none.1 hfind account hacc) (by simp)
  | some a =>
    have hkey : a.id = account.id ∧ a.userId = account.userId := by
      simpa using List.find?_some hfind
    rw [h.account_inj (List.mem_of_find?_eq_some hfind) hacc hkey.1]

/-- The turns of a server reach what the operations of all users reach. -/
theorem reachable_of_turns {good : String → ℚ → Prop} (settings : Settings) (turns : List Turn)
    (hturns : ∀ t ∈ turns, t.Promised good) :
    Reachable (turns.foldl Turn.apply (World.boot settings ⟨[], [], [], []⟩)) := by
  have hstep : ∀ (w : World) (t : Turn), Reachable w → t.Promised good → Reachable (t.apply w) := by
    intro w t h ht
    cases t with
    | serve env op => exact Reachable.serve w env op h ht.1.selects
    | restart settings => exact Reachable.restart w settings h
  exact run_invariant hstep turns _ (Reachable.boot settings)
    (guarded_of_forall_mem turns _ hturns)

/-- Whatever has happened before, the funds an account has reserved can be had back: on a server
    where the account trades on paper and no statement raises, cancelling its open orders one after
    another leaves none open and nothing in `used`, and everything the account holds is free. -/
theorem reserved_funds_recoverable (settings : Settings) (turns : List Turn)
    (hturns : ∀ t ∈ turns, t.Promised fun _ last => 0 ≤ last)
    (hids : (turns.flatMap Turn.draws).Nodup) (w : World)
    (hw : turns.foldl Turn.apply (World.boot settings ⟨[], [], [], []⟩) = w)
    (account : ExchangeAccount) (hacc : account ∈ w.db.accounts)
    (hmode : isPaperEffective w.settings account = true)
    (hsupported : isSupported account.exchangeId = true) (env : OrderRecord → Env)
    (hhealthy : ∀ r, (env r).Healthy account) :
    let w' := (cancelRequests env account.userId (w.db.openOrders account.id)).foldl serveTrade w
    w'.db.openOrders account.id = [] ∧ ∀ asset, (ledgerOf account.id w'.db).used asset = 0 ∧
      (ledgerOf account.id w'.db).free asset
        = (ledgerOf account.id w.db).free asset + (ledgerOf account.id w.db).used asset := by
  intro w'
  have hrecorded : Recorded Balanced _ w.db :=
    hw ▸ Recorded.run balanced_invariant settings turns hturns hids
  have howned : w.db.Owned := (hw ▸ reachable_of_turns settings turns hturns : Reachable w).owned
  obtain ⟨hlast, horders⟩ := Cancellable.serve_all balanced_invariant hhealthy hsupported
    (w.db.openOrders account.id) w
    ⟨hrecorded, hmode, howned.find_account hacc, fun r hr hid => howned.order_user hacc hr hid⟩
    (fun r hr => Db.mem_openOrders.1 hr)
    (hrecorded.ids.sublist ((List.filter_sublist.trans List.filter_sublist).map _))
  have hclosed := openOrders_cancelRows horders
  refine ⟨hclosed, fun asset => ?_⟩
  have hbefore := hrecorded.booked account.id asset
  have hafter := hlast.recorded.booked account.id asset
  have hused : (ledgerOf account.id w'.db).used asset = 0 :=
    hafter.used_eq.trans (Db.reserved_of_openOrders hclosed asset)
  refine ⟨hused, ?_⟩
  have htotal := hafter.total_eq
  rw [hused, add_zero, traded_cancelRows hrecorded.ids horders, ← hbefore.total_eq] at htotal
  exact htotal

/-- The bid of the sample run is cancelled. -/
theorem reserved_funds_sample :
    let w := Turn.sampleTurns.foldl Turn.apply (World.boot {} ⟨[], [], [], []⟩)
    let w' := (cancelRequests (fun _ => Env.quoting 100 "3") "u" (w.db.openOrders "a")).foldl
      serveTrade w
    (ledgerOf "a" w.db).used "USDT" = 90036 / 1000 ∧ (ledgerOf "a" w'.db).used "USDT" = 0 := by
  intro w w'
  have h := reserved_funds_recoverable {} Turn.sampleTurns (Turn.sampleTurns_promised (by norm_num))
    (by decide) w rfl ⟨"a", "u", "kraken", "main", "spot", true, none, none, none⟩ (by decide +kernel)
    (by decide +kernel) (by decide +kernel) (fun _ => Env.quoting 100 "3")
    fun _ => ⟨fun _ => rfl, none, rfl⟩
  exact ⟨by decide +kernel, (h.2 "USDT").1⟩

end TradingHub
