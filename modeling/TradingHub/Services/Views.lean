import TradingHub.Services.Recovery

set_option autoImplicit false

/-! # What the users see

The read paths of a paper account, after any run. The open orders shown are the open rows of the
account, in whatever order the database hands the rows out (`open_orders_view`), and the portfolio is
the sum of the books of the user's accounts, of those that can be read (`portfolio_adds_up`): an
account that cannot be read is left out. -/

namespace TradingHub

open Library PaperLedgerRepository AccountService

variable {env : Env} {w : World} {account : ExchangeAccount}

/-! ## Looking at a paper account -/

/-- Whether the rows and the secrets of an account can be read and its exchange is known. -/
def Env.reads (env : Env) (account : ExchangeAccount) : Bool :=
  (env.fault (.selectBalances account.id)).isNone &&
    (env.fault (.selectOpenOrders account.id)).isNone &&
    (decryptCredentials env account).isOk && isSupported account.exchangeId

theorem Env.Healthy.reads (h : env.Healthy account)
    (hsupported : isSupported account.exchangeId = true) : env.reads account = true := by
  obtain ⟨c, hc⟩ := h.credentials
  simp [Env.reads, h.quiet, hc, hsupported, Except.isOk, Except.toBool]

theorem execute_raises (hselects : env.SelectsRead) {st : Statement} (hst : st.isSelect = true)
    {f : Fault} (hf : env.fault st = some f) (w : World) :
    execute env st w = (.error f.error, w) := by
  unfold execute
  rw [hf]
  show (Except.error f.error, { w with db := f.residue w.db }) = _
  rw [hselects st f hst hf w.db]

namespace AccountService

section

variable {α : Type} {f : PaperLedger → α} {body : Adapter → Service α}

/-- A body that looks at the working copy is shown the stored ledger. -/
theorem adapterSession_of_reads (hmode : isPaperEffective w.settings account = true)
    (hreads : env.reads account = true)
    (hbody : ∀ accountId engine market,
      body (.paper accountId engine market) = onLedger (do let l ← Act.read; return f l)) :
    ∃ w', w'.db = w.db ∧ w'.settings = w.settings ∧
      adapterSession env account false body w = (.ok (f (ledgerOf account.id w.db)), w') := by
  simp only [Env.reads, Bool.and_eq_true, Option.isNone_iff_eq_none] at hreads
  obtain ⟨⟨⟨hbalances, horders⟩, hcredentials⟩, hsupported⟩ := hreads
  obtain ⟨info, hinfo⟩ := Option.isSome_iff_exists.1 hsupported
  refine ⟨{ w with client := none, ledger := some (ledgerOf account.id w.db) }, rfl, rfl, ?_⟩
  have hbuild : buildAdapter env account (some (ledgerOf account.id w.db)) w
      = (.ok (.paper account.id {} ⟨info, none, "spot"⟩),
        { w with client := none, ledger := some (ledgerOf account.id w.db) }) := by
    rw [buildAdapter_paper hmode, hinfo]
    cases hc : decryptCredentials env account with
    | error e => simp [hc, Except.isOk, Except.toBool] at hcredentials
    | ok c => rfl
  refine (Act.bind_of_ok (loadPaperLedger_of hbalances horders hmode)).trans
    ((Act.bind_of_ok hbuild).trans ?_)
  exact Act.tryFinally_eq_ok.2 ⟨_, by rw [hbody]; rfl, rfl⟩

/-- An account that cannot be read raises, and nothing is written. -/
theorem adapterSession_of_not_reads (hselects : env.SelectsRead)
    (hmode : isPaperEffective w.settings account = true) (hreads : env.reads account = false)
    (body : Adapter → Service α) : ∃ e, adapterSession env account false body w = (.error e, w) := by
  have hload : ∀ e, PaperLedgerRepository.load env account.id w = (.error e, w) →
      loadPaperLedger env account w = (.error e, w) := fun e he =>
    (Act.bind_of_ok (read_run w)).trans ((congrFun (if_pos hmode) w).trans (Act.bind_of_error he))
  cases hbalances : env.fault (.selectBalances account.id) with
  | some fault =>
    exact ⟨_, Act.bind_of_error
      (hload _ (Act.bind_of_error (execute_raises hselects rfl hbalances w)))⟩
  | none =>
    cases horders : env.fault (.selectOpenOrders account.id) with
    | some fault =>
      exact ⟨_, Act.bind_of_error (hload _ ((Act.bind_of_ok (execute_run hbalances w)).trans
        (Act.bind_of_error (execute_raises hselects rfl horders w))))⟩
    | none =>
      have hbuild : ∃ e, buildAdapter env account (some (ledgerOf account.id w.db)) w
          = (.error e, w) := by
        rw [buildAdapter_paper hmode]
        cases hc : decryptCredentials env account with
        | error e => exact ⟨e, rfl⟩
        | ok c =>
          have hunknown : getInfo account.exchangeId = none := by
            simpa [Env.reads, hbalances, horders, hc, isSupported, Except.isOk, Except.toBool]
              using hreads
          rw [hunknown]
          exact ⟨_, rfl⟩
      obtain ⟨e, he⟩ := hbuild
      exact ⟨e, (Act.bind_of_ok (loadPaperLedger_of hbalances horders hmode)).trans
        (Act.bind_of_error he)⟩

end

end AccountService
/-! ## Open orders -/

theorem mem_isOpenPaper {acc : String} {r : OrderRecord} :
    isOpenPaper acc r = true ↔ IsPaperRow acc r ∧ (r.status = .open ∨ r.status = .partiallyFilled) := by
  simp [isOpenPaper, IsPaperRow, and_assoc]

namespace Mirrors

variable {acc : String} {db : Db} {l : PaperLedger}

/-- No row of a paper account is partially filled. -/
theorem filter_isOpenPaper (h : Mirrors acc db l) :
    db.orders.filter (isOpenPaper acc) = db.openOrders acc := by
  rw [Db.openOrders, Db.paperOrders, List.filter_filter]
  refine List.filter_congr fun r hr => Bool.eq_iff_iff.2 ?_
  rw [mem_isOpenPaper]
  simp only [Bool.and_eq_true, decide_eq_true_eq]
  constructor
  · rintro ⟨hrow, hopen⟩
    obtain ⟨id, order, -, -, -, hstatus, heq⟩ := h.row r hr hrow
    have hsame : r.status = order.status := congrArg Order.status heq
    rw [← hsame] at hstatus
    rcases hopen with hopen | hpart
    · exact ⟨hopen, hrow⟩
    · rw [hpart] at hstatus
      exact absurd hstatus (by simp)
  · rintro ⟨hopen, hrow⟩
    exact ⟨hrow, Or.inl hopen⟩

/-- The orders that are loaded are the open rows, each once and in their order. -/
theorem loaded_values (h : Mirrors acc db l) (hids : db.DistinctIds) :
    (loadOpenOrders acc db.orders).values = (db.openOrders acc).map OrderRecord.order := by
  have hrow : ∀ r ∈ db.openOrders acc, r ∈ db.orders ∧ IsPaperRow acc r := fun r hr =>
    ⟨(Db.mem_openOrders.1 hr).1, (Db.mem_openOrders.1 hr).2.1⟩
  have hentry : ∀ r ∈ db.openOrders acc,
      orderEntry r = some (r.exchangeOrderId.getD "", r.order) := by
    intro r hr
    obtain ⟨id, order, hid, hne, -⟩ := h.row r (hrow r hr).1 (hrow r hr).2
    simp only [orderEntry, OrderRecord.order, hid, if_neg hne, Option.getD_some]
  have hentries : (db.orders.filter (isOpenPaper acc)).filterMap orderEntry
      = (db.openOrders acc).map fun r => (r.exchangeOrderId.getD "", r.order) := by
    rw [h.filter_isOpenPaper, List.filterMap_congr hentry, List.filterMap_eq_map']
  have hnodup : (((db.openOrders acc).map fun r => (r.exchangeOrderId.getD "", r.order)).map
      Prod.fst).Nodup := by
    rw [List.map_map]
    refine List.Nodup.map_on (fun r hr r' hr' heq => ?_) ((hids.of_map.filter _).filter _)
    obtain ⟨id, -, hid, -⟩ := h.row r (hrow r hr).1 (hrow r hr).2
    obtain ⟨id', -, hid', -⟩ := h.row r' (hrow r' hr').1 (hrow r' hr').2
    have hsame : r.exchangeOrderId = r'.exchangeOrderId := by simpa [hid, hid'] using heq
    exact h.exchangeId_inj r (hrow r hr).1 r' (hrow r' hr').1 (hrow r hr).2 (hrow r' hr').2 hsame
  rw [loadOpenOrders, hentries, Dict.values, Dict.entries_ofEntries hnodup, List.map_map]
  rfl

/-- `fetch_open_orders` on the stored ledger. -/
theorem fetchOpenOrders (h : Mirrors acc db l) (hids : db.DistinctIds) :
    PaperAdapter.fetchOpenOrders (ledgerOf acc db) none
      = (db.openOrders acc).map OrderRecord.order := by
  unfold PaperAdapter.fetchOpenOrders
  show (loadOpenOrders acc db.orders).values.filter _ = _
  rw [h.loaded_values hids]
  refine List.filter_eq_self.2 fun o ho => ?_
  obtain ⟨r, hr, rfl⟩ := List.mem_map.1 ho
  simpa using Or.inl (Db.mem_openOrders.1 hr).2.2

end Mirrors

/-- The tables with the order rows handed out as `rows`: a `SELECT` without `ORDER BY` may give them
    in any order. -/
def Db.handing (db : Db) (rows : List OrderRecord) : Db := { db with orders := rows }

/-- The relation does not depend on the order of the rows. -/
theorem Mirrors.handing {acc : String} {db : Db} {l : PaperLedger} (h : Mirrors acc db l)
    {rows : List OrderRecord} (hrows : rows.Perm db.orders) : Mirrors acc (db.handing rows) l :=
  h.reframe (fun _ _ => hrows.mem_iff) (agree_of_balancesOf rfl)

/-- After every run, whatever the order in which the database hands out the rows, what a user is
    shown as the open orders of a paper account is the open rows of the account, each once; looking
    writes nothing. -/
theorem open_orders_view (settings : Settings) (turns : List Turn)
    (hturns : ∀ t ∈ turns, t.Promised fun _ last => 0 ≤ last)
    (hids : (turns.flatMap Turn.draws).Nodup) (w : World)
    (hw : turns.foldl Turn.apply (World.boot settings ⟨[], [], [], []⟩) = w)
    (account : ExchangeAccount) (hacc : account ∈ w.db.accounts)
    (hmode : isPaperEffective w.settings account = true) (env : Env)
    (haccount : env.fault .selectAccount = none) (hreads : env.reads account = true)
    (rows : List OrderRecord) (hrows : rows.Perm w.db.orders) :
    ∃ (shown : List OrderRecord) (w' : World),
      shown.Perm (w.db.openOrders account.id) ∧ w'.db = w.db.handing rows ∧
      TradingService.listOpenOrders env account.userId account.id { w with db := w.db.handing rows }
        = (.ok (shown.map fun r => r.order.ofPaper), w') := by
  have hrecorded : Recorded Balanced _ w.db :=
    hw ▸ Recorded.run balanced_invariant settings turns hturns hids
  have howned : w.db.Owned := (hw ▸ reachable_of_turns settings turns hturns : Reachable w).owned
  obtain ⟨l, hm, -⟩ := hrecorded.ledger account.id
  have hdistinct : (w.db.handing rows).DistinctIds := (hrows.map _).nodup_iff.2 hrecorded.ids
  have hview : ∃ w', w'.db = w.db.handing rows ∧ w'.settings = w.settings ∧
      adapterSession env account false (fun adapter => adapter.fetchOpenOrders env)
          { w with db := w.db.handing rows }
        = (.ok ((PaperAdapter.fetchOpenOrders
            (ledgerOf account.id (w.db.handing rows)) none).map Order.ofPaper), w') :=
    adapterSession_of_reads (w := { w with db := w.db.handing rows })
      (f := fun l => (PaperAdapter.fetchOpenOrders l none).map Order.ofPaper)
      hmode hreads fun _ _ _ => rfl
  obtain ⟨w', hdb, -, hrun⟩ := hview
  rw [(hm.handing hrows).fetchOpenOrders hdistinct, List.map_map] at hrun
  have hget : getAccount env account.id account.userId { w with db := w.db.handing rows }
      = (.ok account, { w with db := w.db.handing rows }) :=
    getAccount_of haccount (howned.find_account hacc)
  exact ⟨(w.db.handing rows).openOrders account.id, w', (hrows.filter _).filter _, hdb,
    (Act.bind_of_ok hget).trans hrun⟩

/-- Two bids are placed, and the rows are handed out last first. -/
theorem open_orders_sample :
    let turns := Turn.sampleTurns ++ [.serve (Env.quoting 100 "3") (.trade Trade.sampleBid)]
    let w := turns.foldl Turn.apply (World.boot {} ⟨[], [], [], []⟩)
    (w.db.openOrders "a").map (·.exchangeOrderId) = [some "paper-2", some "paper-3"] ∧
      ∃ (shown : List OrderRecord) (w' : World),
        shown.Perm (w.db.openOrders "a") ∧ w'.db = w.db.handing w.db.orders.reverse ∧
        TradingService.listOpenOrders (Env.quoting 100 "4") "u" "a"
            { w with db := w.db.handing w.db.orders.reverse }
          = (.ok (shown.map fun r => r.order.ofPaper), w') := by
  intro turns w
  have hturns : ∀ t ∈ turns, t.Promised fun _ last => 0 ≤ last := by
    intro t ht
    rcases List.mem_append.1 ht with ht | ht
    · exact Turn.sampleTurns_promised (by norm_num) t ht
    · rw [List.mem_singleton.1 ht]
      refine ⟨Env.quoting_promises _ (by norm_num), ?_⟩
      simp [Operation.Admitted, Trade.Admitted, Trade.sampleBid, PlaceOrder.Admitted]
  exact ⟨by decide +kernel, open_orders_view {} turns hturns (by decide) w rfl
    ⟨"a", "u", "kraken", "main", "spot", true, none, none, none⟩ (by decide +kernel)
    (by decide +kernel) (Env.quoting 100 "4") rfl (by decide +kernel) _ (List.reverse_perm _)⟩

/-! ## The portfolio -/

/-- What a balance has, free and in use. -/
def Balance.funds (b : Balance) : ℚ × ℚ := (b.free, b.used)

namespace PortfolioService

/-- The balance a dictionary of totals has for an asset. -/
def shown (totals : Dict String Balance) (asset : String) : Balance :=
  (totals.get? asset).getD ⟨asset, 0, 0⟩

theorem shown_addBalance (totals : Dict String Balance) (b : Balance) (asset : String) :
    (shown (addBalance totals b) asset).funds
      = (shown totals asset).funds + if b.asset = asset then b.funds else 0 := by
  unfold shown addBalance
  rw [Dict.get?_set]
  by_cases h : asset = b.asset
  · rw [if_pos h, if_pos h.symm, h]
    rfl
  · rw [if_neg h, if_neg fun he => h he.symm, add_zero]

/-- Adding balances one after another adds up, asset by asset. -/
theorem shown_foldl (asset : String) (balances : List Balance) (totals : Dict String Balance) :
    (shown (balances.foldl addBalance totals) asset).funds
      = (shown totals asset).funds
        + (balances.map fun b => if b.asset = asset then b.funds else 0).sum := by
  induction balances generalizing totals with
  | nil => simp
  | cons b balances ih =>
    rw [List.foldl_cons, ih, shown_addBalance, List.map_cons, List.sum_cons, add_assoc]

end PortfolioService

/-- Every stored balance is under its asset. -/
theorem ledgerOf_asset {acc : String} {db : Db} {k : String} {b : Balance}
    (h : (ledgerOf acc db).balances.get? k = some b) : b.asset = k := by
  unfold ledgerOf at h
  simp only at h
  split at h
  · rw [Dict.get?_set] at h
    split at h
    · next hk => rw [← Option.some.inj h, hk]
    · exact absurd h (by simp)
  · obtain ⟨r, -, hr⟩ := List.mem_map.1 (Dict.mem_of_get?_ofEntries h)
    obtain ⟨rfl, rfl⟩ := Prod.mk.inj hr
    rfl

/-- What adds nothing may be dropped from a sum. -/
theorem sum_map_filter {α M : Type} [AddCommMonoid M] {p : α → Bool} {g : α → M} (l : List α)
    (h : ∀ a ∈ l, p a = false → g a = 0) : ((l.filter p).map g).sum = (l.map g).sum := by
  induction l with
  | nil => rfl
  | cons a l ih =>
    rw [List.forall_mem_cons] at h
    cases hp : p a with
    | true => rw [List.filter_cons_of_pos hp, List.map_cons, List.map_cons, List.sum_cons,
        List.sum_cons, ih h.2]
    | false => rw [List.filter_cons_of_neg (by simp [hp]), List.map_cons, List.sum_cons, h.1 hp,
        zero_add, ih h.2]

/-- `fetch_balance` shows everything a ledger has, when nothing in it is negative. -/
theorem PaperAdapter.fetchBalance_sum {l : PaperLedger} (asset : String)
    (hasset : ∀ k b, l.balances.get? k = some b → b.asset = k)
    (hfree : ∀ a, 0 ≤ l.free a) (hused : ∀ a, 0 ≤ l.used a) :
    ((PaperAdapter.fetchBalance l).map fun b => if b.asset = asset then b.funds else 0).sum
      = (l.balance asset).funds := by
  have hnonneg : ∀ b ∈ l.balances.values, 0 ≤ b.free ∧ 0 ≤ b.used := by
    intro b hb
    obtain ⟨k, hk⟩ := (l.balances.mem_values_iff b).1 hb
    have hbalance : l.balance k = b := by rw [PaperLedger.balance, hk, Option.getD_some]
    exact ⟨hbalance ▸ hfree k, hbalance ▸ hused k⟩
  have hall : ((PaperAdapter.fetchBalance l).map fun b => if b.asset = asset then b.funds else 0).sum
      = (l.balances.values.map fun b => if b.asset = asset then b.funds else 0).sum := by
    refine sum_map_filter _ fun b hb hempty => ?_
    have htotal : b.free + b.used ≤ 0 := not_lt.1 (of_decide_eq_false hempty)
    have hzero : b.free = 0 ∧ b.used = 0 := by
      constructor <;> linarith only [htotal, (hnonneg b hb).1, (hnonneg b hb).2]
    rw [Balance.funds, hzero.1, hzero.2]
    exact ite_self _
  have hkeys : (l.balances.values.map fun b => if b.asset = asset then b.funds else 0).sum
      = l.balances.sumBy fun k b => if k = asset then b.funds else 0 := by
    rw [Dict.values, List.map_map]
    refine congrArg List.sum (List.map_congr_left fun e he => ?_)
    rw [Function.comp_apply, hasset e.1 e.2 ((l.balances.get?_eq_some_iff e.1 e.2).2 he)]
  rw [hall, hkeys, Dict.sumBy_key, PaperLedger.balance]
  cases l.balances.get? asset <;> rfl

namespace PortfolioService

/-- What a paper account adds to the portfolio of its user. -/
def part (env : Env) (db : Db) (asset : String) (account : ExchangeAccount) : ℚ × ℚ :=
  if env.reads account then ((ledgerOf account.id db).balance asset).funds else 0

/-- The loop: each account that can be read adds its ledger, the others add nothing. -/
theorem aggregateFrom_run (hselects : env.SelectsRead) {settings : Settings} {db : Db}
    (accounts : List ExchangeAccount)
    (hmode : ∀ a ∈ accounts, isPaperEffective settings a = true)
    (hfree : ∀ a ∈ accounts, ∀ asset, 0 ≤ (ledgerOf a.id db).free asset)
    (hused : ∀ a ∈ accounts, ∀ asset, 0 ≤ (ledgerOf a.id db).used asset)
    (totals : Dict String Balance) (w : World) (hsettings : w.settings = settings)
    (hdb : w.db = db) :
    ∃ totals' w', aggregateFrom env totals accounts w = (.ok totals', w') ∧ w'.db = db ∧
      ∀ asset, (shown totals' asset).funds
        = (shown totals asset).funds + (accounts.map (part env db asset)).sum := by
  induction accounts generalizing totals w with
  | nil => exact ⟨totals, w, rfl, hdb, fun asset => by simp⟩
  | cons a accounts ih =>
    rw [List.forall_mem_cons] at hmode hfree hused
    subst hsettings hdb
    obtain ⟨balances, w₁, hread, hsettings₁, hdb₁, hsum⟩ : ∃ balances w₁,
        Act.tryExcept (adapterSession env a false fun adapter => adapter.fetchBalance env)
          (fun _ => return []) w = (.ok balances, w₁) ∧ w₁.settings = w.settings ∧ w₁.db = w.db ∧
        ∀ asset, (balances.map fun b => if b.asset = asset then b.funds else 0).sum
          = part env w.db asset a := by
      cases hreads : env.reads a with
      | true =>
        have hview : ∃ w', w'.db = w.db ∧ w'.settings = w.settings ∧
            adapterSession env a false (fun adapter => adapter.fetchBalance env) w
              = (.ok (PaperAdapter.fetchBalance (ledgerOf a.id w.db)), w') :=
          adapterSession_of_reads (f := PaperAdapter.fetchBalance) hmode.1 hreads fun _ _ _ => rfl
        obtain ⟨w₁, hdb₁, hsettings₁, hrun⟩ := hview
        refine ⟨_, w₁, Act.tryExcept_eq_ok.2 (Or.inl hrun), hsettings₁, hdb₁, fun asset => ?_⟩
        rw [part, if_pos hreads]
        exact PaperAdapter.fetchBalance_sum asset (fun _ _ => ledgerOf_asset) hfree.1 hused.1
      | false =>
        obtain ⟨e, hrun⟩ := adapterSession_of_not_reads hselects hmode.1 hreads
          fun adapter => adapter.fetchBalance env
        refine ⟨[], w, Act.tryExcept_eq_ok.2 (Or.inr ⟨e, w, hrun, rfl⟩), rfl, rfl, fun asset => ?_⟩
        rw [part, if_neg (by simp [hreads])]
        rfl
    obtain ⟨totals', w', hrest, hdb', hshown⟩ := ih hmode.2 hfree.2 hused.2
      (balances.foldl addBalance totals) w₁ hsettings₁ hdb₁
    refine ⟨totals', w', (Act.bind_of_ok hread).trans hrest, hdb', fun asset => ?_⟩
    rw [hshown, shown_foldl, hsum, List.map_cons, List.sum_cons, add_assoc]

end PortfolioService

/-- The accounts of a user that can be read. -/
def Db.readable (db : Db) (env : Env) (userId : String) : List ExchangeAccount :=
  db.accounts.filter fun a => a.userId = userId ∧ env.reads a

/-- After every run, the portfolio of a user whose accounts trade on paper is, asset by asset, the
    sum over the accounts that can be read of the starting balance and what the filled orders have
    moved, and of it is in use what the open orders reserve. An account that cannot be read is left
    out: its secrets cannot be decrypted, its exchange is not known, or a statement raises for it, as
    on PostgreSQL every statement does after one that has raised. Looking writes nothing. -/
theorem portfolio_adds_up (settings : Settings) (turns : List Turn)
    (hturns : ∀ t ∈ turns, t.Promised fun _ last => 0 ≤ last)
    (hids : (turns.flatMap Turn.draws).Nodup) (w : World)
    (hw : turns.foldl Turn.apply (World.boot settings ⟨[], [], [], []⟩) = w) (userId : String)
    (hmode : ∀ a ∈ w.db.accounts, a.userId = userId → isPaperEffective w.settings a = true)
    (env : Env) (hselects : env.SelectsRead) (haccounts : env.fault .selectAccounts = none) :
    ∃ totals w', PortfolioService.aggregateBalances env userId w = (.ok totals, w') ∧
      w'.db = w.db ∧ ∀ asset,
      (PortfolioService.shown totals asset).total
          = ((w.db.readable env userId).map fun a =>
              (if asset = "USDT" then 100000 else 0) + w.db.traded a.id asset).sum ∧
        (PortfolioService.shown totals asset).used
          = ((w.db.readable env userId).map fun a => w.db.reserved a.id asset).sum := by
  have hrecorded : Recorded Balanced _ w.db :=
    hw ▸ Recorded.run balanced_invariant settings turns hturns hids
  have hmem : ∀ a ∈ w.db.accounts.filter (·.userId = userId), isPaperEffective w.settings a = true := by
    intro a ha
    obtain ⟨ha, huser⟩ := List.mem_filter.1 ha
    exact hmode a ha (of_decide_eq_true huser)
  obtain ⟨totals, w', hrun, hdb, hshown⟩ := PortfolioService.aggregateFrom_run hselects _ hmem
    (fun a _ asset => (hrecorded.booked a.id asset).free_nonneg)
    (fun a _ asset => (hrecorded.booked a.id asset).used_nonneg) Dict.empty w rfl rfl
  have hlist : listAccounts env userId w = (.ok (w.db.accounts.filter (·.userId = userId)), w) :=
    (Act.bind_of_ok (execute_run haccounts w)).trans (Act.bind_of_ok (read_run w))
  refine ⟨totals, w', (Act.bind_of_ok hlist).trans hrun, hdb, fun asset => ?_⟩
  have hbooked := fun a : ExchangeAccount => hrecorded.booked a.id asset
  have hsum : (PortfolioService.shown totals asset).funds
      = ((w.db.readable env userId).map fun a => ((ledgerOf a.id w.db).balance asset).funds).sum := by
    have hreadable : w.db.readable env userId
        = (w.db.accounts.filter (·.userId = userId)).filter env.reads := by
      rw [Db.readable, List.filter_filter]
      exact List.filter_congr fun a _ => by simp [Bool.and_comm]
    have hempty : (PortfolioService.shown Dict.empty asset).funds = 0 := rfl
    have hdropped : ∀ a ∈ w.db.accounts.filter (·.userId = userId), env.reads a = false →
        PortfolioService.part env w.db asset a = 0 := fun a _ ha => if_neg (by simp [ha])
    rw [hshown asset, hempty, zero_add, hreadable, ← sum_map_filter _ hdropped]
    refine congrArg List.sum (List.map_congr_left fun a ha => ?_)
    exact if_pos (List.mem_filter.1 ha).2
  constructor
  · have htotal := congrArg (AddMonoidHom.fst ℚ ℚ + AddMonoidHom.snd ℚ ℚ) hsum
    rw [map_list_sum, List.map_map] at htotal
    refine htotal.trans (congrArg List.sum (List.map_congr_left fun a _ => ?_))
    exact (hbooked a).total_eq
  · have hused := congrArg (AddMonoidHom.snd ℚ ℚ) hsum
    rw [map_list_sum, List.map_map] at hused
    refine hused.trans (congrArg List.sum (List.map_congr_left fun a _ => ?_))
    exact (hbooked a).used_eq

/-- The portfolio of the sample run, while another account of the user cannot be read. -/
theorem portfolio_sample :
    let turns := Turn.sampleTurns
      ++ [.serve (Env.quoting 100 "b") (.createPaperAccount "u" "nowhere" "other" "spot")]
    let w := turns.foldl Turn.apply (World.boot {} ⟨[], [], [], []⟩)
    (w.db.accounts.map (·.id), (w.db.readable (Env.quoting 100 "c") "u").map (·.id))
        = (["a", "b"], ["a"]) ∧
      ∃ totals w', PortfolioService.aggregateBalances (Env.quoting 100 "c") "u" w = (.ok totals, w') ∧
        (PortfolioService.shown totals "BTC").total = 1 := by
  intro turns w
  have hturns : ∀ t ∈ turns, t.Promised fun _ last => 0 ≤ last := by
    intro t ht
    rcases List.mem_append.1 ht with ht | ht
    · exact Turn.sampleTurns_promised (by norm_num) t ht
    · rw [List.mem_singleton.1 ht]
      exact ⟨Env.quoting_promises _ (by norm_num), trivial⟩
  obtain ⟨totals, w', hrun, -, hshown⟩ := portfolio_adds_up {} turns hturns (by decide) w rfl "u"
    (fun a ha _ => (by decide +kernel : ∀ a ∈ w.db.accounts, isPaperEffective w.settings a = true) a ha)
    (Env.quoting 100 "c") (fun _ _ _ hf => absurd hf (by simp [Env.quoting, Env.quiet])) rfl
  exact ⟨by decide +kernel, totals, w', hrun, (hshown "BTC").1.trans (by decide +kernel)⟩

end TradingHub
