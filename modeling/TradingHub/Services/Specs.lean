import TradingHub.Exchange.Paper.Proofs
import TradingHub.Services.Operations

set_option autoImplicit false

/-! # What the services do

One lemma for each function of the service layer, so that the results about requests never unfold
a service again: the run of `buildAdapter`, and for a request that returned, what was loaded, what
the adapter did and what the tables hold afterwards. -/

namespace TradingHub

open Library

variable {env : Env} {w w' : World}

theorem Trade.account?_mem {db : Db} {t : Trade} {account : ExchangeAccount}
    (h : t.account? db = some account) : account ∈ db.accounts := by
  cases t with
  | place limits r => exact List.mem_of_find?_eq_some h
  | cancel userId orderId =>
    obtain ⟨record, -, hfind⟩ := Option.bind_eq_some_iff.1 h
    exact List.mem_of_find?_eq_some hfind

/-! ## Building an adapter -/

namespace AccountService

/-- An account that trades on paper gets a market-data adapter without credentials, and its ledger
    becomes the working copy. -/
theorem buildAdapter_paper {account : ExchangeAccount}
    (h : isPaperEffective w.settings account = true) (ledger : Option PaperLedger) :
    buildAdapter env account ledger w =
      match decryptCredentials env account, getInfo account.exchangeId with
      | .error e, _ => (.error e, w)
      | .ok _, none =>
        (.error (.unsupportedExchange "The requested exchange is not supported."
          account.exchangeId), w)
      | .ok _, some info =>
        (.ok (.paper account.id {} ⟨info, none, "spot"⟩),
          { w with client := none
                   ledger := some (ledger.getD (PaperLedger.new "USDT" 100000)) }) := by
  unfold buildAdapter
  cases hc : decryptCredentials env account with
  | error e => exact Act.bind_of_error rfl
  | ok credentials =>
    rw [Act.bind_of_ok (show Act.ofExcept (.ok credentials) w = (.ok credentials, w) from rfl)]
    unfold ExchangeFactory.build
    rw [Act.bind_of_ok (show (Act.read : Service World) w = (.ok w, w) from rfl)]
    have hmode : (account.isPaper || !w.settings.allowLiveTrading) = true := h
    cases hi : getInfo account.exchangeId with
    | none =>
      rw [if_neg (by simp [isSupported, hi])]
      rfl
    | some info =>
      rw [if_pos (by simp [isSupported, hi]), if_pos hmode]
      unfold ExchangeFactory.publicMarketAdapter CcxtAdapter.new
      rw [if_pos (by simp [isSupported, hi]), hi]
      rfl

/-- A live account gets an adapter with its complete credentials, or none at all. -/
theorem buildAdapter_live (env : Env) {account : ExchangeAccount}
    (h : isPaperEffective w.settings account = false) (ledger : Option PaperLedger) :
    (∃ e, buildAdapter env account ledger w = (.error e, w)) ∨
      ∃ info creds, getInfo account.exchangeId = some info ∧
        decryptCredentials env account = .ok (some creds) ∧ creds.isComplete = true ∧
        buildAdapter env account ledger w =
          (.ok (.live ⟨info, some { creds with testnet := w.settings.useExchangeTestnet },
            account.marketType⟩), { w with client := none }) := by
  unfold buildAdapter
  cases hc : decryptCredentials env account with
  | error e => exact Or.inl ⟨e, Act.bind_of_error rfl⟩
  | ok credentials =>
    rw [Act.bind_of_ok (show Act.ofExcept (.ok credentials) w = (.ok credentials, w) from rfl)]
    unfold ExchangeFactory.build
    rw [Act.bind_of_ok (show (Act.read : Service World) w = (.ok w, w) from rfl)]
    have hmode : ¬ (account.isPaper || !w.settings.allowLiveTrading) = true := by
      rw [← isPaperEffective, h]; simp
    cases hi : getInfo account.exchangeId with
    | none =>
      rw [if_neg (by simp [isSupported, hi])]
      exact Or.inl ⟨_, rfl⟩
    | some info =>
      rw [if_pos (by simp [isSupported, hi]), if_neg hmode]
      cases credentials with
      | none => exact Or.inl ⟨_, rfl⟩
      | some creds =>
        simp only
        split
        · next hcomplete =>
          refine Or.inr ⟨info, creds, rfl, rfl, hcomplete, ?_⟩
          unfold CcxtAdapter.new
          rw [hi]
          rfl
        · exact Or.inl ⟨_, rfl⟩

end AccountService

/-! ## Exchange traffic -/

/-- The call of a paper adapter an event records, with its account. -/
def Event.paperCall? : Event → Option (String × PaperCall)
  | .paper accountId op => some (accountId, op)
  | _ => none

/-- The calls of paper adapters on a trace. -/
def paperCalls (log : List Event) : List (String × PaperCall) := log.filterMap Event.paperCall?

/-- `last` is the last price of a ticker read between the traces `log` and `log'`. -/
def TickerRead (env : Env) (symbol : String) (log log' : List Event) (last : ℚ) : Prop :=
  ∃ seen client raw rest, log' = seen ++ .call client (.fetchTicker symbol) true :: rest ∧
    log <+: seen ∧ env.ccxt.reply seen client (.fetchTicker symbol) = .ok raw ∧
    last = dec0 raw.last.get

theorem TickerRead.widen {symbol : String} {log₀ log₁ log₂ log₃ : List Event} {last : ℚ}
    (h : TickerRead env symbol log₁ log₂ last) (h₀ : log₀ <+: log₁) (h₃ : log₂ <+: log₃) :
    TickerRead env symbol log₀ log₃ last := by
  obtain ⟨seen, client, raw, rest, rfl, hseen, hreply, hlast⟩ := h
  obtain ⟨more, rfl⟩ := h₃
  exact ⟨seen, client, raw, rest ++ more, by simp, h₀.trans hseen, hreply, hlast⟩

/-- Apart from the client and the breakers, `w'` differs from `w` by calls on exchange clients. -/
structure Traffic (w w' : World) : Prop where
  settings : w'.settings = w.settings
  db : w'.db = w.db
  ledger : w'.ledger = w.ledger
  log : ∃ new, w'.log = w.log ++ new ∧ paperCalls new = []

namespace Traffic

variable {w₀ w₁ w₂ : World}

theorem refl (w : World) : Traffic w w := ⟨rfl, rfl, rfl, [], by simp, rfl⟩

theorem trans (h₁ : Traffic w₀ w₁) (h₂ : Traffic w₁ w₂) : Traffic w₀ w₂ := by
  obtain ⟨new₁, hlog₁, hnew₁⟩ := h₁.log
  obtain ⟨new₂, hlog₂, hnew₂⟩ := h₂.log
  refine ⟨h₂.settings.trans h₁.settings, h₂.db.trans h₁.db, h₂.ledger.trans h₁.ledger,
    new₁ ++ new₂, ?_, ?_⟩
  · rw [hlog₂, hlog₁, List.append_assoc]
  · rw [paperCalls, List.filterMap_append]
    exact List.append_eq_nil_iff.2 ⟨hnew₁, hnew₂⟩

/-- A change of the client or the breakers. -/
theorem of_eq (hs : w₁.settings = w₀.settings) (hd : w₁.db = w₀.db) (hl : w₁.ledger = w₀.ledger)
    (hlog : w₁.log = w₀.log) : Traffic w₀ w₁ :=
  ⟨hs, hd, hl, [], by simp [hlog], rfl⟩

theorem logged (w : World) {e : Event} (he : e.paperCall? = none) :
    Traffic w { w with log := w.log ++ [e] } :=
  ⟨rfl, rfl, rfl, [e], rfl, by simp [paperCalls, he]⟩

theorem log_prefix (h : Traffic w₀ w₁) : w₀.log <+: w₁.log := by
  obtain ⟨new, hlog, -⟩ := h.log
  exact ⟨new, hlog.symm⟩

end Traffic

namespace CcxtAdapter

variable {c : CcxtAdapter}

theorem configured_exchangeId (c : CcxtAdapter) : c.configured.exchangeId = c.info.id := by
  unfold configured
  split
  · split <;> rfl
  · rfl

theorem invoke_run (env : Env) (client : CcxtClient) (m : Method) (w : World) :
    invoke env client m w =
      match env.ccxt.reply w.log client m with
      | .ok r => (.ok r, { w with log := w.log ++ [.call client m true] })
      | .error e =>
        (.error (.external e.1 e.2), { w with log := w.log ++ [.call client m false] }) := by
  unfold invoke
  rw [Act.bind_of_ok (show (Act.read : Service World) w = (.ok w, w) from rfl)]
  cases env.ccxt.reply w.log client m <;> rfl

theorem invoke_traffic (client : CcxtClient) (m : Method) (w₀ : World) :
    Act.Keeps (Traffic w₀) (invoke env client m) := by
  intro w hw
  rw [invoke_run]
  cases env.ccxt.reply w.log client m with
  | ok r => exact hw.trans (Traffic.logged w rfl)
  | error e => exact hw.trans (Traffic.logged w rfl)

theorem buildClient_traffic (w₀ : World) : Act.Keeps (Traffic w₀) (c.buildClient env) := by
  unfold buildClient
  split
  · refine Act.Keeps.bind (Act.Keeps.modify fun w hw => hw.trans (Traffic.logged w rfl))
      fun _ => ?_
    split
    · exact Act.Keeps.tryExcept (Act.Keeps.bind (invoke_traffic _ _ w₀) fun _ => Act.Keeps.pure _)
        fun _ => Act.Keeps.pure _
    · exact Act.Keeps.pure _
  · exact Act.Keeps.raise _

theorem getClient_traffic (w₀ : World) : Act.Keeps (Traffic w₀) (c.getClient env) := by
  unfold getClient
  refine Act.Keeps.bind Act.Keeps.read fun w => ?_
  split
  · exact Act.Keeps.pure _
  · refine Act.Keeps.bind (buildClient_traffic w₀) fun client => ?_
    exact Act.Keeps.bind (Act.Keeps.modify fun w hw => hw.trans (Traffic.of_eq rfl rfl rfl rfl))
      fun _ => Act.Keeps.pure _

theorem setBreaker_traffic (b : CircuitBreaker) (w : World) : Traffic w (c.setBreaker b w) :=
  Traffic.of_eq rfl rfl rfl rfl

theorem breakerCall_traffic {α : Type} {func : Service α} {w₀ : World}
    (h : Act.Keeps (Traffic w₀) func) : Act.Keeps (Traffic w₀) (c.breakerCall env func) := by
  have hset : ∀ b w, Traffic w₀ w → Traffic w₀ (c.setBreaker b w) :=
    fun b w hw => hw.trans (setBreaker_traffic b w)
  unfold breakerCall
  refine Act.Keeps.bind Act.Keeps.read fun w => ?_
  refine Act.Keeps.bind (Act.Keeps.modify (hset _)) fun _ => ?_
  split
  · refine Act.Keeps.bind (Act.Keeps.tryExcept h fun e => ?_) fun _ => ?_
    · exact Act.Keeps.bind (Act.Keeps.modify fun w => hset _ w) fun _ => Act.Keeps.raise e
    · exact Act.Keeps.bind (Act.Keeps.modify fun w => hset _ w) fun _ => Act.Keeps.pure _
  · exact Act.Keeps.raise _

theorem call_traffic (m : Method) (w₀ : World) : Act.Keeps (Traffic w₀) (c.call env m) := by
  refine Act.Keeps.tryExcept (breakerCall_traffic ?_) fun e => Act.Keeps.raise _
  exact Act.Keeps.bind (getClient_traffic w₀) fun client => invoke_traffic client m w₀

theorem call_ok_traffic {m : Method} {r : m.Reply} (h : c.call env m w = (.ok r, w')) :
    Traffic w w' := by
  have : Traffic w (c.call env m w).2 := (call_traffic m w).final (Traffic.refl w)
  rwa [h] at this

theorem close_traffic (w₀ : World) : Act.Keeps (Traffic w₀) (close env) := by
  unfold close
  refine Act.Keeps.bind Act.Keeps.read fun w => ?_
  split
  · exact Act.Keeps.pure _
  · refine Act.Keeps.bind (invoke_traffic _ _ w₀) fun _ => ?_
    exact Act.Keeps.modify fun w hw => hw.trans (Traffic.of_eq rfl rfl rfl rfl)

/-- A call that returned was answered by the library on the adapter's client. -/
theorem call_ok {m : Method} {r : m.Reply} (h : c.call env m w = (.ok r, w')) :
    ∃ b b' client w₁, c.getClient env (c.setBreaker b w) = (.ok client, w₁) ∧
      env.ccxt.reply w₁.log client m = .ok r ∧
      w' = c.setBreaker b' { w₁ with log := w₁.log ++ [.call client m true] } := by
  unfold call at h
  rcases Act.tryExcept_eq_ok.1 h with h | ⟨_, _, _, h⟩
  · unfold breakerCall at h
    obtain ⟨_, _, hread, h⟩ := Act.bind_eq_ok.1 h
    obtain ⟨rfl, rfl⟩ := Act.read_eq_ok.1 hread
    obtain ⟨_, _, hmod, h⟩ := Act.bind_eq_ok.1 h
    obtain rfl := Act.modify_eq_ok.1 hmod
    split at h
    · obtain ⟨r', w₂, hfunc, h⟩ := Act.bind_eq_ok.1 h
      obtain ⟨_, _, hmod, h⟩ := Act.bind_eq_ok.1 h
      obtain rfl := Act.modify_eq_ok.1 hmod
      obtain ⟨rfl, rfl⟩ := Act.pure_eq_ok.1 h
      rcases Act.tryExcept_eq_ok.1 hfunc with hfunc | ⟨_, _, _, hfail⟩
      · obtain ⟨client, w₁, hclient, hinvoke⟩ := Act.bind_eq_ok.1 hfunc
        rw [invoke_run] at hinvoke
        split at hinvoke
        · next r hr =>
          obtain ⟨hrr, rfl⟩ := Prod.mk.inj hinvoke
          obtain rfl := Except.ok.inj hrr
          exact ⟨_, _, client, w₁, hclient, hr, rfl⟩
        · exact absurd (congrArg Prod.fst hinvoke) (by simp)
      · obtain ⟨_, _, _, hfail⟩ := Act.bind_eq_ok.1 hfail
        exact absurd hfail (by simp)
    · exact absurd h (by simp)
  · exact absurd h (by simp)

/-- A ticker is one that was read. -/
theorem fetchTicker_ok {symbol : String} {ticker : Ticker}
    (h : c.fetchTicker env symbol w = (.ok ticker, w')) :
    Traffic w w' ∧ TickerRead env symbol w.log w'.log ticker.last := by
  obtain ⟨raw, w₁, hcall, hret⟩ := Act.bind_eq_ok.1 h
  obtain ⟨rfl, rfl⟩ := Act.pure_eq_ok.1 hret
  refine ⟨call_ok_traffic hcall, ?_⟩
  obtain ⟨b, _, client, w₂, hclient, hreply, rfl⟩ := call_ok hcall
  have htraffic : Traffic w (c.getClient env (c.setBreaker b w)).2 :=
    (getClient_traffic w).final (setBreaker_traffic b w)
  rw [hclient] at htraffic
  exact ⟨w₂.log, client, raw, [], rfl, htraffic.log_prefix, hreply, rfl⟩

end CcxtAdapter

/-! ## Sessions -/

namespace AccountService

open PaperLedgerRepository

theorem getAccount_ok {accountId userId : String} {account : ExchangeAccount}
    (h : getAccount env accountId userId w = (.ok account, w')) :
    w = w' ∧ w.db.accounts.find? (fun a => a.id = accountId ∧ a.userId = userId) = some account := by
  obtain ⟨_, _, hx, h⟩ := Act.bind_eq_ok.1 h
  obtain ⟨-, rfl⟩ := execute_eq_ok.1 hx
  obtain ⟨_, _, hread, h⟩ := Act.bind_eq_ok.1 h
  obtain ⟨rfl, rfl⟩ := Act.read_eq_ok.1 hread
  cases hfind : w.db.accounts.find? (fun a => a.id = accountId ∧ a.userId = userId) with
  | none =>
    rw [hfind] at h
    exact absurd h (by simp)
  | some a =>
    rw [hfind] at h
    obtain ⟨rfl, rfl⟩ := Act.pure_eq_ok.1 h
    exact ⟨rfl, rfl⟩

theorem loadPaperLedger_ok {account : ExchangeAccount} {ledger : Option PaperLedger}
    (h : loadPaperLedger env account w = (.ok ledger, w')) :
    w = w' ∧ ledger =
      if isPaperEffective w.settings account then some (ledgerOf account.id w.db) else none := by
  obtain ⟨_, _, hread, h⟩ := Act.bind_eq_ok.1 h
  obtain ⟨rfl, rfl⟩ := Act.read_eq_ok.1 hread
  split at h
  · next hmode =>
    obtain ⟨_, _, hload, h⟩ := Act.bind_eq_ok.1 h
    obtain ⟨rfl, rfl⟩ := Act.pure_eq_ok.1 h
    obtain ⟨_, _, hx, hload⟩ := Act.bind_eq_ok.1 hload
    obtain ⟨-, rfl⟩ := execute_eq_ok.1 hx
    obtain ⟨_, _, hx, hload⟩ := Act.bind_eq_ok.1 hload
    obtain ⟨-, rfl⟩ := execute_eq_ok.1 hx
    obtain ⟨_, _, hread, hload⟩ := Act.bind_eq_ok.1 hload
    obtain ⟨rfl, rfl⟩ := Act.read_eq_ok.1 hread
    obtain ⟨rfl, rfl⟩ := Act.pure_eq_ok.1 hload
    exact ⟨rfl, by rw [if_pos hmode]⟩
  · next hmode =>
    obtain ⟨rfl, rfl⟩ := Act.pure_eq_ok.1 h
    exact ⟨rfl, by rw [if_neg hmode]⟩

/-- The tables after the working copy `l` has been saved. -/
def savedDb (accountId : String) (l : PaperLedger) (db : Db) : Db :=
  { db with balances := saveRows accountId l.balances db.balances }

theorem close_ok {a : Adapter} (h : a.close env w = (.ok (), w')) : Traffic w w' := by
  have : Traffic w (CcxtAdapter.close env w).2 :=
    (CcxtAdapter.close_traffic w).final (Traffic.refl w)
  rw [show CcxtAdapter.close env w = (.ok (), w') from h] at this
  exact this

/-- A paper session that ends well saves the working copy. -/
theorem endSession_paper_ok {account : ExchangeAccount} {a : Adapter} {l : PaperLedger}
    (hl : w.ledger = some l) (h : endSession env account true true a w = (.ok (), w')) :
    Traffic { w with db := savedDb account.id l w.db } w' := by
  obtain ⟨w₁, hsave, hclose⟩ := Act.tryFinally_eq_ok.1 h
  obtain ⟨_, _, hread, hsave⟩ := Act.bind_eq_ok.1 hsave
  obtain ⟨rfl, rfl⟩ := Act.read_eq_ok.1 hread
  rw [hl] at hsave
  obtain ⟨_, _, hx, hsave⟩ := Act.bind_eq_ok.1 hsave
  obtain ⟨-, rfl⟩ := execute_eq_ok.1 hx
  obtain ⟨_, _, hmod, hsave⟩ := Act.bind_eq_ok.1 hsave
  obtain rfl := Act.modify_eq_ok.1 hmod
  obtain ⟨-, rfl⟩ := execute_eq_ok.1 hsave
  exact close_ok hclose

/-- A session of an account that trades on paper, from the ledger loaded to the ledger saved. -/
theorem adapterSession_paper_ok {α : Type} {account : ExchangeAccount}
    {body : Adapter → Service α} {r : α} (hmode : isPaperEffective w.settings account = true)
    (h : adapterSession env account true body w = (.ok r, w')) :
    ∃ info w₁, body (.paper account.id {} ⟨info, none, "spot"⟩)
        { w with client := none, ledger := some (ledgerOf account.id w.db) } = (.ok r, w₁) ∧
      ∀ l, w₁.ledger = some l → Traffic { w₁ with db := savedDb account.id l w₁.db } w' := by
  obtain ⟨ledger, _, hload, h⟩ := Act.bind_eq_ok.1 h
  obtain ⟨rfl, hledger⟩ := loadPaperLedger_ok hload
  rw [if_pos hmode] at hledger
  subst hledger
  obtain ⟨a, w₀, hbuild, h⟩ := Act.bind_eq_ok.1 h
  rw [buildAdapter_paper hmode] at hbuild
  split at hbuild
  · exact absurd (congrArg Prod.fst hbuild) (by simp)
  · exact absurd (congrArg Prod.fst hbuild) (by simp)
  · next info _ _ =>
    obtain ⟨ha, rfl⟩ := Prod.mk.inj hbuild
    obtain rfl := Except.ok.inj ha
    obtain ⟨w₁, hbody, hend⟩ := Act.tryFinally_eq_ok.1 h
    exact ⟨info, w₁, hbody, fun l hl => endSession_paper_ok hl hend⟩

/-- A session of a live account: nothing is loaded, nothing is saved. -/
theorem adapterSession_live_ok {α : Type} {account : ExchangeAccount}
    {body : Adapter → Service α} {r : α} (hmode : isPaperEffective w.settings account = false)
    (h : adapterSession env account true body w = (.ok r, w')) :
    ∃ info creds w₁, getInfo account.exchangeId = some info ∧
      body (.live ⟨info, some creds, account.marketType⟩) { w with client := none } = (.ok r, w₁) ∧
      Traffic w₁ w' := by
  obtain ⟨ledger, _, hload, h⟩ := Act.bind_eq_ok.1 h
  obtain ⟨rfl, hledger⟩ := loadPaperLedger_ok hload
  rw [if_neg (by simp [hmode])] at hledger
  subst hledger
  obtain ⟨a, w₀, hbuild, h⟩ := Act.bind_eq_ok.1 h
  obtain ⟨e, hrun⟩ | ⟨info, creds, hinfo, -, -, hrun⟩ := buildAdapter_live env hmode none
  · rw [hrun] at hbuild
    exact absurd (congrArg Prod.fst hbuild) (by simp)
  · rw [hrun] at hbuild
    obtain ⟨ha, rfl⟩ := Prod.mk.inj hbuild
    obtain rfl := Except.ok.inj ha
    obtain ⟨w₁, hbody, hend⟩ := Act.tryFinally_eq_ok.1 h
    obtain ⟨w₂, hskip, hclose⟩ := Act.tryFinally_eq_ok.1 hend
    obtain ⟨_, _, hread, hskip⟩ := Act.bind_eq_ok.1 hskip
    obtain ⟨rfl, rfl⟩ := Act.read_eq_ok.1 hread
    obtain ⟨-, rfl⟩ := Act.pure_eq_ok.1 hskip
    exact ⟨info, _, w₁, hinfo, hbody, close_ok hclose⟩

end AccountService

end TradingHub
