import TradingHub.Services.Specs

set_option autoImplicit false

/-! # Which calls reach an exchange

The trace of a server is confined when every event on it, and the client in use, satisfy a
policy. A policy is kept by the calls of an adapter as soon as it is kept by the one place that
builds a client (`CcxtAdapter.Builds`), so the services are gone through once, for an arbitrary
policy; `TradingHub.Services.Policies` has the two policies of interest. -/

namespace TradingHub

open Library

/-! ## Confined worlds -/

/-- The settings are the given ones, the client in use is a `client`, every event an `event`. -/
structure Confined (event : Event → Prop) (client : CcxtClient → Prop) (settings : Settings)
    (w : World) : Prop where
  settings_eq : w.settings = settings
  client_ok : ∀ c, w.client = some c → client c
  log_ok : ∀ e ∈ w.log, event e

/-- A confined world, whatever client is in use. -/
abbrev Traced (event : Event → Prop) (settings : Settings) : World → Prop :=
  Confined event (fun _ => True) settings

/-- The policy admits the call `m` on every client it admits. -/
def Permits (event : Event → Prop) (client : CcxtClient → Prop) (m : Method) : Prop :=
  ∀ c, client c → ∀ returned, event (.call c m returned)

/-- What an adapter must be for the clients it builds to satisfy the policy. -/
structure CcxtAdapter.Builds (event : Event → Prop) (client : CcxtClient → Prop) (env : Env)
    (c : CcxtAdapter) : Prop where
  built : event (.built c.configured)
  plain : c.wantsSandbox = false → client c.configured
  switching : c.wantsSandbox = true →
    ∀ returned, event (.call c.configured .setSandboxMode returned)
  switched : c.wantsSandbox = true → client { c.configured with sandbox := true }
  refused : c.wantsSandbox = true → ∀ log e,
    env.ccxt.reply log c.configured .setSandboxMode = .error e → client c.configured

/-- What an adapter of either kind must be for its port to keep the policy. -/
structure Adapter.Within (event : Event → Prop) (client : CcxtClient → Prop) (env : Env)
    (a : Adapter) : Prop where
  builds : a.ccxt.Builds event client env
  close : Permits event client .close
  ticker : ∀ symbol, Permits event client (.fetchTicker symbol)
  paper : ∀ accountId call, event (.paper accountId call)
  live : ∀ exchange, a = .live exchange → ∀ m, m ≠ .setSandboxMode → Permits event client m

section Policy

variable {event : Event → Prop} {client : CcxtClient → Prop} {settings : Settings} {env : Env}
  {w w' : World}

namespace Confined

theorem of_unchanged (h : Confined event client settings w) (hs : w'.settings = w.settings)
    (hc : w'.client = w.client) (hl : w'.log = w.log) : Confined event client settings w' :=
  ⟨hs.trans h.settings_eq, fun c => hc ▸ h.client_ok c, fun e => hl ▸ h.log_ok e⟩

theorem traced (h : Confined event client settings w) : Traced event settings w :=
  ⟨h.settings_eq, fun _ _ => trivial, h.log_ok⟩

theorem logged (h : Confined event client settings w) {e : Event} (he : event e) :
    Confined event client settings { w with log := w.log ++ [e] } := by
  refine ⟨h.settings_eq, h.client_ok, fun e' he' => ?_⟩
  rcases List.mem_append.1 he' with hmem | hmem
  · exact h.log_ok e' hmem
  · rw [List.mem_singleton.1 hmem]
    exact he

end Confined

/-! ## The ccxt adapter -/

namespace CcxtAdapter

theorem invoke_confined {c : CcxtClient} {m : Method} (h : ∀ returned, event (.call c m returned)) :
    Act.Keeps (Confined event client settings) (invoke env c m) := by
  unfold invoke
  refine Act.Keeps.bind Act.Keeps.read fun w => ?_
  split
  · exact Act.Keeps.bind (Act.Keeps.modify fun _ hw => hw.logged (h true)) fun _ => Act.Keeps.pure _
  · exact Act.Keeps.bind (Act.Keeps.modify fun _ hw => hw.logged (h false)) fun _ =>
      Act.Keeps.raise _

/-- An invocation that raises was refused by the library. -/
theorem invoke_error {c : CcxtClient} {m : Method} {e : AppError}
    (h : invoke env c m w = (.error e, w')) : ∃ x, env.ccxt.reply w.log c m = .error x := by
  rw [invoke_run] at h
  cases hr : env.ccxt.reply w.log c m with
  | error x => exact ⟨x, rfl⟩
  | ok r =>
    rw [hr] at h
    exact absurd (congrArg Prod.fst h) (by simp)

variable {c : CcxtAdapter}

theorem buildClient_confined (hb : c.Builds event client env) :
    Act.Triple (Confined event client settings) (c.buildClient env)
      (fun cl w => client cl ∧ Confined event client settings w)
      (fun _ => Confined event client settings) := by
  unfold buildClient
  split
  · refine Act.Triple.bind (Act.Keeps.modify fun _ hw => hw.logged hb.built) fun _ => ?_
    split
    · next hs =>
      intro w hw
      have hkeeps : Act.Keeps (Confined event client settings)
          (invoke env c.configured .setSandboxMode) := invoke_confined (hb.switching hs)
      have hinv := hkeeps w hw
      unfold Act.tryExcept
      rcases hr : invoke env c.configured .setSandboxMode w with ⟨e | u, w'⟩
      · rw [Act.bind_of_error hr]
        rw [hr] at hinv
        obtain ⟨x, hx⟩ := invoke_error hr
        exact ⟨hb.refused hs w.log x hx, hinv⟩
      · rw [Act.bind_of_ok hr]
        rw [hr] at hinv
        exact ⟨hb.switched hs, hinv⟩
    · next hs => exact Act.Triple.pure fun _ hw => ⟨hb.plain (by simpa using hs), hw⟩
  · exact Act.Triple.raise fun _ hw => hw

theorem getClient_confined (hb : c.Builds event client env) :
    Act.Triple (Confined event client settings) (c.getClient env)
      (fun cl w => client cl ∧ Confined event client settings w)
      (fun _ => Confined event client settings) := by
  unfold getClient
  refine Act.Triple.read_bind fun w hw => ?_
  split
  · next cl hcl => exact Act.Triple.pure fun _ hw' => ⟨hw.client_ok cl hcl, hw'⟩
  · refine Act.Triple.bind (buildClient_confined hb) fun cl => Act.Triple.of_fact fun hcl => ?_
    refine Act.Triple.bind (Act.Keeps.modify fun w hw =>
      ⟨hw.settings_eq, fun c' hc' => ?_, hw.log_ok⟩) fun _ => Act.Triple.pure fun _ hw => ⟨hcl, hw⟩
    exact (Option.some.inj hc') ▸ hcl

theorem breakerCall_confined {α : Type} {func : Service α}
    (h : Act.Keeps (Confined event client settings) func) :
    Act.Keeps (Confined event client settings) (c.breakerCall env func) := by
  have hset : ∀ b, ∀ w, Confined event client settings w →
      Confined event client settings (c.setBreaker b w) :=
    fun _ _ hw => hw.of_unchanged rfl rfl rfl
  unfold breakerCall
  refine Act.Keeps.bind Act.Keeps.read fun w => ?_
  refine Act.Keeps.bind (Act.Keeps.modify (hset _)) fun _ => ?_
  split
  · refine Act.Keeps.bind (Act.Keeps.tryExcept h fun e => ?_) fun _ => ?_
    · exact Act.Keeps.bind (Act.Keeps.modify fun w => hset _ w) fun _ => Act.Keeps.raise e
    · exact Act.Keeps.bind (Act.Keeps.modify fun w => hset _ w) fun _ => Act.Keeps.pure _
  · exact Act.Keeps.raise _

/-- A call of the adapter stays within the policy if its method is permitted. -/
theorem call_confined (hb : c.Builds event client env) {m : Method}
    (hm : Permits event client m) :
    Act.Keeps (Confined event client settings) (c.call env m) := by
  unfold call
  refine Act.Keeps.tryExcept (breakerCall_confined ?_) fun e => Act.Keeps.raise _
  refine Act.Triple.bind (getClient_confined hb) fun cl => Act.Triple.of_fact fun hcl => ?_
  exact invoke_confined (hm cl hcl)

theorem fetchTicker_confined (hb : c.Builds event client env) {symbol : String}
    (hm : Permits event client (.fetchTicker symbol)) :
    Act.Keeps (Confined event client settings) (c.fetchTicker env symbol) :=
  Act.Keeps.bind (call_confined hb hm) fun _ => Act.Keeps.pure _

theorem close_confined (hm : Permits event client .close) :
    Act.Keeps (Confined event client settings) (close env) := by
  unfold close
  refine Act.Triple.read_bind fun w hw => ?_
  split
  · exact Act.Keeps.pure _
  · next cl hcl =>
    refine Act.Keeps.bind (invoke_confined (hm cl (hw.client_ok cl hcl))) fun _ => ?_
    exact Act.Keeps.modify fun w hw => ⟨hw.settings_eq, fun _ h => absurd h (by simp), hw.log_ok⟩

end CcxtAdapter

/-! ## The port -/

namespace Adapter

variable {a : Adapter}

theorem onLedger_confined {α : Type} (x : Act AppError PaperLedger α) :
    Act.Keeps (Confined event client settings) (onLedger x) := by
  unfold onLedger
  refine Act.Keeps.bind Act.Keeps.read fun w => ?_
  split
  · exact Act.Keeps.raise _
  · next l _ =>
    intro w hw
    have h : Confined event client settings { w with ledger := some (x l).2 } :=
      hw.of_unchanged rfl rfl rfl
    unfold Act.zoom
    rcases (x l).1 with e | r <;> exact h

theorem fetchTicker_confined (ha : a.Within event client env) (symbol : String) :
    Act.Keeps (Confined event client settings) (a.fetchTicker env symbol) :=
  CcxtAdapter.fetchTicker_confined ha.builds (ha.ticker symbol)

/-- A call of the exchange behind a live adapter. -/
theorem live_call_confined {exchange : CcxtAdapter}
    (ha : (live exchange).Within event client env) {m : Method} (hm : m ≠ .setSandboxMode) :
    Act.Keeps (Confined event client settings) (exchange.call env m) :=
  CcxtAdapter.call_confined ha.builds (ha.live exchange rfl m hm)

theorem fetchBalance_confined (ha : a.Within event client env) :
    Act.Keeps (Confined event client settings) (a.fetchBalance env) := by
  cases a with
  | paper accountId engine market => exact onLedger_confined _
  | live exchange =>
    exact Act.Keeps.bind (live_call_confined ha (by simp)) fun _ => Act.Keeps.pure _

theorem fetchPositions_confined (ha : a.Within event client env) :
    Act.Keeps (Confined event client settings) (a.fetchPositions env) := by
  cases a with
  | paper accountId engine market => exact Act.Keeps.pure _
  | live exchange =>
    refine Act.Keeps.bind (live_call_confined ha (by simp)) fun _ => ?_
    exact Act.Keeps.bind (Act.Keeps.ofExcept _) fun _ => Act.Keeps.pure _

theorem fetchOpenOrders_confined (ha : a.Within event client env) :
    Act.Keeps (Confined event client settings) (a.fetchOpenOrders env) := by
  cases a with
  | paper accountId engine market => exact onLedger_confined _
  | live exchange =>
    exact Act.Keeps.bind (live_call_confined ha (by simp)) fun _ => Act.Keeps.ofExcept _

theorem createOrder_confined (ha : a.Within event client env) (request : OrderRequest) :
    Act.Keeps (Confined event client settings) (a.createOrder env request) := by
  cases a with
  | paper accountId engine market =>
    refine Act.Keeps.bind (fetchTicker_confined ha _) fun _ => ?_
    refine Act.Keeps.bind (Act.Keeps.modify fun _ hw => hw.logged (ha.paper _ _)) fun _ => ?_
    exact Act.Keeps.bind (onLedger_confined _) fun _ => Act.Keeps.pure _
  | live exchange =>
    exact Act.Keeps.bind (live_call_confined ha (by simp)) fun _ => Act.Keeps.ofExcept _

theorem cancelOrder_confined (ha : a.Within event client env) (orderId symbol : String) :
    Act.Keeps (Confined event client settings) (a.cancelOrder env orderId symbol) := by
  cases a with
  | paper accountId engine market =>
    refine Act.Keeps.bind (Act.Keeps.modify fun _ hw => hw.logged (ha.paper _ _)) fun _ => ?_
    exact Act.Keeps.bind (onLedger_confined _) fun _ => Act.Keeps.pure _
  | live exchange =>
    exact Act.Keeps.bind (live_call_confined ha (by simp)) fun _ => Act.Keeps.ofExcept _

end Adapter

/-! ## Sessions and services -/

theorem execute_confined (st : Statement) :
    Act.Keeps (Confined event client settings) (execute env st) :=
  execute_triple fun _ _ _ hw => hw.of_unchanged rfl rfl rfl

theorem auditRecord_confined (userId : String) (detail : AuditDetail) :
    Act.Keeps (Confined event client settings) (auditRecord env userId detail) :=
  Act.Keeps.bind (execute_confined _) fun _ =>
    Act.Keeps.modify fun _ hw => hw.of_unchanged rfl rfl rfl

theorem getSession_confined {α : Type} {handler : Service α} {P : World → Prop}
    (h : Act.Triple P handler (fun _ => Confined event client settings)
      (fun _ => Confined event client settings)) :
    Act.Triple P (getSession env handler) (fun _ => Confined event client settings)
      (fun _ => Confined event client settings) := by
  intro w hw
  have hh := h w hw
  unfold getSession
  rcases hr : handler w with ⟨e | r, w'⟩ <;> rw [hr] at hh
  · exact hh.of_unchanged rfl rfl rfl
  · cases env.fault .commit with
    | none => exact hh
    | some f => exact hh.of_unchanged rfl rfl rfl

namespace AccountService

/-- The account a request finds is the one in the tables. -/
theorem getAccount_confined (accountId userId : String) (db : Db) :
    Act.Triple (fun w => Confined event client settings w ∧ w.db = db)
      (getAccount env accountId userId)
      (fun account w =>
        db.accounts.find? (fun a => a.id = accountId ∧ a.userId = userId) = some account ∧
          Confined event client settings w)
      (fun _ => Confined event client settings) := by
  unfold getAccount
  refine Act.Triple.bind (execute_triple fun _ _ _ hw => hw.1.of_unchanged rfl rfl rfl) fun _ => ?_
  refine Act.Triple.read_bind fun w hw => ?_
  split
  · exact Act.Triple.raise fun _ hw' => hw'.1
  · next account hfind =>
    exact Act.Triple.pure fun _ hw' => ⟨hw.2 ▸ hfind, hw'.1⟩

theorem getAccount_keeps (accountId userId : String) :
    Act.Keeps (Confined event client settings) (getAccount env accountId userId) := by
  intro w hw
  exact (getAccount_confined accountId userId w.db).conseq (fun _ h => h) (fun _ _ h => h.2)
    (fun _ _ h => h) w ⟨hw, rfl⟩

theorem listAccounts_confined (userId : String) :
    Act.Keeps (Confined event client settings) (listAccounts env userId) :=
  Act.Keeps.bind (execute_confined _) fun _ =>
    Act.Keeps.bind Act.Keeps.read fun _ => Act.Keeps.pure _

theorem insertAccount_confined (account : ExchangeAccount) :
    Act.Keeps (Confined event client settings) (insertAccount env account) := by
  refine Act.Keeps.bind (execute_confined _) fun _ => Act.Keeps.bind Act.Keeps.read fun _ => ?_
  split
  · exact Act.Keeps.raise _
  · exact Act.Keeps.modify fun _ hw => hw.of_unchanged rfl rfl rfl

theorem createPaperAccount_confined (userId exchangeId label marketType : String) :
    Act.Keeps (Confined event client settings)
      (createPaperAccount env userId exchangeId label marketType) :=
  Act.Keeps.bind (insertAccount_confined _) fun _ =>
    Act.Keeps.bind (auditRecord_confined _ _) fun _ => Act.Keeps.pure _

theorem createLiveAccount_confined
    (userId exchangeId label marketType apiKey apiSecret : String) (passphrase : Option String) :
    Act.Keeps (Confined event client settings)
      (createLiveAccount env userId exchangeId label marketType apiKey apiSecret passphrase) := by
  unfold createLiveAccount
  split
  · exact Act.Keeps.raise _
  · split
    · exact Act.Keeps.raise _
    · exact Act.Keeps.bind (insertAccount_confined _) fun _ =>
        Act.Keeps.bind (auditRecord_confined _ _) fun _ => Act.Keeps.pure _

theorem deleteAccount_confined (accountId userId : String) :
    Act.Keeps (Confined event client settings) (deleteAccount env accountId userId) :=
  Act.Keeps.bind (getAccount_keeps _ _) fun _ =>
    Act.Keeps.bind (execute_confined _) fun _ =>
      Act.Keeps.bind (Act.Keeps.modify fun _ hw => hw.of_unchanged rfl rfl rfl) fun _ =>
        auditRecord_confined _ _

theorem load_confined (accountId : String) :
    Act.Keeps (Confined event client settings) (PaperLedgerRepository.load env accountId) :=
  Act.Keeps.bind (execute_confined _) fun _ =>
    Act.Keeps.bind (execute_confined _) fun _ =>
      Act.Keeps.bind Act.Keeps.read fun _ => Act.Keeps.pure _

theorem loadPaperLedger_confined (account : ExchangeAccount) :
    Act.Keeps (Confined event client settings) (loadPaperLedger env account) := by
  unfold loadPaperLedger
  refine Act.Keeps.bind Act.Keeps.read fun w => ?_
  split
  · exact Act.Keeps.bind (load_confined _) fun _ => Act.Keeps.pure _
  · exact Act.Keeps.pure _

theorem save_confined (accountId : String) (ledger : PaperLedger) :
    Act.Keeps (Confined event client settings) (PaperLedgerRepository.save env accountId ledger) :=
  Act.Keeps.bind (execute_confined _) fun _ =>
    Act.Keeps.bind (Act.Keeps.modify fun _ hw => hw.of_unchanged rfl rfl rfl) fun _ =>
      execute_confined _

theorem endSession_confined {account : ExchangeAccount} {persist loaded : Bool} {a : Adapter}
    (ha : a.Within event client env) :
    Act.Keeps (Confined event client settings) (endSession env account persist loaded a) := by
  refine Act.Keeps.tryFinally (Act.Keeps.bind Act.Keeps.read fun w => ?_)
    (CcxtAdapter.close_confined ha.close)
  split
  · exact save_confined _ _
  · exact Act.Keeps.pure _

theorem buildAdapter_paper_confined {account : ExchangeAccount}
    (h : isPaperEffective settings account = true)
    (hwithin : ∀ info,
      (Adapter.paper account.id {} ⟨info, none, "spot"⟩).Within event client env)
    (ledger : Option PaperLedger) :
    Act.Triple (Traced event settings) (buildAdapter env account ledger)
      (fun a w => a.Within event client env ∧ Confined event client settings w)
      (fun _ => Traced event settings) := by
  intro w hw
  obtain rfl := hw.settings_eq
  rw [buildAdapter_paper h]
  cases decryptCredentials env account with
  | error e => exact hw
  | ok credentials =>
    cases getInfo account.exchangeId with
    | none => exact hw
    | some info =>
      exact ⟨hwithin info, hw.settings_eq, fun _ hc => absurd hc (by simp), hw.log_ok⟩

theorem buildAdapter_live_confined {account : ExchangeAccount}
    (h : isPaperEffective settings account = false)
    (hwithin : ∀ info creds, getInfo account.exchangeId = some info →
      decryptCredentials env account = .ok (some creds) → creds.isComplete = true →
      (Adapter.live ⟨info, some { creds with testnet := settings.useExchangeTestnet },
        account.marketType⟩).Within event client env)
    (ledger : Option PaperLedger) :
    Act.Triple (Traced event settings) (buildAdapter env account ledger)
      (fun a w => a.Within event client env ∧ Confined event client settings w)
      (fun _ => Traced event settings) := by
  intro w hw
  obtain rfl := hw.settings_eq
  obtain ⟨e, hrun⟩ | ⟨info, creds, hinfo, hcreds, hcomplete, hrun⟩ :=
    buildAdapter_live env h ledger
  · rw [hrun]
    exact hw
  · rw [hrun]
    exact ⟨hwithin info creds hinfo hcreds hcomplete, hw.settings_eq,
      fun _ hc => absurd hc (by simp), hw.log_ok⟩

/-- The policy may name the clients of one session: a new adapter starts without a client. -/
theorem adapterSession_confined {α : Type} {account : ExchangeAccount} {persist : Bool}
    {body : Adapter → Service α}
    (hbuild : ∀ ledger, Act.Triple (Traced event settings) (buildAdapter env account ledger)
      (fun a w => a.Within event client env ∧ Confined event client settings w)
      (fun _ => Traced event settings))
    (hbody : ∀ a : Adapter, a.Within event client env →
      Act.Keeps (Confined event client settings) (body a)) :
    Act.Keeps (Traced event settings) (adapterSession env account persist body) := by
  unfold adapterSession
  refine Act.Triple.bind (loadPaperLedger_confined account) fun ledger => ?_
  refine Act.Triple.bind (hbuild ledger) fun a => Act.Triple.of_fact fun ha => ?_
  exact (Act.Keeps.tryFinally (hbody a ha) (endSession_confined ha)).conseq (fun _ hw => hw)
    (fun _ _ hw => hw.traced) (fun _ _ hw => hw.traced)

end AccountService

namespace TradingService

variable {a : Adapter}

theorem quoteEquity_confined (ha : a.Within event client env) (symbol : String) :
    Act.Keeps (Confined event client settings) (quoteEquity env a symbol) :=
  Act.Keeps.bind (Act.Keeps.tryExcept (Adapter.fetchBalance_confined ha) fun _ => Act.Keeps.pure _)
    fun _ => Act.Keeps.pure _

theorem referencePrice_confined (ha : a.Within event client env) (r : PlaceOrder) :
    Act.Keeps (Confined event client settings) (referencePrice env a r) := by
  unfold referencePrice
  split
  · exact Act.Keeps.pure _
  · exact Act.Keeps.bind (Adapter.fetchTicker_confined ha _) fun _ => Act.Keeps.pure _

theorem persist_confined (userId : String) (account : ExchangeAccount)
    (order : Order (Option String)) :
    Act.Keeps (Confined event client settings) (persist env userId account order) := by
  refine Act.Keeps.bind (execute_confined _) fun _ => ?_
  split
  · exact Act.Keeps.raise _
  · refine Act.Keeps.bind Act.Keeps.read fun _ => ?_
    split
    · exact Act.Keeps.raise _
    · exact Act.Keeps.bind (Act.Keeps.modify fun _ hw => hw.of_unchanged rfl rfl rfl) fun _ =>
        Act.Keeps.pure _

theorem placeWith_confined (ha : a.Within event client env) (limits : RiskLimits) (r : PlaceOrder)
    (account : ExchangeAccount) :
    Act.Keeps (Confined event client settings) (placeWith env limits r account a) := by
  unfold placeWith
  refine Act.Keeps.bind (referencePrice_confined ha r) fun _ => ?_
  refine Act.Keeps.bind (quoteEquity_confined ha _) fun _ => ?_
  refine Act.Keeps.bind (Act.Keeps.ofExcept _) fun _ => ?_
  refine Act.Keeps.bind (Adapter.createOrder_confined ha _) fun _ => ?_
  refine Act.Keeps.bind (persist_confined _ _ _) fun _ => ?_
  exact Act.Keeps.bind (auditRecord_confined _ _) fun _ => Act.Keeps.pure _

theorem cancelStatus_confined (ha : a.Within event client env) (record : OrderRecord) :
    Act.Keeps (Confined event client settings) (cancelStatus env record a) := by
  unfold cancelStatus
  split
  · exact Act.Keeps.pure _
  · split
    · exact Act.Keeps.pure _
    · refine Act.Keeps.tryExcept
        (Act.Keeps.bind (Adapter.cancelOrder_confined ha _ _) fun _ => Act.Keeps.pure _) fun e => ?_
      split
      · exact Act.Keeps.pure _
      · exact Act.Keeps.raise _

theorem cancelWith_confined (ha : a.Within event client env) (userId : String)
    (record : OrderRecord) :
    Act.Keeps (Confined event client settings) (cancelWith env userId record a) := by
  unfold cancelWith
  refine Act.Keeps.bind (cancelStatus_confined ha record) fun _ => ?_
  refine Act.Keeps.bind (execute_confined _) fun _ => ?_
  refine Act.Keeps.bind (Act.Keeps.modify fun _ hw => hw.of_unchanged rfl rfl rfl) fun _ => ?_
  exact Act.Keeps.bind (auditRecord_confined _ _) fun _ => Act.Keeps.pure _

theorem getOrder_confined (userId orderId : String) (db : Db) :
    Act.Triple (fun w => Confined event client settings w ∧ w.db = db)
      (getOrder env userId orderId)
      (fun record w =>
        db.orders.find? (fun o => o.id = orderId ∧ o.userId = userId) = some record ∧
          Confined event client settings w ∧ w.db = db)
      (fun _ => Confined event client settings) := by
  unfold getOrder
  refine Act.Triple.bind (execute_triple fun _ _ _ hw => hw.1.of_unchanged rfl rfl rfl) fun _ => ?_
  refine Act.Triple.read_bind fun w hw => ?_
  split
  · exact Act.Triple.raise fun _ hw' => hw'.1
  · next record hfind => exact Act.Triple.pure fun _ hw' => ⟨hw.2 ▸ hfind, hw'⟩

theorem getOrder_keeps (userId orderId : String) :
    Act.Keeps (Confined event client settings) (getOrder env userId orderId) := by
  intro w hw
  exact (getOrder_confined userId orderId w.db).conseq (fun _ h => h) (fun _ _ h => h.2.1)
    (fun _ _ h => h) w ⟨hw, rfl⟩

end TradingService

/-- The factory gives the account an adapter within the policy, for some kind of clients. -/
def Serves (event : Event → Prop) (settings : Settings) (env : Env) (account : ExchangeAccount) :
    Prop :=
  ∃ client : CcxtClient → Prop, ∀ ledger,
    Act.Triple (Traced event settings) (AccountService.buildAdapter env account ledger)
      (fun a w => a.Within event client env ∧ Confined event client settings w)
      (fun _ => Traced event settings)

/-- A trade stays within a policy that its account is served under. -/
theorem Trade.run_confined (t : Trade) (db : Db)
    (h : ∀ account, t.account? db = some account → Serves event settings env account) :
    Act.Triple (fun w => Traced event settings w ∧ w.db = db) (t.run env)
      (fun _ => Traced event settings) (fun _ => Traced event settings) := by
  cases t with
  | place limits r =>
    refine Act.Triple.bind (AccountService.getAccount_confined _ _ db) fun account =>
      Act.Triple.of_fact fun hfind => ?_
    obtain ⟨client, hbuild⟩ := h account hfind
    exact AccountService.adapterSession_confined hbuild fun a ha =>
      TradingService.placeWith_confined ha limits r account
  | cancel userId orderId =>
    refine Act.Triple.bind (TradingService.getOrder_confined _ _ db) fun record =>
      Act.Triple.of_fact fun hrecord => ?_
    split
    · exact Act.Triple.pure fun _ hw => hw.1
    · refine Act.Triple.bind (AccountService.getAccount_confined _ _ db) fun account =>
        Act.Triple.of_fact fun hfind => ?_
      obtain ⟨client, hbuild⟩ := h account (by
        rw [account?, hrecord, Option.bind_some]
        exact hfind)
      exact AccountService.adapterSession_confined hbuild fun a ha =>
        TradingService.cancelWith_confined ha userId record

end Policy

end TradingHub
