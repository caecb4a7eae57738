import TradingHub.Library.Run
import TradingHub.Services.Trace

set_option autoImplicit false

/-! # Two policies over whole runs

* Without live trading, a server only ever reads public market data, through clients without keys.
* With live trading on the testnet, orders go to clients in sandbox mode, provided the exchange has
  a sandbox and the switch to it succeeds. Neither is checked by the code: `buildClient` skips the
  switch for an exchange without a testnet and swallows an exception of the switch, and in both
  cases the client it returns talks to the real exchange. -/

namespace TradingHub

open Library

/-! ## Without live trading -/

/-- The calls that read public market data, and `close`. -/
def Method.isPublic : Method → Bool
  | .fetchTicker _ => true
  | .fetchOrderBook _ _ => true
  | .fetchOhlcv _ _ _ => true
  | .close => true
  | _ => false

/-- A client without keys was built, or a public call was made on one. -/
def Event.Public : Event → Prop
  | .built c => c.credentialed = false
  | .call c m _ => c.credentialed = false ∧ m.isPublic = true
  | .paper _ _ => True

/-- The clients of a server that does not trade live. -/
def Keyless (c : CcxtClient) : Prop := c.credentialed = false

section Public

variable {settings : Settings} {env : Env}

theorem keyless_permits {m : Method} (h : m.isPublic = true) :
    Permits Event.Public Keyless m :=
  fun _ hc _ => ⟨hc, h⟩

/-- An adapter without credentials builds keyless clients. -/
theorem CcxtAdapter.builds_keyless (info : ExchangeInfo) (marketType : String) :
    (CcxtAdapter.mk info none marketType).Builds Event.Public Keyless env where
  built := rfl
  plain _ := rfl
  switching h := absurd h (by simp [wantsSandbox])
  switched h := absurd h (by simp [wantsSandbox])
  refused h := absurd h (by simp [wantsSandbox])

theorem Adapter.paper_within (accountId : String) (engine : PaperAdapter) (info : ExchangeInfo)
    (marketType : String) :
    (Adapter.paper accountId engine ⟨info, none, marketType⟩).Within
      Event.Public Keyless env where
  builds := CcxtAdapter.builds_keyless info marketType
  close := keyless_permits rfl
  ticker _ := keyless_permits rfl
  paper _ _ := trivial
  live _ h := absurd h (by simp)

variable (hpolicy : settings.allowLiveTrading = false)

theorem isPaperEffective_of_policy {settings : Settings} (h : settings.allowLiveTrading = false)
    (account : ExchangeAccount) : AccountService.isPaperEffective settings account = true := by
  simp [AccountService.isPaperEffective, h]

include hpolicy in
theorem buildAdapter_public (account : ExchangeAccount) (ledger : Option PaperLedger) :
    Act.Triple (Traced Event.Public settings)
      (AccountService.buildAdapter env account ledger)
      (fun a w => a.Within Event.Public Keyless env ∧
        Confined Event.Public Keyless settings w)
      (fun _ => Traced Event.Public settings) :=
  AccountService.buildAdapter_paper_confined (isPaperEffective_of_policy hpolicy account)
    (fun info => Adapter.paper_within account.id {} info "spot") ledger

include hpolicy in
/-- A read of an account through its adapter. -/
theorem accountRead_public {α : Type} (accountId userId : String) {body : Adapter → Service α}
    (hbody : ∀ a : Adapter, a.Within Event.Public Keyless env →
      Act.Keeps (Confined Event.Public Keyless settings) (body a)) :
    Act.Keeps (Traced Event.Public settings) (do
      let account ← AccountService.getAccount env accountId userId
      AccountService.adapterSession env account false body) := by
  intro w hw
  refine Act.Triple.bind (AccountService.getAccount_confined accountId userId w.db)
    (fun account => Act.Triple.of_fact fun _ => ?_) w ⟨hw, rfl⟩
  exact AccountService.adapterSession_confined (buildAdapter_public hpolicy account) hbody

include hpolicy in
theorem aggregateFrom_public (totals : Dict String Balance) (accounts : List ExchangeAccount) :
    Act.Keeps (Traced Event.Public settings)
      (PortfolioService.aggregateFrom env totals accounts) := by
  induction accounts generalizing totals with
  | nil => exact Act.Keeps.pure _
  | cons account rest ih =>
    refine Act.Keeps.bind (Act.Keeps.tryExcept ?_ fun _ => Act.Keeps.pure _) fun balances => ih _
    exact AccountService.adapterSession_confined (buildAdapter_public hpolicy account)
      fun a ha => Adapter.fetchBalance_confined ha

/-- Market data is read through a keyless client whatever the policy of the server. -/
theorem withPublicAdapter_public {α : Type} (exchangeId : String) {body : CcxtAdapter → Service α}
    (hbody : ∀ info, Act.Keeps (Confined Event.Public Keyless settings)
      (body ⟨info, none, "spot"⟩)) :
    Act.Keeps (Traced Event.Public settings)
      (MarketService.withPublicAdapter env exchangeId body) := by
  have hnew : Act.Triple (Traced Event.Public settings)
      (ExchangeFactory.publicMarketAdapter exchangeId)
      (fun c w => (∃ info, c = ⟨info, none, "spot"⟩) ∧
        Confined Event.Public Keyless settings w)
      (fun _ => Traced Event.Public settings) := by
    unfold ExchangeFactory.publicMarketAdapter CcxtAdapter.new
    split
    · split
      · exact Act.Triple.raise fun _ hw => hw
      · next info _ =>
        intro w hw
        exact ⟨⟨info, rfl⟩, hw.settings_eq, fun _ hc => absurd hc (by simp), hw.log_ok⟩
    · exact Act.Triple.raise fun _ hw => hw
  refine Act.Triple.bind hnew fun c => Act.Triple.of_fact ?_
  rintro ⟨info, rfl⟩
  exact (Act.Keeps.tryFinally (hbody info)
    (CcxtAdapter.close_confined (keyless_permits rfl))).conseq (fun _ hw => hw)
    (fun _ _ hw => hw.traced) (fun _ _ hw => hw.traced)

theorem candles_public (exchangeId symbol timeframe : String) (limit : ℤ) :
    Act.Keeps (Traced Event.Public settings)
      (MarketService.candles env exchangeId symbol timeframe limit) := by
  unfold MarketService.candles
  split
  · refine withPublicAdapter_public exchangeId fun info => ?_
    exact Act.Keeps.bind (CcxtAdapter.call_confined (CcxtAdapter.builds_keyless info "spot")
      (keyless_permits rfl)) fun _ => Act.Keeps.ofExcept _
  · exact Act.Keeps.raise _

include hpolicy in
/-- Every operation of the services, in every environment, keeps the trace public. -/
theorem Operation.run_public (op : Operation) :
    Act.Keeps (Traced Event.Public settings) (op.run env) := by
  cases op with
  | trade t =>
    refine Act.Keeps.bind (fun w hw => ?_) fun _ => Act.Keeps.pure _
    exact t.run_confined w.db (fun account _ => ⟨Keyless, buildAdapter_public hpolicy account⟩)
      w ⟨hw, rfl⟩
  | getOrder userId orderId =>
    exact Act.Keeps.bind (TradingService.getOrder_keeps _ _) fun _ => Act.Keeps.pure _
  | listOrders userId symbol status page pageSize =>
    refine Act.Keeps.bind (Act.Keeps.bind (execute_confined _) fun _ => ?_) fun _ => Act.Keeps.pure _
    exact Act.Keeps.bind Act.Keeps.read fun _ => Act.Keeps.pure _
  | listOpenOrders userId accountId =>
    exact Act.Keeps.bind (accountRead_public hpolicy accountId userId fun a ha =>
      Adapter.fetchOpenOrders_confined ha) fun _ => Act.Keeps.pure _
  | listPositions userId accountId =>
    exact Act.Keeps.bind (accountRead_public hpolicy accountId userId fun a ha =>
      Adapter.fetchPositions_confined ha) fun _ => Act.Keeps.pure _
  | createPaperAccount userId exchangeId label marketType =>
    exact Act.Keeps.bind (AccountService.createPaperAccount_confined _ _ _ _) fun _ =>
      Act.Keeps.pure _
  | createLiveAccount userId exchangeId label marketType apiKey apiSecret passphrase =>
    exact Act.Keeps.bind (AccountService.createLiveAccount_confined _ _ _ _ _ _ _) fun _ => Act.Keeps.pure _
  | listAccounts userId =>
    exact Act.Keeps.bind (AccountService.listAccounts_confined userId) fun _ => Act.Keeps.pure _
  | getAccount accountId userId =>
    exact Act.Keeps.bind (AccountService.getAccount_keeps _ _) fun _ => Act.Keeps.pure _
  | deleteAccount accountId userId => exact AccountService.deleteAccount_confined _ _
  | aggregateBalances userId =>
    exact Act.Keeps.bind (Act.Keeps.bind (AccountService.listAccounts_confined userId)
      fun accounts => aggregateFrom_public hpolicy _ accounts) fun _ => Act.Keeps.pure _
  | ticker exchangeId symbol =>
    exact Act.Keeps.bind (withPublicAdapter_public exchangeId fun info =>
      CcxtAdapter.fetchTicker_confined (CcxtAdapter.builds_keyless info "spot")
        (keyless_permits rfl)) fun _ => Act.Keeps.pure _
  | orderBook exchangeId symbol limit =>
    refine Act.Keeps.bind (withPublicAdapter_public exchangeId fun info => ?_)
      fun _ => Act.Keeps.pure _
    refine Act.Keeps.bind (CcxtAdapter.call_confined (CcxtAdapter.builds_keyless info "spot")
      (keyless_permits rfl)) fun _ => ?_
    exact Act.Keeps.bind (Act.Keeps.ofExcept _) fun _ =>
      Act.Keeps.bind (Act.Keeps.ofExcept _) fun _ => Act.Keeps.pure _
  | candles exchangeId symbol timeframe limit =>
    exact Act.Keeps.bind (candles_public _ _ _ _) fun _ => Act.Keeps.pure _
  | indicator compute exchangeId symbol name timeframe period limit =>
    refine Act.Keeps.bind ?_ fun _ => Act.Keeps.pure _
    unfold MarketService.indicator
    simp only
    split
    · exact Act.Keeps.bind (candles_public _ _ _ _) fun _ => Act.Keeps.ofExcept _
    · exact Act.Keeps.raise _

end Public

/-- With `allow_live_trading` off, over every run of requests on any database, only public market
    data is read, and only through clients built without any key. -/
theorem paper_policy_confines_trace (settings : Settings)
    (hpolicy : settings.allowLiveTrading = false) (db : Db) (requests : List (Env × Operation)) :
    let log := (requests.foldl serve (World.boot settings db)).log
    (∀ c m returned, .call c m returned ∈ log → m.isPublic = true) ∧
      (∀ c, .built c ∈ log → c.apiKey = none ∧ c.secret = none ∧ c.password = none) ∧
      ∀ c m returned, .call c m returned ∈ log →
        c.apiKey = none ∧ c.secret = none ∧ c.password = none := by
  have hkeys : ∀ c : CcxtClient, c.credentialed = false →
      c.apiKey = none ∧ c.secret = none ∧ c.password = none := by
    intro c hc
    simpa [CcxtClient.credentialed, and_assoc] using hc
  have hrun : Traced Event.Public settings (requests.foldl serve (World.boot settings db)) := by
    refine run_keeps (fun w request hw => ?_) requests _
      ⟨rfl, fun _ _ => trivial, fun _ he => absurd he (by simp [World.boot])⟩
    exact (getSession_confined (Operation.run_public hpolicy request.2)).final hw
  refine ⟨fun c m returned h => (hrun.log_ok _ h).2, fun c h => hkeys c (hrun.log_ok _ h),
    fun c m returned h => hkeys c (hrun.log_ok _ h).1⟩

/-- A market order on an account with stored keys, while the policy keeps the server on paper. -/
theorem paper_policy_confines_sample :
    let requests : List (Env × Operation) :=
      [(Env.quiet 100 "1", .trade Trade.sampleBuy), (Env.quiet 100 "2", .aggregateBalances "u")]
    let log := (requests.foldl serve (World.boot {} (Db.oneLiveAccount "kraken"))).log
    log ≠ [] ∧
      (∀ c m returned, .call c m returned ∈ log → m.isPublic = true) ∧
      (∀ c, .built c ∈ log → c.apiKey = none ∧ c.secret = none ∧ c.password = none) ∧
      ∀ c m returned, .call c m returned ∈ log →
        c.apiKey = none ∧ c.secret = none ∧ c.password = none :=
  ⟨by decide +kernel, paper_policy_confines_trace {} rfl (Db.oneLiveAccount "kraken") _⟩

/-! ## Live trading on the testnet -/

def Method.isTrade : Method → Bool
  | .createOrder _ => true
  | .cancelOrder _ _ => true
  | _ => false

/-- A call that is neither made with credentials nor a trade, or one on a client in sandbox mode;
    the switch to sandbox mode itself is no request to the exchange. -/
def Event.onTestnet : Event → Bool
  | .call c m _ => c.sandbox || (!c.credentialed && !m.isTrade) || m = .setSandboxMode
  | _ => true

/-- A trade sent to an exchange. -/
def Event.isTrade : Event → Bool
  | .call _ m _ => m.isTrade
  | _ => false

/-- If the account can trade live at all, its exchange has a testnet and switching to it succeeds. -/
def TestnetReady (env : Env) (account : ExchangeAccount) : Prop :=
  account.isPaper = false → ∀ creds info,
    AccountService.decryptCredentials env account = .ok (some creds) → creds.isComplete = true →
    getInfo account.exchangeId = some info →
      info.hasTestnet = true ∧ ∀ log c, c.exchangeId = info.id →
        ∃ u, env.ccxt.reply log c .setSandboxMode = .ok u

section Testnet

variable {settings : Settings} {env : Env}

theorem sandbox_permits (m : Method) :
    Permits (fun e => e.onTestnet = true) (fun c => c.sandbox = true) m := by
  intro c hc returned
  simp [Event.onTestnet, hc]

theorem keyless_permits_testnet {m : Method} (h : m.isTrade = false) :
    Permits (fun e => e.onTestnet = true) Keyless m := by
  intro c hc returned
  simp [Event.onTestnet, show c.credentialed = false from hc, h]

/-- An adapter with testnet credentials builds sandboxed clients only, if the switch succeeds. -/
theorem CcxtAdapter.builds_sandboxed {c : CcxtAdapter} (hwants : c.wantsSandbox = true)
    (hswitch : ∀ log, ∃ u, env.ccxt.reply log c.configured .setSandboxMode = .ok u) :
    c.Builds (fun e => e.onTestnet = true) (fun c => c.sandbox = true) env where
  built := rfl
  plain h := absurd hwants (by simp [h])
  switching _ returned := by simp [Event.onTestnet]
  switched _ := rfl
  refused _ log e he := by
    obtain ⟨u, hu⟩ := hswitch log
    rw [hu] at he
    exact absurd he (by simp)

/-- Under the testnet setting every ready account is served within the policy. -/
theorem serves_testnet (htestnet : settings.useExchangeTestnet = true) {account : ExchangeAccount}
    (hready : TestnetReady env account) :
    Serves (fun e => e.onTestnet = true) settings env account := by
  cases hmode : AccountService.isPaperEffective settings account with
  | true =>
    refine ⟨Keyless, AccountService.buildAdapter_paper_confined hmode fun info => ?_⟩
    exact
      { builds := ⟨rfl, fun _ => rfl, fun h => absurd h (by simp [Adapter.ccxt, CcxtAdapter.wantsSandbox]),
          fun h => absurd h (by simp [Adapter.ccxt, CcxtAdapter.wantsSandbox]),
          fun h => absurd h (by simp [Adapter.ccxt, CcxtAdapter.wantsSandbox])⟩
        close := keyless_permits_testnet rfl
        ticker := fun _ => keyless_permits_testnet rfl
        paper := fun _ _ => rfl
        live := fun _ h => absurd h (by simp) }
  | false =>
    have hlive : account.isPaper = false := by
      simp only [AccountService.isPaperEffective, Bool.or_eq_false_iff] at hmode
      exact hmode.1
    refine ⟨fun c => c.sandbox = true, AccountService.buildAdapter_live_confined hmode
      fun info creds hinfo hcreds hcomplete => ?_⟩
    obtain ⟨hnet, hswitch⟩ := hready hlive creds info hcreds hcomplete hinfo
    exact
      { builds := CcxtAdapter.builds_sandboxed
          (by simp [Adapter.ccxt, CcxtAdapter.wantsSandbox, htestnet, hnet])
          fun log => hswitch log _ (CcxtAdapter.configured_exchangeId _)
        close := sandbox_permits _
        ticker := fun _ => sandbox_permits _
        paper := fun _ _ => rfl
        live := fun _ _ m _ => sandbox_permits m }

end Testnet

/-- With `use_exchange_testnet` on, over every run of trades on ready accounts, no credentialed
    call and no trade reaches a client outside sandbox mode. -/
theorem testnet_confines_trades (settings : Settings)
    (htestnet : settings.useExchangeTestnet = true) (db : Db) (requests : List (Env × Trade))
    (hready : Guarded serveTrade
      (fun w request => ∀ account, request.2.account? w.db = some account →
        TestnetReady request.1 account)
      (World.boot settings db) requests) :
    ∀ e ∈ (requests.foldl serveTrade (World.boot settings db)).log, e.onTestnet = true := by
  have hrun : Traced (fun e => e.onTestnet = true) settings
      (requests.foldl serveTrade (World.boot settings db)) := by
    refine run_invariant (fun w request hw hg => ?_) requests _
      ⟨rfl, fun _ _ => trivial, fun _ he => absurd he (by simp [World.boot])⟩ hready
    exact (getSession_confined (request.2.run_confined w.db fun account h =>
      serves_testnet htestnet (hg account h))).final ⟨hw, rfl⟩
  exact hrun.log_ok

theorem testnet_confines_sample :
    (∀ account, Trade.sampleBuy.account? (Db.oneLiveAccount "binance") = some account →
      TestnetReady (Env.quiet 100 "1") account) ∧
    ∀ e ∈ ([(Env.quiet 100 "1", Trade.sampleBuy)].foldl serveTrade
      (World.boot ⟨true, true⟩ (Db.oneLiveAccount "binance"))).log, e.onTestnet = true := by
  have hready : ∀ account, Trade.sampleBuy.account? (Db.oneLiveAccount "binance") = some account →
      TestnetReady (Env.quiet 100 "1") account := by
    intro account h
    have hacc : account = ⟨"a", "u", "binance", "main", "spot", false, some "key", some "secret",
        none⟩ := Option.some.inj (h.symm.trans (by decide))
    subst hacc
    intro _ creds info _ _ hinfo
    obtain rfl : { id := "binance", name := "Binance" } = info :=
      Option.some.inj ((show getInfo "binance" = _ by decide).symm.trans hinfo)
    exact ⟨rfl, fun _ _ _ => ⟨(), rfl⟩⟩
  exact ⟨hready, testnet_confines_trades ⟨true, true⟩ rfl (Db.oneLiveAccount "binance")
    [(Env.quiet 100 "1", Trade.sampleBuy)] ⟨hready, trivial⟩⟩

/-- The quiet environment, except that the switch to sandbox mode raises. -/
def Env.switchRaises (last : ℚ) (n : String) : Env :=
  { Env.quiet last n with
    ccxt := { installed := true
              reply := fun log c m => match m with
                | .setSandboxMode => .error ("NotSupported", "no sandbox")
                | m => (CcxtLibrary.quoting last).reply log c m } }

/-- With live trading and the testnet both on, the order is sent to the real exchange: on an
    exchange without a testnet, and on one with a testnet when the switch raises. -/
theorem testnet_order_reaches_mainnet :
    (¬ ∀ e ∈ (serveTrade (World.boot ⟨true, true⟩ (Db.oneLiveAccount "kraken"))
        (Env.quiet 100 "1", Trade.sampleBuy)).log, e.isTrade = true → e.onTestnet = true) ∧
    ¬ ∀ e ∈ (serveTrade (World.boot ⟨true, true⟩ (Db.oneLiveAccount "binance"))
        (Env.switchRaises 100 "1", Trade.sampleBuy)).log, e.isTrade = true → e.onTestnet = true := by
  constructor <;> decide +kernel

end TradingHub
