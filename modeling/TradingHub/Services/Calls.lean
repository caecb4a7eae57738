import TradingHub.Services.ClientUse

set_option autoImplicit false

/-! # What the calls keep, the services keep

A property of the circuits and the trace is kept by every operation of every service as soon as it
is kept by the three things that touch them: a call through the circuit of an exchange, the closing
of a client, and a call of the paper engine (`KeptByCalls`). Everything else the services do is on
the tables, the ledger and the client in use, and the client in use is always one for the exchange
of the adapter (`CcxtAdapter.Holds`). -/

namespace TradingHub

open Library AccountService

/-- The methods that ask the exchange something. -/
def Method.isRequest : Method → Bool
  | .setSandboxMode => false
  | .close => false
  | _ => true

/-- The client in use, if there is one, is for the exchange of the adapter. -/
def CcxtAdapter.Holds (c : CcxtAdapter) (w : World) : Prop :=
  ∀ client, w.client = some client → client.exchangeId = c.info.id

/-- What a property of the circuits and the trace has to be to be kept by the services. -/
structure KeptByCalls (env : Env) (P : World → Prop) : Prop where
  plain : ∀ w w' : World, w'.breakers = w.breakers → w'.log = w.log → P w → P w'
  paper : ∀ w accountId call, P w → P { w with log := w.log ++ [.paper accountId call] }
  close : ∀ w client returned, P w → P { w with log := w.log ++ [.call client .close returned] }
  call : ∀ (c : CcxtAdapter) (m : Method), m.isRequest = true →
    Act.Triple (fun w => P w ∧ c.Holds w) (c.call env m) (fun _ => P) (fun _ => P)

variable {env : Env} {P : World → Prop} {α : Type}

/-! ## The client in use -/

namespace CcxtAdapter

variable {c : CcxtAdapter}

theorem Holds.of_unchanged {w w' : World} (h : c.Holds w) (hclient : w'.client = w.client) :
    c.Holds w' :=
  fun client hc => h client (hclient.symm.trans hc)

/-- A call changes nothing but the trace. -/
theorem invoke_holds (client : CcxtClient) (m : Method) : Act.Keeps c.Holds (invoke env client m) :=
  invoke_triple (fun _ h => h.of_unchanged rfl) fun _ h => h.of_unchanged rfl

theorem buildClient_holds :
    Act.Triple c.Holds (c.buildClient env)
      (fun client w => client.exchangeId = c.info.id ∧ c.Holds w) (fun _ => c.Holds) := by
  unfold buildClient
  split
  · refine Act.Triple.bind (Q := fun _ => c.Holds)
      (Act.Triple.modify fun _ h => h.of_unchanged rfl) fun _ => ?_
    split
    · refine Act.Triple.tryExcept (F := fun _ => c.Holds) ?_ fun _ =>
        Act.Triple.pure fun _ h => ⟨c.configured_exchangeId, h⟩
      exact Act.Triple.bind (invoke_holds _ _) fun _ =>
        Act.Triple.pure fun _ h => ⟨c.configured_exchangeId, h⟩
    · exact Act.Triple.pure fun _ h => ⟨c.configured_exchangeId, h⟩
  · exact Act.Triple.raise fun _ h => h

theorem getClient_holds :
    Act.Triple c.Holds (c.getClient env)
      (fun client w => client.exchangeId = c.info.id ∧ c.Holds w) (fun _ => c.Holds) := by
  unfold getClient
  refine Act.Triple.read_bind fun w hw => ?_
  split
  · next client hclient => exact Act.Triple.pure fun _ h => ⟨hw client hclient, h⟩
  · refine Act.Triple.bind buildClient_holds fun client => Act.Triple.of_fact fun hid => ?_
    refine Act.Triple.bind (Q := fun _ => c.Holds) (Act.Triple.modify fun _ _ cl hcl => ?_)
      fun _ => Act.Triple.pure fun _ h => ⟨hid, h⟩
    rw [← Option.some.inj hcl]
    exact hid

theorem call_holds (m : Method) : Act.Keeps c.Holds (c.call env m) := by
  have hset : ∀ b w, c.Holds w → c.Holds (c.setBreaker b w) := fun _ _ h => h.of_unchanged rfl
  unfold call breakerCall
  refine Act.Keeps.tryExcept ?_ fun e => Act.Keeps.raise _
  refine Act.Keeps.bind Act.Keeps.read fun w => ?_
  refine Act.Keeps.bind (Act.Keeps.modify (hset _)) fun _ => ?_
  split
  · refine Act.Keeps.bind (Act.Keeps.tryExcept ?_ fun e => ?_) fun _ => ?_
    · exact Act.Triple.bind getClient_holds fun client => Act.Triple.of_fact fun _ =>
        invoke_holds client m
    · exact Act.Keeps.bind (Act.Keeps.modify fun w => hset _ w) fun _ => Act.Keeps.raise e
    · exact Act.Keeps.bind (Act.Keeps.modify fun w => hset _ w) fun _ => Act.Keeps.pure _
  · exact Act.Keeps.raise _

/-- The property, with a client in use that is for the adapter's exchange. -/
def Serving (P : World → Prop) (c : CcxtAdapter) (w : World) : Prop := P w ∧ c.Holds w

end CcxtAdapter

namespace KeptByCalls

variable {c : CcxtAdapter}

theorem silent {x : Service α} (h : KeptByCalls env P) (hx : Silent x) : Act.Keeps P x := by
  intro w hw
  obtain ⟨-, hlog, hbreakers⟩ := hx w
  rcases hrun : x w with ⟨e | a, w'⟩ <;> rw [hrun] at hlog hbreakers
  · exact h.plain w w' hbreakers hlog hw
  · exact h.plain w w' hbreakers hlog hw

theorem silent_serving {x : Service α} (h : KeptByCalls env P) (hx : Silent x) :
    Act.Keeps (c.Serving P) x := by
  intro w hw
  have hkept := h.silent hx w hw.1
  obtain ⟨hclient, -⟩ := hx w
  rcases hrun : x w with ⟨e | a, w'⟩ <;> rw [hrun] at hclient hkept
  · exact ⟨hkept, hw.2.of_unchanged hclient⟩
  · exact ⟨hkept, hw.2.of_unchanged hclient⟩

theorem serving_call {m : Method} (h : KeptByCalls env P) (hm : m.isRequest = true) :
    Act.Keeps (c.Serving P) (c.call env m) := by
  intro w hw
  have hkept := h.call c m hm w hw
  have hcall : Act.Keeps c.Holds (c.call env m) := CcxtAdapter.call_holds m
  have hholds := hcall w hw.2
  rcases hrun : c.call env m w with ⟨e | r, w'⟩ <;> rw [hrun] at hkept hholds
  · exact ⟨hkept, hholds⟩
  · exact ⟨hkept, hholds⟩

/-- However the call of `close` ends, the property is kept. -/
theorem closing (h : KeptByCalls env P) : Act.Keeps P (CcxtAdapter.close env) := by
  unfold CcxtAdapter.close
  refine Act.Keeps.bind Act.Keeps.read fun w => ?_
  split
  · exact Act.Keeps.pure _
  · refine Act.Triple.bind (Q := fun _ => P) (CcxtAdapter.invoke_triple
      (fun w hw => h.close w _ _ hw) fun w hw => h.close w _ _ hw) fun _ => ?_
    exact Act.Keeps.modify fun w hw => h.plain w _ rfl rfl hw

/-- A new adapter holds no client. -/
theorem new (h : KeptByCalls env P) (exchangeId : String)
    (credentials : Option ExchangeCredentials) (marketType : String) :
    Act.Triple P (CcxtAdapter.new exchangeId credentials marketType) (fun c => c.Serving P)
      (fun _ => P) := by
  unfold CcxtAdapter.new
  split
  · exact Act.Triple.raise fun _ hw => hw
  · next info _ =>
    refine Act.Triple.bind (Q := fun _ w => P w ∧ w.client = none)
      (Act.Triple.modify fun w hw => ⟨h.plain w _ rfl rfl hw, rfl⟩) fun _ => ?_
    exact Act.Triple.pure fun w hw => ⟨hw.1, fun client hc => absurd (hw.2.symm.trans hc) (by simp)⟩

theorem publicMarketAdapter (h : KeptByCalls env P) (exchangeId : String) :
    Act.Triple P (ExchangeFactory.publicMarketAdapter exchangeId) (fun c => c.Serving P)
      (fun _ => P) := by
  unfold ExchangeFactory.publicMarketAdapter
  split
  · exact h.new _ _ _
  · exact Act.Triple.raise fun _ hw => hw

end KeptByCalls

/-! ## The port -/

/-- The property, with a client in use that is for the exchange behind the adapter. -/
abbrev Adapter.Serving (P : World → Prop) (a : Adapter) : World → Prop := a.ccxt.Serving P

namespace KeptByCalls

variable {a : Adapter}

theorem fetchTicker (h : KeptByCalls env P) (symbol : String) :
    Act.Keeps (a.Serving P) (a.fetchTicker env symbol) :=
  Act.Keeps.bind (h.serving_call rfl) fun _ => Act.Keeps.pure _

theorem fetchBalance (h : KeptByCalls env P) : Act.Keeps (a.Serving P) (a.fetchBalance env) := by
  cases a with
  | paper accountId engine market => exact h.silent_serving (onLedger_silent _)
  | live exchange => exact Act.Keeps.bind (h.serving_call rfl) fun _ => Act.Keeps.pure _

theorem fetchPositions (h : KeptByCalls env P) :
    Act.Keeps (a.Serving P) (a.fetchPositions env) := by
  cases a with
  | paper accountId engine market => exact Act.Keeps.pure _
  | live exchange =>
    refine Act.Keeps.bind (h.serving_call rfl) fun _ => ?_
    exact Act.Keeps.bind (Act.Keeps.ofExcept _) fun _ => Act.Keeps.pure _

theorem fetchOpenOrders (h : KeptByCalls env P) :
    Act.Keeps (a.Serving P) (a.fetchOpenOrders env) := by
  cases a with
  | paper accountId engine market => exact h.silent_serving (onLedger_silent _)
  | live exchange => exact Act.Keeps.bind (h.serving_call rfl) fun _ => Act.Keeps.ofExcept _

theorem logPaper (h : KeptByCalls env P) (accountId : String) (call : PaperCall) :
    Act.Keeps (a.Serving P) (logPaper accountId call) :=
  Act.Keeps.modify fun w hw => ⟨h.paper w _ _ hw.1, hw.2.of_unchanged rfl⟩

theorem createOrder (h : KeptByCalls env P) (request : OrderRequest) :
    Act.Keeps (a.Serving P) (a.createOrder env request) := by
  cases a with
  | paper accountId engine market =>
    refine Act.Keeps.bind (h.fetchTicker (a := .paper accountId engine market) _) fun _ => ?_
    refine Act.Keeps.bind (h.logPaper (a := .paper accountId engine market) _ _) fun _ => ?_
    exact Act.Keeps.bind (h.silent_serving (onLedger_silent _)) fun _ => Act.Keeps.pure _
  | live exchange => exact Act.Keeps.bind (h.serving_call rfl) fun _ => Act.Keeps.ofExcept _

theorem cancelOrder (h : KeptByCalls env P) (orderId symbol : String) :
    Act.Keeps (a.Serving P) (a.cancelOrder env orderId symbol) := by
  cases a with
  | paper accountId engine market =>
    refine Act.Keeps.bind (h.logPaper (a := .paper accountId engine market) _ _) fun _ => ?_
    exact Act.Keeps.bind (h.silent_serving (onLedger_silent _)) fun _ => Act.Keeps.pure _
  | live exchange => exact Act.Keeps.bind (h.serving_call rfl) fun _ => Act.Keeps.ofExcept _

end KeptByCalls

/-! ## Sessions -/

namespace KeptByCalls

theorem buildAdapter (h : KeptByCalls env P) (account : ExchangeAccount)
    (ledger : Option PaperLedger) :
    Act.Triple P (buildAdapter env account ledger) (fun a => a.Serving P) (fun _ => P) := by
  refine Act.Triple.bind (h.silent (Silent.ofExcept _)) fun creds => ?_
  refine Act.Triple.read_bind fun w _ => ?_
  split
  · split
    · refine Act.Triple.bind (h.publicMarketAdapter _) fun market => ?_
      exact Act.Triple.bind (Q := fun _ => market.Serving P)
        (Act.Triple.modify fun w hw => ⟨h.plain w _ rfl rfl hw.1, hw.2.of_unchanged rfl⟩)
        fun _ => Act.Triple.pure fun _ hw => hw
    · split
      · exact Act.Triple.raise fun _ hw => hw
      · split
        · exact Act.Triple.bind (h.new _ _ _) fun _ => Act.Triple.pure fun _ hw => hw
        · exact Act.Triple.raise fun _ hw => hw
  · exact Act.Triple.raise fun _ hw => hw

theorem endSession (h : KeptByCalls env P) (account : ExchangeAccount) (persist loaded : Bool)
    (a : Adapter) : Act.Keeps P (endSession env account persist loaded a) := by
  refine Act.Keeps.tryFinally (Act.Keeps.bind Act.Keeps.read fun w => ?_) h.closing
  split
  · exact h.silent (save_silent _ _)
  · exact Act.Keeps.pure _

theorem adapterSession (h : KeptByCalls env P) {account : ExchangeAccount} {persist : Bool}
    {body : Adapter → Service α} (hbody : ∀ a, Act.Keeps (a.Serving P) (body a)) :
    Act.Keeps P (adapterSession env account persist body) := by
  refine Act.Keeps.bind (h.silent (loadPaperLedger_silent account)) fun ledger => ?_
  refine Act.Triple.bind (h.buildAdapter account ledger) fun a => ?_
  have hend := h.endSession account persist ledger.isSome a
  have hafter : Act.Triple (a.Serving P) (AccountService.endSession env account persist
      ledger.isSome a) (fun _ => P) (fun _ => P) :=
    hend.conseq (fun _ hw => hw.1) (fun _ _ hw => hw) fun _ _ hw => hw
  exact Act.Triple.tryFinally (hbody a) (fun _ => hafter) fun _ => hafter

/-! ## Services -/

theorem referencePrice (h : KeptByCalls env P) (a : Adapter) (r : PlaceOrder) :
    Act.Keeps (a.Serving P) (TradingService.referencePrice env a r) := by
  unfold TradingService.referencePrice
  split
  · exact Act.Keeps.pure _
  · exact Act.Keeps.bind (h.fetchTicker _) fun _ => Act.Keeps.pure _

theorem quoteEquity (h : KeptByCalls env P) (a : Adapter) (symbol : String) :
    Act.Keeps (a.Serving P) (TradingService.quoteEquity env a symbol) :=
  Act.Keeps.bind (Act.Keeps.tryExcept h.fetchBalance fun _ => Act.Keeps.pure _)
    fun _ => Act.Keeps.pure _

theorem placeWith (h : KeptByCalls env P) (limits : RiskLimits) (r : PlaceOrder)
    (account : ExchangeAccount) (a : Adapter) :
    Act.Keeps (a.Serving P) (TradingService.placeWith env limits r account a) := by
  refine Act.Keeps.bind (h.referencePrice a r) fun refPrice => ?_
  refine Act.Keeps.bind (h.quoteEquity a r.symbol) fun equity => ?_
  refine Act.Keeps.bind (Act.Keeps.ofExcept _) fun _ => ?_
  refine Act.Keeps.bind (h.createOrder _) fun order => ?_
  refine Act.Keeps.bind (h.silent_serving (TradingService.persist_silent _ _ _)) fun record => ?_
  exact Act.Keeps.bind (h.silent_serving (auditRecord_silent _ _)) fun _ => Act.Keeps.pure _

theorem cancelWith (h : KeptByCalls env P) (userId : String) (record : OrderRecord)
    (a : Adapter) : Act.Keeps (a.Serving P) (TradingService.cancelWith env userId record a) := by
  have hstatus : Act.Keeps (a.Serving P) (TradingService.cancelStatus env record a) := by
    unfold TradingService.cancelStatus
    split
    · exact Act.Keeps.pure _
    · split
      · exact Act.Keeps.pure _
      · refine Act.Keeps.tryExcept (Act.Keeps.bind (h.cancelOrder _ _) fun _ =>
          Act.Keeps.pure _) fun e => ?_
        split
        · exact Act.Keeps.pure _
        · exact Act.Keeps.raise _
  refine Act.Keeps.bind hstatus fun status => ?_
  refine Act.Keeps.bind (h.silent_serving (execute_silent _)) fun _ => ?_
  refine Act.Keeps.bind (h.silent_serving (Silent.setDb _)) fun _ => ?_
  exact Act.Keeps.bind (h.silent_serving (auditRecord_silent _ _)) fun _ => Act.Keeps.pure _

theorem trade (h : KeptByCalls env P) (t : Trade) : Act.Keeps P (t.run env) := by
  cases t with
  | place limits r =>
    exact Act.Keeps.bind (h.silent (getAccount_silent _ _)) fun account =>
      h.adapterSession (h.placeWith limits r account)
  | cancel userId orderId =>
    refine Act.Keeps.bind (h.silent (TradingService.getOrder_silent _ _)) fun record => ?_
    split
    · exact Act.Keeps.pure _
    · exact Act.Keeps.bind (h.silent (getAccount_silent _ _)) fun account =>
        h.adapterSession (h.cancelWith userId record)

theorem accountRead (h : KeptByCalls env P) {accountId userId : String}
    {body : Adapter → Service α} (hbody : ∀ a, Act.Keeps (a.Serving P) (body a)) :
    Act.Keeps P (do
      let account ← AccountService.getAccount env accountId userId
      AccountService.adapterSession env account false body) :=
  Act.Keeps.bind (h.silent (getAccount_silent _ _)) fun _ => h.adapterSession hbody

theorem aggregateFrom (h : KeptByCalls env P) (totals : Dict String Balance)
    (accounts : List ExchangeAccount) :
    Act.Keeps P (PortfolioService.aggregateFrom env totals accounts) := by
  induction accounts generalizing totals with
  | nil => exact Act.Keeps.pure _
  | cons account rest ih =>
    refine Act.Keeps.bind (Act.Keeps.tryExcept ?_ fun _ => Act.Keeps.pure _) fun _ => ih _
    exact h.adapterSession fun a => h.fetchBalance

theorem withPublicAdapter (h : KeptByCalls env P) (exchangeId : String)
    {body : CcxtAdapter → Service α} (hbody : ∀ c, Act.Keeps (CcxtAdapter.Serving P c) (body c)) :
    Act.Keeps P (MarketService.withPublicAdapter env exchangeId body) := by
  have hafter : ∀ c : CcxtAdapter, Act.Triple (c.Serving P) (CcxtAdapter.close env) (fun _ => P)
      (fun _ => P) :=
    fun c => h.closing.conseq (fun _ hw => hw.1) (fun _ _ hw => hw) fun _ _ hw => hw
  exact Act.Triple.bind (h.publicMarketAdapter _) fun c =>
    Act.Triple.tryFinally (hbody c) (fun _ => hafter c) fun _ => hafter c

theorem candles (h : KeptByCalls env P) (exchangeId symbol timeframe : String) (limit : ℤ) :
    Act.Keeps P (MarketService.candles env exchangeId symbol timeframe limit) := by
  unfold MarketService.candles
  split
  · exact h.withPublicAdapter exchangeId fun c =>
      Act.Keeps.bind (h.serving_call rfl) fun _ => Act.Keeps.ofExcept _
  · exact Act.Keeps.raise _

/-- What the calls keep, every operation keeps. -/
theorem operation (h : KeptByCalls env P) (op : Operation) : Act.Keeps P (op.run env) := by
  have hdrop : ∀ {β : Type} {x : Service β}, Act.Keeps P x →
      Act.Keeps P (do let _ ← x; pure () : Service Unit) :=
    fun hx => Act.Keeps.bind hx fun _ => Act.Keeps.pure _
  cases op with
  | trade t => exact hdrop (h.trade t)
  | getOrder userId orderId => exact hdrop (h.silent (TradingService.getOrder_silent _ _))
  | listOrders userId symbol status page pageSize =>
    exact hdrop (h.silent ((execute_silent _).bind fun _ => Silent.read.bind fun _ =>
      Silent.pure _))
  | listOpenOrders userId accountId => exact hdrop (h.accountRead fun a => h.fetchOpenOrders)
  | listPositions userId accountId => exact hdrop (h.accountRead fun a => h.fetchPositions)
  | createPaperAccount userId exchangeId label marketType =>
    exact hdrop (h.silent ((insertAccount_silent _).bind fun _ =>
      (auditRecord_silent _ _).bind fun _ => Silent.pure _))
  | createLiveAccount userId exchangeId label marketType apiKey apiSecret passphrase =>
    refine hdrop (h.silent ?_)
    unfold AccountService.createLiveAccount
    split
    · exact Silent.raise _
    · split
      · exact Silent.raise _
      · exact (insertAccount_silent _).bind fun _ =>
          (auditRecord_silent _ _).bind fun _ => Silent.pure _
  | listAccounts userId => exact hdrop (h.silent (listAccounts_silent _))
  | getAccount accountId userId => exact hdrop (h.silent (getAccount_silent _ _))
  | deleteAccount accountId userId =>
    exact h.silent ((getAccount_silent _ _).bind fun _ => (execute_silent _).bind fun _ =>
      (Silent.setDb _).bind fun _ => auditRecord_silent _ _)
  | aggregateBalances userId =>
    exact hdrop (Act.Keeps.bind (h.silent (listAccounts_silent _)) fun _ => h.aggregateFrom _ _)
  | ticker exchangeId symbol =>
    exact hdrop (h.withPublicAdapter exchangeId fun c =>
      Act.Keeps.bind (h.serving_call rfl) fun _ => Act.Keeps.pure _)
  | orderBook exchangeId symbol limit =>
    refine hdrop (h.withPublicAdapter exchangeId fun c => ?_)
    refine Act.Keeps.bind (h.serving_call rfl) fun _ => ?_
    exact Act.Keeps.bind (Act.Keeps.ofExcept _) fun _ =>
      Act.Keeps.bind (Act.Keeps.ofExcept _) fun _ => Act.Keeps.pure _
  | candles exchangeId symbol timeframe limit => exact hdrop (h.candles _ _ _ _)
  | indicator compute exchangeId symbol name timeframe period limit =>
    refine hdrop ?_
    unfold MarketService.indicator
    simp only
    split
    · exact Act.Keeps.bind (h.candles _ _ _ _) fun _ => Act.Keeps.ofExcept _
    · exact Act.Keeps.raise _

/-- And so does the request around it. -/
theorem serve (h : KeptByCalls env P) (op : Operation) {w : World} (hw : P w) :
    P (TradingHub.serve w (env, op)) := by
  have hrun := (h.operation op).final hw
  unfold TradingHub.serve getSession
  rcases hr : op.run env w with ⟨e | u, w'⟩ <;> rw [hr] at hrun
  · exact h.plain w' _ rfl rfl hrun
  · cases env.fault .commit with
    | none => exact hrun
    | some f => exact h.plain w' _ rfl rfl hrun

end KeptByCalls

end TradingHub
