import TradingHub.Services.Books

set_option autoImplicit false

/-! # How a request uses its exchange clients

A monitor for the calls of one request: a client is built, asked for sandbox mode at most once and
first, called, and closed, before another one is built; and nothing is called that is not in use.
`adapter_session` promises that the client is always closed on exit, also when the body or the
clean-up raises, and no request sends an exchange or the paper engine more than one order or
cancellation (`clients_closed`). -/

namespace TradingHub

open Library AccountService

/-! ## The monitor -/

/-- The orders and cancellations a call sends. -/
def Method.sends : Method → ℕ
  | createOrder _ => 1
  | cancelOrder _ _ => 1
  | _ => 0

/-- Where a request stands: the client in use, whether it has been called, and how many orders and
    cancellations were sent. -/
structure Wire where
  client : Option CcxtClient
  called : Bool
  sent : ℕ
deriving DecidableEq, Repr

/-- Nothing is in use. -/
def Wire.idle : Wire := ⟨none, false, 0⟩

/-- The event is in order, and leads to the next state. -/
def Wire.next (s : Wire) : Event → Option Wire
  | .built client => if s.client = none then some ⟨some client, false, s.sent⟩ else none
  | .call client .setSandboxMode returned =>
    if s.client = some client ∧ s.called = false then
      some ⟨some (if returned then { client with sandbox := true } else client), true, s.sent⟩
    else none
  | .call client .close _ => if s.client = some client then some ⟨none, false, s.sent⟩ else none
  | .call client m _ =>
    if s.client = some client then some ⟨some client, true, s.sent + m.sends⟩ else none
  | .paper _ _ => some { s with sent := s.sent + 1 }

/-- A trace of one request that ends with nothing in use and has sent at most `n` orders. -/
def Orderly (n : ℕ) (trace : List Event) : Prop :=
  ∃ s, trace.foldlM Wire.next .idle = some s ∧ s.client = none ∧ s.sent ≤ n

/-! ## Worlds in the middle of a request -/

/-- Since the log was `start` the trace has been in order, and has led to `s`. -/
def Wire.Since (start : List Event) (s : Wire) (w : World) : Prop :=
  ∃ trace, w.log = start ++ trace ∧ trace.foldlM Wire.next .idle = some s

/-- The adapter's client is the one in use, and at most `n` orders were sent. -/
def Using (start : List Event) (n : ℕ) (w : World) : Prop :=
  ∃ s : Wire, s.Since start w ∧ s.client = w.client ∧ s.sent ≤ n

/-- No client is in use. -/
def Idle (start : List Event) (n : ℕ) (w : World) : Prop :=
  ∃ s : Wire, s.Since start w ∧ s.client = none ∧ s.sent ≤ n

variable {start : List Event} {n m : ℕ} {env : Env} {w w' : World} {α : Type}

theorem Wire.Since.logged {s s' : Wire} (h : s.Since start w) {e : Event}
    (he : s.next e = some s') : s'.Since start { w with log := w.log ++ [e] } := by
  obtain ⟨trace, hlog, hfold⟩ := h
  refine ⟨trace ++ [e], by simp [hlog], ?_⟩
  rw [List.foldlM_append, hfold]
  simp [he]

namespace Using

theorem of_unchanged (h : Using start n w) (hclient : w'.client = w.client)
    (hlog : w'.log = w.log) : Using start n w' := by
  obtain ⟨s, ⟨trace, htrace, hfold⟩, hs, hn⟩ := h
  exact ⟨s, ⟨trace, hlog.trans htrace, hfold⟩, hs.trans hclient.symm, hn⟩

theorem mono (h : Using start n w) (hle : n ≤ m) : Using start m w := by
  obtain ⟨s, hs, hclient, hn⟩ := h
  exact ⟨s, hs, hclient, hn.trans hle⟩

end Using

namespace Idle

theorem of_log (w : World) : Idle w.log 0 w :=
  ⟨.idle, ⟨[], by simp, rfl⟩, rfl, le_refl _⟩

theorem of_unchanged (h : Idle start n w) (hlog : w'.log = w.log) : Idle start n w' := by
  obtain ⟨s, ⟨trace, htrace, hfold⟩, hs, hn⟩ := h
  exact ⟨s, ⟨trace, hlog.trans htrace, hfold⟩, hs, hn⟩

theorem mono (h : Idle start n w) (hle : n ≤ m) : Idle start m w := by
  obtain ⟨s, hs, hclient, hn⟩ := h
  exact ⟨s, hs, hclient, hn.trans hle⟩

/-- A new adapter has no client yet. -/
theorem withoutClient (h : Idle start n w) : Using start n { w with client := none } := by
  obtain ⟨s, ⟨trace, htrace, hfold⟩, hs, hn⟩ := h
  exact ⟨s, ⟨trace, htrace, hfold⟩, hs, hn⟩

end Idle

/-! ## The ccxt adapter -/

namespace CcxtAdapter

variable {c : CcxtAdapter} {client : CcxtClient}

/-- What an invocation leaves: the event is on the log, and nothing else changed. -/
theorem invoke_triple {m : Method} {P Q E : World → Prop}
    (hok : ∀ w, P w → Q { w with log := w.log ++ [.call client m true] })
    (herror : ∀ w, P w → E { w with log := w.log ++ [.call client m false] }) :
    Act.Triple P (invoke env client m) (fun _ => Q) (fun _ => E) := by
  intro w hw
  rw [invoke_run]
  cases env.ccxt.reply w.log client m with
  | ok r => exact hok w hw
  | error e => exact herror w hw

/-- A client is in use, though the adapter may not hold it yet. -/
def InUse (start : List Event) (n : ℕ) (client : CcxtClient) (w : World) : Prop :=
  ∃ s : Wire, s.Since start w ∧ s.client = some client ∧ s.sent ≤ n

/-- A client that has not been called yet is in use. -/
def Fresh (start : List Event) (n : ℕ) (client : CcxtClient) (w : World) : Prop :=
  ∃ s : Wire, s.Since start w ∧ s.client = some client ∧ s.called = false ∧ s.sent ≤ n

/-- The client is built and, where that is wanted, put in sandbox mode before anything else. -/
theorem buildClient_use (hnone : w.client = none) (h : Using start n w) :
    Act.Triple (· = w) (c.buildClient env) (InUse start n) (fun _ => Using start n) := by
  unfold buildClient
  split
  · have hbuilt : Fresh start n c.configured { w with log := w.log ++ [.built c.configured] } := by
      obtain ⟨s, hs, hclient, hn⟩ := h
      exact ⟨⟨some c.configured, false, s.sent⟩, hs.logged (if_pos (hclient.trans hnone)), rfl, rfl,
        hn⟩
    have hswitch : ∀ returned v, Fresh start n c.configured v →
        InUse start n (if returned then { c.configured with sandbox := true } else c.configured)
          { v with log := v.log ++ [.call c.configured .setSandboxMode returned] } := by
      rintro returned v ⟨s, hs, hclient, hcalled, hn⟩
      exact ⟨⟨some _, true, s.sent⟩, hs.logged (if_pos ⟨hclient, hcalled⟩), rfl, hn⟩
    refine Act.Triple.bind (Q := fun _ => Fresh start n c.configured)
      (Act.Triple.modify fun v hv => hv ▸ hbuilt) fun _ => ?_
    split
    · refine Act.Triple.tryExcept (F := fun _ => InUse start n c.configured) ?_ fun _ =>
        Act.Triple.pure fun _ hv => hv
      exact Act.Triple.bind (invoke_triple (hswitch true) (hswitch false)) fun _ =>
        Act.Triple.pure fun _ hv => hv
    · refine Act.Triple.pure fun v hv => ?_
      obtain ⟨s, hs, hclient, -, hn⟩ := hv
      exact ⟨s, hs, hclient, hn⟩
  · exact Act.Triple.raise fun v hv => hv ▸ h

/-- The client that `getClient` returns is held and in use. -/
def Held (start : List Event) (n : ℕ) (client : CcxtClient) (w : World) : Prop :=
  InUse start n client w ∧ w.client = some client

theorem Held.using (h : Held start n client w) : Using start n w := by
  obtain ⟨⟨s, hs, hclient, hn⟩, hheld⟩ := h
  exact ⟨s, hs, hclient.trans hheld.symm, hn⟩

theorem InUse.held (h : InUse start n client w) :
    Held start n client { w with client := some client } := by
  obtain ⟨s, ⟨trace, htrace, hfold⟩, hclient, hn⟩ := h
  exact ⟨⟨s, ⟨trace, htrace, hfold⟩, hclient, hn⟩, rfl⟩

theorem getClient_use : Act.Triple (Using start n) (c.getClient env) (Held start n)
    (fun _ => Using start n) := by
  unfold getClient
  refine Act.Triple.read_bind_eq fun w hw => ?_
  split
  · next client hclient =>
    refine Act.Triple.pure fun v hv => ?_
    obtain ⟨s, hs, hsame, hn⟩ := hw
    rw [hv]
    exact ⟨⟨s, hs, hsame.trans hclient, hn⟩, hclient⟩
  · next hnone =>
    refine Act.Triple.bind (buildClient_use hnone hw) fun client => ?_
    refine Act.Triple.bind (Q := fun _ => Held start n client)
      (Act.Triple.modify fun _ hv => hv.held) fun _ => ?_
    exact Act.Triple.pure fun _ hv => hv

theorem invoke_use {m : Method} (hsandbox : m ≠ .setSandboxMode) (hclose : m ≠ .close) :
    Act.Triple (Held start n client) (invoke env client m) (fun _ => Using start (n + m.sends))
      (fun _ => Using start (n + m.sends)) := by
  have hnext : ∀ (s : Wire) (returned : Bool), s.client = some client →
      s.next (.call client m returned) = some ⟨some client, true, s.sent + m.sends⟩ := by
    intro s returned hclient
    cases m with
    | setSandboxMode => exact absurd rfl hsandbox
    | close => exact absurd rfl hclose
    | _ => exact if_pos hclient
  have hlogged : ∀ returned v, Held start n client v →
      Using start (n + m.sends) { v with log := v.log ++ [.call client m returned] } := by
    rintro returned v ⟨⟨s, hs, hclient, hn⟩, hheld⟩
    exact ⟨_, hs.logged (hnext s returned hclient), hheld.symm, Nat.add_le_add_right hn _⟩
  exact invoke_triple (hlogged true) (hlogged false)

/-- A call of the adapter sends what its method sends, once. -/
theorem call_use {m : Method} (hsandbox : m ≠ .setSandboxMode) (hclose : m ≠ .close) :
    Act.Triple (Using start n) (c.call env m) (fun _ => Using start (n + m.sends))
      (fun _ => Using start (n + m.sends)) := by
  have hset : ∀ {k : ℕ} (b : CircuitBreaker) (v : World), Using start k v →
      Using start k (c.setBreaker b v) :=
    fun _ _ hv => hv.of_unchanged rfl rfl
  have hfunc : Act.Triple (Using start n)
      (do let client ← c.getClient env
          invoke env client m : Service m.Reply)
      (fun _ => Using start (n + m.sends)) (fun _ => Using start (n + m.sends)) :=
    Act.Triple.bind (getClient_use.conseq (fun _ h => h) (fun _ _ h => h)
      fun _ _ h => h.mono (Nat.le_add_right _ _)) fun _ => invoke_use hsandbox hclose
  unfold call
  refine Act.Triple.tryExcept (F := fun _ => Using start (n + m.sends)) ?_ fun _ =>
    Act.Triple.raise fun _ hv => hv
  unfold breakerCall
  refine Act.Triple.read_bind fun w _ => ?_
  refine Act.Triple.bind (Q := fun _ => Using start n) (Act.Triple.modify (hset _)) fun _ => ?_
  split
  · refine Act.Triple.bind (Act.Triple.tryExcept hfunc fun e => ?_) fun _ => ?_
    · exact Act.Triple.bind (Act.Triple.modify fun v => hset _ v) fun _ =>
        Act.Triple.raise fun _ hv => hv
    · exact Act.Triple.bind (Act.Triple.modify fun v => hset _ v) fun _ =>
        Act.Triple.pure fun _ hv => hv
  · exact Act.Triple.raise fun _ hv => hv.mono (Nat.le_add_right _ _)

/-- The client is closed, whether `close` returns or raises. -/
theorem close_use : Act.Triple (Using start n) (close env) (fun _ => Idle start n)
    (fun _ => Idle start n) := by
  unfold close
  refine Act.Triple.read_bind_eq fun w hw => ?_
  split
  · next hnone =>
    refine Act.Triple.pure fun v hv => ?_
    obtain ⟨s, hs, hclient, hn⟩ := hw
    rw [hv]
    exact ⟨s, hs, hclient.trans hnone, hn⟩
  · next client hclient =>
    have hclosed : ∀ returned v, v = w →
        Idle start n { v with log := v.log ++ [.call client .close returned] } := by
      rintro returned v rfl
      obtain ⟨s, hs, hsame, hn⟩ := hw
      exact ⟨_, hs.logged (if_pos (hsame.trans hclient)), rfl, hn⟩
    refine Act.Triple.bind (invoke_triple (hclosed true) (hclosed false)) fun _ => ?_
    exact Act.Triple.modify fun _ hv => hv.of_unchanged rfl

end CcxtAdapter

/-! ## The port -/

/-- An action that makes no calls and leaves the client and the circuits in place. -/
def Silent (x : Service α) : Prop :=
  ∀ w, (x w).2.client = w.client ∧ (x w).2.log = w.log ∧ (x w).2.breakers = w.breakers

theorem Silent.use {x : Service α} (h : Silent x) : Act.Keeps (Using start n) x := by
  intro w hw
  have hsame := h w
  rcases hx : x w with ⟨e | a, w'⟩ <;> rw [hx] at hsame <;> exact hw.of_unchanged hsame.1 hsame.2.1

theorem Silent.idle {x : Service α} (h : Silent x) : Act.Keeps (Idle start n) x := by
  intro w hw
  have hsame := h w
  rcases hx : x w with ⟨e | a, w'⟩ <;> rw [hx] at hsame <;> exact hw.of_unchanged hsame.2.1

theorem onLedger_silent (x : Act AppError PaperLedger α) : Silent (onLedger x) := by
  intro w
  cases hl : w.ledger with
  | none =>
    have hrun : onLedger x w = (.error (.external "AttributeError" "ledger"), w) := by
      unfold onLedger
      rw [Act.bind_of_ok (show (Act.read : Service World) w = (.ok w, w) from rfl), hl]
      rfl
    rw [hrun]
    exact ⟨rfl, rfl, rfl⟩
  | some l =>
    have hrun : onLedger x w = ((x l).1, { w with ledger := some (x l).2 }) := by
      unfold onLedger
      rw [Act.bind_of_ok (show (Act.read : Service World) w = (.ok w, w) from rfl), hl]
      rfl
    rw [hrun]
    exact ⟨rfl, rfl, rfl⟩

theorem execute_silent (st : Statement) : Silent (execute env st) := by
  intro w
  unfold execute
  cases env.fault st with
  | none => exact ⟨rfl, rfl, rfl⟩
  | some f => exact ⟨rfl, rfl, rfl⟩

theorem Silent.bind {β : Type} {x : Service α} {f : α → Service β} (hx : Silent x)
    (hf : ∀ a, Silent (f a)) : Silent (x >>= f) := by
  intro w
  have hxw := hx w
  rcases hrun : x w with ⟨e | a, v⟩ <;> rw [hrun] at hxw
  · rw [Act.bind_of_error hrun]
    exact hxw
  · rw [Act.bind_of_ok hrun]
    exact ⟨(hf a v).1.trans hxw.1, (hf a v).2.1.trans hxw.2.1, (hf a v).2.2.trans hxw.2.2⟩

theorem Silent.pure (a : α) : Silent (pure a : Service α) := fun _ => ⟨rfl, rfl, rfl⟩

theorem Silent.raise (e : AppError) : Silent (Act.raise e : Service α) := fun _ => ⟨rfl, rfl, rfl⟩

theorem Silent.read : Silent (Act.read : Service World) := fun _ => ⟨rfl, rfl, rfl⟩

theorem Silent.ofExcept (r : Except AppError α) : Silent (Act.ofExcept r : Service α) :=
  fun _ => ⟨rfl, rfl, rfl⟩

theorem Silent.setDb (f : World → Db) : Silent (Act.modify fun w => { w with db := f w }) :=
  fun _ => ⟨rfl, rfl, rfl⟩

theorem auditRecord_silent (userId : String) (detail : AuditDetail) :
    Silent (auditRecord env userId detail) :=
  (execute_silent _).bind fun _ => Silent.setDb _

namespace Adapter

variable {a : Adapter}

/-- A reading call of the port. -/
theorem read_use {m : Method} (c : CcxtAdapter) (hsandbox : m ≠ .setSandboxMode)
    (hclose : m ≠ .close) (hsends : m.sends = 0) : Act.Keeps (Using start n) (c.call env m) := by
  have h : Act.Triple (Using start n) (c.call env m) (fun _ => Using start (n + m.sends))
      (fun _ => Using start (n + m.sends)) := CcxtAdapter.call_use hsandbox hclose
  rwa [hsends] at h

theorem fetchTicker_use (symbol : String) : Act.Keeps (Using start n) (a.fetchTicker env symbol) :=
  Act.Keeps.bind (read_use _ (by simp) (by simp) rfl) fun _ => Act.Keeps.pure _

theorem fetchBalance_use : Act.Keeps (Using start n) (a.fetchBalance env) := by
  cases a with
  | paper accountId engine market => exact (onLedger_silent _).use
  | live exchange =>
    exact Act.Keeps.bind (read_use _ (by simp) (by simp) rfl) fun _ => Act.Keeps.pure _

theorem fetchPositions_use : Act.Keeps (Using start n) (a.fetchPositions env) := by
  cases a with
  | paper accountId engine market => exact Act.Keeps.pure _
  | live exchange =>
    refine Act.Keeps.bind (read_use _ (by simp) (by simp) rfl) fun _ => ?_
    exact Act.Keeps.bind (Act.Keeps.ofExcept _) fun _ => Act.Keeps.pure _

theorem fetchOpenOrders_use : Act.Keeps (Using start n) (a.fetchOpenOrders env) := by
  cases a with
  | paper accountId engine market => exact (onLedger_silent _).use
  | live exchange =>
    exact Act.Keeps.bind (read_use _ (by simp) (by simp) rfl) fun _ => Act.Keeps.ofExcept _

theorem logPaper_use (accountId : String) (call : PaperCall) :
    Act.Triple (Using start n) (logPaper accountId call) (fun _ => Using start (n + 1))
      (fun _ => Using start (n + 1)) := by
  refine Act.Triple.modify fun w hw => ?_
  obtain ⟨s, hs, hclient, hn⟩ := hw
  exact ⟨_, hs.logged rfl, hclient, Nat.add_le_add_right hn 1⟩

/-- An order reaches the exchange, or the paper engine, once. -/
theorem createOrder_use (request : OrderRequest) :
    Act.Triple (Using start n) (a.createOrder env request) (fun _ => Using start (n + 1))
      (fun _ => Using start (n + 1)) := by
  cases a with
  | paper accountId engine market =>
    refine Act.Triple.bind ((fetchTicker_use (a := .paper accountId engine market) _).conseq
      (fun _ h => h) (fun _ _ h => h) fun _ _ h => h.mono (Nat.le_add_right n 1)) fun _ => ?_
    refine Act.Triple.bind (logPaper_use _ _) fun _ => ?_
    exact Act.Triple.bind (onLedger_silent _).use fun _ => Act.Triple.pure fun _ h => h
  | live exchange =>
    exact Act.Triple.bind (CcxtAdapter.call_use (by simp) (by simp)) fun _ =>
      (Silent.ofExcept _).use

theorem cancelOrder_use (orderId symbol : String) :
    Act.Triple (Using start n) (a.cancelOrder env orderId symbol) (fun _ => Using start (n + 1))
      (fun _ => Using start (n + 1)) := by
  cases a with
  | paper accountId engine market =>
    refine Act.Triple.bind (logPaper_use _ _) fun _ => ?_
    exact Act.Triple.bind (onLedger_silent _).use fun _ => Act.Triple.pure fun _ h => h
  | live exchange =>
    exact Act.Triple.bind (CcxtAdapter.call_use (by simp) (by simp)) fun _ =>
      (Silent.ofExcept _).use

end Adapter

/-! ## Sessions -/

theorem load_silent (accountId : String) : Silent (PaperLedgerRepository.load env accountId) :=
  (execute_silent _).bind fun _ => (execute_silent _).bind fun _ =>
    Silent.read.bind fun _ => Silent.pure _

theorem save_silent (accountId : String) (ledger : PaperLedger) :
    Silent (PaperLedgerRepository.save env accountId ledger) :=
  (execute_silent _).bind fun _ => (Silent.setDb _).bind fun _ => execute_silent _

/-- A new adapter starts without a client. -/
theorem CcxtAdapter.new_use (exchangeId : String) (credentials : Option ExchangeCredentials)
    (marketType : String) :
    Act.Triple (Idle start n) (CcxtAdapter.new exchangeId credentials marketType)
      (fun _ => Using start n) (fun _ => Idle start n) := by
  unfold CcxtAdapter.new
  split
  · exact Act.Triple.raise fun _ hw => hw
  · exact Act.Triple.bind (Q := fun _ => Using start n)
      (Act.Triple.modify fun _ hw => hw.withoutClient) fun _ => Act.Triple.pure fun _ hw => hw

theorem ExchangeFactory.publicMarketAdapter_use (exchangeId : String) :
    Act.Triple (Idle start n) (publicMarketAdapter exchangeId) (fun _ => Using start n)
      (fun _ => Idle start n) := by
  unfold publicMarketAdapter
  split
  · exact CcxtAdapter.new_use _ _ _
  · exact Act.Triple.raise fun _ hw => hw

namespace AccountService

theorem loadPaperLedger_silent (account : ExchangeAccount) :
    Silent (loadPaperLedger env account) := by
  refine Silent.read.bind fun w => ?_
  split
  · exact (load_silent _).bind fun _ => Silent.pure _
  · exact Silent.pure _

theorem getAccount_silent (accountId userId : String) :
    Silent (getAccount env accountId userId) := by
  refine (execute_silent _).bind fun _ => Silent.read.bind fun w => ?_
  split
  · exact Silent.raise _
  · exact Silent.pure _

theorem listAccounts_silent (userId : String) : Silent (listAccounts env userId) :=
  (execute_silent _).bind fun _ => Silent.read.bind fun _ => Silent.pure _

theorem insertAccount_silent (account : ExchangeAccount) : Silent (insertAccount env account) := by
  refine (execute_silent _).bind fun _ => Silent.read.bind fun w => ?_
  split
  · exact Silent.raise _
  · exact Silent.setDb _

theorem buildAdapter_use (account : ExchangeAccount) (ledger : Option PaperLedger) :
    Act.Triple (Idle start n) (buildAdapter env account ledger) (fun _ => Using start n)
      (fun _ => Idle start n) := by
  refine Act.Triple.bind (Silent.ofExcept _).idle fun creds => ?_
  refine Act.Triple.read_bind fun w _ => ?_
  split
  · split
    · refine Act.Triple.bind (ExchangeFactory.publicMarketAdapter_use _) fun market => ?_
      exact Act.Triple.bind (Q := fun _ => Using start n)
        (Act.Triple.modify fun _ hv => hv.of_unchanged rfl rfl) fun _ =>
          Act.Triple.pure fun _ hv => hv
    · split
      · exact Act.Triple.raise fun _ hv => hv
      · split
        · exact Act.Triple.bind (CcxtAdapter.new_use _ _ _) fun _ => Act.Triple.pure fun _ hv => hv
        · exact Act.Triple.raise fun _ hv => hv
  · exact Act.Triple.raise fun _ hv => hv

/-- However the clean-up ends, the client is closed. -/
theorem endSession_use (account : ExchangeAccount) (persist loaded : Bool) (adapter : Adapter) :
    Act.Triple (Using start n) (endSession env account persist loaded adapter)
      (fun _ => Idle start n) (fun _ => Idle start n) := by
  refine Act.Triple.tryFinally (R := fun _ => Using start n) (F := fun _ => Using start n) ?_
    (fun _ => CcxtAdapter.close_use) (fun _ => CcxtAdapter.close_use)
  refine Act.Triple.read_bind fun w _ => ?_
  split
  · exact (save_silent _ _).use
  · exact Act.Triple.pure fun _ hv => hv

/-- A session leaves no client in use, and has sent what its body sent. -/
theorem adapterSession_use {account : ExchangeAccount} {persist : Bool}
    {body : Adapter → Service α} (hle : n ≤ m)
    (hbody : ∀ a, Act.Triple (Using start n) (body a) (fun _ => Using start m)
      (fun _ => Using start m)) :
    Act.Triple (Idle start n) (adapterSession env account persist body) (fun _ => Idle start m)
      (fun _ => Idle start m) := by
  have hweaken : ∀ {β : Type} {x : Service β} {Q : β → World → Prop},
      Act.Triple (Idle start n) x Q (fun _ => Idle start n) →
      Act.Triple (Idle start n) x Q (fun _ => Idle start m) :=
    fun h => h.conseq (fun _ hw => hw) (fun _ _ hw => hw) fun _ _ hw => hw.mono hle
  refine Act.Triple.bind (hweaken (loadPaperLedger_silent account).idle) fun ledger => ?_
  refine Act.Triple.bind (hweaken (buildAdapter_use account ledger)) fun adapter => ?_
  exact Act.Triple.tryFinally (hbody adapter) (fun _ => endSession_use account persist _ adapter)
    fun _ => endSession_use account persist _ adapter

end AccountService

/-! ## Services -/

namespace TradingService

theorem getOrder_silent (userId orderId : String) : Silent (getOrder env userId orderId) := by
  refine (execute_silent _).bind fun _ => Silent.read.bind fun w => ?_
  split
  · exact Silent.raise _
  · exact Silent.pure _

theorem persist_silent (userId : String) (account : ExchangeAccount)
    (order : Order (Option String)) : Silent (persist env userId account order) := by
  refine (execute_silent _).bind fun _ => ?_
  split
  · exact Silent.raise _
  · refine Silent.read.bind fun w => ?_
    split
    · exact Silent.raise _
    · exact (Silent.setDb _).bind fun _ => Silent.pure _

theorem referencePrice_use (a : Adapter) (r : PlaceOrder) :
    Act.Keeps (Using start n) (referencePrice env a r) := by
  unfold referencePrice
  split
  · exact Act.Keeps.pure _
  · exact Act.Keeps.bind (Adapter.fetchTicker_use _) fun _ => Act.Keeps.pure _

theorem quoteEquity_use (a : Adapter) (symbol : String) :
    Act.Keeps (Using start n) (quoteEquity env a symbol) :=
  Act.Keeps.bind (Act.Keeps.tryExcept Adapter.fetchBalance_use fun _ => Act.Keeps.pure _)
    fun _ => Act.Keeps.pure _

/-- A placement sends one order, if the checks before it let it through. -/
theorem placeWith_use (limits : RiskLimits) (r : PlaceOrder) (account : ExchangeAccount)
    (a : Adapter) :
    Act.Triple (Using start n) (placeWith env limits r account a) (fun _ => Using start (n + 1))
      (fun _ => Using start (n + 1)) := by
  have hbefore : ∀ {β : Type} {x : Service β}, Act.Keeps (Using start n) x →
      Act.Triple (Using start n) x (fun _ => Using start n) (fun _ => Using start (n + 1)) :=
    fun h => h.conseq (fun _ hw => hw) (fun _ _ hw => hw) fun _ _ hw => hw.mono (Nat.le_add_right n 1)
  refine Act.Triple.bind (hbefore (referencePrice_use a r)) fun refPrice => ?_
  refine Act.Triple.bind (hbefore (quoteEquity_use a r.symbol)) fun equity => ?_
  refine Act.Triple.bind (hbefore (Act.Keeps.ofExcept _)) fun _ => ?_
  refine Act.Triple.bind (Adapter.createOrder_use _) fun order => ?_
  refine Act.Triple.bind (persist_silent _ _ _).use fun record => ?_
  exact Act.Triple.bind (auditRecord_silent _ _).use fun _ => Act.Triple.pure fun _ hw => hw

theorem cancelStatus_use (record : OrderRecord) (a : Adapter) :
    Act.Triple (Using start n) (cancelStatus env record a) (fun _ => Using start (n + 1))
      (fun _ => Using start (n + 1)) := by
  have hle : n ≤ n + 1 := Nat.le_add_right n 1
  unfold cancelStatus
  split
  · exact Act.Triple.pure fun _ hw => hw.mono hle
  · split
    · exact Act.Triple.pure fun _ hw => hw.mono hle
    · refine Act.Triple.tryExcept (Act.Triple.bind (Adapter.cancelOrder_use _ _) fun _ =>
        Act.Triple.pure fun _ hw => hw) fun e => ?_
      split
      · exact Act.Triple.pure fun _ hw => hw
      · exact Act.Triple.raise fun _ hw => hw

theorem cancelWith_use (userId : String) (record : OrderRecord) (a : Adapter) :
    Act.Triple (Using start n) (cancelWith env userId record a) (fun _ => Using start (n + 1))
      (fun _ => Using start (n + 1)) := by
  refine Act.Triple.bind (cancelStatus_use record a) fun status => ?_
  refine Act.Triple.bind (execute_silent _).use fun _ => ?_
  refine Act.Triple.bind (Silent.setDb _).use fun _ => ?_
  exact Act.Triple.bind (auditRecord_silent _ _).use fun _ => Act.Triple.pure fun _ hw => hw

theorem accountRead_use {accountId userId : String} {body : Adapter → Service α}
    (hbody : ∀ a, Act.Keeps (Using start n) (body a)) :
    Act.Keeps (Idle start n)
      (do let account ← AccountService.getAccount env accountId userId
          AccountService.adapterSession env account false body) :=
  Act.Keeps.bind (AccountService.getAccount_silent _ _).idle fun _ =>
    AccountService.adapterSession_use (le_refl n) hbody

end TradingService

theorem Trade.run_use (t : Trade) :
    Act.Triple (Idle start n) (t.run env) (fun _ => Idle start (n + 1))
      (fun _ => Idle start (n + 1)) := by
  have hle : n ≤ n + 1 := Nat.le_add_right n 1
  have hbefore : ∀ {β : Type} {x : Service β}, Silent x →
      Act.Triple (Idle start n) x (fun _ => Idle start n) (fun _ => Idle start (n + 1)) :=
    fun h => h.idle.conseq (fun _ hw => hw) (fun _ _ hw => hw) fun _ _ hw => hw.mono hle
  cases t with
  | place limits r =>
    refine Act.Triple.bind (hbefore (AccountService.getAccount_silent _ _)) fun account => ?_
    exact AccountService.adapterSession_use hle (TradingService.placeWith_use limits r account)
  | cancel userId orderId =>
    refine Act.Triple.bind (hbefore (TradingService.getOrder_silent _ _)) fun record => ?_
    split
    · exact Act.Triple.pure fun _ hw => hw.mono hle
    · refine Act.Triple.bind (hbefore (AccountService.getAccount_silent _ _)) fun account => ?_
      exact AccountService.adapterSession_use hle (TradingService.cancelWith_use userId record)

namespace MarketService

theorem withPublicAdapter_use (exchangeId : String) {body : CcxtAdapter → Service α}
    (hbody : ∀ c, Act.Keeps (Using start n) (body c)) :
    Act.Keeps (Idle start n) (withPublicAdapter env exchangeId body) :=
  Act.Triple.bind (ExchangeFactory.publicMarketAdapter_use _) fun c =>
    Act.Triple.tryFinally (hbody c) (fun _ => CcxtAdapter.close_use) fun _ => CcxtAdapter.close_use

theorem candles_use (exchangeId symbol timeframe : String) (limit : ℤ) :
    Act.Keeps (Idle start n) (candles env exchangeId symbol timeframe limit) := by
  unfold candles
  split
  · refine withPublicAdapter_use exchangeId fun c => ?_
    exact Act.Keeps.bind (Adapter.read_use c (by simp) (by simp) rfl) fun _ => Act.Keeps.ofExcept _
  · exact Act.Keeps.raise _

end MarketService

theorem PortfolioService.aggregateFrom_use (totals : Dict String Balance)
    (accounts : List ExchangeAccount) :
    Act.Keeps (Idle start n) (aggregateFrom env totals accounts) := by
  induction accounts generalizing totals with
  | nil => exact Act.Keeps.pure _
  | cons account rest ih =>
    refine Act.Keeps.bind (Act.Keeps.tryExcept ?_ fun _ => Act.Keeps.pure _) fun _ => ih _
    exact AccountService.adapterSession_use (le_refl n) fun a => Adapter.fetchBalance_use

/-- The orders and cancellations a request may send. -/
def Operation.sends : Operation → ℕ
  | trade _ => 1
  | _ => 0

theorem Operation.run_use (op : Operation) :
    Act.Triple (Idle start n) (op.run env) (fun _ => Idle start (n + op.sends))
      (fun _ => Idle start (n + op.sends)) := by
  have hdrop : ∀ {β : Type} {x : Service β} {k : ℕ},
      Act.Triple (Idle start n) x (fun _ => Idle start k) (fun _ => Idle start k) →
      Act.Triple (Idle start n) (do let _ ← x; pure () : Service Unit) (fun _ => Idle start k)
        (fun _ => Idle start k) :=
    fun h => Act.Triple.bind h fun _ => Act.Triple.pure fun _ hw => hw
  cases op with
  | trade t => exact hdrop t.run_use
  | getOrder userId orderId => exact hdrop (TradingService.getOrder_silent _ _).idle
  | listOrders userId symbol status page pageSize =>
    exact hdrop ((execute_silent _).bind fun _ => Silent.read.bind fun _ => Silent.pure _).idle
  | listOpenOrders userId accountId =>
    exact hdrop (TradingService.accountRead_use fun a => Adapter.fetchOpenOrders_use)
  | listPositions userId accountId =>
    exact hdrop (TradingService.accountRead_use fun a => Adapter.fetchPositions_use)
  | createPaperAccount userId exchangeId label marketType =>
    exact hdrop ((AccountService.insertAccount_silent _).bind fun _ =>
      (auditRecord_silent _ _).bind fun _ => Silent.pure _).idle
  | createLiveAccount userId exchangeId label marketType apiKey apiSecret passphrase =>
    refine hdrop (Silent.idle ?_)
    unfold AccountService.createLiveAccount
    split
    · exact Silent.raise _
    · split
      · exact Silent.raise _
      · exact (AccountService.insertAccount_silent _).bind fun _ =>
          (auditRecord_silent _ _).bind fun _ => Silent.pure _
  | listAccounts userId => exact hdrop (AccountService.listAccounts_silent _).idle
  | getAccount accountId userId => exact hdrop (AccountService.getAccount_silent _ _).idle
  | deleteAccount accountId userId =>
    exact ((AccountService.getAccount_silent _ _).bind fun _ => (execute_silent _).bind fun _ =>
      (Silent.setDb _).bind fun _ => auditRecord_silent _ _).idle
  | aggregateBalances userId =>
    exact hdrop (Act.Keeps.bind (AccountService.listAccounts_silent _).idle fun _ =>
      PortfolioService.aggregateFrom_use _ _)
  | ticker exchangeId symbol =>
    refine hdrop (MarketService.withPublicAdapter_use exchangeId fun c => ?_)
    exact Act.Keeps.bind (Adapter.read_use c (by simp) (by simp) rfl) fun _ => Act.Keeps.pure _
  | orderBook exchangeId symbol limit =>
    refine hdrop (MarketService.withPublicAdapter_use exchangeId fun c => ?_)
    refine Act.Keeps.bind (Adapter.read_use c (by simp) (by simp) rfl) fun _ => ?_
    exact Act.Keeps.bind (Act.Keeps.ofExcept _) fun _ =>
      Act.Keeps.bind (Act.Keeps.ofExcept _) fun _ => Act.Keeps.pure _
  | candles exchangeId symbol timeframe limit => exact hdrop (MarketService.candles_use _ _ _ _)
  | indicator compute exchangeId symbol name timeframe period limit =>
    refine hdrop ?_
    unfold MarketService.indicator
    simp only
    split
    · exact Act.Keeps.bind (MarketService.candles_use _ _ _ _) fun _ => Act.Keeps.ofExcept _
    · exact Act.Keeps.raise _

/-- What a request puts on the log is in order. -/
theorem serve_orderly (w : World) (env : Env) (op : Operation) :
    ∃ trace, (serve w (env, op)).log = w.log ++ trace ∧ Orderly op.sends trace := by
  have hlog : (serve w (env, op)).log = (op.run env w).2.log := by
    unfold serve getSession
    rcases op.run env w with ⟨e | u, w'⟩
    · rfl
    · cases env.fault .commit with
      | none => rfl
      | some f => rfl
  have huse : Act.Triple (Idle w.log 0) (op.run env) (fun _ => Idle w.log (0 + op.sends))
      (fun _ => Idle w.log (0 + op.sends)) := op.run_use
  have hidle := huse.final (Idle.of_log w)
  rw [Nat.zero_add] at hidle
  obtain ⟨s, ⟨trace, htrace, hfold⟩, hclient, hn⟩ := hidle
  exact ⟨trace, hlog.trans htrace, s, hfold, hclient, hn⟩

/-! ## Runs -/

/-- The orders and cancellations a turn may send. -/
def Turn.sends : Turn → ℕ
  | serve _ op => op.sends
  | restart _ => 0

theorem Turn.apply_orderly (w : World) (t : Turn) :
    ∃ trace, (t.apply w).log = w.log ++ trace ∧ Orderly t.sends trace := by
  cases t with
  | serve env op => exact serve_orderly w env op
  | restart settings => exact ⟨[], by simp [apply, World.restart], .idle, rfl, rfl, le_refl _⟩

/-- A client is built. -/
def Event.isBuilt : Event → Bool
  | built _ => true
  | _ => false

/-- A client is closed. -/
def Event.isClosed : Event → Bool
  | call _ .close _ => true
  | _ => false

/-- The number of clients in use. -/
def Wire.clients (s : Wire) : ℕ := if s.client = none then 0 else 1

theorem Wire.next_clients {s s' : Wire} {e : Event} (h : s.next e = some s') :
    s.clients + (if e.isBuilt then 1 else 0) = s'.clients + (if e.isClosed then 1 else 0) := by
  cases e with
  | built client =>
    obtain ⟨hnone, hsome⟩ := Option.ite_none_right_eq_some.1 h
    obtain rfl := Option.some.inj hsome
    simp [clients, hnone, Event.isBuilt, Event.isClosed]
  | call client m returned =>
    cases m with
    | setSandboxMode =>
      obtain ⟨⟨hclient, -⟩, hsome⟩ := Option.ite_none_right_eq_some.1 h
      obtain rfl := Option.some.inj hsome
      simp [clients, hclient, Event.isBuilt, Event.isClosed]
    | _ =>
      obtain ⟨hclient, hsome⟩ := Option.ite_none_right_eq_some.1 h
      obtain rfl := Option.some.inj hsome
      simp [clients, hclient, Event.isBuilt, Event.isClosed]
  | paper accountId call =>
    obtain rfl := Option.some.inj h
    simp [clients, Event.isBuilt, Event.isClosed]

theorem Wire.foldlM_clients {trace : List Event} : ∀ {s s' : Wire},
    trace.foldlM Wire.next s = some s' →
      s.clients + trace.countP Event.isBuilt = s'.clients + trace.countP Event.isClosed := by
  induction trace with
  | nil =>
    intro s s' h
    obtain rfl := Option.some.inj h
    rfl
  | cons e trace ih =>
    intro s s'' h
    rw [List.foldlM_cons] at h
    obtain ⟨s', hnext, hrest⟩ := Option.bind_eq_some_iff.1 h
    have hstep := Wire.next_clients hnext
    have htrace := ih hrest
    rw [List.countP_cons, List.countP_cons]
    omega

theorem Orderly.closed {trace : List Event} (h : Orderly n trace) :
    trace.countP Event.isBuilt = trace.countP Event.isClosed := by
  obtain ⟨s, hfold, hclient, -⟩ := h
  have hclients := Wire.foldlM_clients hfold
  simpa [Wire.clients, Wire.idle, hclient] using hclients

theorem countP_flatten_eq {turns : List Turn} {traces : List (List Event)}
    (h : List.Forall₂ (fun t trace => Orderly t.sends trace) turns traces) :
    traces.flatten.countP Event.isBuilt = traces.flatten.countP Event.isClosed := by
  induction h with
  | nil => rfl
  | cons hfirst _ ih => simp [List.countP_append, hfirst.closed, ih]

/-- In every run, whatever the exchanges and the database do, the calls of each request are in
    order: every client is built, called and closed before the next one, and a request sends at most
    one order or cancellation, one that does not trade none. Every client is closed. -/
theorem clients_closed (w : World) (turns : List Turn) :
    ∃ traces, List.Forall₂ (fun t trace => Orderly t.sends trace) turns traces ∧
      (turns.foldl Turn.apply w).log = w.log ++ traces.flatten ∧
      traces.flatten.countP Event.isBuilt = traces.flatten.countP Event.isClosed := by
  obtain ⟨traces, htraces, hlog⟩ := run_segments Turn.apply_orderly turns w
  exact ⟨traces, htraces, hlog, countP_flatten_eq htraces⟩

end TradingHub
