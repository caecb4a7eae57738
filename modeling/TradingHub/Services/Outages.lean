import TradingHub.Core.SequentialCalls
import TradingHub.Library.RelTriple
import TradingHub.Services.Calls

set_option autoImplicit false

/-! # An exchange that fails is left alone

The adapters of all requests share one circuit breaker for each exchange. On the trace of a whole
server it does two things. An exchange that has failed five times in a row gets no request from
anyone, on whatever route, until thirty seconds after the last failure. And what other exchanges do
makes no difference: whether an exchange may be called is told by its own calls alone
(`failing_exchange_is_left_alone`). -/

namespace TradingHub

open Library

/-! ## The calls of an exchange -/

/-- What became of the request, if the event is one to the exchange `x`. -/
def Event.answer (x : String) : Event → Option Bool
  | .call client m returned =>
    if client.exchangeId = x ∧ m.isRequest = true then some returned else none
  | _ => none

/-- The requests to `x` in the part of a trace that comes after `before`, with the readings of the
    clock around each. -/
def callsTo (env : Env) (x : String) : List Event → List Event → List SequentialCall
  | _, [] => []
  | before, e :: rest =>
    ((e.answer x).toList.map fun returned =>
      ⟨env.clock before, env.clock (before ++ [e]), returned⟩) ++ callsTo env x (before ++ [e]) rest

theorem callsTo_concat (env : Env) (x : String) (e : Event) : ∀ (events before : List Event),
    callsTo env x before (events ++ [e]) = callsTo env x before events
      ++ (e.answer x).toList.map fun returned =>
        ⟨env.clock (before ++ events), env.clock (before ++ events ++ [e]), returned⟩ := by
  intro events
  induction events with
  | nil =>
    intro before
    simp [callsTo]
  | cons e' events ih =>
    intro before
    simp [callsTo, ih, List.append_assoc]

/-- The breaker of the exchange `x`, as `get_circuit_breaker` gives it. -/
def World.circuit (w : World) (x : String) : CircuitBreaker :=
  (w.breakers.get? ("ccxt:" ++ x)).getD {}

/-- Fewer than five calls have failed since the last success, or the last failure is thirty seconds
    ago. -/
def MayCall (history : List SequentialCall) (now : ℚ) : Prop :=
  ((failedSinceSuccess history).length : ℤ) < 5 ∨
    ∃ last, lastFailure history = some last ∧ 30 ≤ now - last.finish

theorem MayCall.mono {history : List SequentialCall} {now later : ℚ} (h : MayCall history now)
    (hle : now ≤ later) : MayCall history later := by
  rcases h with hfew | ⟨last, hlast, hlong⟩
  · exact Or.inl hfew
  · exact Or.inr ⟨last, hlast, by linarith⟩

/-- Every call was made when the calls before it admitted one. -/
def Paced (history : List SequentialCall) : Prop :=
  ∀ before c after, history = before ++ c :: after → MayCall before c.start

theorem Paced.nil : Paced [] :=
  fun before c after h => absurd (congrArg List.length h) (by simp)

theorem Paced.concat {history : List SequentialCall} {c : SequentialCall} (h : Paced history)
    (hc : MayCall history c.start) : Paced (history ++ [c]) := by
  intro before c' after heq
  rcases List.eq_nil_or_concat after with rfl | ⟨after, last, rfl⟩
  · obtain ⟨rfl, hlast⟩ := List.append_inj' heq rfl
    rw [← (List.cons.inj hlast).1]
    exact hc
  · rw [List.concat_eq_append, ← List.cons_append, ← List.append_assoc] at heq
    exact h before c' after (List.append_inj' heq rfl).1

/-- What an admitted call leaves for its outcome to be recorded on. -/
structure Waiting (history : List SequentialCall) (b : CircuitBreaker) : Prop where
  threshold : b.failureThreshold = 5
  timeout : b.recoveryTimeout = 30
  failures : b.failures = (failedSinceSuccess history).length
  state : b.state = .closed ∨
    b.state = .halfOpen ∧ 5 ≤ ((failedSinceSuccess history).length : ℤ)

/-- A call is turned away, which changes nothing, or let through. -/
theorem CircuitBreaker.Follows.attempt {history : List SequentialCall} {b : CircuitBreaker}
    (h : Follows 5 30 history b) (now : ℚ) :
    b.canAttempt now = (false, b) ∨
      ∃ b', b.canAttempt now = (true, b') ∧ MayCall history now ∧ Waiting history b' := by
  have hadmits := h.canAttempt_iff now
  rcases h.cases with ⟨hroom, hclosed⟩ | ⟨hfull, hopen, last, hlast, hat⟩
  · exact Or.inr ⟨b, by simp [canAttempt, hclosed], Or.inl hroom, h.threshold, h.timeout,
      h.failures, Or.inl hclosed⟩
  · by_cases htime : b.recoveryTimeout ≤ now - b.openedAt
    · have hrun : b.canAttempt now
          = (true, { b with state := .halfOpen, probeInFlight := true }) := by
        simp [canAttempt, hopen, htime]
      exact Or.inr ⟨_, hrun, hadmits.1 (congrArg Prod.fst hrun), h.threshold, h.timeout,
        h.failures, Or.inr ⟨rfl, hfull⟩⟩
    · exact Or.inl (by simp [canAttempt, hopen, htime])

/-- The outcome of the call that was let through is recorded. -/
theorem Waiting.settle {history : List SequentialCall} {b : CircuitBreaker}
    (h : Waiting history b) (c : SequentialCall) :
    CircuitBreaker.Follows 5 30 (history ++ [c])
      (if c.returns then b.recordSuccess else b.recordFailure c.finish) := by
  cases hc : c.returns with
  | true => exact CircuitBreaker.Follows.success (by decide) hc ⟨h.threshold, h.timeout⟩
  | false => exact CircuitBreaker.Follows.failure hc ⟨h.threshold, h.timeout⟩ h.failures h.state

/-! ## Worlds that remember the calls -/

/-- The history of the calls of `x`, as the trace tells it, is paced, and stands in the relation to
    the breaker. -/
def During (env : Env) (x : String) (past : List SequentialCall) (start : List Event)
    (Q : List SequentialCall → CircuitBreaker → Prop) (w : World) : Prop :=
  ∃ trace, w.log = start ++ trace ∧ Paced (past ++ callsTo env x start trace) ∧
    Q (past ++ callsTo env x start trace) (w.circuit x)

/-- The breaker of `x` follows its calls. -/
def Tracked (env : Env) (x : String) (past : List SequentialCall) (start : List Event) :
    World → Prop :=
  During env x past start (CircuitBreaker.Follows 5 30)

/-- A call to `x` was let through when the trace was `l`. -/
def Trying (env : Env) (x : String) (past : List SequentialCall) (start l : List Event)
    (w : World) : Prop :=
  During env x past start (fun history b => MayCall history (env.clock l) ∧ Waiting history b) w ∧
    ∃ rest, w.log = l ++ rest

/-- The call has been made, and what became of it is about to be recorded. -/
def Answered (env : Env) (x : String) (past : List SequentialCall) (start : List Event)
    (returned : Bool) (w : World) : Prop :=
  ∃ history c, c.returns = returned ∧ c.finish = env.clock w.log ∧
    During env x past start (fun history' b => history' = history ++ [c] ∧ Waiting history b) w

/-- A clock that does not go back. -/
def Env.Ticks (env : Env) : Prop := ∀ l rest, env.clock l ≤ env.clock (l ++ rest)

variable {env : Env} {x : String} {past : List SequentialCall} {start : List Event}
  {Q : List SequentialCall → CircuitBreaker → Prop} {w w' : World}

namespace During

theorem of_unchanged (h : During env x past start Q w) (hcircuit : w'.circuit x = w.circuit x)
    (hlog : w'.log = w.log) : During env x past start Q w' := by
  obtain ⟨trace, htrace, hpaced, hQ⟩ := h
  exact ⟨trace, hlog.trans htrace, hpaced, hcircuit ▸ hQ⟩

/-- An event that is no request to `x`. -/
theorem logged (h : During env x past start Q w) {e : Event} (he : e.answer x = none) :
    During env x past start Q { w with log := w.log ++ [e] } := by
  obtain ⟨trace, htrace, hpaced, hQ⟩ := h
  have hsame : callsTo env x start (trace ++ [e]) = callsTo env x start trace := by
    simp [callsTo_concat, he]
  refine ⟨trace ++ [e], by simp [htrace], ?_, ?_⟩
  · rw [hsame]
    exact hpaced
  · rw [hsame]
    exact hQ

end During

/-- The call that was let through is made. -/
theorem Trying.answered {l : List Event} (h : Trying env x past start l w) (hticks : env.Ticks)
    {e : Event} {returned : Bool} (he : e.answer x = some returned) :
    Answered env x past start returned { w with log := w.log ++ [e] } := by
  obtain ⟨⟨trace, htrace, hpaced, hadmits, hwaiting⟩, rest, hrest⟩ := h
  have hlast : callsTo env x start (trace ++ [e]) = callsTo env x start trace
      ++ [⟨env.clock w.log, env.clock (w.log ++ [e]), returned⟩] := by
    rw [callsTo_concat, he, htrace]
    rfl
  refine ⟨past ++ callsTo env x start trace,
    ⟨env.clock w.log, env.clock (w.log ++ [e]), returned⟩, rfl, rfl, trace ++ [e],
    by simp [htrace], ?_, ?_, hwaiting⟩
  · rw [hlast, ← List.append_assoc]
    exact hpaced.concat (hadmits.mono (hrest ▸ hticks l rest))
  · rw [hlast, List.append_assoc]

/-! ## One call -/

namespace CcxtAdapter

variable {c : CcxtAdapter}

theorem circuit_setBreaker (c : CcxtAdapter) (b : CircuitBreaker) (w : World) :
    (c.setBreaker b w).circuit c.info.id = b := by
  simp [World.circuit, setBreaker]

theorem circuit_setBreaker_of_ne (hne : c.info.id ≠ x) (b : CircuitBreaker) (w : World) :
    (c.setBreaker b w).circuit x = w.circuit x := by
  have hkey : "ccxt:" ++ x ≠ "ccxt:" ++ c.info.id := by
    intro heq
    have hchars := congrArg String.toList heq
    simp only [String.toList_append, List.append_cancel_left_eq] at hchars
    exact hne (String.toList_inj.1 hchars).symm
  unfold World.circuit setBreaker
  rw [Dict.get?_set_of_ne _ _ hkey]

/-- Getting the client asks the exchange nothing. -/
theorem getClient_during {R : World → Prop} (hinstalled : env.ccxt.installed = true)
    (hlog : ∀ w e, e.answer x = none → R w → R { w with log := w.log ++ [e] })
    (hclient : ∀ w client, R w → R { w with client := client }) :
    Act.Triple (fun w => R w ∧ c.Holds w) (c.getClient env)
      (fun client w => client.exchangeId = c.info.id ∧ R w) (fun _ _ => False) := by
  have hswitch : ∀ client returned, (Event.call client .setSandboxMode returned).answer x = none :=
    fun client returned => if_neg fun h => absurd h.2 (by decide)
  unfold getClient
  refine Act.Triple.read_bind fun w hw => ?_
  split
  · next client hheld => exact Act.Triple.pure fun v hv => ⟨hw.2 client hheld, hv.1⟩
  · unfold buildClient
    rw [if_pos hinstalled]
    refine Act.Triple.bind (Q := fun client w => client.exchangeId = c.info.id ∧ R w) ?_
      fun client => Act.Triple.bind (Q := fun _ w => client.exchangeId = c.info.id ∧ R w)
        (Act.Triple.modify fun v hv => ⟨hv.1, hclient v _ hv.2⟩) fun _ =>
          Act.Triple.pure fun _ hv => hv
    refine Act.Triple.bind (Q := fun _ => R)
      (Act.Triple.modify fun v hv => hlog v _ rfl hv.1) fun _ => ?_
    split
    · refine Act.Triple.tryExcept (F := fun _ => R) ?_ fun _ =>
        Act.Triple.pure fun _ hv => ⟨c.configured_exchangeId, hv⟩
      exact Act.Triple.bind (invoke_triple (fun v hv => hlog v _ (hswitch _ _) hv)
        fun v hv => hlog v _ (hswitch _ _) hv) fun _ =>
          Act.Triple.pure fun _ hv => ⟨c.configured_exchangeId, hv⟩
    · exact Act.Triple.pure fun _ hv => ⟨c.configured_exchangeId, hv⟩

/-- A call of another exchange. -/
theorem call_tracked_of_ne (hne : c.info.id ≠ x) (hinstalled : env.ccxt.installed = true)
    (m : Method) :
    Act.Triple (fun w => Tracked env x past start w ∧ c.Holds w) (c.call env m)
      (fun _ => Tracked env x past start) (fun _ => Tracked env x past start) := by
  have hset : ∀ b w, Tracked env x past start w → Tracked env x past start (c.setBreaker b w) :=
    fun b w hw => hw.of_unchanged (circuit_setBreaker_of_ne hne b w) rfl
  have hother : ∀ client : CcxtClient, client.exchangeId = c.info.id → ∀ returned,
      (Event.call client m returned).answer x = none :=
    fun client hid returned => if_neg fun h => hne (hid.symm.trans h.1)
  have hfunc : Act.Triple (fun w => Tracked env x past start w ∧ c.Holds w)
      (do let client ← c.getClient env
          invoke env client m : Service m.Reply)
      (fun _ => Tracked env x past start) (fun _ => Tracked env x past start) := by
    refine Act.Triple.bind ((getClient_during hinstalled (fun w e he hw => hw.logged he)
      fun w _ hw => hw.of_unchanged rfl rfl).conseq (fun _ h => h) (fun _ _ h => h)
      fun _ _ h => h.elim) fun client => Act.Triple.of_fact fun hid => ?_
    exact invoke_triple (fun w hw => hw.logged (hother client hid true))
      fun w hw => hw.logged (hother client hid false)
  unfold call breakerCall
  refine Act.Triple.tryExcept (F := fun _ => Tracked env x past start) ?_ fun _ =>
    Act.Triple.raise fun _ hw => hw
  refine Act.Triple.read_bind fun w _ => ?_
  refine Act.Triple.bind (Q := fun _ w => Tracked env x past start w ∧ c.Holds w)
    (Act.Triple.modify fun v hv => ⟨hset _ v hv.1, hv.2.of_unchanged rfl⟩) fun _ => ?_
  split
  · refine Act.Triple.bind (Act.Triple.tryExcept hfunc fun e => ?_) fun _ => ?_
    · exact Act.Triple.bind (Act.Triple.modify fun v => hset _ v) fun _ =>
        Act.Triple.raise fun _ hv => hv
    · exact Act.Triple.bind (Act.Triple.modify fun v => hset _ v) fun _ =>
        Act.Triple.pure fun _ hv => hv
  · exact Act.Triple.raise fun _ hv => hv.1

/-- What becomes of the call is recorded. -/
theorem Answered.recorded {returned : Bool} (h : Answered env c.info.id past start returned w) :
    Tracked env c.info.id past start (c.setBreaker (if returned then (c.breakerOf w).recordSuccess
      else (c.breakerOf w).recordFailure (env.clock w.log)) w) := by
  obtain ⟨history, call, rfl, hfinish, trace, htrace, hpaced, hhistory, hwaiting⟩ := h
  refine ⟨trace, htrace, hpaced, ?_⟩
  rw [circuit_setBreaker, hhistory, ← hfinish]
  exact hwaiting.settle call

/-- A call of the exchange itself is turned away, or let through and recorded. -/
theorem call_tracked (hx : c.info.id = x) (hinstalled : env.ccxt.installed = true)
    (hticks : env.Ticks) {m : Method} (hm : m.isRequest = true) :
    Act.Triple (fun w => Tracked env x past start w ∧ c.Holds w) (c.call env m)
      (fun _ => Tracked env x past start) (fun _ => Tracked env x past start) := by
  subst hx
  unfold call breakerCall
  refine Act.Triple.tryExcept (F := fun _ => Tracked env c.info.id past start) ?_ fun _ =>
    Act.Triple.raise fun _ hw => hw
  refine Act.Triple.read_bind_eq fun w hw => ?_
  obtain ⟨⟨trace, htrace, hpaced, hfollows⟩, hholds⟩ := hw
  rcases hfollows.attempt (env.clock w.log) with hrefused | ⟨b, hadmitted, hadmits, hwaiting⟩
  · rw [show c.breakerOf w = w.circuit c.info.id from rfl, hrefused]
    refine Act.Triple.bind (Q := fun _ => Tracked env c.info.id past start)
      (Act.Triple.modify ?_) fun _ => Act.Triple.raise fun _ hv => hv
    rintro v rfl
    exact ⟨trace, htrace, hpaced, (circuit_setBreaker c _ v).symm ▸ hfollows⟩
  · rw [show c.breakerOf w = w.circuit c.info.id from rfl, hadmitted]
    refine Act.Triple.bind (Q := fun _ v => Trying env c.info.id past start w.log v ∧ c.Holds v)
      (Act.Triple.modify ?_) fun _ => ?_
    · rintro v rfl
      refine ⟨⟨⟨trace, htrace, hpaced, hadmits, ?_⟩, [], by simp [setBreaker]⟩,
        hholds.of_unchanged rfl⟩
      rw [circuit_setBreaker]
      exact hwaiting
    have hanswer : ∀ client : CcxtClient, client.exchangeId = c.info.id → ∀ returned,
        (Event.call client m returned).answer c.info.id = some returned :=
      fun client hid returned => if_pos ⟨hid, hm⟩
    have hgrows : ∀ v e, e.answer c.info.id = none → Trying env c.info.id past start w.log v →
        Trying env c.info.id past start w.log { v with log := v.log ++ [e] } := by
      rintro v e he ⟨hduring, rest, hrest⟩
      exact ⟨hduring.logged he, rest ++ [e], by simp [hrest]⟩
    have hfunc : Act.Triple (fun v => Trying env c.info.id past start w.log v ∧ c.Holds v)
        (do let client ← c.getClient env
            invoke env client m : Service m.Reply)
        (fun _ => Answered env c.info.id past start true)
        (fun _ => Answered env c.info.id past start false) := by
      refine Act.Triple.bind ((getClient_during hinstalled hgrows
        fun v _ hv => ⟨hv.1.of_unchanged rfl rfl, hv.2⟩).conseq (fun _ h => h) (fun _ _ h => h)
        fun _ _ h => h.elim) fun client => Act.Triple.of_fact fun hid => ?_
      exact invoke_triple (fun v hv => hv.answered hticks (hanswer client hid true))
        fun v hv => hv.answered hticks (hanswer client hid false)
    simp only [if_true]
    refine Act.Triple.bind (Act.Triple.tryExcept hfunc fun e => ?_) fun _ => ?_
    · exact Act.Triple.bind (Q := fun _ => Tracked env c.info.id past start)
        (Act.Triple.modify fun v hv => Answered.recorded hv) fun _ => Act.Triple.raise fun _ hv => hv
    · exact Act.Triple.bind (Q := fun _ => Tracked env c.info.id past start)
        (Act.Triple.modify fun v hv => Answered.recorded hv) fun _ => Act.Triple.pure fun _ hv => hv

end CcxtAdapter

/-! ## Runs -/

/-- The services keep what the calls of an exchange tell. -/
theorem keptByCalls_tracked (hinstalled : env.ccxt.installed = true) (hticks : env.Ticks) :
    KeptByCalls env (Tracked env x past start) where
  plain w w' hbreakers hlog h := h.of_unchanged (by rw [World.circuit, hbreakers, World.circuit]) hlog
  paper w accountId call h := h.logged rfl
  close w client returned h := h.logged (if_neg fun hclose => absurd hclose.2 (by decide))
  call c m hm := by
    by_cases hx : c.info.id = x
    · exact CcxtAdapter.call_tracked hx hinstalled hticks hm
    · exact CcxtAdapter.call_tracked_of_ne hx hinstalled m

/-- Serve a request, and list the calls of `x` it made. -/
def callsServed (x : String) (w : World) (request : Env × Operation) :
    List SequentialCall × World :=
  (callsTo request.1 x w.log ((serve w request).log.drop w.log.length), serve w request)

/-- The step: a request adds its calls to the history. -/
theorem callsServed_follows {request : Env × Operation}
    (hinstalled : request.1.ccxt.installed = true) (hticks : request.1.Ticks)
    (hpaced : Paced past) (h : CircuitBreaker.Follows 5 30 past (w.circuit x)) :
    Paced (past ++ (callsServed x w request).1) ∧
      CircuitBreaker.Follows 5 30 (past ++ (callsServed x w request).1)
        ((callsServed x w request).2.circuit x) := by
  have hstart : Tracked request.1 x past w.log w := by
    refine ⟨[], by simp, ?_, ?_⟩
    · simpa [callsTo] using hpaced
    · simpa [callsTo] using h
  obtain ⟨trace, htrace, hend⟩ := (keptByCalls_tracked hinstalled hticks).serve request.2 hstart
  have hcalls : (callsServed x w request).1 = callsTo request.1 x w.log trace := by
    show callsTo request.1 x w.log ((serve w request).log.drop w.log.length) = _
    rw [show (serve w request).log = w.log ++ trace from htrace, List.drop_left]
  rw [hcalls]
  exact hend

/-- The run, by induction on the requests. -/
theorem callsServed_run : ∀ (requests : List (Env × Operation)) (past : List SequentialCall)
    (w : World), (∀ request ∈ requests, request.1.ccxt.installed = true ∧ request.1.Ticks) →
    Paced past → CircuitBreaker.Follows 5 30 past (w.circuit x) →
    Paced (past ++ (outputs (callsServed x) w requests).flatten) ∧
      CircuitBreaker.Follows 5 30 (past ++ (outputs (callsServed x) w requests).flatten)
        ((requests.foldl serve w).circuit x) := by
  intro requests
  induction requests with
  | nil =>
    intro past w _ hpaced hfollows
    simpa [outputs] using ⟨hpaced, hfollows⟩
  | cons request requests ih =>
    intro past w henv hpaced hfollows
    obtain ⟨hinstalled, hticks⟩ := henv request List.mem_cons_self
    obtain ⟨hpaced', hfollows'⟩ := callsServed_follows hinstalled hticks hpaced hfollows
    rw [outputs, List.flatten_cons, ← List.append_assoc]
    exact ih _ _ (fun r hr => henv r (List.mem_cons_of_mem _ hr)) hpaced' hfollows'

/-- An exchange that fails is left alone, and no other. From a process that has made no call of the
    exchange yet, over every run of requests of any users: every call that reaches the exchange is
    made when fewer than five of its calls have failed since its last success, or its last failure
    is thirty seconds ago; and whether its circuit admits a call after the run depends on that
    alone, whatever the other exchanges did. -/
theorem failing_exchange_is_left_alone (x : String) (w : World) (hnew : w.circuit x = {})
    (requests : List (Env × Operation))
    (henv : ∀ request ∈ requests, request.1.ccxt.installed = true ∧ request.1.Ticks) :
    let history := (outputs (callsServed x) w requests).flatten
    (∀ before c after, history = before ++ c :: after → MayCall before c.start) ∧
      ∀ now, (((requests.foldl serve w).circuit x).canAttempt now).1 = true
        ↔ MayCall history now := by
  intro history
  obtain ⟨hpaced, hfollows⟩ := callsServed_run requests [] w henv Paced.nil
    (hnew ▸ CircuitBreaker.Follows.new (by decide))
  exact ⟨hpaced, fun now => hfollows.canAttempt_iff now⟩

/-- The market of one exchange is down; requests are served at the moment given. -/
def Env.down (exchangeId : String) (moment : ℚ) : Env :=
  { Env.quiet 100 "n" with
    clock := fun _ => moment
    ccxt :=
      { installed := true
        reply := fun log client m =>
          if client.exchangeId = exchangeId then .error ("NetworkError", "timed out")
          else (CcxtLibrary.quoting 100).reply log client m } }

/-- Six quotes of Kraken and one of Binance are asked for in a minute. -/
def outageRequests : List (Env × Operation) :=
  [0, 1, 2, 3, 4, 5].map (fun moment => (Env.down "kraken" moment, .ticker "kraken" "BTC/USDT"))
    ++ [(Env.down "kraken" 6, .ticker "binance" "BTC/USDT"),
      (Env.down "kraken" 40, .ticker "kraken" "BTC/USDT")]

/-- The sixth request does not reach Kraken, the one after the pause does. -/
theorem failing_exchange_sample :
    let w := World.boot {} ⟨[], [], [], []⟩
    let history := (outputs (callsServed "kraken") w outageRequests).flatten
    history.map (·.start) = [0, 1, 2, 3, 4, 40] ∧
      (∀ before c after, history = before ++ c :: after → MayCall before c.start) ∧
      ∀ now, (((outageRequests.foldl serve w).circuit "kraken").canAttempt now).1 = true
        ↔ MayCall history now := by
  intro w history
  refine ⟨by decide +kernel, failing_exchange_is_left_alone "kraken" w rfl outageRequests ?_⟩
  intro request hrequest
  simp only [outageRequests, List.map_cons, List.map_nil, List.cons_append, List.nil_append,
    List.mem_cons, List.not_mem_nil, or_false] at hrequest
  rcases hrequest with rfl | rfl | rfl | rfl | rfl | rfl | rfl | rfl <;>
    exact ⟨rfl, fun _ _ => le_refl _⟩

end TradingHub
