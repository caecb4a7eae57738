import TradingHub.Core.Resilience
import TradingHub.Exchange.Client

set_option autoImplicit false

/-! # The server: settings, database, trace

The state the services work on and the inputs one request receives.

* `Db` holds the tables as the session of a request sees them. A request works on this view;
  `getSession` keeps it on a normal return and puts the old one back on an exception.
* `World` adds what a process holds outside the database: its settings, the shared circuit
  breakers, the trace of calls, and the two objects that live as long as one adapter session, the
  paper ledger and the lazily built ccxt client.
* `Env` is what is decided outside the program for one request: the exchanges' answers, the
  clock, fresh identifiers, the cipher, and which database statements raise. -/

namespace TradingHub

open Library

/-! ## Tables -/

structure ExchangeAccount where
  id : String
  userId : String
  exchangeId : String
  label : String
  marketType : String
  isPaper : Bool
  apiKeyEnc : Option String
  apiSecretEnc : Option String
  passphraseEnc : Option String
deriving DecidableEq, Repr

structure OrderRecord where
  id : String
  userId : String
  accountId : String
  exchangeOrderId : Option String
  clientOrderId : Option String
  symbol : String
  side : OrderSide
  type : OrderType
  status : OrderStatus
  amount : ℚ
  filled : ℚ
  price : Option ℚ
  average : Option ℚ
  fee : ℚ
  isPaper : Bool
deriving DecidableEq, Repr

structure PaperBalanceRecord where
  accountId : String
  asset : String
  free : ℚ
  used : ℚ
deriving DecidableEq, Repr

/-- The structured context of an audit row, by action. -/
inductive AuditDetail
  | orderPlace (account symbol : String) (side : OrderSide) (type : OrderType) (paper : Bool)
      (status : OrderStatus)
  | orderCancel (account order : String)
  | accountCreate (paper : Bool) (exchange label : String)
  | accountDelete (id : String)
deriving DecidableEq, Repr

structure AuditLog where
  userId : Option String
  detail : AuditDetail
deriving DecidableEq, Repr

/-- The tables, rows in insertion order. -/
structure Db where
  accounts : List ExchangeAccount
  orders : List OrderRecord
  balances : List PaperBalanceRecord
  audit : List AuditLog
deriving DecidableEq, Repr

/-! ## Statements that can fail -/

/-- The database statements of the services. -/
inductive Statement
  | selectAccount
  | selectAccounts
  | selectOrder
  | selectOrders
  | selectBalances (accountId : String)
  | selectOpenOrders (accountId : String)
  | insertOrder
  | updateOrder
  | insertAudit
  | saveSelect
  | saveFlush
  | insertAccount
  | deleteAccount
  | commit
deriving DecidableEq, Repr

/-- A statement that raises: the exception, and what the statement had already done to the
    session's view of the tables. -/
structure Fault where
  error : AppError
  residue : Db → Db

/-! ## The state and the inputs of a request -/

structure Settings where
  allowLiveTrading : Bool := false
  useExchangeTestnet : Bool := true
deriving DecidableEq, Repr

structure World where
  settings : Settings
  db : Db
  /-- The working copy of the adapter session in progress. -/
  ledger : Option PaperLedger
  /-- The client of the adapter in use, once it has been built. -/
  client : Option CcxtClient
  breakers : Dict String CircuitBreaker
  log : List Event

structure SecretCipher where
  encrypt : String → String
  decrypt : String → Except AppError String

structure Env where
  ccxt : CcxtLibrary
  cipher : SecretCipher
  fault : Statement → Option Fault
  clock : List Event → ℚ
  /-- The hexadecimal digits of the identifiers drawn: `_new_order_id`, `new_client_order_id`, and
      the primary key of an inserted order or account. -/
  orderHex : String
  clientOrderHex : String
  recordId : String

/-- An action of the server. -/
abbrev Service (α : Type) : Type := Act AppError World α

/-- Execute a statement, or raise what it raises. Which ones raise is up to the environment: where a
    failing statement aborts the transaction, as on PostgreSQL, those after it raise too. -/
def execute (env : Env) (st : Statement) : Service Unit :=
  match env.fault st with
  | none => pure ()
  | some f => do
    Act.modify fun w => { w with db := f.residue w.db }
    Act.raise f.error

/-- A statement that returns changes nothing by itself; one that raises leaves its residue. -/
theorem execute_triple {env : Env} {st : Statement} {P : World → Prop}
    {E : AppError → World → Prop}
    (hE : ∀ f w, env.fault st = some f → P w → E f.error { w with db := f.residue w.db }) :
    Act.Triple P (execute env st) (fun _ => P) E := by
  unfold execute
  split
  · exact Act.Triple.pure fun _ hw => hw
  · next f hf => exact fun w hw => hE f w hf hw

@[simp] theorem execute_eq_ok {env : Env} {st : Statement} {w w' : World} {u : Unit} :
    execute env st w = (.ok u, w') ↔ env.fault st = none ∧ w = w' := by
  unfold execute
  cases env.fault st with
  | none => simp
  | some f => simp [Act.bind_eq_ok]

/-- `get_session`, the unit of work of a request: commit when the handler returns, roll back when
    it raises. A commit that raises leaves the tables as they were. -/
def getSession {α : Type} (env : Env) (handler : Service α) : Service α := fun w =>
  match handler w with
  | (.ok a, w') =>
    match env.fault .commit with
    | none => (.ok a, w')
    | some f => (.error f.error, { w' with db := w.db })
  | (.error e, w') => (.error e, { w' with db := w.db })

/-- A request either commits the world its handler returned in, or leaves the tables alone. -/
theorem getSession_cases {α : Type} (env : Env) (handler : Service α) (w : World) :
    (∃ a w', handler w = (.ok a, w') ∧ getSession env handler w = (.ok a, w')) ∨
      ∃ e w', getSession env handler w = (.error e, w') ∧ w'.db = w.db := by
  unfold getSession
  rcases hr : handler w with ⟨e | a, w'⟩
  · exact Or.inr ⟨e, _, rfl, rfl⟩
  · cases env.fault .commit with
    | none => exact Or.inl ⟨a, w', rfl, rfl⟩
    | some f => exact Or.inr ⟨f.error, _, rfl, rfl⟩

theorem getSession_eq_ok {α : Type} {env : Env} {handler : Service α} {a : α} {w w' : World}
    (h : getSession env handler w = (.ok a, w')) : handler w = (.ok a, w') := by
  obtain ⟨b, w₁, hrun, hserve⟩ | ⟨e, w₁, hserve, -⟩ := getSession_cases env handler w
  · rw [hrun, ← hserve, h]
  · rw [hserve] at h
    exact absurd (congrArg Prod.fst h) (by simp)

end TradingHub
