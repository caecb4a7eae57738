import TradingHub.Library.RelTriple
import TradingHub.Services.OwnRows

set_option autoImplicit false

/-! # A request next to itself on the user's rows

Only accounts and orders are queried by user; the ledger of an account is loaded and saved by the
account's id alone. One lemma for each operation of a user says that its runs on the tables and on
the user's rows of them (`Db.ofUser`) end alike, the tables being related by `Own` before and after:
all that is asked of them is `Db.Owned`.

The adapters never look at the tables, so whatever relates them is kept (`Beside`). A request that
raises may leave them in any state (`Anyhow`): the session is rolled back. -/

namespace TradingHub

open Library Library.Act PaperLedgerRepository

/-! ## Worlds that differ in their tables -/

/-- The worlds differ in their tables only, and these are related by `D`. -/
def Beside (D : Db → Db → Prop) (w w' : World) : Prop :=
  ∃ db', w' = { w with db := db' } ∧ D w.db db'

section Beside

variable {env : Env} {D S : Db → Db → Prop}

theorem Beside.mono {w w' : World} (h : Beside D w w') (hD : ∀ db db', D db db' → S db db') :
    Beside S w w' := by
  obtain ⟨db', rfl, hd⟩ := h
  exact ⟨db', rfl, hD _ _ hd⟩

/-- Whatever relates the tables. -/
abbrev Anyhow : Db → Db → Prop := fun _ _ => True

theorem Beside.anyhow {w w' : World} (h : Beside D w w') : Beside Anyhow w w' :=
  h.mono fun _ _ _ => trivial

/-- After a raise nothing is known of the tables. -/
theorem rel_of_keeps {α : Type} {x : Service α} (h : RelKeeps (Beside D) x) :
    RelTriple (Beside D) x x (fun _ => Beside D) (Beside Anyhow) :=
  h.conseq (fun _ _ h => h) (fun _ _ _ h => h) fun _ _ h => h.anyhow

/-- A change of the tables. -/
theorem modifyDb_rel (f : Db → Db) (h : ∀ db db', D db db' → S (f db) (f db')) :
    RelTriple (Beside D) (Act.modify fun w => { w with db := f w.db } : Service Unit)
      (Act.modify fun w => { w with db := f w.db }) (fun _ => Beside S) (Beside Anyhow) := by
  refine RelTriple.modify ?_
  rintro w _ ⟨db', rfl, hd⟩
  exact ⟨f db', rfl, h _ _ hd⟩

/-- A statement raises in both runs or in none; what it leaves if it raises is not known. -/
theorem execute_rel (st : Statement) :
    RelTriple (Beside D) (execute env st) (execute env st) (fun _ => Beside D) (Beside Anyhow) := by
  unfold execute
  split
  · exact RelTriple.pure fun _ _ h => h
  · exact RelTriple.bind (modifyDb_rel _ fun _ _ _ => trivial) fun _ => RelTriple.raise fun _ _ h => h

/-! ## The adapters do not look at the tables -/

namespace CcxtAdapter

variable {c : CcxtAdapter}

theorem invoke_beside (client : CcxtClient) (m : Method) :
    RelKeeps (Beside D) (invoke env client m) := by
  rintro w _ ⟨db', rfl, hd⟩
  rw [invoke_run, invoke_run]
  cases env.ccxt.reply w.log client m with
  | ok r => exact .returned ⟨db', rfl, hd⟩
  | error e => exact .raised ⟨db', rfl, hd⟩

theorem buildClient_beside : RelKeeps (Beside D) (c.buildClient env) := by
  unfold buildClient
  split
  · refine RelKeeps.bind (RelKeeps.modify ?_) fun _ => ?_
    · rintro w _ ⟨db', rfl, hd⟩
      exact ⟨db', rfl, hd⟩
    · split
      · exact RelKeeps.tryExcept (RelKeeps.bind (invoke_beside _ _) fun _ => RelKeeps.pure _)
          fun _ => RelKeeps.pure _
      · exact RelKeeps.pure _
  · exact RelKeeps.raise _

theorem getClient_beside : RelKeeps (Beside D) (c.getClient env) := by
  refine RelTriple.read_bind ?_
  rintro w _ ⟨db', rfl, -⟩
  simp only
  split
  · exact RelKeeps.pure _
  · refine RelKeeps.bind buildClient_beside fun client => ?_
    refine RelKeeps.bind (RelKeeps.modify ?_) fun _ => RelKeeps.pure _
    rintro w _ ⟨db', rfl, hd⟩
    exact ⟨db', rfl, hd⟩

theorem close_beside : RelKeeps (Beside D) (close env) := by
  refine RelTriple.read_bind ?_
  rintro w _ ⟨db', rfl, -⟩
  simp only
  split
  · exact RelKeeps.pure _
  · refine RelKeeps.bind (invoke_beside _ _) fun _ => RelKeeps.modify ?_
    rintro w _ ⟨db', rfl, hd⟩
    exact ⟨db', rfl, hd⟩

theorem breakerCall_beside {α : Type} {func : Service α} (h : RelKeeps (Beside D) func) :
    RelKeeps (Beside D) (c.breakerCall env func) := by
  have hset : ∀ f : World → CircuitBreaker, (∀ w db', f { w with db := db' } = f w) →
      RelKeeps (Beside D) (Act.modify fun w => c.setBreaker (f w) w : Service Unit) := by
    refine fun f hf => RelKeeps.modify ?_
    rintro w _ ⟨db', rfl, hd⟩
    exact ⟨db', by rw [hf]; rfl, hd⟩
  -- The breakers are shared by all users, and the same in both runs.
  refine RelTriple.read_bind ?_
  rintro w _ ⟨db', rfl, -⟩
  refine RelKeeps.bind (hset (fun _ => _) fun _ _ => rfl) fun _ => ?_
  show RelTriple (Beside D) (if _ then _ else _) (if _ then _ else _) _ _
  split
  · refine RelKeeps.bind (RelKeeps.tryExcept h fun e => ?_) fun _ => ?_
    · exact RelKeeps.bind (hset (fun w => (c.breakerOf w).recordFailure (env.clock w.log))
        fun _ _ => rfl) fun _ => RelKeeps.raise e
    · exact RelKeeps.bind (hset (fun w => (c.breakerOf w).recordSuccess) fun _ _ => rfl)
        fun _ => RelKeeps.pure _
  · exact RelKeeps.raise _

theorem call_beside (m : Method) : RelKeeps (Beside D) (c.call env m) :=
  RelKeeps.tryExcept (breakerCall_beside (RelKeeps.bind getClient_beside fun client =>
    invoke_beside client m)) fun _ => RelKeeps.raise _

/-- A call whose payload is parsed. -/
theorem parse_beside {m : Method} {α : Type} (parse : m.Reply → Except AppError α) :
    RelKeeps (Beside D) (do let raw ← c.call env m; Act.ofExcept (parse raw)) :=
  RelKeeps.bind (call_beside m) fun _ => RelKeeps.ofExcept _

theorem fetchTicker_beside (symbol : String) : RelKeeps (Beside D) (c.fetchTicker env symbol) :=
  RelKeeps.bind (call_beside _) fun _ => RelKeeps.pure _

theorem new_beside (exchangeId marketType : String) (credentials : Option ExchangeCredentials) :
    RelKeeps (Beside D) (CcxtAdapter.new exchangeId credentials marketType) := by
  unfold CcxtAdapter.new
  split
  · exact RelKeeps.raise _
  · refine RelKeeps.bind (RelKeeps.modify ?_) fun _ => RelKeeps.pure _
    rintro w _ ⟨db', rfl, hd⟩
    exact ⟨db', rfl, hd⟩

end CcxtAdapter

theorem onLedger_beside {α : Type} (x : Act AppError PaperLedger α) :
    RelKeeps (Beside D) (onLedger x) := by
  refine RelTriple.read_bind ?_
  rintro w _ ⟨db', rfl, -⟩
  simp only
  split
  · exact RelKeeps.raise _
  · next l _ =>
    rintro w _ ⟨db', rfl, hd⟩
    show EndAlike _ _ ((x l).1, _) ((x l).1, _)
    cases (x l).1 with
    | ok a => exact .returned ⟨db', rfl, hd⟩
    | error e => exact .raised ⟨db', rfl, hd⟩

theorem logPaper_beside (accountId : String) (call : PaperCall) :
    RelKeeps (Beside D) (logPaper accountId call) := by
  refine RelKeeps.modify ?_
  rintro w _ ⟨db', rfl, hd⟩
  exact ⟨db', rfl, hd⟩

namespace Adapter

variable (a : Adapter)

theorem fetchBalance_beside : RelKeeps (Beside D) (a.fetchBalance env) := by
  cases a with
  | paper accountId engine market => exact onLedger_beside _
  | live exchange => exact RelKeeps.bind (CcxtAdapter.call_beside _) fun _ => RelKeeps.pure _

theorem fetchPositions_beside : RelKeeps (Beside D) (a.fetchPositions env) := by
  cases a with
  | paper accountId engine market => exact RelKeeps.pure _
  | live exchange =>
    exact RelKeeps.bind (CcxtAdapter.call_beside _) fun _ =>
      RelKeeps.bind (RelKeeps.ofExcept _) fun _ => RelKeeps.pure _

theorem fetchOpenOrders_beside : RelKeeps (Beside D) (a.fetchOpenOrders env) := by
  cases a with
  | paper accountId engine market => exact onLedger_beside _
  | live exchange => exact CcxtAdapter.parse_beside _

theorem createOrder_beside (request : OrderRequest) :
    RelKeeps (Beside D) (a.createOrder env request) := by
  cases a with
  | paper accountId engine market =>
    refine RelKeeps.bind (CcxtAdapter.fetchTicker_beside _) fun _ => ?_
    refine RelKeeps.bind (logPaper_beside _ _) fun _ => ?_
    exact RelKeeps.bind (onLedger_beside _) fun _ => RelKeeps.pure _
  | live exchange => exact CcxtAdapter.parse_beside _

theorem cancelOrder_beside (orderId symbol : String) :
    RelKeeps (Beside D) (a.cancelOrder env orderId symbol) := by
  cases a with
  | paper accountId engine market =>
    refine RelKeeps.bind (logPaper_beside _ _) fun _ => ?_
    exact RelKeeps.bind (onLedger_beside _) fun _ => RelKeeps.pure _
  | live exchange => exact CcxtAdapter.parse_beside _

end Adapter

theorem publicMarketAdapter_beside (exchangeId : String) :
    RelKeeps (Beside D) (ExchangeFactory.publicMarketAdapter exchangeId) := by
  unfold ExchangeFactory.publicMarketAdapter
  split
  · exact CcxtAdapter.new_beside _ _ _
  · exact RelKeeps.raise _

theorem AccountService.buildAdapter_beside (account : ExchangeAccount) (ledger : Option PaperLedger) :
    RelKeeps (Beside D) (buildAdapter env account ledger) := by
  refine RelKeeps.bind (RelKeeps.ofExcept _) fun credentials => RelTriple.read_bind ?_
  rintro w _ ⟨db', rfl, -⟩
  simp only
  split
  · split
    · refine RelKeeps.bind (publicMarketAdapter_beside _) fun market => ?_
      refine RelKeeps.bind (RelKeeps.modify ?_) fun _ => RelKeeps.pure _
      rintro w _ ⟨db', rfl, hd⟩
      exact ⟨db', rfl, hd⟩
    · split
      · exact RelKeeps.raise _
      · split
        · exact RelKeeps.bind (CcxtAdapter.new_beside _ _ _) fun _ => RelKeeps.pure _
        · exact RelKeeps.raise _
  · exact RelKeeps.raise _

end Beside

/-! ## The rows of a user -/

/-- The statements that only read. -/
def Statement.isSelect : Statement → Bool
  | selectAccount => true
  | selectAccounts => true
  | selectOrder => true
  | selectOrders => true
  | selectBalances _ => true
  | selectOpenOrders _ => true
  | _ => false

/-- A `SELECT` that raises leaves the tables as they are. -/
def Env.SelectsRead (env : Env) : Prop :=
  ∀ st f, st.isSelect = true → env.fault st = some f → ∀ db, f.residue db = db

/-- `db'` holds the user's rows of `db`; the rows of the others are those of `start`. -/
structure Own (userId : String) (start db db' : Db) : Prop where
  own : db' = db.ofUser userId
  owned : db.Owned
  others : ∀ other, other ≠ userId → db.ofUser other = start.ofUser other

/-- The user is at work on an account of theirs. -/
structure OnAccount (userId : String) (start : Db) (account : ExchangeAccount) (db db' : Db) : Prop
    extends Own userId start db db' where
  mem : account ∈ db.accounts
  user : account.userId = userId

section Services

variable {env : Env} {userId : String} {start : Db} {account : ExchangeAccount}

theorem Own.write {db db' : Db} (h : Own userId start db db') {f : Db → Db}
    (hf : OwnWrite userId db f) : Own userId start (f db) (f db') where
  own := by rw [h.own, hf.own]
  owned := hf.owned
  others other hother := (hf.others other hother).trans (h.others other hother)

/-- A write that leaves the accounts as they are. -/
theorem OnAccount.write {db db' : Db} (h : OnAccount userId start account db db') {f : Db → Db}
    (hf : OwnWrite userId db f) (haccounts : (f db).accounts = db.accounts) :
    OnAccount userId start account (f db) (f db') :=
  ⟨h.toOwn.write hf, haccounts ▸ h.mem, h.user⟩

/-- The tables after the working copy has been saved. -/
theorem OnAccount.saved {db db' : Db} (h : OnAccount userId start account db db')
    (l : PaperLedger) :
    OnAccount userId start account (AccountService.savedDb account.id l db)
      (AccountService.savedDb account.id l db') := by
  have hsave := ownWrite_save h.owned h.mem l.balances
  rw [h.user] at hsave
  exact h.write hsave rfl

theorem execute_select {D : Db → Db → Prop} (hselects : env.SelectsRead) {st : Statement}
    (hst : st.isSelect = true) : RelKeeps (Beside D) (execute env st) := by
  unfold execute
  split
  · exact RelKeeps.pure _
  · next f hf =>
    refine RelKeeps.bind (RelKeeps.modify ?_) fun _ => RelKeeps.raise _
    rintro w _ ⟨db', rfl, hd⟩
    exact ⟨db', by rw [hselects st f hst hf db'], by rw [hselects st f hst hf w.db]; exact hd⟩

namespace AccountService

theorem getAccount_rel {D : Db → Db → Prop} (hselects : env.SelectsRead)
    (hD : ∀ db db', D db db' → Own userId start db db') (accountId : String) :
    RelTriple (Beside D) (getAccount env accountId userId) (getAccount env accountId userId)
      (fun account => Beside fun db db' => D db db' ∧ OnAccount userId start account db db')
      (Beside D) := by
  refine RelTriple.bind (execute_select hselects rfl) fun _ => RelTriple.read_bind_at ?_
  rintro w _ ⟨db', rfl, hd⟩
  have h := hD _ _ hd
  simp only [h.own, find?_accounts_ofUser]
  split
  · refine RelTriple.raise ?_
    rintro _ _ ⟨rfl, rfl⟩
    exact ⟨_, rfl, h.own ▸ hd⟩
  · next account hfind =>
    refine RelTriple.pure ?_
    rintro _ _ ⟨rfl, rfl⟩
    have hkey := List.find?_some hfind
    exact ⟨_, rfl, h.own ▸ hd, h.own ▸ h, List.mem_of_find?_eq_some hfind, (of_decide_eq_true hkey).2⟩

theorem getAccount_on (hselects : env.SelectsRead) (accountId : String) :
    RelTriple (Beside (Own userId start)) (getAccount env accountId userId)
      (getAccount env accountId userId) (fun account => Beside (OnAccount userId start account))
      (Beside Anyhow) :=
  (getAccount_rel hselects (fun _ _ h => h) accountId).conseq (fun _ _ h => h)
    (fun _ _ _ h => h.mono fun _ _ hd => hd.2) fun _ _ h => h.anyhow

/-- The accounts that are listed, each of them the user's. -/
theorem listAccounts_rel (hselects : env.SelectsRead) :
    RelTriple (Beside (Own userId start)) (listAccounts env userId) (listAccounts env userId)
      (fun accounts => Beside fun db db' => Own userId start db db' ∧
        ∀ account ∈ accounts, OnAccount userId start account db db') (Beside (Own userId start)) := by
  refine RelTriple.bind (execute_select hselects rfl) fun _ => RelTriple.read_bind_at ?_
  rintro w _ ⟨db', rfl, hd⟩
  simp only [hd.own, filter_accounts_ofUser]
  refine RelTriple.pure ?_
  rintro _ _ ⟨rfl, rfl⟩
  refine ⟨_, rfl, hd.own ▸ hd, fun account hmem => ?_⟩
  obtain ⟨hmem, huser⟩ := List.mem_filter.1 hmem
  exact ⟨hd.own ▸ hd, hmem, of_decide_eq_true huser⟩

theorem auditRecord_rel (detail : AuditDetail) :
    RelTriple (Beside (OnAccount userId start account)) (auditRecord env userId detail)
      (auditRecord env userId detail) (fun _ => Beside (OnAccount userId start account))
      (Beside Anyhow) :=
  RelTriple.bind (execute_rel _) fun _ =>
    modifyDb_rel (fun db => { db with audit := db.audit ++ [⟨some userId, detail⟩] })
      fun _ _ h => h.write (ownWrite_audit userId h.owned detail) rfl

/-- The ledger of the user's account is the same in both runs. -/
theorem loadPaperLedger_rel {D : Db → Db → Prop} (hselects : env.SelectsRead)
    (hD : ∀ db db', D db db' → OnAccount userId start account db db') :
    RelKeeps (Beside D) (loadPaperLedger env account) := by
  refine RelTriple.read_bind ?_
  rintro w _ ⟨db', rfl, -⟩
  simp only
  split
  · refine RelKeeps.bind ?_ fun _ => RelKeeps.pure _
    refine RelKeeps.bind (execute_select hselects rfl) fun _ => ?_
    refine RelKeeps.bind (execute_select hselects rfl) fun _ => RelTriple.read_bind ?_
    rintro w _ ⟨db', rfl, hd⟩
    have h := hD _ _ hd
    simp only [h.own]
    -- The rows are selected by the account's id; those it selects are the user's.
    rw [← h.user, ledgerOf_ofUser h.owned h.mem]
    exact RelKeeps.pure _
  · exact RelKeeps.pure _

/-- A session that only reads. -/
theorem adapterSession_read {D : Db → Db → Prop} {α : Type} (hselects : env.SelectsRead)
    (hD : ∀ db db', D db db' → OnAccount userId start account db db') {body : Adapter → Service α}
    (hbody : ∀ a, RelKeeps (Beside D) (body a)) :
    RelKeeps (Beside D) (adapterSession env account false body) := by
  refine RelKeeps.bind (loadPaperLedger_rel hselects hD) fun ledger => ?_
  refine RelKeeps.bind (buildAdapter_beside account ledger) fun a => ?_
  refine RelKeeps.tryFinally (hbody a) (RelKeeps.tryFinally ?_ CcxtAdapter.close_beside)
  refine RelTriple.read_bind fun _ _ _ => ?_
  simp only [Bool.false_and]
  exact RelKeeps.pure _

/-- The end of a session that saves. -/
theorem endSession_rel {D : Db → Db → Prop}
    (hD : ∀ l db db', D db db' → D (savedDb account.id l db) (savedDb account.id l db'))
    (loaded : Bool) (a : Adapter) :
    RelTriple (Beside D) (endSession env account true loaded a)
      (endSession env account true loaded a) (fun _ => Beside D) (Beside Anyhow) := by
  refine RelTriple.tryFinally (R := fun _ => Beside D) (F := Beside Anyhow) ?_
    (fun _ => rel_of_keeps CcxtAdapter.close_beside) CcxtAdapter.close_beside
  -- Whether there is anything to save depends on the working copy, which both runs share.
  refine RelTriple.read_bind ?_
  rintro w _ ⟨db', rfl, -⟩
  simp only
  split
  · next l _ _ =>
    refine RelTriple.bind (execute_rel _) fun _ => RelTriple.bind ?_ fun _ => execute_rel _
    exact modifyDb_rel (savedDb account.id l) (hD l)
  · exact RelTriple.pure fun _ _ h => h

/-- A session that saves. -/
theorem adapterSession_write {D : Db → Db → Prop} {α : Type} (hselects : env.SelectsRead)
    (hD : ∀ db db', D db db' → OnAccount userId start account db db') {body : Adapter → Service α}
    (hbody : ∀ a, RelTriple (Beside D) (body a) (body a)
      (fun _ => Beside (OnAccount userId start account)) (Beside Anyhow)) :
    RelTriple (Beside D) (adapterSession env account true body)
      (adapterSession env account true body) (fun _ => Beside (OnAccount userId start account))
      (Beside Anyhow) := by
  refine RelTriple.bind (rel_of_keeps (loadPaperLedger_rel hselects hD)) fun ledger => ?_
  refine RelTriple.bind (rel_of_keeps (buildAdapter_beside account ledger)) fun a => ?_
  -- A body that raised is saved as well, on tables of which nothing is known.
  exact RelTriple.tryFinally (hbody a) (fun _ => endSession_rel (fun l _ _ h => h.saved l) _ a)
    (endSession_rel (fun _ _ _ _ => trivial) _ a)

/-- `delete_account`. -/
theorem deleteAccount_rel (hselects : env.SelectsRead) (accountId : String) :
    RelTriple (Beside (Own userId start)) (deleteAccount env accountId userId)
      (deleteAccount env accountId userId) (fun _ => Beside (Own userId start))
      (Beside Anyhow) := by
  refine RelTriple.bind (getAccount_on hselects accountId) fun account => ?_
  refine RelTriple.bind (execute_rel _) fun _ => RelTriple.bind
    (modifyDb_rel (S := Own userId start) (Db.without account.id) fun db db' h => ?_) fun _ => ?_
  · have hdelete := ownWrite_delete h.owned h.mem
    rw [h.user] at hdelete
    exact h.toOwn.write hdelete
  · exact RelTriple.bind (execute_rel _) fun _ =>
      modifyDb_rel (fun db => { db with audit := db.audit ++ [⟨some userId, _⟩] })
        fun _ _ h => h.write (ownWrite_audit userId h.owned _)

end AccountService

/-! ## Trading -/

/-- No order of another user has the id. -/
def FreshFor (userId : String) (db : Db) (id : String) : Prop :=
  ∀ o ∈ db.orders, o.userId ≠ userId → o.id ≠ id

/-- An order id that no other user has is taken in both runs or in none. -/
theorem Own.any_orderId {db db' : Db} (h : Own userId start db db') {id : String}
    (hfresh : FreshFor userId start id) :
    db'.orders.any (fun o => o.id = id) = db.orders.any fun o => o.id = id := by
  rw [h.own, Bool.eq_iff_iff, List.any_eq_true, List.any_eq_true]
  constructor
  · rintro ⟨o, ho, hid⟩
    exact ⟨o, (List.mem_filter.1 ho).1, hid⟩
  · rintro ⟨o, ho, hid⟩
    refine ⟨o, List.mem_filter.2 ⟨ho, decide_eq_true ?_⟩, hid⟩
    by_contra huser
    -- An order of another user is one of those at the start.
    have hstart : o ∈ (start.ofUser o.userId).orders := by
      rw [← h.others _ huser]
      exact List.mem_filter.2 ⟨ho, decide_eq_true rfl⟩
    exact hfresh o (List.mem_filter.1 hstart).1 huser (of_decide_eq_true hid)

namespace TradingService

theorem quoteEquity_beside {D : Db → Db → Prop} (a : Adapter) (symbol : String) :
    RelKeeps (Beside D) (quoteEquity env a symbol) :=
  RelKeeps.bind (RelKeeps.tryExcept a.fetchBalance_beside fun _ => RelKeeps.pure _)
    fun _ => RelKeeps.pure _

theorem referencePrice_beside {D : Db → Db → Prop} (a : Adapter) (r : PlaceOrder) :
    RelKeeps (Beside D) (referencePrice env a r) := by
  unfold referencePrice
  split
  · exact RelKeeps.pure _
  · exact RelKeeps.bind (CcxtAdapter.fetchTicker_beside _) fun _ => RelKeeps.pure _

/-- The order is inserted in both runs, or its id is taken in both. -/
theorem persist_rel (hfresh : FreshFor userId start env.recordId) (order : Order (Option String)) :
    RelTriple (Beside (OnAccount userId start account)) (persist env userId account order)
      (persist env userId account order) (fun _ => Beside (OnAccount userId start account))
      (Beside Anyhow) := by
  refine RelTriple.bind (execute_rel _) fun _ => ?_
  split
  · exact RelTriple.raise fun _ _ h => h.anyhow
  · next symbol _ =>
    refine RelTriple.read_bind_at ?_
    rintro w _ ⟨db', rfl, hd⟩
    -- One run looks for the primary key in all rows, the other in the user's.
    have hany : db'.orders.any (fun o => o.id = (recordOf env userId account symbol order).id)
        = w.db.orders.any fun o => o.id = (recordOf env userId account symbol order).id :=
      hd.any_orderId hfresh
    simp only [hany]
    split
    · refine RelTriple.raise ?_
      rintro _ _ ⟨rfl, rfl⟩
      exact ⟨db', rfl, trivial⟩
    · next hnew =>
      refine RelTriple.bind (RelTriple.modify ?_) fun _ => RelTriple.pure fun _ _ h => h
      rintro _ _ ⟨rfl, rfl⟩
      have hinsert := ownWrite_insert hd.owned hd.mem
        (recordOf env userId account symbol order) hd.user.symm rfl fun o ho hid =>
          hnew (List.any_eq_true.2 ⟨o, ho, decide_eq_true hid⟩)
      rw [hd.user] at hinsert
      exact ⟨_, rfl, hd.write hinsert rfl⟩

theorem placeWith_rel {r : PlaceOrder} (hfresh : FreshFor r.userId start env.recordId)
    (limits : RiskLimits) (a : Adapter) :
    RelTriple (Beside (OnAccount r.userId start account)) (placeWith env limits r account a)
      (placeWith env limits r account a) (fun _ => Beside (OnAccount r.userId start account))
      (Beside Anyhow) := by
  refine RelTriple.bind (rel_of_keeps (referencePrice_beside a r)) fun refPrice => ?_
  refine RelTriple.bind (rel_of_keeps (quoteEquity_beside a r.symbol)) fun equity => ?_
  refine RelTriple.bind (rel_of_keeps (RelKeeps.ofExcept _)) fun _ => ?_
  refine RelTriple.bind (rel_of_keeps (a.createOrder_beside _)) fun order => ?_
  refine RelTriple.bind (persist_rel hfresh order) fun record => ?_
  exact RelTriple.bind (AccountService.auditRecord_rel _) fun _ => RelTriple.pure fun _ _ h => h

/-- `place_order`. -/
theorem placeOrder_rel {r : PlaceOrder} (hselects : env.SelectsRead)
    (hfresh : FreshFor r.userId start env.recordId) (limits : RiskLimits) :
    RelTriple (Beside (Own r.userId start)) (placeOrder env limits r) (placeOrder env limits r)
      (fun _ => Beside (Own r.userId start)) (Beside Anyhow) := by
  refine RelTriple.bind (AccountService.getAccount_on hselects _) fun account => ?_
  exact (AccountService.adapterSession_write hselects (fun _ _ h => h)
    fun a => placeWith_rel hfresh limits a).conseq (fun _ _ h => h)
    (fun _ _ _ h => h.mono fun _ _ hd => hd.toOwn) fun _ _ h => h

/-- The user is at work on an order of theirs. -/
structure OnOrder (userId : String) (start : Db) (record : OrderRecord) (db db' : Db) : Prop
    extends Own userId start db db' where
  mem : record ∈ db.orders
  user : record.userId = userId

theorem getOrder_rel (hselects : env.SelectsRead) (orderId : String) :
    RelTriple (Beside (Own userId start)) (getOrder env userId orderId)
      (getOrder env userId orderId) (fun record => Beside (OnOrder userId start record))
      (Beside (Own userId start)) := by
  refine RelTriple.bind (execute_select hselects rfl) fun _ => RelTriple.read_bind_at ?_
  rintro w _ ⟨db', rfl, hd⟩
  simp only [hd.own, find?_orders_ofUser]
  split
  · refine RelTriple.raise ?_
    rintro _ _ ⟨rfl, rfl⟩
    exact ⟨_, rfl, hd.own ▸ hd⟩
  · next record hfind =>
    refine RelTriple.pure ?_
    rintro _ _ ⟨rfl, rfl⟩
    have hkey := List.find?_some hfind
    exact ⟨_, rfl, hd.own ▸ hd, List.mem_of_find?_eq_some hfind, (of_decide_eq_true hkey).2⟩

theorem cancelStatus_beside {D : Db → Db → Prop} (record : OrderRecord) (a : Adapter) :
    RelKeeps (Beside D) (cancelStatus env record a) := by
  unfold cancelStatus
  split
  · exact RelKeeps.pure _
  · split
    · exact RelKeeps.pure _
    · refine RelKeeps.tryExcept (RelKeeps.bind (a.cancelOrder_beside _ _) fun _ => RelKeeps.pure _)
        fun e => ?_
      split
      · exact RelKeeps.pure _
      · exact RelKeeps.raise e

theorem cancelWith_rel (record : OrderRecord) (a : Adapter) :
    RelTriple (Beside fun db db' => OnOrder userId start record db db' ∧
        OnAccount userId start account db db') (cancelWith env userId record a)
      (cancelWith env userId record a) (fun _ => Beside (OnAccount userId start account))
      (Beside Anyhow) := by
  refine RelTriple.bind (rel_of_keeps (cancelStatus_beside record a)) fun status => ?_
  refine RelTriple.bind (execute_rel _) fun _ => RelTriple.bind
    (modifyDb_rel (S := OnAccount userId start account) (fun db =>
      { db with orders := setStatus record.id status db.orders }) fun db db' h => ?_) fun _ => ?_
  · have hstatus := ownWrite_setStatus h.1.owned h.1.mem status
    rw [h.1.user] at hstatus
    exact h.2.write hstatus rfl
  · exact RelTriple.bind (AccountService.auditRecord_rel _) fun _ => RelTriple.pure fun _ _ h => h

/-- `cancel_order`. -/
theorem cancelOrder_rel (hselects : env.SelectsRead) (orderId : String) :
    RelTriple (Beside (Own userId start)) (cancelOrder env userId orderId)
      (cancelOrder env userId orderId) (fun _ => Beside (Own userId start)) (Beside Anyhow) := by
  refine RelTriple.bind (Q := fun record => Beside (OnOrder userId start record))
    ((getOrder_rel hselects orderId).conseq (fun _ _ h => h) (fun _ _ _ h => h)
      fun _ _ h => h.anyhow) fun record => ?_
  split
  · exact RelTriple.pure fun _ _ h => h.mono fun _ _ hd => hd.toOwn
  · refine RelTriple.bind ((AccountService.getAccount_rel hselects (fun _ _ h => h.toOwn) _).conseq
      (fun _ _ h => h) (fun _ _ _ h => h) fun _ _ h => h.anyhow) fun account => ?_
    exact (AccountService.adapterSession_write hselects (fun _ _ h => h.2)
      fun a => cancelWith_rel record a).conseq (fun _ _ h => h)
      (fun _ _ _ h => h.mono fun _ _ hd => hd.toOwn) fun _ _ h => h

/-- A read of an account through its adapter. -/
theorem accountRead_rel {α : Type} (hselects : env.SelectsRead) (accountId : String)
    {body : Adapter → Service α} (hbody : ∀ D a, RelKeeps (Beside D) (body a)) :
    RelTriple (Beside (Own userId start))
      (do let account ← AccountService.getAccount env accountId userId
          AccountService.adapterSession env account false body)
      (do let account ← AccountService.getAccount env accountId userId
          AccountService.adapterSession env account false body)
      (fun _ => Beside (Own userId start)) (Beside Anyhow) := by
  refine RelTriple.bind (AccountService.getAccount_on hselects _) fun account => ?_
  exact (AccountService.adapterSession_read hselects (fun _ _ h => h) (hbody _)).conseq
    (fun _ _ h => h) (fun _ _ _ h => h.mono fun _ _ hd => hd.toOwn) fun _ _ h => h.anyhow

/-- `list_orders`. -/
theorem listOrders_rel (hselects : env.SelectsRead) (symbol status : Option String)
    (page pageSize : ℕ) :
    RelKeeps (Beside (Own userId start)) (listOrders env userId symbol status page pageSize) := by
  refine RelKeeps.bind (execute_select hselects rfl) fun _ => RelTriple.read_bind ?_
  rintro w _ ⟨db', rfl, hd⟩
  simp only [hd.own, filter_listed_ofUser]
  exact RelKeeps.pure _

end TradingService

/-! ## Portfolio -/

namespace PortfolioService

/-- The accounts are aggregated one by one; the rows do not change on the way. -/
theorem aggregateFrom_rel (hselects : env.SelectsRead) {D : Db → Db → Prop} :
    ∀ (accounts : List ExchangeAccount) (totals : Dict String Balance),
      (∀ db db', D db db' → ∀ account ∈ accounts, OnAccount userId start account db db') →
      RelKeeps (Beside D) (aggregateFrom env totals accounts) := by
  intro accounts
  induction accounts with
  | nil => exact fun _ _ => RelKeeps.pure _
  | cons account rest ih =>
    intro totals hD
    -- An account that cannot be read is skipped, so a raise has to keep the relation too.
    refine RelKeeps.bind (RelKeeps.tryExcept ?_ fun _ => RelKeeps.pure _) fun balances =>
      ih _ fun db db' hd a ha => hD db db' hd a (List.mem_cons_of_mem _ ha)
    exact AccountService.adapterSession_read hselects
      (fun db db' hd => hD db db' hd account List.mem_cons_self) fun a => a.fetchBalance_beside

/-- `aggregate_balances`. -/
theorem aggregateBalances_rel (hselects : env.SelectsRead) :
    RelTriple (Beside (Own userId start)) (aggregateBalances env userId)
      (aggregateBalances env userId) (fun _ => Beside (Own userId start)) (Beside Anyhow) := by
  refine RelTriple.bind ((AccountService.listAccounts_rel hselects).conseq (fun _ _ h => h)
    (fun _ _ _ h => h) fun _ _ h => h.anyhow) fun accounts => ?_
  exact (aggregateFrom_rel hselects accounts _ fun _ _ hd => hd.2).conseq (fun _ _ h => h)
    (fun _ _ _ h => h.mono fun _ _ hd => hd.1) fun _ _ h => h.anyhow

end PortfolioService

end Services

end TradingHub
