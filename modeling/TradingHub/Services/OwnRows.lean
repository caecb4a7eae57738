import TradingHub.Services.TerminalStatuses

set_option autoImplicit false

/-! # The rows of a user

Accounts and orders carry a user, balance rows only an account. `Db.Owned` is what makes the rows
of an account rows of its user: an order belongs to the user of its account, and a balance row to
an account there is. On owned tables, what a query by account finds it also finds among the rows of
the account's user (`Db.ofUser`), and a write to them (`OwnWrite`) is a write there and nowhere
else. -/

namespace TradingHub

open Library PaperLedgerRepository TradingService

/-! ## Owned tables -/

namespace Db

/-- The account is one of the user's. -/
def holds (db : Db) (userId accountId : String) : Bool :=
  db.accounts.any fun a => a.id = accountId ∧ a.userId = userId

/-- The rows of a user: the user's accounts, orders and audit rows, and the balances of the
    accounts. -/
def ofUser (userId : String) (db : Db) : Db :=
  { accounts := db.accounts.filter (·.userId = userId)
    orders := db.orders.filter (·.userId = userId)
    balances := db.balances.filter (db.holds userId ·.accountId)
    audit := db.audit.filter (·.userId = some userId) }

/-- Ids are primary keys; an order belongs to the user of its account, and a balance row to an
    account. -/
structure Owned (db : Db) : Prop where
  accountIds : (db.accounts.map (·.id)).Nodup
  orderIds : db.DistinctIds
  order : ∀ o ∈ db.orders, ∃ a ∈ db.accounts, a.id = o.accountId ∧ a.userId = o.userId
  balance : ∀ b ∈ db.balances, ∃ a ∈ db.accounts, a.id = b.accountId

theorem holds_iff {db : Db} {userId accountId : String} :
    db.holds userId accountId = true ↔ ∃ a ∈ db.accounts, a.id = accountId ∧ a.userId = userId := by
  simp [holds]

end Db

namespace Db.Owned

variable {db : Db} {account : ExchangeAccount} {userId other : String}

theorem empty : Owned ⟨[], [], [], []⟩ where
  accountIds := List.nodup_nil
  orderIds := List.nodup_nil
  order := by simp
  balance := by simp

theorem account_inj (h : db.Owned) {a a' : ExchangeAccount} (ha : a ∈ db.accounts)
    (ha' : a' ∈ db.accounts) (hid : a.id = a'.id) : a = a' :=
  List.inj_on_of_nodup_map h.accountIds ha ha' hid

/-- An order of an account is the account's user's. -/
theorem order_user (h : db.Owned) (hacc : account ∈ db.accounts) {o : OrderRecord}
    (ho : o ∈ db.orders) (hid : o.accountId = account.id) : o.userId = account.userId := by
  obtain ⟨a, ha, haid, huser⟩ := h.order o ho
  rw [← huser, h.account_inj ha hacc (haid.trans hid)]

/-- Another user does not hold the account. -/
theorem not_holds (h : db.Owned) (hacc : account ∈ db.accounts) (hother : other ≠ account.userId) :
    db.holds other account.id = false := by
  rw [Bool.eq_false_iff, ne_eq, holds_iff]
  rintro ⟨a, ha, hid, huser⟩
  exact hother (huser.symm.trans (congrArg ExchangeAccount.userId (h.account_inj ha hacc hid)))

end Db.Owned

theorem Db.holds_self {db : Db} {account : ExchangeAccount} (hacc : account ∈ db.accounts) :
    db.holds account.userId account.id = true :=
  Db.holds_iff.2 ⟨account, hacc, rfl, rfl⟩

/-! ## Queries -/

section Queries

variable {db : Db} {account : ExchangeAccount} {userId : String}

theorem find?_accounts_ofUser (db : Db) (accountId userId : String) :
    (db.ofUser userId).accounts.find? (fun a => a.id = accountId ∧ a.userId = userId)
      = db.accounts.find? (fun a => a.id = accountId ∧ a.userId = userId) := by
  unfold Db.ofUser
  rw [List.find?_filter]
  refine congrArg (List.find? · db.accounts) (funext fun a => ?_)
  by_cases huser : a.userId = userId <;> simp [huser]

theorem find?_orders_ofUser (db : Db) (orderId userId : String) :
    (db.ofUser userId).orders.find? (fun o => o.id = orderId ∧ o.userId = userId)
      = db.orders.find? (fun o => o.id = orderId ∧ o.userId = userId) := by
  unfold Db.ofUser
  rw [List.find?_filter]
  refine congrArg (List.find? · db.orders) (funext fun o => ?_)
  by_cases huser : o.userId = userId <;> simp [huser]

theorem filter_accounts_ofUser (db : Db) (userId : String) :
    (db.ofUser userId).accounts.filter (·.userId = userId)
      = db.accounts.filter (·.userId = userId) := by
  unfold Db.ofUser
  rw [List.filter_filter]
  simp

theorem filter_listed_ofUser (db : Db) (userId : String) (symbol status : Option String) :
    (db.ofUser userId).orders.filter (listed userId symbol status)
      = db.orders.filter (listed userId symbol status) := by
  unfold Db.ofUser
  rw [List.filter_filter]
  refine List.filter_congr fun o _ => ?_
  by_cases huser : o.userId = userId <;> simp [listed, huser]

/-- The ledger of an account, loaded from its user's rows. -/
theorem ledgerOf_ofUser (h : db.Owned) (hacc : account ∈ db.accounts) :
    ledgerOf account.id (db.ofUser account.userId) = ledgerOf account.id db := by
  have hbalances : (db.ofUser account.userId).balances.filter (·.accountId = account.id)
      = db.balances.filter (·.accountId = account.id) := by
    unfold Db.ofUser
    rw [List.filter_filter]
    refine List.filter_congr fun b _ => ?_
    by_cases hid : b.accountId = account.id
    · simp [hid, Db.holds_self hacc]
    · simp [hid]
  have horders : (db.ofUser account.userId).orders.filter (isOpenPaper account.id)
      = db.orders.filter (isOpenPaper account.id) := by
    unfold Db.ofUser
    rw [List.filter_filter]
    refine List.filter_congr fun o ho => ?_
    by_cases hopen : isOpenPaper account.id o = true
    · simp [hopen, h.order_user hacc ho (of_decide_eq_true hopen).1]
    · simp [hopen]
  unfold ledgerOf balancesOf loadOpenOrders
  rw [hbalances, horders]

end Queries

/-! ## Writes -/

/-- `f` is a write of the user to the tables `db`: it does to the user's rows what it does to all of
    them, leaves the rows of the others alone and the tables owned. -/
structure OwnWrite (userId : String) (db : Db) (f : Db → Db) : Prop where
  own : (f db).ofUser userId = f (db.ofUser userId)
  others : ∀ other, other ≠ userId → (f db).ofUser other = db.ofUser other
  owned : (f db).Owned

/-- Rows that are added for a user. -/
theorem filter_append_own {γ : Type} (p : γ → Bool) (rows : List γ) {row : γ} (h : p row = true) :
    (rows ++ [row]).filter p = rows.filter p ++ [row] := by
  simp [h]

theorem filter_append_other {γ : Type} (p : γ → Bool) (rows : List γ) {row : γ}
    (h : p row = false) : (rows ++ [row]).filter p = rows.filter p := by
  simp [h]

/-- `AuditRepository.record`. -/
theorem ownWrite_audit {db : Db} (userId : String) (h : db.Owned) (detail : AuditDetail) :
    OwnWrite userId db fun db => { db with audit := db.audit ++ [⟨some userId, detail⟩] } where
  own := by
    unfold Db.ofUser
    rw [filter_append_own _ _ (by simp)]
    rfl
  others other hother := by
    unfold Db.ofUser
    rw [filter_append_other _ _ (by simpa using Ne.symm hother)]
    rfl
  owned := ⟨h.accountIds, h.orderIds, h.order, h.balance⟩

/-- An order is inserted, of an account of the user and under a new id. -/
theorem ownWrite_insert {db : Db} {account : ExchangeAccount} (h : db.Owned)
    (hacc : account ∈ db.accounts) (record : OrderRecord) (huser : record.userId = account.userId)
    (hid : record.accountId = account.id) (hfresh : ∀ o ∈ db.orders, o.id ≠ record.id) :
    OwnWrite account.userId db fun db => { db with orders := db.orders ++ [record] } where
  own := by
    unfold Db.ofUser
    rw [filter_append_own _ _ (by simpa using huser)]
    rfl
  others other hother := by
    unfold Db.ofUser
    rw [filter_append_other _ _ (by simpa [huser] using Ne.symm hother)]
    rfl
  owned := by
    refine ⟨h.accountIds, nodup_map_concat h.orderIds hfresh, fun o ho => ?_, h.balance⟩
    · rcases List.mem_append.1 ho with ho | ho
      · exact h.order o ho
      · rw [List.mem_singleton.1 ho]
        exact ⟨account, hacc, hid.symm, huser.symm⟩

theorem filter_setStatus (p : OrderRecord → Bool) (hp : ∀ o status, p { o with status } = p o)
    (orderId : String) (status : OrderStatus) (orders : List OrderRecord) :
    (setStatus orderId status orders).filter p = setStatus orderId status (orders.filter p) := by
  unfold setStatus
  rw [List.filter_map]
  refine congrArg (List.map _) (List.filter_congr fun o _ => ?_)
  simp only [Function.comp_apply]
  split
  · exact hp o status
  · rfl

/-- A status is written to an order of the user. -/
theorem ownWrite_setStatus {db : Db} (h : db.Owned) {record : OrderRecord}
    (hmem : record ∈ db.orders) (status : OrderStatus) :
    OwnWrite record.userId db fun db =>
      { db with orders := setStatus record.id status db.orders } where
  own := by
    unfold Db.ofUser
    rw [filter_setStatus _ (fun _ _ => rfl)]
    rfl
  others other hother := by
    have hsame : setStatus record.id status (db.orders.filter (·.userId = other))
        = db.orders.filter (·.userId = other) := by
      -- The id is a primary key, so no row of another user has it.
      refine (List.map_congr_left fun o ho => if_neg fun hid => ?_).trans (List.map_id' _)
      obtain ⟨ho, huser⟩ := List.mem_filter.1 ho
      rw [List.inj_on_of_nodup_map h.orderIds ho hmem hid] at huser
      exact hother (of_decide_eq_true huser).symm
    unfold Db.ofUser
    rw [filter_setStatus _ (fun _ _ => rfl), hsame]
    rfl
  owned := by
    refine ⟨h.accountIds, ?_, fun o ho => ?_, h.balance⟩
    · show ((setStatus record.id status db.orders).map (·.id)).Nodup
      rw [map_id_setStatus]
      exact h.orderIds
    · obtain ⟨o₀, ho₀, rfl⟩ := List.mem_map.1 ho
      obtain ⟨a, ha, hid, huser⟩ := h.order o₀ ho₀
      refine ⟨a, ha, ?_⟩
      split <;> exact ⟨hid, huser⟩

/-- Upserting rows of an account among those of the accounts `p`, which is one of them. -/
theorem filter_saveRows_own {p : String → Bool} {accountId : String} (hp : p accountId = true)
    (balances : Dict String Balance) (rows : List PaperBalanceRecord) :
    (saveRows accountId balances rows).filter (p ·.accountId)
      = saveRows accountId balances (rows.filter (p ·.accountId)) := by
  unfold saveRows
  induction balances.entries generalizing rows with
  | nil => rfl
  | cons e entries ih =>
    rw [List.foldl_cons, List.foldl_cons, ih]
    refine congrArg (List.foldl (upsertRow accountId) · entries) ?_
    -- The filter does not hide a row that the upsert looks for.
    have hany : (rows.filter (p ·.accountId)).any
        (fun r => r.accountId = accountId ∧ r.asset = e.1)
          = rows.any fun r => r.accountId = accountId ∧ r.asset = e.1 := by
      rw [List.any_filter]
      refine congrArg (List.any rows) (funext fun r => ?_)
      by_cases hid : r.accountId = accountId
      · simp [hid, hp]
      · simp [hid]
    unfold upsertRow
    rw [hany]
    split
    · rw [List.filter_map]
      refine congrArg (List.map _) (List.filter_congr fun r _ => ?_)
      simp only [Function.comp_apply]
      split <;> rfl
    · exact filter_append_own _ _ hp

/-- Upserting rows of an account does not concern the rows of other accounts. -/
theorem filter_saveRows_other {p : String → Bool} {accountId : String} (hp : p accountId = false)
    (balances : Dict String Balance) (rows : List PaperBalanceRecord) :
    (saveRows accountId balances rows).filter (p ·.accountId) = rows.filter (p ·.accountId) := by
  unfold saveRows
  induction balances.entries generalizing rows with
  | nil => rfl
  | cons e entries ih =>
    rw [List.foldl_cons, ih]
    unfold upsertRow
    split
    · rw [List.filter_map]
      have hfilter : rows.filter ((p ·.accountId) ∘ fun r : PaperBalanceRecord =>
          if r.accountId = accountId ∧ r.asset = e.1 then
            { r with free := e.2.free, used := e.2.used } else r)
            = rows.filter (p ·.accountId) := by
        refine List.filter_congr fun r _ => ?_
        simp only [Function.comp_apply]
        split <;> rfl
      rw [hfilter]
      refine (List.map_congr_left fun r hr => if_neg fun hkey => ?_).trans (List.map_id' _)
      have hr := (List.mem_filter.1 hr).2
      rw [hkey.1, hp] at hr
      exact absurd hr (by simp)
    · exact filter_append_other _ _ hp

/-- After a save every row is one of the account, or was there. -/
theorem mem_saveRows {accountId : String} {balances : Dict String Balance}
    {rows : List PaperBalanceRecord} {b : PaperBalanceRecord}
    (hb : b ∈ saveRows accountId balances rows) :
    b.accountId = accountId ∨ b ∈ rows := by
  by_contra hno
  obtain ⟨hacc, hold⟩ := not_or.1 hno
  have hmem : b ∈ (saveRows accountId balances rows).filter (decide <| ·.accountId ≠ accountId) :=
    List.mem_filter.2 ⟨hb, by simpa using hacc⟩
  rw [filter_saveRows_other (p := fun id => decide (id ≠ accountId)) (by simp)] at hmem
  exact hold (List.mem_filter.1 hmem).1

/-- The balances of an account of the user are saved. -/
theorem ownWrite_save {db : Db} {account : ExchangeAccount} (h : db.Owned)
    (hacc : account ∈ db.accounts) (balances : Dict String Balance) :
    OwnWrite account.userId db fun db =>
      { db with balances := saveRows account.id balances db.balances } where
  own := by
    have hsave := filter_saveRows_own (p := db.holds account.userId) (Db.holds_self hacc) balances
      db.balances
    unfold Db.ofUser
    exact congrArg (Db.mk _ _ · _) hsave
  others other hother := by
    have hsave := filter_saveRows_other (p := db.holds other) (h.not_holds hacc hother) balances
      db.balances
    unfold Db.ofUser
    exact congrArg (Db.mk _ _ · _) hsave
  owned := by
    refine ⟨h.accountIds, h.orderIds, h.order, fun b hb => ?_⟩
    rcases mem_saveRows hb with hid | hb
    · exact ⟨account, hacc, hid.symm⟩
    · exact h.balance b hb

/-- The tables without an account; the foreign keys of orders and balances cascade. -/
def Db.without (accountId : String) (db : Db) : Db :=
  { db with
    accounts := db.accounts.filter (·.id ≠ accountId)
    orders := db.orders.filter (·.accountId ≠ accountId)
    balances := db.balances.filter (·.accountId ≠ accountId) }

theorem Db.holds_without {db : Db} {userId accountId other : String} (h : accountId ≠ other) :
    (db.without other).holds userId accountId = db.holds userId accountId := by
  rw [Bool.eq_iff_iff, holds_iff, holds_iff]
  constructor
  · rintro ⟨a, ha, hkey⟩
    exact ⟨a, (List.mem_filter.1 ha).1, hkey⟩
  · rintro ⟨a, ha, hid, huser⟩
    exact ⟨a, List.mem_filter.2 ⟨ha, by simpa [hid] using h⟩, hid, huser⟩

/-- A filter that the rows of another filter pass anyway. -/
theorem filter_filter_of_imp {γ : Type} {p q : γ → Bool} {rows : List γ}
    (h : ∀ r ∈ rows, p r = true → q r = true) : (rows.filter q).filter p = rows.filter p := by
  rw [List.filter_filter]
  refine List.filter_congr fun r hr => ?_
  cases hp : p r with
  | false => rfl
  | true => rw [h r hr hp, Bool.and_self]

/-- The balances of a user's accounts, after an account has been deleted. -/
theorem filter_holds_without (db : Db) (userId accountId : String) :
    (db.without accountId).balances.filter ((db.without accountId).holds userId ·.accountId)
      = (db.balances.filter (·.accountId ≠ accountId)).filter (db.holds userId ·.accountId) := by
  refine List.filter_congr fun b hb => Db.holds_without ?_
  exact of_decide_eq_true (List.mem_filter.1 hb).2

/-- An account of the user is deleted. -/
theorem ownWrite_delete {db : Db} {account : ExchangeAccount} (h : db.Owned)
    (hacc : account ∈ db.accounts) : OwnWrite account.userId db (Db.without account.id) where
  own := by
    have hbalances : (db.without account.id).balances.filter
        ((db.without account.id).holds account.userId ·.accountId)
          = (db.balances.filter (db.holds account.userId ·.accountId)).filter
            (·.accountId ≠ account.id) := by
      rw [filter_holds_without]
      exact List.filter_comm _ _ _
    show Db.mk _ _ _ _ = Db.mk _ _ _ _
    congr 1
    · exact List.filter_comm _ _ _
    · exact List.filter_comm _ _ _
  others other hother := by
    have haccounts : (db.without account.id).accounts.filter (·.userId = other)
        = db.accounts.filter (·.userId = other) := by
      refine filter_filter_of_imp fun a ha huser => decide_eq_true fun hid => hother ?_
      rw [← of_decide_eq_true huser, h.account_inj ha hacc hid]
    have horders : (db.without account.id).orders.filter (·.userId = other)
        = db.orders.filter (·.userId = other) := by
      refine filter_filter_of_imp fun o ho huser => decide_eq_true fun hid => hother ?_
      rw [← of_decide_eq_true huser, h.order_user hacc ho hid]
    have hbalances : (db.without account.id).balances.filter
        ((db.without account.id).holds other ·.accountId)
          = db.balances.filter (db.holds other ·.accountId) := by
      rw [filter_holds_without]
      refine filter_filter_of_imp fun b _ hholds => decide_eq_true fun hid => ?_
      rw [hid, h.not_holds hacc hother] at hholds
      exact absurd hholds (by simp)
    show Db.mk _ _ _ _ = Db.mk _ _ _ _
    congr 1
  owned := by
    have hleft : ∀ {accountId : String}, accountId ≠ account.id → ∀ {a : ExchangeAccount},
        a ∈ db.accounts → a.id = accountId → a ∈ (db.without account.id).accounts :=
      fun hne a ha hid => List.mem_filter.2 ⟨ha, by simpa [hid] using hne⟩
    refine ⟨?_, ?_, fun o ho => ?_, fun b hb => ?_⟩
    · exact h.accountIds.sublist (List.filter_sublist.map _)
    · exact h.orderIds.sublist (List.filter_sublist.map _)
    · obtain ⟨ho, hne⟩ := List.mem_filter.1 ho
      obtain ⟨a, ha, hid, huser⟩ := h.order o ho
      exact ⟨a, hleft (of_decide_eq_true hne) ha hid, hid, huser⟩
    · obtain ⟨hb, hne⟩ := List.mem_filter.1 hb
      obtain ⟨a, ha, hid⟩ := h.balance b hb
      exact ⟨a, hleft (of_decide_eq_true hne) ha hid, hid⟩

/-- An account is inserted under a new id. -/
theorem Db.Owned.insertAccount {db : Db} (h : db.Owned) {account : ExchangeAccount}
    (hfresh : ∀ a ∈ db.accounts, a.id ≠ account.id) :
    Db.Owned { db with accounts := db.accounts ++ [account] } := by
  refine ⟨nodup_map_concat h.accountIds hfresh, h.orderIds, fun o ho => ?_, fun b hb => ?_⟩
  · obtain ⟨a, ha, hkey⟩ := h.order o ho
    exact ⟨a, List.mem_append_left _ ha, hkey⟩
  · obtain ⟨a, ha, hid⟩ := h.balance b hb
    exact ⟨a, List.mem_append_left _ ha, hid⟩

end TradingHub
