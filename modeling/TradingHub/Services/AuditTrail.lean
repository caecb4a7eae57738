import TradingHub.Services.Recovery

set_option autoImplicit false

/-! # The audit trail of trading

The audit rows are written in the transaction of what they tell about, so after any run the trail
matches the tables. For every account that exists, the rows of placed orders and the rows of the
orders themselves correspond one to one and in order; an order whose status was changed has a row of
a cancellation, and a cancellation is of an order that is there (`Db.Audited`). A request that raised
has left no row, and one that returned at most the one that tells of it (`Turn.Logs`). -/

namespace TradingHub

open Library AccountService

/-! ## The trail -/

/-- The row tells that an order was placed on the account. -/
def AuditLog.isPlacementOn (accountId : String) (log : AuditLog) : Bool :=
  match log.detail with
  | .orderPlace account _ _ _ _ _ => account = accountId
  | _ => false

/-- The audit row tells of the order. What an exchange made of a live order may differ from what was
    asked for, which is what the audit row tells. -/
def Db.Tells (db : Db) (o : OrderRecord) (log : AuditLog) : Prop :=
  ∃ symbol side type status,
    log = ⟨some o.userId, .orderPlace o.accountId symbol side type o.isPaper status⟩ ∧
      (o.isPaper = true → symbol = o.symbol ∧ side = o.side ∧ type = o.type) ∧
      (o.status = status ∨ ⟨some o.userId, .orderCancel o.accountId o.id⟩ ∈ db.audit)

/-- The trail matches the tables. -/
structure Db.Audited (db : Db) : Prop where
  placed : ∀ a ∈ db.accounts, List.Forall₂ db.Tells (db.orders.filter (·.accountId = a.id))
    (db.audit.filter (·.isPlacementOn a.id))
  canceled : ∀ a ∈ db.accounts, ∀ user orderId, ⟨user, .orderCancel a.id orderId⟩ ∈ db.audit →
    user = some a.userId ∧ ∃ o ∈ db.orders, o.id = orderId ∧ o.accountId = a.id
  created : ∀ a ∈ db.accounts,
    ⟨some a.userId, .accountCreate a.isPaper a.exchangeId a.label⟩ ∈ db.audit

/-- The audit row tells of the operation: of its user and of what was asked for. -/
def AuditLog.Of (log : AuditLog) : Operation → Prop
  | .trade (.place _ r) => ∃ paper status,
      log = ⟨some r.userId, .orderPlace r.accountId r.symbol r.side r.type paper status⟩
  | .trade (.cancel userId orderId) => ∃ account, log = ⟨some userId, .orderCancel account orderId⟩
  | .createPaperAccount userId exchangeId label _ =>
    log = ⟨some userId, .accountCreate true exchangeId label⟩
  | .createLiveAccount userId exchangeId label _ _ _ _ =>
    log = ⟨some userId, .accountCreate false exchangeId label⟩
  | .deleteAccount accountId userId => log = ⟨some userId, .accountDelete accountId⟩
  | _ => False

/-- The turn adds no row to the trail, or it is a request that returned and adds one, of itself. -/
def Turn.Logs (w : World) (t : Turn) : Prop :=
  (t.apply w).db.audit = w.db.audit ∨
    ∃ env op log, t = .serve env op ∧ (getSession env (op.run env) w).1 = .ok () ∧
      (t.apply w).db.audit = w.db.audit ++ [log] ∧ log.Of op

/-! ## What is written -/

namespace Db.Tells

variable {db db' : Db} {o : OrderRecord} {log : AuditLog}

theorem mono (h : db.Tells o log) (hsub : ∀ row ∈ db.audit, row ∈ db'.audit) : db'.Tells o log := by
  obtain ⟨symbol, side, type, status, hlog, hpaper, hstatus⟩ := h
  exact ⟨symbol, side, type, status, hlog, hpaper, hstatus.imp_right (hsub _)⟩

/-- A cancellation that is on the trail explains any status. -/
theorem set_status (h : db.Tells o log)
    (status : OrderStatus) (hcancel : ⟨some o.userId, .orderCancel o.accountId o.id⟩ ∈ db'.audit) :
    db'.Tells { o with status } log := by
  obtain ⟨symbol, side, type, status₀, hlog, hpaper, -⟩ := h
  exact ⟨symbol, side, type, status₀, hlog, hpaper, Or.inr hcancel⟩

end Db.Tells

/-- The account a row of placed or canceled orders names. -/
def AuditLog.account? (log : AuditLog) : Option String :=
  match log.detail with
  | .orderPlace account _ _ _ _ _ => some account
  | .orderCancel account _ => some account
  | _ => none

theorem AuditLog.account?_of_placement {log : AuditLog} {acc : String}
    (h : log.isPlacementOn acc = true) : log.account? = some acc := by
  obtain ⟨user, detail⟩ := log
  cases detail <;> simp_all [isPlacementOn, account?]

namespace Db.Audited

variable {db db' : Db}

/-- An order and the row that tells of it are added. -/
theorem place (h : db.Audited) {o : OrderRecord} {log : AuditLog}
    (haccounts : db'.accounts = db.accounts) (horders : db'.orders = db.orders ++ [o])
    (haudit : db'.audit = db.audit ++ [log]) (htells : db'.Tells o log) : db'.Audited := by
  have hsub : ∀ row ∈ db.audit, row ∈ db'.audit := fun row hrow => by
    rw [haudit]
    exact List.mem_append_left _ hrow
  have ⟨symbol, side, type, status, hlog, _⟩ := htells
  refine ⟨fun a ha => ?_, fun a ha user orderId hrow => ?_,
    fun a ha => hsub _ (h.created a (haccounts ▸ ha))⟩
  · have hold := (h.placed a (haccounts ▸ ha)).imp fun _ _ ht => ht.mono hsub
    rw [horders, haudit, List.filter_append, List.filter_append]
    refine List.rel_append hold ?_
    by_cases hacc : o.accountId = a.id
    · rw [List.filter_cons_of_pos (by simp [hacc]),
        List.filter_cons_of_pos (by simp [hlog, AuditLog.isPlacementOn, hacc])]
      exact .cons htells .nil
    · rw [List.filter_cons_of_neg (by simp [hacc]),
        List.filter_cons_of_neg (by simp [hlog, AuditLog.isPlacementOn, hacc])]
      exact .nil
  · rw [haudit] at hrow
    rcases List.mem_append.1 hrow with hrow | hrow
    · obtain ⟨huser, o', ho', hkey⟩ := h.canceled a (haccounts ▸ ha) user orderId hrow
      exact ⟨huser, o', by rw [horders]; exact List.mem_append_left _ ho', hkey⟩
    · rw [hlog] at hrow
      exact absurd (List.mem_singleton.1 hrow) (by simp)

/-- The status of an order is written and the row of its cancellation added. -/
theorem cancel (h : db.Audited) (hown : db.Owned) {record : OrderRecord}
    (hmem : record ∈ db.orders) (status : OrderStatus) (haccounts : db'.accounts = db.accounts)
    (horders : db'.orders = TradingService.setStatus record.id status db.orders)
    (haudit : db'.audit
      = db.audit ++ [⟨some record.userId, .orderCancel record.accountId record.id⟩]) :
    db'.Audited := by
  have hsub : ∀ row ∈ db.audit, row ∈ db'.audit := fun row hrow => by
    rw [haudit]
    exact List.mem_append_left _ hrow
  have hnew : (⟨some record.userId, .orderCancel record.accountId record.id⟩ : AuditLog) ∈ db'.audit := by
    rw [haudit]
    exact List.mem_append_right _ (List.mem_singleton.2 rfl)
  refine ⟨fun a ha => ?_, fun a ha user orderId hrow => ?_,
    fun a ha => hsub _ (h.created a (haccounts ▸ ha))⟩
  · rw [horders, haudit, List.filter_append, TradingService.setStatus, List.filter_map]
    have hrest : [(⟨some record.userId, .orderCancel record.accountId record.id⟩ : AuditLog)].filter
        (·.isPlacementOn a.id) = [] := rfl
    have hfilter : db.orders.filter ((fun o => decide (o.accountId = a.id)) ∘ fun o =>
        if o.id = record.id then { o with status := status } else o)
          = db.orders.filter (·.accountId = a.id) := by
      refine List.filter_congr fun o _ => ?_
      rw [Function.comp_apply]
      split <;> rfl
    rw [hrest, List.append_nil, hfilter]
    refine List.forall₂_map_left_iff.2 ?_
    refine forall₂_imp_of_mem (h.placed a (haccounts ▸ ha)) fun o ho log _ htells => ?_
    split
    · next hid =>
      have hsame : o = record :=
        List.inj_on_of_nodup_map hown.orderIds (List.mem_filter.1 ho).1 hmem hid
      exact htells.set_status status (hsame ▸ hnew)
    · exact htells.mono hsub
  · have hkept : ∀ o ∈ db.orders, ∃ o' ∈ db'.orders, o'.id = o.id ∧ o'.accountId = o.accountId := by
      intro o ho
      refine ⟨_, by rw [horders]; exact List.mem_map.2 ⟨o, ho, rfl⟩, ?_⟩
      split <;> exact ⟨rfl, rfl⟩
    rw [haudit] at hrow
    rcases List.mem_append.1 hrow with hrow | hrow
    · obtain ⟨huser, o, ho, hid, hacc⟩ := h.canceled a (haccounts ▸ ha) user orderId hrow
      obtain ⟨o', ho', hid', hacc'⟩ := hkept o ho
      exact ⟨huser, o', ho', hid'.trans hid, hacc'.trans hacc⟩
    · have heq := List.mem_singleton.1 hrow
      simp only [AuditLog.mk.injEq, AuditDetail.orderCancel.injEq] at heq
      obtain ⟨rfl, hacc, rfl⟩ := heq
      obtain ⟨o', ho', hid', hacc'⟩ := hkept record hmem
      exact ⟨congrArg some (hown.order_user (haccounts ▸ ha) hmem hacc.symm), o', ho', hid',
        hacc'.trans hacc.symm⟩

/-- An account is added, under an id that no row names, with the row of its creation. -/
theorem add_account (h : db.Audited) {account : ExchangeAccount}
    (hunnamed : ∀ log ∈ db.audit, log.account? ≠ some account.id)
    (hnoOrder : ∀ o ∈ db.orders, o.accountId ≠ account.id)
    (hdb : db' = db.addAccount account
      (.accountCreate account.isPaper account.exchangeId account.label)) : db'.Audited := by
  subst hdb
  have hsub : ∀ row ∈ db.audit, row ∈ (db.addAccount account
      (.accountCreate account.isPaper account.exchangeId account.label)).audit :=
    fun row hrow => List.mem_append_left _ hrow
  refine ⟨fun a ha => ?_, fun a ha user orderId hrow => ?_, fun a ha => ?_⟩
  · show List.Forall₂ _ (db.orders.filter _) ((db.audit ++ _).filter _)
    rw [List.filter_append, List.filter_cons_of_neg (by simp [AuditLog.isPlacementOn]),
      List.filter_nil, List.append_nil]
    rcases List.mem_append.1 ha with ha | ha
    · exact (h.placed a ha).imp fun _ _ htells => htells.mono hsub
    · rw [List.mem_singleton.1 ha, List.filter_eq_nil_iff.2 fun o ho => by simpa using hnoOrder o ho,
        List.filter_eq_nil_iff.2 fun log hlog hp =>
          hunnamed log hlog (AuditLog.account?_of_placement hp)]
      exact .nil
  · have hold : ⟨user, .orderCancel a.id orderId⟩ ∈ db.audit := by
      rcases List.mem_append.1 hrow with hrow | hrow
      · exact hrow
      · exact absurd (List.mem_singleton.1 hrow) (by simp)
    rcases List.mem_append.1 ha with ha | ha
    · exact h.canceled a ha user orderId hold
    · rw [List.mem_singleton.1 ha] at hold
      exact absurd rfl (hunnamed _ hold)
  · rcases List.mem_append.1 ha with ha | ha
    · exact hsub _ (h.created a ha)
    · rw [List.mem_singleton.1 ha]
      exact List.mem_append_right _ (List.mem_singleton.2 rfl)

/-- An account is deleted with its orders; its rows stay on the trail. -/
theorem delete (h : db.Audited) {accountId : String} {user : Option String} {id : String}
    (hdb : db' = { db.without accountId with audit := db.audit ++ [⟨user, .accountDelete id⟩] }) :
    db'.Audited := by
  subst hdb
  have hkept : ∀ a ∈ (db.without accountId).accounts, a ∈ db.accounts ∧ a.id ≠ accountId := by
    intro a ha
    obtain ⟨ha, hne⟩ := List.mem_filter.1 ha
    exact ⟨ha, of_decide_eq_true hne⟩
  refine ⟨fun a ha => ?_, fun a ha user orderId hrow => ?_, fun a ha => ?_⟩
  · obtain ⟨ha, hne⟩ := hkept a ha
    show List.Forall₂ _ ((db.orders.filter _).filter _) ((db.audit ++ _).filter _)
    have horders : (db.orders.filter (·.accountId ≠ accountId)).filter (·.accountId = a.id)
        = db.orders.filter (·.accountId = a.id) :=
      filter_filter_of_imp fun o _ ho => decide_eq_true fun heq =>
        hne ((of_decide_eq_true ho).symm.trans heq)
    rw [horders, List.filter_append, List.filter_cons_of_neg (by simp [AuditLog.isPlacementOn]),
      List.filter_nil, List.append_nil]
    exact (h.placed a ha).imp fun _ _ htells => htells.mono fun _ hrow => List.mem_append_left _ hrow
  · obtain ⟨ha, hne⟩ := hkept a ha
    have hold : ⟨user, .orderCancel a.id orderId⟩ ∈ db.audit := by
      rcases List.mem_append.1 hrow with hrow | hrow
      · exact hrow
      · exact absurd (List.mem_singleton.1 hrow) (by simp)
    obtain ⟨huser, o, ho, hid, hacc⟩ := h.canceled a ha _ orderId hold
    exact ⟨huser, o, List.mem_filter.2 ⟨ho, decide_eq_true (hacc ▸ hne)⟩, hid, hacc⟩
  · exact List.mem_append_left _ (h.created a (hkept a ha).1)

end Db.Audited

/-- A paper order is of the symbol, side and type that were asked for. -/
theorem PaperAdapter.createOrder_asked {p : PaperAdapter} {market : MarketDataSource}
    {orderId : String} {request : OrderRequest} {order : Order String} {l l' : PaperLedger}
    (h : p.createOrder market orderId request l = (.ok order, l')) :
    request.symbol = order.symbol ∧ request.side = order.side ∧ request.type = order.type := by
  obtain ⟨_, he, -⟩ | ⟨ticker, -, -, -, ho, -⟩ | ⟨ticker, price, -, -, -, ho, -⟩ :=
    createOrder_cases h
  · exact absurd he (by simp)
  · rw [Except.ok.inj ho]
    exact ⟨rfl, rfl, rfl⟩
  · rw [Except.ok.inj ho]
    exact ⟨rfl, rfl, rfl⟩

/-- What an operation has written, with the row that tells of it. -/
theorem Operation.Wrote.logs {env : Env} {w w' : World} {op : Operation}
    (h : op.Wrote env w w') : w'.db.audit = w.db.audit ∨
      ∃ log : AuditLog, w'.db.audit = w.db.audit ++ [log] ∧ log.Of op := by
  cases h with
  | nothing hop hdb => exact Or.inl (by rw [hdb])
  | finished hfind hdone hdb => exact Or.inl (by rw [hdb])
  | placedPaper hacc hmode hp hnew hdb => exact Or.inr ⟨_, by rw [hdb]; rfl, _, _, rfl⟩
  | placedLive hacc hmode hreply hparse hrecord hnew hdb =>
    exact Or.inr ⟨_, by rw [hdb], _, _, rfl⟩
  | canceledPaper hfind hopen hacc haccount hmode hout hdb =>
    obtain ⟨rfl, -⟩ : _ ∧ _ := by simpa using List.find?_some hfind
    exact Or.inr ⟨_, by rw [hdb]; rfl, _, rfl⟩
  | canceledLive hfind hopen hacc haccount hmode hcall hdb =>
    obtain ⟨rfl, -⟩ : _ ∧ _ := by simpa using List.find?_some hfind
    exact Or.inr ⟨_, by rw [hdb], _, rfl⟩
  | createdPaper hnew hdb => exact Or.inr ⟨_, by rw [hdb]; rfl, rfl⟩
  | createdLive hnew hdb => exact Or.inr ⟨_, by rw [hdb]; rfl, rfl⟩
  | deleted hfind hdb => exact Or.inr ⟨_, by rw [hdb], rfl⟩

/-! ## The run -/

/-- The identifiers a turn draws for accounts. -/
def Turn.accountDraws : Turn → List String
  | serve env (.createPaperAccount _ _ _ _) => [env.recordId]
  | serve env (.createLiveAccount _ _ _ _ _ _ _) => [env.recordId]
  | _ => []

/-- A `SELECT` that raises changes nothing. -/
def Turn.SelectsRead : Turn → Prop
  | serve env _ => env.SelectsRead
  | restart _ => True

/-- The trail matches the tables, and names only accounts that were created. -/
structure Noted (drawn : List String) (db : Db) : Prop where
  owned : db.Owned
  audited : db.Audited
  named : ∀ log ∈ db.audit, ∀ acc, log.account? = some acc → acc ∈ drawn
  drawn : ∀ a ∈ db.accounts, a.id ∈ drawn

namespace Noted

variable {drawn : List String} {db : Db} {env : Env} {w w' : World}

theorem weaken (h : Noted drawn db) (ids : List String) : Noted (drawn ++ ids) db :=
  { h with
    named := fun log hlog acc hacc => List.mem_append_left _ (h.named log hlog acc hacc)
    drawn := fun a ha => List.mem_append_left _ (h.drawn a ha) }

/-- An order of an account is placed or canceled. -/
theorem traded {db' : Db} (h : Noted drawn db) (howned : db'.Owned) (haudited : db'.Audited)
    {log : AuditLog} (haccounts : db'.accounts = db.accounts) (haudit : db'.audit = db.audit ++ [log])
    {account : ExchangeAccount} (hacc : account ∈ db.accounts)
    (hlog : log.account? = some account.id) (ids : List String) : Noted (drawn ++ ids) db' := by
  have hnamed : ∀ log' ∈ db'.audit, ∀ acc, log'.account? = some acc → acc ∈ drawn := by
    intro log' hlog' acc hacc'
    rw [haudit] at hlog'
    rcases List.mem_append.1 hlog' with hlog' | hlog'
    · exact h.named log' hlog' acc hacc'
    · rw [List.mem_singleton.1 hlog', hlog] at hacc'
      exact Option.some.inj hacc' ▸ h.drawn account hacc
  have hdrawn : ∀ a ∈ db'.accounts, a.id ∈ drawn := fun a ha => h.drawn a (haccounts ▸ ha)
  exact weaken ⟨howned, haudited, hnamed, hdrawn⟩ ids

/-- An account is created under a new id. -/
theorem created (h : Noted drawn db) {account : ExchangeAccount}
    (howned : (db.addAccount account
      (.accountCreate account.isPaper account.exchangeId account.label)).Owned)
    (hfresh : account.id ∉ drawn) : Noted (drawn ++ [account.id])
      (db.addAccount account (.accountCreate account.isPaper account.exchangeId account.label)) where
  owned := howned
  audited := by
    refine h.audited.add_account (fun log hlog hacc => hfresh (h.named log hlog _ hacc))
      (fun o ho hacc => ?_) rfl
    obtain ⟨a, ha, hid, -⟩ := h.owned.order o ho
    exact hfresh (hacc ▸ hid ▸ h.drawn a ha)
  named log hlog acc hacc := by
    rcases List.mem_append.1 hlog with hlog | hlog
    · exact List.mem_append_left _ (h.named log hlog acc hacc)
    · rw [List.mem_singleton.1 hlog] at hacc
      exact absurd hacc (by simp [AuditLog.account?])
  drawn a ha := by
    rcases List.mem_append.1 ha with ha | ha
    · exact List.mem_append_left _ (h.drawn a ha)
    · rw [List.mem_singleton.1 ha]
      exact List.mem_append_right _ (List.mem_singleton.2 rfl)

/-- An order is canceled. -/
theorem canceled {db' : Db} (h : Noted drawn db) (howned : db'.Owned) {record : OrderRecord}
    {userId orderId : String} {status : OrderStatus}
    (hfind : db.orders.find? (fun o => o.id = orderId ∧ o.userId = userId) = some record)
    (haccounts : db'.accounts = db.accounts)
    (horders : db'.orders = TradingService.setStatus record.id status db.orders)
    (haudit : db'.audit = db.audit ++ [⟨some userId, .orderCancel record.accountId record.id⟩])
    (ids : List String) : Noted (drawn ++ ids) db' := by
  have hmem := List.mem_of_find?_eq_some hfind
  have hkey : record.id = orderId ∧ record.userId = userId := by simpa using List.find?_some hfind
  obtain ⟨account, hacc, hid, -⟩ := h.owned.order record hmem
  refine h.traded howned (h.audited.cancel h.owned hmem status haccounts horders ?_) haccounts haudit
    hacc (congrArg some hid.symm) ids
  rw [haudit, hkey.2]

/-- The step: what an operation writes. -/
theorem wrote (h : Noted drawn w.db) {op : Operation} (howned : w'.db.Owned)
    (hfresh : ∀ n ∈ (Turn.serve env op).accountDraws, n ∉ drawn) (hwrote : op.Wrote env w w') :
    Noted (drawn ++ (Turn.serve env op).accountDraws) w'.db := by
  cases hwrote with
  | nothing _ hdb => exact hdb ▸ h.weaken _
  | finished _ _ hdb => exact hdb ▸ h.weaken _
  | placedPaper hacc hmode hp hnew hdb =>
    rename_i limits r account p
    have hkey : account.id = r.accountId ∧ account.userId = r.userId := by
      simpa using List.find?_some hacc
    have htells : w'.db.Tells (p.record env r account) ⟨some r.userId,
        .orderPlace r.accountId r.symbol r.side r.type p.order.isPaper p.order.status⟩ :=
      ⟨r.symbol, r.side, r.type, p.order.status, by rw [← hkey.1]; rfl,
        fun _ => PaperAdapter.createOrder_asked hp.created, Or.inl rfl⟩
    have haudit : w'.db.audit = w.db.audit ++ [⟨some r.userId,
        .orderPlace r.accountId r.symbol r.side r.type p.order.isPaper p.order.status⟩] := by
      rw [hdb]
      rfl
    exact h.traded howned (h.audited.place (by rw [hdb]; rfl) (by rw [hdb]; rfl) haudit htells)
      (by rw [hdb]; rfl) haudit (Trade.account?_mem hacc) (congrArg some hkey.1.symm) _
  | placedLive hacc hmode hreply hparse hrecord hnew hdb =>
    rename_i limits r account record symbol order log client raw
    have hkey : account.id = r.accountId ∧ account.userId = r.userId := by
      simpa using List.find?_some hacc
    have hlive : record.isPaper = false := by
      rw [hrecord]
      exact (CcxtAdapter.parseOrder_ok hparse).1
    have htells : w'.db.Tells record ⟨some r.userId,
        .orderPlace r.accountId r.symbol r.side r.type record.isPaper record.status⟩ :=
      ⟨r.symbol, r.side, r.type, record.status, by rw [hrecord, ← hkey.1]; rfl,
        fun hpaper => absurd hpaper (by simp [hlive]), Or.inl rfl⟩
    have haudit : w'.db.audit = w.db.audit ++ [⟨some r.userId,
        .orderPlace r.accountId r.symbol r.side r.type record.isPaper record.status⟩] := by
      rw [hdb]
    exact h.traded howned (h.audited.place (by rw [hdb]) (by rw [hdb]) haudit htells) (by rw [hdb])
      haudit (Trade.account?_mem hacc) (congrArg some hkey.1.symm) _
  | canceledPaper hfind hopen hacc haccount hmode hout hdb =>
    exact h.canceled howned hfind (by rw [hdb]; rfl) (by rw [hdb]; rfl) (by rw [hdb]; rfl) _
  | canceledLive hfind hopen hacc haccount hmode hcall hdb =>
    exact h.canceled howned hfind (by rw [hdb]) (by rw [hdb]) (by rw [hdb]) _
  | createdPaper hnew hdb =>
    rw [hdb] at howned ⊢
    exact h.created howned (hfresh _ (by simp [Turn.accountDraws]))
  | createdLive hnew hdb =>
    rw [hdb] at howned ⊢
    exact h.created howned (hfresh _ (List.mem_singleton.2 rfl))
  | deleted hfind hdb =>
    refine weaken ⟨howned, h.audited.delete hdb, fun log hlog acc hacc => ?_, fun a ha => ?_⟩ _
    · rw [hdb] at hlog
      rcases List.mem_append.1 hlog with hlog | hlog
      · exact h.named log hlog acc hacc
      · rw [List.mem_singleton.1 hlog] at hacc
        exact absurd hacc (by simp [AuditLog.account?])
    · rw [hdb] at ha
      exact h.drawn a (List.mem_filter.1 ha).1

/-- The step: a turn, successful or not. -/
theorem turn (h : Noted drawn w.db) {t : Turn} (ht : t.SelectsRead)
    (hfresh : ∀ n ∈ t.accountDraws, n ∉ drawn) :
    Noted (drawn ++ t.accountDraws) (t.apply w).db := by
  cases t with
  | restart settings => exact h.weaken _
  | serve env op =>
    show Noted _ (getSession env (op.run env) w).2.db
    obtain ⟨u, w', hrun, hserve⟩ | ⟨e, w', hserve, hdb⟩ := getSession_cases env (op.run env) w
    · rw [hserve]
      exact h.wrote (op.run_owned ht h.owned hrun) hfresh (op.run_wrote ht hrun)
    · rw [hserve]
      exact hdb ▸ h.weaken _

end Noted

/-- A turn, successful or not, adds no other row than the one that tells of it. -/
theorem Turn.logs {t : Turn} (ht : t.SelectsRead) (w : World) : t.Logs w := by
  cases t with
  | restart settings => exact Or.inl rfl
  | serve env op =>
    obtain ⟨u, w', hrun, hserve⟩ | ⟨e, w', hserve, hdb⟩ := getSession_cases env (op.run env) w
    · have happly : (Turn.serve env op).apply w = w' := congrArg Prod.snd hserve
      unfold Turn.Logs
      rw [happly]
      refine (op.run_wrote ht hrun).logs.imp_right ?_
      rintro ⟨log, haudit, hof⟩
      exact ⟨env, op, log, rfl, congrArg Prod.fst hserve, haudit, hof⟩
    · have happly : (Turn.serve env op).apply w = w' := congrArg Prod.snd hserve
      exact Or.inl (by rw [happly, hdb])

/-- After every run of operations of any users, successful or failed at any statement, and restarts
    under any settings, the audit trail matches the tables: every order of an account is told of by
    one row, in order, and by no more; whatever changed a status since is told of by the row of a
    cancellation; every cancellation is of an order of the account, by its user; and every account has
    the row of its creation. And no turn of the run has added a row but a request that returned, one
    row, that tells of it. -/
theorem audit_trail_matches (settings : Settings) (turns : List Turn)
    (hturns : ∀ t ∈ turns, t.SelectsRead) (hids : (turns.flatMap Turn.accountDraws).Nodup) :
    (turns.foldl Turn.apply (World.boot settings ⟨[], [], [], []⟩)).db.Audited ∧
      Guarded Turn.apply Turn.Logs (World.boot settings ⟨[], [], [], []⟩) turns := by
  have hempty : Noted [] (World.boot settings ⟨[], [], [], []⟩).db := by
    refine ⟨Db.Owned.empty, ⟨?_, ?_, ?_⟩, ?_, ?_⟩ <;> simp [World.boot]
  have hnoted := run_fresh (I := fun drawn (w : World) => Noted drawn w.db)
    (fun _ _ _ h ht hfresh => h.turn ht hfresh) turns [] _ hempty hturns (by simpa using hids)
  exact ⟨hnoted.audited,
    (guarded_of_forall_mem turns _ hturns).mono fun w _ ht => Turn.logs ht w⟩

/-- The sample run, with its bid canceled at the end. -/
theorem audit_trail_sample :
    let turns := Turn.sampleTurns ++ [.serve (Env.quoting 100 "3") (.trade (.cancel "u" "2"))]
    let db := (turns.foldl Turn.apply (World.boot {} ⟨[], [], [], []⟩)).db
    db.orders.map (·.status) = [.filled, .canceled] ∧ db.Audited ∧
      Guarded Turn.apply Turn.Logs (World.boot {} ⟨[], [], [], []⟩) turns := by
  intro turns db
  have hturns : ∀ t ∈ turns, t.SelectsRead := by
    intro t ht
    rcases List.mem_append.1 ht with ht | ht
    · have hpromised : t.Promised fun _ last => 0 ≤ last :=
        Turn.sampleTurns_promised (by norm_num) t ht
      cases t with
      | serve env op => exact hpromised.1.selects
      | restart settings => trivial
    · rw [List.mem_singleton.1 ht]
      exact fun _ _ _ hf => absurd hf (by simp [Env.quoting, Env.quiet])
  exact ⟨by decide +kernel, audit_trail_matches {} turns hturns (by decide)⟩

end TradingHub
