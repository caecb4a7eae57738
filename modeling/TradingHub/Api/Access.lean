import TradingHub.Services.AuthEffects
import TradingHub.Services.Secrets

set_option autoImplicit false

/-! # Who may call what

Roles and their permissions (`app/security/rbac.py`), the user behind an access token and the
permission check of a route (`app/api/deps.py`), and the routes of `app/api/v1` that reach the
trading, account, portfolio and market services. A route hands the service the id of the user of the
token, never one of its own payload. -/

namespace TradingHub

open Library

/-! ## Roles and permissions -/

inductive Role
  | admin
  | trader
  | viewer
deriving DecidableEq, Repr

inductive Permission
  | accountRead
  | accountWrite
  | marketRead
  | portfolioRead
  | orderRead
  | orderCreate
  | orderCancel
  | adminManage
deriving DecidableEq, Repr

def Permission.value : Permission → String
  | accountRead => "account:read"
  | accountWrite => "account:write"
  | marketRead => "market:read"
  | portfolioRead => "portfolio:read"
  | orderRead => "order:read"
  | orderCreate => "order:create"
  | orderCancel => "order:cancel"
  | adminManage => "admin:manage"

/-- `Role(value)`; another text raises. -/
def Role.ofValue : String → Option Role
  | "admin" => some admin
  | "trader" => some trader
  | "viewer" => some viewer
  | _ => none

def viewerPermissions : List Permission := [.marketRead, .portfolioRead, .orderRead, .accountRead]

def traderPermissions : List Permission :=
  viewerPermissions ++ [.accountWrite, .orderCreate, .orderCancel]

def adminPermissions : List Permission := traderPermissions ++ [.adminManage]

/-- `ROLE_PERMISSIONS`. -/
def rolePermissions : Role → List Permission
  | .viewer => viewerPermissions
  | .trader => traderPermissions
  | .admin => adminPermissions

/-- `permissions_for`: a role that is not known has none. -/
def permissionsFor (role : String) : List Permission :=
  match Role.ofValue role with
  | none => []
  | some role => rolePermissions role

def hasPermission (role : String) (permission : Permission) : Bool :=
  permission ∈ permissionsFor role

/-! ## The user of a request -/

inductive AccessError
  | token (error : AuthError)
  | permissionDenied (message : String)
deriving DecidableEq, Repr

structure CurrentUser where
  id : String
  role : String
deriving DecidableEq, Repr

/-- `get_current_user`, of a bearer token with a valid signature. -/
def getCurrentUser (token : TokenClaims) (now : ℚ) : Except AccessError CurrentUser :=
  match TokenService.decode token .access now with
  | .error e => .error (.token e)
  | .ok claims => .ok ⟨claims.subject, claims.role⟩

/-- `require`. -/
def CurrentUser.require (user : CurrentUser) (permission : Permission) :
    Except AccessError CurrentUser :=
  if hasPermission user.role permission then .ok user
  else .error (.permissionDenied
    ("Role '" ++ user.role ++ "' lacks permission '" ++ permission.value ++ "'."))

/-! ## Routes -/

/-- The payload of `POST /trading/orders`. -/
structure OrderCreate where
  accountId : String
  symbol : String
  side : OrderSide
  type : OrderType
  amount : ℚ
  price : Option ℚ := none
  stopPrice : Option ℚ := none
  timeInForce : TimeInForce := .gtc
  reduceOnly : Bool := false
  postOnly : Bool := false
  leverage : Option ℤ := none
deriving DecidableEq, Repr

/-- The arguments the route gives to `place_order`. -/
def OrderCreate.placeOrder (payload : OrderCreate) (userId : String) : PlaceOrder :=
  { userId
    accountId := payload.accountId
    symbol := payload.symbol
    side := payload.side
    type := payload.type
    amount := payload.amount
    price := payload.price
    stopPrice := payload.stopPrice
    timeInForce := payload.timeInForce
    reduceOnly := payload.reduceOnly
    postOnly := payload.postOnly
    leverage := payload.leverage }

/-- A request to one of the routes, as far as the services are concerned. -/
inductive Route
  | listAccounts
  | getAccount (accountId : String)
  | createPaperAccount (exchangeId label marketType : String)
  | createLiveAccount (exchangeId label marketType apiKey apiSecret : String)
      (passphrase : Option String)
  | deleteAccount (accountId : String)
  | placeOrder (payload : OrderCreate)
  | listOrders (symbol status : Option String) (page pageSize : ℕ)
  | getOrder (orderId : String)
  | cancelOrder (orderId : String)
  | openOrders (accountId : String)
  | positions (accountId : String)
  | balances
  | getTicker (exchangeId symbol : String)
  | getOrderBook (exchangeId symbol : String) (limit : ℤ)
  | getCandles (exchangeId symbol timeframe : String) (limit : ℤ)
  | getIndicator (compute : String → List Candle → ℤ → Except AppError (List (Option ℚ)))
      (exchangeId symbol name timeframe : String) (period limit : ℤ)

namespace Route

/-- The permission in the `dependencies` of the route. -/
def permission : Route → Permission
  | listAccounts => .accountRead
  | getAccount _ => .accountRead
  | createPaperAccount _ _ _ => .accountWrite
  | createLiveAccount _ _ _ _ _ _ => .accountWrite
  | deleteAccount _ => .accountWrite
  | placeOrder _ => .orderCreate
  | listOrders _ _ _ _ => .orderRead
  | getOrder _ => .orderRead
  | cancelOrder _ => .orderCancel
  | openOrders _ => .orderRead
  | positions _ => .orderRead
  | balances => .portfolioRead
  | getTicker _ _ => .marketRead
  | getOrderBook _ _ _ => .marketRead
  | getCandles _ _ _ _ => .marketRead
  | getIndicator _ _ _ _ _ _ _ => .marketRead

/-- What the route asks of the services for the user of the request. -/
def operation (userId : String) : Route → Operation
  | listAccounts => .listAccounts userId
  | getAccount accountId => .getAccount accountId userId
  | createPaperAccount exchangeId label marketType =>
    .createPaperAccount userId exchangeId label marketType
  | createLiveAccount exchangeId label marketType apiKey apiSecret passphrase =>
    .createLiveAccount userId exchangeId label marketType apiKey apiSecret passphrase
  | deleteAccount accountId => .deleteAccount accountId userId
  | placeOrder payload => .trade (.place {} (payload.placeOrder userId))
  | listOrders symbol status page pageSize => .listOrders userId symbol status page pageSize
  | getOrder orderId => .getOrder userId orderId
  | cancelOrder orderId => .trade (.cancel userId orderId)
  | openOrders accountId => .listOpenOrders userId accountId
  | positions accountId => .listPositions userId accountId
  | balances => .aggregateBalances userId
  | getTicker exchangeId symbol => .ticker exchangeId symbol
  | getOrderBook exchangeId symbol limit => .orderBook exchangeId symbol limit
  | getCandles exchangeId symbol timeframe limit => .candles exchangeId symbol timeframe limit
  | getIndicator compute exchangeId symbol name timeframe period limit =>
    .indicator compute exchangeId symbol name timeframe period limit

/-- Serve a request with a bearer token. -/
def serve (env : Env) (token : TokenClaims) (now : ℚ) (route : Route) (w : World) :
    Except AccessError World := do
  let user ← getCurrentUser token now
  let user ← user.require route.permission
  return TradingHub.serve w (env, route.operation user.id)

end Route

/-! ## What the checks let through -/

/-- The permissions that let a request write. -/
def Permission.writes : Permission → Bool
  | accountWrite => true
  | orderCreate => true
  | orderCancel => true
  | _ => false

/-- A route whose operation writes asks for a permission to write. -/
theorem Route.writes_permission (route : Route) (userId : String) :
    (route.operation userId).writes = route.permission.writes := by
  cases route <;> rfl

/-- An operation that writes is carried out for the user of the token. -/
theorem Route.actor_of_writes {route : Route} {userId : String}
    (h : (route.operation userId).writes = true) :
    (route.operation userId).actor = some userId := by
  cases route <;> first | rfl | exact absurd h (by simp [operation, Operation.writes])

/-- A viewer may not write. -/
theorem viewerPermissions_read {permission : Permission} (h : permission ∈ viewerPermissions) :
    permission.writes = false := by
  simp only [viewerPermissions, List.mem_cons, List.not_mem_nil, or_false] at h
  rcases h with rfl | rfl | rfl | rfl <;> rfl

/-- Traders and administrators may write, and nobody else. -/
theorem writers {role : String} {permission : Permission} (hwrites : permission.writes = true)
    (h : hasPermission role permission = true) : role = "trader" ∨ role = "admin" := by
  have hmem : permission ∈ permissionsFor role := of_decide_eq_true h
  unfold permissionsFor Role.ofValue at hmem
  split at hmem
  · exact absurd hmem (by simp)
  · next role' hrole =>
    split at hrole
    · exact Or.inr rfl
    · exact Or.inl rfl
    · obtain rfl := Option.some.inj hrole
      exact absurd (viewerPermissions_read hmem) (by simp [hwrites])
    · exact absurd hrole (by simp)

/-- A request that gets through comes with an access token in its lifetime. -/
theorem Route.serve_ok {env : Env} {token : TokenClaims} {now : ℚ} {route : Route} {w w' : World}
    (h : route.serve env token now w = .ok w') :
    TokenService.decode token .access now = .ok token ∧
      hasPermission token.role route.permission = true ∧
      w' = TradingHub.serve w (env, route.operation token.subject) := by
  unfold Route.serve getCurrentUser at h
  cases hdecode : TokenService.decode token .access now with
  | error e => exact absurd h (by simp [hdecode, bind, Except.bind])
  | ok claims =>
    obtain rfl := TokenService.decode_eq_ok hdecode
    simp only [hdecode, bind, Except.bind, CurrentUser.require] at h
    split at h
    · exact absurd h (by simp)
    · next user huser =>
      split at huser
      · next hallowed =>
        obtain rfl := Except.ok.inj huser
        exact ⟨rfl, hallowed, (Except.ok.inj h).symm⟩
      · exact absurd huser (by simp)

/-! ## The rows of the others -/

section Others

variable {env : Env} {w w' : World} {other : String}

/-- An order of the account and an audit row are inserted. -/
theorem others_of_place {db : Db} {account : ExchangeAccount} (howned : db.Owned)
    (hacc : account ∈ db.accounts) {record : OrderRecord} (huser : record.userId = account.userId)
    (hid : record.accountId = account.id) (hnew : ∀ o ∈ db.orders, o.id ≠ record.id)
    (detail : AuditDetail) (hother : other ≠ account.userId) :
    Db.Owned { db with orders := db.orders ++ [record]
                       audit := db.audit ++ [⟨some account.userId, detail⟩] } ∧
      Db.ofUser other { db with orders := db.orders ++ [record]
                                audit := db.audit ++ [⟨some account.userId, detail⟩] }
        = db.ofUser other := by
  have hinsert := ownWrite_insert howned hacc record huser hid hnew
  have haudit := ownWrite_audit account.userId hinsert.owned detail
  exact ⟨haudit.owned, (haudit.others _ hother).trans (hinsert.others _ hother)⟩

/-- The status of an order of the user and an audit row are written. -/
theorem others_of_cancel {db : Db} (howned : db.Owned) {record : OrderRecord}
    (hrecord : record ∈ db.orders) (status : OrderStatus) (detail : AuditDetail)
    (hother : other ≠ record.userId) :
    Db.Owned { db with orders := TradingService.setStatus record.id status db.orders
                       audit := db.audit ++ [⟨some record.userId, detail⟩] } ∧
      Db.ofUser other { db with orders := TradingService.setStatus record.id status db.orders
                                audit := db.audit ++ [⟨some record.userId, detail⟩] }
        = db.ofUser other := by
  have hstatus := ownWrite_setStatus howned hrecord status
  have haudit := ownWrite_audit record.userId hstatus.owned detail
  exact ⟨haudit.owned, (haudit.others _ hother).trans (hstatus.others _ hother)⟩

/-- An account row and an audit row are written. -/
theorem others_of_addAccount {db : Db} {account : ExchangeAccount} (howned : db.Owned)
    (hnew : ∀ a ∈ db.accounts, a.id ≠ account.id) (detail : AuditDetail)
    (hother : other ≠ account.userId) :
    (db.addAccount account detail).ofUser other = db.ofUser other := by
  have haudit := ownWrite_audit account.userId (howned.insertAccount hnew) detail
  refine (haudit.others _ hother).trans ?_
  have hholds : ∀ b ∈ db.balances,
      Db.holds { db with accounts := db.accounts ++ [account] } other b.accountId
        = db.holds other b.accountId := by
    intro b _
    simp [Db.holds, Ne.symm hother]
  unfold Db.ofUser
  rw [filter_append_other _ _ (by simpa using Ne.symm hother), List.filter_congr hholds]

/-- An order that a query by user finds is one of the user's. -/
theorem find_user {db : Db} {orderId userId : String} {record : OrderRecord}
    (h : db.orders.find? (fun o => o.id = orderId ∧ o.userId = userId) = some record) :
    record ∈ db.orders ∧ record.userId = userId := by
  have hkey : record.id = orderId ∧ record.userId = userId := by simpa using List.find?_some h
  exact ⟨List.mem_of_find?_eq_some h, hkey.2⟩

/-- What an operation writes is its user's: the rows of every other user are as they were. -/
theorem Operation.Wrote.others {op : Operation} (h : op.Wrote env w w') (howned : w.db.Owned)
    (hother : op.actor ≠ some other) : w'.db.ofUser other = w.db.ofUser other := by
  cases h with
  | nothing hop hdb => rw [hdb]
  | @placedPaper _ r account p hacc hmode hp hnew hdb =>
    have huser : r.userId = account.userId := Option.some.inj (Trade.account?_actor hacc)
    have hne : other ≠ account.userId := fun h => hother (congrArg some (huser.trans h.symm))
    have howner : (p.record env r account).userId = account.userId := huser
    have ⟨howned', hrows⟩ := others_of_place howned (Trade.account?_mem hacc) howner rfl hnew
      (.orderPlace r.accountId r.symbol r.side r.type p.order.isPaper p.order.status) hne
    have hmem : account ∈ w.db.accounts := Trade.account?_mem hacc
    have hsave := ownWrite_save howned' hmem p.ledger.balances
    rw [hdb]
    unfold Placement.commit
    rw [huser]
    exact (hsave.others _ hne).trans hrows
  | @placedLive _ r account record symbol order _ _ _ hacc hmode hreply hparse hrecord hnew hdb =>
    have huser : r.userId = account.userId := Option.some.inj (Trade.account?_actor hacc)
    have hne : other ≠ account.userId := fun h => hother (congrArg some (huser.trans h.symm))
    subst hrecord
    rw [hdb, huser]
    exact (others_of_place howned (Trade.account?_mem hacc) rfl rfl hnew _ hne).2
  | finished hfind hdone hdb => rw [hdb]
  | @canceledPaper userId _ record account status l _ hfind hopen hacc haccount hmode hout hdb =>
    have ⟨hrecord, huser⟩ := find_user hfind
    have hne : other ≠ record.userId := fun h => hother (congrArg some (huser.symm.trans h.symm))
    have huser' : userId = account.userId := Option.some.inj (Trade.account?_actor hacc)
    rw [hdb]
    unfold cancelCommit
    rw [← huser]
    have ⟨howned', hrows⟩ := others_of_cancel howned hrecord status
      (.orderCancel record.accountId record.id) hne
    have hmem : account ∈ w.db.accounts := Trade.account?_mem hacc
    have hsave := ownWrite_save howned' hmem l.balances
    exact (hsave.others _ (huser' ▸ huser ▸ hne)).trans hrows
  | @canceledLive userId _ record account _ hfind hopen hacc haccount hmode hcall hdb =>
    have ⟨hrecord, huser⟩ := find_user hfind
    have hne : other ≠ record.userId := fun h => hother (congrArg some (huser.symm.trans h.symm))
    rw [hdb, ← huser]
    exact (others_of_cancel howned hrecord _ _ hne).2
  | createdPaper hnew hdb =>
    rw [hdb]
    exact others_of_addAccount howned hnew _ fun h => hother (h ▸ rfl)
  | createdLive hnew hdb =>
    rw [hdb]
    exact others_of_addAccount howned hnew _ fun h => hother (h ▸ rfl)
  | @deleted accountId userId account hfind hdb =>
    have hkey : account.id = accountId ∧ account.userId = userId := by
      simpa using List.find?_some hfind
    have hne : other ≠ account.userId := fun h => hother (hkey.2.symm.trans h.symm ▸ rfl)
    have hdelete := ownWrite_delete howned (List.mem_of_find?_eq_some hfind)
    have haudit := ownWrite_audit account.userId hdelete.owned (.accountDelete accountId)
    rw [hdb, ← hkey.2]
    exact (haudit.others _ hne).trans (hdelete.others _ hne)

end Others

end TradingHub
