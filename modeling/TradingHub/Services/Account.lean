import TradingHub.Exchange.Factory

set_option autoImplicit false

/-! # Repositories and the account service

The durable paper ledger (`app/repositories/paper_ledger_repository.py`), the account and audit
repositories, and `app/services/account_service.py`, whose `adapterSession` wires the ledger into
an adapter, writes it back and closes the client. -/

namespace TradingHub

open Library

/-! ## The durable ledger -/

namespace PaperLedgerRepository

/-- The balances of an account's rows. -/
def balancesOf (accountId : String) (rows : List PaperBalanceRecord) : Dict String Balance :=
  Dict.ofEntries ((rows.filter (·.accountId = accountId)).map
    fun r => (r.asset, ⟨r.asset, r.free, r.used⟩))

/-- The resting order a record describes; the timestamp is not stored. -/
def orderOf (exchangeOrderId : String) (record : OrderRecord) : Order String :=
  { id := exchangeOrderId
    symbol := record.symbol
    side := record.side
    type := record.type
    status := record.status
    amount := record.amount
    filled := record.filled
    price := record.price
    average := record.average
    timestamp := none
    clientOrderId := record.clientOrderId
    fee := record.fee
    isPaper := true }

/-- The rows `_load_open_orders` selects. -/
def isOpenPaper (accountId : String) (record : OrderRecord) : Bool :=
  record.accountId = accountId ∧ record.isPaper ∧ (record.status = .open ∨ record.status = .partiallyFilled)

/-- The entry `_load_open_orders` makes of a row; a row without an exchange id is skipped. -/
def orderEntry (record : OrderRecord) : Option (String × Order String) :=
  match record.exchangeOrderId with
  | none => none
  | some id => if id = "" then none else some (id, orderOf id record)

/-- `_load_open_orders`. The statement has no `ORDER BY`: the rows are taken as they come, which is
    the order in which `orders` lists them. -/
def loadOpenOrders (accountId : String) (orders : List OrderRecord) : Dict String (Order String) :=
  Dict.ofEntries ((orders.filter (isOpenPaper accountId)).filterMap orderEntry)

/-- The ledger `load` builds from the tables; the starting balance is granted while the account
    has no balance rows. -/
def ledgerOf (accountId : String) (db : Db) : PaperLedger :=
  let balances := balancesOf accountId db.balances
  { quoteAsset := "USDT"
    startingBalance := 100000
    balances := if balances.entries = [] then Dict.empty.set "USDT" ⟨"USDT", 100000, 0⟩ else balances
    orders := loadOpenOrders accountId db.orders }

/-- `load`. The row lock of `for_update` matters between concurrent requests only. -/
def load (env : Env) (accountId : String) : Service PaperLedger := do
  execute env (.selectBalances accountId)
  execute env (.selectOpenOrders accountId)
  let w ← Act.read
  return ledgerOf accountId w.db

/-- Write one balance: update the row of the asset, or insert one. -/
def upsertRow (accountId : String) (rows : List PaperBalanceRecord) (entry : String × Balance) :
    List PaperBalanceRecord :=
  if rows.any (fun r => r.accountId = accountId ∧ r.asset = entry.1) then
    rows.map fun r =>
      if r.accountId = accountId ∧ r.asset = entry.1 then
        { r with free := entry.2.free, used := entry.2.used }
      else r
  else rows ++ [⟨accountId, entry.1, entry.2.free, entry.2.used⟩]

/-- The balance rows after `save`. -/
def saveRows (accountId : String) (balances : Dict String Balance)
    (rows : List PaperBalanceRecord) : List PaperBalanceRecord :=
  balances.entries.foldl (upsertRow accountId) rows

/-- `save`: upsert the ledger's balances. -/
def save (env : Env) (accountId : String) (ledger : PaperLedger) : Service Unit := do
  execute env .saveSelect
  Act.modify fun w =>
    { w with db := { w.db with balances := saveRows accountId ledger.balances w.db.balances } }
  execute env .saveFlush

end PaperLedgerRepository

/-- `AuditRepository.record`. -/
def auditRecord (env : Env) (userId : String) (detail : AuditDetail) : Service Unit := do
  execute env .insertAudit
  Act.modify fun w => { w with db := { w.db with audit := w.db.audit ++ [⟨some userId, detail⟩] } }

/-! ## The account service -/

namespace AccountService

/-- `AccountRepository.add`: the id is the primary key, and a user's labels on an exchange are
    unique. -/
def insertAccount (env : Env) (account : ExchangeAccount) : Service Unit := do
  execute env .insertAccount
  let w ← Act.read
  if w.db.accounts.any (fun a => a.id = account.id ∨ a.userId = account.userId ∧
      a.exchangeId = account.exchangeId ∧ a.label = account.label) then
    Act.raise (.external "IntegrityError" "exchange_accounts")
  else
    Act.modify fun w => { w with db := { w.db with accounts := w.db.accounts ++ [account] } }

def createPaperAccount (env : Env) (userId exchangeId label marketType : String) :
    Service ExchangeAccount := do
  let account : ExchangeAccount :=
    ⟨env.recordId, userId, exchangeId, label, marketType, true, none, none, none⟩
  insertAccount env account
  auditRecord env userId (.accountCreate true exchangeId label)
  return account

def createLiveAccount (env : Env) (userId exchangeId label marketType apiKey apiSecret : String)
    (passphrase : Option String) : Service ExchangeAccount := do
  match getInfo exchangeId with
  | none => Act.raise (.validation ("Unsupported exchange: " ++ exchangeId))
  | some info =>
    if info.requiresPassphrase ∧ (passphrase = none ∨ passphrase = some "") then
      Act.raise (.validation (info.name ++ " requires a passphrase."))
    else do
      let account : ExchangeAccount :=
        { id := env.recordId, userId, exchangeId, label, marketType, isPaper := false
          apiKeyEnc := some (env.cipher.encrypt apiKey)
          apiSecretEnc := some (env.cipher.encrypt apiSecret)
          passphraseEnc :=
            if passphrase = some "" then none else passphrase.map env.cipher.encrypt }
      insertAccount env account
      auditRecord env userId (.accountCreate false exchangeId label)
      return account

def listAccounts (env : Env) (userId : String) : Service (List ExchangeAccount) := do
  execute env .selectAccounts
  let w ← Act.read
  return w.db.accounts.filter (·.userId = userId)

def getAccount (env : Env) (accountId userId : String) : Service ExchangeAccount := do
  execute env .selectAccount
  let w ← Act.read
  match w.db.accounts.find? (fun a => a.id = accountId ∧ a.userId = userId) with
  | none => Act.raise (.notFound "Account not found.")
  | some account => return account

/-- `delete_account`; the foreign keys of orders and balances cascade. -/
def deleteAccount (env : Env) (accountId userId : String) : Service Unit := do
  let account ← getAccount env accountId userId
  execute env .deleteAccount
  Act.modify fun w => { w with db := { w.db with
    accounts := w.db.accounts.filter (·.id ≠ account.id)
    orders := w.db.orders.filter (·.accountId ≠ account.id)
    balances := w.db.balances.filter (·.accountId ≠ account.id) } }
  auditRecord env userId (.accountDelete accountId)

/-- A stored secret that is missing or empty. -/
def isBlank (secret : Option String) : Bool := secret = none ∨ secret = some ""

def decryptCredentials (env : Env) (account : ExchangeAccount) :
    Except AppError (Option ExchangeCredentials) :=
  if account.isPaper || isBlank account.apiKeyEnc || isBlank account.apiSecretEnc then .ok none
  else do
    let apiKey ← env.cipher.decrypt (account.apiKeyEnc.getD "")
    let apiSecret ← env.cipher.decrypt (account.apiSecretEnc.getD "")
    let passphrase ← if isBlank account.passphraseEnc then pure none
      else some <$> env.cipher.decrypt (account.passphraseEnc.getD "")
    return some { apiKey, apiSecret, passphrase }

/-- `_is_paper_effective`: whether the account trades on paper, by its own mode or by policy. -/
def isPaperEffective (settings : Settings) (account : ExchangeAccount) : Bool :=
  account.isPaper || !settings.allowLiveTrading

def buildAdapter (env : Env) (account : ExchangeAccount) (ledger : Option PaperLedger) :
    Service Adapter := do
  let credentials ← Act.ofExcept (decryptCredentials env account)
  ExchangeFactory.build account.id account.exchangeId credentials account.isPaper
    account.marketType ledger

/-- The `finally` of `adapter_session`: write the working copy back, then close the client. -/
def endSession (env : Env) (account : ExchangeAccount) (persist : Bool) (loaded : Bool)
    (adapter : Adapter) : Service Unit :=
  Act.tryFinally
    (do
      let w ← Act.read
      match persist && loaded, w.ledger with
      | true, some ledger => PaperLedgerRepository.save env account.id ledger
      | _, _ => return ())
    (adapter.close env)

/-- The durable ledger of an account that trades on paper. -/
def loadPaperLedger (env : Env) (account : ExchangeAccount) : Service (Option PaperLedger) := do
  let w ← Act.read
  if isPaperEffective w.settings account then do
    let ledger ← PaperLedgerRepository.load env account.id
    return some ledger
  else
    return none

/-- `adapter_session`: load the durable ledger of a paper account, build the adapter, run `body`
    and clean up however it ends. -/
def adapterSession {α : Type} (env : Env) (account : ExchangeAccount) (persist : Bool)
    (body : Adapter → Service α) : Service α := do
  let ledger ← loadPaperLedger env account
  let adapter ← buildAdapter env account ledger
  Act.tryFinally (body adapter) (endSession env account persist ledger.isSome adapter)

end AccountService

end TradingHub
