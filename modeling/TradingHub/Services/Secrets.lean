import TradingHub.Services.Books
import TradingHub.Services.KeyRotation
import TradingHub.Services.Policies

set_option autoImplicit false

/-! # Whose keys a request uses

What a user hands over with a live account comes back out of the cipher unchanged and is used for
nobody else: in every run, whatever keys the server has been given in between, a client with
credentials that is built or called during a request carries what the user of that request handed
over with an account that still exists (`secrets_serve_their_owner`). -/

namespace TradingHub

open Library AccountService

/-! ## What a request may reach -/

/-- The user an operation is carried out for; market data is public. -/
def Operation.actor : Operation → Option String
  | trade (.place _ r) => some r.userId
  | trade (.cancel userId _) => some userId
  | getOrder userId _ => some userId
  | listOrders userId _ _ _ _ => some userId
  | listOpenOrders userId _ => some userId
  | listPositions userId _ => some userId
  | createPaperAccount userId _ _ _ => some userId
  | createLiveAccount userId _ _ _ _ _ _ => some userId
  | listAccounts userId => some userId
  | getAccount _ userId => some userId
  | deleteAccount _ userId => some userId
  | aggregateBalances userId => some userId
  | ticker _ _ => none
  | orderBook _ _ _ => none
  | candles _ _ _ _ => none
  | indicator _ _ _ _ _ _ _ => none

/-- The account of a trade is its user's. -/
theorem Trade.account?_actor {db : Db} {account : ExchangeAccount} {t : Trade}
    (h : t.account? db = some account) : (Operation.trade t).actor = some account.userId := by
  cases t with
  | place limits r =>
    have hkey : account.id = r.accountId ∧ account.userId = r.userId := by
      simpa using List.find?_some h
    exact congrArg some hkey.2.symm
  | cancel userId orderId =>
    obtain ⟨record, -, hfind⟩ := Option.bind_eq_some_iff.1 h
    have hkey : account.id = record.accountId ∧ account.userId = userId := by
      simpa using List.find?_some hfind
    exact congrArg some hkey.2.symm

section

variable {event : Event → Prop} {settings : Settings} {env : Env} {w w' : World}

/-- A policy under which market data may be read without credentials. -/
structure AllowsMarketData (event : Event → Prop) (env : Env) : Prop where
  builds : ∀ info, (CcxtAdapter.mk info none "spot").Builds event Keyless env
  calls : ∀ m : Method, m.isPublic = true → Permits event Keyless m

/-- Market data is read through a keyless client. -/
theorem AllowsMarketData.withPublicAdapter {α : Type} (h : AllowsMarketData event env)
    (exchangeId : String) {body : CcxtAdapter → Service α}
    (hbody : ∀ info, Act.Keeps (Confined event Keyless settings) (body ⟨info, none, "spot"⟩)) :
    Act.Keeps (Traced event settings) (MarketService.withPublicAdapter env exchangeId body) := by
  have hnew : Act.Triple (Traced event settings) (ExchangeFactory.publicMarketAdapter exchangeId)
      (fun c w => (∃ info, c = ⟨info, none, "spot"⟩) ∧ Confined event Keyless settings w)
      (fun _ => Traced event settings) := by
    unfold ExchangeFactory.publicMarketAdapter CcxtAdapter.new
    split
    · split
      · exact Act.Triple.raise fun _ hw => hw
      · next info _ =>
        intro w hw
        exact ⟨⟨info, rfl⟩, hw.settings_eq, fun _ hc => absurd hc (by simp), hw.log_ok⟩
    · exact Act.Triple.raise fun _ hw => hw
  refine Act.Triple.bind hnew fun c => Act.Triple.of_fact ?_
  rintro ⟨info, rfl⟩
  exact (Act.Keeps.tryFinally (hbody info)
    (CcxtAdapter.close_confined (h.calls _ rfl))).conseq (fun _ hw => hw)
    (fun _ _ hw => hw.traced) (fun _ _ hw => hw.traced)

theorem AllowsMarketData.candles (h : AllowsMarketData event env)
    (exchangeId symbol timeframe : String) (limit : ℤ) :
    Act.Keeps (Traced event settings)
      (MarketService.candles env exchangeId symbol timeframe limit) := by
  unfold MarketService.candles
  split
  · refine h.withPublicAdapter exchangeId fun info => ?_
    exact Act.Keeps.bind (CcxtAdapter.call_confined (h.builds info) (h.calls _ rfl)) fun _ =>
      Act.Keeps.ofExcept _
  · exact Act.Keeps.raise _

/-- A read of one account through its adapter. -/
theorem accountRead_confined {α : Type} {db : Db} (accountId userId : String)
    {body : Adapter → Service α}
    (hserves : ∀ account ∈ db.accounts, account.userId = userId → Serves event settings env account)
    (hbody : ∀ (client : CcxtClient → Prop) (a : Adapter), a.Within event client env →
      Act.Keeps (Confined event client settings) (body a)) :
    Act.Triple (fun w => Traced event settings w ∧ w.db = db)
      (do let account ← getAccount env accountId userId
          adapterSession env account false body)
      (fun _ => Traced event settings) (fun _ => Traced event settings) := by
  refine Act.Triple.bind (getAccount_confined accountId userId db) fun account =>
    Act.Triple.of_fact fun hfind => ?_
  have hkey : account.id = accountId ∧ account.userId = userId := by
    simpa using List.find?_some hfind
  obtain ⟨client, hbuild⟩ := hserves account (List.mem_of_find?_eq_some hfind) hkey.2
  exact adapterSession_confined hbuild (hbody client)

theorem aggregateFrom_confined (totals : Dict String Balance) (accounts : List ExchangeAccount)
    (hserves : ∀ account ∈ accounts, Serves event settings env account) :
    Act.Keeps (Traced event settings) (PortfolioService.aggregateFrom env totals accounts) := by
  induction accounts generalizing totals with
  | nil => exact Act.Keeps.pure _
  | cons account rest ih =>
    rw [List.forall_mem_cons] at hserves
    obtain ⟨client, hbuild⟩ := hserves.1
    refine Act.Keeps.bind (Act.Keeps.tryExcept ?_ fun _ => Act.Keeps.pure _) fun balances =>
      ih _ hserves.2
    exact adapterSession_confined hbuild fun a ha => Adapter.fetchBalance_confined ha

theorem listAccounts_lists (userId : String) (db : Db) :
    Act.Triple (fun w => Traced event settings w ∧ w.db = db) (listAccounts env userId)
      (fun accounts w => accounts = db.accounts.filter (·.userId = userId) ∧ Traced event settings w)
      (fun _ => Traced event settings) := by
  refine Act.Triple.bind (execute_triple fun _ _ _ hw => hw.1.of_unchanged rfl rfl rfl) fun _ => ?_
  exact Act.Triple.read_bind fun w hw => Act.Triple.pure fun _ hw' => ⟨hw.2 ▸ rfl, hw'.1⟩

/-- An operation stays within a policy under which its user's accounts are served and market data
    may be read. -/
theorem Operation.run_confined (op : Operation) (db : Db) (hmarket : AllowsMarketData event env)
    (hserves : ∀ account ∈ db.accounts, op.actor = some account.userId →
      Serves event settings env account) :
    Act.Triple (fun w => Traced event settings w ∧ w.db = db) (op.run env)
      (fun _ => Traced event settings) (fun _ => Traced event settings) := by
  have hignore : ∀ {α : Type} {x : Service α},
      Act.Triple (fun w => Traced event settings w ∧ w.db = db) x (fun _ => Traced event settings)
        (fun _ => Traced event settings) →
      Act.Triple (fun w => Traced event settings w ∧ w.db = db) (do let _ ← x)
        (fun _ => Traced event settings) (fun _ => Traced event settings) :=
    fun h => Act.Triple.bind h fun _ => Act.Keeps.pure _
  have hkeeps : ∀ {α : Type} {x : Service α}, Act.Keeps (Traced event settings) x →
      Act.Triple (fun w => Traced event settings w ∧ w.db = db) x (fun _ => Traced event settings)
        (fun _ => Traced event settings) :=
    fun h w hw => h w hw.1
  have hown : ∀ {userId : String}, op.actor = some userId →
      ∀ account ∈ db.accounts, account.userId = userId → Serves event settings env account :=
    fun hactor account hmem huser => hserves account hmem (huser ▸ hactor)
  cases op with
  | trade t =>
    exact hignore (t.run_confined db fun account hacc =>
      hserves account (Trade.account?_mem hacc) (Trade.account?_actor hacc))
  | getOrder userId orderId => exact hignore (hkeeps (TradingService.getOrder_keeps _ _))
  | listOrders userId symbol status page pageSize =>
    refine hignore (hkeeps (Act.Keeps.bind (execute_confined _) fun _ => ?_))
    exact Act.Keeps.bind Act.Keeps.read fun _ => Act.Keeps.pure _
  | listOpenOrders userId accountId =>
    exact hignore (accountRead_confined accountId userId (hown rfl)
      fun _ a ha => Adapter.fetchOpenOrders_confined ha)
  | listPositions userId accountId =>
    exact hignore (accountRead_confined accountId userId (hown rfl)
      fun _ a ha => Adapter.fetchPositions_confined ha)
  | createPaperAccount userId exchangeId label marketType =>
    exact hignore (hkeeps (createPaperAccount_confined _ _ _ _))
  | createLiveAccount userId exchangeId label marketType apiKey apiSecret passphrase =>
    exact hignore (hkeeps (createLiveAccount_confined _ _ _ _ _ _ _))
  | listAccounts userId => exact hignore (hkeeps (listAccounts_confined userId))
  | getAccount accountId userId => exact hignore (hkeeps (getAccount_keeps _ _))
  | deleteAccount accountId userId => exact hkeeps (deleteAccount_confined _ _)
  | aggregateBalances userId =>
    refine hignore (Act.Triple.bind (listAccounts_lists userId db) fun accounts =>
      Act.Triple.of_fact fun haccounts => ?_)
    refine aggregateFrom_confined _ accounts fun account hacc => ?_
    rw [haccounts] at hacc
    obtain ⟨hmem, huser⟩ := List.mem_filter.1 hacc
    exact hown rfl account hmem (of_decide_eq_true huser)
  | ticker exchangeId symbol =>
    exact hignore (hkeeps (hmarket.withPublicAdapter exchangeId fun info =>
      CcxtAdapter.fetchTicker_confined (hmarket.builds info) (hmarket.calls _ rfl)))
  | orderBook exchangeId symbol limit =>
    refine hignore (hkeeps (hmarket.withPublicAdapter exchangeId fun info => ?_))
    refine Act.Keeps.bind (CcxtAdapter.call_confined (hmarket.builds info) (hmarket.calls _ rfl))
      fun _ => ?_
    exact Act.Keeps.bind (Act.Keeps.ofExcept _) fun _ =>
      Act.Keeps.bind (Act.Keeps.ofExcept _) fun _ => Act.Keeps.pure _
  | candles exchangeId symbol timeframe limit =>
    exact hignore (hkeeps (hmarket.candles _ _ _ _))
  | indicator compute exchangeId symbol name timeframe period limit =>
    refine hignore (hkeeps ?_)
    unfold MarketService.indicator
    simp only
    split
    · exact Act.Keeps.bind (hmarket.candles _ _ _ _) fun _ => Act.Keeps.ofExcept _
    · exact Act.Keeps.raise _

end

/-! ## What users hand over -/

/-- What a user hands over with a live account. -/
structure Supplied where
  userId : String
  exchangeId : String
  apiKey : String
  apiSecret : String
  passphrase : Option String

def Turn.supplied : Turn → List Supplied
  | serve _ (.createLiveAccount userId exchangeId _ _ apiKey apiSecret passphrase) =>
    [⟨userId, exchangeId, apiKey, apiSecret, passphrase⟩]
  | _ => []

/-- The stored token is one of `text`, under some key the server has been given. -/
def Fernet.TokenOf (f : Fernet) (token : Option String) (text : String) : Prop :=
  ∃ key nonce, token = some (f.encrypt key nonce text)

/-- The account stores what was handed over. -/
structure ExchangeAccount.Stores (f : Fernet) (a : ExchangeAccount) (s : Supplied) : Prop where
  user : a.userId = s.userId
  exchange : a.exchangeId = s.exchangeId
  apiKey : f.TokenOf a.apiKeyEnc s.apiKey
  apiSecret : f.TokenOf a.apiSecretEnc s.apiSecret
  passphrase : a.passphraseEnc = none ∧ (s.passphrase = none ∨ s.passphrase = some "") ∨
    ∃ text, s.passphrase = some text ∧ text ≠ "" ∧ f.TokenOf a.passphraseEnc text

/-- The client is for the exchange and has the credentials that were handed over. -/
structure CcxtClient.Carries (c : CcxtClient) (s : Supplied) : Prop where
  exchange : ∃ info, getInfo s.exchangeId = some info ∧ c.exchangeId = info.id
  apiKey : c.apiKey = some s.apiKey
  secret : c.secret = some s.apiSecret
  password : c.password = if s.passphrase = some "" then none else s.passphrase

/-- The cipher of the environment works with some ring of keys. -/
def Env.Keyed (f : Fernet) (env : Env) : Prop :=
  ∃ nonce keys, env.cipher = SecretCipher.ofKeys f nonce keys

/-- A ring that reads the token of a text reads the text. -/
theorem Fernet.TokenOf.decrypt {f : Fernet} (hf : f.Lawful) {env : Env} (henv : env.Keyed f)
    {token : Option String} {text text' : String} (h : f.TokenOf token text)
    (hread : env.cipher.decrypt (token.getD "") = .ok text') : text' = text := by
  obtain ⟨nonce, keys, hcipher⟩ := henv
  obtain ⟨key, n, rfl⟩ := h
  rw [hcipher, SecretCipher.ofKeys, Option.getD_some] at hread
  simp only at hread
  rcases hf.decryptAny_encrypt keys key n text with hnone | hsome
  · rw [hnone] at hread
    exact absurd hread (by simp)
  · rw [hsome] at hread
    exact (Except.ok.inj hread).symm

theorem Fernet.TokenOf.isBlank {f : Fernet} (hf : f.Lawful) {token : Option String} {text : String}
    (h : f.TokenOf token text) : isBlank token = false := by
  obtain ⟨key, n, rfl⟩ := h
  simp [AccountService.isBlank, hf.encrypt_ne_empty]

/-- What the credentials of an account decrypt to is what was handed over. -/
theorem ExchangeAccount.Stores.credentials {f : Fernet} (hf : f.Lawful) {env : Env}
    (henv : env.Keyed f) {a : ExchangeAccount} {s : Supplied} {creds : ExchangeCredentials}
    (h : a.Stores f s) (hcreds : decryptCredentials env a = .ok (some creds)) :
    creds.apiKey = s.apiKey ∧ creds.apiSecret = s.apiSecret ∧
      (if creds.passphrase = some "" then none else creds.passphrase)
        = if s.passphrase = some "" then none else s.passphrase := by
  unfold decryptCredentials at hcreds
  split at hcreds
  · exact absurd hcreds (by simp)
  · cases hkey : env.cipher.decrypt (a.apiKeyEnc.getD "") with
    | error e => exact absurd hcreds (by simp [hkey, bind, Except.bind])
    | ok apiKey =>
      cases hsecret : env.cipher.decrypt (a.apiSecretEnc.getD "") with
      | error e => exact absurd hcreds (by simp [hkey, hsecret, bind, Except.bind])
      | ok apiSecret =>
        obtain rfl := h.apiKey.decrypt hf henv hkey
        obtain rfl := h.apiSecret.decrypt hf henv hsecret
        rcases h.passphrase with ⟨hnone, hblank⟩ | ⟨text, htext, hne, htoken⟩
        · have hc : creds = { apiKey := s.apiKey, apiSecret := s.apiSecret } := by
            simpa [hkey, hsecret, hnone, isBlank, bind, Except.bind, pure, Except.pure]
              using hcreds.symm
          rw [hc]
          rcases hblank with hblank | hblank <;> simp [hblank]
        · cases hpass : env.cipher.decrypt (a.passphraseEnc.getD "") with
          | error e =>
            exact absurd hcreds (by simp [hkey, hsecret, hpass, htoken.isBlank hf, bind, Except.bind,
              Functor.map, Except.map])
          | ok passphrase =>
            obtain rfl := htoken.decrypt hf henv hpass
            have hc : creds
                = { apiKey := s.apiKey, apiSecret := s.apiSecret, passphrase := some passphrase } := by
              simpa [hkey, hsecret, hpass, htoken.isBlank hf, bind, Except.bind, pure, Except.pure,
                Functor.map, Except.map] using hcreds.symm
            rw [hc, htext]
            exact ⟨rfl, rfl, rfl⟩

/-! ## The policy -/

/-- The client has no credentials, or those of an account of the user, as they were handed over. -/
def Entrusted (f : Fernet) (db : Db) (supplied : List Supplied) (user : Option String)
    (c : CcxtClient) : Prop :=
  c.credentialed = true → ∃ a ∈ db.accounts, user = some a.userId ∧
    ∃ s ∈ supplied, a.Stores f s ∧ c.Carries s

/-- The client of an event, if it has one, is within the policy. -/
def Event.On (client : CcxtClient → Prop) : Event → Prop
  | .built c => client c
  | .call c _ _ => client c
  | .paper _ _ => True

section

variable {f : Fernet} {db : Db} {supplied : List Supplied} {user : Option String} {env : Env}
  {settings : Settings}

theorem entrusted_of_keyless {c : CcxtClient} (h : Keyless c) : Entrusted f db supplied user c :=
  fun hcred => absurd hcred (by simp [show c.credentialed = false from h])

theorem allowsMarketData_entrusted :
    AllowsMarketData (Event.On (Entrusted f db supplied user)) env where
  builds info :=
    { built := entrusted_of_keyless rfl
      plain := fun _ => rfl
      switching := fun h => absurd h (by simp [CcxtAdapter.wantsSandbox])
      switched := fun h => absurd h (by simp [CcxtAdapter.wantsSandbox])
      refused := fun h => absurd h (by simp [CcxtAdapter.wantsSandbox]) }
  calls _ _ _ hc _ := entrusted_of_keyless hc

/-- An account whose secrets were handed over is served within the policy. -/
theorem serves_entrusted (hf : f.Lawful) (henv : env.Keyed f) {account : ExchangeAccount}
    (hmem : account ∈ db.accounts) (huser : user = some account.userId)
    (hstored : account.isPaper = false → ∃ s ∈ supplied, account.Stores f s) :
    Serves (Event.On (Entrusted f db supplied user)) settings env account := by
  cases hmode : isPaperEffective settings account with
  | true =>
    refine ⟨Keyless, buildAdapter_paper_confined hmode fun info => ?_⟩
    exact
      { builds := allowsMarketData_entrusted.builds info
        close := fun _ hc _ => entrusted_of_keyless hc
        ticker := fun _ _ hc _ => entrusted_of_keyless hc
        paper := fun _ _ => trivial
        live := fun _ h => absurd h (by simp) }
  | false =>
    have hlive : account.isPaper = false := by
      simp only [isPaperEffective, Bool.or_eq_false_iff] at hmode
      exact hmode.1
    refine ⟨Entrusted f db supplied user, buildAdapter_live_confined hmode
      fun info creds hinfo hcreds hcomplete => ?_⟩
    obtain ⟨s, hs, hstores⟩ := hstored hlive
    obtain ⟨hkey, hsecret, hpass⟩ := hstores.credentials hf henv hcreds
    have hconfigured : (CcxtAdapter.mk info (some { creds with testnet := settings.useExchangeTestnet })
        account.marketType).configured
          = ⟨info.id, some s.apiKey, some s.apiSecret,
            if s.passphrase = some "" then none else s.passphrase, account.marketType, false⟩ := by
      rw [← hkey, ← hsecret, ← hpass]
      exact if_pos hcomplete
    -- Sandbox mode changes neither the exchange nor the credentials.
    have hclient : ∀ sandbox, Entrusted f db supplied user
        { (CcxtAdapter.mk info (some { creds with testnet := settings.useExchangeTestnet })
            account.marketType).configured with sandbox } := by
      intro sandbox _
      refine ⟨account, hmem, huser, s, hs, hstores, ?_⟩
      rw [hconfigured]
      exact ⟨⟨info, hstores.exchange ▸ hinfo, rfl⟩, rfl, rfl, rfl⟩
    have hplain : Entrusted f db supplied user
        (CcxtAdapter.mk info (some { creds with testnet := settings.useExchangeTestnet })
          account.marketType).configured := by
      have h := hclient false
      rw [hconfigured] at h ⊢
      exact h
    exact
      { builds := ⟨hplain, fun _ => hplain, fun _ _ => hplain, fun _ => hclient true,
          fun _ _ _ _ => hplain⟩
        close := fun _ hc _ => hc
        ticker := fun _ _ hc _ => hc
        paper := fun _ _ => trivial
        live := fun _ _ _ _ _ hc _ => hc }

end

/-! ## The run -/

/-- Every live account stores what a user handed over. -/
def Db.Handed (f : Fernet) (supplied : List Supplied) (db : Db) : Prop :=
  ∀ a ∈ db.accounts, a.isPaper = false → ∃ s ∈ supplied, a.Stores f s

/-- A turn whose cipher has a ring of keys. -/
def Turn.Keyed (f : Fernet) : Turn → Prop
  | serve env _ => env.SelectsRead ∧ env.Keyed f
  | restart _ => True

namespace Db.Handed

variable {f : Fernet} {supplied : List Supplied} {db db' : Db} {env : Env} {w w' : World}

theorem of_accounts (h : db.Handed f supplied) (hsub : ∀ a ∈ db'.accounts, a ∈ db.accounts)
    (more : List Supplied) : db'.Handed f (supplied ++ more) := by
  intro a ha hlive
  obtain ⟨s, hs, hstores⟩ := h a (hsub a ha) hlive
  exact ⟨s, List.mem_append_left _ hs, hstores⟩

/-- What the cipher of a ring stores for a new live account. -/
theorem stores_new (henv : env.Keyed f)
    (userId exchangeId label marketType apiKey apiSecret : String) (passphrase : Option String) :
    (liveAccount env userId exchangeId label marketType apiKey apiSecret passphrase).Stores f
      ⟨userId, exchangeId, apiKey, apiSecret, passphrase⟩ := by
  obtain ⟨nonce, keys, hcipher⟩ := henv
  have htoken : ∀ text, f.TokenOf (some (env.cipher.encrypt text)) text := fun text =>
    ⟨keys.headD "", nonce, by rw [hcipher]; rfl⟩
  refine ⟨rfl, rfl, htoken apiKey, htoken apiSecret, ?_⟩
  cases passphrase with
  | none => exact Or.inl ⟨rfl, Or.inl rfl⟩
  | some text =>
    by_cases hblank : text = ""
    · subst hblank
      exact Or.inl ⟨rfl, Or.inr rfl⟩
    · refine Or.inr ⟨text, rfl, hblank, ?_⟩
      simpa [liveAccount, hblank] using htoken text

/-- The step: what an operation writes. -/
theorem wrote (h : w.db.Handed f supplied) (henv : env.Keyed f) {op : Operation}
    (hwrote : op.Wrote env w w') : w'.db.Handed f (supplied ++ (Turn.serve env op).supplied) := by
  cases hwrote with
  | nothing _ hdb => exact h.of_accounts (by simp [hdb]) _
  | placedPaper _ _ _ _ hdb => exact h.of_accounts (by rw [hdb]; exact fun a ha => ha) _
  | placedLive _ _ _ _ _ _ hdb => exact h.of_accounts (by rw [hdb]; exact fun a ha => ha) _
  | finished _ _ hdb => exact h.of_accounts (by simp [hdb]) _
  | canceledPaper _ _ _ _ _ _ hdb => exact h.of_accounts (by rw [hdb]; exact fun a ha => ha) _
  | canceledLive _ _ _ _ _ _ hdb => exact h.of_accounts (by rw [hdb]; exact fun a ha => ha) _
  | createdPaper hnew hdb =>
    intro a ha hlive
    rw [hdb] at ha
    rcases List.mem_append.1 ha with ha | ha
    · exact h.of_accounts (fun _ ha => ha) _ a ha hlive
    · rw [List.mem_singleton.1 ha] at hlive
      exact absurd hlive (by simp)
  | createdLive hnew hdb =>
    intro a ha hlive
    rw [hdb] at ha
    rcases List.mem_append.1 ha with ha | ha
    · exact h.of_accounts (fun _ ha => ha) _ a ha hlive
    · rw [List.mem_singleton.1 ha]
      exact ⟨_, List.mem_append_right _ (List.mem_singleton.2 rfl), stores_new henv _ _ _ _ _ _ _⟩
  | deleted hfind hdb =>
    refine h.of_accounts (fun a ha => ?_) _
    rw [hdb] at ha
    exact (List.mem_filter.1 ha).1

/-- The step: a turn, successful or not. -/
theorem turn (h : w.db.Handed f supplied) {t : Turn} (ht : t.Keyed f) :
    (t.apply w).db.Handed f (supplied ++ t.supplied) := by
  cases t with
  | restart settings => exact h.of_accounts (fun _ ha => ha) _
  | serve env op =>
    show (getSession env (op.run env) w).2.db.Handed f _
    obtain ⟨u, w', hrun, hserve⟩ | ⟨e, w', hserve, hdb⟩ := getSession_cases env (op.run env) w
    · rw [hserve]
      exact h.wrote ht.2 (op.run_wrote ht.1 hrun)
    · rw [hserve]
      exact h.of_accounts (by simp [hdb]) _

/-- The run. -/
theorem run (turns : List Turn) (hturns : ∀ t ∈ turns, t.Keyed f) (w : World)
    (h : w.db.Handed f supplied) :
    (turns.foldl Turn.apply w).db.Handed f (supplied ++ turns.flatMap Turn.supplied) := by
  induction turns generalizing w supplied with
  | nil => simpa using h
  | cons t turns ih =>
    rw [List.forall_mem_cons] at hturns
    have hrest := ih hturns.2 (t.apply w) (h.turn hturns.1)
    rwa [List.append_assoc, ← List.flatMap_cons] at hrest

end Db.Handed

/-- Whose keys a request uses: after every run, whatever rings of keys the server was given, every
    client with credentials that the next request builds or calls has the exchange, the keys and the
    passphrase that the user of the request handed over together, for an account that still exists.
    The trace of the request starts empty; what came before may still show in its environment. -/
theorem secrets_serve_their_owner {f : Fernet} (hf : f.Lawful) (settings : Settings)
    (turns : List Turn) (hturns : ∀ t ∈ turns, t.Keyed f) (w : World)
    (hw : turns.foldl Turn.apply (World.boot settings ⟨[], [], [], []⟩) = w) (env : Env)
    (henv : env.Keyed f) (op : Operation) :
    ∀ e ∈ (serve { w with log := [] } (env, op)).log,
      e.On (Entrusted f w.db (turns.flatMap Turn.supplied) op.actor) := by
  have hhanded : w.db.Handed f (turns.flatMap Turn.supplied) := by
    have hboot : (World.boot settings ⟨[], [], [], []⟩).db.Handed f [] :=
      fun _ ha => absurd ha (by simp [World.boot])
    have hrun := hboot.run turns hturns
    rw [hw] at hrun
    simpa using hrun
  have htraced : Traced (Event.On (Entrusted f w.db (turns.flatMap Turn.supplied) op.actor))
      w.settings (serve { w with log := [] } (env, op)) := by
    refine (getSession_confined (op.run_confined w.db allowsMarketData_entrusted
      fun account hmem huser => serves_entrusted hf henv hmem huser (hhanded account hmem))).final ?_
    exact ⟨⟨rfl, fun _ _ => trivial, fun _ he => absurd he (by simp)⟩, rfl⟩
  exact htraced.log_ok

/-- Two users with live accounts, and a request of one of them after the key was replaced. -/
theorem secrets_sample :
    let turns : List Turn :=
      [.serve ((Env.quiet 100 "a").withKeys .sample "" ["old"])
          (.createLiveAccount "u" "kraken" "main" "spot" "key-of-u" "secret-of-u" none),
        .serve ((Env.quiet 100 "b").withKeys .sample "" ["old"])
          (.createLiveAccount "v" "okx" "main" "spot" "key-of-v" "secret-of-v" (some "phrase"))]
    let w := turns.foldl Turn.apply (World.boot ⟨true, true⟩ ⟨[], [], [], []⟩)
    let env := (Env.quiet 100 "c").withKeys .sample "" ["new", "old"]
    let log := (serve { w with log := [] } (env, .aggregateBalances "v")).log
    log.any (fun
        | .built c => c = ⟨"okx", some "key-of-v", some "secret-of-v", some "phrase", "spot", false⟩
        | _ => false) = true ∧
      ∀ e ∈ log, e.On (Entrusted .sample w.db (turns.flatMap Turn.supplied) (some "v")) := by
  intro turns w env log
  have hselects : ∀ n keys, ((Env.quiet 100 n).withKeys .sample "" keys).SelectsRead :=
    fun _ _ _ _ _ hf => absurd hf (by simp [Env.withKeys, Env.quiet])
  have hturns : ∀ t ∈ turns, t.Keyed .sample := by
    intro t ht
    rcases List.mem_cons.1 ht with rfl | ht
    · exact ⟨hselects _ _, "", ["old"], rfl⟩
    · rw [List.mem_singleton.1 ht]
      exact ⟨hselects _ _, "", ["old"], rfl⟩
  exact ⟨by decide +kernel, secrets_serve_their_owner Fernet.sample_lawful ⟨true, true⟩ turns hturns w
    rfl env ⟨"", ["new", "old"], rfl⟩ (.aggregateBalances "v")⟩

end TradingHub
