import TradingHub.Api.Access
import TradingHub.Services.Sessions

set_option autoImplicit false

/-! # The platform behind its routes

The authentication service and the trading services as one state machine, the way `app/api/v1` puts
them together: tokens are handed out by `login` and `refresh`, and the routes of the services and of
the second factor believe what an access token says about its user. A request presents a token that
was handed out, since a signature cannot be forged, and a restart may find any revocations and login
failures: the stores in memory start anew, those in Redis stay.

Every change of the trading tables is authorised by a token in its lifetime, and is its user's
(`changes_are_authorised`); once the sessions of a user are dropped, what was handed out before is
worth nothing after the lifetime of an access token (`dropped_sessions_die`). -/

namespace TradingHub

open Library

/-! ## Requests -/

/-- The routes of `app/api/v1/auth.py` that take no access token. -/
inductive OpenRoute
  | register (email password : String)
  | login (email password : String) (totpCode ip : Option String)
  | refresh (token : TokenClaims)
  | logout (token : TokenClaims)
deriving DecidableEq

def OpenRoute.request : OpenRoute → AuthRequest
  | register email password => .register email password
  | login email password totpCode ip => .login email password totpCode ip
  | refresh token => .refresh token
  | logout token => .logout token

/-- The routes of `app/api/v1/auth.py` for the second factor of the current user. -/
inductive SecondFactorRoute
  | enroll
  | confirm (code : String)
  | disable (code : String)
deriving DecidableEq

def SecondFactorRoute.request (userId : String) : SecondFactorRoute → AuthRequest
  | enroll => .enroll userId
  | confirm code => .confirm userId code
  | disable code => .disable userId code

inductive ApiRequest
  | session (draws : Draws) (route : OpenRoute)
  | secondFactor (draws : Draws) (token : TokenClaims) (route : SecondFactorRoute)
  | service (env : Env) (token : TokenClaims) (route : Route)
  /-- The server is started again and finds these stores. -/
  | restart (settings : Settings) (tokenStore : TokenStore) (throttle : LoginThrottle)

/-- The access token a request is authenticated with. -/
def ApiRequest.bearer : ApiRequest → Option TokenClaims
  | secondFactor _ token _ => some token
  | service _ token _ => some token
  | _ => none

/-- A request and the moment it comes at. -/
structure Arrival where
  moment : ℚ
  request : ApiRequest

inductive ApiReply
  | session (reply : Except AuthFailure AuthReply)
  | refused (error : AccessError)
  | served
  | restarted
deriving DecidableEq

/-! ## The platform -/

/-- The pairs of tokens handed out so far are kept with the moment they were issued at. -/
structure Platform where
  auth : AuthServer
  trading : World
  issued : List (ℚ × TokenPair)

/-- The pair in a reply. -/
def AuthReply.pairs (now : ℚ) : Except AuthFailure AuthReply → List (ℚ × TokenPair)
  | .ok (.pair tokens) => [(now, tokens)]
  | _ => []

namespace Platform

/-- The start on a table of users, with nothing handed out and no account. -/
def start (auth : AuthServer) (settings : Settings) : Platform :=
  ⟨auth, World.boot settings ⟨[], [], [], []⟩, []⟩

/-- The authentication service takes the request, in its state `s`. -/
def serveAuth (env : AuthEnv) (p : Platform) (s : AuthServer) (draws : Draws)
    (request : AuthRequest) : ApiReply × Platform :=
  let served := AuthService.serve env draws request s
  (.session served.1,
    { p with auth := served.2, issued := p.issued ++ AuthReply.pairs s.now served.1 })

/-- Serve a request: the reply, and the platform after it. -/
def respond (env : AuthEnv) (p : Platform) (a : Arrival) : ApiReply × Platform :=
  let s := p.auth.atMoment a.moment
  match a.request with
  | .session draws route => p.serveAuth env s draws route.request
  | .secondFactor draws token route =>
    match getCurrentUser token s.now with
    | .error e => (.refused e, { p with auth := s })
    | .ok user => p.serveAuth env s draws (route.request user.id)
  | .service tradingEnv token route =>
    match route.serve tradingEnv token s.now p.trading with
    | .error e => (.refused e, { p with auth := s })
    | .ok w => (.served, { p with auth := s, trading := w })
  | .restart settings tokenStore throttle =>
    (.restarted, { p with
      auth := { s with db := s.committed, tokenStore, throttle }
      trading := p.trading.restart settings })

def step (env : AuthEnv) (p : Platform) (a : Arrival) : Platform := (p.respond env a).2

/-- The token was handed out. -/
def HandedOut (p : Platform) (token : TokenClaims) : Prop :=
  ∃ e ∈ p.issued, token = e.2.access ∨ token = e.2.refresh

instance (p : Platform) (token : TokenClaims) : Decidable (p.HandedOut token) :=
  inferInstanceAs (Decidable (∃ e ∈ p.issued, token = e.2.access ∨ token = e.2.refresh))

/-- What is presented was handed out, as it is when signatures cannot be forged and other tokens are
    refused, and the database answers queries without writing. -/
def Admits (p : Platform) (a : Arrival) : Prop :=
  match a.request with
  | .session _ (.refresh token) => p.HandedOut token
  | .session _ (.logout token) => p.HandedOut token
  | .session _ _ => True
  | .secondFactor _ token _ => p.HandedOut token
  | .service env token _ => p.HandedOut token ∧ env.SelectsRead
  | .restart _ _ _ => True

end Platform

/-- A token that is accepted as an access token. -/
theorem decode_access {token claims : TokenClaims} {now : ℚ}
    (h : TokenService.decode token .access now = .ok claims) :
    now < token.expiresAt ∧ token.tokenType = .access := by
  unfold TokenService.decode at h
  split at h
  · exact absurd h (by simp)
  · split at h
    · exact absurd h (by simp)
    · next hlive =>
      split at h
      · exact absurd h (by simp)
      · next htype => exact ⟨not_le.1 hlive, not_not.1 htype⟩

/-! ## What an answer of the authentication service hands out -/

/-- A row of a user that is as before in what tokens say about it: the same role, and no earlier
    generation. -/
def UserRecord.Succeeds (user' user : UserRecord) : Prop :=
  user'.role = user.role ∧ user.tokenGeneration ≤ user'.tokenGeneration

theorem mem_pairs {now : ℚ} {reply : Except AuthFailure AuthReply} {e : ℚ × TokenPair}
    (h : e ∈ AuthReply.pairs now reply) : reply = .ok (.pair e.2) := by
  unfold AuthReply.pairs at h
  split at h
  · rw [List.mem_singleton.1 h]
  · exact absurd h (by simp)

section Effects

variable {env : AuthEnv} {draws : Draws} {s : AuthServer} {request : AuthRequest}
  {reply : Except AuthFailure AuthReply} {users : Dict String UserRecord} {tokenStore : TokenStore}

theorem succeeds_rehashed {password : String} {id id' : String} {user accepted : UserRecord}
    {totpCode : Option String} {now : ℚ}
    (h : checkCredentials env (some (id, user)) password totpCode now = .accepted id' accepted) :
    (accepted.rehashed env draws password).Succeeds user := by
  have haccepted : accepted.Succeeds user := by
    rcases accepted_cases h with ⟨-, rfl⟩ | ⟨-, hconsumed⟩
    · exact ⟨rfl, le_refl _⟩
    · obtain ⟨-, -, -, -, -, rfl⟩ := consumeTotp_eq_ok hconsumed
      exact ⟨rfl, le_refl _⟩
  unfold UserRecord.rehashed
  split
  · exact haccepted
  · exact haccepted

theorem succeeds_set {table : Dict String UserRecord} {id id' : String} {user row row' : UserRecord}
    (hget : table.get? id = some user) (hget' : table.get? id' = some row)
    (hrow : row'.Succeeds row) :
    ∃ user', (table.set id' row').get? id = some user' ∧ user'.Succeeds user := by
  by_cases hid : id = id'
  · subst hid
    obtain rfl := Option.some.inj (hget.symm.trans hget')
    exact ⟨row', Dict.get?_set_self _ _ _, hrow⟩
  · exact ⟨user, (Dict.get?_set_of_ne _ _ hid).trans hget, rfl, le_refl _⟩

/-- A user stays, with the role it has. -/
theorem Effect.succeeds (h : Effect env draws s request reply users tokenStore) {id : String}
    {user : UserRecord} (hget : s.db.users.get? id = some user) :
    ∃ user', users.get? id = some user' ∧ user'.Succeeds user := by
  cases h with
  | registered hnew =>
    have hid : id ≠ draws.userId := by
      rintro rfl
      exact absurd (hget.symm.trans hnew) (by simp)
    exact ⟨user, (Dict.get?_set_of_ne _ _ hid).trans hget, rfl, le_refl _⟩
  | loggedIn hget' haccepted => exact succeeds_set hget hget' (succeeds_rehashed haccepted)
  | reused hdecode hget' hactive hrevoked =>
    exact succeeds_set hget hget' ⟨rfl, by simp⟩
  | enrolled hget' hdisabled => exact succeeds_set hget hget' ⟨rfl, le_refl _⟩
  | confirmed hget' hsecret hconsumed =>
    obtain ⟨-, -, -, -, -, rfl⟩ := consumeTotp_eq_ok hconsumed
    exact succeeds_set hget hget' ⟨rfl, le_refl _⟩
  | disabled hget' henabled hsecret hconsumed =>
    obtain ⟨-, -, -, -, -, rfl⟩ := consumeTotp_eq_ok hconsumed
    exact succeeds_set hget hget' ⟨rfl, le_refl _⟩
  | _ => exact ⟨user, hget, rfl, le_refl _⟩

/-- A pair is handed out for a user there is, with the role and the generation of the row. -/
theorem Effect.pair (h : Effect env draws s request reply users tokenStore) {e : ℚ × TokenPair}
    (he : e ∈ AuthReply.pairs s.now reply) :
    ∃ id user, users.get? id = some user ∧
      e = (s.now, env.tokens.issuePair id user.role user.tokenGeneration draws.accessJti
        draws.refreshJti s.now) := by
  cases h with
  | loggedIn hget haccepted =>
    exact ⟨_, _, Dict.get?_set_self _ _ _, List.mem_singleton.1 he⟩
  | rotated hdecode hget hactive hrevoked hgeneration =>
    exact ⟨_, _, hget, List.mem_singleton.1 he⟩
  | _ => exact absurd he (by simp [AuthReply.pairs])

/-- A request is answered with a pair if it logs in, or refreshes with a token of the generation
    that its user is at. -/
theorem Effect.pair_request (h : Effect env draws s request reply users tokenStore)
    {e : ℚ × TokenPair} (he : e ∈ AuthReply.pairs s.now reply) :
    (∃ email password totpCode ip, request = .login email password totpCode ip) ∨
      ∃ token user, request = .refresh token ∧ e.2.access.subject = token.subject ∧
        s.db.users.get? token.subject = some user ∧ user.tokenGeneration ≤ token.generation := by
  cases h with
  | loggedIn hget haccepted => exact .inl ⟨_, _, _, _, rfl⟩
  | rotated hdecode hget hactive hrevoked hgeneration =>
    obtain rfl := List.mem_singleton.1 he
    exact .inr ⟨_, _, rfl, rfl, hget, hgeneration⟩
  | _ => exact absurd he (by simp [AuthReply.pairs])

/-- The answer that tells of a revoked token has dropped the sessions. -/
theorem Effect.drops_sessions {token : TokenClaims}
    (h : Effect env draws s (.refresh token) reply users tokenStore)
    (hreply : reply = .error (authenticationError "This refresh token has been revoked.")) :
    ∃ user, s.db.users.get? token.subject = some user ∧
      users.get? token.subject = some { user with tokenGeneration := user.tokenGeneration + 1 } := by
  cases h with
  | raised failure hrequest => exact absurd rfl (hrequest token)
  | reused hdecode hget hactive hrevoked => exact ⟨_, hget, Dict.get?_set_self _ _ _⟩
  | _ => exact absurd hreply (by simp [authenticationError])

end Effects

/-! ## The invariant -/

theorem serve_owned {env : Env} {op : Operation} {w : World} (hselects : env.SelectsRead)
    (h : w.db.Owned) : (TradingHub.serve w (env, op)).db.Owned := by
  obtain ⟨u, w', hrun, hserve⟩ | ⟨e, w', hserve, hdb⟩ := getSession_cases env (op.run env) w
  · show (getSession env (op.run env) w).2.db.Owned
    rw [hserve]
    exact op.run_owned hselects h hrun
  · show (getSession env (op.run env) w).2.db.Owned
    rw [hserve]
    exact hdb ▸ h

/-- A pair was handed out by now to a user there is, with the role of the user and a generation that
    the user was at. -/
def AuthServer.Entitles (env : AuthEnv) (s : AuthServer) (e : ℚ × TokenPair) : Prop :=
  e.1 ≤ s.now ∧ ∃ id user generation accessJti refreshJti, s.db.users.get? id = some user ∧
    generation ≤ user.tokenGeneration ∧
    e.2 = env.tokens.issuePair id user.role generation accessJti refreshJti e.1

/-- What entitles stays when the rows of the users are succeeded. -/
theorem AuthServer.Entitles.mono {env : AuthEnv} {s s' : AuthServer} {e : ℚ × TokenPair} (h : s.Entitles env e)
    (hnow : s.now ≤ s'.now)
    (husers : ∀ id user, s.db.users.get? id = some user →
      ∃ user', s'.db.users.get? id = some user' ∧ user'.Succeeds user) :
    s'.Entitles env e := by
  obtain ⟨hle, id, user, generation, accessJti, refreshJti, hget, hgeneration, hpair⟩ := h
  obtain ⟨user', hget', hrole, hgrown⟩ := husers id user hget
  refine ⟨hle.trans hnow, id, user', generation, accessJti, refreshJti, hget',
    hgeneration.trans hgrown, ?_⟩
  rw [hrole, hpair]

namespace Platform

structure Sound (env : AuthEnv) (p : Platform) : Prop where
  clean : p.auth.committed = p.auth.db
  owned : p.trading.db.Owned
  issued : ∀ e ∈ p.issued, p.auth.Entitles env e

variable {env : AuthEnv} {p : Platform}

theorem Sound.start {auth : AuthServer} (hclean : auth.committed = auth.db) (settings : Settings) :
    Sound env (Platform.start auth settings) where
  clean := hclean
  owned := Db.Owned.empty
  issued := by simp [Platform.start]

theorem Sound.atMoment (h : p.Sound env) (moment : ℚ) :
    Sound env { p with auth := p.auth.atMoment moment } where
  clean := h.clean
  owned := h.owned
  issued e he := (h.issued e he).mono (le_max_left _ _) fun _ user hget =>
    ⟨user, hget, rfl, le_refl _⟩

/-- The authentication service keeps the invariant. -/
theorem Sound.serveAuth (h : p.Sound env) (moment : ℚ) (draws : Draws) (request : AuthRequest) :
    Sound env (p.serveAuth env (p.auth.atMoment moment) draws request).2 := by
  have hmoment := h.atMoment moment
  have houtcome := AuthService.serve_outcome env draws request hmoment.clean
  refine ⟨houtcome.clean, h.owned, fun e he => ?_⟩
  rcases List.mem_append.1 he with he | he
  · refine (hmoment.issued e he).mono houtcome.clock.ge fun id user hget => ?_
    exact houtcome.effect.succeeds hget
  · obtain ⟨id, user, hget, rfl⟩ := houtcome.effect.pair he
    exact ⟨houtcome.clock.ge, id, user, _, _, _, hget, le_refl _, rfl⟩

/-- The step: serving a request keeps the invariant. -/
theorem Sound.step (h : p.Sound env) (a : Arrival) (ha : p.Admits a) :
    Sound env (p.step env a) := by
  obtain ⟨moment, request⟩ := a
  have hmoment := h.atMoment moment
  cases request with
  | session draws route => exact h.serveAuth moment draws route.request
  | secondFactor draws token route =>
    unfold Platform.step respond
    simp only
    split
    · exact hmoment
    · exact h.serveAuth moment draws _
  | service tradingEnv token route =>
    unfold Platform.step respond
    simp only
    split
    · exact hmoment
    · next w hserve =>
      obtain ⟨-, -, rfl⟩ := Route.serve_ok hserve
      exact ⟨h.clean, serve_owned ha.2 h.owned, hmoment.issued⟩
  | restart settings tokenStore throttle =>
    refine ⟨rfl, h.owned, fun e he => (hmoment.issued e he).mono (le_refl _) fun id user hget => ?_⟩
    refine ⟨user, ?_, rfl, le_refl _⟩
    show p.auth.committed.users.get? id = some user
    rw [h.clean]
    exact hget

/-! ## Changes are authorised -/

/-- An access token that is accepted was handed out within its lifetime, to a user who has the role
    it says. -/
theorem Sound.access (h : p.Sound env) {token : TokenClaims} (hout : p.HandedOut token) {now : ℚ}
    (hnow : p.auth.now ≤ now) (hdecode : TokenService.decode token .access now = .ok token) :
    (∃ e ∈ p.issued, token = e.2.access ∧ e.1 ≤ now ∧ now < e.1 + env.tokens.accessTtl) ∧
      ∃ user, p.auth.db.users.get? token.subject = some user ∧ user.role = token.role := by
  obtain ⟨hlive, htype⟩ := decode_access hdecode
  obtain ⟨e, he, htoken⟩ := hout
  obtain ⟨hle, id, user, generation, accessJti, refreshJti, hget, -, hpair⟩ := h.issued e he
  rw [hpair] at htoken
  rcases htoken with rfl | rfl
  · have hexpires : (⌊e.1 + env.tokens.accessTtl⌋ : ℚ) ≤ e.1 + env.tokens.accessTtl :=
      Int.floor_le _
    exact ⟨⟨e, he, by rw [hpair], hle.trans hnow, hlive.trans_le hexpires⟩, user, hget, rfl⟩
  · exact absurd htype (by simp [TokenService.issuePair, TokenService.encode])

/-- The token was handed out at a moment from which its lifetime has not passed, to a user who has
    the role it says and may write. -/
structure Authorises (env : AuthEnv) (p : Platform) (now : ℚ) (token : TokenClaims) : Prop where
  issued : ∃ e ∈ p.issued, token = e.2.access ∧ e.1 ≤ now ∧ now < e.1 + env.tokens.accessTtl
  role : ∃ user, p.auth.db.users.get? token.subject = some user ∧ user.role = token.role ∧
    (user.role = "trader" ∨ user.role = "admin")

/-- A request that changes the tables got through with a token, and wrote rows of its user. -/
theorem Sound.change (h : p.Sound env) {a : Arrival} (ha : p.Admits a)
    (hchange : (p.step env a).trading.db ≠ p.trading.db) :
    ∃ tradingEnv token route, a.request = .service tradingEnv token route ∧
      Authorises env p (p.auth.atMoment a.moment).now token ∧
      hasPermission token.role route.permission = true ∧
      ∀ other, other ≠ token.subject →
        (p.step env a).trading.db.ofUser other = p.trading.db.ofUser other := by
  obtain ⟨moment, request⟩ := a
  cases request with
  | session draws route => exact absurd rfl hchange
  | secondFactor draws token route =>
    refine absurd ?_ hchange
    unfold Platform.step respond
    simp only
    split <;> rfl
  | restart settings tokenStore throttle => exact absurd rfl hchange
  | service tradingEnv token route =>
    cases hserve : route.serve tradingEnv token (p.auth.atMoment moment).now p.trading with
    | error e =>
      refine absurd ?_ hchange
      simp only [Platform.step, respond, hserve]
    | ok w =>
      have hstep : (p.step env ⟨moment, .service tradingEnv token route⟩).trading.db = w.db := by
        simp only [Platform.step, respond, hserve]
      rw [hstep] at hchange
      obtain ⟨hdecode, hpermission, rfl⟩ := Route.serve_ok hserve
      obtain ⟨u, w', hrun, hsession⟩ | ⟨e, w', hsession, hdb⟩ := getSession_cases tradingEnv
        ((route.operation token.subject).run tradingEnv) p.trading
      · have hw : TradingHub.serve p.trading (tradingEnv, route.operation token.subject) = w' := by
          simp only [TradingHub.serve, hsession]
        rw [hw] at hstep hchange
        have hwrote := Operation.run_wrote ha.2 hrun
        have hwrites : (route.operation token.subject).writes = true := by
          by_contra hread
          exact hchange (db_of_keeps
            (fun _ => (route.operation token.subject).run_onDb ha.2 (by simpa using hread)) hrun)
        have hactor := Route.actor_of_writes hwrites
        rw [Route.writes_permission] at hwrites
        have hmay := writers hwrites hpermission
        obtain ⟨hissued, user, hget, hrole⟩ := h.access ha.1 (le_max_left _ _) hdecode
        refine ⟨_, _, _, rfl, ⟨hissued, user, hget, hrole, hrole ▸ hmay⟩, hpermission, ?_⟩
        intro other hother
        rw [hstep]
        refine hwrote.others h.owned ?_
        rw [hactor]
        exact fun hsame => hother (Option.some.inj hsame).symm
      · refine absurd ?_ hchange
        simp only [TradingHub.serve, hsession, hdb]

/-- In every run, a request that changes the trading tables carries an access token that was handed
    out to its user within the lifetime of access tokens; the user has the role the token says, which
    is one that may write, and no row of another user changes. -/
theorem changes_are_authorised (env : AuthEnv) (auth : AuthServer)
    (hclean : auth.committed = auth.db) (settings : Settings) (as : List Arrival)
    (hadmits : Guarded (Platform.step env) Admits (Platform.start auth settings) as) (p : Platform)
    (hp : p = as.foldl (Platform.step env) (Platform.start auth settings)) (a : Arrival)
    (ha : p.Admits a) (hchange : (p.step env a).trading.db ≠ p.trading.db) :
    ∃ tradingEnv token route, a.request = .service tradingEnv token route ∧
      Authorises env p (p.auth.atMoment a.moment).now token ∧
      hasPermission token.role route.permission = true ∧
      ∀ other, other ≠ token.subject →
        (p.step env a).trading.db.ofUser other = p.trading.db.ofUser other := by
  have hsound : p.Sound env := hp ▸ run_invariant (fun _ a h ha => h.step a ha) as _
    (Sound.start hclean settings) hadmits
  exact hsound.change ha hchange

/-- The sample user logs in. -/
def sampleLogin : Arrival := ⟨1, .session { refreshJti := "r1" } (.login "a@x.io" "pw" none none)⟩

/-- The access token of the sample login. -/
def sampleAccess : TokenClaims := ⟨"u", "trader", .access, "", 901, 1, 0⟩

/-- A paper account is opened with the access token. -/
def openAccount : Arrival :=
  ⟨2, .service (Env.quiet 100 "a") sampleAccess (.createPaperAccount "kraken" "main" "spot")⟩

theorem account_opened_with_token :
    let p : Platform := [sampleLogin].foldl (Platform.step .sample) (Platform.start .sample {})
    (p.step .sample openAccount).trading.db.accounts.length = 1 ∧
    ∃ tradingEnv token route, openAccount.request = .service tradingEnv token route ∧
      Authorises .sample p (p.auth.atMoment openAccount.moment).now token ∧
      hasPermission token.role route.permission = true ∧
      ∀ other, other ≠ token.subject →
        (p.step .sample openAccount).trading.db.ofUser other = p.trading.db.ofUser other := by
  intro p
  have hselects : (Env.quiet 100 "a").SelectsRead := fun _ _ _ hf => absurd hf (by simp [Env.quiet])
  have hout : p.HandedOut sampleAccess := ⟨_, List.mem_singleton_self _, .inl (by decide +kernel)⟩
  exact ⟨by decide +kernel, changes_are_authorised .sample .sample rfl {} [sampleLogin]
    ⟨trivial, trivial⟩ p rfl openAccount ⟨hout, hselects⟩ (by decide +kernel)⟩

/-! ## Dropped sessions -/

/-- The request logs the user in. -/
def LogsIn (env : AuthEnv) (userId : String) (p : Platform) (a : Arrival) : Prop :=
  ∃ draws email password totpCode ip tokens,
    a.request = .session draws (.login email password totpCode ip) ∧
      (p.respond env a).1 = .session (.ok (.pair tokens)) ∧ tokens.access.subject = userId

/-- The request presents a refresh token of the user that is revoked: the sessions are dropped. -/
def DropsSessions (env : AuthEnv) (userId : String) (p : Platform) (a : Arrival) : Prop :=
  ∃ draws token, a.request = .session draws (.refresh token) ∧ token.subject = userId ∧
    (p.respond env a).1
      = .session (.error (authenticationError "This refresh token has been revoked."))

/-- The user's sessions of `old` are dropped: nothing else has been handed out to the user, and the
    user is at a later generation. -/
structure Dropped (env : AuthEnv) (userId : String) (old : List (ℚ × TokenPair)) (p : Platform) :
    Prop where
  sound : p.Sound env
  row : ∃ user, p.auth.db.users.get? userId = some user ∧
    ∀ e ∈ old, e.2.access.subject = userId →
      e.2.access.generation < user.tokenGeneration ∧ e.2.refresh.generation < user.tokenGeneration
  issued : ∀ e ∈ p.issued, e.2.access.subject = userId → e ∈ old

variable {userId : String} {old : List (ℚ × TokenPair)}

/-- The two tokens of a pair say the same about their user. -/
theorem Sound.subjects (h : p.Sound env) {e : ℚ × TokenPair} (he : e ∈ p.issued) :
    e.2.refresh.subject = e.2.access.subject ∧ e.2.refresh.generation = e.2.access.generation := by
  obtain ⟨-, id, user, generation, accessJti, refreshJti, -, -, hpair⟩ := h.issued e he
  rw [hpair]
  exact ⟨rfl, rfl⟩

/-- A token of the user that was handed out is of an earlier generation. -/
theorem Dropped.outdated (h : p.Dropped env userId old) {token : TokenClaims}
    (hout : p.HandedOut token) (hsubject : token.subject = userId) :
    ∃ e ∈ old, (token = e.2.access ∨ token = e.2.refresh) ∧
      ∃ user, p.auth.db.users.get? userId = some user ∧ token.generation < user.tokenGeneration := by
  obtain ⟨e, he, htoken⟩ := hout
  obtain ⟨user, hget, hrow⟩ := h.row
  have huser : e.2.access.subject = userId := by
    rcases htoken with rfl | rfl
    · exact hsubject
    · exact (h.sound.subjects he).1.symm.trans hsubject
  have hold := h.issued e he huser
  refine ⟨e, hold, htoken, user, hget, ?_⟩
  rcases htoken with rfl | rfl
  · exact (hrow e hold huser).1
  · exact (hrow e hold huser).2

/-- The authentication service hands nothing out to the user, unless for a login. -/
theorem Dropped.serveAuth (h : p.Dropped env userId old) (moment : ℚ) (draws : Draws)
    (request : AuthRequest) (hout : ∀ token, request = .refresh token → p.HandedOut token)
    (hlogin : ∀ email password totpCode ip, request = .login email password totpCode ip →
      ∀ tokens, (AuthService.serve env draws request (p.auth.atMoment moment)).1
        = .ok (.pair tokens) → tokens.access.subject ≠ userId) :
    Dropped env userId old (p.serveAuth env (p.auth.atMoment moment) draws request).2 := by
  have houtcome := AuthService.serve_outcome (s := p.auth.atMoment moment) env draws request
    h.sound.clean
  obtain ⟨user, hget, hrow⟩ := h.row
  obtain ⟨user', hget', -, hgrown⟩ := houtcome.effect.succeeds hget
  refine ⟨h.sound.serveAuth moment draws request, ⟨user', hget', fun e he hsubject => ?_⟩, ?_⟩
  · have hbefore := hrow e he hsubject
    exact ⟨hbefore.1.trans_le hgrown, hbefore.2.trans_le hgrown⟩
  · intro e he hsubject
    rcases List.mem_append.1 he with he | he
    · exact h.issued e he hsubject
    · exfalso
      rcases houtcome.effect.pair_request he with ⟨_, _, _, _, hrequest⟩ | ⟨token, row, hrequest, hsame,
        hrow', hle⟩
      · exact hlogin _ _ _ _ hrequest e.2 (mem_pairs he) hsubject
      · obtain ⟨_, _, -, user₁, hget₁, hlt⟩ := h.outdated (hout token hrequest)
          (hsame.symm.trans hsubject)
        rw [hsame.symm.trans hsubject] at hrow'
        obtain rfl := Option.some.inj (hrow'.symm.trans hget₁)
        exact absurd hlt (not_lt.2 hle)

/-- The step: what has been dropped stays dropped as long as the user does not log in. -/
theorem Dropped.step (h : p.Dropped env userId old) (a : Arrival) (ha : p.Admits a)
    (hlogin : ¬ LogsIn env userId p a) : Dropped env userId old (p.step env a) := by
  have hsound := h.sound.step a ha
  obtain ⟨moment, request⟩ := a
  cases request with
  | session draws route =>
    refine h.serveAuth moment draws route.request (fun token hrequest => ?_) ?_
    · cases route with
      | refresh token' =>
        obtain rfl := AuthRequest.refresh.inj hrequest
        exact ha
      | _ => exact absurd hrequest (by simp [OpenRoute.request])
    · intro email password totpCode ip hrequest tokens hreply hsubject
      cases route with
      | login email' password' totpCode' ip' =>
        exact hlogin ⟨_, _, _, _, _, tokens, rfl, congrArg ApiReply.session hreply, hsubject⟩
      | _ => exact absurd hrequest (by simp [OpenRoute.request])
  | secondFactor draws token route =>
    have hother : ∀ user : CurrentUser, (∀ token, route.request user.id ≠ .refresh token) ∧
        ∀ email password totpCode ip,
          route.request user.id ≠ .login email password totpCode ip := by
      intro user
      cases route <;> simp [SecondFactorRoute.request]
    cases hcurrent : getCurrentUser token (p.auth.atMoment moment).now with
    | error e =>
      have hstep : p.step env ⟨moment, .secondFactor draws token route⟩
          = { p with auth := p.auth.atMoment moment } := by
        simp only [Platform.step, respond, hcurrent]
      rw [hstep]
      exact ⟨h.sound.atMoment moment, h.row, h.issued⟩
    | ok user =>
      have hstep : p.step env ⟨moment, .secondFactor draws token route⟩
          = (p.serveAuth env (p.auth.atMoment moment) draws (route.request user.id)).2 := by
        simp only [Platform.step, respond, hcurrent]
      rw [hstep]
      refine h.serveAuth moment draws _ (fun token hrequest => ?_) ?_
      · exact absurd hrequest ((hother user).1 token)
      · intro email password totpCode ip hrequest
        exact absurd hrequest ((hother user).2 email password totpCode ip)
  | service tradingEnv token route =>
    cases hserve : route.serve tradingEnv token (p.auth.atMoment moment).now p.trading with
    | error e =>
      have hstep : p.step env ⟨moment, .service tradingEnv token route⟩
          = { p with auth := p.auth.atMoment moment } := by
        simp only [Platform.step, respond, hserve]
      rw [hstep]
      exact ⟨h.sound.atMoment moment, h.row, h.issued⟩
    | ok w =>
      have hstep : p.step env ⟨moment, .service tradingEnv token route⟩
          = { p with auth := p.auth.atMoment moment, trading := w } := by
        simp only [Platform.step, respond, hserve]
      rw [hstep] at hsound ⊢
      exact ⟨hsound, h.row, h.issued⟩
  | restart settings tokenStore throttle =>
    obtain ⟨user, hget, hrow⟩ := h.row
    refine ⟨hsound, ⟨user, ?_, hrow⟩, h.issued⟩
    show p.auth.committed.users.get? userId = some user
    rw [h.sound.clean]
    exact hget

/-- The start: a request that drops the sessions. -/
theorem Sound.drops (h : p.Sound env) {a : Arrival} (ha : p.Admits a)
    (hdrops : DropsSessions env userId p a) : Dropped env userId p.issued (p.step env a) := by
  have hsound := h.step a ha
  obtain ⟨moment, request⟩ := a
  obtain ⟨draws, token, rfl, hsubject, hreply⟩ := hdrops
  have hreply' : (AuthService.serve env draws (.refresh token) (p.auth.atMoment moment)).1
      = .error (authenticationError "This refresh token has been revoked.") :=
    ApiReply.session.inj hreply
  have houtcome := AuthService.serve_outcome (s := p.auth.atMoment moment) env draws
    (.refresh token) h.clean
  obtain ⟨user, hget, hget'⟩ := houtcome.effect.drops_sessions hreply'
  rw [hsubject] at hget hget'
  refine ⟨hsound, ⟨_, hget', fun e he huser => ?_⟩, fun e he _ => ?_⟩
  · obtain ⟨-, id, user', generation, accessJti, refreshJti, hrow, hle, hpair⟩ := h.issued e he
    rw [hpair] at huser ⊢
    obtain rfl : id = userId := huser
    obtain rfl := Option.some.inj (hget.symm.trans hrow)
    exact ⟨Int.lt_add_one_of_le hle, Int.lt_add_one_of_le hle⟩
  · rcases List.mem_append.1 he with he | he
    · exact he
    · exact absurd (hreply'.symm.trans (mem_pairs he)) (by simp)

/-- What the dropped sessions are worth. -/
structure Worthless (env : AuthEnv) (userId : String) (dropped : ℚ) (p : Platform) (a : Arrival) :
    Prop where
  /-- No refresh token is exchanged. -/
  refresh : ∀ draws token, a.request = .session draws (.refresh token) → token.subject = userId →
    ∃ failure, (p.respond env a).1 = .session (.error failure)
  /-- No access token is accepted, from the end of its lifetime on. -/
  access : ∀ token, a.request.bearer = some token → token.subject = userId →
    dropped + env.tokens.accessTtl ≤ (p.auth.atMoment a.moment).now →
    ∃ error, (p.respond env a).1 = .refused (.token error)

/-- A token of the dropped sessions is not accepted any more as an access token. -/
theorem Dropped.expired (h : p.Dropped env userId old) {dropped : ℚ} (hold : ∀ e ∈ old, e.1 ≤ dropped)
    {token : TokenClaims} (hout : p.HandedOut token) (hsubject : token.subject = userId) {now : ℚ}
    (hnow : p.auth.now ≤ now) (hlate : dropped + env.tokens.accessTtl ≤ now) :
    ∃ e, getCurrentUser token now = .error (.token e) := by
  unfold getCurrentUser
  cases hdecode : TokenService.decode token .access now with
  | error e => exact ⟨e, rfl⟩
  | ok claims =>
    exfalso
    obtain rfl := TokenService.decode_eq_ok hdecode
    obtain ⟨⟨e, he, rfl, -, hlive⟩, -⟩ := h.sound.access hout hnow hdecode
    have hissued := hold e (h.issued e he hsubject)
    linarith

theorem Dropped.worthless (h : p.Dropped env userId old) {dropped : ℚ}
    (hold : ∀ e ∈ old, e.1 ≤ dropped) (a : Arrival) (ha : p.Admits a) :
    Worthless env userId dropped p a := by
  obtain ⟨moment, request⟩ := a
  constructor
  · rintro draws token rfl hsubject
    have houtcome := AuthService.serve_outcome (s := p.auth.atMoment moment) env draws
      (.refresh token) h.sound.clean
    rcases houtcome.effect.refresh_cases with ⟨haccepts, -⟩ | ⟨-, failure, hreply⟩
    · obtain ⟨user, hget, -, hle⟩ := haccepts.current
      obtain ⟨_, _, -, user', hget', hlt⟩ := h.outdated ha hsubject
      rw [hsubject] at hget
      obtain rfl := Option.some.inj (hget.symm.trans hget')
      exact absurd hlt (not_lt.2 hle)
    · exact ⟨failure, congrArg ApiReply.session hreply⟩
  · intro token hbearer hsubject hlate
    cases request with
    | secondFactor draws token' route =>
      obtain rfl := Option.some.inj hbearer
      obtain ⟨e, hrefused⟩ : ∃ e, getCurrentUser token' (p.auth.atMoment moment).now
          = .error (.token e) := h.expired hold ha hsubject (le_max_left _ _) hlate
      refine ⟨e, ?_⟩
      simp only [respond, hrefused]
    | service tradingEnv token' route =>
      obtain rfl := Option.some.inj hbearer
      obtain ⟨e, hrefused⟩ : ∃ e, getCurrentUser token' (p.auth.atMoment moment).now
          = .error (.token e) := h.expired hold ha.1 hsubject (le_max_left _ _) hlate
      have hserve : route.serve tradingEnv token' (p.auth.atMoment moment).now p.trading
          = .error (.token e) := by
        unfold Route.serve
        rw [hrefused]
        rfl
      refine ⟨e, ?_⟩
      simp only [respond, hserve]
    | _ => exact absurd hbearer (by simp [ApiRequest.bearer])

/-- Once a revoked refresh token of a user has been presented, and as long as the user does not log
    in again, in every run, restarts included: the user gets no token, exchanges none of those handed
    out before, and from the lifetime of an access token on no request with one gets through. -/
theorem dropped_sessions_die (env : AuthEnv) (auth : AuthServer) (hclean : auth.committed = auth.db)
    (settings : Settings) (as : List Arrival)
    (hadmits : Guarded (Platform.step env) Admits (Platform.start auth settings) as) (p : Platform)
    (hp : p = as.foldl (Platform.step env) (Platform.start auth settings)) (userId : String)
    (drop : Arrival) (hdrop : p.Admits drop) (hdrops : DropsSessions env userId p drop)
    (later : List Arrival)
    (hlater : Guarded (Platform.step env)
      (fun q a => q.Admits a ∧ ¬ LogsIn env userId q a) (p.step env drop) later) (q : Platform)
    (hq : q = later.foldl (Platform.step env) (p.step env drop)) :
    (∀ e ∈ q.issued, e.2.access.subject = userId → e ∈ p.issued) ∧
      ∀ a, q.Admits a → Worthless env userId (p.auth.atMoment drop.moment).now q a := by
  have hsound : p.Sound env := hp ▸ run_invariant (fun _ a h ha => h.step a ha) as _
    (Sound.start hclean settings) hadmits
  have hdropped : Dropped env userId p.issued q := hq ▸ run_invariant
    (fun _ a h ha => h.step a ha.1 ha.2) later _ (hsound.drops hdrop hdrops) hlater
  refine ⟨hdropped.issued, fun a ha => hdropped.worthless (fun e he => ?_) a ha⟩
  exact (hsound.issued e he).1.trans (le_max_left _ _)

/-- The refresh token of the sample login. -/
def sampleRefresh : TokenClaims := ⟨"u", "trader", .refresh, "r1", 1001, 1, 0⟩

/-- It is exchanged at some moment. -/
def refreshAt (moment : ℚ) : Arrival :=
  ⟨moment, .session { refreshJti := "r2" } (.refresh sampleRefresh)⟩

/-- The server is started again with empty stores. -/
def sampleRestart : Arrival := ⟨4, .restart {} (.memory .empty) (.memory ⟨5, 300, .empty⟩)⟩

/-- The second exchange, at 3, drops the sessions. The access token of the login is refused from 903
    on, though the server has forgotten by then which tokens were revoked. -/
theorem dropped_access_sample :
    let p : Platform := [sampleLogin, refreshAt 2].foldl (Platform.step .sample)
      (Platform.start .sample {})
    let q : Platform := [sampleRestart].foldl (Platform.step .sample) (p.step .sample (refreshAt 3))
    q.issued.length = 2 ∧ ∃ error, (q.respond .sample { openAccount with moment := 903 }).1
      = .refused (.token error) := by
  intro p q
  have hadmits : Guarded (Platform.step .sample) Admits (Platform.start .sample {})
      [sampleLogin, refreshAt 2] := by
    have hout : ((Platform.start .sample {}).step .sample sampleLogin).HandedOut sampleRefresh := by
      decide +kernel
    exact ⟨trivial, hout, trivial⟩
  have hout : p.HandedOut sampleRefresh := by decide +kernel
  have hdrops : DropsSessions .sample "u" p (refreshAt 3) := ⟨_, _, rfl, rfl, by decide +kernel⟩
  have hlater : Guarded (Platform.step .sample)
      (fun q a => q.Admits a ∧ ¬ LogsIn .sample "u" q a) (p.step .sample (refreshAt 3))
      [sampleRestart] := by
    refine ⟨⟨trivial, ?_⟩, trivial⟩
    rintro ⟨_, _, _, _, _, _, hrequest, -⟩
    exact absurd hrequest (by simp [sampleRestart])
  have hselects : (Env.quiet 100 "a").SelectsRead := fun _ _ _ hf => absurd hf (by simp [Env.quiet])
  have hdie := dropped_sessions_die .sample .sample rfl {} [sampleLogin, refreshAt 2] hadmits p rfl
    "u" (refreshAt 3) hout hdrops [sampleRestart] hlater q rfl
  have haccess : q.HandedOut sampleAccess := by decide +kernel
  exact ⟨by decide +kernel, (hdie.2 { openAccount with moment := 903 } ⟨haccess, hselects⟩).access
    sampleAccess rfl rfl (by decide +kernel)⟩

end Platform

end TradingHub
