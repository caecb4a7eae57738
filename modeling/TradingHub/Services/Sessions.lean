import TradingHub.Library.Run
import TradingHub.Services.AuthEffects

set_option autoImplicit false

/-! # Sessions over a run of requests

Runs of the authentication service with their history: every request with the state it was served
in and its reply. Whether `refresh` accepts a token is decided by the revocation store and by the
generation of the user's row; here both are tied to the history. A token is held revoked only if it
was exchanged or logged out, and the generation of a user has grown since any earlier moment by the
number of revoked tokens that were presented in the meantime. -/

namespace TradingHub

open Library

/-! ## Histories -/

/-- A request that was served: the state before it, with the clock at the request, and the reply. -/
structure Served where
  before : AuthServer
  draws : Draws
  request : AuthRequest
  reply : Except AuthFailure AuthReply

/-- The server, and the requests served so far, the last one first. -/
structure AuthHistory where
  server : AuthServer
  past : List Served

/-- The state in which a request is served. -/
def AuthServer.atMoment (s : AuthServer) (moment : ℚ) : AuthServer :=
  { s with now := max s.now moment }

/-- The state after a request. -/
def AuthServer.after (env : AuthEnv) (s : AuthServer) (input : AuthInput) : AuthServer :=
  (AuthService.serve env input.draws input.request (s.atMoment input.moment)).2

/-- The record of a request. -/
def AuthServer.served (env : AuthEnv) (s : AuthServer) (input : AuthInput) : Served :=
  ⟨s.atMoment input.moment, input.draws, input.request,
    (AuthService.serve env input.draws input.request (s.atMoment input.moment)).1⟩

/-- The outcome of a request. -/
theorem AuthServer.outcome {s : AuthServer} (env : AuthEnv) (hclean : s.committed = s.db)
    (input : AuthInput) :
    Outcome env input.draws (s.atMoment input.moment) input.request
      (AuthService.serve env input.draws input.request (s.atMoment input.moment)) :=
  AuthService.serve_outcome env input.draws input.request hclean

def AuthHistory.step (env : AuthEnv) (h : AuthHistory) (input : AuthInput) : AuthHistory :=
  ⟨h.server.after env input, h.server.served env input :: h.past⟩

namespace Served

/-- The refresh token that the request issued. -/
def issued (e : Served) : Option TokenClaims :=
  match e.reply with
  | .ok (.pair pair) => some pair.refresh
  | _ => none

/-- The identifier that the request revoked: of a token it exchanged, or logged out. -/
def revoked (e : Served) : Option String :=
  match e.request with
  | .refresh token =>
    match e.reply with
    | .ok _ => some token.jti
    | .error _ => none
  | .logout token =>
    match TokenService.decode token .refresh e.before.now with
    | .ok _ => some token.jti
    | .error _ => none
  | _ => none

/-- The refresh token, not expired, that was presented to `refresh`. -/
def presented (e : Served) : Option TokenClaims :=
  match e.request with
  | .refresh token =>
    match TokenService.decode token .refresh e.before.now with
    | .ok _ => some token
    | .error _ => none
  | _ => none

theorem presented_eq_some {e : Served} {token : TokenClaims} (h : e.presented = some token) :
    e.request = .refresh token ∧ TokenService.decode token .refresh e.before.now = .ok token := by
  unfold presented at h
  split at h
  · next hrequest =>
    split at h
    · next claims hdecode =>
      obtain rfl := Option.some.inj h
      exact ⟨hrequest, hdecode.trans (congrArg _ (TokenService.decode_eq_ok hdecode))⟩
    · exact absurd h (by simp)
  · exact absurd h (by simp)

/-- The request presented a token of the user that had been revoked in the `earlier` requests. -/
def Reuses (e : Served) (earlier : List Served) (userId : String) : Prop :=
  ∃ token, e.presented = some token ∧ token.subject = userId ∧
    ∃ e' ∈ earlier, e'.revoked = some token.jti

/-- The token presented is of the generation that the user is at. -/
def PresentsCurrent (e : Served) : Prop :=
  ∃ token user, e.presented = some token ∧ e.before.db.users.get? token.subject = some user ∧
    token.generation = user.tokenGeneration

/-- The request dropped the sessions of the user. -/
def drops (userId : String) (e : Served) : Bool :=
  match e.request, e.reply with
  | .refresh token, .error failure =>
    token.subject = userId ∧
      failure = authenticationError "This refresh token has been revoked."
  | _, _ => false

end Served

/-- Revocations are retained: when a request is served, the store still holds revoked what was
    revoked before. -/
def Retains (h : AuthHistory) (input : AuthInput) : Prop :=
  ∀ e ∈ h.past, ∀ jti ∈ e.revoked,
    ((h.server.atMoment input.moment).tokenStore.isRevoked jti
      (h.server.atMoment input.moment).now).1 = true

instance (h : AuthHistory) (input : AuthInput) : Decidable (Retains h input) :=
  inferInstanceAs (Decidable (∀ e ∈ h.past, ∀ jti ∈ e.revoked,
    ((h.server.atMoment input.moment).tokenStore.isRevoked jti
      (h.server.atMoment input.moment).now).1 = true))

/-- The history of a run from the state `first`: each request was served under its guard, in the
    state that the ones before it left. -/
inductive Chronicle (env : AuthEnv) (guard : AuthHistory → AuthInput → Prop) (first : AuthServer) :
    AuthServer → List Served → Prop
  | start (hclean : first.committed = first.db) : Chronicle env guard first first []
  | served {server : AuthServer} {past : List Served} (h : Chronicle env guard first server past)
      (input : AuthInput) (hguard : guard ⟨server, past⟩ input) :
      Chronicle env guard first (server.after env input) (server.served env input :: past)

/-! ## What a request does to a session -/

/-- The row `user` has become `user'`: as active as before, and at a generation higher by `n`. -/
def UserRecord.Grown (user user' : UserRecord) (n : ℕ) : Prop :=
  user'.isActive = user.isActive ∧ user'.tokenGeneration = user.tokenGeneration + n

theorem UserRecord.Grown.trans {user user' user'' : UserRecord} {m n : ℕ} (h : user.Grown user' m)
    (h' : user'.Grown user'' n) : user.Grown user'' (m + n) :=
  ⟨h'.1.trans h.1, by rw [h'.2, h.2]; push_cast; ring⟩

/-- A row is written that is as active as before and of the same generation. -/
theorem grown_set {users : Dict String UserRecord} {id id' : String} {user row row' : UserRecord}
    (hget : users.get? id = some user) (hget' : users.get? id' = some row)
    (hrow : row.Grown row' 0) :
    ∃ user', (users.set id' row').get? id = some user' ∧ user.Grown user' 0 := by
  by_cases hid : id = id'
  · subst hid
    obtain rfl := Option.some.inj (hget.symm.trans hget')
    exact ⟨row', Dict.get?_set_self _ _ _, hrow⟩
  · exact ⟨user, (Dict.get?_set_of_ne _ _ hid).trans hget, rfl, by simp⟩

theorem grown_rehashed {env : AuthEnv} {draws : Draws} {password : String} {id id' : String}
    {user accepted : UserRecord} {totpCode : Option String} {now : ℚ}
    (h : checkCredentials env (some (id, user)) password totpCode now = .accepted id' accepted) :
    user.Grown (accepted.rehashed env draws password) 0 := by
  have haccepted : user.Grown accepted 0 := by
    rcases accepted_cases h with ⟨-, rfl⟩ | ⟨-, hconsumed⟩
    · exact ⟨rfl, by simp⟩
    · obtain ⟨-, -, -, -, -, rfl⟩ := consumeTotp_eq_ok hconsumed
      exact ⟨rfl, by simp⟩
  unfold UserRecord.rehashed
  split
  · exact haccepted
  · exact haccepted

/-- A row stays, as active as it was; its generation grows when the sessions are dropped. -/
theorem Effect.row {env : AuthEnv} {draws : Draws} {s : AuthServer} {request : AuthRequest}
    {reply : Except AuthFailure AuthReply} {users : Dict String UserRecord}
    {tokenStore : TokenStore} (h : Effect env draws s request reply users tokenStore) {id : String}
    {user : UserRecord} (hget : s.db.users.get? id = some user) :
    ∃ user', users.get? id = some user' ∧
      user.Grown user' (if (Served.mk s draws request reply).drops id then 1 else 0) := by
  cases h with
  | raised failure hrequest =>
    refine ⟨user, hget, rfl, ?_⟩
    cases request with
    | refresh token => exact absurd rfl (hrequest token)
    | _ => simp [Served.drops]
  | registered hnew =>
    have hid : id ≠ draws.userId := by
      rintro rfl
      exact absurd (hget.symm.trans hnew) (by simp)
    exact ⟨user, (Dict.get?_set_of_ne _ _ hid).trans hget, rfl, by simp [Served.drops]⟩
  | loggedIn hget' haccepted => exact grown_set hget hget' (grown_rehashed haccepted)
  | invalid hdecode => exact ⟨user, hget, rfl, by simp [Served.drops, authenticationError]⟩
  | inactive hinactive => exact ⟨user, hget, rfl, by simp [Served.drops, authenticationError]⟩
  | @reused token row hdecode hget' hactive hrevoked =>
    by_cases hid : id = token.subject
    · subst hid
      obtain rfl := Option.some.inj (hget.symm.trans hget')
      exact ⟨_, Dict.get?_set_self _ _ _, rfl, by simp [Served.drops]⟩
    · refine ⟨user, (Dict.get?_set_of_ne _ _ hid).trans hget, rfl, ?_⟩
      simp [Served.drops, Ne.symm hid]
  | outdated hdecode hget' hactive hrevoked hgeneration =>
    exact ⟨user, hget, rfl, by simp [Served.drops, authenticationError]⟩
  | rotated hdecode hget' hactive hrevoked hgeneration =>
    exact ⟨user, hget, rfl, by simp [Served.drops]⟩
  | loggedOut hdecode => exact ⟨user, hget, rfl, by simp [Served.drops]⟩
  | ignored hdecode => exact ⟨user, hget, rfl, by simp [Served.drops]⟩
  | enrolled hget' hdisabled => exact grown_set hget hget' ⟨rfl, by simp⟩
  | confirmed hget' hsecret hconsumed =>
    obtain ⟨-, -, -, -, -, rfl⟩ := consumeTotp_eq_ok hconsumed
    exact grown_set hget hget' ⟨rfl, by simp⟩
  | disabled hget' henabled hsecret hconsumed =>
    obtain ⟨-, -, -, -, -, rfl⟩ := consumeTotp_eq_ok hconsumed
    exact grown_set hget hget' ⟨rfl, by simp⟩

/-- What is held revoked after a request was held revoked before it, or the request revoked it. -/
theorem Effect.sound {env : AuthEnv} {draws : Draws} {s : AuthServer} {request : AuthRequest}
    {reply : Except AuthFailure AuthReply} {users : Dict String UserRecord}
    {tokenStore : TokenStore} (h : Effect env draws s request reply users tokenStore)
    {jti : String} {t : ℚ} (ht : s.now ≤ t) (hrevoked : (tokenStore.isRevoked jti t).1 = true) :
    (Served.mk s draws request reply).revoked = some jti ∨
      (s.tokenStore.isRevoked jti t).1 = true := by
  cases h with
  | reused hdecode hget hactive _ =>
    rw [TokenStore.isRevoked_lookup _ _ _ ht] at hrevoked
    exact .inr hrevoked
  | outdated hdecode hget hactive _ hgeneration =>
    rw [TokenStore.isRevoked_lookup _ _ _ ht] at hrevoked
    exact .inr hrevoked
  | rotated hdecode hget hactive _ hgeneration =>
    rcases TokenStore.isRevoked_revoke hrevoked with rfl | hbefore
    · exact .inl rfl
    · rw [TokenStore.isRevoked_lookup _ _ _ ht] at hbefore
      exact .inr hbefore
  | loggedOut hdecode =>
    rcases TokenStore.isRevoked_revoke hrevoked with rfl | hbefore
    · exact .inl (by simp [Served.revoked, hdecode])
    · exact .inr hbefore
  | _ => exact .inr hrevoked

/-- A refresh token is issued to a user whose row is at the token's generation. -/
theorem Effect.issued {env : AuthEnv} {draws : Draws} {s : AuthServer} {request : AuthRequest}
    {reply : Except AuthFailure AuthReply} {users : Dict String UserRecord}
    {tokenStore : TokenStore} (h : Effect env draws s request reply users tokenStore)
    {t : TokenClaims} (ht : (Served.mk s draws request reply).issued = some t) :
    (∃ user, s.db.users.get? t.subject = some user ∧ t.generation = user.tokenGeneration) ∧
      ∀ id, (Served.mk s draws request reply).drops id = false := by
  cases h with
  | @loggedIn email password totpCode ip id user accepted hget haccepted =>
    obtain rfl := Option.some.inj ht
    have hgrown : user.Grown (accepted.rehashed env draws password) 0 := grown_rehashed haccepted
    exact ⟨⟨user, hget, hgrown.2.trans (by simp)⟩, fun id => rfl⟩
  | rotated hdecode hget hactive hrevoked hgeneration =>
    obtain rfl := Option.some.inj ht
    exact ⟨⟨_, hget, rfl⟩, fun id => rfl⟩
  | _ => exact absurd ht (by simp [Served.issued])

section Refresh

variable {env : AuthEnv} {draws : Draws} {s : AuthServer} {token : TokenClaims}
  {reply : Except AuthFailure AuthReply} {users : Dict String UserRecord} {tokenStore : TokenStore}

/-- A token that the service would accept, from the user's row on. -/
structure AuthServer.Accepts (s : AuthServer) (token : TokenClaims) : Prop where
  valid : TokenService.decode token .refresh s.now = .ok token
  kept : (s.tokenStore.isRevoked token.jti s.now).1 = false
  current : ∃ user, s.db.users.get? token.subject = some user ∧ user.isActive = true ∧
    user.tokenGeneration ≤ token.generation

/-- `refresh` returns a pair for the tokens that are accepted, and raises for the others. -/
theorem Effect.refresh_cases (h : Effect env draws s (.refresh token) reply users tokenStore) :
    (s.Accepts token ∧ ∃ pair, reply = .ok (.pair pair)) ∨
      (¬ s.Accepts token ∧ ∃ failure, reply = .error failure) := by
  cases h with
  | raised failure hrequest => exact absurd rfl (hrequest token)
  | invalid hdecode =>
    refine .inr ⟨fun h => ?_, _, rfl⟩
    exact absurd (hdecode.symm.trans h.valid) (by simp)
  | inactive hinactive =>
    refine .inr ⟨fun h => ?_, _, rfl⟩
    obtain ⟨user, hget, hactive, -⟩ := h.current
    exact absurd (hinactive user hget) (by simp [hactive])
  | reused hdecode hget hactive hrevoked =>
    exact .inr ⟨fun h => absurd (hrevoked.symm.trans h.kept) (by simp), _, rfl⟩
  | outdated hdecode hget hactive hrevoked hgeneration =>
    refine .inr ⟨fun h => ?_, _, rfl⟩
    obtain ⟨user', hget', -, hle⟩ := h.current
    obtain rfl := Option.some.inj (hget.symm.trans hget')
    exact absurd hgeneration (not_lt.2 hle)
  | rotated hdecode hget hactive hrevoked hgeneration =>
    exact .inl ⟨⟨hdecode, hrevoked, _, hget, hactive, hgeneration⟩, _, rfl⟩

/-- The sessions of a user are dropped exactly when a token of the user that is held revoked, and
    has not expired, is presented. -/
theorem Effect.drops_iff {request : AuthRequest}
    (h : Effect env draws s request reply users tokenStore) {id : String} {user : UserRecord}
    (hget : s.db.users.get? id = some user) (hactive : user.isActive = true) :
    (Served.mk s draws request reply).drops id = true ↔
      ∃ token, (Served.mk s draws request reply).presented = some token ∧ token.subject = id ∧
        (s.tokenStore.isRevoked token.jti s.now).1 = true := by
  cases h with
  | raised failure hrequest =>
    cases request with
    | refresh token => exact absurd rfl (hrequest token)
    | _ => simp [Served.drops, Served.presented]
  | invalid hdecode => simp [Served.drops, Served.presented, authenticationError, hdecode]
  | @inactive token hinactive =>
    have hid : token.subject ≠ id := by
      rintro rfl
      exact absurd (hinactive user hget) (by simp [hactive])
    refine iff_of_false (by simp [Served.drops, authenticationError]) ?_
    rintro ⟨token', hpresented, hsubject, -⟩
    obtain ⟨hrequest, -⟩ := Served.presented_eq_some hpresented
    obtain rfl := AuthRequest.refresh.inj hrequest
    exact hid hsubject
  | reused hdecode hget' hactive' hrevoked =>
    simp [Served.drops, Served.presented, hdecode, hrevoked]
  | outdated hdecode hget' hactive' hrevoked hgeneration =>
    simp [Served.drops, Served.presented, authenticationError, hdecode, hrevoked]
  | rotated hdecode hget' hactive' hrevoked hgeneration =>
    simp [Served.drops, Served.presented, hdecode, hrevoked]
  | _ => simp [Served.drops, Served.presented]

end Refresh

/-! ## What a run does to a session -/

namespace Chronicle

variable {env : AuthEnv} {guard : AuthHistory → AuthInput → Prop} {first server : AuthServer}
  {past : List Served}

theorem clean (h : Chronicle env guard first server past) : server.committed = server.db := by
  induction h with
  | start hclean => exact hclean
  | served _ input _ ih => exact (AuthServer.outcome env ih input).clean

/-- The outcome of the next request. -/
theorem outcome (h : Chronicle env guard first server past) (input : AuthInput) :
    Outcome env input.draws (server.atMoment input.moment) input.request
      (AuthService.serve env input.draws input.request (server.atMoment input.moment)) :=
  AuthServer.outcome env h.clean input

/-- What is held revoked was revoked by an earlier request. -/
theorem sound (h : Chronicle env guard first server past)
    (hstore : ∀ jti t, (first.tokenStore.isRevoked jti t).1 = false) :
    ∀ jti t, server.now ≤ t → (server.tokenStore.isRevoked jti t).1 = true →
      ∃ e ∈ past, e.revoked = some jti := by
  induction h with
  | start _ =>
    intro jti t _ hrevoked
    exact absurd hrevoked (by simp [hstore])
  | @served server past h input _ ih =>
    intro jti t ht hrevoked
    have hclock : (server.after env input).now = max server.now input.moment :=
      (h.outcome input).clock
    rw [hclock] at ht
    rcases (h.outcome input).effect.sound ht hrevoked with hnew | hold
    · exact ⟨server.served env input, by simp, hnew⟩
    · obtain ⟨e, he, hjti⟩ := ih jti t ((le_max_left _ _).trans ht) hold
      exact ⟨e, by simp [he], hjti⟩

/-- The history up to a request, and the request. -/
theorem split {e : Served} {earlier : List Served} :
    ∀ {later : List Served} {server : AuthServer},
      Chronicle env guard first server (later ++ e :: earlier) →
      ∃ server' input, Chronicle env guard first server' earlier ∧ guard ⟨server', earlier⟩ input ∧
        e = server'.served env input := by
  intro later
  induction later with
  | nil =>
    intro server h
    cases h with
    | @served server' _ h input hguard => exact ⟨server', input, h, hguard, rfl⟩
  | cons e' later ih =>
    intro server h
    cases h with
    | served h input hguard => exact ih h

/-- Since an earlier request a row has stayed as active as it was, and its generation has grown with
    every time the sessions were dropped. -/
theorem row {e : Served} {earlier : List Served} {id : String} {user : UserRecord}
    (hget : e.before.db.users.get? id = some user) :
    ∀ {later : List Served} {server : AuthServer},
      Chronicle env guard first server (later ++ e :: earlier) → ∃ user',
      server.db.users.get? id = some user' ∧
        user.Grown user' ((later ++ [e]).countP (Served.drops id)) := by
  intro later
  induction later with
  | nil =>
    intro server h
    cases h with
    | @served server' _ h input hguard =>
      obtain ⟨user', hget', hgrown⟩ := (h.outcome input).effect.row hget
      refine ⟨user', hget', ?_⟩
      have hcount : ([] ++ [server'.served env input]).countP (Served.drops id) =
          if (server'.served env input).drops id then 1 else 0 := by
        simp [List.countP_cons]
      rw [hcount]
      exact hgrown
  | cons e' later ih =>
    intro server h
    cases h with
    | @served server' _ h input hguard =>
      obtain ⟨user', hget', hgrown⟩ := ih h
      obtain ⟨user'', hget'', hgrown'⟩ := (h.outcome input).effect.row hget'
      refine ⟨user'', hget'', ?_⟩
      have hcount : (server'.served env input :: later ++ [e]).countP (Served.drops id) =
          (later ++ [e]).countP (Served.drops id) +
            if (server'.served env input).drops id then 1 else 0 := by
        rw [List.cons_append, List.countP_cons]
      rw [hcount]
      exact hgrown.trans hgrown'

end Chronicle

/-- The history of a run is a chronicle. -/
theorem chronicle_of_run {env : AuthEnv} {guard : AuthHistory → AuthInput → Prop}
    {first : AuthServer} (hclean : first.committed = first.db) {inputs : List AuthInput}
    (hguard : Guarded (AuthHistory.step env) guard ⟨first, []⟩ inputs) :
    Chronicle env guard first (inputs.foldl (AuthHistory.step env) ⟨first, []⟩).server
      (inputs.foldl (AuthHistory.step env) ⟨first, []⟩).past :=
  run_invariant (I := fun h : AuthHistory => Chronicle env guard first h.server h.past)
    (fun _ input h hguard => h.served input hguard) inputs _ (.start hclean) hguard

/-- The same of any run. -/
theorem chronicle_of_inputs {env : AuthEnv} {first : AuthServer}
    (hclean : first.committed = first.db) {inputs : List AuthInput} {h : AuthHistory}
    (hrun : h = inputs.foldl (AuthHistory.step env) ⟨first, []⟩) :
    Chronicle env (fun _ _ => True) first h.server h.past := by
  rw [hrun]
  exact chronicle_of_run hclean (guarded_true _ _)

namespace Chronicle

variable {env : AuthEnv} {guard : AuthHistory → AuthInput → Prop} {first server : AuthServer}
  {later earlier : List Served} {e : Served} {t : TokenClaims}

/-- Since a token was issued to a user who is active, the sessions of the user were dropped exactly
    by the requests that presented a revoked token. -/
theorem drops_iff_reuses (h : Chronicle env Retains first server (later ++ e :: earlier))
    (hstore : ∀ jti t, (first.tokenStore.isRevoked jti t).1 = false) (hissued : e.issued = some t)
    (hactive : ∃ user, server.db.users.get? t.subject = some user ∧ user.isActive = true)
    {rest mid : List Served} {e' : Served} (hlater : later = rest ++ e' :: mid) :
    e'.drops t.subject = true ↔ e'.Reuses (mid ++ e :: earlier) t.subject := by
  subst hlater
  have h' : Chronicle env Retains first server (rest ++ e' :: (mid ++ e :: earlier)) := by
    simpa using h
  obtain ⟨server₀, input₀, h₀, -, rfl⟩ := h.split
  obtain ⟨server₁, input₁, h₁, hretains₁, rfl⟩ := h'.split
  -- The row of the user is there from the issue of the token on, and active throughout.
  obtain ⟨⟨user₀, hget₀, -⟩, -⟩ := (h₀.outcome input₀).effect.issued hissued
  obtain ⟨user₁, hget₁, -⟩ := Chronicle.row hget₀ h₁
  have hactive₁ : user₁.isActive = true := by
    obtain ⟨user, hget, hyes⟩ := hactive
    obtain ⟨user', hget', hgrown⟩ := Chronicle.row
      (show (server₁.served env input₁).before.db.users.get? t.subject = some user₁ from hget₁) h'
    obtain rfl := Option.some.inj (hget.symm.trans hget')
    exact hgrown.1.symm.trans hyes
  have hiff := (h₁.outcome input₁).effect.drops_iff hget₁ hactive₁
  refine hiff.trans ⟨?_, ?_⟩
  · rintro ⟨token, hpresented, hsubject, hrevoked⟩
    exact ⟨token, hpresented, hsubject,
      h₁.sound hstore token.jti (server₁.atMoment input₁.moment).now (le_max_left _ _) hrevoked⟩
  · rintro ⟨token, hpresented, hsubject, e'', he'', hjti⟩
    exact ⟨token, hpresented, hsubject, hretains₁ e'' he'' token.jti hjti⟩

/-- A token is of the generation of its user's row, less the times the sessions were dropped since
    it was issued. -/
theorem generation (h : Chronicle env guard first server (later ++ e :: earlier))
    (hissued : e.issued = some t) {user : UserRecord}
    (hget : server.db.users.get? t.subject = some user) :
    user.tokenGeneration = t.generation + later.countP (Served.drops t.subject) := by
  obtain ⟨server₀, input₀, h₀, -, rfl⟩ := h.split
  obtain ⟨⟨user₀, hget₀, hgeneration⟩, hdrops⟩ := (h₀.outcome input₀).effect.issued hissued
  obtain ⟨user', hget', hgrown⟩ := Chronicle.row
    (show (server₀.served env input₀).before.db.users.get? t.subject = some user₀ from hget₀) h
  obtain rfl := Option.some.inj (hget.symm.trans hget')
  have hdrops' : (server₀.served env input₀).drops t.subject = false := hdrops t.subject
  rw [hgrown.2, List.countP_append, List.countP_singleton, hdrops', hgeneration]
  simp

end Chronicle

/-! ## Which tokens `refresh` accepts -/

/-- The history `h` is that of a run of requests, and the token `t` was issued in it: with the
    revocations retained, `refresh` refuses `t` if it was exchanged or logged out, refuses it if
    since its issue a revoked token of the user's generation was presented, and accepts it if
    neither it was revoked nor a revoked token of the user presented since. -/
theorem session_drop_exact (env : AuthEnv) (server : AuthServer)
    (hclean : server.committed = server.db)
    (hstore : ∀ jti t, (server.tokenStore.isRevoked jti t).1 = false) (inputs : List AuthInput)
    (t : TokenClaims) (moment : ℚ) (draws : Draws)
    (hretains : Guarded (AuthHistory.step env) Retains ⟨server, []⟩
      (inputs ++ [⟨moment, draws, .refresh t⟩]))
    (h : AuthHistory) (hrun : h = inputs.foldl (AuthHistory.step env) ⟨server, []⟩)
    (later earlier : List Served) (e : Served) (hpast : h.past = later ++ e :: earlier)
    (hissued : e.issued = some t)
    (hactive : ∃ user, h.server.db.users.get? t.subject = some user ∧ user.isActive = true) :
    ((∃ e' ∈ h.past, e'.revoked = some t.jti) →
      ∃ failure, (h.server.served env ⟨moment, draws, .refresh t⟩).reply = .error failure) ∧
    ((∃ rest e' mid, later = rest ++ e' :: mid ∧ e'.Reuses (mid ++ e :: earlier) t.subject ∧
        e'.PresentsCurrent) →
      ∃ failure, (h.server.served env ⟨moment, draws, .refresh t⟩).reply = .error failure) ∧
    (TokenService.decode t .refresh (h.server.atMoment moment).now = .ok t →
      (∀ e' ∈ h.past, e'.revoked ≠ some t.jti) →
      (∀ rest e' mid, later = rest ++ e' :: mid → ¬ e'.Reuses (mid ++ e :: earlier) t.subject) →
      ∃ pair, (h.server.served env ⟨moment, draws, .refresh t⟩).reply = .ok (.pair pair)) := by
  obtain ⟨hretains, hlast⟩ := guarded_concat _ _ hretains
  have hchronicle := chronicle_of_run hclean hretains
  rw [← hrun] at hlast hchronicle
  have hcases := (hchronicle.outcome ⟨moment, draws, .refresh t⟩).effect.refresh_cases
  rw [hpast] at hchronicle
  obtain ⟨user, hget, hyes⟩ := hactive
  have hgeneration := hchronicle.generation hissued hget
  refine ⟨?_, ?_, ?_⟩
  · rintro ⟨e', he', hjti⟩
    have hrevoked := hlast e' he' t.jti hjti
    rcases hcases with ⟨haccepts, -⟩ | ⟨-, hreply⟩
    · exact absurd (hrevoked.symm.trans haccepts.kept) (by simp)
    · exact hreply
  · rintro ⟨rest, e', mid, hlater, hreuses, -⟩
    have hdrops := (hchronicle.drops_iff_reuses hstore hissued ⟨user, hget, hyes⟩ hlater).2 hreuses
    have hpos : 0 < later.countP (Served.drops t.subject) :=
      List.countP_pos_iff.2 ⟨e', by simp [hlater], hdrops⟩
    rcases hcases with ⟨haccepts, -⟩ | ⟨-, hreply⟩
    · obtain ⟨user', hget', -, hle⟩ := haccepts.current
      obtain rfl := Option.some.inj (hget.symm.trans hget')
      omega
    · exact hreply
  · intro hvalid hkept hnone
    have hcount : later.countP (Served.drops t.subject) = 0 := by
      rw [List.countP_eq_zero]
      intro e' he' hdrops
      obtain ⟨rest, mid, hlater⟩ := List.append_of_mem he'
      exact hnone rest e' mid hlater
        ((hchronicle.drops_iff_reuses hstore hissued ⟨user, hget, hyes⟩ hlater).1 hdrops)
    have hrevoked : ((h.server.atMoment moment).tokenStore.isRevoked t.jti
        (h.server.atMoment moment).now).1 = false := by
      rw [Bool.eq_false_iff]
      intro hyes
      obtain ⟨e', he', hjti⟩ := hchronicle.sound hstore t.jti _ (le_max_left _ _) hyes
      exact hkept e' (hpast ▸ he') hjti
    rcases hcases with ⟨-, hreply⟩ | ⟨hnot, -⟩
    · exact hreply
    · exact absurd ⟨hvalid, hrevoked, user, hget, hyes, by omega⟩ hnot

/-- The refresh token of the sample user with the identifier `jti`, issued at `now`. -/
def sampleToken (jti : String) (now : ℤ) : TokenClaims :=
  ⟨"u", "trader", .refresh, jti, now + 1000, now, 0⟩

/-- Two logins, an exchange of the first token, and a second use of it. -/
def reuseInputs : List AuthInput :=
  [⟨1, { refreshJti := "r1" }, .login "a@x.io" "pw" none none⟩,
    ⟨2, { refreshJti := "r2" }, .login "a@x.io" "pw" none none⟩,
    ⟨3, { refreshJti := "r3" }, .refresh (sampleToken "r1" 1)⟩,
    ⟨4, {}, .refresh (sampleToken "r1" 1)⟩]

/-- The history of the first `n` of the sample requests. -/
def reuseHistory (n : ℕ) : AuthHistory :=
  (reuseInputs.take n).foldl (AuthHistory.step .sample) ⟨.sample, []⟩

/-- The second session is dropped with the first. -/
theorem session_dropped_sample :
    ∃ failure, ((reuseHistory 4).server.served .sample
      ⟨5, {}, .refresh (sampleToken "r2" 2)⟩).reply = .error failure := by
  have hserved := session_drop_exact .sample .sample rfl (fun _ _ => rfl) reuseInputs
    (sampleToken "r2" 2) 5 {} (by decide +kernel) (reuseHistory 4) rfl
    [(reuseHistory 3).server.served .sample ⟨4, {}, .refresh (sampleToken "r1" 1)⟩,
      (reuseHistory 2).server.served .sample
        ⟨3, { refreshJti := "r3" }, .refresh (sampleToken "r1" 1)⟩]
    [(reuseHistory 0).server.served .sample
      ⟨1, { refreshJti := "r1" }, .login "a@x.io" "pw" none none⟩]
    ((reuseHistory 1).server.served .sample
      ⟨2, { refreshJti := "r2" }, .login "a@x.io" "pw" none none⟩)
    rfl (by decide +kernel)
    ⟨{ email := "a@x.io", passwordHash := "pw", role := "trader", tokenGeneration := 1 },
      by decide +kernel, by decide +kernel⟩
  refine hserved.2.1 ⟨[], _, _, rfl, ⟨sampleToken "r1" 1, by decide +kernel, by decide +kernel,
    _, List.mem_cons_self, by decide +kernel⟩, sampleToken "r1" 1,
    { email := "a@x.io", passwordHash := "pw", role := "trader" }, by decide +kernel,
    by decide +kernel, by decide +kernel⟩

end TradingHub
