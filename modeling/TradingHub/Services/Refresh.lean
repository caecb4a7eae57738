import TradingHub.Library.Run
import TradingHub.Security.Tokens

set_option autoImplicit false

/-! # Concurrent refreshes of one token

`AuthService.refresh` of `app/services/auth_service.py`, cut at its await points: any number of
calls that present the same refresh token, interleaved, against one Redis store. A call is
suspended while the user row is read, while `EXISTS` and `SET` are under way, and while a detected
reuse is written to the database.

The check and the revocation are two commands. A call that has passed the check but not yet
revoked the token does not keep another call from passing it too, and a revocation entry lapses up
to a second before the token does. -/

namespace TradingHub

open Library

/-! ## The calls -/

/-- The columns of a user that `refresh` reads. -/
structure User where
  id : String
  role : String
  isActive : Bool
  tokenGeneration : ℤ
deriving DecidableEq, Repr

/-- Where a call of `refresh` is. -/
inductive RefreshCall
  /-- The token is decoded; the user row is being read. -/
  | loading
  /-- `EXISTS` is under way. -/
  | checking (user : User)
  /-- `EXISTS` has been executed. -/
  | checked (user : User) (revoked : Bool)
  /-- The token was revoked: the bump of the generation and the audit row are being committed. -/
  | invalidating (user : User)
  /-- `SET` is under way. -/
  | revoking (user : User) (ttlSeconds : ℤ)
  /-- `SET` has been executed. -/
  | rotated (user : User)
  | returned (pair : TokenPair)
  | raised (error : AuthError)
deriving DecidableEq

/-- The clock, the store, the row of the token's user and the calls. -/
structure AuthState where
  now : ℚ
  redis : Redis
  user : Option User
  calls : Dict ℕ RefreshCall

/-- A step of a call, or of the world around the calls. -/
inductive AuthStep
  | start (i : ℕ)
  | load (i : ℕ)
  | check (i : ℕ)
  | resume (i : ℕ)
  | set (i : ℕ)
  /-- The call ends; the identifiers are those of the tokens it issues. -/
  | finish (i : ℕ) (accessJti refreshJti : String)
  /-- What the call awaits raises, or the call is cancelled. -/
  | fail (i : ℕ) (text : String)
  /-- Time passes. -/
  | advance (moment : ℚ)
  /-- The user row is changed from elsewhere. -/
  | changeUser (user : Option User)

namespace AuthState

def put (s : AuthState) (i : ℕ) (call : RefreshCall) : AuthState :=
  { s with calls := s.calls.set i call }

@[simp] theorem get?_put (s : AuthState) (i : ℕ) (call : RefreshCall) (j : ℕ) :
    (s.put i call).calls.get? j = if j = i then some call else s.calls.get? j :=
  Dict.get?_set s.calls i call j

end AuthState

namespace AuthService

/-- The calls have read the user row: a missing or inactive user is refused. -/
def afterLoad : Option User → RefreshCall
  | none => .raised (.authentication "User no longer active.")
  | some user =>
    if user.isActive then .checking user
    else .raised (.authentication "User no longer active.")

/-- The call goes on with the answer of `EXISTS`. -/
def afterCheck (claims : TokenClaims) (user : User) (revoked : Bool) (now : ℚ) : RefreshCall :=
  if revoked then .invalidating user
  else if claims.generation < user.tokenGeneration then
    .raised (.authentication "This session has been invalidated.")
  else .revoking user (remainingTtl claims.expiresAt now)

/-- One step of the calls of `refresh` that present the token with `claims`. A step that does not
    apply changes nothing. -/
def step (tokens : TokenService) (claims : TokenClaims) (s : AuthState) : AuthStep → AuthState
  | .start i =>
    match s.calls.get? i with
    | none =>
      match TokenService.decode claims .refresh s.now with
      | .ok _ => s.put i .loading
      | .error e => s.put i (.raised e)
    | some _ => s
  | .load i =>
    match s.calls.get? i with
    | some .loading => s.put i (afterLoad s.user)
    | _ => s
  | .check i =>
    match s.calls.get? i with
    | some (.checking user) =>
      s.put i (.checked user (RedisTokenStore.isRevoked s.redis claims.jti s.now))
    | _ => s
  | .resume i =>
    match s.calls.get? i with
    | some (.checked user revoked) => s.put i (afterCheck claims user revoked s.now)
    | _ => s
  | .set i =>
    match s.calls.get? i with
    | some (.revoking user ttlSeconds) =>
      { s.put i (.rotated user) with
        redis := RedisTokenStore.revoke s.redis claims.jti ttlSeconds s.now }
    | _ => s
  | .finish i accessJti refreshJti =>
    match s.calls.get? i with
    | some (.rotated user) =>
      s.put i (.returned (tokens.issuePair user.id user.role user.tokenGeneration accessJti
        refreshJti s.now))
    | some (.invalidating user) =>
      { s.put i (.raised (.authentication "This refresh token has been revoked.")) with
        user := s.user.map fun row => { row with tokenGeneration := user.tokenGeneration + 1 } }
    | _ => s
  | .fail i text =>
    match s.calls.get? i with
    | some (.returned _) => s
    | some (.raised _) => s
    | some _ => s.put i (.raised (.external text))
    | none => s
  | .advance moment => { s with now := max s.now moment }
  | .changeUser user => { s with user }

end AuthService

/-! ## One exchange of a token -/

namespace RefreshCall

/-- The call has passed the check and its revocation has not been executed. -/
def pending : RefreshCall → Bool
  | checked _ false => true
  | revoking _ _ => true
  | _ => false

/-- The revocation of the call has been executed, and the call has not raised. -/
def hasRotated : RefreshCall → Bool
  | rotated _ => true
  | returned _ => true
  | _ => false

/-- The call has passed the check and has not raised. -/
def passed (call : RefreshCall) : Bool := call.pending || call.hasRotated

end RefreshCall

/-- The condition on a step: when `EXISTS` is executed for a call, no other call is between its
    check and its revocation, and a revocation entry that was written has not lapsed. -/
def Exclusive (claims : TokenClaims) (s : AuthState) : AuthStep → Prop
  | .check i => (∀ e ∈ s.calls.entries, e.1 ≠ i → e.2.pending = false) ∧
      ∀ lapses ∈ Dict.get? s.redis (RedisTokenStore.key claims.jti), s.now < lapses
  | _ => True

instance (claims : TokenClaims) (s : AuthState) : ∀ a, Decidable (Exclusive claims s a)
  | .check i => inferInstanceAs (Decidable ((∀ e ∈ s.calls.entries, e.1 ≠ i → e.2.pending = false) ∧
      ∀ lapses ∈ Dict.get? s.redis (RedisTokenStore.key claims.jti), s.now < lapses))
  | .start _ => inferInstanceAs (Decidable True)
  | .load _ => inferInstanceAs (Decidable True)
  | .resume _ => inferInstanceAs (Decidable True)
  | .set _ => inferInstanceAs (Decidable True)
  | .finish _ _ _ => inferInstanceAs (Decidable True)
  | .fail _ _ => inferInstanceAs (Decidable True)
  | .advance _ => inferInstanceAs (Decidable True)
  | .changeUser _ => inferInstanceAs (Decidable True)

/-- At most one call has passed the check, and if its revocation was executed the entry is there. -/
structure OneExchange (claims : TokenClaims) (s : AuthState) : Prop where
  unique : ∀ i j call call', s.calls.get? i = some call → s.calls.get? j = some call' →
    call.passed = true → call'.passed = true → i = j
  revoked : ∀ i call, s.calls.get? i = some call → call.hasRotated = true →
    Dict.get? s.redis (RedisTokenStore.key claims.jti) ≠ none

namespace OneExchange

variable {claims : TokenClaims} {s : AuthState}

/-- A call moves on without passing the check anew. -/
theorem put (h : OneExchange claims s) {i : ℕ} {call : RefreshCall} (redis : Redis)
    (hpassed : call.passed = true → ∃ old, s.calls.get? i = some old ∧ old.passed = true)
    (hkept : Dict.get? s.redis (RedisTokenStore.key claims.jti) ≠ none →
      Dict.get? redis (RedisTokenStore.key claims.jti) ≠ none)
    (hrotated : call.hasRotated = true → Dict.get? redis (RedisTokenStore.key claims.jti) ≠ none) :
    OneExchange claims { s.put i call with redis } := by
  -- A call that has passed in the new state has passed in the old one, under the same number.
  have hback : ∀ j call', (s.put i call).calls.get? j = some call' → call'.passed = true →
      ∃ old, s.calls.get? j = some old ∧ old.passed = true := by
    intro j call' hget hp
    rw [AuthState.get?_put] at hget
    split at hget
    · next hj =>
      obtain rfl := Option.some.inj hget
      exact hj ▸ hpassed hp
    · exact ⟨call', hget, hp⟩
  refine ⟨fun j j' call₁ call₂ h₁ h₂ hp₁ hp₂ => ?_, fun j call' hget hr => ?_⟩
  · obtain ⟨old₁, hold₁, hpass₁⟩ := hback j call₁ h₁ hp₁
    obtain ⟨old₂, hold₂, hpass₂⟩ := hback j' call₂ h₂ hp₂
    exact h.unique j j' old₁ old₂ hold₁ hold₂ hpass₁ hpass₂
  · have hget' : (s.put i call).calls.get? j = some call' := hget
    rw [AuthState.get?_put] at hget'
    split at hget'
    · obtain rfl := Option.some.inj hget'
      exact hrotated hr
    · exact hkept (h.revoked j call' hget' hr)

theorem put_idle (h : OneExchange claims s) {i : ℕ} {call : RefreshCall}
    (hpassed : call.passed = false) : OneExchange claims (s.put i call) := by
  refine h.put s.redis (fun hp => absurd hp (by simp [hpassed])) id fun hr => ?_
  rw [RefreshCall.passed, hr, Bool.or_true] at hpassed
  exact absurd hpassed (by simp)

/-- A call passes the check alone: a call that passed before it is neither waiting for its
    revocation nor done with it, for then the entry would be found. -/
theorem check (h : OneExchange claims s) {i : ℕ} (user : User)
    (hexcl : Exclusive claims s (.check i)) :
    OneExchange claims
      (s.put i (.checked user (RedisTokenStore.isRevoked s.redis claims.jti s.now))) := by
  cases hrevoked : RedisTokenStore.isRevoked s.redis claims.jti s.now with
  | true => exact h.put_idle rfl
  | false =>
    have hnone : ∀ j call, j ≠ i → s.calls.get? j = some call → call.passed = false := by
      intro j call hj hcall
      have hpending := hexcl.1 (j, call) ((Dict.get?_eq_some_iff _ _ _).1 hcall) hj
      cases hrotated : call.hasRotated with
      | false => rw [RefreshCall.passed, hpending, hrotated, Bool.or_false]
      | true =>
        obtain ⟨lapses, hlapses⟩ := Option.ne_none_iff_exists'.1 (h.revoked j call hcall hrotated)
        rw [RedisTokenStore.isRevoked, Redis.keyExists, hlapses] at hrevoked
        exact absurd (hexcl.2 lapses hlapses) (by simpa using hrevoked)
    have hold : ∀ j call, (s.put i (.checked user false)).calls.get? j = some call →
        call.passed = true → j = i := by
      intro j call hcall hp
      rw [AuthState.get?_put] at hcall
      split at hcall
      · next hj => exact hj
      · next hj => exact absurd (hnone j call hj hcall) (by simp [hp])
    refine ⟨fun j j' call call' hj hj' hp hp' => ?_, fun j call hcall hr => ?_⟩
    · rw [hold j call hj hp, hold j' call' hj' hp']
    · rw [AuthState.get?_put] at hcall
      split at hcall
      · obtain rfl := Option.some.inj hcall
        exact absurd hr (by simp [RefreshCall.hasRotated])
      · exact h.revoked j call hcall hr

theorem resume (h : OneExchange claims s) {i : ℕ} {user : User} {revoked : Bool}
    (hget : s.calls.get? i = some (.checked user revoked)) :
    OneExchange claims (s.put i (AuthService.afterCheck claims user revoked s.now)) := by
  unfold AuthService.afterCheck
  split
  · exact h.put_idle rfl
  · next hrevoked =>
    split
    · exact h.put_idle rfl
    · obtain rfl : revoked = false := by simpa using hrevoked
      exact h.put s.redis (fun _ => ⟨_, hget, rfl⟩) id
        fun hr => absurd hr (by simp [RefreshCall.hasRotated])

theorem set (h : OneExchange claims s) {i : ℕ} {user : User} {ttlSeconds : ℤ}
    (hget : s.calls.get? i = some (.revoking user ttlSeconds)) :
    OneExchange claims { s.put i (.rotated user) with
      redis := RedisTokenStore.revoke s.redis claims.jti ttlSeconds s.now } := by
  have hwritten : Dict.get? (RedisTokenStore.revoke s.redis claims.jti ttlSeconds s.now)
      (RedisTokenStore.key claims.jti) ≠ none := by
    rw [RedisTokenStore.revoke, Redis.setEx, Dict.get?_set_self]
    simp
  exact h.put _ (fun _ => ⟨_, hget, rfl⟩) (fun _ => hwritten) fun _ => hwritten

/-- A step of the calls keeps the invariant, if the checks are exclusive. -/
theorem step (h : OneExchange claims s) (tokens : TokenService) {a : AuthStep} (hexcl : Exclusive claims s a) :
    OneExchange claims (AuthService.step tokens claims s a) := by
  cases a with
  | start i =>
    simp only [AuthService.step]
    split
    · split
      · exact h.put_idle rfl
      · exact h.put_idle rfl
    · exact h
  | load i =>
    simp only [AuthService.step]
    split
    · refine h.put_idle ?_
      unfold AuthService.afterLoad
      split
      · rfl
      · split <;> rfl
    · exact h
  | check i =>
    simp only [AuthService.step]
    split
    · next user _ => exact h.check user hexcl
    · exact h
  | resume i =>
    simp only [AuthService.step]
    split
    · next user revoked hget => exact h.resume hget
    · exact h
  | set i =>
    simp only [AuthService.step]
    split
    · next user ttlSeconds hget => exact h.set hget
    · exact h
  | finish i accessJti refreshJti =>
    simp only [AuthService.step]
    split
    · next user hget =>
      exact h.put s.redis (fun _ => ⟨_, hget, rfl⟩) id fun _ => h.revoked i _ hget rfl
    · exact ⟨(h.put_idle rfl).unique, (h.put_idle rfl).revoked⟩
    · exact h
  | fail i text =>
    simp only [AuthService.step]
    split
    · exact h
    · exact h
    · exact h.put_idle rfl
    · exact h
  | advance moment => exact ⟨h.unique, h.revoked⟩
  | changeUser user => exact ⟨h.unique, h.revoked⟩

end OneExchange

/-- The calls that have returned a token pair. -/
def AuthState.returned (s : AuthState) : List ℕ :=
  (s.calls.entries.filter fun e => e.2 matches .returned _).map Prod.fst

theorem OneExchange.returned_length {claims : TokenClaims} {s : AuthState}
    (h : OneExchange claims s) : s.returned.length ≤ 1 := by
  have hnodup : s.returned.Nodup :=
    s.calls.nodup.sublist (List.filter_sublist.map Prod.fst)
  have hpassed : ∀ i ∈ s.returned, ∃ call, s.calls.get? i = some call ∧ call.passed = true := by
    intro i hi
    obtain ⟨⟨j, call⟩, hmem, rfl⟩ := List.mem_map.1 hi
    obtain ⟨hentry, hcall⟩ := List.mem_filter.1 hmem
    refine ⟨call, (Dict.get?_eq_some_iff _ _ _).2 hentry, ?_⟩
    cases call <;> simp_all [RefreshCall.passed, RefreshCall.hasRotated]
  match hs : s.returned with
  | [] => simp
  | [_] => simp
  | i :: j :: _ =>
    rw [hs] at hnodup hpassed
    obtain ⟨call, hcall, hp⟩ := hpassed i (by simp)
    obtain ⟨call', hcall', hp'⟩ := hpassed j (by simp)
    exact absurd (h.unique i j call call' hcall hcall' hp hp') (by simp_all)

/-- However the calls that present one refresh token are interleaved, at most one returns a token
    pair, as long as no `EXISTS` is executed while another call is between its check and its
    revocation, or after a revocation entry of the token has lapsed. -/
theorem refresh_exchanges_once (tokens : TokenService) (claims : TokenClaims) (now : ℚ)
    (redis : Redis) (user : Option User) (steps : List AuthStep)
    (hexcl : Guarded (AuthService.step tokens claims) (Exclusive claims) ⟨now, redis, user, .empty⟩
      steps) :
    (steps.foldl (AuthService.step tokens claims) ⟨now, redis, user, .empty⟩).returned.length ≤ 1 := by
  have hinit : OneExchange claims ⟨now, redis, user, .empty⟩ :=
    ⟨fun _ _ _ _ hget => absurd hget (by simp), fun _ _ hget => absurd hget (by simp)⟩
  exact (run_invariant (fun _ _ h hg => h.step tokens hg) steps _ hinit
    hexcl).returned_length

/-- A refresh token issued at 0 for a thousand seconds. -/
def TokenClaims.sample : TokenClaims := ⟨"u", "trader", .refresh, "j", 1000, 0, 0⟩

/-- The state in which the sample token is presented. -/
def AuthState.sample : AuthState := ⟨10, Dict.empty, some ⟨"u", "trader", true, 0⟩, Dict.empty⟩

/-- Two calls, the second of which is checked when the first has revoked the token. -/
def orderedRefreshes : List AuthStep :=
  [.start 0, .start 1, .load 0, .load 1, .check 0, .resume 0, .set 0, .advance 11, .check 1,
    .finish 0 "x" "y", .resume 1, .finish 1 "z" "w"]

theorem refresh_exchanges_sample :
    (orderedRefreshes.foldl (AuthService.step ⟨900, 1000⟩ .sample) .sample).returned = [0] ∧
      (orderedRefreshes.foldl (AuthService.step ⟨900, 1000⟩ .sample) .sample).returned.length ≤ 1 :=
  ⟨by decide +kernel, refresh_exchanges_once ⟨900, 1000⟩ .sample 10 Dict.empty
    (some ⟨"u", "trader", true, 0⟩) orderedRefreshes (by decide +kernel)⟩

/-- Two calls that are both checked before either has revoked the token. -/
def racingRefreshes : List AuthStep :=
  [.start 0, .start 1, .load 0, .load 1, .check 0, .check 1, .resume 0, .resume 1, .set 0, .set 1,
    .finish 0 "x" "y", .finish 1 "z" "w"]

/-- Both calls return a token pair for the one token. -/
theorem racing_refreshes_both_return :
    (racingRefreshes.foldl (AuthService.step ⟨900, 1000⟩ .sample) .sample).returned = [0, 1] := by
  decide +kernel

end TradingHub
