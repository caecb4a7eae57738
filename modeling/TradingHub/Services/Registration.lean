import TradingHub.Services.Rejections

set_option autoImplicit false

/-! # Registered users

What a user who registers can rely on. `Registered` says that the row of the user is there with the
email, the role and a hash of the password it registered with, and that no other row has the email;
`Effect.registered` says that no request takes this away, a login that hashes the password anew
included. So a later login under the email is decided by the password, and by the second factor if
the user has turned it on: `registered_password_is_the_key`. -/

namespace TradingHub

open Library

/-! ## Libraries -/

/-- Hashing as it is meant: a hash is verified by the password it was made of, and by no other. -/
def AuthEnv.HashesFaithfully (env : AuthEnv) : Prop :=
  ∀ salt password password',
    env.verify (env.hash salt password) password' = true ↔ password' = password

/-- Lowering a text twice is lowering it once. -/
def TextEnv.LowersOnce (text : TextEnv) : Prop := ∀ s, text.lower (text.lower s) = text.lower s

/-! ## The second factor in the history -/

/-- What the request made of the second factor of the user, if it switched it. -/
def Served.switches (userId : String) (e : Served) : Option Bool :=
  match e.request, e.reply with
  | .confirm userId' _, .ok _ => if userId' = userId then some true else none
  | .disable userId' _, .ok _ => if userId' = userId then some false else none
  | _, _ => none

/-- The second factor of the user is on after these requests, the last one first. -/
def secondFactorOn (userId : String) (past : List Served) : Bool :=
  (past.findSome? (Served.switches userId)).getD false

@[simp] theorem secondFactorOn_nil (userId : String) : secondFactorOn userId [] = false := rfl

theorem secondFactorOn_cons (userId : String) (e : Served) (past : List Served) :
    secondFactorOn userId (e :: past) = (e.switches userId).getD (secondFactorOn userId past) := by
  unfold secondFactorOn
  rw [List.findSome?_cons]
  cases e.switches userId with
  | none => rfl
  | some on => rfl

/-! ## The row of a registered user -/

/-- A row under the email with the password, its second factor `on` or off. -/
structure UserRecord.Of (env : AuthEnv) (email password : String) (on : Bool) (user : UserRecord) :
    Prop where
  email : user.email = env.text.lower email
  role : user.role = "trader"
  active : user.isActive = true
  hash : ∃ salt, user.passwordHash = env.hash salt password
  enabled : user.totpEnabled = on

/-- The row of the user is the one that was registered, and the only one under its email. -/
structure Registered (env : AuthEnv) (email password id : String) (on : Bool)
    (users : Dict String UserRecord) : Prop where
  row : ∃ user, users.get? id = some user ∧ user.Of env email password on
  unique : ∀ id' user', users.get? id' = some user' → user'.email = env.text.lower email →
    id' = id

variable {env : AuthEnv} {draws : Draws} {s : AuthServer} {email password id : String} {on : Bool}

/-- A password is accepted that the hash verifies. -/
theorem verified_of_accepted {id' : String} {user accepted : UserRecord} {totpCode : Option String}
    {now : ℚ}
    (h : checkCredentials env (some (id, user)) password totpCode now = .accepted id' accepted) :
    env.verify user.passwordHash password = true := by
  unfold checkCredentials at h
  split at h
  · exact absurd h (by simp)
  · next hfound =>
    obtain ⟨rfl, rfl⟩ := Prod.mk.inj (Option.some.inj hfound)
    split at h
    · exact absurd h (by simp)
    · next hverify => simpa using hverify

namespace UserRecord.Of

variable {user : UserRecord}

/-- The password of a row is the one it was registered with. -/
theorem verify_iff (h : user.Of env email password on) (hhash : env.HashesFaithfully)
    (password' : String) : env.verify user.passwordHash password' = true ↔ password' = password := by
  obtain ⟨salt, hsalt⟩ := h.hash
  rw [hsalt]
  exact hhash salt password password'

/-- A login leaves the row the user's, with the password it was registered with. -/
theorem login (draws : Draws) {id' password' : String} {accepted : UserRecord}
    {totpCode : Option String} {now : ℚ} (h : user.Of env email password on)
    (hhash : env.HashesFaithfully)
    (haccepted : checkCredentials env (some (id, user)) password' totpCode now
      = .accepted id' accepted) :
    (accepted.rehashed env draws password').Of env email password on := by
  have hpassword : password' = password :=
    (h.verify_iff hhash password').1 (verified_of_accepted haccepted)
  have hof : accepted.Of env email password on := by
    rcases accepted_cases haccepted with ⟨-, rfl⟩ | ⟨-, hconsumed⟩
    · exact h
    · obtain ⟨-, -, -, -, -, rfl⟩ := consumeTotp_eq_ok hconsumed
      exact ⟨h.email, h.role, h.active, h.hash, h.enabled⟩
  unfold UserRecord.rehashed
  split
  · exact ⟨hof.email, hof.role, hof.active, ⟨draws.salt, by rw [hpassword]⟩, hof.enabled⟩
  · exact hof

end UserRecord.Of

/-- A login leaves the email of a row as it is. -/
theorem accepted_email {id' password' : String} {user accepted : UserRecord}
    {totpCode : Option String} {now : ℚ}
    (haccepted : checkCredentials env (some (id, user)) password' totpCode now
      = .accepted id' accepted) :
    (accepted.rehashed env draws password').email = user.email := by
  have hemail : accepted.email = user.email := by
    rcases accepted_cases haccepted with ⟨-, rfl⟩ | ⟨-, hconsumed⟩
    · rfl
    · obtain ⟨-, -, -, -, -, rfl⟩ := consumeTotp_eq_ok hconsumed
      rfl
  unfold UserRecord.rehashed
  split
  · exact hemail
  · exact hemail

/-! ## What a request does to a registered user -/

namespace Registered

variable {users : Dict String UserRecord}

/-- A row is written over one with the same email. -/
theorem set {id' : String} {row row' : UserRecord} {on' : Bool}
    (h : Registered env email password id on users) (hget : users.get? id' = some row)
    (hemail : row'.email = row.email)
    (hown : id' = id → row.Of env email password on → row'.Of env email password on')
    (hother : id' ≠ id → on' = on) : Registered env email password id on' (users.set id' row') := by
  obtain ⟨user, huser, hof⟩ := h.row
  constructor
  · by_cases hid : id' = id
    · subst hid
      obtain rfl := Option.some.inj (huser.symm.trans hget)
      exact ⟨row', Dict.get?_set_self _ _ _, hown rfl hof⟩
    · rw [hother hid]
      exact ⟨user, (Dict.get?_set_of_ne _ _ (Ne.symm hid)).trans huser, hof⟩
  · intro id'' user'' hget'' hemail''
    rw [Dict.get?_set] at hget''
    split at hget''
    · next heq =>
      obtain rfl := Option.some.inj hget''
      subst heq
      exact h.unique _ row hget (hemail.symm.trans hemail'')
    · exact h.unique id'' user'' hget'' hemail''

/-- The user is found by the email. -/
theorem findByEmail (h : Registered env email password id on s.db.users)
    (hlower : env.text.LowersOnce) {email' : String}
    (hemail : env.text.lower email' = env.text.lower email) :
    ∃ user, s.findByEmail (env.text.lower (env.text.lower email')) = some (id, user) ∧
      user.Of env email password on := by
  obtain ⟨user, hget, hof⟩ := h.row
  have hkey : env.text.lower (env.text.lower email') = env.text.lower email :=
    (hlower email').trans hemail
  rw [hkey]
  cases hfind : s.findByEmail (env.text.lower email) with
  | none =>
    have hmem := (Dict.get?_eq_some_iff _ _ _).1 hget
    exact absurd hof.email (by simpa using List.find?_eq_none.1 hfind _ hmem)
  | some found =>
    obtain ⟨id', user'⟩ := found
    have hget' := AuthService.get?_of_findByEmail hfind
    have hemail' : user'.email = env.text.lower email := by simpa using List.find?_some hfind
    obtain rfl := h.unique id' user' hget' hemail'
    obtain rfl := Option.some.inj (hget.symm.trans hget')
    exact ⟨user, rfl, hof⟩

end Registered

namespace AuthService

-- What running a handler to its end unfolds.
attribute [local simp] handle register authenticate recordAudit commitSecurityEvent bind Act.bind
  Act.read Act.modify Act.raise

/-- An email is registered that no row has. -/
theorem findByEmail_of_registered {request : AuthRequest} {reply : AuthReply}
    (hrequest : request = .register email password)
    (h : (serve env draws request s).1 = .ok reply) :
    s.findByEmail (env.text.lower (env.text.lower email)) = none := by
  subst hrequest
  by_contra hfound
  have hsome : (s.findByEmail (env.text.lower (env.text.lower email))).isSome :=
    Option.isSome_iff_ne_none.2 hfound
  exact absurd h (by simp [serve, hsome])

/-- A login that returns a pair found a row under the email and accepted the password for it. -/
theorem login_pair {totpCode ip : Option String} {pair : TokenPair}
    (h : (serve env draws (.login email password totpCode ip) s).1 = .ok (.pair pair)) :
    ∃ user, s.findByEmail (env.text.lower (env.text.lower email))
        = some (pair.access.subject, user) ∧
      env.verify user.passwordHash password = true := by
  cases hlocked : (s.throttle.isLocked env.text (env.text.lower email) s.now).1 with
  | true => exact absurd h (by simp [serve, hlocked])
  | false =>
    rw [serve_login hlocked] at h
    cases hcheck : checkCredentials env
        (s.findByEmail (env.text.lower (env.text.lower email))) password totpCode s.now with
    | rejected failure action userId => exact absurd h (by simp [hcheck, loginResult])
    | raised failure => exact absurd h (by simp [hcheck, loginResult])
    | accepted id accepted =>
      rw [hcheck] at h
      obtain rfl := AuthReply.pair.inj (Except.ok.inj h)
      obtain ⟨user, hfound⟩ := found_of_accepted hcheck
      rw [hfound] at hcheck
      exact ⟨user, hfound, verified_of_accepted hcheck⟩

end AuthService

/-- The step: a request leaves a registered user registered; it may switch the second factor. -/
theorem Effect.registered_user {request : AuthRequest} {reply : Except AuthFailure AuthReply}
    {users : Dict String UserRecord} {tokenStore : TokenStore}
    (heffect : Effect env draws s request reply users tokenStore) (hhash : env.HashesFaithfully)
    (hlower : env.text.LowersOnce)
    (hnew : ∀ email' password' reply', request = .register email' password' → reply = .ok reply' →
      s.findByEmail (env.text.lower (env.text.lower email')) = none)
    (h : Registered env email password id on s.db.users) :
    Registered env email password id (((Served.mk s draws request reply).switches id).getD on)
      users := by
  cases heffect with
  | raised failure hrequest => cases request <;> exact h
  | @registered email' password' hfresh =>
    obtain ⟨user, hget, hof⟩ := h.row
    have hid : id ≠ draws.userId := by
      rintro rfl
      exact absurd (hget.symm.trans hfresh) (by simp)
    refine ⟨⟨user, (Dict.get?_set_of_ne _ _ hid).trans hget, hof⟩, ?_⟩
    intro id' user' hget' hemail
    rw [Dict.get?_set] at hget'
    split at hget'
    · -- The row that is new has an email that no row had.
      obtain rfl := Option.some.inj hget'
      obtain ⟨user'', hfound, -⟩ := h.findByEmail hlower hemail
      exact absurd ((hnew _ _ _ rfl rfl).symm.trans hfound) (by simp)
    · exact h.unique id' user' hget' hemail
  | loggedIn hget haccepted =>
    exact h.set hget (accepted_email haccepted) (fun _ hof => hof.login _ hhash haccepted)
      fun _ => rfl
  | reused hdecode hget hactive hrevoked =>
    exact h.set hget rfl (fun _ hof => ⟨hof.email, hof.role, hof.active, hof.hash, hof.enabled⟩)
      fun _ => rfl
  | enrolled hget hdisabled =>
    exact h.set hget rfl (fun _ hof => ⟨hof.email, hof.role, hof.active, hof.hash, hof.enabled⟩)
      fun _ => rfl
  | confirmed hget hsecret hconsumed =>
    obtain ⟨-, -, -, -, -, rfl⟩ := consumeTotp_eq_ok hconsumed
    refine h.set hget rfl (fun hid hof => ?_) fun hid => ?_
    · exact ⟨hof.email, hof.role, hof.active, hof.hash, by simp [Served.switches, hid]⟩
    · simp [Served.switches, hid]
  | disabled hget henabled hsecret hconsumed =>
    obtain ⟨-, -, -, -, -, rfl⟩ := consumeTotp_eq_ok hconsumed
    refine h.set hget rfl (fun hid hof => ?_) fun hid => ?_
    · exact ⟨hof.email, hof.role, hof.active, hof.hash, by simp [Served.switches, hid]⟩
    · simp [Served.switches, hid]
  | _ => exact h

/-- A row under the email is found. -/
theorem ne_email_of_findByEmail {email' id' : String} {user : UserRecord}
    (h : s.findByEmail email' = none) (hget : s.db.users.get? id' = some user) :
    user.email ≠ email' := by
  have hmem := (Dict.get?_eq_some_iff _ _ _).1 hget
  simpa using List.find?_eq_none.1 h _ hmem

/-- The start: a registration that succeeds. -/
theorem Effect.newly_registered {request : AuthRequest} {reply : Except AuthFailure AuthReply}
    {users : Dict String UserRecord} {tokenStore : TokenStore}
    (heffect : Effect env draws s request reply users tokenStore) (hlower : env.text.LowersOnce)
    (hrequest : request = .register email password) (hreply : reply = .ok (.registered id))
    (hnew : s.findByEmail (env.text.lower (env.text.lower email)) = none) :
    Registered env email password id false users := by
  cases heffect with
  | registered hfresh =>
    obtain ⟨rfl, rfl⟩ := AuthRequest.register.inj hrequest
    obtain rfl := AuthReply.registered.inj (Except.ok.inj hreply)
    rw [hlower] at hnew
    constructor
    · exact ⟨_, Dict.get?_set_self _ _ _, rfl, rfl, rfl, ⟨draws.salt, rfl⟩, rfl⟩
    · intro id' user' hget hemail
      by_contra hid
      rw [Dict.get?_set_of_ne _ _ hid] at hget
      exact ne_email_of_findByEmail hnew hget hemail
  | raised failure _ => exact absurd hreply (by simp)
  | _ => exact absurd hrequest (by simp)

/-! ## What a run does to a registered user -/

namespace Chronicle

variable {guard : AuthHistory → AuthInput → Prop} {first : AuthServer} {e : Served}
  {earlier : List Served}

/-- Whatever was requested since, a registered user is registered. -/
theorem registered (hhash : env.HashesFaithfully) (hlower : env.text.LowersOnce)
    (hrequest : e.request = .register email password) (hreply : e.reply = .ok (.registered id)) :
    ∀ {later : List Served} {server : AuthServer},
      Chronicle env guard first server (later ++ e :: earlier) →
      Registered env email password id (secondFactorOn id later) server.db.users := by
  intro later
  induction later with
  | nil =>
    intro server h
    cases h with
    | @served server' _ h input hguard =>
      have heffect := (h.outcome input).effect
      refine heffect.newly_registered hlower hrequest hreply ?_
      exact AuthService.findByEmail_of_registered hrequest hreply
  | cons e' later ih =>
    intro server h
    cases h with
    | @served server' _ h input hguard =>
      rw [secondFactorOn_cons]
      have hregistered := ih h
      refine (h.outcome input).effect.registered_user hhash hlower ?_ hregistered
      intro email' password' reply' hrequest' hreply'
      exact AuthService.findByEmail_of_registered hrequest' hreply'

end Chronicle

/-- A user who registered is let in by the registered password alone. In every later state of every
    run, no login hands out a token of the user for another email or another password; and under the
    email, while the identity is not locked out, a wrong password is refused as such and the right
    one returns a pair of tokens, or if the user has turned the second factor on, asks for a code. -/
theorem registered_password_is_the_key (env : AuthEnv) (hhash : env.HashesFaithfully)
    (hlower : env.text.LowersOnce) {guard : AuthHistory → AuthInput → Prop}
    {first server : AuthServer} {later earlier : List Served} {e : Served}
    (h : Chronicle env guard first server (later ++ e :: earlier)) {email password id : String}
    (hrequest : e.request = .register email password) (hreply : e.reply = .ok (.registered id))
    (moment : ℚ) (draws : Draws) (email' password' : String) (totpCode ip : Option String) :
    let served := server.served env ⟨moment, draws, .login email' password' totpCode ip⟩
    (∀ pair, served.reply = .ok (.pair pair) → pair.access.subject = id →
      env.text.lower email' = env.text.lower email ∧ password' = password) ∧
    (env.text.lower email' = env.text.lower email →
      (served.before.throttle.isLocked env.text (env.text.lower email') served.before.now).1
        = false →
      (password' ≠ password →
        served.reply = .error (authenticationError "Invalid email or password.")) ∧
      (password' = password → secondFactorOn id later = false →
        ∃ pair, served.reply = .ok (.pair pair) ∧ pair.access.subject = id ∧
          pair.access.role = "trader") ∧
      (password' = password → secondFactorOn id later = true → totpCode.getD "" = "" →
        served.reply = .error .twoFactorRequired)) := by
  intro served
  have hregistered : Registered env email password id (secondFactorOn id later)
      served.before.db.users := h.registered hhash hlower hrequest hreply
  refine ⟨?_, ?_⟩
  · rintro pair hpair rfl
    obtain ⟨user, hfound, hverify⟩ := AuthService.login_pair hpair
    obtain ⟨user', hget, hof⟩ := hregistered.row
    obtain rfl := Option.some.inj ((AuthService.get?_of_findByEmail hfound).symm.trans hget)
    have hemail : user.email = env.text.lower (env.text.lower email') := by
      simpa using List.find?_some hfound
    exact ⟨(hlower email').symm.trans (hemail.symm.trans hof.email),
      (hof.verify_iff hhash password').1 hverify⟩
  · intro hemail hunlocked
    obtain ⟨user, hfound, hof⟩ := hregistered.findByEmail hlower hemail
    have hreply : served.reply = (loginResult env draws email' password' ip served.before
        (served.before.throttle.isLocked env.text (env.text.lower email') served.before.now).2
        (checkCredentials env (some (id, user)) password' totpCode served.before.now)).1 := by
      rw [← hfound]
      exact congrArg Prod.fst (AuthService.serve_login hunlocked)
    have hverify := hof.verify_iff hhash password'
    refine ⟨fun hwrong => ?_, fun hright hoff => ?_, fun hright hon hcode => ?_⟩
    · have hno : env.verify user.passwordHash password' = false :=
        Bool.eq_false_iff.2 fun hyes => hwrong (hverify.1 hyes)
      simp [hreply, checkCredentials, hno, loginResult]
    · have hdisabled : user.totpEnabled = false := hof.enabled.trans hoff
      have haccepted : checkCredentials env (some (id, user)) password' totpCode served.before.now
          = .accepted id user := by
        simp [checkCredentials, hverify.2 hright, hof.active, hdisabled]
      rw [haccepted] at hreply
      have hrow := hof.login draws hhash haccepted
      exact ⟨_, hreply, rfl, hrow.role⟩
    · have henabled : user.totpEnabled = true := hof.enabled.trans hon
      simp [hreply, checkCredentials, hverify.2 hright, hof.active, henabled, hcode, loginResult]

/-- The sample, with one email that is not in lower case. -/
def AuthEnv.folding : AuthEnv :=
  { AuthEnv.sample with text := ⟨fun s => if s = "B@x.io" then "b@x.io" else s, fun s => s⟩ }

/-- A second user registers, and the first one logs in and turns the second factor on. -/
def registrationInputs : List AuthInput :=
  [⟨1, { userId := "v" }, .register "B@x.io" "secret"⟩, ⟨2, {}, .login "a@x.io" "pw" none none⟩,
    ⟨3, { secret := "JBSWY3DPEHPK3PXP" }, .enroll "u"⟩, ⟨31, {}, .confirm "u" "1"⟩]

/-- The history of the first `n` of these requests. -/
def registrationHistory (n : ℕ) : AuthHistory :=
  (registrationInputs.take n).foldl (AuthHistory.step .folding) ⟨.sample, []⟩

/-- The second user logs in under the email in lower case. -/
theorem registered_sample : ∃ pair,
    ((registrationHistory 4).server.served .folding
        ⟨40, {}, .login "b@x.io" "secret" none none⟩).reply
      = .ok (.pair pair) ∧ pair.access.subject = "v" ∧ pair.access.role = "trader" := by
  have hhash : AuthEnv.folding.HashesFaithfully := by
    intro salt password password'
    simp [AuthEnv.folding, AuthEnv.sample, eq_comm]
  have hlower : AuthEnv.folding.text.LowersOnce := by
    intro s
    by_cases hs : s = "B@x.io"
    · subst hs
      rfl
    · simp [AuthEnv.folding, hs]
  let e := (registrationHistory 0).server.served .folding
    ⟨1, { userId := "v" }, .register "B@x.io" "secret"⟩
  have hrun : Chronicle .folding (fun _ _ => True) .sample (registrationHistory 4).server
      ((registrationHistory 4).past.take 3 ++ e :: []) := chronicle_of_inputs rfl rfl
  have hreply : e.reply = .ok (.registered "v") := by decide +kernel
  have hkey := registered_password_is_the_key .folding hhash hlower hrun
    (rfl : e.request = .register "B@x.io" "secret") hreply 40 {} "b@x.io" "secret" none none
  exact (hkey.2 (by decide) (by decide +kernel)).2.1 rfl (by decide +kernel)

end TradingHub
