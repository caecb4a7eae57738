import TradingHub.Services.AuthEffects

set_option autoImplicit false

/-! # Concurrent logins

`AuthService.authenticate` of `app/services/auth_service.py`, any number of calls at a time for one
email. A call is cut at its awaits: the lock check, the row, the password on its worker thread, the
outcome it records with the throttle, the audit row and the commit. What it does between two awaits
is one step, and the steps of the calls come in any order, with the clock moving between them.

The user's row is read once, with no lock, and compared with the code after the password was
verified. What the call has changed in it is written by the flush of the audit row, which locks the
row until the commit. -/

namespace TradingHub

open Library

/-! ## `record_failure` at its awaits -/

namespace LoginThrottle

variable (env : TextEnv)

/-- The first round trip of `record_failure`, and whether a second one puts the lock on. The
    in-memory backend does all of it at once. -/
def countFailure (identity : String) (now : ℚ) : LoginThrottle → Bool × LoginThrottle
  | memory throttle => (false, memory (throttle.recordFailure env identity now))
  | redis throttle =>
    (throttle.maxAttempts ≤ (throttle.countFailure env identity now).1,
      redis (throttle.countFailure env identity now).2)

/-- The second round trip. -/
def lock (identity : String) (now : ℚ) : LoginThrottle → LoginThrottle
  | memory throttle => memory throttle
  | redis throttle => redis (throttle.lock env identity now)

/-- The two round trips, one after the other, are `record_failure`. -/
theorem recordFailure_eq (identity : String) (now : ℚ) (throttle : LoginThrottle) :
    throttle.recordFailure env identity now =
      if (throttle.countFailure env identity now).1 then
        (throttle.countFailure env identity now).2.lock env identity now
      else (throttle.countFailure env identity now).2 := by
  cases throttle with
  | memory throttle => rfl
  | redis throttle =>
    simp only [recordFailure, RedisLoginThrottle.recordFailure, countFailure, lock,
      decide_eq_true_eq]
    split <;> rfl

end LoginThrottle

/-! ## The calls -/

/-- What a call waits for. A rejection has its audit row, and the exception to raise once it is
    committed; none is a lockout, whose exception asks for the seconds left first. -/
inductive LoginPhase
  /-- `is_locked`. -/
  | checking
  /-- `get_by_email`. -/
  | loading
  /-- `verify_async`, with the row read. -/
  | verifying (found : Option (String × UserRecord))
  /-- `record_failure`. -/
  | recording (failure : AuthFailure) (entry : AuthAudit)
  /-- The second round trip of `record_failure`. -/
  | locking (failure : AuthFailure) (entry : AuthAudit)
  /-- The flush of the audit row of a rejection. -/
  | auditing (failure : Option AuthFailure) (entry : AuthAudit)
  /-- `_commit_security_event`. -/
  | committing (failure : Option AuthFailure) (entry : AuthAudit)
  /-- `retry_after`. -/
  | hinting
  /-- `record_success`, with the row as it was read and as the call has it now. -/
  | clearing (id : String) (loaded user : UserRecord)
  /-- `hash_async`. -/
  | hashing (id : String) (loaded user : UserRecord)
  /-- The flush of the audit row of a login, and of the changes to the user's row. -/
  | logging (id : String) (loaded user : UserRecord)
  /-- `authenticate` has returned, and the unit of work commits. -/
  | returned (id : String) (loaded user : UserRecord) (pair : TokenPair)
  | done (pair : TokenPair)
  | raised (failure : AuthFailure)
deriving DecidableEq

/-- A call, with the moments at which it got past the lock check and at which its rejection was
    counted. -/
structure LoginCall where
  password : String
  totpCode : Option String
  ip : Option String
  draws : Draws
  phase : LoginPhase := .checking
  checkedAt : Option ℚ := none
  rejectedAt : Option ℚ := none
deriving DecidableEq

/-- `issue_pair`. -/
def LoginCall.issue (env : AuthEnv) (call : LoginCall) (id : String) (user : UserRecord) (now : ℚ) :
    TokenPair :=
  env.tokens.issuePair id user.role user.tokenGeneration call.draws.accessJti
    call.draws.refreshJti now

/-- What the calls share: the clock, the throttle, the committed row of the email with its key, the
    audit log, and the call that has written the row and not committed. -/
structure LoginStore where
  now : ℚ
  throttle : LoginThrottle
  row : Option (String × UserRecord)
  audit : List AuthAudit
  writer : Option ℕ
deriving DecidableEq

structure LoginSystem where
  store : LoginStore
  calls : List LoginCall
deriving DecidableEq

/-- The columns that differ from the row as it was read are written. -/
def UserRecord.write (loaded user current : UserRecord) : UserRecord :=
  { current with
    passwordHash := if user.passwordHash = loaded.passwordHash then current.passwordHash
      else user.passwordHash
    totpLastCounter := if user.totpLastCounter = loaded.totpLastCounter then
      current.totpLastCounter else user.totpLastCounter }

/-- The call `i` runs from its await to the next one, or to its end. A flush that has to write the
    row waits for the call that holds it. -/
def LoginStore.proceed (env : AuthEnv) (email : String) (i : ℕ) (s : LoginStore)
    (call : LoginCall) : LoginStore × LoginCall :=
  let identity := env.text.lower email
  match call.phase with
  | .checking =>
    match s.throttle.isLocked env.text identity s.now with
    | (true, throttle) =>
      ({ s with throttle }, { call with phase := .auditing none ⟨.lockedOut, none, call.ip⟩ })
    | (false, throttle) =>
      ({ s with throttle }, { call with phase := .loading, checkedAt := some s.now })
  | .loading => (s, { call with phase := .verifying s.row })
  | .verifying found =>
    match checkCredentials env found call.password call.totpCode s.now with
    | .rejected failure action userId =>
      (s, { call with phase := .recording failure ⟨action, userId, call.ip⟩ })
    | .raised failure => (s, { call with phase := .raised failure })
    | .accepted id user =>
      (s, { call with phase := .clearing id ((found.map Prod.snd).getD user) user })
  | .recording failure entry =>
    match s.throttle.countFailure env.text identity s.now with
    | (true, throttle) =>
      ({ s with throttle },
        { call with phase := .locking failure entry, rejectedAt := some s.now })
    | (false, throttle) =>
      ({ s with throttle },
        { call with phase := .auditing (some failure) entry, rejectedAt := some s.now })
  | .locking failure entry =>
    ({ s with throttle := s.throttle.lock env.text identity s.now },
      { call with phase := .auditing (some failure) entry })
  | .auditing failure entry => (s, { call with phase := .committing failure entry })
  | .committing failure entry =>
    ({ s with audit := s.audit ++ [entry] },
      { call with
        phase := match failure with
          | none => .hinting
          | some failure => .raised failure })
  | .hinting =>
    (s, { call with
      phase := .raised (.accountLocked (s.throttle.retryAfter env.text identity s.now)) })
  | .clearing id loaded user =>
    ({ s with throttle := s.throttle.recordSuccess env.text identity },
      { call with
        phase := if env.needsRehash user.passwordHash then .hashing id loaded user
          else .logging id loaded user })
  | .hashing id loaded user =>
    (s, { call with
      phase := .logging id loaded
        { user with passwordHash := env.hash call.draws.salt call.password } })
  | .logging id loaded user =>
    if user = loaded then
      (s, { call with phase := .returned id loaded user (call.issue env id user s.now) })
    else if s.writer = none then
      ({ s with writer := some i },
        { call with phase := .returned id loaded user (call.issue env id user s.now) })
    else (s, call)
  | .returned id loaded user pair =>
    ({ s with
        row := s.row.map fun (id, current) => (id, loaded.write user current)
        audit := s.audit ++ [⟨.login, some id, call.ip⟩]
        writer := if s.writer = some i then none else s.writer },
      { call with phase := .done pair })
  | .done _ => (s, call)
  | .raised _ => (s, call)

inductive LoginStep
  | start (password : String) (totpCode ip : Option String) (draws : Draws)
  | resume (i : ℕ)
  /-- Time passes. -/
  | advance (moment : ℚ)
deriving DecidableEq

/-- A step of one of the calls for `email`. A step that does not apply changes nothing. -/
def LoginSystem.step (env : AuthEnv) (email : String) (s : LoginSystem) : LoginStep → LoginSystem
  | .start password totpCode ip draws =>
    { s with calls := s.calls ++ [{ password, totpCode, ip, draws }] }
  | .resume i =>
    match s.calls[i]? with
    | none => s
    | some call =>
      ⟨(s.store.proceed env email i call).1, s.calls.set i (s.store.proceed env email i call).2⟩
  | .advance moment => { s with store := { s.store with now := max s.store.now moment } }

theorem LoginSystem.step_resume {env : AuthEnv} {email : String} {s : LoginSystem} {i : ℕ}
    {call : LoginCall} (h : s.calls[i]? = some call) :
    s.step env email (.resume i) =
      ⟨(s.store.proceed env email i call).1,
        s.calls.set i (s.store.proceed env email i call).2⟩ := by
  simp only [step, h]

theorem LoginSystem.step_resume_of_none {env : AuthEnv} {email : String} {s : LoginSystem} {i : ℕ}
    (h : s.calls[i]? = none) : s.step env email (.resume i) = s := by
  simp only [step, h]

/-! ## A call on its own

A call that runs to its end with no other in between does what `authenticate` does, as one unit of
work. -/

/-- What the calls for `email` see of the server. -/
def LoginStore.ofServer (env : AuthEnv) (email : String) (s : AuthServer) : LoginStore :=
  ⟨s.now, s.throttle, s.findByEmail (env.text.lower (env.text.lower email)), s.db.audit, none⟩

/-- The call runs on its own, to its end. -/
def LoginSystem.alone (env : AuthEnv) (email : String) (store : LoginStore) (call : LoginCall) :
    LoginSystem :=
  (List.replicate 7 (LoginStep.resume 0)).foldl (LoginSystem.step env email) ⟨store, [call]⟩

/-- What a call that has ended has returned or raised. -/
def LoginPhase.result : LoginPhase → Option (Except AuthFailure AuthReply)
  | done pair => some (.ok (.pair pair))
  | raised failure => some (.error failure)
  | _ => none

/-- The calls have left what a request has, and ended as it has. -/
structure LoginSystem.Agrees (system : LoginSystem)
    (result : Except AuthFailure AuthReply × AuthServer) : Prop where
  throttle : system.store.throttle = result.2.throttle
  audit : system.store.audit = result.2.db.audit
  row : ∀ id user, system.store.row = some (id, user) → result.2.db.users.get? id = some user
  reply : system.calls.map (fun call => call.phase.result) = [some result.1]

/-- A row that was not changed in between is written as the call has it. -/
theorem UserRecord.write_self {loaded user : UserRecord} {hash : String} {counter : Option ℤ}
    (h : user = { loaded with passwordHash := hash, totpLastCounter := counter }) :
    loaded.write user loaded = user := by
  subst h
  have hhash : (if hash = loaded.passwordHash then loaded.passwordHash else hash) = hash := by
    split
    · next heq => exact heq.symm
    · rfl
  have hcounter : (if counter = loaded.totpLastCounter then loaded.totpLastCounter else counter)
      = counter := by
    split
    · next heq => exact heq.symm
    · rfl
  simp only [UserRecord.write, hhash, hcounter]

section Alone

-- What running the handler to its end unfolds, and what running the call does.
attribute [local simp] AuthService.serve AuthService.handle AuthService.authenticate
  AuthService.recordAudit AuthService.commitSecurityEvent AuthServer.setUser AuthServer.setThrottle
  bind Act.bind pure Act.pure Act.read Act.modify Act.raise
attribute [local simp] LoginSystem.alone List.replicate LoginStore.proceed LoginStore.ofServer
  LoginCall.issue

variable {env : AuthEnv} {email password : String} {totpCode ip : Option String} {draws : Draws}
  {s : AuthServer} {throttle : LoginThrottle}

@[local simp] theorem LoginSystem.step_alone (env : AuthEnv) (email : String) (store : LoginStore)
    (call : LoginCall) :
    LoginSystem.step env email ⟨store, [call]⟩ (.resume 0) =
      ⟨(store.proceed env email 0 call).1, [(store.proceed env email 0 call).2]⟩ := rfl

theorem alone_locked
    (hlocked : s.throttle.isLocked env.text (env.text.lower email) s.now = (true, throttle)) :
    (LoginSystem.alone env email (.ofServer env email s) { password, totpCode, ip, draws }).Agrees
      (AuthService.serve env draws (.login email password totpCode ip) s) := by
  have halone : LoginSystem.alone env email (.ofServer env email s)
        { password, totpCode, ip, draws } =
      ⟨{ LoginStore.ofServer env email s with
          throttle
          audit := s.db.audit ++ [⟨.lockedOut, none, ip⟩] },
        [{ password, totpCode, ip, draws
           phase := .raised (.accountLocked
            (throttle.retryAfter env.text (env.text.lower email) s.now)) }]⟩ := by
    simp [hlocked]
  have hserve : AuthService.serve env draws (.login email password totpCode ip) s =
      (.error (.accountLocked (throttle.retryAfter env.text (env.text.lower email) s.now)),
        { s with
          throttle
          db := ⟨s.db.users, s.db.audit ++ [⟨.lockedOut, none, ip⟩]⟩
          committed := ⟨s.db.users, s.db.audit ++ [⟨.lockedOut, none, ip⟩]⟩ }) := by
    simp [hlocked]
  rw [halone, hserve]
  exact ⟨rfl, rfl, fun id user hrow => AuthService.get?_of_findByEmail hrow, rfl⟩

theorem alone_rejected {failure : AuthFailure} {action : AuthAction} {userId : Option String}
    (hlocked : s.throttle.isLocked env.text (env.text.lower email) s.now = (false, throttle))
    (hcheck : checkCredentials env (s.findByEmail (env.text.lower (env.text.lower email))) password
      totpCode s.now = .rejected failure action userId) :
    (LoginSystem.alone env email (.ofServer env email s) { password, totpCode, ip, draws }).Agrees
      (AuthService.serve env draws (.login email password totpCode ip) s) := by
  have halone : LoginSystem.alone env email (.ofServer env email s)
        { password, totpCode, ip, draws } =
      ⟨{ LoginStore.ofServer env email s with
          throttle := throttle.recordFailure env.text (env.text.lower email) s.now
          audit := s.db.audit ++ [⟨action, userId, ip⟩] },
        [{ password, totpCode, ip, draws, phase := .raised failure, checkedAt := some s.now
           rejectedAt := some s.now }]⟩ := by
    rw [LoginThrottle.recordFailure_eq]
    -- Redis takes one more step if the failure puts the lock on.
    cases hcount : throttle.countFailure env.text (env.text.lower email) s.now with
    | mk full counted =>
      cases full with
      | false => simp [hlocked, hcheck, hcount]
      | true => simp [hlocked, hcheck, hcount]
  have hserve : AuthService.serve env draws (.login email password totpCode ip) s =
      (.error failure,
        { s with
          throttle := throttle.recordFailure env.text (env.text.lower email) s.now
          db := ⟨s.db.users, s.db.audit ++ [⟨action, userId, ip⟩]⟩
          committed := ⟨s.db.users, s.db.audit ++ [⟨action, userId, ip⟩]⟩ }) := by
    simp [hlocked, hcheck]
  rw [halone, hserve]
  exact ⟨rfl, rfl, fun id user hrow => AuthService.get?_of_findByEmail hrow, rfl⟩

theorem alone_raised {failure : AuthFailure} (hclean : s.committed = s.db)
    (hlocked : s.throttle.isLocked env.text (env.text.lower email) s.now = (false, throttle))
    (hcheck : checkCredentials env (s.findByEmail (env.text.lower (env.text.lower email))) password
      totpCode s.now = .raised failure) :
    (LoginSystem.alone env email (.ofServer env email s) { password, totpCode, ip, draws }).Agrees
      (AuthService.serve env draws (.login email password totpCode ip) s) := by
  have halone : LoginSystem.alone env email (.ofServer env email s)
        { password, totpCode, ip, draws } =
      ⟨{ LoginStore.ofServer env email s with throttle },
        [{ password, totpCode, ip, draws, phase := .raised failure
           checkedAt := some s.now }]⟩ := by
    simp [hlocked, hcheck]
  have hserve : AuthService.serve env draws (.login email password totpCode ip) s =
      (.error failure, { s with throttle }) := by
    simp [hlocked, hcheck, hclean]
  rw [halone, hserve]
  exact ⟨rfl, rfl, fun id user hrow => AuthService.get?_of_findByEmail hrow, rfl⟩

/-- The row of a login that is accepted differs from the one read in two columns at most. -/
theorem rehashed_columns {id : String} {loaded accepted : UserRecord} {now : ℚ}
    (h : checkCredentials env (some (id, loaded)) password totpCode now = .accepted id accepted) :
    ∃ hash counter, accepted.rehashed env draws password =
      { loaded with passwordHash := hash, totpLastCounter := counter } := by
  have hcounter : ∃ counter, accepted = { loaded with totpLastCounter := counter } := by
    rcases accepted_cases h with ⟨-, rfl⟩ | ⟨-, hconsumed⟩
    · exact ⟨accepted.totpLastCounter, rfl⟩
    · obtain ⟨-, counter, -, -, -, rfl⟩ := consumeTotp_eq_ok hconsumed
      exact ⟨some counter, rfl⟩
  obtain ⟨counter, rfl⟩ := hcounter
  unfold UserRecord.rehashed
  split
  · exact ⟨_, counter, rfl⟩
  · exact ⟨loaded.passwordHash, counter, rfl⟩

theorem alone_accepted {id : String} {loaded accepted : UserRecord}
    (hlocked : s.throttle.isLocked env.text (env.text.lower email) s.now = (false, throttle))
    (hfound : s.findByEmail (env.text.lower (env.text.lower email)) = some (id, loaded))
    (hcheck : checkCredentials env (some (id, loaded)) password totpCode s.now
      = .accepted id accepted) :
    (LoginSystem.alone env email (.ofServer env email s) { password, totpCode, ip, draws }).Agrees
      (AuthService.serve env draws (.login email password totpCode ip) s) := by
  have halone : LoginSystem.alone env email (.ofServer env email s)
        { password, totpCode, ip, draws } =
      ⟨{ LoginStore.ofServer env email s with
          throttle := throttle.recordSuccess env.text (env.text.lower email)
          row := some (id, loaded.write (accepted.rehashed env draws password) loaded)
          audit := s.db.audit ++ [⟨.login, some id, ip⟩] },
        [{ password, totpCode, ip, draws
           phase := .done (env.tokens.issuePair id (accepted.rehashed env draws password).role
             (accepted.rehashed env draws password).tokenGeneration draws.accessJti
             draws.refreshJti s.now)
           checkedAt := some s.now }]⟩ := by
    -- The row is flushed if a column has changed; the call holds it until it commits.
    have hwrite : ∀ user : UserRecord, user = loaded ∨ user ≠ loaded := fun _ => em _
    by_cases hrehash : env.needsRehash accepted.passwordHash = true
    · simp only [UserRecord.rehashed, if_pos hrehash]
      rcases hwrite { accepted with passwordHash := env.hash draws.salt password } with rfl | hne
      · simp [hlocked, hfound, hcheck, hrehash]
      · simp [hlocked, hfound, hcheck, hrehash, hne]
    · simp only [UserRecord.rehashed, if_neg hrehash]
      rcases hwrite accepted with rfl | hne
      · simp [hlocked, hfound, hcheck, hrehash]
      · simp [hlocked, hfound, hcheck, hrehash, hne]
  have hserve : AuthService.serve env draws (.login email password totpCode ip) s =
      (.ok (.pair (env.tokens.issuePair id (accepted.rehashed env draws password).role
          (accepted.rehashed env draws password).tokenGeneration draws.accessJti draws.refreshJti
          s.now)),
        { s with
          throttle := throttle.recordSuccess env.text (env.text.lower email)
          db := ⟨s.db.users.set id (accepted.rehashed env draws password),
            s.db.audit ++ [⟨.login, some id, ip⟩]⟩
          committed := ⟨s.db.users.set id (accepted.rehashed env draws password),
            s.db.audit ++ [⟨.login, some id, ip⟩]⟩ }) := by
    simp [AuthService.logIn, hlocked, hfound, hcheck, UserRecord.rehashed]
  obtain ⟨hash, counter, hcolumns⟩ := @rehashed_columns env password totpCode draws _ _ _ _ hcheck
  rw [halone, hserve]
  refine ⟨rfl, rfl, fun id' user hrow => ?_, rfl⟩
  obtain ⟨rfl, rfl⟩ := Prod.mk.inj (Option.some.inj hrow)
  rw [UserRecord.write_self hcolumns]
  exact Dict.get?_set_self _ _ _

/-- A call that runs on its own ends as `authenticate` does, and leaves the same throttle, audit log
    and row. -/
theorem alone_agrees (hclean : s.committed = s.db) :
    (LoginSystem.alone env email (.ofServer env email s) { password, totpCode, ip, draws }).Agrees
      (AuthService.serve env draws (.login email password totpCode ip) s) := by
  cases hlocked : s.throttle.isLocked env.text (env.text.lower email) s.now with
  | mk locked throttle =>
    cases locked with
    | true => exact alone_locked hlocked
    | false =>
      cases hcheck : checkCredentials env
          (s.findByEmail (env.text.lower (env.text.lower email))) password totpCode s.now with
      | rejected failure action userId => exact alone_rejected hlocked hcheck
      | raised failure => exact alone_raised hclean hlocked hcheck
      | accepted id accepted =>
        obtain ⟨loaded, hfound⟩ := AuthService.found_of_accepted hcheck
        rw [hfound] at hcheck
        exact alone_accepted hlocked hfound hcheck

end Alone

end TradingHub
