import TradingHub.Services.Sessions

set_option autoImplicit false

/-! # The second factor over a run of requests

Enrolment, confirmation, login and disabling share three fields of the user's row: whether the
second factor is on, the stored secret, and the last time step accepted. Here the fields are tied to
the history. The last step is the newest one accepted since the factor was last disabled, and the
steps accepted since then are strictly increasing; a factor that is on has a secret, which only a
code of a later step can remove. -/

namespace TradingHub

open Library

/-! ## Accepted steps -/

/-- The time step that a code matches, of the stored secret of the user. -/
def AuthEnv.stepOf (env : AuthEnv) (user : UserRecord) (code : String) (now : ℚ) : Option ℤ :=
  match env.decrypt (user.totpSecretEnc.getD "") with
  | none => none
  | some secret =>
    match env.totp.verifyCounter secret code now with
    | .ok step => step
    | .error _ => none

namespace Served

/-- The code that the request presented for the user, if it was accepted. A login asks for a code
    only if the second factor is on. -/
def acceptedCode (userId : String) (e : Served) : Option String :=
  match e.request, e.reply with
  | .confirm id code, .ok _ => if id = userId then some code else none
  | .disable id code, .ok _ => if id = userId then some code else none
  | .login _ _ totpCode _, .ok (.pair pair) =>
    if pair.refresh.subject = userId ∧
        (e.before.db.users.get? userId).any fun user => user.totpEnabled then
      some (totpCode.getD "")
    else none
  | _, _ => none

/-- The time step that the request was accepted for. -/
def acceptedStep (env : AuthEnv) (userId : String) (e : Served) : Option ℤ :=
  match e.acceptedCode userId, e.before.db.users.get? userId with
  | some code, some user => env.stepOf user code e.before.now
  | _, _ => none

/-- The request disabled the second factor of the user. -/
def disables (userId : String) (e : Served) : Bool :=
  match e.request, e.reply with
  | .disable id _, .ok _ => id = userId
  | _, _ => false

theorem acceptedStep_of_code {env : AuthEnv} {userId code : String} {e : Served} {user : UserRecord}
    (hcode : e.acceptedCode userId = some code)
    (hget : e.before.db.users.get? userId = some user) :
    e.acceptedStep env userId = env.stepOf user code e.before.now := by
  rw [acceptedStep, hcode, hget]

theorem disables_of_request {userId code : String} {e : Served}
    (hrequest : e.request = .disable userId code) (hreply : e.reply = .ok .done) :
    e.disables userId = true := by
  simp [disables, hrequest, hreply]

theorem acceptedCode_of_disable {userId code : String} {e : Served}
    (hrequest : e.request = .disable userId code) (hreply : e.reply = .ok .done) :
    e.acceptedCode userId = some code := by
  simp [acceptedCode, hrequest, hreply]

theorem acceptedStep_of_no_code {env : AuthEnv} {userId : String} {e : Served}
    (hcode : e.acceptedCode userId = none) : e.acceptedStep env userId = none := by
  rw [acceptedStep, hcode]

end Served

/-- The requests since the second factor of the user was last disabled. -/
def sinceDisable (userId : String) (past : List Served) : List Served :=
  past.takeWhile fun e => !e.disables userId

/-- The steps accepted since then, the last one first. -/
def acceptedSince (env : AuthEnv) (userId : String) (past : List Served) : List ℤ :=
  (sinceDisable userId past).filterMap (Served.acceptedStep env userId)

theorem filterMap_acceptedStep_cons (env : AuthEnv) (userId : String) (e : Served)
    (past : List Served) :
    (e :: past).filterMap (Served.acceptedStep env userId) =
      (e.acceptedStep env userId).toList ++ past.filterMap (Served.acceptedStep env userId) := by
  rw [List.filterMap_cons]
  cases e.acceptedStep env userId with
  | none => rfl
  | some step => rfl

theorem acceptedSince_cons {env : AuthEnv} {userId : String} {e : Served} {past : List Served}
    (h : e.disables userId = false) :
    acceptedSince env userId (e :: past) =
      (e.acceptedStep env userId).toList ++ acceptedSince env userId past := by
  simp only [acceptedSince, sinceDisable, List.takeWhile_cons, h, Bool.not_false, if_true,
    filterMap_acceptedStep_cons]

theorem acceptedSince_disable {env : AuthEnv} {userId : String} {e : Served} {past : List Served}
    (h : e.disables userId = true) : acceptedSince env userId (e :: past) = [] := by
  simp [acceptedSince, sinceDisable, h]

/-! ## What a request does to the second factor -/

/-- What a request can do to the row of the user, as far as the second factor is concerned. -/
inductive FactorEffect (env : AuthEnv) (userId : String) (e : Served) :
    Option UserRecord → Option UserRecord → Prop
  | absent (hcode : e.acceptedCode userId = none) (hstays : e.disables userId = false) :
      FactorEffect env userId e none none
  | registered {row : UserRecord} (hcode : e.acceptedCode userId = none)
      (hstays : e.disables userId = false) (henabled : row.totpEnabled = false)
      (hcounter : row.totpLastCounter = none) :
      FactorEffect env userId e none (some row)
  /-- No code is accepted, and a secret in use stays. -/
  | quiet {row row' : UserRecord} (hcode : e.acceptedCode userId = none)
      (hstays : e.disables userId = false) (henabled : row'.totpEnabled = row.totpEnabled)
      (hcounter : row'.totpLastCounter = row.totpLastCounter)
      (hsecret : row.totpEnabled = true → row'.totpSecretEnc = row.totpSecretEnc) :
      FactorEffect env userId e (some row) (some row')
  /-- A code is accepted, of a confirmation or of a login with the second factor on. -/
  | used {row row' : UserRecord} {code : String} {step : ℤ}
      (hcode : e.acceptedCode userId = some code) (hstays : e.disables userId = false)
      (hstep : env.stepOf row code e.before.now = some step)
      (hfresh : ∀ last, row.totpLastCounter = some last → last < step)
      (hstored : row.totpEnabled = true ∨ row.totpSecretEnc.getD "" ≠ "")
      (henabled : row'.totpEnabled = true) (hcounter : row'.totpLastCounter = some step)
      (hsecret : row'.totpSecretEnc = row.totpSecretEnc) :
      FactorEffect env userId e (some row) (some row')
  | disabled {row row' : UserRecord} {code : String} {step : ℤ}
      (hrequest : e.request = .disable userId code) (hreply : e.reply = .ok .done)
      (hstep : env.stepOf row code e.before.now = some step)
      (hfresh : ∀ last, row.totpLastCounter = some last → last < step)
      (henabled : row'.totpEnabled = false) (hcounter : row'.totpLastCounter = none) :
      FactorEffect env userId e (some row) (some row')

/-- A code that was used matched a step later than the last one. -/
theorem stepOf_of_consumeTotp {env : AuthEnv} {user consumed : UserRecord} {code : String} {now : ℚ}
    (h : consumeTotp env user code now = .ok consumed) :
    ∃ step, env.stepOf user code now = some step ∧
      (∀ last, user.totpLastCounter = some last → last < step) ∧
      consumed = { user with totpLastCounter := some step } := by
  obtain ⟨secret, step, hsecret, hstep, hfresh, hconsumed⟩ := consumeTotp_eq_ok h
  refine ⟨step, ?_, hfresh, hconsumed⟩
  simp only [AuthEnv.stepOf, hsecret, hstep]

/-- A request that leaves the row alone and accepts no code. -/
theorem FactorEffect.unchanged {env : AuthEnv} {userId : String} {e : Served}
    (hcode : e.acceptedCode userId = none) (hstays : e.disables userId = false)
    (row : Option UserRecord) : FactorEffect env userId e row row := by
  cases row with
  | none => exact .absent hcode hstays
  | some row => exact .quiet hcode hstays rfl rfl fun _ => rfl

/-- The same when the row of another user is written. -/
theorem FactorEffect.other {env : AuthEnv} {userId id : String} {e : Served} {row : UserRecord}
    (hcode : e.acceptedCode userId = none) (hstays : e.disables userId = false)
    (hid : userId ≠ id) (users : Dict String UserRecord) :
    FactorEffect env userId e (users.get? userId) ((users.set id row).get? userId) := by
  rw [Dict.get?_set_of_ne _ _ hid]
  exact .unchanged hcode hstays _

section Rehashed

variable (env : AuthEnv) (draws : Draws) (password : String) (user : UserRecord)

end Rehashed

/-- The row of a user and the steps accepted since the second factor was disabled, the last one
    first. -/
structure FactorState (row : Option UserRecord) (steps : List ℤ) : Prop where
  increasing : steps.Pairwise (· > ·)
  absent : row = none → steps = []
  counter : ∀ user, row = some user → user.totpLastCounter = steps.head?
  off : ∀ user, row = some user → user.totpEnabled = false → steps = []
  stored : ∀ user, row = some user → user.totpEnabled = true → user.totpSecretEnc.getD "" ≠ ""

namespace FactorState

variable {env : AuthEnv} {userId : String} {e : Served} {past : List Served}
  {row row' : Option UserRecord} {steps : List ℤ}

/-- Without a user, or with one whose second factor was never on. -/
theorem fresh (h : ∀ user, row = some user →
    user.totpEnabled = false ∧ user.totpLastCounter = none) : FactorState row [] where
  increasing := List.Pairwise.nil
  absent _ := rfl
  counter user hrow := (h user hrow).2
  off _ _ _ := rfl
  stored user hrow hon := absurd ((h user hrow).1.symm.trans hon) (by simp)

/-- A step later than the last one is later than all. -/
theorem lt_step (h : FactorState row steps) {user : UserRecord} (hrow : row = some user) {step : ℤ}
    (hfresh : ∀ last, user.totpLastCounter = some last → last < step) : ∀ n ∈ steps, n < step := by
  have hcounter := h.counter user hrow
  have hincreasing := h.increasing
  cases steps with
  | nil => intro n hn; exact absurd hn (by simp)
  | cons last rest =>
    have hlast : last < step := hfresh last hcounter
    intro n hn
    rcases List.mem_cons.1 hn with rfl | hn
    · exact hlast
    · exact (List.rel_of_pairwise_cons hincreasing hn).trans hlast

/-- The steps accepted up to a request, its own included. -/
theorem increasing_cons (h : FactorState row steps) (heffect : FactorEffect env userId e row row')
    (hrow : e.before.db.users.get? userId = row) :
    ((e.acceptedStep env userId).toList ++ steps).Pairwise (· > ·) := by
  cases heffect with
  | absent hcode _ => simpa [Served.acceptedStep_of_no_code hcode] using h.increasing
  | registered hcode _ _ _ => simpa [Served.acceptedStep_of_no_code hcode] using h.increasing
  | quiet hcode _ _ _ _ => simpa [Served.acceptedStep_of_no_code hcode] using h.increasing
  | used hcode _ hstep hfresh _ _ _ _ =>
    rw [Served.acceptedStep_of_code hcode hrow, hstep]
    exact List.Pairwise.cons (h.lt_step rfl hfresh) h.increasing
  | disabled hrequest hreply hstep hfresh _ _ =>
    have hcode := Served.acceptedCode_of_disable hrequest hreply
    rw [Served.acceptedStep_of_code hcode hrow, hstep]
    exact List.Pairwise.cons (h.lt_step rfl hfresh) h.increasing

/-- A second factor that is on stays on with its secret, or is disabled with a later step. -/
theorem kept {user : UserRecord} (h : FactorState (some user) steps)
    (heffect : FactorEffect env userId e (some user) row') (hon : user.totpEnabled = true) :
    ∃ user', row' = some user' ∧
      ((user'.totpEnabled = true ∧ user'.totpSecretEnc = user.totpSecretEnc) ∨
        ∃ code step, e.request = .disable userId code ∧ e.reply = .ok .done ∧
          env.stepOf user code e.before.now = some step ∧ ∀ n ∈ steps, n < step) := by
  cases heffect with
  | quiet _ _ henabled _ hsecret => exact ⟨_, rfl, .inl ⟨henabled.trans hon, hsecret hon⟩⟩
  | used _ _ _ _ _ henabled _ hsecret => exact ⟨_, rfl, .inl ⟨henabled, hsecret⟩⟩
  | disabled hrequest hreply hstep hfresh _ _ =>
    exact ⟨_, rfl, .inr ⟨_, _, hrequest, hreply, hstep, h.lt_step rfl hfresh⟩⟩

/-- What one request keeps. -/
theorem step (h : FactorState row (acceptedSince env userId past))
    (heffect : FactorEffect env userId e row row')
    (hrow : e.before.db.users.get? userId = row) :
    FactorState row' (acceptedSince env userId (e :: past)) := by
  have hincreasing := h.increasing_cons heffect hrow
  cases heffect with
  | absent hcode hstays =>
    rw [acceptedSince_cons hstays, Served.acceptedStep_of_no_code hcode]
    exact h
  | registered hcode hstays henabled hcounter =>
    rw [acceptedSince_cons hstays, Served.acceptedStep_of_no_code hcode, h.absent rfl]
    refine .fresh fun user huser => ?_
    obtain rfl := Option.some.inj huser
    exact ⟨henabled, hcounter⟩
  | quiet hcode hstays henabled hcounter hsecret =>
    rw [acceptedSince_cons hstays, Served.acceptedStep_of_no_code hcode]
    refine ⟨h.increasing, by simp, fun user huser => ?_, fun user huser hoff => ?_,
      fun user huser hon => ?_⟩
    · obtain rfl := Option.some.inj huser
      exact hcounter.trans (h.counter _ rfl)
    · obtain rfl := Option.some.inj huser
      exact h.off _ rfl (henabled.symm.trans hoff)
    · obtain rfl := Option.some.inj huser
      rw [hsecret (henabled.symm.trans hon)]
      exact h.stored _ rfl (henabled.symm.trans hon)
  | used hcode hstays hstep hfresh hstored henabled hcounter hsecret =>
    rw [acceptedSince_cons hstays, Served.acceptedStep_of_code hcode hrow, hstep]
    rw [Served.acceptedStep_of_code hcode hrow, hstep] at hincreasing
    refine ⟨hincreasing, by simp, fun user huser => ?_, fun user huser hoff => ?_,
      fun user huser _ => ?_⟩
    · obtain rfl := Option.some.inj huser
      exact hcounter
    · obtain rfl := Option.some.inj huser
      exact absurd (henabled.symm.trans hoff) (by simp)
    · obtain rfl := Option.some.inj huser
      rw [hsecret]
      exact hstored.elim (h.stored _ rfl) id
  | disabled hrequest hreply hstep hfresh henabled hcounter =>
    rw [acceptedSince_disable (Served.disables_of_request hrequest hreply)]
    refine .fresh fun user huser => ?_
    obtain rfl := Option.some.inj huser
    exact ⟨henabled, hcounter⟩

end FactorState

end TradingHub
