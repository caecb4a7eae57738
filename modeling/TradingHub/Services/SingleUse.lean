import TradingHub.Services.Logins
import TradingHub.Services.SecondFactor

set_option autoImplicit false

/-! # One code and several logins

Any number of concurrent logins that present the same time-based code. The step that a code burns is
compared with the row as it was read and is written back at the commit. Calls that read the row one
after the other, each after the commit of the one before, use a code once; calls that read it
together use it as often as they are. -/

namespace TradingHub

open Library

/-! ## How far a call is with its code -/

/-- A call before it has read the row, or that has been refused; one that has read the row; one
    whose code was accepted, with the last step it read and the one it will write; and one that has
    committed. -/
inductive CodeUse
  | idle
  | reading (found : Option (String × UserRecord))
  | accepted (loaded written : Option ℤ)
  | committed
deriving DecidableEq

def LoginPhase.codeUse : LoginPhase → CodeUse
  | verifying found => .reading found
  | clearing _ loaded user => .accepted loaded.totpLastCounter user.totpLastCounter
  | hashing _ loaded user => .accepted loaded.totpLastCounter user.totpLastCounter
  | logging _ loaded user => .accepted loaded.totpLastCounter user.totpLastCounter
  | returned _ loaded user _ => .accepted loaded.totpLastCounter user.totpLastCounter
  | done _ => .committed
  | _ => .idle

/-- The call has read the row, and may yet be accepted or has not committed. -/
def CodeUse.underWay : CodeUse → Bool
  | reading _ => true
  | accepted _ _ => true
  | _ => false

/-- The code was accepted. -/
def CodeUse.spent : CodeUse → Bool
  | accepted _ _ => true
  | committed => true
  | _ => false

/-- `authenticate` has returned a token pair. -/
def LoginPhase.hasReturned : LoginPhase → Bool
  | returned _ _ _ _ => true
  | done _ => true
  | _ => false

theorem LoginPhase.spent_of_hasReturned {phase : LoginPhase} (h : phase.hasReturned = true) :
    phase.codeUse.spent = true := by
  cases phase with
  | returned id loaded user pair => rfl
  | done pair => rfl
  | _ => exact absurd h (by simp [hasReturned])

/-- What a step of a call does to its use of the code and to the row. -/
inductive UseStep (env : AuthEnv) (s : LoginStore) (call : LoginCall) :
    LoginStore → LoginCall → Prop
  | same {s' : LoginStore} {call' : LoginCall} (hrow : s'.row = s.row)
      (huse : call'.phase.codeUse = call.phase.codeUse) : UseStep env s call s' call'
  | read {call' : LoginCall} (hphase : call.phase = .loading)
      (huse : call'.phase.codeUse = .reading s.row) : UseStep env s call s call'
  | refused {call' : LoginCall} {found : Option (String × UserRecord)}
      (hphase : call.phase.codeUse = .reading found) (huse : call'.phase.codeUse = .idle) :
      UseStep env s call s call'
  | accepted {call' : LoginCall} {id : String} {loaded user : UserRecord}
      (hphase : call.phase.codeUse = .reading (some (id, loaded)))
      (haccepted : checkCredentials env (some (id, loaded)) call.password call.totpCode s.now
        = .accepted id user)
      (huse : call'.phase.codeUse = .accepted loaded.totpLastCounter user.totpLastCounter) :
      UseStep env s call s call'
  | committed {s' : LoginStore} {call' : LoginCall} {loaded user : UserRecord}
      (hphase : call.phase.codeUse = .accepted loaded.totpLastCounter user.totpLastCounter)
      (hrow : s'.row = s.row.map fun (id, current) => (id, loaded.write user current))
      (huse : call'.phase.codeUse = .committed) : UseStep env s call s' call'

theorem LoginStore.proceed_use (env : AuthEnv) (email : String) (i : ℕ) (s : LoginStore)
    (call : LoginCall) :
    UseStep env s call (s.proceed env email i call).1 (s.proceed env email i call).2 := by
  obtain ⟨password, totpCode, ip, draws, phase, checkedAt, rejectedAt⟩ := call
  cases phase with
  | checking =>
    simp only [proceed]
    split
    · exact .same rfl rfl
    · exact .same rfl rfl
  | loading => exact .read rfl rfl
  | verifying found =>
    simp only [proceed]
    split
    · exact .refused rfl rfl
    · exact .refused rfl rfl
    · next id user haccepted =>
      obtain ⟨loaded, rfl⟩ := AuthService.found_of_accepted haccepted
      exact .accepted rfl haccepted rfl
  | recording failure entry =>
    simp only [proceed]
    split
    · exact .same rfl rfl
    · exact .same rfl rfl
  | locking failure entry => exact .same rfl rfl
  | auditing failure entry => exact .same rfl rfl
  | committing failure entry =>
    cases failure with
    | none => exact .same rfl rfl
    | some failure => exact .same rfl rfl
  | hinting => exact .same rfl rfl
  | clearing id loaded user =>
    refine .same rfl ?_
    simp only [proceed]
    split
    · rfl
    · rfl
  | hashing id loaded user => exact .same rfl rfl
  | logging id loaded user =>
    simp only [proceed]
    split
    · exact .same rfl rfl
    · split
      · exact .same rfl rfl
      · exact .same rfl rfl
  | returned id loaded user pair => exact .committed rfl rfl rfl
  | done pair => exact .same rfl rfl
  | raised failure => exact .same rfl rfl

/-- The credentials of a call stay. -/
theorem LoginStore.proceed_totpCode (env : AuthEnv) (email : String) (i : ℕ) (s : LoginStore)
    (call : LoginCall) : (s.proceed env email i call).2.totpCode = call.totpCode := by
  obtain ⟨password, totpCode, ip, draws, phase, checkedAt, rejectedAt⟩ := call
  cases phase with
  | checking => simp only [proceed]; split <;> rfl
  | verifying found => simp only [proceed]; split <;> rfl
  | recording failure entry => simp only [proceed]; split <;> rfl
  | logging id loaded user =>
    simp only [proceed]
    split
    · rfl
    · split <;> rfl
  | _ => rfl

/-! ## What the calls keep when they read the row in turn -/

/-- In the drift window around `now` the code is that of no time step but `n`, of the stored secret
    of the user. -/
def CodeOfOneStep (env : AuthEnv) (user : UserRecord) (code : String) (n : ℤ) (now : ℚ) : Prop :=
  ∀ secret ∈ env.decrypt (user.totpSecretEnc.getD ""), ∀ moment ∈ env.totp.drift now,
    env.totp.codeAt secret moment = .ok (PyString.strip code) → moment / env.totp.interval = n

instance (env : AuthEnv) (user : UserRecord) (code : String) (n : ℤ) (now : ℚ) :
    Decidable (CodeOfOneStep env user code n now) :=
  inferInstanceAs (Decidable (∀ _ ∈ _, _))

theorem CodeOfOneStep.stepOf_eq {env : AuthEnv} {user : UserRecord} {code : String} {n step : ℤ}
    {now : ℚ} (h : CodeOfOneStep env user code n now) (hstep : env.stepOf user code now = some step) :
    step = n := by
  unfold AuthEnv.stepOf at hstep
  split at hstep
  · exact absurd hstep (by simp)
  · next secret hsecret =>
    split at hstep
    · next matched hmatched =>
      obtain ⟨moment, hmem, hcode, rfl⟩ := TotpService.verifyCounter_eq_some (hstep ▸ hmatched)
      exact h secret hsecret moment hmem hcode
    · exact absurd hstep (by simp)

/-- The row of the email and the uses of the code by the calls: at most one call is under way, on
    the row as it is, at most one was accepted, and what it has committed is in the row. -/
structure UsedOnce (n : ℤ) (row : String × UserRecord) (use : ℕ → Option CodeUse) : Prop where
  sole : ∀ i j u v, use i = some u → use j = some v → u.underWay = true → v.underWay = true → i = j
  current : ∀ i found, use i = some (.reading found) → found = some row
  written : ∀ i a b, use i = some (.accepted a b) → b = some n ∧ a ≠ some n
  unique : ∀ i j u v, use i = some u → use j = some v → u.spent = true → v.spent = true → i = j
  burnt : ∀ i, use i = some .committed → ∃ last, row.2.totpLastCounter = some last ∧ n ≤ last

namespace UsedOnce

variable {env : AuthEnv} {n : ℤ} {row : String × UserRecord} {use : ℕ → Option CodeUse}

theorem none (n : ℤ) (row : String × UserRecord) : UsedOnce n row fun _ => Option.none where
  sole _ _ _ _ hi := absurd hi (by simp)
  current _ _ hi := absurd hi (by simp)
  written _ _ _ hi := absurd hi (by simp)
  unique _ _ _ _ hi := absurd hi (by simp)
  burnt _ hi := absurd hi (by simp)

/-- The use of the call `i` becomes `u`. -/
theorem eq_or_eq_of_update {i j : ℕ} {u v : CodeUse}
    (h : Function.update use i (some u) j = some v) :
    (j = i ∧ v = u) ∨ (j ≠ i ∧ use j = some v) := by
  by_cases hj : j = i
  · subst hj
    rw [Function.update_self] at h
    exact .inl ⟨rfl, (Option.some.inj h).symm⟩
  · rw [Function.update_of_ne hj] at h
    exact .inr ⟨hj, h⟩

/-- The use of one call changes, and the row as it is written: what is left to show of the call. -/
theorem update (h : UsedOnce n row use) {i : ℕ} {u : CodeUse} {row' : String × UserRecord}
    (hsole : u.underWay = true → ∀ j v, j ≠ i → use j = some v → v.underWay = false)
    (hcurrent : ∀ found, u = .reading found → found = some row')
    (hwritten : ∀ a b, u = .accepted a b → b = some n ∧ a ≠ some n)
    (hunique : u.spent = true → ∀ j v, j ≠ i → use j = some v → v.spent = false)
    (hrow : (row' = row ∧ u ≠ .committed) ∨ (row'.2.totpLastCounter = some n ∧
      ∀ j found, j ≠ i → use j ≠ some (.reading found))) :
    UsedOnce n row' (Function.update use i (some u)) := by
  refine ⟨fun j k v w hj hk hv hw => ?_, fun j found hj => ?_, fun j a b hj => ?_,
    fun j k v w hj hk hv hw => ?_, fun j hj => ?_⟩
  · rcases eq_or_eq_of_update hj with ⟨rfl, rfl⟩ | ⟨hji, hj'⟩
    · rcases eq_or_eq_of_update hk with ⟨rfl, -⟩ | ⟨hki, hk⟩
      · rfl
      · exact absurd (hsole hv k w hki hk) (by simp [hw])
    · rcases eq_or_eq_of_update hk with ⟨-, rfl⟩ | ⟨-, hk⟩
      · exact absurd (hsole hw j v hji hj') (by simp [hv])
      · exact h.sole j k v w hj' hk hv hw
  · rcases eq_or_eq_of_update hj with ⟨-, hu⟩ | ⟨hji, hj⟩
    · exact hcurrent found hu.symm
    · rcases hrow with ⟨rfl, -⟩ | ⟨-, hnone⟩
      · exact h.current j found hj
      · exact absurd hj (hnone j found hji)
  · rcases eq_or_eq_of_update hj with ⟨-, hu⟩ | ⟨-, hj⟩
    · exact hwritten a b hu.symm
    · exact h.written j a b hj
  · rcases eq_or_eq_of_update hj with ⟨rfl, rfl⟩ | ⟨hji, hj'⟩
    · rcases eq_or_eq_of_update hk with ⟨rfl, -⟩ | ⟨hki, hk⟩
      · rfl
      · exact absurd (hunique hv k w hki hk) (by simp [hw])
    · rcases eq_or_eq_of_update hk with ⟨-, rfl⟩ | ⟨-, hk⟩
      · exact absurd (hunique hw j v hji hj') (by simp [hv])
      · exact h.unique j k v w hj' hk hv hw
  · rcases hrow with ⟨rfl, hcommitted⟩ | ⟨hcounter, -⟩
    · rcases eq_or_eq_of_update hj with ⟨-, hu⟩ | ⟨-, hj⟩
      · exact absurd hu.symm hcommitted
      · exact h.burnt j hj
    · exact ⟨n, hcounter, le_rfl⟩

/-- A call that has not read the row, or is refused. -/
theorem idle (h : UsedOnce n row use) (i : ℕ) :
    UsedOnce n row (Function.update use i (some .idle)) := by
  refine h.update ?_ (by simp) (by simp) ?_ (.inl ⟨rfl, by simp⟩)
  · intro hunder
    exact absurd hunder (by simp [CodeUse.underWay])
  · intro hspent
    exact absurd hspent (by simp [CodeUse.spent])

/-- A call reads the row while no other is under way. -/
theorem read (h : UsedOnce n row use) {i : ℕ}
    (hnone : ∀ j u, use j = some u → u.underWay = false) :
    UsedOnce n row (Function.update use i (some (.reading (some row)))) := by
  refine h.update (fun _ j v _ hj => hnone j v hj) ?_ (by simp) ?_ (.inl ⟨rfl, by simp⟩)
  · intro found hfound
    exact (CodeUse.reading.inj hfound).symm
  · intro hspent
    exact absurd hspent (by simp [CodeUse.spent])

/-- No call is under way but one. -/
theorem not_underWay (h : UsedOnce n row use) {i j : ℕ} {u v : CodeUse} (hi : use i = some u)
    (hu : u.underWay = true) (hji : j ≠ i) (hj : use j = some v) : v.underWay = false := by
  cases hv : v.underWay with
  | false => rfl
  | true => exact absurd (h.sole j i v u hj hi hv hu) hji

/-- The code of a call is accepted: the row it has read is the row as it is, so none was before. -/
theorem accept (h : UsedOnce n row use) {i : ℕ} {found : Option (String × UserRecord)}
    (hi : use i = some (.reading found))
    (hfresh : ∀ last, row.2.totpLastCounter = some last → last < n) :
    UsedOnce n row (Function.update use i (some (.accepted row.2.totpLastCounter (some n)))) := by
  refine h.update (fun _ j v hji hj => h.not_underWay hi rfl hji hj) (by simp) ?_ ?_
    (.inl ⟨rfl, by simp⟩)
  · intro a b hab
    obtain ⟨rfl, rfl⟩ := CodeUse.accepted.inj hab
    exact ⟨rfl, fun hn => absurd (hfresh n hn) (lt_irrefl n)⟩
  · intro _ j v hji hj
    have hunder := h.not_underWay hi rfl hji hj
    cases v with
    | idle => rfl
    | reading found => rfl
    | accepted a b => exact absurd hunder (by simp [CodeUse.underWay])
    | committed =>
      -- A code that was committed is in the row, at a step that is not earlier.
      obtain ⟨last, hlast, hle⟩ := h.burnt j hj
      exact absurd (hfresh last hlast) (not_lt.2 hle)

/-- The call that was accepted commits, with its step in the row. -/
theorem commit (h : UsedOnce n row use) {i : ℕ} {a b : Option ℤ}
    (hi : use i = some (.accepted a b)) {row' : String × UserRecord}
    (hrow : row'.2.totpLastCounter = some n) :
    UsedOnce n row' (Function.update use i (some .committed)) := by
  refine h.update ?_ (by simp) (by simp) ?_ (.inr ⟨hrow, ?_⟩)
  · intro hunder
    exact absurd hunder (by simp [CodeUse.underWay])
  · intro _ j v hji hj
    cases hv : v.spent with
    | false => rfl
    | true => exact absurd (h.unique j i v _ hj hi hv rfl) hji
  · intro j found hji hj
    exact absurd (h.not_underWay hi rfl hji hj) (by simp [CodeUse.underWay])

end UsedOnce

/-! ## Runs -/

namespace LoginSystem

/-- The use of the code by each call. -/
def use (s : LoginSystem) (i : ℕ) : Option CodeUse := s.calls[i]?.map fun call => call.phase.codeUse

/-- The invariant of a run: the row is that of a user with the second factor on, the calls present
    one code, and use it once. -/
structure SharesCode (code : String) (n : ℤ) (s : LoginSystem) : Prop where
  row : ∃ row, s.store.row = some row ∧ row.2.totpEnabled = true ∧ UsedOnce n row s.use
  codes : ∀ call ∈ s.calls, call.totpCode = some code

/-- At most one call has returned a token pair. -/
def AtMostOneReturned (s : LoginSystem) : Prop :=
  ∀ (i j : ℕ) (ci cj : LoginCall), s.calls[i]? = some ci → s.calls[j]? = some cj →
    ci.phase.hasReturned = true → cj.phase.hasReturned = true → i = j

/-- A call reads the row only while no other that has read it is under way. -/
def ReadsAlone (s : LoginSystem) : LoginStep → Prop
  | .resume i => (s.calls[i]?.any fun call => call.phase = .loading) = true →
      ∀ other ∈ s.calls, other.phase.codeUse.underWay = false
  | _ => True

instance (s : LoginSystem) : ∀ a, Decidable (s.ReadsAlone a)
  | .resume _ => inferInstanceAs (Decidable (_ → _))
  | .start _ _ _ _ => inferInstanceAs (Decidable True)
  | .advance _ => inferInstanceAs (Decidable True)

end LoginSystem

/-- The row that the call compares its code for in its next step. -/
def LoginPhase.comparing : LoginPhase → Option UserRecord
  | verifying found => found.map (·.2)
  | _ => none

namespace LoginSystem

/-- When a call compares the code, it is in the drift window the code of no time step but `n`. -/
def ComparesOneStep (env : AuthEnv) (code : String) (n : ℤ) (s : LoginSystem) : LoginStep → Prop
  | .resume i => ∀ user ∈ s.calls[i]?.bind fun call => call.phase.comparing,
      CodeOfOneStep env user code n s.store.now
  | _ => True

instance (env : AuthEnv) (code : String) (n : ℤ) (s : LoginSystem) :
    ∀ a, Decidable (s.ComparesOneStep env code n a)
  | .resume _ => inferInstanceAs (Decidable (∀ _ ∈ _, _))
  | .start _ _ _ _ => inferInstanceAs (Decidable True)
  | .advance _ => inferInstanceAs (Decidable True)

end LoginSystem

/-- A call that has read a row and not compared the code for it does so next. -/
theorem LoginPhase.comparing_of_reading {phase : LoginPhase} {id : String} {user : UserRecord}
    (h : phase.codeUse = .reading (some (id, user))) : phase.comparing = some user := by
  cases phase with
  | verifying found =>
    obtain rfl := CodeUse.reading.inj h
    rfl
  | _ => exact absurd h (by simp [codeUse])

/-- A call that starts presents the code. -/
def LoginStep.Presents (code : String) : LoginStep → Prop
  | start _ totpCode _ _ => totpCode = some code
  | _ => True

namespace LoginSystem

variable {env : AuthEnv} {email code : String} {n : ℤ} {s : LoginSystem}

theorem SharesCode.atMostOneReturned (h : s.SharesCode code n) : s.AtMostOneReturned := by
  obtain ⟨row, -, -, honce⟩ := h.row
  intro i j ci cj hi hj hri hrj
  exact honce.unique i j ci.phase.codeUse cj.phase.codeUse (by simp [use, hi]) (by simp [use, hj])
    (LoginPhase.spent_of_hasReturned hri) (LoginPhase.spent_of_hasReturned hrj)

theorem use_set {store : LoginStore} {calls : List LoginCall} {i : ℕ} {call call' : LoginCall}
    (hi : calls[i]? = some call) :
    use ⟨store, calls.set i call'⟩ =
      Function.update (use ⟨store, calls⟩) i (some call'.phase.codeUse) := by
  funext j
  have hlt : i < calls.length := (List.getElem?_eq_some_iff.1 hi).1
  by_cases hj : j = i
  · subst hj
    simp [use, hlt]
  · simp [use, hj, Ne.symm hj]

theorem use_append {store : LoginStore} {calls : List LoginCall} {call : LoginCall} :
    use ⟨store, calls ++ [call]⟩ =
      Function.update (use ⟨store, calls⟩) calls.length (some call.phase.codeUse) := by
  funext j
  rcases lt_trichotomy j calls.length with hj | hj | hj
  · simp [use, List.getElem?_append, hj, hj.ne]
  · simp [use, hj]
  · simp [use, List.getElem?_append, hj.ne', not_lt.2 hj.le, Nat.sub_ne_zero_of_lt hj]

/-- A call that is accepted has burnt the step of the code. -/
theorem accepted_step {row : String × UserRecord} {call : LoginCall} {user : UserRecord} {now : ℚ}
    (hon : row.2.totpEnabled = true) (hone : CodeOfOneStep env row.2 code n now)
    (hcode : call.totpCode = some code)
    (h : checkCredentials env (some row) call.password call.totpCode now = .accepted row.1 user) :
    user.totpLastCounter = some n ∧ ∀ last, row.2.totpLastCounter = some last → last < n := by
  rcases accepted_cases h with ⟨hoff, -⟩ | ⟨-, hconsumed⟩
  · exact absurd (hon.symm.trans hoff) (by simp)
  · obtain ⟨step, hstep, hfresh, rfl⟩ := stepOf_of_consumeTotp hconsumed
    rw [hcode] at hstep
    obtain rfl := hone.stepOf_eq hstep
    exact ⟨rfl, hfresh⟩

/-- The row after an accepted call has written its step. -/
theorem write_totpLastCounter {loaded user : UserRecord} (current : UserRecord)
    (hn : user.totpLastCounter = some n) (hloaded : loaded.totpLastCounter ≠ some n) :
    (loaded.write user current).totpLastCounter = some n := by
  unfold UserRecord.write
  rw [hn]
  exact if_neg (Ne.symm hloaded)

/-- What the step of a call keeps. -/
theorem SharesCode.resume (h : s.SharesCode code n) {i : ℕ} {call : LoginCall}
    (hi : s.calls[i]? = some call) (halone : s.ReadsAlone (.resume i))
    (hone : s.ComparesOneStep env code n (.resume i)) :
    (s.step env email (.resume i)).SharesCode code n := by
  have hmem : call ∈ s.calls := List.mem_of_getElem? hi
  have hcodes : ∀ c ∈ s.calls.set i (s.store.proceed env email i call).2,
      c.totpCode = some code := by
    intro c hc
    rcases List.mem_or_eq_of_mem_set hc with hc | rfl
    · exact h.codes c hc
    · exact (s.store.proceed_totpCode env email i call).trans (h.codes call hmem)
  have huse : s.use i = some call.phase.codeUse := by simp [use, hi]
  have hstep := s.store.proceed_use env email i call
  obtain ⟨row, hrow, hon, honce⟩ := h.row
  rw [step_resume hi]
  refine ⟨?_, hcodes⟩
  rw [use_set hi]
  show ∃ row, (s.store.proceed env email i call).1.row = some row ∧ row.2.totpEnabled = true ∧
    UsedOnce n row (Function.update s.use i
      (some (s.store.proceed env email i call).2.phase.codeUse))
  generalize (s.store.proceed env email i call).1 = store' at hstep ⊢
  generalize (s.store.proceed env email i call).2 = call' at hstep ⊢
  cases hstep with
  | same hrow' huse' =>
    refine ⟨row, hrow'.trans hrow, hon, ?_⟩
    rw [huse', ← huse, Function.update_eq_self]
    exact honce
  | read hphase huse' =>
    refine ⟨row, hrow, hon, ?_⟩
    rw [huse', hrow]
    refine honce.read fun j u hj => ?_
    obtain ⟨other, hother, rfl⟩ := Option.map_eq_some_iff.1 hj
    exact halone (by simp [hi, hphase]) other (List.mem_of_getElem? hother)
  | refused hphase huse' =>
    refine ⟨row, hrow, hon, ?_⟩
    rw [huse']
    exact honce.idle i
  | accepted hphase haccepted huse' =>
    refine ⟨row, hrow, hon, ?_⟩
    rw [hphase] at huse
    obtain rfl := Option.some.inj (honce.current i _ huse)
    have hcompares := LoginPhase.comparing_of_reading hphase
    have hstep := hone _ (by rw [hi]; exact hcompares)
    obtain ⟨hn, hfresh⟩ := accepted_step hon hstep (h.codes call hmem) haccepted
    rw [huse', hn]
    exact honce.accept huse hfresh
  | committed hphase hrow' huse' =>
    rw [hphase] at huse
    obtain ⟨hn, hloaded⟩ := honce.written i _ _ huse
    refine ⟨_, hrow'.trans (congrArg _ hrow), hon, ?_⟩
    rw [huse']
    exact honce.commit huse (write_totpLastCounter row.2 hn hloaded)

/-- What one step keeps. -/
theorem SharesCode.step (h : s.SharesCode code n) (a : LoginStep) (halone : s.ReadsAlone a)
    (hone : s.ComparesOneStep env code n a) (hcode : a.Presents code) :
    (LoginSystem.step env email s a).SharesCode code n := by
  obtain ⟨row, hrow, hon, honce⟩ := h.row
  cases a with
  | start password totpCode ip draws =>
    refine ⟨⟨row, hrow, hon, ?_⟩, ?_⟩
    · show UsedOnce n row (use ⟨s.store, s.calls ++ [_]⟩)
      rw [use_append]
      exact honce.idle _
    · intro c hc
      rcases List.mem_append.1 hc with hc | hc
      · exact h.codes c hc
      · obtain rfl := List.mem_singleton.1 hc
        exact hcode
  | resume i =>
    cases hi : s.calls[i]? with
    | none => rwa [step_resume_of_none hi]
    | some call => exact h.resume hi halone hone
  | advance moment => exact ⟨⟨row, hrow, hon, honce⟩, h.codes⟩

end LoginSystem

/-- However the calls are interleaved: if a call reads the user's row only while no other call that
    has read it is under way, and the code is that of one time step wherever it is compared, at most
    one of the calls that present it returns a token pair. -/
theorem code_single_use (env : AuthEnv) (email code : String) (n : ℤ) (store : LoginStore)
    (id : String) (user : UserRecord) (hrow : store.row = some (id, user))
    (hon : user.totpEnabled = true) (steps : List LoginStep)
    (hcode : ∀ a ∈ steps, a.Presents code)
    (halone : Guarded (LoginSystem.step env email) LoginSystem.ReadsAlone ⟨store, []⟩ steps)
    (hone : Guarded (LoginSystem.step env email) (LoginSystem.ComparesOneStep env code n)
      ⟨store, []⟩ steps) :
    Always (LoginSystem.step env email) LoginSystem.AtMostOneReturned ⟨store, []⟩ steps := by
  have hinit : LoginSystem.SharesCode code n ⟨store, []⟩ :=
    ⟨⟨(id, user), hrow, hon, UsedOnce.none n (id, user)⟩, by simp⟩
  have hshares := always_of_guarded (I := LoginSystem.SharesCode code n)
    (fun s a h hguard => h.step a hguard.1.1 hguard.1.2 hguard.2) steps _ hinit
    ((halone.and hone).and (guarded_of_forall_mem steps _ hcode))
  exact hshares.mono (fun s h => h.atMostOneReturned) steps _

/-- The six digits of a number. -/
def sixDigits (n : ℕ) : String :=
  String.ofList ((List.range 6).reverse.map fun i => Char.ofNat (48 + n / 10 ^ i % 10))

/-- The sample libraries, with codes of six digits: as any such codes they recur, here after a
    million time steps. -/
def AuthEnv.sixDigitCodes : AuthEnv :=
  { AuthEnv.sample with
    totp := ⟨1, 30, fun _ moment => .ok (sixDigits ((moment / 30).toNat * 314159 % 10 ^ 6)),
      fun secret name => secret ++ name⟩ }

/-- A user with the second factor on, in the second time step. -/
def LoginStore.twoFactor : LoginStore :=
  ⟨60, .memory ⟨5, 300, .empty⟩,
    some ("u", { email := "a@x.io", passwordHash := "pw", role := "trader", totpEnabled := true
                 totpSecretEnc := some "S1" }), [], none⟩

/-- Two logins with the code of the second time step, the second after the first has committed. -/
def loginsInTurn : List LoginStep :=
  .start "pw" (some "628318") none {} :: List.replicate 6 (.resume 0) ++
    .start "pw" (some "628318") none {} :: List.replicate 6 (.resume 1)

theorem code_used_in_turn :
    Always (LoginSystem.step .sixDigitCodes "a@x.io") LoginSystem.AtMostOneReturned
      ⟨.twoFactor, []⟩ loginsInTurn := by
  refine code_single_use .sixDigitCodes "a@x.io" "628318" 2 .twoFactor "u" _ rfl rfl loginsInTurn ?_
    (by decide +kernel) (by decide +kernel)
  intro a ha
  simp only [loginsInTurn, List.cons_append, List.mem_cons, List.mem_append,
    List.mem_replicate] at ha
  rcases ha with rfl | ⟨-, rfl⟩ | rfl | ⟨-, rfl⟩
  · rfl
  · trivial
  · rfl
  · trivial

/-- Two logins with one code, step by step together. -/
def loginsTogether : List LoginStep :=
  .start "pw" (some "628318") none {} :: .start "pw" (some "628318") none {} ::
    (List.replicate 7 [.resume 0, .resume 1]).flatten

/-- Both return a token pair. -/
theorem code_used_twice :
    ¬ (loginsTogether.foldl (LoginSystem.step .sixDigitCodes "a@x.io")
      ⟨.twoFactor, []⟩).AtMostOneReturned := by
  have hreturned : (loginsTogether.foldl (LoginSystem.step .sixDigitCodes "a@x.io")
      ⟨.twoFactor, []⟩).calls.map (fun call => call.phase.hasReturned) = [true, true] := by
    decide +kernel
  generalize (loginsTogether.foldl (LoginSystem.step .sixDigitCodes "a@x.io") ⟨.twoFactor, []⟩) = s
    at hreturned ⊢
  intro hone
  obtain ⟨first, rest, hcalls, hfirst, hrest⟩ := List.map_eq_cons_iff.1 hreturned
  obtain ⟨second, rest', rfl, hsecond, -⟩ := List.map_eq_cons_iff.1 hrest
  exact absurd (hone 0 1 first second (by simp [hcalls]) (by simp [hcalls]) hfirst hsecond)
    (by decide)

end TradingHub
