import Mathlib.Data.Int.Range
import TradingHub.Library.PyString
import TradingHub.Security.Tokens

set_option autoImplicit false

/-! # Time-based one-time passwords

`TotpService` of `app/security/totp.py`. The codes come from pyotp, which is a parameter: the code
of a secret at a moment. Verification returns the time step that a code matched. -/

namespace TradingHub

open Library

/-- The service, with what it calls of pyotp. -/
structure TotpService where
  validWindow : ℤ := 1
  /-- `pyotp.TOTP(secret).interval`. -/
  interval : ℤ := 30
  /-- `pyotp.TOTP(secret).at(moment)`. -/
  codeAt : String → ℤ → Except AuthError String
  /-- `provisioning_uri`, of a secret and an account name. -/
  provisioningUri : String → String → String

/-- `hmac.compare_digest` of two strings. -/
def compareDigest (a b : String) : Except AuthError Bool :=
  if PyString.isAscii a && PyString.isAscii b then .ok (a = b)
  else .error (.external "comparing strings with non-ASCII characters is not supported")

namespace TotpService

/-- One round of the loop of `verify_counter`: the step is noted if the code matches at `offset`. -/
def tryOffset (totp : TotpService) (secret code : String) (current : ℤ) (matched : Option ℤ)
    (offset : ℤ) : Except AuthError (Option ℤ) := do
  let moment := current + offset * totp.interval
  if ← compareDigest (← totp.codeAt secret moment) code then
    return some (moment / totp.interval)
  else
    return matched

/-- `verify_counter`: the time step `code` matches, if it is valid. -/
def verifyCounter (totp : TotpService) (secret code : String) (now : ℚ) :
    Except AuthError (Option ℤ) :=
  let code := PyString.strip code
  if PyString.isDigit code then
    let current := if now < 0 then ⌈now⌉ else ⌊now⌋
    (Int.range (-totp.validWindow) (totp.validWindow + 1)).foldlM
      (totp.tryOffset secret code current) none
  else .ok none

/-- The moments at which a code that is presented at `now` is compared: one in every step of the
    drift window. -/
def drift (totp : TotpService) (now : ℚ) : List ℤ :=
  (Int.range (-totp.validWindow) (totp.validWindow + 1)).map fun offset =>
    (if now < 0 then ⌈now⌉ else ⌊now⌋) + offset * totp.interval

/-- A round leaves the step as it is, or finds the code at its moment. -/
theorem tryOffset_eq_ok {totp : TotpService} {secret code : String} {current offset : ℤ}
    {matched result : Option ℤ}
    (h : totp.tryOffset secret code current matched offset = .ok result) :
    result = matched ∨ totp.codeAt secret (current + offset * totp.interval) = .ok code ∧
      result = some ((current + offset * totp.interval) / totp.interval) := by
  simp only [tryOffset, bind, Except.bind] at h
  split at h
  · exact absurd h (by simp)
  · next value hvalue =>
    simp only [compareDigest] at h
    by_cases hascii : (PyString.isAscii value && PyString.isAscii code) = true
    · by_cases hmatch : value = code
      · subst hmatch
        simp only [hascii, if_true, decide_true] at h
        exact .inr ⟨hvalue, (Except.ok.inj h).symm⟩
      · simp only [hascii, if_true, hmatch, decide_false] at h
        exact .inl (Except.ok.inj h).symm
    · simp only [hascii] at h
      exact absurd h (by simp)

/-- A step that is returned is one of the drift window at which the code is valid. -/
theorem verifyCounter_eq_some {totp : TotpService} {secret code : String} {now : ℚ} {step : ℤ}
    (h : totp.verifyCounter secret code now = .ok (some step)) :
    ∃ moment ∈ totp.drift now, totp.codeAt secret moment = .ok (PyString.strip code) ∧
      step = moment / totp.interval := by
  have hloop : ∀ (current : ℤ) (offsets : List ℤ) (matched result : Option ℤ),
      offsets.foldlM (totp.tryOffset secret (PyString.strip code) current) matched = .ok result →
      result = matched ∨ ∃ offset ∈ offsets,
        totp.codeAt secret (current + offset * totp.interval) = .ok (PyString.strip code) ∧
          result = some ((current + offset * totp.interval) / totp.interval) := by
    intro current offsets
    induction offsets with
    | nil => intro matched result hrun; exact .inl (Except.ok.inj hrun).symm
    | cons offset offsets ih =>
      intro matched result hrun
      simp only [List.foldlM_cons, bind, Except.bind] at hrun
      split at hrun
      · exact absurd hrun (by simp)
      · next matched' htry =>
        rcases ih matched' result hrun with rfl | ⟨found, hmem, hfound⟩
        · refine (tryOffset_eq_ok htry).imp id fun hfound => ?_
          exact ⟨offset, List.mem_cons_self, hfound⟩
        · exact .inr ⟨found, List.mem_cons_of_mem _ hmem, hfound⟩
  unfold verifyCounter at h
  simp only at h
  split at h
  · rcases hloop _ _ _ _ h with hnone | ⟨offset, hmem, hcode, hstep⟩
    · exact absurd hnone (by simp)
    · exact ⟨_, List.mem_map.2 ⟨offset, hmem, rfl⟩, hcode, Option.some.inj hstep⟩
  · exact absurd h (by simp)

end TotpService

end TradingHub
