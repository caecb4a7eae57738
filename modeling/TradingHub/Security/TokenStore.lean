import Mathlib.Algebra.Order.Archimedean.Real.Basic
import Mathlib.Tactic.Linarith
import TradingHub.Library.Run
import TradingHub.Security.Tokens

set_option autoImplicit false

/-! # The revocation stores

`InMemoryTokenStore` of `app/security/token_store.py`, over any clock with whole seconds, and
`TokenStore`, either of the two backends. An entry is written with the seconds its token has left,
cut to a whole number, and is deleted by the first call that finds it lapsed. A revocation that
falls within a second therefore lapses before the token does. -/

namespace TradingHub

open Library

/-! ## The store -/

/-- The identifiers revoked, each with the reading of the clock at which its entry lapses. -/
abbrev InMemoryTokenStore (K : Type) : Type := Dict String K

namespace InMemoryTokenStore

variable {K : Type} [CommRing K] [LinearOrder K]

/-- `_prune`. -/
def prune (store : InMemoryTokenStore K) (now : K) : InMemoryTokenStore K :=
  Dict.filter store fun _ exp => !decide (exp ≤ now)

def revoke (store : InMemoryTokenStore K) (jti : String) (ttlSeconds : ℤ) (now : K) :
    InMemoryTokenStore K :=
  Dict.set (store.prune now) jti (now + (max ttlSeconds 1 : ℤ))

/-- The answer, and the store without the entry if it has lapsed. -/
def isRevoked (store : InMemoryTokenStore K) (jti : String) (now : K) :
    Bool × InMemoryTokenStore K :=
  match Dict.get? store jti with
  | none => (false, store)
  | some exp => if exp ≤ now then (false, Dict.erase store jti) else (true, store)

omit [CommRing K] in
theorem get?_prune (store : InMemoryTokenStore K) (now : K) (jti : String) :
    Dict.get? (store.prune now) jti = (Dict.get? store jti).filter fun exp => !decide (exp ≤ now) :=
  Dict.get?_filter store _ jti

omit [CommRing K] in
/-- Pruning keeps the entries that have not lapsed. -/
theorem get?_prune_of_lt {store : InMemoryTokenStore K} {now exp : K} {jti : String}
    (h : Dict.get? store jti = some exp) (hlt : now < exp) :
    Dict.get? (store.prune now) jti = some exp := by
  rw [get?_prune, h]
  simp [hlt]

omit [CommRing K] in
theorem isRevoked_iff (store : InMemoryTokenStore K) (jti : String) (now : K) :
    (store.isRevoked jti now).1 = true ↔ ∃ exp, Dict.get? store jti = some exp ∧ now < exp := by
  unfold isRevoked
  split
  · next h => simp [h]
  · next exp h =>
    split
    · next hle => simp [h, hle]
    · next hlt => simp [h, not_le.1 hlt]

omit [CommRing K] in
/-- A lookup deletes no entry that has not lapsed. -/
theorem get?_isRevoked_of_lt {store : InMemoryTokenStore K} {now exp : K} {jti : String}
    (jti' : String) (h : Dict.get? store jti = some exp) (hlt : now < exp) :
    Dict.get? (store.isRevoked jti' now).2 jti = some exp := by
  unfold isRevoked
  split
  · exact h
  · next exp' h' =>
    split
    · next hle =>
      have hne : jti ≠ jti' := by
        rintro rfl
        obtain rfl := Option.some.inj (h.symm.trans h')
        exact absurd hle (not_le.2 hlt)
      rw [Dict.get?_erase, if_neg hne]
      exact h
    · exact h

omit [CommRing K] in
/-- A lookup adds no entry. -/
theorem get?_of_get?_isRevoked {store : InMemoryTokenStore K} {now exp : K} {jti jti' : String}
    (h : Dict.get? (store.isRevoked jti' now).2 jti = some exp) :
    Dict.get? store jti = some exp := by
  unfold isRevoked at h
  split at h
  · exact h
  · split at h
    · rw [Dict.get?_erase] at h
      split at h
      · exact absurd h (by simp)
      · exact h
    · exact h

end InMemoryTokenStore

/-- `get_token_store`: the backend in use. -/
inductive TokenStore
  | memory (store : InMemoryTokenStore ℚ)
  | redis (redis : Redis)
deriving DecidableEq

namespace TokenStore

def revoke (jti : String) (ttlSeconds : ℤ) (now : ℚ) : TokenStore → TokenStore
  | memory store => memory (store.revoke jti ttlSeconds now)
  | redis keys => redis (RedisTokenStore.revoke keys jti ttlSeconds now)

/-- The answer, and the store after the lookup. -/
def isRevoked (jti : String) (now : ℚ) : TokenStore → Bool × TokenStore
  | memory store => ((store.isRevoked jti now).1, memory (store.isRevoked jti now).2)
  | redis keys => (RedisTokenStore.isRevoked keys jti now, redis keys)

/-- A lookup changes no answer given from then on. -/
theorem isRevoked_lookup (store : TokenStore) (jti jti' : String) {now t : ℚ} (h : now ≤ t) :
    ((store.isRevoked jti now).2.isRevoked jti' t).1 = (store.isRevoked jti' t).1 := by
  cases store with
  | redis keys => rfl
  | memory store =>
    rw [Bool.eq_iff_iff]
    show ((store.isRevoked jti now).2.isRevoked jti' t).1 = true ↔
      (store.isRevoked jti' t).1 = true
    rw [InMemoryTokenStore.isRevoked_iff, InMemoryTokenStore.isRevoked_iff]
    constructor
    · rintro ⟨exp, hget, hlt⟩
      exact ⟨exp, InMemoryTokenStore.get?_of_get?_isRevoked hget, hlt⟩
    · rintro ⟨exp, hget, hlt⟩
      exact ⟨exp, InMemoryTokenStore.get?_isRevoked_of_lt jti hget (h.trans_lt hlt), hlt⟩

/-- After a revocation, what is held revoked is the identifier or was held revoked before. -/
theorem isRevoked_revoke {store : TokenStore} {jti jti' : String} {ttlSeconds : ℤ} {now t : ℚ}
    (h : ((store.revoke jti ttlSeconds now).isRevoked jti' t).1 = true) :
    jti' = jti ∨ (store.isRevoked jti' t).1 = true := by
  by_cases hjti : jti' = jti
  · exact .inl hjti
  · right
    cases store with
    | memory store =>
      obtain ⟨exp, hget, hlt⟩ := (InMemoryTokenStore.isRevoked_iff _ _ _).1 h
      rw [InMemoryTokenStore.revoke, Dict.get?_set_of_ne _ _ hjti, InMemoryTokenStore.get?_prune,
        Option.filter_eq_some_iff] at hget
      exact (InMemoryTokenStore.isRevoked_iff _ _ _).2 ⟨exp, hget.1, hlt⟩
    | redis keys =>
      have hkey : RedisTokenStore.key jti' ≠ RedisTokenStore.key jti :=
        fun heq => hjti ((String.append_right_inj _).1 heq)
      have h' : RedisTokenStore.isRevoked (RedisTokenStore.revoke keys jti ttlSeconds now) jti' t
          = true := h
      rw [RedisTokenStore.isRevoked, RedisTokenStore.revoke, Redis.keyExists, Redis.setEx,
        Dict.get?_set_of_ne _ _ hkey] at h'
      exact h'

end TokenStore

/-! ## A revocation and the life of its token -/

/-- The wall clock and the store. -/
structure RevocationState (K : Type) where
  now : K
  store : InMemoryTokenStore K

/-- The calls of the store that come after each other, and the time between them. -/
inductive RevocationStep (K : Type)
  /-- `refresh` or `logout` accepts the token and revokes it. -/
  | revokeToken
  /-- Another identifier is revoked. -/
  | revoke (jti : String) (ttlSeconds : ℤ)
  | isRevoked (jti : String)
  | advance (moment : K)

section Coverage

variable {K : Type} [CommRing K] [LinearOrder K] [FloorRing K]

/-- One step, for the token with the identifier `jti` that expires at `exp`. The monotonic clock of
    the store reads the time since `boot`. -/
def RevocationState.step (jti : String) (exp : ℤ) (boot : K) (s : RevocationState K) :
    RevocationStep K → RevocationState K
  | .revokeToken =>
    if s.now < exp then
      { s with store := s.store.revoke jti (remainingTtl exp s.now) (s.now - boot) }
    else s
  | .revoke jti' ttlSeconds =>
    if jti' = jti then s else { s with store := s.store.revoke jti' ttlSeconds (s.now - boot) }
  | .isRevoked jti' => { s with store := (s.store.isRevoked jti' (s.now - boot)).2 }
  | .advance moment => { s with now := max s.now moment }

/-- From now on, as long as the token would be accepted, the store holds it revoked. -/
def RevocationState.Covers (jti : String) (exp : ℤ) (boot : K) (s : RevocationState K) : Prop :=
  ∀ t, s.now ≤ t → t < exp → (s.store.isRevoked jti (t - boot)).1 = true

/-- The condition on a step: the token is revoked on a whole second, or in its last second. -/
def OnWholeSecond (exp : ℤ) (s : RevocationState K) : RevocationStep K → Prop
  | .revokeToken => s.now < exp → Int.fract s.now = 0 ∨ (exp : K) - s.now ≤ 1
  | _ => True

namespace RevocationState

variable [IsStrictOrderedRing K] {jti : String} {exp : ℤ} {boot : K} {s : RevocationState K}

omit [FloorRing K] in
/-- The store covers the token exactly if its entry does not lapse before the token. -/
theorem covers_iff :
    s.Covers jti exp boot ↔ exp ≤ s.now ∨
      ∃ lapses, Dict.get? s.store jti = some lapses ∧ (exp : K) ≤ lapses + boot := by
  constructor
  · intro h
    by_cases hnow : (exp : K) ≤ s.now
    · exact .inl hnow
    · obtain ⟨lapses, hget, -⟩ :=
        (InMemoryTokenStore.isRevoked_iff _ _ _).1 (h s.now (le_refl _) (not_le.1 hnow))
      refine .inr ⟨lapses, hget, ?_⟩
      -- Otherwise the entry has lapsed at some moment before the token expires.
      by_contra hearly
      have hlt : max s.now (lapses + boot) < exp := max_lt (not_le.1 hnow) (not_le.1 hearly)
      obtain ⟨lapses', hget', hlt'⟩ :=
        (InMemoryTokenStore.isRevoked_iff _ _ _).1 (h _ (le_max_left _ _) hlt)
      obtain rfl := Option.some.inj (hget.symm.trans hget')
      have := le_max_right s.now (lapses + boot)
      exact absurd hlt' (by linarith)
  · rintro (hnow | ⟨lapses, hget, hlapses⟩) t hle hlt
    · exact absurd (hnow.trans hle) (not_le.2 hlt)
    · exact (InMemoryTokenStore.isRevoked_iff _ _ _).2 ⟨lapses, hget, by linarith⟩

/-- The seconds written with a revocation cover what the token has left exactly on a whole second,
    or in the last second. -/
theorem le_remainingTtl_iff {now : K} (h : now < exp) :
    (exp : K) - now ≤ remainingTtl exp now ↔ Int.fract now = 0 ∨ (exp : K) - now ≤ 1 := by
  have hleft : ¬ (exp : K) - now < 0 := by linarith
  have hfract : (exp : K) - now ≤ ⌊(exp : K) - now⌋ ↔ Int.fract now = 0 := by
    constructor
    · intro hle
      have heq := le_antisymm hle (Int.floor_le _)
      exact Int.fract_eq_zero_iff.2 ⟨exp - ⌊(exp : K) - now⌋, by push_cast; linarith⟩
    · intro hzero
      obtain ⟨n, rfl⟩ := Int.fract_eq_zero_iff.1 hzero
      rw [← Int.cast_sub, Int.floor_intCast]
  simp only [remainingTtl, if_neg hleft, Int.cast_max, Int.cast_one, le_max_iff]
  rw [hfract, or_comm]

theorem covers_revokeToken_iff (h : s.now < exp) :
    (s.step jti exp boot .revokeToken).Covers jti exp boot ↔
      OnWholeSecond exp s .revokeToken := by
  have hmax : max (remainingTtl exp s.now) 1 = remainingTtl exp s.now := by
    simp [remainingTtl]
  have hget : Dict.get? (s.step jti exp boot .revokeToken).store jti
      = some (s.now - boot + remainingTtl exp s.now) := by
    simp only [step, if_pos h, InMemoryTokenStore.revoke, Dict.get?_set_self, hmax]
  have hnow : (s.step jti exp boot .revokeToken).now = s.now := by
    simp only [step, if_pos h]
  rw [covers_iff, hget, hnow]
  constructor
  · rintro (hle | ⟨lapses, heq, hle⟩) _
    · exact absurd h (not_lt.2 hle)
    · obtain rfl := Option.some.inj heq
      exact (le_remainingTtl_iff h).1 (by linarith)
  · intro hguard
    have hle := (le_remainingTtl_iff h).2 (hguard h)
    exact .inr ⟨_, rfl, by linarith⟩

omit [FloorRing K] in
/-- An entry that covers the token is still there after a call that keeps the entries that have not
    lapsed. -/
theorem Covers.of_kept (h : s.Covers jti exp boot) {store : InMemoryTokenStore K}
    (hkept : ∀ lapses, Dict.get? s.store jti = some lapses → s.now - boot < lapses →
      Dict.get? store jti = some lapses) : Covers jti exp boot { s with store } := by
  rw [covers_iff] at h ⊢
  rcases h with hnow | ⟨lapses, hget, hle⟩
  · exact .inl hnow
  · by_cases hnow : (exp : K) ≤ s.now
    · exact .inl hnow
    · exact .inr ⟨lapses, hkept lapses hget (by linarith [not_le.1 hnow]), hle⟩

theorem covers_step_iff (a : RevocationStep K) (h : s.Covers jti exp boot) :
    (s.step jti exp boot a).Covers jti exp boot ↔ OnWholeSecond exp s a := by
  cases a with
  | revokeToken =>
    by_cases hnow : s.now < exp
    · exact covers_revokeToken_iff hnow
    · rw [step, if_neg hnow]
      exact iff_of_true h fun hlt => absurd hlt hnow
  | revoke jti' ttlSeconds =>
    refine iff_of_true ?_ trivial
    simp only [step]
    split
    · exact h
    · next hne =>
      refine h.of_kept fun lapses hget hlt => ?_
      rw [InMemoryTokenStore.revoke, Dict.get?_set_of_ne _ _ (Ne.symm hne)]
      exact InMemoryTokenStore.get?_prune_of_lt hget hlt
  | isRevoked jti' =>
    refine iff_of_true (h.of_kept fun lapses hget hlt => ?_) trivial
    exact InMemoryTokenStore.get?_isRevoked_of_lt jti' hget hlt
  | advance moment =>
    refine iff_of_true (fun t hle hlt => h t ?_ hlt) trivial
    exact (le_max_left s.now moment).trans hle

end RevocationState

/-- A token that expires at `exp` is revoked at `r`, and other calls of the store follow. At every
    later moment at which the token has not expired the store holds it revoked, exactly if each
    revocation of the token came on a whole second or in its last second. -/
theorem revocation_covers_iff [IsStrictOrderedRing K] (jti : String) (exp : ℤ) (boot r : K)
    (store : InMemoryTokenStore K) (steps : List (RevocationStep K)) :
    Always (RevocationState.step jti exp boot) (RevocationState.Covers jti exp boot)
        (RevocationState.step jti exp boot ⟨r, store⟩ .revokeToken) steps ↔
      Guarded (RevocationState.step jti exp boot) (OnWholeSecond exp) ⟨r, store⟩
        (.revokeToken :: steps) := by
  have hfirst : (RevocationState.step jti exp boot ⟨r, store⟩ .revokeToken).Covers jti exp boot ↔
      OnWholeSecond exp (⟨r, store⟩ : RevocationState K) .revokeToken := by
    by_cases hr : r < exp
    · exact RevocationState.covers_revokeToken_iff hr
    · rw [RevocationState.step, if_neg hr]
      exact iff_of_true (fun t hle hlt => absurd (hle.trans_lt hlt) hr) fun hlt => absurd hlt hr
  exact always_step_iff_guarded (I := fun _ => True) (fun _ _ _ => trivial)
    (fun s a _ h => RevocationState.covers_step_iff a h) steps trivial hfirst

end Coverage

/-- A token that expires at 10 is revoked at 2 and looked up in its last second. -/
theorem revocation_covers_whole_second :
    Always (RevocationState.step "j" 10 (0 : ℝ)) (RevocationState.Covers "j" 10 0)
      (RevocationState.step "j" 10 0 ⟨2, .empty⟩ .revokeToken)
      [.revoke "k" 5, .advance (19 / 2), .isRevoked "j"] :=
  (revocation_covers_iff "j" 10 0 2 .empty _).2
    ⟨fun _ => .inl (Int.fract_ofNat 2), trivial, trivial, trivial, trivial⟩

/-- A token that expires at 10 is revoked at 1/2, for nine seconds: at 39/4 it would be accepted and
    is no longer held revoked. -/
theorem revocation_lapses_early :
    ((RevocationState.step "j" 10 (0 : ℚ) ⟨1 / 2, .empty⟩ .revokeToken).store.isRevoked "j"
        (39 / 4)).1 = false ∧
      ¬ (RevocationState.step "j" 10 (0 : ℚ) ⟨1 / 2, .empty⟩ .revokeToken).Covers "j" 10 0 := by
  have hlapsed : ((RevocationState.step "j" 10 (0 : ℚ) ⟨1 / 2, .empty⟩
      .revokeToken).store.isRevoked "j" (39 / 4)).1 = false := by decide +kernel
  refine ⟨hlapsed, fun h => ?_⟩
  have hrevoked := h (39 / 4) (by decide +kernel) (by norm_num)
  rw [sub_zero] at hrevoked
  exact absurd (hlapsed.symm.trans hrevoked) (by simp)

end TradingHub
