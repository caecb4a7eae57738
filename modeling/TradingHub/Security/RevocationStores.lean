import TradingHub.Security.TokenStore

set_option autoImplicit false

/-! # The two revocation stores side by side

The same calls of `revoke` and `is_revoked`, on any identifiers and with any `ttl_seconds`, against
`InMemoryTokenStore` and `RedisTokenStore` of `app/security/token_store.py`. The in-memory store
deletes entries when it prunes and when it looks one up, the Redis store leaves it to the expiry of
its keys. Either answers what the last revocation of an identifier says, which is never deleted
from the list of the calls. -/

namespace TradingHub

open Library

/-! ## Calls -/

inductive StoreCall
  | revoke (jti : String) (ttlSeconds : ℤ) (now : ℚ)
  | isRevoked (jti : String) (now : ℚ)
deriving DecidableEq, Repr

def StoreCall.now : StoreCall → ℚ
  | revoke _ _ now => now
  | isRevoked _ now => now

namespace TokenStore

/-- The store after a call. -/
def after (store : TokenStore) : StoreCall → TokenStore
  | .revoke jti ttlSeconds now => store.revoke jti ttlSeconds now
  | .isRevoked jti now => (store.isRevoked jti now).2

/-- The answers to the lookups among the calls, in order. -/
def answers (store : TokenStore) : List StoreCall → List Bool
  | [] => []
  | .revoke jti ttlSeconds now :: calls => (store.revoke jti ttlSeconds now).answers calls
  | .isRevoked jti now :: calls =>
    (store.isRevoked jti now).1 :: (store.isRevoked jti now).2.answers calls

end TokenStore

/-! ## The last revocation -/

/-- When the last revocation of an identifier lapses; the past is listed from its end. -/
def lapseOf (jti : String) : List StoreCall → Option ℚ
  | [] => none
  | .revoke jti' ttlSeconds now :: past =>
    if jti = jti' then some (now + (max ttlSeconds 1 : ℤ)) else lapseOf jti past
  | .isRevoked _ _ :: past => lapseOf jti past

def heldRevoked (past : List StoreCall) (jti : String) (now : ℚ) : Bool :=
  (lapseOf jti past).any fun lapses => now < lapses

/-- The answers of the list of the calls itself. -/
def historyAnswers : List StoreCall → List StoreCall → List Bool
  | _, [] => []
  | past, .revoke jti ttlSeconds now :: calls =>
    historyAnswers (.revoke jti ttlSeconds now :: past) calls
  | past, .isRevoked jti now :: calls =>
    heldRevoked past jti now :: historyAnswers (.isRevoked jti now :: past) calls

/-! ## Either store follows its history -/

namespace TokenStore

/-- From now on, a lookup gets the answer of the past calls. -/
def Follows (past : List StoreCall) (now : ℚ) (store : TokenStore) : Prop :=
  ∀ jti t, now ≤ t → (store.isRevoked jti t).1 = heldRevoked past jti t

theorem follows_memory (now : ℚ) : (memory .empty).Follows [] now := fun _ _ _ => rfl

theorem follows_redis (now : ℚ) : (redis .empty).Follows [] now := fun _ _ _ => rfl

/-- The identifier that was revoked is held for its seconds, one at least; the others are held as
    before. -/
theorem isRevoked_revoke_eq (store : TokenStore) (jti jti' : String) (ttlSeconds : ℤ) {now t : ℚ}
    (h : now ≤ t) :
    ((store.revoke jti ttlSeconds now).isRevoked jti' t).1 =
      if jti' = jti then decide (t < now + (max ttlSeconds 1 : ℤ))
      else (store.isRevoked jti' t).1 := by
  cases store with
  | memory store =>
    rw [Bool.eq_iff_iff]
    show ((store.revoke jti ttlSeconds now).isRevoked jti' t).1 = true ↔ _
    rw [InMemoryTokenStore.isRevoked_iff, InMemoryTokenStore.revoke, Dict.get?_set]
    split
    · simp
    · show _ ↔ (store.isRevoked jti' t).1 = true
      rw [InMemoryTokenStore.isRevoked_iff, InMemoryTokenStore.get?_prune]
      -- What is pruned has lapsed by now, and so by the time of the lookup.
      constructor
      · rintro ⟨exp, hget, hlt⟩
        exact ⟨exp, (Option.filter_eq_some_iff.1 hget).1, hlt⟩
      · rintro ⟨exp, hget, hlt⟩
        refine ⟨exp, Option.filter_eq_some_iff.2 ⟨hget, ?_⟩, hlt⟩
        simpa using h.trans_lt hlt
  | redis keys =>
    have hkey : RedisTokenStore.key jti' = RedisTokenStore.key jti ↔ jti' = jti :=
      String.append_right_inj _
    show RedisTokenStore.isRevoked (RedisTokenStore.revoke keys jti ttlSeconds now) jti' t = _
    rw [RedisTokenStore.isRevoked, RedisTokenStore.revoke, Redis.keyExists, Redis.setEx,
      Dict.get?_set]
    by_cases hjti : jti' = jti
    · rw [if_pos (hkey.2 hjti), if_pos hjti]
    · rw [if_neg (mt hkey.1 hjti), if_neg hjti]
      rfl

namespace Follows

variable {past : List StoreCall} {now : ℚ} {store : TokenStore}

theorem after (h : store.Follows past now) (c : StoreCall) (hc : now ≤ c.now) :
    (store.after c).Follows (c :: past) c.now := by
  intro jti t ht
  cases c with
  | revoke jti' ttlSeconds now' =>
    have hlater : now' ≤ t := ht
    rw [TokenStore.after, isRevoked_revoke_eq _ _ _ _ hlater]
    by_cases hjti : jti = jti'
    · simp [heldRevoked, lapseOf, hjti]
    · simp only [if_neg hjti, heldRevoked, lapseOf]
      exact h jti t (hc.trans ht)
  | isRevoked jti' now' =>
    have hlater : now' ≤ t := ht
    rw [TokenStore.after, isRevoked_lookup _ _ _ hlater]
    exact h jti t (hc.trans ht)

/-- A list of calls, by induction on the list. -/
theorem answers_eq : ∀ (calls past : List StoreCall) (now : ℚ) (store : TokenStore),
    store.Follows past now → (∀ c ∈ calls, now ≤ c.now) →
    (calls.Pairwise fun c c' => c.now ≤ c'.now) →
    store.answers calls = historyAnswers past calls := by
  intro calls
  induction calls with
  | nil => intro past now store _ _ _; rfl
  | cons c calls ih =>
    intro past now store h hnow htimes
    obtain ⟨hlater, htimes⟩ := List.pairwise_cons.1 htimes
    have hc : now ≤ c.now := hnow c (by simp)
    have hrest := ih _ _ _ (h.after c hc) hlater htimes
    cases c with
    | revoke jti ttlSeconds now' => exact hrest
    | isRevoked jti now' =>
      show (store.isRevoked jti now').1 :: _ = heldRevoked past jti now' :: _
      rw [h jti now' hc]
      exact congrArg _ hrest

end Follows

end TokenStore

/-- Calls on any identifiers, with any `ttl_seconds` and a clock that does not go back: both stores
    give every lookup the same answer, the one that the last revocation of the identifier gives. -/
theorem revocation_stores_agree (calls : List StoreCall)
    (htimes : calls.Pairwise fun c c' => c.now ≤ c'.now) :
    (TokenStore.memory .empty).answers calls = (TokenStore.redis .empty).answers calls ∧
      (TokenStore.memory .empty).answers calls = historyAnswers [] calls := by
  have hstart : ∃ now, ∀ c ∈ calls, now ≤ c.now := by
    cases calls with
    | nil => exact ⟨0, by simp⟩
    | cons c calls =>
      refine ⟨c.now, fun c' hc' => ?_⟩
      rcases List.mem_cons.1 hc' with rfl | hc'
      · exact le_rfl
      · exact (List.pairwise_cons.1 htimes).1 c' hc'
  obtain ⟨now, hnow⟩ := hstart
  have hmemory := TokenStore.Follows.answers_eq calls [] now _ (TokenStore.follows_memory now) hnow
    htimes
  have hredis := TokenStore.Follows.answers_eq calls [] now _ (TokenStore.follows_redis now) hnow
    htimes
  exact ⟨hmemory.trans hredis.symm, hmemory⟩

/-- An entry is looked up at its end, another one is pruned, and the first is revoked again for a
    shorter time and with a negative number of seconds. -/
def renewedRevocations : List StoreCall :=
  [.revoke "a" 10 0, .revoke "b" 2 0, .isRevoked "b" 1, .isRevoked "b" 2, .revoke "b" 0 5,
    .revoke "a" (-3) 6, .isRevoked "b" (13 / 2), .isRevoked "a" (13 / 2), .isRevoked "a" 7]

theorem renewed_revocations_agree :
    (TokenStore.memory .empty).answers renewedRevocations = [true, false, false, true, false] ∧
      (TokenStore.memory .empty).answers renewedRevocations
        = (TokenStore.redis .empty).answers renewedRevocations :=
  ⟨by decide +kernel, (revocation_stores_agree renewedRevocations (by decide +kernel)).1⟩

end TradingHub
