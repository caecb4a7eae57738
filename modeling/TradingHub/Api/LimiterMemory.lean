import TradingHub.Api.RetryAfter

set_option autoImplicit false

/-! # What the rate limiter remembers

The dictionary `_hits` of `InMemoryRateLimiter` in `app/api/middleware.py`. A lookup makes a bucket,
and only a sweep deletes one, at most once a minute and only behind an admitted request. So every
bucket is there because of a hit that the last sweep still found in its window, or of a later one,
and behind an admitted request the last sweep is less than a minute ago. -/

namespace TradingHub

open Library

namespace InMemoryRateLimiter

/-! ## Buckets with a recent hit -/

variable {K : Type} [LinearOrder K]

/-- A bucket with a newest hit that is at least `since` and at most `t`. -/
structure Kept (limit : ℤ) (since t : K) (hits : List K) : Prop where
  newest : ∃ newest, hits.getLast? = some newest ∧ (∀ hit ∈ hits, hit ≤ newest) ∧
    since ≤ newest ∧ newest ≤ t
  length_le : (hits.length : ℤ) ≤ limit

namespace Kept

variable {limit : ℤ} {since t : K} {hits : List K}

theorem mono (h : Kept limit since t hits) {t' : K} (ht : t ≤ t') : Kept limit since t' hits := by
  obtain ⟨⟨newest, hlast, hle, hsince, hnewest⟩, hlen⟩ := h
  exact ⟨⟨newest, hlast, hle, hsince, hnewest.trans ht⟩, hlen⟩

/-- Dropping hits from the front leaves the newest one, unless it leaves none. -/
theorem suffix (h : Kept limit since t hits) {rest : List K} (hrest : rest <:+ hits)
    (hne : rest ≠ []) : Kept limit since t rest := by
  obtain ⟨⟨newest, hlast, hle, hbetween⟩, hlen⟩ := h
  have hlen' : (rest.length : ℤ) ≤ hits.length := Int.ofNat_le.2 hrest.length_le
  refine ⟨⟨newest, ?_, fun hit hhit => hle hit (hrest.mem hhit), hbetween⟩, hlen'.trans hlen⟩
  obtain ⟨front, rfl⟩ := hrest
  rw [← hlast, List.getLast?_append_of_ne_nil _ hne]

/-- A bucket that is hit now. -/
theorem concat (hle : ∀ hit ∈ hits, hit ≤ t) (hsince : since ≤ t)
    (hroom : (hits.length : ℤ) < limit) : Kept limit since t (hits ++ [t]) := by
  refine ⟨⟨t, List.getLast?_concat, fun hit hhit => ?_, hsince, le_rfl⟩, ?_⟩
  · rcases List.mem_append.1 hhit with hhit | hhit
    · exact hle hit hhit
    · exact (List.mem_singleton.1 hhit).le
  · rw [List.length_append, List.length_singleton, Nat.cast_add, Nat.cast_one]
    exact hroom

end Kept

/-! ## One request -/

variable [CommRing K]

/-- At the time `t`, every bucket was kept by the last sweep or was hit later. -/
structure Remembers (limit : ℤ) (t : K) (s : InMemoryRateLimiter K) : Prop where
  limit_eq : s.limit = limit
  sweep_le : s.lastSweep ≤ t
  kept : ∀ client hits, s.hits.get? client = some hits → Kept limit (s.lastSweep - 60) t hits

namespace Remembers

variable {limit : ℤ} {t : K} {s : InMemoryRateLimiter K}

theorem new (limit : ℤ) (exempt : List String) :
    Remembers limit 0 (InMemoryRateLimiter.new limit exempt : InMemoryRateLimiter K) :=
  ⟨rfl, le_rfl, fun _ _ h => absurd h (by simp [InMemoryRateLimiter.new])⟩

theorem mono (h : Remembers limit t s) {t' : K} (ht : t ≤ t') : Remembers limit t' s :=
  ⟨h.limit_eq, h.sweep_le.trans ht, fun client hits hget => (h.kept client hits hget).mono ht⟩

/-- A bucket with hits is one of the dictionary, and was kept. -/
theorem kept_bucket (h : Remembers limit t s) {client : String} (hne : s.bucket client ≠ []) :
    Kept limit (s.lastSweep - 60) t (s.bucket client) := by
  unfold bucket at hne ⊢
  cases hget : s.hits.get? client with
  | none => rw [hget] at hne; exact absurd rfl hne
  | some hits => exact h.kept client hits hget

/-- A bucket that is put in with a recent hit. -/
theorem setBucket (h : Remembers limit t s) {client : String} {hits : List K}
    (hkept : Kept limit (s.lastSweep - 60) t hits) : Remembers limit t (s.setBucket client hits) := by
  refine ⟨h.limit_eq, h.sweep_le, fun client' hits' hget => ?_⟩
  change (s.hits.set client hits).get? client' = some hits' at hget
  rw [Dict.get?_set] at hget
  split at hget
  · obtain rfl := Option.some.inj hget
    exact hkept
  · exact h.kept client' hits' hget

variable [IsStrictOrderedRing K]

/-- After the sweep of an admitted request, the last sweep is less than a minute ago. -/
theorem sweep (h : Remembers limit t s) :
    Remembers limit t (maybeSweep t s) ∧ t - (maybeSweep t s).lastSweep < 60 := by
  unfold maybeSweep
  split
  · next hrecent => exact ⟨h, hrecent⟩
  · refine ⟨⟨h.limit_eq, le_rfl, fun client hits hget => ?_⟩, by simp⟩
    rw [Dict.get?_filter] at hget
    obtain ⟨hget, hlive⟩ := Option.filter_eq_some_iff.1 hget
    obtain ⟨⟨newest, hlast, hle, -, hnewest⟩, hlen⟩ := h.kept client hits hget
    refine ⟨⟨newest, hlast, hle, ?_, hnewest⟩, hlen⟩
    have hfresh : isOld t newest = false := by simpa [isStale, hlast] using hlive
    rwa [← Bool.not_eq_true, isOld_iff, not_lt] at hfresh

variable [FloorRing K]

/-- One request. A refused client has hits in its window, as the limit is not zero, so no bucket is
    left empty. -/
theorem dispatch (h : Remembers limit t s) (hlimit : 1 ≤ limit) {r : HttpRequest K}
    (ht : t ≤ r.now) :
    Remembers limit r.now (s.dispatch r).2 ∧
      (r.path ∉ s.exempt → (s.dispatch r).1 = .passed →
        r.now - (s.dispatch r).2.lastSweep < 60) := by
  have hnow := h.mono ht
  by_cases hexempt : r.path ∈ s.exempt
  · rw [dispatch_of_exempt hexempt]
    exact ⟨hnow, fun hpath => absurd hexempt hpath⟩
  · obtain ⟨hits, hhits⟩ : ∃ hits, hits = (s.bucket r.bucketKey).dropWhile (isOld r.now) := ⟨_, rfl⟩
    have hsuffix : hits <:+ s.bucket r.bucketKey := hhits ▸ List.dropWhile_suffix _
    have hkept : hits ≠ [] → Kept limit (s.lastSweep - 60) r.now hits := fun hne =>
      (hnow.kept_bucket (hsuffix.ne_nil hne)).suffix hsuffix hne
    unfold InMemoryRateLimiter.dispatch dispatchWith
    rw [if_neg hexempt, ← hhits]
    simp only [h.limit_eq]
    split
    · next hfull =>
      have hne : hits ≠ [] := by
        rintro rfl
        rw [List.length_nil, Nat.cast_zero] at hfull
        exact absurd (hlimit.trans hfull) (by decide)
      exact ⟨hnow.setBucket (hkept hne), fun _ hpassed => absurd hpassed (by simp)⟩
    · next hroom =>
      have hle : ∀ hit ∈ hits, hit ≤ r.now := by
        intro hit hhit
        obtain ⟨newest, -, hnewest, -, hpast⟩ := (hkept (List.ne_nil_of_mem hhit)).newest
        exact (hnewest hit hhit).trans hpast
      have hsince : s.lastSweep - 60 ≤ r.now := by
        have hsweep := hnow.sweep_le
        linarith
      have hput : Remembers limit r.now (s.setBucket r.bucketKey (hits ++ [r.now])) :=
        hnow.setBucket (Kept.concat hle hsince (not_le.1 hroom))
      exact ⟨hput.sweep.1, fun _ _ => hput.sweep.2⟩

end Remembers

variable [IsStrictOrderedRing K] [FloorRing K]

/-- A run, by induction from its end. -/
theorem run_remembers {limit : ℤ} (hlimit : 1 ≤ limit) (exempt : List String)
    (requests : List (HttpRequest K)) (htimes : requests.Pairwise fun q q' => q.now ≤ q'.now)
    (hnonneg : ∀ q ∈ requests, 0 ≤ q.now) :
    ∀ t, 0 ≤ t → (∀ q ∈ requests, q.now ≤ t) →
      Remembers limit t ((InMemoryRateLimiter.new limit exempt).run requests) := by
  induction requests using List.reverseRecOn with
  | nil => exact fun t ht _ => (Remembers.new limit exempt).mono ht
  | append_singleton requests r ih =>
    intro t _ hle
    obtain ⟨htimes', -, hlast⟩ := List.pairwise_append.1 htimes
    have hbefore := ih htimes' (fun q hq => hnonneg q (by simp [hq])) r.now (hnonneg r (by simp))
      fun q hq => hlast q hq r (by simp)
    have hrun : (InMemoryRateLimiter.new limit exempt).run (requests ++ [r])
        = (((InMemoryRateLimiter.new limit exempt).run requests).dispatch r).2 := by
      unfold run runWith
      rw [List.foldl_append]
      rfl
    rw [hrun]
    exact (hbefore.dispatch hlimit le_rfl).1.mono (hle r (by simp))

end InMemoryRateLimiter

open InMemoryRateLimiter in
/-- Behind every request the limiter admits, each of its buckets holds at most `limit` hits, and the
    newest one is at most two minutes old. -/
theorem limiter_remembers_recent_traffic {K : Type} [CommRing K] [LinearOrder K]
    [IsStrictOrderedRing K] [FloorRing K] (limit : ℤ) (hlimit : 1 ≤ limit) (exempt : List String)
    (before : List (HttpRequest K)) (r : HttpRequest K)
    (htimes : (before ++ [r]).Pairwise fun q q' => q.now ≤ q'.now)
    (hnonneg : ∀ q ∈ before ++ [r], 0 ≤ q.now) (hpath : r.path ∉ exempt)
    (hpassed : (((InMemoryRateLimiter.new limit exempt).run before).dispatch r).1 = .passed) :
    ∀ client hits,
      (((InMemoryRateLimiter.new limit exempt).run before).dispatch r).2.hits.get? client
        = some hits →
      (hits.length : ℤ) ≤ limit ∧ ∃ newest, hits.getLast? = some newest ∧
        (∀ hit ∈ hits, hit ≤ newest) ∧ r.now - 120 ≤ newest := by
  obtain ⟨htimes', -, hlast⟩ := List.pairwise_append.1 htimes
  have hbefore := run_remembers hlimit exempt before htimes' (fun q hq => hnonneg q (by simp [hq]))
    r.now (hnonneg r (by simp)) fun q hq => hlast q hq r (by simp)
  obtain ⟨hafter, hsweep⟩ := hbefore.dispatch hlimit le_rfl
  have hswept := hsweep (by rwa [exempt_run]) hpassed
  intro client hits hget
  obtain ⟨⟨newest, hnewest, hle, hsince, -⟩, hlen⟩ := hafter.kept client hits hget
  exact ⟨hlen, newest, hnewest, hle, by linarith⟩

/-- A client that came once is still remembered 118 seconds later: the sweep in between found it in
    its window. -/
theorem limiter_remembers_two_minutes :
    let s : InMemoryRateLimiter ℚ := .new 2 ["/health"]
    let before : List (HttpRequest ℚ) := [⟨"/orders", some "a", 1⟩, ⟨"/orders", some "b", 60⟩]
    let r : HttpRequest ℚ := ⟨"/orders", some "b", 119⟩
    ((s.run before).dispatch r).2.hits.get? "a" = some [1] ∧
      ∃ newest, [(1 : ℚ)].getLast? = some newest ∧ (∀ hit ∈ [(1 : ℚ)], hit ≤ newest) ∧
        r.now - 120 ≤ newest := by
  intro s before r
  have hget : ((s.run before).dispatch r).2.hits.get? "a" = some [1] := by decide +kernel
  exact ⟨hget, (limiter_remembers_recent_traffic 2 (by decide) ["/health"] before r
    (by decide +kernel) (by decide +kernel) (by decide) (by decide +kernel) "a" [1] hget).2⟩

end TradingHub
