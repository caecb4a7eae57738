import TradingHub.Api.RateLimiter

set_option autoImplicit false

/-! # The `Retry-After` of a refusal

`InMemoryRateLimiter.dispatch` of `app/api/middleware.py` tells a refused client for how many whole
seconds to back off. The seconds until its oldest hit leaves the window are cut to a whole number,
and the window is closed at both ends, so a client that waits exactly as long is refused again; one
second more is always enough. -/

namespace TradingHub

open Library

namespace InMemoryRateLimiter

variable {K : Type} [CommRing K] [LinearOrder K]

/-! ## Requests to exempt paths -/

theorem exempt_dispatch [FloorRing K] (s : InMemoryRateLimiter K) (r : HttpRequest K) :
    (s.dispatch r).2.exempt = s.exempt := by
  simp only [dispatch, dispatchWith]
  split
  · rfl
  · split
    · rfl
    · simp only [maybeSweep]
      split
      · rfl
      · rfl

theorem exempt_run [FloorRing K] (requests : List (HttpRequest K)) (s : InMemoryRateLimiter K) :
    (s.run requests).exempt = s.exempt := by
  induction requests generalizing s with
  | nil => rfl
  | cons q requests ih => exact (ih (s.dispatch q).2).trans (exempt_dispatch s q)

theorem dispatch_of_exempt [FloorRing K] {s : InMemoryRateLimiter K} {r : HttpRequest K}
    (h : r.path ∈ s.exempt) : s.dispatch r = (.passed, s) := by
  simp only [dispatch, dispatchWith, if_pos h]

/-- The requests to exempt paths leave no trace. -/
theorem run_filter [FloorRing K] (requests : List (HttpRequest K)) (s : InMemoryRateLimiter K) :
    s.run requests = s.run (requests.filter fun q => q.path ∉ s.exempt) := by
  induction requests generalizing s with
  | nil => rfl
  | cons q requests ih =>
    have hcons : ∀ rest, s.run (q :: rest) = (s.dispatch q).2.run rest := fun rest => rfl
    rw [hcons, ih, exempt_dispatch]
    by_cases hq : q.path ∈ s.exempt
    · rw [List.filter_cons_of_neg (by simpa using hq)]
      rw [dispatch_of_exempt hq]
    · rw [List.filter_cons_of_pos (by simpa using hq), hcons]

/-! ## What the sliding window admits -/

theorem windowLog_concat [FloorRing K] (limit : ℤ) (requests : List (HttpRequest K))
    (r : HttpRequest K) :
    windowLog limit (requests ++ [r]) = windowLog limit requests ++
      if windowVerdict limit (windowLog limit requests) r = .passed then [r] else [] := by
  unfold windowLog
  rw [List.foldl_append, List.foldl_cons, List.foldl_nil]
  split
  · rfl
  · rw [List.append_nil]

theorem windowLog_sublist [FloorRing K] (limit : ℤ) (requests : List (HttpRequest K)) :
    (windowLog limit requests).Sublist requests := by
  induction requests using List.reverseRecOn with
  | nil => exact List.Sublist.slnil
  | append_singleton requests r ih =>
    rw [windowLog_concat]
    refine ih.append ?_
    split
    · exact List.Sublist.refl _
    · exact List.nil_sublist _

/-- Other clients add nothing to a client's hits. -/
theorem timesOf_windowLog_append [FloorRing K] (limit : ℤ) (client : String)
    {others : List (HttpRequest K)} (hothers : ∀ q ∈ others, q.bucketKey ≠ client)
    (requests : List (HttpRequest K)) :
    timesOf client (windowLog limit (requests ++ others))
      = timesOf client (windowLog limit requests) := by
  unfold timesOf
  have hnone : (others.filter fun q => q.bucketKey = client) = [] := by
    rw [List.filter_eq_nil_iff]
    intro q hq
    simpa using hothers q hq
  rw [← windowLog_filter, ← windowLog_filter, List.filter_append, hnone, List.append_nil]

/-- The hits of a client are sorted by time. -/
theorem timesOf_sorted [FloorRing K] (limit : ℤ) (client : String) {requests : List (HttpRequest K)}
    (htimes : requests.Pairwise fun q q' => q.now ≤ q'.now) :
    (timesOf client (windowLog limit requests)).Pairwise (· ≤ ·) := by
  unfold timesOf
  rw [List.pairwise_map]
  exact (htimes.sublist (windowLog_sublist limit requests)).filter _

section Ordered

variable [IsStrictOrderedRing K] [FloorRing K]

/-- The window never holds more than `limit` hits of a client. -/
theorem recent_windowLog_length_le {limit : ℤ} (hlimit : 0 ≤ limit) (client : String)
    (requests : List (HttpRequest K)) (htimes : requests.Pairwise fun q q' => q.now ≤ q'.now) :
    ∀ now, (∀ q ∈ requests, q.now ≤ now) →
      ((recent now (timesOf client (windowLog limit requests))).length : ℤ) ≤ limit := by
  induction requests using List.reverseRecOn with
  | nil =>
    intro now _
    exact hlimit
  | append_singleton requests r ih =>
    intro now hnow
    obtain ⟨htimes', -, hlast⟩ := List.pairwise_append.1 htimes
    have hold := ih htimes' now fun q hq => hnow q (by simp [hq])
    rw [windowLog_concat, timesOf]
    split
    · next hpassed =>
      by_cases hclient : r.bucketKey = client
      · -- The request was passed on because there was room when it came.
        have hroom : ((recent r.now (timesOf client (windowLog limit requests))).length : ℤ)
            < limit := by
          unfold windowVerdict verdictOf at hpassed
          rw [hclient] at hpassed
          split at hpassed
          · exact absurd hpassed (by simp)
          · next hfree => exact not_le.1 hfree
        have hdrop : (recent now (timesOf client (windowLog limit requests))).length
            ≤ (recent r.now (timesOf client (windowLog limit requests))).length := by
          rw [← recent_recent (hnow r (by simp))]
          exact List.length_filter_le _ _
        rw [List.filter_append, List.map_append, recent, List.filter_append, List.length_append]
        have hone : (List.filter (fun t => !isOld now t)
            (List.map HttpRequest.now ([r].filter fun q => q.bucketKey = client))).length ≤ 1 := by
          refine (List.length_filter_le _ _).trans ?_
          rw [List.length_map]
          exact List.length_filter_le _ _
        unfold recent timesOf at hdrop hroom
        omega
      · rw [List.filter_append, List.filter_cons_of_neg (by simpa using hclient), List.filter_nil,
          List.append_nil]
        exact hold
    · rw [List.append_nil]
      exact hold

/-- The answer to a request after any list of requests, as the sliding window gives it. -/
theorem dispatch_run_eq (limit : ℤ) (exempt : List String) (requests : List (HttpRequest K))
    {r : HttpRequest K} (hpath : r.path ∉ exempt)
    (htimes : (requests ++ [r]).Pairwise fun q q' => q.now ≤ q'.now) :
    (((new limit exempt).run requests).dispatch r).1 =
      windowVerdict limit (windowLog limit (requests.filter fun q => q.path ∉ exempt)) r := by
  obtain ⟨htimes', -, hlast⟩ := List.pairwise_append.1 htimes
  have htracks := runWith_tracks maybeSweep_unseen limit exempt
    (requests.filter fun q => q.path ∉ exempt) (fun q hq => by simpa using (List.mem_filter.1 hq).2)
    (htimes'.filter _) r.now fun q hq => hlast q (List.mem_filter.1 hq).1 r (by simp)
  rw [run_filter]
  exact (htracks.dispatch maybeSweep_unseen le_rfl hpath).1

/-! ## A refusal and the requests after it -/

/-- The requests after `r`: others come, and then the same client again, at `r'`. -/
structure ComesBack (r : HttpRequest K) (others : List (HttpRequest K)) (r' : HttpRequest K) :
    Prop where
  client : r'.bucketKey = r.bucketKey
  quiet : ∀ q ∈ others, q.bucketKey ≠ r.bucketKey
  times : (r :: others ++ [r']).Pairwise fun q q' => q.now ≤ q'.now

/-- The hits in the window at a refusal, and the seconds that are told. -/
structure Refusal (limit : ℤ) (now : K) (hits : List K) (wait : ℤ) : Prop where
  full : limit ≤ (recent now hits).length
  wait_eq : wait = retryAfter now (recent now hits)

omit [IsStrictOrderedRing K] in
theorem path_of_refused {limit : ℤ} {exempt : List String} {before : List (HttpRequest K)}
    {r : HttpRequest K} {wait : ℤ}
    (hrefused : (((new limit exempt).run before).dispatch r).1 = .limited wait) :
    r.path ∉ exempt := by
  intro hpath
  rw [dispatch_of_exempt (by rwa [exempt_run])] at hrefused
  exact absurd hrefused (by simp)

/-- A client that comes back meets the hits of its refusal that are still in the window. -/
theorem dispatch_back {limit : ℤ} {exempt : List String} {before others : List (HttpRequest K)}
    {r r' : HttpRequest K} {wait : ℤ}
    (hbefore : (before ++ [r]).Pairwise fun q q' => q.now ≤ q'.now)
    (hrefused : (((new limit exempt).run before).dispatch r).1 = .limited wait)
    (hback : ComesBack r others r') :
    ∃ hits : List K, hits.Pairwise (· ≤ ·) ∧ Refusal limit r.now hits wait ∧
      (0 ≤ limit → ((recent r.now hits).length : ℤ) ≤ limit) ∧
      (r'.path ∉ exempt →
        (((new limit exempt).run (before ++ r :: others)).dispatch r').1
          = verdictOf limit r'.now (recent r'.now hits)) := by
  have hpath : r.path ∉ exempt := path_of_refused hrefused
  obtain ⟨hbefore', -, hlast⟩ := List.pairwise_append.1 hbefore
  have hall : (before ++ r :: others ++ [r']).Pairwise fun q q' => q.now ≤ q'.now := by
    rw [List.append_assoc]
    refine List.pairwise_append.2 ⟨hbefore', hback.times, fun q hq q' hq' => ?_⟩
    have hqr := hlast q hq r (by simp)
    rcases List.mem_cons.1 hq' with rfl | hq'
    · exact hqr
    · exact hqr.trans ((List.pairwise_cons.1 hback.times).1 q' hq')
  refine ⟨timesOf r.bucketKey (windowLog limit (before.filter fun q => q.path ∉ exempt)),
    timesOf_sorted limit _ (hbefore'.filter _), ?_, ?_, fun hpath' => ?_⟩
  · rw [dispatch_run_eq limit exempt before hpath hbefore, windowVerdict, verdictOf] at hrefused
    split at hrefused
    · next hfull => exact ⟨hfull, (Verdict.limited.inj hrefused).symm⟩
    · exact absurd hrefused (by simp)
  · intro hlimit
    exact recent_windowLog_length_le hlimit _ _ (hbefore'.filter _) r.now
      fun q hq => hlast q (List.mem_filter.1 hq).1 r (by simp)
  · have hrefused' : windowVerdict limit
        (windowLog limit (before.filter fun q => q.path ∉ exempt)) r ≠ .passed := by
      rw [← dispatch_run_eq limit exempt before hpath hbefore, hrefused]
      simp
    rw [dispatch_run_eq limit exempt _ hpath' hall, windowVerdict, hback.client,
      List.filter_append, List.filter_cons_of_pos (by simpa using hpath), ← List.singleton_append,
      ← List.append_assoc, timesOf_windowLog_append limit _ fun q hq =>
        hback.quiet q (List.mem_filter.1 hq).1, windowLog_concat, if_neg hrefused', List.append_nil]

namespace Refusal

variable {limit : ℤ} {now : K} {hits : List K} {wait : ℤ}

/-- The oldest hit leaves the window less than a second after the moment that is told, and not
    before it. -/
theorem oldest (hlimit : 1 ≤ limit) (h : Refusal limit now hits wait) :
    ∃ first rest, recent now hits = first :: rest ∧ 0 ≤ wait ∧ now + wait ≤ first + 60 ∧
      first + 60 < now + wait + 1 := by
  obtain ⟨hfull, hwait⟩ := h
  cases hrecent : recent now hits with
  | nil =>
    rw [hrecent] at hfull
    have hzero : limit ≤ 0 := hfull
    omega
  | cons first rest =>
    have hin : isOld now first = false := (mem_recent.1 (hrecent ▸ List.mem_cons_self)).2
    have hleft : 0 ≤ (60 : K) - (now - first) := by
      rw [← Bool.not_eq_true, isOld_iff, not_lt] at hin
      linarith
    have hfloor : wait = ⌊(60 : K) - (now - first)⌋ := by
      rw [hwait, hrecent]
      exact max_eq_right (Int.floor_nonneg.2 hleft)
    have hle := Int.floor_le ((60 : K) - (now - first))
    have hlt := Int.lt_floor_add_one ((60 : K) - (now - first))
    rw [← hfloor] at hle hlt
    refine ⟨first, rest, rfl, ?_, by linarith, by linarith⟩
    rw [hfloor]
    exact Int.floor_nonneg.2 hleft

theorem nonneg (hlimit : 1 ≤ limit) (h : Refusal limit now hits wait) : 0 ≤ wait := by
  obtain ⟨first, rest, -, hwait, -⟩ := h.oldest hlimit
  exact hwait

/-- At the moment that is told, no hit of the refusal has left the window. -/
theorem recent_wait (hlimit : 1 ≤ limit) (hsorted : hits.Pairwise (· ≤ ·))
    (h : Refusal limit now hits wait) : recent (now + wait) hits = recent now hits := by
  obtain ⟨first, rest, hrecent, hwait, hin, -⟩ := h.oldest hlimit
  have hlater : now ≤ now + (wait : K) := le_add_of_nonneg_right (by exact_mod_cast hwait)
  have hfirst : ∀ hit ∈ recent now hits, first ≤ hit := by
    have hsorted' : (recent now hits).Pairwise (· ≤ ·) := hsorted.filter _
    rw [hrecent] at hsorted' ⊢
    intro hit hhit
    rcases List.mem_cons.1 hhit with rfl | hhit
    · exact le_rfl
    · exact (List.pairwise_cons.1 hsorted').1 hit hhit
  rw [← recent_recent hlater]
  refine List.filter_eq_self.2 fun hit hhit => ?_
  have hge := hfirst hit hhit
  have hnew : ¬ isOld (now + (wait : K)) hit = true := by
    rw [isOld_iff]
    exact not_lt.2 (by linarith)
  simpa using hnew

/-- A second later the oldest hit has left. -/
theorem length_recent_lt (hlimit : 1 ≤ limit) (h : Refusal limit now hits wait)
    (hmost : ((recent now hits).length : ℤ) ≤ limit) {t : K} (ht : now + wait + 1 ≤ t) :
    ((recent t hits).length : ℤ) < limit := by
  obtain ⟨first, rest, hrecent, hwait, -, hgone⟩ := h.oldest hlimit
  have hlater : now ≤ t := by
    have hpos : (0 : K) ≤ wait := by exact_mod_cast hwait
    linarith
  have hold : isOld t first = true := isOld_iff.2 (by linarith)
  have hrest : (recent t hits).length ≤ rest.length := by
    rw [← recent_recent hlater, hrecent, recent, List.filter_cons_of_neg (by simp [hold])]
    exact List.length_filter_le _ _
  rw [hrecent, List.length_cons] at hmost
  push_cast at hmost
  omega

end Refusal

/-- A client that is refused at `r` and sends nothing for `wait` seconds is passed on when it comes
    back. -/
def WaitSuffices (limit : ℤ) (exempt : List String) (before : List (HttpRequest K))
    (r : HttpRequest K) (wait : ℤ) : Prop :=
  ∀ others r', ComesBack r others r' → r.now + wait ≤ r'.now →
    (((new limit exempt).run (before ++ r :: others)).dispatch r').1 = .passed

end Ordered

end InMemoryRateLimiter

open InMemoryRateLimiter in
/-- A client is refused and told to wait. Waiting that long never suffices, and one second more
    always does: whatever the other clients send, the request at the moment that is told is refused
    again. -/
theorem retry_after_one_second_short {K : Type} [CommRing K] [LinearOrder K]
    [IsStrictOrderedRing K] [FloorRing K] (limit : ℤ) (hlimit : 1 ≤ limit) (exempt : List String)
    (before : List (HttpRequest K)) (r : HttpRequest K) (wait : ℤ)
    (htimes : (before ++ [r]).Pairwise fun q q' => q.now ≤ q'.now)
    (hrefused : (((new limit exempt).run before).dispatch r).1 = .limited wait) :
    ¬ WaitSuffices limit exempt before r wait ∧ WaitSuffices limit exempt before r (wait + 1) ∧
      ∀ others r', ComesBack r others r' → r'.path ∉ exempt → r'.now = r.now + wait →
        (((new limit exempt).run (before ++ r :: others)).dispatch r').1 ≠ .passed := by
  have hagain : ∀ others r', ComesBack r others r' → r'.path ∉ exempt → r'.now = r.now + wait →
      (((new limit exempt).run (before ++ r :: others)).dispatch r').1 ≠ .passed := by
    intro others r' hback hpath hnow
    obtain ⟨hits, hsorted, hrefusal, -, hverdict⟩ := dispatch_back htimes hrefused hback
    rw [hverdict hpath, hnow, hrefusal.recent_wait hlimit hsorted, verdictOf, if_pos hrefusal.full]
    simp
  refine ⟨fun hsuffices => ?_, fun others r' hback hnow => ?_, hagain⟩
  · -- The same request again, with nothing in between.
    have hwait : 0 ≤ wait := by
      have hnow : ComesBack r [] r := ⟨rfl, by simp, by simp⟩
      obtain ⟨hits, -, hrefusal, -⟩ := dispatch_back htimes hrefused hnow
      exact hrefusal.nonneg hlimit
    have hback : ComesBack r [] { r with now := r.now + wait } :=
      ⟨rfl, by simp, by simpa using hwait⟩
    have hpath : r.path ∉ exempt := path_of_refused hrefused
    exact hagain _ _ hback hpath rfl (hsuffices _ _ hback le_rfl)
  · by_cases hpath : r'.path ∈ exempt
    · rw [dispatch_of_exempt (by rwa [exempt_run])]
    · obtain ⟨hits, -, hrefusal, hmost, hverdict⟩ := dispatch_back htimes hrefused hback
      have hlater : r.now + wait + 1 ≤ r'.now := by
        push_cast at hnow
        rwa [add_assoc]
      have hroom := hrefusal.length_recent_lt hlimit (hmost (by omega)) hlater
      rw [hverdict hpath, verdictOf, if_neg (not_le.2 hroom)]

/-- With a limit of two a minute, a client that came at 100 and at 130 is refused at 155 and told to
    wait for five seconds. -/
def backOff : List (HttpRequest ℚ) := [⟨"/orders", some "a", 100⟩, ⟨"/orders", some "a", 130⟩]

open InMemoryRateLimiter in
theorem back_off_one_second_more :
    WaitSuffices 2 [] backOff ⟨"/orders", some "a", 155⟩ 6 :=
  (retry_after_one_second_short 2 (by decide) [] backOff ⟨"/orders", some "a", 155⟩ 5
    (by decide +kernel) (by decide +kernel)).2.1

open InMemoryRateLimiter in
/-- At 160 it is refused again, and told to wait for no time at all. -/
theorem back_off_refused_again :
    (((new 2 []).run backOff).dispatch ⟨"/orders", some "a", 155⟩).1 = .limited 5 ∧
      (((new 2 []).run (backOff ++ [⟨"/orders", some "a", 155⟩])).dispatch
        ⟨"/orders", some "a", 160⟩).1 = .limited 0 ∧
      ¬ WaitSuffices 2 [] backOff ⟨"/orders", some "a", 155⟩ 5 := by
  have hagain : (((new 2 []).run (backOff ++ [⟨"/orders", some "a", 155⟩])).dispatch
      ⟨"/orders", some "a", 160⟩).1 = .limited 0 := by decide +kernel
  refine ⟨by decide +kernel, hagain, fun h => ?_⟩
  have hpassed := h [] ⟨"/orders", some "a", 160⟩ ⟨rfl, by simp, by norm_num⟩ (by norm_num)
  exact absurd (hagain.symm.trans hpassed) (by simp)

end TradingHub
