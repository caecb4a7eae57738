import Mathlib.Algebra.Order.Archimedean.Real.Basic
import Mathlib.Tactic.Linarith
import TradingHub.Library.Dict

set_option autoImplicit false

/-! # The rate limiter

`InMemoryRateLimiter` of `app/api/middleware.py`, over any clock with whole seconds. A client's
bucket holds the times of its admitted requests; hits that have left the window are dropped from
its front when the client comes back, and a sweep that runs with other clients' traffic deletes
the buckets that are idle.

`Tracks` relates the buckets to the requests admitted so far: from the current time on, the hits
of a bucket that are still in the window are those of the history. Neither the dropped hits nor
the deleted buckets can be seen through it, and a bucket is related to the requests of its own
client only. -/

namespace TradingHub

open Library

/-! ## Moments in a window -/

/-- In a list that is sorted by time, what is old stands in front. -/
theorem dropWhile_eq_filter {K : Type} [LE K] {p : K → Bool} (hp : ∀ a b, a ≤ b → p b → p a) :
    ∀ {l : List K}, l.Pairwise (· ≤ ·) → l.dropWhile p = l.filter (fun t => !p t) := by
  intro l
  induction l with
  | nil => intro _; rfl
  | cons t l ih =>
    intro h
    obtain ⟨hle, htail⟩ := List.pairwise_cons.1 h
    cases ht : p t with
    | true => simp [ht, ih htail]
    | false =>
      have hkept : ∀ b ∈ l, (!p b) = true := by
        intro b hb
        cases hpb : p b with
        | true => exact absurd (hp t b (hle b hb) hpb) (by simp [ht])
        | false => rfl
      simp [ht, List.filter_eq_self.2 hkept]

variable {K : Type} [CommRing K] [LinearOrder K]

/-- `now - t > self._window`, the window being 60 seconds. -/
def isOld (now t : K) : Bool := 60 < now - t

/-- The hits that are in the window. -/
def recent (now : K) (hits : List K) : List K := hits.filter fun t => !isOld now t

/-! ## The middleware -/

/-- A request as the limiter sees it: its path, what `resolve_client_ip` makes of its addresses,
    and the reading of the monotonic clock. -/
structure HttpRequest (K : Type) where
  path : String
  client : Option String
  now : K
deriving DecidableEq, Repr

/-- `resolve_client_ip(request) or "unknown"`. -/
def HttpRequest.bucketKey (r : HttpRequest K) : String :=
  match r.client with
  | none => "unknown"
  | some client => if client = "" then "unknown" else client

/-- The limiter's answer: the request is passed on, or refused with a `Retry-After` header. -/
inductive Verdict
  | passed
  | limited (retryAfter : ℤ)
deriving DecidableEq, Repr

structure InMemoryRateLimiter (K : Type) where
  limit : ℤ
  exempt : List String
  hits : Dict String (List K)
  lastSweep : K

namespace InMemoryRateLimiter

/-- The constructor. -/
def new (limit : ℤ) (exempt : List String) : InMemoryRateLimiter K := ⟨limit, exempt, Dict.empty, 0⟩

/-- `self._hits[client]` without the entry that the lookup makes. -/
def bucket (s : InMemoryRateLimiter K) (client : String) : List K := (s.hits.get? client).getD []

def setBucket (s : InMemoryRateLimiter K) (client : String) (hits : List K) :
    InMemoryRateLimiter K :=
  { s with hits := s.hits.set client hits }

/-- Whether a sweep deletes the bucket: it is empty, or its newest hit is old. -/
def isStale (now : K) (hits : List K) : Bool :=
  match hits.getLast? with
  | none => true
  | some t => isOld now t

/-- `_maybe_sweep`. -/
def maybeSweep (now : K) (s : InMemoryRateLimiter K) : InMemoryRateLimiter K :=
  if now - s.lastSweep < 60 then s
  else { s with lastSweep := now, hits := s.hits.filter fun _ hits => !isStale now hits }

/-- The `Retry-After` of a refusal; `int` cuts towards zero, so below zero both it and the floor
    give way to 0. -/
def retryAfter [FloorRing K] (now : K) : List K → ℤ
  | [] => 60
  | t :: _ => max 0 ⌊(60 : K) - (now - t)⌋

/-- `dispatch`, with the sweep that follows an admitted request as a parameter. -/
def dispatchWith [FloorRing K] (sweep : K → InMemoryRateLimiter K → InMemoryRateLimiter K)
    (s : InMemoryRateLimiter K) (r : HttpRequest K) : Verdict × InMemoryRateLimiter K :=
  if r.path ∈ s.exempt then (.passed, s)
  else
    let hits := (s.bucket r.bucketKey).dropWhile (isOld r.now)
    if s.limit ≤ hits.length then
      (.limited (retryAfter r.now hits), s.setBucket r.bucketKey hits)
    else
      (.passed, sweep r.now (s.setBucket r.bucketKey (hits ++ [r.now])))

/-- `dispatch`. -/
def dispatch [FloorRing K] (s : InMemoryRateLimiter K) (r : HttpRequest K) :
    Verdict × InMemoryRateLimiter K :=
  dispatchWith maybeSweep s r

/-- The limiter after a list of requests. -/
def runWith [FloorRing K] (sweep : K → InMemoryRateLimiter K → InMemoryRateLimiter K)
    (s : InMemoryRateLimiter K) (requests : List (HttpRequest K)) : InMemoryRateLimiter K :=
  requests.foldl (fun s r => (dispatchWith sweep s r).2) s

/-- The requests of a list that the limiter passes on, in order. -/
def admittedWith [FloorRing K] (sweep : K → InMemoryRateLimiter K → InMemoryRateLimiter K) :
    InMemoryRateLimiter K → List (HttpRequest K) → List (HttpRequest K)
  | _, [] => []
  | s, r :: rest =>
    let (verdict, s') := dispatchWith sweep s r
    if verdict = .passed then r :: admittedWith sweep s' rest else admittedWith sweep s' rest

/-- The limiter of the server after a list of requests. -/
def run [FloorRing K] (s : InMemoryRateLimiter K) (requests : List (HttpRequest K)) :
    InMemoryRateLimiter K :=
  runWith maybeSweep s requests

/-- The requests the limiter of the server passes on. -/
def admitted [FloorRing K] (s : InMemoryRateLimiter K) (requests : List (HttpRequest K)) :
    List (HttpRequest K) :=
  admittedWith maybeSweep s requests

/-! ## The sliding window -/

/-- The times of a client's requests. -/
def timesOf (client : String) (log : List (HttpRequest K)) : List K :=
  (log.filter fun q => q.bucketKey = client).map HttpRequest.now

/-- What a limiter with `hits` in the window answers. -/
def verdictOf [FloorRing K] (limit : ℤ) (now : K) (hits : List K) : Verdict :=
  if limit ≤ hits.length then .limited (retryAfter now hits) else .passed

/-- The answer of the sliding window: it looks at the client's admitted requests and nothing
    else. -/
def windowVerdict [FloorRing K] (limit : ℤ) (log : List (HttpRequest K)) (r : HttpRequest K) :
    Verdict :=
  verdictOf limit r.now (recent r.now (timesOf r.bucketKey log))

/-- The requests the sliding window admits. -/
def windowLog [FloorRing K] (limit : ℤ) (requests : List (HttpRequest K)) : List (HttpRequest K) :=
  requests.foldl (fun log r => if windowVerdict limit log r = .passed then log ++ [r] else log) []

omit [CommRing K] [LinearOrder K] in
theorem timesOf_concat (client : String) (log : List (HttpRequest K)) (r : HttpRequest K) :
    timesOf client (log ++ [r])
      = timesOf client log ++ if r.bucketKey = client then [r.now] else [] := by
  unfold timesOf
  rw [List.filter_append, List.map_append]
  by_cases h : r.bucketKey = client <;> simp [h]

/-- Leaving out the requests of other clients leaves out their part of what is admitted. -/
theorem windowLog_filter [FloorRing K] (limit : ℤ) (client : String)
    (requests : List (HttpRequest K)) :
    windowLog limit (requests.filter fun q => q.bucketKey = client)
      = (windowLog limit requests).filter fun q => q.bucketKey = client := by
  induction requests using List.reverseRecOn with
  | nil => rfl
  | append_singleton requests r ih =>
    rw [List.filter_append]
    unfold windowLog at ih ⊢
    rw [List.foldl_append, List.foldl_append, ih]
    generalize requests.foldl _ [] = log
    by_cases hr : r.bucketKey = client
    · -- The window looks at the client's own part of the log.
      have hsame : windowVerdict limit (log.filter fun q => q.bucketKey = client) r
          = windowVerdict limit log r := by
        unfold windowVerdict timesOf
        rw [hr, List.filter_filter]
        simp
      simp only [hr, decide_true, List.filter_cons_of_pos, List.filter_nil, List.foldl_cons,
        List.foldl_nil, hsame]
      split
      · simp [hr]
      · rfl
    · simp only [hr, decide_false, Bool.false_eq_true, not_false_eq_true, List.filter_cons_of_neg,
        List.filter_nil, List.foldl_nil, List.foldl_cons]
      split
      · simp [hr]
      · rfl

/-! ## The limiter is the sliding window -/

/-- The limiter's buckets hold, from the time `t` on, what the log of admitted requests has in the
    window. -/
structure Tracks (limit : ℤ) (exempt : List String) (log : List (HttpRequest K)) (t : K)
    (s : InMemoryRateLimiter K) : Prop where
  limit_eq : s.limit = limit
  exempt_eq : s.exempt = exempt
  sorted : ∀ client, (s.bucket client).Pairwise (· ≤ ·)
  past : ∀ client, ∀ hit ∈ s.bucket client, hit ≤ t
  window : ∀ client now, t ≤ now →
    recent now (s.bucket client) = recent now (timesOf client log)

/-- A sweep that cannot be seen: a bucket it touches becomes empty, and had no hit in the window
    any more. -/
structure Unseen (sweep : K → InMemoryRateLimiter K → InMemoryRateLimiter K) : Prop where
  limit_eq : ∀ now s, (sweep now s).limit = s.limit
  exempt_eq : ∀ now s, (sweep now s).exempt = s.exempt
  bucket : ∀ now s client, (s.bucket client).Pairwise (· ≤ ·) →
    (sweep now s).bucket client = s.bucket client ∨
      (sweep now s).bucket client = [] ∧ ∀ hit ∈ s.bucket client, isOld now hit = true

omit [CommRing K] [LinearOrder K] in
theorem bucket_setBucket (s : InMemoryRateLimiter K) (client : String) (hits : List K)
    (client' : String) :
    (s.setBucket client hits).bucket client' = if client' = client then hits else s.bucket client' := by
  unfold bucket setBucket
  rw [Dict.get?_set]
  split <;> rfl

theorem mem_recent {now hit : K} {hits : List K} :
    hit ∈ recent now hits ↔ hit ∈ hits ∧ isOld now hit = false := by
  simp [recent]

section Ordered

variable [IsStrictOrderedRing K]

theorem isOld_iff {now hit : K} : isOld now hit = true ↔ hit < now - 60 := by
  unfold isOld
  rw [decide_eq_true_eq]
  constructor
  · intro h; linarith
  · intro h; linarith

/-- What is old stays old, and what is older is old. -/
theorem isOld_mono {now now' hit hit' : K} (hnow : now ≤ now') (hhit : hit' ≤ hit)
    (h : isOld now hit = true) : isOld now' hit' = true := by
  rw [isOld_iff] at h ⊢
  linarith

theorem dropWhile_isOld {now : K} {hits : List K} (h : hits.Pairwise (· ≤ ·)) :
    hits.dropWhile (isOld now) = recent now hits :=
  dropWhile_eq_filter (fun _ _ hle => isOld_mono le_rfl hle) h

/-- Dropping old hits now cannot be seen later. -/
theorem recent_recent {now now' : K} (h : now ≤ now') (hits : List K) :
    recent now' (recent now hits) = recent now' hits := by
  unfold recent
  rw [List.filter_filter]
  refine List.filter_congr fun hit _ => ?_
  cases hold : isOld now hit with
  | true => simp [isOld_mono h le_rfl hold]
  | false => simp

/-- The sweep of the server is one that cannot be seen. -/
theorem maybeSweep_unseen : Unseen (maybeSweep : K → _ → InMemoryRateLimiter K) where
  limit_eq now s := by unfold maybeSweep; split <;> rfl
  exempt_eq now s := by unfold maybeSweep; split <;> rfl
  bucket now s client hsorted := by
    unfold maybeSweep
    split
    · exact Or.inl rfl
    · unfold bucket at hsorted ⊢
      rw [Dict.get?_filter]
      cases hget : s.hits.get? client with
      | none => exact Or.inl rfl
      | some hits =>
        rw [hget, Option.getD_some] at hsorted
        cases hstale : isStale now hits with
        | false => simp [Option.filter_some, hstale]
        | true =>
          refine Or.inr ⟨by simp [Option.filter_some, hstale], fun hit hhit => ?_⟩
          rw [Option.getD_some] at hhit
          unfold isStale at hstale
          split at hstale
          · next hlast =>
            rw [List.getLast?_eq_none_iff.1 hlast] at hhit
            exact absurd hhit (by simp)
          · next newest hlast =>
            obtain ⟨front, rfl⟩ := List.getLast?_eq_some_iff.1 hlast
            refine isOld_mono le_rfl ?_ hstale
            rcases List.mem_append.1 hhit with hhit | hhit
            · exact (List.pairwise_append.1 hsorted).2.2 hit hhit newest (by simp)
            · exact (List.mem_singleton.1 hhit).le

omit [IsStrictOrderedRing K] in
theorem unseen_none : Unseen (fun _ s => s : K → _ → InMemoryRateLimiter K) :=
  ⟨fun _ _ => rfl, fun _ _ => rfl, fun _ _ _ _ => Or.inl rfl⟩

namespace Tracks

variable {limit : ℤ} {exempt : List String} {log : List (HttpRequest K)} {t : K}
  {s : InMemoryRateLimiter K}

omit [IsStrictOrderedRing K] in
theorem new (limit : ℤ) (exempt : List String) (t : K) :
    Tracks limit exempt [] t (InMemoryRateLimiter.new limit exempt) :=
  ⟨rfl, rfl, fun _ => List.Pairwise.nil, fun _ _ h => absurd h (by simp [bucket, InMemoryRateLimiter.new]),
    fun _ _ _ => rfl⟩

omit [IsStrictOrderedRing K] in
/-- What holds from `t` on holds from a later time on. -/
theorem mono (h : Tracks limit exempt log t s) {t' : K} (ht : t ≤ t') :
    Tracks limit exempt log t' s :=
  ⟨h.limit_eq, h.exempt_eq, h.sorted, fun client hit hhit => (h.past client hit hhit).trans ht,
    fun client now hnow => h.window client now (ht.trans hnow)⟩

/-- The client's own hits in the window. -/
theorem hits_eq (h : Tracks limit exempt log t s) {now : K} (ht : t ≤ now) (client : String) :
    (s.bucket client).dropWhile (isOld now) = recent now (timesOf client log) := by
  rw [dropWhile_isOld (h.sorted client), h.window client now ht]

theorem sweep (h : Tracks limit exempt log t s)
    {sweep : K → InMemoryRateLimiter K → InMemoryRateLimiter K} (hsweep : Unseen sweep) :
    Tracks limit exempt log t (sweep t s) := by
  refine ⟨(hsweep.limit_eq t s).trans h.limit_eq, (hsweep.exempt_eq t s).trans h.exempt_eq,
    fun client => ?_, fun client hit hhit => ?_, fun client now hnow => ?_⟩ <;>
    rcases hsweep.bucket t s client (h.sorted client) with heq | ⟨heq, hold⟩
  · rw [heq]; exact h.sorted client
  · rw [heq]; exact List.Pairwise.nil
  · rw [heq] at hhit; exact h.past client hit hhit
  · rw [heq] at hhit; exact absurd hhit (by simp)
  · rw [heq]; exact h.window client now hnow
  · rw [heq, ← h.window client now hnow]
    refine (List.filter_eq_nil_iff.2 fun hit hhit => ?_).symm
    simp [isOld_mono hnow le_rfl (hold hit hhit)]

/-- The bucket of a client that came is replaced by its hits in the window. -/
theorem refresh (h : Tracks limit exempt log t s) {now : K} (ht : t ≤ now) (client : String) :
    Tracks limit exempt log now
      (s.setBucket client (recent now (timesOf client log))) := by
  have hsub : ∀ hit ∈ recent now (timesOf client log), hit ∈ s.bucket client := by
    intro hit hhit
    rw [← h.window client now ht] at hhit
    exact (mem_recent.1 hhit).1
  refine ⟨h.limit_eq, h.exempt_eq, fun client' => ?_, fun client' hit hhit => ?_,
    fun client' now' hnow => ?_⟩
  · rw [bucket_setBucket]
    split
    · rw [← h.window client now ht]
      exact (h.sorted client).filter _
    · exact h.sorted client'
  · rw [bucket_setBucket] at hhit
    split at hhit
    · exact (h.past client hit (hsub hit hhit)).trans ht
    · exact (h.past client' hit hhit).trans ht
  · rw [bucket_setBucket]
    split
    · next heq => rw [heq, recent_recent hnow]
    · exact h.window client' now' (ht.trans hnow)

/-- An admitted request is a new hit of its client and a new entry of the log. -/
theorem pass (h : Tracks limit exempt log t s) {r : HttpRequest K} (ht : t ≤ r.now) :
    Tracks limit exempt (log ++ [r]) r.now
      (s.setBucket r.bucketKey (recent r.now (timesOf r.bucketKey log) ++ [r.now])) := by
  have hkept := h.refresh ht r.bucketKey
  have hpast := hkept.past r.bucketKey
  have hsorted := hkept.sorted r.bucketKey
  rw [bucket_setBucket, if_pos rfl] at hpast hsorted
  refine ⟨h.limit_eq, h.exempt_eq, fun client => ?_, fun client hit hhit => ?_,
    fun client now hnow => ?_⟩
  · rw [bucket_setBucket]
    split
    · refine List.pairwise_append.2 ⟨hsorted, List.pairwise_singleton _ _, fun hit hhit b hb => ?_⟩
      rw [List.mem_singleton.1 hb]
      exact hpast hit hhit
    · exact h.sorted client
  · rw [bucket_setBucket] at hhit
    split at hhit
    · rcases List.mem_append.1 hhit with hhit | hhit
      · exact hpast hit hhit
      · exact (List.mem_singleton.1 hhit).le
    · exact (h.past client hit hhit).trans ht
  · rw [bucket_setBucket, timesOf_concat]
    split
    · next heq =>
      subst heq
      rw [if_pos rfl]
      show List.filter _ (_ ++ _) = List.filter _ (_ ++ _)
      rw [List.filter_append, List.filter_append]
      congr 1
      exact recent_recent hnow _
    · next hne =>
      rw [if_neg (Ne.symm hne), List.append_nil]
      exact h.window client now (ht.trans hnow)

end Tracks

variable [FloorRing K]

/-- One request, with any sweep that cannot be seen: the answer is that of the sliding window, and
    the buckets go on tracking the log. -/
theorem Tracks.dispatch {limit : ℤ} {exempt : List String} {log : List (HttpRequest K)} {t : K}
    {s : InMemoryRateLimiter K} (h : Tracks limit exempt log t s)
    {sweep : K → InMemoryRateLimiter K → InMemoryRateLimiter K} (hsweep : Unseen sweep)
    {r : HttpRequest K} (ht : t ≤ r.now) (hpath : r.path ∉ exempt) :
    (dispatchWith sweep s r).1 = windowVerdict limit log r ∧
      Tracks limit exempt (if windowVerdict limit log r = .passed then log ++ [r] else log) r.now
        (dispatchWith sweep s r).2 := by
  unfold dispatchWith windowVerdict verdictOf
  rw [h.exempt_eq, if_neg hpath]
  simp only [h.hits_eq ht, h.limit_eq]
  split
  · exact ⟨rfl, by simpa using h.refresh ht r.bucketKey⟩
  · exact ⟨rfl, by simpa using (h.pass ht).sweep hsweep⟩

/-- A run: by induction from its end, the requests before the last one having come before it. -/
theorem runWith_tracks {sweep : K → InMemoryRateLimiter K → InMemoryRateLimiter K}
    (hsweep : Unseen sweep) (limit : ℤ) (exempt : List String) (requests : List (HttpRequest K))
    (hpaths : ∀ q ∈ requests, q.path ∉ exempt)
    (htimes : requests.Pairwise fun q q' => q.now ≤ q'.now) :
    ∀ t, (∀ q ∈ requests, q.now ≤ t) →
      Tracks limit exempt (windowLog limit requests) t
        (runWith sweep (InMemoryRateLimiter.new limit exempt) requests) := by
  induction requests using List.reverseRecOn with
  | nil => exact fun t _ => Tracks.new limit exempt t
  | append_singleton requests r ih =>
    intro t ht
    obtain ⟨htimes', -, hlast⟩ := List.pairwise_append.1 htimes
    have htracks := ih (fun q hq => hpaths q (by simp [hq])) htimes' r.now
      fun q hq => hlast q hq r (by simp)
    have hstep := (htracks.dispatch hsweep le_rfl (hpaths r (by simp))).2
    unfold runWith windowLog at hstep ⊢
    rw [List.foldl_append, List.foldl_append]
    exact hstep.mono (ht r (by simp))

omit [IsStrictOrderedRing K] in
theorem admittedWith_concat (sweep : K → InMemoryRateLimiter K → InMemoryRateLimiter K)
    (requests : List (HttpRequest K)) (r : HttpRequest K) :
    ∀ s, admittedWith sweep s (requests ++ [r]) = admittedWith sweep s requests ++
      if (dispatchWith sweep (runWith sweep s requests) r).1 = .passed then [r] else [] := by
  induction requests with
  | nil => intro s; rfl
  | cons q requests ih =>
    intro s
    simp only [List.cons_append, admittedWith, ih]
    split <;> rfl

/-- The requests the limiter passes on are those the sliding window admits. -/
theorem admittedWith_eq {sweep : K → InMemoryRateLimiter K → InMemoryRateLimiter K}
    (hsweep : Unseen sweep) (limit : ℤ) (exempt : List String) (requests : List (HttpRequest K))
    (hpaths : ∀ q ∈ requests, q.path ∉ exempt)
    (htimes : requests.Pairwise fun q q' => q.now ≤ q'.now) :
    admittedWith sweep (InMemoryRateLimiter.new limit exempt) requests = windowLog limit requests := by
  induction requests using List.reverseRecOn with
  | nil => rfl
  | append_singleton requests r ih =>
    obtain ⟨htimes', -, hlast⟩ := List.pairwise_append.1 htimes
    have hpaths' : ∀ q ∈ requests, q.path ∉ exempt := fun q hq => hpaths q (by simp [hq])
    have htracks := runWith_tracks hsweep limit exempt requests hpaths' htimes' r.now
      fun q hq => hlast q hq r (by simp)
    rw [admittedWith_concat, (htracks.dispatch hsweep le_rfl (hpaths r (by simp))).1,
      ih hpaths' htimes']
    unfold windowLog
    rw [List.foldl_append]
    simp only [List.foldl_cons, List.foldl_nil]
    split
    · rfl
    · exact List.append_nil _

omit [IsStrictOrderedRing K] in
theorem mem_windowLog {limit : ℤ} {requests : List (HttpRequest K)} {q : HttpRequest K}
    (h : q ∈ windowLog limit requests) : q ∈ requests := by
  induction requests using List.reverseRecOn with
  | nil => exact h
  | append_singleton requests r ih =>
    unfold windowLog at h ih
    rw [List.foldl_append] at h
    simp only [List.foldl_cons, List.foldl_nil] at h
    split at h
    · rcases List.mem_append.1 h with h | h
      · exact List.mem_append_left _ (ih h)
      · exact List.mem_append_right _ h
    · exact List.mem_append_left _ (ih h)

omit [FloorRing K] in
/-- The hits in the window are the client's requests in the closed interval of 60 seconds that
    ends now. -/
theorem recent_length {log : List (HttpRequest K)} {r : HttpRequest K}
    (h : ∀ q ∈ log, q.now ≤ r.now) :
    (recent r.now (timesOf r.bucketKey log)).length = log.countP fun q =>
      q.bucketKey = r.bucketKey ∧ r.now - 60 ≤ q.now ∧ q.now ≤ r.now := by
  unfold recent timesOf
  rw [List.filter_map, List.length_map, List.filter_filter, ← List.countP_eq_length_filter]
  refine List.countP_congr fun q hq => ?_
  have hold : isOld r.now q.now = false ↔ r.now - 60 ≤ q.now := by
    rw [← Bool.not_eq_true, isOld_iff, not_lt]
  simp only [Function.comp_apply, Bool.and_eq_true, Bool.not_eq_true', hold, decide_eq_true_eq,
    h q hq, and_true]
  exact and_comm

end Ordered

end InMemoryRateLimiter

open InMemoryRateLimiter in
/-- For every sequence of requests to paths that are not exempt, at times that do not decrease, and
    every limit: a request is passed on exactly if fewer than `limit` earlier requests of its client
    were passed on in the closed interval of 60 seconds that ends now. The answer, with its
    `Retry-After`, is the one the client would get if no other client had come, and the one it would
    get if no bucket were ever swept. -/
theorem rate_limiter_is_sliding_window {K : Type} [CommRing K] [LinearOrder K]
    [IsStrictOrderedRing K] [FloorRing K] (limit : ℤ) (exempt : List String)
    (before : List (HttpRequest K)) (r : HttpRequest K)
    (hpaths : ∀ q ∈ before ++ [r], q.path ∉ exempt)
    (htimes : (before ++ [r]).Pairwise fun q q' => q.now ≤ q'.now) :
    let s := InMemoryRateLimiter.new limit exempt
    let verdict := ((s.run before).dispatch r).1
    (verdict = .passed ↔ ((s.admitted before).countP fun q =>
      q.bucketKey = r.bucketKey ∧ r.now - 60 ≤ q.now ∧ q.now ≤ r.now : ℤ) < limit) ∧
      verdict = ((s.run (before.filter fun q => q.bucketKey = r.bucketKey)).dispatch r).1 ∧
      verdict = (dispatchWith (fun _ s => s) (runWith (fun _ s => s) s before) r).1 := by
  intro s verdict
  obtain ⟨htimes', -, hlast⟩ := List.pairwise_append.1 htimes
  have hpaths' : ∀ q ∈ before, q.path ∉ exempt := fun q hq => hpaths q (by simp [hq])
  have hearlier : ∀ q ∈ before, q.now ≤ r.now := fun q hq => hlast q hq r (by simp)
  have hanswer : ∀ {sweep : K → InMemoryRateLimiter K → InMemoryRateLimiter K}, Unseen sweep →
      ∀ requests, (∀ q ∈ requests, q ∈ before) →
      (requests.Pairwise fun q q' => q.now ≤ q'.now) →
      (dispatchWith sweep (runWith sweep s requests) r).1
        = windowVerdict limit (windowLog limit requests) r := by
    intro sweep hsweep requests hsub hsorted
    have htracks := runWith_tracks hsweep limit exempt requests (fun q hq => hpaths' q (hsub q hq))
      hsorted r.now fun q hq => hearlier q (hsub q hq)
    exact (htracks.dispatch hsweep le_rfl (hpaths r (by simp))).1
  have hverdict : verdict = windowVerdict limit (windowLog limit before) r :=
    hanswer maybeSweep_unseen before (fun _ hq => hq) htimes'
  refine ⟨?_, ?_, hverdict.trans (hanswer unseen_none before (fun _ hq => hq) htimes').symm⟩
  · rw [hverdict, show s.admitted before = windowLog limit before from
      admittedWith_eq maybeSweep_unseen limit exempt before hpaths' htimes',
      ← recent_length fun q hq => hearlier q (mem_windowLog hq)]
    unfold windowVerdict verdictOf
    split
    · next hfull => simp [not_lt.2 hfull]
    · next hfree => simp [not_le.1 hfree]
  · rw [hverdict, show (s.run (before.filter fun q => q.bucketKey = r.bucketKey)).dispatch r
      = dispatchWith maybeSweep (runWith maybeSweep s _) r from rfl,
      hanswer maybeSweep_unseen _ (fun q hq => (List.mem_filter.1 hq).1) (htimes'.filter _),
      windowLog_filter]
    unfold windowVerdict timesOf
    rw [List.filter_filter]
    simp

/-- Three requests of one client and one of another, with a limit of two a minute: the third one is
    refused, and would not be a minute after the first. -/
theorem rate_limiter_sample :
    let s : InMemoryRateLimiter ℚ := .new 2 ["/health"]
    let before : List (HttpRequest ℚ) := [⟨"/orders", some "a", 100⟩, ⟨"/orders", some "b", 110⟩,
      ⟨"/orders", some "a", 130⟩]
    let r : HttpRequest ℚ := ⟨"/orders", some "a", 155⟩
    ((s.run before).dispatch r).1 = .limited 5 ∧
      (((s.run before).dispatch r).1 = .passed ↔ ((s.admitted before).countP fun q =>
        q.bucketKey = r.bucketKey ∧ r.now - 60 ≤ q.now ∧ q.now ≤ r.now : ℤ) < 2) := by
  intro s before r
  exact ⟨by decide +kernel, (rate_limiter_is_sliding_window 2 ["/health"] before r
    (by decide +kernel) (by decide +kernel)).1⟩

end TradingHub
