import TradingHub.Api.ClientAddress
import TradingHub.Api.RetryAfter

set_option autoImplicit false

/-! # The rate limiter behind proxies

The limiter keys its buckets by what `resolve_client_ip` makes of a request. A caller may write any
`X-Forwarded-For` header, on any number of lines; every trusted proxy that passes the request on
appends the address it was called from, to the header or on a line of its own. The limiter then
answers each caller as if the caller had come alone, straight and without a header
(`forged_headers_share_a_bucket`).

The proxy that the caller reaches has to append to the header that the caller wrote: the first line
is the only one that is read, so a line of its own behind a forged one would not be seen. -/

namespace TradingHub

open ClientAddress InMemoryRateLimiter Library

/-! ## Requests on their way through proxies -/

/-- How a request of the caller at `address` can reach a peer, with which lines of the header: the
    caller connects with lines of its own choice, and each proxy appends the address of its peer. -/
inductive Relayed (networks : List IpNetwork) (address : String) : String → List String → Prop
  | sent (lines : List String) : Relayed networks address address lines
  /-- The proxy passes one line on: what it was given, and its hop. -/
  | joined {peer : String} {lines : List String} (h : Relayed networks address peer lines)
      (proxy hop : String) (hproxy : isTrusted proxy networks = true) (hhop : hops hop = [peer]) :
      Relayed networks address proxy [",".intercalate (lines ++ [hop])]
  /-- The proxy puts its hop on a line of its own, behind another proxy or when there is no line. -/
  | added {peer : String} {lines : List String} (h : Relayed networks address peer lines)
      (proxy hop : String) (hproxy : isTrusted proxy networks = true) (hhop : hops hop = [peer])
      (hbehind : lines = [] ∨ isTrusted peer networks = true) :
      Relayed networks address proxy (lines ++ [hop])

/-- A request on the wire, with the address of the caller it really comes from. -/
structure Visit (K : Type) where
  address : String
  path : String
  now : K
  request : ClientAddress.Request

/-- The caller is not a proxy, and the request came from it. -/
structure Visit.Genuine {K : Type} (networks : List IpNetwork) (v : Visit K) : Prop where
  untrusted : isTrusted v.address networks = false
  named : v.address ≠ ""
  relayed : ∃ peer, v.request.client = some peer ∧
    Relayed networks v.address peer (v.request.lines "x-forwarded-for")

variable {networks : List IpNetwork} {address peer : String} {lines : List String}

theorem hops_intercalate_concat (lines : List String) (hop : String) :
    hops (",".intercalate (lines ++ [hop])) = lines.flatMap hops ++ hops hop := by
  cases lines with
  | nil => simp
  | cons first later => rw [List.cons_append, hops_intercalate]; simp

/-- The caller's address is the last hop of the first line that is not a proxy, and on the other
    lines stand none but proxies. -/
structure Attested (networks : List IpNetwork) (address : String) (lines : List String) : Prop where
  first : RightmostUntrusted networks (hops (lines.headD "")) address
  later : ∀ hop ∈ lines.tail.flatMap hops, isTrusted hop networks = true

theorem Attested.ne_nil (h : Attested networks address lines) : lines ≠ [] := by
  rintro rfl
  obtain ⟨left, right, hsplit, -⟩ := h.first
  rw [List.headD_nil, show hops "" = [] by decide] at hsplit
  simp at hsplit

theorem Attested.all (h : Attested networks address lines) :
    RightmostUntrusted networks (lines.flatMap hops) address := by
  have hlines := h.ne_nil
  obtain ⟨hfirst, hlater⟩ := h
  cases lines with
  | nil => exact absurd rfl hlines
  | cons first later => exact hfirst.append_right hlater

/-- A proxy puts its peer, a proxy too, on a line of its own. -/
theorem Attested.add (h : Attested networks address lines) {hop : String}
    (hhop : ∀ candidate ∈ hops hop, isTrusted candidate networks = true) :
    Attested networks address (lines ++ [hop]) := by
  have hlines := h.ne_nil
  obtain ⟨hfirst, hlater⟩ := h
  cases lines with
  | nil => exact absurd rfl hlines
  | cons first later =>
    refine ⟨hfirst, fun candidate hcandidate => ?_⟩
    rw [List.cons_append, List.tail_cons, List.flatMap_append, List.mem_append] at hcandidate
    exact hcandidate.elim (hlater candidate) fun hmem => hhop candidate (by simpa using hmem)

/-- A request comes from the caller itself, or from a proxy that attests the caller's address. -/
theorem Relayed.attested (h : Relayed networks address peer lines)
    (huntrusted : isTrusted address networks = false) :
    peer = address ∨ isTrusted peer networks = true ∧ Attested networks address lines := by
  induction h with
  | sent lines => exact .inl rfl
  | @joined peer lines h proxy hop hproxy hhop ih =>
    refine .inr ⟨hproxy, ?_, by simp⟩
    rw [List.headD_cons, hops_intercalate_concat, hhop]
    rcases ih with rfl | ⟨hpeer, hattested⟩
    · exact ⟨_, [], rfl, huntrusted, by simp⟩
    · exact hattested.all.append_right (by simpa using hpeer)
  | @added peer lines h proxy hop hproxy hhop hbehind ih =>
    refine .inr ⟨hproxy, ?_⟩
    rcases ih with rfl | ⟨hpeer, hattested⟩
    · -- The caller wrote no line: the proxy's is the first.
      obtain rfl : lines = [] := hbehind.resolve_right (by simp [huntrusted])
      refine ⟨?_, by simp⟩
      rw [List.nil_append, List.headD_cons, hhop]
      exact ⟨[], [], rfl, huntrusted, by simp⟩
    · exact hattested.add (by simpa [hhop] using hpeer)

/-- Whatever the caller wrote, the request is taken as the caller's. -/
theorem Visit.Genuine.resolve {K : Type} {trustedProxyIps : List String} {v : Visit K}
    (h : v.Genuine (parseNetworks trustedProxyIps)) :
    resolveClientIp trustedProxyIps v.request none = some v.address := by
  obtain ⟨peer, hclient, hrelayed⟩ := h.relayed
  rcases hrelayed.attested h.untrusted with rfl | ⟨hpeer, hattested⟩
  · rw [resolveClientIp_of_untrusted, hclient]
    intro peer' hpeer'
    obtain rfl := Option.some.inj (hclient.symm.trans hpeer')
    exact h.untrusted
  · refine resolveClientIp_eq_hop hclient hpeer ?_
    rw [header_eq_headD]
    exact hattested.first

/-! ## What the limiter sees -/

section Limiter

variable {K : Type}

/-- The request as the limiter is given it. -/
def Visit.seen (trustedProxyIps : List String) (v : Visit K) : HttpRequest K :=
  ⟨v.path, resolveClientIp trustedProxyIps v.request none, v.now⟩

/-- The request had it come straight from the caller, without a header. -/
def Visit.straight (v : Visit K) : HttpRequest K := ⟨v.path, some v.address, v.now⟩

theorem Visit.bucketKey_straight {v : Visit K} (h : v.address ≠ "") :
    v.straight.bucketKey = v.address :=
  if_neg h

/-- The caller's requests, straight, are the caller's part of what the limiter is given. -/
theorem straight_filter {trustedProxyIps : List String} {visits : List (Visit K)}
    (hgenuine : ∀ v ∈ visits, v.Genuine (parseNetworks trustedProxyIps)) (address : String) :
    (visits.map (Visit.seen trustedProxyIps)).filter (fun q => q.bucketKey = address)
      = (visits.filter (·.address = address)).map Visit.straight := by
  have hseen : visits.map (Visit.seen trustedProxyIps) = visits.map Visit.straight :=
    List.map_congr_left fun v hv => by rw [Visit.seen, (hgenuine v hv).resolve, Visit.straight]
  rw [hseen, List.filter_map]
  refine congrArg _ (List.filter_congr fun v hv => ?_)
  rw [Function.comp_apply, Visit.bucketKey_straight (hgenuine v hv).named]

variable [CommRing K] [LinearOrder K] [IsStrictOrderedRing K] [FloorRing K]

/-- However callers forge their headers, of the requests of each of them the limiter passes on what
    it would pass on if they came alone, straight and without a header, and at no time are more than
    `limit` of those in the last minute. -/
theorem forged_headers_share_a_bucket (limit : ℤ) (hlimit : 0 ≤ limit) (exempt : List String)
    (trustedProxyIps : List String) (visits : List (Visit K))
    (hgenuine : ∀ v ∈ visits, v.Genuine (parseNetworks trustedProxyIps))
    (hpaths : ∀ v ∈ visits, v.path ∉ exempt)
    (htimes : visits.Pairwise fun v v' => v.now ≤ v'.now) (address : String) :
    let passed := (admitted (new limit exempt)
      (visits.map (Visit.seen trustedProxyIps))).filter fun q => q.bucketKey = address
    passed = admitted (new limit exempt)
        ((visits.filter (·.address = address)).map Visit.straight) ∧
      ∀ now, (∀ v ∈ visits, v.now ≤ now) →
        ((recent now (passed.map HttpRequest.now)).length : ℤ) ≤ limit := by
  intro passed
  have hpaths' : ∀ q ∈ visits.map (Visit.seen trustedProxyIps), q.path ∉ exempt := by
    intro q hq
    obtain ⟨v, hv, rfl⟩ := List.mem_map.1 hq
    exact hpaths v hv
  have htimes' : (visits.map (Visit.seen trustedProxyIps)).Pairwise fun q q' => q.now ≤ q'.now :=
    List.pairwise_map.2 htimes
  have hpassed : passed = (windowLog limit (visits.map (Visit.seen trustedProxyIps))).filter
      fun q => q.bucketKey = address :=
    congrArg _ (admittedWith_eq maybeSweep_unseen limit exempt _ hpaths' htimes')
  constructor
  · have hstraight := straight_filter hgenuine address
    have halone : admitted (new limit exempt)
        ((visits.filter (·.address = address)).map Visit.straight)
          = windowLog limit ((visits.filter (·.address = address)).map Visit.straight) := by
      rw [← hstraight]
      exact admittedWith_eq maybeSweep_unseen limit exempt _
        (fun q hq => hpaths' q (List.mem_filter.1 hq).1) (htimes'.filter _)
    rw [hpassed, ← windowLog_filter, hstraight, halone]
  · intro now hnow
    rw [hpassed]
    refine recent_windowLog_length_le hlimit address _ htimes' now fun q hq => ?_
    obtain ⟨v, hv, rfl⟩ := List.mem_map.1 hq
    exact hnow v hv

end Limiter

/-- A caller behind proxies that writes another address each time, and one that comes straight. The
    second proxy appends to the header once, and once puts its hop on a line of its own. -/
def sampleVisits : List (Visit ℚ) :=
  [⟨"203.0.113.7", "/orders", 1, ⟨some "10.0.0.2",
      [("x-forwarded-for", "1.1.1.1,203.0.113.7,10.0.0.1")]⟩⟩,
    ⟨"198.51.100.2", "/orders", 2, ⟨some "198.51.100.2", []⟩⟩,
    ⟨"203.0.113.7", "/orders", 3, ⟨some "10.0.0.2",
      [("x-forwarded-for", "2.2.2.2,203.0.113.7"), ("x-forwarded-for", "10.0.0.1")]⟩⟩]

theorem forged_headers_sample :
    (admitted (new 1 []) (sampleVisits.map (Visit.seen ["10.0.0.1", "10.0.0.2"]))).filter
        (fun q => q.bucketKey = "203.0.113.7") = [⟨"/orders", some "203.0.113.7", 1⟩] ∧
      admitted (new 1 []) ((sampleVisits.filter (·.address = "203.0.113.7")).map Visit.straight)
        = [⟨"/orders", some "203.0.113.7", 1⟩] := by
  have hgenuine : ∀ v ∈ sampleVisits, v.Genuine (parseNetworks ["10.0.0.1", "10.0.0.2"]) := by
    have hproxied : ∀ forged, Relayed (parseNetworks ["10.0.0.1", "10.0.0.2"]) "203.0.113.7"
        "10.0.0.1" [",".intercalate ([forged] ++ ["203.0.113.7"])] := fun forged =>
      .joined (.sent [forged]) "10.0.0.1" "203.0.113.7" (by decide) (by decide)
    intro v hv
    simp only [sampleVisits, List.mem_cons, List.not_mem_nil, or_false] at hv
    rcases hv with rfl | rfl | rfl
    · exact ⟨by decide, by decide, _, rfl,
        .joined (hproxied "1.1.1.1") "10.0.0.2" "10.0.0.1" (by decide) (by decide)⟩
    · exact ⟨by decide, by decide, _, rfl, .sent []⟩
    · exact ⟨by decide, by decide, _, rfl, .added (hproxied "2.2.2.2") "10.0.0.2" "10.0.0.1"
        (by decide) (by decide) (.inr (by decide))⟩
  have hshare := forged_headers_share_a_bucket 1 (by decide) [] ["10.0.0.1", "10.0.0.2"]
    sampleVisits hgenuine (by simp) (by decide +kernel) "203.0.113.7"
  have halone : admitted (new 1 [])
      ((sampleVisits.filter (·.address = "203.0.113.7")).map Visit.straight)
        = [⟨"/orders", some "203.0.113.7", 1⟩] := by decide +kernel
  exact ⟨hshare.1.trans halone, halone⟩

end TradingHub
