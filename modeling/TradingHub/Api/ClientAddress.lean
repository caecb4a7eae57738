import Mathlib.Data.List.Basic
import Mathlib.Tactic.Common
import TradingHub.Library.IpAddress

set_option autoImplicit false

/-! # The address a request came from

`app/api/client_address.py`: behind a trusted proxy, the rightmost hop of `X-Forwarded-For` that is
not a proxy itself. What stands further left in the header is never reached, whatever it is. Of
several header lines only the first is read. -/

namespace TradingHub

open Library

namespace ClientAddress

open Library.PyString

/-! ## The module -/

/-- What `resolve_client_ip` reads of a request: `request.client.host`, where there is a client, and
    the header lines, with names in lower case. -/
structure Request where
  client : Option String
  headers : List (String × String)

/-- `request.headers.get(name, default)`: the first line of that name. -/
def Request.header (request : Request) (name default : String) : String :=
  (request.headers.lookup name).getD default

/-- The lines of a header. -/
def Request.lines (request : Request) (name : String) : List String :=
  (request.headers.filter fun line => line.1 = name).map (·.2)

/-- `_parse_networks`. -/
def parseNetworks (raw : List String) : List IpNetwork :=
  raw.filterMap fun entry =>
    let entry := strip entry
    if entry = "" then none else ipNetwork entry

/-- `_is_trusted`. -/
def isTrusted (candidate : String) (networks : List IpNetwork) : Bool :=
  match ipAddress candidate with
  | none => false
  | some address => networks.any (·.contains address)

/-- Without networks nothing is trusted. -/
theorem isTrusted_nil (candidate : String) : isTrusted candidate [] = false := by
  unfold isTrusted
  split
  · rfl
  · rfl

/-- The hops of a header, less the blank ones. -/
def hops (forwarded : String) : List String :=
  ((split ',' forwarded).filter fun hop => strip hop ≠ "").map strip

/-- `resolve_client_ip`. The first argument is `get_settings().trusted_proxy_ips`. -/
def resolveClientIp (trustedProxyIps : List String) (request : Request)
    (trusted : Option (List String)) : Option String :=
  let peer := request.client
  let networks := parseNetworks (trusted.getD trustedProxyIps)
  match peer with
  | none => none
  | some peer =>
    if networks.isEmpty || !isTrusted peer networks then some peer
    else
      let forwarded := request.header "x-forwarded-for" ""
      ((hops forwarded).reverse.find? fun candidate => !isTrusted candidate networks).getD peer

/-! ## Hops -/

variable {networks : List IpNetwork}

theorem hops_append (p h : String) : hops (p ++ "," ++ h) = hops p ++ hops h := by
  unfold hops
  rw [show ("," : String) = String.singleton ',' from rfl, split_append, List.filter_append,
    List.map_append]

theorem hops_intercalate (first : String) (later : List String) :
    hops (",".intercalate (first :: later)) = hops first ++ later.flatMap hops := by
  induction later generalizing first with
  | nil => simp
  | cons second later ih =>
    rw [String.intercalate_cons_cons, hops_append, ih, List.flatMap_cons]

theorem header_eq_headD (request : Request) (name default : String) :
    request.header name default = (request.lines name).headD default := by
  unfold Request.header Request.lines
  induction request.headers with
  | nil => rfl
  | cons line headers ih =>
    rw [List.lookup_cons, List.filter_cons]
    by_cases hname : line.1 = name
    · simp [hname]
    · have hne : (name == line.1) = false := by simpa using Ne.symm hname
      rw [hne, if_neg (by simpa using hname)]
      exact ih

/-- `hop` is the last of the hops that is not a trusted proxy. -/
def RightmostUntrusted (networks : List IpNetwork) (chain : List String) (hop : String) : Prop :=
  ∃ left right, chain = left ++ hop :: right ∧ isTrusted hop networks = false ∧
    ∀ proxy ∈ right, isTrusted proxy networks = true

theorem find_eq_some_iff {chain : List String} {hop : String} :
    chain.reverse.find? (fun candidate => !isTrusted candidate networks) = some hop ↔
      RightmostUntrusted networks chain hop := by
  rw [List.find?_eq_some_iff_append]
  constructor
  · rintro ⟨hhop, right, left, hchain, hright⟩
    refine ⟨left.reverse, right.reverse, ?_, by simpa using hhop, by simpa using hright⟩
    have hreverse := congrArg List.reverse hchain
    simpa using hreverse
  · rintro ⟨left, right, rfl, hhop, hright⟩
    exact ⟨by simpa using hhop, right.reverse, left.reverse, by simp, by simpa using hright⟩

theorem find_eq_none_iff {chain : List String} :
    chain.reverse.find? (fun candidate => !isTrusted candidate networks) = none ↔
      ∀ hop ∈ chain, isTrusted hop networks = true := by
  simp

/-- The last hop that is not a proxy is there as soon as some hop is not one. -/
theorem exists_rightmostUntrusted {chain : List String}
    (h : ∃ hop ∈ chain, isTrusted hop networks = false) :
    ∃ hop, RightmostUntrusted networks chain hop := by
  obtain ⟨hop, hmem, huntrusted⟩ := h
  cases hfind : chain.reverse.find? fun candidate => !isTrusted candidate networks with
  | none => exact absurd (find_eq_none_iff.1 hfind hop hmem) (by simp [huntrusted])
  | some hop' => exact ⟨hop', find_eq_some_iff.1 hfind⟩

/-- Nothing in front of a chain reaches past its last hop that is not a proxy. -/
theorem RightmostUntrusted.append_left {chain : List String} {hop : String}
    (h : RightmostUntrusted networks chain hop) (front : List String) :
    RightmostUntrusted networks (front ++ chain) hop := by
  obtain ⟨left, right, rfl, hrest⟩ := h
  exact ⟨front ++ left, right, by simp, hrest⟩

/-- Proxies behind a chain are passed over. -/
theorem RightmostUntrusted.append_right {chain : List String} {hop : String}
    (h : RightmostUntrusted networks chain hop) {proxies : List String}
    (hproxies : ∀ proxy ∈ proxies, isTrusted proxy networks = true) :
    RightmostUntrusted networks (chain ++ proxies) hop := by
  obtain ⟨left, right, rfl, hhop, hright⟩ := h
  refine ⟨left, right ++ proxies, by simp, hhop, fun proxy hproxy => ?_⟩
  exact (List.mem_append.1 hproxy).elim (hright proxy) (hproxies proxy)

theorem RightmostUntrusted.unique {chain : List String} {hop hop' : String}
    (h : RightmostUntrusted networks chain hop) (h' : RightmostUntrusted networks chain hop') :
    hop = hop' :=
  Option.some.inj ((find_eq_some_iff.2 h).symm.trans (find_eq_some_iff.2 h'))

theorem RightmostUntrusted.untrusted {chain : List String} {hop : String}
    (h : RightmostUntrusted networks chain hop) : isTrusted hop networks = false := by
  obtain ⟨_, _, _, hhop, _⟩ := h
  exact hhop

/-! ## What the caller can do to its address -/

variable {trustedProxyIps : List String} {request : Request} {trusted : Option (List String)}

/-- A peer that is not a proxy is the answer. -/
theorem resolveClientIp_of_untrusted
    (h : ∀ peer, request.client = some peer →
      isTrusted peer (parseNetworks (trusted.getD trustedProxyIps)) = false) :
    resolveClientIp trustedProxyIps request trusted = request.client := by
  unfold resolveClientIp
  cases hpeer : request.client with
  | none => rfl
  | some peer => simp [h peer hpeer]

/-- Behind a proxy, the answer is the last hop that is not a proxy, else the peer. -/
theorem resolveClientIp_of_trusted {peer : String} (hclient : request.client = some peer)
    (hpeer : isTrusted peer (parseNetworks (trusted.getD trustedProxyIps)) = true) :
    resolveClientIp trustedProxyIps request trusted =
      ((hops (request.header "x-forwarded-for" "")).reverse.find? fun candidate =>
        !isTrusted candidate (parseNetworks (trusted.getD trustedProxyIps))).getD peer := by
  have hsome : (parseNetworks (trusted.getD trustedProxyIps)).isEmpty = false := by
    cases hnetworks : parseNetworks (trusted.getD trustedProxyIps) with
    | nil =>
      rw [hnetworks, isTrusted_nil] at hpeer
      exact absurd hpeer (by simp)
    | cons => rfl
  simp [resolveClientIp, hclient, hpeer, hsome]

theorem resolveClientIp_eq_hop {peer hop : String} (hclient : request.client = some peer)
    (hpeer : isTrusted peer (parseNetworks (trusted.getD trustedProxyIps)) = true)
    (hhop : RightmostUntrusted (parseNetworks (trusted.getD trustedProxyIps))
      (hops (request.header "x-forwarded-for" "")) hop) :
    resolveClientIp trustedProxyIps request trusted = some hop := by
  rw [resolveClientIp_of_trusted hclient hpeer, find_eq_some_iff.2 hhop, Option.getD_some]

theorem resolveClientIp_eq_peer {peer : String} (hclient : request.client = some peer)
    (hpeer : isTrusted peer (parseNetworks (trusted.getD trustedProxyIps)) = true)
    (hproxies : ∀ hop ∈ hops (request.header "x-forwarded-for" ""),
      isTrusted hop (parseNetworks (trusted.getD trustedProxyIps)) = true) :
    resolveClientIp trustedProxyIps request trusted = some peer := by
  rw [resolveClientIp_of_trusted hclient hpeer, find_eq_none_iff.2 hproxies, Option.getD_none]

example : resolveClientIp [] ⟨some "10.0.0.1", [("x-forwarded-for", "10.0.0.2, 10.0.0.3")]⟩
    (some ["10.0.0.0/24"]) = some "10.0.0.1" := by decide

/-- What a caller puts in front of the header changes nothing: the answer is the last hop that is
    not a proxy. Without a proxy the answer is the peer, and without networks there is no proxy. -/
theorem forged_prefix_ignored {trustedProxyIps : List String} {trusted : Option (List String)}
    {networks : List IpNetwork}
    (hnetworks : parseNetworks (trusted.getD trustedProxyIps) = networks) :
    (∀ (request forged : Request) (peer p h : String),
      request.client = some peer → forged.client = some peer → isTrusted peer networks = true →
      request.headers.lookup "x-forwarded-for" = some h →
      forged.headers.lookup "x-forwarded-for" = some (p ++ "," ++ h) →
      (∃ hop ∈ hops h, isTrusted hop networks = false) →
      ∃ hop, RightmostUntrusted networks (hops h) hop ∧
        resolveClientIp trustedProxyIps request trusted = some hop ∧
        resolveClientIp trustedProxyIps forged trusted = some hop) ∧
    (∀ request : Request,
      (∀ peer, request.client = some peer → isTrusted peer networks = false) →
      resolveClientIp trustedProxyIps request trusted = request.client) ∧
    (networks = [] → ∀ request : Request,
      resolveClientIp trustedProxyIps request trusted = request.client) := by
  subst hnetworks
  refine ⟨?_, fun request h => resolveClientIp_of_untrusted h, fun hnone request => ?_⟩
  · intro request forged peer p h hclient hforged hpeer hline hlonger huntrusted
    obtain ⟨hop, hhop⟩ := exists_rightmostUntrusted huntrusted
    have hheader : request.header "x-forwarded-for" "" = h := by
      rw [Request.header, hline, Option.getD_some]
    have hlong : forged.header "x-forwarded-for" "" = p ++ "," ++ h := by
      rw [Request.header, hlonger, Option.getD_some]
    refine ⟨hop, hhop, resolveClientIp_eq_hop hclient hpeer ?_,
      resolveClientIp_eq_hop hforged hpeer ?_⟩
    · rw [hheader]
      exact hhop
    · rw [hlong, hops_append]
      exact hhop.append_left (hops p)
  · refine resolveClientIp_of_untrusted fun peer _ => ?_
    rw [hnone, isTrusted_nil]

/-- A caller behind a proxy that puts another address in front. -/
theorem forged_prefix_ignored_request :
    ∃ hop, RightmostUntrusted (parseNetworks ["10.0.0.1"]) (hops "203.0.113.7") hop ∧
      resolveClientIp ["10.0.0.1"] ⟨some "10.0.0.1", [("x-forwarded-for", "203.0.113.7")]⟩ none
        = some hop ∧
      resolveClientIp ["10.0.0.1"]
        ⟨some "10.0.0.1", [("x-forwarded-for", "1.2.3.4,203.0.113.7")]⟩ none = some hop :=
  have hnetworks : parseNetworks (Option.getD none ["10.0.0.1"]) = parseNetworks ["10.0.0.1"] := rfl
  (forged_prefix_ignored hnetworks).1 ⟨some "10.0.0.1", [("x-forwarded-for", "203.0.113.7")]⟩
    ⟨some "10.0.0.1", [("x-forwarded-for", "1.2.3.4,203.0.113.7")]⟩ "10.0.0.1" "1.2.3.4"
    "203.0.113.7" rfl rfl (by decide) (by decide) (by decide) ⟨"203.0.113.7", by decide, by decide⟩

/-- The lines of a header resolve as the one line that they are joined to, if and only if only
    proxies stand on the lines behind the first one, or the last hop there that is not a proxy is
    the one of the first line again. -/
theorem header_lines_joined_iff {peer first : String} {later : List String} {joined : Request}
    (hclient : request.client = some peer) (hjoined : joined.client = some peer)
    (hpeer : isTrusted peer (parseNetworks (trusted.getD trustedProxyIps)) = true)
    (hlines : request.lines "x-forwarded-for" = first :: later)
    (hline : joined.lines "x-forwarded-for" = [",".intercalate (first :: later)]) :
    let networks := parseNetworks (trusted.getD trustedProxyIps)
    resolveClientIp trustedProxyIps request trusted
        = resolveClientIp trustedProxyIps joined trusted ↔
      (∀ hop ∈ later.flatMap hops, isTrusted hop networks = true) ∨
        ∃ hop, RightmostUntrusted networks (later.flatMap hops) hop ∧
          RightmostUntrusted networks (hops first) hop := by
  intro networks
  have hfirst : request.header "x-forwarded-for" "" = first := by
    rw [header_eq_headD, hlines, List.headD_cons]
  have hall : joined.header "x-forwarded-for" "" = ",".intercalate (first :: later) := by
    rw [header_eq_headD, hline, List.headD_cons]
  rw [resolveClientIp_of_trusted hclient hpeer, resolveClientIp_of_trusted hjoined hpeer, hfirst,
    hall, hops_intercalate]
  by_cases hproxies : ∀ hop ∈ later.flatMap hops, isTrusted hop networks = true
  · -- The lines behind the first one are passed over.
    rw [List.reverse_append, List.find?_append, find_eq_none_iff.2 hproxies, Option.none_or]
    exact iff_of_true rfl (.inl hproxies)
  · have huntrusted : ∃ hop ∈ later.flatMap hops, isTrusted hop networks = false := by
      push Not at hproxies
      exact hproxies.imp fun hop h => ⟨h.1, by simpa using h.2⟩
    obtain ⟨hop, hhop⟩ := exists_rightmostUntrusted huntrusted
    rw [find_eq_some_iff.2 (hhop.append_left (hops first)), Option.getD_some]
    constructor
    · intro hsame
      refine .inr ⟨hop, hhop, find_eq_some_iff.1 ?_⟩
      cases hfind : (hops first).reverse.find? fun candidate => !isTrusted candidate networks with
      | none =>
        -- The peer is a proxy, the hop is not.
        rw [hfind, Option.getD_none] at hsame
        rw [Option.some.inj hsame] at hpeer
        exact absurd (hpeer.symm.trans hhop.untrusted) (by simp)
      | some hop' =>
        rw [hfind, Option.getD_some] at hsame
        rw [hsame]
    · rintro (h | ⟨hop', hlater, hhops⟩)
      · exact absurd h hproxies
      · rw [find_eq_some_iff.2 hhops, Option.getD_some, hlater.unique hhop]

/-- A proxy that appends its hop as a line of its own, behind one that the caller has sent. -/
theorem header_lines_appended :
    isTrusted "10.0.0.1" (parseNetworks ["10.0.0.1"]) = true ∧
    resolveClientIp ["10.0.0.1"] ⟨some "10.0.0.1",
        [("x-forwarded-for", "1.2.3.4"), ("x-forwarded-for", "203.0.113.7")]⟩ none
      = some "1.2.3.4" ∧
    resolveClientIp ["10.0.0.1"] ⟨some "10.0.0.1", [("x-forwarded-for", "1.2.3.4,203.0.113.7")]⟩ none
      = some "203.0.113.7" := by
  decide

/-- A second proxy that appends the first one as a line of its own. -/
theorem header_lines_joined_proxies :
    resolveClientIp [] ⟨some "10.0.0.2",
        [("x-forwarded-for", "203.0.113.7"), ("x-forwarded-for", "10.0.0.1")]⟩ (some ["10.0.0.0/24"])
      = resolveClientIp [] ⟨some "10.0.0.2", [("x-forwarded-for", "203.0.113.7,10.0.0.1")]⟩
        (some ["10.0.0.0/24"]) :=
  have hlines : Request.lines ⟨some "10.0.0.2",
      [("x-forwarded-for", "203.0.113.7"), ("x-forwarded-for", "10.0.0.1")]⟩ "x-forwarded-for"
        = ["203.0.113.7", "10.0.0.1"] := rfl
  (header_lines_joined_iff rfl rfl (by decide) hlines rfl).2 (.inl (by decide))

end ClientAddress

end TradingHub
