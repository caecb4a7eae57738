import Mathlib.Data.Nat.Notation
import TradingHub.Library.PyString

set_option autoImplicit false

/-! # IP addresses and networks

`ipaddress.ip_address(s)` and `ipaddress.ip_network(s, strict=False)` of Python, on strings: what
they accept, and the addresses in a network. The `ValueError` of a string that is neither a v4 nor
a v6 one is `none`. -/

namespace Library

namespace IpAddress

open PyString

/-! ## Numbers -/

/-- The value of a digit, up to base 16. -/
def digitValue (c : Char) : ℕ :=
  if c.toNat ≤ '9'.toNat then c.toNat - '0'.toNat
  else if c.toNat ≤ 'F'.toNat then c.toNat - 'A'.toNat + 10
  else c.toNat - 'a'.toNat + 10

/-- `int(s, base)`, on a string of digits of the base. -/
def number (base : ℕ) (s : String) : ℕ :=
  s.toList.foldl (fun n c => n * base + digitValue c) 0

/-- `s` is a string of the digits from `0` to `9`. -/
def isDecimal (s : String) : Bool := isAscii s && isDigit s

/-- `s` has hexadecimal digits only. -/
def isHex (s : String) : Bool := s.toList.all "0123456789ABCDEFabcdef".toList.contains

/-- `'%x' % n`. -/
def hex (n : ℕ) : String := String.ofList (Nat.toDigits 16 n)

/-! ## Addresses -/

/-- `_BaseV4._parse_octet`. -/
def parseOctet (octetStr : String) : Option ℕ :=
  if octetStr = "" then none
  else if !isDecimal octetStr then none
  else if 3 < octetStr.length then none
  else if octetStr ≠ "0" ∧ octetStr.toList.head? = some '0' then none
  else
    let octetInt := number 10 octetStr
    if 255 < octetInt then none else some octetInt

/-- `_BaseV4._ip_int_from_string`. -/
def v4FromString (ipStr : String) : Option (BitVec 32) :=
  if ipStr = "" then none
  else
    let octets := split '.' ipStr
    if octets.length ≠ 4 then none
    else (octets.mapM parseOctet).map fun octets =>
      octets.foldl (fun ip octet => (ip <<< 8) ||| BitVec.ofNat 32 octet) 0

/-- `IPv4Address(s)`. -/
def parseV4 (s : String) : Option (BitVec 32) :=
  if '/' ∈ s.toList then none else v4FromString s

/-- `_BaseV6._parse_hextet`: `int("", 16)` raises. -/
def parseHextet (hextetStr : String) : Option ℕ :=
  if !isHex hextetStr then none
  else if 4 < hextetStr.length then none
  else if hextetStr = "" then none
  else some (number 16 hextetStr)

/-- The loop that takes in the hextets of an address. -/
def shiftIn (hextets : List ℕ) (ip : BitVec 128) : BitVec 128 :=
  hextets.foldl (fun ip hextet => (ip <<< 16) ||| BitVec.ofNat 128 hextet) ip

/-- The parts of a v6 address with a v4 address at its end in hexadecimal digits. -/
def convertSuffix (parts : List String) : Option (List String) :=
  let last := parts.getLastD ""
  if '.' ∈ last.toList then
    (parseV4 last).map fun ip : BitVec 32 =>
      parts.dropLast ++ [hex ((ip >>> 16).toNat % 0x10000), hex (ip.toNat % 0x10000)]
  else some parts

/-- How many parts stand before and after the zeros that `::` stands for, and how many zeros these
    are. -/
def layout (parts : List String) : Option (ℕ × ℕ × ℕ) :=
  let first := parts.headD ""
  let last := parts.getLastD ""
  match (List.range' 1 (parts.length - 2)).filter fun i => parts.getD i "" = "" with
  | [] => if parts.length ≠ 8 ∨ first = "" ∨ last = "" then none else some (8, 0, 0)
  | [skipIndex] =>
    let hi := if first = "" then skipIndex - 1 else skipIndex
    let lo := parts.length - skipIndex - 1
    let lo := if last = "" then lo - 1 else lo
    if (first = "" ∧ hi ≠ 0) ∨ (last = "" ∧ lo ≠ 0) ∨ 8 ≤ hi + lo then none
    else some (hi, lo, 8 - (hi + lo))
  | _ => none

/-- `_BaseV6._ip_int_from_string`. -/
def v6FromString (ipStr : String) : Option (BitVec 128) := do
  let parts := split ':' ipStr
  if ipStr = "" ∨ parts.length < 3 then none
  else
    let parts ← convertSuffix parts
    if 9 < parts.length then none
    else
      let (hi, lo, skipped) ← layout parts
      let high ← (parts.take hi).mapM parseHextet
      let low ← (parts.drop (parts.length - lo)).mapM parseHextet
      return shiftIn low (shiftIn high 0 <<< (16 * skipped))

/-- `IPv6Address(s)`, less its scope identifier, which must be there after a `%`. -/
def parseV6 (s : String) : Option (BitVec 128) :=
  if '/' ∈ s.toList then none
  else
    match split '%' s with
    | [addr] => v6FromString addr
    | [addr, scopeId] => if scopeId = "" then none else v6FromString addr
    | _ => none

end IpAddress

/-- An address. -/
inductive IpAddress where
  | v4 (ip : BitVec 32)
  | v6 (ip : BitVec 128)
deriving DecidableEq

/-- `ip_address(s)`. -/
def ipAddress (s : String) : Option IpAddress :=
  ((IpAddress.parseV4 s).map .v4).or ((IpAddress.parseV6 s).map .v6)

/-! ## Networks -/

/-- The addresses of one length that agree with the network address where the mask has ones. The
    network address has no other bits. -/
structure MaskedNetwork (w : ℕ) where
  networkAddress : BitVec w
  netmask : BitVec w
  masked : networkAddress &&& netmask = networkAddress

namespace MaskedNetwork

variable {w : ℕ}

/-- The network of an address: with `strict=False` the bits outside the mask are cleared. -/
def ofAddress (address netmask : BitVec w) : MaskedNetwork w where
  networkAddress := address &&& netmask
  netmask := netmask
  masked := by rw [BitVec.and_assoc, BitVec.and_self]

/-- `_ip_int_from_prefix`. -/
def netmaskOf (prefixlen : ℕ) : BitVec w := BitVec.allOnes w ^^^ (BitVec.allOnes w >>> prefixlen)

/-- `__contains__`, for an address of the same version. -/
def contains (network : MaskedNetwork w) (address : BitVec w) : Bool :=
  address &&& network.netmask = network.networkAddress

end MaskedNetwork

/-- A network. -/
inductive IpNetwork where
  | v4 (network : MaskedNetwork 32)
  | v6 (network : MaskedNetwork 128)

namespace IpNetwork

open PyString IpAddress MaskedNetwork

/-- `_prefix_from_prefix_string`: `int` takes at most 4300 digits. -/
def prefixFromPrefixString (maxPrefixlen : ℕ) (prefixlenStr : String) : Option ℕ :=
  if !isDecimal prefixlenStr ∨ 4300 < prefixlenStr.length then none
  else
    let prefixlen := number 10 prefixlenStr
    if maxPrefixlen < prefixlen then none else some prefixlen

/-- `_prefix_from_ip_int`: the ones of a netmask come first. -/
def prefixFromIpInt (ipInt : BitVec 32) : Option ℕ :=
  let trailingZeroes := ((List.range 32).takeWhile fun i => !ipInt.getLsbD i).length
  let prefixlen := 32 - trailingZeroes
  if (ipInt >>> trailingZeroes).toNat ≠ (1 <<< prefixlen) - 1 then none else some prefixlen

/-- `_prefix_from_ip_string`: a netmask, else a hostmask. -/
def prefixFromIpString (ipStr : String) : Option ℕ :=
  (v4FromString ipStr).bind fun ipInt =>
    (prefixFromIpInt ipInt).or (prefixFromIpInt (ipInt ^^^ BitVec.allOnes 32))

/-- `_split_addr_prefix`: the address, and what stands behind a `/`. -/
def splitAddrPrefix (s : String) : Option (String × Option String) :=
  match split '/' s with
  | [addr] => some (addr, none)
  | [addr, mask] => some (addr, some mask)
  | _ => none

/-- `IPv4Network(s, strict=False)`. -/
def parseV4 (s : String) : Option (MaskedNetwork 32) := do
  let (addr, mask) ← splitAddrPrefix s
  let address ← IpAddress.parseV4 addr
  let prefixlen ← match mask with
    | none => some 32
    | some mask => (prefixFromPrefixString 32 mask).or (prefixFromIpString mask)
  return ofAddress address (netmaskOf prefixlen)

/-- `IPv6Network(s, strict=False)`. -/
def parseV6 (s : String) : Option (MaskedNetwork 128) := do
  let (addr, mask) ← splitAddrPrefix s
  let address ← IpAddress.parseV6 addr
  let prefixlen ← match mask with
    | none => some 128
    | some mask => prefixFromPrefixString 128 mask
  return ofAddress address (netmaskOf prefixlen)

/-- `address in network`: never across versions. -/
def contains : IpNetwork → IpAddress → Bool
  | .v4 network, .v4 ip => network.contains ip
  | .v6 network, .v6 ip => network.contains ip
  | _, _ => false

end IpNetwork

/-- `ip_network(s, strict=False)`. -/
def ipNetwork (s : String) : Option IpNetwork :=
  ((IpNetwork.parseV4 s).map .v4).or ((IpNetwork.parseV6 s).map .v6)

end Library
