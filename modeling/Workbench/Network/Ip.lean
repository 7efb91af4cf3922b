import Workbench.Library.Prefix
import Workbench.Network.Spec

/-! Network addresses and ranges as the network's description writes them, and what a
route to such a range matches.

Reading an address follows the reader of `std::net`: an IPv4 address in four decimal
numbers without needless zeros, else an IPv6 address in groups of hexadecimal digits,
of which one run of zeros may be left out and the last two may be an IPv4 address. -/

set_option autoImplicit false

namespace Workbench.Network

open Workbench.Library

/-! Addresses, as `std::net` reads them. -/

def toDigit (radix : Nat) (c : Char) : Option Nat :=
  let value :=
    if '0' ≤ c ∧ c ≤ '9' then c.toNat - '0'.toNat
    else if 'a' ≤ c ∧ c ≤ 'f' then c.toNat - 'a'.toNat + 10
    else if 'A' ≤ c ∧ c ≤ 'F' then c.toNat - 'A'.toNat + 10
    else radix
  if value < radix then some value else none

def readNumber (radix maxDigits limit : Nat) (allowZeroPrefix : Bool) (s : List Char) :
    Option (Nat × List Char) :=
  let digits := s.takeWhile fun c => (toDigit radix c).isSome
  let value := (digits.filterMap (toDigit radix)).foldl (fun value d => value * radix + d) 0
  if digits = [] ∨ maxDigits < digits.length ∨ limit ≤ value then none
  else if ¬ allowZeroPrefix ∧ digits.head? = some '0' ∧ 1 < digits.length then none
  else some (value, s.drop digits.length)

/-- Every item but the first has the separator before it. -/
def readSeparator {α : Type} (sep : Char) (index : Nat) (inner : List Char → Option α)
    (s : List Char) : Option α :=
  if index = 0 then inner s
  else if s.head? = some sep then inner s.tail
  else none

def readIpv4Addr (s : List Char) : Option (BitVec 32 × List Char) := do
  let group index s := readSeparator '.' index (readNumber 10 3 256 false) s
  let (a, s) ← group 0 s
  let (b, s) ← group 1 s
  let (c, s) ← group 2 s
  let (d, s) ← group 3 s
  some (.ofNat 32 (((a * 256 + b) * 256 + c) * 256 + d), s)

/-- Reads groups of 16 bits, and tells whether the last two of them were an IPv4 address. -/
def readGroups : (left index : Nat) → List Char → List Nat × Bool × List Char
  | 0, _, s => ([], false, s)
  | left + 1, index, s =>
    let embedded := if 0 < left then readSeparator ':' index readIpv4Addr s else none
    match embedded with
    | some (address, s) => ([address.toNat / 65536, address.toNat % 65536], true, s)
    | none =>
      match readSeparator ':' index (readNumber 16 4 65536 true) s with
      | none => ([], false, s)
      | some (group, s) =>
        let (groups, embedded, s) := readGroups left (index + 1) s
        (group :: groups, embedded, s)

def readIpv6Addr (s : List Char) : Option (BitVec 128 × List Char) :=
  let address (groups : List Nat) : BitVec 128 :=
    .ofNat 128 (groups.foldl (fun value group => value * 65536 + group) 0)
  let (head, embedded, s) := readGroups 8 0 s
  if head.length = 8 then some (address head, s)
  else if embedded then none
  else
    match s with
    | ':' :: ':' :: s =>
      let (tail, _, s) := readGroups (7 - head.length) 0 s
      let zeros := List.replicate (8 - head.length - tail.length) 0
      some (address (head ++ zeros ++ tail), s)
    | _ => none

def IpAddr.fromStr (s : List Char) : Option IpAddr :=
  let read := ((readIpv4Addr s).map fun (address, s) => (IpAddr.v4 address, s)).or
    ((readIpv6Addr s).map fun (address, s) => (IpAddr.v6 address, s))
  match read with
  | some (address, []) => some address
  | _ => none

example : ["::ffff:1.2.3.4", "2001:db8::1", "1.2.3.04", "1:2"].map (IpAddr.fromStr ·.toList) =
    [some (.v6 0xffff01020304), some (.v6 0x20010db8000000000000000000000001), none, none] := by
  decide +kernel

/-- `u8::from_str`: digits after an optional plus. -/
def u8FromStr (s : List Char) : Option Nat :=
  let digits := if s.head? = some '+' then s.tail else s
  if digits = [] then none
  else
    (digits.foldlM (fun value c => (toDigit 10 c).map (value * 10 + ·)) 0).filter (· < 256)

/-! Ranges. -/

def Ipv4Cidr.fromStr (s : String) : Except String Ipv4Cidr :=
  match s.toList.splitOn '/' with
  | [] => .error "empty string"
  | base :: parts =>
    match IpAddr.fromStr base with
    | none => .error "invalid ip address in ip range"
    | some (.v6 _) => .error "only IPv4 supported at the moment"
    | some (.v4 address) =>
      match u8FromStr (parts.headD "32".toList) with
      | none => .error "the provided network prefix is not a valid unsigned integer"
      | some networkPrefix =>
        if networkPrefix = 0 then .error "network prefix cannot be 0"
        else if 32 < networkPrefix then .error "network prefix cannot be higher than 32"
        else if parts.tail ≠ [] then .error "ip range contains trailing characters"
        else .ok { address, networkPrefix }

/-- Ranges in CIDR syntax, such as 10.0.0.0/24. -/
def IpRange.fromStr (s : String) : Except String IpRange :=
  (Ipv4Cidr.fromStr s).map IpRange.fromCidr

/-- The prefix of an accepted range leaves less to shift than an address is wide. -/
theorem Ipv4Cidr.prefix_of_fromStr {s : String} {cidr : Ipv4Cidr}
    (accepted : fromStr s = .ok cidr) :
    0 < cidr.networkPrefix ∧ cidr.networkPrefix ≤ 32 := by
  unfold fromStr at accepted
  split at accepted
  · cases accepted
  next base parts _ =>
  split at accepted
  · cases accepted
  · cases accepted
  next address _ =>
  split at accepted
  · cases accepted
  next networkPrefix _ =>
  split_ifs at accepted with zero high trailing
  obtain rfl := Except.ok.inj accepted
  exact ⟨Nat.pos_of_ne_zero zero, Nat.le_of_not_lt high⟩

theorem IpRange.fromCidr_eq (cidr : Ipv4Cidr) : fromCidr cidr =
    { start := .v4 (cidr.address &&& prefixMask 32 cidr.networkPrefix)
      endInclusive := .v4 (cidr.address ||| ~~~prefixMask 32 cidr.networkPrefix) } := rfl

/-- No IPv6 address is in a range of IPv4 ones: it comes after the end. -/
theorem IpRange.contains_fromCidr {cidr : Ipv4Cidr} (fits : cidr.networkPrefix ≤ 32)
    (ip : IpAddr) : (fromCidr cidr).contains ip = true ↔
      ∃ bits, ip = .v4 bits ∧ SamePrefix cidr.networkPrefix bits cidr.address := by
  rw [fromCidr_eq, contains]
  cases ip with
  | v4 bits =>
      simp only [IpAddr.le, Bool.and_eq_true, decide_eq_true_eq,
        between_iff_samePrefix cidr.address fits, IpAddr.v4.injEq, exists_eq_left']
  | v6 bits => simp [IpAddr.le]

theorem Route.nextHop_eq_next {route : Route} {ip : IpAddr} :
    route.nextHopTowardsDestination ip = some route.next ↔
      route.destination.contains ip = true := by
  unfold nextHopTowardsDestination
  split <;> simp_all

/-- Route matching is prefix matching, and the mask is shifted by less than its width. -/
theorem Route.nextHopTowardsDestination_iff {s : String} {cidr : Ipv4Cidr}
    (accepted : Ipv4Cidr.fromStr s = .ok cidr) {route : Route}
    (destination : route.destination = .fromCidr cidr) :
    (cidr.networkPrefix ≤ 32 ∧ 32 - cidr.networkPrefix < 32) ∧
      ∀ ip, route.nextHopTowardsDestination ip = some route.next ↔
        ∃ bits, ip = .v4 bits ∧
          ∀ i < cidr.networkPrefix, bits.getMsbD i = cidr.address.getMsbD i := by
  obtain ⟨positive, fits⟩ := Ipv4Cidr.prefix_of_fromStr accepted
  refine ⟨⟨fits, by omega⟩, fun ip => ?_⟩
  rw [nextHop_eq_next, destination]
  exact IpRange.contains_fromCidr fits ip

theorem Route.nextHopTowardsDestination_iff_twelve :
    Ipv4Cidr.fromStr "20.1.2.3/12" = .ok ⟨0x14010203, 12⟩ ∧
      ((12 ≤ 32 ∧ 32 - 12 < 32) ∧
        ∀ ip, Route.nextHopTowardsDestination ⟨.fromCidr ⟨0x14010203, 12⟩, .v4 1, 0⟩ ip =
            some (.v4 1) ↔
          ∃ bits, ip = .v4 bits ∧
            ∀ i < 12, bits.getMsbD i = (0x14010203 : BitVec 32).getMsbD i) := by
  have accepted : Ipv4Cidr.fromStr "20.1.2.3/12" = .ok ⟨0x14010203, 12⟩ := by decide +kernel
  let route : Route := ⟨.fromCidr ⟨0x14010203, 12⟩, .v4 1, 0⟩
  exact ⟨accepted, Route.nextHopTowardsDestination_iff accepted (rfl : route.destination = _)⟩

example : ["10.0.0.0/24", "10.0.0.123/24", "10.0.0.0/8", "20.0.0.0/12"].map IpRange.fromStr =
    [.ok ⟨.v4 0x0a000000, .v4 0x0a0000ff⟩, .ok ⟨.v4 0x0a000000, .v4 0x0a0000ff⟩,
      .ok ⟨.v4 0x0a000000, .v4 0x0affffff⟩, .ok ⟨.v4 0x14000000, .v4 0x140fffff⟩] := by
  decide +kernel

example : ["10.0.0.0/0", "10.0.0.0/33", "10.0.0.0/8/", "::1/8", "10.0.0/8", "10.0.0.0/"].map
    Ipv4Cidr.fromStr =
    [.error "network prefix cannot be 0", .error "network prefix cannot be higher than 32",
      .error "ip range contains trailing characters", .error "only IPv4 supported at the moment",
      .error "invalid ip address in ip range",
      .error "the provided network prefix is not a valid unsigned integer"] := by
  decide +kernel

end Workbench.Network
