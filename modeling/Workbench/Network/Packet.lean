import Mathlib.Algebra.Order.Ring.Nat
import Mathlib.Data.List.Basic

/-! Addresses, transmits and packets, as the simulator passes them around.

Identifiers are only ever compared for equality, so a node or link id and a
packet uuid is a number here. Instants and durations are natural numbers too:
nanoseconds, an instant counted from the start of the simulation. -/

set_option autoImplicit false

namespace Workbench.Network

abbrev NodeId := Nat
abbrev LinkId := Nat
abbrev Uuid := Nat
abbrev Port := Nat

inductive IpAddr where
  | v4 (bits : BitVec 32)
  | v6 (bits : BitVec 128)
  deriving DecidableEq, Repr

def IpAddr.isIpv4 : IpAddr → Bool
  | .v4 _ => true
  | .v6 _ => false

/-- The order of `std::net::IpAddr`: every IPv4 address before every IPv6 one,
and each family by its bits. -/
def IpAddr.le : IpAddr → IpAddr → Bool
  | .v4 a, .v4 b => a.toNat ≤ b.toNat
  | .v4 _, .v6 _ => true
  | .v6 _, .v4 _ => false
  | .v6 a, .v6 b => a.toNat ≤ b.toNat

structure SocketAddr where
  ip : IpAddr
  port : Port
  deriving DecidableEq, Repr

/-- The codepoints of `quinn::udp::EcnCodepoint`, by their two bits. -/
inductive EcnCodepoint where
  | ect0
  | ect1
  | ce
  deriving DecidableEq, Repr

def EcnCodepoint.bits : EcnCodepoint → Nat
  | .ect0 => 0b10
  | .ect1 => 0b01
  | .ce => 0b11

def udpOverhead : Nat := 8
def ipv4Overhead : Nat := 20
def ipv6Overhead : Nat := 40
def defaultTtl : Nat := 30

structure OwnedTransmit where
  source : SocketAddr
  destination : SocketAddr
  ecn : Option EcnCodepoint
  contents : List UInt8
  segmentSize : Option Nat
  ttl : Nat
  deriving DecidableEq, Repr

def OwnedTransmit.packetSize (transmit : OwnedTransmit) : Nat :=
  let ipOverhead := if transmit.destination.ip.isIpv4 then ipv4Overhead else ipv6Overhead
  udpOverhead + ipOverhead + transmit.contents.length

theorem OwnedTransmit.packetSize_pos (transmit : OwnedTransmit) : 0 < transmit.packetSize := by
  simp only [packetSize, udpOverhead]
  omega

/-- A packet travelling through the network. -/
structure InTransitData where
  id : Uuid
  duplicate : Bool
  sourceId : NodeId
  transmit : OwnedTransmit
  number : Nat
  deriving DecidableEq, Repr

abbrev InTransitData.size (data : InTransitData) : Nat := data.transmit.packetSize

/-- A packet waiting in a node's outbound channel. -/
structure BufferedPacket where
  inNodeSince : Nat
  data : InTransitData
  deriving DecidableEq, Repr

end Workbench.Network
