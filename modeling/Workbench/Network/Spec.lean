import Workbench.Network.Packet

/-! The description of a network: its nodes with their interfaces and routes, and
its links.

A ratio is a probability in units of 2⁻⁵², the grid on which the generator draws
its rolls: a roll is only ever compared with a ratio. -/

set_option autoImplicit false

namespace Workbench.Network

structure Ipv4Cidr where
  address : BitVec 32
  networkPrefix : Nat
  deriving DecidableEq, Repr

def Ipv4Cidr.asIpAddr (cidr : Ipv4Cidr) : IpAddr := .v4 cidr.address

structure IpRange where
  start : IpAddr
  endInclusive : IpAddr
  deriving DecidableEq, Repr

def IpRange.fromCidr (addr : Ipv4Cidr) : IpRange :=
  let mask := BitVec.allOnes 32 <<< (32 - addr.networkPrefix)
  { start := .v4 (addr.address &&& mask)
    endInclusive := .v4 (addr.address ||| ~~~mask) }

def IpRange.contains (range : IpRange) (ip : IpAddr) : Bool :=
  range.start.le ip && ip.le range.endInclusive

structure Route where
  destination : IpRange
  next : IpAddr
  cost : Nat
  deriving DecidableEq, Repr

def Route.nextHopTowardsDestination (route : Route) (ip : IpAddr) : Option IpAddr :=
  if route.destination.contains ip then some route.next else none

structure NetworkInterface where
  addresses : List Ipv4Cidr
  routes : List Route
  deriving DecidableEq, Repr

structure NetworkNodeSpec where
  id : NodeId
  bufferSizeBytes : Nat
  interfaces : List NetworkInterface
  packetLossRatio : Nat
  packetDuplicationRatio : Nat
  deriving DecidableEq, Repr

def NetworkNodeSpec.addresses (node : NetworkNodeSpec) : List IpAddr :=
  node.interfaces.flatMap fun i => i.addresses.map Ipv4Cidr.asIpAddr

structure NetworkLinkSpec where
  id : LinkId
  source : IpAddr
  target : IpAddr
  delay : Nat
  bandwidthBps : Nat
  congestionEventRatio : Nat
  extraDelay : Nat
  extraDelayRatio : Nat
  deriving DecidableEq, Repr

structure NetworkSpec where
  nodes : List NetworkNodeSpec
  links : List NetworkLinkSpec
  deriving DecidableEq, Repr

/-- Two hosts, and a link from the first to the second. -/
def NetworkSpec.twoHosts : NetworkSpec where
  nodes :=
    [⟨0, 100, [⟨[⟨1, 24⟩], [⟨⟨.v4 2, .v4 2⟩, .v4 2, 1⟩]⟩], 0, 0⟩, ⟨1, 100, [⟨[⟨2, 24⟩], []⟩], 0, 0⟩]
  links := [⟨0, .v4 1, .v4 2, 10, 1000, 0, 0, 0⟩]

end Workbench.Network
