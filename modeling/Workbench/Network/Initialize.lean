import Mathlib.Data.List.Sort
import Workbench.Library.Map
import Workbench.Network.State

/-! Building a network from its description. -/

set_option autoImplicit false

namespace Workbench.Network

open Workbench.Library

/-- Why a description is rejected. -/
inductive InvalidNetwork where
  | addressPairTaken (link existing : LinkId) (source target : IpAddr)
  | linkIdTaken (link : LinkId)
  | tooFewNodes (count : Nat)
  | noInterfaces (node : NodeId)
  | noAddress (node : NodeId)
  | addressTaken (node existing : NodeId) (address : IpAddr)
  | nodeIdTaken (node : NodeId)
  deriving DecidableEq, Repr

namespace Node

def connectedRoutes (linksAddrMap : HashMap IpAddr IpAddr) (interfaces : List NetworkInterface) :
    List (IpAddr × Route) :=
  interfaces.flatMap fun interface => interface.addresses.filterMap fun addr =>
    -- some interfaces have a single incoming link, with no outgoing one
    (linksAddrMap.lookup addr.asIpAddr).map fun linkTarget =>
      (addr.asIpAddr, ⟨.fromCidr addr, linkTarget, 0⟩)

def otherRoutes (interfaces : List NetworkInterface) : List (IpAddr × Route) :=
  interfaces.flatMap fun interface => interface.routes.flatMap fun r =>
    interface.addresses.map fun addr => (addr.asIpAddr, r)

/-- The order of routes: by cost, then by the address they start from. -/
def cheaper (a b : IpAddr × Route) : Bool :=
  a.2.cost < b.2.cost ∨ (a.2.cost = b.2.cost ∧ a.1.le b.1)

def new (node : NetworkNodeSpec) (linksAddrMap : HashMap IpAddr IpAddr) :
    Except InvalidNetwork Node :=
  match node.interfaces, node.addresses with
  | [], _ => .error (.noInterfaces node.id)
  | ⟨[], _⟩ :: _, _ => .error (.noAddress node.id)
  | _, [] => .error (.noAddress node.id)
  | interfaces, canonicalAddress :: others => .ok
    { canonicalAddress
      addresses := canonicalAddress :: others
      routes := connectedRoutes linksAddrMap interfaces ++ (otherRoutes interfaces).mergeSort cheaper
      injectedFailures := ⟨node.packetLossRatio, node.packetDuplicationRatio⟩
      bufferSizeBytes := node.bufferSizeBytes }

/-- Stands for the nodes that a network does not have. -/
def absent : Node := ⟨.v4 0, [], [], ⟨0, 0⟩, 0⟩

end Node

def NetworkLink.new (l : NetworkLinkSpec) : NetworkLink :=
  ⟨l.target, l.delay, l.bandwidthBps, l.congestionEventRatio, l.extraDelay, l.extraDelayRatio⟩

/-- Stands for the links that a network does not have. -/
def NetworkLink.absent : NetworkLink := ⟨.v4 0, 0, 0, 0, 0, 0⟩

/-- The maps that `initialize` fills. -/
structure Directory where
  linksAddrMap : HashMap IpAddr IpAddr
  linksByAddr : HashMap (IpAddr × IpAddr) LinkId
  linksById : HashMap LinkId NetworkLink
  nodesByAddr : HashMap IpAddr NodeId
  nodesById : HashMap NodeId Node

namespace Directory

def new : Directory := ⟨∅, ∅, ∅, ∅, ∅⟩

def addLink (this : Directory) (l : NetworkLinkSpec) : Except InvalidNetwork Directory :=
  match this.linksByAddr.lookup (l.source, l.target) with
  | some existing => .error (.addressPairTaken l.id existing l.source l.target)
  | none =>
    if l.id ∈ this.linksById then .error (.linkIdTaken l.id)
    else .ok { this with
      linksAddrMap := this.linksAddrMap.insert l.source l.target
      linksByAddr := this.linksByAddr.insert (l.source, l.target) l.id
      linksById := this.linksById.insert l.id (.new l) }

def addAddress (node : NodeId) (nodesByAddr : HashMap IpAddr NodeId) (address : IpAddr) :
    Except InvalidNetwork (HashMap IpAddr NodeId) :=
  match nodesByAddr.lookup address with
  | some existing => .error (.addressTaken node existing address)
  | none => .ok (nodesByAddr.insert address node)

def addNode (this : Directory) (n : NetworkNodeSpec) : Except InvalidNetwork Directory := do
  let node ← Node.new n this.linksAddrMap
  let nodesByAddr ← node.addresses.foldlM (addAddress n.id) this.nodesByAddr
  if n.id ∈ this.nodesById then .error (.nodeIdTaken n.id)
  else .ok { this with nodesByAddr, nodesById := this.nodesById.insert n.id node }

end Directory

/-- Initializes a network. Its packet ids, and the delay of a packet by bandwidth
and size, are what the generator and the arithmetic of the machine make them. -/
def InMemoryNetwork.initialize (networkSpec : NetworkSpec) (uuids : Nat → Uuid)
    (packetDelay : Nat → Nat → Nat) : Except InvalidNetwork InMemoryNetwork := do
  let directory ← networkSpec.links.foldlM Directory.addLink .new
  if networkSpec.nodes.length < 2 then .error (.tooFewNodes networkSpec.nodes.length)
  else
    let directory ← networkSpec.nodes.foldlM Directory.addNode directory
    .ok
      { nodeIds := directory.nodesById.keys
        linkIds := directory.linksById.keys
        nodesByAddr := directory.nodesByAddr.lookup
        linksByAddr source target := directory.linksByAddr.lookup (source, target)
        nodes n := (directory.nodesById.lookup n).getD .absent
        links l := (directory.linksById.lookup l).getD .absent
        uuids
        packetDelay }

end Workbench.Network
