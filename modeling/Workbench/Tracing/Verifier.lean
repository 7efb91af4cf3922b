import Mathlib.Data.List.Sort
import Workbench.Network.Spec
import Workbench.Tracing.Replayed

/-! The verifier: it replays recorded steps over the nodes and links of a network.

The order in which a hash map is iterated is not specified, so what iterates over
one is given an order. -/

set_option autoImplicit false

namespace Workbench.Tracing

open Workbench.Library Workbench.Network

structure InFlightPacket where
  sizeBytes : Nat
  sentAtRelative : Nat
  extraDelay : Nat
  linkId : LinkId
  deriving DecidableEq, Repr

structure LinkMetadata where
  sourceNodeId : NodeId
  targetNodeId : NodeId
  delay : Nat
  bandwidthBps : Nat
  deriving DecidableEq, Repr

structure NodeMetadata where
  bufferSizeBytes : Nat
  deriving DecidableEq, Repr

structure SimulationVerifier where
  steps : List SimulationStep
  nodes : HashMap NodeId ReplayedNode
  links : HashMap LinkId ReplayedLink
  inFlightPackets : HashMap Uuid InFlightPacket
  nodeMetadata : HashMap NodeId NodeMetadata
  linkMetadata : HashMap LinkId LinkMetadata

/-- Why a network cannot be verified: an address of two nodes, or a link whose
source or target address is not used by any node. -/
inductive InvalidSpec where
  | addressConflict (addr : Ipv4Cidr) (nodeId existing : NodeId)
  | unusedSource (linkId : LinkId) (source : IpAddr)
  | unusedTarget (linkId : LinkId) (target : IpAddr)
  deriving DecidableEq, Repr

/-- The steps by time; steps of one time keep their order. -/
def sortSteps (steps : List SimulationStep) : List SimulationStep :=
  if (steps.map (·.relativeTime)).Pairwise (· ≤ ·) then steps
  else steps.mergeSort fun a b => decide (a.relativeTime ≤ b.relativeTime)

namespace SimulationVerifier

def mapAddress (nodeId : NodeId) (ipToNode : HashMap IpAddr NodeId) (addr : Ipv4Cidr) :
    Except InvalidSpec (HashMap IpAddr NodeId) :=
  match ipToNode.lookup addr.asIpAddr with
  | some existing =>
    if existing ≠ nodeId then .error (.addressConflict addr nodeId existing)
    else .ok (ipToNode.insert addr.asIpAddr nodeId)
  | none => .ok (ipToNode.insert addr.asIpAddr nodeId)

def addNode (this : SimulationVerifier × HashMap IpAddr NodeId) (node : NetworkNodeSpec) :
    Except InvalidSpec (SimulationVerifier × HashMap IpAddr NodeId) := do
  let ipToNode ← (node.interfaces.flatMap (·.addresses)).foldlM (mapAddress node.id) this.2
  .ok ({ this.1 with
    nodeMetadata := this.1.nodeMetadata.insert node.id ⟨node.bufferSizeBytes⟩
    nodes := this.1.nodes.insert node.id (.new node.id) }, ipToNode)

def addLink (ipToNode : HashMap IpAddr NodeId) (this : SimulationVerifier)
    (link : NetworkLinkSpec) : Except InvalidSpec SimulationVerifier :=
  match ipToNode.lookup link.source, ipToNode.lookup link.target with
  | none, _ => .error (.unusedSource link.id link.source)
  | _, none => .error (.unusedTarget link.id link.target)
  | some sourceId, some targetId => .ok { this with
      linkMetadata := this.linkMetadata.insert link.id
        ⟨sourceId, targetId, link.delay, link.bandwidthBps⟩
      links := this.links.insert link.id .new }

def new (steps : List SimulationStep) (networkSpec : NetworkSpec) :
    Except InvalidSpec SimulationVerifier := do
  let this : SimulationVerifier := ⟨sortSteps steps, ∅, ∅, ∅, ∅, ∅⟩
  let (this, ipToNode) ← networkSpec.nodes.foldlM addNode (this, ∅)
  networkSpec.links.foldlM (addLink ipToNode) this

end SimulationVerifier

/-- A verifier while it replays its steps, with the local variables of `verify`. -/
structure Replay extends SimulationVerifier where
  lastStepTime : Nat
  lastBufferUsageUpdate : Option Nat
  statsByLink : HashMap LinkId LinkStats

namespace Replay

def start (verifier : SimulationVerifier) : Replay := ⟨verifier, 0, none, ∅⟩

def node (this : Replay) (nodeId : NodeId) : Verdict ReplayedNode :=
  .unwrap (.fatal (.missingNode nodeId)) (this.nodes.lookup nodeId)

def link (this : Replay) (linkId : LinkId) : Verdict ReplayedLink :=
  .unwrap (.fatal (.missingLink linkId)) (this.links.lookup linkId)

def setNode (this : Replay) (nodeId : NodeId) (node : ReplayedNode) : Replay :=
  { this with nodes := this.nodes.insert nodeId node }

def setLink (this : Replay) (linkId : LinkId) (link : ReplayedLink) : Replay :=
  { this with links := this.links.insert linkId link }

def withNode (this : Replay) (nodeId : NodeId) (change : ReplayedNode → Verdict ReplayedNode) :
    Verdict Replay := do
  let node ← this.node nodeId
  let node ← change node
  pure (this.setNode nodeId node)

/-- Updates the nodes in the order of iteration, up to one that exceeds its buffer. -/
def updateMaxBufferUsage (this : Replay) : List NodeId → Verdict Replay
  | [] => pure this
  | nodeId :: order =>
    match this.nodes.lookup nodeId with
    | none => this.updateMaxBufferUsage order
    | some node => do
      let node := node.updateMaxBufferUsage
      let metadata ← .unwrap .panic (this.nodeMetadata.lookup nodeId)
      if metadata.bufferSizeBytes < node.maxBufferUsage then do
        .track (.nodeExceedsBufferSize nodeId metadata.bufferSizeBytes node.maxBufferUsage)
        pure (this.setNode nodeId node)
      else (this.setNode nodeId node).updateMaxBufferUsage order

/-- Whether the link went down after the packet was sent. -/
def checkOutage (link : ReplayedLink) (inFlight : InFlightPacket) (nodeId : NodeId) :
    Verdict Unit :=
  match link.lastDownRelative with
  | none => pure ()
  | some lastDown =>
    .check (inFlight.sentAtRelative ≤ lastDown)
      (.offlinePacketReceive nodeId inFlight.linkId inFlight.sentAtRelative lastDown)

def packetInNode (this : Replay) (time : Nat) (s : PacketInNode) : Verdict Replay :=
  match this.inFlightPackets.lookup s.packetId with
  | some inFlight => do
    let this := { this with inFlightPackets := this.inFlightPackets.erase s.packetId }
    let metadata ← .unwrap .panic (this.linkMetadata.lookup inFlight.linkId)
    .check (s.nodeId ≠ metadata.targetNodeId) (.disconnectedPacketReceive s.nodeId inFlight.linkId)
    let timeInFlight ← .unwrap .panic
      (if time < inFlight.sentAtRelative then none else some (time - inFlight.sentAtRelative))
    .check (timeInFlight < metadata.delay + inFlight.extraDelay)
      (.tooFastPacketReceive s.nodeId inFlight.linkId)
    let link ← this.link inFlight.linkId
    checkOutage link inFlight s.nodeId
    this.withNode s.nodeId (·.packetReceived s time)
  -- The packet was not in flight, so it must have just been created at one of the nodes
  | none => this.withNode s.nodeId (·.packetCreated s time)

def packetLostInTransit (this : Replay) (s : PacketLostInTransit) : Verdict Replay :=
  match this.inFlightPackets.lookup s.packetId with
  | some packet =>
    let stats := (this.statsByLink.lookup s.linkId).getD .new
    pure { this with
      inFlightPackets := this.inFlightPackets.erase s.packetId
      statsByLink := this.statsByLink.insert s.linkId
        { stats with droppedInTransit := stats.droppedInTransit.trackOne packet.sizeBytes } }
  | none => do
    .track (.missingLostPacket s.packetId)
    pure this

def packetInTransit (this : Replay) (time : Nat) (s : PacketInTransit) : Verdict Replay := do
  let node ← this.node s.nodeId
  let (packet, node) ← node.packetSent s.packetId
  let this := this.setNode s.nodeId node
  let metadata ← .unwrap (.fatal (.missingLink s.linkId)) (this.linkMetadata.lookup s.linkId)
  .check (s.nodeId ≠ metadata.sourceNodeId) (.disconnectedPacketSend s.nodeId s.linkId)
  let link ← this.link s.linkId
  .check (link.isUp = false) (.offlinePacketSend s.nodeId s.linkId)
  let (usedBandwidthBps, link) ← .unwrap .panic
    (link.packetSent time packet.sizeBytes metadata.bandwidthBps)
  let this := this.setLink s.linkId link
  .check (metadata.bandwidthBps < usedBandwidthBps)
    (.linkBandwidthExceeded s.nodeId s.linkId s.packetId metadata.bandwidthBps usedBandwidthBps)
  pure { this with
    inFlightPackets := this.inFlightPackets.insert s.packetId
      ⟨packet.sizeBytes, time, packet.extraDelay, s.linkId⟩ }

def linkEvent (this : Replay) (time : Nat) (event : LinkEventPayload) : Verdict Replay :=
  match event.status with
  | none => pure this
  | some status => do
    let link ← this.link event.linkId
    pure (this.setLink event.linkId (link.setStatus status time))

def nodeEvent (this : Replay) (time : Nat) (event : NodeEventPayload) : Verdict Replay :=
  this.withNode event.nodeId fun node => pure (node.handleEvent event time)

def networkEvent (this : Replay) (time : Nat) (e : NetworkEvent) : Verdict Replay := do
  let this ← e.link.elim (pure this) (this.linkEvent time)
  e.node.elim (pure this) (this.nodeEvent time)

def replayKind (this : Replay) (time : Nat) : SimulationStepKind → Verdict Replay
  | .packetInNode s => this.packetInNode time s
  | .packetDuplicated s => this.withNode s.nodeId (·.packetDuplicated s time)
  | .packetDropped s => this.withNode s.nodeId (·.packetDropped s)
  | .packetLostInTransit s => this.packetLostInTransit s
  | .packetInTransit s => this.packetInTransit time s
  | .packetCongestionEvent s => this.withNode s.nodeId fun node => pure (node.packetEcn s)
  | .packetDeliveredToApplication s =>
    this.withNode s.nodeId (·.packetDeliveredToAppLayer s.packetId)
  | .packetExtraDelay s => this.withNode s.nodeId (·.packetHasExtraDelay s.packetId s.extraDelay)
  | .networkEvent e => this.networkEvent time e

/-- The first step of a new time first brings the buffer usage of the last time up to date. -/
def startTime (this : Replay) (order : Option Nat → List NodeId) (time : Nat) : Verdict Replay :=
  if time ≠ this.lastStepTime then do
    let this ← this.updateMaxBufferUsage (order (some time))
    pure { this with lastBufferUsageUpdate := some this.lastStepTime, lastStepTime := time }
  else pure this

def replayStep (order : Option Nat → List NodeId) (this : Replay) (step : SimulationStep) :
    Verdict Replay := do
  let this ← this.startTime order step.relativeTime
  this.replayKind step.relativeTime step.kind

def replaySteps (this : Replay) (order : Option Nat → List NodeId) (steps : List SimulationStep) :
    Verdict Replay :=
  steps.foldlM (replayStep order) this

def finish (this : Replay) (order : Option Nat → List NodeId) : Verdict Replay :=
  if this.lastBufferUsageUpdate ≠ some this.lastStepTime then this.updateMaxBufferUsage (order none)
  else pure this

end Replay

structure SimulationStats where
  statsByNode : NodeId → Option NodeStats
  statsByLink : LinkId → Option LinkStats

def Replay.stats (this : Replay) : SimulationStats where
  statsByNode nodeId := (this.nodes.lookup nodeId).map (·.stats)
  statsByLink linkId :=
    match this.links.lookup linkId with
    | none => this.statsByLink.lookup linkId
    | some link => some { (this.statsByLink.lookup linkId).getD .new with
        maxUsedBandwidthBps := link.maxBandwidthUsageBps }

/-- Replays all steps. The order in which the nodes are iterated may differ from one
update of the buffer usage to the next: there is one before the first step of each
time, and one at the end. What is reported are the errors that are not fatal. -/
def SimulationVerifier.verify (this : SimulationVerifier) (order : Option Nat → List NodeId) :
    Verdict SimulationStats := do
  let replay := Replay.start { this with steps := [] }
  let replay ← replay.replaySteps order this.steps
  let replay ← replay.finish order
  pure replay.stats

end Workbench.Tracing
