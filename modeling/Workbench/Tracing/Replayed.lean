import Workbench.Library.Map
import Workbench.Library.Tracked
import Workbench.Tracing.SimulationStep

/-! Nodes and links as the verifier replays them, with the errors it may find.
Sums do not overflow. -/

set_option autoImplicit false

namespace Workbench.Tracing

open Workbench.Library Workbench.Network

structure PacketStats where
  packets : Nat
  bytes : Nat
  deriving DecidableEq, Repr

namespace PacketStats

def new : PacketStats := ⟨0, 0⟩

def trackOne (this : PacketStats) (sizeBytes : Nat) : PacketStats :=
  ⟨this.packets + 1, this.bytes + sizeBytes⟩

end PacketStats

structure LinkStats where
  droppedInTransit : PacketStats
  maxUsedBandwidthBps : Nat
  deriving DecidableEq, Repr

def LinkStats.new : LinkStats := ⟨.new, 0⟩

structure NodeStats where
  sent : PacketStats
  received : PacketStats
  droppedOnArrival : PacketStats
  droppedInjected : PacketStats
  droppedZeroTtl : PacketStats
  droppedBufferFull : PacketStats
  droppedBufferCleared : PacketStats
  duplicates : PacketStats
  receivedOutOfOrder : PacketStats
  congestionExperienced : PacketStats
  maxBufferUsage : Nat
  deriving DecidableEq, Repr

inductive NonFatalError where
  | nodeExceedsBufferSize (nodeId : NodeId) (bufferSizeBytes maxBufferUsage : Nat)
  | nodeDownPacketSend (nodeId : NodeId) (packetId : Uuid)
  | nodeDownPacketReceive (nodeId : NodeId) (packetId : Uuid)
  | nodeUpPacketDroppedOnArrival (nodeId : NodeId) (packetId : Uuid)
  | packetSurvivedBufferCorruption (nodeId : NodeId) (packetId : Uuid)
  | missingLostPacket (packetId : Uuid)
  | offlinePacketSend (nodeId : NodeId) (linkId : LinkId)
  | disconnectedPacketSend (nodeId : NodeId) (linkId : LinkId)
  | disconnectedPacketReceive (nodeId : NodeId) (linkId : LinkId)
  | tooFastPacketReceive (nodeId : NodeId) (linkId : LinkId)
  | offlinePacketReceive (nodeId : NodeId) (linkId : LinkId) (packetSentNs linkLastDownNs : Nat)
  | linkBandwidthExceeded (nodeId : NodeId) (linkId : LinkId) (packetId : Uuid)
      (maxBps observedBps : Nat)
  deriving DecidableEq, Repr

inductive FatalError where
  | missingNode (nodeId : NodeId)
  | missingLink (linkId : LinkId)
  | missingPacket (packetId : Uuid)
  | packetAlreadyReceived (packetId : Uuid)
  deriving DecidableEq, Repr

/-- Why the verifier stops early: at a fatal error, or in a panic. -/
inductive Halt where
  | fatal (error : FatalError)
  | panic
  deriving DecidableEq, Repr

/-- A computation of the verifier, with the errors it tracks. -/
abbrev Verdict := Tracked NonFatalError Halt

def fatal {α : Type} (error : FatalError) : Verdict α := .halt (.fatal error)

structure ReplayedPacket where
  arrivedAt : Nat
  sizeBytes : Nat
  extraDelay : Nat
  deriving DecidableEq, Repr

structure ReplayedNode where
  status : UpdateNodeStatus
  lastDown : Option Nat
  lastBufferClear : Option Nat
  id : NodeId
  packets : HashMap Uuid ReplayedPacket
  highestReceived : Nat
  sentPackets : PacketStats
  receivedPackets : PacketStats
  reorderedPacketsReceived : PacketStats
  ecnPackets : PacketStats
  duplicatedPackets : PacketStats
  droppedPacketsInjected : PacketStats
  droppedPacketsZeroTtl : PacketStats
  droppedPacketsBufferFull : PacketStats
  droppedPacketsBufferCleared : PacketStats
  droppedPacketsDown : PacketStats
  bufferUsage : Nat
  maxBufferUsage : Nat

namespace ReplayedNode

def new (id : NodeId) : ReplayedNode :=
  ⟨.up, none, none, id, ∅, 0, .new, .new, .new, .new, .new, .new, .new, .new, .new, .new, 0, 0⟩

def handleEvent (this : ReplayedNode) (event : NodeEventPayload) (now : Nat) : ReplayedNode :=
  let this := event.status.elim this fun status =>
    { this with status, lastDown := if status = .down then some now else this.lastDown }
  if event.clearBuffer then { this with lastBufferClear := some now } else this

def addPacketToBuffer (this : ReplayedNode) (packetId : Uuid) (sizeBytes now : Nat) :
    Verdict ReplayedNode := do
  .check (this.status = .down) (.nodeDownPacketReceive this.id packetId)
  if packetId ∈ this.packets then fatal (.packetAlreadyReceived packetId)
  else pure { this with
    packets := this.packets.insert packetId ⟨now, sizeBytes, 0⟩
    bufferUsage := this.bufferUsage + sizeBytes }

def removePacketFromBuffer (this : ReplayedNode) (packetId : Uuid) :
    Verdict (ReplayedPacket × ReplayedNode) :=
  match this.packets.lookup packetId with
  | none => fatal (.missingPacket packetId)
  | some packet =>
    if this.bufferUsage < packet.sizeBytes then .halt .panic
    else pure (packet, { this with
      packets := this.packets.erase packetId
      bufferUsage := this.bufferUsage - packet.sizeBytes })

def packetCreated (this : ReplayedNode) (s : PacketInNode) (now : Nat) : Verdict ReplayedNode :=
  this.addPacketToBuffer s.packetId s.packetSizeBytes now

/-- The counts of a received packet: bytes and reordering. -/
def countReceived (this : ReplayedNode) (s : PacketInNode) : ReplayedNode :=
  { this with
    receivedPackets := this.receivedPackets.trackOne s.packetSizeBytes
    reorderedPacketsReceived :=
      if s.packetNumber < this.highestReceived then
        this.reorderedPacketsReceived.trackOne s.packetSizeBytes
      else this.reorderedPacketsReceived
    highestReceived := max this.highestReceived s.packetNumber }

def packetReceived (this : ReplayedNode) (s : PacketInNode) (now : Nat) : Verdict ReplayedNode :=
  let this := this.countReceived s
  if s.droppedOnArrival then do
    let this := { this with droppedPacketsDown := this.droppedPacketsDown.trackOne s.packetSizeBytes }
    .check (this.status = .up) (.nodeUpPacketDroppedOnArrival this.id s.packetId)
    pure this
  else this.addPacketToBuffer s.packetId s.packetSizeBytes now

def packetDuplicated (this : ReplayedNode) (s : GenericPacketEvent) (now : Nat) :
    Verdict ReplayedNode :=
  let this := { this with duplicatedPackets := this.duplicatedPackets.trackOne s.packetSizeBytes }
  this.addPacketToBuffer s.packetId s.packetSizeBytes now

def packetSent (this : ReplayedNode) (packetId : Uuid) : Verdict (ReplayedPacket × ReplayedNode) := do
  .check (this.status = .down) (.nodeDownPacketSend this.id packetId)
  let (packet, this) ← this.removePacketFromBuffer packetId
  let this := { this with sentPackets := this.sentPackets.trackOne packet.sizeBytes }
  .check (this.lastBufferClear.any (packet.arrivedAt < ·))
    (.packetSurvivedBufferCorruption this.id packetId)
  pure (packet, this)

def packetDeliveredToAppLayer (this : ReplayedNode) (packetId : Uuid) : Verdict ReplayedNode := do
  let (_, this) ← this.removePacketFromBuffer packetId
  pure this

/-- The count of a dropped packet. One that ran out of time to live counts as injected. -/
def countDropped (this : ReplayedNode) (sizeBytes : Nat) : DropReason → ReplayedNode
  | .random | .zeroTtl =>
    { this with droppedPacketsInjected := this.droppedPacketsInjected.trackOne sizeBytes }
  | .bufferFull =>
    { this with droppedPacketsBufferFull := this.droppedPacketsBufferFull.trackOne sizeBytes }
  | .bufferCleared =>
    { this with droppedPacketsBufferCleared := this.droppedPacketsBufferCleared.trackOne sizeBytes }

def packetDropped (this : ReplayedNode) (s : PacketDropped) : Verdict ReplayedNode := do
  let (packet, this) ← this.removePacketFromBuffer s.packetId
  pure (this.countDropped packet.sizeBytes s.reason)

def packetEcn (this : ReplayedNode) (s : GenericPacketEvent) : ReplayedNode :=
  { this with ecnPackets := this.ecnPackets.trackOne s.packetSizeBytes }

def packetHasExtraDelay (this : ReplayedNode) (packetId : Uuid) (delay : Nat) :
    Verdict ReplayedNode :=
  match this.packets.lookup packetId with
  | none => fatal (.missingPacket packetId)
  | some packet =>
    pure { this with packets := this.packets.insert packetId { packet with extraDelay := delay } }

def updateMaxBufferUsage (this : ReplayedNode) : ReplayedNode :=
  { this with maxBufferUsage := max this.bufferUsage this.maxBufferUsage }

def stats (this : ReplayedNode) : NodeStats where
  sent := this.sentPackets
  received := this.receivedPackets
  receivedOutOfOrder := this.reorderedPacketsReceived
  duplicates := this.duplicatedPackets
  droppedInjected := this.droppedPacketsInjected
  droppedZeroTtl := this.droppedPacketsZeroTtl
  droppedBufferFull := this.droppedPacketsBufferFull
  maxBufferUsage := this.maxBufferUsage
  congestionExperienced := this.ecnPackets
  droppedOnArrival := this.droppedPacketsDown
  droppedBufferCleared := this.droppedPacketsBufferCleared

end ReplayedNode

structure ReplayedLink where
  status : UpdateLinkStatus
  lastDownRelative : Option Nat
  bandwidthUsageBps : Nat
  packetsInBandwidthWindow : List (Nat × Nat)
  maxBandwidthUsageBps : Nat
  deriving DecidableEq, Repr

def nanosPerSecond : Nat := 1000000000

namespace ReplayedLink

def new : ReplayedLink := ⟨.up, none, 0, [], 0⟩

def isUp (this : ReplayedLink) : Bool := this.status = .up

def setStatus (this : ReplayedLink) (status : UpdateLinkStatus) (timestampRelative : Nat) :
    ReplayedLink :=
  { this with
    status
    lastDownRelative := if status = .down then some timestampRelative else this.lastDownRelative }

/-- The window is longer for a link that cannot send a packet of maximal size in a second. -/
def windowSeconds (linkBandwidthBps : Nat) : Nat := if linkBandwidthBps < 9984 then 10 else 1

/-- Removes the packets that have fallen out of the window; nothing where the
subtraction of their bits overflows. -/
def dropExpired (window now : Nat) : Nat → List (Nat × Nat) → Option (Nat × List (Nat × Nat))
  | usage, [] => some (usage, [])
  | usage, (time, bits) :: rest =>
    if time + window < now then
      if usage < bits then none else dropExpired window now (usage - bits) rest
    else some (usage, (time, bits) :: rest)

/-- Adds a packet to the window, and computes the used bandwidth. -/
def packetSent (this : ReplayedLink) (packetSentTime packetSizeBytes linkBandwidthBps : Nat) :
    Option (Nat × ReplayedLink) := do
  let seconds := windowSeconds linkBandwidthBps
  let (usage, window) ← dropExpired (seconds * nanosPerSecond) packetSentTime
    this.bandwidthUsageBps this.packetsInBandwidthWindow
  let packetSizeBits := packetSizeBytes * 8
  let bandwidthUsageBps := usage + packetSizeBits
  let bandwidthUsage := bandwidthUsageBps / seconds
  some (bandwidthUsage, { this with
    bandwidthUsageBps
    packetsInBandwidthWindow := window ++ [(packetSentTime, packetSizeBits)]
    maxBandwidthUsageBps := max this.maxBandwidthUsageBps bandwidthUsage })

end ReplayedLink

end Workbench.Tracing
