import Workbench.Network.Node
import Workbench.Network.Pacer

/-! Links: their queue of outgoing packets, the task that sends these, and the
packets in transit. -/

set_option autoImplicit false

namespace Workbench.Network

structure PacketAnomalies where
  congestionExperienced : Bool
  extraDelay : Nat
  deriving DecidableEq, Repr

/-- A copy of a buffered packet in the queue of one of its candidate links. All
copies of the packet share one flag, which tells whether it has been handled. -/
structure OutgoingPacket where
  inNodeSince : Nat
  srcNode : NodeId
  data : InTransitData
  anomalies : PacketAnomalies
  preferredLinks : List LinkId
  handled : Nat
  deriving DecidableEq, Repr

/-- Where the task of `process_link_queue` waits. All but the first hold the
packet taken from the queue. -/
inductive QueueTask where
  | idle
  | acquiring (packet : OutgoingPacket)
  | sleeping (packet : OutgoingPacket) (deadline : Nat)
  | waitingForLink (packet : OutgoingPacket) (notifier : Nat)
  | waitingForNode (packet : OutgoingPacket) (notifier : Nat)
  | yielding (packet : OutgoingPacket)
  | panicked
  deriving DecidableEq, Repr

def QueueTask.packet? : QueueTask → Option OutgoingPacket
  | .idle | .panicked => none
  | .acquiring packet | .sleeping packet _ | .waitingForLink packet _
  | .waitingForNode packet _ | .yielding packet => some packet

/-- The task of `forward_packets_from_link_to_node`, with the delivery it awaits. -/
structure Forwarder where
  alive : Bool
  delivery : NextPacketDelivery
  deriving DecidableEq, Repr

def usizeMax : Nat := 2 ^ 64 - 1

def Forwarder.new : Forwarder := ⟨true, .new usizeMax⟩

/-- What never changes about a link, and the delay it starts with. -/
structure NetworkLink where
  target : IpAddr
  delay : Nat
  bandwidthBps : Nat
  congestionEventRatio : Nat
  extraDelay : Nat
  extraDelayRatio : Nat
  deriving DecidableEq, Repr

/-- What a link keeps behind its lock, and the local state of its two tasks. -/
structure LinkState where
  status : Switch
  lastDown : Option Nat
  delay : Nat
  pacer : PacketPacer
  /-- Whether `sleep_until_ready_to_send_semaphore` has its one permit. -/
  permit : Bool
  inTransit : InboundQueue
  outgoingQueue : Channel OutgoingPacket
  task : QueueTask
  forwarder : Forwarder

namespace LinkState

def new (now delay : Nat) (packetDelay : Nat → Nat) : LinkState :=
  ⟨.new, none, delay, .new now packetDelay, true, .new, .unbounded, .idle, .new⟩

def wasDownAfter (this : LinkState) (instant : Nat) : Bool := this.lastDown.any (instant < ·)

def isDown (this : LinkState) : Bool := this.status.isDown

def updateDelay (this : LinkState) (update : Nat) : LinkState := { this with delay := update }

def updateStatus (this : LinkState) (now : Nat) (update : UpdateLinkStatus) : LinkState :=
  { this with
    status := this.status.update update
    lastDown := if this.status.goesDown update then some now else this.lastDown }

/-- Whether a packet may be sent at once; nothing where the pacer panics, since
the delay of a packet is not defined for a bandwidth of zero. -/
def hasBandwidthAvailable (link : NetworkLink) (this : LinkState) (now packetSizeBytes : Nat) :
    Option (Bool × LinkState) :=
  if !this.permit || this.isDown then some (false, this)
  else if link.bandwidthBps = 0 then none
  else
    let (room, pacer) := this.pacer.canSend now packetSizeBytes
    some (room, { this with pacer })

/-- The copies that a link has yet to deal with: the one its task holds, and its queue. -/
def copies (this : LinkState) : List OutgoingPacket :=
  this.task.packet?.toList ++ this.outgoingQueue.messages

end LinkState

/-- The ECN codepoint of a packet as it is sent; nothing where the assertion
panics that a packet selected for a congestion event supports ECN. -/
def PacketAnomalies.mark (anomalies : PacketAnomalies) (data : InTransitData) :
    Option InTransitData :=
  if anomalies.congestionExperienced then
    if data.transmit.ecn.any fun codepoint => codepoint.bits = 0b10 ∨ codepoint.bits = 0b01 then
      some { data with transmit := { data.transmit with ecn := some .ce } }
    else none
  else some data

theorem PacketAnomalies.mark_some {anomalies : PacketAnomalies} {data marked : InTransitData}
    (same : anomalies.mark data = some marked) :
    marked.id = data.id ∧ marked.number = data.number ∧ marked.size = data.size := by
  simp only [mark] at same
  split at same
  · split at same
    · exact Option.some.inj same ▸ ⟨rfl, rfl, rfl⟩
    · simp at same
  · exact Option.some.inj same ▸ ⟨rfl, rfl, rfl⟩

end Workbench.Network
