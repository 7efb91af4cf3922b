import Workbench.Network.Event
import Workbench.Network.InboundQueue
import Workbench.Network.Spec

/-! Nodes: the status shared by nodes and links, channels, the outbound buffer
and the state of a node behind its locks. -/

set_option autoImplicit false

namespace Workbench.Network

/-- While down, a status holds the oneshot channel that tells those who wait that
it is up again. -/
inductive Status where
  | up
  | down (upTx : Nat)
  deriving DecidableEq, Repr

/-- A status with the oneshot channels opened for it so far, and whether each has
completed. -/
structure Switch where
  status : Status
  channels : List Bool
  deriving DecidableEq, Repr

namespace Switch

def new : Switch := ⟨.up, []⟩

def isDown (this : Switch) : Bool :=
  match this.status with
  | .up => false
  | .down _ => true

def notifierForUp (this : Switch) : Option Nat :=
  match this.status with
  | .up => none
  | .down upRx => some upRx

/-- Whether the future of a notifier is ready; one whose sender is gone is. -/
def completed (this : Switch) (notifier : Nat) : Bool := this.channels.getD notifier true

def update (this : Switch) (update : UpdateStatus) : Switch :=
  match this.status, update with
  | .down _, .down => this
  | .up, .up => this
  | .up, .down => ⟨.down this.channels.length, this.channels ++ [false]⟩
  | .down upTx, .up => ⟨.up, this.channels.set upTx true⟩

/-- The update takes the status from up to down. -/
def goesDown (this : Switch) (update : UpdateStatus) : Bool :=
  !this.isDown && update = .down

end Switch

/-- An unbounded channel; without its receiver, sends fail and its messages are gone. -/
structure Channel (α : Type) where
  messages : List α
  receiverAlive : Bool
  deriving DecidableEq, Repr

namespace Channel

variable {α : Type}

def unbounded : Channel α := ⟨[], true⟩

def unboundedSend (this : Channel α) (message : α) : Option (Channel α) :=
  if this.receiverAlive then some { this with messages := this.messages ++ [message] } else none

theorem unboundedSend_some {this sent : Channel α} {message : α}
    (same : this.unboundedSend message = some sent) :
    sent = { this with messages := this.messages ++ [message] } := by
  simp only [unboundedSend, Option.ite_none_right_eq_some, Option.some.injEq] at same
  exact same.2.symm

theorem unboundedSend_none {this : Channel α} {message : α}
    (failed : this.unboundedSend message = none) : this.receiverAlive = false := by
  simpa [unboundedSend] using failed

def dropReceiver (_ : Channel α) : Channel α := ⟨[], false⟩

end Channel

structure OutboundBuffer where
  availableCapacityBytes : Nat
  deriving DecidableEq, Repr

namespace OutboundBuffer

def new (capacityBytes : Nat) : OutboundBuffer := ⟨capacityBytes⟩

/-- The buffer with the space taken, or nothing where there is no space. -/
def reserve (this : OutboundBuffer) (dataSize : Nat) : Option OutboundBuffer :=
  if this.availableCapacityBytes < dataSize then none
  else some ⟨this.availableCapacityBytes - dataSize⟩

theorem reserve_some {this taken : OutboundBuffer} {dataSize : Nat}
    (same : this.reserve dataSize = some taken) :
    taken.availableCapacityBytes + dataSize = this.availableCapacityBytes := by
  simp only [reserve] at same
  split at same
  · simp at same
  · obtain rfl := Option.some.inj same
    simp only
    omega

def release (this : OutboundBuffer) (dataSize : Nat) : OutboundBuffer :=
  ⟨this.availableCapacityBytes + dataSize⟩

end OutboundBuffer

structure NodeInjectedFailures where
  packetLossRatio : Nat
  packetDuplicationRatio : Nat
  deriving DecidableEq, Repr

/-- What never changes about a node. -/
structure Node where
  canonicalAddress : IpAddr
  addresses : List IpAddr
  routes : List (IpAddr × Route)
  injectedFailures : NodeInjectedFailures
  bufferSizeBytes : Nat
  deriving DecidableEq, Repr

/-- What a node keeps behind locks. Endpoints are created on first use, empty. -/
structure NodeState where
  status : Switch
  lastBufferClear : Option Nat
  outboundBuffer : OutboundBuffer
  outbound : Channel BufferedPacket
  udpEndpoints : Port → InboundQueue

namespace NodeState

def new (node : Node) : NodeState :=
  ⟨.new, none, .new node.bufferSizeBytes, .unbounded, fun _ => .new⟩

def isDown (this : NodeState) : Bool := this.status.isDown

def updateStatus (this : NodeState) (update : UpdateNodeStatus) : NodeState :=
  { this with status := this.status.update update }

def clearBuffer (this : NodeState) (now : Nat) : NodeState :=
  { this with lastBufferClear := some now }

def deliverPacket (this : NodeState) (now : Nat) (data : InTransitData) : NodeState :=
  let port := data.transmit.destination.port
  { this with
    udpEndpoints := Function.update this.udpEndpoints port
      ((this.udpEndpoints port).send now data 0).1 }

end NodeState

end Workbench.Network
