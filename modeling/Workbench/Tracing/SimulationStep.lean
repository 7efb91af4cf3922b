import Workbench.Network.Event

/-! The steps that the tracer records. -/

set_option autoImplicit false

namespace Workbench.Tracing

open Workbench.Network

structure NetworkEvent where
  link : Option LinkEventPayload
  node : Option NodeEventPayload
  deriving DecidableEq, Repr

structure GenericPacketEvent where
  packetId : Uuid
  packetNumber : Nat
  packetSizeBytes : Nat
  nodeId : NodeId
  deriving DecidableEq, Repr

structure PacketInNode where
  packetId : Uuid
  packetNumber : Nat
  packetSizeBytes : Nat
  nodeId : NodeId
  droppedOnArrival : Bool
  deriving DecidableEq, Repr

inductive DropReason where
  | random
  | zeroTtl
  | bufferFull
  | bufferCleared
  deriving DecidableEq, Repr

structure PacketDropped where
  packetId : Uuid
  nodeId : NodeId
  reason : DropReason
  deriving DecidableEq, Repr

structure PacketHasExtraDelay where
  packetId : Uuid
  nodeId : NodeId
  extraDelay : Nat
  deriving DecidableEq, Repr

structure PacketInTransit where
  packetId : Uuid
  nodeId : NodeId
  linkId : LinkId
  deriving DecidableEq, Repr

structure PacketLostInTransit where
  packetId : Uuid
  linkId : LinkId
  deriving DecidableEq, Repr

inductive SimulationStepKind where
  | packetInNode (s : PacketInNode)
  | packetDropped (s : PacketDropped)
  | packetLostInTransit (s : PacketLostInTransit)
  | packetDuplicated (s : GenericPacketEvent)
  | packetExtraDelay (s : PacketHasExtraDelay)
  | packetCongestionEvent (s : GenericPacketEvent)
  | packetInTransit (s : PacketInTransit)
  | packetDeliveredToApplication (s : GenericPacketEvent)
  | networkEvent (e : NetworkEvent)
  deriving DecidableEq, Repr

structure SimulationStep where
  relativeTime : Nat
  kind : SimulationStepKind
  deriving DecidableEq, Repr

end Workbench.Tracing
