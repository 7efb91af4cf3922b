import Workbench.Network.Packet

/-! Network events: changes of the status of a link or a node while the
simulation runs. -/

set_option autoImplicit false

namespace Workbench.Network

/-- The two status updates, the same for links and for nodes. -/
inductive UpdateStatus where
  | up
  | down
  deriving DecidableEq, Repr

abbrev UpdateLinkStatus := UpdateStatus
abbrev UpdateNodeStatus := UpdateStatus

structure NodeEventPayload where
  nodeId : NodeId
  status : Option UpdateNodeStatus
  clearBuffer : Bool
  deriving DecidableEq, Repr

structure LinkEventPayload where
  linkId : LinkId
  status : Option UpdateLinkStatus
  bandwidthBps : Option Nat
  delay : Option Nat
  extraDelay : Option Nat
  extraDelayRatio : Option Nat
  packetDuplicationRatio : Option Nat
  packetLossRatio : Option Nat
  congestionEventRatio : Option Nat
  deriving DecidableEq, Repr

end Workbench.Network
