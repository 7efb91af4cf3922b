import Workbench.Network.Simulator
import Workbench.Network.Topology

/-! Delivery at the addresses of a node.

A network resolves each address of a node to it, but the node takes packets for
itself at one of them only. -/

set_option autoImplicit false

namespace Workbench.Network

/-- A packet was put in the inbound queue of its port at a node, and is not on its
way to another hop. -/
structure Delivered (n : NodeId) (data : InTransitData) (s s' : State) : Prop where
  queued : ∃ p, p.data = data ∧
    ((s'.nodes n).udpEndpoints data.transmit.destination.port).queue =
      ((s.nodes n).udpEndpoints data.transmit.destination.port).queue ++ [p]
  kept : (s'.nodes n).outbound = (s.nodes n).outbound

namespace State

/-- The way into the outbound buffer does not pass an endpoint. -/
theorem enqueueOutbound_endpoints (s : State) (n m : NodeId) (packet : BufferedPacket) :
    ((s.enqueueOutbound n packet).1.nodes m).udpEndpoints = (s.nodes m).udpEndpoints := by
  have same (s : State) (change : NodeState → NodeState)
      (kept : (change (s.nodes n)).udpEndpoints = (s.nodes n).udpEndpoints) :
      ((s.modifyNode n change).nodes m).udpEndpoints = (s.nodes m).udpEndpoints := by
    by_cases here : m = n
    · rw [here, modifyNode_self, kept]
    · rw [modifyNode_of_ne _ _ here]
  unfold enqueueOutbound
  split
  · rfl
  · next outboundBuffer _ =>
      dsimp only
      split
      · exact same s ({ · with outboundBuffer }) rfl
      · next outbound _ =>
          rw [same _ ({ · with outbound }) rfl]
          exact same s ({ · with outboundBuffer }) rfl

theorem enqueueWithDuplicate_endpoints (net : InMemoryNetwork) (s : State) (n m : NodeId)
    (packet : BufferedPacket) (duplicate : Bool) :
    ((s.enqueueWithDuplicate net n packet duplicate).1.nodes m).udpEndpoints =
      (s.nodes m).udpEndpoints := by
  unfold enqueueWithDuplicate
  split
  · dsimp only [newPacketId]
    have original := enqueueOutbound_endpoints { s with drawn := s.drawn + 1 } n m packet
    generalize State.enqueueOutbound { s with drawn := s.drawn + 1 } n packet = entered at original
    obtain ⟨s', exit⟩ := entered
    cases exit with
    | panicked => exact original
    | returned =>
        rw [enqueueOutbound_endpoints]
        exact original
  · exact enqueueOutbound_endpoints s n m packet

/-- A packet for another address than the canonical one passes no endpoint. -/
theorem forward_endpoints {net : InMemoryNetwork} {s : State} {n : NodeId} {data : InTransitData}
    (roll : Nat) (onward : (net.nodes n).canonicalAddress ≠ data.transmit.destination.ip)
    (m : NodeId) : ((s.forward net n data roll).1.nodes m).udpEndpoints =
      (s.nodes m).udpEndpoints := by
  unfold forward
  split
  · rfl
  dsimp only
  split
  · rfl
  split
  · rfl
  · exact enqueueWithDuplicate_endpoints net _ n m _ _

theorem forward_delivered_iff {net : InMemoryNetwork} {s : State} {n : NodeId}
    {data : InTransitData} (up : (s.nodes n).isDown = false) (roll : Nat) :
    Delivered n data s (s.forward net n data roll).1 ↔
      (net.nodes n).canonicalAddress = data.transmit.destination.ip := by
  constructor
  · intro delivered
    by_contra onward
    obtain ⟨p, -, queued⟩ := delivered.queued
    rw [forward_endpoints roll onward] at queued
    simp at queued
  · intro here
    unfold forward
    rw [if_neg (by simp [up]), if_pos here]
    refine ⟨⟨⟨data, s.now, 0⟩, rfl, ?_⟩, ?_⟩
    · simp [deliverPacket, NodeState.deliverPacket, InboundQueue.send, trackPacketInNode, record, note]
    · simp [deliverPacket, NodeState.deliverPacket, trackPacketInNode, record, note]

end State

namespace InMemoryNetwork

theorem Built.canonicalAddress {net : InMemoryNetwork} {spec : NetworkSpec} (built : net.Built spec)
    {node : NetworkNodeSpec} (member : node ∈ spec.nodes) :
    node.addresses.head? = some (net.nodes node.id).canonicalAddress := by
  obtain ⟨linksAddrMap, made⟩ := built.nodes node member
  exact (Node.new_ok made).2.1

/-- A node that is up delivers a packet for one of its addresses iff that address is
the first one of the node's description. -/
theorem delivered_iff {spec : NetworkSpec} {uuids : Nat → Uuid} {packetDelay : Nat → Nat → Nat}
    {net : InMemoryNetwork} (accepted : InMemoryNetwork.initialize spec uuids packetDelay = .ok net)
    {s : State} {n : NodeId} {data : InTransitData} (up : (s.nodes n).isDown = false)
    (resolved : net.nodesByAddr data.transmit.destination.ip = some n) (roll : Nat) :
    Delivered n data s (s.forward net n data roll).1 ↔
      ∃ node ∈ spec.nodes, node.id = n ∧
        node.addresses.head? = some data.transmit.destination.ip := by
  have built := initialized_built accepted
  rw [State.forward_delivered_iff up roll]
  constructor
  · intro here
    obtain ⟨node, member, rfl, -⟩ := built.nodesByAddr _ n resolved
    exact ⟨node, member, rfl, here ▸ built.canonicalAddress member⟩
  · rintro ⟨node, member, rfl, first⟩
    exact Option.some.inj ((built.canonicalAddress member).symm.trans first)

theorem delivered_iff_twoHosts : ∃ net,
    InMemoryNetwork.initialize .twoHosts id (fun _ size => size) = .ok net ∧
      (Delivered 1 ⟨0, false, 0, greeting, 0⟩ (.initial net)
          ((State.initial net).forward net 1 ⟨0, false, 0, greeting, 0⟩ 0).1 ↔
        ∃ node ∈ NetworkSpec.twoHosts.nodes, node.id = 1 ∧
          node.addresses.head? = some greeting.destination.ip) :=
  ⟨_, rfl, delivered_iff rfl rfl rfl 0⟩

/-- Two hosts, the second with two addresses, each with a link from the first host. -/
def twoAddresses : NetworkSpec where
  nodes :=
    [⟨0, 100, [⟨[⟨1, 24⟩], [⟨⟨.v4 2, .v4 4⟩, .v4 2, 1⟩]⟩], 0, 0⟩,
      ⟨1, 100, [⟨[⟨2, 24⟩], []⟩, ⟨[⟨4, 24⟩], []⟩], 0, 0⟩]
  links := [⟨0, .v4 1, .v4 2, 10, 1000, 0, 0, 0⟩]

/-- A packet for the second address of the second host is not delivered there. -/
theorem undelivered_at_second_address : ∃ net,
    InMemoryNetwork.initialize twoAddresses id (fun _ size => size) = .ok net ∧
      ∃ data : InTransitData, net.nodesByAddr data.transmit.destination.ip = some 1 ∧
        ¬ Delivered 1 data (.initial net) ((State.initial net).forward net 1 data 0).1 := by
  refine ⟨_, rfl, ⟨0, false, 0, { greeting with destination := ⟨.v4 4, 4433⟩ }, 0⟩, rfl,
    fun delivered => ?_⟩
  have here := (State.forward_delivered_iff rfl 0).mp delivered
  exact absurd here (by decide)

end InMemoryNetwork

end Workbench.Network
