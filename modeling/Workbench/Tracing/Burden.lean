import Mathlib.Algebra.BigOperators.Group.Finset.Piecewise
import Workbench.Network.Buffering
import Workbench.Network.Telling
import Workbench.Network.TimeToLive
import Workbench.Tracing.Following

/-! The bytes that the trace has in a node, as bytes of the simulator: those that take space
in the outbound buffer, those that wait in endpoints, and those that no application reads. -/

set_option autoImplicit false

namespace Workbench.Network

open Workbench.Library Workbench.Tracing

namespace Stage

variable {stage : Stage} {trace : List SimulationStep} {id : Uuid} {size : Nat}

/-- The bytes that a packet takes in a node. -/
def weight (n : NodeId) (size : Nat) (stage : Stage) : Nat := (stage.sizeAt n size).getD 0

@[simp] theorem weight_inside (n n' : NodeId) (size : Nat) :
    (inside n').weight n size = if n' = n then size else 0 := by
  change (if n' = n then some size else none).getD 0 = _
  split <;> rfl

@[simp] theorem weight_fresh (n : NodeId) (size : Nat) : fresh.weight n size = 0 := rfl

@[simp] theorem weight_flying (n : NodeId) (size : Nat) (l : LinkId) (sent : Nat) :
    (flying l sent).weight n size = 0 := rfl

/-- A packet that is nowhere gets to a node, whether or not it is said to be dropped there. -/
theorem At.created {time : Nat} {s : PacketInNode} (there : fresh.At trace s.packetId size) :
    (inside s.nodeId).At (trace ++ [⟨time, .packetInNode s⟩]) s.packetId s.packetSizeBytes := by
  refine ⟨?_, fun n => ?_⟩
  · rw [openFlight_concat]
    simp [SimulationStep.flight?, Stage.flight]
  · rw [sizeIn_concat, there.sizes, there.flight]
    by_cases here : s.nodeId = n <;>
      simp [SimulationStep.stay?, SimulationStep.sizeBytes, sizeAt, here, Stage.flight]

/-- A packet that comes from a link is dropped on arrival. -/
theorem At.refused {time : Nat} {s : PacketInNode} {l : LinkId} {sent : Nat}
    (there : (flying l sent).At trace s.packetId size) (dropped : s.droppedOnArrival = true)
    (size' : Nat) : fresh.At (trace ++ [⟨time, .packetInNode s⟩]) s.packetId size' := by
  refine ⟨?_, fun n => ?_⟩
  · rw [openFlight_concat]
    simp [SimulationStep.flight?, Stage.flight]
  · rw [sizeIn_concat, there.sizes, there.flight]
    simp [SimulationStep.stay?, sizeAt, Stage.flight, dropped]

theorem At.lost {time : Nat} {s : PacketLostInTransit} {l : LinkId} {sent : Nat}
    (there : (flying l sent).At trace s.packetId size) (size' : Nat) :
    fresh.At (trace ++ [⟨time, .packetLostInTransit s⟩]) s.packetId size' := by
  refine ⟨?_, fun n => ?_⟩
  · rw [openFlight_concat]
    simp [SimulationStep.flight?, Stage.flight]
  · rw [sizeIn_concat, there.sizes]
    rfl

theorem At.dropped {time : Nat} {s : PacketDropped}
    (there : (inside s.nodeId).At trace s.packetId size) (size' : Nat) :
    fresh.At (trace ++ [⟨time, .packetDropped s⟩]) s.packetId size' := by
  refine ⟨?_, fun n => ?_⟩
  · rw [openFlight_concat]
    exact there.flight
  · rw [sizeIn_concat, there.sizes]
    by_cases here : s.nodeId = n <;> simp [SimulationStep.stay?, sizeAt, here]

theorem At.delivered {time : Nat} {s : GenericPacketEvent}
    (there : (inside s.nodeId).At trace s.packetId size) (size' : Nat) :
    fresh.At (trace ++ [⟨time, .packetDeliveredToApplication s⟩]) s.packetId size' := by
  refine ⟨?_, fun n => ?_⟩
  · rw [openFlight_concat]
    exact there.flight
  · rw [sizeIn_concat, there.sizes]
    by_cases here : s.nodeId = n <;> simp [SimulationStep.stay?, sizeAt, here]

end Stage

/-- The packets of a read that come after one that is too large for the application. -/
def unhanded (bufferSize : Nat) : List DeliveredTransmit → List DeliveredTransmit
  | [] => []
  | transmit :: delivered =>
    if bufferSize < transmit.data.transmit.contents.length then delivered
    else unhanded bufferSize delivered

/-- The packets that a poll hands over. -/
def Poll.packets : Poll (List DeliveredTransmit) → List DeliveredTransmit
  | .pending => []
  | .ready delivered => delivered

def deliveredSize (delivered : List DeliveredTransmit) : Nat := totalSize (delivered.map (·.data))

/-- The ports that packets were sent to in a run. -/
def portsOf (past : List (State × Action)) : Finset Port :=
  ((transmitsOf past).map (·.destination.port)).toFinset

namespace State

/-- The bytes that wait in the endpoints of a node. -/
def unread (s : State) (n : NodeId) (ports : Finset Port) : Nat :=
  ∑ port ∈ ports, totalSize (((s.nodes n).udpEndpoints port).queue.map (·.data))

/-- The bytes that come to a node, or leave its endpoints, without an application that ever
reads them: packets that are sent at a node that is down, packets of a read that do not get
to the application, and those that a connectivity check receives. -/
def overlooked (s : State) (n : NodeId) : Action → Nat
  | .sendUdp node transmit _ =>
    if node = n ∧ (s.nodes n).isDown = true then transmit.packetSize else 0
  | .pollRecv node port slots bufferSize ties =>
    if node = n then
      let delivered := (((s.sockets node port).getD (.new slots)).poll
        ((s.nodes node).udpEndpoints port) s.now ties 0).1.packets
      deliveredSize (unhanded bufferSize (delivered.take slots)) + deliveredSize (delivered.drop slots)
    else 0
  | .checkReceive node port ties =>
    if node = n then deliveredSize ((NextPacketDelivery.new 1).poll
      ((s.nodes node).udpEndpoints port) s.now ties 0).1.packets
    else 0
  | _ => 0

/-- The bytes that the trace has in a node, less those that the simulator accounts for. -/
def surplus (s : State) (n : NodeId) (ports : Finset Port) : Int :=
  heldBytes n s.trace + totalSize (s.departures n) - totalSize (s.reservations n) - s.unread n ports

/-- The books, the endpoints and the bytes in nodes stay the same. -/
structure SameLoad (s s' : State) : Prop where
  held : ∀ n, heldBytes n s'.trace = heldBytes n s.trace
  reservations : ∀ n, totalSize (s'.reservations n) = totalSize (s.reservations n)
  departures : ∀ n, totalSize (s'.departures n) = totalSize (s.departures n)
  endpoints : ∀ n port, ((s'.nodes n).udpEndpoints port).queue = ((s.nodes n).udpEndpoints port).queue

variable {net : InMemoryNetwork} {s s' s'' : State} {n m : NodeId} {ports : Finset Port}

theorem SameLoad.unread (same : SameLoad s s') : s'.unread n ports = s.unread n ports :=
  Finset.sum_congr rfl fun port _ => by rw [same.endpoints]

theorem SameLoad.surplus (same : SameLoad s s') : s'.surplus n ports = s.surplus n ports := by
  rw [State.surplus, State.surplus, same.held, same.reservations, same.departures, same.unread]

theorem SameLoad.trans (first : SameLoad s s') (second : SameLoad s' s'') : SameLoad s s'' where
  held n := (second.held n).trans (first.held n)
  reservations n := (second.reservations n).trans (first.reservations n)
  departures n := (second.departures n).trans (first.departures n)
  endpoints n port := (second.endpoints n port).trans (first.endpoints n port)

theorem SameLoad.of_fields (nodes : s'.nodes = s.nodes) (log : s'.log = s.log)
    (dispatches : s'.dispatches = s.dispatches) : SameLoad s s' := by
  refine ⟨fun n => ?_, fun n => ?_, fun n => ?_, fun n port => ?_⟩
  · rw [State.trace, log, State.trace]
  · rw [State.reservations, log, State.reservations]
  · rw [State.departures, dispatches, State.departures]
  · rw [nodes]

theorem SameLoad.modifyNode (s : State) (n : NodeId) (change : NodeState → NodeState)
    (endpoints : (change (s.nodes n)).udpEndpoints = (s.nodes n).udpEndpoints) :
    SameLoad s (s.modifyNode n change) := by
  refine ⟨fun _ => rfl, fun _ => rfl, fun _ => rfl, fun n' port => ?_⟩
  by_cases same : n' = n
  · rw [same, modifyNode_self, endpoints]
  · rw [modifyNode_of_ne _ _ same]

theorem SameLoad.mark (s : State) {entry : LogEntry} (silent : entry.step? = none)
    (unreserved : ∀ n, entry.reservation? n = none) : SameLoad s (s.note entry) := by
  refine ⟨fun n => ?_, fun n => ?_, fun _ => rfl, fun _ _ => rfl⟩
  · simp [State.trace, State.note, silent]
  · simp [State.reservations, State.note, unreserved n]

/-- A step about a packet weighs what it moves into the node. -/
theorem surplus_record {kind : SimulationStepKind} {stage stage' : Stage} {id : Uuid}
    {size size' : Nat} (about : (⟨s.now, kind⟩ : SimulationStep).packet? = some id)
    (there : stage.At s.trace id size)
    (there' : stage'.At (s.trace ++ [⟨s.now, kind⟩]) id size') :
    (s.record kind).surplus n ports =
      s.surplus n ports + stage'.weight n size' - stage.weight n size := by
  have grown : (s.record kind).trace = s.trace ++ [⟨s.now, kind⟩] := by
    simp [State.trace, State.record, State.note, LogEntry.step?]
  have same := SameBooks.record s kind
  have others (id' : Uuid) (differs : id' ≠ id) :
      sizeIn n id' (s.trace ++ [⟨s.now, kind⟩]) = sizeIn n id' s.trace := by
    have other : (⟨s.now, kind⟩ : SimulationStep).packet? ≠ some id' := by
      rw [about]
      exact fun same => differs (Option.some.inj same).symm
    rw [sizeIn_concat, (SimulationStep.other_packet other).1]
    rfl
  have held := heldBytes_concat id others
  rw [there.sizes, there'.sizes] at held
  have unread : (s.record kind).unread n ports = s.unread n ports := rfl
  unfold State.surplus Stage.weight
  rw [grown, same.reservations, same.departures, unread]
  omega

/-- Space that is reserved for a packet accounts for it. -/
theorem surplus_reserved (s : State) (n m : NodeId) (data : InTransitData) :
    (s.note (.reserved n data)).surplus m ports =
      s.surplus m ports - (Stage.inside n).weight m data.size := by
  have trace : (s.note (.reserved n data)).trace = s.trace := by
    simp [State.trace, State.note, LogEntry.step?]
  have reservations : (s.note (.reserved n data)).reservations m =
      s.reservations m ++ if n = m then [data] else [] := by
    rw [State.reservations, State.note, List.filterMap_append, State.reservations]
    by_cases same : n = m <;> simp [LogEntry.reservation?, same]
  have departures : (s.note (.reserved n data)).departures m = s.departures m := rfl
  have unread : (s.note (.reserved n data)).unread m ports = s.unread m ports := rfl
  rw [State.surplus, State.surplus, trace, reservations, departures, unread, totalSize_append,
    Stage.weight_inside]
  split
  · simp
    omega
  · simp

/-! The steps about packets. -/

theorem trackDropped_surplus {data : InTransitData} (reason : DropReason)
    (there : (Stage.inside n).At s.trace data.id data.size) :
    (s.trackDropped n data reason).surplus m ports =
      s.surplus m ports - (Stage.inside n).weight m data.size := by
  have weighed : (s.trackDropped n data reason).surplus m ports =
      s.surplus m ports + Stage.fresh.weight m data.size - (Stage.inside n).weight m data.size :=
    surplus_record rfl there (Stage.At.dropped (s := ⟨data.id, n, reason⟩) there data.size)
  simpa using weighed

theorem trackReadByApplication_surplus {data : InTransitData}
    (there : (Stage.inside n).At s.trace data.id data.size) :
    (s.trackReadByApplication n data).surplus m ports =
      s.surplus m ports - (Stage.inside n).weight m data.size := by
  have weighed : (s.trackReadByApplication n data).surplus m ports =
      s.surplus m ports + Stage.fresh.weight m data.size - (Stage.inside n).weight m data.size :=
    surplus_record rfl there
      (Stage.At.delivered (s := ⟨data.id, data.number, data.size, n⟩) there data.size)
  simpa using weighed

theorem trackDuplicate_surplus {data : InTransitData} (there : Stage.fresh.At s.trace data.id 0) :
    (Stage.inside n).At (s.trackInjectedFailures n data true 0 false).trace data.id data.size ∧
      (s.trackInjectedFailures n data true 0 false).surplus m ports =
        s.surplus m ports + (Stage.inside n).weight m data.size := by
  have grown : (s.trackInjectedFailures n data true 0 false).trace =
      s.trace ++ [⟨s.now, .packetDuplicated ⟨data.id, data.number, data.size, n⟩⟩] :=
    List.filterMap_append
  have enters : (Stage.inside n).At
      (s.trace ++ [⟨s.now, .packetDuplicated ⟨data.id, data.number, data.size, n⟩⟩])
      data.id data.size := Stage.At.duplicated (s := ⟨data.id, data.number, data.size, n⟩) there
  have weighed : (s.trackInjectedFailures n data true 0 false).surplus m ports =
      s.surplus m ports + (Stage.inside n).weight m data.size - Stage.fresh.weight m 0 :=
    surplus_record rfl there enters
  exact ⟨grown ▸ enters, by simpa using weighed⟩

theorem trackPacketInNode_surplus {data : InTransitData} {stage : Stage}
    (there : stage.At s.trace data.id data.size) (outside : ∀ n, stage ≠ .inside n) :
    (Stage.inside n).At (s.trackPacketInNode n data).trace data.id data.size ∧
      (s.trackPacketInNode n data).surplus m ports =
        s.surplus m ports + (Stage.inside n).weight m data.size := by
  have grown : (s.trackPacketInNode n data).trace =
      s.trace ++ [⟨s.now, .packetInNode ⟨data.id, data.number, data.size, n, false⟩⟩] :=
    List.filterMap_append
  have enters : (Stage.inside n).At
      (s.trace ++ [⟨s.now, .packetInNode ⟨data.id, data.number, data.size, n, false⟩⟩])
      data.id data.size :=
    Stage.At.enters (s := ⟨data.id, data.number, data.size, n, false⟩) there outside rfl
  have weighed : (s.trackPacketInNode n data).surplus m ports = s.surplus m ports +
      (Stage.inside n).weight m data.size - stage.weight m data.size :=
    surplus_record rfl there enters
  have light : stage.weight m data.size = 0 := by
    cases stage with
    | inside n' => exact absurd rfl (outside n')
    | fresh | flying => rfl
  rw [light] at weighed
  exact ⟨grown ▸ enters, by simpa using weighed⟩

/-! The ways of a packet that is in a node. -/

theorem enqueueOutbound_surplus {packet : BufferedPacket}
    (there : (Stage.inside n).At s.trace packet.data.id packet.data.size) :
    (s.enqueueOutbound n packet).1.surplus m ports =
      s.surplus m ports - (Stage.inside n).weight m packet.data.size := by
  unfold enqueueOutbound
  split
  · -- the buffer is full: the bytes leave the node
    exact trackDropped_surplus .bufferFull there
  · -- the bytes stay, and the buffer has them on its books
    next outboundBuffer _ =>
    have changed : SameLoad s (s.modifyNode n ({ · with outboundBuffer })) :=
      .modifyNode s n _ rfl
    have reserved : ((s.modifyNode n ({ · with outboundBuffer })).note
        (.reserved n packet.data)).surplus m ports =
          s.surplus m ports - (Stage.inside n).weight m packet.data.size := by
      rw [surplus_reserved, changed.surplus]
    dsimp only
    split
    · exact reserved
    · next outbound _ =>
      have sent : SameLoad ((s.modifyNode n ({ · with outboundBuffer })).note (.reserved n packet.data))
        (((s.modifyNode n ({ · with outboundBuffer })).note (.reserved n packet.data)).modifyNode n
          ({ · with outbound })) := .modifyNode _ n _ rfl
      exact sent.surplus.trans reserved

/-- Another packet is where it was once a packet is stored or dropped. -/
theorem enqueueOutbound_at {packet : BufferedPacket} {stage : Stage} {id : Uuid} {size : Nat}
    (there : stage.At s.trace id size) (differs : packet.data.id ≠ id) :
    stage.At (s.enqueueOutbound n packet).1.trace id size := by
  unfold enqueueOutbound
  split
  · have grown : (s.trackDroppedBecauseBufferFull n packet.data).trace =
        s.trace ++ [⟨s.now, .packetDropped ⟨packet.data.id, n, .bufferFull⟩⟩] :=
      List.filterMap_append
    rw [grown]
    exact there.other fun same => differs (Option.some.inj same)
  · next outboundBuffer _ =>
    have same : ((s.modifyNode n ({ · with outboundBuffer })).note (.reserved n packet.data)).trace =
        s.trace := by
      simp [trace, note, modifyNode, LogEntry.step?]
    dsimp only
    split
    · exact same ▸ there
    · exact same ▸ there

theorem enqueueWithDuplicate_surplus {packet : BufferedPacket} (duplicate : Bool)
    (there : (Stage.inside n).At s.trace packet.data.id packet.data.size)
    (unseen : Stage.fresh.At s.trace (net.uuids s.drawn) 0)
    (differs : packet.data.id ≠ net.uuids s.drawn) :
    (s.enqueueWithDuplicate net n packet duplicate).1.surplus m ports =
      s.surplus m ports - (Stage.inside n).weight m packet.data.size := by
  unfold enqueueWithDuplicate
  split
  · dsimp only [newPacketId]
    have drawn : SameLoad s { s with drawn := s.drawn + 1 } := .of_fields rfl rfl rfl
    have same : ({ s with drawn := s.drawn + 1 } : State).trace = s.trace := rfl
    rw [← same] at there unseen
    rw [← drawn.surplus]
    generalize ({ s with drawn := s.drawn + 1 } : State) = t at there unseen ⊢
    have original : (t.enqueueOutbound n packet).1.surplus m ports =
        t.surplus m ports - (Stage.inside n).weight m packet.data.size :=
      enqueueOutbound_surplus there
    have copied : Stage.fresh.At (t.enqueueOutbound n packet).1.trace (net.uuids s.drawn) 0 :=
      enqueueOutbound_at unseen differs
    generalize t.enqueueOutbound n packet = entered at original copied
    obtain ⟨s', exit⟩ := entered
    cases exit with
    | panicked => exact original
    | returned =>
        -- the copy takes room in the node, and leaves it or is accounted for in turn
        have told (copy : InTransitData) (unseen : Stage.fresh.At s'.trace copy.id 0) :
            ((s'.trackInjectedFailures n copy true 0 false).enqueueOutbound n
              ⟨packet.inNodeSince, copy⟩).1.surplus m ports = s'.surplus m ports := by
          obtain ⟨enters, weighed⟩ := trackDuplicate_surplus (n := n) (m := m) unseen
          rw [enqueueOutbound_surplus enters, weighed]
          exact add_sub_cancel_right _ _
        exact (told _ copied).trans original
  · exact enqueueOutbound_surplus there

/-- A packet that is delivered waits in an endpoint. -/
theorem deliverPacket_surplus (s : State) (n m : NodeId) (data : InTransitData)
    (port : data.transmit.destination.port ∈ ports) : (s.deliverPacket n data).surplus m ports =
      s.surplus m ports - (Stage.inside n).weight m data.size := by
  have unread : (s.deliverPacket n data).unread m ports =
      s.unread m ports + (Stage.inside n).weight m data.size := by
    rw [Stage.weight_inside]
    by_cases here : n = m
    · subst here
      have queued (p : Port) : totalSize
          ((((s.deliverPacket n data).nodes n).udpEndpoints p).queue.map (·.data)) =
            totalSize (((s.nodes n).udpEndpoints p).queue.map (·.data)) +
              if p = data.transmit.destination.port then data.size else 0 := by
        rw [deliverPacket, modifyNode_self, NodeState.deliverPacket]
        by_cases same : p = data.transmit.destination.port
        · subst same
          simp [InboundQueue.send, totalSize_append]
        · simp [same]
      simp only [State.unread, queued, Finset.sum_add_distrib, Finset.sum_ite_eq', port, if_true]
    · have same : (s.deliverPacket n data).unread m ports = s.unread m ports := by
        simp only [State.unread, deliverPacket, modifyNode_of_ne _ _ (Ne.symm here)]
      rw [same, if_neg here, Nat.add_zero]
  have trace : (s.deliverPacket n data).trace = s.trace := rfl
  have books : (s.deliverPacket n data).departures m = s.departures m ∧
      (s.deliverPacket n data).reservations m = s.reservations m := ⟨rfl, rfl⟩
  rw [State.surplus, State.surplus, trace, books.1, books.2, unread]
  omega


end State

/-- What the steps of a run rest on, where some packets are in hand. -/
structure Moment.Assured (m : Moment) (net : InMemoryNetwork) : Prop where
  competing : m.state.Competing net
  located : Located net False m
  follows : m.Follows net

namespace Moment

variable {net : InMemoryNetwork} {licence : Licence} {m m' : Moment} {s : State} {hand : List Held}
  {data : InTransitData} {stage : Stage}

theorem Assured.effects (assured : m.Assured net) (fresh : Function.Injective net.uuids)
    (effects : Effects net licence m m') : m'.Assured net := by
  refine effects.invariant (·.Assured net) assured fun _ _ ⟨competing, located, follows⟩ effect => ?_
  exact ⟨competing.effect effect, located.effect fresh competing effect False.elim,
    follows.effect fresh competing located effect⟩

theorem Assured.there (assured : Assured ⟨s, ⟨data, stage⟩ :: hand⟩ net) :
    stage.At s.trace data.id data.size :=
  (assured.follows.placed ⟨data, stage⟩ (.inl List.mem_cons_self)).there

/-- The next uuid is of no packet yet. -/
theorem Assured.unseen (assured : Assured ⟨s, hand⟩ net) (fresh : Function.Injective net.uuids) :
    Stage.fresh.At s.trace (net.uuids s.drawn) 0 := by
  refine assured.follows.unseen _ ?_ 0
  rintro ⟨i, before, same⟩
  exact absurd (fresh same) before.ne

theorem Assured.differs (assured : Assured ⟨s, ⟨data, stage⟩ :: hand⟩ net)
    (fresh : Function.Injective net.uuids) : data.id ≠ net.uuids s.drawn := by
  have has : Moment.Has ⟨s, ⟨data, stage⟩ :: hand⟩ ⟨data, stage⟩ := .inl List.mem_cons_self
  obtain ⟨i, before, same⟩ := has.issued assured.located
  rw [← same]
  intro next
  exact absurd (fresh next) before.ne

end Moment

namespace State

variable {net : InMemoryNetwork} {s s' : State} {n m : NodeId} {ports : Finset Port}
  {hand : List Held}

/-- A packet that a node gets is accounted for, but for one that is new at a node that is down. -/
theorem forward_surplus {data : InTransitData} {stage : Stage} (roll : Nat)
    (there : stage.At s.trace data.id data.size) (outside : ∀ n, stage ≠ .inside n)
    (unseen : Stage.fresh.At s.trace (net.uuids s.drawn) 0) (differs : data.id ≠ net.uuids s.drawn)
    (port : data.transmit.destination.port ∈ ports) :
    (s.forward net n data roll).1.surplus m ports = s.surplus m ports +
      if stage = .fresh ∧ (s.nodes n).isDown = true then (Stage.inside n).weight m data.size
      else 0 := by
  unfold forward
  split
  · next down =>
    rw [down]
    cases stage with
    | inside n' => exact absurd rfl (outside n')
    | fresh =>
        -- a packet from nowhere is in the node by its trace, dropped or not
        have weighed : (s.trackDroppedOnArrival n data).surplus m ports = s.surplus m ports +
            (Stage.inside n).weight m data.size - Stage.fresh.weight m data.size :=
          surplus_record rfl there
            (Stage.At.created (s := ⟨data.id, data.number, data.size, n, true⟩) there)
        simpa using weighed
    | flying l sent =>
        have weighed : (s.trackDroppedOnArrival n data).surplus m ports = s.surplus m ports +
            Stage.fresh.weight m data.size - (Stage.flying l sent).weight m data.size :=
          surplus_record rfl there
            (Stage.At.refused (s := ⟨data.id, data.number, data.size, n, true⟩) there rfl data.size)
        simpa using weighed
  · next up =>
    simp only [up, Bool.false_eq_true, and_false, if_false, Int.natCast_zero, add_zero]
    obtain ⟨enters, weighed⟩ : _ ∧ (s.trackPacketInNode n data).surplus m ports =
        s.surplus m ports + (Stage.inside n).weight m data.size :=
      trackPacketInNode_surplus there outside
    have unseen' : Stage.fresh.At (s.trackPacketInNode n data).trace (net.uuids s.drawn) 0 := by
      have grown : (s.trackPacketInNode n data).trace =
          s.trace ++ [⟨s.now, .packetInNode ⟨data.id, data.number, data.size, n, false⟩⟩] :=
        List.filterMap_append
      rw [grown]
      exact unseen.other fun same => differs (Option.some.inj same)
    have drawn : (s.trackPacketInNode n data).drawn = s.drawn := rfl
    rw [← drawn] at unseen' differs
    generalize s.trackPacketInNode n data = t at enters weighed unseen' differs
    -- in whatever way it leaves the hand, the packet takes its bytes along
    have leaves {t' : State} (left : t'.surplus m ports =
        t.surplus m ports - (Stage.inside n).weight m data.size) :
        t'.surplus m ports = s.surplus m ports := by
      rw [left, weighed]
      exact add_sub_cancel_right _ _
    split
    · exact leaves (deliverPacket_surplus t n m data port)
    split
    · exact leaves (trackDropped_surplus .zeroTtl enters)
    split
    · exact leaves (trackDropped_surplus .random enters)
    · exact leaves (enqueueWithDuplicate_surplus _ enters unseen' differs)

/-- What a panic adds changes no load. -/
theorem SameLoad.panic (s : State) : SameLoad s { s with panicked := true } := .of_fields rfl rfl rfl

theorem SameLoad.modifyLink (s : State) (l : LinkId) (change : LinkState → LinkState) :
    SameLoad s (s.modifyLink l change) := .of_fields rfl rfl rfl

/-! The forwarder of a link. -/

theorem arrive_surplus {l : LinkId} {transmit : DeliveredTransmit} (roll : Nat)
    (fresh : Function.Injective net.uuids)
    (assured : Moment.Assured ⟨s, ⟨transmit.data, .flying l transmit.sent⟩ :: hand⟩ net)
    (port : transmit.data.transmit.destination.port ∈ ports) :
    (s.arrive net l transmit roll).1.surplus m ports = s.surplus m ports := by
  have taken : SameLoad s (s.note (.arrived l transmit.data.id)) := .mark s rfl fun _ => rfl
  have trace : (s.note (.arrived l transmit.data.id)).trace = s.trace := by
    simp [State.trace, State.note, LogEntry.step?]
  have there := trace.symm ▸ assured.there
  unfold arrive
  rw [← taken.surplus]
  dsimp only
  split
  · have weighed : ((s.note (.arrived l transmit.data.id)).trackLostInTransit l
        transmit.data).surplus m ports = (s.note (.arrived l transmit.data.id)).surplus m ports +
          Stage.fresh.weight m transmit.data.size -
          (Stage.flying l transmit.sent).weight m transmit.data.size :=
      surplus_record rfl there (Stage.At.lost (s := ⟨transmit.data.id, l⟩) there transmit.data.size)
    simpa using weighed
  split
  · exact (SameLoad.mark _ rfl fun _ => rfl).surplus
  · have unseen := trace.symm ▸ assured.unseen fresh
    simpa using forward_surplus roll there (by simp) unseen (assured.differs fresh) port

theorem arriveAll_surplus {l : LinkId} (delivered : List DeliveredTransmit) (rolls : List Nat)
    (fresh : Function.Injective net.uuids) (member : l ∈ net.linkIds)
    (assured : Moment.Assured ⟨s, delivered.map fun t => ⟨t.data, .flying l t.sent⟩⟩ net)
    (inside : ∀ transmit ∈ delivered, transmit.data.transmit.destination.port ∈ ports) :
    (arriveAll net l delivered rolls s).surplus m ports = s.surplus m ports := by
  induction delivered generalizing s rolls with
  | nil => exact (SameLoad.modifyLink s l _).surplus
  | cons transmit delivered ih =>
      let licence : Licence := ⟨fun _ _ => 0, True, True⟩
      rw [List.map_cons] at assured
      have arrived : (s.arrive net l transmit (rolls.headD 0)).1.surplus m ports = s.surplus m ports :=
        arrive_surplus _ fresh assured (inside transmit List.mem_cons_self)
      have effects : Effects net licence _ ⟨(s.arrive net l transmit (rolls.headD 0)).1,
          delivered.map fun t => ⟨t.data, .flying l t.sent⟩⟩ :=
        arrive_effects s l transmit (rolls.headD 0) _ member fun _ => trivial
      have assured := assured.effects fresh effects
      unfold arriveAll
      generalize s.arrive net l transmit (rolls.headD 0) = result at arrived assured
      obtain ⟨t, exit⟩ := result
      rw [← arrived]
      cases exit with
      | returned =>
          exact ih rolls.tail assured fun transmit within =>
            inside transmit (List.mem_cons_of_mem _ within)
      | panicked =>
          -- the packets that are left are of no node
          exact ((SameLoad.modifyLink t l _).trans (.panic _)).surplus

theorem pollForwarder_surplus {l : LinkId} {ties rolls : List Nat}
    (fresh : Function.Injective net.uuids) (member : l ∈ net.linkIds)
    (assured : Moment.Assured ⟨s, []⟩ net) (taken : s.pollForwarder net l ties rolls = some s')
    (inside : ∀ p ∈ (s.links l).inTransit.queue, p.data.transmit.destination.port ∈ ports) :
    s'.surplus m ports = s.surplus m ports := by
  rw [pollForwarder] at taken
  split at taken
  · simp at taken
  split at taken
  · obtain rfl := Option.some.inj taken
    exact (SameLoad.modifyLink s l _).surplus
  · next delivered delivery inTransit polled =>
    obtain rfl := Option.some.inj taken
    have moved := (NextPacketDelivery.poll_ready polled).1
    have collects : Effect net ⟨fun _ _ => 0, True, True⟩ ⟨s, []⟩ _ :=
      .collect s l delivered inTransit ⟨true, delivery⟩ member moved
    have within : ∀ transmit ∈ delivered, transmit.data.transmit.destination.port ∈ ports := by
      intro transmit came
      obtain ⟨p, queued, rfl⟩ := List.mem_map.mp (moved.mem_iff.mpr (List.mem_append_left _ came))
      exact inside p queued
    have assured := assured.effects fresh (.single collects)
    rw [arriveAll_surplus delivered rolls fresh member assured within]
    exact (SameLoad.modifyLink s l _).surplus

/-! Events, and the buffer processor of a node. -/

theorem SameLoad.tell (s : State) {kind : SimulationStepKind}
    (silent : (⟨s.now, kind⟩ : SimulationStep).packet? = none) : SameLoad s (s.record kind) := by
  have same := SameBooks.record s kind
  have grown : (s.record kind).trace = s.trace ++ [⟨s.now, kind⟩] := List.filterMap_append
  refine ⟨fun n => ?_, fun n => by rw [same.reservations], fun n => by rw [same.departures],
    fun _ _ => rfl⟩
  rw [grown, heldBytes_silent silent]

theorem processNodeEvent_load (net : InMemoryNetwork) (s : State) (event : NodeEventPayload) :
    SameLoad s (s.processNodeEvent net event) := by
  unfold processNodeEvent
  dsimp only
  split
  · exact .of_fields rfl rfl rfl
  have updated : SameLoad s (event.status.elim s fun status =>
      s.modifyNode event.nodeId (·.updateStatus status)) := by
    cases event.status with
    | none => exact .of_fields rfl rfl rfl
    | some status => exact .modifyNode s event.nodeId (·.updateStatus status) rfl
  refine updated.trans ?_
  generalize event.status.elim s _ = t
  split
  · exact (SameLoad.modifyNode t event.nodeId (·.clearBuffer _) rfl).trans (.tell _ rfl)
  · exact .tell t rfl

theorem processLinkEvent_load (net : InMemoryNetwork) (s : State) (event : LinkEventPayload) :
    SameLoad s (s.processLinkEvent net event) := by
  unfold processLinkEvent
  dsimp only
  split
  · exact .of_fields rfl rfl rfl
  have delayed : SameLoad s (event.delay.elim s (s.changeLinkDelay event.linkId)) := by
    cases event.delay with
    | none => exact .of_fields rfl rfl rfl
    | some delay =>
        change SameLoad s (s.changeLinkDelay event.linkId delay)
        unfold changeLinkDelay
        split
        · exact .modifyLink s _ _
        · exact .of_fields rfl rfl rfl
  refine delayed.trans ?_
  generalize event.delay.elim s _ = t
  have updated : SameLoad t (event.status.elim t (t.updateLinkStatus event.linkId)) := by
    cases event.status with
    | none => exact .of_fields rfl rfl rfl
    | some status =>
        change SameLoad t (t.updateLinkStatus event.linkId status)
        unfold updateLinkStatus
        dsimp only
        split
        · exact (SameLoad.modifyLink t _ _).trans (.mark _ rfl fun _ => rfl)
        · exact .modifyLink t _ _
  exact updated.trans (.tell _ rfl)

theorem processBuffer_load {rolls : List (Nat × Nat)} (taken : s.processBuffer net n rolls = some s') :
    SameLoad s s' := by
  have ends (t : State) : SameLoad t (t.endBufferProcessor n) := .modifyNode t n _ rfl
  obtain ⟨packet, rest, queued, rfl | ⟨links, t, -, pushes, done⟩⟩ := processBuffer_cases taken
  · exact ends s
  have pushed := pushCopies_pushed net n packet s.dispatches.length links links rolls
    ((s.takeBuffered n rest).openDispatch n packet links)
  rw [← pushes] at pushed
  have took : SameLoad s (s.takeBuffered n rest) := .modifyNode s n _ rfl
  have dispatches : t.dispatches = s.dispatches ++ [⟨n, packet, links, false, []⟩] := pushed.dispatches
  have nodes : t.nodes = (s.takeBuffered n rest).nodes := pushed.nodes
  have log : t.log = (s.takeBuffered n rest).log := pushed.log
  have load : SameLoad s t := by
    refine took.trans ⟨fun m => ?_, fun m => ?_, fun m => ?_, fun m port => ?_⟩
    · rw [State.trace, log, State.trace]
    · rw [State.reservations, log, State.reservations]
    · -- no link has acted on the dispatch yet
      simp [State.departures, dispatches, Dispatch.departure?, takeBuffered, modifyNode]
    · rw [nodes]
  rcases done with rfl | rfl
  · exact load
  · exact (load.trans (ends t)).trans (.panic _)

/-! The queue task of a link. -/

theorem Works.load {l : LinkId} (works : Works s s' l) : SameLoad s s' :=
  .of_fields works.nodes works.log works.dispatches

/-- The act of a link takes a packet's bytes off the books. -/
theorem Takes.departs_surplus {t : State} {l : LinkId} {k : OutgoingPacket} (takes : s.Takes t l k)
    (competing : s.Competing net) (unhandled : s.handled k.handled = false) (act : Act) :
    ((t.markHandled k).noteAct k.handled l act).surplus m ports =
      s.surplus m ports + (Stage.inside k.srcNode).weight m k.data.size := by
  generalize acted : (t.markHandled k).noteAct k.handled l act = u
  have dispatches : u.dispatches = t.dispatches.modify k.handled fun d =>
      { d with handled := true, acts := d.acts ++ [(l, act)] } := by
    rw [← acted]
    exact List.modify_modify_eq _ _ k.handled t.dispatches
  obtain ⟨left, -⟩ := takes.handled_books competing unhandled _ dispatches m
  have log : u.log = s.log := by
    rw [← acted, ← takes.works.log]
    rfl
  have nodes : u.nodes = s.nodes := by
    rw [← acted, ← takes.works.nodes]
    rfl
  have departures := totalSize_perm left
  rw [totalSize_append] at departures
  have trace : u.trace = s.trace := congrArg (List.filterMap LogEntry.step?) log
  have reservations : u.reservations m = s.reservations m :=
    congrArg (List.filterMap (LogEntry.reservation? m)) log
  have unread : u.unread m ports = s.unread m ports := by
    rw [State.unread, nodes, State.unread]
  rw [State.surplus, State.surplus, trace, reservations, unread, departures, Stage.weight_inside]
  by_cases here : k.srcNode = m
  · simp [here]
    omega
  · simp [here]

theorem pollLink_surplus {l : LinkId} (assured : Moment.Assured ⟨s, []⟩ net)
    (taken : s.pollLink net l = some s') : s'.surplus m ports = s.surplus m ports := by
  have ends (t : State) : SameLoad t (t.endQueueTask l) := .of_fields rfl rfl rfl
  have there {t : State} {k : OutgoingPacket} (takes : s.Takes t l k)
      (unhandled : s.handled k.handled = false) :
      (Stage.inside k.srcNode).At s.trace k.data.id k.data.size :=
    (assured.follows.placed ⟨k.data, .inside k.srcNode⟩
      (.inr (takes.has assured.competing unhandled))).there
  have same {t : State} {k : OutgoingPacket} (takes : s.Takes t l k) (act : Act) :
      ((t.markHandled k).noteAct k.handled l act).trace = s.trace :=
    congrArg (List.filterMap LogEntry.step?) takes.works.log
  cases pollLink_polls taken with
  | waits quiet works => exact works.load.surplus
  | panics works alive => exact (works.load.trans (ends _)).surplus
  | discards takes handled => exact takes.works.load.surplus
  | @clears t k takes unhandled cleared =>
      have gone : (t.dropCleared l k).surplus m ports =
          ((t.markHandled k).noteAct k.handled l .cleared).surplus m ports -
            (Stage.inside k.srcNode).weight m k.data.size :=
        trackDropped_surplus .bufferCleared ((same takes .cleared).symm ▸ there takes unhandled)
      refine gone.trans ?_
      rw [takes.departs_surplus assured.competing unhandled]
      exact add_sub_cancel_right _ _
  | @sends t k data pacer takes unhandled kept up marked =>
      -- the packet departs from the books and from the node at once
      obtain ⟨id, -, -⟩ := PacketAnomalies.mark_some marked
      let u := (t.markHandled k).noteAct k.handled l .sent
      let kind : SimulationStepKind := .packetInTransit ⟨data.id, k.srcNode, l⟩
      have inside : (Stage.inside k.srcNode).At u.trace data.id k.data.size :=
        (same takes .sent).symm ▸ id ▸ there takes unhandled
      have launched : (u.record kind).surplus m ports = u.surplus m ports +
          (Stage.flying l u.now).weight m k.data.size - (Stage.inside k.srcNode).weight m k.data.size :=
        surplus_record rfl inside (inside.launched (s := ⟨data.id, k.srcNode, l⟩) k.data.size)
      have released : SameLoad (u.record kind) ((u.record kind).modifyNode k.srcNode fun node =>
          { node with outboundBuffer := node.outboundBuffer.release k.data.size }) :=
        .modifyNode _ _ _ rfl
      have carried : ((t.markHandled k).carry l k data pacer).noteAct k.handled l .sent =
          ((u.record kind).modifyNode k.srcNode fun node =>
            { node with outboundBuffer := node.outboundBuffer.release k.data.size }).modifyLink l
              fun link => { link with pacer, inTransit :=
                (link.inTransit.send u.now data (link.delay + k.anomalies.extraDelay)).1 } := rfl
      rw [carried, (released.trans (.modifyLink _ l _)).surplus, launched,
        takes.departs_surplus assured.competing unhandled]
      simp
  | @sendPanics t k takes unhandled =>
      -- the copy is marked as handled, and no act is noted
      have dispatches : ((t.markHandled k).endQueueTask l).dispatches =
          t.dispatches.modify k.handled fun d => { d with handled := true, acts := d.acts ++ [] } := by
        simp [endQueueTask, State.modifyLink, markHandled, modifyDispatch]
      refine (SameLoad.surplus ⟨fun n => ?_, fun n => ?_, fun n => ?_, fun n port => ?_⟩)
      · exact congrArg _ (congrArg (List.filterMap LogEntry.step?) takes.works.log)
      · exact congrArg _ (congrArg (List.filterMap (LogEntry.reservation? n)) takes.works.log)
      · obtain ⟨left, -⟩ := takes.handled_books assured.competing unhandled [] dispatches n
        simpa using totalSize_perm left
      · have nodes : ((t.markHandled k).endQueueTask l).nodes = s.nodes := takes.works.nodes
        rw [nodes]

/-! The readers of a node. -/

theorem setEndpoint_load {port : Port} {queue : InboundQueue}
    (same : queue.queue = ((s.nodes n).udpEndpoints port).queue) :
    SameLoad s (s.setEndpoint n port queue) := by
  refine ⟨fun _ => rfl, fun _ => rfl, fun _ => rfl, fun n' port' => ?_⟩
  by_cases here : n' = n
  · subst here
    by_cases own : port' = port
    · subst own
      simpa [setEndpoint] using same
    · simp [setEndpoint, own]
  · rw [setEndpoint, modifyNode_of_ne _ _ here]

/-- The bytes that a reader takes out of an endpoint are not accounted for until they are read. -/
theorem setEndpoint_surplus {port : Port} {queue : InboundQueue} {delivered : List DeliveredTransmit}
    (moved : (((s.nodes n).udpEndpoints port).queue.map (·.delivered)).Perm
      (delivered ++ queue.queue.map (·.delivered)))
    (covers : port ∉ ports → ((s.nodes n).udpEndpoints port).queue = []) :
    (s.setEndpoint n port queue).surplus m ports =
      s.surplus m ports + if n = m then (deliveredSize delivered : Int) else 0 := by
  have weighed : totalSize (((s.nodes n).udpEndpoints port).queue.map (·.data)) =
      deliveredSize delivered + totalSize (queue.queue.map (·.data)) := by
    have sizes := totalSize_perm (moved.map (·.data))
    rwa [List.map_append, List.map_map, List.map_map, totalSize_append] at sizes
  have unread : s.unread m ports = (s.setEndpoint n port queue).unread m ports +
      if n = m then deliveredSize delivered else 0 := by
    by_cases here : n = m
    · subst here
      have own : ((s.setEndpoint n port queue).nodes n).udpEndpoints =
          Function.update (s.nodes n).udpEndpoints port queue := by
        simp [setEndpoint]
      rw [if_pos rfl, State.unread, State.unread, own]
      by_cases inside : port ∈ ports
      · -- only the endpoint of this port changes
        rw [← Finset.add_sum_erase ports _ inside, ← Finset.add_sum_erase ports
          (fun port' => totalSize ((Function.update (s.nodes n).udpEndpoints port queue
            port').queue.map (·.data))) inside, Function.update_self, weighed]
        have rest : ∑ port' ∈ ports.erase port, totalSize ((Function.update (s.nodes n).udpEndpoints
            port queue port').queue.map (·.data)) = ∑ port' ∈ ports.erase port,
              totalSize (((s.nodes n).udpEndpoints port').queue.map (·.data)) :=
          Finset.sum_congr rfl fun port' member => by
            rw [Function.update_of_ne (Finset.ne_of_mem_erase member)]
        omega
      · rw [covers inside] at weighed
        have none : deliveredSize delivered = 0 := by
          have total : 0 = deliveredSize delivered + _ := weighed
          omega
        rw [none, Nat.add_zero]
        refine Finset.sum_congr rfl fun port' member => ?_
        rw [Function.update_of_ne fun same : port' = port => inside (same ▸ member)]
    · rw [if_neg here, State.unread, State.unread, setEndpoint,
        modifyNode_of_ne _ _ (Ne.symm here), Nat.add_zero]
  have trace : (s.setEndpoint n port queue).trace = s.trace := rfl
  have departures : (s.setEndpoint n port queue).departures m = s.departures m := rfl
  have reservations : (s.setEndpoint n port queue).reservations m = s.reservations m := rfl
  rw [State.surplus, State.surplus, trace, departures, reservations, unread]
  split <;> omega

theorem readAll_surplus (m : NodeId) (ports : Finset Port) (bufferSize : Nat)
    (fresh : Function.Injective net.uuids) (delivered : List DeliveredTransmit)
    (assured : Moment.Assured ⟨s, (delivered.map fun t => ⟨t.data, .inside n⟩) ++ hand⟩ net) :
    (readAll n bufferSize delivered s).surplus m ports +
        (if n = m then deliveredSize delivered else 0) =
      s.surplus m ports + if n = m then deliveredSize (unhanded bufferSize delivered) else 0 := by
  induction delivered generalizing s with
  | nil => simp [readAll, unhanded]
  | cons transmit delivered ih =>
      rw [List.map_cons, List.cons_append] at assured
      have first : (s.trackReadByApplication n transmit.data).surplus m ports =
          s.surplus m ports - (Stage.inside n).weight m transmit.data.size :=
        trackReadByApplication_surplus assured.there
      have reads : Effect net ⟨fun _ _ => 0, True, True⟩ _
          ⟨s.trackReadByApplication n transmit.data,
            (delivered.map fun t => ⟨t.data, .inside n⟩) ++ hand⟩ := .read s n transmit.data _
      have assured := assured.effects fresh (.single reads)
      have size : deliveredSize (transmit :: delivered) =
          transmit.data.size + deliveredSize delivered := totalSize_cons _ _
      rw [Stage.weight_inside] at first
      unfold readAll unhanded
      dsimp only
      split
      · -- the packet is recorded as read before its length is looked at
        rw [(SameLoad.panic _).surplus, first, size]
        split <;> omega
      · have rest := ih assured
        rw [first] at rest
        rw [size]
        by_cases here : n = m
        · simp only [if_pos here] at rest ⊢
          omega
        · simp only [if_neg here] at rest ⊢
          omega

theorem SameLoad.socket (s : State) (sockets : NodeId → Port → Option NextPacketDelivery) :
    SameLoad s { s with sockets } := .of_fields rfl rfl rfl

theorem pollRecv_surplus {port : Port} {slots bufferSize : Nat} {ties : List Nat}
    (fresh : Function.Injective net.uuids) (member : n ∈ net.nodeIds)
    (assured : Moment.Assured ⟨s, []⟩ net)
    (covers : port ∉ ports → ((s.nodes n).udpEndpoints port).queue = []) :
    (s.pollRecv n port slots bufferSize ties).surplus m ports =
      s.surplus m ports + s.overlooked m (.pollRecv n port slots bufferSize ties) := by
  unfold pollRecv overlooked
  dsimp only
  have limit := ((s.sockets n port).getD (.new slots)).poll_maxTransmits
    ((s.nodes n).udpEndpoints port) s.now ties 0
  generalize polled : ((s.sockets n port).getD (.new slots)).poll ((s.nodes n).udpEndpoints port)
    s.now ties 0 = result at limit
  obtain ⟨outcome, delivery, queue⟩ := result
  cases outcome with
  | pending =>
      have still := setEndpoint_load (NextPacketDelivery.poll_pending polled)
      rw [(still.trans (.socket _ _)).surplus]
      simp [Poll.packets, unhanded, deliveredSize]
  | ready delivered =>
      have moved := (NextPacketDelivery.poll_ready polled).1
      let licence : Licence := ⟨fun _ _ => slots, True, True⟩
      have fetches : Effect net licence ⟨s, []⟩ _ := .fetch s n port delivered queue member moved
      have stores : Effect net licence ⟨s.setEndpoint n port queue, _⟩ _ :=
        .socket _ n port delivery (delivered.map fun t => ⟨t.data, .inside n⟩) limit
      have assured := assured.effects fresh ((Relation.ReflTransGen.single fetches).tail stores)
      have parts : (delivered.map fun t => (⟨t.data, .inside n⟩ : Held)) =
          ((delivered.take slots).map fun t => ⟨t.data, .inside n⟩) ++
            (delivered.drop slots).map fun t => ⟨t.data, .inside n⟩ := by
        rw [← List.map_append, List.take_append_drop]
      rw [parts] at assured
      have fetched : (s.setEndpoint n port queue).surplus m ports =
          s.surplus m ports + if n = m then (deliveredSize delivered : Int) else 0 :=
        setEndpoint_surplus moved covers
      have size : deliveredSize delivered =
          deliveredSize (delivered.take slots) + deliveredSize (delivered.drop slots) := by
        rw [deliveredSize, deliveredSize, deliveredSize, ← totalSize_append, ← List.map_append,
          List.take_append_drop]
      have read := readAll_surplus m ports bufferSize fresh (delivered.take slots) assured
      have stored := SameLoad.socket (s.setEndpoint n port queue)
        (Function.update (s.setEndpoint n port queue).sockets n
          (Function.update ((s.setEndpoint n port queue).sockets n) port (some delivery)))
      rw [stored.surplus, fetched, size] at read
      dsimp only [Poll.packets]
      by_cases here : n = m
      · simp only [if_pos here] at read ⊢
        omega
      · simp only [if_neg here] at read ⊢
        omega

theorem checkReceive_surplus {port : Port} {ties : List Nat}
    (covers : port ∉ ports → ((s.nodes n).udpEndpoints port).queue = []) :
    (s.checkReceive n port ties).surplus m ports =
      s.surplus m ports + s.overlooked m (.checkReceive n port ties) := by
  have noted (delivered : List DeliveredTransmit) (t : State) :
      SameLoad t (delivered.foldl (fun s t => s.note (.checked n t.data.id)) t) := by
    induction delivered generalizing t with
    | nil => exact .of_fields rfl rfl rfl
    | cons transmit delivered ih => exact (SameLoad.mark t rfl fun _ => rfl).trans (ih _)
  unfold checkReceive overlooked
  dsimp only
  generalize polled : (NextPacketDelivery.new 1).poll ((s.nodes n).udpEndpoints port) s.now ties 0 =
    result
  obtain ⟨outcome, delivery, queue⟩ := result
  cases outcome with
  | pending =>
      rw [(setEndpoint_load (NextPacketDelivery.poll_pending polled)).surplus]
      simp [Poll.packets, deliveredSize]
  | ready delivered =>
      have moved := (NextPacketDelivery.poll_ready polled).1
      rw [(noted delivered _).surplus, setEndpoint_surplus moved covers]
      dsimp only [Poll.packets]
      split <;> rfl

/-! Steps and runs. -/

/-- All packets in endpoints and on links are for some of the ports. -/
structure Addressed (s : State) (ports : Finset Port) : Prop where
  queued : ∀ n port, port ∉ ports → ((s.nodes n).udpEndpoints port).queue = []
  inTransit : ∀ l, ∀ p ∈ (s.links l).inTransit.queue, p.data.transmit.destination.port ∈ ports

theorem sendUdp_surplus {transmit : OwnedTransmit} {roll : Nat} (fresh : Function.Injective net.uuids)
    (assured : Moment.Assured ⟨s, []⟩ net) (port : transmit.destination.port ∈ ports) :
    (s.sendUdp net n transmit roll).1.surplus m ports =
      s.surplus m ports + s.overlooked m (.sendUdp n transmit roll) := by
  let data : InTransitData := ⟨net.uuids s.drawn, false, n, transmit, s.nextTransmitNumber⟩
  let t : State := { s with drawn := s.drawn + 1, nextTransmitNumber := s.nextTransmitNumber + 1 }
  have issues : Effect net ⟨fun _ _ => 0, True, True⟩ ⟨s, []⟩ ⟨t, [⟨data, .fresh⟩]⟩ :=
    .issue s data (s.nextTransmitNumber + 1) [] [] rfl
  have assured := assured.effects fresh (.single issues)
  have drawn : SameLoad s t := .of_fields rfl rfl rfl
  have forwarded : (t.forward net n data roll).1.surplus m ports = t.surplus m ports +
      if Stage.fresh = Stage.fresh ∧ (t.nodes n).isDown = true then
        (Stage.inside n).weight m data.size else 0 :=
    forward_surplus roll assured.there nofun (assured.unseen fresh) (assured.differs fresh) port
  refine forwarded.trans ?_
  rw [drawn.surplus, Stage.weight_inside]
  have nodes : t.nodes = s.nodes := rfl
  have size : data.size = transmit.packetSize := rfl
  rw [nodes, size, overlooked]
  by_cases here : n = m <;> by_cases down : (s.nodes n).isDown = true <;> simp_all

theorem step_surplus {action : Action} (fresh : Function.Injective net.uuids)
    (assured : Moment.Assured ⟨s, []⟩ net) (addressed : s.Addressed ports)
    (sent : ∀ transmit, action.transmit? = some transmit → transmit.destination.port ∈ ports)
    (taken : s.step net action = some s') :
    s'.surplus m ports = s.surplus m ports + s.overlooked m action := by
  have still (load : SameLoad s s') (none : s.overlooked m action = 0) :
      s'.surplus m ports = s.surplus m ports + s.overlooked m action := by
    rw [load.surplus, none]
    exact (add_zero _).symm
  have same (same : s'.surplus m ports = s.surplus m ports) (none : s.overlooked m action = 0) :
      s'.surplus m ports = s.surplus m ports + s.overlooked m action := by
    rw [same, none]
    exact (add_zero _).symm
  cases action with
  | advance duration => exact still (Option.some.inj taken ▸ .of_fields rfl rfl rfl) rfl
  | linkEvent event => exact still (Option.some.inj taken ▸ processLinkEvent_load net s event) rfl
  | nodeEvent event => exact still (Option.some.inj taken ▸ processNodeEvent_load net s event) rfl
  | sendUdp n transmit roll =>
      -- Only a sent packet that the counter overlooks adds to the surplus.
      simp only [State.step] at taken
      split at taken
      · cases taken
      have gone : (s.sendUdp net n transmit roll).1.surplus m ports =
          s.surplus m ports + s.overlooked m (.sendUdp n transmit roll) :=
        sendUdp_surplus fresh assured (sent transmit rfl)
      generalize s.sendUdp net n transmit roll = result at taken gone
      obtain ⟨t, exit⟩ := result
      cases exit with
      | returned => exact Option.some.inj taken ▸ gone
      | panicked => exact Option.some.inj taken ▸ (SameLoad.panic t).surplus.trans gone
  | processBuffer n rolls =>
      simp only [State.step] at taken
      split at taken
      · cases taken
      exact still (processBuffer_load taken) rfl
  | pollLink l =>
      simp only [State.step] at taken
      split at taken
      · cases taken
      exact same (pollLink_surplus assured taken) rfl
  | pollForwarder l ties rolls =>
      simp only [State.step] at taken
      split at taken
      · cases taken
      next member =>
      refine same ?_ rfl
      exact pollForwarder_surplus fresh (not_not.mp member) assured taken (addressed.inTransit l)
  | pollRecv n port slots bufferSize ties =>
      simp only [State.step] at taken
      split at taken
      · cases taken
      next member =>
      exact Option.some.inj taken ▸
        pollRecv_surplus fresh (not_not.mp member) assured (addressed.queued n port)
  | checkReceive n port ties =>
      simp only [State.step] at taken
      split at taken
      · cases taken
      exact Option.some.inj taken ▸ checkReceive_surplus (addressed.queued n port)

/-- The bytes of a node after a run: those of packets that have reserved space in its
outbound buffer and not left it, those that wait in endpoints, and those overlooked. -/
def burden (past : List (State × Action)) (s : State) (n : NodeId) : Nat :=
  totalSize (s.outstanding n) + s.unread n (portsOf past) +
    (past.map fun move => move.1.overlooked n move.2).sum

theorem addressed_of_run (fresh : Function.Injective net.uuids) {past : List (State × Action)}
    (run : Run (State.step net) (.initial net) past s) : s.Addressed (portsOf past) := by
  obtain ⟨-, -, ⟨numberOf, bounded⟩, -⟩ := bounded_of_run fresh run
  have known {number : Nat} {transmit : OwnedTransmit}
      (found : (transmitsOf past)[number]? = some transmit) :
      transmit.destination.port ∈ portsOf past :=
    List.mem_toFinset.mpr (List.mem_map_of_mem (List.mem_of_getElem? found))
  refine ⟨fun n port outside => ?_, fun l p queued => ?_⟩
  · refine List.eq_nil_iff_forall_not_mem.mpr fun p queued => ?_
    obtain ⟨transmit, found, destination, -⟩ := bounded.queued n port p queued
    have inside := known found
    rw [destination] at inside
    exact outside inside
  · obtain ⟨transmit, found, -, -, destination⟩ := bounded.fits p.data 0 (.inTransit queued)
    exact destination ▸ known found

theorem Addressed.mono {more : Finset Port} (addressed : s.Addressed ports) (subset : ports ⊆ more) :
    s.Addressed more :=
  ⟨fun n port outside => addressed.queued n port fun inside => outside (subset inside),
    fun l p queued => subset (addressed.inTransit l p queued)⟩

/-- What a run has overlooked is all that is not accounted for. -/
theorem surplus_of_run (fresh : Function.Injective net.uuids) {past : List (State × Action)}
    (run : Run (State.step net) (.initial net) past s) (subset : portsOf past ⊆ ports) :
    s.surplus m ports = (past.map fun move => move.1.overlooked m move.2).sum := by
  -- the ports are those of the whole run, so an earlier part may know of fewer
  induction run with
  | start =>
      have nothing : (initial net).unread m ports = 0 :=
        Finset.sum_eq_zero fun port _ => rfl
      rw [State.surplus, nothing]
      rfl
  | @next past s s' action run taken ih =>
      have grown : transmitsOf ((s, action) :: past) =
          transmitsOf past ++ action.transmit?.toList := by
        cases sent : action.transmit? <;> simp [transmitsOf, sent]
      have earlier : portsOf past ⊆ ports := by
        refine subset.trans' fun port member => ?_
        rw [portsOf, grown, List.map_append, List.toFinset_append]
        exact Finset.mem_union_left _ member
      have sent : ∀ transmit, action.transmit? = some transmit → transmit.destination.port ∈ ports := by
        refine fun transmit same => subset ?_
        simp [portsOf, grown, same]
      obtain ⟨competing, located, -⟩ := bounded_of_run fresh run
      have assured : Moment.Assured ⟨s, []⟩ net :=
        ⟨competing, located, follows_of_run fresh run⟩
      have addressed := (addressed_of_run fresh run).mono earlier
      rw [step_surplus fresh assured addressed sent taken, ih earlier, List.map_cons, List.sum_cons]
      push_cast
      omega

/-- The bytes that the trace of a run has in a node are those of its burden. -/
theorem heldBytes_eq_burden (fresh : Function.Injective net.uuids) {past : List (State × Action)}
    (run : Run (State.step net) (.initial net) past s) (n : NodeId) :
    heldBytes n s.trace = burden past s n := by
  have booked : s.Booked net := run.invariant (·.Booked net) .initial
    fun _ _ _ booked taken => booked.step taken
  have parts := totalSize_perm (List.subperm_append_diff_self_of_count_le
    (List.subperm_ext_iff.mp (booked.2.departures n)))
  rw [totalSize_append] at parts
  have excess : s.surplus n (portsOf past) = _ := surplus_of_run fresh run (Finset.Subset.refl _)
  -- what is reserved and has not departed is what the reservations exceed the departures by
  rw [State.surplus] at excess
  rw [burden, outstanding]
  omega

end State

end Workbench.Network
