import Workbench.Network.Congestion
import Workbench.Network.Injections
import Workbench.Network.Recording

/-! What is true of packets by where they are, and stays true as they go on: where each way of
going on keeps it, it is true of every packet in every run, and of those that the trace names. -/

set_option autoImplicit false

namespace Workbench.Network

open Workbench.Library Workbench.Tracing

/-- What a node sends by an action. -/
def Action.sent? : Action → Option (NodeId × OwnedTransmit)
  | .sendUdp node transmit _ => some (node, transmit)
  | _ => none

/-- What nodes sent in a run, in order. -/
def sentOf (past : List (State × Action)) : List (NodeId × OwnedTransmit) :=
  past.reverse.filterMap (·.2.sent?)

theorem sentOf_cons (past : List (State × Action)) (s : State) (action : Action) :
    sentOf ((s, action) :: past) = sentOf past ++ action.sent?.toList := by
  cases sent : action.sent? <;> simp [sentOf, sent]

/-- What is true of a packet that gets to a node, that waits there for a link, that is on a link, and
that is in an endpoint. -/
structure Journey where
  arrives : NodeId → InTransitData → Prop
  waits : NodeId → InTransitData → Prop
  flies : LinkId → InTransitData → Prop
  lands : NodeId → Port → InTransitData → Prop

namespace Journey

/-- Each way of going on keeps it, as does copying a packet where the trace tells of the copy. -/
structure Lawful (net : InMemoryNetwork) (trace : List SimulationStep) (J : Journey) : Prop where
  deliver : ∀ n data, J.arrives n data →
    (net.nodes n).canonicalAddress = data.transmit.destination.ip →
      J.lands n data.transmit.destination.port data
  hop : ∀ n data, J.arrives n data →
    (net.nodes n).canonicalAddress ≠ data.transmit.destination.ip → data.transmit.ttl - 1 ≠ 0 →
      J.waits n { data with transmit := { data.transmit with ttl := data.transmit.ttl - 1 } }
  copy : ∀ n data id time, J.waits n data →
    ⟨time, .packetDuplicated ⟨id, data.number, data.size, n⟩⟩ ∈ trace →
      J.waits n { data with id, duplicate := true }
  carry : ∀ n data l links anomalies marked, J.waits n data → n ∈ net.nodeIds →
    net.candidateLinks n data.transmit.destination.ip = .ok links → l ∈ links →
      PacketAnomalies.mark anomalies data = some marked → J.flies l marked
  land : ∀ l data n, J.flies l data → net.nodesByAddr (net.links l).target = some n →
    J.arrives n data

/-- One holds where another does. -/
structure Le (J J' : Journey) : Prop where
  arrives : ∀ n data, J.arrives n data → J'.arrives n data
  waits : ∀ n data, J.waits n data → J'.waits n data
  flies : ∀ l data, J.flies l data → J'.flies l data
  lands : ∀ n port data, J.lands n port data → J'.lands n port data

/-- What it says by what was done and told so far is true of what is sent, and stays true of it
whatever is done and told after that. -/
structure Charted (net : InMemoryNetwork)
    (J : List (State × Action) → List SimulationStep → Journey) : Prop where
  lawful : ∀ past trace, (J past trace).Lawful net trace
  later : ∀ past move trace trace', trace <+: trace' → (J past trace).Le (J (move :: past) trace')
  departs : ∀ past s action n transmit trace, action.sent? = some (n, transmit) → n ∈ net.nodeIds →
    (J ((s, action) :: past) trace).arrives n
      ⟨net.uuids s.drawn, false, n, transmit, (sentOf past).length⟩

/-- A step that names a packet, by its number and size where it has them, names one that there is. One
that drops a packet does so at the node that it gets to or waits at, and for want of hops where it gets
to the node with too few of them. -/
def Attests (net : InMemoryNetwork) (J : Journey) : SimulationStepKind → Prop
  | .packetInNode e => ∃ data, J.arrives e.nodeId data ∧
      (e.packetId, e.packetNumber, e.packetSizeBytes) = (data.id, data.number, data.size)
  | .packetDropped e =>
      (∃ data, (J.arrives e.nodeId data ∨ J.waits e.nodeId data) ∧ e.packetId = data.id) ∧
        (e.reason = .zeroTtl → ∃ data, J.arrives e.nodeId data ∧ e.packetId = data.id ∧
          (net.nodes e.nodeId).canonicalAddress ≠ data.transmit.destination.ip ∧ data.transmit.ttl ≤ 1)
  | .packetExtraDelay e => ∃ data, J.waits e.nodeId data ∧ e.packetId = data.id
  | .packetDuplicated e | .packetCongestionEvent e => ∃ data, J.waits e.nodeId data ∧
      (e.packetId, e.packetNumber, e.packetSizeBytes) = (data.id, data.number, data.size)
  | .packetInTransit e => ∃ data, J.flies e.linkId data ∧ e.packetId = data.id
  | .packetLostInTransit e => ∃ data, J.flies e.linkId data ∧ e.packetId = data.id
  | .packetDeliveredToApplication e => ∃ port data, J.lands e.nodeId port data ∧
      (e.packetId, e.packetNumber, e.packetSizeBytes) = (data.id, data.number, data.size)
  | _ => True

theorem Le.attests {net : InMemoryNetwork} {J J' : Journey} (le : Le J J') {kind : SimulationStepKind}
    (attests : Attests net J kind) : Attests net J' kind := by
  cases kind with
  | packetInNode e =>
      obtain ⟨data, arrives, same⟩ := attests
      exact ⟨data, le.arrives _ _ arrives, same⟩
  | packetDropped e =>
      obtain ⟨⟨data, here, same⟩, exhausted⟩ := attests
      refine ⟨⟨data, here.imp (le.arrives _ _) (le.waits _ _), same⟩, fun reason => ?_⟩
      obtain ⟨data, arrives, rest⟩ := exhausted reason
      exact ⟨data, le.arrives _ _ arrives, rest⟩
  | packetDuplicated e | packetCongestionEvent e | packetExtraDelay e =>
      obtain ⟨data, waits, same⟩ := attests
      exact ⟨data, le.waits _ _ waits, same⟩
  | packetInTransit e | packetLostInTransit e =>
      obtain ⟨data, flies, same⟩ := attests
      exact ⟨data, le.flies _ _ flies, same⟩
  | packetDeliveredToApplication e =>
      obtain ⟨port, data, lands, same⟩ := attests
      exact ⟨port, data, le.lands _ _ _ lands, same⟩
  | _ => trivial

end Journey

open Journey (Attests)

namespace State

variable {net : InMemoryNetwork} {J : Journey} {trace : List SimulationStep} {s s' : State} {n : NodeId}
  {l : LinkId}

/-- What is true of packets by where they are is true of all that there are, and of those that the
trace names. -/
structure Underway (net : InMemoryNetwork) (J : Journey) (s : State) : Prop where
  waiting : ∀ n packet, s.Waits n packet → J.waits n packet.data
  queued : ∀ n port, ∀ p ∈ ((s.nodes n).udpEndpoints port).queue, J.lands n port p.data
  inTransit : ∀ l, ∀ p ∈ (s.links l).inTransit.queue, J.flies l p.data
  told : ∀ step ∈ s.trace, Attests net J step.kind

theorem Underway.initial (net : InMemoryNetwork) (J : Journey) : Underway net J (.initial net) where
  waiting n packet waits := by cases waits with | buffered member | dispatched member => cases member
  queued _ _ _ member := by cases member
  inTransit _ _ member := by cases member
  told _ member := by cases member

theorem Underway.mono {J' : Journey} (underway : Underway net J s) (le : Journey.Le J J') :
    Underway net J' s where
  waiting n packet waits := le.waits _ _ (underway.waiting n packet waits)
  queued n port p member := le.lands _ _ _ (underway.queued n port p member)
  inTransit l p member := le.flies _ _ (underway.inTransit l p member)
  told step member := le.attests (underway.told step member)

theorem Underway.keeps (underway : Underway net J s) (keeps : Keeps s s')
    (told : ∀ step ∈ s'.trace, step ∈ s.trace ∨ Attests net J step.kind) : Underway net J s' where
  waiting n packet waits := underway.waiting n packet (keeps.waits n packet waits)
  queued n port p member := underway.queued n port p (keeps.queued n port member)
  inTransit l p member := underway.inTransit l p (keeps.inTransit l member)
  told step member := (told step member).elim (underway.told step) id

theorem Underway.silent (underway : Underway net J s) (keeps : Keeps s s') (log : s'.log = s.log) : Underway net J s' :=
  underway.keeps keeps fun step member => .inl (by rwa [trace, log] at member)

theorem Underway.mark (underway : Underway net J s) {entry : LogEntry} (mark : entry.step? = none) :
    Underway net J (s.note entry) := by
  refine underway.keeps (.note s entry) fun step member => .inl ?_
  simpa [trace, note, mark] using member

theorem Underway.record (underway : Underway net J s) {kind : SimulationStepKind} (attests : Attests net J kind) :
    Underway net J (s.record kind) := by
  refine underway.keeps (.note s _) fun step member => ?_
  have grown : step ∈ s.trace ∨ step = ⟨s.now, kind⟩ := by
    simpa [trace, State.record, note, LogEntry.step?] using member
  rcases grown with old | rfl
  · exact .inl old
  · exact .inr attests

/-! Forwarding. -/

theorem Underway.enqueueOutbound (underway : Underway net J s) (n : NodeId) {packet : BufferedPacket}
    (holds : J.waits n packet.data) : Underway net J (s.enqueueOutbound n packet).1 := by
  unfold State.enqueueOutbound
  split
  · exact underway.record ⟨⟨packet.data, .inr holds, rfl⟩, fun reason => by cases reason⟩
  · next outboundBuffer _ =>
    have booked : Underway net J ((s.modifyNode n ({ · with outboundBuffer })).note
        (.reserved n packet.data)) :=
      (underway.silent (.modifyNode s n (List.Subset.refl _) fun _ => List.Subset.refl _) rfl).mark rfl
    dsimp only
    split
    · exact booked
    · next outbound sent =>
      refine ⟨fun n' p waits => ?_, fun n' port p member => ?_, booked.inTransit, booked.told⟩
      · cases waits with
        | buffered member =>
            by_cases same : n' = n
            · subst same
              rw [modifyNode_self, Channel.unboundedSend_some sent] at member
              rcases List.mem_append.mp member with old | new
              · exact booked.waiting n' p (.buffered old)
              · exact List.mem_singleton.mp new ▸ holds
            · rw [modifyNode_of_ne _ _ same] at member
              exact booked.waiting n' p (.buffered member)
        | dispatched member node opened => exact booked.waiting n' _ (.dispatched member node opened)
      · by_cases same : n' = n
        · subst same
          rw [modifyNode_self] at member
          exact booked.queued n' port p member
        · rw [modifyNode_of_ne _ _ same] at member
          exact booked.queued n' port p member

theorem Underway.enqueueWithDuplicate (underway : Underway net J s) (lawful : J.Lawful net trace) (n : NodeId)
    {packet : BufferedPacket} (holds : J.waits n packet.data) (duplicate : Bool)
    (told : (s.enqueueWithDuplicate net n packet duplicate).1.trace ⊆ trace) :
    Underway net J (s.enqueueWithDuplicate net n packet duplicate).1 := by
  by_cases asked : duplicate = true
  · simp only [State.enqueueWithDuplicate, if_pos asked, newPacketId] at told ⊢
    have drawn : Underway net J { s with drawn := s.drawn + 1 } :=
      underway.silent (.of_sameCount (Nat.le_succ _)
        ⟨fun _ => rfl, fun _ _ => rfl, fun _ => rfl, rfl, rfl⟩) rfl
    have original := drawn.enqueueOutbound n holds
    generalize State.enqueueOutbound { s with drawn := s.drawn + 1 } n packet = entered at original told
    obtain ⟨s', exit⟩ := entered
    cases exit with
    | panicked => exact original
    | returned =>
        let copy : BufferedPacket :=
          { packet with data := { packet.data with id := net.uuids s.drawn, duplicate := true } }
        let duplicated : SimulationStep :=
          ⟨s'.now, .packetDuplicated ⟨copy.data.id, packet.data.number, packet.data.size, n⟩⟩
        -- The copy is told before it follows the packet into the buffer.
        have member : duplicated ∈ trace := by
          obtain ⟨more, grown, -⟩ :=
            (enqueueOutbound_enqueues (s'.trackInjectedFailures n copy.data true 0 false) n copy).told
          apply told
          rw [grown]
          apply List.mem_append_left
          simp [duplicated, copy, trackInjectedFailures, State.record, note, State.trace, LogEntry.step?]
        have copied := lawful.copy n packet.data copy.data.id s'.now holds member
        have recorded : Underway net J (s'.trackInjectedFailures n copy.data true 0 false) :=
          original.record ⟨_, copied, rfl⟩
        exact recorded.enqueueOutbound n copied
  · simp only [State.enqueueWithDuplicate, if_neg asked]
    exact underway.enqueueOutbound n holds

theorem Underway.forward (underway : Underway net J s) (lawful : J.Lawful net trace) (n : NodeId)
    {data : InTransitData} (holds : J.arrives n data) (roll : Nat)
    (told : (s.forward net n data roll).1.trace ⊆ trace) : Underway net J (s.forward net n data roll).1 := by
  unfold State.forward at told ⊢
  split
  · exact underway.record ⟨data, holds, rfl⟩
  next up =>
  rw [if_neg up] at told
  have entered : Underway net J (s.trackPacketInNode n data) := underway.record ⟨data, holds, rfl⟩
  dsimp only at told ⊢
  split
  · next here =>
    refine ⟨fun n' p waits => entered.waiting n' p waits.of_deliverPacket, fun n' port p member => ?_,
      entered.inTransit, entered.told⟩
    by_cases same : n' = n
    · subst same
      simp only [deliverPacket, modifyNode_self, NodeState.deliverPacket] at member
      by_cases there : port = data.transmit.destination.port
      · subst there
        simp only [Function.update_self, InboundQueue.send] at member
        rcases List.mem_append.mp member with old | new
        · exact entered.queued n' _ p old
        · obtain rfl := List.mem_singleton.mp new
          exact lawful.deliver n' data holds here
      · rw [Function.update_of_ne there] at member
        exact entered.queued n' port p member
    · rw [deliverPacket, modifyNode_of_ne _ _ same] at member
      exact entered.queued n' port p member
  next away =>
  split
  · next exhausted =>
    exact entered.record ⟨⟨data, .inl holds, rfl⟩, fun _ =>
      ⟨data, holds, rfl, away, Nat.sub_eq_zero_iff_le.mp exhausted⟩⟩
  next live =>
  split
  · exact entered.record ⟨⟨data, .inl holds, rfl⟩, fun reason => by cases reason⟩
  next kept =>
  rw [if_neg away, if_neg live, if_neg kept] at told
  exact entered.enqueueWithDuplicate lawful n (lawful.hop n data holds away live) _ told

theorem Underway.arrive (underway : Underway net J s) (lawful : J.Lawful net trace) (l : LinkId)
    {transmit : DeliveredTransmit} (holds : J.flies l transmit.data) (roll : Nat)
    (told : (s.arrive net l transmit roll).1.trace ⊆ trace) :
    Underway net J (s.arrive net l transmit roll).1 := by
  have noted : Underway net J (s.note (.arrived l transmit.data.id)) := underway.mark rfl
  unfold State.arrive at told ⊢
  dsimp only at told ⊢
  split
  · exact noted.record ⟨transmit.data, holds, rfl⟩
  next late =>
  rw [if_neg late] at told
  split
  · exact noted.mark rfl
  · next node target =>
    rw [target] at told
    exact noted.forward lawful node (lawful.land l _ node holds target) roll told

theorem arrive_grows (net : InMemoryNetwork) (s : State) (l : LinkId) (transmit : DeliveredTransmit)
    (roll : Nat) : s.trace ⊆ (s.arrive net l transmit roll).1.trace := by
  have noted : (s.note (.arrived l transmit.data.id)).trace = s.trace := by
    simp [State.trace, note, LogEntry.step?]
  intro step member
  rw [← noted] at member
  unfold State.arrive
  dsimp only
  split
  · exact List.mem_filterMap.mpr ((List.mem_filterMap.mp member).imp fun _ =>
      And.imp_left (List.mem_append_left _))
  split
  · exact List.mem_filterMap.mpr ((List.mem_filterMap.mp member).imp fun _ =>
      And.imp_left (List.mem_append_left _))
  · next node _ =>
    obtain ⟨call, told, grown, -⟩ := (forward_forwards net _ node transmit.data roll).told
    rw [grown]
    exact List.mem_append_left _ member

theorem arriveAll_grows (net : InMemoryNetwork) (l : LinkId) (delivered : List DeliveredTransmit)
    (rolls : List Nat) (s : State) : s.trace ⊆ (State.arriveAll net l delivered rolls s).trace := by
  induction delivered generalizing rolls s with
  | nil => exact List.Subset.refl _
  | cons transmit delivered ih =>
      have first := arrive_grows net s l transmit (rolls.headD 0)
      unfold State.arriveAll
      generalize s.arrive net l transmit (rolls.headD 0) = result at first
      obtain ⟨s', exit⟩ := result
      cases exit with
      | returned => exact List.Subset.trans first (ih rolls.tail s')
      | panicked => exact first

theorem Underway.arriveAll (lawful : J.Lawful net trace) (l : LinkId) (delivered : List DeliveredTransmit)
    (rolls : List Nat) (s : State) (underway : Underway net J s) (holds : ∀ t ∈ delivered, J.flies l t.data)
    (told : (State.arriveAll net l delivered rolls s).trace ⊆ trace) :
    Underway net J (State.arriveAll net l delivered rolls s) := by
  have set (t : State) (forwarder : Forwarder) : Keeps t (t.setForwarder l forwarder) :=
    .modifyLink t l (List.Subset.refl _)
  induction delivered generalizing rolls s with
  | nil => exact underway.silent (set s _) rfl
  | cons transmit delivered ih =>
      obtain ⟨first, rest⟩ := List.forall_mem_cons.mp holds
      have arrived := underway.arrive lawful l first (rolls.headD 0)
      unfold State.arriveAll at told ⊢
      generalize s.arrive net l transmit (rolls.headD 0) = result at arrived told
      obtain ⟨s', exit⟩ := result
      cases exit with
      | returned =>
          have grown := List.Subset.trans (arriveAll_grows net l delivered rolls.tail s') told
          exact ih rolls.tail s' (arrived grown) rest told
      | panicked => exact (arrived told).silent ((set s' _).trans (.panic _)) rfl

theorem Underway.pollForwarder {ties rolls : List Nat} (underway : Underway net J s) (lawful : J.Lawful net trace)
    (taken : s.pollForwarder net l ties rolls = some s') (told : s'.trace ⊆ trace) : Underway net J s' := by
  unfold State.pollForwarder at taken
  dsimp only at taken
  split at taken
  · cases taken
  split at taken
  · next delivery inTransit polled =>
    obtain rfl := Option.some.inj taken
    have same := NextPacketDelivery.poll_pending polled
    exact underway.silent (.modifyLink s l fun p member => same ▸ member) rfl
  · next delivered delivery inTransit polled =>
    obtain rfl := Option.some.inj taken
    have moved := (NextPacketDelivery.poll_ready polled).1
    have subset : inTransit.queue ⊆ (s.links l).inTransit.queue := by
      have kept := NextPacketDelivery.poll_subset (s.links l).forwarder.delivery
        (s.links l).inTransit s.now ties 0
      rwa [polled] at kept
    refine Underway.arriveAll lawful l delivered rolls _
      (underway.silent (.modifyLink s l subset) rfl) (fun t member => ?_) told
    obtain ⟨p, queued, rfl⟩ := List.mem_map.mp (moved.mem_iff.mpr (List.mem_append_left _ member))
    exact underway.inTransit l p queued

/-! The other tasks. -/

theorem Underway.pollLink (underway : Underway net J s) (lawful : J.Lawful net trace) (competing : s.Competing net)
    (offered : Offered net s) (taken : s.pollLink net l = some s') : Underway net J s' := by
  cases pollLink_polls taken with
  | waits quiet works => exact underway.silent works.keeps works.log
  | panics works alive => exact (underway.silent works.keeps works.log).silent (.endQueueTask _ l) rfl
  | discards takes handled => exact underway.silent takes.works.keeps takes.works.log
  | @clears t k takes unhandled cleared =>
      have closed : Keeps t ((t.markHandled k).noteAct k.handled l .cleared) :=
        (Keeps.markHandled t k).trans (.noteAct _ k.handled l .cleared)
      have dropped := (underway.silent takes.works.keeps takes.works.log).silent closed rfl
      have waiting := underway.waiting _ _ (takes.waits competing unhandled)
      exact dropped.record ⟨⟨k.data, .inr waiting, rfl⟩, fun reason => by cases reason⟩
  | @sendPanics t k takes unhandled =>
      have closed : Keeps t ((t.markHandled k).endQueueTask l) :=
        (Keeps.markHandled t k).trans (.endQueueTask _ l)
      exact (underway.silent takes.works.keeps takes.works.log).silent closed rfl
  | @sends t k data pacer takes unhandled kept up marked =>
      have waiting := underway.waiting _ _ (takes.waits competing unhandled)
      obtain ⟨known, links, walked, candidate⟩ := takes.candidate offered
      have holds : J.flies l data := lawful.carry _ _ l links _ _ waiting known walked candidate marked
      have closed : Underway net J (t.markHandled k) :=
        (underway.silent takes.works.keeps takes.works.log).silent (.markHandled t k) rfl
      have told : Underway net J ((t.markHandled k).trackPacketInTransit k.srcNode l data) :=
        closed.record ⟨data, holds, rfl⟩
      obtain ⟨waits, queued, inTransit⟩ := Keeps.carry (t.markHandled k) l k data pacer
      have carried : Underway net J ((t.markHandled k).carry l k data pacer) := by
        refine ⟨fun n p waiting => closed.waiting n p (waits n p waiting),
          fun n port p member => closed.queued n port p (queued n port member),
          fun l' p member => ?_, told.told⟩
        by_cases here : l' = l
        · subst here
          rcases inTransit l' p member with old | new
          · exact closed.inTransit l' p old
          · rwa [new]
        · rw [carry_of_ne _ _ _ _ here] at member
          exact closed.inTransit l' p member
      exact carried.silent (.noteAct _ k.handled l .sent) rfl

theorem Underway.readAll (n : NodeId) (bufferSize : Nat) (delivered : List DeliveredTransmit) (s : State)
    (underway : Underway net J s) (port : Port) (holds : ∀ t ∈ delivered, J.lands n port t.data) :
    Underway net J (State.readAll n bufferSize delivered s) := by
  induction delivered generalizing s with
  | nil => exact underway
  | cons transmit delivered ih =>
      obtain ⟨first, rest⟩ := List.forall_mem_cons.mp holds
      have read : Underway net J (s.trackReadByApplication n transmit.data) :=
        underway.record ⟨port, transmit.data, first, rfl⟩
      unfold State.readAll
      dsimp only
      split
      · exact read.silent (.panic _) rfl
      · exact ih _ read rest

theorem Underway.pollRecv (underway : Underway net J s) (n : NodeId) (port : Port) (slots bufferSize : Nat)
    (ties : List Nat) : Underway net J (s.pollRecv n port slots bufferSize ties) := by
  have subset := NextPacketDelivery.poll_subset ((s.sockets n port).getD (.new slots))
    ((s.nodes n).udpEndpoints port) s.now ties 0
  unfold State.pollRecv
  dsimp only
  generalize polled : ((s.sockets n port).getD (.new slots)).poll ((s.nodes n).udpEndpoints port) s.now
    ties 0 = result at subset
  obtain ⟨outcome, delivery, queue⟩ := result
  have set : Underway net J (s.setEndpoint n port queue) :=
    underway.silent (setEndpoint_rests s n port subset).keeps rfl
  have stored : Underway net J { s.setEndpoint n port queue with
      sockets := Function.update s.sockets n (Function.update (s.sockets n) port (some delivery)) } :=
    set.silent (.of_sameCount le_rfl ⟨fun _ => rfl, fun _ _ => rfl, fun _ => rfl, rfl, rfl⟩) rfl
  cases outcome with
  | pending => exact stored
  | ready delivered =>
      refine Underway.readAll n bufferSize _ _ stored port fun t member => ?_
      have moved := (NextPacketDelivery.poll_ready polled).1
      obtain ⟨p, queued, rfl⟩ := List.mem_map.mp
        (moved.mem_iff.mpr (List.mem_append_left _ (List.mem_of_mem_take member)))
      exact underway.queued n port p queued

theorem Underway.checkReceive (underway : Underway net J s) (n : NodeId) (port : Port) (ties : List Nat) :
    Underway net J (s.checkReceive n port ties) := by
  refine underway.keeps (checkReceive_rests s n port ties).keeps fun step member => .inl ?_
  have noted (delivered : List DeliveredTransmit) (t : State) :
      (delivered.foldl (fun s t => s.note (.checked n t.data.id)) t).trace = t.trace := by
    induction delivered generalizing t with
    | nil => rfl
    | cons transmit delivered ih =>
        rw [List.foldl_cons, ih]
        simp [trace, note, LogEntry.step?]
  unfold State.checkReceive at member
  dsimp only at member
  split at member
  · exact member
  · rwa [noted] at member

theorem Underway.processBuffer {rolls : List (Nat × Nat)} (underway : Underway net J s)
    (taken : s.processBuffer net n rolls = some s') : Underway net J s' := by
  refine underway.silent (processBuffer_rests taken).keeps ?_
  obtain ⟨packet, rest, queued, rfl | ⟨links, t, walked, pushes, ends⟩⟩ := processBuffer_cases taken
  · rfl
  · have pushed := pushCopies_pushed net n packet s.dispatches.length links links rolls
      ((s.takeBuffered n rest).openDispatch n packet links)
    rw [← pushes] at pushed
    rcases ends with rfl | rfl <;> exact pushed.log

theorem Underway.processLinkEvent (underway : Underway net J s) (event : LinkEventPayload) :
    Underway net J (s.processLinkEvent net event) := by
  refine underway.keeps (processLinkEvent_rests net s event).keeps fun step member => ?_
  by_cases known : event.linkId ∈ net.linkIds
  · rw [processLinkEvent_trace known] at member
    refine (List.mem_append.mp member).imp_right fun new => ?_
    obtain rfl := List.mem_singleton.mp new
    exact trivial
  · rw [State.processLinkEvent, if_pos known] at member
    exact .inl member

theorem Underway.processNodeEvent (underway : Underway net J s) (event : NodeEventPayload) :
    Underway net J (s.processNodeEvent net event) := by
  refine underway.keeps (processNodeEvent_rests net s event).keeps fun step member => ?_
  unfold State.processNodeEvent at member
  dsimp only at member
  split at member
  · exact .inl member
  · have log (t : State) (same : t.log = s.log) (inside : step ∈ (t.trackNodeEvent event).trace) :
        step ∈ s.trace ∨ Attests net J step.kind := by
      have grown : step ∈ t.trace ∨ step = ⟨t.now, .networkEvent ⟨none, some event⟩⟩ := by
        simpa [trackNodeEvent, trace, State.record, note, LogEntry.step?] using inside
      rw [trace, same] at grown
      rcases grown with old | rfl
      · exact .inl old
      · exact .inr trivial
    cases status : event.status <;> cases clear : event.clearBuffer <;>
      simp only [status, clear] at member <;> exact log _ rfl member

/-- What a step leaves is so, where what it sends is. -/
theorem Underway.step {action : Action} (underway : Underway net J s) (lawful : J.Lawful net s'.trace)
    (competing : s.Competing net) (offered : Offered net s) (taken : s.step net action = some s')
    (holds : ∀ n transmit, action.sent? = some (n, transmit) →
      J.arrives n ⟨net.uuids s.drawn, false, n, transmit, s.nextTransmitNumber⟩) : Underway net J s' := by
  cases action with
  | advance duration =>
      obtain rfl := Option.some.inj taken
      exact underway.silent (.of_sameCount (le_refl s.drawn)
        ⟨fun _ => rfl, fun _ _ => rfl, fun _ => rfl, rfl, rfl⟩) rfl
  | linkEvent event => exact Option.some.inj taken ▸ underway.processLinkEvent event
  | nodeEvent event => exact Option.some.inj taken ▸ underway.processNodeEvent event
  | sendUdp n transmit roll =>
      simp only [State.step] at taken
      split at taken
      · cases taken
      have issued : Underway net J (s.inTransitData net n transmit).2 :=
        underway.silent (.of_sameCount (Nat.le_succ _)
          ⟨fun _ => rfl, fun _ _ => rfl, fun _ => rfl, rfl, rfl⟩) rfl
      have told : (s.sendUdp net n transmit roll).1.trace = s'.trace := by
        generalize s.sendUdp net n transmit roll = result at taken
        obtain ⟨s'', exit⟩ := result
        cases exit <;> exact Option.some.inj taken ▸ rfl
      have sent : Underway net J (s.sendUdp net n transmit roll).1 :=
        issued.forward lawful n (holds n transmit rfl) roll fun step member => told ▸ member
      generalize s.sendUdp net n transmit roll = result at sent taken
      obtain ⟨s'', exit⟩ := result
      cases exit with
      | returned => exact Option.some.inj taken ▸ sent
      | panicked => exact Option.some.inj taken ▸ sent.silent (.panic _) rfl
  | processBuffer n rolls =>
      obtain ⟨-, taken⟩ := Option.ite_none_left_eq_some.mp taken
      exact underway.processBuffer taken
  | pollLink l =>
      obtain ⟨-, taken⟩ := Option.ite_none_left_eq_some.mp taken
      exact underway.pollLink lawful competing offered taken
  | pollForwarder l ties rolls =>
      obtain ⟨-, taken⟩ := Option.ite_none_left_eq_some.mp taken
      exact underway.pollForwarder lawful taken (List.Subset.refl _)
  | pollRecv n port slots bufferSize ties =>
      obtain ⟨-, taken⟩ := Option.ite_none_left_eq_some.mp taken
      exact Option.some.inj taken ▸ underway.pollRecv n port slots bufferSize ties
  | checkReceive n port ties =>
      obtain ⟨-, taken⟩ := Option.ite_none_left_eq_some.mp taken
      exact Option.some.inj taken ▸ underway.checkReceive n port ties

/-! Numbers. -/

theorem arriveAll_numbers (net : InMemoryNetwork) (l : LinkId) (delivered : List DeliveredTransmit)
    (rolls : List Nat) (s : State) :
    (State.arriveAll net l delivered rolls s).nextTransmitNumber = s.nextTransmitNumber := by
  have arrived (transmit : DeliveredTransmit) (roll : Nat) (t : State) :
      (t.arrive net l transmit roll).1.nextTransmitNumber = t.nextTransmitNumber := by
    unfold State.arrive
    dsimp only
    split
    · rfl
    split
    · rfl
    · exact (forward_forwards net _ _ _ _).number
  induction delivered generalizing rolls s with
  | nil => rfl
  | cons transmit delivered ih =>
      have first := arrived transmit (rolls.headD 0) s
      unfold State.arriveAll
      generalize s.arrive net l transmit (rolls.headD 0) = result at first
      obtain ⟨s', exit⟩ := result
      cases exit with
      | returned => exact (ih rolls.tail s').trans first
      | panicked => exact first

/-- Only a send gives away a number. -/
theorem step_numbers {action : Action} (taken : s.step net action = some s') :
    s'.nextTransmitNumber = s.nextTransmitNumber + action.sent?.toList.length := by
  cases action with
  | advance duration => exact Option.some.inj taken ▸ rfl
  | linkEvent event => exact Option.some.inj taken ▸ (processLinkEvent_rests net s event).number
  | nodeEvent event => exact Option.some.inj taken ▸ (processNodeEvent_rests net s event).number
  | sendUdp n transmit roll =>
      simp only [State.step] at taken
      split at taken
      · cases taken
      have sent : (s.sendUdp net n transmit roll).1.nextTransmitNumber = s.nextTransmitNumber + 1 :=
        (forward_forwards net _ n _ roll).number
      generalize s.sendUdp net n transmit roll = result at sent taken
      obtain ⟨s'', exit⟩ := result
      cases exit <;> exact Option.some.inj taken ▸ sent
  | processBuffer n rolls =>
      obtain ⟨-, taken⟩ := Option.ite_none_left_eq_some.mp taken
      exact (processBuffer_rests taken).number
  | pollLink l =>
      obtain ⟨-, taken⟩ := Option.ite_none_left_eq_some.mp taken
      cases pollLink_polls taken with
      | waits quiet works | panics works alive => exact works.number
      | discards takes _ | clears takes _ _ | sends takes _ _ _ _ | sendPanics takes _ =>
          exact takes.works.number
  | pollForwarder l ties rolls =>
      obtain ⟨-, taken⟩ := Option.ite_none_left_eq_some.mp taken
      unfold State.pollForwarder at taken
      dsimp only at taken
      split at taken
      · cases taken
      split at taken
      · exact Option.some.inj taken ▸ rfl
      · exact Option.some.inj taken ▸ arriveAll_numbers net l _ rolls _
  | pollRecv n port slots bufferSize ties =>
      obtain ⟨-, taken⟩ := Option.ite_none_left_eq_some.mp taken
      exact Option.some.inj taken ▸ (pollRecv_rests s n port slots bufferSize ties).number
  | checkReceive n port ties =>
      obtain ⟨-, taken⟩ := Option.ite_none_left_eq_some.mp taken
      exact Option.some.inj taken ▸ (checkReceive_rests s n port ties).number

/-! Runs. -/

/-- Only nodes of the network send. -/
theorem step_sends {action : Action} {transmit : OwnedTransmit} (taken : s.step net action = some s')
    (sent : action.sent? = some (n, transmit)) : n ∈ net.nodeIds := by
  cases action with
  | sendUdp node transmit' roll =>
      obtain ⟨rfl, -⟩ := Prod.mk.inj (Option.some.inj sent)
      exact not_not.mp (Option.ite_none_left_eq_some.mp taken).1
  | _ => cases sent

/-- What is charted is so in every run. -/
theorem underway_of_run {past : List (State × Action)}
    {J : List (State × Action) → List SimulationStep → Journey} (charted : Journey.Charted net J) (run : Run (State.step net) (.initial net) past s) :
    s.nextTransmitNumber = (sentOf past).length ∧ s.Competing net ∧ Offered net s ∧
      Underway net (J past s.trace) s := by
  induction run with
  | start => exact ⟨rfl, .initial, .initial net, .initial net _⟩
  | @next past s s' action run taken ih =>
      obtain ⟨number, competing, offered, underway⟩ := ih
      refine ⟨?_, competing.step taken, offered.step taken, ?_⟩
      · rw [step_numbers taken, number, sentOf_cons, List.length_append]
      · have grown : s.trace <+: s'.trace := trace_prefix taken
        have later := underway.mono (charted.later _ (s, action) _ _ grown)
        apply later.step (charted.lawful _ _) competing offered taken
        intro n transmit sent
        rw [number]
        exact charted.departs past s action n transmit _ sent (step_sends taken sent)

end State

end Workbench.Network
