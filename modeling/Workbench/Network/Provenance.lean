import Workbench.Network.Journey

/-! What packets carry. The network makes up no packet: whatever is somewhere, or was read by an
application, is what some node sent, but for the hops it has used up and the mark of a link. -/

set_option autoImplicit false

namespace Workbench.Network

open Workbench.Library Workbench.Tracing

/-- A transmit as it may be on its way, or once it has arrived. -/
structure OwnedTransmit.Conveys (transmit carried : OwnedTransmit) : Prop where
  source : carried.source = transmit.source
  destination : carried.destination = transmit.destination
  contents : carried.contents = transmit.contents
  segmentSize : carried.segmentSize = transmit.segmentSize
  ttl : carried.ttl ≤ transmit.ttl
  ecn : carried.ecn = transmit.ecn ∨
    carried.ecn = some .ce ∧ (transmit.ecn = some .ect0 ∨ transmit.ecn = some .ect1)

/-- The packet is what a node sent, by its number. -/
def InTransitData.Stems (sent : List (NodeId × OwnedTransmit)) (data : InTransitData) : Prop :=
  ∃ transmit, sent[data.number]? = some (data.sourceId, transmit) ∧ transmit.Conveys data.transmit

/-- What is true of a packet and stays true on its way, whatever is true of it besides. -/
structure Hereditary (P : InTransitData → Prop) : Prop where
  hop : ∀ data ttl, P data → ttl ≤ data.transmit.ttl →
    P { data with transmit := { data.transmit with ttl } }
  copy : ∀ data id, P data → P { data with id, duplicate := true }
  mark : ∀ anomalies data marked, P data → PacketAnomalies.mark anomalies data = some marked → P marked

theorem PacketAnomalies.mark_conveys {anomalies : PacketAnomalies} {data marked : InTransitData}
    (same : anomalies.mark data = some marked) :
    marked.number = data.number ∧ marked.sourceId = data.sourceId ∧
      data.transmit.Conveys marked.transmit := by
  simp only [mark] at same
  split at same
  · split at same
    · next supports =>
      obtain rfl := Option.some.inj same
      refine ⟨rfl, rfl, rfl, rfl, rfl, rfl, le_rfl, .inr ⟨rfl, ?_⟩⟩
      obtain ⟨codepoint, found, bits⟩ := (Option.any_eq_true _ _).mp supports
      cases codepoint <;> simp_all [EcnCodepoint.bits]
    · cases same
  · obtain rfl := Option.some.inj same
    exact ⟨rfl, rfl, rfl, rfl, rfl, rfl, le_rfl, .inl rfl⟩

theorem OwnedTransmit.Conveys.trans {first second third : OwnedTransmit} (before : first.Conveys second)
    (after : second.Conveys third) : first.Conveys third where
  source := after.source.trans before.source
  destination := after.destination.trans before.destination
  contents := after.contents.trans before.contents
  segmentSize := after.segmentSize.trans before.segmentSize
  ttl := after.ttl.trans before.ttl
  ecn := by
    rcases before.ecn with same | ⟨marked, supports⟩
    · rw [← same]
      exact after.ecn
    · refine .inr ⟨?_, supports⟩
      rcases after.ecn with same | ⟨again, -⟩
      · exact same.trans marked
      · exact again

theorem InTransitData.stems_hereditary (sent : List (NodeId × OwnedTransmit)) :
    Hereditary (InTransitData.Stems sent) where
  hop data ttl := by
    rintro ⟨transmit, found, conveys⟩ less
    exact ⟨transmit, found, conveys.trans ⟨rfl, rfl, rfl, rfl, less, .inl rfl⟩⟩
  copy data id := by
    rintro ⟨transmit, found, conveys⟩
    exact ⟨transmit, found, conveys⟩
  mark anomalies data marked := by
    rintro ⟨transmit, found, conveys⟩ same
    obtain ⟨number, source, later⟩ := PacketAnomalies.mark_conveys same
    exact ⟨transmit, by rw [number, source]; exact found, conveys.trans later⟩

theorem InTransitData.Stems.later {sent : List (NodeId × OwnedTransmit)} {data : InTransitData}
    (stems : data.Stems sent) (more : List (NodeId × OwnedTransmit)) : data.Stems (sent ++ more) := by
  obtain ⟨transmit, found, conveys⟩ := stems
  refine ⟨transmit, ?_, conveys⟩
  rwa [List.getElem?_append_left (List.getElem?_eq_some_iff.mp found).1]

/-- Wherever a packet is it has the property, and in an endpoint it was sent to it. -/
def Journey.everywhere (net : InMemoryNetwork) (P : InTransitData → Prop) : Journey where
  arrives _ data := P data
  waits _ data := P data
  flies _ data := P data
  lands n port data := P data ∧ data.transmit.destination = ⟨(net.nodes n).canonicalAddress, port⟩

theorem Hereditary.lawful {P : InTransitData → Prop} (hereditary : Hereditary P) (net : InMemoryNetwork)
    (trace : List SimulationStep) : (Journey.everywhere net P).Lawful net trace where
  deliver n data holds here := ⟨holds, by rw [here]⟩
  hop n data holds _ _ := hereditary.hop data _ holds (Nat.sub_le _ _)
  copy n data id _ holds _ := hereditary.copy data id holds
  carry n data l links anomalies marked holds _ _ _ same := hereditary.mark anomalies data marked holds same
  land l data n holds _ := holds

theorem InTransitData.stems_charted (net : InMemoryNetwork) :
    Journey.Charted net fun past _ => .everywhere net (InTransitData.Stems (sentOf past)) where
  lawful past := (InTransitData.stems_hereditary (sentOf past)).lawful net
  later past move _ _ _ := by
    obtain ⟨s, action⟩ := move
    rw [sentOf_cons]
    exact ⟨fun _ _ stems => stems.later _, fun _ _ stems => stems.later _,
      fun _ _ stems => stems.later _, fun _ _ _ lands => ⟨lands.1.later _, lands.2⟩⟩
  departs past s action n transmit _ sent _ := by
    rw [sentOf_cons, sent]
    exact ⟨transmit, by simp, rfl, rfl, rfl, rfl, le_rfl, .inl rfl⟩

namespace State

variable {net : InMemoryNetwork} {P : InTransitData → Prop} {s s' : State} {n : NodeId} {l : LinkId}

/-- A step about a packet names one of those that there are, by its id, and with its number and size
where it has them. A packet is read where it was to go. -/
def Attests (net : InMemoryNetwork) (P : InTransitData → Prop) : SimulationStepKind → Prop
  | .packetInNode e => ∃ data, P data ∧
      (e.packetId, e.packetNumber, e.packetSizeBytes) = (data.id, data.number, data.size)
  | .packetDuplicated e | .packetCongestionEvent e => ∃ data, P data ∧
      (e.packetId, e.packetNumber, e.packetSizeBytes) = (data.id, data.number, data.size)
  | .packetDeliveredToApplication e => ∃ data, P data ∧
      (e.packetId, e.packetNumber, e.packetSizeBytes) = (data.id, data.number, data.size) ∧
      data.transmit.destination.ip = (net.nodes e.nodeId).canonicalAddress
  | .packetInTransit e => ∃ data, P data ∧ e.packetId = data.id
  | .packetLostInTransit e => ∃ data, P data ∧ e.packetId = data.id
  | .packetDropped e => ∃ data, P data ∧ e.packetId = data.id
  | .packetExtraDelay e => ∃ data, P data ∧ e.packetId = data.id
  | .networkEvent _ => True

/-- All packets that are somewhere are such packets, and so are those that the trace names. What is
in an endpoint is there to stay. -/
structure Only (net : InMemoryNetwork) (P : InTransitData → Prop) (s : State) : Prop where
  waiting : ∀ n packet, s.Waits n packet → P packet.data
  queued : ∀ n port, ∀ p ∈ ((s.nodes n).udpEndpoints port).queue,
    P p.data ∧ p.data.transmit.destination = ⟨(net.nodes n).canonicalAddress, port⟩
  inTransit : ∀ l, ∀ p ∈ (s.links l).inTransit.queue, P p.data
  told : ∀ step ∈ s.trace, Attests net P step.kind

theorem Underway.only (underway : Underway net (.everywhere net P) s) : Only net P s where
  waiting := underway.waiting
  queued := underway.queued
  inTransit := underway.inTransit
  told step member := by
    have attests := underway.told step member
    cases kind : step.kind with
    | packetInNode e | packetDuplicated e | packetCongestionEvent e | packetInTransit e
      | packetLostInTransit e | packetExtraDelay e =>
        rw [kind] at attests
        exact attests
    | packetDropped e =>
        rw [kind] at attests
        obtain ⟨⟨data, here, same⟩, -⟩ := attests
        exact ⟨data, here.elim id id, same⟩
    | packetDeliveredToApplication e =>
        rw [kind] at attests
        obtain ⟨port, data, ⟨holds, there⟩, same⟩ := attests
        exact ⟨data, holds, same, congrArg SocketAddr.ip there⟩
    | networkEvent e => trivial

/-! Runs. -/

variable {past : List (State × Action)}

theorem only_of_run (run : Run (State.step net) (.initial net) past s) :
    s.nextTransmitNumber = (sentOf past).length ∧ s.Competing net ∧
      Only net (InTransitData.Stems (sentOf past)) s := by
  obtain ⟨number, competing, -, underway⟩ := underway_of_run (InTransitData.stems_charted net) run
  exact ⟨number, competing, underway.only⟩

theorem Only.has (only : Only net P s) {held : Held} (has : s.Has held) : P held.data := by
  cases has with
  | waiting member => exact only.waiting _ _ (.buffered member)
  | dispatched member opened => exact only.waiting _ _ (.dispatched member rfl opened)
  | queued member => exact (only.queued _ _ _ member).1
  | inTransit member => exact only.inTransit _ _ member

end State

end Workbench.Network
