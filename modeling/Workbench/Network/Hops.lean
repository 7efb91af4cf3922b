import Workbench.Library.Walk
import Workbench.Network.Provenance

/-! The ways that packets take. Each goes from node to node along candidate links, and has used up
one hop of its time to live for each node that it has left. So where the routes to its destination
lead nowhere back, it does not run out of hops unless it has fewer than there are nodes. -/

set_option autoImplicit false

namespace Workbench.Network

open Workbench.Library Workbench.Tracing

/-- A node sends packets for the destination over a link to the other one. -/
def InMemoryNetwork.Hop (net : InMemoryNetwork) (dest : IpAddr) (n n' : NodeId) : Prop :=
  n ∈ net.nodeIds ∧ (net.nodes n).canonicalAddress ≠ dest ∧ ∃ links,
    net.candidateLinks n dest = .ok links ∧ ∃ l ∈ links, net.nodesByAddr (net.links l).target = some n'

/-- The routes to the destination lead nowhere back. -/
def InMemoryNetwork.LoopFree (net : InMemoryNetwork) (dest : IpAddr) : Prop :=
  ∀ n, ¬ Relation.TransGen (net.Hop dest) n n

/-- The packet has come from its source to the node by hops, each of which took one of its time to
live, as did `used` more. -/
def InTransitData.Travelled (net : InMemoryNetwork) (sent : List (NodeId × OwnedTransmit))
    (data : InTransitData) (n : NodeId) (used : Nat) : Prop :=
  ∃ transmit before, sent[data.number]? = some (data.sourceId, transmit) ∧
    transmit.Conveys data.transmit ∧ data.sourceId ∈ net.nodeIds ∧
    Walk (net.Hop transmit.destination.ip) data.sourceId n before ∧
    data.transmit.ttl + before.length + used = transmit.ttl ∧
    (0 < before.length + used → 0 < data.transmit.ttl)

namespace InTransitData.Travelled

variable {net : InMemoryNetwork} {sent : List (NodeId × OwnedTransmit)} {data : InTransitData}
  {n n' : NodeId} {used : Nat}

theorem later (travelled : data.Travelled net sent n used) (more : List (NodeId × OwnedTransmit)) :
    data.Travelled net (sent ++ more) n used := by
  obtain ⟨transmit, before, found, rest⟩ := travelled
  refine ⟨transmit, before, ?_, rest⟩
  rwa [List.getElem?_append_left (List.getElem?_eq_some_iff.mp found).1]

/-- A node that sends a packet on takes one hop of its time to live. -/
theorem spend (travelled : data.Travelled net sent n 0) (live : data.transmit.ttl - 1 ≠ 0) :
    Travelled net sent { data with transmit := { data.transmit with ttl := data.transmit.ttl - 1 } } n 1 := by
  obtain ⟨transmit, before, found, conveys, known, walk, hops, -⟩ := travelled
  refine ⟨transmit, before, found, conveys.trans ⟨rfl, rfl, rfl, rfl, Nat.sub_le _ _, .inl rfl⟩, known,
    walk, ?_, fun _ => Nat.pos_of_ne_zero live⟩
  dsimp only
  omega

theorem mark {anomalies : PacketAnomalies} {marked : InTransitData}
    (travelled : data.Travelled net sent n used) (same : anomalies.mark data = some marked) :
    marked.Travelled net sent n used := by
  obtain ⟨transmit, before, found, conveys, known, walk, hops, live⟩ := travelled
  obtain ⟨number, source, later⟩ := PacketAnomalies.mark_conveys same
  have ttl : marked.transmit.ttl = data.transmit.ttl := (PacketAnomalies.mark_route same).1
  rw [← ttl] at hops live
  rw [← source] at found known walk
  exact ⟨transmit, before, number ▸ found, conveys.trans later, known, walk, hops, live⟩

/-- The hop over a link. -/
theorem hop (travelled : data.Travelled net sent n 1)
    (next : net.Hop data.transmit.destination.ip n n') : data.Travelled net sent n' 0 := by
  obtain ⟨transmit, before, found, conveys, known, walk, hops, live⟩ := travelled
  rw [conveys.destination] at next
  refine ⟨transmit, n :: before, found, conveys, known, walk.step next, ?_, fun _ => live (by simp)⟩
  rw [List.length_cons]
  omega

end InTransitData.Travelled

/-- A node away from the destination of a transmit that was sent, and as many hops from its source as
the transmit had, but one. -/
def InMemoryNetwork.Exhausts (net : InMemoryNetwork) (sent : List (NodeId × OwnedTransmit)) (n : NodeId) :
    Prop :=
  ∃ source ∈ net.nodeIds, ∃ transmit, (source, transmit) ∈ sent ∧
    (net.nodes n).canonicalAddress ≠ transmit.destination.ip ∧ ∃ before,
      Walk (net.Hop transmit.destination.ip) source n before ∧ before.length = transmit.ttl - 1

/-- A packet that is somewhere has travelled there, and is on a link to a next hop. -/
def Journey.along (net : InMemoryNetwork) (sent : List (NodeId × OwnedTransmit)) : Journey where
  arrives n data := data.Travelled net sent n 0
  waits n data := data.Travelled net sent n 1 ∧
    (net.nodes n).canonicalAddress ≠ data.transmit.destination.ip
  flies l data := ∃ n, data.Travelled net sent n 1 ∧ ∀ n',
    net.nodesByAddr (net.links l).target = some n' → net.Hop data.transmit.destination.ip n n'
  lands n port data := data.Travelled net sent n 0 ∧
    data.transmit.destination = ⟨(net.nodes n).canonicalAddress, port⟩

theorem Journey.along_charted (net : InMemoryNetwork) :
    Journey.Charted net fun past _ => .along net (sentOf past) where
  lawful past _ :=
    { deliver := fun n data travelled here => ⟨travelled, by rw [here]⟩
      hop := fun n data travelled away live => ⟨travelled.spend live, away⟩
      copy := fun n data id _ waits _ => waits
      carry := by
        rintro n data l links anomalies marked ⟨travelled, away⟩ known walked candidate same
        refine ⟨n, travelled.mark same, fun n' target => ?_⟩
        rw [(PacketAnomalies.mark_route same).2]
        exact ⟨known, away, links, walked, l, candidate, target⟩
      land := by
        rintro l data n' ⟨n, travelled, next⟩ target
        exact travelled.hop (next n' target) }
  later past move _ _ _ := by
    obtain ⟨s, action⟩ := move
    rw [sentOf_cons]
    exact
      { arrives := fun _ _ travelled => travelled.later _
        waits := fun _ _ waits => waits.imp_left (·.later _)
        flies := fun _ _ flies => flies.imp fun _ => And.imp_left (·.later _)
        lands := fun _ _ _ lands => lands.imp_left (·.later _) }
  departs past s action n transmit _ sent known := by
    rw [sentOf_cons, sent]
    exact ⟨transmit, [], by simp, ⟨rfl, rfl, rfl, rfl, le_rfl, .inl rfl⟩, known, .start, by simp, by simp⟩

namespace State

variable {net : InMemoryNetwork} {past : List (State × Action)} {s : State}

theorem exhausted_of_run (run : Run (State.step net) (.initial net) past s) {time : Nat}
    {e : PacketDropped} (told : ⟨time, .packetDropped e⟩ ∈ s.trace) (reason : e.reason = .zeroTtl) :
    net.Exhausts (sentOf past) e.nodeId := by
  obtain ⟨-, -, -, underway⟩ := underway_of_run (Journey.along_charted net) run
  obtain ⟨data, ⟨transmit, before, found, conveys, known, walk, hops, live⟩, -, away, few⟩ :=
    (underway.told _ told).2 reason
  refine ⟨data.sourceId, known, transmit, List.mem_of_getElem? found, conveys.destination ▸ away, before,
    walk, ?_⟩
  omega

/-- Two hosts, the first of which sends packets for a strange address to the second one. -/
def misroutedHosts : InMemoryNetwork :=
  { twoHosts none with
    nodes := fun n =>
      if n = 0 then
        { (twoHosts none).nodes 0 with routes := [(.v4 1, ⟨⟨.v4 2, .v4 9⟩, .v4 2, 1⟩)] }
      else (twoHosts none).nodes n }

/-- Where the routes to the destinations of packets lead nowhere back, and the packets have more hops
than there are other nodes, none is ever dropped for want of hops. -/
theorem never_exhausted {spec : NetworkSpec} {uuids : Nat → Uuid} {packetDelay : Nat → Nat → Nat}
    (accepted : InMemoryNetwork.initialize spec uuids packetDelay = .ok net)
    (run : Run (State.step net) (.initial net) past s)
    (loopFree : ∀ sent ∈ sentOf past, net.LoopFree sent.2.destination.ip)
    (enough : ∀ sent ∈ sentOf past, (net.nodeIds.filter fun n =>
      (net.nodes n).canonicalAddress ≠ sent.2.destination.ip).length < sent.2.ttl) :
    ∀ time e, ⟨time, .packetDropped e⟩ ∈ s.trace → e.reason ≠ .zeroTtl := by
  intro time e told reason
  have built := InMemoryNetwork.initialized_built accepted
  obtain ⟨source, known, transmit, sent, away, before, walk, hops⟩ := exhausted_of_run run told reason
  have here : e.nodeId ∈ net.nodeIds := by
    cases walk with
    | start => exact known
    | step walk next =>
        obtain ⟨-, -, links, -, l, -, target⟩ := next
        obtain ⟨node, described, same, -⟩ := built.nodesByAddr _ _ target
        exact (built.nodeIds _).mpr ⟨node, described, same⟩
  have short : before.length < (net.nodeIds.filter fun n =>
      (net.nodes n).canonicalAddress ≠ transmit.destination.ip).length := by
    apply walk.length_lt (loopFree _ sent)
    · exact List.mem_filter.mpr ⟨here, decide_eq_true away⟩
    · intro n member
      obtain ⟨n', known, elsewhere, -⟩ := walk.goes_on member
      exact List.mem_filter.mpr ⟨known, decide_eq_true elsewhere⟩
  have more := enough _ sent
  simp only at more
  omega

/-- A packet on its way between two hosts. -/
theorem never_exhausted_twoHosts : ∃ net past s,
    InMemoryNetwork.initialize .twoHosts id (fun _ size => size) = .ok net ∧
      Run (State.step net) (.initial net) past s ∧ sentOf past = [(0, greeting)] ∧
      ∀ time e, ⟨time, .packetDropped e⟩ ∈ s.trace → e.reason ≠ .zeroTtl := by
  let actions : List Action := [.sendUdp 0 greeting 0, .processBuffer 0 [], .pollLink 0, .advance 10,
    .pollForwarder 0 [] []]
  obtain ⟨net, accepted, known, here, walked, targets, runs⟩ : ∃ net,
      InMemoryNetwork.initialize .twoHosts id (fun _ size => size) = .ok net ∧
      net.nodeIds = [1, 0] ∧ (net.nodes 1).canonicalAddress = greeting.destination.ip ∧
      net.candidateLinks 0 greeting.destination.ip = .ok [0, 0] ∧
      net.nodesByAddr (net.links 0).target = some 1 ∧
      (attains (State.step net) (.initial net) actions).any (fun _ =>
        decide (sentOf (moves (State.step net) (.initial net) actions).reverse = [(0, greeting)])) = true :=
    ⟨_, rfl, by decide +kernel, by decide +kernel, by decide +kernel, by decide +kernel, by decide +kernel⟩
  obtain ⟨s, reached, holds⟩ := (Option.any_eq_true _ _).mp runs
  have sent := of_decide_eq_true holds
  have run := Run.of_moves reached
  have loopFree : net.LoopFree greeting.destination.ip := by
    apply acyclic_of_lower fun n => if n = 0 then 1 else 0
    rintro n n' ⟨member, away, links, found, l, candidate, target⟩
    rw [known] at member
    obtain rfl : n = 0 := by
      rcases List.mem_pair.mp member with rfl | rfl
      · exact absurd here away
      · rfl
    rw [walked] at found
    obtain rfl := Except.ok.inj found
    obtain rfl : l = 0 := by simpa using candidate
    obtain rfl := Option.some.inj (targets.symm.trans target)
    decide
  refine ⟨net, _, s, accepted, run, sent, never_exhausted accepted run ?_ ?_⟩
  all_goals
    rw [sent]
    intro pair member
    obtain rfl := List.mem_singleton.mp member
  · exact loopFree
  · calc _ ≤ net.nodeIds.length := List.length_filter_le _ _
      _ < greeting.ttl := by
        rw [known]
        decide

end State

end Workbench.Network
