import Workbench.Network.Injections
import Workbench.Network.Ordering
import Workbench.Tracing.Following
import Workbench.Tracing.Statistics

/-! Packets that a node receives out of order, as the verifier counts them. It has one
highest number for each node, and the nodes of a network draw numbers from one counter. -/

set_option autoImplicit false

namespace Workbench.Tracing

open Workbench.Library Workbench.Network

/-- The packet that a node receives from a link, dropped on arrival or not. -/
def SimulationStep.arrival? (n : NodeId) (m : List SimulationStep × SimulationStep) :
    Option PacketInNode :=
  match m.2.kind with
  | .packetInNode s => if s.nodeId = n ∧ (openFlight s.packetId m.1).isSome then some s else none
  | _ => none

/-- The packets that a node receives, in order. -/
def arrivals (n : NodeId) (trace : List SimulationStep) : List PacketInNode :=
  (moments trace).filterMap (SimulationStep.arrival? n)

theorem arrivals_concat (n : NodeId) (trace : List SimulationStep) (step : SimulationStep) :
    arrivals n (trace ++ [step]) =
      arrivals n trace ++ (SimulationStep.arrival? n (trace, step)).toList := by
  rw [arrivals, moments_concat, List.filterMap_append]
  cases arrives : SimulationStep.arrival? n (trace, step) <;> simp [arrivals, arrives]

/-- The statistics of some packets. -/
def PacketStats.ofPackets (packets : List PacketInNode) : PacketStats :=
  ⟨packets.length, (packets.map (·.packetSizeBytes)).sum⟩

theorem PacketStats.ofPackets_concat (packets : List PacketInNode) (s : PacketInNode) :
    ofPackets (packets ++ [s]) = (ofPackets packets).trackOne s.packetSizeBytes := by
  simp [ofPackets, trackOne]

theorem PacketStats.ofPackets_eq_new {packets : List PacketInNode} :
    ofPackets packets = .new ↔ packets = [] := by
  constructor
  · intro nothing
    exact List.length_eq_zero_iff.mp (congrArg PacketStats.packets nothing)
  · rintro rfl
    rfl

/-- A replayed node knows the highest number that it received, and what came after it. -/
structure ReplayedNode.Ranks (this : ReplayedNode) (received : List PacketInNode) : Prop where
  highest : ∀ number, number < this.highestReceived ↔ ∃ s ∈ received, number < s.packetNumber
  reordered : this.reorderedPacketsReceived = .ofPackets (late (·.packetNumber) received)

namespace ReplayedNode

variable {this next : ReplayedNode} {received : List PacketInNode}

theorem Ranks.new (id : NodeId) : (new id).Ranks [] where
  highest number := by simp [ReplayedNode.new]
  reordered := rfl

theorem Ranks.congr (ranks : this.Ranks received) (highest : next.highestReceived = this.highestReceived)
    (reordered : next.reorderedPacketsReceived = this.reorderedPacketsReceived) :
    next.Ranks received where
  highest number := highest ▸ ranks.highest number
  reordered := reordered.trans ranks.reordered

theorem Ranks.countReceived (ranks : this.Ranks received) (s : PacketInNode) :
    (this.countReceived s).Ranks (received ++ [s]) := by
  refine ⟨fun number => ?_, ?_⟩
  · have before := ranks.highest number
    simp only [ReplayedNode.countReceived, lt_max_iff, before, List.mem_append, List.mem_singleton]
    constructor
    · rintro (⟨earlier, member, below⟩ | below)
      · exact ⟨earlier, .inl member, below⟩
      · exact ⟨s, .inr rfl, below⟩
    · rintro ⟨earlier, member | rfl, below⟩
      · exact .inl ⟨earlier, member, below⟩
      · exact .inr below
  · simp only [ReplayedNode.countReceived, late_concat, ranks.highest, ranks.reordered]
    split
    · rw [PacketStats.ofPackets_concat]
    · rw [List.append_nil]

end ReplayedNode

namespace Replay

variable {this next : Replay} {time : Nat} {kind : SimulationStepKind} {before : List SimulationStep}

/-- Every node of a replay knows the order of what it received. -/
def Ranked (trace : List SimulationStep) (this : Replay) : Prop :=
  ∀ n node, this.nodes.lookup n = some node → node.Ranks (arrivals n trace)

theorem Ranked.sampled (ranked : this.Ranked before) (sampled : this.Sampled next) :
    next.Ranked before := by
  intro n node' found
  obtain ⟨node, used, there, rfl⟩ := sampled.nodes found
  exact (ranked n node there).congr rfl rfl

/-- A step by which no node receives anything changes no order. -/
theorem Ranked.still (ranked : this.Ranked before) {step : SimulationStep}
    (none : ∀ n, SimulationStep.arrival? n (before, step) = Option.none)
    (nodes : ∀ n node', next.nodes.lookup n = some node' → ∃ node, this.nodes.lookup n = some node ∧
      node'.highestReceived = node.highestReceived ∧
      node'.reorderedPacketsReceived = node.reorderedPacketsReceived) :
    next.Ranked (before ++ [step]) := by
  intro n node' found
  obtain ⟨node, there, highest, reordered⟩ := nodes n node' found
  rw [arrivals_concat, none, Option.toList_none, List.append_nil]
  exact (ranked n node there).congr highest reordered

theorem Ranked.setNode (ranked : this.Ranked before) {step : SimulationStep} {m : NodeId}
    {node node' : ReplayedNode} {s : PacketInNode} (there : this.nodes.lookup m = some node)
    (highest : node'.highestReceived = (node.countReceived s).highestReceived)
    (reordered : node'.reorderedPacketsReceived = (node.countReceived s).reorderedPacketsReceived)
    (arrives : ∀ n, SimulationStep.arrival? n (before, step) = if n = m then some s else none) :
    (this.setNode m node').Ranked (before ++ [step]) := by
  intro n node'' found
  rw [arrivals_concat, arrives]
  rcases of_lookup_insert found with ⟨rfl, rfl⟩ | ⟨differs, found⟩
  · rw [if_pos rfl]
    exact ((ranked n node there).countReceived s).congr highest reordered
  · rw [if_neg differs, Option.toList_none, List.append_nil]
    exact ranked n node'' found

theorem setNode_orders {m : NodeId} {node node' : ReplayedNode}
    (there : this.nodes.lookup m = some node)
    (highest : node'.highestReceived = node.highestReceived)
    (reordered : node'.reorderedPacketsReceived = node.reorderedPacketsReceived) (n : NodeId)
    (last : ReplayedNode) (found : (this.setNode m node').nodes.lookup n = some last) :
    ∃ node, this.nodes.lookup n = some node ∧ last.highestReceived = node.highestReceived ∧
      last.reorderedPacketsReceived = node.reorderedPacketsReceived := by
  rcases of_lookup_insert found with ⟨rfl, rfl⟩ | ⟨-, found⟩
  · exact ⟨node, there, highest, reordered⟩
  · exact ⟨last, found, rfl, rfl⟩

theorem Ranked.turn (ranked : this.Ranked before) (mirrors : this.Mirrors before)
    (turn : this.Turn time kind next) : next.Ranked (before ++ [⟨time, kind⟩]) := by
  cases turn with
  | @created s node grounded there =>
      refine ranked.still (fun n => ?_) (setNode_orders there rfl rfl)
      have off : (openFlight s.packetId before).isSome = false := by
        rw [← mirrors.flights, flight, grounded]
        rfl
      simp [SimulationStep.arrival?, off]
  | @landed s node inFlight flies there | @refused s node inFlight flies there =>
      have grounded : (this.ground s.packetId).Ranked before := ranked
      refine grounded.setNode (s := s) there rfl rfl fun n => ?_
      have on : (openFlight s.packetId before).isSome = true := by
        rw [← mirrors.flights, flight, flies]
        rfl
      simp [SimulationStep.arrival?, on, eq_comm]
  | duplicated there | sent there | delivered there | congested there | delayed there =>
      exact ranked.still (fun _ => rfl) (setNode_orders there rfl rfl)
  | @dropped s node packet there =>
      refine ranked.still (fun _ => rfl) (setNode_orders there ?_ ?_) <;> cases s.reason <;> rfl
  | lost | missed => exact ranked.still (fun _ => rfl) fun _ node found => ⟨node, found, rfl, rfl⟩
  | @event e middle next link node =>
      refine ranked.still (fun _ => rfl) ?_
      obtain ⟨link?, node?⟩ := e
      have nodes := link.nodes
      cases node with
      | none => exact fun _ node found => ⟨node, nodes ▸ found, rfl, rfl⟩
      | @changed event node there =>
          rw [← nodes]
          refine setNode_orders there ?_ ?_ <;> unfold ReplayedNode.handleEvent <;>
            cases event.status <;> cases event.clearBuffer <;> rfl

end Replay

end Workbench.Tracing

namespace Workbench.Network

open Workbench.Library Workbench.Tracing

/-- The packets of any one node are received in the order of their numbers. -/
def FlowsInOrder (past : List (State × Action)) (received : List PacketInNode) : Prop :=
  received.Pairwise fun a b => ∀ m, (m, a.packetNumber) ∈ injections past →
    (m, b.packetNumber) ∈ injections past → a.packetNumber ≤ b.packetNumber

/-- No packet is received after one of another node that has a higher number. -/
def SourcesInOrder (past : List (State × Action)) (received : List PacketInNode) : Prop :=
  received.Pairwise fun a b => ∀ m m', m ≠ m' → (m, a.packetNumber) ∈ injections past →
    (m', b.packetNumber) ∈ injections past → a.packetNumber ≤ b.packetNumber

/-- Where flows are in order, so are all packets iff the sources are. -/
theorem FlowsInOrder.pairwise_iff {past : List (State × Action)} {received : List PacketInNode}
    (flows : FlowsInOrder past received)
    (sourced : ∀ s ∈ received, ∃ m, (m, s.packetNumber) ∈ injections past) :
    received.Pairwise (fun a b => a.packetNumber ≤ b.packetNumber) ↔
      SourcesInOrder past received := by
  constructor
  · exact fun ordered => ordered.imp fun le _ _ _ _ _ => le
  · intro sources
    refine (flows.and sources).imp_of_mem fun {a b} first second ⟨flow, source⟩ => ?_
    obtain ⟨m, injected⟩ := sourced a first
    obtain ⟨m', injected'⟩ := sourced b second
    -- numbers are given by the network, so packets of two nodes are compared as well
    by_cases same : m = m'
    · exact flow m injected (same ▸ injected')
    · exact source m m' same injected injected'

namespace State

variable {net : InMemoryNetwork} {past : List (State × Action)} {s : State}

/-- Every packet that gets to a node was injected somewhere. -/
theorem arrivals_injected (fresh : Function.Injective net.uuids)
    (run : Run (State.step net) (.initial net) past s) {n : NodeId} :
    ∀ packet ∈ arrivals n s.trace, ∃ m, (m, packet.packetNumber) ∈ injections past := by
  intro packet received
  obtain ⟨⟨before, step⟩, there, arrives⟩ := List.mem_filterMap.mp received
  obtain ⟨after, split⟩ := mem_moments.mp there
  have member : step ∈ s.trace := by simp [split]
  obtain ⟨time, kind⟩ := step
  cases kind with
  | packetInNode p =>
      obtain ⟨-, same⟩ := Option.ite_none_right_eq_some.mp arrives
      obtain rfl := Option.some.inj same
      obtain ⟨-, -, ⟨numberOf, bounded⟩, -⟩ := bounded_of_run fresh run
      have numbered := bounded.told _ member _ rfl
      obtain ⟨transmit, found, -⟩ := bounded.crossed _ _ numbered
      exact injected_of_run fresh run (List.getElem?_eq_some_iff.mp found).1
  | _ => cases arrives

end State

end Workbench.Network

namespace Workbench.Tracing

open Workbench.Library Workbench.Network

namespace SimulationVerifier

variable {this : SimulationVerifier} {spec : NetworkSpec} {net : InMemoryNetwork}
  {past : List (State × Action)} {s : State} {order : Option Nat → List NodeId}

theorem Made.ranked (made : this.Made spec) :
    (Replay.start { this with steps := [] }).Ranked [] := by
  intro n node found
  obtain rfl := made.nodes n node found
  exact .new n

/-- What a verification counts as received out of order is what comes after a packet of a
higher number, whichever nodes the two were injected at. -/
theorem Made.outOfOrder {stats : SimulationStats} (made : this.Made spec)
    (yields : (this.verify order).Yields stats) {n : NodeId} {node : NodeStats}
    (found : stats.statsByNode n = some node) :
    node.receivedOutOfOrder = .ofPackets (late (·.packetNumber) (arrivals n this.steps)) := by
  obtain ⟨replay, final, replayed, finished, rfl⟩ := verify_yields.mp yields
  have ranked := Replay.replaySteps_kept (fun trace this => this.Ranked trace)
    (fun _ _ _ ranked sampled => ranked.sampled sampled)
    (fun _ _ _ _ mirrors ranked turn => ranked.turn mirrors turn)
    made.start_mirrors made.ranked replayed
  obtain ⟨replayed, there, rfl⟩ := Option.map_eq_some_iff.mp found
  exact (ranked.sampled (Replay.finish_sampled finished) n replayed there).reordered

/-- Where the packets of each node get to a node in order, the verification of the run counts
none of them as out of order iff none comes after one of another node with a higher number. -/
theorem outOfOrder_iff {uuids : Nat → Uuid} {packetDelay : Nat → Nat → Nat}
    (accepted : InMemoryNetwork.initialize spec uuids packetDelay = .ok net)
    (fresh : Function.Injective uuids) (run : Run (State.step net) (.initial net) past s)
    (made : SimulationVerifier.new s.trace spec = .ok this) (order : Option Nat → List NodeId) :
    ∃ stats, (this.verify order).Yields stats ∧ ∀ n node, stats.statsByNode n = some node →
      FlowsInOrder past (arrivals n s.trace) →
      (node.receivedOutOfOrder = .new ↔ SourcesInOrder past (arrivals n s.trace)) := by
  obtain ⟨⟨stats, yields⟩, -⟩ :=
    verify_recorded accepted fresh run (List.prefix_refl _) made order
  refine ⟨stats, yields, fun n node found flows => ?_⟩
  have uuids' : Function.Injective net.uuids := InMemoryNetwork.initialized_uuids accepted ▸ fresh
  obtain ⟨made, same⟩ := new_made made
  rw [sortSteps_of_sorted (State.timely_of_run run).sorted] at same
  -- nothing counts as out of order iff the numbers never go down
  rw [made.outOfOrder yields found, same, PacketStats.ofPackets_eq_new, late_eq_nil]
  exact flows.pairwise_iff (State.arrivals_injected uuids' run)

/-- The packet of the first host in a row and then that of the second get to the last one. -/
theorem outOfOrder_iff_row : ∃ net past s this,
    InMemoryNetwork.initialize State.row id (fun _ size => size) = .ok net ∧
      Run (State.step net) (.initial net) past s ∧
      SimulationVerifier.new s.trace State.row = .ok this ∧ injections past = [(1, 1), (0, 0)] ∧
      (arrivals 2 s.trace).map (·.packetNumber) = [0, 1] ∧
      FlowsInOrder past (arrivals 2 s.trace) ∧
      ∃ stats, (this.verify fun _ => [0, 1, 2]).Yields stats ∧
        ∀ node, stats.statsByNode 2 = some node →
          (node.receivedOutOfOrder = .new ↔ SourcesInOrder past (arrivals 2 s.trace)) := by
  obtain ⟨net, accepted, runs⟩ : ∃ net,
      InMemoryNetwork.initialize State.row id (fun _ size => size) = .ok net ∧
        (attains (State.step net) (.initial net) State.overtaken).any (fun s => decide <|
          injections (moves (State.step net) (.initial net) State.overtaken).reverse =
            [(1, 1), (0, 0)] ∧
          arrivals 2 s.trace = [⟨0, 0, 28, 2, false⟩, ⟨1, 1, 28, 2, false⟩]) = true :=
    ⟨_, rfl, by decide +kernel⟩
  obtain ⟨s, reached, holds⟩ := (Option.any_eq_true _ _).mp runs
  obtain ⟨injected, received⟩ := of_decide_eq_true holds
  have verifier (steps : List SimulationStep) :
      ∃ this, SimulationVerifier.new steps State.row = .ok this := ⟨_, rfl⟩
  obtain ⟨this, made⟩ := verifier s.trace
  have flows : FlowsInOrder (moves (State.step net) (.initial net) State.overtaken).reverse
      (arrivals 2 s.trace) := by
    rw [FlowsInOrder, injected, received]
    simp
  obtain ⟨stats, yields, counts⟩ :=
    outOfOrder_iff accepted Function.injective_id (Run.of_moves reached) made fun _ => [0, 1, 2]
  exact ⟨net, _, s, this, accepted, Run.of_moves reached, made, injected, by rw [received]; rfl, flows,
    stats, yields, fun node found => counts 2 node found flows⟩

/-- The packet of the first host leaves first, and has one link more to cross. -/
def furtherFirst : List Action :=
  [.sendUdp 0 State.toLast 0, .processBuffer 0 [], .pollLink 0, .sendUdp 1 State.toLast 0,
    .processBuffer 1 [], .pollLink 1, .advance 10, .pollForwarder 1 [] [], .pollForwarder 0 [] [],
    .processBuffer 1 [], .pollLink 1, .advance 10, .pollForwarder 1 [] []]

def nearerFirst : List SimulationStep :=
  [⟨0, .packetInNode ⟨0, 0, 28, 0, false⟩⟩, ⟨0, .packetInTransit ⟨0, 0, 0⟩⟩,
    ⟨0, .packetInNode ⟨1, 1, 28, 1, false⟩⟩, ⟨0, .packetInTransit ⟨1, 1, 1⟩⟩,
    ⟨10, .packetInNode ⟨1, 1, 28, 2, false⟩⟩, ⟨10, .packetInNode ⟨0, 0, 28, 1, false⟩⟩,
    ⟨10, .packetInTransit ⟨0, 1, 1⟩⟩, ⟨20, .packetInNode ⟨0, 0, 28, 2, false⟩⟩]

/-- Two hosts send one packet each, and the second to arrive counts as out of order. -/
theorem outOfOrder_twoSources : ∃ net past s this stats node,
    InMemoryNetwork.initialize State.row id (fun _ size => size) = .ok net ∧
      Run (State.step net) (.initial net) past s ∧
      SimulationVerifier.new s.trace State.row = .ok this ∧ injections past = [(1, 1), (0, 0)] ∧
      FlowsInOrder past (arrivals 2 s.trace) ∧ (this.verify fun _ => [0, 1, 2]).Yields stats ∧
      stats.statsByNode 2 = some node ∧ node.receivedOutOfOrder = ⟨1, 28⟩ := by
  obtain ⟨net, accepted, runs⟩ : ∃ net,
      InMemoryNetwork.initialize State.row id (fun _ size => size) = .ok net ∧
        (attains (State.step net) (.initial net) furtherFirst).any (fun s => decide <|
          injections (moves (State.step net) (.initial net) furtherFirst).reverse =
            [(1, 1), (0, 0)] ∧ s.trace = nearerFirst) = true :=
    ⟨_, rfl, by decide +kernel⟩
  obtain ⟨s, reached, holds⟩ := (Option.any_eq_true _ _).mp runs
  obtain ⟨injected, trace⟩ := of_decide_eq_true holds
  obtain ⟨this, stats, node, made, yields, found, counted⟩ :
      ∃ this stats node, SimulationVerifier.new nearerFirst State.row = .ok this ∧
        (this.verify fun _ => [0, 1, 2]).Yields stats ∧ stats.statsByNode 2 = some node ∧
        node.receivedOutOfOrder = ⟨1, 28⟩ := ⟨_, _, _, rfl, rfl, rfl, rfl⟩
  refine ⟨net, _, s, this, stats, node, accepted, Run.of_moves reached, trace ▸ made, injected, ?_,
    yields, found, counted⟩
  rw [FlowsInOrder, injected, trace]
  have received : arrivals 2 nearerFirst = [⟨1, 1, 28, 2, false⟩, ⟨0, 0, 28, 2, false⟩] := rfl
  rw [received]
  simp

end SimulationVerifier

end Workbench.Tracing
