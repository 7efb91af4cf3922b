import Workbench.Network.Congestion
import Workbench.Network.Recording
import Workbench.Tracing.Construction

/-! What the trace tells of the anomalies that packets are sent with.
The tracer has a function for injected failures, but only duplicates reach it: a
verifier of a recorded trace never learns of an extra delay or a congestion event. -/

set_option autoImplicit false

namespace Workbench.Tracing

open Workbench.Library Workbench.Network

/-! Replays of steps that tell of no anomaly. -/

/-- No packet of the node is delayed, and none was marked there. -/
def ReplayedNode.Undisturbed (this : ReplayedNode) : Prop :=
  (∀ id packet, this.packets.lookup id = some packet → packet.extraDelay = 0) ∧
    this.ecnPackets = .new

namespace ReplayedNode

variable {this : ReplayedNode}

theorem undisturbed_new (n : NodeId) : (new n).Undisturbed :=
  ⟨nofun, rfl⟩

theorem Undisturbed.store (undisturbed : this.Undisturbed) (id : Uuid) (size now : Nat) :
    (this.store id size now).Undisturbed := by
  refine ⟨fun id' packet held => ?_, undisturbed.2⟩
  rcases of_lookup_insert held with ⟨-, rfl⟩ | ⟨-, held⟩
  · rfl
  · exact undisturbed.1 id' packet held

theorem Undisturbed.release (undisturbed : this.Undisturbed) (id : Uuid) (packet : ReplayedPacket) :
    (this.release id packet).Undisturbed := by
  refine ⟨fun id' packet' held => ?_, undisturbed.2⟩
  exact undisturbed.1 id' packet' (of_lookup_erase held).2

theorem Undisturbed.countDropped (undisturbed : this.Undisturbed) (size : Nat)
    (reason : DropReason) : (this.countDropped size reason).Undisturbed := by
  cases reason <;> exact undisturbed

theorem Undisturbed.handleEvent (undisturbed : this.Undisturbed) (event : NodeEventPayload)
    (now : Nat) : (this.handleEvent event now).Undisturbed := by
  unfold ReplayedNode.handleEvent
  cases event.status <;> cases event.clearBuffer <;> exact undisturbed

end ReplayedNode

namespace Replay

variable {this next : Replay} {time : Nat}

/-- No packet is delayed, in a node or on a link, and none was marked. -/
structure Undisturbed (this : Replay) : Prop where
  nodes : ∀ n node, this.nodes.lookup n = some node → node.Undisturbed
  inFlight : ∀ id packet, this.inFlightPackets.lookup id = some packet → packet.extraDelay = 0

theorem Undisturbed.setNode (undisturbed : this.Undisturbed) {n : NodeId} {node : ReplayedNode}
    (calm : node.Undisturbed) : (this.setNode n node).Undisturbed := by
  refine ⟨fun n' node' found => ?_, undisturbed.inFlight⟩
  rcases of_lookup_insert found with ⟨-, rfl⟩ | ⟨-, found⟩
  · exact calm
  · exact undisturbed.nodes n' node' found

theorem Undisturbed.ground (undisturbed : this.Undisturbed) (id : Uuid) :
    (this.ground id).Undisturbed := by
  refine ⟨undisturbed.nodes, fun id' packet flies => ?_⟩
  exact undisturbed.inFlight id' packet (of_lookup_erase flies).2

theorem Undisturbed.launch (undisturbed : this.Undisturbed) {packet : ReplayedPacket}
    (calm : packet.extraDelay = 0) (id : Uuid) (time : Nat) (l : LinkId) :
    (this.launch id packet time l).Undisturbed := by
  refine ⟨undisturbed.nodes, fun id' packet' flies => ?_⟩
  rcases of_lookup_insert flies with ⟨-, rfl⟩ | ⟨-, flies⟩
  · exact calm
  · exact undisturbed.inFlight id' packet' flies

theorem Undisturbed.turn {kind : SimulationStepKind} (undisturbed : this.Undisturbed)
    (plain : kind.isAnomaly = false) (turn : this.Turn time kind next) : next.Undisturbed := by
  have calm {n : NodeId} {node : ReplayedNode} (there : this.nodes.lookup n = some node) :
      node.Undisturbed := undisturbed.nodes n node there
  cases turn with
  | created _ there => exact undisturbed.setNode ((calm there).store _ _ _)
  | landed _ there => exact (undisturbed.ground _).setNode ((calm there).store _ _ _)
  | refused _ there =>
      have kept := calm there
      exact (undisturbed.ground _).setNode kept
  | duplicated there => exact undisturbed.setNode ((calm there).store _ _ _)
  | dropped there => exact undisturbed.setNode (((calm there).release _ _).countDropped _ _)
  | @lost s =>
      have grounded := undisturbed.ground s.packetId
      exact ⟨grounded.nodes, grounded.inFlight⟩
  | missed => exact undisturbed
  | @sent s node packet metadata link link' used there held =>
      have calmed : ((node.release s.packetId packet).countSent packet.sizeBytes).Undisturbed :=
        (calm there).release s.packetId packet
      have kept := undisturbed.setNode (n := s.nodeId) calmed
      have linked : (setLink (this.setNode s.nodeId ((node.release s.packetId packet).countSent
        packet.sizeBytes)) s.linkId link').Undisturbed := ⟨kept.nodes, kept.inFlight⟩
      exact linked.launch ((calm there).1 _ _ held) _ _ _
  | delivered there => exact undisturbed.setNode ((calm there).release _ _)
  | congested | delayed => cases plain
  | @event e middle next link node =>
      obtain ⟨link?, node?⟩ := e
      have linked : middle.Undisturbed := by
        cases link with
        | none | other => exact undisturbed
        | switched => exact ⟨undisturbed.nodes, undisturbed.inFlight⟩
      cases node with
      | none => exact linked
      | changed there => exact linked.setNode ((linked.nodes _ _ there).handleEvent _ _)

theorem Undisturbed.sampled (undisturbed : this.Undisturbed) (sampled : this.Sampled next) :
    next.Undisturbed := by
  refine ⟨fun n node' found => ?_, fun id packet flies => ?_⟩
  · obtain ⟨node, used, before, rfl⟩ := sampled.nodes found
    exact undisturbed.nodes n node before
  · exact undisturbed.inFlight id packet (sampled.inFlight ▸ flies)

/-- The least time in flight that the verifier asks of a packet on a link. -/
def minFlightTime (this : Replay) (id : Uuid) : Option Nat := do
  let inFlight ← this.inFlightPackets.lookup id
  let metadata ← this.linkMetadata.lookup inFlight.linkId
  some (metadata.delay + inFlight.extraDelay)

end Replay

namespace SimulationVerifier

variable {this : SimulationVerifier} {spec : NetworkSpec} {trace : List SimulationStep}

theorem Made.undisturbed (made : this.Made spec) :
    (Replay.start { this with steps := [] }).Undisturbed := by
  refine ⟨fun n node found => ?_, fun id packet flies => ?_⟩
  · obtain rfl := made.nodes n node found
    exact ReplayedNode.undisturbed_new n
  · have empty := made.inFlight
    simp [Replay.start, empty] at flies

/-- A replay of steps that tell of no anomaly knows of none. -/
theorem Made.replayed_undisturbed {order : Option Nat → List NodeId} {replay : Replay}
    (made : this.Made spec) (plain : ∀ step ∈ trace, step.kind.isAnomaly = false)
    (replayed : ((Replay.start { this with steps := [] }).replaySteps order trace).Yields replay) :
    replay.Undisturbed := by
  refine Replay.replaySteps_kept
    (fun trace this => (∀ step ∈ trace, step.kind.isAnomaly = false) → this.Undisturbed)
    (fun _ _ _ undisturbed sampled plain => (undisturbed plain).sampled sampled) ?_
    made.start_mirrors (fun _ => made.undisturbed) replayed (by simpa using plain)
  intro trace this next step _ undisturbed turn plain
  refine (undisturbed fun step member => ?_).turn (plain step (by simp)) turn
  exact plain step (List.mem_append_left _ member)

/-- Where a packet is sent after steps that tell of no anomaly, the verifier asks of it
the delay that its link has in the network's description. -/
theorem Made.minFlightTime_sent {order : Option Nat → List NodeId} {replay : Replay}
    {time : Nat} {s : PacketInTransit} (made : this.Made spec)
    (plain : ∀ step ∈ trace, step.kind.isAnomaly = false)
    (replayed : ((Replay.start { this with steps := [] }).replaySteps order
      (trace ++ [⟨time, .packetInTransit s⟩])).Yields replay) :
    replay.minFlightTime s.packetId = (this.linkMetadata.lookup s.linkId).map (·.delay) := by
  obtain ⟨middle, first, last⟩ := Tracked.yields_foldlM_append.mp replayed
  obtain ⟨next, stepped, rest⟩ := Tracked.yields_foldlM_cons.mp last
  obtain rfl := Tracked.yields_pure.mp rest
  obtain ⟨begun, start, turned⟩ := Tracked.yields_bind.mp stepped
  have sampled := Replay.startTime_sampled start
  have undisturbed := (made.replayed_undisturbed plain first).sampled sampled
  have metadata := sampled.linkMetadata.trans (Replay.replaySteps_mirrors made.start_mirrors first).2
  cases Replay.replayKind_turn turned with
  | sent there held fits known =>
      have calm := (undisturbed.nodes _ _ there).1 _ _ held
      have kept : begun.linkMetadata = this.linkMetadata := metadata
      rw [← kept, known]
      simp [Replay.minFlightTime, Replay.launch, Replay.setLink, Replay.setNode, known, calm]

/-- A verification of steps that tell of no anomaly counts no congestion. -/
theorem Made.uncongested {order : Option Nat → List NodeId} {stats : SimulationStats} {n : NodeId}
    {node : NodeStats} (made : this.Made spec)
    (plain : ∀ step ∈ this.steps, step.kind.isAnomaly = false)
    (yields : (this.verify order).Yields stats) (found : stats.statsByNode n = some node) :
    node.congestionExperienced = .new := by
  obtain ⟨replay, final, replayed, finished, rfl⟩ := verify_yields.mp yields
  have undisturbed := (made.replayed_undisturbed plain replayed).sampled
    (Replay.finish_sampled finished)
  obtain ⟨node, there, rfl⟩ := Option.map_eq_some_iff.mp found
  exact (undisturbed.nodes n node there).2

end SimulationVerifier

end Workbench.Tracing

namespace Workbench.Network

open Workbench.Library Workbench.Tracing

/-- What is told of the anomalies of a packet as it is sent: of an extra delay in the
trace up to then, of a congestion event in the whole trace, and of both in the verifier. -/
structure SendCall.Told (call : SendCall) (sent : State) (trace : List SimulationStep) : Prop where
  extraDelay : 0 < call.packet.anomalies.extraDelay → ∃ time, (⟨time, .packetExtraDelay
    ⟨call.packet.data.id, call.packet.srcNode, call.packet.anomalies.extraDelay⟩⟩ :
      SimulationStep) ∈ call.state.trace
  congestion : call.packet.anomalies.congestionExperienced = true →
    ∃ time, (⟨time, .packetCongestionEvent ⟨call.packet.data.id, call.packet.data.number,
      call.packet.data.size, call.packet.srcNode⟩⟩ : SimulationStep) ∈ trace
  flightTime : ∀ spec this order replay, SimulationVerifier.new sent.trace spec = .ok this →
    ((Replay.start { this with steps := [] }).replaySteps order this.steps).Yields replay →
    replay.minFlightTime call.packet.data.id = (this.linkMetadata.lookup call.link).map
      (·.delay + call.packet.anomalies.extraDelay)

namespace State

variable {net : InMemoryNetwork} {s : State} {past : List (State × Action)} {call : SendCall}

/-- The packets of a node that links marked along a run, as they sent them. -/
def marked (net : InMemoryNetwork) (n : NodeId) (past : List (State × Action)) : List SendCall :=
  past.filterMap fun move => (move.1.sendCall net move.2).filter fun call =>
    (call.result net).isSome && call.packet.anomalies.congestionExperienced &&
      call.packet.srcNode == n

/-- Every anomaly of a packet that a link sent has reached the trace and the verifier. -/
structure AnomaliesTold (net : InMemoryNetwork) (past : List (State × Action)) (s : State) :
    Prop where
  sends : ∀ move ∈ past, ∀ call sent, move.1.sendCall net move.2 = some call →
    call.result net = some sent → call.Told sent s.trace
  counters : ∀ spec this order stats n node, SimulationVerifier.new s.trace spec = .ok this →
    (this.verify order).Yields stats → stats.statsByNode n = some node →
    node.congestionExperienced.packets = (marked net n past).length

theorem sendCall_trace {action : Action} (called : s.sendCall net action = some call) :
    call.state.trace = s.trace := by
  obtain ⟨l, t, k, -, -, resumed, -, -, rfl⟩ := sendCall_eq_some.mp called
  have works := resume_works (congrArg Resumed.state? resumed)
  simp only [trace, modifyDispatch, works.log]

theorem result_trace {sent : State} (result : call.result net = some sent) :
    sent.trace = call.state.trace ++ [⟨call.state.now,
      .packetInTransit ⟨call.packet.data.id, call.packet.srcNode, call.link⟩⟩] := by
  obtain ⟨data, pacer, -, marked, rfl⟩ := send_carry result
  rw [← (PacketAnomalies.mark_some marked).1]
  simp [trace, carry, trackPacketInTransit, record, note, modifyNode, modifyLink, LogEntry.step?]

/-- The state after a link has sent a packet is one of a run, but for its account. -/
theorem result_timely {action : Action} {sent : State} (timely : s.Timely)
    (called : s.sendCall net action = some call) (result : call.result net = some sent) :
    sent.Timely := by
  have taken := step_of_sendCall called
  rw [result] at taken
  have after := timely.step taken
  exact ⟨after.sorted, after.past, after.plain⟩

/-- In a run, all anomalies are told of exactly where links send packets without any. -/
theorem anomaliesTold_iff (run : Run (step net) (initial net) past s) :
    AnomaliesTold net past s ↔ ∀ move ∈ past, ∀ call, move.1.sendCall net move.2 = some call →
      (call.result net).isSome = true → call.packet.anomalies = ⟨false, 0⟩ := by
  have timely := run.guarded_visited Timely (fun _ _ => True) (timely_initial net)
    (fun _ _ => trivial) fun _ _ _ timely _ taken => timely.step taken
  have last : s.Timely := timely s List.mem_cons_self
  have passed (move : State × Action) (member : move ∈ past) : move.1.Timely :=
    timely move.1 (List.mem_cons_of_mem _ (List.mem_map_of_mem member))
  constructor
  · intro told move member call called goes
    obtain ⟨sent, result⟩ := Option.isSome_iff_exists.mp goes
    obtain ⟨delayed, congested, -⟩ := told.sends move member call sent called result
    rcases anomalies : call.packet.anomalies with ⟨congestion, delay⟩
    rw [anomalies] at delayed congested
    have prompt : delay = 0 := by
      by_contra slow
      obtain ⟨time, recorded⟩ := delayed (Nat.pos_of_ne_zero slow)
      rw [sendCall_trace called] at recorded
      cases (passed move member).plain _ recorded
    have unmarked : congestion = false := by
      by_contra marked
      obtain ⟨time, recorded⟩ := congested (by simpa using marked)
      cases last.plain _ recorded
    rw [prompt, unmarked]
  · intro calm
    constructor
    · intro move member call sent called result
      have none := calm move member call called (Option.isSome_of_eq_some result)
      refine ⟨by simp [none], by simp [none], fun spec this order replay made replayed => ?_⟩
      obtain ⟨made, steps⟩ := SimulationVerifier.new_made made
      have sorted := (result_timely (passed move member) called result).sorted
      rw [steps, SimulationVerifier.sortSteps_of_sorted sorted, result_trace result] at replayed
      have plain := (passed move member).plain
      rw [← sendCall_trace called] at plain
      simpa [none] using made.minFlightTime_sent plain replayed
    · intro spec this order stats n node made yields found
      obtain ⟨made, steps⟩ := SimulationVerifier.new_made made
      rw [SimulationVerifier.sortSteps_of_sorted last.sorted] at steps
      have uncounted := made.uncongested (steps ▸ last.plain) yields found
      have unmarked : marked net n past = [] := by
        refine List.filterMap_eq_nil_iff.mpr fun move member => ?_
        refine Option.filter_eq_none_iff.mpr fun call called marks => ?_
        simp only [Bool.and_eq_true] at marks
        have none := calm move member call called marks.1.1
        rw [none] at marks
        exact Bool.false_ne_true marks.1.2
      rw [uncounted, unmarked]
      rfl

theorem anomaliesTold_iff_twoHosts : ∃ past s,
    Run (step (twoHosts (some 1))) (initial (twoHosts (some 1))) past s ∧ past.length = 3 ∧
      (AnomaliesTold (twoHosts (some 1)) past s ↔ ∀ move ∈ past, ∀ call,
        move.1.sendCall (twoHosts (some 1)) move.2 = some call →
          (call.result (twoHosts (some 1))).isSome = true → call.packet.anomalies = ⟨false, 0⟩) := by
  obtain ⟨past, run, actions⟩ := Run.of_isSome (step (twoHosts (some 1))) (initial (twoHosts (some 1)))
    [.sendUdp 0 greeting 0, .processBuffer 0 [], .pollLink 0] rfl
  exact ⟨past, _, run, by simpa using congrArg List.length actions, anomaliesTold_iff run⟩

/-- Two hosts, with links that now and then delay a packet, or are congested. -/
def unsteadyHosts : InMemoryNetwork :=
  { twoHosts (some 1) with
    links := fun l => { (twoHosts (some 1)).links l with
      congestionEventRatio := 1, extraDelay := 5, extraDelayRatio := 1 } }

/-- A packet is delayed and marked as it is sent, and the trace tells of neither. -/
theorem anomalies_untold : ∃ past s call sent,
    Run (step unsteadyHosts) (initial unsteadyHosts) past s ∧
      (∃ move ∈ past, move.1.sendCall unsteadyHosts move.2 = some call) ∧
      call.result unsteadyHosts = some sent ∧ call.packet.anomalies = ⟨true, 5⟩ ∧
      (∀ step ∈ s.trace, step.kind.isAnomaly = false) ∧ ¬ AnomaliesTold unsteadyHosts past s := by
  have run := (((Run.start : Run (step unsteadyHosts) (initial unsteadyHosts) [] _).next_of_isSome
    (.sendUdp 0 { greeting with ecn := some .ect0 } 0) rfl).next_of_isSome
    (.processBuffer 0 [(0, 0), (1, 1)]) rfl).next_of_isSome (.pollLink 0) rfl
  have plain := (timely_of_run run).plain
  refine ⟨_, _, _, _, run, ⟨_, List.mem_cons_self, rfl⟩, rfl, rfl, plain, fun told => ?_⟩
  obtain ⟨-, congested, -⟩ := told.sends _ List.mem_cons_self _ _ rfl rfl
  obtain ⟨time, recorded⟩ := congested rfl
  cases plain _ recorded

end State

end Workbench.Network
