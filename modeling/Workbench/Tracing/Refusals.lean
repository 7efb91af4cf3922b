import Workbench.Network.Uneventful
import Workbench.Tracing.Delays

/-! Packets that an application sends from a node that is down, as the verifier takes them. -/

set_option autoImplicit false

namespace Workbench.Network

open Workbench.Library Workbench.Tracing

variable {net : InMemoryNetwork} {s s' : State}

namespace State

/-! The trace tells which nodes are down. -/

/-- Each node has the status that the trace tells. -/
def StatusTold (s : State) : Prop :=
  ∀ n, (s.nodes n).isDown = decide (nodeStatus n s.trace = .down)

theorem nodeStatus_append {steps : List SimulationStep} (n : NodeId) (trace : List SimulationStep)
    (eventless : ∀ step ∈ steps, step.kind.nodeEvent? = none) :
    nodeStatus n (trace ++ steps) = nodeStatus n trace := by
  induction steps generalizing trace with
  | nil => rw [List.append_nil]
  | cons step steps ih =>
      have silent : step.nodeStatus? n = none := by
        have none := eventless step List.mem_cons_self
        obtain ⟨time, kind⟩ := step
        cases kind with
        | networkEvent e =>
            obtain ⟨link, node⟩ := e
            obtain rfl : node = .none := none
            rfl
        | _ => rfl
      have whole := ih (trace ++ [step]) fun step member => eventless step (List.mem_cons_of_mem _ member)
      rw [List.append_assoc, List.singleton_append, nodeStatus_concat, silent] at whole
      exact whole

theorem processNodeEvent_trace {event : NodeEventPayload} (known : event.nodeId ∈ net.nodeIds) :
    (s.processNodeEvent net event).trace = s.trace ++ [⟨s.now, .networkEvent ⟨none, some event⟩⟩] := by
  unfold processNodeEvent
  dsimp only
  rw [if_neg (not_not.mpr known)]
  cases event.status <;> split <;> exact List.filterMap_append

theorem StatusTold.nodeEvent {event : NodeEventPayload} (told : s.StatusTold)
    (known : event.nodeId ∈ net.nodeIds) : (s.processNodeEvent net event).StatusTold := by
  intro n
  have before : (s.nodes n).status.isDown = decide (nodeStatus n s.trace = .down) := told n
  rw [NodeState.isDown, processNodeEvent_status, processNodeEvent_trace known, nodeStatus_concat]
  by_cases here : event.nodeId = n
  · rw [if_pos ⟨known, here⟩]
    cases changed : event.status with
    | none => simpa [here, SimulationStep.nodeStatus?, changed] using before
    | some status => simp [here, SimulationStep.nodeStatus?, changed, Switch.update_isDown]
  · simpa [here, SimulationStep.nodeStatus?] using before

theorem StatusTold.step {action : Action} (told : s.StatusTold)
    (taken : s.step net action = some s') : s'.StatusTold := by
  by_cases eventless : ∀ event, action ≠ .nodeEvent event
  · intro n
    obtain ⟨status, -, steps, grown, silent⟩ := step_uneventful taken eventless
    rw [NodeState.isDown, status, grown, nodeStatus_append n s.trace silent]
    exact told n
  · obtain ⟨event, rfl⟩ := not_forall_not.mp eventless
    obtain rfl := Option.some.inj taken
    by_cases known : event.nodeId ∈ net.nodeIds
    · exact told.nodeEvent known
    · have same : s.processNodeEvent net event = s := by
        unfold processNodeEvent
        exact if_pos known
      rw [same]
      exact told

theorem statusTold_of_run {past : List (State × Action)}
    (run : Run (State.step net) (.initial net) past s) : s.StatusTold :=
  run.invariant StatusTold (fun _ => rfl) fun _ _ _ told taken => told.step taken

/-! What a node that is down sends. -/

/-- The step recorded for a packet that an application sends from a node that is down. -/
def refusal (net : InMemoryNetwork) (s : State) (n : NodeId) (transmit : OwnedTransmit) : PacketInNode :=
  ⟨net.uuids s.drawn, s.nextTransmitNumber, transmit.packetSize, n, true⟩

theorem sendUdp_refused {n : NodeId} {transmit : OwnedTransmit} {roll : Nat}
    (down : (s.nodes n).isDown = true) (taken : s.step net (.sendUdp n transmit roll) = some s') :
    s'.trace = s.trace ++ [⟨s.now, .packetInNode (s.refusal net n transmit)⟩] := by
  simp only [step] at taken
  split at taken
  · cases taken
  · simp only [sendUdp, inTransitData, newPacketId, forward, down, if_true] at taken
    obtain rfl := Option.some.inj taken
    exact List.filterMap_append

/-- What a run recorded up to one of its moves, and with it, is where the trace starts. -/
theorem trace_of_move {past : List (State × Action)} {move : State × Action}
    (run : Run (State.step net) (.initial net) past s) (member : move ∈ past) :
    ∃ earlier t, Run (State.step net) (.initial net) earlier move.1 ∧
      move.1.step net move.2 = some t ∧ t.trace <+: s.trace := by
  induction run with
  | start => cases member
  | @next past state state' action run taken ih =>
      rcases List.mem_cons.mp member with rfl | before
      · exact ⟨past, state', run, taken, List.prefix_refl _⟩
      · obtain ⟨earlier, t, ran, moved, recorded⟩ := ih before
        exact ⟨earlier, t, ran, moved, recorded.trans <| trace_prefix taken⟩

end State

end Workbench.Network

namespace Workbench.Tracing

open Workbench.Library Workbench.Network

/-! The replay of what a node that is down sends. -/

namespace Replay

variable {this next : Replay} {time : Nat}

/-- Each node is under its own id. -/
def Named (this : Replay) : Prop := ∀ n node, this.nodes.lookup n = some node → node.id = n

theorem Named.setNode (named : this.Named) {n : NodeId} {node node' : ReplayedNode}
    (there : this.nodes.lookup n = some node) (same : node'.id = node.id) :
    (this.setNode n node').Named := by
  intro n' node'' found
  rcases of_lookup_insert found with ⟨rfl, rfl⟩ | ⟨-, found⟩
  · rw [same, named n' node there]
  · exact named n' node'' found

theorem Named.sampled (named : this.Named) (sampled : this.Sampled next) : next.Named := by
  intro n node' found
  obtain ⟨node, used, there, rfl⟩ := sampled.nodes found
  exact named n node there

theorem Named.turn {kind : SimulationStepKind} (named : this.Named)
    (turn : this.Turn time kind next) : next.Named := by
  cases turn with
  | created _ there => exact named.setNode there rfl
  | @landed s node inFlight _ there =>
      have grounded : (this.ground s.packetId).Named := named
      exact grounded.setNode there rfl
  | @refused s node inFlight _ there =>
      have grounded : (this.ground s.packetId).Named := named
      exact grounded.setNode there rfl
  | duplicated there => exact named.setNode there rfl
  | @dropped s node packet there =>
      refine named.setNode there ?_
      cases s.reason <;> rfl
  | lost | missed => exact named
  | sent there => exact named.setNode there rfl
  | delivered there | congested there | delayed there => exact named.setNode there rfl
  | @event e middle next link node =>
      obtain ⟨link?, node?⟩ := e
      have kept : middle.Named := by
        cases link with
        | none | other | switched => exact named
      cases node with
      | none => exact kept
      | @changed event node there =>
          refine kept.setNode there ?_
          unfold ReplayedNode.handleEvent
          cases event.status <;> cases event.clearBuffer <;> rfl

/-- A packet from nowhere is stored in its node, whether or not it is said to be dropped
there, and is reported where the node is down. -/
theorem packetInNode_created {s : PacketInNode} {node : ReplayedNode}
    (grounded : this.inFlightPackets.lookup s.packetId = none)
    (there : this.nodes.lookup s.nodeId = some node) (absent : s.packetId ∉ node.packets)
    (down : node.status = .down) :
    (this.packetInNode time s).Yields
        (this.setNode s.nodeId (node.store s.packetId s.packetSizeBytes time)) ∧
      .nodeDownPacketReceive node.id s.packetId ∈ (this.packetInNode time s).reports := by
  have stored : (node.packetCreated s time).Yields (node.store s.packetId s.packetSizeBytes time) :=
    ReplayedNode.addPacketToBuffer_yields.mpr ⟨absent, rfl⟩
  have found : (this.node s.nodeId).Yields node := Tracked.yields_unwrap.mpr there
  have reported : .nodeDownPacketReceive node.id s.packetId ∈ (node.packetCreated s time).reports :=
    Tracked.reports_subset_bind _ _ (Tracked.mem_reports_check.mpr ⟨down, rfl⟩)
  unfold packetInNode
  rw [grounded]
  refine ⟨withNode_yields.mpr ⟨node, there, _, stored, rfl⟩, ?_⟩
  exact (Tracked.mem_reports_bind found).mpr (.inr (Tracked.reports_subset_bind _ _ reported))

end Replay

namespace SimulationVerifier

variable {this : SimulationVerifier} {spec : NetworkSpec} {net : InMemoryNetwork}
  {before after : List SimulationStep} {step : SimulationStep} {order : Option Nat → List NodeId}

/-- The replay of a step after some others takes a node from one state to another. -/
def Changes (this : SimulationVerifier) (order : Option Nat → List NodeId)
    (before : List SimulationStep) (step : SimulationStep) (n : NodeId) (node node' : ReplayedNode) :
    Prop :=
  ∃ replay next, ((Replay.start { this with steps := [] }).replaySteps order before).Yields replay ∧
    (replay.replayStep order step).Yields next ∧ replay.nodes.lookup n = some node ∧
    next.nodes.lookup n = some node'

/-- A packet is counted as dropped on arrival. -/
def CountsDropped (this : SimulationVerifier) (order : Option Nat → List NodeId)
    (before : List SimulationStep) (time : Nat) (s : PacketInNode) : Prop :=
  ∀ node node', this.Changes order before ⟨time, .packetInNode s⟩ s.nodeId node node' →
    node'.droppedPacketsDown = node.droppedPacketsDown.trackOne s.packetSizeBytes

/-- A packet does not get into the replayed node. -/
def KeepsOut (this : SimulationVerifier) (order : Option Nat → List NodeId)
    (before : List SimulationStep) (time : Nat) (s : PacketInNode) : Prop :=
  ∀ node node', this.Changes order before ⟨time, .packetInNode s⟩ s.nodeId node node' →
    node'.packets = node.packets

/-- A packet takes no space of the replayed node. -/
def KeepsUsage (this : SimulationVerifier) (order : Option Nat → List NodeId)
    (before : List SimulationStep) (time : Nat) (s : PacketInNode) : Prop :=
  ∀ node node', this.Changes order before ⟨time, .packetInNode s⟩ s.nodeId node node' →
    node'.bufferUsage = node.bufferUsage

theorem Made.named (made : this.Made spec) : (Replay.start { this with steps := [] }).Named := by
  intro n node found
  obtain rfl := made.nodes n node found
  rfl

theorem Made.replayed_named {replay : Replay} (made : this.Made spec)
    (replayed : ((Replay.start { this with steps := [] }).replaySteps order before).Yields replay) :
    replay.Named :=
  Replay.replaySteps_kept (fun _ this => this.Named)
    (fun _ _ _ named sampled => named.sampled sampled) (fun _ _ _ _ _ named turn => named.turn turn)
    made.start_mirrors made.named replayed

/-- What the replay of a step reports is reported by the whole verification. -/
theorem reports_at {replay : Replay} {report : NonFatalError}
    (split : this.steps = before ++ step :: after)
    (replayed : ((Replay.start { this with steps := [] }).replaySteps order before).Yields replay)
    (reported : report ∈ (replay.replayStep order step).reports) :
    report ∈ (this.verify order).reports := by
  refine Tracked.reports_subset_bind _ _ ?_
  rw [Replay.replaySteps, split, List.foldlM_append]
  refine (Tracked.mem_reports_bind replayed).mpr (.inr ?_)
  rw [List.foldlM_cons]
  exact Tracked.reports_subset_bind _ _ reported

/-- Whatever an application sends from a node that is down, the verification does not count
it as dropped on arrival, stores it in the node, where it takes space, and reports it. -/
theorem refusals_stored {uuids : Nat → Uuid} {packetDelay : Nat → Nat → Nat}
    (accepted : InMemoryNetwork.initialize spec uuids packetDelay = .ok net)
    (fresh : Function.Injective uuids) {past : List (State × Action)} {s t : State} {n : NodeId}
    {transmit : OwnedTransmit} {roll : Nat} (run : Run (State.step net) (.initial net) past s)
    (made : SimulationVerifier.new s.trace spec = .ok this) (order : Option Nat → List NodeId)
    (sent : (t, .sendUdp n transmit roll) ∈ past) (down : (t.nodes n).isDown = true) :
    t.trace ++ [⟨t.now, .packetInNode (t.refusal net n transmit)⟩] <+: s.trace ∧
      ¬ this.CountsDropped order t.trace t.now (t.refusal net n transmit) ∧
      ¬ this.KeepsOut order t.trace t.now (t.refusal net n transmit) ∧
      ¬ this.KeepsUsage order t.trace t.now (t.refusal net n transmit) ∧
      .nodeDownPacketReceive n (net.uuids t.drawn) ∈ (this.verify order).reports := by
  have built := InMemoryNetwork.initialized_built accepted
  have fresh : Function.Injective net.uuids :=
    InMemoryNetwork.initialized_uuids accepted ▸ fresh
  obtain ⟨earlier, t', ran, taken, recorded⟩ := State.trace_of_move run sent
  rw [State.sendUdp_refused down taken] at recorded
  refine ⟨recorded, ?_⟩
  generalize arrives : t.refusal net n transmit = s₀ at recorded
  have id : s₀.packetId = net.uuids t.drawn := arrives ▸ rfl
  have node : s₀.nodeId = n := arrives ▸ rfl
  obtain ⟨after, split⟩ := recorded
  rw [List.append_assoc, List.singleton_append] at split
  -- the replay of what was recorded before knows nothing of the packet
  have sorted := (State.timely_of_run run).sorted
  have expected := (State.follows_of_run fresh run).expected
  obtain ⟨made, same⟩ := new_made made
  rw [sortSteps_of_sorted sorted] at same
  rw [← split] at sorted expected
  obtain ⟨replay, replayed, mirrors, -, covers, consistent⟩ :=
    made.replays_before built sorted expected order
  have named := made.replayed_named replayed
  obtain ⟨begun, start⟩ := Replay.startTime_goes consistent.metadata order t.now
  have sampled := Replay.startTime_sampled start
  -- the id is drawn by this send
  have unissued : ¬ t.Issued net s₀.packetId := by
    rintro ⟨i, before, issued⟩
    exact absurd (fresh (issued.trans id)) before.ne
  have unseen := (State.follows_of_run fresh ran).unseen _ unissued 0
  have grounded : begun.inFlightPackets.lookup s₀.packetId = none := by
    have none := (mirrors.sampled sampled).flights s₀.packetId
    rw [unseen.flight] at none
    exact Option.map_eq_none_iff.mp none
  have first := expected t.trace ⟨t.now, .packetInNode s₀⟩ after rfl
  have known : net.Knows s₀.nodeId := by
    cases first with
    | arrives known => exact known
  obtain ⟨node', there⟩ := (covers.sampled sampled).node known
  obtain ⟨node₀, used, there₀, rfl⟩ := sampled.nodes there
  have absent : s₀.packetId ∉ node₀.packets :=
    mirrors.absent there₀ (unseen.sizes s₀.nodeId)
  have status : node₀.status = .down := by
    have told := State.statusTold_of_run ran n
    rw [down, eq_comm, decide_eq_true_eq] at told
    rw [(mirrors.nodes s₀.nodeId node₀ there₀).1, node, told]
  obtain ⟨stored, reported⟩ : (begun.packetInNode t.now s₀).Yields _ ∧ _ :=
    Replay.packetInNode_created grounded there absent status
  have yields : (replay.replayStep order ⟨t.now, .packetInNode s₀⟩).Yields (begun.setNode s₀.nodeId
      (ReplayedNode.store { node₀ with maxBufferUsage := used } s₀.packetId s₀.packetSizeBytes t.now)) :=
    Tracked.yields_bind.mpr ⟨begun, start, stored⟩
  have changes : this.Changes order t.trace ⟨t.now, .packetInNode s₀⟩ s₀.nodeId node₀
      (ReplayedNode.store { node₀ with maxBufferUsage := used } s₀.packetId s₀.packetSizeBytes t.now) :=
    ⟨replay, _, replayed, yields, there₀, by simp [Replay.setNode]⟩
  -- the replay takes the packet for one that is created there, and stores it
  refine ⟨fun counted => ?_, fun kept => ?_, fun kept => ?_, ?_⟩
  · have more := congrArg PacketStats.packets (counted _ _ changes)
    exact absurd more (Nat.succ_ne_self _).symm
  · have same := kept _ _ changes
    refine absent ?_
    rw [← same]
    exact AList.mem_insert _ |>.mpr (.inl rfl)
  · have same : node₀.bufferUsage + s₀.packetSizeBytes = node₀.bufferUsage := kept _ _ changes
    have positive : 0 < s₀.packetSizeBytes := arrives ▸ transmit.packetSize_pos
    omega
  · have told : .nodeDownPacketReceive n (net.uuids t.drawn) ∈
        (replay.replayStep order ⟨t.now, .packetInNode s₀⟩).reports := by
      rw [named s₀.nodeId node₀ there₀, node, id] at reported
      exact (Replay.mem_replayStep_reports start (by simp)).mpr reported
    exact reports_at (same.trans split.symm) replayed told

/-- The first of two hosts goes down. -/
def hostFails : NodeEventPayload := ⟨0, some .down, false⟩

theorem refusals_stored_twoHosts : ∃ net past s t this,
    InMemoryNetwork.initialize .twoHosts id (fun _ size => size) = .ok net ∧
      Run (State.step net) (.initial net) past s ∧
      SimulationVerifier.new s.trace .twoHosts = .ok this ∧
      (t, .sendUdp 0 greeting 0) ∈ past ∧ (t.nodes 0).isDown = true ∧
      t.trace ++ [⟨t.now, .packetInNode (t.refusal net 0 greeting)⟩] <+: s.trace ∧
      ¬ this.CountsDropped (fun _ => [0, 1]) t.trace t.now (t.refusal net 0 greeting) ∧
      ¬ this.KeepsOut (fun _ => [0, 1]) t.trace t.now (t.refusal net 0 greeting) ∧
      ¬ this.KeepsUsage (fun _ => [0, 1]) t.trace t.now (t.refusal net 0 greeting) ∧
      .nodeDownPacketReceive 0 (net.uuids t.drawn) ∈ (this.verify fun _ => [0, 1]).reports := by
  have fails : ∃ net t, InMemoryNetwork.initialize .twoHosts id (fun _ size => size) = .ok net ∧
      State.step net (.initial net) (.nodeEvent hostFails) = some t ∧ (t.nodes 0).isDown = true ∧
      (State.step net t (.sendUdp 0 greeting 0)).isSome = true := ⟨_, _, rfl, rfl, rfl, rfl⟩
  obtain ⟨net, t, accepted, failed, down, taken⟩ := fails
  have run := (Run.start.next failed : Run (State.step net) (.initial net) _ t).next_of_isSome _ taken
  have verifier (steps : List SimulationStep) :
      ∃ this, SimulationVerifier.new steps .twoHosts = .ok this := ⟨_, rfl⟩
  obtain ⟨this, made⟩ := verifier (State.trace _)
  exact ⟨net, _, _, t, this, accepted, run, made, List.mem_cons_self, down,
    refusals_stored accepted Function.injective_id run made _ List.mem_cons_self down⟩

/-- A packet that a host that is down sends is reported, and its bytes stay in the host. -/
theorem refusal_reported : ∃ net past s t this stats node,
    InMemoryNetwork.initialize .twoHosts id (fun _ size => size) = .ok net ∧
      Run (State.step net) (.initial net) past s ∧
      SimulationVerifier.new s.trace .twoHosts = .ok this ∧
      (t, .sendUdp 0 greeting 0) ∈ past ∧ (t.nodes 0).isDown = true ∧
      this.verify (fun _ => [0, 1]) = ⟨[.nodeDownPacketReceive 0 0], .ok stats⟩ ∧
      stats.statsByNode 0 = some node ∧ node.droppedOnArrival = .new ∧ node.maxBufferUsage = 28 ∧
      ¬ this.CountsDropped (fun _ => [0, 1]) t.trace t.now (t.refusal net 0 greeting) ∧
      ¬ this.KeepsUsage (fun _ => [0, 1]) t.trace t.now (t.refusal net 0 greeting) := by
  obtain ⟨net, t, s, this, stats, node, node₀, node', accepted, failed, sent, down, made, ran, found,
      none, used, changes, uncounted, grown⟩ :
      ∃ net t s this stats node node₀ node',
        InMemoryNetwork.initialize .twoHosts id (fun _ size => size) = .ok net ∧
        State.step net (.initial net) (.nodeEvent hostFails) = some t ∧
        State.step net t (.sendUdp 0 greeting 0) = some s ∧ (t.nodes 0).isDown = true ∧
        SimulationVerifier.new s.trace .twoHosts = .ok this ∧
        this.verify (fun _ => [0, 1]) = ⟨[.nodeDownPacketReceive 0 0], .ok stats⟩ ∧
        stats.statsByNode 0 = some node ∧ node.droppedOnArrival = .new ∧ node.maxBufferUsage = 28 ∧
        this.Changes (fun _ => [0, 1]) t.trace ⟨t.now, .packetInNode (t.refusal net 0 greeting)⟩ 0
          node₀ node' ∧
        node'.droppedPacketsDown = node₀.droppedPacketsDown ∧
        node'.bufferUsage = node₀.bufferUsage + 28 :=
    ⟨_, _, _, _, _, _, _, _, rfl, rfl, rfl, rfl, rfl, rfl, rfl, rfl, rfl, ⟨_, _, rfl, rfl, rfl, rfl⟩, rfl,
      rfl⟩
  have run := (Run.start.next failed : Run (State.step net) (.initial net) _ t).next sent
  refine ⟨net, _, s, t, this, stats, node, accepted, run, made, List.mem_cons_self, down, ran, found,
    none, used, fun counted => ?_, fun kept => ?_⟩
  · have more := counted node₀ node' changes
    rw [uncounted] at more
    exact absurd (congrArg PacketStats.packets more) (Nat.succ_ne_self _).symm
  · have same := kept node₀ node' changes
    omega

end SimulationVerifier

end Workbench.Tracing
