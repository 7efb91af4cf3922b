import Workbench.Network.Congestion
import Workbench.Network.Neighbours
import Workbench.Tracing.Admission
import Workbench.Tracing.Announcements
import Workbench.Tracing.Complaints

/-! A verifier approves of what the simulator does: of all that it could report about the
trace of a run, only errors about the pace of packets and about outages of nodes and links
while packets are on their way are left. -/

set_option autoImplicit false

namespace Workbench.Network

open Workbench.Library Workbench.Tracing

variable {net : InMemoryNetwork} {spec : NetworkSpec} {s s' t : State} {n : NodeId} {l : LinkId}
  {k : OutgoingPacket}

/-! The links that a node sends packets over. -/

/-- The link is a candidate for some packets of the node. -/
def InMemoryNetwork.Launches (net : InMemoryNetwork) (n : NodeId) (l : LinkId) : Prop :=
  n ∈ net.nodeIds ∧ ∃ dest links, net.candidateLinks n dest = .ok links ∧ l ∈ links

namespace InMemoryNetwork

/-- The routes of a node start at its own addresses. -/
theorem Routed.route_address (routed : net.Routed spec) {node : NetworkNodeSpec}
    (member : node ∈ spec.nodes) {hop : IpAddr × Route} (route : hop ∈ (net.nodes node.id).routes) :
    hop.1 ∈ node.addresses := by
  have owned {interface : NetworkInterface} {addr : Ipv4Cidr} (interfaced : interface ∈ node.interfaces)
      (listed : addr ∈ interface.addresses) : addr.asIpAddr ∈ node.addresses :=
    List.mem_flatMap.mpr ⟨interface, interfaced, List.mem_map_of_mem listed⟩
  obtain ⟨linksAddrMap, -, routes⟩ := routed.routes node member
  rw [routes, List.mem_append, List.mem_mergeSort] at route
  rcases route with connected | other
  · obtain ⟨interface, interfaced, addr, listed, target, -, rfl⟩ := Node.mem_connectedRoutes.mp connected
    exact owned interfaced listed
  · obtain ⟨interface, interfaced, there⟩ := List.mem_flatMap.mp other
    obtain ⟨route, -, there⟩ := List.mem_flatMap.mp there
    obtain ⟨addr, listed, rfl⟩ := List.mem_map.mp there
    exact owned interfaced listed

theorem mem_candidateLinks {dest : IpAddr} {links : List LinkId}
    (walked : net.candidateLinks n dest = .ok links) (member : l ∈ links) :
    ∃ hop ∈ (net.nodes n).routes, ∃ next, net.linksByAddr hop.1 next = some l := by
  obtain ⟨-, hop, route, towards⟩ := yields_iff.mp ⟨links, walked, member⟩
  obtain ⟨next, -, found⟩ := linkTowards_eq_some.mp towards
  exact ⟨hop, route, next, found⟩

/-- A node sends packets only over links that start at it. -/
theorem Launches.source {uuids : Nat → Uuid} {packetDelay : Nat → Nat → Nat}
    (accepted : InMemoryNetwork.initialize spec uuids packetDelay = .ok net)
    (launches : net.Launches n l) : ∃ link ∈ spec.links, link.id = l ∧
      nodeWith spec.nodes link.source = some n := by
  have built := initialized_built accepted
  obtain ⟨known, dest, links, walked, member⟩ := launches
  obtain ⟨node, described, rfl⟩ := (built.nodeIds n).mp known
  obtain ⟨hop, route, next, found⟩ := mem_candidateLinks walked member
  obtain ⟨link, listed, same, source, -⟩ := built.linksByAddr hop.1 next l found
  refine ⟨link, listed, same, ?_⟩
  rw [source, ← (initialized_maps accepted).2.2.1]
  exact initialized_owned accepted described
    ((initialized_routed accepted).route_address described route)

end InMemoryNetwork

namespace State

/-- Each copy of a packet is at a link that its node sends packets over. -/
def Sourced (net : InMemoryNetwork) (s : State) : Prop :=
  ∀ l, ∀ k ∈ (s.links l).copies, net.Launches k.srcNode l

theorem sourced_of_run {past : List (State × Action)}
    (run : Run (State.step net) (.initial net) past s) : Sourced net s := by
  have offered := run.invariant (Offered net) (.initial net) fun _ _ _ offered taken => offered.step taken
  intro l k member
  obtain ⟨known, links, walked, candidate⟩ := offered l k member
  exact ⟨known, _, links, walked, candidate⟩

/-! The trace tells when the buffers of nodes were cleared. -/

theorem processNodeEvent_cleared (net : InMemoryNetwork) (s : State) (event : NodeEventPayload)
    (known : event.nodeId ∈ net.nodeIds) (n : NodeId) :
    ((s.processNodeEvent net event).nodes n).lastBufferClear =
      if event.nodeId = n ∧ event.clearBuffer = true then some s.now
      else (s.nodes n).lastBufferClear := by
  unfold processNodeEvent
  dsimp only
  rw [if_neg (not_not.mpr known)]
  have updated : ClearsKept s
      (event.status.elim s fun status => s.modifyNode event.nodeId (·.updateStatus status)) := by
    intro n'
    cases event.status with
    | none => rfl
    | some status =>
        by_cases here : n' = event.nodeId
        · subst here
          simp [NodeState.updateStatus]
        · simp [modifyNode_of_ne _ _ here]
  have now : (event.status.elim s fun status =>
      s.modifyNode event.nodeId (·.updateStatus status)).now = s.now := by
    cases event.status <;> rfl
  generalize (event.status.elim s fun status =>
    s.modifyNode event.nodeId (·.updateStatus status)) = t at updated now
  rw [← updated n]
  by_cases clears : event.clearBuffer = true
  · by_cases here : n = event.nodeId
    · subst here
      simp [clears, trackNodeEvent, record, NodeState.clearBuffer, now]
    · simp [clears, trackNodeEvent, record, modifyNode_of_ne _ _ here, Ne.symm here]
  · simp [clears, trackNodeEvent, record]

theorem lastClear_concat (n : NodeId) (trace : List SimulationStep) (step : SimulationStep) :
    lastClear n (trace ++ [step]) = (step.bufferClear? n).or (lastClear n trace) := by
  rw [lastClear, latest_concat, lastClear]

theorem lastClear_append {steps : List SimulationStep} (n : NodeId) (trace : List SimulationStep)
    (eventless : ∀ step ∈ steps, step.kind.nodeEvent? = none) :
    lastClear n (trace ++ steps) = lastClear n trace := by
  induction steps using List.reverseRecOn with
  | nil => rw [List.append_nil]
  | append_singleton steps step ih =>
      have silent : step.bufferClear? n = none := by
        have none := eventless step (by simp)
        obtain ⟨time, kind⟩ := step
        cases kind with
        | networkEvent e =>
            obtain ⟨link, node⟩ := e
            obtain rfl : node = .none := none
            rfl
        | _ => rfl
      rw [← List.append_assoc, lastClear_concat, silent, Option.none_or]
      exact ih fun step member => eventless step (List.mem_append_left _ member)

/-- The last clear of each node is the one that the trace tells. -/
def ClearTold (s : State) : Prop :=
  ∀ n, (s.nodes n).lastBufferClear = lastClear n s.trace

theorem ClearTold.step {action : Action} (told : s.ClearTold)
    (taken : s.step net action = some s') : s'.ClearTold := by
  intro n
  by_cases eventless : ∀ event, action ≠ .nodeEvent event
  · obtain ⟨-, clears, steps, grown, silent⟩ := step_uneventful taken eventless
    rw [clears, grown, lastClear_append n s.trace silent]
    exact told n
  · obtain ⟨event, rfl⟩ := not_forall_not.mp eventless
    obtain rfl := Option.some.inj taken
    by_cases known : event.nodeId ∈ net.nodeIds
    · rw [processNodeEvent_cleared net s event known, processNodeEvent_trace known, lastClear_concat,
        ← told n]
      by_cases here : event.nodeId = n ∧ event.clearBuffer = true <;>
        simp [SimulationStep.bufferClear?, here]
    · have same : s.processNodeEvent net event = s := by
        unfold processNodeEvent
        exact if_pos known
      rw [same]
      exact told n

theorem clearTold_of_run {past : List (State × Action)}
    (run : Run (State.step net) (.initial net) past s) : s.ClearTold :=
  run.invariant ClearTold (fun _ => rfl) fun _ _ _ told taken => told.step taken

end State

end Workbench.Network

namespace Workbench.Network

open Workbench.Library Workbench.Tracing

/-! Packets get to the nodes that their links lead to. -/

variable {net : InMemoryNetwork} {licence : Licence} {m m' : Moment} {s s' : State}
  {step : SimulationStep}

/-- A packet that the trace has on a link gets to the node at the end of that link. -/
def Landed (net : InMemoryNetwork) (trace : List SimulationStep) : Prop :=
  ∀ before step after, trace = before ++ step :: after → ∀ p, step.kind = .packetInNode p →
    ∀ flight, openFlight p.packetId before = some flight →
      net.nodesByAddr (net.links flight.link).target = some p.nodeId

namespace Moment

/-- At most one step is told, of a packet in hand where a packet gets to a node. -/
inductive Lands (net : InMemoryNetwork) (m m' : Moment) : Prop where
  | silent (same : m'.state.trace = m.state.trace)
  | told {step : SimulationStep} (grown : m'.state.trace = m.state.trace ++ [step])
      (lands : ∀ p, step.kind = .packetInNode p → ∃ held ∈ m.hand, held.data.id = p.packetId ∧
        m.state.Reaches net p.nodeId held.stage)

theorem Lands.of_log (same : m'.state.log = m.state.log) : Lands net m m' :=
  .silent (congrArg (List.filterMap _) same)

theorem Lands.mark (entry : LogEntry) (grown : m'.state.log = m.state.log ++ [entry])
    (mark : entry.step? = none) : Lands net m m' := by
  apply Lands.silent
  simp [State.trace, grown, mark]

theorem Lands.elsewhere (step : SimulationStep) {log : List LogEntry}
    (same : log.filterMap LogEntry.step? = m.state.trace)
    (grown : m'.state.log = log ++ [.recorded step]) (other : ∀ p, step.kind ≠ .packetInNode p) :
    Lands net m m' := by
  refine @told net m m' step ?_ fun p kind => absurd kind (other p)
  rw [State.trace, grown, List.filterMap_append, same]
  rfl

theorem Lands.taken {data : InTransitData} {stage : Stage} {hand : List Held} {p : PacketInNode}
    {time : Nat} (inHand : m.hand = ⟨data, stage⟩ :: hand)
    (grown : m'.state.log = (m.state.takeUp data stage).log ++ [.recorded ⟨time, .packetInNode p⟩])
    (id : data.id = p.packetId) (reaches : m.state.Reaches net p.nodeId stage) : Lands net m m' := by
  refine @told net m m' ⟨time, .packetInNode p⟩ ?_ fun p' kind => ?_
  · rw [State.trace, grown, List.filterMap_append, trace_takeUp]
    rfl
  · obtain rfl := SimulationStepKind.packetInNode.inj kind
    exact ⟨⟨data, stage⟩, inHand ▸ List.mem_cons_self, id, reaches⟩

theorem Lands.of_effect (effect : Effect net licence m m') : Lands net m m' := by
  cases effect with
  | quiet hand quiet => exact .of_log quiet.log
  | dispatch n packet rest links hand member queued some pushed => exact .of_log pushed.log
  | discard hand takes => exact .of_log takes.works.log
  | sendPanics hand takes => exact .of_log takes.works.log
  | taskPanics l hand works => exact .of_log works.log
  | @clear s t l k hand takes =>
      exact .elsewhere ⟨t.now, .packetDropped ⟨k.data.id, k.srcNode, .bufferCleared⟩⟩
        (congrArg (List.filterMap _) takes.works.log) rfl (by simp)
  | @send s t l k data pacer hand member takes =>
      exact .elsewhere ⟨t.now, .packetInTransit ⟨data.id, k.srcNode, l⟩⟩
        (congrArg (List.filterMap _) takes.works.log) rfl (by simp)
  | outage s l => exact .mark (.wentDown l s.now) rfl rfl
  | event s e => exact .elsewhere ⟨s.now, .networkEvent e⟩ rfl rfl (by simp)
  | enter s n data stage hand reaches up => exact .taken rfl rfl rfl reaches
  | refuse s n data stage hand reaches down => exact .taken rfl rfl rfl reaches
  | drop s n data reason => exact .elsewhere ⟨s.now, .packetDropped ⟨data.id, n, reason⟩⟩ rfl rfl (by simp)
  | duplicate s n data =>
      exact .elsewhere ⟨s.now, .packetDuplicated ⟨data.id, data.number, data.size, n⟩⟩ rfl rfl (by simp)
  | buffer s n data | overbook s n data => exact .mark (.reserved n data) rfl rfl
  | lose s l data sent =>
      exact .elsewhere ⟨s.now, .packetLostInTransit ⟨data.id, l⟩⟩
        (trace_takeUp s data (.flying l sent)) rfl (by simp)
  | strand s l data sent =>
      apply Lands.silent
      simp [State.trace, State.takeUp, State.note, LogEntry.step?]
  | read s n data =>
      exact .elsewhere ⟨s.now, .packetDeliveredToApplication ⟨data.id, data.number, data.size, n⟩⟩
        rfl rfl (by simp)
  | check s n data => exact .mark (.checked n data.id) rfl rfl
  | _ => exact .of_log rfl

end Moment

theorem Landed.effect (landed : Landed net m.state.trace) (follows : m.Follows net)
    (effect : Effect net licence m m') : Landed net m'.state.trace := by
  cases Moment.Lands.of_effect effect with
  | silent same => exact same ▸ landed
  | told grown lands =>
      intro before step after split p kind flight flies
      rw [grown] at split
      rcases split_append split with ⟨rest, old, -⟩ | ⟨skipped, new, rfl⟩
      · exact landed before step rest old p kind flight flies
      cases skipped with
      | cons first skipped => simp at new
      | nil =>
          obtain ⟨rfl, -⟩ := List.cons.inj new
          obtain ⟨held, inHand, id, reaches⟩ := lands p kind
          -- The trace has the packet on the link that it was taken up from
          have there := (follows.placed held (.inl inHand)).there.flight
          rw [List.append_nil] at flies
          rw [id, flies] at there
          cases stage : held.stage with
          | fresh => simp [stage, Stage.flight] at there
          | inside n => simp [stage, Stage.flight] at there
          | flying l sent =>
              rw [stage] at there reaches
              obtain rfl : flight = ⟨l, sent⟩ := Option.some.inj there
              exact reaches.2.1

theorem landed_of_run (fresh : Function.Injective net.uuids) {past : List (State × Action)}
    (run : Run (State.step net) (.initial net) past s) : Landed net s.trace := by
  let Holds (m : Moment) : Prop :=
    m.state.Competing net ∧ Located net False m ∧ m.Follows net ∧ Landed net m.state.trace
  have nothing : Landed net (State.initial net).trace := by
    intro before step after split
    simp [State.initial, State.trace] at split
  have kept := run.invariant (fun s => Holds ⟨s, []⟩) ⟨.initial, .initial, .initial, nothing⟩ ?_
  · exact kept.2.2.2
  · intro s action s' holds taken
    refine State.step_kept taken Holds holds ?_
    rintro licence m m' ⟨competing, located, follows, landed⟩ effect
    exact ⟨competing.effect effect, located.effect fresh competing effect False.elim,
      follows.effect fresh competing located effect, landed.effect follows effect⟩

/-! What a verifier finds in order with each step. -/

/-- The step agrees with what is told before it of its node or link. -/
def Approved (net : InMemoryNetwork) (before : List SimulationStep) : SimulationStepKind → Prop
  | .packetInNode p => p.droppedOnArrival = decide (nodeStatus p.nodeId before = .down)
  | .packetDuplicated p => nodeStatus p.nodeId before = .up
  | .packetInTransit p => linkStatus p.linkId before = .up ∧ net.Launches p.nodeId p.linkId ∧
      ∀ clear, lastClear p.nodeId before = some clear →
        ∀ t, entered p.nodeId p.packetId before = some t → clear ≤ t
  | _ => True

theorem Approved.of_passing {before : List SimulationStep} (passing : step.Passing) :
    Approved net before step.kind := by
  obtain ⟨uncopied, uncrossed⟩ := passing
  obtain ⟨time, kind⟩ := step
  cases kind with
  | packetInNode p | packetDuplicated p => cases uncopied
  | packetInTransit p => cases uncrossed
  | _ => trivial

namespace State

/-- What the run before a step has the step tell of. -/
structure Tidy (net : InMemoryNetwork) (s : State) : Prop where
  status : s.StatusTold
  clears : s.ClearTold
  clocked : s.Clocked net
  since : Since s
  sourced : Sourced net s
  competing : s.Competing net

theorem tidy_of_run (fresh : Function.Injective net.uuids) {past : List (State × Action)}
    (run : Run (State.step net) (.initial net) past s) : Tidy net s where
  status := statusTold_of_run run
  clears := clearTold_of_run run
  clocked := clocked_of_run fresh run _ List.mem_cons_self
  since := since_of_run run
  sourced := sourced_of_run run
  competing := .of_run run

theorem Greets.approved {steps : List SimulationStep} (greets : Greets [] steps s s')
    (told : s.StatusTold) : ∀ earlier step later, steps = earlier ++ step :: later →
      Approved net (s.trace ++ earlier) step.kind := by
  intro earlier step later split
  have before : ∀ step ∈ earlier, step.kind.nodeEvent? = none := fun step member =>
    (greets.greeted step (split ▸ List.mem_append_left _ member)).eventless
  have greeted := greets.greeted step (split ▸ List.mem_append_right _ List.mem_cons_self)
  obtain ⟨time, kind⟩ := step
  cases kind with
  | packetInNode p =>
      change p.droppedOnArrival = decide (nodeStatus p.nodeId (s.trace ++ earlier) = .down)
      rw [nodeStatus_append p.nodeId s.trace before, ← told p.nodeId]
      exact greeted
  | packetDuplicated p =>
      change nodeStatus p.nodeId (s.trace ++ earlier) = .up
      rw [nodeStatus_append p.nodeId s.trace before, ← UpdateStatus.ne_down]
      apply of_decide_eq_false
      rw [← told p.nodeId]
      exact greeted
  | packetInTransit p => exact greeted.elim
  | _ => trivial

/-- A packet that a link takes is one of its source, got there after the last clear, and
finds the link up. -/
theorem Tidy.transit {t : State} {l : LinkId} {k : OutgoingPacket} (tidy : Tidy net s)
    (takes : s.Takes t l k) (unhandled : s.handled k.handled = false)
    (kept : s.clearedFromBuffer k = false) (up : (s.links l).isDown = false) :
    Approved net s.trace (.packetInTransit ⟨k.data.id, k.srcNode, l⟩) := by
  refine ⟨?_, ?_, fun clear cleared t inside => ?_⟩
  · rw [← UpdateStatus.ne_down]
    apply of_decide_eq_false
    rw [← tidy.clocked.status l]
    exact up
  · obtain ⟨k₀, same, copies⟩ := takes.copies
    rw [same.fields.2.1]
    exact tidy.sourced l k₀ (copies ▸ List.mem_cons_self)
  · have waits := takes.waits tidy.competing unhandled
    have since : k.inNodeSince ≤ t := tidy.since.entered k.srcNode _ waits t inside
    rw [clearedFromBuffer, tidy.clears k.srcNode, cleared] at kept
    have : clear ≤ k.inNodeSince := by simpa using kept
    omega

theorem LinkPoll.approved {l : LinkId} (polls : LinkPoll net s l s') (tidy : Tidy net s) :
    ∃ steps, s'.trace = s.trace ++ steps ∧ ∀ earlier step later, steps = earlier ++ step :: later →
      Approved net (s.trace ++ earlier) step.kind := by
  have alone (step : SimulationStep) (approved : Approved net s.trace step.kind) :
      ∀ earlier step' later, [step] = earlier ++ step' :: later →
        Approved net (s.trace ++ earlier) step'.kind := by
    intro earlier step' later split
    cases earlier with
    | cons first earlier => simp at split
    | nil =>
        obtain ⟨rfl, -⟩ := List.cons.inj split
        simpa using approved
  rcases polls.told with same | ⟨k, grown⟩ | ⟨t, k, takes, unhandled, kept, up, grown⟩
  · exact ⟨[], by rw [same, List.append_nil], by simp⟩
  · exact ⟨_, grown, alone _ trivial⟩
  · exact ⟨_, grown, alone _ (tidy.transit takes unhandled kept up)⟩

theorem step_approved {action : Action} (tidy : Tidy net s) (taken : s.step net action = some s') :
    ∃ steps, s'.trace = s.trace ++ steps ∧ ∀ earlier step later, steps = earlier ++ step :: later →
      Approved net (s.trace ++ earlier) step.kind := by
  have passing (rests : Rests s s') : ∃ steps, s'.trace = s.trace ++ steps ∧
      ∀ earlier step later, steps = earlier ++ step :: later →
        Approved net (s.trace ++ earlier) step.kind := by
    obtain ⟨steps, grown, passing⟩ := rests.told
    exact ⟨steps, grown, fun earlier step later split => .of_passing (passing step (by simp [split]))⟩
  cases atNode : action.atNode with
  | true =>
      obtain ⟨steps, greets⟩ := step_greets taken atNode
      exact ⟨steps, greets.trace, greets.approved tidy.status⟩
  | false =>
      cases action with
      | advance duration =>
          obtain rfl := Option.some.inj taken
          exact ⟨[], (List.append_nil _).symm, by simp⟩
      | linkEvent event =>
          obtain rfl := Option.some.inj taken
          exact passing (processLinkEvent_rests net s event)
      | nodeEvent event =>
          obtain rfl := Option.some.inj taken
          exact passing (processNodeEvent_rests net s event)
      | processBuffer node rolls =>
          simp only [State.step] at taken
          split at taken
          · cases taken
          · exact passing (processBuffer_rests taken)
      | pollLink l =>
          simp only [State.step] at taken
          split at taken
          · cases taken
          · exact (pollLink_polls taken).approved tidy
      | sendUdp | pollForwarder | pollRecv | checkReceive => cases atNode

theorem approved_of_run (fresh : Function.Injective net.uuids) {past : List (State × Action)}
    (run : Run (State.step net) (.initial net) past s) : ∀ before step after,
      s.trace = before ++ step :: after → Approved net before step.kind := by
  induction run with
  | start =>
      intro before step after split
      simp [State.initial, State.trace] at split
  | next run taken ih =>
      obtain ⟨steps, grown, approved⟩ := step_approved (tidy_of_run fresh run) taken
      intro before step after split
      rw [grown] at split
      rcases split_append split with ⟨rest, old, -⟩ | ⟨earlier, new, rfl⟩
      · exact ih before step rest old
      · exact approved earlier step after new

end State

end Workbench.Network

namespace Workbench.Tracing

open Workbench.Library Workbench.Network

/-- The error tells that a node or a link is not as it was recorded, that a packet got to
where it cannot get, or that it is still there after it was lost. -/
def NonFatalError.isRuledOut : NonFatalError → Bool
  | .nodeUpPacketDroppedOnArrival .. | .packetSurvivedBufferCorruption .. | .missingLostPacket .. |
    .offlinePacketSend .. | .disconnectedPacketSend .. | .disconnectedPacketReceive .. => true
  | .nodeExceedsBufferSize .. | .nodeDownPacketSend .. | .nodeDownPacketReceive .. |
    .tooFastPacketReceive .. | .offlinePacketReceive .. | .linkBandwidthExceeded .. => false

/-- The packet is one that the application wanted to send from a node that was down. -/
def Rejected (n : NodeId) (id : Uuid) (before : List SimulationStep) (kind : SimulationStepKind) : Prop :=
  ∃ p, kind = .packetInNode p ∧ p.nodeId = n ∧ p.packetId = id ∧ p.droppedOnArrival = true ∧
    openFlight id before = none

section

variable {net : InMemoryNetwork} {spec : NetworkSpec} {before : List SimulationStep} {time : Nat}
  {kind : SimulationStepKind} {report other : NonFatalError} {n : NodeId} {id : Uuid}

/-- An application that sends from a node that is down has its packet recorded as such a one. -/
theorem sendUdp_rejected {past : List (State × Action)} {s s' : State} {transmit : OwnedTransmit} {roll : Nat}
    (fresh : Function.Injective net.uuids) (run : Run (State.step net) (.initial net) past s)
    (down : (s.nodes n).isDown = true) (taken : s.step net (.sendUdp n transmit roll) = some s') :
    ∃ step, s'.trace = s.trace ++ [step] ∧ Rejected n (net.uuids s.drawn) s.trace step.kind := by
  refine ⟨_, State.sendUdp_refused down taken, s.refusal net n transmit, rfl, rfl, rfl, rfl, ?_⟩
  -- The id is one that no step has named yet.
  have unissued : ¬ s.Issued net (net.uuids s.drawn) := by
    rintro ⟨i, before, issued⟩
    exact absurd (fresh issued) before.ne
  exact ((State.follows_of_run fresh run).unseen _ unissued 0).flight

theorem mem_sayIf {wrong : Prop} [Decidable wrong] : report ∈ sayIf wrong other ↔ wrong ∧ report = other := by
  unfold sayIf
  split <;> simp [*]

theorem describedLink_ends {l : LinkId} {metadata : LinkMetadata}
    (described : describedLink spec l = some metadata) : ∃ link ∈ spec.links, link.id = l ∧
      nodeWith spec.nodes link.source = some metadata.sourceNodeId ∧
      nodeWith spec.nodes link.target = some metadata.targetNodeId := by
  obtain ⟨link, last, described⟩ := Option.bind_eq_some_iff.mp described
  obtain ⟨source, owned, described⟩ := Option.bind_eq_some_iff.mp described
  obtain ⟨target, reached, rfl⟩ := Option.map_eq_some_iff.mp described
  obtain ⟨earlier, given, later, split, same, -⟩ := latest_eq_some last
  split_ifs at same with here
  obtain rfl := Option.some.inj same
  exact ⟨given, by simp [split], here, owned, reached⟩

variable {uuids : Nat → Uuid} {packetDelay : Nat → Nat → Nat}
  (accepted : InMemoryNetwork.initialize spec uuids packetDelay = .ok net)

include accepted

/-- What a verifier knows of the ends of a link is where packets get on it and off it. -/
theorem target_described {l : LinkId} {metadata : LinkMetadata}
    (described : describedLink spec l = some metadata)
    (leads : net.nodesByAddr (net.links l).target = some n) : n = metadata.targetNodeId := by
  obtain ⟨link, listed, rfl, -, target⟩ := describedLink_ends described
  rw [(InMemoryNetwork.initialized_built accepted).links link listed,
    (InMemoryNetwork.initialized_maps accepted).2.2.1] at leads
  exact Option.some.inj (leads.symm.trans target)

theorem source_described {l : LinkId} {metadata : LinkMetadata}
    (described : describedLink spec l = some metadata) (launches : net.Launches n l) :
    n = metadata.sourceNodeId := by
  obtain ⟨link, listed, rfl, source, -⟩ := describedLink_ends described
  obtain ⟨link', listed', same, starts⟩ := launches.source accepted
  have unique := (InMemoryNetwork.initialized_routed accepted).unique
  obtain rfl := List.inj_on_of_nodup_map unique listed' listed same
  exact Option.some.inj (starts.symm.trans source)

theorem landing_complaints (time : Nat) {p : PacketInNode} {flight : Flight}
    (approved : p.droppedOnArrival = decide (nodeStatus p.nodeId before = .down))
    (leads : net.nodesByAddr (net.links flight.link).target = some p.nodeId) :
    ∀ report ∈ landingComplaints (describedLink spec) before time p flight,
      report.isRuledOut = false ∧ ∀ n id, report ≠ .nodeDownPacketReceive n id := by
  intro report member
  unfold landingComplaints at member
  rw [List.mem_append, List.mem_append] at member
  rcases member with (atLink | outage) | status
  · cases described : describedLink spec flight.link with
    | none => simp [described] at atLink
    | some metadata =>
        rw [described, Option.elim_some, List.mem_append, mem_sayIf, mem_sayIf] at atLink
        rcases atLink with ⟨wrong, -⟩ | ⟨-, rfl⟩
        · exact absurd (target_described accepted described leads) wrong
        · exact ⟨rfl, by simp⟩
  · cases down : lastLinkDown flight.link before with
    | none => simp [down] at outage
    | some last =>
        rw [down, Option.elim_some, mem_sayIf] at outage
        exact outage.2 ▸ ⟨rfl, by simp⟩
  · -- What is told of a packet that a link brings agrees with the status of its node
    split at status
    · next dropped =>
        rw [mem_sayIf] at status
        rw [dropped, eq_comm, decide_eq_true_eq] at approved
        cases status.1.symm.trans approved
    · next stays =>
        unfold entryComplaints at status
        rw [mem_sayIf] at status
        rw [decide_eq_true status.1] at approved
        exact absurd approved stays

theorem transit_complaints (time : Nat) {p : PacketInTransit}
    (approved : Approved net before (.packetInTransit p)) :
    ∀ report ∈ transitComplaints (describedLink spec) before time p,
      report.isRuledOut = false ∧ ∀ n id, report ≠ .nodeDownPacketReceive n id := by
  obtain ⟨up, launches, cleared⟩ := approved
  intro report member
  unfold transitComplaints at member
  rw [List.mem_append, List.mem_append] at member
  rcases member with (down | survived) | onLink
  · rw [mem_sayIf] at down
    exact down.2 ▸ ⟨rfl, by simp⟩
  · rw [mem_sayIf, Option.any_eq_true] at survived
    obtain ⟨⟨clear, last, inside⟩, -⟩ := survived
    obtain ⟨t, there, early⟩ := (Option.any_eq_true _ _).mp inside
    have := cleared clear last t there
    have := of_decide_eq_true early
    omega
  · cases described : describedLink spec p.linkId with
    | none => simp [described] at onLink
    | some metadata =>
        simp only [described, Option.elim_some, List.mem_append, mem_sayIf] at onLink
        rcases onLink with (⟨wrong, -⟩ | ⟨down, -⟩) | ⟨-, rfl⟩
        · exact absurd (source_described accepted described launches) wrong
        · cases down.symm.trans up
        · exact ⟨rfl, by simp⟩

theorem complaints_approved (time : Nat) (approved : Approved net before kind)
    (expected : Expected net before kind)
    (leads : ∀ p, kind = .packetInNode p → ∀ flight, openFlight p.packetId before = some flight →
      net.nodesByAddr (net.links flight.link).target = some p.nodeId) :
    (∀ report ∈ complaints (describedLink spec) before time kind, report.isRuledOut = false) ∧
      ∀ n id, .nodeDownPacketReceive n id ∈ complaints (describedLink spec) before time kind ↔
        Rejected n id before kind := by
  cases kind with
  | packetInNode p =>
      have approved : p.droppedOnArrival = decide (nodeStatus p.nodeId before = .down) := approved
      unfold complaints
      dsimp only
      cases flies : openFlight p.packetId before with
      | some flight =>
          have fine := landing_complaints accepted time approved (leads p rfl flight flies)
          refine ⟨fun report member => (fine report member).1, fun n id => ?_⟩
          constructor
          · exact fun member => absurd rfl ((fine _ member).2 n id)
          · rintro ⟨p', same, -, rfl, -, grounded⟩
            obtain rfl := SimulationStepKind.packetInNode.inj same
            cases flies.symm.trans grounded
      | none =>
          unfold entryComplaints
          refine ⟨fun report member => (mem_sayIf.mp member).2 ▸ rfl, fun n id => ?_⟩
          rw [mem_sayIf]
          constructor
          · rintro ⟨down, same⟩
            obtain ⟨rfl, rfl⟩ := NonFatalError.nodeDownPacketReceive.inj same
            exact ⟨p, rfl, rfl, rfl, approved.trans (decide_eq_true down), flies⟩
          · rintro ⟨p', same, rfl, rfl, dropped, -⟩
            obtain rfl := SimulationStepKind.packetInNode.inj same
            exact ⟨of_decide_eq_true (approved.symm.trans dropped), rfl⟩
  | packetDuplicated p =>
      have approved : nodeStatus p.nodeId before = .up := approved
      have none : complaints (describedLink spec) before time (.packetDuplicated p) = [] := by
        simp [complaints, entryComplaints, sayIf, approved]
      rw [none]
      simp [Rejected]
  | packetLostInTransit p =>
      cases expected with
      | lost flies =>
          have none : complaints (describedLink spec) before time (.packetLostInTransit p) = [] :=
            if_neg flies
          rw [none]
          simp [Rejected]
  | packetInTransit p =>
      have fine := transit_complaints accepted time approved
      refine ⟨fun report member => (fine report member).1, fun n id => ?_⟩
      constructor
      · exact fun member => absurd rfl ((fine _ member).2 n id)
      · simp [Rejected]
  | _ => simp [complaints, Rejected]

end

namespace SimulationVerifier

/-- Whatever a network did up to some moment, the verification of what was recorded goes through
and finds nothing wrong but with the pace of packets, with outages while they were on their way,
and with full nodes. It tells of a packet received by a node that is down exactly where the
application wanted to send one from it. -/
theorem verify_approves {spec : NetworkSpec} {uuids : Nat → Uuid} {packetDelay : Nat → Nat → Nat}
    {net : InMemoryNetwork} (accepted : InMemoryNetwork.initialize spec uuids packetDelay = .ok net)
    (fresh : Function.Injective uuids) {past : List (State × Action)} {s : State}
    (run : Run (State.step net) (.initial net) past s) {steps : List SimulationStep}
    (recorded : steps <+: s.trace) {this : SimulationVerifier}
    (made : SimulationVerifier.new steps spec = .ok this) (order : Option Nat → List NodeId) :
    (∃ stats, (this.verify order).Yields stats) ∧
      (∀ report ∈ (this.verify order).reports, report.isRuledOut = false) ∧
      ∀ n id, .nodeDownPacketReceive n id ∈ (this.verify order).reports ↔
        ∃ m ∈ moments steps, Rejected n id m.1 m.2.kind := by
  have fresh' : Function.Injective net.uuids := InMemoryNetwork.initialized_uuids accepted ▸ fresh
  have follows := State.follows_of_run fresh' run
  obtain ⟨stats, through⟩ := (verify_recorded accepted fresh run recorded made order).1
  obtain ⟨later, whole⟩ := recorded
  have sorted : (steps.map (·.relativeTime)).Pairwise (· ≤ ·) := by
    refine (State.timely_of_run run).sorted.sublist ?_
    rw [← whole, List.map_append]
    exact List.sublist_append_left _ _
  -- Each moment of the steps is one of the trace
  have recorded {m : List SimulationStep × SimulationStep} (inside : m ∈ moments steps) :
      ∃ after, s.trace = m.1 ++ m.2 :: after := by
    obtain ⟨after, split⟩ := mem_moments.mp inside
    exact ⟨after ++ later, by rw [← whole, split, List.append_assoc, List.cons_append]⟩
  have all : (this.verify order).reports.filter NonFatalError.isOfStep =
      allComplaints (describedLink spec) steps := by
    obtain ⟨-, same⟩ := new_made made
    obtain ⟨replay, -, replayed, -⟩ := verify_yields.mp through
    rw [same, sortSteps_of_sorted sorted] at replayed
    rw [verify_ofStep through, same, sortSteps_of_sorted sorted]
    exact (new_ready made).replaySteps sorted replayed
  have mem_reports (report : NonFatalError) (ofStep : report.isOfStep = true) :
      report ∈ (this.verify order).reports ↔ ∃ m ∈ moments steps,
        report ∈ complaints (describedLink spec) m.1 m.2.relativeTime m.2.kind := by
    rw [← List.mem_flatMap, ← allComplaints, ← all, List.mem_filter]
    exact (and_iff_left ofStep).symm
  have fine {m : List SimulationStep × SimulationStep} (inside : m ∈ moments steps) :
      (∀ report ∈ complaints (describedLink spec) m.1 m.2.relativeTime m.2.kind,
        report.isRuledOut = false) ∧
      ∀ n id, .nodeDownPacketReceive n id ∈
        complaints (describedLink spec) m.1 m.2.relativeTime m.2.kind ↔
          Rejected n id m.1 m.2.kind := by
    obtain ⟨after, split⟩ := recorded inside
    exact complaints_approved accepted m.2.relativeTime
      (State.approved_of_run fresh' run m.1 m.2 after split)
      (follows.expected m.1 m.2 after split) (landed_of_run fresh' run m.1 m.2 after split)
  refine ⟨⟨stats, through⟩, fun report member => ?_, fun n id => ?_⟩
  · by_contra wrong
    rw [Bool.not_eq_false] at wrong
    have ofStep : report.isOfStep = true := by
      cases report with
      | nodeExceedsBufferSize => cases wrong
      | _ => rfl
    obtain ⟨m, inside, complained⟩ := (mem_reports report ofStep).mp member
    exact absurd ((fine inside).1 report complained) (by simp [wrong])
  · rw [mem_reports _ rfl]
    constructor
    · rintro ⟨m, inside, complained⟩
      exact ⟨m, inside, ((fine inside).2 n id).mp complained⟩
    · rintro ⟨m, inside, rejected⟩
      exact ⟨m, inside, ((fine inside).2 n id).mpr rejected⟩

/-- A host that is down has what it wants to send reported, and nothing else is. -/
theorem verify_approves_twoHosts : ∃ net past s this,
    InMemoryNetwork.initialize .twoHosts id (fun _ size => size) = .ok net ∧
      Run (State.step net) (.initial net) past s ∧ past.length = 2 ∧
      SimulationVerifier.new s.trace .twoHosts = .ok this ∧
      (∃ stats, (this.verify fun _ => [0, 1]).Yields stats) ∧
      (∀ report ∈ (this.verify fun _ => [0, 1]).reports, report.isRuledOut = false) ∧
      ∀ n id, .nodeDownPacketReceive n id ∈ (this.verify fun _ => [0, 1]).reports ↔
        ∃ m ∈ moments s.trace, Rejected n id m.1 m.2.kind := by
  have fails : ∃ net t, InMemoryNetwork.initialize .twoHosts id (fun _ size => size) = .ok net ∧
      State.step net (.initial net) (.nodeEvent hostFails) = some t ∧
      (State.step net t (.sendUdp 0 greeting 0)).isSome = true := ⟨_, _, rfl, rfl, rfl⟩
  obtain ⟨net, t, accepted, failed, taken⟩ := fails
  have run := (Run.start.next failed : Run (State.step net) (.initial net) _ t).next_of_isSome _ taken
  have verifier (steps : List SimulationStep) :
      ∃ this, SimulationVerifier.new steps .twoHosts = .ok this := ⟨_, rfl⟩
  obtain ⟨this, made⟩ := verifier (State.trace _)
  exact ⟨net, _, _, this, accepted, run, rfl, made,
    verify_approves accepted Function.injective_id run (List.prefix_refl _) made _⟩

end SimulationVerifier

end Workbench.Tracing
