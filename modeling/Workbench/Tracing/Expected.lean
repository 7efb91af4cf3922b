import Workbench.Network.Effects
import Workbench.Network.Topology
import Workbench.Tracing.Holdings
import Workbench.Tracing.Iteration

/-! Traces whose every step finds its node and link in the network, and its packet where
it needs it. A verifier made for the network replays such a trace to its end, and knows
each packet that is lost. -/

set_option autoImplicit false

namespace Workbench.Tracing

open Workbench.Library Workbench.Network

/-- A step that a replay of the steps before it can take. -/
inductive Expected (net : InMemoryNetwork) (before : List SimulationStep) :
    SimulationStepKind → Prop where
  | arrives {s : PacketInNode} (known : net.Knows s.nodeId)
      (absent : sizeIn s.nodeId s.packetId before = none) : Expected net before (.packetInNode s)
  | duplicated {s : GenericPacketEvent} (known : net.Knows s.nodeId)
      (absent : sizeIn s.nodeId s.packetId before = none) :
      Expected net before (.packetDuplicated s)
  | dropped {s : PacketDropped} (known : net.Knows s.nodeId)
      (inside : sizeIn s.nodeId s.packetId before ≠ none) : Expected net before (.packetDropped s)
  | lost {s : PacketLostInTransit} (flies : openFlight s.packetId before ≠ none) :
      Expected net before (.packetLostInTransit s)
  | sent {s : PacketInTransit} (known : net.Knows s.nodeId)
      (inside : sizeIn s.nodeId s.packetId before ≠ none) (link : s.linkId ∈ net.linkIds) :
      Expected net before (.packetInTransit s)
  | delivered {s : GenericPacketEvent} (known : net.Knows s.nodeId)
      (inside : sizeIn s.nodeId s.packetId before ≠ none) :
      Expected net before (.packetDeliveredToApplication s)
  | event {e : NetworkEvent} (link : ∀ p, e.link = some p → p.linkId ∈ net.linkIds)
      (node : ∀ p, e.node = some p → p.nodeId ∈ net.nodeIds) : Expected net before (.networkEvent e)

/-- An error that is neither about a full node nor about a lost packet. -/
def NonFatalError.isUsual : NonFatalError → Bool
  | .nodeExceedsBufferSize .. | .missingLostPacket _ => false
  | _ => true

/-- All of the usual errors are allowed. -/
abbrev AllowsUsual (Allowed : NonFatalError → Prop) : Prop :=
  ∀ report, report.isUsual = true → Allowed report

/-- What a computation reports is allowed. -/
abbrev Reports {α : Type} (Allowed : NonFatalError → Prop) (x : Verdict α) : Prop :=
  x.Meets Allowed (fun _ => True) fun _ => True

/-- The computation knows each packet that is lost. -/
abbrev Unmissed {α : Type} (x : Verdict α) : Prop :=
  Reports (fun report => ∀ id, report ≠ .missingLostPacket id) x

section

variable {Allowed : NonFatalError → Prop}

theorem reports_unwrap {α : Type} {reason : Halt} (o : Option α) :
    Reports Allowed (.unwrap reason o) := .unwrap (fun _ => trivial) fun _ _ => trivial

namespace ReplayedNode

variable (this : ReplayedNode)

theorem addPacketToBuffer_reports {id : Uuid} (size now : Nat)
    (down : Allowed (.nodeDownPacketReceive this.id id)) :
    Reports Allowed (this.addPacketToBuffer id size now) := by
  refine .seq (.check fun _ => down) fun _ => ?_
  split
  · exact .halt trivial
  · exact .pure trivial

theorem removePacketFromBuffer_reports (id : Uuid) :
    Reports Allowed (this.removePacketFromBuffer id) := by
  unfold removePacketFromBuffer
  split
  · exact .halt trivial
  · split
    · exact .halt trivial
    · exact .pure trivial

theorem packetReceived_reports {s : PacketInNode} (now : Nat)
    (down : Allowed (.nodeDownPacketReceive this.id s.packetId))
    (up : Allowed (.nodeUpPacketDroppedOnArrival this.id s.packetId)) :
    Reports Allowed (this.packetReceived s now) := by
  unfold packetReceived
  dsimp only
  split
  · exact .seq (.check fun _ => up) fun _ => .pure trivial
  · exact addPacketToBuffer_reports _ _ _ down

end ReplayedNode

namespace Replay

theorem withNode_reports (this : Replay) (n : NodeId)
    {change : ReplayedNode → Verdict ReplayedNode} (changes : ∀ node, Reports Allowed (change node)) :
    Reports Allowed (this.withNode n change) :=
  .seq (reports_unwrap _) fun node => .seq (changes node) fun _ => .pure trivial

theorem updateMaxBufferUsage_reports (this : Replay) (order : List NodeId)
    (exceeds : ∀ n size used, Allowed (.nodeExceedsBufferSize n size used)) :
    Reports Allowed (this.updateMaxBufferUsage order) := by
  induction order generalizing this with
  | nil => exact .pure trivial
  | cons n order ih =>
      unfold updateMaxBufferUsage
      split
      · exact ih this
      · refine .seq (reports_unwrap _) fun metadata => ?_
        split
        · exact .seq (.track (exceeds _ _ _) trivial) fun _ => .pure trivial
        · exact ih _

theorem startTime_reports (this : Replay) (order : Option Nat → List NodeId) (time : Nat)
    (exceeds : ∀ n size used, Allowed (.nodeExceedsBufferSize n size used)) :
    Reports Allowed (this.startTime order time) := by
  unfold startTime
  split
  · exact .seq (this.updateMaxBufferUsage_reports _ exceeds) fun _ => .pure trivial
  · exact .pure trivial

/-- Beside full nodes, what a step reports is what replaying its kind reports. -/
theorem mem_replayStep_reports {this begun : Replay} {order : Option Nat → List NodeId}
    {step : SimulationStep} {report : NonFatalError}
    (start : (this.startTime order step.relativeTime).Yields begun)
    (unexceeded : ∀ n size used, report ≠ .nodeExceedsBufferSize n size used) :
    report ∈ (this.replayStep order step).reports ↔
      report ∈ (begun.replayKind step.relativeTime step.kind).reports := by
  have silent : report ∉ (this.startTime order step.relativeTime).reports := by
    intro member
    have begins : Reports (· ≠ report) (this.startTime order step.relativeTime) :=
      this.startTime_reports order step.relativeTime
        fun n size used same => unexceeded n size used same.symm
    exact begins.reports report member rfl
  exact (Tracked.mem_reports_bind start).trans (or_iff_right silent)

theorem finish_reports (this : Replay) (order : Option Nat → List NodeId)
    (exceeds : ∀ n size used, Allowed (.nodeExceedsBufferSize n size used)) :
    Reports Allowed (this.finish order) := by
  unfold finish
  split
  · exact this.updateMaxBufferUsage_reports _ exceeds
  · exact .pure trivial

end Replay

end

namespace Replay

variable {this next : Replay} {net : InMemoryNetwork} {time : Nat} {before : List SimulationStep}

section

variable {Allowed : NonFatalError → Prop}

theorem networkEvent_reports (this : Replay) (time : Nat) (e : NetworkEvent) :
    Reports Allowed (this.networkEvent time e) := by
  have linked : Reports Allowed (e.link.elim (pure this) (this.linkEvent time)) := by
    cases e.link with
    | none => exact .pure trivial
    | some event =>
        unfold Option.elim linkEvent
        dsimp only
        split
        · exact .pure trivial
        · exact .seq (reports_unwrap _) fun _ => .pure trivial
  refine .seq linked fun middle => ?_
  cases e.node with
  | none => exact .pure trivial
  | some event => exact middle.withNode_reports _ fun _ => .pure trivial

theorem packetInNode_reports (usual : AllowsUsual Allowed) (this : Replay) (time : Nat)
    (s : PacketInNode) : Reports Allowed (this.packetInNode time s) := by
  unfold packetInNode
  split
  · refine .seq (reports_unwrap _) fun metadata => .seq (.check fun _ => usual _ rfl) fun _ => ?_
    refine .seq (reports_unwrap _) fun timeInFlight => .seq (.check fun _ => usual _ rfl) fun _ => ?_
    refine .seq (reports_unwrap _) fun link => .seq ?_ fun _ => ?_
    · unfold checkOutage
      split
      · exact .pure trivial
      · exact .check fun _ => usual _ rfl
    · exact withNode_reports _ _ fun node => node.packetReceived_reports time (usual _ rfl) (usual _ rfl)
  · exact this.withNode_reports _ fun node => node.addPacketToBuffer_reports _ _ (usual _ rfl)

theorem packetInTransit_reports (usual : AllowsUsual Allowed) (this : Replay) (time : Nat)
    (s : PacketInTransit) : Reports Allowed (this.packetInTransit time s) := by
  refine .seq (reports_unwrap _) fun node => .seq ?_ fun sent => ?_
  · exact .seq (.check fun _ => usual _ rfl) fun _ => .seq (node.removePacketFromBuffer_reports _)
      fun _ => .seq (.check fun _ => usual _ rfl) fun _ => .pure trivial
  · refine .seq (reports_unwrap _) fun metadata => .seq (.check fun _ => usual _ rfl) fun _ => ?_
    refine .seq (reports_unwrap _) fun link => .seq (.check fun _ => usual _ rfl) fun _ => ?_
    exact .seq (reports_unwrap _) fun used => .seq (.check fun _ => usual _ rfl) fun _ => .pure trivial

/-- What the replay of a step reports, other than the usual: a lost packet that is on no link. -/
theorem replayKind_reports {kind : SimulationStepKind} (usual : AllowsUsual Allowed)
    (lost : ∀ s, kind = .packetLostInTransit s → this.inFlightPackets.lookup s.packetId = none →
      Allowed (.missingLostPacket s.packetId)) : Reports Allowed (this.replayKind time kind) := by
  cases kind with
  | packetInNode s => exact packetInNode_reports usual this time s
  | packetInTransit s => exact packetInTransit_reports usual this time s
  | networkEvent e => exact this.networkEvent_reports time e
  | packetLostInTransit s =>
      unfold replayKind packetLostInTransit
      dsimp only
      split
      · exact .pure trivial
      · next grounded => exact .seq (.track (lost s rfl grounded) trivial) fun _ => .pure trivial
  | packetDuplicated s =>
      exact this.withNode_reports _ fun node =>
        ReplayedNode.addPacketToBuffer_reports _ _ _ (usual _ rfl)
  | packetDropped s =>
      exact this.withNode_reports _ fun node =>
        .seq (node.removePacketFromBuffer_reports _) fun _ => .pure trivial
  | packetCongestionEvent s => exact this.withNode_reports _ fun _ => .pure trivial
  | packetDeliveredToApplication s =>
      exact this.withNode_reports _ fun node =>
        .seq (node.removePacketFromBuffer_reports _) fun _ => .pure trivial
  | packetExtraDelay s =>
      refine this.withNode_reports _ fun node => ?_
      unfold ReplayedNode.packetHasExtraDelay
      split
      · exact .halt trivial
      · exact .pure trivial

end

/-- A step misses a packet only where the packet is lost, and on no link. -/
theorem replayKind_unmissed {kind : SimulationStepKind} (flies : ∀ s, kind = .packetLostInTransit s →
      this.inFlightPackets.lookup s.packetId ≠ none) : Unmissed (this.replayKind time kind) := by
  refine replayKind_reports (fun report usual id same => ?_) fun s same grounded =>
    absurd grounded (flies s same)
  rw [same] at usual
  cases usual

/-- A replay that has the nodes and links of a network. -/
structure Covers (this : Replay) (net : InMemoryNetwork) : Prop where
  nodes : ∀ n, net.Knows n → n ∈ this.nodes
  links : ∀ l ∈ net.linkIds, l ∈ this.linkMetadata
  linked : ∀ l, l ∈ this.linkMetadata → l ∈ this.links

theorem Covers.node (covers : this.Covers net) {n : NodeId} (known : net.Knows n) :
    ∃ node, this.nodes.lookup n = some node :=
  Option.isSome_iff_exists.mp (AList.lookup_isSome.mpr (covers.nodes n known))

theorem Covers.link (covers : this.Covers net) {l : LinkId} (known : l ∈ this.linkMetadata) :
    ∃ metadata link, this.linkMetadata.lookup l = some metadata ∧ this.links.lookup l = some link := by
  obtain ⟨metadata, found⟩ := Option.isSome_iff_exists.mp (AList.lookup_isSome.mpr known)
  obtain ⟨link, there⟩ :=
    Option.isSome_iff_exists.mp (AList.lookup_isSome.mpr (covers.linked l known))
  exact ⟨metadata, link, found, there⟩

theorem Mirrors.absent (mirrors : this.Mirrors before) {n : NodeId} {node : ReplayedNode} {id : Uuid}
    (there : this.nodes.lookup n = some node) (absent : sizeIn n id before = none) :
    id ∉ node.packets := by
  rw [← mirrors.sizes n node there] at absent
  exact AList.lookup_eq_none.mp (Option.map_eq_none_iff.mp absent)

theorem Mirrors.inside (mirrors : this.Mirrors before) (consistent : this.Consistent) {n : NodeId}
    {node : ReplayedNode} {id : Uuid} (there : this.nodes.lookup n = some node)
    (inside : sizeIn n id before ≠ none) : ∃ packet, node.packets.lookup id = some packet ∧
      packet.sizeBytes ≤ node.bufferUsage := by
  rw [← mirrors.sizes n node there] at inside
  obtain ⟨size, same⟩ := Option.ne_none_iff_exists'.mp inside
  obtain ⟨packet, held, -⟩ := Option.map_eq_some_iff.mp same
  have whole : node.bufferUsage = total ReplayedPacket.sizeBytes node.packets :=
    consistent.nodes n node there
  have part : total ReplayedPacket.sizeBytes (node.packets.erase id) + packet.sizeBytes =
      total ReplayedPacket.sizeBytes node.packets := total_erase held
  exact ⟨packet, held, by omega⟩

/-- An expected step is taken. -/
theorem Covers.turn {kind : SimulationStepKind} (covers : this.Covers net)
    (mirrors : this.Mirrors before) (consistent : this.Consistent) (now : this.lastStepTime = time)
    (expected : Expected net before kind) : ∃ next, this.Turn time kind next := by
  cases expected with
  | @arrives s known absent =>
      -- In the node for the first time: created there, or sent there over a link.
      obtain ⟨node, there⟩ := covers.node known
      have absent := mirrors.absent there absent
      cases flies : this.inFlightPackets.lookup s.packetId with
      | none => exact ⟨_, .created flies there absent⟩
      | some inFlight =>
          obtain ⟨known, sent⟩ := consistent.inFlight s.packetId inFlight flies
          obtain ⟨metadata, link, found, linked⟩ := covers.link known
          have travelled : this.Travelled time inFlight :=
            ⟨⟨metadata, found⟩, ⟨link, linked⟩, now ▸ sent⟩
          cases dropped : s.droppedOnArrival with
          | true => exact ⟨_, .refused flies there dropped travelled⟩
          | false => exact ⟨_, .landed flies there dropped absent travelled⟩
  | duplicated known absent =>
      obtain ⟨node, there⟩ := covers.node known
      exact ⟨_, .duplicated there (mirrors.absent there absent)⟩
  | dropped known inside =>
      obtain ⟨node, there⟩ := covers.node known
      obtain ⟨packet, held, fits⟩ := mirrors.inside consistent there inside
      exact ⟨_, .dropped there held fits⟩
  | @lost s flies =>
      rw [← mirrors.flights] at flies
      obtain ⟨flight, same⟩ := Option.ne_none_iff_exists'.mp flies
      obtain ⟨inFlight, found, -⟩ := Option.map_eq_some_iff.mp same
      exact ⟨_, .lost found⟩
  | @sent s known inside linked =>
      obtain ⟨node, there⟩ := covers.node known
      obtain ⟨packet, held, fits⟩ := mirrors.inside consistent there inside
      obtain ⟨metadata, link, found, linked⟩ := covers.link (covers.links _ linked)
      have carried := (consistent.links _ _ linked).packetSent time packet.sizeBytes
        metadata.bandwidthBps
      exact ⟨_, .sent there held fits found linked carried⟩
  | delivered known inside =>
      obtain ⟨node, there⟩ := covers.node known
      obtain ⟨packet, held, fits⟩ := mirrors.inside consistent there inside
      exact ⟨_, .delivered there held fits⟩
  | @event e link node =>
      obtain ⟨link?, node?⟩ := e
      -- The link changes first, which leaves the nodes for the other half of the event.
      have linked : ∃ middle, this.LinkTurn time link? middle ∧ middle.nodes = this.nodes := by
        cases link? with
        | none => exact ⟨this, .none, rfl⟩
        | some payload =>
            cases status : payload.status with
            | none => exact ⟨this, .other status, rfl⟩
            | some status' =>
                obtain ⟨-, found, -, there⟩ := covers.link (covers.links _ (link payload rfl))
                exact ⟨_, .switched status there, rfl⟩
      obtain ⟨middle, turned, same⟩ := linked
      cases node? with
      | none => exact ⟨middle, .event turned .none⟩
      | some payload =>
          obtain ⟨found, there⟩ := covers.node (.inl (node payload rfl))
          exact ⟨_, .event turned (.changed (same ▸ there))⟩

theorem Covers.sampled (covers : this.Covers net) (sampled : this.Sampled next) :
    next.Covers net where
  nodes n known := (sampled.nodeIds n).mpr (covers.nodes n known)
  links l member := sampled.linkMetadata ▸ covers.links l member
  linked l known := sampled.links ▸ covers.linked l (sampled.linkMetadata ▸ known)

theorem Turn.linkIds {kind : SimulationStepKind} (turn : this.Turn time kind next) {l : LinkId}
    (known : l ∈ this.links) : l ∈ next.links := by
  cases turn with
  | sent => exact (AList.mem_insert _).mpr (.inr known)
  | @event e middle next link node =>
      obtain ⟨link?, node?⟩ := e
      have kept : l ∈ middle.links := by
        cases link with
        | none | other => exact known
        | switched => exact (AList.mem_insert _).mpr (.inr known)
      cases node <;> exact kept
  | _ => exact known

theorem Covers.turned {kind : SimulationStepKind} (covers : this.Covers net)
    (turn : this.Turn time kind next) : next.Covers net where
  nodes n known := (turn.shifts.nodeIds n).mpr (covers.nodes n known)
  links l member := turn.shifts.linkMetadata ▸ covers.links l member
  linked l known := turn.linkIds (covers.linked l (turn.shifts.linkMetadata ▸ known))

theorem Covers.replayed {done steps : List SimulationStep} {order : Option Nat → List NodeId}
    (covers : this.Covers net) (mirrors : this.Mirrors done)
    (yields : (this.replaySteps order steps).Yields next) : next.Covers net :=
  replaySteps_kept (fun _ this => this.Covers net) (fun _ _ _ covers sampled => covers.sampled sampled)
    (fun _ _ _ _ _ covers turn => covers.turned turn) mirrors covers yields

/-- A replay goes on through expected steps, and misses no packet. -/
theorem Covers.replaySteps {done steps : List SimulationStep} (covers : this.Covers net)
    (mirrors : this.Mirrors done) (consistent : this.Consistent)
    (sorted : (steps.map (·.relativeTime)).Pairwise (· ≤ ·))
    (later : ∀ step ∈ steps, this.lastStepTime ≤ step.relativeTime)
    (expected : ∀ before step after, steps = before ++ step :: after →
      Expected net (done ++ before) step.kind) (order : Option Nat → List NodeId) :
    ∃ next, (this.replaySteps order steps).Yields next ∧ next.Consistent ∧
      Unmissed (this.replaySteps order steps) := by
  induction steps generalizing this done with
  | nil => exact ⟨this, Tracked.yields_pure.mpr rfl, consistent, .pure trivial⟩
  | cons step steps ih =>
      rw [List.map_cons, List.pairwise_cons] at sorted
      have now := later step List.mem_cons_self
      obtain ⟨begun, start⟩ := startTime_goes consistent.metadata order step.relativeTime
      have sampled := startTime_sampled start
      obtain ⟨begunConsistent, begunTime⟩ := (consistent.startTime order now).yields begun start
      have first : Expected net done step.kind := by simpa using expected [] step steps rfl
      obtain ⟨middle, turn⟩ :=
        (covers.sampled sampled).turn (mirrors.sampled sampled) begunConsistent begunTime first
      have replayed : (this.replayStep order step).Yields middle :=
        Tracked.yields_bind.mpr ⟨begun, start, turn.yields⟩
      obtain ⟨middleConsistent, middleTime⟩ := (consistent.replayStep order now).yields middle replayed
      have flies (s : PacketLostInTransit) (same : step.kind = .packetLostInTransit s) :
          begun.inFlightPackets.lookup s.packetId ≠ none := by
        rw [same] at first
        cases first with
        | lost flies =>
            rw [← (mirrors.sampled sampled).flights] at flies
            exact fun grounded => flies (by rw [flight, grounded]; rfl)
      have found : Unmissed (this.replayStep order step) := by
        refine ((this.startTime_reports order step.relativeTime (by simp)).sole start).bind ?_
        rintro _ rfl
        exact replayKind_unmissed flies
      obtain ⟨last, yields, lastConsistent, unmissed⟩ :=
        ih ((covers.sampled sampled).turned turn) (replayStep_mirrors mirrors replayed).1
          middleConsistent sorted.2
          (fun next member => middleTime ▸ sorted.1 _ (List.mem_map_of_mem member))
          fun before next after split => by
            simpa using expected (step :: before) next after (by rw [split]; rfl)
      refine ⟨last, Tracked.yields_foldlM_cons.mpr ⟨middle, replayed, yields⟩, lastConsistent, ?_⟩
      rw [Replay.replaySteps, List.foldlM_cons]
      refine (found.sole replayed).bind ?_
      rintro _ rfl
      exact unmissed

end Replay

namespace SimulationVerifier

variable {this : SimulationVerifier} {spec : NetworkSpec} {net : InMemoryNetwork}

/-- A verifier made for the description of a network has its nodes and links. -/
theorem Made.covers (made : this.Made spec) (built : net.Built spec) :
    (Replay.start { this with steps := [] }).Covers net where
  nodes n known := by
    refine (made.nodeIds n).mpr ?_
    rcases known with member | ⟨l, -, target⟩
    · exact (built.nodeIds n).mp member
    · obtain ⟨node, member, same, -⟩ := built.nodesByAddr _ n target
      exact ⟨node, member, same⟩
  links l member := (made.linkKnown l).mpr ((made.linkIds l).mpr ((built.linkIds l).mp member))
  linked l known := (made.linkKnown l).mp known

/-- The first steps of what a network recorded are replayed. -/
theorem Made.replays_before {before after : List SimulationStep} (made : this.Made spec)
    (built : net.Built spec) (sorted : ((before ++ after).map (·.relativeTime)).Pairwise (· ≤ ·))
    (expected : ∀ before' step after', before ++ after = before' ++ step :: after' →
      Expected net before' step.kind) (order : Option Nat → List NodeId) :
    ∃ replay : Replay,
      ((Replay.start { this with steps := [] }).replaySteps order before).Yields replay ∧
      replay.Mirrors before ∧ replay.linkMetadata = this.linkMetadata ∧ replay.Covers net ∧
      replay.Consistent := by
  have covers := made.covers built
  obtain ⟨replay, replayed, consistent, -⟩ := covers.replaySteps made.start_mirrors made.consistent
    (sorted.sublist ((List.sublist_append_left _ _).map _)) (fun _ _ => Nat.zero_le _)
    (fun before' step rest split => by
      have whole := expected before' step (rest ++ after) (by simp [split])
      simpa using whole) order
  obtain ⟨mirrors, metadata⟩ := Replay.replaySteps_mirrors made.start_mirrors replayed
  exact ⟨replay, replayed, mirrors, metadata, covers.replayed made.start_mirrors replayed,
    consistent⟩

/-- A verification of expected steps goes through, in whatever order nodes are iterated. -/
theorem Made.verify_expected (made : this.Made spec) (built : net.Built spec)
    (sorted : (this.steps.map (·.relativeTime)).Pairwise (· ≤ ·))
    (expected : ∀ before step after, this.steps = before ++ step :: after →
      Expected net before step.kind) (order : Option Nat → List NodeId) :
    (∃ stats, (this.verify order).Yields stats) ∧
      ∀ id, .missingLostPacket id ∉ (this.verify order).reports := by
  obtain ⟨replay, replayed, consistent, unmissed⟩ :=
    (made.covers built).replaySteps made.start_mirrors made.consistent sorted
      (fun _ _ => Nat.zero_le _) (by simpa using expected) order
  obtain ⟨final, finished⟩ := Replay.finish_goes consistent.metadata order
  have found : Unmissed (this.verify order) :=
    .seq unmissed fun reached => .seq (reached.finish_reports order (by simp)) fun _ => .pure trivial
  exact ⟨⟨_, verify_yields.mpr ⟨replay, final, replayed, finished, rfl⟩⟩,
    fun id member => found.reports _ member id rfl⟩

end SimulationVerifier

end Workbench.Tracing
