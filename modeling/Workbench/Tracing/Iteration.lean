import Workbench.Tracing.Consistency
import Workbench.Tracing.Construction

/-! The order in which nodes are iterated does not decide whether a verification goes
through: what it changes of a replay, no step looks at. -/

set_option autoImplicit false

namespace Workbench.Tracing

open Workbench.Library Workbench.Network

namespace Replay

variable {this this' next : Replay} {time : Nat}

theorem Sampled.there (sampled : this.Sampled this') {n : NodeId} {node : ReplayedNode}
    (there : this.nodes.lookup n = some node) :
    ∃ used, this'.nodes.lookup n = some { node with maxBufferUsage := used } := by
  obtain ⟨used, same⟩ := sampled.lookup n
  exact ⟨used, by rw [same, there]; rfl⟩

theorem Sampled.setNode (sampled : this.Sampled this') (n : NodeId) (node : ReplayedNode)
    (used : Nat) :
    (this.setNode n node).Sampled (this'.setNode n { node with maxBufferUsage := used }) := by
  refine ⟨sampled.linkMetadata, sampled.nodeMetadata, sampled.links, sampled.inFlight, fun n' => ?_⟩
  simp only [Replay.setNode, lookup_insert]
  split
  · exact ⟨used, rfl⟩
  · exact sampled.lookup n'

theorem Sampled.setLink (sampled : this.Sampled this') (l : LinkId) (link : ReplayedLink) :
    (this.setLink l link).Sampled (this'.setLink l link) :=
  ⟨sampled.linkMetadata, sampled.nodeMetadata, congrArg (·.insert l link) sampled.links,
    sampled.inFlight, sampled.lookup⟩

theorem Sampled.ground (sampled : this.Sampled this') (id : Uuid) :
    (this.ground id).Sampled (this'.ground id) :=
  ⟨sampled.linkMetadata, sampled.nodeMetadata, sampled.links, congrArg (·.erase id) sampled.inFlight,
    sampled.lookup⟩

theorem Sampled.launch (sampled : this.Sampled this') (id : Uuid) (packet : ReplayedPacket)
    (time : Nat) (l : LinkId) :
    (this.launch id packet time l).Sampled (this'.launch id packet time l) := by
  refine ⟨sampled.linkMetadata, sampled.nodeMetadata, sampled.links, ?_, sampled.lookup⟩
  simp only [Replay.launch, sampled.inFlight]

theorem Sampled.travelled (sampled : this.Sampled this') {inFlight : InFlightPacket}
    (travelled : this.Travelled time inFlight) : this'.Travelled time inFlight :=
  ⟨sampled.linkMetadata ▸ travelled.known, sampled.links ▸ travelled.linked, travelled.sent⟩

theorem handleEvent_sampled (node : ReplayedNode) (used : Nat) (event : NodeEventPayload)
    (now : Nat) : ({ node with maxBufferUsage := used } : ReplayedNode).handleEvent event now =
      { node.handleEvent event now with maxBufferUsage := used } := by
  unfold ReplayedNode.handleEvent
  cases event.status <;> cases event.clearBuffer <;> rfl

theorem LinkTurn.sampled {link? : Option LinkEventPayload} (sampled : this.Sampled this')
    (turn : this.LinkTurn time link? next) :
    ∃ next', this'.LinkTurn time link? next' ∧ next.Sampled next' := by
  cases turn with
  | none => exact ⟨this', .none, sampled⟩
  | other same => exact ⟨this', .other same, sampled⟩
  | switched changed there =>
      exact ⟨_, .switched changed (sampled.links ▸ there), sampled.setLink _ _⟩

theorem NodeTurn.sampled {node? : Option NodeEventPayload} (sampled : this.Sampled this')
    (turn : this.NodeTurn time node? next) :
    ∃ next', this'.NodeTurn time node? next' ∧ next.Sampled next' := by
  cases turn with
  | none => exact ⟨this', .none, sampled⟩
  | @changed event node there =>
      obtain ⟨used, there'⟩ := sampled.there there
      have kept := sampled.setNode event.nodeId (node.handleEvent event time) used
      rw [← handleEvent_sampled] at kept
      exact ⟨_, .changed there', kept⟩

/-- A step goes on in the same way whatever the recorded buffer usages are. -/
theorem Turn.sampled {kind : SimulationStepKind} (sampled : this.Sampled this')
    (turn : this.Turn time kind next) :
    ∃ next', this'.Turn time kind next' ∧ next.Sampled next' := by
  have flies {id : Uuid} {inFlight : Option InFlightPacket}
      (found : this.inFlightPackets.lookup id = inFlight) :
      this'.inFlightPackets.lookup id = inFlight := sampled.inFlight ▸ found
  cases turn with
  | created grounded there absent =>
      obtain ⟨used, there'⟩ := sampled.there there
      exact ⟨_, .created (flies grounded) there' absent, sampled.setNode _ _ used⟩
  | landed found there kept absent travelled =>
      obtain ⟨used, there'⟩ := sampled.there there
      exact ⟨_, .landed (flies found) there' kept absent (sampled.travelled travelled),
        (sampled.ground _).setNode _ _ used⟩
  | refused found there dropped travelled =>
      obtain ⟨used, there'⟩ := sampled.there there
      exact ⟨_, .refused (flies found) there' dropped (sampled.travelled travelled),
        (sampled.ground _).setNode _ _ used⟩
  | duplicated there absent =>
      obtain ⟨used, there'⟩ := sampled.there there
      exact ⟨_, .duplicated there' absent, sampled.setNode _ _ used⟩
  | @dropped s node packet there held fits =>
      obtain ⟨used, there'⟩ := sampled.there there
      refine ⟨_, .dropped there' held fits, ?_⟩
      have kept := sampled.setNode s.nodeId
        ((node.release s.packetId packet).countDropped packet.sizeBytes s.reason) used
      cases reason : s.reason <;> rw [reason] at kept <;> exact kept
  | @lost s inFlight found =>
      have kept := sampled.ground s.packetId
      exact ⟨_, .lost (flies found),
        ⟨kept.linkMetadata, kept.nodeMetadata, kept.links, kept.inFlight, kept.lookup⟩⟩
  | missed grounded => exact ⟨this', .missed (flies grounded), sampled⟩
  | sent there held fits known linked carried =>
      obtain ⟨used, there'⟩ := sampled.there there
      exact ⟨_, .sent there' held fits (sampled.linkMetadata ▸ known) (sampled.links ▸ linked) carried,
        ((sampled.setNode _ _ used).setLink _ _).launch _ _ _ _⟩
  | delivered there held fits =>
      obtain ⟨used, there'⟩ := sampled.there there
      exact ⟨_, .delivered there' held fits, sampled.setNode _ _ used⟩
  | congested there =>
      obtain ⟨used, there'⟩ := sampled.there there
      exact ⟨_, .congested there', sampled.setNode _ _ used⟩
  | delayed there held =>
      obtain ⟨used, there'⟩ := sampled.there there
      exact ⟨_, .delayed there' held, sampled.setNode _ _ used⟩
  | event link node =>
      obtain ⟨middle', link', between⟩ := link.sampled sampled
      obtain ⟨next', node', after⟩ := node.sampled between
      exact ⟨next', .event link' node', after⟩

/-- Where each node has its size on record, bringing buffer usages up to date goes through. -/
theorem updateMaxBufferUsage_goes (known : ∀ n, n ∈ this.nodes → n ∈ this.nodeMetadata)
    (order : List NodeId) : ∃ next, (this.updateMaxBufferUsage order).Yields next := by
  induction order generalizing this with
  | nil => exact ⟨this, Tracked.yields_pure.mpr rfl⟩
  | cons n order ih =>
      unfold updateMaxBufferUsage
      split
      · exact ih known
      · next node found =>
          have sampled := setNode_sampled found (max node.bufferUsage node.maxBufferUsage)
          obtain ⟨metadata, there⟩ := Option.isSome_iff_exists.mp
            (AList.lookup_isSome.mpr (known n (mem_of_lookup found)))
          dsimp only
          rw [there]
          by_cases above : metadata.bufferSizeBytes < node.updateMaxBufferUsage.maxBufferUsage
          · refine ⟨this.setNode n node.updateMaxBufferUsage, ?_⟩
            simp only [above, if_true, Tracked.yields_bind, Tracked.yields_unwrap,
              Option.some.injEq, exists_eq_left', Tracked.yields_track, Tracked.yields_pure, true_and,
              exists_const]
          · have known' : ∀ n', n' ∈ (this.setNode n node.updateMaxBufferUsage).nodes →
                n' ∈ (this.setNode n node.updateMaxBufferUsage).nodeMetadata :=
              fun n' there => known n' ((sampled.nodeIds n').mp there)
            obtain ⟨next, yields⟩ := ih known'
            refine ⟨next, ?_⟩
            simpa only [above, if_false, Tracked.yields_bind, Tracked.yields_unwrap,
              Option.some.injEq, exists_eq_left'] using yields

theorem startTime_goes (known : ∀ n, n ∈ this.nodes → n ∈ this.nodeMetadata)
    (order : Option Nat → List NodeId) (time : Nat) :
    ∃ next, (this.startTime order time).Yields next := by
  unfold startTime
  split
  · obtain ⟨updated, update⟩ := updateMaxBufferUsage_goes known (order (some time))
    exact ⟨_, Tracked.yields_bind.mpr ⟨updated, update, Tracked.yields_pure.mpr rfl⟩⟩
  · exact ⟨this, Tracked.yields_pure.mpr rfl⟩

theorem finish_goes (known : ∀ n, n ∈ this.nodes → n ∈ this.nodeMetadata)
    (order : Option Nat → List NodeId) : ∃ next, (this.finish order).Yields next := by
  unfold finish
  split
  · exact updateMaxBufferUsage_goes known _
  · exact ⟨this, Tracked.yields_pure.mpr rfl⟩

/-- Two replays of the same steps, in whatever orders they iterate nodes. -/
structure Alike (this this' : Replay) : Prop where
  sampled : this.Sampled this'
  time : this'.lastStepTime = this.lastStepTime
  known : ∀ n, n ∈ this.nodes → n ∈ this.nodeMetadata

theorem Alike.startTime {order : Option Nat → List NodeId} (alike : this.Alike this')
    (yields : (this.startTime order time).Yields next) (order' : Option Nat → List NodeId) :
    ∃ next', (this'.startTime order' time).Yields next' ∧ next.Alike next' := by
  have known' (n : NodeId) (inside : n ∈ this'.nodes) : n ∈ this'.nodeMetadata :=
    alike.sampled.nodeMetadata ▸ alike.known n ((alike.sampled.nodeIds n).mp inside)
  have kept := startTime_sampled yields
  have known (n : NodeId) (inside : n ∈ next.nodes) : n ∈ next.nodeMetadata :=
    kept.nodeMetadata ▸ alike.known n ((kept.nodeIds n).mp inside)
  unfold Replay.startTime at yields ⊢
  rw [alike.time]
  split at yields
  · next starts =>
      rw [if_pos starts]
      obtain ⟨updated, update, same⟩ := Tracked.yields_bind.mp yields
      obtain ⟨updated', update'⟩ := updateMaxBufferUsage_goes known' (order' (some time))
      obtain rfl := Tracked.yields_pure.mp same
      have sampled := (updateMaxBufferUsage_sampled update).symm.trans
        (alike.sampled.trans (updateMaxBufferUsage_sampled update'))
      refine ⟨_, Tracked.yields_bind.mpr ⟨updated', update', Tracked.yields_pure.mpr rfl⟩, ?_⟩
      exact ⟨⟨sampled.linkMetadata, sampled.nodeMetadata, sampled.links, sampled.inFlight,
        sampled.lookup⟩, rfl, known⟩
  · next same =>
      rw [if_neg same]
      obtain rfl := Tracked.yields_pure.mp yields
      exact ⟨this', Tracked.yields_pure.mpr rfl, alike⟩

theorem Turn.times {kind : SimulationStepKind} (turn : this.Turn time kind next) :
    next.lastStepTime = this.lastStepTime ∧
      next.lastBufferUsageUpdate = this.lastBufferUsageUpdate := by
  cases turn with
  | @event e middle next link node =>
      obtain ⟨link?, node?⟩ := e
      cases link <;> cases node <;> exact ⟨rfl, rfl⟩
  | _ => exact ⟨rfl, rfl⟩

theorem Alike.replaySteps {order : Option Nat → List NodeId} {steps : List SimulationStep}
    (alike : this.Alike this') (yields : (this.replaySteps order steps).Yields next)
    (order' : Option Nat → List NodeId) :
    ∃ next', (this'.replaySteps order' steps).Yields next' ∧ next.Alike next' := by
  induction steps generalizing this this' with
  | nil =>
      obtain rfl := Tracked.yields_pure.mp yields
      exact ⟨this', Tracked.yields_pure.mpr rfl, alike⟩
  | cons step steps ih =>
      obtain ⟨middle, first, rest⟩ := Tracked.yields_foldlM_cons.mp yields
      obtain ⟨begun, start, replayed⟩ := Tracked.yields_bind.mp first
      obtain ⟨begun', start', alike'⟩ := alike.startTime start order'
      have turn := replayKind_turn replayed
      obtain ⟨middle', turn', sampled⟩ := turn.sampled alike'.sampled
      have shifts := turn.shifts
      have after : middle.Alike middle' := by
        refine ⟨sampled, ?_, fun n inside => ?_⟩
        · rw [turn.times.1, turn'.times.1, alike'.time]
        · exact shifts.nodeMetadata ▸ alike'.known n ((shifts.nodeIds n).mp inside)
      obtain ⟨next', rest', alike''⟩ := ih after rest
      refine ⟨next', Tracked.yields_foldlM_cons.mpr ⟨middle', ?_, rest'⟩, alike''⟩
      exact Tracked.yields_bind.mpr ⟨begun', start', turn'.yields⟩

end Replay

namespace SimulationVerifier

variable {this : SimulationVerifier} {spec : NetworkSpec}

/-- A verification that goes through in one order of iteration does in every other one. -/
theorem Made.verify_yields_any {order : Option Nat → List NodeId} {stats : SimulationStats}
    (made : this.Made spec) (yields : (this.verify order).Yields stats)
    (order' : Option Nat → List NodeId) : ∃ stats', (this.verify order').Yields stats' := by
  obtain ⟨replay, final, replayed, -⟩ := verify_yields.mp yields
  have alike : (Replay.start { this with steps := [] }).Alike (.start { this with steps := [] }) :=
    ⟨.refl _, rfl, made.nodeMetadata⟩
  obtain ⟨replay', replayed', alike'⟩ := alike.replaySteps replayed order'
  have known (n : NodeId) (inside : n ∈ replay'.nodes) : n ∈ replay'.nodeMetadata :=
    alike'.sampled.nodeMetadata ▸ alike'.known n ((alike'.sampled.nodeIds n).mp inside)
  have finished : ∃ final', (replay'.finish order').Yields final' := by
    unfold Replay.finish
    split
    · exact Replay.updateMaxBufferUsage_goes known _
    · exact ⟨replay', Tracked.yields_pure.mpr rfl⟩
  obtain ⟨final', finished'⟩ := finished
  exact ⟨_, verify_yields.mpr ⟨replay', final', replayed', finished', rfl⟩⟩

end SimulationVerifier

end Workbench.Tracing
