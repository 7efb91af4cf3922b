import Workbench.Tracing.Verifier

/-! What a replay keeps of its own data, whatever it replays: the bytes of a node
are those of its packets, the bits of a link those of its window, and a packet in
flight was sent over a known link, not later than now. So a replay never panics. -/

set_option autoImplicit false

namespace Workbench.Tracing

open Workbench.Library Workbench.Network

/-- The computation does not panic, and what it yields meets a condition. -/
abbrev Safe {α : Type} (x : Verdict α) (Post : α → Prop) : Prop :=
  x.Meets (fun _ => True) (· ≠ .panic) Post

theorem safe_check {wrong : Prop} [Decidable wrong] {error : NonFatalError} :
    Safe (.check wrong error) fun _ => True := .check fun _ => trivial

/-! Nodes. -/

namespace ReplayedNode

def Consistent (this : ReplayedNode) : Prop :=
  this.bufferUsage = total ReplayedPacket.sizeBytes this.packets

variable {this : ReplayedNode}

theorem consistent_new (id : NodeId) : (new id).Consistent := rfl

theorem Consistent.handleEvent (consistent : this.Consistent) (event : NodeEventPayload)
    (now : Nat) : (this.handleEvent event now).Consistent := by
  unfold ReplayedNode.handleEvent
  cases event.status <;> cases event.clearBuffer <;> exact consistent

theorem Consistent.addPacketToBuffer (consistent : this.Consistent) (id : Uuid)
    (sizeBytes now : Nat) : Safe (this.addPacketToBuffer id sizeBytes now) Consistent := by
  refine safe_check.bind fun _ _ => ?_
  split
  · exact .halt (by simp)
  · next absent =>
      refine .pure ?_
      rw [Consistent, total_insert absent, ← show this.bufferUsage = _ from consistent]

theorem Consistent.removePacketFromBuffer (consistent : this.Consistent) (id : Uuid) :
    Safe (this.removePacketFromBuffer id) (·.2.Consistent) := by
  unfold ReplayedNode.removePacketFromBuffer
  split
  · exact .halt (by simp)
  · next packet found =>
      have erased : total ReplayedPacket.sizeBytes (this.packets.erase id) + packet.sizeBytes =
          total ReplayedPacket.sizeBytes this.packets := total_erase found
      have whole : this.bufferUsage = total ReplayedPacket.sizeBytes this.packets := consistent
      split
      · omega
      · refine .pure ?_
        rw [Consistent]
        dsimp only
        omega

theorem Consistent.packetReceived (consistent : this.Consistent) (s : PacketInNode) (now : Nat) :
    Safe (this.packetReceived s now) Consistent := by
  have counted : (this.countReceived s).Consistent := consistent
  unfold ReplayedNode.packetReceived
  dsimp only
  split
  · exact safe_check.seq fun _ => .pure counted
  · exact counted.addPacketToBuffer _ _ _

theorem Consistent.packetDuplicated (consistent : this.Consistent) (s : GenericPacketEvent)
    (now : Nat) : Safe (this.packetDuplicated s now) Consistent := by
  have counted : Consistent { this with
      duplicatedPackets := this.duplicatedPackets.trackOne s.packetSizeBytes } := consistent
  exact counted.addPacketToBuffer _ _ _

theorem Consistent.packetSent (consistent : this.Consistent) (id : Uuid) :
    Safe (this.packetSent id) (·.2.Consistent) := by
  refine safe_check.seq fun _ => (consistent.removePacketFromBuffer id).bind ?_
  rintro ⟨packet, node⟩ kept
  exact safe_check.seq fun _ => .pure kept

theorem Consistent.packetDeliveredToAppLayer (consistent : this.Consistent) (id : Uuid) :
    Safe (this.packetDeliveredToAppLayer id) Consistent :=
  (consistent.removePacketFromBuffer id).bind fun _ kept => .pure kept

theorem Consistent.packetDropped (consistent : this.Consistent) (s : PacketDropped) :
    Safe (this.packetDropped s) Consistent := by
  refine (consistent.removePacketFromBuffer s.packetId).bind fun ⟨packet, node⟩ kept => .pure ?_
  cases s.reason <;> exact kept

theorem Consistent.packetHasExtraDelay (consistent : this.Consistent) (id : Uuid) (delay : Nat) :
    Safe (this.packetHasExtraDelay id delay) Consistent := by
  unfold ReplayedNode.packetHasExtraDelay
  split
  · exact .halt (by simp)
  · next packet found => exact .pure (consistent.trans (total_replace found rfl).symm)

end ReplayedNode

/-! Links. -/

namespace ReplayedLink

def bits (window : List (Nat × Nat)) : Nat := (window.map Prod.snd).sum

def Consistent (this : ReplayedLink) : Prop :=
  this.bandwidthUsageBps = bits this.packetsInBandwidthWindow

variable {this : ReplayedLink}

theorem consistent_new : new.Consistent := rfl

theorem dropExpired_eq (window now : Nat) (sent : List (Nat × Nat)) :
    dropExpired window now (bits sent) sent =
      some (bits (sent.dropWhile fun p => p.1 + window < now),
        sent.dropWhile fun p => p.1 + window < now) := by
  induction sent with
  | nil => rfl
  | cons p sent ih =>
      obtain ⟨time, size⟩ := p
      have split : bits ((time, size) :: sent) = size + bits sent := by simp [bits]
      unfold dropExpired
      by_cases expired : time + window < now
      · have enough : ¬ bits ((time, size) :: sent) < size := by omega
        have rest : bits ((time, size) :: sent) - size = bits sent := by omega
        rw [if_pos expired, if_neg enough, rest, ih]
        simp [expired]
      · simp [expired]

/-- The window after a packet was sent: what has not expired of it, and the packet. -/
def slide (window now packetSizeBits : Nat) (sent : List (Nat × Nat)) : List (Nat × Nat) :=
  (sent.dropWhile fun p => p.1 + window < now) ++ [(now, packetSizeBits)]

/-- A consistent link whose window has become another one. -/
def withWindow (this : ReplayedLink) (window : List (Nat × Nat)) (used : Nat) : ReplayedLink :=
  { this with
    bandwidthUsageBps := bits window
    packetsInBandwidthWindow := window
    maxBandwidthUsageBps := max this.maxBandwidthUsageBps used }

theorem Consistent.packetSent (consistent : this.Consistent) (now size bandwidth : Nat) :
    let window := slide (windowSeconds bandwidth * nanosPerSecond) now (size * 8)
      this.packetsInBandwidthWindow
    let used := bits window / windowSeconds bandwidth
    this.packetSent now size bandwidth = some (used, this.withWindow window used) := by
  unfold ReplayedLink.packetSent
  dsimp only
  rw [show this.bandwidthUsageBps = _ from consistent, dropExpired_eq]
  simp [withWindow, slide, bits]

end ReplayedLink

/-! Replays. -/

namespace Replay

structure Consistent (this : Replay) : Prop where
  nodes : ∀ n node, this.nodes.lookup n = some node → node.Consistent
  links : ∀ l link, this.links.lookup l = some link → link.Consistent
  inFlight : ∀ id p, this.inFlightPackets.lookup id = some p →
    p.linkId ∈ this.linkMetadata ∧ p.sentAtRelative ≤ this.lastStepTime
  metadata : ∀ n, n ∈ this.nodes → n ∈ this.nodeMetadata

variable {this : Replay}

theorem Consistent.setNode (consistent : this.Consistent) {n : NodeId} {node : ReplayedNode}
    (present : n ∈ this.nodes) (kept : node.Consistent) : (this.setNode n node).Consistent where
  nodes n' node' found := by
    rcases of_lookup_insert found with ⟨-, rfl⟩ | ⟨-, found⟩
    · exact kept
    · exact consistent.nodes n' node' found
  links := consistent.links
  inFlight := consistent.inFlight
  metadata n' inside := by
    rcases (AList.mem_insert _).mp inside with rfl | inside
    · exact consistent.metadata n' present
    · exact consistent.metadata n' inside

theorem Consistent.setLink (consistent : this.Consistent) {l : LinkId} {link : ReplayedLink}
    (kept : link.Consistent) : (this.setLink l link).Consistent where
  nodes := consistent.nodes
  links l' link' found := by
    rcases of_lookup_insert found with ⟨-, rfl⟩ | ⟨-, found⟩
    · exact kept
    · exact consistent.links l' link' found
  inFlight := consistent.inFlight
  metadata := consistent.metadata

theorem Consistent.land (consistent : this.Consistent) (id : Uuid) :
    Consistent { this with inFlightPackets := this.inFlightPackets.erase id } where
  nodes := consistent.nodes
  links := consistent.links
  inFlight id' p found := consistent.inFlight id' p (of_lookup_erase found).2
  metadata := consistent.metadata

/-- What a replay never changes of its maps. -/
structure Frame (this next : Replay) : Prop where
  linkMetadata : next.linkMetadata = this.linkMetadata
  lastStepTime : next.lastStepTime = this.lastStepTime

theorem Consistent.withNode (consistent : this.Consistent) (n : NodeId)
    {change : ReplayedNode → Verdict ReplayedNode}
    (kept : ∀ node, node.Consistent → Safe (change node) ReplayedNode.Consistent) :
    Safe (this.withNode n change) fun next => next.Consistent ∧ Frame this next := by
  refine .unwrap_bind (by simp) fun node found => ?_
  refine (kept node (consistent.nodes n node found)).bind fun node' kept' => .pure ?_
  have present : n ∈ this.nodes := mem_of_lookup found
  exact ⟨consistent.setNode present kept', rfl, rfl⟩

theorem Consistent.updateMaxBufferUsage (consistent : this.Consistent) (order : List NodeId) :
    Safe (this.updateMaxBufferUsage order) fun next => next.Consistent ∧ Frame this next := by
  induction order generalizing this with
  | nil => exact .pure ⟨consistent, rfl, rfl⟩
  | cons n order ih =>
      unfold Replay.updateMaxBufferUsage
      split
      · exact ih consistent
      · next node found =>
          have present : n ∈ this.nodes := mem_of_lookup found
          have updated : node.updateMaxBufferUsage.Consistent := consistent.nodes n node found
          have kept := consistent.setNode present updated
          refine .unwrap_bind (fun missing => ?_) fun metadata _ => ?_
          · exact absurd (consistent.metadata n present) (AList.lookup_eq_none.mp missing)
          · split
            · exact .seq (.track trivial trivial) fun _ => .pure ⟨kept, rfl, rfl⟩
            · refine (ih kept).mono fun next ⟨consistent', frame⟩ => ⟨consistent', ?_⟩
              exact ⟨frame.linkMetadata, frame.lastStepTime⟩

theorem Consistent.packetInNode (consistent : this.Consistent) (s : PacketInNode) {time : Nat}
    (later : this.lastStepTime ≤ time) :
    Safe (this.packetInNode time s) fun next => next.Consistent ∧ Frame this next := by
  unfold Replay.packetInNode
  split
  · next inFlight found =>
      obtain ⟨known, sent⟩ := consistent.inFlight s.packetId inFlight found
      refine .unwrap_bind (fun missing => ?_) fun metadata _ => ?_
      · exact absurd known (AList.lookup_eq_none.mp missing)
      refine safe_check.seq fun _ => .unwrap_bind (fun early => ?_) fun timeInFlight _ => ?_
      · have : ¬ time < inFlight.sentAtRelative := by omega
        simp [this] at early
      refine safe_check.seq fun _ => .unwrap_bind (by simp) fun link _ => ?_
      refine .seq ?_ fun _ => ?_
      · unfold checkOutage
        split
        · exact .pure trivial
        · exact safe_check
      · exact ((consistent.land s.packetId).withNode s.nodeId fun node kept =>
          kept.packetReceived s time).mono fun next ⟨kept, frame⟩ =>
            ⟨kept, frame.linkMetadata, frame.lastStepTime⟩
  · exact consistent.withNode s.nodeId fun node kept => kept.addPacketToBuffer _ _ _

theorem Consistent.packetLostInTransit (consistent : this.Consistent) (s : PacketLostInTransit) :
    Safe (this.packetLostInTransit s) fun next => next.Consistent ∧ Frame this next := by
  unfold Replay.packetLostInTransit
  split
  · have landed := consistent.land s.packetId
    exact .pure ⟨⟨landed.nodes, landed.links, landed.inFlight, landed.metadata⟩, rfl, rfl⟩
  · exact .seq (.track trivial trivial) fun _ => .pure ⟨consistent, rfl, rfl⟩

theorem Consistent.packetInTransit (consistent : this.Consistent) (s : PacketInTransit) {time : Nat}
    (now : this.lastStepTime = time) :
    Safe (this.packetInTransit time s) fun next => next.Consistent ∧ Frame this next := by
  refine .unwrap_bind (by simp) fun node found => ?_
  refine ((consistent.nodes s.nodeId node found).packetSent s.packetId).bind ?_
  rintro ⟨packet, node'⟩ kept
  have present : s.nodeId ∈ this.nodes := mem_of_lookup found
  have settled := consistent.setNode present kept
  refine .unwrap_bind (by simp) fun metadata (known : this.linkMetadata.lookup _ = _) => ?_
  refine safe_check.seq fun _ => .unwrap_bind (by simp)
    fun link (there : this.links.lookup _ = _) => ?_
  have sent := (consistent.links s.linkId link there).packetSent time packet.sizeBytes
    metadata.bandwidthBps
  refine safe_check.seq fun _ => .unwrap_bind (fun failed => ?_) fun used same => ?_
  · rw [sent] at failed
    cases failed
  have kept'' : used.2.Consistent := by
    rw [sent] at same
    exact Option.some.inj same ▸ rfl
  have carried := settled.setLink (l := s.linkId) kept''
  refine safe_check.seq fun _ => .pure
    ⟨⟨carried.nodes, carried.links, ?_, carried.metadata⟩, rfl, rfl⟩
  intro id p inFlight
  rcases of_lookup_insert inFlight with ⟨-, rfl⟩ | ⟨-, inFlight⟩
  · exact ⟨mem_of_lookup known, now.ge⟩
  · exact carried.inFlight id p inFlight

theorem Consistent.linkEvent (consistent : this.Consistent) (time : Nat) (event : LinkEventPayload) :
    Safe (this.linkEvent time event) fun next => next.Consistent ∧ Frame this next := by
  unfold Replay.linkEvent
  split
  · exact .pure ⟨consistent, rfl, rfl⟩
  · refine .unwrap_bind (by simp) fun link found => .pure ?_
    exact ⟨consistent.setLink (consistent.links event.linkId link found), rfl, rfl⟩

theorem Consistent.networkEvent (consistent : this.Consistent) (time : Nat) (e : NetworkEvent) :
    Safe (this.networkEvent time e) fun next => next.Consistent ∧ Frame this next := by
  have linked : Safe (e.link.elim (pure this) (this.linkEvent time))
      fun next => next.Consistent ∧ Frame this next := by
    cases e.link with
    | none => exact .pure ⟨consistent, rfl, rfl⟩
    | some event => exact consistent.linkEvent time event
  refine linked.bind fun next ⟨kept, frame⟩ => ?_
  cases e.node with
  | none => exact .pure ⟨kept, frame⟩
  | some event =>
      refine (kept.withNode event.nodeId fun node settled =>
        .pure (settled.handleEvent event time)).mono fun last ⟨kept', frame'⟩ => ⟨kept', ?_⟩
      exact ⟨frame'.linkMetadata.trans frame.linkMetadata,
        frame'.lastStepTime.trans frame.lastStepTime⟩

theorem Consistent.replayKind (consistent : this.Consistent) {time : Nat}
    (now : this.lastStepTime = time) (kind : SimulationStepKind) :
    Safe (this.replayKind time kind) fun next => next.Consistent ∧ Frame this next := by
  cases kind with
  | packetInNode s => exact consistent.packetInNode s now.le
  | packetDuplicated s => exact consistent.withNode _ fun _ kept => kept.packetDuplicated s time
  | packetDropped s => exact consistent.withNode _ fun _ kept => kept.packetDropped s
  | packetLostInTransit s => exact consistent.packetLostInTransit s
  | packetInTransit s => exact consistent.packetInTransit s now
  | packetCongestionEvent s => exact consistent.withNode _ fun _ kept => .pure kept
  | packetDeliveredToApplication s =>
      exact consistent.withNode _ fun _ kept => kept.packetDeliveredToAppLayer s.packetId
  | packetExtraDelay s =>
      exact consistent.withNode _ fun _ kept => kept.packetHasExtraDelay s.packetId s.extraDelay
  | networkEvent e => exact consistent.networkEvent time e

theorem Consistent.startTime (consistent : this.Consistent) (order : Option Nat → List NodeId)
    {time : Nat} (later : this.lastStepTime ≤ time) :
    Safe (this.startTime order time) fun next => next.Consistent ∧ next.lastStepTime = time := by
  unfold Replay.startTime
  split
  · refine (consistent.updateMaxBufferUsage _).bind fun next ⟨kept, frame⟩ => .pure ⟨?_, rfl⟩
    refine ⟨kept.nodes, kept.links, fun id p found => ?_, kept.metadata⟩
    obtain ⟨known, sent⟩ := kept.inFlight id p found
    exact ⟨known, by have := frame.lastStepTime; dsimp only; omega⟩
  · exact .pure ⟨consistent, by omega⟩

/-- A step that is not earlier than the last one does not make the replay panic. -/
theorem Consistent.replayStep (consistent : this.Consistent) (order : Option Nat → List NodeId)
    {step : SimulationStep} (later : this.lastStepTime ≤ step.relativeTime) :
    Safe (this.replayStep order step) fun next =>
      next.Consistent ∧ next.lastStepTime = step.relativeTime := by
  refine (consistent.startTime order later).bind fun next ⟨kept, now⟩ => ?_
  exact (kept.replayKind now step.kind).mono fun last ⟨kept', frame⟩ =>
    ⟨kept', frame.lastStepTime.trans now⟩

end Replay

end Workbench.Tracing
