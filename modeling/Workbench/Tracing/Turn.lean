import Workbench.Tracing.Verifier

/-! What the replay of one step changes, where it goes through: one case for each way
that a step is taken, whatever errors are tracked on it. -/

set_option autoImplicit false

namespace Workbench.Tracing

open Workbench.Library Workbench.Network

namespace ReplayedNode

variable {this next : ReplayedNode} {id : Uuid} {size now : Nat}

/-- A packet gets to the node. -/
def store (this : ReplayedNode) (id : Uuid) (size now : Nat) : ReplayedNode :=
  { this with
    packets := this.packets.insert id ⟨now, size, 0⟩
    bufferUsage := this.bufferUsage + size }

/-- A packet that the node holds leaves it. -/
def release (this : ReplayedNode) (id : Uuid) (packet : ReplayedPacket) : ReplayedNode :=
  { this with
    packets := this.packets.erase id
    bufferUsage := this.bufferUsage - packet.sizeBytes }

/-- A packet that the node holds is delayed. -/
def slow (this : ReplayedNode) (id : Uuid) (packet : ReplayedPacket) (delay : Nat) : ReplayedNode :=
  { this with packets := this.packets.insert id { packet with extraDelay := delay } }

/-- A packet from a link is refused by the node. -/
def refuse (this : ReplayedNode) (s : PacketInNode) : ReplayedNode :=
  { this.countReceived s with
    droppedPacketsDown := this.droppedPacketsDown.trackOne s.packetSizeBytes }

def countDuplicated (this : ReplayedNode) (size : Nat) : ReplayedNode :=
  { this with duplicatedPackets := this.duplicatedPackets.trackOne size }

def countSent (this : ReplayedNode) (size : Nat) : ReplayedNode :=
  { this with sentPackets := this.sentPackets.trackOne size }

theorem addPacketToBuffer_yields : (this.addPacketToBuffer id size now).Yields next ↔
    id ∉ this.packets ∧ next = this.store id size now := by
  unfold addPacketToBuffer
  simp only [Tracked.yields_bind, Tracked.yields_check, true_and, exists_const]
  split <;> simp [*, fatal, store, eq_comm]

theorem removePacketFromBuffer_yields {packet : ReplayedPacket} :
    (this.removePacketFromBuffer id).Yields (packet, next) ↔
      this.packets.lookup id = some packet ∧ packet.sizeBytes ≤ this.bufferUsage ∧
        next = this.release id packet := by
  unfold removePacketFromBuffer release
  split
  · simp [*, fatal]
  · next found held =>
      rw [held]
      split
      · simp only [Tracked.not_yields_halt, Option.some.injEq, false_iff]
        rintro ⟨rfl, fits, -⟩
        omega
      · simp only [Tracked.yields_pure, Prod.mk.injEq, Option.some.injEq]
        constructor
        · rintro ⟨rfl, rfl⟩
          exact ⟨rfl, by omega, rfl⟩
        · rintro ⟨rfl, -, rfl⟩
          exact ⟨rfl, rfl⟩

end ReplayedNode

namespace Replay

variable {this next : Replay} {time : Nat}

theorem withNode_yields {n : NodeId} {change : ReplayedNode → Verdict ReplayedNode} :
    (this.withNode n change).Yields next ↔ ∃ node, this.nodes.lookup n = some node ∧
      ∃ node', (change node).Yields node' ∧ next = this.setNode n node' := by
  simp only [withNode, node, Tracked.yields_bind, Tracked.yields_unwrap, Tracked.yields_pure,
    eq_comm (b := next)]

/-- A packet is no longer on a link. -/
def ground (this : Replay) (id : Uuid) : Replay :=
  { this with inFlightPackets := this.inFlightPackets.erase id }

/-- A packet is lost on a link. -/
def countLost (this : Replay) (l : LinkId) (size : Nat) : Replay :=
  let stats := (this.statsByLink.lookup l).getD .new
  { this with
    statsByLink := this.statsByLink.insert l
      { stats with droppedInTransit := stats.droppedInTransit.trackOne size } }

/-- A packet is put on a link. -/
def launch (this : Replay) (id : Uuid) (packet : ReplayedPacket) (time : Nat) (l : LinkId) : Replay :=
  { this with
    inFlightPackets := this.inFlightPackets.insert id ⟨packet.sizeBytes, time, packet.extraDelay, l⟩ }

/-- A packet in flight was sent by then, over a link that is known. -/
structure Travelled (this : Replay) (time : Nat) (inFlight : InFlightPacket) : Prop where
  known : ∃ metadata, this.linkMetadata.lookup inFlight.linkId = some metadata
  linked : ∃ link, this.links.lookup inFlight.linkId = some link
  sent : inFlight.sentAtRelative ≤ time

/-- The part of a network event that is about a link. -/
inductive LinkTurn (this : Replay) (time : Nat) : Option LinkEventPayload → Replay → Prop where
  | none : LinkTurn this time none this
  | other {event : LinkEventPayload} (same : event.status = none) :
      LinkTurn this time (some event) this
  | switched {event : LinkEventPayload} {status : UpdateLinkStatus} {link : ReplayedLink}
      (changed : event.status = some status) (there : this.links.lookup event.linkId = some link) :
      LinkTurn this time (some event) (this.setLink event.linkId (link.setStatus status time))

/-- The part of a network event that is about a node. -/
inductive NodeTurn (this : Replay) (time : Nat) : Option NodeEventPayload → Replay → Prop where
  | none : NodeTurn this time none this
  | changed {event : NodeEventPayload} {node : ReplayedNode}
      (there : this.nodes.lookup event.nodeId = some node) :
      NodeTurn this time (some event) (this.setNode event.nodeId (node.handleEvent event time))

inductive Turn (this : Replay) (time : Nat) : SimulationStepKind → Replay → Prop where
  | created {s : PacketInNode} {node : ReplayedNode}
      (grounded : this.inFlightPackets.lookup s.packetId = none)
      (there : this.nodes.lookup s.nodeId = some node) (absent : s.packetId ∉ node.packets) :
      Turn this time (.packetInNode s)
        (this.setNode s.nodeId (node.store s.packetId s.packetSizeBytes time))
  | landed {s : PacketInNode} {node : ReplayedNode} {inFlight : InFlightPacket}
      (flies : this.inFlightPackets.lookup s.packetId = some inFlight)
      (there : this.nodes.lookup s.nodeId = some node) (kept : s.droppedOnArrival = false)
      (absent : s.packetId ∉ node.packets) (travelled : this.Travelled time inFlight) :
      Turn this time (.packetInNode s) ((this.ground s.packetId).setNode s.nodeId
        ((node.countReceived s).store s.packetId s.packetSizeBytes time))
  | refused {s : PacketInNode} {node : ReplayedNode} {inFlight : InFlightPacket}
      (flies : this.inFlightPackets.lookup s.packetId = some inFlight)
      (there : this.nodes.lookup s.nodeId = some node) (dropped : s.droppedOnArrival = true)
      (travelled : this.Travelled time inFlight) :
      Turn this time (.packetInNode s)
        ((this.ground s.packetId).setNode s.nodeId (node.refuse s))
  | duplicated {s : GenericPacketEvent} {node : ReplayedNode}
      (there : this.nodes.lookup s.nodeId = some node) (absent : s.packetId ∉ node.packets) :
      Turn this time (.packetDuplicated s) (this.setNode s.nodeId
        ((node.countDuplicated s.packetSizeBytes).store s.packetId s.packetSizeBytes time))
  | dropped {s : PacketDropped} {node : ReplayedNode} {packet : ReplayedPacket}
      (there : this.nodes.lookup s.nodeId = some node)
      (held : node.packets.lookup s.packetId = some packet) (fits : packet.sizeBytes ≤ node.bufferUsage) :
      Turn this time (.packetDropped s) (this.setNode s.nodeId
        ((node.release s.packetId packet).countDropped packet.sizeBytes s.reason))
  | lost {s : PacketLostInTransit} {inFlight : InFlightPacket}
      (flies : this.inFlightPackets.lookup s.packetId = some inFlight) :
      Turn this time (.packetLostInTransit s)
        ((this.ground s.packetId).countLost s.linkId inFlight.sizeBytes)
  | missed {s : PacketLostInTransit} (grounded : this.inFlightPackets.lookup s.packetId = none) :
      Turn this time (.packetLostInTransit s) this
  | sent {s : PacketInTransit} {node : ReplayedNode} {packet : ReplayedPacket}
      {metadata : LinkMetadata} {link link' : ReplayedLink} {used : Nat}
      (there : this.nodes.lookup s.nodeId = some node)
      (held : node.packets.lookup s.packetId = some packet) (fits : packet.sizeBytes ≤ node.bufferUsage)
      (known : this.linkMetadata.lookup s.linkId = some metadata)
      (linked : this.links.lookup s.linkId = some link)
      (carried : link.packetSent time packet.sizeBytes metadata.bandwidthBps = some (used, link')) :
      Turn this time (.packetInTransit s)
        (((this.setNode s.nodeId ((node.release s.packetId packet).countSent packet.sizeBytes)).setLink
          s.linkId link').launch s.packetId packet time s.linkId)
  | delivered {s : GenericPacketEvent} {node : ReplayedNode} {packet : ReplayedPacket}
      (there : this.nodes.lookup s.nodeId = some node)
      (held : node.packets.lookup s.packetId = some packet) (fits : packet.sizeBytes ≤ node.bufferUsage) :
      Turn this time (.packetDeliveredToApplication s)
        (this.setNode s.nodeId (node.release s.packetId packet))
  | congested {s : GenericPacketEvent} {node : ReplayedNode}
      (there : this.nodes.lookup s.nodeId = some node) :
      Turn this time (.packetCongestionEvent s) (this.setNode s.nodeId (node.packetEcn s))
  | delayed {s : PacketHasExtraDelay} {node : ReplayedNode} {packet : ReplayedPacket}
      (there : this.nodes.lookup s.nodeId = some node)
      (held : node.packets.lookup s.packetId = some packet) :
      Turn this time (.packetExtraDelay s)
        (this.setNode s.nodeId (node.slow s.packetId packet s.extraDelay))
  | event {e : NetworkEvent} {middle next : Replay} (link : this.LinkTurn time e.link middle)
      (node : middle.NodeTurn time e.node next) : Turn this time (.networkEvent e) next

theorem packetInNode_turn {s : PacketInNode} (yields : (this.packetInNode time s).Yields next) :
    this.Turn time (.packetInNode s) next := by
  unfold packetInNode at yields
  split at yields
  · next inFlight flies =>
      simp only [Tracked.yields_bind, Tracked.yields_unwrap, withNode_yields] at yields
      obtain ⟨metadata, known, -, -, took, flown, -, -, link, linked, -, -, node, there, node',
        received, rfl⟩ := yields
      have travelled : this.Travelled time inFlight := by
        refine ⟨⟨metadata, known⟩, ⟨link, Tracked.yields_unwrap.mp linked⟩, ?_⟩
        by_contra early
        rw [if_pos (by omega)] at flown
        cases flown
      unfold ReplayedNode.packetReceived at received
      dsimp only at received
      split at received
      · next dropped =>
          obtain ⟨-, -, same⟩ := Tracked.yields_bind.mp received
          obtain rfl := Tracked.yields_pure.mp same
          exact .refused flies there dropped travelled
      · next kept =>
          obtain ⟨absent, rfl⟩ := ReplayedNode.addPacketToBuffer_yields.mp received
          exact .landed flies there (by simpa using kept) absent travelled
  · next grounded =>
      obtain ⟨node, there, node', added, rfl⟩ := withNode_yields.mp yields
      obtain ⟨absent, rfl⟩ := ReplayedNode.addPacketToBuffer_yields.mp added
      exact .created grounded there absent

theorem packetLostInTransit_turn {s : PacketLostInTransit}
    (yields : (this.packetLostInTransit s).Yields next) :
    this.Turn time (.packetLostInTransit s) next := by
  unfold packetLostInTransit at yields
  split at yields
  · next inFlight flies =>
      obtain rfl := Tracked.yields_pure.mp yields
      exact .lost flies
  · next grounded =>
      obtain ⟨-, -, same⟩ := Tracked.yields_bind.mp yields
      obtain rfl := Tracked.yields_pure.mp same
      exact .missed grounded

theorem packetInTransit_turn {s : PacketInTransit}
    (yields : (this.packetInTransit time s).Yields next) :
    this.Turn time (.packetInTransit s) next := by
  unfold packetInTransit ReplayedNode.packetSent at yields
  simp only [node, Replay.link, Tracked.yields_bind, Tracked.yields_unwrap, Tracked.yields_pure,
    Prod.exists, ReplayedNode.removePacketFromBuffer_yields] at yields
  obtain ⟨node, there, packet, left, ⟨-, -, packet', left', ⟨held, fits, rfl⟩, -, -, same⟩, metadata,
    known, -, -, link, linked, -, -, used, link', moved, -, -, rfl⟩ := yields
  obtain ⟨rfl, rfl⟩ := Prod.mk.inj same
  exact .sent there held fits known linked moved

theorem networkEvent_turn {e : NetworkEvent} (yields : (this.networkEvent time e).Yields next) :
    this.Turn time (.networkEvent e) next := by
  obtain ⟨link?, node?⟩ := e
  obtain ⟨middle, linked, noded⟩ := Tracked.yields_bind.mp yields
  refine @Turn.event _ _ _ middle _ ?_ ?_
  · cases link? with
    | none =>
        obtain rfl := Tracked.yields_pure.mp linked
        exact .none
    | some event =>
        change (this.linkEvent time event).Yields middle at linked
        unfold linkEvent at linked
        split at linked
        · next same =>
            obtain rfl := Tracked.yields_pure.mp linked
            exact .other same
        · next status changed =>
            obtain ⟨link, there, same⟩ := Tracked.yields_bind.mp linked
            obtain rfl := Tracked.yields_pure.mp same
            exact .switched changed (Tracked.yields_unwrap.mp there)
  · cases node? with
    | none =>
        obtain rfl := Tracked.yields_pure.mp noded
        exact .none
    | some event =>
        obtain ⟨node, there, node', handled, rfl⟩ := withNode_yields.mp noded
        obtain rfl := Tracked.yields_pure.mp handled
        exact .changed there

/-- A step whose replay goes through is taken in one of the ways above. -/
theorem replayKind_turn {kind : SimulationStepKind}
    (yields : (this.replayKind time kind).Yields next) : this.Turn time kind next := by
  cases kind with
  | packetInNode s => exact packetInNode_turn yields
  | packetLostInTransit s => exact packetLostInTransit_turn yields
  | packetInTransit s => exact packetInTransit_turn yields
  | networkEvent e => exact networkEvent_turn yields
  | packetDuplicated s =>
      obtain ⟨node, there, node', added, rfl⟩ := withNode_yields.mp yields
      obtain ⟨absent, rfl⟩ := ReplayedNode.addPacketToBuffer_yields.mp added
      exact .duplicated there absent
  | packetDropped s =>
      obtain ⟨node, there, node', dropped, rfl⟩ := withNode_yields.mp yields
      obtain ⟨⟨packet, left⟩, removed, same⟩ := Tracked.yields_bind.mp dropped
      obtain ⟨held, fits, rfl⟩ := ReplayedNode.removePacketFromBuffer_yields.mp removed
      obtain rfl := Tracked.yields_pure.mp same
      exact .dropped there held fits
  | packetDeliveredToApplication s =>
      obtain ⟨node, there, node', delivered, rfl⟩ := withNode_yields.mp yields
      obtain ⟨⟨packet, left⟩, removed, same⟩ := Tracked.yields_bind.mp delivered
      obtain ⟨held, fits, rfl⟩ := ReplayedNode.removePacketFromBuffer_yields.mp removed
      obtain rfl := Tracked.yields_pure.mp same
      exact .delivered there held fits
  | packetCongestionEvent s =>
      obtain ⟨node, there, node', counted, rfl⟩ := withNode_yields.mp yields
      obtain rfl := Tracked.yields_pure.mp counted
      exact .congested there
  | packetExtraDelay s =>
      obtain ⟨node, there, node', slowed, rfl⟩ := withNode_yields.mp yields
      unfold ReplayedNode.packetHasExtraDelay at slowed
      split at slowed
      · simp [fatal] at slowed
      · next packet held =>
          obtain rfl := Tracked.yields_pure.mp slowed
          exact .delayed there held

/-! Each of the ways goes through. -/

theorem checkOutage_yields {link : ReplayedLink} {inFlight : InFlightPacket} {n : NodeId}
    {done : Unit} : (checkOutage link inFlight n).Yields done ↔ True := by
  unfold checkOutage
  cases link.lastDownRelative <;> simp

/-- A packet that travelled gets to a node that receives it. -/
theorem packetInNode_yields {s : PacketInNode} {inFlight : InFlightPacket}
    {node node' : ReplayedNode} (flies : this.inFlightPackets.lookup s.packetId = some inFlight)
    (travelled : this.Travelled time inFlight) (there : this.nodes.lookup s.nodeId = some node)
    (received : (node.packetReceived s time).Yields node') :
    (this.packetInNode time s).Yields ((this.ground s.packetId).setNode s.nodeId node') := by
  obtain ⟨⟨metadata, known⟩, ⟨link, linked⟩, sent⟩ := travelled
  unfold packetInNode
  simp only [flies, Tracked.yields_bind, Tracked.yields_unwrap, Tracked.yields_check,
    checkOutage_yields, withNode_yields, true_and, exists_const, Replay.link]
  exact ⟨metadata, known, time - inFlight.sentAtRelative, if_neg (by omega), link, linked, node,
    there, node', received, rfl⟩

theorem LinkTurn.yields {link? : Option LinkEventPayload} (turn : this.LinkTurn time link? next) :
    (link?.elim (pure this) (this.linkEvent time)).Yields next := by
  cases turn with
  | none => exact Tracked.yields_pure.mpr rfl
  | other same => simp [linkEvent, same]
  | switched changed there =>
      simp only [Option.elim, linkEvent, changed]
      exact Tracked.yields_bind.mpr
        ⟨_, Tracked.yields_unwrap.mpr there, Tracked.yields_pure.mpr rfl⟩

theorem NodeTurn.yields {node? : Option NodeEventPayload} (turn : this.NodeTurn time node? next) :
    (node?.elim (pure this) (this.nodeEvent time)).Yields next := by
  cases turn with
  | none => exact Tracked.yields_pure.mpr rfl
  | changed there =>
      exact withNode_yields.mpr ⟨_, there, _, Tracked.yields_pure.mpr rfl, rfl⟩

theorem Turn.yields {kind : SimulationStepKind} (turn : this.Turn time kind next) :
    (this.replayKind time kind).Yields next := by
  cases turn with
  | created grounded there absent =>
      simp only [replayKind, packetInNode, grounded]
      exact withNode_yields.mpr
        ⟨_, there, _, ReplayedNode.addPacketToBuffer_yields.mpr ⟨absent, rfl⟩, rfl⟩
  | landed flies there kept absent travelled =>
      refine packetInNode_yields flies travelled there ?_
      simp only [ReplayedNode.packetReceived, kept]
      exact ReplayedNode.addPacketToBuffer_yields.mpr ⟨absent, rfl⟩
  | refused flies there dropped travelled =>
      refine packetInNode_yields flies travelled there ?_
      simp only [ReplayedNode.packetReceived, dropped, if_true, Tracked.yields_bind,
        Tracked.yields_check, Tracked.yields_pure, true_and, exists_const]
      rfl
  | duplicated there absent =>
      exact withNode_yields.mpr
        ⟨_, there, _, ReplayedNode.addPacketToBuffer_yields.mpr ⟨absent, rfl⟩, rfl⟩
  | dropped there held fits =>
      have removed := ReplayedNode.removePacketFromBuffer_yields.mpr ⟨held, fits, rfl⟩
      exact withNode_yields.mpr ⟨_, there, _,
        Tracked.yields_bind.mpr ⟨_, removed, Tracked.yields_pure.mpr rfl⟩, rfl⟩
  | lost flies =>
      simp only [replayKind, packetLostInTransit, flies]
      exact Tracked.yields_pure.mpr rfl
  | missed grounded =>
      simp only [replayKind, packetLostInTransit, grounded, Tracked.yields_bind,
        Tracked.yields_track, Tracked.yields_pure, true_and, exists_const]
  | sent there held fits known linked carried =>
      simp only [replayKind, packetInTransit, ReplayedNode.packetSent, node, Replay.link,
        Tracked.yields_bind, Tracked.yields_unwrap, Tracked.yields_check, Tracked.yields_pure,
        Prod.exists, ReplayedNode.removePacketFromBuffer_yields, true_and, exists_const]
      exact ⟨_, there, _, _, ⟨_, _, ⟨held, fits, rfl⟩, rfl⟩, _, known, _, linked, _, _, carried, rfl⟩
  | delivered there held fits =>
      have removed := ReplayedNode.removePacketFromBuffer_yields.mpr ⟨held, fits, rfl⟩
      exact withNode_yields.mpr ⟨_, there, _,
        Tracked.yields_bind.mpr ⟨_, removed, Tracked.yields_pure.mpr rfl⟩, rfl⟩
  | congested there => exact withNode_yields.mpr ⟨_, there, _, Tracked.yields_pure.mpr rfl, rfl⟩
  | delayed there held =>
      refine withNode_yields.mpr ⟨_, there, _, ?_, rfl⟩
      simp only [ReplayedNode.packetHasExtraDelay, held]
      exact Tracked.yields_pure.mpr rfl
  | event link node => exact Tracked.yields_bind.mpr ⟨_, link.yields, node.yields⟩

end Replay

end Workbench.Tracing
