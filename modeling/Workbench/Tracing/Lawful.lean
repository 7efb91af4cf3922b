import Workbench.Tracing.Construction

/-! What a verification without errors says of links and nodes: packets are sent and
received where and when the links and the nodes allow it. -/

set_option autoImplicit false

namespace Workbench.Tracing

open Workbench.Library Workbench.Network

/-- A step that the links and nodes allow after the ones before it. -/
structure Lawful (links : LinkId → Option LinkMetadata) (before : List SimulationStep)
    (step : SimulationStep) : Prop where
  sent : ∀ s, step.kind = .packetInTransit s → ∃ metadata, links s.linkId = some metadata ∧
    s.nodeId = metadata.sourceNodeId ∧ linkStatus s.linkId before = .up ∧
    nodeStatus s.nodeId before = .up ∧ ∃ t, entered s.nodeId s.packetId before = some t ∧
    ∀ clear, lastClear s.nodeId before = some clear → clear ≤ t
  landed : ∀ s flight, step.kind = .packetInNode s → openFlight s.packetId before = some flight →
    ∃ metadata, links flight.link = some metadata ∧ s.nodeId = metadata.targetNodeId ∧
    flight.sent + metadata.delay ≤ step.relativeTime ∧
    ∀ down ∈ before, ∀ t, down.linkDown? flight.link = some t → t < flight.sent
  stored : ∀ n id t, step.stay? (openFlight id before).isSome n id = some (some t) →
    nodeStatus n before = .up
  refused : ∀ s flight, step.kind = .packetInNode s → openFlight s.packetId before = some flight →
    s.droppedOnArrival → nodeStatus s.nodeId before = .down

theorem SimulationStep.linkDown_time (l : LinkId) (step : SimulationStep) (t : Nat)
    (down : step.linkDown? l = some t) : t = step.relativeTime := by
  unfold linkDown? at down
  split at down
  · exact (Option.some.inj down).symm
  · cases down

namespace Replay

variable {this next : Replay} {before : List SimulationStep} {time : Nat}

theorem Mirrors.inFlight (mirrors : this.Mirrors before) {id : Uuid} {flight : Flight}
    (opened : openFlight id before = some flight) : ∃ packet,
      this.inFlightPackets.lookup id = some packet ∧
        flight = ⟨packet.linkId, packet.sentAtRelative⟩ := by
  rw [← mirrors.flights] at opened
  obtain ⟨packet, found, same⟩ := Option.map_eq_some_iff.mp opened
  exact ⟨packet, found, same.symm⟩

theorem Mirrors.grounded (mirrors : this.Mirrors before) {id : Uuid}
    (absent : this.inFlightPackets.lookup id = none) : openFlight id before = none := by
  rw [← mirrors.flights, flight, absent]
  rfl

theorem sent_lawful {s : PacketInTransit} (mirrors : this.Mirrors before)
    (clean : (this.packetInTransit time s).Clean next) :
    Lawful this.linkMetadata.lookup before ⟨time, .packetInTransit s⟩ := by
  obtain ⟨node, packet, node', metadata, link, link', used, found, sent, known, source, there,
    up, -, -, -⟩ := packetInTransit_clean.mp clean
  obtain ⟨nodeUp, held, -, kept, -⟩ := ReplayedNode.packetSent_clean.mp sent
  obtain ⟨status, clear, arrival⟩ := mirrors.nodes s.nodeId node found
  obtain ⟨linkUp, -⟩ := mirrors.links s.linkId link there
  refine ⟨?_, nofun, ?_, nofun⟩
  · rintro s' same
    cases same
    refine ⟨metadata, known, source, linkUp ▸ up, status ▸ nodeUp, packet.arrivedAt, ?_, ?_⟩
    · rw [← arrival, ReplayedNode.arrival, held]
      rfl
    · rw [← clear]
      exact kept
  · intro n id t stays
    simp only [SimulationStep.stay?] at stays
    split at stays <;> cases stays

/-- A step that adds a packet to a node finds the node up. -/
theorem stored_lawful {kind : SimulationStepKind} {n : NodeId} {node : ReplayedNode}
    (mirrors : this.Mirrors before) (found : this.nodes.lookup n = some node)
    (up : node.status = .up)
    (elsewhere : ∀ m, m ≠ n → ∀ flying id, SimulationStep.stay? flying m id ⟨time, kind⟩ = none) :
    ∀ m id t, SimulationStep.stay? (openFlight id before).isSome m id ⟨time, kind⟩ =
      some (some t) → nodeStatus m before = .up := by
  intro m id t stays
  by_cases here : m = n
  · subst here
    rw [← (mirrors.nodes m node found).1, up]
  · rw [elsewhere m here] at stays
    cases stays

theorem created_lawful {s : PacketInNode} (mirrors : this.Mirrors before)
    (absent : this.inFlightPackets.lookup s.packetId = none)
    (clean : (this.withNode s.nodeId (·.packetCreated s time)).Clean next) :
    Lawful this.linkMetadata.lookup before ⟨time, .packetInNode s⟩ := by
  obtain ⟨node, found, node', added, -⟩ := withNode_clean.mp clean
  obtain ⟨up, -, -⟩ := ReplayedNode.addPacketToBuffer_clean.mp added
  have grounded := mirrors.grounded absent
  refine ⟨nofun, ?_, stored_lawful mirrors found up ?_, ?_⟩
  · rintro s' flight same opened
    cases same
    rw [grounded] at opened
    cases opened
  · intro m differs flying id
    simp [SimulationStep.stay?, Ne.symm differs]
  · rintro s' flight same opened
    cases same
    rw [grounded] at opened
    cases opened

theorem landed_lawful {s : PacketInNode} {packet : InFlightPacket} (mirrors : this.Mirrors before)
    (sorted : (before.map (·.relativeTime)).Pairwise (· ≤ ·))
    (flies : this.inFlightPackets.lookup s.packetId = some packet)
    (clean : (this.packetInNode time s).Clean next) :
    Lawful this.linkMetadata.lookup before ⟨time, .packetInNode s⟩ := by
  obtain ⟨metadata, link, known, target, slow, there, down, node, found, node', received, -⟩ :=
    (packetInNode_landed flies).mp clean
  obtain ⟨-, lastDown⟩ := mirrors.links packet.linkId link there
  obtain ⟨status, -, -⟩ := mirrors.nodes s.nodeId node found
  have opened : openFlight s.packetId before = some ⟨packet.linkId, packet.sentAtRelative⟩ := by
    rw [← mirrors.flights, flight, flies]
    rfl
  have kept := ReplayedNode.packetReceived_clean.mp received
  refine ⟨by simp, ?_, ?_, ?_⟩
  · rintro s' flight same opened'
    cases same
    obtain rfl := Option.some.inj (opened.symm.trans opened')
    refine ⟨metadata, known, target, by dsimp only; omega, fun event member t wentDown => ?_⟩
    -- The last time that the link went down stands for every earlier one.
    obtain ⟨last, latest, notAfter⟩ :=
      le_latest (SimulationStep.linkDown_time packet.linkId) sorted member wentDown
    exact lt_of_le_of_lt notAfter (down last (lastDown.trans latest))
  · intro n id t stays
    simp only [SimulationStep.stay?] at stays
    split at stays
    · next here =>
        obtain ⟨rfl, rfl, arrives⟩ := here
        rw [opened] at arrives
        rw [if_neg (by simpa using arrives)] at kept
        rw [← status, kept.1]
    · cases stays
  · rintro s' flight same - dropped
    cases same
    rw [if_pos dropped] at kept
    rw [← status, kept.1]

theorem replayKind_lawful {kind : SimulationStepKind} (mirrors : this.Mirrors before)
    (sorted : (before.map (·.relativeTime)).Pairwise (· ≤ ·))
    (clean : (this.replayKind time kind).Clean next) :
    Lawful this.linkMetadata.lookup before ⟨time, kind⟩ := by
  cases kind with
  | packetInNode s =>
      cases flies : this.inFlightPackets.lookup s.packetId with
      | none =>
          have created : (this.withNode s.nodeId (·.packetCreated s time)).Clean next := by
            simpa [replayKind, packetInNode, flies] using clean
          exact created_lawful mirrors flies created
      | some packet => exact landed_lawful mirrors sorted flies clean
  | packetInTransit s => exact sent_lawful mirrors clean
  | packetDuplicated s =>
      obtain ⟨node, found, node', added, -⟩ := withNode_clean.mp clean
      obtain ⟨up, -, -⟩ := ReplayedNode.addPacketToBuffer_clean.mp added
      refine ⟨by simp, by simp, stored_lawful mirrors found up ?_, by simp⟩
      intro m differs flying id
      simp [SimulationStep.stay?, Ne.symm differs]
  | packetDropped s =>
      refine ⟨by simp, by simp, ?_, by simp⟩
      intro n id t stays
      simp only [SimulationStep.stay?] at stays
      split at stays <;> cases stays
  | packetDeliveredToApplication s =>
      refine ⟨by simp, by simp, ?_, by simp⟩
      intro n id t stays
      simp only [SimulationStep.stay?] at stays
      split at stays <;> cases stays
  | packetLostInTransit s => exact ⟨by simp, by simp, by simp [SimulationStep.stay?], by simp⟩
  | packetCongestionEvent s => exact ⟨by simp, by simp, by simp [SimulationStep.stay?], by simp⟩
  | packetExtraDelay s => exact ⟨by simp, by simp, by simp [SimulationStep.stay?], by simp⟩
  | networkEvent e => exact ⟨by simp, by simp, by simp [SimulationStep.stay?], by simp⟩

end Replay

namespace SimulationVerifier

/-- In a verification without errors, every step is allowed by the links and nodes. -/
theorem verify_lawful {steps : List SimulationStep} {spec : NetworkSpec}
    {this : SimulationVerifier} {stats : SimulationStats} (order : Option Nat → List NodeId)
    (made : SimulationVerifier.new steps spec = .ok this) (clean : (this.verify order).Clean stats) :
    (∀ l metadata, this.linkMetadata.lookup l = some metadata → Describes spec l metadata) ∧
      ∀ before step after, sortSteps steps = before ++ step :: after →
        Lawful this.linkMetadata.lookup before step := by
  obtain ⟨made, same⟩ := new_made made
  refine ⟨made.linkMetadata, fun before step after split => ?_⟩
  have sorted : (before.map (·.relativeTime)).Pairwise (· ≤ ·) := by
    have all := sortSteps_sorted steps
    rw [split, List.map_append, List.pairwise_append] at all
    exact all.1
  obtain ⟨replay, next, mirrors, metadata, replayed⟩ := verify_at made clean (same.trans split)
  rw [← metadata]
  exact Replay.replayKind_lawful mirrors sorted replayed

/-- A packet crosses the link to a host that goes down before it arrives. -/
def refusedCrossing : List SimulationStep :=
  [⟨0, .packetInNode ⟨0, 0, 28, 0, false⟩⟩, ⟨0, .packetInTransit ⟨0, 0, 0⟩⟩,
    ⟨5, .networkEvent ⟨none, some ⟨1, some .down, false⟩⟩⟩,
    ⟨10, .packetInNode ⟨0, 0, 28, 1, true⟩⟩]

theorem verify_lawful_twoHosts : ∃ this : SimulationVerifier,
    SimulationVerifier.new refusedCrossing .twoHosts = .ok this ∧
      (∀ l metadata, this.linkMetadata.lookup l = some metadata →
        Describes .twoHosts l metadata) ∧
      ∀ before step after, sortSteps refusedCrossing = before ++ step :: after →
        Lawful this.linkMetadata.lookup before step :=
  ⟨_, rfl, verify_lawful (fun _ => [0, 1]) rfl rfl⟩

end SimulationVerifier

end Workbench.Tracing
