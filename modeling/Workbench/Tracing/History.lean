import Workbench.Library.Trace
import Workbench.Tracing.Turn

/-! What recorded steps say of links, nodes and packets, and how far a replay knows it. -/

set_option autoImplicit false

namespace Workbench.Tracing

open Workbench.Library Workbench.Network

/-- A packet on a link, and when it was sent. -/
structure Flight where
  link : LinkId
  sent : Nat
  deriving DecidableEq, Repr

namespace SimulationStep

def linkStatus? (l : LinkId) (step : SimulationStep) : Option UpdateLinkStatus :=
  match step.kind with
  | .networkEvent ⟨some event, _⟩ => if event.linkId = l then event.status else none
  | _ => none

def linkDown? (l : LinkId) (step : SimulationStep) : Option Nat :=
  if step.linkStatus? l = some .down then some step.relativeTime else none

def nodeStatus? (n : NodeId) (step : SimulationStep) : Option UpdateNodeStatus :=
  match step.kind with
  | .networkEvent ⟨_, some event⟩ => if event.nodeId = n then event.status else none
  | _ => none

def bufferClear? (n : NodeId) (step : SimulationStep) : Option Nat :=
  match step.kind with
  | .networkEvent ⟨_, some event⟩ =>
    if event.nodeId = n ∧ event.clearBuffer then some step.relativeTime else none
  | _ => none

/-- The packet is put on a link, or is no longer on one. -/
def flight? (id : Uuid) (step : SimulationStep) : Option (Option Flight) :=
  match step.kind with
  | .packetInTransit s =>
    if s.packetId = id then some (some ⟨s.linkId, step.relativeTime⟩) else none
  | .packetInNode s => if s.packetId = id then some none else none
  | .packetLostInTransit s => if s.packetId = id then some none else none
  | _ => none

/-- The packet gets to a node or leaves it. One that comes from a link and is dropped
on arrival does not get there. -/
def stay? (flying : Bool) (n : NodeId) (id : Uuid) (step : SimulationStep) : Option (Option Nat) :=
  match step.kind with
  | .packetInNode s =>
    if s.nodeId = n ∧ s.packetId = id ∧ ¬ (flying ∧ s.droppedOnArrival) then
      some (some step.relativeTime)
    else none
  | .packetDuplicated s =>
    if s.nodeId = n ∧ s.packetId = id then some (some step.relativeTime) else none
  | .packetInTransit s => if s.nodeId = n ∧ s.packetId = id then some none else none
  | .packetDropped s => if s.nodeId = n ∧ s.packetId = id then some none else none
  | .packetDeliveredToApplication s =>
    if s.nodeId = n ∧ s.packetId = id then some none else none
  | _ => none

/-- The size of the packet that gets to a node. -/
def sizeBytes (step : SimulationStep) : Nat :=
  match step.kind with
  | .packetInNode s => s.packetSizeBytes
  | .packetDuplicated s => s.packetSizeBytes
  | _ => 0

end SimulationStep

/-- The latest recorded status of a link, which is up at first. -/
def linkStatus (l : LinkId) (trace : List SimulationStep) : UpdateLinkStatus :=
  (latest (·.linkStatus? l) trace).getD .up

def lastLinkDown (l : LinkId) (trace : List SimulationStep) : Option Nat :=
  latest (·.linkDown? l) trace

def nodeStatus (n : NodeId) (trace : List SimulationStep) : UpdateNodeStatus :=
  (latest (·.nodeStatus? n) trace).getD .up

def lastClear (n : NodeId) (trace : List SimulationStep) : Option Nat :=
  latest (·.bufferClear? n) trace

/-- The link that a packet is on. -/
def openFlight (id : Uuid) (trace : List SimulationStep) : Option Flight :=
  (latest (·.flight? id) trace).join

/-- When a packet got to a node, if it has not left it since. -/
def entered (n : NodeId) (id : Uuid) (trace : List SimulationStep) : Option Nat :=
  (latest (fun m => m.2.stay? (openFlight id m.1).isSome n id) (moments trace)).join

/-- The size recorded as a packet got to a node, if it has not left it since. -/
def sizeIn (n : NodeId) (id : Uuid) (trace : List SimulationStep) : Option Nat :=
  (latest (fun m => (m.2.stay? (openFlight id m.1).isSome n id).map (·.map fun _ => m.2.sizeBytes))
    (moments trace)).join

theorem join_or {α : Type} (x y : Option (Option α)) : (x.or y).join = x.getD y.join := by
  cases x <;> rfl

theorem openFlight_concat (id : Uuid) (trace : List SimulationStep) (step : SimulationStep) :
    openFlight id (trace ++ [step]) = (step.flight? id).getD (openFlight id trace) := by
  rw [openFlight, latest_concat, join_or, openFlight]

theorem entered_concat (n : NodeId) (id : Uuid) (trace : List SimulationStep)
    (step : SimulationStep) : entered n id (trace ++ [step]) =
      (step.stay? (openFlight id trace).isSome n id).getD (entered n id trace) := by
  rw [entered, moments_concat, latest_concat, join_or, entered]

theorem sizeIn_concat (n : NodeId) (id : Uuid) (trace : List SimulationStep)
    (step : SimulationStep) : sizeIn n id (trace ++ [step]) =
      ((step.stay? (openFlight id trace).isSome n id).map (·.map fun _ => step.sizeBytes)).getD
        (sizeIn n id trace) := by
  rw [sizeIn, moments_concat, latest_concat, join_or, sizeIn]

theorem linkStatus_concat (l : LinkId) (trace : List SimulationStep) (step : SimulationStep) :
    linkStatus l (trace ++ [step]) = (step.linkStatus? l).getD (linkStatus l trace) := by
  rw [linkStatus, latest_concat, Option.getD_or, linkStatus]

theorem nodeStatus_concat (n : NodeId) (trace : List SimulationStep) (step : SimulationStep) :
    nodeStatus n (trace ++ [step]) = (step.nodeStatus? n).getD (nodeStatus n trace) := by
  rw [nodeStatus, latest_concat, Option.getD_or, nodeStatus]

/-! Computations of the verifier that report no error. -/

theorem UpdateStatus.ne_down {status : UpdateStatus} : status ≠ .down ↔ status = .up := by
  cases status <;> simp

namespace ReplayedNode

variable {this next : ReplayedNode} {id : Uuid} {size now : Nat}

/-- When a packet that the node holds got there. -/
def arrival (this : ReplayedNode) (id : Uuid) : Option Nat :=
  (this.packets.lookup id).map (·.arrivedAt)

/-- The size of a packet that the node holds. -/
def sizeOf (this : ReplayedNode) (id : Uuid) : Option Nat :=
  (this.packets.lookup id).map (·.sizeBytes)

theorem addPacketToBuffer_clean : (this.addPacketToBuffer id size now).Clean next ↔
    this.status = .up ∧ id ∉ this.packets ∧ next = { this with
      packets := this.packets.insert id ⟨now, size, 0⟩
      bufferUsage := this.bufferUsage + size } := by
  unfold addPacketToBuffer
  simp only [Tracked.clean_bind, Tracked.clean_check, UpdateStatus.ne_down]
  split <;> simp [*, fatal, eq_comm]

theorem removePacketFromBuffer_clean {out : ReplayedPacket × ReplayedNode} :
    (this.removePacketFromBuffer id).Clean out ↔
      this.packets.lookup id = some out.1 ∧ out.1.sizeBytes ≤ this.bufferUsage ∧
        out.2 = { this with
          packets := this.packets.erase id
          bufferUsage := this.bufferUsage - out.1.sizeBytes } := by
  unfold removePacketFromBuffer
  obtain ⟨packet, node⟩ := out
  split
  · simp [*, fatal]
  · next found held =>
      rw [held]
      split
      · simp only [Tracked.not_clean_halt, Option.some.injEq, false_iff]
        rintro ⟨rfl, fits, -⟩
        omega
      · simp only [Tracked.clean_pure, Prod.mk.injEq, Option.some.injEq]
        constructor
        · rintro ⟨rfl, rfl⟩
          exact ⟨rfl, by omega, rfl⟩
        · rintro ⟨rfl, -, rfl⟩
          exact ⟨rfl, rfl⟩

theorem packetReceived_clean {s : PacketInNode} : (this.packetReceived s now).Clean next ↔
    if s.droppedOnArrival then this.status = .down ∧ next = { this.countReceived s with
      droppedPacketsDown := this.droppedPacketsDown.trackOne s.packetSizeBytes }
    else this.status = .up ∧ s.packetId ∉ this.packets ∧ next = { this.countReceived s with
      packets := this.packets.insert s.packetId ⟨now, s.packetSizeBytes, 0⟩
      bufferUsage := this.bufferUsage + s.packetSizeBytes } := by
  unfold packetReceived
  dsimp only
  split
  · have up : (this.countReceived s).status = .up ↔ ¬ this.status = .down := UpdateStatus.ne_down.symm
    simp only [Tracked.clean_bind, Tracked.clean_check, Tracked.clean_pure, up, exists_const,
      not_not, eq_comm (b := next)]
    rfl
  · exact addPacketToBuffer_clean

theorem packetSent_clean {out : ReplayedPacket × ReplayedNode} :
    (this.packetSent id).Clean out ↔
      this.status = .up ∧ this.packets.lookup id = some out.1 ∧
        out.1.sizeBytes ≤ this.bufferUsage ∧
        (∀ t, this.lastBufferClear = some t → t ≤ out.1.arrivedAt) ∧
        out.2 = { this with
          packets := this.packets.erase id
          bufferUsage := this.bufferUsage - out.1.sizeBytes
          sentPackets := this.sentPackets.trackOne out.1.sizeBytes } := by
  unfold packetSent
  obtain ⟨packet, node⟩ := out
  simp only [Tracked.clean_bind, Tracked.clean_check, UpdateStatus.ne_down,
    removePacketFromBuffer_clean, Tracked.clean_pure, Prod.mk.injEq, Prod.exists]
  constructor
  · rintro ⟨-, up, packet', node', ⟨held, fits, rfl⟩, -, kept, rfl, rfl⟩
    refine ⟨up, held, fits, fun t last => ?_, rfl⟩
    simpa [show this.lastBufferClear = some t from last] using kept
  · rintro ⟨up, held, fits, kept, rfl⟩
    refine ⟨(), up, packet, _, ⟨held, fits, rfl⟩, (), ?_, rfl, rfl⟩
    cases last : this.lastBufferClear with
    | none => simp
    | some t => simpa using kept t last

/-- How a step changes what a node says of its status, its buffer and its packets. -/
structure Shifts (this next : ReplayedNode) (status : Option UpdateNodeStatus)
    (clear : Option Nat) (sizeBytes : Nat) (stay : Uuid → Option (Option Nat)) : Prop where
  status : next.status = status.getD this.status
  clear : next.lastBufferClear = clear.or this.lastBufferClear
  arrival : ∀ id, next.arrival id = (stay id).getD (this.arrival id)
  size : ∀ id, next.sizeOf id = ((stay id).map (·.map fun _ => sizeBytes)).getD (this.sizeOf id)
  usage : next.maxBufferUsage = this.maxBufferUsage

theorem Shifts.refl (this : ReplayedNode) (sizeBytes : Nat) :
    this.Shifts this none none sizeBytes fun _ => none :=
  ⟨rfl, rfl, fun _ => rfl, fun _ => rfl, rfl⟩

theorem Shifts.congr {status : Option UpdateNodeStatus} {clear : Option Nat} {sizeBytes : Nat}
    {stay stay' : Uuid → Option (Option Nat)}
    (shifts : this.Shifts next status clear sizeBytes stay)
    (same : ∀ id, stay' id = stay id) : this.Shifts next status clear sizeBytes stay' := by
  obtain rfl : stay' = stay := funext same
  exact shifts

theorem store_shifts (this : ReplayedNode) (id : Uuid) (size now : Nat) :
    this.Shifts (this.store id size now) none none size
      fun id' => if id = id' then some (some now) else none := by
  refine ⟨rfl, rfl, fun id' => ?_, fun id' => ?_, rfl⟩
  · simp only [arrival, store, lookup_insert, eq_comm (a := id')]
    split <;> rfl
  · simp only [ReplayedNode.sizeOf, store, lookup_insert, eq_comm (a := id')]
    split <;> rfl

theorem release_shifts (this : ReplayedNode) (id : Uuid) (packet : ReplayedPacket)
    (sizeBytes : Nat) : this.Shifts (this.release id packet) none none sizeBytes
      fun id' => if id = id' then some none else none := by
  refine ⟨rfl, rfl, fun id' => ?_, fun id' => ?_, rfl⟩
  · simp only [arrival, release, lookup_erase, eq_comm (a := id')]
    split <;> rfl
  · simp only [ReplayedNode.sizeOf, release, lookup_erase, eq_comm (a := id')]
    split <;> rfl

theorem slow_lookup {packet : ReplayedPacket} (held : this.packets.lookup id = some packet)
    (delay : Nat) {α : Type} (read : ReplayedPacket → α)
    (kept : read { packet with extraDelay := delay } = read packet) (id' : Uuid) :
    ((this.slow id packet delay).packets.lookup id').map read =
      (this.packets.lookup id').map read := by
  simp only [slow, lookup_insert]
  split
  · next same =>
      subst same
      rw [held, Option.map_some, Option.map_some, kept]
  · rfl

theorem slow_shifts {packet : ReplayedPacket} (held : this.packets.lookup id = some packet)
    (delay sizeBytes : Nat) :
    this.Shifts (this.slow id packet delay) none none sizeBytes fun _ => none :=
  ⟨rfl, rfl, fun id' => slow_lookup held delay (·.arrivedAt) rfl id',
    fun id' => slow_lookup held delay (·.sizeBytes) rfl id', rfl⟩

/-- A change of nothing but counts, after or before a shift, is no shift. -/
theorem Shifts.counts {next' : ReplayedNode} {status : Option UpdateNodeStatus} {clear : Option Nat}
    {sizeBytes : Nat} {stay : Uuid → Option (Option Nat)}
    (shifts : this.Shifts next status clear sizeBytes stay)
    (same : next'.status = next.status ∧ next'.lastBufferClear = next.lastBufferClear ∧
      next'.packets = next.packets ∧ next'.maxBufferUsage = next.maxBufferUsage) :
    this.Shifts next' status clear sizeBytes stay := by
  obtain ⟨status, clear, packets, usage⟩ := same
  refine ⟨status.trans shifts.status, clear.trans shifts.clear, fun id => ?_, fun id => ?_,
    usage.trans shifts.usage⟩
  · rw [ReplayedNode.arrival, packets]
    exact shifts.arrival id
  · rw [ReplayedNode.sizeOf, packets]
    exact shifts.size id

theorem handleEvent_shifts (this : ReplayedNode) (event : NodeEventPayload) (now sizeBytes : Nat) :
    this.Shifts (this.handleEvent event now) event.status
      (if event.clearBuffer then some now else none) sizeBytes fun _ => none := by
  unfold handleEvent
  cases event.status <;> cases event.clearBuffer <;>
    exact ⟨rfl, rfl, fun _ => rfl, fun _ => rfl, rfl⟩

end ReplayedNode

namespace Replay

variable {this next : Replay} {step : SimulationStep}

/-- The link that a packet in flight is on. -/
def flight (this : Replay) (id : Uuid) : Option Flight :=
  (this.inFlightPackets.lookup id).map fun p => ⟨p.linkId, p.sentAtRelative⟩

theorem withNode_clean {n : NodeId} {change : ReplayedNode → Verdict ReplayedNode} :
    (this.withNode n change).Clean next ↔ ∃ node, this.nodes.lookup n = some node ∧
      ∃ node', (change node).Clean node' ∧ next = this.setNode n node' := by
  simp only [withNode, node, Tracked.clean_bind, Tracked.clean_unwrap, Tracked.clean_pure,
    eq_comm (b := next)]

/-- How a step changes what a replay says of its nodes, links and packets in flight. -/
structure Shifts (this next : Replay) (step : SimulationStep) : Prop where
  linkMetadata : next.linkMetadata = this.linkMetadata
  nodeMetadata : next.nodeMetadata = this.nodeMetadata
  nodeIds : ∀ n, n ∈ next.nodes ↔ n ∈ this.nodes
  nodes : ∀ n node', next.nodes.lookup n = some node' → ∃ node, this.nodes.lookup n = some node ∧
    node.Shifts node' (step.nodeStatus? n) (step.bufferClear? n) step.sizeBytes
      fun id => step.stay? (this.flight id).isSome n id
  links : ∀ l link', next.links.lookup l = some link' → ∃ link, this.links.lookup l = some link ∧
    link'.status = (step.linkStatus? l).getD link.status ∧
    link'.lastDownRelative = (step.linkDown? l).or link.lastDownRelative
  flights : ∀ id, next.flight id = (step.flight? id).getD (this.flight id)

/-- A step about one node, and perhaps about packets in flight. -/
theorem Shifts.ofNode {m : NodeId} {node node' : ReplayedNode}
    (found : this.nodes.lookup m = some node)
    (here : node.Shifts node' none none step.sizeBytes
      fun id => step.stay? (this.flight id).isSome m id)
    (elsewhere : ∀ n, n ≠ m → ∀ flying id, step.stay? flying n id = none)
    (quiet : (∀ n, step.nodeStatus? n = none ∧ step.bufferClear? n = none) ∧
      ∀ l, step.linkStatus? l = none)
    (linkMetadata : next.linkMetadata = this.linkMetadata)
    (nodeMetadata : next.nodeMetadata = this.nodeMetadata)
    (nodes : next.nodes = this.nodes.insert m node')
    (links : ∀ l link', next.links.lookup l = some link' → ∃ link,
      this.links.lookup l = some link ∧ link'.status = link.status ∧
        link'.lastDownRelative = link.lastDownRelative)
    (flights : ∀ id, next.flight id = (step.flight? id).getD (this.flight id)) :
    this.Shifts next step := by
  refine ⟨linkMetadata, nodeMetadata, fun n => ?_, fun n node'' found'' => ?_,
    fun l link' found' => ?_, flights⟩
  · rw [nodes, AList.mem_insert]
    exact or_iff_right_of_imp fun same => same ▸ mem_of_lookup found
  · rw [(quiet.1 n).1, (quiet.1 n).2]
    rcases of_lookup_insert (nodes ▸ found'') with ⟨rfl, rfl⟩ | ⟨differs, found''⟩
    · exact ⟨node, found, here⟩
    · refine ⟨node'', found'', ?_⟩
      simpa [elsewhere n differs] using ReplayedNode.Shifts.refl node'' step.sizeBytes
  · obtain ⟨link, before, status, down⟩ := links l link' found'
    refine ⟨link, before, by simp [quiet.2 l, status], ?_⟩
    simp [SimulationStep.linkDown?, quiet.2 l, down]

theorem links_same (links : next.links = this.links) (l : LinkId) (link' : ReplayedLink)
    (found : next.links.lookup l = some link') : ∃ link, this.links.lookup l = some link ∧
      link'.status = link.status ∧ link'.lastDownRelative = link.lastDownRelative :=
  ⟨link', links ▸ found, rfl, rfl⟩

/-- What a replay without errors finds where a packet ends its transit. -/
theorem packetInNode_landed {time : Nat} {s : PacketInNode} {inFlight : InFlightPacket}
    (found : this.inFlightPackets.lookup s.packetId = some inFlight) :
    (this.packetInNode time s).Clean next ↔ ∃ metadata link,
      this.linkMetadata.lookup inFlight.linkId = some metadata ∧
      s.nodeId = metadata.targetNodeId ∧
      inFlight.sentAtRelative + metadata.delay + inFlight.extraDelay ≤ time ∧
      this.links.lookup inFlight.linkId = some link ∧
      (∀ t, link.lastDownRelative = some t → t < inFlight.sentAtRelative) ∧
      ∃ node, this.nodes.lookup s.nodeId = some node ∧
      ∃ node', (node.packetReceived s time).Clean node' ∧
        next = setNode { this with inFlightPackets := this.inFlightPackets.erase s.packetId }
          s.nodeId node' := by
  unfold packetInNode
  rw [found]
  have outage (link : ReplayedLink) (done : Unit) :
      (checkOutage link inFlight s.nodeId).Clean done ↔
        ∀ t, link.lastDownRelative = some t → t < inFlight.sentAtRelative := by
    unfold checkOutage
    cases link.lastDownRelative <;> simp
  simp only [Tracked.clean_bind, Tracked.clean_unwrap, Tracked.clean_check, outage, withNode_clean,
    Replay.link, exists_const, not_not, not_lt]
  constructor
  · rintro ⟨metadata, known, target, flown, took, slow, link, there, down, node, rest⟩
    refine ⟨metadata, link, known, target, ?_, there, down, node, rest⟩
    split at took
    · cases took
    · obtain rfl := Option.some.inj took
      omega
  · rintro ⟨metadata, link, known, target, slow, there, down, node, rest⟩
    refine ⟨metadata, known, target, time - inFlight.sentAtRelative, ?_, by omega, link, there,
      down, node, rest⟩
    rw [if_neg (by omega)]

/-- What a replay without errors finds where a packet is sent. -/
theorem packetInTransit_clean {time : Nat} {s : PacketInTransit} :
    (this.packetInTransit time s).Clean next ↔ ∃ node packet node' metadata link link' used,
      this.nodes.lookup s.nodeId = some node ∧
      (node.packetSent s.packetId).Clean (packet, node') ∧
      this.linkMetadata.lookup s.linkId = some metadata ∧
      s.nodeId = metadata.sourceNodeId ∧
      this.links.lookup s.linkId = some link ∧ link.status = .up ∧
      link.packetSent time packet.sizeBytes metadata.bandwidthBps = some (used, link') ∧
      used ≤ metadata.bandwidthBps ∧
      next = { (this.setNode s.nodeId node').setLink s.linkId link' with
        inFlightPackets := this.inFlightPackets.insert s.packetId
          ⟨packet.sizeBytes, time, packet.extraDelay, s.linkId⟩ } := by
  have up (link : ReplayedLink) : ¬ link.isUp = false ↔ link.status = .up := by
    simp [ReplayedLink.isUp]
  unfold packetInTransit
  simp only [Tracked.clean_bind, Tracked.clean_unwrap, Tracked.clean_check, Tracked.clean_pure,
    Replay.node, Replay.link, exists_const, not_not, not_lt, Prod.exists, up]
  constructor
  · rintro ⟨node, found, packet, node', sent, metadata, known, source, link, there, up, used,
      link', carried, within, rfl⟩
    exact ⟨node, packet, node', metadata, link, link', used, found, sent, known, source, there, up,
      carried, within, rfl⟩
  · rintro ⟨node, packet, node', metadata, link, link', used, found, sent, known, source, there,
      up, carried, within, rfl⟩
    exact ⟨node, found, packet, node', sent, metadata, known, source, link, there, up, used,
      link', carried, within, rfl⟩

theorem elsewhere_none {n : NodeId} {s : PacketInNode} (differs : n ≠ s.nodeId) {time : Nat}
    (flying : Bool) (id : Uuid) :
    SimulationStep.stay? flying n id ⟨time, .packetInNode s⟩ = none := by
  simp [SimulationStep.stay?, Ne.symm differs]

theorem created_shifts {time : Nat} {s : PacketInNode} {node : ReplayedNode}
    (grounded : this.inFlightPackets.lookup s.packetId = none)
    (there : this.nodes.lookup s.nodeId = some node) :
    this.Shifts (this.setNode s.nodeId (node.store s.packetId s.packetSizeBytes time))
      ⟨time, .packetInNode s⟩ := by
  refine .ofNode there ((node.store_shifts _ _ _).congr fun id => ?_)
    (fun n differs => elsewhere_none differs) ⟨fun _ => ⟨rfl, rfl⟩, fun _ => rfl⟩ rfl rfl rfl
    (links_same rfl) fun id => ?_
  · by_cases same : s.packetId = id
    · subst same
      simp [SimulationStep.stay?, flight, grounded]
    · simp [SimulationStep.stay?, same]
  · by_cases same : s.packetId = id
    · subst same
      simp [SimulationStep.flight?, flight, setNode, grounded]
    · simp [SimulationStep.flight?, same, flight, setNode]

/-- A packet gets off its link, and to a node or not. -/
theorem landed_shifts {time : Nat} {s : PacketInNode} {node node' : ReplayedNode}
    {inFlight : InFlightPacket} (flies : this.inFlightPackets.lookup s.packetId = some inFlight)
    (there : this.nodes.lookup s.nodeId = some node)
    (shifts : node.Shifts node' none none s.packetSizeBytes fun id =>
      if s.packetId = id ∧ s.droppedOnArrival = false then some (some time) else none) :
    this.Shifts ((this.ground s.packetId).setNode s.nodeId node') ⟨time, .packetInNode s⟩ := by
  refine .ofNode there (shifts.congr fun id => ?_)
    (fun n differs => elsewhere_none differs) ⟨fun _ => ⟨rfl, rfl⟩, fun _ => rfl⟩ rfl rfl rfl
    (links_same rfl) fun id => ?_
  · by_cases same : s.packetId = id
    · subst same
      simp [SimulationStep.stay?, flight, flies]
    · simp [SimulationStep.stay?, same]
  · simp only [flight, setNode, ground, lookup_erase, SimulationStep.flight?]
    by_cases same : s.packetId = id
    · simp [same]
    · simp [same, Ne.symm same]

theorem lost_shifts (this : Replay) (time : Nat) (s : PacketLostInTransit) (size : Nat) :
    this.Shifts ((this.ground s.packetId).countLost s.linkId size)
      ⟨time, .packetLostInTransit s⟩ := by
  refine ⟨rfl, rfl, fun _ => .rfl, fun n node found => ⟨node, found, .refl node _⟩,
    fun l link found => ⟨link, found, rfl, rfl⟩, fun id => ?_⟩
  simp only [flight, countLost, ground, lookup_erase, SimulationStep.flight?]
  by_cases same : s.packetId = id
  · simp [same]
  · simp [same, Ne.symm same]

theorem missed_shifts {time : Nat} {s : PacketLostInTransit}
    (grounded : this.inFlightPackets.lookup s.packetId = none) :
    this.Shifts this ⟨time, .packetLostInTransit s⟩ := by
  refine ⟨rfl, rfl, fun _ => .rfl, fun n node found => ⟨node, found, .refl node _⟩,
    fun l link found => ⟨link, found, rfl, rfl⟩, fun id => ?_⟩
  by_cases same : s.packetId = id
  · subst same
    simp [flight, grounded, SimulationStep.flight?]
  · simp [SimulationStep.flight?, same]

theorem sent_shifts {time : Nat} {s : PacketInTransit} {node : ReplayedNode}
    {packet : ReplayedPacket} {metadata : LinkMetadata} {link link' : ReplayedLink} {used : Nat}
    (there : this.nodes.lookup s.nodeId = some node)
    (linked : this.links.lookup s.linkId = some link)
    (carried : link.packetSent time packet.sizeBytes metadata.bandwidthBps = some (used, link')) :
    this.Shifts
      (((this.setNode s.nodeId ((node.release s.packetId packet).countSent packet.sizeBytes)).setLink
        s.linkId link').launch s.packetId packet time s.linkId) ⟨time, .packetInTransit s⟩ := by
  have shifts : node.Shifts ((node.release s.packetId packet).countSent packet.sizeBytes) none none 0
      fun id => if s.packetId = id then some none else none :=
    (node.release_shifts s.packetId packet 0).counts ⟨rfl, rfl, rfl, rfl⟩
  refine .ofNode there (shifts.congr fun id => by simp [SimulationStep.stay?])
    (fun n differs flying id => by simp [SimulationStep.stay?, Ne.symm differs])
    ⟨fun _ => ⟨rfl, rfl⟩, fun _ => rfl⟩ rfl rfl rfl (fun l link'' found'' => ?_) fun id => ?_
  · rcases of_lookup_insert found'' with ⟨rfl, rfl⟩ | ⟨-, found''⟩
    · unfold ReplayedLink.packetSent at carried
      obtain ⟨out, -, same⟩ := Option.bind_eq_some_iff.mp carried
      obtain ⟨-, rfl⟩ := Prod.mk.inj (Option.some.inj same)
      exact ⟨link, linked, rfl, rfl⟩
    · exact ⟨link'', found'', rfl, rfl⟩
  · simp only [flight, launch, setLink, setNode, lookup_insert, SimulationStep.flight?]
    by_cases same : s.packetId = id
    · simp [same]
    · simp [same, Ne.symm same]

theorem LinkTurn.shifts {time : Nat} {link? : Option LinkEventPayload}
    (node? : Option NodeEventPayload) (turn : this.LinkTurn time link? next) :
    next.nodes = this.nodes ∧ next.linkMetadata = this.linkMetadata ∧
      next.nodeMetadata = this.nodeMetadata ∧ next.inFlightPackets = this.inFlightPackets ∧
      ∀ l link', next.links.lookup l = some link' → ∃ link, this.links.lookup l = some link ∧
        link'.status = (SimulationStep.linkStatus? l
          ⟨time, .networkEvent ⟨link?, node?⟩⟩).getD link.status ∧
        link'.lastDownRelative = (SimulationStep.linkDown? l
          ⟨time, .networkEvent ⟨link?, node?⟩⟩).or link.lastDownRelative := by
  cases turn with
  | none => exact ⟨rfl, rfl, rfl, rfl, fun l link found => ⟨link, found, rfl, rfl⟩⟩
  | other same =>
      refine ⟨rfl, rfl, rfl, rfl, fun l link found => ⟨link, found, ?_⟩⟩
      simp [SimulationStep.linkStatus?, SimulationStep.linkDown?, same]
  | @switched event status link changed there =>
      refine ⟨rfl, rfl, rfl, rfl, fun l link' found' => ?_⟩
      rcases of_lookup_insert found' with ⟨rfl, rfl⟩ | ⟨differs, found'⟩
      · refine ⟨link, there, ?_⟩
        cases status <;>
          simp [SimulationStep.linkStatus?, SimulationStep.linkDown?, changed,
            ReplayedLink.setStatus]
      · refine ⟨link', found', ?_⟩
        simp [SimulationStep.linkStatus?, SimulationStep.linkDown?, Ne.symm differs]

theorem event_shifts {time : Nat} {e : NetworkEvent} {middle : Replay}
    (link : this.LinkTurn time e.link middle) (node : middle.NodeTurn time e.node next) :
    this.Shifts next ⟨time, .networkEvent e⟩ := by
  obtain ⟨link?, node?⟩ := e
  obtain ⟨nodes, metadata, metadata', inFlight, links⟩ := link.shifts node?
  cases node with
  | none =>
      refine ⟨metadata, metadata', fun n => by rw [nodes],
        fun n node found => ⟨node, nodes ▸ found, .refl node _⟩, links, fun id => ?_⟩
      rw [flight, inFlight]
      rfl
  | @changed event node there =>
      refine ⟨metadata, metadata', fun n => ?_, fun n node'' found'' => ?_, links, fun id => ?_⟩
      · rw [setNode, AList.mem_insert, nodes]
        exact or_iff_right_of_imp fun same => same ▸ mem_of_lookup (nodes ▸ there)
      · rcases of_lookup_insert found'' with ⟨rfl, rfl⟩ | ⟨differs, found''⟩
        · refine ⟨node, nodes ▸ there, ?_⟩
          simpa [SimulationStep.nodeStatus?, SimulationStep.bufferClear?, SimulationStep.stay?]
            using node.handleEvent_shifts event time _
        · refine ⟨node'', nodes ▸ found'', ?_⟩
          simpa [SimulationStep.nodeStatus?, SimulationStep.bufferClear?, SimulationStep.stay?,
            Ne.symm differs] using ReplayedNode.Shifts.refl node'' _
      · rw [flight, setNode, inFlight]
        rfl

/-- A step changes a replay as it says. -/
theorem Turn.shifts {time : Nat} {kind : SimulationStepKind} (turn : this.Turn time kind next) :
    this.Shifts next ⟨time, kind⟩ := by
  have ofNode {m : NodeId} {node node' : ReplayedNode} {stay : Uuid → Option (Option Nat)}
      (there : this.nodes.lookup m = some node)
      (shifts : node.Shifts node' none none (SimulationStep.sizeBytes ⟨time, kind⟩) stay)
      (here : ∀ id flying, SimulationStep.stay? flying m id ⟨time, kind⟩ = stay id)
      (elsewhere : ∀ n, n ≠ m → ∀ flying id, SimulationStep.stay? flying n id ⟨time, kind⟩ = none)
      (quiet : (∀ n, SimulationStep.nodeStatus? n ⟨time, kind⟩ = none ∧
        SimulationStep.bufferClear? n ⟨time, kind⟩ = none) ∧
          ∀ l, SimulationStep.linkStatus? l ⟨time, kind⟩ = none)
      (grounded : ∀ id, SimulationStep.flight? id ⟨time, kind⟩ = none) :
      this.Shifts (this.setNode m node') ⟨time, kind⟩ :=
    .ofNode there (shifts.congr fun id => here id _) elsewhere quiet rfl rfl rfl (links_same rfl)
      fun id => by rw [grounded id]; rfl
  cases turn with
  | created grounded there => exact created_shifts grounded there
  | @landed s node inFlight flies there kept =>
      have shifts := (node.countReceived s).store_shifts s.packetId s.packetSizeBytes time
      exact landed_shifts flies there
        ⟨shifts.status, shifts.clear, by simp only [kept, and_true]; exact shifts.arrival,
          by simp only [kept, and_true]; exact shifts.size, shifts.usage⟩
  | @refused s node inFlight flies there dropped =>
      refine landed_shifts flies there ⟨rfl, rfl, fun id => ?_, fun id => ?_, rfl⟩ <;>
        simp only [dropped, Bool.true_eq_false, and_false, if_false] <;> rfl
  | lost flies => exact lost_shifts this time _ _
  | missed grounded => exact missed_shifts grounded
  | sent there held fits known linked carried => exact sent_shifts there linked carried
  | event link node => exact event_shifts link node
  | @duplicated s node there =>
      have shifts := (node.countDuplicated s.packetSizeBytes).store_shifts s.packetId
        s.packetSizeBytes time
      exact ofNode there ⟨shifts.status, shifts.clear, shifts.arrival, shifts.size, shifts.usage⟩
        (fun _ _ => by simp [SimulationStep.stay?])
        (fun n differs _ _ => by simp [SimulationStep.stay?, Ne.symm differs])
        ⟨fun _ => ⟨rfl, rfl⟩, fun _ => rfl⟩ fun _ => rfl
  | @dropped s node packet there =>
      refine ofNode there ((node.release_shifts s.packetId packet _).counts ?_)
        (fun _ _ => by simp [SimulationStep.stay?])
        (fun n differs _ _ => by simp [SimulationStep.stay?, Ne.symm differs])
        ⟨fun _ => ⟨rfl, rfl⟩, fun _ => rfl⟩ fun _ => rfl
      cases s.reason <;> exact ⟨rfl, rfl, rfl, rfl⟩
  | @delivered s node packet there =>
      exact ofNode there (node.release_shifts s.packetId packet _)
        (fun _ _ => by simp [SimulationStep.stay?])
        (fun n differs _ _ => by simp [SimulationStep.stay?, Ne.symm differs])
        ⟨fun _ => ⟨rfl, rfl⟩, fun _ => rfl⟩ fun _ => rfl
  | @congested s node there =>
      exact ofNode there ((ReplayedNode.Shifts.refl node _).counts ⟨rfl, rfl, rfl, rfl⟩)
        (fun _ _ => rfl) (fun _ _ _ _ => rfl) ⟨fun _ => ⟨rfl, rfl⟩, fun _ => rfl⟩ fun _ => rfl
  | @delayed s node packet there held =>
      exact ofNode there (ReplayedNode.slow_shifts held s.extraDelay _)
        (fun _ _ => rfl) (fun _ _ _ _ => rfl) ⟨fun _ => ⟨rfl, rfl⟩, fun _ => rfl⟩ fun _ => rfl

/-! What a replay knows of the steps it has replayed. -/

structure Mirrors (this : Replay) (trace : List SimulationStep) : Prop where
  nodes : ∀ n node, this.nodes.lookup n = some node →
    node.status = nodeStatus n trace ∧ node.lastBufferClear = lastClear n trace ∧
      ∀ id, node.arrival id = entered n id trace
  links : ∀ l link, this.links.lookup l = some link →
    link.status = linkStatus l trace ∧ link.lastDownRelative = lastLinkDown l trace
  flights : ∀ id, this.flight id = openFlight id trace
  sizes : ∀ n node, this.nodes.lookup n = some node → ∀ id, node.sizeOf id = sizeIn n id trace

theorem Mirrors.shifts {trace : List SimulationStep} (mirrors : this.Mirrors trace)
    (shifts : this.Shifts next step) : next.Mirrors (trace ++ [step]) where
  nodes n node' found := by
    obtain ⟨node, before, shift⟩ := shifts.nodes n node' found
    obtain ⟨status, clear, arrival⟩ := mirrors.nodes n node before
    refine ⟨?_, ?_, fun id => ?_⟩
    · rw [shift.status, nodeStatus_concat, status]
    · rw [shift.clear, lastClear, latest_concat, clear, lastClear]
    · rw [shift.arrival, entered_concat, arrival, mirrors.flights]
  links l link' found := by
    obtain ⟨link, before, status, down⟩ := shifts.links l link' found
    obtain ⟨status', down'⟩ := mirrors.links l link before
    refine ⟨?_, ?_⟩
    · rw [status, linkStatus_concat, status']
    · rw [down, lastLinkDown, latest_concat, down', lastLinkDown]
  flights id := by rw [shifts.flights, openFlight_concat, mirrors.flights]
  sizes n node' found id := by
    obtain ⟨node, before, shift⟩ := shifts.nodes n node' found
    rw [shift.size, sizeIn_concat, mirrors.sizes n node before, mirrors.flights]

/-- A replay that differs from another at most in what it keeps of buffer usages and times. -/
structure Sampled (this next : Replay) : Prop where
  linkMetadata : next.linkMetadata = this.linkMetadata
  nodeMetadata : next.nodeMetadata = this.nodeMetadata
  links : next.links = this.links
  inFlight : next.inFlightPackets = this.inFlightPackets
  lookup : ∀ n, ∃ used, next.nodes.lookup n =
    (this.nodes.lookup n).map fun node => { node with maxBufferUsage := used }

theorem Sampled.refl (this : Replay) : this.Sampled this := by
  refine ⟨rfl, rfl, rfl, rfl, fun n => ?_⟩
  cases found : this.nodes.lookup n with
  | none => exact ⟨0, rfl⟩
  | some node => exact ⟨node.maxBufferUsage, rfl⟩

theorem Sampled.trans {last : Replay} (first : this.Sampled next) (second : next.Sampled last) :
    this.Sampled last := by
  refine ⟨second.linkMetadata.trans first.linkMetadata,
    second.nodeMetadata.trans first.nodeMetadata, second.links.trans first.links,
    second.inFlight.trans first.inFlight, fun n => ?_⟩
  obtain ⟨used, before⟩ := first.lookup n
  obtain ⟨used', after⟩ := second.lookup n
  refine ⟨used', ?_⟩
  rw [after, before, Option.map_map]
  rfl

theorem Sampled.symm (sampled : this.Sampled next) : next.Sampled this := by
  refine ⟨sampled.linkMetadata.symm, sampled.nodeMetadata.symm, sampled.links.symm,
    sampled.inFlight.symm, fun n => ?_⟩
  obtain ⟨used, same⟩ := sampled.lookup n
  rw [same]
  cases found : this.nodes.lookup n with
  | none => exact ⟨0, rfl⟩
  | some node => exact ⟨node.maxBufferUsage, rfl⟩

theorem Sampled.nodes (sampled : this.Sampled next) {n : NodeId} {node' : ReplayedNode}
    (found : next.nodes.lookup n = some node') : ∃ node used,
      this.nodes.lookup n = some node ∧ node' = { node with maxBufferUsage := used } := by
  obtain ⟨used, same⟩ := sampled.lookup n
  obtain ⟨node, before, rfl⟩ := Option.map_eq_some_iff.mp (same.symm.trans found)
  exact ⟨node, used, before, rfl⟩

theorem Sampled.nodeIds (sampled : this.Sampled next) (n : NodeId) :
    n ∈ next.nodes ↔ n ∈ this.nodes := by
  obtain ⟨used, same⟩ := sampled.lookup n
  rw [← AList.lookup_isSome, ← AList.lookup_isSome, same, Option.isSome_map]

theorem setNode_sampled {n : NodeId} {node : ReplayedNode} (found : this.nodes.lookup n = some node)
    (used : Nat) : this.Sampled (this.setNode n { node with maxBufferUsage := used }) := by
  refine ⟨rfl, rfl, rfl, rfl, fun n' => ?_⟩
  rw [setNode, lookup_insert]
  split
  · next same =>
      subst same
      exact ⟨used, by rw [found]; rfl⟩
  · exact (Sampled.refl this).lookup n'

theorem updateMaxBufferUsage_sampled {order : List NodeId}
    (yields : (this.updateMaxBufferUsage order).Yields next) : this.Sampled next := by
  induction order generalizing this with
  | nil =>
      obtain rfl := Tracked.yields_pure.mp yields
      exact .refl this
  | cons n order ih =>
      unfold updateMaxBufferUsage at yields
      split at yields
      · exact ih yields
      · next node found =>
          have set := setNode_sampled found (max node.bufferUsage node.maxBufferUsage)
          obtain ⟨metadata, -, yields⟩ := Tracked.yields_bind.mp yields
          split at yields
          · obtain ⟨-, -, same⟩ := Tracked.yields_bind.mp yields
            obtain rfl := Tracked.yields_pure.mp same
            exact set
          · exact set.trans (ih yields)

theorem startTime_sampled {order : Option Nat → List NodeId} {time : Nat}
    (yields : (this.startTime order time).Yields next) : this.Sampled next := by
  unfold startTime at yields
  split at yields
  · obtain ⟨updated, update, same⟩ := Tracked.yields_bind.mp yields
    obtain rfl := Tracked.yields_pure.mp same
    have sampled := updateMaxBufferUsage_sampled update
    exact ⟨sampled.linkMetadata, sampled.nodeMetadata, sampled.links, sampled.inFlight,
      sampled.lookup⟩
  · obtain rfl := Tracked.yields_pure.mp yields
    exact .refl this

theorem finish_sampled {order : Option Nat → List NodeId}
    (yields : (this.finish order).Yields next) : this.Sampled next := by
  unfold finish at yields
  split at yields
  · exact updateMaxBufferUsage_sampled yields
  · obtain rfl := Tracked.yields_pure.mp yields
    exact .refl this

theorem Mirrors.sampled {trace : List SimulationStep} (mirrors : this.Mirrors trace)
    (sampled : this.Sampled next) : next.Mirrors trace := by
  refine ⟨fun n node' found => ?_, fun l link found => ?_, fun id => ?_, fun n node' found => ?_⟩
  · obtain ⟨node, used, before, rfl⟩ := sampled.nodes found
    exact mirrors.nodes n node before
  · exact mirrors.links l link (sampled.links ▸ found)
  · have same := mirrors.flights id
    unfold flight at same ⊢
    rwa [← sampled.inFlight] at same
  · obtain ⟨node, used, before, rfl⟩ := sampled.nodes found
    exact mirrors.sizes n node before

theorem replayStep_mirrors {trace : List SimulationStep} {order : Option Nat → List NodeId}
    (mirrors : this.Mirrors trace) (yields : (this.replayStep order step).Yields next) :
    next.Mirrors (trace ++ [step]) ∧ next.linkMetadata = this.linkMetadata := by
  obtain ⟨started, start, replayed⟩ := Tracked.yields_bind.mp yields
  have sampled := startTime_sampled start
  have shifts := (replayKind_turn replayed).shifts
  exact ⟨(mirrors.sampled sampled).shifts shifts, shifts.linkMetadata.trans sampled.linkMetadata⟩

theorem replaySteps_mirrors {done steps : List SimulationStep}
    {order : Option Nat → List NodeId} (mirrors : this.Mirrors done)
    (yields : (this.replaySteps order steps).Yields next) :
    next.Mirrors (done ++ steps) ∧ next.linkMetadata = this.linkMetadata := by
  induction steps generalizing this done with
  | nil =>
      obtain rfl := Tracked.yields_pure.mp yields
      exact ⟨by simpa using mirrors, rfl⟩
  | cons step steps ih =>
      obtain ⟨middle, first, rest⟩ := Tracked.yields_foldlM_cons.mp yields
      obtain ⟨mirrors', metadata⟩ := replayStep_mirrors mirrors first
      obtain ⟨mirrors'', metadata'⟩ := ih mirrors' rest
      exact ⟨by simpa using mirrors'', metadata'.trans metadata⟩

/-- The rule for a whole replay: what the start of a new time keeps and each step keeps,
given that the replay knows the steps before it. -/
theorem replaySteps_kept {done steps : List SimulationStep} {order : Option Nat → List NodeId}
    (Holds : List SimulationStep → Replay → Prop)
    (sampled : ∀ trace this next, Holds trace this → this.Sampled next → Holds trace next)
    (turned : ∀ trace this next step, this.Mirrors trace → Holds trace this →
      this.Turn step.relativeTime step.kind next → Holds (trace ++ [step]) next)
    (mirrors : this.Mirrors done) (holds : Holds done this)
    (yields : (this.replaySteps order steps).Yields next) : Holds (done ++ steps) next := by
  induction steps generalizing this done with
  | nil =>
      obtain rfl := Tracked.yields_pure.mp yields
      simpa using holds
  | cons step steps ih =>
      obtain ⟨middle, first, rest⟩ := Tracked.yields_foldlM_cons.mp yields
      obtain ⟨begun, start, replayed⟩ := Tracked.yields_bind.mp first
      have resampled := startTime_sampled start
      have kept := turned done begun middle step (mirrors.sampled resampled)
        (sampled done this begun holds resampled) (replayKind_turn replayed)
      simpa using ih (replayStep_mirrors mirrors first).1 kept rest

end Replay

end Workbench.Tracing
