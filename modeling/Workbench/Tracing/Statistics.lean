import Workbench.Tracing.Lawful

/-! The statistics of a node, and the same counts taken from the trace. -/

set_option autoImplicit false

namespace Workbench.Tracing

open Workbench.Library Workbench.Network

/-- Packets and bytes counted along a trace: each step that gives a size counts once. -/
def tally (size? : List SimulationStep × SimulationStep → Option Nat) (trace : List SimulationStep) :
    PacketStats :=
  let sizes := (moments trace).filterMap size?
  ⟨sizes.length, sizes.sum⟩

variable {size? size?' : List SimulationStep × SimulationStep → Option Nat}
  {trace : List SimulationStep}

theorem tally_concat (step : SimulationStep) : tally size? (trace ++ [step]) =
    (size? (trace, step)).elim (tally size? trace) (tally size? trace).trackOne := by
  unfold tally
  cases counted : size? (trace, step) <;> simp [counted, PacketStats.trackOne]

theorem tally_congr (same : ∀ m ∈ moments trace, size? m = size?' m) :
    tally size? trace = tally size?' trace := by
  rw [tally, tally, List.filterMap_congr same]

theorem tally_eq_new : tally size? trace = .new ↔ ∀ m ∈ moments trace, size? m = none := by
  constructor
  · intro nothing
    have empty := congrArg PacketStats.packets nothing
    exact List.filterMap_eq_nil_iff.mp (List.length_eq_zero_iff.mp empty)
  · intro none
    rw [tally, List.filterMap_eq_nil_iff.mpr none]
    rfl

/-- A tally equals one that counts more steps only where it counts the same ones. -/
theorem tally_eq_wider (wider : ∀ m size, size? m = some size → size?' m = some size) :
    tally size? trace = tally size?' trace ↔
      ∀ m ∈ moments trace, (size?' m).isSome → (size? m).isSome := by
  constructor
  · intro same
    refine filterMap_length_eq (fun m _ counts => ?_) (congrArg PacketStats.packets same)
    obtain ⟨size, counted⟩ := Option.isSome_iff_exists.mp counts
    exact Option.isSome_of_mem (wider m size counted)
  · intro all
    refine tally_congr fun m member => ?_
    cases counted : size? m with
    | none =>
        cases counted' : size?' m with
        | none => rfl
        | some size => simpa [counted, counted'] using all m member
    | some size => exact (wider m size counted).symm

namespace SimulationStep

/-! What the steps of a trace count for, at a node: each with the size of its packet
as it was recorded when the packet got to the node. -/

def sent? (n : NodeId) (m : List SimulationStep × SimulationStep) : Option Nat :=
  match m.2.kind with
  | .packetInTransit s => if s.nodeId = n then some ((sizeIn n s.packetId m.1).getD 0) else none
  | _ => none

/-- The packet ends a transit. -/
def received? (n : NodeId) (m : List SimulationStep × SimulationStep) : Option Nat :=
  match m.2.kind with
  | .packetInNode s =>
    if s.nodeId = n ∧ (openFlight s.packetId m.1).isSome then some s.packetSizeBytes else none
  | _ => none

def droppedOnArrival? (n : NodeId) (m : List SimulationStep × SimulationStep) : Option Nat :=
  match m.2.kind with
  | .packetInNode s => if s.nodeId = n ∧ s.droppedOnArrival then some s.packetSizeBytes else none
  | _ => none

def duplicated? (n : NodeId) (m : List SimulationStep × SimulationStep) : Option Nat :=
  match m.2.kind with
  | .packetDuplicated s => if s.nodeId = n then some s.packetSizeBytes else none
  | _ => none

def dropped? (n : NodeId) (reason : DropReason) (m : List SimulationStep × SimulationStep) :
    Option Nat :=
  match m.2.kind with
  | .packetDropped s =>
    if s.nodeId = n ∧ s.reason = reason then some ((sizeIn n s.packetId m.1).getD 0) else none
  | _ => none

end SimulationStep

open SimulationStep in
/-- The counts of a node's statistics are those of the trace. -/
structure NodeStats.Tells (stats : NodeStats) (n : NodeId) (trace : List SimulationStep) : Prop where
  sent : stats.sent = tally (sent? n) trace
  received : stats.received = tally (received? n) trace
  droppedOnArrival : stats.droppedOnArrival = tally (droppedOnArrival? n) trace
  duplicates : stats.duplicates = tally (duplicated? n) trace
  droppedInjected : stats.droppedInjected = tally (dropped? n .random) trace
  droppedZeroTtl : stats.droppedZeroTtl = tally (dropped? n .zeroTtl) trace
  droppedBufferFull : stats.droppedBufferFull = tally (dropped? n .bufferFull) trace
  droppedBufferCleared : stats.droppedBufferCleared = tally (dropped? n .bufferCleared) trace

/-! What a replay counts. -/

/-- The counters of a replayed node. -/
inductive Counter where
  | sent
  | received
  | refused
  | duplicated
  | injected
  | zeroTtl
  | bufferFull
  | bufferCleared
  deriving DecidableEq, Repr

namespace ReplayedNode

def count (this : ReplayedNode) : Counter → PacketStats
  | .sent => this.sentPackets
  | .received => this.receivedPackets
  | .refused => this.droppedPacketsDown
  | .duplicated => this.duplicatedPackets
  | .injected => this.droppedPacketsInjected
  | .zeroTtl => this.droppedPacketsZeroTtl
  | .bufferFull => this.droppedPacketsBufferFull
  | .bufferCleared => this.droppedPacketsBufferCleared

end ReplayedNode

/-- The counter that a drop counts on. -/
def DropReason.counter : DropReason → Counter
  | .random | .zeroTtl => .injected
  | .bufferFull => .bufferFull
  | .bufferCleared => .bufferCleared

/-- The size that a step counts with on a counter of a node. -/
def Counter.counted? (n : NodeId) (c : Counter) (m : List SimulationStep × SimulationStep) :
    Option Nat :=
  match m.2.kind with
  | .packetInNode s =>
    if s.nodeId = n ∧ (openFlight s.packetId m.1).isSome ∧
        (c = .received ∨ c = .refused ∧ s.droppedOnArrival) then some s.packetSizeBytes
    else none
  | .packetDuplicated s =>
    if s.nodeId = n ∧ c = .duplicated then some s.packetSizeBytes else none
  | .packetInTransit s =>
    if s.nodeId = n ∧ c = .sent then some ((sizeIn n s.packetId m.1).getD 0) else none
  | .packetDropped s =>
    if s.nodeId = n ∧ c = s.reason.counter then some ((sizeIn n s.packetId m.1).getD 0) else none
  | _ => none

namespace Replay

variable {this next : Replay} {time : Nat} {kind : SimulationStepKind}

/-- A step counts at the node that it is about. -/
theorem counts_at {n m : NodeId} {node node' node'' : ReplayedNode} {map : HashMap NodeId ReplayedNode}
    {before : List SimulationStep} {step : SimulationStep} (nodes : map = this.nodes)
    (there : this.nodes.lookup m = some node)
    (found : (map.insert m node').lookup n = some node'')
    (here : ∀ c, node'.count c =
      (Counter.counted? m c (before, step)).elim (node.count c) (node.count c).trackOne)
    (elsewhere : ∀ c, n ≠ m → Counter.counted? n c (before, step) = none) :
    ∃ node, this.nodes.lookup n = some node ∧ ∀ c, node''.count c =
      (Counter.counted? n c (before, step)).elim (node.count c) (node.count c).trackOne := by
  rcases of_lookup_insert found with ⟨rfl, rfl⟩ | ⟨differs, found⟩
  · exact ⟨node, there, here⟩
  · refine ⟨node'', nodes ▸ found, fun c => ?_⟩
    rw [elsewhere c differs]
    rfl

theorem Mirrors.sizeIn {before : List SimulationStep} (mirrors : this.Mirrors before) {n : NodeId}
    {node : ReplayedNode} {id : Uuid} {packet : ReplayedPacket}
    (there : this.nodes.lookup n = some node) (held : node.packets.lookup id = some packet) :
    sizeIn n id before = some packet.sizeBytes := by
  rw [← mirrors.sizes n node there, ReplayedNode.sizeOf, held]
  rfl

theorem LinkTurn.nodes {link? : Option LinkEventPayload} (turn : this.LinkTurn time link? next) :
    next.nodes = this.nodes := by
  cases turn <;> rfl

theorem handleEvent_count (node : ReplayedNode) (event : NodeEventPayload) (now : Nat) (c : Counter) :
    (node.handleEvent event now).count c = node.count c := by
  unfold ReplayedNode.handleEvent
  cases event.status <;> cases event.clearBuffer <;> cases c <;> rfl

/-- The replay of a step counts what the step counts for. -/
theorem Turn.counts {before : List SimulationStep} (mirrors : this.Mirrors before)
    (turn : this.Turn time kind next) {n : NodeId} {node' : ReplayedNode}
    (found : next.nodes.lookup n = some node') :
    ∃ node, this.nodes.lookup n = some node ∧ ∀ c, node'.count c =
      (Counter.counted? n c (before, ⟨time, kind⟩)).elim (node.count c) (node.count c).trackOne := by
  cases turn with
  | @created s node grounded there =>
      refine counts_at rfl there found (fun c => ?_) fun c differs => ?_
      · have off : (openFlight s.packetId before).isSome = false := by
          rw [← mirrors.flights, flight, grounded]
          rfl
        cases c <;> simp [Counter.counted?, off] <;> rfl
      · simp [Counter.counted?, Ne.symm differs]
  | @landed s node inFlight flies there kept =>
      refine counts_at rfl there found (fun c => ?_) fun c differs => ?_
      · have on : (openFlight s.packetId before).isSome = true := by
          rw [← mirrors.flights, flight, flies]
          rfl
        cases c <;> simp [Counter.counted?, on, kept] <;> rfl
      · simp [Counter.counted?, Ne.symm differs]
  | @refused s node inFlight flies there dropped =>
      refine counts_at rfl there found (fun c => ?_) fun c differs => ?_
      · have on : (openFlight s.packetId before).isSome = true := by
          rw [← mirrors.flights, flight, flies]
          rfl
        cases c <;> simp [Counter.counted?, on, dropped] <;> rfl
      · simp [Counter.counted?, Ne.symm differs]
  | duplicated there =>
      refine counts_at rfl there found (fun c => ?_) fun c differs => ?_
      · cases c <;> simp [Counter.counted?] <;> rfl
      · simp [Counter.counted?, Ne.symm differs]
  | @dropped s node packet there held =>
      refine counts_at rfl there found (fun c => ?_) fun c differs => ?_
      · have size := mirrors.sizeIn there held
        cases reason : s.reason <;> cases c <;>
          simp [Counter.counted?, size, reason, DropReason.counter] <;> rfl
      · simp [Counter.counted?, Ne.symm differs]
  | sent there held =>
      refine counts_at rfl there found (fun c => ?_) fun c differs => ?_
      · have size := mirrors.sizeIn there held
        cases c <;> simp [Counter.counted?, size] <;> rfl
      · simp [Counter.counted?, Ne.symm differs]
  | delivered there | congested there | delayed there =>
      exact counts_at rfl there found (fun c => by cases c <;> rfl) fun c _ => rfl
  | lost | missed => exact ⟨node', found, fun c => rfl⟩
  | @event e middle next link node =>
      obtain ⟨link?, node?⟩ := e
      cases node with
      | none => exact ⟨node', link.nodes ▸ found, fun c => rfl⟩
      | @changed event node there =>
          exact counts_at link.nodes (link.nodes ▸ there) found
            (fun c => handleEvent_count node event time c) fun c _ => rfl

/-- The counters of every node are those of the trace. -/
def Counted (trace : List SimulationStep) (this : Replay) : Prop :=
  ∀ n node, this.nodes.lookup n = some node → ∀ c, node.count c = tally (Counter.counted? n c) trace

theorem Counted.sampled {trace : List SimulationStep} (counted : this.Counted trace)
    (sampled : this.Sampled next) : next.Counted trace := by
  intro n node' found c
  obtain ⟨node, used, before, rfl⟩ := sampled.nodes found
  rw [← counted n node before c]
  cases c <;> rfl

theorem Counted.turn {trace : List SimulationStep} {step : SimulationStep}
    (mirrors : this.Mirrors trace) (counted : this.Counted trace)
    (turn : this.Turn step.relativeTime step.kind next) : next.Counted (trace ++ [step]) := by
  intro n node' found c
  obtain ⟨node, before, counts⟩ := turn.counts mirrors found
  rw [counts c, counted n node before c, tally_concat]

end Replay

/-- No drop at the node is for want of time to live, and no packet is dropped on arrival
there that comes from no link. -/
def Plain (n : NodeId) (trace : List SimulationStep) : Prop :=
  ∀ before step after, trace = before ++ step :: after →
    (∀ s, step.kind = .packetDropped s → s.nodeId = n → s.reason ≠ .zeroTtl) ∧
    ∀ s, step.kind = .packetInNode s → s.nodeId = n → s.droppedOnArrival = true →
      (openFlight s.packetId before).isSome

namespace SimulationVerifier

open SimulationStep

variable {n : NodeId} {trace : List SimulationStep}

theorem plain_iff : Plain n trace ↔ (∀ m ∈ moments trace, dropped? n .zeroTtl m = none) ∧
    ∀ m ∈ moments trace, (droppedOnArrival? n m).isSome → (Counter.counted? n .refused m).isSome := by
  constructor
  · intro plain
    refine ⟨fun m member => ?_, fun m member dropped => ?_⟩
    · obtain ⟨after, split⟩ := mem_moments.mp member
      obtain ⟨kept, -⟩ := plain m.1 m.2 after split
      unfold dropped?
      split
      · next s same => exact if_neg fun here => kept s same here.1 here.2
      · rfl
    · obtain ⟨after, split⟩ := mem_moments.mp member
      obtain ⟨-, lands⟩ := plain m.1 m.2 after split
      unfold droppedOnArrival? at dropped
      split at dropped
      · next s same =>
          split at dropped
          · next here =>
              have flies := lands s same here.1 here.2
              simp [Counter.counted?, same, here.1, here.2, flies]
          · cases dropped
      · cases dropped
  · rintro ⟨kept, lands⟩ before step after split
    have member : (before, step) ∈ moments trace := mem_moments.mpr ⟨after, split⟩
    refine ⟨fun s same here zero => ?_, fun s same here dropped => ?_⟩
    · simpa [dropped?, same, here, zero] using kept _ member
    · have counted := lands _ member (by simp [droppedOnArrival?, same, here, dropped])
      by_contra grounded
      simp [Counter.counted?, same, grounded] at counted

theorem counted_sent : Counter.counted? n .sent = sent? n := by
  funext ⟨before, time, kind⟩
  cases kind with
  | packetDropped s =>
      cases reason : s.reason <;> simp [Counter.counted?, sent?, reason, DropReason.counter]
  | _ => simp [Counter.counted?, sent?]

theorem counted_received : Counter.counted? n .received = received? n := by
  funext ⟨before, time, kind⟩
  cases kind with
  | packetDropped s =>
      cases reason : s.reason <;> simp [Counter.counted?, received?, reason, DropReason.counter]
  | _ => simp [Counter.counted?, received?]

theorem counted_duplicated : Counter.counted? n .duplicated = duplicated? n := by
  funext ⟨before, time, kind⟩
  cases kind with
  | packetDropped s =>
      cases reason : s.reason <;> simp [Counter.counted?, duplicated?, reason, DropReason.counter]
  | _ => simp [Counter.counted?, duplicated?]

theorem counted_bufferFull : Counter.counted? n .bufferFull = dropped? n .bufferFull := by
  funext ⟨before, time, kind⟩
  cases kind with
  | packetDropped s =>
      cases reason : s.reason <;> simp [Counter.counted?, dropped?, reason, DropReason.counter]
  | _ => simp [Counter.counted?, dropped?]

theorem counted_bufferCleared : Counter.counted? n .bufferCleared = dropped? n .bufferCleared := by
  funext ⟨before, time, kind⟩
  cases kind with
  | packetDropped s =>
      cases reason : s.reason <;> simp [Counter.counted?, dropped?, reason, DropReason.counter]
  | _ => simp [Counter.counted?, dropped?]

theorem counted_zeroTtl (m : List SimulationStep × SimulationStep) :
    Counter.counted? n .zeroTtl m = none := by
  obtain ⟨before, time, kind⟩ := m
  cases kind with
  | packetDropped s => cases reason : s.reason <;> simp [Counter.counted?, reason, DropReason.counter]
  | _ => simp [Counter.counted?]

/-- Where no drop is for want of time to live, what counts as injected is random. -/
theorem counted_injected {m : List SimulationStep × SimulationStep}
    (kept : dropped? n .zeroTtl m = none) :
    Counter.counted? n .injected m = dropped? n .random m := by
  obtain ⟨before, time, kind⟩ := m
  cases kind with
  | packetDropped s =>
      cases reason : s.reason <;>
        simp_all [Counter.counted?, dropped?, DropReason.counter]
  | _ => simp [Counter.counted?, dropped?]

theorem refused_wider (m : List SimulationStep × SimulationStep) (size : Nat)
    (counts : Counter.counted? n .refused m = some size) : droppedOnArrival? n m = some size := by
  obtain ⟨before, time, kind⟩ := m
  cases kind with
  | packetInNode s =>
      simp only [Counter.counted?, reduceCtorEq, true_and, false_or] at counts
      split at counts
      · next here =>
          simp only [droppedOnArrival?, here.1, here.2.2, and_self, if_true]
          exact counts
      · cases counts
  | packetDropped s =>
      cases reason : s.reason <;> simp [Counter.counted?, reason, DropReason.counter] at counts
  | _ => simp [Counter.counted?] at counts

/-- A node whose counters are those of the trace has the statistics of the trace where
the two ways to count agree. -/
theorem tells_iff {node : ReplayedNode}
    (counted : ∀ c, node.count c = tally (Counter.counted? n c) trace) :
    node.stats.Tells n trace ↔ Plain n trace := by
  have lands : node.count .refused = tally (droppedOnArrival? n) trace ↔ ∀ m ∈ moments trace,
      (droppedOnArrival? n m).isSome → (Counter.counted? n .refused m).isSome := by
    rw [counted]
    exact tally_eq_wider refused_wider
  have kept : node.count .zeroTtl = tally (dropped? n .zeroTtl) trace ↔
      ∀ m ∈ moments trace, dropped? n .zeroTtl m = none := by
    have new : node.count .zeroTtl = .new := by
      rw [counted, tally_eq_new]
      exact fun m _ => counted_zeroTtl m
    rw [new, eq_comm, tally_eq_new]
  rw [plain_iff]
  constructor
  · exact fun tells => ⟨kept.mp tells.droppedZeroTtl, lands.mp tells.droppedOnArrival⟩
  · rintro ⟨timely, landing⟩
    refine ⟨?_, ?_, lands.mpr landing, ?_, ?_, kept.mpr timely, ?_, ?_⟩
    · exact counted_sent ▸ counted .sent
    · exact counted_received ▸ counted .received
    · exact counted_duplicated ▸ counted .duplicated
    · exact (counted .injected).trans (tally_congr fun m member => counted_injected (timely m member))
    · exact counted_bufferFull ▸ counted .bufferFull
    · exact counted_bufferCleared ▸ counted .bufferCleared

variable {this : SimulationVerifier}

theorem Made.counted {spec : NetworkSpec} (made : this.Made spec) :
    (Replay.start { this with steps := [] }).Counted [] := by
  intro n node found c
  obtain rfl := made.nodes n node found
  cases c <;> rfl

/-- In a verification that goes through, the statistics of a node are those of the trace
iff no drop there is for want of time to live, and no packet is dropped on its arrival
there from nowhere. -/
theorem verify_tells_iff {steps : List SimulationStep} {spec : NetworkSpec} {stats : SimulationStats}
    (order : Option Nat → List NodeId) (made : SimulationVerifier.new steps spec = .ok this)
    (yields : (this.verify order).Yields stats) :
    ∀ n node, stats.statsByNode n = some node →
      (node.Tells n (sortSteps steps) ↔ Plain n (sortSteps steps)) := by
  obtain ⟨made, same⟩ := new_made made
  obtain ⟨replay, final, replayed, finished, rfl⟩ := verify_yields.mp yields
  have counted := Replay.replaySteps_kept (fun trace this => this.Counted trace)
    (fun _ _ _ counted sampled => counted.sampled sampled)
    (fun _ _ _ _ mirrors counted turn => counted.turn mirrors turn)
    made.start_mirrors made.counted replayed
  have ended : final.Counted (sortSteps steps) := by
    rw [List.nil_append, same] at counted
    exact counted.sampled (Replay.finish_sampled finished)
  intro n node found
  obtain ⟨replayed, there, rfl⟩ := Option.map_eq_some_iff.mp found
  exact tells_iff (ended n replayed there)

theorem verify_tells_iff_twoHosts : ∃ (this : SimulationVerifier) (stats : SimulationStats),
    SimulationVerifier.new refusedCrossing .twoHosts = .ok this ∧
      (this.verify fun _ => [0, 1]).Clean stats ∧ (stats.statsByNode 1).isSome ∧
      ∀ n node, stats.statsByNode n = some node →
        (node.Tells n (sortSteps refusedCrossing) ↔ Plain n (sortSteps refusedCrossing)) := by
  have verified : ∃ (this : SimulationVerifier) (stats : SimulationStats),
      SimulationVerifier.new refusedCrossing .twoHosts = .ok this ∧
        (this.verify fun _ => [0, 1]).Clean stats ∧ (stats.statsByNode 1).isSome :=
    ⟨_, _, rfl, rfl, rfl⟩
  obtain ⟨this, stats, made, clean, there⟩ := verified
  exact ⟨this, stats, made, clean, there, verify_tells_iff _ made clean.yields⟩

/-- A packet runs out of time to live at the first host. -/
def outOfTime : List SimulationStep :=
  [⟨0, .packetInNode ⟨0, 0, 28, 0, false⟩⟩, ⟨0, .packetDropped ⟨0, 0, .zeroTtl⟩⟩]

theorem outOfTime_injected : ∃ (this : SimulationVerifier) (stats : SimulationStats)
    (node : NodeStats), SimulationVerifier.new outOfTime .twoHosts = .ok this ∧
      (this.verify fun _ => [0, 1]).Clean stats ∧ stats.statsByNode 0 = some node ∧
      node.droppedZeroTtl = ⟨0, 0⟩ ∧ node.droppedInjected = ⟨1, 28⟩ ∧
      ¬ node.Tells 0 (sortSteps outOfTime) := by
  refine ⟨_, _, _, rfl, rfl, rfl, rfl, rfl, fun tells => ?_⟩
  have zero := tells.droppedZeroTtl
  cases zero

end SimulationVerifier

end Workbench.Tracing
