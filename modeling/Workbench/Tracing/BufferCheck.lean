import Workbench.Tracing.Burden
import Workbench.Tracing.Usage

/-! The verifier's check of buffer sizes, on what a network records. It counts a packet from
its arrival to its departure, so also packets that wait in an endpoint of the node, and
those that no application ever reads. -/

set_option autoImplicit false

namespace Workbench.Network

open Workbench.Library Workbench.Tracing

variable {net : InMemoryNetwork} {s s' : State} {past : List (State × Action)}

/-- The last state of a run up to a time, with what led to it. -/
def asOf (t : Nat) (past : List (State × Action)) (s : State) :
    Option (List (State × Action) × State) :=
  (histories past s).find? fun history => decide (history.2.now ≤ t)

namespace State

/-- At the end of each instant of a run, the node has no more bytes than its buffer takes:
those that have reserved space there, those that wait in endpoints, and those overlooked. -/
def FitsBuffer (net : InMemoryNetwork) (past : List (State × Action)) (s : State) (n : NodeId) : Prop :=
  ∀ t history, asOf t past s = some history →
    burden history.1 history.2 n ≤ (net.nodes n).bufferSizeBytes

/-- A step records nothing about the times before its own. -/
theorem step_upTo {action : Action} {t : Nat} (taken : s.step net action = some s')
    (later : t < s'.now) : upTo t s'.trace = upTo t s.trace := by
  by_cases moves : ∃ duration, action = .advance duration
  · obtain ⟨duration, rfl⟩ := moves
    obtain rfl := Option.some.inj taken
    rfl
  · have now := step_now taken (not_exists.mp moves)
    obtain ⟨steps, grown, fresh⟩ := step_grows taken
    have none : upTo t steps = [] :=
      upTo_none fun step member => (now ▸ later).trans_le (fresh step member)
    rw [grown, upTo_append, none, List.append_nil]

/-- What was recorded up to a time is the trace of the last state up to that time. -/
theorem trace_asOf (run : Run (State.step net) (.initial net) past s) (t : Nat) :
    ∃ history, asOf t past s = some history ∧
      Run (State.step net) (.initial net) history.1 history.2 ∧
      history.2.trace = upTo t s.trace := by
  induction run with
  | start => exact ⟨([], .initial net), by simp [asOf, histories, initial], .start, rfl⟩
  | @next past s s' action run taken ih =>
      by_cases reached : s'.now ≤ t
      · have timely := timely_of_run (run.next taken)
        refine ⟨((s, action) :: past, s'), by simp [asOf, histories, reached], run.next taken, ?_⟩
        exact (upTo_all fun step member => (timely.past step member).trans reached).symm
      · obtain ⟨history, found, ran, same⟩ := ih
        refine ⟨history, ?_, ran, same.trans (step_upTo taken (not_le.mp reached)).symm⟩
        simpa [asOf, histories, reached] using found

end State

end Workbench.Network

namespace Workbench.Tracing

open Workbench.Library Workbench.Network

/-- No full node is reported under this id. -/
abbrev Unexceeded {α : Type} (n : NodeId) (x : Verdict α) : Prop :=
  Reports (fun report => ∀ size used, report ≠ .nodeExceedsBufferSize n size used) x

namespace Replay

variable {this next : Replay} {n : NodeId} {size : Nat} {order : Option Nat → List NodeId}
  {done rest : List SimulationStep}

/-- No update has found the node to hold more than its size. -/
structure Spared (n : NodeId) (size : Nat) (this : Replay) : Prop where
  known : ∀ metadata, this.nodeMetadata.lookup n = some metadata → metadata.bufferSizeBytes = size
  marked : ∀ node, this.nodes.lookup n = some node → node.maxBufferUsage ≤ size

/-- An update spares a node that holds no more than its size. -/
theorem Spared.updateMaxBufferUsage {order : List NodeId} (spared : this.Spared n size)
    (held : ∀ node, this.nodes.lookup n = some node → node.bufferUsage ≤ size) :
    (this.updateMaxBufferUsage order).Meets
      (fun report => ∀ size used, report ≠ .nodeExceedsBufferSize n size used) (fun _ => True)
      (·.Spared n size) := by
  induction order generalizing this with
  | nil => exact .pure spared
  | cons m order ih =>
      unfold Replay.updateMaxBufferUsage
      split
      · exact ih spared held
      · next node there =>
          -- the node itself stays within its size, and the others may do as they like
          have own (same : m = n) : node.updateMaxBufferUsage.maxBufferUsage ≤ size := by
            subst same
            exact max_le (held node there) (spared.marked node there)
          have marked : (this.setNode m node.updateMaxBufferUsage).Spared n size := by
            refine ⟨spared.known, fun node' found => ?_⟩
            rcases of_lookup_insert found with ⟨same, rfl⟩ | ⟨-, found⟩
            · exact own same.symm
            · exact spared.marked node' found
          refine .unwrap_bind (fun _ => trivial) fun metadata known => ?_
          split
          · next above =>
              refine .seq (.track ?_ trivial) fun _ => .pure marked
              intro size' used same
              obtain ⟨rfl, -, -⟩ := NonFatalError.nodeExceedsBufferSize.inj same
              rw [spared.known metadata known] at above
              exact absurd (own rfl) (not_le.mpr above)
          · refine ih marked fun node' found => ?_
            rcases of_lookup_insert found with ⟨rfl, rfl⟩ | ⟨-, found⟩
            · exact held node there
            · exact held node' found

/-- What is known of a replay between two of its steps where the node stays within its size. -/
structure Within (n : NodeId) (size : Nat) (done : List SimulationStep) (this : Replay) : Prop where
  spared : this.Spared n size
  mirrors : this.Mirrors done
  consistent : this.Consistent
  past : ∀ step ∈ done, step.relativeTime ≤ this.lastStepTime

/-- Between two times, a replay has in the node what the steps up to the first one tell. -/
theorem Within.held (within : this.Within n size done)
    (later : ∀ step ∈ rest, this.lastStepTime < step.relativeTime)
    (fits : ∀ t, heldBytes n (upTo t (done ++ rest)) ≤ size) {node : ReplayedNode}
    (there : this.nodes.lookup n = some node) : node.bufferUsage ≤ size := by
  have now := fits this.lastStepTime
  rw [upTo_append, upTo_all within.past, upTo_none later, List.append_nil] at now
  rwa [within.mirrors.bufferUsage within.consistent there]

theorem Within.startTime {time : Nat} (within : this.Within n size done)
    (later : ∀ step ∈ rest, time ≤ step.relativeTime) (due : this.lastStepTime ≤ time)
    (fits : ∀ t, heldBytes n (upTo t (done ++ rest)) ≤ size)
    (yields : (this.startTime order time).Yields next) :
    next.Within n size done ∧ next.lastStepTime = time ∧ Unexceeded n (this.startTime order time) := by
  have sampled := startTime_sampled yields
  obtain ⟨consistent, now⟩ := (within.consistent.startTime order due).yields next yields
  have rest (spared : next.Spared n size) : next.Within n size done :=
    ⟨spared, within.mirrors.sampled sampled, consistent,
      fun step member => now ▸ (within.past step member).trans due⟩
  unfold Replay.startTime at yields ⊢
  split at yields
  · -- a new time: all steps of the last one are done, so the node has what they tell
    next starts =>
      rw [if_pos starts]
      obtain ⟨updated, update, same⟩ := Tracked.yields_bind.mp yields
      obtain rfl := Tracked.yields_pure.mp same
      have spares : (this.updateMaxBufferUsage (order (some time))).Meets _ _ (·.Spared n size) :=
        within.spared.updateMaxBufferUsage fun node there => within.held (fun step member =>
          (lt_of_le_of_ne due starts.symm).trans_le (later step member)) fits there
      have spared := spares.yields updated update
      exact ⟨rest ⟨spared.known, spared.marked⟩, now,
        (spares.mono fun _ _ => trivial).seq fun _ => .pure trivial⟩
  · next same =>
      rw [if_neg same]
      obtain rfl := Tracked.yields_pure.mp yields
      exact ⟨rest within.spared, now, .pure trivial⟩

/-- The replay of a step does not look at the sizes of buffers. -/
theorem replayKind_unexceeded {time : Nat} {kind : SimulationStepKind} :
    Unexceeded n (this.replayKind time kind) := by
  refine replayKind_reports (fun report usual size used same => ?_) (by simp)
  rw [same] at usual
  cases usual

theorem Within.replaySteps {steps : List SimulationStep} (within : this.Within n size done)
    (sorted : (this.lastStepTime :: steps.map (·.relativeTime)).Pairwise (· ≤ ·))
    (fits : ∀ t, heldBytes n (upTo t (done ++ steps)) ≤ size)
    (yields : (this.replaySteps order steps).Yields next) :
    next.Within n size (done ++ steps) ∧ Unexceeded n (this.replaySteps order steps) := by
  induction steps generalizing this done with
  | nil =>
      obtain rfl := Tracked.yields_pure.mp yields
      exact ⟨by rwa [List.append_nil], .pure trivial⟩
  | cons step steps ih =>
      obtain ⟨middle, first, rest⟩ := Tracked.yields_foldlM_cons.mp yields
      obtain ⟨begun, start, replayed⟩ := Tracked.yields_bind.mp first
      obtain ⟨later, sorted⟩ := List.pairwise_cons.mp sorted
      have due := later step.relativeTime List.mem_cons_self
      have onwards : ∀ step' ∈ step :: steps, step.relativeTime ≤ step'.relativeTime := by
        rw [List.map_cons, List.pairwise_cons, List.forall_mem_map] at sorted
        exact List.forall_mem_cons.mpr ⟨le_refl _, sorted.1⟩
      obtain ⟨begins, now, silent⟩ := within.startTime onwards due fits start
      obtain ⟨settled, stopped⟩ := (within.consistent.replayStep order due).yields middle first
      have shifts := (replayKind_turn replayed).shifts
      have after : middle.Within n size (done ++ [step]) := by
        refine ⟨⟨fun metadata found => ?_, fun node found => ?_⟩,
          (replayStep_mirrors within.mirrors first).1, settled, ?_⟩
        · exact begins.spared.known metadata (shifts.nodeMetadata ▸ found)
        · obtain ⟨node', there, shift⟩ := shifts.nodes n node found
          exact shift.usage ▸ begins.spared.marked node' there
        · refine List.forall_mem_append.mpr ⟨fun old inside => ?_, ?_⟩
          · exact stopped ▸ (within.past old inside).trans due
          · exact List.forall_mem_singleton.mpr stopped.ge
      have quiet : Unexceeded n (this.replayStep order step) := by
        refine (silent.sole start).bind ?_
        rintro _ rfl
        exact replayKind_unexceeded
      obtain ⟨final, unexceeded⟩ := ih after (stopped ▸ sorted) (by simpa using fits) rest
      refine ⟨by simpa using final, ?_⟩
      rw [Replay.replaySteps, List.foldlM_cons]
      refine (quiet.sole first).bind ?_
      rintro _ rfl
      exact unexceeded

theorem Within.finish (within : this.Within n size done)
    (fits : ∀ t, heldBytes n (upTo t done) ≤ size) : Unexceeded n (this.finish order) := by
  unfold Replay.finish
  split
  · refine (within.spared.updateMaxBufferUsage fun node there => ?_).mono fun _ _ => trivial
    have whole : ∀ t, heldBytes n (upTo t (done ++ [])) ≤ size := by simpa using fits
    exact within.held (List.forall_mem_nil _) whole there
  · exact .pure trivial

end Replay

namespace SimulationVerifier

variable {this : SimulationVerifier} {spec : NetworkSpec} {net : InMemoryNetwork}
  {order : Option Nat → List NodeId} {n : NodeId}

/-- Of each node the verifier has the buffer size that the description gives it. -/
theorem new_bufferSize {steps : List SimulationStep} {metadata : NodeMetadata}
    (made : SimulationVerifier.new steps spec = .ok this)
    (known : this.nodeMetadata.lookup n = some metadata) :
    ∃ node ∈ spec.nodes, node.id = n ∧ metadata.bufferSizeBytes = node.bufferSizeBytes := by
  obtain ⟨first, noded, linked⟩ := bind_ok made
  have sizes := foldlM_ok (fun done made => ∀ n metadata, made.1.nodeMetadata.lookup n = some metadata →
    ∃ node ∈ done, node.id = n ∧ metadata.bufferSizeBytes = node.bufferSizeBytes) (by simp) ?_ noded
  have kept := foldlM_ok (fun _ made => made.nodeMetadata = first.1.nodeMetadata) rfl ?_ linked
  · exact sizes n metadata (kept ▸ known)
  · intro done made link made' same added
    unfold addLink at added
    split at added
    · cases added
    · cases added
    · exact Except.ok.inj added ▸ same
  · intro done made node made' sizes added n metadata found
    obtain ⟨filled, -, rest⟩ := bind_ok added
    obtain rfl := Except.ok.inj rest
    rcases of_lookup_insert found with ⟨rfl, rfl⟩ | ⟨-, found⟩
    · exact ⟨node, by simp, rfl, rfl⟩
    · obtain ⟨node', member, there⟩ := sizes n metadata found
      exact ⟨node', List.mem_append_left _ member, there⟩

theorem new_bufferSize_built {steps : List SimulationStep} {metadata : NodeMetadata}
    (made : SimulationVerifier.new steps spec = .ok this) (built : net.Built spec)
    (known : this.nodeMetadata.lookup n = some metadata) :
    metadata.bufferSizeBytes = (net.nodes n).bufferSizeBytes := by
  obtain ⟨node, member, rfl, same⟩ := new_bufferSize made known
  obtain ⟨linksAddrMap, made⟩ := built.nodes node member
  rw [same, (Node.new_ok made).2.2]

/-- At every time the replay has no more bytes in the node than the given size, and the
verification does not report that the node exceeds its buffer. -/
structure RespectsBuffer (this : SimulationVerifier) (order : Option Nat → List NodeId) (n : NodeId)
    (size : Nat) : Prop where
  held : ∀ t, ∃ (replay : Replay) (node : ReplayedNode),
    ((Replay.start { this with steps := [] }).replaySteps order (upTo t this.steps)).Yields replay ∧
      replay.nodes.lookup n = some node ∧ node.bufferUsage ≤ size
  unreported : ∀ limit used, .nodeExceedsBufferSize n limit used ∉ (this.verify order).reports

/-- Where a node never holds more than its size, it is not reported. -/
theorem Made.unexceeded {size : Nat} (made : this.Made spec)
    (known : ∀ metadata, this.nodeMetadata.lookup n = some metadata → metadata.bufferSizeBytes = size)
    (sorted : (this.steps.map (·.relativeTime)).Pairwise (· ≤ ·))
    (fits : ∀ t, heldBytes n (upTo t this.steps) ≤ size) {stats : SimulationStats}
    (yields : (this.verify order).Yields stats) : Unexceeded n (this.verify order) := by
  obtain ⟨replay, final, replayed, -, -⟩ := verify_yields.mp yields
  have start : (Replay.start { this with steps := [] }).Within n size [] := by
    refine ⟨⟨known, fun node found => ?_⟩, made.start_mirrors, made.consistent, List.forall_mem_nil _⟩
    obtain rfl := made.nodes n node found
    exact Nat.zero_le _
  obtain ⟨within, steps⟩ := start.replaySteps
    (List.pairwise_cons.mpr ⟨fun _ _ => Nat.zero_le _, sorted⟩) (by simpa using fits) replayed
  refine (steps.sole replayed).bind ?_
  rintro _ rfl
  exact (within.finish (by simpa using fits)).seq fun _ => .pure trivial

/-- Whatever a network did up to some moment, its verification finds a node within its buffer
iff the node had no more bytes than its buffer takes, counting also those that waited in
endpoints, and those that came there or left an endpoint without ever being read. -/
theorem respectsBuffer_iff {uuids : Nat → Uuid} {packetDelay : Nat → Nat → Nat}
    (accepted : InMemoryNetwork.initialize spec uuids packetDelay = .ok net)
    (fresh : Function.Injective uuids) {past : List (State × Action)} {s : State}
    (run : Run (State.step net) (.initial net) past s) (member : n ∈ net.nodeIds)
    (made : SimulationVerifier.new s.trace spec = .ok this) (order : Option Nat → List NodeId) :
    this.RespectsBuffer order n (net.nodes n).bufferSizeBytes ↔ State.FitsBuffer net past s n := by
  have built := InMemoryNetwork.initialized_built accepted
  have fresh : Function.Injective net.uuids := InMemoryNetwork.initialized_uuids accepted ▸ fresh
  have known (metadata : NodeMetadata) (found : this.nodeMetadata.lookup n = some metadata) :=
    new_bufferSize_built made built found
  have sorted := (State.timely_of_run run).sorted
  have expected := (State.follows_of_run fresh run).expected
  obtain ⟨made, same⟩ := new_made made
  rw [sortSteps_of_sorted sorted] at same
  -- what the replay has in the node at a time, as what the network had there
  have levels (t : Nat) : ∃ history, asOf t past s = some history ∧
      State.burden history.1 history.2 n = heldBytes n (upTo t s.trace) ∧
      ∃ (replay : Replay) (node : ReplayedNode), ((Replay.start { this with
        steps := [] }).replaySteps order (upTo t s.trace)).Yields replay ∧
        replay.nodes.lookup n = some node ∧ node.bufferUsage = heldBytes n (upTo t s.trace) := by
    obtain ⟨history, found, ran, trace⟩ := State.trace_asOf run t
    have whole : history.2.trace ++ [] = history.2.trace := List.append_nil _
    obtain ⟨replay, replayed, mirrors, -, covers, consistent⟩ :=
      made.replays_before built (whole.symm ▸ (State.timely_of_run ran).sorted)
        (whole.symm ▸ (State.follows_of_run fresh ran).expected) order
    obtain ⟨node, there⟩ := covers.node (.inl member)
    rw [← trace]
    exact ⟨history, found, (State.heldBytes_eq_burden fresh ran n).symm, replay, node, replayed, there,
      mirrors.bufferUsage consistent there⟩
  constructor
  · intro respects t history found
    obtain ⟨history', found', burden, replay, node, replayed, there, usage⟩ := levels t
    obtain rfl := Option.some.inj (found'.symm.trans found)
    obtain ⟨replay', node', replayed', there', bound⟩ := respects.held t
    rw [same] at replayed'
    obtain rfl := Except.ok.inj (replayed.symm.trans replayed')
    obtain rfl := Option.some.inj (there.symm.trans there')
    rwa [burden, ← usage]
  · intro fits
    have within (t : Nat) : heldBytes n (upTo t s.trace) ≤ (net.nodes n).bufferSizeBytes := by
      obtain ⟨history, found, burden, -⟩ := levels t
      exact burden ▸ fits t history found
    refine ⟨fun t => ?_, fun limit used reported => ?_⟩
    · obtain ⟨-, -, -, replay, node, replayed, there, usage⟩ := levels t
      exact ⟨replay, node, same ▸ replayed, there, usage ▸ within t⟩
    · obtain ⟨⟨stats, yields⟩, -⟩ :=
        made.verify_expected built (same ▸ sorted) (same ▸ by simpa using expected) order
      have unexceeded := made.unexceeded known (same ▸ sorted) (same ▸ within) yields
      exact unexceeded.reports _ reported limit used rfl

theorem respectsBuffer_iff_twoHosts : ∃ net past s this,
    InMemoryNetwork.initialize .twoHosts id (fun _ size => size) = .ok net ∧
      Run (State.step net) (.initial net) past s ∧ past.length = 5 ∧ 1 ∈ net.nodeIds ∧
      SimulationVerifier.new s.trace .twoHosts = .ok this ∧
      (this.RespectsBuffer (fun _ => [0, 1]) 1 (net.nodes 1).bufferSizeBytes ↔
        State.FitsBuffer net past s 1) := by
  obtain ⟨net, accepted, member, runs⟩ : ∃ net,
      InMemoryNetwork.initialize .twoHosts id (fun _ size => size) = .ok net ∧ 1 ∈ net.nodeIds ∧
      (attains (State.step net) (.initial net) [.sendUdp 0 greeting 0, .processBuffer 0 [], .pollLink 0,
        .advance 10, .pollForwarder 0 [] []]).isSome = true := ⟨_, rfl, by decide, by decide +kernel⟩
  obtain ⟨past, run, actions⟩ := Run.of_isSome (State.step net) (.initial net) _ runs
  have verifier (steps : List SimulationStep) :
      ∃ this, SimulationVerifier.new steps .twoHosts = .ok this := ⟨_, rfl⟩
  obtain ⟨this, made⟩ := verifier (State.trace _)
  exact ⟨net, past, _, this, accepted, run, by simpa using congrArg List.length actions, member, made,
    respectsBuffer_iff accepted Function.injective_id run member made _⟩

/-- A packet that takes more than half of the buffer of a host. -/
def letter : OwnedTransmit := { greeting with contents := List.replicate 24 0 }

/-- Two letters get to a host that does not read them. -/
def leftUnread : List Action :=
  [.sendUdp 0 letter 0, .processBuffer 0 [], .pollLink 0, .sendUdp 0 letter 0, .processBuffer 0 [],
    .advance 52, .pollLink 0, .pollLink 0, .advance 10, .pollForwarder 0 [] []]

def twoLetters : List SimulationStep :=
  [⟨0, .packetInNode ⟨0, 0, 52, 0, false⟩⟩, ⟨0, .packetInTransit ⟨0, 0, 0⟩⟩,
    ⟨0, .packetInNode ⟨1, 1, 52, 0, false⟩⟩, ⟨52, .packetInTransit ⟨1, 0, 0⟩⟩,
    ⟨62, .packetInNode ⟨0, 0, 52, 1, false⟩⟩, ⟨62, .packetInNode ⟨1, 1, 52, 1, false⟩⟩]

/-- The host that has not reserved a byte of its buffer is reported to exceed it. -/
theorem unread_exceeds : ∃ net past s this stats,
    InMemoryNetwork.initialize .twoHosts id (fun _ size => size) = .ok net ∧
      Run (State.step net) (.initial net) past s ∧ 1 ∈ net.nodeIds ∧
      (net.nodes 1).bufferSizeBytes = 100 ∧ s.reservations 1 = [] ∧
      SimulationVerifier.new s.trace .twoHosts = .ok this ∧
      this.verify (fun _ => [0, 1]) = ⟨[.nodeExceedsBufferSize 1 100 104], .ok stats⟩ ∧
      ¬ this.RespectsBuffer (fun _ => [0, 1]) 1 (net.nodes 1).bufferSizeBytes := by
  obtain ⟨net, accepted, member, size, runs⟩ : ∃ net,
      InMemoryNetwork.initialize .twoHosts id (fun _ size => size) = .ok net ∧ 1 ∈ net.nodeIds ∧
        (net.nodes 1).bufferSizeBytes = 100 ∧
        (attains (State.step net) (.initial net) leftUnread).any (fun s => decide <|
          s.reservations 1 = [] ∧ s.trace = twoLetters) = true :=
    ⟨_, rfl, by decide, rfl, by decide +kernel⟩
  obtain ⟨s, reached, holds⟩ := (Option.any_eq_true _ _).mp runs
  obtain ⟨unreserved, trace⟩ := of_decide_eq_true holds
  obtain ⟨this, stats, made, ran⟩ : ∃ this stats,
      SimulationVerifier.new twoLetters .twoHosts = .ok this ∧
        this.verify (fun _ => [0, 1]) = ⟨[.nodeExceedsBufferSize 1 100 104], .ok stats⟩ :=
    ⟨_, _, rfl, rfl⟩
  refine ⟨net, _, s, this, stats, accepted, Run.of_moves reached, member, size, unreserved, trace ▸ made,
    ran, fun respects => respects.unreported 100 104 ?_⟩
  rw [ran]
  exact List.mem_singleton.mpr rfl

end SimulationVerifier

end Workbench.Tracing
