import Mathlib.Order.Nat
import Workbench.Library.HighWater
import Workbench.Tracing.Holdings
import Workbench.Tracing.Iteration

/-! The greatest buffer usage of each node, as a verification reports it and as the
trace has it. An update of the usages breaks off at the first node that exceeds its
buffer, so the nodes that are iterated after it miss the update. -/

set_option autoImplicit false

namespace Workbench.Tracing

open Workbench.Library Workbench.Network

namespace SimulationVerifier

/-- The nodes are iterated in an order that has each of them once, at every update. -/
def Iterates (this : SimulationVerifier) (order : Option Nat → List NodeId) : Prop :=
  ∀ time, (order time).Perm this.nodes.keys

def bufferSize (this : SimulationVerifier) (n : NodeId) : Nat :=
  ((this.nodeMetadata.lookup n).map (·.bufferSizeBytes)).getD 0

/-- The greatest usages are those of the trace, and each node whose greatest usage
exceeds its buffer is named in an error. -/
structure UsageExact (this : SimulationVerifier) (order : Option Nat → List NodeId)
    (stats : SimulationStats) : Prop where
  usage : ∀ n node, stats.statsByNode n = some node → node.maxBufferUsage = peakUsage n this.steps
  named : ∀ n ∈ this.nodes, this.bufferSize n < peakUsage n this.steps →
    ∃ used, .nodeExceedsBufferSize n (this.bufferSize n) used ∈ (this.verify order).reports

/-- Where a node holds more than its buffer, every other node has held its most before. -/
def PeakedBefore (this : SimulationVerifier) : Prop :=
  ∀ a ∈ this.nodes, ∀ b ∈ this.nodes, a ≠ b → ∀ t ∈ timestamps this.steps,
    this.bufferSize a < heldBytes a (upTo t this.steps) →
      peakUsage b this.steps ≤ peakUsage b (upBefore t this.steps)

end SimulationVerifier

namespace Replay

variable {this next : Replay} {trace : List SimulationStep}

/-- An update of the usages is a round over the nodes that raises high-water marks. -/
theorem updateMaxBufferUsage_sweep {order : List NodeId} {limit level marks : NodeId → Nat}
    (limits : ∀ n metadata, this.nodeMetadata.lookup n = some metadata →
      metadata.bufferSizeBytes = limit n)
    (levels : ∀ n node, this.nodes.lookup n = some node → node.bufferUsage = level n)
    (marked : ∀ n node, this.nodes.lookup n = some node → node.maxBufferUsage = marks n)
    (inside : ∀ n ∈ order, n ∈ this.nodes)
    (yields : (this.updateMaxBufferUsage order).Yields next) :
    (∀ n node, next.nodes.lookup n = some node →
      node.maxBufferUsage = (sweep limit level order marks).1 n) ∧
    ∀ n ∈ (sweep limit level order marks).2,
      ∃ used, .nodeExceedsBufferSize n (limit n) used ∈ (this.updateMaxBufferUsage order).reports := by
  induction order generalizing this marks with
  | nil =>
      obtain rfl := Tracked.yields_pure.mp yields
      exact ⟨marked, nofun⟩
  | cons n order ih =>
      obtain ⟨node, found⟩ := Option.isSome_iff_exists.mp
        (AList.lookup_isSome.mpr (inside n List.mem_cons_self))
      have sampled := setNode_sampled found (max node.bufferUsage node.maxBufferUsage)
      have raised : node.updateMaxBufferUsage.maxBufferUsage = max (level n) (marks n) := by
        rw [← levels n node found, ← marked n node found]
        rfl
      unfold updateMaxBufferUsage at yields ⊢
      simp only [found] at yields ⊢
      obtain ⟨metadata, known, rest⟩ := Tracked.yields_bind.mp yields
      rw [Tracked.reports_bind known]
      rw [Tracked.yields_unwrap] at known
      have size := limits n metadata known
      -- Raising one mark leaves the levels, and the marks of all other nodes.
      have marked' (n' : NodeId) (node' : ReplayedNode)
          (there : (this.setNode n node.updateMaxBufferUsage).nodes.lookup n' = some node') :
          node'.maxBufferUsage = Function.update marks n (max (level n) (marks n)) n' := by
        rcases of_lookup_insert there with ⟨rfl, rfl⟩ | ⟨differs, there⟩
        · rw [raised, Function.update_self]
        · rw [marked n' node' there, Function.update_of_ne differs]
      unfold sweep
      rw [size, raised] at rest ⊢
      dsimp only
      split at rest
      · next above =>
          obtain ⟨-, -, same⟩ := Tracked.yields_bind.mp rest
          obtain rfl := Tracked.yields_pure.mp same
          rw [if_pos above, if_pos above]
          refine ⟨marked', fun n' stops => ?_⟩
          obtain rfl := Option.some.inj stops
          exact ⟨_, List.mem_append_right _ List.mem_cons_self⟩
      · next within =>
          rw [if_neg within, if_neg within]
          have levels' (n' : NodeId) (node' : ReplayedNode)
              (there : (this.setNode n node.updateMaxBufferUsage).nodes.lookup n' = some node') :
              node'.bufferUsage = level n' := by
            obtain ⟨before, used, found', rfl⟩ := sampled.nodes there
            exact levels n' before found'
          have limits' : ∀ n' metadata, (this.setNode n node.updateMaxBufferUsage).nodeMetadata.lookup
              n' = some metadata → metadata.bufferSizeBytes = limit n' := limits
          obtain ⟨marks', names⟩ := ih limits' levels' marked'
            (fun n' member => (sampled.nodeIds n').mpr (inside n' (List.mem_cons_of_mem n member))) rest
          refine ⟨marks', fun n' stops => ?_⟩
          obtain ⟨used, named⟩ := names n' stops
          exact ⟨used, List.mem_append_right _ named⟩

end Replay

/-! The updates of a whole replay. -/

theorem upTo_append (before after : List SimulationStep) (t : Nat) :
    upTo t (before ++ after) = upTo t before ++ upTo t after := List.filter_append ..

theorem upTo_concat {trace : List SimulationStep} {step : SimulationStep} {t : Nat} (later : t < step.relativeTime) :
    upTo t (trace ++ [step]) = upTo t trace := by
  simp [upTo, not_le.mpr later]

theorem upTo_all {trace : List SimulationStep} {t : Nat}
    (past : ∀ step ∈ trace, step.relativeTime ≤ t) : upTo t trace = trace :=
  List.filter_eq_self.mpr fun step member => decide_eq_true (past step member)

theorem upTo_none {trace : List SimulationStep} {t : Nat}
    (later : ∀ step ∈ trace, t < step.relativeTime) : upTo t trace = [] := by
  refine List.filter_eq_nil_iff.mpr fun step member => ?_
  simpa using later step member

/-- The rounds of the updates at some times, each with the time that began when it was made. -/
def rounds (order : Option Nat → List NodeId) (trace : List SimulationStep)
    (updates : List (Nat × Option Nat)) : List (Round NodeId Nat) :=
  updates.map fun update => ⟨fun n => heldBytes n (upTo update.1 trace), order update.2⟩

namespace Replay

variable {this next : Replay} {trace : List SimulationStep} {verifier : SimulationVerifier}
  {order : Option Nat → List NodeId} {updates : List (Nat × Option Nat)}
  {reports : List NonFatalError} {time : Nat} {next? : Option Nat}

/-- The usages of a replay are those of the updates made so far: one after the last step
of each time before the current one. -/
structure Surveyed (verifier : SimulationVerifier) (order : Option Nat → List NodeId)
    (updates : List (Nat × Option Nat)) (trace : List SimulationStep)
    (reports : List NonFatalError) (this : Replay) : Prop where
  metadata : this.nodeMetadata = verifier.nodeMetadata
  nodeIds : ∀ n, n ∈ this.nodes ↔ n ∈ verifier.nodes
  marked : ∀ n node, this.nodes.lookup n = some node →
    node.maxBufferUsage = (survey verifier.bufferSize (rounds order trace updates)).1 n
  named : ∀ n ∈ (survey verifier.bufferSize (rounds order trace updates)).2,
    ∃ used, .nodeExceedsBufferSize n (verifier.bufferSize n) used ∈ reports
  ascending : (updates.map Prod.fst).Pairwise (· < ·)
  times : ∀ t, t ∈ updates.map Prod.fst ↔ (t = 0 ∨ t ∈ timestamps trace) ∧ t < this.lastStepTime
  past : ∀ step ∈ trace, step.relativeTime ≤ this.lastStepTime
  updated : ∀ t, this.lastBufferUsageUpdate = some t → t < this.lastStepTime

/-- The update after the last step of the current time. -/
theorem Surveyed.update (surveyed : this.Surveyed verifier order updates trace reports)
    (mirrors : this.Mirrors trace) (consistent : this.Consistent)
    (inside : ∀ n ∈ order next?, n ∈ verifier.nodes)
    (yields : (this.updateMaxBufferUsage (order next?)).Yields next) :
    (∀ n node, next.nodes.lookup n = some node → node.maxBufferUsage = (survey verifier.bufferSize
      (rounds order trace (updates ++ [(this.lastStepTime, next?)]))).1 n) ∧
    ∀ n ∈ (survey verifier.bufferSize
        (rounds order trace (updates ++ [(this.lastStepTime, next?)]))).2,
      ∃ used, .nodeExceedsBufferSize n (verifier.bufferSize n) used ∈
        reports ++ (this.updateMaxBufferUsage (order next?)).reports := by
  have limits (n : NodeId) (metadata : NodeMetadata)
      (known : this.nodeMetadata.lookup n = some metadata) :
      metadata.bufferSizeBytes = verifier.bufferSize n := by
    rw [surveyed.metadata] at known
    simp [SimulationVerifier.bufferSize, known]
  obtain ⟨marks, names⟩ := updateMaxBufferUsage_sweep limits
    (fun n node there => mirrors.bufferUsage consistent there) surveyed.marked
    (fun n member => (surveyed.nodeIds n).mpr (inside n member)) yields
  have split : rounds order trace (updates ++ [(this.lastStepTime, next?)]) =
      rounds order trace updates ++ [⟨fun n => heldBytes n trace, order next?⟩] := by
    simp [rounds, upTo_all surveyed.past]
  rw [split, survey_concat]
  refine ⟨marks, fun n member => ?_⟩
  rcases List.mem_append.mp member with old | new
  · obtain ⟨used, named⟩ := surveyed.named n old
    exact ⟨used, List.mem_append_left _ named⟩
  · obtain ⟨used, named⟩ := names n (Option.mem_toList.mp new)
    exact ⟨used, List.mem_append_right _ named⟩

/-- The times of the updates once the current time has had its own. -/
theorem Surveyed.times_next (surveyed : this.Surveyed verifier order updates trace reports)
    (now : this.lastStepTime = 0 ∨ this.lastStepTime ∈ timestamps trace) (next? : Option Nat) :
    ((updates ++ [(this.lastStepTime, next?)]).map Prod.fst).Pairwise (· < ·) ∧
      ∀ t, t ∈ (updates ++ [(this.lastStepTime, next?)]).map Prod.fst ↔
        t = 0 ∨ t ∈ timestamps trace := by
  rw [List.map_append]
  refine ⟨List.pairwise_append.mpr ⟨surveyed.ascending, List.pairwise_singleton _ _, ?_⟩, ?_⟩
  · intro t member now same
    obtain rfl := List.mem_singleton.mp same
    exact ((surveyed.times t).mp member).2
  · intro t
    rw [List.mem_append, surveyed.times, List.map_singleton, List.mem_singleton]
    constructor
    · rintro (⟨known, -⟩ | rfl)
      · exact known
      · exact now
    · intro known
      have reached : t ≤ this.lastStepTime := by
        rcases known with rfl | stamped
        · exact Nat.zero_le _
        · obtain ⟨step, member, rfl⟩ := mem_timestamps.mp stamped
          exact surveyed.past step member
      rcases Nat.lt_or_eq_of_le reached with earlier | same
      · exact .inl ⟨known, earlier⟩
      · exact .inr same

/-- The first step of a new time is replayed after the update for the time before it. -/
theorem Surveyed.startTime (surveyed : this.Surveyed verifier order updates trace reports)
    (mirrors : this.Mirrors trace) (consistent : this.Consistent)
    (inside : ∀ time, ∀ n ∈ order time, n ∈ verifier.nodes)
    (now : this.lastStepTime = 0 ∨ this.lastStepTime ∈ timestamps trace)
    (later : this.lastStepTime ≤ time) (yields : (this.startTime order time).Yields next) :
    next.lastStepTime = time ∧ ∃ updates, next.Surveyed verifier order updates trace
      (reports ++ (this.startTime order time).reports) := by
  have sampled := startTime_sampled yields
  unfold Replay.startTime at yields ⊢
  split at yields
  · next starts =>
      rw [if_pos starts]
      obtain ⟨updated, update, same⟩ := Tracked.yields_bind.mp yields
      obtain rfl := Tracked.yields_pure.mp same
      rw [Tracked.reports_bind update]
      obtain ⟨marked, named⟩ := surveyed.update mirrors consistent (inside _) update
      obtain ⟨ascending, times⟩ := surveyed.times_next now (some time)
      refine ⟨rfl, _, sampled.nodeMetadata.trans surveyed.metadata,
        fun n => (sampled.nodeIds n).trans (surveyed.nodeIds n), marked, fun n member => ?_,
        ascending, fun t => ?_, fun step member => (surveyed.past step member).trans later,
        fun t same => ?_⟩
      · obtain ⟨used, names⟩ := named n member
        rw [← List.append_assoc]
        exact ⟨used, List.mem_append_left _ names⟩
      · rw [times]
        refine (and_iff_left_of_imp fun known => ?_).symm
        have reached : t ≤ this.lastStepTime := by
          rcases known with rfl | stamped
          · exact Nat.zero_le _
          · obtain ⟨step, member, rfl⟩ := mem_timestamps.mp stamped
            exact surveyed.past step member
        exact reached.trans_lt (lt_of_le_of_ne later starts.symm)
      · obtain rfl := Option.some.inj same
        have kept := ((consistent.updateMaxBufferUsage _).yields updated update).2.lastStepTime
        exact kept ▸ lt_of_le_of_ne later starts.symm
  · next same =>
      rw [if_neg same]
      obtain rfl := Tracked.yields_pure.mp yields
      refine ⟨(not_not.mp same).symm, updates, ?_⟩
      simpa [Pure.pure, Tracked.yield] using surveyed

theorem Surveyed.turn {step : SimulationStep}
    (surveyed : this.Surveyed verifier order updates trace reports)
    (now : this.lastStepTime = step.relativeTime)
    (turn : this.Turn step.relativeTime step.kind next) :
    next.Surveyed verifier order updates (trace ++ [step]) reports := by
  have shifts := turn.shifts
  have before {t : Nat} (member : t ∈ updates.map Prod.fst) : t < step.relativeTime :=
    now ▸ ((surveyed.times t).mp member).2
  have same : rounds order (trace ++ [step]) updates = rounds order trace updates := by
    refine List.map_congr_left fun update member => ?_
    rw [upTo_concat (before (List.mem_map_of_mem member))]
  refine ⟨shifts.nodeMetadata.trans surveyed.metadata,
    fun n => (shifts.nodeIds n).trans (surveyed.nodeIds n), fun n node' found => ?_, ?_,
    surveyed.ascending, fun t => ?_, fun step' member => ?_, ?_⟩
  · obtain ⟨node, there, shift⟩ := shifts.nodes n node' found
    rw [shift.usage, same]
    exact surveyed.marked n node there
  · rw [same]
    exact surveyed.named
  · rw [surveyed.times, turn.times.1, now]
    refine and_congr_left fun earlier => or_congr_right ?_
    simp only [mem_timestamps, List.mem_append, List.mem_singleton]
    constructor
    · rintro ⟨step', member, stamped⟩
      exact ⟨step', .inl member, stamped⟩
    · rintro ⟨step', member | rfl, stamped⟩
      · exact ⟨step', member, stamped⟩
      · omega
  · rw [turn.times.1, now]
    rcases List.mem_append.mp member with old | new
    · exact now ▸ surveyed.past step' old
    · exact (List.mem_singleton.mp new ▸ le_refl _)
  · rw [turn.times.1, turn.times.2]
    exact surveyed.updated

theorem Surveyed.more (surveyed : this.Surveyed verifier order updates trace reports)
    (later : List NonFatalError) : this.Surveyed verifier order updates trace (reports ++ later) :=
  { surveyed with
    named := fun n member =>
      (surveyed.named n member).imp fun _ names => List.mem_append_left later names }

/-- What is known of a replay between two of its steps. -/
structure Known (verifier : SimulationVerifier) (order : Option Nat → List NodeId)
    (updates : List (Nat × Option Nat)) (trace : List SimulationStep)
    (reports : List NonFatalError) (this : Replay) : Prop where
  surveyed : this.Surveyed verifier order updates trace reports
  mirrors : this.Mirrors trace
  consistent : this.Consistent
  now : this.lastStepTime = 0 ∨ this.lastStepTime ∈ timestamps trace

theorem Known.replaySteps {steps : List SimulationStep}
    (known : this.Known verifier order updates trace reports)
    (inside : ∀ time, ∀ n ∈ order time, n ∈ verifier.nodes)
    (sorted : (this.lastStepTime :: steps.map (·.relativeTime)).Pairwise (· ≤ ·))
    (yields : (this.replaySteps order steps).Yields next) :
    ∃ updates, next.Known verifier order updates (trace ++ steps)
      (reports ++ (this.replaySteps order steps).reports) := by
  induction steps generalizing this trace updates reports with
  | nil =>
      obtain rfl := Tracked.yields_pure.mp yields
      exact ⟨updates, by simpa [Replay.replaySteps, Pure.pure, Tracked.yield] using known⟩
  | cons step steps ih =>
      obtain ⟨surveyed, mirrors, consistent, now⟩ := known
      obtain ⟨middle, first, rest⟩ := Tracked.yields_foldlM_cons.mp yields
      obtain ⟨begun, start, replayed⟩ := Tracked.yields_bind.mp first
      obtain ⟨later, sorted⟩ := List.pairwise_cons.mp sorted
      have due := later step.relativeTime List.mem_cons_self
      obtain ⟨starts, updates', begins⟩ := surveyed.startTime mirrors consistent inside now due start
      have turn := replayKind_turn replayed
      obtain ⟨settled, stopped⟩ := (consistent.replayStep order due).yields middle first
      have after : middle.Known verifier order updates' (trace ++ [step])
          (reports ++ (this.replayStep order step).reports) := by
        refine ⟨?_, (replayStep_mirrors mirrors first).1, settled, .inr ?_⟩
        · rw [replayStep, Tracked.reports_bind start, ← List.append_assoc]
          exact (begins.turn starts turn).more _
        · exact mem_timestamps.mpr ⟨step, by simp, stopped.symm⟩
      obtain ⟨updates'', final⟩ := ih after (stopped ▸ sorted) rest
      refine ⟨updates'', ?_⟩
      rw [Replay.replaySteps, List.foldlM_cons, Tracked.reports_bind first, ← List.append_assoc]
      simpa [Replay.replaySteps] using final

end Replay

namespace SimulationVerifier

variable {this : SimulationVerifier} {spec : NetworkSpec} {order : Option Nat → List NodeId}

theorem Made.known (made : this.Made spec) (order : Option Nat → List NodeId) :
    (Replay.start { this with steps := [] }).Known this order [] [] [] := by
  refine ⟨?_, made.start_mirrors, made.consistent, .inl rfl⟩
  constructor
  case metadata => rfl
  case nodeIds => exact fun _ => .rfl
  case marked =>
    intro n node found
    obtain rfl := made.nodes n node found
    rfl
  case named => exact fun n member => absurd member List.not_mem_nil
  case ascending => exact .nil
  case times => simp [Replay.start]
  case past => simp
  case updated => exact fun t same => by cases same

/-- A verification updates the usages after the last step of each time, and once before
any step, and reports what these rounds over the nodes find. -/
theorem Made.verify_surveyed {stats : SimulationStats} (made : this.Made spec)
    (sorted : (this.steps.map (·.relativeTime)).Pairwise (· ≤ ·)) (iterates : this.Iterates order)
    (yields : (this.verify order).Yields stats) : ∃ updates : List (Nat × Option Nat),
      (updates.map Prod.fst).Pairwise (· < ·) ∧
      (∀ t, t ∈ updates.map Prod.fst ↔ t = 0 ∨ t ∈ timestamps this.steps) ∧
      (∀ n, n ∈ this.nodes ↔ ∃ node, stats.statsByNode n = some node) ∧
      (∀ n node, stats.statsByNode n = some node →
        node.maxBufferUsage = (survey this.bufferSize (rounds order this.steps updates)).1 n) ∧
      ∀ n ∈ (survey this.bufferSize (rounds order this.steps updates)).2,
        ∃ used, .nodeExceedsBufferSize n (this.bufferSize n) used ∈ (this.verify order).reports := by
  obtain ⟨replay, final, replayed, finished, rfl⟩ := verify_yields.mp yields
  have inside (time : Option Nat) (n : NodeId) (member : n ∈ order time) : n ∈ this.nodes :=
    AList.mem_keys.mpr ((iterates time).mem_iff.mp member)
  have start := made.known order
  obtain ⟨updates, known⟩ := start.replaySteps inside
    (List.pairwise_cons.mpr ⟨fun _ _ => Nat.zero_le _, sorted⟩) replayed
  rw [List.nil_append, List.nil_append] at known
  obtain ⟨surveyed, mirrors, consistent, now⟩ := known
  unfold Replay.finish at finished
  have due : replay.lastBufferUsageUpdate ≠ some replay.lastStepTime :=
    fun same => absurd (surveyed.updated _ same) (lt_irrefl _)
  rw [if_pos due] at finished
  obtain ⟨marked, named⟩ := surveyed.update mirrors consistent (inside none) finished
  obtain ⟨ascending, times⟩ := surveyed.times_next now none
  refine ⟨_, ascending, times, fun n => ?_, fun n node found => ?_, fun n member => ?_⟩
  · have sampled := Replay.updateMaxBufferUsage_sampled finished
    rw [← surveyed.nodeIds, ← sampled.nodeIds, ← AList.lookup_isSome, Option.isSome_iff_exists]
    simp only [Replay.stats, Option.map_eq_some_iff]
    constructor
    · rintro ⟨node, there⟩
      exact ⟨node.stats, node, there, rfl⟩
    · rintro ⟨-, node, there, -⟩
      exact ⟨node, there⟩
  · obtain ⟨replayed, there, rfl⟩ := Option.map_eq_some_iff.mp found
    exact marked n replayed there
  · obtain ⟨used, names⟩ := named n member
    refine ⟨used, ?_⟩
    rw [verify, Tracked.reports_bind replayed, Tracked.reports_bind (a := final), ← List.append_assoc]
    · rw [Replay.finish, if_pos due]
      exact List.mem_append_left _ names
    · rwa [Replay.finish, if_pos due]

/-! The highest levels of these rounds, and those of the trace. -/

variable {trace : List SimulationStep} {updates front back : List (Nat × Option Nat)}
  {update : Nat × Option Nat} {n : NodeId}

theorem peak_rounds_le {bound : Nat} : peak (rounds order trace updates) n ≤ bound ↔
    ∀ t ∈ updates.map Prod.fst, heldBytes n (upTo t trace) ≤ bound := by
  rw [peak_le, rounds, List.forall_mem_map, List.forall_mem_map]

theorem rounds_append : rounds order trace (front ++ update :: back) = rounds order trace front ++
    ⟨fun n => heldBytes n (upTo update.1 trace), order update.2⟩ :: rounds order trace back := by
  simp [rounds]

/-- A node holds nothing before the first step. -/
theorem heldBytes_unstamped (unstamped : 0 ∉ timestamps trace) : heldBytes n (upTo 0 trace) = 0 := by
  have none : upTo 0 trace = [] := upTo_none fun step member =>
    Nat.pos_of_ne_zero fun zero => unstamped (mem_timestamps.mpr ⟨step, member, zero⟩)
  rw [none]
  rfl

theorem heldBytes_le_peakUsage {t : Nat} (known : t = 0 ∨ t ∈ timestamps trace) :
    heldBytes n (upTo t trace) ≤ peakUsage n trace := by
  by_cases stamped : t ∈ timestamps trace
  · exact peakUsage_le.mp (le_refl _) t stamped
  · obtain rfl := known.resolve_right stamped
    rw [heldBytes_unstamped stamped]
    exact Nat.zero_le _

/-- The highest levels of the updates are the greatest usages of the trace. -/
theorem peak_rounds (times : ∀ t, t ∈ updates.map Prod.fst ↔ t = 0 ∨ t ∈ timestamps trace) :
    peak (rounds order trace updates) n = peakUsage n trace := by
  refine le_antisymm (peak_rounds_le.mpr fun t member => ?_) (peakUsage_le.mpr fun t stamped => ?_)
  · exact heldBytes_le_peakUsage ((times t).mp member)
  · exact peak_rounds_le.mp (le_refl _) t ((times t).mpr (.inr stamped))

theorem upTo_upBefore {s t : Nat} (earlier : s < t) : upTo s (upBefore t trace) = upTo s trace := by
  unfold upTo upBefore
  rw [List.filter_filter]
  refine List.filter_congr fun step _ => ?_
  have bound : step.relativeTime ≤ s → step.relativeTime < t := fun within => by omega
  by_cases within : step.relativeTime ≤ s
  · simp [within, bound within]
  · simp [within]

theorem mem_timestamps_upBefore {s t : Nat} :
    s ∈ timestamps (upBefore t trace) ↔ s ∈ timestamps trace ∧ s < t := by
  simp only [mem_timestamps, upBefore, List.mem_filter, decide_eq_true_eq]
  constructor
  · rintro ⟨step, ⟨member, earlier⟩, rfl⟩
    exact ⟨⟨step, member, rfl⟩, earlier⟩
  · rintro ⟨⟨step, member, rfl⟩, earlier⟩
    exact ⟨step, ⟨member, earlier⟩, rfl⟩

/-- The updates before one of them have the highest levels of the trace before its time. -/
theorem peak_rounds_front
    (ascending : ((front ++ update :: back).map Prod.fst).Pairwise (· < ·))
    (times : ∀ t, t ∈ (front ++ update :: back).map Prod.fst ↔ t = 0 ∨ t ∈ timestamps trace) :
    peak (rounds order trace front) n = peakUsage n (upBefore update.1 trace) := by
  rw [List.map_append, List.map_cons] at ascending times
  obtain ⟨-, ascends, apart⟩ := List.pairwise_append.mp ascending
  refine le_antisymm (peak_rounds_le.mpr fun t member => ?_) (peakUsage_le.mpr fun t stamped => ?_)
  · have earlier : t < update.1 := apart t member update.1 List.mem_cons_self
    rw [← upTo_upBefore earlier]
    refine heldBytes_le_peakUsage ?_
    rw [mem_timestamps_upBefore]
    exact ((times t).mp (List.mem_append_left _ member)).imp_right fun stamped => ⟨stamped, earlier⟩
  · obtain ⟨stamped, earlier⟩ := mem_timestamps_upBefore.mp stamped
    rw [upTo_upBefore earlier]
    refine peak_rounds_le.mp (le_refl _) t ?_
    rcases List.mem_append.mp ((times t).mpr (.inr stamped)) with before | after
    · exact before
    · rcases List.mem_cons.mp after with same | after
      · omega
      · have := (List.pairwise_cons.mp ascends).1 t after
        omega

/-- In whatever order nodes are iterated, a verification reports the greatest usages of
the trace, and all that exceed their buffers, iff wherever a node exceeds its buffer the
others have held their most before. -/
theorem usageExact_iff {steps : List SimulationStep} {first : Option Nat → List NodeId}
    {stats : SimulationStats} (made : SimulationVerifier.new steps spec = .ok this)
    (yields : (this.verify first).Yields stats) :
    (∀ order stats, this.Iterates order → (this.verify order).Yields stats →
      this.UsageExact order stats) ↔ this.PeakedBefore := by
  obtain ⟨made, same⟩ := new_made made
  have sorted : (this.steps.map (·.relativeTime)).Pairwise (· ≤ ·) := same ▸ sortSteps_sorted steps
  constructor
  · intro exact' a inside b inside' differs t stamped above
    -- An order that always starts with the node that exceeds its buffer.
    have iterates : this.Iterates fun _ => a :: this.nodes.keys.erase a :=
      fun _ => (List.perm_cons_erase (AList.mem_keys.mp inside)).symm
    obtain ⟨stats, yields⟩ := made.verify_yields_any yields fun _ => a :: this.nodes.keys.erase a
    obtain ⟨updates, ascending, times, present, marked, -⟩ := made.verify_surveyed sorted iterates yields
    obtain ⟨update, member, rfl⟩ := List.mem_map.mp ((times t).mpr (.inr stamped))
    obtain ⟨front, back, rfl⟩ := List.append_of_mem member
    obtain ⟨node, found⟩ := (present b).mp inside'
    rw [← (exact' _ stats iterates yields).usage b node found, marked b node found,
      ← peak_rounds_front ascending times]
    have all (r : Round NodeId Nat) (within : r ∈ rounds (fun _ => a :: this.nodes.keys.erase a)
        this.steps (front ++ update :: back)) : r.order = a :: this.nodes.keys.erase a := by
      obtain ⟨update, -, rfl⟩ := List.mem_map.mp within
      rfl
    rw [rounds_append] at all ⊢
    have exceeds : this.bufferSize a < (⟨fun n => heldBytes n (upTo update.1 this.steps),
      a :: this.nodes.keys.erase a⟩ : Round NodeId Nat).level a := above
    exact (survey_ahead exceeds all differs.symm).1
  · intro peaked order stats iterates yields
    obtain ⟨updates, ascending, times, present, marked, named⟩ :=
      made.verify_surveyed sorted iterates yields
    have settled : Settled this.bufferSize (· ∈ this.nodes) (rounds order this.steps updates) := by
      intro front r back split a b inside inside' differs above
      rw [peak_rounds times]
      obtain ⟨early, rest, rfl, rfl, split'⟩ := List.map_eq_append_iff.mp split
      obtain ⟨update, late, rfl, rfl, rfl⟩ := List.map_eq_cons_iff.mp split'
      refine (peaked a inside b inside' differs update.1 ?_ above).trans
        (peak_rounds_front ascending times).ge
      by_contra unstamped
      have zero : update.1 = 0 := ((times update.1).mp (by simp)).resolve_right unstamped
      have nothing : heldBytes a (upTo update.1 this.steps) = 0 := by
        rw [zero] at unstamped ⊢
        exact heldBytes_unstamped unstamped
      have exceeds : this.bufferSize a < heldBytes a (upTo update.1 this.steps) := above
      rw [nothing] at exceeds
      exact Nat.not_lt_zero _ exceeds
    have complete : ∀ r ∈ rounds order this.steps updates, ∀ k, k ∈ r.order ↔ k ∈ this.nodes := by
      intro r member k
      obtain ⟨update, -, rfl⟩ := List.mem_map.mp member
      exact (iterates update.2).mem_iff.trans AList.mem_keys.symm
    obtain ⟨reached, exceeding⟩ := survey_of_settled settled complete
    refine ⟨fun n node found => ?_, fun n inside above => ?_⟩
    · rw [marked n node found, reached n ((present n).mpr ⟨node, found⟩), peak_rounds times]
    · rw [← peak_rounds times] at above
      exact named n (exceeding n inside above)

theorem usageExact_iff_twoHosts : ∃ this : SimulationVerifier,
    SimulationVerifier.new refusedCrossing .twoHosts = .ok this ∧
      ((∀ order stats, this.Iterates order → (this.verify order).Yields stats →
        this.UsageExact order stats) ↔ this.PeakedBefore) := by
  have verified : ∃ (this : SimulationVerifier) (stats : SimulationStats),
      SimulationVerifier.new refusedCrossing .twoHosts = .ok this ∧
        (this.verify fun _ => [0, 1]).Clean stats :=
    ⟨_, _, rfl, rfl⟩
  obtain ⟨this, stats, made, clean⟩ := verified
  exact ⟨this, made, usageExact_iff made clean.yields⟩

/-- Each of two hosts gets a packet that is too large for its buffer. -/
def bothOverfull : List SimulationStep :=
  [⟨0, .packetInNode ⟨0, 0, 200, 0, false⟩⟩, ⟨0, .packetInNode ⟨1, 1, 200, 1, false⟩⟩]

/-- The second host is not heard of where the first one is iterated before it. -/
theorem overfull_missed : ∃ (this : SimulationVerifier) (stats : SimulationStats)
    (node : NodeStats), SimulationVerifier.new bothOverfull .twoHosts = .ok this ∧
      this.Iterates (fun _ => [0, 1]) ∧ (this.verify fun _ => [0, 1]).Yields stats ∧
      stats.statsByNode 1 = some node ∧ node.maxBufferUsage = 0 ∧
      (this.verify fun _ => [0, 1]).reports = [.nodeExceedsBufferSize 0 100 200] ∧
      ¬ this.UsageExact (fun _ => [0, 1]) stats := by
  have verified : ∃ (this : SimulationVerifier) (stats : SimulationStats) (node : NodeStats),
      SimulationVerifier.new bothOverfull .twoHosts = .ok this ∧
        this.verify (fun _ => [0, 1]) = ⟨[.nodeExceedsBufferSize 0 100 200], .ok stats⟩ ∧
        this.nodes.keys = [1, 0] ∧ this.steps = bothOverfull ∧
        stats.statsByNode 1 = some node ∧ node.maxBufferUsage = 0 :=
    ⟨_, _, _, rfl, rfl, rfl, rfl, rfl, rfl⟩
  obtain ⟨this, stats, node, made, ran, keys, steps, found, unused⟩ := verified
  refine ⟨this, stats, node, made, fun _ => ?_, by rw [ran]; rfl, found, unused, by rw [ran],
    fun exact' => ?_⟩
  · rw [keys]
    exact .swap 1 0 []
  · have used := exact'.usage 1 node found
    rw [unused, steps] at used
    revert used
    decide

end SimulationVerifier

end Workbench.Tracing
