import Workbench.Tracing.Delays

/-! The verifier on traces of any origin: it does not panic, and it finds the packets whose
link went down behind them, and some others. -/

set_option autoImplicit false

namespace Workbench.Tracing

open Workbench.Library Workbench.Network

/-! Panics. -/

/-- Steps in order of time do not make the replay panic. -/
theorem Replay.Consistent.replaySteps {this : Replay} {steps : List SimulationStep}
    (consistent : this.Consistent) (order : Option Nat → List NodeId)
    (sorted : (this.lastStepTime :: steps.map (·.relativeTime)).Pairwise (· ≤ ·)) :
    Safe (this.replaySteps order steps) Replay.Consistent := by
  induction steps generalizing this with
  | nil => exact .pure consistent
  | cons step steps ih =>
      obtain ⟨later, sorted⟩ := List.pairwise_cons.mp sorted
      have due := later step.relativeTime List.mem_cons_self
      rw [Replay.replaySteps, List.foldlM_cons]
      refine (consistent.replayStep order due).bind fun next replayed => ?_
      exact ih replayed.1 (replayed.2 ▸ sorted)

theorem Replay.Consistent.finish {this : Replay} (consistent : this.Consistent)
    (order : Option Nat → List NodeId) : Safe (this.finish order) Replay.Consistent := by
  unfold Replay.finish
  split
  · exact (consistent.updateMaxBufferUsage _).mono fun next kept => kept.1
  · exact .pure consistent

/-- Whatever steps it is made for, a verifier does not panic. -/
theorem SimulationVerifier.verify_neverPanics {steps : List SimulationStep} {spec : NetworkSpec}
    {this : SimulationVerifier} (made : SimulationVerifier.new steps spec = .ok this)
    (order : Option Nat → List NodeId) : (this.verify order).result ≠ .error .panic := by
  obtain ⟨made, same⟩ := new_made made
  have sorted : (0 :: this.steps.map (·.relativeTime)).Pairwise (· ≤ ·) := by
    rw [same]
    exact List.pairwise_cons.mpr ⟨fun _ _ => Nat.zero_le _, sortSteps_sorted steps⟩
  have safe : Safe (this.verify order) fun _ => True := by
    refine (made.consistent.replaySteps order sorted).bind fun replay kept => ?_
    exact (kept.finish order).bind fun _ _ => .pure trivial
  intro panicked
  exact safe.halts .panic panicked rfl

/-- Steps about a node, a link and a packet that the network does not have, out of order. -/
def stray : List SimulationStep :=
  [⟨7, .packetInTransit ⟨0, 9, 9⟩⟩, ⟨3, .packetLostInTransit ⟨5, 9⟩⟩,
    ⟨5, .packetInNode ⟨0, 0, 28, 9, false⟩⟩]

theorem SimulationVerifier.verify_neverPanics_stray : ∃ this : SimulationVerifier,
    SimulationVerifier.new stray .twoHosts = .ok this ∧
      (this.verify fun _ => [0, 1]).result ≠ .error .panic := by
  obtain ⟨this, made⟩ : ∃ this, SimulationVerifier.new stray .twoHosts = .ok this := ⟨_, rfl⟩
  exact ⟨this, made, verify_neverPanics made _⟩

/-! Outages. -/

namespace Landing

/-- The packet's last transit before it gets to the node. -/
structure Left (this : Landing) (earlier : List SimulationStep) (sent : SimulationStep)
    (between : List SimulationStep) : Prop where
  split : this.before = earlier ++ sent :: between
  departs : sent.departure? this.arrival.packetId = some this.flight.link
  last : ∀ step ∈ between, step.departure? this.arrival.packetId = none

/-- The link goes down between the packet's transit and its arrival. -/
def Overtaken (this : Landing) : Prop :=
  ∃ earlier sent between, this.Left earlier sent between ∧
    ∃ step ∈ between, step.linkStatus? this.flight.link = some .down

/-- The link goes down before the packet's transit, and at the time of the transit. -/
def Touched (this : Landing) : Prop :=
  ∃ earlier sent between, this.Left earlier sent between ∧
    ∃ step ∈ earlier, step.linkStatus? this.flight.link = some .down ∧
      step.relativeTime = sent.relativeTime

/-- The verifier reports the packet for an outage of its link as it replays the step. -/
def ReportedOffline (this : Landing) (verifier : SimulationVerifier)
    (order : Option Nat → List NodeId) : Prop :=
  ∃ replay : Replay,
    ((Replay.start { verifier with steps := [] }).replaySteps order this.before).Yields replay ∧
    ∃ sent down, .offlinePacketReceive this.arrival.nodeId this.flight.link sent down ∈
      (replay.replayStep order this.step).reports

variable {this : Landing}

theorem flight?_of_departure? {id : Uuid} {step : SimulationStep} {l : LinkId}
    (departs : step.departure? id = some l) : step.flight? id = some (some ⟨l, step.relativeTime⟩) := by
  unfold SimulationStep.departure? at departs
  unfold SimulationStep.flight?
  split at departs
  · next s _ =>
      by_cases same : s.packetId = id
      · simp_all
      · simp [same] at departs
  · cases departs

theorem departure?_of_flight? {id : Uuid} {step : SimulationStep} {flight : Flight}
    (flies : step.flight? id = some (some flight)) :
    step.departure? id = some flight.link ∧ step.relativeTime = flight.sent := by
  unfold SimulationStep.flight? at flies
  unfold SimulationStep.departure?
  cases kind : step.kind with
  | packetInTransit s =>
      rw [kind] at flies
      dsimp only at flies ⊢
      split at flies
      · next same =>
          obtain rfl := Option.some.inj (Option.some.inj flies)
          exact ⟨if_pos same, rfl⟩
      · cases flies
  | packetInNode s | packetLostInTransit s =>
      rw [kind] at flies
      dsimp only at flies
      split at flies <;> cases flies
  | _ => simp [kind] at flies

/-- A packet that is in flight has left for its link. -/
theorem left_of_openFlight (opened : openFlight this.arrival.packetId this.before = some this.flight) :
    ∃ earlier sent between, this.Left earlier sent between ∧ sent.relativeTime = this.flight.sent := by
  obtain ⟨earlier, sent, between, split, flies, silent⟩ :=
    latest_eq_some (Option.join_eq_some_iff.mp opened)
  obtain ⟨departs, time⟩ := departure?_of_flight? flies
  refine ⟨earlier, sent, between, ⟨split, departs, fun step member => ?_⟩, time⟩
  cases left : step.departure? this.arrival.packetId with
  | none => rfl
  | some l =>
      have flies := flight?_of_departure? left
      rw [silent step member] at flies
      cases flies

/-- The last transit is one step. -/
theorem Left.unique {earlier earlier' between between' : List SimulationStep}
    {sent sent' : SimulationStep} (left : this.Left earlier sent between)
    (left' : this.Left earlier' sent' between') :
    earlier = earlier' ∧ sent = sent' ∧ between = between' := by
  have same := left.split.symm.trans left'.split
  rcases List.append_eq_append_iff.mp same with ⟨skipped, first, rest⟩ | ⟨skipped, first, rest⟩
  · cases skipped with
    | nil =>
        obtain ⟨rfl, rfl⟩ := List.cons.inj rest
        exact ⟨by simpa using first.symm, rfl, rfl⟩
    | cons step skipped =>
        obtain ⟨rfl, rfl⟩ := List.cons.inj rest
        have departs := left.last sent' (by simp)
        rw [left'.departs] at departs
        cases departs
  · cases skipped with
    | nil =>
        obtain ⟨rfl, rfl⟩ := List.cons.inj rest
        exact ⟨by simpa using first, rfl, rfl⟩
    | cons step skipped =>
        obtain ⟨rfl, rfl⟩ := List.cons.inj rest
        have departs := left'.last sent (by simp)
        rw [left.departs] at departs
        cases departs

/-- By the trace, the link was last down not before the packet was sent exactly where it went
down behind the packet, or before it at the same time. -/
theorem lastLinkDown_iff
    (opened : openFlight this.arrival.packetId this.before = some this.flight)
    (sorted : (this.before.map (·.relativeTime)).Pairwise (· ≤ ·)) :
    (∃ down, lastLinkDown this.flight.link this.before = some down ∧ this.flight.sent ≤ down) ↔
      this.Overtaken ∨ this.Touched := by
  obtain ⟨earlier, sent, between, left, time⟩ := left_of_openFlight opened
  rw [left.split, List.map_append, List.pairwise_append] at sorted
  have whole : (this.before.map (·.relativeTime)).Pairwise (· ≤ ·) := by
    rwa [left.split, List.map_append, List.pairwise_append]
  obtain ⟨-, later, ascending⟩ := sorted
  have behind := (List.pairwise_cons.mp later).1
  have found {step : SimulationStep} (member : step ∈ this.before)
      (down : step.linkStatus? this.flight.link = some .down)
      (after : this.flight.sent ≤ step.relativeTime) :
      ∃ down, lastLinkDown this.flight.link this.before = some down ∧ this.flight.sent ≤ down := by
    have given : step.linkDown? this.flight.link = some step.relativeTime := if_pos down
    obtain ⟨last, latest, notAfter⟩ :=
      le_latest (SimulationStep.linkDown_time this.flight.link) whole member given
    exact ⟨last, latest, after.trans notAfter⟩
  constructor
  · rintro ⟨down, latest, after⟩
    obtain ⟨before, step, rest, split, given, -⟩ := latest_eq_some latest
    have stamp := SimulationStep.linkDown_time _ _ _ given
    have wentDown : step.linkStatus? this.flight.link = some .down := by
      unfold SimulationStep.linkDown? at given
      by_contra up
      simp [up] at given
    have member : step ∈ earlier ++ sent :: between := by
      rw [← left.split, split]
      simp
    -- The link went down before the packet left, and then at the same instant, or after.
    rcases List.mem_append.mp member with before | behind
    · refine .inr ⟨earlier, sent, between, left, step, before, wentDown, ?_⟩
      have notAfter : step.relativeTime ≤ sent.relativeTime :=
        ascending _ (List.mem_map_of_mem before) _ List.mem_cons_self
      omega
    · rcases List.mem_cons.mp behind with rfl | behind
      · have departs := left.departs
        unfold SimulationStep.departure? at departs
        unfold SimulationStep.linkStatus? at wentDown
        split at departs
        · simp_all
        · cases departs
      · exact .inl ⟨earlier, sent, between, left, step, behind, wentDown⟩
  · rintro (⟨_, _, _, left', step, member, down⟩ | ⟨_, _, _, left', step, member, down, same⟩)
    · obtain ⟨rfl, rfl, rfl⟩ := left.unique left'
      refine found ?_ down (time ▸ behind _ (List.mem_map_of_mem member))
      rw [left.split]
      simp [member]
    · obtain ⟨rfl, rfl, rfl⟩ := left.unique left'
      refine found ?_ down (by omega)
      rw [left.split]
      simp [member]

end Landing

namespace Replay

variable {this : Replay} {time : Nat} {s : PacketInNode} {inFlight : InFlightPacket}
  {metadata : LinkMetadata} {link : ReplayedLink}

/-- A packet that gets to a node is reported where its link was last down not before it was sent. -/
theorem packetInNode_offline (flies : this.inFlightPackets.lookup s.packetId = some inFlight)
    (known : this.linkMetadata.lookup inFlight.linkId = some metadata)
    (linked : this.links.lookup inFlight.linkId = some link)
    (sent : inFlight.sentAtRelative ≤ time) :
    (∃ sent down, .offlinePacketReceive s.nodeId inFlight.linkId sent down ∈
        (this.packetInNode time s).reports) ↔
      ∃ down, link.lastDownRelative = some down ∧ inFlight.sentAtRelative ≤ down := by
  have later : ¬ time < inFlight.sentAtRelative := by omega
  have checked (wrong : Prop) [Decidable wrong] (report : NonFatalError) :
      (Tracked.check wrong report : Verdict Unit).Yields () := Tracked.yields_check.mpr trivial
  have outage (report : NonFatalError) : report ∈ (checkOutage link inFlight s.nodeId).reports ↔
      ∃ down, link.lastDownRelative = some down ∧ inFlight.sentAtRelative ≤ down ∧
        report = .offlinePacketReceive s.nodeId inFlight.linkId inFlight.sentAtRelative down := by
    unfold checkOutage
    cases link.lastDownRelative with
    | none => simp [Pure.pure, Tracked.yield]
    | some down => simp
  have went : (checkOutage link inFlight s.nodeId).Yields () := checkOutage_yields.mpr trivial
  have inside (sent down : Nat) : .offlinePacketReceive s.nodeId inFlight.linkId sent down ∈
      (this.packetInNode time s).reports ↔ link.lastDownRelative = some down ∧
        inFlight.sentAtRelative ≤ down ∧ sent = inFlight.sentAtRelative := by
    simp only [packetInNode, flies, known, later, if_false, Tracked.unwrap, pure_bind, Replay.link,
      linked]
    rw [Tracked.mem_reports_bind (checked _ _), Tracked.mem_reports_check,
      Tracked.mem_reports_bind (checked _ _), Tracked.mem_reports_check,
      Tracked.mem_reports_bind went, outage]
    constructor
    · rintro (⟨-, wrong⟩ | ⟨-, wrong⟩ | ⟨down', last, after, same⟩ | received)
      · cases wrong
      · cases wrong
      · cases same
        exact ⟨last, after, rfl⟩
      · refine absurd rfl ((?_ : Reports (fun report => report ≠
          .offlinePacketReceive s.nodeId inFlight.linkId sent down) _).reports _ received)
        exact withNode_reports _ _ fun node => node.packetReceived_reports time (by simp) (by simp)
    · rintro ⟨last, after, rfl⟩
      exact .inr (.inr (.inl ⟨down, last, after, rfl⟩))
  constructor
  · rintro ⟨sent, down, reported⟩
    obtain ⟨last, after, -⟩ := (inside sent down).mp reported
    exact ⟨down, last, after⟩
  · rintro ⟨down, last, after⟩
    exact ⟨_, down, (inside _ down).mpr ⟨last, after, rfl⟩⟩

end Replay

namespace SimulationVerifier

/-- In a verification that goes through, a packet is reported where its link went down behind
it, or before it at the same time. -/
theorem reportedOffline_iff {steps : List SimulationStep} {spec : NetworkSpec}
    {this : SimulationVerifier} {order : Option Nat → List NodeId} {stats : SimulationStats}
    (made : SimulationVerifier.new steps spec = .ok this) (yields : (this.verify order).Yields stats)
    {landing : Landing} (landed : landing.In (sortSteps steps)) :
    landing.ReportedOffline this order ↔ landing.Overtaken ∨ landing.Touched := by
  obtain ⟨made, same⟩ := new_made made
  obtain ⟨opened, after, split⟩ := landed
  have sorted : (landing.before.map (·.relativeTime)).Pairwise (· ≤ ·) := by
    have all := sortSteps_sorted steps
    rw [split, List.map_append, List.pairwise_append] at all
    exact all.1
  obtain ⟨final, -, replayed, -⟩ := verify_yields.mp yields
  rw [Replay.replaySteps, same, split, Tracked.yields_foldlM_append] at replayed
  obtain ⟨replay, first, rest⟩ := replayed
  obtain ⟨next, stepped, -⟩ := Tracked.yields_foldlM_cons.mp rest
  obtain ⟨mirrors, -⟩ := Replay.replaySteps_mirrors made.start_mirrors first
  obtain ⟨begun, start, arrives⟩ := Tracked.yields_bind.mp stepped
  have sampled := Replay.startTime_sampled start
  have mirrors := mirrors.sampled sampled
  rw [List.nil_append] at mirrors
  -- the packet and its link as the replay has them
  obtain ⟨inFlight, found, flight⟩ := mirrors.inFlight opened
  have travelled : begun.Travelled landing.time inFlight := by
    cases Replay.replayKind_turn arrives with
    | created grounded =>
        rw [found] at grounded
        cases grounded
    | landed found' _ _ _ travelled | refused found' _ _ travelled =>
        rw [found] at found'
        exact Option.some.inj found' ▸ travelled
  obtain ⟨⟨metadata, known⟩, ⟨link, linked⟩, sent⟩ := travelled
  have judged := Replay.packetInNode_offline found known linked sent
  have link : landing.flight.link = inFlight.linkId := congrArg Flight.link flight
  have left : landing.flight.sent = inFlight.sentAtRelative := congrArg Flight.sent flight
  rw [(mirrors.links _ _ linked).2, ← link, ← left, Landing.lastLinkDown_iff opened sorted] at judged
  rw [← judged]
  have replayed (sent down : Nat) : .offlinePacketReceive landing.arrival.nodeId
      landing.flight.link sent down ∈ (replay.replayStep order landing.step).reports ↔
        .offlinePacketReceive landing.arrival.nodeId landing.flight.link sent down ∈
          (begun.packetInNode landing.time landing.arrival).reports :=
    Replay.mem_replayStep_reports start (by simp)
  constructor
  · rintro ⟨replay', replayed', sent, down, reported⟩
    obtain rfl := Except.ok.inj (first.symm.trans replayed')
    exact ⟨sent, down, (replayed sent down).mp reported⟩
  · rintro ⟨sent, down, reported⟩
    exact ⟨replay, first, sent, down, (replayed sent down).mpr reported⟩

/-- In a verification that goes through, the check of a packet's link is right exactly where
the link did not go down before the packet at the same time, or went down behind it as well. -/
theorem outageChecked_iff {steps : List SimulationStep} {spec : NetworkSpec}
    {this : SimulationVerifier} {order : Option Nat → List NodeId} {stats : SimulationStats}
    (made : SimulationVerifier.new steps spec = .ok this) (yields : (this.verify order).Yields stats)
    {landing : Landing} (landed : landing.In (sortSteps steps)) :
    (landing.ReportedOffline this order ↔ landing.Overtaken) ↔
      (landing.Touched → landing.Overtaken) := by
  have reported := reportedOffline_iff made yields landed
  constructor
  · intro exact touched
    exact exact.mp (reported.mpr (.inr touched))
  · intro harmless
    rw [reported]
    exact ⟨fun either => either.elim id harmless, .inl⟩

/-- A packet that is sent as its link comes back up, and gets to the other host. -/
def sentAtOnce : Landing where
  before := [⟨0, .networkEvent ⟨some falling, none⟩⟩, ⟨0, .networkEvent ⟨some rising, none⟩⟩,
    ⟨0, .packetInNode ⟨0, 0, 28, 0, false⟩⟩, ⟨0, .packetInTransit ⟨0, 0, 0⟩⟩]
  time := 10
  arrival := ⟨0, 0, 28, 1, false⟩
  flight := ⟨0, 0⟩

theorem outageChecked_iff_twoHosts : ∃ this stats,
    SimulationVerifier.new (sentAtOnce.before ++ [sentAtOnce.step]) .twoHosts = .ok this ∧
      (this.verify fun _ => [0, 1]).Yields stats ∧
      ((sentAtOnce.ReportedOffline this (fun _ => [0, 1]) ↔ sentAtOnce.Overtaken) ↔
        (sentAtOnce.Touched → sentAtOnce.Overtaken)) := by
  obtain ⟨this, stats, made, yields⟩ : ∃ this stats,
      SimulationVerifier.new (sentAtOnce.before ++ [sentAtOnce.step]) .twoHosts = .ok this ∧
        (this.verify fun _ => [0, 1]).Yields stats := ⟨_, _, rfl, rfl⟩
  exact ⟨this, stats, made, yields, outageChecked_iff made yields ⟨rfl, [], rfl⟩⟩

/-- The packet is reported, and nothing happens to the link behind it. -/
theorem reported_sentAtOnce : ∃ this stats,
    SimulationVerifier.new (sentAtOnce.before ++ [sentAtOnce.step]) .twoHosts = .ok this ∧
      (this.verify fun _ => [0, 1]).Yields stats ∧
      sentAtOnce.In (sortSteps (sentAtOnce.before ++ [sentAtOnce.step])) ∧
      sentAtOnce.ReportedOffline this (fun _ => [0, 1]) ∧ ¬ sentAtOnce.Overtaken := by
  obtain ⟨this, stats, made, yields⟩ : ∃ this stats,
      SimulationVerifier.new (sentAtOnce.before ++ [sentAtOnce.step]) .twoHosts = .ok this ∧
        (this.verify fun _ => [0, 1]).Yields stats := ⟨_, _, rfl, rfl⟩
  have landed : sentAtOnce.In (sortSteps (sentAtOnce.before ++ [sentAtOnce.step])) := ⟨rfl, [], rfl⟩
  have left : sentAtOnce.Left (sentAtOnce.before.take 3) ⟨0, .packetInTransit ⟨0, 0, 0⟩⟩ [] :=
    ⟨rfl, rfl, List.forall_mem_nil _⟩
  have touched : sentAtOnce.Touched :=
    ⟨_, _, _, left, ⟨0, .networkEvent ⟨some falling, none⟩⟩, List.mem_cons_self, rfl, rfl⟩
  refine ⟨this, stats, made, yields, landed, ?_, ?_⟩
  · exact (reportedOffline_iff made yields landed).mpr (.inr touched)
  · rintro ⟨earlier, sent, between, left', step, member, -⟩
    obtain ⟨-, -, rfl⟩ := left.unique left'
    exact absurd member List.not_mem_nil

end SimulationVerifier

end Workbench.Tracing
