import Workbench.Tracing.Complaints

/-! The statistics of the links, and the same told from the trace: the packets lost on a link, and
the most of its bandwidth that was used. -/

set_option autoImplicit false

namespace Workbench.Tracing

open Workbench.Library Workbench.Network

/-- The size that a packet had as it was last put on a link. -/
def sizeSent? (id : Uuid) (m : List SimulationStep × SimulationStep) : Option Nat :=
  match m.2.kind with
  | .packetInTransit s => if s.packetId = id then some ((sizeIn s.nodeId id m.1).getD 0) else none
  | _ => none

def flightSize (id : Uuid) (trace : List SimulationStep) : Nat :=
  (latest (sizeSent? id) (moments trace)).getD 0

/-- A packet in flight is lost, with the link that the step gives. -/
def lost? (l : LinkId) (m : List SimulationStep × SimulationStep) : Option Nat :=
  match m.2.kind with
  | .packetLostInTransit s =>
    if s.linkId = l ∧ (openFlight s.packetId m.1).isSome then some (flightSize s.packetId m.1) else none
  | _ => none

/-- The most that a link of some bandwidth carries of its window, for each second, as it takes
packets. -/
def peakBandwidth (bandwidth : Nat) (packets : List (Nat × Nat)) : Nat :=
  ((moments packets).map fun m => usedBandwidth bandwidth m.2.1 m.2.2 m.1).foldl max 0

/-- What a verification has of a link at its end. -/
def linkStats (spec : NetworkSpec) (trace : List SimulationStep) (l : LinkId) : Option LinkStats :=
  match describedLink spec l with
  | some metadata =>
    some ⟨tally (lost? l) trace, peakBandwidth metadata.bandwidthBps (carried l trace)⟩
  | none => if tally (lost? l) trace = .new then none else some ⟨tally (lost? l) trace, 0⟩

section

variable {l : LinkId} {id : Uuid} {trace : List SimulationStep} {step : SimulationStep}

theorem flightSize_concat :
    flightSize id (trace ++ [step]) = (sizeSent? id (trace, step)).getD (flightSize id trace) := by
  rw [flightSize, moments_concat, latest_concat, Option.getD_or, flightSize]

theorem peakBandwidth_concat (bandwidth : Nat) (packets : List (Nat × Nat)) (packet : Nat × Nat) :
    peakBandwidth bandwidth (packets ++ [packet]) = max (peakBandwidth bandwidth packets)
      (usedBandwidth bandwidth packet.1 packet.2 packets) := by
  simp [peakBandwidth]

theorem trackOne_ne (stats : PacketStats) (size : Nat) : stats.trackOne size ≠ .new := by
  intro same
  have packets := congrArg PacketStats.packets same
  simp [PacketStats.trackOne, PacketStats.new] at packets

end

namespace Replay

variable {this begun next : Replay} {before : List SimulationStep} {time : Nat}
  {kind : SimulationStepKind} {spec : NetworkSpec} {order : Option Nat → List NodeId}

/-! What does not concern links leaves their statistics. -/

theorem updateMaxBufferUsage_statsByLink {order : List NodeId}
    (yields : (this.updateMaxBufferUsage order).Yields next) : next.statsByLink = this.statsByLink := by
  induction order generalizing this with
  | nil =>
      obtain rfl := Tracked.yields_pure.mp yields
      rfl
  | cons n order ih =>
      unfold updateMaxBufferUsage at yields
      split at yields
      · exact ih yields
      · obtain ⟨metadata, -, yields⟩ := Tracked.yields_bind.mp yields
        split at yields
        · obtain ⟨-, -, same⟩ := Tracked.yields_bind.mp yields
          obtain rfl := Tracked.yields_pure.mp same
          rfl
        · have later := ih yields
          exact later

theorem startTime_statsByLink (yields : (this.startTime order time).Yields begun) :
    begun.statsByLink = this.statsByLink := by
  unfold startTime at yields
  split at yields
  · obtain ⟨updated, update, same⟩ := Tracked.yields_bind.mp yields
    obtain rfl := Tracked.yields_pure.mp same
    have updating := updateMaxBufferUsage_statsByLink update
    exact updating
  · obtain rfl := Tracked.yields_pure.mp yields
    rfl

theorem finish_statsByLink (yields : (this.finish order).Yields next) :
    next.statsByLink = this.statsByLink := by
  unfold finish at yields
  split at yields
  · exact updateMaxBufferUsage_statsByLink yields
  · obtain rfl := Tracked.yields_pure.mp yields
    rfl

/-- The links have the statistics of the steps so far. -/
structure LinksTell (this : Replay) (before : List SimulationStep) : Prop where
  sizes : ∀ id p, this.inFlightPackets.lookup id = some p → p.sizeBytes = flightSize id before
  lost : ∀ l, this.statsByLink.lookup l =
    if tally (lost? l) before = .new then none else some ⟨tally (lost? l) before, 0⟩
  peaks : ∀ l link metadata, this.links.lookup l = some link →
    this.linkMetadata.lookup l = some metadata →
    link.maxBandwidthUsageBps = peakBandwidth metadata.bandwidthBps (carried l before)

theorem LinksTell.sampled (tell : this.LinksTell before) (sampled : this.Sampled next)
    (stats : next.statsByLink = this.statsByLink) : next.LinksTell before where
  sizes id p found := tell.sizes id p (sampled.inFlight ▸ found)
  lost l := stats ▸ tell.lost l
  peaks l link metadata there known :=
    tell.peaks l link metadata (sampled.links ▸ there) (sampled.linkMetadata ▸ known)

theorem Turn.flightSizes (turn : this.Turn time kind next) (mirrors : this.Mirrors before) {id : Uuid}
    {inFlight : InFlightPacket} (found : next.inFlightPackets.lookup id = some inFlight)
    (sizes : ∀ p, this.inFlightPackets.lookup id = some p → p.sizeBytes = flightSize id before) :
    inFlight.sizeBytes = flightSize id (before ++ [⟨time, kind⟩]) := by
  rw [flightSize_concat]
  cases turn with
  | @sent s node packet metadata link link' used there held =>
      rcases of_lookup_insert found with ⟨rfl, rfl⟩ | ⟨differs, found⟩
      · simp [sizeSent?, mirrors.sizeIn there held]
      · simpa [sizeSent?, Ne.symm differs] using sizes inFlight found
  | landed | refused | lost => exact sizes inFlight (of_lookup_erase found).2
  | created | duplicated | dropped | missed | delivered | congested | delayed =>
      exact sizes inFlight found
  | event link node =>
      exact sizes inFlight (link.inFlight.symm.trans node.links.2.symm ▸ found)

/-- A step that loses no packet of the link counts for nothing. -/
theorem LinksTell.idle (tell : this.LinksTell before) {step : SimulationStep} {l : LinkId}
    (idle : lost? l (before, step) = none)
    (same : next.statsByLink.lookup l = this.statsByLink.lookup l) :
    next.statsByLink.lookup l = if tally (lost? l) (before ++ [step]) = .new then none
      else some ⟨tally (lost? l) (before ++ [step]), 0⟩ := by
  rw [tally_concat, idle, Option.elim_none, same]
  exact tell.lost l

theorem Turn.losses (turn : this.Turn time kind next) (mirrors : this.Mirrors before)
    (tell : this.LinksTell before) (l : LinkId) :
    next.statsByLink.lookup l = if tally (lost? l) (before ++ [⟨time, kind⟩]) = .new then none
      else some ⟨tally (lost? l) (before ++ [⟨time, kind⟩]), 0⟩ := by
  cases turn with
  | @lost s inFlight flies =>
      have flying : (openFlight s.packetId before).isSome = true := by
        rw [← mirrors.flights, flight, flies]
        rfl
      by_cases here : s.linkId = l
      · subst here
        have counted : lost? s.linkId (before, ⟨time, .packetLostInTransit s⟩) =
            some inFlight.sizeBytes := by
          simp [lost?, flying, tell.sizes _ inFlight flies]
        rw [tally_concat, counted, Option.elim_some, if_neg (trackOne_ne _ _)]
        have earlier := tell.lost s.linkId
        simp only [countLost, AList.lookup_insert, ground, earlier]
        split <;> simp_all [LinkStats.new]
      · refine tell.idle (by simp [lost?, here]) ?_
        exact AList.lookup_insert_ne (Ne.symm here)
  | @missed s grounded =>
      have off : openFlight s.packetId before = none := by
        rw [← mirrors.flights, flight, grounded]
        rfl
      exact tell.idle (by simp [lost?, off]) rfl
  | @event e middle next link node =>
      obtain ⟨link?, node?⟩ := e
      refine tell.idle rfl ?_
      cases link <;> cases node <;> rfl
  | _ => exact tell.idle rfl rfl

theorem LinkTurn.peaks {link? : Option LinkEventPayload} (turn : this.LinkTurn time link? next)
    {l : LinkId} {link' : ReplayedLink} (found : next.links.lookup l = some link') :
    ∃ link, this.links.lookup l = some link ∧
      link'.maxBandwidthUsageBps = link.maxBandwidthUsageBps := by
  cases turn with
  | none | other => exact ⟨link', found, rfl⟩
  | @switched event status link changed there =>
      rcases of_lookup_insert found with ⟨rfl, rfl⟩ | ⟨-, found⟩
      · exact ⟨link, there, rfl⟩
      · exact ⟨link', found, rfl⟩

theorem Turn.peaks (turn : this.Turn time kind next) (mirrors : this.Mirrors before)
    (recalls : this.Recalls before)
    (sorted : ((before ++ [(⟨time, kind⟩ : SimulationStep)]).map (·.relativeTime)).Pairwise (· ≤ ·))
    (tell : this.LinksTell before) {l : LinkId} {link' : ReplayedLink} {metadata : LinkMetadata}
    (found : next.links.lookup l = some link') (known : this.linkMetadata.lookup l = some metadata) :
    link'.maxBandwidthUsageBps =
      peakBandwidth metadata.bandwidthBps (carried l (before ++ [⟨time, kind⟩])) := by
  have idle {step : SimulationStep} (still : carriedBy? l (before, step) = none) {link : ReplayedLink}
      (there : this.links.lookup l = some link)
      (same : link'.maxBandwidthUsageBps = link.maxBandwidthUsageBps) :
      link'.maxBandwidthUsageBps =
        peakBandwidth metadata.bandwidthBps (carried l (before ++ [step])) := by
    rw [carried_concat, still, Option.toList_none, List.append_nil, same]
    exact tell.peaks l link metadata there known
  cases turn with
  | @sent s node packet metadata' link link'' used there held fits known' linked sent =>
      rcases of_lookup_insert found with ⟨rfl, rfl⟩ | ⟨differs, found⟩
      · obtain rfl := Option.some.inj (known.symm.trans known')
        obtain ⟨last, due, slid⟩ := recalls.windows _ link metadata linked known
        have carrying : carriedBy? s.linkId (before, ⟨time, .packetInTransit s⟩) =
            some (time, packet.sizeBytes) := by
          simp [carriedBy?, mirrors.sizeIn there held]
        have times := sorted.sublist (carried_times (l := s.linkId))
        rw [carried_concat, carrying] at times
        obtain ⟨used', link₁, sent', counted, -⟩ :=
          slid.call packet.sizeBytes times (due time (earlier_le sorted))
        have raised := ReplayedLink.packetSent_max sent
        obtain ⟨rfl, -⟩ := Prod.mk.inj (Option.some.inj (sent.symm.trans sent'))
        rw [carried_concat, carrying, Option.toList_some, peakBandwidth_concat, raised,
          tell.peaks _ link metadata linked known, counted]
        rfl
      · exact idle (by simp [carriedBy?, Ne.symm differs]) found rfl
  | event link node =>
      obtain ⟨link, there, same⟩ := link.peaks (node.links.1 ▸ found)
      exact idle rfl there same
  | _ => exact idle rfl found rfl

/-- A replay that is due for the next step, with the statistics of the links so far. -/
structure ReadyLinks (this : Replay) (spec : NetworkSpec) (before : List SimulationStep) : Prop
    extends this.Ready spec before where
  tell : this.LinksTell before

theorem ReadyLinks.replayStep {step : SimulationStep} (ready : this.ReadyLinks spec before)
    (sorted : ((before ++ [step]).map (·.relativeTime)).Pairwise (· ≤ ·))
    (yields : (this.replayStep order step).Yields next) : next.ReadyLinks spec (before ++ [step]) := by
  obtain ⟨begun, start, replayed⟩ := Tracked.yields_bind.mp yields
  have sampled := startTime_sampled start
  have mirrors := ready.mirrors.sampled sampled
  have recalls := ready.recalls.sampled sampled
  have tell := ready.tell.sampled sampled (startTime_statsByLink start)
  have turn := replayKind_turn replayed
  refine ⟨(ready.toReady.replayStep sorted yields).1, ?_, ?_, ?_⟩
  · exact fun id p found => turn.flightSizes mirrors found (tell.sizes id)
  · exact fun l => turn.losses mirrors tell l
  · intro l link metadata found known
    rw [turn.shifts.linkMetadata] at known
    exact turn.peaks mirrors recalls sorted tell found known

theorem ReadyLinks.replaySteps {done steps : List SimulationStep} (ready : this.ReadyLinks spec done)
    (sorted : ((done ++ steps).map (·.relativeTime)).Pairwise (· ≤ ·))
    (yields : (this.replaySteps order steps).Yields next) : next.ReadyLinks spec (done ++ steps) := by
  induction steps generalizing this done with
  | nil =>
      obtain rfl := Tracked.yields_pure.mp yields
      simpa using ready
  | cons step steps ih =>
      obtain ⟨middle, first, rest⟩ := Tracked.yields_foldlM_cons.mp yields
      rw [List.append_cons] at sorted ⊢
      have early : ((done ++ [step]).map (·.relativeTime)).Pairwise (· ≤ ·) := by
        rw [List.map_append] at sorted
        exact (List.pairwise_append.mp sorted).1
      exact ih (ready.replayStep early first) sorted rest

end Replay

namespace SimulationVerifier

variable {this : SimulationVerifier} {spec : NetworkSpec} {steps : List SimulationStep}
  {order : Option Nat → List NodeId} {stats : SimulationStats}

theorem new_readyLinks (made : SimulationVerifier.new steps spec = .ok this) :
    (Replay.start { this with steps := [] }).ReadyLinks spec [] := by
  obtain ⟨made', -⟩ := new_made made
  refine ⟨new_ready made, fun id p found => ?_, fun l => rfl, fun l link metadata found known => ?_⟩
  · have empty := made'.inFlight
    simp [Replay.start, empty] at found
  · obtain rfl := made'.links l link found
    rfl

/-- In a verification that goes through, the statistics of each link are those of the trace, and
a link that is not described has some iff a step has it lose a packet in flight. -/
theorem verify_links (made : SimulationVerifier.new steps spec = .ok this)
    (yields : (this.verify order).Yields stats) (l : LinkId) :
    stats.statsByLink l = linkStats spec (sortSteps steps) l := by
  obtain ⟨made', same⟩ := new_made made
  obtain ⟨replay, final, replayed, finished, rfl⟩ := verify_yields.mp yields
  rw [same] at replayed
  have ready := (new_readyLinks made).replaySteps
    (by simpa using sortSteps_sorted steps) replayed
  rw [List.nil_append] at ready
  have sampled := Replay.finish_sampled finished
  have tell := ready.tell.sampled sampled (Replay.finish_statsByLink finished)
  have described : final.linkMetadata.lookup l = describedLink spec l := by
    rw [sampled.linkMetadata]
    exact ready.links l
  have known : (final.links.lookup l).isSome = (final.linkMetadata.lookup l).isSome := by
    have portrays := ready.portrays.sampled sampled
    rw [Bool.eq_iff_iff, AList.lookup_isSome, AList.lookup_isSome]
    exact (portrays.links l).trans (portrays.linkMetadata l).symm
  unfold Replay.stats linkStats
  rw [← described]
  dsimp only
  cases there : final.links.lookup l with
  | none =>
      rw [there, Option.isSome_none, eq_comm, Option.isSome_eq_false_iff, Option.isNone_iff_eq_none] at known
      rw [known]
      exact tell.lost l
  | some link =>
      rw [there, Option.isSome_some, eq_comm] at known
      obtain ⟨metadata, held⟩ := Option.isSome_iff_exists.mp known
      rw [held, tell.lost l]
      dsimp only
      rw [tell.peaks l link metadata there held]
      split
      · next nothing =>
          rw [nothing]
          rfl
      · rfl

/-- A packet that the first host sends and its link loses. -/
def lostCrossing : List SimulationStep :=
  [⟨0, .packetInNode ⟨0, 0, 28, 0, false⟩⟩, ⟨0, .packetInTransit ⟨0, 0, 0⟩⟩,
    ⟨10, .packetLostInTransit ⟨0, 0⟩⟩]

theorem verify_links_lostCrossing : ∃ this stats, SimulationVerifier.new lostCrossing .twoHosts = .ok this ∧
    (this.verify fun _ => [0, 1]).Yields stats ∧ stats.statsByLink 0 = some ⟨⟨1, 28⟩, 22⟩ ∧
      stats.statsByLink 7 = none := by
  obtain ⟨this, stats, made, yields⟩ : ∃ this stats,
      SimulationVerifier.new lostCrossing .twoHosts = .ok this ∧
        (this.verify fun _ => [0, 1]).Yields stats := ⟨_, _, rfl, rfl⟩
  exact ⟨this, stats, made, yields, (verify_links made yields 0).trans (by decide +kernel),
    (verify_links made yields 7).trans (by decide +kernel)⟩

end SimulationVerifier

end Workbench.Tracing
