import Workbench.Tracing.Acceptance
import Workbench.Tracing.Bandwidth
import Workbench.Tracing.Description

/-! What a verifier reports, told from the recorded steps alone: each step has its complaints,
by the steps before it and the links of the network. In a verification that goes through,
the errors that are reported are the complaints of its steps, one after the other, and the
nodes that exceed their buffers. -/

set_option autoImplicit false

namespace Workbench.Tracing

open Workbench.Library Workbench.Network

namespace SimulationStep

/-- The packet gets to a node, without a delay, is delayed there or leaves it. -/
def slow? (flying : Bool) (n : NodeId) (id : Uuid) (step : SimulationStep) : Option (Option Nat) :=
  match step.kind with
  | .packetExtraDelay s => if s.nodeId = n ∧ s.packetId = id then some (some s.extraDelay) else none
  | _ => (step.stay? flying n id).map (·.map fun _ => 0)

end SimulationStep

/-- The extra delay of a packet in a node. -/
def delayIn (n : NodeId) (id : Uuid) (trace : List SimulationStep) : Option Nat :=
  (latest (fun m => m.2.slow? (openFlight id m.1).isSome n id) (moments trace)).join

/-- The extra delay that a packet had as it was last put on a link. -/
def delaySent? (id : Uuid) (m : List SimulationStep × SimulationStep) : Option Nat :=
  match m.2.kind with
  | .packetInTransit s => if s.packetId = id then some ((delayIn s.nodeId id m.1).getD 0) else none
  | _ => none

def flightDelay (id : Uuid) (trace : List SimulationStep) : Nat :=
  (latest (delaySent? id) (moments trace)).getD 0

/-- The packets put on a link, by their times and sizes. -/
def carriedBy? (l : LinkId) (m : List SimulationStep × SimulationStep) : Option (Nat × Nat) :=
  match m.2.kind with
  | .packetInTransit s =>
    if s.linkId = l then some (m.2.relativeTime, (sizeIn s.nodeId s.packetId m.1).getD 0) else none
  | _ => none

def carried (l : LinkId) (trace : List SimulationStep) : List (Nat × Nat) :=
  (moments trace).filterMap (carriedBy? l)

/-- What a link carries of its window that ends with a packet, for each second. -/
def usedBandwidth (bandwidth time size : Nat) (past : List (Nat × Nat)) : Nat :=
  ReplayedLink.bitsWithin (time - window bandwidth) time (past ++ [(time, size)]) /
    ReplayedLink.windowSeconds bandwidth

/-- The report, where something is wrong. -/
def sayIf (wrong : Prop) [Decidable wrong] (report : NonFatalError) : List NonFatalError :=
  if wrong then [report] else []

section

variable (links : LinkId → Option LinkMetadata) (before : List SimulationStep) (time : Nat)

def entryComplaints (n : NodeId) (id : Uuid) : List NonFatalError :=
  sayIf (nodeStatus n before = .down) (.nodeDownPacketReceive n id)

/-- A packet gets from a link to a node. -/
def landingComplaints (s : PacketInNode) (flight : Flight) : List NonFatalError :=
  ((links flight.link).elim [] fun metadata =>
    sayIf (s.nodeId ≠ metadata.targetNodeId) (.disconnectedPacketReceive s.nodeId flight.link) ++
    sayIf (time - flight.sent < metadata.delay + flightDelay s.packetId before)
      (.tooFastPacketReceive s.nodeId flight.link)) ++
  ((lastLinkDown flight.link before).elim [] fun down =>
    sayIf (flight.sent ≤ down) (.offlinePacketReceive s.nodeId flight.link flight.sent down)) ++
  if s.droppedOnArrival then
    sayIf (nodeStatus s.nodeId before = .up) (.nodeUpPacketDroppedOnArrival s.nodeId s.packetId)
  else entryComplaints before s.nodeId s.packetId

/-- A packet gets from a node to a link. -/
def transitComplaints (s : PacketInTransit) : List NonFatalError :=
  sayIf (nodeStatus s.nodeId before = .down) (.nodeDownPacketSend s.nodeId s.packetId) ++
  sayIf ((lastClear s.nodeId before).any fun clear =>
      (entered s.nodeId s.packetId before).any (· < clear))
    (.packetSurvivedBufferCorruption s.nodeId s.packetId) ++
  (links s.linkId).elim [] fun metadata =>
    let used := usedBandwidth metadata.bandwidthBps time
      ((sizeIn s.nodeId s.packetId before).getD 0) (carried s.linkId before)
    sayIf (s.nodeId ≠ metadata.sourceNodeId) (.disconnectedPacketSend s.nodeId s.linkId) ++
    sayIf (linkStatus s.linkId before = .down) (.offlinePacketSend s.nodeId s.linkId) ++
    sayIf (metadata.bandwidthBps < used)
      (.linkBandwidthExceeded s.nodeId s.linkId s.packetId metadata.bandwidthBps used)

/-- What is wrong with a step, after the steps before it. -/
def complaints : SimulationStepKind → List NonFatalError
  | .packetInNode s =>
    match openFlight s.packetId before with
    | some flight => landingComplaints links before time s flight
    | none => entryComplaints before s.nodeId s.packetId
  | .packetDuplicated s => entryComplaints before s.nodeId s.packetId
  | .packetLostInTransit s =>
    sayIf (openFlight s.packetId before = none) (.missingLostPacket s.packetId)
  | .packetInTransit s => transitComplaints links before time s
  | _ => []

end

/-! What a replay recalls for it. -/

section

variable {n : NodeId} {l : LinkId} {id : Uuid} {trace : List SimulationStep} {step : SimulationStep}

theorem delayIn_concat : delayIn n id (trace ++ [step]) =
    (step.slow? (openFlight id trace).isSome n id).getD (delayIn n id trace) := by
  rw [delayIn, moments_concat, latest_concat, join_or, delayIn]

theorem flightDelay_concat :
    flightDelay id (trace ++ [step]) = (delaySent? id (trace, step)).getD (flightDelay id trace) := by
  rw [flightDelay, moments_concat, latest_concat, Option.getD_or, flightDelay]

theorem carried_concat :
    carried l (trace ++ [step]) = carried l trace ++ (carriedBy? l (trace, step)).toList := by
  rw [carried, moments_concat, List.filterMap_append, carried]
  cases carries : carriedBy? l (trace, step) <;> simp [carries]

/-- A link carries packets at the times of steps. -/
theorem carried_times : ((carried l trace).map Prod.fst).Sublist (trace.map (·.relativeTime)) := by
  induction trace using List.reverseRecOn with
  | nil => simp [carried, moments, momentsFrom]
  | append_singleton trace step ih =>
      rw [carried_concat, List.map_append, List.map_append]
      refine ih.append ?_
      unfold carriedBy?
      split
      · split <;> simp
      · simp

end

namespace ReplayedNode

/-- The extra delay of a packet that the node holds. -/
def delayOf (this : ReplayedNode) (id : Uuid) : Option Nat :=
  (this.packets.lookup id).map (·.extraDelay)

/-- A node whose packets are delayed, or come without a delay, or leave. -/
structure Slows (this next : ReplayedNode) (slow : Uuid → Option (Option Nat)) : Prop where
  id : next.id = this.id
  delay : ∀ id, next.delayOf id = (slow id).getD (this.delayOf id)

variable {this : ReplayedNode}

theorem Slows.refl (this : ReplayedNode) : this.Slows this fun _ => none := ⟨rfl, fun _ => rfl⟩

theorem store_slows (id : Uuid) (size now : Nat) :
    this.Slows (this.store id size now) fun id' => if id = id' then some (some 0) else none := by
  refine ⟨rfl, fun id' => ?_⟩
  simp only [delayOf, store, lookup_insert, eq_comm (a := id')]
  split <;> rfl

theorem release_slows (id : Uuid) (packet : ReplayedPacket) :
    this.Slows (this.release id packet) fun id' => if id = id' then some none else none := by
  refine ⟨rfl, fun id' => ?_⟩
  simp only [delayOf, release, lookup_erase, eq_comm (a := id')]
  split <;> rfl

theorem slow_slows (id : Uuid) (packet : ReplayedPacket) (delay : Nat) :
    this.Slows (this.slow id packet delay) fun id' => if id = id' then some (some delay) else none := by
  refine ⟨rfl, fun id' => ?_⟩
  simp only [delayOf, slow, lookup_insert, eq_comm (a := id')]
  split <;> rfl

theorem Slows.counts {next next' : ReplayedNode} {slow : Uuid → Option (Option Nat)}
    (slows : this.Slows next slow) (id : next'.id = next.id) (packets : next'.packets = next.packets) :
    this.Slows next' slow := by
  refine ⟨id.trans slows.id, fun id => ?_⟩
  rw [delayOf, packets]
  exact slows.delay id

end ReplayedNode

namespace Replay

variable {this next : Replay} {time : Nat} {kind : SimulationStepKind} {before : List SimulationStep}

/-- A step slows packets at the node that it is about. -/
theorem slows_at {n m : NodeId} {node node' node'' : ReplayedNode} {map : HashMap NodeId ReplayedNode}
    {step : SimulationStep} {slow : Uuid → Option (Option Nat)} (nodes : map = this.nodes)
    (there : this.nodes.lookup m = some node)
    (found : (map.insert m node').lookup n = some node'') (slows : node.Slows node' slow)
    (here : ∀ id, step.slow? (this.flight id).isSome m id = slow id)
    (elsewhere : n ≠ m → ∀ flying id, step.slow? flying n id = none) :
    ∃ node, this.nodes.lookup n = some node ∧
      node.Slows node'' fun id => step.slow? (this.flight id).isSome n id := by
  rcases of_lookup_insert found with ⟨rfl, rfl⟩ | ⟨differs, found⟩
  · exact ⟨node, there, slows.id, fun id => by rw [here]; exact slows.delay id⟩
  · refine ⟨node'', nodes ▸ found, rfl, fun id => ?_⟩
    rw [elsewhere differs]
    rfl

theorem Turn.slows (turn : this.Turn time kind next) {n : NodeId} {node' : ReplayedNode}
    (found : next.nodes.lookup n = some node') :
    ∃ node, this.nodes.lookup n = some node ∧ node.Slows node' fun id =>
      SimulationStep.slow? (this.flight id).isSome n id ⟨time, kind⟩ := by
  cases turn with
  | @created s node grounded there =>
      refine slows_at rfl there found (ReplayedNode.store_slows _ _ _) (fun id => ?_)
        fun differs _ _ => by simp [SimulationStep.slow?, SimulationStep.stay?, Ne.symm differs]
      by_cases same : s.packetId = id
      · subst same
        simp [SimulationStep.slow?, SimulationStep.stay?, flight, grounded]
      · simp [SimulationStep.slow?, SimulationStep.stay?, same]
  | @landed s node inFlight flies there kept =>
      refine slows_at rfl there found ((ReplayedNode.store_slows _ _ _).counts rfl rfl) (fun id => ?_)
        fun differs _ _ => by simp [SimulationStep.slow?, SimulationStep.stay?, Ne.symm differs]
      by_cases same : s.packetId = id <;>
        simp [SimulationStep.slow?, SimulationStep.stay?, same, kept]
  | @refused s node inFlight flies there dropped =>
      refine slows_at rfl there found ((ReplayedNode.Slows.refl node).counts rfl rfl) (fun id => ?_)
        fun differs _ _ => by simp [SimulationStep.slow?, SimulationStep.stay?, Ne.symm differs]
      by_cases same : s.packetId = id
      · subst same
        simp [SimulationStep.slow?, SimulationStep.stay?, dropped, flight, flies]
      · simp [SimulationStep.slow?, SimulationStep.stay?, same]
  | @duplicated s node there =>
      refine slows_at rfl there found ((ReplayedNode.store_slows _ _ _).counts rfl rfl) (fun id => ?_)
        fun differs _ _ => by simp [SimulationStep.slow?, SimulationStep.stay?, Ne.symm differs]
      by_cases same : s.packetId = id <;> simp [SimulationStep.slow?, SimulationStep.stay?, same]
  | @dropped s node packet there =>
      refine slows_at rfl there found ((ReplayedNode.release_slows s.packetId packet).counts ?_ ?_) (fun id => ?_)
        fun differs _ _ => by simp [SimulationStep.slow?, SimulationStep.stay?, Ne.symm differs]
      · cases s.reason <;> rfl
      · cases s.reason <;> rfl
      · by_cases same : s.packetId = id <;> simp [SimulationStep.slow?, SimulationStep.stay?, same]
  | @sent s node packet metadata link link' used there =>
      refine slows_at rfl there found ((ReplayedNode.release_slows s.packetId packet).counts rfl rfl)
        (fun id => ?_)
        fun differs _ _ => by simp [SimulationStep.slow?, SimulationStep.stay?, Ne.symm differs]
      by_cases same : s.packetId = id <;> simp [SimulationStep.slow?, SimulationStep.stay?, same]
  | @delivered s node packet there =>
      refine slows_at rfl there found (ReplayedNode.release_slows _ packet) (fun id => ?_)
        fun differs _ _ => by simp [SimulationStep.slow?, SimulationStep.stay?, Ne.symm differs]
      by_cases same : s.packetId = id <;> simp [SimulationStep.slow?, SimulationStep.stay?, same]
  | @delayed s node packet there =>
      refine slows_at rfl there found (ReplayedNode.slow_slows _ packet _) (fun id => ?_)
        fun differs _ _ => by simp [SimulationStep.slow?, Ne.symm differs]
      by_cases same : s.packetId = id <;> simp [SimulationStep.slow?, same]
  | @congested s node there =>
      exact slows_at rfl there found ((ReplayedNode.Slows.refl node).counts rfl rfl) (fun _ => rfl)
        fun _ _ _ => rfl
  | lost | missed => exact ⟨node', found, rfl, fun id => rfl⟩
  | @event e middle next link node =>
      obtain ⟨link?, node?⟩ := e
      cases node with
      | none => exact ⟨node', link.nodes ▸ found, rfl, fun id => rfl⟩
      | @changed event node there =>
          refine slows_at link.nodes (link.nodes ▸ there) found
            ((ReplayedNode.Slows.refl node).counts ?_ ?_) (fun _ => rfl) fun _ _ _ => rfl
          · unfold ReplayedNode.handleEvent
            cases event.status <;> cases event.clearBuffer <;> rfl
          · unfold ReplayedNode.handleEvent
            cases event.status <;> cases event.clearBuffer <;> rfl

theorem NodeTurn.links {node? : Option NodeEventPayload} (turn : this.NodeTurn time node? next) :
    next.links = this.links ∧ next.inFlightPackets = this.inFlightPackets := by
  cases turn <;> exact ⟨rfl, rfl⟩

theorem LinkTurn.inFlight {link? : Option LinkEventPayload} (turn : this.LinkTurn time link? next) :
    next.inFlightPackets = this.inFlightPackets := by
  cases turn <;> rfl

/-- An event leaves the window of a link as it is. -/
theorem LinkTurn.windows {link? : Option LinkEventPayload} (turn : this.LinkTurn time link? next)
    {l : LinkId} {link' : ReplayedLink} (found : next.links.lookup l = some link') :
    ∃ link, this.links.lookup l = some link ∧ link'.bandwidthUsageBps = link.bandwidthUsageBps ∧
      link'.packetsInBandwidthWindow = link.packetsInBandwidthWindow := by
  cases turn with
  | none | other => exact ⟨link', found, rfl, rfl⟩
  | @switched event status link changed there =>
      rcases of_lookup_insert found with ⟨rfl, rfl⟩ | ⟨-, found⟩
      · exact ⟨link, there, rfl, rfl⟩
      · exact ⟨link', found, rfl, rfl⟩

theorem Turn.flightDelays (turn : this.Turn time kind next) {id : Uuid}
    {inFlight : InFlightPacket} (found : next.inFlightPackets.lookup id = some inFlight)
    (slowed : ∀ n node, this.nodes.lookup n = some node → ∀ id, node.delayOf id = delayIn n id before)
    (before' : ∀ p, this.inFlightPackets.lookup id = some p → p.extraDelay = flightDelay id before) :
    inFlight.extraDelay = flightDelay id (before ++ [⟨time, kind⟩]) := by
  rw [flightDelay_concat]
  cases turn with
  | @sent s node packet metadata link link' used there held =>
      rcases of_lookup_insert found with ⟨rfl, rfl⟩ | ⟨differs, found⟩
      · have delay := slowed _ node there s.packetId
        rw [ReplayedNode.delayOf, held] at delay
        simp [delaySent?, ← delay]
      · simpa [delaySent?, Ne.symm differs] using before' inFlight found
  | landed | refused | lost => exact before' inFlight (of_lookup_erase found).2
  | created | duplicated | dropped | missed | delivered | congested | delayed =>
      exact before' inFlight found
  | event link node =>
      exact before' inFlight (link.inFlight.symm.trans node.links.2.symm ▸ found)

/-- What a link has in its window, once some steps are replayed. -/
def Carries (bandwidth : Nat) (l : LinkId) (before : List SimulationStep) (link : ReplayedLink) :
    Prop :=
  ∃ last, (∀ t, (∀ step ∈ before, step.relativeTime ≤ t) → last ≤ t) ∧
    link.Slid bandwidth last (carried l before)

theorem Carries.idle {bandwidth : Nat} {l : LinkId} {link link' : ReplayedLink}
    {step : SimulationStep} (carries : Carries bandwidth l before link)
    (idle : carriedBy? l (before, step) = none)
    (usage : link'.bandwidthUsageBps = link.bandwidthUsageBps)
    (packets : link'.packetsInBandwidthWindow = link.packetsInBandwidthWindow) :
    Carries bandwidth l (before ++ [step]) link' := by
  obtain ⟨last, due, slid⟩ := carries
  refine ⟨last, fun t bound => due t fun earlier member => ?_, ?_, ?_⟩
  · exact bound earlier (List.mem_append_left _ member)
  · rw [ReplayedLink.Consistent, usage, packets]
    exact slid.consistent
  · rw [packets, carried_concat, idle]
    simpa using slid.packets

theorem Turn.carries (turn : this.Turn time kind next) {l : LinkId} {link' : ReplayedLink}
    {metadata : LinkMetadata} (mirrors : this.Mirrors before)
    (sorted : ((before ++ [(⟨time, kind⟩ : SimulationStep)]).map (·.relativeTime)).Pairwise (· ≤ ·))
    (found : next.links.lookup l = some link') (known : this.linkMetadata.lookup l = some metadata)
    (carries : ∀ link, this.links.lookup l = some link →
      Carries metadata.bandwidthBps l before link) :
    Carries metadata.bandwidthBps l (before ++ [⟨time, kind⟩]) link' := by
  cases turn with
  | @sent s node packet metadata' link link'' used there held fits known' linked sent =>
      rcases of_lookup_insert found with ⟨rfl, rfl⟩ | ⟨differs, found⟩
      · obtain rfl := Option.some.inj (known.symm.trans known')
        obtain ⟨last, due, slid⟩ := carries link linked
        have carrying : carriedBy? s.linkId (before, ⟨time, .packetInTransit s⟩) =
            some (time, packet.sizeBytes) := by
          simp [carriedBy?, mirrors.sizeIn there held]
        have times := sorted.sublist (carried_times (l := s.linkId))
        rw [carried_concat, carrying] at times
        obtain ⟨used', link₁, sent', -, slid'⟩ := slid.call packet.sizeBytes times (due time (earlier_le sorted))
        obtain ⟨-, rfl⟩ := Prod.mk.inj (Option.some.inj (sent.symm.trans sent'))
        refine ⟨time, fun t bound => bound ⟨time, .packetInTransit s⟩ (by simp), ?_⟩
        rw [carried_concat, carrying]
        exact slid'
      · exact (carries link' found).idle (by simp [carriedBy?, Ne.symm differs]) rfl rfl
  | event link node =>
      obtain ⟨link, there, usage, packets⟩ := link.windows (node.links.1 ▸ found)
      exact (carries link there).idle rfl usage packets
  | _ => exact (carries link' found).idle rfl rfl rfl

/-- What a replay recalls of the steps so far, beside what it mirrors. -/
structure Recalls (this : Replay) (before : List SimulationStep) : Prop where
  ids : ∀ n node, this.nodes.lookup n = some node → node.id = n
  delays : ∀ n node, this.nodes.lookup n = some node → ∀ id, node.delayOf id = delayIn n id before
  flights : ∀ id p, this.inFlightPackets.lookup id = some p → p.extraDelay = flightDelay id before
  windows : ∀ l link metadata, this.links.lookup l = some link →
    this.linkMetadata.lookup l = some metadata → Carries metadata.bandwidthBps l before link

theorem Recalls.turn (recalls : this.Recalls before) (mirrors : this.Mirrors before)
    (sorted : ((before ++ [(⟨time, kind⟩ : SimulationStep)]).map (·.relativeTime)).Pairwise (· ≤ ·))
    (turn : this.Turn time kind next) : next.Recalls (before ++ [⟨time, kind⟩]) where
  ids n node' found := by
    obtain ⟨node, there, slows⟩ := turn.slows found
    exact slows.id.trans (recalls.ids n node there)
  delays n node' found id := by
    obtain ⟨node, there, slows⟩ := turn.slows found
    rw [slows.delay, delayIn_concat, recalls.delays n node there, mirrors.flights]
  flights id p found := turn.flightDelays found recalls.delays (recalls.flights id)
  windows l link' metadata found known := by
    have known : this.linkMetadata.lookup l = some metadata := turn.shifts.linkMetadata ▸ known
    exact turn.carries mirrors sorted found known fun link there =>
      recalls.windows l link metadata there known

theorem Recalls.sampled (recalls : this.Recalls before) (sampled : this.Sampled next) :
    next.Recalls before where
  ids n node' found := by
    obtain ⟨node, used, there, rfl⟩ := sampled.nodes found
    exact recalls.ids n node there
  delays n node' found := by
    obtain ⟨node, used, there, rfl⟩ := sampled.nodes found
    exact recalls.delays n node there
  flights id p found := recalls.flights id p (sampled.inFlight ▸ found)
  windows l link metadata there known :=
    recalls.windows l link metadata (sampled.links ▸ there) (sampled.linkMetadata ▸ known)

theorem addPacketToBuffer_reports_eq {node : ReplayedNode} {n : NodeId} {id : Uuid} {size : Nat}
    (named : node.id = n) (status : node.status = nodeStatus n before) :
    (node.addPacketToBuffer id size time).reports = entryComplaints before n id := by
  unfold ReplayedNode.addPacketToBuffer entryComplaints sayIf
  rw [Tracked.reports_check_bind, status, named]
  split <;> split <;> rfl

theorem withNode_reports_eq {n : NodeId} {node : ReplayedNode}
    {change : ReplayedNode → Verdict ReplayedNode} (there : this.nodes.lookup n = some node) :
    (this.withNode n change).reports = (change node).reports := by
  unfold withNode Replay.node
  rw [Tracked.reports_unwrap_bind there]
  exact Tracked.reports_bind_pure

theorem removePacketFromBuffer_reports_nil {node : ReplayedNode} {id : Uuid} {packet : ReplayedPacket}
    (held : node.packets.lookup id = some packet) (fits : packet.sizeBytes ≤ node.bufferUsage) :
    node.removePacketFromBuffer id = pure (packet, node.release id packet) := by
  unfold ReplayedNode.removePacketFromBuffer
  rw [held]
  exact if_neg (not_lt.mpr fits)

theorem packetReceived_reports_eq {node : ReplayedNode} {s : PacketInNode}
    (named : node.id = s.nodeId) (status : node.status = nodeStatus s.nodeId before) :
    (node.packetReceived s time).reports =
      if s.droppedOnArrival then
        sayIf (nodeStatus s.nodeId before = .up) (.nodeUpPacketDroppedOnArrival s.nodeId s.packetId)
      else entryComplaints before s.nodeId s.packetId := by
  have counted : (node.countReceived s).id = s.nodeId ∧
      (node.countReceived s).status = nodeStatus s.nodeId before := ⟨named, status⟩
  unfold ReplayedNode.packetReceived sayIf
  dsimp only
  split
  · rw [Tracked.reports_check_bind, Tracked.reports_pure, List.append_nil, counted.1, counted.2]
  · exact addPacketToBuffer_reports_eq counted.1 counted.2

theorem packetInNode_reports_landing {s : PacketInNode} {node : ReplayedNode}
    {inFlight : InFlightPacket} (recalls : this.Recalls before) (mirrors : this.Mirrors before)
    (flies : this.inFlightPackets.lookup s.packetId = some inFlight)
    (there : this.nodes.lookup s.nodeId = some node) (travelled : this.Travelled time inFlight) :
    (this.packetInNode time s).reports =
      complaints this.linkMetadata.lookup before time (.packetInNode s) := by
  obtain ⟨⟨metadata, known⟩, ⟨link, linked⟩, sent⟩ := travelled
  have flying : openFlight s.packetId before = some ⟨inFlight.linkId, inFlight.sentAtRelative⟩ := by
    rw [← mirrors.flights, flight, flies]
    rfl
  have took : (if time < inFlight.sentAtRelative then none else some (time - inFlight.sentAtRelative)) =
      some (time - inFlight.sentAtRelative) := if_neg (not_lt.mpr sent)
  unfold packetInNode complaints
  simp only [flies, flying]
  rw [Tracked.reports_unwrap_bind known, Tracked.reports_check_bind, Tracked.reports_unwrap_bind took,
    Tracked.reports_check_bind]
  unfold landingComplaints
  dsimp only
  rw [known, Option.elim_some, List.append_assoc, List.append_assoc, ← recalls.flights _ inFlight flies,
    ← (mirrors.links _ link linked).2]
  refine congrArg₂ (· ++ ·) rfl (congrArg₂ (· ++ ·) rfl ((Tracked.reports_unwrap_bind linked).trans ?_))
  have went : (checkOutage link inFlight s.nodeId).Yields () := checkOutage_yields.mpr trivial
  have there' : (this.ground s.packetId).nodes.lookup s.nodeId = some node := there
  rw [Tracked.reports_bind went]
  refine congrArg₂ (· ++ ·) ?_ ((withNode_reports_eq there').trans ?_)
  · unfold checkOutage
    cases link.lastDownRelative with
    | none => rfl
    | some down => exact Tracked.reports_check
  · exact packetReceived_reports_eq (recalls.ids _ node there) (mirrors.nodes _ node there).1

theorem packetInTransit_reports_eq {s : PacketInTransit} {node : ReplayedNode}
    {packet : ReplayedPacket} {metadata : LinkMetadata} {link link' : ReplayedLink} {used : Nat}
    (recalls : this.Recalls before) (mirrors : this.Mirrors before)
    (sorted : ((before ++ [(⟨time, .packetInTransit s⟩ : SimulationStep)]).map
      (·.relativeTime)).Pairwise (· ≤ ·))
    (there : this.nodes.lookup s.nodeId = some node)
    (held : node.packets.lookup s.packetId = some packet) (fits : packet.sizeBytes ≤ node.bufferUsage)
    (known : this.linkMetadata.lookup s.linkId = some metadata)
    (linked : this.links.lookup s.linkId = some link)
    (sent : link.packetSent time packet.sizeBytes metadata.bandwidthBps = some (used, link')) :
    (this.packetInTransit time s).reports =
      complaints this.linkMetadata.lookup before time (.packetInTransit s) := by
  have arrived : entered s.nodeId s.packetId before = some packet.arrivedAt := by
    rw [← (mirrors.nodes _ node there).2.2, ReplayedNode.arrival, held]
    rfl
  unfold packetInTransit complaints transitComplaints Replay.node ReplayedNode.packetSent
  rw [Tracked.reports_unwrap_bind there, removePacketFromBuffer_reports_nil held fits]
  simp only [bind_assoc, pure_bind]
  rw [Tracked.reports_check_bind, Tracked.reports_check_bind, List.append_assoc, known,
    Option.elim_some, ← mirrors.sizes _ node there, ← (mirrors.links _ link linked).1]
  refine congrArg₂ (· ++ ·) ?_ (congrArg₂ (· ++ ·) ?_ ((Tracked.reports_unwrap_bind known).trans ?_))
  · rw [(mirrors.nodes _ node there).1, recalls.ids _ node there]
    rfl
  · have named : (node.release s.packetId packet).id = s.nodeId := recalls.ids _ node there
    rw [arrived, ← (mirrors.nodes _ node there).2.1, named]
    rfl
  · have size : node.sizeOf s.packetId = some packet.sizeBytes := by
      rw [ReplayedNode.sizeOf, held]
      rfl
    obtain ⟨last, due, slid⟩ := recalls.windows _ link metadata linked known
    have times := sorted.sublist (carried_times (l := s.linkId))
    rw [carried_concat, show carriedBy? s.linkId (before, ⟨time, .packetInTransit s⟩) =
      some (time, packet.sizeBytes) by simp [carriedBy?, mirrors.sizeIn there held]] at times
    obtain ⟨used', link₁, sent', counted, -⟩ :=
      slid.call packet.sizeBytes times (due time (earlier_le sorted))
    obtain ⟨rfl, rfl⟩ := Prod.mk.inj (Option.some.inj (sent.symm.trans sent'))
    rw [Tracked.reports_check_bind, size, Option.getD_some, List.append_assoc,
      show usedBandwidth metadata.bandwidthBps time packet.sizeBytes (carried s.linkId before) = used
        from counted.symm]
    refine congrArg₂ (· ++ ·) rfl ((Tracked.reports_unwrap_bind linked).trans ?_)
    rw [Tracked.reports_check_bind]
    refine congrArg₂ (· ++ ·) ?_ ((Tracked.reports_unwrap_bind sent).trans ?_)
    · cases up : link.status <;> simp [ReplayedLink.isUp, up, sayIf]
    · exact Tracked.reports_bind_pure.trans Tracked.reports_check

theorem Turn.complaints (recalls : this.Recalls before) (mirrors : this.Mirrors before)
    (sorted : ((before ++ [(⟨time, kind⟩ : SimulationStep)]).map (·.relativeTime)).Pairwise (· ≤ ·))
    (turn : this.Turn time kind next) :
    (this.replayKind time kind).reports = complaints this.linkMetadata.lookup before time kind := by
  cases turn with
  | @created s node grounded there =>
      have off : openFlight s.packetId before = none := by
        rw [← mirrors.flights, flight, grounded]
        rfl
      simp only [replayKind, packetInNode, Tracing.complaints, grounded, off]
      exact (withNode_reports_eq there).trans
        (addPacketToBuffer_reports_eq (recalls.ids _ node there) (mirrors.nodes _ node there).1)
  | landed flies there kept absent travelled | refused flies there dropped travelled =>
      exact packetInNode_reports_landing recalls mirrors flies there travelled
  | sent there held fits known linked carried =>
      exact packetInTransit_reports_eq recalls mirrors sorted there held fits known linked carried
  | @duplicated s node there =>
      have named : (node.countDuplicated s.packetSizeBytes).id = s.nodeId := recalls.ids _ node there
      exact (withNode_reports_eq there).trans
        (addPacketToBuffer_reports_eq named (mirrors.nodes _ node there).1)
  | dropped there held fits | delivered there held fits =>
      refine (withNode_reports_eq there).trans ?_
      simp only [ReplayedNode.packetDropped, ReplayedNode.packetDeliveredToAppLayer,
        removePacketFromBuffer_reports_nil held fits, pure_bind]
      rfl
  | @delayed s node packet there held =>
      refine (withNode_reports_eq there).trans ?_
      simp only [ReplayedNode.packetHasExtraDelay, held]
      rfl
  | congested there => exact withNode_reports_eq there
  | @lost s inFlight flies =>
      have on : openFlight s.packetId before ≠ none := by
        rw [← mirrors.flights, flight, flies]
        exact Option.some_ne_none _
      simp only [replayKind, packetLostInTransit, Tracing.complaints, flies]
      exact (if_neg on).symm
  | @missed s grounded =>
      have off : openFlight s.packetId before = none := by
        rw [← mirrors.flights, flight, grounded]
        rfl
      simp only [replayKind, packetLostInTransit, Tracing.complaints, grounded]
      exact (if_pos off).symm
  | @event e middle next link node =>
      obtain ⟨link?, node?⟩ := e
      have linked : (link?.elim (pure this) (this.linkEvent time)).reports = [] := by
        cases link with
        | none => rfl
        | other same => simp [linkEvent, same, Tracked.reports_pure]
        | switched changed there =>
            simp only [Option.elim, linkEvent, changed]
            exact Tracked.reports_unwrap_bind there
      refine (Tracked.reports_bind link.yields).trans ?_
      rw [linked]
      cases node with
      | none => rfl
      | changed there => exact withNode_reports_eq there

end Replay

/-- The error is about a step, and not about a full node. -/
def NonFatalError.isOfStep : NonFatalError → Bool
  | .nodeExceedsBufferSize .. => false
  | _ => true

/-- The complaints of all steps of a trace. -/
def allComplaints (links : LinkId → Option LinkMetadata) (trace : List SimulationStep) :
    List NonFatalError :=
  (moments trace).flatMap fun m => complaints links m.1 m.2.relativeTime m.2.kind

section

variable {Allowed : NonFatalError → Prop} {α : Type} {x : Verdict α}

theorem filter_full (full : Reports (fun report => report.isOfStep = false) x) :
    x.reports.filter NonFatalError.isOfStep = [] :=
  List.filter_eq_nil_iff.mpr fun report member => by simp [full.reports report member]

theorem filter_usual (usual : Reports (fun report => report.isOfStep = true) x) :
    x.reports.filter NonFatalError.isOfStep = x.reports :=
  List.filter_eq_self.mpr usual.reports

end

namespace Replay

variable {this next : Replay} {before : List SimulationStep} {order : Option Nat → List NodeId}
  {spec : NetworkSpec}

/-- A replay that is due for the next step, and recalls the steps so far. -/
structure Ready (this : Replay) (spec : NetworkSpec) (before : List SimulationStep) : Prop
    extends this.Due spec before where
  recalls : this.Recalls before
  links : ∀ l, this.linkMetadata.lookup l = describedLink spec l

theorem Ready.replayStep {step : SimulationStep} (ready : this.Ready spec before)
    (sorted : ((before ++ [step]).map (·.relativeTime)).Pairwise (· ≤ ·))
    (yields : (this.replayStep order step).Yields next) : next.Ready spec (before ++ [step]) ∧
      (this.replayStep order step).reports.filter NonFatalError.isOfStep =
        complaints (describedLink spec) before step.relativeTime step.kind := by
  have due := ready.toDue.replayStep (earlier_le sorted) yields
  obtain ⟨begun, start, replayed⟩ := Tracked.yields_bind.mp yields
  have sampled := startTime_sampled start
  have mirrors := ready.mirrors.sampled sampled
  have recalls := ready.recalls.sampled sampled
  have turn := replayKind_turn replayed
  have links : begun.linkMetadata = this.linkMetadata := sampled.linkMetadata
  refine ⟨⟨due, recalls.turn mirrors sorted turn, fun l => ?_⟩, ?_⟩
  · rw [turn.shifts.linkMetadata, links]
    exact ready.links l
  · have full : Reports (fun report => report.isOfStep = false) (this.startTime order step.relativeTime) :=
      this.startTime_reports order step.relativeTime fun _ _ _ => rfl
    have usual : Reports (fun report => report.isOfStep = true)
        (begun.replayKind step.relativeTime step.kind) :=
      replayKind_reports (fun report usual => by cases report <;> first | rfl | cases usual)
        fun _ _ _ => rfl
    have same : (fun l => begun.linkMetadata.lookup l) = describedLink spec := by
      funext l
      rw [links]
      exact ready.links l
    rw [Replay.replayStep, Tracked.reports_bind start, List.filter_append, filter_full full,
      List.nil_append, filter_usual usual, turn.complaints recalls mirrors sorted]
    exact congrArg (fun links => complaints links before step.relativeTime step.kind) same

theorem Ready.replaySteps {replay replay' : Replay} {steps : List SimulationStep}
    (ready : replay.Ready spec []) (sorted : (steps.map (·.relativeTime)).Pairwise (· ≤ ·))
    (replayed : (replay.replaySteps order steps).Yields replay') :
    (replay.replaySteps order steps).reports.filter NonFatalError.isOfStep =
      allComplaints (describedLink spec) steps := by
  have kept (done : List SimulationStep) (step : SimulationStep) (rest : List SimulationStep)
      (replay next : Replay) (split : steps = done ++ step :: rest)
      (ready : replay.Ready spec done) (stepped : (replay.replayStep order step).Yields next) :
      next.Ready spec (done ++ [step]) ∧
        (replay.replayStep order step).reports.filter NonFatalError.isOfStep =
          complaints (describedLink spec) done step.relativeTime step.kind := by
    refine ready.replayStep ?_ stepped
    rw [split, List.append_cons, List.map_append] at sorted
    exact (List.pairwise_append.mp sorted).1
  exact Tracked.reports_foldlM (List.nil_append _).symm kept ready replayed

end Replay

namespace SimulationVerifier

variable {this : SimulationVerifier} {spec : NetworkSpec} {steps : List SimulationStep}
  {order : Option Nat → List NodeId} {stats : SimulationStats}

theorem new_ready (made : SimulationVerifier.new steps spec = .ok this) :
    (Replay.start { this with steps := [] }).Ready spec [] := by
  obtain ⟨made', -⟩ := new_made made
  refine ⟨made'.due, ⟨fun n node found => ?_, fun n node found id => ?_, fun id p flies => ?_,
    fun l link metadata found known => ?_⟩, fun l => new_described made l⟩
  · obtain rfl := made'.nodes n node found
    rfl
  · obtain rfl := made'.nodes n node found
    rfl
  · have empty := made'.inFlight
    simp [Replay.start, empty] at flies
  · obtain rfl := made'.links l link found
    exact ⟨0, fun _ _ => Nat.zero_le _, rfl, rfl⟩

/-- What the verification reports after its last step is about full nodes. -/
theorem verify_ofStep (yields : (this.verify order).Yields stats) :
    (this.verify order).reports.filter NonFatalError.isOfStep =
      ((Replay.start { this with steps := [] }).replaySteps order this.steps).reports.filter
        NonFatalError.isOfStep := by
  obtain ⟨replay, final, replayed, finished, -⟩ := verify_yields.mp yields
  have full : Reports (fun report => report.isOfStep = false) (replay.finish order) :=
    replay.finish_reports order fun _ _ _ => rfl
  unfold SimulationVerifier.verify
  rw [Tracked.reports_bind replayed, List.filter_append, Tracked.reports_bind finished,
    List.filter_append, filter_full full, Tracked.reports_pure, List.filter_nil, List.append_nil, List.append_nil]

/-- In a verification that goes through, the errors that are reported, but for full nodes, are
the complaints of its steps in the order of their times, and nothing else. -/
theorem verify_complains (made : SimulationVerifier.new steps spec = .ok this)
    (yields : (this.verify order).Yields stats) :
    (this.verify order).reports.filter NonFatalError.isOfStep =
      allComplaints (describedLink spec) (sortSteps steps) := by
  obtain ⟨-, same⟩ := new_made made
  obtain ⟨replay, -, replayed, -⟩ := verify_yields.mp yields
  rw [same] at replayed
  rw [verify_ofStep yields, same]
  exact (new_ready made).replaySteps (sortSteps_sorted steps) replayed

theorem verify_complains_sentAtOnce : ∃ this stats,
    SimulationVerifier.new (sentAtOnce.before ++ [sentAtOnce.step]) .twoHosts = .ok this ∧
      (this.verify fun _ => [0, 1]).Yields stats ∧
      (this.verify fun _ => [0, 1]).reports.filter NonFatalError.isOfStep =
        [.offlinePacketReceive 1 0 0 0] := by
  obtain ⟨this, stats, made, yields⟩ : ∃ this stats,
      SimulationVerifier.new (sentAtOnce.before ++ [sentAtOnce.step]) .twoHosts = .ok this ∧
        (this.verify fun _ => [0, 1]).Yields stats := ⟨_, _, rfl, rfl⟩
  exact ⟨this, stats, made, yields, (verify_complains made yields).trans (by decide)⟩

end SimulationVerifier

end Workbench.Tracing
