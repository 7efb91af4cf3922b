import Workbench.Network.Telling
import Workbench.Tracing.Anomalies
import Workbench.Tracing.Following

/-! The delays of links, which events change, and what the verifier makes of the time that
packets are in flight. -/

set_option autoImplicit false

namespace Workbench.Tracing

open Workbench.Library Workbench.Network

namespace SimulationStep

/-- The delay that an event gives to a link, which takes it only while it is down. -/
def linkDelay? (l : LinkId) (status : UpdateLinkStatus) (step : SimulationStep) : Option Nat :=
  match step.kind with
  | .networkEvent ⟨some event, _⟩ =>
    if event.linkId = l ∧ status = .down then event.delay else none
  | _ => none

/-- The link that a packet is sent over. -/
def departure? (id : Uuid) (step : SimulationStep) : Option LinkId :=
  match step.kind with
  | .packetInTransit s => if s.packetId = id then some s.linkId else none
  | _ => none

end SimulationStep

/-- The delay of a link after some steps. The delay of an event counts before its status. -/
def delayInForce (net : InMemoryNetwork) (l : LinkId) (trace : List SimulationStep) : Nat :=
  (latest (fun m => m.2.linkDelay? l (linkStatus l m.1)) (moments trace)).getD (net.links l).delay

/-- The delay that its link had as a packet was last sent. -/
def delayAtSend (net : InMemoryNetwork) (id : Uuid) (trace : List SimulationStep) : Option Nat :=
  latest (fun m => (m.2.departure? id).map fun l => delayInForce net l m.1) (moments trace)

/-- A packet that gets from a link to a node, also where it is dropped on arrival. -/
structure Landing where
  before : List SimulationStep
  time : Nat
  arrival : PacketInNode
  flight : Flight

namespace Landing

def step (this : Landing) : SimulationStep := ⟨this.time, .packetInNode this.arrival⟩

structure In (this : Landing) (trace : List SimulationStep) : Prop where
  flight : openFlight this.arrival.packetId this.before = some this.flight
  split : ∃ after, trace = this.before ++ this.step :: after

def timeInFlight (this : Landing) : Nat := this.time - this.flight.sent

/-- The verifier reports the packet for its time in flight as it replays the step. -/
def Reported (this : Landing) (verifier : SimulationVerifier) (order : Option Nat → List NodeId) :
    Prop :=
  ∃ replay : Replay,
    ((Replay.start { verifier with steps := [] }).replaySteps order this.before).Yields replay ∧
    .tooFastPacketReceive this.arrival.nodeId this.flight.link ∈
      (replay.replayStep order this.step).reports

end Landing

/-- A packet that gets to a node is reported exactly where it was in flight for less than
the delay that its link had as it was sent. -/
def DelayChecked (net : InMemoryNetwork) (verifier : SimulationVerifier)
    (order : Option Nat → List NodeId) (trace : List SimulationStep) : Prop :=
  ∀ landing : Landing, landing.In trace →
    ∃ delay, delayAtSend net landing.arrival.packetId landing.before = some delay ∧
      (landing.Reported verifier order ↔ landing.timeInFlight < delay)

/-- Whatever a link sent with less than the delay of the network's description, was in
flight for at least that delay. -/
def Unhurried (net : InMemoryNetwork) (trace : List SimulationStep) : Prop :=
  ∀ landing : Landing, landing.In trace → ∀ delay,
    delayAtSend net landing.arrival.packetId landing.before = some delay →
    delay < (net.links landing.flight.link).delay →
    (net.links landing.flight.link).delay ≤ landing.timeInFlight

section

variable {net : InMemoryNetwork} {l : LinkId} {id : Uuid} {ids : List Uuid}
  {trace trace' : List SimulationStep} {step : SimulationStep}

theorem delayInForce_concat : delayInForce net l (trace ++ [step]) =
    (step.linkDelay? l (linkStatus l trace)).getD (delayInForce net l trace) := by
  rw [delayInForce, moments_concat, latest_concat, Option.getD_or, delayInForce]

theorem delayAtSend_concat : delayAtSend net id (trace ++ [step]) =
    ((step.departure? id).map fun l => delayInForce net l trace).or (delayAtSend net id trace) := by
  rw [delayAtSend, moments_concat, latest_concat, delayAtSend]

/-- Steps that leave the links as they are, and put no packet on any. -/
structure LinksStay (net : InMemoryNetwork) (trace trace' : List SimulationStep) : Prop where
  delay : ∀ l, delayInForce net l trace' = delayInForce net l trace
  status : ∀ l, linkStatus l trace' = linkStatus l trace
  sends : ∀ id, delayAtSend net id trace' = delayAtSend net id trace
  flights : ∀ id flight, openFlight id trace' = some flight → openFlight id trace = some flight

theorem Inland.linksStay (inland : Inland ids step.kind) : LinksStay net trace (trace ++ [step]) := by
  have changes (l : LinkId) (status : UpdateLinkStatus) :
      step.linkDelay? l status = none ∧ step.linkStatus? l = none := by
    unfold SimulationStep.linkDelay? SimulationStep.linkStatus?
    cases kind : step.kind with
    | networkEvent e =>
        rw [kind] at inland
        obtain ⟨link, node⟩ := e
        cases (show link = none from inland)
        exact ⟨rfl, rfl⟩
    | _ => exact ⟨rfl, rfl⟩
  have departs (id : Uuid) : step.departure? id = none := by
    unfold SimulationStep.departure?
    cases kind : step.kind with
    | packetInTransit s =>
        rw [kind] at inland
        exact inland.elim
    | _ => rfl
  refine ⟨fun l => ?_, fun l => ?_, fun id => ?_, fun id flight flies => ?_⟩
  · rw [delayInForce_concat, (changes l _).1]
    rfl
  · rw [linkStatus_concat, (changes l .up).2]
    rfl
  · rw [delayAtSend_concat, departs]
    rfl
  · rw [openFlight_concat] at flies
    cases kind : step.kind with
    | packetInTransit s =>
        rw [kind] at inland
        exact inland.elim
    | packetInNode s | packetLostInTransit s =>
        -- such a step takes a packet from its link
        by_cases same : s.packetId = id
        · simp [SimulationStep.flight?, kind, same] at flies
        · simpa [SimulationStep.flight?, kind, same] using flies
    | _ => simpa [SimulationStep.flight?, kind] using flies

theorem LinksStay.trans {trace'' : List SimulationStep} (first : LinksStay net trace trace')
    (second : LinksStay net trace' trace'') : LinksStay net trace trace'' where
  delay l := (second.delay l).trans (first.delay l)
  status l := (second.status l).trans (first.status l)
  sends id := (second.sends id).trans (first.sends id)
  flights id flight flies := first.flights id flight (second.flights id flight flies)

theorem LinksStay.append {steps : List SimulationStep}
    (inland : ∀ step ∈ steps, Inland ids step.kind) : LinksStay net trace (trace ++ steps) := by
  induction steps using List.reverseRecOn with
  | nil =>
      rw [List.append_nil]
      exact ⟨fun _ => rfl, fun _ => rfl, fun _ => rfl, fun _ _ => id⟩
  | append_singleton steps step ih =>
      rw [← List.append_assoc]
      have before := ih fun step member => inland step (List.mem_append_left _ member)
      exact before.trans (Inland.linksStay (inland step (by simp)))

/-- A packet gets to a node in the old part of a trace or in the new one. -/
theorem Landing.In.append {landing : Landing} {old new : List SimulationStep}
    (landed : landing.In (old ++ new)) : landing.In old ∨ ∃ skipped, landing.before = old ++ skipped ∧
      skipped ⊆ new ∧ landing.step ∈ new := by
  obtain ⟨flight, after, split⟩ := landed
  rcases split_append split with ⟨rest, inside, -⟩ | ⟨skipped, inside, before⟩
  · exact .inl ⟨flight, rest, inside⟩
  · refine .inr ⟨skipped, before, ?_, ?_⟩
    · exact inside ▸ List.subset_append_left skipped _
    · exact inside ▸ List.mem_append_right skipped List.mem_cons_self

end

end Workbench.Tracing

namespace Workbench.Network

open Workbench.Library Workbench.Tracing

/-- What a link event of the network does to the trace and to the links. -/
structure State.Switched (s s' : State) (event : LinkEventPayload) : Prop where
  trace : s'.trace = s.trace ++ [⟨s.now, .networkEvent ⟨some event, none⟩⟩]
  inTransit : ∀ l, (s'.links l).inTransit = (s.links l).inTransit
  delay : ∀ l, (s'.links l).delay = if event.linkId = l ∧ (s.links l).isDown = true then
    event.delay.getD (s.links l).delay else (s.links l).delay
  status : ∀ l, (s'.links l).isDown = if event.linkId = l then
    event.status.elim (s.links l).isDown (· = .down) else (s.links l).isDown

namespace State

variable {net : InMemoryNetwork} {s s' : State}

theorem processLinkEvent_switched (event : LinkEventPayload) (known : event.linkId ∈ net.linkIds) :
    Switched s (s.processLinkEvent net event) event := by
  have processed (l : LinkId) := @processLinkEvent_link net s event l known
  refine ⟨processLinkEvent_trace known, fun l => ?_, fun l => ?_, fun l => ?_⟩
  · rw [processed]
    split
    · exact LinkState.process_inTransit
    · rfl
  · rw [processed]
    by_cases here : event.linkId = l
    · simp [here, LinkState.process_delay]
    · simp [here]
  · rw [processed]
    split
    · exact LinkState.process_isDown
    · rfl

/-- The trace tells the delay and the status of each link, and no packet gets from its link
to a node before the delay has passed with which it was sent. -/
structure Clocked (net : InMemoryNetwork) (s : State) : Prop where
  delay : ∀ l, (s.links l).delay = delayInForce net l s.trace
  status : ∀ l, (s.links l).isDown = decide (linkStatus l s.trace = .down)
  queued : ∀ l, ∀ p ∈ (s.links l).inTransit.queue, ∃ delay ≤ p.delay,
    delayAtSend net p.data.id s.trace = some delay
  landed : ∀ landing : Landing, landing.In s.trace → ∃ delay,
    delayAtSend net landing.arrival.packetId landing.before = some delay ∧
      landing.flight.sent + delay ≤ landing.time

theorem Clocked.initial : (initial net).Clocked net where
  delay _ := rfl
  status _ := rfl
  queued _ _ queued := nomatch queued
  landed landing landed := by
    obtain ⟨after, split⟩ := landed.split
    simp [State.initial, trace] at split

theorem Clocked.calm (clocked : s.Clocked net) (fresh : Function.Injective net.uuids)
    (follows : Moment.Follows ⟨s, []⟩ net) (calm : Calm net s s') : s'.Clocked net := by
  obtain ⟨idles, ids, steps, grown, told, sources⟩ := calm
  have inland (step : SimulationStep) (member : step ∈ steps) : Inland ids step.kind :=
    (told step member).2
  have stay : LinksStay net s.trace s'.trace := grown ▸ .append inland
  refine ⟨fun l => ?_, fun l => ?_, fun l p queued => ?_, fun landing landed => ?_⟩
  · rw [idles.delay, stay.delay, clocked.delay]
  · rw [LinkState.isDown, idles.status, stay.status]
    exact clocked.status l
  · rw [stay.sends]
    exact clocked.queued l p (idles.queue l queued)
  rw [grown] at landed
  rcases landed.append with old | ⟨skipped, before, subset, arrives⟩
  · exact clocked.landed landing old
  obtain ⟨now, arriving⟩ := told _ arrives
  have stayed : LinksStay net s.trace landing.before :=
    before ▸ .append fun step member => inland step (subset member)
  have flies := stayed.flights _ _ landed.flight
  rw [stayed.sends]
  rcases sources _ arriving with new | ⟨l, p, queued, same, due⟩
  · -- a packet that is new was on no link
    have unissued : ¬ s.Issued net landing.arrival.packetId := by
      rintro ⟨i, earlier, issued⟩
      exact absurd (fresh (issued.trans new)) earlier.ne
    have nowhere := (follows.unseen _ unissued 0).flight
    rw [flies] at nowhere
    cases nowhere
  · have there := (follows.placed _ (.inr (.inTransit queued))).there.flight
    rw [same, flies] at there
    obtain ⟨delay, within, sent⟩ := clocked.queued l p queued
    refine ⟨delay, same ▸ sent, ?_⟩
    have flight : landing.flight = ⟨l, p.sent⟩ := Option.some.inj there
    have time : landing.time = s.now := now
    have arrival : p.arrivalTime = p.sent + p.delay := rfl
    rw [time, flight]
    dsimp only
    omega

theorem Clocked.switched {event : LinkEventPayload} (clocked : s.Clocked net)
    (switched : Switched s s' event) : s'.Clocked net := by
  have down (l : LinkId) : linkStatus l s.trace = .down ↔ (s.links l).isDown = true := by
    simp [clocked.status l]
  refine ⟨fun l => ?_, fun l => ?_, fun l p queued => ?_, fun landing landed => ?_⟩
  · rw [switched.delay, switched.trace, delayInForce_concat, SimulationStep.linkDelay?]
    simp only [down]
    split
    · rw [clocked.delay]
    · exact clocked.delay l
  · rw [switched.status, switched.trace, linkStatus_concat, SimulationStep.linkStatus?]
    dsimp only
    split
    · cases event.status with
      | none => exact clocked.status l
      | some status => rfl
    · exact clocked.status l
  · rw [switched.inTransit] at queued
    rw [switched.trace, delayAtSend_concat]
    exact clocked.queued l p queued
  · rw [switched.trace] at landed
    rcases landed.append with old | ⟨-, -, -, arrives⟩
    · exact clocked.landed landing old
    · have kind := congrArg SimulationStep.kind (List.mem_singleton.mp arrives)
      cases kind

theorem Clocked.carried {t : State} {l : LinkId} {k : OutgoingPacket} {data : InTransitData}
    {pacer : PacketPacer} (clocked : s.Clocked net) (located : Located net False ⟨s, []⟩)
    (competing : s.Competing net) (takes : s.Takes t l k)
    (unhandled : s.handled k.handled = false) (marked : k.anomalies.mark k.data = some data) :
    (((t.markHandled k).carry l k data pacer).noteAct k.handled l .sent).Clocked net := by
  have idles := takes.works.idles
  have same := (PacketAnomalies.mark_some marked).1
  have grown : (((t.markHandled k).carry l k data pacer).noteAct k.handled l .sent).trace =
      s.trace ++ [⟨t.now, .packetInTransit ⟨data.id, k.srcNode, l⟩⟩] := by
    rw [trace, trace, ← takes.works.log]
    exact List.filterMap_append
  have changed (l' : LinkId) :
      ((((t.markHandled k).carry l k data pacer).noteAct k.handled l .sent).links l').delay =
        (t.links l').delay ∧
      ((((t.markHandled k).carry l k data pacer).noteAct k.handled l .sent).links l').status =
        (t.links l').status := by
    rw [noteAct_links]
    by_cases here : l' = l
    · rw [here, carry_self]
      exact ⟨rfl, rfl⟩
    · rw [carry_of_ne _ _ _ _ here]
      exact ⟨rfl, rfl⟩
  -- the packets that are on links already are others than the one that is sent
  have others (l' : LinkId) (p : PrioritizedInTransitData)
      (queued : p ∈ (t.links l').inTransit.queue) : ∃ delay ≤ p.delay,
        delayAtSend net p.data.id (s.trace ++
          [⟨t.now, .packetInTransit ⟨data.id, k.srcNode, l⟩⟩]) = some delay := by
    have there := idles.queue l' queued
    have differs : data.id ≠ p.data.id := by
      intro equal
      have here : Moment.Has ⟨s, []⟩ ⟨k.data, .inside k.srcNode⟩ :=
        .inr (takes.has competing unhandled)
      have sole := here.unique located (.inr (.inTransit there)) (same.symm.trans equal)
      cases congrArg Held.stage sole
    obtain ⟨delay, within, sent⟩ := clocked.queued l' p there
    refine ⟨delay, within, ?_⟩
    rw [delayAtSend_concat, SimulationStep.departure?]
    simpa [differs] using sent
  refine ⟨fun l' => ?_, fun l' => ?_, fun l' p queued => ?_, fun landing landed => ?_⟩
  · rw [(changed l').1, idles.delay, grown, delayInForce_concat]
    exact clocked.delay l'
  · rw [LinkState.isDown, (changed l').2, idles.status, grown, linkStatus_concat]
    exact clocked.status l'
  · rw [grown]
    rw [noteAct_links] at queued
    by_cases here : l' = l
    · rw [here, carry_self] at queued
      rcases List.mem_append.mp queued with old | new
      · exact others l p old
      · obtain rfl := List.mem_singleton.mp new
        refine ⟨(t.links l).delay, Nat.le_add_right _ _, ?_⟩
        rw [delayAtSend_concat, SimulationStep.departure?, idles.delay, clocked.delay]
        simp
    · rw [carry_of_ne _ _ _ _ here] at queued
      exact others l' p queued
  · rw [grown] at landed
    rcases landed.append with old | ⟨-, -, -, arrives⟩
    · exact clocked.landed landing old
    · have kind := congrArg SimulationStep.kind (List.mem_singleton.mp arrives)
      cases kind

theorem Clocked.step {action : Action} (clocked : s.Clocked net)
    (fresh : Function.Injective net.uuids) (follows : Moment.Follows ⟨s, []⟩ net)
    (located : Located net False ⟨s, []⟩) (competing : s.Competing net)
    (taken : s.step net action = some s') : s'.Clocked net := by
  have calm (calm : Calm net s s') : s'.Clocked net := clocked.calm fresh follows calm
  cases action with
  | linkEvent event =>
      obtain rfl := Option.some.inj taken
      by_cases known : event.linkId ∈ net.linkIds
      · exact clocked.switched (processLinkEvent_switched event known)
      · simp only [processLinkEvent, known, not_false_eq_true, if_true]
        exact clocked
  | pollLink l =>
      simp only [State.step] at taken
      split at taken
      · cases taken
      cases pollLink_polls taken with
      | waits quiet works => exact calm (Tells.calm (.nothing works.now works.log) works.idles)
      | panics works alive =>
          exact calm (Tells.calm (.nothing works.now works.log)
            (works.idles.trans (endQueueTask_idles _ l)))
      | discards takes handled =>
          exact calm (Tells.calm (.nothing takes.works.now takes.works.log) takes.works.idles)
      | @clears t k takes unhandled cleared =>
          have told : Tells [] (((t.markHandled k).noteAct k.handled l .cleared))
            (t.dropCleared l k) := .record _ trivial
          exact calm (Tells.calm (told.after takes.works.now takes.works.log)
            (takes.works.idles.trans (.of_links rfl)))
      | sends takes unhandled kept up marked =>
          exact clocked.carried located competing takes unhandled marked
      | @sendPanics t k takes unhandled =>
          have marked : Idles t (t.markHandled k) := .of_links rfl
          exact calm (Tells.calm (.nothing takes.works.now takes.works.log)
            (takes.works.idles.trans (marked.trans (endQueueTask_idles _ l))))
  | advance | nodeEvent | sendUdp | processBuffer | pollForwarder | pollRecv | checkReceive =>
      exact calm (step_calm taken (by simp) (by simp))

theorem clocked_of_run (fresh : Function.Injective net.uuids) {past : List (State × Action)}
    (run : Run (State.step net) (.initial net) past s) :
    ∀ state ∈ visited past s, state.Clocked net := by
  have kept := run.guarded_visited
    (fun s => s.Competing net ∧ Located net False ⟨s, []⟩ ∧ Moment.Follows ⟨s, []⟩ net ∧ s.Clocked net)
    (fun _ _ => True) ⟨.initial, .initial, .initial, .initial⟩ (fun _ _ => trivial)
    fun s action s' ⟨competing, located, follows, clocked⟩ _ taken =>
      ⟨competing.step taken, located.step fresh competing taken,
        follows.next fresh competing located taken, clocked.step fresh follows located competing taken⟩
  exact fun state member => (kept state member).2.2.2

end State

end Workbench.Network

namespace Workbench.Tracing

open Workbench.Library Workbench.Network

namespace Replay

variable {this : Replay} {time : Nat} {s : PacketInNode} {inFlight : InFlightPacket}
  {metadata : LinkMetadata}

/-- A packet that gets to a node is too fast by the delay on record for its link. -/
theorem packetInNode_tooFast (flies : this.inFlightPackets.lookup s.packetId = some inFlight)
    (known : this.linkMetadata.lookup inFlight.linkId = some metadata)
    (sent : inFlight.sentAtRelative ≤ time) :
    .tooFastPacketReceive s.nodeId inFlight.linkId ∈ (this.packetInNode time s).reports ↔
      time - inFlight.sentAtRelative < metadata.delay + inFlight.extraDelay := by
  have later : ¬ time < inFlight.sentAtRelative := by omega
  have checked (wrong : Prop) [Decidable wrong] (report : NonFatalError) :
      (Tracked.check wrong report : Verdict Unit).Yields () := Tracked.yields_check.mpr trivial
  simp only [packetInNode, flies, known, later, if_false, Tracked.unwrap, pure_bind]
  rw [Tracked.mem_reports_bind (checked _ _), Tracked.mem_reports_check,
    Tracked.mem_reports_bind (checked _ _), Tracked.mem_reports_check]
  constructor
  · rintro (⟨-, wrong⟩ | ⟨fast, -⟩ | later)
    · cases wrong
    · exact fast
    · refine absurd rfl ((?_ : Reports
        (fun report => report ≠ .tooFastPacketReceive s.nodeId inFlight.linkId) _).reports _ later)
      refine .seq (reports_unwrap _) fun link => .seq ?_ fun _ => ?_
      · unfold checkOutage
        split
        · exact .pure trivial
        · exact .check fun _ => by simp
      · exact withNode_reports _ _ fun node => node.packetReceived_reports time (by simp) (by simp)
  · exact fun fast => .inr (.inl ⟨fast, rfl⟩)

end Replay

namespace SimulationVerifier

variable {this : SimulationVerifier} {spec : NetworkSpec} {net : InMemoryNetwork}
  {order : Option Nat → List NodeId} {trace : List SimulationStep} {landing : Landing}

/-- The delay on record for a link is the one in the description of the network. -/
theorem Made.delay_eq (made : this.Made spec) (built : net.Built spec) {l : LinkId}
    {metadata : LinkMetadata} (known : this.linkMetadata.lookup l = some metadata) :
    metadata.delay = (net.links l).delay := by
  obtain ⟨link, member, rfl, -, -, delay, -⟩ := made.linkMetadata l metadata known
  rw [delay, built.links link member]
  rfl

/-- A packet that gets to a node is reported by the delay in the description of the network. -/
theorem Made.reported_iff (made : this.Made spec) (built : net.Built spec) (landed : landing.In trace)
    (sorted : (trace.map (·.relativeTime)).Pairwise (· ≤ ·))
    (plain : ∀ step ∈ trace, step.kind.isAnomaly = false)
    (expected : ∀ before step after, trace = before ++ step :: after →
      Expected net before step.kind) (sent : landing.flight.sent ≤ landing.time) :
    landing.Reported this order ↔
      landing.timeInFlight < (net.links landing.flight.link).delay := by
  obtain ⟨flight, after, rfl⟩ := landed
  obtain ⟨replay, replayed, mirrors, metadata, -, consistent⟩ :=
    made.replays_before built sorted expected order
  have plain := made.replayed_undisturbed
    (fun step member => plain step (List.mem_append_left _ member)) replayed
  obtain ⟨begun, start⟩ := Replay.startTime_goes consistent.metadata order landing.time
  have sampled := Replay.startTime_sampled start
  -- the packet as the replay has it in flight
  have flies := (mirrors.flights landing.arrival.packetId).trans flight
  obtain ⟨inFlight, found, same⟩ := Option.map_eq_some_iff.mp flies
  have carried := (consistent.inFlight _ inFlight found).1
  obtain ⟨linkMetadata, known⟩ := Option.isSome_iff_exists.mp (AList.lookup_isSome.mpr carried)
  have calm := plain.inFlight _ inFlight found
  have delay := made.delay_eq built (metadata ▸ known)
  rw [← sampled.inFlight] at found
  rw [← sampled.linkMetadata] at known
  have link : landing.flight.link = inFlight.linkId := congrArg Flight.link same.symm
  have left : landing.flight.sent = inFlight.sentAtRelative := congrArg Flight.sent same.symm
  have judged := Replay.packetInNode_tooFast found known (left ▸ sent)
  rw [calm, Nat.add_zero, delay, ← link, ← left] at judged
  have stepped : .tooFastPacketReceive landing.arrival.nodeId landing.flight.link ∈
      (replay.replayStep order landing.step).reports ↔
        landing.timeInFlight < (net.links landing.flight.link).delay :=
    (Replay.mem_replayStep_reports start (by simp)).trans judged
  constructor
  · rintro ⟨replay', replayed', reported⟩
    obtain rfl := Except.ok.inj (replayed.symm.trans replayed')
    exact stepped.mp reported
  · exact fun fast => ⟨replay, replayed, stepped.mpr fast⟩

/-- In a run, the delay of each link is the one in force by the trace, and the verifier
checks packets against it exactly where no packet that was sent with less than the delay
in the description is faster than that. -/
theorem delayChecked_iff {uuids : Nat → Uuid} {packetDelay : Nat → Nat → Nat}
    (accepted : InMemoryNetwork.initialize spec uuids packetDelay = .ok net)
    (fresh : Function.Injective uuids) {past : List (State × Action)} {s : State}
    (run : Run (State.step net) (.initial net) past s)
    (made : SimulationVerifier.new s.trace spec = .ok this) (order : Option Nat → List NodeId) :
    (∀ state ∈ visited past s, ∀ l, (state.links l).delay = delayInForce net l state.trace) ∧
      (DelayChecked net this order s.trace ↔ Unhurried net s.trace) := by
  have built := InMemoryNetwork.initialized_built accepted
  have fresh : Function.Injective net.uuids :=
    InMemoryNetwork.initialized_uuids accepted ▸ fresh
  have clocked := State.clocked_of_run fresh run
  have follows := State.follows_of_run fresh run
  have timely := State.timely_of_run run
  obtain ⟨made, -⟩ := new_made made
  have last : s.Clocked net := clocked s List.mem_cons_self
  refine ⟨fun state member l => (clocked state member).delay l, ?_⟩
  have reported (landing : Landing) (landed : landing.In s.trace)
      (sent : landing.flight.sent ≤ landing.time) : landing.Reported this order ↔
        landing.timeInFlight < (net.links landing.flight.link).delay :=
    made.reported_iff built landed timely.sorted timely.plain follows.expected sent
  constructor
  · intro checked landing landed delay sent less
    obtain ⟨delay', sent', iff⟩ := checked landing landed
    obtain ⟨delay'', sent'', late⟩ := last.landed landing landed
    obtain rfl := Option.some.inj (sent.symm.trans sent')
    obtain rfl := Option.some.inj (sent.symm.trans sent'')
    rw [reported landing landed (by omega)] at iff
    by_contra fast
    have early := iff.mp (by omega)
    unfold Landing.timeInFlight at early
    omega
  · intro unhurried landing landed
    obtain ⟨delay, sent, late⟩ := last.landed landing landed
    refine ⟨delay, sent, ?_⟩
    rw [reported landing landed (by omega)]
    have slow := unhurried landing landed delay sent
    unfold Landing.timeInFlight at slow ⊢
    omega

/-- The link between two hosts goes down, and comes up with a delay of three. -/
def falling : LinkEventPayload := ⟨0, some .down, none, none, none, none, none, none, none⟩

def rising : LinkEventPayload := ⟨0, some .up, none, some 3, none, none, none, none, none⟩

/-- A packet that is sent then gets to the second host three later. -/
def sentAfter : Landing where
  before := [⟨0, .networkEvent ⟨some falling, none⟩⟩, ⟨0, .networkEvent ⟨some rising, none⟩⟩,
    ⟨0, .packetInNode ⟨0, 0, 28, 0, false⟩⟩, ⟨0, .packetInTransit ⟨0, 0, 0⟩⟩]
  time := 3
  arrival := ⟨0, 0, 28, 1, false⟩
  flight := ⟨0, 0⟩

/-- A packet that the link gives away only nine later than it could. -/
def takenLate : Landing := { sentAfter with time := 12 }

theorem delayChecked_iff_twoHosts : ∃ net past s this,
    InMemoryNetwork.initialize .twoHosts id (fun _ size => size) = .ok net ∧
      Run (State.step net) (.initial net) past s ∧
      SimulationVerifier.new s.trace .twoHosts = .ok this ∧
      takenLate.In s.trace ∧ delayAtSend net 0 takenLate.before = some 3 ∧
      (∀ state ∈ visited past s, ∀ l, (state.links l).delay = delayInForce net l state.trace) ∧
        DelayChecked net this (fun _ => [0, 1]) s.trace := by
  obtain ⟨net, accepted, reached⟩ :
      ∃ net, InMemoryNetwork.initialize .twoHosts id (fun _ size => size) = .ok net ∧
        (attains (State.step net) (.initial net) [.linkEvent falling, .linkEvent rising,
          .sendUdp 0 greeting 0, .processBuffer 0 [], .pollLink 0, .advance 12,
          .pollForwarder 0 [] []]).map State.trace = some (takenLate.before ++ [takenLate.step]) :=
    ⟨_, rfl, by decide +kernel⟩
  obtain ⟨s, attained, trace⟩ := Option.map_eq_some_iff.mp reached
  obtain ⟨past, run, -⟩ := Run.of_attains attained
  obtain ⟨this, made⟩ : ∃ this,
      SimulationVerifier.new (takenLate.before ++ [takenLate.step]) .twoHosts = .ok this := ⟨_, rfl⟩
  rw [← trace] at made
  have built := InMemoryNetwork.initialized_built accepted
  have described : (net.links 0).delay = 10 := by
    rw [built.links ⟨0, .v4 1, .v4 2, 10, 1000, 0, 0, 0⟩ List.mem_cons_self]
    rfl
  have unhurried : Unhurried net s.trace := by
    rintro landing ⟨flight, after, split⟩ delay - -
    have inside : (landing.before, landing.step) ∈ moments (takenLate.before ++ [takenLate.step]) :=
      mem_moments.mpr ⟨after, trace ▸ split⟩
    obtain ⟨before, time, arrival, flown⟩ := landing
    simp only [takenLate, sentAfter, Landing.step, moments, momentsFrom, List.cons_append, List.nil_append,
      List.mem_cons, Prod.mk.injEq, SimulationStep.mk.injEq, List.not_mem_nil, or_false, reduceCtorEq,
      and_false, false_or, SimulationStepKind.packetInNode.injEq] at inside
    -- The first of the two arrivals comes from no link.
    rcases inside with ⟨rfl, -, rfl⟩ | ⟨rfl, rfl, rfl⟩
    · cases flight
    · obtain rfl := Option.some.inj flight
      rw [described]
      decide
  obtain ⟨inForce, checked⟩ := delayChecked_iff accepted Function.injective_id run made fun _ => [0, 1]
  exact ⟨net, past, s, this, accepted, run, made, ⟨rfl, [], trace⟩, rfl, inForce, checked.mpr unhurried⟩

/-- A packet that took the delay its link had as it was sent is reported. -/
theorem reported_after_delay : ∃ net past s this,
    InMemoryNetwork.initialize .twoHosts id (fun _ size => size) = .ok net ∧
      Run (State.step net) (.initial net) past s ∧
      SimulationVerifier.new s.trace .twoHosts = .ok this ∧
      sentAfter.In s.trace ∧ delayAtSend net 0 sentAfter.before = some 3 ∧
      sentAfter.timeInFlight = 3 ∧ sentAfter.Reported this (fun _ => [0, 1]) ∧
      ¬ DelayChecked net this (fun _ => [0, 1]) s.trace := by
  obtain ⟨net, accepted, reached⟩ :
      ∃ net, InMemoryNetwork.initialize .twoHosts id (fun _ size => size) = .ok net ∧
        (attains (State.step net) (.initial net) [.linkEvent falling, .linkEvent rising,
          .sendUdp 0 greeting 0, .processBuffer 0 [], .pollLink 0, .advance 3,
          .pollForwarder 0 [] []]).map State.trace = some (sentAfter.before ++ [sentAfter.step]) :=
    ⟨_, rfl, by decide +kernel⟩
  obtain ⟨s, attained, trace⟩ := Option.map_eq_some_iff.mp reached
  obtain ⟨past, run, -⟩ := Run.of_attains attained
  obtain ⟨this, made⟩ : ∃ this,
      SimulationVerifier.new (sentAfter.before ++ [sentAfter.step]) .twoHosts = .ok this := ⟨_, rfl⟩
  rw [← trace] at made
  have built := InMemoryNetwork.initialized_built accepted
  have fresh : Function.Injective net.uuids :=
    InMemoryNetwork.initialized_uuids accepted ▸ Function.injective_id
  have landed : sentAfter.In s.trace := ⟨rfl, [], trace⟩
  have sent : delayAtSend net 0 sentAfter.before = some 3 := rfl
  have described : (net.links 0).delay = 10 := by
    rw [built.links ⟨0, .v4 1, .v4 2, 10, 1000, 0, 0, 0⟩ List.mem_cons_self]
    rfl
  have timely := State.timely_of_run run
  have reported : sentAfter.Reported this (fun _ => [0, 1]) := by
    refine ((new_made made).1.reported_iff built landed timely.sorted timely.plain
      (State.follows_of_run fresh run).expected (Nat.zero_le 3)).mpr ?_
    rw [show sentAfter.flight.link = 0 from rfl, described]
    decide
  refine ⟨net, past, s, this, accepted, run, made, landed, sent, rfl, reported, fun checked => ?_⟩
  obtain ⟨delay, sent', iff⟩ := checked sentAfter landed
  obtain rfl := Option.some.inj (sent.symm.trans sent')
  exact absurd (iff.mp reported) (by decide)

end SimulationVerifier

end Workbench.Tracing
