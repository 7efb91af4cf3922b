import Workbench.Library.Endings
import Workbench.Tracing.Outages
import Workbench.Tracing.Statistics

/-! Which steps a verifier can replay. A step has a fault where it is about a node or a link
that the network does not have, about a packet that is not in its node, or brings a packet
to a node that has it already; the earlier steps tell. A verifier stops at the first fault of
its steps, and nowhere else. -/

set_option autoImplicit false

namespace Workbench.Tracing

open Workbench.Library Workbench.Network

def hasNode (spec : NetworkSpec) (n : NodeId) : Bool := spec.nodes.any (·.id = n)

def hasLink (spec : NetworkSpec) (l : LinkId) : Bool := spec.links.any (·.id = l)

def nodeFault (spec : NetworkSpec) (n : NodeId) : Option FatalError :=
  if hasNode spec n then none else some (.missingNode n)

def linkFault (spec : NetworkSpec) (l : LinkId) : Option FatalError :=
  if hasLink spec l then none else some (.missingLink l)

/-- A packet gets to a node that has it. -/
def entryFault (n : NodeId) (id : Uuid) (before : List SimulationStep) : Option FatalError :=
  if (sizeIn n id before).isSome then some (.packetAlreadyReceived id) else none

/-- A packet is to leave a node that does not have it. -/
def exitFault (n : NodeId) (id : Uuid) (before : List SimulationStep) : Option FatalError :=
  if (sizeIn n id before).isSome then none else some (.missingPacket id)

def eventFault (spec : NetworkSpec) (e : NetworkEvent) : Option FatalError :=
  (e.link.bind fun event => event.status.bind fun _ => linkFault spec event.linkId).or
    (e.node.bind fun event => nodeFault spec event.nodeId)

def stepFault (spec : NetworkSpec) (before : List SimulationStep) :
    SimulationStepKind → Option FatalError
  | .packetInNode s =>
    (nodeFault spec s.nodeId).or
      -- a packet that is refused by the node does not get there
      (if (openFlight s.packetId before).isSome ∧ s.droppedOnArrival then none
      else entryFault s.nodeId s.packetId before)
  | .packetDuplicated s => (nodeFault spec s.nodeId).or (entryFault s.nodeId s.packetId before)
  | .packetDropped s | .packetExtraDelay s => (nodeFault spec s.nodeId).or (exitFault s.nodeId s.packetId before)
  | .packetDeliveredToApplication s =>
    (nodeFault spec s.nodeId).or (exitFault s.nodeId s.packetId before)
  | .packetLostInTransit _ => none
  | .packetInTransit s =>
    ((nodeFault spec s.nodeId).or (exitFault s.nodeId s.packetId before)).or
      (linkFault spec s.linkId)
  | .packetCongestionEvent s => nodeFault spec s.nodeId
  | .networkEvent e => eventFault spec e

/-- The first fault of a trace. -/
def firstFault (spec : NetworkSpec) (trace : List SimulationStep) : Option FatalError :=
  (moments trace).findSome? fun m => stepFault spec m.1 m.2.kind

/-- The computation stops at a fault, or goes through if there is none. -/
abbrev Stops {α : Type} (x : Verdict α) (fault : Option FatalError) : Prop :=
  x.Ends (fault.map .fatal)

section

variable {spec : NetworkSpec} {before : List SimulationStep} {n : NodeId} {l : LinkId} {id : Uuid}

theorem hasNode_iff : hasNode spec n = true ↔ ∃ node ∈ spec.nodes, node.id = n := by
  simp [hasNode]

theorem hasLink_iff : hasLink spec l = true ↔ ∃ link ∈ spec.links, link.id = l := by
  simp [hasLink]

theorem Stops.bind {α β : Type} {x : Verdict α} {f : α → Verdict β} {fault fault' : Option FatalError}
    (first : Stops x fault) (rest : ∀ a, x.Yields a → Stops (f a) fault') :
    Stops (x >>= f) (fault.or fault') := by
  unfold Stops
  rw [Option.map_or]
  exact Tracked.Ends.bind first rest

theorem Stops.check {wrong : Prop} [Decidable wrong] {report : NonFatalError} :
    Stops (.check wrong report) none := Tracked.Ends.check wrong report

/-- A computation goes on, through a check or to the data that it needs. -/
theorem Stops.seq {α β : Type} {x : Verdict α} {f : α → Verdict β} {fault : Option FatalError}
    (first : Stops x none) (rest : ∀ a, x.Yields a → Stops (f a) fault) : Stops (x >>= f) fault :=
  first.bind rest

/-- What goes through afterwards does not change how a computation stops. -/
theorem Stops.last {α β : Type} {x : Verdict α} {f : α → Verdict β} {fault : Option FatalError}
    (first : Stops x fault) (rest : ∀ a, x.Yields a → Stops (f a) none) : Stops (x >>= f) fault := by
  have whole := Tracked.Ends.bind first rest
  rwa [Option.map_none, Option.or_none] at whole

theorem Stops.thenPure {α β : Type} {x : Verdict α} {f : α → β} {fault : Option FatalError}
    (stops : Stops x fault) : Stops (x >>= fun a => pure (f a)) fault :=
  stops.last fun a _ => .pure (f a)

theorem Stops.known {α β : Type} {reason : Halt} {o : Option α} {f : α → Verdict β}
    {fault : Option FatalError} (known : o ≠ none) (rest : ∀ a, o = some a → Stops (f a) fault) :
    Stops (.unwrap reason o >>= f) fault :=
  Tracked.Ends.unwrap (fun missing => absurd missing known) rest

namespace ReplayedNode

variable {this : ReplayedNode}

/-- The packets in the node are those that the trace has there. -/
def Holds (this : ReplayedNode) (n : NodeId) (before : List SimulationStep) : Prop :=
  ∀ id, id ∈ this.packets ↔ (sizeIn n id before).isSome

theorem Holds.addPacketToBuffer_stops (holds : this.Holds n before) (size now : Nat) :
    Stops (this.addPacketToBuffer id size now) (entryFault n id before) := by
  refine Stops.check.seq fun _ _ => ?_
  unfold entryFault
  by_cases inside : id ∈ this.packets
  · rw [if_pos inside, if_pos ((holds id).mp inside)]
    exact .halt _
  · rw [if_neg inside, if_neg (mt (holds id).mpr inside)]
    exact .pure _

theorem Holds.removePacketFromBuffer_stops (holds : this.Holds n before) (consistent : this.Consistent) :
    Stops (this.removePacketFromBuffer id) (exitFault n id before) := by
  unfold exitFault
  by_cases inside : id ∈ this.packets
  · rw [if_pos ((holds id).mp inside)]
    obtain ⟨packet, held⟩ := Option.isSome_iff_exists.mp (AList.lookup_isSome.mpr inside)
    have whole : this.bufferUsage = total ReplayedPacket.sizeBytes this.packets := consistent
    have part : total ReplayedPacket.sizeBytes (this.packets.erase id) + packet.sizeBytes =
        total ReplayedPacket.sizeBytes this.packets := total_erase held
    exact .of_yields (removePacketFromBuffer_yields.mpr ⟨held, by omega, rfl⟩)
  · rw [if_neg (mt (holds id).mpr inside), removePacketFromBuffer,
      show this.packets.lookup id = none from AList.lookup_eq_none.mpr inside]
    exact .halt _

theorem Holds.packetSent_stops (holds : this.Holds n before) (consistent : this.Consistent) :
    Stops (this.packetSent id) (exitFault n id before) := by
  have removed : Stops (this.removePacketFromBuffer id) (exitFault n id before) :=
    holds.removePacketFromBuffer_stops consistent
  exact Stops.check.seq fun _ _ => removed.last fun _ _ => Stops.check.thenPure

theorem Holds.packetHasExtraDelay_stops (holds : this.Holds n before) (delay : Nat) :
    Stops (this.packetHasExtraDelay id delay) (exitFault n id before) := by
  unfold exitFault ReplayedNode.packetHasExtraDelay
  split
  · next absent =>
      rw [if_neg (mt (holds id).mpr (AList.lookup_eq_none.mp absent))]
      exact .halt _
  · next packet held =>
      rw [if_pos ((holds id).mp (mem_of_lookup held))]
      exact .pure _

end ReplayedNode

namespace Replay

variable {this next : Replay} {time : Nat}

/-- A replay of a network: it has the nodes and links of the description, and no others. -/
structure Portrays (this : Replay) (spec : NetworkSpec) : Prop where
  nodes : ∀ n, n ∈ this.nodes ↔ hasNode spec n
  links : ∀ l, l ∈ this.links ↔ hasLink spec l
  linkMetadata : ∀ l, l ∈ this.linkMetadata ↔ hasLink spec l

/-- A replay of a network that knows the steps so far. -/
structure Abreast (this : Replay) (spec : NetworkSpec) (before : List SimulationStep) : Prop where
  portrays : this.Portrays spec
  mirrors : this.Mirrors before
  consistent : this.Consistent

theorem Abreast.holds (abreast : this.Abreast spec before) {node : ReplayedNode}
    (there : this.nodes.lookup n = some node) : node.Holds n before := by
  intro id
  rw [← abreast.mirrors.sizes n node there, ReplayedNode.sizeOf, Option.isSome_map,
    AList.lookup_isSome]

theorem node_stops (nodes : ∀ n, n ∈ this.nodes ↔ hasNode spec n) :
    Stops (this.node n) (nodeFault spec n) := by
  unfold nodeFault Replay.node
  cases there : this.nodes.lookup n with
  | none =>
      rw [if_neg (mt (nodes n).mpr (AList.lookup_eq_none.mp there))]
      exact .halt _
  | some node =>
      rw [if_pos ((nodes n).mp (mem_of_lookup there))]
      exact .pure _

theorem withNode_pure_stops (nodes : ∀ n, n ∈ this.nodes ↔ hasNode spec n)
    {change : ReplayedNode → ReplayedNode} :
    Stops (this.withNode n fun node => pure (change node)) (nodeFault spec n) :=
  (node_stops nodes).thenPure

theorem Portrays.link_stops (portrays : this.Portrays spec) :
    Stops (this.link l) (linkFault spec l) := by
  unfold linkFault Replay.link
  cases there : this.links.lookup l with
  | none =>
      rw [if_neg (mt (portrays.links l).mpr (AList.lookup_eq_none.mp there))]
      exact .halt _
  | some link =>
      rw [if_pos ((portrays.links l).mp (mem_of_lookup there))]
      exact .pure _

theorem withNode_stops (nodes : ∀ n, n ∈ this.nodes ↔ hasNode spec n) {fault : Option FatalError}
    {change : ReplayedNode → Verdict ReplayedNode}
    (changes : ∀ node, this.nodes.lookup n = some node → Stops (change node) fault) :
    Stops (this.withNode n change) ((nodeFault spec n).or fault) := by
  refine (node_stops nodes).bind fun node there => ?_
  exact (changes node (Tracked.yields_unwrap.mp there)).thenPure

theorem checkOutage_stops {link : ReplayedLink} {inFlight : InFlightPacket} :
    Stops (checkOutage link inFlight n) none := by
  unfold checkOutage
  split
  · exact .pure ()
  · exact .check

theorem Abreast.packetInNode_stops (abreast : this.Abreast spec before)
    (now : this.lastStepTime = time) (s : PacketInNode) :
    Stops (this.packetInNode time s) (stepFault spec before (.packetInNode s)) := by
  have flying : (openFlight s.packetId before).isSome = (this.inFlightPackets.lookup s.packetId).isSome := by
    rw [← abreast.mirrors.flights, flight, Option.isSome_map]
  unfold packetInNode stepFault
  dsimp only
  rw [flying]
  split
  · next inFlight flies =>
      rw [flies]
      obtain ⟨known, sent⟩ := abreast.consistent.inFlight s.packetId inFlight flies
      refine .known (mt AList.lookup_eq_none.mp (not_not.mpr known)) fun metadata _ => ?_
      refine Stops.check.seq fun _ _ => .known ?_ fun timeInFlight _ => ?_
      · rw [if_neg (by omega)]
        exact Option.some_ne_none _
      have linked : inFlight.linkId ∈ this.links :=
        (abreast.portrays.links _).mpr ((abreast.portrays.linkMetadata _).mp known)
      refine Stops.check.seq fun _ _ => .known ?_ fun link _ => checkOutage_stops.seq fun _ _ => ?_
      · exact mt AList.lookup_eq_none.mp (not_not.mpr linked)
      have nodes : ∀ n, n ∈ (this.ground s.packetId).nodes ↔ hasNode spec n := abreast.portrays.nodes
      refine withNode_stops nodes fun node there => ?_
      have there : this.nodes.lookup s.nodeId = some node := there
      have holds : node.Holds s.nodeId before := abreast.holds there
      have holds : (node.countReceived s).Holds s.nodeId before := holds
      unfold ReplayedNode.packetReceived
      cases dropped : s.droppedOnArrival with
      | true => exact Stops.seq (Tracked.Ends.check _ _) fun _ _ => .pure _
      | false =>
          simp only [Bool.false_eq_true, and_false, if_false]
          exact holds.addPacketToBuffer_stops _ _
  · next grounded =>
      simp only [grounded, Option.isSome_none, Bool.false_eq_true, false_and, if_false]
      exact withNode_stops abreast.portrays.nodes fun node there =>
        (abreast.holds there).addPacketToBuffer_stops _ _

theorem Abreast.packetInTransit_stops (abreast : this.Abreast spec before)
    (s : PacketInTransit) :
    Stops (this.packetInTransit time s) (stepFault spec before (.packetInTransit s)) := by
  have portrays := abreast.portrays
  unfold stepFault
  dsimp only
  rw [Option.or_assoc]
  refine (node_stops abreast.portrays.nodes).bind fun node there => ?_
  have there := Tracked.yields_unwrap.mp there
  refine Stops.bind ((abreast.holds there).packetSent_stops
    (abreast.consistent.nodes _ node there)) fun sent _ => ?_
  obtain ⟨packet, node'⟩ := sent
  unfold linkFault
  refine Tracked.Ends.unwrap (fun missing => ?_) fun metadata known => ?_
  · have missing : this.linkMetadata.lookup s.linkId = none := missing
    rw [if_neg (mt (portrays.linkMetadata _).mpr (AList.lookup_eq_none.mp missing))]
    rfl
  · have charted := (portrays.linkMetadata _).mp (mem_of_lookup known)
    rw [if_pos charted]
    obtain ⟨link, linked⟩ := Option.isSome_iff_exists.mp
      (AList.lookup_isSome.mpr ((portrays.links _).mpr charted))
    have carried := (abreast.consistent.links _ link linked).packetSent time packet.sizeBytes
      metadata.bandwidthBps
    refine Stops.check.seq fun _ _ => .known ?_ fun link' found => Stops.check.seq fun _ _ => ?_
    · exact linked ▸ Option.some_ne_none _
    obtain rfl := Option.some.inj (linked.symm.trans found)
    refine .known (carried ▸ Option.some_ne_none _) fun used _ => ?_
    exact Stops.check.thenPure

theorem linkTurn_of_yields {link? : Option LinkEventPayload}
    (yields : (link?.elim (pure this) (this.linkEvent time)).Yields next) :
    this.LinkTurn time link? next := by
  have turn : this.Turn time (.networkEvent ⟨link?, none⟩) next :=
    networkEvent_turn (Tracked.yields_bind.mpr ⟨next, yields, Tracked.yields_pure.mpr rfl⟩)
  cases turn with
  | event link node =>
      cases node
      exact link

theorem Abreast.networkEvent_stops (abreast : this.Abreast spec before) (e : NetworkEvent) :
    Stops (this.networkEvent time e) (eventFault spec e) := by
  obtain ⟨link?, node?⟩ := e
  refine Stops.bind ?_ fun middle linked => ?_
  · cases link? with
    | none => exact .pure _
    | some event =>
        unfold Option.elim linkEvent
        dsimp only
        cases status : event.status with
        | none =>
            simp only [Option.bind_some, status, Option.bind_none]
            exact .pure _
        | some status' =>
            simp only [Option.bind_some, status]
            exact abreast.portrays.link_stops.thenPure
  · cases node? with
    | none => exact .pure _
    | some event =>
        have nodes : middle.nodes = this.nodes := (linkTurn_of_yields linked).nodes
        exact withNode_pure_stops (nodes ▸ abreast.portrays.nodes)

theorem Abreast.replayKind_stops (abreast : this.Abreast spec before)
    (now : this.lastStepTime = time) (kind : SimulationStepKind) :
    Stops (this.replayKind time kind) (stepFault spec before kind) := by
  cases kind with
  | packetInNode s => exact abreast.packetInNode_stops now s
  | packetInTransit s => exact abreast.packetInTransit_stops s
  | networkEvent e => exact abreast.networkEvent_stops e
  | packetLostInTransit s =>
      unfold replayKind packetLostInTransit
      dsimp only
      split
      · exact .pure _
      · have tracked : Stops (.track (.missingLostPacket s.packetId)) none :=
          Tracked.Ends.of_yields (a := ()) (Tracked.yields_track.mpr trivial)
        exact tracked.thenPure
  | packetDuplicated s =>
      refine withNode_stops abreast.portrays.nodes fun node there => ?_
      have holds : node.Holds s.nodeId before := abreast.holds there
      have holds : (node.countDuplicated s.packetSizeBytes).Holds s.nodeId before := holds
      exact holds.addPacketToBuffer_stops _ _
  | packetDropped s =>
      refine withNode_stops abreast.portrays.nodes fun node there => ?_
      exact ((abreast.holds there).removePacketFromBuffer_stops
        (abreast.consistent.nodes _ node there)).thenPure
  | packetDeliveredToApplication s =>
      refine withNode_stops abreast.portrays.nodes fun node there => ?_
      exact ((abreast.holds there).removePacketFromBuffer_stops
        (abreast.consistent.nodes _ node there)).thenPure
  | packetCongestionEvent s =>
      exact withNode_pure_stops abreast.portrays.nodes
  | packetExtraDelay s =>
      refine withNode_stops abreast.portrays.nodes fun node there => ?_
      exact (abreast.holds there).packetHasExtraDelay_stops _

theorem Portrays.sampled (portrays : this.Portrays spec) (sampled : this.Sampled next) :
    next.Portrays spec where
  nodes n := (sampled.nodeIds n).trans (portrays.nodes n)
  links l := sampled.links ▸ portrays.links l
  linkMetadata l := sampled.linkMetadata ▸ portrays.linkMetadata l

theorem Turn.portrays {kind : SimulationStepKind} (portrays : this.Portrays spec)
    (turn : this.Turn time kind next) : next.Portrays spec := by
  refine ⟨fun n => (turn.shifts.nodeIds n).trans (portrays.nodes n), fun l => ?_, fun l => ?_⟩
  · refine ⟨fun linked => ?_, fun listed => turn.linkIds ((portrays.links l).mpr listed)⟩
    obtain ⟨link, there⟩ := Option.isSome_iff_exists.mp (AList.lookup_isSome.mpr linked)
    obtain ⟨before, found, -⟩ := turn.shifts.links l link there
    exact (portrays.links l).mp (mem_of_lookup found)
  · exact turn.shifts.linkMetadata ▸ portrays.linkMetadata l

/-- A replay that is due for any step that is not earlier than the steps so far. -/
structure Due (this : Replay) (spec : NetworkSpec) (before : List SimulationStep) : Prop
    extends this.Abreast spec before where
  due : ∀ t, (∀ step ∈ before, step.relativeTime ≤ t) → this.lastStepTime ≤ t

theorem Due.startTime (due : this.Due spec before) {order : Option Nat → List NodeId}
    (later : ∀ step ∈ before, step.relativeTime ≤ time) {begun : Replay}
    (start : (this.startTime order time).Yields begun) :
    begun.Abreast spec before ∧ begun.lastStepTime = time := by
  have sampled := startTime_sampled start
  obtain ⟨consistent, now⟩ := (due.consistent.startTime order (due.due time later)).yields begun start
  exact ⟨⟨due.portrays.sampled sampled, due.mirrors.sampled sampled, consistent⟩, now⟩

theorem Due.replayStep (due : this.Due spec before) {order : Option Nat → List NodeId}
    {step : SimulationStep} (later : ∀ earlier ∈ before, earlier.relativeTime ≤ step.relativeTime)
    (yields : (this.replayStep order step).Yields next) : next.Due spec (before ++ [step]) := by
  obtain ⟨begun, start, replayed⟩ := Tracked.yields_bind.mp yields
  obtain ⟨abreast, -⟩ := due.startTime later start
  obtain ⟨consistent, now⟩ :=
    (due.consistent.replayStep order (due.due step.relativeTime later)).yields next yields
  refine ⟨⟨(replayKind_turn replayed).portrays abreast.portrays,
    (replayStep_mirrors due.mirrors yields).1, consistent⟩, fun t bound => ?_⟩
  exact now ▸ bound step (by simp)

theorem Due.replayStep_stops (due : this.Due spec before) {order : Option Nat → List NodeId}
    {step : SimulationStep} (later : ∀ earlier ∈ before, earlier.relativeTime ≤ step.relativeTime) :
    Stops (this.replayStep order step) (stepFault spec before step.kind) := by
  obtain ⟨begun, start⟩ := startTime_goes due.consistent.metadata order step.relativeTime
  obtain ⟨abreast, now⟩ := due.startTime later start
  refine Stops.seq (.of_yields start) fun begun' start' => ?_
  obtain rfl := Except.ok.inj (start.symm.trans start')
  exact abreast.replayKind_stops now step.kind

theorem earlier_le {done rest : List SimulationStep} {step : SimulationStep}
    (sorted : ((done ++ step :: rest).map (·.relativeTime)).Pairwise (· ≤ ·)) :
    ∀ earlier ∈ done, earlier.relativeTime ≤ step.relativeTime := by
  rw [List.map_append, List.pairwise_append] at sorted
  exact fun earlier member => sorted.2.2 _ (List.mem_map_of_mem member) _ (by simp)

theorem Due.replaySteps_stops {steps : List SimulationStep} (due : this.Due spec [])
    (sorted : (steps.map (·.relativeTime)).Pairwise (· ≤ ·)) (order : Option Nat → List NodeId) :
    Stops (this.replaySteps order steps) (firstFault spec steps) := by
  have kept (done : List SimulationStep) (step : SimulationStep) (rest : List SimulationStep)
      (this : Replay) (split : steps = done ++ step :: rest) (due : this.Due spec done) :
      Stops (this.replayStep order step) (stepFault spec done step.kind) ∧
        ∀ next, (this.replayStep order step).Yields next → next.Due spec (done ++ [step]) := by
    have later := earlier_le (split ▸ sorted)
    exact ⟨due.replayStep_stops later, fun next yields => due.replayStep later yields⟩
  unfold Stops firstFault
  rw [List.map_findSome?]
  exact Tracked.Ends.foldlM (List.nil_append steps).symm kept due

end Replay

end

namespace SimulationVerifier

variable {this : SimulationVerifier} {spec : NetworkSpec}

theorem Made.due (made : this.Made spec) : (Replay.start { this with steps := [] }).Due spec [] where
  portrays := by
    refine ⟨fun n => ?_, fun l => ?_, fun l => ?_⟩
    · rw [hasNode_iff]
      exact made.nodeIds n
    · rw [hasLink_iff]
      exact made.linkIds l
    · rw [hasLink_iff]
      exact (made.linkKnown l).trans (made.linkIds l)
  mirrors := made.start_mirrors
  consistent := made.consistent
  due t _ := Nat.zero_le t

/-- A verifier stops at the first fault of its steps, in the order of their times, and where
there is none it goes through. -/
theorem verify_stops {steps : List SimulationStep}
    (made : SimulationVerifier.new steps spec = .ok this) (order : Option Nat → List NodeId) :
    ((∃ stats, (this.verify order).Yields stats) ↔ firstFault spec (sortSteps steps) = none) ∧
      ∀ error, (this.verify order).result = .error (.fatal error) ↔
        firstFault spec (sortSteps steps) = some error := by
  obtain ⟨made, same⟩ := new_made made
  have sorted : (this.steps.map (·.relativeTime)).Pairwise (· ≤ ·) := same ▸ sortSteps_sorted steps
  have stops : Stops (this.verify order) (firstFault spec (sortSteps steps)) := by
    have replayed := made.due.replaySteps_stops sorted order
    rw [same] at replayed
    rw [SimulationVerifier.verify, same]
    refine replayed.last fun replay yields => ?_
    have first : (0 :: (sortSteps steps).map (·.relativeTime)).Pairwise (· ≤ ·) :=
      List.pairwise_cons.mpr ⟨fun _ _ => Nat.zero_le _, sortSteps_sorted steps⟩
    have consistent := (made.consistent.replaySteps order first).yields replay yields
    obtain ⟨final, finished⟩ := Replay.finish_goes consistent.metadata order
    exact .of_yields (Tracked.yields_bind.mpr ⟨final, finished, Tracked.yields_pure.mpr rfl⟩)
  refine ⟨stops.yields_iff.trans Option.map_eq_none_iff, fun error => ?_⟩
  rw [stops.halts_iff]
  simp

/-- A packet gets to a node, and once more by a duplicate of the same id. -/
def readmitted : List SimulationStep :=
  [⟨0, .packetInNode ⟨0, 0, 28, 0, false⟩⟩, ⟨1, .packetDuplicated ⟨0, 0, 28, 0⟩⟩]

theorem verify_stops_readmitted : ∃ this, SimulationVerifier.new readmitted .twoHosts = .ok this ∧
    (this.verify fun _ => [0, 1]).result = .error (.fatal (.packetAlreadyReceived 0)) := by
  obtain ⟨this, made⟩ : ∃ this, SimulationVerifier.new readmitted .twoHosts = .ok this := ⟨_, rfl⟩
  exact ⟨this, made, ((verify_stops made _).2 _).mpr (by decide)⟩

end SimulationVerifier

end Workbench.Tracing
