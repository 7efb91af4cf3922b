import Workbench.Network.Addressing
import Workbench.Network.Telling
import Workbench.Network.Waiting

/-! How long packets live.

A forward call uses up one hop of its packet and leaves at most two copies, which share
what is left. So the calls that a packet may still cause are a weight of its time to
live, and the weights of all copies of a transmit never grow beyond what it had at first. -/

set_option autoImplicit false

namespace Workbench.Tracing.SimulationStep

open Workbench.Network

/-- The number of the transmit that a forward call is about. -/
def forwards? (step : SimulationStep) : Option Nat :=
  match step.kind with
  | .packetInNode s => some s.packetNumber
  | _ => none

/-- The packet that crosses a link. -/
def crosses? (step : SimulationStep) : Option Uuid :=
  match step.kind with
  | .packetInTransit s => some s.packetId
  | _ => none

/-- A copy of a transmit, told with the transmit's number. -/
def copy? (step : SimulationStep) : Option (Uuid × Nat) :=
  match step.kind with
  | .packetInNode s => some (s.packetId, s.packetNumber)
  | .packetDuplicated s => some (s.packetId, s.packetNumber)
  | _ => none

/-- A step about no copy and no link. -/
def Passing (step : SimulationStep) : Prop := step.copy? = none ∧ step.crosses? = none

theorem Passing.forwards {step : SimulationStep} (passing : step.Passing) :
    step.forwards? = none := by
  obtain ⟨untold, -⟩ := passing
  obtain ⟨time, kind⟩ := step
  cases kind with
  | packetInNode s => cases untold
  | _ => rfl

end Workbench.Tracing.SimulationStep

namespace Workbench.Network

open Workbench.Library Workbench.Tracing

/-- The forward calls of a transmit that a trace tells of. -/
def forwardCalls (number : Nat) (trace : List SimulationStep) : Nat :=
  trace.countP (·.forwards? = some number)

/-- The links that a packet has crossed. -/
def crossings (id : Uuid) (trace : List SimulationStep) : Nat :=
  trace.countP (·.crosses? = some id)

/-- The most forward calls that a packet can cause with some time to live. -/
def callsLeft : Nat → Nat
  | 0 | 1 => 1
  | ttl + 2 => 2 * callsLeft (ttl + 1) + 1

theorem callsLeft_succ {ttl : Nat} (live : 2 ≤ ttl) : callsLeft ttl = 2 * callsLeft (ttl - 1) + 1 := by
  obtain ⟨rest, rfl⟩ := Nat.exists_eq_add_of_le' live
  rfl

theorem callsLeft_pos (ttl : Nat) : 1 ≤ callsLeft ttl := by
  unfold callsLeft
  split <;> omega

theorem callsLeft_lt (ttl : Nat) : callsLeft (ttl + 1) < 2 ^ (ttl + 1) := by
  induction ttl with
  | zero => decide
  | succ ttl ih =>
      rw [callsLeft, pow_succ]
      omega

theorem callsLeft_le (ttl : Nat) : callsLeft ttl ≤ 2 ^ ttl := by
  cases ttl with
  | zero => decide
  | succ ttl => exact (callsLeft_lt ttl).le

/-- The calls that packets can cause, each given with its time to live. -/
def totalLeft (live : List (Uuid × Nat)) : Nat := (live.map fun x => callsLeft x.2).sum

theorem totalLeft_erase {live : List (Uuid × Nat)} {x : Uuid × Nat} (member : x ∈ live) :
    totalLeft (live.erase x) + callsLeft x.2 = totalLeft live := by
  have perm := (List.perm_cons_erase member).map fun x => callsLeft x.2
  have sums := perm.sum_eq
  simp only [List.map_cons, List.sum_cons] at sums
  simp only [totalLeft]
  omega

namespace State

variable {net : InMemoryNetwork} {s s' t : State} {n : NodeId} {l : LinkId} {id : Uuid}

/-- No packet is new, and only passing steps are told. -/
structure Rests (s s' : State) : Prop where
  keeps : Keeps s s'
  number : s'.nextTransmitNumber = s.nextTransmitNumber
  told : ∃ told, s'.trace = s.trace ++ told ∧ ∀ step ∈ told, step.Passing

theorem Rests.silent (keeps : Keeps s s') (number : s'.nextTransmitNumber = s.nextTransmitNumber)
    (log : s'.log = s.log) : Rests s s' :=
  ⟨keeps, number, [], by simp [trace, log], List.forall_mem_nil _⟩

theorem Rests.mark (s : State) {entry : LogEntry} (mark : entry.step? = none) :
    Rests s (s.note entry) :=
  ⟨.note s entry, rfl, [], by simp [trace, note, mark], List.forall_mem_nil _⟩

theorem Rests.record (s : State) {kind : SimulationStepKind}
    (passing : SimulationStep.Passing ⟨s.now, kind⟩) : Rests s (s.record kind) := by
  refine ⟨.note s _, rfl, [⟨s.now, kind⟩], by simp [trace, State.record, note, LogEntry.step?], ?_⟩
  intro step member
  obtain rfl := List.mem_singleton.mp member
  exact passing

theorem Rests.trans {s'' : State} (first : Rests s s') (second : Rests s' s'') : Rests s s'' := by
  obtain ⟨keeps, number, told, grown, passing⟩ := first
  obtain ⟨keeps', number', told', grown', passing'⟩ := second
  refine ⟨keeps.trans keeps', number'.trans number, told ++ told',
    by rw [grown', grown, List.append_assoc], fun step member => ?_⟩
  rcases List.mem_append.mp member with old | new
  · exact passing step old
  · exact passing' step new

/-- A packet gets into the outbound path of a node, if any does. -/
structure Enqueues (s s' : State) (packet : BufferedPacket) : Prop where
  number : s'.nextTransmitNumber = s.nextTransmitNumber
  drawn : s'.drawn = s.drawn
  links : s'.links = s.links
  told : ∃ told, s'.trace = s.trace ++ told ∧ ∀ step ∈ told, step.Passing
  waits : ∀ n p, s'.Waits n p → s.Waits n p ∨ p = packet

theorem enqueueOutbound_enqueues (s : State) (n : NodeId) (packet : BufferedPacket) :
    Enqueues s (s.enqueueOutbound n packet).1 packet := by
  unfold enqueueOutbound
  split
  · have dropped : Rests s (s.trackDroppedBecauseBufferFull n packet.data) := .record s ⟨rfl, rfl⟩
    exact ⟨rfl, rfl, rfl, dropped.told, fun n p waits => .inl (dropped.keeps.waits n p waits)⟩
  · next outboundBuffer _ =>
    have booked : Rests s ((s.modifyNode n ({ · with outboundBuffer })).note
        (.reserved n packet.data)) :=
      (Rests.silent (.modifyNode s n (List.Subset.refl _) fun _ => List.Subset.refl _) rfl rfl).trans
        (.mark _ rfl)
    dsimp only
    split
    · exact ⟨rfl, rfl, rfl, booked.told, fun n p waits => .inl (booked.keeps.waits n p waits)⟩
    · next outbound sent =>
      refine ⟨rfl, rfl, rfl, booked.told, fun n' p waits => ?_⟩
      cases waits with
      | buffered member =>
          by_cases same : n' = n
          · subst same
            rw [modifyNode_self, Channel.unboundedSend_some sent] at member
            rcases List.mem_append.mp member with old | new
            · exact .inl (booked.keeps.waits n' p (.buffered old))
            · exact .inr (List.mem_singleton.mp new)
          · rw [modifyNode_of_ne _ _ same] at member
            exact .inl (booked.keeps.waits n' p (.buffered member))
      | dispatched member node opened => exact .inl (.dispatched member node opened)

/-- A passing step, or one that tells of a new copy. -/
def Duplicates (net : InMemoryNetwork) (s s' : State) (number : Nat) (step : SimulationStep) : Prop :=
  step.Passing ∨ step.forwards? = none ∧ step.crosses? = none ∧
    step.copy? = some (net.uuids s.drawn, number) ∧ s.drawn < s'.drawn

/-- A packet of the same transmit that has the same id or a new one. -/
def Copies (net : InMemoryNetwork) (s s' : State) (data copy : InTransitData) : Prop :=
  copy.number = data.number ∧ copy.transmit.destination = data.transmit.destination ∧
    (copy.id = data.id ∨ copy.id = net.uuids s.drawn ∧ s.drawn < s'.drawn)

/-- What a forward call does once it is told that the packet is in the node. -/
structure Proceeds (net : InMemoryNetwork) (s s' : State) (data : InTransitData) : Prop where
  number : s'.nextTransmitNumber = s.nextTransmitNumber
  drawn : s.drawn ≤ s'.drawn
  links : s'.links = s.links
  told : ∃ told, s'.trace = s.trace ++ told ∧ ∀ step ∈ told, Duplicates net s s' data.number step
  waits : ∀ n p, s'.Waits n p → s.Waits n p ∨
    Copies net s s' data p.data ∧ p.data.transmit.ttl = data.transmit.ttl

/-- A forward call about a packet: it is told first, and what it leaves is at most the packet
and one new copy of it, with one hop less. -/
structure Forwards (net : InMemoryNetwork) (s s' : State) (data : InTransitData) : Prop where
  number : s'.nextTransmitNumber = s.nextTransmitNumber
  drawn : s.drawn ≤ s'.drawn
  links : s'.links = s.links
  told : ∃ call told, s'.trace = s.trace ++ call :: told ∧
    call.copy? = some (data.id, data.number) ∧ call.forwards? = some data.number ∧
    call.crosses? = none ∧ ∀ step ∈ told, Duplicates net s s' data.number step
  waits : ∀ n p, s'.Waits n p → s.Waits n p ∨ Copies net s s' data p.data ∧
    2 ≤ data.transmit.ttl ∧ p.data.transmit.ttl = data.transmit.ttl - 1

theorem Rests.proceeds (net : InMemoryNetwork) (data : InTransitData) (rests : Rests s s') (links : s'.links = s.links) :
    Proceeds net s s' data := by
  obtain ⟨keeps, number, told, grown, passing⟩ := rests
  exact ⟨number, keeps.drawn, links, ⟨told, grown, fun step member => .inl (passing step member)⟩,
    fun n p waits => .inl (keeps.waits n p waits)⟩

theorem Enqueues.proceeds {packet : BufferedPacket} (enqueues : Enqueues s s' packet) :
    Proceeds net s s' packet.data := by
  obtain ⟨number, drawn, links, ⟨told, grown, passing⟩, waits⟩ := enqueues
  refine ⟨number, drawn.ge, links, ⟨told, grown, fun step member => .inl (passing step member)⟩,
    fun n p waiting => (waits n p waiting).imp_right ?_⟩
  rintro rfl
  exact ⟨⟨rfl, rfl, .inl rfl⟩, rfl⟩

theorem enqueueWithDuplicate_proceeds (net : InMemoryNetwork) (s : State) (n : NodeId)
    (packet : BufferedPacket) (duplicate : Bool) :
    Proceeds net s (s.enqueueWithDuplicate net n packet duplicate).1 packet.data := by
  unfold enqueueWithDuplicate
  split
  · dsimp only [newPacketId]
    have original := enqueueOutbound_enqueues { s with drawn := s.drawn + 1 } n packet
    generalize State.enqueueOutbound { s with drawn := s.drawn + 1 } n packet = entered at original
    obtain ⟨s', exit⟩ := entered
    obtain ⟨number, drawn, links, ⟨told, grown, passing⟩, waits⟩ := original
    have later : s.drawn < s'.drawn := by
      rw [drawn]
      exact Nat.lt_succ_self _
    have old (n' : NodeId) (p : BufferedPacket) (waiting : s'.Waits n' p) :
        s.Waits n' p ∨ p = packet := (waits n' p waiting).imp_left fun before =>
      before.congr (fun _ => List.Subset.refl _) fun d member opened => ⟨d, member, opened, rfl, rfl⟩
    cases exit with
    | panicked =>
        refine ⟨number, later.le, links, ⟨told, grown, fun step member => .inl (passing step member)⟩,
          fun n' p waiting => (old n' p waiting).imp_right ?_⟩
        rintro rfl
        exact ⟨⟨rfl, rfl, .inl rfl⟩, rfl⟩
    | returned =>
        dsimp only
        -- the copy is told with its new id, and follows the packet into the buffer
        let copy : BufferedPacket :=
          { packet with data := { packet.data with id := net.uuids s.drawn, duplicate := true } }
        have copied := enqueueOutbound_enqueues (s'.trackInjectedFailures n copy.data true 0 false)
          n copy
        obtain ⟨number', drawn', links', ⟨told', grown', passing'⟩, waits'⟩ := copied
        have tells : (s'.trackInjectedFailures n copy.data true 0 false).trace =
            s'.trace ++ [⟨s'.now, .packetDuplicated
              ⟨copy.data.id, copy.data.number, copy.data.size, n⟩⟩] := by
          simp [trackInjectedFailures, State.record, note, trace, LogEntry.step?]
        have after := later.trans_le drawn'.ge
        let duplicated : SimulationStep :=
          ⟨s'.now, .packetDuplicated ⟨copy.data.id, copy.data.number, copy.data.size, n⟩⟩
        refine ⟨number'.trans number, after.le, links'.trans links,
          ⟨told ++ duplicated :: told', ?_, fun step member => ?_⟩, fun n' p waiting => ?_⟩
        · have first : s'.trace = s.trace ++ told := grown
          rw [grown', tells, first]
          simp [duplicated, copy]
        · rcases List.mem_append.mp member with first | rest
          · exact .inl (passing step first)
          · rcases List.mem_cons.mp rest with rfl | last
            · exact .inr ⟨rfl, rfl, rfl, after⟩
            · exact .inl (passing' step last)
        · rcases waits' n' p waiting with before | rfl
          · have before : s'.Waits n' p :=
              before.congr (fun _ => List.Subset.refl _) fun d member opened =>
                ⟨d, member, opened, rfl, rfl⟩
            rcases old n' p before with first | rfl
            · exact .inl first
            · exact .inr ⟨⟨rfl, rfl, .inl rfl⟩, rfl⟩
          · exact .inr ⟨⟨rfl, rfl, .inr ⟨rfl, after⟩⟩, rfl⟩
  · exact (enqueueOutbound_enqueues s n packet).proceeds

theorem Proceeds.forwards {data' data : InTransitData} {call : SimulationStep}
    (proceeds : Proceeds net t s' data') (links : t.links = s.links) (drawn : t.drawn = s.drawn)
    (number : t.nextTransmitNumber = s.nextTransmitNumber) (grown : t.trace = s.trace ++ [call])
    (waits : ∀ n p, t.Waits n p → s.Waits n p) (id : data'.id = data.id)
    (same : data'.number = data.number)
    (destination : data'.transmit.destination = data.transmit.destination)
    (hops : (∀ n p, s'.Waits n p → t.Waits n p) ∨
      2 ≤ data.transmit.ttl ∧ data'.transmit.ttl = data.transmit.ttl - 1)
    (copy : call.copy? = some (data.id, data.number))
    (forwards : call.forwards? = some data.number) (crosses : call.crosses? = none) :
    Forwards net s s' data := by
  obtain ⟨number', drawn', links', ⟨told, grown', duplicates⟩, waits'⟩ := proceeds
  refine ⟨number'.trans number, drawn ▸ drawn', links'.trans links,
    ⟨call, told, by rw [grown', grown]; simp, copy, forwards, crosses, fun step member => ?_⟩,
    fun n p waiting => ?_⟩
  · have told := duplicates step member
    rwa [Duplicates, drawn, same] at told
  · rcases hops with stays | ⟨live, less⟩
    · exact .inl (waits n p (stays n p waiting))
    · rcases waits' n p waiting with before | ⟨copies, ttl⟩
      · exact .inl (waits n p before)
      · rw [Copies, drawn, id, same, destination] at copies
        exact .inr ⟨copies, live, ttl.trans less⟩

theorem forward_forwards (net : InMemoryNetwork) (s : State) (n : NodeId) (data : InTransitData)
    (roll : Nat) : Forwards net s (s.forward net n data roll).1 data := by
  have told (dropped : Bool) (t : State)
      (same : t = s.record (.packetInNode ⟨data.id, data.number, data.size, n, dropped⟩)) :
      t.trace = s.trace ++
        [⟨s.now, .packetInNode ⟨data.id, data.number, data.size, n, dropped⟩⟩] := by
    rw [same]
    simp [State.record, note, trace, LogEntry.step?]
  have waits (entry : LogEntry) := (Keeps.note s entry).waits
  unfold forward
  split
  · have stays : Proceeds net (s.trackDroppedOnArrival n data) (s.trackDroppedOnArrival n data) data :=
      (Rests.silent (.refl _) rfl rfl).proceeds net data rfl
    exact stays.forwards rfl rfl rfl (told true _ rfl) (waits _) rfl rfl rfl (.inl fun _ _ => id)
      rfl rfl rfl
  dsimp only
  split
  · have delivered : Proceeds net (s.trackPacketInNode n data)
        ((s.trackPacketInNode n data).deliverPacket n data) data :=
      ⟨rfl, le_rfl, rfl, ⟨[], (List.append_nil _).symm, List.forall_mem_nil _⟩,
        fun _ _ waiting => .inl waiting.of_deliverPacket⟩
    exact delivered.forwards rfl rfl rfl (told false _ rfl) (waits _) rfl rfl rfl
      (.inl fun _ _ => Waits.of_deliverPacket) rfl rfl rfl
  have dropped (reason : DropReason) (lost : InTransitData) :
      Rests (s.trackPacketInNode n data) ((s.trackPacketInNode n data).trackDropped n lost reason) :=
    .record _ ⟨rfl, rfl⟩
  split
  · exact ((dropped .zeroTtl _).proceeds net data rfl).forwards rfl rfl rfl (told false _ rfl)
      (waits _) rfl rfl rfl (.inl (dropped .zeroTtl _).keeps.waits) rfl rfl rfl
  next alive =>
  split
  · exact ((dropped .random _).proceeds net data rfl).forwards rfl rfl rfl (told false _ rfl)
      (waits _) rfl rfl rfl (.inl (dropped .random _).keeps.waits) rfl rfl rfl
  · exact (enqueueWithDuplicate_proceeds net (s.trackPacketInNode n data) n _ _).forwards rfl rfl rfl
      (told false _ rfl) (waits _) rfl rfl rfl (.inr ⟨by omega, rfl⟩) rfl rfl rfl

/-- A packet gets into an endpoint only by a call about it at its destination. -/
theorem forward_queued (net : InMemoryNetwork) (s : State) (n : NodeId) (data : InTransitData)
    (roll : Nat) (n' : NodeId) (port : Port) (p : PrioritizedInTransitData)
    (member : p ∈ (((s.forward net n data roll).1.nodes n').udpEndpoints port).queue) :
    p ∈ ((s.nodes n').udpEndpoints port).queue ∨ p.data = data ∧
      data.transmit.destination = ⟨(net.nodes n').canonicalAddress, port⟩ ∧
      ∃ step ∈ (s.forward net n data roll).1.trace,
        step.kind = .packetInNode ⟨data.id, data.number, data.size, n', false⟩ := by
  by_cases here : (net.nodes n).canonicalAddress = data.transmit.destination.ip
  · unfold forward at member ⊢
    by_cases down : (s.nodes n).isDown = true
    · rw [if_pos down] at member
      exact .inl member
    · simp only [if_neg down, if_pos here] at member ⊢
      by_cases same : n' = n
      · subst same
        simp only [deliverPacket, modifyNode_self, NodeState.deliverPacket] at member
        by_cases there : port = data.transmit.destination.port
        · subst there
          simp only [Function.update_self, InboundQueue.send] at member
          rcases List.mem_append.mp member with old | new
          · exact .inl old
          · obtain rfl := List.mem_singleton.mp new
            refine .inr ⟨rfl, by rw [here], ⟨s.now, _⟩, ?_, rfl⟩
            simp [trace, deliverPacket, modifyNode, trackPacketInNode, record, note, LogEntry.step?]
        · rw [Function.update_of_ne there] at member
          exact .inl member
      · rw [deliverPacket, modifyNode_of_ne _ _ same] at member
        exact .inl member
  · rw [forward_endpoints roll here] at member
    exact .inl member

/-! The tasks that forward no packet. -/

theorem processLinkEvent_rests (net : InMemoryNetwork) (s : State) (event : LinkEventPayload) :
    Rests s (s.processLinkEvent net event) := by
  have delayed (t : State) (delay : Nat) : Rests t (t.changeLinkDelay event.linkId delay) := by
    unfold changeLinkDelay
    split
    · exact .silent (.modifyLink t event.linkId (List.Subset.refl _)) rfl rfl
    · exact .silent (.refl t) rfl rfl
  have updated (t : State) (status : UpdateLinkStatus) :
      Rests t (t.updateLinkStatus event.linkId status) := by
    have changed : Rests t (t.modifyLink event.linkId (·.updateStatus t.now status)) :=
      .silent (.modifyLink t event.linkId (List.Subset.refl _)) rfl rfl
    unfold updateLinkStatus
    dsimp only
    split
    · exact changed.trans (.mark _ rfl)
    · exact changed
  unfold processLinkEvent
  dsimp only
  split
  · exact .silent (.refl s) rfl rfl
  have first : Rests s (event.delay.elim s (s.changeLinkDelay event.linkId)) := by
    cases event.delay with
    | none => exact .silent (.refl s) rfl rfl
    | some delay => exact delayed s delay
  generalize event.delay.elim s (s.changeLinkDelay event.linkId) = t at first
  have second : Rests t (event.status.elim t (t.updateLinkStatus event.linkId)) := by
    cases event.status with
    | none => exact .silent (.refl t) rfl rfl
    | some status => exact updated t status
  exact (first.trans second).trans (.record _ ⟨rfl, rfl⟩)

theorem processNodeEvent_rests (net : InMemoryNetwork) (s : State) (event : NodeEventPayload) :
    Rests s (s.processNodeEvent net event) := by
  have changed (t : State) (change : NodeState → NodeState)
      (outbound : (change (t.nodes event.nodeId)).outbound = (t.nodes event.nodeId).outbound)
      (endpoints : (change (t.nodes event.nodeId)).udpEndpoints =
        (t.nodes event.nodeId).udpEndpoints) : Rests t (t.modifyNode event.nodeId change) := by
    refine .silent (.modifyNode t event.nodeId ?_ fun port => ?_) rfl rfl
    · rw [outbound]
      exact List.Subset.refl _
    · rw [endpoints]
      exact List.Subset.refl _
  unfold processNodeEvent
  dsimp only
  split
  · exact .silent (.refl s) rfl rfl
  have first : Rests s
      (event.status.elim s fun status => s.modifyNode event.nodeId (·.updateStatus status)) := by
    cases event.status with
    | none => exact .silent (.refl s) rfl rfl
    | some status => exact changed s (·.updateStatus status) rfl rfl
  generalize (event.status.elim s fun status =>
    s.modifyNode event.nodeId (·.updateStatus status)) = t at first
  refine (first.trans ?_).trans (.record _ ⟨rfl, rfl⟩)
  split
  · exact changed t (·.clearBuffer t.now) rfl rfl
  · exact .silent (.refl t) rfl rfl

theorem pushCopies_number (net : InMemoryNetwork) (n : NodeId) (packet : BufferedPacket)
    (flag : Nat) (preferredLinks links : List LinkId) (rolls : List (Nat × Nat)) (s : State) :
    (pushCopies net n packet flag preferredLinks links rolls s).1.nextTransmitNumber =
      s.nextTransmitNumber := by
  induction links generalizing rolls s with
  | nil => rfl
  | cons l links ih =>
      unfold pushCopies
      dsimp only
      split
      · rfl
      · exact ih _ _

theorem processBuffer_rests {rolls : List (Nat × Nat)} (taken : s.processBuffer net n rolls = some s') :
    Rests s s' := by
  have ended (t : State) : Rests t (t.endBufferProcessor n) :=
    .silent (.modifyNode t n (List.nil_subset _) fun _ => List.Subset.refl _) rfl rfl
  obtain ⟨packet, rest, queued, rfl | ⟨links, t, walked, pushes, ends⟩⟩ := processBuffer_cases taken
  · exact ended s
  · have pushed := pushCopies_pushed net n packet s.dispatches.length links links rolls
      ((s.takeBuffered n rest).openDispatch n packet links)
    have number := pushCopies_number net n packet s.dispatches.length links links rolls
      ((s.takeBuffered n rest).openDispatch n packet links)
    rw [← pushes] at pushed number
    have dispatched : Rests s t := .silent (.dispatch queued pushed) number pushed.log
    rcases ends with rfl | rfl
    · exact dispatched
    · exact (dispatched.trans (ended t)).trans (.silent (.panic _) rfl rfl)

theorem setEndpoint_rests (s : State) (n : NodeId) (port : Port) {queue : InboundQueue}
    (subset : queue.queue ⊆ ((s.nodes n).udpEndpoints port).queue) :
    Rests s (s.setEndpoint n port queue) := by
  refine .silent (.modifyNode s n (List.Subset.refl _) fun port' => ?_) rfl rfl
  dsimp only
  by_cases same : port' = port
  · subst same
    rwa [Function.update_self]
  · rw [Function.update_of_ne same]
    exact List.Subset.refl _

theorem pollRecv_rests (s : State) (n : NodeId) (port : Port) (slots bufferSize : Nat)
    (ties : List Nat) : Rests s (s.pollRecv n port slots bufferSize ties) := by
  have read (delivered : List DeliveredTransmit) (t : State) :
      Rests t (readAll n bufferSize delivered t) := by
    induction delivered generalizing t with
    | nil => exact .silent (.refl t) rfl rfl
    | cons transmit delivered ih =>
        have told : Rests t (t.trackReadByApplication n transmit.data) := .record t ⟨rfl, rfl⟩
        unfold readAll
        dsimp only
        split
        · exact told.trans (.silent (.panic _) rfl rfl)
        · exact told.trans (ih _)
  have subset := NextPacketDelivery.poll_subset ((s.sockets n port).getD (.new slots))
    ((s.nodes n).udpEndpoints port) s.now ties 0
  unfold pollRecv
  dsimp only
  generalize ((s.sockets n port).getD (.new slots)).poll ((s.nodes n).udpEndpoints port) s.now ties 0 =
    polled at subset
  obtain ⟨result, delivery, queue⟩ := polled
  have set := setEndpoint_rests s n port subset
  have stored : Rests (s.setEndpoint n port queue) { s.setEndpoint n port queue with
      sockets := Function.update s.sockets n
        (Function.update (s.sockets n) port (some delivery)) } :=
    .silent (.of_sameCount le_rfl ⟨fun _ => rfl, fun _ _ => rfl, fun _ => rfl, rfl, rfl⟩) rfl rfl
  cases result with
  | pending => exact set.trans stored
  | ready delivered => exact (set.trans stored).trans (read (delivered.take slots) _)

theorem checked_rests (n : NodeId) (delivered : List DeliveredTransmit) (s : State) :
    Rests s (delivered.foldl (fun s t => s.note (.checked n t.data.id)) s) := by
  induction delivered generalizing s with
  | nil => exact .silent (.refl s) rfl rfl
  | cons transmit delivered ih => exact (Rests.mark s rfl).trans (ih _)

theorem checkReceive_rests (s : State) (n : NodeId) (port : Port) (ties : List Nat) :
    Rests s (s.checkReceive n port ties) := by
  have subset := NextPacketDelivery.poll_subset (.new 1) ((s.nodes n).udpEndpoints port) s.now ties 0
  unfold checkReceive
  dsimp only
  generalize (NextPacketDelivery.new 1).poll ((s.nodes n).udpEndpoints port) s.now ties 0 =
    polled at subset
  obtain ⟨result, delivery, queue⟩ := polled
  have set := setEndpoint_rests s n port subset
  cases result with
  | pending => exact set
  | ready delivered => exact set.trans (checked_rests n delivered _)

end State

theorem crossings_append (id : Uuid) {trace told : List SimulationStep}
    (none : ∀ step ∈ told, step.crosses? = Option.none) :
    crossings id (trace ++ told) = crossings id trace := by
  have zero : told.countP (·.crosses? = some id) = 0 :=
    List.countP_eq_zero.mpr fun step member => by simp [none step member]
  rw [crossings, crossings, List.countP_append, zero, Nat.add_zero]

theorem forwardCalls_append (number : Nat) {trace told : List SimulationStep}
    (none : ∀ step ∈ told, step.forwards? = Option.none) :
    forwardCalls number (trace ++ told) = forwardCalls number trace := by
  have zero : told.countP (·.forwards? = some number) = 0 :=
    List.countP_eq_zero.mpr fun step member => by simp [none step member]
  rw [forwardCalls, forwardCalls, List.countP_append, zero, Nat.add_zero]

/-- The transmit that an action injects. -/
def Action.transmit? : Action → Option OwnedTransmit
  | .sendUdp _ transmit _ => some transmit
  | _ => none

/-- The transmits injected in a run, in order. -/
def transmitsOf (past : List (State × Action)) : List OwnedTransmit :=
  past.reverse.filterMap (·.2.transmit?)

theorem PacketAnomalies.mark_route {anomalies : PacketAnomalies} {data marked : InTransitData}
    (same : anomalies.mark data = some marked) : marked.transmit.ttl = data.transmit.ttl ∧
      marked.transmit.destination = data.transmit.destination := by
  simp only [mark] at same
  split at same
  · split at same
    · exact Option.some.inj same ▸ ⟨rfl, rfl⟩
    · cases same
  · exact Option.some.inj same ▸ ⟨rfl, rfl⟩

namespace Moment

variable {net : InMemoryNetwork} {m m' : Moment} {transmits : List OwnedTransmit}
  {numberOf : Uuid → Option Nat} {data : InTransitData} {gap : Nat}

/-- The packets that may be forwarded again: those that wait at a node have one link more
to cross than those in hand or in transit, which have crossed it. -/
inductive Lives (m : Moment) : InTransitData → Nat → Prop where
  | waits {n : NodeId} {p : BufferedPacket} (waits : m.state.Waits n p) : m.Lives p.data 1
  | hand {held : Held} (member : held ∈ m.hand) : m.Lives held.data 0
  | inTransit {l : LinkId} {p : PrioritizedInTransitData}
      (member : p ∈ (m.state.links l).inTransit.queue) : m.Lives p.data 0

/-- The hops that a packet has left, within those that its transmit had at first. -/
def Fits (transmits : List OwnedTransmit) (trace : List SimulationStep) (data : InTransitData)
    (gap : Nat) : Prop :=
  ∃ transmit, transmits[data.number]? = some transmit ∧
    crossings data.id trace + data.transmit.ttl + gap ≤ transmit.ttl ∧
    (crossings data.id trace + gap = 0 ∨ 1 ≤ data.transmit.ttl) ∧
    data.transmit.destination = transmit.destination

/-- A packet of a transmit to an endpoint of a node, which has come there. -/
def Arrived (net : InMemoryNetwork) (transmits : List OwnedTransmit) (trace : List SimulationStep)
    (n : NodeId) (port : Port) (data : InTransitData) : Prop :=
  ∃ transmit, transmits[data.number]? = some transmit ∧
    transmit.destination = ⟨(net.nodes n).canonicalAddress, port⟩ ∧
    ∃ step ∈ trace, step.kind = .packetInNode ⟨data.id, data.number, data.size, n, false⟩

theorem Arrived.later {trace : List SimulationStep} {n : NodeId} {port : Port}
    (arrived : Arrived net transmits trace n port data) (more : List OwnedTransmit)
    (told : List SimulationStep) : Arrived net (transmits ++ more) (trace ++ told) n port data := by
  obtain ⟨transmit, found, destination, step, member, kind⟩ := arrived
  refine ⟨transmit, ?_, destination, step, List.mem_append_left _ member, kind⟩
  rwa [List.getElem?_append_left (List.getElem?_eq_some_iff.mp found).1]

/-- The packets of a network by the transmits they come from, and what these may still do. -/
structure Bounded (net : InMemoryNetwork) (transmits : List OwnedTransmit)
    (numberOf : Uuid → Option Nat) (m : Moment) : Prop where
  next : m.state.nextTransmitNumber = transmits.length
  issued : ∀ id number, numberOf id = some number → m.state.Issued net id
  unseen : ∀ id, numberOf id = none → crossings id m.state.trace = 0
  told : ∀ step ∈ m.state.trace, ∀ copy, step.copy? = some copy → numberOf copy.1 = some copy.2
  crossed : ∀ id number, numberOf id = some number → ∃ transmit,
    transmits[number]? = some transmit ∧ crossings id m.state.trace ≤ transmit.ttl - 1
  numbered : ∀ data gap, m.Lives data gap → numberOf data.id = some data.number
  fits : ∀ data gap, m.Lives data gap → Fits transmits m.state.trace data gap
  queued : ∀ n port, ∀ p ∈ ((m.state.nodes n).udpEndpoints port).queue,
    Arrived net transmits m.state.trace n port p.data
  calls : ∀ number transmit, transmits[number]? = some transmit → ∃ live : List (Uuid × Nat),
    (∀ data gap, m.Lives data gap → data.number = number → (data.id, data.transmit.ttl) ∈ live) ∧
      forwardCalls number m.state.trace + totalLeft live ≤ 2 ^ transmit.ttl

theorem Bounded.initial : Bounded net [] (fun _ => none) ⟨.initial net, []⟩ := by
  have nothing (data : InTransitData) (gap : Nat) : ¬ Lives ⟨.initial net, []⟩ data gap := by
    intro lives
    cases lives with
    | waits waits => cases waits with
      | buffered member | dispatched member => cases member
    | hand member | inTransit member => cases member
  refine ⟨rfl, nofun, fun _ _ => rfl, fun step member => ?_, nofun, fun data gap lives => ?_,
    fun data gap lives => ?_, fun n port p member => ?_, nofun⟩
  · cases member
  · exact absurd lives (nothing data gap)
  · exact absurd lives (nothing data gap)
  · cases member

/-- What tells of no packet that lives on changes nothing. -/
theorem Bounded.rests (bounded : Bounded net transmits numberOf m)
    (drawn : m.state.drawn ≤ m'.state.drawn)
    (number : m'.state.nextTransmitNumber = m.state.nextTransmitNumber)
    {told : List SimulationStep} (grown : m'.state.trace = m.state.trace ++ told)
    (passing : ∀ step ∈ told, step.Passing)
    (lives : ∀ data gap, m'.Lives data gap → m.Lives data gap)
    (endpoints : ∀ n port, ((m'.state.nodes n).udpEndpoints port).queue ⊆
      ((m.state.nodes n).udpEndpoints port).queue) : Bounded net transmits numberOf m' := by
  have crosses (id : Uuid) : crossings id m'.state.trace = crossings id m.state.trace := by
    rw [grown, crossings_append id fun step member => (passing step member).2]
  have calls (number : Nat) :
      forwardCalls number m'.state.trace = forwardCalls number m.state.trace := by
    rw [grown, forwardCalls_append number fun step member => (passing step member).forwards]
  refine ⟨number.trans bounded.next, fun id number this => ?_, fun id this => ?_,
    fun step member copy this => ?_, fun id number this => ?_, fun data gap live => ?_,
    fun data gap live => ?_, fun n port p member => ?_, fun number transmit this => ?_⟩
  · obtain ⟨i, bound, same⟩ := bounded.issued id number this
    exact ⟨i, by omega, same⟩
  · exact (crosses id).trans (bounded.unseen id this)
  · rcases List.mem_append.mp (grown ▸ member) with old | new
    · exact bounded.told step old copy this
    · rw [(passing step new).1] at this
      cases this
  · rw [crosses]
    exact bounded.crossed id number this
  · exact bounded.numbered data gap (lives data gap live)
  · rw [Fits, crosses]
    exact bounded.fits data gap (lives data gap live)
  · have arrived := bounded.queued n port p (endpoints n port member)
    rw [grown]
    simpa using arrived.later [] _
  · obtain ⟨live, covers, within⟩ := bounded.calls number transmit this
    refine ⟨live, fun data gap lives' => covers data gap (lives data gap lives'), ?_⟩
    rwa [calls]

/-- A packet that waits is sent over a link. -/
theorem Bounded.sends (bounded : Bounded net transmits numberOf m) (lived : m.Lives data 1)
    (drawn : m.state.drawn ≤ m'.state.drawn)
    (number : m'.state.nextTransmitNumber = m.state.nextTransmitNumber) {step : SimulationStep}
    (grown : m'.state.trace = m.state.trace ++ [step]) (copy : step.copy? = none)
    (crosses : step.crosses? = some data.id)
    (lives : ∀ other gap, m'.Lives other gap → m.Lives other gap ∧ other.id ≠ data.id ∨
      gap = 0 ∧ other.id = data.id ∧ other.number = data.number ∧
        other.transmit.ttl = data.transmit.ttl ∧
        other.transmit.destination = data.transmit.destination)
    (endpoints : ∀ n port, ((m'.state.nodes n).udpEndpoints port).queue ⊆
      ((m.state.nodes n).udpEndpoints port).queue) : Bounded net transmits numberOf m' := by
  -- The step sends this packet alone, and no node calls for it to be forwarded.
  have crossed (id : Uuid) : crossings id m'.state.trace =
      crossings id m.state.trace + if data.id = id then 1 else 0 := by
    rw [grown, crossings, crossings, List.countP_append, List.countP_singleton, crosses]
    simp
  have called (number : Nat) :
      forwardCalls number m'.state.trace = forwardCalls number m.state.trace := by
    rw [grown, forwardCalls_append]
    intro step' member
    obtain rfl := List.mem_singleton.mp member
    obtain ⟨time, kind⟩ := step'
    cases kind with
    | packetInNode s => cases copy
    | _ => rfl
  -- The packet lived with one hop to spare, which this crossing takes up.
  have numbered := bounded.numbered data 1 lived
  obtain ⟨transmit, found, within, spare, destination⟩ := bounded.fits data 1 lived
  refine ⟨number.trans bounded.next, fun id number this => ?_, fun id this => ?_,
    fun step' member copy' this => ?_, fun id number this => ?_, fun other gap live => ?_,
    fun other gap live => ?_, fun n port p member => ?_, fun number transmit this => ?_⟩
  · obtain ⟨i, bound, same⟩ := bounded.issued id number this
    exact ⟨i, by omega, same⟩
  · have other : data.id ≠ id := fun same => by simp [← same, numbered] at this
    rw [crossed, if_neg other]
    exact bounded.unseen id this
  · rcases List.mem_append.mp (grown ▸ member) with old | new
    · exact bounded.told step' old copy' this
    · rw [List.mem_singleton.mp new, copy] at this
      cases this
  · rw [crossed]
    by_cases same : data.id = id
    · subst same
      obtain rfl := Option.some.inj (numbered.symm.trans this)
      refine ⟨transmit, found, ?_⟩
      rw [if_pos rfl]
      omega
    · rw [if_neg same]
      exact bounded.crossed id number this
  · rcases lives other gap live with ⟨old, -⟩ | ⟨-, id, same, -⟩
    · exact bounded.numbered other gap old
    · rw [id, same]
      exact numbered
  · rcases lives other gap live with ⟨old, differs⟩ | ⟨rfl, id, same, ttl, ip⟩
    · rw [Fits, crossed, if_neg (Ne.symm differs)]
      exact bounded.fits other gap old
    · refine ⟨transmit, same ▸ found, ?_, ?_, ip.trans destination⟩
      · rw [crossed, id, ttl, if_pos rfl]
        omega
      · rw [ttl]
        omega
  · have arrived := bounded.queued n port p (endpoints n port member)
    rw [grown]
    simpa using arrived.later [] _
  · obtain ⟨live, covers, within⟩ := bounded.calls number transmit this
    refine ⟨live, fun other gap lives' of => ?_, by rwa [called]⟩
    rcases lives other gap lives' with ⟨old, -⟩ | ⟨-, id, same, ttl, -⟩
    · exact covers other gap old of
    · rw [id, ttl]
      exact covers data 1 lived (same.symm.trans of)

/-- A packet in hand is forwarded: the calls that it may cause pay for this one and for those
that its copies may cause. -/
theorem Bounded.forwards {s s' : State} {held : Held} {hand : List Held}
    (bounded : Bounded net transmits numberOf ⟨s, held :: hand⟩)
    (fresh : Function.Injective net.uuids) (forwards : State.Forwards net s s' held.data)
    (others : ∀ other gap, Lives ⟨s, hand⟩ other gap → other.id ≠ held.data.id)
    (endpoints : ∀ n port, ∀ p ∈ ((s'.nodes n).udpEndpoints port).queue,
      p ∈ ((s.nodes n).udpEndpoints port).queue ∨ p.data = held.data ∧
        held.data.transmit.destination = ⟨(net.nodes n).canonicalAddress, port⟩ ∧
        ∃ step ∈ s'.trace, step.kind =
          .packetInNode ⟨held.data.id, held.data.number, held.data.size, n, false⟩) :
    ∃ numberOf', Bounded net transmits numberOf' ⟨s', hand⟩ := by
  obtain ⟨number, drawn, links, ⟨call, told, grown, copy, forwards, crosses, tells⟩, waits⟩ := forwards
  have here : Lives ⟨s, held :: hand⟩ held.data 0 := .hand List.mem_cons_self
  have numbered := bounded.numbered held.data 0 here
  obtain ⟨transmit, found, within, spare, destination⟩ := bounded.fits held.data 0 here
  -- the ledger of copies gets the new id, if there is one
  let numberOf' : Uuid → Option Nat := fun id =>
    if id = net.uuids s.drawn ∧ s.drawn < s'.drawn then some held.data.number else numberOf id
  have unused : numberOf (net.uuids s.drawn) = none := by
    by_contra used
    obtain ⟨number, used⟩ := Option.ne_none_iff_exists'.mp used
    obtain ⟨i, bound, same⟩ := bounded.issued _ number used
    exact absurd (fresh same) (Nat.ne_of_lt bound)
  have kept {id : Uuid} {number : Nat} (before : numberOf id = some number) :
      numberOf' id = some number := by
    have old : ¬ (id = net.uuids s.drawn ∧ s.drawn < s'.drawn) := by
      rintro ⟨rfl, -⟩
      simp [unused] at before
    simp only [numberOf', if_neg old, before]
  have crossed (id : Uuid) : crossings id s'.trace = crossings id s.trace := by
    rw [grown, crossings_append]
    intro step member
    rcases List.mem_cons.mp member with rfl | later
    · exact crosses
    · exact (tells step later).elim (·.2) (·.2.1)
  have called (number : Nat) : forwardCalls number s'.trace =
      forwardCalls number s.trace + if held.data.number = number then 1 else 0 := by
    have none : ∀ step ∈ told, step.forwards? = Option.none := fun step member =>
      (tells step member).elim (·.forwards) (·.1)
    rw [grown, ← List.singleton_append, ← List.append_assoc, forwardCalls_append number none,
      forwardCalls, forwardCalls, List.countP_append, List.countP_singleton, forwards]
    simp
  have lives (other : InTransitData) (gap : Nat) (live : Lives ⟨s', hand⟩ other gap) :
      Lives ⟨s, hand⟩ other gap ∨ gap = 1 ∧ 2 ≤ held.data.transmit.ttl ∧
        other.transmit.ttl = held.data.transmit.ttl - 1 ∧ other.number = held.data.number ∧
        other.transmit.destination = held.data.transmit.destination ∧
        (other.id = held.data.id ∨ other.id = net.uuids s.drawn ∧ s.drawn < s'.drawn) := by
    cases live with
    | waits waiting =>
        rcases waits _ _ waiting with before | ⟨⟨same, ip, id⟩, long, ttl⟩
        · exact .inl (.waits before)
        · exact .inr ⟨rfl, long, ttl, same, ip, id⟩
    | hand member => exact .inl (.hand member)
    | inTransit member =>
        rw [links] at member
        exact .inl (.inTransit member)
  have older {other : InTransitData} {gap : Nat} (live : Lives ⟨s, hand⟩ other gap) :
      Lives ⟨s, held :: hand⟩ other gap := by
    cases live with
    | waits waiting => exact .waits waiting
    | hand member => exact .hand (List.mem_cons_of_mem _ member)
    | inTransit member => exact .inTransit member
  refine ⟨numberOf', number.trans bounded.next, fun id number this => ?_, fun id this => ?_,
    fun step member copy' this => ?_, fun id number this => ?_, fun other gap live => ?_,
    fun other gap live => ?_, fun n port p member => ?_, fun number transmit' this => ?_⟩
  · simp only [numberOf'] at this
    split at this
    · next new => exact ⟨s.drawn, new.2, new.1.symm⟩
    · obtain ⟨i, bound, same⟩ := bounded.issued id number this
      exact ⟨i, bound.trans_le drawn, same⟩
  · simp only [numberOf'] at this
    split at this
    · cases this
    · exact (crossed id).trans (bounded.unseen id this)
  · have member : step ∈ s.trace ++ call :: told := grown ▸ member
    rcases List.mem_append.mp member with old | new
    · exact kept (bounded.told step old copy' this)
    · rcases List.mem_cons.mp new with rfl | later
      · obtain rfl := Option.some.inj (copy.symm.trans this)
        exact kept numbered
      · rcases tells step later with passing | ⟨-, -, duplicate, more⟩
        · rw [passing.1] at this
          cases this
        · obtain rfl := Option.some.inj (duplicate.symm.trans this)
          simp [numberOf', more]
  · simp only [numberOf'] at this
    split at this
    · next new =>
      obtain rfl := Option.some.inj this
      refine ⟨transmit, found, ?_⟩
      rw [crossed, new.1, bounded.unseen _ unused]
      exact Nat.zero_le _
    · rw [crossed]
      exact bounded.crossed id number this
  · rcases lives other gap live with old | ⟨-, -, -, same, -, id | ⟨id, more⟩⟩
    · exact kept (bounded.numbered other gap (older old))
    · rw [id, same]
      exact kept numbered
    · simp [numberOf', id, more, same]
  · rcases lives other gap live with old | ⟨rfl, long, ttl, same, ip, id⟩
    · rw [Fits, crossed]
      exact bounded.fits other gap (older old)
    · refine ⟨transmit, same ▸ found, ?_, by omega, ip.trans destination⟩
      have fewer : crossings other.id s'.trace ≤ crossings held.data.id s.trace := by
        rw [crossed]
        rcases id with id | ⟨id, -⟩
        · rw [id]
        · rw [id, bounded.unseen _ unused]
          exact Nat.zero_le _
      dsimp only at within ⊢
      omega
  · rcases endpoints n port p member with old | ⟨same, ip, tells⟩
    · have arrived := bounded.queued n port p old
      show Arrived net transmits s'.trace n port p.data
      rw [grown]
      simpa using arrived.later [] _
    · rw [same]
      exact ⟨transmit, found, destination.symm.trans ip, tells⟩
  · obtain ⟨live, covers, enough⟩ := bounded.calls number transmit' this
    by_cases about : held.data.number = number
    · have paid := totalLeft_erase (covers held.data 0 here about)
      -- what is left of the packet's hops goes to it and its copy
      let children : List (Uuid × Nat) := if 2 ≤ held.data.transmit.ttl then
        [(held.data.id, held.data.transmit.ttl - 1), (net.uuids s.drawn, held.data.transmit.ttl - 1)]
        else []
      have cost : totalLeft children + 1 ≤ callsLeft held.data.transmit.ttl := by
        by_cases long : 2 ≤ held.data.transmit.ttl
        · simp only [children, if_pos long, totalLeft, callsLeft_succ long]
          simp
          omega
        · simp only [children, if_neg long]
          exact callsLeft_pos _
      refine ⟨live.erase (held.data.id, held.data.transmit.ttl) ++ children,
        fun other gap lives' of => ?_, ?_⟩
      · rcases lives other gap lives' with old | ⟨-, long, ttl, -, -, id⟩
        · refine List.mem_append_left _ ((List.mem_erase_of_ne ?_).mpr (covers other gap (older old) of))
          exact fun same => others other gap old (congrArg Prod.fst same)
        · refine List.mem_append_right _ ?_
          simp only [children, if_pos long, ttl]
          rcases id with id | ⟨id, -⟩ <;> simp [id]
      · have sum : totalLeft (live.erase (held.data.id, held.data.transmit.ttl) ++ children) =
            totalLeft (live.erase (held.data.id, held.data.transmit.ttl)) + totalLeft children := by
          simp [totalLeft]
        rw [called, if_pos about, sum]
        simp only at paid enough
        omega
    · refine ⟨live, fun other gap lives' of => ?_, by rwa [called, if_neg about]⟩
      rcases lives other gap lives' with old | ⟨-, -, -, same, -, -⟩
      · exact covers other gap (older old) of
      · exact absurd (same.symm.trans of) about

/-- A new transmit is injected. -/
theorem Bounded.injects {s : State} (bounded : Bounded net transmits numberOf ⟨s, []⟩)
    (fresh : Function.Injective net.uuids) (n : NodeId) (transmit : OwnedTransmit) :
    ∃ numberOf', Bounded net (transmits ++ [transmit]) numberOf'
      ⟨(s.inTransitData net n transmit).2, [⟨(s.inTransitData net n transmit).1, .fresh⟩]⟩ := by
  have unused : numberOf (net.uuids s.drawn) = none := by
    by_contra used
    obtain ⟨number, used⟩ := Option.ne_none_iff_exists'.mp used
    obtain ⟨i, bound, same⟩ := bounded.issued _ number used
    exact absurd (fresh same) (Nat.ne_of_lt bound)
  let numberOf' := Function.update numberOf (net.uuids s.drawn) (some transmits.length)
  have other {id : Uuid} (old : id ≠ net.uuids s.drawn) : numberOf' id = numberOf id :=
    Function.update_of_ne old _ _
  have kept {id : Uuid} {number : Nat} (before : numberOf id = some number) :
      numberOf' id = some number := by
    refine (other ?_).trans before
    rintro rfl
    simp [unused] at before
  have extended {number : Nat} {first : OwnedTransmit} (there : transmits[number]? = some first) :
      (transmits ++ [transmit])[number]? = some first := by
    obtain ⟨bound, -⟩ := List.getElem?_eq_some_iff.mp there
    rwa [List.getElem?_append_left bound]
  have last : (transmits ++ [transmit])[transmits.length]? = some transmit := by simp
  have below {number : Nat} {first : OwnedTransmit} (there : transmits[number]? = some first) :
      number < transmits.length := (List.getElem?_eq_some_iff.mp there).1
  have crossed (id : Uuid) : crossings id (s.inTransitData net n transmit).2.trace =
      crossings id s.trace := rfl
  -- the new packet is in hand, and all the others are as they were
  have lives (other : InTransitData) (gap : Nat) (live : Lives
      ⟨(s.inTransitData net n transmit).2, [⟨(s.inTransitData net n transmit).1, .fresh⟩]⟩
      other gap) : Lives ⟨s, []⟩ other gap ∨
        gap = 0 ∧ other = ⟨net.uuids s.drawn, false, n, transmit, s.nextTransmitNumber⟩ := by
    cases live with
    | waits waiting =>
        refine .inl (.waits (waiting.congr (fun _ => List.Subset.refl _) fun d member opened =>
          ⟨d, member, opened, rfl, rfl⟩))
    | hand member =>
        obtain rfl := List.mem_singleton.mp member
        exact .inr ⟨rfl, rfl⟩
    | inTransit member => exact .inl (.inTransit member)
  have next : s.nextTransmitNumber = transmits.length := bounded.next
  refine ⟨numberOf', by simp [State.inTransitData, State.newPacketId, next], fun id number this => ?_,
    fun id this => ?_, fun step member copy this => ?_, fun id number this => ?_,
    fun other gap live => ?_, fun other gap live => ?_, fun n port p member => ?_,
    fun number transmit' this => ?_⟩
  · by_cases new : id = net.uuids s.drawn
    · exact ⟨s.drawn, Nat.lt_succ_self _, new.symm⟩
    · rw [other new] at this
      obtain ⟨i, bound, same⟩ := bounded.issued id number this
      exact ⟨i, Nat.lt_succ_of_lt bound, same⟩
  · by_cases new : id = net.uuids s.drawn
    · simp [numberOf', new] at this
    · rw [other new] at this
      exact bounded.unseen id this
  · exact kept (bounded.told step member copy this)
  · by_cases new : id = net.uuids s.drawn
    · obtain rfl : transmits.length = number := by simpa [numberOf', new] using this
      refine ⟨transmit, last, ?_⟩
      rw [crossed, new, bounded.unseen _ unused]
      exact Nat.zero_le _
    · rw [other new] at this
      obtain ⟨first, there, within⟩ := bounded.crossed id number this
      exact ⟨first, extended there, within⟩
  · rcases lives other gap live with old | ⟨-, rfl⟩
    · exact kept (bounded.numbered other gap old)
    · simp [numberOf', next]
  · rcases lives other gap live with old | ⟨rfl, rfl⟩
    · obtain ⟨first, there, rest⟩ := bounded.fits other gap old
      exact ⟨first, extended there, rest⟩
    · have none : crossings (net.uuids s.drawn) s.trace = 0 := bounded.unseen _ unused
      refine ⟨transmit, by rw [next]; exact last, ?_, .inl ?_, rfl⟩
      · rw [crossed, none]
        simp
      · rw [crossed, none]
  · have arrived := (bounded.queued n port p member).later [transmit] []
    rwa [List.append_nil] at arrived
  · by_cases new : number = transmits.length
    · subst new
      obtain rfl := Option.some.inj (last.symm.trans this)
      refine ⟨[(net.uuids s.drawn, transmit.ttl)], fun other gap live of => ?_, ?_⟩
      · rcases lives other gap live with old | ⟨-, rfl⟩
        · obtain ⟨first, there, -⟩ := bounded.fits other gap old
          exact absurd of (Nat.ne_of_lt (below there))
        · exact List.mem_cons_self
      · have uncalled : forwardCalls transmits.length s.trace = 0 := by
          refine List.countP_eq_zero.mpr fun step member => ?_
          intro calls
          obtain ⟨time, kind⟩ := step
          cases kind with
          | packetInNode event =>
              have told := bounded.told _ member (event.packetId, event.packetNumber) rfl
              obtain ⟨first, there, -⟩ := bounded.crossed _ _ told
              simp only [SimulationStep.forwards?, decide_eq_true_eq, Option.some.injEq] at calls
              exact absurd calls (Nat.ne_of_lt (below there))
          | _ => simp [SimulationStep.forwards?] at calls
        have same : forwardCalls transmits.length (s.inTransitData net n transmit).2.trace =
            forwardCalls transmits.length s.trace := rfl
        rw [same, uncalled]
        simpa [totalLeft] using callsLeft_le transmit.ttl
    · have there : transmits[number]? = some transmit' := by
        have bound := (List.getElem?_eq_some_iff.mp this).1
        rw [List.length_append, List.length_singleton] at bound
        rwa [List.getElem?_append_left (by omega)] at this
      obtain ⟨live, covers, enough⟩ := bounded.calls number transmit' there
      refine ⟨live, fun other gap lives' of => ?_, enough⟩
      rcases lives other gap lives' with old | ⟨-, rfl⟩
      · exact covers other gap old of
      · exact absurd (of.symm.trans next) new

/-- The packet in hand is nowhere else. -/
theorem Lives.ne_of_located {s : State} {held : Held} {hand : List Held}
    (located : Located net False ⟨s, held :: hand⟩) (live : Lives ⟨s, hand⟩ data gap) :
    data.id ≠ held.data.id := by
  intro same
  obtain ⟨ledger, described, -⟩ := located
  have inHand : 0 < Moment.tally ⟨s, held :: hand⟩ none held.data.id :=
    List.countP_pos_iff.mpr ⟨held, List.mem_cons_self, by simp⟩
  have here := described.place_of_pos inHand
  have elsewhere {place : Place} (positive : 0 < s.count place held.data.id) : False := by
    have there := described.place_of_pos
      (show 0 < Moment.tally ⟨s, held :: hand⟩ (some place) held.data.id from positive)
    rw [here] at there
    cases there
  cases live with
  | waits waiting => exact elsewhere (same ▸ waiting.count_pos)
  | @hand other member =>
      have once : (held :: hand).countP (·.data.id = held.data.id) ≤ 1 :=
        described.le_one none held.data.id
      have twice : 0 < hand.countP (·.data.id = held.data.id) :=
        List.countP_pos_iff.mpr ⟨other, member, by simp [same]⟩
      rw [List.countP_cons_of_pos (by simp)] at once
      omega
  | @inTransit l p member =>
      have queued : 0 < s.count (.inTransit l) held.data.id :=
        List.countP_pos_iff.mpr ⟨p, member, by simp [same]⟩
      exact elsewhere queued

theorem Lives.keeps {s s' : State} {hand hand' : List Held} (live : Lives ⟨s', hand'⟩ data gap)
    (keeps : State.Keeps s s') (hands : hand' ⊆ hand) : Lives ⟨s, hand⟩ data gap := by
  cases live with
  | waits waiting => exact .waits (keeps.waits _ _ waiting)
  | hand member => exact .hand (hands member)
  | inTransit member => exact .inTransit (keeps.inTransit _ member)

theorem Bounded.of_rests {s s' : State} {hand hand' : List Held}
    (bounded : Bounded net transmits numberOf ⟨s, hand⟩) (rests : State.Rests s s')
    (hands : hand' ⊆ hand) : Bounded net transmits numberOf ⟨s', hand'⟩ := by
  obtain ⟨keeps, number, told, grown, passing⟩ := rests
  exact bounded.rests keeps.drawn number grown passing (fun _ _ live => live.keeps keeps hands)
    keeps.queued

/-- A packet that arrived is taken up by the forwarder of its link. -/
theorem Bounded.arrives {s : State} {l : LinkId} {transmit : DeliveredTransmit} {hand : List Held}
    (bounded : Bounded net transmits numberOf
      ⟨s, ⟨transmit.data, .flying l transmit.sent⟩ :: hand⟩)
    (fresh : Function.Injective net.uuids)
    (located : Located net False ⟨s, ⟨transmit.data, .flying l transmit.sent⟩ :: hand⟩)
    (roll : Nat) :
    ∃ numberOf', Bounded net transmits numberOf' ⟨(s.arrive net l transmit roll).1, hand⟩ := by
  have noted : State.Rests s (s.note (.arrived l transmit.data.id)) := .mark s rfl
  have fewer : hand ⊆ ⟨transmit.data, .flying l transmit.sent⟩ :: hand := List.subset_cons_self _ _
  unfold State.arrive
  dsimp only
  split
  · exact ⟨numberOf, bounded.of_rests (noted.trans (.record _ ⟨rfl, rfl⟩)) fewer⟩
  split
  · exact ⟨numberOf, bounded.of_rests (noted.trans (.mark _ rfl)) fewer⟩
  · next node _ =>
    have called := State.forward_forwards net (s.note (.arrived l transmit.data.id)) node
      transmit.data roll
    exact (bounded.of_rests noted (List.Subset.refl _)).forwards fresh called
      (fun _ _ live => (live.keeps noted.keeps (List.Subset.refl _)).ne_of_located located)
      (State.forward_queued net _ node transmit.data roll)

theorem Bounded.arrivesAll {l : LinkId} (member : l ∈ net.linkIds)
    (fresh : Function.Injective net.uuids) (delivered : List DeliveredTransmit)
    (rolls : List Nat) (s : State) (numberOf : Uuid → Option Nat)
    (bounded : Bounded net transmits numberOf
      ⟨s, delivered.map fun t => ⟨t.data, .flying l t.sent⟩⟩)
    (competing : s.Competing net)
    (located : Located net False ⟨s, delivered.map fun t => ⟨t.data, .flying l t.sent⟩⟩) :
    ∃ numberOf', Bounded net transmits numberOf'
      ⟨State.arriveAll net l delivered rolls s, []⟩ := by
  have set (t : State) (forwarder : Forwarder) : State.Rests t (t.setForwarder l forwarder) :=
    .silent (.modifyLink t l (List.Subset.refl _)) rfl rfl
  induction delivered generalizing rolls s numberOf with
  | nil => exact ⟨numberOf, bounded.of_rests (set s _) (List.Subset.refl _)⟩
  | cons transmit delivered ih =>
      obtain ⟨numberOf', bounded'⟩ := bounded.arrives fresh located (rolls.headD 0)
      let licence : Licence := ⟨fun _ _ => 0, True, True⟩
      have effects : Effects net licence
          ⟨s, (transmit :: delivered).map fun t => ⟨t.data, .flying l t.sent⟩⟩
          ⟨(s.arrive net l transmit (rolls.headD 0)).1,
            delivered.map fun t => ⟨t.data, .flying l t.sent⟩⟩ :=
        State.arrive_effects s l transmit _ _ member fun _ => trivial
      have both := effects.invariant (fun m => m.state.Competing net ∧ Located net False m)
        ⟨competing, located⟩ fun _ _ ⟨competing, located⟩ effect =>
          ⟨competing.effect effect, located.effect fresh competing effect False.elim⟩
      unfold State.arriveAll
      generalize s.arrive net l transmit (rolls.headD 0) = result at bounded' both
      obtain ⟨s', exit⟩ := result
      cases exit with
      | returned => exact ih rolls.tail s' numberOf' bounded' both.1 both.2
      | panicked =>
          exact ⟨numberOf', bounded'.of_rests ((set s' _).trans (.silent (.panic _) rfl rfl))
            (List.nil_subset _)⟩

theorem Bounded.polled {s s' : State} {l : LinkId}
    (bounded : Bounded net transmits numberOf ⟨s, []⟩) (competing : s.Competing net)
    (located : Located net False ⟨s, []⟩) (taken : s.pollLink net l = some s') : Bounded net transmits numberOf ⟨s', []⟩ := by
  have none : ([] : List Held) ⊆ [] := List.Subset.refl _
  have worked {t : State} (works : State.Works s t l) : State.Rests s t :=
    .silent works.keeps works.number works.log
  cases State.pollLink_polls taken with
  | waits quiet works => exact bounded.of_rests (worked works) none
  | panics works alive =>
      exact bounded.of_rests ((worked works).trans (.silent (.endQueueTask _ l) rfl rfl)) none
  | discards takes handled => exact bounded.of_rests (worked takes.works) none
  | @clears t k takes unhandled cleared =>
      have closed : State.Rests t ((t.markHandled k).noteAct k.handled l .cleared) :=
        .silent ((State.Keeps.markHandled t k).trans (.noteAct _ k.handled l .cleared)) rfl rfl
      exact bounded.of_rests (((worked takes.works).trans closed).trans (.record _ ⟨rfl, rfl⟩)) none
  | @sendPanics t k takes unhandled =>
      have closed : State.Rests t (t.markHandled k) := .silent (.markHandled t k) rfl rfl
      exact bounded.of_rests (((worked takes.works).trans closed).trans
        (.silent (.endQueueTask _ l) rfl rfl)) none
  | @sends t k data pacer takes unhandled kept up marked =>
      obtain ⟨waits, queued, inTransit⟩ := State.Keeps.carry (t.markHandled k) l k data pacer
      have marks := takes.works.keeps.trans (.markHandled t k)
      obtain ⟨id, number, -⟩ := PacketAnomalies.mark_some marked
      obtain ⟨ttl, destination⟩ := PacketAnomalies.mark_route marked
      have waited := takes.waits competing unhandled
      obtain ⟨-, stays, -⟩ := sole_of_waits located waited
      have grown : (((t.markHandled k).carry l k data pacer).noteAct k.handled l .sent).trace =
          s.trace ++ [⟨t.now, .packetInTransit ⟨data.id, k.srcNode, l⟩⟩] := by
        rw [State.trace, State.trace, ← takes.works.log]
        exact List.filterMap_append
      refine bounded.sends (.waits (p := ⟨k.inNodeSince, k.data⟩) waited) takes.works.drawn.ge
        takes.works.number grown rfl (congrArg some id) (fun other gap live => ?_) (fun n port => ?_)
      rotate_left
      · exact List.Subset.trans ((State.Keeps.noteAct _ k.handled l .sent).queued n port)
          (List.Subset.trans (queued n port) (marks.queued n port))
      cases live with
      | waits waiting =>
          have before := marks.waits _ _ (waits _ _ ((State.Keeps.noteAct _ k.handled l .sent).waits
            _ _ waiting))
          refine .inl ⟨.waits before, not_waits_of_handled located competing takes unhandled
            (fun n => ?_) (List.modify_modify_eq _ _ k.handled t.dispatches) waiting⟩
          rw [← takes.works.nodes]
          exact State.carry_messages _ l k data pacer n
      | hand member => cases member
      | @inTransit l' p member =>
          rw [State.noteAct_links] at member
          rcases inTransit l' p member with old | new
          · have before := marks.inTransit l' old
            exact .inl ⟨.inTransit before, fun same => stays (same ▸ .inTransit before)⟩
          · exact .inr ⟨rfl, new ▸ id, new ▸ number, new ▸ ttl, new ▸ destination⟩

/-- An invariant of all effects holds after the first of them. -/
theorem located_effect {m m' : Moment} (licence : Licence) (fresh : Function.Injective net.uuids)
    (competing : m.state.Competing net) (located : Located net False m)
    (effect : Effect net licence m m') : m'.state.Competing net ∧ Located net False m' :=
  ⟨competing.effect effect, located.effect fresh competing effect False.elim⟩

/-- A transmit is injected at a node, and forwarded there. -/
theorem Bounded.sendsUdp {s : State} (bounded : Bounded net transmits numberOf ⟨s, []⟩)
    (fresh : Function.Injective net.uuids) (competing : s.Competing net)
    (located : Located net False ⟨s, []⟩) (n : NodeId) (transmit : OwnedTransmit) (roll : Nat) :
    ∃ numberOf', Bounded net (transmits ++ [transmit]) numberOf'
      ⟨(s.sendUdp net n transmit roll).1, []⟩ := by
  obtain ⟨numberOf', bounded'⟩ := bounded.injects fresh n transmit
  have held : Located net False
      ⟨(s.inTransitData net n transmit).2, [⟨(s.inTransitData net n transmit).1, .fresh⟩]⟩ :=
    (located_effect ⟨fun _ _ => 0, True, True⟩ fresh competing located
      (.issue s _ (s.nextTransmitNumber + 1) [] [] rfl)).2
  unfold State.sendUdp
  exact bounded'.forwards fresh (State.forward_forwards net _ n _ roll)
    (fun _ _ live => live.ne_of_located held) (State.forward_queued net _ n _ roll)

/-- The forwarder of a link collects the packets that are due. -/
theorem Bounded.collects {s s' : State} {l : LinkId} {ties rolls : List Nat}
    (bounded : Bounded net transmits numberOf ⟨s, []⟩) (fresh : Function.Injective net.uuids)
    (competing : s.Competing net) (located : Located net False ⟨s, []⟩) (member : l ∈ net.linkIds)
    (taken : s.pollForwarder net l ties rolls = some s') :
    ∃ numberOf', Bounded net transmits numberOf' ⟨s', []⟩ := by
  unfold State.pollForwarder at taken
  dsimp only at taken
  split at taken
  · cases taken
  split at taken
  · next delivery inTransit polled =>
    obtain rfl := Option.some.inj taken
    have same := NextPacketDelivery.poll_pending polled
    have subset : inTransit.queue ⊆ (s.links l).inTransit.queue := fun p member => same ▸ member
    exact ⟨numberOf, bounded.of_rests (.silent (.modifyLink s l subset) rfl rfl)
      (List.Subset.refl _)⟩
  · next delivered delivery inTransit polled =>
    obtain rfl := Option.some.inj taken
    have moved := (NextPacketDelivery.poll_ready polled).1
    let collected : State := s.modifyLink l ({ · with inTransit, forwarder := ⟨true, delivery⟩ })
    obtain ⟨competing', located'⟩ := located_effect ⟨fun _ _ => 0, True, True⟩ fresh
      competing located (.collect s l delivered inTransit ⟨true, delivery⟩ member moved)
    refine Bounded.arrivesAll member fresh delivered rolls collected numberOf ?_ competing' located'
    refine bounded.rests le_rfl rfl (List.append_nil _).symm (List.forall_mem_nil _) ?_
      fun _ _ => List.Subset.refl _
    -- what the forwarder holds was in transit on its link
    have before {transmit : DeliveredTransmit} (there : transmit ∈ delivered ++
        inTransit.queue.map (·.delivered)) : Lives ⟨s, []⟩ transmit.data 0 := by
      obtain ⟨p, queued, rfl⟩ := List.mem_map.mp (moved.mem_iff.mpr there)
      exact .inTransit queued
    intro data gap live
    cases live with
    | waits waiting => exact .waits (waiting.congr (fun _ => List.Subset.refl _)
        fun d member opened => ⟨d, member, opened, rfl, rfl⟩)
    | hand held =>
        obtain ⟨transmit, inside, rfl⟩ := List.mem_map.mp held
        exact before (List.mem_append_left _ inside)
    | @inTransit l' p queued =>
        by_cases same : l' = l
        · subst same
          rw [State.modifyLink_self] at queued
          exact before (List.mem_append_right _ (List.mem_map_of_mem queued))
        · rw [State.modifyLink_of_ne _ _ same] at queued
          exact .inTransit queued

/-- A step keeps the bounds of all transmits, those that it injects among them. -/
theorem Bounded.step {s s' : State} {action : Action}
    (bounded : Bounded net transmits numberOf ⟨s, []⟩) (fresh : Function.Injective net.uuids)
    (competing : s.Competing net) (located : Located net False ⟨s, []⟩)
    (taken : s.step net action = some s') :
    ∃ numberOf', Bounded net (transmits ++ action.transmit?.toList) numberOf' ⟨s', []⟩ := by
  have rests (rests : State.Rests s s') : ∃ numberOf', Bounded net (transmits ++ []) numberOf' ⟨s', []⟩ := by
    rw [List.append_nil]
    exact ⟨numberOf, bounded.of_rests rests (List.Subset.refl _)⟩
  cases action with
  | advance duration =>
      obtain rfl := Option.some.inj taken
      exact rests (.silent (.of_sameCount (le_refl s.drawn)
        ⟨fun _ => rfl, fun _ _ => rfl, fun _ => rfl, rfl, rfl⟩) rfl rfl)
  | linkEvent event => exact rests (Option.some.inj taken ▸ State.processLinkEvent_rests net s event)
  | nodeEvent event => exact rests (Option.some.inj taken ▸ State.processNodeEvent_rests net s event)
  | sendUdp n transmit roll =>
      simp only [State.step] at taken
      split at taken
      · cases taken
      obtain ⟨numberOf', bounded'⟩ := bounded.sendsUdp fresh competing located n transmit roll
      generalize s.sendUdp net n transmit roll = result at bounded' taken
      obtain ⟨s'', exit⟩ := result
      cases exit with
      | returned => exact ⟨numberOf', Option.some.inj taken ▸ bounded'⟩
      | panicked =>
          obtain rfl := Option.some.inj taken
          exact ⟨numberOf', bounded'.of_rests (.silent (.panic _) rfl rfl) (List.Subset.refl _)⟩
  | processBuffer n rolls =>
      simp only [State.step] at taken
      split at taken
      · cases taken
      exact rests (State.processBuffer_rests taken)
  | pollLink l =>
      simp only [State.step] at taken
      split at taken
      · cases taken
      refine ⟨numberOf, ?_⟩
      simpa [Action.transmit?] using bounded.polled competing located taken
  | pollForwarder l ties rolls =>
      simp only [State.step] at taken
      split at taken
      · cases taken
      next member =>
      simpa [Action.transmit?] using
        bounded.collects fresh competing located (not_not.mp member) taken
  | pollRecv n port count bufferSize ties =>
      simp only [State.step] at taken
      split at taken
      · cases taken
      exact rests (Option.some.inj taken ▸ State.pollRecv_rests s n port count bufferSize ties)
  | checkReceive n port ties =>
      simp only [State.step] at taken
      split at taken
      · cases taken
      exact rests (Option.some.inj taken ▸ State.checkReceive_rests s n port ties)

end Moment

namespace State

variable {net : InMemoryNetwork} {past : List (State × Action)} {s : State}

/-- What every run keeps of its transmits. -/
theorem bounded_of_run (fresh : Function.Injective net.uuids)
    (run : Run (State.step net) (.initial net) past s) :
    s.Competing net ∧ Located net False ⟨s, []⟩ ∧
      (∃ numberOf, Moment.Bounded net (transmitsOf past) numberOf ⟨s, []⟩) ∧
      ∀ move ∈ past, ∀ transmit, move.2.transmit? = some transmit →
        (transmitsOf past)[move.1.nextTransmitNumber]? = some transmit := by
  induction run with
  | start => exact ⟨.initial, .initial, ⟨_, .initial⟩, List.forall_mem_nil _⟩
  | @next past s s' action run taken ih =>
      obtain ⟨competing, located, ⟨numberOf, bounded⟩, numbered⟩ := ih
      obtain ⟨competing', located'⟩ := step_kept taken
        (fun m => m.state.Competing net ∧ Located net False m) ⟨competing, located⟩
        fun _ _ _ ⟨competing, located⟩ effect =>
          Moment.located_effect _ fresh competing located effect
      have grown : transmitsOf ((s, action) :: past) =
          transmitsOf past ++ action.transmit?.toList := by
        cases sent : action.transmit? <;> simp [transmitsOf, sent]
      rw [grown]
      refine ⟨competing', located', bounded.step fresh competing located taken,
        fun move member transmit sent => ?_⟩
      rcases List.mem_cons.mp member with rfl | old
      · have next : s.nextTransmitNumber = (transmitsOf past).length := bounded.next
        have sent : action.transmit? = some transmit := sent
        simp [sent, next]
      · have found := numbered move old transmit sent
        have bound := (List.getElem?_eq_some_iff.mp found).1
        rwa [List.getElem?_append_left bound]

/-- Forwarding ends: each copy of a transmit crosses fewer links than its time to live, and the
forward calls that it causes at most double with each hop. -/
theorem forwarding_ends (fresh : Function.Injective net.uuids)
    (run : Run (State.step net) (.initial net) past s) {t : State} {n : NodeId}
    {transmit : OwnedTransmit} {roll : Nat} (injected : (t, .sendUdp n transmit roll) ∈ past) :
    forwardCalls t.nextTransmitNumber s.trace ≤ 2 ^ transmit.ttl ∧
      ∀ step ∈ s.trace, ∀ id, step.copy? = some (id, t.nextTransmitNumber) →
        crossings id s.trace ≤ transmit.ttl - 1 := by
  obtain ⟨-, -, ⟨numberOf, bounded⟩, numbered⟩ := bounded_of_run fresh run
  have found := numbered _ injected transmit rfl
  constructor
  · obtain ⟨live, -, enough⟩ := bounded.calls _ transmit found
    exact (Nat.le_add_right _ _).trans enough
  · intro step member id copy
    obtain ⟨first, found', within⟩ := bounded.crossed id _ (bounded.told step member _ copy)
    obtain rfl := Option.some.inj (found.symm.trans found')
    exact within

/-- A greeting that crosses a link and is delivered. -/
theorem forwarding_ends_twoHosts : ∃ s : State, forwardCalls 0 s.trace = 2 ∧ crossings 0 s.trace = 1 ∧
    forwardCalls 0 s.trace ≤ 2 ^ greeting.ttl ∧ crossings 0 s.trace ≤ greeting.ttl - 1 := by
  let step := State.step (twoHosts (some 1))
  have sent : Run step (.initial (twoHosts (some 1))) [(_, .sendUdp 0 greeting 0)] _ := .next .start rfl
  obtain ⟨later, run, -⟩ := sent.append_attains <|
    show attains step _ [.processBuffer 0 [], .pollLink 0, .advance 10, .pollForwarder 0 [] []] =
      some _ from (Option.some_get rfl).symm
  have ends := forwarding_ends Function.injective_id run (List.mem_append_right _ List.mem_cons_self)
  exact ⟨_, by decide +kernel, by decide +kernel, ends.1, ends.2 _ (List.mem_cons_self) 0 rfl⟩

end State

end Workbench.Network
