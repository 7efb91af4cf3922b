import Workbench.Network.Congestion
import Workbench.Network.Readiness
import Workbench.Network.Topology

/-! Which tasks of a network end.

A buffer processor ends at a packet that it has no route for, or a route without its
link; the tasks of a link end where they panic. Nothing starts a task again, and a
channel whose receiver has ended with its task makes the next sender panic. -/

set_option autoImplicit false

namespace Workbench.Network

open Workbench.Library

/-- The application reads a socket, where it may panic at a buffer of its own. -/
def Action.isRead : Action → Bool
  | .pollRecv .. => true
  | _ => false

theorem SendCall.up_of_result {net : InMemoryNetwork} {call : SendCall}
    (sent : (call.result net).isSome = true) :
    call.carrier.isDown = false ∧ (call.packet.anomalies.mark call.packet.data).isSome = true := by
  obtain ⟨s', sent⟩ := Option.isSome_iff_exists.mp sent
  obtain ⟨data, -, up, marked, -⟩ := State.send_carry sent
  exact ⟨up, by rw [marked]; rfl⟩

namespace State

variable {net : InMemoryNetwork} {s s' t : State} {l : LinkId} {k : OutgoingPacket}

/-- Every background task runs, and has the receiving end of its channel. -/
structure Working (net : InMemoryNetwork) (s : State) : Prop where
  bufferProcessor : ∀ n ∈ net.nodeIds, (s.nodes n).outbound.receiverAlive = true
  queueTask : ∀ l ∈ net.linkIds, (s.links l).task ≠ .panicked
  outgoing : ∀ l ∈ net.linkIds, (s.links l).outgoingQueue.receiverAlive = true
  forwarder : ∀ l ∈ net.linkIds, (s.links l).forwarder.alive = true

theorem Working.initial (net : InMemoryNetwork) : Working net (State.initial net) :=
  ⟨fun _ _ => rfl, fun _ _ => nofun, fun _ _ => rfl, fun _ _ => rfl⟩

/-- No task ends from one state to the other, and none panics. -/
structure Spares (s s' : State) : Prop where
  outbound : ∀ n, (s'.nodes n).outbound.receiverAlive = (s.nodes n).outbound.receiverAlive
  task : ∀ l, (s'.links l).task = .panicked ↔ (s.links l).task = .panicked
  outgoing : ∀ l,
    (s'.links l).outgoingQueue.receiverAlive = (s.links l).outgoingQueue.receiverAlive
  forwarder : ∀ l, (s'.links l).forwarder.alive = (s.links l).forwarder.alive
  panicked : s'.panicked = s.panicked

theorem Working.spared (working : Working net s) (spares : Spares s s') : Working net s' where
  bufferProcessor n member := (spares.outbound n).trans (working.bufferProcessor n member)
  queueTask l member := (spares.task l).not.mpr (working.queueTask l member)
  outgoing l member := (spares.outgoing l).trans (working.outgoing l member)
  forwarder l member := (spares.forwarder l).trans (working.forwarder l member)

namespace Spares

theorem of_same (nodes : s'.nodes = s.nodes) (links : s'.links = s.links)
    (panicked : s'.panicked = s.panicked) : Spares s s' :=
  ⟨fun _ => by rw [nodes], fun _ => by rw [links], fun _ => by rw [links], fun _ => by rw [links],
    panicked⟩

theorem refl (s : State) : Spares s s := .of_same rfl rfl rfl

theorem trans {s'' : State} (first : Spares s s') (second : Spares s' s'') : Spares s s'' where
  outbound n := (second.outbound n).trans (first.outbound n)
  task l := (second.task l).trans (first.task l)
  outgoing l := (second.outgoing l).trans (first.outgoing l)
  forwarder l := (second.forwarder l).trans (first.forwarder l)
  panicked := second.panicked.trans first.panicked

theorem modifyNode (s : State) (n : NodeId) (change : NodeState → NodeState)
    (outbound : (change (s.nodes n)).outbound.receiverAlive = (s.nodes n).outbound.receiverAlive) :
    Spares s (s.modifyNode n change) := by
  refine ⟨fun n' => ?_, fun _ => .rfl, fun _ => rfl, fun _ => rfl, rfl⟩
  by_cases same : n' = n
  · rw [same, modifyNode_self, outbound]
  · rw [modifyNode_of_ne _ _ same]

theorem modifyLink (s : State) (l : LinkId) (change : LinkState → LinkState)
    (task : (change (s.links l)).task = .panicked ↔ (s.links l).task = .panicked)
    (outgoing : (change (s.links l)).outgoingQueue.receiverAlive =
      (s.links l).outgoingQueue.receiverAlive)
    (forwarder : (change (s.links l)).forwarder.alive = (s.links l).forwarder.alive) :
    Spares s (s.modifyLink l change) := by
  refine ⟨fun _ => rfl, fun l' => ?_, fun l' => ?_, fun l' => ?_, rfl⟩
  all_goals by_cases same : l' = l
  · rw [same, modifyLink_self, task]
  · rw [modifyLink_of_ne _ _ same]
  · rw [same, modifyLink_self, outgoing]
  · rw [modifyLink_of_ne _ _ same]
  · rw [same, modifyLink_self, forwarder]
  · rw [modifyLink_of_ne _ _ same]

/-- Work of a task that ran and goes on. -/
theorem of_works (works : Works s t l) (before : (s.links l).task ≠ .panicked)
    (after : (t.links l).task ≠ .panicked)
    (outgoing : (t.links l).outgoingQueue.receiverAlive = (s.links l).outgoingQueue.receiverAlive) :
    Spares s t := by
  refine ⟨fun _ => by rw [works.nodes], fun l' => ?_, fun l' => ?_, fun l' => ?_, works.panicked⟩
  all_goals by_cases same : l' = l
  · rw [same]
    exact iff_of_false after before
  · rw [works.others l' same]
  · rw [same, outgoing]
  · rw [works.others l' same]
  · rw [same, works.forwarder]
  · rw [works.others l' same]

end Spares

/-! Forwarding a packet at a node. -/

/-- A function returns to its task, and no task ends. -/
def Returns (s : State) (result : State × Exit) : Prop :=
  result.2 = .returned ∧ Spares s result.1

theorem Returns.after {result : State × Exit} (before : Spares s s') (returns : Returns s' result) :
    Returns s result :=
  ⟨returns.1, before.trans returns.2⟩

theorem enqueueOutbound_returns {n : NodeId} (alive : (s.nodes n).outbound.receiverAlive = true)
    (packet : BufferedPacket) : Returns s (s.enqueueOutbound n packet) := by
  unfold enqueueOutbound
  split
  · exact ⟨rfl, .of_same rfl rfl rfl⟩
  next taken reserved =>
  have held : Spares s ((s.modifyNode n ({ · with outboundBuffer := taken })).note
      (.reserved n packet.data)) :=
    (Spares.modifyNode s n ({ · with outboundBuffer := taken }) rfl).trans (.of_same rfl rfl rfl)
  dsimp only
  split
  · next failed =>
      have gone := Channel.unboundedSend_none failed
      rw [held.outbound n, alive] at gone
      cases gone
  · next sent pushed =>
      have receiver := congrArg Channel.receiverAlive (Channel.unboundedSend_some pushed)
      exact ⟨rfl, held.trans (.modifyNode _ n ({ · with outbound := sent }) receiver)⟩

theorem enqueueWithDuplicate_returns {n : NodeId}
    (alive : (s.nodes n).outbound.receiverAlive = true) (packet : BufferedPacket)
    (duplicate : Bool) : Returns s (s.enqueueWithDuplicate net n packet duplicate) := by
  unfold enqueueWithDuplicate
  split
  · have drawn : Spares s { s with drawn := s.drawn + 1 } := .of_same rfl rfl rfl
    dsimp only [newPacketId]
    have original := Returns.after drawn (enqueueOutbound_returns (by simpa using alive) packet)
    generalize State.enqueueOutbound { s with drawn := s.drawn + 1 } n packet = entered at original
    obtain ⟨s', exit⟩ := entered
    obtain ⟨rfl, kept⟩ : exit = .returned ∧ Spares s s' := original
    have copied (copy : BufferedPacket) :
        Returns s ((s'.trackInjectedFailures n copy.data true 0 false).enqueueOutbound n copy) :=
      have told : Spares s (s'.trackInjectedFailures n copy.data true 0 false) :=
        kept.trans (.of_same rfl rfl rfl)
      (enqueueOutbound_returns ((told.outbound n).trans alive) copy).after told
    exact copied _
  · exact enqueueOutbound_returns alive packet

theorem forward_returns {n : NodeId} (alive : (s.nodes n).outbound.receiverAlive = true)
    (data : InTransitData) (roll : Nat) : Returns s (s.forward net n data roll) := by
  have told : Spares s (s.trackPacketInNode n data) := .of_same rfl rfl rfl
  have recorded (kind : Tracing.SimulationStepKind) : Spares s ((s.trackPacketInNode n data).record kind) :=
    .of_same rfl rfl rfl
  unfold forward
  split
  · exact ⟨rfl, .of_same rfl rfl rfl⟩
  dsimp only
  split
  · exact ⟨rfl, told.trans (.modifyNode _ n (·.deliverPacket _ data) rfl)⟩
  split
  · exact ⟨rfl, recorded _⟩
  split
  · exact ⟨rfl, recorded _⟩
  · exact (enqueueWithDuplicate_returns (by simpa [trackPacketInNode, record] using alive) _ _).after told

theorem sendUdp_returns {n : NodeId} (alive : (s.nodes n).outbound.receiverAlive = true)
    (transmit : OwnedTransmit) (roll : Nat) : Returns s (s.sendUdp net n transmit roll) := by
  let drawn := { s with drawn := s.drawn + 1, nextTransmitNumber := s.nextTransmitNumber + 1 }
  have same : Spares s drawn := .of_same rfl rfl rfl
  exact (forward_returns (s := drawn) alive _ roll).after same

/-! The forwarder of a link. -/

/-- A packet that arrives over a link is lost, or gets to a node that takes it. -/
def Lands (net : InMemoryNetwork) (s : State) (l : LinkId) (transmit : DeliveredTransmit) : Prop :=
  (s.links l).wasDownAfter transmit.sent = true ∨
    ∃ n, net.nodesByAddr (net.links l).target = some n ∧
      (s.nodes n).outbound.receiverAlive = true

theorem arrive_returns {transmit : DeliveredTransmit} (lands : Lands net s l transmit)
    (roll : Nat) : Returns s (s.arrive net l transmit roll) := by
  have told : Spares s (s.note (.arrived l transmit.data.id)) := .of_same rfl rfl rfl
  unfold arrive
  dsimp only
  split
  · exact ⟨rfl, told.trans (.of_same rfl rfl rfl)⟩
  next kept =>
  obtain lost | ⟨n, found, alive⟩ := lands
  · exact absurd lost kept
  · rw [found]
    exact (forward_returns (s := s.note (.arrived l transmit.data.id)) alive transmit.data roll).after
      told

theorem arriveAll_spares {delivered : List DeliveredTransmit} {rolls : List Nat}
    (alive : (s.links l).forwarder.alive = true)
    (lands : ∀ transmit ∈ delivered, Lands net s l transmit) :
    Spares s (arriveAll net l delivered rolls s) := by
  induction delivered generalizing rolls s with
  | nil => exact .modifyLink s l ({ · with forwarder := .new }) .rfl rfl alive.symm
  | cons transmit delivered ih =>
      unfold arriveAll
      have arrived := arrive_returns (lands transmit List.mem_cons_self) (rolls.headD 0)
      have links := (arrive_links net s l transmit (rolls.headD 0)).1
      generalize s.arrive net l transmit (rolls.headD 0) = result at arrived links
      obtain ⟨s', exit⟩ := result
      obtain ⟨rfl, spares⟩ : exit = .returned ∧ Spares s s' := arrived
      refine spares.trans (ih ((spares.forwarder l).trans alive) fun transmit' member => ?_)
      rcases lands transmit' (List.mem_cons_of_mem _ member) with lost | ⟨n, found, alive⟩
      · exact .inl (by rwa [show s'.links = s.links from links])
      · exact .inr ⟨n, found, (spares.outbound n).trans alive⟩

/-- Where no node has the target address, the first packet that is not lost ends the task. -/
theorem arriveAll_stranded {delivered : List DeliveredTransmit} {rolls : List Nat}
    {transmit : DeliveredTransmit} (nowhere : net.nodesByAddr (net.links l).target = none)
    (member : transmit ∈ delivered) (kept : (s.links l).wasDownAfter transmit.sent = false) :
    ((arriveAll net l delivered rolls s).links l).forwarder.alive = false := by
  induction delivered generalizing rolls s with
  | nil => cases member
  | cons first delivered ih =>
      unfold arriveAll arrive
      dsimp only
      by_cases lost : (s.links l).wasDownAfter first.sent = true
      · rw [note_links, if_pos lost]
        rcases List.mem_cons.mp member with rfl | later
        · rw [lost] at kept
          cases kept
        · exact ih later kept
      · rw [note_links, if_neg lost, nowhere]
        simp [setForwarder, modifyLink]

/-- The packets that a poll of the forwarder of a link takes up. -/
def arriving (s : State) (l : LinkId) (ties : List Nat) : List DeliveredTransmit :=
  match ((s.links l).forwarder.delivery.poll (s.links l).inTransit s.now ties 0).1 with
  | .pending => []
  | .ready delivered => delivered

theorem pollForwarder_cases {ties rolls : List Nat}
    (taken : s.pollForwarder net l ties rolls = some s') : ∃ delivery inTransit,
      let u := s.modifyLink l ({ · with inTransit, forwarder := ⟨true, delivery⟩ })
      s' = u ∧ s.arriving l ties = [] ∨ s' = arriveAll net l (s.arriving l ties) rolls u := by
  unfold pollForwarder at taken
  dsimp only at taken
  split at taken
  · cases taken
  split at taken
  · next delivery inTransit polled =>
      refine ⟨delivery, inTransit, .inl ⟨(Option.some.inj taken).symm, ?_⟩⟩
      rw [arriving, polled]
  · next delivered delivery inTransit polled =>
      refine ⟨delivery, inTransit, .inr ?_⟩
      rw [arriving, polled]
      exact (Option.some.inj taken).symm

theorem pollForwarder_spares {ties rolls : List Nat} (alive : (s.links l).forwarder.alive = true)
    (lands : ∀ transmit ∈ s.arriving l ties, Lands net s l transmit)
    (taken : s.pollForwarder net l ties rolls = some s') : Spares s s' := by
  obtain ⟨delivery, inTransit, polled⟩ := pollForwarder_cases taken
  have kept : Spares s (s.modifyLink l ({ · with inTransit, forwarder := ⟨true, delivery⟩ })) :=
    .modifyLink s l ({ · with inTransit, forwarder := ⟨true, delivery⟩ }) .rfl rfl alive.symm
  rcases polled with ⟨rfl, -⟩ | rfl
  · exact kept
  · refine kept.trans (arriveAll_spares (by rw [modifyLink_self]) fun transmit member => ?_)
    refine (lands transmit member).imp (fun lost => ?_) id
    rwa [modifyLink_self]

theorem pollForwarder_stranded {ties rolls : List Nat} {transmit : DeliveredTransmit}
    (nowhere : net.nodesByAddr (net.links l).target = none)
    (member : transmit ∈ s.arriving l ties)
    (kept : (s.links l).wasDownAfter transmit.sent = false)
    (taken : s.pollForwarder net l ties rolls = some s') :
    (s'.links l).forwarder.alive = false := by
  obtain ⟨delivery, inTransit, ⟨-, none⟩ | rfl⟩ := pollForwarder_cases taken
  · rw [none] at member
    cases member
  · exact arriveAll_stranded nowhere member (by rwa [modifyLink_self])

/-! The buffer processor of a node. -/

theorem pushCopies_returns {n : NodeId} {packet : BufferedPacket} {flag : Nat}
    {preferred links : List LinkId} {rolls : List (Nat × Nat)}
    (alive : ∀ l ∈ links, (s.links l).outgoingQueue.receiverAlive = true) :
    Returns s (pushCopies net n packet flag preferred links rolls s) := by
  induction links generalizing rolls s with
  | nil => exact ⟨rfl, .refl s⟩
  | cons l links ih =>
      unfold pushCopies
      dsimp only
      split
      · next failed =>
          have gone := Channel.unboundedSend_none failed
          rw [alive l List.mem_cons_self] at gone
          cases gone
      · next queue pushed =>
          have receiver := congrArg Channel.receiverAlive (Channel.unboundedSend_some pushed)
          have sent : Spares s (s.modifyLink l ({ · with outgoingQueue := queue })) :=
            .modifyLink s l ({ · with outgoingQueue := queue }) .rfl receiver rfl
          refine (ih fun l' member => ?_).after sent
          exact (sent.outgoing l').trans (alive l' (List.mem_cons_of_mem _ member))

theorem candidateLinks_known {spec : NetworkSpec} (built : net.Built spec) {n : NodeId}
    {dest : IpAddr} {links : List LinkId} (walked : net.candidateLinks n dest = .ok links) :
    ∀ l ∈ links, l ∈ net.linkIds := by
  unfold InMemoryNetwork.candidateLinks at walked
  rcases InMemoryNetwork.walkLinks_all net dest (net.nodes n).routes [] with
    ⟨collected, -⟩ | ⟨⟨e, failed⟩, -⟩
  · rw [collected] at walked
    obtain rfl := Except.ok.inj walked
    intro l member
    obtain ⟨hop, -, towards⟩ := List.mem_filterMap.mp member
    obtain ⟨next, -, found⟩ := Option.bind_eq_some_iff.mp towards
    obtain ⟨link, inside, same, -⟩ := built.linksByAddr hop.1 next l found
    exact (built.linkIds l).mpr ⟨link, inside, same⟩
  · rw [failed] at walked
    cases walked

theorem processBuffer_spares {spec : NetworkSpec} {n : NodeId} {rolls : List (Nat × Nat)}
    (built : net.Built spec) (working : Working net s)
    (routable : ∀ packet ∈ (s.nodes n).outbound.messages.head?,
      net.Routable n packet.data.transmit.destination.ip)
    (taken : s.processBuffer net n rolls = some s') : Spares s s' := by
  unfold processBuffer at taken
  split at taken
  · cases taken
  next packet rest queued =>
  obtain ⟨routed, links, walked⟩ := InMemoryNetwork.routable_iff.mp (routable packet (by simp [queued]))
  dsimp only at taken
  rw [routed, walked] at taken
  obtain rfl := Option.some.inj taken
  have opened : Spares s ((s.takeBuffered n rest).openDispatch n packet links) :=
    (Spares.modifyNode s n (fun node => { node with
      outbound := { node.outbound with messages := rest } }) rfl).trans (.of_same rfl rfl rfl)
  have pushed : Returns s (pushCopies net n packet (s.takeBuffered n rest).dispatches.length links links
      rolls ((s.takeBuffered n rest).openDispatch n packet links)) :=
    (pushCopies_returns fun l member => (opened.outgoing l).trans
      (working.outgoing l (candidateLinks_known built walked l member))).after opened
  unfold dispatch
  generalize pushCopies net n packet (s.takeBuffered n rest).dispatches.length links links rolls
    ((s.takeBuffered n rest).openDispatch n packet links) = result at pushed
  obtain ⟨s', exit⟩ := result
  obtain ⟨rfl, spares⟩ : exit = .returned ∧ Spares s s' := pushed
  exact spares

/-- A packet without a route, or with a route without its link, ends the buffer processor. -/
theorem processBuffer_ends {n : NodeId} {rolls : List (Nat × Nat)} {packet : BufferedPacket}
    (first : packet ∈ (s.nodes n).outbound.messages.head?)
    (unroutable : ¬ net.Routable n packet.data.transmit.destination.ip)
    (taken : s.processBuffer net n rolls = some s') :
    (s'.nodes n).outbound.receiverAlive = false := by
  unfold processBuffer at taken
  split at taken
  · cases taken
  next packet' rest queued =>
  obtain rfl : packet' = packet := by simpa [queued] using first
  dsimp only at taken
  split at taken
  · next links routed walked =>
      exact absurd (InMemoryNetwork.routable_iff.mpr ⟨routed, links, walked⟩) unroutable
  · obtain rfl := Option.some.inj taken
    simp [endBufferProcessor, Channel.dropReceiver]

/-! The permit of a link, which its only task never has to wait for. -/

/-- The permit is there whenever the task may come to ask for it. -/
structure PermitFree (s : State) (l : LinkId) : Prop where
  acquired : ∀ k, (s.links l).task ≠ .acquiring k
  free : (s.links l).task = .idle ∨ (∃ k, (s.links l).task = .yielding k) →
    (s.links l).permit = true

/-- A run of the task of a link leaves the permit free, and panics only without bandwidth. -/
def Resumed.Frees (net : InMemoryNetwork) (l : LinkId) : Resumed → Prop
  | .blocked => True
  | .waits t => PermitFree t l
  | .ready t _ => (t.links l).permit = true
  | .panics _ => (net.links l).bandwidthBps = 0

theorem yieldToPreferred_frees (net : InMemoryNetwork) (permit : (s.links l).permit = true)
    (k : OutgoingPacket) : (s.yieldToPreferred l k).Frees net l := by
  unfold yieldToPreferred
  split
  · simpa [Resumed.Frees, setTask]
  · dsimp only
    split
    · exact ⟨by simp [setTask], fun _ => by simpa [setTask]⟩
    · simpa [Resumed.Frees, setTask]

theorem leaveSleep_frees (net : InMemoryNetwork) (s : State) (l : LinkId) (k : OutgoingPacket) :
    (s.leaveSleep l k).Frees net l :=
  yieldToPreferred_frees net (by rw [modifyLink_self]) k

theorem setTask_frees (net : InMemoryNetwork) (s : State) {task : QueueTask}
    (asleep : task.roomFor? s.now ≠ none) (wakes : ∀ k, task ≠ .yielding k) :
    (Resumed.waits (s.setTask l task)).Frees net l := by
  refine ⟨?_, ?_⟩
  · rintro k acquiring
    simp only [setTask, modifyLink_self] at acquiring
    simp [acquiring, QueueTask.roomFor?] at asleep
  · rintro (idle | ⟨k, yielding⟩)
    · simp only [setTask, modifyLink_self] at idle
      simp [idle, QueueTask.roomFor?] at asleep
    · simp only [setTask, modifyLink_self] at yielding
      exact absurd yielding (wakes k)

theorem recheckLink_frees (net : InMemoryNetwork) (s : State) (l : LinkId) (k : OutgoingPacket) :
    (s.recheckLink l k).Frees net l := by
  unfold recheckLink
  split
  · exact leaveSleep_frees net s l k
  · exact setTask_frees net s (by simp [QueueTask.roomFor?]) nofun

theorem waitForNode_frees (net : InMemoryNetwork) (s : State) (l : LinkId) (k : OutgoingPacket) :
    (s.waitForNode l k).Frees net l := by
  unfold waitForNode
  split
  · exact recheckLink_frees net s l k
  · exact setTask_frees net s (by simp [QueueTask.roomFor?]) nofun

theorem waitForLink_frees (net : InMemoryNetwork) (s : State) (l : LinkId) (k : OutgoingPacket) :
    (s.waitForLink l k).Frees net l := by
  unfold waitForLink
  split
  · exact waitForNode_frees net s l k
  · exact setTask_frees net s (by simp [QueueTask.roomFor?]) nofun

theorem startSleep_frees (net : InMemoryNetwork) (s : State) (l : LinkId) (k : OutgoingPacket) :
    (s.startSleep net l k).Frees net l := by
  unfold startSleep
  split
  · next none => exact none
  · exact ⟨by simp, by simp⟩

/-- A second question for bandwidth at the same instant gets the answer of the first. -/
theorem hasBandwidthAvailable_again {link : NetworkLink} {this this' : LinkState} {now size : Nat}
    (asked : LinkState.hasBandwidthAvailable link this now size = some (false, this')) :
    LinkState.hasBandwidthAvailable link this' now size = some (false, this') ∧
      this'.permit = this.permit := by
  unfold LinkState.hasBandwidthAvailable at asked
  split at asked
  · next busy =>
      obtain ⟨-, rfl⟩ := Prod.mk.inj (Option.some.inj asked)
      exact ⟨by rw [LinkState.hasBandwidthAvailable, if_pos busy], rfl⟩
  next open' =>
  split at asked
  · cases asked
  next bandwidth =>
  simp only [PacketPacer.canSend_eq] at asked
  obtain ⟨room, rfl⟩ := Prod.mk.inj (Option.some.inj asked)
  refine ⟨(if_neg open').trans ((if_neg bandwidth).trans ?_), rfl⟩
  simp only [PacketPacer.canSend_eq, PacketBatch.settle_settle, room]

theorem sleepUntilReadyToSend_frees {k : OutgoingPacket}
    (permit : (s.links l).permit = true)
    (asked : LinkState.hasBandwidthAvailable (net.links l) (s.links l) s.now k.data.size =
      some (false, s.links l)) : (s.sleepUntilReadyToSend net l k).Frees net l := by
  unfold sleepUntilReadyToSend
  rw [asked]
  dsimp only
  rw [if_pos permit]
  exact startSleep_frees net _ l k

theorem sleepUntilReadyToSend_unfed {k : OutgoingPacket}
    (permit : (s.links l).permit = true) (bandwidth : (net.links l).bandwidthBps = 0)
    (asked : LinkState.hasBandwidthAvailable (net.links l) (s.links l) s.now k.data.size =
      some (false, s.links l)) : ∃ t, s.sleepUntilReadyToSend net l k = .panics t := by
  unfold sleepUntilReadyToSend
  rw [asked]
  dsimp only
  rw [if_pos permit, startSleep, if_pos bandwidth]
  exact ⟨_, rfl⟩

theorem takeOutgoing_frees (permit : (s.links l).permit = true) :
    (s.takeOutgoing net l).Frees net l := by
  unfold takeOutgoing
  split
  · trivial
  next k rest queued =>
  dsimp only
  split
  · next asked =>
      unfold LinkState.hasBandwidthAvailable at asked
      split at asked
      · cases asked
      split at asked
      · next none => exact none
      · cases asked
  · next link asked =>
      simp only [modifyLink_self] at asked
      obtain ⟨-, -, -, -, rfl⟩ := hasBandwidthAvailable_true asked
      exact yieldToPreferred_frees net (by rw [modifyLink_self]; exact permit) k
  · next link asked =>
      simp only [modifyLink_self] at asked
      obtain ⟨again, kept⟩ := hasBandwidthAvailable_again asked
      refine sleepUntilReadyToSend_frees ?_ ?_
      · rw [modifyLink_self, kept]
        exact permit
      · rw [modifyLink_self]
        exact again

theorem resume_frees (free : PermitFree s l) : (s.resume net l).Frees net l := by
  unfold resume
  split
  · trivial
  · next idle => exact takeOutgoing_frees (free.free (.inl idle))
  · next k acquiring => exact absurd acquiring (free.acquired k)
  · next k deadline task =>
      split
      · exact leaveSleep_frees net s l k
      split
      · exact waitForLink_frees net s l k
      · trivial
  · next k notifier task =>
      split
      · exact leaveSleep_frees net s l k
      split
      · exact waitForNode_frees net s l k
      · trivial
  · next k notifier task =>
      split
      · exact leaveSleep_frees net s l k
      split
      · exact recheckLink_frees net s l k
      · trivial
  · next k yielding => exact yieldToPreferred_frees net (free.free (.inr ⟨k, yielding⟩)) k

theorem handle_permit (net : InMemoryNetwork) (s : State) (l : LinkId) (k : OutgoingPacket) :
    ((s.handle net l k).links l).permit = (s.links l).permit := by
  rcases handle_link net s l k with ⟨pacer, inTransit, same⟩ | ended
  · rw [same]
  · rw [ended]

theorem pollLink_permitFree (free : PermitFree s l) (taken : s.pollLink net l = some s') :
    PermitFree s' l := by
  have ended (t : State) : PermitFree (t.endQueueTask l) l := ⟨by simp, by simp⟩
  unfold pollLink at taken
  have resumes := resume_resumes net s l
  have frees : (s.resume net l).Frees net l := resume_frees free
  split at taken
  · cases taken
  · next t resumed =>
      obtain rfl := Option.some.inj taken
      rwa [resumed] at frees
  · next t k resumed =>
      obtain rfl := Option.some.inj taken
      rw [resumed] at frees resumes
      cases resumes with
      | ready takes =>
          have permit := (handle_permit net t l k).trans frees
          rcases handle_task net t l k with same | panicked
          · exact ⟨by simp [same, takes.idle], fun _ => permit⟩
          · exact ⟨by simp [panicked], fun _ => permit⟩
  · obtain rfl := Option.some.inj taken
    exact ended _

theorem step_permitFree {action : Action} (free : PermitFree s l)
    (taken : s.step net action = some s') : PermitFree s' l := by
  by_cases own : action = .pollLink l
  · subst own
    simp only [step] at taken
    split at taken
    · cases taken
    · exact pollLink_permitFree free taken
  · have kept := step_taskKept taken own
    have permit := step_permit taken own
    exact ⟨by rw [kept.task]; exact free.acquired, by rw [kept.task, permit]; exact free.free⟩

/-! The queue task of a link. -/

/-- The link has bandwidth whenever its task comes to take up a packet. -/
def Fed (net : InMemoryNetwork) (s : State) (l : LinkId) : Prop :=
  (s.links l).task = .idle → s.outgoing l ≠ [] → (net.links l).bandwidthBps ≠ 0

/-- The task panics exactly where it takes up a packet without bandwidth. -/
theorem resume_panics (poised : Poised net s l) (free : PermitFree s l)
    (resumed : s.resume net l = .panics t) : ¬ Fed net s l := by
  have bandwidth : (net.links l).bandwidthBps = 0 := by
    have frees : (s.resume net l).Frees net l := resume_frees free
    rwa [resumed] at frees
  have waits (k : OutgoingPacket) (since : Nat)
      (task : (s.links l).task.roomFor? s.now = some (k, since)) : False :=
    (poised k since task).1 bandwidth
  intro fed
  cases task : (s.links l).task with
  | idle =>
      refine fed task (fun empty => ?_) bandwidth
      simp [resume, task, takeOutgoing, show (s.links l).outgoingQueue.messages = [] from empty] at resumed
  | acquiring k => exact free.acquired k task
  | sleeping k deadline => exact waits k deadline (by rw [task]; rfl)
  | waitingForLink k notifier => exact waits k s.now (by rw [task]; rfl)
  | waitingForNode k notifier => exact waits k s.now (by rw [task]; rfl)
  | yielding k => exact waits k s.now (by rw [task]; rfl)
  | panicked => simp [resume, task] at resumed

theorem resume_unfed (free : PermitFree s l) (unfed : ¬ Fed net s l) :
    ∃ t, s.resume net l = .panics t := by
  simp only [Fed, not_forall, not_not] at unfed
  obtain ⟨idle, some, bandwidth⟩ := unfed
  obtain ⟨k, rest, queued⟩ := List.exists_cons_of_ne_nil some
  have permit := free.free (.inl idle)
  unfold resume
  rw [idle]
  dsimp only
  unfold takeOutgoing
  rw [show (s.links l).outgoingQueue.messages = k :: rest from queued]
  dsimp only
  split
  · exact ⟨_, rfl⟩
  · next asked => exact absurd bandwidth (hasBandwidthAvailable_true asked).2.2.1
  · next asked =>
      simp only [modifyLink_self] at asked
      obtain ⟨again, kept⟩ := hasBandwidthAvailable_again asked
      refine sleepUntilReadyToSend_unfed ?_ bandwidth ?_
      · rw [modifyLink_self, kept]
        exact permit
      · rw [modifyLink_self]
        exact again

/-- A copy that a poll of the task of a link gets ready to send, at its turn. -/
inductive Due (net : InMemoryNetwork) (s : State) (l : LinkId) (k : OutgoingPacket) : Prop where
  | shortcut (way : Shortcut net s l k)
  | slept {deadline : Nat} (task : (s.links l).task = .sleeping k deadline)
      (passed : deadline ≤ s.now) (nodeUp : (s.nodes k.srcNode).isDown = false)
      (up : (s.links l).isDown = false)
  | linkUp {notifier : Nat} (task : (s.links l).task = .waitingForLink k notifier)
      (completed : (s.links l).status.completed notifier = true)
      (nodeUp : (s.nodes k.srcNode).isDown = false) (up : (s.links l).isDown = false)

theorem Due.resume (due : Due net s l k) (inTurn : turn l k = true)
    (unhandled : s.handled k.handled = false) :
    ∃ t k', k'.SameCopy k ∧ s.resume net l = .ready t k' := by
  cases due with
  | shortcut way => exact way.resume inTurn unhandled
  | slept task passed nodeUp up =>
      obtain ⟨t, k', same, ready⟩ := leaveSleep_of_turn s inTurn
      refine ⟨t, k', same, ?_⟩
      simp only [State.resume, task, unhandled, passed, waitForLink, waitForNode, recheckLink,
        notifierForUp_none.mpr up, notifierForUp_none.mpr nodeUp]
      exact ready
  | linkUp task completed nodeUp up =>
      obtain ⟨t, k', same, ready⟩ := leaveSleep_of_turn s inTurn
      refine ⟨t, k', same, ?_⟩
      simp only [State.resume, task, unhandled, completed, waitForNode, recheckLink,
        notifierForUp_none.mpr up, notifierForUp_none.mpr nodeUp]
      exact ready

theorem due_of_sendCall {call : SendCall} (called : s.sendCall net (.pollLink l) = some call) :
    ∃ k, call.packet.SameCopy k ∧ turn l k = true ∧ s.Pending k ∧ Due net s l k := by
  obtain ⟨l, t, k, same, -, rfl, copy, inTurn, pending, readies, -⟩ := sendCall_readies called
  obtain rfl := Action.pollLink.inj same
  refine ⟨k, copy, inTurn, pending, ?_⟩
  cases readies with
  | atOnce idle queued permit up bandwidth room =>
      exact .shortcut (.atOnce idle queued permit up bandwidth room)
  | slept task passed nodeUp up => exact .slept task passed nodeUp up
  | linkUp task nodeUp up =>
      -- The notifier has completed, or the poll would have left the task waiting
      refine .linkUp task (by_contra fun waiting => ?_) nodeUp up
      obtain ⟨l', u, k', same', -, resumed, -⟩ := sendCall_eq_some.mp called
      obtain rfl := Action.pollLink.inj same'
      simp [resume, task, pending.1, waiting] at resumed
  | nodeUp task completed up => exact .shortcut (.nodeUp task completed up)
  | gaveWay task => exact .shortcut (.gaveWay task)

/-- The task of a link takes up packets only with bandwidth, and sends them only while
the link is up, and those that are to be marked only if they can be. -/
structure Sendable (net : InMemoryNetwork) (s : State) (l : LinkId) : Prop where
  fed : Fed net s l
  up : ∀ k, Due net s l k → turn l k = true → s.Pending k → (s.links l).isDown = false
  marked : ∀ k, Due net s l k → turn l k = true → s.Pending k →
    k.anomalies.congestionExperienced = true → k.data.SupportsEcn

theorem Sendable.isSome_result (sendable : Sendable net s l) (poised : ∀ l, Poised net s l)
    {call : SendCall} (called : s.sendCall net (.pollLink l) = some call) :
    (call.result net).isSome = true := by
  have yielded : LinkUpAfterYielding net s (.pollLink l) := by
    rintro l' k same - task inTurn pending
    obtain rfl := Action.pollLink.inj same
    exact sendable.up k (.shortcut (.gaveWay task)) inTurn pending
  obtain ⟨k, copy, inTurn, pending, due⟩ := due_of_sendCall called
  obtain ⟨-, -, data, anomalies, -⟩ := copy.fields
  rw [((ready_iff poised (.pollLink l)).mpr yielded call called).isSome_result, data, anomalies,
    PacketAnomalies.isSome_mark]
  exact sendable.marked k due inTurn pending

theorem Spares.carry (s : State) (l : LinkId) (k : OutgoingPacket) (data : InTransitData)
    (pacer : PacketPacer) : Spares s (s.carry l k data pacer) := by
  have told : Spares s (s.trackPacketInTransit k.srcNode l data) := .of_same rfl rfl rfl
  have released := Spares.modifyNode (s.trackPacketInTransit k.srcNode l data) k.srcNode
    (fun node => { node with outboundBuffer := node.outboundBuffer.release k.data.size }) rfl
  unfold State.carry
  exact (told.trans released).trans (.modifyLink _ l (fun link => { link with
    pacer, inTransit := (link.inTransit.send s.now data (link.delay + k.anomalies.extraDelay)).1 })
      .rfl rfl rfl)

theorem handle_spares
    (sent : t.handled k.handled = false → t.clearedFromBuffer k = false →
      (SendCall.result net ⟨t.markHandled k, l, k⟩).isSome = true) : Spares t (t.handle net l k) := by
  have marked : Spares t (t.markHandled k) := .of_same rfl rfl rfl
  unfold handle
  split
  · exact .refl t
  next unhandled =>
  dsimp only
  split
  · exact marked.trans (.of_same rfl rfl rfl)
  next kept =>
  have sends := sent ((Bool.not_eq_true _).mp unhandled) ((Bool.not_eq_true _).mp kept)
  split
  · next passed =>
      obtain ⟨data, pacer, -, -, rfl⟩ := send_carry passed
      have carried := Spares.carry (t.markHandled k) l k data pacer
      exact (marked.trans carried).trans (.of_same rfl rfl rfl)
  · next failed =>
      rw [SendCall.result, State.markHandled, failed] at sends
      cases sends

theorem pollLink_spares (sendable : Sendable net s l) (poised : ∀ l, Poised net s l)
    (free : PermitFree s l) (member : l ∈ net.linkIds) (taken : s.pollLink net l = some s') :
    Spares s s' := by
  have resumes := resume_resumes net s l
  unfold pollLink at taken
  split at taken
  · cases taken
  · next t resumed =>
      obtain rfl := Option.some.inj taken
      have works := resume_works (congrArg Resumed.state? resumed)
      rw [resumed] at resumes
      cases resumes with
      | waits quiet =>
          have before : (s.links l).task ≠ .panicked := fun panicked => by
            simp [resume, panicked] at resumed
          exact .of_works works before ((quiet.alive l).not.mpr before) (quiet.receiver l)
  · next t k resumed =>
      obtain rfl := Option.some.inj taken
      rw [resumed] at resumes
      cases resumes with
      | ready takes =>
          have taking : Spares s t :=
            .of_works takes.works takes.alive (by simp [takes.idle]) takes.receiver
          refine taking.trans (handle_spares fun unhandled kept => ?_)
          exact sendable.isSome_result poised (sendCall_eq_some.mpr
            ⟨l, t, k, rfl, member, resumed, unhandled, kept, rfl⟩)
  · next resumed => exact absurd sendable.fed (resume_panics (poised l) free resumed)

/-- A poll that leaves the task of a link alive found a task that could go on. -/
theorem sendable_of_pollLink (free : PermitFree s l) (member : l ∈ net.linkIds)
    (taken : s.step net (.pollLink l) = some s') (alive : (s'.links l).task ≠ .panicked) :
    Sendable net s l := by
  have sends {call : SendCall} (called : s.sendCall net (.pollLink l) = some call)
      (link : call.link = l) : (call.result net).isSome = true := by
    by_contra failed
    have ended := (step_of_sendCall called).symm.trans taken
    rw [Option.not_isSome_iff_eq_none.mp failed] at ended
    obtain rfl := Option.some.inj ended
    exact alive (by rw [← link, endQueueTask_self])
  have sent (k : OutgoingPacket) (due : Due net s l k) (inTurn : turn l k = true)
      (pending : s.Pending k) :
      (s.links l).isDown = false ∧ (k.anomalies.mark k.data).isSome = true := by
    obtain ⟨t, k', same, resumed⟩ := due.resume inTurn pending.1
    obtain ⟨call, called, link, copy, -, status⟩ := sendCall_of_ready member resumed same pending
    obtain ⟨up, marked⟩ := SendCall.up_of_result (sends called link)
    obtain ⟨-, -, data, anomalies, -⟩ := copy.fields
    exact ⟨status.symm.trans up, by rwa [data, anomalies] at marked⟩
  refine ⟨by_contra fun unfed => ?_, fun k due inTurn pending => (sent k due inTurn pending).1,
    fun k due inTurn pending => PacketAnomalies.isSome_mark.mp (sent k due inTurn pending).2⟩
  obtain ⟨t, resumed⟩ := resume_unfed free unfed
  simp only [step, member, not_true_eq_false, if_false, pollLink, resumed] at taken
  obtain rfl := Option.some.inj taken
  exact alive (by rw [endQueueTask_self])

/-! Steps and runs. -/

theorem processLinkEvent_spares (net : InMemoryNetwork) (s : State) (event : LinkEventPayload) :
    Spares s (s.processLinkEvent net event) := by
  have changed (t : State) (change : LinkState → LinkState)
      (task : (change (t.links event.linkId)).task = (t.links event.linkId).task)
      (outgoing : (change (t.links event.linkId)).outgoingQueue = (t.links event.linkId).outgoingQueue)
      (forwarder : (change (t.links event.linkId)).forwarder = (t.links event.linkId).forwarder) :
      Spares t (t.modifyLink event.linkId change) :=
    .modifyLink t event.linkId change (by rw [task]) (by rw [outgoing]) (by rw [forwarder])
  unfold processLinkEvent
  dsimp only
  split
  · exact .refl s
  have delayed : Spares s (event.delay.elim s (s.changeLinkDelay event.linkId)) := by
    cases event.delay with
    | none => exact .refl s
    | some delay =>
        change Spares s (s.changeLinkDelay event.linkId delay)
        unfold changeLinkDelay
        split
        · exact changed s _ rfl rfl rfl
        · exact .refl s
  generalize event.delay.elim s (s.changeLinkDelay event.linkId) = s' at delayed
  have switched : Spares s' (event.status.elim s' (s'.updateLinkStatus event.linkId)) := by
    cases event.status with
    | none => exact .refl s'
    | some status =>
        have updated := changed s' (·.updateStatus s'.now status) rfl rfl rfl
        change Spares s' (s'.updateLinkStatus event.linkId status)
        unfold updateLinkStatus
        dsimp only
        split
        · exact updated.trans (.of_same rfl rfl rfl)
        · exact updated
  exact (delayed.trans switched).trans (.of_same rfl rfl rfl)

theorem processNodeEvent_spares (net : InMemoryNetwork) (s : State) (event : NodeEventPayload) :
    Spares s (s.processNodeEvent net event) := by
  unfold processNodeEvent
  dsimp only
  split
  · exact .refl s
  have switched : Spares s (event.status.elim s fun status =>
      s.modifyNode event.nodeId (·.updateStatus status)) := by
    cases event.status with
    | none => exact .refl s
    | some status => exact .modifyNode s event.nodeId (·.updateStatus status) rfl
  generalize (event.status.elim s fun status =>
    s.modifyNode event.nodeId (·.updateStatus status)) = s' at switched
  refine switched.trans ?_
  split
  · have cleared : Spares s' (s'.modifyNode event.nodeId (·.clearBuffer s'.now)) :=
      .modifyNode s' event.nodeId (·.clearBuffer s'.now) rfl
    exact cleared.trans (.of_same rfl rfl rfl)
  · exact .of_same rfl rfl rfl

theorem readAll_same (n : NodeId) (bufferSize : Nat) (delivered : List DeliveredTransmit)
    (s : State) : (readAll n bufferSize delivered s).nodes = s.nodes ∧
      (readAll n bufferSize delivered s).links = s.links := by
  induction delivered generalizing s with
  | nil => exact ⟨rfl, rfl⟩
  | cons transmit delivered ih =>
      unfold readAll
      dsimp only
      split
      · exact ⟨rfl, rfl⟩
      · exact ih _

theorem setEndpoint_spares (s : State) (n : NodeId) (port : Port) (queue : InboundQueue) :
    Spares s (s.setEndpoint n port queue) :=
  .modifyNode s n (fun node =>
    { node with udpEndpoints := Function.update node.udpEndpoints port queue }) rfl

/-- A read ends no task of the network, even where it panics. -/
theorem pollRecv_working (working : Working net s) (n : NodeId) (port : Port)
    (slots bufferSize : Nat) (ties : List Nat) :
    Working net (s.pollRecv n port slots bufferSize ties) := by
  unfold pollRecv
  dsimp only
  generalize NextPacketDelivery.poll _ _ _ _ _ = polled
  have set := working.spared (setEndpoint_spares s n port polled.2.2)
  split
  · exact set.spared (.of_same rfl rfl rfl)
  · next delivered _ =>
      obtain ⟨nodes, links⟩ := readAll_same n bufferSize (delivered.take slots) _
      exact ⟨by rw [nodes]; exact set.bufferProcessor, by rw [links]; exact set.queueTask,
        by rw [links]; exact set.outgoing, by rw [links]; exact set.forwarder⟩

theorem checkReceive_spares (s : State) (n : NodeId) (port : Port) (ties : List Nat) :
    Spares s (s.checkReceive n port ties) := by
  have noted (delivered : List DeliveredTransmit) (t : State) :
      Spares t (delivered.foldl (fun s t => s.note (.checked n t.data.id)) t) := by
    induction delivered generalizing t with
    | nil => exact .refl t
    | cons transmit delivered ih =>
        have first : Spares t (t.note (.checked n transmit.data.id)) := .of_same rfl rfl rfl
        exact first.trans (ih _)
  unfold checkReceive
  dsimp only
  split
  · exact setEndpoint_spares s n port _
  · exact (setEndpoint_spares s n port _).trans (noted _ _)

theorem sendUdp_spares {n : NodeId} {transmit : OwnedTransmit} {roll : Nat}
    (alive : (s.nodes n).outbound.receiverAlive = true)
    (taken : s.step net (.sendUdp n transmit roll) = some s') : Spares s s' := by
  simp only [step] at taken
  split at taken
  · cases taken
  have sent : Returns s (s.sendUdp net n transmit roll) := sendUdp_returns alive transmit roll
  generalize s.sendUdp net n transmit roll = result at sent taken
  obtain ⟨t, exit⟩ := result
  obtain ⟨rfl, spares⟩ : exit = .returned ∧ Spares s t := sent
  exact Option.some.inj taken ▸ spares

/-- What a step needs for the task that it polls to go on. -/
def Survives (net : InMemoryNetwork) (s : State) : Action → Prop
  | .processBuffer n _ => ∀ packet ∈ (s.nodes n).outbound.messages.head?,
      net.Routable n packet.data.transmit.destination.ip
  | .pollLink l => Sendable net s l
  | .pollForwarder l ties _ => net.nodesByAddr (net.links l).target = none →
      ∀ transmit ∈ s.arriving l ties, (s.links l).wasDownAfter transmit.sent = true
  | _ => True

/-- A step that panics nowhere in the network, and after which every task works. -/
def Unharmed (net : InMemoryNetwork) (s : State) (action : Action) : Prop :=
  ∀ s', s.step net action = some s' →
    Working net s' ∧ (action.isRead = false → s'.panicked = s.panicked)

/-- What the polls of the link tasks keep by themselves. -/
def Attended (net : InMemoryNetwork) (s : State) : Prop := ∀ l, Poised net s l ∧ PermitFree s l

theorem Attended.initial (net : InMemoryNetwork) : Attended net (State.initial net) :=
  fun _ => ⟨.of_task rfl, nofun, fun _ => rfl⟩

theorem Attended.step {action : Action} (attended : Attended net s)
    (taken : s.step net action = some s') : Attended net s' :=
  fun l => ⟨step_poised (attended l).1 taken, step_permitFree (attended l).2 taken⟩

theorem step_spares {spec : NetworkSpec} {action : Action} (built : net.Built spec)
    (working : Working net s) (attended : Attended net s) (survives : Survives net s action)
    (taken : s.step net action = some s') (unread : action.isRead = false) : Spares s s' := by
  cases action with
  | advance duration => exact Option.some.inj taken ▸ .of_same rfl rfl rfl
  | linkEvent event => exact Option.some.inj taken ▸ processLinkEvent_spares net s event
  | nodeEvent event => exact Option.some.inj taken ▸ processNodeEvent_spares net s event
  | sendUdp n transmit roll =>
      by_cases member : n ∈ net.nodeIds
      · exact sendUdp_spares (working.bufferProcessor n member) taken
      · simp [step, member] at taken
  | processBuffer n rolls =>
      simp only [step] at taken
      split at taken
      · cases taken
      · exact processBuffer_spares built working survives taken
  | pollLink l =>
      simp only [step] at taken
      split at taken
      · cases taken
      next member =>
      exact pollLink_spares survives (fun l => (attended l).1) (attended l).2 (not_not.mp member) taken
  | pollForwarder l ties rolls =>
      simp only [step] at taken
      split at taken
      · cases taken
      next member =>
      have known := not_not.mp member
      refine pollForwarder_spares (working.forwarder l known) (fun transmit arrives => ?_) taken
      cases found : net.nodesByAddr (net.links l).target with
      | none => exact .inl (survives found transmit arrives)
      | some n =>
          obtain ⟨node, inside, same, -⟩ := built.nodesByAddr _ n found
          exact .inr ⟨n, found, working.bufferProcessor n ((built.nodeIds n).mpr ⟨node, inside, same⟩)⟩
  | pollRecv n port slots bufferSize ties => cases unread
  | checkReceive n port ties =>
      simp only [step] at taken
      split at taken
      · cases taken
      · exact Option.some.inj taken ▸ checkReceive_spares s n port ties

/-- A step leaves every task working exactly where the task that it polls can go on. -/
theorem step_working_iff {spec : NetworkSpec} {action : Action} (built : net.Built spec)
    (working : Working net s) (attended : Attended net s)
    (taken : s.step net action = some s') : Working net s' ↔ Survives net s action := by
  constructor
  · intro after
    cases action with
    | processBuffer n rolls =>
        intro packet first
        by_contra unroutable
        simp only [step] at taken
        split at taken
        · cases taken
        next member =>
        have alive := after.bufferProcessor n (not_not.mp member)
        rw [processBuffer_ends first unroutable taken] at alive
        cases alive
    | pollLink l =>
        by_cases member : l ∈ net.linkIds
        · exact sendable_of_pollLink (attended l).2 member taken (after.queueTask l member)
        · simp [step, member] at taken
    | pollForwarder l ties rolls =>
        intro nowhere transmit arrives
        by_contra kept
        simp only [step] at taken
        split at taken
        · cases taken
        next member =>
        have alive := after.forwarder l (not_not.mp member)
        rw [pollForwarder_stranded nowhere arrives (by simpa using kept) taken] at alive
        cases alive
    | _ => trivial
  · intro survives
    by_cases read : action.isRead = false
    · exact working.spared (step_spares built working attended survives taken read)
    · cases action with
      | pollRecv n port slots bufferSize ties =>
          simp only [step] at taken
          split at taken
          · cases taken
          · exact Option.some.inj taken ▸ pollRecv_working working n port slots bufferSize ties
      | _ => exact absurd rfl read

/-- In a run of an accepted network, no step panics or ends a task exactly where every
packet that a buffer processor takes up has a route and the links of all its routes,
every packet that a link takes up or sends can be sent, and every packet that arrives
where no node is has been lost. -/
theorem unharmed_iff {spec : NetworkSpec} {uuids : Nat → Uuid} {packetDelay : Nat → Nat → Nat}
    (accepted : InMemoryNetwork.initialize spec uuids packetDelay = .ok net)
    {past : List (State × Action)} (run : Run (step net) (initial net) past s) :
    (∀ move ∈ past, Unharmed net move.1 move.2) ↔ ∀ move ∈ past, Survives net move.1 move.2 := by
  have built := InMemoryNetwork.initialized_built accepted
  have attended := run.guarded_visited (Attended net) (fun _ _ => True) (.initial net)
    (fun _ _ => trivial) fun _ _ _ attended _ taken => attended.step taken
  have working := run.everywhere_iff (Attended net) (Working net) (Survives net) (.initial net)
    (.initial net) (fun _ _ _ attended taken => attended.step taken)
    fun _ _ _ attended working taken => step_working_iff built working attended taken
  constructor
  · intro unharmed
    exact working.mp (run.guarded_visited (Working net) (Unharmed net) (.initial net) unharmed
      fun _ _ _ _ unharmed taken => (unharmed _ taken).1)
  · intro survives move member s' taken
    have seen : move.1 ∈ visited past s := List.mem_cons_of_mem _ (List.mem_map_of_mem member)
    have works := working.mpr survives move.1 seen
    have spares := step_spares built works (attended _ seen) (survives move member) taken
    exact ⟨(step_working_iff built works (attended _ seen) taken).mpr (survives move member),
      fun unread => (spares unread).panicked⟩

/-- Two hosts, and a link without bandwidth from the first to the second. -/
def withoutBandwidth : NetworkSpec :=
  { NetworkSpec.twoHosts with links := [⟨0, .v4 1, .v4 2, 10, 0, 0, 0, 0⟩] }

/-- The first packet ends the task of the link, the second one the buffer processor. -/
theorem harmed_withoutBandwidth : ∃ net past s,
    InMemoryNetwork.initialize withoutBandwidth id (fun _ size => size) = .ok net ∧
      Run (step net) (initial net) past s ∧
      past.reverse.map Prod.snd = [.sendUdp 0 greeting 0, .processBuffer 0 [], .pollLink 0,
        .sendUdp 0 greeting 0, .processBuffer 0 []] ∧
      (s.links 0).task = .panicked ∧ (s.nodes 0).outbound.receiverAlive = false ∧
      ¬ ∀ move ∈ past, Unharmed net move.1 move.2 := by
  obtain ⟨net, accepted, known, runs⟩ : ∃ net,
      InMemoryNetwork.initialize withoutBandwidth id (fun _ size => size) = .ok net ∧
      0 ∈ net.nodeIds ∧ (attains (step net) (initial net) [.sendUdp 0 greeting 0, .processBuffer 0 [],
        .pollLink 0, .sendUdp 0 greeting 0, .processBuffer 0 []]).any (fun s => decide <|
          (s.links 0).task = .panicked ∧ (s.nodes 0).outbound.receiverAlive = false) = true :=
    ⟨_, rfl, by decide, by decide +kernel⟩
  obtain ⟨s, reached, ended⟩ := (Option.any_eq_true _ _).mp runs
  obtain ⟨past, run, actions⟩ := Run.of_attains reached
  obtain ⟨task, outbound⟩ := of_decide_eq_true ended
  refine ⟨net, past, s, accepted, run, actions, task, outbound, fun unharmed => ?_⟩
  cases run with
  | start => simp at actions
  | next run taken =>
      have working := (unharmed _ List.mem_cons_self s taken).1
      cases (working.bufferProcessor 0 known).symm.trans outbound

theorem unharmed_iff_twoHosts : ∃ net past s,
    InMemoryNetwork.initialize .twoHosts id (fun _ size => size) = .ok net ∧
      Run (step net) (initial net) past s ∧ past.length = 5 ∧
      ((∀ move ∈ past, Unharmed net move.1 move.2) ↔
        ∀ move ∈ past, Survives net move.1 move.2) := by
  obtain ⟨net, accepted, runs⟩ : ∃ net,
      InMemoryNetwork.initialize .twoHosts id (fun _ size => size) = .ok net ∧
      (attains (step net) (initial net) [.sendUdp 0 greeting 0, .processBuffer 0 [], .pollLink 0,
        .advance 10, .pollForwarder 0 [] []]).isSome = true := ⟨_, rfl, by decide +kernel⟩
  obtain ⟨past, run, actions⟩ := Run.of_isSome (step net) (initial net) _ runs
  exact ⟨net, past, _, accepted, run, by simpa using congrArg List.length actions,
    unharmed_iff accepted run⟩

end State

end Workbench.Network
