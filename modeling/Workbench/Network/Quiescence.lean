import Workbench.Network.Conservation
import Workbench.Network.Offers
import Workbench.Network.Scheduling
import Workbench.Network.Survival
import Workbench.Network.Uneventful

/-! Networks whose background tasks have nothing left to do.

No packet is stuck in such a network: one that still waits at a node is held up on each of
its candidate links by an outage of that link, or of the node that its task has in hand. -/

set_option autoImplicit false

namespace Workbench.Network

open Workbench.Library

/-- Who waits for a notifier that has not completed waits for the end of the present outage. -/
def Switch.Faithful (switch : Switch) : Prop :=
  ∀ i, switch.completed i = false → switch.status = .down i

namespace Switch

variable {switch : Switch} {i : Nat}

theorem completed_eq_false : switch.completed i = false ↔ switch.channels[i]? = some false := by
  rw [completed, List.getD_eq_getElem?_getD]
  cases switch.channels[i]? <;> simp

theorem Faithful.isDown (faithful : switch.Faithful) (open' : switch.completed i = false) :
    switch.isDown = true := by
  rw [Switch.isDown, faithful i open']

theorem Faithful.new : Switch.new.Faithful := nofun

theorem Faithful.update (faithful : switch.Faithful) (update : UpdateStatus) :
    (switch.update update).Faithful := by
  obtain ⟨status, channels⟩ := switch
  have earlier (j : Nat) (open' : channels[j]? = some false) : status = .down j :=
    faithful j (completed_eq_false.mpr open')
  intro i open'
  rw [completed_eq_false] at open'
  cases status with
  | up => cases update with
    | up => cases earlier i open'
    | down =>
        -- A new outage opens one more channel, and those before have completed
        change (channels ++ [false])[i]? = some false at open'
        change Status.down channels.length = .down i
        have last : ¬ i < channels.length := by
          intro inside
          rw [List.getElem?_append_left inside] at open'
          cases earlier i open'
        have bound := (List.getElem?_eq_some_iff.mp open').1
        rw [List.length_append, List.length_singleton] at bound
        congr 1
        omega
  | down upTx => cases update with
    | down => exact earlier i open'
    | up =>
        -- The end of an outage completes the one channel that was open
        change (channels.set upTx true)[i]? = some false at open'
        rw [List.getElem?_set] at open'
        split at open'
        · split at open' <;> cases open'
        · next other => exact absurd (Status.down.inj (earlier i open')) other

end Switch

/-- A poll that leaves packets queued leaves no waker for new ones. -/
theorem NextPacketDelivery.poll_notified {this : NextPacketDelivery} (positive : 0 < this.maxTransmits)
    (queue : InboundQueue) (now : Nat) (ties : List Nat) (waker : Waker) :
    (this.poll queue now ties waker).2.2.notifyNewTransmits = queue.notifyNewTransmits ∨
      (this.poll queue now ties waker).2.2.queue = [] := by
  by_cases asleep : ∃ deadline, this.sleep = some deadline ∧ now < deadline
  · obtain ⟨deadline, stored, early⟩ := asleep
    rw [poll_asleep positive stored early]
    exact .inl rfl
  have elapsed : this.Elapsed now := by
    intro deadline stored
    by_contra early
    exact asleep ⟨deadline, stored, Nat.lt_of_not_le early⟩
  cases first : InboundQueue.peek queue.queue with
  | none =>
      have empty := InboundQueue.peek_eq_none.mp first
      rw [poll_empty positive elapsed empty]
      exact .inr empty
  | some next =>
      by_cases early : now < next.arrivalTime
      · rw [poll_early positive elapsed first early]
        exact .inl rfl
      · obtain ⟨delivered, ready⟩ :=
          poll_due ties waker positive elapsed first (Nat.le_of_not_lt early)
        exact .inl (poll_ready_wakers (Prod.ext ready rfl))

namespace State

variable {net : InMemoryNetwork} {s s' t : State} {l : LinkId} {k : OutgoingPacket}

/-! The statuses of nodes and links. -/

/-- Only the events of a link change its status. -/
theorem step_linkStatus {action : Action} (taken : s.step net action = some s')
    (uneventful : ∀ e, action ≠ .linkEvent e) (l : LinkId) :
    (s'.links l).status = (s.links l).status := by
  by_cases polled : ∃ l', action = .pollLink l'
  · obtain ⟨l', rfl⟩ := polled
    simp only [step] at taken
    split at taken
    · cases taken
    cases pollLink_polls taken with
    | waits quiet works => exact works.idles.status l
    | panics works alive => exact (works.idles.trans (endQueueTask_idles _ l')).status l
    | discards takes handled => exact takes.works.idles.status l
    | clears takes unhandled cleared => exact takes.works.idles.status l
    | sendPanics takes unhandled =>
        exact ((takes.works.idles.trans (.of_links rfl)).trans (endQueueTask_idles _ l')).status l
    | @sends t k data pacer takes unhandled kept up marked =>
        rw [noteAct_links]
        by_cases here : l = l'
        · subst here
          rw [carry_self]
          exact takes.works.status
        · rw [carry_of_ne _ k data pacer here]
          exact takes.works.idles.status l
  · exact (step_calm taken (fun l' same => polled ⟨l', same⟩) uneventful).idles.status l

/-- The statuses of all nodes and links are faithful. -/
structure Faithful (s : State) : Prop where
  nodes : ∀ n, (s.nodes n).status.Faithful
  links : ∀ l, (s.links l).status.Faithful

theorem Faithful.initial (net : InMemoryNetwork) : (State.initial net).Faithful :=
  ⟨fun _ => .new, fun _ => .new⟩

theorem Faithful.step {action : Action} (faithful : s.Faithful)
    (taken : s.step net action = some s') : s'.Faithful := by
  constructor
  · intro n
    by_cases eventful : ∃ e, action = .nodeEvent e
    · obtain ⟨e, rfl⟩ := eventful
      obtain rfl := Option.some.inj taken
      rw [processNodeEvent_status]
      split
      · cases e.status with
        | none => exact faithful.nodes n
        | some status => exact (faithful.nodes n).update status
      · exact faithful.nodes n
    · rw [(step_uneventful taken fun e same => eventful ⟨e, same⟩).status]
      exact faithful.nodes n
  · intro l
    by_cases eventful : ∃ e, action = .linkEvent e
    · obtain ⟨e, rfl⟩ := eventful
      obtain rfl := Option.some.inj taken
      exact processLinkEvent_holds (·.status.Faithful) (fun _ _ holds => holds)
        (fun _ _ status holds => holds.update status) net e l (faithful.links l)
    · rw [step_linkStatus taken fun e same => eventful ⟨e, same⟩]
      exact faithful.links l

/-! The forwarder of a link. -/

/-- Only its own polls change the forwarder of a link. -/
theorem step_forwarder {action : Action} (taken : s.step net action = some s')
    (unforwarded : ∀ ties rolls, action ≠ .pollForwarder l ties rolls) :
    (s'.links l).forwarder = (s.links l).forwarder := by
  by_cases polled : action = .pollLink l
  · subst polled
    simp only [step] at taken
    split at taken
    · cases taken
    cases pollLink_polls taken with
    | waits quiet works => exact works.forwarder
    | panics works alive => rw [endQueueTask_self]; exact works.forwarder
    | discards takes handled => exact takes.works.forwarder
    | clears takes unhandled cleared => exact takes.works.forwarder
    | sendPanics takes unhandled => rw [endQueueTask_self]; exact takes.works.forwarder
    | sends takes unhandled kept up marked =>
        rw [noteAct_links, carry_self]
        exact takes.works.forwarder
  by_cases eventful : ∃ e, action = .linkEvent e
  · obtain ⟨e, rfl⟩ := eventful
    exact Option.some.inj taken ▸
      processLinkEvent_kept (·.forwarder) (fun _ _ => rfl) (fun _ _ _ => rfl) net s e l
  by_cases buffered : ∃ n rolls, action = .processBuffer n rolls
  · obtain ⟨n, rolls, rfl⟩ := buffered
    simp only [step] at taken
    split at taken
    · cases taken
    obtain ⟨outgoingQueue, same⟩ := processBuffer_link taken l
    rw [same]
  · rw [(step_linkSame taken polled unforwarded
      (fun n rolls same => buffered ⟨n, rolls, same⟩) fun e same => eventful ⟨e, same⟩).link]

/-- The forwarder of a link ends only by a panic, and waits for new packets only with
none in transit. -/
structure Listening (s : State) (l : LinkId) : Prop where
  alive : (s.links l).forwarder.alive = false → s.panicked = true
  size : (s.links l).forwarder.delivery.maxTransmits = usizeMax
  notified : (s.links l).inTransit.notifyNewTransmits ≠ [] → (s.links l).inTransit.queue = []

theorem Listening.initial (net : InMemoryNetwork) (l : LinkId) :
    Listening (State.initial net) l :=
  ⟨nofun, rfl, fun _ => rfl⟩

/-- The arrivals of a poll leave a new forwarder behind, or panic. -/
theorem arriveAll_forwarder (net : InMemoryNetwork) (l : LinkId) (delivered : List DeliveredTransmit)
    (rolls : List Nat) (s : State) :
    ((arriveAll net l delivered rolls s).links l).forwarder = .new ∨
      ((arriveAll net l delivered rolls s).links l).forwarder = ⟨false, .new usizeMax⟩ ∧
        (arriveAll net l delivered rolls s).panicked = true := by
  induction delivered generalizing rolls s with
  | nil =>
      apply Or.inl
      rw [arriveAll, setForwarder, modifyLink_self]
  | cons transmit delivered ih =>
      unfold arriveAll
      generalize s.arrive net l transmit (rolls.headD 0) = result
      obtain ⟨s', exit⟩ := result
      cases exit with
      | returned => exact ih rolls.tail s'
      | panicked =>
          apply Or.inr
          dsimp only
          rw [setForwarder, modifyLink_self]
          exact ⟨rfl, rfl⟩

theorem step_panicked {action : Action} (taken : s.step net action = some s')
    (panicked : s.panicked = true) : s'.panicked = true :=
  step_kept taken (·.state.panicked = true) panicked fun _ _ _ panicked effect =>
    effect.panicked panicked

theorem Listening.pollForwarder {ties rolls : List Nat} (listening : Listening s l)
    (taken : s.pollForwarder net l ties rolls = some s') : Listening s' l := by
  have positive : 0 < (s.links l).forwarder.delivery.maxTransmits := by
    rw [listening.size]
    decide
  have size := (s.links l).forwarder.delivery.poll_maxTransmits (s.links l).inTransit s.now ties 0
  have subset := (s.links l).forwarder.delivery.poll_subset (s.links l).inTransit s.now ties 0
  have wakers := NextPacketDelivery.poll_notified positive (s.links l).inTransit s.now ties 0
  unfold State.pollForwarder at taken
  dsimp only at taken
  split at taken
  · cases taken
  -- What the poll leaves in transit: new wakers only where that is nothing
  have notified (inTransit : InboundQueue)
      (left : ((s.links l).forwarder.delivery.poll (s.links l).inTransit s.now ties 0).2.2 = inTransit) :
      inTransit.notifyNewTransmits ≠ [] → inTransit.queue = [] := by
    intro some
    rw [left] at wakers subset
    rcases wakers with same | empty
    · rw [same] at some
      rw [listening.notified some] at subset
      exact List.subset_nil.mp subset
    · exact empty
  split at taken
  · next delivery inTransit polled =>
      obtain rfl := Option.some.inj taken
      rw [polled] at size
      constructor
      · rw [modifyLink_self]
        nofun
      · rw [modifyLink_self]
        exact size.trans listening.size
      · rw [modifyLink_self]
        exact notified inTransit (by rw [polled])
  · next delivered delivery inTransit polled =>
      obtain rfl := Option.some.inj taken
      have arrived := arriveAll_forwarder net l delivered rolls
        (s.modifyLink l ({ · with inTransit, forwarder := ⟨true, delivery⟩ }))
      obtain ⟨forwarder, same⟩ := arriveAll_link net l delivered rolls
        (s.modifyLink l ({ · with inTransit, forwarder := ⟨true, delivery⟩ }))
      constructor
      · intro gone
        rcases arrived with new | ⟨-, panicked⟩
        · rw [new] at gone
          cases gone
        · exact panicked
      · rcases arrived with new | ⟨dead, -⟩
        · rw [new]
          rfl
        · rw [dead]
          rfl
      · rw [same, modifyLink_self]
        exact notified inTransit (by rw [polled])

/-- What a poll of its queue task sends over a link is told to the forwarder. -/
theorem pollLink_inTransit (taken : s.pollLink net l = some s') :
    (s'.links l).inTransit = (s.links l).inTransit ∨ (s'.links l).inTransit.notifyNewTransmits = [] := by
  cases pollLink_polls taken with
  | waits quiet works => exact .inl works.inTransit
  | panics works alive => exact .inl (by rw [endQueueTask_self]; exact works.inTransit)
  | discards takes handled => exact .inl takes.works.inTransit
  | clears takes unhandled cleared => exact .inl takes.works.inTransit
  | sendPanics takes unhandled => exact .inl (by rw [endQueueTask_self]; exact takes.works.inTransit)
  | sends takes unhandled kept up marked => exact .inr (by rw [noteAct_links, carry_self]; rfl)

theorem Listening.step {action : Action} (listening : Listening s l)
    (taken : s.step net action = some s') : Listening s' l := by
  by_cases forwarded : ∃ ties rolls, action = .pollForwarder l ties rolls
  · obtain ⟨ties, rolls, rfl⟩ := forwarded
    simp only [State.step] at taken
    split at taken
    · cases taken
    · exact listening.pollForwarder taken
  have unforwarded (ties rolls : List Nat) (same : action = .pollForwarder l ties rolls) : False :=
    forwarded ⟨ties, rolls, same⟩
  have forwarder := step_forwarder taken unforwarded
  refine ⟨fun gone => ?_, forwarder ▸ listening.size, ?_⟩
  · rw [forwarder] at gone
    exact step_panicked taken (listening.alive gone)
  · by_cases polled : action = .pollLink l
    · subst polled
      simp only [State.step] at taken
      split at taken
      · cases taken
      rcases pollLink_inTransit taken with same | told
      · rw [same]
        exact listening.notified
      · exact fun some => absurd told some
    · rw [step_inTransit taken polled unforwarded]
      exact listening.notified

end State

/-! The nodes at which packets are. -/

/-- Packets wait, and are in the hands of a task, only at nodes that the network knows. -/
structure Moment.Within (net : InMemoryNetwork) (m : Moment) : Prop where
  outbound : ∀ n, (m.state.nodes n).outbound.messages ≠ [] → net.Knows n
  hand : ∀ held ∈ m.hand, ∀ n, held.stage = .inside n → net.Knows n

namespace Moment

open State

variable {net : InMemoryNetwork} {licence : Licence} {m m' : Moment} {s s' : State}

theorem Within.of_nodes {hand : List Held} (within : Within net ⟨s, hand⟩)
    (same : ∀ n, (s'.nodes n).outbound.messages = (s.nodes n).outbound.messages) :
    Within net ⟨s', hand⟩ :=
  ⟨fun n some => within.outbound n (same n ▸ some), within.hand⟩

theorem Within.modifyNode {hand : List Held} (within : Within net ⟨s, hand⟩) (n : NodeId)
    (change : NodeState → NodeState)
    (known : (change (s.nodes n)).outbound.messages ≠ [] →
      (s.nodes n).outbound.messages ≠ [] ∨ net.Knows n) :
    Within net ⟨s.modifyNode n change, hand⟩ := by
  refine ⟨fun n' some => ?_, within.hand⟩
  by_cases here : n' = n
  · subst here
    rw [modifyNode_self] at some
    exact (known some).elim (within.outbound n') id
  · rw [modifyNode_of_ne _ _ here] at some
    exact within.outbound n' some

theorem Within.keep {held : Held} {hand : List Held} (within : Within net ⟨s, held :: hand⟩) :
    Within net ⟨s, hand⟩ :=
  ⟨within.outbound, fun other member => within.hand other (List.mem_cons_of_mem _ member)⟩

theorem Within.take {held : Held} {hand : List Held} (within : Within net ⟨s, hand⟩)
    (known : ∀ n, held.stage = .inside n → net.Knows n) : Within net ⟨s, held :: hand⟩ := by
  refine ⟨within.outbound, fun other member => ?_⟩
  rcases List.mem_cons.mp member with rfl | later
  · exact known
  · exact within.hand other later

theorem Within.takeUp {hand : List Held} (within : Within net ⟨s, hand⟩) (data : InTransitData)
    (stage : Stage) : Within net ⟨s.takeUp data stage, hand⟩ := by
  cases stage <;> exact within.of_nodes fun _ => rfl

theorem Within.effect (within : m.Within net) (effect : Effect net licence m m') : m'.Within net := by
  cases effect with
  | quiet hand quiet => exact within.of_nodes fun n => by rw [quiet.outbound]
  | issue s data number before after id =>
      refine ⟨within.outbound, fun held member n inside => ?_⟩
      rcases List.mem_append.mp member with old | new
      · exact within.hand held (List.mem_append_left _ old) n inside
      · rcases List.mem_cons.mp new with rfl | old
        · cases inside
        · exact within.hand held (List.mem_append_right _ old) n inside
  | enter s n data stage hand reaches up =>
      have told : Within net ⟨(s.takeUp data stage).trackPacketInNode n data, hand⟩ :=
        (within.keep.takeUp data stage).of_nodes fun _ => rfl
      apply told.take
      intro n' inside
      obtain rfl := Stage.inside.inj inside
      exact reaches.knows
  | refuse s n data stage hand reaches down =>
      exact (within.keep.takeUp data stage).of_nodes fun _ => rfl
  | retouch s data data' stage hand id size =>
      exact within.keep.take (within.hand ⟨data, stage⟩ List.mem_cons_self)
  | deliver s n data hand => exact within.keep.modifyNode n _ .inl
  | drop s n data reason hand full => exact within.keep.of_nodes fun _ => rfl
  | @buffer s n data since hand outboundBuffer outbound room sent =>
      have known := within.hand ⟨data, .inside n⟩ List.mem_cons_self n rfl
      have booked := within.keep.modifyNode n ({ · with outboundBuffer }) .inl
      have noted : Within net
          ⟨(s.modifyNode n ({ · with outboundBuffer })).note (.reserved n data), hand⟩ :=
        booked.of_nodes fun _ => rfl
      exact noted.modifyNode n ({ · with outbound }) fun _ => .inr known
  | @overbook s n data hand outboundBuffer room lost =>
      have booked := within.keep.modifyNode n ({ · with outboundBuffer }) .inl
      exact booked.of_nodes fun _ => rfl
  | duplicate s n data hand known =>
      have told : Within net ⟨s.trackInjectedFailures n data true 0 false, hand⟩ :=
        within.keep.of_nodes fun _ => rfl
      apply told.take
      intro n' inside
      obtain rfl := Stage.inside.inj inside
      exact known
  | dispatch n packet rest links hand member queued some pushed =>
      have taken := within.modifyNode n (fun node =>
        { node with outbound := { node.outbound with messages := rest } }) fun _ => .inr (.inl member)
      exact taken.of_nodes fun n' => by rw [pushed.nodes]; rfl
  | endBuffer s n hand lost =>
      exact within.modifyNode n _ fun some => absurd rfl some
  | discard hand takes handled | clear hand takes unhandled cleared licensed =>
      exact within.of_nodes fun n => congrArg (fun nodes => (nodes n).outbound.messages) takes.works.nodes
  | @send s t l k data pacer hand member takes unhandled kept up marked =>
      have taken : Within net ⟨t, hand⟩ := within.of_nodes fun n => by rw [takes.works.nodes]
      have released := taken.modifyNode k.srcNode
        (fun node => { node with outboundBuffer := node.outboundBuffer.release k.data.size }) .inl
      exact released.of_nodes fun _ => rfl
  | taskPanics l hand works alive lost => exact within.of_nodes fun n => by rw [← works.nodes]; rfl
  | sendPanics hand takes unhandled lost =>
      exact within.of_nodes fun n => by rw [← takes.works.nodes]; rfl
  | collect s l delivered inTransit forwarder member moved =>
      refine ⟨within.outbound, fun held member n inside => ?_⟩
      obtain ⟨transmit, -, rfl⟩ := List.mem_map.mp member
      cases inside
  | lose s l data sent hand down | strand s l data sent hand up nowhere lost =>
      exact (within.keep.takeUp data (.flying l sent)).of_nodes fun _ => rfl
  | fetch s n port delivered queue member moved =>
      have stored : Within net ⟨s.setEndpoint n port queue, []⟩ := within.modifyNode n _ .inl
      refine ⟨stored.outbound, fun held inside n' same => ?_⟩
      obtain ⟨transmit, -, rfl⟩ := List.mem_map.mp inside
      obtain rfl := Stage.inside.inj same
      exact .inl member
  | read s n data hand | check s n data hand => exact within.keep.of_nodes fun _ => rfl
  | forget s held hand lost => exact within.keep
  | crash s hand lost | outage s l hand up | event s e hand link node | socket s n port delivery hand size =>
      exact within.of_nodes fun _ => rfl

end Moment

namespace State

variable {net : InMemoryNetwork} {s : State} {l : LinkId} {n : NodeId} {id : Uuid}

/-- The background tasks cannot go on, however much time goes by. -/
def Idle (net : InMemoryNetwork) (s : State) : Prop :=
  ∀ duration, ∀ task ∈ net.tasks, State.runnable { s with now := s.now + duration } task = false

/-- The task of a link has a copy in hand that no link has handled, and waits for the end
of an outage of the link, or of the node of the copy. -/
inductive HeldUp (s : State) (l : LinkId) : Prop where
  | byLink {k : OutgoingPacket} {notifier : Nat} (task : (s.links l).task = .waitingForLink k notifier)
      (unhandled : s.handled k.handled = false) (down : (s.links l).isDown = true) : HeldUp s l
  | byNode {k : OutgoingPacket} {notifier : Nat} (task : (s.links l).task = .waitingForNode k notifier)
      (unhandled : s.handled k.handled = false) (down : (s.nodes k.srcNode).isDown = true) : HeldUp s l

/-- The time at which the clock lets a task go on. -/
def alarm (s : State) : Task → Option Nat
  | .bufferProcessor _ => none
  | .linkQueue l => match (s.links l).task with
    | .sleeping _ deadline => some deadline
    | _ => none
  | .forwarder l => if (s.links l).forwarder.alive then (s.links l).forwarder.delivery.sleep else none

theorem runnable_later (duration : Nat) (task : Task) :
    State.runnable { s with now := s.now + duration } task = true ↔
      s.runnable task = true ∨ ∃ deadline, s.alarm task = some deadline ∧ deadline ≤ s.now + duration := by
  cases task with
  | bufferProcessor n => simp [runnable, alarm]
  | linkQueue l =>
      cases task : (s.links l).task <;> simp [runnable, queueReady, alarm, task, handled]
      grind
  | forwarder l =>
      cases alive : (s.links l).forwarder.alive with
      | false => simp [runnable, alarm, alive]
      | true =>
          cases sleep : (s.links l).forwarder.delivery.sleep <;> simp [runnable, alarm, alive, sleep]
          omega

/-- No task of an idle network can go on, and the clock wakes none. -/
theorem idle_iff : s.Idle net ↔ ∀ task ∈ net.tasks, s.runnable task = false ∧ s.alarm task = none := by
  constructor
  · intro idle task known
    have still (duration : Nat) : ¬ State.runnable { s with now := s.now + duration } task = true := by
      rw [idle duration task known]
      exact Bool.false_ne_true
    constructor
    · exact (Bool.not_eq_true _).mp fun on => still 0 ((runnable_later 0 task).mpr (.inl on))
    · apply Option.eq_none_iff_forall_ne_some.mpr
      intro deadline rings
      exact still deadline ((runnable_later deadline task).mpr (.inr ⟨deadline, rings, by omega⟩))
  · intro still duration task known
    apply (Bool.not_eq_true _).mp
    rw [runnable_later]
    simp [still task known]

instance (net : InMemoryNetwork) (s : State) : Decidable (s.Idle net) :=
  decidable_of_iff _ idle_iff.symm

theorem Idle.outbound (idle : s.Idle net) (known : n ∈ net.nodeIds) :
    (s.nodes n).outbound.messages = [] := by
  have still := idle 0 (.bufferProcessor n) (by simp [InMemoryNetwork.tasks, known])
  simpa [runnable] using still

theorem Idle.queueTask (idle : s.Idle net) (known : l ∈ net.linkIds) (duration : Nat) :
    State.queueReady { s with now := s.now + duration } l = false :=
  idle duration (.linkQueue l) (by simp [InMemoryNetwork.tasks, known])

/-- The task of an idle link has nothing to send, or is held up by an outage. -/
theorem Idle.link (idle : s.Idle net) (known : l ∈ net.linkIds) (faithful : s.Faithful)
    (free : PermitFree s l) (alive : (s.links l).task ≠ .panicked) :
    (s.links l).copies = [] ∨ HeldUp s l := by
  have still := idle.queueTask known
  cases task : (s.links l).task with
  | idle =>
      have empty : s.outgoing l = [] := by simpa [queueReady, task] using still 0
      apply Or.inl
      rw [LinkState.copies, task, show (s.links l).outgoingQueue.messages = [] from empty]
      rfl
  | acquiring k => exact absurd task (free.acquired k)
  | sleeping k deadline =>
      -- A sleep ends by itself
      have early := still deadline
      simp [queueReady, task] at early
  | waitingForLink k notifier =>
      have waits : s.handled k.handled = false ∧ (s.links l).status.completed notifier = false := by
        simpa [queueReady, task] using still 0
      exact .inr (.byLink task waits.1 ((faithful.links l).isDown waits.2))
  | waitingForNode k notifier =>
      have waits : s.handled k.handled = false ∧
          (s.nodes k.srcNode).status.completed notifier = false := by
        simpa [queueReady, task] using still 0
      exact .inr (.byNode task waits.1 ((faithful.nodes k.srcNode).isDown waits.2))
  | yielding k =>
      have early := still 0
      simp [queueReady, task] at early
  | panicked => exact absurd task alive

theorem Idle.inTransit (idle : s.Idle net) (known : l ∈ net.linkIds) (listening : Listening s l)
    (healthy : s.panicked = false) : (s.links l).inTransit.queue = [] := by
  have still (duration : Nat) : State.runnable { s with now := s.now + duration } (.forwarder l) = false :=
    idle duration (.forwarder l) (by simp [InMemoryNetwork.tasks, known])
  have alive : (s.links l).forwarder.alive = true := by
    by_contra gone
    have panicked := listening.alive ((Bool.not_eq_true _).mp gone)
    rw [healthy] at panicked
    cases panicked
  cases sleep : (s.links l).forwarder.delivery.sleep with
  | none =>
      apply listening.notified
      simpa [runnable, alive, sleep] using still 0
  | some deadline =>
      have early := still deadline
      simp [runnable, alive, sleep] at early

/-- Nothing is in transit on a link that the network does not have. -/
def Bordered (net : InMemoryNetwork) (s : State) : Prop :=
  ∀ l, l ∉ net.linkIds → (s.links l).inTransit.queue = []

theorem Bordered.step {action : Action} {s' : State} (bordered : Bordered net s)
    (taken : s.step net action = some s') : Bordered net s' := by
  intro l unknown
  rw [step_inTransit taken ?_ ?_]
  · exact bordered l unknown
  · rintro rfl
    simp [State.step, unknown] at taken
  · rintro ties rolls rfl
    simp [State.step, unknown] at taken

/-- What holds of every network that `initialize` accepts, whatever happens in it. -/
structure Tended (net : InMemoryNetwork) (s : State) : Prop where
  faithful : s.Faithful
  listening : ∀ l, Listening s l
  attended : Attended net s
  within : Moment.Within net ⟨s, []⟩
  linked : Linked net s
  bordered : Bordered net s

theorem Tended.initial (net : InMemoryNetwork) : Tended net (State.initial net) where
  faithful := .initial net
  listening := .initial net
  attended := .initial net
  within := ⟨fun _ some => absurd rfl some, List.forall_mem_nil _⟩
  linked := List.forall_mem_nil _
  bordered _ _ := rfl

theorem Tended.step {spec : NetworkSpec} {action : Action} {s' : State} (built : net.Built spec)
    (tended : Tended net s) (taken : s.step net action = some s') : Tended net s' where
  faithful := tended.faithful.step taken
  listening l := (tended.listening l).step taken
  attended := tended.attended.step taken
  within := step_kept taken (Moment.Within net) tended.within fun _ _ _ within effect =>
    within.effect effect
  linked := tended.linked.step built taken
  bordered := tended.bordered.step taken

theorem tended_of_run {spec : NetworkSpec} (built : net.Built spec) {past : List (State × Action)}
    (run : Run (step net) (initial net) past s) : Tended net s :=
  run.invariant (Tended net) (.initial net) fun _ _ _ tended taken => tended.step built taken

/-- A packet that waits at a node of an idle network is held up on all its candidate links. -/
theorem Idle.waiting {spec : NetworkSpec} (built : net.Built spec) (idle : s.Idle net)
    (tended : Tended net s) (competing : s.Competing net) (healthy : s.panicked = false)
    (there : s.whereabouts (.waiting n) id ≠ 0) : n ∈ net.nodeIds ∧
      ∃ d ∈ s.dispatches, d.holds n id = true ∧ d.links ≠ [] ∧ ∀ l ∈ d.links, HeldUp s l := by
  have unbuffered : (s.nodes n).outbound.messages = [] := by
    by_contra some
    apply some
    apply idle.outbound
    rcases tended.within.outbound n some with known | ⟨l, -, found⟩
    · exact known
    · obtain ⟨node, member, same, -⟩ := built.nodesByAddr _ n found
      exact (built.nodeIds n).mpr ⟨node, member, same⟩
  have unsent : 0 < s.dispatches.zipIdx.countP fun di => s.Unsent n id di.1 di.2 := by
    rw [whereabouts, unbuffered] at there
    simpa using Nat.pos_of_ne_zero there
  obtain ⟨⟨d, i⟩, inside, holds⟩ := List.countP_pos_iff.mp unsent
  have found := List.mk_mem_zipIdx_iff_getElem?.mp inside
  have member := List.mem_of_getElem? found
  have holds' := (unsent_iff competing healthy n id found).mp (of_decide_eq_true holds)
  have alive (l : LinkId) (_ : l ∈ d.links) : (s.links l).task ≠ .panicked := fun gone => by
    simp [competing.panicked l gone] at healthy
  obtain ⟨rfl, open', -⟩ : d.node = n ∧ d.handled = false ∧ d.packet.data.id = id := by
    simpa [Dispatch.holds] using holds'
  refine ⟨(competing.dispatched d member).1, d, member, holds', (competing.dispatched d member).2,
    fun l candidate => ?_⟩
  -- Each candidate link still has its copy, so its task is not out of work
  obtain ⟨k, copy, -⟩ := (competing.fair i d found).copies open' alive l candidate
  rcases idle.link (tended.linked d member l candidate) tended.faithful
    (tended.attended l).2 (alive l candidate) with none | held
  · rw [none] at copy
    cases copy
  · exact held

/-- No packet is left on a link of an idle network. -/
theorem Idle.landed (idle : s.Idle net) (tended : Tended net s) (healthy : s.panicked = false)
    (l : LinkId) : (s.links l).inTransit.queue = [] := by
  by_cases known : l ∈ net.linkIds
  · exact idle.inTransit known (tended.listening l) healthy
  · exact tended.bordered l known

/-- What a packet is left at: an endpoint, an end, or a node where all its candidate links are
held up by outages. -/
def Resting (net : InMemoryNetwork) (s : State) (id : Uuid) : Place → Prop
  | .queued _ _ | .finished _ => True
  | .inTransit _ => False
  | .waiting n => n ∈ net.nodeIds ∧
      ∃ d ∈ s.dispatches, d.holds n id = true ∧ d.links ≠ [] ∧ ∀ l ∈ d.links, HeldUp s l

/-- In a network whose tasks have nothing left to do, every packet is in one place: in an endpoint
or finished, unless it waits at a node where all its candidate links are held up by outages. -/
theorem Idle.settles {spec : NetworkSpec} {uuids : Nat → Uuid} {packetDelay : Nat → Nat → Nat}
    (accepted : InMemoryNetwork.initialize spec uuids packetDelay = .ok net)
    (fresh : Function.Injective uuids) (slots : NodeId → Port → Nat)
    {past : List (State × Action)} (run : Run (step net) (initial net) past s)
    (reads : ∀ move ∈ past, move.2.Reads slots) (routed : ∀ move ∈ past, move.1.Routed net move.2)
    (healthy : s.panicked = false) (idle : s.Idle net) (issued : s.Issued net id) :
    ∃ place, s.whereabouts place id = 1 ∧
      (∀ other, other ≠ place → s.whereabouts other id = 0) ∧ Resting net s id place := by
  have built := InMemoryNetwork.initialized_built accepted
  have fresh' : Function.Injective net.uuids := InMemoryNetwork.initialized_uuids accepted ▸ fresh
  have tended := tended_of_run built run
  have competing := Competing.of_run run
  obtain ⟨ledger, described, all⟩ := ledger_of_run fresh' slots run reads routed healthy
  obtain ⟨place, once, elsewhere⟩ := described.sole (all id issued)
  refine ⟨place, once, elsewhere, ?_⟩
  cases place with
  | waiting n =>
      have there : s.whereabouts (.waiting n) id ≠ 0 := by omega
      exact idle.waiting built tended competing healthy there
  | inTransit l =>
      simp [whereabouts, count, idle.landed tended healthy l] at once
  | queued n port | finished outcome => trivial

end State

namespace State

/-- A link that went down holds up the packet that the first host sent, after one was read. -/
theorem Idle.settles_twoHosts : ∃ net past s,
    InMemoryNetwork.initialize .twoHosts id (fun _ size => size) = .ok net ∧
      Run (step net) (initial net) past s ∧ s.Idle net ∧ ∀ id < 2, ∃ place, s.whereabouts place id = 1 ∧
        (∀ other, other ≠ place → s.whereabouts other id = 0) ∧ Resting net s id place := by
  let actions : List Action := [.sendUdp 0 greeting 0, .processBuffer 0 [], .pollLink 0, .pollLink 0,
    .advance 10, .pollForwarder 0 [] [], .pollRecv 1 4433 1 100 [],
    .linkEvent ⟨0, some .down, none, none, none, none, none, none, none⟩, .sendUdp 0 greeting 0,
    .processBuffer 0 [], .pollLink 0, .pollLink 0, .pollForwarder 0 [] []]
  obtain ⟨net, accepted, runs⟩ : ∃ net,
      InMemoryNetwork.initialize .twoHosts id (fun _ size => size) = .ok net ∧
      (attains (step net) (initial net) actions).any (fun s => decide <|
        (∀ move ∈ (moves (step net) (initial net) actions).reverse,
          move.2.Reads (fun _ _ => 1) ∧ move.1.Routed net move.2) ∧
          s.panicked = false ∧ s.drawn = 2 ∧ s.Idle net) = true :=
    ⟨_, rfl, by decide +kernel⟩
  obtain ⟨s, reached, holds⟩ := (Option.any_eq_true _ _).mp runs
  obtain ⟨kept, healthy, drawn, idle⟩ := of_decide_eq_true holds
  refine ⟨net, _, s, accepted, .of_moves reached, idle, fun id small => ?_⟩
  have issued : s.Issued net id :=
    ⟨id, drawn ▸ small, congrFun (InMemoryNetwork.initialized_uuids accepted) id⟩
  exact idle.settles accepted (fun _ _ same => same) (fun _ _ => 1) (.of_moves reached)
    (fun move member => (kept move member).1) (fun move member => (kept move member).2) healthy issued

end State

end Workbench.Network
