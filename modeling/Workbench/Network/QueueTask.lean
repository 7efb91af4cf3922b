import Mathlib.Data.List.Forall2
import Workbench.Network.Simulator

/-! What the queue task of a link does between two await points.

Until it is ready to send, the task changes nothing but its own link, and of that
only the pacer, the permit and where the task waits: the packet it works on stays
in its hands. -/

set_option autoImplicit false

namespace Workbench.Network

/-- Two values of one copy: the task only forgets links that it has given a chance. -/
def OutgoingPacket.SameCopy (k k' : OutgoingPacket) : Prop :=
  { k with preferredLinks := [] } = { k' with preferredLinks := [] }

theorem OutgoingPacket.SameCopy.refl_all (copies : List OutgoingPacket) :
    List.Forall₂ OutgoingPacket.SameCopy copies copies :=
  List.forall₂_same.mpr fun _ _ => rfl

theorem OutgoingPacket.SameCopy.fields {k k' : OutgoingPacket} (same : k.SameCopy k') :
    k.inNodeSince = k'.inNodeSince ∧ k.srcNode = k'.srcNode ∧ k.data = k'.data ∧
      k.anomalies = k'.anomalies ∧ k.handled = k'.handled := by
  simp only [SameCopy, OutgoingPacket.mk.injEq, true_and] at same
  exact ⟨same.1, same.2.1, same.2.2.1, same.2.2.2.1, same.2.2.2.2⟩

namespace State

/-- A state that differs from another at most in what the queue task of a link works with. -/
structure Works (s s' : State) (l : LinkId) : Prop where
  now : s'.now = s.now
  nodes : s'.nodes = s.nodes
  sockets : s'.sockets = s.sockets
  dispatches : s'.dispatches = s.dispatches
  drawn : s'.drawn = s.drawn
  number : s'.nextTransmitNumber = s.nextTransmitNumber
  log : s'.log = s.log
  panicked : s'.panicked = s.panicked
  others : ∀ l', l' ≠ l → s'.links l' = s.links l'
  status : (s'.links l).status = (s.links l).status
  lastDown : (s'.links l).lastDown = (s.links l).lastDown
  delay : (s'.links l).delay = (s.links l).delay
  inTransit : (s'.links l).inTransit = (s.links l).inTransit
  forwarder : (s'.links l).forwarder = (s.links l).forwarder

theorem Works.refl (s : State) (l : LinkId) : Works s s l :=
  ⟨rfl, rfl, rfl, rfl, rfl, rfl, rfl, rfl, fun _ _ => rfl, rfl, rfl, rfl, rfl, rfl⟩

theorem Works.trans {s s' s'' : State} {l : LinkId} (first : Works s s' l)
    (second : Works s' s'' l) : Works s s'' l where
  now := second.now.trans first.now
  nodes := second.nodes.trans first.nodes
  sockets := second.sockets.trans first.sockets
  dispatches := second.dispatches.trans first.dispatches
  drawn := second.drawn.trans first.drawn
  number := second.number.trans first.number
  log := second.log.trans first.log
  panicked := second.panicked.trans first.panicked
  others l' differs := (second.others l' differs).trans (first.others l' differs)
  status := second.status.trans first.status
  lastDown := second.lastDown.trans first.lastDown
  delay := second.delay.trans first.delay
  inTransit := second.inTransit.trans first.inTransit
  forwarder := second.forwarder.trans first.forwarder

/-- A change of the link that leaves its outer fields alone is work of its task. -/
theorem Works.modifyLink (s : State) (l : LinkId) {change : LinkState → LinkState}
    (status : (change (s.links l)).status = (s.links l).status)
    (lastDown : (change (s.links l)).lastDown = (s.links l).lastDown)
    (delay : (change (s.links l)).delay = (s.links l).delay)
    (inTransit : (change (s.links l)).inTransit = (s.links l).inTransit)
    (forwarder : (change (s.links l)).forwarder = (s.links l).forwarder) :
    Works s (s.modifyLink l change) l := by
  refine ⟨rfl, rfl, rfl, rfl, rfl, rfl, rfl, rfl, fun l' differs => ?_, ?_, ?_, ?_, ?_, ?_⟩
  · simp [State.modifyLink, Function.update_of_ne differs]
  all_goals simpa [State.modifyLink]

/-- The messages in the queue of a link. -/
abbrev outgoing (s : State) (l : LinkId) : List OutgoingPacket :=
  (s.links l).outgoingQueue.messages

/-- A run of the task on a packet in its hands: it still holds the packet where it
waits, and hands it on when it is ready to send. -/
def Resumed.Continues (s : State) (l : LinkId) (packet : OutgoingPacket) : Resumed → Prop
  | .blocked => False
  | .waits s' => Works s s' l ∧ (s'.links l).outgoingQueue = (s.links l).outgoingQueue ∧
      ∃ held, (s'.links l).task.packet? = some held ∧ held.SameCopy packet
  | .ready s' held => Works s s' l ∧ (s'.links l).outgoingQueue = (s.links l).outgoingQueue ∧
      (s'.links l).task = .idle ∧ held.SameCopy packet
  | .panics s' => Works s s' l ∧ (s'.links l).outgoingQueue = (s.links l).outgoingQueue

theorem Resumed.Continues.after {s s' : State} {l : LinkId} {packet : OutgoingPacket}
    {resumed : Resumed} (works : Works s s' l)
    (queue : (s'.links l).outgoingQueue = (s.links l).outgoingQueue)
    (continues : resumed.Continues s' l packet) : resumed.Continues s l packet := by
  cases resumed with
  | blocked => exact continues
  | waits _ | ready _ _ =>
      exact ⟨works.trans continues.1, continues.2.1.trans queue, continues.2.2⟩
  | panics _ => exact ⟨works.trans continues.1, continues.2.trans queue⟩

variable (net : InMemoryNetwork) (s : State) (l : LinkId) (packet : OutgoingPacket)

theorem setTask_continues {task : QueueTask} {held : OutgoingPacket}
    (holds : task.packet? = some held) (same : held.SameCopy packet) :
    (Resumed.waits (s.setTask l task)).Continues s l packet :=
  ⟨.modifyLink s l rfl rfl rfl rfl rfl, by simp [setTask], held, by simp [setTask, holds], same⟩

theorem yieldToPreferred_continues :
    (s.yieldToPreferred l packet).Continues s l packet := by
  have ready (held : OutgoingPacket) (same : held.SameCopy packet) :
      (Resumed.ready (s.setTask l .idle) held).Continues s l packet :=
    ⟨.modifyLink s l rfl rfl rfl rfl rfl, by simp [setTask], by simp [setTask], same⟩
  rw [yieldToPreferred]
  split
  · exact ready _ rfl
  · dsimp only
    split
    · exact setTask_continues s l packet rfl rfl
    · exact ready _ rfl

theorem leaveSleep_continues : (s.leaveSleep l packet).Continues s l packet :=
  .after (.modifyLink s l rfl rfl rfl rfl rfl) (by simp) (yieldToPreferred_continues _ l packet)

theorem recheckLink_continues : (s.recheckLink l packet).Continues s l packet := by
  rw [recheckLink]
  split
  · exact leaveSleep_continues s l packet
  · exact setTask_continues s l packet rfl rfl

theorem waitForNode_continues : (s.waitForNode l packet).Continues s l packet := by
  rw [waitForNode]
  split
  · exact recheckLink_continues s l packet
  · exact setTask_continues s l packet rfl rfl

theorem waitForLink_continues : (s.waitForLink l packet).Continues s l packet := by
  rw [waitForLink]
  split
  · exact waitForNode_continues s l packet
  · exact setTask_continues s l packet rfl rfl

theorem startSleep_continues : (s.startSleep net l packet).Continues s l packet := by
  rw [startSleep]
  split
  · exact ⟨.refl s l, rfl⟩
  · exact ⟨.modifyLink s l rfl rfl rfl rfl rfl, by simp, packet, by simp [QueueTask.packet?], rfl⟩

/-- Asking for bandwidth at most settles the pacer. -/
theorem hasBandwidthAvailable_works {room : Bool} {link : LinkState} {size : Nat}
    (asked : LinkState.hasBandwidthAvailable (net.links l) (s.links l) s.now size =
      some (room, link)) :
    Works s (s.modifyLink l fun _ => link) l ∧
      link.outgoingQueue = (s.links l).outgoingQueue ∧ link.task = (s.links l).task := by
  simp only [LinkState.hasBandwidthAvailable] at asked
  split at asked
  · obtain ⟨-, rfl⟩ := Prod.mk.inj (Option.some.inj asked)
    exact ⟨.modifyLink s l rfl rfl rfl rfl rfl, rfl, rfl⟩
  · split at asked
    · simp at asked
    · obtain ⟨-, rfl⟩ := Prod.mk.inj (Option.some.inj asked)
      exact ⟨.modifyLink s l rfl rfl rfl rfl rfl, rfl, rfl⟩

theorem sleepUntilReadyToSend_continues :
    (s.sleepUntilReadyToSend net l packet).Continues s l packet := by
  rw [sleepUntilReadyToSend]
  split
  · next asked =>
    obtain ⟨works, queue, -⟩ := hasBandwidthAvailable_works net s l asked
    dsimp only
    split
    · exact .after works (by simpa using queue) (startSleep_continues net _ l packet)
    · exact .after works (by simpa using queue) (setTask_continues _ l packet rfl rfl)
  · exact ⟨.refl s l, rfl⟩

/-- The task works on the packet it holds, or on the first one of its queue. -/
theorem resume_cases :
    s.resume net l = .blocked ∨
    (∃ packet, (s.links l).task.packet? = some packet ∧
      (s.resume net l).Continues s l packet) ∨
    (∃ packet rest, (s.links l).task = .idle ∧ s.outgoing l = packet :: rest ∧
      (s.resume net l).Continues (s.modifyLink l fun link =>
        { link with outgoingQueue := { link.outgoingQueue with messages := rest } }) l packet) := by
  rw [resume]
  split
  · exact .inl rfl
  · next idle =>
    rw [takeOutgoing]
    split
    · exact .inl rfl
    · next packet rest queued =>
      refine .inr (.inr ⟨packet, rest, idle, queued, ?_⟩)
      dsimp only
      split
      · exact ⟨.refl _ l, rfl⟩
      · next asked =>
        obtain ⟨works, queue, -⟩ := hasBandwidthAvailable_works net _ l asked
        exact .after works (by simpa using queue) (yieldToPreferred_continues _ l packet)
      · next asked =>
        obtain ⟨works, queue, -⟩ := hasBandwidthAvailable_works net _ l asked
        exact .after works (by simpa using queue) (sleepUntilReadyToSend_continues net _ l packet)
  · next packet holds =>
    split
    · exact .inr (.inl ⟨packet, by simp [holds, QueueTask.packet?], startSleep_continues net s l packet⟩)
    · exact .inl rfl
  · next packet deadline holds =>
    split
    · exact .inr (.inl ⟨packet, by simp [holds, QueueTask.packet?], leaveSleep_continues s l packet⟩)
    · split
      · exact .inr (.inl ⟨packet, by simp [holds, QueueTask.packet?], waitForLink_continues s l packet⟩)
      · exact .inl rfl
  · next packet notifier holds =>
    split
    · exact .inr (.inl ⟨packet, by simp [holds, QueueTask.packet?], leaveSleep_continues s l packet⟩)
    · split
      · exact .inr (.inl ⟨packet, by simp [holds, QueueTask.packet?], waitForNode_continues s l packet⟩)
      · exact .inl rfl
  · next packet notifier holds =>
    split
    · exact .inr (.inl ⟨packet, by simp [holds, QueueTask.packet?], leaveSleep_continues s l packet⟩)
    · split
      · exact .inr (.inl ⟨packet, by simp [holds, QueueTask.packet?], recheckLink_continues s l packet⟩)
      · exact .inl rfl
  · next packet holds =>
    exact .inr (.inl ⟨packet, by simp [holds, QueueTask.packet?],
      yieldToPreferred_continues s l packet⟩)

end State

end Workbench.Network
