import Workbench.Network.Competition
import Workbench.Network.Sends
import Workbench.Network.Topology

/-! The background tasks of a network on a runtime that polls them first in, first out.

A task that can go on again waits at the end of the queue, and so does one that gives
way by `yield_now`. The clock, the events and the application act between two polls. -/

set_option autoImplicit false

namespace Workbench.Network

open Workbench.Library

/-- The background tasks of a network. -/
inductive Task where
  | bufferProcessor (node : NodeId)
  | linkQueue (link : LinkId)
  | forwarder (link : LinkId)
  deriving DecidableEq, Repr

/-- The task that is polled in a step. -/
def Action.task? : Action → Option Task
  | .processBuffer n _ => some (.bufferProcessor n)
  | .pollLink l => some (.linkQueue l)
  | .pollForwarder l _ _ => some (.forwarder l)
  | _ => none

def InMemoryNetwork.tasks (net : InMemoryNetwork) : List Task :=
  net.nodeIds.map .bufferProcessor ++ (net.linkIds.map .linkQueue ++ net.linkIds.map .forwarder)

namespace State

/-- Whether the future that the queue task of a link awaits is ready. -/
def queueReady (s : State) (l : LinkId) : Bool :=
  match (s.links l).task with
  | .idle => !(s.outgoing l).isEmpty
  | .acquiring _ => (s.links l).permit
  | .sleeping k deadline => s.handled k.handled || deadline ≤ s.now
  | .waitingForLink k notifier => s.handled k.handled || (s.links l).status.completed notifier
  | .waitingForNode k notifier =>
    s.handled k.handled || (s.nodes k.srcNode).status.completed notifier
  | .yielding _ => true
  | .panicked => false

/-- Whether a task can go on: what it awaits is there, or it has been woken. -/
def runnable (s : State) : Task → Bool
  | .bufferProcessor n => !(s.nodes n).outbound.messages.isEmpty
  | .linkQueue l => s.queueReady l
  | .forwarder l => (s.links l).forwarder.alive &&
    match (s.links l).forwarder.delivery.sleep with
    | some deadline => deadline ≤ s.now
    | none => (s.links l).inTransit.notifyNewTransmits.isEmpty

/-- Whether a task gave way to the others at its last poll. -/
def gaveWay (s : State) : Task → Bool
  | .linkQueue l => match (s.links l).task with
    | .yielding _ => true
    | _ => false
  | _ => false

end State

/-- A network on its runtime: the tasks that can go on, in the order in which they will
be polled, and whether the first of them is in the middle of a poll. -/
structure Scheduled where
  state : State
  ready : List Task
  midPoll : Bool

/-- A step, and the tasks that it wakes, in the order in which they are woken. -/
structure Turn where
  action : Action
  woken : List Task
  deriving DecidableEq, Repr

namespace Scheduled

/-- At first only the forwarders have something to do. -/
def initial (net : InMemoryNetwork) : Scheduled :=
  ⟨.initial net, net.linkIds.map .forwarder, false⟩

/-- The tasks that can go on and are not queued yet. -/
def fresh (net : InMemoryNetwork) (s : State) (queued : List Task) : List Task :=
  net.tasks.filter fun task => s.runnable task && !queued.contains task

/-- Queues the tasks that a step has woken behind those that were queued before. -/
def enqueue (net : InMemoryNetwork) (s : State) (queued woken : List Task) (midPoll : Bool) :
    Option Scheduled :=
  if woken.Nodup ∧ (∀ task ∈ woken, task ∈ fresh net s queued) ∧
      ∀ task ∈ fresh net s queued, task ∈ woken then
    some ⟨s, queued ++ woken, midPoll⟩
  else none

/-- A step of the first task of the queue, or of what is not a task of the network. -/
def step (net : InMemoryNetwork) (this : Scheduled) (turn : Turn) : Option Scheduled :=
  match turn.action.task? with
  | none =>
    if this.midPoll then none
    else (this.state.step net turn.action).bind fun s => enqueue net s this.ready turn.woken false
  | some task =>
    match this.ready with
    | [] => none
    | first :: rest =>
      if first ≠ task then none
      else (this.state.step net turn.action).bind fun s =>
        if s.runnable task && !s.gaveWay task then enqueue net s (task :: rest) turn.woken true
        else enqueue net s rest turn.woken false

end Scheduled

namespace State

variable {net : InMemoryNetwork} {s s' t : State} {l : LinkId} {k : OutgoingPacket}

theorem yieldToPreferred_ne_blocked (s : State) (l : LinkId) (k : OutgoingPacket) :
    s.yieldToPreferred l k ≠ .blocked := by
  unfold yieldToPreferred
  split
  · nofun
  · dsimp only
    split <;> nofun

theorem leaveSleep_ne_blocked (s : State) (l : LinkId) (k : OutgoingPacket) :
    s.leaveSleep l k ≠ .blocked :=
  yieldToPreferred_ne_blocked _ l k

theorem recheckLink_ne_blocked (s : State) (l : LinkId) (k : OutgoingPacket) :
    s.recheckLink l k ≠ .blocked := by
  unfold recheckLink
  split
  · exact leaveSleep_ne_blocked s l k
  · nofun

theorem waitForNode_ne_blocked (s : State) (l : LinkId) (k : OutgoingPacket) :
    s.waitForNode l k ≠ .blocked := by
  unfold waitForNode
  split
  · exact recheckLink_ne_blocked s l k
  · nofun

theorem waitForLink_ne_blocked (s : State) (l : LinkId) (k : OutgoingPacket) :
    s.waitForLink l k ≠ .blocked := by
  unfold waitForLink
  split
  · exact waitForNode_ne_blocked s l k
  · nofun

theorem startSleep_ne_blocked (s : State) (l : LinkId) (k : OutgoingPacket) :
    s.startSleep net l k ≠ .blocked := by
  unfold startSleep
  split <;> nofun

theorem sleepUntilReadyToSend_ne_blocked (s : State) (l : LinkId) (k : OutgoingPacket) :
    s.sleepUntilReadyToSend net l k ≠ .blocked := by
  unfold sleepUntilReadyToSend
  split
  · dsimp only
    split
    · exact startSleep_ne_blocked _ l k
    · nofun
  · nofun

theorem takeOutgoing_blocked_iff : s.takeOutgoing net l = .blocked ↔ s.outgoing l = [] := by
  unfold takeOutgoing
  split
  · next none => exact iff_of_true rfl none
  · next k rest queued =>
      refine iff_of_false ?_ fun empty => ?_
      · dsimp only
        split
        · nofun
        · exact yieldToPreferred_ne_blocked _ l k
        · exact sleepUntilReadyToSend_ne_blocked _ l k
      · exact List.cons_ne_nil k rest (queued.symm.trans empty)

/-- A poll of the queue task of a link gets on exactly where what it awaits is there. -/
theorem resume_blocked_iff : s.resume net l = .blocked ↔ s.queueReady l = false := by
  unfold resume queueReady
  cases task : (s.links l).task with
  | panicked => exact iff_of_true rfl rfl
  | idle =>
      dsimp only
      rw [takeOutgoing_blocked_iff]
      simp
  | acquiring k =>
      dsimp only
      split
      · next permit => exact iff_of_false (startSleep_ne_blocked s l k) (by simp [permit])
      · next busy => exact iff_of_true rfl (by simpa using busy)
  | sleeping k deadline =>
      dsimp only
      split
      · next handled => exact iff_of_false (leaveSleep_ne_blocked s l k) (by simp [handled])
      split
      · next passed => exact iff_of_false (waitForLink_ne_blocked s l k) (by simp [passed])
      · exact iff_of_true rfl (by simp [*])
  | waitingForLink k notifier =>
      dsimp only
      split
      · next handled => exact iff_of_false (leaveSleep_ne_blocked s l k) (by simp [handled])
      split
      · next completed => exact iff_of_false (waitForNode_ne_blocked s l k) (by simp [completed])
      · exact iff_of_true rfl (by simp [*])
  | waitingForNode k notifier =>
      dsimp only
      split
      · next handled => exact iff_of_false (leaveSleep_ne_blocked s l k) (by simp [handled])
      split
      · next completed => exact iff_of_false (recheckLink_ne_blocked s l k) (by simp [completed])
      · exact iff_of_true rfl (by simp [*])
  | yielding k => exact iff_of_false (yieldToPreferred_ne_blocked s l k) (by simp)

end State

namespace Scheduled

variable {net : InMemoryNetwork} {this this' : Scheduled} {turn : Turn}

/-- What a step does to the queue: the tasks that it leaves queued, and those it wakes. -/
inductive Requeues (net : InMemoryNetwork) (this : Scheduled) (turn : Turn) (s : State) :
    List Task → Prop where
  | outside (untasked : turn.action.task? = none) : Requeues net this turn s this.ready
  | goesOn {task : Task} {rest : List Task} (tasked : turn.action.task? = some task)
      (first : this.ready = task :: rest) (runnable : s.runnable task = true)
      (busy : s.gaveWay task = false) : Requeues net this turn s (task :: rest)
  | suspends {task : Task} {rest : List Task} (tasked : turn.action.task? = some task)
      (first : this.ready = task :: rest)
      (suspended : s.runnable task = true → s.gaveWay task = true) : Requeues net this turn s rest

theorem enqueue_eq_some {s : State} {queued woken : List Task} {midPoll : Bool}
    (enqueued : enqueue net s queued woken midPoll = some this') :
    this'.state = s ∧ this'.ready = queued ++ woken ∧ woken.Nodup ∧
      ∀ task, task ∈ woken ↔ task ∈ fresh net s queued := by
  unfold enqueue at enqueued
  split at enqueued
  · next woke =>
      obtain rfl := Option.some.inj enqueued
      exact ⟨rfl, rfl, woke.1, fun task => ⟨woke.2.1 task, woke.2.2 task⟩⟩
  · cases enqueued

theorem step_requeues (taken : step net this turn = some this') :
    this.state.step net turn.action = some this'.state ∧ ∃ queued,
      Requeues net this turn this'.state queued ∧ this'.ready = queued ++ turn.woken ∧
      turn.woken.Nodup ∧ ∀ task, task ∈ turn.woken ↔ task ∈ fresh net this'.state queued := by
  unfold step at taken
  split at taken
  · next untasked =>
      split at taken
      · cases taken
      obtain ⟨s, stepped, enqueued⟩ := Option.bind_eq_some_iff.mp taken
      obtain ⟨rfl, ready, woke⟩ := enqueue_eq_some enqueued
      exact ⟨stepped, _, .outside untasked, ready, woke⟩
  next task tasked =>
  split at taken
  · cases taken
  next first rest queue =>
  split at taken
  · cases taken
  next same =>
  obtain rfl := not_not.mp same
  obtain ⟨s, stepped, enqueued⟩ := Option.bind_eq_some_iff.mp taken
  split at enqueued
  · next on =>
      obtain ⟨rfl, ready, woke⟩ := enqueue_eq_some enqueued
      rw [Bool.and_eq_true, Bool.not_eq_true'] at on
      exact ⟨stepped, _, .goesOn tasked queue on.1 on.2, ready, woke⟩
  · next off =>
      obtain ⟨rfl, ready, woke⟩ := enqueue_eq_some enqueued
      refine ⟨stepped, _, .suspends tasked queue fun runnable => ?_, ready, woke⟩
      simpa [runnable] using off

/-- The task that is polled is the first of the queue. -/
theorem step_first {task : Task} (taken : step net this turn = some this')
    (tasked : turn.action.task? = some task) : ∃ rest, this.ready = task :: rest := by
  obtain ⟨-, queued, requeues, -⟩ := step_requeues taken
  cases requeues with
  | outside untasked => cases untasked.symm.trans tasked
  | goesOn tasked' first _ _ | suspends tasked' first _ =>
      obtain rfl := Option.some.inj (tasked.symm.trans tasked')
      exact ⟨_, first⟩

/-- Every task that can go on is queued, once. -/
structure Queued (net : InMemoryNetwork) (this : Scheduled) : Prop where
  nodup : this.ready.Nodup
  runnable : ∀ task ∈ net.tasks, this.state.runnable task = true → task ∈ this.ready

theorem mem_fresh {s : State} {queued : List Task} {task : Task} :
    task ∈ fresh net s queued ↔ task ∈ net.tasks ∧ s.runnable task = true ∧ task ∉ queued := by
  simp [fresh]

theorem Requeues.sublist {s : State} {queued : List Task} (requeues : Requeues net this turn s queued) :
    queued.Sublist this.ready := by
  cases requeues with
  | outside _ => exact .refl _
  | goesOn _ first _ _ => exact first ▸ .refl _
  | suspends _ first _ => exact first ▸ List.sublist_cons_self _ _

theorem Queued.step (queued : Queued net this) (taken : step net this turn = some this') :
    Queued net this' := by
  obtain ⟨-, kept, requeues, ready, nodup, woke⟩ := step_requeues taken
  refine ⟨?_, fun task known runnable => ?_⟩
  · rw [ready, List.nodup_append]
    refine ⟨queued.nodup.sublist requeues.sublist, nodup, fun task inside other woken same => ?_⟩
    exact (mem_fresh.mp ((woke other).mp woken)).2.2 (same ▸ inside)
  · rw [ready, List.mem_append, woke, mem_fresh]
    by_cases inside : task ∈ kept
    · exact .inl inside
    · exact .inr ⟨known, runnable, inside⟩

theorem Queued.initial (distinct : net.linkIds.Nodup) : Queued net (initial net) := by
  refine ⟨distinct.map fun _ _ => Task.forwarder.inj, fun task known runnable => ?_⟩
  cases task with
  | bufferProcessor n => cases runnable
  | linkQueue l => cases runnable
  | forwarder l => simpa [InMemoryNetwork.tasks, Scheduled.initial] using known

end Scheduled

end Workbench.Network
