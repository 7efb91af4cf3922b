import Mathlib.Data.List.TakeWhile
import Workbench.Library.RoundRobin
import Workbench.Network.Offers
import Workbench.Network.Scheduling
import Workbench.Network.Telling

/-! Which of the candidate links of a packet sends it.

A less preferred link gives way as many times as links stand before it. On a runtime
that polls its tasks first in, first out, that is enough for each of these links that
could send by then, and too little for one that becomes able to send in the meantime. -/

set_option autoImplicit false

namespace Workbench.Network

open Workbench.Library

/-- The copy that a task gives way with. -/
def QueueTask.yielded? : QueueTask → Option OutgoingPacket
  | .yielding k => some k
  | _ => none

theorem QueueTask.yielded?_eq_some {task : QueueTask} {k : OutgoingPacket} :
    task.yielded? = some k ↔ task = .yielding k := by
  cases task <;> simp [yielded?]

/-- Those whom a change of status has not told about it wait for its opposite. -/
def Switch.Notifies (this : Switch) : Prop :=
  ∀ notifier, this.completed notifier = false → this.status = .down notifier

theorem Switch.Notifies.new : Switch.new.Notifies := fun notifier waits => by
  simp [completed, Switch.new] at waits

theorem Switch.Notifies.update {this : Switch} (notifies : this.Notifies) (update : UpdateStatus) :
    (this.update update).Notifies := by
  unfold Switch.update
  split
  · exact notifies
  · exact notifies
  · next up =>
      intro notifier waits
      rw [completed, List.getD_eq_getElem?_getD, List.getElem?_append] at waits
      split at waits
      · rw [← List.getD_eq_getElem?_getD] at waits
        cases up.symm.trans (notifies notifier waits)
      · next beyond =>
          have new : notifier - this.channels.length = 0 := by
            rcases index : notifier - this.channels.length with _ | more
            · rfl
            · simp [index] at waits
          rw [show notifier = this.channels.length by omega]
  · next upTx down =>
      intro notifier waits
      by_cases told : notifier = upTx
      · rw [told, completed, List.getD_eq_getElem?_getD, List.getElem?_set_self'] at waits
        cases found : this.channels[upTx]? <;> simp [found] at waits
      · rw [completed, List.getD_eq_getElem?_getD, List.getElem?_set_ne (Ne.symm told),
          ← List.getD_eq_getElem?_getD] at waits
        cases down.symm.trans (notifies notifier waits)
        exact absurd rfl told

namespace State

variable {net : InMemoryNetwork} {s s' t : State} {l m : LinkId} {k : OutgoingPacket}

/-! The task of a link goes on as soon as what it waits for is there. -/

/-- The task of a link is told when the link comes up, and does not sleep longer than
until the pacer has room. -/
structure Prompt (s : State) (l : LinkId) : Prop where
  notifies : (s.links l).status.Notifies
  sleeping : ∀ k deadline, (s.links l).task = .sleeping k deadline → ∀ time, s.now ≤ time →
    ((s.links l).pacer.canSend time k.data.size).1 = true → deadline ≤ time

/-- A run of the task of a link does not leave it asleep for too long. -/
def Resumed.Rouses (l : LinkId) : Resumed → Prop
  | .waits t => ∀ k deadline, (t.links l).task = .sleeping k deadline → ∀ time, t.now ≤ time →
      ((t.links l).pacer.canSend time k.data.size).1 = true → deadline ≤ time
  | _ => True

theorem setTask_rouses (s : State) {task : QueueTask} (awake : ∀ k deadline, task ≠ .sleeping k deadline) :
    (Resumed.waits (s.setTask l task)).Rouses l := by
  intro k deadline sleeps
  rw [setTask, modifyLink_self] at sleeps
  exact absurd sleeps (awake k deadline)

theorem yieldToPreferred_rouses (s : State) (l : LinkId) (k : OutgoingPacket) :
    (s.yieldToPreferred l k).Rouses l := by
  unfold yieldToPreferred
  split
  · trivial
  · dsimp only
    split
    · exact setTask_rouses s nofun
    · trivial

theorem leaveSleep_rouses (s : State) (l : LinkId) (k : OutgoingPacket) :
    (s.leaveSleep l k).Rouses l :=
  yieldToPreferred_rouses (s.modifyLink l ({ · with permit := true })) l k

theorem recheckLink_rouses (s : State) (l : LinkId) (k : OutgoingPacket) :
    (s.recheckLink l k).Rouses l := by
  unfold recheckLink
  split
  · exact leaveSleep_rouses s l k
  · exact setTask_rouses s nofun

theorem waitForNode_rouses (s : State) (l : LinkId) (k : OutgoingPacket) :
    (s.waitForNode l k).Rouses l := by
  unfold waitForNode
  split
  · exact recheckLink_rouses s l k
  · exact setTask_rouses s nofun

theorem waitForLink_rouses (s : State) (l : LinkId) (k : OutgoingPacket) :
    (s.waitForLink l k).Rouses l := by
  unfold waitForLink
  split
  · exact waitForNode_rouses s l k
  · exact setTask_rouses s nofun

theorem startSleep_rouses (net : InMemoryNetwork) (s : State) (l : LinkId) (k : OutgoingPacket) :
    (s.startSleep net l k).Rouses l := by
  unfold startSleep
  split
  · trivial
  · have before {time : Nat} := @PacketPacer.canSend_before (s.links l).pacer s.now k.data.size time
    generalize (s.links l).pacer.durationUntilCanSend s.now k.data.size = asked at before
    obtain ⟨duration, pacer⟩ := asked
    intro k' deadline sleeps time later room
    rw [modifyLink_self] at sleeps room
    obtain ⟨rfl, rfl⟩ := QueueTask.sleeping.inj sleeps
    exact before later room

theorem sleepUntilReadyToSend_rouses (net : InMemoryNetwork) (s : State) (l : LinkId)
    (k : OutgoingPacket) : (s.sleepUntilReadyToSend net l k).Rouses l := by
  unfold sleepUntilReadyToSend
  split
  · dsimp only
    split
    · exact startSleep_rouses net _ l k
    · exact setTask_rouses _ nofun
  · trivial

theorem resume_rouses (net : InMemoryNetwork) (s : State) (l : LinkId) :
    (s.resume net l).Rouses l := by
  unfold resume
  split
  · trivial
  · unfold takeOutgoing
    split
    · trivial
    dsimp only
    split
    · trivial
    · exact yieldToPreferred_rouses _ l _
    · exact sleepUntilReadyToSend_rouses net _ l _
  · split
    · exact startSleep_rouses net s l _
    · trivial
  · split
    · exact leaveSleep_rouses s l _
    split
    · exact waitForLink_rouses s l _
    · trivial
  · split
    · exact leaveSleep_rouses s l _
    split
    · exact waitForNode_rouses s l _
    · trivial
  · split
    · exact leaveSleep_rouses s l _
    split
    · exact recheckLink_rouses s l _
    · trivial
  · exact yieldToPreferred_rouses s l _

theorem Prompt.initial (net : InMemoryNetwork) (l : LinkId) : Prompt (State.initial net) l :=
  ⟨Switch.Notifies.new, nofun⟩

theorem Prompt.pollLink (prompt : Prompt s l) (taken : s.pollLink net l = some s') : Prompt s' l := by
  have rouses := resume_rouses net s l
  have works {t : State} := @resume_works net s t l
  unfold State.pollLink at taken
  split at taken
  · cases taken
  · next t resumed =>
      obtain rfl := Option.some.inj taken
      rw [resumed] at rouses works
      exact ⟨(works rfl).status ▸ prompt.notifies, rouses⟩
  · next t k resumed =>
      obtain rfl := Option.some.inj taken
      have resumes := resume_resumes net s l
      rw [resumed] at resumes works
      cases resumes with
      | ready takes =>
          have status : (t.links l).status.Notifies := (works rfl).status ▸ prompt.notifies
          rcases handle_link net t l k with ⟨pacer, inTransit, same⟩ | ended
          · exact ⟨by rwa [same], by rw [same, takes.idle]; nofun⟩
          · exact ⟨by rwa [ended], by rw [ended]; nofun⟩
  · next t resumed =>
      obtain rfl := Option.some.inj taken
      rw [resumed] at works
      refine ⟨?_, by rw [endQueueTask_self]; nofun⟩
      rw [endQueueTask_self]
      exact (works rfl).status ▸ prompt.notifies

theorem Prompt.step {action : Action} (prompt : Prompt s l) (taken : s.step net action = some s') :
    Prompt s' l := by
  by_cases own : action = .pollLink l
  · subst own
    simp only [State.step] at taken
    split at taken
    · cases taken
    · exact prompt.pollLink taken
  have kept := step_taskKept taken own
  refine ⟨?_, fun k deadline sleeps time later room => ?_⟩
  · by_cases eventful : ∃ e, action = .linkEvent e
    · obtain ⟨e, rfl⟩ := eventful
      refine Option.some.inj taken ▸ processLinkEvent_holds (·.status.Notifies) (fun _ _ => id)
        (fun link now status notifies => ?_) net e l prompt.notifies
      exact notifies.update status
    by_cases polled : ∃ l', action = .pollLink l'
    · obtain ⟨l', rfl⟩ := polled
      simp only [State.step] at taken
      split at taken
      · cases taken
      rw [(pollLink_linkSame taken fun same => own (same ▸ rfl)).link]
      exact prompt.notifies
    · have calm := step_calm taken (fun l' same => polled ⟨l', same⟩) fun e same => eventful ⟨e, same⟩
      rw [calm.idles.status]
      exact prompt.notifies
  · rw [kept.task] at sleeps
    rw [kept.pacer] at room
    exact prompt.sleeping k deadline sleeps time (kept.now.trans later) room

/-! What a link needs to send a packet, and its task to know of it. -/

/-- A link is up and has room for a packet, and no unhandled packet is before it in the
queue of the link. -/
structure Available (net : InMemoryNetwork) (s : State) (l : LinkId) (k : OutgoingPacket) : Prop where
  up : (s.links l).isDown = false
  first : ∀ k' ∈ (s.links l).copies.takeWhile (·.handled ≠ k.handled), s.handled k'.handled = true
  bandwidth : (net.links l).bandwidthBps ≠ 0
  room : ((s.links l).pacer.canSend s.now k.data.size).1 = true

instance (net : InMemoryNetwork) (s : State) (l : LinkId) (k : OutgoingPacket) :
    Decidable (Available net s l k) :=
  decidable_of_iff
    ((s.links l).isDown = false ∧
      (∀ k' ∈ (s.links l).copies.takeWhile (·.handled ≠ k.handled), s.handled k'.handled = true) ∧
      (net.links l).bandwidthBps ≠ 0 ∧ ((s.links l).pacer.canSend s.now k.data.size).1 = true)
    ⟨fun ⟨up, first, bandwidth, room⟩ => ⟨up, first, bandwidth, room⟩,
      fun ⟨up, first, bandwidth, room⟩ => ⟨up, first, bandwidth, room⟩⟩

/-- The task of a link waits for the node of an unhandled packet to come up. -/
def awaitsNode (s : State) (l : LinkId) : Bool :=
  match (s.links l).task with
  | .waitingForNode k notifier =>
    !s.handled k.handled && !(s.nodes k.srcNode).status.completed notifier
  | _ => false

/-- The task of a link has a copy of a packet, and does not wait for its node. -/
structure Attends (s : State) (l : LinkId) (k : OutgoingPacket) : Prop where
  alive : (s.links l).task ≠ .panicked
  copy : ∃ k' ∈ (s.links l).copies, k'.handled = k.handled
  node : s.awaitsNode l = false

instance (s : State) (l : LinkId) (k : OutgoingPacket) : Decidable (Attends s l k) :=
  decidable_of_iff ((s.links l).task ≠ .panicked ∧
      (∃ k' ∈ (s.links l).copies, k'.handled = k.handled) ∧ s.awaitsNode l = false)
    ⟨fun ⟨alive, copy, node⟩ => ⟨alive, copy, node⟩, fun ⟨alive, copy, node⟩ => ⟨alive, copy, node⟩⟩

/-- A link could send a packet, and its task will find that out. -/
def Contends (net : InMemoryNetwork) (s : State) (l : LinkId) (k : OutgoingPacket) : Prop :=
  Available net s l k ∧ Attends s l k

instance (net : InMemoryNetwork) (s : State) (l : LinkId) (k : OutgoingPacket) :
    Decidable (Contends net s l k) :=
  inferInstanceAs (Decidable (_ ∧ _))

theorem copies_head {this : LinkState} (holds : this.task.packet? = some k) :
    this.copies.head? = some k := by
  rw [LinkState.copies, holds]
  rfl

/-- Where a link has no unhandled packet before one, that one is the next it works on. -/
theorem Available.of_head {k' : OutgoingPacket} (available : Available net s l k)
    (head : (s.links l).copies.head? = some k') (unhandled : s.handled k'.handled = false) :
    k'.handled = k.handled := by
  by_contra other
  obtain ⟨rest, copies⟩ := List.head?_eq_some_iff.mp head
  have before : k' ∈ (s.links l).copies.takeWhile (·.handled ≠ k.handled) := by
    rw [copies, List.takeWhile_cons_of_pos (by simpa using other)]
    exact List.mem_cons_self
  rw [available.first k' before] at unhandled
  cases unhandled

/-- All copies of a packet have its data. -/
theorem Competing.data_eq {k' : OutgoingPacket} (competing : s.Competing net)
    (first : k ∈ (s.links l).copies) (second : k' ∈ (s.links m).copies)
    (flag : k'.handled = k.handled) : k'.data = k.data := by
  obtain ⟨d, found, copy⟩ := competing.copies l k first
  obtain ⟨d', found', copy'⟩ := competing.copies m k' second
  obtain rfl := Option.some.inj (found.symm.trans (flag ▸ found'))
  exact copy'.2.2.1.trans copy.2.2.1.symm

/-- The task of a link that contends for a packet can go on. -/
theorem Contends.queueReady (contends : Contends net s m k) (member : k ∈ (s.links l).copies)
    (competing : s.Competing net) (prompt : Prompt s m) (free : PermitFree s m) :
    s.queueReady m = true := by
  obtain ⟨available, alive, ⟨k', inside, flag⟩, node⟩ := contends
  unfold State.queueReady
  cases task : (s.links m).task with
  | panicked => exact absurd task alive
  | idle =>
      rw [LinkState.copies, task] at inside
      have some : s.outgoing m ≠ [] := List.ne_nil_of_mem inside
      simpa using some
  | acquiring held => exact absurd task (free.acquired held)
  | sleeping held deadline =>
      dsimp only
      rw [Bool.or_eq_true, decide_eq_true_eq, or_iff_not_imp_left, Bool.not_eq_true]
      intro unhandled
      have head : (s.links m).copies.head? = some held := copies_head (by rw [task]; rfl)
      have same := available.of_head head unhandled
      have data := competing.data_eq member (List.mem_of_mem_head? head) same
      exact prompt.sleeping held deadline task s.now (le_refl _) (data ▸ available.room)
  | waitingForLink held notifier =>
      dsimp only
      rw [Bool.or_eq_true, or_iff_not_imp_left]
      intro _
      by_contra waits
      have down := prompt.notifies notifier (Bool.not_eq_true _ ▸ waits)
      have up := available.up
      simp [LinkState.isDown, Switch.isDown, down] at up
  | waitingForNode held notifier =>
      rw [awaitsNode, task] at node
      dsimp only at node ⊢
      rwa [← Bool.not_or, Bool.not_eq_false'] at node
  | yielding held => rfl

/-! How often a link has yet to give way. -/

/-- The candidate links that a link has yet to give a chance, and those after them. -/
def stillListed (s : State) (l : LinkId) (i : Nat) (links : List LinkId) : List LinkId :=
  match (s.links l).task.yielded? with
  | some k => if k.handled = i then k.preferredLinks else links
  | none => links

/-- How many turns the task of a link needs to send a packet. -/
def turnsLeft (s : State) (l : LinkId) (i : Nat) (links : List LinkId) : Nat :=
  (s.stillListed l i links).idxOf l + 1

theorem turnsLeft_congr (task : (s'.links l).task = (s.links l).task) (i : Nat) (links : List LinkId) :
    s'.turnsLeft l i links = s.turnsLeft l i links := by
  rw [turnsLeft, turnsLeft, stillListed, stillListed, task]

theorem turnsLeft_of_yielding (yields : (s.links l).task = .yielding k) (links : List LinkId) :
    s.turnsLeft l k.handled links = k.preferredLinks.idxOf l + 1 := by
  rw [turnsLeft, stillListed, yields]
  simp [QueueTask.yielded?]

theorem turnsLeft_of_not_yielding {i : Nat}
    (still : ∀ k, (s.links l).task = .yielding k → k.handled ≠ i) (links : List LinkId) :
    s.turnsLeft l i links = links.idxOf l + 1 := by
  rw [turnsLeft, stillListed]
  split
  · next k yields =>
      rw [if_neg (still k (QueueTask.yielded?_eq_some.mp yields))]
  · rfl

theorem turnsLeft_of_next {d : Dispatch} (listed : Listed s l) (next : s.NextCopy l k)
    (found : s.dispatches[k.handled]? = some d) :
    s.turnsLeft l k.handled d.links = k.preferredLinks.idxOf l + 1 := by
  obtain ⟨popped, -, ⟨d', found', links⟩, whole⟩ := next.lists listed
  obtain rfl := Option.some.inj (found.symm.trans found')
  by_cases yields : ∃ k', (s.links l).task = .yielding k'
  · obtain ⟨k', yields⟩ := yields
    rcases next with holds | ⟨idle, -⟩
    · obtain rfl : k' = k := by simpa [yields, QueueTask.packet?] using holds
      exact turnsLeft_of_yielding yields d.links
    · cases yields.symm.trans idle
  · have still := not_exists.mp yields
    rw [turnsLeft_of_not_yielding fun k' yielding => absurd yielding (still k'), links, whole still,
      List.nil_append]

/-- A link needs at most as many turns as it has when it starts on a packet. -/
theorem turnsLeft_le {d : Dispatch} {i : Nat} (listed : Listed s l)
    (found : s.dispatches[i]? = some d) : s.turnsLeft l i d.links ≤ d.links.idxOf l + 1 := by
  by_cases yields : ∃ k, (s.links l).task = .yielding k ∧ k.handled = i
  · obtain ⟨k, yields, rfl⟩ := yields
    obtain ⟨popped, absent, d', found', links⟩ := listed.yielding k yields
    obtain rfl := Option.some.inj (found.symm.trans found')
    rw [turnsLeft_of_yielding yields, links, List.idxOf_append_of_notMem absent]
    omega
  · rw [turnsLeft_of_not_yielding fun k yielding same => yields ⟨k, yielding, same⟩]

theorem NextCopy.head (next : s.NextCopy l k) : (s.links l).copies.head? = some k := by
  rcases next with holds | ⟨idle, first⟩
  · exact copies_head holds
  · rw [LinkState.copies, idle]
    exact first

/-- A poll after which the task of a link gives way is one of the turns it needs. -/
theorem pollLink_yields (listed : Listed s l) (taken : s.pollLink net l = some s')
    (yields : (s'.links l).task = .yielding k) :
    ∃ k₀, s.NextCopy l k₀ ∧ k.SameCopy k₀ ∧ s.resume net l = .waits s' ∧
      s.handled k.handled = false ∧ ∀ d, s.dispatches[k.handled]? = some d →
        s.turnsLeft l k.handled d.links = s'.turnsLeft l k.handled d.links + 1 := by
  obtain ⟨-, ⟨k₀, next, waits, pops⟩ | idle | panicked⟩ := pollLink_pops taken
  · rcases pops with ⟨-, still⟩ | ⟨x, rest, first, differs, unhandled, gives⟩
    · exact absurd yields (still k)
    · obtain rfl := QueueTask.yielding.inj (gives.symm.trans yields)
      refine ⟨k₀, next, rfl, waits, unhandled, fun d found => ?_⟩
      rw [turnsLeft_of_yielding yields, turnsLeft_of_next listed next found, first,
        List.idxOf_cons_ne _ differs]
  · cases yields.symm.trans idle
  · cases yields.symm.trans panicked

/-- A poll of a link that contends for a packet is one of the turns it needs, or leaves
its task with others to work on first. -/
theorem Available.pollLink {d : Dispatch} (available : Available net s l k) (listed : Listed s l)
    (found : s.dispatches[k.handled]? = some d) (taken : s.pollLink net l = some s')
    (unhandled : s'.handled k.handled = false) :
    (∃ k', (s'.links l).task = .yielding k' ∧
        s.turnsLeft l k.handled d.links = s'.turnsLeft l k.handled d.links + 1) ∨
      (∀ k', (s'.links l).task ≠ .yielding k') ∧
        s'.turnsLeft l k.handled d.links = s.turnsLeft l k.handled d.links := by
  by_cases yields : ∃ k', (s'.links l).task = .yielding k'
  · obtain ⟨k', yields⟩ := yields
    obtain ⟨k₀, next, same, -, open', turns⟩ := pollLink_yields listed taken yields
    have flag := same.fields.2.2.2.2
    have this := available.of_head next.head (flag ▸ open')
    rw [flag.trans this] at turns
    exact .inl ⟨k', yields, turns d found⟩
  · have still := not_exists.mp yields
    refine .inr ⟨still, ?_⟩
    rw [turnsLeft_of_not_yielding fun k' yielding => absurd yielding (still k'),
      turnsLeft_of_not_yielding fun k₁ yielding same => ?_]
    -- A task that gives way with the packet and stops to do so handles it.
    unfold State.pollLink at taken
    rcases @resume_yielding net s l k₁ yielding with ⟨t, k', resumed, gives⟩ | ⟨t, k', resumed, copy⟩
    · rw [resumed] at taken
      obtain rfl := Option.some.inj taken
      exact still k' gives
    · rw [resumed] at taken
      obtain rfl := Option.some.inj taken
      have flag : k'.handled = k.handled := copy.fields.2.2.2.2.trans same
      have works := resume_works (congrArg Resumed.state? resumed)
      rw [← flag, ← works.dispatches] at found
      rw [← flag, handle_handled found] at unhandled
      cases unhandled

theorem Contends.same {k' : OutgoingPacket} (contends : Contends net s l k) (same : k'.SameCopy k) :
    Contends net s l k' := by
  obtain ⟨-, -, data, -, flag⟩ := same.fields
  obtain ⟨⟨up, first, bandwidth, room⟩, alive, copy, node⟩ := contends
  exact ⟨⟨up, flag ▸ first, bandwidth, data ▸ room⟩, alive, flag ▸ copy, node⟩

end State

/-- The candidate links that are preferred to a link. -/
def Dispatch.preferredTo (d : Dispatch) (l : LinkId) : List LinkId := d.links.takeWhile (· ≠ l)

theorem Dispatch.mem_preferredTo {d : Dispatch} {l m : LinkId} (preferred : m ∈ d.preferredTo l) :
    m ∈ d.links ∧ m ≠ l := by
  refine ⟨List.takeWhile_subset _ preferred, ?_⟩
  simpa using List.mem_takeWhile_imp preferred

namespace State

/-- What holds of every link that is preferred to one that gives way with an unhandled packet. -/
def Contested (net : InMemoryNetwork) (s : State)
    (Holds : LinkId → OutgoingPacket → Dispatch → LinkId → Prop) : Prop :=
  ∀ l ∈ net.linkIds, ∀ k ∈ (s.links l).task.yielded?, s.handled k.handled = false →
    ∀ d ∈ s.dispatches[k.handled]?, ∀ m ∈ d.preferredTo l, Holds l k d m

instance (net : InMemoryNetwork) (s : State) (Holds : LinkId → OutgoingPacket → Dispatch → LinkId → Prop)
    [∀ l k d m, Decidable (Holds l k d m)] : Decidable (Contested net s Holds) :=
  inferInstanceAs (Decidable (∀ l ∈ net.linkIds, ∀ k ∈ (s.links l).task.yielded?,
    s.handled k.handled = false → ∀ d ∈ s.dispatches[k.handled]?, ∀ m ∈ d.preferredTo l, Holds l k d m))

/-- No link sends a packet while one that is preferred to it could. -/
def CheapestSends (net : InMemoryNetwork) (s : State) (action : Action) : Prop :=
  ∀ call ∈ s.sendCall net action, ∀ d ∈ s.dispatches[call.packet.handled]?,
    ∀ m ∈ d.preferredTo call.link, ¬ Available net s m call.packet

instance (net : InMemoryNetwork) (s : State) (action : Action) : Decidable (CheapestSends net s action) :=
  inferInstanceAs (Decidable (∀ call ∈ s.sendCall net action, ∀ d ∈ s.dispatches[call.packet.handled]?,
    ∀ m ∈ d.preferredTo call.link, ¬ Available net s m call.packet))

end State

namespace Scheduled

open State

variable {net : InMemoryNetwork} {this this' : Scheduled} {turn : Turn} {l m : LinkId}
  {k : OutgoingPacket} {d : Dispatch}

/-- A link gets to send a packet before another one does. -/
def Leads (this : Scheduled) (k : OutgoingPacket) (d : Dispatch) (m l : LinkId) : Prop :=
  Ahead this.ready (this.state.turnsLeft m k.handled d.links)
    (this.state.turnsLeft l k.handled d.links) (.linkQueue m) (.linkQueue l)

instance (this : Scheduled) (k : OutgoingPacket) (d : Dispatch) (m l : LinkId) :
    Decidable (this.Leads k d m l) :=
  decidable_of_iff (_ ∧ _)
    ⟨fun ⟨queued, first⟩ => Ahead.mk queued first, fun ⟨queued, first⟩ => ⟨queued, first⟩⟩

/-- The links that contend for a packet get to send it before those that give way to them. -/
def Race (net : InMemoryNetwork) (this : Scheduled) : Prop :=
  Contested net this.state fun l k d m => Contends net this.state m k → this.Leads k d m l

/-- A step after which a link contends for a packet that it did not contend for gets it
ahead of the links that give way to it; and no link that could send a packet is missing
as one that has given way to it gets to its turn. -/
structure Timely (net : InMemoryNetwork) (this : Scheduled) (turn : Turn) : Prop where
  arrival : ∀ this' ∈ step net this turn, Contested net this'.state fun l k d m =>
    Contends net this'.state m k → ¬ Contends net this.state m k → this'.Leads k d m l
  attention : Contested net this.state fun l k _ m => turn.action = .pollLink l →
    State.turn l k = true → this.state.clearedFromBuffer k = false →
      Available net this.state m k → Attends this.state m k

instance (net : InMemoryNetwork) (this : Scheduled) (turn : Turn) : Decidable (Timely net this turn) :=
  decidable_of_iff (_ ∧ _) ⟨fun ⟨arrival, attention⟩ => Timely.mk arrival attention,
    fun ⟨arrival, attention⟩ => ⟨arrival, attention⟩⟩

/-- What holds of a network on its runtime in every run. -/
structure Sound (net : InMemoryNetwork) (this : Scheduled) : Prop where
  competing : this.state.Competing net
  listed : ∀ l, Listed this.state l
  linked : Linked net this.state
  prompt : ∀ l, Prompt this.state l
  free : ∀ l, PermitFree this.state l
  queued : Queued net this

theorem Sound.initial (distinct : net.linkIds.Nodup) : Sound net (initial net) where
  competing := .initial
  listed := Listed.initial net
  linked := nofun
  prompt := Prompt.initial net
  free _ := ⟨nofun, fun _ => rfl⟩
  queued := .initial distinct

theorem Sound.step {spec : NetworkSpec} (built : net.Built spec) (sound : Sound net this)
    (taken : step net this turn = some this') : Sound net this' := by
  obtain ⟨stepped, -⟩ := step_requeues taken
  exact ⟨sound.competing.step stepped, fun l => (sound.listed l).step stepped,
    sound.linked.step built stepped, fun l => (sound.prompt l).step stepped,
    fun l => step_permitFree (sound.free l) stepped, sound.queued.step taken⟩

theorem Sound.known (sound : Sound net this) (found : this.state.dispatches[k.handled]? = some d)
    (preferred : m ∈ d.preferredTo l) : Task.linkQueue m ∈ net.tasks := by
  have known := sound.linked d (List.mem_of_getElem? found) m (Dispatch.mem_preferredTo preferred).1
  simp [InMemoryNetwork.tasks, known]

/-- The task of a link that contends for a packet is queued. -/
theorem Sound.queued_of_contends (sound : Sound net this)
    (found : this.state.dispatches[k.handled]? = some d) (preferred : m ∈ d.preferredTo l)
    (member : k ∈ (this.state.links l).copies) (contends : Contends net this.state m k) :
    Task.linkQueue m ∈ this.ready :=
  sound.queued.runnable _ (sound.known found preferred)
    (contends.queueReady member sound.competing (sound.prompt m) (sound.free m))

/-- A turn of a link that gives way keeps those that contend ahead of it. -/
theorem Race.gives {woken rest : List Task} (race : Race net this) (sound : Sound net this)
    (known : l ∈ net.linkIds) (taken : this.state.pollLink net l = some this'.state)
    (first : this.ready = .linkQueue l :: rest) (ready : this'.ready = rest ++ woken)
    (yields : (this'.state.links l).task = .yielding k)
    (found : this.state.dispatches[k.handled]? = some d) (preferred : m ∈ d.preferredTo l)
    (contends : Contends net this.state m k) : this'.Leads k d m l := by
  obtain ⟨member, differs⟩ := Dispatch.mem_preferredTo preferred
  obtain ⟨k₀, next, same, -, unhandled, turns⟩ := pollLink_yields (sound.listed l) taken yields
  have flag : k₀.handled = k.handled := same.fields.2.2.2.2.symm
  have contends₀ : Contends net this.state m k₀ := contends.same same.symm
  have found₀ : this.state.dispatches[k₀.handled]? = some d := flag ▸ found
  have link := (pollLink_linkSame taken differs).link
  have absent : Task.linkQueue l ∉ rest := (List.nodup_cons.mp (first ▸ sound.queued.nodup)).1
  unfold Leads
  rw [ready, turnsLeft_congr (congrArg LinkState.task link)]
  by_cases before : (this.state.links l).task = .yielding k₀
  · have leads := race l known k₀ (QueueTask.yielded?_eq_some.mpr before) (flag ▸ unhandled) d found₀ m
      preferred contends₀
    rw [Leads, flag, turns d found, first] at leads
    exact leads.behind (by simpa using differs.symm) absent woken
  · have queued := sound.queued_of_contends found₀ preferred (List.mem_of_mem_head? next.head) contends₀
    rw [first] at queued
    have still (k₁ : OutgoingPacket) (yielding : (this.state.links l).task = .yielding k₁) :
        k₁.handled ≠ k.handled := by
      rcases next with holds | ⟨idle, -⟩
      · rw [yielding] at holds
        exact absurd (Option.some.inj holds ▸ yielding) before
      · cases yielding.symm.trans idle
    have fewer := turns d found
    rw [turnsLeft_of_not_yielding still] at fewer
    have earlier := idxOf_lt_of_mem_takeWhile preferred
    have most := turnsLeft_le (sound.listed m) found
    exact .enter ((List.mem_cons.mp queued).resolve_left (by simpa using differs)) absent
      (by omega) woken

/-- A turn of a link that contends keeps it ahead of those that give way to it. -/
theorem Leads.own {queued : List Task} (leads : this.Leads k d m l) (sound : Sound net this')
    (differs : m ≠ l) (polled : turn.action = .pollLink m)
    (requeues : Requeues net this turn this'.state queued) (ready : this'.ready = queued ++ turn.woken)
    (known : Task.linkQueue m ∈ net.tasks) (same : this'.state.turnsLeft l k.handled d.links =
      this.state.turnsLeft l k.handled d.links) (can : this'.state.queueReady m = true)
    (took : (∃ k', (this'.state.links m).task = .yielding k') ∧
        this.state.turnsLeft m k.handled d.links = this'.state.turnsLeft m k.handled d.links + 1 ∨
      (∀ k', (this'.state.links m).task ≠ .yielding k') ∧
        this'.state.turnsLeft m k.handled d.links = this.state.turnsLeft m k.handled d.links) :
    this'.Leads k d m l := by
  have fewer := Ahead.le leads
  unfold Leads
  rw [same]
  rcases took with ⟨-, turns⟩ | ⟨still, turns⟩
  · exact .of_lt (sound.queued.runnable _ known can) (by omega)
  · rw [ready]
    have tasked : turn.action.task? = some (.linkQueue m) := by rw [polled]; rfl
    cases requeues with
    | outside untasked => cases untasked.symm.trans tasked
    | goesOn tasked' first _ _ =>
        obtain rfl := Option.some.inj (tasked.symm.trans tasked')
        exact .front (turns ▸ fewer) (by simpa using differs) _
    | suspends tasked' first suspended =>
        obtain rfl := Option.some.inj (tasked.symm.trans tasked')
        have gives := suspended can
        unfold gaveWay at gives
        dsimp only at gives
        split at gives
        · next k' yielding => exact absurd yielding (still k')
        · cases gives

/-- The turn of a third task, or a step of none, keeps the order of two links. -/
theorem Leads.other {queued : List Task} (leads : this.Leads k d m l)
    (requeues : Requeues net this turn this'.state queued) (ready : this'.ready = queued ++ turn.woken)
    (first : turn.action ≠ .pollLink m) (second : turn.action ≠ .pollLink l)
    (taken : this.state.step net turn.action = some this'.state) : this'.Leads k d m l := by
  have unpolled {l : LinkId} {task : Task} (tasked : turn.action.task? = some task)
      (other : turn.action ≠ .pollLink l) : task ≠ .linkQueue l := by
    rintro rfl
    cases action : turn.action <;> rw [action] at tasked other <;> cases tasked
    exact other rfl
  unfold Leads at leads ⊢
  rw [ready, turnsLeft_congr (step_taskKept taken first).task, turnsLeft_congr (step_taskKept taken second).task]
  cases requeues with
  | outside _ => exact leads.append _
  | goesOn _ queue _ _ => exact queue ▸ leads.append _
  | suspends tasked queue _ =>
      rw [queue] at leads
      exact (leads.pop (unpolled tasked first) (unpolled tasked second)).append _

theorem pollLink_of_step {s s' : State} (taken : s.step net (.pollLink l) = some s') :
    l ∈ net.linkIds ∧ s.pollLink net l = some s' := by
  simp only [State.step] at taken
  split at taken
  · cases taken
  · next known => exact ⟨not_not.mp known, taken⟩

/-- A packet that a link gives way with was dispatched before the step, and unhandled. -/
theorem Sound.before {s' : State} (sound : Sound net this)
    (stepped : this.state.step net turn.action = some s')
    (yields : (this.state.links l).task = .yielding k) (unhandled : s'.handled k.handled = false)
    (found : s'.dispatches[k.handled]? = some d) : this.state.handled k.handled = false ∧
      ∃ d₀, this.state.dispatches[k.handled]? = some d₀ ∧ d₀.links = d.links := by
  constructor
  · by_contra handled
    rw [step_handled stepped (Bool.not_eq_false _ ▸ handled)] at unhandled
    cases unhandled
  · obtain ⟨popped, -, d₀, found₀, -⟩ := (sound.listed l).yielding k yields
    obtain ⟨d', found', same⟩ := step_lookup stepped _ d₀ found₀
    obtain rfl := Option.some.inj (found.symm.trans found')
    exact ⟨d₀, found₀, congrArg Prod.snd same.symm⟩

theorem Race.step {spec : NetworkSpec} (built : net.Built spec) (race : Race net this)
    (sound : Sound net this) (timely : Timely net this turn) (taken : step net this turn = some this') :
    Race net this' := by
  intro l known k yields unhandled d found m preferred contends
  by_cases before : Contends net this.state m k
  swap
  · exact timely.arrival this' taken l known k yields unhandled d found m preferred contends before
  have sound' := sound.step built taken
  obtain ⟨stepped, queued, requeues, ready, -, -⟩ := step_requeues taken
  rw [Option.mem_def, QueueTask.yielded?_eq_some] at yields
  have member : k ∈ (this'.state.links l).copies :=
    List.mem_of_mem_head? (copies_head (by rw [yields]; rfl))
  by_cases own : turn.action = .pollLink l
  · rw [own] at stepped
    obtain ⟨-, polled⟩ := pollLink_of_step stepped
    obtain ⟨k₀, next, same, waits, -, -⟩ := pollLink_yields (sound.listed l) polled yields
    have works := resume_works (congrArg Resumed.state? waits)
    have found₀ : this.state.dispatches[k.handled]? = some d := works.dispatches ▸ found
    have tasked : turn.action.task? = some (.linkQueue l) := by rw [own]; rfl
    cases requeues with
    | outside untasked => cases untasked.symm.trans tasked
    | goesOn tasked' first runnable busy =>
        obtain rfl := Option.some.inj (tasked.symm.trans tasked')
        simp [gaveWay, yields] at busy
    | suspends tasked' first _ =>
        obtain rfl := Option.some.inj (tasked.symm.trans tasked')
        exact race.gives sound known polled first ready yields found₀ preferred before
  · have task := (step_taskKept stepped own).task
    rw [task] at yields
    obtain ⟨open', d₀, found₀, links⟩ := sound.before stepped yields unhandled found
    have preferred₀ : m ∈ d₀.preferredTo l := by rwa [Dispatch.preferredTo, links]
    have leads := race l known k (QueueTask.yielded?_eq_some.mpr yields) open' d₀ found₀ m preferred₀ before
    unfold Leads at leads ⊢
    rw [links] at leads
    by_cases polled : turn.action = .pollLink m
    · have differs := (Dispatch.mem_preferredTo preferred).2
      rw [polled] at stepped
      have took := before.1.pollLink (sound.listed m) found₀ (pollLink_of_step stepped).2 unhandled
      rw [links] at took
      refine Leads.own leads sound' differs polled requeues ready (sound'.known found preferred)
        (turnsLeft_congr task _ _) (contends.queueReady member sound'.competing (sound'.prompt m)
          (sound'.free m)) (took.imp_left fun ⟨k', gives, turns⟩ => ⟨⟨k', gives⟩, turns⟩)
    · exact Leads.other leads requeues ready polled own stepped

theorem Race.initial (net : InMemoryNetwork) : Race net (initial net) := fun _ _ _ yields => nomatch yields

/-- A poll that sends a packet is the turn of the link, which comes after those of the
links that are preferred to it and contend. -/
theorem Race.cheapestSends (race : Race net this) (sound : Sound net this)
    (timely : Timely net this turn) (taken : Scheduled.step net this turn = some this') :
    CheapestSends net this.state turn.action := by
  intro call called d found m preferred available
  obtain ⟨l, t, k, action, known, link, same, due, pending, readies, -⟩ := sendCall_readies called
  rw [link] at preferred
  have flag := same.fields.2.2.2.2
  rw [flag] at found
  have available' : Available net this.state m k :=
    ⟨available.up, flag ▸ available.first, available.bandwidth, same.fields.2.2.1 ▸ available.room⟩
  have next : this.state.NextCopy l k := by
    cases readies with
    | atOnce idle queued => exact .inr ⟨idle, by rw [queued]; rfl⟩
    | slept task | linkUp task | nodeUp task | gaveWay task => exact .inl (by rw [task]; rfl)
  obtain ⟨popped, absent, ⟨d', found', links⟩, whole⟩ := next.lists (sound.listed l)
  obtain rfl := Option.some.inj (found.symm.trans found')
  obtain ⟨d', found', candidate, -⟩ := sound.competing.copies l k (List.mem_of_mem_head? next.head)
  obtain rfl := Option.some.inj (found.symm.trans found')
  -- The turn of the copy has come, so the link is the next one that it lists.
  obtain ⟨rest, listed⟩ : ∃ rest, k.preferredLinks = l :: rest := by
    rcases listed : k.preferredLinks with _ | ⟨x, rest⟩
    · rw [links, listed, List.append_nil] at candidate
      exact absurd candidate absent
    · obtain rfl : x = l := by simpa [State.turn, listed] using due
      exact ⟨rest, rfl⟩
  by_cases yields : (this.state.links l).task = .yielding k
  · have attends := timely.attention l known k (QueueTask.yielded?_eq_some.mpr yields) pending.1 d found m
      preferred action due pending.2 available'
    have leads := race l known k (QueueTask.yielded?_eq_some.mpr yields) pending.1 d found m preferred
      ⟨available', attends⟩
    obtain ⟨others, first⟩ := step_first taken (by rw [action]; rfl)
    rw [Leads, turnsLeft_of_next (sound.listed l) next found, listed, List.idxOf_cons_self, first] at leads
    exact leads.not_last
  · rw [whole fun k' yielding => ?_, List.nil_append, listed] at links
    · simp [Dispatch.preferredTo, links] at preferred
    · rcases next with holds | ⟨idle, -⟩
      · rw [yielding] at holds
        exact yields (Option.some.inj holds ▸ yielding)
      · cases yielding.symm.trans idle

/-- In a run whose tasks are polled first in, first out, and whose steps are timely, no
link ever sends a packet while a cheaper candidate could. -/
theorem cheapest_sends {spec : NetworkSpec} {uuids : Nat → Uuid} {packetDelay : Nat → Nat → Nat}
    {past : List (Scheduled × Turn)}
    (accepted : InMemoryNetwork.initialize spec uuids packetDelay = .ok net)
    (run : Run (step net) (initial net) past this)
    (timely : ∀ move ∈ past, Timely net move.1 move.2) :
    ∀ move ∈ past, CheapestSends net move.1.state move.2.action := by
  have built := InMemoryNetwork.initialized_built accepted
  induction run with
  | start => exact List.forall_mem_nil _
  | @next past this this' turn run taken ih =>
      have earlier : ∀ move ∈ past, Timely net move.1 move.2 :=
        fun move member => timely move (List.mem_cons_of_mem _ member)
      have last := timely _ List.mem_cons_self
      obtain ⟨sound, race⟩ := run.guarded (fun this => Sound net this ∧ Race net this) (Timely net)
        ⟨.initial (InMemoryNetwork.initialized_nodup accepted), Race.initial net⟩ earlier
        fun _ _ _ ⟨sound, race⟩ timely taken => ⟨sound.step built taken, race.step built sound timely taken⟩
      intro move member
      rcases List.mem_cons.mp member with rfl | member
      · exact race.cheapestSends sound last taken
      · exact ih earlier move member

/-- Two hosts, and two links from the first to the second. An interface of the first host
is connected to the first link, so the route over the second one is more expensive. -/
def twoRoutes : NetworkSpec where
  nodes :=
    [⟨0, 100, [⟨[⟨1, 24⟩], []⟩, ⟨[⟨3, 32⟩], [⟨⟨.v4 2, .v4 2⟩, .v4 4, 2⟩]⟩], 0, 0⟩,
      ⟨1, 100, [⟨[⟨2, 32⟩], []⟩, ⟨[⟨4, 32⟩], []⟩], 0, 0⟩]
  links := [⟨0, .v4 1, .v4 2, 10, 1000, 0, 0, 0⟩, ⟨1, .v4 3, .v4 4, 10, 1000, 0, 0, 0⟩]

def turnFirstLink (status : UpdateLinkStatus) : Action :=
  .linkEvent ⟨0, some status, none, none, none, none, none, none, none⟩

/-- While the cheaper link is down, the other one sends a packet, and sleeps with a second
one until its pacer has room. It gives way once; then the cheaper link comes up. -/
def turnsUntilUp : List Turn :=
  [⟨.pollForwarder 1 [] [], []⟩, ⟨.pollForwarder 0 [] [], []⟩, ⟨turnFirstLink .down, []⟩,
    ⟨.sendUdp 0 greeting 0, [.bufferProcessor 0]⟩, ⟨.sendUdp 0 greeting 0, []⟩,
    ⟨.processBuffer 0 [], [.linkQueue 0, .linkQueue 1]⟩, ⟨.processBuffer 0 [], []⟩,
    ⟨.pollLink 0, []⟩, ⟨.pollLink 0, []⟩, ⟨.pollLink 1, [.linkQueue 1]⟩,
    ⟨.pollLink 1, [.linkQueue 0, .forwarder 1]⟩, ⟨.pollLink 1, []⟩, ⟨.pollLink 0, []⟩,
    ⟨.pollLink 0, []⟩, ⟨.pollLink 0, []⟩, ⟨.pollForwarder 1 [] [], []⟩,
    ⟨.advance batchMaxDelay, [.linkQueue 1, .forwarder 1]⟩, ⟨.pollLink 1, [.linkQueue 1]⟩,
    ⟨turnFirstLink .up, [.linkQueue 0]⟩, ⟨.pollForwarder 1 [] [], []⟩, ⟨.pollForwarder 1 [] [], []⟩]

/-- The more expensive link sends the second packet, while the cheaper one could. -/
theorem expensive_sends : ∃ net past this call,
    InMemoryNetwork.initialize twoRoutes id (fun _ _ => batchMaxDelay) = .ok net ∧
      Run (step net) (initial net) past this ∧ past.reverse.map Prod.snd = turnsUntilUp ∧
      (step net this ⟨.pollLink 1, [.forwarder 1]⟩).isSome = true ∧
      this.state.sendCall net (.pollLink 1) = some call ∧ call.link = 1 ∧
      (this.state.dispatches[call.packet.handled]?).map (·.links) = some [0, 1] ∧
      Available net this.state 0 call.packet := by
  obtain ⟨net, accepted, runs⟩ : ∃ net,
      InMemoryNetwork.initialize twoRoutes id (fun _ _ => batchMaxDelay) = .ok net ∧
      (attains (step net) (initial net) turnsUntilUp).any (fun this =>
        (step net this ⟨.pollLink 1, [.forwarder 1]⟩).isSome &&
          (this.state.sendCall net (.pollLink 1)).any fun call => decide <| call.link = 1 ∧
            (this.state.dispatches[call.packet.handled]?).map (·.links) = some [0, 1] ∧
            Available net this.state 0 call.packet) = true := ⟨_, rfl, by decide +kernel⟩
  obtain ⟨this, reached, ends⟩ := (Option.any_eq_true _ _).mp runs
  obtain ⟨past, run, turns⟩ := Run.of_attains reached
  obtain ⟨taken, sends⟩ := Bool.and_eq_true_iff.mp ends
  obtain ⟨call, called, sent⟩ := (Option.any_eq_true _ _).mp sends
  exact ⟨net, past, this, call, accepted, run, turns, taken, called, of_decide_eq_true sent⟩

/-- Both links are up, and the more expensive one is polled first. -/
theorem cheapest_sends_twoRoutes : ∃ net past this,
    InMemoryNetwork.initialize twoRoutes id (fun _ _ => batchMaxDelay) = .ok net ∧
      Run (step net) (initial net) past this ∧ past.length = 7 ∧
      ∀ move ∈ past, CheapestSends net move.1.state move.2.action := by
  obtain ⟨net, turns, accepted, runs, timely⟩ : ∃ net turns,
      InMemoryNetwork.initialize twoRoutes id (fun _ _ => batchMaxDelay) = .ok net ∧
      (attains (step net) (initial net) turns).isSome = true ∧
      (decide (turns.length = 7) && (moves (step net) (initial net) turns).all fun move =>
        decide (Timely net move.1 move.2)) = true :=
    ⟨_, [⟨.pollForwarder 1 [] [], []⟩, ⟨.pollForwarder 0 [] [], []⟩,
      ⟨.sendUdp 0 greeting 0, [.bufferProcessor 0]⟩,
      ⟨.processBuffer 0 [], [.linkQueue 1, .linkQueue 0]⟩, ⟨.pollLink 1, [.linkQueue 1]⟩,
      ⟨.pollLink 0, [.forwarder 0]⟩, ⟨.pollLink 1, []⟩], rfl, by decide +kernel, by decide +kernel⟩
  obtain ⟨this, reached⟩ := Option.isSome_iff_exists.mp runs
  rw [Bool.and_eq_true, decide_eq_true_eq, List.all_eq_true] at timely
  have run := Run.of_moves reached
  refine ⟨net, _, this, accepted, run, ?_, cheapest_sends accepted run fun move member => ?_⟩
  · have length := congrArg List.length (moves_actions reached)
    rw [List.length_reverse, ← timely.1, ← length, List.length_map]
  · exact of_decide_eq_true (timely.2 move (List.mem_reverse.mp member))

end Scheduled

end Workbench.Network
