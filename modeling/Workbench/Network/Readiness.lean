import Workbench.Library.Machine
import Workbench.Network.Sends

/-! Whether the node and the link are up when a link sends a packet, and whether the
pacer has room for it.

The task of a link looks at its node only when it has to wait, and at the link only
before it gives way to the links preferred to it. Nothing takes the room away that
the pacer had by then, since a link has only one task. -/

set_option autoImplicit false

namespace Workbench.Network

open Workbench.Library

/-- A call of `send` that passes the checks of the pacer and of the link's status. -/
structure SendCall.Ready (net : InMemoryNetwork) (call : SendCall) : Prop where
  up : call.carrier.isDown = false
  bandwidth : (net.links call.link).bandwidthBps ≠ 0
  room : (call.carrier.pacer.canSend call.state.now call.packet.data.size).1 = true

/-- A call that is ready panics only at a packet that cannot be marked. -/
theorem SendCall.Ready.isSome_result {net : InMemoryNetwork} {call : SendCall}
    (ready : call.Ready net) : (call.result net).isSome =
      (call.packet.anomalies.mark call.packet.data).isSome := by
  have room := ready.room
  have up := ready.up
  simp only [carrier] at room up
  simp only [result, State.send, ready.bandwidth, room, up]
  cases marked : call.packet.anomalies.mark call.packet.data with
  | none => rfl
  | some data =>
      have tracked := PacketPacer.trackSend_isSome
        ((call.state.links call.link).pacer.canSend call.state.now call.packet.data.size).2
        call.state.now call.packet.data.size
      obtain ⟨pacer, sent⟩ := Option.isSome_iff_exists.mp <| tracked.trans <| by
        simpa [PacketBatch.settle_settle] using room
      rw [PacketPacer.canSend_eq] at sent
      simp [State.trackPacketInTransit, State.record, State.note, sent]

namespace State

variable {net : InMemoryNetwork} {s s' t : State} {l : LinkId} {k : OutgoingPacket}

/-- A copy that a link may act on: no link has handled it, and no buffer clear took it. -/
def Pending (s : State) (k : OutgoingPacket) : Prop :=
  s.handled k.handled = false ∧ s.clearedFromBuffer k = false

/-- A task that is ready to send calls `send` where its copy is pending. -/
theorem sendCall_of_ready {k' : OutgoingPacket} (member : l ∈ net.linkIds)
    (resumed : s.resume net l = .ready t k') (same : k'.SameCopy k) (pending : s.Pending k) :
    ∃ call, s.sendCall net (.pollLink l) = some call ∧ call.link = l ∧
      call.packet.SameCopy k ∧ call.state.nodes = s.nodes ∧
      call.carrier.isDown = (s.links l).isDown := by
  have works := resume_works (congrArg Resumed.state? resumed)
  obtain ⟨since, source, -, -, flag⟩ := same.fields
  refine ⟨_, sendCall_eq_some.mpr ⟨l, t, k', rfl, member, resumed, ?_, ?_, rfl⟩, rfl, same,
    works.nodes, ?_⟩
  · simpa only [handled, works.dispatches, flag] using pending.1
  · simpa only [clearedFromBuffer, works.nodes, source, since] using pending.2
  · simp only [SendCall.carrier, LinkState.isDown, ← works.status]
    rfl

/-- What a step finds that calls `send`: a pending copy, whose turn it is. -/
theorem sendCall_readies {action : Action} {call : SendCall}
    (called : s.sendCall net action = some call) :
    ∃ l t k, action = .pollLink l ∧ l ∈ net.linkIds ∧ call.link = l ∧
      call.packet.SameCopy k ∧ turn l k = true ∧ s.Pending k ∧ Readies net s l t k ∧
      call.state.nodes = s.nodes ∧ call.state.now = s.now ∧
      call.carrier.isDown = (s.links l).isDown ∧ call.carrier.pacer = (t.links l).pacer := by
  obtain ⟨l, t, k', rfl, member, resumed, unhandled, kept, rfl⟩ := sendCall_eq_some.mp called
  have works := resume_works (congrArg Resumed.state? resumed)
  have unhandled' : s.handled k'.handled = false := by
    simpa only [handled, works.dispatches] using unhandled
  obtain ⟨k, same, due, readies⟩ := resume_ready resumed unhandled'
  obtain ⟨since, source, -, -, flag⟩ := same.fields
  refine ⟨l, t, k, rfl, member, rfl, same, due, ⟨?_, ?_⟩, readies, works.nodes, works.now, ?_, rfl⟩
  · rwa [← flag]
  · simpa only [clearedFromBuffer, works.nodes, source, since] using kept
  · simp only [SendCall.carrier, LinkState.isDown, ← works.status]
    rfl

/-! The status of the node. -/

/-- A way to the turn of a copy on which the task does not look at the node: the link
has bandwidth at once, or the node was up again some time ago, or the task gave way. -/
inductive Shortcut (net : InMemoryNetwork) (s : State) (l : LinkId) (k : OutgoingPacket) : Prop where
  | atOnce {rest : List OutgoingPacket} (idle : (s.links l).task = .idle)
      (queued : s.outgoing l = k :: rest) (permit : (s.links l).permit = true)
      (up : (s.links l).isDown = false) (bandwidth : (net.links l).bandwidthBps ≠ 0)
      (room : ((s.links l).pacer.canSend s.now k.data.size).1 = true)
  | nodeUp {notifier : Nat} (task : (s.links l).task = .waitingForNode k notifier)
      (completed : (s.nodes k.srcNode).status.completed notifier = true)
      (up : (s.links l).isDown = false)
  | gaveWay (task : (s.links l).task = .yielding k)

theorem Shortcut.copy (shortcut : Shortcut net s l k) : k ∈ (s.links l).copies := by
  unfold LinkState.copies
  cases shortcut with
  | atOnce _ queued =>
      have queued : (s.links l).outgoingQueue.messages = _ := queued
      simp [queued]
  | nodeUp task | gaveWay task => simp [task, QueueTask.packet?]

theorem leaveSleep_of_turn (s : State) (due : turn l k = true) :
    ∃ t k', k'.SameCopy k ∧ s.leaveSleep l k = .ready t k' := by
  obtain ⟨k', same, ready⟩ := ready_of_turn (s.modifyLink l ({ · with permit := true })) due
  exact ⟨_, k', same, ready⟩

theorem takeOutgoing_atOnce {rest : List OutgoingPacket} (queued : s.outgoing l = k :: rest)
    (permit : (s.links l).permit = true) (up : (s.links l).isDown = false)
    (bandwidth : (net.links l).bandwidthBps ≠ 0)
    (room : ((s.links l).pacer.canSend s.now k.data.size).1 = true) :
    ∃ u : State, s.takeOutgoing net l = u.yieldToPreferred l k := by
  unfold takeOutgoing
  rw [show (s.links l).outgoingQueue.messages = k :: rest from queued]
  dsimp only
  rw [hasBandwidthAvailable_of (by simpa) (by simpa) bandwidth (by rw [modifyLink_self]; exact room)]
  exact ⟨_, rfl⟩

/-- A shortcut leads to the turn of its copy whatever the status of the node is. -/
theorem Shortcut.resume (shortcut : Shortcut net s l k) (due : turn l k = true)
    (unhandled : s.handled k.handled = false) :
    ∃ t k', k'.SameCopy k ∧ s.resume net l = .ready t k' := by
  cases shortcut with
  | atOnce idle queued permit up bandwidth room =>
      obtain ⟨u, taken⟩ := takeOutgoing_atOnce queued permit up bandwidth room
      obtain ⟨k', same, ready⟩ := ready_of_turn u due
      exact ⟨_, k', same, by rw [State.resume, idle, ← ready, ← taken]⟩
  | nodeUp task completed up =>
      obtain ⟨t, k', same, ready⟩ := leaveSleep_of_turn s due
      refine ⟨t, k', same, ?_⟩
      simp only [State.resume, task, unhandled, completed, recheckLink, notifierForUp_none.mpr up]
      exact ready
  | gaveWay task =>
      obtain ⟨k', same, ready⟩ := ready_of_turn s due
      exact ⟨_, k', same, by simpa only [State.resume, task] using ready⟩

/-- A step sends from a node that is up exactly where it does on the shortcuts. -/
theorem source_up_iff (s : State) (action : Action) :
    (∀ call, s.sendCall net action = some call → call.source.isDown = false) ↔
      ∀ l k, action = .pollLink l → l ∈ net.linkIds → Shortcut net s l k → turn l k = true →
        s.Pending k → (s.nodes k.srcNode).isDown = false := by
  constructor
  · rintro up l k rfl member shortcut due pending
    obtain ⟨t, k', same, resumed⟩ := shortcut.resume due pending.1
    obtain ⟨call, called, -, copy, nodes, -⟩ := sendCall_of_ready member resumed same pending
    have calls := up call called
    rwa [SendCall.source, nodes, copy.fields.2.1] at calls
  · intro shortcuts call called
    obtain ⟨l, t, k, rfl, member, -, same, due, pending, readies, nodes, -⟩ := sendCall_readies called
    rw [SendCall.source, nodes, same.fields.2.1]
    cases readies with
    | atOnce idle queued permit up bandwidth room =>
        exact shortcuts l k rfl member (.atOnce idle queued permit up bandwidth room) due pending
    | slept _ _ nodeUp => exact nodeUp
    | linkUp _ nodeUp => exact nodeUp
    | nodeUp task completed up =>
        exact shortcuts l k rfl member (.nodeUp task completed up) due pending
    | gaveWay task => exact shortcuts l k rfl member (.gaveWay task) due pending

/-! The status of the link, and its pacer. -/

/-- The pacer of a link has room for a copy from a time on. -/
def HasRoom (net : InMemoryNetwork) (s : State) (l : LinkId) (k : OutgoingPacket) (since : Nat) :
    Prop :=
  (net.links l).bandwidthBps ≠ 0 ∧
    ∀ time, since ≤ time → ((s.links l).pacer.canSend time k.data.size).1 = true

end State

/-- The copy that a task waits with once it has found out when there is room for it,
and the time from which on there is. -/
def QueueTask.roomFor? (now : Nat) : QueueTask → Option (OutgoingPacket × Nat)
  | .sleeping k deadline => some (k, deadline)
  | .waitingForLink k _ | .waitingForNode k _ | .yielding k => some (k, now)
  | _ => none

namespace State

variable {net : InMemoryNetwork} {s s' t : State} {l : LinkId} {k : OutgoingPacket}

/-- Where the task of a link waits, the pacer has room for its copy in time. -/
def Poised (net : InMemoryNetwork) (s : State) (l : LinkId) : Prop :=
  ∀ k since, (s.links l).task.roomFor? s.now = some (k, since) → HasRoom net s l k since

theorem HasRoom.later {since since' : Nat} (room : HasRoom net s l k since)
    (later : since ≤ since') : HasRoom net s l k since' :=
  ⟨room.1, fun time after => room.2 time (later.trans after)⟩

theorem HasRoom.of_canSend (bandwidth : (net.links l).bandwidthBps ≠ 0)
    (room : ((s.links l).pacer.canSend s.now k.data.size).1 = true) : HasRoom net s l k s.now :=
  ⟨bandwidth, fun _ after => PacketPacer.canSend_mono room after⟩

theorem HasRoom.same {k' : OutgoingPacket} {since : Nat} (room : HasRoom net s l k since)
    (same : k'.SameCopy k) (pacer : (t.links l).pacer = (s.links l).pacer) :
    HasRoom net t l k' since := by
  rw [HasRoom, pacer, same.fields.2.2.1]
  exact room

theorem Poised.taskKept (poised : Poised net s l) (kept : TaskKept s s' l) : Poised net s' l := by
  intro k since waits
  rw [kept.task] at waits
  have room : ∃ since', since' ≤ since ∧ HasRoom net s l k since' := by
    cases task : (s.links l).task with
    | sleeping k' deadline =>
        obtain ⟨rfl, rfl⟩ : k' = k ∧ deadline = since := by simpa [task, QueueTask.roomFor?] using waits
        exact ⟨deadline, le_refl _, poised k' deadline (by rw [task]; rfl)⟩
    | waitingForLink k' _ | waitingForNode k' _ | yielding k' =>
        obtain ⟨rfl, rfl⟩ : k' = k ∧ s'.now = since := by simpa [task, QueueTask.roomFor?] using waits
        exact ⟨s.now, kept.now, poised k' s.now (by rw [task]; rfl)⟩
    | idle | acquiring _ | panicked => simp [task, QueueTask.roomFor?] at waits
  obtain ⟨since', earlier, room⟩ := room
  exact (room.later earlier).same rfl kept.pacer

theorem Poised.of_task (none : (s.links l).task.roomFor? s.now = none) : Poised net s l := by
  intro k since waits
  rw [none] at waits
  cases waits

/-- The task goes on waiting with a copy, with the room it had. -/
structure Lingers (s t : State) (l : LinkId) (k : OutgoingPacket) : Prop where
  pacer : (t.links l).pacer = (s.links l).pacer
  task : ∃ k', k'.SameCopy k ∧ (t.links l).task.roomFor? t.now = some (k', s.now)

theorem Lingers.poised (lingers : Lingers s t l k) (room : HasRoom net s l k s.now) :
    Poised net t l := by
  obtain ⟨pacer, k', same, task⟩ := lingers
  intro k'' since waits
  obtain ⟨rfl, rfl⟩ := Prod.mk.inj (Option.some.inj (task.symm.trans waits))
  exact room.same same pacer

theorem yieldToPreferred_waits (resumed : s.yieldToPreferred l k = .waits t) :
    s.handled k.handled = false ∧ Lingers s t l k := by
  unfold yieldToPreferred at resumed
  split at resumed
  · cases resumed
  · next preferred rest some =>
      dsimp only at resumed
      split at resumed
      · next others =>
          obtain rfl := Resumed.waits.inj resumed
          refine ⟨by simpa using others.2, by simp [setTask], { k with preferredLinks := rest }, rfl, ?_⟩
          simp [setTask, QueueTask.roomFor?, modifyLink]
      · cases resumed

theorem leaveSleep_waits (resumed : s.leaveSleep l k = .waits t) :
    s.handled k.handled = false ∧ Lingers s t l k := by
  obtain ⟨unhandled, lingers⟩ := yieldToPreferred_waits resumed
  exact ⟨unhandled, by simpa using lingers.pacer, lingers.task⟩

theorem recheckLink_waits (resumed : s.recheckLink l k = .waits t) : Lingers s t l k := by
  unfold recheckLink at resumed
  split at resumed
  · exact (leaveSleep_waits resumed).2
  · obtain rfl := Resumed.waits.inj resumed
    exact ⟨by simp [setTask], k, rfl, by simp [setTask, QueueTask.roomFor?, modifyLink]⟩

theorem waitForNode_waits (resumed : s.waitForNode l k = .waits t) : Lingers s t l k := by
  unfold waitForNode at resumed
  split at resumed
  · exact recheckLink_waits resumed
  · obtain rfl := Resumed.waits.inj resumed
    exact ⟨by simp [setTask], k, rfl, by simp [setTask, QueueTask.roomFor?, modifyLink]⟩

theorem waitForLink_waits (resumed : s.waitForLink l k = .waits t) : Lingers s t l k := by
  unfold waitForLink at resumed
  split at resumed
  · exact waitForNode_waits resumed
  · obtain rfl := Resumed.waits.inj resumed
    exact ⟨by simp [setTask], k, rfl, by simp [setTask, QueueTask.roomFor?, modifyLink]⟩

theorem startSleep_poised (resumed : s.startSleep net l k = .waits t) : Poised net t l := by
  unfold startSleep at resumed
  split at resumed
  · cases resumed
  · next bandwidth =>
      have room (time : Nat) := (s.links l).pacer.canSend_after s.now k.data.size time
      generalize (s.links l).pacer.durationUntilCanSend s.now k.data.size = asked at resumed room
      obtain ⟨duration, pacer⟩ := asked
      obtain rfl := Resumed.waits.inj resumed
      intro k' since waits
      obtain ⟨rfl, rfl⟩ : k = k' ∧ s.now + duration = since := by
        simpa [QueueTask.roomFor?] using waits
      exact ⟨bandwidth, fun time after => by simpa using room time after⟩

theorem sleepUntilReadyToSend_poised (resumed : s.sleepUntilReadyToSend net l k = .waits t) :
    Poised net t l := by
  unfold sleepUntilReadyToSend at resumed
  split at resumed
  · dsimp only at resumed
    split at resumed
    · exact startSleep_poised resumed
    · obtain rfl := Resumed.waits.inj resumed
      exact .of_task (by simp [setTask, QueueTask.roomFor?])
  · cases resumed

theorem takeOutgoing_poised (resumed : s.takeOutgoing net l = .waits t) : Poised net t l := by
  unfold takeOutgoing at resumed
  split at resumed
  · cases resumed
  next k rest queued =>
  dsimp only at resumed
  split at resumed
  · cases resumed
  · next asked =>
      simp only [modifyLink_self] at asked
      obtain ⟨-, -, bandwidth, room, rfl⟩ := hasBandwidthAvailable_true asked
      refine (yieldToPreferred_waits resumed).2.poised (.of_canSend bandwidth ?_)
      rw [PacketPacer.canSend_eq] at room
      simpa [PacketBatch.settle_settle, modifyLink] using room
  · exact sleepUntilReadyToSend_poised resumed

/-- A poll of its task leaves a link poised. -/
theorem resume_poised (poised : Poised net s l) (resumed : s.resume net l = .waits t) :
    Poised net t l := by
  have gone {k : OutgoingPacket} (handled : s.handled k.handled = true)
      (resumed : s.leaveSleep l k = .waits t) : Poised net t l := by
    rw [(leaveSleep_waits resumed).1] at handled
    cases handled
  unfold resume at resumed
  split at resumed
  · cases resumed
  · exact takeOutgoing_poised resumed
  · split at resumed
    · exact startSleep_poised resumed
    · cases resumed
  · next k deadline task =>
      split at resumed
      · exact gone ‹_› resumed
      split at resumed
      · next passed =>
          have room := poised k deadline (by rw [task]; rfl)
          exact (waitForLink_waits resumed).poised (room.later passed)
      · cases resumed
  · next k notifier task =>
      split at resumed
      · exact gone ‹_› resumed
      split at resumed
      · exact (waitForNode_waits resumed).poised (poised k s.now (by rw [task]; rfl))
      · cases resumed
  · next k notifier task =>
      split at resumed
      · exact gone ‹_› resumed
      split at resumed
      · exact (recheckLink_waits resumed).poised (poised k s.now (by rw [task]; rfl))
      · cases resumed
  · next k task =>
      exact (yieldToPreferred_waits resumed).2.poised (poised k s.now (by rw [task]; rfl))

theorem handle_task (net : InMemoryNetwork) (s : State) (l : LinkId) (k : OutgoingPacket) :
    ((s.handle net l k).links l).task = (s.links l).task ∨
      ((s.handle net l k).links l).task = .panicked := by
  rcases handle_link net s l k with ⟨pacer, inTransit, same⟩ | ended
  · exact .inl (by rw [same])
  · exact .inr (by rw [ended])

theorem pollLink_poised (poised : Poised net s l) (taken : s.pollLink net l = some s') :
    Poised net s' l := by
  unfold pollLink at taken
  have resumes := resume_resumes net s l
  split at taken
  · cases taken
  · next resumed =>
      obtain rfl := Option.some.inj taken
      exact resume_poised poised resumed
  · next t k resumed =>
      obtain rfl := Option.some.inj taken
      rw [resumed] at resumes
      cases resumes with
      | ready takes =>
          refine .of_task ?_
          rcases handle_task net t l k with same | panicked
          · rw [same, takes.idle]
            rfl
          · rw [panicked]
            rfl
  · obtain rfl := Option.some.inj taken
    exact .of_task (by simp [QueueTask.roomFor?])

theorem step_poised {action : Action} (poised : Poised net s l)
    (taken : s.step net action = some s') : Poised net s' l := by
  by_cases own : action = .pollLink l
  · subst own
    simp only [step] at taken
    split at taken
    · cases taken
    · exact pollLink_poised poised taken
  · exact poised.taskKept (step_taskKept taken own)

/-- A task that gave way with a pending copy finds its link up when it is its turn. -/
def LinkUpAfterYielding (net : InMemoryNetwork) (s : State) (action : Action) : Prop :=
  ∀ l k, action = .pollLink l → l ∈ net.linkIds → (s.links l).task = .yielding k →
    turn l k = true → s.Pending k → (s.links l).isDown = false

theorem ready_iff (poised : ∀ l, Poised net s l) (action : Action) :
    (∀ call, s.sendCall net action = some call → call.Ready net) ↔
      LinkUpAfterYielding net s action := by
  constructor
  · rintro ready l k rfl member task due pending
    obtain ⟨t, k', same, resumed⟩ := (show Shortcut net s l k from .gaveWay task).resume due pending.1
    obtain ⟨call, called, -, -, -, status⟩ := sendCall_of_ready member resumed same pending
    exact status.symm.trans (ready call called).up
  · intro yielded call called
    obtain ⟨l, t, k, rfl, member, rfl, same, due, pending, readies, -, now, status, pacer⟩ :=
      sendCall_readies called
    have size : call.packet.data.size = k.data.size := by rw [same.fields.2.2.1]
    have waited {since : Nat} (kept : (t.links call.link).pacer = (s.links call.link).pacer)
        (task : (s.links call.link).task.roomFor? s.now = some (k, since)) (passed : since ≤ s.now)
        (up : (s.links call.link).isDown = false) : call.Ready net := by
      have room := poised call.link k since task
      exact ⟨status.trans up, room.1, by rw [pacer, kept, now, size]; exact room.2 s.now passed⟩
    cases readies with
    | atOnce _ _ _ up bandwidth room settled =>
        refine ⟨status.trans up, bandwidth, ?_⟩
        rw [PacketPacer.canSend_eq] at room
        simpa [pacer, settled, now, size, PacketBatch.settle_settle] using room
    | slept task passed _ up kept => exact waited kept (by rw [task]; rfl) passed up
    | linkUp task _ up kept => exact waited kept (by rw [task]; rfl) (le_refl _) up
    | nodeUp task _ up kept => exact waited kept (by rw [task]; rfl) (le_refl _) up
    | gaveWay task kept =>
        exact waited kept (by rw [task]; rfl) (le_refl _) (yielded _ k rfl member task due pending)

/-- In a run, every call of `send` passes the checks of the link's status and of the
pacer exactly where no link went down while its task gave way to other links. -/
theorem sentWhenReady_iff {past : List (State × Action)}
    (run : Run (step net) (initial net) past s) :
    (∀ move ∈ past, ∀ call, move.1.sendCall net move.2 = some call → call.Ready net) ↔
      ∀ move ∈ past, LinkUpAfterYielding net move.1 move.2 := by
  have poised := run.guarded_visited (fun s => ∀ l, Poised net s l) (fun _ _ => True)
    (fun _ => .of_task rfl) (fun _ _ => trivial)
    fun _ _ _ poised _ taken l => step_poised (poised l) taken
  refine forall₂_congr fun move member => ready_iff (poised move.1 ?_) move.2
  exact List.mem_cons_of_mem _ (List.mem_map_of_mem member)

theorem sentWhenReady_iff_twoHosts : ∃ past s,
    Run (step (twoHosts (some 1))) (initial (twoHosts (some 1))) past s ∧ past.length = 3 ∧
      ((∀ move ∈ past, ∀ call, move.1.sendCall (twoHosts (some 1)) move.2 = some call →
          call.Ready (twoHosts (some 1))) ↔
        ∀ move ∈ past, LinkUpAfterYielding (twoHosts (some 1)) move.1 move.2) := by
  obtain ⟨past, run, actions⟩ := Run.of_isSome (step (twoHosts (some 1))) (initial (twoHosts (some 1)))
    [.sendUdp 0 greeting 0, .processBuffer 0 [], .pollLink 0] rfl
  exact ⟨past, _, run, by simpa using congrArg List.length actions, sentWhenReady_iff run⟩

/-- A link goes down while its task gives way to a cheaper link, and `send` panics. -/
theorem panics_after_yielding : ∃ past s call,
    Run (step (twoHosts (some 1))) (initial (twoHosts (some 1))) past s ∧
      s.sendCall (twoHosts (some 1)) (.pollLink 1) = some call ∧ call.carrier.isDown = true ∧
      call.packet.anomalies.mark call.packet.data = some call.packet.data ∧
      call.result (twoHosts (some 1)) = none := by
  obtain ⟨past, run, -⟩ := Run.of_isSome (step (twoHosts (some 1))) (initial (twoHosts (some 1)))
    [.sendUdp 0 greeting 0, .processBuffer 0 [], .pollLink 1,
      .linkEvent ⟨1, some .down, none, none, none, none, none, none, none⟩] rfl
  exact ⟨past, _, _, run, rfl, rfl, rfl, rfl⟩

end State

end Workbench.Network
