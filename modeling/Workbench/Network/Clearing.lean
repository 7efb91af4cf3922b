import Workbench.Network.Recording
import Workbench.Network.Uneventful
import Workbench.Network.Waiting

/-! Cleared packets.

A buffer clear leaves nothing but its time at the node. The links check it when
they get to a copy of a packet, so a packet that entered before may wait for long
in the outbound channel or in the queues of links: it is doomed there. -/

set_option autoImplicit false

namespace Workbench.Network

open Workbench.Library Workbench.Tracing

variable {net : InMemoryNetwork} {licence : Licence} {s s' t : State} {m m' : Moment}
  {n : NodeId} {id : Uuid} {l : LinkId} {packet : BufferedPacket}

namespace Moment

variable {before : Nat} {hand : List Held}

/-! Packets that are lost for good where they wait. -/

/-- A packet that is at most waiting, at one node and since before some time. -/
structure Doomed (net : InMemoryNetwork) (n : NodeId) (id : Uuid) (before : Nat) (m : Moment) :
    Prop where
  issued : m.state.Issued net id
  stays : ¬ m.Away id
  waits : ∀ n' packet, m.state.Waits n' packet → packet.data.id = id →
    n' = n ∧ packet.inNodeSince < before

/-- It stays so unless it is recorded to be sent. -/
theorem Doomed.effect (doomed : m.Doomed net n id before) (fresh : Function.Injective net.uuids)
    (competing : m.state.Competing net) (effect : Effect net licence m m')
    (silent : ∀ l, 0 < before → m'.state.log ≠
      m.state.log ++ [.recorded ⟨m.state.now, .packetInTransit ⟨id, n, l⟩⟩]) :
    m'.Doomed net n id before := by
  have issued (drawn : m.state.drawn ≤ m'.state.drawn) : m'.state.Issued net id := by
    obtain ⟨i, bound, same⟩ := doomed.issued
    exact ⟨i, by omega, same⟩
  cases Moves.of_effect competing effect with
  | keeps keeps =>
      refine ⟨issued keeps.drawn, fun away => doomed.stays (keeps.away id away),
        fun n' packet waits same => ?_⟩
      rcases keeps.waits n' packet waits with waited | away
      · exact doomed.waits n' packet waited same
      · exact absurd (same ▸ away) doomed.stays
  | issues drawn away waits =>
      refine ⟨issued drawn, fun gone => ?_, fun n' packet after => doomed.waits n' packet
        (waits n' packet after)⟩
      rcases away id gone with before | new
      · exact doomed.stays before
      · obtain ⟨i, bound, same⟩ := doomed.issued
        exact absurd (fresh (same.trans new)) bound.ne
  | @sends l k waited log drawn away waits =>
      refine ⟨issued drawn, fun gone => ?_, fun n' packet after => doomed.waits n' packet
        (waits n' packet after)⟩
      rcases away id gone with before | rfl
      · exact doomed.stays before
      · obtain ⟨rfl, early⟩ := doomed.waits _ _ waited rfl
        exact silent l (Nat.zero_lt_of_lt early) log

/-- What was handled and never sent is nowhere. -/
def Spent (net : InMemoryNetwork) (m : Moment) : Prop :=
  ∀ d ∈ m.state.dispatches, d.handled = true → (∀ l, (l, .sent) ∉ d.acts) →
    m.Doomed net d.node d.packet.data.id 0

theorem Spent.closed {k : OutgoingPacket} {acts : List (LinkId × Act)} (spent : m.Spent net)
    (fresh : Function.Injective net.uuids) (competing : m.state.Competing net)
    (located : Located net False m) (effect : Effect net licence m m')
    (takes : m.state.Takes t l k) (unhandled : m.state.handled k.handled = false)
    (outbound : ∀ n, (m'.state.nodes n).outbound.messages ⊆ (m.state.nodes n).outbound.messages)
    (dispatches : m'.state.dispatches = t.dispatches.modify k.handled fun d =>
      { d with handled := true, acts := d.acts ++ acts })
    (keeps : (∀ l, (l, .sent) ∉ acts) → m.Keeps m') : m'.Spent net := by
  intro d member closed unsent
  obtain ⟨j, found⟩ := List.mem_iff_getElem?.mp member
  rw [dispatches, List.getElem?_modify, takes.works.dispatches] at found
  obtain ⟨d₀, before, rfl⟩ := Option.map_eq_some_iff.mp found
  split at unsent
  · next here =>
    obtain ⟨k₀, same, copies⟩ := takes.copies
    obtain ⟨-, -, data, -, flag⟩ := same.fields
    obtain ⟨d₁, found₁, -, -, data₁, -⟩ :=
      competing.copies l k₀ (copies ▸ List.mem_cons_self)
    rw [← flag, here, before] at found₁
    obtain rfl := Option.some.inj found₁
    have id : d₀.packet.data.id = k.data.id := by rw [data, data₁]
    obtain ⟨issued, stays, -⟩ := sole_of_waits located (takes.waits competing unhandled)
    have keeps := keeps fun l member => unsent l (List.mem_append_right _ member)
    rw [if_pos here]
    refine ⟨?_, fun away => ?_, fun n' packet waits same => ?_⟩
    · obtain ⟨i, bound, drawn⟩ := issued
      exact ⟨i, bound.trans_le keeps.drawn, drawn.trans id.symm⟩
    · exact stays (id ▸ keeps.away _ away)
    · exact absurd (same.trans id)
        (not_waits_of_handled located competing takes unhandled outbound dispatches waits)
  · next elsewhere =>
    rw [if_neg elsewhere] at closed ⊢
    exact (spent d₀ (List.mem_of_getElem? before) closed unsent).effect fresh competing effect
      fun _ positive => absurd positive (Nat.lt_irrefl 0)

theorem Spent.effect (spent : m.Spent net) (fresh : Function.Injective net.uuids)
    (competing : m.state.Competing net) (located : Located net False m)
    (effect : Effect net licence m m') : m'.Spent net := by
  have same (dispatches : m'.state.dispatches = m.state.dispatches) : m'.Spent net :=
    fun d member closed unsent => (spent d (dispatches ▸ member) closed unsent).effect fresh
      competing effect fun _ positive => absurd positive (Nat.lt_irrefl 0)
  have effect' := effect
  cases effect with
  | quiet hand quiet => exact same quiet.dispatches
  | @dispatch s s' n packet rest links hand member queued some pushed =>
      intro d inside closed unsent
      rw [pushed.dispatches] at inside
      rcases List.mem_append.mp inside with old | new
      · exact (spent d old closed unsent).effect fresh competing effect'
          fun _ positive => absurd positive (Nat.lt_irrefl 0)
      · obtain rfl := List.mem_singleton.mp new
        cases closed
  | discard hand takes => exact same takes.works.dispatches
  | taskPanics l hand works => exact same works.dispatches
  | @clear s t l k hand takes unhandled cleared licensed =>
      refine spent.closed fresh competing located effect' takes unhandled (fun n => ?_)
        (List.modify_modify_eq _ _ k.handled t.dispatches) fun _ => ?_
      · rw [← takes.works.nodes]
        exact List.Subset.refl _
      · exact .same (takes.works.keeps.trans ((State.Keeps.markHandled t k).trans
          ((State.Keeps.noteAct _ k.handled l .cleared).trans (.note _ _))))
  | @send s t l k data pacer hand member takes unhandled kept up marked =>
      refine spent.closed fresh competing located effect' takes unhandled (fun n => ?_)
        (List.modify_modify_eq _ _ k.handled t.dispatches) fun unsent =>
          absurd List.mem_cons_self (unsent l)
      rw [← takes.works.nodes]
      exact State.carry_messages _ l k data pacer n
  | @sendPanics s t l k hand takes unhandled lost =>
      have dispatches : ((t.markHandled k).endQueueTask l).dispatches =
          t.dispatches.modify k.handled fun d => { d with handled := true, acts := d.acts ++ [] } := by
        simp [State.endQueueTask, State.modifyLink, State.markHandled, State.modifyDispatch]
      refine spent.closed fresh competing located effect' takes unhandled (fun n => ?_) dispatches
        fun _ => ?_
      · rw [← takes.works.nodes]
        exact List.Subset.refl _
      · exact .same (takes.works.keeps.trans ((State.Keeps.markHandled t k).trans
          (.endQueueTask _ l)))
  | enter s n data stage | refuse s n data stage => cases stage <;> exact same rfl
  | _ => exact same rfl

end Moment

namespace State

/-! The time of the last clear. -/

theorem processNodeEvent_lastBufferClear (net : InMemoryNetwork) (s : State)
    (event : NodeEventPayload) (n : NodeId) :
    ((s.processNodeEvent net event).nodes n).lastBufferClear = (s.nodes n).lastBufferClear ∨
      ∃ event', Action.nodeEvent event = .nodeEvent event' ∧ event'.nodeId = n ∧
        event'.clearBuffer = true ∧
        ((s.processNodeEvent net event).nodes n).lastBufferClear = some s.now := by
  unfold processNodeEvent
  dsimp only
  split
  · exact .inl rfl
  have updated : ClearsKept s
      (event.status.elim s fun status => s.modifyNode event.nodeId (·.updateStatus status)) := by
    intro n'
    cases event.status with
    | none => rfl
    | some status =>
        by_cases here : n' = event.nodeId
        · subst here
          simp [NodeState.updateStatus]
        · simp [modifyNode_of_ne _ _ here]
  have now : (event.status.elim s fun status =>
      s.modifyNode event.nodeId (·.updateStatus status)).now = s.now := by
    cases event.status <;> rfl
  generalize (event.status.elim s fun status =>
    s.modifyNode event.nodeId (·.updateStatus status)) = t at updated now
  split
  · next clears =>
    by_cases here : n = event.nodeId
    · refine .inr ⟨event, rfl, here.symm, clears, ?_⟩
      subst here
      simp [trackNodeEvent, record, NodeState.clearBuffer, now]
    · refine .inl (Eq.trans ?_ (updated n))
      simp [trackNodeEvent, record, modifyNode_of_ne _ _ here]
  · exact .inl (updated n)

/-- Only a clear changes the time of a node's last clear. -/
theorem step_lastBufferClear {action : Action} (taken : s.step net action = some s') (n : NodeId) :
    (s'.nodes n).lastBufferClear = (s.nodes n).lastBufferClear ∨
      ∃ event, action = .nodeEvent event ∧ event.nodeId = n ∧ event.clearBuffer = true ∧
        (s'.nodes n).lastBufferClear = some s.now := by
  cases action with
  | nodeEvent event =>
      obtain rfl := Option.some.inj taken
      exact processNodeEvent_lastBufferClear net s event n
  | advance | linkEvent | sendUdp | processBuffer | pollLink | pollForwarder | pollRecv
  | checkReceive => exact .inl ((step_uneventful taken nofun).clears n)

end State

namespace State

/-- A packet in the outbound path of a node that no link has sent. -/
inductive Entered (s : State) (n : NodeId) : BufferedPacket → Prop where
  | buffered {packet : BufferedPacket} (member : packet ∈ (s.nodes n).outbound.messages) :
      s.Entered n packet
  | dispatched {d : Dispatch} (member : d ∈ s.dispatches) (node : d.node = n)
      (unsent : ∀ l, (l, .sent) ∉ d.acts) : s.Entered n d.packet

/-- The move has a link that is ready for a copy of a packet find that no link has handled it. -/
def TakesUp (net : InMemoryNetwork) (n : NodeId) (packet : BufferedPacket)
    (move : State × Action) : Prop :=
  ∃ l t k, move.2 = .pollLink l ∧ move.1.resume net l = .ready t k ∧
    move.1.handled k.handled = false ∧ k.srcNode = n ∧
    k.inNodeSince = packet.inNodeSince ∧ k.data = packet.data

/-- Only a link that handles a copy tells of a packet in transit. -/
theorem step_transit {action : Action} {told : List SimulationStep} {step : SimulationStep}
    {event : PacketInTransit} (taken : s.step net action = some s')
    (grown : s'.trace = s.trace ++ told) (member : step ∈ told)
    (transit : step.kind = .packetInTransit event) :
    ∃ l t k, action = .pollLink l ∧ s.Takes t l k ∧ s.handled k.handled = false ∧
      s.clearedFromBuffer k = false ∧ event = ⟨k.data.id, k.srcNode, l⟩ := by
  have inland {ids : List Uuid} {steps : List SimulationStep} (grown' : s'.trace = s.trace ++ steps)
      (inland : ∀ step ∈ steps, step.relativeTime = s.now ∧ Inland ids step.kind) : False := by
    obtain rfl : told = steps := List.append_cancel_left (grown.symm.trans grown')
    have none := (inland step member).2
    rw [transit] at none
    exact none
  by_cases polled : ∃ l, action = .pollLink l
  · obtain ⟨l, rfl⟩ := polled
    simp only [State.step] at taken
    split at taken
    · cases taken
    -- A turn that logs nothing told no step at all.
    have silent {t : State} (log : t.log = s.log) (same : s'.trace = t.trace) : False := by
      have kept : s'.trace = s.trace := same.trans (congrArg (List.filterMap _) log)
      have none : told = [] := by simpa [kept] using grown
      rw [none] at member
      cases member
    cases pollLink_polls taken with
    | waits quiet works => exact (silent works.log rfl).elim
    | panics works alive => exact (silent works.log rfl).elim
    | discards takes handled => exact (silent takes.works.log rfl).elim
    | sendPanics takes unhandled => exact (silent takes.works.log rfl).elim
    | @clears t k takes unhandled cleared =>
        have grown' : (t.dropCleared l k).trace = s.trace ++
            [⟨t.now, .packetDropped ⟨k.data.id, k.srcNode, .bufferCleared⟩⟩] := by
          rw [trace, trace, ← takes.works.log]
          exact List.filterMap_append
        obtain rfl := List.append_cancel_left (grown.symm.trans grown')
        obtain rfl := List.mem_singleton.mp member
        cases transit
    | @sends t k data pacer takes unhandled kept up marked =>
        have grown' : (((t.markHandled k).carry l k data pacer).noteAct k.handled l .sent).trace =
            s.trace ++ [⟨t.now, .packetInTransit ⟨data.id, k.srcNode, l⟩⟩] := by
          rw [trace, trace, ← takes.works.log]
          exact List.filterMap_append
        obtain rfl := List.append_cancel_left (grown.symm.trans grown')
        obtain rfl := List.mem_singleton.mp member
        obtain rfl := SimulationStepKind.packetInTransit.inj transit
        rw [(PacketAnomalies.mark_some marked).1]
        exact ⟨l, t, k, rfl, takes, unhandled, kept, rfl⟩
  · by_cases eventful : ∃ e, action = .linkEvent e
    · obtain ⟨e, rfl⟩ := eventful
      obtain rfl := Option.some.inj taken
      by_cases known : e.linkId ∈ net.linkIds
      · obtain rfl := List.append_cancel_left (grown.symm.trans (processLinkEvent_trace known))
        obtain rfl := List.mem_singleton.mp member
        cases transit
      · rw [processLinkEvent_unknown known, List.self_eq_append_right] at grown
        exact absurd member (grown ▸ List.not_mem_nil)
    -- No other action tells of a packet in transit.
    · obtain ⟨-, ids, steps, grown', calm, -⟩ := step_calm taken (fun l same => polled ⟨l, same⟩)
        fun e same => eventful ⟨e, same⟩
      exact (inland grown' calm).elim

/-! What a clear dooms. -/

/-- A node's last clear was at some time or later, and a packet that may still wait there
got there before. -/
structure Purged (net : InMemoryNetwork) (n : NodeId) (id : Uuid) (time : Nat) (s : State) : Prop where
  competing : s.Competing net
  located : Located net False ⟨s, []⟩
  doomed : Moment.Doomed net n id time ⟨s, []⟩
  cleared : ∃ last, (s.nodes n).lastBufferClear = some last ∧ time ≤ last
  now : time ≤ s.now

variable {time : Nat}

theorem Purged.clearedFromBuffer {k : OutgoingPacket} (purged : s.Purged net n id time)
    (node : k.srcNode = n) (early : k.inNodeSince < time) : s.clearedFromBuffer k = true := by
  obtain ⟨last, cleared, later⟩ := purged.cleared
  have : k.inNodeSince < last := by omega
  simp [State.clearedFromBuffer, node, cleared, this]

/-- No step tells that the packet is sent. -/
theorem Purged.untold {action : Action} {told : List SimulationStep} {step : SimulationStep}
    (purged : s.Purged net n id time) (taken : s.step net action = some s')
    (grown : s'.trace = s.trace ++ told) (member : step ∈ told) (n' : NodeId) (l : LinkId) :
    step.kind ≠ .packetInTransit ⟨id, n', l⟩ := by
  intro transit
  obtain ⟨l', t, k, -, takes, unhandled, kept, same⟩ := step_transit taken grown member transit
  obtain ⟨rfl, -, -⟩ := PacketInTransit.mk.inj same
  obtain ⟨node, early⟩ := purged.doomed.waits _ _ (takes.waits purged.competing unhandled) rfl
  rw [purged.clearedFromBuffer node early] at kept
  cases kept

theorem Purged.step {action : Action} (purged : s.Purged net n id time)
    (fresh : Function.Injective net.uuids) (taken : s.step net action = some s') :
    s'.Purged net n id time := by
  have kept := step_kept taken (fun m => m.state.Competing net ∧ s.now ≤ m.state.now ∧
      ∃ entries, m.state.log = s.log ++ entries ∧
        ((∀ e ∈ entries, ∀ at' l, e ≠ .recorded ⟨at', .packetInTransit ⟨id, n, l⟩⟩) →
          m.Doomed net n id time))
    ⟨purged.competing, le_rfl, [], (List.append_nil _).symm, fun _ => purged.doomed⟩ ?_
  · obtain ⟨competing, later, entries, grown, doomed⟩ := kept
    refine ⟨competing, purged.located.step fresh purged.competing taken, doomed ?_, ?_,
      purged.now.trans later⟩
    · rintro e member at' l rfl
      have trace : s'.trace = s.trace ++ entries.filterMap LogEntry.step? := by
        rw [State.trace, grown, List.filterMap_append]
        rfl
      exact purged.untold taken trace (List.mem_filterMap.mpr ⟨_, member, rfl⟩) n l rfl
    · rcases step_lastBufferClear taken n with same | ⟨event, -, -, -, cleared⟩
      · exact same ▸ purged.cleared
      · exact ⟨s.now, cleared, purged.now⟩
  · rintro licence m m' ⟨competing, later, entries, grown, doomed⟩ effect
    obtain ⟨new, grown', -⟩ := effect.writes
    refine ⟨competing.effect effect, later.trans effect.now_le, entries ++ new,
      by rw [grown', grown, List.append_assoc], fun silent => ?_⟩
    refine (doomed fun e member => silent e (List.mem_append_left _ member)).effect fresh competing
      effect fun l _ sent => ?_
    have same := List.append_cancel_left (grown'.symm.trans sent)
    exact silent _ (List.mem_append_right _ (same ▸ List.mem_cons_self)) _ l rfl

/-- A link that takes the packet up drops it. -/
theorem Purged.takesUp {action : Action} (purged : s.Purged net n packet.data.id time)
    (taken : s.step net action = some s') (takesUp : TakesUp net n packet (s, action)) :
    s'.trace = s.trace ++ [⟨s.now, .packetDropped ⟨packet.data.id, n, .bufferCleared⟩⟩] := by
  obtain ⟨l, t, k, rfl, resumed, unhandled, node, since, data⟩ := takesUp
  simp only [State.step] at taken
  split at taken
  · cases taken
  have resumed : s.resume net l = .ready t k := resumed
  have unhandled : s.handled k.handled = false := unhandled
  have takes : s.Takes t l k := by
    have resumes := resume_resumes net s l
    rw [resumed] at resumes
    cases resumes with
    | ready takes => exact takes
  have works := takes.works
  have early := (purged.doomed.waits _ _ (takes.waits purged.competing unhandled) (by rw [data])).2
  have cleared := purged.clearedFromBuffer node early
  rw [pollLink, resumed] at taken
  obtain rfl := Option.some.inj taken
  have open' : t.handled k.handled = false := by
    rw [← unhandled]
    simp only [handled, works.dispatches]
  have late : (t.modifyDispatch k.handled ({ · with handled := true })).clearedFromBuffer k = true := by
    rw [← cleared]
    simp only [State.clearedFromBuffer, modifyDispatch, works.nodes]
  simp only [handle, open', Bool.false_eq_true, if_false, late, if_true]
  rw [trace, trace, ← works.log, ← works.now, ← node, ← data]
  exact List.filterMap_append

/-- What a run after a clear tells of a packet that was there before. -/
theorem Purged.run {later : List (State × Action)} (purged : s.Purged net n packet.data.id time)
    (fresh : Function.Injective net.uuids) (run : Run (State.step net) s later s') :
    s'.Purged net n packet.data.id time ∧ ∃ told, s'.trace = s.trace ++ told ∧
      (∀ step ∈ told, ∀ n' l, step.kind ≠ .packetInTransit ⟨packet.data.id, n', l⟩) ∧
      ((∃ move ∈ later, TakesUp net n packet move) →
        ∃ step ∈ told, step.kind = .packetDropped ⟨packet.data.id, n, .bufferCleared⟩) := by
  induction run with
  | start => exact ⟨purged, [], (List.append_nil _).symm, List.forall_mem_nil _, by simp⟩
  | @next later t t' action run taken ih =>
      obtain ⟨before, told, grown, unsent, dropped⟩ := ih
      obtain ⟨new, grown'⟩ := trace_prefix taken
      refine ⟨before.step fresh taken, told ++ new, by rw [← grown', grown, List.append_assoc],
        fun step member => ?_, fun ⟨move, member, takesUp⟩ => ?_⟩
      · rcases List.mem_append.mp member with old | last
        · exact unsent step old
        · exact before.untold taken grown'.symm last
      · rcases List.mem_cons.mp member with rfl | old
        · have drops := before.takesUp taken takesUp
          rw [← grown'] at drops
          obtain rfl := List.append_cancel_left drops
          exact ⟨_, List.mem_append_right _ List.mem_cons_self, rfl⟩
        · obtain ⟨step, inside, kind⟩ := dropped ⟨move, old, takesUp⟩
          exact ⟨step, List.mem_append_left _ inside, kind⟩

/-- The last clear of a node at some time was that one, or one of those since. -/
theorem lastBufferClear_run {later : List (State × Action)}
    (run : Run (State.step net) s later s') (cleared : (s.nodes n).lastBufferClear = some time) :
    (s'.nodes n).lastBufferClear = some time ∨
      ∃ move ∈ later, ∃ event, move.2 = .nodeEvent event ∧ event.nodeId = n ∧
        event.clearBuffer = true ∧ (s'.nodes n).lastBufferClear = some move.1.now := by
  induction run with
  | start => exact .inl cleared
  | @next later t t' action run taken ih =>
      rcases step_lastBufferClear taken n with same | ⟨event, rfl, node, clears, last⟩
      · rw [same]
        rcases ih with before | ⟨move, member, rest⟩
        · exact .inl before
        · exact .inr ⟨move, List.mem_cons_of_mem _ member, rest⟩
      · exact .inr ⟨_, List.mem_cons_self, event, rfl, node, clears, last⟩

/-- What holds throughout a run. -/
theorem spent_of_run (fresh : Function.Injective net.uuids) {past : List (State × Action)}
    (run : Run (State.step net) (.initial net) past s) :
    s.Competing net ∧ Located net False ⟨s, []⟩ ∧ Moment.Spent net ⟨s, []⟩ := by
  refine run.invariant (fun s => s.Competing net ∧ Located net False ⟨s, []⟩ ∧
    Moment.Spent net ⟨s, []⟩) ⟨.initial, .initial, fun d member => ?_⟩
    fun s action s' holds taken => ?_
  · simp [initial] at member
  · refine step_kept taken
      (fun m => m.state.Competing net ∧ Located net False m ∧ m.Spent net) holds ?_
    rintro m licence m' ⟨competing, located, spent⟩ effect
    exact ⟨competing.effect effect, located.effect fresh competing effect False.elim,
      spent.effect fresh competing located effect⟩

/-- A packet that no link has sent is at most waiting at its node. -/
theorem Entered.doomed (entered : s.Entered n packet) (located : Located net False ⟨s, []⟩)
    (spent : Moment.Spent net ⟨s, []⟩) (early : packet.inNodeSince < time) :
    Moment.Doomed net n packet.data.id time ⟨s, []⟩ := by
  have waiting (waits : s.Waits n packet) : Moment.Doomed net n packet.data.id time ⟨s, []⟩ := by
    obtain ⟨issued, stays, sole⟩ := Moment.sole_of_waits located waits
    refine ⟨issued, stays, fun n' other waits' same => ?_⟩
    obtain ⟨rfl, rfl⟩ := sole n' other waits' same
    exact ⟨rfl, early⟩
  cases entered with
  | buffered member => exact waiting (.buffered member)
  | @dispatched d member node unsent =>
      cases handled : d.handled with
      | false => exact waiting (.dispatched member node handled)
      | true =>
          obtain ⟨issued, stays, waits⟩ := spent d member handled unsent
          refine ⟨issued, stays, fun n' other waits' same => ?_⟩
          exact absurd (waits n' other waits' same).2 (Nat.not_lt_zero _)

/-- A packet is recorded as dropped because of a buffer clear at most once. -/
theorem dropped_le_one (located : Located net False ⟨s, []⟩) (id : Uuid) (n : NodeId) :
    s.trace.countP (·.kind = .packetDropped ⟨id, n, .bufferCleared⟩) ≤ 1 := by
  obtain ⟨ledger, described, -⟩ := located
  have once : s.count (.finished .bufferCleared) id ≤ 1 :=
    described.le_one (some (.finished .bufferCleared)) id
  refine le_trans ?_ once
  rw [trace, List.countP_filterMap]
  refine List.countP_mono_left fun e _ dropped => ?_
  cases e with
  | recorded step =>
      obtain ⟨at', kind⟩ := step
      obtain rfl : kind = .packetDropped ⟨id, n, .bufferCleared⟩ := by
        simpa [LogEntry.step?] using dropped
      simp [LogEntry.outcome?, DropReason.outcome]
  | _ => simp [LogEntry.step?] at dropped

theorem processNodeEvent_clears {event : NodeEventPayload} (s : State)
    (known : event.nodeId ∈ net.nodeIds) (clears : event.clearBuffer = true) :
    ((s.processNodeEvent net event).nodes event.nodeId).lastBufferClear = some s.now ∧
      (s.processNodeEvent net event).now = s.now := by
  unfold processNodeEvent
  dsimp only
  rw [if_neg (not_not.mpr known), if_pos clears]
  cases event.status with
  | none | some status => simp [trackNodeEvent, record, NodeState.clearBuffer, modifyNode, note]

theorem trace_run {later : List (State × Action)} (run : Run (State.step net) s later s') :
    ∃ told, s'.trace = s.trace ++ told := by
  have grown := run.invariant (fun t => s.trace <+: t.trace) (List.prefix_refl _)
    fun _ _ _ before taken => before.trans <| trace_prefix taken
  exact ⟨_, (List.prefix_iff_eq_append.mp grown).symm⟩

/-- No link sends a packet that was at a node before its buffer was cleared; a link that takes
the packet up drops it, once; and the clear drops no packet that got there later. -/
theorem cleared_neverLeaves (fresh : Function.Injective net.uuids) {past later : List (State × Action)}
    {s s₁ s' : State} {event : NodeEventPayload}
    (run : Run (State.step net) (.initial net) past s) (known : event.nodeId ∈ net.nodeIds)
    (clears : event.clearBuffer = true) (taken : s.step net (.nodeEvent event) = some s₁)
    (rest : Run (State.step net) s₁ later s') :
    ∃ told, s'.trace = s₁.trace ++ told ∧
      (∀ packet, s₁.Entered event.nodeId packet → packet.inNodeSince < s.now →
        (∀ step ∈ told, ∀ n l, step.kind ≠ .packetInTransit ⟨packet.data.id, n, l⟩) ∧
        ((∃ move ∈ later, TakesUp net event.nodeId packet move) → s'.trace.countP
          (·.kind = .packetDropped ⟨packet.data.id, event.nodeId, .bufferCleared⟩) = 1)) ∧
      ∀ since state l t k before, later = since ++ (state, .pollLink l) :: before →
        state.resume net l = .ready t k → state.handled k.handled = false →
        state.clearedFromBuffer k = true → k.srcNode = event.nodeId → s.now ≤ k.inNodeSince →
        ∃ move ∈ before, ∃ event', move.2 = .nodeEvent event' ∧ event'.nodeId = event.nodeId ∧
          event'.clearBuffer = true ∧ k.inNodeSince < move.1.now := by
  obtain ⟨competing, located, spent⟩ := spent_of_run fresh (run.next taken)
  obtain ⟨last, now⟩ := processNodeEvent_clears s known clears
  rw [show s.processNodeEvent net event = s₁ from Option.some.inj taken] at last now
  obtain ⟨told, grown⟩ := trace_run rest
  refine ⟨told, grown, fun packet entered early => ?_, ?_⟩
  · have purged : s₁.Purged net event.nodeId packet.data.id s.now :=
      ⟨competing, located, entered.doomed located spent early, ⟨s.now, last, le_rfl⟩, now.ge⟩
    obtain ⟨after, told', grown', unsent, dropped⟩ := purged.run fresh rest
    obtain rfl := List.append_cancel_left (grown.symm.trans grown')
    refine ⟨unsent, fun takesUp => ?_⟩
    obtain ⟨step, member, kind⟩ := dropped takesUp
    have once := dropped_le_one after.located packet.data.id event.nodeId
    have some : 0 < s'.trace.countP
        (·.kind = .packetDropped ⟨packet.data.id, event.nodeId, .bufferCleared⟩) :=
      List.countP_pos_iff.mpr ⟨step, grown ▸ List.mem_append_right _ member, by simp [kind]⟩
    omega
  · rintro since state l t k before rfl resumed unhandled cleared node late
    -- the last clear that the link sees came after the packet, so it is another one
    obtain ⟨time, cleared, after⟩ : ∃ time,
        (state.nodes event.nodeId).lastBufferClear = some time ∧ k.inNodeSince < time := by
      simpa [State.clearedFromBuffer, node, Option.any_eq_true] using cleared
    rcases lastBufferClear_run rest.before last with same | ⟨move, member, event', is, at', clears', same⟩
    · obtain rfl := Option.some.inj (same.symm.trans cleared)
      omega
    · obtain rfl := Option.some.inj (same.symm.trans cleared)
      exact ⟨move, member, event', is, at', clears', after⟩

/-- A packet in the queues of two links when its node is cleared: the first one drops it. -/
theorem cleared_neverLeaves_twoHosts : ∃ past s s₁ s',
    Run (State.step (twoHosts (some 1))) (.initial (twoHosts (some 1))) past s ∧
      s.step (twoHosts (some 1)) (.nodeEvent ⟨0, none, true⟩) = some s₁ ∧
      s₁.step (twoHosts (some 1)) (.pollLink 0) = some s' ∧
      s'.trace.countP (·.kind = .packetDropped ⟨0, 0, .bufferCleared⟩) = 1 := by
  obtain ⟨past, run, -⟩ := Run.of_isSome (State.step (twoHosts (some 1)))
    (.initial (twoHosts (some 1)))
    [.sendUdp 0 greeting 0, .processBuffer 0 [], .advance 5] rfl
  refine ⟨past, _, _, _, run, rfl, rfl, ?_⟩
  obtain ⟨told, -, gone, -⟩ := cleared_neverLeaves Function.injective_id run
    (show (⟨0, none, true⟩ : NodeEventPayload).nodeId ∈ (twoHosts (some 1)).nodeIds by decide)
    rfl rfl (.next .start rfl : Run _ _ [(_, .pollLink 0)] _)
  exact (gone ⟨0, ⟨0, false, 0, { greeting with ttl := 29 }, 0⟩⟩
    (.dispatched (d := ⟨0, ⟨0, ⟨0, false, 0, { greeting with ttl := 29 }, 0⟩⟩, [0, 1], false, []⟩)
      (by decide) rfl (by simp)) (by decide)).2
    ⟨_, List.mem_cons_self, 0, _, _, rfl, rfl, rfl, rfl, rfl, rfl⟩

end State

end Workbench.Network
