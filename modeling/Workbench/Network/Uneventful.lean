import Workbench.Network.Telling

/-! What the tasks of nodes and links leave alone: the statuses of the nodes and the times
of their buffer clears, which only the events of nodes change. -/

set_option autoImplicit false

namespace Workbench.Tracing

open Workbench.Network

/-- The event of a node that a step tells of. -/
def SimulationStepKind.nodeEvent? : SimulationStepKind → Option NodeEventPayload
  | .networkEvent e => e.node
  | _ => none

end Workbench.Tracing

namespace Workbench.Network

open Workbench.Tracing

variable {net : InMemoryNetwork} {s s' s'' t : State} {n : NodeId} {l : LinkId}

namespace State

/-- The time of the last buffer clear stays at every node. -/
def ClearsKept (s s' : State) : Prop :=
  ∀ n, (s'.nodes n).lastBufferClear = (s.nodes n).lastBufferClear

/-- The nodes keep their statuses and their last clears, and no event of one is recorded. -/
structure Uneventful (s s' : State) : Prop where
  status : ∀ n, (s'.nodes n).status = (s.nodes n).status
  clears : ClearsKept s s'
  grows : ∃ steps, s'.trace = s.trace ++ steps ∧ ∀ step ∈ steps, step.kind.nodeEvent? = none

theorem Uneventful.trans (first : Uneventful s s') (second : Uneventful s' s'') : Uneventful s s'' := by
  obtain ⟨steps, grown, eventless⟩ := first.grows
  obtain ⟨steps', grown', eventless'⟩ := second.grows
  refine ⟨fun n => (second.status n).trans (first.status n),
    fun n => (second.clears n).trans (first.clears n), steps ++ steps', ?_, ?_⟩
  · rw [grown', grown, List.append_assoc]
  · exact List.forall_mem_append.mpr ⟨eventless, eventless'⟩

theorem Uneventful.of_fields (nodes : s'.nodes = s.nodes) (log : s'.log = s.log) : Uneventful s s' :=
  ⟨fun n => by rw [nodes], fun n => by rw [nodes], [], by simp [trace, log], List.forall_mem_nil _⟩

theorem Uneventful.modifyNode (s : State) (n : NodeId) (change : NodeState → NodeState)
    (status : (change (s.nodes n)).status = (s.nodes n).status)
    (clear : (change (s.nodes n)).lastBufferClear = (s.nodes n).lastBufferClear) :
    Uneventful s (s.modifyNode n change) := by
  refine ⟨fun n' => ?_, fun n' => ?_, [], (List.append_nil _).symm, List.forall_mem_nil _⟩
  all_goals by_cases here : n' = n
  · rw [here, modifyNode_self, status]
  · rw [modifyNode_of_ne _ _ here]
  · rw [here, modifyNode_self, clear]
  · rw [modifyNode_of_ne _ _ here]

theorem Uneventful.record (s : State) {kind : SimulationStepKind} (eventless : kind.nodeEvent? = none) :
    Uneventful s (s.record kind) := by
  refine ⟨fun _ => rfl, fun _ => rfl, [⟨s.now, kind⟩], ?_, ?_⟩
  · simp [trace, State.record, note, LogEntry.step?]
  · intro step member
    obtain rfl := List.mem_singleton.mp member
    exact eventless

theorem Uneventful.mark (s : State) {entry : LogEntry} (mark : entry.step? = none) :
    Uneventful s (s.note entry) :=
  ⟨fun _ => rfl, fun _ => rfl, [], by simp [trace, note, mark], List.forall_mem_nil _⟩

/-! The functions of the tasks. -/

theorem enqueueOutbound_uneventful (s : State) (n : NodeId) (packet : BufferedPacket) :
    Uneventful s (s.enqueueOutbound n packet).1 := by
  unfold enqueueOutbound
  split
  · exact .record s rfl
  · next outboundBuffer _ =>
    have taken : Uneventful s (s.modifyNode n ({ · with outboundBuffer })) := .modifyNode s n _ rfl rfl
    have marked := taken.trans (Uneventful.mark _ (show (LogEntry.reserved n packet.data).step? = none from rfl))
    dsimp only
    split
    · exact marked
    · next outbound _ => exact marked.trans (.modifyNode _ n ({ · with outbound }) rfl rfl)

theorem enqueueWithDuplicate_uneventful (net : InMemoryNetwork) (s : State) (n : NodeId)
    (packet : BufferedPacket) (duplicate : Bool) :
    Uneventful s (s.enqueueWithDuplicate net n packet duplicate).1 := by
  unfold enqueueWithDuplicate
  split
  · dsimp only [newPacketId]
    have drawn : Uneventful s { s with drawn := s.drawn + 1 } := .of_fields rfl rfl
    have original := enqueueOutbound_uneventful { s with drawn := s.drawn + 1 } n packet
    generalize State.enqueueOutbound { s with drawn := s.drawn + 1 } n packet = entered at original
    obtain ⟨s', exit⟩ := entered
    cases exit with
    | panicked => exact drawn.trans original
    | returned =>
        have told (copy : InTransitData) : Uneventful s' (s'.trackInjectedFailures n copy true 0 false) :=
          .record s' rfl
        exact (drawn.trans original).trans ((told _).trans (enqueueOutbound_uneventful _ n _))
  · exact enqueueOutbound_uneventful s n packet

theorem forward_uneventful (net : InMemoryNetwork) (s : State) (n : NodeId) (data : InTransitData)
    (roll : Nat) : Uneventful s (s.forward net n data roll).1 := by
  unfold forward
  split
  · exact .record s rfl
  have entered : Uneventful s (s.trackPacketInNode n data) := .record s rfl
  dsimp only
  split
  · exact entered.trans (.modifyNode _ n (·.deliverPacket _ data) rfl rfl)
  split
  · exact entered.trans (.record _ rfl)
  split
  · exact entered.trans (.record _ rfl)
  · exact entered.trans (enqueueWithDuplicate_uneventful net _ n _ _)

theorem arriveAll_uneventful (net : InMemoryNetwork) (l : LinkId) (delivered : List DeliveredTransmit)
    (rolls : List Nat) (s : State) : Uneventful s (arriveAll net l delivered rolls s) := by
  induction delivered generalizing rolls s with
  | nil => exact .of_fields rfl rfl
  | cons transmit delivered ih =>
      unfold arriveAll
      have arrived : Uneventful s (s.arrive net l transmit (rolls.headD 0)).1 := by
        have noted : Uneventful s (s.note (.arrived l transmit.data.id)) := .mark s rfl
        unfold arrive
        dsimp only
        split
        · exact noted.trans (.record _ rfl)
        split
        · exact noted.trans (.mark _ rfl)
        · exact noted.trans (forward_uneventful net _ _ _ _)
      generalize s.arrive net l transmit (rolls.headD 0) = result at arrived
      obtain ⟨s', exit⟩ := result
      cases exit with
      | returned => exact arrived.trans (ih rolls.tail s')
      | panicked => exact arrived.trans (.of_fields rfl rfl)

theorem pollForwarder_uneventful {ties rolls : List Nat}
    (taken : s.pollForwarder net l ties rolls = some s') : Uneventful s s' := by
  unfold pollForwarder at taken
  dsimp only at taken
  split at taken
  · cases taken
  split at taken
  · obtain rfl := Option.some.inj taken
    exact .of_fields rfl rfl
  · next delivered delivery inTransit polled =>
    obtain rfl := Option.some.inj taken
    have moved : Uneventful s (s.modifyLink l ({ · with inTransit, forwarder := ⟨true, delivery⟩ })) :=
      .of_fields rfl rfl
    exact moved.trans (arriveAll_uneventful net l delivered rolls _)

theorem processBuffer_uneventful {rolls : List (Nat × Nat)}
    (taken : s.processBuffer net n rolls = some s') : Uneventful s s' := by
  have took (rest : List BufferedPacket) : Uneventful s (s.takeBuffered n rest) :=
    .modifyNode s n _ rfl rfl
  have ended (t : State) : Uneventful t (t.endBufferProcessor n) := .modifyNode t n _ rfl rfl
  obtain ⟨packet, rest, queued, rfl | ⟨links, t, walked, pushes, ends⟩⟩ := processBuffer_cases taken
  · exact ended s
  · have pushed := pushCopies_pushed net n packet s.dispatches.length links links rolls
      ((s.takeBuffered n rest).openDispatch n packet links)
    have kept : Uneventful s t :=
      (took rest).trans (.of_fields (pushes ▸ pushed.nodes) (pushes ▸ pushed.log))
    rcases ends with rfl | rfl
    · exact kept
    · exact kept.trans ((ended t).trans (.of_fields rfl rfl))

theorem pollLink_uneventful (taken : s.pollLink net l = some s') : Uneventful s s' := by
  have works {t : State} (works : Works s t l) : Uneventful s t := .of_fields works.nodes works.log
  cases pollLink_polls taken with
  | waits quiet worked => exact works worked
  | panics worked alive => exact (works worked).trans (.of_fields rfl rfl)
  | discards takes handled => exact works takes.works
  | @clears t k takes unhandled cleared =>
      have acted : Uneventful t ((t.markHandled k).noteAct k.handled l .cleared) := .of_fields rfl rfl
      exact ((works takes.works).trans acted).trans (.record _ rfl)
  | @sends t k data pacer takes unhandled kept up marked =>
      have marked : Uneventful t (t.markHandled k) := .of_fields rfl rfl
      have told : Uneventful (t.markHandled k) ((t.markHandled k).trackPacketInTransit k.srcNode l data) :=
        .record _ rfl
      have released := told.trans (.modifyNode _ k.srcNode (fun node =>
        { node with outboundBuffer := node.outboundBuffer.release k.data.size }) rfl rfl)
      exact ((works takes.works).trans marked).trans (released.trans (.of_fields rfl rfl))
  | sendPanics takes unhandled => exact (works takes.works).trans (.of_fields rfl rfl)

theorem setEndpoint_uneventful (s : State) (n : NodeId) (port : Port) (queue : InboundQueue) :
    Uneventful s (s.setEndpoint n port queue) := .modifyNode s n _ rfl rfl

theorem pollRecv_uneventful (s : State) (n : NodeId) (port : Port) (slots bufferSize : Nat)
    (ties : List Nat) : Uneventful s (s.pollRecv n port slots bufferSize ties) := by
  have read (delivered : List DeliveredTransmit) (t : State) :
      Uneventful t (readAll n bufferSize delivered t) := by
    induction delivered generalizing t with
    | nil => exact .of_fields rfl rfl
    | cons transmit delivered ih =>
        have tracked : Uneventful t (t.trackReadByApplication n transmit.data) := .record t rfl
        unfold readAll
        dsimp only
        split
        · exact tracked.trans (.of_fields rfl rfl)
        · exact tracked.trans (ih _)
  unfold pollRecv
  dsimp only
  generalize ((s.sockets n port).getD (.new slots)).poll ((s.nodes n).udpEndpoints port) s.now ties 0 =
    polled
  obtain ⟨result, delivery, queue⟩ := polled
  have stored : Uneventful (s.setEndpoint n port queue) { s.setEndpoint n port queue with
      sockets := Function.update s.sockets n
        (Function.update (s.sockets n) port (some delivery)) } := .of_fields rfl rfl
  have set := (setEndpoint_uneventful s n port queue).trans stored
  cases result with
  | pending => exact set
  | ready delivered => exact set.trans (read (delivered.take slots) _)

theorem checkReceive_uneventful (s : State) (n : NodeId) (port : Port) (ties : List Nat) :
    Uneventful s (s.checkReceive n port ties) := by
  have noted (delivered : List DeliveredTransmit) (t : State) :
      Uneventful t (delivered.foldl (fun t x => t.note (.checked n x.data.id)) t) := by
    induction delivered generalizing t with
    | nil => exact .of_fields rfl rfl
    | cons transmit delivered ih => exact Uneventful.trans (.mark t rfl) (ih _)
  unfold checkReceive
  dsimp only
  generalize (NextPacketDelivery.new 1).poll ((s.nodes n).udpEndpoints port) s.now ties 0 = polled
  obtain ⟨result, delivery, queue⟩ := polled
  have set := setEndpoint_uneventful s n port queue
  cases result with
  | pending => exact set
  | ready delivered => exact set.trans (noted delivered _)

theorem processLinkEvent_uneventful (net : InMemoryNetwork) (s : State) (event : LinkEventPayload) :
    Uneventful s (s.processLinkEvent net event) := by
  unfold processLinkEvent
  dsimp only
  split
  · exact .of_fields rfl rfl
  have delayed (t : State) (delay : Nat) : Uneventful t (t.changeLinkDelay event.linkId delay) := by
    unfold changeLinkDelay
    split <;> exact .of_fields rfl rfl
  have updated (t : State) (status : UpdateLinkStatus) :
      Uneventful t (t.updateLinkStatus event.linkId status) := by
    have switched : Uneventful t (t.modifyLink event.linkId (·.updateStatus t.now status)) :=
      .of_fields rfl rfl
    unfold updateLinkStatus
    dsimp only
    split
    · exact switched.trans (.mark _ rfl)
    · exact switched
  refine Uneventful.trans ?_ (.record _ rfl)
  cases event.delay with
  | none =>
      cases event.status with
      | none => exact .of_fields rfl rfl
      | some status => exact updated s status
  | some delay =>
      cases event.status with
      | none => exact delayed s delay
      | some status => exact (delayed s delay).trans (updated _ status)

/-- Every step but the event of a node is uneventful for nodes. -/
theorem step_uneventful {action : Action} (taken : s.step net action = some s')
    (eventless : ∀ event, action ≠ .nodeEvent event) : Uneventful s s' := by
  cases action with
  | nodeEvent event => exact absurd rfl (eventless event)
  | advance duration => exact Option.some.inj taken ▸ .of_fields rfl rfl
  | linkEvent event => exact Option.some.inj taken ▸ processLinkEvent_uneventful net s event
  | sendUdp node transmit roll =>
      simp only [step] at taken
      split at taken
      · cases taken
      have sent : Uneventful s (s.sendUdp net node transmit roll).1 := by
        have drawn : Uneventful s { s with
            drawn := s.drawn + 1, nextTransmitNumber := s.nextTransmitNumber + 1 } := .of_fields rfl rfl
        unfold sendUdp inTransitData newPacketId
        exact drawn.trans (forward_uneventful net _ node _ roll)
      generalize s.sendUdp net node transmit roll = result at sent taken
      obtain ⟨t, exit⟩ := result
      cases exit with
      | returned => exact Option.some.inj taken ▸ sent
      | panicked => exact Option.some.inj taken ▸ sent.trans (.of_fields rfl rfl)
  | processBuffer node rolls =>
      simp only [step] at taken
      split at taken
      · cases taken
      · exact processBuffer_uneventful taken
  | pollLink l =>
      simp only [step] at taken
      split at taken
      · cases taken
      · exact pollLink_uneventful taken
  | pollForwarder l ties rolls =>
      simp only [step] at taken
      split at taken
      · cases taken
      · exact pollForwarder_uneventful taken
  | pollRecv node port slots bufferSize ties =>
      simp only [step] at taken
      split at taken
      · cases taken
      · exact Option.some.inj taken ▸ pollRecv_uneventful s node port slots bufferSize ties
  | checkReceive node port ties =>
      simp only [step] at taken
      split at taken
      · cases taken
      · exact Option.some.inj taken ▸ checkReceive_uneventful s node port ties

/-! The events of nodes. -/

theorem processNodeEvent_status (net : InMemoryNetwork) (s : State) (event : NodeEventPayload)
    (n : NodeId) : ((s.processNodeEvent net event).nodes n).status =
      if event.nodeId ∈ net.nodeIds ∧ event.nodeId = n then
        event.status.elim (s.nodes n).status (s.nodes n).status.update
      else (s.nodes n).status := by
  unfold processNodeEvent
  dsimp only
  by_cases known : event.nodeId ∈ net.nodeIds
  · rw [if_neg (not_not.mpr known)]
    simp only [known, true_and]
    have updated : ((event.status.elim s fun status =>
        s.modifyNode event.nodeId (·.updateStatus status)).nodes n).status =
          if event.nodeId = n then event.status.elim (s.nodes n).status (s.nodes n).status.update
          else (s.nodes n).status := by
      cases event.status with
      | none => exact (ite_self _).symm
      | some status =>
          split
          · next here =>
            subst here
            simp [NodeState.updateStatus]
          · next elsewhere => simp [modifyNode_of_ne _ _ (Ne.symm elsewhere)]
    generalize (event.status.elim s fun status =>
      s.modifyNode event.nodeId (·.updateStatus status)) = t at updated
    rw [← updated]
    split
    · by_cases here : n = event.nodeId
      · subst here
        simp [trackNodeEvent, record, NodeState.clearBuffer]
      · simp [trackNodeEvent, record, modifyNode_of_ne _ _ here]
    · rfl
  · rw [if_pos known, if_neg fun both => known both.1]

end State

end Workbench.Network
