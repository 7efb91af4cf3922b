import Workbench.Network.Ordering
import Workbench.Network.TimeToLive
import Workbench.Tracing.Refusals

/-! What the tasks tell as packets get to nodes: a node that is down has dropped the packet,
and one that is up has told of each packet that it puts into its outbound buffer. -/

set_option autoImplicit false

namespace Workbench.Tracing

open Workbench.Library Workbench.Network

variable {n : NodeId} {id : Uuid} {flying : Bool} {step : SimulationStep} {now t : Nat}
  {trace steps : List SimulationStep}

/-- The step tells that a packet gets to a node and stays there. -/
def SimulationStep.Admits (n : NodeId) (id : Uuid) (step : SimulationStep) : Prop :=
  match step.kind with
  | .packetInNode s => s.nodeId = n ∧ s.packetId = id ∧ s.droppedOnArrival = false
  | .packetDuplicated s => s.nodeId = n ∧ s.packetId = id
  | _ => False

theorem SimulationStep.Admits.stay (admits : step.Admits n id) :
    step.stay? flying n id = some (some step.relativeTime) := by
  unfold Admits at admits
  unfold stay?
  split at admits
  · next kind => simp [kind, admits]
  · next kind => simp [kind, admits]
  · exact admits.elim

theorem SimulationStep.stay_time (stays : step.stay? flying n id = some (some t)) :
    t = step.relativeTime := by
  unfold stay? at stays
  split at stays
  case h_6 => cases stays
  all_goals
    split at stays
    · grind
    · cases stays

/-- A packet in a node got there lately, or was there before and is not told of again. -/
theorem entered_append (later : ∀ step ∈ steps, now ≤ step.relativeTime)
    (inside : entered n id (trace ++ steps) = some t) :
    now ≤ t ∨ entered n id trace = some t ∧ ∀ step ∈ steps, ¬ step.Admits n id := by
  induction steps using List.reverseRecOn with
  | nil => exact .inr ⟨by simpa using inside, List.forall_mem_nil _⟩
  | append_singleton steps step ih =>
      rw [← List.append_assoc, entered_concat] at inside
      cases stays : step.stay? (openFlight id (trace ++ steps)).isSome n id with
      | none =>
          rw [stays] at inside
          have earlier (other : SimulationStep) (member : other ∈ steps) :=
            later other (List.mem_append_left _ member)
          rcases ih earlier inside with new | ⟨old, silent⟩
          · exact .inl new
          · refine .inr ⟨old, List.forall_mem_append.mpr ⟨silent, ?_⟩⟩
            intro other member admits
            obtain rfl := List.mem_singleton.mp member
            cases stays.symm.trans admits.stay
      | some stay =>
          rw [stays] at inside
          obtain rfl : stay = some t := inside
          rw [SimulationStep.stay_time stays]
          exact .inl (later step (by simp))

end Workbench.Tracing

namespace Workbench.Network

open Workbench.Library Workbench.Tracing

variable {net : InMemoryNetwork} {s s' s'' t : State} {n : NodeId} {l : LinkId}
  {admitted admitted' : List (NodeId × Uuid)} {steps steps' : List SimulationStep}

/-- The action handles packets at a node that they get to. -/
def Action.atNode : Action → Bool
  | .sendUdp .. | .pollForwarder .. | .pollRecv .. | .checkReceive .. => true
  | .advance _ | .linkEvent _ | .nodeEvent _ | .processBuffer .. | .pollLink _ => false

namespace State

/-- What a task may tell of packets at nodes that are up or down. -/
def Greeted (s : State) : SimulationStepKind → Prop
  | .packetInNode p => p.droppedOnArrival = (s.nodes p.nodeId).isDown
  | .packetDuplicated p => (s.nodes p.nodeId).isDown = false
  | .packetInTransit _ | .networkEvent _ => False
  | _ => True

theorem Greeted.eventless {kind : SimulationStepKind} (greeted : s.Greeted kind) :
    kind.nodeEvent? = none := by
  cases kind with
  | networkEvent e => exact greeted.elim
  | _ => rfl

/-- Work at nodes that tells some steps: the nodes stay up or down, and of each packet that
is new in an outbound buffer, it tells, or has told before. -/
structure Greets (admitted : List (NodeId × Uuid)) (steps : List SimulationStep) (s s' : State) :
    Prop where
  now : s'.now = s.now
  down : ∀ n, (s'.nodes n).isDown = (s.nodes n).isDown
  dispatches : s'.dispatches = s.dispatches
  trace : s'.trace = s.trace ++ steps
  greeted : ∀ step ∈ steps, s.Greeted step.kind
  outbound : ∀ n, ∀ packet ∈ (s'.nodes n).outbound.messages,
    packet ∈ (s.nodes n).outbound.messages ∨ packet.inNodeSince = s.now ∧
      ((n, packet.data.id) ∈ admitted ∨ ∃ step ∈ steps, step.Admits n packet.data.id)

namespace Greets

theorem of_same (now : s'.now = s.now) (nodes : s'.nodes = s.nodes)
    (dispatches : s'.dispatches = s.dispatches) (trace : s'.trace = s.trace) :
    Greets admitted [] s s' where
  now := now
  down _ := by rw [nodes]
  dispatches := dispatches
  trace := by rw [trace, List.append_nil]
  greeted := List.forall_mem_nil _
  outbound _ _ member := .inl (nodes ▸ member)

theorem trans (first : Greets admitted steps s s') (second : Greets admitted' steps' s' s'')
    (known : ∀ x ∈ admitted', x ∈ admitted ∨ ∃ step ∈ steps, step.Admits x.1 x.2) :
    Greets admitted (steps ++ steps') s s'' where
  now := second.now.trans first.now
  down n := (second.down n).trans (first.down n)
  dispatches := second.dispatches.trans first.dispatches
  trace := by rw [second.trace, first.trace, List.append_assoc]
  greeted := by
    refine List.forall_mem_append.mpr ⟨first.greeted, fun step member => ?_⟩
    have greeted := second.greeted step member
    unfold Greeted at greeted ⊢
    simpa only [first.down] using greeted
  outbound n packet member := by
    rcases second.outbound n packet member with old | ⟨since, told⟩
    · refine (first.outbound n packet old).imp_right fun new => ⟨new.1, new.2.imp_right ?_⟩
      rintro ⟨step, inside, admits⟩
      exact ⟨step, List.mem_append_left _ inside, admits⟩
    · refine .inr ⟨since.trans first.now, ?_⟩
      rcases told with before | ⟨step, inside, admits⟩
      · refine (known _ before).imp_right ?_
        rintro ⟨step, inside, admits⟩
        exact ⟨step, List.mem_append_left _ inside, admits⟩
      · exact .inr ⟨step, List.mem_append_right _ inside, admits⟩

theorem record {kind : SimulationStepKind} (greeted : s.Greeted kind) :
    Greets admitted [⟨s.now, kind⟩] s (s.record kind) where
  now := rfl
  down _ := rfl
  dispatches := rfl
  trace := List.filterMap_append
  greeted step member := by
    obtain rfl := List.mem_singleton.mp member
    exact greeted
  outbound _ _ member := .inl member

theorem mark {entry : LogEntry} (mark : entry.step? = none) : Greets admitted [] s (s.note entry) :=
  .of_same rfl rfl rfl (by simp [State.trace, note, mark])

/-- A change of a node that leaves its status and its outbound buffer as they are. -/
theorem modifyNode (s : State) (n : NodeId) (change : NodeState → NodeState)
    (status : (change (s.nodes n)).status = (s.nodes n).status)
    (outbound : (change (s.nodes n)).outbound = (s.nodes n).outbound) :
    Greets admitted [] s (s.modifyNode n change) := by
  refine ⟨rfl, fun n' => ?_, rfl, (List.append_nil _).symm, List.forall_mem_nil _, ?_⟩
  · by_cases here : n' = n
    · rw [here, modifyNode_self, NodeState.isDown, status, NodeState.isDown]
    · rw [modifyNode_of_ne _ _ here]
  · intro n' packet member
    by_cases here : n' = n
    · rw [here, modifyNode_self, outbound] at member
      exact .inl (here ▸ member)
    · rw [modifyNode_of_ne _ _ here] at member
      exact .inl member

end Greets

/-! The functions of the tasks. -/

theorem enqueueOutbound_greets (s : State) (n : NodeId) {packet : BufferedPacket}
    (since : packet.inNodeSince = s.now) :
    ∃ steps, Greets [(n, packet.data.id)] steps s (s.enqueueOutbound n packet).1 := by
  unfold enqueueOutbound
  split
  · exact ⟨_, .record trivial⟩
  next outboundBuffer _ =>
  have booked : Greets [(n, packet.data.id)] [] s
      ((s.modifyNode n ({ · with outboundBuffer })).note (.reserved n packet.data)) :=
    (Greets.modifyNode s n ({ · with outboundBuffer }) rfl rfl).trans (.mark rfl)
      fun _ member => .inl member
  dsimp only
  split
  · exact ⟨[], booked⟩
  next outbound pushed =>
  refine ⟨[], ?_⟩
  have messages := congrArg Channel.messages (Channel.unboundedSend_some pushed)
  refine ⟨rfl, fun n' => ?_, rfl, booked.trace, List.forall_mem_nil _, ?_⟩
  · by_cases here : n' = n
    · subst here
      rw [modifyNode_self]
      exact booked.down n'
    · rw [modifyNode_of_ne _ _ here]
      exact booked.down n'
  · intro n' packet' member
    by_cases here : n' = n
    · subst here
      rw [modifyNode_self] at member
      rw [messages] at member
      rcases List.mem_append.mp member with old | new
      · exact booked.outbound n' packet' old
      · obtain rfl := List.mem_singleton.mp new
        exact .inr ⟨since, .inl List.mem_cons_self⟩
    · rw [modifyNode_of_ne _ _ here] at member
      exact booked.outbound n' packet' member

theorem enqueueWithDuplicate_greets (net : InMemoryNetwork) (s : State) (n : NodeId)
    (packet : BufferedPacket) (since : packet.inNodeSince = s.now) (duplicate : Bool)
    (up : (s.nodes n).isDown = false) : ∃ steps,
      Greets [(n, packet.data.id)] steps s (s.enqueueWithDuplicate net n packet duplicate).1 := by
  unfold enqueueWithDuplicate
  split
  · dsimp only [newPacketId]
    have drawn : Greets [(n, packet.data.id)] [] s { s with drawn := s.drawn + 1 } :=
      .of_same rfl rfl rfl rfl
    obtain ⟨steps, original⟩ := enqueueOutbound_greets { s with drawn := s.drawn + 1 } n since
    have both := drawn.trans original fun _ member => .inl member
    generalize State.enqueueOutbound { s with drawn := s.drawn + 1 } n packet = entered at both
    obtain ⟨s', exit⟩ := entered
    cases exit with
    | panicked => exact ⟨_, both⟩
    | returned =>
        -- The duplicate is told of before it is put into the buffer
        have told (copy : InTransitData) : Greets [] [⟨s'.now, .packetDuplicated
            ⟨copy.id, copy.number, copy.size, n⟩⟩] s' (s'.trackInjectedFailures n copy true 0 false) :=
          .record ((both.down n).trans up)
        have stored (copy : BufferedPacket) (now : copy.inNodeSince = s'.now) :=
          enqueueOutbound_greets (s'.trackInjectedFailures n copy.data true 0 false) n now
        obtain ⟨steps', copied⟩ := stored
          { packet with data := { packet.data with id := net.uuids s.drawn, duplicate := true } }
          (since.trans both.now.symm)
        refine ⟨_, (both.trans (told _) (List.forall_mem_nil _)).trans copied ?_⟩
        intro x member
        obtain rfl := List.mem_singleton.mp member
        exact .inr ⟨_, List.mem_append_right _ List.mem_cons_self, rfl, rfl⟩
  · exact enqueueOutbound_greets s n since

theorem forward_greets (net : InMemoryNetwork) (s : State) (n : NodeId) (data : InTransitData)
    (roll : Nat) : ∃ steps, Greets [] steps s (s.forward net n data roll).1 := by
  unfold forward
  split
  · next down => exact ⟨_, .record down.symm⟩
  next notDown =>
  have up : (s.nodes n).isDown = false := (Bool.not_eq_true _).mp notDown
  have entered : Greets [] [⟨s.now, .packetInNode ⟨data.id, data.number, data.size, n, false⟩⟩] s
      (s.trackPacketInNode n data) := .record up.symm
  dsimp only
  split
  · exact ⟨_, entered.trans (.modifyNode _ n (·.deliverPacket _ data) rfl rfl) (List.forall_mem_nil _)⟩
  split
  · exact ⟨_, entered.trans (.record trivial) (List.forall_mem_nil _)⟩
  split
  · exact ⟨_, entered.trans (.record trivial) (List.forall_mem_nil _)⟩
  · obtain ⟨steps, stored⟩ := enqueueWithDuplicate_greets net (s.trackPacketInNode n data) n
      ⟨s.now, { data with transmit := { data.transmit with ttl := data.transmit.ttl - 1 } }⟩
      rfl (decide (roll < (net.nodes n).injectedFailures.packetLossRatio +
        (net.nodes n).injectedFailures.packetDuplicationRatio)) up
    refine ⟨_, entered.trans stored ?_⟩
    intro x member
    obtain rfl := List.mem_singleton.mp member
    exact .inr ⟨_, List.mem_cons_self, rfl, rfl, rfl⟩

theorem arriveAll_greets (net : InMemoryNetwork) (l : LinkId) (delivered : List DeliveredTransmit)
    (rolls : List Nat) (s : State) : ∃ steps, Greets [] steps s (arriveAll net l delivered rolls s) := by
  induction delivered generalizing rolls s with
  | nil => exact ⟨[], .of_same rfl rfl rfl rfl⟩
  | cons transmit delivered ih =>
      unfold arriveAll
      have arrived : ∃ steps, Greets [] steps s (s.arrive net l transmit (rolls.headD 0)).1 := by
        have noted : Greets [] [] s (s.note (.arrived l transmit.data.id)) := .mark rfl
        unfold arrive
        dsimp only
        split
        · exact ⟨_, noted.trans (.record trivial) (List.forall_mem_nil _)⟩
        split
        · exact ⟨_, noted.trans (.mark rfl) (List.forall_mem_nil _)⟩
        · next node _ =>
            obtain ⟨steps, forwarded⟩ := forward_greets net (s.note (.arrived l transmit.data.id)) node
              transmit.data (rolls.headD 0)
            exact ⟨_, noted.trans forwarded (List.forall_mem_nil _)⟩
      generalize s.arrive net l transmit (rolls.headD 0) = result at arrived
      obtain ⟨s', exit⟩ := result
      obtain ⟨steps, arrived⟩ := arrived
      cases exit with
      | returned =>
          obtain ⟨steps', others⟩ := ih rolls.tail s'
          exact ⟨_, arrived.trans others (List.forall_mem_nil _)⟩
      | panicked => exact ⟨_, arrived.trans (.of_same rfl rfl rfl rfl) (List.forall_mem_nil _)⟩

theorem readAll_greets (n : NodeId) (bufferSize : Nat) (delivered : List DeliveredTransmit)
    (s : State) : ∃ steps, Greets [] steps s (readAll n bufferSize delivered s) := by
  induction delivered generalizing s with
  | nil => exact ⟨[], .of_same rfl rfl rfl rfl⟩
  | cons transmit delivered ih =>
      have tracked : Greets [] [⟨s.now, .packetDeliveredToApplication ⟨transmit.data.id,
          transmit.data.number, transmit.data.size, n⟩⟩] s (s.trackReadByApplication n transmit.data) :=
        .record trivial
      unfold readAll
      dsimp only
      split
      · exact ⟨_, tracked.trans (.of_same rfl rfl rfl rfl) (List.forall_mem_nil _)⟩
      · obtain ⟨steps, others⟩ := ih (s.trackReadByApplication n transmit.data)
        exact ⟨_, tracked.trans others (List.forall_mem_nil _)⟩

theorem noteAll_greets (n : NodeId) (delivered : List DeliveredTransmit) (s : State) :
    Greets [] [] s (delivered.foldl (fun s t => s.note (.checked n t.data.id)) s) := by
  induction delivered generalizing s with
  | nil => exact .of_same rfl rfl rfl rfl
  | cons transmit delivered ih =>
      have noted : Greets [] [] s (s.note (.checked n transmit.data.id)) := .mark rfl
      exact noted.trans (ih _) (List.forall_mem_nil _)

theorem sendUdp_greets (net : InMemoryNetwork) (s : State) (n : NodeId) (transmit : OwnedTransmit)
    (roll : Nat) : ∃ steps, Greets [] steps s (s.sendUdp net n transmit roll).1 := by
  have drawn : Greets [] [] s { s with
      drawn := s.drawn + 1, nextTransmitNumber := s.nextTransmitNumber + 1 } :=
    .of_same rfl rfl rfl rfl
  unfold sendUdp inTransitData newPacketId
  dsimp only
  obtain ⟨steps, sent⟩ := forward_greets net { s with
    drawn := s.drawn + 1, nextTransmitNumber := s.nextTransmitNumber + 1 } n
    ⟨net.uuids s.drawn, false, n, transmit, s.nextTransmitNumber⟩ roll
  exact ⟨_, drawn.trans sent (List.forall_mem_nil _)⟩

theorem pollForwarder_greets {ties rolls : List Nat}
    (taken : s.pollForwarder net l ties rolls = some s') : ∃ steps, Greets [] steps s s' := by
  unfold pollForwarder at taken
  dsimp only at taken
  split at taken
  · cases taken
  split at taken
  · obtain rfl := Option.some.inj taken
    exact ⟨[], .of_same rfl rfl rfl rfl⟩
  · next delivered delivery inTransit polled =>
    obtain rfl := Option.some.inj taken
    have moved : Greets [] [] s (s.modifyLink l ({ · with inTransit, forwarder := ⟨true, delivery⟩ })) :=
      .of_same rfl rfl rfl rfl
    obtain ⟨steps, arrived⟩ := arriveAll_greets net l delivered rolls
      (s.modifyLink l ({ · with inTransit, forwarder := ⟨true, delivery⟩ }))
    exact ⟨_, moved.trans arrived (List.forall_mem_nil _)⟩

theorem pollRecv_greets (s : State) (n : NodeId) (port : Port) (slots bufferSize : Nat)
    (ties : List Nat) : ∃ steps, Greets [] steps s (s.pollRecv n port slots bufferSize ties) := by
  unfold pollRecv
  dsimp only
  have fetched (queue : InboundQueue) (sockets : NodeId → Port → Option NextPacketDelivery) :
      Greets [] [] s { s.setEndpoint n port queue with sockets } :=
    (Greets.modifyNode s n (fun node =>
      { node with udpEndpoints := Function.update node.udpEndpoints port queue }) rfl rfl).trans
      (.of_same rfl rfl rfl rfl) (List.forall_mem_nil _)
  split
  · exact ⟨_, fetched _ _⟩
  · next delivered _ =>
    obtain ⟨steps, read⟩ := readAll_greets n bufferSize (delivered.take slots) _
    exact ⟨_, (fetched _ _).trans read (List.forall_mem_nil _)⟩

theorem checkReceive_greets (s : State) (n : NodeId) (port : Port) (ties : List Nat) :
    ∃ steps, Greets [] steps s (s.checkReceive n port ties) := by
  have fetched (queue : InboundQueue) : Greets [] [] s (s.setEndpoint n port queue) :=
    .modifyNode s n _ rfl rfl
  unfold checkReceive
  dsimp only
  split
  · exact ⟨_, fetched _⟩
  · next delivered _ =>
    exact ⟨_, (fetched _).trans (noteAll_greets n delivered _) (List.forall_mem_nil _)⟩

theorem step_greets {action : Action} (taken : s.step net action = some s')
    (atNode : action.atNode = true) : ∃ steps, Greets [] steps s s' := by
  cases action with
  | sendUdp node transmit roll =>
      simp only [step] at taken
      split at taken
      · cases taken
      obtain ⟨steps, sent⟩ := sendUdp_greets net s node transmit roll
      generalize s.sendUdp net node transmit roll = result at sent taken
      obtain ⟨t, exit⟩ := result
      cases exit with
      | returned => exact ⟨steps, Option.some.inj taken ▸ sent⟩
      | panicked =>
          obtain rfl := Option.some.inj taken
          exact ⟨_, sent.trans (.of_same rfl rfl rfl rfl) (List.forall_mem_nil _)⟩
  | pollForwarder l ties rolls =>
      simp only [step] at taken
      split at taken
      · cases taken
      · exact pollForwarder_greets taken
  | pollRecv node port slots bufferSize ties =>
      simp only [step] at taken
      split at taken
      · cases taken
      · exact Option.some.inj taken ▸ pollRecv_greets s node port slots bufferSize ties
  | checkReceive node port ties =>
      simp only [step] at taken
      split at taken
      · cases taken
      · exact Option.some.inj taken ▸ checkReceive_greets s node port ties
  | advance | linkEvent | nodeEvent | processBuffer | pollLink => cases atNode

/-- A poll of the queue task of a link tells of at most one packet, which it drops or sends. -/
theorem LinkPoll.told (polls : LinkPoll net s l s') : s'.trace = s.trace ∨
    (∃ k : OutgoingPacket, s'.trace = s.trace ++
      [⟨s.now, .packetDropped ⟨k.data.id, k.srcNode, .bufferCleared⟩⟩]) ∨
    ∃ t k, s.Takes t l k ∧ s.handled k.handled = false ∧ s.clearedFromBuffer k = false ∧
      (s.links l).isDown = false ∧
      s'.trace = s.trace ++ [⟨s.now, .packetInTransit ⟨k.data.id, k.srcNode, l⟩⟩] := by
  have silent (same : s'.log = s.log) : s'.trace = s.trace := congrArg (List.filterMap _) same
  have one {step : SimulationStep} (grown : s'.log = s.log ++ [.recorded step]) :
      s'.trace = s.trace ++ [step] := by
    rw [trace, grown, List.filterMap_append]
    rfl
  cases polls with
  | waits quiet works => exact .inl (silent works.log)
  | panics works alive => exact .inl (silent works.log)
  | discards takes handled => exact .inl (silent takes.works.log)
  | sendPanics takes unhandled => exact .inl (silent takes.works.log)
  | @clears t k takes unhandled cleared =>
      refine .inr (.inl ⟨k, one ?_⟩)
      rw [← takes.works.log, ← takes.works.now]
      rfl
  | @sends t k data pacer takes unhandled kept up marked =>
      refine .inr (.inr ⟨t, k, takes, unhandled, kept, up, one ?_⟩)
      rw [← takes.works.log, ← takes.works.now, ← (PacketAnomalies.mark_some marked).1]
      rfl

/-! How long packets have waited. -/

theorem LinkPoll.waited (polls : LinkPoll net s l s') {packet : BufferedPacket}
    (waits : s'.Waits n packet) : s.Waits n packet := by
  cases polls with
  | waits quiet works => exact works.keeps.waits n packet waits
  | panics works alive => exact (works.keeps.trans (.endQueueTask _ l)).waits n packet waits
  | discards takes handled => exact takes.works.keeps.waits n packet waits
  | @clears t k takes unhandled cleared =>
      have dropped : Keeps t (t.dropCleared l k) :=
        (Keeps.markHandled t k).trans ((Keeps.noteAct _ k.handled l .cleared).trans (.note _ _))
      exact (takes.works.keeps.trans dropped).waits n packet waits
  | @sends t k data pacer takes unhandled kept up marked =>
      apply (takes.works.keeps.trans (Keeps.markHandled t k)).waits
      apply (Keeps.carry (t.markHandled k) l k data pacer).1
      exact (Keeps.noteAct _ k.handled l .sent).waits n packet waits
  | @sendPanics t k takes unhandled =>
      exact (takes.works.keeps.trans ((Keeps.markHandled t k).trans (.endQueueTask _ l))).waits
        n packet waits

/-- Elsewhere no packet starts to wait. -/
theorem step_waited {action : Action} (taken : s.step net action = some s')
    (elsewhere : action.atNode = false) {packet : BufferedPacket} (waits : s'.Waits n packet) :
    s.Waits n packet := by
  cases action with
  | advance duration =>
      obtain rfl := Option.some.inj taken
      exact waits.congr (fun _ => List.Subset.refl _) fun d member opened =>
        ⟨d, member, opened, rfl, rfl⟩
  | linkEvent event =>
      obtain rfl := Option.some.inj taken
      exact (processLinkEvent_rests net s event).keeps.waits n packet waits
  | nodeEvent event =>
      obtain rfl := Option.some.inj taken
      exact (processNodeEvent_rests net s event).keeps.waits n packet waits
  | processBuffer node rolls =>
      simp only [step] at taken
      split at taken
      · cases taken
      · exact (processBuffer_rests taken).keeps.waits n packet waits
  | pollLink l =>
      simp only [step] at taken
      split at taken
      · cases taken
      · exact (pollLink_polls taken).waited waits
  | sendUdp | pollForwarder | pollRecv | checkReceive => cases elsewhere

/-- A packet that starts to wait got to its node just now, as the trace tells. -/
theorem step_waits {action : Action} (taken : s.step net action = some s') :
    ∃ steps, s'.trace = s.trace ++ steps ∧ (∀ step ∈ steps, s.now ≤ step.relativeTime) ∧
      ∀ n packet, s'.Waits n packet → s.Waits n packet ∨
        packet.inNodeSince = s.now ∧ ∃ step ∈ steps, step.Admits n packet.data.id := by
  obtain ⟨steps, grown, later⟩ := step_grows taken
  refine ⟨steps, grown, later, fun n packet waits => ?_⟩
  cases atNode : action.atNode with
  | false => exact .inl (step_waited taken atNode waits)
  | true =>
      obtain ⟨steps', greets⟩ := step_greets taken atNode
      obtain rfl := List.append_cancel_left (grown.symm.trans greets.trace)
      cases waits with
      | buffered member =>
          refine (greets.outbound n packet member).imp .buffered fun new => ⟨new.1, ?_⟩
          rcases new.2 with before | told
          · cases before
          · exact told
      | dispatched member node opened =>
          exact .inl (.dispatched (greets.dispatches ▸ member) node opened)

/-- No packet has waited longer than the trace has it in its node. -/
structure Since (s : State) : Prop where
  past : ∀ n packet, s.Waits n packet → packet.inNodeSince ≤ s.now
  entered : ∀ n packet, s.Waits n packet → ∀ t, entered n packet.data.id s.trace = some t →
    packet.inNodeSince ≤ t

theorem Since.initial (net : InMemoryNetwork) : Since (.initial net) := by
  have nowhere (n : NodeId) (packet : BufferedPacket) : ¬ (State.initial net).Waits n packet := by
    rintro (⟨member⟩ | ⟨member, -, -⟩) <;> cases member
  exact ⟨fun n packet waits => (nowhere n packet waits).elim,
    fun n packet waits => (nowhere n packet waits).elim⟩

theorem Since.step {action : Action} (since : Since s) (taken : s.step net action = some s') :
    Since s' := by
  obtain ⟨steps, grown, later, waited⟩ := step_waits taken
  have onwards : s.now ≤ s'.now := step_now_le taken
  constructor
  · intro n packet waits
    rcases waited n packet waits with old | ⟨new, -⟩
    · exact (since.past n packet old).trans onwards
    · exact new.trans_le onwards
  · intro n packet waits t inside
    rw [grown] at inside
    -- The entry is new, and no earlier than now, or it is the one from before
    rcases entered_append later inside with new | ⟨inside, silent⟩
    · rcases waited n packet waits with old | ⟨just, -⟩
      · have := since.past n packet old
        omega
      · omega
    · rcases waited n packet waits with old | ⟨-, step, member, admits⟩
      · exact since.entered n packet old t inside
      · exact absurd admits (silent step member)

theorem since_of_run {past : List (State × Action)}
    (run : Run (State.step net) (.initial net) past s) : Since s :=
  run.invariant Since (.initial net) fun _ _ _ since taken => since.step taken

end State

end Workbench.Network
