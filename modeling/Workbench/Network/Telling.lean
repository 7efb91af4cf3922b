import Workbench.Network.LinkEvents

/-! What the steps of the tasks tell the tracer, link by link: only a link's queue task
tells of packets on the link, and only link events tell of links. -/

set_option autoImplicit false

namespace Workbench.Network

open Workbench.Tracing

/-- A step about no link, that has no packet get to a node but some given ones. -/
def Inland (ids : List Uuid) : SimulationStepKind → Prop
  | .packetInNode s => s.packetId ∈ ids
  | .packetInTransit _ => False
  | .networkEvent e => e.link = none
  | _ => True

theorem Inland.mono {ids ids' : List Uuid} {kind : SimulationStepKind} (inland : Inland ids kind)
    (subset : ids ⊆ ids') : Inland ids' kind := by
  cases kind with
  | packetInNode s => exact subset inland
  | _ => exact inland

namespace State

variable {net : InMemoryNetwork} {s s' s'' t : State} {ids ids' : List Uuid} {l : LinkId}

/-- The trace grows by steps of this instant, all of them inland. -/
structure Tells (ids : List Uuid) (s s' : State) : Prop where
  now : s'.now = s.now
  grows : ∃ steps, s'.trace = s.trace ++ steps ∧
    ∀ step ∈ steps, step.relativeTime = s.now ∧ Inland ids step.kind

theorem Tells.nothing (now : s'.now = s.now) (log : s'.log = s.log) : Tells ids s s' :=
  ⟨now, [], by simp [trace, log], List.forall_mem_nil _⟩

theorem Tells.mono (tells : Tells ids s s') (subset : ids ⊆ ids') : Tells ids' s s' := by
  obtain ⟨now, steps, grown, inland⟩ := tells
  exact ⟨now, steps, grown, fun step member =>
    ⟨(inland step member).1, (inland step member).2.mono subset⟩⟩

theorem Tells.trans (first : Tells ids s s') (second : Tells ids s' s'') : Tells ids s s'' := by
  obtain ⟨now, steps, grown, inland⟩ := first
  obtain ⟨now', steps', grown', inland'⟩ := second
  refine ⟨now'.trans now, steps ++ steps', by rw [grown', grown, List.append_assoc], ?_⟩
  intro step member
  rcases List.mem_append.mp member with old | new
  · exact inland step old
  · exact now ▸ inland' step new

/-- What came before was not told. -/
theorem Tells.after (tells : Tells ids t s') (now : t.now = s.now) (log : t.log = s.log) :
    Tells ids s s' :=
  Tells.trans (.nothing now log) tells

theorem Tells.record (s : State) {kind : SimulationStepKind} (inland : Inland ids kind) :
    Tells ids s (s.record kind) := by
  refine ⟨rfl, [⟨s.now, kind⟩], by simp [trace, State.record, note, LogEntry.step?], ?_⟩
  intro step member
  obtain rfl := List.mem_singleton.mp member
  exact ⟨rfl, inland⟩

theorem Tells.mark (s : State) {entry : LogEntry} (mark : entry.step? = none) :
    Tells ids s (s.note entry) :=
  ⟨rfl, [], by simp [trace, note, mark], List.forall_mem_nil _⟩

theorem enqueueOutbound_tells (s : State) (n : NodeId) (packet : BufferedPacket) :
    Tells [] s (s.enqueueOutbound n packet).1 := by
  unfold enqueueOutbound
  split
  · exact .record s trivial
  · next outboundBuffer _ =>
    have taken : Tells [] s (s.modifyNode n ({ · with outboundBuffer })) := .nothing rfl rfl
    have marked := taken.trans (Tells.mark _ (show (LogEntry.reserved n packet.data).step? = none from rfl))
    dsimp only
    split
    · exact marked
    · exact marked.trans (.nothing rfl rfl)

theorem enqueueWithDuplicate_tells (net : InMemoryNetwork) (s : State) (n : NodeId)
    (packet : BufferedPacket) (duplicate : Bool) :
    Tells [] s (s.enqueueWithDuplicate net n packet duplicate).1 := by
  unfold enqueueWithDuplicate
  split
  · dsimp only [newPacketId]
    have drawn : Tells [] s { s with drawn := s.drawn + 1 } := .nothing rfl rfl
    have original := enqueueOutbound_tells { s with drawn := s.drawn + 1 } n packet
    generalize State.enqueueOutbound { s with drawn := s.drawn + 1 } n packet = entered at original
    obtain ⟨s', exit⟩ := entered
    cases exit with
    | panicked => exact drawn.trans original
    | returned =>
        have told (copy : InTransitData) : Tells [] s' (s'.trackInjectedFailures n copy true 0 false) :=
          .record s' trivial
        exact (drawn.trans original).trans ((told _).trans (enqueueOutbound_tells _ n _))
  · exact enqueueOutbound_tells s n packet

theorem forward_tells (net : InMemoryNetwork) (s : State) (n : NodeId) (data : InTransitData)
    (roll : Nat) : Tells [data.id] s (s.forward net n data roll).1 := by
  have arrives (dropped : Bool) : Inland [data.id]
      (.packetInNode ⟨data.id, data.number, data.size, n, dropped⟩) := List.mem_singleton_self _
  unfold forward
  split
  · exact .record s (arrives true)
  have entered : Tells [data.id] s (s.trackPacketInNode n data) := .record s (arrives false)
  dsimp only
  split
  · exact entered.trans (.nothing rfl rfl)
  split
  · exact entered.trans (.record _ trivial)
  split
  · exact entered.trans (.record _ trivial)
  · exact entered.trans ((enqueueWithDuplicate_tells net _ n _ _).mono (List.nil_subset _))

theorem arrive_tells (net : InMemoryNetwork) (s : State) (l : LinkId) (transmit : DeliveredTransmit)
    (roll : Nat) : Tells [transmit.data.id] s (s.arrive net l transmit roll).1 := by
  unfold arrive
  have noted : Tells [transmit.data.id] s (s.note (.arrived l transmit.data.id)) := .mark s rfl
  dsimp only
  split
  · exact noted.trans (.record _ trivial)
  split
  · exact noted.trans (.mark _ rfl)
  · exact noted.trans (forward_tells net _ _ _ _)

theorem arriveAll_tells (net : InMemoryNetwork) (l : LinkId) (delivered : List DeliveredTransmit)
    (rolls : List Nat) (s : State) :
    Tells (delivered.map (·.data.id)) s (arriveAll net l delivered rolls s) := by
  induction delivered generalizing rolls s with
  | nil => exact .nothing rfl rfl
  | cons transmit delivered ih =>
      unfold arriveAll
      have arrived := (arrive_tells net s l transmit (rolls.headD 0)).mono
        (List.cons_subset_cons transmit.data.id (List.nil_subset (delivered.map (·.data.id))))
      generalize s.arrive net l transmit (rolls.headD 0) = result at arrived
      obtain ⟨s', exit⟩ := result
      cases exit with
      | returned => exact arrived.trans ((ih rolls.tail s').mono (List.subset_cons_self _ _))
      | panicked => exact arrived.trans (.nothing rfl rfl)

theorem readAll_tells (n : NodeId) (bufferSize : Nat) (delivered : List DeliveredTransmit)
    (s : State) : Tells [] s (readAll n bufferSize delivered s) := by
  induction delivered generalizing s with
  | nil => exact .nothing rfl rfl
  | cons transmit delivered ih =>
      unfold readAll
      have read : Tells [] s (s.trackReadByApplication n transmit.data) := .record s trivial
      dsimp only
      split
      · exact read.trans (.nothing rfl rfl)
      · exact read.trans (ih _)

theorem noteAll_tells (n : NodeId) (delivered : List DeliveredTransmit) (s : State) :
    Tells [] s (delivered.foldl (fun s t => s.note (.checked n t.data.id)) s) := by
  induction delivered generalizing s with
  | nil => exact .nothing rfl rfl
  | cons transmit delivered ih =>
      have noted : Tells [] s (s.note (.checked n transmit.data.id)) := .mark s rfl
      exact noted.trans (ih _)

/-- What a poll of the queue task of a link comes to. -/
inductive LinkPoll (net : InMemoryNetwork) (s : State) (l : LinkId) : State → Prop where
  | waits {t : State} (quiet : s.Quiet t) (works : Works s t l) : LinkPoll net s l t
  | panics {t : State} (works : Works s t l) (alive : (s.links l).task ≠ .panicked) :
      LinkPoll net s l (t.endQueueTask l)
  | discards {t : State} {k : OutgoingPacket} (takes : s.Takes t l k)
      (handled : s.handled k.handled = true) : LinkPoll net s l t
  | clears {t : State} {k : OutgoingPacket} (takes : s.Takes t l k)
      (unhandled : s.handled k.handled = false) (cleared : s.clearedFromBuffer k = true) :
      LinkPoll net s l (t.dropCleared l k)
  | sends {t : State} {k : OutgoingPacket} {data : InTransitData} {pacer : PacketPacer}
      (takes : s.Takes t l k) (unhandled : s.handled k.handled = false)
      (kept : s.clearedFromBuffer k = false) (up : (s.links l).isDown = false)
      (marked : k.anomalies.mark k.data = some data) :
      LinkPoll net s l (((t.markHandled k).carry l k data pacer).noteAct k.handled l .sent)
  | sendPanics {t : State} {k : OutgoingPacket} (takes : s.Takes t l k)
      (unhandled : s.handled k.handled = false) : LinkPoll net s l ((t.markHandled k).endQueueTask l)

theorem handle_polls {k : OutgoingPacket} (takes : s.Takes t l k) :
    LinkPoll net s l (t.handle net l k) := by
  have works := takes.works
  have flag : t.handled k.handled = s.handled k.handled := by
    simp only [handled, works.dispatches]
  rw [handle, flag]
  split
  · next handled => exact .discards takes handled
  next unhandled =>
  rw [Bool.not_eq_true] at unhandled
  have same : (t.modifyDispatch k.handled ({ · with handled := true })).clearedFromBuffer k =
      s.clearedFromBuffer k := by
    simp only [clearedFromBuffer, modifyDispatch, works.nodes]
  dsimp only
  rw [same]
  split
  · next cleared => exact .clears takes unhandled cleared
  next kept =>
  split
  · next s' sent =>
    obtain ⟨data, pacer, up, marked, rfl⟩ := send_carry sent
    refine .sends takes unhandled (by simpa using kept) ?_ marked
    rw [← up, LinkState.isDown, LinkState.isDown, ← works.status]
    rfl
  · exact .sendPanics takes unhandled

theorem pollLink_polls (taken : s.pollLink net l = some s') : LinkPoll net s l s' := by
  rw [pollLink] at taken
  have resumes := resume_resumes net s l
  have works {t : State} := @resume_works net s t l
  cases resumed : s.resume net l with
  | blocked => simp [resumed] at taken
  | waits t =>
      rw [resumed] at taken resumes works
      obtain rfl := Option.some.inj taken
      cases resumes with
      | waits quiet => exact .waits quiet (works rfl)
  | ready t k =>
      rw [resumed] at taken resumes
      obtain rfl := Option.some.inj taken
      cases resumes with
      | ready takes => exact handle_polls takes
  | panics t =>
      rw [resumed] at taken resumes
      obtain rfl := Option.some.inj taken
      cases resumes with
      | panics works alive => exact .panics works alive

/-! What a step comes to for the links. -/

/-- The delays and the status of links stay, and their queues at most shrink. -/
structure Idles (s s' : State) : Prop where
  delay : ∀ l, (s'.links l).delay = (s.links l).delay
  status : ∀ l, (s'.links l).status = (s.links l).status
  queue : ∀ l, (s'.links l).inTransit.queue ⊆ (s.links l).inTransit.queue

theorem Idles.of_links (links : s'.links = s.links) : Idles s s' :=
  ⟨fun _ => by rw [links], fun _ => by rw [links], fun _ => by rw [links]; exact fun _ => id⟩

theorem Idles.trans (first : Idles s s') (second : Idles s' s'') : Idles s s'' where
  delay l := (second.delay l).trans (first.delay l)
  status l := (second.status l).trans (first.status l)
  queue l := fun _ member => first.queue l (second.queue l member)

theorem Idles.modifyLink (s : State) (l : LinkId) (change : LinkState → LinkState)
    (delay : (change (s.links l)).delay = (s.links l).delay)
    (status : (change (s.links l)).status = (s.links l).status)
    (queue : (change (s.links l)).inTransit.queue ⊆ (s.links l).inTransit.queue) :
    Idles s (s.modifyLink l change) := by
  refine ⟨fun l' => ?_, fun l' => ?_, fun l' => ?_⟩
  all_goals by_cases same : l' = l
  · rw [same, modifyLink_self, delay]
  · rw [modifyLink_of_ne _ _ same]
  · rw [same, modifyLink_self, status]
  · rw [modifyLink_of_ne _ _ same]
  · rw [same, modifyLink_self]
    exact queue
  · rw [modifyLink_of_ne _ _ same]
    exact fun _ => id

theorem Works.idles (works : Works s t l) : Idles s t := by
  refine ⟨fun l' => ?_, fun l' => ?_, fun l' => ?_⟩
  all_goals by_cases same : l' = l
  · rw [same, works.delay]
  · rw [works.others l' same]
  · rw [same, works.status]
  · rw [works.others l' same]
  · rw [same, works.inTransit]
    exact fun _ => id
  · rw [works.others l' same]
    exact fun _ => id

theorem endQueueTask_idles (s : State) (l : LinkId) : Idles s (s.endQueueTask l) := by
  have ended := Idles.modifyLink s l (fun link => { link with
    task := .panicked, outgoingQueue := link.outgoingQueue.dropReceiver }) rfl rfl fun _ => id
  exact ended.trans (.of_links rfl)

theorem setForwarder_idles (s : State) (l : LinkId) (forwarder : Forwarder) :
    Idles s (s.setForwarder l forwarder) :=
  .modifyLink s l ({ · with forwarder }) rfl rfl fun _ => id

theorem arriveAll_idles (net : InMemoryNetwork) (l : LinkId) (delivered : List DeliveredTransmit)
    (rolls : List Nat) (s : State) : Idles s (arriveAll net l delivered rolls s) := by
  induction delivered generalizing rolls s with
  | nil => exact setForwarder_idles s l .new
  | cons transmit delivered ih =>
      unfold arriveAll
      have arrived := (arrive_links net s l transmit (rolls.headD 0)).1
      generalize s.arrive net l transmit (rolls.headD 0) = result at arrived
      obtain ⟨s', exit⟩ := result
      have kept : Idles s s' := .of_links arrived
      cases exit with
      | returned => exact kept.trans (ih rolls.tail s')
      | panicked =>
          have set := setForwarder_idles s' l ⟨false, .new usizeMax⟩
          exact kept.trans (set.trans (.of_links rfl))

/-- A step that sends nothing and is no link event: the packets it has get to nodes are
new, or were on a link and are due. -/
structure Calm (net : InMemoryNetwork) (s s' : State) : Prop where
  idles : Idles s s'
  tells : ∃ ids steps, s'.trace = s.trace ++ steps ∧
    (∀ step ∈ steps, step.relativeTime = s.now ∧ Inland ids step.kind) ∧
    ∀ id ∈ ids, id = net.uuids s.drawn ∨
      ∃ l, ∃ p ∈ (s.links l).inTransit.queue, p.data.id = id ∧ p.arrivalTime ≤ s.now

theorem Tells.calm (tells : Tells [] s s') (idles : Idles s s') : Calm net s s' := by
  obtain ⟨-, steps, grown, inland⟩ := tells
  exact ⟨idles, [], steps, grown, inland, List.forall_mem_nil _⟩

theorem processBuffer_calm {n : NodeId} {rolls : List (Nat × Nat)}
    (taken : s.processBuffer net n rolls = some s') : Calm net s s' := by
  refine Tells.calm ?_ ?_
  · obtain ⟨packet, rest, queued, rfl | ⟨links, t, walked, pushes, ends⟩⟩ := processBuffer_cases taken
    · exact .nothing rfl rfl
    · have pushed := pushCopies_pushed net n packet s.dispatches.length links links rolls
        ((s.takeBuffered n rest).openDispatch n packet links)
      rw [← pushes] at pushed
      rcases ends with rfl | rfl
      all_goals exact .nothing pushed.now pushed.log
  · obtain ⟨-, same | ⟨packet, rest, links, -, -, same⟩⟩ := processBuffer_links taken
    · exact .of_links same
    · have pushed := pushCopies_pushed net n packet s.dispatches.length links links rolls
        ((s.takeBuffered n rest).openDispatch n packet links)
      refine ⟨fun l => ?_, fun l => ?_, fun l => ?_⟩
      all_goals
        obtain ⟨new, queue, -⟩ := pushed.queues l
        rw [same, queue]
      · rfl
      · rfl
      · exact fun _ => id

/-- A forwarder tells of packets that were on its link and are due. -/
theorem pollForwarder_tells {ties rolls : List Nat}
    (taken : s.pollForwarder net l ties rolls = some s') : ∃ ids, Tells ids s s' ∧
      ∀ id ∈ ids, ∃ p ∈ (s.links l).inTransit.queue, p.data.id = id ∧ p.arrivalTime ≤ s.now := by
  unfold pollForwarder at taken
  dsimp only at taken
  split at taken
  · cases taken
  split at taken
  · obtain rfl := Option.some.inj taken
    exact ⟨[], .nothing rfl rfl, List.forall_mem_nil _⟩
  · next delivered delivery inTransit polled =>
      obtain rfl := Option.some.inj taken
      have arrived := arriveAll_tells net l delivered rolls
        (s.modifyLink l ({ · with inTransit, forwarder := ⟨true, delivery⟩ }))
      refine ⟨_, arrived.after rfl rfl, fun id member => ?_⟩
      obtain ⟨x, inside, rfl⟩ := List.mem_map.mp member
      obtain ⟨p, queued, rfl, due⟩ := NextPacketDelivery.poll_ready_due polled inside
      exact ⟨p, queued, rfl, due⟩

theorem pollForwarder_calm {ties rolls : List Nat}
    (taken : s.pollForwarder net l ties rolls = some s') : Calm net s s' := by
  obtain ⟨ids, ⟨-, steps, grown, inland⟩, sources⟩ := pollForwarder_tells taken
  refine ⟨?_, ids, steps, grown, inland, fun id member => .inr ⟨l, sources id member⟩⟩
  unfold pollForwarder at taken
  dsimp only at taken
  split at taken
  · cases taken
  split at taken
  · next delivery inTransit polled =>
      obtain rfl := Option.some.inj taken
      refine .modifyLink s l _ rfl rfl ?_
      rw [← NextPacketDelivery.poll_pending polled]
      exact fun _ => id
  · next delivered delivery inTransit polled =>
      obtain rfl := Option.some.inj taken
      have subset := NextPacketDelivery.poll_subset (s.links l).forwarder.delivery
        (s.links l).inTransit s.now ties 0
      rw [polled] at subset
      have collected : Idles s (s.modifyLink l ({ · with inTransit, forwarder := ⟨true, delivery⟩ })) :=
        .modifyLink s l _ rfl rfl subset
      exact collected.trans (arriveAll_idles net l delivered rolls _)

theorem processNodeEvent_tells (net : InMemoryNetwork) (s : State) (event : NodeEventPayload) :
    Tells [] s (s.processNodeEvent net event) := by
  have tracked (t : State) (now : t.now = s.now) (log : t.log = s.log) :
      Tells [] s (t.trackNodeEvent event) := by
    have inland : Inland [] (.networkEvent ⟨none, some event⟩) := rfl
    exact (Tells.record t inland).after now log
  unfold processNodeEvent
  dsimp only
  split
  · exact .nothing rfl rfl
  · cases event.status <;> cases event.clearBuffer <;> exact tracked _ rfl rfl

theorem sendUdp_calm {n : NodeId} {transmit : OwnedTransmit} {roll : Nat} {exit : Exit}
    (called : s.sendUdp net n transmit roll = (s', exit)) : Calm net s s' := by
  unfold sendUdp inTransitData newPacketId at called
  dsimp only at called
  have links := (forward_links net { s with
    drawn := s.drawn + 1, nextTransmitNumber := s.nextTransmitNumber + 1 } n
    ⟨net.uuids s.drawn, false, n, transmit, s.nextTransmitNumber⟩ roll).1
  obtain ⟨-, steps, grown, inland⟩ := forward_tells net { s with
    drawn := s.drawn + 1, nextTransmitNumber := s.nextTransmitNumber + 1 } n
    ⟨net.uuids s.drawn, false, n, transmit, s.nextTransmitNumber⟩ roll
  rw [called] at links grown
  refine ⟨.of_links links, _, steps, grown, inland, fun id member => .inl ?_⟩
  exact List.mem_singleton.mp member

theorem pollRecv_calm (net : InMemoryNetwork) (s : State) (n : NodeId) (port : Port)
    (slots bufferSize : Nat) (ties : List Nat) :
    Calm net s (s.pollRecv n port slots bufferSize ties) := by
  unfold pollRecv
  dsimp only
  generalize ((s.sockets n port).getD (.new slots)).poll ((s.nodes n).udpEndpoints port) s.now ties 0 =
    polled
  obtain ⟨result, delivery, queue⟩ := polled
  cases result with
  | pending => exact Tells.calm (.nothing rfl rfl) (.of_links rfl)
  | ready delivered =>
      have told := readAll_tells n bufferSize (delivered.take slots)
      have links := readAll_links n bufferSize (delivered.take slots)
      exact Tells.calm ((told _).after rfl rfl) (.of_links (links _).1)

theorem checkReceive_calm (net : InMemoryNetwork) (s : State) (n : NodeId) (port : Port)
    (ties : List Nat) : Calm net s (s.checkReceive n port ties) := by
  unfold checkReceive
  dsimp only
  generalize (NextPacketDelivery.new 1).poll ((s.nodes n).udpEndpoints port) s.now ties 0 = polled
  obtain ⟨result, delivery, queue⟩ := polled
  cases result with
  | pending => exact Tells.calm (.nothing rfl rfl) (.of_links rfl)
  | ready delivered =>
      have told := noteAll_tells n delivered
      have links := noteAll_links n delivered
      exact Tells.calm ((told _).after rfl rfl) (.of_links (links _).1)

theorem step_calm {action : Action} (taken : s.step net action = some s')
    (unpolled : ∀ l, action ≠ .pollLink l) (uneventful : ∀ e, action ≠ .linkEvent e) :
    Calm net s s' := by
  cases action with
  | advance duration =>
      obtain rfl := Option.some.inj taken
      exact ⟨.of_links rfl, [], [], (List.append_nil _).symm, List.forall_mem_nil _,
        List.forall_mem_nil _⟩
  | linkEvent event => exact absurd rfl (uneventful event)
  | nodeEvent event =>
      obtain rfl := Option.some.inj taken
      exact (processNodeEvent_tells net s event).calm
        (.of_links (processNodeEvent_links net s event).1)
  | sendUdp n transmit roll =>
      simp only [step] at taken
      split at taken
      · cases taken
      split at taken
      · next called =>
          obtain rfl := Option.some.inj taken
          exact sendUdp_calm called
      · next called =>
          obtain rfl := Option.some.inj taken
          obtain ⟨idles, tells⟩ := sendUdp_calm called
          exact ⟨idles.trans (.of_links rfl), tells⟩
  | processBuffer n rolls =>
      simp only [step] at taken
      split at taken
      · cases taken
      · exact processBuffer_calm taken
  | pollLink l => exact absurd rfl (unpolled l)
  | pollForwarder l ties rolls =>
      simp only [step] at taken
      split at taken
      · cases taken
      · exact pollForwarder_calm taken
  | pollRecv n port slots bufferSize ties =>
      simp only [step] at taken
      split at taken
      · cases taken
      · obtain rfl := Option.some.inj taken
        exact pollRecv_calm net s n port slots bufferSize ties
  | checkReceive n port ties =>
      simp only [step] at taken
      split at taken
      · cases taken
      · obtain rfl := Option.some.inj taken
        exact checkReceive_calm net s n port ties

/-! Time. -/

theorem LinkPoll.now (polls : LinkPoll net s l s') : s'.now = s.now := by
  cases polls with
  | waits quiet works | panics works alive => exact works.now
  | discards takes _ | clears takes _ _ | sends takes _ _ _ _ | sendPanics takes _ =>
      exact takes.works.now

/-- Only the clock moves time. -/
theorem step_now {action : Action} (taken : s.step net action = some s')
    (still : ∀ duration, action ≠ .advance duration) : s'.now = s.now := by
  cases action with
  | advance duration => exact absurd rfl (still duration)
  | linkEvent event => exact Option.some.inj taken ▸ processLinkEvent_now
  | nodeEvent event => exact Option.some.inj taken ▸ (processNodeEvent_tells net s event).now
  | sendUdp n transmit roll =>
      simp only [step] at taken
      split at taken
      · cases taken
      have sent : (s.sendUdp net n transmit roll).1.now = s.now :=
        (forward_tells net { s with
          drawn := s.drawn + 1, nextTransmitNumber := s.nextTransmitNumber + 1 } n
          ⟨net.uuids s.drawn, false, n, transmit, s.nextTransmitNumber⟩ roll).now
      split at taken
      all_goals
        next called =>
          rw [called] at sent
          exact Option.some.inj taken ▸ sent
  | processBuffer n rolls =>
      simp only [step] at taken
      split at taken
      · cases taken
      · exact (processBuffer_links taken).1
  | pollLink l =>
      simp only [step] at taken
      split at taken
      · cases taken
      · exact (pollLink_polls taken).now
  | pollForwarder l ties rolls =>
      simp only [step] at taken
      split at taken
      · cases taken
      · obtain ⟨ids, tells, -⟩ := pollForwarder_tells taken
        exact tells.now
  | pollRecv n port slots bufferSize ties =>
      simp only [step] at taken
      split at taken
      · cases taken
      obtain rfl := Option.some.inj taken
      unfold pollRecv
      dsimp only
      split
      · rfl
      · exact (readAll_tells n bufferSize _ _).now
  | checkReceive n port ties =>
      simp only [step] at taken
      split at taken
      · cases taken
      obtain rfl := Option.some.inj taken
      unfold checkReceive
      dsimp only
      split
      · rfl
      · exact (noteAll_tells n _ _).now

end State

end Workbench.Network
