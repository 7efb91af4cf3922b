import Workbench.Network.Effects

/-! Every step is a chain of effects: one lemma for each function of the tasks. -/

set_option autoImplicit false

namespace Workbench.Network

open Workbench.Tracing

namespace State

theorem Quiet.modifyNode (s : State) (n : NodeId) {change : NodeState → NodeState}
    (outbound : (change (s.nodes n)).outbound = (s.nodes n).outbound)
    (outboundBuffer : (change (s.nodes n)).outboundBuffer = (s.nodes n).outboundBuffer)
    (endpoints : ∀ port, ((change (s.nodes n)).udpEndpoints port).queue =
      ((s.nodes n).udpEndpoints port).queue) : s.Quiet (s.modifyNode n change) := by
  refine ⟨Nat.le_refl _, rfl, rfl, rfl, rfl, rfl, fun n' => ?_, fun n' => ?_, fun n' port => ?_,
    fun _ => rfl, fun _ => rfl, fun _ => rfl, fun _ => .rfl, fun _ => OutgoingPacket.SameCopy.refl_all _⟩
  all_goals
    by_cases same : n' = n
    · subst same
      simp_all
    · simp [modifyNode_of_ne _ _ same]

theorem Quiet.modifyLink (s : State) (l : LinkId) {change : LinkState → LinkState}
    (lastDown : (change (s.links l)).lastDown = (s.links l).lastDown)
    (inTransit : (change (s.links l)).inTransit.queue = (s.links l).inTransit.queue)
    (outgoingQueue : (change (s.links l)).outgoingQueue = (s.links l).outgoingQueue)
    (task : (change (s.links l)).task = (s.links l).task) :
    s.Quiet (s.modifyLink l change) := by
  refine ⟨Nat.le_refl _, rfl, rfl, rfl, rfl, rfl, fun _ => rfl, fun _ => rfl, fun _ _ => rfl,
    fun l' => ?_, fun l' => ?_, fun l' => ?_, fun l' => ?_, fun l' => ?_⟩
  all_goals by_cases same : l' = l
  all_goals try subst same
  · simpa
  · simp [modifyLink_of_ne _ _ same]
  · simpa
  · simp [modifyLink_of_ne _ _ same]
  · simp [outgoingQueue]
  · simp [modifyLink_of_ne _ _ same]
  · simp [task]
  · simp [modifyLink_of_ne _ _ same]
  · rw [modifyLink_self, LinkState.copies, outgoingQueue, task]
    exact OutgoingPacket.SameCopy.refl_all _
  · rw [modifyLink_of_ne _ _ same]
    exact OutgoingPacket.SameCopy.refl_all _

/-- Work of the task of a link that keeps the copies it has. -/
theorem Quiet.of_works {s t : State} {l : LinkId} (works : Works s t l)
    (receiver : (t.links l).outgoingQueue.receiverAlive = (s.links l).outgoingQueue.receiverAlive)
    (before : (s.links l).task ≠ .panicked) (after : (t.links l).task ≠ .panicked)
    (copies : List.Forall₂ OutgoingPacket.SameCopy (t.links l).copies (s.links l).copies) :
    s.Quiet t := by
  refine ⟨works.now.ge, works.sockets, works.dispatches, works.drawn, works.log, works.panicked,
    fun _ => by rw [works.nodes], fun _ => by rw [works.nodes], fun _ _ => by rw [works.nodes],
    fun l' => ?_, fun l' => ?_, fun l' => ?_, fun l' => ?_, fun l' => ?_⟩
  all_goals by_cases same : l' = l
  all_goals try subst same
  · exact works.lastDown
  · rw [works.others l' same]
  · rw [works.inTransit]
  · rw [works.others l' same]
  · exact receiver
  · rw [works.others l' same]
  · simp [before, after]
  · rw [works.others l' same]
  · exact copies
  · rw [works.others l' same]
    exact OutgoingPacket.SameCopy.refl_all _

end State

variable {net : InMemoryNetwork} {licence : Licence}

namespace Effects

open Relation

theorem one {m m' : Moment} (effect : Effect net licence m m') :
    Effects net licence m m' := .single effect

theorem still {s s' : State} {hand : List Held} (quiet : s.Quiet s') :
    Effects net licence ⟨s, hand⟩ ⟨s', hand⟩ := one (.quiet hand quiet)

theorem forgetAll (lost : licence.lossy) (s : State) (forgotten hand : List Held) :
    Effects net licence ⟨s, forgotten ++ hand⟩ ⟨s, hand⟩ := by
  induction forgotten with
  | nil => exact .refl
  | cons held forgotten ih => exact .head (.forget s held (forgotten ++ hand) lost) ih

end Effects

namespace State

open Effects Relation

/-! Forwarding. -/

theorem enqueueOutbound_effects (s : State) (n : NodeId) (packet : BufferedPacket)
    (hand : List Held) (panics : (s.enqueueOutbound n packet).2 = .panicked → licence.lossy) :
    Effects net licence ⟨s, ⟨packet.data, .inside n⟩ :: hand⟩
      ⟨(s.enqueueOutbound n packet).1, hand⟩ := by
  rw [enqueueOutbound] at panics ⊢
  split
  · exact one (.drop s n packet.data .bufferFull hand (by simp))
  · next outboundBuffer room =>
    simp only [room] at panics
    dsimp only
    split
    · next full =>
      simp only [full, true_implies] at panics
      exact one (.overbook s n packet.data hand room panics)
    · next outbound sent =>
      exact one (.buffer s n packet.data packet.inNodeSince hand room (by simpa [note] using sent))

theorem enqueueWithDuplicate_effects (s : State) (n : NodeId) (packet : BufferedPacket)
    (duplicate : Bool) (hand : List Held) (known : net.Knows n)
    (panics : (s.enqueueWithDuplicate net n packet duplicate).2 = .panicked → licence.lossy) :
    Effects net licence ⟨s, ⟨packet.data, .inside n⟩ :: hand⟩
      ⟨(s.enqueueWithDuplicate net n packet duplicate).1, hand⟩ := by
  rw [enqueueWithDuplicate] at panics ⊢
  split
  · next asked =>
    simp only [if_pos asked] at panics
    dsimp only [newPacketId] at panics ⊢
    let copy : InTransitData := { packet.data with id := net.uuids s.drawn, duplicate := true }
    have issued : Effects net licence ⟨s, ⟨packet.data, .inside n⟩ :: hand⟩ ⟨{ s with
        drawn := s.drawn + 1 }, ⟨packet.data, .inside n⟩ :: ⟨copy, .fresh⟩ :: hand⟩ :=
      one (.issue s copy s.nextTransmitNumber [⟨packet.data, .inside n⟩] hand rfl)
    generalize ({ s with drawn := s.drawn + 1 } : State) = drawn at issued panics ⊢
    have original (returns : (drawn.enqueueOutbound n packet).2 = .panicked → licence.lossy) :
        Effects net licence ⟨drawn, ⟨packet.data, .inside n⟩ :: ⟨copy, .fresh⟩ :: hand⟩
          ⟨(drawn.enqueueOutbound n packet).1, ⟨copy, .fresh⟩ :: hand⟩ :=
      enqueueOutbound_effects drawn n packet _ returns
    generalize drawn.enqueueOutbound n packet = entered at original panics ⊢
    obtain ⟨s', exit⟩ := entered
    cases exit with
    | panicked =>
        have lost : licence.lossy := panics rfl
        exact (issued.trans (original fun _ => lost)).tail (.forget s' _ hand lost)
    | returned =>
        have tracked := issued.trans (original (by simp))
        refine (tracked.tail (.duplicate s' n copy hand known)).trans ?_
        exact enqueueOutbound_effects _ n { packet with data := copy } hand panics
  · next unasked =>
    simp only [if_neg unasked] at panics
    exact enqueueOutbound_effects s n packet hand panics

theorem forward_effects (s : State) (n : NodeId) (data : InTransitData) (stage : Stage)
    (roll : Nat) (hand : List Held) (reaches : s.Reaches net n stage)
    (panics : ((s.takeUp data stage).forward net n data roll).2 = .panicked → licence.lossy) :
    Effects net licence ⟨s, ⟨data, stage⟩ :: hand⟩
      ⟨((s.takeUp data stage).forward net n data roll).1, hand⟩ := by
  have status : ((s.takeUp data stage).nodes n).isDown = (s.nodes n).isDown := by
    cases stage <;> rfl
  rw [forward] at panics ⊢
  split
  · next down => exact one (.refuse s n data stage hand reaches (status ▸ down))
  next up =>
  rw [if_neg up] at panics
  dsimp only at panics ⊢
  have entered : Effects net licence ⟨s, ⟨data, stage⟩ :: hand⟩
      ⟨(s.takeUp data stage).trackPacketInNode n data, ⟨data, .inside n⟩ :: hand⟩ :=
    one (.enter s n data stage hand reaches (by simpa [status] using up))
  generalize (s.takeUp data stage).trackPacketInNode n data = s' at entered panics ⊢
  split
  · exact entered.tail (.deliver s' n data hand)
  next onward =>
  rw [if_neg onward] at panics
  have aged := entered.tail (.retouch s' data
    { data with transmit := { data.transmit with ttl := data.transmit.ttl - 1 } } (.inside n) hand
    rfl rfl)
  split
  · exact aged.tail (.drop s' n _ .zeroTtl hand (by simp))
  next alive =>
  rw [if_neg alive] at panics
  split
  · exact aged.tail (.drop s' n _ .random hand (by simp))
  next kept =>
  rw [if_neg kept] at panics
  exact aged.trans (enqueueWithDuplicate_effects s' n ⟨s'.now, _⟩ _ hand reaches.knows panics)

theorem sendUdp_effects (s : State) (n : NodeId) (transmit : OwnedTransmit) (roll : Nat)
    (member : n ∈ net.nodeIds) (panics : (s.sendUdp net n transmit roll).2 = .panicked → licence.lossy) :
    Effects net licence ⟨s, []⟩ ⟨(s.sendUdp net n transmit roll).1, []⟩ := by
  rw [sendUdp] at panics ⊢
  dsimp only [inTransitData, newPacketId] at panics ⊢
  generalize made : (⟨net.uuids s.drawn, false, n, transmit, s.nextTransmitNumber⟩ :
    InTransitData) = data at panics ⊢
  have issued : Effects net licence ⟨s, []⟩ ⟨{ s with
      drawn := s.drawn + 1, nextTransmitNumber := s.nextTransmitNumber + 1 }, [⟨data, .fresh⟩]⟩ :=
    one (.issue s data (s.nextTransmitNumber + 1) [] [] (by simp [← made]))
  exact issued.trans (forward_effects _ n data .fresh roll [] member panics)

/-! Network events. -/

theorem changeLinkDelay_effects (s : State) (l : LinkId) (delay : Nat) :
    Effects net licence ⟨s, []⟩ ⟨s.changeLinkDelay l delay, []⟩ := by
  rw [changeLinkDelay]
  split
  · exact still (.modifyLink s l rfl rfl rfl rfl)
  · exact .refl

theorem updateLinkStatus_effects (s : State) (l : LinkId) (status : UpdateLinkStatus) :
    Effects net licence ⟨s, []⟩ ⟨s.updateLinkStatus l status, []⟩ := by
  rw [updateLinkStatus]
  split
  · next down =>
    simp only [Switch.goesDown, Bool.and_eq_true, Bool.not_eq_true', decide_eq_true_eq] at down
    exact down.2 ▸ one (.outage s l [] down.1)
  · next same =>
    exact still (.modifyLink s l (by simp [LinkState.updateStatus, same]) rfl rfl rfl)

theorem processLinkEvent_effects (s : State) (event : LinkEventPayload) :
    Effects net licence ⟨s, []⟩ ⟨s.processLinkEvent net event, []⟩ := by
  rw [processLinkEvent]
  split
  · exact .refl
  next member =>
  have delayed : Effects net licence ⟨s, []⟩
      ⟨event.delay.elim s (s.changeLinkDelay event.linkId), []⟩ := by
    cases event.delay with
    | none => exact .refl
    | some delay => exact changeLinkDelay_effects s event.linkId delay
  generalize event.delay.elim s (s.changeLinkDelay event.linkId) = s' at delayed
  have switched : Effects net licence ⟨s', []⟩
      ⟨event.status.elim s' (s'.updateLinkStatus event.linkId), []⟩ := by
    cases event.status with
    | none => exact .refl
    | some status => exact updateLinkStatus_effects s' event.linkId status
  exact (delayed.trans switched).tail (.event _ ⟨some event, none⟩ []
    (by simpa using member) (by simp))

theorem processNodeEvent_effects (s : State) (event : NodeEventPayload) :
    Effects net licence ⟨s, []⟩ ⟨s.processNodeEvent net event, []⟩ := by
  rw [processNodeEvent]
  dsimp only
  split
  · exact .refl
  next member =>
  have switched : Effects net licence ⟨s, []⟩ ⟨event.status.elim s fun status =>
      s.modifyNode event.nodeId (·.updateStatus status), []⟩ := by
    cases event.status with
    | none => exact .refl
    | some status =>
        change Effects net licence _ ⟨s.modifyNode event.nodeId (·.updateStatus status), []⟩
        exact still (.modifyNode s event.nodeId rfl rfl fun _ => rfl)
  generalize (event.status.elim s fun status =>
    s.modifyNode event.nodeId (·.updateStatus status)) = s' at switched ⊢
  have cleared : Effects net licence ⟨s', []⟩ ⟨if event.clearBuffer then
      s'.modifyNode event.nodeId (·.clearBuffer s'.now) else s', []⟩ := by
    split
    · exact still (.modifyNode s' event.nodeId rfl rfl fun _ => rfl)
    · exact .refl
  exact (switched.trans cleared).tail (.event _ ⟨none, some event⟩ []
    (by simp) (by simpa using member))

/-! The buffer processor. -/

theorem Pushed.none (n : NodeId) (packet : BufferedPacket) (flag : Nat) {links : List LinkId}
    {s : State} (complete : links = [] ∨
      ∃ l ∈ links, (s.links l).outgoingQueue.receiverAlive = false) :
    Pushed n packet flag links s s := by
  refine ⟨rfl, rfl, rfl, rfl, rfl, rfl, rfl, fun l => ⟨[], by simp, by simp⟩, ?_⟩
  rcases complete with empty | gone
  · exact .inl (by simp [empty])
  · exact .inr gone

theorem Pushed.push {n : NodeId} {packet : BufferedPacket} {flag : Nat} {links : List LinkId}
    {l : LinkId} {k : OutgoingPacket} {s s' : State}
    (copy : k.handled = flag ∧ k.srcNode = n ∧ k.data = packet.data ∧
      k.inNodeSince = packet.inNodeSince)
    (pushed : Pushed n packet flag links (s.modifyLink l ({ · with
      outgoingQueue := { (s.links l).outgoingQueue with messages := s.outgoing l ++ [k] } })) s') :
    Pushed n packet flag (l :: links) s s' := by
  refine ⟨pushed.now, pushed.sockets, pushed.dispatches, pushed.drawn, pushed.log,
    pushed.panicked, pushed.nodes, fun l' => ?_, ?_⟩
  · obtain ⟨new, queue, copies⟩ := pushed.queues l'
    by_cases same : l' = l
    · subst same
      refine ⟨k :: new, by simpa [outgoing] using queue, fun k' member => ?_⟩
      rcases List.mem_cons.mp member with rfl | member
      · exact ⟨List.mem_cons_self, copy⟩
      · exact ⟨List.mem_cons_of_mem _ (copies k' member).1, (copies k' member).2⟩
    · refine ⟨new, by simpa [outgoing, modifyLink_of_ne _ _ same] using queue, fun k' member => ?_⟩
      exact ⟨List.mem_cons_of_mem _ (copies k' member).1, (copies k' member).2⟩
  · rcases pushed.complete with all | ⟨l', member, gone⟩
    · refine .inl fun l' member => ?_
      rcases List.mem_cons.mp member with rfl | member
      · obtain ⟨new, queue, -⟩ := pushed.queues l'
        exact ⟨k, by simp [outgoing, queue], copy.1⟩
      · exact all l' member
    · refine .inr ⟨l', List.mem_cons_of_mem _ member, ?_⟩
      by_cases same : l' = l
      · subst same
        simpa using gone
      · simpa [modifyLink_of_ne _ _ same] using gone

theorem pushCopies_pushed (net : InMemoryNetwork) (n : NodeId) (packet : BufferedPacket) (flag : Nat)
    (preferredLinks links : List LinkId) (rolls : List (Nat × Nat)) (s : State) :
    Pushed n packet flag links s
      (pushCopies net n packet flag preferredLinks links rolls s).1 := by
  induction links generalizing rolls s with
  | nil => exact .none n packet flag (.inl rfl)
  | cons l links ih =>
      rw [pushCopies]
      split
      · next failed =>
        exact .none n packet flag (.inr ⟨l, List.mem_cons_self, Channel.unboundedSend_none failed⟩)
      · next outgoingQueue sent =>
        rw [Channel.unboundedSend_some sent]
        exact .push ⟨rfl, rfl, rfl, rfl⟩ (ih _ _)

theorem dispatch_effects (s : State) (n : NodeId) (packet : BufferedPacket)
    (rest : List BufferedPacket) (links : List LinkId) (rolls : List (Nat × Nat))
    (member : n ∈ net.nodeIds) (queued : (s.nodes n).outbound.messages = packet :: rest)
    (some : links ≠ [])
    (panics : ((s.takeBuffered n rest).dispatch net n packet links rolls).panicked = true → licence.lossy) :
    Effects net licence ⟨s, []⟩
      ⟨(s.takeBuffered n rest).dispatch net n packet links rolls, []⟩ := by
  rw [dispatch] at panics ⊢
  have pushed := pushCopies_pushed net n packet s.dispatches.length links links rolls
    ((s.takeBuffered n rest).openDispatch n packet links)
  change State.Pushed _ _ _ _ _ (pushCopies net n packet (s.takeBuffered n rest).dispatches.length
    links links rolls _).1 at pushed
  generalize pushCopies net n packet (s.takeBuffered n rest).dispatches.length links links rolls
    ((s.takeBuffered n rest).openDispatch n packet links) = result at pushed panics ⊢
  obtain ⟨s', exit⟩ := result
  have dispatched : Effects net licence ⟨s, []⟩ ⟨s', []⟩ :=
    one (.dispatch n packet rest links [] member queued some pushed)
  cases exit with
  | returned => exact dispatched
  | panicked =>
      have lost : licence.lossy := panics rfl
      exact (dispatched.tail (.endBuffer s' n [] lost)).tail (.crash _ [] lost)

theorem endBufferProcessor_takeBuffered (s : State) (n : NodeId) (rest : List BufferedPacket) :
    (s.takeBuffered n rest).endBufferProcessor n = s.endBufferProcessor n := by
  simp [endBufferProcessor, takeBuffered, modifyNode, Channel.dropReceiver]

/-- A round of a buffer processor ends it, or pushes copies of a packet, and ends it
where it could not push one of them. -/
theorem processBuffer_cases {s s' : State} {n : NodeId} {rolls : List (Nat × Nat)}
    (taken : s.processBuffer net n rolls = some s') :
    ∃ packet rest, (s.nodes n).outbound.messages = packet :: rest ∧
      (s' = s.endBufferProcessor n ∨ ∃ links t,
        net.candidateLinks n packet.data.transmit.destination.ip = .ok links ∧
        t = (pushCopies net n packet s.dispatches.length links links rolls
          ((s.takeBuffered n rest).openDispatch n packet links)).1 ∧
        (s' = t ∨ s' = { t.endBufferProcessor n with panicked := true })) := by
  unfold processBuffer at taken
  split at taken
  · cases taken
  next packet rest queued =>
  refine ⟨packet, rest, queued, ?_⟩
  dsimp only at taken
  split at taken
  · next links routed walked =>
      obtain rfl := Option.some.inj taken
      refine .inr ⟨links, _, walked, rfl, ?_⟩
      unfold dispatch
      have same : (s.takeBuffered n rest).dispatches.length = s.dispatches.length := rfl
      rw [same]
      generalize pushCopies net n packet s.dispatches.length links links rolls
        ((s.takeBuffered n rest).openDispatch n packet links) = result
      obtain ⟨t, exit⟩ := result
      cases exit with
      | returned => exact .inl rfl
      | panicked => exact .inr rfl
  · rw [← Option.some.inj taken, endBufferProcessor_takeBuffered]
    exact .inl rfl

theorem processBuffer_effects {s s' : State} {n : NodeId} {rolls : List (Nat × Nat)}
    (member : n ∈ net.nodeIds) (taken : s.processBuffer net n rolls = some s')
    (lost : (s'.panicked = true ∨ ∃ packet ∈ (s.nodes n).outbound.messages.head?,
      ¬ net.Routable n packet.data.transmit.destination.ip) → licence.lossy) :
    Effects net licence ⟨s, []⟩ ⟨s', []⟩ := by
  rw [processBuffer] at taken
  split at taken
  · simp at taken
  next packet rest queued =>
  have routing (routable : ¬ net.Routable n packet.data.transmit.destination.ip)
      (ends : s' = s.endBufferProcessor n) : Effects net licence ⟨s, []⟩ ⟨s', []⟩ :=
    ends ▸ one (.endBuffer s n [] (lost (.inr ⟨packet, by simp [queued], routable⟩)))
  dsimp only at taken
  split at taken
  · next links routed walked =>
    obtain rfl := Option.some.inj taken
    have routable := InMemoryNetwork.routable_iff.mpr ⟨routed, links, walked⟩
    exact dispatch_effects s n packet rest links rolls member queued
      (routable.candidateLinks_ne_nil walked) fun panicked => lost (.inl panicked)
  · next failed =>
    refine routing (fun routable => ?_) ?_
    · obtain ⟨routed, links, walked⟩ := InMemoryNetwork.routable_iff.mp routable
      exact failed links routed walked
    · rw [← Option.some.inj taken, endBufferProcessor_takeBuffered]

/-! The queue task of a link. -/

/-- What a resumed task of a link has done. -/
inductive Resumes (s : State) (l : LinkId) : Resumed → Prop where
  | blocked : Resumes s l .blocked
  | waits {t : State} (quiet : s.Quiet t) : Resumes s l (.waits t)
  | ready {t : State} {k : OutgoingPacket} (takes : s.Takes t l k) : Resumes s l (.ready t k)
  | panics {t : State} (works : Works s t l) (alive : (s.links l).task ≠ .panicked) :
      Resumes s l (.panics t)

theorem Resumed.Continues.resumes {s u : State} {l : LinkId} {packet : OutgoingPacket}
    {rest : List OutgoingPacket} {resumed : Resumed} (works : Works s u l)
    (receiver : (u.links l).outgoingQueue.receiverAlive = (s.links l).outgoingQueue.receiverAlive)
    (alive : (s.links l).task ≠ .panicked) (copies : (s.links l).copies = packet :: rest)
    (queued : u.outgoing l = rest) (continues : resumed.Continues u l packet) :
    Resumes s l resumed := by
  cases resumed with
  | blocked => exact continues.elim
  | waits t =>
      obtain ⟨more, queue, held, holds, same⟩ := continues
      refine .waits (.of_works (works.trans more) (by rw [queue, receiver]) alive ?_ ?_)
      · intro panicked
        simp [panicked, QueueTask.packet?] at holds
      · rw [copies, LinkState.copies, holds, queue]
        exact .cons same (queued ▸ OutgoingPacket.SameCopy.refl_all _)
  | ready t k =>
      obtain ⟨more, queue, idle, same⟩ := continues
      refine .ready ⟨works.trans more, alive, idle, by rw [queue, receiver], packet, same, ?_⟩
      rw [copies, outgoing, queue, ← queued]
  | panics t => exact .panics (works.trans continues.1) alive

theorem resume_resumes (net : InMemoryNetwork) (s : State) (l : LinkId) :
    Resumes s l (s.resume net l) := by
  rcases resume_cases net s l with blocked | ⟨packet, holds, continues⟩ |
    ⟨packet, rest, idle, queued, continues⟩
  · exact blocked ▸ .blocked
  · refine continues.resumes (.refl s l) rfl (fun panicked => ?_) ?_ rfl
    · simp [panicked, QueueTask.packet?] at holds
    · rw [LinkState.copies, holds, Option.toList_some, List.singleton_append]
  · refine continues.resumes (.modifyLink s l rfl rfl rfl rfl rfl) (by simp) (by simp [idle]) ?_
      (show State.outgoing _ l = rest by simp [outgoing])
    · rw [LinkState.copies, idle, ← outgoing, queued, QueueTask.packet?, Option.toList_none,
        List.nil_append]

/-- The packet that is sent carries what its copy says. -/
theorem send_carry {s s' : State} {l : LinkId} {k : OutgoingPacket}
    (sent : s.send net l k.srcNode k.data k.anomalies = some s') :
    ∃ data pacer, (s.links l).isDown = false ∧ k.anomalies.mark k.data = some data ∧
      s' = s.carry l k data pacer := by
  simp only [send] at sent
  split at sent
  · simp at sent
  split at sent
  · simp at sent
  next ready =>
  obtain ⟨data, marked, sent⟩ := Option.bind_eq_some_iff.mp sent
  obtain ⟨pacer, tracked, sent⟩ := Option.bind_eq_some_iff.mp sent
  refine ⟨data, pacer, ?_, marked, (Option.some.inj sent).symm⟩
  simp only [Bool.or_eq_true, not_or, Bool.not_eq_true] at ready
  exact ready.2

theorem handle_effects {s t : State} {l : LinkId} {k : OutgoingPacket} (member : l ∈ net.linkIds)
    (takes : s.Takes t l k) (panics : (t.handle net l k).panicked = true → licence.lossy)
    (clears : s.handled k.handled = false → s.clearedFromBuffer k = true → licence.clearing) :
    Effects net licence ⟨s, []⟩ ⟨t.handle net l k, []⟩ := by
  have works := takes.works
  have flag : t.handled k.handled = s.handled k.handled := by
    simp only [handled, works.dispatches]
  rw [handle, flag] at panics ⊢
  split
  · next handled => exact one (.discard [] takes handled)
  next unhandled =>
  rw [if_neg unhandled] at panics
  rw [Bool.not_eq_true] at unhandled
  have same : (t.modifyDispatch k.handled ({ · with handled := true })).clearedFromBuffer k =
      s.clearedFromBuffer k := by
    simp only [clearedFromBuffer, modifyDispatch, works.nodes]
  dsimp only at panics ⊢
  rw [same] at panics ⊢
  split
  · next cleared => exact one (.clear [] takes unhandled cleared (clears unhandled cleared))
  next kept =>
  rw [if_neg kept] at panics
  split
  · next s' sent =>
    obtain ⟨data, pacer, up, marked, rfl⟩ := send_carry sent
    refine one (.send data pacer [] member takes unhandled (by simpa using kept) ?_ marked)
    rw [← up, LinkState.isDown, LinkState.isDown, ← works.status]
    rfl
  · next failed =>
    rw [failed] at panics
    exact one (.sendPanics [] takes unhandled (panics rfl))

theorem pollLink_effects {s s' : State} {l : LinkId} (member : l ∈ net.linkIds)
    (taken : s.pollLink net l = some s') (panics : s'.panicked = true → licence.lossy)
    (clears : ∀ t k, s.resume net l = .ready t k → s.handled k.handled = false →
      s.clearedFromBuffer k = true → licence.clearing) :
    Effects net licence ⟨s, []⟩ ⟨s', []⟩ := by
  rw [pollLink] at taken
  have resumes := resume_resumes net s l
  cases resumed : s.resume net l with
  | blocked => simp [resumed] at taken
  | waits t =>
      rw [resumed] at taken resumes
      obtain rfl := Option.some.inj taken
      cases resumes with
      | waits quiet => exact still quiet
  | ready t k =>
      rw [resumed] at taken resumes
      obtain rfl := Option.some.inj taken
      cases resumes with
      | ready takes => exact handle_effects member takes panics (clears t k resumed)
  | panics t =>
      rw [resumed] at taken resumes
      obtain rfl := Option.some.inj taken
      cases resumes with
      | panics works alive => exact one (.taskPanics l [] works alive (panics rfl))

/-! The forwarder of a link. -/

theorem arrive_effects (s : State) (l : LinkId) (transmit : DeliveredTransmit) (roll : Nat)
    (hand : List Held) (member : l ∈ net.linkIds)
    (panics : (s.arrive net l transmit roll).2 = .panicked → licence.lossy) :
    Effects net licence ⟨s, ⟨transmit.data, .flying l transmit.sent⟩ :: hand⟩
      ⟨(s.arrive net l transmit roll).1, hand⟩ := by
  rw [arrive] at panics ⊢
  split
  · next down => exact one (.lose s l transmit.data transmit.sent hand down)
  next up =>
  rw [if_neg up] at panics
  have up : (s.links l).wasDownAfter transmit.sent = false := Bool.not_eq_true _ ▸ up
  split
  · next nowhere =>
    simp only [nowhere, true_implies] at panics
    exact one (.strand s l transmit.data transmit.sent hand up nowhere panics)
  · next node found =>
    simp only [found] at panics
    exact forward_effects s node transmit.data (.flying l transmit.sent) roll hand
      ⟨member, found, up⟩ panics

theorem setForwarder_quiet (s : State) (l : LinkId) (forwarder : Forwarder) :
    s.Quiet (s.setForwarder l forwarder) := .modifyLink s l rfl rfl rfl rfl

theorem arriveAll_effects (l : LinkId) (delivered : List DeliveredTransmit) (rolls : List Nat)
    (s : State) (member : l ∈ net.linkIds)
    (panics : (arriveAll net l delivered rolls s).panicked = true → licence.lossy) :
    Effects net licence ⟨s, delivered.map fun t => ⟨t.data, .flying l t.sent⟩⟩
      ⟨arriveAll net l delivered rolls s, []⟩ := by
  induction delivered generalizing rolls s with
  | nil => exact still (setForwarder_quiet s l .new)
  | cons transmit delivered ih =>
      rw [arriveAll] at panics ⊢
      rw [List.map_cons]
      have arrived (panicked : (s.arrive net l transmit (rolls.headD 0)).2 = .panicked → licence.lossy) :
          Effects net licence ⟨s, ⟨transmit.data, .flying l transmit.sent⟩ ::
              delivered.map fun t => ⟨t.data, .flying l t.sent⟩⟩
            ⟨(s.arrive net l transmit (rolls.headD 0)).1,
              delivered.map fun t => ⟨t.data, .flying l t.sent⟩⟩ :=
        arrive_effects s l transmit (rolls.headD 0) _ member panicked
      generalize s.arrive net l transmit (rolls.headD 0) = result at arrived panics ⊢
      obtain ⟨s', exit⟩ := result
      cases exit with
      | returned => exact (arrived (by simp)).trans (ih rolls.tail s' panics)
      | panicked =>
          have lost : licence.lossy := panics rfl
          have forgotten : Effects net licence
              ⟨s', delivered.map fun t => ⟨t.data, .flying l t.sent⟩⟩ ⟨s', []⟩ := by
            simpa using forgetAll lost s' (delivered.map fun t => ⟨t.data, .flying l t.sent⟩) []
          exact (((arrived fun _ => lost).trans forgotten).trans
            (still (setForwarder_quiet s' l _))).tail (.crash _ [] lost)

theorem pollForwarder_effects {s s' : State} {l : LinkId} {ties rolls : List Nat}
    (member : l ∈ net.linkIds) (taken : s.pollForwarder net l ties rolls = some s')
    (panics : s'.panicked = true → licence.lossy) : Effects net licence ⟨s, []⟩ ⟨s', []⟩ := by
  rw [pollForwarder] at taken
  split at taken
  · simp at taken
  split at taken
  · next delivery inTransit polled =>
    obtain rfl := Option.some.inj taken
    exact still (.modifyLink s l rfl (NextPacketDelivery.poll_pending polled) rfl rfl)
  · next delivered delivery inTransit polled =>
    obtain rfl := Option.some.inj taken
    have moved := (NextPacketDelivery.poll_ready polled).1
    exact .head (.collect s l delivered inTransit ⟨true, delivery⟩ member moved)
      (arriveAll_effects l delivered rolls _ member panics)

/-! The readers of a node. -/

theorem readAll_effects (n : NodeId) (bufferSize : Nat) (delivered : List DeliveredTransmit)
    (hand : List Held) (s : State) (panics : (readAll n bufferSize delivered s).panicked = true →
      licence.lossy) :
    Effects net licence ⟨s, (delivered.map fun t => ⟨t.data, .inside n⟩) ++ hand⟩
      ⟨readAll n bufferSize delivered s, hand⟩ := by
  induction delivered generalizing s with
  | nil => exact .refl
  | cons transmit delivered ih =>
      rw [readAll] at panics ⊢
      have tracked : Effects net licence
          ⟨s, ((transmit :: delivered).map fun t => ⟨t.data, .inside n⟩) ++ hand⟩
          ⟨s.trackReadByApplication n transmit.data,
            (delivered.map fun t => ⟨t.data, .inside n⟩) ++ hand⟩ :=
        one (.read s n transmit.data _)
      split
      · next small =>
        simp only [if_pos small, true_implies] at panics
        exact (tracked.trans (forgetAll panics _ _ hand)).tail (.crash _ hand panics)
      · next fits =>
        rw [if_neg fits] at panics
        exact tracked.trans (ih _ panics)

theorem setEndpoint_quiet (s : State) (n : NodeId) (port : Port) {queue : InboundQueue}
    (same : queue.queue = ((s.nodes n).udpEndpoints port).queue) :
    s.Quiet (s.setEndpoint n port queue) := by
  refine .modifyNode s n rfl rfl fun port' => ?_
  by_cases this : port' = port
  · subst this
    simpa using same
  · simp [Function.update_of_ne this]

theorem pollRecv_effects (s : State) (n : NodeId) (port : Port) (bufferSize : Nat)
    (ties : List Nat) (member : n ∈ net.nodeIds)
    (lost : ((s.pollRecv n port (licence.slots n port) bufferSize ties).panicked = true ∨
      ∃ delivery, s.sockets n port = some delivery ∧ delivery.maxTransmits ≠ licence.slots n port) →
        licence.lossy) :
    Effects net licence ⟨s, []⟩
      ⟨s.pollRecv n port (licence.slots n port) bufferSize ties, []⟩ := by
  rw [pollRecv] at lost ⊢
  generalize stored : (s.sockets n port).getD (.new (licence.slots n port)) = delivery at lost ⊢
  have size := delivery.poll_maxTransmits ((s.nodes n).udpEndpoints port) s.now ties 0
  generalize polled : delivery.poll ((s.nodes n).udpEndpoints port) s.now ties 0 = result
    at size lost ⊢
  obtain ⟨outcome, delivery', queue⟩ := result
  have settled (hand : List Held) : Effects net licence ⟨s.setEndpoint n port queue, hand⟩
      ⟨{ s.setEndpoint n port queue with
        sockets := Function.update s.sockets n
          (Function.update (s.sockets n) port (some delivery')) }, hand⟩ :=
    one (.socket _ n port delivery' hand (by rw [size, ← stored]; rfl))
  cases outcome with
  | pending =>
      exact (still (setEndpoint_quiet s n port (NextPacketDelivery.poll_pending polled))).trans
        (settled [])
  | ready delivered =>
      have moved := (NextPacketDelivery.poll_ready polled).1
      have fetched := (one (.fetch s n port delivered queue member moved)).trans (settled _)
      refine fetched.trans ?_
      have parts : (delivered.map fun t => (⟨t.data, .inside n⟩ : Held)) =
          ((delivered.take (licence.slots n port)).map fun t => ⟨t.data, .inside n⟩) ++
            (delivered.drop (licence.slots n port)).map fun t => ⟨t.data, .inside n⟩ := by
        rw [← List.map_append, List.take_append_drop]
      rw [parts]
      refine (readAll_effects n bufferSize _ _ _ fun panicked => lost (.inl panicked)).trans ?_
      by_cases fits : delivery.maxTransmits = licence.slots n port
      · have all : delivered.drop (licence.slots n port) = [] :=
          List.drop_eq_nil_of_le (fits ▸ NextPacketDelivery.poll_length polled)
        rw [all]
        exact .refl
      · have lost : licence.lossy := by
          cases found : s.sockets n port with
          | none =>
              rw [found] at stored
              exact absurd (stored ▸ rfl) fits
          | some other =>
              rw [found] at stored
              exact lost (.inr ⟨delivery, stored ▸ found, fits⟩)
        simpa using forgetAll lost _ (delivered.drop (licence.slots n port) |>.map _) []

theorem checkAll_effects (n : NodeId) (delivered : List DeliveredTransmit) (s : State) :
    Effects net licence ⟨s, delivered.map fun t => ⟨t.data, .inside n⟩⟩
      ⟨delivered.foldl (fun s t => s.note (.checked n t.data.id)) s, []⟩ := by
  induction delivered generalizing s with
  | nil => exact .refl
  | cons transmit delivered ih => exact .head (.check s n transmit.data _) (ih _)

theorem checkReceive_effects (s : State) (n : NodeId) (port : Port) (ties : List Nat)
    (member : n ∈ net.nodeIds) :
    Effects net licence ⟨s, []⟩ ⟨s.checkReceive n port ties, []⟩ := by
  rw [checkReceive]
  generalize polled : (NextPacketDelivery.new 1).poll ((s.nodes n).udpEndpoints port) s.now ties 0 =
    result
  obtain ⟨outcome, delivery, queue⟩ := result
  cases outcome with
  | pending => exact still (setEndpoint_quiet s n port (NextPacketDelivery.poll_pending polled))
  | ready delivered =>
      have moved := (NextPacketDelivery.poll_ready polled).1
      exact .head (.fetch s n port delivered queue member moved) (checkAll_effects n delivered _)

end State

/-! Steps. -/

/-- The action reads a socket with its number of slots. -/
def Action.Reads (slots : NodeId → Port → Nat) : Action → Prop
  | .pollRecv n port count _ _ => count = slots n port
  | _ => True

instance (slots : NodeId → Port → Nat) (action : Action) : Decidable (action.Reads slots) :=
  match action with
  | .pollRecv n port count _ _ => inferInstanceAs (Decidable (count = slots n port))
  | .advance _ | .linkEvent _ | .nodeEvent _ | .sendUdp .. | .processBuffer .. | .pollLink _
  | .pollForwarder .. | .checkReceive .. => isTrue trivial

def Action.slots (action : Action) : NodeId → Port → Nat := fun _ _ =>
  match action with
  | .pollRecv _ _ count _ _ => count
  | _ => 0

theorem Action.reads_slots (action : Action) : action.Reads action.slots := by
  cases action <;> first | exact trivial | rfl

/-- What can lose a packet in a step: a panic, a packet without a route or with a
route without a link, and a socket read with another number of slots than at first. -/
def State.Lossy (net : InMemoryNetwork) (slots : NodeId → Port → Nat) (s : State)
    (action : Action) (s' : State) : Prop :=
  s'.panicked = true ∨
  (∃ n rolls packet, action = .processBuffer n rolls ∧
    (s.nodes n).outbound.messages.head? = some packet ∧
    ¬ net.Routable n packet.data.transmit.destination.ip) ∨
  ∃ n port delivery, s.sockets n port = some delivery ∧ delivery.maxTransmits ≠ slots n port

/-- The step drops a packet because of a buffer clear. -/
def State.Clears (net : InMemoryNetwork) (s : State) (action : Action) : Prop :=
  ∃ l t k, action = .pollLink l ∧ s.resume net l = .ready t k ∧
    s.handled k.handled = false ∧ s.clearedFromBuffer k = true

theorem State.clears_pollLink {s : State} {l : LinkId} : s.Clears net (.pollLink l) ↔
    (match s.resume net l with
      | .ready _ k => !s.handled k.handled && s.clearedFromBuffer k
      | _ => false) = true := by
  unfold State.Clears
  cases resumed : s.resume net l <;> simp [resumed]

instance (s : State) : DecidablePred (s.Clears net)
  | .pollLink _ => decidable_of_iff _ State.clears_pollLink.symm
  | .advance _ | .sendUdp .. | .processBuffer .. | .pollForwarder .. | .pollRecv .. | .checkReceive ..
  | .linkEvent _ | .nodeEvent _ => isFalse fun ⟨_, _, _, same, _⟩ => by cases same

open Effects State in
/-- A step is a chain of effects, which only lose packets in a lossy step. -/
theorem State.step_effects {s s' : State} {action : Action} (taken : s.step net action = some s')
    (reads : action.Reads licence.slots)
    (lost : s.Lossy net licence.slots action s' → licence.lossy)
    (clears : s.Clears net action → licence.clearing) :
    Effects net licence ⟨s, []⟩ ⟨s', []⟩ := by
  have panics (panicked : s'.panicked = true) : licence.lossy := lost (.inl panicked)
  cases action with
  | advance duration =>
      obtain rfl := Option.some.inj taken
      exact still ⟨Nat.le_add_right _ _, rfl, rfl, rfl, rfl, rfl, fun _ => rfl, fun _ => rfl,
        fun _ _ => rfl, fun _ => rfl, fun _ => rfl, fun _ => rfl, fun _ => .rfl,
        fun _ => OutgoingPacket.SameCopy.refl_all _⟩
  | linkEvent event => exact Option.some.inj taken ▸ processLinkEvent_effects s event
  | nodeEvent event => exact Option.some.inj taken ▸ processNodeEvent_effects s event
  | sendUdp n transmit roll =>
      -- What the call does before it panics happens all the same; the crash is one more effect.
      simp only [step] at taken
      split at taken
      · simp at taken
      next member =>
      have sent (panicked : (s.sendUdp net n transmit roll).2 = .panicked → licence.lossy) :
          Effects net licence ⟨s, []⟩ ⟨(s.sendUdp net n transmit roll).1, []⟩ :=
        sendUdp_effects s n transmit roll (not_not.mp member) panicked
      generalize s.sendUdp net n transmit roll = result at sent taken
      obtain ⟨s'', exit⟩ := result
      cases exit with
      | returned => exact Option.some.inj taken ▸ sent (by simp)
      | panicked =>
          obtain rfl := Option.some.inj taken
          exact (sent fun _ => panics rfl).tail (.crash s'' [] (panics rfl))
  | processBuffer n rolls =>
      simp only [step] at taken
      split at taken
      · simp at taken
      next member =>
      refine processBuffer_effects (not_not.mp member) taken fun cause => lost ?_
      rcases cause with panicked | ⟨packet, first, unroutable⟩
      · exact .inl panicked
      · exact .inr (.inl ⟨n, rolls, packet, rfl, first, unroutable⟩)
  | pollLink l =>
      simp only [step] at taken
      split at taken
      · simp at taken
      next member =>
      exact pollLink_effects (not_not.mp member) taken panics fun t k resumed opened cleared =>
        clears ⟨l, t, k, rfl, resumed, opened, cleared⟩
  | pollForwarder l ties rolls =>
      simp only [step] at taken
      split at taken
      · simp at taken
      next member => exact pollForwarder_effects (not_not.mp member) taken panics
  | pollRecv n port count bufferSize ties =>
      simp only [step] at taken
      split at taken
      · simp at taken
      next member =>
      obtain rfl := Option.some.inj taken
      obtain rfl : count = licence.slots n port := reads
      refine pollRecv_effects s n port bufferSize ties (not_not.mp member) fun cause => lost ?_
      rcases cause with panicked | ⟨delivery, stored, differs⟩
      · exact .inl panicked
      · exact .inr (.inr ⟨n, port, delivery, stored, differs⟩)
  | checkReceive n port ties =>
      simp only [step] at taken
      split at taken
      · simp at taken
      next member =>
      exact Option.some.inj taken ▸ checkReceive_effects s n port ties (not_not.mp member)

/-- What every effect keeps of a network with no packet in hand, every step keeps. -/
theorem State.step_kept {s s' : State} {action : Action} (taken : s.step net action = some s')
    (Holds : Moment → Prop) (holds : Holds ⟨s, []⟩)
    (kept : ∀ licence m m', Holds m → Effect net licence m m' → Holds m') : Holds ⟨s', []⟩ := by
  let licence : Licence := ⟨action.slots, True, True⟩
  have effects : Effects net licence ⟨s, []⟩ ⟨s', []⟩ :=
    step_effects taken action.reads_slots (fun _ => trivial) fun _ => trivial
  exact effects.invariant Holds holds (kept licence)

end Workbench.Network
