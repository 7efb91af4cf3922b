import Workbench.Network.Decomposition

/-! The calls of `send`, and what becomes of the task of a link between its polls. -/

set_option autoImplicit false

namespace Workbench.Network

/-- A call of `send`: a link and the copy it sends, in the state of the call. -/
structure SendCall where
  state : State
  link : LinkId
  packet : OutgoingPacket

namespace SendCall

def source (call : SendCall) : NodeState := call.state.nodes call.packet.srcNode

def carrier (call : SendCall) : LinkState := call.state.links call.link

def result (net : InMemoryNetwork) (call : SendCall) : Option State :=
  call.state.send net call.link call.packet.srcNode call.packet.data call.packet.anomalies

end SendCall

namespace State

variable {net : InMemoryNetwork} {s s' t : State} {l : LinkId} {k : OutgoingPacket}

/-- The call of `send` that a step makes, if it makes one. -/
def sendCall (net : InMemoryNetwork) (s : State) : Action → Option SendCall
  | .pollLink l =>
    if l ∉ net.linkIds then none
    else match s.resume net l with
      | .ready t k =>
        if t.handled k.handled ∨ t.clearedFromBuffer k then none
        else some ⟨t.modifyDispatch k.handled ({ · with handled := true }), l, k⟩
      | _ => none
  | _ => none

theorem sendCall_eq_some {action : Action} {call : SendCall} :
    s.sendCall net action = some call ↔ ∃ l t k, action = .pollLink l ∧ l ∈ net.linkIds ∧
      s.resume net l = .ready t k ∧ t.handled k.handled = false ∧
      t.clearedFromBuffer k = false ∧
      call = ⟨t.modifyDispatch k.handled ({ · with handled := true }), l, k⟩ := by
  constructor
  · intro called
    cases action with
    | pollLink l =>
        simp only [sendCall] at called
        split at called
        · cases called
        next member =>
        split at called
        · next t k resumed =>
            split at called
            · cases called
            · next open' =>
                simp only [not_or, Bool.not_eq_true] at open'
                exact ⟨l, t, k, rfl, not_not.mp member, resumed, open'.1, open'.2,
                  (Option.some.inj called).symm⟩
        · cases called
    | _ => cases called
  · rintro ⟨l, t, k, rfl, member, resumed, unhandled, kept, rfl⟩
    simp [sendCall, member, resumed, unhandled, kept]

/-- A step that calls `send` records the act, or ends the task where `send` panics. -/
theorem step_of_sendCall {action : Action} {call : SendCall}
    (called : s.sendCall net action = some call) : s.step net action = some
      (match call.result net with
        | some s => s.noteAct call.packet.handled call.link .sent
        | none => call.state.endQueueTask call.link) := by
  obtain ⟨l, t, k, rfl, member, resumed, unhandled, kept, rfl⟩ := sendCall_eq_some.mp called
  have same : (t.modifyDispatch k.handled ({ · with handled := true })).clearedFromBuffer k =
      t.clearedFromBuffer k := rfl
  unfold step
  dsimp only
  rw [if_neg (not_not.mpr member)]
  unfold pollLink
  rw [resumed]
  dsimp only
  unfold handle
  rw [if_neg (by simp [unhandled])]
  dsimp only
  rw [same, if_neg (by simp [kept])]
  rfl

/-- The state in which a resumed task stops, if it runs at all. -/
def Resumed.state? : Resumed → Option State
  | .blocked => none
  | .waits s | .ready s _ | .panics s => some s

theorem Resumed.Continues.works {packet : OutgoingPacket} {resumed : Resumed}
    (continues : resumed.Continues s l packet) (stops : resumed.state? = some t) : Works s t l := by
  cases resumed with
  | blocked => cases stops
  | waits _ | ready _ _ | panics _ => exact Option.some.inj stops ▸ continues.1

theorem resume_works (stops : (s.resume net l).state? = some t) : Works s t l := by
  rcases resume_cases net s l with blocked | ⟨packet, -, continues⟩ |
    ⟨packet, rest, -, -, continues⟩
  · rw [blocked] at stops
    cases stops
  · exact continues.works stops
  · exact .trans (.modifyLink s l rfl rfl rfl rfl rfl) (continues.works stops)

/-! What a resumed task finds. -/

/-- The task that holds a copy is not to give way to another link any more. -/
def turn (l : LinkId) (k : OutgoingPacket) : Bool := k.preferredLinks.head?.all (· = l)

/-- The task lets go of a copy at its turn, or when another link has handled it. -/
theorem yieldToPreferred_ready {k' : OutgoingPacket}
    (resumed : s.yieldToPreferred l k = .ready t k') :
    k'.SameCopy k ∧ (turn l k = true ∨ s.handled k.handled = true) ∧ t = s.setTask l .idle := by
  unfold yieldToPreferred at resumed
  split at resumed
  · next none =>
      obtain ⟨rfl, rfl⟩ := Resumed.ready.inj resumed
      exact ⟨rfl, .inl (by simp [turn, none]), rfl⟩
  · next preferred rest some =>
      dsimp only at resumed
      split at resumed
      · cases resumed
      · next here =>
          obtain ⟨rfl, rfl⟩ := Resumed.ready.inj resumed
          refine ⟨rfl, ?_, rfl⟩
          by_cases same : l = preferred
          · exact .inl (by simp [turn, some, same])
          · exact .inr (by simpa [same] using here)

theorem ready_of_turn (s : State) (due : turn l k = true) :
    ∃ k', k'.SameCopy k ∧ s.yieldToPreferred l k = .ready (s.setTask l .idle) k' := by
  unfold yieldToPreferred
  split
  · exact ⟨k, rfl, rfl⟩
  · next preferred rest some =>
      obtain rfl : preferred = l := by simpa [turn, some] using due
      exact ⟨{ k with preferredLinks := rest }, rfl, by simp⟩

theorem notifierForUp_none {switch : Switch} : switch.notifierForUp = none ↔ switch.isDown = false := by
  unfold Switch.notifierForUp Switch.isDown
  cases switch.status <;> simp

theorem leaveSleep_ready {k' : OutgoingPacket} (resumed : s.leaveSleep l k = .ready t k') :
    k'.SameCopy k ∧ (turn l k = true ∨ s.handled k.handled = true) ∧
      (t.links l).pacer = (s.links l).pacer := by
  obtain ⟨same, due, rfl⟩ := yieldToPreferred_ready resumed
  exact ⟨same, due, by simp [setTask]⟩

theorem recheckLink_ready {k' : OutgoingPacket} (resumed : s.recheckLink l k = .ready t k') :
    (s.links l).isDown = false ∧ k'.SameCopy k ∧
      (turn l k = true ∨ s.handled k.handled = true) ∧
      (t.links l).pacer = (s.links l).pacer := by
  unfold recheckLink at resumed
  split at resumed
  · next up => exact ⟨notifierForUp_none.mp up, leaveSleep_ready resumed⟩
  · cases resumed

theorem waitForNode_ready {k' : OutgoingPacket} (resumed : s.waitForNode l k = .ready t k') :
    (s.nodes k.srcNode).isDown = false ∧ (s.links l).isDown = false ∧ k'.SameCopy k ∧
      (turn l k = true ∨ s.handled k.handled = true) ∧
      (t.links l).pacer = (s.links l).pacer := by
  unfold waitForNode at resumed
  split at resumed
  · next up => exact ⟨notifierForUp_none.mp up, recheckLink_ready resumed⟩
  · cases resumed

theorem waitForLink_ready {k' : OutgoingPacket} (resumed : s.waitForLink l k = .ready t k') :
    (s.nodes k.srcNode).isDown = false ∧ (s.links l).isDown = false ∧ k'.SameCopy k ∧
      (turn l k = true ∨ s.handled k.handled = true) ∧
      (t.links l).pacer = (s.links l).pacer := by
  unfold waitForLink at resumed
  split at resumed
  · exact waitForNode_ready resumed
  · cases resumed

/-- How the task of a link gets to the turn of a copy that no other link has handled. -/
inductive Readies (net : InMemoryNetwork) (s : State) (l : LinkId) (t : State) (k : OutgoingPacket) :
    Prop where
  | atOnce {rest : List OutgoingPacket} (idle : (s.links l).task = .idle)
      (queued : s.outgoing l = k :: rest) (permit : (s.links l).permit = true)
      (up : (s.links l).isDown = false) (bandwidth : (net.links l).bandwidthBps ≠ 0)
      (room : ((s.links l).pacer.canSend s.now k.data.size).1 = true)
      (pacer : (t.links l).pacer = ((s.links l).pacer.canSend s.now k.data.size).2)
  | slept {deadline : Nat} (task : (s.links l).task = .sleeping k deadline)
      (passed : deadline ≤ s.now) (nodeUp : (s.nodes k.srcNode).isDown = false)
      (up : (s.links l).isDown = false) (pacer : (t.links l).pacer = (s.links l).pacer)
  | linkUp {notifier : Nat} (task : (s.links l).task = .waitingForLink k notifier)
      (nodeUp : (s.nodes k.srcNode).isDown = false) (up : (s.links l).isDown = false)
      (pacer : (t.links l).pacer = (s.links l).pacer)
  | nodeUp {notifier : Nat} (task : (s.links l).task = .waitingForNode k notifier)
      (completed : (s.nodes k.srcNode).status.completed notifier = true)
      (up : (s.links l).isDown = false) (pacer : (t.links l).pacer = (s.links l).pacer)
  | gaveWay (task : (s.links l).task = .yielding k)
      (pacer : (t.links l).pacer = (s.links l).pacer)

theorem hasBandwidthAvailable_of {link : NetworkLink} {this : LinkState} {now size : Nat}
    (permit : this.permit = true) (up : this.isDown = false) (bandwidth : link.bandwidthBps ≠ 0)
    (room : (this.pacer.canSend now size).1 = true) :
    LinkState.hasBandwidthAvailable link this now size =
      some (true, { this with pacer := (this.pacer.canSend now size).2 }) := by
  simp [LinkState.hasBandwidthAvailable, permit, up, bandwidth, ← room]

theorem hasBandwidthAvailable_true {link : NetworkLink} {this this' : LinkState} {now size : Nat}
    (asked : LinkState.hasBandwidthAvailable link this now size = some (true, this')) :
    this.permit = true ∧ this.isDown = false ∧ link.bandwidthBps ≠ 0 ∧
      (this.pacer.canSend now size).1 = true ∧
      this' = { this with pacer := (this.pacer.canSend now size).2 } := by
  unfold LinkState.hasBandwidthAvailable at asked
  split at asked
  · cases asked
  next free =>
  split at asked
  · cases asked
  next bandwidth =>
  obtain ⟨room, rfl⟩ := Prod.mk.inj (Option.some.inj asked)
  simp only [Bool.or_eq_true, Bool.not_eq_true', not_or, Bool.not_eq_true, Bool.not_eq_false] at free
  exact ⟨free.1, free.2, bandwidth, room, rfl⟩

theorem sleepUntilReadyToSend_not_ready (k' : OutgoingPacket) :
    s.sleepUntilReadyToSend net l k ≠ .ready t k' := by
  unfold sleepUntilReadyToSend startSleep
  split
  · dsimp only
    split
    · split <;> simp
    · simp
  · simp

theorem startSleep_not_ready (k' : OutgoingPacket) : s.startSleep net l k ≠ .ready t k' := by
  unfold startSleep
  split <;> simp

theorem resume_ready {k' : OutgoingPacket} (resumed : s.resume net l = .ready t k')
    (unhandled : s.handled k'.handled = false) :
    ∃ k, k'.SameCopy k ∧ turn l k = true ∧ Readies net s l t k := by
  -- The copy is not handled, so a task that goes on without its turn is ruled out.
  have due {k : OutgoingPacket} (same : k'.SameCopy k)
      (settled : turn l k = true ∨ s.handled k.handled = true) : turn l k = true := by
    rw [← same.fields.2.2.2.2, unhandled] at settled
    exact settled.resolve_right Bool.false_ne_true
  unfold resume at resumed
  split at resumed
  · cases resumed
  · next idle =>
      unfold takeOutgoing at resumed
      split at resumed
      · cases resumed
      next k rest queued =>
      dsimp only at resumed
      split at resumed
      · cases resumed
      · next asked =>
          simp only [modifyLink_self] at asked
          obtain ⟨permit, up, bandwidth, room, rfl⟩ := hasBandwidthAvailable_true asked
          obtain ⟨same, settled, rfl⟩ := yieldToPreferred_ready resumed
          refine ⟨k, same, due same settled, .atOnce idle queued permit up bandwidth room ?_⟩
          simp [setTask]
          rfl
      -- No bandwidth: the task sleeps first, and is ready only in a later turn.
      · exact absurd resumed (sleepUntilReadyToSend_not_ready k')
  · next k task =>
      split at resumed
      · exact absurd resumed (startSleep_not_ready k')
      · cases resumed
  · next k deadline task =>
      split at resumed
      · next handled =>
          -- Only a handled copy ends the wait early.
          obtain ⟨same, -⟩ := leaveSleep_ready resumed
          rw [← same.fields.2.2.2.2, unhandled] at handled
          cases handled
      split at resumed
      · next passed =>
          obtain ⟨nodeUp, up, same, settled, pacer⟩ := waitForLink_ready resumed
          exact ⟨k, same, due same settled, .slept task passed nodeUp up pacer⟩
      · cases resumed
  · next k notifier task =>
      split at resumed
      · next handled =>
          obtain ⟨same, -⟩ := leaveSleep_ready resumed
          rw [← same.fields.2.2.2.2, unhandled] at handled
          cases handled
      split at resumed
      · obtain ⟨nodeUp, up, same, settled, pacer⟩ := waitForNode_ready resumed
        exact ⟨k, same, due same settled, .linkUp task nodeUp up pacer⟩
      · cases resumed
  · next k notifier task =>
      split at resumed
      · next handled =>
          obtain ⟨same, -⟩ := leaveSleep_ready resumed
          rw [← same.fields.2.2.2.2, unhandled] at handled
          cases handled
      split at resumed
      · next completed =>
          obtain ⟨up, same, settled, pacer⟩ := recheckLink_ready resumed
          exact ⟨k, same, due same settled, .nodeUp task completed up pacer⟩
      · cases resumed
  · next k task =>
      obtain ⟨same, settled, rfl⟩ := yieldToPreferred_ready resumed
      exact ⟨k, same, due same settled, .gaveWay task (by simp [setTask])⟩

/-! The task of a link between its polls. -/

/-- Time does not go back, and the task of a link and its pacer stay as they are. -/
structure TaskKept (s s' : State) (l : LinkId) : Prop where
  now : s.now ≤ s'.now
  task : (s'.links l).task = (s.links l).task
  pacer : (s'.links l).pacer = (s.links l).pacer

/-- The queue of a link stays as it is too. -/
structure LinkKept (s s' : State) (l : LinkId) : Prop extends TaskKept s s' l where
  queue : (s'.links l).outgoingQueue = (s.links l).outgoingQueue

namespace LinkKept

theorem refl (s : State) (l : LinkId) : LinkKept s s l := ⟨⟨le_refl _, rfl, rfl⟩, rfl⟩

theorem trans {s'' : State} (first : LinkKept s s' l) (second : LinkKept s' s'' l) :
    LinkKept s s'' l :=
  ⟨⟨first.now.trans second.now, second.task.trans first.task, second.pacer.trans first.pacer⟩,
    second.queue.trans first.queue⟩

theorem of_link (now : s.now ≤ s'.now) (same : s'.links l = s.links l) : LinkKept s s' l :=
  ⟨⟨now, by rw [same], by rw [same]⟩, by rw [same]⟩

theorem of_links (now : s'.now = s.now) (links : s'.links = s.links) : LinkKept s s' l :=
  of_link now.ge (congrFun links l)

theorem modifyLink {l' : LinkId} {change : LinkState → LinkState}
    (task : (change (s.links l')).task = (s.links l').task)
    (pacer : (change (s.links l')).pacer = (s.links l').pacer)
    (queue : (change (s.links l')).outgoingQueue = (s.links l').outgoingQueue) :
    LinkKept s (s.modifyLink l' change) l := by
  by_cases here : l = l'
  · subst here
    exact ⟨⟨le_refl _, by simpa, by simpa⟩, by simpa⟩
  · exact of_link (le_refl _) (s.modifyLink_of_ne change here)

end LinkKept

/-- A state that differs from another at most in its nodes, and in what was drawn and told. -/
structure OffLinks (s s' : State) : Prop where
  links : s'.links = s.links
  now : s'.now = s.now
  dispatches : s'.dispatches = s.dispatches

theorem OffLinks.trans {s'' : State} (first : OffLinks s s') (second : OffLinks s' s'') :
    OffLinks s s'' :=
  ⟨second.links.trans first.links, second.now.trans first.now,
    second.dispatches.trans first.dispatches⟩

theorem enqueueOutbound_links (s : State) (n : NodeId) (packet : BufferedPacket) :
    OffLinks s (s.enqueueOutbound n packet).1 := by
  unfold enqueueOutbound
  split
  · exact ⟨rfl, rfl, rfl⟩
  · dsimp only
    split <;> exact ⟨rfl, rfl, rfl⟩

theorem enqueueWithDuplicate_links (net : InMemoryNetwork) (s : State) (n : NodeId)
    (packet : BufferedPacket) (duplicate : Bool) :
    OffLinks s (s.enqueueWithDuplicate net n packet duplicate).1 := by
  unfold enqueueWithDuplicate
  split
  · dsimp only [newPacketId]
    have drawn : OffLinks s { s with drawn := s.drawn + 1 } := ⟨rfl, rfl, rfl⟩
    have original := drawn.trans (enqueueOutbound_links { s with drawn := s.drawn + 1 } n packet)
    generalize State.enqueueOutbound { s with drawn := s.drawn + 1 } n packet = entered at original
    obtain ⟨s', exit⟩ := entered
    cases exit with
    | panicked => exact original
    | returned =>
        have copied (copy : BufferedPacket) :
            OffLinks s ((s'.trackInjectedFailures n copy.data true 0 false).enqueueOutbound n copy).1 :=
          have told : OffLinks s' (s'.trackInjectedFailures n copy.data true 0 false) := ⟨rfl, rfl, rfl⟩
          (original.trans told).trans (enqueueOutbound_links _ n copy)
        exact copied _
  · exact enqueueOutbound_links s n packet

/-- Forwarding a packet at a node does not touch any link. -/
theorem forward_links (net : InMemoryNetwork) (s : State) (n : NodeId) (data : InTransitData)
    (roll : Nat) : OffLinks s (s.forward net n data roll).1 := by
  unfold forward
  split
  · exact ⟨rfl, rfl, rfl⟩
  dsimp only
  split
  · exact ⟨rfl, rfl, rfl⟩
  split
  · exact ⟨rfl, rfl, rfl⟩
  split
  · exact ⟨rfl, rfl, rfl⟩
  · have told : OffLinks s (s.trackPacketInNode n data) := ⟨rfl, rfl, rfl⟩
    exact told.trans (enqueueWithDuplicate_links net (s.trackPacketInNode n data) n _ _)

theorem arrive_links (net : InMemoryNetwork) (s : State) (l : LinkId) (transmit : DeliveredTransmit)
    (roll : Nat) : OffLinks s (s.arrive net l transmit roll).1 := by
  unfold arrive
  dsimp only
  split
  · exact ⟨rfl, rfl, rfl⟩
  split
  · exact ⟨rfl, rfl, rfl⟩
  · have noted : OffLinks s (s.note (.arrived l transmit.data.id)) := ⟨rfl, rfl, rfl⟩
    exact noted.trans (forward_links net (s.note (.arrived l transmit.data.id)) _ _ _)

theorem setForwarder_linkKept (s : State) (l' : LinkId) (forwarder : Forwarder) (l : LinkId) :
    LinkKept s (s.setForwarder l' forwarder) l :=
  .modifyLink rfl rfl rfl

theorem arriveAll_linkKept (net : InMemoryNetwork) (l' : LinkId) (delivered : List DeliveredTransmit)
    (rolls : List Nat) (s : State) (l : LinkId) :
    LinkKept s (arriveAll net l' delivered rolls s) l := by
  induction delivered generalizing rolls s with
  | nil => exact setForwarder_linkKept s l' .new l
  | cons transmit delivered ih =>
      unfold arriveAll
      have arrived := arrive_links net s l' transmit (rolls.headD 0)
      generalize s.arrive net l' transmit (rolls.headD 0) = result at arrived
      obtain ⟨s', exit⟩ := result
      have kept : LinkKept s s' l := .of_links arrived.2 arrived.1
      cases exit with
      | returned => exact kept.trans (ih rolls.tail s')
      | panicked =>
          have set := setForwarder_linkKept s' l' ⟨false, .new usizeMax⟩ l
          exact kept.trans ⟨⟨set.now, set.task, set.pacer⟩, set.queue⟩

theorem readAll_links (n : NodeId) (bufferSize : Nat) (delivered : List DeliveredTransmit)
    (s : State) : OffLinks s (readAll n bufferSize delivered s) := by
  induction delivered generalizing s with
  | nil => exact ⟨rfl, rfl, rfl⟩
  | cons transmit delivered ih =>
      unfold readAll
      dsimp only
      split
      · exact ⟨rfl, rfl, rfl⟩
      · have told : OffLinks s (s.trackReadByApplication n transmit.data) := ⟨rfl, rfl, rfl⟩
        exact told.trans (ih _)

theorem noteAll_links (n : NodeId) (delivered : List DeliveredTransmit) (s : State) :
    OffLinks s (delivered.foldl (fun s t => s.note (.checked n t.data.id)) s) := by
  induction delivered generalizing s with
  | nil => exact ⟨rfl, rfl, rfl⟩
  | cons transmit delivered ih =>
      have noted : OffLinks s (s.note (.checked n transmit.data.id)) := ⟨rfl, rfl, rfl⟩
      exact noted.trans (ih _)

theorem processLinkEvent_linkKept (net : InMemoryNetwork) (s : State) (event : LinkEventPayload)
    (l : LinkId) : LinkKept s (s.processLinkEvent net event) l := by
  unfold processLinkEvent
  dsimp only
  split
  · exact .refl s l
  have delayed : LinkKept s (event.delay.elim s (s.changeLinkDelay event.linkId)) l := by
    cases event.delay with
    | none => exact .refl s l
    | some delay =>
        change LinkKept s (s.changeLinkDelay event.linkId delay) l
        unfold changeLinkDelay
        split
        · exact .modifyLink rfl rfl rfl
        · exact .refl s l
  generalize event.delay.elim s (s.changeLinkDelay event.linkId) = s' at delayed
  have switched : LinkKept s' (event.status.elim s' (s'.updateLinkStatus event.linkId)) l := by
    cases event.status with
    | none => exact .refl s' l
    | some status =>
        change LinkKept s' (s'.updateLinkStatus event.linkId status) l
        have updated : LinkKept s' (s'.modifyLink event.linkId (·.updateStatus s'.now status)) l :=
          .modifyLink rfl rfl rfl
        unfold updateLinkStatus
        dsimp only
        split
        · exact updated.trans (.of_links rfl rfl)
        · exact updated
  exact (delayed.trans switched).trans (.of_links rfl rfl)

theorem processNodeEvent_links (net : InMemoryNetwork) (s : State) (event : NodeEventPayload) :
    OffLinks s (s.processNodeEvent net event) := by
  unfold processNodeEvent
  dsimp only
  split
  · exact ⟨rfl, rfl, rfl⟩
  · cases event.status <;> cases event.clearBuffer <;> exact ⟨rfl, rfl, rfl⟩

/-- A round of a buffer processor changes links only by the copies it pushes. -/
theorem processBuffer_links {n : NodeId} {rolls : List (Nat × Nat)}
    (taken : s.processBuffer net n rolls = some s') : s'.now = s.now ∧ (s'.links = s.links ∨
      ∃ packet rest links, (s.nodes n).outbound.messages = packet :: rest ∧
        net.candidateLinks n packet.data.transmit.destination.ip = .ok links ∧
        s'.links = (pushCopies net n packet s.dispatches.length links links rolls
          ((s.takeBuffered n rest).openDispatch n packet links)).1.links) := by
  obtain ⟨packet, rest, queued, rfl | ⟨links, t, walked, pushes, ends⟩⟩ := processBuffer_cases taken
  · exact ⟨rfl, .inl rfl⟩
  · have pushed := pushCopies_pushed net n packet s.dispatches.length links links rolls
      ((s.takeBuffered n rest).openDispatch n packet links)
    rw [← pushes] at pushed
    rcases ends with rfl | rfl
    all_goals exact ⟨pushed.now, .inr ⟨packet, rest, links, queued, walked, pushes ▸ rfl⟩⟩

/-- Of each link, a round of a buffer processor changes only the queue. -/
theorem processBuffer_link {n : NodeId} {rolls : List (Nat × Nat)}
    (taken : s.processBuffer net n rolls = some s') (l : LinkId) :
    ∃ outgoingQueue, s'.links l = { s.links l with outgoingQueue } := by
  obtain ⟨-, same | ⟨packet, rest, links, -, -, same⟩⟩ := processBuffer_links taken
  · exact ⟨_, by rw [same]⟩
  · have pushed := pushCopies_pushed net n packet s.dispatches.length links links rolls
      ((s.takeBuffered n rest).openDispatch n packet links)
    obtain ⟨new, queue, -⟩ := pushed.queues l
    exact ⟨_, same ▸ queue⟩

theorem processBuffer_taskKept {n : NodeId} {rolls : List (Nat × Nat)}
    (taken : s.processBuffer net n rolls = some s') (l : LinkId) : TaskKept s s' l := by
  obtain ⟨outgoingQueue, same⟩ := processBuffer_link taken l
  exact ⟨(processBuffer_links taken).1.ge, by rw [same], by rw [same]⟩

theorem pollForwarder_linkKept {l' : LinkId} {ties rolls : List Nat}
    (taken : s.pollForwarder net l' ties rolls = some s') (l : LinkId) : LinkKept s s' l := by
  unfold pollForwarder at taken
  dsimp only at taken
  split at taken
  · cases taken
  split at taken
  · obtain rfl := Option.some.inj taken
    exact .modifyLink rfl rfl rfl
  · obtain rfl := Option.some.inj taken
    exact LinkKept.trans (.modifyLink rfl rfl rfl) (arriveAll_linkKept net l' _ _ _ l)

/-! The links that a step does not touch. -/

/-- Time does not go back, and a link stays as it is. -/
structure LinkSame (s s' : State) (l : LinkId) : Prop where
  now : s.now ≤ s'.now
  link : s'.links l = s.links l

namespace LinkSame

theorem of_links (now : s'.now = s.now) (links : s'.links = s.links) : LinkSame s s' l :=
  ⟨now.ge, congrFun links l⟩

theorem trans {s'' : State} (first : LinkSame s s' l) (second : LinkSame s' s'' l) :
    LinkSame s s'' l :=
  ⟨first.now.trans second.now, second.link.trans first.link⟩

theorem modifyLink {l' : LinkId} (change : LinkState → LinkState) (differs : l ≠ l') :
    LinkSame s (s.modifyLink l' change) l :=
  ⟨le_refl _, modifyLink_of_ne s change differs⟩

end LinkSame

theorem handle_linkSame (net : InMemoryNetwork) (s : State) {l' : LinkId} (k : OutgoingPacket)
    (differs : l ≠ l') : LinkSame s (s.handle net l' k) l := by
  unfold handle
  split
  · exact .of_links rfl rfl
  dsimp only
  split
  · exact .of_links rfl rfl
  · have marked : LinkSame s (s.markHandled k) l := .of_links rfl rfl
    split
    · next sent =>
        obtain ⟨data, pacer, -, -, rfl⟩ := send_carry sent
        exact marked.trans ⟨le_refl _, carry_of_ne (s.markHandled k) k data pacer differs⟩
    · exact marked.trans ⟨le_refl _, endQueueTask_of_ne _ differs⟩

/-- Of its own link, handling a packet changes the pacer and what is in transit, or ends
the task. -/
theorem handle_link (net : InMemoryNetwork) (s : State) (l : LinkId) (k : OutgoingPacket) :
    (∃ pacer inTransit, (s.handle net l k).links l = { s.links l with pacer, inTransit }) ∨
      (s.handle net l k).links l = { s.links l with
        task := .panicked, outgoingQueue := (s.links l).outgoingQueue.dropReceiver } := by
  unfold handle
  split
  · exact .inl ⟨_, _, rfl⟩
  dsimp only
  split
  · exact .inl ⟨_, _, rfl⟩
  split
  · next sent =>
      obtain ⟨data, pacer, -, -, rfl⟩ := send_carry sent
      rw [noteAct_links, carry_self]
      exact .inl ⟨_, _, rfl⟩
  · rw [endQueueTask_self]
    exact .inr rfl

theorem pollLink_linkSame {l' : LinkId} (taken : s.pollLink net l' = some s') (differs : l ≠ l') :
    LinkSame s s' l := by
  have worked {t : State} (stops : (s.resume net l').state? = some t) : LinkSame s t l :=
    have works := resume_works stops
    ⟨works.now.ge, works.others l differs⟩
  unfold pollLink at taken
  cases resumed : s.resume net l' with
  | blocked => simp [resumed] at taken
  | waits t =>
      rw [resumed] at taken worked
      exact Option.some.inj taken ▸ worked rfl
  | ready t k =>
      rw [resumed] at taken worked
      exact Option.some.inj taken ▸ (worked rfl).trans (handle_linkSame net t k differs)
  | panics t =>
      rw [resumed] at taken worked
      exact Option.some.inj taken ▸ (worked rfl).trans ⟨le_refl _, endQueueTask_of_ne t differs⟩

theorem arriveAll_linkSame (net : InMemoryNetwork) {l' : LinkId} (delivered : List DeliveredTransmit)
    (rolls : List Nat) (s : State) (differs : l ≠ l') :
    LinkSame s (arriveAll net l' delivered rolls s) l := by
  have set (t : State) (forwarder : Forwarder) : LinkSame t (t.setForwarder l' forwarder) l :=
    .modifyLink ({ · with forwarder }) differs
  induction delivered generalizing rolls s with
  | nil => exact set s .new
  | cons transmit delivered ih =>
      unfold arriveAll
      have arrived := arrive_links net s l' transmit (rolls.headD 0)
      generalize s.arrive net l' transmit (rolls.headD 0) = result at arrived
      obtain ⟨s', exit⟩ := result
      have same : LinkSame s s' l := .of_links arrived.2 arrived.1
      cases exit with
      | returned => exact same.trans (ih rolls.tail s')
      | panicked => exact same.trans ⟨le_refl _, (set s' ⟨false, .new usizeMax⟩).link⟩

/-- Of its own link, the arrivals of a poll change only the forwarder. -/
theorem arriveAll_link (net : InMemoryNetwork) (l : LinkId) (delivered : List DeliveredTransmit)
    (rolls : List Nat) (s : State) : ∃ forwarder,
      (arriveAll net l delivered rolls s).links l = { s.links l with forwarder } := by
  have set (t : State) (forwarder : Forwarder) :
      (t.setForwarder l forwarder).links l = { t.links l with forwarder } := by
    rw [setForwarder, modifyLink_self]
  induction delivered generalizing rolls s with
  | nil => exact ⟨_, set s .new⟩
  | cons transmit delivered ih =>
      unfold arriveAll
      have arrived := (arrive_links net s l transmit (rolls.headD 0)).1
      generalize s.arrive net l transmit (rolls.headD 0) = result at arrived
      obtain ⟨s', exit⟩ := result
      dsimp only at arrived
      cases exit with
      | returned => exact arrived ▸ ih rolls.tail s'
      | panicked => exact ⟨_, (set s' ⟨false, .new usizeMax⟩).trans (by rw [arrived])⟩

theorem pollForwarder_linkSame {l' : LinkId} {ties rolls : List Nat}
    (taken : s.pollForwarder net l' ties rolls = some s') (differs : l ≠ l') : LinkSame s s' l := by
  unfold pollForwarder at taken
  dsimp only at taken
  split at taken
  · cases taken
  split at taken
  · obtain rfl := Option.some.inj taken
    exact .modifyLink _ differs
  · obtain rfl := Option.some.inj taken
    exact (LinkSame.modifyLink _ differs).trans (arriveAll_linkSame net _ rolls _ differs)

/-- Only its own two tasks, the buffer processors and link events change a link. -/
theorem step_linkSame {action : Action} (taken : s.step net action = some s')
    (unpolled : action ≠ .pollLink l) (unforwarded : ∀ ties rolls, action ≠ .pollForwarder l ties rolls)
    (unbuffered : ∀ n rolls, action ≠ .processBuffer n rolls)
    (uneventful : ∀ e, action ≠ .linkEvent e) : LinkSame s s' l := by
  cases action with
  | advance duration =>
      obtain rfl := Option.some.inj taken
      exact ⟨Nat.le_add_right _ _, rfl⟩
  | linkEvent event => exact absurd rfl (uneventful event)
  | nodeEvent event =>
      have same := processNodeEvent_links net s event
      exact Option.some.inj taken ▸ .of_links same.2 same.1
  | sendUdp n transmit roll =>
      simp only [step] at taken
      split at taken
      · cases taken
      unfold sendUdp inTransitData newPacketId at taken
      dsimp only at taken
      have same := forward_links net { s with
        drawn := s.drawn + 1, nextTransmitNumber := s.nextTransmitNumber + 1 } n
        ⟨net.uuids s.drawn, false, n, transmit, s.nextTransmitNumber⟩ roll
      generalize forward net { s with
        drawn := s.drawn + 1, nextTransmitNumber := s.nextTransmitNumber + 1 } n
        ⟨net.uuids s.drawn, false, n, transmit, s.nextTransmitNumber⟩ roll = result at same taken
      obtain ⟨s'', exit⟩ := result
      cases exit <;> obtain rfl := Option.some.inj taken
      · exact .of_links same.2 same.1
      · exact .of_links same.2 same.1
  | processBuffer n rolls => exact absurd rfl (unbuffered n rolls)
  | pollLink l' =>
      simp only [step] at taken
      split at taken
      · cases taken
      · exact pollLink_linkSame taken fun same => unpolled (same ▸ rfl)
  | pollForwarder l' ties rolls =>
      simp only [step] at taken
      split at taken
      · cases taken
      · exact pollForwarder_linkSame taken fun same => unforwarded ties rolls (same ▸ rfl)
  | pollRecv n port slots bufferSize ties =>
      simp only [step] at taken
      split at taken
      · cases taken
      obtain rfl := Option.some.inj taken
      unfold pollRecv
      dsimp only
      split
      · exact .of_links rfl rfl
      · next delivered _ =>
          have same := readAll_links n bufferSize (delivered.take slots)
          exact .of_links (same _).2 (same _).1
  | checkReceive n port ties =>
      simp only [step] at taken
      split at taken
      · cases taken
      obtain rfl := Option.some.inj taken
      unfold checkReceive
      dsimp only
      split
      · exact .of_links rfl rfl
      · next delivered _ =>
          have same := noteAll_links n delivered
          exact .of_links (same _).2 (same _).1

/-- Only its own polls and the buffer processors change the task of a link, its pacer
and its queue. -/
theorem step_linkKept {action : Action} (taken : s.step net action = some s')
    (other : action ≠ .pollLink l) (unbuffered : ∀ n rolls, action ≠ .processBuffer n rolls) :
    LinkKept s s' l := by
  by_cases eventful : ∃ e, action = .linkEvent e
  · obtain ⟨e, rfl⟩ := eventful
    exact Option.some.inj taken ▸ processLinkEvent_linkKept net s e l
  by_cases forwarded : ∃ ties rolls, action = .pollForwarder l ties rolls
  · obtain ⟨ties, rolls, rfl⟩ := forwarded
    simp only [step] at taken
    split at taken
    · cases taken
    · exact pollForwarder_linkKept taken l
  · have same := step_linkSame taken other
      (fun ties rolls same => forwarded ⟨ties, rolls, same⟩) unbuffered
      fun e same => eventful ⟨e, same⟩
    exact .of_link same.now same.link

/-- What holds of every link, and is kept as its delay and its status change, is kept by
every link event. -/
theorem processLinkEvent_holds (Holds : LinkState → Prop)
    (delayed : ∀ link delay, Holds link → Holds (link.updateDelay delay))
    (switched : ∀ link now status, Holds link → Holds (link.updateStatus now status))
    (net : InMemoryNetwork) (event : LinkEventPayload) (l : LinkId) (before : Holds (s.links l)) :
    Holds ((s.processLinkEvent net event).links l) := by
  have changed (t : State) (change : LinkState → LinkState) (kept : ∀ link, Holds link →
      Holds (change link)) (holds : Holds (t.links l)) :
      Holds ((t.modifyLink event.linkId change).links l) := by
    by_cases here : l = event.linkId
    · rw [← here, modifyLink_self]
      exact kept _ holds
    · rwa [modifyLink_of_ne _ _ here]
  have delays (t : State) (delay : Nat) (holds : Holds (t.links l)) :
      Holds ((t.changeLinkDelay event.linkId delay).links l) := by
    unfold changeLinkDelay
    split
    · exact changed t (·.updateDelay delay) (delayed · delay) holds
    · exact holds
  have switches (t : State) (status : UpdateLinkStatus) (holds : Holds (t.links l)) :
      Holds ((t.updateLinkStatus event.linkId status).links l) := by
    unfold updateLinkStatus
    dsimp only
    split
    all_goals exact changed t (·.updateStatus t.now status) (switched · t.now status) holds
  unfold processLinkEvent
  dsimp only
  split
  · exact before
  · cases event.delay with
    | none => cases event.status with
      | none => exact before
      | some status => exact switches s status before
    | some delay => cases event.status with
      | none => exact delays s delay before
      | some status => exact switches _ status (delays s delay before)

/-- A link event changes at most the delay and the status of its link. -/
theorem processLinkEvent_kept {α : Type} (field : LinkState → α)
    (delayed : ∀ link delay, field (link.updateDelay delay) = field link)
    (switched : ∀ link now status, field (link.updateStatus now status) = field link)
    (net : InMemoryNetwork) (s : State) (event : LinkEventPayload) (l : LinkId) :
    field ((s.processLinkEvent net event).links l) = field (s.links l) :=
  processLinkEvent_holds (field · = field (s.links l)) (fun link delay => (delayed link delay).trans)
    (fun link now status => (switched link now status).trans) net event l rfl

/-- Only its own two tasks change what is in transit on a link. -/
theorem step_inTransit {action : Action} (taken : s.step net action = some s')
    (unpolled : action ≠ .pollLink l)
    (unforwarded : ∀ ties rolls, action ≠ .pollForwarder l ties rolls) :
    (s'.links l).inTransit = (s.links l).inTransit := by
  by_cases eventful : ∃ e, action = .linkEvent e
  · obtain ⟨e, rfl⟩ := eventful
    exact Option.some.inj taken ▸
      processLinkEvent_kept (·.inTransit) (fun _ _ => rfl) (fun _ _ _ => rfl) net s e l
  by_cases buffered : ∃ n rolls, action = .processBuffer n rolls
  · obtain ⟨n, rolls, rfl⟩ := buffered
    simp only [step] at taken
    split at taken
    · cases taken
    obtain ⟨outgoingQueue, same⟩ := processBuffer_link taken l
    rw [same]
  · rw [(step_linkSame taken unpolled unforwarded
      (fun n rolls same => buffered ⟨n, rolls, same⟩) fun e same => eventful ⟨e, same⟩).link]

/-- Only its own polls take the permit of a link and give it back. -/
theorem step_permit {action : Action} (taken : s.step net action = some s')
    (other : action ≠ .pollLink l) : (s'.links l).permit = (s.links l).permit := by
  by_cases eventful : ∃ e, action = .linkEvent e
  · obtain ⟨e, rfl⟩ := eventful
    exact Option.some.inj taken ▸
      processLinkEvent_kept (·.permit) (fun _ _ => rfl) (fun _ _ _ => rfl) net s e l
  by_cases buffered : ∃ n rolls, action = .processBuffer n rolls
  · obtain ⟨n, rolls, rfl⟩ := buffered
    simp only [step] at taken
    split at taken
    · cases taken
    obtain ⟨outgoingQueue, same⟩ := processBuffer_link taken l
    rw [same]
  by_cases forwarded : ∃ ties rolls, action = .pollForwarder l ties rolls
  · obtain ⟨ties, rolls, rfl⟩ := forwarded
    simp only [step] at taken
    split at taken
    · cases taken
    unfold pollForwarder at taken
    dsimp only at taken
    split at taken
    · cases taken
    split at taken
    · obtain rfl := Option.some.inj taken
      rw [modifyLink_self]
    · next delivered delivery inTransit _ =>
        obtain rfl := Option.some.inj taken
        obtain ⟨forwarder, kept⟩ := arriveAll_link net l delivered rolls
          (s.modifyLink l ({ · with inTransit, forwarder := ⟨true, delivery⟩ }))
        rw [kept, modifyLink_self]
  · rw [(step_linkSame taken other (fun ties rolls same => forwarded ⟨ties, rolls, same⟩)
      (fun n rolls same => buffered ⟨n, rolls, same⟩) fun e same => eventful ⟨e, same⟩).link]

/-- Only its own polls change the task of a link and its pacer. -/
theorem step_taskKept {action : Action} (taken : s.step net action = some s')
    (other : action ≠ .pollLink l) : TaskKept s s' l := by
  by_cases buffered : ∃ n rolls, action = .processBuffer n rolls
  · obtain ⟨n, rolls, rfl⟩ := buffered
    simp only [step] at taken
    split at taken
    · cases taken
    · exact processBuffer_taskKept taken l
  · exact (step_linkKept taken other fun n rolls same => buffered ⟨n, rolls, same⟩).toTaskKept

end State

end Workbench.Network
