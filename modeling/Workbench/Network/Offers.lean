import Workbench.Network.Competition
import Workbench.Network.Survival

/-! What stays of the packets that were dispatched, and which candidate links their
copies still list.

A task that gives way forgets the link that it gives a chance, so the copies of a link
list all candidate links of their packet, but for the one its task gives way with. -/

set_option autoImplicit false

namespace Workbench.Network

/-- A packet and its candidate links, which stay as they were dispatched. -/
def Dispatch.offer (d : Dispatch) : BufferedPacket × List LinkId := (d.packet, d.links)

namespace State

variable {net : InMemoryNetwork} {s s' t : State} {l : LinkId} {k : OutgoingPacket}

/-! The packets that were dispatched. -/

/-- The dispatched packets stay, with their links, and none becomes unhandled again. -/
structure Retains (s s' : State) : Prop where
  offer : ∀ i : Nat, (s'.dispatches[i]?).map Dispatch.offer = (s.dispatches[i]?).map Dispatch.offer
  handled : ∀ i, s.handled i = true → s'.handled i = true

theorem Retains.of_same (dispatches : s'.dispatches = s.dispatches) : Retains s s' :=
  ⟨fun i => by rw [dispatches], fun i => by simp only [State.handled, dispatches, imp_self]⟩

theorem Retains.trans {s'' : State} (first : Retains s s') (second : Retains s' s'') :
    Retains s s'' :=
  ⟨fun i => (second.offer i).trans (first.offer i), fun i => second.handled i ∘ first.handled i⟩

theorem Retains.modifyDispatch (s : State) (i : Nat) {change : Dispatch → Dispatch}
    (offer : ∀ d, (change d).offer = d.offer)
    (handled : ∀ d, d.handled = true → (change d).handled = true) :
    Retains s (s.modifyDispatch i change) := by
  refine ⟨fun j => ?_, fun j => ?_⟩
  · rw [State.modifyDispatch, List.getElem?_modify]
    cases s.dispatches[j]? with
    | none => rfl
    | some d => by_cases same : i = j <;> simp [same, offer]
  · simp only [State.handled, State.modifyDispatch, List.getElem?_modify]
    cases s.dispatches[j]? with
    | none => exact id
    | some d =>
        by_cases same : i = j
        · simpa [same] using handled d
        · simp [same]

theorem noteAct_retains (s : State) (flag : Nat) (l : LinkId) (act : Act) :
    Retains s (s.noteAct flag l act) :=
  .modifyDispatch s flag (fun _ => rfl) fun _ => id

theorem handle_retains (net : InMemoryNetwork) (s : State) (l : LinkId) (k : OutgoingPacket) :
    Retains s (s.handle net l k) := by
  have marked : Retains s (s.markHandled k) :=
    .modifyDispatch s k.handled (fun _ => rfl) fun _ _ => rfl
  unfold handle
  split
  · exact .of_same rfl
  dsimp only
  split
  · exact (marked.trans (noteAct_retains _ k.handled l .cleared)).trans (.of_same rfl)
  split
  · next sent =>
      obtain ⟨data, pacer, -, -, rfl⟩ := send_carry sent
      have carried : Retains s ((s.markHandled k).carry l k data pacer) :=
        marked.trans (.of_same rfl)
      exact carried.trans (noteAct_retains _ k.handled l .sent)
  · exact marked.trans (.of_same rfl)

/-- A packet is handled once a link has handled a copy of it. -/
theorem handle_handled {d : Dispatch} (found : s.dispatches[k.handled]? = some d) :
    (s.handle net l k).handled k.handled = true := by
  have marked : (s.markHandled k).handled k.handled = true := modifyDispatch_handled found rfl
  unfold handle
  split
  · next handled => exact handled
  dsimp only
  split
  · exact (noteAct_retains _ k.handled l .cleared).handled _ marked
  split
  · next sent =>
      obtain ⟨data, pacer, -, -, rfl⟩ := send_carry sent
      exact (noteAct_retains ((s.markHandled k).carry l k data pacer) k.handled l .sent).handled _ marked
  · exact marked

theorem pollLink_retains (taken : s.pollLink net l = some s') : Retains s s' := by
  have worked {t : State} (stops : (s.resume net l).state? = some t) : Retains s t :=
    .of_same (resume_works stops).dispatches
  unfold pollLink at taken
  cases resumed : s.resume net l with
  | blocked => simp [resumed] at taken
  | waits t =>
      rw [resumed] at taken worked
      exact Option.some.inj taken ▸ worked rfl
  | ready t k =>
      rw [resumed] at taken worked
      exact Option.some.inj taken ▸ (worked rfl).trans (handle_retains net t l k)
  | panics t =>
      rw [resumed] at taken worked
      exact Option.some.inj taken ▸ (worked rfl).trans (.of_same rfl)

theorem processLinkEvent_dispatches (net : InMemoryNetwork) (s : State) (event : LinkEventPayload) :
    (s.processLinkEvent net event).dispatches = s.dispatches := by
  have delayed (t : State) (delay : Nat) :
      (t.changeLinkDelay event.linkId delay).dispatches = t.dispatches := by
    unfold changeLinkDelay
    split <;> rfl
  have switched (t : State) (status : UpdateLinkStatus) :
      (t.updateLinkStatus event.linkId status).dispatches = t.dispatches := by
    unfold updateLinkStatus
    dsimp only
    split <;> rfl
  unfold processLinkEvent
  dsimp only
  split
  · rfl
  · cases event.delay with
    | none => cases event.status with
      | none => rfl
      | some status => exact switched s status
    | some delay => cases event.status with
      | none => exact delayed s delay
      | some status => exact (switched _ status).trans (delayed s delay)

theorem arriveAll_dispatches (net : InMemoryNetwork) (l : LinkId)
    (delivered : List DeliveredTransmit) (rolls : List Nat) (s : State) :
    (arriveAll net l delivered rolls s).dispatches = s.dispatches := by
  induction delivered generalizing rolls s with
  | nil => rfl
  | cons transmit delivered ih =>
      unfold arriveAll
      have arrived := (arrive_links net s l transmit (rolls.headD 0)).dispatches
      generalize s.arrive net l transmit (rolls.headD 0) = result at arrived
      obtain ⟨s', exit⟩ := result
      cases exit with
      | returned => exact (ih rolls.tail s').trans arrived
      | panicked => exact arrived

/-- Only the buffer processors dispatch packets. -/
theorem step_retains {action : Action} (taken : s.step net action = some s')
    (unbuffered : ∀ n rolls, action ≠ .processBuffer n rolls) : Retains s s' := by
  cases action with
  | advance duration => exact Option.some.inj taken ▸ .of_same rfl
  | linkEvent event =>
      exact Option.some.inj taken ▸ .of_same (processLinkEvent_dispatches net s event)
  | nodeEvent event =>
      exact Option.some.inj taken ▸ .of_same (processNodeEvent_links net s event).dispatches
  | sendUdp n transmit roll =>
      simp only [step] at taken
      split at taken
      · cases taken
      unfold sendUdp inTransitData newPacketId at taken
      dsimp only at taken
      have same := forward_links net { s with
        drawn := s.drawn + 1, nextTransmitNumber := s.nextTransmitNumber + 1 } n
        ⟨net.uuids s.drawn, false, n, transmit, s.nextTransmitNumber⟩ roll
      generalize forward net { s with
        drawn := s.drawn + 1, nextTransmitNumber := s.nextTransmitNumber + 1 } n
        ⟨net.uuids s.drawn, false, n, transmit, s.nextTransmitNumber⟩ roll = result at same taken
      obtain ⟨s'', exit⟩ := result
      cases exit <;> obtain rfl := Option.some.inj taken
      · exact .of_same same.dispatches
      · exact .of_same same.dispatches
  | processBuffer n rolls => exact absurd rfl (unbuffered n rolls)
  | pollLink l =>
      simp only [step] at taken
      split at taken
      · cases taken
      · exact pollLink_retains taken
  | pollForwarder l ties rolls =>
      simp only [step] at taken
      split at taken
      · cases taken
      unfold pollForwarder at taken
      dsimp only at taken
      split at taken
      · cases taken
      split at taken
      · exact Option.some.inj taken ▸ .of_same rfl
      · exact Option.some.inj taken ▸ .of_same (arriveAll_dispatches net l _ rolls _)
  | pollRecv n port slots bufferSize ties =>
      simp only [step] at taken
      split at taken
      · cases taken
      obtain rfl := Option.some.inj taken
      unfold pollRecv
      dsimp only
      split
      · exact .of_same rfl
      · next delivered _ =>
          have same := readAll_links n bufferSize (delivered.take slots)
          exact .of_same (same _).dispatches
  | checkReceive n port ties =>
      simp only [step] at taken
      split at taken
      · cases taken
      obtain rfl := Option.some.inj taken
      unfold checkReceive
      dsimp only
      split
      · exact .of_same rfl
      · next delivered _ =>
          have same := noteAll_links n delivered
          exact .of_same (same _).dispatches

/-! The links that a copy still lists. -/

/-- A copy lists the candidate links of its packet, but for those it has given a chance. -/
def Lists (s : State) (popped : List LinkId) (k : OutgoingPacket) : Prop :=
  ∃ d, s.dispatches[k.handled]? = some d ∧ d.links = popped ++ k.preferredLinks

/-- The copies of a link list all candidate links, until its task gives way with one. -/
structure Listed (s : State) (l : LinkId) : Prop where
  queued : ∀ k ∈ s.outgoing l, Lists s [] k
  held : ∀ k, (s.links l).task.packet? = some k → (∀ k', (s.links l).task ≠ .yielding k') →
    Lists s [] k
  yielding : ∀ k, (s.links l).task = .yielding k → ∃ popped, l ∉ popped ∧ Lists s popped k

theorem Retains.lookup {i : Nat} {d : Dispatch} (retains : Retains s s')
    (found : s.dispatches[i]? = some d) : ∃ d', s'.dispatches[i]? = some d' ∧ d'.offer = d.offer := by
  have same := retains.offer i
  rw [found] at same
  exact Option.map_eq_some_iff.mp same

theorem Lists.congr {popped : List LinkId} (lists : Lists s popped k)
    (kept : ∀ (i : Nat) d, s.dispatches[i]? = some d →
      ∃ d', s'.dispatches[i]? = some d' ∧ d'.offer = d.offer) : Lists s' popped k := by
  obtain ⟨d, found, links⟩ := lists
  obtain ⟨d', found', same⟩ := kept _ d found
  exact ⟨d', found', (congrArg Prod.snd same).trans links⟩

theorem Listed.congr (listed : Listed s l) (task : (s'.links l).task = (s.links l).task)
    (queue : s'.outgoing l = s.outgoing l)
    (kept : ∀ (i : Nat) d, s.dispatches[i]? = some d →
      ∃ d', s'.dispatches[i]? = some d' ∧ d'.offer = d.offer) : Listed s' l := by
  refine ⟨fun k member => ?_, fun k holds still => ?_, fun k yields => ?_⟩
  · exact (listed.queued k (queue ▸ member)).congr kept
  · rw [task] at holds still
    exact (listed.held k holds still).congr kept
  · rw [task] at yields
    obtain ⟨popped, absent, lists⟩ := listed.yielding k yields
    exact ⟨popped, absent, lists.congr kept⟩

/-- A run of the task of a link on a copy: it goes on to wait with it as it is, or gives
way to the first link that it lists. -/
def Resumed.Pops (s : State) (l : LinkId) (k : OutgoingPacket) : Resumed → Prop
  | .waits t => ((t.links l).task.packet? = some k ∧ ∀ k', (t.links l).task ≠ .yielding k') ∨
      ∃ x rest, k.preferredLinks = x :: rest ∧ x ≠ l ∧ s.handled k.handled = false ∧
        (t.links l).task = .yielding { k with preferredLinks := rest }
  | _ => True

theorem yieldToPreferred_pops (s : State) (l : LinkId) (k : OutgoingPacket) :
    (s.yieldToPreferred l k).Pops s l k := by
  unfold yieldToPreferred
  split
  · trivial
  next x rest listed =>
  dsimp only
  split
  · next gives =>
      exact .inr ⟨x, rest, listed, gives.1.symm, by simpa using gives.2, by simp [setTask]⟩
  · trivial

theorem leaveSleep_pops (s : State) (l : LinkId) (k : OutgoingPacket) :
    (s.leaveSleep l k).Pops s l k :=
  yieldToPreferred_pops (s.modifyLink l ({ · with permit := true })) l k

theorem setTask_pops (s : State) {task : QueueTask} (holds : task.packet? = some k)
    (still : ∀ k', task ≠ .yielding k') : (Resumed.waits (s.setTask l task)).Pops s l k :=
  .inl (by simpa [setTask] using ⟨holds, still⟩)

theorem recheckLink_pops (s : State) (l : LinkId) (k : OutgoingPacket) :
    (s.recheckLink l k).Pops s l k := by
  unfold recheckLink
  split
  · exact leaveSleep_pops s l k
  · exact setTask_pops s rfl nofun

theorem waitForNode_pops (s : State) (l : LinkId) (k : OutgoingPacket) :
    (s.waitForNode l k).Pops s l k := by
  unfold waitForNode
  split
  · exact recheckLink_pops s l k
  · exact setTask_pops s rfl nofun

theorem waitForLink_pops (s : State) (l : LinkId) (k : OutgoingPacket) :
    (s.waitForLink l k).Pops s l k := by
  unfold waitForLink
  split
  · exact waitForNode_pops s l k
  · exact setTask_pops s rfl nofun

theorem startSleep_pops (net : InMemoryNetwork) (s : State) (l : LinkId) (k : OutgoingPacket) :
    (s.startSleep net l k).Pops s l k := by
  unfold startSleep
  split
  · trivial
  · exact .inl (by simp [QueueTask.packet?])

theorem sleepUntilReadyToSend_pops (net : InMemoryNetwork) (s : State) (l : LinkId)
    (k : OutgoingPacket) : (s.sleepUntilReadyToSend net l k).Pops s l k := by
  unfold sleepUntilReadyToSend
  split
  · dsimp only
    split
    · exact startSleep_pops net (s.modifyLink l _) l k
    · exact setTask_pops (s.modifyLink l _) rfl nofun
  · trivial

/-- The copy that the task of a link works on next: the one it holds, or the first of its queue. -/
def NextCopy (s : State) (l : LinkId) (k : OutgoingPacket) : Prop :=
  (s.links l).task.packet? = some k ∨
    (s.links l).task = .idle ∧ (s.outgoing l).head? = some k

theorem resume_pops (resumed : s.resume net l = .waits t) :
    ∃ k, s.NextCopy l k ∧ (Resumed.waits t).Pops s l k := by
  unfold resume at resumed
  cases task : (s.links l).task with
  | panicked => simp [task] at resumed
  | idle =>
      rw [task] at resumed
      dsimp only at resumed
      unfold takeOutgoing at resumed
      split at resumed
      · cases resumed
      next k rest queued =>
      refine ⟨k, .inr ⟨task, by rw [outgoing, queued]; rfl⟩, ?_⟩
      rw [← resumed]
      dsimp only
      split
      · trivial
      · exact yieldToPreferred_pops (State.modifyLink _ l _) l k
      · exact sleepUntilReadyToSend_pops net (State.modifyLink _ l _) l k
  | acquiring k =>
      -- From here on the task has taken its copy from the channel already.
      refine ⟨k, .inl (by rw [task]; rfl), ?_⟩
      rw [← resumed, task]
      dsimp only
      split
      · exact startSleep_pops net s l k
      · trivial
  | sleeping k deadline =>
      refine ⟨k, .inl (by rw [task]; rfl), ?_⟩
      rw [← resumed, task]
      dsimp only
      split
      · exact leaveSleep_pops s l k
      split
      · exact waitForLink_pops s l k
      · trivial
  | waitingForLink k notifier =>
      refine ⟨k, .inl (by rw [task]; rfl), ?_⟩
      rw [← resumed, task]
      dsimp only
      split
      · exact leaveSleep_pops s l k
      split
      · exact waitForNode_pops s l k
      · trivial
  | waitingForNode k notifier =>
      refine ⟨k, .inl (by rw [task]; rfl), ?_⟩
      rw [← resumed, task]
      dsimp only
      split
      · exact leaveSleep_pops s l k
      split
      · exact recheckLink_pops s l k
      · trivial
  | yielding k =>
      refine ⟨k, .inl (by rw [task]; rfl), ?_⟩
      rw [← resumed, task]
      exact yieldToPreferred_pops s l k

theorem resume_outgoing (stops : (s.resume net l).state? = some t) : t.outgoing l ⊆ s.outgoing l := by
  have kept {u : State} {packet : OutgoingPacket} {resumed : Resumed}
      (continues : resumed.Continues u l packet) (stops : resumed.state? = some t) :
      t.outgoing l = u.outgoing l := by
    cases resumed with
    | blocked => cases stops
    | waits t' | ready t' k =>
        obtain rfl := Option.some.inj stops
        exact congrArg Channel.messages continues.2.1
    | panics t' =>
        obtain rfl := Option.some.inj stops
        exact congrArg Channel.messages continues.2
  rcases resume_cases net s l with blocked | ⟨packet, -, continues⟩ |
    ⟨packet, rest, -, queued, continues⟩
  · rw [blocked] at stops
    cases stops
  · rw [kept continues stops]
    exact List.Subset.refl _
  · rw [kept continues stops, queued, outgoing, modifyLink_self]
    exact List.subset_cons_self packet rest

/-- A poll of the task of a link takes packets from its queue, and leaves it waiting with
the copy it works on, giving way with it, or without a copy. -/
theorem pollLink_pops (taken : s.pollLink net l = some s') :
    s'.outgoing l ⊆ s.outgoing l ∧
      ((∃ k, s.NextCopy l k ∧ s.resume net l = .waits s' ∧ (Resumed.waits s').Pops s l k) ∨
        (s'.links l).task = .idle ∨ (s'.links l).task = .panicked) := by
  have fewer {t : State} := @resume_outgoing net s t l
  have resumes := resume_resumes net s l
  unfold pollLink at taken
  split at taken
  · cases taken
  · next t resumed =>
      obtain rfl := Option.some.inj taken
      rw [resumed] at fewer
      obtain ⟨k, next, pops⟩ := resume_pops resumed
      exact ⟨fewer rfl, .inl ⟨k, next, resumed, pops⟩⟩
  · next t k resumed =>
      obtain rfl := Option.some.inj taken
      rw [resumed] at fewer resumes
      cases resumes with
      | ready takes =>
          refine ⟨fun k' member => fewer rfl ?_, .inr ?_⟩
          · have inside := handle_copies (List.mem_append_right _ member)
            simpa [LinkState.copies, takes.idle, QueueTask.packet?] using inside
          · exact (handle_task net t l k).imp_left (·.trans takes.idle)
  · obtain rfl := Option.some.inj taken
    refine ⟨?_, .inr (.inr (by rw [endQueueTask_self]))⟩
    rw [outgoing, endQueueTask_self]
    exact List.nil_subset _

theorem NextCopy.lists (listed : Listed s l) (next : s.NextCopy l k) :
    ∃ popped, l ∉ popped ∧ Lists s popped k ∧
      ((∀ k', (s.links l).task ≠ .yielding k') → popped = []) := by
  by_cases yields : ∃ k', (s.links l).task = .yielding k'
  · obtain ⟨k', yields⟩ := yields
    rcases next with holds | ⟨idle, -⟩
    · rw [yields] at holds
      obtain rfl := Option.some.inj holds
      obtain ⟨popped, absent, lists⟩ := listed.yielding k' yields
      exact ⟨popped, absent, lists, fun still => absurd yields (still k')⟩
    · rw [yields] at idle
      cases idle
  · have still := not_exists.mp yields
    refine ⟨[], List.not_mem_nil, ?_, fun _ => rfl⟩
    rcases next with holds | ⟨-, first⟩
    · exact listed.held k holds still
    · exact listed.queued k (List.mem_of_mem_head? first)

/-- A task that gives way gives way again, or lets go of its copy. -/
theorem resume_yielding (task : (s.links l).task = .yielding k) :
    (∃ t k', s.resume net l = .waits t ∧ (t.links l).task = .yielding k') ∨
      ∃ t k', s.resume net l = .ready t k' ∧ k'.SameCopy k := by
  unfold resume
  rw [task]
  dsimp only
  unfold yieldToPreferred
  split
  · exact .inr ⟨_, _, rfl, rfl⟩
  · dsimp only
    split
    · exact .inl ⟨_, _, rfl, by simp [setTask]; rfl⟩
    · exact .inr ⟨_, _, rfl, rfl⟩

theorem Listed.pollLink (listed : Listed s l) (taken : s.pollLink net l = some s') :
    Listed s' l := by
  have kept (i : Nat) (d : Dispatch) (found : s.dispatches[i]? = some d) :=
    (pollLink_retains taken).lookup found
  obtain ⟨fewer, works⟩ := pollLink_pops taken
  have queued (k : OutgoingPacket) (member : k ∈ s'.outgoing l) : Lists s' [] k :=
    (listed.queued k (fewer member)).congr kept
  rcases works with ⟨k, next, waits, pops⟩ | idle | panicked
  · obtain ⟨popped, absent, lists, whole⟩ := next.lists listed
    rcases pops with ⟨holds, still⟩ | ⟨x, rest, first, differs, -, yields⟩
    · refine ⟨queued, fun k' holds' _ => ?_, fun k' yields => absurd yields (still k')⟩
      obtain rfl := Option.some.inj (holds.symm.trans holds')
      rw [whole fun k' yielding => ?_] at lists
      · exact lists.congr kept
      · -- A task that gave way does not wait with its copy in any other way.
        rcases resume_yielding yielding with ⟨t, k'', resumed, yields⟩ | ⟨t, k'', resumed, -⟩
        · obtain rfl := Resumed.waits.inj (waits.symm.trans resumed)
          exact still k'' yields
        · cases waits.symm.trans resumed
    · refine ⟨queued, fun k' _ still => absurd yields (still _), fun k' yields' => ?_⟩
      obtain rfl := QueueTask.yielding.inj (yields.symm.trans yields')
      refine ⟨popped ++ [x], by simp [absent, differs.symm], Lists.congr ?_ kept⟩
      obtain ⟨d, found, links⟩ := lists
      exact ⟨d, found, by rw [links, first, List.append_assoc]; rfl⟩
  all_goals
    refine ⟨queued, fun k holds _ => ?_, fun k yields => ?_⟩
  · simp [idle, QueueTask.packet?] at holds
  · simp [idle] at yields
  · simp [panicked, QueueTask.packet?] at holds
  · simp [panicked] at yields

/-- A round of a buffer processor that dispatches a packet gives copies of it, which list
all of its candidate links, to these. -/
theorem processBuffer_dispatches {n : NodeId} {rolls : List (Nat × Nat)}
    (taken : s.processBuffer net n rolls = some s') :
    s'.dispatches = s.dispatches ∧ s'.links = s.links ∨ ∃ packet links,
      net.candidateLinks n packet.data.transmit.destination.ip = .ok links ∧
      s'.dispatches = s.dispatches ++ [⟨n, packet, links, false, []⟩] ∧
      ∀ l, ∀ k ∈ s'.outgoing l, k ∈ s.outgoing l ∨
        k.handled = s.dispatches.length ∧ k.preferredLinks = links := by
  obtain ⟨packet, rest, queued, rfl | ⟨links, t, walked, pushes, ends⟩⟩ := processBuffer_cases taken
  · exact .inl ⟨rfl, rfl⟩
  · have pushed := pushCopies_pushed net n packet s.dispatches.length links links rolls
      ((s.takeBuffered n rest).openDispatch n packet links)
    have copies (l : LinkId) (k : OutgoingPacket) (member : k ∈ t.outgoing l) :
        k ∈ s.outgoing l ∨ k.handled = s.dispatches.length ∧ k.preferredLinks = links := by
      rw [pushes] at member
      refine (pushCopies_outgoing net n packet _ links links rolls _ member).imp_right ?_
      rintro ⟨anomalies, -, rfl⟩
      exact ⟨rfl, rfl⟩
    have dispatches : t.dispatches = s.dispatches ++ [⟨n, packet, links, false, []⟩] :=
      pushes ▸ pushed.dispatches
    refine .inr ⟨packet, links, walked, ?_⟩
    rcases ends with rfl | rfl
    all_goals exact ⟨dispatches, copies⟩

/-- Nothing withdraws a packet that was dispatched, or changes its links. -/
theorem step_lookup {action : Action} (taken : s.step net action = some s') (i : Nat) (d : Dispatch)
    (found : s.dispatches[i]? = some d) : ∃ d', s'.dispatches[i]? = some d' ∧ d'.offer = d.offer := by
  by_cases buffered : ∃ n rolls, action = .processBuffer n rolls
  · obtain ⟨n, rolls, rfl⟩ := buffered
    simp only [step] at taken
    split at taken
    · cases taken
    rcases processBuffer_dispatches taken with ⟨same, -⟩ | ⟨packet, links, -, more, -⟩
    · exact ⟨d, same ▸ found, rfl⟩
    · refine ⟨d, ?_, rfl⟩
      rw [more, List.getElem?_append_left (List.getElem?_eq_some_iff.mp found).1, found]
  · exact (step_retains taken fun n rolls same => buffered ⟨n, rolls, same⟩).lookup found

/-- Nothing makes a packet unhandled again. -/
theorem step_handled {action : Action} (taken : s.step net action = some s') {i : Nat}
    (handled : s.handled i = true) : s'.handled i = true := by
  by_cases buffered : ∃ n rolls, action = .processBuffer n rolls
  · obtain ⟨n, rolls, rfl⟩ := buffered
    simp only [step] at taken
    split at taken
    · cases taken
    rcases processBuffer_dispatches taken with ⟨same, -⟩ | ⟨packet, links, -, more, -⟩
    · rwa [State.handled, same]
    · obtain ⟨d, found, closed⟩ := (Option.any_eq_true _ _).mp handled
      rw [State.handled, more, List.getElem?_append_left (List.getElem?_eq_some_iff.mp found).1, found]
      exact closed
  · exact (step_retains taken fun n rolls same => buffered ⟨n, rolls, same⟩).handled i handled

theorem Listed.step {action : Action} (listed : Listed s l) (taken : s.step net action = some s') :
    Listed s' l := by
  have kept := step_lookup taken
  by_cases own : action = .pollLink l
  · subst own
    simp only [State.step] at taken
    split at taken
    · cases taken
    · exact listed.pollLink taken
  by_cases buffered : ∃ n rolls, action = .processBuffer n rolls
  · obtain ⟨n, rolls, rfl⟩ := buffered
    have task := (step_taskKept taken own).task
    simp only [State.step] at taken
    split at taken
    · cases taken
    rcases processBuffer_dispatches taken with ⟨-, same⟩ | ⟨packet, links, -, more, copies⟩
    · exact listed.congr task (by rw [outgoing, same]) kept
    refine ⟨fun k member => ?_, fun k holds still => ?_, fun k yields => ?_⟩
    · rcases copies l k member with old | ⟨flag, all⟩
      · exact (listed.queued k old).congr kept
      · exact ⟨_, by rw [more, flag, List.getElem?_concat_length], all.symm⟩
    · rw [task] at holds still
      exact (listed.held k holds still).congr kept
    · rw [task] at yields
      obtain ⟨popped, absent, lists⟩ := listed.yielding k yields
      exact ⟨popped, absent, lists.congr kept⟩
  · have same := step_linkKept taken own fun n rolls same => buffered ⟨n, rolls, same⟩
    exact listed.congr same.task (congrArg Channel.messages same.queue) kept

theorem Listed.initial (net : InMemoryNetwork) (l : LinkId) : Listed (State.initial net) l :=
  ⟨nofun, nofun, nofun⟩

/-- The candidate links of the packets that were dispatched are links of the network. -/
def Linked (net : InMemoryNetwork) (s : State) : Prop :=
  ∀ d ∈ s.dispatches, ∀ l ∈ d.links, l ∈ net.linkIds

theorem Linked.step {spec : NetworkSpec} {action : Action} (built : net.Built spec)
    (linked : Linked net s) (taken : s.step net action = some s') : Linked net s' := by
  intro d member
  obtain ⟨i, found⟩ := List.mem_iff_getElem?.mp member
  have earlier (offer : (s'.dispatches[i]?).map Dispatch.offer =
      (s.dispatches[i]?).map Dispatch.offer) : ∀ l ∈ d.links, l ∈ net.linkIds := by
    rw [found] at offer
    obtain ⟨d', found', same⟩ := Option.map_eq_some_iff.mp offer.symm
    have links : d'.links = d.links := congrArg Prod.snd same
    exact links ▸ linked d' (List.mem_of_getElem? found')
  by_cases buffered : ∃ n rolls, action = .processBuffer n rolls
  · obtain ⟨n, rolls, rfl⟩ := buffered
    simp only [State.step] at taken
    split at taken
    · cases taken
    rcases processBuffer_dispatches taken with ⟨same, -⟩ | ⟨packet, links, walked, more, -⟩
    · exact earlier (by rw [same])
    · rw [more, List.mem_append, List.mem_singleton] at member
      rcases member with old | rfl
      · exact linked d old
      · exact candidateLinks_known built walked
  · exact earlier ((step_retains taken fun n rolls same => buffered ⟨n, rolls, same⟩).offer i)

end State

end Workbench.Network
