import Workbench.Network.Clearing
import Workbench.Network.TimeToLive

/-! The order of the packets on a link.

The queue of a link and its task keep the order of packets, but what is in transit is kept in
a heap, by arrival time and then by the number that a packet got when it was injected. -/

set_option autoImplicit false

namespace Workbench.Tracing.SimulationStep

open Workbench.Network

/-- The packet that is sent over a link. -/
def sentOver? (l : LinkId) (step : SimulationStep) : Option Uuid :=
  match step.kind with
  | .packetInTransit s => if s.linkId = l then some s.packetId else none
  | _ => none

/-- The packet that gets to a node. -/
def inNode? (step : SimulationStep) : Option Uuid :=
  match step.kind with
  | .packetInNode s => some s.packetId
  | _ => none

theorem inNode?_of_forwards {step : SimulationStep} (none : step.forwards? = none) :
    step.inNode? = Option.none := by
  obtain ⟨time, kind⟩ := step
  cases kind with
  | packetInNode s => cases none
  | _ => rfl

theorem inNode?_of_copy {step : SimulationStep} {id : Uuid} {number number' : Nat}
    (copy : step.copy? = some (id, number)) (forwards : step.forwards? = some number') :
    step.inNode? = some id := by
  obtain ⟨time, kind⟩ := step
  cases kind with
  | packetInNode s => exact congrArg (Option.map Prod.fst) copy
  | _ => cases forwards

end Workbench.Tracing.SimulationStep

namespace Workbench.Network

open Workbench.Library Workbench.Tracing

/-- The packets that a link has sent, in order. -/
def sentOver (l : LinkId) (trace : List SimulationStep) : List Uuid :=
  trace.filterMap (·.sentOver? l)

namespace State

/-- The packets that a move pushes on the queue of a link. -/
def pushes (net : InMemoryNetwork) (l : LinkId) (move : State × Action) : List Uuid :=
  match move.2 with
  | .processBuffer .. => ((move.1.step net move.2).map fun s' =>
      ((s'.outgoing l).drop (move.1.outgoing l).length).map (·.data.id)).getD []
  | _ => []

/-- The packets that a move of the forwarder of a link forwards. -/
def forwards (net : InMemoryNetwork) (l : LinkId) (move : State × Action) : List Uuid :=
  match move.2 with
  | .pollForwarder l' .. => if l' = l then ((move.1.step net move.2).map fun s' =>
      (s'.trace.drop move.1.trace.length).filterMap (·.inNode?)).getD [] else []
  | _ => []

/-- The packets pushed on the queue of a link in a run, in order. -/
def pushedOn (net : InMemoryNetwork) (l : LinkId) (past : List (State × Action)) : List Uuid :=
  past.reverse.flatMap (pushes net l)

/-- The packets that came over a link and were forwarded in a run, in order. -/
def forwardedOver (net : InMemoryNetwork) (l : LinkId) (past : List (State × Action)) : List Uuid :=
  past.reverse.flatMap (forwards net l)

variable {net : InMemoryNetwork} {s s' t : State} {l : LinkId} {k : OutgoingPacket}

theorem pushedOn_cons (move : State × Action) (past : List (State × Action)) :
    pushedOn net l (move :: past) = pushedOn net l past ++ pushes net l move := by
  simp [pushedOn]

theorem forwardedOver_cons (move : State × Action) (past : List (State × Action)) :
    forwardedOver net l (move :: past) = forwardedOver net l past ++ forwards net l move := by
  simp [forwardedOver]

/-- The packets that wait for a link, in the order of its queue. -/
def lined (s : State) (l : LinkId) : List Uuid := (s.links l).copies.map (·.data.id)

/-- A step after which no packet more has left a link, and at most fewer wait for it. -/
structure Stays (s s' : State) (l : LinkId) : Prop where
  sent : sentOver l s'.trace = sentOver l s.trace
  lined : (s'.lined l).Sublist (s.lined l)
  inTransit : (s'.links l).inTransit.queue = (s.links l).inTransit.queue

/-- A link sends the first packet that waits for it. -/
structure Sends (net : InMemoryNetwork) (s s' : State) (l : LinkId) : Prop where
  call : ∃ call, s.sendCall net (.pollLink l) = some call ∧ call.link = l ∧
    ∃ data : InTransitData, data.id = call.packet.data.id ∧ data.number = call.packet.data.number ∧
      sentOver l s'.trace = sentOver l s.trace ++ [data.id] ∧ s.lined l = data.id :: s'.lined l ∧
      (s'.links l).inTransit.queue = (s.links l).inTransit.queue ++
        [⟨data, s.now, (s.links l).delay + call.packet.anomalies.extraDelay⟩]

theorem Takes.lined (takes : s.Takes t l k) : s.lined l = k.data.id :: t.lined l := by
  obtain ⟨k₀, same, copies⟩ := takes.copies
  have mine : (t.links l).copies = t.outgoing l := by
    rw [LinkState.copies, takes.idle]
    rfl
  rw [State.lined, State.lined, copies, mine, List.map_cons, same.fields.2.2.1]

theorem Works.stays (works : Works s t l) (lined : (s'.lined l).Sublist (s.lined l))
    (log : s'.log = t.log) (inTransit : (s'.links l).inTransit = (t.links l).inTransit) :
    Stays s s' l :=
  ⟨by rw [trace, trace, log, works.log], lined, by rw [inTransit, works.inTransit]⟩

theorem endQueueTask_lined (s : State) (l : LinkId) : (s.endQueueTask l).lined l = [] := by
  rw [State.lined, endQueueTask_copies, List.map_nil]

theorem handle_stays (member : l ∈ net.linkIds) (resumed : s.resume net l = .ready t k)
    (takes : s.Takes t l k) : Stays s (t.handle net l k) l ∨ Sends net s (t.handle net l k) l := by
  have works := takes.works
  have fewer : (t.lined l).Sublist (s.lined l) := by
    rw [takes.lined]
    exact List.sublist_cons_self _ _
  unfold handle
  split
  · exact .inl (works.stays fewer rfl rfl)
  next unhandled =>
  rw [Bool.not_eq_true] at unhandled
  dsimp only
  split
  · refine .inl ⟨?_, fewer, by rw [← works.inTransit]; rfl⟩
    have told : (t.dropCleared l k).trace =
        s.trace ++ [⟨t.now, .packetDropped ⟨k.data.id, k.srcNode, .bufferCleared⟩⟩] := by
      rw [trace, trace, ← works.log]
      exact List.filterMap_append
    exact (congrArg (sentOver l) told).trans (by simp [sentOver, SimulationStep.sentOver?])
  next kept =>
  rw [Bool.not_eq_true] at kept
  split
  · next s' sent =>
    obtain ⟨data, pacer, -, marked, rfl⟩ := send_carry sent
    obtain ⟨id, number, -⟩ := PacketAnomalies.mark_some marked
    have called : s.sendCall net (.pollLink l) = some ⟨t.markHandled k, l, k⟩ :=
      sendCall_eq_some.mpr ⟨l, t, k, rfl, member, resumed, unhandled, kept, rfl⟩
    have told : (((t.markHandled k).carry l k data pacer).noteAct k.handled l .sent).trace =
        s.trace ++ [⟨t.now, .packetInTransit ⟨data.id, k.srcNode, l⟩⟩] := by
      rw [trace, trace, ← works.log]
      exact List.filterMap_append
    have carried : (((t.markHandled k).carry l k data pacer).noteAct k.handled l .sent).lined l =
        t.lined l := by
      rw [State.lined, noteAct_links, carry_self]
      rfl
    refine .inr ⟨_, called, rfl, data, id, number, ?_, ?_, ?_⟩
    · refine (congrArg (sentOver l) told).trans ?_
      simp [sentOver, SimulationStep.sentOver?]
    · rw [takes.lined, id]
      exact congrArg _ carried.symm
    · have queue := congrArg InboundQueue.queue (congrArg LinkState.inTransit
        (carry_self (t.markHandled k) l k data pacer))
      refine queue.trans ?_
      rw [markHandled_links, ← works.inTransit, ← works.delay, ← works.now]
      rfl
  · refine .inl (works.stays ?_ rfl ?_)
    · exact (endQueueTask_lined (t.markHandled k) l).symm ▸ List.nil_sublist _
    · change (((t.markHandled k).endQueueTask l).links l).inTransit = _
      rw [endQueueTask_self]
      rfl

theorem pollLink_stays (taken : s.step net (.pollLink l) = some s') :
    Stays s s' l ∨ Sends net s s' l := by
  simp only [step] at taken
  split at taken
  · cases taken
  next member =>
  unfold pollLink at taken
  have resumes := resume_resumes net s l
  have works {t : State} := @resume_works net s t l
  cases resumed : s.resume net l with
  | blocked => simp [resumed] at taken
  | waits t =>
      rw [resumed] at taken resumes works
      obtain rfl := Option.some.inj taken
      cases resumes with
      | waits quiet =>
          have same : t.lined l = s.lined l := by
            have ids : List.Forall₂ (· = ·) (t.lined l) (s.lined l) := by
              rw [State.lined, State.lined, List.forall₂_map_left_iff, List.forall₂_map_right_iff]
              exact (quiet.copies l).imp fun _ _ same => by rw [same.fields.2.2.1]
            rwa [List.forall₂_eq_eq_eq] at ids
          exact .inl ((works rfl).stays (same ▸ List.Sublist.refl _) rfl rfl)
  | ready t k =>
      rw [resumed] at taken resumes
      obtain rfl := Option.some.inj taken
      cases resumes with
      | ready takes => exact handle_stays (not_not.mp member) resumed takes
  | panics t =>
      rw [resumed] at taken works
      obtain rfl := Option.some.inj taken
      refine .inl ((works rfl).stays ?_ rfl ?_)
      · exact (endQueueTask_lined t l).symm ▸ List.nil_sublist _
      · rw [endQueueTask_self]

/-- Only its own polls tell of packets that a link sends. -/
theorem sentOver_step {action : Action} (taken : s.step net action = some s')
    (unpolled : action ≠ .pollLink l) : sentOver l s'.trace = sentOver l s.trace := by
  obtain ⟨told, grown⟩ := trace_prefix taken
  have none : told.filterMap (·.sentOver? l) = [] := by
    refine List.filterMap_eq_nil_iff.mpr fun step member => ?_
    cases kind : step.kind with
    | packetInTransit event =>
        obtain ⟨l', t, k, rfl, -, -, -, rfl⟩ := step_transit taken grown.symm member kind
        have differs : l' ≠ l := fun same => unpolled (same ▸ rfl)
        simp [SimulationStep.sentOver?, kind, differs]
    | _ => simp [SimulationStep.sentOver?, kind]
  rw [← grown, sentOver, sentOver, List.filterMap_append, none, List.append_nil]

theorem LinkKept.lined (kept : LinkKept s s' l) : s'.lined l = s.lined l := by
  rw [State.lined, State.lined, LinkState.copies, LinkState.copies, kept.task, kept.queue]

/-- A round of a buffer processor only adds packets at the end of a queue. -/
theorem processBuffer_lined {n : NodeId} {rolls : List (Nat × Nat)}
    (taken : s.step net (.processBuffer n rolls) = some s') (l : LinkId) :
    s'.lined l = s.lined l ++ pushes net l (s, .processBuffer n rolls) := by
  have new : pushes net l (s, .processBuffer n rolls) =
      ((s'.outgoing l).drop (s.outgoing l).length).map (·.data.id) := by
    simp [pushes, taken]
  simp only [step] at taken
  split at taken
  · cases taken
  rw [new]
  obtain ⟨-, same | ⟨packet, rest, links, -, -, same⟩⟩ := processBuffer_links taken
  · simp [State.lined, State.outgoing, same]
  · have pushed := pushCopies_pushed net n packet s.dispatches.length links links rolls
      ((s.takeBuffered n rest).openDispatch n packet links)
    obtain ⟨copies, queue, -⟩ := pushed.queues l
    rw [← same] at queue
    have outgoing : s'.outgoing l = s.outgoing l ++ copies := by
      rw [State.outgoing, queue]
      rfl
    rw [outgoing, List.drop_left, State.lined, State.lined, queue, ← List.map_append]
    simp only [LinkState.copies, List.append_assoc]
    rfl

/-! What a forwarder forwards, it has taken from its link. -/

theorem arrive_inNodes (net : InMemoryNetwork) (s : State) (l : LinkId)
    (transmit : DeliveredTransmit) (roll : Nat) :
    ∃ told, (s.arrive net l transmit roll).1.trace = s.trace ++ told ∧
      (told.filterMap (·.inNode?)).Sublist [transmit.data.id] := by
  have noted : (s.note (.arrived l transmit.data.id)).trace = s.trace := by
    simp [trace, note, LogEntry.step?]
  unfold arrive
  dsimp only
  split
  · refine ⟨[⟨s.now, .packetLostInTransit ⟨transmit.data.id, l⟩⟩], ?_, List.nil_sublist _⟩
    simp [trace, note, trackLostInTransit, record]
    rfl
  split
  · exact ⟨[], by simp [trace, note, LogEntry.step?], List.nil_sublist _⟩
  · next node _ =>
    obtain ⟨call, told, grown, copy, forwards, -, duplicates⟩ := (forward_forwards net
      (s.note (.arrived l transmit.data.id)) node transmit.data roll).told
    have none : told.filterMap (·.inNode?) = [] := by
      refine List.filterMap_eq_nil_iff.mpr fun step member =>
        SimulationStep.inNode?_of_forwards ?_
      exact (duplicates step member).elim (·.forwards) (·.1)
    refine ⟨call :: told, by rw [grown, noted], ?_⟩
    rw [List.filterMap_cons_some (SimulationStep.inNode?_of_copy copy forwards), none]

theorem arriveAll_inNodes (net : InMemoryNetwork) (l : LinkId) (delivered : List DeliveredTransmit)
    (rolls : List Nat) (s : State) :
    ∃ told, (arriveAll net l delivered rolls s).trace = s.trace ++ told ∧
      (told.filterMap (·.inNode?)).Sublist (delivered.map (·.data.id)) := by
  induction delivered generalizing rolls s with
  | nil => exact ⟨[], (List.append_nil _).symm, List.nil_sublist _⟩
  | cons transmit delivered ih =>
      obtain ⟨told, grown, one⟩ := arrive_inNodes net s l transmit (rolls.headD 0)
      unfold arriveAll
      generalize s.arrive net l transmit (rolls.headD 0) = result at grown
      obtain ⟨s', exit⟩ := result
      cases exit with
      | returned =>
          obtain ⟨told', grown', rest⟩ := ih rolls.tail s'
          refine ⟨told ++ told', by rw [grown', grown, List.append_assoc], ?_⟩
          rw [List.filterMap_append]
          exact one.append rest
      | panicked => exact ⟨told, grown, one.trans (by simp)⟩

theorem step_now_le {action : Action} (taken : s.step net action = some s') : s.now ≤ s'.now :=
  step_kept taken (fun m => s.now ≤ m.state.now) (le_refl _) fun _ _ _ before effect =>
    before.trans effect.now_le

/-- The heap of a link is in the order in which its packets were sent. -/
structure Ordered (net : InMemoryNetwork) (l : LinkId) (past : List (State × Action)) (s : State) :
    Prop where
  taken : ∃ ids, sentOver l s.trace = ids ++ (s.links l).inTransit.queue.map (·.data.id) ∧
    (forwardedOver net l past).Sublist ids
  inOrder : (s.links l).inTransit.queue.Pairwise fun p q => q.notAfter p = false
  recent : ∀ p ∈ (s.links l).inTransit.queue, p.sent ≤ s.now ∧ p.delay = (net.links l).delay

theorem Ordered.pollForwarder {past : List (State × Action)} {ties rolls : List Nat}
    (ordered : Ordered net l past s) (taken : s.step net (.pollForwarder l ties rolls) = some s') :
    Ordered net l ((s, .pollForwarder l ties rolls) :: past) s' := by
  have sent := sentOver_step (l := l) taken nofun
  have later := step_now_le taken
  have forwarded : forwards net l (s, .pollForwarder l ties rolls) =
      (s'.trace.drop s.trace.length).filterMap (·.inNode?) := by
    simp [forwards, taken]
  obtain ⟨⟨ids, before, sublist⟩, inOrder, recent⟩ := ordered
  simp only [step] at taken
  split at taken
  · cases taken
  unfold State.pollForwarder at taken
  dsimp only at taken
  split at taken
  · cases taken
  split at taken
  · next delivery inTransit polled =>
    obtain rfl := Option.some.inj taken
    have same := NextPacketDelivery.poll_pending polled
    refine ⟨⟨ids, ?_, ?_⟩, ?_, ?_⟩
    · rw [sent, before, modifyLink_self, same]
    · rw [forwardedOver_cons, forwarded]
      simpa [trace, modifyLink] using sublist
    · rw [modifyLink_self, same]
      exact inOrder
    · rw [modifyLink_self, same]
      exact recent
  -- What arrives is a prefix of what is in transit, and what is forwarded a sublist of it.
  · next delivered delivery inTransit polled =>
    obtain rfl := Option.some.inj taken
    obtain ⟨suffix, same⟩ := NextPacketDelivery.poll_inOrder inOrder polled
    obtain ⟨told, grown, one⟩ := arriveAll_inNodes net l delivered rolls
      (s.modifyLink l ({ · with inTransit, forwarder := ⟨true, delivery⟩ }))
    obtain ⟨forwarder, kept⟩ := arriveAll_link net l delivered rolls
      (s.modifyLink l ({ · with inTransit, forwarder := ⟨true, delivery⟩ }))
    have left : ((arriveAll net l delivered rolls
        (s.modifyLink l ({ · with inTransit, forwarder := ⟨true, delivery⟩ }))).links l).inTransit =
          inTransit := by rw [kept, modifyLink_self]
    have told' : forwards net l (s, .pollForwarder l ties rolls) = told.filterMap (·.inNode?) := by
      rw [forwarded, grown]
      exact congrArg _ (List.drop_left ..)
    refine ⟨⟨ids ++ delivered.map (·.data.id), ?_, ?_⟩, ?_, ?_⟩
    · have ids' := congrArg (List.map fun t : DeliveredTransmit => t.data.id) same
      rw [List.map_map, List.map_append, List.map_map] at ids'
      rw [sent, before, left, List.append_assoc]
      exact congrArg _ ids'
    · rw [forwardedOver_cons, told']
      exact sublist.append one
    · rw [left]
      exact inOrder.sublist suffix.sublist
    · rw [left]
      refine fun p member => ?_
      obtain ⟨early, delay⟩ := recent p (suffix.subset member)
      exact ⟨early.trans later, delay⟩

/-- What the link sends in a move has a higher number than what it has sent at that instant, as
far as that is still in transit. -/
def SendsInOrder (net : InMemoryNetwork) (l : LinkId) (move : State × Action) : Prop :=
  ∀ call, move.1.sendCall net move.2 = some call → call.link = l →
    ∀ p ∈ (move.1.links l).inTransit.queue, p.sent = move.1.now →
      p.data.number < call.packet.data.number

/-- The delay of a link is the one it started with, and it sends nothing with an extra delay. -/
structure SteadyDelay (net : InMemoryNetwork) (l : LinkId) (move : State × Action) : Prop where
  delay : (move.1.links l).delay = (net.links l).delay
  extra : ∀ call, move.1.sendCall net move.2 = some call → call.link = l →
    call.packet.anomalies.extraDelay = 0

theorem forwards_of_ne {action : Action} (unforwarded : ∀ ties rolls, action ≠ .pollForwarder l ties rolls) :
    forwards net l (s, action) = [] := by
  cases action with
  | pollForwarder l' ties rolls =>
      have differs : l' ≠ l := fun same => unforwarded ties rolls (same ▸ rfl)
      simp [forwards, differs]
  | _ => rfl

theorem Ordered.stays {past : List (State × Action)} {action : Action} (ordered : Ordered net l past s)
    (unforwarded : ∀ ties rolls, action ≠ .pollForwarder l ties rolls) (later : s.now ≤ s'.now)
    (sent : sentOver l s'.trace = sentOver l s.trace)
    (inTransit : (s'.links l).inTransit.queue = (s.links l).inTransit.queue) :
    Ordered net l ((s, action) :: past) s' := by
  obtain ⟨⟨ids, before, sublist⟩, inOrder, recent⟩ := ordered
  refine ⟨⟨ids, by rw [sent, before, inTransit], ?_⟩, inTransit ▸ inOrder, fun p member => ?_⟩
  · rwa [forwardedOver_cons, forwards_of_ne unforwarded, List.append_nil]
  · obtain ⟨early, delay⟩ := recent p (inTransit ▸ member)
    exact ⟨early.trans later, delay⟩

theorem Ordered.sends {past : List (State × Action)} (ordered : Ordered net l past s)
    (steady : SteadyDelay net l (s, .pollLink l)) (inOrder : SendsInOrder net l (s, .pollLink l))
    (later : s.now ≤ s'.now) (sends : Sends net s s' l) :
    Ordered net l ((s, .pollLink l) :: past) s' := by
  obtain ⟨call, called, link, data, -, number, sent, -, inTransit⟩ := sends.call
  obtain ⟨⟨ids, before, sublist⟩, ordered, recent⟩ := ordered
  have delay : (s.links l).delay + call.packet.anomalies.extraDelay = (net.links l).delay := by
    rw [steady.delay, steady.extra call called link, Nat.add_zero]
  rw [delay] at inTransit
  refine ⟨⟨ids, ?_, ?_⟩, ?_, fun p member => ?_⟩
  · rw [sent, before, inTransit, List.map_append, List.append_assoc]
    rfl
  · have none : forwards net l (s, .pollLink l) = [] := rfl
    rwa [forwardedOver_cons, none, List.append_nil]
  · rw [inTransit]
    refine List.pairwise_append.mpr ⟨ordered, List.pairwise_singleton _ _, fun p member q new => ?_⟩
    obtain rfl := List.mem_singleton.mp new
    obtain ⟨early, same⟩ := recent p member
    -- an earlier packet arrives earlier, and one of this instant has a lower number
    have lower (now : p.sent = s.now) := inOrder call called link p member now
    rw [← Bool.not_eq_true]
    intro after
    simp only [PrioritizedInTransitData.notAfter, PrioritizedInTransitData.arrivalTime, same,
      decide_eq_true_eq, number] at after
    rcases Nat.lt_or_eq_of_le early with before | now
    · omega
    · have less := lower now
      omega
  · rw [inTransit] at member
    rcases List.mem_append.mp member with old | new
    · obtain ⟨early, same⟩ := recent p old
      exact ⟨early.trans later, same⟩
    · obtain rfl := List.mem_singleton.mp new
      exact ⟨later, rfl⟩

theorem Ordered.step {past : List (State × Action)} {action : Action} (ordered : Ordered net l past s)
    (steady : SteadyDelay net l (s, action)) (inOrder : SendsInOrder net l (s, action))
    (taken : s.step net action = some s') : Ordered net l ((s, action) :: past) s' := by
  have later := step_now_le taken
  by_cases polled : action = .pollLink l
  · subst polled
    rcases pollLink_stays taken with stays | sends
    · exact ordered.stays (fun _ _ => nofun) later stays.sent stays.inTransit
    · exact ordered.sends steady inOrder later sends
  by_cases forwarded : ∃ ties rolls, action = .pollForwarder l ties rolls
  · obtain ⟨ties, rolls, rfl⟩ := forwarded
    exact ordered.pollForwarder taken
  · have unforwarded (ties rolls : List Nat) : action ≠ .pollForwarder l ties rolls :=
      fun same => forwarded ⟨ties, rolls, same⟩
    exact ordered.stays unforwarded later (sentOver_step taken polled)
      (congrArg InboundQueue.queue (step_inTransit taken polled unforwarded))

/-- What a link has sent, and what waits for it, was pushed on its queue in that order. -/
theorem pushedOn_step {past : List (State × Action)} {action : Action}
    (queued : (sentOver l s.trace ++ s.lined l).Sublist (pushedOn net l past))
    (taken : s.step net action = some s') :
    (sentOver l s'.trace ++ s'.lined l).Sublist (pushedOn net l ((s, action) :: past)) := by
  rw [pushedOn_cons]
  by_cases polled : action = .pollLink l
  · subst polled
    refine List.Sublist.trans ?_ (List.sublist_append_left _ _)
    rcases pollLink_stays taken with stays | ⟨call, -, -, data, -, -, sent, lined, -⟩
    · rw [stays.sent]
      exact (stays.lined.append_left _).trans queued
    · rw [sent, List.append_assoc, List.singleton_append, ← lined]
      exact queued
  rw [sentOver_step taken polled]
  by_cases buffered : ∃ n rolls, action = .processBuffer n rolls
  · obtain ⟨n, rolls, rfl⟩ := buffered
    rw [processBuffer_lined taken l, ← List.append_assoc]
    exact queued.append_right _
  · rw [(step_linkKept taken polled fun n rolls same => buffered ⟨n, rolls, same⟩).lined]
    exact queued.trans (List.sublist_append_left _ _)

/-- A link sends in the order of its queue; and where it sends in the order of the packets'
numbers at each instant, what comes over it is forwarded in the order in which it was sent. -/
theorem forwardedOver_inOrder {past : List (State × Action)} (l : LinkId)
    (run : Run (step net) (.initial net) past s) :
    (sentOver l s.trace).Sublist (pushedOn net l past) ∧
      ((∀ move ∈ past, SteadyDelay net l move) → (∀ move ∈ past, SendsInOrder net l move) →
        (forwardedOver net l past).Sublist (sentOver l s.trace)) := by
  constructor
  · have queued : (sentOver l s.trace ++ s.lined l).Sublist (pushedOn net l past) := by
      induction run with
      | start => exact List.Sublist.refl []
      | next _ taken ih => exact pushedOn_step ih taken
    exact (List.sublist_append_left _ _).trans queued
  · intro steady inOrder
    have ordered : Ordered net l past s := by
      induction run with
      | start => exact ⟨⟨[], rfl, List.Sublist.refl _⟩, List.Pairwise.nil, List.forall_mem_nil _⟩
      | next _ taken ih =>
          exact (ih (fun move member => steady move (List.mem_cons_of_mem _ member))
            fun move member => inOrder move (List.mem_cons_of_mem _ member)).step
              (steady _ List.mem_cons_self) (inOrder _ List.mem_cons_self) taken
    obtain ⟨ids, sent, sublist⟩ := ordered.taken
    rw [sent]
    exact sublist.trans (List.sublist_append_left _ _)

instance (net : InMemoryNetwork) (l : LinkId) (move : State × Action) :
    Decidable (SendsInOrder net l move) :=
  match called : move.1.sendCall net move.2 with
  | none => .isTrue fun call same => by simp [called] at same
  | some call => decidable_of_iff (call.link = l → ∀ p ∈ (move.1.links l).inTransit.queue,
      p.sent = move.1.now → p.data.number < call.packet.data.number)
      ⟨fun holds call' same => Option.some.inj (called.symm.trans same) ▸ holds,
        fun holds => holds call called⟩

instance (net : InMemoryNetwork) (l : LinkId) (move : State × Action) :
    Decidable (SteadyDelay net l move) :=
  match called : move.1.sendCall net move.2 with
  | none => decidable_of_iff ((move.1.links l).delay = (net.links l).delay)
      ⟨fun delay => ⟨delay, fun call same => by simp [called] at same⟩, fun steady => steady.delay⟩
  | some call => decidable_of_iff ((move.1.links l).delay = (net.links l).delay ∧
      (call.link = l → call.packet.anomalies.extraDelay = 0))
      ⟨fun ⟨delay, extra⟩ => ⟨delay, fun call' same =>
        Option.some.inj (called.symm.trans same) ▸ extra⟩,
        fun steady => ⟨steady.delay, steady.extra call called⟩⟩

/-- Three hosts in a row. -/
def row : NetworkSpec where
  nodes := [⟨0, 100, [⟨[⟨1, 24⟩], []⟩], 0, 0⟩, ⟨1, 100, [⟨[⟨2, 24⟩], []⟩], 0, 0⟩,
    ⟨2, 100, [⟨[⟨3, 24⟩], []⟩], 0, 0⟩]
  links := [⟨0, .v4 1, .v4 2, 10, 1000, 0, 0, 0⟩, ⟨1, .v4 2, .v4 3, 10, 1000, 0, 0, 0⟩]

/-- A packet without contents to the last host. -/
def toLast : OwnedTransmit := ⟨⟨.v4 1, 4432⟩, ⟨.v4 3, 4433⟩, none, [], none, defaultTtl⟩

/-- Two packets that the first link sends at one instant, in the order of their numbers. -/
def inTurn : List Action :=
  [.sendUdp 0 toLast 0, .sendUdp 0 toLast 0, .processBuffer 0 [], .processBuffer 0 [], .pollLink 0,
    .pollLink 0, .advance 10, .pollForwarder 0 [] []]

theorem forwardedOver_inOrder_row : ∃ net,
    InMemoryNetwork.initialize row id (fun _ size => size) = .ok net ∧
      ∃ past s, Run (step net) (.initial net) past s ∧ forwardedOver net 0 past = [0, 1] ∧
        (sentOver 0 s.trace).Sublist (pushedOn net 0 past) ∧
        (forwardedOver net 0 past).Sublist (sentOver 0 s.trace) := by
  obtain ⟨net, accepted, runs⟩ : ∃ net,
      InMemoryNetwork.initialize row id (fun _ size => size) = .ok net ∧
        (attains (step net) (.initial net) inTurn).any (fun _ => decide <|
          forwardedOver net 0 (moves (step net) (.initial net) inTurn).reverse = [0, 1] ∧
          ∀ move ∈ (moves (step net) (.initial net) inTurn).reverse,
            SteadyDelay net 0 move ∧ SendsInOrder net 0 move) = true :=
    ⟨_, rfl, by decide +kernel⟩
  obtain ⟨s, reached, holds⟩ := (Option.any_eq_true _ _).mp runs
  obtain ⟨forwarded, meets⟩ := of_decide_eq_true holds
  obtain ⟨pushed, inOrder⟩ := forwardedOver_inOrder 0 (Run.of_moves reached)
  exact ⟨net, accepted, _, s, Run.of_moves reached, forwarded, pushed,
    inOrder (fun move member => (meets move member).1) fun move member => (meets move member).2⟩

/-- The first host and then the second one inject a packet, and the last link gets the second
packet first, at the same instant. -/
def overtaken : List Action :=
  [.sendUdp 0 toLast 0, .processBuffer 0 [], .pollLink 0, .advance 10, .sendUdp 1 toLast 0,
    .processBuffer 1 [], .pollForwarder 0 [] [], .processBuffer 1 [], .pollLink 1, .pollLink 1,
    .advance 10, .pollForwarder 1 [] []]

theorem forwardedOver_outOfOrder : ∃ net,
    InMemoryNetwork.initialize row id (fun _ size => size) = .ok net ∧
      ∃ past s, Run (step net) (.initial net) past s ∧ (∀ move ∈ past, SteadyDelay net 1 move) ∧
        sentOver 1 s.trace = [1, 0] ∧ forwardedOver net 1 past = [0, 1] := by
  obtain ⟨net, accepted, runs⟩ : ∃ net,
      InMemoryNetwork.initialize row id (fun _ size => size) = .ok net ∧
        (attains (step net) (.initial net) overtaken).any (fun s => decide <|
          (∀ move ∈ (moves (step net) (.initial net) overtaken).reverse, SteadyDelay net 1 move) ∧
          sentOver 1 s.trace = [1, 0] ∧
          forwardedOver net 1 (moves (step net) (.initial net) overtaken).reverse = [0, 1]) = true :=
    ⟨_, rfl, by decide +kernel⟩
  obtain ⟨s, reached, holds⟩ := (Option.any_eq_true _ _).mp runs
  exact ⟨net, accepted, _, s, Run.of_moves reached, of_decide_eq_true holds⟩

end State

end Workbench.Network
