import Workbench.Network.Conservation

/-! The packets that are somewhere, and where the trace should have them: a packet that
waits at a node or in an endpoint is in the node, and one in transit is on its link. -/

set_option autoImplicit false

namespace Workbench.Network

open Workbench.Library Workbench.Tracing

namespace State

variable {s s' t : State} {held : Held}

/-- A packet that waits at a node, is queued in an endpoint, or is in transit. -/
inductive Has (s : State) : Held → Prop where
  | waiting {n : NodeId} {packet : BufferedPacket}
      (member : packet ∈ (s.nodes n).outbound.messages) : s.Has ⟨packet.data, .inside n⟩
  | dispatched {d : Dispatch} (member : d ∈ s.dispatches) (opened : d.handled = false) :
      s.Has ⟨d.packet.data, .inside d.node⟩
  | queued {n : NodeId} {port : Port} {packet : PrioritizedInTransitData}
      (member : packet ∈ ((s.nodes n).udpEndpoints port).queue) : s.Has ⟨packet.data, .inside n⟩
  | inTransit {l : LinkId} {packet : PrioritizedInTransitData}
      (member : packet ∈ (s.links l).inTransit.queue) : s.Has ⟨packet.data, .flying l packet.sent⟩

/-- The packets in a place, those that are finished left out. -/
def contents (s : State) : Place → List Held
  | .waiting n => (s.nodes n).outbound.messages.map (fun p => ⟨p.data, .inside n⟩) ++
      (s.dispatches.filter fun d => d.node = n ∧ d.handled = false).map
        fun d => ⟨d.packet.data, .inside n⟩
  | .inTransit l => (s.links l).inTransit.queue.map fun p => ⟨p.data, .flying l p.sent⟩
  | .queued n port => ((s.nodes n).udpEndpoints port).queue.map fun p => ⟨p.data, .inside n⟩
  | .finished _ => []

theorem Has.contents (has : s.Has held) : ∃ place, held ∈ s.contents place := by
  cases has with
  | @waiting n packet member =>
      exact ⟨.waiting n, List.mem_append_left _ (List.mem_map.mpr ⟨packet, member, rfl⟩)⟩
  | @dispatched d member opened =>
      refine ⟨.waiting d.node, List.mem_append_right _ (List.mem_map.mpr ⟨d, ?_, rfl⟩)⟩
      exact List.mem_filter.mpr ⟨member, by simp [opened]⟩
  | @queued n port packet member => exact ⟨.queued n port, List.mem_map.mpr ⟨packet, member, rfl⟩⟩
  | @inTransit l packet member => exact ⟨.inTransit l, List.mem_map.mpr ⟨packet, member, rfl⟩⟩

theorem contents_count (s : State) {place : Place} (alive : ∀ o, place ≠ .finished o) (id : Uuid) :
    s.count place id = (s.contents place).countP (·.data.id = id) := by
  cases place with
  | waiting n =>
      have open' : s.dispatches.countP (·.holds n id) =
          (s.dispatches.filter fun d => d.node = n ∧ d.handled = false).countP
            (·.packet.data.id = id) := by
        rw [List.countP_filter]
        refine List.countP_congr fun d _ => ?_
        simp only [Dispatch.holds, decide_eq_true_eq, Bool.and_eq_true]
        tauto
      simp only [State.count, State.contents, List.countP_append, List.countP_map, open']
      rfl
  | inTransit l | queued n port =>
      simp only [State.count, State.contents, List.countP_map]
      rfl
  | finished o => exact absurd rfl (alive o)

/-! What the parts of effects do to it. -/

theorem SameCount.has (same : SameCount s s') (has : s'.Has held) : s.Has held := by
  cases has with
  | @waiting n packet member => exact .waiting (same.messages n ▸ member)
  | dispatched member opened => exact .dispatched (same.dispatches ▸ member) opened
  | @queued n port packet member => exact .queued (same.endpoints n port ▸ member)
  | @inTransit l packet member => exact .inTransit (same.inTransit l ▸ member)

theorem Has.of_note {entry : LogEntry} (has : (s.note entry).Has held) : s.Has held := by
  cases has with
  | waiting member => exact .waiting member
  | dispatched member opened => exact .dispatched member opened
  | queued member => exact .queued member
  | inTransit member => exact .inTransit member

theorem Has.of_panic (has : { s with panicked := true }.Has held) : s.Has held := by
  cases has with
  | waiting member => exact .waiting member
  | dispatched member opened => exact .dispatched member opened
  | queued member => exact .queued member
  | inTransit member => exact .inTransit member

theorem Has.of_takeUp {data : InTransitData} {stage : Stage} (has : (s.takeUp data stage).Has held) :
    s.Has held := by
  cases stage with
  | flying l sent => exact has.of_note
  | fresh | inside => exact has

/-- A change of a node adds no packets but some of its own. -/
theorem Has.of_modifyNode {n : NodeId} {change : NodeState → NodeState}
    (has : (s.modifyNode n change).Has held) : s.Has held ∨
      (∃ packet ∈ (change (s.nodes n)).outbound.messages, held = ⟨packet.data, .inside n⟩) ∨
      ∃ port, ∃ packet ∈ ((change (s.nodes n)).udpEndpoints port).queue,
        held = ⟨packet.data, .inside n⟩ := by
  cases has with
  | @waiting n' packet member =>
      by_cases same : n' = n
      · subst same
        rw [modifyNode_self] at member
        exact .inr (.inl ⟨packet, member, rfl⟩)
      · rw [modifyNode_of_ne _ _ same] at member
        exact .inl (.waiting member)
  | dispatched member opened => exact .inl (.dispatched member opened)
  | @queued n' port packet member =>
      by_cases same : n' = n
      · subst same
        rw [modifyNode_self] at member
        exact .inr (.inr ⟨port, packet, member, rfl⟩)
      · rw [modifyNode_of_ne _ _ same] at member
        exact .inl (.queued member)
  | inTransit member => exact .inl (.inTransit member)

theorem Has.of_modifyLink {l : LinkId} {change : LinkState → LinkState}
    (has : (s.modifyLink l change).Has held) : s.Has held ∨
      ∃ packet ∈ (change (s.links l)).inTransit.queue, held = ⟨packet.data, .flying l packet.sent⟩ := by
  cases has with
  | waiting member => exact .inl (.waiting member)
  | dispatched member opened => exact .inl (.dispatched member opened)
  | queued member => exact .inl (.queued member)
  | @inTransit l' packet member =>
      by_cases same : l' = l
      · subst same
        rw [modifyLink_self] at member
        exact .inr ⟨packet, member, rfl⟩
      · rw [modifyLink_of_ne _ _ same] at member
        exact .inl (.inTransit member)

theorem Has.of_deliverPacket {n : NodeId} {data : InTransitData}
    (has : (s.deliverPacket n data).Has held) : held = ⟨data, .inside n⟩ ∨ s.Has held := by
  rcases has.of_modifyNode with has | ⟨packet, member, rfl⟩ | ⟨port, packet, member, rfl⟩
  · exact .inr has
  · exact .inr (.waiting member)
  · by_cases here : port = data.transmit.destination.port
    · subst here
      simp only [NodeState.deliverPacket, InboundQueue.send, Function.update_self] at member
      rcases List.mem_append.mp member with member | new
      · exact .inr (.queued member)
      · obtain rfl := List.mem_singleton.mp new
        exact .inl rfl
    · simp only [NodeState.deliverPacket, Function.update_of_ne here] at member
      exact .inr (.queued member)

theorem Has.of_modifyDispatch {i : Nat} {change : Dispatch → Dispatch}
    (has : (s.modifyDispatch i change).Has held)
    (same : ∀ d, (change d).node = d.node ∧ (change d).packet = d.packet)
    (opens : ∀ d, (change d).handled = false → d.handled = false) : s.Has held := by
  cases has with
  | waiting member => exact .waiting member
  | @dispatched d member opened =>
      obtain ⟨j, found⟩ := List.mem_iff_getElem?.mp member
      obtain ⟨d₀, before, changed⟩ := modifyDispatch_lookup found
      have inside : d₀ ∈ s.dispatches := List.mem_of_getElem? before
      split at changed
      · rw [changed] at opened ⊢
        rw [(same d₀).1, (same d₀).2]
        exact .dispatched inside (opens d₀ opened)
      · rw [changed] at opened ⊢
        exact .dispatched inside opened
  | queued member => exact .queued member
  | inTransit member => exact .inTransit member

theorem Has.of_markHandled {k : OutgoingPacket} (has : (s.markHandled k).Has held) : s.Has held := by
  unfold markHandled at has
  exact has.of_modifyDispatch (fun _ => ⟨rfl, rfl⟩) fun _ opened => by cases opened

theorem Has.of_noteAct {flag : Nat} {l : LinkId} {act : Act} (has : (s.noteAct flag l act).Has held) :
    s.Has held := by
  unfold noteAct at has
  exact has.of_modifyDispatch (fun _ => ⟨rfl, rfl⟩) fun _ opened => opened

theorem Has.of_dispatch {n : NodeId} {packet : BufferedPacket} {rest : List BufferedPacket}
    {links : List LinkId} (queued : (s.nodes n).outbound.messages = packet :: rest)
    (pushed : Pushed n packet s.dispatches.length links
      ((s.takeBuffered n rest).openDispatch n packet links) s') (has : s'.Has held) :
    s.Has held := by
  have first : s.Has ⟨packet.data, .inside n⟩ := .waiting (queued ▸ List.mem_cons_self)
  cases has with
  | @waiting n' packet' member =>
      rw [pushed.nodes] at member
      by_cases same : n' = n
      · subst same
        refine .waiting (n := n') ?_
        rw [queued]
        exact List.mem_cons_of_mem _ (by simpa [openDispatch, takeBuffered] using member)
      · rw [openDispatch, takeBuffered, modifyNode_of_ne _ _ same] at member
        exact .waiting member
  | @dispatched d member opened =>
      rw [pushed.dispatches] at member
      rcases List.mem_append.mp member with old | new
      · exact .dispatched old opened
      · obtain rfl := List.mem_singleton.mp new
        exact first
  | @queued n' port packet' member =>
      rw [pushed.nodes] at member
      by_cases same : n' = n
      · subst same
        exact .queued (by simpa [openDispatch, takeBuffered] using member)
      · rw [openDispatch, takeBuffered, modifyNode_of_ne _ _ same] at member
        exact .queued member
  | @inTransit l packet' member =>
      obtain ⟨new, queue, -⟩ := pushed.queues l
      rw [queue] at member
      exact .inTransit member

theorem Has.of_carry {l : LinkId} {k : OutgoingPacket} {data : InTransitData} {pacer : PacketPacer}
    (has : (s.carry l k data pacer).Has held) :
    held = ⟨data, .flying l s.now⟩ ∨ s.Has held := by
  unfold carry at has
  rcases has.of_modifyLink with has | ⟨packet, member, rfl⟩
  · refine .inr ?_
    rcases has.of_modifyNode with has | ⟨packet, member, rfl⟩ | ⟨port, packet, member, rfl⟩
    · exact has.of_note
    · exact .waiting member
    · exact .queued member
  · simp only [InboundQueue.send] at member
    rcases List.mem_append.mp member with member | new
    · exact .inr (.inTransit member)
    · obtain rfl := List.mem_singleton.mp new
      exact .inl rfl

/-- A packet that is sent is on its link. -/
theorem carry_has (s : State) (l : LinkId) (k : OutgoingPacket) (data : InTransitData)
    (pacer : PacketPacer) (act : Act) :
    ((s.carry l k data pacer).noteAct k.handled l act).Has ⟨data, .flying l s.now⟩ := by
  have sent : ⟨data, s.now, (s.links l).delay + k.anomalies.extraDelay⟩ ∈
      (((s.carry l k data pacer).noteAct k.handled l act).links l).inTransit.queue := by
    rw [noteAct_links, carry_self]
    exact List.mem_append_right _ List.mem_cons_self
  exact .inTransit sent

theorem Has.of_endQueueTask {l : LinkId} (has : (s.endQueueTask l).Has held) : s.Has held := by
  unfold endQueueTask at has
  rcases has.of_panic.of_modifyLink with has | ⟨packet, member, rfl⟩
  · exact has
  · exact .inTransit member

/-- The packets that a forwarder takes from its link, and those that it leaves there. -/
theorem has_of_collect {l : LinkId} {delivered : List DeliveredTransmit} {inTransit : InboundQueue}
    (moved : ((s.links l).inTransit.queue.map (·.delivered)).Perm
      (delivered ++ inTransit.queue.map (·.delivered))) (forwarder : Forwarder) :
    (∀ x ∈ delivered, s.Has ⟨x.data, .flying l x.sent⟩) ∧
      ((s.modifyLink l ({ · with inTransit, forwarder })).Has held → s.Has held) := by
  have source (x : DeliveredTransmit) (inside : x ∈ delivered ++ inTransit.queue.map (·.delivered)) :
      s.Has ⟨x.data, .flying l x.sent⟩ := by
    obtain ⟨packet, member, rfl⟩ := List.mem_map.mp (moved.mem_iff.mpr inside)
    exact .inTransit member
  refine ⟨fun x inside => source x (List.mem_append_left _ inside), fun has => ?_⟩
  rcases has.of_modifyLink with has | ⟨packet, member, rfl⟩
  · exact has
  · exact source packet.delivered (List.mem_append_right _ (List.mem_map_of_mem member))

/-- The packets that a reader takes from an endpoint, and those that it leaves there. -/
theorem has_of_fetch {n : NodeId} {port : Port} {delivered : List DeliveredTransmit}
    {queue : InboundQueue} (moved : (((s.nodes n).udpEndpoints port).queue.map (·.delivered)).Perm
      (delivered ++ queue.queue.map (·.delivered))) :
    (∀ x ∈ delivered, s.Has ⟨x.data, .inside n⟩) ∧
      ((s.setEndpoint n port queue).Has held → s.Has held) := by
  have source (x : DeliveredTransmit) (inside : x ∈ delivered ++ queue.queue.map (·.delivered)) :
      s.Has ⟨x.data, .inside n⟩ := by
    obtain ⟨packet, member, rfl⟩ := List.mem_map.mp (moved.mem_iff.mpr inside)
    exact .queued member
  refine ⟨fun x inside => source x (List.mem_append_left _ inside), fun has => ?_⟩
  unfold setEndpoint at has
  rcases has.of_modifyNode with has | ⟨packet, member, rfl⟩ | ⟨port', packet, member, rfl⟩
  · exact has
  · exact .waiting member
  · by_cases same : port' = port
    · subst same
      simp only [Function.update_self] at member
      exact source packet.delivered (List.mem_append_right _ (List.mem_map_of_mem member))
    · simp only [Function.update_of_ne same] at member
      exact .queued member

/-- A copy that a link takes to handle is one of a packet that waits at a node. -/
theorem Takes.has {net : InMemoryNetwork} {l : LinkId} {k : OutgoingPacket}
    (takes : s.Takes t l k) (competing : s.Competing net)
    (unhandled : s.handled k.handled = false) : s.Has ⟨k.data, .inside k.srcNode⟩ := by
  obtain ⟨k₀, same, copies⟩ := takes.copies
  obtain ⟨-, node, data, -, flag⟩ := same.fields
  obtain ⟨d, found, copy⟩ := competing.copies l k₀ (copies ▸ List.mem_cons_self)
  obtain ⟨-, node', data', -⟩ := copy
  rw [← flag] at found
  have opened : d.handled = false := by simpa [handled, found] using unhandled
  rw [data, node, data', node']
  exact .dispatched (List.mem_of_getElem? found) opened

end State

namespace Moment

def contents (m : Moment) : Option Place → List Held
  | none => m.hand
  | some place => m.state.contents place

/-- A packet that is somewhere or in the hands of the task that runs. -/
def Has (m : Moment) (held : Held) : Prop := held ∈ m.hand ∨ m.state.Has held

variable {net : InMemoryNetwork} {m : Moment} {a b : Held}

theorem Has.contents (has : m.Has a) : ∃ place, a ∈ m.contents place := by
  rcases has with inHand | has
  · exact ⟨none, inHand⟩
  · obtain ⟨place, inside⟩ := has.contents
    exact ⟨some place, inside⟩

/-- The packets of a place are counted there. -/
theorem tally_contents {place : Option Place} (inside : a ∈ m.contents place) (id : Uuid) :
    m.tally place id = (m.contents place).countP (·.data.id = id) ∧
      ∀ o, place ≠ some (.finished o) := by
  cases place with
  | none => exact ⟨rfl, nofun⟩
  | some place =>
      have alive (o : Outcome) : place ≠ .finished o := by
        rintro rfl
        cases inside
      exact ⟨m.state.contents_count alive id, fun o same => alive o (Option.some.inj same)⟩

theorem tally_pos {place : Option Place} (inside : a ∈ m.contents place) :
    0 < m.tally place a.data.id := by
  rw [(tally_contents inside _).1]
  exact List.countP_pos_iff.mpr ⟨a, inside, by simp⟩

theorem Has.issued (has : m.Has a) (located : Located net False m) :
    m.state.Issued net a.data.id := by
  obtain ⟨ledger, described, issued, -⟩ := located
  obtain ⟨place, inside⟩ := has.contents
  refine issued _ ?_
  rw [described.place_of_pos (tally_pos inside)]
  exact Option.some_ne_none _

/-- A packet is in no two ways anywhere. -/
theorem Has.unique (located : Located net False m) (first : m.Has a) (second : m.Has b)
    (same : a.data.id = b.data.id) : a = b := by
  obtain ⟨ledger, described, -⟩ := located
  obtain ⟨place, inside⟩ := first.contents
  obtain ⟨place', inside'⟩ := second.contents
  have here := described.place_of_pos (tally_pos inside)
  have there := described.place_of_pos (tally_pos inside')
  rw [← same, here] at there
  obtain rfl := Option.some.inj there
  have once := described.le_one place a.data.id
  rw [(tally_contents inside _).1] at once
  exact eq_of_countP_le_one once inside inside' (by simp) (by simp [same])

/-- A packet that is finished is nowhere. -/
theorem Has.not_finished (located : Located net False m) (has : m.Has a) (o : Outcome) :
    m.state.count (.finished o) a.data.id = 0 := by
  obtain ⟨ledger, described, -⟩ := located
  obtain ⟨place, inside⟩ := has.contents
  by_contra finished
  have here := described.place_of_pos (tally_pos inside)
  have positive : 0 < m.tally (some (.finished o)) a.data.id := Nat.pos_of_ne_zero finished
  have there := described.place_of_pos positive
  exact (tally_contents inside a.data.id).2 o (Option.some.inj (here.symm.trans there))

end Moment

end Workbench.Network
