import Workbench.Network.Contents

/-! Where packets wait. A packet that no link has handled yet waits at its node, in the
outbound channel or in the queues of links. An effect has no packet wait that did not
before, but for one that a task had in hand, and takes none away but to send it. -/

set_option autoImplicit false

namespace Workbench.Network

open Workbench.Library Workbench.Tracing

variable {net : InMemoryNetwork} {licence : Licence} {s s' t : State} {m m' : Moment}
  {n : NodeId} {id : Uuid} {l : LinkId} {packet : BufferedPacket}

namespace State

/-- A packet waits at a node for a link to handle it. -/
inductive Waits (s : State) (n : NodeId) : BufferedPacket → Prop where
  | buffered {packet : BufferedPacket} (member : packet ∈ (s.nodes n).outbound.messages) :
      s.Waits n packet
  | dispatched {d : Dispatch} (member : d ∈ s.dispatches) (node : d.node = n)
      (opened : d.handled = false) : s.Waits n d.packet

theorem Waits.count_pos (waits : s.Waits n packet) :
    0 < s.count (.waiting n) packet.data.id := by
  cases waits with
  | buffered member =>
      exact Nat.add_pos_left (List.countP_pos_iff.mpr ⟨packet, member, by simp⟩) _
  | @dispatched d member node opened =>
      refine Nat.add_pos_right _ (List.countP_pos_iff.mpr ⟨d, member, ?_⟩)
      simp [Dispatch.holds, node, opened]

/-- A node has no two packets of one id waiting. -/
theorem Waits.unique {other : BufferedPacket} (once : s.count (.waiting n) packet.data.id ≤ 1)
    (first : s.Waits n packet) (second : s.Waits n other) (same : other.data.id = packet.data.id) :
    other = packet := by
  have once : (s.nodes n).outbound.messages.countP (·.data.id = packet.data.id) +
      s.dispatches.countP (·.holds n packet.data.id) ≤ 1 := once
  have inChannel {p : BufferedPacket} (member : p ∈ (s.nodes n).outbound.messages)
      (this : p.data.id = packet.data.id) :
      0 < (s.nodes n).outbound.messages.countP (·.data.id = packet.data.id) :=
    List.countP_pos_iff.mpr ⟨p, member, by simp [this]⟩
  have inQueues {d : Dispatch} (member : d ∈ s.dispatches)
      (holds : d.holds n packet.data.id = true) :
      0 < s.dispatches.countP (·.holds n packet.data.id) :=
    List.countP_pos_iff.mpr ⟨d, member, holds⟩
  cases first with
  | buffered member =>
      have here := inChannel member rfl
      cases second with
      | buffered member' =>
          have few : (s.nodes n).outbound.messages.countP (·.data.id = packet.data.id) ≤ 1 := by
            omega
          exact eq_of_countP_le_one few member' member (by simp [same]) (by simp)
      | dispatched member' node opened =>
          have there := inQueues member' (by simp [Dispatch.holds, node, opened, same])
          omega
  | @dispatched d member node opened =>
      have holds : d.holds n d.packet.data.id = true := by simp [Dispatch.holds, node, opened]
      have here := inQueues member holds
      cases second with
      | buffered member' =>
          have there := inChannel member' same
          omega
      | @dispatched d' member' node' opened' =>
          have few : s.dispatches.countP (·.holds n d.packet.data.id) ≤ 1 := by omega
          have holds' : d'.holds n d.packet.data.id = true := by
            simp [Dispatch.holds, node', opened', same]
          exact congrArg Dispatch.packet (eq_of_countP_le_one few member' member holds' holds)

/-- The packets of a state were where they are before, as far as they are not in hand. -/
structure Keeps (s s' : State) : Prop where
  drawn : s.drawn ≤ s'.drawn
  waits : ∀ n packet, s'.Waits n packet → s.Waits n packet
  queued : ∀ n port, ((s'.nodes n).udpEndpoints port).queue ⊆ ((s.nodes n).udpEndpoints port).queue
  inTransit : ∀ l, (s'.links l).inTransit.queue ⊆ (s.links l).inTransit.queue

theorem Waits.congr (waits : s'.Waits n packet)
    (outbound : ∀ n, (s'.nodes n).outbound.messages ⊆ (s.nodes n).outbound.messages)
    (dispatches : ∀ d ∈ s'.dispatches, d.handled = false →
      ∃ d₀ ∈ s.dispatches, d₀.handled = false ∧ d₀.node = d.node ∧ d₀.packet = d.packet) :
    s.Waits n packet := by
  cases waits with
  | buffered member => exact .buffered (outbound n member)
  | dispatched member node opened =>
      obtain ⟨d₀, before, opened₀, node₀, same⟩ := dispatches _ member opened
      exact same ▸ .dispatched before (node₀.trans node) opened₀

theorem Keeps.of_sameCount (drawn : s.drawn ≤ s'.drawn) (same : SameCount s s') : Keeps s s' where
  drawn := drawn
  waits _ _ waits := waits.congr (fun n _ member => same.messages n ▸ member)
    fun d member opened => ⟨d, same.dispatches ▸ member, opened, rfl, rfl⟩
  queued n port := fun _ member => same.endpoints n port ▸ member
  inTransit l := fun _ member => same.inTransit l ▸ member

theorem Keeps.trans {s'' : State} (first : Keeps s s') (second : Keeps s' s'') : Keeps s s'' where
  drawn := first.drawn.trans second.drawn
  waits n packet waits := first.waits n packet (second.waits n packet waits)
  queued n port := fun _ member => first.queued n port (second.queued n port member)
  inTransit l := fun _ member => first.inTransit l (second.inTransit l member)

theorem Keeps.note (s : State) (entry : LogEntry) : Keeps s (s.note entry) where
  drawn := le_rfl
  waits _ _ waits := waits.congr (fun _ _ => id) fun d member opened =>
    ⟨d, member, opened, rfl, rfl⟩
  queued _ _ := fun _ => id
  inTransit _ := fun _ => id

theorem Keeps.refl (s : State) : Keeps s s :=
  .of_sameCount le_rfl ⟨fun _ => rfl, fun _ _ => rfl, fun _ => rfl, rfl, rfl⟩

theorem Keeps.takeUp (s : State) (data : InTransitData) (stage : Stage) :
    Keeps s (s.takeUp data stage) := by
  cases stage with
  | flying l sent => exact .note s _
  | fresh | inside n => exact .refl s


theorem Keeps.modifyNode (s : State) (n : NodeId) {change : NodeState → NodeState}
    (outbound : (change (s.nodes n)).outbound.messages ⊆ (s.nodes n).outbound.messages)
    (queued : ∀ port, ((change (s.nodes n)).udpEndpoints port).queue ⊆
      ((s.nodes n).udpEndpoints port).queue) : Keeps s (s.modifyNode n change) := by
  refine ⟨le_rfl, fun n' packet waits => ?_, fun n' port => ?_, fun _ _ => id⟩
  · refine waits.congr (fun n' => ?_) fun d member opened => ⟨d, member, opened, rfl, rfl⟩
    by_cases same : n' = n
    · subst same
      rwa [modifyNode_self]
    · rw [modifyNode_of_ne _ _ same]
      exact fun _ => id
  · by_cases same : n' = n
    · subst same
      rw [modifyNode_self]
      exact queued port
    · rw [modifyNode_of_ne _ _ same]
      exact fun _ => id

theorem Keeps.modifyLink (s : State) (l : LinkId) {change : LinkState → LinkState}
    (inTransit : (change (s.links l)).inTransit.queue ⊆ (s.links l).inTransit.queue) :
    Keeps s (s.modifyLink l change) := by
  refine ⟨le_rfl, fun n packet waits => ?_, fun _ _ _ => id, fun l' => ?_⟩
  · exact waits.congr (fun _ _ => id) fun d member opened => ⟨d, member, opened, rfl, rfl⟩
  · by_cases same : l' = l
    · subst same
      rwa [modifyLink_self]
    · rw [modifyLink_of_ne _ _ same]
      exact fun _ => id

theorem Keeps.modifyDispatch (s : State) (i : Nat) {change : Dispatch → Dispatch}
    (same : ∀ d, (change d).node = d.node ∧ (change d).packet = d.packet)
    (opens : ∀ d, (change d).handled = false → d.handled = false) :
    Keeps s (s.modifyDispatch i change) := by
  refine ⟨le_rfl, fun n packet waits => ?_, fun _ _ _ => id, fun _ _ => id⟩
  refine waits.congr (fun _ _ => id) fun d member opened => ?_
  obtain ⟨j, found⟩ := List.mem_iff_getElem?.mp member
  obtain ⟨d₀, before, rfl⟩ := modifyDispatch_lookup found
  have inside : d₀ ∈ s.dispatches := List.mem_of_getElem? before
  split at opened
  · next here =>
    rw [if_pos here]
    exact ⟨d₀, inside, opens d₀ opened, (same d₀).1.symm, (same d₀).2.symm⟩
  · next elsewhere =>
    rw [if_neg elsewhere]
    exact ⟨d₀, inside, opened, rfl, rfl⟩

theorem Keeps.markHandled (s : State) (k : OutgoingPacket) : Keeps s (s.markHandled k) :=
  .modifyDispatch s k.handled (fun _ => ⟨rfl, rfl⟩) fun _ opened => by cases opened

theorem Keeps.noteAct (s : State) (flag : Nat) (l : LinkId) (act : Act) :
    Keeps s (s.noteAct flag l act) :=
  .modifyDispatch s flag (fun _ => ⟨rfl, rfl⟩) fun _ => id

theorem Keeps.panic (s : State) : Keeps s { s with panicked := true } :=
  .of_sameCount le_rfl ⟨fun _ => rfl, fun _ _ => rfl, fun _ => rfl, rfl, rfl⟩

theorem Keeps.endQueueTask (s : State) (l : LinkId) : Keeps s (s.endQueueTask l) :=
  (Keeps.modifyLink s l fun _ => id).trans (.panic _)

theorem Works.keeps (works : Works s t l) : Keeps s t :=
  .of_sameCount works.drawn.ge works.sameCount

theorem Keeps.dispatch {rest : List BufferedPacket} {links : List LinkId}
    (queued : (s.nodes n).outbound.messages = packet :: rest)
    (pushed : Pushed n packet s.dispatches.length links
      ((s.takeBuffered n rest).openDispatch n packet links) s') : Keeps s s' := by
  have taken : Keeps s (s.takeBuffered n rest) := by
    refine .modifyNode s n (fun p member => ?_) fun _ _ => id
    rw [queued]
    exact List.mem_cons_of_mem _ member
  refine ⟨pushed.drawn.ge, fun n' packet' waits => ?_, fun n' port => ?_, fun l => ?_⟩
  · cases waits with
    | buffered member =>
        rw [pushed.nodes] at member
        exact taken.waits n' packet' (.buffered member)
    | dispatched member node opened =>
        rw [pushed.dispatches] at member
        rcases List.mem_append.mp member with old | new
        · exact .dispatched old node opened
        · obtain rfl := List.mem_singleton.mp new
          subst node
          exact .buffered (queued ▸ List.mem_cons_self)
  · rw [pushed.nodes]
    exact taken.queued n' port
  · obtain ⟨new, queue, -⟩ := pushed.queues l
    rw [queue]
    exact fun _ => id

/-- What a link carries is all that is new on links. -/
theorem Keeps.carry (s : State) (l : LinkId) (k : OutgoingPacket) (data : InTransitData)
    (pacer : PacketPacer) :
    (∀ n packet, (s.carry l k data pacer).Waits n packet → s.Waits n packet) ∧
      (∀ n port, (((s.carry l k data pacer).nodes n).udpEndpoints port).queue ⊆
        ((s.nodes n).udpEndpoints port).queue) ∧
      ∀ l', ∀ p ∈ ((s.carry l k data pacer).links l').inTransit.queue,
        p ∈ (s.links l').inTransit.queue ∨ p.data = data := by
  have released : Keeps s (State.modifyNode _ k.srcNode fun node =>
      { node with outboundBuffer := node.outboundBuffer.release k.data.size }) :=
    (Keeps.note s (.recorded ⟨s.now, .packetInTransit ⟨data.id, k.srcNode, l⟩⟩)).trans
      (.modifyNode _ k.srcNode (fun _ => id) fun _ _ => id)
  refine ⟨fun n packet waits => ?_, released.queued, fun l' p member => ?_⟩
  · refine released.waits n packet (waits.congr (fun _ _ => id) fun d member opened => ?_)
    exact ⟨d, member, opened, rfl, rfl⟩
  · by_cases same : l' = l
    · subst same
      rw [carry_self] at member
      simp only [InboundQueue.send] at member
      rcases List.mem_append.mp member with old | new
      · exact .inl old
      · obtain rfl := List.mem_singleton.mp new
        exact .inr rfl
    · rw [carry_of_ne _ _ _ _ same] at member
      exact .inl member

theorem carry_messages (s : State) (l : LinkId) (k : OutgoingPacket) (data : InTransitData)
    (pacer : PacketPacer) (n : NodeId) :
    ((s.carry l k data pacer).nodes n).outbound.messages ⊆ (s.nodes n).outbound.messages := by
  by_cases here : n = k.srcNode
  · subst here
    simp only [carry, modifyLink, modifyNode_self]
    exact List.Subset.refl _
  · simp only [carry, modifyLink, modifyNode_of_ne _ _ here]
    exact List.Subset.refl _

/-- A copy that no link has handled waits at its node. -/
theorem Competing.waits {k : OutgoingPacket} (competing : s.Competing net) (copy : k ∈ (s.links l).copies)
    (unhandled : s.handled k.handled = false) : s.Waits k.srcNode ⟨k.inNodeSince, k.data⟩ := by
  obtain ⟨d, found, -, node, data, since⟩ := competing.copies l k copy
  have opened : d.handled = false := by simpa [handled, found] using unhandled
  have packet : (⟨k.inNodeSince, k.data⟩ : BufferedPacket) = d.packet := by rw [since, data]
  rw [packet, node]
  exact .dispatched (List.mem_of_getElem? found) rfl opened

/-- A copy that a link takes to handle is one of a packet that waits at its node. -/
theorem Takes.waits {k : OutgoingPacket} (takes : s.Takes t l k) (competing : s.Competing net)
    (unhandled : s.handled k.handled = false) :
    s.Waits k.srcNode ⟨k.inNodeSince, k.data⟩ := by
  obtain ⟨k₀, same, copies⟩ := takes.copies
  obtain ⟨since, node, data, -, flag⟩ := same.fields
  rw [flag] at unhandled
  rw [since, node, data]
  exact competing.waits (copies ▸ List.mem_cons_self) unhandled

theorem Waits.of_deliverPacket {data : InTransitData}
    (waits : (s.deliverPacket l data).Waits n packet) : s.Waits n packet := by
  refine waits.congr (fun n' => ?_) fun d member opened => ⟨d, member, opened, rfl, rfl⟩
  by_cases same : n' = l
  · subst same
    simp [deliverPacket, NodeState.deliverPacket]
  · simp [deliverPacket, modifyNode_of_ne _ _ same]

theorem queued_of_deliverPacket {data : InTransitData} {n' : NodeId} {port : Port}
    {p : PrioritizedInTransitData}
    (member : p ∈ (((s.deliverPacket n data).nodes n').udpEndpoints port).queue) :
    p.data = data ∨ p ∈ ((s.nodes n').udpEndpoints port).queue := by
  by_cases same : n' = n
  · subst same
    by_cases here : port = data.transmit.destination.port
    · subst here
      simp only [deliverPacket, modifyNode_self, NodeState.deliverPacket, InboundQueue.send,
        Function.update_self] at member
      rcases List.mem_append.mp member with old | new
      · exact .inr old
      · obtain rfl := List.mem_singleton.mp new
        exact .inl rfl
    · simp only [deliverPacket, modifyNode_self, NodeState.deliverPacket,
        Function.update_of_ne here] at member
      exact .inr member
  · rw [deliverPacket, modifyNode_of_ne _ _ same] at member
    exact .inr member

end State

namespace Moment

/-- A packet in hand, in an endpoint or in transit. -/
inductive Away (m : Moment) : Uuid → Prop where
  | hand {held : Held} (member : held ∈ m.hand) : m.Away held.data.id
  | queued {n : NodeId} {port : Port} {p : PrioritizedInTransitData}
      (member : p ∈ ((m.state.nodes n).udpEndpoints port).queue) : m.Away p.data.id
  | inTransit {l : LinkId} {p : PrioritizedInTransitData}
      (member : p ∈ (m.state.links l).inTransit.queue) : m.Away p.data.id

theorem Away.first (s : State) (held : Held) (hand : List Held) :
    Away ⟨s, held :: hand⟩ held.data.id := .hand List.mem_cons_self

/-- No packet is new, and none that waits has gone anywhere else. -/
structure Keeps (m m' : Moment) : Prop where
  drawn : m.state.drawn ≤ m'.state.drawn
  away : ∀ id, m'.Away id → m.Away id
  waits : ∀ n packet, m'.state.Waits n packet → m.state.Waits n packet ∨ m.Away packet.data.id

variable {hand hand' : List Held}

theorem Keeps.of_state (keeps : State.Keeps s s')
    (hands : ∀ held ∈ hand', ∃ held₀ ∈ hand, held₀.data.id = held.data.id) :
    Keeps ⟨s, hand⟩ ⟨s', hand'⟩ where
  drawn := keeps.drawn
  away id away := by
    cases away with
    | hand member =>
        obtain ⟨held₀, inside, same⟩ := hands _ member
        exact same ▸ .hand inside
    | queued member => exact .queued (keeps.queued _ _ member)
    | inTransit member => exact .inTransit (keeps.inTransit _ member)
  waits n packet waits := .inl (keeps.waits n packet waits)

theorem Keeps.same (keeps : State.Keeps s s') : Keeps ⟨s, hand⟩ ⟨s', hand⟩ :=
  .of_state keeps fun held member => ⟨held, member, rfl⟩

theorem Keeps.fewer {held : Held} (keeps : State.Keeps s s') : Keeps ⟨s, held :: hand⟩ ⟨s', hand⟩ :=
  .of_state keeps fun x member => ⟨x, List.mem_cons_of_mem _ member, rfl⟩

theorem Keeps.retold {held held' : Held} (keeps : State.Keeps s s')
    (same : held.data.id = held'.data.id) : Keeps ⟨s, held :: hand⟩ ⟨s', held' :: hand⟩ := by
  refine .of_state keeps fun x member => ?_
  rcases List.mem_cons.mp member with rfl | old
  · exact ⟨held, List.mem_cons_self, same⟩
  · exact ⟨x, List.mem_cons_of_mem _ old, rfl⟩

/-- What an effect moves: at most a new packet, or one that waited and is sent now. -/
inductive Moves (net : InMemoryNetwork) (m m' : Moment) : Prop where
  | keeps (keeps : m.Keeps m')
  | issues (drawn : m.state.drawn ≤ m'.state.drawn)
      (away : ∀ id, m'.Away id → m.Away id ∨ id = net.uuids m.state.drawn)
      (waits : ∀ n packet, m'.state.Waits n packet → m.state.Waits n packet)
  | sends {l : LinkId} {k : OutgoingPacket} (waited : m.state.Waits k.srcNode ⟨k.inNodeSince, k.data⟩)
      (log : m'.state.log =
        m.state.log ++ [.recorded ⟨m.state.now, .packetInTransit ⟨k.data.id, k.srcNode, l⟩⟩])
      (drawn : m.state.drawn ≤ m'.state.drawn)
      (away : ∀ id, m'.Away id → m.Away id ∨ id = k.data.id)
      (waits : ∀ n packet, m'.state.Waits n packet → m.state.Waits n packet)

theorem Moves.of_effect (competing : m.state.Competing net) (effect : Effect net licence m m') :
    m.Moves net m' := by
  cases effect with
  | @quiet s s' hand quiet =>
      have kept : State.SameCount s s' := ⟨fun n => by rw [quiet.outbound], quiet.endpoints,
        quiet.inTransit, quiet.dispatches, quiet.log⟩
      exact .keeps (.same (.of_sameCount quiet.drawn.ge kept))
  | crash s hand => exact .keeps (.same (.panic s))
  | forget s held hand => exact .keeps (.fewer (.refl s))
  | outage s l hand =>
      exact .keeps (.same ((State.Keeps.modifyLink s l (List.Subset.refl _)).trans (.note _ _)))
  | event s e hand => exact .keeps (.same (.note s _))
  | issue s data number first last newId =>
      -- Only the new packet in the hand is one that was not away before.
      have same : State.SameCount s { s with drawn := s.drawn + 1, nextTransmitNumber := number } :=
        ⟨fun _ => rfl, fun _ _ => rfl, fun _ => rfl, rfl, rfl⟩
      have kept := State.Keeps.of_sameCount (Nat.le_succ s.drawn) same
      refine .issues kept.drawn (fun id away => ?_) kept.waits
      cases away with
      | @hand held member =>
          rcases List.mem_append.mp member with old | inside
          · exact .inl (.hand (List.mem_append_left _ old))
          rcases List.mem_cons.mp inside with rfl | old
          · exact .inr newId
          · exact .inl (.hand (List.mem_append_right _ old))
      | queued member => exact .inl (.queued member)
      | inTransit member => exact .inl (.inTransit member)
  | enter s n data stage hand =>
      exact .keeps (.retold ((State.Keeps.takeUp s data stage).trans (.note _ _)) rfl)
  | refuse s n data stage hand =>
      exact .keeps (.fewer ((State.Keeps.takeUp s data stage).trans (.note _ _)))
  | retouch s data data' stage hand id => exact .keeps (.retold (.refl s) id.symm)
  | deliver s n data hand =>
      -- The packet passes from the hand to the queue of the node that it is for.
      refine .keeps ⟨le_rfl, fun id away => ?_, fun _ _ waits => .inl waits.of_deliverPacket⟩
      cases away with
      | hand member => exact .hand (List.mem_cons_of_mem _ member)
      | queued member =>
          rcases State.queued_of_deliverPacket member with rfl | old
          · exact .first s ⟨_, .inside n⟩ hand
          · exact .queued old
      | inTransit member => exact .inTransit member
  | drop s n data reason hand => exact .keeps (.fewer (.note s _))
  | @buffer s n data since hand outboundBuffer outbound room sent =>
      have booked : State.Keeps s ((s.modifyNode n ({ · with outboundBuffer })).note
          (.reserved n data)) :=
        (State.Keeps.modifyNode s n (List.Subset.refl _) fun _ => List.Subset.refl _).trans
          (.note _ _)
      refine .keeps ⟨le_rfl, fun id away => ?_, fun n' packet waits => ?_⟩
      · cases away with
        | hand member => exact .hand (List.mem_cons_of_mem _ member)
        | @queued n' port p member =>
            by_cases same : n' = n
            · subst same
              exact .queued (by simpa using member)
            · rw [State.modifyNode_of_ne _ _ same] at member
              exact .queued (booked.queued n' port member)
        | inTransit member => exact .inTransit member
      · cases waits with
        | buffered member =>
            by_cases same : n' = n
            · subst same
              rw [State.modifyNode_self, Channel.unboundedSend_some sent] at member
              rcases List.mem_append.mp member with old | new
              · exact .inl (.buffered old)
              · obtain rfl := List.mem_singleton.mp new
                exact .inr (.first s ⟨data, .inside n'⟩ hand)
            · rw [State.modifyNode_of_ne _ _ same] at member
              exact .inl (booked.waits n' packet (.buffered member))
        | dispatched member node opened => exact .inl (.dispatched member node opened)
  | overbook s n data hand =>
      exact .keeps (.fewer ((State.Keeps.modifyNode s n (List.Subset.refl _) fun _ =>
        List.Subset.refl _).trans (.note _ _)))
  | duplicate s n data hand => exact .keeps (.retold (.note s _) rfl)
  | dispatch n packet rest links hand member queued some pushed =>
      exact .keeps (.same (.dispatch queued pushed))
  | endBuffer s n hand =>
      exact .keeps (.same (.modifyNode s n (List.nil_subset _) fun _ => List.Subset.refl _))
  | discard hand takes => exact .keeps (.same takes.works.keeps)
  | @clear s t l k hand takes =>
      exact .keeps (.same (takes.works.keeps.trans ((State.Keeps.markHandled t k).trans
        ((State.Keeps.noteAct _ k.handled l .cleared).trans (.note _ _)))))
  | @send s t l k data pacer hand member takes unhandled kept up marked =>
      obtain ⟨waits, queued, inTransit⟩ := State.Keeps.carry (t.markHandled k) l k data pacer
      have marks := takes.works.keeps.trans (.markHandled t k)
      have same : data.id = k.data.id := (PacketAnomalies.mark_some marked).1
      refine .sends (l := l) (takes.waits competing unhandled) ?_ takes.works.drawn.ge
        (fun id away => ?_) fun n packet after => marks.waits n packet (waits n packet ?_)
      · rw [← takes.works.log, ← takes.works.now, ← same]
        rfl
      · cases away with
        | hand member => exact .inl (.hand member)
        | @queued n port p member => exact .inl (.queued (marks.queued n port (queued n port member)))
        | @inTransit l' p member =>
            rcases inTransit l' p member with old | new
            · exact .inl (.inTransit (marks.inTransit l' old))
            · exact .inr (new ▸ same)
      · exact (State.Keeps.noteAct _ k.handled l .sent).waits n packet after
  | taskPanics l hand works => exact .keeps (.same (works.keeps.trans (.endQueueTask _ l)))
  | @sendPanics s t l k hand takes =>
      exact .keeps (.same (takes.works.keeps.trans ((State.Keeps.markHandled t k).trans
        (.endQueueTask _ l))))
  | collect s l delivered inTransit forwarder member moved =>
      refine .keeps ⟨le_rfl, fun id away => ?_, fun _ _ waits => .inl ?_⟩
      swap
      · exact waits.congr (fun _ => List.Subset.refl _) fun d member opened =>
          ⟨d, member, opened, rfl, rfl⟩
      have source (x : DeliveredTransmit)
          (inside : x ∈ delivered ++ inTransit.queue.map (·.delivered)) :
          Away ⟨s, []⟩ x.data.id := by
        obtain ⟨p, queued, rfl⟩ := List.mem_map.mp (moved.mem_iff.mpr inside)
        exact .inTransit queued
      cases away with
      | hand member =>
          obtain ⟨x, inside, rfl⟩ := List.mem_map.mp member
          exact source x (List.mem_append_left _ inside)
      | queued member => exact .queued member
      | @inTransit l' p member =>
          by_cases same : l' = l
          · subst same
            rw [State.modifyLink_self] at member
            exact source p.delivered (List.mem_append_right _ (List.mem_map_of_mem member))
          · rw [State.modifyLink_of_ne _ _ same] at member
            exact .inTransit member
  | lose s l data sent hand => exact .keeps (.fewer ((State.Keeps.takeUp s data _).trans (.note _ _)))
  | strand s l data sent hand => exact .keeps (.fewer ((State.Keeps.takeUp s data _).trans (.note _ _)))
  | socket s n port delivery hand =>
      have kept : State.SameCount s { s with
          sockets := Function.update s.sockets n
            (Function.update (s.sockets n) port (some delivery)) } :=
        ⟨fun _ => rfl, fun _ _ => rfl, fun _ => rfl, rfl, rfl⟩
      exact .keeps (.same (.of_sameCount le_rfl kept))
  | fetch s n port delivered queue member moved =>
      have source (x : DeliveredTransmit) (inside : x ∈ delivered ++ queue.queue.map (·.delivered)) :
          Away ⟨s, []⟩ x.data.id := by
        obtain ⟨p, queued, rfl⟩ := List.mem_map.mp (moved.mem_iff.mpr inside)
        exact .queued queued
      refine .keeps ⟨le_rfl, fun id away => ?_, fun n' packet waits => .inl ?_⟩
      · cases away with
        | hand member =>
            obtain ⟨x, inside, rfl⟩ := List.mem_map.mp member
            exact source x (List.mem_append_left _ inside)
        | @queued n' port' p member =>
            by_cases same : n' = n
            · subst same
              simp only [State.setEndpoint, State.modifyNode_self] at member
              by_cases here : port' = port
              · subst here
                rw [Function.update_self] at member
                exact source p.delivered (List.mem_append_right _ (List.mem_map_of_mem member))
              · rw [Function.update_of_ne here] at member
                exact .queued member
            · rw [State.setEndpoint, State.modifyNode_of_ne _ _ same] at member
              exact .queued member
        | inTransit member => exact .inTransit member
      · refine waits.congr (fun n'' => ?_) fun d member opened => ⟨d, member, opened, rfl, rfl⟩
        by_cases same : n'' = n
        · subst same
          simp [State.setEndpoint]
        · simp [State.setEndpoint, State.modifyNode_of_ne _ _ same]
  | read s n data hand | check s n data hand => exact .keeps (.fewer (.note s _))

theorem Away.tally_pos (away : m.Away id) :
    ∃ place, 0 < m.tally place id ∧ ∀ n, place ≠ some (.waiting n) := by
  cases away with
  | @hand held member =>
      exact ⟨none, List.countP_pos_iff.mpr ⟨held, member, by simp⟩, nofun⟩
  | @queued n port p member =>
      exact ⟨some (.queued n port), List.countP_pos_iff.mpr ⟨p, member, by simp⟩, by simp⟩
  | @inTransit l p member =>
      exact ⟨some (.inTransit l), List.countP_pos_iff.mpr ⟨p, member, by simp⟩, by simp⟩

/-- A packet that waits was issued, and is nowhere else. -/
theorem sole_of_waits (located : Located net False m) (waits : m.state.Waits n packet) :
    m.state.Issued net packet.data.id ∧ ¬ m.Away packet.data.id ∧
      ∀ n' other, m.state.Waits n' other → other.data.id = packet.data.id →
        n' = n ∧ other = packet := by
  obtain ⟨ledger, described, issued, -⟩ := located
  have counted (n' : NodeId) (other : BufferedPacket) (waits' : m.state.Waits n' other) :
      ledger other.data.id = some (some (.waiting n')) := by
    have positive : 0 < m.tally (some (.waiting n')) other.data.id := waits'.count_pos
    exact described.place_of_pos positive
  have here := counted n packet waits
  refine ⟨issued _ (by simp [here]), fun away => ?_, fun n' other waits' same => ?_⟩
  · obtain ⟨place, positive, elsewhere⟩ := away.tally_pos
    have there := described.place_of_pos positive
    rw [here] at there
    exact elsewhere n (Option.some.inj there).symm
  · have there := counted n' other waits'
    rw [same, here] at there
    obtain rfl : n = n' := by simpa using there
    exact ⟨rfl, waits.unique (described.le_one (some (.waiting n)) _) waits' same⟩

/-- Once a link has handled a copy of it, a packet no longer waits. -/
theorem not_waits_of_handled {k : OutgoingPacket} {u : State} {acts : List (LinkId × Act)}
    (located : Located net False ⟨s, hand⟩) (competing : s.Competing net) (takes : s.Takes t l k)
    (unhandled : s.handled k.handled = false)
    (outbound : ∀ n, (u.nodes n).outbound.messages ⊆ (s.nodes n).outbound.messages)
    (dispatches : u.dispatches = t.dispatches.modify k.handled fun d =>
      { d with handled := true, acts := d.acts ++ acts })
    (waits : u.Waits n packet) : packet.data.id ≠ k.data.id := by
  intro same
  have waited := takes.waits competing unhandled
  -- the dispatch is counted no more, and there was no other packet with its id
  let closed : State := { s with dispatches := u.dispatches }
  have closedWaits : closed.Waits n packet :=
    waits.congr outbound fun d member opened => ⟨d, member, opened, rfl, rfl⟩
  have before : s.Waits n packet := by
    have kept : State.Keeps t (t.modifyDispatch k.handled fun d =>
        { d with handled := true, acts := d.acts ++ acts }) :=
      .modifyDispatch t k.handled (fun _ => ⟨rfl, rfl⟩) fun _ opened => by cases opened
    refine takes.works.keeps.waits n packet (kept.waits n packet (closedWaits.congr (fun n' => ?_)
      fun d member opened => ⟨d, ?_, opened, rfl, rfl⟩))
    · have nodes : (t.modifyDispatch k.handled fun d =>
          { d with handled := true, acts := d.acts ++ acts }).nodes = s.nodes := takes.works.nodes
      rw [nodes]
      exact List.Subset.refl _
    · have inside : d ∈ u.dispatches := member
      rwa [dispatches] at inside
  obtain ⟨rfl, rfl⟩ := (sole_of_waits located waited).2.2 n packet before same
  have counts := takes.handled_count (u := closed) competing unhandled acts (fun _ => ⟨rfl, rfl⟩)
    (fun _ => rfl) rfl dispatches (.waiting k.srcNode) k.data.id
  have once : s.count (.waiting k.srcNode) k.data.id ≤ 1 := by
    obtain ⟨ledger, described, -⟩ := located
    exact described.le_one (some (.waiting k.srcNode)) k.data.id
  have still : 0 < closed.count (.waiting k.srcNode) k.data.id := closedWaits.count_pos
  simp only [and_self, if_true] at counts
  omega

end Moment

end Workbench.Network
