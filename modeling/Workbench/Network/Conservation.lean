import Workbench.Library.Ledger
import Workbench.Network.Competition

/-! Where packets are. Every packet is in one place at most, whatever happens, and
in one place exactly as long as no step loses packets. -/

set_option autoImplicit false

namespace Workbench.Network

open Workbench.Library Workbench.Tracing

/-- How a packet ends. -/
inductive Outcome where
  | read
  | random
  | zeroTtl
  | bufferFull
  | bufferCleared
  | lostInTransit
  | droppedOnArrival
  deriving DecidableEq, Repr

/-- Where a packet is: waiting at a node, on a link, in an endpoint, or finished. -/
inductive Place where
  | waiting (node : NodeId)
  | inTransit (link : LinkId)
  | queued (node : NodeId) (port : Port)
  | finished (outcome : Outcome)
  deriving DecidableEq, Repr

def DropReason.outcome : DropReason → Outcome
  | .random => .random
  | .zeroTtl => .zeroTtl
  | .bufferFull => .bufferFull
  | .bufferCleared => .bufferCleared

/-- The packet that an entry of the log finishes, and how. -/
def LogEntry.outcome? : LogEntry → Option (Uuid × Outcome)
  | .recorded ⟨_, .packetInNode s⟩ =>
    if s.droppedOnArrival then some (s.packetId, .droppedOnArrival) else none
  | .recorded ⟨_, .packetDropped s⟩ => some (s.packetId, DropReason.outcome s.reason)
  | .recorded ⟨_, .packetLostInTransit s⟩ => some (s.packetId, .lostInTransit)
  | .recorded ⟨_, .packetDeliveredToApplication s⟩ => some (s.packetId, .read)
  | .checked _ packet => some (packet, .read)
  | _ => none

def Dispatch.holds (d : Dispatch) (n : NodeId) (id : Uuid) : Bool :=
  d.node = n ∧ d.handled = false ∧ d.packet.data.id = id

namespace State

/-- How often a packet is in a place, where a packet waits at a node as long as no
link has handled it. -/
def count (s : State) : Place → Uuid → Nat
  | .waiting n, id =>
    (s.nodes n).outbound.messages.countP (·.data.id = id) + s.dispatches.countP (·.holds n id)
  | .inTransit l, id => (s.links l).inTransit.queue.countP (·.data.id = id)
  | .queued n port, id => ((s.nodes n).udpEndpoints port).queue.countP (·.data.id = id)
  | .finished o, id => s.log.countP (·.outcome? = some (id, o))

end State

namespace Moment

/-- How often a packet is in a place, or in the hands of the task that runs. -/
def tally (m : Moment) : Option Place → Uuid → Nat
  | none, id => m.hand.countP (·.data.id = id)
  | some place, id => m.state.count place id

end Moment

namespace State

variable {net : InMemoryNetwork} {licence : Licence} {s s' t : State}

/-! What changes of the state do to the count. -/

/-- The parts of the state that the count looks at stay the same. -/
structure SameCount (s s' : State) : Prop where
  messages : ∀ n, (s'.nodes n).outbound.messages = (s.nodes n).outbound.messages
  endpoints : ∀ n port,
    ((s'.nodes n).udpEndpoints port).queue = ((s.nodes n).udpEndpoints port).queue
  inTransit : ∀ l, (s'.links l).inTransit.queue = (s.links l).inTransit.queue
  dispatches : s'.dispatches = s.dispatches
  log : s'.log = s.log

theorem SameCount.count (same : SameCount s s') (place : Place) (id : Uuid) :
    s'.count place id = s.count place id := by
  cases place with
  | waiting n => simp only [State.count, same.messages, same.dispatches]
  | inTransit l => simp only [State.count, same.inTransit]
  | queued n port => simp only [State.count, same.endpoints]
  | finished o => simp only [State.count, same.log]

theorem SameCount.modifyLink (s : State) (l : LinkId) (change : LinkState → LinkState)
    (inTransit : (change (s.links l)).inTransit.queue = (s.links l).inTransit.queue) :
    SameCount s (s.modifyLink l change) := by
  refine ⟨fun _ => rfl, fun _ _ => rfl, fun l' => ?_, rfl, rfl⟩
  by_cases same : l' = l
  · subst same
    simpa
  · rw [modifyLink_of_ne _ _ same]

theorem SameCount.modifyNode (s : State) (n : NodeId) (change : NodeState → NodeState)
    (outbound : (change (s.nodes n)).outbound = (s.nodes n).outbound)
    (endpoints : (change (s.nodes n)).udpEndpoints = (s.nodes n).udpEndpoints) :
    SameCount s (s.modifyNode n change) := by
  refine ⟨fun n' => ?_, fun n' port => ?_, fun _ => rfl, rfl, rfl⟩
  all_goals by_cases same : n' = n
  · rw [same, modifyNode_self, outbound]
  · rw [modifyNode_of_ne _ _ same]
  · rw [same, modifyNode_self, endpoints]
  · rw [modifyNode_of_ne _ _ same]

theorem count_note (s : State) (entry : LogEntry) (place : Place) (id : Uuid) :
    (s.note entry).count place id = s.count place id +
      match place with
      | .finished o => if entry.outcome? = some (id, o) then 1 else 0
      | _ => 0 := by
  cases place with
  | finished o => simp [State.count, note, List.countP_cons]
  | waiting n | inTransit l | queued n port => rfl

/-- An entry that finishes no packet. -/
theorem count_note_open (s : State) {entry : LogEntry} (still : entry.outcome? = none)
    (place : Place) (id : Uuid) : (s.note entry).count place id = s.count place id := by
  rw [count_note, still]
  cases place <;> simp

/-- An entry that finishes a packet. -/
theorem count_note_finished (s : State) {entry : LogEntry} {x : Uuid} {o : Outcome}
    (ends : entry.outcome? = some (x, o)) (place : Place) (id : Uuid) :
    (s.note entry).count place id =
      s.count place id + if place = .finished o ∧ id = x then 1 else 0 := by
  rw [count_note, ends]
  cases place <;> simp [eq_comm, and_comm]

theorem count_takeUp (s : State) (data : InTransitData) (stage : Stage) (place : Place)
    (id : Uuid) : (s.takeUp data stage).count place id = s.count place id := by
  cases stage with
  | flying l sent => exact count_note_open s rfl place id
  | fresh | inside n => rfl

/-- A packet in hand is finished. -/
theorem finish_flow {held : Held} {hand : List Held} {entry : LogEntry} {o : Outcome}
    (ends : entry.outcome? = some (held.data.id, o)) (same : ∀ p id, s.count p id = t.count p id) :
    Flow licence.lossy (Moment.tally ⟨s, held :: hand⟩) (Moment.tally ⟨t.note entry, hand⟩) := by
  refine .moved none (some (.finished o)) (by simp) (fun id => if id = held.data.id then 1 else 0)
    fun place id => ?_
  cases place with
  | none => simp [Moment.tally, List.countP_cons, eq_comm]
  | some place =>
      simp only [Moment.tally, count_note_finished t ends, same, Option.some.injEq, reduceCtorEq,
        if_false]
      by_cases here : place = .finished o <;> simp [here]

/-- A packet in hand is lost. -/
theorem forget_flow {held : Held} {hand : List Held} (same : ∀ p id, t.count p id = s.count p id)
    (lost : licence.lossy) :
    Flow licence.lossy (Moment.tally ⟨s, held :: hand⟩) (Moment.tally ⟨t, hand⟩) := by
  refine .lost none (fun id => if id = held.data.id then 1 else 0) (fun place id => ?_) lost
  cases place with
  | none => simp [Moment.tally, List.countP_cons, eq_comm]
  | some place => simp [Moment.tally, same]

/-- A packet in hand goes to a place. -/
theorem place_flow {held : Held} {hand : List Held} (place : Place)
    (placed : ∀ p id, t.count p id =
      s.count p id + if p = place ∧ id = held.data.id then 1 else 0) :
    Flow licence.lossy (Moment.tally ⟨s, held :: hand⟩) (Moment.tally ⟨t, hand⟩) := by
  refine .moved none (some place) (by simp) (fun id => if id = held.data.id then 1 else 0)
    fun p id => ?_
  cases p with
  | none => simp [Moment.tally, List.countP_cons, eq_comm]
  | some p =>
      simp only [Moment.tally, placed, Option.some.injEq, reduceCtorEq, if_false]
      by_cases here : p = place <;> simp [here]

/-- The packets of a place are taken in hand. -/
theorem take_flow {hand : List Held} (place : Place)
    (taken : ∀ p id, s.count p id =
      t.count p id + if p = place then hand.countP (·.data.id = id) else 0) :
    Flow licence.lossy (Moment.tally ⟨s, []⟩) (Moment.tally ⟨t, hand⟩) := by
  refine .moved (some place) none (by simp) (fun id => hand.countP (·.data.id = id))
    fun p id => ?_
  cases p with
  | none => simp [Moment.tally]
  | some p => simp [Moment.tally, taken]

/-- A packet goes from one place to another. -/
theorem pass_flow {hand : List Held} (source target : Place) (x : Uuid) (differs : source ≠ target)
    (passed : ∀ p id, s.count p id + (if p = target ∧ id = x then 1 else 0) =
      t.count p id + if p = source ∧ id = x then 1 else 0) :
    Flow licence.lossy (Moment.tally ⟨s, hand⟩) (Moment.tally ⟨t, hand⟩) := by
  refine .moved (some source) (some target) (by simpa using differs)
    (fun id => if id = x then 1 else 0) fun p id => ?_
  cases p with
  | none => simp [Moment.tally]
  | some p =>
      have change := passed p id
      simp only [Moment.tally, Option.some.injEq]
      by_cases here : id = x <;> simpa [here] using change

theorem still_flow {hand hand' : List Held} (hands : ∀ id : Uuid,
      hand'.countP (·.data.id = id) = hand.countP (·.data.id = id))
    (same : ∀ p id, t.count p id = s.count p id) :
    Flow licence.lossy (Moment.tally ⟨s, hand⟩) (Moment.tally ⟨t, hand'⟩) := by
  refine .still fun p id => ?_
  cases p with
  | none => exact hands id
  | some p => exact same p id

theorem count_deliverPacket (s : State) (n : NodeId) (data : InTransitData) (p : Place)
    (id : Uuid) : (s.deliverPacket n data).count p id = s.count p id +
      if p = .queued n data.transmit.destination.port ∧ id = data.id then 1 else 0 := by
  cases p with
  | waiting n' =>
      by_cases same : n' = n
      · subst same
        simp [State.count, State.deliverPacket, NodeState.deliverPacket, modifyNode]
      · simp [State.count, State.deliverPacket, modifyNode, Function.update_of_ne same]
  | inTransit l => simp [State.count, State.deliverPacket, modifyNode]
  | finished o => simp [State.count, State.deliverPacket, modifyNode]
  | queued n' port =>
      by_cases same : n' = n
      · subst same
        by_cases here : port = data.transmit.destination.port
        · subst here
          simp [State.count, State.deliverPacket, NodeState.deliverPacket, InboundQueue.send,
            List.countP_cons, eq_comm]
        · simp [State.count, State.deliverPacket, NodeState.deliverPacket,
            here]
      · simp [State.count, State.deliverPacket, modifyNode_of_ne _ _ same, same]

/-- The messages of one node change. -/
theorem count_messages (s s' : State) (n : NodeId) (others : ∀ n', n' ≠ n → s'.nodes n' = s.nodes n')
    (endpoints : (s'.nodes n).udpEndpoints = (s.nodes n).udpEndpoints)
    (inTransit : ∀ l, (s'.links l).inTransit.queue = (s.links l).inTransit.queue)
    (log : s'.log.filterMap LogEntry.outcome? = s.log.filterMap LogEntry.outcome?)
    (more less : Uuid → Nat) (changed : ∀ id,
      (s.nodes n).outbound.messages.countP (·.data.id = id) +
          s.dispatches.countP (·.holds n id) + more id =
        (s'.nodes n).outbound.messages.countP (·.data.id = id) +
          s'.dispatches.countP (·.holds n id) + less id)
    (elsewhere : ∀ n' id, n' ≠ n →
      s'.dispatches.countP (·.holds n' id) = s.dispatches.countP (·.holds n' id))
    (p : Place) (id : Uuid) :
    s.count p id + (if p = .waiting n then more id else 0) =
      s'.count p id + if p = .waiting n then less id else 0 := by
  cases p with
  | waiting n' =>
      by_cases same : n' = n
      · subst same
        simpa [State.count] using changed id
      · simp [State.count, others n' same, elsewhere n' id same, same]
  | inTransit l => simp [State.count, inTransit]
  | finished o =>
      have outcomes (log : List LogEntry) : log.countP (·.outcome? = some (id, o)) =
          (log.filterMap LogEntry.outcome?).count (id, o) := by
        rw [List.count_filterMap]
        exact List.countP_congr fun _ _ => by simp
      simp [State.count, outcomes, log]
  | queued n' port =>
      by_cases same : n' = n
      · subst same
        simp [State.count, endpoints]
      · simp [State.count, others n' same]

/-- A handled packet no longer waits at its node. -/
theorem Takes.handled_count {l : LinkId} {k : OutgoingPacket} {u : State}
    (takes : s.Takes t l k) (competing : s.Competing net)
    (unhandled : s.handled k.handled = false) (acts : List (LinkId × Act))
    (nodes : ∀ n, (u.nodes n).outbound = (s.nodes n).outbound ∧
      (u.nodes n).udpEndpoints = (s.nodes n).udpEndpoints)
    (inTransit : ∀ l, (u.links l).inTransit.queue = (s.links l).inTransit.queue)
    (log : u.log = s.log)
    (dispatches : u.dispatches = t.dispatches.modify k.handled fun d =>
      { d with handled := true, acts := d.acts ++ acts }) (p : Place) (id : Uuid) :
    s.count p id = u.count p id + if p = .waiting k.srcNode ∧ id = k.data.id then 1 else 0 := by
  obtain ⟨k₀, same, copies⟩ := takes.copies
  obtain ⟨-, node, data, -, flag⟩ := same.fields
  obtain ⟨d, found, copy⟩ := competing.copies l k₀ (copies ▸ List.mem_cons_self)
  obtain ⟨-, node', data', -⟩ := copy
  rw [← flag] at found
  have opened : d.handled = false := by simpa [handled, found] using unhandled
  rw [takes.works.dispatches] at dispatches
  obtain ⟨rest, before, after⟩ := modify_perm
    (fun d => { d with handled := true, acts := d.acts ++ acts }) found
  have waiting (n : NodeId) : s.dispatches.countP (·.holds n id) =
      u.dispatches.countP (·.holds n id) + if n = k.srcNode ∧ id = k.data.id then 1 else 0 := by
    have here : d.holds n id = decide (n = k.srcNode ∧ id = k.data.id) := by
      rw [Dispatch.holds, node.trans node', data.trans data']
      simp [opened, eq_comm (a := n), eq_comm (a := id)]
    have gone : { d with handled := true, acts := d.acts ++ acts }.holds n id = false := by
      simp [Dispatch.holds]
    rw [dispatches, before.countP_eq, after.countP_eq, List.countP_cons, List.countP_cons, here,
      gone]
    simp
  cases p with
  | waiting n => simp [State.count, nodes, waiting, Nat.add_assoc]
  | inTransit l => simp [State.count, inTransit]
  | queued n port => simp [State.count, nodes]
  | finished o => simp [State.count, log]

theorem Works.sameCount {l : LinkId} (works : Works s t l) : SameCount s t := by
  refine ⟨fun _ => by rw [works.nodes], fun _ _ => by rw [works.nodes], fun l' => ?_,
    works.dispatches, works.log⟩
  by_cases same : l' = l
  · rw [same, works.inTransit]
  · rw [works.others l' same]

theorem Pushed.count {n : NodeId} {packet : BufferedPacket} {rest : List BufferedPacket}
    {links : List LinkId} (queued : (s.nodes n).outbound.messages = packet :: rest)
    (pushed : Pushed n packet s.dispatches.length links
      ((s.takeBuffered n rest).openDispatch n packet links) s') (p : Place) (id : Uuid) :
    s'.count p id = s.count p id := by
  have dispatches : s'.dispatches = s.dispatches ++ [⟨n, packet, links, false, []⟩] :=
    pushed.dispatches
  have nodes : s'.nodes = (s.takeBuffered n rest).nodes := pushed.nodes
  have inTransit (l : LinkId) : (s'.links l).inTransit.queue = (s.links l).inTransit.queue := by
    obtain ⟨new, queue, -⟩ := pushed.queues l
    rw [queue]
    rfl
  have counts := count_messages s s' n
    (fun n' differs => by rw [nodes, takeBuffered, modifyNode_of_ne _ _ differs])
    (by rw [nodes]; simp [takeBuffered]) inTransit (congrArg (List.filterMap _) pushed.log)
    (fun _ => 0) (fun _ => 0) (fun id => ?_) (fun n' id differs => ?_) p id
  · simpa using counts.symm
  · rw [nodes, queued, dispatches]
    simp only [takeBuffered, modifyNode_self, List.countP_cons, List.countP_append,
      Dispatch.holds, List.countP_nil, decide_eq_true_eq, true_and]
    omega
  · rw [dispatches]
    simp [Dispatch.holds, Ne.symm differs]

/-- A link that sends a packet of its node has it in transit. -/
theorem Takes.send_count {l : LinkId} {k : OutgoingPacket} {data : InTransitData}
    (takes : s.Takes t l k) (competing : s.Competing net)
    (unhandled : s.handled k.handled = false) (pacer : PacketPacer) (same : data.id = k.data.id)
    (p : Place) (id : Uuid) :
    s.count p id + (if p = .inTransit l ∧ id = k.data.id then 1 else 0) =
      (((t.markHandled k).carry l k data pacer).noteAct k.handled l .sent).count p id +
        if p = .waiting k.srcNode ∧ id = k.data.id then 1 else 0 := by
  generalize sent : ((t.markHandled k).carry l k data pacer).noteAct k.handled l .sent = u
  have dispatches : u.dispatches = t.dispatches.modify k.handled fun d =>
      { d with handled := true, acts := d.acts ++ [(l, .sent)] } := by
    rw [← sent]
    exact List.modify_modify_eq _ _ k.handled t.dispatches
  have before := takes.handled_count (u := { s with dispatches := u.dispatches }) competing
    unhandled _ (fun _ => ⟨rfl, rfl⟩) (fun _ => rfl) rfl dispatches p id
  have log : u.log = s.log ++ [.recorded ⟨t.now, .packetInTransit ⟨data.id, k.srcNode, l⟩⟩] := by
    rw [← sent, ← takes.works.log]
    rfl
  have nodes : u.nodes = Function.update s.nodes k.srcNode { s.nodes k.srcNode with
      outboundBuffer := (s.nodes k.srcNode).outboundBuffer.release k.data.size } := by
    rw [← sent, ← takes.works.nodes]
    rfl
  have links (l' : LinkId) : (u.links l').inTransit.queue.countP (·.data.id = id) =
      (s.links l').inTransit.queue.countP (·.data.id = id) +
        if l' = l ∧ id = k.data.id then 1 else 0 := by
    rw [← sent, noteAct_links]
    by_cases here : l' = l
    · subst here
      rw [carry_self, markHandled_links, takes.works.inTransit]
      simp [InboundQueue.send, List.countP_cons, same, eq_comm]
    · rw [carry_of_ne _ _ _ _ here, markHandled_links, takes.works.others l' here]
      simp [here]
  rw [before]
  cases p with
  | waiting n =>
      have outbound : (u.nodes n).outbound = (s.nodes n).outbound := by
        rw [nodes]
        by_cases here : n = k.srcNode
        · simp [here]
        · simp [Function.update_of_ne here]
      simp [State.count, outbound]
  | inTransit l' => simp [State.count, links]
  | queued n port =>
      have endpoints : (u.nodes n).udpEndpoints = (s.nodes n).udpEndpoints := by
        rw [nodes]
        by_cases here : n = k.srcNode
        · simp [here]
        · simp [Function.update_of_ne here]
      simp [State.count, endpoints]
  | finished o => simp [State.count, log, LogEntry.outcome?]

theorem countP_delivered {queue rest : List PrioritizedInTransitData}
    {delivered : List DeliveredTransmit} (id : Uuid)
    (moved : (queue.map (·.delivered)).Perm (delivered ++ rest.map (·.delivered))) :
    queue.countP (·.data.id = id) =
      delivered.countP (·.data.id = id) + rest.countP (·.data.id = id) := by
  have counts := moved.countP_eq (·.data.id = id)
  rw [List.countP_append, List.countP_map, List.countP_map] at counts
  exact counts

/-- Every effect but the drawing of an id is a flow of packets between places. -/
theorem Competing.flow {m m' : Moment} (competing : m.state.Competing net)
    (effect : Effect net licence m m') (drawn : m'.state.drawn = m.state.drawn) :
    Flow licence.lossy m.tally m'.tally := by
  have same {s s' : State} {hand : List Held} (same : SameCount s s') :
      Flow licence.lossy (Moment.tally ⟨s, hand⟩) (Moment.tally ⟨s', hand⟩) :=
    still_flow (fun _ => rfl) fun p id => same.count p id
  have noted {s : State} {hand : List Held} {entry : LogEntry} (still : entry.outcome? = none) :
      Flow licence.lossy (Moment.tally ⟨s, hand⟩) (Moment.tally ⟨s.note entry, hand⟩) :=
    still_flow (fun _ => rfl) fun p id => count_note_open s still p id
  cases effect with
  | @quiet s s' hand quiet =>
      exact same ⟨fun n => by rw [quiet.outbound], quiet.endpoints, quiet.inTransit,
        quiet.dispatches, quiet.log⟩
  | crash s hand lost => exact same ⟨fun _ => rfl, fun _ _ => rfl, fun _ => rfl, rfl, rfl⟩
  | forget s held hand lost => exact forget_flow (fun _ _ => rfl) lost
  | outage s l hand up =>
      have settled := SameCount.modifyLink s l (·.updateStatus s.now .down) rfl
      exact still_flow (fun _ => rfl) fun p id =>
        (count_note_open _ rfl p id).trans (settled.count p id)
  | event s e hand => exact noted rfl
  | issue => simp at drawn
      -- Drawing an id is what the hypothesis excludes.
  | enter s n data stage hand reaches up =>
      exact still_flow (fun _ => by simp [List.countP_cons]) fun p id =>
        (count_note_open _ rfl p id).trans (count_takeUp s data stage p id)
  | refuse s n data stage hand reaches down =>
      exact finish_flow rfl fun p id => (count_takeUp s data stage p id).symm
  | retouch s data data' stage hand id size =>
      exact still_flow (fun _ => by simp [List.countP_cons, id]) fun _ _ => rfl
  | deliver s n data hand => exact place_flow _ fun p id => count_deliverPacket s n data p id
  | drop s n data reason hand full => exact finish_flow rfl fun _ _ => rfl
  | @buffer s n data since hand outboundBuffer outbound room sent =>
      -- The reservation is made and noted first: it moves no packet, and the send
      -- to the channel is counted from the state after it.
      refine place_flow (.waiting n) fun p id => ?_
      generalize reserved : (s.modifyNode n ({ · with outboundBuffer })).note (.reserved n data) = t
      have before (p : Place) (id : Uuid) : t.count p id = s.count p id := by
        have still := SameCount.modifyNode s n ({ · with outboundBuffer }) rfl rfl
        rw [← reserved]
        exact (count_note_open _ rfl p id).trans (still.count p id)
      have same : (t.nodes n).outbound = (s.nodes n).outbound := by simp [← reserved]
      have queued := count_messages t (t.modifyNode n ({ · with outbound })) n
        (fun n' differs => modifyNode_of_ne _ _ differs) (by simp) (fun _ => rfl) rfl
        (fun id => if id = data.id then 1 else 0) (fun _ => 0) (fun id => ?_) (fun _ _ _ => rfl) p id
      · rw [← before]
        by_cases here : p = .waiting n <;> simpa [here] using queued.symm
      · rw [same, modifyNode_self, Channel.unboundedSend_some sent]
        simp [List.countP_cons, modifyNode, eq_comm]
        omega
  | @overbook s n data hand outboundBuffer room lost =>
      have still := SameCount.modifyNode s n ({ · with outboundBuffer }) rfl rfl
      exact forget_flow (fun p id => (count_note_open _ rfl p id).trans (still.count p id)) lost
  | duplicate s n data hand known => exact noted rfl
  | dispatch n packet rest links hand member queued some pushed =>
      exact still_flow (fun _ => rfl) fun p id => pushed.count queued p id
  | endBuffer s n hand lost =>
      refine .lost (some (.waiting n))
        (fun id => (s.nodes n).outbound.messages.countP (·.data.id = id)) (fun p id => ?_) lost
      have ended := fun p => count_messages s (s.endBufferProcessor n) n
        (fun n' differs => modifyNode_of_ne _ _ differs) (by simp [endBufferProcessor])
        (fun _ => rfl) rfl (fun _ => 0)
        (fun id => (s.nodes n).outbound.messages.countP (·.data.id = id))
        (fun id => by simp [endBufferProcessor, Channel.dropReceiver, modifyNode, Nat.add_comm])
        (fun _ _ _ => rfl) p id
      cases p with
      | none => simp [Moment.tally]
      | some p => simpa [Moment.tally] using ended p
  | discard hand takes handled => exact same takes.works.sameCount
  | @clear s t l k hand takes unhandled cleared licensed =>
      refine pass_flow (.waiting k.srcNode) (.finished .bufferCleared) k.data.id (by simp)
        fun p id => ?_
      have before := takes.handled_count (u := (t.markHandled k).noteAct k.handled l .cleared)
        competing unhandled [(l, .cleared)] (fun n => by
          rw [← takes.works.nodes]
          exact ⟨rfl, rfl⟩)
        takes.works.sameCount.inTransit takes.works.log
        (List.modify_modify_eq _ _ k.handled t.dispatches) p id
      have after : (t.dropCleared l k).count p id =
          ((t.markHandled k).noteAct k.handled l .cleared).count p id +
            if p = .finished .bufferCleared ∧ id = k.data.id then 1 else 0 :=
        count_note_finished _ rfl p id
      omega
  | @send s t l k data pacer hand member takes unhandled kept up marked =>
      exact pass_flow _ _ _ (by simp) fun p id => takes.send_count competing unhandled pacer
        (PacketAnomalies.mark_some marked).1 p id
  | @taskPanics s t l hand works alive lost =>
      have still := works.sameCount
      have ended := SameCount.modifyLink t l (fun link => { link with
        task := .panicked, outgoingQueue := link.outgoingQueue.dropReceiver }) rfl
      exact still_flow (fun _ => rfl) fun p id => (ended.count p id).trans (still.count p id)
  | @sendPanics s t l k hand takes unhandled lost =>
      refine .lost (some (.waiting k.srcNode)) (fun id => if id = k.data.id then 1 else 0)
        (fun p id => ?_) lost
      have dispatches : ((t.markHandled k).endQueueTask l).dispatches =
          t.dispatches.modify k.handled fun d => { d with handled := true, acts := d.acts ++ [] } := by
        simp [endQueueTask, modifyLink, markHandled, modifyDispatch]
      have before := fun p => takes.handled_count (u := (t.markHandled k).endQueueTask l)
        competing unhandled [] (fun n => by
          rw [← takes.works.nodes]
          exact ⟨rfl, rfl⟩)
        (fun l' => by
          by_cases here : l' = l
          · rw [here, endQueueTask_self, markHandled_links]
            exact congrArg _ takes.works.inTransit
          · rw [endQueueTask_of_ne _ here, markHandled_links, takes.works.others l' here])
        takes.works.log dispatches p id
      cases p with
      | none => simp [Moment.tally]
      | some p =>
          rw [Moment.tally, Moment.tally, before p]
          by_cases here : p = .waiting k.srcNode <;> simp [here]
  | collect s l delivered inTransit forwarder member moved =>
      refine take_flow (.inTransit l) fun p id => ?_
      have split := countP_delivered id moved
      cases p with
      | inTransit l' =>
          by_cases here : l' = l
          · subst here
            simp [State.count, List.countP_map, Function.comp_def, split, Nat.add_comm]
          · simp [State.count, modifyLink_of_ne _ _ here, here]
      | waiting n | queued n port | finished o => simp [State.count, modifyLink]
  | lose s l data sent hand down =>
      exact finish_flow rfl fun p id => (count_takeUp s data (.flying l sent) p id).symm
  | strand s l data sent hand up nowhere lost =>
      exact forget_flow (fun p id =>
        (count_note_open _ rfl p id).trans (count_takeUp s data (.flying l sent) p id)) lost
  | socket s n port delivery hand size =>
      exact same ⟨fun _ => rfl, fun _ _ => rfl, fun _ => rfl, rfl, rfl⟩
  | fetch s n port delivered queue member moved =>
      refine take_flow (.queued n port) fun p id => ?_
      have split := countP_delivered id moved
      cases p with
      | queued n' port' =>
          by_cases here : n' = n
          · subst here
            by_cases there : port' = port
            · subst there
              simp [State.count, setEndpoint, List.countP_map, Function.comp_def, split,
                Nat.add_comm]
            · simp [State.count, setEndpoint, there]
          · simp [State.count, setEndpoint, modifyNode_of_ne _ _ here, here]
      | waiting n' =>
          by_cases here : n' = n
          · subst here
            simp [State.count, setEndpoint, modifyNode]
          · simp [State.count, setEndpoint, modifyNode, Function.update_of_ne here]
      | inTransit l | finished o => simp [State.count, setEndpoint, modifyNode]
  | read s n data hand => exact finish_flow rfl fun _ _ => rfl
  | check s n data hand => exact finish_flow rfl fun _ _ => rfl

end State

/-! Where the issued packets are. -/

/-- The id was drawn for a packet. -/
def State.Issued (net : InMemoryNetwork) (s : State) (id : Uuid) : Prop :=
  ∃ i < s.drawn, net.uuids i = id

/-- No packet is in two places or twice in one, none is anywhere before it was issued,
and if the whole is asked for, every issued one is somewhere. -/
def Located (net : InMemoryNetwork) (whole : Prop) (m : Moment) : Prop :=
  ∃ ledger : Ledger Uuid (Option Place), Describes ledger m.tally ∧
    (∀ id, ledger id ≠ none → m.state.Issued net id) ∧
    (whole → ∀ id, m.state.Issued net id → ledger id ≠ none)

variable {net : InMemoryNetwork} {licence : Licence} {whole : Prop} {m m' : Moment} {s s' : State}

theorem Located.initial : Located net whole ⟨.initial net, []⟩ := by
  refine ⟨fun _ => none, fun p id => ?_, by simp, fun _ id ⟨i, drawn, _⟩ => ?_⟩
  · rcases p with _ | n | l | ⟨n, port⟩ | o <;> rfl
  · simp [State.initial] at drawn

/-- An effect draws one id, for a packet that the task then holds, or none. -/
theorem Effect.draws (effect : Effect net licence m m') :
    m'.state.drawn = m.state.drawn ∨
    ∃ (data : InTransitData) (before after : List Held), m.hand = before ++ after ∧
      m'.hand = before ++ ⟨data, .fresh⟩ :: after ∧ data.id = net.uuids m.state.drawn ∧
      m'.state.drawn = m.state.drawn + 1 ∧ ∀ p id, m'.state.count p id = m.state.count p id := by
  cases effect with
  | issue s data number before after id =>
      exact .inr ⟨data, before, after, rfl, rfl, id, rfl, fun p id => by cases p <;> rfl⟩
  | quiet hand quiet => exact .inl quiet.drawn
  | dispatch n packet rest links hand member queued some pushed => exact .inl pushed.drawn
  | discard hand takes | clear hand takes | sendPanics hand takes => exact .inl takes.works.drawn
  | send data pacer hand member takes => exact .inl takes.works.drawn
  | taskPanics l hand works => exact .inl works.drawn
  | enter s n data stage | refuse s n data stage => cases stage <;> exact .inl rfl
  | _ => exact .inl rfl

theorem Located.effect (located : Located net whole m) (fresh : Function.Injective net.uuids)
    (competing : m.state.Competing net) (effect : Effect net licence m m')
    (kept : whole → ¬ licence.lossy) : Located net whole m' := by
  obtain ⟨ledger, described, issued, all⟩ := located
  rcases effect.draws with same | ⟨data, before, after, hand, hand', id, drawn, counts⟩
  · obtain ⟨ledger', described', placed, stays⟩ :=
      described.flow (competing.flow effect same)
    have sameIssued (id : Uuid) : m'.state.Issued net id ↔ m.state.Issued net id := by
      rw [State.Issued, State.Issued, same]
    refine ⟨ledger', described', fun id there => ?_, fun complete id drawn => ?_⟩
    · exact (sameIssued id).mpr (issued id (placed id there))
    · exact stays (kept complete) id (all complete id ((sameIssued id).mp drawn))
  · have absent : ledger data.id = none := by
      by_contra there
      obtain ⟨i, earlier, same⟩ := issued data.id there
      have := fresh (same.trans id)
      omega
    refine ⟨_, described.put none absent fun p id => ?_,
      fun x there => ?_, fun complete x ⟨i, before, same⟩ => ?_⟩
    · cases p with
      | none =>
          simp only [Moment.tally, hand, hand', List.countP_append, List.countP_cons]
          simp [eq_comm]
          omega
      | some p => simpa [Moment.tally] using counts p id
    · by_cases here : x = data.id
      · exact ⟨m.state.drawn, by omega, here ▸ id.symm⟩
      · rw [Function.update_of_ne here] at there
        obtain ⟨i, earlier, same⟩ := issued x there
        exact ⟨i, by omega, same⟩
    · by_cases here : x = data.id
      · simp [here]
      · rw [Function.update_of_ne here]
        refine all complete x ⟨i, ?_, same⟩
        have : i ≠ m.state.drawn := fun last => here (by rw [← same, last, id])
        omega

/-- A panic is never undone. -/
theorem Effect.panicked (effect : Effect net licence m m') (panicked : m.state.panicked = true) :
    m'.state.panicked = true := by
  cases effect with
  | quiet hand quiet => exact quiet.panicked.trans panicked
  | crash | taskPanics | sendPanics => rfl
  | dispatch n packet rest links hand member queued some pushed =>
      exact pushed.panicked.trans panicked
  | discard hand takes | clear hand takes => exact takes.works.panicked.trans panicked
  | send data pacer hand member takes => exact takes.works.panicked.trans panicked
  | enter s n data stage | refuse s n data stage => cases stage <;> exact panicked
  | _ => exact panicked

/-- Every delivery stored for a socket was created with the socket's number of slots. -/
def State.Slotted (s : State) (slots : NodeId → Port → Nat) : Prop :=
  ∀ n port delivery, s.sockets n port = some delivery → delivery.maxTransmits = slots n port

theorem State.Slotted.effect (slotted : m.state.Slotted licence.slots)
    (effect : Effect net licence m m') : m'.state.Slotted licence.slots := by
  have same (sockets : m'.state.sockets = m.state.sockets) : m'.state.Slotted licence.slots := by
    rw [State.Slotted, sockets]
    exact slotted
  cases effect with
  | quiet hand quiet => exact same quiet.sockets
  | dispatch n packet rest links hand member queued some pushed => exact same pushed.sockets
  | discard hand takes | clear hand takes | sendPanics hand takes =>
      exact same takes.works.sockets
  | send data pacer hand member takes => exact same takes.works.sockets
  | taskPanics l hand works => exact same works.sockets
  | enter s n data stage | refuse s n data stage => cases stage <;> exact same rfl
  | socket s n port delivery hand size =>
      intro n' port' delivery' stored
      by_cases node : n' = n
      · subst node
        by_cases here : port' = port
        · subst here
          obtain rfl : delivery = delivery' := by simpa using stored
          rw [size]
          cases before : s.sockets n' port' with
          | none => rfl
          | some old => exact slotted n' port' old before
        · exact slotted n' port' delivery' (by simpa [Function.update_of_ne here] using stored)
      · exact slotted n' port' delivery' (by simpa [Function.update_of_ne node] using stored)
  | _ => exact same rfl

/-- What a step keeps of the packets, without any assumption. -/
theorem Located.step {action : Action} (located : Located net False ⟨s, []⟩)
    (fresh : Function.Injective net.uuids) (competing : s.Competing net)
    (taken : s.step net action = some s') : Located net False ⟨s', []⟩ := by
  have both := State.step_kept taken (fun m => m.state.Competing net ∧ Located net False m)
    ⟨competing, located⟩ fun _ _ _ ⟨competing, located⟩ effect =>
      ⟨competing.effect effect, located.effect fresh competing effect False.elim⟩
  exact both.2

/-- A packet that is to leave a node has a route there, and no route of it lacks its link. -/
def State.Routed (net : InMemoryNetwork) (s : State) (action : Action) : Prop :=
  ∀ n rolls packet, action = .processBuffer n rolls →
    (s.nodes n).outbound.messages.head? = some packet →
    net.Routable n packet.data.transmit.destination.ip

instance (net : InMemoryNetwork) (s : State) (action : Action) : Decidable (s.Routed net action) :=
  match action with
  | .processBuffer n _ =>
    decidable_of_iff (∀ packet ∈ (s.nodes n).outbound.messages.head?,
      net.Routable n packet.data.transmit.destination.ip) <| by
        refine ⟨?_, fun routed packet first => routed n _ packet rfl first⟩
        rintro routed n' rolls packet same first
        obtain ⟨rfl, -⟩ := Action.processBuffer.inj same
        exact routed packet first
  | .advance _ | .linkEvent _ | .nodeEvent _ | .sendUdp .. | .pollLink _ | .pollForwarder ..
  | .pollRecv .. | .checkReceive .. => isTrue nofun

/-- A step that meets the assumptions keeps all packets, unless a task panics. -/
theorem Located.step_whole {slots : NodeId → Port → Nat} {action : Action}
    (located : s.panicked = false → Located net True ⟨s, []⟩)
    (fresh : Function.Injective net.uuids) (competing : s.Competing net)
    (slotted : s.Slotted slots) (reads : action.Reads slots) (routed : s.Routed net action)
    (taken : s.step net action = some s') :
    s'.Slotted slots ∧ (s'.panicked = false → Located net True ⟨s', []⟩) := by
  let licence : Licence := ⟨slots, s.Lossy net slots action s', True⟩
  have effects : Effects net licence ⟨s, []⟩ ⟨s', []⟩ :=
    State.step_effects taken reads id fun _ => trivial
  refine ⟨effects.invariant (·.state.Slotted licence.slots) slotted
    fun _ _ slotted effect => slotted.effect effect, fun healthy' => ?_⟩
  have healthy : s.panicked = false := by
    by_contra panicked
    have still := effects.invariant (·.state.panicked = true) (by simpa using panicked)
      fun _ _ panicked effect => effect.panicked panicked
    simp [healthy'] at still
  have kept : ¬ licence.lossy := by
    rintro (panicked | ⟨n, rolls, packet, same, first, unroutable⟩ |
      ⟨n, port, delivery, stored, differs⟩)
    · simp [healthy'] at panicked
    · exact unroutable (routed n rolls packet same first)
    · exact differs (slotted n port delivery stored)
  have both := effects.invariant (fun m => m.state.Competing net ∧ Located net True m)
    ⟨competing, located healthy⟩ fun _ _ ⟨competing, located⟩ effect =>
      ⟨competing.effect effect, located.effect fresh competing effect fun _ => kept⟩
  exact both.2

namespace State

/-- Some link that competes for the packet of a dispatch has a copy still to be handled. -/
def Unsent (s : State) (n : NodeId) (id : Uuid) (d : Dispatch) (i : Nat) : Prop :=
  d.handled = false ∧ ∃ l ∈ d.links, ∃ k ∈ (s.links l).copies,
    k.handled = i ∧ k.srcNode = n ∧ k.data.id = id

instance (s : State) (n : NodeId) (id : Uuid) (d : Dispatch) (i : Nat) :
    Decidable (s.Unsent n id d i) := by
  unfold Unsent
  infer_instance

/-- How often a packet is in a place. It waits at a node in the outbound channel, or
unsent in the queues of its candidate links. -/
def whereabouts (s : State) : Place → Uuid → Nat
  | .waiting n, id =>
    (s.nodes n).outbound.messages.countP (·.data.id = id) +
      s.dispatches.zipIdx.countP fun di => s.Unsent n id di.1 di.2
  | place, id => s.count place id

theorem unsent_iff (competing : s.Competing net) (healthy : s.panicked = false) (n : NodeId)
    (id : Uuid) {d : Dispatch} {i : Nat} (found : s.dispatches[i]? = some d) :
    s.Unsent n id d i ↔ d.holds n id = true := by
  simp only [Unsent, Dispatch.holds, decide_eq_true_eq]
  constructor
  · rintro ⟨opened, l, member, k, there, rfl, rfl, rfl⟩
    obtain ⟨d', found', copy⟩ := competing.copies l k there
    obtain rfl := Option.some.inj (found.symm.trans found')
    exact ⟨copy.2.1.symm, opened, by rw [copy.2.2.1]⟩
  · rintro ⟨rfl, opened, rfl⟩
    have alive (l : LinkId) (_ : l ∈ d.links) : (s.links l).task ≠ .panicked := fun gone => by
      simp [competing.panicked l gone] at healthy
    obtain ⟨l, member⟩ := List.exists_mem_of_ne_nil _
      (competing.dispatched d (List.mem_of_getElem? found)).2
    obtain ⟨k, there, flag⟩ := (competing.fair i d found).copies opened alive l member
    obtain ⟨d', found', copy⟩ := competing.copies l k there
    rw [flag] at found'
    obtain rfl := Option.some.inj (found.symm.trans found')
    exact ⟨opened, l, member, k, there, flag, copy.2.1, by rw [copy.2.2.1]⟩

theorem whereabouts_eq (competing : s.Competing net) (healthy : s.panicked = false)
    (place : Place) (id : Uuid) : s.whereabouts place id = s.count place id := by
  cases place with
  | waiting n =>
      have same : s.dispatches.zipIdx.countP (fun di => s.Unsent n id di.1 di.2) =
          s.dispatches.countP (·.holds n id) := by
        have projected : s.dispatches = s.dispatches.zipIdx.map Prod.fst :=
          (List.zipIdx_map_fst 0 s.dispatches).symm
        conv_rhs => rw [projected, List.countP_map]
        refine List.countP_congr fun di inside => ?_
        have found := List.mk_mem_zipIdx_iff_getElem?.mp (show (di.1, di.2) ∈ _ from inside)
        simpa using unsent_iff competing healthy n id found
      simp [whereabouts, State.count, same]
  | inTransit l | queued n port | finished o => rfl

/-- What holds throughout a run whose packets all have a route with its links. -/
theorem located_of_run (fresh : Function.Injective net.uuids) (slots : NodeId → Port → Nat)
    {past : List (State × Action)} (run : Run (State.step net) (.initial net) past s)
    (reads : ∀ move ∈ past, move.2.Reads slots)
    (routed : ∀ move ∈ past, move.1.Routed net move.2) (healthy : s.panicked = false) :
    s.Competing net ∧ Located net True ⟨s, []⟩ := by
  have kept := run.guarded
    (fun s => s.Competing net ∧ s.Slotted slots ∧
      (s.panicked = false → Located net True ⟨s, []⟩))
    (fun s action => action.Reads slots ∧ s.Routed net action)
    ⟨.initial, by simp [Slotted, State.initial], fun _ => .initial⟩
    (fun move member => ⟨reads move member, routed move member⟩)
    fun s action s' ⟨competing, slotted, located⟩ ⟨reads, routed⟩ taken =>
      ⟨competing.step taken,
        Located.step_whole located fresh competing slotted reads routed taken⟩
  exact ⟨kept.1, kept.2.2 healthy⟩

/-- A ledger has the one place of every packet. -/
theorem ledger_of_run (fresh : Function.Injective net.uuids) (slots : NodeId → Port → Nat)
    {past : List (State × Action)} (run : Run (State.step net) (.initial net) past s)
    (reads : ∀ move ∈ past, move.2.Reads slots)
    (routed : ∀ move ∈ past, move.1.Routed net move.2) (healthy : s.panicked = false) :
    ∃ ledger : Ledger Uuid Place, Describes ledger s.whereabouts ∧
      ∀ id, s.Issued net id → ledger id ≠ none := by
  obtain ⟨competing, spots, described, -, all⟩ :=
    located_of_run fresh slots run reads routed healthy
  refine ⟨fun id => (spots id).join, fun place id => ?_, fun id issued => ?_⟩
  · rw [whereabouts_eq competing healthy place id]
    refine (described (some place) id).trans (if_congr ?_ rfl rfl)
    rw [Option.join_eq_some_iff]
  · -- no task has a packet in its hands between two steps
    obtain ⟨spot, there⟩ := Option.ne_none_iff_exists'.mp (all trivial id issued)
    cases spot with
    | none => simpa [Moment.tally] using described.count there
    | some place => simp [there]

/-- Every packet is in exactly one place, and there once: waiting at a node, in
transit on a link, queued in an endpoint, or finished in one way. -/
theorem conserved (fresh : Function.Injective net.uuids) (slots : NodeId → Port → Nat)
    {past : List (State × Action)} (run : Run (State.step net) (.initial net) past s)
    (reads : ∀ move ∈ past, move.2.Reads slots)
    (routed : ∀ move ∈ past, move.1.Routed net move.2) (healthy : s.panicked = false)
    {id : Uuid} (issued : s.Issued net id) :
    ∃ place, s.whereabouts place id = 1 ∧
      ∀ other, other ≠ place → s.whereabouts other id = 0 := by
  obtain ⟨ledger, described, all⟩ := ledger_of_run fresh slots run reads routed healthy
  exact described.sole (all id issued)

/-- A packet crosses a link and is read, another one is on the link, and a third one waits. -/
theorem conserved_twoHosts : ∃ past s,
    Run (State.step (twoHosts (some 1))) (.initial (twoHosts (some 1))) past s ∧
      past.reverse.map Prod.snd = [.sendUdp 0 greeting 0, .processBuffer 0 [], .pollLink 0, .pollLink 1,
        .advance 10, .pollForwarder 0 [] [], .pollRecv 1 4433 1 100 [], .sendUdp 0 greeting 0,
        .processBuffer 0 [], .advance 90, .pollLink 0, .sendUdp 0 greeting 0] ∧
      s.whereabouts (.finished .read) 0 = 1 ∧ ∀ id < 3, ∃ place, s.whereabouts place id = 1 ∧
        ∀ other, other ≠ place → s.whereabouts other id = 0 := by
  let actions : List Action := [.sendUdp 0 greeting 0, .processBuffer 0 [], .pollLink 0, .pollLink 1,
    .advance 10, .pollForwarder 0 [] [], .pollRecv 1 4433 1 100 [], .sendUdp 0 greeting 0,
    .processBuffer 0 [], .advance 90, .pollLink 0, .sendUdp 0 greeting 0]
  obtain ⟨s, reached, holds⟩ := (Option.any_eq_true _ _).mp <|
    show (attains (State.step (twoHosts (some 1))) (.initial (twoHosts (some 1))) actions).any
      (fun s => decide <|
        (∀ move ∈ (moves (State.step (twoHosts (some 1))) (.initial (twoHosts (some 1))) actions).reverse,
          move.2.Reads (fun _ _ => 1) ∧ move.1.Routed (twoHosts (some 1)) move.2) ∧
          s.panicked = false ∧ s.drawn = 3 ∧ s.whereabouts (.finished .read) 0 = 1 ∧
          s.whereabouts (.inTransit 0) 1 = 1) = true by decide +kernel
  obtain ⟨kept, healthy, drawn, finished, -⟩ := of_decide_eq_true holds
  refine ⟨_, s, .of_moves reached, ?_, finished, fun id small => ?_⟩
  · rw [List.reverse_reverse, moves_actions reached]
  · exact conserved (fun _ _ same => same) (fun _ _ => 1) (.of_moves reached)
      (fun move member => (kept move member).1) (fun move member => (kept move member).2) healthy
      ⟨id, drawn ▸ small, rfl⟩

/-- The first host has a route with an existing link to the second one, and a more
expensive one whose link is missing: its buffer processor ends, and the packet is
nowhere, though no task panicked. -/
theorem lost_without_link :
    (twoHosts none).hasRouteTo 0 greeting.destination.ip = .ok true ∧
    ∃ past s, Run (State.step (twoHosts none)) (.initial (twoHosts none)) past s ∧
      past.reverse.map Prod.snd = [.sendUdp 0 greeting 0, .processBuffer 0 []] ∧
      s.panicked = false ∧ s.Issued (twoHosts none) 0 ∧ ∀ place, s.whereabouts place 0 = 0 := by
  obtain ⟨past, run, actions⟩ := Run.of_isSome (State.step (twoHosts none))
    (.initial (twoHosts none)) [.sendUdp 0 greeting 0, .processBuffer 0 []] rfl
  refine ⟨rfl, past, _, run, actions, rfl, ⟨0, by decide, rfl⟩, fun place => ?_⟩
  rcases place with n | l | ⟨n, port⟩ | o
  · cases n <;> rfl
  · rfl
  · cases n <;> rfl
  · cases o <;> rfl

end State

end Workbench.Network
