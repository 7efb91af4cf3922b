import Mathlib.Logic.Relation
import Workbench.Network.QueueTask

/-! The effects of a step.

A step of a task is a chain of effects, and an effect does one thing: record,
move a packet, or change what no packet depends on. Between two effects the task
holds packets in its hands. An invariant of the network is kept by every step
if it is kept by every effect. -/

set_option autoImplicit false

namespace Workbench.Network

open Workbench.Tracing

/-- Where the trace has a packet that a task holds: nowhere yet, on a link, or in
a node. -/
inductive Stage where
  | fresh
  | flying (link : LinkId) (sent : Nat)
  | inside (node : NodeId)
  deriving DecidableEq, Repr

structure Held where
  data : InTransitData
  stage : Stage
  deriving DecidableEq, Repr

/-- A network, and the packets in the hands of the task that runs. -/
structure Moment where
  state : State
  hand : List Held

/-- The nodes that packets get to. -/
def InMemoryNetwork.Knows (net : InMemoryNetwork) (n : NodeId) : Prop :=
  n ∈ net.nodeIds ∨ ∃ l ∈ net.linkIds, net.nodesByAddr (net.links l).target = some n

namespace State

/-- The mark left when a held packet is taken up from a link. -/
def takeUp (s : State) (data : InTransitData) : Stage → State
  | .flying l _ => s.note (.arrived l data.id)
  | _ => s

/-- A packet may be taken up at a node: a new one, or one that its link brought there. -/
def Reaches (net : InMemoryNetwork) (s : State) (n : NodeId) : Stage → Prop
  | .fresh => n ∈ net.nodeIds
  | .flying l sent => l ∈ net.linkIds ∧ net.nodesByAddr (net.links l).target = some n ∧
      (s.links l).wasDownAfter sent = false
  | .inside _ => False

theorem Reaches.knows {net : InMemoryNetwork} {s : State} {n : NodeId} {stage : Stage}
    (reaches : s.Reaches net n stage) : net.Knows n := by
  cases stage with
  | fresh => exact .inl reaches
  | flying l sent => exact .inr ⟨l, reaches.1, reaches.2.1⟩
  | inside => exact reaches.elim

/-- Nothing happens to any packet. -/
structure Quiet (s s' : State) : Prop where
  now : s.now ≤ s'.now
  sockets : s'.sockets = s.sockets
  dispatches : s'.dispatches = s.dispatches
  drawn : s'.drawn = s.drawn
  log : s'.log = s.log
  panicked : s'.panicked = s.panicked
  outbound : ∀ n, (s'.nodes n).outbound = (s.nodes n).outbound
  outboundBuffer : ∀ n, (s'.nodes n).outboundBuffer = (s.nodes n).outboundBuffer
  endpoints : ∀ n port,
    ((s'.nodes n).udpEndpoints port).queue = ((s.nodes n).udpEndpoints port).queue
  lastDown : ∀ l, (s'.links l).lastDown = (s.links l).lastDown
  inTransit : ∀ l, (s'.links l).inTransit.queue = (s.links l).inTransit.queue
  receiver : ∀ l,
    (s'.links l).outgoingQueue.receiverAlive = (s.links l).outgoingQueue.receiverAlive
  alive : ∀ l, (s'.links l).task = .panicked ↔ (s.links l).task = .panicked
  copies : ∀ l, List.Forall₂ OutgoingPacket.SameCopy (s'.links l).copies (s.links l).copies

theorem mem_of_forall₂ {α β : Type} {R : α → β → Prop} {xs : List α} {ys : List β}
    (related : List.Forall₂ R xs ys) {x : α} (member : x ∈ xs) : ∃ y ∈ ys, R x y := by
  induction related with
  | nil => simp at member
  | cons first _ ih =>
      rcases List.mem_cons.mp member with rfl | member
      · exact ⟨_, List.mem_cons_self, first⟩
      · obtain ⟨y, inside, rest⟩ := ih member
        exact ⟨y, List.mem_cons_of_mem _ inside, rest⟩

/-- A copy after is a copy before. -/
theorem Quiet.copy_before {s s' : State} (quiet : s.Quiet s') {l : LinkId} {k : OutgoingPacket}
    (member : k ∈ (s'.links l).copies) : ∃ k₀ ∈ (s.links l).copies, k.SameCopy k₀ :=
  mem_of_forall₂ (quiet.copies l) member

/-- A copy before is a copy after. -/
theorem Quiet.copy_after {s s' : State} (quiet : s.Quiet s') {l : LinkId} {k : OutgoingPacket}
    (member : k ∈ (s.links l).copies) : ∃ k' ∈ (s'.links l).copies, k'.SameCopy k :=
  mem_of_forall₂ (quiet.copies l).flip member

/-- The copies of a buffered packet are pushed on the queues of its links, each of
them unless the receiver of one is gone. -/
structure Pushed (n : NodeId) (packet : BufferedPacket) (flag : Nat) (links : List LinkId)
    (s s' : State) : Prop where
  now : s'.now = s.now
  sockets : s'.sockets = s.sockets
  dispatches : s'.dispatches = s.dispatches
  drawn : s'.drawn = s.drawn
  log : s'.log = s.log
  panicked : s'.panicked = s.panicked
  nodes : s'.nodes = s.nodes
  queues : ∀ l, ∃ new, s'.links l = { s.links l with outgoingQueue :=
      { (s.links l).outgoingQueue with messages := s.outgoing l ++ new } } ∧
    ∀ k ∈ new, l ∈ links ∧ k.handled = flag ∧ k.srcNode = n ∧ k.data = packet.data ∧
      k.inNodeSince = packet.inNodeSince
  complete : (∀ l ∈ links, ∃ k ∈ s'.outgoing l, k.handled = flag) ∨
    ∃ l ∈ links, (s.links l).outgoingQueue.receiverAlive = false

/-- The task of a link takes a copy that it is ready to send out of its hands or its queue. -/
structure Takes (s t : State) (l : LinkId) (k : OutgoingPacket) : Prop where
  works : Works s t l
  alive : (s.links l).task ≠ .panicked
  idle : (t.links l).task = .idle
  receiver : (t.links l).outgoingQueue.receiverAlive = (s.links l).outgoingQueue.receiverAlive
  copies : ∃ k₀, k.SameCopy k₀ ∧ (s.links l).copies = k₀ :: t.outgoing l

def markHandled (s : State) (k : OutgoingPacket) : State :=
  s.modifyDispatch k.handled ({ · with handled := true })

/-- A link drops a copy because of a buffer clear. -/
def dropCleared (s : State) (l : LinkId) (k : OutgoingPacket) : State :=
  ((s.markHandled k).noteAct k.handled l .cleared).trackDroppedByBufferClearEvent k.srcNode k.data

/-- A link sends a copy. -/
def carry (s : State) (l : LinkId) (k : OutgoingPacket) (data : InTransitData)
    (pacer : PacketPacer) : State :=
  let s := s.trackPacketInTransit k.srcNode l data
  let s := s.modifyNode k.srcNode fun node =>
    { node with outboundBuffer := node.outboundBuffer.release k.data.size }
  s.modifyLink l fun link => { link with
    pacer, inTransit := (link.inTransit.send s.now data (link.delay + k.anomalies.extraDelay)).1 }

/-! What these do to links. -/

@[simp] theorem markHandled_links (s : State) (k : OutgoingPacket) :
    (s.markHandled k).links = s.links := rfl

@[simp] theorem noteAct_links (s : State) (flag : Nat) (l : LinkId) (act : Act) :
    (s.noteAct flag l act).links = s.links := rfl

@[simp] theorem dropCleared_links (s : State) (l : LinkId) (k : OutgoingPacket) :
    (s.dropCleared l k).links = s.links := rfl

@[simp] theorem carry_self (s : State) (l : LinkId) (k : OutgoingPacket) (data : InTransitData)
    (pacer : PacketPacer) : (s.carry l k data pacer).links l = { s.links l with
      pacer, inTransit := ((s.links l).inTransit.send s.now data
        ((s.links l).delay + k.anomalies.extraDelay)).1 } := by
  simp [carry, modifyNode, trackPacketInTransit, record, note]

theorem carry_of_ne (s : State) {l l' : LinkId} (k : OutgoingPacket) (data : InTransitData)
    (pacer : PacketPacer) (differs : l' ≠ l) : (s.carry l k data pacer).links l' = s.links l' := by
  simp [carry, modifyLink_of_ne _ _ differs, modifyNode, trackPacketInTransit, record, note]

@[simp] theorem endQueueTask_self (s : State) (l : LinkId) : (s.endQueueTask l).links l =
    { s.links l with
      task := .panicked, outgoingQueue := (s.links l).outgoingQueue.dropReceiver } := by
  simp [endQueueTask]

theorem endQueueTask_of_ne (s : State) {l l' : LinkId} (differs : l' ≠ l) :
    (s.endQueueTask l).links l' = s.links l' := by
  simp [endQueueTask, modifyLink_of_ne _ _ differs]

theorem endQueueTask_copies (s : State) (l : LinkId) : ((s.endQueueTask l).links l).copies = [] := by
  simp [LinkState.copies, QueueTask.packet?, Channel.dropReceiver]

end State

/-- What the effects of a step may do: read each socket with some number of slots, and
perhaps lose a packet, or drop one because of a buffer clear. -/
structure Licence where
  slots : NodeId → Port → Nat
  lossy : Prop
  clearing : Prop

/-- The effects of steps. -/
inductive Effect (net : InMemoryNetwork) (licence : Licence) : Moment → Moment → Prop where
  | quiet {s s' : State} (hand : List Held) (quiet : s.Quiet s') :
      Effect net licence ⟨s, hand⟩ ⟨s', hand⟩
  | crash (s : State) (hand : List Held) (lost : licence.lossy) :
      Effect net licence ⟨s, hand⟩ ⟨{ s with panicked := true }, hand⟩
  | forget (s : State) (held : Held) (hand : List Held) (lost : licence.lossy) :
      Effect net licence ⟨s, held :: hand⟩ ⟨s, hand⟩
  -- network events
  | outage (s : State) (l : LinkId) (hand : List Held) (up : (s.links l).isDown = false) :
      Effect net licence ⟨s, hand⟩
        ⟨(s.modifyLink l (·.updateStatus s.now .down)).note (.wentDown l s.now), hand⟩
  | event (s : State) (e : NetworkEvent) (hand : List Held)
      (link : ∀ p, e.link = some p → p.linkId ∈ net.linkIds)
      (node : ∀ p, e.node = some p → p.nodeId ∈ net.nodeIds) :
      Effect net licence ⟨s, hand⟩ ⟨s.record (.networkEvent e), hand⟩
  -- a packet in hand
  | issue (s : State) (data : InTransitData) (number : Nat) (before after : List Held)
      (id : data.id = net.uuids s.drawn) :
      Effect net licence ⟨s, before ++ after⟩
        ⟨{ s with drawn := s.drawn + 1, nextTransmitNumber := number },
          before ++ ⟨data, .fresh⟩ :: after⟩
  | enter (s : State) (n : NodeId) (data : InTransitData) (stage : Stage) (hand : List Held)
      (reaches : s.Reaches net n stage) (up : (s.nodes n).isDown = false) :
      Effect net licence ⟨s, ⟨data, stage⟩ :: hand⟩
        ⟨(s.takeUp data stage).trackPacketInNode n data, ⟨data, .inside n⟩ :: hand⟩
  | refuse (s : State) (n : NodeId) (data : InTransitData) (stage : Stage) (hand : List Held)
      (reaches : s.Reaches net n stage) (down : (s.nodes n).isDown = true) :
      Effect net licence ⟨s, ⟨data, stage⟩ :: hand⟩
        ⟨(s.takeUp data stage).trackDroppedOnArrival n data, hand⟩
  | retouch (s : State) (data data' : InTransitData) (stage : Stage) (hand : List Held)
      (id : data'.id = data.id) (size : data'.size = data.size) :
      Effect net licence ⟨s, ⟨data, stage⟩ :: hand⟩ ⟨s, ⟨data', stage⟩ :: hand⟩
  | deliver (s : State) (n : NodeId) (data : InTransitData) (hand : List Held) :
      Effect net licence ⟨s, ⟨data, .inside n⟩ :: hand⟩ ⟨s.deliverPacket n data, hand⟩
  | drop (s : State) (n : NodeId) (data : InTransitData) (reason : DropReason) (hand : List Held)
      (full : reason ≠ .bufferCleared) :
      Effect net licence ⟨s, ⟨data, .inside n⟩ :: hand⟩ ⟨s.trackDropped n data reason, hand⟩
  | buffer (s : State) (n : NodeId) (data : InTransitData) (since : Nat) (hand : List Held)
      {outboundBuffer : OutboundBuffer} {outbound : Channel BufferedPacket}
      (room : (s.nodes n).outboundBuffer.reserve data.size = some outboundBuffer)
      (sent : (s.nodes n).outbound.unboundedSend ⟨since, data⟩ = some outbound) :
      Effect net licence ⟨s, ⟨data, .inside n⟩ :: hand⟩
        ⟨((s.modifyNode n ({ · with outboundBuffer })).note (.reserved n data)).modifyNode n
          ({ · with outbound }), hand⟩
  | overbook (s : State) (n : NodeId) (data : InTransitData) (hand : List Held)
      {outboundBuffer : OutboundBuffer}
      (room : (s.nodes n).outboundBuffer.reserve data.size = some outboundBuffer) (lost : licence.lossy) :
      Effect net licence ⟨s, ⟨data, .inside n⟩ :: hand⟩
        ⟨(s.modifyNode n ({ · with outboundBuffer })).note (.reserved n data), hand⟩
  | duplicate (s : State) (n : NodeId) (data : InTransitData) (hand : List Held)
      (known : net.Knows n) :
      Effect net licence ⟨s, ⟨data, .fresh⟩ :: hand⟩
        ⟨s.trackInjectedFailures n data true 0 false, ⟨data, .inside n⟩ :: hand⟩
  -- the buffer processor of a node
  | dispatch {s s' : State} (n : NodeId) (packet : BufferedPacket) (rest : List BufferedPacket)
      (links : List LinkId) (hand : List Held) (member : n ∈ net.nodeIds)
      (queued : (s.nodes n).outbound.messages = packet :: rest) (some : links ≠ [])
      (pushed : State.Pushed n packet s.dispatches.length links
        ((s.takeBuffered n rest).openDispatch n packet links) s') :
      Effect net licence ⟨s, hand⟩ ⟨s', hand⟩
  | endBuffer (s : State) (n : NodeId) (hand : List Held) (lost : licence.lossy) :
      Effect net licence ⟨s, hand⟩ ⟨s.endBufferProcessor n, hand⟩
  -- the queue task of a link
  | discard {s t : State} {l : LinkId} {k : OutgoingPacket} (hand : List Held)
      (takes : s.Takes t l k) (handled : s.handled k.handled = true) :
      Effect net licence ⟨s, hand⟩ ⟨t, hand⟩
  | clear {s t : State} {l : LinkId} {k : OutgoingPacket} (hand : List Held)
      (takes : s.Takes t l k) (unhandled : s.handled k.handled = false)
      (cleared : s.clearedFromBuffer k = true) (licensed : licence.clearing) :
      Effect net licence ⟨s, hand⟩ ⟨t.dropCleared l k, hand⟩
  | send {s t : State} {l : LinkId} {k : OutgoingPacket} (data : InTransitData)
      (pacer : PacketPacer) (hand : List Held) (member : l ∈ net.linkIds)
      (takes : s.Takes t l k) (unhandled : s.handled k.handled = false)
      (kept : s.clearedFromBuffer k = false) (up : (s.links l).isDown = false)
      (marked : k.anomalies.mark k.data = some data) :
      Effect net licence ⟨s, hand⟩
        ⟨((t.markHandled k).carry l k data pacer).noteAct k.handled l .sent, hand⟩
  | taskPanics {s t : State} (l : LinkId) (hand : List Held) (works : State.Works s t l)
      (alive : (s.links l).task ≠ .panicked) (lost : licence.lossy) : Effect net licence ⟨s, hand⟩ ⟨t.endQueueTask l, hand⟩
  | sendPanics {s t : State} {l : LinkId} {k : OutgoingPacket} (hand : List Held)
      (takes : s.Takes t l k) (unhandled : s.handled k.handled = false) (lost : licence.lossy) :
      Effect net licence ⟨s, hand⟩ ⟨(t.markHandled k).endQueueTask l, hand⟩
  -- the forwarder of a link
  | collect (s : State) (l : LinkId) (delivered : List DeliveredTransmit)
      (inTransit : InboundQueue) (forwarder : Forwarder) (member : l ∈ net.linkIds)
      (moved : ((s.links l).inTransit.queue.map (·.delivered)).Perm
        (delivered ++ inTransit.queue.map (·.delivered))) :
      Effect net licence ⟨s, []⟩ ⟨s.modifyLink l ({ · with inTransit, forwarder }),
        delivered.map fun t => ⟨t.data, .flying l t.sent⟩⟩
  | lose (s : State) (l : LinkId) (data : InTransitData) (sent : Nat) (hand : List Held)
      (down : (s.links l).wasDownAfter sent = true) :
      Effect net licence ⟨s, ⟨data, .flying l sent⟩ :: hand⟩
        ⟨(s.takeUp data (.flying l sent)).trackLostInTransit l data, hand⟩
  | strand (s : State) (l : LinkId) (data : InTransitData) (sent : Nat) (hand : List Held)
      (up : (s.links l).wasDownAfter sent = false)
      (nowhere : net.nodesByAddr (net.links l).target = none) (lost : licence.lossy) :
      Effect net licence ⟨s, ⟨data, .flying l sent⟩ :: hand⟩
        ⟨(s.takeUp data (.flying l sent)).note (.stranded l data.id), hand⟩
  -- the readers of a node
  | socket (s : State) (n : NodeId) (port : Port) (delivery : NextPacketDelivery)
      (hand : List Held) (size : delivery.maxTransmits =
        ((s.sockets n port).getD (.new (licence.slots n port))).maxTransmits) :
      Effect net licence ⟨s, hand⟩ ⟨{ s with
        sockets := Function.update s.sockets n
          (Function.update (s.sockets n) port (some delivery)) }, hand⟩
  | fetch (s : State) (n : NodeId) (port : Port) (delivered : List DeliveredTransmit)
      (queue : InboundQueue) (member : n ∈ net.nodeIds)
      (moved : (((s.nodes n).udpEndpoints port).queue.map (·.delivered)).Perm
        (delivered ++ queue.queue.map (·.delivered))) :
      Effect net licence ⟨s, []⟩
        ⟨s.setEndpoint n port queue, delivered.map fun t => ⟨t.data, .inside n⟩⟩
  | read (s : State) (n : NodeId) (data : InTransitData) (hand : List Held) :
      Effect net licence ⟨s, ⟨data, .inside n⟩ :: hand⟩ ⟨s.trackReadByApplication n data, hand⟩
  | check (s : State) (n : NodeId) (data : InTransitData) (hand : List Held) :
      Effect net licence ⟨s, ⟨data, .inside n⟩ :: hand⟩ ⟨s.note (.checked n data.id), hand⟩

/-- Chains of effects. -/
abbrev Effects (net : InMemoryNetwork) (licence : Licence) : Moment → Moment → Prop :=
  Relation.ReflTransGen (Effect net licence)

/-- What every effect keeps, every step keeps. -/
theorem Effects.invariant {net : InMemoryNetwork} {licence : Licence} {m m' : Moment}
    (effects : Effects net licence m m') (Holds : Moment → Prop)
    (initial : Holds m)
    (kept : ∀ m m', Holds m → Effect net licence m m' → Holds m') : Holds m' := by
  induction effects with
  | refl => exact initial
  | tail _ effect ih => exact kept _ _ ih effect

end Workbench.Network
