import Workbench.Network.Forwarding

/-! The tasks of a simulated network, and one step of any of them.

Each task runs from one await point to the next. Which task runs when, the random
rolls, the ties of the heaps and the passing of time are the choices of an action,
so the runs of these steps are all interleavings of the tasks. -/

set_option autoImplicit false

namespace Workbench.Network

open Workbench.Tracing

namespace State

/-! Network events. -/

def processNodeEvent (net : InMemoryNetwork) (s : State) (event : NodeEventPayload) : State :=
  let n := event.nodeId
  if n ∉ net.nodeIds then s
  else
    let s := event.status.elim s fun status => s.modifyNode n (·.updateStatus status)
    let s := if event.clearBuffer then s.modifyNode n (·.clearBuffer s.now) else s
    s.trackNodeEvent event

/-- The delay of a link only changes while the link is down. -/
def changeLinkDelay (s : State) (l : LinkId) (delay : Nat) : State :=
  if (s.links l).delay ≠ delay ∧ (s.links l).isDown then s.modifyLink l (·.updateDelay delay)
  else s

def updateLinkStatus (s : State) (l : LinkId) (status : UpdateLinkStatus) : State :=
  let down := (s.links l).status.goesDown status
  let s := s.modifyLink l (·.updateStatus s.now status)
  if down then s.note (.wentDown l s.now) else s

/-- A link event. Only its delay and its status take effect. -/
def processLinkEvent (net : InMemoryNetwork) (s : State) (event : LinkEventPayload) : State :=
  let l := event.linkId
  if l ∉ net.linkIds then s
  else
    let s := event.delay.elim s (s.changeLinkDelay l)
    let s := event.status.elim s (s.updateLinkStatus l)
    s.trackLinkEvent event

/-! The buffer processor of a node. -/

def generatePacketAnomalies (net : InMemoryNetwork) (l : LinkId) (rolls : Nat × Nat) :
    PacketAnomalies :=
  { congestionExperienced := rolls.2 < (net.links l).congestionEventRatio
    extraDelay := if rolls.1 < (net.links l).extraDelayRatio then (net.links l).extraDelay else 0 }

/-- Pushes a copy of a packet on the queue of each of its links. -/
def pushCopies (net : InMemoryNetwork) (n : NodeId) (packet : BufferedPacket) (flag : Nat)
    (preferredLinks : List LinkId) : List LinkId → List (Nat × Nat) → State → State × Exit
  | [], _, s => (s, .returned)
  | l :: links, rolls, s =>
    let anomalies := generatePacketAnomalies net l (rolls.headD (0, 0))
    match (s.links l).outgoingQueue.unboundedSend
      ⟨packet.inNodeSince, n, packet.data, anomalies, preferredLinks, flag⟩ with
    | none => (s, .panicked)
    | some outgoingQueue =>
      pushCopies net n packet flag preferredLinks links rolls.tail
        (s.modifyLink l ({ · with outgoingQueue }))

def endBufferProcessor (s : State) (n : NodeId) : State :=
  s.modifyNode n fun node => { node with outbound := node.outbound.dropReceiver }

def takeBuffered (s : State) (n : NodeId) (rest : List BufferedPacket) : State :=
  s.modifyNode n fun node => { node with outbound := { node.outbound with messages := rest } }

def openDispatch (s : State) (n : NodeId) (packet : BufferedPacket) (links : List LinkId) : State :=
  { s with dispatches := s.dispatches ++ [⟨n, packet, links, false, []⟩] }

def dispatch (net : InMemoryNetwork) (s : State) (n : NodeId) (packet : BufferedPacket)
    (links : List LinkId) (rolls : List (Nat × Nat)) : State :=
  match pushCopies net n packet s.dispatches.length links links rolls
    (s.openDispatch n packet links) with
  | (s, .returned) => s
  | (s, .panicked) => { s.endBufferProcessor n with panicked := true }

/-- One round of `process_buffer_for_node`, which ends where the packet has no
route, or a route without its link. -/
def processBuffer (net : InMemoryNetwork) (s : State) (n : NodeId) (rolls : List (Nat × Nat)) :
    Option State :=
  match (s.nodes n).outbound.messages with
  | [] => none
  | packet :: rest =>
    let dest := packet.data.transmit.destination.ip
    let s := s.takeBuffered n rest
    match net.hasRouteTo n dest, net.candidateLinks n dest with
    | .ok true, .ok links => some (s.dispatch net n packet links rolls)
    | _, _ => some (s.endBufferProcessor n)

/-! The queue task of a link. -/

/-- How far the queue task of a link runs: it stays where it waits, runs on to
another await point, gets ready to send a packet, or panics. -/
inductive Resumed where
  | blocked
  | waits (s : State)
  | ready (s : State) (packet : OutgoingPacket)
  | panics (s : State)

def setTask (s : State) (l : LinkId) (task : QueueTask) : State :=
  s.modifyLink l ({ · with task })

/-- Gives the links preferred to this one a chance to send first. -/
def yieldToPreferred (s : State) (l : LinkId) (packet : OutgoingPacket) : Resumed :=
  match packet.preferredLinks with
  | [] => .ready (s.setTask l .idle) packet
  | preferred :: preferredLinks =>
    let packet := { packet with preferredLinks }
    if l ≠ preferred ∧ !s.handled packet.handled then .waits (s.setTask l (.yielding packet))
    else .ready (s.setTask l .idle) packet

/-- Leaves `sleep_until_ready_to_send`, which gives its permit back. -/
def leaveSleep (s : State) (l : LinkId) (packet : OutgoingPacket) : Resumed :=
  (s.modifyLink l ({ · with permit := true })).yieldToPreferred l packet

def recheckLink (s : State) (l : LinkId) (packet : OutgoingPacket) : Resumed :=
  match (s.links l).status.notifierForUp with
  | none => s.leaveSleep l packet
  | some notifier => .waits (s.setTask l (.waitingForLink packet notifier))

def waitForNode (s : State) (l : LinkId) (packet : OutgoingPacket) : Resumed :=
  match (s.nodes packet.srcNode).status.notifierForUp with
  | none => s.recheckLink l packet
  | some notifier => .waits (s.setTask l (.waitingForNode packet notifier))

def waitForLink (s : State) (l : LinkId) (packet : OutgoingPacket) : Resumed :=
  match (s.links l).status.notifierForUp with
  | none => s.waitForNode l packet
  | some notifier => .waits (s.setTask l (.waitingForLink packet notifier))

/-- Takes the permit and sleeps until the pacer has room. -/
def startSleep (net : InMemoryNetwork) (s : State) (l : LinkId) (packet : OutgoingPacket) :
    Resumed :=
  if (net.links l).bandwidthBps = 0 then .panics s
  else
    let (duration, pacer) := (s.links l).pacer.durationUntilCanSend s.now packet.data.size
    .waits (s.modifyLink l ({ · with
      permit := false, pacer, task := .sleeping packet (s.now + duration) }))

def sleepUntilReadyToSend (net : InMemoryNetwork) (s : State) (l : LinkId)
    (packet : OutgoingPacket) : Resumed :=
  match LinkState.hasBandwidthAvailable (net.links l) (s.links l) s.now packet.data.size with
  | some (false, link) =>
    let s := s.modifyLink l fun _ => link
    if link.permit then s.startSleep net l packet
    else .waits (s.setTask l (.acquiring packet))
  | _ => .panics s

/-- Takes the next packet of the queue. -/
def takeOutgoing (net : InMemoryNetwork) (s : State) (l : LinkId) : Resumed :=
  match (s.links l).outgoingQueue.messages with
  | [] => .blocked
  | packet :: rest =>
    let s := s.modifyLink l fun link =>
      { link with outgoingQueue := { link.outgoingQueue with messages := rest } }
    match LinkState.hasBandwidthAvailable (net.links l) (s.links l) s.now packet.data.size with
    | none => .panics s
    | some (true, link) => (s.modifyLink l fun _ => link).yieldToPreferred l packet
    | some (false, link) => (s.modifyLink l fun _ => link).sleepUntilReadyToSend net l packet

def resume (net : InMemoryNetwork) (s : State) (l : LinkId) : Resumed :=
  match (s.links l).task with
  | .panicked => .blocked
  | .idle => s.takeOutgoing net l
  | .acquiring packet => if (s.links l).permit then s.startSleep net l packet else .blocked
  | .sleeping packet deadline =>
    if s.handled packet.handled then s.leaveSleep l packet
    else if deadline ≤ s.now then s.waitForLink l packet
    else .blocked
  | .waitingForLink packet notifier =>
    if s.handled packet.handled then s.leaveSleep l packet
    else if (s.links l).status.completed notifier then s.waitForNode l packet
    else .blocked
  | .waitingForNode packet notifier =>
    if s.handled packet.handled then s.leaveSleep l packet
    else if (s.nodes packet.srcNode).status.completed notifier then s.recheckLink l packet
    else .blocked
  | .yielding packet => s.yieldToPreferred l packet

/-- Sends a packet over a link; nothing where one of the assertions panics. -/
def send (net : InMemoryNetwork) (s : State) (l : LinkId) (srcNode : NodeId)
    (data : InTransitData) (anomalies : PacketAnomalies) : Option State := do
  let link := s.links l
  let size := data.size
  if (net.links l).bandwidthBps = 0 then none
  let (room, pacer) := link.pacer.canSend s.now size
  if !room || link.isDown then none
  let data ← anomalies.mark data
  let s := s.trackPacketInTransit srcNode l data
  let pacer ← pacer.trackSend s.now size
  let s := s.modifyNode srcNode fun node =>
    { node with outboundBuffer := node.outboundBuffer.release size }
  some (s.modifyLink l fun link => { link with
    pacer, inTransit := (link.inTransit.send s.now data (link.delay + anomalies.extraDelay)).1 })

def endQueueTask (s : State) (l : LinkId) : State :=
  { s.modifyLink l fun link => { link with
      task := .panicked, outgoingQueue := link.outgoingQueue.dropReceiver } with
    panicked := true }

def noteAct (s : State) (flag : Nat) (l : LinkId) (act : Act) : State :=
  s.modifyDispatch flag fun d => { d with acts := d.acts ++ [(l, act)] }

/-- Whether a buffer clear at its node came after a packet got there. -/
def clearedFromBuffer (s : State) (packet : OutgoingPacket) : Bool :=
  (s.nodes packet.srcNode).lastBufferClear.any (packet.inNodeSince < ·)

/-- Handles a packet, unless another link has handled it. -/
def handle (net : InMemoryNetwork) (s : State) (l : LinkId) (packet : OutgoingPacket) : State :=
  if s.handled packet.handled then s
  else
    let s := s.modifyDispatch packet.handled ({ · with handled := true })
    if s.clearedFromBuffer packet then
      (s.noteAct packet.handled l .cleared).trackDroppedByBufferClearEvent
        packet.srcNode packet.data
    else
      match s.send net l packet.srcNode packet.data packet.anomalies with
      | some s => s.noteAct packet.handled l .sent
      | none => s.endQueueTask l

/-- Polls the task of `process_link_queue`, up to its next await point. -/
def pollLink (net : InMemoryNetwork) (s : State) (l : LinkId) : Option State :=
  match s.resume net l with
  | .blocked => none
  | .waits s => some s
  | .ready s packet => some (s.handle net l packet)
  | .panics s => some (s.endQueueTask l)

/-! The forwarder of a link. -/

/-- Takes up a packet that arrived: forwards it at the target node, unless the
link went down after the packet was sent. -/
def arrive (net : InMemoryNetwork) (s : State) (l : LinkId) (transmit : DeliveredTransmit)
    (roll : Nat) : State × Exit :=
  let s := s.note (.arrived l transmit.data.id)
  if (s.links l).wasDownAfter transmit.sent then (s.trackLostInTransit l transmit.data, .returned)
  else match net.nodesByAddr (net.links l).target with
    | none => (s.note (.stranded l transmit.data.id), .panicked)
    | some node => s.forward net node transmit.data roll

def setForwarder (s : State) (l : LinkId) (forwarder : Forwarder) : State :=
  s.modifyLink l ({ · with forwarder })

/-- Takes up the packets just delivered, one by one, and awaits the next ones. -/
def arriveAll (net : InMemoryNetwork) (l : LinkId) :
    List DeliveredTransmit → List Nat → State → State
  | [], _, s => s.setForwarder l .new
  | transmit :: delivered, rolls, s =>
    match s.arrive net l transmit (rolls.headD 0) with
    | (s, .returned) => arriveAll net l delivered rolls.tail s
    | (s, .panicked) => { s.setForwarder l ⟨false, .new usizeMax⟩ with panicked := true }

/-- Polls the task of `forward_packets_from_link_to_node`. -/
def pollForwarder (net : InMemoryNetwork) (s : State) (l : LinkId) (ties rolls : List Nat) :
    Option State :=
  let forwarder := (s.links l).forwarder
  if !forwarder.alive then none
  else match forwarder.delivery.poll (s.links l).inTransit s.now ties 0 with
    | (.pending, delivery, inTransit) =>
      some (s.modifyLink l ({ · with inTransit, forwarder := ⟨true, delivery⟩ }))
    | (.ready delivered, delivery, inTransit) =>
      some (arriveAll net l delivered rolls
        (s.modifyLink l ({ · with inTransit, forwarder := ⟨true, delivery⟩ })))

/-! Readers of a node's endpoints. -/

def setEndpoint (s : State) (n : NodeId) (port : Port) (queue : InboundQueue) : State :=
  s.modifyNode n fun node =>
    { node with udpEndpoints := Function.update node.udpEndpoints port queue }

/-- Hands the packets of a read over to the buffers of the application, which
panics at one that does not fit its buffer. -/
def readAll (n : NodeId) (bufferSize : Nat) : List DeliveredTransmit → State → State
  | [], s => s
  | transmit :: delivered, s =>
    let s := s.trackReadByApplication n transmit.data
    if bufferSize < transmit.data.transmit.contents.length then { s with panicked := true }
    else readAll n bufferSize delivered s

/-- Polls the socket of a node and port for at most as many packets as there are
slots. The delivery is created by the first call, with the slots of that call. -/
def pollRecv (s : State) (n : NodeId) (port : Port) (slots bufferSize : Nat) (ties : List Nat) :
    State :=
  let delivery := (s.sockets n port).getD (.new slots)
  let polled := delivery.poll ((s.nodes n).udpEndpoints port) s.now ties 0
  let s := (s.setEndpoint n port polled.2.2)
  let s := { s with
    sockets := Function.update s.sockets n
      (Function.update (s.sockets n) port (some polled.2.1)) }
  match polled.1 with
  | .pending => s
  | .ready delivered => readAll n bufferSize (delivered.take slots) s

/-- A connectivity check receives one packet at a node, if one is due. -/
def checkReceive (s : State) (n : NodeId) (port : Port) (ties : List Nat) : State :=
  let polled := (NextPacketDelivery.new 1).poll ((s.nodes n).udpEndpoints port) s.now ties 0
  let s := s.setEndpoint n port polled.2.2
  match polled.1 with
  | .pending => s
  | .ready delivered => delivered.foldl (fun s t => s.note (.checked n t.data.id)) s

end State

/-- A step of one of the tasks, or of the clock, with the choices it depends on. -/
inductive Action where
  | advance (duration : Nat)
  | linkEvent (event : LinkEventPayload)
  | nodeEvent (event : NodeEventPayload)
  | sendUdp (node : NodeId) (transmit : OwnedTransmit) (roll : Nat)
  | processBuffer (node : NodeId) (rolls : List (Nat × Nat))
  | pollLink (link : LinkId)
  | pollForwarder (link : LinkId) (ties rolls : List Nat)
  | pollRecv (node : NodeId) (port : Port) (slots bufferSize : Nat) (ties : List Nat)
  | checkReceive (node : NodeId) (port : Port) (ties : List Nat)
  deriving DecidableEq, Repr

def State.step (net : InMemoryNetwork) (s : State) : Action → Option State
  | .advance duration => some { s with now := s.now + duration }
  | .linkEvent event => some (s.processLinkEvent net event)
  | .nodeEvent event => some (s.processNodeEvent net event)
  | .sendUdp node transmit roll =>
    if node ∉ net.nodeIds then none
    else match s.sendUdp net node transmit roll with
      | (s, .returned) => some s
      | (s, .panicked) => some { s with panicked := true }
  | .processBuffer node rolls =>
    if node ∉ net.nodeIds then none else s.processBuffer net node rolls
  | .pollLink link => if link ∉ net.linkIds then none else s.pollLink net link
  | .pollForwarder link ties rolls =>
    if link ∉ net.linkIds then none else s.pollForwarder net link ties rolls
  | .pollRecv node port slots bufferSize ties =>
    if node ∉ net.nodeIds then none else some (s.pollRecv node port slots bufferSize ties)
  | .checkReceive node port ties =>
    if node ∉ net.nodeIds then none else some (s.checkReceive node port ties)

/-- Two hosts: the first one has a cheap and an expensive route to the second one,
and the link of the expensive route may be missing. -/
def twoHosts (expensive : Option LinkId) : InMemoryNetwork where
  nodeIds := [0, 1]
  linkIds := [0, 1]
  nodesByAddr ip := if ip ∈ [.v4 1, .v4 3] then some 0 else if ip ∈ [.v4 2, .v4 4] then some 1 else none
  linksByAddr source target :=
    if source = .v4 1 ∧ target = .v4 2 then some 0
    else if source = .v4 3 ∧ target = .v4 4 then expensive
    else none
  nodes n :=
    if n = 0 then
      ⟨.v4 1, [.v4 1, .v4 3], [(.v4 1, ⟨⟨.v4 2, .v4 2⟩, .v4 2, 1⟩), (.v4 3, ⟨⟨.v4 2, .v4 2⟩, .v4 4, 2⟩)],
        ⟨0, 0⟩, 100⟩
    else ⟨.v4 2, [.v4 2, .v4 4], [], ⟨0, 0⟩, 100⟩
  links l := ⟨if l = 0 then .v4 2 else .v4 4, 10, 1000, 0, 0, 0⟩
  uuids i := i
  packetDelay _ size := size

/-- A packet without contents from the first host to the second one. -/
def greeting : OwnedTransmit :=
  ⟨⟨.v4 1, 4432⟩, ⟨.v4 2, 4433⟩, none, [], none, defaultTtl⟩

end Workbench.Network
