import Workbench.Network.Recording
import Workbench.Network.TimeToLive

/-! The connectivity check between two nodes.

A call sends a hundred packets both ways, and then receives one packet at each node. The
endpoints that it receives from outlive the call, and so does what it leaves in them. -/

set_option autoImplicit false

namespace Workbench.Network

open Workbench.Library Workbench.Tracing

/-- When a packet was first in a node. -/
def getPacketArrivedAt (steps : List SimulationStep) (packetId : Uuid) (nodeId : NodeId) : Option Nat :=
  steps.findSome? fun s => match s.kind with
    | .packetInNode kind =>
      if kind.packetId = packetId ∧ kind.nodeId = nodeId then some s.relativeTime else none
    | _ => none

/-- Where a call of `assert_connectivity_between_nodes` awaits, or how it has ended: with the
times of arrival, or with the directions that failed. -/
inductive CheckPhase where
  | sleeping (attempts : Nat) (deadline : Nat)
  | receivingAtB (deadline : Nat) (delivery : NextPacketDelivery)
  | receivingAtA (aToB : Option (List DeliveredTransmit)) (deadline : Nat)
    (delivery : NextPacketDelivery)
  | returned (result : Except (Bool × Bool) (Nat × Nat))
  | panicked

structure CheckCall where
  a : NodeId
  b : NodeId
  phase : CheckPhase

namespace CheckCall

def port : Port := 8080
def attempts : Nat := 100
/-- One minute. -/
def pause : Nat := 60 * 10 ^ 9
/-- Ninety days. -/
def timeout : Nat := 3600 * 24 * 90 * 10 ^ 9

end CheckCall

def InMemoryNetwork.socketAddr (net : InMemoryNetwork) (n : NodeId) (port : Port) : SocketAddr :=
  ⟨(net.nodes n).canonicalAddress, port⟩

/-- The packet that a call sends from one node to another. -/
def InMemoryNetwork.probe (net : InMemoryNetwork) (source target : NodeId) : OwnedTransmit :=
  ⟨net.socketAddr source CheckCall.port, net.socketAddr target CheckCall.port, none, [42], none,
    defaultTtl⟩

/-- What a receive with a timeout comes to when it is polled. -/
inductive Receipt where
  | pending (delivery : NextPacketDelivery)
  | elapsed
  | received (delivered : List DeliveredTransmit)

namespace State

/-- Sends a packet from each of two nodes to the other one. -/
def sendProbes (net : InMemoryNetwork) (s : State) (a b : NodeId) (rolls : Nat × Nat) : State × Exit :=
  match s.sendUdp net a (net.probe a b) rolls.1 with
  | (s, .panicked) => (s, .panicked)
  | (s, .returned) => s.sendUdp net b (net.probe b a) rolls.2

/-- Polls a receive, and then its timeout. -/
def receive (s : State) (n : NodeId) (deadline : Nat) (delivery : NextPacketDelivery)
    (ties : List Nat) : State × Receipt :=
  match delivery.poll ((s.nodes n).udpEndpoints CheckCall.port) s.now ties 0 with
  | (.ready delivered, _, queue) =>
    (delivered.foldl (fun s t => s.note (.checked n t.data.id)) (s.setEndpoint n CheckCall.port queue),
      .received delivered)
  | (.pending, delivery, queue) =>
    (s.setEndpoint n CheckCall.port queue, if deadline ≤ s.now then .elapsed else .pending delivery)

/-- What a call returns with the packets that it has received, if it has. -/
def assertConnectivity (s : State) (a b : NodeId) (aToB bToA : Option (List DeliveredTransmit)) :
    CheckPhase :=
  match aToB, bToA with
  | some aToB, some bToA =>
    match aToB.head?.bind fun t => getPacketArrivedAt s.trace t.data.id b,
      bToA.head?.bind fun t => getPacketArrivedAt s.trace t.data.id a with
    | some arrivedAtB, some arrivedAtA => .returned (.ok (arrivedAtB, arrivedAtA))
    | _, _ => .panicked
  | aToB, bToA => .returned (.error (aToB.isNone, bToA.isNone))

def receiveAtA (s : State) (a b : NodeId) (aToB : Option (List DeliveredTransmit)) (deadline : Nat)
    (delivery : NextPacketDelivery) (ties : List Nat) : State × CheckPhase :=
  match s.receive a deadline delivery ties with
  | (s, .pending delivery) => (s, .receivingAtA aToB deadline delivery)
  | (s, .elapsed) => (s, s.assertConnectivity a b aToB none)
  | (s, .received bToA) => (s, s.assertConnectivity a b aToB (some bToA))

/-- Receives at the second node, and then at the first one. -/
def receiveAtB (s : State) (a b : NodeId) (deadline : Nat) (delivery : NextPacketDelivery)
    (ties : List Nat × List Nat) : State × CheckPhase :=
  match s.receive b deadline delivery ties.1 with
  | (s, .pending delivery) => (s, .receivingAtB deadline delivery)
  | (s, .elapsed) => s.receiveAtA a b none (s.now + CheckCall.timeout) (.new 1) ties.2
  | (s, .received aToB) =>
    s.receiveAtA a b (some aToB) (s.now + CheckCall.timeout) (.new 1) ties.2

/-- Polls a call of `assert_connectivity_between_nodes`, up to its next await point. -/
def pollCheck (net : InMemoryNetwork) (s : State) (call : CheckCall) (rolls : Nat × Nat)
    (ties : List Nat × List Nat) : Option (State × CheckPhase) :=
  match call.phase with
  | .sleeping attempts deadline =>
    if s.now < deadline then none
    else if attempts < CheckCall.attempts then
      match s.sendProbes net call.a call.b rolls with
      | (s, .returned) => some (s, .sleeping (attempts + 1) (s.now + CheckCall.pause))
      | (s, .panicked) => some ({ s with panicked := true }, .panicked)
    else some (s.receiveAtB call.a call.b (s.now + CheckCall.timeout) (.new 1) ties)
  | .receivingAtB deadline delivery => some (s.receiveAtB call.a call.b deadline delivery ties)
  | .receivingAtA aToB deadline delivery =>
    some (s.receiveAtA call.a call.b aToB deadline delivery ties.1)
  | .returned _ | .panicked => none

end State

/-- A network that is only checked, by one call after another. -/
structure Checking where
  network : State
  call : Option CheckCall

inductive CheckAction where
  | background (action : Action)
  | call (a b : NodeId)
  | poll (rolls : Nat × Nat) (ties : List Nat × List Nat)

/-- The actions of the tasks of a network and of the clock. -/
def Action.isBackground : Action → Bool
  | .sendUdp .. | .pollRecv .. | .checkReceive .. => false
  | _ => true

namespace Checking

def initial (net : InMemoryNetwork) : Checking := ⟨.initial net, none⟩

/-- Whether the last call has returned. -/
def isIdle (s : Checking) : Bool :=
  match s.call with
  | none | some ⟨_, _, .returned _⟩ => true
  | _ => false

def step (net : InMemoryNetwork) (s : Checking) : CheckAction → Option Checking
  | .background action =>
    if action.isBackground then (s.network.step net action).map ({ s with network := · }) else none
  | .call a b =>
    if a ∈ net.nodeIds ∧ b ∈ net.nodeIds ∧ s.isIdle then
      some { s with call := some ⟨a, b, .sleeping 0 s.network.now⟩ }
    else none
  | .poll rolls ties => s.call.bind fun call =>
    (s.network.pollCheck net call rolls ties).map fun (network, phase) =>
      ⟨network, some { call with phase }⟩

/-- The packets that a move sends, each with the node that it is sent from. -/
def sends : Checking × CheckAction → List (NodeId × Nat)
  | (⟨s, some ⟨a, b, .sleeping attempts deadline⟩⟩, .poll _ _) =>
    if s.now < deadline ∨ CheckCall.attempts ≤ attempts then []
    else [(a, s.nextTransmitNumber), (b, s.nextTransmitNumber + 1)]
  | _ => []

/-- The nodes at which a move may receive. -/
def receives : Checking × CheckAction → List NodeId
  | (⟨s, some ⟨a, b, .sleeping attempts deadline⟩⟩, .poll _ _) =>
    if s.now < deadline ∨ attempts < CheckCall.attempts then [] else [b, a]
  | (⟨_, some ⟨a, b, .receivingAtB _ _⟩⟩, .poll _ _) => [b, a]
  | (⟨_, some ⟨a, _, .receivingAtA _ _ _⟩⟩, .poll _ _) => [a]
  | _ => []

/-- No packet with a lower number is queued where the move may receive. -/
def ReceivesFrom (start : Nat) (move : Checking × CheckAction) : Prop :=
  ∀ n ∈ receives move, ∀ p ∈ ((move.1.network.nodes n).udpEndpoints CheckCall.port).queue,
    start ≤ p.data.number

instance (start : Nat) (move : Checking × CheckAction) : Decidable (ReceivesFrom start move) :=
  inferInstanceAs (Decidable (∀ n ∈ receives move,
    ∀ p ∈ ((move.1.network.nodes n).udpEndpoints CheckCall.port).queue, start ≤ p.data.number))

/-- A packet that a node has sent in a run has got to another node. -/
def Reached (later : List (Checking × CheckAction)) (s : State) (source target : NodeId) : Prop :=
  ∃ move ∈ later, ∃ number, (source, number) ∈ sends move ∧ ∃ step ∈ s.trace, ∃ id size,
    step.kind = .packetInNode ⟨id, number, size, target, false⟩

end Checking

namespace State

variable {net : InMemoryNetwork} {transmits : List OwnedTransmit} {s s' : State} {n : NodeId}

/-- What holds in every state of a network, with the transmits injected so far. -/
structure Sane (net : InMemoryNetwork) (transmits : List OwnedTransmit) (s : State) : Prop where
  competing : s.Competing net
  located : Located net False ⟨s, []⟩
  bounded : ∃ numberOf, Moment.Bounded net transmits numberOf ⟨s, []⟩

theorem Sane.number (sane : s.Sane net transmits) : s.nextTransmitNumber = transmits.length :=
  let ⟨_, bounded⟩ := sane.bounded
  bounded.next

theorem Sane.effects (sane : s.Sane net transmits) (licence : Licence)
    (fresh : Function.Injective net.uuids) (effects : Effects net licence ⟨s, []⟩ ⟨s', []⟩) :
    s'.Competing net ∧ Located net False ⟨s', []⟩ :=
  effects.invariant (fun m => m.state.Competing net ∧ Located net False m)
    ⟨sane.competing, sane.located⟩ fun _ _ ⟨competing, located⟩ effect =>
      Moment.located_effect _ fresh competing located effect

theorem Sane.step {action : Action} (sane : s.Sane net transmits)
    (fresh : Function.Injective net.uuids) (taken : s.step net action = some s') :
    s'.Sane net (transmits ++ action.transmit?.toList) := by
  obtain ⟨competing, located, numberOf, bounded⟩ := sane
  obtain ⟨competing', located'⟩ := step_kept taken
    (fun m => m.state.Competing net ∧ Located net False m) ⟨competing, located⟩
    fun _ _ _ ⟨competing, located⟩ effect => Moment.located_effect _ fresh competing located effect
  exact ⟨competing', located', bounded.step fresh competing located taken⟩

theorem Sane.sendUdp (sane : s.Sane net transmits) (fresh : Function.Injective net.uuids)
    (member : n ∈ net.nodeIds) (transmit : OwnedTransmit) (roll : Nat) :
    (s.sendUdp net n transmit roll).1.Sane net (transmits ++ [transmit]) := by
  obtain ⟨competing', located'⟩ := sane.effects ⟨fun _ _ => 0, True, True⟩ fresh
    (sendUdp_effects s n transmit roll member fun _ => trivial)
  obtain ⟨competing, located, numberOf, bounded⟩ := sane
  exact ⟨competing', located', bounded.sendsUdp fresh competing located n transmit roll⟩

theorem Sane.panic (sane : s.Sane net transmits) (fresh : Function.Injective net.uuids) :
    { s with panicked := true }.Sane net transmits := by
  obtain ⟨competing', located'⟩ := sane.effects ⟨fun _ _ => 0, True, True⟩
    fresh (.single (.crash s [] trivial))
  obtain ⟨competing, located, numberOf, bounded⟩ := sane
  exact ⟨competing', located', numberOf, bounded.of_rests (.silent (.panic s) rfl rfl)
    (List.Subset.refl _)⟩

theorem receive_rests (s : State) (n : NodeId) (deadline : Nat) (delivery : NextPacketDelivery)
    (ties : List Nat) : Rests s (s.receive n deadline delivery ties).1 := by
  have subset := delivery.poll_subset ((s.nodes n).udpEndpoints CheckCall.port) s.now ties 0
  unfold receive
  generalize delivery.poll ((s.nodes n).udpEndpoints CheckCall.port) s.now ties 0 = polled at subset
  obtain ⟨result, delivery, queue⟩ := polled
  cases result with
  | pending => exact setEndpoint_rests s n CheckCall.port subset
  | ready delivered =>
      exact (setEndpoint_rests s n CheckCall.port subset).trans (checked_rests n delivered _)

theorem Sane.receive (sane : s.Sane net transmits) (fresh : Function.Injective net.uuids)
    (member : n ∈ net.nodeIds) (deadline : Nat) (delivery : NextPacketDelivery) (ties : List Nat) :
    (s.receive n deadline delivery ties).1.Sane net transmits := by
  have effects : Effects net ⟨fun _ _ => 0, True, True⟩ ⟨s, []⟩
      ⟨(s.receive n deadline delivery ties).1, []⟩ := by
    unfold State.receive
    generalize polled : delivery.poll ((s.nodes n).udpEndpoints CheckCall.port) s.now ties 0 = result
    obtain ⟨outcome, delivery, queue⟩ := result
    cases outcome with
    | pending => exact Effects.still (setEndpoint_quiet s n CheckCall.port
        (NextPacketDelivery.poll_pending polled))
    | ready delivered =>
        have moved := (NextPacketDelivery.poll_ready polled).1
        exact .head (.fetch s n CheckCall.port delivered queue member moved)
          (checkAll_effects n delivered _)
  obtain ⟨competing', located'⟩ := sane.effects _ fresh effects
  obtain ⟨competing, located, numberOf, bounded⟩ := sane
  exact ⟨competing', located', numberOf,
    bounded.of_rests (receive_rests s n deadline delivery ties) (List.Subset.refl _)⟩

theorem Sane.receiveAtA {a : NodeId} (sane : s.Sane net transmits)
    (fresh : Function.Injective net.uuids) (member : a ∈ net.nodeIds) (b : NodeId)
    (aToB : Option (List DeliveredTransmit)) (deadline : Nat) (delivery : NextPacketDelivery)
    (ties : List Nat) : (s.receiveAtA a b aToB deadline delivery ties).1.Sane net transmits := by
  have received := sane.receive fresh member deadline delivery ties
  unfold State.receiveAtA
  generalize s.receive a deadline delivery ties = result at received
  obtain ⟨s', receipt⟩ := result
  cases receipt <;> exact received

theorem Sane.receiveAtB {a b : NodeId} (sane : s.Sane net transmits)
    (fresh : Function.Injective net.uuids) (first : a ∈ net.nodeIds) (second : b ∈ net.nodeIds)
    (deadline : Nat) (delivery : NextPacketDelivery) (ties : List Nat × List Nat) :
    (s.receiveAtB a b deadline delivery ties).1.Sane net transmits := by
  have received := sane.receive fresh second deadline delivery ties.1
  unfold State.receiveAtB
  generalize s.receive b deadline delivery ties.1 = result at received
  obtain ⟨s', receipt⟩ := result
  cases receipt with
  | pending delivery => exact received
  | elapsed | received delivered => exact received.receiveAtA fresh first _ _ _ _ _

/-- An attempt sends both packets, unless it panics at the first one. -/
theorem Sane.sendProbes {a b : NodeId} (sane : s.Sane net transmits)
    (fresh : Function.Injective net.uuids) (first : a ∈ net.nodeIds) (second : b ∈ net.nodeIds)
    (rolls : Nat × Nat) : ∃ count, (s.sendProbes net a b rolls).1.Sane net
      (transmits ++ [net.probe a b, net.probe b a].take count) := by
  have sent := sane.sendUdp fresh first (net.probe a b) rolls.1
  unfold State.sendProbes
  generalize s.sendUdp net a (net.probe a b) rolls.1 = result at sent
  obtain ⟨s', exit⟩ := result
  cases exit with
  | panicked => exact ⟨1, sent⟩
  | returned =>
      have both := sent.sendUdp fresh second (net.probe b a) rolls.2
      rw [List.append_assoc] at both
      exact ⟨2, both⟩

theorem Sane.pollCheck {call : CheckCall} {phase : CheckPhase} {rolls : Nat × Nat}
    {ties : List Nat × List Nat} (sane : s.Sane net transmits)
    (fresh : Function.Injective net.uuids) (first : call.a ∈ net.nodeIds)
    (second : call.b ∈ net.nodeIds) (polled : s.pollCheck net call rolls ties = some (s', phase)) :
    ∃ more, s'.Sane net (transmits ++ more) := by
  have none : transmits ++ [] = transmits := List.append_nil _
  unfold State.pollCheck at polled
  split at polled
  · split at polled
    · cases polled
    split at polled
    · obtain ⟨count, sent⟩ := sane.sendProbes fresh first second rolls
      generalize s.sendProbes net call.a call.b rolls = result at polled sent
      obtain ⟨s₁, exit⟩ := result
      cases exit with
      | returned =>
          obtain ⟨rfl, rfl⟩ := Prod.mk.inj (Option.some.inj polled)
          exact ⟨_, sent⟩
      | panicked =>
          obtain ⟨rfl, rfl⟩ := Prod.mk.inj (Option.some.inj polled)
          exact ⟨_, sent.panic fresh⟩
    · have received := sane.receiveAtB fresh first second (s.now + CheckCall.timeout) (.new 1) ties
      exact ⟨[], by rwa [Option.some.inj polled, ← none] at received⟩
  · next deadline delivery _ =>
    have received := sane.receiveAtB fresh first second deadline delivery ties
    exact ⟨[], by rwa [Option.some.inj polled, ← none] at received⟩
  · next aToB deadline delivery _ =>
    have received := sane.receiveAtA fresh first call.b aToB deadline delivery ties.1
    exact ⟨[], by rwa [Option.some.inj polled, ← none] at received⟩
  · cases polled
  · cases polled

/-- What is received was queued in the endpoint. -/
theorem receive_received {deadline : Nat} {delivery : NextPacketDelivery} {ties : List Nat}
    {delivered : List DeliveredTransmit}
    (received : (s.receive n deadline delivery ties).2 = .received delivered) :
    ∃ p ∈ ((s.nodes n).udpEndpoints CheckCall.port).queue, ∃ t ∈ delivered, t.data = p.data := by
  unfold State.receive at received
  generalize polled : delivery.poll ((s.nodes n).udpEndpoints CheckCall.port) s.now ties 0 = result
    at received
  obtain ⟨outcome, delivery, queue⟩ := result
  cases outcome with
  | pending =>
      dsimp only at received
      split at received <;> cases received
  | ready delivered =>
      obtain rfl := Receipt.received.inj received
      obtain ⟨moved, some⟩ := NextPacketDelivery.poll_ready polled
      obtain ⟨t, member⟩ := List.exists_mem_of_ne_nil _ some
      have queued := moved.mem_iff.mpr (List.mem_append_left _ member)
      obtain ⟨p, inside, rfl⟩ := List.mem_map.mp queued
      exact ⟨p, inside, p.delivered, member, rfl⟩

end State

namespace Checking

variable {net : InMemoryNetwork} {start : Nat} {a b : NodeId} {s s' : State}
  {later : List (Checking × CheckAction)} {transmits : List OwnedTransmit}

/-- The transmit with a number is one that a call has sent. -/
def Sent (net : InMemoryNetwork) (a b : NodeId) (later : List (Checking × CheckAction))
    (number : Nat) (transmit : OwnedTransmit) : Prop :=
  (transmit = net.probe a b ∧ ∃ move ∈ later, (a, number) ∈ sends move) ∨
    transmit = net.probe b a ∧ ∃ move ∈ later, (b, number) ∈ sends move

/-- All transmits from some number on are sent by a call. -/
def SendsOnly (net : InMemoryNetwork) (start : Nat) (a b : NodeId)
    (later : List (Checking × CheckAction)) (s : State) : Prop :=
  ∃ transmits, s.Sane net transmits ∧
    ∀ number transmit, start ≤ number → transmits[number]? = some transmit →
      Sent net a b later number transmit

/-- Two nodes of a network that tells its nodes apart. -/
structure Peers (net : InMemoryNetwork) (a b : NodeId) : Prop where
  distinct : ∀ m ∈ net.nodeIds, ∀ n ∈ net.nodeIds,
    (net.nodes m).canonicalAddress = (net.nodes n).canonicalAddress → m = n
  first : a ∈ net.nodeIds
  second : b ∈ net.nodeIds

/-- What is known of a call with what it has received. -/
def Witnessed (later : List (Checking × CheckAction)) (s : State) (a b : NodeId) :
    CheckPhase → Prop
  | .receivingAtA (some _) _ _ => Reached later s a b
  | .returned (.ok _) => Reached later s a b ∧ Reached later s b a
  | _ => True

theorem Reached.mono {later' : List (Checking × CheckAction)} {told : List SimulationStep}
    (reached : Reached later s a b) (grown : s'.trace = s.trace ++ told) (more : later ⊆ later') :
    Reached later' s' a b := by
  obtain ⟨move, member, number, sent, step, inside, rest⟩ := reached
  exact ⟨move, more member, number, sent, step, grown ▸ List.mem_append_left _ inside, rest⟩

theorem Witnessed.mono {later' : List (Checking × CheckAction)} {told : List SimulationStep}
    {phase : CheckPhase} (witnessed : Witnessed later s a b phase)
    (grown : s'.trace = s.trace ++ told) (more : later ⊆ later') :
    Witnessed later' s' a b phase := by
  cases phase with
  | receivingAtA aToB deadline delivery =>
      cases aToB with
      | none => trivial
      | some delivered => exact Reached.mono witnessed grown more
  | returned result =>
      cases result with
      | error failed => trivial
      | ok arrived => exact ⟨witnessed.1.mono grown more, witnessed.2.mono grown more⟩
  | sleeping | receivingAtB | panicked => trivial

theorem Sent.mono {later' : List (Checking × CheckAction)} {number : Nat}
    {transmit : OwnedTransmit} (sent : Sent net a b later number transmit) (more : later ⊆ later') :
    Sent net a b later' number transmit := by
  rcases sent with ⟨same, move, member, sends⟩ | ⟨same, move, member, sends⟩
  · exact .inl ⟨same, move, more member, sends⟩
  · exact .inr ⟨same, move, more member, sends⟩

/-- A packet that is queued in an endpoint, and that the call has sent, has come from the other
node. -/
theorem SendsOnly.reached (only : SendsOnly net start a b later s) (peers : Peers net a b)
    {n : NodeId} (known : n ∈ net.nodeIds) {p : PrioritizedInTransitData}
    (queued : p ∈ ((s.nodes n).udpEndpoints CheckCall.port).queue) (own : start ≤ p.data.number) :
    (n = b → Reached later s a b) ∧ (n = a → Reached later s b a) := by
  obtain ⟨transmits, ⟨-, -, numberOf, bounded⟩, sent⟩ := only
  obtain ⟨transmit, found, destination, step, member, kind⟩ := bounded.queued n _ p queued
  have reached {source : NodeId} {move : Checking × CheckAction} (inside : move ∈ later)
      (sends : (source, p.data.number) ∈ sends move) : Reached later s source n :=
    ⟨move, inside, _, sends, step, member, _, _, kind⟩
  rcases sent _ transmit own found with ⟨rfl, move, inside, sends⟩ | ⟨rfl, move, inside, sends⟩
  · obtain rfl : b = n := peers.distinct b peers.second n known (congrArg SocketAddr.ip destination)
    exact ⟨fun _ => reached inside sends, fun same => same ▸ reached inside (same ▸ sends)⟩
  · obtain rfl : a = n := peers.distinct a peers.first n known (congrArg SocketAddr.ip destination)
    exact ⟨fun same => same ▸ reached inside (same ▸ sends), fun _ => reached inside sends⟩

/-- What a call knows when it awaits again. -/
structure Awaits (net : InMemoryNetwork) (start : Nat) (a b : NodeId)
    (later : List (Checking × CheckAction)) (s : State) (result : State × CheckPhase) : Prop where
  only : SendsOnly net start a b later result.1
  grown : ∃ told, result.1.trace = s.trace ++ told
  witnessed : Witnessed later result.1 a b result.2

/-- The packets queued for the call at a node are its own. -/
def Own (start : Nat) (s : State) (n : NodeId) : Prop :=
  ∀ p ∈ ((s.nodes n).udpEndpoints CheckCall.port).queue, start ≤ p.data.number

theorem SendsOnly.receive (only : SendsOnly net start a b later s)
    (fresh : Function.Injective net.uuids) {n : NodeId} (known : n ∈ net.nodeIds) (deadline : Nat)
    (delivery : NextPacketDelivery) (ties : List Nat) :
    SendsOnly net start a b later (s.receive n deadline delivery ties).1 := by
  obtain ⟨transmits, sane, sent⟩ := only
  exact ⟨transmits, sane.receive fresh known deadline delivery ties, sent⟩

theorem witnessed_assertConnectivity {aToB bToA : Option (List DeliveredTransmit)}
    (first : aToB.isSome → Reached later s a b) (second : bToA.isSome → Reached later s b a) :
    Witnessed later s a b (s.assertConnectivity a b aToB bToA) := by
  unfold State.assertConnectivity
  split
  · split
    · exact ⟨first rfl, second rfl⟩
    · trivial
  · trivial

theorem awaits_receiveAtA (only : SendsOnly net start a b later s) (peers : Peers net a b)
    (fresh : Function.Injective net.uuids) (own : Own start s a)
    {aToB : Option (List DeliveredTransmit)} (first : aToB.isSome → Reached later s a b)
    (deadline : Nat) (delivery : NextPacketDelivery) (ties : List Nat) :
    Awaits net start a b later s (s.receiveAtA a b aToB deadline delivery ties) := by
  have only' := only.receive fresh peers.first deadline delivery ties
  obtain ⟨-, -, told, grown, -⟩ := State.receive_rests s a deadline delivery ties
  have received (delivered : List DeliveredTransmit)
      (same : (s.receive a deadline delivery ties).2 = .received delivered) : Reached later s b a := by
    obtain ⟨p, queued, -⟩ := State.receive_received same
    exact (only.reached peers peers.first queued (own p queued)).2 rfl
  unfold State.receiveAtA
  generalize s.receive a deadline delivery ties = result at only' grown received
  obtain ⟨s', receipt⟩ := result
  have before (isSome : aToB.isSome) : Reached later s' a b :=
    (first isSome).mono grown (List.Subset.refl _)
  cases receipt with
  | pending delivery =>
      refine ⟨only', ⟨told, grown⟩, ?_⟩
      cases aToB with
      | none => trivial
      | some delivered => exact before rfl
  | elapsed => exact ⟨only', ⟨told, grown⟩, witnessed_assertConnectivity before nofun⟩
  | received delivered =>
      exact ⟨only', ⟨told, grown⟩, witnessed_assertConnectivity before fun _ =>
        (received delivered rfl).mono grown (List.Subset.refl _)⟩

theorem awaits_receiveAtB (only : SendsOnly net start a b later s) (peers : Peers net a b)
    (fresh : Function.Injective net.uuids) (ownA : Own start s a) (ownB : Own start s b)
    (deadline : Nat) (delivery : NextPacketDelivery) (ties : List Nat × List Nat) :
    Awaits net start a b later s (s.receiveAtB a b deadline delivery ties) := by
  have only' := only.receive fresh peers.second deadline delivery ties.1
  obtain ⟨keeps, -, told, grown, -⟩ := State.receive_rests s b deadline delivery ties.1
  have received (delivered : List DeliveredTransmit)
      (same : (s.receive b deadline delivery ties.1).2 = .received delivered) :
      Reached later s a b := by
    obtain ⟨p, queued, -⟩ := State.receive_received same
    exact (only.reached peers peers.second queued (ownB p queued)).1 rfl
  unfold State.receiveAtB
  generalize s.receive b deadline delivery ties.1 = result at only' grown received keeps
  obtain ⟨s', receipt⟩ := result
  have own : Own start s' a := fun p member => ownA p (keeps.queued a CheckCall.port member)
  have next (aToB : Option (List DeliveredTransmit)) (first : aToB.isSome → Reached later s' a b) :
      Awaits net start a b later s
        (s'.receiveAtA a b aToB (s'.now + CheckCall.timeout) (.new 1) ties.2) := by
    obtain ⟨last, ⟨more, further⟩, witnessed⟩ := awaits_receiveAtA only' peers fresh own first
      (s'.now + CheckCall.timeout) (.new 1) ties.2
    exact ⟨last, ⟨told ++ more, by rw [further, grown, List.append_assoc]⟩, witnessed⟩
  cases receipt with
  | pending delivery => exact ⟨only', ⟨told, grown⟩, trivial⟩
  | elapsed => exact next none nofun
  | received delivered =>
      exact next (some delivered) fun _ => (received delivered rfl).mono grown (List.Subset.refl _)

theorem sendUdp_grown (net : InMemoryNetwork) (s : State) (n : NodeId) (transmit : OwnedTransmit)
    (roll : Nat) : ∃ told, (s.sendUdp net n transmit roll).1.trace = s.trace ++ told := by
  obtain ⟨-, -, -, ⟨call, told, grown, -⟩, -⟩ := State.forward_forwards net
    (s.inTransitData net n transmit).2 n (s.inTransitData net n transmit).1 roll
  exact ⟨call :: told, grown⟩

theorem sendProbes_grown (net : InMemoryNetwork) (s : State) (a b : NodeId) (rolls : Nat × Nat) :
    ∃ told, (s.sendProbes net a b rolls).1.trace = s.trace ++ told := by
  obtain ⟨told, grown⟩ := sendUdp_grown net s a (net.probe a b) rolls.1
  unfold State.sendProbes
  generalize s.sendUdp net a (net.probe a b) rolls.1 = result at grown
  obtain ⟨s', exit⟩ := result
  cases exit with
  | panicked => exact ⟨told, grown⟩
  | returned =>
      obtain ⟨told', grown'⟩ := sendUdp_grown net s' b (net.probe b a) rolls.2
      exact ⟨told ++ told', by rw [grown', grown, List.append_assoc]⟩

/-- The packets that an attempt sends are known by their numbers. -/
theorem SendsOnly.sendProbes (only : SendsOnly net start a b later s) (peers : Peers net a b)
    (fresh : Function.Injective net.uuids) {move : Checking × CheckAction}
    (sends : sends move = [(a, s.nextTransmitNumber), (b, s.nextTransmitNumber + 1)])
    (rolls : Nat × Nat) :
    SendsOnly net start a b (move :: later) (s.sendProbes net a b rolls).1 ∧
      ∃ told, (s.sendProbes net a b rolls).1.trace = s.trace ++ told := by
  obtain ⟨transmits, sane, sent⟩ := only
  have next := sane.number
  obtain ⟨count, sane'⟩ := sane.sendProbes fresh peers.first peers.second rolls
  refine ⟨⟨_, sane', fun number transmit from' found => ?_⟩, sendProbes_grown net s a b rolls⟩
  rw [List.getElem?_append] at found
  split at found
  · exact (sent number transmit from' found).mono (List.subset_cons_self _ _)
  next new =>
  obtain ⟨i, same⟩ := Nat.exists_eq_add_of_le (not_lt.mp new)
  rw [same, Nat.add_sub_cancel_left, List.getElem?_take] at found
  split at found
  · match i, found with
    | 0, found =>
        obtain rfl := Option.some.inj found
        exact .inl ⟨rfl, move, List.mem_cons_self, by simp [sends, next, same]⟩
    | 1, found =>
        obtain rfl := Option.some.inj found
        exact .inr ⟨rfl, move, List.mem_cons_self, by simp [sends, next, same]⟩
  · cases found

/-- A call that is on its way. -/
structure Calls (net : InMemoryNetwork) (start : Nat) (a b : NodeId)
    (later : List (Checking × CheckAction)) (s : Checking) : Prop where
  only : SendsOnly net start a b later s.network
  call : ∃ phase, s.call = some ⟨a, b, phase⟩ ∧ Witnessed later s.network a b phase

theorem SendsOnly.mono {later' : List (Checking × CheckAction)}
    (only : SendsOnly net start a b later s) (more : later ⊆ later') :
    SendsOnly net start a b later' s := by
  obtain ⟨transmits, sane, sent⟩ := only
  exact ⟨transmits, sane, fun number transmit from' found =>
    (sent number transmit from' found).mono more⟩

theorem Calls.poll {s s' : Checking} {rolls : Nat × Nat} {ties : List Nat × List Nat}
    (calls : Calls net start a b later s) (peers : Peers net a b)
    (fresh : Function.Injective net.uuids) (own : ReceivesFrom start (s, .poll rolls ties))
    (taken : s.step net (.poll rolls ties) = some s') :
    Calls net start a b ((s, .poll rolls ties) :: later) s' := by
  obtain ⟨network, call⟩ := s
  obtain ⟨only, phase, same, witnessed⟩ := calls
  obtain rfl : call = some ⟨a, b, phase⟩ := same
  obtain ⟨⟨network', phase'⟩, polled, same⟩ := Option.map_eq_some_iff.mp taken
  obtain rfl := same
  have more := List.subset_cons_self (⟨network, some ⟨a, b, phase⟩⟩, .poll rolls ties) later
  have awaits (result : Awaits net start a b ((⟨network, some ⟨a, b, phase⟩⟩, .poll rolls ties) :: later)
      network (network', phase')) : Calls net start a b
        ((⟨network, some ⟨a, b, phase⟩⟩, .poll rolls ties) :: later)
        ⟨network', some ⟨a, b, phase'⟩⟩ := ⟨result.only, phase', rfl, result.witnessed⟩
  unfold State.pollCheck at polled
  cases phase with
  | sleeping attempts deadline =>
      dsimp only at polled
      split at polled
      · cases polled
      next due =>
      split at polled
      · next early =>
          -- Both probes are sent in this turn, and nothing is awaited before the next.
        have sends : sends (⟨network, some ⟨a, b, .sleeping attempts deadline⟩⟩, .poll rolls ties) =
            [(a, network.nextTransmitNumber), (b, network.nextTransmitNumber + 1)] := by
          simp only [Checking.sends]
          rw [if_neg (by omega)]
        obtain ⟨only', told, grown⟩ := only.sendProbes peers fresh sends rolls
        generalize network.sendProbes net a b rolls = result at only' grown polled
        obtain ⟨s', exit⟩ := result
        cases exit with
        | returned =>
            obtain ⟨rfl, rfl⟩ := Prod.mk.inj (Option.some.inj polled)
            exact awaits ⟨only', ⟨told, grown⟩, trivial⟩
        | panicked =>
            obtain ⟨rfl, rfl⟩ := Prod.mk.inj (Option.some.inj polled)
            obtain ⟨transmits, sane, sent⟩ := only'
            exact awaits ⟨⟨transmits, sane.panic fresh, sent⟩, ⟨told, grown⟩, trivial⟩
      · next late =>
          -- No attempt is left: the call goes on to receive what has arrived.
        have at' : ∀ n ∈ [b, a], Own start network n := by
          simpa [ReceivesFrom, receives, due, late, Own] using own
        have result := awaits_receiveAtB (only.mono more) peers fresh (at' a (by simp))
          (at' b (by simp)) (network.now + CheckCall.timeout) (.new 1) ties
        exact awaits (Option.some.inj polled ▸ result)
  | receivingAtB deadline delivery =>
      have result := awaits_receiveAtB (only.mono more) peers fresh (own a (by simp [receives]))
        (own b (by simp [receives])) deadline delivery ties
      exact awaits (Option.some.inj polled ▸ result)
  | receivingAtA aToB deadline delivery =>
      have first (isSome : aToB.isSome) : Reached
          ((⟨network, some ⟨a, b, .receivingAtA aToB deadline delivery⟩⟩, .poll rolls ties) :: later)
          network a b := by
        cases aToB with
        | none => cases isSome
        | some delivered => exact Reached.mono witnessed (List.append_nil network.trace).symm more
      have result := awaits_receiveAtA (only.mono more) peers fresh (own a (by simp [receives]))
        first deadline delivery ties.1
      exact awaits (Option.some.inj polled ▸ result)
  | returned | panicked => cases polled

theorem Action.transmit?_of_isBackground {action : Action} (background : action.isBackground = true) :
    action.transmit?.toList = [] := by
  cases action with
  | sendUdp => cases background
  | _ => rfl

theorem Calls.step {s s' : Checking} {action : CheckAction}
    (calls : Calls net start a b later s) (peers : Peers net a b)
    (fresh : Function.Injective net.uuids) (own : ReceivesFrom start (s, action))
    (one : ∀ a b, action ≠ .call a b) (taken : s.step net action = some s') :
    Calls net start a b ((s, action) :: later) s' := by
  cases action with
  | background action =>
      obtain ⟨⟨transmits, sane, sent⟩, phase, same, witnessed⟩ := calls
      simp only [Checking.step, Option.ite_none_right_eq_some] at taken
      obtain ⟨background, taken⟩ := taken
      obtain ⟨network, moved, rfl⟩ := Option.map_eq_some_iff.mp taken
      have more := List.subset_cons_self (s, CheckAction.background action) later
      obtain ⟨told, grown⟩ := State.trace_prefix moved
      have sane' := sane.step fresh moved
      rw [Action.transmit?_of_isBackground background, List.append_nil] at sane'
      exact ⟨⟨transmits, sane', fun number transmit from' found =>
        (sent number transmit from' found).mono more⟩, phase, same, witnessed.mono grown.symm more⟩
  | call => exact absurd rfl (one _ _)
  | poll rolls ties => exact calls.poll peers fresh own taken

/-- What holds of a network that is checked, with the transmits injected so far. -/
structure Sane (net : InMemoryNetwork) (transmits : List OwnedTransmit) (s : Checking) : Prop where
  network : s.network.Sane net transmits
  known : ∀ call, s.call = some call → call.a ∈ net.nodeIds ∧ call.b ∈ net.nodeIds

theorem Sane.step {s s' : Checking} {action : CheckAction} (sane : Sane net transmits s)
    (fresh : Function.Injective net.uuids) (taken : s.step net action = some s') :
    ∃ more, Sane net (transmits ++ more) s' := by
  obtain ⟨network, known⟩ := sane
  cases action with
  | background action =>
      simp only [Checking.step, Option.ite_none_right_eq_some] at taken
      obtain ⟨s', moved, rfl⟩ := Option.map_eq_some_iff.mp taken.2
      exact ⟨_, network.step fresh moved, known⟩
  | call a b =>
      simp only [Checking.step, Option.ite_none_right_eq_some] at taken
      obtain ⟨⟨first, second, -⟩, same⟩ := taken
      obtain rfl := Option.some.inj same
      refine ⟨[], by rwa [List.append_nil], fun call same => ?_⟩
      obtain rfl := Option.some.inj same
      exact ⟨first, second⟩
  | poll rolls ties =>
      obtain ⟨call, called, taken⟩ := Option.bind_eq_some_iff.mp taken
      obtain ⟨⟨s', phase⟩, polled, rfl⟩ := Option.map_eq_some_iff.mp taken
      obtain ⟨first, second⟩ := known call called
      obtain ⟨more, network'⟩ := network.pollCheck fresh first second polled
      refine ⟨more, network', fun call' same => ?_⟩
      obtain rfl := Option.some.inj same
      exact ⟨first, second⟩

theorem Sane.run {s s' : Checking} (sane : Sane net transmits s)
    (fresh : Function.Injective net.uuids) (rest : Run (Checking.step net) s later s') :
    ∃ more, Sane net (transmits ++ more) s' := by
  induction rest with
  | start => exact ⟨[], by rwa [List.append_nil]⟩
  | next _ taken ih =>
      obtain ⟨more, sane'⟩ := ih
      obtain ⟨last, sane''⟩ := sane'.step fresh taken
      exact ⟨more ++ last, by rwa [← List.append_assoc]⟩

theorem Sane.initial (net : InMemoryNetwork) : Sane net [] (.initial net) :=
  ⟨⟨.initial, .initial, _, .initial⟩, nofun⟩

/-- What is sent in a run has a number from then on. -/
theorem Sane.sends_from {s s' : Checking} (sane : Sane net transmits s)
    (fresh : Function.Injective net.uuids) (rest : Run (Checking.step net) s later s') :
    ∀ move ∈ later, ∀ x ∈ sends move, s.network.nextTransmitNumber ≤ x.2 := by
  induction rest with
  | start => exact List.forall_mem_nil _
  | @next later t t' action run taken ih =>
      intro move member x sent
      rcases List.mem_cons.mp member with rfl | old
      · obtain ⟨more, sane'⟩ := sane.run fresh run
        have later' := sane'.network.number
        rw [List.length_append, ← sane.network.number] at later'
        unfold sends at sent
        split at sent
        · next same =>
          obtain ⟨rfl, -⟩ := Prod.mk.inj same
          split at sent
          · cases sent
          · rcases List.mem_cons.mp sent with rfl | last
            · exact Nat.le.intro later'.symm
            · obtain rfl := List.mem_singleton.mp last
              dsimp only at later' ⊢
              omega
        · cases sent
      · exact ih move old x sent

/-- A call that only finds its own packets where it receives, and returns `Ok`, has seen packets
of its own arrive in both directions. -/
theorem passed_reached {spec : NetworkSpec} {uuids : Nat → Uuid} {packetDelay : Nat → Nat → Nat}
    (accepted : InMemoryNetwork.initialize spec uuids packetDelay = .ok net)
    (fresh : Function.Injective uuids) {past later : List (Checking × CheckAction)}
    {s s₁ s' : Checking} (run : Run (step net) (.initial net) past s)
    (called : s.step net (.call a b) = some s₁) (rest : Run (step net) s₁ later s')
    (one : ∀ move ∈ later, ∀ a b, move.2 ≠ .call a b)
    (own : ∀ move ∈ later, ReceivesFrom s.network.nextTransmitNumber move) {times : Nat × Nat}
    (passed : s'.call = some ⟨a, b, .returned (.ok times)⟩) :
    Reached later s'.network a b ∧ Reached later s'.network b a := by
  have fresh : Function.Injective net.uuids :=
    (InMemoryNetwork.initialized_uuids accepted).symm ▸ fresh
  obtain ⟨transmits, sane, -⟩ := (Sane.initial net).run fresh run
  rw [List.nil_append] at sane
  simp only [Checking.step, Option.ite_none_right_eq_some] at called
  obtain ⟨⟨first, second, -⟩, same⟩ := called
  obtain rfl := Option.some.inj same
  have peers : Peers net a b := ⟨fun m known n known' same =>
    InMemoryNetwork.initialized_canonicalAddress accepted known known' same, first, second⟩
  have calls : Calls net s.network.nextTransmitNumber a b later s' := by
    clear passed
    induction rest with
    | start =>
        refine ⟨⟨transmits, sane, fun number transmit from' found => ?_⟩, _, rfl, trivial⟩
        rw [sane.number] at from'
        rw [List.getElem?_eq_none from'] at found
        cases found
    | next _ taken ih =>
        refine (ih (fun move member => one move (List.mem_cons_of_mem _ member))
          fun move member => own move (List.mem_cons_of_mem _ member)).step peers fresh
          (own _ List.mem_cons_self) (one _ List.mem_cons_self) taken
  obtain ⟨-, phase, same, witnessed⟩ := calls
  obtain ⟨-, -, rfl⟩ := CheckCall.mk.inj (Option.some.inj (same.symm.trans passed))
  exact witnessed

/-- Two hosts with a link each way. -/
def bothWays : NetworkSpec where
  nodes := [⟨0, 100, [⟨[⟨1, 24⟩], []⟩], 0, 0⟩, ⟨1, 100, [⟨[⟨2, 24⟩], []⟩], 0, 0⟩]
  links := [⟨0, .v4 1, .v4 2, 10, 1000, 0, 0, 0⟩, ⟨1, .v4 2, .v4 1, 10, 1000, 0, 0, 0⟩]

/-- An attempt of which both packets arrive. -/
def arrivingAttempt : List CheckAction :=
  [.poll (0, 0) ([], []), .background (.processBuffer 0 []), .background (.processBuffer 1 []),
    .background (.pollLink 0), .background (.pollLink 1), .background (.advance CheckCall.pause),
    .background (.pollForwarder 0 [] []), .background (.pollForwarder 1 [] [])]

/-- Both hosts go down. -/
def shutDown : List CheckAction :=
  [.background (.nodeEvent ⟨0, some .down, false⟩), .background (.nodeEvent ⟨1, some .down, false⟩)]

/-- Attempts of which no packet arrives, and the receives. -/
def lastAttempts (count : Nat) : List CheckAction :=
  (List.replicate count [.poll (0, 0) ([], []), .background (.advance CheckCall.pause)]).flatten ++
    [.poll (0, 0) ([], [])]

theorem call_notMem_lastAttempts (count : Nat) : CheckAction.call a b ∉ lastAttempts count := by
  unfold lastAttempts
  simp only [List.mem_append, List.mem_flatten, List.mem_replicate]
  rintro (⟨actions, ⟨-, rfl⟩, member⟩ | member) <;> simp at member

def hasPassed (s : Checking) : Bool :=
  match s.call with
  | some ⟨0, 1, .returned (.ok _)⟩ => true
  | _ => false

theorem hasPassed_call {s : Checking} (passed : hasPassed s = true) :
    ∃ times, s.call = some ⟨0, 1, .returned (.ok times)⟩ := by
  unfold hasPassed at passed
  split at passed
  · next times same => exact ⟨times, same⟩
  · cases passed

theorem step_call {s : Checking} (first : a ∈ net.nodeIds) (second : b ∈ net.nodeIds)
    (idle : s.isIdle = true) : s.step net (.call a b) =
      some { s with call := some ⟨a, b, .sleeping 0 s.network.now⟩ } := by
  simp [step, first, second, idle]

/-- Both hosts are up again. -/
def startUp : List CheckAction :=
  [.background (.nodeEvent ⟨0, some .up, false⟩), .background (.nodeEvent ⟨1, some .up, false⟩)]

/-- A call of which the packets of the first attempt arrive, after another one like it. -/
theorem passed_reached_bothWays : ∃ net,
    InMemoryNetwork.initialize bothWays id (fun _ size => size) = .ok net ∧
      ∃ past s s₁ later s', Run (step net) (.initial net) past s ∧
        (∃ move ∈ past, move.2 = .call 0 1) ∧ s.network.nextTransmitNumber = 200 ∧
        s.step net (.call 0 1) = some s₁ ∧ Run (step net) s₁ later s' ∧
        Reached later s'.network 0 1 ∧ Reached later s'.network 1 0 := by
  let call := arrivingAttempt ++ shutDown ++ lastAttempts 99
  obtain ⟨net, accepted, first, second, passes⟩ : ∃ net,
      InMemoryNetwork.initialize bothWays id (fun _ size => size) = .ok net ∧
        0 ∈ net.nodeIds ∧ 1 ∈ net.nodeIds ∧
        (attains (step net) (.initial net) (.call 0 1 :: call ++ startUp)).any (fun s : Checking => decide <|
          s.isIdle = true ∧ s.network.nextTransmitNumber = 200 ∧
          (attains (step net) ⟨s.network, some ⟨0, 1, .sleeping 0 s.network.now⟩⟩ call).any
            (fun s' : Checking => decide <| hasPassed s' = true ∧
              ∀ move ∈ (moves (step net) ⟨s.network, some ⟨0, 1, .sleeping 0 s.network.now⟩⟩ call).reverse,
                ReceivesFrom s.network.nextTransmitNumber move) = true) = true :=
    ⟨_, rfl, by decide, by decide, by decide +kernel⟩
  obtain ⟨s, reached, passes⟩ := (Option.any_eq_true _ _).mp passes
  obtain ⟨idle, number, passes⟩ := of_decide_eq_true passes
  obtain ⟨s', reached', passed⟩ := (Option.any_eq_true _ _).mp passes
  obtain ⟨passed, own⟩ := of_decide_eq_true passed
  obtain ⟨past, run, actions⟩ := Run.of_attains reached
  obtain ⟨times, same⟩ := hasPassed_call passed
  have called := step_call first second idle
  have before : ∃ move ∈ past, move.2 = .call 0 1 := by
    have member : .call 0 1 ∈ past.reverse.map Prod.snd := actions ▸ List.mem_cons_self
    simpa using member
  have one : ∀ action ∈ call, ∀ a b, action ≠ .call a b := by
    rintro action member a b rfl
    rcases List.mem_append.mp member with before | last
    · simp [arrivingAttempt, shutDown] at before
    · exact call_notMem_lastAttempts 99 last
  refine ⟨net, accepted, past, s, _, _, s', run, before, number, called, .of_moves reached', ?_⟩
  refine passed_reached accepted Function.injective_id run called (.of_moves reached')
    (fun move member => one move.2 ?_) own same
  rw [← moves_actions reached']
  exact List.mem_map_of_mem (List.mem_reverse.mp member)

/-- Whether no step tells of a packet from some number on in a node. -/
def tellsOfNone (start : Nat) (steps : List SimulationStep) : Bool :=
  steps.all fun step => match step.kind with
    | .packetInNode p => p.droppedOnArrival || p.packetNumber < start
    | _ => true

theorem not_reached (fresh : Function.Injective net.uuids) {s s' : Checking}
    (sane : Sane net transmits s) (rest : Run (step net) s later s')
    (none : tellsOfNone s.network.nextTransmitNumber s'.network.trace = true) :
    ¬ Reached later s'.network a b := by
  rintro ⟨move, member, number, sent, step, inside, id, size, kind⟩
  have bound := sane.sends_from fresh rest move member _ sent
  have old := List.all_eq_true.mp none step inside
  simp only [kind, Bool.false_or, decide_eq_true_eq] at old
  omega

/-- A call between hosts that are down passes with packets that the call before left. -/
theorem passed_stale : ∃ net,
    InMemoryNetwork.initialize bothWays id (fun _ size => size) = .ok net ∧
      ∃ past s s₁ later s' times, Run (step net) (.initial net) past s ∧
        s.step net (.call 0 1) = some s₁ ∧ Run (step net) s₁ later s' ∧
        (∀ move ∈ later, ∀ a b, move.2 ≠ .call a b) ∧
        s'.call = some ⟨0, 1, .returned (.ok times)⟩ ∧
        ¬ Reached later s'.network 0 1 ∧ ¬ Reached later s'.network 1 0 := by
  obtain ⟨net, accepted, first, second, passes⟩ : ∃ net,
      InMemoryNetwork.initialize bothWays id (fun _ size => size) = .ok net ∧
        0 ∈ net.nodeIds ∧ 1 ∈ net.nodeIds ∧
        (attains (step net) (.initial net)
          (.call 0 1 :: arrivingAttempt ++ arrivingAttempt ++ shutDown ++ lastAttempts 98)).any
            (fun s => s.isIdle ∧ (attains (step net)
              { s with call := some ⟨0, 1, .sleeping 0 s.network.now⟩ } (lastAttempts 100)).any
                fun s' => hasPassed s' ∧
                  tellsOfNone s.network.nextTransmitNumber s'.network.trace) = true :=
    ⟨_, rfl, by decide, by decide, by decide +kernel⟩
  obtain ⟨s, reached, idle⟩ := (Option.any_eq_true _ _).mp passes
  simp only [Bool.decide_and, Bool.decide_eq_true, Bool.and_eq_true] at idle
  obtain ⟨idle, passes⟩ := idle
  obtain ⟨s', reached', passed⟩ := (Option.any_eq_true _ _).mp passes
  simp only [Bool.and_eq_true] at passed
  obtain ⟨past, run, -⟩ := Run.of_attains reached
  obtain ⟨later, rest, actions⟩ := Run.of_attains reached'
  obtain ⟨times, same⟩ := hasPassed_call passed.1
  have called := step_call first second idle
  have fresh : Function.Injective net.uuids :=
    (InMemoryNetwork.initialized_uuids accepted).symm ▸ Function.injective_id
  obtain ⟨transmits, sane⟩ := (Sane.initial net).run fresh (run.next called)
  refine ⟨net, accepted, past, s, _, later, s', times, run, called, rest,
    fun move member a b another => ?_, same, not_reached fresh sane rest passed.2,
    not_reached fresh sane rest passed.2⟩
  have inside : move.2 ∈ lastAttempts 100 :=
    actions ▸ List.mem_map_of_mem (List.mem_reverse.mpr member)
  exact call_notMem_lastAttempts 100 (another ▸ inside)

end Checking

end Workbench.Network
