import Workbench.Network.Link
import Workbench.Tracing.SimulationStep

/-! The state of a simulated network, and the tracer that records its steps.

The clock of a run is paused while tasks run, so a task sees one instant between
two of its await points. The log holds what the tracer records, in order, and
between these entries marks of what the simulator does without recording it. -/

set_option autoImplicit false

namespace Workbench.Network

open Workbench.Tracing

/-- A network as initialized, with the generator's uuids in the order drawn, and
the delay of a packet by bandwidth and size. -/
structure InMemoryNetwork where
  nodeIds : List NodeId
  linkIds : List LinkId
  nodesByAddr : IpAddr → Option NodeId
  linksByAddr : IpAddr → IpAddr → Option LinkId
  nodes : NodeId → Node
  links : LinkId → NetworkLink
  uuids : Nat → Uuid
  packetDelay : Nat → Nat → Nat

/-- What a link does with a copy that is its to handle. -/
inductive Act where
  | sent
  | cleared
  deriving DecidableEq, Repr

/-- A buffered packet dispatched to its candidate links, with the flag that its
copies share. The acts on its copies are recorded for the proofs only. -/
structure Dispatch where
  node : NodeId
  packet : BufferedPacket
  links : List LinkId
  handled : Bool
  acts : List (LinkId × Act)
  deriving DecidableEq, Repr

inductive LogEntry where
  /-- A step recorded by the tracer. -/
  | recorded (step : SimulationStep)
  /-- A node's outbound buffer had room for a packet. -/
  | reserved (node : NodeId) (data : InTransitData)
  /-- A link went from up to down. -/
  | wentDown (link : LinkId) (at' : Nat)
  /-- A link's forwarder takes up a packet that arrived. -/
  | arrived (link : LinkId) (packet : Uuid)
  /-- A link's forwarder panics, since no node has the link's target address. -/
  | stranded (link : LinkId) (packet : Uuid)
  /-- A connectivity check received a packet. -/
  | checked (node : NodeId) (packet : Uuid)
  deriving DecidableEq, Repr

def LogEntry.step? : LogEntry → Option SimulationStep
  | .recorded step => some step
  | _ => none

structure State where
  now : Nat
  nodes : NodeId → NodeState
  links : LinkId → LinkState
  /-- The delivery that the socket of a node and port has stored. -/
  sockets : NodeId → Port → Option NextPacketDelivery
  dispatches : List Dispatch
  /-- How many uuids were drawn. -/
  drawn : Nat
  nextTransmitNumber : Nat
  log : List LogEntry
  /-- Whether any task has panicked. -/
  panicked : Bool

def State.initial (net : InMemoryNetwork) : State where
  now := 0
  nodes n := .new (net.nodes n)
  links l :=
    let link := net.links l
    .new 0 link.delay (net.packetDelay link.bandwidthBps)
  sockets _ _ := none
  dispatches := []
  drawn := 0
  nextTransmitNumber := 0
  log := []
  panicked := false

theorem State.initial_copies (net : InMemoryNetwork) (l : LinkId) :
    ((State.initial net).links l).copies = [] := rfl

/-- How a function called by a task returns to it. -/
inductive Exit where
  | returned
  | panicked
  deriving DecidableEq, Repr

namespace State

/-- The steps recorded so far. -/
def trace (s : State) : List SimulationStep := s.log.filterMap LogEntry.step?

def note (s : State) (entry : LogEntry) : State := { s with log := s.log ++ [entry] }

@[simp] theorem note_nodes (s : State) (entry : LogEntry) : (s.note entry).nodes = s.nodes := rfl

@[simp] theorem note_links (s : State) (entry : LogEntry) : (s.note entry).links = s.links := rfl

def modifyNode (s : State) (n : NodeId) (change : NodeState → NodeState) : State :=
  { s with nodes := Function.update s.nodes n (change (s.nodes n)) }

def modifyLink (s : State) (l : LinkId) (change : LinkState → LinkState) : State :=
  { s with links := Function.update s.links l (change (s.links l)) }

@[simp] theorem modifyNode_self (s : State) (n : NodeId) (change : NodeState → NodeState) :
    (s.modifyNode n change).nodes n = change (s.nodes n) := by
  simp [modifyNode]

theorem modifyNode_of_ne (s : State) {n n' : NodeId} (change : NodeState → NodeState)
    (differs : n' ≠ n) : (s.modifyNode n change).nodes n' = s.nodes n' := by
  simp [modifyNode, Function.update_of_ne differs]

@[simp] theorem modifyLink_self (s : State) (l : LinkId) (change : LinkState → LinkState) :
    (s.modifyLink l change).links l = change (s.links l) := by
  simp [modifyLink]

theorem modifyLink_of_ne (s : State) {l l' : LinkId} (change : LinkState → LinkState)
    (differs : l' ≠ l) : (s.modifyLink l change).links l' = s.links l' := by
  simp [modifyLink, Function.update_of_ne differs]

def modifyDispatch (s : State) (i : Nat) (change : Dispatch → Dispatch) : State :=
  { s with dispatches := s.dispatches.modify i change }

theorem modifyDispatch_lookup {s : State} {i j : Nat} {change : Dispatch → Dispatch} {d' : Dispatch}
    (found : (s.modifyDispatch i change).dispatches[j]? = some d') :
    ∃ d, s.dispatches[j]? = some d ∧ d' = if i = j then change d else d := by
  rw [modifyDispatch, List.getElem?_modify] at found
  obtain ⟨d, before, same⟩ := Option.map_eq_some_iff.mp found
  exact ⟨d, before, same.symm⟩

theorem modify_perm {α : Type} (change : α → α) {i : Nat} {xs : List α} {x : α}
    (found : xs[i]? = some x) :
    ∃ rest, xs.Perm (x :: rest) ∧ (xs.modify i change).Perm (change x :: rest) := by
  induction xs generalizing i with
  | nil => simp at found
  | cons y ys ih =>
      cases i with
      | zero =>
          obtain rfl := Option.some.inj found
          exact ⟨ys, .refl _, .refl _⟩
      | succ i =>
          obtain ⟨rest, before, after⟩ := ih (by simpa using found)
          exact ⟨y :: rest, (before.cons y).trans (.swap x y rest),
            (after.cons y).trans (.swap (change x) y rest)⟩

/-- The value of a shared flag. -/
def handled (s : State) (flag : Nat) : Bool := (s.dispatches[flag]?).any (·.handled)

/-! The tracer. -/

def record (s : State) (kind : SimulationStepKind) : State :=
  s.note (.recorded ⟨s.now, kind⟩)

def trackLinkEvent (s : State) (event : LinkEventPayload) : State :=
  s.record (.networkEvent ⟨some event, none⟩)

def trackNodeEvent (s : State) (event : NodeEventPayload) : State :=
  s.record (.networkEvent ⟨none, some event⟩)

def trackPacketInNode (s : State) (node : NodeId) (packet : InTransitData) : State :=
  s.record (.packetInNode ⟨packet.id, packet.number, packet.size, node, false⟩)

def trackPacketInTransit (s : State) (node : NodeId) (link : LinkId) (packet : InTransitData) :
    State :=
  s.record (.packetInTransit ⟨packet.id, node, link⟩)

def trackDroppedOnArrival (s : State) (node : NodeId) (packet : InTransitData) : State :=
  s.record (.packetInNode ⟨packet.id, packet.number, packet.size, node, true⟩)

def trackDropped (s : State) (node : NodeId) (packet : InTransitData) (reason : DropReason) :
    State :=
  s.record (.packetDropped ⟨packet.id, node, reason⟩)

def trackDroppedByBufferClearEvent (s : State) (node : NodeId) (packet : InTransitData) : State :=
  s.trackDropped node packet .bufferCleared

def trackDroppedZeroTtl (s : State) (node : NodeId) (packet : InTransitData) : State :=
  s.trackDropped node packet .zeroTtl

def trackDroppedRandomly (s : State) (node : NodeId) (packet : InTransitData) : State :=
  s.trackDropped node packet .random

def trackDroppedBecauseBufferFull (s : State) (node : NodeId) (packet : InTransitData) : State :=
  s.trackDropped node packet .bufferFull

def trackLostInTransit (s : State) (link : LinkId) (data : InTransitData) : State :=
  s.record (.packetLostInTransit ⟨data.id, link⟩)

def trackInjectedFailures (s : State) (node : NodeId) (packet : InTransitData)
    (duplicate : Bool) (extraDelay : Nat) (congestionExperienced : Bool) : State :=
  let event : GenericPacketEvent := ⟨packet.id, packet.number, packet.size, node⟩
  let s := if extraDelay ≠ 0 then s.record (.packetExtraDelay ⟨packet.id, node, extraDelay⟩) else s
  let s := if duplicate then s.record (.packetDuplicated event) else s
  if congestionExperienced then s.record (.packetCongestionEvent event) else s

def trackReadByApplication (s : State) (node : NodeId) (data : InTransitData) : State :=
  s.record (.packetDeliveredToApplication ⟨data.id, data.number, data.size, node⟩)

end State

end Workbench.Network
