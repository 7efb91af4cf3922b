import Workbench.Network.State

/-! Forwarding a packet at a node: delivery, drops, duplication, and the way into
the outbound buffer. -/

set_option autoImplicit false

namespace Workbench.Network

open Workbench.Tracing

namespace State

/-- The next uuid that the generator draws. -/
def newPacketId (net : InMemoryNetwork) (s : State) : Uuid × State :=
  (net.uuids s.drawn, { s with drawn := s.drawn + 1 })

def deliverPacket (s : State) (n : NodeId) (data : InTransitData) : State :=
  s.modifyNode n (·.deliverPacket s.now data)

/-- Stores a packet for later sending, or drops it. Panics where the task that
would take it from the channel has ended; the space is taken by then. -/
def enqueueOutbound (s : State) (n : NodeId) (packet : BufferedPacket) : State × Exit :=
  match (s.nodes n).outboundBuffer.reserve packet.data.size with
  | none => (s.trackDroppedBecauseBufferFull n packet.data, .returned)
  | some outboundBuffer =>
      let s := (s.modifyNode n ({ · with outboundBuffer })).note (.reserved n packet.data)
      match (s.nodes n).outbound.unboundedSend packet with
      | none => (s, .panicked)
      | some outbound => (s.modifyNode n ({ · with outbound }), .returned)

/-- Stores a packet in the outbound buffer, and a duplicate of it if asked to. -/
def enqueueWithDuplicate (net : InMemoryNetwork) (s : State) (n : NodeId)
    (packet : BufferedPacket) (duplicate : Bool) : State × Exit :=
  if duplicate then
    let (id, s) := s.newPacketId net
    let copy := { packet with data := { packet.data with id, duplicate := true } }
    match s.enqueueOutbound n packet with
    | (s, .panicked) => (s, .panicked)
    | (s, .returned) =>
        (s.trackInjectedFailures n copy.data true 0 false).enqueueOutbound n copy
  else s.enqueueOutbound n packet

/-- Forwards a packet to the next node in the network. -/
def forward (net : InMemoryNetwork) (s : State) (n : NodeId) (data : InTransitData)
    (roll : Nat) : State × Exit :=
  if (s.nodes n).isDown then (s.trackDroppedOnArrival n data, .returned)
  else
    let s := s.trackPacketInNode n data
    if (net.nodes n).canonicalAddress = data.transmit.destination.ip then
      -- The packet has arrived to its destination
      (s.deliverPacket n data, .returned)
    else
      let data := { data with transmit := { data.transmit with ttl := data.transmit.ttl - 1 } }
      if data.transmit.ttl = 0 then (s.trackDroppedZeroTtl n data, .returned)
      else
        let failures := (net.nodes n).injectedFailures
        if roll < failures.packetLossRatio then (s.trackDroppedRandomly n data, .returned)
        else s.enqueueWithDuplicate net n ⟨s.now, data⟩
          (decide (roll < failures.packetLossRatio + failures.packetDuplicationRatio))

def inTransitData (net : InMemoryNetwork) (s : State) (sourceNodeId : NodeId)
    (transmit : OwnedTransmit) : InTransitData × State :=
  let (id, s) := s.newPacketId net
  (⟨id, false, sourceNodeId, transmit, s.nextTransmitNumber⟩,
    { s with nextTransmitNumber := s.nextTransmitNumber + 1 })

/-- Sends a transmit from a node to its destination. -/
def sendUdp (net : InMemoryNetwork) (s : State) (n : NodeId) (transmit : OwnedTransmit)
    (roll : Nat) : State × Exit :=
  let (data, s) := s.inTransitData net n transmit
  s.forward net n data roll

end State

/-! Routes. -/

/-- What a walk's function says: to break off with a value, or to go on. -/
inductive ControlFlow (α : Type) where
  | stop (value : α)
  | continue

/-- A route for the destination leads over a link that does not exist. -/
inductive RouteError where
  | missingLink (nodeAddr nextHopAddr : IpAddr)
  deriving DecidableEq, Repr

/-- Walks the links of the routes that match the destination, up or down, in the
order of the routes. -/
def walkLinks {σ α : Type} (net : InMemoryNetwork) (dest : IpAddr)
    (walkFn : σ → LinkId → σ × ControlFlow α) :
    List (IpAddr × Route) → σ → Except RouteError (σ × Option α)
  | [], state => .ok (state, none)
  | (nodeAddr, route) :: routes, state =>
    match route.nextHopTowardsDestination dest with
    | none => walkLinks net dest walkFn routes state
    | some nextHopAddr =>
      match net.linksByAddr nodeAddr nextHopAddr with
      | none => .error (.missingLink nodeAddr nextHopAddr)
      | some link =>
        match walkFn state link with
        | (state, .stop value) => .ok (state, some value)
        | (state, .continue) => walkLinks net dest walkFn routes state

namespace InMemoryNetwork

def hasRouteTo (net : InMemoryNetwork) (n : NodeId) (dest : IpAddr) : Except RouteError Bool :=
  (walkLinks net dest (fun _ _ => ((), ControlFlow.stop true)) (net.nodes n).routes ()).map
    (·.2.isSome)

/-- The links of all routes of a node that match a destination, cheapest first. -/
def candidateLinks (net : InMemoryNetwork) (n : NodeId) (dest : IpAddr) :
    Except RouteError (List LinkId) :=
  (walkLinks net dest (fun links link => (links ++ [link], (.continue : ControlFlow Unit)))
    (net.nodes n).routes []).map (·.1)

/-- Every route that matches the destination has its link, and some route does. -/
def Routable (net : InMemoryNetwork) (n : NodeId) (dest : IpAddr) : Prop :=
  (∀ hop ∈ (net.nodes n).routes, ∀ next, hop.2.nextHopTowardsDestination dest = some next →
    net.linksByAddr hop.1 next ≠ none) ∧
  ∃ hop ∈ (net.nodes n).routes, hop.2.nextHopTowardsDestination dest ≠ none

/-- The link of a route that matches the destination. -/
def linkTowards (net : InMemoryNetwork) (dest : IpAddr) (hop : IpAddr × Route) : Option LinkId :=
  (hop.2.nextHopTowardsDestination dest).bind (net.linksByAddr hop.1)

variable {net : InMemoryNetwork} {dest : IpAddr}

/-- A walk over all links goes on to the last route, or ends at a missing link. -/
theorem walkLinks_all (net : InMemoryNetwork) (dest : IpAddr)
    (routes : List (IpAddr × Route)) (links : List LinkId) :
    walkLinks net dest (fun links link => (links ++ [link], (.continue : ControlFlow Unit)))
        routes links = .ok (links ++ routes.filterMap (net.linkTowards dest), none) ∧
      (∀ hop ∈ routes, ∀ next, hop.2.nextHopTowardsDestination dest = some next →
        net.linksByAddr hop.1 next ≠ none) ∨
    (∃ e, walkLinks net dest (fun links link => (links ++ [link], (.continue : ControlFlow Unit)))
        routes links = .error e) ∧
      ∃ hop ∈ routes, ∃ next, hop.2.nextHopTowardsDestination dest = some next ∧
        net.linksByAddr hop.1 next = none := by
  induction routes generalizing links with
  | nil => exact .inl ⟨by simp [walkLinks], by simp⟩
  | cons hop routes ih =>
      rw [walkLinks]
      cases matched : hop.2.nextHopTowardsDestination dest with
      | none =>
          rcases ih links with ⟨walked, all⟩ | ⟨failed, hop', member, missing⟩
          · refine .inl ⟨by simpa [linkTowards, matched] using walked, fun hop' member => ?_⟩
            rcases List.mem_cons.mp member with rfl | member
            · simp [matched]
            · exact all hop' member
          · exact .inr ⟨failed, hop', List.mem_cons_of_mem _ member, missing⟩
      | some next =>
          cases found : net.linksByAddr hop.1 next with
          | none =>
              exact .inr ⟨⟨.missingLink hop.1 next, by simp [found]⟩, hop, List.mem_cons_self, next,
                matched, found⟩
          | some link =>
              rcases ih (links ++ [link]) with ⟨walked, all⟩ | ⟨failed, hop', member, missing⟩
              · refine .inl ⟨by simpa [linkTowards, matched, found] using walked,
                  fun hop' member next' => ?_⟩
                rcases List.mem_cons.mp member with rfl | member
                · rw [matched, Option.some.injEq]
                  rintro rfl
                  simp [found]
                · exact all hop' member next'
              · exact .inr ⟨by simpa [found] using failed, hop', List.mem_cons_of_mem _ member,
                  missing⟩

/-- A walk that stops at the first link finds one exactly where a route matches,
as long as no link is missing. -/
theorem walkLinks_first {routes : List (IpAddr × Route)}
    (all : ∀ hop ∈ routes, ∀ next, hop.2.nextHopTowardsDestination dest = some next →
      net.linksByAddr hop.1 next ≠ none) :
    (walkLinks net dest (fun _ _ => ((), ControlFlow.stop true)) routes ()).map (·.2.isSome) =
      .ok true ↔ ∃ hop ∈ routes, hop.2.nextHopTowardsDestination dest ≠ none := by
  induction routes with
  | nil => simp [walkLinks, Except.map]
  | cons hop routes ih =>
      rw [walkLinks]
      cases matched : hop.2.nextHopTowardsDestination dest with
      | none =>
          rw [show _ ↔ _ from ih fun hop' member => all hop' (List.mem_cons_of_mem _ member)]
          simp [matched]
      | some next =>
          obtain ⟨link, found⟩ := Option.ne_none_iff_exists'.mp
            (all hop List.mem_cons_self next matched)
          simp [found, matched, Except.map]

theorem routable_iff {n : NodeId} : net.Routable n dest ↔
    net.hasRouteTo n dest = .ok true ∧ ∃ links, net.candidateLinks n dest = .ok links := by
  rw [Routable, hasRouteTo, candidateLinks]
  rcases walkLinks_all net dest (net.nodes n).routes [] with
    ⟨walked, all⟩ | ⟨⟨e, failed⟩, hop, member, next, matched, missing⟩
  · rw [walkLinks_first all, walked]
    exact ⟨fun routable => ⟨routable.2, _, rfl⟩, fun routed => ⟨all, routed.1⟩⟩
  · simp only [failed, Except.map, reduceCtorEq, exists_false, and_false, iff_false]
    exact fun routable => routable.1 hop member next matched missing

theorem Routable.candidateLinks_ne_nil {n : NodeId} {links : List LinkId}
    (routable : net.Routable n dest) (walked : net.candidateLinks n dest = .ok links) :
    links ≠ [] := by
  obtain ⟨all, hop, member, matched⟩ := routable
  rcases walkLinks_all net dest (net.nodes n).routes [] with
    ⟨collected, -⟩ | ⟨⟨e, failed⟩, -⟩
  · rw [candidateLinks, collected] at walked
    obtain rfl : _ = links := by simpa [Except.map] using walked
    obtain ⟨next, towards⟩ := Option.ne_none_iff_exists'.mp matched
    obtain ⟨link, found⟩ := Option.ne_none_iff_exists'.mp (all hop member next towards)
    exact List.ne_nil_of_mem (List.mem_filterMap.mpr
      ⟨hop, member, by simpa [linkTowards, towards] using found⟩)
  · rw [candidateLinks, failed] at walked
    simp [Except.map] at walked

instance (net : InMemoryNetwork) (n : NodeId) (dest : IpAddr) : Decidable (net.Routable n dest) :=
  decidable_of_iff ((net.hasRouteTo n dest).toOption = some true ∧
      (net.candidateLinks n dest).toOption.isSome = true) <| by
    rw [routable_iff]
    cases net.hasRouteTo n dest <;> cases net.candidateLinks n dest <;> simp [Except.toOption]

/-- The routes that match the destination all have their links. -/
def Linked (net : InMemoryNetwork) (dest : IpAddr) (routes : List (IpAddr × Route)) : Prop :=
  ∀ hop ∈ routes, ∀ next, hop.2.nextHopTowardsDestination dest = some next →
    net.linksByAddr hop.1 next ≠ none

/-- A link is among those that the walk of a node collects. -/
def Yields (net : InMemoryNetwork) (n : NodeId) (dest : IpAddr) (l : LinkId) : Prop :=
  ∃ links, net.candidateLinks n dest = .ok links ∧ l ∈ links

theorem linkTowards_eq_some {hop : IpAddr × Route} {l : LinkId} :
    net.linkTowards dest hop = some l ↔ ∃ next,
      hop.2.nextHopTowardsDestination dest = some next ∧ net.linksByAddr hop.1 next = some l :=
  Option.bind_eq_some_iff

/-- A walk collects the links of the routes that match, unless one of them is missing. -/
theorem yields_iff {n : NodeId} {l : LinkId} : net.Yields n dest l ↔
    net.Linked dest (net.nodes n).routes ∧
      ∃ hop ∈ (net.nodes n).routes, net.linkTowards dest hop = some l := by
  rw [Yields, candidateLinks]
  rcases walkLinks_all net dest (net.nodes n).routes [] with
    ⟨walked, all⟩ | ⟨⟨e, failed⟩, hop, member, next, matched, missing⟩
  · rw [walked]
    constructor
    · rintro ⟨links, collected, inside⟩
      obtain rfl := Except.ok.inj collected
      exact ⟨all, List.mem_filterMap.mp inside⟩
    · rintro ⟨-, found⟩
      exact ⟨_, rfl, List.mem_filterMap.mpr found⟩
  · rw [failed]
    constructor
    · rintro ⟨links, walked, -⟩
      cases walked
    · rintro ⟨linked, -⟩
      exact absurd missing (linked hop member next matched)

end InMemoryNetwork

end Workbench.Network
