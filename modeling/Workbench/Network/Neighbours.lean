import Workbench.Library.Trace
import Workbench.Network.Simulator
import Workbench.Network.Topology

/-! The routes that a network gets from its description, and the neighbours they lead to. -/

set_option autoImplicit false

namespace Workbench.Network

open Workbench.Library

/-- The target of the last link that is listed from an address. -/
def lastTarget (links : List NetworkLinkSpec) (source : IpAddr) : Option IpAddr :=
  latest (fun l => if l.source = source then some l.target else none) links

namespace Directory

variable {this next : Directory}

/-- A directory with some links of a description, under their addresses. -/
structure Leads (this : Directory) (done : List NetworkLinkSpec) : Prop where
  towards : ∀ a, this.linksAddrMap.lookup a = lastTarget done a
  byAddr : ∀ link ∈ done, this.linksByAddr.lookup (link.source, link.target) = some link.id
  known : ∀ link ∈ done, link.id ∈ this.linksById
  unique : (done.map (·.id)).Nodup

theorem Leads.addLink {done : List NetworkLinkSpec} {link : NetworkLinkSpec}
    (before : this.Leads done) (added : this.addLink link = .ok next) :
    next.Leads (done ++ [link]) := by
  unfold Directory.addLink at added
  split at added
  · cases added
  next free =>
  split at added
  · cases added
  next fresh =>
  obtain rfl := Except.ok.inj added
  refine ⟨fun a => ?_, fun l member => ?_, fun l member => ?_, ?_⟩
  · rw [lookup_insert, lastTarget, latest_concat]
    by_cases same : a = link.source
    · simp [same]
    · rw [if_neg same, if_neg (Ne.symm same), Option.none_or]
      exact before.towards a
  · rw [lookup_insert]
    rcases List.mem_append.mp member with old | new
    · have taken := before.byAddr l old
      rw [if_neg, taken]
      intro same
      rw [same, free] at taken
      cases taken
    · rw [List.mem_singleton.mp new, if_pos rfl]
  · rcases List.mem_append.mp member with old | new
    · exact (AList.mem_insert _).mpr (.inr (before.known l old))
    · exact (AList.mem_insert _).mpr (.inl (by rw [List.mem_singleton.mp new]))
  · rw [List.map_append, List.nodup_append']
    refine ⟨before.unique, List.nodup_singleton _, fun id old new => ?_⟩
    obtain ⟨l, member, rfl⟩ := List.mem_map.mp old
    rw [List.map_singleton, List.mem_singleton] at new
    exact fresh (new ▸ before.known l member)

end Directory

theorem Node.new_routes {spec : NetworkNodeSpec} {linksAddrMap : HashMap IpAddr IpAddr}
    {node : Node} (made : Node.new spec linksAddrMap = .ok node) :
    node.routes = Node.connectedRoutes linksAddrMap spec.interfaces ++
      (Node.otherRoutes spec.interfaces).mergeSort Node.cheaper := by
  unfold Node.new at made
  split at made
  · cases made
  · cases made
  · cases made
  · obtain rfl := Except.ok.inj made
    rfl

theorem Node.mem_connectedRoutes {linksAddrMap : HashMap IpAddr IpAddr}
    {interfaces : List NetworkInterface} {hop : IpAddr × Route} :
    hop ∈ Node.connectedRoutes linksAddrMap interfaces ↔
      ∃ interface ∈ interfaces, ∃ addr ∈ interface.addresses, ∃ target,
        linksAddrMap.lookup addr.asIpAddr = some target ∧
        hop = (addr.asIpAddr, ⟨.fromCidr addr, target, 0⟩) := by
  simp only [Node.connectedRoutes, List.mem_flatMap, List.mem_filterMap, Option.map_eq_some_iff,
    eq_comm (b := hop)]

namespace InMemoryNetwork

/-- A network whose nodes have the routes of a description, and whose links have their addresses. -/
structure Routed (net : InMemoryNetwork) (spec : NetworkSpec) : Prop where
  routes : ∀ node ∈ spec.nodes, ∃ linksAddrMap : HashMap IpAddr IpAddr,
    (∀ a, linksAddrMap.lookup a = lastTarget spec.links a) ∧
      (net.nodes node.id).routes = Node.connectedRoutes linksAddrMap node.interfaces ++
        (Node.otherRoutes node.interfaces).mergeSort Node.cheaper
  linksByAddr : ∀ link ∈ spec.links, net.linksByAddr link.source link.target = some link.id
  unique : (spec.links.map (·.id)).Nodup

theorem initialized_routed {spec : NetworkSpec} {uuids : Nat → Uuid} {packetDelay : Nat → Nat → Nat}
    {net : InMemoryNetwork} (accepted : InMemoryNetwork.initialize spec uuids packetDelay = .ok net) :
    net.Routed spec := by
  obtain ⟨linked, passed, accepted⟩ := bind_ok accepted
  have leads := foldlM_ok (fun done directory => Directory.Leads directory done)
    ⟨fun _ => rfl, by simp, by simp, List.nodup_nil⟩
    (fun _ _ _ _ before added => before.addLink added) passed
  have links := foldlM_ok (fun done directory => Directory.HasLinks directory done)
    ⟨by simp [Directory.new], by simp, by simp [Directory.new], rfl, rfl⟩
    (fun _ _ _ _ before added => before.addLink added) passed
  split at accepted
  · cases accepted
  obtain ⟨directory, passed, accepted⟩ := bind_ok accepted
  obtain rfl := Except.ok.inj accepted
  have nodes := foldlM_ok (fun done directory => Directory.HasNodes linked directory done)
    ⟨by simp [links.noNodes], by simp, by simp [links.noAddresses], rfl, rfl, rfl⟩
    (fun _ _ _ _ before added => before.addNode added) passed
  refine ⟨fun node member => ?_, fun link member => ?_, leads.unique⟩
  · obtain ⟨built, made, found⟩ := nodes.nodes node member
    refine ⟨linked.linksAddrMap, leads.towards, ?_⟩
    dsimp only
    rw [found]
    exact Node.new_routes made
  · dsimp only
    rw [nodes.linksByAddr]
    exact leads.byAddr link member

variable {net : InMemoryNetwork} {spec : NetworkSpec} {dest : IpAddr} {l : LinkId}

/-- No later link is listed from the same address. -/
def LastFrom (spec : NetworkSpec) (link : NetworkLinkSpec) : Prop :=
  ∃ before after, spec.links = before ++ link :: after ∧ ∀ l ∈ after, l.source ≠ link.source

/-- A configured route of a node covers an address: from an address of the node to a next hop. -/
def Covers (node : NetworkNodeSpec) (dest source next : IpAddr) : Prop :=
  ∃ route, (source, route) ∈ Node.otherRoutes node.interfaces ∧
    route.nextHopTowardsDestination dest = some next

/-- Each configured route of a node that covers an address has its link. -/
def CoversLinked (spec : NetworkSpec) (node : NetworkNodeSpec) (dest : IpAddr) : Prop :=
  ∀ source next, Covers node dest source next → ∃ l ∈ spec.links, l.source = source ∧ l.target = next

theorem lastTarget_mem {links : List NetworkLinkSpec} {source target : IpAddr}
    (last : lastTarget links source = some target) :
    ∃ before link after, links = before ++ link :: after ∧ link.source = source ∧
      link.target = target ∧ ∀ l ∈ after, l.source ≠ source := by
  obtain ⟨before, link, after, split, given, silent⟩ := latest_eq_some last
  have same : link.source = source ∧ link.target = target := by simpa using given
  exact ⟨before, link, after, split, same.1, same.2, fun l member => by simpa using silent l member⟩

theorem LastFrom.lastTarget_eq {link : NetworkLinkSpec} (last : LastFrom spec link) :
    lastTarget spec.links link.source = some link.target := by
  obtain ⟨before, after, split, others⟩ := last
  have silent : after.filterMap (fun l => if l.source = link.source then some l.target else none) =
      [] := by
    rw [List.filterMap_eq_nil_iff]
    exact fun l member => if_neg (others l member)
  simp [lastTarget, latest, split, silent]

theorem nextHop_eq {route : Route} {ip next : IpAddr}
    (matched : route.nextHopTowardsDestination ip = some next) : route.next = next := by
  unfold Route.nextHopTowardsDestination at matched
  split at matched
  · exact Option.some.inj matched
  · cases matched

/-- The addresses of a link are in one place of the description. -/
theorem Routed.eq_of_linksByAddr (routed : net.Routed spec) (built : net.Built spec)
    {link : NetworkLinkSpec} (member : link ∈ spec.links) {a b : IpAddr}
    (found : net.linksByAddr a b = some link.id) : a = link.source ∧ b = link.target := by
  obtain ⟨link', member', same, rfl, rfl⟩ := built.linksByAddr a b link.id found
  obtain rfl := List.inj_on_of_nodup_map routed.unique member' member same
  exact ⟨rfl, rfl⟩

theorem Routed.lastFrom_of_lastTarget (routed : net.Routed spec) {link : NetworkLinkSpec}
    (member : link ∈ spec.links) (last : lastTarget spec.links link.source = some link.target) :
    LastFrom spec link := by
  obtain ⟨before, link', after, split, source, target, others⟩ := lastTarget_mem last
  have listed : link' ∈ spec.links := by simp [split]
  have found := routed.linksByAddr link' listed
  rw [source, target, routed.linksByAddr link member] at found
  obtain rfl := List.inj_on_of_nodup_map routed.unique listed member (Option.some.inj found).symm
  exact ⟨before, after, split, others⟩

/-- What the walk of a node gets to by a configured route. -/
theorem Routed.covers_iff (routed : net.Routed spec) (built : net.Built spec)
    {node : NetworkNodeSpec} {link : NetworkLinkSpec} (member : link ∈ spec.links) :
    Covers node dest link.source link.target ↔
      ∃ hop ∈ Node.otherRoutes node.interfaces, net.linkTowards dest hop = some link.id := by
  constructor
  · rintro ⟨route, configured, matched⟩
    exact ⟨(link.source, route), configured,
      linkTowards_eq_some.mpr ⟨link.target, matched, routed.linksByAddr link member⟩⟩
  · rintro ⟨⟨source, route⟩, configured, towards⟩
    obtain ⟨next, matched, found⟩ := linkTowards_eq_some.mp towards
    obtain ⟨rfl, rfl⟩ := routed.eq_of_linksByAddr built member found
    exact ⟨route, configured, matched⟩

theorem Routed.coversLinked_iff (routed : net.Routed spec) (built : net.Built spec)
    {node : NetworkNodeSpec} :
    CoversLinked spec node dest ↔ net.Linked dest (Node.otherRoutes node.interfaces) := by
  constructor
  · intro linked hop configured next matched
    obtain ⟨l, listed, source, target⟩ := linked hop.1 next ⟨hop.2, configured, matched⟩
    rw [← source, ← target, routed.linksByAddr l listed]
    simp
  · rintro linked source next ⟨route, configured, matched⟩
    obtain ⟨l, found⟩ := Option.ne_none_iff_exists'.mp (linked (source, route) configured next matched)
    obtain ⟨link, listed, -, start, target⟩ := built.linksByAddr source next l found
    exact ⟨link, listed, start, target⟩

/-- The connected routes of a node have their links. -/
theorem Routed.connected_linked (routed : net.Routed spec) {linksAddrMap : HashMap IpAddr IpAddr}
    (towards : ∀ a, linksAddrMap.lookup a = lastTarget spec.links a)
    (interfaces : List NetworkInterface) (dest : IpAddr) :
    net.Linked dest (Node.connectedRoutes linksAddrMap interfaces) := by
  intro hop member next matched
  obtain ⟨interface, -, addr, -, target, found, rfl⟩ := Node.mem_connectedRoutes.mp member
  rw [towards] at found
  obtain ⟨before, link, after, split, source, same, -⟩ := lastTarget_mem found
  obtain rfl : target = next := nextHop_eq matched
  rw [← source, ← same, routed.linksByAddr link (by simp [split])]
  simp

/-- The walk of a node collects the link to a neighbour exactly where the link is the last one
that is listed from its address, or a configured route leads over it, and no configured route
that covers the neighbour is without a link. -/
theorem neighbour_yields_iff {uuids : Nat → Uuid} {packetDelay : Nat → Nat → Nat}
    (accepted : InMemoryNetwork.initialize spec uuids packetDelay = .ok net)
    {node : NetworkNodeSpec} {interface : NetworkInterface} {address : Ipv4Cidr}
    {link : NetworkLinkSpec} (member : node ∈ spec.nodes) (on : interface ∈ node.interfaces)
    (here : address ∈ interface.addresses) (listed : link ∈ spec.links)
    (source : link.source = address.asIpAddr)
    (subnet : (IpRange.fromCidr address).contains link.target = true) :
    net.Yields node.id link.target link.id ↔
      (LastFrom spec link ∨ Covers node link.target link.source link.target) ∧
        CoversLinked spec node link.target := by
  have built := initialized_built accepted
  have routed := initialized_routed accepted
  obtain ⟨linksAddrMap, towards, routes⟩ := routed.routes node member
  have connected := routed.connected_linked towards node.interfaces link.target
  have walked (hop : IpAddr × Route) : hop ∈ (net.nodes node.id).routes ↔
      hop ∈ Node.connectedRoutes linksAddrMap node.interfaces ∨
        hop ∈ Node.otherRoutes node.interfaces := by
    rw [routes, List.mem_append, List.mem_mergeSort]
  rw [yields_iff, routed.covers_iff built listed, routed.coversLinked_iff built]
  constructor
  · rintro ⟨linked, hop, inside, reached⟩
    refine ⟨?_, fun hop configured => linked hop ((walked hop).mpr (.inr configured))⟩
    rcases (walked hop).mp inside with direct | configured
    · obtain ⟨next, matched, found⟩ := linkTowards_eq_some.mp reached
      obtain ⟨-, -, addr, -, target, last, rfl⟩ := Node.mem_connectedRoutes.mp direct
      obtain rfl : target = next := nextHop_eq matched
      have same : addr.asIpAddr = link.source ∧ target = link.target :=
        routed.eq_of_linksByAddr built listed found
      rw [towards, same.1, same.2] at last
      exact .inl (routed.lastFrom_of_lastTarget listed last)
    · exact .inr ⟨hop, configured, reached⟩
  · rintro ⟨leads, linked⟩
    refine ⟨fun hop inside => ?_, ?_⟩
    · rcases (walked hop).mp inside with direct | configured
      · exact connected hop direct
      · exact linked hop configured
    rcases leads with last | ⟨hop, configured, reached⟩
    · -- the connected route of the address leads to the target of the last link from it
      have found := (towards link.source).trans last.lastTarget_eq
      have direct := Node.mem_connectedRoutes.mpr
        ⟨interface, on, address, here, link.target, source ▸ found, rfl⟩
      refine ⟨_, (walked _).mpr (.inl direct), ?_⟩
      apply linkTowards_eq_some.mpr
      refine ⟨link.target, if_pos subnet, ?_⟩
      rw [← source]
      exact routed.linksByAddr link listed
    · exact ⟨hop, (walked hop).mpr (.inr configured), reached⟩

/-- A host with links to two neighbours from one address. -/
def twoNeighbours : NetworkSpec where
  nodes := [⟨0, 100, [⟨[⟨1, 24⟩], []⟩], 0, 0⟩, ⟨1, 100, [⟨[⟨2, 24⟩], []⟩], 0, 0⟩,
    ⟨2, 100, [⟨[⟨3, 24⟩], []⟩], 0, 0⟩]
  links := [⟨0, .v4 1, .v4 2, 10, 1000, 0, 0, 0⟩, ⟨1, .v4 1, .v4 3, 10, 1000, 0, 0, 0⟩]

theorem neighbour_yields_iff_twoNeighbours : ∃ net,
    InMemoryNetwork.initialize twoNeighbours id (fun _ size => size) = .ok net ∧
      net.Yields 0 (.v4 3) 1 := by
  have there : (⟨1, .v4 1, .v4 3, 10, 1000, 0, 0, 0⟩ : NetworkLinkSpec) ∈ twoNeighbours.links :=
    List.mem_cons_of_mem _ List.mem_cons_self
  have last : LastFrom twoNeighbours ⟨1, .v4 1, .v4 3, 10, 1000, 0, 0, 0⟩ :=
    ⟨[⟨0, .v4 1, .v4 2, 10, 1000, 0, 0, 0⟩], [], rfl, List.forall_mem_nil _⟩
  have linked : CoversLinked twoNeighbours ⟨0, 100, [⟨[⟨1, 24⟩], []⟩], 0, 0⟩ (.v4 3) := by
    rintro source next ⟨route, configured, -⟩
    cases configured
  exact ⟨_, rfl, (neighbour_yields_iff rfl List.mem_cons_self List.mem_cons_self List.mem_cons_self
    there rfl (by decide)).mpr ⟨.inl last, linked⟩⟩

/-- The host does not get to the first neighbour, but to the second one instead. -/
theorem first_neighbour_missed : ∃ net,
    InMemoryNetwork.initialize twoNeighbours id (fun _ size => size) = .ok net ∧
      (IpRange.fromCidr ⟨1, 24⟩).contains (.v4 2) = true ∧ ¬ net.Yields 0 (.v4 2) 0 ∧
      net.Yields 0 (.v4 2) 1 := by
  obtain ⟨net, made, walked⟩ : ∃ net,
      InMemoryNetwork.initialize twoNeighbours id (fun _ size => size) = .ok net ∧
        net.candidateLinks 0 (.v4 2) = .ok [1] := ⟨_, rfl, by decide +kernel⟩
  refine ⟨net, made, by decide, ?_, [1], walked, List.mem_singleton_self 1⟩
  rintro ⟨links, collected, member⟩
  rw [walked] at collected
  obtain rfl := Except.ok.inj collected
  exact absurd member (by decide)

end InMemoryNetwork

end Workbench.Network
