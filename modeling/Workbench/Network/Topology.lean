import Workbench.Network.Initialize

/-! What `initialize` makes of the description of a network: every node and link of
it under its id, and every address of a node. -/

set_option autoImplicit false

namespace Workbench.Network

open Workbench.Library

theorem Node.new_ok {spec : NetworkNodeSpec} {linksAddrMap : HashMap IpAddr IpAddr} {node : Node}
    (made : Node.new spec linksAddrMap = .ok node) :
    node.addresses = spec.addresses ∧ spec.addresses.head? = some node.canonicalAddress ∧
      node.bufferSizeBytes = spec.bufferSizeBytes := by
  unfold Node.new at made
  split at made
  · cases made
  · cases made
  · cases made
  · next same _ _ =>
      obtain rfl := Except.ok.inj made
      exact ⟨same.symm, by rw [same, List.head?_cons], rfl⟩

namespace Directory

variable {this next : Directory}

/-- A directory with some links of a description, and no nodes yet. -/
structure HasLinks (this : Directory) (done : List NetworkLinkSpec) : Prop where
  known : ∀ l, l ∈ this.linksById ↔ ∃ link ∈ done, link.id = l
  links : ∀ link ∈ done, this.linksById.lookup link.id = some (.new link)
  byAddr : ∀ a b l, this.linksByAddr.lookup (a, b) = some l →
    ∃ link ∈ done, link.id = l ∧ link.source = a ∧ link.target = b
  noNodes : this.nodesById = ∅
  noAddresses : this.nodesByAddr = ∅

theorem HasLinks.addLink {done : List NetworkLinkSpec} {link : NetworkLinkSpec}
    (before : this.HasLinks done) (added : this.addLink link = .ok next) :
    next.HasLinks (done ++ [link]) := by
  unfold Directory.addLink at added
  split at added
  · cases added
  split at added
  · cases added
  next fresh =>
  obtain rfl := Except.ok.inj added
  refine ⟨fun l => ?_, fun l member => ?_, fun a b l found => ?_, before.noNodes, before.noAddresses⟩
  · rw [AList.mem_insert, before.known]
    simp [or_and_right, exists_or, or_comm, eq_comm]
  · rw [lookup_insert]
    rcases List.mem_append.mp member with old | new
    · have known := (before.known l.id).mpr ⟨l, old, rfl⟩
      rw [if_neg fun same : l.id = link.id => fresh (same ▸ known)]
      exact before.links l old
    · rw [List.mem_singleton.mp new, if_pos rfl]
  · rcases of_lookup_insert found with ⟨same, rfl⟩ | ⟨-, found⟩
    · obtain ⟨rfl, rfl⟩ := Prod.mk.inj same
      exact ⟨link, by simp, rfl, rfl, rfl⟩
    · obtain ⟨link', member, rest⟩ := before.byAddr a b l found
      exact ⟨link', List.mem_append_left _ member, rest⟩

/-- A directory with all links of a description, and some of its nodes. -/
structure HasNodes (links this : Directory) (done : List NetworkNodeSpec) : Prop where
  known : ∀ n, n ∈ this.nodesById ↔ ∃ node ∈ done, node.id = n
  nodes : ∀ node ∈ done, ∃ built, Node.new node links.linksAddrMap = .ok built ∧
    this.nodesById.lookup node.id = some built
  byAddr : ∀ a n, this.nodesByAddr.lookup a = some n → ∃ node ∈ done, node.id = n ∧ a ∈ node.addresses
  linksAddrMap : this.linksAddrMap = links.linksAddrMap
  linksById : this.linksById = links.linksById
  linksByAddr : this.linksByAddr = links.linksByAddr

/-- The addresses of a node are mapped to it, none of them to another node before. -/
theorem addAddresses_ok {n m : NodeId} {addresses : List IpAddr}
    {before filled : HashMap IpAddr NodeId}
    (added : addresses.foldlM (addAddress n) before = .ok filled) {a : IpAddr}
    (found : filled.lookup a = some m) : before.lookup a = some m ∨ m = n ∧ a ∈ addresses := by
  refine foldlM_ok (fun done filled => ∀ m, filled.lookup a = some m →
    before.lookup a = some m ∨ m = n ∧ a ∈ done) (fun m found => .inl found) ?_ added m found
  intro done filled address filled' holds added m found
  unfold addAddress at added
  split at added
  · cases added
  · obtain rfl := Except.ok.inj added
    rcases of_lookup_insert found with ⟨same, rfl⟩ | ⟨-, found⟩
    · exact .inr ⟨rfl, by simp [same]⟩
    · rcases holds m found with old | ⟨same, inside⟩
      · exact .inl old
      · exact .inr ⟨same, List.mem_append_left _ inside⟩

theorem HasNodes.addNode {links : Directory} {done : List NetworkNodeSpec} {node : NetworkNodeSpec}
    (before : HasNodes links this done) (added : this.addNode node = .ok next) :
    HasNodes links next (done ++ [node]) := by
  obtain ⟨built, made, added⟩ := bind_ok added
  obtain ⟨nodesByAddr, mapped, added⟩ := bind_ok added
  split at added
  · cases added
  next fresh =>
  obtain rfl := Except.ok.inj added
  refine ⟨fun n => ?_, fun other member => ?_, fun a n found => ?_, before.linksAddrMap,
    before.linksById, before.linksByAddr⟩
  · rw [AList.mem_insert, before.known]
    simp [or_and_right, exists_or, or_comm, eq_comm]
  · rw [lookup_insert]
    rcases List.mem_append.mp member with old | new
    · have known := (before.known other.id).mpr ⟨other, old, rfl⟩
      rw [if_neg fun same : other.id = node.id => fresh (same ▸ known)]
      exact before.nodes other old
    · rw [List.mem_singleton.mp new, if_pos rfl]
      exact ⟨built, before.linksAddrMap ▸ made, rfl⟩
  · rcases addAddresses_ok mapped found with old | ⟨rfl, inside⟩
    · obtain ⟨other, member, rest⟩ := before.byAddr a n old
      exact ⟨other, List.mem_append_left _ member, rest⟩
    · exact ⟨node, by simp, rfl, (Node.new_ok made).1 ▸ inside⟩

end Directory

namespace InMemoryNetwork

/-- A network as `initialize` builds it from a description. -/
structure Built (net : InMemoryNetwork) (spec : NetworkSpec) : Prop where
  nodeIds : ∀ n, n ∈ net.nodeIds ↔ ∃ node ∈ spec.nodes, node.id = n
  linkIds : ∀ l, l ∈ net.linkIds ↔ ∃ link ∈ spec.links, link.id = l
  nodes : ∀ node ∈ spec.nodes, ∃ linksAddrMap,
    Node.new node linksAddrMap = .ok (net.nodes node.id)
  links : ∀ link ∈ spec.links, net.links link.id = .new link
  nodesByAddr : ∀ a n, net.nodesByAddr a = some n →
    ∃ node ∈ spec.nodes, node.id = n ∧ a ∈ node.addresses
  linksByAddr : ∀ a b l, net.linksByAddr a b = some l →
    ∃ link ∈ spec.links, link.id = l ∧ link.source = a ∧ link.target = b

theorem initialized_uuids {spec : NetworkSpec} {uuids : Nat → Uuid} {packetDelay : Nat → Nat → Nat}
    {net : InMemoryNetwork} (accepted : InMemoryNetwork.initialize spec uuids packetDelay = .ok net) :
    net.uuids = uuids := by
  obtain ⟨linked, -, accepted⟩ := bind_ok accepted
  split at accepted
  · cases accepted
  obtain ⟨directory, -, accepted⟩ := bind_ok accepted
  obtain rfl := Except.ok.inj accepted
  rfl

/-- No link is in the network twice. -/
theorem initialized_nodup {spec : NetworkSpec} {uuids : Nat → Uuid} {packetDelay : Nat → Nat → Nat}
    {net : InMemoryNetwork} (accepted : InMemoryNetwork.initialize spec uuids packetDelay = .ok net) :
    net.linkIds.Nodup := by
  obtain ⟨linked, -, accepted⟩ := bind_ok accepted
  split at accepted
  · cases accepted
  obtain ⟨directory, -, accepted⟩ := bind_ok accepted
  obtain rfl := Except.ok.inj accepted
  exact AList.keys_nodup _

theorem initialized_built {spec : NetworkSpec} {uuids : Nat → Uuid} {packetDelay : Nat → Nat → Nat}
    {net : InMemoryNetwork} (accepted : InMemoryNetwork.initialize spec uuids packetDelay = .ok net) :
    net.Built spec := by
  obtain ⟨linked, passed, accepted⟩ := bind_ok accepted
  have links := foldlM_ok (fun done directory => Directory.HasLinks directory done)
    ⟨by simp [Directory.new], by simp, by simp [Directory.new], rfl, rfl⟩
    (fun _ _ _ _ before added => before.addLink added) passed
  split at accepted
  · cases accepted
  obtain ⟨directory, passed, accepted⟩ := bind_ok accepted
  obtain rfl := Except.ok.inj accepted
  have nodes := foldlM_ok (fun done directory => Directory.HasNodes linked directory done)
    ⟨by simp [links.noNodes], by simp, by simp [links.noAddresses], rfl, rfl, rfl⟩
    (fun _ _ _ _ before added => before.addNode added) passed
  refine ⟨fun n => ?_, fun l => ?_, fun node member => ?_, fun link member => ?_, nodes.byAddr,
    fun a b l found => ?_⟩
  · exact (AList.mem_keys.symm.trans (nodes.known n))
  · dsimp only
    rw [nodes.linksById]
    exact (AList.mem_keys.symm.trans (links.known l))
  · obtain ⟨built, made, found⟩ := nodes.nodes node member
    refine ⟨linked.linksAddrMap, ?_⟩
    dsimp only
    rw [made, found]
    rfl
  · dsimp only
    rw [nodes.linksById, links.links link member]
    rfl
  · dsimp only at found
    rw [nodes.linksByAddr] at found
    exact links.byAddr a b l found

/-- Addresses that are mapped stay mapped to the same node, and new ones are mapped to theirs. -/
theorem addAddresses_owned {n : NodeId} {addresses : List IpAddr}
    {before filled : HashMap IpAddr NodeId}
    (added : addresses.foldlM (Directory.addAddress n) before = .ok filled) :
    (∀ a m, before.lookup a = some m → filled.lookup a = some m) ∧
      ∀ a ∈ addresses, filled.lookup a = some n := by
  refine foldlM_ok (fun done filled => (∀ a m, before.lookup a = some m → filled.lookup a = some m) ∧
    ∀ a ∈ done, filled.lookup a = some n) ⟨fun _ _ found => found, List.forall_mem_nil _⟩ ?_ added
  intro done filled address filled' ⟨kept, owned⟩ added
  unfold Directory.addAddress at added
  split at added
  · cases added
  next free =>
  obtain rfl := Except.ok.inj added
  have stays (a : IpAddr) (m : NodeId) (found : filled.lookup a = some m) :
      (filled.insert address n).lookup a = some m := by
    have other : a ≠ address := by
      rintro rfl
      cases found.symm.trans free
    rw [lookup_insert, if_neg other]
    exact found
  refine ⟨fun a m found => stays a m (kept a m found), fun a member => ?_⟩
  rcases List.mem_append.mp member with old | new
  · exact stays a n (owned a old)
  · rw [lookup_insert, if_pos (List.mem_singleton.mp new)]

/-- Every address of a description is mapped to its node. -/
theorem initialized_owned {spec : NetworkSpec} {uuids : Nat → Uuid} {packetDelay : Nat → Nat → Nat}
    {net : InMemoryNetwork} (accepted : InMemoryNetwork.initialize spec uuids packetDelay = .ok net)
    {node : NetworkNodeSpec} (member : node ∈ spec.nodes) {a : IpAddr} (owns : a ∈ node.addresses) :
    net.nodesByAddr a = some node.id := by
  obtain ⟨linked, -, accepted⟩ := bind_ok accepted
  split at accepted
  · cases accepted
  obtain ⟨directory, passed, accepted⟩ := bind_ok accepted
  obtain rfl := Except.ok.inj accepted
  refine foldlM_ok (fun done directory => ∀ node ∈ done, ∀ a ∈ node.addresses,
    directory.nodesByAddr.lookup a = some node.id) (List.forall_mem_nil _) ?_ passed node member a owns
  intro done directory node directory' holds added other inside a owns
  obtain ⟨built, made, added⟩ := bind_ok added
  obtain ⟨nodesByAddr, mapped, added⟩ := bind_ok added
  split at added
  · cases added
  obtain rfl := Except.ok.inj added
  obtain ⟨kept, owned⟩ := addAddresses_owned mapped
  rcases List.mem_append.mp inside with old | new
  · exact kept a other.id (holds other old a owns)
  · obtain rfl := List.mem_singleton.mp new
    exact owned a ((Node.new_ok made).1 ▸ owns)

/-- No two nodes have the same canonical address. -/
theorem initialized_canonicalAddress {spec : NetworkSpec} {uuids : Nat → Uuid}
    {packetDelay : Nat → Nat → Nat} {net : InMemoryNetwork}
    (accepted : InMemoryNetwork.initialize spec uuids packetDelay = .ok net) {a b : NodeId}
    (first : a ∈ net.nodeIds) (second : b ∈ net.nodeIds)
    (same : (net.nodes a).canonicalAddress = (net.nodes b).canonicalAddress) : a = b := by
  have built := initialized_built accepted
  have owner (n : NodeId) (known : n ∈ net.nodeIds) :
      net.nodesByAddr (net.nodes n).canonicalAddress = some n := by
    obtain ⟨node, member, rfl⟩ := (built.nodeIds n).mp known
    obtain ⟨linksAddrMap, made⟩ := built.nodes node member
    exact initialized_owned accepted member (List.mem_of_mem_head? (Node.new_ok made).2.1)
  exact Option.some.inj ((owner a first).symm.trans (same ▸ owner b second))

end InMemoryNetwork

end Workbench.Network
