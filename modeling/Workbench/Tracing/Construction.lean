import Workbench.Tracing.History

/-! Verifiers as they are made for a network: every node new, every link up, and of
each link the nodes and the numbers that the network's description gives it. -/

set_option autoImplicit false

namespace Workbench.Tracing

open Workbench.Library Workbench.Network

theorem sortSteps_sorted (steps : List SimulationStep) :
    ((sortSteps steps).map (·.relativeTime)).Pairwise (· ≤ ·) := by
  unfold sortSteps
  split
  · assumption
  · rw [List.pairwise_map]
    refine List.Pairwise.imp ?_ (List.pairwise_mergeSort ?_ ?_ steps)
    · intro a b before
      simpa using before
    · intro a b c
      simp only [decide_eq_true_eq]
      omega
    · intro a b
      simp only [Bool.or_eq_true, decide_eq_true_eq]
      omega

/-- A node of the network has the address. -/
def HasAddress (spec : NetworkSpec) (n : NodeId) (ip : IpAddr) : Prop :=
  ∃ node ∈ spec.nodes, node.id = n ∧ ip ∈ node.addresses

/-- A link of the network as its description has it: from a node to another one, with
a delay and a bandwidth. -/
def Describes (spec : NetworkSpec) (l : LinkId) (metadata : LinkMetadata) : Prop :=
  ∃ link ∈ spec.links, link.id = l ∧ HasAddress spec metadata.sourceNodeId link.source ∧
    HasAddress spec metadata.targetNodeId link.target ∧ metadata.delay = link.delay ∧
    metadata.bandwidthBps = link.bandwidthBps

namespace SimulationVerifier

/-- A verifier as it is made for a network. -/
structure Made (this : SimulationVerifier) (spec : NetworkSpec) : Prop where
  nodes : ∀ n node, this.nodes.lookup n = some node → node = .new n
  links : ∀ l link, this.links.lookup l = some link → link = .new
  inFlight : this.inFlightPackets = ∅
  nodeIds : ∀ n, n ∈ this.nodes ↔ ∃ node ∈ spec.nodes, node.id = n
  linkIds : ∀ l, l ∈ this.links ↔ ∃ link ∈ spec.links, link.id = l
  nodeMetadata : ∀ n, n ∈ this.nodes → n ∈ this.nodeMetadata
  linkKnown : ∀ l, l ∈ this.linkMetadata ↔ l ∈ this.links
  linkMetadata : ∀ l metadata, this.linkMetadata.lookup l = some metadata →
    Describes spec l metadata

variable {this next : SimulationVerifier}

/-- The verifier after some nodes of the network. -/
structure NodesAdded (steps : List SimulationStep) (done : List NetworkNodeSpec)
    (made : SimulationVerifier × HashMap IpAddr NodeId) : Prop where
  steps : made.1.steps = steps
  nodes : ∀ n node, made.1.nodes.lookup n = some node → node = .new n
  nodeIds : ∀ n, n ∈ made.1.nodes ↔ ∃ node ∈ done, node.id = n
  nodeMetadata : ∀ n, n ∈ made.1.nodes → n ∈ made.1.nodeMetadata
  links : made.1.links = ∅
  linkMetadata : made.1.linkMetadata = ∅
  inFlight : made.1.inFlightPackets = ∅
  mapped : ∀ ip n, made.2.lookup ip = some n → ∃ node ∈ done, node.id = n ∧ ip ∈ node.addresses

theorem mapAddress_lookup {nodeId n : NodeId} {ipToNode filled : HashMap IpAddr NodeId}
    {addr : Ipv4Cidr} {ip : IpAddr} (mapped : mapAddress nodeId ipToNode addr = .ok filled)
    (found : filled.lookup ip = some n) :
    ipToNode.lookup ip = some n ∨ n = nodeId ∧ ip = addr.asIpAddr := by
  have inserted : filled = ipToNode.insert addr.asIpAddr nodeId := by
    unfold mapAddress at mapped
    split at mapped
    · split at mapped
      · cases mapped
      · exact (Except.ok.inj mapped).symm
    · exact (Except.ok.inj mapped).symm
  rcases of_lookup_insert (inserted ▸ found) with ⟨same, rfl⟩ | ⟨-, found⟩
  · exact .inr ⟨rfl, same⟩
  · exact .inl found

theorem NodesAdded.addNode {steps : List SimulationStep} {done : List NetworkNodeSpec}
    {made made' : SimulationVerifier × HashMap IpAddr NodeId} {node : NetworkNodeSpec}
    (before : NodesAdded steps done made) (added : addNode made node = .ok made') :
    NodesAdded steps (done ++ [node]) made' := by
  obtain ⟨filled, passed, rest⟩ := bind_ok added
  cases rest
  refine ⟨before.steps, fun n node' found => ?_, fun n => ?_, fun n inside => ?_, before.links,
    before.linkMetadata, before.inFlight, fun ip n found => ?_⟩
  · rcases of_lookup_insert found with ⟨rfl, rfl⟩ | ⟨-, found⟩
    · rfl
    · exact before.nodes n node' found
  · rw [AList.mem_insert, before.nodeIds]
    simp [or_and_right, exists_or, or_comm, eq_comm]
  · rcases (AList.mem_insert _).mp inside with rfl | inside
    · exact (AList.mem_insert _).mpr (.inl rfl)
    · exact (AList.mem_insert _).mpr (.inr (before.nodeMetadata n inside))
  · have origin := foldlM_ok
      (fun passed filled => ∀ ip n, filled.lookup ip = some n →
        made.2.lookup ip = some n ∨ n = node.id ∧ ip ∈ passed.map Ipv4Cidr.asIpAddr)
      (fun _ _ found => .inl found)
      (fun passed filled addr filled' holds mapped ip n found => by
        rcases mapAddress_lookup mapped found with old | ⟨same, here⟩
        · rcases holds ip n old with old | ⟨same, inside⟩
          · exact .inl old
          · exact .inr ⟨same, by simp [inside]⟩
        · exact .inr ⟨same, by simp [here]⟩) passed ip n found
    rcases origin with old | ⟨rfl, inside⟩
    · obtain ⟨node', member, rest⟩ := before.mapped ip n old
      exact ⟨node', List.mem_append_left _ member, rest⟩
    · refine ⟨node, by simp, rfl, ?_⟩
      rwa [List.map_flatMap] at inside

/-- The verifier after all nodes and some links of the network. -/
structure LinksAdded (spec : NetworkSpec) (first : SimulationVerifier)
    (done : List NetworkLinkSpec) (made : SimulationVerifier) : Prop where
  steps : made.steps = first.steps
  nodes : made.nodes = first.nodes
  nodeMetadata : made.nodeMetadata = first.nodeMetadata
  inFlight : made.inFlightPackets = first.inFlightPackets
  links : ∀ l link, made.links.lookup l = some link → link = .new
  linkIds : ∀ l, l ∈ made.links ↔ ∃ link ∈ done, link.id = l
  linkKnown : ∀ l, l ∈ made.linkMetadata ↔ l ∈ made.links
  linkMetadata : ∀ l metadata, made.linkMetadata.lookup l = some metadata →
    Describes ⟨spec.nodes, done⟩ l metadata

theorem LinksAdded.addLink {spec : NetworkSpec} {first made made' : SimulationVerifier}
    {done : List NetworkLinkSpec} {ipToNode : HashMap IpAddr NodeId} {link : NetworkLinkSpec}
    (mapped : ∀ ip n, ipToNode.lookup ip = some n → HasAddress spec n ip)
    (before : LinksAdded spec first done made) (added : addLink ipToNode made link = .ok made') :
    LinksAdded spec first (done ++ [link]) made' := by
  unfold SimulationVerifier.addLink at added
  split at added
  · cases added
  · cases added
  · next sourceId targetId source target =>
      cases added
      refine ⟨before.steps, before.nodes, before.nodeMetadata, before.inFlight,
        fun l link' found => ?_, fun l => ?_, fun l => ?_, fun l metadata found => ?_⟩
      · rcases of_lookup_insert found with ⟨-, rfl⟩ | ⟨-, found⟩
        · rfl
        · exact before.links l link' found
      · rw [AList.mem_insert, before.linkIds]
        simp [or_and_right, exists_or, or_comm, eq_comm]
      · rw [AList.mem_insert, AList.mem_insert, before.linkKnown]
      · rcases of_lookup_insert found with ⟨rfl, rfl⟩ | ⟨-, found⟩
        · exact ⟨link, by simp, rfl, mapped _ _ source, mapped _ _ target, rfl, rfl⟩
        · obtain ⟨link', member, rest⟩ := before.linkMetadata l metadata found
          exact ⟨link', List.mem_append_left _ member, rest⟩

theorem sortSteps_of_sorted {steps : List SimulationStep}
    (sorted : (steps.map (·.relativeTime)).Pairwise (· ≤ ·)) : sortSteps steps = steps :=
  if_pos sorted

theorem new_made {steps : List SimulationStep} {spec : NetworkSpec}
    (made : SimulationVerifier.new steps spec = .ok this) :
    this.Made spec ∧ this.steps = sortSteps steps := by
  obtain ⟨first, noded, linked⟩ := bind_ok made
  have nodes := foldlM_ok (NodesAdded (sortSteps steps))
    ⟨rfl, by simp, by simp, by simp, rfl, rfl, rfl, by simp⟩
    (fun _ _ _ _ before added => before.addNode added) noded
  have links := foldlM_ok (LinksAdded spec first.1)
    ⟨rfl, rfl, rfl, rfl, by simp [nodes.links], by simp [nodes.links],
      by simp [nodes.links, nodes.linkMetadata], by simp [nodes.linkMetadata]⟩
    (fun _ _ _ _ before added => before.addLink nodes.mapped added) linked
  refine ⟨⟨?_, links.links, ?_, ?_, links.linkIds, ?_, links.linkKnown, links.linkMetadata⟩, ?_⟩
  · rw [links.nodes]
    exact nodes.nodes
  · rw [links.inFlight]
    exact nodes.inFlight
  · rw [links.nodes]
    exact nodes.nodeIds
  · rw [links.nodes, links.nodeMetadata]
    exact nodes.nodeMetadata
  · rw [links.steps]
    exact nodes.steps

theorem Made.mirrors {spec : NetworkSpec} (made : this.Made spec) :
    (Replay.start this).Mirrors [] where
  nodes n node found := by
    obtain rfl := made.nodes n node found
    exact ⟨rfl, rfl, fun _ => rfl⟩
  links l link found := by
    obtain rfl := made.links l link found
    exact ⟨rfl, rfl⟩
  flights id := by
    have empty : (Replay.start this).inFlightPackets = ∅ := made.inFlight
    rw [Replay.flight, empty]
    rfl
  sizes n node found := by
    obtain rfl := made.nodes n node found
    exact fun _ => rfl

/-- A verification that goes through replays its steps and brings the buffer usage up to date. -/
theorem verify_yields {order : Option Nat → List NodeId} {stats : SimulationStats} :
    (this.verify order).Yields stats ↔ ∃ replay final,
      ((Replay.start { this with steps := [] }).replaySteps order this.steps).Yields replay ∧
      (replay.finish order).Yields final ∧ stats = final.stats := by
  simp only [verify, Tracked.yields_bind, Tracked.yields_pure, eq_comm (b := stats)]
  constructor
  · rintro ⟨replay, replayed, final, finished, same⟩
    exact ⟨replay, final, replayed, finished, same⟩
  · rintro ⟨replay, final, replayed, finished, same⟩
    exact ⟨replay, replayed, final, finished, same⟩

theorem Made.start_mirrors {spec : NetworkSpec} (made : this.Made spec) :
    (Replay.start { this with steps := [] }).Mirrors [] := by
  have mirrors := made.mirrors
  exact ⟨mirrors.nodes, mirrors.links, mirrors.flights, mirrors.sizes⟩

/-- In a verification without errors every step is replayed, without an error, by a
replay that knows the steps before it. -/
theorem verify_at {spec : NetworkSpec} {order : Option Nat → List NodeId} {stats : SimulationStats}
    {before after : List SimulationStep} {step : SimulationStep} (made : this.Made spec)
    (clean : (this.verify order).Clean stats) (split : this.steps = before ++ step :: after) :
    ∃ replay next : Replay, replay.Mirrors before ∧ replay.linkMetadata = this.linkMetadata ∧
      (replay.replayKind step.relativeTime step.kind).Clean next := by
  obtain ⟨final, replayed, -⟩ := Tracked.clean_bind.mp clean
  rw [Replay.replaySteps, split, Tracked.clean_foldlM_append] at replayed
  obtain ⟨middle, first, rest⟩ := replayed
  obtain ⟨next, replayed, -⟩ := Tracked.clean_foldlM_cons.mp rest
  obtain ⟨mirrors, metadata⟩ := Replay.replaySteps_mirrors made.start_mirrors first.yields
  obtain ⟨started, start, kind⟩ := Tracked.clean_bind.mp replayed
  have sampled := Replay.startTime_sampled start.yields
  exact ⟨started, next, mirrors.sampled sampled, sampled.linkMetadata.trans metadata, kind⟩

end SimulationVerifier

end Workbench.Tracing
