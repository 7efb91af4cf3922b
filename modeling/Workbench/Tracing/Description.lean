import Workbench.Library.Endings
import Workbench.Tracing.Construction

/-! Which descriptions of a network a verifier can be made for, and what it then knows of each
link: no two nodes have an address in common, and the ends of each link are addresses of
nodes. -/

set_option autoImplicit false

namespace Workbench.Tracing

open Workbench.Library Workbench.Network

/-- The node that has an address. -/
def nodeWith (nodes : List NetworkNodeSpec) (ip : IpAddr) : Option NodeId :=
  (nodes.find? fun node => node.addresses.contains ip).map (·.id)

def addressFlaw (earlier : List NetworkNodeSpec) (node : NetworkNodeSpec) : Option InvalidSpec :=
  (node.interfaces.flatMap (·.addresses)).findSome? fun addr =>
    (nodeWith earlier addr.asIpAddr).bind fun existing =>
      if existing = node.id then none else some (.addressConflict addr node.id existing)

def endsFlaw (nodes : List NetworkNodeSpec) (link : NetworkLinkSpec) : Option InvalidSpec :=
  if nodeWith nodes link.source = none then some (.unusedSource link.id link.source)
  else if nodeWith nodes link.target = none then some (.unusedTarget link.id link.target)
  else none

/-- What is wrong first with a description: its nodes come before its links. -/
def firstFlaw (spec : NetworkSpec) : Option InvalidSpec :=
  ((moments spec.nodes).findSome? fun m => addressFlaw m.1 m.2).or
    (spec.links.findSome? (endsFlaw spec.nodes))

/-- A link as the description has it. Of two links with one id, the later one counts. -/
def describedLink (spec : NetworkSpec) (l : LinkId) : Option LinkMetadata :=
  (latest (fun link => if link.id = l then some link else none) spec.links).bind fun link =>
    (nodeWith spec.nodes link.source).bind fun source =>
      (nodeWith spec.nodes link.target).map fun target =>
        ⟨source, target, link.delay, link.bandwidthBps⟩

theorem nodeWith_concat (nodes : List NetworkNodeSpec) (node : NetworkNodeSpec) (ip : IpAddr) :
    nodeWith (nodes ++ [node]) ip =
      (nodeWith nodes ip).or (if ip ∈ node.addresses then some node.id else none) := by
  unfold nodeWith
  rw [List.find?_append, Option.map_or]
  by_cases inside : ip ∈ node.addresses <;> simp [inside]

namespace SimulationVerifier

/-- The address map while the addresses of one more node are put into it. -/
structure Mapping (earlier : List NetworkNodeSpec) (nodeId : NodeId) (passed : List Ipv4Cidr)
    (ipToNode : HashMap IpAddr NodeId) : Prop where
  lookup : ∀ ip, ipToNode.lookup ip = (nodeWith earlier ip).or
    (if ip ∈ passed.map Ipv4Cidr.asIpAddr then some nodeId else none)
  agrees : ∀ ip ∈ passed.map Ipv4Cidr.asIpAddr, ∀ existing,
    nodeWith earlier ip = some existing → existing = nodeId

variable {earlier : List NetworkNodeSpec} {nodeId : NodeId} {passed : List Ipv4Cidr}
  {ipToNode filled : HashMap IpAddr NodeId} {addr : Ipv4Cidr} {steps : List SimulationStep}
  {spec : NetworkSpec} {this : SimulationVerifier}

theorem Mapping.insert (mapping : Mapping earlier nodeId passed ipToNode)
    (agrees : ∀ existing, nodeWith earlier addr.asIpAddr = some existing → existing = nodeId) :
    Mapping earlier nodeId (passed ++ [addr]) (ipToNode.insert addr.asIpAddr nodeId) := by
  refine ⟨fun ip => ?_, fun ip member => ?_⟩
  · rw [lookup_insert]
    split
    · next same =>
        subst same
        cases found : nodeWith earlier addr.asIpAddr with
        | none => simp
        | some existing => simp [agrees existing found]
    · next differs => simp [mapping.lookup, differs]
  · rw [List.map_append, List.mem_append] at member
    rcases member with old | new
    · exact mapping.agrees ip old
    · obtain rfl := List.mem_singleton.mp new
      exact agrees

theorem Mapping.address (mapping : Mapping earlier nodeId passed ipToNode) (addr : Ipv4Cidr) :
    failure? (mapAddress nodeId ipToNode addr) =
        ((nodeWith earlier addr.asIpAddr).bind fun existing =>
          if existing = nodeId then none else some (.addressConflict addr nodeId existing)) ∧
      ∀ filled, mapAddress nodeId ipToNode addr = .ok filled →
        Mapping earlier nodeId (passed ++ [addr]) filled := by
  have looked := mapping.lookup addr.asIpAddr
  unfold mapAddress
  cases found : nodeWith earlier addr.asIpAddr with
  | none =>
      have mine : ∀ existing, ipToNode.lookup addr.asIpAddr = some existing → existing = nodeId := by
        rw [looked, found]
        intro existing same
        split at same <;> simp_all
      have done : Mapping earlier nodeId (passed ++ [addr]) (ipToNode.insert addr.asIpAddr nodeId) :=
        mapping.insert (by simp [found])
      split
      · next existing held =>
          obtain rfl := mine existing held
          simp only [ne_eq, not_true_eq_false, if_false]
          exact ⟨rfl, fun filled same => Except.ok.inj same ▸ done⟩
      · exact ⟨rfl, fun filled same => Except.ok.inj same ▸ done⟩
  | some existing =>
      rw [found, Option.some_or] at looked
      rw [looked]
      by_cases same : existing = nodeId
      · have done : Mapping earlier nodeId (passed ++ [addr])
            (ipToNode.insert addr.asIpAddr nodeId) :=
          mapping.insert fun existing' found' => Option.some.inj (found.symm.trans found') ▸ same
        simp only [same, ne_eq, not_true_eq_false, if_false, Option.bind_some, if_true]
        exact ⟨rfl, fun filled same => Except.ok.inj same ▸ done⟩
      · simp only [same, ne_eq, not_false_eq_true, if_true, Option.bind_some, if_false]
        exact ⟨rfl, fun filled wrong => by cases wrong⟩

/-- The addresses of one more node, put into a map of those before it. -/
theorem mapAddresses (node : NetworkNodeSpec)
    (mapped : ∀ ip, ipToNode.lookup ip = nodeWith earlier ip) :
    failure? ((node.interfaces.flatMap (·.addresses)).foldlM (mapAddress node.id) ipToNode) =
        addressFlaw earlier node ∧
      ∀ filled, (node.interfaces.flatMap (·.addresses)).foldlM (mapAddress node.id) ipToNode =
        .ok filled → ∀ ip, filled.lookup ip = nodeWith (earlier ++ [node]) ip := by
  have start : Mapping earlier node.id [] ipToNode := ⟨by simp [mapped], by simp⟩
  refine ⟨?_, fun filled passed ip => ?_⟩
  · exact failure?_foldlM_each (fun done addr filled mapping => mapping.address addr) start
  · have done := foldlM_ok (Mapping earlier node.id) start
      (fun done filled addr filled' mapping next => (mapping.address addr).2 filled' next) passed
    rw [done.lookup, nodeWith_concat, NetworkNodeSpec.addresses, List.map_flatMap]

theorem addNodes {nodes : List NetworkNodeSpec} {init : SimulationVerifier} :
    failure? (nodes.foldlM addNode (init, ∅)) =
        ((moments nodes).findSome? fun m => addressFlaw m.1 m.2) ∧
      ∀ made, nodes.foldlM addNode (init, ∅) = .ok made →
        (∀ ip, made.2.lookup ip = nodeWith nodes ip) ∧ made.1.linkMetadata = init.linkMetadata := by
  have kept (done : List NetworkNodeSpec) (node : NetworkNodeSpec)
      (made : SimulationVerifier × HashMap IpAddr NodeId)
      (holds : (∀ ip, made.2.lookup ip = nodeWith done ip) ∧
        made.1.linkMetadata = init.linkMetadata) :
      failure? (addNode made node) = addressFlaw done node ∧
        ∀ made', addNode made node = .ok made' →
          (∀ ip, made'.2.lookup ip = nodeWith (done ++ [node]) ip) ∧
            made'.1.linkMetadata = init.linkMetadata := by
    obtain ⟨flawed, filled⟩ := mapAddresses node holds.1
    refine ⟨?_, fun made' added => ?_⟩
    · exact failure?_last flawed fun filled _ => rfl
    · obtain ⟨map, passed, rest⟩ := bind_ok added
      cases rest
      exact ⟨filled map passed, holds.2⟩
  have start : ∀ ip, (∅ : HashMap IpAddr NodeId).lookup ip = nodeWith [] ip := fun _ => rfl
  refine ⟨failure?_foldlM (List.nil_append nodes).symm (fun done node _ made _ => kept done node made)
    ⟨start, rfl⟩, fun made added => ?_⟩
  exact foldlM_ok (fun done made => (∀ ip, made.2.lookup ip = nodeWith done ip) ∧
    made.1.linkMetadata = init.linkMetadata) ⟨start, rfl⟩
      (fun done made node made' holds next => (kept done node made holds).2 made' next) added

theorem addLinks {nodes : List NetworkNodeSpec} {links : List NetworkLinkSpec}
    {init : SimulationVerifier} (mapped : ∀ ip, ipToNode.lookup ip = nodeWith nodes ip)
    (empty : init.linkMetadata = ∅) :
    failure? (links.foldlM (addLink ipToNode) init) = links.findSome? (endsFlaw nodes) ∧
      ∀ made, links.foldlM (addLink ipToNode) init = .ok made →
        ∀ l, made.linkMetadata.lookup l = describedLink ⟨nodes, links⟩ l := by
  have kept (done : List NetworkLinkSpec) (link : NetworkLinkSpec) (made : SimulationVerifier)
      (holds : ∀ l, made.linkMetadata.lookup l = describedLink ⟨nodes, done⟩ l) :
      failure? (addLink ipToNode made link) = endsFlaw nodes link ∧
        ∀ made', addLink ipToNode made link = .ok made' →
          ∀ l, made'.linkMetadata.lookup l = describedLink ⟨nodes, done ++ [link]⟩ l := by
    unfold addLink endsFlaw
    rw [mapped, mapped]
    cases source : nodeWith nodes link.source with
    | none => exact ⟨rfl, fun made' added => by cases added⟩
    | some sourceId =>
        cases target : nodeWith nodes link.target with
        | none => exact ⟨rfl, fun made' added => by cases added⟩
        | some targetId =>
            refine ⟨rfl, fun made' added l => ?_⟩
            cases added
            rw [lookup_insert, describedLink, latest_concat]
            by_cases same : link.id = l
            · simp [same, source, target]
            · simp only [same, Ne.symm same, if_false, Option.none_or]
              exact holds l
  have start : ∀ l, init.linkMetadata.lookup l = describedLink ⟨nodes, []⟩ l := by
    rw [empty]
    exact fun _ => rfl
  refine ⟨failure?_foldlM_each kept start, fun made added => ?_⟩
  exact foldlM_ok (fun done made => ∀ l, made.linkMetadata.lookup l = describedLink ⟨nodes, done⟩ l)
    start (fun done made link made' holds next => (kept done link made holds).2 made' next) added

theorem new_described (made : SimulationVerifier.new steps spec = .ok this) (l : LinkId) :
    this.linkMetadata.lookup l = describedLink spec l := by
  obtain ⟨first, added, linked⟩ := bind_ok made
  obtain ⟨-, mapped⟩ := @addNodes spec.nodes ⟨sortSteps steps, ∅, ∅, ∅, ∅, ∅⟩
  exact (addLinks (mapped first added).1 (mapped first added).2).2 this linked l

theorem new_failure (steps : List SimulationStep) (spec : NetworkSpec) :
    failure? (SimulationVerifier.new steps spec) = firstFlaw spec := by
  obtain ⟨noded, mapped⟩ := @addNodes spec.nodes ⟨sortSteps steps, ∅, ∅, ∅, ∅, ∅⟩
  exact failure?_bind noded fun made added => (addLinks (mapped made added).1 (mapped made added).2).1

/-- A verifier is made for any description but a flawed one, whatever its steps, and has the
links as the description does. -/
theorem new_exact (steps : List SimulationStep) (spec : NetworkSpec) :
    (∀ flaw, SimulationVerifier.new steps spec = .error flaw ↔ firstFlaw spec = some flaw) ∧
      ((∃ this, SimulationVerifier.new steps spec = .ok this) ↔ firstFlaw spec = none) ∧
      ∀ this, SimulationVerifier.new steps spec = .ok this →
        ∀ l, this.linkMetadata.lookup l = describedLink spec l := by
  have flawed := new_failure steps spec
  refine ⟨fun flaw => ?_, ?_, fun this made => new_described made⟩
  · rw [← flawed, failure?_eq_some]
  · rw [← flawed, failure?_eq_none]

end SimulationVerifier

end Workbench.Tracing
