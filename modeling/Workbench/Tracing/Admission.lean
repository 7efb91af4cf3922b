import Workbench.Network.Neighbours
import Workbench.Tracing.Description
import Workbench.Tracing.Following

/-! Which descriptions `initialize` accepts, what it finds fault with first in the others, and
which of the accepted ones a verifier cannot be made for. -/

set_option autoImplicit false

namespace Workbench.Network

open Workbench.Library Workbench.Tracing

/-- The link from an address to another one. -/
def linkBetween (links : List NetworkLinkSpec) (source target : IpAddr) : Option LinkId :=
  (links.find? fun link => link.source = source ∧ link.target = target).map (·.id)

/-- What a link has in common with one before it. -/
def linkClash (earlier : List NetworkLinkSpec) (link : NetworkLinkSpec) : Option InvalidNetwork :=
  match linkBetween earlier link.source link.target with
  | some existing => some (.addressPairTaken link.id existing link.source link.target)
  | none => if link.id ∈ earlier.map (·.id) then some (.linkIdTaken link.id) else none

/-- The node lacks what its canonical address is taken from. -/
def interfaceClash (node : NetworkNodeSpec) : Option InvalidNetwork :=
  match node.interfaces with
  | [] => some (.noInterfaces node.id)
  | first :: _ => if first.addresses = [] then some (.noAddress node.id) else none

/-- The node that an address belongs to, when a node is added and has some of its addresses. -/
def ownerSoFar (earlier : List NetworkNodeSpec) (node : NodeId) (passed : List IpAddr) (a : IpAddr) :
    Option NodeId :=
  (nodeWith earlier a).or (if a ∈ passed then some node else none)

def addressClash (earlier : List NetworkNodeSpec) (node : NetworkNodeSpec) : Option InvalidNetwork :=
  (moments node.addresses).findSome? fun m =>
    (ownerSoFar earlier node.id m.1 m.2).map fun existing => .addressTaken node.id existing m.2

/-- What a node lacks, or has in common with one before it. -/
def nodeClash (earlier : List NetworkNodeSpec) (node : NetworkNodeSpec) : Option InvalidNetwork :=
  (interfaceClash node).or <| (addressClash earlier node).or <|
    if node.id ∈ earlier.map (·.id) then some (.nodeIdTaken node.id) else none

/-- What is wrong first with a description: the links come before the nodes. -/
def firstClash (spec : NetworkSpec) : Option InvalidNetwork :=
  ((moments spec.links).findSome? fun m => linkClash m.1 m.2).or <|
    if spec.nodes.length < 2 then some (.tooFewNodes spec.nodes.length)
    else (moments spec.nodes).findSome? fun m => nodeClash m.1 m.2

variable {this next : Directory} {spec : NetworkSpec} {links : List NetworkLinkSpec}
  {nodes : List NetworkNodeSpec} {node : NetworkNodeSpec} {link : NetworkLinkSpec}

theorem linkBetween_concat (source target : IpAddr) : linkBetween (links ++ [link]) source target =
    (linkBetween links source target).or
      (if link.source = source ∧ link.target = target then some link.id else none) := by
  unfold linkBetween
  rw [List.find?_append, Option.map_or]
  by_cases here : link.source = source ∧ link.target = target <;> simp [here]

namespace Directory

/-- A directory with some links of a description, under their ids and between their addresses. -/
structure Charts (this : Directory) (done : List NetworkLinkSpec) : Prop where
  between : ∀ source target, this.linksByAddr.lookup (source, target) = linkBetween done source target
  known : ∀ l, l ∈ this.linksById ↔ l ∈ done.map (·.id)
  noNodes : this.nodesById = ∅
  noAddresses : this.nodesByAddr = ∅

theorem Charts.new : Directory.new.Charts [] :=
  ⟨fun _ _ => rfl, fun l => by simp [Directory.new], rfl, rfl⟩

/-- A link is added unless it clashes with one before it. -/
theorem Charts.addLink (charts : this.Charts links) :
    failure? (this.addLink link) = linkClash links link ∧
      ∀ next, this.addLink link = .ok next → next.Charts (links ++ [link]) := by
  unfold Directory.addLink linkClash
  rw [charts.between]
  cases taken : linkBetween links link.source link.target with
  | some existing => exact ⟨rfl, nofun⟩
  | none =>
      dsimp only
      by_cases taken' : link.id ∈ this.linksById
      · rw [if_pos taken', if_pos ((charts.known _).mp taken')]
        exact ⟨rfl, nofun⟩
      rw [if_neg taken', if_neg (mt (charts.known _).mpr taken')]
      refine ⟨rfl, fun next added => ?_⟩
      obtain rfl := Except.ok.inj added
      refine ⟨fun source target => ?_, fun l => ?_, charts.noNodes, charts.noAddresses⟩
      · rw [lookup_insert, linkBetween_concat, charts.between]
        by_cases here : link.source = source ∧ link.target = target
        · obtain ⟨rfl, rfl⟩ := here
          simp [taken]
        · have differs : ¬ (source, target) = (link.source, link.target) := by
            intro same
            obtain ⟨rfl, rfl⟩ := Prod.mk.inj same
            exact here ⟨rfl, rfl⟩
          simp [differs, here]
      · rw [AList.mem_insert, charts.known, List.map_append, List.mem_append, List.map_singleton,
          List.mem_singleton, or_comm]

/-- A directory with some nodes of a description, under their ids and addresses. -/
structure Settles (this : Directory) (done : List NetworkNodeSpec) : Prop where
  owner : ∀ a, this.nodesByAddr.lookup a = nodeWith done a
  known : ∀ n, n ∈ this.nodesById ↔ n ∈ done.map (·.id)

/-- The addresses of a node are added unless one is taken. -/
theorem addAddresses_failure (node : NetworkNodeSpec) {nodesByAddr : HashMap IpAddr NodeId}
    (owner : ∀ a, nodesByAddr.lookup a = nodeWith nodes a) :
    failure? (node.addresses.foldlM (addAddress node.id) nodesByAddr) = addressClash nodes node ∧
      ∀ filled, node.addresses.foldlM (addAddress node.id) nodesByAddr = .ok filled →
        ∀ a, filled.lookup a = nodeWith (nodes ++ [node]) a := by
  have kept (passed : List IpAddr) (address : IpAddr) (filled : HashMap IpAddr NodeId)
      (sofar : ∀ a, filled.lookup a = ownerSoFar nodes node.id passed a) :
      failure? (addAddress node.id filled address) =
          (ownerSoFar nodes node.id passed address).map (.addressTaken node.id · address) ∧
        ∀ filled', addAddress node.id filled address = .ok filled' →
          ∀ a, filled'.lookup a = ownerSoFar nodes node.id (passed ++ [address]) a := by
    unfold addAddress
    rw [sofar address]
    cases taken : ownerSoFar nodes node.id passed address with
    | some existing => exact ⟨rfl, nofun⟩
    | none =>
        refine ⟨rfl, fun filled' added a => ?_⟩
        obtain rfl := Except.ok.inj added
        rw [lookup_insert, sofar a]
        unfold ownerSoFar at taken ⊢
        by_cases here : a = address
        · subst here
          have free : nodeWith nodes a = none := (Option.or_eq_none_iff.mp taken).1
          simp [free]
        · simp [here]
  have start (a : IpAddr) : nodesByAddr.lookup a = ownerSoFar nodes node.id [] a := by
    simp [ownerSoFar, owner]
  constructor
  · exact failure?_foldlM (List.nil_append _).symm (fun passed a _ filled _ => kept passed a filled) start
  · intro filled added a
    have done := foldlM_ok (fun passed filled => ∀ a, filled.lookup a = ownerSoFar nodes node.id passed a)
      start (fun passed filled address filled' sofar next => (kept passed address filled sofar).2 filled' next)
      added
    rw [done a, nodeWith_concat, ownerSoFar]

theorem interface_failure (linksAddrMap : HashMap IpAddr IpAddr) :
    failure? (Node.new node linksAddrMap) = interfaceClash node := by
  unfold Node.new interfaceClash
  cases interfaces : node.interfaces with
  | nil => rfl
  | cons first rest =>
      obtain ⟨addresses, routes⟩ := first
      cases addresses with
      | nil => rfl
      | cons address addresses =>
          obtain ⟨a, others, filled⟩ : ∃ a others, node.addresses = a :: others :=
            ⟨_, _, by rw [NetworkNodeSpec.addresses, interfaces, List.flatMap_cons, List.map_cons,
              List.cons_append]⟩
          rw [filled]
          simp [failure?]

/-- A node is added unless it lacks an address or clashes with one before it. -/
theorem Settles.addNode (settles : this.Settles nodes) :
    failure? (this.addNode node) = nodeClash nodes node ∧
      ∀ next, this.addNode node = .ok next → next.Settles (nodes ++ [node]) := by
  obtain ⟨clashes, filled⟩ := addAddresses_failure node settles.owner
  constructor
  · refine failure?_bind (interface_failure this.linksAddrMap) fun built made => ?_
    rw [(Node.new_ok made).1]
    refine failure?_bind clashes fun map mapped => ?_
    by_cases taken : node.id ∈ this.nodesById
    · rw [if_pos taken, if_pos ((settles.known _).mp taken)]
      rfl
    · rw [if_neg taken, if_neg (mt (settles.known _).mpr taken)]
      rfl
  · intro next added
    obtain ⟨built, made, added⟩ := bind_ok added
    obtain ⟨map, mapped, added⟩ := bind_ok added
    rw [(Node.new_ok made).1] at mapped
    split at added
    · cases added
    obtain rfl := Except.ok.inj added
    refine ⟨filled map mapped, fun n => ?_⟩
    rw [AList.mem_insert, settles.known, List.map_append, List.mem_append, List.map_singleton,
      List.mem_singleton, or_comm]

end Directory

namespace InMemoryNetwork

variable {net : InMemoryNetwork} (uuids : Nat → Uuid) (packetDelay : Nat → Nat → Nat)

theorem links_charted (spec : NetworkSpec) :
    failure? (spec.links.foldlM Directory.addLink .new) =
        ((moments spec.links).findSome? fun m => linkClash m.1 m.2) ∧
      ∀ linked, spec.links.foldlM Directory.addLink .new = .ok linked → linked.Charts spec.links := by
  constructor
  · exact failure?_foldlM (List.nil_append _).symm
      (fun _ _ _ _ _ (charts : Directory.Charts _ _) => charts.addLink) .new
  · intro linked passed
    exact foldlM_ok (fun done directory => Directory.Charts directory done) .new
      (fun _ _ _ _ charts added => charts.addLink.2 _ added) passed

theorem nodes_settled {linked : Directory} (charts : linked.Charts links) (nodes : List NetworkNodeSpec) :
    failure? (nodes.foldlM Directory.addNode linked) =
        ((moments nodes).findSome? fun m => nodeClash m.1 m.2) ∧
      ∀ directory, nodes.foldlM Directory.addNode linked = .ok directory →
        directory.Settles nodes ∧ directory.linksByAddr = linked.linksByAddr ∧
          directory.linksById = linked.linksById := by
  have start : linked.Settles [] := by
    refine ⟨fun a => ?_, fun n => ?_⟩
    · rw [charts.noAddresses]
      rfl
    · simp [charts.noNodes]
  constructor
  · exact failure?_foldlM (List.nil_append _).symm
      (fun _ _ _ _ _ (settles : Directory.Settles _ _) => settles.addNode) start
  · intro directory passed
    refine foldlM_ok (fun done directory => directory.Settles done ∧
      directory.linksByAddr = linked.linksByAddr ∧ directory.linksById = linked.linksById)
      ⟨start, rfl, rfl⟩ ?_ passed
    intro done directory node directory' holds added
    refine ⟨holds.1.addNode.2 _ added, ?_⟩
    obtain ⟨built, -, added⟩ := bind_ok added
    obtain ⟨map, -, added⟩ := bind_ok added
    split at added
    · cases added
    · obtain rfl := Except.ok.inj added
      exact holds.2

theorem initialize_failure (spec : NetworkSpec) :
    failure? ( InMemoryNetwork.initialize spec uuids packetDelay) = firstClash spec := by
  obtain ⟨linksFail, charts⟩ := links_charted spec
  refine failure?_bind linksFail fun linked passed => ?_
  by_cases few : spec.nodes.length < 2
  · rw [if_pos few, if_pos few]
    rfl
  · rw [if_neg few, if_neg few]
    exact failure?_last (nodes_settled (charts linked passed) spec.nodes).1 fun _ _ => rfl

variable {uuids packetDelay}

/-- The network has the nodes and the links of its description, at their addresses. -/
theorem initialized_maps (accepted : InMemoryNetwork.initialize spec uuids packetDelay = .ok net) :
    (∀ n, n ∈ net.nodeIds ↔ n ∈ spec.nodes.map (·.id)) ∧
      (∀ l, l ∈ net.linkIds ↔ l ∈ spec.links.map (·.id)) ∧
      (∀ a, net.nodesByAddr a = nodeWith spec.nodes a) ∧
      ∀ source target, net.linksByAddr source target = linkBetween spec.links source target := by
  obtain ⟨linked, passed, accepted⟩ := bind_ok accepted
  have charts := (links_charted spec).2 linked passed
  split at accepted
  · cases accepted
  obtain ⟨directory, passed, accepted⟩ := bind_ok accepted
  obtain rfl := Except.ok.inj accepted
  obtain ⟨settles, byAddr, byId⟩ := (nodes_settled charts spec.nodes).2 directory passed
  refine ⟨settles.known, ?_, settles.owner, fun source target => ?_⟩
  · dsimp only
    rw [byId]
    exact charts.known
  · dsimp only
    rw [byAddr]
    exact charts.between source target

/-- A description is accepted unless something is wrong with it, and is rejected for what is
wrong first: with its links, then with its nodes, each in the order listed. The network has the
nodes and the links of the description, at their addresses. -/
theorem initialize_exact (uuids : Nat → Uuid) (packetDelay : Nat → Nat → Nat) (spec : NetworkSpec) :
    (∀ flaw, InMemoryNetwork.initialize spec uuids packetDelay = .error flaw ↔
        firstClash spec = some flaw) ∧
      ((∃ net, InMemoryNetwork.initialize spec uuids packetDelay = .ok net) ↔
        firstClash spec = none) ∧
      ∀ net, InMemoryNetwork.initialize spec uuids packetDelay = .ok net →
        (∀ n, n ∈ net.nodeIds ↔ n ∈ spec.nodes.map (·.id)) ∧
          (∀ l, l ∈ net.linkIds ↔ l ∈ spec.links.map (·.id)) ∧
          (∀ a, net.nodesByAddr a = nodeWith spec.nodes a) ∧
          ∀ source target, net.linksByAddr source target = linkBetween spec.links source target := by
  have failed := initialize_failure uuids packetDelay spec
  refine ⟨fun flaw => ?_, ?_, fun net accepted => initialized_maps accepted⟩
  · rw [← failed, failure?_eq_some]
  · rw [← failed, failure?_eq_none]

end InMemoryNetwork

end Workbench.Network

namespace Workbench.Tracing

open Workbench.Library Workbench.Network

/-! Verifiers for networks that are accepted. -/

variable {spec : NetworkSpec} {net : InMemoryNetwork} {uuids : Nat → Uuid}
  {packetDelay : Nat → Nat → Nat}

/-- Both ends of each link are addresses of nodes. -/
def EndsOwned (net : InMemoryNetwork) (spec : NetworkSpec) : Prop :=
  ∀ link ∈ spec.links, net.nodesByAddr link.source ≠ none ∧ net.nodesByAddr link.target ≠ none

theorem mem_moments_of_mem {α : Type} {entries : List α} {e : α} (member : e ∈ entries) :
    ∃ before, (before, e) ∈ moments entries := by
  rw [← momentsFrom_map_snd [] entries] at member
  obtain ⟨⟨before, e⟩, inside, rfl⟩ := List.mem_map.mp member
  exact ⟨before, inside⟩

/-- The nodes of a description that is accepted have no address in common. -/
theorem addressFlaw_of_accepted (clashless : firstClash spec = none) :
    ((moments spec.nodes).findSome? fun m => addressFlaw m.1 m.2) = none := by
  unfold firstClash at clashless
  obtain ⟨-, nodes⟩ := Option.or_eq_none_iff.mp clashless
  split at nodes
  · cases nodes
  rw [List.findSome?_eq_none_iff] at nodes ⊢
  rintro ⟨earlier, node⟩ inside
  have clash : nodeClash earlier node = none := nodes _ inside
  have addresses := (Option.or_eq_none_iff.mp (Option.or_eq_none_iff.mp clash).2).1
  unfold addressFlaw
  rw [List.findSome?_eq_none_iff]
  intro addr listed
  have owns : addr.asIpAddr ∈ node.addresses := by
    obtain ⟨interface, interfaced, listed⟩ := List.mem_flatMap.mp listed
    exact List.mem_flatMap.mpr ⟨interface, interfaced, List.mem_map_of_mem listed⟩
  obtain ⟨passed, there⟩ := mem_moments_of_mem owns
  have free := List.findSome?_eq_none_iff.mp addresses _ there
  have unowned : nodeWith earlier addr.asIpAddr = none :=
    (Option.or_eq_none_iff.mp (Option.map_eq_none_iff.mp free)).1
  rw [unowned, Option.bind_none]

theorem firstFlaw_of_accepted (accepted : InMemoryNetwork.initialize spec uuids packetDelay = .ok net) :
    firstFlaw spec = none ↔ EndsOwned net spec := by
  have failed := InMemoryNetwork.initialize_failure uuids packetDelay spec
  rw [accepted] at failed
  have owner := (InMemoryNetwork.initialized_maps accepted).2.2.1
  unfold firstFlaw EndsOwned endsFlaw
  rw [addressFlaw_of_accepted failed.symm, Option.none_or, List.findSome?_eq_none_iff]
  simp only [owner]
  refine forall₂_congr fun link _ => ?_
  split
  · simp [*]
  · split <;> simp [*]

end Workbench.Tracing

namespace Workbench.Network

open Workbench.Library Workbench.Tracing

variable {net : InMemoryNetwork} {spec : NetworkSpec} {licence : Licence} {m m' : Moment} {s : State}

/-- A forwarder is stranded only with a packet from a link whose target no node has. -/
def Moment.Strands (net : InMemoryNetwork) (m m' : Moment) : Prop :=
  ∀ l id, .stranded l id ∈ m'.state.log → .stranded l id ∈ m.state.log ∨
    net.nodesByAddr (net.links l).target = none ∧ ∃ held ∈ m.hand, ∃ sent, held.stage = .flying l sent

theorem Moment.Strands.of_log (entries : List LogEntry)
    (grown : m'.state.log = m.state.log ++ entries) (others : ∀ l id, .stranded l id ∉ entries) :
    m.Strands net m' := by
  intro l id member
  rw [grown, List.mem_append] at member
  exact .inl (member.resolve_right (others l id))

theorem Moment.Strands.of_taken {data : InTransitData} {stage : Stage} {step : SimulationStep}
    (grown : m'.state.log = (m.state.takeUp data stage).log ++ [.recorded step]) :
    m.Strands net m' := by
  cases stage with
  | flying l sent =>
      refine .of_log [.arrived l data.id, .recorded step] ?_ (by simp)
      rw [grown]
      simp [State.takeUp, State.note]
  | fresh | inside => exact .of_log _ grown (by simp)

theorem Moment.Strands.of_effect (effect : Effect net licence m m') : m.Strands net m' := by
  have silent (same : m'.state.log = m.state.log) : m.Strands net m' :=
    .of_log [] (by rw [same, List.append_nil]) (by simp)
  cases effect with
  | quiet hand quiet => exact silent quiet.log
  | dispatch n packet rest links hand member queued some pushed => exact silent pushed.log
  | discard hand takes => exact silent takes.works.log
  | sendPanics hand takes => exact silent takes.works.log
  | taskPanics l hand works => exact silent works.log
  | @clear s t l k hand takes =>
      refine .of_log [.recorded ⟨t.now, .packetDropped ⟨k.data.id, k.srcNode, .bufferCleared⟩⟩] ?_ (by simp)
      rw [← takes.works.log]
      rfl
  | @send s t l k data pacer hand member takes =>
      refine .of_log [.recorded ⟨t.now, .packetInTransit ⟨data.id, k.srcNode, l⟩⟩] ?_ (by simp)
      rw [← takes.works.log]
      rfl
  | outage s l => exact .of_log [.wentDown l s.now] rfl (by simp)
  | event s e => exact .of_log [.recorded ⟨s.now, .networkEvent e⟩] rfl (by simp)
  | enter s n data stage => exact .of_taken rfl
  | refuse s n data stage => exact .of_taken rfl
  | lose s l data sent => exact .of_taken rfl
  | drop s n data reason =>
      exact .of_log [.recorded ⟨s.now, .packetDropped ⟨data.id, n, reason⟩⟩] rfl (by simp)
  | duplicate s n data =>
      exact .of_log [.recorded ⟨s.now, .packetDuplicated ⟨data.id, data.number, data.size, n⟩⟩] rfl (by simp)
  | buffer s n data | overbook s n data => exact .of_log [.reserved n data] rfl (by simp)
  | read s n data =>
      exact .of_log [.recorded
        ⟨s.now, .packetDeliveredToApplication ⟨data.id, data.number, data.size, n⟩⟩] rfl (by simp)
  | check s n data => exact .of_log [.checked n data.id] rfl (by simp)
  | strand s l data sent hand up nowhere lost =>
      intro l' id member
      simp only [State.takeUp, State.note, List.append_assoc, List.mem_append, List.mem_cons,
        List.not_mem_nil, or_false, reduceCtorEq, false_or, LogEntry.stranded.injEq] at member
      refine member.imp_right ?_
      rintro ⟨rfl, -⟩
      exact ⟨nowhere, _, List.mem_cons_self, sent, rfl⟩
  | _ => exact silent rfl

theorem unstranded_of_run (fresh : Function.Injective net.uuids)
    (owned : ∀ l ∈ net.linkIds, net.nodesByAddr (net.links l).target ≠ none)
    {past : List (State × Action)} (run : Run (State.step net) (.initial net) past s) :
    ∀ l id, .stranded l id ∉ s.log := by
  let Holds (m : Moment) : Prop := m.state.Competing net ∧ Located net False m ∧ m.Follows net ∧
    ∀ l id, .stranded l id ∉ m.state.log
  have kept := run.invariant (fun s => Holds ⟨s, []⟩)
    ⟨.initial, .initial, .initial, fun _ _ => List.not_mem_nil⟩ ?_
  · exact kept.2.2.2
  · intro s action s' holds taken
    refine State.step_kept taken Holds holds ?_
    rintro licence m m' ⟨competing, located, follows, ashore⟩ effect
    refine ⟨competing.effect effect, located.effect fresh competing effect False.elim,
      follows.effect fresh competing located effect, fun l id member => ?_⟩
    rcases Moment.Strands.of_effect effect l id member with old | ⟨nowhere, held, inHand, sent, flying⟩
    · exact ashore l id old
    · have known := (follows.placed held (.inl inHand)).known
      rw [flying] at known
      exact owned l known nowhere

end Workbench.Network

namespace Workbench.Tracing

open Workbench.Library Workbench.Network

namespace SimulationVerifier

/-- For a network that is accepted, a verifier can be made if and only if nodes have both ends
of each link, whatever was recorded. No forwarder of such a network gets a packet that it has
no node for. -/
theorem verifiable_iff {spec : NetworkSpec} {uuids : Nat → Uuid} {packetDelay : Nat → Nat → Nat}
    {net : InMemoryNetwork} (accepted : InMemoryNetwork.initialize spec uuids packetDelay = .ok net)
    (fresh : Function.Injective uuids) :
    (∀ steps, (∃ this, SimulationVerifier.new steps spec = .ok this) ↔ EndsOwned net spec) ∧
      (EndsOwned net spec → ∀ past s, Run (State.step net) (.initial net) past s →
        ∀ l id, .stranded l id ∉ s.log) := by
  constructor
  · intro steps
    rw [← firstFlaw_of_accepted accepted, ← new_failure steps, failure?_eq_none]
  · intro ends past s run
    refine unstranded_of_run (InMemoryNetwork.initialized_uuids accepted ▸ fresh) ?_ run
    have built := InMemoryNetwork.initialized_built accepted
    intro l known
    obtain ⟨link, listed, rfl⟩ := (built.linkIds l).mp known
    rw [built.links link listed]
    exact (ends link listed).2

theorem verifiable_iff_twoHosts : ∃ net,
    InMemoryNetwork.initialize .twoHosts id (fun _ size => size) = .ok net ∧
      (∀ steps, (∃ this, SimulationVerifier.new steps .twoHosts = .ok this) ↔
        EndsOwned net .twoHosts) ∧
      (EndsOwned net .twoHosts → ∀ past s, Run (State.step net) (.initial net) past s →
        ∀ l id, .stranded l id ∉ s.log) := by
  obtain ⟨net, accepted⟩ : ∃ net,
      InMemoryNetwork.initialize .twoHosts id (fun _ size => size) = .ok net := ⟨_, rfl⟩
  exact ⟨net, accepted, verifiable_iff accepted Function.injective_id⟩

end SimulationVerifier

end Workbench.Tracing
