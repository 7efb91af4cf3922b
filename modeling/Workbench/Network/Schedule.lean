import Workbench.Library.Firsts
import Workbench.Network.Event
import Workbench.Network.Spec

/-! The schedule of the network events, and the statuses that links and nodes start with. -/

set_option autoImplicit false

namespace Workbench.Network

open Workbench.Library

inductive NetworkEventKind where
  | link (payload : LinkEventPayload)
  | node (payload : NodeEventPayload)
  deriving DecidableEq, Repr

structure Event.NetworkEvent where
  relativeTime : Nat
  kind : NetworkEventKind
  deriving DecidableEq, Repr

def UpdateStatus.opposite : UpdateStatus → UpdateStatus
  | .up => .down
  | .down => .up

/-- An event that only carries a status. -/
def LinkEventPayload.ofStatus (linkId : LinkId) (status : UpdateLinkStatus) : LinkEventPayload :=
  ⟨linkId, some status, none, none, none, none, none, none, none⟩

def NodeEventPayload.ofStatus (nodeId : NodeId) (status : UpdateNodeStatus) : NodeEventPayload :=
  ⟨nodeId, some status, false⟩

/-- The loop over the events, with the links it has seen. -/
def initialLinkStatuses (seenLinks : Finset LinkId) :
    List Event.NetworkEvent → List LinkEventPayload × Finset LinkId
  | [] => ([], seenLinks)
  | event :: events =>
    match event.kind with
    | .node _ => initialLinkStatuses seenLinks events
    | .link linkPayload =>
      match linkPayload.status with
      | none => initialLinkStatuses seenLinks events
      | some updatedStatus =>
        if linkPayload.linkId ∈ seenLinks then initialLinkStatuses seenLinks events
        else
          let (initialEvents, seenLinks) :=
            initialLinkStatuses (insert linkPayload.linkId seenLinks) events
          -- an event at time 0 becomes the initial event itself
          if event.relativeTime = 0 then (linkPayload :: initialEvents, seenLinks)
          else (.ofStatus linkPayload.linkId updatedStatus.opposite :: initialEvents, seenLinks)

def getInitialStatusForLinksWithEvents (sortedEvents : List Event.NetworkEvent)
    (links : List NetworkLinkSpec) : List LinkEventPayload :=
  let (initialEvents, seenLinks) := initialLinkStatuses ∅ sortedEvents
  initialEvents ++ (links.filter (·.id ∉ seenLinks)).map fun link => .ofStatus link.id .up

/-- The loop over the events, with the nodes it has seen. It does not look at their times. -/
def initialNodeStatuses (seenNodes : Finset NodeId) :
    List Event.NetworkEvent → List NodeEventPayload × Finset NodeId
  | [] => ([], seenNodes)
  | event :: events =>
    match event.kind with
    | .link _ => initialNodeStatuses seenNodes events
    | .node nodePayload =>
      match nodePayload.status with
      | none => initialNodeStatuses seenNodes events
      | some updatedStatus =>
        if nodePayload.nodeId ∈ seenNodes then initialNodeStatuses seenNodes events
        else
          let (initialEvents, seenNodes) :=
            initialNodeStatuses (insert nodePayload.nodeId seenNodes) events
          (.ofStatus nodePayload.nodeId updatedStatus.opposite :: initialEvents, seenNodes)

def getInitialStatusForNodesWithEvents (sortedEvents : List Event.NetworkEvent)
    (nodes : List NetworkNodeSpec) : List NodeEventPayload :=
  let (initialEvents, seenNodes) := initialNodeStatuses ∅ sortedEvents
  initialEvents ++ (nodes.filter (·.id ∉ seenNodes)).map fun node => .ofStatus node.id .up

structure NetworkEvents where
  sortedEvents : List Event.NetworkEvent
  initialLinkEvents : List LinkEventPayload
  initialNodeEvents : List NodeEventPayload
  deriving DecidableEq, Repr

def NetworkEvents.new (events : List Event.NetworkEvent) (nodes : List NetworkNodeSpec)
    (links : List NetworkLinkSpec) : NetworkEvents :=
  let events := events.mergeSort fun e e' => e.relativeTime ≤ e'.relativeTime
  ⟨events, getInitialStatusForLinksWithEvents events links,
    getInitialStatusForNodesWithEvents events nodes⟩

/-! Both loops collect the first event of each id that carries a status. -/

/-- The initial event that an event makes for its link. -/
def Event.NetworkEvent.initialLink? (event : Event.NetworkEvent) : Option (LinkId × LinkEventPayload) :=
  match event.kind with
  | .node _ => none
  | .link payload => payload.status.map fun status =>
    (payload.linkId, if event.relativeTime = 0 then payload else .ofStatus payload.linkId status.opposite)

def Event.NetworkEvent.initialNode? (event : Event.NetworkEvent) : Option (NodeId × NodeEventPayload) :=
  match event.kind with
  | .link _ => none
  | .node payload => payload.status.map fun status =>
    (payload.nodeId, .ofStatus payload.nodeId status.opposite)

theorem initialLinkStatuses_eq (seen : Finset LinkId) (events : List Event.NetworkEvent) :
    initialLinkStatuses seen events = ((firsts seen (events.filterMap (·.initialLink?))).1.map Prod.snd,
      (firsts seen (events.filterMap (·.initialLink?))).2) := by
  induction events generalizing seen with
  | nil => rfl
  | cons event events ih =>
      obtain ⟨time, kind⟩ := event
      cases kind with
      | node payload => simpa [initialLinkStatuses, Event.NetworkEvent.initialLink?] using ih seen
      | link payload =>
          cases status : payload.status with
          | none => simpa [initialLinkStatuses, Event.NetworkEvent.initialLink?, status] using ih seen
          | some updated =>
              by_cases known : payload.linkId ∈ seen
              · simpa [initialLinkStatuses, Event.NetworkEvent.initialLink?, status, known, firsts] using ih seen
              · by_cases zero : time = 0 <;>
                  simp [initialLinkStatuses, Event.NetworkEvent.initialLink?, status, known, firsts, ih, zero]

theorem initialNodeStatuses_eq (seen : Finset NodeId) (events : List Event.NetworkEvent) :
    initialNodeStatuses seen events = ((firsts seen (events.filterMap (·.initialNode?))).1.map Prod.snd,
      (firsts seen (events.filterMap (·.initialNode?))).2) := by
  induction events generalizing seen with
  | nil => rfl
  | cons event events ih =>
      obtain ⟨time, kind⟩ := event
      cases kind with
      | link payload => simpa [initialNodeStatuses, Event.NetworkEvent.initialNode?] using ih seen
      | node payload =>
          cases status : payload.status with
          | none => simpa [initialNodeStatuses, Event.NetworkEvent.initialNode?, status] using ih seen
          | some updated =>
              by_cases known : payload.nodeId ∈ seen
              · simpa [initialNodeStatuses, Event.NetworkEvent.initialNode?, status, known, firsts] using ih seen
              · simp [initialNodeStatuses, Event.NetworkEvent.initialNode?, status, known, firsts, ih]

/-! The rule for the initial statuses. -/

/-- The status that an event carries for a link. -/
def NetworkEventKind.linkStatus? (l : LinkId) : NetworkEventKind → Option UpdateLinkStatus
  | .link payload => if payload.linkId = l then payload.status else none
  | .node _ => none

def NetworkEventKind.nodeStatus? (n : NodeId) : NetworkEventKind → Option UpdateNodeStatus
  | .node payload => if payload.nodeId = n then payload.status else none
  | .link _ => none

/-- The first event, in the stable order of time, that carries a status of something. -/
def firstStatusEvent (status? : NetworkEventKind → Option UpdateStatus) (events : List Event.NetworkEvent) :
    Option Event.NetworkEvent :=
  earliest (·.relativeTime) (fun event => (status? event.kind).isSome) events

/-- The statuses of the initial events that a link or node should have: a single one where
an event carries a status of it or the spec has it, and none otherwise. -/
def ruledStatuses (status? : NetworkEventKind → Option UpdateStatus) (events : List Event.NetworkEvent)
    (specified : Bool) : List (Option UpdateStatus) :=
  match firstStatusEvent status? events with
  | some event =>
    if event.relativeTime = 0 then [status? event.kind] else [(status? event.kind).map (·.opposite)]
  | none => if specified then [some .up] else []

/-- The initial events follow the rule, which is the same for links and for nodes. -/
structure NetworkEvents.FollowsRule (this : NetworkEvents) (events : List Event.NetworkEvent)
    (nodes : List NetworkNodeSpec) (links : List NetworkLinkSpec) : Prop where
  links : ∀ l, (this.initialLinkEvents.filter (·.linkId = l)).map (·.status) =
    ruledStatuses (·.linkStatus? l) events (links.any (·.id = l))
  nodes : ∀ n, (this.initialNodeEvents.filter (·.nodeId = n)).map (·.status) =
    ruledStatuses (·.nodeStatus? n) events (nodes.any (·.id = n))

variable {β : Type}

/-- The first entry of an id among the sorted events is made by its first event with a status. -/
theorem find?_filterMap_sorted {initial? : Event.NetworkEvent → Option (Nat × β)}
    {status? : NetworkEventKind → Option UpdateStatus} {id : Nat}
    (same : ∀ event, (initial? event).any (·.1 = id) = (status? event.kind).isSome)
    (events : List Event.NetworkEvent) :
    ((events.mergeSort fun e e' => e.relativeTime ≤ e'.relativeTime).filterMap initial?).find?
      (·.1 = id) = (firstStatusEvent status? events).bind initial? := by
  rw [List.find?_filterMap, firstStatusEvent, ← find?_mergeSort]
  simp only [same]

theorem firstStatusEvent_carries {status? : NetworkEventKind → Option UpdateStatus}
    {events : List Event.NetworkEvent} {event : Event.NetworkEvent}
    (first : firstStatusEvent status? events = some event) :
    ∃ status, status? event.kind = some status := by
  rw [firstStatusEvent, ← find?_mergeSort] at first
  have carries := @List.find?_some _ (fun event : Event.NetworkEvent => (status? event.kind).isSome) _ _ first
  exact Option.isSome_iff_exists.mp carries

/-- The initial events of a link. -/
theorem initialLinkEvents_filter (events : List Event.NetworkEvent) (nodes : List NetworkNodeSpec)
    (links : List NetworkLinkSpec) (l : LinkId) :
    (NetworkEvents.new events nodes links).initialLinkEvents.filter (·.linkId = l) =
      match (firstStatusEvent (·.linkStatus? l) events).bind (·.initialLink?) with
      | some entry => [entry.2]
      | none => List.replicate ((links.map (·.id)).count l) (.ofStatus l .up) := by
  have keyed (entries : List Event.NetworkEvent) :
      ∀ entry ∈ entries.filterMap (·.initialLink?), entry.2.linkId = entry.1 := by
    intro entry member
    obtain ⟨event, _, made⟩ := List.mem_filterMap.mp member
    unfold Event.NetworkEvent.initialLink? at made
    split at made
    · cases made
    obtain ⟨status, _, rfl⟩ := Option.map_eq_some_iff.mp made
    dsimp only
    split <;> rfl
  have same (event : Event.NetworkEvent) :
      (event.initialLink?).any (·.1 = l) = (event.kind.linkStatus? l).isSome := by
    obtain ⟨time, kind⟩ := event
    cases kind with
    | node payload => rfl
    | link payload =>
        by_cases here : payload.linkId = l <;> cases status : payload.status <;>
          simp [Event.NetworkEvent.initialLink?, NetworkEventKind.linkStatus?, here, status]
  have unseen (seen : Finset LinkId) :
      (links.filter (·.id ∉ seen)).map (fun link => LinkEventPayload.ofStatus link.id .up) =
        ((links.map (·.id)).filter (· ∉ seen)).map (.ofStatus · .up) := by
    rw [List.filter_map, List.map_map]
    rfl
  simp only [NetworkEvents.new, getInitialStatusForLinksWithEvents, initialLinkStatuses_eq, unseen]
  rw [filter_firsts_append (keyed _) (fun _ => rfl), find?_filterMap_sorted same]
  cases (firstStatusEvent (·.linkStatus? l) events).bind (·.initialLink?) <;> rfl

theorem initialLinkEvents_statuses (events : List Event.NetworkEvent) (nodes : List NetworkNodeSpec)
    (links : List NetworkLinkSpec) (l : LinkId) :
    ((NetworkEvents.new events nodes links).initialLinkEvents.filter (·.linkId = l)).map (·.status) =
      match firstStatusEvent (·.linkStatus? l) events with
      | some event =>
        if event.relativeTime = 0 then [event.kind.linkStatus? l]
        else [(event.kind.linkStatus? l).map (·.opposite)]
      | none => List.replicate ((links.map (·.id)).count l) (some .up) := by
  rw [initialLinkEvents_filter]
  cases first : firstStatusEvent (·.linkStatus? l) events with
  | none => exact List.map_replicate
  | some event =>
      obtain ⟨status, carries⟩ := firstStatusEvent_carries first
      obtain ⟨time, kind⟩ := event
      cases kind with
      | node payload => cases carries
      | link payload =>
          have here : payload.linkId = l ∧ payload.status = some status := by
            simpa [NetworkEventKind.linkStatus?] using carries
          by_cases zero : time = 0 <;>
            simp [Event.NetworkEvent.initialLink?, carries, here, zero, LinkEventPayload.ofStatus]

theorem initialNodeEvents_statuses (events : List Event.NetworkEvent) (nodes : List NetworkNodeSpec)
    (links : List NetworkLinkSpec) (n : NodeId) :
    ((NetworkEvents.new events nodes links).initialNodeEvents.filter (·.nodeId = n)).map (·.status) =
      match firstStatusEvent (·.nodeStatus? n) events with
      | some event => [(event.kind.nodeStatus? n).map (·.opposite)]
      | none => List.replicate ((nodes.map (·.id)).count n) (some .up) := by
  have keyed (entries : List Event.NetworkEvent) :
      ∀ entry ∈ entries.filterMap (·.initialNode?), entry.2.nodeId = entry.1 := by
    intro entry member
    obtain ⟨event, _, made⟩ := List.mem_filterMap.mp member
    unfold Event.NetworkEvent.initialNode? at made
    split at made
    · cases made
    obtain ⟨status, _, rfl⟩ := Option.map_eq_some_iff.mp made
    rfl
  have same (event : Event.NetworkEvent) :
      (event.initialNode?).any (·.1 = n) = (event.kind.nodeStatus? n).isSome := by
    obtain ⟨time, kind⟩ := event
    cases kind with
    | link payload => rfl
    | node payload =>
        by_cases here : payload.nodeId = n <;> cases status : payload.status <;>
          simp [Event.NetworkEvent.initialNode?, NetworkEventKind.nodeStatus?, here, status]
  have unseen (seen : Finset NodeId) :
      (nodes.filter (·.id ∉ seen)).map (fun node => NodeEventPayload.ofStatus node.id .up) =
        ((nodes.map (·.id)).filter (· ∉ seen)).map (.ofStatus · .up) := by
    rw [List.filter_map, List.map_map]
    rfl
  simp only [NetworkEvents.new, getInitialStatusForNodesWithEvents, initialNodeStatuses_eq, unseen]
  rw [filter_firsts_append (keyed _) (fun _ => rfl), find?_filterMap_sorted same]
  cases first : firstStatusEvent (·.nodeStatus? n) events with
  | none => exact List.map_replicate
  | some event =>
      obtain ⟨status, carries⟩ := firstStatusEvent_carries first
      obtain ⟨time, kind⟩ := event
      cases kind with
      | link payload => cases carries
      | node payload =>
          have here : payload.nodeId = n ∧ payload.status = some status := by
            simpa [NetworkEventKind.nodeStatus?] using carries
          simp [Event.NetworkEvent.initialNode?, carries, here, NodeEventPayload.ofStatus]

theorem UpdateStatus.opposite_ne (status : UpdateStatus) : status.opposite ≠ status := by
  cases status <;> decide

/-- As many as the spec has of an id is one where it has the id, if it has it once at most. -/
theorem replicate_eq_ite {α : Type} (ids : List Nat) (id : Nat) (a : α) :
    List.replicate (ids.count id) a = (if ids.any (· = id) = true then [a] else []) ↔
      ids.count id ≤ 1 := by
  have present : ids.any (· = id) = true ↔ 0 < ids.count id := by
    rw [List.count_pos_iff]
    simp
  constructor
  · intro same
    have lengths := congrArg List.length same
    rw [List.length_replicate] at lengths
    rw [lengths]
    split <;> simp
  · intro single
    split
    · next here =>
        have once : ids.count id = 1 := by
          have positive := present.mp here
          omega
        rw [once]
        rfl
    · next absent =>
        have never : ids.count id = 0 := by
          have none := mt present.mpr absent
          omega
        rw [never]
        rfl

/-- The rule for one node. -/
theorem NetworkEvents.node_ruled_iff (events : List Event.NetworkEvent) (nodes : List NetworkNodeSpec)
    (links : List NetworkLinkSpec) (n : NodeId) :
    ((NetworkEvents.new events nodes links).initialNodeEvents.filter (·.nodeId = n)).map (·.status) =
        ruledStatuses (·.nodeStatus? n) events (nodes.any (·.id = n)) ↔
      (∀ event, firstStatusEvent (·.nodeStatus? n) events = some event → event.relativeTime ≠ 0) ∧
      (firstStatusEvent (·.nodeStatus? n) events = none → (nodes.map (·.id)).count n ≤ 1) := by
  rw [initialNodeEvents_statuses, ruledStatuses]
  cases first : firstStatusEvent (·.nodeStatus? n) events with
  | none =>
      -- the spec may have a node twice, which is then started up twice
      have counted := replicate_eq_ite (nodes.map (·.id)) n (some UpdateStatus.up)
      rw [List.any_map] at counted
      simpa using counted
  | some event =>
      obtain ⟨status, carries⟩ := firstStatusEvent_carries first
      by_cases zero : event.relativeTime = 0
      · -- the loop over nodes inverts the status even so
        simp [carries, zero, status.opposite_ne]
      · simp [zero]

/-- The rule for one link: the loop over links looks at the times. -/
theorem NetworkEvents.link_ruled_iff (events : List Event.NetworkEvent) (nodes : List NetworkNodeSpec)
    (links : List NetworkLinkSpec) (l : LinkId) :
    ((NetworkEvents.new events nodes links).initialLinkEvents.filter (·.linkId = l)).map (·.status) =
        ruledStatuses (·.linkStatus? l) events (links.any (·.id = l)) ↔
      (firstStatusEvent (·.linkStatus? l) events = none → (links.map (·.id)).count l ≤ 1) := by
  rw [initialLinkEvents_statuses, ruledStatuses]
  cases first : firstStatusEvent (·.linkStatus? l) events with
  | none =>
      have counted := replicate_eq_ite (links.map (·.id)) l (some UpdateStatus.up)
      rw [List.any_map] at counted
      simpa using counted
  | some event => simp

/-- The initial statuses follow the rule exactly where no node has its first status at time
0, and the spec has no node or link twice that no event carries a status of. -/
theorem NetworkEvents.new_followsRule_iff (events : List Event.NetworkEvent) (nodes : List NetworkNodeSpec)
    (links : List NetworkLinkSpec) :
    (NetworkEvents.new events nodes links).FollowsRule events nodes links ↔
      (∀ n event, firstStatusEvent (·.nodeStatus? n) events = some event → event.relativeTime ≠ 0) ∧
      (∀ n, firstStatusEvent (·.nodeStatus? n) events = none → (nodes.map (·.id)).count n ≤ 1) ∧
      ∀ l, firstStatusEvent (·.linkStatus? l) events = none → (links.map (·.id)).count l ≤ 1 := by
  constructor
  · intro follows
    have ruled (n : NodeId) := (node_ruled_iff events nodes links n).mp (follows.nodes n)
    exact ⟨fun n => (ruled n).1, fun n => (ruled n).2,
      fun l => (link_ruled_iff events nodes links l).mp (follows.links l)⟩
  · rintro ⟨later, single, single'⟩
    exact ⟨fun l => (link_ruled_iff events nodes links l).mpr (single' l),
      fun n => (node_ruled_iff events nodes links n).mpr ⟨later n, single n⟩⟩

/-- A host that is down from time 0 on starts up. -/
theorem NetworkEvents.new_breaksRule :
    ¬ (NetworkEvents.new [⟨0, .node ⟨0, some .down, false⟩⟩] NetworkSpec.twoHosts.nodes
      NetworkSpec.twoHosts.links).FollowsRule [⟨0, .node ⟨0, some .down, false⟩⟩]
        NetworkSpec.twoHosts.nodes NetworkSpec.twoHosts.links := by
  intro follows
  have statuses := follows.nodes 0
  rw [initialNodeEvents_statuses] at statuses
  revert statuses
  decide

end Workbench.Network
