import Workbench.Network.LinkEvents
import Workbench.Network.Quiescence
import Workbench.Tracing.Announcements

/-! The task that processes the events of a schedule, among the other tasks of a network. Links
and nodes have the statuses that the schedule has for them, and no event is lost. -/

set_option autoImplicit false

namespace Workbench.Network

open Workbench.Library Workbench.Tracing

/-- A network with its event task, and the events still to come. -/
structure Timetable where
  state : State
  pending : List Event.NetworkEvent

/-- The event task processes its next event, or another task goes on. -/
inductive TimetableAction where
  | nextEvent
  | task (action : Action)
  deriving DecidableEq, Repr

def Action.isEvent : Action → Bool
  | .linkEvent _ | .nodeEvent _ => true
  | .advance _ | .sendUdp .. | .processBuffer .. | .pollLink _ | .pollForwarder .. | .pollRecv ..
  | .checkReceive .. => false

/-- The action of the network that processes an event. -/
def NetworkEventKind.action : NetworkEventKind → Action
  | .link payload => .linkEvent payload
  | .node payload => .nodeEvent payload

namespace Timetable

/-- A network that is started: it has processed its initial events. -/
def start (net : InMemoryNetwork) (events : NetworkEvents) : Timetable :=
  ⟨(State.initial net).processInitialEvents net events, events.sortedEvents⟩

/-- The event task sleeps until the time of its next event. -/
def step (net : InMemoryNetwork) (this : Timetable) : TimetableAction → Option Timetable
  | .nextEvent =>
    match this.pending with
    | [] => none
    | event :: events =>
      if this.state.now < event.relativeTime then none
      else some ⟨this.state.processNetworkEvent net event, events⟩
  | .task action =>
    if action.isEvent then none else (this.state.step net action).map (⟨·, this.pending⟩)

end Timetable

/-! Links and nodes alike. -/

inductive Device where
  | link (l : LinkId)
  | node (n : NodeId)
  deriving DecidableEq, Repr

namespace Device

variable {net : InMemoryNetwork} {d : Device} {s s' : State}

def Known (net : InMemoryNetwork) : Device → Prop
  | .link l => l ∈ net.linkIds
  | .node n => n ∈ net.nodeIds

instance (net : InMemoryNetwork) : (d : Device) → Decidable (d.Known net)
  | .link l => inferInstanceAs (Decidable (l ∈ net.linkIds))
  | .node n => inferInstanceAs (Decidable (n ∈ net.nodeIds))

def isDown (s : State) : Device → Bool
  | .link l => (s.links l).isDown
  | .node n => (s.nodes n).isDown

/-- The status that an event carries for a link or a node. -/
def status? : Device → NetworkEventKind → Option UpdateStatus
  | .link l => (·.linkStatus? l)
  | .node n => (·.nodeStatus? n)

end Device

/-- The link or node that an event is about. -/
def NetworkEventKind.device : NetworkEventKind → Device
  | .link payload => .link payload.linkId
  | .node payload => .node payload.nodeId

/-- The event that a step tells of. -/
def event? (step : SimulationStep) : Option NetworkEventKind :=
  match step.kind with
  | .networkEvent ⟨some payload, _⟩ => some (.link payload)
  | .networkEvent ⟨none, some payload⟩ => some (.node payload)
  | _ => none

namespace State

variable {net : InMemoryNetwork} {s s' : State} {d : Device} {l : LinkId} {n : NodeId}

/-- The events that the trace tells of. -/
def eventsTold (s : State) : List NetworkEventKind := s.trace.filterMap event?

variable {event : Event.NetworkEvent}

theorem step_action (net : InMemoryNetwork) (s : State) (event : Event.NetworkEvent) :
    s.step net event.kind.action = some (s.processNetworkEvent net event) := by
  obtain ⟨time, kind⟩ := event
  cases kind <;> rfl

theorem processNetworkEvent_now (net : InMemoryNetwork) (s : State) (event : Event.NetworkEvent) :
    (s.processNetworkEvent net event).now = s.now := by
  obtain ⟨time, kind⟩ := event
  cases kind with
  | link payload => exact processLinkEvent_now
  | node payload => exact (processNodeEvent_tells net s payload).now

theorem processNetworkEvent_unknown (unknown : ¬ event.kind.device.Known net) :
    s.processNetworkEvent net event = s := by
  obtain ⟨time, kind⟩ := event
  cases kind with
  | link payload => exact processLinkEvent_unknown unknown
  | node payload => exact if_pos unknown

theorem processNetworkEvent_told (known : event.kind.device.Known net) :
    (s.processNetworkEvent net event).eventsTold = s.eventsTold ++ [event.kind] := by
  unfold eventsTold
  obtain ⟨time, kind⟩ := event
  cases kind with
  | link payload =>
      change ((s.processLinkEvent net payload).trace.filterMap event?) = _
      rw [processLinkEvent_trace known, List.filterMap_append]
      rfl
  | node payload =>
      change ((s.processNodeEvent net payload).trace.filterMap event?) = _
      rw [processNodeEvent_trace known, List.filterMap_append]
      rfl

/-- An event gives its link or node the status that it carries, if any, and no other one. -/
theorem processNetworkEvent_isDown (known : d.Known net) (event : Event.NetworkEvent) :
    d.isDown (s.processNetworkEvent net event) =
      (d.status? event.kind).elim (d.isDown s) fun status => decide (status = .down) := by
  obtain ⟨time, kind⟩ := event
  cases d with
  | link l =>
      cases kind with
      | link payload =>
          change ((s.processLinkEvent net payload).links l).isDown = _
          by_cases here : payload.linkId = l
          · subst here
            rw [processLinkEvent_link known, if_pos rfl, LinkState.process_isDown]
            simp [Device.status?, NetworkEventKind.linkStatus?, Device.isDown]
          · have other : Device.status? (.link l) (.link payload) = none := if_neg here
            rw [other]
            by_cases known' : payload.linkId ∈ net.linkIds
            · rw [processLinkEvent_link known', if_neg here]
              rfl
            · rw [processLinkEvent_unknown known']
              rfl
      | node payload =>
          change ((s.processNodeEvent net payload).links l).isDown = _
          rw [(processNodeEvent_links net s payload).1]
          rfl
  | node n =>
      cases kind with
      | link payload =>
          change ((s.processLinkEvent net payload).nodes n).isDown = _
          rw [NodeState.isDown, (processLinkEvent_uneventful net s payload).status]
          rfl
      | node payload =>
          change ((s.processNodeEvent net payload).nodes n).isDown = _
          rw [NodeState.isDown, processNodeEvent_status]
          by_cases here : payload.nodeId = n
          · subst here
            rw [if_pos ⟨known, rfl⟩]
            cases carried : payload.status with
            | none => simp [Device.status?, NetworkEventKind.nodeStatus?, carried, Device.isDown,
                NodeState.isDown]
            | some status => simp [Device.status?, NetworkEventKind.nodeStatus?, carried,
                Switch.update_isDown]
          · have other : Device.status? (.node n) (.node payload) = none := if_neg here
            rw [if_neg fun both => here both.2, other]
            rfl

/-- Other tasks leave the statuses, and tell of no event. -/
theorem step_eventless {action : Action} (taken : s.step net action = some s')
    (other : action.isEvent = false) : (∀ d : Device, d.isDown s' = d.isDown s) ∧
      s'.eventsTold = s.eventsTold ∧ s.now ≤ s'.now := by
  have linkless : ∀ e, action ≠ .linkEvent e := by
    rintro e rfl
    cases other
  have nodeless : ∀ e, action ≠ .nodeEvent e := by
    rintro e rfl
    cases other
  obtain ⟨status, -, steps, grown, silent⟩ := step_uneventful taken nodeless
  refine ⟨fun d => ?_, ?_, step_now_le taken⟩
  · cases d with
    | link l => exact congrArg Switch.isDown (step_linkStatus taken linkless l)
    | node n => exact congrArg Switch.isDown (status n)
  · have linkSilent : ∀ step ∈ steps, ∀ e, step.kind = .networkEvent e → e.link = none := by
      intro step member e kind
      by_cases polled : ∃ l, action = .pollLink l
      · obtain ⟨l, rfl⟩ := polled
        simp only [State.step] at taken
        split at taken
        · cases taken
        rcases (pollLink_polls taken).told with same | ⟨k, grown'⟩ | ⟨t, k, -, -, -, -, grown'⟩
        · obtain rfl := List.append_right_eq_self.mp (grown.symm.trans same)
          cases member
        · obtain rfl := List.append_cancel_left (grown.symm.trans grown')
          obtain rfl := List.mem_singleton.mp member
          cases kind
        · obtain rfl := List.append_cancel_left (grown.symm.trans grown')
          obtain rfl := List.mem_singleton.mp member
          cases kind
      · obtain ⟨-, ids, steps', grown', calm, -⟩ :=
          step_calm taken (fun l same => polled ⟨l, same⟩) linkless
        obtain rfl := List.append_cancel_left (grown.symm.trans grown')
        have inland := (calm step member).2
        rw [kind] at inland
        exact inland
    have none : steps.filterMap event? = [] := by
      apply List.filterMap_eq_nil_iff.mpr
      intro step member
      have nodeSilent := silent step member
      unfold event?
      split
      · next payload node kind => cases linkSilent step member _ kind
      · next payload kind =>
          rw [kind] at nodeSilent
          cases nodeSilent
      · rfl
    rw [eventsTold, grown, List.filterMap_append, none, List.append_nil, eventsTold]

/-- A network that has processed some events, in their order. -/
structure Observes (net : InMemoryNetwork) (events : List Event.NetworkEvent) (s : State) : Prop where
  told : s.eventsTold = (events.map (·.kind)).filter (·.device.Known net)
  status : ∀ d : Device, d.Known net →
    d.isDown s = (latest (fun event => d.status? event.kind) events).any (· = .down)

variable {events : List Event.NetworkEvent}

theorem Observes.processNetworkEvent (observes : s.Observes net events) (event : Event.NetworkEvent) :
    (s.processNetworkEvent net event).Observes net (events ++ [event]) where
  told := by
    rw [List.map_append, List.filter_append, ← observes.told]
    by_cases known : event.kind.device.Known net
    · rw [processNetworkEvent_told known, List.map_singleton,
        List.filter_cons_of_pos (by simpa using known)]
      rfl
    · rw [processNetworkEvent_unknown known, List.map_singleton,
        List.filter_cons_of_neg (by simpa using known)]
      exact (List.append_nil _).symm
  status := by
    intro d known
    rw [processNetworkEvent_isDown known, latest_concat]
    cases d.status? event.kind with
    | none => exact observes.status d known
    | some status => rfl

theorem Observes.eventless {action : Action} (observes : s.Observes net events)
    (taken : s.step net action = some s') (other : action.isEvent = false) : s'.Observes net events := by
  obtain ⟨statuses, told, -⟩ := step_eventless taken other
  constructor
  · rw [told]
    exact observes.told
  · intro d known
    rw [statuses d]
    exact observes.status d known

theorem Observes.foldl (observes : s.Observes net events) (later : List Event.NetworkEvent) :
    (later.foldl (State.processNetworkEvent net) s).Observes net (events ++ later) := by
  induction later generalizing s events with
  | nil => simpa using observes
  | cons event later ih => simpa using ih (observes.processNetworkEvent event)

end State

/-- The events that a network processes before its event task starts. -/
def NetworkEvents.opening (this : NetworkEvents) : List Event.NetworkEvent :=
  this.initialLinkEvents.map (⟨0, .link ·⟩) ++ this.initialNodeEvents.map (⟨0, .node ·⟩)

theorem NetworkEvents.processInitialEvents_eq (this : NetworkEvents) (net : InMemoryNetwork) (s : State) :
    s.processInitialEvents net this = this.opening.foldl (State.processNetworkEvent net) s := by
  rw [opening, List.foldl_append, List.foldl_map, List.foldl_map]
  rfl

/-- The status that a schedule has for a link or node at a time: the one that the last event up
to then carries, and before the first event the opposite of what that one carries. -/
def Device.scheduledStatus (d : Device) (events : List Event.NetworkEvent) (now : Nat) : UpdateStatus :=
  let processed := (events.mergeSort fun e e' => e.relativeTime ≤ e'.relativeTime).filter
    (·.relativeTime ≤ now)
  match latest (fun event => d.status? event.kind) processed with
  | some status => status
  | none => ((firstStatusEvent d.status? events).bind (d.status? ·.kind)).elim .up (·.opposite)

/-- The last of the initial statuses: the opposite of the first status of the schedule, if any. -/
theorem latest_initial {first : Option Event.NetworkEvent}
    {status? : NetworkEventKind → Option UpdateStatus} {statuses : List (Option UpdateStatus)}
    (scheduled : ∀ event, first = some event →
      statuses = [(status? event.kind).map (·.opposite)])
    (free : first = none → ∃ count, statuses = List.replicate count (some .up)) :
    (latest id statuses).any (· = .down) =
      decide ((first.bind (status? ·.kind)).elim .up (·.opposite) = UpdateStatus.down) := by
  cases first with
  | some event =>
      rw [scheduled event rfl]
      cases carried : status? event.kind <;> simp [latest, carried]
  | none =>
      obtain ⟨count, rfl⟩ := free rfl
      cases count with
      | zero => rfl
      | succ count =>
          rw [List.replicate_succ', latest_concat]
          rfl

/-- What opens the simulation prepares each link and node for its first event, unless this is at
time 0. -/
theorem opening_status (events : List Event.NetworkEvent) (nodes : List NetworkNodeSpec)
    (links : List NetworkLinkSpec) (d : Device)
    (later : ∀ event, firstStatusEvent d.status? events = some event → 0 < event.relativeTime) :
    (latest (fun event => d.status? event.kind) (NetworkEvents.new events nodes links).opening).any (· = .down) =
      decide (((firstStatusEvent d.status? events).bind (d.status? ·.kind)).elim .up
        (·.opposite) = UpdateStatus.down) := by
  rw [NetworkEvents.opening, latest_append]
  cases d with
  | link l =>
      have statuses := initialLinkEvents_statuses events nodes links l
      have carried : latest (fun event : Event.NetworkEvent => Device.status? (.link l) event.kind)
          ((NetworkEvents.new events nodes links).initialLinkEvents.map (⟨0, .link ·⟩)) = latest id
            (((NetworkEvents.new events nodes links).initialLinkEvents.filter (·.linkId = l)).map
              (·.status)) := by
        rw [latest_map, latest_map, latest_filter]
        simp only [decide_eq_true_eq]
        rfl
      have others : latest (fun event : Event.NetworkEvent => Device.status? (.link l) event.kind)
          ((NetworkEvents.new events nodes links).initialNodeEvents.map (⟨0, .node ·⟩)) = none := by
        rw [latest_map, latest_eq_none]
        exact fun _ _ => rfl
      rw [others, Option.none_or, carried, statuses]
      apply latest_initial
      · intro event first
        have time := Nat.ne_of_gt (later event first)
        rw [show firstStatusEvent (·.linkStatus? l) events = some event from first]
        exact if_neg time
      · intro first
        rw [show firstStatusEvent (·.linkStatus? l) events = none from first]
        exact ⟨_, rfl⟩
  | node n =>
      have statuses := initialNodeEvents_statuses events nodes links n
      have carried : latest (fun event : Event.NetworkEvent => Device.status? (.node n) event.kind)
          ((NetworkEvents.new events nodes links).initialNodeEvents.map (⟨0, .node ·⟩)) = latest id
            (((NetworkEvents.new events nodes links).initialNodeEvents.filter (·.nodeId = n)).map
              (·.status)) := by
        rw [latest_map, latest_map, latest_filter]
        simp only [decide_eq_true_eq]
        rfl
      have others : latest (fun event : Event.NetworkEvent => Device.status? (.node n) event.kind)
          ((NetworkEvents.new events nodes links).initialLinkEvents.map (⟨0, .link ·⟩)) = none := by
        rw [latest_map, latest_eq_none]
        exact fun _ _ => rfl
      rw [others, Option.or_none, carried, statuses]
      apply latest_initial
      · intro event first
        rw [show firstStatusEvent (·.nodeStatus? n) events = some event from first]
        rfl
      · intro first
        rw [show firstStatusEvent (·.nodeStatus? n) events = none from first]
        exact ⟨_, rfl⟩

namespace Timetable

variable {net : InMemoryNetwork} {events : List Event.NetworkEvent} {nodes : List NetworkNodeSpec}
  {links : List NetworkLinkSpec} {schedule : NetworkEvents} {t t' : Timetable}
  {past : List (Timetable × TimetableAction)}

/-- The events so far: those that opened the simulation, and a part of the schedule that is due. -/
structure Keeps (net : InMemoryNetwork) (schedule : NetworkEvents) (done : List Event.NetworkEvent)
    (t : Timetable) : Prop where
  split : schedule.sortedEvents = done ++ t.pending
  due : ∀ event ∈ done, event.relativeTime ≤ t.state.now
  observes : t.state.Observes net (schedule.opening ++ done)

theorem start_keeps (net : InMemoryNetwork) (schedule : NetworkEvents) :
    Keeps net schedule [] (start net schedule) where
  split := rfl
  due := List.forall_mem_nil _
  observes := by
    have blank : (State.initial net).Observes net [] := by
      refine ⟨rfl, fun d known => ?_⟩
      cases d <;> rfl
    have opened := blank.foldl schedule.opening
    rw [List.nil_append, ← schedule.processInitialEvents_eq] at opened
    rw [List.append_nil]
    exact opened

theorem Keeps.step {action : TimetableAction} {done : List Event.NetworkEvent}
    (keeps : Keeps net schedule done t) (taken : t.step net action = some t') :
    ∃ later, Keeps net schedule (done ++ later) t' := by
  cases action with
  | nextEvent =>
      unfold Timetable.step at taken
      cases pending : t.pending with
      | nil => simp [pending] at taken
      | cons event rest =>
          simp only [pending, Option.ite_none_left_eq_some, Option.some.injEq] at taken
          obtain ⟨due, rfl⟩ := taken
          refine ⟨[event], ?_, ?_, ?_⟩
          · rw [keeps.split, pending]
            simp
          · intro e member
            change e.relativeTime ≤ (t.state.processNetworkEvent net event).now
            rw [State.processNetworkEvent_now]
            rcases List.mem_append.mp member with old | new
            · exact keeps.due e old
            · obtain rfl := List.mem_singleton.mp new
              exact Nat.le_of_not_lt due
          · rw [← List.append_assoc]
            exact keeps.observes.processNetworkEvent event
  | task action =>
      simp only [Timetable.step, Option.ite_none_left_eq_some, Bool.not_eq_true,
        Option.map_eq_some_iff] at taken
      obtain ⟨other, state, taken, rfl⟩ := taken
      refine ⟨[], ?_, ?_, ?_⟩
      · simpa using keeps.split
      · intro e member
        rw [List.append_nil] at member
        exact le_trans (keeps.due e member) (State.step_eventless taken other).2.2
      · rw [List.append_nil]
        exact keeps.observes.eventless taken other

theorem keeps_of_run (run : Run (step net) (start net schedule) past t) :
    ∃ done, Keeps net schedule done t :=
  run.invariant (fun t => ∃ done, Keeps net schedule done t) ⟨[], start_keeps net schedule⟩
    fun _ _ _ ⟨_, keeps⟩ taken => ⟨_, (keeps.step taken).choose_spec⟩

/-- Once the event task has caught up, it has processed all that is due. -/
theorem Keeps.due_iff {done : List Event.NetworkEvent} (keeps : Keeps net (.new events nodes links) done t)
    (caught : ∀ event ∈ t.pending, t.state.now < event.relativeTime) :
    (events.mergeSort fun e e' => e.relativeTime ≤ e'.relativeTime).filter
      (·.relativeTime ≤ t.state.now) = done := by
  have split : events.mergeSort (fun e e' => e.relativeTime ≤ e'.relativeTime) = done ++ t.pending :=
    keeps.split
  have passed : done.filter (·.relativeTime ≤ t.state.now) = done :=
    List.filter_eq_self.mpr fun event member => decide_eq_true (keeps.due event member)
  have ahead : t.pending.filter (·.relativeTime ≤ t.state.now) = [] := by
    apply List.filter_eq_nil_iff.mpr
    intro event member
    have := caught event member
    simpa using this
  rw [split, List.filter_append, passed, ahead, List.append_nil]

theorem Keeps.scheduled {done : List Event.NetworkEvent}
    (keeps : Keeps net (.new events nodes links) done t)
    (caught : ∀ event ∈ t.pending, t.state.now < event.relativeTime) {d : Device} (known : d.Known net) :
    d.isDown t.state = decide (d.scheduledStatus events t.state.now = .down) := by
  rw [keeps.observes.status d known, latest_append, Device.scheduledStatus,
    keeps.due_iff caught]
  cases last : latest (fun event => d.status? event.kind) done with
  | some status => rfl
  | none =>
      rw [Option.none_or]
      refine opening_status events nodes links d fun event first => ?_
      -- An event at time 0 is processed by now
      by_contra early
      have ⟨status, carries⟩ := firstStatusEvent_carries first
      rw [firstStatusEvent, ← find?_mergeSort] at first
      have member := List.mem_of_find?_eq_some first
      have passed : event ∈ done := by
        rw [← keeps.due_iff caught, List.mem_filter]
        refine ⟨member, decide_eq_true ?_⟩
        omega
      rw [latest_eq_none.mp last event passed] at carries
      cases carries

/-- A network that a timetable gets to is one that it could get to without. -/
theorem reached_of_run (run : Run (step net) (start net schedule) past t) :
    ∃ moves, Run (State.step net) (.initial net) moves t.state := by
  refine run.invariant (fun t => ∃ moves, Run (State.step net) (.initial net) moves t.state) ?_ ?_
  · have folded (events : List Event.NetworkEvent) {s : State}
        (reached : ∃ moves, Run (State.step net) (.initial net) moves s) :
        ∃ moves, Run (State.step net) (.initial net) moves
          (events.foldl (State.processNetworkEvent net) s) := by
      induction events generalizing s with
      | nil => exact reached
      | cons event events ih =>
          obtain ⟨moves, run⟩ := reached
          apply ih
          exact ⟨_, run.next (State.step_action net _ event)⟩
    rw [start, schedule.processInitialEvents_eq]
    exact folded schedule.opening ⟨[], .start⟩
  · rintro t action t' ⟨moves, run⟩ taken
    cases action with
    | nextEvent =>
        unfold Timetable.step at taken
        cases pending : t.pending with
        | nil => simp [pending] at taken
        | cons event rest =>
            simp only [pending, Option.ite_none_left_eq_some, Option.some.injEq] at taken
            obtain ⟨-, rfl⟩ := taken
            exact ⟨_, run.next (State.step_action net _ event)⟩
    | task action =>
        simp only [Timetable.step, Option.ite_none_left_eq_some, Option.map_eq_some_iff] at taken
        obtain ⟨-, state, taken, rfl⟩ := taken
        exact ⟨_, run.next taken⟩

/-- The event task can always go on until the next event is in the future. -/
theorem caughtUp (net : InMemoryNetwork) (t : Timetable) :
    ∃ count t', attains (step net) t (List.replicate count .nextEvent) = some t' ∧
      t'.state.now = t.state.now ∧ ∀ event ∈ t'.pending.head?, t.state.now < event.relativeTime := by
  obtain ⟨state, pending⟩ := t
  induction pending generalizing state with
  | nil => exact ⟨0, _, rfl, rfl, nofun⟩
  | cons event rest ih =>
      by_cases due : state.now < event.relativeTime
      · refine ⟨0, _, rfl, rfl, ?_⟩
        simpa using due
      · obtain ⟨count, t', reached, now, caught⟩ := ih (state.processNetworkEvent net event)
        rw [State.processNetworkEvent_now] at now caught
        refine ⟨count + 1, t', ?_, now, caught⟩
        rw [List.replicate_succ, attains, step]
        simpa [due] using reached

/-- The events to come are in the order of time. -/
theorem Keeps.ahead {done : List Event.NetworkEvent} (keeps : Keeps net (.new events nodes links) done t)
    (next : ∀ event ∈ t.pending.head?, t.state.now < event.relativeTime) :
    ∀ event ∈ t.pending, t.state.now < event.relativeTime := by
  have ordered := pairwise_sorted (·.relativeTime) events
  rw [show events.mergeSort _ = done ++ t.pending from keeps.split, List.pairwise_append] at ordered
  cases pending : t.pending with
  | nil => exact List.forall_mem_nil _
  | cons first rest =>
      rw [pending] at ordered next
      have soon := next first rfl
      intro event member
      rcases List.mem_cons.mp member with rfl | later
      · exact soon
      · exact lt_of_lt_of_le soon (List.rel_of_pairwise_cons ordered.2.1 later)

/-- In every run of a network with its event task, what is told of events is what opened the
simulation and then the schedule up to some event, in the order of time: none is skipped, none
comes twice and none is early. Where no event is due any more, which the event task gets to
without any time going by, each link and node has the status that the schedule has for it. -/
theorem keeps_schedule (run : Run (step net) (start net (.new events nodes links)) past t) :
    (∃ moves, Run (State.step net) (.initial net) moves t.state) ∧
    (∃ done, events.mergeSort (fun e e' => e.relativeTime ≤ e'.relativeTime) = done ++ t.pending ∧
      (∀ event ∈ done, event.relativeTime ≤ t.state.now) ∧
      t.state.eventsTold = (((NetworkEvents.new events nodes links).opening ++ done).map
        (·.kind)).filter (·.device.Known net)) ∧
    ((∀ event ∈ t.pending, t.state.now < event.relativeTime) → ∀ d : Device, d.Known net →
      d.isDown t.state = decide (d.scheduledStatus events t.state.now = .down)) ∧
    ∃ count t', attains (step net) t (List.replicate count .nextEvent) = some t' ∧
      t'.state.now = t.state.now ∧ ∀ event ∈ t'.pending, t'.state.now < event.relativeTime := by
  obtain ⟨done, keeps⟩ := keeps_of_run run
  refine ⟨reached_of_run run, ⟨done, keeps.split, keeps.due, keeps.observes.told⟩,
    fun caught d known => keeps.scheduled caught known, ?_⟩
  obtain ⟨count, t', reached, now, next⟩ := caughtUp net t
  obtain ⟨done', keeps'⟩ := keeps_of_run (run.append_moves reached)
  exact ⟨count, t', reached, now, keeps'.ahead (now ▸ next)⟩

/-- A link that goes down at time 5 starts up, and is down at time 5. -/
theorem keeps_schedule_twoHosts : ∃ net past t,
    InMemoryNetwork.initialize .twoHosts id (fun _ size => size) = .ok net ∧
      Run (step net) (start net (.new [⟨5, .link (.ofStatus 0 .down)⟩] NetworkSpec.twoHosts.nodes
        NetworkSpec.twoHosts.links)) past t ∧
      t.state.now = 5 ∧ (State.initial net).now = 0 ∧ Device.isDown t.state (.link 0) = true ∧
      ∀ d : Device, d.Known net → d.isDown t.state = decide
        (d.scheduledStatus [⟨5, .link (.ofStatus 0 .down)⟩] 5 = .down) := by
  have schedule : NetworkEvents.new [⟨5, .link (.ofStatus 0 .down)⟩] NetworkSpec.twoHosts.nodes
      NetworkSpec.twoHosts.links = ⟨[⟨5, .link (.ofStatus 0 .down)⟩],
        [.ofStatus 0 .up], [.ofStatus 0 .up, .ofStatus 1 .up]⟩ := by
    rw [NetworkEvents.new, List.mergeSort_singleton]
    rfl
  let actions : List TimetableAction := [.task (.advance 5), .nextEvent]
  obtain ⟨net, accepted, runs⟩ : ∃ net,
      InMemoryNetwork.initialize .twoHosts id (fun _ size => size) = .ok net ∧
      (attains (step net) (start net ⟨[⟨5, .link (.ofStatus 0 .down)⟩],
        [.ofStatus 0 .up], [.ofStatus 0 .up, .ofStatus 1 .up]⟩) actions).any
        (fun t => decide (t.state.now = 5 ∧ t.pending = [] ∧
          Device.isDown t.state (.link 0) = true)) = true :=
    ⟨_, rfl, by decide⟩
  obtain ⟨t, reached, holds⟩ := (Option.any_eq_true _ _).mp runs
  obtain ⟨now, done, down⟩ := of_decide_eq_true holds
  rw [← schedule] at reached
  have run := Run.of_moves reached
  refine ⟨net, _, t, accepted, run, now, rfl, down, ?_⟩
  have statuses := (keeps_schedule run).2.2.1 (done ▸ List.forall_mem_nil _)
  rw [now] at statuses
  exact statuses

end Timetable

end Workbench.Network
