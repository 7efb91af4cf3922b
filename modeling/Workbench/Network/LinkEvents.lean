import Workbench.Network.Initialize
import Workbench.Network.Schedule
import Workbench.Network.Sends

/-! What a link event does to its link, and to which links a schedule has it done twice. -/

set_option autoImplicit false

namespace Workbench.Network

open Workbench.Library

/-- A link after an event: its delay changes only if it is down before the event. -/
def LinkState.process (this : LinkState) (now : Nat) (event : LinkEventPayload) : LinkState :=
  let this := if this.isDown then event.delay.elim this this.updateDelay else this
  event.status.elim this (this.updateStatus now)

theorem Switch.update_isDown (switch : Switch) (status : UpdateStatus) :
    (switch.update status).isDown = decide (status = .down) := by
  obtain ⟨status', channels⟩ := switch
  cases status <;> cases status' <;> rfl

theorem Switch.update_same {switch : Switch} {status : UpdateStatus}
    (same : switch.isDown = decide (status = .down)) : switch.update status = switch := by
  obtain ⟨status', channels⟩ := switch
  cases status <;> cases status' <;> first | rfl | cases same

namespace LinkState

variable {this : LinkState} {event : LinkEventPayload} {now now' : Nat}

theorem process_delay : (this.process now event).delay =
    if this.isDown then event.delay.getD this.delay else this.delay := by
  unfold process
  cases event.status <;> cases event.delay <;> split <;> rfl

theorem process_status :
    (this.process now event).status = event.status.elim this.status this.status.update := by
  unfold process
  cases event.status <;> cases event.delay <;> split <;> rfl

theorem process_isDown : (this.process now event).isDown =
    event.status.elim this.isDown fun status => decide (status = .down) := by
  unfold isDown
  rw [process_status]
  cases event.status with
  | none => rfl
  | some status => exact Switch.update_isDown _ _

theorem process_inTransit : (this.process now event).inTransit = this.inTransit := by
  unfold process
  cases event.status <;> cases event.delay <;> split <;> rfl

/-- A second time, an event leaves the status as it is. -/
theorem process_process_status :
    ((this.process now event).process now' event).status = (this.process now event).status := by
  rw [process_status]
  cases carried : event.status with
  | none => rfl
  | some status =>
      refine Switch.update_same ?_
      have down := @process_isDown this event now
      rwa [carried] at down

/-- A second time, an event changes the delay exactly where the first one was refused it
for the link was up, and took the link down. -/
theorem process_process_delay_iff :
    ((this.process now event).process now' event).delay = (this.process now event).delay ↔
      ¬ (this.isDown = false ∧ event.status = some .down ∧
        ∃ delay, event.delay = some delay ∧ delay ≠ this.delay) := by
  rw [process_delay, process_delay, process_isDown]
  cases down : this.isDown <;> cases carried : event.status with
  | none => cases event.delay <;> simp
  | some status => cases status <;> cases event.delay <;> simp [eq_comm]

end LinkState

/-- Two states of a link agree on its status and its delay. -/
structure LinkState.Alike (this that : LinkState) : Prop where
  status : this.status = that.status
  delay : this.delay = that.delay

namespace LinkState

variable {this that other : LinkState} {event : LinkEventPayload} {now now' : Nat}

theorem Alike.refl (this : LinkState) : this.Alike this := ⟨rfl, rfl⟩

theorem Alike.symm (alike : this.Alike that) : that.Alike this := ⟨alike.status.symm, alike.delay.symm⟩

theorem Alike.trans (first : this.Alike that) (second : that.Alike other) : this.Alike other :=
  ⟨first.status.trans second.status, first.delay.trans second.delay⟩

/-- What an event makes of the status and the delay depends on these alone. -/
theorem Alike.process (alike : this.Alike that) : (this.process now event).Alike (that.process now' event) := by
  have down : this.isDown = that.isDown := congrArg Switch.isDown alike.status
  refine ⟨?_, ?_⟩
  · rw [process_status, process_status, alike.status]
  · rw [process_delay, process_delay, alike.delay, down]

theorem process_up (up : this.isDown = false) (l : LinkId) :
    (this.process now (.ofStatus l .up)).Alike this := by
  refine ⟨?_, ?_⟩
  · rw [process_status]
    exact Switch.update_same up
  · rw [process_delay, up]
    rfl

theorem processAll_up (up : this.isDown = false) (l : LinkId) (count : Nat) :
    ((List.replicate count (LinkEventPayload.ofStatus l .up)).foldl (·.process now) this).Alike this := by
  induction count generalizing this with
  | zero => exact .refl this
  | succ count ih =>
      have first := @process_up this now up l
      have up' : (this.process now (.ofStatus l .up)).isDown = false :=
        (congrArg Switch.isDown first.status).trans up
      exact (ih up').trans first

end LinkState

namespace State

variable {net : InMemoryNetwork} {s : State} {event : LinkEventPayload} {l : LinkId}

theorem changeLinkDelay_link (s : State) (l l' : LinkId) (delay : Nat) :
    (s.changeLinkDelay l delay).links l' = { s.links l' with
      delay := if l = l' ∧ (s.links l').isDown = true then delay else (s.links l').delay } := by
  unfold changeLinkDelay
  by_cases same : l' = l
  · subst same
    split
    · next changes => simp [changes.2, LinkState.updateDelay]
    · next keeps =>
        by_cases down : (s.links l').isDown = true
        · have equal : (s.links l').delay = delay := by
            by_contra differs
            exact keeps ⟨differs, down⟩
          simp [← equal]
        · simp [down]
  · split
    · simp [modifyLink_of_ne _ _ same, Ne.symm same]
    · simp [Ne.symm same]

theorem changeLinkDelay_now (s : State) (l : LinkId) (delay : Nat) :
    (s.changeLinkDelay l delay).now = s.now := by
  unfold changeLinkDelay
  split <;> rfl

theorem updateLinkStatus_link (s : State) (l l' : LinkId) (status : UpdateLinkStatus) :
    (s.updateLinkStatus l status).links l' =
      if l = l' then (s.links l').updateStatus s.now status else s.links l' := by
  have updated : (s.updateLinkStatus l status).links =
      (s.modifyLink l (·.updateStatus s.now status)).links := by
    unfold updateLinkStatus
    dsimp only
    split <;> rfl
  rw [updated]
  by_cases same : l' = l
  · subst same
    simp
  · rw [modifyLink_of_ne _ _ same, if_neg (Ne.symm same)]

theorem processLinkEvent_link (known : event.linkId ∈ net.linkIds) :
    (s.processLinkEvent net event).links l =
      if event.linkId = l then (s.links l).process s.now event else s.links l := by
  -- a new delay is taken only while the link is down, and before the status changes
  have delayed : (event.delay.elim s (s.changeLinkDelay event.linkId)).links l =
      if event.linkId = l then
        if (s.links l).isDown then event.delay.elim (s.links l) (s.links l).updateDelay else s.links l
      else s.links l := by
    cases event.delay with
    | none => simp
    | some delay =>
        refine (changeLinkDelay_link s event.linkId l delay).trans ?_
        by_cases here : event.linkId = l <;> by_cases down : (s.links l).isDown = true <;>
          simp [here, down, LinkState.updateDelay]
  have now : (event.delay.elim s (s.changeLinkDelay event.linkId)).now = s.now := by
    cases event.delay with
    | none => rfl
    | some delay => exact changeLinkDelay_now s event.linkId delay
  unfold processLinkEvent
  dsimp only
  rw [if_neg (not_not.mpr known)]
  generalize event.delay.elim s (s.changeLinkDelay event.linkId) = t at delayed now
  change (event.status.elim t (t.updateLinkStatus event.linkId)).links l = _
  cases carried : event.status with
  | none =>
      refine delayed.trans ?_
      simp [LinkState.process, carried]
  | some status =>
      refine (updateLinkStatus_link t event.linkId l status).trans ?_
      rw [delayed, now]
      split
      · simp [LinkState.process, carried]
      · rfl

theorem processLinkEvent_unknown (unknown : event.linkId ∉ net.linkIds) :
    s.processLinkEvent net event = s := by
  unfold processLinkEvent
  exact if_pos unknown

theorem changeLinkDelay_trace (s : State) (l : LinkId) (delay : Nat) :
    (s.changeLinkDelay l delay).trace = s.trace := by
  unfold changeLinkDelay
  split <;> rfl

theorem updateLinkStatus_trace (s : State) (l : LinkId) (status : UpdateLinkStatus) :
    (s.updateLinkStatus l status).trace = s.trace ∧ (s.updateLinkStatus l status).now = s.now := by
  unfold updateLinkStatus
  dsimp only
  split
  · have silent : (LogEntry.wentDown l s.now).step? = none := rfl
    simp [trace, note, modifyLink, silent]
  · exact ⟨rfl, rfl⟩

theorem elim_changeLinkDelay_trace (s : State) (l : LinkId) (delay : Option Nat) :
    (delay.elim s (s.changeLinkDelay l)).trace = s.trace ∧
      (delay.elim s (s.changeLinkDelay l)).now = s.now := by
  cases delay with
  | none => exact ⟨rfl, rfl⟩
  | some delay => exact ⟨changeLinkDelay_trace s l delay, changeLinkDelay_now s l delay⟩

theorem processLinkEvent_now : (s.processLinkEvent net event).now = s.now := by
  have delayed := (elim_changeLinkDelay_trace s event.linkId event.delay).2
  unfold processLinkEvent
  dsimp only
  split
  · rfl
  generalize event.delay.elim s (s.changeLinkDelay event.linkId) = t at delayed
  cases event.status with
  | none => exact delayed
  | some status => exact (updateLinkStatus_trace t event.linkId status).2.trans delayed

theorem processLinkEvent_trace (known : event.linkId ∈ net.linkIds) :
    (s.processLinkEvent net event).trace = s.trace ++ [⟨s.now, .networkEvent ⟨some event, none⟩⟩] := by
  have delayed := elim_changeLinkDelay_trace s event.linkId event.delay
  unfold processLinkEvent
  dsimp only
  rw [if_neg (not_not.mpr known)]
  generalize event.delay.elim s (s.changeLinkDelay event.linkId) = t at delayed
  have updated : (event.status.elim t (t.updateLinkStatus event.linkId)).trace = s.trace ∧
      (event.status.elim t (t.updateLinkStatus event.linkId)).now = s.now := by
    cases event.status with
    | none => exact delayed
    | some status =>
        obtain ⟨told, now⟩ := updateLinkStatus_trace t event.linkId status
        exact ⟨told.trans delayed.1, now.trans delayed.2⟩
  generalize event.status.elim t (t.updateLinkStatus event.linkId) = u at updated
  rw [← updated.1, ← updated.2]
  simp [trace, trackLinkEvent, record, note, LogEntry.step?]

/-- Processing an event twice leaves each link as processing it once does. -/
def HarmlessTwice (net : InMemoryNetwork) (s : State) (event : LinkEventPayload) : Prop :=
  ∀ l, (((s.processLinkEvent net event).processLinkEvent net event).links l).Alike
    ((s.processLinkEvent net event).links l)

/-- The link is up, and the event takes it down and has another delay for it. -/
def Oversteps (net : InMemoryNetwork) (s : State) (event : LinkEventPayload) : Prop :=
  event.linkId ∈ net.linkIds ∧ (s.links event.linkId).isDown = false ∧ event.status = some .down ∧
    ∃ delay, event.delay = some delay ∧ delay ≠ (s.links event.linkId).delay

theorem harmlessTwice_iff (net : InMemoryNetwork) (s : State) (event : LinkEventPayload) :
    HarmlessTwice net s event ↔ ¬ Oversteps net s event := by
  by_cases known : event.linkId ∈ net.linkIds
  · have once := @processLinkEvent_link net s event event.linkId known
    have twice := @processLinkEvent_link net (s.processLinkEvent net event) event event.linkId known
    rw [if_pos rfl] at once twice
    rw [once] at twice
    constructor
    · rintro harmless ⟨-, oversteps⟩
      have same := (harmless event.linkId).delay
      rw [twice, once] at same
      exact LinkState.process_process_delay_iff.mp same oversteps
    · intro within l
      by_cases here : event.linkId = l
      · subst here
        rw [twice, once]
        refine ⟨LinkState.process_process_status, LinkState.process_process_delay_iff.mpr ?_⟩
        exact fun oversteps => within ⟨known, oversteps⟩
      · rw [processLinkEvent_link known, if_neg here]
        exact ⟨rfl, rfl⟩
  · have nothing : HarmlessTwice net s event := by
      intro l
      rw [processLinkEvent_unknown known, processLinkEvent_unknown known]
      exact ⟨rfl, rfl⟩
    exact iff_of_true nothing fun oversteps => known oversteps.1

/-! The start of a schedule. -/

/-- The initial events, before any task runs. -/
def processInitialEvents (net : InMemoryNetwork) (s : State) (events : NetworkEvents) : State :=
  let s := events.initialLinkEvents.foldl (·.processLinkEvent net) s
  events.initialNodeEvents.foldl (·.processNodeEvent net) s

/-- An event of the schedule, when its time has come. -/
def processNetworkEvent (net : InMemoryNetwork) (s : State) (event : Event.NetworkEvent) : State :=
  match event.kind with
  | .link link => s.processLinkEvent net link
  | .node node => s.processNodeEvent net node

theorem processLinkEvents_link (events : List LinkEventPayload) (s : State) (l : LinkId) :
    ((events.foldl (·.processLinkEvent net) s).links l) =
      if l ∈ net.linkIds then
        (events.filter (·.linkId = l)).foldl (·.process s.now) (s.links l)
      else s.links l := by
  induction events generalizing s with
  | nil => simp
  | cons event events ih =>
      rw [List.foldl_cons, ih, processLinkEvent_now]
      by_cases known : event.linkId ∈ net.linkIds
      · rw [processLinkEvent_link known]
        by_cases here : event.linkId = l
        · subst here
          simp [known]
        · simp [here]
      · rw [processLinkEvent_unknown known]
        by_cases here : event.linkId = l
        · subst here
          simp [known]
        · simp [here]

theorem processNodeEvents_links (events : List NodeEventPayload) (s : State) :
    (events.foldl (·.processNodeEvent net) s).links = s.links := by
  induction events generalizing s with
  | nil => rfl
  | cons event events ih => rw [List.foldl_cons, ih, (processNodeEvent_links net s event).links]

theorem processLinkEvent_alike {s s' : State} (alike : ∀ l, (s.links l).Alike (s'.links l)) (l : LinkId) :
    ((s.processLinkEvent net event).links l).Alike ((s'.processLinkEvent net event).links l) := by
  by_cases known : event.linkId ∈ net.linkIds
  · rw [processLinkEvent_link known, processLinkEvent_link known]
    split
    · exact (alike l).process
    · exact alike l
  · rw [processLinkEvent_unknown known, processLinkEvent_unknown known]
    exact alike l

/-- At the start, each link is as its own initial event leaves it. -/
theorem processInitialEvents_link (net : InMemoryNetwork) (events : List Event.NetworkEvent)
    (nodes : List NetworkNodeSpec) (links : List NetworkLinkSpec) (l : LinkId) :
    (((initial net).processInitialEvents net (.new events nodes links)).links l).Alike
      (((firstStatusEvent (·.linkStatus? l) events).bind (·.initialLink?)).elim ((initial net).links l)
        fun entry => ((initial net).processLinkEvent net entry.2).links l) := by
  have own := initialLinkEvents_filter events nodes links l
  unfold processInitialEvents
  dsimp only
  rw [processNodeEvents_links, processLinkEvents_link, own]
  cases made : (firstStatusEvent (·.linkStatus? l) events).bind (·.initialLink?) with
  | none =>
      split
      · exact LinkState.processAll_up rfl l _
      · exact .refl _
  | some entry =>
      rw [made] at own
      have here : entry.2.linkId = l := by
        have member : entry.2 ∈ (NetworkEvents.new events nodes links).initialLinkEvents.filter
            (·.linkId = l) := own ▸ List.mem_singleton_self _
        simpa using (List.mem_filter.mp member).2
      subst here
      split
      · next known =>
          rw [Option.elim_some, processLinkEvent_link known, if_pos rfl]
          exact .refl _
      · next unknown =>
          rw [Option.elim_some, processLinkEvent_unknown unknown]
          exact .refl _

/-- Processing an event twice leaves the status and the delay of each link as processing it
once does, exactly where it does not overstep; and so does a schedule of one link event, at
time 0, which is an initial event and is processed once more. -/
theorem processLinkEvent_twice_iff (net : InMemoryNetwork) :
    (∀ s event, HarmlessTwice net s event ↔ ¬ Oversteps net s event) ∧
      ∀ nodes links event, (∀ l,
        ((((initial net).processInitialEvents net (.new [⟨0, .link event⟩] nodes links)).processNetworkEvent
          net ⟨0, .link event⟩).links l).Alike (((initial net).processLinkEvent net event).links l)) ↔
        ¬ Oversteps net (initial net) event := by
  refine ⟨harmlessTwice_iff net, fun nodes links event => ?_⟩
  have started := processInitialEvents_link net [⟨0, .link event⟩] nodes links
  generalize (initial net).processInitialEvents net (.new [⟨0, .link event⟩] nodes links) = s at started
  have first (l : LinkId) : (firstStatusEvent (·.linkStatus? l) [⟨0, .link event⟩]).bind (·.initialLink?) =
      if event.linkId = l ∧ event.status.isSome = true then some (l, event) else none := by
    by_cases here : event.linkId = l
    · subst here
      cases carried : event.status <;>
        simp [firstStatusEvent, earliest, NetworkEventKind.linkStatus?, Event.NetworkEvent.initialLink?, carried]
    · simp [firstStatusEvent, earliest, NetworkEventKind.linkStatus?, here]
  cases carried : event.status with
  | none =>
      -- an event without a status is no initial event, so it is processed once only
      have alike (l : LinkId) : (s.links l).Alike ((initial net).links l) := by
        have same := started l
        rwa [first, carried, if_neg (by simp)] at same
      refine iff_of_true (processLinkEvent_alike alike) fun oversteps => ?_
      rw [Oversteps, carried] at oversteps
      cases oversteps.2.2.1
  | some status =>
      have alike (l : LinkId) : (s.links l).Alike (((initial net).processLinkEvent net event).links l) := by
        have same := started l
        rw [first, carried] at same
        by_cases here : event.linkId = l
        · rwa [if_pos ⟨here, rfl⟩] at same
        · rw [if_neg (here ·.1)] at same
          refine same.trans ?_
          by_cases known : event.linkId ∈ net.linkIds
          · rw [processLinkEvent_link known, if_neg here]
            exact .refl _
          · rw [processLinkEvent_unknown known]
            exact .refl _
      -- the initial event is the event itself, so this is the second time
      rw [← harmlessTwice_iff]
      have again (l : LinkId) : ((s.processLinkEvent net event).links l).Alike
          ((((initial net).processLinkEvent net event).processLinkEvent net event).links l) :=
        processLinkEvent_alike alike l
      exact forall_congr' fun l => ⟨(again l).symm.trans, (again l).trans⟩

/-- The event of a file that takes a link down and gives it a longer delay. -/
def slowdown : LinkEventPayload := ⟨0, some .down, none, some 20, none, none, none, none, none⟩

/-- At time 0 the delay is refused at first, for the link is up, and accepted right after. -/
theorem slowdown_twice : ∃ net, InMemoryNetwork.initialize .twoHosts id (fun _ size => size) = .ok net ∧
    (((initial net).processLinkEvent net slowdown).links 0).delay = 10 ∧
    ((((initial net).processInitialEvents net (.new [⟨0, .link slowdown⟩] NetworkSpec.twoHosts.nodes
      NetworkSpec.twoHosts.links)).processNetworkEvent net ⟨0, .link slowdown⟩).links 0).delay = 20 ∧
    ¬ HarmlessTwice net (initial net) slowdown := by
  have schedule : NetworkEvents.new [⟨0, .link slowdown⟩] NetworkSpec.twoHosts.nodes
      NetworkSpec.twoHosts.links = ⟨[⟨0, .link slowdown⟩], [slowdown],
        [.ofStatus 0 .up, .ofStatus 1 .up]⟩ := by
    rw [NetworkEvents.new, List.mergeSort_singleton]
    rfl
  rw [schedule]
  refine ⟨_, rfl, rfl, rfl, fun harmless => ?_⟩
  have same := (harmless 0).delay
  cases same

end State

end Workbench.Network
