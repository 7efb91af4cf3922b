import Workbench.Network.Injections
import Workbench.Tracing.Following

/-! Which nodes the packets were sent from that a simulation dropped, as its stepper finds
out from the recorded steps. -/

set_option autoImplicit false

namespace Workbench.Tracing

open Workbench.Library Workbench.Network

structure SimulationStepper where
  steps : List SimulationStep

structure DroppedPacketInfo where
  loops : List (List NodeId)
  random : Nat
  bufferFull : Nat
  bufferCleared : Nat
  deriving DecidableEq, Repr

def DroppedPacketInfo.totalDroppedPackets (this : DroppedPacketInfo) : Nat :=
  this.loops.length + this.random + this.bufferFull + this.bufferCleared

/-- The node that a packet gets to, where the step is about that. -/
def SimulationStep.hop? (id : Uuid) (step : SimulationStep) : Option NodeId :=
  match step.kind with
  | .packetInNode s => if s.packetId = id then some s.nodeId else none
  | _ => none

namespace SimulationStepper

def getPacketHops (this : SimulationStepper) (id : Uuid) : List (Nat × NodeId) :=
  this.steps.filterMap fun step => (step.hop? id).map (step.relativeTime, ·)

/-- The first node that a packet got to; nothing where the code is unreachable. -/
def getPacketSender (this : SimulationStepper) (id : Uuid) : Option NodeId :=
  this.steps.findSome? (·.hop? id)

def getPacketPath (this : SimulationStepper) (id : Uuid) : List NodeId :=
  (this.getPacketHops id).map Prod.snd

def addDropped (this : SimulationStepper) (info : DroppedPacketInfo) (dropped : PacketDropped) :
    DroppedPacketInfo :=
  match dropped.reason with
  | .random => { info with random := info.random + 1 }
  | .zeroTtl => { info with loops := info.loops ++ [this.getPacketPath dropped.packetId] }
  | .bufferFull => { info with bufferFull := info.bufferFull + 1 }
  | .bufferCleared => { info with bufferCleared := info.bufferCleared + 1 }

/-- One round of the loop over the steps. -/
def countDropped (this : SimulationStepper) (sourceNode : NodeId) (info : DroppedPacketInfo)
    (step : SimulationStep) : Option DroppedPacketInfo :=
  match step.kind with
  | .packetDropped dropped => do
    let sender ← this.getPacketSender dropped.packetId
    some (if sender = sourceNode then this.addDropped info dropped else info)
  | _ => some info

def getDroppedPacketInfo (this : SimulationStepper) (sourceNode : NodeId) :
    Option DroppedPacketInfo :=
  this.steps.foldlM (this.countDropped sourceNode) ⟨[], 0, 0, 0⟩

variable {this : SimulationStepper} {n : NodeId} {id : Uuid}

theorem addDropped_total (info : DroppedPacketInfo) (dropped : PacketDropped) :
    (this.addDropped info dropped).totalDroppedPackets = info.totalDroppedPackets + 1 := by
  unfold addDropped DroppedPacketInfo.totalDroppedPackets
  cases dropped.reason <;> simp <;> omega

theorem countDropped_dropped {info : DroppedPacketInfo} {step : SimulationStep}
    {dropped : PacketDropped} (kind : step.kind = .packetDropped dropped) :
    this.countDropped n info step = (this.getPacketSender dropped.packetId).map fun sender =>
      if sender = n then this.addDropped info dropped else info := by
  unfold countDropped
  rw [kind]
  dsimp only
  cases this.getPacketSender dropped.packetId <;> rfl

theorem countDropped_other {info : DroppedPacketInfo} {step : SimulationStep}
    (other : ∀ dropped, step.kind ≠ .packetDropped dropped) :
    this.countDropped n info step = some info := by
  unfold countDropped
  split
  · next dropped kind => exact absurd kind (other dropped)
  · rfl

/-- The loop goes on exactly where the sender of a dropped packet is found. -/
theorem foldlM_countDropped_isSome (steps : List SimulationStep) (info : DroppedPacketInfo) :
    (steps.foldlM (this.countDropped n) info).isSome ↔
      ∀ step ∈ steps, ∀ dropped, step.kind = .packetDropped dropped →
        (this.getPacketSender dropped.packetId).isSome := by
  induction steps generalizing info with
  | nil => simp
  | cons step steps ih =>
      rw [List.foldlM_cons, List.forall_mem_cons]
      by_cases drops : ∃ dropped, step.kind = .packetDropped dropped
      · obtain ⟨dropped, kind⟩ := drops
        rw [countDropped_dropped kind]
        cases sender : this.getPacketSender dropped.packetId with
        | none => simp [kind, sender]
        | some m => simpa [kind, sender] using ih _
      · rw [countDropped_other fun dropped kind => drops ⟨dropped, kind⟩]
        refine (ih info).trans ⟨fun rest => ⟨fun dropped kind => ?_, rest⟩, fun all => all.2⟩
        exact absurd ⟨dropped, kind⟩ drops

theorem getDroppedPacketInfo_isSome : (this.getDroppedPacketInfo n).isSome ↔
    ∀ step ∈ this.steps, ∀ dropped, step.kind = .packetDropped dropped →
      (this.getPacketSender dropped.packetId).isSome :=
  foldlM_countDropped_isSome this.steps _

/-- The loop counts a drop for a node. -/
def Counts (this : SimulationStepper) (n : NodeId) (time : Nat) (dropped : PacketDropped) : Prop :=
  ∀ info, this.countDropped n info ⟨time, .packetDropped dropped⟩ =
    some (this.addDropped info dropped)

theorem counts_iff {time : Nat} {dropped : PacketDropped} :
    this.Counts n time dropped ↔ this.getPacketSender dropped.packetId = some n := by
  constructor
  · intro counts
    have first := counts ⟨[], 0, 0, 0⟩
    rw [countDropped_dropped rfl] at first
    obtain ⟨m, sender, same⟩ := Option.map_eq_some_iff.mp first
    by_cases here : m = n
    · exact here ▸ sender
    · have more := @addDropped_total this ⟨[], 0, 0, 0⟩ dropped
      rw [if_neg here] at same
      rw [← same] at more
      exact absurd more (Nat.succ_ne_self _).symm
  · intro sender info
    simp [countDropped_dropped, sender]

theorem getPacketSender_eq_some : this.getPacketSender id = some n ↔ ∃ before step after,
    this.steps = before ++ step :: after ∧ step.hop? id = some n ∧
      ∀ earlier ∈ before, earlier.hop? id = none :=
  List.findSome?_eq_some_iff

end SimulationStepper

end Workbench.Tracing

namespace Workbench.Network

open Workbench.Library Workbench.Tracing

/-- The trace tells of a packet that it gets into a node or is duplicated there. -/
def Told (id : Uuid) (trace : List SimulationStep) : Prop :=
  ∃ step ∈ trace, ∃ number, step.copy? = some (id, number)

/-- A packet, or the original of which it is a copy, was injected at a node: the injection
gave the number that the original and all copies have. -/
def InjectedAt (past : List (State × Action)) (trace : List SimulationStep) (n : NodeId) (id : Uuid) :
    Prop :=
  ∃ step ∈ trace, ∃ number, step.copy? = some (id, number) ∧ (n, number) ∈ injections past

section

variable {net : InMemoryNetwork} {id : Uuid} {n : NodeId} {trace before after : List SimulationStep}

theorem Told.mono (told : Told id before) (subset : before ⊆ trace) : Told id trace := by
  obtain ⟨step, member, copy⟩ := told
  exact ⟨step, subset member, copy⟩

theorem told_of_sizeIn (inside : sizeIn n id trace ≠ none) : Told id trace := by
  obtain ⟨size, held⟩ := Option.ne_none_iff_exists'.mp inside
  obtain ⟨front, ⟨before, step⟩, back, split, stays, -⟩ :=
    latest_eq_some (Option.join_eq_some_iff.mp held)
  obtain ⟨stay, there, same⟩ := Option.map_eq_some_iff.mp stays
  obtain ⟨time, rfl, -⟩ := Option.map_eq_some_iff.mp same
  obtain ⟨after, whole⟩ := mem_moments.mp (split ▸ List.mem_append_right front List.mem_cons_self)
  refine ⟨step, by simp [whole], ?_⟩
  -- only these two steps put a packet into a node, and both tell its number
  obtain ⟨time, kind⟩ := step
  cases kind with
  | packetInNode s | packetDuplicated s =>
      obtain ⟨here, -⟩ := Option.ite_none_right_eq_some.mp there
      exact ⟨s.packetNumber, by simp [SimulationStep.copy?, here.2]⟩
  | packetInTransit s | packetDropped s | packetDeliveredToApplication s =>
      simp [SimulationStep.stay?] at there
  | _ => cases there

/-- A packet is on a link only where it was in a node before. -/
theorem told_of_openFlight (expected : ∀ before step after, trace = before ++ step :: after →
      Expected net before step.kind) (flies : openFlight id trace ≠ none) : Told id trace := by
  obtain ⟨flight, there⟩ := Option.ne_none_iff_exists'.mp flies
  obtain ⟨before, step, after, split, leaves, -⟩ := latest_eq_some (Option.join_eq_some_iff.mp there)
  have first := expected before step after split
  obtain ⟨time, kind⟩ := step
  cases kind with
  | packetInTransit s =>
      obtain ⟨same, -⟩ := Option.ite_none_right_eq_some.mp leaves
      cases first with
      | sent known inside =>
          exact (told_of_sizeIn (same ▸ inside)).mono (split ▸ List.subset_append_left _ _)
  | packetInNode s | packetLostInTransit s => simp [SimulationStep.flight?] at leaves
  | _ => cases leaves

end

namespace State

variable {net : InMemoryNetwork} {past : List (State × Action)} {s : State}

/-- The first that a run tells of a packet is its injection or its duplication. -/
theorem told_or_injected (fresh : Function.Injective net.uuids)
    (run : Run (State.step net) (.initial net) past s) {before after : List SimulationStep}
    {step : SimulationStep} {p : PacketInNode} (split : s.trace = before ++ step :: after)
    (arrives : step.kind = .packetInNode p) :
    Told p.packetId before ∨ (p.nodeId, p.packetNumber) ∈ injections past := by
  induction run generalizing after with
  | start => simp [initial, trace] at split
  | @next past s s' action run taken ih =>
      obtain ⟨steps, grown, comes⟩ := step_comes taken
      rcases split_append (grown ▸ split) with ⟨rest, inside, -⟩ | ⟨skipped, new, rfl⟩
      · refine (ih inside).imp_right fun injected => ?_
        exact ((List.sublist_cons_self _ _).filterMap _).subset injected
      · cases comes step (new ▸ by simp) p arrives with
        | @landed l q queued same =>
            -- what is on a link was in a node before
            have follows := follows_of_run fresh run
            have there := (follows.placed _ (.inr (.inTransit queued))).there.flight
            refine .inl ((told_of_openFlight follows.expected ?_).mono (List.subset_append_left _ _))
            rw [← same, there]
            exact Option.some_ne_none _
        | injected sent number =>
            subst sent
            exact .inr (number ▸ List.mem_cons_self)

/-- What is told of a packet comes with one number. -/
theorem number_unique (fresh : Function.Injective net.uuids)
    (run : Run (State.step net) (.initial net) past s) {id : Uuid} {number number' : Nat}
    {step step' : SimulationStep} (member : step ∈ s.trace) (copy : step.copy? = some (id, number))
    (member' : step' ∈ s.trace) (copy' : step'.copy? = some (id, number')) : number = number' := by
  obtain ⟨-, -, ⟨numberOf, bounded⟩, -⟩ := bounded_of_run fresh run
  have first := bounded.told step member _ copy
  have second := bounded.told step' member' _ copy'
  exact Option.some.inj (first.symm.trans second)

/-- A packet comes from one node. -/
theorem injectedAt_unique (fresh : Function.Injective net.uuids)
    (run : Run (State.step net) (.initial net) past s) {id : Uuid} {n n' : NodeId}
    (first : InjectedAt past s.trace n id) (second : InjectedAt past s.trace n' id) : n = n' := by
  obtain ⟨step, member, number, copy, injected⟩ := first
  obtain ⟨step', member', number', copy', injected'⟩ := second
  obtain rfl := number_unique fresh run member copy member' copy'
  exact injections_unique fresh run injected injected'

end State

/-- The packet came into being as a duplicate. -/
def Duplicate (id : Uuid) (trace : List SimulationStep) : Prop :=
  ∃ step ∈ trace, ∃ s, step.kind = .packetDuplicated s ∧ s.packetId = id

/-- The first node that a packet gets to is the one where its original was injected. -/
def ReturnsFirst (past : List (State × Action)) (trace : List SimulationStep) (id : Uuid) : Prop :=
  ∃ before step after n, trace = before ++ step :: after ∧ step.hop? id = some n ∧
    (∀ earlier ∈ before, earlier.hop? id = none) ∧ InjectedAt past trace n id

/-- The stepper reports the drops of every node, and counts each drop for the node where the
packet or its original was injected. -/
def DropsAttributed (past : List (State × Action)) (trace : List SimulationStep) : Prop :=
  (∀ n, ((⟨trace⟩ : SimulationStepper).getDroppedPacketInfo n).isSome) ∧
    ∀ time dropped, ⟨time, .packetDropped dropped⟩ ∈ trace → ∀ n,
      (⟨trace⟩ : SimulationStepper).Counts n time dropped ↔ InjectedAt past trace n dropped.packetId

namespace State

variable {net : InMemoryNetwork} {past : List (State × Action)} {s : State}

theorem returnsFirst_iff {trace : List SimulationStep} {id : Uuid} : ReturnsFirst past trace id ↔
    ∃ n, (⟨trace⟩ : SimulationStepper).getPacketSender id = some n ∧ InjectedAt past trace n id := by
  constructor
  · rintro ⟨before, step, after, n, split, hop, first, injected⟩
    exact ⟨n, SimulationStepper.getPacketSender_eq_some.mpr ⟨before, step, after, split, hop, first⟩,
      injected⟩
  · rintro ⟨n, sender, injected⟩
    obtain ⟨before, step, after, split, hop, first⟩ :=
      SimulationStepper.getPacketSender_eq_some.mp sender
    exact ⟨before, step, after, n, split, hop, first, injected⟩

theorem told_of_dropped (fresh : Function.Injective net.uuids)
    (run : Run (State.step net) (.initial net) past s) {time : Nat} {dropped : PacketDropped}
    (member : ⟨time, .packetDropped dropped⟩ ∈ s.trace) : Told dropped.packetId s.trace := by
  obtain ⟨before, after, split⟩ := List.append_of_mem member
  cases (follows_of_run fresh run).expected before _ after split with
  | dropped known inside =>
      exact (told_of_sizeIn inside).mono (split ▸ List.subset_append_left _ _)

/-- The first node that an original gets to is the one where it was injected. -/
theorem returnsFirst_of_original (fresh : Function.Injective net.uuids)
    (run : Run (State.step net) (.initial net) past s) {id : Uuid} (told : Told id s.trace)
    (original : ¬ Duplicate id s.trace) : ReturnsFirst past s.trace id := by
  -- all that is told of an original is that it gets to nodes
  have arrives (step : SimulationStep) (member : step ∈ s.trace) (number : Nat)
      (copy : step.copy? = some (id, number)) : step.hop? id ≠ none := by
    obtain ⟨time, kind⟩ := step
    cases kind with
    | packetInNode p =>
        obtain ⟨same, -⟩ := Prod.mk.inj (Option.some.inj copy)
        simp [SimulationStep.hop?, show p.packetId = id from same]
    | packetDuplicated p =>
        obtain ⟨same, -⟩ := Prod.mk.inj (Option.some.inj copy)
        exact absurd ⟨_, member, p, rfl, same⟩ original
    | _ => cases copy
  obtain ⟨step, member, number, copy⟩ := told
  have found : (s.trace.findSome? (·.hop? id)).isSome := List.findSome?_isSome_iff.mpr
    ⟨step, member, Option.isSome_iff_ne_none.mpr (arrives step member number copy)⟩
  obtain ⟨n, sender⟩ := Option.isSome_iff_exists.mp found
  obtain ⟨before, step, after, split, hop, first⟩ := List.findSome?_eq_some_iff.mp sender
  refine ⟨before, step, after, n, split, hop, first, ?_⟩
  obtain ⟨time, kind⟩ := step
  cases kind with
  | packetInNode p =>
      obtain ⟨rfl, same⟩ := Option.ite_none_right_eq_some.mp hop
      obtain rfl := Option.some.inj same
      rcases told_or_injected fresh run split rfl with ⟨earlier, inside, number, copy⟩ | injected
      · -- nothing was told of the packet before
        exact absurd (first earlier inside)
          (arrives earlier (split ▸ List.mem_append_left _ inside) number copy)
      · exact ⟨_, split ▸ List.mem_append_right _ List.mem_cons_self, p.packetNumber, rfl, injected⟩
  | _ => cases hop

/-- The drop report is right exactly where every dropped duplicate had got back to the node
where its original was injected, before it got to any other. -/
theorem dropsAttributed_iff (fresh : Function.Injective net.uuids)
    (run : Run (State.step net) (.initial net) past s) :
    DropsAttributed past s.trace ↔ ∀ time dropped, ⟨time, .packetDropped dropped⟩ ∈ s.trace →
      Duplicate dropped.packetId s.trace → ReturnsFirst past s.trace dropped.packetId := by
  constructor
  · rintro ⟨reported, counted⟩ time dropped member -
    have found := SimulationStepper.getDroppedPacketInfo_isSome.mp (reported 0) _ member dropped rfl
    obtain ⟨n, sender⟩ := Option.isSome_iff_exists.mp found
    have injected := (counted time dropped member n).mp (SimulationStepper.counts_iff.mpr sender)
    exact returnsFirst_iff.mpr ⟨n, sender, injected⟩
  · intro duplicates
    have senders (time : Nat) (dropped : PacketDropped)
        (member : ⟨time, .packetDropped dropped⟩ ∈ s.trace) :
        ∃ n, (⟨s.trace⟩ : SimulationStepper).getPacketSender dropped.packetId = some n ∧
          InjectedAt past s.trace n dropped.packetId := by
      refine returnsFirst_iff.mp ?_
      by_cases duplicate : Duplicate dropped.packetId s.trace
      · exact duplicates time dropped member duplicate
      · exact returnsFirst_of_original fresh run (told_of_dropped fresh run member) duplicate
    -- the loop gives up at a drop without a sender, and counts for the node that is found
    refine ⟨fun n => ?_, fun time dropped member n => ?_⟩
    · refine SimulationStepper.getDroppedPacketInfo_isSome.mpr fun step member dropped kind => ?_
      obtain ⟨time, _⟩ := step
      obtain rfl := kind
      obtain ⟨m, sender, -⟩ := senders time dropped member
      exact Option.isSome_of_mem sender
    · obtain ⟨m, sender, injected⟩ := senders time dropped member
      rw [SimulationStepper.counts_iff, sender, Option.some.injEq]
      constructor
      · rintro rfl
        exact injected
      · exact injectedAt_unique fresh run injected

/-- Two hosts; the first one has room for one packet, and may duplicate it. -/
def tightBuffer : NetworkSpec where
  nodes :=
    [⟨0, 30, [⟨[⟨1, 24⟩], [⟨⟨.v4 2, .v4 2⟩, .v4 2, 1⟩]⟩], 0, 5⟩, ⟨1, 100, [⟨[⟨2, 24⟩], []⟩], 0, 0⟩]
  links := [⟨0, .v4 1, .v4 2, 10, 1000, 0, 0, 0⟩]

/-- There is no room for a second packet. -/
theorem dropsAttributed_iff_tightBuffer : ∃ net past s,
    InMemoryNetwork.initialize tightBuffer id (fun _ size => size) = .ok net ∧
      Run (State.step net) (.initial net) past s ∧
      s.trace = [⟨0, .packetInNode ⟨0, 0, 28, 0, false⟩⟩, ⟨0, .packetInNode ⟨1, 1, 28, 0, false⟩⟩,
        ⟨0, .packetDropped ⟨1, 0, .bufferFull⟩⟩] ∧
      (DropsAttributed past s.trace ↔ ∀ time dropped, ⟨time, .packetDropped dropped⟩ ∈ s.trace →
        Duplicate dropped.packetId s.trace → ReturnsFirst past s.trace dropped.packetId) := by
  obtain ⟨net, accepted, runs⟩ : ∃ net,
      InMemoryNetwork.initialize tightBuffer id (fun _ size => size) = .ok net ∧
        (attains (step net) (.initial net) [.sendUdp 0 greeting 5, .sendUdp 0 greeting 5]).any
          (fun s => decide <| s.trace = [⟨0, .packetInNode ⟨0, 0, 28, 0, false⟩⟩,
            ⟨0, .packetInNode ⟨1, 1, 28, 0, false⟩⟩, ⟨0, .packetDropped ⟨1, 0, .bufferFull⟩⟩]) =
          true := ⟨_, rfl, by decide +kernel⟩
  obtain ⟨s, reached, holds⟩ := (Option.any_eq_true _ _).mp runs
  have fresh : Function.Injective net.uuids :=
    InMemoryNetwork.initialized_uuids accepted ▸ Function.injective_id
  exact ⟨net, _, s, accepted, Run.of_moves reached, of_decide_eq_true holds,
    dropsAttributed_iff fresh (Run.of_moves reached)⟩

/-- There is no room for a duplicate, which gets to no node, so no drop report returns. -/
theorem duplicateDropped_unreported : ∃ net past s,
    InMemoryNetwork.initialize tightBuffer id (fun _ size => size) = .ok net ∧
      Run (State.step net) (.initial net) past s ∧
      s.trace = [⟨0, .packetInNode ⟨0, 0, 28, 0, false⟩⟩, ⟨0, .packetDuplicated ⟨1, 0, 28, 0⟩⟩,
        ⟨0, .packetDropped ⟨1, 0, .bufferFull⟩⟩] ∧
      (∀ n, (⟨s.trace⟩ : SimulationStepper).getDroppedPacketInfo n = none) ∧
      ¬ DropsAttributed past s.trace := by
  obtain ⟨net, accepted, runs⟩ : ∃ net,
      InMemoryNetwork.initialize tightBuffer id (fun _ size => size) = .ok net ∧
        (attains (step net) (.initial net) [.sendUdp 0 greeting 0]).any
          (fun s => decide <| s.trace = [⟨0, .packetInNode ⟨0, 0, 28, 0, false⟩⟩,
            ⟨0, .packetDuplicated ⟨1, 0, 28, 0⟩⟩, ⟨0, .packetDropped ⟨1, 0, .bufferFull⟩⟩]) =
          true := ⟨_, rfl, by decide +kernel⟩
  obtain ⟨s, reached, holds⟩ := (Option.any_eq_true _ _).mp runs
  have trace := of_decide_eq_true holds
  have unreported (n : NodeId) : (⟨s.trace⟩ : SimulationStepper).getDroppedPacketInfo n = none := by
    rw [trace]
    rfl
  refine ⟨net, _, s, accepted, Run.of_moves reached, trace, unreported, fun attributed => ?_⟩
  have reported := attributed.1 0
  rw [unreported 0] at reported
  cases reported

end State

end Workbench.Network
