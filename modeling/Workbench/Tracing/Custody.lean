import Workbench.Tracing.Lawful

/-! Where packets come from and where they are, in a verification without errors: one
origin for each packet, one holder at any time, and travel over links only.

A replay takes a packet that arrives from no link for a new one, whether or not its id
is new. So the verifier vouches for all this in the traces that use an id once. -/

set_option autoImplicit false

namespace Workbench.Tracing

open Workbench.Library Workbench.Network

namespace SimulationStep

/-- The packet that a step is about. -/
def packet? (step : SimulationStep) : Option Uuid :=
  match step.kind with
  | .packetInNode s => some s.packetId
  | .packetDropped s => some s.packetId
  | .packetLostInTransit s => some s.packetId
  | .packetDuplicated s => some s.packetId
  | .packetExtraDelay s => some s.packetId
  | .packetCongestionEvent s => some s.packetId
  | .packetInTransit s => some s.packetId
  | .packetDeliveredToApplication s => some s.packetId
  | .networkEvent _ => none

/-- The packet that appears in a node. -/
def appearing? (step : SimulationStep) : Option Uuid :=
  match step.kind with
  | .packetInNode s => some s.packetId
  | .packetDuplicated s => some s.packetId
  | _ => none

/-- The packet that is delivered, dropped or lost. -/
def ending? (step : SimulationStep) : Option Uuid :=
  match step.kind with
  | .packetInNode s => if s.droppedOnArrival then some s.packetId else none
  | .packetDropped s => some s.packetId
  | .packetLostInTransit s => some s.packetId
  | .packetDeliveredToApplication s => some s.packetId
  | _ => none

end SimulationStep

def Appeared (id : Uuid) (trace : List SimulationStep) : Prop :=
  ∃ step ∈ trace, step.appearing? = some id

def Ended (id : Uuid) (trace : List SimulationStep) : Prop :=
  ∃ step ∈ trace, step.ending? = some id

/-- A node has the packet. -/
def Held (n : NodeId) (id : Uuid) (trace : List SimulationStep) : Prop :=
  (entered n id trace).isSome

/-- The trace ends with the transit of a packet, and with marks on it at most since then. -/
def SentBy (s : PacketInTransit) (trace : List SimulationStep) : Prop :=
  ∃ past sent rest, trace = past ++ sent :: rest ∧ sent.kind = .packetInTransit s ∧
    ∀ other ∈ rest, other.packet? = some s.packetId →
      ∃ mark, other.kind = .packetCongestionEvent mark

/-- Packets are duplicated by duplications only, and travel over links only. -/
structure Sound (links : LinkId → Option LinkMetadata) (trace : List SimulationStep) : Prop where
  /-- The first step about a packet is its origin. -/
  origin : ∀ before step after id, trace = before ++ step :: after → step.packet? = some id →
    step.appearing? = some id ∨ Appeared id before
  /-- A packet that appears again ends a transit over a link to the node. -/
  travels : ∀ before step after id, trace = before ++ step :: after →
    step.appearing? = some id → Appeared id before →
    ∃ s, step.kind = .packetInNode s ∧ ∃ sent metadata, SentBy sent before ∧
      sent.packetId = id ∧ links sent.linkId = some metadata ∧ s.nodeId = metadata.targetNodeId
  /-- A packet is never in two nodes, nor in a node and on a link. -/
  holders : ∀ before after, trace = before ++ after → ∀ id,
    (∀ n n', Held n id before → Held n' id before → n = n') ∧
      ∀ n, Held n id before → openFlight id before = none
  /-- No step is about a packet that was delivered, dropped or lost. -/
  ended : ∀ before step after id, trace = before ++ step :: after → step.packet? = some id →
    ¬ Ended id before

/-- A step that a replay takes for the origin of a packet. -/
def Creates (before : List SimulationStep) (step : SimulationStep) (id : Uuid) : Prop :=
  (∃ s, step.kind = .packetInNode s ∧ s.packetId = id ∧ openFlight id before = none) ∨
    ∃ s, step.kind = .packetDuplicated s ∧ s.packetId = id

/-- A packet whose origin is marked as dropped on arrival. -/
def Stillborn (id : Uuid) (trace : List SimulationStep) : Prop :=
  ∃ past step rest, trace = past ++ step :: rest ∧ Creates past step id ∧ step.ending? = some id

/-- New packets have new ids, marks are on packets that are somewhere, and a packet
that is dropped where it was made is not used. -/
structure Regular (before : List SimulationStep) (step : SimulationStep) : Prop where
  created : ∀ id, Creates before step id → ¬ Appeared id before
  marked : ∀ s, step.kind = .packetCongestionEvent s →
    Appeared s.packetId before ∧ ¬ Ended s.packetId before
  unused : ∀ id, step.packet? = some id → ¬ Stillborn id before

/-- What a replay checks of where packets are. -/
structure Accepted (links : LinkId → Option LinkMetadata) (before : List SimulationStep)
    (step : SimulationStep) : Prop where
  leaves : ∀ n id, step.stay? false n id = some none → Held n id before
  delayed : ∀ s, step.kind = .packetExtraDelay s → Held s.nodeId s.packetId before
  lost : ∀ s, step.kind = .packetLostInTransit s → openFlight s.packetId before ≠ none
  landed : ∀ s flight, step.kind = .packetInNode s → openFlight s.packetId before = some flight →
    ∃ metadata, links flight.link = some metadata ∧ s.nodeId = metadata.targetNodeId

/-! Traces that grow by a step. -/

section

variable {trace : List SimulationStep} {step : SimulationStep} {id : Uuid}

theorem appeared_concat :
    Appeared id (trace ++ [step]) ↔ Appeared id trace ∨ step.appearing? = some id := by
  simp [Appeared, or_and_right, exists_or]

theorem ended_concat :
    Ended id (trace ++ [step]) ↔ Ended id trace ∨ step.ending? = some id := by
  simp [Ended, or_and_right, exists_or]

theorem held_concat_of_none {n : NodeId}
    (still : step.stay? (openFlight id trace).isSome n id = none) :
    Held n id (trace ++ [step]) ↔ Held n id trace := by
  rw [Held, entered_concat, still, Held, Option.getD_none]

theorem not_held_of_left {n : NodeId}
    (left : step.stay? (openFlight id trace).isSome n id = some none) :
    ¬ Held n id (trace ++ [step]) := by
  rw [Held, entered_concat, left]
  simp

theorem Stillborn.concat (stillborn : Stillborn id trace) : Stillborn id (trace ++ [step]) := by
  obtain ⟨past, made, rest, rfl, creates, ends⟩ := stillborn
  exact ⟨past, made, rest ++ [step], by simp, creates, ends⟩

theorem SentBy.concat {s : PacketInTransit} (sent : SentBy s trace)
    (mark : step.packet? = some s.packetId → ∃ mark, step.kind = .packetCongestionEvent mark) :
    SentBy s (trace ++ [step]) := by
  obtain ⟨past, transit, rest, rfl, same, marks⟩ := sent
  refine ⟨past, transit, rest ++ [step], by simp, same, fun other member => ?_⟩
  rcases List.mem_append.mp member with old | new
  · exact marks other old
  · obtain rfl := List.mem_singleton.mp new
    exact mark

theorem SimulationStep.other_packet (other : step.packet? ≠ some id) :
    (∀ flying n, step.stay? flying n id = none) ∧ step.flight? id = none ∧
      step.ending? ≠ some id := by
  obtain ⟨time, kind⟩ := step
  cases kind <;>
    simp_all [SimulationStep.packet?, SimulationStep.stay?, SimulationStep.flight?,
      SimulationStep.ending?]

end

/-! Where one packet is after each step. -/

def Somewhere (id : Uuid) (trace : List SimulationStep) : Prop :=
  (∃ n, Held n id trace) ∨ openFlight id trace ≠ none

structure Custody (id : Uuid) (trace : List SimulationStep) : Prop where
  alone : ∀ n n', Held n id trace → Held n' id trace → n = n'
  grounded : ∀ n, Held n id trace → openFlight id trace = none
  carried : ∀ flight, openFlight id trace = some flight →
    ∃ s, SentBy s trace ∧ s.packetId = id ∧ s.linkId = flight.link
  appeared : Somewhere id trace → Appeared id trace
  ended : Ended id trace → Appeared id trace ∧ (Somewhere id trace → Stillborn id trace)

namespace Custody

variable {id : Uuid} {trace : List SimulationStep} {step : SimulationStep}
  {links : LinkId → Option LinkMetadata}

theorem nil (id : Uuid) : Custody id [] where
  alone n n' held := by cases held
  grounded n held := by cases held
  carried flight opened := by cases opened
  appeared somewhere := by
    rcases somewhere with ⟨n, held⟩ | opened
    · cases held
    · exact absurd rfl opened
  ended finished := by
    obtain ⟨step, member, -⟩ := finished
    cases member

theorem nowhere (appeared : Appeared id trace) (gone : ¬ Somewhere id trace) :
    Custody id trace where
  alone n n' held := absurd (.inl ⟨n, held⟩) gone
  grounded n held := absurd (.inl ⟨n, held⟩) gone
  carried flight opened := absurd (.inr (by simp [opened])) gone
  appeared _ := appeared
  ended _ := ⟨appeared, fun somewhere => absurd somewhere gone⟩

theorem inside {n : NodeId} (appeared : Appeared id trace)
    (here : ∀ n', Held n' id trace → n' = n) (grounded : openFlight id trace = none)
    (ended : Ended id trace → Stillborn id trace) : Custody id trace where
  alone n' n'' held held' := (here n' held).trans (here n'' held').symm
  grounded _ _ := grounded
  carried flight opened := by simp [grounded] at opened
  appeared _ := appeared
  ended finished := ⟨appeared, fun _ => ended finished⟩

/-- A step that neither moves nor ends the packet. -/
theorem quiet (custody : Custody id trace)
    (still : ∀ n, step.stay? (openFlight id trace).isSome n id = none)
    (level : step.flight? id = none) (lives : step.ending? ≠ some id)
    (mark : openFlight id trace ≠ none → step.packet? = some id →
      ∃ mark, step.kind = .packetCongestionEvent mark) : Custody id (trace ++ [step]) := by
  have held (n : NodeId) : Held n id (trace ++ [step]) ↔ Held n id trace :=
    held_concat_of_none (still n)
  have flight : openFlight id (trace ++ [step]) = openFlight id trace := by
    rw [openFlight_concat, level, Option.getD_none]
  have somewhere : Somewhere id (trace ++ [step]) ↔ Somewhere id trace := by
    simp only [Somewhere, held, flight]
  refine ⟨fun n n' one other => ?_, fun n one => ?_, fun f opened => ?_, fun there => ?_,
    fun finished => ?_⟩
  · exact custody.alone n n' ((held n).mp one) ((held n').mp other)
  · exact flight.trans (custody.grounded n ((held n).mp one))
  · rw [flight] at opened
    obtain ⟨s, sent, rfl, same⟩ := custody.carried f opened
    exact ⟨s, sent.concat (mark (by simp [opened])), rfl, same⟩
  · exact appeared_concat.mpr (.inl (custody.appeared (somewhere.mp there)))
  · rcases ended_concat.mp finished with finished | ends
    · obtain ⟨appeared, stillborn⟩ := custody.ended finished
      exact ⟨appeared_concat.mpr (.inl appeared), fun there => (stillborn (somewhere.mp there)).concat⟩
    · exact absurd ends lives

/-- A packet with a new id is nowhere before its origin. -/
theorem created {n : NodeId} (custody : Custody id trace) (creates : Creates trace step id)
    (fresh : ¬ Appeared id trace) (appears : step.appearing? = some id)
    (elsewhere : ∀ n', n' ≠ n → step.stay? (openFlight id trace).isSome n' id = none)
    (level : (step.flight? id).getD none = none) : Custody id (trace ++ [step]) := by
  have gone : ¬ Somewhere id trace := fun somewhere => fresh (custody.appeared somewhere)
  refine inside (n := n) (appeared_concat.mpr (.inr appears)) (fun n' held => ?_) ?_ fun finished => ?_
  · by_contra differs
    exact gone (.inl ⟨n', (held_concat_of_none (elsewhere n' differs)).mp held⟩)
  · have grounded : openFlight id trace = none := by
      by_contra opened
      exact gone (.inr opened)
    rw [openFlight_concat, grounded, level]
  · rcases ended_concat.mp finished with finished | ends
    · exact absurd (custody.ended finished).1 fresh
    · exact ⟨trace, step, [], rfl, creates, ends⟩

/-- A packet that leaves a node is nowhere else. -/
theorem left {n : NodeId} (custody : Custody id trace) (held : Held n id trace)
    (leaves : step.stay? (openFlight id trace).isSome n id = some none)
    (elsewhere : ∀ n', n' ≠ n → step.stay? (openFlight id trace).isSome n' id = none) (n' : NodeId) :
    ¬ Held n' id (trace ++ [step]) := by
  by_cases here : n' = n
  · rw [here]
    exact not_held_of_left leaves
  · rw [held_concat_of_none (elsewhere n' here)]
    exact fun held' => here (custody.alone n' n held' held)

theorem taken {n : NodeId} (custody : Custody id trace) (held : Held n id trace)
    (leaves : step.stay? (openFlight id trace).isSome n id = some none)
    (elsewhere : ∀ n', n' ≠ n → step.stay? (openFlight id trace).isSome n' id = none)
    (level : step.flight? id = none) : Custody id (trace ++ [step]) := by
  refine nowhere (appeared_concat.mpr (.inl (custody.appeared (.inl ⟨n, held⟩)))) ?_
  rintro (⟨n', held'⟩ | opened)
  · exact custody.left held leaves elsewhere n' held'
  · rw [openFlight_concat, level, Option.getD_none, custody.grounded n held] at opened
    exact opened rfl

theorem sent {s : PacketInTransit} (custody : Custody s.packetId trace)
    (kind : step.kind = .packetInTransit s) (held : Held s.nodeId s.packetId trace)
    (used : ¬ Stillborn s.packetId trace) : Custody s.packetId (trace ++ [step]) := by
  have flies : openFlight s.packetId (trace ++ [step]) = some ⟨s.linkId, step.relativeTime⟩ := by
    simp [openFlight_concat, SimulationStep.flight?, kind]
  have leaves : step.stay? (openFlight s.packetId trace).isSome s.nodeId s.packetId =
      some none := by simp [SimulationStep.stay?, kind]
  have away := custody.left held leaves fun n' differs => by
    simp [SimulationStep.stay?, kind, Ne.symm differs]
  have appeared := custody.appeared (.inl ⟨s.nodeId, held⟩)
  refine ⟨fun n n' held' => absurd held' (away n), fun n held' => absurd held' (away n),
    fun flight opened => ?_, fun _ => appeared_concat.mpr (.inl appeared), fun finished => ?_⟩
  · obtain rfl := Option.some.inj (flies.symm.trans opened)
    exact ⟨s, ⟨trace, step, [], rfl, kind, by simp⟩, rfl, rfl⟩
  · rcases ended_concat.mp finished with finished | ends
    · exact absurd ((custody.ended finished).2 (.inl ⟨s.nodeId, held⟩)) used
    · simp [SimulationStep.ending?, kind] at ends

/-- A packet that comes from a link is in no node before. -/
theorem landed {s : PacketInNode} {flight : Flight} (custody : Custody s.packetId trace)
    (kind : step.kind = .packetInNode s) (opened : openFlight s.packetId trace = some flight) :
    Custody s.packetId (trace ++ [step]) := by
  have away (n : NodeId) : ¬ Held n s.packetId trace := fun held => by
    simp [custody.grounded n held] at opened
  have appeared : Appeared s.packetId (trace ++ [step]) :=
    appeared_concat.mpr (.inr (by simp [SimulationStep.appearing?, kind]))
  have down : openFlight s.packetId (trace ++ [step]) = none := by
    simp [openFlight_concat, SimulationStep.flight?, kind]
  have elsewhere (n : NodeId) (other : n ≠ s.nodeId ∨ s.droppedOnArrival = true) :
      ¬ Held n s.packetId (trace ++ [step]) := by
    rw [held_concat_of_none]
    · exact away n
    · rcases other with differs | dropped
      · simp [SimulationStep.stay?, kind, Ne.symm differs]
      · simp [SimulationStep.stay?, kind, opened, dropped]
  cases dropped : s.droppedOnArrival with
  | true =>
      refine nowhere appeared ?_
      rintro (⟨n, held⟩ | opened')
      · exact elsewhere n (.inr dropped) held
      · exact opened' down
  | false =>
      refine inside (n := s.nodeId) appeared (fun n held => ?_) down fun finished => ?_
      · by_contra differs
        exact elsewhere n (.inl differs) held
      · rcases ended_concat.mp finished with finished | ends
        · exact ((custody.ended finished).2 (.inr (by simp [opened]))).concat
        · simp [SimulationStep.ending?, kind, dropped] at ends

/-- A regular step that a replay accepts keeps each packet in one place at most. -/
theorem kept (custody : Custody id trace) (accepted : Accepted links trace step)
    (regular : Regular trace step) : Custody id (trace ++ [step]) := by
  by_cases about : step.packet? = some id
  · obtain ⟨time, kind⟩ := step
    cases kind with
    | packetInNode s =>
        obtain rfl := Option.some.inj about
        -- A packet that is in no flight comes into being here; else it lands.
        cases opened : openFlight s.packetId trace with
        | none =>
            have creates : Creates trace ⟨time, .packetInNode s⟩ s.packetId :=
              .inl ⟨s, rfl, rfl, opened⟩
            refine custody.created (n := s.nodeId) creates (regular.created _ creates) rfl ?_ ?_
            · intro n differs
              simp [SimulationStep.stay?, Ne.symm differs]
            · simp [SimulationStep.flight?]
        | some flight => exact custody.landed rfl opened
    | packetDuplicated s =>
        obtain rfl := Option.some.inj about
        have creates : Creates trace ⟨time, .packetDuplicated s⟩ s.packetId := .inr ⟨s, rfl, rfl⟩
        refine custody.created (n := s.nodeId) creates (regular.created _ creates) rfl ?_ rfl
        intro n differs
        simp [SimulationStep.stay?, Ne.symm differs]
    | packetInTransit s =>
        obtain rfl := Option.some.inj about
        exact custody.sent rfl (accepted.leaves _ _ (by simp [SimulationStep.stay?]))
          (regular.unused _ rfl)
    | packetDropped s =>
        obtain rfl := Option.some.inj about
        refine custody.taken (n := s.nodeId) (accepted.leaves _ _ ?_) ?_ (fun n differs => ?_) rfl
        · simp [SimulationStep.stay?]
        · simp [SimulationStep.stay?]
        · simp [SimulationStep.stay?, Ne.symm differs]
    | packetDeliveredToApplication s =>
        obtain rfl := Option.some.inj about
        refine custody.taken (n := s.nodeId) (accepted.leaves _ _ ?_) ?_ (fun n differs => ?_) rfl
        · simp [SimulationStep.stay?]
        · simp [SimulationStep.stay?]
        · simp [SimulationStep.stay?, Ne.symm differs]
    | packetLostInTransit s =>
        obtain rfl := Option.some.inj about
        have opened := accepted.lost s rfl
        refine nowhere (appeared_concat.mpr (.inl (custody.appeared (.inr opened)))) ?_
        -- It is in no node, since it was in flight, and the flight ends with this step.
        rintro (⟨n, held⟩ | opened')
        · rw [held_concat_of_none rfl] at held
          exact opened (custody.grounded n held)
        · simp [openFlight_concat, SimulationStep.flight?] at opened'
    | packetExtraDelay s =>
        obtain rfl := Option.some.inj about
        refine custody.quiet (fun _ => rfl) rfl (by simp [SimulationStep.ending?]) ?_
        exact fun opened => absurd (custody.grounded _ (accepted.delayed s rfl)) opened
    | packetCongestionEvent s =>
        exact custody.quiet (fun _ => rfl) rfl (by simp [SimulationStep.ending?])
          fun _ _ => ⟨s, rfl⟩
    | networkEvent e => cases about
  · obtain ⟨still, level, lives⟩ := SimulationStep.other_packet about
    exact custody.quiet (still _) level lives fun _ same => absurd same about

/-- A packet that was delivered, dropped or lost is nowhere, so nothing is done with it. -/
theorem not_ended (custody : Custody id trace) (accepted : Accepted links trace step)
    (regular : Regular trace step) (about : step.packet? = some id) : ¬ Ended id trace := by
  intro finished
  obtain ⟨appeared, stillborn⟩ := custody.ended finished
  have gone : ¬ Somewhere id trace := fun there => regular.unused id about (stillborn there)
  have absent (n : NodeId) : ¬ Held n id trace := fun held => gone (.inl ⟨n, held⟩)
  obtain ⟨time, kind⟩ := step
  cases kind with
  | packetInNode s =>
      obtain rfl := Option.some.inj about
      refine regular.created s.packetId (.inl ⟨s, rfl, rfl, ?_⟩) appeared
      by_contra opened
      exact gone (.inr opened)
  | packetDuplicated s =>
      obtain rfl := Option.some.inj about
      exact regular.created s.packetId (.inr ⟨s, rfl, rfl⟩) appeared
  | packetInTransit s =>
      obtain rfl := Option.some.inj about
      exact absent s.nodeId (accepted.leaves _ _ (by simp [SimulationStep.stay?]))
  | packetDropped s =>
      obtain rfl := Option.some.inj about
      exact absent s.nodeId (accepted.leaves _ _ (by simp [SimulationStep.stay?]))
  | packetDeliveredToApplication s =>
      obtain rfl := Option.some.inj about
      exact absent s.nodeId (accepted.leaves _ _ (by simp [SimulationStep.stay?]))
  | packetLostInTransit s =>
      obtain rfl := Option.some.inj about
      exact gone (.inr (accepted.lost s rfl))
  | packetExtraDelay s =>
      obtain rfl := Option.some.inj about
      exact absent s.nodeId (accepted.delayed s rfl)
  | packetCongestionEvent s =>
      obtain rfl := Option.some.inj about
      exact (regular.marked s rfl).2 finished
  | networkEvent e => cases about

/-- Nothing is done with a packet before its origin. -/
theorem origin (custody : Custody id trace) (accepted : Accepted links trace step)
    (regular : Regular trace step) (about : step.packet? = some id) :
    step.appearing? = some id ∨ Appeared id trace := by
  obtain ⟨time, kind⟩ := step
  have there {n : NodeId} (held : Held n id trace) : Appeared id trace :=
    custody.appeared (.inl ⟨n, held⟩)
  cases kind with
  | packetInNode s => exact .inl about
  | packetDuplicated s => exact .inl about
  | packetInTransit s =>
      obtain rfl := Option.some.inj about
      exact .inr (there (accepted.leaves s.nodeId _ (by simp [SimulationStep.stay?])))
  | packetDropped s =>
      obtain rfl := Option.some.inj about
      exact .inr (there (accepted.leaves s.nodeId _ (by simp [SimulationStep.stay?])))
  | packetDeliveredToApplication s =>
      obtain rfl := Option.some.inj about
      exact .inr (there (accepted.leaves s.nodeId _ (by simp [SimulationStep.stay?])))
  | packetLostInTransit s =>
      obtain rfl := Option.some.inj about
      exact .inr (custody.appeared (.inr (accepted.lost s rfl)))
  | packetExtraDelay s =>
      obtain rfl := Option.some.inj about
      exact .inr (there (accepted.delayed s rfl))
  | packetCongestionEvent s =>
      obtain rfl := Option.some.inj about
      exact .inr (regular.marked s rfl).1
  | networkEvent e => cases about

theorem travels (custody : Custody id trace) (accepted : Accepted links trace step)
    (regular : Regular trace step) (appears : step.appearing? = some id)
    (again : Appeared id trace) : ∃ s, step.kind = .packetInNode s ∧
      ∃ sent metadata, SentBy sent trace ∧ sent.packetId = id ∧
        links sent.linkId = some metadata ∧ s.nodeId = metadata.targetNodeId := by
  obtain ⟨time, kind⟩ := step
  have old := fun creates => regular.created id creates again
  cases kind with
  | packetInNode s =>
      obtain rfl := Option.some.inj appears
      cases opened : openFlight s.packetId trace with
      | none => exact absurd (.inl ⟨s, rfl, rfl, opened⟩) old
      | some flight =>
          obtain ⟨sent, sentBy, same, link⟩ := custody.carried flight opened
          obtain ⟨metadata, known, target⟩ := accepted.landed s flight rfl opened
          exact ⟨s, rfl, sent, metadata, sentBy, same, link ▸ known, target⟩
  | packetDuplicated s =>
      obtain rfl := Option.some.inj appears
      exact absurd (.inr ⟨s, rfl, rfl⟩) old
  | _ => cases appears

end Custody

/-- The latest transit of a packet that is marked at most since then is still open. -/
theorem SentBy.openFlight {s : PacketInTransit} {trace : List SimulationStep}
    (sent : SentBy s trace) : openFlight s.packetId trace ≠ none := by
  obtain ⟨past, transit, rest, rfl, kind, marks⟩ := sent
  induction rest using List.reverseRecOn with
  | nil => simp [openFlight_concat, SimulationStep.flight?, kind]
  | append_singleton rest newest ih =>
      have quiet : newest.flight? s.packetId = none := by
        by_cases about : newest.packet? = some s.packetId
        · obtain ⟨mark, same⟩ := marks newest (by simp) about
          simp [SimulationStep.flight?, same]
        · exact (SimulationStep.other_packet about).2.1
      rw [← List.cons_append, ← List.append_assoc, openFlight_concat, quiet, Option.getD_none]
      exact ih fun other member => marks other (List.mem_append_left _ member)

/-- A trace that a replay accepts step by step is sound iff its steps are regular. -/
theorem sound_iff {links : LinkId → Option LinkMetadata} {trace : List SimulationStep}
    (accepted : ∀ before step after, trace = before ++ step :: after →
      Accepted links before step) :
    Sound links trace ↔ ∀ before step after, trace = before ++ step :: after →
      Regular before step := by
  constructor
  · intro sound before step after split
    refine ⟨fun id creates appeared => ?_, fun s same => ?_, fun id about stillborn => ?_⟩
    · rcases creates with ⟨s, kind, rfl, grounded⟩ | ⟨s, kind, rfl⟩
      · obtain ⟨-, -, sent, -, sentBy, same, -⟩ := sound.travels before step after s.packetId split
          (by simp [SimulationStep.appearing?, kind]) appeared
        exact sentBy.openFlight (same ▸ grounded)
      · obtain ⟨s', kind', -⟩ := sound.travels before step after s.packetId split
          (by simp [SimulationStep.appearing?, kind]) appeared
        simp [kind] at kind'
    · have about : step.packet? = some s.packetId := by simp [SimulationStep.packet?, same]
      refine ⟨?_, sound.ended before step after s.packetId split about⟩
      exact (sound.origin before step after s.packetId split about).resolve_left
        (by simp [SimulationStep.appearing?, same])
    · obtain ⟨past, made, rest, rfl, -, ends⟩ := stillborn
      exact sound.ended _ step after id split about ⟨made, by simp, ends⟩
  · intro regular
    have custody (id : Uuid) (before after : List SimulationStep) (split : trace = before ++ after) :
        Custody id before := by
      induction before using List.reverseRecOn generalizing after with
      | nil => exact .nil id
      | append_singleton before step ih =>
          have here : trace = before ++ step :: after := by simpa using split
          exact (ih _ here).kept (accepted before step after here) (regular before step after here)
    refine ⟨fun before step after id split about => ?_,
      fun before step after id split appears again => ?_, fun before after split id => ?_,
      fun before step after id split about => ?_⟩
    · exact (custody id before _ split).origin (accepted before step after split)
        (regular before step after split) about
    · exact (custody id before _ split).travels (accepted before step after split)
        (regular before step after split) appears again
    · exact ⟨(custody id before after split).alone, (custody id before after split).grounded⟩
    · exact (custody id before _ split).not_ended (accepted before step after split)
        (regular before step after split) about

/-- A packet leaves a node for a link, for an application, or when it is dropped. -/
theorem SimulationStep.of_leaves {step : SimulationStep} {flying : Bool} {n : NodeId} {id : Uuid}
    (leaves : step.stay? flying n id = some none) :
    (∃ s, step.kind = .packetInTransit s ∧ s.nodeId = n ∧ s.packetId = id) ∨
      (∃ s, step.kind = .packetDropped s ∧ s.nodeId = n ∧ s.packetId = id) ∨
      ∃ s, step.kind = .packetDeliveredToApplication s ∧ s.nodeId = n ∧ s.packetId = id := by
  unfold stay? at leaves
  split at leaves
  · split at leaves <;> cases leaves
  · split at leaves <;> cases leaves
  · next s kind =>
      split at leaves
      · next here => exact .inl ⟨s, kind, here⟩
      · cases leaves
  · next s kind =>
      split at leaves
      · next here => exact .inr (.inl ⟨s, kind, here⟩)
      · cases leaves
  · next s kind =>
      split at leaves
      · next here => exact .inr (.inr ⟨s, kind, here⟩)
      · cases leaves
  · cases leaves

/-! What replays accept. -/

namespace Replay

variable {this next : Replay} {before : List SimulationStep}

theorem Mirrors.held (mirrors : this.Mirrors before) {n : NodeId} {node : ReplayedNode} {id : Uuid}
    {packet : ReplayedPacket} (found : this.nodes.lookup n = some node)
    (there : node.packets.lookup id = some packet) : Held n id before := by
  rw [Held, ← (mirrors.nodes n node found).2.2 id, ReplayedNode.arrival, there]
  rfl

theorem replayKind_accepted {time : Nat} {kind : SimulationStepKind}
    (mirrors : this.Mirrors before) (clean : (this.replayKind time kind).Clean next) :
    Accepted this.linkMetadata.lookup before ⟨time, kind⟩ := by
  refine ⟨fun n id leaves => ?_, fun s same => ?_, fun s same => ?_, fun s flight same opened => ?_⟩
  · rcases SimulationStep.of_leaves leaves with ⟨s, rfl, rfl, rfl⟩ | ⟨s, rfl, rfl, rfl⟩ | ⟨s, rfl, rfl, rfl⟩
    · obtain ⟨node, packet, node', -, -, -, -, found, sent, -⟩ := packetInTransit_clean.mp clean
      exact mirrors.held found (ReplayedNode.packetSent_clean.mp sent).2.1
    · obtain ⟨node, found, node', dropped, -⟩ := withNode_clean.mp clean
      obtain ⟨out, removed, -⟩ := Tracked.clean_bind.mp dropped
      exact mirrors.held found (ReplayedNode.removePacketFromBuffer_clean.mp removed).1
    · obtain ⟨node, found, node', delivered, -⟩ := withNode_clean.mp clean
      obtain ⟨out, removed, -⟩ := Tracked.clean_bind.mp delivered
      exact mirrors.held found (ReplayedNode.removePacketFromBuffer_clean.mp removed).1
  · cases same
    obtain ⟨node, found, node', delayed, -⟩ := withNode_clean.mp clean
    cases there : node.packets.lookup s.packetId with
    | none => simp [ReplayedNode.packetHasExtraDelay, there, fatal] at delayed
    | some packet => exact mirrors.held found there
  · cases same
    rw [← mirrors.flights, flight]
    cases there : this.inFlightPackets.lookup s.packetId with
    | none =>
        simp only [replayKind, packetLostInTransit, there] at clean
        obtain ⟨_, tracked, -⟩ := Tracked.clean_bind.mp clean
        cases tracked
    | some packet => simp
  · cases same
    obtain ⟨packet, flies, rfl⟩ := mirrors.inFlight opened
    obtain ⟨metadata, -, known, target, -⟩ := (packetInNode_landed flies).mp clean
    exact ⟨metadata, known, target⟩

end Replay

namespace SimulationVerifier

/-- In a verification without errors, packets are duplicated by duplications only and
travel over links only, iff ids are used once. -/
theorem verify_sound_iff {steps : List SimulationStep} {spec : NetworkSpec}
    {this : SimulationVerifier} {stats : SimulationStats} (order : Option Nat → List NodeId)
    (made : SimulationVerifier.new steps spec = .ok this) (clean : (this.verify order).Clean stats) :
    (∀ l metadata, this.linkMetadata.lookup l = some metadata → Describes spec l metadata) ∧
      (Sound this.linkMetadata.lookup (sortSteps steps) ↔
        ∀ before step after, sortSteps steps = before ++ step :: after → Regular before step) := by
  obtain ⟨made, same⟩ := new_made made
  refine ⟨made.linkMetadata, sound_iff fun before step after split => ?_⟩
  obtain ⟨replay, next, mirrors, metadata, replayed⟩ := verify_at made clean (same.trans split)
  rw [← metadata]
  exact Replay.replayKind_accepted mirrors replayed

theorem verify_sound_iff_twoHosts : ∃ this : SimulationVerifier,
    SimulationVerifier.new refusedCrossing .twoHosts = .ok this ∧
      (∀ l metadata, this.linkMetadata.lookup l = some metadata →
        Describes .twoHosts l metadata) ∧
      (Sound this.linkMetadata.lookup (sortSteps refusedCrossing) ↔
        ∀ before step after, sortSteps refusedCrossing = before ++ step :: after →
          Regular before step) :=
  ⟨_, rfl, verify_sound_iff (fun _ => [0, 1]) rfl rfl⟩

/-- A packet enters a node again after it was delivered there. -/
def reborn : List SimulationStep :=
  [⟨0, .packetInNode ⟨0, 0, 28, 0, false⟩⟩, ⟨0, .packetDeliveredToApplication ⟨0, 0, 28, 0⟩⟩,
    ⟨0, .packetInNode ⟨0, 0, 28, 0, false⟩⟩]

theorem reborn_verified : ∃ (this : SimulationVerifier) (stats : SimulationStats),
    SimulationVerifier.new reborn .twoHosts = .ok this ∧
      (this.verify fun _ => [0, 1]).Clean stats ∧
      ¬ Sound this.linkMetadata.lookup (sortSteps reborn) := by
  refine ⟨_, _, rfl, rfl, fun sound => ?_⟩
  exact sound.ended (reborn.take 2) _ [] 0 rfl rfl ⟨_, List.mem_cons_of_mem _ List.mem_cons_self, rfl⟩

end SimulationVerifier

end Workbench.Tracing
