import Workbench.Network.Journey

/-! How often packets are read. Each id that a transmit travels under was drawn for it when it was
sent or for a duplicate that the trace tells of, and no packet is read twice under one id. -/

set_option autoImplicit false

namespace Workbench.Tracing.SimulationStep

open Workbench.Network

/-- The id of a duplicate of a transmit that the step tells of. -/
def duplicates? (number : Nat) (step : SimulationStep) : Option Uuid :=
  match step.kind with
  | .packetDuplicated e => if e.packetNumber = number then some e.packetId else none
  | _ => none

/-- The id under which an application reads a transmit. -/
def reads? (number : Nat) (step : SimulationStep) : Option Uuid :=
  match step.kind with
  | .packetDeliveredToApplication e => if e.packetNumber = number then some e.packetId else none
  | _ => none

theorem of_reads {number : Nat} {step : SimulationStep} {id : Uuid} (reads : step.reads? number = some id) :
    ∃ e, step.kind = .packetDeliveredToApplication e ∧ e.packetNumber = number ∧ e.packetId = id := by
  unfold reads? at reads
  split at reads
  · next e same =>
    obtain ⟨number', id'⟩ := Option.ite_none_right_eq_some.mp reads
    exact ⟨e, same, number', Option.some.inj id'⟩
  · cases reads

end Workbench.Tracing.SimulationStep

namespace Workbench.Network

open Workbench.Library Workbench.Tracing

/-- The ids of the duplicates of a transmit that a trace tells of. -/
def duplicatesOf (number : Nat) (trace : List SimulationStep) : List Uuid :=
  trace.filterMap (·.duplicates? number)

/-- The ids under which a transmit was read, as a trace tells. -/
def readsOf (number : Nat) (trace : List SimulationStep) : List Uuid :=
  trace.filterMap (·.reads? number)

/-- The ids drawn for what nodes sent in a run, in order. -/
def issuedOf (net : InMemoryNetwork) (past : List (State × Action)) : List Uuid :=
  past.reverse.filterMap fun move => move.2.sent?.map fun _ => net.uuids move.1.drawn

theorem issuedOf_cons (net : InMemoryNetwork) (past : List (State × Action)) (s : State) (action : Action) :
    issuedOf net ((s, action) :: past) =
      issuedOf net past ++ (action.sent?.map fun _ => net.uuids s.drawn).toList := by
  cases sent : action.sent? <;> simp [issuedOf, sent]

theorem length_issuedOf (net : InMemoryNetwork) (past : List (State × Action)) :
    (issuedOf net past).length = (sentOf past).length := by
  induction past with
  | nil => rfl
  | cons move past ih =>
      obtain ⟨s, action⟩ := move
      rw [issuedOf_cons, sentOf_cons, List.length_append, List.length_append, ih]
      cases action.sent? <;> rfl

/-- The id of the packet was drawn for its transmit, or for a duplicate of it. -/
def InTransitData.Drawn (issued : List Uuid) (trace : List SimulationStep) (data : InTransitData) : Prop :=
  issued[data.number]? = some data.id ∨ data.id ∈ duplicatesOf data.number trace

theorem InTransitData.Drawn.later {issued : List Uuid} {trace trace' : List SimulationStep}
    {data : InTransitData} (drawn : data.Drawn issued trace) (more : List Uuid) (grown : trace <+: trace') :
    data.Drawn (issued ++ more) trace' := by
  rcases drawn with original | duplicate
  · left
    rwa [List.getElem?_append_left (List.getElem?_eq_some_iff.mp original).1]
  · right
    exact (grown.sublist.filterMap _).subset duplicate

/-- Wherever a packet is, its id was drawn for its transmit, or for a duplicate of it. -/
def Journey.drawn (issued : List Uuid) (trace : List SimulationStep) : Journey where
  arrives _ data := data.Drawn issued trace
  waits _ data := data.Drawn issued trace
  flies _ data := data.Drawn issued trace
  lands _ _ data := data.Drawn issued trace

theorem Journey.drawn_lawful (net : InMemoryNetwork) (issued : List Uuid) (trace : List SimulationStep) :
    (Journey.drawn issued trace).Lawful net trace where
  deliver n data drawn _ := drawn
  hop n data drawn _ _ := drawn
  copy n data id time _ told := by
    right
    exact List.mem_filterMap.mpr ⟨_, told, by simp [SimulationStep.duplicates?]⟩
  carry n data l links anomalies marked drawn _ _ _ same := by
    obtain ⟨id, number, -⟩ := PacketAnomalies.mark_some same
    show marked.Drawn issued trace
    rw [InTransitData.Drawn, id, number]
    exact drawn
  land l data n drawn _ := drawn

theorem Journey.drawn_charted (net : InMemoryNetwork) :
    Journey.Charted net fun past trace => .drawn (issuedOf net past) trace where
  lawful past trace := drawn_lawful net (issuedOf net past) trace
  later past move trace trace' grown := by
    obtain ⟨s, action⟩ := move
    rw [issuedOf_cons]
    exact ⟨fun _ _ drawn => drawn.later _ grown, fun _ _ drawn => drawn.later _ grown,
      fun _ _ drawn => drawn.later _ grown, fun _ _ _ drawn => drawn.later _ grown⟩
  departs past s action n transmit trace sent _ := by
    left
    rw [issuedOf_cons, sent, ← length_issuedOf net past]
    simp

namespace State

variable {net : InMemoryNetwork} {past : List (State × Action)} {s : State}

/-- No packet is read twice. -/
theorem readsOf_nodup (located : Located net False ⟨s, []⟩) (number : Nat) :
    (readsOf number s.trace).Nodup := by
  obtain ⟨ledger, described, -⟩ := located
  apply List.nodup_iff_count_le_one.mpr
  intro id
  have once : s.count (.finished .read) id ≤ 1 := described.le_one (some (.finished .read)) id
  refine le_trans ?_ once
  rw [readsOf, trace, List.count_eq_countP, List.countP_filterMap, List.countP_filterMap]
  apply List.countP_mono_left
  intro e _ read
  cases e with
  | recorded step =>
      have reads : step.reads? number = some id := by
        cases found : step.reads? number with
        | none => simp [LogEntry.step?, found] at read
        | some id' => simpa [LogEntry.step?, found] using read
      obtain ⟨e, same, -, id⟩ := SimulationStep.of_reads reads
      obtain ⟨time, kind⟩ := step
      obtain rfl : kind = .packetDeliveredToApplication e := same
      simp [LogEntry.outcome?, id]
  | _ => simp [LogEntry.step?] at read

/-- Whatever links compete for it, a transmit is read at most once, and once more at most for each
duplicate of it that the trace tells of. -/
theorem reads_each_once (fresh : Function.Injective net.uuids)
    (run : Run (State.step net) (.initial net) past s) (number : Nat) :
    (readsOf number s.trace).Nodup ∧
      (readsOf number s.trace).length ≤ 1 + (duplicatesOf number s.trace).length := by
  obtain ⟨-, located, -⟩ := bounded_of_run fresh run
  obtain ⟨-, -, -, underway⟩ := underway_of_run (Journey.drawn_charted net) run
  have once := readsOf_nodup located number
  have drawn : readsOf number s.trace ⊆
      (issuedOf net past)[number]?.toList ++ duplicatesOf number s.trace := by
    intro id member
    obtain ⟨step, told, reads⟩ := List.mem_filterMap.mp member
    obtain ⟨e, kind, number', id'⟩ := SimulationStep.of_reads reads
    have attests := underway.told step told
    rw [kind] at attests
    obtain ⟨port, data, drawn, same⟩ := attests
    obtain ⟨sameId, sameNumber, -⟩ := Prod.mk.inj same |>.imp_right Prod.mk.inj
    subst number' id'
    rw [sameId, sameNumber]
    rcases drawn with original | duplicate
    · exact List.mem_append_left _ (by simp [original])
    · exact List.mem_append_right _ duplicate
  refine ⟨once, ((once.subperm drawn).length_le).trans ?_⟩
  rw [List.length_append]
  cases (issuedOf net past)[number]? <;> simp

/-- Two hosts that duplicate packets. -/
def duplicatingHosts : InMemoryNetwork :=
  { twoHosts (some 1) with
    nodes := fun n => { (twoHosts (some 1)).nodes n with injectedFailures := ⟨0, 1⟩ } }

/-- A greeting and its duplicate are read. -/
theorem reads_each_once_duplicating : ∃ past s,
    Run (State.step duplicatingHosts) (.initial duplicatingHosts) past s ∧
      readsOf 0 s.trace = [0, 1] ∧ duplicatesOf 0 s.trace = [1] ∧ (readsOf 0 s.trace).Nodup ∧
      (readsOf 0 s.trace).length ≤ 1 + (duplicatesOf 0 s.trace).length := by
  let actions : List Action := [.sendUdp 0 greeting 0, .processBuffer 0 [], .processBuffer 0 [],
    .pollLink 0, .pollLink 0, .advance 10, .pollForwarder 0 [] [], .pollRecv 1 4433 2 100 []]
  obtain ⟨s, reached, holds⟩ := (Option.any_eq_true _ _).mp <|
    show (attains (State.step duplicatingHosts) (.initial duplicatingHosts) actions).any
      (fun s => decide (readsOf 0 s.trace = [0, 1] ∧ duplicatesOf 0 s.trace = [1])) = true
      by decide +kernel
  obtain ⟨reads, duplicates⟩ := of_decide_eq_true holds
  have run := Run.of_moves reached
  exact ⟨_, s, run, reads, duplicates, reads_each_once (fun _ _ same => same) run 0⟩

end State

end Workbench.Network
