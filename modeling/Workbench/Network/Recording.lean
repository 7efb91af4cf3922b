import Workbench.Library.Machine
import Workbench.Network.Decomposition

/-! What the tracer records: steps in order of time, after the ones before them. Of the
anomalies of a packet it is only told that the packet is a duplicate. -/

set_option autoImplicit false

namespace Workbench.Tracing

/-- The step tells of an extra delay or a congestion event of a packet. -/
def SimulationStepKind.isAnomaly : SimulationStepKind → Bool
  | .packetExtraDelay _ | .packetCongestionEvent _ => true
  | _ => false

end Workbench.Tracing

namespace Workbench.Network

open Workbench.Library Workbench.Tracing

variable {net : InMemoryNetwork} {licence : Licence} {m m' : Moment} {s s' : State}

/-- The log of a moment grows by steps of that moment, none of them about an anomaly. -/
def Moment.Writes (m m' : Moment) : Prop :=
  ∃ entries, m'.state.log = m.state.log ++ entries ∧ ∀ step, .recorded step ∈ entries →
    step.relativeTime = m.state.now ∧ step.kind.isAnomaly = false

theorem Moment.Writes.nothing (same : m'.state.log = m.state.log) : m.Writes m' :=
  ⟨[], by simp [same], by simp⟩

theorem Moment.Writes.mark {e : LogEntry} (same : m'.state.log = m.state.log ++ [e])
    (mark : e.step? = none) : m.Writes m' := by
  refine ⟨[e], same, fun step member => ?_⟩
  obtain rfl := List.mem_singleton.mp member
  cases mark

theorem Moment.Writes.entry (kind : SimulationStepKind)
    (same : m'.state.log = m.state.log ++ [.recorded ⟨m.state.now, kind⟩])
    (plain : kind.isAnomaly = false) : m.Writes m' := by
  refine ⟨_, same, fun step member => ?_⟩
  obtain rfl := LogEntry.recorded.inj (List.mem_singleton.mp member)
  exact ⟨rfl, plain⟩

theorem State.takeUp_log (s : State) (data : InTransitData) (stage : Stage) :
    (s.takeUp data stage).now = s.now ∧ ∃ marks, (s.takeUp data stage).log = s.log ++ marks ∧
      ∀ step, .recorded step ∉ marks := by
  cases stage with
  | flying l sent => exact ⟨rfl, [.arrived l data.id], rfl, by simp⟩
  | fresh | inside => exact ⟨rfl, [], by simp [takeUp], by simp⟩

/-- A step is recorded where a packet is taken up. -/
theorem Moment.Writes.taken {data : InTransitData} {stage : Stage} {kind : SimulationStepKind}
    (same : m'.state.log = (m.state.takeUp data stage).log ++
      [.recorded ⟨(m.state.takeUp data stage).now, kind⟩])
    (plain : kind.isAnomaly = false) : m.Writes m' := by
  obtain ⟨now, marks, grown, silent⟩ := m.state.takeUp_log data stage
  refine ⟨marks ++ [.recorded ⟨m.state.now, kind⟩], by rw [same, grown, now]; simp,
    fun step member => ?_⟩
  rcases List.mem_append.mp member with mark | last
  · exact absurd mark (silent step)
  · obtain rfl := LogEntry.recorded.inj (List.mem_singleton.mp last)
    exact ⟨rfl, plain⟩

theorem Effect.now_le (effect : Effect net licence m m') : m.state.now ≤ m'.state.now := by
  cases effect with
  | quiet hand quiet => exact quiet.now
  | dispatch n packet rest links hand member queued some pushed => exact pushed.now.ge
  | discard hand takes | clear hand takes | sendPanics hand takes => exact takes.works.now.ge
  | send data pacer hand member takes => exact takes.works.now.ge
  | taskPanics l hand works => exact works.now.ge
  | enter s n data stage | refuse s n data stage => cases stage <;> exact le_refl _
  | _ => exact le_refl _

theorem Effect.writes (effect : Effect net licence m m') : m.Writes m' := by
  cases effect with
  | quiet hand quiet => exact .nothing quiet.log
  | dispatch n packet rest links hand member queued some pushed => exact .nothing pushed.log
  | discard hand takes => exact .nothing takes.works.log
  | sendPanics hand takes => exact .nothing takes.works.log
  | taskPanics l hand works => exact .nothing works.log
  | @clear _ t l k hand takes =>
      refine .entry (.packetDropped ⟨k.data.id, k.srcNode, .bufferCleared⟩) ?_ rfl
      rw [← takes.works.log, ← takes.works.now]
      rfl
  | @send _ t l k data pacer hand member takes =>
      refine .entry (.packetInTransit ⟨data.id, k.srcNode, l⟩) ?_ rfl
      rw [← takes.works.log, ← takes.works.now]
      rfl
  | outage s l => exact .mark (e := .wentDown l s.now) rfl rfl
  | event s e => exact .entry (.networkEvent e) rfl rfl
  | enter s n data stage => exact .taken rfl rfl
  | refuse s n data stage => exact .taken rfl rfl
  | drop s n data reason => exact .entry _ rfl rfl
  | duplicate s n data => exact .entry _ rfl rfl
  | buffer s n data | overbook s n data => exact .mark (e := .reserved n data) rfl rfl
  | lose s l data sent => exact .taken rfl rfl
  | strand s l data sent =>
      exact ⟨[.arrived l data.id, .stranded l data.id], by simp [State.takeUp, State.note], by simp⟩
  | read s n data => exact .entry _ rfl rfl
  | check s n data => exact .mark (e := .checked n data.id) rfl rfl
  | _ => exact .nothing rfl

/-- The trace grows by what is written. -/
theorem Moment.Writes.trace (writes : m.Writes m') :
    ∃ steps, m'.state.trace = m.state.trace ++ steps ∧
      ∀ step ∈ steps, step.relativeTime = m.state.now ∧ step.kind.isAnomaly = false := by
  obtain ⟨entries, grown, written⟩ := writes
  refine ⟨entries.filterMap LogEntry.step?, ?_, fun step member => ?_⟩
  · rw [State.trace, grown, List.filterMap_append, State.trace]
  · obtain ⟨e, inside, same⟩ := List.mem_filterMap.mp member
    cases e with
    | recorded step' => exact written step (Option.some.inj same ▸ inside)
    | _ => cases same

/-- The trace is in order of time and up to date, and tells of no anomaly. -/
structure State.Timely (s : State) : Prop where
  sorted : (s.trace.map (·.relativeTime)).Pairwise (· ≤ ·)
  past : ∀ step ∈ s.trace, step.relativeTime ≤ s.now
  plain : ∀ step ∈ s.trace, step.kind.isAnomaly = false

theorem State.Timely.effect (timely : m.state.Timely) (effect : Effect net licence m m') :
    m'.state.Timely := by
  obtain ⟨later, steps, new⟩ := effect.writes.trace
  refine ⟨?_, fun step member => ?_, fun step member => ?_⟩
  · rw [steps, List.map_append, List.pairwise_append]
    refine ⟨timely.sorted, ?_, ?_⟩
    · rw [List.pairwise_map]
      refine List.Pairwise.imp_of_mem ?_ (List.pairwise_of_forall fun _ _ => trivial)
      intro a b first second _
      rw [(new a first).1, (new b second).1]
    · intro a old b later
      obtain ⟨first, inside, rfl⟩ := List.mem_map.mp old
      obtain ⟨second, inside', rfl⟩ := List.mem_map.mp later
      rw [(new second inside').1]
      exact timely.past first inside
  · rcases List.mem_append.mp (steps ▸ member) with old | later
    · exact (timely.past step old).trans effect.now_le
    · exact (new step later).1.le.trans effect.now_le
  · rcases List.mem_append.mp (steps ▸ member) with old | later
    · exact timely.plain step old
    · exact (new step later).2

namespace State

theorem timely_initial (net : InMemoryNetwork) : (initial net).Timely :=
  ⟨.nil, by simp [initial, trace], by simp [initial, trace]⟩

theorem Timely.step {action : Action} (timely : s.Timely) (taken : s.step net action = some s') :
    s'.Timely :=
  step_kept taken (·.state.Timely) timely fun _ _ _ timely effect => timely.effect effect

theorem timely_of_run {past : List (State × Action)}
    (run : Run (State.step net) (.initial net) past s) : s.Timely :=
  run.invariant Timely (timely_initial net) fun _ _ _ timely taken => timely.step taken

/-- The trace of a step grows by steps that are not before it. -/
theorem step_grows {action : Action} (taken : s.step net action = some s') :
    ∃ steps, s'.trace = s.trace ++ steps ∧ ∀ step ∈ steps, s.now ≤ step.relativeTime := by
  let Grown (m : Moment) : Prop := s.now ≤ m.state.now ∧
    ∃ steps, m.state.trace = s.trace ++ steps ∧ ∀ step ∈ steps, s.now ≤ step.relativeTime
  have grown := step_kept taken Grown ⟨le_refl _, [], by simp, List.forall_mem_nil _⟩ ?_
  · exact grown.2
  · intro licence m m' ⟨begun, steps, grown, later⟩ effect
    obtain ⟨steps', grown', now⟩ := effect.writes.trace
    refine ⟨begun.trans effect.now_le, steps ++ steps', by rw [grown', grown, List.append_assoc], ?_⟩
    exact List.forall_mem_append.mpr ⟨later, fun step member => (now step member).1 ▸ begun⟩

/-- What was recorded stays recorded. -/
theorem trace_prefix {action : Action} (taken : s.step net action = some s') :
    s.trace <+: s'.trace := by
  obtain ⟨steps, grown, -⟩ := step_grows taken
  exact ⟨steps, grown.symm⟩

end State

end Workbench.Network
