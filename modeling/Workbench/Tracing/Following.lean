import Workbench.Network.Contents
import Workbench.Network.Recording
import Workbench.Tracing.Expected

/-! The trace follows the simulator: at every moment it has each packet in the node or on
the link where the simulator has it, and each step that is recorded finds its packet there. -/

set_option autoImplicit false

namespace Workbench.Network

open Workbench.Library Workbench.Tracing

namespace Stage

variable {stage : Stage} {trace : List SimulationStep} {id : Uuid} {size : Nat}

def flight : Stage → Option Flight
  | .flying l sent => some ⟨l, sent⟩
  | _ => none

/-- The size of a packet where the node has it. -/
def sizeAt (n : NodeId) (size : Nat) : Stage → Option Nat
  | .inside n' => if n' = n then some size else none
  | _ => none

/-- The trace has the packet nowhere, on a link, or in one node and with its size. -/
structure At (stage : Stage) (trace : List SimulationStep) (id : Uuid) (size : Nat) : Prop where
  flight : openFlight id trace = stage.flight
  sizes : ∀ n, sizeIn n id trace = stage.sizeAt n size

def Known (net : InMemoryNetwork) : Stage → Prop
  | .fresh => True
  | .flying l _ => l ∈ net.linkIds
  | .inside n => net.Knows n

/-- A step about another packet. -/
theorem At.other {step : SimulationStep} (there : stage.At trace id size)
    (other : step.packet? ≠ some id) : stage.At (trace ++ [step]) id size := by
  obtain ⟨still, level, -⟩ := SimulationStep.other_packet other
  refine ⟨?_, fun n => ?_⟩
  · rw [openFlight_concat, level]
    exact there.flight
  · rw [sizeIn_concat, still]
    exact there.sizes n

theorem At.enters {time : Nat} {s : PacketInNode} (there : stage.At trace s.packetId size)
    (outside : ∀ n, stage ≠ .inside n) (kept : s.droppedOnArrival = false) :
    (inside s.nodeId).At (trace ++ [⟨time, .packetInNode s⟩]) s.packetId s.packetSizeBytes := by
  refine ⟨?_, fun n => ?_⟩
  · rw [openFlight_concat]
    simp [SimulationStep.flight?, Stage.flight]
  · rw [sizeIn_concat, there.sizes]
    by_cases here : s.nodeId = n
    · simp [SimulationStep.stay?, SimulationStep.sizeBytes, sizeAt, here, kept]
    · cases stage with
      | inside n' => exact absurd rfl (outside n')
      | fresh | flying => simp [SimulationStep.stay?, sizeAt, here]

theorem At.duplicated {time : Nat} {s : GenericPacketEvent}
    (there : fresh.At trace s.packetId size) :
    (inside s.nodeId).At (trace ++ [⟨time, .packetDuplicated s⟩]) s.packetId s.packetSizeBytes := by
  refine ⟨?_, fun n => ?_⟩
  · rw [openFlight_concat]
    exact there.flight
  · rw [sizeIn_concat, there.sizes]
    by_cases here : s.nodeId = n <;>
      simp [SimulationStep.stay?, SimulationStep.sizeBytes, sizeAt, here]

theorem At.launched {time : Nat} {s : PacketInTransit}
    (there : (inside s.nodeId).At trace s.packetId size) (size' : Nat) :
    (flying s.linkId time).At (trace ++ [⟨time, .packetInTransit s⟩]) s.packetId size' := by
  refine ⟨?_, fun n => ?_⟩
  · rw [openFlight_concat]
    simp [SimulationStep.flight?, Stage.flight]
  · rw [sizeIn_concat, there.sizes]
    by_cases here : s.nodeId = n <;> simp [SimulationStep.stay?, sizeAt, here]

end Stage

/-- The trace has the packet where it is, or is about to have it in the network. -/
structure Held.Placed (held : Held) (net : InMemoryNetwork) (trace : List SimulationStep) : Prop where
  there : held.stage.At trace held.data.id held.data.size
  known : held.stage.Known net

variable {net : InMemoryNetwork} {licence : Licence} {m m' : Moment} {step : SimulationStep}

/-- The trace has every packet where it is, has none that is not issued, and could be
replayed step by step. -/
structure Moment.Follows (m : Moment) (net : InMemoryNetwork) : Prop where
  placed : ∀ held, m.Has held → held.Placed net m.state.trace
  unseen : ∀ id, ¬ m.state.Issued net id → ∀ size, Stage.fresh.At m.state.trace id size
  expected : ∀ before step after, m.state.trace = before ++ step :: after →
    Expected net before step.kind

namespace Moment

theorem Follows.initial : Moment.Follows ⟨.initial net, []⟩ net := by
  refine ⟨fun held has => ?_, fun id _ size => ⟨rfl, fun n => rfl⟩, fun before step after split => ?_⟩
  · rcases has with inHand | has
    · cases inHand
    · cases has with
      | waiting member | dispatched member opened | queued member | inTransit member => cases member
  · simp [State.initial, State.trace] at split

/-- Nothing is recorded, and packets at most go from where they are to where the trace
has them all the same, but for new ones. -/
theorem Follows.silent (follows : m.Follows net) (trace : m'.state.trace = m.state.trace)
    (drawn : m.state.drawn ≤ m'.state.drawn)
    (origin : ∀ held, m'.Has held → (∃ held₀, m.Has held₀ ∧ held₀.data.id = held.data.id ∧
        held₀.data.size = held.data.size ∧ held₀.stage = held.stage) ∨
      held.stage = .fresh ∧ ¬ m.state.Issued net held.data.id) : m'.Follows net := by
  refine ⟨fun held has => ?_, fun id unissued size => ?_, ?_⟩
  · rw [trace]
    rcases origin held has with ⟨held₀, before, id, size, stage⟩ | ⟨fresh, unissued⟩
    · obtain ⟨there, known⟩ := follows.placed held₀ before
      rw [id, size, stage] at there
      exact ⟨there, stage ▸ known⟩
    · refine ⟨?_, fresh ▸ trivial⟩
      rw [fresh]
      exact follows.unseen _ unissued _
  · rw [trace]
    exact follows.unseen id (fun ⟨i, before, same⟩ => unissued ⟨i, by omega, same⟩) size
  · rw [trace]
    exact follows.expected

theorem Follows.still (follows : m.Follows net) (trace : m'.state.trace = m.state.trace)
    (drawn : m'.state.drawn = m.state.drawn) (origin : ∀ held, m'.Has held → m.Has held) :
    m'.Follows net :=
  follows.silent trace drawn.ge fun held has => .inl ⟨held, origin held has, rfl, rfl, rfl⟩

/-- A step that is recorded finds its packet, and the trace has it where it is then. -/
theorem Follows.record (follows : m.Follows net) {log : List LogEntry}
    (same : log.filterMap LogEntry.step? = m.state.trace)
    (grown : m'.state.log = log ++ [.recorded step]) (drawn : m'.state.drawn = m.state.drawn)
    (expected : Expected net m.state.trace step.kind)
    (issued : ∀ id, step.packet? = some id → m.state.Issued net id)
    (others : ∀ held, m'.Has held → step.packet? ≠ some held.data.id → m.Has held)
    (own : ∀ held, m'.Has held → step.packet? = some held.data.id →
      held.Placed net (m.state.trace ++ [step])) : m'.Follows net := by
  have trace : m'.state.trace = m.state.trace ++ [step] := by
    rw [State.trace, grown, List.filterMap_append, same]
    rfl
  refine ⟨fun held has => ?_, fun id unissued size => ?_, fun before later after split => ?_⟩
  · rw [trace]
    by_cases about : step.packet? = some held.data.id
    · exact own held has about
    · obtain ⟨there, known⟩ := follows.placed held (others held has about)
      exact ⟨there.other about, known⟩
  · rw [trace]
    have unissued' : ¬ m.state.Issued net id := by
      rintro ⟨i, before, same⟩
      exact unissued ⟨i, drawn ▸ before, same⟩
    exact (follows.unseen id unissued' size).other fun about => unissued' (issued id about)
  · rw [trace] at split
    rcases split_append split with ⟨rest, old, -⟩ | ⟨skipped, new, rfl⟩
    · exact follows.expected before later rest old
    · cases skipped with
      | nil =>
          obtain ⟨rfl, -⟩ := List.cons.inj new
          simpa using expected
      | cons first skipped => simp at new

/-- A step is recorded that finishes its packet. -/
theorem Follows.finish (follows : m.Follows net) (located : Located net False m')
    {log : List LogEntry} (same : log.filterMap LogEntry.step? = m.state.trace)
    (grown : m'.state.log = log ++ [.recorded step]) (drawn : m'.state.drawn = m.state.drawn)
    (expected : Expected net m.state.trace step.kind) {id : Uuid} {o : Outcome}
    (about : step.packet? = some id) (ends : LogEntry.outcome? (.recorded step) = some (id, o))
    (issued : m.state.Issued net id)
    (others : ∀ held, m'.Has held → held.data.id ≠ id → m.Has held) : m'.Follows net := by
  refine follows.record same grown drawn expected (fun x this => ?_) (fun held has other => ?_)
    fun held has this => ?_
  · rw [about] at this
    exact Option.some.inj this ▸ issued
  · exact others held has fun this => other (this ▸ about)
  · have none := has.not_finished located o
    rw [about] at this
    obtain rfl := Option.some.inj this
    rw [State.count, grown, List.countP_eq_zero] at none
    exact absurd ends (by simpa using none (.recorded step) (by simp))

theorem Has.mono {s s' : State} {hand hand' : List Held} {held : Held}
    (hands : held ∈ hand' → held ∈ hand) (states : s'.Has held → s.Has held)
    (has : Moment.Has ⟨s', hand'⟩ held) : Moment.Has ⟨s, hand⟩ held := has.imp hands states

theorem trace_takeUp (s : State) (data : InTransitData) (stage : Stage) :
    (s.takeUp data stage).log.filterMap LogEntry.step? = s.trace := by
  cases stage with
  | flying l sent => simp [State.takeUp, State.note, State.trace, LogEntry.step?]
  | fresh | inside n => rfl

theorem drawn_takeUp (s : State) (data : InTransitData) (stage : Stage) :
    (s.takeUp data stage).drawn = s.drawn := by
  cases stage <;> rfl

/-- A packet that is taken up at a node is not there yet. -/
theorem absent_of_reaches {s : State} {n : NodeId} {stage : Stage} {id : Uuid} {size : Nat}
    (reaches : s.Reaches net n stage) (there : stage.At s.trace id size) :
    (∀ n', stage ≠ .inside n') ∧ sizeIn n id s.trace = none := by
  rw [there.sizes n]
  cases stage with
  | inside n' => exact reaches.elim
  | fresh | flying => exact ⟨nofun, rfl⟩

theorem inside_of_at {n : NodeId} {trace : List SimulationStep} {id : Uuid} {size : Nat}
    (there : (Stage.inside n).At trace id size) : sizeIn n id trace ≠ none := by
  simp [there.sizes n, Stage.sizeAt]

theorem Follows.effect (follows : m.Follows net) (fresh : Function.Injective net.uuids)
    (competing : m.state.Competing net) (located : Located net False m)
    (effect : Effect net licence m m') : m'.Follows net := by
  have located' := located.effect fresh competing effect False.elim
  cases effect with
  | @quiet s s' hand quiet =>
      have same : State.SameCount s s' := ⟨fun n => by rw [quiet.outbound], quiet.endpoints,
        quiet.inTransit, quiet.dispatches, quiet.log⟩
      exact follows.still (by rw [State.trace, quiet.log]; rfl) quiet.drawn fun held has =>
        has.mono id same.has
  | crash s hand lost =>
      have same : State.SameCount s { s with panicked := true } :=
        ⟨fun _ => rfl, fun _ _ => rfl, fun _ => rfl, rfl, rfl⟩
      exact follows.still rfl rfl fun held has => has.mono id same.has
  | forget s held hand lost =>
      exact follows.still rfl rfl fun held has => has.mono (List.mem_cons_of_mem _) id
  | outage s l hand up =>
      have same := State.SameCount.modifyLink s l (·.updateStatus s.now .down) rfl
      refine follows.still ?_ rfl fun held has => has.mono id fun has => same.has has.of_note
      simp [State.trace, State.note, State.modifyLink, LogEntry.step?]
  | event s e hand link node =>
      refine follows.record rfl rfl rfl (.event link node) (by simp [SimulationStep.packet?])
        (fun held has _ => has.mono id fun has => has.of_note) fun held has about => ?_
      cases about
  | issue s data number before after id =>
      -- A packet in the hand keeps its stage; the new one has a fresh id, and no step tells of it.
      refine follows.silent rfl (Nat.le_succ _) fun held has => ?_
      have same : State.SameCount s { s with drawn := s.drawn + 1, nextTransmitNumber := number } :=
        ⟨fun _ => rfl, fun _ _ => rfl, fun _ => rfl, rfl, rfl⟩
      rcases has with inHand | has
      · rcases List.mem_append.mp inHand with old | inHand
        · exact .inl ⟨held, .inl (List.mem_append_left _ old), rfl, rfl, rfl⟩
        · rcases List.mem_cons.mp inHand with rfl | old
          · refine .inr ⟨rfl, fun issued => ?_⟩
            obtain ⟨i, earlier, same⟩ := issued
            exact absurd (fresh (same.trans id)) earlier.ne
          · exact .inl ⟨held, .inl (List.mem_append_right _ old), rfl, rfl, rfl⟩
      · exact .inl ⟨held, .inr (same.has has), rfl, rfl, rfl⟩
  | enter s n data stage hand reaches up =>
      -- Taking the packet up moves it from its stage into the node, as the new step says.
      have here : Moment.Has ⟨s, ⟨data, stage⟩ :: hand⟩ ⟨data, stage⟩ := .inl List.mem_cons_self
      obtain ⟨there, known⟩ := follows.placed _ here
      obtain ⟨outside, absent⟩ := absent_of_reaches reaches there
      refine follows.record (trace_takeUp s data stage) rfl (drawn_takeUp s data stage)
        (.arrives reaches.knows absent) (fun id about => ?_) (fun held has other => ?_)
        fun held has about => ?_
      · exact Option.some.inj about ▸ here.issued located
      · rcases has with inHand | has
        · rcases List.mem_cons.mp inHand with rfl | old
          · exact absurd rfl other
          · exact .inl (List.mem_cons_of_mem _ old)
        · exact .inr has.of_note.of_takeUp
      · have entered : Moment.Has ⟨(s.takeUp data stage).trackPacketInNode n data,
            ⟨data, .inside n⟩ :: hand⟩ ⟨data, .inside n⟩ := .inl List.mem_cons_self
        obtain rfl := has.unique located' entered (Option.some.inj about).symm
        exact ⟨there.enters (s := ⟨data.id, data.number, data.size, n, false⟩) outside rfl,
          reaches.knows⟩
  | refuse s n data stage hand reaches down =>
      have here : Moment.Has ⟨s, ⟨data, stage⟩ :: hand⟩ ⟨data, stage⟩ := .inl List.mem_cons_self
      obtain ⟨outside, absent⟩ := absent_of_reaches reaches (follows.placed _ here).there
      exact follows.finish located' (trace_takeUp s data stage) rfl (drawn_takeUp s data stage)
        (.arrives reaches.knows absent) rfl rfl (here.issued located) fun held has _ =>
          has.mono (List.mem_cons_of_mem _) fun has => has.of_note.of_takeUp
  | retouch s data data' stage hand id size =>
      refine follows.silent rfl le_rfl fun held has => .inl ?_
      rcases has with inHand | has
      · rcases List.mem_cons.mp inHand with rfl | old
        · exact ⟨⟨data, stage⟩, .inl List.mem_cons_self, id.symm, size.symm, rfl⟩
        · exact ⟨held, .inl (List.mem_cons_of_mem _ old), rfl, rfl, rfl⟩
      · exact ⟨held, .inr has, rfl, rfl, rfl⟩
  | deliver s n data hand =>
      refine follows.still rfl rfl fun held has => ?_
      rcases has with inHand | has
      · exact .inl (List.mem_cons_of_mem _ inHand)
      · rcases has.of_deliverPacket with rfl | has
        · exact .inl List.mem_cons_self
        · exact .inr has
  | drop s n data reason hand full =>
      have here : Moment.Has ⟨s, ⟨data, .inside n⟩ :: hand⟩ ⟨data, .inside n⟩ :=
        .inl List.mem_cons_self
      obtain ⟨there, known⟩ := follows.placed _ here
      exact follows.finish located' rfl rfl rfl (.dropped known (inside_of_at there)) rfl rfl
        (here.issued located) fun held has _ => has.mono (List.mem_cons_of_mem _) fun has => has.of_note
  | @buffer s n data since hand outboundBuffer outbound room sent =>
      have still := State.SameCount.modifyNode s n ({ · with outboundBuffer }) rfl rfl
      refine follows.still ?_ rfl fun held has => ?_
      · simp [State.trace, State.note, State.modifyNode, LogEntry.step?]
      rcases has with inHand | has
      · exact .inl (List.mem_cons_of_mem _ inHand)
      · have has : (State.modifyNode _ n ({ · with outbound })).Has held := has
        rcases has.of_modifyNode with has | ⟨packet, member, rfl⟩ | ⟨port, packet, member, rfl⟩
        · exact .inr (still.has has.of_note)
        · rw [Channel.unboundedSend_some sent] at member
          rcases List.mem_append.mp member with old | new
          · exact .inr (.waiting old)
          · obtain rfl := List.mem_singleton.mp new
            exact .inl List.mem_cons_self
        · exact .inr (still.has (.queued member))
  | @overbook s n data hand outboundBuffer room lost =>
      have still := State.SameCount.modifyNode s n ({ · with outboundBuffer }) rfl rfl
      refine follows.still ?_ rfl fun held has =>
        has.mono (List.mem_cons_of_mem _) fun has => still.has has.of_note
      simp [State.trace, State.note, State.modifyNode, LogEntry.step?]
  | duplicate s n data hand known =>
      have here : Moment.Has ⟨s, ⟨data, .fresh⟩ :: hand⟩ ⟨data, .fresh⟩ := .inl List.mem_cons_self
      obtain ⟨there, -⟩ := follows.placed _ here
      refine follows.record rfl rfl rfl (.duplicated known (there.sizes n)) (fun id about => ?_)
        (fun held has other => ?_) fun held has about => ?_
      · exact Option.some.inj about ▸ here.issued located
      · rcases has with inHand | has
        · rcases List.mem_cons.mp inHand with rfl | old
          · exact absurd rfl other
          · exact .inl (List.mem_cons_of_mem _ old)
        · exact .inr has.of_note
      · have entered : Moment.Has ⟨s.trackInjectedFailures n data true 0 false,
            ⟨data, .inside n⟩ :: hand⟩ ⟨data, .inside n⟩ := .inl List.mem_cons_self
        obtain rfl := has.unique located' entered (Option.some.inj about).symm
        exact ⟨there.duplicated (s := ⟨data.id, data.number, data.size, n⟩), known⟩
  | dispatch n packet rest links hand member queued some pushed =>
      refine follows.still ?_ pushed.drawn fun held has => has.mono id (.of_dispatch queued pushed)
      rw [State.trace, pushed.log]
      rfl
  | endBuffer s n hand lost =>
      refine follows.still rfl rfl fun held has => has.mono id fun has => ?_
      rcases has.of_modifyNode with has | ⟨packet, member, rfl⟩ | ⟨port, packet, member, rfl⟩
      · exact has
      · cases member
      · exact .queued member
  | discard hand takes handled =>
      refine follows.still ?_ takes.works.drawn fun held has => has.mono id takes.works.sameCount.has
      rw [State.trace, takes.works.log]
      rfl
  | @clear s t l k hand takes unhandled cleared licensed =>
      have here : Moment.Has ⟨s, hand⟩ ⟨k.data, .inside k.srcNode⟩ :=
        .inr (takes.has competing unhandled)
      obtain ⟨there, known⟩ := follows.placed _ here
      refine follows.finish located' ?_ rfl takes.works.drawn (.dropped known (inside_of_at there))
        rfl rfl (here.issued located) fun held has _ => has.mono id fun has => ?_
      · exact congrArg _ takes.works.log
      · have has : ((t.markHandled k).noteAct k.handled l .cleared).Has held := has.of_note
        exact takes.works.sameCount.has has.of_noteAct.of_markHandled
  | @send s t l k data pacer hand member takes unhandled kept up marked =>
      obtain ⟨same, -, -⟩ := PacketAnomalies.mark_some marked
      have here : Moment.Has ⟨s, hand⟩ ⟨k.data, .inside k.srcNode⟩ :=
        .inr (takes.has competing unhandled)
      obtain ⟨there, known⟩ := follows.placed _ here
      have origin (held : Held)
          (has : (((t.markHandled k).carry l k data pacer).noteAct k.handled l .sent).Has held) :
          held = ⟨data, .flying l t.now⟩ ∨ s.Has held := by
        rcases has.of_noteAct.of_carry with new | has
        · exact .inl new
        · exact .inr (takes.works.sameCount.has has.of_markHandled)
      have grown : (((t.markHandled k).carry l k data pacer).noteAct k.handled l .sent).log =
          t.log ++ [.recorded ⟨t.now, .packetInTransit ⟨data.id, k.srcNode, l⟩⟩] := rfl
      refine follows.record ?_ grown takes.works.drawn
        (.sent known (same ▸ inside_of_at there) member) (fun id about => ?_)
        (fun held has other => ?_) fun held has about => ?_
      · exact congrArg _ takes.works.log
      · obtain rfl := Option.some.inj about
        exact same ▸ here.issued located
      · rcases has with inHand | has
        · exact .inl inHand
        · rcases origin held has with rfl | has
          · exact absurd rfl other
          · exact .inr has
      · have launched : Moment.Has
            ⟨((t.markHandled k).carry l k data pacer).noteAct k.handled l .sent, hand⟩
            ⟨data, .flying l t.now⟩ := .inr (State.carry_has (t.markHandled k) l k data pacer .sent)
        obtain rfl := has.unique located' launched (Option.some.inj about).symm
        have there : (Stage.inside k.srcNode).At s.trace data.id k.data.size := same ▸ there
        exact ⟨there.launched (s := ⟨data.id, k.srcNode, l⟩) data.size, member⟩
  | @taskPanics s t l hand works alive lost =>
      refine follows.still ?_ works.drawn fun held has =>
        has.mono id fun has => works.sameCount.has has.of_endQueueTask
      rw [State.trace, State.trace, ← works.log]
      rfl
  | @sendPanics s t l k hand takes unhandled lost =>
      refine follows.still ?_ takes.works.drawn fun held has =>
        has.mono id fun has => takes.works.sameCount.has has.of_endQueueTask.of_markHandled
      rw [State.trace, State.trace, ← takes.works.log]
      rfl
  | collect s l delivered inTransit forwarder member moved =>
      refine follows.still rfl rfl fun held has => .inr ?_
      obtain ⟨taken, kept⟩ := State.has_of_collect moved forwarder
      rcases has with inHand | has
      · obtain ⟨x, inside, rfl⟩ := List.mem_map.mp inHand
        exact taken x inside
      · exact kept has
  | lose s l data sent hand down =>
      have here : Moment.Has ⟨s, ⟨data, .flying l sent⟩ :: hand⟩ ⟨data, .flying l sent⟩ :=
        .inl List.mem_cons_self
      have flies : openFlight data.id s.trace ≠ none := by
        rw [(follows.placed _ here).there.flight]
        exact Option.some_ne_none _
      exact follows.finish located' (trace_takeUp s data (.flying l sent)) rfl rfl (.lost flies) rfl
        rfl (here.issued located) fun held has _ =>
          has.mono (List.mem_cons_of_mem _) fun has => has.of_note.of_takeUp
  | strand s l data sent hand up nowhere lost =>
      refine follows.still ?_ rfl fun held has =>
        has.mono (List.mem_cons_of_mem _) fun has => has.of_note.of_takeUp
      simp [State.trace, State.note, State.takeUp, LogEntry.step?]
  | socket s n port delivery hand size =>
      refine follows.still rfl rfl fun held has => has.mono id (State.SameCount.has ?_)
      exact ⟨fun _ => rfl, fun _ _ => rfl, fun _ => rfl, rfl, rfl⟩
  | fetch s n port delivered queue member moved =>
      refine follows.still rfl rfl fun held has => .inr ?_
      obtain ⟨taken, kept⟩ := State.has_of_fetch moved
      rcases has with inHand | has
      · obtain ⟨x, inside, rfl⟩ := List.mem_map.mp inHand
        exact taken x inside
      · exact kept has
  | read s n data hand =>
      have here : Moment.Has ⟨s, ⟨data, .inside n⟩ :: hand⟩ ⟨data, .inside n⟩ :=
        .inl List.mem_cons_self
      obtain ⟨there, known⟩ := follows.placed _ here
      exact follows.finish located' rfl rfl rfl (.delivered known (inside_of_at there)) rfl rfl
        (here.issued located) fun held has _ => has.mono (List.mem_cons_of_mem _) fun has => has.of_note
  | check s n data hand =>
      refine follows.still ?_ rfl fun held has =>
        has.mono (List.mem_cons_of_mem _) fun has => has.of_note
      simp [State.trace, State.note, LogEntry.step?]

theorem Follows.next {s s' : State} {action : Action} (follows : Moment.Follows ⟨s, []⟩ net)
    (fresh : Function.Injective net.uuids) (competing : s.Competing net)
    (located : Located net False ⟨s, []⟩) (taken : s.step net action = some s') :
    Moment.Follows ⟨s', []⟩ net := by
  let Holds (m : Moment) : Prop :=
    m.state.Competing net ∧ Located net False m ∧ m.Follows net
  have kept : Holds ⟨s', []⟩ := by
    refine State.step_kept taken Holds ⟨competing, located, follows⟩ ?_
    rintro licence m m' ⟨competing, located, follows⟩ effect
    exact ⟨competing.effect effect, located.effect fresh competing effect False.elim,
      follows.effect fresh competing located effect⟩
  exact kept.2.2

end Moment

/-- The trace follows every run. -/
theorem State.follows_of_run (fresh : Function.Injective net.uuids) {past : List (State × Action)}
    {s : State} (run : Run (State.step net) (.initial net) past s) :
    Moment.Follows ⟨s, []⟩ net := by
  have kept := run.invariant
    (fun s => s.Competing net ∧ Located net False ⟨s, []⟩ ∧ Moment.Follows ⟨s, []⟩ net)
    ⟨.initial, .initial, .initial⟩ fun s action s' ⟨competing, located, follows⟩ taken =>
      ⟨competing.step taken, located.step fresh competing taken,
        follows.next fresh competing located taken⟩
  exact kept.2.2

end Workbench.Network

namespace Workbench.Tracing

open Workbench.Library Workbench.Network

/-- The replay has a packet in the node or on the link where the simulator has it, with
its size, and nowhere else. -/
structure Replay.Places (this : Replay) (held : Network.Held) : Prop where
  flight : this.flight held.data.id = held.stage.flight
  sizes : ∀ n, ((this.nodes.lookup n).bind fun node => node.sizeOf held.data.id) =
    held.stage.sizeAt n held.data.size

theorem Replay.Mirrors.places {this : Replay} {trace : List SimulationStep} {held : Network.Held}
    {net : InMemoryNetwork} (mirrors : this.Mirrors trace) (covers : this.Covers net)
    (placed : held.Placed net trace) : this.Places held := by
  refine ⟨(mirrors.flights _).trans placed.there.flight, fun n => ?_⟩
  cases found : this.nodes.lookup n with
  | some node => exact (mirrors.sizes n node found _).trans (placed.there.sizes n)
  | none =>
      have known := placed.known
      cases stage : held.stage with
      | fresh | flying => rfl
      | inside n' =>
          rw [stage] at known
          obtain ⟨node, there⟩ := covers.node known
          have differs : n' ≠ n := by
            rintro rfl
            simp [found] at there
          simp [Stage.sizeAt, differs]

namespace SimulationVerifier

/-- What a network records is verified through and through, with each lost packet known. -/
theorem verify_recorded {spec : NetworkSpec} {uuids : Nat → Uuid} {packetDelay : Nat → Nat → Nat}
    {net : InMemoryNetwork} (accepted : InMemoryNetwork.initialize spec uuids packetDelay = .ok net)
    (fresh : Function.Injective uuids) {past : List (State × Action)} {s : State}
    (run : Run (State.step net) (.initial net) past s) {steps : List SimulationStep}
    (recorded : steps <+: s.trace) {this : SimulationVerifier}
    (made : SimulationVerifier.new steps spec = .ok this) (order : Option Nat → List NodeId) :
    (∃ stats, (this.verify order).Yields stats) ∧
      ∀ id, .missingLostPacket id ∉ (this.verify order).reports := by
  have built := InMemoryNetwork.initialized_built accepted
  have uuids' := InMemoryNetwork.initialized_uuids accepted
  have follows := State.follows_of_run (uuids' ▸ fresh) run
  have sorted := (State.timely_of_run run).sorted
  obtain ⟨made, same⟩ := new_made made
  have sorted' := sorted.sublist (recorded.sublist.map (·.relativeTime))
  rw [sortSteps_of_sorted sorted'] at same
  refine made.verify_expected built (same ▸ sorted') (fun before step after split => ?_) order
  obtain ⟨later, whole⟩ := recorded
  refine follows.expected before step (after ++ later) ?_
  rw [← whole, ← same, split, List.append_assoc, List.cons_append]

/-- Whatever a network did up to some moment, the verification of what was recorded goes
through and knows each packet that is lost, in whatever order nodes are iterated, and the
replay has every packet where the network has it. -/
theorem verify_follows {spec : NetworkSpec} {uuids : Nat → Uuid} {packetDelay : Nat → Nat → Nat}
    {net : InMemoryNetwork} (accepted : InMemoryNetwork.initialize spec uuids packetDelay = .ok net)
    (fresh : Function.Injective uuids) {past : List (State × Action)} {s : State}
    (run : Run (State.step net) (.initial net) past s) {steps : List SimulationStep}
    (recorded : steps <+: s.trace) {this : SimulationVerifier}
    (made : SimulationVerifier.new steps spec = .ok this) (order : Option Nat → List NodeId) :
    ((∃ stats, (this.verify order).Yields stats) ∧
        ∀ id, .missingLostPacket id ∉ (this.verify order).reports) ∧
      ∃ replay : Replay,
        ((Replay.start { this with steps := [] }).replaySteps order s.trace).Yields replay ∧
          ∀ held, s.Has held → replay.Places held := by
  have built := InMemoryNetwork.initialized_built accepted
  have uuids' := InMemoryNetwork.initialized_uuids accepted
  have follows := State.follows_of_run (uuids' ▸ fresh) run
  have sorted := (State.timely_of_run run).sorted
  constructor
  · exact verify_recorded accepted fresh run recorded made order
  · obtain ⟨made, -⟩ := new_made made
    have covers := made.covers built
    obtain ⟨replay, replayed, -, -⟩ := covers.replaySteps made.start_mirrors made.consistent sorted
      (fun _ _ => Nat.zero_le _) (by simpa using follows.expected) order
    refine ⟨replay, replayed, fun held has => ?_⟩
    have mirrors := (Replay.replaySteps_mirrors made.start_mirrors replayed).1
    exact mirrors.places (covers.replayed made.start_mirrors replayed) (follows.placed held (.inr has))

/-- The second host reads a packet that the link carries, with another one on the link. -/
theorem verify_follows_twoHosts : ∃ net past s this,
    InMemoryNetwork.initialize .twoHosts id (fun _ size => size) = .ok net ∧
      Run (State.step net) (.initial net) past s ∧
      past.reverse.map Prod.snd = [.sendUdp 0 greeting 0, .processBuffer 0 [], .pollLink 0, .advance 10,
        .pollForwarder 0 [] [], .pollRecv 1 4433 1 100 [], .sendUdp 0 greeting 0, .processBuffer 0 [],
        .pollLink 0, .advance 90, .pollLink 0] ∧
      s.whereabouts (.finished .read) 0 = 1 ∧ s.whereabouts (.inTransit 0) 1 = 1 ∧
      SimulationVerifier.new s.trace .twoHosts = .ok this ∧
      ((∃ stats, (this.verify fun _ => [0, 1]).Yields stats) ∧
          ∀ id, .missingLostPacket id ∉ (this.verify fun _ => [0, 1]).reports) ∧
        ∃ replay : Replay, ((Replay.start { this with steps := [] }).replaySteps (fun _ => [0, 1])
          s.trace).Yields replay ∧ ∀ held, s.Has held → replay.Places held := by
  let actions : List Action := [.sendUdp 0 greeting 0, .processBuffer 0 [], .pollLink 0, .advance 10,
    .pollForwarder 0 [] [], .pollRecv 1 4433 1 100 [], .sendUdp 0 greeting 0, .processBuffer 0 [],
    .pollLink 0, .advance 90, .pollLink 0]
  obtain ⟨net, accepted, runs⟩ : ∃ net,
      InMemoryNetwork.initialize .twoHosts id (fun _ size => size) = .ok net ∧
      (attains (State.step net) (.initial net) actions).any (fun s => decide <|
        s.whereabouts (.finished .read) 0 = 1 ∧ s.whereabouts (.inTransit 0) 1 = 1) = true :=
    ⟨_, rfl, by decide +kernel⟩
  obtain ⟨s, reached, holds⟩ := (Option.any_eq_true _ _).mp runs
  obtain ⟨read, flying⟩ := of_decide_eq_true holds
  obtain ⟨past, run, acted⟩ := Run.of_attains reached
  have verifier (steps : List SimulationStep) :
      ∃ this, SimulationVerifier.new steps .twoHosts = .ok this := ⟨_, rfl⟩
  obtain ⟨this, made⟩ := verifier s.trace
  exact ⟨net, past, s, this, accepted, run, acted, read, flying, made,
    verify_follows accepted Function.injective_id run (List.prefix_refl _) made _⟩

end SimulationVerifier

end Workbench.Tracing
