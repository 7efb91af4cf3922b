import Workbench.Network.TimeToLive

/-! Where the packets of a run come from. Each packet that gets to a node was on a link, or
is injected there, and copies keep the number that their original got from its injection. -/

set_option autoImplicit false

namespace Workbench.Network

open Workbench.Library Workbench.Tracing

/-- The node at which an action injects a packet. -/
def Action.injectsAt? : Action → Option NodeId
  | .sendUdp n _ _ => some n
  | _ => none

/-- The nodes that injected packets along a run, each with the number of its packet. -/
def injections (past : List (State × Action)) : List (NodeId × Nat) :=
  past.filterMap fun move => move.2.injectsAt?.map (·, move.1.nextTransmitNumber)

namespace State

variable {net : InMemoryNetwork} {past : List (State × Action)} {s s' : State} {l : LinkId}

/-- Every number given to a transmit is of an injection. -/
theorem injected_of_run (fresh : Function.Injective net.uuids)
    (run : Run (State.step net) (.initial net) past s) {number : Nat}
    (given : number < (transmitsOf past).length) : ∃ m, (m, number) ∈ injections past := by
  induction run with
  | start => cases given
  | @next past s s' action run taken ih =>
      have old (before : number < (transmitsOf past).length) :
          ∃ m, (m, number) ∈ injections ((s, action) :: past) := by
        obtain ⟨m, injected⟩ := ih before
        exact ⟨m, (List.sublist_cons_self _ _ |>.filterMap _).subset injected⟩
      obtain ⟨-, -, ⟨numberOf, bounded⟩, -⟩ := bounded_of_run fresh run
      have next : s.nextTransmitNumber = (transmitsOf past).length := bounded.next
      cases action with
      | sendUdp m transmit roll =>
          have grown : (transmitsOf ((s, .sendUdp m transmit roll) :: past)).length =
              (transmitsOf past).length + 1 := by
            simp [transmitsOf, Action.transmit?]
          by_cases before : number < (transmitsOf past).length
          · exact old before
          · -- the number that this send gives
            obtain rfl : number = s.nextTransmitNumber := by omega
            exact ⟨m, List.mem_cons_self⟩
      | _ =>
          refine old ?_
          simpa [transmitsOf, Action.transmit?] using given

/-- Only numbers given to a transmit are of injections. -/
theorem injections_lt (fresh : Function.Injective net.uuids)
    (run : Run (State.step net) (.initial net) past s) {m : NodeId} {number : Nat}
    (injected : (m, number) ∈ injections past) : number < s.nextTransmitNumber := by
  obtain ⟨-, -, ⟨numberOf, bounded⟩, numbered⟩ := bounded_of_run fresh run
  have next : s.nextTransmitNumber = (transmitsOf past).length := bounded.next
  obtain ⟨⟨t, action⟩, member, sent⟩ := List.mem_filterMap.mp injected
  cases action with
  | sendUdp m' transmit roll =>
      obtain ⟨-, rfl⟩ := Prod.mk.inj (Option.some.inj sent)
      have found := numbered _ member transmit rfl
      exact next ▸ (List.getElem?_eq_some_iff.mp found).1
  | _ => cases sent

/-- The packets of one number were injected at one node. -/
theorem injections_unique (fresh : Function.Injective net.uuids)
    (run : Run (State.step net) (.initial net) past s) {m m' : NodeId} {number : Nat}
    (first : (m, number) ∈ injections past) (second : (m', number) ∈ injections past) : m = m' := by
  induction run with
  | start => cases first
  | @next past s s' action run taken ih =>
      cases action with
      | sendUdp n transmit roll =>
          have grown : injections ((s, .sendUdp n transmit roll) :: past) =
              (n, s.nextTransmitNumber) :: injections past := rfl
          rw [grown] at first second
          -- the number is new, so an injection before this one has another
          rcases List.mem_cons.mp first with here | first <;>
            rcases List.mem_cons.mp second with here' | second
          · exact (Prod.mk.inj here).1.trans (Prod.mk.inj here').1.symm
          · have bound := injections_lt fresh run second
            exact absurd (Prod.mk.inj here).2 bound.ne
          · have bound := injections_lt fresh run first
            exact absurd (Prod.mk.inj here').2 bound.ne
          · exact ih first second
      | _ => exact ih first second

/-! What the steps tell of packets that get to nodes. -/

/-- A forward call tells first that its packet gets to the node, and of no other that does. -/
theorem forward_told (net : InMemoryNetwork) (s : State) (n : NodeId) (data : InTransitData)
    (roll : Nat) : ∃ dropped told, (s.forward net n data roll).1.trace = s.trace ++
      ⟨s.now, .packetInNode ⟨data.id, data.number, data.size, n, dropped⟩⟩ :: told ∧
        ∀ step ∈ told, step.forwards? = none := by
  have call (dropped : Bool) : (s.record
      (.packetInNode ⟨data.id, data.number, data.size, n, dropped⟩)).trace = s.trace ++
        [⟨s.now, .packetInNode ⟨data.id, data.number, data.size, n, dropped⟩⟩] := by
    simp [State.record, note, trace, LogEntry.step?]
  have rests {t : State} (rests : Rests (s.trackPacketInNode n data) t) : ∃ dropped told,
      t.trace = s.trace ++
        ⟨s.now, .packetInNode ⟨data.id, data.number, data.size, n, dropped⟩⟩ :: told ∧
          ∀ step ∈ told, step.forwards? = none := by
    obtain ⟨-, -, told, grown, passing⟩ := rests
    refine ⟨false, told, ?_, fun step member => (passing step member).forwards⟩
    rw [grown, trackPacketInNode, call]
    simp
  unfold forward
  split
  · exact ⟨true, [], call true, List.forall_mem_nil _⟩
  dsimp only
  split
  · exact ⟨false, [], call false, List.forall_mem_nil _⟩
  split
  · exact rests (.record _ ⟨rfl, rfl⟩)
  split
  · exact rests (.record _ ⟨rfl, rfl⟩)
  · -- a duplicate is told of, but by a step of its own kind
    obtain ⟨-, -, -, ⟨told, grown, duplicates⟩, -⟩ := enqueueWithDuplicate_proceeds net
      (s.trackPacketInNode n data) n _ _
    refine ⟨false, told, ?_, fun step member => (duplicates step member).elim (·.forwards) (·.1)⟩
    rw [grown, trackPacketInNode, call]
    simp

theorem pollLink_told (taken : s.pollLink net l = some s') :
    ∃ told, s'.trace = s.trace ++ told ∧ ∀ step ∈ told, step.forwards? = none := by
  have silent {t : State} (log : t.log = s.log) :
      ∃ told, t.trace = s.trace ++ told ∧ ∀ step ∈ told, step.forwards? = none :=
    ⟨[], by simp [trace, log], List.forall_mem_nil _⟩
  cases pollLink_polls taken with
  | waits quiet works => exact silent works.log
  | panics works alive => exact silent works.log
  | discards takes handled => exact silent takes.works.log
  | sendPanics takes unhandled => exact silent takes.works.log
  | @clears t k takes unhandled cleared =>
      refine ⟨[⟨t.now, .packetDropped ⟨k.data.id, k.srcNode, .bufferCleared⟩⟩], ?_, by
        simp [SimulationStep.forwards?]⟩
      rw [trace, trace, ← takes.works.log]
      exact List.filterMap_append
  | @sends t k data pacer takes =>
      refine ⟨[⟨t.now, .packetInTransit ⟨data.id, k.srcNode, l⟩⟩], ?_, by
        simp [SimulationStep.forwards?]⟩
      rw [trace, trace, ← takes.works.log]
      exact List.filterMap_append

/-- A packet that gets to a node was in transit, or is injected there. -/
inductive Comes (s : State) (action : Action) (p : PacketInNode) : Prop where
  | landed {l : LinkId} {q : PrioritizedInTransitData} (queued : q ∈ (s.links l).inTransit.queue)
      (same : q.data.id = p.packetId) : Comes s action p
  | injected {transmit : OwnedTransmit} {roll : Nat} (sent : action = .sendUdp p.nodeId transmit roll)
      (number : p.packetNumber = s.nextTransmitNumber) : Comes s action p

theorem step_comes {action : Action} (taken : s.step net action = some s') :
    ∃ steps, s'.trace = s.trace ++ steps ∧ ∀ step ∈ steps, ∀ p, step.kind = .packetInNode p →
      Comes s action p := by
  -- Steps that call for no forwarding tell of no packet that comes into a node.
  have passes (told : ∃ told, s'.trace = s.trace ++ told ∧ ∀ step ∈ told, step.forwards? = none) :
      ∃ steps, s'.trace = s.trace ++ steps ∧ ∀ step ∈ steps, ∀ p, step.kind = .packetInNode p →
        Comes s action p := by
    obtain ⟨told, grown, silent⟩ := told
    refine ⟨told, grown, fun step member p kind => ?_⟩
    have none := silent step member
    simp [SimulationStep.forwards?, kind] at none
  have rests (rests : Rests s s') : ∃ steps, s'.trace = s.trace ++ steps ∧
      ∀ step ∈ steps, ∀ p, step.kind = .packetInNode p → Comes s action p := by
    obtain ⟨told, grown, passing⟩ := rests.told
    exact passes ⟨told, grown, fun step member => (passing step member).forwards⟩
  cases action with
  | advance duration =>
      obtain rfl := Option.some.inj taken
      exact passes ⟨[], (List.append_nil _).symm, List.forall_mem_nil _⟩
  | linkEvent event => exact rests (Option.some.inj taken ▸ processLinkEvent_rests net s event)
  | nodeEvent event => exact rests (Option.some.inj taken ▸ processNodeEvent_rests net s event)
  | sendUdp n transmit roll =>
      simp only [State.step] at taken
      split at taken
      · cases taken
      -- What is told first is the injection; forwarding the packet adds no other entry.
      obtain ⟨dropped, told, grown, silent⟩ := forward_told net { s with
        drawn := s.drawn + 1, nextTransmitNumber := s.nextTransmitNumber + 1 } n
        ⟨net.uuids s.drawn, false, n, transmit, s.nextTransmitNumber⟩ roll
      have same : s'.trace = (s.sendUdp net n transmit roll).1.trace := by
        generalize s.sendUdp net n transmit roll = result at taken
        obtain ⟨t, exit⟩ := result
        cases exit <;> exact (Option.some.inj taken) ▸ rfl
      refine ⟨_, same.trans grown, fun step member p kind => ?_⟩
      rcases List.mem_cons.mp member with rfl | later
      · obtain rfl := SimulationStepKind.packetInNode.inj kind
        exact .injected rfl rfl
      · have none := silent step later
        simp [SimulationStep.forwards?, kind] at none
  | processBuffer n rolls =>
      simp only [State.step] at taken
      split at taken
      · cases taken
      exact rests (processBuffer_rests taken)
  | pollLink l =>
      simp only [State.step] at taken
      split at taken
      · cases taken
      exact passes (pollLink_told taken)
  | pollForwarder l ties rolls =>
      simp only [State.step] at taken
      split at taken
      · cases taken
      obtain ⟨ids, ⟨-, steps, grown, inland⟩, sources⟩ := pollForwarder_tells taken
      refine ⟨steps, grown, fun step member p kind => ?_⟩
      have arriving := (inland step member).2
      rw [kind] at arriving
      obtain ⟨q, queued, same, -⟩ := sources _ arriving
      exact .landed queued same
  | pollRecv n port count bufferSize ties =>
      simp only [State.step] at taken
      split at taken
      · cases taken
      exact rests (Option.some.inj taken ▸ pollRecv_rests s n port count bufferSize ties)
  | checkReceive n port ties =>
      simp only [State.step] at taken
      split at taken
      · cases taken
      exact rests (Option.some.inj taken ▸ checkReceive_rests s n port ties)

end State

end Workbench.Network
