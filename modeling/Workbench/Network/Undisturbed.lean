import Workbench.Network.Clearing
import Workbench.Network.Provenance
import Workbench.Network.Quiescence

/-! What the network is for. Where nothing goes down, no buffer is cleared and no packet is dropped at
random, packets get to where they were to go, but for those that find a full buffer on their way
or have too few hops left. -/

set_option autoImplicit false

namespace Workbench.Tracing

/-- The step loses no packet, but for a full buffer or for want of hops. -/
def SimulationStepKind.Mild : SimulationStepKind → Prop
  | .packetInNode e => e.droppedOnArrival = false
  | .packetDropped e => e.reason = .zeroTtl ∨ e.reason = .bufferFull
  | .packetLostInTransit _ => False
  | _ => True

end Workbench.Tracing

namespace Workbench.Network

open Workbench.Library Workbench.Tracing

/-- The action takes nothing down and clears no buffer. -/
def Action.Peaceful : Action → Prop
  | .linkEvent event => event.status ≠ some .down
  | .nodeEvent event => event.status ≠ some .down ∧ event.clearBuffer = false
  | _ => True

/-- No node drops packets at random. -/
def InMemoryNetwork.Lossless (net : InMemoryNetwork) : Prop :=
  ∀ n ∈ net.nodeIds, (net.nodes n).injectedFailures.packetLossRatio = 0

namespace State

variable {net : InMemoryNetwork} {s s' s'' t : State} {n : NodeId} {l : LinkId}

/-- All that is told between two states is mild. -/
def Gentle (s s' : State) : Prop := ∀ step ∈ s'.trace, step ∈ s.trace ∨ step.kind.Mild

theorem Gentle.of_log (log : s'.log = s.log) : Gentle s s' := by
  intro step member
  rw [trace, log] at member
  exact .inl member

theorem Gentle.trans (first : Gentle s s') (second : Gentle s' s'') : Gentle s s'' := by
  intro step member
  rcases second step member with before | mild
  · exact first step before
  · exact .inr mild

theorem Gentle.mark (s : State) {entry : LogEntry} (mark : entry.step? = none) :
    Gentle s (s.note entry) := by
  intro step member
  exact .inl (by simpa [trace, note, mark] using member)

theorem Gentle.record (s : State) {kind : SimulationStepKind} (mild : kind.Mild) :
    Gentle s (s.record kind) := by
  intro step member
  have grown : step ∈ s.trace ∨ step = ⟨s.now, kind⟩ := by
    simpa [trace, State.record, note, LogEntry.step?] using member
  rcases grown with before | rfl
  · exact .inl before
  · exact .inr mild

/-! The functions of the tasks. -/

theorem enqueueOutbound_gentle (s : State) (n : NodeId) (packet : BufferedPacket) :
    Gentle s (s.enqueueOutbound n packet).1 := by
  unfold enqueueOutbound
  split
  · exact .record s (.inr rfl)
  · next outboundBuffer _ =>
    have taken : Gentle s (s.modifyNode n ({ · with outboundBuffer })) := .of_log rfl
    have marked := taken.trans (Gentle.mark _ (show (LogEntry.reserved n packet.data).step? = none from rfl))
    dsimp only
    split
    · exact marked
    · exact marked.trans (.of_log rfl)

theorem enqueueWithDuplicate_gentle (net : InMemoryNetwork) (s : State) (n : NodeId)
    (packet : BufferedPacket) (duplicate : Bool) :
    Gentle s (s.enqueueWithDuplicate net n packet duplicate).1 := by
  unfold enqueueWithDuplicate
  split
  · dsimp only [newPacketId]
    have drawn : Gentle s { s with drawn := s.drawn + 1 } := .of_log rfl
    have original := drawn.trans (enqueueOutbound_gentle { s with drawn := s.drawn + 1 } n packet)
    generalize State.enqueueOutbound { s with drawn := s.drawn + 1 } n packet = entered at original
    obtain ⟨s', exit⟩ := entered
    cases exit with
    | panicked => exact original
    | returned =>
        have told (copy : InTransitData) : Gentle s' (s'.trackInjectedFailures n copy true 0 false) :=
          .record s' trivial
        exact original.trans ((told _).trans (enqueueOutbound_gentle _ n _))
  · exact enqueueOutbound_gentle s n packet

theorem forward_gentle (lossless : net.Lossless) (known : n ∈ net.nodeIds)
    (up : (s.nodes n).isDown = false) (data : InTransitData) (roll : Nat) :
    Gentle s (s.forward net n data roll).1 := by
  have entered : Gentle s (s.trackPacketInNode n data) := .record s rfl
  unfold forward
  rw [if_neg (by simp [up])]
  dsimp only
  split
  · exact entered.trans (.of_log rfl)
  split
  · exact entered.trans (.record _ (.inl rfl))
  rw [lossless n known, if_neg (Nat.not_lt_zero roll)]
  exact entered.trans (enqueueWithDuplicate_gentle net _ n _ _)

/-- Nothing is down, no buffer was ever cleared, and no packet was lost by mishap. -/
structure Undisturbed (s : State) : Prop where
  nodes : ∀ n, (s.nodes n).isDown = false
  clears : ∀ n, (s.nodes n).lastBufferClear = none
  links : ∀ l, (s.links l).isDown = false ∧ (s.links l).lastDown = none
  mild : ∀ step ∈ s.trace, step.kind.Mild

theorem Undisturbed.initial (net : InMemoryNetwork) : Undisturbed (.initial net) where
  nodes _ := rfl
  clears _ := rfl
  links _ := ⟨rfl, rfl⟩
  mild := List.forall_mem_nil _

/-- The links keep their statuses, and the times at which they last went down. -/
def LinksKept (s s' : State) : Prop :=
  ∀ l, (s'.links l).status = (s.links l).status ∧ (s'.links l).lastDown = (s.links l).lastDown

theorem LinksKept.of_links (links : s'.links = s.links) : LinksKept s s' := by
  intro l
  rw [links]
  exact ⟨rfl, rfl⟩

theorem LinksKept.trans (first : LinksKept s s') (second : LinksKept s' s'') : LinksKept s s'' :=
  fun l => ⟨(second l).1.trans (first l).1, (second l).2.trans (first l).2⟩

theorem LinksKept.modifyLink (s : State) (l : LinkId) (change : LinkState → LinkState)
    (status : (change (s.links l)).status = (s.links l).status)
    (lastDown : (change (s.links l)).lastDown = (s.links l).lastDown) :
    LinksKept s (s.modifyLink l change) := by
  intro l'
  by_cases here : l' = l
  · rw [here, modifyLink_self]
    exact ⟨status, lastDown⟩
  · rw [modifyLink_of_ne _ _ here]
    exact ⟨rfl, rfl⟩

theorem Works.linksKept (works : Works s t l) : LinksKept s t := by
  intro l'
  by_cases here : l' = l
  · rw [here]
    exact ⟨works.status, works.lastDown⟩
  · rw [works.others l' here]
    exact ⟨rfl, rfl⟩

theorem endQueueTask_linksKept (s : State) (l : LinkId) : LinksKept s (s.endQueueTask l) := by
  have ended := LinksKept.modifyLink s l (fun link => { link with
    task := .panicked, outgoingQueue := link.outgoingQueue.dropReceiver }) rfl rfl
  exact ended.trans (.of_links rfl)

theorem Undisturbed.keeps (undisturbed : Undisturbed s) (nodes : Uneventful s s')
    (links : LinksKept s s') (gentle : Gentle s s') : Undisturbed s' where
  nodes n := by
    rw [NodeState.isDown, nodes.status n]
    exact undisturbed.nodes n
  clears n := (nodes.clears n).trans (undisturbed.clears n)
  links l := by
    rw [LinkState.isDown, (links l).1, (links l).2]
    exact undisturbed.links l
  mild step member := (gentle step member).elim (undisturbed.mild step) id

/-! The steps. -/

theorem Undisturbed.arriveAll {spec : NetworkSpec} (built : net.Built spec) (lossless : net.Lossless)
    (l : LinkId) (delivered : List DeliveredTransmit)
    (rolls : List Nat) (undisturbed : Undisturbed s) :
    Undisturbed (State.arriveAll net l delivered rolls s) := by
  have set (t : State) (forwarder : Forwarder) (before : Undisturbed t) :
      Undisturbed (t.setForwarder l forwarder) :=
    before.keeps (.of_fields rfl rfl) (.modifyLink t l ({ · with forwarder }) rfl rfl) (.of_log rfl)
  induction delivered generalizing rolls s with
  | nil => exact set s .new undisturbed
  | cons transmit delivered ih =>
      have noted : Undisturbed (s.note (.arrived l transmit.data.id)) :=
        undisturbed.keeps (.mark s rfl) (.of_links rfl) (.mark s rfl)
      have arrived : Undisturbed (s.arrive net l transmit (rolls.headD 0)).1 := by
        unfold State.arrive
        dsimp only
        split
        · next lost =>
          rw [LinkState.wasDownAfter, (noted.links l).2] at lost
          cases lost
        split
        · exact noted.keeps (.mark _ rfl) (.of_links rfl) (.mark _ rfl)
        · next node found =>
          obtain ⟨owner, member, same, -⟩ := built.nodesByAddr _ node found
          have known : node ∈ net.nodeIds := (built.nodeIds node).mpr ⟨owner, member, same⟩
          exact noted.keeps (forward_uneventful net _ node _ _) (.of_links (forward_links net _ _ _ _).links)
            (forward_gentle lossless known (noted.nodes node) _ _)
      unfold State.arriveAll
      generalize s.arrive net l transmit (rolls.headD 0) = result at arrived
      obtain ⟨s', exit⟩ := result
      cases exit with
      | returned => exact ih rolls.tail arrived
      | panicked =>
          exact (set s' _ arrived).keeps (.of_fields rfl rfl) (.of_links rfl) (.of_log rfl)

theorem Undisturbed.pollForwarder {spec : NetworkSpec} {ties rolls : List Nat}
    (built : net.Built spec) (lossless : net.Lossless) (undisturbed : Undisturbed s) (taken : s.pollForwarder net l ties rolls = some s') :
    Undisturbed s' := by
  unfold State.pollForwarder at taken
  dsimp only at taken
  split at taken
  · cases taken
  split at taken
  · obtain rfl := Option.some.inj taken
    exact undisturbed.keeps (.of_fields rfl rfl) (.modifyLink s l _ rfl rfl) (.of_log rfl)
  · obtain rfl := Option.some.inj taken
    apply Undisturbed.arriveAll built lossless
    exact undisturbed.keeps (.of_fields rfl rfl) (.modifyLink s l _ rfl rfl) (.of_log rfl)

theorem Undisturbed.pollLink (undisturbed : Undisturbed s) (taken : s.pollLink net l = some s') :
    Undisturbed s' := by
  have nodes := pollLink_uneventful taken
  cases pollLink_polls taken with
  | waits quiet works => exact undisturbed.keeps nodes works.linksKept (.of_log works.log)
  | panics works alive =>
      exact undisturbed.keeps nodes (works.linksKept.trans (endQueueTask_linksKept _ l)) (.of_log works.log)
  | discards takes handled =>
      exact undisturbed.keeps nodes takes.works.linksKept (.of_log takes.works.log)
  | @clears t k takes unhandled cleared =>
      -- no buffer was cleared
      rw [clearedFromBuffer, undisturbed.clears k.srcNode] at cleared
      cases cleared
  | @sendPanics t k takes unhandled =>
      have marked : LinksKept t (t.markHandled k) := .of_links rfl
      exact undisturbed.keeps nodes
        ((takes.works.linksKept.trans marked).trans (endQueueTask_linksKept _ l))
        (.of_log takes.works.log)
  | @sends t k data pacer takes unhandled kept up marked =>
      have carried : LinksKept t ((t.markHandled k).carry l k data pacer) := by
        intro l'
        by_cases here : l' = l
        · rw [here, carry_self]
          exact ⟨rfl, rfl⟩
        · rw [carry_of_ne _ k data pacer here]
          exact ⟨rfl, rfl⟩
      have silent : Gentle s (t.markHandled k) := .of_log takes.works.log
      have told : Gentle s ((t.markHandled k).trackPacketInTransit k.srcNode l data) :=
        silent.trans (.record _ trivial)
      have sent : Gentle s ((t.markHandled k).carry l k data pacer) := told.trans (.of_log rfl)
      exact undisturbed.keeps nodes ((takes.works.linksKept.trans carried).trans (.of_links rfl))
        (sent.trans (.of_log rfl))

theorem readAll_gentle (n : NodeId) (bufferSize : Nat) (delivered : List DeliveredTransmit) (s : State) :
    Gentle s (readAll n bufferSize delivered s) := by
  induction delivered generalizing s with
  | nil => exact .of_log rfl
  | cons transmit delivered ih =>
      have read : Gentle s (s.trackReadByApplication n transmit.data) := .record s trivial
      unfold readAll
      dsimp only
      split
      · exact read.trans (.of_log rfl)
      · exact read.trans (ih _)

theorem noteAll_gentle (n : NodeId) (delivered : List DeliveredTransmit) (s : State) :
    (delivered.foldl (fun s t => s.note (.checked n t.data.id)) s).links = s.links ∧
      Gentle s (delivered.foldl (fun s t => s.note (.checked n t.data.id)) s) := by
  induction delivered generalizing s with
  | nil => exact ⟨rfl, .of_log rfl⟩
  | cons transmit delivered ih =>
      have noted : Gentle s (s.note (.checked n transmit.data.id)) := .mark s rfl
      obtain ⟨links, gentle⟩ := ih (s.note (.checked n transmit.data.id))
      exact ⟨links, noted.trans gentle⟩

theorem Undisturbed.pollRecv (undisturbed : Undisturbed s) (n : NodeId) (port : Port)
    (slots bufferSize : Nat) (ties : List Nat) :
    Undisturbed (s.pollRecv n port slots bufferSize ties) := by
  apply undisturbed.keeps (pollRecv_uneventful s n port slots bufferSize ties)
  · apply LinksKept.of_links
    unfold State.pollRecv
    dsimp only
    split
    · rfl
    · exact (readAll_same n bufferSize _ _).2
  · unfold State.pollRecv
    dsimp only
    split
    · exact .of_log rfl
    · have gentle := readAll_gentle n bufferSize
      exact Gentle.trans (.of_log rfl) (gentle _ _)

theorem Undisturbed.checkReceive (undisturbed : Undisturbed s) (n : NodeId) (port : Port)
    (ties : List Nat) : Undisturbed (s.checkReceive n port ties) := by
  apply undisturbed.keeps (checkReceive_uneventful s n port ties)
  · apply LinksKept.of_links
    unfold State.checkReceive
    dsimp only
    split
    · rfl
    · exact (noteAll_gentle n _ _).1
  · unfold State.checkReceive
    dsimp only
    split
    · exact .of_log rfl
    · exact Gentle.trans (.of_log rfl) (noteAll_gentle n _ _).2

theorem Undisturbed.processBuffer {rolls : List (Nat × Nat)} (undisturbed : Undisturbed s)
    (taken : s.processBuffer net n rolls = some s') : Undisturbed s' := by
  apply undisturbed.keeps (processBuffer_uneventful taken)
  · intro l
    obtain ⟨outgoingQueue, same⟩ := processBuffer_link taken l
    rw [same]
    exact ⟨rfl, rfl⟩
  · obtain ⟨packet, rest, queued, rfl | ⟨links, t, walked, pushes, ends⟩⟩ := processBuffer_cases taken
    · exact .of_log rfl
    · have pushed := pushCopies_pushed net n packet s.dispatches.length links links rolls
        ((s.takeBuffered n rest).openDispatch n packet links)
      rw [← pushes] at pushed
      rcases ends with rfl | rfl <;> exact .of_log pushed.log

theorem Undisturbed.processLinkEvent (undisturbed : Undisturbed s) {event : LinkEventPayload}
    (peaceful : event.status ≠ some .down) : Undisturbed (s.processLinkEvent net event) := by
  by_cases known : event.linkId ∈ net.linkIds
  · have nodes := processLinkEvent_uneventful net s event
    refine ⟨fun n => ?_, fun n => ?_, fun l => ?_, fun step member => ?_⟩
    · rw [NodeState.isDown, nodes.status n]
      exact undisturbed.nodes n
    · exact (nodes.clears n).trans (undisturbed.clears n)
    · rw [processLinkEvent_link known]
      split
      · obtain ⟨up, never⟩ := undisturbed.links l
        refine ⟨?_, ?_⟩
        · rw [LinkState.process_isDown, up]
          cases carried : event.status with
          | none => rfl
          | some status => cases status <;> simp_all
        · unfold LinkState.process
          rw [up]
          cases carried : event.status with
          | none => exact never
          | some status =>
              cases status with
              | down => exact absurd carried peaceful
              | up => simp [LinkState.updateStatus, Switch.goesDown, never]
      · exact undisturbed.links l
    · rw [processLinkEvent_trace known] at member
      rcases List.mem_append.mp member with before | new
      · exact undisturbed.mild step before
      · rw [List.mem_singleton.mp new]
        trivial
  · rwa [processLinkEvent_unknown known]

theorem processNodeEvent_gentle (net : InMemoryNetwork) (s : State) (event : NodeEventPayload) :
    Gentle s (s.processNodeEvent net event) := by
  have tracked (t : State) (log : t.log = s.log) : Gentle s (t.trackNodeEvent event) :=
    Gentle.trans (.of_log log) (.record t trivial)
  unfold State.processNodeEvent
  dsimp only
  split
  · exact .of_log rfl
  · cases event.status <;> cases event.clearBuffer <;> exact tracked _ rfl

theorem Undisturbed.processNodeEvent (undisturbed : Undisturbed s) {event : NodeEventPayload}
    (peaceful : event.status ≠ some .down ∧ event.clearBuffer = false) :
    Undisturbed (s.processNodeEvent net event) where
  nodes n := by
    rw [NodeState.isDown, processNodeEvent_status]
    split
    · cases carried : event.status with
      | none => exact undisturbed.nodes n
      | some status =>
          rw [Option.elim_some, Switch.update_isDown]
          cases status with
          | down => exact absurd carried peaceful.1
          | up => rfl
    · exact undisturbed.nodes n
  clears n := by
    rcases processNodeEvent_lastBufferClear net s event n with same | ⟨event', same, -, cleared, -⟩
    · exact same.trans (undisturbed.clears n)
    · rw [← Action.nodeEvent.inj same, peaceful.2] at cleared
      cases cleared
  links l := by
    rw [(processNodeEvent_links net s event).links]
    exact undisturbed.links l
  mild step member := (processNodeEvent_gentle net s event step member).elim (undisturbed.mild step) id

/-- Peaceful steps leave the network undisturbed. -/
theorem Undisturbed.step {spec : NetworkSpec} {action : Action} (built : net.Built spec)
    (lossless : net.Lossless) (undisturbed : Undisturbed s) (peaceful : action.Peaceful) (taken : s.step net action = some s') : Undisturbed s' := by
  cases action with
  | advance duration =>
      obtain rfl := Option.some.inj taken
      exact undisturbed.keeps (.of_fields rfl rfl) (.of_links rfl) (.of_log rfl)
  | linkEvent event => exact Option.some.inj taken ▸ undisturbed.processLinkEvent peaceful
  | nodeEvent event => exact Option.some.inj taken ▸ undisturbed.processNodeEvent peaceful
  | sendUdp n transmit roll =>
      have nodes : Uneventful s s' := step_uneventful taken (by rintro event ⟨⟩)
      obtain ⟨unknown, taken⟩ := Option.ite_none_left_eq_some.mp taken
      have issued : Gentle s (s.inTransitData net n transmit).2 := .of_log rfl
      have up : ((s.inTransitData net n transmit).2.nodes n).isDown = false := undisturbed.nodes n
      have sent : Gentle s (s.sendUdp net n transmit roll).1 :=
        issued.trans (forward_gentle lossless (not_not.mp unknown) up _ roll)
      have links : LinksKept s (s.sendUdp net n transmit roll).1 :=
        .of_links (forward_links net (s.inTransitData net n transmit).2 n _ roll).links
      generalize s.sendUdp net n transmit roll = result at sent links taken
      obtain ⟨t, exit⟩ := result
      cases exit with
      | returned => exact Option.some.inj taken ▸ undisturbed.keeps (Option.some.inj taken ▸ nodes) links sent
      | panicked =>
          obtain rfl := Option.some.inj taken
          exact undisturbed.keeps nodes (links.trans (.of_links rfl)) (sent.trans (.of_log rfl))
  | processBuffer n rolls =>
      obtain ⟨-, taken⟩ := Option.ite_none_left_eq_some.mp taken
      exact undisturbed.processBuffer taken
  | pollLink l =>
      obtain ⟨-, taken⟩ := Option.ite_none_left_eq_some.mp taken
      exact undisturbed.pollLink taken
  | pollForwarder l ties rolls =>
      obtain ⟨-, taken⟩ := Option.ite_none_left_eq_some.mp taken
      exact undisturbed.pollForwarder built lossless taken
  | pollRecv n port slots bufferSize ties =>
      obtain ⟨-, taken⟩ := Option.ite_none_left_eq_some.mp taken
      exact Option.some.inj taken ▸ undisturbed.pollRecv n port slots bufferSize ties
  | checkReceive n port ties =>
      obtain ⟨-, taken⟩ := Option.ite_none_left_eq_some.mp taken
      exact Option.some.inj taken ▸ undisturbed.checkReceive n port ties

/-! Runs. -/

variable {past : List (State × Action)}

theorem undisturbed_of_run {spec : NetworkSpec} (built : net.Built spec) (lossless : net.Lossless)
    (run : Run (step net) (.initial net) past s)
    (peaceful : ∀ move ∈ past, move.2.Peaceful) : Undisturbed s :=
  run.guarded Undisturbed (fun _ action => action.Peaceful) (.initial net) peaceful
    fun _ _ _ undisturbed peaceful taken => undisturbed.step built lossless peaceful taken

/-- No link is held up. -/
theorem Undisturbed.not_heldUp (undisturbed : Undisturbed s) : ¬ HeldUp s l := by
  intro held
  cases held with
  | byLink task unhandled down => simp [(undisturbed.links l).1] at down
  | @byNode k notifier task unhandled down => simp [undisturbed.nodes k.srcNode] at down

/-- The packet got to where its transmit was to go. -/
inductive Received (net : InMemoryNetwork) (sent : List (NodeId × OwnedTransmit)) (s : State)
    (id : Uuid) : Prop where
  | queued {n : NodeId} {port : Port} {p : PrioritizedInTransitData}
      (member : p ∈ ((s.nodes n).udpEndpoints port).queue) (same : p.data.id = id)
      (stems : p.data.Stems sent)
      (there : p.data.transmit.destination = ⟨(net.nodes n).canonicalAddress, port⟩) :
      Received net sent s id
  | read {time : Nat} {e : GenericPacketEvent} {data : InTransitData}
      (told : ⟨time, .packetDeliveredToApplication e⟩ ∈ s.trace) (same : e.packetId = id)
      (read : data.id = id) (stems : data.Stems sent)
      (there : data.transmit.destination.ip = (net.nodes e.nodeId).canonicalAddress) :
      Received net sent s id
  | checked {n : NodeId} (noted : .checked n id ∈ s.log) : Received net sent s id

theorem mem_trace {step : SimulationStep} (member : .recorded step ∈ s.log) : step ∈ s.trace :=
  List.mem_filterMap.mpr ⟨_, member, rfl⟩

/-- How packets end where nothing disturbs them. -/
theorem Undisturbed.ends (undisturbed : Undisturbed s) {sent : List (NodeId × OwnedTransmit)}
    (only : Only net (InTransitData.Stems sent) s) {id : Uuid} {outcome : Outcome} {e : LogEntry}
    (member : e ∈ s.log) (ends : e.outcome? = some (id, outcome)) :
    Received net sent s id ∨ outcome = .zeroTtl ∨ outcome = .bufferFull := by
  unfold LogEntry.outcome? at ends
  split at ends
  · next time e =>
    have mild := undisturbed.mild _ (mem_trace member)
    have arrives : e.droppedOnArrival = false := mild
    simp [arrives] at ends
  · next time e =>
    obtain ⟨-, rfl⟩ := Prod.mk.inj (Option.some.inj ends)
    have mild := undisturbed.mild _ (mem_trace member)
    have reason : e.reason = .zeroTtl ∨ e.reason = .bufferFull := mild
    rcases reason with same | same
    · exact .inr (.inl (by rw [same]; rfl))
    · exact .inr (.inr (by rw [same]; rfl))
  · exact (undisturbed.mild _ (mem_trace member)).elim
  · next time e =>
    obtain ⟨same, -⟩ := Prod.mk.inj (Option.some.inj ends)
    obtain ⟨data, stems, named, there⟩ := only.told _ (mem_trace member)
    have same' : e.packetId = data.id := (Prod.mk.inj named).1
    exact .inl (.read (mem_trace member) same (same'.symm.trans same) stems there)
  · obtain ⟨rfl, -⟩ := Prod.mk.inj (Option.some.inj ends)
    exact .inl (.checked member)
  · cases ends

end State

end Workbench.Network
