import Workbench.Network.Readiness
import Workbench.Tracing.Announcements

/-! Whether the node that a link sends a packet from is up, by what happened since the packet
got there: the node was up then, and only events take it down. -/

set_option autoImplicit false

namespace Workbench.Tracing

open Workbench.Library Workbench.Network

variable {n : NodeId} {id : Uuid} {trace : List SimulationStep}

/-- A packet got to a node, and of the events after that which change the status of the node,
the last one took it down. -/
def WentDownSince (n : NodeId) (id : Uuid) (trace : List SimulationStep) : Prop :=
  ∃ before step after, trace = before ++ step :: after ∧ step.Admits n id ∧
    latest (·.nodeStatus? n) after = some .down

/-- A packet got to a node that was up. -/
def AdmittedUp (n : NodeId) (id : Uuid) (trace : List SimulationStep) : Prop :=
  ∃ before step after, trace = before ++ step :: after ∧ step.Admits n id ∧
    nodeStatus n (before ++ [step]) = .up

theorem nodeStatus_after (n : NodeId) (before after : List SimulationStep) :
    nodeStatus n (before ++ after) = (latest (·.nodeStatus? n) after).getD (nodeStatus n before) := by
  rw [nodeStatus, latest_append, Option.getD_or, nodeStatus]

theorem AdmittedUp.later (admitted : AdmittedUp n id trace) (steps : List SimulationStep) :
    AdmittedUp n id (trace ++ steps) := by
  obtain ⟨before, step, after, rfl, admits, up⟩ := admitted
  exact ⟨before, step, after ++ steps, by simp, admits, up⟩

theorem WentDownSince.nodeStatus (down : WentDownSince n id trace) : nodeStatus n trace = .down := by
  obtain ⟨before, step, after, rfl, -, last⟩ := down
  rw [List.append_cons, nodeStatus_after, last, Option.getD_some]

/-- Where a packet got to a node that was up, the node is down only if it went down since. -/
theorem AdmittedUp.wentDownSince (admitted : AdmittedUp n id trace)
    (down : Tracing.nodeStatus n trace = .down) : WentDownSince n id trace := by
  obtain ⟨before, step, after, rfl, admits, up⟩ := admitted
  refine ⟨before, step, after, rfl, admits, ?_⟩
  rw [List.append_cons, nodeStatus_after, up] at down
  cases last : latest (·.nodeStatus? n) after with
  | none =>
      rw [last] at down
      cases down
  | some status =>
      rw [last] at down
      exact congrArg some down

end Workbench.Tracing

namespace Workbench.Network

open Workbench.Library Workbench.Tracing

namespace State

variable {net : InMemoryNetwork} {s s' : State} {n : NodeId} {l : LinkId} {k : OutgoingPacket}
  {past : List (State × Action)}

/-- Each packet that waits at a node got there while the node was up. -/
def Admitted (s : State) : Prop := ∀ n packet, s.Waits n packet → AdmittedUp n packet.data.id s.trace

/-- What a task tells of a packet that it puts into the buffer of a node, it tells of a node that
is up, and no event comes in between. -/
theorem Greets.admittedUp {steps : List SimulationStep} {step : SimulationStep} {id : Uuid}
    (greets : Greets [] steps s s') (told : s.StatusTold) (member : step ∈ steps)
    (admits : step.Admits n id) : AdmittedUp n id s'.trace := by
  obtain ⟨earlier, later, rfl⟩ := List.append_of_mem member
  have up : (s.nodes n).isDown = false := by
    have greeted := greets.greeted step (by simp)
    obtain ⟨time, kind⟩ := step
    cases kind with
    | packetInNode p =>
        obtain ⟨rfl, -, arrived⟩ := admits
        exact greeted.symm.trans arrived
    | packetDuplicated p =>
        obtain ⟨rfl, -⟩ := admits
        exact greeted
    | _ => exact admits.elim
  have silent : ∀ step' ∈ earlier ++ [step], step'.kind.nodeEvent? = none := by
    intro step' inside
    refine (greets.greeted step' ?_).eventless
    rw [List.append_cons]
    exact List.mem_append_left _ inside
  refine ⟨s.trace ++ earlier, step, later, by rw [greets.trace, List.append_assoc], admits, ?_⟩
  rw [List.append_assoc, nodeStatus_append n s.trace silent, ← UpdateStatus.ne_down]
  apply of_decide_eq_false
  rw [← told n]
  exact up

theorem Admitted.step {action : Action} (admitted : Admitted s) (told : s.StatusTold)
    (taken : s.step net action = some s') : Admitted s' := by
  intro n packet waits
  obtain ⟨steps, grown, -, waited⟩ := step_waits taken
  rcases waited n packet waits with old | ⟨-, step, member, admits⟩
  · rw [grown]
    exact (admitted n packet old).later steps
  · cases atNode : action.atNode with
    | false =>
        rw [grown]
        exact (admitted n packet (step_waited taken atNode waits)).later steps
    | true =>
        obtain ⟨steps', greets⟩ := step_greets taken atNode
        obtain rfl := List.append_cancel_left (grown.symm.trans greets.trace)
        exact greets.admittedUp told member admits

theorem admitted_of_run (run : Run (State.step net) (.initial net) past s) : Admitted s := by
  have both : s.StatusTold ∧ Admitted s :=
    run.invariant (fun s => s.StatusTold ∧ Admitted s)
      ⟨fun _ => rfl, fun n packet waits => by cases waits with | buffered member | dispatched member => cases member⟩
      fun _ _ _ ⟨told, admitted⟩ taken => ⟨told.step taken, admitted.step told taken⟩
  exact both.2

/-- In a run, the node of a pending copy is down exactly where it went down after the packet got
there, and did not come up again. -/
theorem isDown_iff_wentDownSince (run : Run (State.step net) (.initial net) past s)
    (copy : k ∈ (s.links l).copies) (unhandled : s.handled k.handled = false) :
    (s.nodes k.srcNode).isDown = true ↔ WentDownSince k.srcNode k.data.id s.trace := by
  rw [statusTold_of_run run k.srcNode, decide_eq_true_eq]
  constructor
  · have admitted := admitted_of_run run k.srcNode _ ((Competing.of_run run).waits copy unhandled)
    exact admitted.wentDownSince
  · exact WentDownSince.nodeStatus

/-- No step brings a pending copy to its turn on a shortcut while its node has gone down since the
packet got there. -/
def NoOutageOnShortcut (net : InMemoryNetwork) (s : State) (action : Action) : Prop :=
  ∀ l k, action = .pollLink l → l ∈ net.linkIds → Shortcut net s l k → turn l k = true →
    s.Pending k → ¬ WentDownSince k.srcNode k.data.id s.trace

/-- In a run, links send only from nodes that are up exactly where no node that a pending packet
got to has gone down since, and not come up again, when a link gets to the packet on a shortcut. -/
theorem sentWhileUp_iff (run : Run (step net) (initial net) past s) :
    (∀ move ∈ past, ∀ call, move.1.sendCall net move.2 = some call → call.source.isDown = false) ↔
      ∀ move ∈ past, NoOutageOnShortcut net move.1 move.2 := by
  refine forall₂_congr fun move member => ?_
  obtain ⟨later, before, rfl⟩ := List.append_of_mem member
  rw [source_up_iff, NoOutageOnShortcut]
  have outage {l : LinkId} {k : OutgoingPacket} (shortcut : Shortcut net move.1 l k)
      (pending : move.1.Pending k) :=
    isDown_iff_wentDownSince run.before shortcut.copy pending.1
  constructor
  · intro up l k polled link shortcut due pending down
    have here := up l k polled link shortcut due pending
    rw [(outage shortcut pending).mpr down] at here
    cases here
  · intro kept l k polled link shortcut due pending
    rw [← Bool.not_eq_true, outage shortcut pending]
    exact kept l k polled link shortcut due pending

/-- A packet's node goes down and comes up again before the packet is sent at once. -/
theorem sentWhileUp_iff_twoHosts : ∃ past s,
    Run (step (twoHosts (some 1))) (initial (twoHosts (some 1))) past s ∧
      past.reverse.map Prod.snd = [.sendUdp 0 greeting 0, .nodeEvent ⟨0, some .down, false⟩,
        .nodeEvent ⟨0, some .up, false⟩, .processBuffer 0 [], .pollLink 0] ∧
      (∃ move ∈ past, (move.1.sendCall (twoHosts (some 1)) move.2).isSome = true) ∧
      ∀ move ∈ past, NoOutageOnShortcut (twoHosts (some 1)) move.1 move.2 := by
  let actions : List Action := [.sendUdp 0 greeting 0, .nodeEvent ⟨0, some .down, false⟩,
    .nodeEvent ⟨0, some .up, false⟩, .processBuffer 0 [], .pollLink 0]
  let past := (moves (step (twoHosts (some 1))) (initial (twoHosts (some 1))) actions).reverse
  obtain ⟨s, reached⟩ := Option.isSome_iff_exists.mp <|
    show (attains (step (twoHosts (some 1))) (initial (twoHosts (some 1))) actions).isSome = true
      by decide +kernel
  have run : Run (step (twoHosts (some 1))) (initial (twoHosts (some 1))) past s := Run.of_moves reached
  have sends : past.any (fun move => (move.1.sendCall (twoHosts (some 1)) move.2).isSome) = true := by
    decide +kernel
  have up : past.all (fun move => (move.1.sendCall (twoHosts (some 1)) move.2).all
      fun call => !call.source.isDown) = true := by decide +kernel
  refine ⟨past, s, run, ?_, by simpa using sends, (sentWhileUp_iff run).mp fun move member call called => ?_⟩
  · rw [List.reverse_reverse, moves_actions reached]
  · have all := List.all_eq_true.mp up move member
    simpa [called] using all

/-- A link sends a packet of a node that went down after the packet got there. -/
theorem sent_while_down : ∃ past s call,
    Run (step (twoHosts (some 1))) (initial (twoHosts (some 1))) past s ∧
      s.sendCall (twoHosts (some 1)) (.pollLink 0) = some call ∧ call.packet.srcNode = 0 ∧
      call.source.isDown = true ∧ (call.result (twoHosts (some 1))).isSome = true := by
  obtain ⟨past, run, -⟩ := Run.of_isSome (step (twoHosts (some 1))) (initial (twoHosts (some 1)))
    [.sendUdp 0 greeting 0, .nodeEvent ⟨0, some .down, false⟩, .processBuffer 0 []] rfl
  exact ⟨past, _, _, run, rfl, rfl, rfl, rfl⟩

end State

end Workbench.Network
