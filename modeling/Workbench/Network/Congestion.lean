import Workbench.Library.Machine
import Workbench.Network.Sends

/-! The anomalies drawn for the copies of a packet when a buffer processor queues them,
and what a link finds of them when it sends a copy.

A packet can only be marked for a congestion event while it carries one of the two
codepoints that tell of support for it. The draw does not look at the codepoint. -/

set_option autoImplicit false

namespace Workbench.Network

open Workbench.Library

/-- The packet tells that it supports explicit congestion notification. -/
def InTransitData.SupportsEcn (data : InTransitData) : Prop :=
  data.transmit.ecn = some .ect0 ∨ data.transmit.ecn = some .ect1

theorem PacketAnomalies.isSome_mark {anomalies : PacketAnomalies} {data : InTransitData} :
    (anomalies.mark data).isSome = true ↔
      (anomalies.congestionExperienced = true → data.SupportsEcn) := by
  obtain ⟨congestion, delay⟩ := anomalies
  cases congestion with
  | false => simp [mark]
  | true =>
      rcases ecn : data.transmit.ecn with _ | _ | _ | _ <;>
        simp [mark, InTransitData.SupportsEcn, ecn, EcnCodepoint.bits]

namespace State

variable {net : InMemoryNetwork} {s s' t : State} {l : LinkId} {k : OutgoingPacket}

/-- The anomalies that are drawn for a packet, for each of its candidate links. -/
def drawAnomalies (net : InMemoryNetwork) :
    List LinkId → List (Nat × Nat) → List (LinkId × PacketAnomalies)
  | [], _ => []
  | l :: links, rolls =>
    (l, generatePacketAnomalies net l (rolls.headD (0, 0))) :: drawAnomalies net links rolls.tail

/-- The step queues a copy of a packet at a link, with anomalies drawn for it. -/
def Queues (net : InMemoryNetwork) (s : State) (action : Action) (l : LinkId)
    (data : InTransitData) (anomalies : PacketAnomalies) : Prop :=
  ∃ n rolls packet rest links, action = .processBuffer n rolls ∧
    (s.nodes n).outbound.messages = packet :: rest ∧
    net.candidateLinks n packet.data.transmit.destination.ip = .ok links ∧
    (l, anomalies) ∈ drawAnomalies net links rolls ∧ data = packet.data

/-- A copy in a queue after some were pushed was there before, or is one of them. -/
theorem pushCopies_outgoing (net : InMemoryNetwork) (n : NodeId) (packet : BufferedPacket)
    (flag : Nat) (preferred links : List LinkId) (rolls : List (Nat × Nat)) (s : State)
    (member : k ∈ (pushCopies net n packet flag preferred links rolls s).1.outgoing l) :
    k ∈ s.outgoing l ∨ ∃ anomalies, (l, anomalies) ∈ drawAnomalies net links rolls ∧
      k = ⟨packet.inNodeSince, n, packet.data, anomalies, preferred, flag⟩ := by
  induction links generalizing rolls s with
  | nil => exact .inl member
  | cons l' links ih =>
      unfold pushCopies at member
      dsimp only at member
      split at member
      · exact .inl member
      · next queue sent =>
          obtain rfl := Channel.unboundedSend_some sent
          rcases ih rolls.tail _ member with old | ⟨anomalies, drawn, same⟩
          · by_cases here : l = l'
            · subst here
              simp only [outgoing, modifyLink_self, List.mem_append, List.mem_singleton] at old
              rcases old with old | rfl
              · exact .inl old
              · exact .inr ⟨_, List.mem_cons_self, rfl⟩
            · rw [outgoing, modifyLink_of_ne _ _ here] at old
              exact .inl old
          · exact .inr ⟨anomalies, List.mem_cons_of_mem _ drawn, same⟩

theorem handle_copies {k' : OutgoingPacket}
    (member : k ∈ ((s.handle net l k').links l).copies) : k ∈ (s.links l).copies := by
  rcases handle_link net s l k' with ⟨pacer, inTransit, same⟩ | ended
  · rwa [same] at member
  · rw [ended] at member
    cases member

theorem pollLink_copies (taken : s.pollLink net l = some s') (member : k ∈ (s'.links l).copies) :
    ∃ k₀ ∈ (s.links l).copies, k.SameCopy k₀ := by
  unfold pollLink at taken
  have resumes := resume_resumes net s l
  split at taken
  · cases taken
  · next t resumed =>
      obtain rfl := Option.some.inj taken
      rw [resumed] at resumes
      cases resumes with
      | waits quiet => exact quiet.copy_before member
  · next t k' resumed =>
      obtain rfl := Option.some.inj taken
      rw [resumed] at resumes
      cases resumes with
      | ready takes =>
          obtain ⟨k₀, -, copies⟩ := takes.copies
          have held := handle_copies member
          rw [LinkState.copies, takes.idle] at held
          exact ⟨k, copies ▸ List.mem_cons_of_mem _ held, rfl⟩
  · next t resumed =>
      obtain rfl := Option.some.inj taken
      rw [endQueueTask_copies] at member
      cases member

/-- A copy that a link has after a step is one that it had, or one that the step queued. -/
theorem step_copies {action : Action} (taken : s.step net action = some s')
    (member : k ∈ (s'.links l).copies) :
    (∃ k₀ ∈ (s.links l).copies, k.SameCopy k₀) ∨ Queues net s action l k.data k.anomalies := by
  by_cases own : action = .pollLink l
  · subst own
    simp only [step] at taken
    split at taken
    · cases taken
    exact .inl (pollLink_copies taken member)
  by_cases buffered : ∃ n rolls, action = .processBuffer n rolls
  · obtain ⟨n, rolls, rfl⟩ := buffered
    simp only [step] at taken
    split at taken
    · cases taken
    have task := (processBuffer_taskKept taken l).task
    rw [LinkState.copies, task, List.mem_append] at member
    rcases member with held | queued
    · exact .inl ⟨k, List.mem_append_left _ held, rfl⟩
    · obtain ⟨-, same | ⟨packet, rest, links, first, walked, same⟩⟩ := processBuffer_links taken
      · rw [same] at queued
        exact .inl ⟨k, List.mem_append_right _ queued, rfl⟩
      · rw [same] at queued
        rcases pushCopies_outgoing net n packet _ links links rolls _ queued with
          old | ⟨anomalies, drawn, rfl⟩
        · exact .inl ⟨k, List.mem_append_right _ old, rfl⟩
        · exact .inr ⟨n, rolls, packet, rest, links, rfl, first, walked, drawn, rfl⟩
  · have kept := step_linkKept taken own fun n rolls same => buffered ⟨n, rolls, same⟩
    rw [LinkState.copies, kept.task, kept.queue] at member
    exact .inl ⟨k, member, rfl⟩

theorem mem_of_drawAnomalies {links : List LinkId} {rolls : List (Nat × Nat)}
    {anomalies : PacketAnomalies} (drawn : (l, anomalies) ∈ drawAnomalies net links rolls) :
    l ∈ links := by
  induction links generalizing rolls with
  | nil => cases drawn
  | cons first links ih =>
      rcases List.mem_cons.mp drawn with same | later
      · obtain ⟨rfl, -⟩ := Prod.mk.inj same
        exact List.mem_cons_self
      · exact List.mem_cons_of_mem _ (ih later)

/-- The copies of packets are at candidate links of their nodes towards their destinations. -/
def Offered (net : InMemoryNetwork) (s : State) : Prop :=
  ∀ l, ∀ k ∈ (s.links l).copies, k.srcNode ∈ net.nodeIds ∧ ∃ links,
    net.candidateLinks k.srcNode k.data.transmit.destination.ip = .ok links ∧ l ∈ links

theorem Offered.initial (net : InMemoryNetwork) : Offered net (.initial net) := by
  intro l k member
  simp [initial_copies] at member

theorem Offered.step {action : Action} (offered : Offered net s) (taken : s.step net action = some s') :
    Offered net s' := by
  intro l k member
  have old {k₀ : OutgoingPacket} (before : k₀ ∈ (s.links l).copies) (same : k.SameCopy k₀) :
      k.srcNode ∈ net.nodeIds ∧ ∃ links,
        net.candidateLinks k.srcNode k.data.transmit.destination.ip = .ok links ∧ l ∈ links := by
    obtain ⟨-, node, data, -, -⟩ := same.fields
    rw [node, data]
    exact offered l k₀ before
  rcases step_copies taken member with ⟨k₀, before, same⟩ | ⟨n, rolls, -, -, -, rfl, -⟩
  · exact old before same
  -- A new copy has its node from the buffer processor that queued it.
  obtain ⟨known, taken⟩ := Option.ite_none_left_eq_some.mp taken
  rw [LinkState.copies, (processBuffer_taskKept taken l).task, List.mem_append] at member
  rcases member with held | queued
  · exact old (List.mem_append_left _ held) rfl
  obtain ⟨-, same | ⟨packet, rest, links, -, walked, same⟩⟩ := processBuffer_links taken
  · exact old (List.mem_append_right _ (same ▸ queued)) rfl
  · rw [same] at queued
    rcases pushCopies_outgoing net n packet _ links links rolls _ queued with
      before | ⟨anomalies, drawn, rfl⟩
    · exact old (List.mem_append_right _ before) rfl
    · exact ⟨not_not.mp known, links, walked, mem_of_drawAnomalies drawn⟩

theorem Takes.candidate (takes : s.Takes t l k) (offered : Offered net s) :
    k.srcNode ∈ net.nodeIds ∧ ∃ links,
      net.candidateLinks k.srcNode k.data.transmit.destination.ip = .ok links ∧ l ∈ links := by
  obtain ⟨k₀, same, copies⟩ := takes.copies
  obtain ⟨-, node, data, -, -⟩ := same.fields
  rw [node, data]
  exact offered l k₀ (copies ▸ List.mem_cons_self)

/-- What holds of every copy as it is queued holds of every copy that is sent. -/
theorem sendCall_of_queues {past : List (State × Action)}
    (run : Run (step net) (initial net) past s)
    (Holds : LinkId → InTransitData → PacketAnomalies → Prop)
    (queued : ∀ move ∈ past, ∀ l data anomalies, Queues net move.1 move.2 l data anomalies →
      Holds l data anomalies) :
    ∀ move ∈ past, ∀ call, move.1.sendCall net move.2 = some call →
      Holds call.link call.packet.data call.packet.anomalies := by
  have everywhere := run.guarded_visited
    (fun s => ∀ l, ∀ k ∈ (s.links l).copies, Holds l k.data k.anomalies)
    (fun s action => ∀ l data anomalies, Queues net s action l data anomalies →
      Holds l data anomalies)
    (fun l k member => by simp [initial_copies] at member) queued ?_
  · intro move member call called
    have holds := everywhere move.1 (List.mem_cons_of_mem _ (List.mem_map_of_mem member))
    obtain ⟨l, t, k, -, -, resumed, -, -, rfl⟩ := sendCall_eq_some.mp called
    have resumes := resume_resumes net move.1 l
    rw [resumed] at resumes
    cases resumes with
    | ready takes =>
        obtain ⟨k₀, same, copies⟩ := takes.copies
        obtain ⟨-, -, data, anomalies, -⟩ := same.fields
        rw [data, anomalies]
        exact holds l k₀ (copies ▸ List.mem_cons_self)
  · intro s action s' holds queues taken l k member
    rcases step_copies taken member with ⟨k₀, before, same⟩ | new
    · obtain ⟨-, -, data, anomalies, -⟩ := same.fields
      rw [data, anomalies]
      exact holds l k₀ before
    · exact queues l _ _ new

/-- The step queues copies of a packet that lacks support for congestion notification
only at links that did not draw a congestion event for it. -/
def SelectsMarkable (net : InMemoryNetwork) (s : State) (action : Action) : Prop :=
  ∀ l data anomalies, Queues net s action l data anomalies →
    anomalies.congestionExperienced = true → data.SupportsEcn

/-- In a run that draws congestion events only for packets that support their
notification, no link panics at a packet that it cannot mark. -/
theorem marked_of_selectsMarkable {past : List (State × Action)}
    (run : Run (step net) (initial net) past s)
    (markable : ∀ move ∈ past, SelectsMarkable net move.1 move.2) :
    ∀ move ∈ past, ∀ call, move.1.sendCall net move.2 = some call →
      (call.packet.anomalies.mark call.packet.data).isSome = true := by
  have supports := sendCall_of_queues run
    (fun _ data anomalies => anomalies.congestionExperienced = true → data.SupportsEcn) markable
  exact fun move member call called =>
    PacketAnomalies.isSome_mark.mpr (supports move member call called)

/-- Two hosts, with links on which congestion is rare. -/
def congestedHosts : InMemoryNetwork :=
  { twoHosts (some 1) with
    links := fun l => { (twoHosts (some 1)).links l with congestionEventRatio := 1 } }

theorem marked_of_selectsMarkable_congested : ∃ past s,
    Run (step congestedHosts) (initial congestedHosts) past s ∧ past.length = 3 ∧
      ∀ move ∈ past, ∀ call, move.1.sendCall congestedHosts move.2 = some call →
        (call.packet.anomalies.mark call.packet.data).isSome = true := by
  have run := (((Run.start : Run (step congestedHosts) (initial congestedHosts) [] _).next_of_isSome
    (.sendUdp 0 { greeting with ecn := some .ect0 } 0) rfl).next_of_isSome
    (.processBuffer 0 [(0, 0), (0, 0)]) rfl).next_of_isSome (.pollLink 0) rfl
  refine ⟨_, _, run, rfl, marked_of_selectsMarkable run ?_⟩
  rintro move member l data anomalies ⟨n, rolls, packet, rest, links, same, first, -, -, rfl⟩ -
  simp only [List.mem_cons, List.not_mem_nil, or_false] at member
  rcases member with rfl | rfl | rfl
  · cases same
  · cases same
    obtain ⟨rfl, -⟩ := List.cons.inj first
    exact .inl rfl
  · cases same

/-- A packet without a codepoint draws a congestion event, and `send` panics. -/
theorem panics_at_congestion : ∃ past s call,
    Run (step congestedHosts) (initial congestedHosts) past s ∧
      s.sendCall congestedHosts (.pollLink 0) = some call ∧
      call.packet.data.transmit.ecn = none ∧
      call.packet.anomalies.mark call.packet.data = none ∧ call.result congestedHosts = none := by
  obtain ⟨past, run, -⟩ := Run.of_isSome (step congestedHosts) (initial congestedHosts)
    [.sendUdp 0 greeting 0, .processBuffer 0 [(0, 0), (1, 1)]] rfl
  exact ⟨past, _, _, run, rfl, rfl, rfl, rfl⟩

end State

end Workbench.Network
