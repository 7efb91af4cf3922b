import Workbench.Network.Initialize
import Workbench.Network.Sends

/-! How long a link waits for bandwidth, under a clock that may advance between any two of
its readings. -/

set_option autoImplicit false

namespace Workbench.Network

open Workbench.Library

/-- A question to the pacer. It may settle the batch, but it sends nothing. -/
inductive PacerQuery where
  | canSend (now : Nat) (packetSizeBytes : Nat)
  | durationUntilCanSend (now : Nat) (packetSizeBytes : Nat)
  deriving DecidableEq, Repr

def PacerQuery.now : PacerQuery → Nat
  | .canSend now _ | .durationUntilCanSend now _ => now

/-- The pacer after a query. -/
def PacketPacer.ask (pacer : PacketPacer) : PacerQuery → PacketPacer
  | .canSend now size => (pacer.canSend now size).2
  | .durationUntilCanSend now size => (pacer.durationUntilCanSend now size).2

theorem PacketPacer.ask_eq (pacer : PacketPacer) (query : PacerQuery) :
    pacer.ask query = { pacer with batch := pacer.batch.settle query.now } := by
  cases query with
  | canSend now size => simp [ask, PacerQuery.now]
  | durationUntilCanSend now size => exact durationUntilCanSend_snd pacer now size

/-- An earlier settling makes no difference to a later one. -/
theorem PacketBatch.settle_settle_of_le (batch : PacketBatch) {time later : Nat} (after : time ≤ later) :
    (batch.settle time).settle later = batch.settle later := by
  unfold settle
  split
  · next sent =>
      have still : batch.delay ≤ later - batch.created := by omega
      simp [still]
  · rfl

theorem PacketBatch.settle_asked (pacer : PacketPacer) {later : Nat} (queries : List PacerQuery)
    (before : ∀ query ∈ queries, query.now ≤ later) :
    (queries.foldl PacketPacer.ask pacer).batch.settle later = pacer.batch.settle later ∧
      (queries.foldl PacketPacer.ask pacer).packetDelay = pacer.packetDelay := by
  induction queries generalizing pacer with
  | nil => exact ⟨rfl, rfl⟩
  | cons query queries ih =>
      obtain ⟨first, before⟩ := List.forall_mem_cons.mp before
      obtain ⟨settled, same⟩ := ih (pacer.ask query) before
      rw [PacketPacer.ask_eq] at settled same
      rw [List.foldl_cons, PacketPacer.ask_eq]
      exact ⟨settled.trans (pacer.batch.settle_settle_of_le first), same⟩

/-- Queries up to some time make no difference to what can be sent at that time. -/
theorem PacketPacer.canSend_asked (pacer : PacketPacer) {later : Nat} (queries : List PacerQuery)
    (before : ∀ query ∈ queries, query.now ≤ later) (size : Nat) :
    ((queries.foldl ask pacer).canSend later size).1 = (pacer.canSend later size).1 := by
  obtain ⟨settled, same⟩ := PacketBatch.settle_asked pacer queries before
  rw [canSend_eq, canSend_eq, settled, same]

/-- The duration that the pacer asks for is exact: whatever is queried in the meantime, the
packet can be sent once it has passed, and not before. -/
theorem PacketPacer.wait_exact (pacer : PacketPacer) (now size e : Nat) (queries : List PacerQuery)
    (before : ∀ query ∈ queries, query.now ≤ now + e) :
    ((queries.foldl ask (pacer.durationUntilCanSend now size).2).canSend (now + e) size).1 =
        decide ((pacer.durationUntilCanSend now size).1 ≤ e) ∧
      ((queries.foldl ask (pacer.durationUntilCanSend now size).2).trackSend (now + e) size).isSome =
        decide ((pacer.durationUntilCanSend now size).1 ≤ e) := by
  rw [trackSend_isSome, and_self, canSend_asked _ queries before, Bool.eq_iff_iff, decide_eq_true_iff]
  -- queries in between settle the batch, which the check at the end would do as well
  constructor
  · intro room
    exact Nat.le_of_add_le_add_left (canSend_before (Nat.le_add_right now e) room)
  · intro passed
    exact canSend_after pacer now size (now + e) (Nat.add_le_add_left passed now)

/-- A full batch that is sent after three milliseconds, queried at once and a millisecond
later: the packet can be sent after three more. -/
theorem PacketPacer.wait_exact_full :
    let pacer : PacketPacer := ⟨fun size => size * 800, ⟨0, 3000000⟩⟩
    let queries := [PacerQuery.canSend 0 125, .durationUntilCanSend 1000000 9000]
    (∀ query ∈ queries, query.now ≤ 0 + 3000000) ∧
      ((queries.foldl ask (pacer.durationUntilCanSend 0 125).2).canSend (0 + 3000000) 125).1 = true ∧
      ((queries.foldl ask (pacer.durationUntilCanSend 0 125).2).trackSend (0 + 3000000) 125).isSome =
        true := by
  have before : ∀ query ∈ [PacerQuery.canSend 0 125, .durationUntilCanSend 1000000 9000],
      query.now ≤ 0 + 3000000 := by decide
  exact ⟨before, wait_exact ⟨fun size => size * 800, ⟨0, 3000000⟩⟩ 0 125 3000000 _ before⟩

/-! The two readings of `process_link_queue` and `sleep_until_ready_to_send`. -/

/-- The batch has not been sent yet and has no room for a packet; some time later, it has
been sent. -/
structure PacketBatch.ClosesWithin (batch : PacketBatch) (now elapsed packetDelay : Nat) : Prop where
  unsent : now - batch.created < batch.delay
  full : batchMaxDelay ≤ batch.delay + packetDelay
  sent : batch.delay ≤ now + elapsed - batch.created

theorem PacketBatch.settle_full_iff (batch : PacketBatch) (now packetDelay : Nat) :
    (batch.settle now).hasRoom packetDelay = false ↔
      now - batch.created < batch.delay ∧ batchMaxDelay ≤ batch.delay + packetDelay := by
  unfold settle hasRoom
  split
  · next sent => simp [Nat.not_lt.mpr sent]
  · next unsent =>
      have some : batch.delay ≠ 0 := by omega
      simp [some, Nat.lt_of_not_le unsent]

namespace LinkState

/-- Where a reading finds no bandwidth, the assertion holds which another reading makes some
time later, before the link waits. -/
def AssertsWaiting (link : NetworkLink) (this : LinkState) (now elapsed size : Nat) : Prop :=
  ∀ waiting, hasBandwidthAvailable link this now size = some (false, waiting) →
    ∃ asserted, hasBandwidthAvailable link waiting (now + elapsed) size = some (false, asserted)

variable {link : NetworkLink} {this : LinkState} {now size : Nat}

theorem hasBandwidthAvailable_closed (closed : (!this.permit || this.isDown) = true) :
    hasBandwidthAvailable link this now size = some (false, this) := if_pos closed

theorem hasBandwidthAvailable_open (opened : ¬ (!this.permit || this.isDown) = true)
    (bandwidth : link.bandwidthBps ≠ 0) : hasBandwidthAvailable link this now size =
      some ((this.pacer.canSend now size).1, { this with pacer := (this.pacer.canSend now size).2 }) := by
  rw [hasBandwidthAvailable, if_neg opened, if_neg bandwidth]

/-- The second reading settles the batch as if it were the first one. -/
theorem hasBandwidthAvailable_again (opened : ¬ (!this.permit || this.isDown) = true)
    (bandwidth : link.bandwidthBps ≠ 0) (elapsed : Nat) :
    hasBandwidthAvailable link { this with pacer := (this.pacer.canSend now size).2 } (now + elapsed) size =
      some ((this.pacer.canSend (now + elapsed) size).1,
        { this with pacer := (this.pacer.canSend (now + elapsed) size).2 }) := by
  refine (@hasBandwidthAvailable_open link { this with pacer := (this.pacer.canSend now size).2 } _ size
    opened bandwidth).trans ?_
  simp only [PacketPacer.canSend_eq,
    this.pacer.batch.settle_settle_of_le (Nat.le_add_right now elapsed)]

/-- A link that is up, with its permit, at a full batch which will have been sent. -/
structure Overtaken (link : NetworkLink) (this : LinkState) (now elapsed size : Nat) : Prop where
  permit : this.permit = true
  up : this.isDown = false
  bandwidth : link.bandwidthBps ≠ 0
  closes : this.pacer.batch.ClosesWithin now elapsed (this.pacer.packetDelay size)

/-- It has no bandwidth at the first reading, and has it at the second one. -/
theorem Overtaken.readings {elapsed : Nat} (overtaken : Overtaken link this now elapsed size) :
    ∃ waiting asserted, hasBandwidthAvailable link this now size = some (false, waiting) ∧
      hasBandwidthAvailable link waiting (now + elapsed) size = some (true, asserted) := by
  have opened : ¬ (!this.permit || this.isDown) = true := by simp [overtaken.permit, overtaken.up]
  have first := @hasBandwidthAvailable_open link this now size opened overtaken.bandwidth
  have second := @hasBandwidthAvailable_again link this now size opened overtaken.bandwidth elapsed
  have full : (this.pacer.canSend now size).1 = false := by
    rw [PacketPacer.canSend_eq]
    exact (PacketBatch.settle_full_iff ..).mpr ⟨overtaken.closes.unsent, overtaken.closes.full⟩
  have room : (this.pacer.canSend (now + elapsed) size).1 = true := by
    by_contra none
    rw [Bool.not_eq_true, PacketPacer.canSend_eq, PacketBatch.settle_full_iff] at none
    exact absurd overtaken.closes.sent (Nat.not_le.mpr none.1)
  rw [full] at first
  rw [room] at second
  exact ⟨_, _, first, second⟩

/-- The assertion fails exactly for a link that is up and whose permit is there, if its batch
is full at the first reading and has been sent by the second one. -/
theorem assertsWaiting_iff (link : NetworkLink) (this : LinkState) (now elapsed size : Nat) :
    AssertsWaiting link this now elapsed size ↔ ¬ Overtaken link this now elapsed size := by
  constructor
  · intro asserts overtaken
    obtain ⟨waiting, asserted, first, second⟩ := overtaken.readings
    obtain ⟨_, again⟩ := asserts waiting first
    rw [second] at again
    cases again
  · intro stays waiting first
    by_cases closed : (!this.permit || this.isDown) = true
    · rw [hasBandwidthAvailable_closed closed] at first
      obtain ⟨-, rfl⟩ := Prod.mk.inj (Option.some.inj first)
      exact ⟨this, hasBandwidthAvailable_closed closed⟩
    by_cases bandwidth : link.bandwidthBps = 0
    · -- the first reading already panics
      rw [hasBandwidthAvailable, if_neg closed, if_pos bandwidth] at first
      cases first
    have opened : this.permit = true ∧ this.isDown = false := by simpa using closed
    rw [hasBandwidthAvailable_open closed bandwidth] at first
    obtain ⟨full, rfl⟩ := Prod.mk.inj (Option.some.inj first)
    refine ⟨_, (hasBandwidthAvailable_again closed bandwidth elapsed).trans
      (congrArg (fun room => some (room, _)) ?_)⟩
    -- a batch that is still unsent at the second reading has no more room than before
    rw [PacketPacer.canSend_eq, PacketBatch.settle_full_iff] at full ⊢
    refine ⟨?_, full.2⟩
    by_contra sent
    exact stays ⟨opened.1, opened.2, bandwidth, full.1, full.2, Nat.le_of_not_lt sent⟩

end LinkState

namespace State

/-- `takeOutgoing` under a clock that advances between its two readings. -/
def takeOutgoingTicking (net : InMemoryNetwork) (s : State) (l : LinkId) (elapsed : Nat) : Resumed :=
  match (s.links l).outgoingQueue.messages with
  | [] => .blocked
  | packet :: rest =>
    let s := s.modifyLink l fun link =>
      { link with outgoingQueue := { link.outgoingQueue with messages := rest } }
    match LinkState.hasBandwidthAvailable (net.links l) (s.links l) s.now packet.data.size with
    | none => .panics s
    | some (true, link) => (s.modifyLink l fun _ => link).yieldToPreferred l packet
    | some (false, link) =>
      { s.modifyLink l fun _ => link with now := s.now + elapsed }.sleepUntilReadyToSend net l packet

theorem takeOutgoingTicking_zero (net : InMemoryNetwork) (s : State) (l : LinkId) :
    s.takeOutgoingTicking net l 0 = s.takeOutgoing net l := rfl

/-- The task panics at a packet for which the link is overtaken. -/
theorem takeOutgoingTicking_panics {net : InMemoryNetwork} {s : State} {l : LinkId} {elapsed : Nat}
    {packet : OutgoingPacket} {rest : List OutgoingPacket}
    (queued : (s.links l).outgoingQueue.messages = packet :: rest)
    (overtaken : LinkState.Overtaken (net.links l) (s.links l) s.now elapsed packet.data.size) :
    ∃ t, s.takeOutgoingTicking net l elapsed = .panics t := by
  have popped : LinkState.Overtaken (net.links l) { s.links l with
      outgoingQueue := { (s.links l).outgoingQueue with messages := rest } } s.now elapsed
        packet.data.size :=
    ⟨overtaken.permit, overtaken.up, overtaken.bandwidth, overtaken.closes⟩
  obtain ⟨waiting, asserted, first, second⟩ := popped.readings
  have now : (s.modifyLink l fun link =>
      { link with outgoingQueue := { link.outgoingQueue with messages := rest } }).now = s.now := rfl
  unfold takeOutgoingTicking
  simp only [queued, modifyLink_self, now, first, sleepUntilReadyToSend, second]
  exact ⟨_, rfl⟩

/-- A host sends two packets, each of which takes its link 2.5 ms. -/
def twoSends : List Action :=
  [.sendUdp 0 greeting 0, .processBuffer 0 [], .pollLink 0, .sendUdp 0 greeting 0, .processBuffer 0 []]

/-- If 2.5 ms pass between the two readings for the next packet, the queue task panics. -/
theorem takeOutgoingTicking_late : ∃ net past s t,
    InMemoryNetwork.initialize .twoHosts id (fun _ _ => 2500000) = .ok net ∧
      Run (step net) (.initial net) past s ∧ s.takeOutgoingTicking net 0 2500000 = .panics t ∧
      ¬ LinkState.AssertsWaiting (net.links 0) (s.links 0) s.now 2500000 28 := by
  obtain ⟨net, accepted, runs⟩ : ∃ net,
      InMemoryNetwork.initialize .twoHosts id (fun _ _ => 2500000) = .ok net ∧
        (attains (step net) (.initial net) twoSends).any (fun s => decide <|
          s.now = 0 ∧ (s.links 0).permit = true ∧ (s.links 0).isDown = false ∧
          (net.links 0).bandwidthBps ≠ 0 ∧ (s.links 0).pacer.packetDelay 28 = 2500000 ∧
          (s.links 0).pacer.batch = ⟨0, 2500000⟩ ∧
          ((s.links 0).outgoingQueue.messages.map (·.data.size)).head? = some 28) = true :=
    ⟨_, rfl, by decide +kernel⟩
  obtain ⟨s, reached, holds⟩ := (Option.any_eq_true _ _).mp runs
  obtain ⟨now, permit, up, bandwidth, delay, batch, head⟩ := of_decide_eq_true holds
  have closes : PacketBatch.ClosesWithin ⟨0, 2500000⟩ 0 2500000 2500000 := by
    refine ⟨?_, ?_, ?_⟩ <;> decide
  have overtaken : LinkState.Overtaken (net.links 0) (s.links 0) s.now 2500000 28 :=
    ⟨permit, up, bandwidth, by rwa [delay, batch, now]⟩
  cases queued : (s.links 0).outgoingQueue.messages with
  | nil => simp [queued] at head
  | cons packet rest =>
      have size : packet.data.size = 28 := by simpa [queued] using head
      obtain ⟨t, panics⟩ := takeOutgoingTicking_panics queued (size ▸ overtaken)
      refine ⟨net, _, s, t, accepted, Run.of_moves reached, panics, fun asserts => ?_⟩
      obtain ⟨waiting, asserted, first, second⟩ := overtaken.readings
      obtain ⟨_, again⟩ := asserts waiting first
      rw [second] at again
      cases again

end State

end Workbench.Network
