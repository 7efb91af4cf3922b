import Mathlib.Data.List.Forall2
import Workbench.Network.Delivery
import Workbench.Network.Simulator

/-! A socket and the packets that its reads hand over: each read has as many slots as the
caller gives it, and the delivery future as many as the first caller gave it. -/

set_option autoImplicit false

namespace Workbench.Network

open Workbench.Library

structure RecvMeta where
  addr : SocketAddr
  ecn : Option EcnCodepoint
  dstIp : Option IpAddr
  len : Nat
  stride : Nat
  deriving DecidableEq, Repr

/-- A place for one packet: its meta, and the buffer at the same index. -/
structure Slot where
  recvMeta : RecvMeta
  buf : List UInt8
  deriving DecidableEq, Repr

/-- The slot after a packet is written to it; nothing where the packet is too long. -/
def Slot.write (this : Slot) (transmit : OwnedTransmit) : Option Slot :=
  if this.buf.length < transmit.contents.length then none
  else some
    { recvMeta :=
        { addr := transmit.source
          ecn := transmit.ecn
          dstIp := some transmit.destination.ip
          len := transmit.contents.length
          stride := transmit.segmentSize.getD transmit.contents.length }
      buf := transmit.contents ++ this.buf.drop transmit.contents.length }

/-- The slot has a packet, with what tells where it is from and how long it is. -/
structure Slot.Has (this : Slot) (transmit : OwnedTransmit) : Prop where
  addr : this.recvMeta.addr = transmit.source
  ecn : this.recvMeta.ecn = transmit.ecn
  dstIp : this.recvMeta.dstIp = some transmit.destination.ip
  contents : this.buf.take this.recvMeta.len = transmit.contents
  stride : this.recvMeta.stride = transmit.segmentSize.getD this.recvMeta.len

theorem Slot.write_has {this slot : Slot} {transmit : OwnedTransmit}
    (written : this.write transmit = some slot) : slot.Has transmit := by
  unfold write at written
  split at written
  · cases written
  · obtain rfl := Option.some.inj written
    exact ⟨rfl, rfl, rfl, List.take_left, rfl⟩

/-- What a read leaves: the slots written to, the packets recorded as read by the
application, and whether a packet did not fit its buffer. -/
structure Filled where
  slots : List Slot
  read : List InTransitData
  panicked : Bool
  deriving DecidableEq, Repr

/-- Goes through the packets delivered and the slots side by side, until either runs out. -/
def fillSlots : List DeliveredTransmit → List Slot → Filled
  | inTransit :: delivered, slot :: slots =>
    match slot.write inTransit.data.transmit with
    | none => ⟨[], [inTransit.data], true⟩
    | some slot =>
      let rest := fillSlots delivered slots
      ⟨slot :: rest.slots, inTransit.data :: rest.read, rest.panicked⟩
  | _, _ => ⟨[], [], false⟩

/-- A socket, with the queue of its endpoint. -/
structure Receiving where
  nextPacketDelivery : Option NextPacketDelivery
  inbound : InboundQueue
  now : Nat
  deriving DecidableEq, Repr

/-- What a read returns and leaves. -/
structure Received where
  outcome : Poll Nat
  popped : List DeliveredTransmit
  filled : Filled
  delivery : NextPacketDelivery
  inbound : InboundQueue
  deriving DecidableEq, Repr

namespace Receiving

/-- The future is created by the first read, with the number of slots of that read. -/
def delivery (this : Receiving) (slots : List Slot) : NextPacketDelivery :=
  this.nextPacketDelivery.getD (.new slots.length)

def pollRecv (this : Receiving) (slots : List Slot) (ties : List Nat) : Received :=
  match (this.delivery slots).poll this.inbound this.now ties 0 with
  | (.pending, delivery, inbound) => ⟨.pending, [], ⟨[], [], false⟩, delivery, inbound⟩
  | (.ready delivered, delivery, inbound) =>
    let deliveredLen := delivered.length
    ⟨.ready deliveredLen, delivered, fillSlots delivered slots, delivery, inbound⟩

/-- A read hands over what it takes: a slot for each packet, in turn, each packet recorded
once, and their number. -/
structure HandsOver (this : Receiving) (slots : List Slot) (ties : List Nat) : Prop where
  written : List.Forall₂ (fun slot (inTransit : DeliveredTransmit) => slot.Has inTransit.data.transmit)
    (this.pollRecv slots ties).filled.slots (this.pollRecv slots ties).popped
  read : (this.pollRecv slots ties).filled.read = (this.pollRecv slots ties).popped.map (·.data)
  count : ∀ count, (this.pollRecv slots ties).outcome = .ready count →
    count = (this.pollRecv slots ties).filled.slots.length

end Receiving

/-! Filling slots. -/

theorem fillSlots_length (delivered : List DeliveredTransmit) (slots : List Slot) :
    (fillSlots delivered slots).slots.length ≤ slots.length := by
  induction delivered generalizing slots with
  | nil => exact Nat.zero_le _
  | cons inTransit delivered ih =>
      cases slots with
      | nil => exact Nat.zero_le _
      | cons slot slots =>
          unfold fillSlots
          cases slot.write inTransit.data.transmit with
          | none => exact Nat.zero_le _
          | some slot => exact Nat.succ_le_succ (ih slots)

/-- With slots for all packets, and buffers that fit them, every packet gets one. -/
theorem fillSlots_fits {delivered : List DeliveredTransmit} {slots : List Slot}
    (fits : delivered.length ≤ slots.length)
    (roomy : ∀ inTransit ∈ delivered, ∀ slot ∈ slots,
      inTransit.data.transmit.contents.length ≤ slot.buf.length) :
    List.Forall₂ (fun slot (inTransit : DeliveredTransmit) => slot.Has inTransit.data.transmit)
        (fillSlots delivered slots).slots delivered ∧
      (fillSlots delivered slots).read = delivered.map (·.data) := by
  induction delivered generalizing slots with
  | nil => exact ⟨.nil, rfl⟩
  | cons inTransit delivered ih =>
      cases slots with
      | nil => exact absurd fits (Nat.not_succ_le_zero _)
      | cons slot slots =>
          have first := roomy inTransit List.mem_cons_self slot List.mem_cons_self
          obtain ⟨filled, read⟩ := ih (Nat.le_of_succ_le_succ fits) fun inTransit member slot inside =>
            roomy inTransit (List.mem_cons_of_mem _ member) slot (List.mem_cons_of_mem _ inside)
          unfold fillSlots
          cases written : slot.write inTransit.data.transmit with
          | none => simp [Slot.write, Nat.not_lt.mpr first] at written
          | some slot =>
              refine ⟨.cons (Slot.write_has written) filled, ?_⟩
              dsimp only
              rw [read, List.map_cons]

/-! How many packets a poll takes. -/

namespace NextPacketDelivery

/-- The packets of a queue that have arrived. -/
def due (queue : List PrioritizedInTransitData) (now : Nat) : Nat :=
  queue.countP (·.arrivalTime ≤ now)

/-- A loop that has stored a sleep beyond the time takes nothing more. -/
theorem pollLoop_stored {maxTransmits now rounds deadline : Nat} {ties : List Nat}
    {queue : List PrioritizedInTransitData} {delivered : List DeliveredTransmit} (early : now < deadline) :
    (pollLoop maxTransmits now rounds ties (some deadline) queue delivered).delivered = delivered := by
  cases rounds with
  | zero => rfl
  | succ rounds =>
      unfold pollLoop
      split
      · rfl
      split
      · rfl
      · simp [early]

theorem due_eq_zero {queue : List PrioritizedInTransitData} {now : Nat} {next : PrioritizedInTransitData}
    (first : InboundQueue.peek queue = some next) (later : now < next.arrivalTime) :
    due queue now = 0 := by
  refine List.countP_eq_zero.mpr fun p member => ?_
  have after := (InboundQueue.peek_mem first).2 p member
  simp only [decide_eq_true_eq, not_le]
  omega

theorem due_pop {tie now : Nat} {queue rest : List PrioritizedInTransitData}
    {p next : PrioritizedInTransitData} (first : InboundQueue.peek queue = some next)
    (arrived : next.arrivalTime ≤ now) (taken : InboundQueue.pop tie queue = some (p, rest)) :
    due queue now = due rest now + 1 := by
  have least := (InboundQueue.pop_least taken).2 next (InboundQueue.peek_mem first).1
  have here : p.arrivalTime ≤ now := by omega
  unfold due
  rw [(InboundQueue.pop_perm taken).countP_eq, List.countP_cons_of_pos (by simpa using here)]

/-- An elapsed loop takes every packet that is due, up to its limit. -/
theorem pollLoop_count {maxTransmits now rounds : Nat} {ties : List Nat} {sleep : Option Nat}
    {queue : List PrioritizedInTransitData} {delivered : List DeliveredTransmit}
    (elapsed : sleep.any (now < ·) = false) (goes : sleep = none ∨ delivered = [])
    (enough : due queue now < rounds) :
    (pollLoop maxTransmits now rounds ties sleep queue delivered).delivered.length =
      delivered.length + min (maxTransmits - delivered.length) (due queue now) := by
  induction rounds generalizing ties sleep queue delivered with
  | zero => exact absurd enough (Nat.not_lt_zero _)
  | succ rounds ih =>
      unfold pollLoop
      split
      · next full => simp [Nat.sub_eq_zero_of_le full]
      next more =>
      split
      · next stops => rcases goes with rfl | rfl <;> simp at stops
      rw [if_neg (by simp [elapsed])]
      split
      · next empty =>
          obtain rfl := InboundQueue.peek_eq_none.mp empty
          simp [due]
      next next first =>
      split
      · next later =>
          -- the first packet has not arrived, so none has, and the stored sleep ends the loop
          rw [pollLoop_stored later, due_eq_zero first later]
          simp
      next arrived =>
      split
      · next none =>
          have some := InboundQueue.pop_isSome (ties.headD 0)
            (List.ne_nil_of_mem (InboundQueue.peek_mem first).1)
          rw [none] at some
          cases some
      · next p rest taken =>
          have counted := due_pop first (Nat.le_of_not_lt arrived) taken
          rw [ih rfl (.inl rfl) (by omega), counted, List.length_append, List.length_singleton]
          omega

end NextPacketDelivery

namespace Receiving

open NextPacketDelivery

variable {this : Receiving} {slots : List Slot} {ties : List Nat}

/-- What the loop of a poll delivers is what the read goes through. -/
theorem pollRecv_popped (this : Receiving) (slots : List Slot) (ties : List Nat) :
    (this.pollRecv slots ties).popped = (pollLoop (this.delivery slots).maxTransmits this.now
      (this.inbound.queue.length + 2) ties (this.delivery slots).sleep this.inbound.queue []).delivered := by
  unfold pollRecv poll
  dsimp only
  split
  · next polled =>
      split at polled
      · next asleep => exact (pollLoop_asleep asleep).symm
      · split at polled
        · next none => exact none.symm
        · cases polled
  · next polled =>
      split at polled
      · cases polled
      · split at polled
        · cases polled
        · exact (Poll.ready.inj (Prod.mk.inj polled).1).symm

/-- The packets that a read takes leave the queue, and no others do. -/
theorem pollRecv_takes (this : Receiving) (slots : List Slot) (ties : List Nat) :
    (this.inbound.queue.map (·.delivered)).Perm
      ((this.pollRecv slots ties).popped ++ (this.pollRecv slots ties).inbound.queue.map (·.delivered)) := by
  unfold pollRecv
  split
  · next polled => rw [poll_pending polled, List.nil_append]
  · next polled => exact (poll_ready polled).1

/-- A read takes nothing in its sleep, and else what is due, up to the limit of the future. -/
theorem pollRecv_count (this : Receiving) (slots : List Slot) (ties : List Nat) :
    (this.pollRecv slots ties).popped.length =
      if (this.delivery slots).sleep.any (this.now < ·) then 0
      else min (this.delivery slots).maxTransmits (due this.inbound.queue this.now) := by
  rw [pollRecv_popped]
  split
  · next asleep =>
      obtain ⟨deadline, stored, early⟩ := (Option.any_eq_true _ _).mp asleep
      rw [stored, pollLoop_stored (of_decide_eq_true early), List.length_nil]
  · next awake =>
      have enough : due this.inbound.queue this.now < this.inbound.queue.length + 2 :=
        Nat.lt_of_le_of_lt List.countP_le_length (by omega)
      rw [pollLoop_count (Bool.eq_false_iff.mpr awake) (.inr rfl) enough]
      simp

/-- The buffers are large enough for the packets. -/
def Roomy (this : Receiving) (slots : List Slot) : Prop :=
  ∀ p ∈ this.inbound.queue, ∀ slot ∈ slots, p.data.transmit.contents.length ≤ slot.buf.length

/-- The future is asleep, or there are slots for all that it takes: what is due, up to the
limit it was created with. -/
def Fits (this : Receiving) (slots : List Slot) : Prop :=
  (this.delivery slots).sleep.any (this.now < ·) = true ∨
    min (this.delivery slots).maxTransmits (due this.inbound.queue this.now) ≤ slots.length

theorem fits_iff (ties : List Nat) :
    this.Fits slots ↔ (this.pollRecv slots ties).popped.length ≤ slots.length := by
  rw [pollRecv_count, Fits]
  split
  · next asleep => exact iff_of_true (.inl asleep) (Nat.zero_le _)
  · next awake => exact or_iff_right awake

theorem pollRecv_filled (this : Receiving) (slots : List Slot) (ties : List Nat) :
    (this.pollRecv slots ties).filled = fillSlots (this.pollRecv slots ties).popped slots ∧
      ∀ count, (this.pollRecv slots ties).outcome = .ready count →
        count = (this.pollRecv slots ties).popped.length := by
  unfold pollRecv
  split
  · exact ⟨rfl, fun count outcome => nomatch outcome⟩
  · exact ⟨rfl, fun count outcome => (Poll.ready.inj outcome).symm⟩

/-- A read hands over what it takes exactly if that fits the slots. -/
theorem handsOver_iff (roomy : this.Roomy slots) : this.HandsOver slots ties ↔ this.Fits slots := by
  obtain ⟨filled, counted⟩ := this.pollRecv_filled slots ties
  rw [fits_iff ties]
  constructor
  · intro hands
    -- a packet without a slot is missing from the written ones
    rw [← hands.written.length_eq, filled]
    exact fillSlots_length _ slots
  · intro fits
    have within : ∀ inTransit ∈ (this.pollRecv slots ties).popped, ∀ slot ∈ slots,
        inTransit.data.transmit.contents.length ≤ slot.buf.length := by
      intro inTransit member slot inside
      have taken := (this.pollRecv_takes slots ties).mem_iff.mpr (List.mem_append_left _ member)
      obtain ⟨p, queued, rfl⟩ := List.mem_map.mp taken
      exact roomy p queued slot inside
    obtain ⟨written, read⟩ := fillSlots_fits fits within
    rw [← filled] at written read
    exact ⟨written, read, fun count outcome => (counted count outcome).trans written.length_eq.symm⟩

/-! Runs of reads. -/

def start (now : Nat) : Receiving := ⟨none, .new, now⟩

/-- A read of the socket, or what happens outside of it: packets get to its endpoint, or
are taken by others, and time passes. -/
inductive Action where
  | pollRecv (slots : List Slot) (ties : List Nat)
  | outside (inbound : InboundQueue) (duration : Nat)
  deriving DecidableEq, Repr

def step (this : Receiving) : Action → Option Receiving
  | .pollRecv slots ties =>
    let received := this.pollRecv slots ties
    some { this with nextPacketDelivery := some received.delivery, inbound := received.inbound }
  | .outside inbound duration => some { this with inbound, now := this.now + duration }

/-- Something holds of all reads of a run. -/
def EachRead (Holds : Receiving → List Slot → List Nat → Prop) (run : List (Receiving × Action)) : Prop :=
  ∀ this slots ties, (this, .pollRecv slots ties) ∈ run → Holds this slots ties

/-- All reads of a run hand over what they take exactly if it fits the slots at each one. -/
theorem eachRead_handsOver_iff {now : Nat} {actions : List Action}
    (roomy : EachRead (fun this slots _ => this.Roomy slots) (moves step (start now) actions)) :
    EachRead HandsOver (moves step (start now) actions) ↔
      EachRead (fun this slots _ => this.Fits slots) (moves step (start now) actions) :=
  forall_congr' fun this => forall_congr' fun slots => forall_congr' fun ties =>
    forall_congr' fun member => handsOver_iff (roomy this slots ties member)

/-- A slot with an empty meta, and a buffer for one byte. -/
def emptySlot : Slot := ⟨⟨⟨.v4 0, 0⟩, none, none, 0, 0⟩, [0]⟩

/-- A read with two slots finds nothing; two packets get there, and the next read has a
single slot. -/
def shrinking : List Action :=
  [.pollRecv [emptySlot, emptySlot] [],
    .outside ⟨[⟨Reader.probe 0, 0, 0⟩, ⟨Reader.probe 1, 0, 0⟩], []⟩ 0, .pollRecv [emptySlot] []]

/-- The state at the second read. -/
def shrunk : Receiving := ⟨some ⟨none, 2⟩, ⟨[⟨Reader.probe 0, 0, 0⟩, ⟨Reader.probe 1, 0, 0⟩], []⟩, 0⟩

theorem shrinking_moves : moves step (start 0) shrinking =
    [(start 0, .pollRecv [emptySlot, emptySlot] []), (⟨some ⟨none, 2⟩, ⟨[], [0]⟩, 0⟩, .outside shrunk.inbound 0),
      (shrunk, .pollRecv [emptySlot] [])] := rfl

theorem eachRead_handsOver_shrinking :
    EachRead (fun this slots _ => this.Roomy slots) (moves step (start 0) shrinking) ∧
      (EachRead HandsOver (moves step (start 0) shrinking) ↔
        EachRead (fun this slots _ => this.Fits slots) (moves step (start 0) shrinking)) := by
  have roomy : EachRead (fun this slots _ => this.Roomy slots) (moves step (start 0) shrinking) := by
    intro this slots ties member
    rw [shrinking_moves] at member
    simp only [List.mem_cons, Prod.mk.injEq, reduceCtorEq, and_false, Action.pollRecv.injEq, false_or,
      List.not_mem_nil, or_false] at member
    obtain ⟨rfl, rfl, -⟩ | ⟨rfl, rfl, -⟩ := member
    · exact List.forall_mem_nil _
    · unfold Roomy
      decide
  exact ⟨roomy, eachRead_handsOver_iff roomy⟩

/-- The second read returns two and fills one slot: the other packet is lost. -/
theorem packet_lost : (shrunk, .pollRecv [emptySlot] []) ∈ moves step (start 0) shrinking ∧
    (shrunk.pollRecv [emptySlot] []).outcome = .ready 2 ∧
    (shrunk.pollRecv [emptySlot] []).filled.slots.length = 1 ∧
    (shrunk.pollRecv [emptySlot] []).filled.read = [Reader.probe 0] ∧
    (shrunk.pollRecv [emptySlot] []).inbound.queue = [] ∧
    ¬ EachRead HandsOver (moves step (start 0) shrinking) := by
  have member : (shrunk, .pollRecv [emptySlot] []) ∈ moves step (start 0) shrinking := by
    rw [shrinking_moves]
    simp
  refine ⟨member, by decide, by decide, by decide, by decide, fun each => ?_⟩
  have lengths := (each shrunk [emptySlot] [] member).written.length_eq
  revert lengths
  decide

end Receiving

namespace State

/-- Reading into slots of one buffer size is what the network does with a read. -/
theorem readAll_eq (n : NodeId) {bufferSize : Nat} (delivered : List DeliveredTransmit)
    {slots : List Slot} (sized : ∀ slot ∈ slots, slot.buf.length = bufferSize) (s : State) :
    readAll n bufferSize (delivered.take slots.length) s =
      { (fillSlots delivered slots).read.foldl (·.trackReadByApplication n ·) s with
        panicked := s.panicked || (fillSlots delivered slots).panicked } := by
  induction delivered generalizing slots s with
  | nil => simp [readAll, fillSlots]
  | cons inTransit delivered ih =>
      cases slots with
      | nil => simp [readAll, fillSlots]
      | cons slot slots =>
          obtain ⟨first, sized⟩ := List.forall_mem_cons.mp sized
          unfold fillSlots
          rw [List.length_cons, List.take_succ_cons, readAll]
          dsimp only
          by_cases long : bufferSize < inTransit.data.transmit.contents.length
          · have none : slot.write inTransit.data.transmit = none := if_pos (first ▸ long)
            rw [if_pos long, none]
            simp
          · rw [if_neg long, ih sized]
            simp only [Slot.write, first, if_neg long, List.foldl_cons]
            rfl

theorem pollRecv_receiving (s : State) (n : NodeId) (port : Port) {bufferSize : Nat} {slots : List Slot}
    (sized : ∀ slot ∈ slots, slot.buf.length = bufferSize) (ties : List Nat) :
    let received := Receiving.pollRecv ⟨s.sockets n port, (s.nodes n).udpEndpoints port, s.now⟩ slots ties
    let polled := { s.setEndpoint n port received.inbound with
      sockets := Function.update s.sockets n
        (Function.update (s.sockets n) port (some received.delivery)) }
    s.pollRecv n port slots.length bufferSize ties =
      { received.filled.read.foldl (·.trackReadByApplication n ·) polled with
        panicked := s.panicked || received.filled.panicked } := by
  unfold pollRecv Receiving.pollRecv Receiving.delivery
  dsimp only
  generalize ((s.sockets n port).getD (.new slots.length)).poll ((s.nodes n).udpEndpoints port) s.now
    ties 0 = polled
  obtain ⟨outcome, delivery, inbound⟩ := polled
  cases outcome with
  | pending => simp [setEndpoint, modifyNode]
  | ready delivered => exact readAll_eq n delivered sized _

end State

end Workbench.Network
