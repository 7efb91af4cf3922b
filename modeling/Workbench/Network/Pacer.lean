import Mathlib.Algebra.Order.Group.Nat
import Mathlib.Data.List.MinMax
import Workbench.Library.LeakyBucket
import Workbench.Library.Machine
import Workbench.Network.Packet

/-! The pacer of a link, and the bandwidth bound it enforces.

The bandwidth enters only through the delay of a packet, so a pacer carries
that delay as a function of the packet size. -/

set_option autoImplicit false

namespace Workbench.Network

open Workbench.Library

/-- `BATCH_MAX_DELAY`: two milliseconds. -/
def batchMaxDelay : Nat := 2000000

structure PacketBatch where
  created : Nat
  delay : Nat
  deriving DecidableEq, Repr

def PacketBatch.updateAndCheckHasRoom (batch : PacketBatch) (now : Nat)
    (packetDelay : Nat) : Bool × PacketBatch :=
  -- Reset the batch if it got sent already
  let batch := if batch.delay ≤ now - batch.created then ⟨now, 0⟩ else batch
  if batch.delay = 0 then
    -- An empty batch has room for one packet, whatever its delay
    (true, batch)
  else
    (batch.delay + packetDelay < batchMaxDelay, batch)

def PacketBatch.sentAt (batch : PacketBatch) : Nat := batch.created + batch.delay

structure PacketPacer where
  packetDelay : Nat → Nat
  batch : PacketBatch

def PacketPacer.new (now : Nat) (packetDelay : Nat → Nat) : PacketPacer :=
  ⟨packetDelay, ⟨now, 0⟩⟩

def PacketPacer.canSend (pacer : PacketPacer) (now : Nat) (packetSizeBytes : Nat) :
    Bool × PacketPacer :=
  let (room, batch) := pacer.batch.updateAndCheckHasRoom now (pacer.packetDelay packetSizeBytes)
  (room, { pacer with batch })

def PacketPacer.durationUntilCanSend (pacer : PacketPacer) (now : Nat)
    (packetSizeBytes : Nat) : Nat × PacketPacer :=
  let (room, batch) := pacer.batch.updateAndCheckHasRoom now (pacer.packetDelay packetSizeBytes)
  (if room then 0 else batch.sentAt - now, { pacer with batch })

/-- A send; `none` where the assertion that the packet can be sent panics. -/
def PacketPacer.trackSend (pacer : PacketPacer) (now : Nat) (packetSizeBytes : Nat) :
    Option PacketPacer :=
  let delay := pacer.packetDelay packetSizeBytes
  let (room, batch) := pacer.batch.updateAndCheckHasRoom now delay
  if room then
    let timeSinceCreated := now - batch.created
    some { pacer with batch := { batch with delay := max batch.delay timeSinceCreated + delay } }
  else none

/-! Every operation first settles the batch; a settled batch is empty or not yet sent. -/

def PacketBatch.settle (batch : PacketBatch) (now : Nat) : PacketBatch :=
  if batch.delay ≤ now - batch.created then ⟨now, 0⟩ else batch

def PacketBatch.hasRoom (batch : PacketBatch) (packetDelay : Nat) : Bool :=
  batch.delay = 0 ∨ batch.delay + packetDelay < batchMaxDelay

theorem PacketBatch.updateAndCheckHasRoom_eq (batch : PacketBatch) (now : Nat)
    (packetDelay : Nat) : batch.updateAndCheckHasRoom now packetDelay =
      ((batch.settle now).hasRoom packetDelay, batch.settle now) := by
  by_cases empty : (batch.settle now).delay = 0 <;>
    simp only [settle] at empty <;> simp [updateAndCheckHasRoom, settle, hasRoom, empty]

theorem PacketBatch.settle_settle (batch : PacketBatch) (now : Nat) :
    (batch.settle now).settle now = batch.settle now := by
  simp only [settle]
  split
  · simp
  · rfl

theorem PacketBatch.settle_unsent (batch : PacketBatch) (now : Nat) :
    (batch.settle now = ⟨now, 0⟩) ∨
      (batch.settle now = batch ∧ now - batch.created < batch.delay) := by
  simp only [settle]
  split
  · exact .inl rfl
  · next unsent => exact .inr ⟨rfl, Nat.lt_of_not_le unsent⟩

@[simp] theorem PacketPacer.canSend_eq (pacer : PacketPacer) (now : Nat) (size : Nat) :
    pacer.canSend now size = ((pacer.batch.settle now).hasRoom (pacer.packetDelay size),
      { pacer with batch := pacer.batch.settle now }) := by
  simp [canSend, PacketBatch.updateAndCheckHasRoom_eq]

@[simp] theorem PacketPacer.durationUntilCanSend_snd (pacer : PacketPacer) (now : Nat)
    (size : Nat) : (pacer.durationUntilCanSend now size).2 =
      { pacer with batch := pacer.batch.settle now } := by
  simp [durationUntilCanSend, PacketBatch.updateAndCheckHasRoom_eq]

theorem PacketPacer.trackSend_eq (pacer : PacketPacer) (now : Nat) (size : Nat) :
    pacer.trackSend now size =
      if (pacer.batch.settle now).hasRoom (pacer.packetDelay size) then
        some { pacer with batch := { pacer.batch.settle now with
          delay := max (pacer.batch.settle now).delay (now - (pacer.batch.settle now).created) +
            pacer.packetDelay size } }
      else none := by
  simp [trackSend, PacketBatch.updateAndCheckHasRoom_eq]

/-- A send is accepted exactly when `can_send` holds at the same time. -/
theorem PacketPacer.trackSend_isSome (pacer : PacketPacer) (now : Nat) (size : Nat) :
    (pacer.trackSend now size).isSome = (pacer.canSend now size).1 := by
  rw [trackSend_eq, canSend_eq]
  split <;> simp_all

/-- Room for a packet does not go away while nothing is sent. -/
theorem PacketPacer.canSend_mono {pacer : PacketPacer} {now later size : Nat}
    (room : (pacer.canSend now size).1 = true) (after : now ≤ later) :
    (pacer.canSend later size).1 = true := by
  rw [canSend_eq] at room ⊢
  rcases pacer.batch.settle_unsent later with reset | ⟨kept, unsent⟩
  · simp [reset, PacketBatch.hasRoom]
  · have same : pacer.batch.settle now = pacer.batch := by
      unfold PacketBatch.settle
      exact if_neg (by omega)
    rwa [kept, ← same]

/-- There is room once the duration that the pacer asks for has passed. -/
theorem PacketPacer.canSend_after (pacer : PacketPacer) (now size later : Nat)
    (after : now + (pacer.durationUntilCanSend now size).1 ≤ later) :
    ((pacer.durationUntilCanSend now size).2.canSend later size).1 = true := by
  rw [durationUntilCanSend_snd]
  simp only [durationUntilCanSend, PacketBatch.updateAndCheckHasRoom_eq] at after
  split at after
  · next room =>
      have settled : (PacketPacer.canSend { pacer with batch := pacer.batch.settle now }
          now size).1 = true := by
        simpa [canSend_eq, PacketBatch.settle_settle] using room
      exact canSend_mono settled (by omega)
  · next full =>
      rcases pacer.batch.settle_unsent now with reset | ⟨kept, unsent⟩
      · simp [reset, PacketBatch.hasRoom] at full
      · rw [kept, PacketBatch.sentAt] at after
        have sent : pacer.batch.delay ≤ later - pacer.batch.created := by omega
        have empty : pacer.batch.settle later = ⟨later, 0⟩ := if_pos sent
        simp [kept, empty, PacketBatch.hasRoom]

/-- There is no room before the duration that the pacer asks for has passed. -/
theorem PacketPacer.canSend_before {pacer : PacketPacer} {now size later : Nat} (after : now ≤ later)
    (room : ((pacer.durationUntilCanSend now size).2.canSend later size).1 = true) :
    now + (pacer.durationUntilCanSend now size).1 ≤ later := by
  rw [durationUntilCanSend_snd, canSend_eq] at room
  simp only [durationUntilCanSend, PacketBatch.updateAndCheckHasRoom_eq]
  split
  · exact after
  · next full =>
      have kept : pacer.batch.settle now = pacer.batch := by
        rcases pacer.batch.settle_unsent now with reset | ⟨kept, -⟩
        · simp [reset, PacketBatch.hasRoom] at full
        · exact kept
      rw [kept] at full room ⊢
      have sent : pacer.batch.delay ≤ later - pacer.batch.created := by
        rcases pacer.batch.settle_unsent later with reset | ⟨same, -⟩
        · by_contra unsent
          rw [PacketBatch.settle, if_neg unsent] at reset
          simp [reset, PacketBatch.hasRoom] at full
        · rw [same] at room
          exact absurd room full
      have some : pacer.batch.delay ≠ 0 := fun none => by simp [PacketBatch.hasRoom, none] at full
      rw [PacketBatch.sentAt]
      omega

/-- Settling a batch does not bring its end forward, and puts it off to the present at most. -/
theorem PacketBatch.settle_sentAt {batch : PacketBatch} {now : Nat} (created : batch.created ≤ now) :
    (batch.settle now).created ≤ now ∧ batch.sentAt ≤ (batch.settle now).sentAt ∧
      (batch.settle now).sentAt ≤ max batch.sentAt now := by
  simp only [sentAt, settle]
  split
  · exact ⟨le_rfl, by simp only [Nat.add_zero]; omega, by simp⟩
  · exact ⟨created, le_rfl, le_max_left _ _⟩

/-- A send puts the end of the batch off by the delay of its packet, and leaves it within the
longest delay of a batch or within that packet's own. -/
theorem PacketPacer.trackSend_sentAt {pacer pacer' : PacketPacer} {now size : Nat}
    (created : pacer.batch.created ≤ now) (sent : pacer.trackSend now size = some pacer') :
    pacer'.packetDelay = pacer.packetDelay ∧ pacer'.batch.created ≤ now ∧
      pacer'.batch.sentAt = max pacer.batch.sentAt now + pacer.packetDelay size ∧
      pacer'.batch.sentAt ≤ now + max batchMaxDelay (pacer.packetDelay size) := by
  obtain ⟨settled, low, high⟩ := PacketBatch.settle_sentAt created
  have unsent := pacer.batch.settle_unsent now
  rw [trackSend_eq] at sent
  split at sent
  case isFalse => cases sent
  case isTrue room =>
    obtain rfl := Option.some.inj sent
    simp only [PacketBatch.hasRoom, decide_eq_true_eq] at room
    simp only [PacketBatch.sentAt] at low high ⊢
    refine ⟨trivial, settled, ?_, ?_⟩
    · omega
    · rcases unsent with reset | ⟨kept, unsent⟩
      · simp only [reset]
        omega
      · rw [kept] at room ⊢
        omega

/-! Histories of one pacer, and its bandwidth bound. -/

inductive PacerUse where
  | canSend (now : Nat) (packetSizeBytes : Nat)
  | durationUntilCanSend (now : Nat) (packetSizeBytes : Nat)
  | trackSend (now : Nat) (packetSizeBytes : Nat)
  deriving DecidableEq, Repr

namespace PacerUse

def now : PacerUse → Nat
  | .canSend now _ => now
  | .durationUntilCanSend now _ => now
  | .trackSend now _ => now

/-- A use that only asks. -/
def query : PacerUse → Bool
  | .canSend _ _ | .durationUntilCanSend _ _ => true
  | .trackSend _ _ => false

end PacerUse

/-- A pacer in use, with the time of its last use and the packets sent through it so far:
their send times and sizes. -/
structure PacerHistory where
  pacer : PacketPacer
  lastUse : Nat
  sent : List (Nat × Nat)

namespace PacerHistory

def start (now : Nat) (packetDelay : Nat → Nat) : PacerHistory := ⟨.new now packetDelay, now, []⟩

/-- One use, at a time not before the last one. There is none where `track_send` panics, and
that is where `can_send` is not true at the same time. -/
def use (history : PacerHistory) (action : PacerUse) : Option PacerHistory :=
  if action.now < history.lastUse then none
  else match action with
    | .canSend now size =>
        some { history with pacer := (history.pacer.canSend now size).2, lastUse := now }
    | .durationUntilCanSend now size =>
        some { history with
          pacer := (history.pacer.durationUntilCanSend now size).2, lastUse := now }
    | .trackSend now size =>
        (history.pacer.trackSend now size).map fun pacer =>
          { pacer, lastUse := now, sent := history.sent ++ [(now, size)] }

variable {history history' : PacerHistory}

/-- A query settles the batch, and does nothing else. -/
theorem use_query {action : PacerUse} (asks : action.query = true)
    (used : history.use action = some history') :
    history.lastUse ≤ action.now ∧ history' = { history with
      pacer := { history.pacer with batch := history.pacer.batch.settle action.now }
      lastUse := action.now } := by
  unfold use at used
  split at used
  · cases used
  next later =>
  refine ⟨Nat.le_of_not_lt later, ?_⟩
  cases action with
  | canSend now size =>
      simp only [PacketPacer.canSend_eq, Option.some.injEq] at used
      exact used.symm
  | durationUntilCanSend now size =>
      simp only [PacketPacer.durationUntilCanSend_snd, Option.some.injEq] at used
      exact used.symm
  | trackSend now size => cases asks

theorem use_trackSend {now size : Nat} (used : history.use (.trackSend now size) = some history') :
    history.lastUse ≤ now ∧ ∃ pacer, history.pacer.trackSend now size = some pacer ∧
      history' = { pacer, lastUse := now, sent := history.sent ++ [(now, size)] } := by
  unfold use at used
  split at used
  · cases used
  next later =>
  obtain ⟨pacer, sent, rfl⟩ := Option.map_eq_some_iff.mp used
  exact ⟨Nat.le_of_not_lt later, pacer, sent, rfl⟩

/-- Once `can_send` was true for a packet, the packet can be sent at the same time, whatever is
asked in between. -/
theorem use_trackSend_of_granted {now size : Nat} {queries : List PacerUse}
    (granted : (history.pacer.canSend now size).1 = true) (later : history.lastUse ≤ now)
    (asked : ∀ action ∈ queries, action.query = true ∧ action.now = now)
    (reached : attains use history queries = some history') :
    (history'.use (.trackSend now size)).isSome = true := by
  induction queries generalizing history with
  | nil =>
      obtain rfl := Option.some.inj reached
      have order : ¬ (PacerUse.trackSend now size).now < history.lastUse := Nat.not_lt_of_le later
      rw [use, if_neg order, Option.isSome_map, PacketPacer.trackSend_isSome, granted]
  | cons action queries ih =>
      obtain ⟨⟨asks, same⟩, others⟩ := List.forall_mem_cons.mp asked
      obtain ⟨next, used, reached⟩ := Option.bind_eq_some_iff.mp reached
      obtain ⟨-, rfl⟩ := use_query asks used
      refine ih ?_ same.le others reached
      rw [same]
      simpa [PacketBatch.settle_settle] using granted

/-- The sends of a history as arrivals at a leaky bucket: each costs its delay. -/
def arrivals (history : PacerHistory) : List (Nat × Nat) :=
  history.sent.map fun packet => (packet.1, history.pacer.packetDelay packet.2)

def largestDelay (history : PacerHistory) : Nat :=
  (history.sent.map fun packet => history.pacer.packetDelay packet.2).foldr max 0

/-- The batch ends at the bucket's horizon, or at the last reset after it. -/
structure Paced (start : Nat) (history : PacerHistory) : Prop where
  created_le : history.pacer.batch.created ≤ history.lastUse
  horizon_le : horizon start history.arrivals ≤ history.pacer.batch.sentAt
  sentAt_le : history.pacer.batch.sentAt ≤ max (horizon start history.arrivals) history.lastUse
  bounded : ∀ earlier a later, history.arrivals = earlier ++ a :: later →
    horizon start (earlier ++ [a]) ≤ a.1 + max batchMaxDelay a.2

theorem Paced.query {start : Nat} {action : PacerUse} (paced : history.Paced start)
    (asks : action.query = true) (used : history.use action = some history') :
    history'.Paced start := by
  obtain ⟨later, rfl⟩ := use_query asks used
  obtain ⟨created, low, high⟩ := PacketBatch.settle_sentAt (paced.created_le.trans later)
  refine ⟨created, paced.horizon_le.trans low, high.trans ?_, paced.bounded⟩
  exact max_le (paced.sentAt_le.trans (max_le_max_left _ later)) (le_max_right _ _)

theorem Paced.send {start now size : Nat} (paced : history.Paced start)
    (used : history.use (.trackSend now size) = some history') : history'.Paced start := by
  obtain ⟨later, pacer, sent, rfl⟩ := use_trackSend used
  obtain ⟨delays, created, ends, fits⟩ :=
    PacketPacer.trackSend_sentAt (paced.created_le.trans later) sent
  have arrivals : PacerHistory.arrivals ⟨pacer, now, history.sent ++ [(now, size)]⟩ =
      history.arrivals ++ [(now, history.pacer.packetDelay size)] := by
    simp [PacerHistory.arrivals, delays]
  -- The send ends the batch exactly where the bucket's horizon moves to.
  have moved : pacer.batch.sentAt =
      finish (horizon start history.arrivals) (now, history.pacer.packetDelay size) := by
    have low := paced.horizon_le
    have high := paced.sentAt_le
    simp only [ends, finish]
    omega
  refine ⟨created, ?_, ?_, ?_⟩
  · rw [arrivals, horizon_concat, moved]
  · rw [arrivals, horizon_concat, moved]
    exact le_max_left _ _
  · rw [arrivals]
    intro earlier a later' split
    rcases split_concat split with ⟨rfl, rfl⟩ | ⟨rest, inside⟩
    · simpa [← moved] using fits
    · exact paced.bounded earlier a rest inside

theorem Paced.use {start : Nat} {action : PacerUse} (paced : history.Paced start)
    (used : history.use action = some history') : history'.Paced start := by
  cases action with
  | canSend now size => exact paced.query rfl used
  | durationUntilCanSend now size => exact paced.query rfl used
  | trackSend now size => exact paced.send used

theorem Paced.start (now : Nat) (packetDelay : Nat → Nat) :
    (PacerHistory.start now packetDelay).Paced now := by
  refine ⟨le_rfl, by simp [arrivals, PacerHistory.start, PacketPacer.new, PacketBatch.sentAt],
    by simp [arrivals, PacerHistory.start, PacketPacer.new, PacketBatch.sentAt], ?_⟩
  intro earlier a later split
  simp [arrivals, PacerHistory.start] at split

theorem delay_le_largest (history : PacerHistory) {a : Nat × Nat} (member : a ∈ history.arrivals) :
    a.2 ≤ history.largestDelay := by
  obtain ⟨packet, inside, same⟩ := List.mem_map.mp member
  subst same
  exact List.le_max_of_le' 0 (List.mem_map_of_mem inside) le_rfl

/-- The sends of a paced history fit a bucket whose burst is one batch or one packet. -/
theorem Paced.toBounded {start : Nat} (paced : history.Paced start) :
    Bounded start (max batchMaxDelay history.largestDelay) history.arrivals := by
  intro earlier a later split
  have fits := paced.bounded earlier a later split
  have small := history.delay_le_largest (split ▸ by simp : a ∈ history.arrivals)
  omega

/-- The total delay of the packets sent in a closed window. -/
def delayInWindow (history : PacerHistory) (first last : Nat) : Nat :=
  windowCost first last history.arrivals

/-- Whatever is queried in between, the packets that a pacer lets through in a
window take the window's time and a burst. -/
theorem delayInWindow_le {now : Nat} {packetDelay : Nat → Nat}
    {past : List (PacerHistory × PacerUse)}
    (run : Run PacerHistory.use (.start now packetDelay) past history)
    (first : Nat) (length : Nat) :
    history.delayInWindow first (first + length) ≤
      length + 2 * max batchMaxDelay history.largestDelay := by
  have paced := run.invariant (Paced now) (.start now packetDelay) fun _ _ _ paced used => paced.use used
  have bound := paced.toBounded.windowCost_le first length
  simp only [delayInWindow]
  omega

/-- Two packets are granted and the first of them sent, then the second with one more. After that
batch is sent, a query resets it, and a packet that fills no batch follows. -/
def twoBatches : List PacerUse :=
  [.canSend 5 125, .canSend 5 250, .trackSend 5 125, .durationUntilCanSend 5 9000, .canSend 5 250,
    .trackSend 5 250, .canSend 9 2000, .durationUntilCanSend 400000 2000, .canSend 400000 9000,
    .trackSend 400000 9000, .canSend 500000 125]

theorem delayInWindow_le_twoBatches :
    ∃ past history, Run PacerHistory.use (.start 0 fun size => size * 800) past history ∧
      history.sent = [(5, 125), (5, 250), (400000, 9000)] ∧
      history.delayInWindow 5 (5 + 1000000) = 7500000 ∧
      history.delayInWindow 5 (5 + 1000000) ≤ 1000000 + 2 * max batchMaxDelay history.largestDelay := by
  obtain ⟨history, reached, holds⟩ := (Option.any_eq_true _ _).mp <|
    show (attains PacerHistory.use (.start 0 fun size => size * 800) twoBatches).any (fun history => decide <|
      history.sent = [(5, 125), (5, 250), (400000, 9000)] ∧
        history.delayInWindow 5 (5 + 1000000) = 7500000) = true by decide +kernel
  obtain ⟨sent, total⟩ := of_decide_eq_true holds
  have run := Run.of_moves reached
  exact ⟨_, history, run, sent, total, delayInWindow_le run 5 1000000⟩

/-! What a pacer has the link do: one packet after the other. -/

/-- A packet that a pacer let through, with the time that it has the link take for it. -/
structure Slot where
  sent : Nat
  size : Nat
  start : Nat
  length : Nat
  deriving DecidableEq, Repr

def Slot.finish (slot : Slot) : Nat := slot.start + slot.length

/-- The slot as a start and a length. -/
def Slot.time (slot : Slot) : Nat × Nat := (slot.start, slot.length)

/-- The slot of a packet starts where the batch before it ends, or when it is sent. -/
def slot? (history : PacerHistory) : PacerUse → Option Slot
  | .trackSend now size => some {
      sent := now
      size
      start := max history.pacer.batch.sentAt now
      length := history.pacer.packetDelay size }
  | _ => none

/-- The slots of the packets that were sent in a run, in order. -/
def slots (past : List (PacerHistory × PacerUse)) : List Slot :=
  past.reverse.filterMap fun move => move.1.slot? move.2

theorem slots_cons (history : PacerHistory) (action : PacerUse) (past : List (PacerHistory × PacerUse)) :
    slots ((history, action) :: past) = slots past ++ (history.slot? action).toList := by
  rw [slots, List.reverse_cons, List.filterMap_append]
  congr 1

/-- A slot starts when its packet is sent or after it, and ends within the longest delay of a
batch or within the packet's own. -/
structure Slot.Prompt (packetDelay : Nat → Nat) (slot : Slot) : Prop where
  sent_le : slot.sent ≤ slot.start
  finish_le : slot.finish ≤ slot.sent + max batchMaxDelay slot.length
  length : slot.length = packetDelay slot.size

/-- The slots of the packets sent so far are taken in turn, up to the end of the batch. -/
structure Slotted (packetDelay : Nat → Nat) (slots : List Slot) (history : PacerHistory) : Prop where
  delays : history.pacer.packetDelay = packetDelay
  created_le : history.pacer.batch.created ≤ history.lastUse
  sent : history.sent = slots.map fun slot => (slot.sent, slot.size)
  sorted : slots.Pairwise fun slot next => slot.sent ≤ next.sent
  sent_le : ∀ slot ∈ slots, slot.sent ≤ history.lastUse
  inTurn : InTurn (slots.map Slot.time)
  finish_le : ∀ slot ∈ slots, slot.finish ≤ history.pacer.batch.sentAt
  prompt : ∀ slot ∈ slots, slot.Prompt packetDelay

section Slots

variable {packetDelay : Nat → Nat} {taken : List Slot}

theorem Slotted.query {action : PacerUse} (slotted : Slotted packetDelay taken history)
    (asks : action.query = true) (used : history.use action = some history') :
    Slotted packetDelay taken history' := by
  obtain ⟨later, rfl⟩ := use_query asks used
  obtain ⟨created, low, -⟩ := PacketBatch.settle_sentAt (slotted.created_le.trans later)
  exact { slotted with
    created_le := created
    sent_le := fun slot member => (slotted.sent_le slot member).trans later
    finish_le := fun slot member => (slotted.finish_le slot member).trans low }

theorem Slotted.send {now size : Nat} {slot : Slot} (slotted : Slotted packetDelay taken history)
    (taking : history.slot? (.trackSend now size) = some slot)
    (used : history.use (.trackSend now size) = some history') :
    Slotted packetDelay (taken ++ [slot]) history' := by
  obtain ⟨later, pacer, sent, rfl⟩ := use_trackSend used
  obtain ⟨delays, created, ends, fits⟩ :=
    PacketPacer.trackSend_sentAt (slotted.created_le.trans later) sent
  obtain rfl := Option.some.inj taking
  have before (earlier : Slot) (member : earlier ∈ taken) :
      earlier.finish ≤ max history.pacer.batch.sentAt now :=
    (slotted.finish_le earlier member).trans (le_max_left _ _)
  refine ⟨delays.trans slotted.delays, created, by simp [slotted.sent], ?_, ?_, ?_, ?_, ?_⟩
  · rw [List.pairwise_append]
    refine ⟨slotted.sorted, List.pairwise_singleton _ _, fun earlier member next last => ?_⟩
    obtain rfl := List.mem_singleton.mp last
    exact (slotted.sent_le earlier member).trans later
  · intro earlier member
    rcases List.mem_append.mp member with old | last
    · exact (slotted.sent_le earlier old).trans later
    · obtain rfl := List.mem_singleton.mp last
      exact le_rfl
  · rw [InTurn, List.pairwise_map, List.pairwise_append]
    refine ⟨List.pairwise_map.mp slotted.inTurn, List.pairwise_singleton _ _, fun earlier member next last => ?_⟩
    obtain rfl := List.mem_singleton.mp last
    exact before earlier member
  · intro earlier member
    rcases List.mem_append.mp member with old | last
    · exact (before earlier old).trans (by rw [ends]; exact Nat.le_add_right _ _)
    · obtain rfl := List.mem_singleton.mp last
      exact ends.ge
  · intro earlier member
    rcases List.mem_append.mp member with old | last
    · exact slotted.prompt earlier old
    · obtain rfl := List.mem_singleton.mp last
      exact ⟨le_max_right _ _, by rw [Slot.finish, ← ends]; exact fits, by rw [slotted.delays]⟩

theorem slotted_of_run {now : Nat} {past : List (PacerHistory × PacerUse)}
    (run : Run PacerHistory.use (.start now packetDelay) past history) :
    Slotted packetDelay (slots past) history := by
  induction run with
  | start =>
      exact ⟨rfl, le_rfl, rfl, .nil, List.forall_mem_nil _, .nil, List.forall_mem_nil _,
        List.forall_mem_nil _⟩
  | @next past history history' action run used ih =>
      rw [slots_cons]
      cases action with
      | canSend now size => simpa [slot?] using ih.query rfl used
      | durationUntilCanSend now size => simpa [slot?] using ih.query rfl used
      | trackSend now size => exact ih.send rfl used

end Slots

end PacerHistory

end Workbench.Network
