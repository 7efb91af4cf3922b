import Workbench.Library.Machine
import Workbench.Network.InboundQueue

/-! One reader of an inbound queue, polling one delivery future.

The reader is polled when it is scheduled: at first, after a poll that returned
packets, and when a waker it left is woken. Otherwise only the timer of its
stored sleep will poll it. -/

set_option autoImplicit false

namespace Workbench.Network

open Workbench.Library

structure Reader where
  delivery : NextPacketDelivery
  queue : InboundQueue
  now : Nat
  scheduled : Bool
  lastPoll : Nat

namespace Reader

def start (maxTransmits now : Nat) : Reader :=
  ⟨.new maxTransmits, .new, now, true, now⟩

inductive Action where
  | send (data : InTransitData) (delay : Nat)
  | poll (ties : List Nat)
  | advance (duration : Nat)
  deriving DecidableEq, Repr

def step (reader : Reader) : Action → Option Reader
  | .send data delay =>
      let (queue, woken) := reader.queue.send reader.now data delay
      some { reader with queue, scheduled := reader.scheduled || !woken.isEmpty }
  | .poll ties =>
      match reader.delivery.poll reader.queue reader.now ties 0 with
      | (.pending, delivery, queue) =>
          some { reader with delivery, queue, scheduled := false, lastPoll := reader.now }
      | (.ready _, delivery, queue) =>
          some { reader with delivery, queue, scheduled := true, lastPoll := reader.now }
  | .advance duration => some { reader with now := reader.now + duration }

/-- The future is polled again no later than at the first arrival: by the timer
of its stored sleep, or by a waker that the next send wakes. -/
def Armed (reader : Reader) : Prop :=
  match reader.delivery.sleep with
  | some deadline => ∀ p ∈ reader.queue.queue, deadline ≤ p.arrivalTime
  | none => reader.queue.queue = [] ∧ reader.queue.notifyNewTransmits ≠ []

/-- A reader whose last poll returned pending left no packet that had arrived by
then, and is armed. -/
def OnTime (reader : Reader) : Prop :=
  reader.scheduled = false →
    (∀ p ∈ reader.queue.queue, reader.lastPoll < p.arrivalTime) ∧ reader.Armed

/-- A packet undercuts the stored sleep: it is sent to a reader that sleeps beyond
its arrival, or lies in the queue of one that is polled in its sleep. -/
def Undercut (reader : Reader) : Action → Prop
  | .send _ delay => reader.scheduled = false ∧
      ∃ deadline, reader.delivery.sleep = some deadline ∧ reader.now + delay < deadline
  | .poll _ => ∃ deadline, reader.delivery.sleep = some deadline ∧ reader.now < deadline ∧
      ∃ p ∈ reader.queue.queue, p.arrivalTime < deadline
  | .advance _ => False

/-- Time passes a reader by only while nothing is due to poll it. -/
def Timely (reader : Reader) : Action → Prop
  | .advance duration => reader.scheduled = false ∧
      ∀ deadline, reader.delivery.sleep = some deadline → reader.now + duration ≤ deadline
  | _ => True

instance (reader : Reader) : DecidablePred reader.Undercut
  | .send _ delay => inferInstanceAs (Decidable (reader.scheduled = false ∧
      ∃ deadline ∈ reader.delivery.sleep, reader.now + delay < deadline))
  | .poll _ => inferInstanceAs (Decidable (∃ deadline ∈ reader.delivery.sleep, reader.now < deadline ∧
      ∃ p ∈ reader.queue.queue, p.arrivalTime < deadline))
  | .advance _ => inferInstanceAs (Decidable False)

instance (reader : Reader) : DecidablePred reader.Timely
  | .advance duration => inferInstanceAs (Decidable (reader.scheduled = false ∧
      ∀ deadline ∈ reader.delivery.sleep, reader.now + duration ≤ deadline))
  | .send _ _ | .poll _ => inferInstanceAs (Decidable True)

/-- What every history keeps: a waker is only left with an empty queue and no
sleep, and a waiting reader sleeps beyond its last poll. -/
structure Coherent (reader : Reader) : Prop where
  positive : 0 < reader.delivery.maxTransmits
  lastPoll_le : reader.lastPoll ≤ reader.now
  notified : reader.queue.notifyNewTransmits ≠ [] →
    reader.delivery.sleep = none ∧ reader.queue.queue = []
  waiting : reader.scheduled = false → ∀ deadline, reader.delivery.sleep = some deadline →
    reader.lastPoll < deadline

theorem Coherent.start {maxTransmits : Nat} (positive : 0 < maxTransmits) (now : Nat) :
    (Reader.start maxTransmits now).Coherent :=
  ⟨positive, Nat.le_refl _, by simp [Reader.start, InboundQueue.new], by simp [Reader.start]⟩

/-- The cases of a poll, as steps of the reader. -/
inductive Polled (reader : Reader) : Reader → Prop where
  | asleep (deadline : Nat) (stored : reader.delivery.sleep = some deadline)
      (early : reader.now < deadline) :
      Polled reader { reader with scheduled := false, lastPoll := reader.now }
  | empty (elapsed : reader.delivery.Elapsed reader.now) (none : reader.queue.queue = []) :
      Polled reader { reader with
        delivery := { reader.delivery with sleep := Option.none }
        queue := { reader.queue with
          notifyNewTransmits := reader.queue.notifyNewTransmits ++ [0] }
        scheduled := false, lastPoll := reader.now }
  | early (elapsed : reader.delivery.Elapsed reader.now) (next : PrioritizedInTransitData)
      (first : InboundQueue.peek reader.queue.queue = some next)
      (later : reader.now < next.arrivalTime) :
      Polled reader { reader with
        delivery := { reader.delivery with sleep := some next.arrivalTime }
        scheduled := false, lastPoll := reader.now }
  | due (elapsed : reader.delivery.Elapsed reader.now) (some : reader.queue.queue ≠ [])
      (delivery : NextPacketDelivery) (queue : InboundQueue)
      (subset : queue.queue ⊆ reader.queue.queue)
      (wakers : queue.notifyNewTransmits = reader.queue.notifyNewTransmits)
      (max : delivery.maxTransmits = reader.delivery.maxTransmits) :
      Polled reader { reader with delivery, queue, scheduled := true, lastPoll := reader.now }

theorem step_poll {reader reader' : Reader} {ties : List Nat}
    (positive : 0 < reader.delivery.maxTransmits)
    (taken : reader.step (.poll ties) = some reader') : Polled reader reader' := by
  simp only [step] at taken
  by_cases stored : ∃ deadline, reader.delivery.sleep = some deadline ∧ reader.now < deadline
  · obtain ⟨deadline, stored, early⟩ := stored
    rw [NextPacketDelivery.poll_asleep positive stored early] at taken
    exact Option.some.inj taken ▸ .asleep deadline stored early
  have elapsed : reader.delivery.Elapsed reader.now := fun deadline sleeping =>
    Nat.le_of_not_lt fun early => stored ⟨deadline, sleeping, early⟩
  cases first : InboundQueue.peek reader.queue.queue with
  | none =>
      have none := InboundQueue.peek_eq_none.mp first
      rw [NextPacketDelivery.poll_empty positive elapsed none] at taken
      exact Option.some.inj taken ▸ .empty elapsed none
  | some next =>
      by_cases later : reader.now < next.arrivalTime
      · rw [NextPacketDelivery.poll_early positive elapsed first later] at taken
        exact Option.some.inj taken ▸ .early elapsed next first later
      · have some : reader.queue.queue ≠ [] :=
          List.ne_nil_of_mem (InboundQueue.peek_mem first).1
        obtain ⟨delivered, ready⟩ := NextPacketDelivery.poll_due ties 0
          positive elapsed first (Nat.le_of_not_lt later)
        have subset := reader.delivery.poll_subset reader.queue reader.now ties 0
        have max := reader.delivery.poll_maxTransmits reader.queue reader.now ties 0
        generalize polled : reader.delivery.poll reader.queue reader.now ties 0 = result at *
        obtain ⟨outcome, delivery, queue⟩ := result
        obtain rfl : outcome = .ready delivered := ready
        exact Option.some.inj taken ▸
          .due elapsed some delivery queue subset (NextPacketDelivery.poll_ready_wakers polled) max

theorem Coherent.step {reader reader' : Reader} {action : Action} (coherent : reader.Coherent)
    (taken : reader.step action = some reader') : reader'.Coherent := by
  cases action with
  | send data delay =>
      simp only [Reader.step, InboundQueue.send, Option.some.injEq] at taken
      subst taken
      refine ⟨coherent.positive, coherent.lastPoll_le, by simp, fun waiting => ?_⟩
      simp only [Bool.or_eq_false_iff] at waiting
      exact coherent.waiting waiting.1
  | poll ties =>
      cases step_poll coherent.positive taken with
      | asleep deadline stored early =>
          refine ⟨coherent.positive, Nat.le_refl _, coherent.notified, fun _ other sleeping => ?_⟩
          rw [stored] at sleeping
          exact Option.some.inj sleeping ▸ early
      | empty elapsed none =>
          exact ⟨coherent.positive, Nat.le_refl _, fun _ => ⟨rfl, none⟩, by simp⟩
      | early elapsed next first later =>
          refine ⟨coherent.positive, Nat.le_refl _, fun some => ?_, by simpa using later⟩
          have none := (coherent.notified some).2
          exact absurd (InboundQueue.peek_mem first).1 (by simp [none])
      | due elapsed some delivery queue subset wakers max =>
          refine ⟨max ▸ coherent.positive, Nat.le_refl _, fun left => ?_, by simp⟩
          rw [wakers] at left
          exact absurd (coherent.notified left).2 some
  | advance duration =>
      simp only [Reader.step, Option.some.injEq] at taken
      subst taken
      exact ⟨coherent.positive, Nat.le_add_right_of_le coherent.lastPoll_le, coherent.notified,
        coherent.waiting⟩

/-- A waiting reader that is armed is on time. -/
theorem Coherent.onTime_of_armed {reader : Reader} (coherent : reader.Coherent)
    (armed : reader.scheduled = false → reader.Armed) : reader.OnTime := by
  intro waiting
  refine ⟨fun p member => ?_, armed waiting⟩
  have armed := armed waiting
  simp only [Armed] at armed
  cases sleeping : reader.delivery.sleep with
  | none =>
      rw [sleeping] at armed
      exact absurd member (by simp [armed.1])
  | some deadline =>
      rw [sleeping] at armed
      exact Nat.lt_of_lt_of_le (coherent.waiting waiting deadline sleeping) (armed p member)

/-- From an on-time state, a step stays on time exactly when no packet undercuts the sleep. -/
theorem OnTime.step_iff {reader reader' : Reader} {action : Action} (coherent : reader.Coherent)
    (onTime : reader.OnTime) (taken : reader.step action = some reader') :
    reader'.OnTime ↔ ¬ reader.Undercut action := by
  have coherent' := coherent.step taken
  cases action with
  | send data delay =>
      simp only [Reader.step, InboundQueue.send, Option.some.injEq] at taken
      subst taken
      by_cases waiting : reader.scheduled = false
      · cases sleeping : reader.delivery.sleep with
        | none =>
            -- A waker was left, so the send schedules the reader.
            have armed := (onTime waiting).2
            simp only [Armed, sleeping] at armed
            have woken : reader.queue.notifyNewTransmits.isEmpty = false := by
              simpa using armed.2
            simp [OnTime, Undercut, sleeping, woken]
        | some deadline =>
            have quiet : reader.queue.notifyNewTransmits = [] := by
              by_contra left
              simp [(coherent.notified left).1] at sleeping
            have armed := (onTime waiting).2
            simp only [Armed, sleeping] at armed
            have undercut : reader.Undercut (.send data delay) ↔
                reader.now + delay < deadline := by
              simp [Undercut, waiting, sleeping]
            rw [undercut, Nat.not_lt]
            constructor
            · intro kept
              have armed' := (kept (by simp [waiting, quiet])).2
              simp only [Armed, sleeping] at armed'
              exact armed' ⟨data, reader.now, delay⟩ (by simp)
            · intro after
              refine coherent'.onTime_of_armed fun _ => ?_
              simp only [Armed, sleeping]
              intro p member
              rcases List.mem_append.mp member with old | new
              · exact armed p old
              · exact List.mem_singleton.mp new ▸ after
      · simp only [Bool.not_eq_false] at waiting
        simp [OnTime, Undercut, waiting]
  | poll ties =>
      cases step_poll coherent.positive taken with
      | asleep deadline stored early =>
          simp only [Undercut, stored, Option.some.injEq, exists_eq_left', early, true_and,
            not_exists, not_and, Nat.not_lt]
          constructor
          · intro kept
            have armed := (kept rfl).2
            simpa only [Armed, stored] using armed
          · intro after
            refine coherent'.onTime_of_armed fun _ => ?_
            simpa only [Armed, stored] using after
      | empty elapsed none =>
          refine iff_of_true (coherent'.onTime_of_armed fun _ => ?_) ?_
          · simp [Armed, none]
          · rintro ⟨deadline, sleeping, early, -⟩
            exact absurd early (Nat.not_lt.mpr (elapsed deadline sleeping))
      | early elapsed next first later =>
          refine iff_of_true (coherent'.onTime_of_armed fun _ => ?_) ?_
          · exact (InboundQueue.peek_mem first).2
          · rintro ⟨deadline, sleeping, early, -⟩
            exact absurd early (Nat.not_lt.mpr (elapsed deadline sleeping))
      | due elapsed some delivery queue subset wakers max =>
          refine iff_of_true (by simp [OnTime]) ?_
          rintro ⟨deadline, sleeping, early, -⟩
          exact absurd early (Nat.not_lt.mpr (elapsed deadline sleeping))
  | advance duration =>
      simp only [Reader.step, Option.some.injEq] at taken
      subst taken
      exact iff_of_true onTime (by simp [Undercut])

/-- No packet stays queued past its arrival. -/
def Prompt (reader : Reader) : Prop := ∀ p ∈ reader.queue.queue, reader.now ≤ p.arrivalTime

theorem Prompt.step {reader reader' : Reader} {action : Action} (coherent : reader.Coherent)
    (onTime : reader.OnTime) (prompt : reader.Prompt) (timely : reader.Timely action)
    (taken : reader.step action = some reader') : reader'.Prompt := by
  cases action with
  | send data delay =>
      simp only [Reader.step, InboundQueue.send, Option.some.injEq] at taken
      subst taken
      intro p member
      rcases List.mem_append.mp member with old | new
      · exact prompt p old
      · rw [List.mem_singleton.mp new]
        exact Nat.le_add_right reader.now delay
  | poll ties =>
      cases step_poll coherent.positive taken with
      | asleep | empty | early => exact prompt
      | due elapsed some delivery queue subset wakers max =>
          exact fun p member => prompt p (subset member)
  | advance duration =>
      simp only [Reader.step, Option.some.injEq] at taken
      subst taken
      obtain ⟨waiting, before⟩ := timely
      have armed := (onTime waiting).2
      intro p member
      simp only [Armed] at armed
      cases sleeping : reader.delivery.sleep with
      | none =>
          rw [sleeping] at armed
          exact absurd member (by simp [armed.1])
      | some deadline =>
          rw [sleeping] at armed
          exact Nat.le_trans (before deadline sleeping) (armed p member)

/-- The future is on time throughout a history exactly when no packet ever
undercuts its stored sleep. If moreover time only passes while nothing is due to
poll the reader, every packet is handed over at the instant it arrives. -/
theorem onTime_iff {maxTransmits now : Nat} (positive : 0 < maxTransmits)
    {past : List (Reader × Action)} {reader : Reader}
    (run : Run Reader.step (.start maxTransmits now) past reader) :
    ((∀ seen ∈ visited past reader, seen.OnTime) ↔
      ∀ move ∈ past, ¬ move.1.Undercut move.2) ∧
    ((∀ move ∈ past, ¬ move.1.Undercut move.2) → (∀ move ∈ past, move.1.Timely move.2) →
      ∀ seen ∈ visited past reader, seen.Prompt) := by
  constructor
  · exact run.everywhere_iff Coherent OnTime (fun reader action => ¬ reader.Undercut action)
      (.start positive now) (by simp [OnTime, start])
      (fun _ _ _ coherent taken => coherent.step taken)
      fun _ _ _ coherent onTime taken => OnTime.step_iff coherent onTime taken
  · intro clear timely
    have kept := run.guarded_visited
      (fun reader => reader.Coherent ∧ reader.OnTime ∧ reader.Prompt)
      (fun reader action => ¬ reader.Undercut action ∧ reader.Timely action)
      ⟨.start positive now, by simp [OnTime, start], by simp [Prompt, start, InboundQueue.new]⟩
      (fun move member => ⟨clear move member, timely move member⟩)
      fun state action state' ⟨coherent, onTime, prompt⟩ ⟨clear, timely⟩ taken =>
        ⟨coherent.step taken, (OnTime.step_iff coherent onTime taken).mpr clear,
          prompt.step coherent onTime timely taken⟩
    exact fun seen member => (kept seen member).2.2

/-- A one-byte packet between two hosts. -/
def probe (number : Nat) : InTransitData :=
  let host (bits : BitVec 32) : SocketAddr := ⟨.v4 bits, 8080⟩
  ⟨number, false, 0, ⟨host 1, host 2, none, [42], none, defaultTtl⟩, number⟩

/-- A reader of an empty queue, which left its waker. -/
def idle : Reader := ⟨⟨none, 1⟩, ⟨[], [0]⟩, 0, false, 0⟩

/-- The reader sleeps for the first packet as the second one is sent, which arrives after it, and then
for the second one. -/
theorem onTime_iff_probes : ∃ past reader, Run Reader.step (.start 1 0) past reader ∧
    past.reverse.map Prod.snd = [.poll [], .send (probe 0) 10, .poll [], .advance 4, .send (probe 1) 20,
      .advance 6, .poll [], .poll [], .advance 14, .poll []] ∧
    reader.queue.queue = [] ∧ ∀ seen ∈ visited past reader, seen.OnTime ∧ seen.Prompt := by
  let actions : List Action := [.poll [], .send (probe 0) 10, .poll [], .advance 4, .send (probe 1) 20,
    .advance 6, .poll [], .poll [], .advance 14, .poll []]
  obtain ⟨reader, reached, holds⟩ := (Option.any_eq_true _ _).mp <|
    show (attains Reader.step (.start 1 0) actions).any (fun reader => decide <|
      (∀ move ∈ (moves Reader.step (.start 1 0) actions).reverse,
        ¬ move.1.Undercut move.2 ∧ move.1.Timely move.2) ∧ reader.queue.queue = []) = true
      by decide +kernel
  obtain ⟨kept, emptied⟩ := of_decide_eq_true holds
  obtain ⟨onTime, prompt⟩ := onTime_iff (by decide) (.of_moves reached)
  have clear := fun move member => (kept move member).1
  refine ⟨_, reader, .of_moves reached, ?_, emptied, fun seen member => ⟨onTime.mpr clear seen member, ?_⟩⟩
  · rw [List.reverse_reverse, moves_actions reached]
  · exact prompt clear (fun move member => (kept move member).2) seen member

/-- A reader that sleeps until ten for the first packet, with the second one,
which arrived at one, in its queue. -/
def overslept (now lastPoll : Nat) : Reader :=
  ⟨⟨some 10, 1⟩, ⟨[⟨probe 0, 0, 10⟩, ⟨probe 1, 1, 0⟩], []⟩, now, false, lastPoll⟩

/-- A packet with no delay, sent one nanosecond after one with a delay of ten, is
not found by the next poll, which is asleep for the other one; and though time
only passes while nothing is due to poll the reader, the packet is overdue. -/
theorem late_delivery : ∃ past, Run Reader.step (.start 1 0) past (overslept 10 1) ∧
    (∀ move ∈ past, move.1.Timely move.2) ∧ overslept 1 1 ∈ visited past (overslept 10 1) ∧
    ¬ (overslept 1 1).OnTime ∧ ¬ (overslept 10 1).Prompt := by
  have asleep : Run Reader.step (.start 1 0)
      [(⟨⟨none, 1⟩, ⟨[⟨probe 0, 0, 10⟩], []⟩, 0, true, 0⟩, .poll []),
        (idle, .send (probe 0) 10), (.start 1 0, .poll [])]
      ⟨⟨some 10, 1⟩, ⟨[⟨probe 0, 0, 10⟩], []⟩, 0, false, 0⟩ :=
    .next (.next (.next .start rfl) rfl) rfl
  have late : Run Reader.step (.start 1 0)
      ((overslept 1 1, .advance 9) :: (overslept 1 0, .poll []) ::
        (⟨⟨some 10, 1⟩, ⟨[⟨probe 0, 0, 10⟩], []⟩, 1, false, 0⟩, .send (probe 1) 0) ::
        (⟨⟨some 10, 1⟩, ⟨[⟨probe 0, 0, 10⟩], []⟩, 0, false, 0⟩, .advance 1) :: _)
      (overslept 10 1) :=
    .next (.next (.next (.next asleep rfl) rfl) rfl) rfl
  refine ⟨_, late, ?_, by simp [visited], ?_, ?_⟩
  · simp [Timely, overslept]
  · intro onTime
    exact absurd ((onTime rfl).1 ⟨probe 1, 1, 0⟩ (by decide)) (by decide)
  · intro prompt
    exact absurd (prompt ⟨probe 1, 1, 0⟩ (by decide)) (by decide)

end Reader

end Workbench.Network
