import Workbench.Network.Delivery

/-! One inbound queue and all the delivery futures that are polled on it, under a clock that
may advance between any two of its readings, also within a poll. -/

set_option autoImplicit false

namespace Workbench.Network

open Workbench.Library

namespace NextPacketDelivery

/-- Where the loop of a poll ends, as `LoopEnd`, with the time and the packets it took. -/
structure TickingEnd where
  now : Nat
  asleep : Bool
  sleep : Option Nat
  queue : List PrioritizedInTransitData
  popped : List PrioritizedInTransitData
  deriving DecidableEq, Repr

/-- The loop of a poll, which reads the clock at the stored sleep and at the next packet of
each round; it has advanced by the next one of some ticks. Nothing if the rounds run out. -/
def pollLoopTicking (maxTransmits : Nat) : Nat → Nat → List Nat → List Nat → Option Nat →
    List PrioritizedInTransitData → List PrioritizedInTransitData → Option TickingEnd
  | 0, _, _, _, _, _, _ => none
  | rounds + 1, now, ticks, ties, sleep, queue, popped =>
    if maxTransmits ≤ popped.length then some ⟨now, false, sleep, queue, popped⟩
    else if sleep.isSome ∧ popped ≠ [] then some ⟨now, false, sleep, queue, popped⟩
    else
      let now := now + ticks.headD 0
      if sleep.any (now < ·) then some ⟨now, true, sleep, queue, popped⟩
      else match InboundQueue.peek queue with
        | none => some ⟨now, false, none, queue, popped⟩
        | some next =>
          let now := now + ticks.tail.headD 0
          if now < next.arrivalTime then
            pollLoopTicking maxTransmits rounds now ticks.tail.tail ties (some next.arrivalTime) queue popped
          else match InboundQueue.pop (ties.headD 0) queue with
            | none => some ⟨now, false, none, queue, popped⟩
            | some (p, rest) =>
              pollLoopTicking maxTransmits rounds now ticks.tail.tail ties.tail none rest (popped ++ [p])

/-- A poll, with the packets it takes in place of what it makes of them. -/
def pollTicking (this : NextPacketDelivery) (queue : InboundQueue) (now : Nat) (ticks ties : List Nat)
    (waker : Waker) :
    Option (Poll (List PrioritizedInTransitData) × NextPacketDelivery × InboundQueue × Nat) :=
  (pollLoopTicking this.maxTransmits (queue.queue.length + 2) now ticks ties this.sleep queue.queue []).map
    fun ended =>
      let this := { this with sleep := ended.sleep }
      let queue := { queue with queue := ended.queue }
      if ended.asleep then (.pending, this, queue, ended.now)
      else if ended.popped = [] then
        (.pending, this, { queue with notifyNewTransmits := queue.notifyNewTransmits ++ [waker] }, ended.now)
      else (.ready ended.popped, this, queue, ended.now)

/-! The rounds suffice. -/

theorem pollLoopTicking_breaks {maxTransmits rounds now : Nat} {ticks ties : List Nat}
    {sleep : Option Nat} {queue popped : List PrioritizedInTransitData} (positive : 0 < rounds)
    (stored : sleep.isSome = true) (some : popped ≠ []) :
    (pollLoopTicking maxTransmits rounds now ticks ties sleep queue popped).isSome = true := by
  cases rounds with
  | zero => exact absurd positive (Nat.lt_irrefl 0)
  | succ rounds =>
      unfold pollLoopTicking
      split
      · rfl
      · rw [if_pos ⟨stored, some⟩]
        rfl

/-- Once a packet was taken, or a sleep stored until the next one, each round takes one. -/
theorem pollLoopTicking_goes {maxTransmits rounds now : Nat} {ticks ties : List Nat}
    {sleep : Option Nat} {queue popped : List PrioritizedInTransitData}
    (goes : popped ≠ [] ∨ ∃ deadline, sleep = some deadline ∧
      ∀ next, InboundQueue.peek queue = some next → next.arrivalTime ≤ deadline)
    (enough : queue.length < rounds) :
    (pollLoopTicking maxTransmits rounds now ticks ties sleep queue popped).isSome = true := by
  induction rounds generalizing now ticks ties sleep queue popped with
  | zero => exact absurd enough (Nat.not_lt_zero _)
  | succ rounds ih =>
      unfold pollLoopTicking
      dsimp only
      split
      · rfl
      split
      · rfl
      next open' =>
      split
      · rfl
      next elapsed =>
      split
      · rfl
      next next first =>
      have member := (InboundQueue.peek_mem first).1
      have positive := List.length_pos_of_mem member
      split
      · next early =>
          -- only after a pop can the next packet be too early, and then the next round breaks
          rcases goes with some | ⟨deadline, rfl, before⟩
          · exact pollLoopTicking_breaks (by omega) rfl some
          · have after := before next first
            simp only [Option.any_some, decide_eq_true_eq] at elapsed
            omega
      · split
        · rfl
        · next p rest taken =>
            -- the queue bounds the rounds that pop
            have shorter := (InboundQueue.pop_perm taken).length_eq
            rw [List.length_cons] at shorter
            exact ih (.inl (by simp)) (by omega)

theorem pollLoopTicking_isSome {maxTransmits rounds now : Nat} {ticks ties : List Nat}
    {sleep : Option Nat} {queue : List PrioritizedInTransitData} (enough : queue.length + 1 < rounds) :
    (pollLoopTicking maxTransmits rounds now ticks ties sleep queue []).isSome = true := by
  cases rounds with
  | zero => exact absurd enough (Nat.not_lt_zero _)
  | succ rounds =>
      unfold pollLoopTicking
      dsimp only
      split
      · rfl
      split
      · rfl
      split
      · rfl
      split
      · rfl
      next next first =>
      split
      · -- one more round may go to a sleep, which lasts until the next packet
        refine pollLoopTicking_goes (.inr ⟨next.arrivalTime, rfl, fun next' first' => ?_⟩) (by omega)
        obtain rfl := Option.some.inj (first.symm.trans first')
        exact Nat.le_refl _
      · split
        · rfl
        · next p rest taken =>
            have shorter := (InboundQueue.pop_perm taken).length_eq
            rw [List.length_cons] at shorter
            exact pollLoopTicking_goes (.inl (by simp)) (by omega)

/-! What a poll takes. -/

/-- Packets taken from a queue, with those that are left: they are due, in the order of
delivery, and before the ones left. -/
structure Batch (maxTransmits now : Nat) (popped queue : List PrioritizedInTransitData) : Prop where
  inOrder : popped.Pairwise fun p q => p.notAfter q = true
  first : ∀ p ∈ popped, ∀ q ∈ queue, p.notAfter q = true
  due : ∀ p ∈ popped, p.arrivalTime ≤ now
  room : popped.length ≤ maxTransmits

theorem Batch.nothing (maxTransmits now : Nat) (queue : List PrioritizedInTransitData) :
    Batch maxTransmits now [] queue :=
  ⟨.nil, List.forall_mem_nil _, List.forall_mem_nil _, Nat.zero_le _⟩

theorem Batch.later {maxTransmits now later : Nat} {popped queue : List PrioritizedInTransitData}
    (batch : Batch maxTransmits now popped queue) (after : now ≤ later) :
    Batch maxTransmits later popped queue :=
  ⟨batch.inOrder, batch.first, fun p member => Nat.le_trans (batch.due p member) after, batch.room⟩

/-- The next packet joins the batch. -/
theorem Batch.pop {maxTransmits now tie : Nat} {popped queue rest : List PrioritizedInTransitData}
    {p next : PrioritizedInTransitData} (batch : Batch maxTransmits now popped queue)
    (more : ¬ maxTransmits ≤ popped.length) (peeked : InboundQueue.peek queue = some next)
    (due : next.arrivalTime ≤ now) (taken : InboundQueue.pop tie queue = some (p, rest)) :
    Batch maxTransmits now (popped ++ [p]) rest := by
  obtain ⟨inside, first⟩ := InboundQueue.pop_notAfter taken
  have left : ∀ q ∈ rest, q ∈ queue := fun q member =>
    (InboundQueue.pop_perm taken).mem_iff.mpr (List.mem_cons_of_mem p member)
  have arrived : p.arrivalTime ≤ now := by
    have least := (InboundQueue.pop_least taken).2 next (InboundQueue.peek_mem peeked).1
    omega
  refine ⟨List.pairwise_append.mpr ⟨batch.inOrder, List.pairwise_singleton _ _, ?_⟩, ?_, ?_, ?_⟩
  · intro q member p' singleton
    obtain rfl := List.mem_singleton.mp singleton
    exact batch.first q member p' inside
  · rw [List.forall_mem_append, List.forall_mem_singleton]
    exact ⟨fun q member q' other => batch.first q member q' (left q' other), fun q member =>
      first q (left q member)⟩
  · rw [List.forall_mem_append, List.forall_mem_singleton]
    exact ⟨batch.due, arrived⟩
  · rw [List.length_append, List.length_singleton]
    omega

/-- The loop of a poll only adds to its batch, and takes nothing where a sleep keeps it. -/
theorem Batch.pollLoopTicking {maxTransmits rounds now : Nat} {ticks ties : List Nat} {sleep : Option Nat}
    {queue popped : List PrioritizedInTransitData} {ended : TickingEnd}
    (batch : Batch maxTransmits now popped queue)
    (ends : pollLoopTicking maxTransmits rounds now ticks ties sleep queue popped = some ended) :
    Batch maxTransmits ended.now ended.popped ended.queue ∧
      (ended.popped ++ ended.queue).Perm (popped ++ queue) ∧ now ≤ ended.now ∧
      (ended.asleep = true → ended.popped = []) := by
  induction rounds generalizing now ticks ties sleep queue popped with
  | zero => cases ends
  | succ rounds ih =>
      unfold NextPacketDelivery.pollLoopTicking at ends
      dsimp only at ends
      split at ends
      · obtain rfl := Option.some.inj ends
        exact ⟨batch, .refl _, Nat.le_refl _, fun asleep => nomatch asleep⟩
      next more =>
      split at ends
      · obtain rfl := Option.some.inj ends
        exact ⟨batch, .refl _, Nat.le_refl _, fun asleep => nomatch asleep⟩
      next goes =>
      have asked := batch.later (Nat.le_add_right now (ticks.headD 0))
      have read := asked.later (Nat.le_add_right _ (ticks.tail.headD 0))
      split at ends
      · next early =>
          obtain rfl := Option.some.inj ends
          refine ⟨asked, .refl _, Nat.le_add_right _ _, fun _ => ?_⟩
          -- with packets popped, the loop breaks before it waits for the sleep
          by_contra some
          exact goes ⟨by cases sleep <;> simp_all, some⟩
      split at ends
      · obtain rfl := Option.some.inj ends
        exact ⟨asked, .refl _, Nat.le_add_right _ _, fun asleep => nomatch asleep⟩
      next next peeked =>
      split at ends
      · obtain ⟨batch', moved, after, kept⟩ := ih read ends
        exact ⟨batch', moved, by omega, kept⟩
      next due =>
      split at ends
      · next none =>
          have some := InboundQueue.pop_isSome (ties.headD 0)
            (List.ne_nil_of_mem (InboundQueue.peek_mem peeked).1)
          rw [none] at some
          cases some
      · next p rest taken =>
          obtain ⟨batch', moved, after, kept⟩ :=
            ih (read.pop more peeked (Nat.le_of_not_lt due) taken) ends
          refine ⟨batch', moved.trans ?_, by omega, kept⟩
          rw [List.append_assoc]
          exact (InboundQueue.pop_perm taken).symm.append_left popped

/-- A poll that is ready took a batch, and one that is pending took nothing. -/
theorem pollTicking_takes {this this' : NextPacketDelivery} {queue queue' : InboundQueue}
    {now now' : Nat} {ticks ties : List Nat} {waker : Waker} {outcome : Poll (List PrioritizedInTransitData)}
    (polled : this.pollTicking queue now ticks ties waker = some (outcome, this', queue', now')) :
    this'.maxTransmits = this.maxTransmits ∧ now ≤ now' ∧
      match outcome with
      | .pending => queue'.queue.Perm queue.queue
      | .ready popped => popped ≠ [] ∧ Batch this.maxTransmits now' popped queue'.queue ∧
          (popped ++ queue'.queue).Perm queue.queue := by
  obtain ⟨ended, ends, same⟩ := Option.map_eq_some_iff.mp polled
  obtain ⟨batch, moved, after, kept⟩ :=
    (Batch.nothing this.maxTransmits now queue.queue).pollLoopTicking ends
  dsimp only at same
  split at same
  · next asleep =>
      simp only [Prod.mk.injEq] at same
      obtain ⟨rfl, rfl, rfl, rfl⟩ := same
      rw [kept asleep] at moved
      exact ⟨rfl, after, moved⟩
  · split at same
    · next none =>
        simp only [Prod.mk.injEq] at same
        obtain ⟨rfl, rfl, rfl, rfl⟩ := same
        rw [none] at moved
        exact ⟨rfl, after, moved⟩
    · next some =>
        simp only [Prod.mk.injEq] at same
        obtain ⟨rfl, rfl, rfl, rfl⟩ := same
        exact ⟨rfl, after, some, batch, moved⟩

/-! The poll of the rest of the model is one during which the clock stands still. -/

theorem pollLoopTicking_succ (maxTransmits rounds now : Nat) (ties : List Nat) (sleep : Option Nat)
    (queue popped : List PrioritizedInTransitData) :
    pollLoopTicking maxTransmits (rounds + 1) now [] ties sleep queue popped =
      if maxTransmits ≤ popped.length then some ⟨now, false, sleep, queue, popped⟩
      else if sleep.isSome ∧ popped ≠ [] then some ⟨now, false, sleep, queue, popped⟩
      else if sleep.any (now < ·) then some ⟨now, true, sleep, queue, popped⟩
      else match InboundQueue.peek queue with
        | none => some ⟨now, false, none, queue, popped⟩
        | some next =>
          if now < next.arrivalTime then
            pollLoopTicking maxTransmits rounds now [] ties (some next.arrivalTime) queue popped
          else match InboundQueue.pop (ties.headD 0) queue with
            | none => some ⟨now, false, none, queue, popped⟩
            | some (p, rest) =>
              pollLoopTicking maxTransmits rounds now [] ties.tail none rest (popped ++ [p]) := rfl

theorem pollLoopTicking_still {maxTransmits rounds now : Nat} {ties : List Nat} {sleep : Option Nat}
    {queue popped : List PrioritizedInTransitData} {ended : TickingEnd}
    (ends : pollLoopTicking maxTransmits rounds now [] ties sleep queue popped = some ended) :
    ended.now = now ∧ pollLoop maxTransmits now rounds ties sleep queue (popped.map (·.delivered)) =
      ⟨ended.asleep, ended.sleep, ended.queue, ended.popped.map (·.delivered)⟩ := by
  induction rounds generalizing ties sleep queue popped with
  | zero => cases ends
  | succ rounds ih =>
      rw [pollLoopTicking_succ] at ends
      simp only [pollLoop, List.length_map, ne_eq, List.map_eq_nil_iff]
      split at ends
      · next full =>
          obtain rfl := Option.some.inj ends
          exact ⟨rfl, if_pos full⟩
      next more =>
      rw [if_neg more]
      split at ends
      · next stop =>
          obtain rfl := Option.some.inj ends
          exact ⟨rfl, if_pos stop⟩
      next goes =>
      rw [if_neg goes]
      split at ends
      · next early =>
          obtain rfl := Option.some.inj ends
          exact ⟨rfl, if_pos early⟩
      next elapsed =>
      rw [if_neg elapsed]
      cases first : InboundQueue.peek queue with
      | none =>
          simp only [first, Option.some.injEq] at ends
          obtain rfl := ends
          exact ⟨rfl, rfl⟩
      | some next =>
          simp only [first] at ends
          dsimp only
          split at ends
          · next later =>
              rw [if_pos later]
              exact ih ends
          next due =>
          rw [if_neg due]
          cases taken : InboundQueue.pop (ties.headD 0) queue with
          | none =>
              simp only [taken, Option.some.injEq] at ends
              obtain rfl := ends
              exact ⟨rfl, rfl⟩
          | some picked =>
              obtain ⟨p, rest⟩ := picked
              simp only [taken] at ends
              simpa using ih ends

theorem pollTicking_still {this this' : NextPacketDelivery} {queue queue' : InboundQueue} {now now' : Nat}
    {ties : List Nat} {waker : Waker} {outcome : Poll (List PrioritizedInTransitData)}
    (polled : this.pollTicking queue now [] ties waker = some (outcome, this', queue', now')) :
    now' = now ∧ this.poll queue now ties waker = (match outcome with
      | .pending => .pending
      | .ready popped => .ready (popped.map (·.delivered)), this', queue') := by
  obtain ⟨ended, ends, same⟩ := Option.map_eq_some_iff.mp polled
  obtain ⟨still, loop⟩ := pollLoopTicking_still ends
  rw [List.map_nil] at loop
  unfold poll
  simp only [loop, List.map_eq_nil_iff]
  dsimp only at same
  split at same
  · next asleep =>
      simp only [Prod.mk.injEq] at same
      obtain ⟨rfl, rfl, rfl, rfl⟩ := same
      exact ⟨still, by rw [if_pos asleep]⟩
  next awake =>
  rw [if_neg awake]
  split at same
  · next none =>
      simp only [Prod.mk.injEq] at same
      obtain ⟨rfl, rfl, rfl, rfl⟩ := same
      exact ⟨still, by rw [if_pos none]⟩
  · next some =>
      simp only [Prod.mk.injEq] at same
      obtain ⟨rfl, rfl, rfl, rfl⟩ := same
      exact ⟨still, by rw [if_neg some]⟩

end NextPacketDelivery

/-- An inbound queue with the futures created for it, and what was sent to it and returned
by polls so far. -/
structure Handover where
  queue : InboundQueue
  futures : List NextPacketDelivery
  now : Nat
  sent : List PrioritizedInTransitData
  returned : List PrioritizedInTransitData

namespace Handover

def start (now : Nat) : Handover := ⟨.new, [], now, [], []⟩

/-- A call, or time that passes between calls. -/
inductive Action where
  | send (data : InTransitData) (delay : Nat)
  | receive (maxTransmits : Nat)
  | poll (future : Nat) (ticks ties : List Nat)
  | advance (duration : Nat)
  deriving DecidableEq, Repr

/-- What a poll of a future returns, with the future, the queue and the time after it. -/
def polled (this : Handover) (future : Nat) (ticks ties : List Nat) :
    Option (Poll (List PrioritizedInTransitData) × NextPacketDelivery × InboundQueue × Nat) :=
  this.futures[future]?.bind fun delivery => delivery.pollTicking this.queue this.now ticks ties future

def step (this : Handover) : Action → Option Handover
  | .send data delay => some { this with
      queue := (this.queue.send this.now data delay).1
      sent := this.sent ++ [⟨data, this.now, delay⟩] }
  | .receive maxTransmits => some { this with futures := this.futures ++ [.new maxTransmits] }
  | .poll future ticks ties =>
    (this.polled future ticks ties).map fun (outcome, delivery, queue, now) =>
      { this with
        queue, now, futures := this.futures.set future delivery
        returned := match outcome with
          | .pending => this.returned
          | .ready popped => this.returned ++ popped }
  | .advance duration => some { this with now := this.now + duration }

/-- The limit of the future that an action creates. -/
def Action.limit? : Action → Option Nat
  | .receive maxTransmits => some maxTransmits
  | _ => none

variable {this this' : Handover} {action : Action} {future : Nat} {ticks ties : List Nat}

/-- Every poll of a future returns. -/
theorem polled_isSome (this : Handover) (ticks ties : List Nat) (created : future < this.futures.length) :
    (this.polled future ticks ties).isSome = true := by
  rw [polled, List.getElem?_eq_getElem created, Option.bind_some, NextPacketDelivery.pollTicking,
    Option.isSome_map]
  exact NextPacketDelivery.pollLoopTicking_isSome (Nat.lt_succ_self _)

theorem polled_takes {outcome : Poll (List PrioritizedInTransitData)} {delivery : NextPacketDelivery}
    {queue : InboundQueue} {now : Nat}
    (polled : this.polled future ticks ties = some (outcome, delivery, queue, now)) :
    ∃ before, this.futures[future]? = some before ∧
      before.pollTicking this.queue this.now ticks ties future = some (outcome, delivery, queue, now) :=
  Option.bind_eq_some_iff.mp polled

/-- What was returned and what is queued is what was sent. -/
theorem step_conserves (conserved : (this.returned ++ this.queue.queue).Perm this.sent)
    (taken : this.step action = some this') : (this'.returned ++ this'.queue.queue).Perm this'.sent := by
  cases action with
  | send data delay =>
      obtain rfl := Option.some.inj taken
      change (this.returned ++ (this.queue.queue ++ [_])).Perm (this.sent ++ [_])
      rw [← List.append_assoc]
      exact conserved.append_right _
  | receive maxTransmits | advance duration =>
      obtain rfl := Option.some.inj taken
      exact conserved
  | poll future ticks ties =>
      obtain ⟨⟨outcome, delivery, queue, now⟩, polled, rfl⟩ := Option.map_eq_some_iff.mp taken
      obtain ⟨before, -, polled⟩ := polled_takes polled
      obtain ⟨-, -, takes⟩ := NextPacketDelivery.pollTicking_takes polled
      cases outcome with
      | pending => exact (takes.append_left this.returned).trans conserved
      | ready popped =>
          change ((this.returned ++ popped) ++ queue.queue).Perm this.sent
          rw [List.append_assoc]
          exact (takes.2.2.append_left this.returned).trans conserved

/-- The futures keep the limits that they were created with. -/
theorem step_limits (taken : this.step action = some this') :
    this'.futures.map (·.maxTransmits) = this.futures.map (·.maxTransmits) ++ action.limit?.toList := by
  cases action with
  | send data delay =>
      obtain rfl := Option.some.inj taken
      exact (List.append_nil _).symm
  | advance duration =>
      obtain rfl := Option.some.inj taken
      exact (List.append_nil _).symm
  | receive maxTransmits =>
      obtain rfl := Option.some.inj taken
      exact List.map_append
  | poll future ticks ties =>
      obtain ⟨⟨outcome, delivery, queue, now⟩, polled, rfl⟩ := Option.map_eq_some_iff.mp taken
      obtain ⟨before, found, polled⟩ := polled_takes polled
      obtain ⟨limit, -⟩ := NextPacketDelivery.pollTicking_takes polled
      change (this.futures.set future delivery).map (·.maxTransmits) = _ ++ []
      rw [List.map_set, List.append_nil, limit]
      obtain ⟨bound, rfl⟩ := List.getElem?_eq_some_iff.mp found
      have bound' : future < (this.futures.map (·.maxTransmits)).length := by simpa using bound
      have same : this.futures[future].maxTransmits =
          (this.futures.map (·.maxTransmits))[future] := by simp
      rw [same]
      exact List.set_getElem_self _

/-- In every run, what polls have returned and what is queued is what was sent, each packet
once; and a poll that is ready returns as many packets as its future's limit allows, at
least one, which are due, in the order of delivery, and before those that it leaves. -/
theorem handover_exact {now : Nat} {past : List (Handover × Action)}
    (run : Run step (start now) past this) :
    (this.returned ++ this.queue.queue).Perm this.sent ∧
      this.futures.map (·.maxTransmits) = past.reverse.filterMap (·.2.limit?) ∧
      ∀ t future ticks ties, (t, .poll future ticks ties) ∈ past →
        ∀ popped delivery queue later,
          t.polled future ticks ties = some (.ready popped, delivery, queue, later) →
          1 ≤ popped.length ∧ ∃ before, t.futures[future]? = some before ∧
            NextPacketDelivery.Batch before.maxTransmits later popped queue.queue := by
  refine ⟨?_, ?_, ?_⟩
  · exact run.invariant (fun this => (this.returned ++ this.queue.queue).Perm this.sent) (.refl _)
      fun _ _ _ conserved taken => step_conserves conserved taken
  · induction run with
    | start => rfl
    | next run taken ih =>
        rw [step_limits taken, ih, List.reverse_cons, List.filterMap_append]
        congr 1
  · intro t future ticks ties _ popped delivery queue later polled
    obtain ⟨before, found, polled⟩ := polled_takes polled
    obtain ⟨-, -, some, batch, -⟩ := NextPacketDelivery.pollTicking_takes polled
    exact ⟨List.length_pos_iff.mpr some, before, found, batch⟩

/-- Of two packets the later one arrives first, and a poll at that time returns it alone. -/
theorem handover_exact_two : ∃ past this,
    Run step (start 0) past this ∧ this.returned = [⟨Reader.probe 1, 0, 3⟩] ∧
      (this.returned ++ this.queue.queue).Perm this.sent ∧
      this.futures.map (·.maxTransmits) = past.reverse.filterMap (·.2.limit?) ∧
      ∀ t future ticks ties, (t, .poll future ticks ties) ∈ past →
        ∀ popped delivery queue later,
          t.polled future ticks ties = some (.ready popped, delivery, queue, later) →
          1 ≤ popped.length ∧ ∃ before, t.futures[future]? = some before ∧
            NextPacketDelivery.Batch before.maxTransmits later popped queue.queue := by
  obtain ⟨past, run, -⟩ := Run.of_isSome step (start 0)
    [.receive 2, .send (Reader.probe 0) 10, .send (Reader.probe 1) 3, .advance 2, .poll 0 [1] []] rfl
  exact ⟨past, _, run, rfl, handover_exact run⟩

end Handover

end Workbench.Network
