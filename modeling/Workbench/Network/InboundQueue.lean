import Mathlib.Data.List.Basic
import Mathlib.Data.List.Perm.Basic
import Workbench.Network.Packet

/-! The queue of packets on their way to a reader, ordered by arrival time, and
the future that hands them over.

The heap is a list of which the least element is taken; where several are least
the `tie` chooses, since a binary heap does not say which one it yields. -/

set_option autoImplicit false

namespace Workbench.Network

structure PrioritizedInTransitData where
  data : InTransitData
  sent : Nat
  delay : Nat
  deriving DecidableEq, Repr

namespace PrioritizedInTransitData

def arrivalTime (p : PrioritizedInTransitData) : Nat := p.sent + p.delay

/-- The order of delivery: by arrival time, then by packet number. -/
def notAfter (p q : PrioritizedInTransitData) : Bool :=
  p.arrivalTime < q.arrivalTime ∨
    (p.arrivalTime = q.arrivalTime ∧ p.data.number ≤ q.data.number)

theorem notAfter_arrivalTime {p q : PrioritizedInTransitData} (le : p.notAfter q = true) :
    p.arrivalTime ≤ q.arrivalTime := by
  simp only [notAfter, decide_eq_true_eq] at le
  omega

theorem notAfter_total (p q : PrioritizedInTransitData) :
    p.notAfter q = true ∨ q.notAfter p = true := by
  simp only [notAfter, decide_eq_true_eq]
  omega

theorem notAfter_trans {p q r : PrioritizedInTransitData} (first : p.notAfter q = true)
    (second : q.notAfter r = true) : p.notAfter r = true := by
  simp only [notAfter, decide_eq_true_eq] at first second ⊢
  omega

end PrioritizedInTransitData

structure DeliveredTransmit where
  data : InTransitData
  sent : Nat
  deriving DecidableEq, Repr

def PrioritizedInTransitData.delivered (p : PrioritizedInTransitData) : DeliveredTransmit :=
  ⟨p.data, p.sent⟩

/-- The task that a waker wakes. -/
abbrev Waker := Nat

structure InboundQueue where
  queue : List PrioritizedInTransitData
  notifyNewTransmits : List Waker
  deriving DecidableEq, Repr

namespace InboundQueue

def new : InboundQueue := ⟨[], []⟩

/-- Enqueues a packet, and hands out the wakers to be woken. -/
def send (this : InboundQueue) (now : Nat) (data : InTransitData) (delay : Nat) :
    InboundQueue × List Waker :=
  (⟨this.queue ++ [⟨data, now, delay⟩], []⟩, this.notifyNewTransmits)

/-- The elements that are first in the order of delivery. -/
def least (queue : List PrioritizedInTransitData) : List PrioritizedInTransitData :=
  queue.filter fun p => queue.all p.notAfter

def peek (queue : List PrioritizedInTransitData) : Option PrioritizedInTransitData :=
  (least queue).head?

def pop (tie : Nat) (queue : List PrioritizedInTransitData) :
    Option (PrioritizedInTransitData × List PrioritizedInTransitData) :=
  (least queue)[tie % (least queue).length]?.map fun p => (p, queue.erase p)

theorem least_ne_nil {queue : List PrioritizedInTransitData} (some : queue ≠ []) :
    least queue ≠ [] := by
  have first : ∃ p ∈ queue, ∀ q ∈ queue, p.notAfter q = true := by
    induction queue with
    | nil => exact absurd rfl some
    | cons head tail ih =>
        by_cases none : tail = []
        · exact ⟨head, by simp, by
            simpa [none] using (head.notAfter_total head).elim id id⟩
        · obtain ⟨p, member, least⟩ := ih none
          rcases head.notAfter_total p with before | after
          · refine ⟨head, by simp, fun q inside => ?_⟩
            rcases List.mem_cons.mp inside with rfl | inside
            · exact (q.notAfter_total q).elim id id
            · exact PrioritizedInTransitData.notAfter_trans before (least q inside)
          · refine ⟨p, by simp [member], fun q inside => ?_⟩
            rcases List.mem_cons.mp inside with rfl | inside
            · exact after
            · exact least q inside
  obtain ⟨p, member, before⟩ := first
  exact List.ne_nil_of_mem (List.mem_filter.mpr ⟨member, List.all_eq_true.mpr before⟩)

theorem peek_eq_none {queue : List PrioritizedInTransitData} : peek queue = none ↔ queue = [] := by
  constructor
  · intro none
    by_contra some
    exact least_ne_nil some (List.head?_eq_none_iff.mp none)
  · rintro rfl
    rfl

theorem peek_mem {queue : List PrioritizedInTransitData} {next : PrioritizedInTransitData}
    (found : peek queue = some next) :
    next ∈ queue ∧ ∀ p ∈ queue, next.arrivalTime ≤ p.arrivalTime := by
  have member := List.mem_filter.mp (List.mem_of_mem_head? found)
  exact ⟨member.1, fun p inside => PrioritizedInTransitData.notAfter_arrivalTime
    (List.all_eq_true.mp member.2 p inside)⟩

theorem pop_isSome (tie : Nat) {queue : List PrioritizedInTransitData} (some : queue ≠ []) :
    (pop tie queue).isSome = true := by
  have positive := List.length_pos_iff.mpr (least_ne_nil some)
  simp [pop, List.getElem?_eq_getElem (Nat.mod_lt tie positive)]

theorem pop_perm {tie : Nat} {queue rest : List PrioritizedInTransitData}
    {p : PrioritizedInTransitData} (popped : pop tie queue = some (p, rest)) :
    queue.Perm (p :: rest) := by
  obtain ⟨found, member, same⟩ := Option.map_eq_some_iff.mp popped
  obtain ⟨rfl, rfl⟩ := Prod.mk.inj same
  exact List.perm_cons_erase (List.mem_filter.mp (List.mem_of_getElem? member)).1

theorem pop_notAfter {tie : Nat} {queue rest : List PrioritizedInTransitData}
    {p : PrioritizedInTransitData} (popped : pop tie queue = some (p, rest)) :
    p ∈ queue ∧ ∀ q ∈ queue, p.notAfter q = true := by
  obtain ⟨found, member, same⟩ := Option.map_eq_some_iff.mp popped
  obtain ⟨rfl, -⟩ := Prod.mk.inj same
  obtain ⟨inside, first⟩ := List.mem_filter.mp (List.mem_of_getElem? member)
  exact ⟨inside, List.all_eq_true.mp first⟩

theorem pop_least {tie : Nat} {queue rest : List PrioritizedInTransitData}
    {p : PrioritizedInTransitData} (popped : pop tie queue = some (p, rest)) :
    p ∈ queue ∧ ∀ q ∈ queue, p.arrivalTime ≤ q.arrivalTime := by
  obtain ⟨inside, first⟩ := pop_notAfter popped
  exact ⟨inside, fun q other => PrioritizedInTransitData.notAfter_arrivalTime (first q other)⟩

end InboundQueue

/-- What a poll of a future returns. -/
inductive Poll (α : Type) where
  | pending
  | ready (value : α)
  deriving DecidableEq, Repr

structure NextPacketDelivery where
  sleep : Option Nat
  maxTransmits : Nat
  deriving DecidableEq, Repr

namespace NextPacketDelivery

def new (maxTransmits : Nat) : NextPacketDelivery := ⟨none, maxTransmits⟩

/-- Where the loop of a poll ends: whether a stored sleep made the poll return
pending on the spot, the sleep left behind, what stays queued and what was
delivered. -/
structure LoopEnd where
  asleep : Bool
  sleep : Option Nat
  queue : List PrioritizedInTransitData
  delivered : List DeliveredTransmit
  deriving DecidableEq, Repr

/-- The loop of a poll. Each round takes a packet out of the queue, or stores a
sleep after which the next round ends, so the rounds are bounded by the queue. -/
def pollLoop (maxTransmits now : Nat) : Nat → List Nat → Option Nat →
    List PrioritizedInTransitData → List DeliveredTransmit → LoopEnd
  | 0, _, sleep, queue, delivered => ⟨false, sleep, queue, delivered⟩
  | rounds + 1, ties, sleep, queue, delivered =>
    if maxTransmits ≤ delivered.length then ⟨false, sleep, queue, delivered⟩
    else if sleep.isSome ∧ delivered ≠ [] then ⟨false, sleep, queue, delivered⟩
    else if sleep.any (now < ·) then ⟨true, sleep, queue, delivered⟩
    else match InboundQueue.peek queue with
      | none => ⟨false, none, queue, delivered⟩
      | some next =>
        if now < next.arrivalTime then
          -- Sleep in the next round until the next packet may be delivered
          pollLoop maxTransmits now rounds ties (some next.arrivalTime) queue delivered
        else match InboundQueue.pop (ties.headD 0) queue with
          | none => ⟨false, none, queue, delivered⟩
          | some (p, rest) =>
            pollLoop maxTransmits now rounds ties.tail none rest (delivered ++ [p.delivered])

def poll (this : NextPacketDelivery) (queue : InboundQueue) (now : Nat) (ties : List Nat)
    (waker : Waker) : Poll (List DeliveredTransmit) × NextPacketDelivery × InboundQueue :=
  let ended :=
    pollLoop this.maxTransmits now (queue.queue.length + 2) ties this.sleep queue.queue []
  let this := { this with sleep := ended.sleep }
  let queue := { queue with queue := ended.queue }
  if ended.asleep then (.pending, this, queue)
  else if ended.delivered = [] then
    (.pending, this, { queue with notifyNewTransmits := queue.notifyNewTransmits ++ [waker] })
  else (.ready ended.delivered, this, queue)

/-! A poll moves packets from the queue to its result, and changes none of them. -/

theorem pollLoop_perm (maxTransmits now rounds : Nat) (ties : List Nat) (sleep : Option Nat)
    (queue : List PrioritizedInTransitData) (delivered : List DeliveredTransmit) :
    (delivered ++ queue.map (·.delivered)).Perm
      ((pollLoop maxTransmits now rounds ties sleep queue delivered).delivered ++
        (pollLoop maxTransmits now rounds ties sleep queue delivered).queue.map (·.delivered)) := by
  induction rounds generalizing ties sleep queue delivered with
  | zero => exact .refl _
  | succ rounds ih =>
      rw [pollLoop]
      split
      · exact .refl _
      split
      · exact .refl _
      split
      · exact .refl _
      split
      · exact .refl _
      split
      · exact ih ..
      split
      · exact .refl _
      · next p rest popped =>
        have moved := (InboundQueue.pop_perm popped).map (·.delivered)
        refine .trans ?_ (ih ..)
        rw [List.append_assoc]
        exact moved.append_left delivered

theorem pollLoop_subset (maxTransmits now rounds : Nat) (ties : List Nat) (sleep : Option Nat)
    (queue : List PrioritizedInTransitData) (delivered : List DeliveredTransmit) :
    (pollLoop maxTransmits now rounds ties sleep queue delivered).queue ⊆ queue := by
  induction rounds generalizing ties sleep queue delivered with
  | zero => exact fun _ => id
  | succ rounds ih =>
      rw [pollLoop]
      split
      · exact fun _ => id
      split
      · exact fun _ => id
      split
      · exact fun _ => id
      split
      · exact fun _ => id
      split
      · exact ih ..
      split
      · exact fun _ => id
      · next p rest popped =>
        intro q member
        have inside : q ∈ p :: rest := List.mem_cons_of_mem p (ih _ _ _ _ member)
        exact (InboundQueue.pop_perm popped).mem_iff.mpr inside

/-- A loop only delivers packets that are due. -/
theorem pollLoop_due (maxTransmits now rounds : Nat) (ties : List Nat) (sleep : Option Nat)
    (queue : List PrioritizedInTransitData) (delivered : List DeliveredTransmit)
    {x : DeliveredTransmit}
    (member : x ∈ (pollLoop maxTransmits now rounds ties sleep queue delivered).delivered) :
    x ∈ delivered ∨ ∃ p ∈ queue, p.delivered = x ∧ p.arrivalTime ≤ now := by
  induction rounds generalizing ties sleep queue delivered with
  | zero => exact .inl member
  | succ rounds ih =>
      rw [pollLoop] at member
      split at member
      · exact .inl member
      split at member
      · exact .inl member
      split at member
      · exact .inl member
      split at member
      · exact .inl member
      next next found =>
      split at member
      · exact ih _ _ _ _ member
      next due =>
      split at member
      · exact .inl member
      · next p rest popped =>
        rcases ih _ _ _ _ member with old | ⟨q, inside, same⟩
        · rcases List.mem_append.mp old with old | new
          · exact .inl old
          · obtain rfl := List.mem_singleton.mp new
            obtain ⟨inside, first⟩ := InboundQueue.pop_least popped
            refine .inr ⟨p, inside, rfl, ?_⟩
            have := first next (InboundQueue.peek_mem found).1
            omega
        · exact .inr ⟨q, (InboundQueue.pop_perm popped).mem_iff.mpr (List.mem_cons_of_mem p inside), same⟩

/-- A loop that delivers nothing leaves the queue alone. -/
theorem pollLoop_idle {maxTransmits now rounds : Nat} {ties : List Nat} {sleep : Option Nat}
    {queue : List PrioritizedInTransitData} {delivered : List DeliveredTransmit}
    (idle : (pollLoop maxTransmits now rounds ties sleep queue delivered).delivered = []) :
    delivered = [] ∧
      (pollLoop maxTransmits now rounds ties sleep queue delivered).queue = queue := by
  induction rounds generalizing ties sleep queue delivered with
  | zero => exact ⟨idle, rfl⟩
  | succ rounds ih =>
      rw [pollLoop] at idle ⊢
      split at idle
      · next full => exact ⟨idle, by rw [if_pos full]⟩
      next room =>
      rw [if_neg room]
      split at idle
      · next stop => exact ⟨idle, by rw [if_pos stop]⟩
      next go =>
      rw [if_neg go]
      split at idle
      · next early => exact ⟨idle, by rw [if_pos early]⟩
      next elapsed =>
      rw [if_neg elapsed]
      split at idle
      · exact ⟨idle, rfl⟩
      · split at idle
        · next later =>
          simp only [if_pos later]
          exact ih idle
        · next due =>
          split at idle
          · simp only [if_neg due]
            exact ⟨idle, trivial⟩
          · exact absurd (ih idle).1 (by simp)

theorem pollLoop_length (maxTransmits now rounds : Nat) (ties : List Nat) (sleep : Option Nat)
    (queue : List PrioritizedInTransitData) (delivered : List DeliveredTransmit)
    (room : delivered.length ≤ maxTransmits) :
    (pollLoop maxTransmits now rounds ties sleep queue delivered).delivered.length ≤
      maxTransmits := by
  induction rounds generalizing ties sleep queue delivered with
  | zero => exact room
  | succ rounds ih =>
      rw [pollLoop]
      split
      · exact room
      next more =>
      split
      · exact room
      split
      · exact room
      split
      · exact room
      split
      · exact ih _ _ _ _ room
      split
      · exact room
      · exact ih _ _ _ _ (by simp only [List.length_append, List.length_singleton]; omega)

/-- Only a loop that delivered nothing returns pending on its stored sleep. -/
theorem pollLoop_asleep {maxTransmits now rounds : Nat} {ties : List Nat} {sleep : Option Nat}
    {queue : List PrioritizedInTransitData} {delivered : List DeliveredTransmit}
    (asleep : (pollLoop maxTransmits now rounds ties sleep queue delivered).asleep = true) :
    (pollLoop maxTransmits now rounds ties sleep queue delivered).delivered = [] := by
  induction rounds generalizing ties sleep queue delivered with
  | zero => simp [pollLoop] at asleep
  | succ rounds ih =>
      rw [pollLoop] at asleep ⊢
      split at asleep
      · simp at asleep
      next room =>
      rw [if_neg room]
      split at asleep
      · simp at asleep
      next go =>
      rw [if_neg go]
      split at asleep
      · next early =>
        rw [if_pos early]
        by_contra some
        exact go ⟨by cases sleep <;> simp_all, some⟩
      next elapsed =>
      rw [if_neg elapsed]
      split at asleep
      · simp at asleep
      · split at asleep
        · next later =>
          simp only [if_pos later]
          exact ih asleep
        · next due =>
          split at asleep
          · simp at asleep
          · simp only [if_neg due]
            exact ih asleep

variable {this this' : NextPacketDelivery} {queue queue' : InboundQueue} {now : Nat}
  {ties : List Nat} {waker : Waker} {delivered : List DeliveredTransmit}

theorem poll_ready (polled : this.poll queue now ties waker = (.ready delivered, this', queue')) :
    (queue.queue.map (·.delivered)).Perm (delivered ++ queue'.queue.map (·.delivered)) ∧
      delivered ≠ [] := by
  simp only [poll] at polled
  have moved := pollLoop_perm this.maxTransmits now (queue.queue.length + 2) ties this.sleep
    queue.queue []
  split at polled
  · simp at polled
  · split at polled
    · simp at polled
    · next some =>
      simp only [Prod.mk.injEq, Poll.ready.injEq] at polled
      obtain ⟨rfl, -, rfl⟩ := polled
      exact ⟨by simpa using moved, some⟩

theorem poll_ready_due (polled : this.poll queue now ties waker = (.ready delivered, this', queue'))
    {x : DeliveredTransmit} (member : x ∈ delivered) :
    ∃ p ∈ queue.queue, p.delivered = x ∧ p.arrivalTime ≤ now := by
  simp only [poll] at polled
  split at polled
  · simp at polled
  · split at polled
    · simp at polled
    · simp only [Prod.mk.injEq, Poll.ready.injEq] at polled
      obtain ⟨rfl, -, -⟩ := polled
      exact (pollLoop_due _ _ _ _ _ _ _ member).resolve_left List.not_mem_nil

theorem poll_length (polled : this.poll queue now ties waker = (.ready delivered, this', queue')) :
    delivered.length ≤ this.maxTransmits := by
  simp only [poll] at polled
  have bound := pollLoop_length this.maxTransmits now (queue.queue.length + 2) ties this.sleep
    queue.queue [] (Nat.zero_le _)
  split at polled
  · simp at polled
  · split at polled
    · simp at polled
    · simp only [Prod.mk.injEq, Poll.ready.injEq] at polled
      exact polled.1 ▸ bound

theorem poll_pending (polled : this.poll queue now ties waker = (.pending, this', queue')) :
    queue'.queue = queue.queue := by
  simp only [poll] at polled
  split at polled
  · next asleep =>
    simp only [Prod.mk.injEq, true_and] at polled
    obtain ⟨-, rfl⟩ := polled
    exact (pollLoop_idle (pollLoop_asleep asleep)).2
  · split at polled
    · next idle =>
      simp only [Prod.mk.injEq, true_and] at polled
      obtain ⟨-, rfl⟩ := polled
      exact (pollLoop_idle idle).2
    · simp at polled

theorem poll_subset (this : NextPacketDelivery) (queue : InboundQueue) (now : Nat)
    (ties : List Nat) (waker : Waker) : (this.poll queue now ties waker).2.2.queue ⊆ queue.queue := by
  have subset := pollLoop_subset this.maxTransmits now (queue.queue.length + 2) ties this.sleep
    queue.queue []
  simp only [poll]
  split
  · exact subset
  · split <;> exact subset

theorem poll_ready_wakers
    (polled : this.poll queue now ties waker = (.ready delivered, this', queue')) :
    queue'.notifyNewTransmits = queue.notifyNewTransmits := by
  simp only [poll] at polled
  split at polled
  · simp at polled
  · split at polled
    · simp at polled
    · simp only [Prod.mk.injEq] at polled
      obtain ⟨-, -, rfl⟩ := polled
      rfl

theorem poll_maxTransmits (this : NextPacketDelivery) (queue : InboundQueue) (now : Nat)
    (ties : List Nat) (waker : Waker) :
    (this.poll queue now ties waker).2.1.maxTransmits = this.maxTransmits := by
  simp only [poll]
  split
  · rfl
  · split <;> rfl

/-! A queue that is in the order of delivery, without ties, is delivered from its front. -/

theorem least_inOrder {first : PrioritizedInTransitData} {rest : List PrioritizedInTransitData}
    (inOrder : (first :: rest).Pairwise fun p q => q.notAfter p = false) :
    InboundQueue.least (first :: rest) = [first] := by
  obtain ⟨later, -⟩ := List.pairwise_cons.mp inOrder
  have before (q : PrioritizedInTransitData) (member : q ∈ rest) : first.notAfter q = true :=
    (first.notAfter_total q).resolve_right fun after => by simp [later q member] at after
  have self : first.notAfter first = true := (first.notAfter_total first).elim id id
  have none : rest.filter (fun p => (first :: rest).all p.notAfter) = [] := by
    refine List.filter_eq_nil_iff.mpr fun q member => ?_
    simp [later q member]
  have all : (first :: rest).all first.notAfter = true := by
    refine List.all_eq_true.mpr fun q member => ?_
    rcases List.mem_cons.mp member with rfl | member
    · exact self
    · exact before q member
  rw [InboundQueue.least, List.filter_cons, if_pos all, none]

theorem pop_inOrder (tie : Nat) {first : PrioritizedInTransitData}
    {rest : List PrioritizedInTransitData}
    (inOrder : (first :: rest).Pairwise fun p q => q.notAfter p = false) :
    InboundQueue.pop tie (first :: rest) = some (first, rest) := by
  simp [InboundQueue.pop, least_inOrder inOrder, Nat.mod_one]

theorem pollLoop_inOrder (maxTransmits now rounds : Nat) (ties : List Nat) (sleep : Option Nat)
    (queue : List PrioritizedInTransitData) (delivered : List DeliveredTransmit)
    (inOrder : queue.Pairwise fun p q => q.notAfter p = false) :
    let ended := pollLoop maxTransmits now rounds ties sleep queue delivered
    ended.queue <:+ queue ∧ ended.delivered ++ ended.queue.map (·.delivered) =
      delivered ++ queue.map (·.delivered) := by
  dsimp only
  induction rounds generalizing ties sleep queue delivered with
  | zero => exact ⟨List.suffix_refl _, rfl⟩
  | succ rounds ih =>
      unfold pollLoop
      split
      · exact ⟨List.suffix_refl _, rfl⟩
      split
      · exact ⟨List.suffix_refl _, rfl⟩
      split
      · exact ⟨List.suffix_refl _, rfl⟩
      split
      · exact ⟨List.suffix_refl _, rfl⟩
      · split
        · exact ih ties _ queue delivered inOrder
        · cases queue with
          | nil => exact ⟨List.suffix_refl _, rfl⟩
          | cons first rest =>
              rw [pop_inOrder _ inOrder]
              obtain ⟨suffix, same⟩ := ih ties.tail none rest (delivered ++ [first.delivered])
                (List.pairwise_cons.mp inOrder).2
              exact ⟨suffix.trans (List.suffix_cons first rest), by simpa using same⟩

theorem poll_inOrder (inOrder : queue.queue.Pairwise fun p q => q.notAfter p = false)
    (polled : this.poll queue now ties waker = (.ready delivered, this', queue')) :
    queue'.queue <:+ queue.queue ∧
      queue.queue.map (·.delivered) = delivered ++ queue'.queue.map (·.delivered) := by
  obtain ⟨suffix, same⟩ := pollLoop_inOrder this.maxTransmits now (queue.queue.length + 2) ties
    this.sleep queue.queue [] inOrder
  simp only [poll] at polled
  split at polled
  · simp at polled
  · split at polled
    · simp at polled
    · simp only [Prod.mk.injEq, Poll.ready.injEq] at polled
      obtain ⟨rfl, -, rfl⟩ := polled
      exact ⟨suffix, same.symm⟩

/-! The four cases of a poll: asleep, nothing queued, nothing due, something due. -/

theorem poll_asleep {deadline : Nat} (positive : 0 < this.maxTransmits)
    (stored : this.sleep = some deadline) (early : now < deadline) :
    this.poll queue now ties waker = (.pending, this, queue) := by
  have ended : pollLoop this.maxTransmits now (queue.queue.length + 2) ties this.sleep
      queue.queue [] = ⟨true, this.sleep, queue.queue, []⟩ := by
    rw [pollLoop]
    simp [stored, early, Nat.ne_of_gt positive]
  simp [poll, ended]

/-- No sleep is stored, or it has elapsed. -/
def Elapsed (this : NextPacketDelivery) (now : Nat) : Prop :=
  ∀ deadline, this.sleep = some deadline → deadline ≤ now

theorem Elapsed.any {now : Nat} (elapsed : this.Elapsed now) :
    this.sleep.any (now < ·) = false := by
  cases stored : this.sleep with
  | none => rfl
  | some deadline => simpa using elapsed deadline stored

theorem poll_empty (positive : 0 < this.maxTransmits) (elapsed : this.Elapsed now)
    (empty : queue.queue = []) : this.poll queue now ties waker =
      (.pending, { this with sleep := none },
        { queue with notifyNewTransmits := queue.notifyNewTransmits ++ [waker] }) := by
  have ended : pollLoop this.maxTransmits now (queue.queue.length + 2) ties this.sleep
      queue.queue [] = ⟨false, none, queue.queue, []⟩ := by
    rw [pollLoop]
    simp [elapsed.any, Nat.ne_of_gt positive, empty, InboundQueue.peek, InboundQueue.least]
  simp [poll, ended]

theorem poll_early {next : PrioritizedInTransitData} (positive : 0 < this.maxTransmits)
    (elapsed : this.Elapsed now) (first : InboundQueue.peek queue.queue = some next)
    (early : now < next.arrivalTime) : this.poll queue now ties waker =
      (.pending, { this with sleep := some next.arrivalTime }, queue) := by
  have ended : pollLoop this.maxTransmits now (queue.queue.length + 2) ties this.sleep
      queue.queue [] = ⟨true, some next.arrivalTime, queue.queue, []⟩ := by
    rw [pollLoop]
    simp only [List.length_nil, Nat.le_zero, Nat.ne_of_gt positive, if_false, ne_eq,
      not_true_eq_false, and_false, elapsed.any, Bool.false_eq_true, first, early, if_true]
    rw [pollLoop]
    simp [Nat.ne_of_gt positive, early]
  simp [poll, ended]

theorem poll_due (ties : List Nat) (waker : Waker) {next : PrioritizedInTransitData} (positive : 0 < this.maxTransmits)
    (elapsed : this.Elapsed now) (first : InboundQueue.peek queue.queue = some next)
    (due : next.arrivalTime ≤ now) :
    ∃ delivered, (this.poll queue now ties waker).1 = .ready delivered := by
  have some : queue.queue ≠ [] := List.ne_nil_of_mem (InboundQueue.peek_mem first).1
  obtain ⟨popped, found⟩ := Option.isSome_iff_exists.mp (InboundQueue.pop_isSome
    (ties.headD 0) some)
  have busy : (pollLoop this.maxTransmits now (queue.queue.length + 2) ties this.sleep
      queue.queue []).delivered ≠ [] := by
    intro idle
    rw [pollLoop] at idle
    simp only [List.length_nil, Nat.le_zero, Nat.ne_of_gt positive, if_false, ne_eq,
      not_true_eq_false, and_false, elapsed.any, Bool.false_eq_true, first, Nat.not_lt.mpr due,
      found] at idle
    exact absurd (pollLoop_idle idle).1 (by simp)
  have awake : (pollLoop this.maxTransmits now (queue.queue.length + 2) ties this.sleep
      queue.queue []).asleep ≠ true := fun asleep => busy (pollLoop_asleep asleep)
  simp [poll, busy, awake]

end NextPacketDelivery

end Workbench.Network
