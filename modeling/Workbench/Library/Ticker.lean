import Mathlib.Algebra.Order.Floor.Div
import Mathlib.Algebra.Order.Ring.Nat
import Mathlib.Data.List.Basic

/-! A task that does something at regular intervals: it starts at some time, and goes on for some
duration. It can be late. Where nothing is late, what it does is an arithmetic progression. -/

set_option autoImplicit false

namespace Workbench.Library

structure Pace where
  startAt : Nat
  interval : Nat
  duration : Nat
  deriving DecidableEq, Repr

inductive Phase where
  | starting
  | sleeping (since wake : Nat)
  | done
  deriving DecidableEq, Repr

/-- A task with the times at which it did something, newest last. -/
structure Ticker where
  phase : Phase
  ticks : List Nat
  deriving DecidableEq, Repr

namespace Ticker

variable {pace : Pace} {this next : Ticker} {now now' created : Nat}

def new : Ticker := ⟨.starting, []⟩

/-- From the condition of the loop to the next time it sleeps. -/
def loop (pace : Pace) (since now : Nat) (ticks : List Nat) : Ticker :=
  if now - since < pace.duration then ⟨.sleeping since (now + pace.interval), ticks ++ [now]⟩
  else ⟨.done, ticks⟩

def poll (pace : Pace) (now : Nat) (this : Ticker) : Option Ticker :=
  match this.phase with
  | .starting => if now < pace.startAt then none else some (loop pace now now this.ticks)
  | .sleeping since wake => if now < wake then none else some (loop pace since now this.ticks)
  | .done => none

/-- A task that goes on is done, or does something and sleeps again. -/
theorem poll_cases (polled : this.poll pace now = some next) :
    next.phase = .done ∧ next.ticks = this.ticks ∨
      next.phase ≠ .done ∧ next.ticks = this.ticks ++ [now] := by
  have looped (since : Nat) : (loop pace since now this.ticks).phase = .done ∧
      (loop pace since now this.ticks).ticks = this.ticks ∨
      (loop pace since now this.ticks).phase ≠ .done ∧
        (loop pace since now this.ticks).ticks = this.ticks ++ [now] := by
    unfold loop
    split <;> simp
  unfold poll at polled
  split at polled
  · rw [Option.ite_none_left_eq_some, Option.some.injEq] at polled
    exact polled.2 ▸ looped now
  · next since wake _ =>
    rw [Option.ite_none_left_eq_some, Option.some.injEq] at polled
    exact polled.2 ▸ looped since
  · cases polled

/-- The time at which the task can go on. -/
def wake? (pace : Pace) (this : Ticker) : Option Nat :=
  match this.phase with
  | .starting => some pace.startAt
  | .sleeping _ wake => some wake
  | .done => none

/-- The first tick, and from it on at least an interval between any two. -/
structure Spaced (pace : Pace) (since now : Nat) (ticks : List Nat) : Prop where
  started : pace.startAt ≤ since
  passed : since ≤ now
  apart : ticks.Pairwise fun t t' => t + pace.interval ≤ t'
  within : ∀ t ∈ ticks, since ≤ t ∧ t ≤ now ∧ t < since + pace.duration

/-- A task that may have been late. -/
inductive Ticks (pace : Pace) (now : Nat) : Ticker → Prop where
  | starting : Ticks pace now new
  | sleeping {since wake : Nat} {ticks : List Nat} (spaced : Spaced pace since now ticks)
      (later : ∀ t ∈ ticks, t + pace.interval ≤ wake) : Ticks pace now ⟨.sleeping since wake, ticks⟩
  | done {since : Nat} {ticks : List Nat} (spaced : Spaced pace since now ticks) :
      Ticks pace now ⟨.done, ticks⟩

theorem Spaced.wait {since : Nat} {ticks : List Nat} (spaced : Spaced pace since now ticks)
    (later : now ≤ now') : Spaced pace since now' ticks where
  started := spaced.started
  passed := spaced.passed.trans later
  apart := spaced.apart
  within t member := by
    obtain ⟨after, passed, before⟩ := spaced.within t member
    exact ⟨after, passed.trans later, before⟩

theorem Ticks.wait (ticks : Ticks pace now this) (later : now ≤ now') : Ticks pace now' this := by
  cases ticks with
  | starting => exact .starting
  | sleeping spaced wakes => exact .sleeping (spaced.wait later) wakes
  | done spaced => exact .done (spaced.wait later)

theorem Ticks.loop {since : Nat} {ticks : List Nat} (spaced : Spaced pace since now ticks)
    (later : ∀ t ∈ ticks, t + pace.interval ≤ now) : Ticks pace now (loop pace since now ticks) := by
  unfold Ticker.loop
  split
  · next within =>
    refine .sleeping ⟨spaced.started, spaced.passed, ?_, ?_⟩ ?_
    · rw [List.pairwise_append]
      exact ⟨spaced.apart, List.pairwise_singleton _ _, by simpa using later⟩
    · intro t member
      rcases List.mem_append.mp member with old | new
      · exact spaced.within t old
      · obtain rfl := List.mem_singleton.mp new
        have := spaced.passed
        omega
    · intro t member
      rcases List.mem_append.mp member with old | new
      · exact (later t old).trans (Nat.le_add_right _ _)
      · obtain rfl := List.mem_singleton.mp new
        exact le_rfl
  · exact .done spaced

theorem Ticks.poll (ticks : Ticks pace now this) (polled : this.poll pace now = some next) :
    Ticks pace now next := by
  cases ticks with
  | starting =>
      simp only [Ticker.poll, new, Option.ite_none_left_eq_some, Option.some.injEq, not_lt] at polled
      obtain ⟨due, rfl⟩ := polled
      exact .loop ⟨due, le_rfl, .nil, List.forall_mem_nil _⟩ (List.forall_mem_nil _)
  | sleeping spaced later =>
      simp only [Ticker.poll, Option.ite_none_left_eq_some, Option.some.injEq, not_lt] at polled
      obtain ⟨due, rfl⟩ := polled
      exact .loop spaced fun t member => (later t member).trans due
  | done spaced => cases polled

/-- Times that are at least an interval apart: each is as many intervals after the first as there
are times before it, or later. -/
theorem le_of_apart {interval first : Nat} {times : List Nat}
    (apart : times.Pairwise fun t t' => t + interval ≤ t') (after : ∀ t ∈ times, first ≤ t) {k t : Nat}
    (there : times[k]? = some t) : first + k * interval ≤ t := by
  induction k generalizing t with
  | zero => simpa using after t (List.mem_of_getElem? there)
  | succ k ih =>
      obtain ⟨bound, rfl⟩ := List.getElem?_eq_some_iff.mp there
      have before := ih (List.getElem?_eq_getElem (Nat.lt_of_succ_lt bound))
      have next := List.pairwise_iff_getElem.mp apart k (k + 1)
        (Nat.lt_of_succ_lt bound) bound (Nat.lt_succ_self k)
      rw [Nat.add_mul]
      omega

/-- No more of them are within some time than intervals fit, and one. -/
theorem length_of_apart {interval length first : Nat} (positive : 0 < interval) {times : List Nat}
    (apart : times.Pairwise fun t t' => t + interval ≤ t') :
    (times.filter fun t => first ≤ t ∧ t ≤ first + length).length ≤ length / interval + 1 := by
  have inside : ∀ t ∈ times.filter (fun t => first ≤ t ∧ t ≤ first + length),
      first ≤ t ∧ t ≤ first + length := fun t member => by simpa using (List.mem_filter.mp member).2
  have apart := apart.filter fun t => first ≤ t ∧ t ≤ first + length
  generalize times.filter (fun t => first ≤ t ∧ t ≤ first + length) = near at inside apart
  cases count : near.length with
  | zero => exact Nat.zero_le _
  | succ k =>
      have last := List.getElem?_eq_getElem (show k < near.length by omega)
      have late := le_of_apart apart (fun t member => (inside t member).1) last
      have early := (inside _ (List.mem_of_getElem? last)).2
      have fits : k ≤ length / interval := (Nat.le_div_iff_mul_le positive).mpr (by omega)
      omega

/-- There are no more ticks than intervals begin in the duration. -/
theorem Spaced.lt_duration {since : Nat} {ticks : List Nat} (spaced : Spaced pace since now ticks) {k : Nat}
    (bound : k < ticks.length) : k * pace.interval < pace.duration := by
  have tick := List.getElem?_eq_getElem bound
  have after := le_of_apart spaced.apart (fun t member => (spaced.within t member).1) tick
  have before := (spaced.within _ (List.mem_of_getElem? tick)).2.2
  omega

/-- The intervals that begin in the duration bound the number of ticks. -/
theorem Ticks.length_le (ticks : Ticks pace now this) (positive : 0 < pace.interval) :
    this.ticks.length ≤ pace.duration ⌈/⌉ pace.interval := by
  have bounded {since : Nat} {times : List Nat} (spaced : Spaced pace since now times) :
      times.length ≤ pace.duration ⌈/⌉ pace.interval := by
    by_contra more
    have inside := spaced.lt_duration (not_le.mp more)
    have covers : pace.duration ≤ pace.interval * (pace.duration ⌈/⌉ pace.interval) :=
      (ceilDiv_le_iff_le_mul positive).mp le_rfl
    rw [Nat.mul_comm] at inside
    omega
  cases ticks with
  | starting => exact Nat.zero_le _
  | sleeping spaced later => exact bounded spaced
  | done spaced => exact bounded spaced

theorem Ticks.length_near (ticks : Ticks pace now this) (positive : 0 < pace.interval)
    (first length : Nat) : (this.ticks.filter fun t => first ≤ t ∧ t ≤ first + length).length ≤
      length / pace.interval + 1 := by
  cases ticks with
  | starting => exact Nat.zero_le _
  | sleeping spaced later => exact length_of_apart positive spaced.apart
  | done spaced => exact length_of_apart positive spaced.apart

/-! Nothing is late. -/

/-- The first ticks of a progression. -/
def progression (origin interval count : Nat) : List Nat :=
  (List.range count).map fun k => origin + k * interval

/-- A task that was created at some time and has never been late. -/
inductive Punctual (pace : Pace) (created now : Nat) : Ticker → Prop where
  | starting (since : created ≤ now) (early : now ≤ max created pace.startAt) :
      Punctual pace created now new
  | sleeping {count : Nat} (early : now ≤ max created pace.startAt + count * pace.interval)
      (within : ∀ k < count, k * pace.interval < pace.duration) :
      Punctual pace created now ⟨.sleeping (max created pace.startAt)
        (max created pace.startAt + count * pace.interval),
        progression (max created pace.startAt) pace.interval count⟩
  | done {count : Nat} (within : ∀ k < count, k * pace.interval < pace.duration)
      (ended : pace.duration ≤ count * pace.interval) :
      Punctual pace created now ⟨.done, progression (max created pace.startAt) pace.interval count⟩

theorem progression_succ (origin interval count : Nat) :
    progression origin interval (count + 1) =
      progression origin interval count ++ [origin + count * interval] := by
  simp [progression, List.range_succ]

/-- Time may go by until the task can go on. -/
theorem Punctual.wait (punctual : Punctual pace created now this) (later : now ≤ now')
    (early : ∀ wake ∈ this.wake? pace, now' ≤ wake) : Punctual pace created now' this := by
  cases punctual with
  | starting since =>
      have := early pace.startAt rfl
      exact .starting (since.trans later) (by omega)
  | sleeping _ within => exact .sleeping (early _ rfl) within
  | done within ended => exact .done within ended

theorem Punctual.loop {count : Nat} (within : ∀ k < count, k * pace.interval < pace.duration) :
    Punctual pace created (max created pace.startAt + count * pace.interval)
      (loop pace (max created pace.startAt) (max created pace.startAt + count * pace.interval)
        (progression (max created pace.startAt) pace.interval count)) := by
  unfold Ticker.loop
  rw [Nat.add_sub_cancel_left]
  split
  · next more =>
    rw [← progression_succ, Nat.add_assoc, ← Nat.succ_mul]
    refine .sleeping ?_ fun k below => ?_
    · rw [Nat.succ_mul]
      omega
    · rcases Nat.lt_succ_iff_lt_or_eq.mp below with before | rfl
      · exact within k before
      · exact more
  · next ended => exact .done within (Nat.le_of_not_lt ended)

theorem Punctual.poll (punctual : Punctual pace created now this)
    (polled : this.poll pace now = some next) : Punctual pace created now next := by
  cases punctual with
  | starting since early =>
      simp only [Ticker.poll, new, Option.ite_none_left_eq_some, Option.some.injEq, not_lt] at polled
      obtain ⟨due, rfl⟩ := polled
      obtain rfl : now = max created pace.startAt := by omega
      have started := @Punctual.loop pace created 0 nofun
      simpa [progression] using started
  | sleeping early within =>
      simp only [Ticker.poll, Option.ite_none_left_eq_some, Option.some.injEq, not_lt] at polled
      obtain ⟨due, rfl⟩ := polled
      obtain rfl := le_antisymm early due
      exact .loop within
  | done within ended => cases polled

/-- As many intervals as begin in the duration. -/
theorem eq_ceilDiv {count : Nat} (within : ∀ k < count, k * pace.interval < pace.duration)
    (ended : pace.duration ≤ count * pace.interval) : count = pace.duration ⌈/⌉ pace.interval := by
  rcases Nat.eq_zero_or_pos pace.interval with zero | positive
  · rw [zero, Nat.mul_zero, Nat.le_zero] at ended
    rw [ended, zero_ceilDiv]
    by_contra some
    have := within 0 (Nat.pos_of_ne_zero some)
    omega
  · apply le_antisymm
    · by_contra more
      have inside := within _ (not_le.mp more)
      have covers : pace.duration ≤ pace.interval * (pace.duration ⌈/⌉ pace.interval) :=
        (ceilDiv_le_iff_le_mul positive).mp le_rfl
      rw [Nat.mul_comm] at inside
      omega
    · rw [ceilDiv_le_iff_le_mul positive, Nat.mul_comm]
      exact ended

/-- A punctual task has done something at the begin of its first intervals, and of all of them
once it is done. -/
theorem Punctual.ticks (punctual : Punctual pace created now this) :
    (∃ count, this.ticks = progression (max created pace.startAt) pace.interval count) ∧
      (this.phase = .done → this.ticks =
        progression (max created pace.startAt) pace.interval (pace.duration ⌈/⌉ pace.interval)) := by
  cases punctual with
  | starting => exact ⟨⟨0, rfl⟩, nofun⟩
  | @sleeping count early within => exact ⟨⟨count, rfl⟩, nofun⟩
  | @done count within ended => exact ⟨⟨count, rfl⟩, fun _ => eq_ceilDiv within ended ▸ rfl⟩

/-! The same things are done at each tick. -/

section

variable {Item : Type} (batch : List Item) (ticks : List Nat)

def batches : List (Nat × Item) := ticks.flatMap fun t => batch.map fun item => (t, item)

theorem batches_concat (t : Nat) :
    batches batch (ticks ++ [t]) = batches batch ticks ++ batch.map fun item => (t, item) := by
  simp [batches]

theorem filter_batches (test : Nat → Bool) :
    (batches batch ticks).filter (test ·.1) = batches batch (ticks.filter test) := by
  unfold batches
  induction ticks with
  | nil => rfl
  | cons t ticks ih =>
      rw [List.flatMap_cons, List.filter_append, ih]
      cases counts : test t with
      | false =>
          have none : (batch.map fun item => (t, item)).filter (test ·.1) = [] := by
            simp [List.filter_eq_nil_iff, counts]
          rw [none, List.filter_cons_of_neg (by simpa using counts), List.nil_append]
      | true =>
          have all : (batch.map fun item => (t, item)).filter (test ·.1) =
              batch.map fun item => (t, item) := by
            simp [List.filter_eq_self, counts]
          rw [all, List.filter_cons_of_pos counts, List.flatMap_cons]

theorem sum_batches (size : Item → Nat) :
    ((batches batch ticks).map (size ·.2)).sum = ticks.length * (batch.map size).sum := by
  unfold batches
  induction ticks with
  | nil => simp
  | cons t ticks ih =>
      have first : (batch.map fun item => (t, item)).map (size ·.2) = batch.map size := by
        rw [List.map_map]
        rfl
      rw [List.flatMap_cons, List.map_append, List.sum_append, ih, first, List.length_cons,
        Nat.succ_mul, Nat.add_comm]

end

end Ticker

end Workbench.Library
