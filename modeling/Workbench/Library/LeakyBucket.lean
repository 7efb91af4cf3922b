import Mathlib.Algebra.Order.Ring.Nat
import Mathlib.Algebra.Order.BigOperators.Group.List
import Mathlib.Algebra.Order.Monoid.Canonical.Defs
import Mathlib.Algebra.Order.Sub.Basic
import Mathlib.Data.List.Induction

/-! Leaky buckets.

An arrival at a time adds a cost, worked off one unit of cost per unit of time.
The horizon is the time at which everything that arrived is worked off. If no
arrival pushes the horizon further than a burst beyond its own time, then the
arrivals of any window cost at most the window's length and one burst.

What is worked off one after the other takes up slots of time, pairs of a start and a
length. From the first one to the end of the last one, time is either busy or idle. -/

set_option autoImplicit false

namespace Workbench.Library

variable {T : Type} [AddCommMonoid T] [LinearOrder T]

/-- The horizon after one arrival, a pair of its time and its cost. -/
def finish (horizon : T) (arrival : T × T) : T := max horizon arrival.1 + arrival.2

def horizon (start : T) (arrivals : List (T × T)) : T := arrivals.foldl finish start

@[simp] theorem horizon_nil (start : T) : horizon start [] = start := rfl

@[simp] theorem horizon_concat (start : T) (arrivals : List (T × T)) (last : T × T) :
    horizon start (arrivals ++ [last]) = finish (horizon start arrivals) last := by
  simp [horizon]

/-- The cost of the arrivals of a closed window. -/
def windowCost (first last : T) (arrivals : List (T × T)) : T :=
  ((arrivals.filter fun a => first ≤ a.1 ∧ a.1 ≤ last).map Prod.snd).sum

@[simp] theorem windowCost_nil (first last : T) : windowCost first last [] = 0 := rfl

theorem windowCost_concat (first last : T) (arrivals : List (T × T)) (a : T × T) :
    windowCost first last (arrivals ++ [a]) =
      windowCost first last arrivals + if first ≤ a.1 ∧ a.1 ≤ last then a.2 else 0 := by
  by_cases inside : first ≤ a.1 ∧ a.1 ≤ last <;> simp [windowCost, inside]

/-- No arrival pushes the horizon more than a burst beyond its own time. -/
def Bounded (start burst : T) (arrivals : List (T × T)) : Prop :=
  ∀ earlier a later, arrivals = earlier ++ a :: later →
    horizon start (earlier ++ [a]) ≤ a.1 + burst

omit [AddCommMonoid T] [LinearOrder T] in
theorem split_concat {arrivals earlier later : List (T × T)} {last a : T × T}
    (split : arrivals ++ [last] = earlier ++ a :: later) :
    (earlier = arrivals ∧ a = last) ∨ ∃ rest, arrivals = earlier ++ a :: rest := by
  rcases List.eq_nil_or_concat later with none | ⟨rest, other, some⟩
  · subst none
    obtain ⟨same, ends⟩ := List.append_inj' split rfl
    exact .inl ⟨same.symm, (List.cons.inj ends).1.symm⟩
  · subst some
    refine .inr ⟨rest, ?_⟩
    rw [List.concat_eq_append, ← List.cons_append, ← List.append_assoc] at split
    exact (List.append_inj' split rfl).1

theorem Bounded.init {start burst : T} {arrivals : List (T × T)} {last : T × T}
    (bounded : Bounded start burst (arrivals ++ [last])) : Bounded start burst arrivals := by
  intro earlier a later split
  exact bounded earlier a (later ++ [last]) (by simp [split])

theorem Bounded.last {start burst : T} {arrivals : List (T × T)} {last : T × T}
    (bounded : Bounded start burst (arrivals ++ [last])) :
    finish (horizon start arrivals) last ≤ last.1 + burst := by
  simpa using bounded arrivals last [] rfl

theorem le_finish [CanonicallyOrderedAdd T] (before : T) (a : T × T) :
    before ≤ finish before a :=
  (le_max_left before a.1).trans le_self_add

variable [IsOrderedCancelAddMonoid T] [CanonicallyOrderedAdd T]

/-- Everything that arrived in a window pushes the horizon past the window's start. -/
theorem windowCost_le_horizon (start first last : T) (arrivals : List (T × T))
    (some : ∃ a ∈ arrivals, first ≤ a.1 ∧ a.1 ≤ last) :
    first + windowCost first last arrivals ≤ horizon start arrivals := by
  induction arrivals using List.reverseRecOn with
  | nil => simp at some
  | append_singleton arrivals a ih =>
      rw [windowCost_concat, horizon_concat]
      by_cases earlier : ∃ a ∈ arrivals, first ≤ a.1 ∧ a.1 ≤ last
      · have before := ih earlier
        split
        · calc first + (windowCost first last arrivals + a.2)
              = first + windowCost first last arrivals + a.2 := (add_assoc _ _ _).symm
            _ ≤ horizon start arrivals + a.2 := add_le_add_left before a.2
            _ ≤ finish (horizon start arrivals) a :=
                add_le_add_left (le_max_left _ _) a.2
        · rw [add_zero]
          exact before.trans (le_finish _ a)
      · have none : windowCost first last arrivals = 0 := by
          have empty : arrivals.filter (fun a => first ≤ a.1 ∧ a.1 ≤ last) = [] := by
            rw [List.filter_eq_nil_iff]
            intro x member inside
            exact earlier ⟨x, member, by simpa using inside⟩
          rw [windowCost, empty, List.map_nil, List.sum_nil]
        have inside : first ≤ a.1 ∧ a.1 ≤ last := by
          obtain ⟨x, member, inside⟩ := some
          rcases List.mem_append.mp member with old | new
          · exact absurd ⟨x, old, inside⟩ earlier
          · exact List.mem_singleton.mp new ▸ inside
        rw [none, if_pos inside, zero_add]
        exact add_le_add_left (inside.1.trans (le_max_right _ _)) a.2

/-- The arrivals of any window cost at most its length and one burst. -/
theorem Bounded.windowCost_le {start burst : T} {arrivals : List (T × T)}
    (bounded : Bounded start burst arrivals) (first length : T) :
    windowCost first (first + length) arrivals ≤ length + burst := by
  induction arrivals using List.reverseRecOn with
  | nil => simp
  | append_singleton arrivals a ih =>
      by_cases inside : first ≤ a.1 ∧ a.1 ≤ first + length
      · have pushed := windowCost_le_horizon start first (first + length) (arrivals ++ [a])
          ⟨a, by simp, inside⟩
        have fits := bounded.last
        rw [horizon_concat] at pushed
        have : first + windowCost first (first + length) (arrivals ++ [a]) ≤
            first + (length + burst) :=
          calc first + windowCost first (first + length) (arrivals ++ [a])
              ≤ finish (horizon start arrivals) a := pushed
            _ ≤ a.1 + burst := fits
            _ ≤ first + length + burst := add_le_add_left inside.2 burst
            _ = first + (length + burst) := add_assoc _ _ _
        exact le_of_add_le_add_left this
      · rw [windowCost_concat, if_neg inside, add_zero]
        exact ih bounded.init

/-! Slots. -/

/-- No slot starts before an earlier one ends. -/
def InTurn (slots : List (T × T)) : Prop := slots.Pairwise fun slot next => slot.1 + slot.2 ≤ next.1

def busy (slots : List (T × T)) : T := (slots.map Prod.snd).sum

section Idle

variable [Sub T]

/-- The time between the slots. -/
def idle : List (T × T) → T
  | slot :: next :: slots => next.1 - (slot.1 + slot.2) + idle (next :: slots)
  | _ => 0

/-- The time from the start of the first slot to the end of the last one. -/
def span (slots : List (T × T)) : T :=
  match slots.head?, slots.getLast? with
  | some first, some last => last.1 + last.2 - first.1
  | _, _ => 0

variable [OrderedSub T]

theorem busy_add_idle_to {first last : T × T} {slots : List (T × T)}
    (inTurn : InTurn (first :: slots)) (ends : (first :: slots).getLast? = some last) :
    first.1 + (busy (first :: slots) + idle (first :: slots)) = last.1 + last.2 := by
  induction slots generalizing first with
  | nil =>
      obtain rfl : first = last := by simpa using ends
      simp [busy, idle]
  | cons next slots ih =>
      obtain ⟨after, later⟩ := List.pairwise_cons.mp inTurn
      have rest := ih later (by simpa using ends)
      have gap : first.1 + first.2 + (next.1 - (first.1 + first.2)) = next.1 :=
        add_tsub_cancel_of_le (after next List.mem_cons_self)
      calc first.1 + (busy (first :: next :: slots) + idle (first :: next :: slots))
          = first.1 + (first.2 + busy (next :: slots) +
              (next.1 - (first.1 + first.2) + idle (next :: slots))) := by simp [busy, idle]
        _ = first.1 + first.2 + (next.1 - (first.1 + first.2)) +
              (busy (next :: slots) + idle (next :: slots)) := by
            rw [add_assoc (first.1 + first.2), add_assoc first.1, add_assoc first.2,
              add_left_comm (busy (next :: slots))]
        _ = last.1 + last.2 := by rw [gap, rest]

/-- Between slots that are taken in turn, time is busy or idle. -/
theorem busy_add_idle {slots : List (T × T)} (inTurn : InTurn slots) :
    busy slots + idle slots = span slots := by
  cases slots with
  | nil => simp [busy, idle, span]
  | cons first slots =>
      obtain ⟨last, ends⟩ := Option.isSome_iff_exists.mp <|
        List.getLast?_isSome.mpr (List.cons_ne_nil first slots)
      rw [span, List.head?_cons, ends]
      dsimp only
      rw [← busy_add_idle_to inTurn ends, add_tsub_cancel_left]

end Idle

end Workbench.Library
