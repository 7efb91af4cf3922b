import Mathlib.Data.List.Basic

/-! Competitors in a queue that is served from its front.

One that has had a turn, and needs more of them, goes to the end of the queue. So of
two competitors the one that needs fewer turns is done first, and of two that need as
many the one that is nearer to the front. -/

set_option autoImplicit false

namespace Workbench.Library

variable {α : Type} [DecidableEq α] {queue rest woken : List α} {m n : Nat} {a b c : α}

/-- A competitor that needs `m` turns is done before another one that needs `n`. -/
structure Ahead (queue : List α) (m n : Nat) (a b : α) : Prop where
  queued : a ∈ queue
  first : m < n ∨ m = n ∧ queue.idxOf a < queue.idxOf b

theorem Ahead.of_lt (queued : a ∈ queue) (fewer : m < n) : Ahead queue m n a b :=
  ⟨queued, .inl fewer⟩

theorem idxOf_le_append (queue woken : List α) (b : α) :
    queue.idxOf b ≤ (queue ++ woken).idxOf b := by
  by_cases inside : b ∈ queue
  · exact Nat.le_of_eq (List.idxOf_append_of_mem inside).symm
  · rw [List.idxOf_append_of_notMem inside, List.idxOf_eq_length inside]
    exact Nat.le_add_right _ _

/-- Those who come to the end of the queue do not matter. -/
theorem Ahead.append (ahead : Ahead queue m n a b) (woken : List α) :
    Ahead (queue ++ woken) m n a b := by
  refine ⟨List.mem_append_left _ ahead.queued, ahead.first.imp_right fun ⟨same, before⟩ => ?_⟩
  rw [List.idxOf_append_of_mem ahead.queued]
  exact ⟨same, Nat.lt_of_lt_of_le before (idxOf_le_append queue woken b)⟩

/-- The turn of a third one brings both forward. -/
theorem Ahead.pop (ahead : Ahead (c :: rest) m n a b) (first : c ≠ a) (second : c ≠ b) :
    Ahead rest m n a b := by
  refine ⟨(List.mem_cons.mp ahead.queued).resolve_left first.symm,
    ahead.first.imp_right fun ⟨same, before⟩ => ⟨same, ?_⟩⟩
  rw [List.idxOf_cons_ne _ first, List.idxOf_cons_ne _ second] at before
  exact Nat.lt_of_succ_lt_succ before

/-- One that is queued is ahead of one that comes to the end and needs no fewer turns. -/
theorem Ahead.enter (queued : a ∈ rest) (absent : b ∉ rest) (fewer : m ≤ n) (woken : List α) :
    Ahead (rest ++ woken) m n a b := by
  refine ⟨List.mem_append_left _ queued, (Nat.lt_or_eq_of_le fewer).imp_right fun same => ⟨same, ?_⟩⟩
  rw [List.idxOf_append_of_mem queued, List.idxOf_append_of_notMem absent]
  exact Nat.lt_of_lt_of_le (List.idxOf_lt_length_of_mem queued) (Nat.le_add_right _ _)

/-- A turn of the second one, which goes to the end. -/
theorem Ahead.behind (ahead : Ahead (b :: rest) m (n + 1) a b) (differs : b ≠ a) (absent : b ∉ rest)
    (woken : List α) : Ahead (rest ++ woken) m n a b := by
  have fewer : m < n + 1 := ahead.first.resolve_right fun ⟨_, before⟩ => by
    simp at before
  exact .enter ((List.mem_cons.mp ahead.queued).resolve_left differs.symm) absent
    (Nat.le_of_lt_succ fewer) woken

/-- The second one does not get its last turn before the first one has had all of its. -/
theorem Ahead.not_last (ahead : Ahead (b :: rest) (m + 1) 1 a b) : False := by
  rcases ahead.first with fewer | ⟨-, before⟩
  · omega
  · simp at before

/-- One at the front is ahead of another one that needs no fewer turns. -/
theorem Ahead.front (fewer : m ≤ n) (differs : a ≠ b) (rest : List α) : Ahead (a :: rest) m n a b := by
  refine ⟨List.mem_cons_self, (Nat.lt_or_eq_of_le fewer).imp_right fun same => ⟨same, ?_⟩⟩
  rw [List.idxOf_cons_self, List.idxOf_cons_ne _ differs]
  exact Nat.succ_pos _

theorem Ahead.le (ahead : Ahead queue m n a b) : m ≤ n :=
  ahead.first.elim Nat.le_of_lt fun same => Nat.le_of_eq same.1

/-- What stands before another element is met before it. -/
theorem idxOf_lt_of_mem_takeWhile (before : a ∈ queue.takeWhile (· ≠ b)) :
    queue.idxOf a < queue.idxOf b := by
  induction queue with
  | nil => cases before
  | cons c rest ih =>
      by_cases here : c = b
      · simp [here] at before
      · rw [List.idxOf_cons_ne _ here]
        by_cases same : c = a
        · rw [same, List.idxOf_cons_self]
          exact Nat.succ_pos _
        · rw [List.idxOf_cons_ne _ same]
          rw [List.takeWhile_cons_of_pos (by simpa using here)] at before
          exact Nat.succ_lt_succ (ih ((List.mem_cons.mp before).resolve_left (Ne.symm same)))

end Workbench.Library
