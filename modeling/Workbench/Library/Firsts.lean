import Mathlib.Data.Finset.Insert
import Mathlib.Order.Defs.LinearOrder

/-! The first entries of a list: for each key, and for a kind in the stable order of the
entries' times. -/

set_option autoImplicit false

namespace Workbench.Library

variable {α β Key Time : Type} [DecidableEq Key] [LinearOrder Time]

/-- The first entry of each key that has not been seen, and the keys seen in the end. -/
def firsts (seen : Finset Key) : List (Key × β) → List (Key × β) × Finset Key
  | [] => ([], seen)
  | entry :: entries =>
    if entry.1 ∈ seen then firsts seen entries
    else
      let (rest, seen) := firsts (insert entry.1 seen) entries
      (entry :: rest, seen)

theorem filter_firsts (seen : Finset Key) (k : Key) (entries : List (Key × β)) :
    (firsts seen entries).1.filter (·.1 = k) =
      if k ∈ seen then [] else (entries.find? (·.1 = k)).toList := by
  induction entries generalizing seen with
  | nil => simp [firsts]
  | cons entry entries ih =>
      unfold firsts
      by_cases here : entry.1 = k
      · subst here
        by_cases known : entry.1 ∈ seen
        · simp only [known, if_true, ih]
        · simp [known, ih]
      · by_cases known : entry.1 ∈ seen
        · simp only [known, if_true, ih, here, decide_false, Bool.false_eq_true, not_false_eq_true,
            List.find?_cons_of_neg]
        · simp [known, ih, here, Ne.symm here]

theorem mem_firsts (seen : Finset Key) (k : Key) (entries : List (Key × β)) :
    k ∈ (firsts seen entries).2 ↔ k ∈ seen ∨ (entries.find? (·.1 = k)).isSome = true := by
  induction entries generalizing seen with
  | nil => simp [firsts]
  | cons entry entries ih =>
      unfold firsts
      by_cases here : entry.1 = k
      · subst here
        by_cases known : entry.1 ∈ seen
        · simp [known, ih]
        · simp [known, ih]
      · by_cases known : entry.1 ∈ seen
        · simp only [known, if_true, ih, here, decide_false, Bool.false_eq_true, not_false_eq_true,
            List.find?_cons_of_neg]
        · simp [known, ih, here, Ne.symm here]

theorem firsts_subset (seen : Finset Key) (entries : List (Key × β)) :
    (firsts seen entries).1 ⊆ entries := by
  induction entries generalizing seen with
  | nil => exact List.Subset.refl _
  | cons entry entries ih =>
      unfold firsts
      split
      · exact List.Subset.trans (ih seen) (List.subset_cons_self _ _)
      · exact List.cons_subset_cons entry (ih _)

/-- The first entries with one more for each of the other keys that was not seen: those of
one key are its first entry, or as many as the others have of it. -/
theorem filter_firsts_append {key : β → Key} {make : Key → β} {entries : List (Key × β)}
    (keyed : ∀ entry ∈ entries, key entry.2 = entry.1) (made : ∀ k, key (make k) = k)
    (others : List Key) (k : Key) :
    ((firsts ∅ entries).1.map Prod.snd ++
        (others.filter (· ∉ (firsts ∅ entries).2)).map make).filter (key · = k) =
      match entries.find? (·.1 = k) with
      | some entry => [entry.2]
      | none => List.replicate (others.count k) (make k) := by
  have collected : ((firsts ∅ entries).1.map Prod.snd).filter (key · = k) =
      (entries.find? (·.1 = k)).toList.map Prod.snd := by
    have plain := filter_firsts ∅ k entries
    rw [if_neg (Finset.notMem_empty k)] at plain
    rw [List.filter_map, ← plain]
    refine congrArg _ (List.filter_congr fun entry member => ?_)
    simp [keyed entry (firsts_subset ∅ entries member)]
  rw [List.filter_append, collected, List.filter_map, List.filter_filter]
  simp only [Function.comp_apply, made]
  cases found : entries.find? (·.1 = k) with
  | some entry =>
      -- the key is seen, so it is not among the others that are left
      have seen := (mem_firsts ∅ k entries).mpr (.inr (by simp [found]))
      have nothing : others.filter (fun k' => decide (k' = k) && decide (k' ∉ (firsts ∅ entries).2)) = [] := by
        refine List.filter_eq_nil_iff.mpr fun k' _ => ?_
        simp only [Bool.and_eq_true, decide_eq_true_eq, not_and, not_not]
        rintro rfl
        exact seen
      rw [nothing]
      rfl
  | none =>
      -- no entry has the key, so all others of it are left
      have unseen : k ∉ (firsts ∅ entries).2 := by simp [mem_firsts, found]
      have every : others.filter (fun k' => decide (k' = k) && decide (k' ∉ (firsts ∅ entries).2)) =
          others.filter (· = k) := by
        refine List.filter_congr fun k' _ => ?_
        by_cases here : k' = k
        · simp [here, unseen]
        · simp [here]
      rw [every, List.filter_eq, List.map_replicate]
      rfl

/-- The entry of a kind with the least time, and of several with that time the first one. -/
def earliest (time : α → Time) (kind : α → Bool) : List α → Option α
  | [] => none
  | a :: entries =>
    if kind a then
      match earliest time kind entries with
      | some b => if time b < time a then some b else some a
      | none => some a
    else earliest time kind entries

theorem pairwise_sorted (time : α → Time) (entries : List α) :
    (entries.mergeSort fun a b => time a ≤ time b).Pairwise fun a b => time a ≤ time b := by
  have trans (a b c : α) (first : decide (time a ≤ time b) = true)
      (second : decide (time b ≤ time c) = true) : decide (time a ≤ time c) = true :=
    decide_eq_true ((of_decide_eq_true first).trans (of_decide_eq_true second))
  have total (a b : α) : (decide (time a ≤ time b) || decide (time b ≤ time a)) = true := by
    simp [le_total]
  have ordered := List.pairwise_mergeSort trans total entries
  exact ordered.imp of_decide_eq_true

/-- It is the first one of its kind once the entries are sorted. -/
theorem find?_mergeSort (time : α → Time) (kind : α → Bool) (entries : List α) :
    (entries.mergeSort fun a b => time a ≤ time b).find? kind = earliest time kind entries := by
  have trans (a b c : α) (first : decide (time a ≤ time b) = true)
      (second : decide (time b ≤ time c) = true) : decide (time a ≤ time c) = true :=
    decide_eq_true ((of_decide_eq_true first).trans (of_decide_eq_true second))
  have total (a b : α) : (decide (time a ≤ time b) || decide (time b ≤ time a)) = true := by
    simp [le_total]
  induction entries with
  | nil => simp [earliest]
  | cons a entries ih =>
      -- stability: the new entry goes behind exactly the entries before it in time
      obtain ⟨front, back, sorted, rest, before⟩ := List.mergeSort_cons trans total a entries
      have ordered := List.pairwise_mergeSort trans total (a :: entries)
      rw [sorted] at ordered ⊢
      rw [rest] at ih
      unfold earliest
      rw [← ih, List.find?_append, List.find?_append]
      split
      · next kept =>
          rw [List.find?_cons_of_pos kept]
          cases early : front.find? kind with
          | some b =>
              have earlier := before b (List.mem_of_find?_eq_some early)
              simp only [Bool.not_eq_true', decide_eq_false_iff_not, not_le] at earlier
              simp [earlier]
          | none =>
              cases late : back.find? kind with
              | none => rfl
              | some b =>
                  have later := List.rel_of_pairwise_cons (List.pairwise_append.mp ordered).2.1
                    (List.mem_of_find?_eq_some late)
                  simp [not_lt.mpr (of_decide_eq_true later)]
      · next other => rw [List.find?_cons_of_neg other]

end Workbench.Library
