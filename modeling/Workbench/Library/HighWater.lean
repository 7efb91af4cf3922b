import Mathlib.Data.List.Induction
import Mathlib.Logic.Function.Basic
import Mathlib.Order.BoundedOrder.Basic
import Mathlib.Order.MinMax

/-! High-water marks: rounds over keys, each of which raises the mark of every key to the
key's level. A round breaks off at the first key whose mark is over its limit, so that
the keys after it keep the marks they had. -/

set_option autoImplicit false

namespace Workbench.Library

variable {Key Level : Type} [LinearOrder Level]

/-- The levels of the keys at a round, and the order in which it gets to the keys. -/
structure Round (Key Level : Type) where
  level : Key → Level
  order : List Key

section

variable [OrderBot Level] {limit : Key → Level} {keys : Key → Prop} {k a b : Key}
  {rounds front : List (Round Key Level)} {r : Round Key Level}

/-- The highest level of a key at some rounds. -/
def peak (rounds : List (Round Key Level)) (k : Key) : Level :=
  (rounds.map (·.level k)).foldr max ⊥

theorem peak_le {bound : Level} : peak rounds k ≤ bound ↔ ∀ r ∈ rounds, r.level k ≤ bound := by
  induction rounds with
  | nil => simp [peak]
  | cons r rounds ih =>
      rw [List.forall_mem_cons, ← ih]
      exact max_le_iff

theorem lt_peak {bound : Level} (above : bound < peak rounds k) : ∃ r ∈ rounds, bound < r.level k := by
  by_contra none
  push Not at none
  exact absurd (peak_le.mpr none) (not_le.mpr above)

theorem peak_concat (rounds : List (Round Key Level)) (r : Round Key Level) (k : Key) :
    peak (rounds ++ [r]) k = max (r.level k) (peak rounds k) := by
  refine eq_of_forall_ge_iff fun bound => ?_
  rw [max_le_iff, peak_le, peak_le, List.forall_mem_append, and_comm]
  simp

theorem peak_le_of_front (early : front <+: rounds) (k : Key) : peak front k ≤ peak rounds k :=
  peak_le.mpr fun _ member => peak_le.mp (le_refl _) _ (early.subset member)

/-- Where a key is over its limit, every other key has had its highest level before. -/
def Settled (limit : Key → Level) (keys : Key → Prop) (rounds : List (Round Key Level)) : Prop :=
  ∀ front r back, rounds = front ++ r :: back → ∀ a b, keys a → keys b → a ≠ b →
    limit a < r.level a → peak rounds b ≤ peak front b

theorem Settled.init (settled : Settled limit keys (rounds ++ [r])) : Settled limit keys rounds := by
  rintro front r' back rfl a b keyed keyed' differs above
  refine (peak_le_of_front (List.prefix_append (front ++ r' :: back) [r]) b).trans ?_
  exact settled front r' (back ++ [r]) (by simp) a b keyed keyed' differs above

/-- Once a key is over its limit, the keys with other highest levels have had them. -/
theorem Settled.other (settled : Settled limit keys (rounds ++ [r])) (keyed : keys a)
    (above : limit a < peak (rounds ++ [r]) a) (keyed' : keys b) (differs : a ≠ b) :
    peak (rounds ++ [r]) b ≤ peak rounds b := by
  obtain ⟨r', member, exceeds⟩ := lt_peak above
  obtain ⟨front, back, split⟩ := List.append_of_mem member
  refine (settled front r' back split a b keyed keyed' differs exceeds).trans (peak_le_of_front ?_ b)
  refine List.prefix_of_prefix_length_le ⟨r' :: back, split.symm⟩ (List.prefix_append rounds [r]) ?_
  have lengths := congrArg List.length split
  simp only [List.length_append, List.length_cons, List.length_nil] at lengths
  omega

end

variable [DecidableEq Key]

/-- One round: the marks after it, and the key at which it breaks off. -/
def sweep (limit level : Key → Level) : List Key → (Key → Level) → (Key → Level) × Option Key
  | [], marks => (marks, none)
  | k :: order, marks =>
    let mark := max (level k) (marks k)
    let marks := Function.update marks k mark
    if limit k < mark then (marks, some k) else sweep limit level order marks

variable {limit level : Key → Level} {order : List Key} {marks : Key → Level} {k a b : Key}

/-- A round leaves a mark as it is, or raises it to the level. -/
theorem sweep_mark (limit level : Key → Level) (order : List Key) (marks : Key → Level) (k : Key) :
    (sweep limit level order marks).1 k = marks k ∨
      (sweep limit level order marks).1 k = max (level k) (marks k) := by
  induction order generalizing marks with
  | nil => exact .inl rfl
  | cons first order ih =>
      have updated : Function.update marks first (max (level first) (marks first)) k = marks k ∨
          Function.update marks first (max (level first) (marks first)) k =
            max (level k) (marks k) := by
        by_cases here : k = first
        · subst here
          exact .inr (Function.update_self ..)
        · exact .inl (Function.update_of_ne here ..)
      unfold sweep
      dsimp only
      split
      · exact updated
      · rcases ih (Function.update marks first (max (level first) (marks first))) with same | raised
        · rwa [same]
        · rw [raised]
          rcases updated with same | same
          · exact .inr (by rw [same])
          · exact .inr (by rw [same, ← max_assoc, max_self])

theorem le_sweep (order : List Key) (marks : Key → Level) (k : Key) :
    marks k ≤ (sweep limit level order marks).1 k := by
  rcases sweep_mark limit level order marks k with same | raised
  · exact same.ge
  · exact raised ▸ le_max_right _ _

theorem sweep_le (order : List Key) (marks : Key → Level) (k : Key) :
    (sweep limit level order marks).1 k ≤ max (level k) (marks k) := by
  rcases sweep_mark limit level order marks k with same | raised
  · exact same.le.trans (le_max_right _ _)
  · exact raised.le

/-- A round that does not break off raises the marks of all its keys, none over its limit. -/
theorem sweep_none (goes : (sweep limit level order marks).2 = none) : ∀ k ∈ order,
    (sweep limit level order marks).1 k = max (level k) (marks k) ∧
      ¬ limit k < max (level k) (marks k) := by
  induction order generalizing marks with
  | nil => simp
  | cons first order ih =>
      unfold sweep at goes ⊢
      dsimp only at goes ⊢
      split at goes
      · cases goes
      next within =>
      rw [if_neg within]
      intro k member
      have rest := ih goes k
      by_cases here : k = first
      · subst here
        refine ⟨?_, within⟩
        refine le_antisymm ((sweep_le order _ k).trans ?_) (le_trans ?_ (le_sweep order _ k))
        · rw [Function.update_self, ← max_assoc, max_self]
        · rw [Function.update_self]
      · rw [Function.update_of_ne here] at rest
        exact rest ((List.mem_cons.mp member).resolve_left here)

/-- A round breaks off at a key whose mark it raises over its limit. -/
theorem sweep_some (stops : (sweep limit level order marks).2 = some a) : a ∈ order ∧
    (sweep limit level order marks).1 a = max (level a) (marks a) ∧
      limit a < max (level a) (marks a) := by
  induction order generalizing marks with
  | nil => cases stops
  | cons first order ih =>
      unfold sweep at stops ⊢
      dsimp only at stops ⊢
      split at stops
      · next above =>
          obtain rfl := Option.some.inj stops
          rw [if_pos above]
          exact ⟨List.mem_cons_self, Function.update_self .., above⟩
      · next within =>
          rw [if_neg within]
          obtain ⟨later, raised, above⟩ := ih stops
          refine ⟨List.mem_cons_of_mem _ later, ?_⟩
          by_cases here : a = first
          · subst here
            rw [Function.update_self, ← max_assoc, max_self] at above
            exact absurd above within
          · rw [Function.update_of_ne here] at raised above
            exact ⟨raised, above⟩

/-- A round that starts with a key over its limit does nothing else. -/
theorem sweep_ahead (above : limit a < max (level a) (marks a)) (others : List Key) :
    (sweep limit level (a :: others) marks).1 =
      Function.update marks a (max (level a) (marks a)) := by
  unfold sweep
  simp only [above, if_true]

/-! Rounds in a row. -/

variable [OrderBot Level] {rounds front back : List (Round Key Level)} {r : Round Key Level}
  {keys : Key → Prop}

/-- The marks after some rounds, and the keys at which rounds broke off. -/
def survey (limit : Key → Level) (rounds : List (Round Key Level)) : (Key → Level) × List Key :=
  rounds.foldl (fun passed r =>
    let (marks, above) := sweep limit r.level r.order passed.1
    (marks, passed.2 ++ above.toList)) (fun _ => ⊥, [])

theorem survey_concat (rounds : List (Round Key Level)) (r : Round Key Level) :
    survey limit (rounds ++ [r]) =
      ((sweep limit r.level r.order (survey limit rounds).1).1,
        (survey limit rounds).2 ++ (sweep limit r.level r.order (survey limit rounds).1).2.toList) := by
  rw [survey, List.foldl_append]
  rfl

/-- The mark of a key is at most its highest level. -/
theorem survey_le (limit : Key → Level) (rounds : List (Round Key Level)) (k : Key) :
    (survey limit rounds).1 k ≤ peak rounds k := by
  induction rounds using List.reverseRecOn with
  | nil => exact le_refl _
  | append_singleton rounds r ih =>
      rw [survey_concat, peak_concat]
      exact (sweep_le _ _ k).trans (max_le_max_left _ ih)

/-- Where highest levels are settled, every mark ends at its key's highest level, and
some round breaks off at each key over its limit. -/
theorem survey_of_settled (settled : Settled limit keys rounds)
    (complete : ∀ r ∈ rounds, ∀ k, k ∈ r.order ↔ keys k) :
    (∀ k, keys k → (survey limit rounds).1 k = peak rounds k) ∧
      ∀ k, keys k → limit k < peak rounds k → k ∈ (survey limit rounds).2 := by
  induction rounds using List.reverseRecOn with
  | nil => exact ⟨fun _ _ => rfl, fun k _ above => absurd above not_lt_bot⟩
  | append_singleton rounds r ih =>
      obtain ⟨marked, named⟩ := ih settled.init fun r' member =>
        complete r' (List.mem_append_left _ member)
      have every := complete r (by simp)
      rw [survey_concat]
      dsimp only
      cases stops : (sweep limit r.level r.order (survey limit rounds).1).2 with
      | none =>
          have raised := sweep_none stops
          refine ⟨fun k keyed => ?_, fun k keyed above => ?_⟩
          · rw [(raised k ((every k).mpr keyed)).1, marked k keyed, peak_concat]
          · rw [peak_concat, ← marked k keyed] at above
            exact absurd above (raised k ((every k).mpr keyed)).2
      | some a =>
          obtain ⟨member, raised, above⟩ := sweep_some stops
          have keyed := (every a).mp member
          rw [marked a keyed, ← peak_concat] at raised above
          refine ⟨fun b keyed' => ?_, fun b keyed' above' => ?_⟩
          · by_cases same : a = b
            · exact same ▸ raised
            · refine le_antisymm ?_ ((settled.other keyed above keyed' same).trans ?_)
              · rw [peak_concat, ← marked b keyed']
                exact sweep_le _ _ b
              · rw [← marked b keyed']
                exact le_sweep _ _ b
          · by_cases same : a = b
            · simp [same]
            · refine List.mem_append_left _ (named b keyed' ?_)
              exact above'.trans_le (settled.other keyed above keyed' same)

/-- Where a key is over its limit at a round, and each round starts with that key, the
other keys keep the marks they had before that round. -/
theorem survey_ahead {others : List Key} (above : limit a < r.level a)
    (ahead : ∀ r' ∈ front ++ r :: back, r'.order = a :: others) (differs : b ≠ a) :
    (survey limit (front ++ r :: back)).1 b ≤ peak front b ∧
      limit a < (survey limit (front ++ r :: back)).1 a := by
  have next (rounds : List (Round Key Level)) (r : Round Key Level) (here : r.order = a :: others)
      (above : limit a < max (r.level a) ((survey limit rounds).1 a)) :
      (survey limit (rounds ++ [r])).1 b = (survey limit rounds).1 b ∧
        limit a < (survey limit (rounds ++ [r])).1 a := by
    rw [survey_concat, here]
    dsimp only
    rw [sweep_ahead above, Function.update_of_ne differs, Function.update_self]
    exact ⟨rfl, above⟩
  induction back using List.reverseRecOn with
  | nil =>
      obtain ⟨same, marked⟩ := next front r (ahead r (by simp)) (above.trans_le (le_max_left _ _))
      exact ⟨same ▸ survey_le limit front b, marked⟩
  | append_singleton back r' ih =>
      obtain ⟨kept, marked⟩ := ih fun r'' member => ahead r'' (by
        rw [← List.cons_append, ← List.append_assoc]
        exact List.mem_append_left _ member)
      obtain ⟨same, marked'⟩ := next (front ++ r :: back) r' (ahead r' (by simp))
        (marked.trans_le (le_max_right _ _))
      rw [← List.cons_append, ← List.append_assoc]
      exact ⟨same ▸ kept, marked'⟩

end Workbench.Library
