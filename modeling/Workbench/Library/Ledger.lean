import Mathlib.Logic.Function.Basic
import Mathlib.Data.List.Basic
import Mathlib.Data.List.Count

/-! Tokens that are each in at most one place.

A ledger assigns every token its place, if it has one, so no token can be in two
places. A tally counts occurrences, as a concrete state holds them. The rules
carry a description of a tally by a ledger through insertions and removals. -/

set_option autoImplicit false

namespace Workbench.Library

/-- Where one element at most passes a test, any two that pass it are one. -/
theorem eq_of_countP_le_one {Entry : Type} {test : Entry → Bool} {entries : List Entry}
    (once : entries.countP test ≤ 1) {a b : Entry} (first : a ∈ entries) (second : b ∈ entries)
    (passes : test a = true) (passes' : test b = true) : a = b := by
  induction entries with
  | nil => simp at first
  | cons e entries ih =>
      have later {c : Entry} (inside : c ∈ entries) (tested : test c = true) :
          0 < entries.countP test := List.countP_pos_iff.mpr ⟨c, inside, tested⟩
      rw [List.countP_cons] at once
      rcases List.mem_cons.mp first with same | first
      · rcases List.mem_cons.mp second with same' | second
        · exact same.trans same'.symm
        · have := later second passes'
          rw [← same, if_pos passes] at once
          omega
      · rcases List.mem_cons.mp second with same' | second
        · have := later first passes
          rw [← same', if_pos passes'] at once
          omega
        · exact ih (by omega) first second

variable {Token Place : Type} [DecidableEq Place]

abbrev Ledger (Token Place : Type) := Token → Option Place

/-- Every token is counted once in its place and nowhere else. -/
def Describes (ledger : Ledger Token Place) (tally : Place → Token → Nat) : Prop :=
  ∀ place token, tally place token = if ledger token = some place then 1 else 0

variable {ledger : Ledger Token Place} {tally tally' : Place → Token → Nat}

theorem Describes.count (described : Describes ledger tally) {place : Place} {token : Token}
    (there : ledger token = some place) : tally place token = 1 := by
  rw [described place token, if_pos there]

theorem Describes.le_one (described : Describes ledger tally) (place : Place) (token : Token) :
    tally place token ≤ 1 := by
  rw [described place token]
  split <;> omega

theorem Describes.place_of_pos (described : Describes ledger tally) {place : Place}
    {token : Token} (positive : 0 < tally place token) : ledger token = some place := by
  rw [described place token] at positive
  by_contra absent
  simp [absent] at positive

theorem Describes.zero (described : Describes ledger tally) {token : Token}
    (absent : ledger token = none) (place : Place) : tally place token = 0 := by
  simp [described place token, absent]

/-- A placed token is in exactly one place, and there exactly once. -/
theorem Describes.sole (described : Describes ledger tally) {token : Token}
    (present : ledger token ≠ none) :
    ∃ place, tally place token = 1 ∧ ∀ other, other ≠ place → tally other token = 0 := by
  obtain ⟨place, there⟩ := Option.ne_none_iff_exists'.mp present
  refine ⟨place, described.count there, fun other differs => ?_⟩
  have elsewhere : ledger token ≠ some other := by
    rw [there]
    exact fun same => differs (Option.some.inj same).symm
  rw [described other token, if_neg elsewhere]

theorem Describes.congr (described : Describes ledger tally)
    (same : ∀ place token, tally' place token = tally place token) : Describes ledger tally' :=
  fun place token => (same place token).trans (described place token)

/-- Dropping all the tokens of one collection from the tally leaves them without a place. -/
theorem Describes.drop (described : Describes ledger tally) {place : Place}
    {dropped : Token → Nat}
    (changed : ∀ p t, tally p t = tally' p t + if p = place then dropped t else 0) :
    Describes (fun t => if 0 < dropped t then none else ledger t) tally' := by
  intro p t
  have before := described p t
  have here := described place t
  rw [changed p t] at before
  rw [changed place t] at here
  by_cases gone : 0 < dropped t
  · simp only [if_pos gone, reduceCtorEq, if_false]
    simp only [if_true] at here
    by_cases same : p = place
    · subst same
      split at here <;> omega
    · have there : ledger t = some place := by
        by_contra other
        simp only [if_neg other] at here
        omega
      have elsewhere : some place ≠ some p := fun eq => same (Option.some.inj eq).symm
      simpa [same, there, elsewhere] using before
  · have zero : dropped t = 0 := by omega
    simpa [zero] using before

/-- Tokens of a collection move together from one place to another. -/
theorem Describes.move (described : Describes ledger tally) {source target : Place}
    (differs : source ≠ target) {moved : Token → Nat}
    (changed : ∀ p t, tally p t + (if p = target then moved t else 0) =
      tally' p t + if p = source then moved t else 0) :
    Describes (fun t => if 0 < moved t then some target else ledger t) tally' := by
  intro p t
  have before := described p t
  have origin := described source t
  have change := changed p t
  have changeOrigin := changed source t
  simp only [if_neg differs, if_true] at changeOrigin
  by_cases positive : 0 < moved t
  · have there : ledger t = some source := by
      by_contra other
      simp only [if_neg other] at origin
      omega
    simp only [there, Option.some.injEq, if_pos positive] at before origin ⊢
    simp only [if_true] at origin
    by_cases atSource : p = source
    · subst atSource
      simp only [if_neg differs, if_neg (Ne.symm differs), if_true] at change ⊢
      omega
    · by_cases atTarget : p = target
      · subst atTarget
        simp only [if_true, if_neg (Ne.symm differs), if_neg differs] at change before ⊢
        omega
      · simp only [if_neg atSource, if_neg atTarget, if_neg (Ne.symm atSource),
          if_neg (Ne.symm atTarget)] at change before ⊢
        omega
  · have zero : moved t = 0 := by omega
    simp only [zero, Nat.lt_irrefl, if_false, ite_self, Nat.add_zero] at change ⊢
    omega

/-- How one tally follows from another: nothing moves, the tokens of a collection
move from one place to another, or those of a place are lost, if that may happen. -/
inductive Flow (lossy : Prop) (tally tally' : Place → Token → Nat) : Prop where
  | still (same : ∀ place token, tally' place token = tally place token)
  | moved (source target : Place) (differs : source ≠ target) (count : Token → Nat)
      (changed : ∀ p t, tally p t + (if p = target then count t else 0) =
        tally' p t + if p = source then count t else 0)
  | lost (place : Place) (count : Token → Nat)
      (changed : ∀ p t, tally p t = tally' p t + if p = place then count t else 0) (cause : lossy)

/-- A flow places no token that had no place, and takes the place of none but those lost. -/
theorem Describes.flow {lossy : Prop} (described : Describes ledger tally)
    (flow : Flow lossy tally tally') :
    ∃ ledger' : Ledger Token Place, Describes ledger' tally' ∧
      (∀ t, ledger' t ≠ none → ledger t ≠ none) ∧
      (¬ lossy → ∀ t, ledger t ≠ none → ledger' t ≠ none) := by
  cases flow with
  | still same => exact ⟨ledger, described.congr same, fun _ => id, fun _ _ => id⟩
  | moved source target differs count changed =>
      refine ⟨_, described.move differs changed, fun t placed => ?_, fun _ t placed => ?_⟩
      · by_cases positive : 0 < count t
        · have there : 0 < tally source t := by
            have change := changed source t
            simp only [if_neg differs, if_true] at change
            omega
          rw [described.place_of_pos there]
          simp
        · simpa [if_neg positive] using placed
      · by_cases positive : 0 < count t
        · simp [positive]
        · simpa [if_neg positive] using placed
  | lost place count changed cause =>
      refine ⟨_, described.drop changed, fun t placed => ?_, fun kept => absurd cause kept⟩
      by_cases gone : 0 < count t
      · simp [gone] at placed
      · simpa [gone] using placed

variable [DecidableEq Token]

/-- Inserting a token that has no place gives it that place. -/
theorem Describes.put (described : Describes ledger tally) (place : Place) {token : Token}
    (absent : ledger token = none)
    (changed : ∀ p t, tally' p t = tally p t + if p = place ∧ t = token then 1 else 0) :
    Describes (Function.update ledger token (some place)) tally' := by
  intro p t
  rw [changed p t]
  by_cases same : t = token
  · subst same
    simp only [Function.update_self, described.zero absent, Option.some.injEq, and_true,
      Nat.zero_add, eq_comm]
  · simp [described p t, same]

end Workbench.Library
