import Mathlib.Data.List.Nodup
import Mathlib.Data.List.Perm.Subperm
import Mathlib.Logic.Relation

/-! Walks along a relation. Where the relation leads nowhere back, a walk is never twice in one
place, and so is no longer than the places that it can be in. -/

set_option autoImplicit false

namespace Workbench.Library

variable {α : Type} {leads : α → α → Prop} {source place place' : α} {before places : List α}

/-- A walk to a place, with those it was in before, the last one first. -/
inductive Walk (leads : α → α → Prop) (source : α) : α → List α → Prop where
  | start : Walk leads source source []
  | step {place place' : α} {before : List α} (walk : Walk leads source place before)
      (next : leads place place') : Walk leads source place' (place :: before)

/-- A walk goes on from each place it was in before. -/
theorem Walk.goes_on (walk : Walk leads source place before) (member : place' ∈ before) :
    ∃ next, leads place' next := by
  induction walk with
  | start => cases member
  | step walk next ih =>
      rcases List.mem_cons.mp member with rfl | earlier
      · exact ⟨_, next⟩
      · exact ih earlier

theorem Walk.reaches (walk : Walk leads source place before) (member : place' ∈ before) :
    Relation.TransGen leads place' place := by
  induction walk with
  | start => cases member
  | step walk next ih =>
      rcases List.mem_cons.mp member with rfl | earlier
      · exact .single next
      · exact (ih earlier).tail next

theorem Walk.nodup (acyclic : ∀ a, ¬ Relation.TransGen leads a a)
    (walk : Walk leads source place before) : (place :: before).Nodup := by
  induction walk with
  | start => exact List.nodup_singleton source
  | step walk next ih =>
      refine List.nodup_cons.mpr ⟨fun member => ?_, ih⟩
      exact acyclic _ ((walk.step next).reaches member)

/-- A relation that only leads to lower places leads nowhere back. -/
theorem acyclic_of_lower (height : α → Nat) (lower : ∀ a b, leads a b → height b < height a) (a : α) :
    ¬ Relation.TransGen leads a a := by
  intro back
  have down : Relation.TransGen (· > ·) (height a) (height a) := back.lift height lower
  rw [Relation.transGen_eq_self] at down
  exact Nat.lt_irrefl _ down

/-- A walk along an acyclic relation is shorter than a list of the places it is in. -/
theorem Walk.length_lt (acyclic : ∀ a, ¬ Relation.TransGen leads a a)
    (walk : Walk leads source place before) (here : place ∈ places)
    (there : ∀ a ∈ before, a ∈ places) : before.length < places.length := by
  have inside : place :: before ⊆ places := List.cons_subset.mpr ⟨here, there⟩
  exact ((walk.nodup acyclic).subperm inside).length_le

end Workbench.Library
