import Mathlib.Algebra.Order.Ring.Nat
import Mathlib.Data.List.Basic

/-! Workers that take turns on a state that they share.

A turn changes the shared state and the worker whose turn it is. What holds of every
worker is kept where the turns keep it for that worker and for the others, and what the
workers have in total changes by what that worker has. -/

set_option autoImplicit false

namespace Workbench.Library.Workers

variable {Shared Worker Action : Type}

/-- A turn of one of the workers. -/
def step (turn : Shared → Worker → Action → Option (Shared × Worker)) (shared : Shared)
    (workers : List Worker) (i : Nat) (action : Action) : Option (Shared × List Worker) :=
  workers[i]?.bind fun worker =>
    (turn shared worker action).map fun (shared, worker) => (shared, workers.set i worker)

variable {turn : Shared → Worker → Action → Option (Shared × Worker)} {shared shared' : Shared}
  {workers workers' : List Worker} {i : Nat} {action : Action}

theorem step_eq_some (taken : step turn shared workers i action = some (shared', workers')) :
    ∃ worker worker', workers[i]? = some worker ∧
      turn shared worker action = some (shared', worker') ∧ workers' = workers.set i worker' := by
  obtain ⟨worker, found, moved⟩ := Option.bind_eq_some_iff.mp taken
  obtain ⟨⟨_, worker'⟩, turned, same⟩ := Option.map_eq_some_iff.mp moved
  obtain ⟨rfl, rfl⟩ := Prod.mk.inj same
  exact ⟨worker, worker', found, turned, rfl⟩

/-- One worker is replaced: what all have in total changes by what that one has. -/
theorem sum_set {worker : Worker} (found : workers[i]? = some worker) (measure : Worker → Nat)
    (worker' : Worker) : ((workers.set i worker').map measure).sum + measure worker =
      (workers.map measure).sum + measure worker' := by
  induction workers generalizing i with
  | nil => simp at found
  | cons first others ih =>
      cases i with
      | zero =>
          obtain rfl := Option.some.inj found
          simp only [List.set_cons_zero, List.map_cons, List.sum_cons]
          omega
      | succ i =>
          have rest := ih found
          simp only [List.set_cons_succ, List.map_cons, List.sum_cons]
          omega

/-- One worker is replaced: how many meet a test changes by whether that one does. -/
theorem countP_set {worker : Worker} (found : workers[i]? = some worker) (test : Worker → Bool)
    (worker' : Worker) : (workers.set i worker').countP test + (test worker).toNat =
      workers.countP test + (test worker').toNat := by
  obtain ⟨inside, rfl⟩ := List.getElem?_eq_some_iff.mp found
  have counted : test workers[i] = true → 0 < workers.countP test := fun meets =>
    List.countP_pos_iff.mpr ⟨workers[i], List.getElem_mem inside, meets⟩
  rw [List.countP_set inside]
  cases before : test workers[i] <;> cases test worker' <;> simp <;> grind

/-- One worker is replaced by another for which the same holds. -/
theorem forall_set {Holds Holds' : Worker → Prop} {worker' : Worker}
    (each : ∀ worker ∈ workers, Holds worker) (others : ∀ worker, Holds worker → Holds' worker)
    (own : Holds' worker') : ∀ worker ∈ workers.set i worker', Holds' worker := by
  intro worker member
  rcases List.mem_or_eq_of_mem_set member with old | rfl
  · exact others worker (each worker old)
  · exact own

theorem exists_set {Holds : Worker → Prop} {worker worker' : Worker}
    (found : workers[i]? = some worker) (some : ∃ worker ∈ workers, Holds worker)
    (own : Holds worker → Holds worker') : ∃ worker ∈ workers.set i worker', Holds worker := by
  obtain ⟨other, member, holds⟩ := some
  obtain ⟨k, place⟩ := List.mem_iff_getElem?.mp member
  by_cases same : i = k
  · subst same
    obtain rfl := Option.some.inj (found.symm.trans place)
    have inside : i < workers.length := (List.getElem?_eq_some_iff.mp found).1
    exact ⟨worker', List.mem_set inside worker', own holds⟩
  · refine ⟨other, List.mem_iff_getElem?.mpr ⟨k, ?_⟩, holds⟩
    rwa [List.getElem?_set_ne same]

end Workbench.Library.Workers
