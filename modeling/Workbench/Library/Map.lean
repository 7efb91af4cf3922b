import Mathlib.Algebra.Order.Ring.Nat
import Mathlib.Data.List.AList

/-! Maps as association lists, the total of a measure over the values of a map, and
passes that fill a map, or fail. -/

set_option autoImplicit false

namespace Workbench.Library

abbrev HashMap (K V : Type) := AList fun _ : K => V

variable {K V : Type}

def total (measure : V → Nat) (m : HashMap K V) : Nat := (m.entries.map (measure ·.2)).sum

@[simp] theorem total_empty (measure : V → Nat) : total measure (∅ : HashMap K V) = 0 := rfl

variable [DecidableEq K] {measure : V → Nat} {m : HashMap K V} {k : K} {v : V}

theorem lookup_insert (m : HashMap K V) (k k' : K) (v : V) :
    (m.insert k v).lookup k' = if k' = k then some v else m.lookup k' := by
  split
  · next same => rw [same, AList.lookup_insert]
  · next differs => rw [AList.lookup_insert_ne differs]

theorem lookup_erase (m : HashMap K V) (k k' : K) :
    (m.erase k).lookup k' = if k' = k then none else m.lookup k' := by
  split
  · next same => rw [same, AList.lookup_erase]
  · next differs => rw [AList.lookup_erase_ne differs]

/-- What is found in a map after an insertion was inserted, or was there before. -/
theorem of_lookup_insert {k' : K} {w : V} (found : (m.insert k v).lookup k' = some w) :
    k' = k ∧ w = v ∨ k' ≠ k ∧ m.lookup k' = some w := by
  rw [lookup_insert] at found
  split at found
  · next same => exact .inl ⟨same, (Option.some.inj found).symm⟩
  · next differs => exact .inr ⟨differs, found⟩

theorem of_lookup_erase {k' : K} (found : (m.erase k).lookup k' = some v) :
    k' ≠ k ∧ m.lookup k' = some v := by
  rw [lookup_erase] at found
  split at found
  · cases found
  · next differs => exact ⟨differs, found⟩

theorem mem_of_lookup (found : m.lookup k = some v) : k ∈ m :=
  AList.lookup_isSome.mp (Option.isSome_of_eq_some found)

theorem total_insert (absent : k ∉ m) :
    total measure (m.insert k v) = total measure m + measure v := by
  unfold total
  rw [AList.entries_insert_of_notMem absent, List.map_cons, List.sum_cons, Nat.add_comm]

/-- What a value adds to the total goes away with it. -/
theorem total_erase (found : m.lookup k = some v) :
    total measure (m.erase k) + measure v = total measure m := by
  have key : k ∈ m.entries.keys := AList.mem_keys.mp (mem_of_lookup found)
  obtain ⟨w, front, back, absent, split, erased⟩ := List.exists_of_kerase key
  have same : w = v := by
    have there : (⟨k, w⟩ : Sigma fun _ : K => V) ∈ m.entries := by simp [split]
    have looked := List.mem_dlookup m.nodupKeys there
    exact Option.some.inj ((Option.mem_def.mp looked).symm.trans found)
  have rest : (m.erase k).entries = front ++ back := erased
  unfold total
  rw [rest, split, same]
  simp only [List.map_append, List.map_cons, List.sum_append, List.sum_cons]
  omega

/-- A value that counts as much as the one it replaces leaves the total as it is. -/
theorem total_replace {w : V} (found : m.lookup k = some v) (same : measure w = measure v) :
    total measure (m.insert k w) = total measure m := by
  have gone : total measure (m.erase k) + measure v = total measure m := total_erase found
  unfold total at gone ⊢
  rw [AList.entries_insert, List.map_cons, List.sum_cons, same]
  rw [Nat.add_comm]
  exact gone

/-- The total counts each key once, among any distinct keys that cover the map. -/
theorem total_eq_sum {ids : List K} (nodup : ids.Nodup) (cover : ∀ k ∈ m, k ∈ ids) :
    total measure m = (ids.map fun k => ((m.lookup k).map measure).getD 0).sum := by
  induction ids generalizing m with
  | nil =>
      have empty : m.entries = [] := List.eq_nil_iff_forall_not_mem.mpr fun entry inside =>
        absurd (cover entry.1 (List.mem_map_of_mem inside)) List.not_mem_nil
      simp [total, empty]
  | cons id ids ih =>
      obtain ⟨fresh, nodup⟩ := List.nodup_cons.mp nodup
      rw [List.map_cons, List.sum_cons]
      cases found : m.lookup id with
      | none =>
          have rest := ih nodup (m := m) fun k inside => by
            rcases List.mem_cons.mp (cover k inside) with rfl | later
            · exact absurd inside (AList.lookup_eq_none.mp found)
            · exact later
          simpa using rest
      | some v =>
          have rest := ih nodup (m := m.erase id) fun k inside => by
            obtain ⟨differs, inside⟩ := AList.mem_erase.mp inside
            exact (List.mem_cons.mp (cover k inside)).resolve_left differs
          have same : (ids.map fun k => (((m.erase id).lookup k).map measure).getD 0) =
              ids.map fun k => ((m.lookup k).map measure).getD 0 := by
            refine List.map_congr_left fun k inside => ?_
            have differs : k ≠ id := fun here => fresh (here ▸ inside)
            rw [AList.lookup_erase_ne differs]
          rw [← total_erase found, rest, same]
          simp [Nat.add_comm]

theorem bind_ok {Error α β : Type} {x : Except Error α} {f : α → Except Error β} {b : β}
    (passed : (x >>= f) = .ok b) : ∃ a, x = .ok a ∧ f a = .ok b := by
  cases x with
  | error e => cases passed
  | ok a => exact ⟨a, rfl, passed⟩

/-- The rule for a pass that may fail: what holds of the elements passed and the
value so far holds at the end. -/
theorem foldlM_ok {Error α β : Type} {f : β → α → Except Error β} (Inv : List α → β → Prop)
    {xs : List α} {init final : β} (initial : Inv [] init)
    (kept : ∀ done b x b', Inv done b → f b x = .ok b' → Inv (done ++ [x]) b')
    (passed : xs.foldlM f init = .ok final) : Inv xs final := by
  suffices ∀ done b, Inv done b → xs.foldlM f b = .ok final → Inv (done ++ xs) final from
    this [] init initial passed
  clear passed
  induction xs with
  | nil =>
      intro done b holds passed
      cases passed
      simpa using holds
  | cons x xs ih =>
      intro done b holds passed
      rw [List.foldlM_cons] at passed
      obtain ⟨b', first, rest⟩ := bind_ok passed
      simpa using ih (done ++ [x]) b' (kept done b x b' holds first) rest

end Workbench.Library
