import Mathlib.Algebra.BigOperators.Group.Finset.Basic
import Mathlib.Data.List.Dedup
import Workbench.Tracing.Consistency
import Workbench.Tracing.Custody

/-! The bytes that a node holds, as recorded steps tell and as a replay counts them. -/

set_option autoImplicit false

namespace Workbench.Tracing

open Workbench.Library Workbench.Network

/-- The bytes of the packets that got to a node and have not left it since. -/
def heldBytes (n : NodeId) (trace : List SimulationStep) : Nat :=
  ((trace.filterMap SimulationStep.appearing?).dedup.map fun id => (sizeIn n id trace).getD 0).sum

/-- The steps up to a time. -/
def upTo (t : Nat) (trace : List SimulationStep) : List SimulationStep :=
  trace.filter fun step => decide (step.relativeTime ≤ t)

/-- The steps before a time. -/
def upBefore (t : Nat) (trace : List SimulationStep) : List SimulationStep :=
  trace.filter fun step => decide (step.relativeTime < t)

/-- The distinct times of the steps. -/
def timestamps (trace : List SimulationStep) : List Nat := (trace.map (·.relativeTime)).dedup

/-- The most that a node holds after the last step of any time. -/
def peakUsage (n : NodeId) (trace : List SimulationStep) : Nat :=
  ((timestamps trace).map fun t => heldBytes n (upTo t trace)).foldr max 0

variable {trace : List SimulationStep} {n : NodeId} {id : Uuid} {t bound : Nat}

theorem mem_timestamps : t ∈ timestamps trace ↔ ∃ step ∈ trace, step.relativeTime = t := by
  simp [timestamps]

theorem peakUsage_le :
    peakUsage n trace ≤ bound ↔ ∀ t ∈ timestamps trace, heldBytes n (upTo t trace) ≤ bound := by
  unfold peakUsage
  induction timestamps trace with
  | nil => simp
  | cons t times ih =>
      rw [List.map_cons, List.foldr_cons, List.forall_mem_cons, ← ih]
      omega

/-- A packet in a node got to some node. -/
theorem sizeIn_appearing {size : Nat} (inside : sizeIn n id trace = some size) :
    ∃ step ∈ trace, step.appearing? = some id := by
  obtain ⟨before, ⟨past, step⟩, after, split, given, -⟩ :=
    latest_eq_some (Option.join_eq_some_iff.mp inside)
  obtain ⟨later, same⟩ := mem_moments.mp (split ▸ List.mem_append_right before List.mem_cons_self)
  refine ⟨step, same ▸ by simp, ?_⟩
  obtain ⟨stay, stays, shows⟩ := Option.map_eq_some_iff.mp given
  obtain ⟨time, rfl, -⟩ := Option.map_eq_some_iff.mp shows
  unfold SimulationStep.stay? at stays
  unfold SimulationStep.appearing?
  split at stays <;> simp_all

/-- The bytes that a node holds, summed over any packets that include all of them. -/
theorem heldBytes_eq_sum {ids : Finset Uuid}
    (covers : ∀ id, sizeIn n id trace ≠ none → id ∈ ids) :
    heldBytes n trace = ∑ id ∈ ids, (sizeIn n id trace).getD 0 := by
  have nothing (id : Uuid) (absent : sizeIn n id trace = none) : (sizeIn n id trace).getD 0 = 0 := by
    rw [absent]
    rfl
  rw [heldBytes, ← List.sum_toFinset _ (List.nodup_dedup _)]
  refine (Finset.sum_subset Finset.subset_union_left fun id _ outside => ?_).trans
    (Finset.sum_subset (Finset.subset_union_right : ids ⊆ _) fun id _ outside => ?_).symm
  · refine nothing id ?_
    by_contra inside
    obtain ⟨size, here⟩ := Option.ne_none_iff_exists'.mp inside
    obtain ⟨step, member, appears⟩ := sizeIn_appearing here
    exact outside (by simpa using ⟨step, member, appears⟩)
  · refine nothing id ?_
    by_contra inside
    exact outside (covers id inside)

/-- A step that is about one packet at most changes what a node holds of that packet. -/
theorem heldBytes_concat {step : SimulationStep} (id : Uuid)
    (others : ∀ id', id' ≠ id → sizeIn n id' (trace ++ [step]) = sizeIn n id' trace) :
    heldBytes n (trace ++ [step]) + (sizeIn n id trace).getD 0 =
      heldBytes n trace + (sizeIn n id (trace ++ [step])).getD 0 := by
  let ids := insert id ((trace ++ [step]).filterMap SimulationStep.appearing?).toFinset
  have appears (id' : Uuid) (inside : sizeIn n id' (trace ++ [step]) ≠ none) : id' ∈ ids := by
    obtain ⟨size, here⟩ := Option.ne_none_iff_exists'.mp inside
    obtain ⟨shown, member, appearing⟩ := sizeIn_appearing here
    exact Finset.mem_insert_of_mem
      (List.mem_toFinset.mpr (List.mem_filterMap.mpr ⟨shown, member, appearing⟩))
  have before (id' : Uuid) (inside : sizeIn n id' trace ≠ none) : id' ∈ ids := by
    by_cases same : id' = id
    · exact same ▸ Finset.mem_insert_self _ _
    · exact appears id' (others id' same ▸ inside)
  have listed : id ∈ ids := Finset.mem_insert_self _ _
  rw [heldBytes_eq_sum appears, heldBytes_eq_sum before, ← Finset.add_sum_erase ids _ listed,
    ← Finset.add_sum_erase ids (fun id => (sizeIn n id trace).getD 0) listed]
  have rest : ∑ id' ∈ ids.erase id, (sizeIn n id' (trace ++ [step])).getD 0 =
      ∑ id' ∈ ids.erase id, (sizeIn n id' trace).getD 0 :=
    Finset.sum_congr rfl fun id' member => by rw [others id' (Finset.ne_of_mem_erase member)]
  omega

theorem heldBytes_silent {step : SimulationStep} (silent : step.packet? = none) :
    heldBytes n (trace ++ [step]) = heldBytes n trace := by
  have same (id : Uuid) : sizeIn n id (trace ++ [step]) = sizeIn n id trace := by
    have other : step.packet? ≠ some id := by simp [silent]
    obtain ⟨still, -⟩ := SimulationStep.other_packet other
    rw [sizeIn_concat, still]
    rfl
  have one : heldBytes n (trace ++ [step]) + (sizeIn n 0 trace).getD 0 =
      heldBytes n trace + (sizeIn n 0 (trace ++ [step])).getD 0 :=
    heldBytes_concat 0 fun id _ => same id
  rw [same] at one
  omega

namespace Replay

variable {this : Replay}

theorem Mirrors.bufferUsage (mirrors : this.Mirrors trace) (consistent : this.Consistent)
    {node : ReplayedNode} (there : this.nodes.lookup n = some node) :
    node.bufferUsage = heldBytes n trace := by
  have counted : node.bufferUsage = total ReplayedPacket.sizeBytes node.packets :=
    consistent.nodes n node there
  have sizes := mirrors.sizes n node there
  rw [counted, heldBytes, total_eq_sum (List.nodup_dedup (trace.filterMap SimulationStep.appearing?))]
  · congr 1
    refine List.map_congr_left fun id _ => ?_
    rw [← sizes]
    rfl
  · intro id inside
    obtain ⟨packet, held⟩ := Option.isSome_iff_exists.mp (AList.lookup_isSome.mpr inside)
    have size : sizeIn n id trace = some packet.sizeBytes := by
      rw [← sizes, ReplayedNode.sizeOf, held]
      rfl
    obtain ⟨step, member, appears⟩ := sizeIn_appearing size
    exact List.mem_dedup.mpr (List.mem_filterMap.mpr ⟨step, member, appears⟩)

end Replay

theorem SimulationVerifier.Made.consistent {this : SimulationVerifier} {spec : NetworkSpec}
    (made : this.Made spec) : (Replay.start { this with steps := [] }).Consistent := by
  refine ⟨fun n node found => ?_, fun l link found => ?_, fun id packet flies => ?_,
    made.nodeMetadata⟩
  · obtain rfl := made.nodes n node found
    exact ReplayedNode.consistent_new n
  · obtain rfl := made.links l link found
    exact ReplayedLink.consistent_new
  · have empty := made.inFlight
    simp [Replay.start, empty] at flies

end Workbench.Tracing
