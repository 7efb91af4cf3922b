import Mathlib.Data.List.Induction
import Mathlib.Order.Lattice

/-! Traces: lists of entries, newest last, and where an entry stands in them. -/

set_option autoImplicit false

namespace Workbench.Library

variable {Entry : Type}

/-- An entry of a trace that grew stands in the old part or in the new one. -/
theorem split_append {old new before after : List Entry} {e : Entry}
    (split : old ++ new = before ++ e :: after) :
    (∃ rest, old = before ++ e :: rest ∧ after = rest ++ new) ∨
      ∃ skipped, new = skipped ++ e :: after ∧ before = old ++ skipped := by
  rcases List.append_eq_append_iff.mp split with ⟨skipped, before, new⟩ | ⟨rest, old, same⟩
  · exact .inr ⟨skipped, new, before⟩
  · cases rest with
    | nil => exact .inr ⟨[], same.symm, by simpa using old.symm⟩
    | cons first rest =>
        obtain ⟨rfl, tail⟩ := List.cons.inj same
        exact .inl ⟨rest, old, tail⟩

theorem split_at {entries : List Entry} {i : Nat} {e : Entry} (there : entries[i]? = some e) :
    entries = entries.take i ++ e :: entries.drop (i + 1) := by
  obtain ⟨bound, rfl⟩ := List.getElem?_eq_some_iff.mp there
  rw [← List.drop_eq_getElem_cons bound, List.take_append_drop]

variable {Value : Type}

/-- The value given by the latest entry that gives one. -/
def latest (value : Entry → Option Value) (entries : List Entry) : Option Value :=
  (entries.filterMap value).getLast?

@[simp] theorem latest_nil (value : Entry → Option Value) : latest value [] = none := rfl

theorem latest_concat (value : Entry → Option Value) (entries : List Entry) (e : Entry) :
    latest value (entries ++ [e]) = (value e).or (latest value entries) := by
  unfold latest
  cases given : value e <;> simp [given]

theorem latest_append (value : Entry → Option Value) (entries later : List Entry) :
    latest value (entries ++ later) = (latest value later).or (latest value entries) := by
  unfold latest
  rw [List.filterMap_append, List.getLast?_append]

theorem latest_map {Source : Type} (value : Entry → Option Value) (make : Source → Entry)
    (sources : List Source) : latest value (sources.map make) = latest (value ∘ make) sources := by
  unfold latest
  rw [List.filterMap_map]

theorem latest_filter (value : Entry → Option Value) (test : Entry → Bool) (entries : List Entry) :
    latest value (entries.filter test) =
      latest (fun e => if test e then value e else none) entries := by
  unfold latest
  rw [List.filterMap_filter]

theorem latest_eq_none {value : Entry → Option Value} {entries : List Entry} :
    latest value entries = none ↔ ∀ e ∈ entries, value e = none := by
  unfold latest
  rw [List.getLast?_eq_none_iff, List.filterMap_eq_nil_iff]

/-- The latest value is given by some entry, and no later one gives any. -/
theorem latest_eq_some {value : Entry → Option Value} {entries : List Entry} {v : Value}
    (last : latest value entries = some v) :
    ∃ before e after, entries = before ++ e :: after ∧ value e = some v ∧
      ∀ later ∈ after, value later = none := by
  induction entries using List.reverseRecOn with
  | nil => simp at last
  | append_singleton entries e ih =>
      rw [latest_concat] at last
      cases given : value e with
      | none =>
          rw [given, Option.none_or] at last
          obtain ⟨before, found, after, rfl, gives, silent⟩ := ih last
          refine ⟨before, found, after ++ [e], by simp, gives, fun later member => ?_⟩
          rcases List.mem_append.mp member with old | new
          · exact silent later old
          · obtain rfl := List.mem_singleton.mp new
            exact given
      | some w =>
          rw [given, Option.some_or] at last
          exact ⟨entries, e, [], by simp, given.trans last, by simp⟩

/-- Among entries in order of time, the latest one that gives its time gives the last. -/
theorem le_latest {Time : Type} [Preorder Time] {time : Entry → Time}
    {value : Entry → Option Time} (stamped : ∀ e t, value e = some t → t = time e)
    {entries : List Entry} (sorted : (entries.map time).Pairwise (· ≤ ·)) {e : Entry} {t : Time}
    (member : e ∈ entries) (given : value e = some t) :
    ∃ last, latest value entries = some last ∧ t ≤ last := by
  induction entries using List.reverseRecOn with
  | nil => simp at member
  | append_singleton entries newest ih =>
      rw [List.map_append, List.pairwise_append] at sorted
      rw [latest_concat]
      rcases List.mem_append.mp member with old | new
      · cases gives : value newest with
        | none => simpa using ih sorted.1 old
        | some last =>
            refine ⟨last, rfl, ?_⟩
            rw [stamped e t given, stamped newest last gives]
            exact sorted.2.2 _ (List.mem_map_of_mem old) _ (by simp)
      · obtain rfl := List.mem_singleton.mp new
        exact ⟨t, by simp [given], le_refl t⟩

/-- What is dropped from the front of a list that fails a test from some point on is all
that passes it. -/
theorem dropWhile_eq_filter {test : Entry → Bool} {entries : List Entry}
    (sorted : entries.Pairwise fun a b => test b = true → test a = true) :
    entries.dropWhile test = entries.filter fun e => !test e := by
  induction entries with
  | nil => rfl
  | cons e entries ih =>
      obtain ⟨first, rest⟩ := List.pairwise_cons.mp sorted
      cases passes : test e with
      | true => simp [passes, ih rest]
      | false =>
          have kept : entries.filter (fun e => !test e) = entries := by
            refine List.filter_eq_self.mpr fun later member => ?_
            by_contra tested
            have back := first later member (by simpa using tested)
            simp [passes] at back
          simp [passes, kept]

/-- Each entry, with all that came before it. -/
def momentsFrom (past : List Entry) : List Entry → List (List Entry × Entry)
  | [] => []
  | e :: entries => (past, e) :: momentsFrom (past ++ [e]) entries

def moments (entries : List Entry) : List (List Entry × Entry) := momentsFrom [] entries

theorem momentsFrom_concat (past entries : List Entry) (e : Entry) :
    momentsFrom past (entries ++ [e]) = momentsFrom past entries ++ [(past ++ entries, e)] := by
  induction entries generalizing past with
  | nil => simp [momentsFrom]
  | cons first entries ih => simp [momentsFrom, ih]

@[simp] theorem moments_concat (entries : List Entry) (e : Entry) :
    moments (entries ++ [e]) = moments entries ++ [(entries, e)] :=
  momentsFrom_concat [] entries e

theorem mem_moments {entries before : List Entry} {e : Entry} :
    (before, e) ∈ moments entries ↔ ∃ after, entries = before ++ e :: after := by
  induction entries using List.reverseRecOn with
  | nil => simp [moments, momentsFrom]
  | append_singleton entries newest ih =>
      rw [moments_concat, List.mem_append, ih, List.mem_singleton, Prod.mk.injEq]
      constructor
      · rintro (⟨after, rfl⟩ | ⟨rfl, rfl⟩)
        · exact ⟨after ++ [newest], by simp⟩
        · exact ⟨[], rfl⟩
      · rintro ⟨after, split⟩
        rcases split_append split with ⟨rest, inside, -⟩ | ⟨skipped, last, rfl⟩
        · exact .inl ⟨rest, inside⟩
        · cases skipped with
          | nil =>
              obtain ⟨rfl, -⟩ := List.cons.inj last
              exact .inr ⟨by simp, rfl⟩
          | cons first skipped => simp at last

/-- Where as many entries pass a test as pass a wider one, the same entries pass both. -/
theorem filterMap_length_eq {narrow wide : Entry → Option Value} {entries : List Entry}
    (wider : ∀ e ∈ entries, (narrow e).isSome → (wide e).isSome)
    (same : (entries.filterMap narrow).length = (entries.filterMap wide).length) :
    ∀ e ∈ entries, (wide e).isSome → (narrow e).isSome := by
  have le (rest : List Entry) (inside : ∀ e ∈ rest, (narrow e).isSome → (wide e).isSome) :
      (rest.filterMap narrow).length ≤ (rest.filterMap wide).length := by
    simp only [List.length_filterMap_eq_countP]
    exact List.countP_mono_left fun e member => by simpa using inside e member
  induction entries with
  | nil => simp
  | cons first entries ih =>
      have rest := fun e member => wider e (List.mem_cons_of_mem first member)
      have bound := le entries rest
      intro e member passes
      cases narrowed : narrow first with
      | none =>
          cases widened : wide first with
          | none =>
              rcases List.mem_cons.mp member with rfl | later
              · simp [widened] at passes
              · exact ih rest (by simpa [narrowed, widened] using same) e later passes
          | some value =>
              simp only [List.filterMap_cons, narrowed, widened, List.length_cons] at same
              omega
      | some value =>
          rcases List.mem_cons.mp member with rfl | later
          · simp [narrowed]
          · obtain ⟨value', widened⟩ := Option.isSome_iff_exists.mp
              (wider first List.mem_cons_self (by simp [narrowed]))
            exact ih rest (by simpa [narrowed, widened] using same) e later passes

/-! Entries by rank. -/

variable {Rank : Type} [LinearOrder Rank] {rank : Entry → Rank}

/-- The entries that come after one of a higher rank. -/
def late (rank : Entry → Rank) (entries : List Entry) : List Entry :=
  ((moments entries).filter fun m => m.1.any fun earlier => rank m.2 < rank earlier).map Prod.snd

theorem late_concat (entries : List Entry) (e : Entry) : late rank (entries ++ [e]) =
    late rank entries ++ if ∃ earlier ∈ entries, rank e < rank earlier then [e] else [] := by
  rw [late, moments_concat, List.filter_append, List.map_append, late]
  simp only [List.filter_cons, List.filter_nil, List.any_eq_true, decide_eq_true_eq]
  split <;> rfl

/-- No entry is late where the ranks never fall. -/
theorem late_eq_nil {entries : List Entry} :
    late rank entries = [] ↔ entries.Pairwise fun a b => rank a ≤ rank b := by
  induction entries using List.reverseRecOn with
  | nil => simp [late, moments, momentsFrom]
  | append_singleton entries e ih =>
      rw [late_concat, List.append_eq_nil_iff, ih, List.pairwise_append]
      refine and_congr_right fun _ => ?_
      split
      · next above =>
          obtain ⟨earlier, member, higher⟩ := above
          refine iff_of_false (List.cons_ne_nil _ _) fun ordered => ?_
          exact absurd (ordered.2 earlier member e List.mem_cons_self) (not_le.mpr higher)
      · next none =>
          push Not at none
          simpa using none

end Workbench.Library
