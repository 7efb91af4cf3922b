import Workbench.Library.Trace
import Workbench.Library.Tracked

/-! How a computation that may fail ends, and what a pass over a list fails at or reports, given
what each of its steps does after the steps before it. -/

set_option autoImplicit false

namespace Workbench.Library

section

variable {Error α β : Type}

/-- The error that a computation fails with, if it does. -/
def failure? : Except Error α → Option Error
  | .ok _ => none
  | .error error => some error

theorem failure?_eq_none {x : Except Error α} : failure? x = none ↔ ∃ a, x = .ok a := by
  cases x <;> simp [failure?]

theorem failure?_eq_some {x : Except Error α} {error : Error} :
    failure? x = some error ↔ x = .error error := by
  cases x <;> simp [failure?]

/-- What comes second fails a computation whose first part goes through. -/
theorem failure?_bind {x : Except Error α} {f : α → Except Error β} {error? error?' : Option Error}
    (first : failure? x = error?) (rest : ∀ a, x = .ok a → failure? (f a) = error?') :
    failure? (x >>= f) = error?.or error?' := by
  subst first
  cases x with
  | error error => rfl
  | ok a => exact rest a rfl

/-- What goes through afterwards does not change how a computation fails. -/
theorem failure?_last {x : Except Error α} {f : α → Except Error β} {error? : Option Error}
    (first : failure? x = error?) (rest : ∀ a, x = .ok a → failure? (f a) = none) :
    failure? (x >>= f) = error? := by
  rw [failure?_bind first rest, Option.or_none]

/-- A pass over a list fails at the first element that fails after the elements before it. -/
theorem failure?_foldlM {f : β → α → Except Error β} {Inv : List α → β → Prop}
    {entries done rest : List α} {init : β} {fails : List α → α → Option Error}
    (split : entries = done ++ rest)
    (kept : ∀ done x rest b, entries = done ++ x :: rest → Inv done b →
      failure? (f b x) = fails done x ∧ ∀ b', f b x = .ok b' → Inv (done ++ [x]) b')
    (initial : Inv done init) :
    failure? (rest.foldlM f init) = (momentsFrom done rest).findSome? fun m => fails m.1 m.2 := by
  induction rest generalizing done init with
  | nil => rfl
  | cons x rest ih =>
      obtain ⟨ends, next⟩ := kept done x rest init split initial
      have whole := failure?_bind ends fun b there => ih (by simpa using split) (next b there)
      rw [List.foldlM_cons, momentsFrom, List.findSome?_cons, whole]
      cases fails done x <;> rfl

theorem momentsFrom_map_snd (past entries : List α) :
    (momentsFrom past entries).map Prod.snd = entries := by
  induction entries generalizing past with
  | nil => rfl
  | cons e entries ih => rw [momentsFrom, List.map_cons, ih]

/-- A pass whose elements fail by themselves. -/
theorem failure?_foldlM_each {f : β → α → Except Error β} {Inv : List α → β → Prop}
    {entries : List α} {init : β} {fails : α → Option Error}
    (kept : ∀ done x b, Inv done b →
      failure? (f b x) = fails x ∧ ∀ b', f b x = .ok b' → Inv (done ++ [x]) b')
    (initial : Inv [] init) : failure? (entries.foldlM f init) = entries.findSome? fails := by
  rw [failure?_foldlM (List.nil_append entries).symm (fun done x _ b _ => kept done x b) initial]
  conv_rhs => rw [← momentsFrom_map_snd [] entries, List.findSome?_map]
  rfl

end

namespace Tracked

variable {Report Halt α β : Type}

/-- The computation halts for the given reason, or yields a value if there is none. -/
def Ends (x : Tracked Report Halt α) (reason? : Option Halt) : Prop := failure? x.result = reason?

theorem Ends.yields_iff {x : Tracked Report Halt α} {reason? : Option Halt} (ends : x.Ends reason?) :
    (∃ a, x.Yields a) ↔ reason? = none := by
  subst ends
  exact failure?_eq_none.symm

theorem Ends.halts_iff {x : Tracked Report Halt α} {reason? : Option Halt} {reason : Halt}
    (ends : x.Ends reason?) : x.result = .error reason ↔ reason? = some reason := by
  subst ends
  exact failure?_eq_some.symm

theorem Ends.of_yields {x : Tracked Report Halt α} {a : α} (yields : x.Yields a) : x.Ends none :=
  failure?_eq_none.mpr ⟨a, yields⟩

theorem Ends.pure (a : α) : (pure a : Tracked Report Halt α).Ends none := rfl

theorem Ends.halt (reason : Halt) :
    (Tracked.halt reason : Tracked Report Halt α).Ends (some reason) := rfl

theorem Ends.check (wrong : Prop) [Decidable wrong] (report : Report) :
    (Tracked.check wrong report : Tracked Report Halt Unit).Ends none :=
  .of_yields (a := ()) (yields_check.mpr trivial)

theorem result_bind (x : Tracked Report Halt α) (f : α → Tracked Report Halt β) :
    (x >>= f).result = x.result >>= fun a => (f a).result := by
  obtain ⟨reports, error | a⟩ := x <;> rfl

theorem result_foldlM (f : β → α → Tracked Report Halt β) (xs : List α) (init : β) :
    (xs.foldlM f init).result = xs.foldlM (fun b a => (f b a).result) init := by
  induction xs generalizing init with
  | nil => rfl
  | cons x xs ih =>
      rw [List.foldlM_cons, List.foldlM_cons, result_bind]
      exact congrArg _ (funext ih)

theorem Ends.bind {x : Tracked Report Halt α} {f : α → Tracked Report Halt β}
    {reason? reason?' : Option Halt} (first : x.Ends reason?)
    (rest : ∀ a, x.Yields a → (f a).Ends reason?') : (x >>= f).Ends (reason?.or reason?') := by
  rw [Ends, result_bind]
  exact failure?_bind first rest

theorem Ends.unwrap {reason : Halt} {o : Option α} {f : α → Tracked Report Halt β}
    {reason? : Option Halt} (missing : o = none → reason? = some reason)
    (rest : ∀ a, o = some a → (f a).Ends reason?) : (Tracked.unwrap reason o >>= f).Ends reason? := by
  cases o with
  | none =>
      rw [missing rfl]
      exact .halt reason
  | some a => exact rest a rfl

theorem reports_check {wrong : Prop} [Decidable wrong] {report : Report} :
    (Tracked.check wrong report : Tracked Report Halt Unit).reports = if wrong then [report] else [] := by
  unfold Tracked.check
  split <;> rfl

theorem reports_check_bind {wrong : Prop} [Decidable wrong] {report : Report}
    {f : Unit → Tracked Report Halt β} : (Tracked.check wrong report >>= f).reports =
      (if wrong then [report] else []) ++ (f ()).reports := by
  unfold Tracked.check
  split <;> rfl

theorem reports_unwrap_bind {reason : Halt} {o : Option α} {a : α} {f : α → Tracked Report Halt β}
    (there : o = some a) : (Tracked.unwrap reason o >>= f).reports = (f a).reports := by
  rw [there]
  rfl

theorem reports_pure {a : α} : (pure a : Tracked Report Halt α).reports = [] := rfl

/-- What is done at last reports nothing. -/
theorem reports_bind_pure {x : Tracked Report Halt α} {f : α → β} :
    (x >>= fun a => pure (f a)).reports = x.reports := by
  obtain ⟨reports, error | a⟩ := x
  · rfl
  · exact List.append_nil reports

variable {f : β → α → Tracked Report Halt β} {Inv : List α → β → Prop} {entries done rest : List α}
  {init final : β}

theorem Ends.foldlM {stops : List α → α → Option Halt} (split : entries = done ++ rest)
    (kept : ∀ done x rest b, entries = done ++ x :: rest → Inv done b →
      (f b x).Ends (stops done x) ∧ ∀ b', (f b x).Yields b' → Inv (done ++ [x]) b')
    (initial : Inv done init) :
    (rest.foldlM f init).Ends ((momentsFrom done rest).findSome? fun m => stops m.1 m.2) := by
  rw [Ends, result_foldlM]
  exact failure?_foldlM split kept initial

/-- Of some kind, a pass over a list that goes through reports what each element reports after
the elements before. -/
theorem reports_foldlM {kind : Report → Bool} {tells : List α → α → List Report}
    (split : entries = done ++ rest)
    (kept : ∀ done x rest b b', entries = done ++ x :: rest → Inv done b → (f b x).Yields b' →
      Inv (done ++ [x]) b' ∧ (f b x).reports.filter kind = tells done x)
    (initial : Inv done init) (yields : (rest.foldlM f init).Yields final) :
    (rest.foldlM f init).reports.filter kind =
      (momentsFrom done rest).flatMap fun m => tells m.1 m.2 := by
  induction rest generalizing done init with
  | nil => rfl
  | cons x rest ih =>
      obtain ⟨next, first, others⟩ := yields_foldlM_cons.mp yields
      obtain ⟨holds, said⟩ := kept done x rest init next split initial first
      rw [List.foldlM_cons, reports_bind first, List.filter_append, said,
        ih (by simpa using split) holds others]
      rfl

end Tracked

end Workbench.Library
