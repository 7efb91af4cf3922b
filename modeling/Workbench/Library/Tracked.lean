import Mathlib.Data.List.Basic

/-! Computations that report errors as they go and may halt before they yield a value.

What was reported stays reported when the computation halts. Three sets of rules
follow the structure of a computation: `Yields` inverts one that went through,
`Clean` one that went through without a report, and `Meets` bounds what a
computation may report, how it may halt and what it yields. -/

set_option autoImplicit false

namespace Workbench.Library

structure Tracked (Report Halt α : Type) where
  reports : List Report
  result : Except Halt α

namespace Tracked

variable {Report Halt α β : Type}

def yield (a : α) : Tracked Report Halt α := ⟨[], .ok a⟩

def andThen (x : Tracked Report Halt α) (f : α → Tracked Report Halt β) : Tracked Report Halt β :=
  match x with
  | ⟨reports, .error halt⟩ => ⟨reports, .error halt⟩
  | ⟨reports, .ok a⟩ => ⟨reports ++ (f a).reports, (f a).result⟩

instance : Monad (Tracked Report Halt) where
  pure := yield
  bind := andThen

instance : LawfulMonad (Tracked Report Halt) := by
  refine LawfulMonad.mk' _ (fun x => ?_) (fun a f => ?_) fun x f g => ?_
  · obtain ⟨reports, error | a⟩ := x
    · rfl
    · exact congrArg (Tracked.mk · (.ok a)) (List.append_nil reports)
  · rfl
  · obtain ⟨reports, error | a⟩ := x
    · rfl
    · simp only [bind, andThen]
      generalize f a = y
      obtain ⟨reports', error | b⟩ := y
      · rfl
      · simp

def track (report : Report) : Tracked Report Halt Unit := ⟨[report], .ok ()⟩

def halt (reason : Halt) : Tracked Report Halt α := ⟨[], .error reason⟩

def check (wrong : Prop) [Decidable wrong] (report : Report) : Tracked Report Halt Unit :=
  if wrong then track report else pure ()

def unwrap (reason : Halt) : Option α → Tracked Report Halt α
  | none => halt reason
  | some a => pure a

/-! Computations that go through. -/

/-- The computation yields a value, whatever it reports. -/
def Yields (x : Tracked Report Halt α) (a : α) : Prop := x.result = .ok a

@[simp] theorem yields_pure {a b : α} :
    (pure a : Tracked Report Halt α).Yields b ↔ a = b := by
  constructor
  · intro same
    cases same
    rfl
  · rintro rfl
    rfl

@[simp] theorem yields_bind {x : Tracked Report Halt α} {f : α → Tracked Report Halt β} {b : β} :
    (x >>= f).Yields b ↔ ∃ a, x.Yields a ∧ (f a).Yields b := by
  obtain ⟨reports, error | a⟩ := x
  · simp [Yields, bind, andThen]
  · simp [Yields, bind, andThen]

@[simp] theorem not_yields_halt {reason : Halt} {a : α} :
    ¬ (halt reason : Tracked Report Halt α).Yields a := by
  intro same
  cases same

@[simp] theorem yields_track {report : Report} {a : Unit} :
    (track report : Tracked Report Halt Unit).Yields a ↔ True :=
  ⟨fun _ => trivial, fun _ => rfl⟩

@[simp] theorem yields_check {wrong : Prop} [Decidable wrong] {report : Report} {a : Unit} :
    (check wrong report : Tracked Report Halt Unit).Yields a ↔ True := by
  unfold check
  split <;> simp

@[simp] theorem yields_unwrap {reason : Halt} {o : Option α} {a : α} :
    (unwrap reason o : Tracked Report Halt α).Yields a ↔ o = some a := by
  cases o <;> simp [unwrap]

/-- A pass over a list that goes through goes through each part of it. -/
theorem yields_foldlM_append {f : β → α → Tracked Report Halt β} {before after : List α}
    {init final : β} :
    ((before ++ after).foldlM f init).Yields final ↔
      ∃ middle, (before.foldlM f init).Yields middle ∧ (after.foldlM f middle).Yields final := by
  rw [List.foldlM_append, yields_bind]

theorem yields_foldlM_cons {f : β → α → Tracked Report Halt β} {x : α} {rest : List α}
    {init final : β} :
    ((x :: rest).foldlM f init).Yields final ↔
      ∃ next, (f init x).Yields next ∧ (rest.foldlM f next).Yields final := by
  rw [List.foldlM_cons, yields_bind]

/-- What is reported before a value is yielded stays reported. -/
theorem reports_bind {x : Tracked Report Halt α} {f : α → Tracked Report Halt β} {a : α}
    (yields : x.Yields a) : (x >>= f).reports = x.reports ++ (f a).reports := by
  obtain ⟨reports, result⟩ := x
  obtain rfl : result = .ok a := yields
  rfl

theorem reports_subset_bind (x : Tracked Report Halt α) (f : α → Tracked Report Halt β) :
    x.reports ⊆ (x >>= f).reports := by
  obtain ⟨reports, result⟩ := x
  cases result with
  | error reason => exact List.Subset.refl _
  | ok a => exact List.subset_append_left _ _

theorem mem_reports_bind {x : Tracked Report Halt α} {f : α → Tracked Report Halt β} {a : α}
    (yields : x.Yields a) {report : Report} :
    report ∈ (x >>= f).reports ↔ report ∈ x.reports ∨ report ∈ (f a).reports := by
  rw [reports_bind yields, List.mem_append]

@[simp] theorem mem_reports_check {wrong : Prop} [Decidable wrong] {report report' : Report} :
    report' ∈ (check wrong report : Tracked Report Halt Unit).reports ↔ wrong ∧ report' = report := by
  unfold check
  split
  · simp [track, *]
  · simp [Pure.pure, yield, *]

/-! Computations without a report. -/

/-- The computation yields a value and reports nothing. -/
def Clean (x : Tracked Report Halt α) (a : α) : Prop := x = ⟨[], .ok a⟩

theorem Clean.yields {x : Tracked Report Halt α} {a : α} (clean : x.Clean a) : x.Yields a := by
  rw [clean]
  rfl

@[simp] theorem clean_pure {a b : α} :
    (pure a : Tracked Report Halt α).Clean b ↔ a = b := by
  constructor
  · intro same
    cases same
    rfl
  · rintro rfl
    rfl

@[simp] theorem clean_bind {x : Tracked Report Halt α} {f : α → Tracked Report Halt β} {b : β} :
    (x >>= f).Clean b ↔ ∃ a, x.Clean a ∧ (f a).Clean b := by
  obtain ⟨reports, error | a⟩ := x
  · simp [Clean, bind, andThen]
  · constructor
    · intro same
      simp only [Clean, bind, andThen, mk.injEq, List.append_eq_nil_iff] at same
      obtain ⟨⟨rfl, first⟩, second⟩ := same
      refine ⟨a, rfl, ?_⟩
      generalize f a = y at first second
      obtain ⟨_, _⟩ := y
      cases first
      cases second
      rfl
    · rintro ⟨a', same, rest⟩
      cases same
      simp [Clean, bind, andThen, show f a = _ from rest]

@[simp] theorem not_clean_halt {reason : Halt} {a : α} :
    ¬ (halt reason : Tracked Report Halt α).Clean a := by
  intro same
  cases same

@[simp] theorem clean_check {wrong : Prop} [Decidable wrong] {report : Report} {a : Unit} :
    (check wrong report : Tracked Report Halt Unit).Clean a ↔ ¬ wrong := by
  unfold check
  split
  · simp [*, Clean, track]
  · simp [*]

@[simp] theorem clean_unwrap {reason : Halt} {o : Option α} {a : α} :
    (unwrap reason o : Tracked Report Halt α).Clean a ↔ o = some a := by
  cases o <;> simp [unwrap]

/-- A clean pass over a list is a clean pass over each part of it. -/
theorem clean_foldlM_append {f : β → α → Tracked Report Halt β} {before after : List α}
    {init final : β} :
    ((before ++ after).foldlM f init).Clean final ↔
      ∃ middle, (before.foldlM f init).Clean middle ∧ (after.foldlM f middle).Clean final := by
  rw [List.foldlM_append, clean_bind]

theorem clean_foldlM_cons {f : β → α → Tracked Report Halt β} {x : α} {rest : List α}
    {init final : β} :
    ((x :: rest).foldlM f init).Clean final ↔
      ∃ next, (f init x).Clean next ∧ (rest.foldlM f next).Clean final := by
  rw [List.foldlM_cons, clean_bind]

/-! Bounds on computations. -/

variable {Allowed Allowed' : Report → Prop} {Halts Halts' : Halt → Prop} {Post Post' : α → Prop}

/-- The computation reports and halts within bounds, and what it yields meets a condition. -/
structure Meets (x : Tracked Report Halt α) (Allowed : Report → Prop) (Halts : Halt → Prop)
    (Post : α → Prop) : Prop where
  reports : ∀ report ∈ x.reports, Allowed report
  halts : ∀ reason, x.result = .error reason → Halts reason
  yields : ∀ a, x.result = .ok a → Post a

theorem Meets.pure {a : α} (post : Post a) :
    (pure a : Tracked Report Halt α).Meets Allowed Halts Post where
  reports := by simp [Pure.pure, yield]
  halts reason failed := by cases failed
  yields b same := by
    cases same
    exact post

theorem Meets.bind {x : Tracked Report Halt α} {f : α → Tracked Report Halt β}
    {Post' : β → Prop} (first : x.Meets Allowed Halts Post)
    (rest : ∀ a, Post a → (f a).Meets Allowed Halts Post') :
    (x >>= f).Meets Allowed Halts Post' := by
  obtain ⟨reports, error | a⟩ := x
  · refine ⟨first.reports, fun reason same => first.halts reason ?_, fun b same => ?_⟩
    · cases same
      rfl
    · cases same
  · have next := rest a (first.yields a rfl)
    refine ⟨fun report member => ?_, next.halts, next.yields⟩
    rcases List.mem_append.mp member with before | after
    · exact first.reports report before
    · exact next.reports report after

theorem Meets.mono {x : Tracked Report Halt α} (meets : x.Meets Allowed Halts Post)
    (post : ∀ a, Post a → Post' a) : x.Meets Allowed Halts Post' :=
  ⟨meets.reports, meets.halts, fun a same => post a (meets.yields a same)⟩

theorem Meets.sole {x : Tracked Report Halt α} {a : α} (meets : x.Meets Allowed Halts Post)
    (yields : x.Yields a) : x.Meets Allowed Halts (· = a) :=
  ⟨meets.reports, meets.halts, fun _ same => Except.ok.inj (same.symm.trans yields)⟩

theorem Meets.track {report : Report} (allowed : Allowed report) {Post : Unit → Prop}
    (post : Post ()) : (track report : Tracked Report Halt Unit).Meets Allowed Halts Post where
  reports := by simpa [Tracked.track] using allowed
  halts reason failed := by cases failed
  yields _ _ := post

theorem Meets.halt {reason : Halt} (halts : Halts reason) :
    (halt reason : Tracked Report Halt α).Meets Allowed Halts Post where
  reports := by simp [Tracked.halt]
  halts reason' same := by
    cases same
    exact halts
  yields a same := by cases same

theorem Meets.check {wrong : Prop} [Decidable wrong] {report : Report}
    (allowed : wrong → Allowed report) :
    (check wrong report : Tracked Report Halt Unit).Meets Allowed Halts fun _ => True := by
  unfold Tracked.check
  split
  · exact .track (allowed ‹_›) trivial
  · exact .pure trivial

theorem Meets.unwrap {reason : Halt} {o : Option α} (halts : o = none → Halts reason)
    (post : ∀ a, o = some a → Post a) :
    (unwrap reason o : Tracked Report Halt α).Meets Allowed Halts Post := by
  cases o with
  | none => exact .halt (halts rfl)
  | some a => exact .pure (post a rfl)

/-- What follows an unwrapped option may use what the option holds. -/
theorem Meets.unwrap_bind {reason : Halt} {o : Option α} {f : α → Tracked Report Halt β}
    {Post' : β → Prop} (halts : o = none → Halts reason)
    (rest : ∀ a, o = some a → (f a).Meets Allowed Halts Post') :
    (Tracked.unwrap reason o >>= f).Meets Allowed Halts Post' :=
  .bind (.unwrap halts fun _ same => same) rest

theorem Meets.seq {x : Tracked Report Halt α} {f : α → Tracked Report Halt β} {Post' : β → Prop}
    (first : x.Meets Allowed Halts fun _ => True) (rest : ∀ a, (f a).Meets Allowed Halts Post') :
    (x >>= f).Meets Allowed Halts Post' :=
  first.bind fun a _ => rest a

end Tracked

end Workbench.Library
