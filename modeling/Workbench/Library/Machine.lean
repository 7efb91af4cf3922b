import Mathlib.Algebra.Order.Ring.Nat
import Mathlib.Data.List.Basic

/-! Runs of a machine whose actions carry every choice of its environment,
and the induction rules that carry a step property to whole runs. -/

set_option autoImplicit false

namespace Workbench.Library

variable {State Action : Type}

/-- A run, listing newest first each state it left and the action taken there. -/
inductive Run (step : State → Action → Option State) (first : State) :
    List (State × Action) → State → Prop where
  | start : Run step first [] first
  | next {past : List (State × Action)} {state state' : State} {action : Action} :
      Run step first past state → step state action = some state' →
      Run step first ((state, action) :: past) state'

/-- The states of a run, newest first. -/
def visited (past : List (State × Action)) (final : State) : List State :=
  final :: past.map Prod.fst

variable {step : State → Action → Option State} {first final : State}
  {past : List (State × Action)}

/-- What holds at first and is kept by every step that meets `Meets` holds at
the end of every run whose steps all meet it. -/
theorem Run.guarded (run : Run step first past final) (Holds : State → Prop)
    (Meets : State → Action → Prop) (initial : Holds first)
    (meets : ∀ move ∈ past, Meets move.1 move.2)
    (kept : ∀ state action state', Holds state → Meets state action →
      step state action = some state' → Holds state') : Holds final := by
  induction run with
  | start => exact initial
  | next run taken ih =>
      have earlier := ih fun move member => meets move (List.mem_cons_of_mem _ member)
      exact kept _ _ _ earlier (meets _ List.mem_cons_self) taken

/-- The guarded rule for every state of the run. -/
theorem Run.guarded_visited (run : Run step first past final) (Holds : State → Prop)
    (Meets : State → Action → Prop) (initial : Holds first)
    (meets : ∀ move ∈ past, Meets move.1 move.2)
    (kept : ∀ state action state', Holds state → Meets state action →
      step state action = some state' → Holds state') :
    ∀ state ∈ visited past final, Holds state := by
  induction run with
  | start => simpa [visited] using initial
  | next run taken ih =>
      have earlier := ih fun move member => meets move (List.mem_cons_of_mem _ member)
      have last := kept _ _ _ (earlier _ List.mem_cons_self) (meets _ List.mem_cons_self) taken
      intro state member
      rcases List.mem_cons.mp member with same | member
      · exact same ▸ last
      · exact earlier state member

theorem Run.invariant (run : Run step first past final) (Holds : State → Prop)
    (initial : Holds first)
    (kept : ∀ state action state', Holds state → step state action = some state' →
      Holds state') : Holds final :=
  run.guarded Holds (fun _ _ => True) initial (fun _ _ => trivial)
    fun state action state' holds _ taken => kept state action state' holds taken

/-- Exactness of a step condition: where an invariant makes each step keep a
property exactly when it meets the condition, the property holds in every state
of a run exactly when every step of the run meets the condition. -/
theorem Run.everywhere_iff (run : Run step first past final) (Inv Holds : State → Prop)
    (Meets : State → Action → Prop) (inv : Inv first) (initial : Holds first)
    (invKept : ∀ state action state', Inv state → step state action = some state' → Inv state')
    (exact' : ∀ state action state', Inv state → Holds state →
      step state action = some state' → (Holds state' ↔ Meets state action)) :
    (∀ state ∈ visited past final, Holds state) ↔ ∀ move ∈ past, Meets move.1 move.2 := by
  induction run with
  | start => simpa [visited] using initial
  | @next past state state' action run taken ih =>
      have invState := run.invariant Inv inv invKept
      constructor
      · intro always move member
        have earlier : ∀ state' ∈ visited past state, Holds state' :=
          fun _ inside => always _ (List.mem_cons_of_mem _ inside)
        rcases List.mem_cons.mp member with same | member
        · subst same
          exact (exact' _ _ _ invState (earlier _ List.mem_cons_self) taken).mp
            (always _ List.mem_cons_self)
        · exact ih.mp earlier move member
      · intro meets
        have earlier := ih.mpr fun move member => meets move (List.mem_cons_of_mem _ member)
        intro seen member
        rcases List.mem_cons.mp member with same | member
        · subst same
          exact (exact' _ _ _ invState (earlier _ List.mem_cons_self) taken).mpr
            (meets _ List.mem_cons_self)
        · exact earlier seen member

/-- The states of a run, newest first, each with the part of the run that led to it. -/
def histories (past : List (State × Action)) (final : State) :
    List (List (State × Action) × State) :=
  match past with
  | [] => [([], final)]
  | (state, action) :: past => ((state, action) :: past, final) :: histories past state

/-- What a run did before one of its moves is a run. -/
theorem Run.before {later : List (State × Action)} {move : State × Action}
    (run : Run step first (later ++ move :: past) final) : Run step first past move.1 := by
  induction later generalizing final with
  | nil => cases run with
    | next run taken => exact run
  | cons last later ih => cases run with
    | next run taken => exact ih run

/-! Runs by execution, for evaluating a machine on given actions. -/

def attains (step : State → Action → Option State) (state : State) : List Action → Option State
  | [] => some state
  | action :: rest => (step state action).bind fun next => attains step next rest

theorem Run.next_of_isSome {state : State} (run : Run step first past state) (action : Action)
    (taken : (step state action).isSome = true) :
    Run step first ((state, action) :: past) ((step state action).get taken) :=
  run.next (Option.some_get taken).symm

/-- The moves of a run by execution, oldest first. -/
def moves (step : State → Action → Option State) (state : State) : List Action → List (State × Action)
  | [] => []
  | action :: rest => (state, action) :: ((step state action).map (moves step · rest)).getD []

theorem Run.append_moves {actions : List Action} {state final : State}
    (run : Run step first past state) (reached : attains step state actions = some final) :
    Run step first ((moves step state actions).reverse ++ past) final := by
  induction actions generalizing past state with
  | nil => exact Option.some.inj reached ▸ run
  | cons action rest ih =>
      obtain ⟨next, taken, reached⟩ := Option.bind_eq_some_iff.mp reached
      have later := ih (run.next taken) reached
      simpa [moves, taken] using later

theorem moves_actions {actions : List Action} {state final : State}
    (reached : attains step state actions = some final) :
    (moves step state actions).map Prod.snd = actions := by
  induction actions generalizing state with
  | nil => rfl
  | cons action rest ih =>
      obtain ⟨next, taken, reached⟩ := Option.bind_eq_some_iff.mp reached
      simp [moves, taken, ih reached]

theorem Run.of_moves {actions : List Action} (reached : attains step first actions = some final) :
    Run step first (moves step first actions).reverse final := by
  simpa using Run.append_moves .start reached

theorem Run.append_attains {actions : List Action} {state final : State}
    (run : Run step first past state) (reached : attains step state actions = some final) :
    ∃ later, Run step first (later ++ past) final ∧ later.reverse.map Prod.snd = actions :=
  ⟨_, run.append_moves reached, by rw [List.reverse_reverse, moves_actions reached]⟩

theorem Run.of_attains {actions : List Action}
    (reached : attains step first actions = some final) :
    ∃ past, Run step first past final ∧ past.reverse.map Prod.snd = actions := by
  obtain ⟨past, run, same⟩ := Run.append_attains .start reached
  exact ⟨past, by simpa using run, same⟩

theorem Run.of_isSome (step : State → Action → Option State) (first : State)
    (actions : List Action)
    (reached : (attains step first actions).isSome = true) :
    ∃ past, Run step first past ((attains step first actions).get reached) ∧
      past.reverse.map Prod.snd = actions :=
  Run.of_attains (Option.some_get reached).symm

end Workbench.Library
