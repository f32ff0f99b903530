import Mathlib.Data.List.Basic

/-! # Runs of a labelled transition system

A run is a list of labels with the states they lead to. An invariant that is kept as long as a condition holds
can be read off the condition: a property that means the same as the condition under the invariant holds of
all states of a run exactly when the condition does, since both fail first at the same state.
-/

namespace LabelledRuns

variable {State Label : Type*} (step : State → Label → State → Prop)

inductive Run : State → List (Label × State) → Prop
  | nil (state : State) : Run state []
  | cons {state next : State} {label : Label} {rest : List (Label × State)} (stepped : step state label next)
      (continued : Run next rest) : Run state ((label, next) :: rest)

/-- The states of a run. -/
def visited (state : State) (run : List (Label × State)) : List State := state :: run.map Prod.snd

/-- The steps of a run. -/
def moves : State → List (Label × State) → List (State × Label × State)
  | _, [] => []
  | state, (label, next) :: rest => (state, label, next) :: moves next rest

variable {step} {state : State} {run : List (Label × State)} {Invariant Condition : State → Prop}

theorem visited_cons (label : Label) (next : State) (rest : List (Label × State)) :
    visited state ((label, next) :: rest) = state :: visited next rest := rfl

/-- The invariant holds as long as the condition does. -/
theorem Run.invariant (keeps : ∀ {state label next}, Invariant state → Condition state → step state label next →
    Invariant next) (initial : Invariant state) (runs : Run step state run)
    (condition : ∀ other ∈ visited state run, Condition other) : ∀ other ∈ visited state run, Invariant other := by
  induction runs with
  | nil state => simpa [visited] using initial
  | cons stepped continued ih =>
    rw [visited_cons] at condition ⊢
    rw [List.forall_mem_cons] at condition ⊢
    exact ⟨initial, ih (keeps initial condition.1 stepped) condition.2⟩

/-- Where the condition fails first, the invariant still holds. -/
theorem Run.condition_of_property {Property : State → Prop}
    (keeps : ∀ {state label next}, Invariant state → Condition state → step state label next → Invariant next)
    (implies : ∀ {state}, Invariant state → Property state → Condition state) (initial : Invariant state)
    (runs : Run step state run) (holds : ∀ other ∈ visited state run, Property other) :
    ∀ other ∈ visited state run, Condition other := by
  induction runs with
  | nil state =>
    simp only [visited, List.map_nil, List.mem_singleton, forall_eq] at holds ⊢
    exact implies initial holds
  | cons stepped continued ih =>
    rw [visited_cons] at holds ⊢
    rw [List.forall_mem_cons] at holds ⊢
    have condition := implies initial holds.1
    exact ⟨condition, ih (keeps initial condition stepped) holds.2⟩

/-- A property of steps holds along a run whose states satisfy the invariant and the condition. -/
theorem Run.forall_moves {Property : State → Label → State → Prop}
    (implies : ∀ {state label next}, Invariant state → Condition state → Invariant next → Condition next →
      step state label next → Property state label next) (runs : Run step state run)
    (invariant : ∀ other ∈ visited state run, Invariant other)
    (condition : ∀ other ∈ visited state run, Condition other) :
    ∀ move ∈ moves state run, Property move.1 move.2.1 move.2.2 := by
  induction runs with
  | nil state => simp [moves]
  | cons stepped continued ih =>
    rw [visited_cons, List.forall_mem_cons] at invariant condition
    rw [moves, List.forall_mem_cons]
    refine ⟨?_, ih invariant.2 condition.2⟩
    exact implies invariant.1 condition.1 (invariant.2 _ List.mem_cons_self) (condition.2 _ List.mem_cons_self) stepped

/-- A property that follows from the invariant, and fails right after a step that is not allowed, holds along a
run exactly when all its steps are allowed. -/
theorem Run.property_iff {Allowed : State → Label → Prop} {Property : State → Prop}
    (keeps : ∀ state label next, Invariant state → Allowed state label → step state label next → Invariant next)
    (implies : ∀ state, Invariant state → Property state)
    (breaks : ∀ state label next, Invariant state → step state label next → Property next → Allowed state label)
    (initial : Invariant state) (runs : Run step state run) :
    (∀ other ∈ visited state run, Property other) ↔ ∀ move ∈ moves state run, Allowed move.1 move.2.1 := by
  induction runs with
  | nil state => simpa [visited, moves] using implies state initial
  | @cons state next label rest stepped continued ih =>
    rw [visited_cons, moves, List.forall_mem_cons, List.forall_mem_cons]
    constructor
    · rintro ⟨-, holds⟩
      have allowed := breaks _ _ _ initial stepped (holds next List.mem_cons_self)
      exact ⟨allowed, (ih (keeps _ _ _ initial allowed stepped)).mp holds⟩
    · rintro ⟨allowed, others⟩
      exact ⟨implies state initial, (ih (keeps _ _ _ initial allowed stepped)).mpr others⟩

end LabelledRuns
