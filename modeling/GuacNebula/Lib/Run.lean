import Mathlib.Tactic.TypeStar

/-! # Guarded runs of a deterministic step function

A component that is driven from outside is a step function `State → Action → State`, and a
run is a list of actions. Two questions are asked of a run: does a predicate hold in every
state it visits (`Always`), and does every action meet a condition on the state it is taken
in (`Guarded`). `Guarded.always` is the induction every safety theorem of the development
is an instance of, and `always_iff_guarded` is its converse for a guard that is exact, that
is for one that fails precisely when the step breaks the predicate.
-/

namespace GuacNebula.Run

variable {State Action : Type*} (step : State → Action → State)

/-- The state reached by taking the actions of a run in order. -/
def exec (state : State) (actions : List Action) : State :=
  actions.foldl step state

/-- A predicate holds in every state visited by a run, the first and the last included. -/
def Always (predicate : State → Prop) : State → List Action → Prop
  | state, [] => predicate state
  | state, action :: actions =>
      predicate state ∧ Always predicate (step state action) actions

/-- Every action of a run meets a condition in the state in which it is taken. -/
def Guarded (guard : State → Action → Prop) : State → List Action → Prop
  | _, [] => True
  | state, action :: actions =>
      guard state action ∧ Guarded guard (step state action) actions

/-- A run can be checked against a condition that can be decided. -/
instance Guarded.decidable (guard : State → Action → Prop)
    [∀ state action, Decidable (guard state action)] :
    ∀ state actions, Decidable (Guarded step guard state actions)
  | _, [] => isTrue trivial
  | state, action :: actions =>
      have := Guarded.decidable guard (step state action) actions
      inferInstanceAs (Decidable (_ ∧ _))

@[simp] theorem exec_nil (state : State) : exec step state [] = state := rfl

@[simp] theorem exec_cons (state : State) (action : Action) (actions : List Action) :
    exec step state (action :: actions) = exec step (step state action) actions := rfl

@[simp] theorem exec_append (state : State) (first second : List Action) :
    exec step state (first ++ second) = exec step (exec step state first) second :=
  List.foldl_append ..

variable {step} {predicate stronger : State → Prop} {guard : State → Action → Prop}

theorem Always.head {state : State} {actions : List Action}
    (always : Always step predicate state actions) : predicate state := by
  cases actions with
  | nil => exact always
  | cons action actions => exact always.1

theorem Always.last {state : State} {actions : List Action}
    (always : Always step predicate state actions) :
    predicate (exec step state actions) := by
  induction actions generalizing state with
  | nil => exact always
  | cons action actions ih => exact ih always.2

/-- A predicate holds throughout a run if it does throughout both of its parts. -/
theorem Always.append {state : State} {first second : List Action}
    (left : Always step predicate state first)
    (right : Always step predicate (exec step state first) second) :
    Always step predicate state (first ++ second) := by
  induction first generalizing state with
  | nil => exact right
  | cons action first ih => exact ⟨left.1, ih left.2 right⟩

/-- A run meets a condition if its first part does, and its second part from where that one ends. -/
theorem guarded_append {state : State} {first second : List Action} :
    Guarded step guard state (first ++ second) ↔
      Guarded step guard state first ∧ Guarded step guard (exec step state first) second := by
  induction first generalizing state with
  | nil => exact ⟨fun met => ⟨trivial, met⟩, And.right⟩
  | cons action first ih => exact (and_congr_right fun _ => ih).trans and_assoc.symm

/-- Every run meets the condition that is always met. -/
theorem guarded_trivial (state : State) (actions : List Action) :
    Guarded step (fun _ _ => True) state actions := by
  induction actions generalizing state with
  | nil => trivial
  | cons action actions ih => exact ⟨trivial, ih (step state action)⟩

/-- A predicate that follows from another one holds wherever that one does. -/
theorem Always.mono {state : State} {actions : List Action}
    (always : Always step stronger state actions)
    (weaken : ∀ state, stronger state → predicate state) :
    Always step predicate state actions := by
  induction actions generalizing state with
  | nil => exact weaken state always
  | cons action actions ih => exact ⟨weaken state always.1, ih always.2⟩

/-- A condition that follows from a predicate is met by a run that keeps the predicate. -/
theorem Always.guarded {state : State} {actions : List Action}
    (always : Always step predicate state actions)
    (met : ∀ state action, predicate state → guard state action) :
    Guarded step guard state actions := by
  induction actions generalizing state with
  | nil => trivial
  | cons action actions ih => exact ⟨met state action always.1, ih always.2⟩

/-- A condition that follows from another one is met wherever that one is. -/
theorem Guarded.mono {weaker : State → Action → Prop} {state : State} {actions : List Action}
    (guarded : Guarded step guard state actions)
    (weaken : ∀ state action, guard state action → weaker state action) :
    Guarded step weaker state actions := by
  induction actions generalizing state with
  | nil => trivial
  | cons action actions ih => exact ⟨weaken state action guarded.1, ih guarded.2⟩

/-- An invariant kept by every guarded step holds throughout every guarded run. -/
theorem Guarded.always {state : State} {actions : List Action}
    (guarded : Guarded step guard state actions) (initial : predicate state)
    (kept : ∀ state action, predicate state → guard state action →
      predicate (step state action)) :
    Always step predicate state actions := by
  induction actions generalizing state with
  | nil => exact initial
  | cons action actions ih =>
      exact ⟨initial, ih guarded.2 (kept state action initial guarded.1)⟩

/-- The state after a guarded run satisfies every invariant of the guarded steps. -/
theorem Guarded.exec {state : State} {actions : List Action}
    (guarded : Guarded step guard state actions) (initial : predicate state)
    (kept : ∀ state action, predicate state → guard state action →
      predicate (step state action)) :
    predicate (exec step state actions) :=
  (guarded.always initial kept).last

/-- An invariant kept by every step holds at the end of every run. -/
theorem exec_invariant {state : State} {actions : List Action} (initial : predicate state)
    (kept : ∀ state action, predicate state → predicate (step state action)) :
    predicate (exec step state actions) := by
  induction actions generalizing state with
  | nil => exact initial
  | cons action actions ih => exact ih (kept state action initial)

/-- An invariant kept by every step holds throughout every run. -/
theorem always_invariant {state : State} {actions : List Action} (initial : predicate state)
    (kept : ∀ state action, predicate state → predicate (step state action)) :
    Always step predicate state actions := by
  induction actions generalizing state with
  | nil => exact initial
  | cons action actions ih => exact ⟨initial, ih (kept state action initial)⟩

/-- A condition that follows from an invariant is met by every step of every run. -/
theorem guarded_of_invariant {state : State} {actions : List Action} (initial : predicate state)
    (kept : ∀ state action, predicate state → predicate (step state action))
    (met : ∀ state action, predicate state → guard state action) :
    Guarded step guard state actions := by
  induction actions generalizing state with
  | nil => trivial
  | cons action actions ih => exact ⟨met state action initial, ih (kept state action initial)⟩

/-- Two conditions that are the same wherever an invariant holds are met by the same runs. -/
theorem guarded_iff_of_invariant {second : State → Action → Prop} {invariant : State → Prop}
    {state : State} {actions : List Action} (sound : invariant state)
    (kept : ∀ state action, invariant state → invariant (step state action))
    (same : ∀ state action, invariant state → (guard state action ↔ second state action)) :
    Guarded step guard state actions ↔ Guarded step second state actions := by
  induction actions generalizing state with
  | nil => exact Iff.rfl
  | cons action actions ih =>
      exact and_congr (same state action sound) (ih (kept state action sound))

/-- A guard on a part of the state can be checked on runs of that part alone. -/
theorem guarded_view_iff {Part : Type*} {partStep : Part → Action → Part}
    {guard : Part → Action → Prop} {invariant : State → Prop} {state : State}
    {actions : List Action} (view : State → Part) (sound : invariant state)
    (kept : ∀ state action, invariant state → invariant (step state action))
    (commutes : ∀ state action, invariant state →
      view (step state action) = partStep (view state) action) :
    Guarded step (fun state action => guard (view state) action) state actions ↔
      Guarded partStep guard (view state) actions := by
  induction actions generalizing state with
  | nil => exact Iff.rfl
  | cons action actions ih =>
      refine and_congr_right fun _ => ?_
      rw [ih (kept state action sound), commutes state action sound]

/-- When the guard fails exactly where the step breaks the predicate, a run keeps the
predicate throughout if and only if all its steps meet the guard. The guard need only be exact
for actions that meet a condition of the run, in the states that meet an invariant, which steps
between good states keep. -/
theorem Guarded.always_iff {valid : State → Action → Prop} {invariant : State → Prop}
    {state : State} {actions : List Action} (allowed : Guarded step valid state actions)
    (initial : predicate state) (sound : invariant state)
    (kept : ∀ state action, valid state action → invariant state → predicate state →
      predicate (step state action) → invariant (step state action))
    (precise : ∀ state action, valid state action → invariant state → predicate state →
      (predicate (step state action) ↔ guard state action)) :
    Always step predicate state actions ↔ Guarded step guard state actions := by
  induction actions generalizing state with
  | nil => exact ⟨fun _ => trivial, fun _ => initial⟩
  | cons action actions ih =>
      have here := precise state action allowed.1 sound initial
      constructor
      · rintro ⟨_, rest⟩
        have stays := kept state action allowed.1 sound initial rest.head
        exact ⟨here.mp rest.head, (ih allowed.2 rest.head stays).mp rest⟩
      · rintro ⟨met, rest⟩
        have next := here.mpr met
        have stays := kept state action allowed.1 sound initial next
        exact ⟨initial, (ih allowed.2 next stays).mpr rest⟩

/-- The same for runs of all actions. -/
theorem always_iff_guarded {invariant : State → Prop} {state : State} {actions : List Action}
    (initial : predicate state) (sound : invariant state)
    (kept : ∀ state action, invariant state → predicate state → predicate (step state action) →
      invariant (step state action))
    (precise : ∀ state action, invariant state → predicate state →
      (predicate (step state action) ↔ guard state action)) :
    Always step predicate state actions ↔ Guarded step guard state actions := by
  exact (guarded_trivial state actions).always_iff initial sound
    (fun state action _ => kept state action) fun state action _ => precise state action

end GuacNebula.Run
