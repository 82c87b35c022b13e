import Mathlib.Order.Basic

/-! # Loops with a measure

A loop repeats a step until the step stops. It is run with as many steps as a measure allows, and
when every step lowers the measure this is the loop itself: it ends where the step stops
(`repeatStep_stops`).
-/

namespace Loops

variable {State : Type}

/-- Take a number of steps, or fewer when the step stops. -/
def stepTimes (step : State → Option State) : Nat → State → State
  | 0, state => state
  | count + 1, state =>
      match step state with
      | some after => stepTimes step count after
      | none => state

/-- Repeat a step as often as the measure of the state allows. -/
def repeatStep (step : State → Option State) (measure : State → Nat) (state : State) : State :=
  stepTimes step (measure state) state

/-- The states in which a step is taken, within a number of steps. -/
def visited (step : State → Option State) : Nat → State → List State
  | 0, _ => []
  | count + 1, state =>
      match step state with
      | some after => state :: visited step count after
      | none => []

theorem stepTimes_invariant {step : State → Option State} {invariant : State → Prop}
    (preserved : ∀ before after, invariant before → step before = some after → invariant after) :
    ∀ {count : Nat} {state : State}, invariant state → invariant (stepTimes step count state) := by
  intro count
  induction count with
  | zero => exact fun holds => holds
  | succ count ih =>
      intro state holds
      rw [stepTimes]
      cases stepped : step state with
      | none => exact holds
      | some after => exact ih (preserved state after holds stepped)

/-- What every step preserves holds at the end of the loop. -/
theorem repeatStep_invariant {step : State → Option State} {measure : State → Nat}
    {invariant : State → Prop}
    (preserved : ∀ before after, invariant before → step before = some after → invariant after)
    {state : State} (holds : invariant state) : invariant (repeatStep step measure state) :=
  stepTimes_invariant preserved holds

/-- A loop whose first step is taken goes on from there. -/
theorem repeatStep_invariant_step {step : State → Option State} {measure : State → Nat}
    {invariant : State → Prop}
    (preserved : ∀ before after, invariant before → step before = some after → invariant after)
    {state next : State} (allowed : 0 < measure state) (stepped : step state = some next)
    (holds : invariant next) : invariant (repeatStep step measure state) := by
  rw [repeatStep, ← Nat.succ_pred_eq_of_pos allowed, stepTimes, stepped]
  exact stepTimes_invariant preserved holds

theorem stepTimes_stops {step : State → Option State} {measure : State → Nat}
    (falls : ∀ before after, step before = some after → measure after < measure before) :
    ∀ {count : Nat} {state : State}, measure state ≤ count →
      step (stepTimes step count state) = none := by
  intro count
  induction count with
  | zero =>
      intro state bound
      rw [stepTimes]
      cases stepped : step state with
      | none => rfl
      | some after => exact absurd (falls state after stepped) (by omega)
  | succ count ih =>
      intro state bound
      rw [stepTimes]
      cases stepped : step state with
      | none => exact stepped
      | some after =>
          have lower := falls state after stepped
          exact ih (by omega)

/-- The loop ends where its step stops. -/
theorem repeatStep_stops {step : State → Option State} {measure : State → Nat}
    (falls : ∀ before after, step before = some after → measure after < measure before)
    (state : State) : step (repeatStep step measure state) = none :=
  stepTimes_stops falls (Nat.le_refl _)

/-- A loop whose steps keep an invariant, and lower the measure where it holds, ends where its step
stops, with the invariant. -/
theorem repeatStep_ends {step : State → Option State} {measure : State → Nat}
    {invariant : State → Prop}
    (preserved : ∀ before after, invariant before → step before = some after →
      invariant after ∧ measure after < measure before)
    {state : State} (holds : invariant state) :
    invariant (repeatStep step measure state) ∧ step (repeatStep step measure state) = none := by
  have run : ∀ (count : Nat) (state : State), invariant state → measure state ≤ count →
      invariant (stepTimes step count state) ∧ step (stepTimes step count state) = none := by
    intro count
    induction count with
    | zero =>
        intro state holds bound
        rw [stepTimes]
        cases stepped : step state with
        | none => exact ⟨holds, rfl⟩
        | some after => exact absurd (preserved state after holds stepped).2 (by omega)
    | succ count ih =>
        intro state holds bound
        rw [stepTimes]
        cases stepped : step state with
        | none => exact ⟨holds, stepped⟩
        | some after =>
            obtain ⟨kept, lower⟩ := preserved state after holds stepped
            exact ih after kept (by omega)
  exact run (measure state) state holds (Nat.le_refl _)

/-- A loop that stops at once changes nothing. -/
theorem repeatStep_of_none {step : State → Option State} {measure : State → Nat} {state : State}
    (stopped : step state = none) : repeatStep step measure state = state := by
  rw [repeatStep]
  cases measure state with
  | zero => rfl
  | succ count => rw [stepTimes, stopped]

/-- The second state comes after the first by steps. -/
inductive Steps (step : State → Option State) : State → State → Prop
  | refl {state : State} : Steps step state state
  | head {state next last : State} (stepped : step state = some next)
      (others : Steps step next last) : Steps step state last

theorem stepTimes_steps {step : State → Option State} : ∀ (count : Nat) (state : State),
    Steps step state (stepTimes step count state) := by
  intro count
  induction count with
  | zero => exact fun _ => .refl
  | succ count ih =>
      intro state
      rw [stepTimes]
      cases stepped : step state with
      | none => exact .refl
      | some after => exact .head stepped (ih after)

theorem repeatStep_steps (step : State → Option State) (measure : State → Nat) (state : State) :
    Steps step state (repeatStep step measure state) :=
  stepTimes_steps _ _

/-- The loop ends in any state that its steps lead to and in which it stops. -/
theorem Steps.repeatStep_eq {step : State → Option State} {measure : State → Nat}
    (falls : ∀ before after, step before = some after → measure after < measure before)
    {state last : State} (steps : Steps step state last) (stopped : step last = none) :
    repeatStep step measure state = last := by
  have run : ∀ count, measure state ≤ count → stepTimes step count state = last := by
    induction steps with
    | refl =>
        intro count _
        cases count with
        | zero => rfl
        | succ count => rw [stepTimes, stopped]
    | head stepped others ih =>
        intro count enough
        have lower := falls _ _ stepped
        obtain ⟨fewer, rfl⟩ := Nat.exists_eq_succ_of_ne_zero
          (Nat.ne_zero_of_lt (Nat.lt_of_lt_of_le lower enough))
        rw [stepTimes, stepped]
        exact ih stopped fewer (by omega)
  exact run _ (Nat.le_refl _)

end Loops
