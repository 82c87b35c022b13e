import Mathlib.Data.List.Basic
import Mathlib.Logic.Function.Iterate
import Mathlib.Tactic

/-! # Observable behaviour

What a program does to its surroundings: the effects it performs, in order and with their
operands, and the value it returns. A run is a function from a number of steps (or an amount of
fuel) to what has been observed by then. Two programs behave the same when they return the same
values after the same effects and, whether or not they return, perform the same effects.
-/

namespace Flow

/-- The meaning of operations: what they compute, alone or from the world, which values are true,
and what an effect answers and does to the world. An effect may also fail to come back. -/
structure Interpretation (Op Value World : Type) where
  scalar : Op → List Value → Value
  read : Op → List Value → World → Value
  truth : Value → Bool
  effect : Op → List Value → World → Option (Value × World)

/-- The world, and the effects performed so far with their operands. -/
structure Surroundings (Op Value World : Type) where
  world : World
  trace : List (Op × List Value)

section Behaviour

variable {Op Value World : Type}

/-- The answer of an effect, when it comes back, and the surroundings after it. -/
def Interpretation.perform (meaning : Interpretation Op Value World) (op : Op)
    (operands : List Value) (before : Surroundings Op Value World) :
    Option Value × Surroundings Op Value World :=
  match meaning.effect op operands before.world with
  | some (answer, world) => (some answer, ⟨world, before.trace ++ [(op, operands)]⟩)
  | none => (none, ⟨before.world, before.trace ++ [(op, operands)]⟩)

/-- The effects observed, and the value returned once a program has returned. -/
abbrev Observation (Op Value : Type) := List (Op × List Value) × Option (Option Value)

/-- Two runs return the same and perform the same effects. -/
def SameBehaviour (first second : Nat → Observation Op Value) : Prop :=
  (∀ trace result, (∃ steps, first steps = (trace, some result)) ↔
    ∃ steps, second steps = (trace, some result)) ∧
  ∀ trace, (∃ steps, trace <+: (first steps).1) ↔ ∃ steps, trace <+: (second steps).1

/-- A run only ever adds effects, and nothing after it has returned. -/
structure Progressive (run : Nat → Observation Op Value) : Prop where
  grows : ∀ {early late : Nat}, early ≤ late → (run early).1 <+: (run late).1
  stays : ∀ {early late : Nat} {result : Option Value}, early ≤ late →
    (run early).2 = some result → run late = run early

/-- A run returns once. -/
theorem Progressive.returns_unique {run : Nat → Observation Op Value}
    (progressive : Progressive run) {early late : Nat} {first second : Option Value}
    (returned : (run early).2 = some first) (again : (run late).2 = some second) :
    first = second := by
  rcases Nat.le_total early late with before | before
  · rw [progressive.stays before returned, returned] at again
    exact Option.some.inj again
  · rw [progressive.stays before again, again] at returned
    exact (Option.some.inj returned).symm

/-- Runs that return different values behave differently. -/
theorem Progressive.not_sameBehaviour {first second : Nat → Observation Op Value}
    (progressive : Progressive second) {early late : Nat} {left right : Option Value}
    (returned : (first early).2 = some left) (other : (second late).2 = some right)
    (differ : left ≠ right) : ¬SameBehaviour first second := by
  intro same
  obtain ⟨steps, observed⟩ := (same.1 (first early).1 left).mp
    ⟨early, Prod.ext rfl returned⟩
  exact differ (progressive.returns_unique (by rw [observed]) other)

theorem SameBehaviour.symm {first second : Nat → Observation Op Value}
    (same : SameBehaviour first second) : SameBehaviour second first :=
  ⟨fun trace result => (same.1 trace result).symm, fun trace => (same.2 trace).symm⟩

theorem SameBehaviour.trans {first second third : Nat → Observation Op Value}
    (left : SameBehaviour first second) (right : SameBehaviour second third) :
    SameBehaviour first third :=
  ⟨fun trace result => (left.1 trace result).trans (right.1 trace result),
    fun trace => (left.2 trace).trans (right.2 trace)⟩

/-- A progressive run behaves like one whose every observation it makes, arbitrarily late. -/
theorem sameBehaviour_of_follows {first second : Nat → Observation Op Value}
    (progressive : Progressive second)
    (follows : ∀ steps, ∃ later, steps ≤ later ∧ second later = first steps) :
    SameBehaviour first second := by
  refine ⟨fun trace result => ⟨?_, ?_⟩, fun trace => ⟨?_, ?_⟩⟩
  · rintro ⟨steps, observed⟩
    obtain ⟨later, -, same⟩ := follows steps
    exact ⟨later, same.trans observed⟩
  · rintro ⟨steps, observed⟩
    obtain ⟨later, after, same⟩ := follows steps
    refine ⟨steps, ?_⟩
    rw [← same, progressive.stays after (by rw [observed]), observed]
  · rintro ⟨steps, begins⟩
    obtain ⟨later, -, same⟩ := follows steps
    exact ⟨later, by rwa [same]⟩
  · rintro ⟨steps, begins⟩
    obtain ⟨later, after, same⟩ := follows steps
    refine ⟨steps, ?_⟩
    rw [← same]
    exact begins.trans (progressive.grows after)

/-- Progressive runs that agree arbitrarily late behave the same. -/
theorem sameBehaviour_of_meets {first second : Nat → Observation Op Value}
    (left : Progressive first) (right : Progressive second)
    (meets : ∀ steps, ∃ early late, steps ≤ early ∧ steps ≤ late ∧ first early = second late) :
    SameBehaviour first second := by
  have forward {first second : Nat → Observation Op Value} (left : Progressive first)
      (meets : ∀ steps, ∃ early late, steps ≤ early ∧ first early = second late) :
      (∀ trace result, (∃ steps, first steps = (trace, some result)) →
        ∃ steps, second steps = (trace, some result)) ∧
      ∀ trace, (∃ steps, trace <+: (first steps).1) → ∃ steps, trace <+: (second steps).1 := by
    constructor
    · rintro trace result ⟨steps, observed⟩
      obtain ⟨early, late, after, same⟩ := meets steps
      refine ⟨late, ?_⟩
      rw [← same, left.stays after (by rw [observed]), observed]
    · rintro trace ⟨steps, begins⟩
      obtain ⟨early, late, after, same⟩ := meets steps
      refine ⟨late, ?_⟩
      rw [← same]
      exact begins.trans (left.grows after)
  obtain ⟨returns, performs⟩ := forward left fun steps => by
    obtain ⟨early, late, after, -, same⟩ := meets steps
    exact ⟨early, late, after, same⟩
  obtain ⟨returned, performed⟩ := forward right fun steps => by
    obtain ⟨early, late, -, after, same⟩ := meets steps
    exact ⟨late, early, after, same.symm⟩
  exact ⟨fun trace result => ⟨returns trace result, returned trace result⟩,
    fun trace => ⟨performs trace, performed trace⟩⟩

end Behaviour

/-! ## Machines -/

section Machine

variable {Op Value State Other : Type}

/-- A machine whose single steps only add effects, and that rests once it has returned. -/
structure Machine (Op Value State : Type) where
  step : State → State
  observe : State → Observation Op Value
  grows : ∀ state, (observe state).1 <+: (observe (step state)).1
  rests : ∀ state result, (observe state).2 = some result → step state = state

namespace Machine

def run (machine : Machine Op Value State) (start : State) (steps : Nat) : Observation Op Value :=
  machine.observe (machine.step^[steps] start)

theorem progressive (machine : Machine Op Value State) (start : State) :
    Progressive (machine.run start) := by
  constructor
  · intro early late before
    obtain ⟨extra, rfl⟩ := Nat.exists_eq_add_of_le before
    clear before
    induction extra with
    | zero => exact List.prefix_rfl
    | succ extra ih =>
        refine ih.trans ?_
        unfold run
        rw [← Nat.add_assoc, Function.iterate_succ_apply']
        exact machine.grows _
  · intro early late result before returned
    obtain ⟨extra, rfl⟩ := Nat.exists_eq_add_of_le' before
    have fixed : machine.step^[early] start = machine.step (machine.step^[early] start) :=
      (machine.rests _ result returned).symm
    unfold run
    rw [Function.iterate_add_apply, Function.iterate_fixed fixed.symm]

/-- A relation whose pairs look the same and that both machines can always reach again. -/
theorem sameBehaviour_of_simulation {machine : Machine Op Value State}
    {other : Machine Op Value Other} {related : State → Other → Prop}
    (alike : ∀ {state : State} {partner : Other}, related state partner →
      machine.observe state = other.observe partner)
    (advance : ∀ {state : State} {partner : Other}, related state partner → ∃ steps moves,
      0 < steps ∧ 0 < moves ∧ related (machine.step^[steps] state) (other.step^[moves] partner))
    {start : State} {partner : Other} (initial : related start partner) :
    SameBehaviour (machine.run start) (other.run partner) := by
  have reach : ∀ count, ∃ steps moves, count ≤ steps ∧ count ≤ moves ∧
      related (machine.step^[steps] start) (other.step^[moves] partner) := by
    intro count
    induction count with
    | zero => exact ⟨0, 0, le_rfl, le_rfl, initial⟩
    | succ count ih =>
        obtain ⟨steps, moves, enough, also, holds⟩ := ih
        obtain ⟨more, extra, positive, nonzero, after⟩ := advance holds
        refine ⟨more + steps, extra + moves, by omega, by omega, ?_⟩
        rwa [Function.iterate_add_apply, Function.iterate_add_apply]
  refine sameBehaviour_of_meets (machine.progressive start) (other.progressive partner) ?_
  intro count
  obtain ⟨steps, moves, enough, also, holds⟩ := reach count
  exact ⟨steps, moves, enough, also, alike holds⟩

end Machine

end Machine

end Flow
