import Mathlib.Data.List.Basic
import Mathlib.Tactic

/-! # Agreement up to exhaustion

A machine with bounded resources agrees with a machine without bounds if it does the same until a
resource is exhausted. Agreement of single steps carries over to whole programs: they show the same
observations and end in the same way, or the bounded one stops early.
-/

namespace Heaps

variable {Fault A B C D : Type}

/-- Outcomes with related results, with the same fault, or with an exhausted resource. -/
inductive Agrees (exhausted : Fault) (related : A → B → Prop) :
    Except Fault A → Except Fault B → Prop
  | exhausted (outcome : Except Fault B) : Agrees exhausted related (.error exhausted) outcome
  | fault (fault : Fault) : Agrees exhausted related (.error fault) (.error fault)
  | ok {left : A} {right : B} (results : related left right) :
      Agrees exhausted related (.ok left) (.ok right)

namespace Agrees

variable {exhausted : Fault} {related : A → B → Prop} {also : C → D → Prop}
  {left : Except Fault A} {right : Except Fault B}

theorem bind (agrees : Agrees exhausted related left right) {next : A → Except Fault C}
    {then_ : B → Except Fault D}
    (follow : ∀ first second, related first second →
      Agrees exhausted also (next first) (then_ second)) :
    Agrees exhausted also (left >>= next) (right >>= then_) := by
  cases agrees with
  | exhausted outcome => exact .exhausted _
  | fault fault => exact .fault fault
  | ok results => exact follow _ _ results

/-- The bounded machine computes something more from its result. -/
theorem mapLeft {also : C → B → Prop} (agrees : Agrees exhausted related left right) {next : A → C}
    (follow : ∀ first second, related first second → also (next first) second) :
    Agrees exhausted also (left >>= fun first => .ok (next first)) right := by
  cases agrees with
  | exhausted outcome => exact .exhausted _
  | fault fault => exact .fault fault
  | ok results => exact .ok (follow _ _ results)

theorem mono {weaker : A → B → Prop} (agrees : Agrees exhausted related left right)
    (weaken : ∀ first second, related first second → weaker first second) :
    Agrees exhausted weaker left right := by
  cases agrees with
  | exhausted outcome => exact .exhausted _
  | fault fault => exact .fault fault
  | ok results => exact .ok (weaken _ _ results)

end Agrees

section Programs

variable {Instruction Observation H I : Type}

/-- What is seen of a program, and how it ends. -/
def observe (step : Instruction → H → Except Fault (Observation × H)) :
    List Instruction → H → List Observation × Except Fault H
  | [], state => ([], .ok state)
  | instruction :: rest, state =>
      match step instruction state with
      | .error fault => ([], .error fault)
      | .ok (seen, state) =>
          let run := observe step rest state
          (seen :: run.1, run.2)

/-- Steps that agree make programs agree: the observations are the same and so is the end, or the
resources are exhausted after some of them. -/
theorem observe_agrees {exhausted : Fault} {related : H → I → Prop}
    {left : Instruction → H → Except Fault (Observation × H)}
    {right : Instruction → I → Except Fault (Observation × I)}
    (steps : ∀ instruction first second, related first second →
      Agrees exhausted (fun before after => before.1 = after.1 ∧ related before.2 after.2)
        (left instruction first) (right instruction second)) :
    ∀ (program : List Instruction) (first : H) (second : I), related first second →
      (observe left program first).1 <+: (observe right program second).1 ∧
        ((observe left program first).2 = .error exhausted ∨
          (observe left program first).1 = (observe right program second).1 ∧
            Agrees exhausted related (observe left program first).2
              (observe right program second).2) := by
  intro program
  induction program with
  | nil =>
      intro first second states
      exact ⟨List.prefix_rfl, .inr ⟨rfl, .ok states⟩⟩
  | cons instruction rest ih =>
      intro first second states
      have agrees := steps instruction first second states
      rw [observe, observe]
      generalize left instruction first = before at agrees
      generalize right instruction second = after at agrees
      cases agrees with
      | exhausted outcome => exact ⟨List.nil_prefix, .inl rfl⟩
      | fault fault => exact ⟨List.prefix_rfl, .inr ⟨rfl, .fault fault⟩⟩
      | @ok before after results =>
          obtain ⟨seen, before⟩ := before
          obtain ⟨also, after⟩ := after
          obtain ⟨same, states⟩ := results
          dsimp only at same
          subst same
          obtain ⟨begins, ends⟩ := ih before after states
          refine ⟨List.cons_prefix_cons.mpr ⟨rfl, begins⟩, ?_⟩
          obtain stopped | ⟨all, states⟩ := ends
          · exact .inl stopped
          · exact .inr ⟨congrArg (seen :: ·) all, states⟩

end Programs

end Heaps
