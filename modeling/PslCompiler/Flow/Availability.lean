import PslCompiler.Flow.SsaMachine

/-! # Values that are available

A program reads only assigned values when every block has a set of values that all its
predecessors provide, and uses nothing else that it has not assigned itself.
-/

namespace Flow

variable {Op Value World : Type}

namespace Exit

/-- The registers that leaving a block reads. -/
def reads : Exit → List Nat
  | ret (some register) => [register]
  | branch condition _ _ => [condition]
  | _ => []

def targets : Exit → List Nat
  | jump target => [target]
  | branch _ ifTrue ifFalse => [ifTrue, ifFalse]
  | _ => []

end Exit

/-- All of some values are assigned. -/
def Assigned (values : Nat → Prop) (registers : Nat → Option Value) : Prop :=
  ∀ value, values value → (registers value).isSome = true

theorem Assigned.mapM {values : Nat → Prop} {registers : Nat → Option Value}
    (assigned : Assigned values registers) : ∀ {args : List Nat}, (∀ arg ∈ args, values arg) →
    ∃ operands, args.mapM registers = some operands ∧ operands.length = args.length := by
  intro args
  induction args with
  | nil => exact fun _ => ⟨[], rfl, rfl⟩
  | cons arg rest ih =>
      intro known
      obtain ⟨operands, others, length⟩ := ih fun other member =>
        known other (List.mem_cons_of_mem _ member)
      obtain ⟨operand, here⟩ := Option.isSome_iff_exists.mp
        (assigned arg (known arg List.mem_cons_self))
      refine ⟨operand :: operands, ?_, by rw [List.length_cons, List.length_cons, length]⟩
      rw [List.mapM_cons, here, others]
      rfl

namespace Assignment

/-- An assignment finds its operands among some values, and a move has one. -/
def Provided (values : Nat → Prop) (assignment : Assignment Op) : Prop :=
  (∀ arg ∈ assignment.args, values arg) ∧ (assignment.producer = .move → assignment.args ≠ [])

/-- Each assignment finds its operands among some values and those assigned before it. -/
def AllProvided : (Nat → Prop) → List (Assignment Op) → Prop
  | _, [] => True
  | values, assignment :: rest =>
      assignment.Provided values ∧ AllProvided (fun value => values value ∨ value = assignment.dst) rest

variable {values : Nat → Prop} {meaning : Interpretation Op Value World}

/-- An assignment with its operands assigns its destination, and nothing else. -/
theorem Provided.run {assignment : Assignment Op} (provided : assignment.Provided values)
    {store next : Store Op Value World} (assigned : Assigned values store.registers)
    (ran : assignment.run meaning store = .running next) :
    ∃ value, next.registers = Function.update store.registers assignment.dst (some value) := by
  obtain ⟨operands, given, length⟩ := assigned.mapM provided.1
  simp only [Assignment.run, given] at ran
  cases producer : assignment.producer with
  | scalar op =>
      simp only [producer] at ran
      cases ran
      exact ⟨_, rfl⟩
  | read op =>
      simp only [producer] at ran
      cases ran
      exact ⟨_, rfl⟩
  | move =>
      simp only [producer, Option.bind_some] at ran
      cases ran
      cases operands with
      | nil => exact (provided.2 producer (List.length_eq_zero_iff.mp length.symm)).elim
      | cons operand rest => exact ⟨operand, rfl⟩
  | effect op =>
      simp only [producer] at ran
      split at ran
      · cases ran
        exact ⟨_, rfl⟩
      · cases ran

theorem Provided.assigned {assignment : Assignment Op} (provided : assignment.Provided values)
    {store next : Store Op Value World} (assigned : Assigned values store.registers)
    (ran : assignment.run meaning store = .running next) :
    Assigned (fun value => values value ∨ value = assignment.dst) next.registers := by
  obtain ⟨value, same⟩ := provided.run assigned ran
  intro register known
  rw [same]
  by_cases here : register = assignment.dst
  · rw [here, Function.update_self]
    rfl
  · rw [Function.update_of_ne here]
    exact assigned register (known.resolve_right here)

theorem AllProvided.assigned : ∀ {assignments : List (Assignment Op)} {values : Nat → Prop},
    AllProvided values assignments → ∀ {store next : Store Op Value World},
    Assigned values store.registers → runAll meaning assignments store = .running next →
    Assigned (fun value => values value ∨ value ∈ assignments.map Assignment.dst)
      next.registers := by
  intro assignments
  induction assignments with
  | nil =>
      intro values _ store next assigned ran
      cases ran
      exact fun value known => assigned value (known.resolve_right List.not_mem_nil)
  | cons assignment rest ih =>
      intro values provided store next assigned ran
      unfold runAll at ran
      cases first : assignment.run meaning store with
      | stopped surroundings =>
          rw [first] at ran
          cases ran
      | running middle =>
          rw [first] at ran
          have later := ih provided.2 (provided.1.assigned assigned first) ran
          intro value known
          refine later value ?_
          rcases known with old | member
          · exact .inl (.inl old)
          · rcases List.mem_cons.mp member with here | there
            · exact .inl (.inr here)
            · exact .inr there

end Assignment

/-! ## Programs -/

namespace SsaProgram

/-- The values of a block before its body: the available ones and the phis. -/
def AtStart (program : SsaProgram Op) (available : Nat → Nat → Prop) (block value : Nat) : Prop :=
  available block value ∨ value ∈ (program.phis block).map Prod.fst

/-- The values of a block after its body. -/
def AtEnd (program : SsaProgram Op) (available : Nat → Nat → Prop) (block value : Nat) : Prop :=
  program.AtStart available block value ∨ value ∈ (program.body block).map Assignment.dst

/-- Every block uses only what its predecessors provide and what it assigns itself. -/
structure Available (program : SsaProgram Op) (valid : Nat → Prop)
    (available : Nat → Nat → Prop) : Prop where
  entry_valid : valid program.entry
  entry : ∀ value, ¬program.AtStart available program.entry value
  body : ∀ block, valid block →
    Assignment.AllProvided (program.AtStart available block) (program.body block)
  exit : ∀ block, valid block → ∀ register ∈ (program.exit block).reads,
    program.AtEnd available block register
  edges : ∀ block, valid block → ∀ target ∈ (program.exit block).targets, valid target ∧
    (∀ value, available target value → program.AtEnd available block value) ∧
    ∀ phi ∈ program.phis target, ∃ input, phi.2.lookup block = some input ∧
      program.AtEnd available block input

variable {program : SsaProgram Op} {valid : Nat → Prop} {available : Nat → Nat → Prop}
variable {meaning : Interpretation Op Value World}

theorem Available.start (accepted : program.Available valid available) :
    Assigned (program.AtStart available program.entry)
      ((fun _ => none) : Nat → Option Value) :=
  fun value known => (accepted.entry value known).elim

/-- What is available in a block is assigned at its end. -/
theorem Available.ran (accepted : program.Available valid available) {block : Nat}
    (isValid : valid block) {store next : Store Op Value World}
    (assigned : Assigned (program.AtStart available block) store.registers)
    (ran : Assignment.runAll meaning (program.body block) store = .running next) :
    Assigned (program.AtEnd available block) next.registers :=
  (accepted.body block isValid).assigned assigned ran

/-- What is available in a block is assigned when control enters it. -/
theorem Available.entered (accepted : program.Available valid available) {block target : Nat}
    (isValid : valid block) (edge : target ∈ (program.exit block).targets)
    {registers : Nat → Option Value} (assigned : Assigned (program.AtEnd available block) registers) :
    Assigned (program.AtStart available target)
      (enterPhis (program.phis target) block registers) := by
  obtain ⟨-, passed, inputs⟩ := accepted.edges block isValid target edge
  intro value known
  unfold enterPhis
  cases found : (program.phis target).lookup value with
  | none =>
      refine assigned value (passed value (known.resolve_right ?_))
      intro member
      obtain ⟨phi, inside, rfl⟩ := List.mem_map.mp member
      simpa using List.lookup_eq_none_iff.mp found phi inside
  | some incoming =>
      obtain ⟨before, after, split, -⟩ := List.lookup_eq_some_iff.mp found
      have member : (value, incoming) ∈ program.phis target := by
        rw [split]
        exact List.mem_append_right _ List.mem_cons_self
      obtain ⟨input, looked, ends⟩ := inputs _ member
      simp only [looked, Option.bind_some]
      exact assigned input ends

end SsaProgram

end Flow
