import PslCompiler.Flow.Behaviour

/-! # Executing SSA programs

Programs of basic blocks over arbitrary operations. A register holds a value once it has been
assigned; an operation on an unassigned register computes no value, and the machine stops where an
effect, a branch or a return would need one. Entering a block assigns all its phis at once from the
edge taken. A step of the machine executes one block.
-/

namespace Flow

/-- How an assignment computes its value: by an operation, by an operation that reads the world,
by an operation that affects the surroundings, or by passing its argument on. -/
inductive Producer (Op : Type)
  | scalar (op : Op)
  | read (op : Op)
  | effect (op : Op)
  | move

structure Assignment (Op : Type) where
  dst : Nat
  producer : Producer Op
  args : List Nat

/-- How control leaves a block. -/
inductive Exit
  | ret (value : Option Nat)
  | jump (target : Nat)
  | branch (condition ifTrue ifFalse : Nat)
  | none

structure SsaProgram (Op : Type) where
  entry : Nat
  phis : Nat → List (Nat × List (Nat × Nat))
  body : Nat → List (Assignment Op)
  exit : Nat → Exit

/-- The registers and the surroundings of a running machine. -/
structure Store (Op Value World : Type) where
  registers : Nat → Option Value
  surroundings : Surroundings Op Value World

/-- A machine goes on with a store, or has stopped in some surroundings. -/
inductive Outcome (Op Value World : Type)
  | running (store : Store Op Value World)
  | stopped (surroundings : Surroundings Op Value World)

inductive Control (Value : Type)
  | at (position : Nat)
  | returned (value : Option Value)
  | stopped

structure MachineState (Op Value World : Type) where
  control : Control Value
  store : Store Op Value World

variable {Op Value World : Type}

namespace Outcome

def surroundings : Outcome Op Value World → Surroundings Op Value World
  | running store => store.surroundings
  | stopped surroundings => surroundings

def andThen (outcome : Outcome Op Value World)
    (next : Store Op Value World → Outcome Op Value World) : Outcome Op Value World :=
  match outcome with
  | running store => next store
  | stopped surroundings => stopped surroundings

end Outcome

namespace MachineState

def observe (state : MachineState Op Value World) : Observation Op Value :=
  (state.store.surroundings.trace,
    match state.control with
    | .returned value => some value
    | _ => none)

/-- Continue at a position with a store. -/
def goto (position : Nat) (store : Store Op Value World) : MachineState Op Value World :=
  ⟨.at position, store⟩

/-- Stop in some surroundings. -/
def halt (surroundings : Surroundings Op Value World) : MachineState Op Value World :=
  ⟨.stopped, ⟨fun _ => none, surroundings⟩⟩

/-- Return the value of a register, or nothing. -/
def finish (value : Option Nat) (store : Store Op Value World) : MachineState Op Value World :=
  match value with
  | none => ⟨.returned none, store⟩
  | some register =>
      match store.registers register with
      | some result => ⟨.returned (some result), store⟩
      | none => halt store.surroundings

end MachineState

def Producer.isEffect : Producer Op → Bool
  | .effect _ => true
  | _ => false

namespace Assignment

/-- A copy of a register. -/
def copy (dst src : Nat) : Assignment Op := ⟨dst, .move, [src]⟩

def run (meaning : Interpretation Op Value World) (assignment : Assignment Op)
    (store : Store Op Value World) : Outcome Op Value World :=
  let operands := assignment.args.mapM store.registers
  match assignment.producer with
  | .scalar op => .running { store with
      registers := Function.update store.registers assignment.dst (operands.map (meaning.scalar op)) }
  | .read op => .running { store with
      registers := Function.update store.registers assignment.dst
        (operands.map fun operands => meaning.read op operands store.surroundings.world) }
  | .move => .running { store with
      registers := Function.update store.registers assignment.dst (operands.bind List.head?) }
  | .effect op =>
      match operands with
      | none => .stopped store.surroundings
      | some operands =>
          match meaning.perform op operands store.surroundings with
          | (some answer, after) =>
              .running ⟨Function.update store.registers assignment.dst (some answer), after⟩
          | (none, after) => .stopped after

def runAll (meaning : Interpretation Op Value World) :
    List (Assignment Op) → Store Op Value World → Outcome Op Value World
  | [], store => .running store
  | assignment :: rest, store => (assignment.run meaning store).andThen (runAll meaning rest)

end Assignment

/-- The registers after entering a block from a predecessor. -/
def enterPhis (phis : List (Nat × List (Nat × Nat))) (predecessor : Nat)
    (registers : Nat → Option Value) (register : Nat) : Option Value :=
  match phis.lookup register with
  | none => registers register
  | some incoming => (incoming.lookup predecessor).bind registers

namespace SsaProgram

variable (meaning : Interpretation Op Value World) (program : SsaProgram Op)

def enter (predecessor block : Nat) (store : Store Op Value World) :
    MachineState Op Value World :=
  .goto block { store with
    registers := enterPhis (program.phis block) predecessor store.registers }

/-- Leave a block. -/
def leave (block : Nat) (store : Store Op Value World) : MachineState Op Value World :=
  match program.exit block with
  | .ret value => .finish value store
  | .jump target => program.enter block target store
  | .branch condition ifTrue ifFalse =>
      match store.registers condition with
      | some value => program.enter block (if meaning.truth value then ifTrue else ifFalse) store
      | none => .halt store.surroundings
  | .none => .halt store.surroundings

def step (state : MachineState Op Value World) : MachineState Op Value World :=
  match state.control with
  | .at block =>
      match Assignment.runAll meaning (program.body block) state.store with
      | .running store => program.leave meaning block store
      | .stopped surroundings => .halt surroundings
  | _ => state

/-- The start of a run: the entry block, no register assigned, and no effect performed. -/
def start (world : World) : MachineState Op Value World :=
  .goto program.entry ⟨fun _ => none, ⟨world, []⟩⟩

end SsaProgram

/-! ## Effects only accumulate -/

theorem perform_grows (meaning : Interpretation Op Value World) (op : Op) (operands : List Value)
    (before : Surroundings Op Value World) :
    before.trace <+: (meaning.perform op operands before).2.trace := by
  unfold Interpretation.perform
  split
  · exact List.prefix_append _ _
  · exact List.prefix_append _ _

theorem Assignment.run_grows (meaning : Interpretation Op Value World)
    (assignment : Assignment Op) (store : Store Op Value World) :
    store.surroundings.trace <+: (assignment.run meaning store).surroundings.trace := by
  simp only [Assignment.run]
  split
  · exact List.prefix_rfl
  · exact List.prefix_rfl
  · exact List.prefix_rfl
  · rename_i op _
    split
    · exact List.prefix_rfl
    · rename_i operands _
      have grows := perform_grows meaning op operands store.surroundings
      split
      · rename_i performed
        rwa [performed] at grows
      · rename_i performed
        rwa [performed] at grows

/-- Only an effect stops or changes the surroundings. -/
theorem Assignment.run_pure (meaning : Interpretation Op Value World) {assignment : Assignment Op}
    (pure : assignment.producer.isEffect = false) (store : Store Op Value World) :
    ∃ value, assignment.run meaning store = .running { store with
      registers := Function.update store.registers assignment.dst value } := by
  simp only [Assignment.run]
  cases producer : assignment.producer with
  | scalar op => exact ⟨_, rfl⟩
  | read op => exact ⟨_, rfl⟩
  | move => exact ⟨_, rfl⟩
  | effect op =>
      rw [producer] at pure
      cases pure

theorem Assignment.run_copy (meaning : Interpretation Op Value World) (dst src : Nat)
    (store : Store Op Value World) : (copy dst src).run meaning store = .running { store with
      registers := Function.update store.registers dst (store.registers src) } := by
  simp only [Assignment.run, copy, List.mapM_cons, List.mapM_nil]
  cases store.registers src with
  | none => rfl
  | some value => rfl

theorem Assignment.runAll_grows (meaning : Interpretation Op Value World) :
    ∀ (assignments : List (Assignment Op)) (store : Store Op Value World),
      store.surroundings.trace <+: (runAll meaning assignments store).surroundings.trace := by
  intro assignments
  induction assignments with
  | nil => exact fun _ => List.prefix_rfl
  | cons assignment rest ih =>
      intro store
      have first := assignment.run_grows meaning store
      unfold runAll
      cases outcome : assignment.run meaning store with
      | running after =>
          rw [outcome] at first
          exact first.trans (ih after)
      | stopped surroundings =>
          rw [outcome] at first
          exact first

theorem Assignment.runAll_append (meaning : Interpretation Op Value World) :
    ∀ (first second : List (Assignment Op)) (store : Store Op Value World),
      runAll meaning (first ++ second) store =
        (runAll meaning first store).andThen (runAll meaning second) := by
  intro first
  induction first with
  | nil => exact fun _ _ => rfl
  | cons assignment rest ih =>
      intro second store
      simp only [List.cons_append, runAll]
      cases assignment.run meaning store with
      | running after => exact ih second after
      | stopped surroundings => rfl

theorem MachineState.finish_trace (value : Option Nat) (store : Store Op Value World) :
    (MachineState.finish value store).store.surroundings.trace = store.surroundings.trace := by
  unfold MachineState.finish
  split
  · rfl
  · split
    · rfl
    · rfl

theorem SsaProgram.leave_trace (meaning : Interpretation Op Value World) (program : SsaProgram Op)
    (block : Nat) (store : Store Op Value World) :
    (program.leave meaning block store).store.surroundings.trace = store.surroundings.trace := by
  unfold SsaProgram.leave
  split
  · exact MachineState.finish_trace _ store
  · rfl
  · split
    · rfl
    · rfl
  · rfl

/-- The machine of an SSA program. -/
def SsaProgram.machine (meaning : Interpretation Op Value World) (program : SsaProgram Op) :
    Machine Op Value (MachineState Op Value World) where
  step := program.step meaning
  observe := MachineState.observe
  grows state := by
    change state.store.surroundings.trace <+: (program.step meaning state).store.surroundings.trace
    unfold SsaProgram.step
    split
    · rename_i block _
      have grows := Assignment.runAll_grows meaning (program.body block) state.store
      split
      · rename_i store outcome
        rw [outcome] at grows
        rw [program.leave_trace meaning block store]
        exact grows
      · rename_i surroundings outcome
        rw [outcome] at grows
        exact grows
    · exact List.prefix_rfl
  rests state result returned := by
    unfold SsaProgram.step
    unfold MachineState.observe at returned
    split
    · rename_i block position
      rw [position] at returned
      cases returned
    · rfl

/-! ## Resuming a block -/

namespace SsaProgram

variable (meaning : Interpretation Op Value World) (program : SsaProgram Op)

/-- What becomes of a block after some of its assignments have been executed. -/
def resume (block done : Nat) (store : Store Op Value World) : MachineState Op Value World :=
  match Assignment.runAll meaning ((program.body block).drop done) store with
  | .running store => program.leave meaning block store
  | .stopped surroundings => .halt surroundings

theorem step_goto (block : Nat) (store : Store Op Value World) :
    program.step meaning (.goto block store) = program.resume meaning block 0 store := rfl

variable {meaning program}

/-- Resuming a block executes its next assignment. -/
theorem resume_assign {block : Nat} {before after : List (Assignment Op)}
    {assignment : Assignment Op} (body : program.body block = before ++ assignment :: after)
    (store : Store Op Value World) :
    program.resume meaning block before.length store =
      match assignment.run meaning store with
      | .running next => program.resume meaning block (before.length + 1) next
      | .stopped surroundings => .halt surroundings := by
  have rest : (program.body block).drop (before.length + 1) = after := by
    rw [body, ← List.drop_drop, List.drop_left]
    rfl
  unfold resume
  rw [rest, body, List.drop_left, Assignment.runAll]
  cases assignment.run meaning store with
  | running next => rfl
  | stopped surroundings => rfl

/-- A block that has executed its whole body leaves. -/
theorem resume_leave {block done : Nat} (whole : done = (program.body block).length)
    (store : Store Op Value World) :
    program.resume meaning block done store = program.leave meaning block store := by
  unfold resume
  rw [whole, List.drop_length]
  rfl

end SsaProgram

/-! ## Dropping unused assignments -/

/-- Registers agree wherever a value is live. -/
def AgreeOn (live : Nat → Bool) (first second : Nat → Option Value) : Prop :=
  ∀ register, live register = true → first register = second register

theorem AgreeOn.mapM {live : Nat → Bool} {first second : Nat → Option Value}
    (agree : AgreeOn live first second) {args : List Nat} (used : ∀ arg ∈ args, live arg = true) :
    args.mapM first = args.mapM second := by
  induction args with
  | nil => rfl
  | cons arg rest ih =>
      rw [List.mapM_cons, List.mapM_cons, agree arg (used arg List.mem_cons_self),
        ih fun other member => used other (List.mem_cons_of_mem _ member)]

theorem AgreeOn.update {live : Nat → Bool} {first second : Nat → Option Value}
    (agree : AgreeOn live first second) (dst : Nat) (value : Option Value) :
    AgreeOn live (Function.update first dst value) (Function.update second dst value) := by
  intro register used
  by_cases same : register = dst
  · subst same
    rw [Function.update_self, Function.update_self]
  · rw [Function.update_of_ne same, Function.update_of_ne same, agree register used]

theorem AgreeOn.update_dead {live : Nat → Bool} {first second : Nat → Option Value}
    (agree : AgreeOn live first second) {dst : Nat} (dead : live dst = false) (value : Option Value) :
    AgreeOn live (Function.update first dst value) second := by
  intro register used
  have differs : register ≠ dst := by
    rintro rfl
    rw [used] at dead
    cases dead
  rw [Function.update_of_ne differs, agree register used]

/-- Outcomes with the same surroundings, and registers that agree where they are live. -/
def Outcome.Agree (live : Nat → Bool) : Outcome Op Value World → Outcome Op Value World → Prop
  | .running first, .running second =>
      AgreeOn live first.registers second.registers ∧ first.surroundings = second.surroundings
  | .stopped first, .stopped second => first = second
  | _, _ => False

/-- A live assignment reads only live registers, and effects are live. -/
def Assignment.Closed (live : Nat → Bool) (assignment : Assignment Op) : Prop :=
  (assignment.producer.isEffect = true → live assignment.dst = true) ∧
    (live assignment.dst = true → ∀ arg ∈ assignment.args, live arg = true)

theorem Assignment.run_agree {live : Nat → Bool} (meaning : Interpretation Op Value World)
    {assignment : Assignment Op} (closed : assignment.Closed live)
    (used : live assignment.dst = true) {first second : Store Op Value World}
    (agree : AgreeOn live first.registers second.registers)
    (same : first.surroundings = second.surroundings) :
    (assignment.run meaning first).Agree live (assignment.run meaning second) := by
  simp only [Assignment.run]
  rw [agree.mapM (closed.2 used), same]
  split
  · exact ⟨agree.update _ _, rfl⟩
  · exact ⟨agree.update _ _, rfl⟩
  · exact ⟨agree.update _ _, rfl⟩
  · split
    · rfl
    · split
      · exact ⟨agree.update _ _, rfl⟩
      · rfl

/-- Leaving out dead assignments changes no live register and no effect. -/
theorem Assignment.runAll_filter {live : Nat → Bool} (meaning : Interpretation Op Value World) :
    ∀ (assignments : List (Assignment Op)), (∀ assignment ∈ assignments, assignment.Closed live) →
      ∀ first second : Store Op Value World, AgreeOn live first.registers second.registers →
      first.surroundings = second.surroundings →
      (runAll meaning assignments first).Agree live
        (runAll meaning (assignments.filter fun assignment => live assignment.dst) second) := by
  intro assignments
  induction assignments with
  | nil => exact fun _ _ _ agree same => ⟨agree, same⟩
  | cons assignment rest ih =>
      intro closed first second agree same
      have others := ih fun other member => closed other (List.mem_cons_of_mem _ member)
      have here := closed assignment List.mem_cons_self
      by_cases used : live assignment.dst = true
      · rw [List.filter_cons, if_pos used]
        have matching := run_agree meaning here used agree same
        unfold runAll
        cases left : assignment.run meaning first <;> cases right : assignment.run meaning second <;>
          rw [left, right] at matching
        · exact others _ _ matching.1 matching.2
        · exact matching.elim
        · exact matching.elim
        · exact matching
      · rw [List.filter_cons, if_neg used]
        have pure : assignment.producer.isEffect = false := by
          by_contra effect
          exact used (here.1 (by simpa using effect))
        have dead : live assignment.dst = false := by simpa using used
        obtain ⟨value, ran⟩ := run_pure meaning pure first
        rw [runAll, ran]
        exact others _ _ (agree.update_dead dead value) same

end Flow
