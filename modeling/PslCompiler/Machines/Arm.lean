import PslCompiler.Machines.Words

/-! # Instructions of AArch64

The 64-bit instructions that make a number in a register, add registers, take the position of the
code, and call.
-/

namespace Machines.Arm

/-- A machine: the position of its code, its registers and its memory. -/
structure State where
  counter : Nat
  registers : Nat → Nat
  memory : Memory

inductive Instruction
  | branchLink (immediate : Nat)
  | position (destination immediate : Nat)
  | moveZero (destination immediate half : Nat)
  | moveKeep (destination immediate half : Nat)
  | addRegisters (destination left right shift : Nat)
  deriving DecidableEq, Repr

/-- The instruction that a word encodes, if it is one of these. -/
def decode (word : Nat) : Option Instruction :=
  let destination := word % 2 ^ 5
  let immediate := word / 2 ^ 5 % 2 ^ 16
  let half := word / 2 ^ 21 % 2 ^ 2
  if word / 2 ^ 26 = 0b100101 then some (.branchLink (word % 2 ^ 26))
  else if word / 2 ^ 31 = 0 ∧ word / 2 ^ 24 % 2 ^ 5 = 0b10000 then
    some (.position destination (4 * (word / 2 ^ 5 % 2 ^ 19) + word / 2 ^ 29 % 2 ^ 2))
  else if word / 2 ^ 23 = 0b110100101 then some (.moveZero destination immediate half)
  else if word / 2 ^ 23 = 0b111100101 then some (.moveKeep destination immediate half)
  else if word / 2 ^ 21 = 0b10001011000 then
    some (.addRegisters destination (word / 2 ^ 5 % 2 ^ 5) (word / 2 ^ 16 % 2 ^ 5)
      (word / 2 ^ 10 % 2 ^ 6))
  else none

namespace State

/-- The register 31 is always zero. -/
def read (state : State) (register : Nat) : Nat :=
  if register = 31 then 0 else state.registers register

def write (state : State) (register value : Nat) : State :=
  if register = 31 then state
  else { state with registers := Function.update state.registers register value }

@[simp] theorem read_write {register : Nat} (state : State) (value : Nat) (real : register ≠ 31) :
    (state.write register value).read register = value := by
  rw [read, write, if_neg real, if_neg real]
  exact Function.update_self _ _ _

def next (state : State) : State :=
  { state with counter := (state.counter + 4) % wordCount }

@[simp] theorem next_counter (state : State) : state.next.counter = (state.counter + 4) % wordCount :=
  rfl

@[simp] theorem next_read (state : State) (register : Nat) :
    state.next.read register = state.read register :=
  rfl

@[simp] theorem next_memory (state : State) : state.next.memory = state.memory :=
  rfl

@[simp] theorem write_counter (state : State) (register value : Nat) :
    (state.write register value).counter = state.counter := by
  rw [write]
  split <;> rfl

@[simp] theorem write_memory (state : State) (register value : Nat) :
    (state.write register value).memory = state.memory := by
  rw [write]
  split <;> rfl

/-- A step to the next instruction that writes one register. -/
structure Writes (state after : State) (destination value : Nat) : Prop where
  counter : after.counter = (state.counter + 4) % wordCount
  memory : after.memory = state.memory
  written : after.read destination = value
  kept : ∀ register, register ≠ destination → after.read register = state.read register

theorem write_next_writes {destination : Nat} (state : State) (value : Nat)
    (real : destination ≠ 31) : Writes state (state.write destination value).next destination value where
  counter := by rw [next_counter, write_counter]
  memory := by rw [next_memory, write_memory]
  written := by rw [next_read, read_write _ _ real]
  kept := by
    intro register other
    rw [next_read, read, read, write, if_neg real]
    dsimp only
    rw [Function.update_of_ne other]

/-- A number with one of its four halves replaced. -/
def withHalf (value immediate half : Nat) : Nat :=
  value % 2 ^ (16 * half) + immediate * 2 ^ (16 * half) +
    value / 2 ^ (16 * (half + 1)) * 2 ^ (16 * (half + 1))

def execute (state : State) : Instruction → State
  | .branchLink immediate =>
      { state.write 30 ((state.counter + 4) % wordCount) with
        counter := (state.counter + signExtended 28 (4 * immediate)) % wordCount }
  | .position destination immediate =>
      (state.write destination ((state.counter + signExtended 21 immediate) % wordCount)).next
  | .moveZero destination immediate half =>
      (state.write destination (immediate * 2 ^ (16 * half))).next
  | .moveKeep destination immediate half =>
      (state.write destination (withHalf (state.read destination) immediate half)).next
  | .addRegisters destination left right shift =>
      (state.write destination
        ((state.read left + state.read right * 2 ^ shift) % wordCount)).next

theorem branchLink_read (state : State) (immediate : Nat) :
    (state.execute (.branchLink immediate)).read 30 = (state.counter + 4) % wordCount :=
  read_write state _ (by decide)

theorem branchLink_counter (state : State) (immediate : Nat) :
    (state.execute (.branchLink immediate)).counter =
      (state.counter + signExtended 28 (4 * immediate)) % wordCount :=
  rfl

/-- One step: the word at the counter is executed. -/
def step (state : State) : Option State :=
  (decode (loadWord state.memory state.counter 4)).map state.execute

theorem step_eq {state : State} {instruction : Instruction}
    (decoded : decode (loadWord state.memory state.counter 4) = some instruction) :
    state.step = some (state.execute instruction) := by
  rw [step, decoded, Option.map_some]

/-- An instruction that writes one register and leads to the next one. -/
theorem step_writes {state : State} {instruction : Instruction} {destination value : Nat}
    (decoded : decode (loadWord state.memory state.counter 4) = some instruction)
    (effect : state.execute instruction = (state.write destination value).next)
    (real : destination ≠ 31) :
    ∃ after, state.step = some after ∧ Writes state after destination value :=
  ⟨_, step_eq decoded, effect ▸ write_next_writes state value real⟩

def steps : Nat → State → Option State
  | 0, state => some state
  | count + 1, state => state.step.bind (steps count)

theorem steps_succ {state middle after : State} {count : Nat} (first : state.step = some middle)
    (rest : steps count middle = some after) : steps (count + 1) state = some after := by
  rw [steps, first, Option.bind_some, rest]

end State

end Machines.Arm
