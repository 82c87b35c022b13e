import PslCompiler.Machines.Words

/-! # Instructions of RISC-V

The instructions of RV64 that make an address from the position of the code, and the call through a
register.
-/

namespace Machines.RiscV

/-- A machine: the position of its code, its registers and its memory. -/
structure State where
  counter : Nat
  registers : Nat → Nat
  memory : Memory

inductive Instruction
  | upperPosition (destination upper : Nat)
  | addImmediate (destination source immediate : Nat)
  | jumpRegister (destination source immediate : Nat)
  deriving DecidableEq, Repr

/-- The instruction that a word encodes, if it is one of these. -/
def decode (word : Nat) : Option Instruction :=
  let destination := word / 2 ^ 7 % 2 ^ 5
  let function := word / 2 ^ 12 % 2 ^ 3
  let source := word / 2 ^ 15 % 2 ^ 5
  let immediate := word / 2 ^ 20 % 2 ^ 12
  if word % 2 ^ 7 = 0x17 then some (.upperPosition destination (word / 2 ^ 12 % 2 ^ 20))
  else if word % 2 ^ 7 = 0x13 ∧ function = 0 then
    some (.addImmediate destination source immediate)
  else if word % 2 ^ 7 = 0x67 ∧ function = 0 then
    some (.jumpRegister destination source immediate)
  else none

namespace State

/-- The register 0 is always zero. -/
def read (state : State) (register : Nat) : Nat :=
  if register = 0 then 0 else state.registers register

def write (state : State) (register value : Nat) : State :=
  if register = 0 then state
  else { state with registers := Function.update state.registers register value }

@[simp] theorem read_write {register : Nat} (state : State) (value : Nat) (real : register ≠ 0) :
    (state.write register value).read register = value := by
  rw [read, write, if_neg real, if_neg real]
  exact Function.update_self _ _ _

def next (state : State) : State :=
  { state with counter := (state.counter + 4) % wordCount }

@[simp] theorem next_counter (state : State) : state.next.counter = (state.counter + 4) % wordCount :=
  rfl

@[simp] theorem next_read (state : State) (register : Nat) :
    state.next.read register = state.read register :=
  rfl

@[simp] theorem next_memory (state : State) : state.next.memory = state.memory :=
  rfl

@[simp] theorem write_counter (state : State) (register value : Nat) :
    (state.write register value).counter = state.counter := by
  rw [write]
  split <;> rfl

@[simp] theorem write_memory (state : State) (register value : Nat) :
    (state.write register value).memory = state.memory := by
  rw [write]
  split <;> rfl

/-- A step to the next instruction that writes one register. -/
structure Writes (state after : State) (destination value : Nat) : Prop where
  counter : after.counter = (state.counter + 4) % wordCount
  memory : after.memory = state.memory
  written : after.read destination = value

theorem write_next_writes {destination : Nat} (state : State) (value : Nat)
    (real : destination ≠ 0) : Writes state (state.write destination value).next destination value where
  counter := by rw [next_counter, write_counter]
  memory := by rw [next_memory, write_memory]
  written := by rw [next_read, read_write _ _ real]

def execute (state : State) : Instruction → State
  | .upperPosition destination upper =>
      (state.write destination
        ((state.counter + signExtended 32 (upper * 2 ^ 12)) % wordCount)).next
  | .addImmediate destination source immediate =>
      (state.write destination
        ((state.read source + signExtended 12 immediate) % wordCount)).next
  | .jumpRegister destination source immediate =>
      let target := (state.read source + signExtended 12 immediate) % wordCount
      { state.write destination ((state.counter + 4) % wordCount) with
        counter := target / 2 * 2 }

theorem jumpRegister_read {destination : Nat} (state : State) (source immediate : Nat)
    (real : destination ≠ 0) :
    (state.execute (.jumpRegister destination source immediate)).read destination =
      (state.counter + 4) % wordCount :=
  read_write state _ real

theorem jumpRegister_counter (state : State) (destination source immediate : Nat) :
    (state.execute (.jumpRegister destination source immediate)).counter =
      (state.read source + signExtended 12 immediate) % wordCount / 2 * 2 :=
  rfl

/-- One step: the word at the counter is executed. -/
def step (state : State) : Option State :=
  (decode (loadWord state.memory state.counter 4)).map state.execute

theorem step_eq {state : State} {instruction : Instruction}
    (decoded : decode (loadWord state.memory state.counter 4) = some instruction) :
    state.step = some (state.execute instruction) := by
  rw [step, decoded, Option.map_some]

/-- An instruction that writes one register and leads to the next one. -/
theorem step_writes {state : State} {instruction : Instruction} {destination value : Nat}
    (decoded : decode (loadWord state.memory state.counter 4) = some instruction)
    (effect : state.execute instruction = (state.write destination value).next)
    (real : destination ≠ 0) :
    ∃ after, state.step = some after ∧ Writes state after destination value :=
  ⟨_, step_eq decoded, effect ▸ write_next_writes state value real⟩

def steps : Nat → State → Option State
  | 0, state => some state
  | count + 1, state => state.step.bind (steps count)

theorem steps_succ {state middle after : State} {count : Nat} (first : state.step = some middle)
    (rest : steps count middle = some after) : steps (count + 1) state = some after := by
  rw [steps, first, Option.bind_some, rest]

end State

end Machines.RiscV
