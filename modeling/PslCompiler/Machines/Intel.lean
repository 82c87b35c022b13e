import PslCompiler.Machines.Words

/-! # Instructions of x86-64

The 64-bit instructions of calls and of the entry of a function: a stack frame is made, its pages
are touched, and incoming registers are stored in it. A state remembers the addresses at which data
were touched.
-/

namespace Machines.Intel

/-- A machine: the position of its code, its sixteen registers, the carry flag, its memory, and the
addresses of data that it has touched, the last ones first. -/
structure State where
  counter : Nat
  registers : Nat → Nat
  carry : Bool
  memory : Memory
  touched : List Nat

/-- The stack pointer and the frame pointer among the registers. -/
def stackPointer : Nat := 4

def framePointer : Nat := 5

inductive Instruction
  | call (displacement : Nat)
  | jump (displacement : Nat)
  | jumpBelow (displacement : Nat)
  | positionAddress (destination displacement : Nat)
  | push (source : Nat)
  | move (destination source : Nat)
  | moveImmediate (destination immediate : Nat)
  | subtract (destination source : Nat)
  | subtractImmediate (destination immediate : Nat)
  | compareImmediate (left immediate : Nat)
  | testByte (address immediate : Nat)
  | store (address displacement source : Nat)
  deriving DecidableEq, Repr

/-- The fields of the byte that selects operands, and the bits that a prefix adds to them. -/
structure Operands where
  mode : Nat
  register : Nat
  other : Nat
  deriving DecidableEq, Repr

def operands (rex modifier : Nat) : Operands where
  mode := modifier / 64
  register := modifier / 8 % 8 + 8 * (rex / 4 % 2)
  other := modifier % 8 + 8 * (rex % 2)

/-- The instruction that begins with a prefix for 64-bit operands, with its size. -/
def decodeWide (memory : Memory) (position rex : Nat) : Option (Instruction × Nat) :=
  let opcode := (memory (position + 1)).toNat
  let fields := operands rex (memory (position + 2)).toNat
  let immediate := loadWord memory (position + 3) 4
  if opcode = 0x8d ∧ fields.mode = 0 ∧ fields.other % 8 = 5 then
    some (.positionAddress fields.register immediate, 7)
  else if opcode = 0x89 ∧ fields.mode = 3 then some (.move fields.other fields.register, 3)
  else if opcode = 0x89 ∧ fields.mode = 2 ∧ fields.other % 8 ≠ 4 then
    some (.store fields.other immediate fields.register, 7)
  else if opcode = 0x29 ∧ fields.mode = 3 then some (.subtract fields.other fields.register, 3)
  else if opcode = 0x81 ∧ fields.mode = 3 ∧ fields.register % 8 = 5 then
    some (.subtractImmediate fields.other immediate, 7)
  else if opcode = 0x81 ∧ fields.mode = 3 ∧ fields.register % 8 = 7 then
    some (.compareImmediate fields.other immediate, 7)
  else if 0xb8 ≤ opcode ∧ opcode < 0xc0 then
    some (.moveImmediate (opcode - 0xb8 + 8 * (rex % 2)) (loadWord memory (position + 2) 8), 10)
  else none

/-- The instruction at a position, if it is one of these, with its size. -/
def decode (memory : Memory) (position : Nat) : Option (Instruction × Nat) :=
  let first := (memory position).toNat
  if 0x48 ≤ first ∧ first < 0x50 then decodeWide memory position first
  else if 0x40 ≤ first ∧ first < 0x48 then
    let fields := operands first (memory (position + 2)).toNat
    if (memory (position + 1)).toNat = 0xf6 ∧ fields.mode = 0 ∧ fields.register % 8 = 0 ∧
        fields.other % 8 ≠ 4 ∧ fields.other % 8 ≠ 5 then
      some (.testByte fields.other (memory (position + 3)).toNat, 4)
    else none
  else if 0x50 ≤ first ∧ first < 0x58 then some (.push (first - 0x50), 1)
  else if first = 0xe8 then some (.call (loadWord memory (position + 1) 4), 5)
  else if first = 0xe9 then some (.jump (loadWord memory (position + 1) 4), 5)
  else if first = 0x0f ∧ (memory (position + 1)).toNat = 0x82 then
    some (.jumpBelow (loadWord memory (position + 2) 4), 6)
  else none

/-- Some instructions, each with its size, stand one behind the other from a position on. -/
def Coded (memory : Memory) (position : Nat) : List (Instruction × Nat) → Prop
  | [] => True
  | instruction :: rest =>
      decode memory position = some instruction ∧ Coded memory (position + instruction.2) rest

theorem coded_cons {memory : Memory} {position size : Nat} {instruction : Instruction}
    {rest : List (Instruction × Nat)} : Coded memory position ((instruction, size) :: rest) ↔
      decode memory position = some (instruction, size) ∧ Coded memory (position + size) rest :=
  Iff.rfl

namespace State

def write (state : State) (register value : Nat) : State :=
  { state with registers := Function.update state.registers register value }

def jumpTo (state : State) (position : Nat) : State :=
  { state with counter := position % wordCount }

@[simp] theorem jumpTo_counter (state : State) (position : Nat) :
    (state.jumpTo position).counter = position % wordCount :=
  rfl

@[simp] theorem jumpTo_registers (state : State) (position : Nat) :
    (state.jumpTo position).registers = state.registers :=
  rfl

@[simp] theorem jumpTo_memory (state : State) (position : Nat) :
    (state.jumpTo position).memory = state.memory :=
  rfl

def touch (state : State) (address : Nat) : State :=
  { state with touched := address :: state.touched }

/-- Store a word of eight bytes. -/
def store (state : State) (address value : Nat) : State :=
  { state.touch address with memory := storeWord state.memory address value 8 }

/-- Lower the stack pointer and store a word there. -/
def push (state : State) (value : Nat) : State :=
  let top := (state.registers stackPointer + wordCount - 8) % wordCount
  (state.write stackPointer top).store top value

@[simp] theorem push_stackPointer (state : State) (value : Nat) :
    (state.push value).registers stackPointer =
      (state.registers stackPointer + wordCount - 8) % wordCount := by
  simp only [push, store, touch, write, Function.update_self]

/-- What is pushed is on top of the stack. -/
theorem push_top (state : State) (value : Nat) :
    loadWord (state.push value).memory ((state.push value).registers stackPointer) 8 =
      value % 256 ^ 8 := by
  simp only [push, store, touch, write, Function.update_self, loadWord_storeWord]

/-- The difference of two words. -/
def difference (left right : Nat) : Nat :=
  (left + wordCount - right) % wordCount

/-- Execute an instruction whose last byte is before a position. -/
def execute (state : State) (next : Nat) : Instruction → State
  | .call displacement => (state.push (next % wordCount)).jumpTo (next + signExtended 32 displacement)
  | .jump displacement => state.jumpTo (next + signExtended 32 displacement)
  | .jumpBelow displacement =>
      state.jumpTo (if state.carry then next + signExtended 32 displacement else next)
  | .positionAddress destination displacement =>
      (state.write destination ((next + signExtended 32 displacement) % wordCount)).jumpTo next
  | .push source => (state.push (state.registers source)).jumpTo next
  | .move destination source => (state.write destination (state.registers source)).jumpTo next
  | .moveImmediate destination immediate => (state.write destination immediate).jumpTo next
  | .subtract destination source =>
      { state.write destination (difference (state.registers destination) (state.registers source))
        with carry := state.registers destination < state.registers source }.jumpTo next
  | .subtractImmediate destination immediate =>
      { state.write destination (difference (state.registers destination) (signExtended 32 immediate))
        with carry := state.registers destination < signExtended 32 immediate }.jumpTo next
  | .compareImmediate left immediate =>
      { state with carry := state.registers left < signExtended 32 immediate }.jumpTo next
  | .testByte address _ =>
      { state.touch (state.registers address) with carry := false }.jumpTo next
  | .store address displacement source =>
      (state.store ((state.registers address + signExtended 32 displacement) % wordCount)
        (state.registers source)).jumpTo next

/-- One step: the instruction at the counter is executed. -/
def step (state : State) : Option State :=
  (decode state.memory state.counter).map fun decoded =>
    state.execute (state.counter + decoded.2) decoded.1

theorem step_eq {state : State} {instruction : Instruction} {size : Nat}
    (decoded : decode state.memory state.counter = some (instruction, size)) :
    state.step = some (state.execute (state.counter + size) instruction) := by
  rw [step, decoded, Option.map_some]

def steps : Nat → State → Option State
  | 0, state => some state
  | count + 1, state => state.step.bind (steps count)

/-- A step to a position that writes one register. -/
structure Writes (state after : State) (position destination value : Nat) : Prop where
  counter : after.counter = position % wordCount
  registers : after.registers = Function.update state.registers destination value
  memory : after.memory = state.memory
  touched : after.touched = state.touched

/-- A step to a position that leaves registers and memory alone. -/
structure Moves (state after : State) (position : Nat) (touched : List Nat) : Prop where
  counter : after.counter = position % wordCount
  registers : after.registers = state.registers
  memory : after.memory = state.memory
  touched : after.touched = touched ++ state.touched

theorem Writes.read_self {state after : State} {position destination value : Nat}
    (writes : Writes state after position destination value) : after.registers destination = value := by
  rw [writes.registers, Function.update_self]

theorem Writes.read_other {state after : State} {position destination value register : Nat}
    (writes : Writes state after position destination value) (other : register ≠ destination) :
    after.registers register = state.registers register := by
  rw [writes.registers, Function.update_of_ne other]

theorem difference_eq {left right : Nat} (below : left < wordCount) (few : right ≤ left) :
    difference left right = left - right := by
  rw [difference, show left + wordCount - right = left - right + wordCount by omega,
    Nat.add_mod_right, Nat.mod_eq_of_lt (by omega)]

/-- The states of a run that starts at an entry, up to the first one outside some positions. -/
inductive RunsWithin (entry : State) (low high : Nat) : State → Prop
  | start : RunsWithin entry low high entry
  | step {state after : State} (before : RunsWithin entry low high state)
      (inside : low ≤ state.counter ∧ state.counter < high) (next : state.step = some after) :
      RunsWithin entry low high after

section Steps

variable {state : State} {size : Nat}

theorem step_push {source : Nat}
    (decoded : decode state.memory state.counter = some (.push source, size)) :
    ∃ after, state.step = some after ∧ after.counter = (state.counter + size) % wordCount ∧
      after.registers = Function.update state.registers stackPointer
        ((state.registers stackPointer + wordCount - 8) % wordCount) ∧
      after.memory = storeWord state.memory
        ((state.registers stackPointer + wordCount - 8) % wordCount) (state.registers source) 8 ∧
      after.touched =
        (state.registers stackPointer + wordCount - 8) % wordCount :: state.touched :=
  ⟨_, step_eq decoded, rfl, rfl, rfl, rfl⟩

theorem step_move {destination source : Nat}
    (decoded : decode state.memory state.counter = some (.move destination source, size)) :
    ∃ after, state.step = some after ∧
      Writes state after (state.counter + size) destination (state.registers source) :=
  ⟨_, step_eq decoded, rfl, rfl, rfl, rfl⟩

theorem step_moveImmediate {destination immediate : Nat}
    (decoded : decode state.memory state.counter =
      some (.moveImmediate destination immediate, size)) :
    ∃ after, state.step = some after ∧
      Writes state after (state.counter + size) destination immediate :=
  ⟨_, step_eq decoded, rfl, rfl, rfl, rfl⟩

theorem step_subtract {destination source : Nat}
    (decoded : decode state.memory state.counter = some (.subtract destination source, size)) :
    ∃ after, state.step = some after ∧
      Writes state after (state.counter + size) destination
        (difference (state.registers destination) (state.registers source)) :=
  ⟨_, step_eq decoded, rfl, rfl, rfl, rfl⟩

theorem step_subtractImmediate {destination immediate : Nat}
    (decoded : decode state.memory state.counter =
      some (.subtractImmediate destination immediate, size)) :
    ∃ after, state.step = some after ∧
      Writes state after (state.counter + size) destination
        (difference (state.registers destination) (signExtended 32 immediate)) :=
  ⟨_, step_eq decoded, rfl, rfl, rfl, rfl⟩

theorem step_compareImmediate {left immediate : Nat}
    (decoded : decode state.memory state.counter = some (.compareImmediate left immediate, size)) :
    ∃ after, state.step = some after ∧ Moves state after (state.counter + size) [] ∧
      after.carry = decide (state.registers left < signExtended 32 immediate) :=
  ⟨_, step_eq decoded, ⟨rfl, rfl, rfl, rfl⟩, rfl⟩

theorem step_jumpBelow {displacement : Nat}
    (decoded : decode state.memory state.counter = some (.jumpBelow displacement, size)) :
    ∃ after, state.step = some after ∧
      Moves state after
        (if state.carry then state.counter + size + signExtended 32 displacement
          else state.counter + size) [] :=
  ⟨_, step_eq decoded, rfl, rfl, rfl, rfl⟩

theorem step_jump {displacement : Nat}
    (decoded : decode state.memory state.counter = some (.jump displacement, size)) :
    ∃ after, state.step = some after ∧
      Moves state after (state.counter + size + signExtended 32 displacement) [] :=
  ⟨_, step_eq decoded, rfl, rfl, rfl, rfl⟩

theorem step_testByte {address immediate : Nat}
    (decoded : decode state.memory state.counter = some (.testByte address immediate, size)) :
    ∃ after, state.step = some after ∧
      Moves state after (state.counter + size) [state.registers address] :=
  ⟨_, step_eq decoded, rfl, rfl, rfl, rfl⟩

end Steps

/-- Where points with a number of instructions that are left follow each other up to the end of some
positions, every state of the run is at a point, and the run comes to the last one. -/
theorem RunsWithin.points {entry : State} {low high total : Nat} {point : Nat → State → Prop}
    (start : point total entry)
    (next : ∀ remaining state, point (remaining + 1) state → ∃ after, state.step = some after ∧
      point remaining after ∧ low ≤ state.counter ∧ state.counter < high)
    (stop : ∀ state, point 0 state → high ≤ state.counter) :
    (∀ state, RunsWithin entry low high state → ∃ remaining, point remaining state) ∧
      ∃ final, RunsWithin entry low high final ∧ point 0 final := by
  constructor
  · intro state runs
    induction runs with
    | start => exact ⟨total, start⟩
    | step before inside taken ih =>
        obtain ⟨remaining, here⟩ := ih
        cases remaining with
        | zero => exact absurd inside.2 (Nat.not_lt.mpr (stop _ here))
        | succ remaining =>
            obtain ⟨after, same, there, -⟩ := next remaining _ here
            exact ⟨remaining, Option.some.inj (same.symm.trans taken) ▸ there⟩
  · have arrives : ∀ remaining state, RunsWithin entry low high state → point remaining state →
        ∃ final, RunsWithin entry low high final ∧ point 0 final := by
      intro remaining
      induction remaining with
      | zero => exact fun state runs here => ⟨state, runs, here⟩
      | succ remaining ih =>
          intro state runs here
          obtain ⟨after, taken, there, inside⟩ := next remaining state here
          exact ih after (.step runs inside taken) there
    exact arrives total entry .start start

end State

end Machines.Intel
