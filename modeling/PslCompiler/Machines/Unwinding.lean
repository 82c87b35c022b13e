import PslCompiler.Machines.Intel

/-! # Unwinding a frame of x86-64

The unwind data of Windows describe what the entry of a function does, the last instruction first. To
unwind a frame is to undo what has been executed of it and to take the return address from the stack.
-/

namespace Machines.Intel

/-- What an instruction of the entry of a function did. -/
inductive UnwindCode
  | pushRegister (register : Nat)
  | allocate (size : Nat)
  | setFrame
  deriving DecidableEq, Repr

/-- The code at a position behind the offset of its instruction, with the number of its slots. -/
def decodeUnwind (memory : Memory) (position : Nat) : Option (UnwindCode × Nat) :=
  let operation := (memory (position + 1)).toNat % 16
  let information := (memory (position + 1)).toNat / 16
  if operation = 0 then some (.pushRegister information, 1)
  else if operation = 1 ∧ information = 0 then
    some (.allocate (8 * loadWord memory (position + 2) 2), 2)
  else if operation = 1 ∧ information = 1 then
    some (.allocate (loadWord memory (position + 2) 4), 3)
  else if operation = 2 then some (.allocate (8 * information + 8), 1)
  else if operation = 3 then some (.setFrame, 1)
  else none

/-- The codes in some slots, each with the offset behind its instruction. -/
def decodeUnwinds (memory : Memory) : Nat → Nat → Nat → Option (List (Nat × UnwindCode))
  | _, _, 0 => some []
  | 0, _, _ + 1 => none
  | fuel + 1, position, slots + 1 =>
      (decodeUnwind memory position).bind fun decoded =>
        if slots + 1 < decoded.2 then none
        else
          (decodeUnwinds memory fuel (position + 2 * decoded.2) (slots + 1 - decoded.2)).map fun rest =>
            ((memory position).toNat, decoded.1) :: rest

section Decoding

variable {memory : Memory} {position : Nat}

theorem decodeUnwinds_cons {fuel slots size : Nat} {code : UnwindCode} {rest : List (Nat × UnwindCode)}
    (decoded : decodeUnwind memory position = some (code, size)) (few : size ≤ slots + 1)
    (behind : decodeUnwinds memory fuel (position + 2 * size) (slots + 1 - size) = some rest) :
    decodeUnwinds memory (fuel + 1) position (slots + 1) =
      some (((memory position).toNat, code) :: rest) := by
  rw [decodeUnwinds, decoded, Option.bind_some]
  dsimp only
  rw [if_neg (Nat.not_lt.mpr few), behind, Option.map_some]

theorem decodeUnwind_pushRegister {register : Nat}
    (known : (memory (position + 1)).toNat = 16 * register) :
    decodeUnwind memory position = some (.pushRegister register, 1) := by
  unfold decodeUnwind
  rw [known, if_pos (Nat.mul_mod_right ..), Nat.mul_div_cancel_left _ (by decide)]

theorem decodeUnwind_setFrame (known : (memory (position + 1)).toNat = 3) :
    decodeUnwind memory position = some (.setFrame, 1) := by
  unfold decodeUnwind
  rw [known]
  rfl

theorem decodeUnwind_allocate {information : Nat}
    (known : (memory (position + 1)).toNat = 2 + 16 * information) :
    decodeUnwind memory position = some (.allocate (8 * information + 8), 1) := by
  unfold decodeUnwind
  have operation : (2 + 16 * information) % 16 = 2 := by omega
  have field : (2 + 16 * information) / 16 = information := by omega
  rw [known, operation, field]
  rfl

theorem decodeUnwind_allocateScaled (known : (memory (position + 1)).toNat = 1) :
    decodeUnwind memory position = some (.allocate (8 * loadWord memory (position + 2) 2), 2) := by
  unfold decodeUnwind
  rw [known]
  rfl

theorem decodeUnwind_allocateLarge (known : (memory (position + 1)).toNat = 0x11) :
    decodeUnwind memory position = some (.allocate (loadWord memory (position + 2) 4), 3) := by
  unfold decodeUnwind
  rw [known]
  rfl

end Decoding

/-- What undoes an instruction, with the frame register and its distance from the stack pointer. -/
def UnwindCode.undo (memory : Memory) (frame distance : Nat) (registers : Nat → Nat) :
    UnwindCode → Nat → Nat
  | .pushRegister register =>
      Function.update
        (Function.update registers register (loadWord memory (registers stackPointer) 8))
        stackPointer ((registers stackPointer + 8) % wordCount)
  | .allocate size =>
      Function.update registers stackPointer ((registers stackPointer + size) % wordCount)
  | .setFrame =>
      Function.update registers stackPointer
        ((registers frame + wordCount - 16 * distance) % wordCount)

theorem undo_pushRegister {memory : Memory} {frame distance register : Nat} {registers : Nat → Nat} :
    UnwindCode.undo memory frame distance registers (.pushRegister register) =
      Function.update
        (Function.update registers register (loadWord memory (registers stackPointer) 8))
        stackPointer ((registers stackPointer + 8) % wordCount) :=
  rfl

theorem undo_allocate {memory : Memory} {frame distance size : Nat} {registers : Nat → Nat} :
    UnwindCode.undo memory frame distance registers (.allocate size) =
      Function.update registers stackPointer ((registers stackPointer + size) % wordCount) :=
  rfl

theorem undo_setFrame {memory : Memory} {frame distance : Nat} {registers : Nat → Nat} :
    UnwindCode.undo memory frame distance registers .setFrame =
      Function.update registers stackPointer
        ((registers frame + wordCount - 16 * distance) % wordCount) :=
  rfl

/-- Unwind a frame whose code has come to an offset, by the unwind data at a position: the address to
which the function returns and the registers of its caller. -/
def unwind (info : Memory) (position offset : Nat) (state : State) : Option (Nat × (Nat → Nat)) :=
  let slots := (info (position + 2)).toNat
  let frame := (info (position + 3)).toNat % 16
  let distance := (info (position + 3)).toNat / 16
  if (info position).toNat = 1 then
    (decodeUnwinds info slots (position + 4) slots).map fun codes =>
      let registers := (codes.filter fun code => code.1 ≤ offset).foldl
        (fun registers code => code.2.undo state.memory frame distance registers) state.registers
      (loadWord state.memory (registers stackPointer) 8,
        Function.update registers stackPointer ((registers stackPointer + 8) % wordCount))
  else none

/-- The registers that a function of Windows leaves as they were, besides the stack pointer. -/
def Nonvolatile (register : Nat) : Prop :=
  register = 3 ∨ register = framePointer ∨ register = 6 ∨ register = 7 ∨
    (12 ≤ register ∧ register < 16)

/-- Unwinding leads back to the caller of a state at the entry of a function. -/
def UnwindsTo (info : Memory) (position offset : Nat) (entry state : State) : Prop :=
  ∃ registers, unwind info position offset state =
      some (loadWord entry.memory (entry.registers stackPointer) 8, registers) ∧
    registers stackPointer = (entry.registers stackPointer + 8) % wordCount ∧
    ∀ register, Nonvolatile register → registers register = entry.registers register

/-- Unwind data for a frame that is made by pushing the frame pointer, lowering the stack pointer and
taking it as the frame pointer. -/
structure FrameData (info : Memory) (position frame size : Nat) : Prop where
  version : (info position).toNat = 1
  length : (info (position + 1)).toNat = size
  register : (info (position + 3)).toNat = framePointer
  codes : decodeUnwinds info (info (position + 2)).toNat (position + 4)
    (info (position + 2)).toNat =
      some [(size, .setFrame), (size - 3, .allocate frame), (1, .pushRegister framePointer)]

/-- The frame pointer of the caller and the return address are on the stack, from an address on, and
the other registers that a function leaves as they were have not changed. -/
structure Saved (entry state : State) (top : Nat) : Prop where
  place : top + 8 = entry.registers stackPointer
  pointer : loadWord state.memory top 8 = entry.registers framePointer
  returns : loadWord state.memory (top + 8) 8 = loadWord entry.memory (top + 8) 8
  kept : ∀ register, Nonvolatile register → register ≠ framePointer →
    state.registers register = entry.registers register

section Frames

variable {info : Memory} {position frame size offset top : Nat} {entry state : State}

theorem FrameData.unwind_eq (data : FrameData info position frame size) :
    unwind info position offset state =
      let registers := ([(size, UnwindCode.setFrame), (size - 3, .allocate frame),
        (1, .pushRegister framePointer)].filter fun code => code.1 ≤ offset).foldl
          (fun registers code => code.2.undo state.memory framePointer 0 registers) state.registers
      some (loadWord state.memory (registers stackPointer) 8,
        Function.update registers stackPointer ((registers stackPointer + 8) % wordCount)) := by
  rw [unwind, data.version, data.register, data.codes]
  rfl

/-- Before the first instruction there is nothing to undo. -/
theorem FrameData.unwinds_entry (data : FrameData info position frame size) (long : 3 < size) :
    UnwindsTo info position 0 entry entry := by
  have none : [(size, UnwindCode.setFrame), (size - 3, .allocate frame),
      (1, .pushRegister framePointer)].filter (fun code => code.1 ≤ 0) = [] := by
    simp only [List.filter_cons, List.filter_nil]
    rw [if_neg (by simp; omega), if_neg (by simp; omega), if_neg (by simp)]
  refine ⟨_, by rw [data.unwind_eq, none]; simp only [List.foldl_nil]; rfl, ?_, ?_⟩
  · exact Function.update_self _ _ _
  · intro register saved
    refine Function.update_of_ne ?_ _ _
    rintro rfl
    revert saved
    unfold Nonvolatile framePointer stackPointer
    omega

theorem stackPointer_volatile {register : Nat} (saved : Nonvolatile register) :
    register ≠ stackPointer := by
  unfold Nonvolatile framePointer at saved
  unfold stackPointer
  omega

/-- From the saved frame pointer on, the rest of unwinding is the same in every phase. -/
theorem Saved.popped (saved : Saved entry state top) (below : entry.registers stackPointer < wordCount)
    {registers : Nat → Nat} (lowered : registers stackPointer = top)
    (kept : ∀ register, register ≠ stackPointer → registers register = state.registers register) :
    let undone := UnwindCode.undo state.memory framePointer 0 registers (.pushRegister framePointer)
    loadWord state.memory (undone stackPointer) 8 =
        loadWord entry.memory (entry.registers stackPointer) 8 ∧
      Function.update undone stackPointer ((undone stackPointer + 8) % wordCount) stackPointer =
        (entry.registers stackPointer + 8) % wordCount ∧
      ∀ register, Nonvolatile register →
        Function.update undone stackPointer ((undone stackPointer + 8) % wordCount) register =
          entry.registers register := by
  intro undone
  have place := saved.place
  have equation : undone = Function.update
      (Function.update registers framePointer (loadWord state.memory top 8))
      stackPointer (entry.registers stackPointer) := by
    change UnwindCode.undo state.memory framePointer 0 registers (.pushRegister framePointer) = _
    rw [undo_pushRegister, lowered, place, Nat.mod_eq_of_lt below]
  have pointer : undone stackPointer = entry.registers stackPointer := by
    rw [equation, Function.update_self]
  refine ⟨?_, ?_, ?_⟩
  · rw [pointer, ← place, saved.returns]
  · rw [Function.update_self, pointer]
  · intro register isSaved
    rw [Function.update_of_ne (stackPointer_volatile isSaved), equation,
      Function.update_of_ne (stackPointer_volatile isSaved)]
    by_cases isFrame : register = framePointer
    · subst isFrame
      rw [Function.update_self, saved.pointer]
    · rw [Function.update_of_ne isFrame, kept register (stackPointer_volatile isSaved),
        saved.kept register isSaved isFrame]

/-- Unwinding leads back when what has been executed after the push is undone. -/
theorem FrameData.unwinds (data : FrameData info position frame size)
    (saved : Saved entry state top) (below : entry.registers stackPointer < wordCount)
    {later : List (Nat × UnwindCode)} {registers : Nat → Nat}
    (executed : [(size, UnwindCode.setFrame), (size - 3, .allocate frame),
      (1, .pushRegister framePointer)].filter (fun code => code.1 ≤ offset) =
        later ++ [(1, .pushRegister framePointer)])
    (undone : later.foldl (fun registers code =>
      code.2.undo state.memory framePointer 0 registers) state.registers = registers)
    (lowered : registers stackPointer = top)
    (kept : ∀ register, register ≠ stackPointer → registers register = state.registers register) :
    UnwindsTo info position offset entry state := by
  obtain ⟨returns, pointer, same⟩ := saved.popped below lowered kept
  refine ⟨_, ?_, pointer, same⟩
  rw [data.unwind_eq, executed, List.foldl_append, undone]
  simp only [List.foldl_cons, List.foldl_nil]
  rw [returns]

/-- While only the frame pointer has been pushed. -/
theorem FrameData.unwinds_pushed (data : FrameData info position frame size)
    (saved : Saved entry state top) (below : entry.registers stackPointer < wordCount)
    (lowered : state.registers stackPointer = top) (after : 1 ≤ offset) (before : offset + 3 < size) :
    UnwindsTo info position offset entry state := by
  refine data.unwinds saved below ?_ (@List.foldl_nil ..) lowered fun _ _ => rfl
  simp only [List.filter_cons, List.filter_nil]
  rw [if_neg (by simp; omega), if_neg (by simp; omega), if_pos (by simp; omega), List.nil_append]

/-- When the stack pointer has been lowered, but is not the frame pointer yet. -/
theorem FrameData.unwinds_lowered (data : FrameData info position frame size)
    (saved : Saved entry state top) (below : entry.registers stackPointer < wordCount)
    (lowered : state.registers stackPointer + frame = top) (after : size ≤ offset + 3)
    (before : offset < size) (long : 4 ≤ size) : UnwindsTo info position offset entry state := by
  have place := saved.place
  have undone : [(size - 3, UnwindCode.allocate frame)].foldl (fun registers code =>
      code.2.undo state.memory framePointer 0 registers) state.registers =
        Function.update state.registers stackPointer top := by
    rw [List.foldl_cons, List.foldl_nil, undo_allocate, lowered, Nat.mod_eq_of_lt (by omega)]
  refine data.unwinds saved below ?_ undone (Function.update_self ..)
    fun register other => Function.update_of_ne other _ _
  simp only [List.filter_cons, List.filter_nil]
  rw [if_neg (by simp; omega), if_pos (by simp; omega), if_pos (by simp; omega), List.singleton_append]

/-- When the frame pointer has its place, wherever the stack pointer is. -/
theorem FrameData.unwinds_framed (data : FrameData info position frame size)
    (saved : Saved entry state top) (below : entry.registers stackPointer < wordCount)
    (framed : state.registers framePointer + frame = top) (after : size ≤ offset) (long : 4 ≤ size) :
    UnwindsTo info position offset entry state := by
  have place := saved.place
  have reset : (state.registers framePointer + wordCount - 16 * 0) % wordCount =
      state.registers framePointer := by
    rw [Nat.mul_zero, Nat.sub_zero, Nat.add_mod_right, Nat.mod_eq_of_lt (by omega)]
  have undone : [(size, UnwindCode.setFrame), (size - 3, .allocate frame)].foldl
      (fun registers code => code.2.undo state.memory framePointer 0 registers) state.registers =
        Function.update state.registers stackPointer top := by
    rw [List.foldl_cons, List.foldl_cons, List.foldl_nil, undo_setFrame, undo_allocate, reset,
      Function.update_self, framed, Function.update_idem, Nat.mod_eq_of_lt (by omega)]
  refine data.unwinds saved below ?_ undone (Function.update_self ..)
    fun register other => Function.update_of_ne other _ _
  simp only [List.filter_cons, List.filter_nil]
  rw [if_pos (by simp; omega), if_pos (by simp; omega), if_pos (by simp; omega), List.cons_append,
    List.singleton_append]

end Frames

end Machines.Intel
