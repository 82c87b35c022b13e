import PslCompiler.Machines.Unwinding
import PslCompiler.Native.CallTransfers
import PslCompiler.Native.WindowsFrames

/-! # What is emitted for a frame of Windows

The bytes of the entry of a function (`win64FunctionPrologue_eq`) are those of its instructions
(`entryPieces_coded`), and the bytes of its unwind data (`win64WriteUnwind_eq`) describe them
(`unwindPieces_data`).
-/

namespace Native

open Machines Buffers

/-- A frame size that the back end accepts. -/
def FrameSize (frame : Nat) : Prop :=
  frame ≠ 0 ∧ frame ≤ 2147483584 ∧ frame % 16 = 0

/-- The size of the entry of a function. -/
def entrySize (frame : Nat) : Nat :=
  if frame < 4096 then 11 else 67

theorem land_fifteen (value : Nat) : value &&& 15 = value % 16 :=
  Nat.and_two_pow_sub_one_eq_mod value 4

/-! ## The entry -/

/-- The numbers that touch the pages of a large frame. -/
def probePieces (frame : Nat) : List (Nat × Nat) :=
  [(0xe28949, 3), (0xbb49, 2), (frame, 8), (0x00001000fb8149, 7), (0x820f, 2), (23, 4),
    (0x00001000ea8149, 7), (0x0002f641, 4), (0x00001000eb8149, 7), (0xe9, 1), (2 ^ 32 - 36, 4),
    (0xda294d, 3), (0x0002f641, 4)]

/-- The numbers that make the frame. -/
def framePieces (frame : Nat) : List (Nat × Nat) :=
  [(0xec8148, 3), (frame, 4), (0xe58948, 3)]

def entryPieces (frame : Nat) : List (Nat × Nat) :=
  if frame < 4096 then (0x55, 1) :: framePieces frame
  else (0x55, 1) :: (probePieces frame ++ framePieces frame)

theorem entryPieces_size (frame : Nat) : piecesSize (entryPieces frame) = entrySize frame := by
  unfold entryPieces entrySize
  split <;> simp [piecesSize, framePieces, probePieces]

/-- The numbers that save the incoming registers. -/
def savePieces (outgoing : Nat) : List (Nat × Nat) :=
  [(0x8d8948, 3), (outgoing, 4), (0x958948, 3), (outgoing + 8, 4), (0x85894c, 3),
    (outgoing + 16, 4), (0x8d894c, 3), (outgoing + 24, 4)]

section Entry

variable {code : ByteBuffer} {pieces : List (Nat × Nat)}

theorem win64FrameAccess_next (valid : code.Valid) {opcode offset : Nat}
    (small : offset ≤ 2147483647)
    (room : code.length + (piecesSize pieces + 7) ≤ code.capacity) :
    win64FrameAccess (code.emittedPieces pieces) opcode offset =
      (true, code.emittedPieces (pieces ++ [(opcode, 3), (offset, 4)])) := by
  have before : (code.emittedPieces pieces).Valid := valid.emittedPieces (by omega)
  have hasRoom : roomFor (code.emittedPieces pieces) 7 = true :=
    (roomFor_iff before).mpr (by rw [emittedPieces_length, emittedPieces_capacity]; omega)
  rw [win64FrameAccess, if_neg (by omega), hasRoom, if_neg Bool.noConfusion,
    emitInteger_next valid (by decide) (by omega)]
  dsimp only
  rw [emitInteger_next valid (by decide) (by rw [piecesSize_append]; simp only [piecesSize]; omega),
    List.append_assoc]
  rfl

theorem win64SaveParameters_next (valid : code.Valid) {outgoing : Nat}
    (small : outgoing ≤ 2147483584)
    (room : code.length + (piecesSize pieces + 28) ≤ code.capacity) :
    win64SaveParameters (code.emittedPieces pieces) outgoing =
      (true, code.emittedPieces (pieces ++ savePieces outgoing)) := by
  have word : outgoing + 24 < wordLimit := by unfold wordLimit; omega
  rw [win64SaveParameters, win64FrameAccess_next valid (by omega) (by omega)]
  dsimp only
  rw [if_neg Bool.noConfusion, wrapAdd_eq (by omega), win64FrameAccess_next valid (by omega)
    (by rw [piecesSize_append]; simp only [piecesSize]; omega)]
  dsimp only
  rw [if_neg Bool.noConfusion, wrapAdd_eq (by omega), win64FrameAccess_next valid (by omega)
    (by rw [piecesSize_append, piecesSize_append]; simp only [piecesSize]; omega)]
  dsimp only
  rw [if_neg Bool.noConfusion, wrapAdd_eq (by omega), win64FrameAccess_next valid (by omega)
    (by rw [piecesSize_append, piecesSize_append, piecesSize_append]; simp only [piecesSize]; omega)]
  simp only [List.append_assoc, List.cons_append, List.nil_append, savePieces]

/-- The way back of the probing loop. -/
theorem probeJump_eq (start : Nat) (below : start + 36 < wordLimit) :
    wrapSub start (wrapAdd (start + 32) 4) % 256 ^ 4 = 2 ^ 32 - 36 := by
  rw [wrapAdd_eq (by omega), wrapSub]
  unfold wordLimit at *
  omega

theorem win64ProbeLoop_next (valid : code.Valid) {loopStart : Nat}
    (start : code.length + piecesSize pieces = loopStart + 13)
    (room : code.length + (piecesSize pieces + 23) ≤ code.capacity) :
    win64ProbeLoop (code.emittedPieces pieces) loopStart =
      (true, code.emittedPieces (pieces ++ [(0x00001000ea8149, 7), (0x0002f641, 4),
        (0x00001000eb8149, 7), (0xe9, 1), (2 ^ 32 - 36, 4)])) := by
  have bounded := valid.bounded
  rw [win64ProbeLoop, emitInteger_next valid (by decide) (by omega)]
  dsimp only
  rw [emitInteger_next valid (by decide) (by simp only [piecesSize_append, piecesSize]; omega)]
  dsimp only
  rw [emitInteger_next valid (by decide) (by simp only [piecesSize_append, piecesSize]; omega)]
  dsimp only
  rw [emitByte_next valid (by simp only [piecesSize_append, piecesSize]; omega)]
  dsimp only
  have length : (code.emittedPieces (pieces ++ [(0x00001000ea8149, 7)] ++ [(0x0002f641, 4)] ++
      [(0x00001000eb8149, 7)] ++ [((0xe9 : UInt8).toNat, 1)])).length = loopStart + 32 := by
    rw [emittedPieces_length]
    simp only [piecesSize_append, piecesSize]
    omega
  rw [length, emitInteger_next_low valid (by decide) (probeJump_eq loopStart (by omega))
    (by simp only [piecesSize_append, piecesSize]; omega)]
  simp only [List.append_assoc, List.cons_append, List.nil_append]
  rfl

theorem win64ProbePages_next (valid : code.Valid) {frame : Nat} (large : 4096 ≤ frame)
    (room : code.length + (piecesSize pieces + 56) ≤ code.capacity) :
    win64ProbePages (code.emittedPieces pieces) frame =
      (true, code.emittedPieces (pieces ++ probePieces frame)) := by
  have before : (code.emittedPieces pieces).Valid := valid.emittedPieces (by omega)
  have hasRoom : roomFor (code.emittedPieces pieces) 56 = true :=
    (roomFor_iff before).mpr (by rw [emittedPieces_length, emittedPieces_capacity]; omega)
  rw [win64ProbePages, if_neg (by omega), hasRoom, if_neg Bool.noConfusion]
  dsimp only
  rw [emitInteger_next valid (by decide) (by omega)]
  dsimp only
  rw [emitInteger_next valid (by decide) (by simp only [piecesSize_append, piecesSize]; omega)]
  dsimp only
  rw [emitInteger_next valid (by decide) (by simp only [piecesSize_append, piecesSize]; omega)]
  dsimp only
  rw [emitInteger_next valid (by decide) (by simp only [piecesSize_append, piecesSize]; omega)]
  dsimp only
  rw [emitInteger_next valid (by decide) (by simp only [piecesSize_append, piecesSize]; omega)]
  dsimp only
  rw [emitInteger_next valid (by decide) (by simp only [piecesSize_append, piecesSize]; omega)]
  dsimp only
  rw [win64ProbeLoop_next valid
    (by rw [emittedPieces_length]; simp only [piecesSize_append, piecesSize]; omega)
    (by simp only [piecesSize_append, piecesSize]; omega)]
  dsimp only
  rw [emitInteger_next valid (by decide) (by simp only [piecesSize_append, piecesSize]; omega)]
  dsimp only
  rw [emitInteger_next valid (by decide) (by simp only [piecesSize_append, piecesSize]; omega)]
  simp only [List.append_assoc, List.cons_append, List.nil_append, probePieces]

/-- The bytes that are emitted at the entry of a function. -/
theorem win64FunctionPrologue_eq (valid : code.Valid) {frame outgoing : Nat}
    (accepted : FrameSize frame) (within : outgoing ≤ frame)
    (room : code.length + (entrySize frame + 28) ≤ code.capacity) :
    win64FunctionPrologue code frame outgoing =
      (entrySize frame, code.emittedPieces (entryPieces frame ++ savePieces outgoing)) := by
  obtain ⟨positive, small, aligned⟩ := accepted
  have bounded := valid.bounded
  rw [win64FunctionPrologue, if_neg positive, if_neg (by omega), if_neg (by omega), land_fifteen,
    if_pos aligned]
  unfold entrySize at room ⊢
  unfold entryPieces
  have first : (emitByte code 0x55).2 = code.emittedPieces [(0x55, 1)] := by
    rw [show code = code.emittedPieces [] from rfl,
      emitByte_next valid (by split at room <;> simp only [piecesSize] <;> omega)]
    rfl
  by_cases few : frame < 4096
  · rw [if_pos few] at room
    simp only [if_pos few]
    have hasRoom : roomFor code 39 = true := (roomFor_iff valid).mpr room
    rw [hasRoom, if_neg Bool.noConfusion, first, win64ProbePages, if_pos few]
    dsimp only
    rw [emitInteger_next valid (by decide) (by simp only [piecesSize]; omega)]
    dsimp only
    rw [emitInteger_next valid (by decide) (by simp only [piecesSize_append, piecesSize]; omega)]
    dsimp only
    rw [emitInteger_next valid (by decide) (by simp only [piecesSize_append, piecesSize]; omega)]
    dsimp only
    rw [win64SaveParameters_next valid (by omega)
      (by simp only [piecesSize_append, piecesSize]; omega)]
    simp only [List.cons_append, List.nil_append, framePieces]
  · rw [if_neg few] at room
    simp only [if_neg few]
    have hasRoom : roomFor code 95 = true := (roomFor_iff valid).mpr room
    rw [hasRoom, if_neg Bool.noConfusion, first, win64ProbePages_next valid (by omega)
      (by simp only [piecesSize]; omega)]
    dsimp only
    rw [emitInteger_next valid (by decide)
      (by simp only [piecesSize_append, piecesSize, probePieces]; omega)]
    dsimp only
    rw [emitInteger_next valid (by decide)
      (by simp only [piecesSize_append, piecesSize, probePieces]; omega)]
    dsimp only
    rw [emitInteger_next valid (by decide)
      (by simp only [piecesSize_append, piecesSize, probePieces]; omega)]
    dsimp only
    rw [win64SaveParameters_next valid (by omega)
      (by simp only [piecesSize_append, piecesSize, probePieces]; omega)]
    simp only [List.cons_append, List.nil_append, framePieces, probePieces]

end Entry

/-! ## The instructions of the entry -/

/-- The instructions that touch the pages of a large frame. -/
def probeInstructions (frame : Nat) : List (Intel.Instruction × Nat) :=
  [(.move 10 4, 3), (.moveImmediate 11 frame, 10), (.compareImmediate 11 4096, 7),
    (.jumpBelow 23, 6), (.subtractImmediate 10 4096, 7), (.testByte 10 0, 4),
    (.subtractImmediate 11 4096, 7), (.jump (2 ^ 32 - 36), 5), (.subtract 10 11, 3),
    (.testByte 10 0, 4)]

/-- The instructions that make the frame. -/
def frameInstructions (frame : Nat) : List (Intel.Instruction × Nat) :=
  [(.subtractImmediate 4 frame, 7), (.move 5 4, 3)]

section Decoding

variable {memory : Memory} {position frame : Nat}

/-- A byte of a number that stands in the memory. -/
theorem byte_of_word {size word offset : Nat} (stands : loadWord memory position size = word)
    (inside : offset < size) : (memory (position + offset)).toNat = word / 256 ^ offset % 256 := by
  rw [byte_of_loadWord inside, stands]

theorem first_of_word {size word : Nat} (stands : loadWord memory position size = word)
    (some_ : 0 < size) : (memory position).toNat = word / 256 ^ 0 % 256 :=
  @byte_of_word memory position size word 0 stands some_

theorem decode_push (stands : loadWord memory position 1 = 0x55) :
    Intel.decode memory position = some (.push 5, 1) := by
  rw [loadWord_one] at stands
  unfold Intel.decode
  rw [stands]
  rfl

theorem decode_lower (opcode : loadWord memory position 3 = 0xec8148)
    (immediate : loadWord memory (position + 3) 4 = frame) :
    Intel.decode memory position = some (.subtractImmediate 4 frame, 7) := by
  unfold Intel.decode Intel.decodeWide
  dsimp only
  rw [show (memory position).toNat = 0x48 from first_of_word opcode (by decide),
    show (memory (position + 1)).toNat = 0x81 from byte_of_word opcode (by decide),
    show (memory (position + 2)).toNat = 0xec from byte_of_word opcode (by decide), immediate]
  rfl

theorem decode_frame (opcode : loadWord memory position 3 = 0xe58948) :
    Intel.decode memory position = some (.move 5 4, 3) := by
  unfold Intel.decode Intel.decodeWide
  dsimp only
  rw [show (memory position).toNat = 0x48 from first_of_word opcode (by decide),
    show (memory (position + 1)).toNat = 0x89 from byte_of_word opcode (by decide),
    show (memory (position + 2)).toNat = 0xe5 from byte_of_word opcode (by decide)]
  rfl

theorem decode_copy (opcode : loadWord memory position 3 = 0xe28949) :
    Intel.decode memory position = some (.move 10 4, 3) := by
  unfold Intel.decode Intel.decodeWide
  dsimp only
  rw [show (memory position).toNat = 0x49 from first_of_word opcode (by decide),
    show (memory (position + 1)).toNat = 0x89 from byte_of_word opcode (by decide),
    show (memory (position + 2)).toNat = 0xe2 from byte_of_word opcode (by decide)]
  rfl

theorem decode_load (opcode : loadWord memory position 2 = 0xbb49)
    (immediate : loadWord memory (position + 2) 8 = frame) :
    Intel.decode memory position = some (.moveImmediate 11 frame, 10) := by
  unfold Intel.decode Intel.decodeWide
  dsimp only
  rw [show (memory position).toNat = 0x49 from first_of_word opcode (by decide),
    show (memory (position + 1)).toNat = 0xbb from byte_of_word opcode (by decide), immediate]
  rfl

/-- The instructions of seven bytes that have to do with the size of a page. -/
theorem decode_page {word : Nat} {instruction : Intel.Instruction}
    (stands : loadWord memory position 7 = word)
    (known : word = 0x00001000fb8149 ∧ instruction = .compareImmediate 11 4096 ∨
      word = 0x00001000ea8149 ∧ instruction = .subtractImmediate 10 4096 ∨
      word = 0x00001000eb8149 ∧ instruction = .subtractImmediate 11 4096) :
    Intel.decode memory position = some (instruction, 7) := by
  have immediate : loadWord memory (position + 3) 4 = word / 256 ^ 3 := by
    rw [loadWord_drop, stands]
  have first := first_of_word stands (by decide)
  have second := @byte_of_word memory position 7 word 1 stands (by decide)
  have third := @byte_of_word memory position 7 word 2 stands (by decide)
  unfold Intel.decode Intel.decodeWide
  dsimp only
  rw [first, second, third, immediate]
  rcases known with ⟨rfl, rfl⟩ | ⟨rfl, rfl⟩ | ⟨rfl, rfl⟩ <;> rfl

theorem decode_below (opcode : loadWord memory position 2 = 0x820f)
    (displacement : loadWord memory (position + 2) 4 = 23) :
    Intel.decode memory position = some (.jumpBelow 23, 6) := by
  unfold Intel.decode
  dsimp only
  rw [show (memory position).toNat = 0x0f from first_of_word opcode (by decide),
    show (memory (position + 1)).toNat = 0x82 from byte_of_word opcode (by decide), displacement]
  rfl

theorem decode_test (word : loadWord memory position 4 = 0x0002f641) :
    Intel.decode memory position = some (.testByte 10 0, 4) := by
  unfold Intel.decode
  dsimp only
  rw [show (memory position).toNat = 0x41 from first_of_word word (by decide),
    show (memory (position + 1)).toNat = 0xf6 from byte_of_word word (by decide),
    show (memory (position + 2)).toNat = 2 from byte_of_word word (by decide),
    show (memory (position + 3)).toNat = 0 from byte_of_word word (by decide)]
  rfl

theorem decode_back (opcode : loadWord memory position 1 = 0xe9)
    (displacement : loadWord memory (position + 1) 4 = 2 ^ 32 - 36) :
    Intel.decode memory position = some (.jump (2 ^ 32 - 36), 5) := by
  rw [loadWord_one] at opcode
  unfold Intel.decode
  dsimp only
  rw [opcode, displacement]
  rfl

theorem decode_rest (opcode : loadWord memory position 3 = 0xda294d) :
    Intel.decode memory position = some (.subtract 10 11, 3) := by
  unfold Intel.decode Intel.decodeWide
  dsimp only
  rw [show (memory position).toNat = 0x4d from first_of_word opcode (by decide),
    show (memory (position + 1)).toNat = 0x29 from byte_of_word opcode (by decide),
    show (memory (position + 2)).toNat = 0xda from byte_of_word opcode (by decide)]
  rfl

/-- The bytes of the entry of a small frame are its instructions. -/
theorem entryPieces_small (few : frame < 4096) (stands : Pieces memory position (entryPieces frame)) :
    Intel.Coded memory position ((.push 5, 1) :: frameInstructions frame) := by
  rw [entryPieces, if_pos few] at stands
  simp only [framePieces, pieces_cons] at stands
  obtain ⟨push, lower, size, framed, -⟩ := stands
  exact ⟨decode_push push, decode_lower lower size, decode_frame framed, trivial⟩

/-- The bytes of the entry of a large frame are its instructions. -/
theorem entryPieces_large (large : ¬frame < 4096)
    (stands : Pieces memory position (entryPieces frame)) :
    Intel.Coded memory position
      ((.push 5, 1) :: (probeInstructions frame ++ frameInstructions frame)) := by
  rw [entryPieces, if_neg large] at stands
  simp only [probePieces, framePieces, List.cons_append, List.nil_append, pieces_cons,
    Nat.add_assoc, Nat.reduceAdd] at stands
  obtain ⟨push, copied, load, loaded, compare, below, displacement, lowered, tested, counted, back,
    loop, rest, touched, lower, size, framed, -⟩ := stands
  simp only [probeInstructions, frameInstructions, List.cons_append, List.nil_append,
    Intel.coded_cons, Nat.add_assoc, Nat.reduceAdd]
  exact ⟨decode_push push, decode_copy copied, decode_load load loaded,
    decode_page compare (.inl ⟨rfl, rfl⟩), decode_below below displacement,
    decode_page lowered (.inr (.inl ⟨rfl, rfl⟩)), decode_test tested,
    decode_page counted (.inr (.inr ⟨rfl, rfl⟩)), decode_back back loop, decode_rest rest,
    decode_test touched, decode_lower lower size, decode_frame framed, trivial⟩

end Decoding

/-! ## Unwind data -/

/-- The numbers that describe the lowering of the stack pointer. -/
def allocationPieces (frame : Nat) : List (Nat × Nat) :=
  if 524280 < frame then [(0x11, 1), (frame, 4)]
  else if 128 < frame then [(1, 1), (frame / 8, 2)]
  else [(2 + (frame / 8 - 1) * 16, 1)]

/-- The numbers of the unwind data of a frame; the last of them fills a slot. -/
def unwindPieces (frame : Nat) : List (Nat × Nat) :=
  [(1, 1), (entrySize frame, 1), (win64UnwindSlots frame, 1), (5, 1), (entrySize frame, 1), (3, 1),
    (entrySize frame - 3, 1)] ++ allocationPieces frame ++
    (if win64UnwindSlots frame = 4 then [(0x5001, 2)] else [(0x5001, 2), (0, 2)])

theorem win64UnwindBytes_eq (frame : Nat) :
    win64UnwindBytes frame = piecesSize (unwindPieces frame) := by
  unfold win64UnwindBytes unwindPieces allocationPieces win64UnwindSlots
  split_ifs <;> first | rfl | omega

section Unwinding

variable {output : ByteBuffer} {frame : Nat}

theorem ofNat_toNat_of_lt {value : Nat} (small : value < 256) : (UInt8.ofNat value).toNat = value := by
  rw [UInt8.toNat_ofNat', Nat.mod_eq_of_lt small]

theorem win64UnwindAllocation_next (valid : output.Valid) (accepted : FrameSize frame)
    {pieces : List (Nat × Nat)} {offset : Nat} (few : offset < 256)
    (room : output.length + (piecesSize pieces + 6) ≤ output.capacity) :
    win64UnwindAllocation (output.emittedPieces pieces) frame offset =
      (true, output.emittedPieces (pieces ++ ((offset, 1) :: allocationPieces frame))) := by
  obtain ⟨positive, small, aligned⟩ := accepted
  have shifted : shr64 frame 3 = frame / 8 := rfl
  unfold win64UnwindAllocation allocationPieces
  rw [shifted, emitByte_next valid (by omega), ofNat_toNat_of_lt few]
  dsimp only
  split_ifs with large medium
  · rw [emitByte_next valid (by simp only [piecesSize_append, piecesSize]; omega)]
    dsimp only
    rw [emitInteger_next valid (by decide) (by simp only [piecesSize_append, piecesSize]; omega)]
    simp only [List.append_assoc, List.cons_append, List.nil_append]
    rfl
  · rw [emitByte_next valid (by simp only [piecesSize_append, piecesSize]; omega)]
    dsimp only
    rw [emitInteger_next valid (by decide) (by simp only [piecesSize_append, piecesSize]; omega)]
    simp only [List.append_assoc, List.cons_append, List.nil_append]
    rfl
  · have word : frame / 8 < wordLimit := by unfold wordLimit; omega
    have code : wrapAdd 2 (wrapMul (wrapSub (frame / 8) 1) 16) = 2 + (frame / 8 - 1) * 16 := by
      rw [wrapSub_eq (by omega) word, wrapMul,
        Nat.mod_eq_of_lt (show (frame / 8 - 1) * 16 < wordLimit by unfold wordLimit; omega),
        wrapAdd_eq (by unfold wordLimit; omega)]
    rw [code, emitByte_next valid (by simp only [piecesSize_append, piecesSize]; omega),
      ofNat_toNat_of_lt (by omega)]
    simp only [List.append_assoc, List.cons_append, List.nil_append]

/-- The bytes that are emitted as unwind data. -/
theorem win64WriteUnwind_eq (valid : output.Valid) (accepted : FrameSize frame)
    (room : output.length + piecesSize (unwindPieces frame) ≤ output.capacity) :
    win64WriteUnwind output frame (entrySize frame) =
      (true, output.emittedPieces (unwindPieces frame)) := by
  obtain ⟨positive, small, aligned⟩ := accepted
  have hasRoom : roomFor output (win64UnwindBytes frame) = true :=
    (roomFor_iff valid).mpr (by rw [win64UnwindBytes_eq]; exact room)
  have sizes : entrySize frame = 11 ∨ entrySize frame = 67 := by
    unfold entrySize
    split
    · exact .inl rfl
    · exact .inr rfl
  have slots : win64UnwindSlots frame < 256 := by
    unfold win64UnwindSlots
    split_ifs <;> decide
  have odd : win64UnwindSlots frame &&& 1 = 1 ↔ win64UnwindSlots frame ≠ 4 := by
    unfold win64UnwindSlots
    split_ifs <;> decide
  have several : 12 ≤ piecesSize (unwindPieces frame) := by
    unfold unwindPieces allocationPieces win64UnwindSlots
    split_ifs <;> simp only [piecesSize_append, piecesSize] <;> omega
  have total : piecesSize (unwindPieces frame) = 7 + piecesSize (allocationPieces frame) +
      (if win64UnwindSlots frame = 4 then 2 else 4) := by
    unfold unwindPieces
    split_ifs <;> simp only [piecesSize_append, piecesSize]
  rw [win64WriteUnwind, if_neg positive, if_neg (by omega), land_fifteen, if_pos aligned,
    entrySize, if_pos rfl, hasRoom, if_neg Bool.noConfusion, ← entrySize]
  have begin_ : (emitByte output 1).2 = output.emittedPieces [(1, 1)] := by
    rw [show output = output.emittedPieces [] from rfl,
      emitByte_next valid (by simp only [piecesSize]; omega)]
    rfl
  rw [begin_]
  dsimp only
  rw [emitByte_next valid (by simp only [piecesSize]; omega)]
  dsimp only
  rw [emitByte_next valid (by simp only [piecesSize_append, piecesSize]; omega)]
  dsimp only
  rw [emitByte_next valid (by simp only [piecesSize_append, piecesSize]; omega)]
  dsimp only
  rw [emitByte_next valid (by simp only [piecesSize_append, piecesSize]; omega)]
  dsimp only
  rw [emitByte_next valid (by simp only [piecesSize_append, piecesSize]; omega),
    ofNat_toNat_of_lt (show entrySize frame < 256 by omega), ofNat_toNat_of_lt slots,
    wrapSub_eq (show 3 ≤ entrySize frame by omega) (by unfold wordLimit; omega)]
  dsimp only
  rw [win64UnwindAllocation_next valid ⟨positive, small, aligned⟩ (by omega)
    (by simp only [piecesSize_append, piecesSize]; omega)]
  dsimp only
  rw [emitInteger_next valid (by decide) (by
    simp only [piecesSize_append, piecesSize]
    split_ifs at total <;> omega)]
  dsimp only
  by_cases even : win64UnwindSlots frame = 4
  · rw [if_neg (fun isOdd => odd.mp isOdd even), unwindPieces, if_pos even]
    simp only [List.cons_append, List.nil_append]
    rfl
  · rw [if_neg even] at total
    rw [if_pos (odd.mpr even), unwindPieces, if_neg even, emitInteger_next valid (by decide) (by
      simp only [piecesSize_append, piecesSize]
      omega)]
    simp only [List.append_assoc, List.cons_append, List.nil_append]
    rfl

theorem unwindPieces_small (accepted : FrameSize frame) :
    ∀ piece ∈ unwindPieces frame, piece.1 < 256 ^ piece.2 := by
  obtain ⟨positive, small, aligned⟩ := accepted
  unfold unwindPieces allocationPieces win64UnwindSlots entrySize
  split_ifs <;> simp <;> omega

/-- The unwind data describe the entry of the function. -/
theorem unwindPieces_data {info : Memory} {position : Nat} (accepted : FrameSize frame)
    (stands : Pieces info position (unwindPieces frame)) :
    Intel.FrameData info position frame (entrySize frame) := by
  obtain ⟨positive, small, aligned⟩ := accepted
  unfold unwindPieces at stands
  simp only [List.cons_append, List.nil_append, pieces_cons, loadWord_one, Nat.add_assoc,
    Nat.reduceAdd] at stands
  obtain ⟨version, length, slots, register, set, setCode, allocated, rest⟩ := stands
  have pushed (place : Nat) (word : loadWord info place 2 = 0x5001) :
      (info place).toNat = 1 ∧ (info (place + 1)).toNat = 16 * Intel.framePointer := by
    have low := @byte_of_loadWord info 2 place 0 (by decide)
    have high := @byte_of_loadWord info 2 place 1 (by decide)
    rw [word] at low high
    exact ⟨low, high⟩
  refine ⟨version, length, register ▸ rfl, ?_⟩
  rw [slots]
  unfold allocationPieces at rest
  unfold win64UnwindSlots at rest ⊢
  have setFrame := Intel.decodeUnwind_setFrame (show (info (position + 4 + 1)).toNat = 3 from setCode)
  by_cases large : 524280 < frame
  · simp only [if_pos large] at rest ⊢
    rw [if_neg (by decide)] at rest
    simp only [List.cons_append, List.nil_append, pieces_cons, loadWord_one, Nat.add_assoc,
      Nat.reduceAdd] at rest
    obtain ⟨code, size, push, -⟩ := rest
    obtain ⟨pushOffset, pushCode⟩ := pushed _ push
    rw [Intel.decodeUnwinds_cons setFrame (by decide) (Intel.decodeUnwinds_cons
      (Intel.decodeUnwind_allocateLarge code) (by decide) (Intel.decodeUnwinds_cons
        (Intel.decodeUnwind_pushRegister pushCode) (by decide) rfl))]
    simp only [Nat.add_assoc, Nat.reduceAdd, Nat.reduceMul]
    rw [set, allocated, size, pushOffset]
  by_cases medium : 128 < frame
  · simp only [if_neg large, if_pos medium] at rest ⊢
    rw [if_pos trivial] at rest
    simp only [List.cons_append, List.nil_append, pieces_cons, loadWord_one, Nat.add_assoc,
      Nat.reduceAdd] at rest
    obtain ⟨code, size, push, -⟩ := rest
    obtain ⟨pushOffset, pushCode⟩ := pushed _ push
    rw [Intel.decodeUnwinds_cons setFrame (by decide) (Intel.decodeUnwinds_cons
      (Intel.decodeUnwind_allocateScaled code) (by decide) (Intel.decodeUnwinds_cons
        (Intel.decodeUnwind_pushRegister pushCode) (by decide) rfl))]
    simp only [Nat.add_assoc, Nat.reduceAdd, Nat.reduceMul]
    rw [set, allocated, size, pushOffset, Nat.mul_div_cancel' (by omega)]
  · simp only [if_neg large, if_neg medium] at rest ⊢
    rw [if_neg (by decide)] at rest
    simp only [List.cons_append, List.nil_append, pieces_cons, loadWord_one, Nat.add_assoc,
      Nat.reduceAdd] at rest
    obtain ⟨code, push, -⟩ := rest
    obtain ⟨pushOffset, pushCode⟩ := pushed _ push
    rw [Intel.decodeUnwinds_cons setFrame (by decide) (Intel.decodeUnwinds_cons
      (Intel.decodeUnwind_allocate (code.trans (by rw [Nat.mul_comm]))) (by decide)
        (Intel.decodeUnwinds_cons (Intel.decodeUnwind_pushRegister pushCode) (by decide) rfl))]
    simp only [Nat.add_assoc, Nat.reduceAdd, Nat.reduceMul]
    rw [set, allocated, pushOffset, show 8 * (frame / 8 - 1) + 8 = frame by omega]

end Unwinding

end Native
