import PslCompiler.Buffers.Pieces
import PslCompiler.Native.CallPatching

/-! # Emitting bytes

A buffer takes a byte or the low bytes of a word where there is room, and what is in use already
stays (`emitInteger_eq`, `ByteBuffer.emittedPieces_pieces`).
-/

namespace Native

open Machines Loops Buffers

def roomFor (buffer : ByteBuffer) (count : Nat) : Bool :=
  if buffer.capacity < buffer.length then false
  else if wrapSub buffer.capacity buffer.length < count then false else true

def emitByteUnchecked (buffer : ByteBuffer) (byte : UInt8) : ByteBuffer :=
  { buffer with
    data := Function.update buffer.data buffer.length byte
    length := wrapAdd buffer.length 1 }

def emitByte (buffer : ByteBuffer) (byte : UInt8) : Bool × ByteBuffer :=
  if roomFor buffer 1 then (true, emitByteUnchecked buffer byte) else (false, buffer)

/-- One turn of the loop of `emit_integer_steps`. -/
def emitIntegerStep (bits start stop : Nat) (buffer : ByteBuffer) : Option ByteBuffer :=
  if buffer.length < stop then
    let index := wrapSub buffer.length start
    some (emitByteUnchecked buffer (UInt8.ofNat (shr64 bits (wrapMul index 8))))
  else none

def emitIntegerSteps (buffer : ByteBuffer) (bits start stop : Nat) : ByteBuffer :=
  repeatStep (emitIntegerStep bits start stop) (fun buffer => stop - buffer.length) buffer

def emitInteger (buffer : ByteBuffer) (bits count : Nat) : Bool × ByteBuffer :=
  if 8 < count then (false, buffer)
  else if roomFor buffer count then
    let start := buffer.length
    (true, emitIntegerSteps buffer bits start (wrapAdd start count))
  else (false, buffer)

/-! ## What is emitted -/

/-- A buffer whose used bytes fit in it. -/
structure ByteBuffer.Valid (buffer : ByteBuffer) : Prop where
  within : buffer.length ≤ buffer.capacity
  bounded : buffer.capacity < wordLimit

/-- The buffer with the low bytes of a word behind the used ones. -/
def ByteBuffer.emitted (buffer : ByteBuffer) (bits count : Nat) : ByteBuffer :=
  { buffer with
    data := storeWord buffer.data buffer.length bits count
    length := buffer.length + count }

section Emission

variable {buffer : ByteBuffer}

theorem roomFor_iff (valid : buffer.Valid) {count : Nat} :
    roomFor buffer count = true ↔ buffer.length + count ≤ buffer.capacity := by
  have within := valid.within
  rw [roomFor, if_neg (by omega), wrapSub_eq within valid.bounded]
  split_ifs <;> simp only [Bool.false_eq_true, true_iff, false_iff] <;> omega

theorem ByteBuffer.Valid.emitted (valid : buffer.Valid) (bits : Nat) {count : Nat}
    (room : buffer.length + count ≤ buffer.capacity) : (buffer.emitted bits count).Valid :=
  ⟨room, valid.bounded⟩

/-- The high bytes of a stored word are those of the word without its low byte. -/
theorem emitIntegerSteps_eq {bits start : Nat} : ∀ {count done : Nat} {buffer : ByteBuffer},
    buffer.length = start + done → start + done + count < wordLimit → done + count ≤ 8 →
      emitIntegerSteps buffer bits start (start + done + count) =
        buffer.emitted (bits / 2 ^ (8 * done)) count := by
  intro count
  induction count with
  | zero =>
      intro done buffer here below few
      have stopped : emitIntegerStep bits start (start + done + 0) buffer = none := by
        rw [emitIntegerStep, if_neg (by omega)]
      exact repeatStep_of_none stopped
  | succ count ih =>
      intro done buffer here below few
      have byte : shr64 bits (wrapMul (wrapSub buffer.length start) 8) = bits / 2 ^ (8 * done) := by
        rw [here, wrapSub_eq (by omega) (by omega), Nat.add_sub_cancel_left, wrapMul,
          Nat.mod_eq_of_lt (by unfold wordLimit; omega), shr64, Nat.mod_eq_of_lt (by omega),
          Nat.mul_comm]
      have stepped : emitIntegerStep bits start (start + done + (count + 1)) buffer =
          some (emitByteUnchecked buffer (UInt8.ofNat (bits / 2 ^ (8 * done)))) := by
        rw [emitIntegerStep, if_pos (by omega)]
        dsimp only
        rw [byte]
      have next : (emitByteUnchecked buffer (UInt8.ofNat (bits / 2 ^ (8 * done)))).length =
          start + (done + 1) := by
        rw [emitByteUnchecked, wrapAdd_eq (by omega), here]
        rfl
      have rest := ih next (by omega) (by omega)
      rw [emitIntegerSteps, repeatStep, show start + done + (count + 1) - buffer.length =
        (start + (done + 1) + count -
          (emitByteUnchecked buffer (UInt8.ofNat (bits / 2 ^ (8 * done)))).length) + 1 by omega,
        stepTimes, stepped, show start + done + (count + 1) = start + (done + 1) + count by omega]
      refine rest.trans ?_
      rw [ByteBuffer.emitted, ByteBuffer.emitted, next, emitByteUnchecked, storeWord, here,
        Nat.div_div_eq_div_mul]
      congr 1
      · rw [show 8 * (done + 1) = 8 * done + 8 by omega, Nat.pow_add]
        rfl
      · omega

/-- Where there is room, the low bytes of a word are emitted; elsewhere nothing happens. -/
theorem emitInteger_eq (valid : buffer.Valid) {bits count : Nat} (few : count ≤ 8) :
    emitInteger buffer bits count =
      if buffer.length + count ≤ buffer.capacity then (true, buffer.emitted bits count)
      else (false, buffer) := by
  have bounded := valid.bounded
  rw [emitInteger, if_neg (by omega)]
  by_cases room : buffer.length + count ≤ buffer.capacity
  · rw [if_pos ((roomFor_iff valid).mpr room), if_pos room]
    dsimp only
    have steps := @emitIntegerSteps_eq bits buffer.length count 0 buffer rfl (by omega) (by omega)
    rw [Nat.add_zero, Nat.mul_zero, Nat.pow_zero, Nat.div_one] at steps
    rw [wrapAdd_eq (by omega), steps]
  · rw [if_neg (fun known => room ((roomFor_iff valid).mp known)), if_neg room]

theorem emitByte_eq (valid : buffer.Valid) (byte : UInt8) :
    emitByte buffer byte =
      if buffer.length + 1 ≤ buffer.capacity then (true, buffer.emitted byte.toNat 1)
      else (false, buffer) := by
  have bounded := valid.bounded
  rw [emitByte]
  by_cases room : buffer.length + 1 ≤ buffer.capacity
  · rw [if_pos ((roomFor_iff valid).mpr room), if_pos room, emitByteUnchecked,
      wrapAdd_eq (by omega), ByteBuffer.emitted, storeWord, storeWord, UInt8.ofNat_toNat]
  · rw [if_neg (fun known => room ((roomFor_iff valid).mp known)), if_neg room]

/-- What was in use stays. -/
theorem emitted_before {bits count address : Nat} (used : address < buffer.length) :
    (buffer.emitted bits count).data address = buffer.data address :=
  storeWord_outside (.inl used)

theorem emitted_word {bits count : Nat} :
    loadWord (buffer.emitted bits count).data buffer.length count = bits % 256 ^ count :=
  loadWord_storeWord

/-- The buffer with some numbers behind the used bytes. -/
def ByteBuffer.emittedPieces (buffer : ByteBuffer) : List (Nat × Nat) → ByteBuffer
  | [] => buffer
  | piece :: rest => (buffer.emitted piece.1 piece.2).emittedPieces rest

@[simp] theorem emittedPieces_length (pieces : List (Nat × Nat)) :
    (buffer.emittedPieces pieces).length = buffer.length + piecesSize pieces := by
  induction pieces generalizing buffer with
  | nil => rfl
  | cons piece rest ih => exact ih.trans (Nat.add_assoc _ _ _)

@[simp] theorem emittedPieces_capacity (pieces : List (Nat × Nat)) :
    (buffer.emittedPieces pieces).capacity = buffer.capacity := by
  induction pieces generalizing buffer with
  | nil => rfl
  | cons piece rest ih => exact ih

theorem emittedPieces_before {pieces : List (Nat × Nat)} {address : Nat}
    (used : address < buffer.length) :
    (buffer.emittedPieces pieces).data address = buffer.data address := by
  induction pieces generalizing buffer with
  | nil => rfl
  | cons piece rest ih =>
      exact (ih (Nat.lt_of_lt_of_le used (Nat.le_add_right _ _))).trans (emitted_before used)

/-- The numbers that are emitted stand behind what was in use. -/
theorem ByteBuffer.emittedPieces_pieces {pieces : List (Nat × Nat)}
    (small : ∀ piece ∈ pieces, piece.1 < 256 ^ piece.2) :
    Pieces (buffer.emittedPieces pieces).data buffer.length pieces := by
  induction pieces generalizing buffer with
  | nil => trivial
  | cons piece rest ih =>
      refine ⟨?_, ih fun other within => small other (List.mem_cons_of_mem _ within)⟩
      have kept : ∀ offset, offset < piece.2 →
          (buffer.emittedPieces (piece :: rest)).data (buffer.length + offset) =
            (buffer.emitted piece.1 piece.2).data (buffer.length + offset) :=
        fun offset inside => @emittedPieces_before (buffer.emitted piece.1 piece.2) rest _
          (Nat.add_lt_add_left inside _)
      rw [loadWord_congr kept, emitted_word,
        Nat.mod_eq_of_lt (small piece (List.mem_cons_self ..))]

theorem ByteBuffer.Valid.emittedPieces (valid : buffer.Valid) {pieces : List (Nat × Nat)}
    (room : buffer.length + piecesSize pieces ≤ buffer.capacity) :
    (buffer.emittedPieces pieces).Valid :=
  ⟨by rw [emittedPieces_length, emittedPieces_capacity]; exact room,
    by rw [emittedPieces_capacity]; exact valid.bounded⟩

theorem piecesSize_append (pieces others : List (Nat × Nat)) :
    piecesSize (pieces ++ others) = piecesSize pieces + piecesSize others := by
  induction pieces with
  | nil => rw [List.nil_append, piecesSize, Nat.zero_add]
  | cons piece rest ih => rw [List.cons_append, piecesSize, piecesSize, ih, Nat.add_assoc]

theorem ByteBuffer.emittedPieces_append (pieces others : List (Nat × Nat)) :
    buffer.emittedPieces (pieces ++ others) =
      (buffer.emittedPieces pieces).emittedPieces others := by
  induction pieces generalizing buffer with
  | nil => rfl
  | cons piece rest ih => exact ih

theorem ByteBuffer.emitted_low (bits count : Nat) :
    buffer.emitted (bits % 256 ^ count) count = buffer.emitted bits count := by
  rw [emitted, emitted, storeWord_low]

/-- One number more, where there is room for it. -/
theorem emitInteger_next (valid : buffer.Valid) {pieces : List (Nat × Nat)} {bits count : Nat}
    (few : count ≤ 8)
    (room : buffer.length + (piecesSize pieces + count) ≤ buffer.capacity) :
    emitInteger (buffer.emittedPieces pieces) bits count =
      (true, buffer.emittedPieces (pieces ++ [(bits, count)])) := by
  have before : (buffer.emittedPieces pieces).Valid := valid.emittedPieces (by omega)
  rw [emitInteger_eq before few, emittedPieces_length, emittedPieces_capacity, if_pos (by omega),
    ByteBuffer.emittedPieces_append]
  rfl

/-- One byte more, where there is room for it. -/
theorem emitByte_next (valid : buffer.Valid) {pieces : List (Nat × Nat)} {byte : UInt8}
    (room : buffer.length + (piecesSize pieces + 1) ≤ buffer.capacity) :
    emitByte (buffer.emittedPieces pieces) byte =
      (true, buffer.emittedPieces (pieces ++ [(byte.toNat, 1)])) := by
  have before : (buffer.emittedPieces pieces).Valid := valid.emittedPieces (by omega)
  rw [emitByte_eq before, emittedPieces_length, emittedPieces_capacity, if_pos (by omega),
    ByteBuffer.emittedPieces_append]
  rfl

/-- A number of which only the low bytes are emitted. -/
theorem emitInteger_next_low (valid : buffer.Valid) {pieces : List (Nat × Nat)} {bits low count : Nat}
    (few : count ≤ 8) (same : bits % 256 ^ count = low)
    (room : buffer.length + (piecesSize pieces + count) ≤ buffer.capacity) :
    emitInteger (buffer.emittedPieces pieces) bits count =
      (true, buffer.emittedPieces (pieces ++ [(low, count)])) := by
  rw [emitInteger_next valid few room, ByteBuffer.emittedPieces_append,
    ByteBuffer.emittedPieces_append, ← same]
  exact congrArg (Prod.mk true) (ByteBuffer.emitted_low bits count).symm

end Emission

end Native
