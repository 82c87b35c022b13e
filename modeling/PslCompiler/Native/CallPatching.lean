import PslCompiler.Buffers.Patching
import PslCompiler.Native.StartupPlacement

/-! # Patching calls

Calls are encoded before the functions have their places. When all functions are placed, each back
end writes the distances into the calls of defined functions; calls of imported functions stay as
they are, for the linker.
-/

namespace Native

open Machines

/-! ## Buffers -/

/-- `byte_buffer`: its bytes, of which the first are in use. -/
structure ByteBuffer where
  data : Memory
  length : Nat
  capacity : Nat

def patchIntegerSteps (data : Memory) (address bits : Nat) : Nat → Memory
  | 0 => data
  | remaining + 1 =>
      patchIntegerSteps (Function.update data address (UInt8.ofNat bits)) (address + 1) (bits / 2 ^ 8)
        remaining

/-- Write four bytes. A signed number of 32 bits is given by these. -/
def patchI32 (code : ByteBuffer) (offset value : Nat) : Bool × ByteBuffer :=
  if code.length < offset then (false, code)
  else if wrapSub code.length offset < 4 then (false, code)
  else (true, { code with data := patchIntegerSteps code.data offset value 4 })

def readU32Le (data : Memory) (address : Nat) : Nat :=
  wrapAdd (data address).toNat
    (wrapAdd ((data (address + 1)).toNat * 256 % wordLimit)
      (wrapAdd ((data (address + 2)).toNat * 65536 % wordLimit)
        ((data (address + 3)).toNat * 0x1000000 % wordLimit)))

/-- `native_fixup_arena`, with its capacity and its error mark. -/
structure CallArena extends FixupArena where
  capacity : Nat
  error : Nat := 0

/-- The low 32 bits of a word, as `wrap-cast` makes a signed number of it. -/
def castS32 (value : Nat) : Nat :=
  value % 2 ^ 32

def shr64 (value count : Nat) : Nat :=
  value / 2 ^ (count % 64)

def wrapMul (left right : Nat) : Nat :=
  left * right % wordLimit

/-! ## Targets -/

def nativeTargetArchitecture (target : Nat) : Nat :=
  if target = 1 then 2 else if target = 2 ∨ target = 5 then 3 else 1

/-- One fixup after the other, until one is refused. -/
def patchFrom (patchAt : ByteBuffer → Nat → Bool × ByteBuffer) : Nat → Nat → ByteBuffer → Bool × ByteBuffer
  | 0, _, code => (true, code)
  | remaining + 1, index, code =>
      let patched := patchAt code index
      if patched.1 then patchFrom patchAt remaining (wrapAdd index 1) patched.2
      else (false, patched.2)

/-! ## x86-64 -/

def patchDefinedCall (code : ByteBuffer) (function : NativeFunction) (instruction : Nat) :
    Bool × ByteBuffer :=
  let destination := function.offset
  if code.length < destination then (false, code)
  else
    patchI32 code (wrapAdd instruction 1)
      (castS32 (wrapSub destination (wrapAdd instruction 5)))

def patchCallAt (functions : Nat → NativeFunction) (count : Nat) (fixups : CallArena)
    (code : ByteBuffer) (index : Nat) : Bool × ByteBuffer :=
  let entry := fixups.items index
  if entry.target = 0 then (false, code)
  else if count < entry.target then (false, code)
  else if code.length < 5 then (false, code)
  else if wrapSub code.length 5 < entry.instruction then (false, code)
  else
    let function := functions (wrapSub entry.target 1)
    if function.imported = 1 then (true, code) else patchDefinedCall code function entry.instruction

def patchCallFixups (code : ByteBuffer) (functions : Nat → NativeFunction) (count : Nat)
    (fixups : CallArena) : Bool × ByteBuffer :=
  if fixups.error = 0 then patchFrom (patchCallAt functions count fixups) fixups.count 0 code
  else (false, code)

/-! ## AArch64 -/

def a64BranchDeltaP (position destination bits : Nat) : Bool :=
  if position &&& 3 = 0 then
    if destination &&& 3 = 0 then
      let limit := if bits = 26 then 134217728 else 1048576
      if destination < position then
        if limit < wrapSub position destination then false else true
      else if wrapSub destination position < limit then true else false
    else false
  else false

def a64PatchBranch (code : ByteBuffer) (position destination base bits : Nat) : Bool × ByteBuffer :=
  if a64BranchDeltaP position destination bits = false then (false, code)
  else
    let mask := if bits = 26 then 0x3ffffff else 0x7ffff
    let delta := shr64 (wrapSub destination position) 2 &&& mask
    patchI32 code position (castS32 (wrapAdd base (if bits = 26 then delta else wrapMul delta 32)))

def a64PatchCallAt (functions : Nat → NativeFunction) (count : Nat) (fixups : CallArena)
    (code : ByteBuffer) (index : Nat) : Bool × ByteBuffer :=
  let entry := fixups.items index
  let position := entry.instruction
  if entry.target = 0 then (false, code)
  else if count < entry.target then (false, code)
  else if code.length < 4 then (false, code)
  else if wrapSub code.length 4 < position then (false, code)
  else if position &&& 3 = 0 then
    if readU32Le code.data position = 0x94000000 then
      let function := functions (wrapSub entry.target 1)
      if function.imported = 1 then (true, code)
      else if wrapSub code.length 4 < function.offset then (false, code)
      else a64PatchBranch code position function.offset 0x94000000 26
    else (false, code)
  else (false, code)

def a64PatchCalls (code : ByteBuffer) (functions : Nat → NativeFunction) (count : Nat)
    (fixups : CallArena) : Bool × ByteBuffer :=
  if fixups.error = 0 then
    if fixups.capacity < fixups.count then (false, code)
    else patchFrom (a64PatchCallAt functions count fixups) fixups.count 0 code
  else (false, code)

/-! ## RISC-V -/

def rvPairDeltaP (position destination : Nat) : Bool :=
  if position &&& 3 = 0 then
    if destination &&& 3 = 0 then
      if destination < position then
        if 2147483648 < wrapSub position destination then false else true
      else if 2147481599 < wrapSub destination position then false else true
    else false
  else false

def rvIWord (opcode destination source funct3 immediate : Nat) : Nat :=
  wrapAdd opcode (wrapAdd (wrapMul destination 128) (wrapAdd (wrapMul funct3 4096)
    (wrapAdd (wrapMul source 32768) (wrapMul (immediate &&& 4095) 1048576))))

def rvPatchPair (code : ByteBuffer) (position destination register result : Nat) :
    Bool × ByteBuffer :=
  if rvPairDeltaP position destination = false then (false, code)
  else
    let delta := wrapSub destination position
    let upper := patchI32 code position
      (castS32 (wrapAdd 0x17 (wrapAdd (wrapMul register 128) (wrapAdd delta 2048 &&& 0xfffff000))))
    if upper.1 = false then upper
    else
      patchI32 upper.2 (wrapAdd position 4) (castS32 (rvIWord 0x67 result register 0 delta))

def rvCallPlaceholderP (code : ByteBuffer) (position : Nat) : Bool :=
  if readU32Le code.data position = 0x97 then
    if readU32Le code.data (position + 4) = 0x80e7 then true else false
  else false

def rvPatchCallAt (functions : Nat → NativeFunction) (count : Nat) (fixups : CallArena)
    (code : ByteBuffer) (index : Nat) : Bool × ByteBuffer :=
  let entry := fixups.items index
  let position := entry.instruction
  if entry.target = 0 then (false, code)
  else if count < entry.target then (false, code)
  else if code.length < 8 then (false, code)
  else if wrapSub code.length 8 < position then (false, code)
  else if position &&& 3 = 0 then
    if rvCallPlaceholderP code position = false then (false, code)
    else
      let function := functions (wrapSub entry.target 1)
      if function.imported = 1 then (true, code)
      else if wrapSub code.length 4 < function.offset then (false, code)
      else rvPatchPair code position function.offset 1 1
  else (false, code)

def rvPatchCalls (code : ByteBuffer) (functions : Nat → NativeFunction) (count : Nat)
    (fixups : CallArena) : Bool × ByteBuffer :=
  if fixups.error = 0 then
    if fixups.capacity < fixups.count then (false, code)
    else patchFrom (rvPatchCallAt functions count fixups) fixups.count 0 code
  else (false, code)

/-! ## Dispatch -/

def nativePatchUnitCalls (target : Nat) (code : ByteBuffer) (functions : Nat → NativeFunction)
    (count : Nat) (fixups : CallArena) : Bool × ByteBuffer :=
  if nativeTargetArchitecture target = 1 then patchCallFixups code functions count fixups
  else if nativeTargetArchitecture target = 2 then a64PatchCalls code functions count fixups
  else if nativeTargetArchitecture target = 3 then rvPatchCalls code functions count fixups
  else (false, code)

end Native
