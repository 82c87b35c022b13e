import PslCompiler.Native.CodeEmission

/-! # Addresses of functions in code

A sequence of instructions leaves the address of a function in the working register. It is encoded
before the functions have their places, and its distance is written when they have them: all recorded
sequences are checked first, and then all are patched. A buffer, an arena and a table are always
given; the tests for null pointers are left out.
-/

namespace Native

open Machines

/-! ## Functions that are defined -/

/-- None of the functions from an index on is imported, for some of them. -/
def nativeFunctionDefinedTargetFrom (functions : Nat → NativeFunction) : Nat → Nat → Bool
  | 0, _ => true
  | remaining + 1, index =>
      if (functions index).imported = 1 then false
      else nativeFunctionDefinedTargetFrom functions remaining (wrapAdd index 1)

/-- Whether a one-based reference is to a defined function that no imported one precedes. -/
def nativeFunctionDefinedTargetP (functions : Nat → NativeFunction) (count target : Nat) : Bool :=
  if target = 0 then false
  else if count < target then false
  else if (functions (wrapSub target 1)).imported = 1 then false
  else nativeFunctionDefinedTargetFrom functions (wrapSub target 1) 0

/-! ## x86-64 -/

def x86EncodeFunctionAddress (code : ByteBuffer) : Bool × ByteBuffer :=
  let opcode := emitInteger code 0x058d48 3
  if opcode.1 = false then opcode else emitInteger opcode.2 0 4

def x86FunctionAddressShapeP (code : ByteBuffer) (offset : Nat) : Bool :=
  if readU32Le code.data offset &&& 0xffffff = 0x058d48 then true else false

def x86FunctionAddressRangeP (destination anchor : Nat) : Bool :=
  let next := wrapAdd anchor 7
  if destination < next then if 2147483648 < wrapSub next destination then false else true
  else if 2147483647 < wrapSub destination next then false else true

def x86PatchFunctionAddress (code : ByteBuffer) (anchor destination : Nat) : Bool × ByteBuffer :=
  patchI32 code (wrapAdd anchor 3) (castS32 (wrapSub destination (wrapAdd anchor 7)))

/-! ## AArch64 -/

def a64Word (code : ByteBuffer) (bits : Nat) : Bool × ByteBuffer :=
  emitInteger code bits 4

def a64FunctionDeltaBase (half : Nat) : Nat :=
  if half = 0 then 0xd280000a else wrapAdd 0xf280000a (wrapMul half 0x200000)

/-- The remaining instructions for the halves of a distance, and the addition of it. -/
def a64EncodeFunctionDelta : Nat → ByteBuffer → Nat → Bool × ByteBuffer
  | 0, code, _ => a64Word code 0x8b0a0129
  | remaining + 1, code, half =>
      let word := a64Word code (a64FunctionDeltaBase half)
      if word.1 = false then word else a64EncodeFunctionDelta remaining word.2 (wrapAdd half 1)

def a64EncodeFunctionAddress (code : ByteBuffer) : Bool × ByteBuffer :=
  let word := a64Word code 0x10000009
  if word.1 = false then word else a64EncodeFunctionDelta 4 word.2 0

def a64FunctionDeltaShapeP (code : ByteBuffer) (anchor : Nat) : Nat → Nat → Bool
  | 0, _ => true
  | remaining + 1, half =>
      if readU32Le code.data (wrapAdd anchor (wrapMul (wrapAdd half 1) 4)) &&& 0xffe0001f =
          a64FunctionDeltaBase half then
        a64FunctionDeltaShapeP code anchor remaining (wrapAdd half 1)
      else false

def a64FunctionAddressShapeP (code : ByteBuffer) (anchor : Nat) : Bool :=
  if readU32Le code.data anchor = 0x10000009 then
    if readU32Le code.data (wrapAdd anchor 20) = 0x8b0a0129 then
      a64FunctionDeltaShapeP code anchor 4 0
    else false
  else false

def a64PatchFunctionDelta (anchor delta : Nat) : Nat → ByteBuffer → Nat → Bool × ByteBuffer
  | 0, code, _ => (true, code)
  | remaining + 1, code, half =>
      let piece := shr64 delta (wrapMul half 16) &&& 65535
      let patched := patchI32 code (wrapAdd anchor (wrapMul (wrapAdd half 1) 4))
        (castS32 (wrapAdd (a64FunctionDeltaBase half) (wrapMul piece 32)))
      if patched.1 = false then patched
      else a64PatchFunctionDelta anchor delta remaining patched.2 (wrapAdd half 1)

def a64PatchFunctionAddress (code : ByteBuffer) (anchor destination : Nat) : Bool × ByteBuffer :=
  a64PatchFunctionDelta anchor (wrapSub destination anchor) 4 code 0

/-! ## RISC-V -/

def rvWord (code : ByteBuffer) (bits : Nat) : Bool × ByteBuffer :=
  emitInteger code bits 4

def rvEncodeFunctionAddress (code : ByteBuffer) : Bool × ByteBuffer :=
  let upper := rvWord code 0x297
  if upper.1 = false then upper else rvWord upper.2 0x28293

def rvFunctionAddressShapeP (code : ByteBuffer) (anchor : Nat) : Bool :=
  if readU32Le code.data anchor &&& 0xfff = 0x297 then
    if readU32Le code.data (wrapAdd anchor 4) &&& 0xfffff = 0x28293 then true else false
  else false

/-- Rounding the high twenty bits removes the last 2 KiB of the reach ahead. -/
def rvFunctionAddressRangeP (destination anchor : Nat) : Bool :=
  if destination < anchor then
    if 2147483648 < wrapSub anchor destination then false else true
  else if 2147481599 < wrapSub destination anchor then false else true

def rvPatchFunctionAddress (code : ByteBuffer) (anchor destination : Nat) : Bool × ByteBuffer :=
  let delta := wrapSub destination anchor
  let high := wrapAdd delta 2048 &&& 0xfffff000
  let upper := patchI32 code anchor (castS32 (wrapAdd high 0x297))
  if upper.1 = false then upper
  else patchI32 upper.2 (wrapAdd anchor 4) (castS32 (rvIWord 0x13 5 5 0 delta))

/-! ## Recording -/

def nativeTargetValidP (target : Nat) : Bool :=
  if target < 6 then true else false

def nativeFunctionAddressSize (target : Nat) : Nat :=
  if nativeTargetArchitecture target = 1 then 7
  else if nativeTargetArchitecture target = 2 then 24
  else if nativeTargetArchitecture target = 3 then 8
  else 0

def nativeFunctionAddressBufferP (code : ByteBuffer) : Bool :=
  if code.capacity < code.length then false else true

def nativeFunctionAddressArenaP (addresses : CallArena) : Bool :=
  if addresses.capacity < addresses.count then false
  else if 0 < addresses.error then false else true

def recordCallFixup (arena : CallArena) (instruction target : Nat) : Bool × CallArena :=
  if arena.count < arena.capacity then
    (true, { arena with
      items := Function.update arena.items arena.count { instruction, target }
      count := wrapAdd arena.count 1 })
  else (false, { arena with error := 1 })

def nativeEncodeFunctionAddress (target : Nat) (code : ByteBuffer) (addresses : CallArena)
    (function : Nat) : Bool × ByteBuffer × CallArena :=
  if nativeTargetValidP target = false then (false, code, addresses)
  else if function = 0 then (false, code, addresses)
  else if nativeFunctionAddressBufferP code = false then (false, code, addresses)
  else if nativeFunctionAddressArenaP addresses = false then (false, code, addresses)
  else if addresses.count = addresses.capacity then (false, code, addresses)
  else if roomFor code (nativeFunctionAddressSize target) = false then (false, code, addresses)
  else
    let anchor := code.length
    let encoded :=
      if nativeTargetArchitecture target = 1 then x86EncodeFunctionAddress code
      else if nativeTargetArchitecture target = 2 then a64EncodeFunctionAddress code
      else rvEncodeFunctionAddress code
    if encoded.1 = false then (false, encoded.2, addresses)
    else
      let recorded := recordCallFixup addresses anchor function
      (recorded.1, encoded.2, recorded.2)

/-! ## Checking and patching -/

def nativeFunctionAddressEntryP (target : Nat) (code : ByteBuffer)
    (functions : Nat → NativeFunction) (count : Nat) (entry : CallFixup) : Bool :=
  let reference := entry.target
  let anchor := entry.instruction
  let length := code.length
  if reference = 0 ∨ count < reference then false
  else if length < anchor then false
  else if wrapSub length anchor < nativeFunctionAddressSize target then false
  else
    let function := functions (wrapSub reference 1)
    let destination := function.offset
    let size := function.size
    if nativeFunctionDefinedTargetP functions count reference then
      if size = 0 ∨ length < destination then false
      else if wrapSub length destination < size then false
      else if nativeTargetArchitecture target = 1 then
        if x86FunctionAddressShapeP code anchor = false then false
        else x86FunctionAddressRangeP destination anchor
      else if nativeTargetArchitecture target = 2 then a64FunctionAddressShapeP code anchor
      else if rvFunctionAddressShapeP code anchor = false then false
      else rvFunctionAddressRangeP destination anchor
    else false

def nativeFunctionAddressesValidP (target : Nat) (code : ByteBuffer)
    (functions : Nat → NativeFunction) (count : Nat) (addresses : CallArena) : Nat → Nat → Bool
  | 0, _ => true
  | remaining + 1, index =>
      if nativeFunctionAddressEntryP target code functions count (addresses.items index) = false then
        false
      else
        nativeFunctionAddressesValidP target code functions count addresses remaining
          (wrapAdd index 1)

def nativePatchFunctionAddressAt (target : Nat) (functions : Nat → NativeFunction)
    (addresses : CallArena) (code : ByteBuffer) (index : Nat) : Bool × ByteBuffer :=
  let entry := addresses.items index
  let anchor := entry.instruction
  let destination := (functions (wrapSub entry.target 1)).offset
  if nativeTargetArchitecture target = 1 then x86PatchFunctionAddress code anchor destination
  else if nativeTargetArchitecture target = 2 then a64PatchFunctionAddress code anchor destination
  else rvPatchFunctionAddress code anchor destination

def nativePatchFunctionAddresses (target : Nat) (code : ByteBuffer)
    (functions : Nat → NativeFunction) (count : Nat) (addresses : CallArena) : Bool × ByteBuffer :=
  if nativeTargetValidP target = false then (false, code)
  else if nativeFunctionAddressBufferP code = false then (false, code)
  else if nativeFunctionAddressArenaP addresses = false then (false, code)
  else if addresses.count = 0 then (true, code)
  else if nativeFunctionAddressesValidP target code functions count addresses addresses.count 0 =
      false then
    (false, code)
  else patchFrom (nativePatchFunctionAddressAt target functions addresses) addresses.count 0 code

end Native
