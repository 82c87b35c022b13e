import PslCompiler.Native.CodeEmission

/-! # Frames of Windows

The entry of a function for Windows pushes the frame pointer, touches the pages of a large frame,
lowers the stack pointer and takes it as the frame pointer; then the incoming registers are saved. The
unwind data describe these instructions to the system. Results of an emission that the source does not
look at are dropped.
-/

namespace Native

/-! ## Accesses to the frame -/

def win64FrameAccess (code : ByteBuffer) (opcode offset : Nat) : Bool × ByteBuffer :=
  if 2147483647 < offset then (false, code)
  else if roomFor code 7 = false then (false, code)
  else emitInteger (emitInteger code opcode 3).2 offset 4

def win64SaveParameters (code : ByteBuffer) (outgoing : Nat) : Bool × ByteBuffer :=
  let first := win64FrameAccess code 0x8d8948 outgoing
  if first.1 = false then first
  else
    let second := win64FrameAccess first.2 0x958948 (wrapAdd outgoing 8)
    if second.1 = false then second
    else
      let third := win64FrameAccess second.2 0x85894c (wrapAdd outgoing 16)
      if third.1 = false then third
      else win64FrameAccess third.2 0x8d894c (wrapAdd outgoing 24)

/-! ## The entry of a function -/

def win64ProbeLoop (code : ByteBuffer) (loopStart : Nat) : Bool × ByteBuffer :=
  let lowered := (emitInteger code 0x00001000ea8149 7).2
  let tested := (emitInteger lowered 0x0002f641 4).2
  let counted := (emitInteger tested 0x00001000eb8149 7).2
  let jump := (emitByte counted 0xe9).2
  emitInteger jump (wrapSub loopStart (wrapAdd jump.length 4)) 4

def win64ProbePages (code : ByteBuffer) (frame : Nat) : Bool × ByteBuffer :=
  if frame < 4096 then (true, code)
  else if roomFor code 56 = false then (false, code)
  else
    let copied := (emitInteger code 0xe28949 3).2
    let loaded := (emitInteger (emitInteger copied 0xbb49 2).2 frame 8).2
    let loopStart := loaded.length
    let compared := (emitInteger loaded 0x00001000fb8149 7).2
    let left := (emitInteger (emitInteger compared 0x820f 2).2 23 4).2
    let looped := (win64ProbeLoop left loopStart).2
    let rest := (emitInteger looped 0xda294d 3).2
    emitInteger rest 0x0002f641 4

/-- The size of the entry that the unwind data describe; it is 0 where nothing is emitted. -/
def win64FunctionPrologue (code : ByteBuffer) (frame outgoing : Nat) : Nat × ByteBuffer :=
  if frame = 0 then (0, code)
  else if frame < outgoing then (0, code)
  else if 2147483584 < frame then (0, code)
  else if frame &&& 15 = 0 then
    if roomFor code (if frame < 4096 then 39 else 95) = false then (0, code)
    else
      let pushed := (emitByte code 0x55).2
      let probed := (win64ProbePages pushed frame).2
      let lowered := (emitInteger (emitInteger probed 0xec8148 3).2 frame 4).2
      let framed := (emitInteger lowered 0xe58948 3).2
      (if frame < 4096 then 11 else 67, (win64SaveParameters framed outgoing).2)
  else (0, code)

/-! ## Unwind data -/

def win64UnwindSlots (frame : Nat) : Nat :=
  if 524280 < frame then 5 else if 128 < frame then 4 else 3

def win64UnwindBytes (frame : Nat) : Nat :=
  wrapAdd 4 (wrapMul 2 (wrapAdd (win64UnwindSlots frame) 1 &&& wrapSub 0 2))

def win64UnwindAllocation (output : ByteBuffer) (frame offset : Nat) : Bool × ByteBuffer :=
  let placed := (emitByte output (UInt8.ofNat offset)).2
  if 524280 < frame then emitInteger (emitByte placed 0x11).2 frame 4
  else if 128 < frame then emitInteger (emitByte placed 1).2 (shr64 frame 3) 2
  else emitByte placed (UInt8.ofNat (wrapAdd 2 (wrapMul (wrapSub (shr64 frame 3) 1) 16)))

def win64WriteUnwind (output : ByteBuffer) (frame prologue : Nat) : Bool × ByteBuffer :=
  if frame = 0 then (false, output)
  else if 2147483584 < frame then (false, output)
  else if frame &&& 15 = 0 then
    if prologue = (if frame < 4096 then 11 else 67) then
      if roomFor output (win64UnwindBytes frame) = false then (false, output)
      else
        let version := (emitByte output 1).2
        let length := (emitByte version (UInt8.ofNat prologue)).2
        let slots := (emitByte length (UInt8.ofNat (win64UnwindSlots frame))).2
        let register := (emitByte slots 5).2
        let set := (emitByte (emitByte register (UInt8.ofNat prologue)).2 3).2
        let allocated := (win64UnwindAllocation set frame (wrapSub prologue 3)).2
        let pushed := (emitInteger allocated 0x5001 2).2
        if win64UnwindSlots frame &&& 1 = 1 then emitInteger pushed 0 2 else (true, pushed)
    else (false, output)
  else (false, output)

/-! ## Validation -/

def coffFrameShapeP (frame prologue : Nat) : Bool :=
  if frame = 0 then false
  else if 2147483584 < frame then false
  else if frame &&& 15 = 0 then
    if prologue = (if frame < 4096 then 11 else 67) then true else false
  else false

def coffPrologueBytesP (code : Machines.Memory) (start frame prologue : Nat) : Bool :=
  let allocation := wrapAdd start (wrapSub prologue 10)
  if (code start).toNat = 0x55 then
    if readU32Le code allocation &&& 0xffffff = 0xec8148 then
      if readU32Le code (allocation + 3) = frame then
        if readU32Le code (allocation + 7) &&& 0xffffff = 0xe58948 then true else false
      else false
    else false
  else false

def coffEncodedPrologueP (code : Machines.Memory) (function : NativeFunction) : Bool :=
  if coffFrameShapeP function.frameSize function.prologueSize = false then false
  else coffPrologueBytesP code function.offset function.frameSize function.prologueSize

end Native
