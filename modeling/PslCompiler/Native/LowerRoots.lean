import PslCompiler.Buffers.Expansion
import PslCompiler.Native.Execution

/-! # Root frames of native LIR

`native_lower_roots` adds the operations of a root frame to an instruction list in place. The
capacity of the list is checked first; then the list is rewritten from its end, and last of all its
entry. The scratch cursors of the context are arguments here.
-/

namespace Native

/-- What root lowering reads of the compilation context besides the verifiers' part. -/
structure RootContext extends CompileContext where
  signatureCount : Nat
  /-- `native_runtime_target_supported_p`. -/
  runtimeTargetSupportedP : Bool

/-- `native_runtime_function_index` from the first signature on. -/
def nativeRuntimeFunctionIndex (context : RootContext) (id : Nat) : Nat :=
  if context.runtimeTargetSupportedP then
    (((List.range context.signatureCount).find? fun index =>
      (context.signatureAt index).runtimeId == id).map (· + 1)).getD 0
  else 0

def nativeRootCopyInstruction (instructions : Nat → LirInstruction) (source target : Nat) :
    Nat → LirInstruction :=
  Function.update instructions target (instructions source)

/-- A root operation, with no fields but its target. -/
def rootControl (kind : Kind) (target : Nat) : LirInstruction := { kind := kind, target := target }

def nativeRootWriteControl (instructions : Nat → LirInstruction) (index : Nat) (kind : Kind)
    (target : Nat) : Nat → LirInstruction :=
  Function.update instructions index (rootControl kind target)

def nativeRootExtraInstructions (arena : LirArena) : Nat :=
  2 + (List.range' 1 arena.count).countP fun index =>
    (arena.instructions index).kind == .call || (arena.instructions index).kind == .ret

def nativeRootExpandEntry (instructions : Nat → LirInstruction) (push : Nat) :
    Nat → LirInstruction :=
  nativeRootWriteControl (nativeRootWriteControl (nativeRootCopyInstruction instructions 1 1)
    2 .rootsInit 0) 3 .rootsEnter push

/-- Move one instruction from the first cursor to the second, with its root operation. -/
def nativeRootExpandInstruction (pop source target : Nat) (instructions : Nat → LirInstruction) :
    Nat × (Nat → LirInstruction) :=
  let kind := (instructions source).kind
  let moved := nativeRootCopyInstruction instructions source target
  if kind = .call ∨ kind = .ret then
    (target - 2, nativeRootWriteControl moved (target - 1)
      (if kind = .call then .rootsSync else .rootsLeave) (if kind = .call then 0 else pop))
  else (target - 1, moved)

/-- The loop of `native_root_expand_function`, which ends when the first cursor is at the entry;
`remaining` instructions stand after the entry. -/
def nativeRootExpandLoop (pop : Nat) :
    Nat → Nat → (Nat → LirInstruction) → Nat × (Nat → LirInstruction)
  | 0, target, instructions => (target, instructions)
  | remaining + 1, target, instructions =>
      let step := nativeRootExpandInstruction pop (1 + (remaining + 1)) target instructions
      nativeRootExpandLoop pop remaining step.1 step.2

def nativeRootExpandFunction (arena : LirArena) (roots total push pop : Nat) : Bool × LirArena :=
  let expanded := nativeRootExpandLoop pop (arena.count - 1) total arena.instructions
  if expanded.1 = 3 then
    (true, { arena with
      instructions := nativeRootExpandEntry expanded.2 push
      count := total
      rootCount := roots })
  else (false, { arena with instructions := expanded.2 })

def nativeRootLowerWithCapacity (arena : LirArena) (roots push pop : Nat) : Bool × LirArena :=
  let extra := nativeRootExtraInstructions arena
  if arena.capacity - arena.count < extra then (false, arena)
  else nativeRootExpandFunction arena roots (arena.count + extra) push pop

def nativeRootInputP (context : CompileContext) (arena : LirArena) : Bool :=
  irReferenceP arena.valueCount arena.valueCapacity && irReferenceP arena.count arena.capacity &&
    arena.entryP && nativeRootParametersP context && lirVerifyFunctionBody context arena &&
    nativeRootVerifyEmpty arena

/-- The result, and the list afterwards. -/
def nativeLowerRoots (context : RootContext) (arena : LirArena) : Bool × LirArena :=
  if 0 < arena.rootCount then (lirVerifyFunction context.toCompileContext arena, arena)
  else if nativeRootInputP context.toCompileContext arena = false then (false, arena)
  else
    let roots := nativeRootRequiredCount context.toCompileContext arena
    if roots = 0 then (true, arena)
    else
      let push := nativeRuntimeFunctionIndex context 7
      let pop := nativeRuntimeFunctionIndex context 8
      if nativeRootTargetP context.toCompileContext push 7 = false then (false, arena)
      else if nativeRootTargetP context.toCompileContext pop 8 = false then (false, arena)
      else nativeRootLowerWithCapacity arena roots push pop

end Native
