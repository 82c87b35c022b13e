import Mathlib.Data.Finset.Basic
import Mathlib.Logic.Function.Basic
import PslCompiler.Native.VerifySsa

/-! # The native LIR verifier

The checks of `lir_verify_function`. The block table, which the verifier builds from the labels of
the instruction list, is passed along as a function; a search through the blocks carries the set of
visited blocks and a bound on its depth.
-/

namespace Native

/-! ## Roots -/

namespace Kind

def rootKindP : Kind → Bool
  | rootsInit | rootsEnter | rootsSync | rootsLeave => true
  | _ => false

def terminalKindP : Kind → Bool
  | jump | branch | ret => true
  | _ => false

end Kind

section Roots

variable (context : CompileContext) (arena : LirArena)

def nativeRootParametersP : Bool :=
  let first := context.currentSignature.firstParameter
  let arity := context.currentSignature.arity
  context.signaturesError == 0 && !decide (context.parameterCapacity < context.parameterCount) &&
    !decide (context.parameterCount < first) &&
    !decide (context.parameterCount - first < arity) && context.currentArity == arity

def nativeRootValueP (type : IrType) : Bool := type.scalarCode == 15 && type.kind != .argumentLink

def nativeRootValueCount : Nat :=
  (List.range' 1 arena.valueCount).countP fun reference => nativeRootValueP (arena.types reference)

def nativeRootParameterCount : Nat :=
  (List.range context.currentArity).countP fun index =>
    context.currentSignature.parameterCode index == 15

def nativeRootCollectingCallP : Bool :=
  (List.range' 1 arena.count).any fun index =>
    (arena.instructions index).kind == .call &&
      !context.callAllocationFreeP (arena.instructions index).target

def nativeRootRequiredCount : Nat :=
  if nativeRootCollectingCallP context arena then
    nativeRootValueCount arena + nativeRootParameterCount context
  else 0

def nativeRootTargetP (target id : Nat) : Bool :=
  let signature := context.signatureAt (target - 1)
  irReferenceP target context.priorCount && signature.runtimeId == id &&
    context.runtimeSignatureP signature

def nativeRootControlTargetP (op : LirInstruction) : Bool :=
  match op.kind with
  | .rootsEnter => nativeRootTargetP context op.target 7
  | .rootsLeave => nativeRootTargetP context op.target 8
  | _ => op.target == 0

def nativeRootControlShapeP (op : LirInstruction) : Bool :=
  op.destination == 0 && op.scalarCode == 0 && op.pointee == 0 && op.source == 0 && op.value == 0 &&
    op.left == 0 && op.right == 0 && nativeRootControlTargetP context op

def nativeRootPreviousKindP (index : Nat) (kind : Kind) : Bool :=
  decide (1 < index) && (arena.instructions (index - 1)).kind == kind

def nativeRootNextKindP (index : Nat) (kind : Kind) : Bool :=
  decide (index < arena.count) && (arena.instructions (index + 1)).kind == kind

def nativeRootInstructionLifetimeP (index : Nat) : Bool :=
  let op := arena.instructions index
  if index = 2 then op.kind == .rootsInit
  else if index = 3 then op.kind == .rootsEnter
  else
    match op.kind with
    | .rootsInit | .rootsEnter => false
    | .call => nativeRootPreviousKindP arena index .rootsSync
    | .ret => nativeRootPreviousKindP arena index .rootsLeave
    | .rootsSync => nativeRootNextKindP arena index .call
    | .rootsLeave => nativeRootNextKindP arena index .ret
    | .jump => op.target != 1
    | .branch => op.target != 1 && op.right != 1
    | _ => true

def nativeRootVerifyLifetime : Bool :=
  checkUpTo arena.count (nativeRootInstructionLifetimeP arena)

def nativeRootVerifyEmpty : Bool :=
  checkUpTo arena.count fun index => !(arena.instructions index).kind.rootKindP

def nativeVerifyRootCatalogue : Bool :=
  let required := nativeRootRequiredCount context arena
  arena.rootCount == required &&
    if required = 0 then nativeRootVerifyEmpty arena
    else context.profile == 1 && !decide (arena.count < 4) && nativeRootVerifyLifetime arena

def nativeVerifyRoots : Bool :=
  nativeRootParametersP context && nativeVerifyRootCatalogue context arena

end Roots

/-! ## Blocks of the instruction list -/

namespace LirArena

/-- `lir_scan_blocks` over the remaining instructions, from a table of blocks. -/
def scanBlocks (arena : LirArena) :
    Nat → Nat → Nat → (Nat → LirBlock) → Option (Nat → LirBlock)
  | 0, _, previous, blocks =>
      if previous = 0 then none
      else some (Function.update blocks previous { blocks previous with last := arena.count })
  | remaining + 1, instruction, previous, blocks =>
      let op := arena.instructions instruction
      if op.kind = .label then
        if irReferenceP op.target arena.labelCount then
          if (blocks op.target).first = 0 then
            let opened := Function.update blocks op.target
              { blocks op.target with first := instruction + 1 }
            let closed :=
              if previous = 0 then opened
              else Function.update opened previous { opened previous with last := instruction - 1 }
            arena.scanBlocks remaining (instruction + 1) op.target closed
          else none
        else none
      else if previous = 0 then none
      else arena.scanBlocks remaining (instruction + 1) previous blocks

/-- A block ends in its only jump, branch or return. -/
def verifyBlockRange (arena : LirArena) (first last : Nat) : Bool :=
  irReferenceP last arena.count && !decide (last < first) &&
    (List.range' first (last - first)).all (fun index =>
      !(arena.instructions index).kind.terminalKindP) &&
    (arena.instructions last).kind.terminalKindP

def verifyRanges (arena : LirArena) (blocks : Nat → LirBlock) : Bool :=
  checkUpTo arena.labelCount fun index =>
    (blocks index).first != 0 && arena.verifyBlockRange (blocks index).first (blocks index).last

def blockDefinesP (arena : LirArena) (value first last : Nat) : Bool :=
  (List.range' first (last + 1 - first)).any fun index =>
    (arena.instructions index).destination == value

/-- `lir_reaches_without_definition`, with `lir_search_successors`. -/
def reachesWithoutDefinition (arena : LirArena) (blocks : Nat → LirBlock) (target value : Nat) :
    Nat → Nat → Finset Nat → Bool × Finset Nat
  | 0, _, visited => (false, visited)
  | depth + 1, current, visited =>
      if current = 0 then (false, visited)
      else if current = target then (true, visited)
      else if current ∈ visited then (false, visited)
      else if value ≠ 0 ∧
          arena.blockDefinesP value (blocks current).first (blocks current).last = true then
        (false, visited)
      else
        let op := arena.instructions (blocks current).last
        if op.kind = .ret then (false, insert current visited)
        else
          let first := reachesWithoutDefinition arena blocks target value depth op.target
            (insert current visited)
          if first.1 then (true, first.2)
          else if op.kind = .branch then
            reachesWithoutDefinition arena blocks target value depth op.right first.2
          else (false, first.2)

/-- A search from label 1 with all marks cleared. -/
def reachedWithoutDefinitionP (arena : LirArena) (blocks : Nat → LirBlock) (target value : Nat) :
    Bool :=
  (arena.reachesWithoutDefinition blocks target value (arena.labelCount + 1) 1 ∅).1

def valueDefinedP (arena : LirArena) (blocks : Nat → LirBlock) (value instruction block : Nat) :
    Bool :=
  arena.blockDefinesP value (blocks block).first (instruction - 1) ||
    !arena.reachedWithoutDefinitionP blocks block value

def verifyReachability (arena : LirArena) (blocks : Nat → LirBlock) : Bool :=
  checkUpTo arena.labelCount fun index => arena.reachedWithoutDefinitionP blocks index 0

def entryP (arena : LirArena) : Bool :=
  (arena.instructions 1).kind == .label && (arena.instructions 1).target == 1

/-- `lir_literal_definition`, the first instruction that assigns a register, or zero. -/
def literalDefinition (arena : LirArena) (destination : Nat) : Nat :=
  ((List.range' 1 arena.count).find? fun index =>
    (arena.instructions index).destination == destination).getD 0

end LirArena

/-! ## Instructions -/

section Functions

variable (context : CompileContext) (arena : LirArena)

def lirReturnTypeP (op : LirInstruction) : Bool :=
  sourceTypesEqualP context op.scalarCode op.pointee context.currentSignature.typeCode
      context.currentSignature.resultPointee &&
    if op.scalarCode = 12 then op.left == 0
    else irOperandMatchesOpP context arena.types op.left op.toScalarOp

def lirControlShapeP (op : LirInstruction) : Bool :=
  op.destination == 0 && op.value == 0 &&
    match op.kind with
    | .rootsInit | .rootsEnter | .rootsSync | .rootsLeave => nativeRootControlShapeP context op
    | .label | .jump => op.left == 0 && op.right == 0 && irReferenceP op.target arena.labelCount
    | .branch => irReferenceP op.left arena.valueCount && irReferenceP op.target arena.labelCount &&
        irReferenceP op.right arena.labelCount && irTypesSameP context arena.types op.left 0 0
    | .ret => op.target == 0 && op.right == 0 &&
        if op.scalarCode = 12 then op.left == 0 && lirReturnTypeP context arena op
        else irReferenceP op.left arena.valueCount && lirReturnTypeP context arena op
    | _ => false

def lirCatalogEntryP (reference : Nat) : Bool :=
  let type := arena.types reference
  irSourceTypeP context type.scalarCode type.pointee &&
    if type.kind = .argumentLink then
      irReferenceP type.left (reference - 1) && (type.right == 0 ||
        (irReferenceP type.right (reference - 1) && (arena.types type.right).kind == .argumentLink))
    else type.left == 0 && type.right == 0

def lirVerifyLiteralExtent (op : ScalarOp) : Bool :=
  if op.kind = .call ∧ (context.signatureAt (op.target - 1)).runtimeId = 14 then
    let last := arena.types op.left
    let first := arena.types last.right
    let length := arena.literalDefinition last.left
    let address := arena.literalDefinition first.left
    length != 0 && address != 0 &&
      context.literalExtentP (arena.instructions address).target (arena.instructions length).value
  else true

def lirVerifyValueOp (op : ScalarOp) : Bool :=
  op.kind != .phi && op.kind != .argumentLink && irOpOperandsP op arena.valueCount &&
    irOpMetadataP context op && irVerifyScalarType context arena.types op &&
    lirVerifyLiteralExtent context arena op

def lirValueShapeP (op : LirInstruction) : Bool :=
  let type := arena.types op.destination
  irReferenceP op.destination arena.valueCount &&
    sourceTypesEqualP context op.scalarCode op.pointee type.scalarCode type.pointee &&
    (if op.kind = .copy then type.kind == .phi else op.kind == type.kind) &&
    lirVerifyValueOp context arena op.toScalarOp

def lirVerifyShapes : Bool :=
  checkUpTo arena.count fun index =>
    let op := arena.instructions index
    if op.destination = 0 then lirControlShapeP context arena op else lirValueShapeP context arena op

def lirVerifyCallDefinitions (blocks : Nat → LirBlock) (index block : Nat) : Nat → Nat → Bool
  | _, 0 => true
  | chain, remaining + 1 =>
      arena.valueDefinedP blocks (arena.types chain).left index block &&
        lirVerifyCallDefinitions blocks index block (arena.types chain).right remaining

def lirVerifyDefinedOperands (blocks : Nat → LirBlock) (op : LirInstruction) (index block : Nat) :
    Bool :=
  match op.kind with
  | .rootsInit | .rootsEnter | .rootsSync | .rootsLeave | .label | .jump => true
  | .ret => op.scalarCode == 12 || arena.valueDefinedP blocks op.left index block
  | .literal | .parameter | .booleanLiteral | .voidValue | .dataAddress | .literalAddress
  | .functionAddress => true
  | .call => lirVerifyCallDefinitions arena blocks index block op.left
      (context.signatureAt (op.target - 1)).arity
  | kind => arena.valueDefinedP blocks op.left index block &&
      (!kind.irBinaryKindP || arena.valueDefinedP blocks op.right index block)

/-- `lir_verify_definitions` over the remaining instructions, in a block. -/
def lirVerifyDefinitions (blocks : Nat → LirBlock) : Nat → Nat → Nat → Bool
  | 0, _, _ => true
  | remaining + 1, index, block =>
      let op := arena.instructions index
      if op.kind = .label then lirVerifyDefinitions blocks remaining (index + 1) op.target
      else lirVerifyDefinedOperands context arena blocks op index block &&
        lirVerifyDefinitions blocks remaining (index + 1) block

def lirVerifyFunctionBody : Bool :=
  arena.error == 0 && irReferenceP arena.count arena.capacity &&
    irReferenceP arena.labelCount arena.labelCapacity &&
    checkUpTo arena.valueCount (lirCatalogEntryP context arena) &&
    lirVerifyShapes context arena &&
    match arena.scanBlocks arena.count 1 0 fun _ => {} with
    | none => false
    | some blocks => arena.verifyRanges blocks && arena.verifyReachability blocks &&
        lirVerifyDefinitions context arena blocks arena.count 1 0

def lirVerifyFunction : Bool :=
  irReferenceP arena.valueCount arena.valueCapacity && irReferenceP arena.count arena.capacity &&
    arena.entryP && lirVerifyFunctionBody context arena && nativeVerifyRoots context arena

end Functions

end Native
