import Mathlib.Data.Finset.Basic
import PslCompiler.Native.VerifyOperations

/-! # The native SSA verifier

The checks of `ssa_verify_function`. The recursions over all references of an arena are conjunctions
over the range of references, the recursions along a block's value list and through the
control-flow graph carry a bound on their depth, and the `visit` marks of a search are a set that
starts empty, since every query clears them first.
-/

namespace Native

/-- A check of every reference up to a count, in order. -/
def checkUpTo (count : Nat) (check : Nat → Bool) : Bool :=
  (List.range' 1 count).all check

/-! ## Control flow and dominance -/

namespace SsaArena

/-- The search of `ssa_reaches_without`, with the set of visited blocks. -/
def reachesWithout (arena : SsaArena) (target excluded : Nat) :
    Nat → Nat → Finset Nat → Bool × Finset Nat
  | 0, _, visited => (false, visited)
  | depth + 1, block, visited =>
      if block = 0 then (false, visited)
      else if block = excluded then (false, visited)
      else if block = target then (true, visited)
      else if block ∈ visited then (false, visited)
      else
        let node := arena.blocks block
        let left := reachesWithout arena target excluded depth node.targetLeft (insert block visited)
        if left.1 then (true, left.2)
        else reachesWithout arena target excluded depth node.targetRight left.2

/-- A search from block 1 with all marks cleared. -/
def reachedWithoutP (arena : SsaArena) (target excluded : Nat) : Bool :=
  (arena.reachesWithout target excluded (arena.blockCount + 1) 1 ∅).1

def dominatesP (arena : SsaArena) (definition use : Nat) : Bool :=
  definition == use || !arena.reachedWithoutP use definition

def edgeP (arena : SsaArena) (predecessor successor : Nat) : Bool :=
  (arena.blocks predecessor).targetLeft == successor ||
    (arena.blocks predecessor).targetRight == successor

def incomingCount (arena : SsaArena) (successor : Nat) : Nat :=
  (List.range' 1 arena.blockCount).countP fun index => arena.edgeP index successor

/-- `ssa_verify_block_list`. The references increase, so the walk ends within the bound. -/
def verifyBlockList (arena : SsaArena) (block : Nat) : Nat → Nat → Nat → Bool
  | 0, _, _ => false
  | fuel + 1, reference, previous =>
      if reference = 0 then previous == (arena.blocks block).last
      else irReferenceP reference arena.valueCount && decide (previous < reference) &&
        (arena.values reference).block == block &&
        verifyBlockList arena block fuel (arena.values reference).next reference

def verifyTerminatorShape (arena : SsaArena) (block : SsaBlock) : Bool :=
  match block.terminator with
  | .ret => block.condition == 0 && block.targetLeft == 0 && block.targetRight == 0 &&
      irReferenceP block.result arena.valueCount
  | .jump => block.condition == 0 && block.result == 0 && block.targetRight == 0 &&
      irReferenceP block.targetLeft arena.blockCount
  | .branch => block.result == 0 && irReferenceP block.condition arena.valueCount &&
      irReferenceP block.targetLeft arena.blockCount &&
      irReferenceP block.targetRight arena.blockCount
  | _ => false

def verifyBlocks (arena : SsaArena) : Bool :=
  checkUpTo arena.blockCount fun index =>
    arena.verifyTerminatorShape (arena.blocks index) &&
      arena.verifyBlockList index (arena.valueCount + 1) (arena.blocks index).first 0

def blockContainsP (arena : SsaArena) (reference : Nat) : Nat → Nat → Bool
  | 0, _ => false
  | fuel + 1, current =>
      current != 0 && (current == reference ||
        blockContainsP arena reference fuel (arena.values current).next)

def verifyUse (arena : SsaArena) (reference parent block : Nat) : Bool :=
  reference == 0 ||
    (decide (reference < parent) && arena.dominatesP (arena.values reference).block block)

/-! ## Values -/

def catalogEdgesMatchP (type : IrType) (value : SsaValue) : Bool :=
  if value.kind = .argumentLink then type.left == value.left && type.right == value.right
  else type.left == 0 && type.right == 0

def catalogMatchesP (arena : SsaArena) (reference : Nat) (value : SsaValue) : Bool :=
  let type := arena.types reference
  value.kind == type.kind && value.scalarCode == type.scalarCode && value.pointee == type.pointee &&
    catalogEdgesMatchP type value

def phiPrefixFromP (arena : SsaArena) (reference : Nat) : Nat → Nat → Bool
  | 0, _ => false
  | fuel + 1, current =>
      current == reference || (current != 0 && (arena.values current).kind == .phi &&
        phiPrefixFromP arena reference fuel (arena.values current).next)

def phiPrefixP (arena : SsaArena) (block reference : Nat) : Bool :=
  arena.phiPrefixFromP reference (arena.valueCount + 1) (arena.blocks block).first

def verifyPhi (arena : SsaArena) (reference : Nat) (value : SsaValue) : Bool :=
  irReferenceP value.predecessorLeft arena.blockCount &&
    irReferenceP value.predecessorRight arena.blockCount &&
    value.predecessorLeft != value.predecessorRight &&
    arena.incomingCount value.block == 2 &&
    arena.edgeP value.predecessorLeft value.block &&
    arena.edgeP value.predecessorRight value.block &&
    arena.verifyUse value.left reference value.predecessorLeft &&
    arena.verifyUse value.right reference value.predecessorRight

def verifyValueEdges (arena : SsaArena) (reference : Nat) (value : SsaValue) : Bool :=
  if value.kind = .phi then
    arena.phiPrefixP value.block reference && arena.verifyPhi reference value
  else value.predecessorLeft == 0 && value.predecessorRight == 0 &&
    arena.verifyUse value.left reference value.block &&
    arena.verifyUse value.right reference value.block

end SsaArena

section Functions

variable (context : CompileContext) (arena : SsaArena)

def ssaVerifyLiteralExtent (op : ScalarOp) : Bool :=
  if op.kind = .call ∧ (context.signatureAt (op.target - 1)).runtimeId = 14 then
    let last := arena.values op.left
    let first := arena.values last.right
    context.literalExtentP (arena.values first.left).target (arena.values last.left).value
  else true

def ssaVerifyValue (reference : Nat) : Bool :=
  let value := arena.values reference
  irReferenceP value.block arena.blockCount &&
    arena.blockContainsP reference (arena.valueCount + 1) (arena.blocks value.block).first &&
    irOpOperandsP value.toScalarOp (reference - 1) &&
    irOpMetadataP context value.toScalarOp &&
    arena.catalogMatchesP reference value &&
    arena.verifyValueEdges reference value &&
    irVerifyScalarType context arena.types value.toScalarOp &&
    ssaVerifyLiteralExtent context arena value.toScalarOp

def ssaVerifyTerminalType (index : Nat) : Bool :=
  let block := arena.blocks index
  let reference := if block.terminator = .ret then block.result else block.condition
  reference == 0 || (arena.dominatesP (arena.values reference).block index &&
    if block.terminator = .branch then irTypesSameP context arena.types reference 0 0
    else irTypesSameP context arena.types reference context.currentSignature.typeCode
      context.currentSignature.resultPointee)

def ssaVerifyReachableBlocks : Bool :=
  checkUpTo arena.blockCount fun index =>
    arena.reachedWithoutP index 0 && ssaVerifyTerminalType context arena index

def ssaVerifyFunction : Bool :=
  arena.error == 0 && irReferenceP arena.valueCount arena.valueCapacity &&
    irReferenceP arena.blockCount arena.blockCapacity && arena.verifyBlocks &&
    checkUpTo arena.valueCount (ssaVerifyValue context arena) &&
    ssaVerifyReachableBlocks context arena

end Functions

end Native
