import PslCompiler.Native.Execution

/-! # Lowering SSA to LIR

The pass that turns an SSA arena into a flat list: every block becomes a label, its live values
and the code of its terminator, and every edge copies the inputs of the live phis of its target one
after another. A lowering that runs out of instructions or labels fails; the recursions along a
block's value list carry a bound.
-/

namespace Native

/-! ## Liveness -/

namespace SsaArena

def referenceLiveP (arena : SsaArena) (reference : Nat) : Bool :=
  reference == 0 || (arena.values reference).live == 1

def verifyLiveValue (arena : SsaArena) (reference : Nat) : Bool :=
  let value := arena.values reference
  if value.live = 0 then !value.kind.ssaEffectRootP
  else value.live == 1 && arena.referenceLiveP value.left && arena.referenceLiveP value.right

def verifyLiveTerminal (arena : SsaArena) (index : Nat) : Bool :=
  arena.referenceLiveP (arena.blocks index).condition &&
    arena.referenceLiveP (arena.blocks index).result

end SsaArena

def ssaVerifyLiveness (context : CompileContext) (arena : SsaArena) : Bool :=
  ssaVerifyFunction context arena && checkUpTo arena.valueCount arena.verifyLiveValue &&
    checkUpTo arena.blockCount arena.verifyLiveTerminal

/-! ## Instructions -/

namespace LirArena

/-- `lir_allocate`; the new instruction's reference is the new count. -/
def allocate (lir : LirArena) (kind : Kind) (destination left right target : Nat) :
    Option LirArena :=
  if lir.count < lir.capacity then
    some { lir with
      instructions := Function.update lir.instructions (lir.count + 1)
        { kind := kind, left := left, right := right, target := target, destination := destination }
      count := lir.count + 1 }
  else none

/-- `lir_record_type` of the last instruction. -/
def recordType (lir : LirArena) (code pointee source : Nat) : LirArena :=
  { lir with
    instructions := Function.update lir.instructions lir.count
      { lir.instructions lir.count with scalarCode := code, pointee := pointee, source := source } }

def recordValue (lir : LirArena) (value : Nat) : LirArena :=
  { lir with
    instructions := Function.update lir.instructions lir.count
      { lir.instructions lir.count with value := value } }

end LirArena

/-! ## The pass -/

section Lowering

variable (arena : SsaArena)

def lirLowerValue (lir : LirArena) (reference : Nat) : Option LirArena :=
  let value := arena.values reference
  if value.live = 0 then some lir
  else if value.kind = .phi then some lir
  else if value.kind = .argumentLink then some lir
  else do
    let lir ← lir.allocate value.kind reference value.left value.right value.target
    return (lir.recordValue value.value).recordType value.scalarCode value.pointee value.source

def lirLowerValues : Nat → LirArena → Nat → Option LirArena
  | 0, _, _ => none
  | fuel + 1, lir, reference =>
      if reference = 0 then some lir
      else do
        let lir ← lirLowerValue arena lir reference
        lirLowerValues fuel lir (arena.values reference).next

/-- The input of a phi for an edge, as the copies read it. -/
def SsaValue.incoming (value : SsaValue) (predecessor : Nat) : Nat :=
  if predecessor = value.predecessorLeft then value.left else value.right

def lirLowerEdgeCopies (predecessor : Nat) : Nat → LirArena → Nat → Option LirArena
  | 0, _, _ => none
  | fuel + 1, lir, reference =>
      let value := arena.values reference
      if reference = 0 then some lir
      else if value.kind = .phi then
        if value.live = 0 then lirLowerEdgeCopies predecessor fuel lir value.next
        else do
          let lir ← lir.allocate .copy reference (value.incoming predecessor) 0 0
          lirLowerEdgeCopies predecessor fuel
            (lir.recordType value.scalarCode value.pointee value.source) value.next
      else some lir

def lirLowerEdge (lir : LirArena) (predecessor successor : Nat) : Option LirArena := do
  let lir ← lirLowerEdgeCopies arena predecessor (arena.valueCount + 1) lir
    (arena.blocks successor).first
  lir.allocate .jump 0 0 0 successor

def lirLowerBranchEdges (lir : LirArena) (predecessor : Nat) : Option LirArena :=
  let block := arena.blocks predecessor
  let left := lir.labelCount + 1
  let right := lir.labelCount + 2
  if lir.labelCapacity < right then none
  else do
    let lir ← LirArena.allocate { lir with labelCount := right } .branch 0 block.condition right left
    let lir ← lir.allocate .label 0 0 0 left
    let lir ← lirLowerEdge arena lir predecessor block.targetLeft
    let lir ← lir.allocate .label 0 0 0 right
    lirLowerEdge arena lir predecessor block.targetRight

def lirLowerTerminator (lir : LirArena) (index : Nat) : Option LirArena :=
  let block := arena.blocks index
  match block.terminator with
  | .jump => lirLowerEdge arena lir index block.targetLeft
  | .branch => lirLowerBranchEdges arena lir index
  | _ => do
      let type := lir.types block.result
      let lir ← lir.allocate .ret 0 (if type.scalarCode = 12 then 0 else block.result) 0 0
      return lir.recordType type.scalarCode type.pointee 1

def lirLowerBlock (lir : LirArena) (index : Nat) : Option LirArena := do
  let lir ← lir.allocate .label 0 0 0 index
  let lir ← lirLowerValues arena (arena.valueCount + 1) lir (arena.blocks index).first
  lirLowerTerminator arena lir index

def lirLowerBlocks (lir : LirArena) : Option LirArena :=
  (List.range' 1 arena.blockCount).foldlM (lirLowerBlock arena) lir

/-- The arena that a lowering starts from. -/
def LirArena.prepare (lir : LirArena) : LirArena :=
  { lir with
    count := 0
    rootCount := 0
    error := 0
    types := arena.types
    valueCount := arena.valueCount
    labelCount := arena.blockCount }

def lirLowerFunction (context : CompileContext) (lir : LirArena) : Option LirArena :=
  if ssaVerifyLiveness context arena then lirLowerBlocks arena (lir.prepare arena) else none

end Lowering

end Native
