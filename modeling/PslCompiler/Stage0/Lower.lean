import PslCompiler.Stage0.Syntax

/-! # Lowering HIR to SSA and SSA to LIR

`lower-function` walks a tree with a block under construction, and `linearize-function` lays the
blocks out with copies on their edges. The list of blocks is a table by id here, and the
instructions of a block are kept in order instead of being reversed at the end.
-/

namespace Stage0

/-! ## HIR to SSA -/

structure LoweringState where
  blocks : Nat → SsaBlock := fun id => { id := id }
  current : Nat := 0
  nextBlock : Nat := 0
  nextValue : Nat := 0

namespace LoweringState

def newBlock (state : LoweringState) : Nat × LoweringState :=
  (state.nextBlock, { state with
    blocks := Function.update state.blocks state.nextBlock { id := state.nextBlock }
    nextBlock := state.nextBlock + 1 })

def switchBlock (state : LoweringState) (block : Nat) : LoweringState :=
  { state with current := block }

def emitValue (state : LoweringState) (op : SsaOp) (type : Ty) (args : List Nat) :
    Nat × LoweringState :=
  let block := state.blocks state.current
  (state.nextValue, { state with
    blocks := Function.update state.blocks state.current
      { block with
        instructions := block.instructions ++
          [{ id := state.nextValue, op := op, type := type, args := args }] }
    nextValue := state.nextValue + 1 })

def terminateBlock (state : LoweringState) (terminator : SsaTerminator) : Check LoweringState :=
  let block := state.blocks state.current
  if block.terminator.isSome then
    .error ("internal error: block " ++ toString block.id ++ " already has a terminator")
  else .ok { state with
    blocks := Function.update state.blocks state.current { block with terminator := terminator } }

end LoweringState

def lowerVariable (name : String) (environment : List (String × Nat)) : Check Nat :=
  match environment.lookup name with
  | some id => .ok id
  | none => .error s!"internal error: missing variable {name}"

/-- The instruction emitted for a node whose children are all lowered. -/
def HirKind.ssaOp (kind : HirKind) (children : List Hir) : Option SsaOp :=
  match kind with
  | .binary operator operandType => some (.binary operator operandType)
  | .call callee => some (.call callee)
  | .fieldPointer offset => some (.fieldPointer offset)
  | .pointerAdd scale => some (.pointerAdd scale)
  | .pointerCast | .pointerAddress => some .cast
  | .integerCast => some .integerCast
  | .load => some (.load ((children.head?.map fun child => child.type.pointerVolatileP).getD false))
  | .store => some .store
  | _ => none

mutual

def lowerHir (environment : List (String × Nat)) : Hir → LoweringState → Check (Nat × LoweringState)
  | .node kind type bindings children, state =>
      match kind with
      | .literal value => .ok (state.emitValue (.constant value) type [])
      | .variable name => do
          let id ← lowerVariable name environment
          .ok (id, state)
      | .progn => lowerProgn environment children state
      | .letForm => do
          let (bodyEnvironment, state) ← lowerBindings environment environment bindings state
          lowerProgn bodyEnvironment children state
      | .ifForm => lowerIf environment type children state
      | .whileForm => lowerWhile environment children state
      | .dataAddress name dataType => .ok (state.emitValue (.dataAddress name dataType) type [])
      | kind => do
          let (args, state) ← lowerChildren environment children state
          match kind.ssaOp children with
          | some op => .ok (state.emitValue op type args)
          | none => .error "internal error: unsupported HIR node"

def lowerChildren (environment : List (String × Nat)) :
    List Hir → LoweringState → Check (List Nat × LoweringState)
  | [], state => .ok ([], state)
  | child :: rest, state => do
      let (id, state) ← lowerHir environment child state
      let (ids, state) ← lowerChildren environment rest state
      .ok (id :: ids, state)

/-- Lower nodes in order, for the value of the last. The verifier has excluded an empty sequence,
and a LET has one body. -/
def lowerProgn (environment : List (String × Nat)) :
    List Hir → LoweringState → Check (Nat × LoweringState)
  | [], _ => .error "internal error: empty sequence"
  | [last], state => lowerHir environment last state
  | child :: rest, state => do
      let (_, state) ← lowerHir environment child state
      lowerProgn environment rest state

def lowerBindings (environment bodyEnvironment : List (String × Nat)) :
    List (String × Hir) → LoweringState → Check (List (String × Nat) × LoweringState)
  | [], state => .ok (bodyEnvironment, state)
  | (name, initializer) :: rest, state => do
      let (id, state) ← lowerHir environment initializer state
      lowerBindings environment ((name, id) :: bodyEnvironment) rest state

def lowerIf (environment : List (String × Nat)) (type : Ty) :
    List Hir → LoweringState → Check (Nat × LoweringState)
  | [condition, ifTrue, ifFalse], state => do
      let (test, state) ← lowerHir environment condition state
      if condition.type ≠ .boolean then lowerHir environment ifTrue state
      else do
        let (thenBlock, state) := state.newBlock
        let (elseBlock, state) := state.newBlock
        let (joinBlock, state) := state.newBlock
        let state ← state.terminateBlock ⟨.branch, [test], [thenBlock, elseBlock]⟩
        let (thenValue, state) ← lowerHir environment ifTrue (state.switchBlock thenBlock)
        let thenEnd := state.current
        let state ← state.terminateBlock ⟨.jump, [], [joinBlock]⟩
        let (elseValue, state) ← lowerHir environment ifFalse (state.switchBlock elseBlock)
        let elseEnd := state.current
        let state ← state.terminateBlock ⟨.jump, [], [joinBlock]⟩
        .ok ((state.switchBlock joinBlock).emitValue
          (.phi [(thenEnd, thenValue), (elseEnd, elseValue)]) type [])
  | _, _ => .error "internal error: malformed IF"

def lowerWhile (environment : List (String × Nat)) :
    List Hir → LoweringState → Check (Nat × LoweringState)
  | [condition, body], state => do
      let (header, state) := state.newBlock
      let (bodyBlock, state) := state.newBlock
      let (exit, state) := state.newBlock
      let state ← state.terminateBlock ⟨.jump, [], [header]⟩
      let (test, state) ← lowerHir environment condition (state.switchBlock header)
      let state ← state.terminateBlock ⟨.branch, [test], [bodyBlock, exit]⟩
      let (_, state) ← lowerHir environment body (state.switchBlock bodyBlock)
      let state ← state.terminateBlock ⟨.jump, [], [header]⟩
      .ok ((state.switchBlock exit).emitValue (.constant (.integer 0)) .boolean [])
  | _, _ => .error "internal error: malformed WHILE"

end

/-- Emit the parameters, from an index on. -/
def lowerParameters : List (String × Ty) → Nat → LoweringState →
    List (String × Nat) × LoweringState
  | [], _, state => ([], state)
  | (name, type) :: rest, index, state =>
      let (id, state) := state.emitValue (.argument index) type []
      let (environment, state) := lowerParameters rest (index + 1) state
      ((name, id) :: environment, state)

def lowerFunction (function : FunctionDef) : Check SsaFunction := do
  let (entry, state) := LoweringState.newBlock {}
  let (environment, state) := lowerParameters function.parameters 0 (state.switchBlock entry)
  let (result, state) ← lowerHir environment function.body state
  let state ← state.terminateBlock ⟨.ret, [result], []⟩
  .ok {
    name := function.signature.name
    signature := function.signature
    entry := entry
    blocks := (List.range state.nextBlock).map state.blocks
    nextValue := state.nextValue }

/-! ## SSA to LIR -/

/-- The LIR operation of an instruction, which repeats the type in some operations. -/
def SsaOp.toLir (op : SsaOp) (type : Ty) : LirOp :=
  match op with
  | .argument index => .argument index type
  | .constant value => .constant value type
  | .phi _ | .copy => .copy
  | .binary operator operandType => .binary operator operandType
  | .integerCast | .cast => .convert
  | .call callee => .call callee type
  | .dataAddress name dataType => .dataAddress name dataType
  | .load _ => .load type
  | .store => .store type
  | .pointerAdd scale => .pointerAdd scale
  | .fieldPointer offset => .fieldPointer offset

def instructionToLir (instruction : SsaInstruction) : LirInstruction where
  op := instruction.op.toLir instruction.type
  dst := some instruction.id
  type := some instruction.type
  args := instruction.args

/-- The copies for the phis at the start of a block. -/
def phiCopies (predecessor : Nat) : List SsaInstruction → Check (List LirInstruction)
  | [] => .ok []
  | instruction :: rest =>
      match instruction.op with
      | .phi incoming =>
          match incoming.lookup predecessor with
          | none => .error s!"internal error: missing phi input from block {predecessor}"
          | some value => do
              let copies ← phiCopies predecessor rest
              .ok ({ op := .copy, dst := some instruction.id, type := some instruction.type,
                     args := [value] } :: copies)
      | _ => .ok []

def edgeCopies (function : SsaFunction) (predecessor successor : Nat) :
    Check (List LirInstruction) :=
  match function.findBlock successor with
  | some block => phiCopies predecessor block.instructions
  | none => .error s!"internal error: missing block {successor}"

/-- The code of an edge: its copies, and the jump. -/
def edgeToLir (function : SsaFunction) (predecessor successor : Nat) :
    Check (List LirInstruction) := do
  let copies ← edgeCopies function predecessor successor
  .ok (copies ++ [{ op := .jump successor }])

/-- The code of a terminator, with the next unused label. -/
def terminatorToLir (function : SsaFunction) (block : SsaBlock) (nextLabel : Nat) :
    Check (List LirInstruction × Nat) :=
  match block.terminator with
  | some ⟨.ret, args, _⟩ =>
      .ok ([{ op := .ret, type := some function.signature.result, args := args }], nextLabel)
  | some ⟨.jump, _, target :: _⟩ => do
      .ok (← edgeToLir function block.id target, nextLabel)
  | some ⟨.branch, args, ifTrue :: ifFalse :: _⟩ => do
      let first ← edgeToLir function block.id ifTrue
      let second ← edgeToLir function block.id ifFalse
      .ok ({ op := .branchZero nextLabel, args := args } :: first ++
        { op := .label nextLabel } :: second, nextLabel + 1)
  | _ => .error "internal error: unknown SSA terminator"

def linearizeBlocks (function : SsaFunction) : List SsaBlock → Nat → Check (List LirInstruction)
  | [], _ => .ok []
  | block :: rest, nextLabel => do
      let values := (block.instructions.filter fun instruction => !instruction.isPhi).map
        instructionToLir
      let (terminator, nextLabel) ← terminatorToLir function block nextLabel
      let code ← linearizeBlocks function rest nextLabel
      .ok ({ op := .label block.id } :: values ++ terminator ++ code)

def linearizeFunction (function : SsaFunction) : Check LirFunction := do
  let nextLabel := 1 + (function.blocks.map SsaBlock.id).foldl max 0
  let instructions ← linearizeBlocks function function.blocks nextLabel
  .ok {
    name := function.name
    signature := function.signature
    instructions := instructions
    registerCount := function.nextValue }

end Stage0
