import PslCompiler.Flow.FlatMachine
import PslCompiler.Native.LirSafety

/-! # Executing native SSA and LIR

An arena denotes a program over operations without register numbers. All phis of a block are
assigned at once from the edge taken; a LIR list runs one instruction after another. Calls, loads
and stores are effects, and the values of parameters are part of the meaning of operations.
-/

namespace Native

open Flow

/-- What determines the meaning of an operation, apart from the values of its operands. The type
of the left operand decides for instance how a comparison treats the sign. -/
structure Operation where
  kind : Kind
  scalarCode : Nat
  pointee : Nat
  value : Nat
  target : Nat
  operand : SourceType
  deriving DecidableEq, Repr

namespace ScalarOp

def operandType (types : Nat → IrType) (op : ScalarOp) : SourceType :=
  if op.kind.irLeafKindP ∨ op.kind = .call then ⟨0, 0⟩ else (types op.left).sourceType

def operation (types : Nat → IrType) (op : ScalarOp) : Operation :=
  ⟨op.kind, op.scalarCode, op.pointee, op.value, op.target, op.operandType types⟩

/-- The registers that an operation is applied to. The chain of a call starts with the last
argument. -/
def arguments (op : ScalarOp) (callArguments : List Nat) : List Nat :=
  if op.kind = .call then callArguments.reverse else [op.left, op.right].filter (· != 0)

end ScalarOp

/-- `ssa_effect_root_p`: calls, loads and stores. -/
def Kind.ssaEffectRootP : Kind → Bool
  | call | load | store => true
  | _ => false

/-- Copies and forwards pass their operand on; back ends emit a plain move for both. -/
def Kind.moveP : Kind → Bool
  | forward | copy => true
  | _ => false

def ScalarOp.producer (types : Nat → IrType) (op : ScalarOp) : Producer Operation :=
  if op.kind.moveP then .move
  else if op.kind.ssaEffectRootP then .effect (op.operation types)
  else .scalar (op.operation types)

/-- The assignment of an operation's value, given the arguments of a call. -/
def ScalarOp.assignment (types : Nat → IrType) (op : ScalarOp) (dst : Nat)
    (callArguments : List Nat) : Assignment Operation :=
  ⟨dst, op.producer types, op.arguments callArguments⟩

/-- The register of a returned value; a void result returns nothing. -/
def returnedRegister (code register : Nat) : Option Nat :=
  if code = 12 then none else some register

namespace SsaArena

def phiP (arena : SsaArena) (reference : Nat) : Bool := (arena.values reference).kind == .phi

/-- Phis are assigned on the edges, and argument links belong to their calls. -/
def assignedP (arena : SsaArena) (reference : Nat) : Bool :=
  !arena.phiP reference && (arena.values reference).kind != .argumentLink

def assignment (context : CompileContext) (arena : SsaArena) (reference : Nat) :
    Assignment Operation :=
  (arena.values reference).toScalarOp.assignment arena.types reference
    (arena.callArguments context (arena.values reference).toScalarOp)

def exit (arena : SsaArena) (block : Nat) : Exit :=
  let node := arena.blocks block
  match node.terminator with
  | .ret => .ret (returnedRegister (arena.types node.result).scalarCode node.result)
  | .jump => .jump node.targetLeft
  | .branch => .branch node.condition node.targetLeft node.targetRight
  | _ => .none

/-- The program that an SSA arena denotes. -/
def program (context : CompileContext) (arena : SsaArena) : SsaProgram Operation where
  entry := 1
  phis block := ((arena.blockValues block).filter arena.phiP).map fun reference =>
    (reference, phiInputs (arena.values reference))
  body block := ((arena.blockValues block).filter arena.assignedP).map (arena.assignment context)
  exit := arena.exit

end SsaArena

namespace LirArena

/-- The instructions in order. -/
def code (lir : LirArena) : List LirInstruction :=
  (List.range' 1 lir.count).map lir.instructions

/-- The meaning of an instruction. Root maintenance does not concern the values of registers. -/
def denote (context : CompileContext) (types : Nat → IrType) (op : LirInstruction) :
    Flat Operation :=
  match op.kind with
  | .label => .label op.target
  | .jump => .jump op.target
  | .branch => .branch op.left op.target op.right
  | .ret => .ret (returnedRegister op.scalarCode op.left)
  | .rootsInit | .rootsEnter | .rootsSync | .rootsLeave => .skip
  | _ => .assign (op.toScalarOp.assignment types op.destination
      (chainArguments (fun link => (types link).left) (fun link => (types link).right) op.left
        (context.signatureAt (op.target - 1)).arity))

/-- The flat code that a LIR arena denotes. -/
def flat (context : CompileContext) (lir : LirArena) : List (Flat Operation) :=
  lir.code.map (denote context lir.types)

end LirArena

end Native
