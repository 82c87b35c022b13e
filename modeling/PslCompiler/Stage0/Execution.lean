import PslCompiler.Flow.FlatMachine
import PslCompiler.Stage0.Syntax

/-! # Executing the Stage 0 representations

The meaning of HIR trees, SSA functions and LIR lists over common operations. Calls, loads and
stores are effects; the values of parameters are part of the meaning of operations. A HIR tree is
evaluated directly: operands from left to right, the initializers of a LET in its outer scope,
WHILE with its test first.
-/

namespace Stage0

open Flow

/-! ## Operations -/

/-- What an operation computes, apart from its type. Casts of every kind convert to their type. -/
inductive OpCode
  | argument (index : Nat)
  | constant (value : Literal)
  | binary (operator : BinaryOperator) (operandType : Ty)
  | convert
  | call (callee : String)
  | dataAddress (name : String) (dataType : Ty)
  | fieldPointer (offset : Int)
  | pointerAdd (scale : Int)
  | load
  | store
  deriving DecidableEq, Repr

structure Operation where
  code : OpCode
  type : Option Ty
  deriving DecidableEq, Repr

namespace Operation

def effectP (operation : Operation) : Bool :=
  match operation.code with
  | .call _ | .load | .store => true
  | _ => false

def producer (operation : Operation) : Producer Operation :=
  if operation.effectP then .effect operation else .scalar operation

end Operation

/-! ## SSA -/

namespace SsaOp

/-- The operation of an instruction other than a phi or a copy. -/
def code : SsaOp → Option OpCode
  | argument index => some (.argument index)
  | constant value => some (.constant value)
  | phi _ | copy => none
  | binary operator operandType => some (.binary operator operandType)
  | integerCast | cast => some .convert
  | call callee => some (.call callee)
  | dataAddress name dataType => some (.dataAddress name dataType)
  | load _ => some .load
  | store => some .store
  | pointerAdd scale => some (.pointerAdd scale)
  | fieldPointer offset => some (.fieldPointer offset)

end SsaOp

namespace SsaInstruction

def assignment (instruction : SsaInstruction) : Assignment Operation :=
  ⟨instruction.id,
    match instruction.op.code with
    | some code => Operation.producer ⟨code, some instruction.type⟩
    | none => .move,
    instruction.args⟩

/-- The inputs of a phi by predecessor. -/
def incoming (instruction : SsaInstruction) : List (Nat × Nat) :=
  match instruction.op with
  | .phi incoming => incoming
  | _ => []

end SsaInstruction

namespace SsaBlock

def phis (block : SsaBlock) : List (Nat × List (Nat × Nat)) :=
  (block.instructions.filter SsaInstruction.isPhi).map fun instruction =>
    (instruction.id, instruction.incoming)

def body (block : SsaBlock) : List (Assignment Operation) :=
  (block.instructions.filter fun instruction => !instruction.isPhi).map SsaInstruction.assignment

def exit (block : SsaBlock) : Exit :=
  match block.terminator with
  | some ⟨.ret, [result], _⟩ => .ret (some result)
  | some ⟨.jump, _, [target]⟩ => .jump target
  | some ⟨.branch, [condition], [ifTrue, ifFalse]⟩ => .branch condition ifTrue ifFalse
  | _ => .none

end SsaBlock

/-- The program that an SSA function denotes. -/
def SsaFunction.program (function : SsaFunction) : SsaProgram Operation where
  entry := function.entry
  phis id := ((function.findBlock id).map SsaBlock.phis).getD []
  body id := ((function.findBlock id).map SsaBlock.body).getD []
  exit id := ((function.findBlock id).map SsaBlock.exit).getD .none

/-! ## LIR -/

namespace LirOp

def code : LirOp → Option OpCode
  | argument index _ => some (.argument index)
  | constant value _ => some (.constant value)
  | binary operator operandType => some (.binary operator operandType)
  | convert => some .convert
  | call callee _ => some (.call callee)
  | dataAddress name dataType => some (.dataAddress name dataType)
  | load _ => some .load
  | store _ => some .store
  | pointerAdd scale => some (.pointerAdd scale)
  | fieldPointer offset => some (.fieldPointer offset)
  | _ => none

end LirOp

/-- The meaning of an instruction. Root maintenance does not concern the values of registers. An
operation or a branch without the register that it needs never comes from linearization. -/
def LirInstruction.denote (instruction : LirInstruction) : Flat Operation :=
  match instruction.op, instruction.dst, instruction.args with
  | .rootsInit, _, _ | .rootsEnter, _, _ | .rootsSync, _, _ | .rootsLeave, _, _ => .skip
  | .label id, _, _ => .label id
  | .jump target, _, _ => .jump target
  | .branchZero target, _, [condition] => .branchZero condition target
  | .ret, _, [result] => .ret (some result)
  | .copy, some dst, args => .assign ⟨dst, .move, args⟩
  | op, some dst, args =>
      match op.code with
      | some code => .assign ⟨dst, Operation.producer ⟨code, instruction.type⟩, args⟩
      | none => .skip
  | _, _, _ => .skip

def LirFunction.flat (function : LirFunction) : List (Flat Operation) :=
  function.instructions.map LirInstruction.denote

/-! ## HIR -/

/-- An evaluation has a value, has stopped at an effect that does not come back, or has run out of
loop iterations. -/
inductive Evaluation (Value World α : Type)
  | value (result : α) (after : Surroundings Operation Value World)
  | stopped (after : Surroundings Operation Value World)
  | timeout (after : Surroundings Operation Value World)

namespace Evaluation

variable {Value World α β : Type}

def andThen (evaluation : Evaluation Value World α)
    (next : α → Surroundings Operation Value World → Evaluation Value World β) :
    Evaluation Value World β :=
  match evaluation with
  | value result after => next result after
  | stopped after => stopped after
  | timeout after => timeout after

def observe (evaluation : Evaluation Value World Value) : Observation Operation Value :=
  match evaluation with
  | value result after => (after.trace, some (some result))
  | stopped after => (after.trace, none)
  | timeout after => (after.trace, none)

end Evaluation

namespace HirKind

/-- The operation of a node that computes a value from all its children. -/
def code : HirKind → Option OpCode
  | literal value => some (.constant value)
  | dataAddress name dataType => some (.dataAddress name dataType)
  | binary operator operandType => some (.binary operator operandType)
  | call callee => some (.call callee)
  | fieldPointer offset => some (.fieldPointer offset)
  | pointerAdd scale => some (.pointerAdd scale)
  | pointerCast | pointerAddress | integerCast => some .convert
  | load => some .load
  | store => some .store
  | _ => none

end HirKind

section Evaluate

variable {Value World : Type} (meaning : Interpretation Operation Value World)

/-- Apply an operation to the values of its operands. -/
def applyOperation (operation : Operation) (operands : List Value)
    (before : Surroundings Operation Value World) : Evaluation Value World Value :=
  if operation.effectP then
    match meaning.perform operation operands before with
    | (some answer, after) => .value answer after
    | (none, after) => .stopped after
  else .value (meaning.scalar operation operands) before

/-- Evaluate the test, and as long as it is true the body, at most some number of times. -/
def whileLoop (test body : Surroundings Operation Value World → Evaluation Value World Value) :
    Nat → Surroundings Operation Value World → Evaluation Value World Unit
  | 0, before => .timeout before
  | fuel + 1, before =>
      (test before).andThen fun value after =>
        if meaning.truth value then
          (body after).andThen fun _ after => whileLoop test body fuel after
        else .value () after

variable (fuel : Nat)

mutual

/-- Evaluate a node in the scope of some variables. A condition that is not a boolean counts as
true; the front end has turned managed values into booleans. -/
def evaluate (environment : List (String × Value)) : Hir →
    Surroundings Operation Value World → Evaluation Value World Value
  | .node kind type bindings children, before =>
      match kind with
      | .literal value => applyOperation meaning ⟨.constant value, some type⟩ [] before
      | .dataAddress name dataType =>
          applyOperation meaning ⟨.dataAddress name dataType, some type⟩ [] before
      | .variable name =>
          match environment.lookup name with
          | some value => .value value before
          | none => .stopped before
      | .progn => evaluateSequence environment children before
      | .letForm =>
          (evaluateBindings environment environment bindings before).andThen fun scope after =>
            evaluateSequence scope children after
      | .ifForm => evaluateIf environment children before
      | .whileForm =>
          (evaluateWhile environment children before).andThen fun _ after =>
            applyOperation meaning ⟨.constant (.integer 0), some .boolean⟩ [] after
      | kind =>
          (evaluateChildren environment children before).andThen fun operands after =>
            match kind.code with
            | some code => applyOperation meaning ⟨code, some type⟩ operands after
            | none => .stopped after

def evaluateChildren (environment : List (String × Value)) : List Hir →
    Surroundings Operation Value World → Evaluation Value World (List Value)
  | [], before => .value [] before
  | child :: rest, before =>
      (evaluate environment child before).andThen fun value after =>
        (evaluateChildren environment rest after).andThen fun values after =>
          .value (value :: values) after

/-- Evaluate nodes in order for the value of the last. -/
def evaluateSequence (environment : List (String × Value)) : List Hir →
    Surroundings Operation Value World → Evaluation Value World Value
  | [], before => .stopped before
  | [last], before => evaluate environment last before
  | child :: rest, before =>
      (evaluate environment child before).andThen fun _ after =>
        evaluateSequence environment rest after

/-- Evaluate initializers in the outer scope and extend the inner one. -/
def evaluateBindings (environment scope : List (String × Value)) : List (String × Hir) →
    Surroundings Operation Value World → Evaluation Value World (List (String × Value))
  | [], before => .value scope before
  | (name, initializer) :: rest, before =>
      (evaluate environment initializer before).andThen fun value after =>
        evaluateBindings environment ((name, value) :: scope) rest after

def evaluateIf (environment : List (String × Value)) : List Hir →
    Surroundings Operation Value World → Evaluation Value World Value
  | [condition, ifTrue, ifFalse], before =>
      (evaluate environment condition before).andThen fun value after =>
        if condition.type ≠ .boolean ∨ meaning.truth value = true then
          evaluate environment ifTrue after
        else evaluate environment ifFalse after
  | _, before => .stopped before

def evaluateWhile (environment : List (String × Value)) : List Hir →
    Surroundings Operation Value World → Evaluation Value World Unit
  | [test, body], before =>
      whileLoop meaning (evaluate environment test) (evaluate environment body) fuel before
  | _, before => .stopped before

end

end Evaluate

/-- The scope in which the body of a function is evaluated. -/
def FunctionDef.arguments {Value World : Type} (function : FunctionDef)
    (meaning : Interpretation Operation Value World) : List (String × Value) :=
  function.parameters.mapIdx fun index parameter =>
    (parameter.1, meaning.scalar ⟨.argument index, some parameter.2⟩ [])

/-- What is observed of a function within some number of iterations of each loop. -/
def FunctionDef.run {Value World : Type} (function : FunctionDef)
    (meaning : Interpretation Operation Value World) (world : World) (fuel : Nat) :
    Observation Operation Value :=
  (evaluate meaning fuel (function.arguments meaning) function.body ⟨world, []⟩).observe

end Stage0
