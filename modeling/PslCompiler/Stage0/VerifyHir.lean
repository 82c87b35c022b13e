import PslCompiler.Stage0.Syntax

/-! # The Stage 0 HIR verifier

The checks of `verify-hir-function`: a walk over the typed expression tree with the types of the
variables in scope.
-/

namespace Stage0

def verifyHirBinary (type : Ty) (operator : BinaryOperator) (operandType : Ty) (types : List Ty) :
    Check Unit := do
  expectCount types 2 "binary operation"
  require operandType.integerTypeP "HIR binary operand must be a machine integer"
  require (operator != .shr64 || operandType == .u64) "HIR SHR64 requires U64"
  checkAll (fun actual => expectSameType (some actual) (some operandType) "binary operand") types
  expectSameType (some type) (some (if operator.comparisonP then .boolean else operandType))
    "binary result"

def verifyHirCall (type : Ty) (callee : String) (types : List Ty) (signatures : Signatures) :
    Check Unit :=
  match signatures callee with
  | none => .error s!"HIR call has unknown callee {callee}"
  | some signature => do
      require (types == signature.arguments) s!"HIR call argument types do not match {callee}"
      expectSameType (some type) (some signature.result) "call result"

/-- Whether the first operand is a pointer to a scalar machine value. -/
def scalarPointeeP (types : List Ty) : Bool :=
  ((types.head?.bind Ty.pointedType).map Ty.scalarTypeP).getD false

def verifyHirLoad (type : Ty) (types : List Ty) : Check Unit := do
  expectCount types 1 "load"
  require (scalarPointeeP types) "load needs a pointer to a scalar machine value"
  expectSameType (some type) (types.head?.bind Ty.pointedType) "load result"

def verifyHirStore (type : Ty) (types : List Ty) : Check Unit := do
  expectCount types 2 "store"
  require (scalarPointeeP types) "store needs a pointer to a scalar machine value"
  require (types.head?.map Ty.pointerConstP != some true) "store through a const pointer"
  expectSameType types[1]? (types.head?.bind Ty.pointedType) "store value"
  expectSameType (some type) types[1]? "store result"

def verifyHirPointerAdd (type : Ty) (scale : Int) (types : List Ty) : Check Unit := do
  expectCount types 2 "pointer addition"
  require ((types.head?.map Ty.pointerTypeP == some true) && types[1]? == some .isize &&
    decide (0 < scale)) "invalid HIR pointer addition"
  expectSameType (some type) types.head? "pointer result"

def verifyHirFieldPointer (type : Ty) (offset : Int) (types : List Ty) : Check Unit := do
  expectCount types 1 "field pointer"
  require ((types.head?.map Ty.pointerTypeP == some true) && type.pointerTypeP &&
    decide (0 ≤ offset)) "invalid HIR field pointer"
  require (types.head?.map Ty.pointerConstP == some type.pointerConstP &&
    types.head?.map Ty.pointerVolatileP == some type.pointerVolatileP)
    "HIR field pointer lost its qualifiers"

def verifyHirPointerAddress (type : Ty) (types : List Ty) : Check Unit := do
  expectCount types 1 "pointer address"
  require (type == .usize && types.head?.map Ty.pointerTypeP == some true) "invalid HIR pointer address"

def verifyHirPointerCast (type : Ty) (types : List Ty) : Check Unit := do
  expectCount types 1 "pointer cast"
  require (type.pointerTypeP &&
    (types.head?.map Ty.pointerTypeP == some true || types.head? == some .usize))
    "invalid HIR pointer cast"

def verifyHirIntegerCast (type : Ty) (types : List Ty) : Check Unit := do
  expectCount types 1 "integer cast"
  require (type.integerTypeP && types.head?.map Ty.integerTypeP == some true)
    "invalid HIR integer cast"

def verifyHirProgn (type : Ty) (types : List Ty) : Check Unit := do
  require (!types.isEmpty) "empty HIR PROGN"
  expectSameType (some type) types.getLast? "PROGN result"

def verifyHirIf (type : Ty) (types : List Ty) : Check Unit := do
  expectCount types 3 "IF"
  require (types.head? != some .void) "HIR IF condition cannot have VOID type"
  expectSameType types[1]? types[2]? "IF branches"
  expectSameType (some type) types[1]? "IF result"

def verifyHirWhile (type : Ty) (types : List Ty) : Check Unit := do
  expectCount types 2 "WHILE"
  expectSameType types.head? (some .boolean) "WHILE condition"
  expectSameType (some type) (some .boolean) "WHILE result"

section Nodes

variable (signatures : Signatures) (pointerBits : Nat)

mutual

def verifyHirNode (environment : List (String × Ty)) : Hir → Check Ty
  | .node kind type bindings children => do
      match kind with
      | .literal value =>
          require (literalFitsP value type pointerBits) ("HIR literal does not fit " ++ type.print)
      | .variable name =>
          match environment.lookup name with
          | none => .error s!"unknown HIR variable {name}"
          | some declared => expectSameType (some type) (some declared) "variable"
      | .dataAddress _ dataType =>
          require (type.pointedType == some dataType) "invalid HIR data address"
      | .letForm => do
          let bodyEnvironment ← verifyHirBindings environment environment bindings
          expectCount children 1 "LET body"
          let types ← verifyHirChildren bodyEnvironment children
          expectSameType types.head? (some type) "LET result"
      | .progn => do verifyHirProgn type (← verifyHirChildren environment children)
      | .ifForm => do verifyHirIf type (← verifyHirChildren environment children)
      | .whileForm => do verifyHirWhile type (← verifyHirChildren environment children)
      | .binary operator operandType => do
          verifyHirBinary type operator operandType (← verifyHirChildren environment children)
      | .integerCast => do verifyHirIntegerCast type (← verifyHirChildren environment children)
      | .call callee => do
          verifyHirCall type callee (← verifyHirChildren environment children) signatures
      | .load => do verifyHirLoad type (← verifyHirChildren environment children)
      | .store => do verifyHirStore type (← verifyHirChildren environment children)
      | .pointerAdd scale => do
          verifyHirPointerAdd type scale (← verifyHirChildren environment children)
      | .fieldPointer offset => do
          verifyHirFieldPointer type offset (← verifyHirChildren environment children)
      | .pointerCast => do verifyHirPointerCast type (← verifyHirChildren environment children)
      | .pointerAddress => do verifyHirPointerAddress type (← verifyHirChildren environment children)
      .ok type

def verifyHirChildren (environment : List (String × Ty)) : List Hir → Check (List Ty)
  | [] => .ok []
  | child :: rest => do
      let type ← verifyHirNode environment child
      let types ← verifyHirChildren environment rest
      .ok (type :: types)

/-- Check the initializers of a LET in the outer environment, and extend the body's. -/
def verifyHirBindings (environment bodyEnvironment : List (String × Ty)) :
    List (String × Hir) → Check (List (String × Ty))
  | [] => .ok bodyEnvironment
  | (name, initializer) :: rest => do
      let type ← verifyHirNode environment initializer
      verifyHirBindings environment ((name, type) :: bodyEnvironment) rest

end

end Nodes

def verifyHirParameters : List (String × Ty) → List Ty → Check Unit
  | parameter :: parameters, type :: types => do
      expectSameType (some parameter.2) (some type) "parameter"
      verifyHirParameters parameters types
  | _, _ => .ok ()

def verifyHirFunction (function : FunctionDef) (signatures : Signatures) (pointerBits : Nat) :
    Check Unit := do
  require (function.parameters.length == function.signature.arguments.length)
    ("HIR parameter count mismatch in " ++ function.signature.name)
  verifyHirParameters function.parameters function.signature.arguments
  let type ← verifyHirNode signatures pointerBits function.parameters function.body
  expectSameType (some type) (some function.signature.result) "function result"

end Stage0
