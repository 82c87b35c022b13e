import Mathlib.Algebra.Group.Nat.Defs
import PslCompiler.Native.Syntax

/-! # Checks of single operations

The operand shapes, metadata and types of scalar and memory operations, which the native SSA and
LIR verifiers share. Types are looked up in a catalogue by reference.
-/

namespace Native

/-! ## Type codes -/

def scalarValidCodeP (code : Nat) : Bool := code != 0 && decide (code < 11)

def scalarTypeSignedP (code : Nat) : Bool := decide (5 < code) && decide (code < 11)

def scalarBinaryCodeP (code : Nat) (shift64 : Bool) : Bool :=
  scalarValidCodeP code && (!shift64 || code == 1)

def scalarTypeBits : Nat → Nat
  | 3 | 6 => 8
  | 4 | 7 => 16
  | 5 | 8 | 13 => 32
  | _ => 64

def scalarUnsignedLimit (bits : Nat) : Nat := 2 ^ bits - 1

def scalarSignedMagnitudeLimit (bits : Nat) (negative : Bool) : Nat :=
  if negative then 2 ^ (bits - 1) else 2 ^ (bits - 1) - 1

/-- Words of a signed code are sign-extended to 64 bits. -/
def scalarWordValidP (code value : Nat) : Bool :=
  let bits := scalarTypeBits code
  scalarValidCodeP code &&
    if scalarTypeSignedP code then
      !decide (scalarSignedMagnitudeLimit bits false < value) ||
        !decide (value < 2 ^ 64 - scalarSignedMagnitudeLimit bits true)
    else !decide (scalarUnsignedLimit bits < value)

def sourceWordValidP (code value : Nat) : Bool :=
  if code = 15 then value == 2 || value == 6 || value % 2 == 1
  else if code = 13 then !decide (4294967295 < value)
  else if code = 14 then true
  else scalarWordValidP code value

def sourceValidCodeP (code : Nat) : Bool :=
  code == 16 || code == 15 || code == 11 || code == 13 || code == 14 || scalarValidCodeP code

def sourceContextCodeP (context : CompileContext) (code : Nat) : Bool :=
  if code = 15 then context.profile == 1 else sourceValidCodeP code

def sourceTypeReferenceP (context : CompileContext) (reference : Nat) : Bool :=
  reference != 0 && !decide (context.parserCount < reference)

def sourceTypesEqualP (context : CompileContext) (leftCode leftPointee rightCode rightPointee : Nat) :
    Bool :=
  leftCode == rightCode &&
    if leftCode = 11 ∨ leftCode = 16 then context.astTypeEqualP leftPointee rightPointee
    else leftPointee == 0 && rightPointee == 0

def irSourceTypeP (context : CompileContext) (code pointee : Nat) : Bool :=
  if code = 16 then context.aggregateTypeP pointee
  else if code = 11 then context.pointerPointeeP pointee
  else pointee == 0 && (code == 0 || code == 12 || sourceContextCodeP context code)

/-! ## Shapes -/

def irReferenceP (reference count : Nat) : Bool := reference != 0 && !decide (count < reference)

namespace Kind

def irBinaryKindP : Kind → Bool
  | add | sub | mul | equal | less | bitsAnd | shift | store | pointerAdd | phi => true
  | _ => false

def irLeafKindP : Kind → Bool
  | literal | parameter | booleanLiteral | voidValue | dataAddress | literalAddress
  | functionAddress => true
  | _ => false

def irUnaryKindP : Kind → Bool
  | integerCast | wordTruth | addressToPointer | pointerCast | fieldPointer | load
  | pointerAddress | forward | copy => true
  | _ => false

end Kind

def irOpOperandsP (op : ScalarOp) (count : Nat) : Bool :=
  if op.kind.irLeafKindP then op.left == 0 && op.right == 0
  else if op.kind.irUnaryKindP then op.right == 0 && irReferenceP op.left count
  else if op.kind.irBinaryKindP then irReferenceP op.left count && irReferenceP op.right count
  else
    match op.kind with
    | .call => op.right == 0 && (op.left == 0 || irReferenceP op.left count)
    | .argumentLink =>
        irReferenceP op.left count && (op.right == 0 || irReferenceP op.right count)
    | _ => false

def accessSizeP (value : Nat) : Bool := value == 1 || value == 2 || value == 4 || value == 8

def irOpMetadataP (context : CompileContext) (op : ScalarOp) : Bool :=
  sourceTypeReferenceP context op.source &&
    match op.kind with
    | .call => op.value == 0 && irReferenceP op.target context.priorCount
    | .fieldPointer => op.target != 0
    | .dataAddress | .literalAddress => op.value == 0 && irReferenceP op.target context.dataCount
    | .functionAddress => op.value == 0 && op.target != 0 && context.lambdaOriginP op.source &&
        context.closureCallbackTargetP op.target op.source
    | kind => op.target == 0 &&
        match kind with
        | .voidValue => op.value == 0
        | .literal | .parameter | .booleanLiteral => true
        | .load | .store => accessSizeP op.value
        | .pointerAdd => op.value != 0
        | _ => op.value == 0

/-! ## Types -/

section Types

variable (context : CompileContext) (types : Nat → IrType)

def irTypesSameP (reference code pointee : Nat) : Bool :=
  sourceTypesEqualP context (types reference).scalarCode (types reference).pointee code pointee

def irOperandMatchesOpP (reference : Nat) (op : ScalarOp) : Bool :=
  irTypesSameP context types reference op.scalarCode op.pointee

def irVerifyIntegerBinary (op : ScalarOp) : Bool :=
  scalarBinaryCodeP op.scalarCode (op.kind == .shift) &&
    irOperandMatchesOpP context types op.left op && irOperandMatchesOpP context types op.right op

def irVerifyComparison (op : ScalarOp) : Bool :=
  op.scalarCode == 0 && scalarValidCodeP (types op.left).scalarCode &&
    irTypesSameP context types op.right (types op.left).scalarCode 0

def irVerifyArgumentChain (signature : Signature) : Nat → Nat → Bool
  | chain, 0 => chain == 0
  | chain, remaining + 1 =>
      chain != 0 && (types chain).kind == .argumentLink &&
        irTypesSameP context types (types chain).left (signature.parameterCode remaining)
          (signature.parameterPointee remaining) &&
        irVerifyArgumentChain signature (types chain).right remaining

/-- The runtime call 14 takes the address and the length of a literal. -/
def irVerifyLiteralCall (chain : Nat) : Bool :=
  let last := types chain
  let first := types last.right
  first.right == 0 && (types first.left).kind == .literalAddress && (types last.left).kind == .literal

def irVerifyCallTypeChecked (op : ScalarOp) : Bool :=
  let signature := context.signatureAt (op.target - 1)
  sourceTypesEqualP context op.scalarCode op.pointee signature.typeCode signature.resultPointee &&
    irVerifyArgumentChain context types signature op.left signature.arity &&
    (signature.runtimeId != 14 || irVerifyLiteralCall types op.left)

/-- `native_runtime_call_signature_p`: the root operations 7 and 8 cannot be called. -/
def runtimeCallSignatureP (signature : Signature) : Bool :=
  signature.runtimeId == 0 ||
    (signature.runtimeId != 7 && signature.runtimeId != 8 && context.runtimeSignatureP signature)

def irVerifyCallType (op : ScalarOp) : Bool :=
  runtimeCallSignatureP context (context.signatureAt (op.target - 1)) &&
    irVerifyCallTypeChecked context types op

def irVerifyParameterType (op : ScalarOp) : Bool :=
  op.value != 0 && !decide (context.currentArity < op.value) &&
    sourceTypesEqualP context op.scalarCode op.pointee (context.currentParameterCode op.value)
      (context.currentSignature.parameterPointee (op.value - 1))

def irVerifyUnaryType (op : ScalarOp) : Bool :=
  let child := types op.left
  match op.kind with
  | .integerCast => scalarValidCodeP op.scalarCode && scalarValidCodeP child.scalarCode
  | .wordTruth => op.scalarCode == 0 && child.scalarCode != 15 && child.scalarCode != 16 &&
      sourceContextCodeP context child.scalarCode
  | .addressToPointer => op.scalarCode == 11 && irTypesSameP context types op.left 2 0
  | .pointerCast => op.scalarCode == 11 && child.scalarCode == 11
  | .pointerAddress => op.scalarCode == 2 && child.scalarCode == 11
  | _ => false

def irVerifyClosureCallback (target source : Nat) : Bool :=
  let signature := context.signatureAt (target - 1)
  target != 0 && !decide (context.priorCount < target) &&
    context.closureCallbackTargetP target source && signature.imported == 0 &&
    signature.arity == 2 && signature.typeCode == 15 && signature.parameterCode 0 == 15 &&
    signature.parameterCode 1 == 15

def irVerifyFunctionAddress (op : ScalarOp) : Bool :=
  op.scalarCode == 2 && op.pointee == 0 && op.value == 0 && context.lambdaOriginP op.source &&
    irVerifyClosureCallback context op.target op.source

def irVerifyFieldType (op : ScalarOp) : Bool :=
  let left := types op.left
  let field := context.fieldAt (op.target - 1)
  op.target != 0 && !decide (context.fieldCount < op.target) && left.scalarCode == 11 &&
    op.target == context.findField left.pointee field.name && op.value == field.offset &&
    op.scalarCode == 11 &&
    context.astTypeEqualP op.pointee (context.pointerWithFlags field.typeAst left.pointee)

def irVerifyAccessType (op : ScalarOp) : Bool :=
  let left := types op.left
  left.scalarCode == 11 && !(op.kind == .store && context.pointerConstP left.pointee) &&
    sourceTypesEqualP context op.scalarCode op.pointee (context.syntaxCode left.pointee)
      (context.syntaxPointee left.pointee) &&
    op.value == context.syntaxSize left.pointee &&
    (op.kind == .load || irOperandMatchesOpP context types op.right op)

def irVerifyPointerAddType (op : ScalarOp) : Bool :=
  op.scalarCode == 11 && irOperandMatchesOpP context types op.left op &&
    irTypesSameP context types op.right 10 0 && op.value == context.syntaxSize op.pointee

def irVerifyMemoryType (op : ScalarOp) : Bool :=
  match op.kind with
  | .fieldPointer => irVerifyFieldType context types op
  | .load | .store => irVerifyAccessType context types op
  | .pointerAdd => irVerifyPointerAddType context types op
  | .phi => op.scalarCode != 12 && irOperandMatchesOpP context types op.left op &&
      irOperandMatchesOpP context types op.right op
  | .copy => op.scalarCode != 12 && irOperandMatchesOpP context types op.left op
  | _ => false

def irResultKindP (code : Nat) (kind : Kind) : Bool :=
  code != 12 || kind == .call || kind == .voidValue

/-- Numbers above 22 that are not named are memory operations, the others integer operations. -/
def irVerifyScalarType (op : ScalarOp) : Bool :=
  irResultKindP op.scalarCode op.kind && irSourceTypeP context op.scalarCode op.pointee &&
    match op.kind with
    | .literal => sourceWordValidP op.scalarCode op.value
    | .parameter => irVerifyParameterType context op
    | .call => irVerifyCallType context types op
    | .equal | .less => irVerifyComparison context types op
    | .argumentLink => irOperandMatchesOpP context types op.left op
    | .booleanLiteral => op.scalarCode == 0 && !decide (1 < op.value)
    | .voidValue => op.scalarCode == 12
    | .literalAddress => op.scalarCode == 1 && op.pointee == 0 && context.literalTargetP op.target
    | .functionAddress => irVerifyFunctionAddress context op
    | .dataAddress => op.scalarCode == 11 && op.target != 0 &&
        !decide (context.dataCount < op.target) &&
        context.astTypeEqualP op.pointee (context.dataImportType (op.target - 1))
    | .integerCast | .wordTruth | .addressToPointer | .pointerCast | .pointerAddress =>
        irVerifyUnaryType context types op
    | .forward => op.scalarCode != 12 && irOperandMatchesOpP context types op.left op
    | .fieldPointer | .load | .store | .pointerAdd | .phi | .copy =>
        irVerifyMemoryType context types op
    | .whileLoop | .label | .jump | .branch | .ret | .rootsInit | .rootsEnter | .rootsSync
    | .rootsLeave => irVerifyMemoryType context types op
    | .other number =>
        if 22 < number then irVerifyMemoryType context types op
        else irVerifyIntegerBinary context types op
    | _ => irVerifyIntegerBinary context types op

end Types

end Native
