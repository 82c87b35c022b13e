import Mathlib.Data.List.Basic
import Mathlib.Data.Nat.Basic

/-! # The native compiler's arenas

The records that the self-hosted compiler passes a function through. An arena is an array of
records addressed by one-based references, with zero for "none"; here the array is a function of
the reference. Machine words are natural numbers: every index is bounded by an arena's count
before it is used. Results of C predicates are booleans.
-/

namespace Native

/-- The operation numbers of the three representations, with the source's number beside each. -/
inductive Kind
  | literal -- 1
  | parameter -- 2
  | add -- 4
  | sub -- 5
  | mul -- 6
  | call -- 7
  | equal -- 8
  | less -- 9
  | conditional -- 10
  | bitsAnd -- 11
  | shift -- 12
  | sequence -- 13
  | localBinding -- 14
  | localRead -- 15
  | lexicalLet -- 16
  | argumentLink -- 17
  | integerCast -- 18
  | booleanLiteral -- 19
  | wordTruth -- 20
  | addressToPointer -- 21
  | pointerCast -- 22
  | fieldPointer -- 23
  | load -- 24
  | store -- 25
  | whileLoop -- 26
  | pointerAdd -- 27
  | phi -- 28
  | voidValue -- 29
  | pointerAddress -- 30
  | forward -- 31
  | dataAddress -- 34
  | literalAddress -- 35
  | functionAddress -- 36
  | label -- 100
  | jump -- 101
  | branch -- 102
  | ret -- 103
  | copy -- 104
  | rootsInit -- 110
  | rootsEnter -- 111
  | rootsSync -- 112
  | rootsLeave -- 113
  | other (number : Nat)
  deriving DecidableEq, Repr

/-- `native_scalar_op`, the fields that SSA values and LIR instructions start with. -/
structure ScalarOp where
  kind : Kind := .other 0
  scalarCode : Nat := 0
  pointee : Nat := 0
  value : Nat := 0
  left : Nat := 0
  right : Nat := 0
  target : Nat := 0
  source : Nat := 0
  deriving DecidableEq, Repr, Inhabited

/-- `native_ir_type`, an entry of the type catalogue. -/
structure IrType where
  kind : Kind := .other 0
  scalarCode : Nat := 0
  pointee : Nat := 0
  left : Nat := 0
  right : Nat := 0
  deriving DecidableEq, Repr, Inhabited

/-! ## SSA -/

structure SsaValue extends ScalarOp where
  block : Nat := 0
  next : Nat := 0
  predecessorLeft : Nat := 0
  predecessorRight : Nat := 0
  live : Nat := 0
  remap : Nat := 0
  deriving DecidableEq, Repr, Inhabited

/-- The terminators 1, 2 and 3; a block that is still open has 0. -/
inductive Terminator
  | unset | ret | jump | branch
  | other (number : Nat)
  deriving DecidableEq, Repr

/-- `native_ssa_block`, without the `visit` mark, which every search clears first. -/
structure SsaBlock where
  first : Nat := 0
  last : Nat := 0
  terminator : Terminator := .unset
  condition : Nat := 0
  targetLeft : Nat := 0
  targetRight : Nat := 0
  result : Nat := 0
  remap : Nat := 0
  deriving DecidableEq, Repr

instance : Inhabited SsaBlock := ⟨{}⟩

structure SsaArena where
  values : Nat → SsaValue
  types : Nat → IrType
  valueCount : Nat
  valueCapacity : Nat
  blocks : Nat → SsaBlock
  blockCount : Nat
  blockCapacity : Nat
  current : Nat := 0
  error : Nat := 0

/-! ## LIR -/

structure LirInstruction extends ScalarOp where
  destination : Nat := 0
  deriving DecidableEq, Repr, Inhabited

/-- `native_lir_block`, without the `visit` mark, which every search clears first. -/
structure LirBlock where
  first : Nat := 0
  last : Nat := 0
  deriving DecidableEq, Repr, Inhabited

structure LirArena where
  instructions : Nat → LirInstruction
  count : Nat
  capacity : Nat
  types : Nat → IrType
  valueCount : Nat
  valueCapacity : Nat
  blocks : Nat → LirBlock
  labelCount : Nat
  labelCapacity : Nat
  error : Nat := 0
  rootCount : Nat := 0

/-! ## The compilation context -/

/-- A function signature, with the type codes that the front end resolves from its syntax:
`typeCode` is `scalar_signature_type_code`, and so on. -/
structure Signature where
  firstParameter : Nat := 0
  arity : Nat
  runtimeId : Nat := 0
  imported : Nat := 0
  typeCode : Nat
  resultPointee : Nat := 0
  parameterCode : Nat → Nat
  parameterPointee : Nat → Nat := fun _ => 0

structure Field where
  name : Nat
  offset : Nat
  typeAst : Nat

/-- What the verifiers read of the compilation context. The functions resolve source syntax and
belong to the front end; nothing is assumed of them. -/
structure CompileContext where
  profile : Nat
  parserCount : Nat
  priorCount : Nat
  dataCount : Nat
  signatureAt : Nat → Signature
  signaturesError : Nat
  parameterCount : Nat
  parameterCapacity : Nat
  currentSignature : Signature
  currentArity : Nat
  /-- `scalar_current_parameter_code`. -/
  currentParameterCode : Nat → Nat
  /-- `source_ast_type_equal_p` from depth zero. -/
  astTypeEqualP : Nat → Nat → Bool
  pointerPointeeP : Nat → Bool
  aggregateTypeP : Nat → Bool
  /-- `scalar_type_code` of a type's syntax. -/
  syntaxCode : Nat → Nat
  /-- `source_type_pointee` of a type's syntax. -/
  syntaxPointee : Nat → Nat
  /-- `source_type_size` of a type's syntax. -/
  syntaxSize : Nat → Nat
  pointerConstP : Nat → Bool
  pointerWithFlags : Nat → Nat → Nat
  fieldCount : Nat
  fieldAt : Nat → Field
  findField : Nat → Nat → Nat
  /-- The type of an imported datum. -/
  dataImportType : Nat → Nat
  /-- `native_runtime_signature_p`. -/
  runtimeSignatureP : Signature → Bool
  literalTargetP : Nat → Bool
  literalExtentP : Nat → Nat → Bool
  lambdaOriginP : Nat → Bool
  closureCallbackTargetP : Nat → Nat → Bool
  /-- `hir_call_allocation_free_p` of a call target. -/
  callAllocationFreeP : Nat → Bool

end Native
