import Mathlib.Algebra.Group.Int.Defs
import Mathlib.Algebra.Group.Nat.Defs
import Mathlib.Data.List.Basic

/-! # The Stage 0 intermediate representations

The three representations that the hosted compiler passes a function through: a typed expression
tree (HIR), basic blocks in SSA form, and a flat list of register instructions (LIR). Source
locations only decorate diagnostics and are left out. The `value` slot of a Lisp record, whose
meaning depends on the operation, is the payload of the operation here.
-/

namespace Stage0

/-- Source types. Exactly the forms that `valid-type-p` accepts can be written. -/
inductive Ty
  | u8 | u16 | u32 | u64 | s8 | s16 | s32 | s64 | usize | isize
  | f32 | f64 | void | value | boolean
  | struct (name : String)
  | ptr (pointee : Ty) (const volatile : Bool)
  deriving DecidableEq, Repr

namespace Ty

/-- The printed form of a type, as it appears in diagnostics. -/
def print : Ty → String
  | u8 => ":U8" | u16 => ":U16" | u32 => ":U32" | u64 => ":U64"
  | s8 => ":S8" | s16 => ":S16" | s32 => ":S32" | s64 => ":S64"
  | usize => ":USIZE" | isize => ":ISIZE" | f32 => ":F32" | f64 => ":F64"
  | void => ":VOID" | value => ":VALUE" | boolean => ":BOOLEAN"
  | struct name => "(:STRUCT " ++ name ++ ")"
  | ptr pointee const volatile =>
      "(:PTR " ++ pointee.print ++ (if const then " T" else " NIL") ++
        (if volatile then " T)" else " NIL)")

def integerTypeP : Ty → Bool
  | u8 | u16 | u32 | u64 | s8 | s16 | s32 | s64 | usize | isize => true
  | _ => false

def floatTypeP : Ty → Bool
  | f32 | f64 => true
  | _ => false

def signedTypeP : Ty → Bool
  | s8 | s16 | s32 | s64 | isize => true
  | _ => false

def typeWidth (pointerBits : Nat) : Ty → Option Nat
  | u8 | s8 => some 8
  | u16 | s16 => some 16
  | u32 | s32 => some 32
  | u64 | s64 | value => some 64
  | usize | isize => some pointerBits
  | _ => none

def pointerTypeP : Ty → Bool
  | ptr _ _ _ => true
  | _ => false

def pointedType : Ty → Option Ty
  | ptr pointee _ _ => some pointee
  | _ => none

def pointerConstP : Ty → Bool
  | ptr _ const _ => const
  | _ => false

def pointerVolatileP : Ty → Bool
  | ptr _ _ volatile => volatile
  | _ => false

/-- A type that a load or a store can transfer. -/
def scalarTypeP (type : Ty) : Bool :=
  type.integerTypeP || type.floatTypeP || type.pointerTypeP

end Ty

/-- Literal values. Floating-point literals are kept as their bit patterns. -/
inductive Literal
  | integer (value : Int)
  | single (bits : BitVec 32)
  | double (bits : BitVec 64)
  deriving DecidableEq, Repr

inductive BinaryOperator
  | wrapAdd | wrapSub | wrapMul | bitsAnd | shr64 | equal | less
  deriving DecidableEq, Repr

namespace BinaryOperator

/-- The comparisons, whose result is a boolean. -/
def comparisonP : BinaryOperator → Bool
  | equal | less => true
  | _ => false

end BinaryOperator

/-- What is known of the allocation of a function: a declaration, or the result of inference. -/
inductive Effect
  | unknown | none | allocates
  deriving DecidableEq, Repr

structure Signature where
  name : String
  arguments : List Ty
  result : Ty
  externalP : Bool := false
  effect : Effect := .unknown
  localP : Bool := false
  deriving DecidableEq, Repr

/-- The signature table of a compilation, by function name. -/
abbrev Signatures := String → Option Signature

/-! ## HIR -/

/-- The kind of a HIR node together with its `value` slot. -/
inductive HirKind
  | literal (value : Literal)
  | variable (name : String)
  | progn
  | letForm
  | ifForm
  | whileForm
  | binary (operator : BinaryOperator) (operandType : Ty)
  | call (callee : String)
  | dataAddress (name : String) (dataType : Ty)
  | fieldPointer (offset : Int)
  | pointerAdd (scale : Int)
  | pointerCast
  | pointerAddress
  | integerCast
  | load
  | store
  deriving DecidableEq, Repr

/-- A HIR tree. The `bindings` are the value slot of a `:let` node and empty elsewhere. -/
inductive Hir
  | node (kind : HirKind) (type : Ty) (bindings : List (String × Hir)) (children : List Hir)

namespace Hir

def kind : Hir → HirKind
  | node kind _ _ _ => kind

def type : Hir → Ty
  | node _ type _ _ => type

def bindings : Hir → List (String × Hir)
  | node _ _ bindings _ => bindings

def children : Hir → List Hir
  | node _ _ _ children => children

end Hir

structure FunctionDef where
  signature : Signature
  parameters : List (String × Ty)
  body : Hir

/-! ## SSA -/

/-- An SSA operation together with its `value` slot. A `phi` carries its incoming edges, each a
predecessor block and a value. -/
inductive SsaOp
  | argument (index : Nat)
  | constant (value : Literal)
  | phi (incoming : List (Nat × Nat))
  | copy
  | binary (operator : BinaryOperator) (operandType : Ty)
  | integerCast
  | call (callee : String)
  | dataAddress (name : String) (dataType : Ty)
  | load (volatile : Bool)
  | store
  | pointerAdd (scale : Int)
  | fieldPointer (offset : Int)
  | cast
  deriving DecidableEq, Repr

structure SsaInstruction where
  id : Nat
  op : SsaOp
  type : Ty
  args : List Nat := []
  deriving DecidableEq, Repr

inductive SsaTerminatorOp
  | ret | jump | branch
  deriving DecidableEq, Repr

structure SsaTerminator where
  op : SsaTerminatorOp
  args : List Nat := []
  targets : List Nat := []
  deriving DecidableEq, Repr

structure SsaBlock where
  id : Nat
  instructions : List SsaInstruction := []
  terminator : Option SsaTerminator := none
  deriving DecidableEq, Repr

structure SsaFunction where
  name : String
  signature : Signature
  blocks : List SsaBlock
  entry : Nat
  nextValue : Nat
  deriving DecidableEq, Repr

namespace SsaInstruction

/-- The values that an instruction mentions: the incoming values of a phi, else its arguments. -/
def operands (instruction : SsaInstruction) : List Nat :=
  match instruction.op with
  | .phi incoming => incoming.map Prod.snd
  | _ => instruction.args

def isPhi (instruction : SsaInstruction) : Bool :=
  match instruction.op with
  | .phi _ => true
  | _ => false

end SsaInstruction

namespace SsaFunction

def findBlock (function : SsaFunction) (id : Nat) : Option SsaBlock :=
  function.blocks.find? fun block => block.id == id

end SsaFunction

namespace SsaBlock

def successors (block : SsaBlock) : List Nat :=
  match block.terminator with
  | some terminator => terminator.targets
  | none => []

def terminatorArgs (block : SsaBlock) : List Nat :=
  match block.terminator with
  | some terminator => terminator.args
  | none => []

end SsaBlock

namespace SsaFunction

def blockPredecessors (function : SsaFunction) (id : Nat) : List Nat :=
  (function.blocks.filter fun block => block.successors.contains id).map SsaBlock.id

/-- The definition of a value; a later definition of the same value would replace an earlier. -/
def definition (function : SsaFunction) (id : Nat) : Option SsaInstruction :=
  (function.blocks.flatMap SsaBlock.instructions).reverse.find? fun instruction =>
    instruction.id == id

end SsaFunction

/-! ## LIR -/

/-- A LIR operation together with its `value` slot. -/
inductive LirOp
  | rootsInit | rootsEnter | rootsSync | rootsLeave
  | label (id : Nat)
  | jump (target : Nat)
  | branchZero (target : Nat)
  | ret
  | argument (index : Nat) (type : Ty)
  | constant (value : Literal) (type : Ty)
  | copy
  | convert
  | binary (operator : BinaryOperator) (operandType : Ty)
  | call (callee : String) (type : Ty)
  | dataAddress (name : String) (dataType : Ty)
  | fieldPointer (offset : Int)
  | pointerAdd (scale : Int)
  | load (type : Ty)
  | store (type : Ty)
  deriving DecidableEq, Repr

structure LirInstruction where
  op : LirOp
  dst : Option Nat := none
  type : Option Ty := none
  args : List Nat := []
  deriving DecidableEq, Repr

structure LirFunction where
  name : String
  signature : Signature
  instructions : List LirInstruction
  registerCount : Nat
  rootRegisters : List Nat := []
  deriving DecidableEq, Repr

/-! ## Checks -/

/-- A check either passes or fails with a diagnostic. -/
abbrev Check := Except String

/-- Fail with a message unless a condition holds. -/
def require (condition : Bool) (message : String) : Check Unit :=
  if condition then .ok () else .error message

/-- Run a check on every item of a list, in order. -/
def checkAll {α : Type} (check : α → Check Unit) : List α → Check Unit
  | [] => .ok ()
  | item :: rest => do
      check item
      checkAll check rest

def expectCount {α : Type} (items : List α) (count : Nat) (description : String) : Check Unit :=
  require (items.length == count) s!"invalid {description}: expected {count} operands"

def expectSameType (actual expected : Option Ty) (description : String) : Check Unit :=
  require (actual == expected)
    (description ++ " type mismatch: expected " ++ (expected.map Ty.print).getD "NIL" ++
      ", got " ++ (actual.map Ty.print).getD "NIL")

def integerFitsP (value : Literal) (type : Ty) (pointerBits : Nat) : Bool :=
  match value, type.typeWidth pointerBits with
  | .integer number, some width =>
      if type.signedTypeP then
        decide (-(2 : Int) ^ (width - 1) ≤ number ∧ number ≤ (2 : Int) ^ (width - 1) - 1)
      else decide (0 ≤ number ∧ number ≤ (2 : Int) ^ width - 1)
  | _, _ => false

def literalFitsP (value : Literal) (type : Ty) (pointerBits : Nat) : Bool :=
  match type, value with
  | .f32, .single _ => true
  | .f32, _ => false
  | .f64, .double _ => true
  | .f64, _ => false
  | .boolean, .integer number => number == 0 || number == 1
  | .boolean, _ => false
  | .value, .integer number => decide (0 ≤ number ∧ number < (2 : Int) ^ 64)
  | .value, _ => false
  | type, value => integerFitsP value type pointerBits

section Checks

theorem require_eq_ok {condition : Bool} {message : String} {result : Unit} :
    require condition message = .ok result ↔ condition = true := by
  unfold require
  cases condition <;> simp

theorem bind_eq_ok {α β : Type} {first : Check α} {next : α → Check β} {result : β} :
    (first >>= next) = .ok result ↔ ∃ value, first = .ok value ∧ next value = .ok result := by
  cases first with
  | error message => simp [bind, Except.bind]
  | ok value => simp [bind, Except.bind]

theorem checkAll_eq_ok {α : Type} {check : α → Check Unit} {items : List α} {result : Unit} :
    checkAll check items = .ok result ↔ ∀ item ∈ items, check item = .ok () := by
  induction items with
  | nil => simp [checkAll]
  | cons item rest ih =>
      simp only [checkAll, bind_eq_ok, ih, List.forall_mem_cons]
      exact ⟨fun ⟨_, first, others⟩ => ⟨first, others⟩, fun ⟨first, others⟩ => ⟨(), first, others⟩⟩

theorem expectCount_eq_ok {α : Type} {items : List α} {count : Nat} {description : String}
    {result : Unit} : expectCount items count description = .ok result ↔ items.length = count := by
  simp [expectCount, require_eq_ok]

theorem expectSameType_eq_ok {actual expected : Option Ty} {description : String} {result : Unit} :
    expectSameType actual expected description = .ok result ↔ actual = expected := by
  simp [expectSameType, require_eq_ok]

end Checks

end Stage0
