import PslCompiler.Heaps.Agreement
import PslCompiler.Runtime.IdealHeap

/-! # Programs over the runtime

A program calls the runtime and keeps every value that it still needs in a root: in the array of a
linked frame, in a permanent array or in a handle. It sees lengths, bytes, kinds, tokens and the
results of comparisons, and never an address.
-/

namespace Runtime

/-- What a program can call, with the arguments that are not values. -/
inductive EntryPoint
  | move
  | kind
  | eq
  | nilP
  | truthy
  | fixnumP
  | unboxFixnum
  | cons (precise : Bool)
  | car
  | cdr
  | makeString (precise : Bool) (length : Nat) (fill : UInt8)
  | makeStringFromBytes (precise : Bool) (address : Nat) (bytes : List UInt8)
  | stringLength
  | stringByte (index : Nat)
  | stringSetByte (index : Nat) (byte : UInt8)
  | stringsEqual
  | makeSymbol (precise : Bool)
  | symbolName
  | makePackage (precise : Bool)
  | packageName
  | intern (precise : Bool)
  | makeClosure (precise : Bool) (code : Value)
  | enterClosure (root parameters : Nat)
  | values2
  | nthValue (index : Nat)
  | valueCount
  | makeValueVector (length : Nat)
  | valueVectorLength
  | valueVectorRef (index : Nat)
  | valueVectorSet (index : Nat)
  | valueVectorPush
  | valueHandleOpen
  | valueHandleGet (token : Nat)
  | valueHandleSet (token : Nat)
  | valueHandleClose (token : Nat)
  | liveValueHandles
  | pushRoots (root : Nat)
  | popRoots (root : Nat)
  | registerPermanentRoots (array : Nat)
  | collect (precise : Bool)
  deriving DecidableEq, Repr

/-- What a program sees of a result. -/
inductive Observation
  | nothing
  | number (value : Int)
  | truth (value : Bool)
  | kind (value : ObjectKind)
  | code (value : Value)
  deriving DecidableEq, Repr

/-- A value that a call gives back, and what the program sees of the call. -/
structure Reply (V : Type) where
  value : V
  seen : Observation := .nothing

/-! ## The runtime -/

/-- A constructor that finds its arguments gives the new value to the program. -/
def returned {V H : Type} (result : V × H) : Reply V × H :=
  ({ value := result.1 }, result.2)

/-- A call that the program learns from. -/
def observed {H : Type} (heap : H) (seen : Observation) : Reply Value × H :=
  ({ value := pslNil, seen := seen }, heap)

/-- A call of the runtime. -/
def perform (environment : Environment) (heap : Heap) :
    EntryPoint → List Value → Except Fault (Reply Value × Heap)
  | .move, [value] => return ({ value := value }, heap)
  | .kind, [value] => return observed heap (.kind (← kind heap value))
  | .eq, [left, right] => return observed heap (.truth (eq left right))
  | .nilP, [value] => return observed heap (.truth (nilP value))
  | .truthy, [value] => return observed heap (.truth (truthy value))
  | .fixnumP, [value] => return observed heap (.truth (fixnumP value))
  | .unboxFixnum, [value] => return observed heap (.number (← unboxFixnum value))
  | .cons precise, [first, rest] => return returned (← makeCons environment precise first rest heap)
  | .car, [pair] => return ({ value := ← car heap pair }, heap)
  | .cdr, [pair] => return ({ value := ← cdr heap pair }, heap)
  | .makeString precise length fill, [] =>
      return returned (← makeString environment precise length fill heap)
  | .makeStringFromBytes precise address bytes, [] =>
      return returned (← copyStringBytes environment precise address bytes heap)
  | .stringLength, [value] => return observed heap (.number (← stringLength heap value))
  | .stringByte index, [value] =>
      return observed heap (.number (← stringByte heap value index).toNat)
  | .stringSetByte index byte, [value] =>
      return observed (← stringSetByte heap value index byte) .nothing
  | .stringsEqual, [left, right] =>
      return observed heap (.truth (← stringsEqual heap.objects left right))
  | .makeSymbol precise, [name] => return returned (← makeSymbol environment precise name heap)
  | .symbolName, [symbol] => return ({ value := ← symbolName heap symbol }, heap)
  | .makePackage precise, [name] => return returned (← makePackage environment precise name heap)
  | .packageName, [package] => return ({ value := ← packageName heap package }, heap)
  | .intern precise, [package, name] =>
      return returned (← internSymbol environment precise package name heap)
  | .makeClosure precise code, [captured] =>
      return returned (← makeClosure environment precise code captured heap)
  | .enterClosure root parameters, [closure, argument] => do
      let (code, captured, heap) ← callClosureEntry heap root closure argument
      -- the code links its two parameters before it does anything else
      let set ← heap.rootSet.pushRoots parameters [captured, argument]
      return observed { heap with rootSet := set } (.code code)
  | .values2, [first, second] => return returned (← values2 environment first second heap)
  | .nthValue index, [] => return ({ value := heap.rootSet.nthValue pslNil index }, heap)
  | .valueCount, [] => return observed heap (.number heap.rootSet.valueCount)
  | .makeValueVector length, [initial] =>
      return returned (← makeValueVector environment length initial heap)
  | .valueVectorLength, [vector] => return observed heap (.number (← valueVectorLength heap vector))
  | .valueVectorRef index, [vector] =>
      return ({ value := ← valueVectorRef heap vector index }, heap)
  | .valueVectorSet index, [vector, item] =>
      return returned (← valueVectorSet heap vector index item)
  | .valueVectorPush, [vector, item] => do
      let (index, heap) ← valueVectorPush environment vector item heap
      return observed heap (.number index)
  | .valueHandleOpen, [] => do
      let (token, heap) ← valueHandleOpen environment heap
      return observed heap (.number token)
  | .valueHandleGet token, [] => return ({ value := ← heap.rootSet.valueHandleGet token }, heap)
  | .valueHandleSet token, [value] => do
      let set ← heap.rootSet.valueHandleSet token value
      return observed { heap with rootSet := set } .nothing
  | .valueHandleClose token, [] => do
      let set ← heap.rootSet.valueHandleClose token
      return observed { heap with rootSet := set } .nothing
  | .liveValueHandles, [] => return observed heap (.number heap.rootSet.liveValueHandles)
  | .pushRoots root, values => do
      let set ← heap.rootSet.pushRoots root values
      return observed { heap with rootSet := set } .nothing
  | .popRoots root, [] => return observed (← heap.popRoots root) .nothing
  | .registerPermanentRoots array, values => do
      if (heap.rootSet.permanentArray array).isSome then throw .misuse
      let heap ← registerPermanentRoots environment (.registered array values) heap
      return observed heap .nothing
  | .collect precise, [] => return observed (← collectObjects environment (!precise) heap) .nothing
  | _, _ => .error .misuse

/-! ## The ideal heap -/

/-- A call that the program learns from. -/
def IdealHeap.observed (heap : IdealHeap) (seen : Observation) : Reply Datum × IdealHeap :=
  ({ value := .nil, seen := seen }, heap)

/-- The meaning of a word for the program. A thing is not `NIL` and not a fixnum. -/
def Datum.asWord : Datum → Option Value
  | .word value => some value
  | .reference _ => none

/-- The meaning of a call. -/
def IdealHeap.perform (heap : IdealHeap) :
    EntryPoint → List Datum → Except Fault (Reply Datum × IdealHeap)
  | .move, [value] => return ({ value := value }, heap)
  | .kind, [value] => return heap.observed (.kind (← heap.kind value))
  | .eq, [left, right] => return heap.observed (.truth (left = right))
  | .nilP, [value] => return heap.observed (.truth (value = .nil))
  | .truthy, [value] => return heap.observed (.truth (value ≠ .nil))
  | .fixnumP, [value] => return heap.observed (.truth (value.asWord.any fixnumP))
  | .unboxFixnum, [value] =>
      match value with
      | .word word => return heap.observed (.number (← unboxFixnum word))
      | .reference _ => throw .abort
  | .cons _, [first, rest] => return returned (heap.add (.pair first rest))
  | .car, [pair] => return ({ value := ← heap.car pair }, heap)
  | .cdr, [pair] => return ({ value := ← heap.cdr pair }, heap)
  | .makeString _ length fill, [] => return returned (heap.add (.string (List.replicate length fill)))
  | .makeStringFromBytes _ address bytes, [] => do
      if bytes.length ≠ 0 ∧ address = 0 then throw .abort
      return returned (heap.add (.string bytes))
  | .stringLength, [value] => return heap.observed (.number (← heap.string value).length)
  | .stringByte index, [value] =>
      return heap.observed (.number (← heap.stringByte value index).toNat)
  | .stringSetByte index byte, [value] =>
      return (← heap.stringSetByte value index byte).observed .nothing
  | .stringsEqual, [left, right] => return heap.observed (.truth (← heap.stringsEqual left right))
  | .makeSymbol _, [name] => return returned (← heap.makeSymbol name)
  | .symbolName, [symbol] => return ({ value := ← heap.symbolName symbol }, heap)
  | .makePackage _, [name] => return returned (← heap.makePackage name)
  | .packageName, [package] => return ({ value := (← heap.package package).1 }, heap)
  | .intern _, [package, name] => return returned (← heap.intern package name)
  | .makeClosure _ code, [captured] => do
      if code = 0#64 then throw .abort
      return returned (heap.add (.closure code captured))
  | .enterClosure root parameters, [closure, argument] => do
      let set ← heap.rootSet.pushRoots root [closure, argument]
      let (code, captured) ← heap.closure closure
      let set ← set.pushRoots parameters [captured, argument]
      return IdealHeap.observed { heap with rootSet := set } (.code code)
  | .values2, [first, second] =>
      return ({ value := first }, { heap with rootSet := (heap.rootSet.values2 first second).2 })
  | .nthValue index, [] => return ({ value := heap.rootSet.nthValue .nil index }, heap)
  | .valueCount, [] => return heap.observed (.number heap.rootSet.valueCount)
  | .makeValueVector length, [initial] =>
      return returned (heap.add (.vector (List.replicate length initial)))
  | .valueVectorLength, [vector] => return heap.observed (.number (← heap.vector vector).length)
  | .valueVectorRef index, [vector] => return ({ value := ← heap.vectorRef vector index }, heap)
  | .valueVectorSet index, [vector, item] =>
      return returned (item, ← heap.vectorSet vector index item)
  | .valueVectorPush, [vector, item] => do
      let (index, heap) ← heap.vectorPush vector item
      return heap.observed (.number index)
  | .valueHandleOpen, [] => do
      let (token, set) ← heap.rootSet.valueHandleOpen .nil
      return IdealHeap.observed { heap with rootSet := set } (.number token)
  | .valueHandleGet token, [] => return ({ value := ← heap.rootSet.valueHandleGet token }, heap)
  | .valueHandleSet token, [value] => do
      let set ← heap.rootSet.valueHandleSet token value
      return IdealHeap.observed { heap with rootSet := set } .nothing
  | .valueHandleClose token, [] => do
      let set ← heap.rootSet.valueHandleClose token
      return IdealHeap.observed { heap with rootSet := set } .nothing
  | .liveValueHandles, [] => return heap.observed (.number heap.rootSet.liveValueHandles)
  | .pushRoots root, values => do
      let set ← heap.rootSet.pushRoots root values
      return IdealHeap.observed { heap with rootSet := set } .nothing
  | .popRoots root, [] => do
      let set ← heap.rootSet.popRoots root
      return IdealHeap.observed { heap with rootSet := set } .nothing
  | .registerPermanentRoots array, values => do
      if (heap.rootSet.permanentArray array).isSome then throw .misuse
      return IdealHeap.observed
        { heap with rootSet := heap.rootSet.registerPermanentRoots (.registered array values) } .nothing
  | .collect _, [] => return heap.observed .nothing
  | _, _ => .error .misuse

/-! ## Runs -/

/-- A place of a program: an index of the array of a linked frame, or of a permanent array. -/
inductive Place
  | frame (root index : Nat)
  | permanent (array index : Nat)
  deriving DecidableEq, Repr

/-- An argument: a word that is no address, or the value of a place. -/
inductive Operand
  | immediate (value : Value)
  | place (place : Place)
  deriving DecidableEq, Repr

/-- A word that cannot be an address of an object. -/
def immediateP (value : Value) : Bool :=
  value = 0#64 ∨ value &&& 7#64 ≠ 0#64

namespace RootSet

variable {V : Type}

def load (set : RootSet V) : Place → Except Fault V
  | .frame root index => set.rootValue root index
  | .permanent array index =>
      orFault .misuse ((set.permanentArray array).bind fun values => values[index]?)

def store (set : RootSet V) (place : Place) (value : V) : Except Fault (RootSet V) := do
  let _ ← set.load place
  match place with
  | .frame root index => return set.setRootValue root index value
  | .permanent array index => return set.setPermanentValue array index value

def operand (set : RootSet V) (word : Value → V) : Operand → Except Fault V
  | .immediate value => if immediateP value then .ok (word value) else .error .misuse
  | .place place => set.load place

def operands (set : RootSet V) (word : Value → V) : List Operand → Except Fault (List V)
  | [] => .ok []
  | operand :: rest => do
      let value ← set.operand word operand
      return value :: (← set.operands word rest)

end RootSet

/-- A call with its arguments, and the place where the program keeps the result. -/
structure Instruction where
  entry : EntryPoint
  arguments : List Operand := []
  destination : Option Place := none
  deriving DecidableEq, Repr

/-- One step of a program. -/
def step (environment : Environment) (instruction : Instruction) (heap : Heap) :
    Except Fault (Observation × Heap) := do
  let arguments ← heap.rootSet.operands id instruction.arguments
  let (reply, heap) ← perform environment heap instruction.entry arguments
  match instruction.destination with
  | none => return (reply.seen, heap)
  | some place => return (reply.seen, { heap with rootSet := ← heap.rootSet.store place reply.value })

def IdealHeap.step (instruction : Instruction) (heap : IdealHeap) :
    Except Fault (Observation × IdealHeap) := do
  let arguments ← heap.rootSet.operands .word instruction.arguments
  let (reply, heap) ← heap.perform instruction.entry arguments
  match instruction.destination with
  | none => return (reply.seen, heap)
  | some place => return (reply.seen, { heap with rootSet := ← heap.rootSet.store place reply.value })

/-- What is seen of a program of the runtime, and how it ends. -/
def run (environment : Environment) : List Instruction → Heap → List Observation × Except Fault Heap :=
  Heaps.observe (step environment)

def IdealHeap.run : List Instruction → IdealHeap → List Observation × Except Fault IdealHeap :=
  Heaps.observe IdealHeap.step

end Runtime
