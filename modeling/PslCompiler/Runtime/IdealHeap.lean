import PslCompiler.Runtime.Vectors

/-! # The ideal heap

What the runtime is for: things with identity that never go away. A string is a list of bytes, a
vector is a list of values, and a package is a list of symbols. Nothing is ever collected, nothing
has an address, and memory does not run out.
-/

namespace Runtime

/-- A value of the ideal heap: a word that is no address, or a thing. -/
inductive Datum
  | word (value : Value)
  | reference (number : Nat)
  deriving DecidableEq, Repr

def Datum.nil : Datum :=
  .word pslNil

inductive Thing
  | pair (first rest : Datum)
  | string (bytes : List UInt8)
  | symbol (name : Datum)
  | package (name : Datum) (symbols : List Nat)
  | closure (code : Value) (captured : Datum)
  | vector (items : List Datum)
  deriving DecidableEq, Repr

namespace Thing

def kind : Thing → ObjectKind
  | pair _ _ => .cons
  | string _ => .string
  | symbol _ => .symbol
  | package _ _ => .package
  | closure _ _ => .closure
  | vector _ => .valueVector

def asPair : Thing → Option (Datum × Datum)
  | pair first rest => some (first, rest)
  | _ => none

def asString : Thing → Option (List UInt8)
  | string bytes => some bytes
  | _ => none

def asSymbol : Thing → Option Datum
  | symbol name => some name
  | _ => none

def asPackage : Thing → Option (Datum × List Nat)
  | package name symbols => some (name, symbols)
  | _ => none

def asClosure : Thing → Option (Value × Datum)
  | closure code captured => some (code, captured)
  | _ => none

def asVector : Thing → Option (List Datum)
  | vector items => some items
  | _ => none

end Thing

structure IdealHeap where
  things : List Thing := []
  rootSet : RootSet Datum := { currentValues := (.word 0#64, .word 0#64) }

namespace IdealHeap

/-- The thing that a value refers to. -/
def thing (heap : IdealHeap) : Datum → Except Fault Thing
  | .word _ => .error .abort
  | .reference number =>
      match heap.things[number]? with
      | none => .error .abort
      | some thing => .ok thing

/-- What a thing of the right kind consists of. -/
def expect {α : Type} (heap : IdealHeap) (value : Datum) (part : Thing → Option α) :
    Except Fault α := do
  match part (← heap.thing value) with
  | none => throw .abort
  | some found => return found

/-- Make a thing. -/
def add (heap : IdealHeap) (thing : Thing) : Datum × IdealHeap :=
  (.reference heap.things.length, { heap with things := heap.things ++ [thing] })

/-- Change the thing that a value refers to. -/
def put (heap : IdealHeap) (value : Datum) (thing : Thing) : IdealHeap :=
  match value with
  | .word _ => heap
  | .reference number => { heap with things := heap.things.set number thing }

def kind (heap : IdealHeap) (value : Datum) : Except Fault ObjectKind := do
  return (← heap.thing value).kind

def car (heap : IdealHeap) (value : Datum) : Except Fault Datum :=
  if value = .nil then .ok .nil else do return (← heap.expect value Thing.asPair).1

def cdr (heap : IdealHeap) (value : Datum) : Except Fault Datum :=
  if value = .nil then .ok .nil else do return (← heap.expect value Thing.asPair).2

def string (heap : IdealHeap) (value : Datum) : Except Fault (List UInt8) :=
  heap.expect value Thing.asString

def stringByte (heap : IdealHeap) (value : Datum) (index : Nat) : Except Fault UInt8 := do
  match (← heap.string value)[index]? with
  | none => throw .abort
  | some byte => return byte

def stringSetByte (heap : IdealHeap) (value : Datum) (index : Nat) (byte : UInt8) :
    Except Fault IdealHeap := do
  let bytes ← heap.string value
  if bytes.length ≤ index then throw .abort
  return heap.put value (.string (bytes.set index byte))

def stringsEqual (heap : IdealHeap) (left right : Datum) : Except Fault Bool := do
  let first ← heap.string left
  let second ← heap.string right
  return first = second

def makeSymbol (heap : IdealHeap) (name : Datum) : Except Fault (Datum × IdealHeap) := do
  let _ ← heap.string name
  return heap.add (.symbol name)

def symbolName (heap : IdealHeap) (value : Datum) : Except Fault Datum :=
  heap.expect value Thing.asSymbol

def makePackage (heap : IdealHeap) (name : Datum) : Except Fault (Datum × IdealHeap) := do
  let _ ← heap.string name
  return heap.add (.package name [])

def package (heap : IdealHeap) (value : Datum) : Except Fault (Datum × List Nat) :=
  heap.expect value Thing.asPackage

/-- The first of some symbols whose name has certain bytes. -/
def symbolNamed (heap : IdealHeap) (bytes : List UInt8) : List Nat → Except Fault (Option Nat)
  | [] => .ok none
  | number :: rest => do
      let name ← heap.symbolName (.reference number)
      if (← heap.string name) = bytes then return some number
      heap.symbolNamed bytes rest

/-- The symbol of a package with a name. A new symbol becomes the first one of the package. -/
def intern (heap : IdealHeap) (value name : Datum) : Except Fault (Datum × IdealHeap) := do
  let (packageName, symbols) ← heap.package value
  let bytes ← heap.string name
  match ← heap.symbolNamed bytes symbols with
  | some number => return (.reference number, heap)
  | none =>
      let (symbol, grown) := heap.add (.symbol name)
      return (symbol, grown.put value (.package packageName (heap.things.length :: symbols)))

def closure (heap : IdealHeap) (value : Datum) : Except Fault (Value × Datum) :=
  heap.expect value Thing.asClosure

def vector (heap : IdealHeap) (value : Datum) : Except Fault (List Datum) :=
  heap.expect value Thing.asVector

def vectorRef (heap : IdealHeap) (value : Datum) (index : Nat) : Except Fault Datum := do
  match (← heap.vector value)[index]? with
  | none => throw .abort
  | some item => return item

def vectorSet (heap : IdealHeap) (value : Datum) (index : Nat) (item : Datum) :
    Except Fault IdealHeap := do
  let items ← heap.vector value
  if items.length ≤ index then throw .abort
  return heap.put value (.vector (items.set index item))

def vectorPush (heap : IdealHeap) (value item : Datum) : Except Fault (Nat × IdealHeap) := do
  let items ← heap.vector value
  return (items.length, heap.put value (.vector (items ++ [item])))

end IdealHeap

end Runtime
