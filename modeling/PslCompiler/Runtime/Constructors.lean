import PslCompiler.Runtime.Collector

/-! # Constructors and accessors of the hosted runtime

A constructor links a frame with its arguments while it allocates. A precise one lets a collection
see the registered roots only, the other one the stack as well.
-/

namespace Runtime

/-! ## Fields of objects -/

/-- Overwrite a part of a block. -/
def overwrite {α : Type} (contents : List α) (start : Nat) (items : List α) :
    Except Fault (List α) :=
  if start + items.length ≤ contents.length then
    .ok (contents.take start ++ items ++ contents.drop (start + items.length))
  else .error .undefined

namespace Object

def setBytes (object : Object) (start : Nat) (items : List UInt8) : Except Fault Object :=
  match object.trailing with
  | .values _ => .error .undefined
  | .bytes contents => do return { object with trailing := .bytes (← overwrite contents start items) }

def setItems (object : Object) (start : Nat) (items : List Value) : Except Fault Object :=
  match object.trailing with
  | .bytes _ => .error .undefined
  | .values contents => do
      return { object with trailing := .values (← overwrite contents start items) }

/-- The first bytes behind the header. -/
def firstBytes (object : Object) (count : Nat) : Except Fault (List UInt8) :=
  match object.trailing with
  | .values _ => .error .undefined
  | .bytes contents =>
      if contents.length < count then .error .undefined else .ok (contents.take count)

def byteAt (object : Object) (index : Nat) : Except Fault UInt8 :=
  match object.trailing with
  | .values _ => .error .undefined
  | .bytes contents =>
      match contents[index]? with
      | none => .error .undefined
      | some byte => .ok byte

/-- The first items behind the header. -/
def firstItems (object : Object) (count : Nat) : Except Fault (List Value) :=
  match object.trailing with
  | .bytes _ => .error .undefined
  | .values contents =>
      if contents.length < count then .error .undefined else .ok (contents.take count)

def itemAt (object : Object) (index : Nat) : Except Fault Value :=
  match object.trailing with
  | .bytes _ => .error .undefined
  | .values contents =>
      match contents[index]? with
      | none => .error .undefined
      | some item => .ok item

end Object

namespace Heap

/-- Change the object that a pointer leads to. -/
def change (heap : Heap) (pointer : Value) (changed : Object → Except Fault Object) :
    Except Fault Heap := do
  let object ← dereference heap.objects pointer
  let object ← changed object
  return { heap with objects := ← assign heap.objects pointer fun _ => object }

def setSlot (heap : Heap) (pointer : Value) (index : Fin 3) (value : Value) : Except Fault Heap :=
  heap.change pointer fun object =>
    .ok { object with slots := Function.update object.slots index value }

def setLength (heap : Heap) (pointer : Value) (length : Nat) : Except Fault Heap :=
  heap.change pointer fun object => .ok { object with length := length }

def pushLocal (heap : Heap) (values : List Value) : Heap :=
  { heap with rootSet := heap.rootSet.pushLocal values }

def popRoots (heap : Heap) (root : Nat) : Except Fault Heap := do
  return { heap with rootSet := ← heap.rootSet.popRoots root }

end Heap

/-! ## Conses -/

def makeCons (environment : Environment) (precise : Bool) (first rest : Value) (heap : Heap) :
    Except Fault (Value × Heap) := do
  let root := heap.rootSet.localRoot
  let (pair, heap) ← allocate environment precise .cons 0 (heap.pushLocal [first, rest])
  let heap ← heap.setSlot pair 0 first
  let heap ← heap.setSlot pair 1 rest
  let heap ← heap.popRoots root
  return (pair, heap)

def car (heap : Heap) (pair : Value) : Except Fault Value :=
  if pair = pslNil then .ok pslNil
  else do return (← expectObject heap.objects pair (some .cons)).slots 0

def cdr (heap : Heap) (pair : Value) : Except Fault Value :=
  if pair = pslNil then .ok pslNil
  else do return (← expectObject heap.objects pair (some .cons)).slots 1

/-! ## Strings -/

def makeString (environment : Environment) (precise : Bool) (length : Nat) (fill : UInt8)
    (heap : Heap) : Except Fault (Value × Heap) := do
  if length = sizeMax then throw .memory
  let (string, heap) ← allocate environment precise .string (length + 1) heap
  let heap ← heap.setLength string length
  let heap ← heap.change string fun object => object.setBytes 0 (List.replicate length fill)
  let heap ← heap.change string fun object => object.setBytes length [0]
  return (string, heap)

/-- Copy bytes that stand at an address. -/
def copyStringBytes (environment : Environment) (precise : Bool) (address : Nat)
    (bytes : List UInt8) (heap : Heap) : Except Fault (Value × Heap) := do
  if bytes.length ≠ 0 ∧ address = 0 then throw .abort
  let (value, heap) ← makeString environment precise bytes.length 0 heap
  if bytes.length = 0 then return (value, heap)
  let string ← expectObject heap.objects value (some .string)
  let heap ← heap.change string.address fun object => object.setBytes 0 bytes
  return (value, heap)

def stringLength (heap : Heap) (value : Value) : Except Fault Nat := do
  return (← expectObject heap.objects value (some .string)).length

def stringByte (heap : Heap) (value : Value) (index : Nat) : Except Fault UInt8 := do
  let string ← expectObject heap.objects value (some .string)
  if string.length ≤ index then throw .abort
  string.byteAt index

def stringSetByte (heap : Heap) (value : Value) (index : Nat) (byte : UInt8) :
    Except Fault Heap := do
  let string ← expectObject heap.objects value (some .string)
  if string.length ≤ index then throw .abort
  heap.change string.address fun object => object.setBytes index [byte]

def stringsEqual (objects : List Object) (left right : Value) : Except Fault Bool := do
  let a ← expectObject objects left (some .string)
  let b ← expectObject objects right (some .string)
  if a.length ≠ b.length then return false
  return (← a.firstBytes a.length) = (← b.firstBytes a.length)

/-! ## Symbols and packages -/

def makeSymbol (environment : Environment) (precise : Bool) (name : Value) (heap : Heap) :
    Except Fault (Value × Heap) := do
  let _ ← expectObject heap.objects name (some .string)
  let root := heap.rootSet.localRoot
  let (symbol, heap) ← allocate environment precise .symbol 0 (heap.pushLocal [name])
  let heap ← heap.setSlot symbol 0 name
  let heap ← heap.setSlot symbol 1 pslNil
  let heap ← heap.setSlot symbol 2 pslNil
  let heap ← heap.popRoots root
  return (symbol, heap)

def symbolName (heap : Heap) (symbol : Value) : Except Fault Value := do
  return (← expectObject heap.objects symbol (some .symbol)).slots 0

def makePackage (environment : Environment) (precise : Bool) (name : Value) (heap : Heap) :
    Except Fault (Value × Heap) := do
  let _ ← expectObject heap.objects name (some .string)
  let root := heap.rootSet.localRoot
  let (package, heap) ← allocate environment precise .package 0 (heap.pushLocal [name])
  let heap ← heap.setSlot package 0 name
  let heap ← heap.setSlot package 1 pslNil
  let heap ← heap.popRoots root
  return (package, heap)

def packageName (heap : Heap) (package : Value) : Except Fault Value := do
  return (← expectObject heap.objects package (some .package)).slots 0

/-- The walk along the symbols of a package. More symbols than objects would be a cycle. -/
def findInterned (objects : List Object) (name : Value) : Nat → Value → Except Fault (Option Value)
  | 0, _ => .error .undefined
  | steps + 1, current =>
      if current = pslNil then .ok none
      else do
        let symbol ← expectObject objects current (some .symbol)
        if ← stringsEqual objects (symbol.slots 0) name then return some current
        findInterned objects name steps (symbol.slots 2)

/-- The end of an interning: a new symbol becomes the head of the chain of its package. -/
def linkSymbol (root : Nat) (packageValue symbolValue : Value) (heap : Heap) :
    Except Fault (Value × Heap) := do
  let package ← expectObject heap.objects packageValue (some .package)
  let symbol ← expectObject heap.objects symbolValue (some .symbol)
  let heap ← heap.setSlot symbol.address 1 packageValue
  let current ← dereference heap.objects package.address
  let heap ← heap.setSlot symbol.address 2 (current.slots 1)
  let heap ← heap.setSlot package.address 1 symbolValue
  let heap ← heap.popRoots root
  return (symbolValue, heap)

def internSymbol (environment : Environment) (precise : Bool) (packageValue name : Value)
    (heap : Heap) : Except Fault (Value × Heap) := do
  let package ← expectObject heap.objects packageValue (some .package)
  let _ ← expectObject heap.objects name (some .string)
  match ← findInterned heap.objects name (heap.objects.length + 1) (package.slots 1) with
  | some symbol => return (symbol, heap)
  | none =>
      let root := heap.rootSet.localRoot
      let (symbolValue, heap) ←
        makeSymbol environment precise name (heap.pushLocal [packageValue, name])
      linkSymbol root packageValue symbolValue heap

/-! ## Closures -/

def makeClosure (environment : Environment) (precise : Bool) (code captured : Value)
    (heap : Heap) : Except Fault (Value × Heap) := do
  if code = 0#64 then throw .abort
  let root := heap.rootSet.localRoot
  let (closure, heap) ← allocate environment precise .closure 0 (heap.pushLocal [captured])
  let heap ← heap.setSlot closure 0 captured
  let heap ← heap.change closure fun object => .ok { object with code := code }
  let heap ← heap.popRoots root
  return (closure, heap)

/-- The call of a closure up to the jump to its code: the frame of the call is linked, and the code
gets the environment and the argument. -/
def callClosureEntry (heap : Heap) (root : Nat) (closureValue argument : Value) :
    Except Fault (Value × Value × Heap) := do
  let set ← heap.rootSet.pushRoots root [closureValue, argument]
  let closure ← expectObject heap.objects closureValue (some .closure)
  return (closure.code, closure.slots 0, { heap with rootSet := set })

/-! ## Roots, handles and multiple values -/

/-- The size of the record of a root frame or of a handle. -/
def sizeofRecord : Nat := 24

def registerPermanentRoots (environment : Environment) (array : PermanentRoots Value)
    (heap : Heap) : Except Fault Heap := do
  let heap ← heap.request environment sizeofRecord
  return { heap with rootSet := heap.rootSet.registerPermanentRoots array }

def valueHandleOpen (environment : Environment) (heap : Heap) : Except Fault (Nat × Heap) := do
  let (token, set) ← heap.rootSet.valueHandleOpen pslNil
  let heap ← heap.request environment sizeofRecord
  return (token, { heap with rootSet := set })

def values2 (environment : Environment) (first second : Value) (heap : Heap) :
    Except Fault (Value × Heap) := do
  let heap ←
    if heap.rootSet.initialized then .ok heap else heap.request environment sizeofRecord
  let (value, set) := heap.rootSet.values2 first second
  return (value, { heap with rootSet := set })

end Runtime
