import Mathlib.Data.List.Basic
import Mathlib.Logic.Function.Basic
import Mathlib.Tactic

/-! # Values, objects and root sets of the hosted runtime

A value is a word of 64 bits. Fixnums have bit 0 set, addresses of objects have three low zero bits,
and `NIL` and `T` are neither. An object is found by walking the list of all objects. The roots are
frames that the program links, arrays that are registered for good, and handles.
-/

namespace Runtime

/-! ## Values -/

abbrev Value := BitVec 64

def pslNil : Value := 2#64

def pslTrue : Value := 6#64

/-- Why a call of the runtime does not return. All of them are `abort` in the source, except an
access outside of the objects, which C leaves undefined. -/
inductive Fault
  /-- A check of an argument has failed. -/
  | abort
  /-- Memory, a size or a token has run out. -/
  | memory
  /-- An access outside of the objects or of an array, or a walk that does not end. -/
  | undefined
  /-- The program has named a root that it does not have. -/
  | misuse
  deriving DecidableEq, Repr

/-- A value that has to be there. -/
def orFault {V : Type} (fault : Fault) : Option V → Except Fault V
  | none => .error fault
  | some value => .ok value

def sizeMax : Nat := 2 ^ 64 - 1

def fixnum (number : Int) : Except Fault Value :=
  if number < -(2 ^ 62) ∨ 2 ^ 62 ≤ number then .error .abort
  else .ok (BitVec.ofInt 64 number <<< 1 ||| 1#64)

def fixnumP (value : Value) : Bool :=
  value &&& 1#64 ≠ 0#64

def unboxFixnum (value : Value) : Except Fault Int :=
  if fixnumP value = false then .error .abort
  else
    let payload := value >>> 1
    if payload.toNat < 2 ^ 62 then .ok payload.toNat
    else .ok (-1 - ((~~~payload &&& (1#64 <<< 63 - 1#64)).toNat : Int))

def nilP (value : Value) : Bool :=
  value = pslNil

def truthy (value : Value) : Bool :=
  value ≠ pslNil

def eq (left right : Value) : Bool :=
  left = right

/-! ## Objects -/

inductive ObjectKind
  | cons
  | string
  | symbol
  | package
  | closure
  | valueVector
  | valueVectorStorage
  deriving DecidableEq, Repr

/-- The bytes behind the header of an object. Storage reads them as values, and nothing else does. -/
inductive Trailing
  | bytes (contents : List UInt8)
  | values (contents : List Value)
  deriving DecidableEq, Repr

/-- Numerals of three slots. -/
scoped instance slotCount : NeZero 3 := ⟨Nat.succ_ne_zero 2⟩

/-- An object, with the address that the C library has given to it. The list of objects stands for
the `next` links. -/
structure Object where
  address : Value
  kind : ObjectKind
  marked : Bool := false
  length : Nat := 0
  slots : Fin 3 → Value := fun _ => 0#64
  code : Value := 0#64
  trailing : Trailing

/-- The size of an object without the bytes behind it. -/
def sizeofObject : Nat := 56

def sizeofValue : Nat := 8

def findObject (objects : List Object) (value : Value) : Option Object :=
  if value = 0#64 ∨ value &&& 7#64 ≠ 0#64 then none
  else objects.find? fun object => object.address = value

def expectObject (objects : List Object) (value : Value) (kind : Option ObjectKind) :
    Except Fault Object :=
  match findObject objects value with
  | none => .error .abort
  | some object =>
      match kind with
      | none => .ok object
      | some expected => if object.kind ≠ expected then .error .abort else .ok object

/-- What a pointer to an object leads to. -/
def dereference (objects : List Object) (pointer : Value) : Except Fault Object :=
  match objects.find? fun object => object.address = pointer with
  | none => .error .undefined
  | some object => .ok object

/-- Change the object that a pointer leads to. -/
def assign (objects : List Object) (pointer : Value) (change : Object → Object) :
    Except Fault (List Object) := do
  let _ ← dereference objects pointer
  return objects.map fun object => if object.address = pointer then change object else object

/-! ## Root sets -/

section RootSets

variable {V : Type}

/-- A linked frame of roots, known by the address of its record. -/
structure RootFrame (V : Type) where
  root : Nat
  values : List V

/-- An array that is registered for good, by its address, or the static array of multiple values. -/
inductive PermanentRoots (V : Type)
  | registered (array : Nat) (values : List V)
  | currentValues

structure ValueHandle (V : Type) where
  token : Nat
  value : V

/-- The static variables of the runtime that hold roots. -/
structure RootSet (V : Type) where
  roots : List (RootFrame V) := []
  permanentRoots : List (PermanentRoots V) := []
  valueHandles : List (ValueHandle V) := []
  nextValueHandle : Nat := 1
  valueHandleCount : Nat := 0
  currentValues : V × V
  currentCount : Nat := 0
  initialized : Bool := false

namespace RootSet

def permanentValues (set : RootSet V) : PermanentRoots V → List V
  | .registered _ values => values
  | .currentValues => [set.currentValues.1, set.currentValues.2]

/-- The registered roots in the order in which a collection marks them. -/
def values (set : RootSet V) : List V :=
  set.roots.flatMap RootFrame.values ++ set.permanentRoots.flatMap set.permanentValues ++
    set.valueHandles.map ValueHandle.value

/-- Link a frame. A record that is linked already would close the chain to a cycle. -/
def pushRoots (set : RootSet V) (root : Nat) (values : List V) : Except Fault (RootSet V) :=
  if root ∈ set.roots.map RootFrame.root then .error .misuse
  else .ok { set with roots := ⟨root, values⟩ :: set.roots }

def popRoots (set : RootSet V) (root : Nat) : Except Fault (RootSet V) :=
  match set.roots with
  | [] => .error .abort
  | frame :: rest => if frame.root ≠ root then .error .abort else .ok { set with roots := rest }

/-- An address on the stack that no linked frame has. -/
def localRoot (set : RootSet V) : Nat :=
  (set.roots.map RootFrame.root).foldr max 0 + 1

/-- Link the frame of a local variable. -/
def pushLocal (set : RootSet V) (values : List V) : RootSet V :=
  { set with roots := ⟨set.localRoot, values⟩ :: set.roots }

/-- The linked frame of a record. -/
def frame (set : RootSet V) (root : Nat) : Option (RootFrame V) :=
  set.roots.find? fun frame => frame.root = root

/-- The value at an index of the array of a frame. -/
def rootValue (set : RootSet V) (root index : Nat) : Except Fault V :=
  orFault .misuse ((set.frame root).bind fun frame => frame.values[index]?)

/-- Store a value in the array of a frame. -/
def setRootValue (set : RootSet V) (root index : Nat) (value : V) : RootSet V :=
  { set with
    roots := set.roots.map fun frame =>
      if frame.root = root then { frame with values := frame.values.set index value } else frame }

/-- The permanent array at an address. -/
def permanentArray (set : RootSet V) (array : Nat) : Option (List V) :=
  set.permanentRoots.findSome? fun
    | .registered place values => if place = array then some values else none
    | .currentValues => none

def setPermanentValue (set : RootSet V) (array index : Nat) (value : V) : RootSet V :=
  { set with
    permanentRoots := set.permanentRoots.map fun
      | .registered place values =>
          if place = array then .registered place (values.set index value)
          else .registered place values
      | .currentValues => .currentValues }

def registerPermanentRoots (set : RootSet V) (array : PermanentRoots V) : RootSet V :=
  { set with permanentRoots := array :: set.permanentRoots }

def findValueHandle (set : RootSet V) (token : Nat) : Except Fault (ValueHandle V) :=
  if token = 0 then .error .abort
  else orFault .abort (set.valueHandles.find? fun handle => handle.token = token)

def valueHandleOpen (set : RootSet V) (nil : V) : Except Fault (Nat × RootSet V) :=
  if set.nextValueHandle = sizeMax then .error .memory
  else
    .ok (set.nextValueHandle,
      { set with
        nextValueHandle := set.nextValueHandle + 1
        valueHandles := ⟨set.nextValueHandle, nil⟩ :: set.valueHandles
        valueHandleCount := set.valueHandleCount + 1 })

def valueHandleGet (set : RootSet V) (token : Nat) : Except Fault V := do
  return (← set.findValueHandle token).value

/-- Store a value in the first handle of a token. -/
def setFirst (token : Nat) (value : V) : List (ValueHandle V) → List (ValueHandle V)
  | [] => []
  | handle :: rest =>
      if handle.token = token then { handle with value := value } :: rest
      else handle :: setFirst token value rest

def valueHandleSet (set : RootSet V) (token : Nat) (value : V) : Except Fault (RootSet V) := do
  let _ ← set.findValueHandle token
  return { set with valueHandles := setFirst token value set.valueHandles }

/-- Unlink the first handle of a token. -/
def unlinkFirst (token : Nat) : List (ValueHandle V) → Option (List (ValueHandle V))
  | [] => none
  | handle :: rest =>
      if handle.token = token then some rest
      else (unlinkFirst token rest).map (handle :: ·)

def valueHandleClose (set : RootSet V) (token : Nat) : Except Fault (RootSet V) := do
  let handles ← orFault .abort (unlinkFirst token set.valueHandles)
  if token = 0 then throw .abort
  return { set with
    valueHandles := handles
    valueHandleCount := set.valueHandleCount - 1 }

def liveValueHandles (set : RootSet V) : Nat :=
  set.valueHandleCount

def ensureValuesRoots (set : RootSet V) : RootSet V :=
  if set.initialized then set
  else { set.registerPermanentRoots .currentValues with initialized := true }

def values2 (set : RootSet V) (first second : V) : V × RootSet V :=
  (first, { set.ensureValuesRoots with currentValues := (first, second), currentCount := 2 })

def nthValue (set : RootSet V) (nil : V) (index : Nat) : V :=
  if index < set.currentCount then
    if index = 0 then set.currentValues.1 else set.currentValues.2
  else nil

def valueCount (set : RootSet V) : Nat :=
  set.currentCount

end RootSet

end RootSets

/-- The static variables of the runtime, and how many requests the C library has had. -/
structure Heap where
  objects : List Object := []
  rootSet : RootSet Value := { currentValues := (0#64, 0#64) }
  objectCount : Nat := 0
  collectionLimit : Nat := 256
  requests : Nat := 0

/-- The kind of an object. -/
def kind (heap : Heap) (value : Value) : Except Fault ObjectKind := do
  return (← expectObject heap.objects value none).kind

end Runtime
