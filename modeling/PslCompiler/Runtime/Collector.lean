import PslCompiler.Runtime.Objects

/-! # The collector of the hosted runtime

A collection marks the objects that the registered roots name, with the words of the machine stack
as further roots when it is conservative. A work list holds each marked object once, in an array with
room for all objects. The sweep unlinks what is not marked.
-/

namespace Runtime

/-! ## The C library and the machine stack -/

/-- The machine stack during a collection: where the collector's own frame begins, where the stack
ends, and the words in between. -/
structure StackImage where
  marker : Nat
  top : Nat
  word : Nat → Value

/-- The first aligned address of the scan. -/
def StackImage.start (image : StackImage) : Nat :=
  (image.marker + 7) / 8 * 8

/-- What the runtime gets from outside: an answer to each request for memory, by the number of the
request, and the stack at that time. A block that is given out is not in use. -/
structure Environment where
  place : (request : Nat) → (taken : List Value) → (size : Nat) → Option Value
  stack : (request : Nat) → StackImage
  fresh : ∀ request taken size address, place request taken size = some address →
    address ≠ 0#64 ∧ address ∉ taken
  downward : ∀ request, (stack request).start ≤ (stack request).top

namespace Heap

def addresses (heap : Heap) : List Value :=
  heap.objects.map Object.address

/-- A block whose address nothing looks at. -/
def request (environment : Environment) (heap : Heap) (size : Nat) : Except Fault Heap :=
  match environment.place heap.requests heap.addresses size with
  | none => .error .memory
  | some _ => .ok { heap with requests := heap.requests + 1 }

end Heap

/-! ## Marking -/

/-- The objects with their marks, and the part of the work list that is used. -/
structure Marking where
  objects : List Object
  work : List Value := []

def setMarked (objects : List Object) (address : Value) : List Object :=
  objects.map fun object =>
    if object.address = address then { object with marked := true } else object

def markValue (capacity : Nat) (marking : Marking) (value : Value) : Except Fault Marking :=
  match findObject marking.objects value with
  | none => .ok marking
  | some object =>
      if object.marked then .ok marking
      else if marking.work.length < capacity then
        .ok {
          objects := setMarked marking.objects object.address
          work := marking.work ++ [object.address] }
      else .error .undefined

def markValues (capacity : Nat) (values : List Value) (marking : Marking) :
    Except Fault Marking :=
  values.foldlM (markValue capacity) marking

def markRegisteredRoots (capacity : Nat) (set : RootSet Value) (marking : Marking) :
    Except Fault Marking := do
  let marking ← set.roots.foldlM
    (fun marking frame => markValues capacity frame.values marking) marking
  let marking ← set.permanentRoots.foldlM
    (fun marking array => markValues capacity (set.permanentValues array) marking) marking
  set.valueHandles.foldlM (fun marking handle => markValue capacity marking handle.value) marking

/-- The scan of the stack from an address on, for a number of words that suffices. -/
def markWords (capacity : Nat) (image : StackImage) :
    Nat → Nat → Marking → Except Fault Marking
  | 0, _, marking => .ok marking
  | words + 1, address, marking =>
      if address + sizeofValue ≤ image.top then do
        let marking ← markValue capacity marking (image.word address)
        markWords capacity image words (address + sizeofValue) marking
      else .ok marking

def markStack (capacity : Nat) (image : StackImage) (marking : Marking) : Except Fault Marking :=
  if image.top < image.start then .error .abort
  else markWords capacity image image.top image.start marking

def childSlots : ObjectKind → Except Fault (List (Fin 3))
  | .cons => .ok [0, 1]
  | .string => .ok []
  | .symbol => .ok [0, 1, 2]
  | .package => .ok [0, 1]
  | .closure => .ok [0]
  | .valueVector => .ok [0]
  | .valueVectorStorage => .error .abort

def markChildren (capacity : Nat) (object : Object) (marking : Marking) :
    Except Fault Marking :=
  if object.kind = .valueVectorStorage then
    match object.trailing with
    | .bytes _ => .error .undefined
    | .values items =>
        if items.length < object.length then .error .undefined
        else markValues capacity (items.take object.length) marking
  else do
    let slots ← childSlots object.kind
    markValues capacity (slots.map object.slots) marking

/-- The loop over the work list. An index behind the array would lead out of it. -/
def markWork (capacity : Nat) : Nat → Nat → Marking → Except Fault Marking
  | 0, index, marking => if index < marking.work.length then .error .undefined else .ok marking
  | room + 1, index, marking =>
      if inside : index < marking.work.length then do
        let object ← dereference marking.objects marking.work[index]
        let marking ← markChildren capacity object marking
        markWork capacity room (index + 1) marking
      else .ok marking

/-! ## Sweeping -/

def sweepObjects : List Object → Nat → List Object × Nat
  | [], count => ([], count)
  | object :: rest, count =>
      if object.marked then
        let swept := sweepObjects rest count
        ({ object with marked := false } :: swept.1, swept.2)
      else sweepObjects rest (count - 1)

/-! ## Collection and allocation -/

/-- Mark what the registered roots reach, and what the stack does for a conservative collection. -/
def markObjects (capacity : Nat) (scanStack : Bool) (image : StackImage) (heap : Heap) :
    Except Fault Marking := do
  let marking ← markRegisteredRoots capacity heap.rootSet { objects := heap.objects }
  let marking ← (if scanStack then markStack capacity image else .ok) marking
  markWork capacity capacity 0 marking

/-- Sweep, and set the limit at which the next collection is due. -/
def sweepHeap (marking : Marking) (heap : Heap) : Heap :=
  let swept := sweepObjects marking.objects heap.objectCount
  { heap with
    objects := swept.1
    objectCount := swept.2
    collectionLimit := if swept.2 < 128 then 256 else swept.2 * 2 % 2 ^ 64 }

def collectObjects (environment : Environment) (scanStack : Bool) (heap : Heap) :
    Except Fault Heap := do
  let capacity := if heap.objectCount = 0 then 1 else heap.objectCount
  let image := environment.stack heap.requests
  let heap ← heap.request environment (capacity * sizeofValue % 2 ^ 64)
  let marking ← markObjects capacity scanStack image heap
  return sweepHeap marking heap

def collect (environment : Environment) (heap : Heap) : Except Fault Heap :=
  collectObjects environment true heap

def collectPrecise (environment : Environment) (heap : Heap) : Except Fault Heap :=
  collectObjects environment false heap

/-- The block behind a new object, which the C library has cleared. -/
def clearedTrailing (kind : ObjectKind) (extraBytes : Nat) : Trailing :=
  if kind = .valueVectorStorage then .values (List.replicate (extraBytes / sizeofValue) 0#64)
  else .bytes (List.replicate extraBytes 0)

def newObject (environment : Environment) (kind : ObjectKind) (extraBytes : Nat) (heap : Heap) :
    Except Fault (Value × Heap) :=
  if sizeMax - sizeofObject < extraBytes then .error .memory
  else
    match environment.place heap.requests heap.addresses (sizeofObject + extraBytes) with
    | none => .error .memory
    | some address =>
        if address &&& 7#64 ≠ 0#64 then .error .memory
        else
          .ok (address,
            { heap with
              objects :=
                { address := address, kind := kind, trailing := clearedTrailing kind extraBytes } ::
                  heap.objects
              objectCount := heap.objectCount + 1
              requests := heap.requests + 1 })

def allocateObject (environment : Environment) (scanStack : Bool) (kind : ObjectKind)
    (extraBytes : Nat) (heap : Heap) : Except Fault (Value × Heap) := do
  let heap ←
    if heap.objectCount ≥ heap.collectionLimit then collectObjects environment scanStack heap
    else .ok heap
  newObject environment kind extraBytes heap

def liveObjects (heap : Heap) : Nat :=
  heap.objectCount

/-- Allocation for a constructor that is precise or scans the stack. -/
def allocate (environment : Environment) (precise : Bool) (kind : ObjectKind) (extraBytes : Nat)
    (heap : Heap) : Except Fault (Value × Heap) :=
  allocateObject environment (!precise) kind extraBytes heap

end Runtime
