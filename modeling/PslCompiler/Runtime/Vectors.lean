import PslCompiler.Runtime.Constructors

/-! # Vectors of the hosted runtime

A vector is a header with a length and a pointer to storage. When the storage is full, a push makes
larger storage, and the header stays where it is.
-/

namespace Runtime

def vectorStorageBytes (capacity : Nat) : Except Fault Nat :=
  if (sizeMax - sizeofObject) / sizeofValue < capacity then .error .memory
  else .ok (capacity * sizeofValue)

def makeStorage (environment : Environment) (capacity : Nat) (heap : Heap) :
    Except Fault (Value × Heap) := do
  let bytes ← vectorStorageBytes capacity
  let (storage, heap) ← allocate environment true .valueVectorStorage bytes heap
  let heap ← heap.setLength storage capacity
  let heap ← heap.change storage fun object => object.setItems 0 (List.replicate capacity pslNil)
  return (storage, heap)

def expectVector (objects : List Object) (value : Value) : Except Fault Object :=
  expectObject objects value (some .valueVector)

def vectorStorage (objects : List Object) (vector : Object) : Except Fault Object :=
  expectObject objects (vector.slots 0) (some .valueVectorStorage)

def makeValueVector (environment : Environment) (length : Nat) (initial : Value) (heap : Heap) :
    Except Fault (Value × Heap) := do
  let root := heap.rootSet.localRoot
  let (vector, heap) ←
    allocate environment true .valueVector 0 (heap.pushLocal [pslNil, initial])
  let heap := { heap with rootSet := heap.rootSet.setRootValue root 0 vector }
  let heap ← heap.setLength vector length
  let (storage, heap) ← makeStorage environment length heap
  let item ← heap.rootSet.rootValue root 1
  let heap ← heap.change storage fun object => object.setItems 0 (List.replicate length item)
  let heap ← heap.setSlot vector 0 storage
  let result ← heap.rootSet.rootValue root 0
  let heap ← heap.popRoots root
  return (result, heap)

def valueVectorLength (heap : Heap) (value : Value) : Except Fault Nat := do
  return (← expectVector heap.objects value).length

def valueVectorRef (heap : Heap) (value : Value) (index : Nat) : Except Fault Value := do
  let vector ← expectVector heap.objects value
  if vector.length ≤ index then throw .abort
  let storage ← vectorStorage heap.objects vector
  storage.itemAt index

def valueVectorSet (heap : Heap) (value : Value) (index : Nat) (item : Value) :
    Except Fault (Value × Heap) := do
  let vector ← expectVector heap.objects value
  if vector.length ≤ index then throw .abort
  let storage ← vectorStorage heap.objects vector
  let heap ← heap.change storage.address fun object => object.setItems index [item]
  return (item, heap)

/-- The doubling of a capacity. A capacity that is not zero is enough after 64 rounds. -/
def doubledCapacity (required : Nat) : Nat → Nat → Except Fault Nat
  | 0, capacity => if capacity < required then .error .undefined else .ok capacity
  | rounds + 1, capacity =>
      if capacity < required then
        if sizeMax / 2 < capacity then .ok required
        else doubledCapacity required rounds (capacity * 2)
      else .ok capacity

def grownCapacity (current required : Nat) : Except Fault Nat := do
  let capacity ← doubledCapacity required 64 (if current = 0 then 4 else current)
  let _ ← vectorStorageBytes capacity
  return capacity

def growVector (environment : Environment) (root required : Nat) (heap : Heap) :
    Except Fault Heap := do
  let vector ← expectVector heap.objects (← heap.rootSet.rootValue root 0)
  let oldStorage ← vectorStorage heap.objects vector
  let capacity ← grownCapacity oldStorage.length required
  let (newStorage, heap) ← makeStorage environment capacity heap
  let old ← dereference heap.objects oldStorage.address
  let header ← dereference heap.objects vector.address
  let items ← old.firstItems header.length
  let heap ← heap.change newStorage fun object => object.setItems 0 items
  heap.setSlot vector.address 0 newStorage

/-- The end of a push: the item goes behind the others, in storage that has room. -/
def storePushed (root index : Nat) (heap : Heap) : Except Fault (Nat × Heap) := do
  let vector ← expectVector heap.objects (← heap.rootSet.rootValue root 0)
  let storage ← vectorStorage heap.objects vector
  let item ← heap.rootSet.rootValue root 1
  let heap ← heap.change storage.address fun object => object.setItems index [item]
  let heap ← heap.setLength vector.address (index + 1)
  let heap ← heap.popRoots root
  return (index, heap)

def valueVectorPush (environment : Environment) (value item : Value) (heap : Heap) :
    Except Fault (Nat × Heap) := do
  let root := heap.rootSet.localRoot
  let heap := heap.pushLocal [value, item]
  let vector ← expectVector heap.objects (← heap.rootSet.rootValue root 0)
  let index := vector.length
  if index = sizeMax then throw .memory
  let storage ← vectorStorage heap.objects vector
  let heap ←
    if storage.length < index + 1 then growVector environment root (index + 1) heap else .ok heap
  storePushed root index heap

end Runtime
