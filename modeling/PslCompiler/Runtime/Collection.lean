import PslCompiler.Heaps.Tracing
import PslCompiler.Runtime.Collector

/-! # What a collection keeps

A collection keeps the objects that can be reached from its roots, in their order and with their
contents, and no others. It never leaves its work list, and its count and its limit are right.
-/

namespace Runtime

/-! ## The graph of objects -/

/-- The values that an object names. -/
def Object.children (object : Object) : List Value :=
  if object.kind = .valueVectorStorage then
    match object.trailing with
    | .bytes _ => []
    | .values items => items.take object.length
  else
    match childSlots object.kind with
    | .error _ => []
    | .ok slots => slots.map object.slots

/-- Storage has room for the values that it counts. -/
def Object.Stored (object : Object) : Prop :=
  object.kind = .valueVectorStorage →
    ∃ items, object.trailing = .values items ∧ object.length ≤ items.length

namespace Heap

def holds (heap : Heap) (value : Value) : Bool :=
  (findObject heap.objects value).isSome

def childrenAt (heap : Heap) (value : Value) : List Value :=
  match findObject heap.objects value with
  | none => []
  | some object => object.children

/-- An object can be reached from values through the objects of a heap. -/
def Reaches (heap : Heap) (roots : List Value) (address : Value) : Prop :=
  Heaps.Reached heap.holds heap.childrenAt roots address

/-- What holds of a heap between two calls. -/
structure Valid (heap : Heap) : Prop where
  distinct : heap.addresses.Nodup
  placed : ∀ object ∈ heap.objects, object.address ≠ 0#64 ∧ object.address &&& 7#64 = 0#64
  stored : ∀ object ∈ heap.objects, object.Stored
  unmarked : ∀ object ∈ heap.objects, object.marked = false
  counted : heap.objectCount = heap.objects.length
  limited : heap.objectCount ≤ heap.collectionLimit

end Heap

/-! ## Finding objects -/

section Finding

variable {objects : List Object} {value : Value} {object : Object}

theorem findObject_some (found : findObject objects value = some object) :
    object ∈ objects ∧ object.address = value ∧ value ≠ 0#64 ∧ value &&& 7#64 = 0#64 := by
  unfold findObject at found
  split at found
  · cases found
  · rename_i pointer
    rw [not_or, not_not] at pointer
    exact ⟨List.mem_of_find?_eq_some found, by simpa using List.find?_some found, pointer⟩

/-- In a list of objects with different addresses each is found under its own. -/
theorem find_of_mem (distinct : (objects.map Object.address).Nodup) (member : object ∈ objects) :
    (objects.find? fun other => other.address = object.address) = some object := by
  induction objects with
  | nil => cases member
  | cons first rest ih =>
      rw [List.map_cons, List.nodup_cons] at distinct
      obtain rfl | later := List.mem_cons.mp member
      · simp
      · have differs : first.address ≠ object.address := fun same =>
          distinct.1 (same ▸ List.mem_map_of_mem later)
        rw [List.find?_cons_of_neg (by simpa using differs)]
        exact ih distinct.2 later

theorem dereference_of_mem (distinct : (objects.map Object.address).Nodup)
    (member : object ∈ objects) : dereference objects object.address = .ok object := by
  rw [dereference, find_of_mem distinct member]

theorem findObject_eq_find (nonzero : value ≠ 0#64) (aligned : value &&& 7#64 = 0#64) :
    findObject objects value = objects.find? fun other => other.address = value :=
  if_neg (by rw [not_or, not_not]; exact ⟨nonzero, aligned⟩)

namespace Heap

variable {heap : Heap}

theorem Valid.findObject (valid : heap.Valid) (member : object ∈ heap.objects) :
    findObject heap.objects object.address = some object := by
  obtain ⟨nonzero, aligned⟩ := valid.placed object member
  rw [findObject_eq_find nonzero aligned, find_of_mem valid.distinct member]

theorem Valid.findObject_iff (valid : heap.Valid) :
    Runtime.findObject heap.objects value = some object ↔
      object ∈ heap.objects ∧ object.address = value := by
  constructor
  · intro found
    obtain ⟨member, same, -⟩ := findObject_some found
    exact ⟨member, same⟩
  · rintro ⟨member, rfl⟩
    exact valid.findObject member

theorem Valid.holds_iff (valid : heap.Valid) : heap.holds value = true ↔ value ∈ heap.addresses := by
  rw [holds, Option.isSome_iff_exists, addresses, List.mem_map]
  exact exists_congr fun _ => valid.findObject_iff

theorem Valid.childrenAt (valid : heap.Valid) (member : object ∈ heap.objects) :
    heap.childrenAt object.address = object.children := by
  rw [Heap.childrenAt, valid.findObject member]

theorem Valid.same (valid : heap.Valid) {other : Object} (member : object ∈ heap.objects)
    (also : other ∈ heap.objects) (same : object.address = other.address) : object = other := by
  have first := valid.findObject member
  have second := valid.findObject also
  rw [same, second] at first
  exact (Option.some.inj first).symm

/-- A step of reachability goes from an object to an object that it names. -/
theorem Reaches.step (valid : heap.Valid) {roots : List Value} {next : Value}
    (reached : heap.Reaches roots object.address) (member : object ∈ heap.objects)
    (named : next ∈ object.children) (here : next ∈ heap.addresses) : heap.Reaches roots next :=
  .child reached (by rw [valid.childrenAt member]; exact named) (valid.holds_iff.mpr here)

theorem Reaches.root (valid : heap.Valid) {roots : List Value} (named : value ∈ roots)
    (here : value ∈ heap.addresses) : heap.Reaches roots value :=
  Heaps.Reached.root named (valid.holds_iff.mpr here)

end Heap

end Finding

/-! ## Marks -/

/-- An object with a mark if the work list has it. -/
def Object.markedIn (work : List Value) (object : Object) : Object :=
  if object.address ∈ work then { object with marked := true } else object

/-- The marking of objects in which the entries of a work list have their marks. -/
def markedWith (objects : List Object) (work : List Value) : Marking where
  objects := objects.map (Object.markedIn work)
  work := work

section Marks

variable {heap : Heap} {work : List Value} {value : Value} {capacity : Nat}

/-- A work list of a valid heap: objects, each of them once. -/
structure Heap.Works (heap : Heap) (work : List Value) : Prop where
  distinct : work.Nodup
  held : ∀ value ∈ work, heap.holds value = true

open Heaps (enter enterAll trace)

theorem Heap.Works.enter (works : heap.Works work) : heap.Works (enter heap.holds work value) where
  distinct := Heaps.enter_nodup works.distinct
  held := by
    intro other member
    obtain old | ⟨rfl, here⟩ := Heaps.mem_enter.mp member
    · exact works.held other old
    · exact here

theorem Heap.Works.enterAll {values : List Value} (works : heap.Works work) :
    heap.Works (enterAll heap.holds work values) := by
  induction values generalizing work with
  | nil => exact works
  | cons value rest ih => exact ih works.enter

theorem Heap.Works.length_le (works : heap.Works work) (valid : heap.Valid) :
    work.length ≤ heap.objects.length := by
  have within : work ⊆ heap.addresses := fun value member =>
    valid.holds_iff.mp (works.held value member)
  have bound := (works.distinct.subperm within).length_le
  rwa [Heap.addresses, List.length_map] at bound

@[simp] theorem Object.markedIn_address (work : List Value) (object : Object) :
    (object.markedIn work).address = object.address := by
  unfold Object.markedIn
  split <;> rfl

@[simp] theorem Object.markedIn_children (work : List Value) (object : Object) :
    (object.markedIn work).children = object.children := by
  unfold Object.markedIn
  split <;> rfl

theorem Object.markedIn_of_mem {object : Object} (member : object.address ∈ work) :
    object.markedIn work = { object with marked := true } :=
  if_pos member

theorem Object.markedIn_of_notMem {object : Object} (absent : object.address ∉ work) :
    object.markedIn work = object :=
  if_neg absent

theorem markedWith_nil (objects : List Object) : markedWith objects [] = { objects := objects } := by
  have unchanged : Object.markedIn [] = id := by
    funext object
    exact Object.markedIn_of_notMem List.not_mem_nil
  rw [markedWith, unchanged, List.map_id]

theorem find_markedWith (objects : List Object) (work : List Value) (value : Value) :
    ((markedWith objects work).objects.find? fun object => object.address = value) =
      (objects.find? fun object => object.address = value).map (Object.markedIn work) := by
  rw [markedWith, List.find?_map]
  congr 1
  congr 1
  funext object
  rw [Function.comp_apply, Object.markedIn_address]

theorem findObject_markedWith (objects : List Object) (work : List Value) (value : Value) :
    findObject (markedWith objects work).objects value =
      (findObject objects value).map (Object.markedIn work) := by
  unfold findObject
  split
  · rfl
  · exact find_markedWith objects work value

theorem setMarked_markedWith (objects : List Object) (work : List Value) (address : Value) :
    setMarked (markedWith objects work).objects address =
      (markedWith objects (work ++ [address])).objects := by
  rw [setMarked, markedWith, markedWith, List.map_map]
  apply List.map_congr_left
  intro object member
  rw [Function.comp_apply, Object.markedIn_address]
  by_cases now : object.address = address
  · rw [if_pos now, Object.markedIn_of_mem (List.mem_append_right work (by simp [now]))]
    unfold Object.markedIn
    split <;> rfl
  · rw [if_neg now]
    unfold Object.markedIn
    simp [now]

/-- Marking a value enters it in the work list, which has room. -/
theorem markValue_markedWith (valid : heap.Valid) (works : heap.Works work)
    (room : heap.objects.length ≤ capacity) :
    markValue capacity (markedWith heap.objects work) value =
      .ok (markedWith heap.objects (enter heap.holds work value)) := by
  rw [markValue, findObject_markedWith]
  cases found : findObject heap.objects value with
  | none =>
      have absent : heap.holds value = false := by rw [Heap.holds, found]; rfl
      have same : enter heap.holds work value = work := if_neg (by simp [absent])
      rw [same]
      rfl
  | some object =>
      obtain ⟨member, address, -⟩ := findObject_some found
      have here : heap.holds value = true := by rw [Heap.holds, found]; rfl
      rw [Option.map_some]
      by_cases old : object.address ∈ work
      · have same : enter heap.holds work value = work := if_neg (by simp [← address, old])
        rw [Object.markedIn_of_mem old, same]
        rfl
      · have fresh : enter heap.holds work value = work ++ [value] :=
          if_pos ⟨here, by rw [← address]; exact old⟩
        have added : heap.Works (work ++ [value]) := fresh ▸ works.enter
        have below : work.length < capacity := by
          have := added.length_le valid
          rw [List.length_append, List.length_singleton] at this
          omega
        rw [Object.markedIn_of_notMem old]
        simp only [valid.unmarked object member, Bool.false_eq_true, ↓reduceIte]
        rw [if_pos (show (markedWith heap.objects work).work.length < capacity from below), fresh,
          setMarked_markedWith, address]
        rfl

theorem markValues_markedWith (valid : heap.Valid) (room : heap.objects.length ≤ capacity)
    (values : List Value) (works : heap.Works work) :
    markValues capacity values (markedWith heap.objects work) =
      .ok (markedWith heap.objects (enterAll heap.holds work values)) := by
  induction values generalizing work with
  | nil => rfl
  | cons value rest ih =>
      rw [markValues, List.foldlM_cons, markValue_markedWith valid works room]
      exact ih works.enter

/-- Marking a list of groups of values, one group after the other. -/
theorem markGroups_markedWith {Group : Type} (valid : heap.Valid)
    (room : heap.objects.length ≤ capacity) (values : Group → List Value) (groups : List Group)
    (works : heap.Works work) :
    groups.foldlM (fun marking group => markValues capacity (values group) marking)
        (markedWith heap.objects work) =
      .ok (markedWith heap.objects (enterAll heap.holds work (groups.flatMap values))) := by
  induction groups generalizing work with
  | nil => rfl
  | cons group rest ih =>
      rw [List.foldlM_cons, markValues_markedWith valid room (values group) works,
        List.flatMap_cons, Heaps.enterAll_append]
      exact ih works.enterAll

theorem markRegisteredRoots_markedWith (valid : heap.Valid)
    (room : heap.objects.length ≤ capacity) (set : RootSet Value) (works : heap.Works work) :
    markRegisteredRoots capacity set (markedWith heap.objects work) =
      .ok (markedWith heap.objects (enterAll heap.holds work set.values)) := by
  have handles : ∀ (marking : Marking),
      set.valueHandles.foldlM (fun marking handle => markValue capacity marking handle.value)
          marking =
        markValues capacity (set.valueHandles.map ValueHandle.value) marking := by
    intro marking
    rw [markValues, List.foldlM_map]
  rw [markRegisteredRoots, markGroups_markedWith valid room _ _ works]
  simp only [bind, Except.bind]
  rw [markGroups_markedWith valid room _ _ works.enterAll]
  simp only [handles]
  rw [markValues_markedWith valid room _ works.enterAll.enterAll, RootSet.values,
    Heaps.enterAll_append, Heaps.enterAll_append]

/-! ## The stack -/

/-- The words that a scan of the stack looks at from an address on. -/
def StackImage.wordsFrom (image : StackImage) : Nat → Nat → List Value
  | 0, _ => []
  | words + 1, address =>
      if address + sizeofValue ≤ image.top then
        image.word address :: image.wordsFrom words (address + sizeofValue)
      else []

def StackImage.words (image : StackImage) : List Value :=
  image.wordsFrom image.top image.start

theorem markWords_markedWith (valid : heap.Valid) (room : heap.objects.length ≤ capacity)
    (image : StackImage) :
    ∀ (words address : Nat) (work : List Value), heap.Works work →
      markWords capacity image words address (markedWith heap.objects work) =
        .ok (markedWith heap.objects
          (enterAll heap.holds work (image.wordsFrom words address))) := by
  intro words
  induction words with
  | zero =>
      intro address work works
      rfl
  | succ words ih =>
      intro address work works
      rw [markWords, StackImage.wordsFrom]
      by_cases inside : address + sizeofValue ≤ image.top
      · rw [if_pos inside, if_pos inside, markValue_markedWith valid works room]
        exact ih (address + sizeofValue) _ works.enter
      · rw [if_neg inside, if_neg inside]
        rfl

theorem StackImage.mem_wordsFrom (image : StackImage) {value : Value} :
    ∀ (words address : Nat), address % 8 = 0 → image.top < address + 8 * words + 8 →
      (value ∈ image.wordsFrom words address ↔
        ∃ place, address ≤ place ∧ place % 8 = 0 ∧ place + 8 ≤ image.top ∧
          image.word place = value) := by
  intro words
  induction words with
  | zero =>
      intro address aligned enough
      constructor
      · intro member
        cases member
      · rintro ⟨place, above, -, inside, -⟩
        omega
  | succ words ih =>
      intro address aligned enough
      rw [StackImage.wordsFrom, sizeofValue]
      by_cases inside : address + 8 ≤ image.top
      · rw [if_pos inside, List.mem_cons, ih (address + 8) (by omega) (by omega)]
        constructor
        · rintro (rfl | ⟨place, above, others⟩)
          · exact ⟨address, le_rfl, aligned, inside, rfl⟩
          · exact ⟨place, by omega, others⟩
        · rintro ⟨place, above, multiple, below, same⟩
          by_cases first : place = address
          · exact .inl (by rw [← same, first])
          · exact .inr ⟨place, by omega, multiple, below, same⟩
      · rw [if_neg inside]
        constructor
        · intro member
          cases member
        · rintro ⟨place, above, -, below, -⟩
          omega

/-- The scan looks at each aligned word of the stack. -/
theorem StackImage.mem_words (image : StackImage) {value : Value} :
    value ∈ image.words ↔
      ∃ place, image.start ≤ place ∧ place % 8 = 0 ∧ place + 8 ≤ image.top ∧
        image.word place = value :=
  image.mem_wordsFrom image.top image.start (Nat.mul_mod_left _ 8) (by omega)

/-! ## The work list -/

theorem markChildren_markedWith (valid : heap.Valid) (room : heap.objects.length ≤ capacity)
    {object : Object} (member : object ∈ heap.objects) (other : List Value)
    (works : heap.Works work) :
    markChildren capacity (object.markedIn other) (markedWith heap.objects work) =
      .ok (markedWith heap.objects (enterAll heap.holds work object.children)) := by
  have kind : (object.markedIn other).kind = object.kind := by
    unfold Object.markedIn
    split <;> rfl
  have trailing : (object.markedIn other).trailing = object.trailing := by
    unfold Object.markedIn
    split <;> rfl
  have length : (object.markedIn other).length = object.length := by
    unfold Object.markedIn
    split <;> rfl
  have slots : (object.markedIn other).slots = object.slots := by
    unfold Object.markedIn
    split <;> rfl
  rw [markChildren, Object.children, kind, trailing, length, slots]
  by_cases storage : object.kind = .valueVectorStorage
  · obtain ⟨items, same, within⟩ := valid.stored object member storage
    rw [if_pos storage, if_pos storage, same]
    dsimp only
    rw [if_neg (by omega)]
    exact markValues_markedWith valid room _ works
  · rw [if_neg storage, if_neg storage]
    cases named : childSlots object.kind with
    | error fault =>
        exfalso
        cases kind : object.kind with
        | valueVectorStorage => exact storage kind
        | _ => rw [kind] at named; cases named
    | ok slots => exact markValues_markedWith valid room _ works

/-- The loop over the work list is a trace of the graph of objects. -/
theorem markWork_markedWith (valid : heap.Valid) (room : heap.objects.length ≤ capacity) :
    ∀ (rounds index : Nat) (work result : List Value), heap.Works work →
      trace heap.holds heap.childrenAt rounds index work = some result →
      markWork capacity rounds index (markedWith heap.objects work) =
        .ok (markedWith heap.objects result) := by
  intro rounds
  induction rounds with
  | zero =>
      intro index work result works traced
      rw [trace] at traced
      split at traced
      · cases traced
      · rename_i done
        obtain rfl := Option.some.inj traced
        exact if_neg done
  | succ rounds ih =>
      intro index work result works traced
      rw [trace] at traced
      have length : (markedWith heap.objects work).work.length = work.length := rfl
      by_cases inside : index < work.length
      · rw [dif_pos inside] at traced
        have held := works.held _ (List.getElem_mem inside)
        obtain ⟨object, member, address⟩ := List.mem_map.mp (valid.holds_iff.mp held)
        have children : heap.childrenAt work[index] = object.children := by
          rw [← address]
          exact valid.childrenAt member
        rw [children] at traced
        have found : dereference (markedWith heap.objects work).objects work[index] =
            .ok (object.markedIn work) := by
          rw [dereference, find_markedWith, ← address, find_of_mem valid.distinct member]
          rfl
        rw [markWork, dif_pos (length ▸ inside)]
        change (dereference (markedWith heap.objects work).objects work[index] >>= _) = _
        rw [found]
        simp only [bind, Except.bind]
        rw [markChildren_markedWith valid room member work works]
        exact ih (index + 1) _ result works.enterAll traced
      · rw [dif_neg inside] at traced
        obtain rfl := Option.some.inj traced
        rw [markWork, dif_neg (length ▸ inside)]

/-! ## The sweep -/

/-- The sweep keeps what has a mark, takes the marks off and counts. -/
theorem sweepObjects_markedWith (work : List Value) :
    ∀ (objects : List Object) (count : Nat), (∀ object ∈ objects, object.marked = false) →
      objects.length ≤ count →
      (sweepObjects (markedWith objects work).objects count).1 =
          objects.filter (fun object => object.address ∈ work) ∧
        (sweepObjects (markedWith objects work).objects count).2 + objects.length =
          count + (objects.filter fun object => object.address ∈ work).length := by
  intro objects
  induction objects with
  | nil =>
      intro count unmarked within
      exact ⟨rfl, rfl⟩
  | cons object rest ih =>
      intro count unmarked within
      have bare : object.marked = false := unmarked object List.mem_cons_self
      have others : ∀ other ∈ rest, other.marked = false := fun other member =>
        unmarked other (List.mem_cons_of_mem _ member)
      rw [List.length_cons] at within
      have unfolded : (markedWith (object :: rest) work).objects =
          object.markedIn work :: (markedWith rest work).objects := rfl
      rw [unfolded, sweepObjects, List.length_cons]
      by_cases kept : object.address ∈ work
      · obtain ⟨objects_, counted⟩ := ih count others (by omega)
        have cleared : { object with marked := false } = object := by rw [← bare]
        rw [Object.markedIn_of_mem kept, List.filter_cons_of_pos (by simpa using kept)]
        simp only [↓reduceIte, objects_, cleared, List.length_cons]
        exact ⟨trivial, by omega⟩
      · obtain ⟨objects_, counted⟩ := ih (count - 1) others (by omega)
        rw [Object.markedIn_of_notMem kept, List.filter_cons_of_neg (by simpa using kept)]
        simp only [bare, Bool.false_eq_true, ↓reduceIte, objects_]
        exact ⟨trivial, by omega⟩

end Marks

/-! ## Collections -/

section Collections

variable {heap : Heap} {environment : Environment}

/-- The values that a collection starts from. -/
def collectionRoots (environment : Environment) (scanStack : Bool) (heap : Heap) : List Value :=
  heap.rootSet.values ++
    if scanStack then (environment.stack heap.requests).words else []

/-- Different addresses that are multiples of eight are few. -/
theorem length_of_aligned {addresses : List Value} (distinct : addresses.Nodup)
    (aligned : ∀ address ∈ addresses, address &&& 7#64 = 0#64) : addresses.length ≤ 2 ^ 61 := by
  have multiple : ∀ address ∈ addresses, address.toNat % 8 = 0 := by
    intro address member
    have masked := congrArg BitVec.toNat (aligned address member)
    rw [BitVec.toNat_and] at masked
    exact (Nat.and_two_pow_sub_one_eq_mod address.toNat 3).symm.trans masked
  have eighths : (addresses.map fun address => address.toNat / 8).Nodup := by
    rw [List.nodup_map_iff_inj_on distinct]
    intro left inLeft right inRight same
    have first := multiple left inLeft
    have second := multiple right inRight
    exact BitVec.eq_of_toNat_eq (by omega)
  have bounded : (addresses.map fun address => address.toNat / 8).toFinset ⊆
      Finset.range (2 ^ 61) := by
    intro eighth member
    rw [List.mem_toFinset, List.mem_map] at member
    obtain ⟨address, -, rfl⟩ := member
    have := address.isLt
    rw [Finset.mem_range]
    omega
  have count := Finset.card_le_card bounded
  rwa [List.toFinset_card_of_nodup eighths, List.length_map, Finset.card_range] at count

theorem Heap.Valid.length_le (valid : heap.Valid) : heap.objects.length ≤ 2 ^ 61 := by
  have bound := length_of_aligned valid.distinct (by
    intro address member
    obtain ⟨object, inside, rfl⟩ := List.mem_map.mp member
    exact (valid.placed object inside).2)
  rwa [Heap.addresses, List.length_map] at bound

/-- A heap after a collection: some of its objects, all that can be reached and no others. -/
structure Collected (roots : List Value) (before after : Heap) : Prop where
  valid : after.Valid
  sublist : after.objects.Sublist before.objects
  kept : ∀ object ∈ before.objects,
    object ∈ after.objects ↔ before.Reaches roots object.address
  rootSet : after.rootSet = before.rootSet
  limit : after.collectionLimit = max 256 (2 * after.objectCount)

/-- Objects that are left of a valid heap make a valid heap. -/
theorem Heap.Valid.sublist {after : Heap} (valid : heap.Valid)
    (sublist : after.objects.Sublist heap.objects) (counted : after.objectCount = after.objects.length)
    (limited : after.objectCount ≤ after.collectionLimit) : after.Valid where
  distinct := valid.distinct.sublist (sublist.map _)
  placed object member := valid.placed object (sublist.subset member)
  stored object member := valid.stored object (sublist.subset member)
  unmarked object member := valid.unmarked object (sublist.subset member)
  counted := counted
  limited := limited

/-- Marking ends with a mark on exactly the objects that the roots of the collection reach. -/
theorem markObjects_reached (environment : Environment) (valid : heap.Valid) (scanStack : Bool)
    {capacity : Nat}
    (room : heap.objects.length ≤ capacity) :
    ∃ live, markObjects capacity scanStack (environment.stack heap.requests) heap =
        .ok (markedWith heap.objects live) ∧
      ∀ address, address ∈ live ↔
        heap.Reaches (collectionRoots environment scanStack heap) address := by
  have empty : heap.Works [] := ⟨List.nodup_nil, fun _ member => by cases member⟩
  have registered := markRegisteredRoots_markedWith valid room heap.rootSet empty
  rw [markedWith_nil] at registered
  have scanned : (if scanStack then markStack capacity (environment.stack heap.requests) else .ok)
        (markedWith heap.objects (Heaps.enterAll heap.holds [] heap.rootSet.values)) =
      .ok (markedWith heap.objects (Heaps.enterAll heap.holds []
        (collectionRoots environment scanStack heap))) := by
    rw [collectionRoots, Heaps.enterAll_append]
    cases scanStack with
    | false => rfl
    | true =>
        have down := environment.downward heap.requests
        rw [if_pos rfl, if_pos rfl, markStack, if_neg (by omega)]
        exact markWords_markedWith valid room _ _ _ _ empty.enterAll
  have enough : heap.addresses.length ≤ capacity := by
    rw [Heap.addresses, List.length_map]
    exact room
  obtain ⟨live, traced, -, reached⟩ := Heaps.trace_reached heap.childrenAt
    (collectionRoots environment scanStack heap) (fun node here => valid.holds_iff.mp here) enough
  refine ⟨live, ?_, reached⟩
  rw [markObjects, registered]
  simp only [bind, Except.bind]
  rw [scanned]
  exact markWork_markedWith valid room capacity 0 _ live empty.enterAll traced

/-- The sweep after a marking that is right. -/
theorem sweepHeap_collected (valid : heap.Valid) {roots live : List Value}
    (marked : ∀ address, address ∈ live ↔ heap.Reaches roots address) :
    Collected roots heap (sweepHeap (markedWith heap.objects live) heap) := by
  obtain ⟨objects, counted⟩ := sweepObjects_markedWith live heap.objects heap.objectCount
    valid.unmarked (le_of_eq valid.counted.symm)
  have sublist : (sweepHeap (markedWith heap.objects live) heap).objects.Sublist heap.objects := by
    rw [sweepHeap, objects]
    exact List.filter_sublist
  have length : (sweepHeap (markedWith heap.objects live) heap).objectCount =
      (sweepHeap (markedWith heap.objects live) heap).objects.length := by
    simp only [sweepHeap, objects]
    have := valid.counted
    omega
  have few : (sweepHeap (markedWith heap.objects live) heap).objectCount ≤ 2 ^ 61 := by
    rw [length]
    exact sublist.length_le.trans valid.length_le
  have limit : (sweepHeap (markedWith heap.objects live) heap).collectionLimit =
      max 256 (2 * (sweepHeap (markedWith heap.objects live) heap).objectCount) := by
    simp only [sweepHeap] at few ⊢
    generalize (sweepObjects (markedWith heap.objects live).objects heap.objectCount).2 = count
      at few
    split <;> omega
  refine ⟨valid.sublist sublist length (by omega), sublist, ?_, rfl, limit⟩
  intro object member
  simp only [sweepHeap, objects, List.mem_filter, member, true_and, decide_eq_true_eq]
  exact marked object.address

/-- A collection that gets its work list keeps exactly what its roots reach. -/
theorem collectObjects_collected (environment : Environment) (valid : heap.Valid)
    (scanStack : Bool) :
    collectObjects environment scanStack heap = .error .memory ∨
      ∃ after, collectObjects environment scanStack heap = .ok after ∧
        Collected (collectionRoots environment scanStack heap) heap after := by
  have room : heap.objects.length ≤ if heap.objectCount = 0 then 1 else heap.objectCount := by
    rw [valid.counted]
    split <;> omega
  obtain ⟨live, marked, reached⟩ := markObjects_reached environment valid scanStack room
  have collected := sweepHeap_collected valid reached
  have again : markObjects (if heap.objectCount = 0 then 1 else heap.objectCount) scanStack
      (environment.stack heap.requests) { heap with requests := heap.requests + 1 } =
        .ok (markedWith heap.objects live) := marked
  cases granted : environment.place heap.requests heap.addresses
      ((if heap.objectCount = 0 then 1 else heap.objectCount) * sizeofValue % 2 ^ 64) with
  | none =>
      left
      simp only [collectObjects, Heap.request, granted, bind, Except.bind]
  | some block =>
      refine .inr ⟨{ sweepHeap (markedWith heap.objects live) heap with
        requests := heap.requests + 1 }, ?_, ?_⟩
      · simp only [collectObjects, Heap.request, granted, bind, Except.bind, again]
        rfl
      · exact ⟨⟨collected.valid.distinct, collected.valid.placed, collected.valid.stored,
          collected.valid.unmarked, collected.valid.counted, collected.valid.limited⟩,
          collected.sublist, collected.kept, collected.rootSet, collected.limit⟩

end Collections

end Runtime
