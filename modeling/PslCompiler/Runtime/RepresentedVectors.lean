import PslCompiler.Runtime.RepresentedSymbols

/-! # Vectors on a heap that represents an ideal heap

A vector is made of two objects, and an allocation may collect between them. A push into full
storage makes storage of at least twice the size, copies the items and leaves the header in place.
-/

namespace Runtime

open Heaps (Agrees)

variable {heap : Heap} {ideal : IdealHeap} {places : Places}

/-! ## Storage -/

theorem makeStorage_remains (environment : Environment) (capacity : Nat)
    (represented : Represented heap ideal places) (set : RootSet Value)
    (covered : ∀ value ∈ heap.rootSet.values, immediateP value = true ∨ value ∈ set.values) :
    makeStorage environment capacity (heap.withRoots set) = .error .memory ∨
      ∃ address storage after kept,
        makeStorage environment capacity (heap.withRoots set) =
          .ok (address, (after.withRoots set).withObject storage) ∧
        after.Fresh address ∧ storage.address = address ∧ storage.marked = false ∧
        storage.kind = .valueVectorStorage ∧ storage.length = capacity ∧ capacity ≤ sizeMax ∧
        storage.trailing = .values (List.replicate capacity pslNil) ∧
        Remains heap ideal places set.values after kept := by
  unfold makeStorage vectorStorageBytes
  split
  · exact .inl rfl
  · rename_i bounded
    have small : capacity ≤ sizeMax := by
      rw [sizeMax, sizeofObject, sizeofValue] at bounded
      rw [sizeMax]
      omega
    obtain failed | ⟨address, after, kept, allocated, fresh, remains⟩ :=
      allocate_remains environment true .valueVectorStorage (capacity * sizeofValue) represented set
        covered
    · left
      simp only [bind, Except.bind, failed]
    · right
      have pointer := fresh.withRoots set
      have cleared : (blank address .valueVectorStorage (capacity * sizeofValue)).trailing =
          .values (List.replicate capacity 0#64) := by
        simp [blank, clearedTrailing, sizeofValue]
      refine ⟨address, { blank address .valueVectorStorage (capacity * sizeofValue) with
        length := capacity
        trailing := .values (List.replicate capacity pslNil) }, after, kept, ?_, fresh, rfl, rfl, rfl,
        rfl, small, rfl, remains⟩
      simp only [bind, Except.bind, allocated]
      rw [setLength_withObject pointer rfl]
      simp only
      rw [changeNewest pointer rfl { blank address .valueVectorStorage (capacity * sizeofValue) with
        length := capacity
        trailing := .values (List.replicate capacity pslNil) }]
      · rfl
      · simp only [Object.setItems, cleared]
        rw [overwrite_eq (by simp)]
        simp [bind, Except.bind, pure, Except.pure]

/-- The doubling ends, with enough capacity. -/
theorem doubledCapacity_spec (required : Nat) :
    ∀ (rounds capacity : Nat), required ≤ 2 ^ rounds * capacity →
      ∃ enough, doubledCapacity required rounds capacity = .ok enough ∧ required ≤ enough := by
  intro rounds
  induction rounds with
  | zero =>
      intro capacity bound
      refine ⟨capacity, if_neg (by omega), by omega⟩
  | succ rounds ih =>
      intro capacity bound
      rw [doubledCapacity]
      by_cases small : capacity < required
      · rw [if_pos small]
        by_cases large : sizeMax / 2 < capacity
        · exact ⟨required, if_pos large, le_rfl⟩
        · rw [if_neg large]
          refine ih (capacity * 2) ?_
          have double : 2 ^ (rounds + 1) * capacity = 2 ^ rounds * (capacity * 2) := by ring
          omega
      · exact ⟨capacity, if_neg small, by omega⟩

theorem grownCapacity_spec (current : Nat) {required : Nat} (bound : required ≤ sizeMax) :
    grownCapacity current required = .error .memory ∨
      ∃ enough, grownCapacity current required = .ok enough ∧ required ≤ enough := by
  have positive : 1 ≤ (if current = 0 then 4 else current) := by
    split <;> omega
  have reach : required ≤ 2 ^ 64 * (if current = 0 then 4 else current) := by
    rw [sizeMax] at bound
    omega
  obtain ⟨enough, doubled, sufficient⟩ := doubledCapacity_spec required 64 _ reach
  rw [grownCapacity, doubled]
  simp only [bind, Except.bind]
  by_cases large : (sizeMax - sizeofObject) / sizeofValue < enough
  · rw [vectorStorageBytes, if_pos large]
    exact .inl rfl
  · rw [vectorStorageBytes, if_neg large]
    exact .inr ⟨enough, rfl, sufficient⟩

/-! ## New vectors -/

theorem localRoot_fresh (set : RootSet Value) :
    ∀ frame ∈ set.roots, frame.root ≠ set.localRoot := by
  intro frame member same
  have bound : ∀ (roots : List Nat), ∀ root ∈ roots, root ≤ roots.foldr max 0 := by
    intro roots
    induction roots with
    | nil =>
        intro root member
        cases member
    | cons first rest ih =>
        intro root member
        rw [List.foldr_cons]
        obtain rfl | later := List.mem_cons.mp member
        · exact le_max_left ..
        · exact (ih root later).trans (le_max_right ..)
  have below := bound (set.roots.map RootFrame.root) frame.root (List.mem_map_of_mem member)
  rw [same, RootSet.localRoot] at below
  omega

/-- A local variable is assigned while its frame is linked. -/
theorem setRootValue_pushLocal (set : RootSet Value) (first value : Value) (rest : List Value) :
    (set.pushLocal (first :: rest)).setRootValue set.localRoot 0 value =
      set.pushLocal (value :: rest) := by
  have others : (set.roots.map fun frame => if frame.root = set.localRoot then
      { frame with values := frame.values.set 0 value } else frame) = set.roots := by
    rw [List.map_congr_left (g := id), List.map_id]
    intro frame member
    exact if_neg (localRoot_fresh set frame member)
  rw [RootSet.setRootValue, RootSet.pushLocal, RootSet.pushLocal]
  simp only [List.map_cons, ↓reduceIte, others]
  rfl

theorem rootValue_pushLocal (set : RootSet Value) {values : List Value} {index : Nat}
    {value : Value} (there : values[index]? = some value) :
    (set.pushLocal values).rootValue set.localRoot index = .ok value := by
  simp [RootSet.rootValue, RootSet.frame, RootSet.pushLocal, there, orFault]

/-- An object that has no place can be replaced as long as it is no storage. -/
theorem Represented.replaceUnplaced (represented : Represented heap ideal places)
    {before changed : Object} (member : before ∈ heap.objects)
    (address : changed.address = before.address) (kind : changed.kind = before.kind)
    (unmarked : changed.marked = false) (unplaced : ∀ number, places number ≠ some before.address)
    (notStorage : before.kind ≠ .valueVectorStorage) (notSymbol : before.kind ≠ .symbol) :
    Represented (heap.replace changed) ideal places := by
  refine represented.replace member address kind
    (fun storage => absurd (kind.symm.trans storage) notStorage) unmarked rfl ?_ ?_
  · intro number object inside place
    obtain ⟨rfl, -⟩ | ⟨old, apart⟩ := Heap.mem_replace.mp inside
    · exact absurd (address ▸ place) (unplaced number)
    · obtain ⟨found, there, same, thing, known, shows_⟩ := represented.shown place
      obtain rfl := represented.valid.same there old same
      exact ⟨thing, known, shows_.replace represented.valid member address kind
        (fun symbol => absurd symbol notSymbol) fun storage => absurd storage notStorage⟩
  · rintro vector ⟨number, place⟩
    exact absurd place (unplaced number)

theorem forall₂_replicate {V W : Type} {rel : V → W → Prop} {value : V} {datum : W}
    (stands : rel value datum) (count : Nat) :
    List.Forall₂ rel (List.replicate count value) (List.replicate count datum) := by
  induction count with
  | zero => exact .nil
  | succ count ih => exact .cons stands ih

/-- No vector has its storage at an address that is free. -/
theorem Represented.slot_ne_fresh (represented : Represented heap ideal places) {address : Value}
    (fresh : heap.Fresh address) {other : Object} (member : other ∈ heap.objects)
    (vector : other.kind = .valueVector) (placed : ∃ number, places number = some other.address) :
    other.slots 0 ≠ address := by
  intro slot
  obtain ⟨number, place⟩ := placed
  obtain ⟨found, there, same, thing, -, shows_⟩ := represented.shown place
  obtain rfl := represented.valid.same there member same
  have kind := shows_.kind
  rw [vector] at kind
  cases thing with
  | vector items =>
      obtain ⟨-, -, storage, contents, holds⟩ := shows_
      refine fresh.unused ?_
      rw [← slot, ← holds.address]
      exact List.mem_map_of_mem holds.member
  | _ => cases kind

/-- A header that gets new storage shows a vector. -/
theorem Represented.admitVector (represented : Represented heap ideal places) {address : Value}
    (fresh : heap.Fresh address) (below : heap.objectCount < heap.collectionLimit)
    (contents : List Value) (items : List Datum) {header storage changed : Object}
    (member : header ∈ heap.objects) (kind : header.kind = .valueVector)
    (length : header.length = items.length) (unplaced : ∀ number, places number ≠ some header.address)
    (storageAddress : storage.address = address) (storageUnmarked : storage.marked = false)
    (storageKind : storage.kind = .valueVectorStorage) (capacity : storage.length = contents.length)
    (bounded : contents.length ≤ sizeMax) (stored : storage.trailing = .values contents) (room : items.length ≤ contents.length)
    (shown : List.Forall₂ (Represents places) (contents.take items.length) items)
    (becomes : changed = { header with slots := Function.update header.slots 0 address }) :
    Gives (header.address, (heap.withObject storage).replace changed) (ideal.add (.vector items)) := by
  subst storageAddress
  have grown := represented.withObject fresh
    (fun _ => ⟨contents, stored, le_of_eq capacity⟩) storageUnmarked below
  have changedAddress : changed.address = header.address := becomes ▸ rfl
  have changedKind : changed.kind = header.kind := becomes ▸ rfl
  have changedLength : changed.length = header.length := becomes ▸ rfl
  have changedSlot : changed.slots 0 = storage.address := becomes ▸ rfl
  have changedUnmarked : changed.marked = false := by
    rw [becomes]
    exact represented.valid.unmarked header member
  have apart : storage.address ≠ changed.address := by
    intro equal
    rw [changedAddress] at equal
    exact fresh.unused (equal ▸ List.mem_map_of_mem member)
  have replaced := grown.replaceUnplaced (List.mem_cons_of_mem _ member) changedAddress changedKind
    changedUnmarked unplaced (by rw [kind]; decide) (by rw [kind]; decide)
  have there : changed ∈ ((heap.withObject storage).replace changed).objects := by
    refine Heap.mem_replace.mpr (.inl ⟨rfl, ?_⟩)
    rw [changedAddress]
    exact List.mem_map_of_mem (List.mem_cons_of_mem _ member)
  have storageThere : storage ∈ ((heap.withObject storage).replace changed).objects :=
    Heap.mem_replace.mpr (.inr ⟨List.mem_cons_self, apart⟩)
  have shows_ : changed.Shows ((heap.withObject storage).replace changed).objects places
      (.vector items) :=
    ⟨changedKind.trans kind, changedLength.trans length, storage, contents, storageThere,
      changedSlot.symm, storageKind, stored, capacity, bounded, room, shown⟩
  have admitted := replaced.admit there (by rw [changedAddress]; exact unplaced) shows_ ?_
  · rw [changedAddress] at admitted
    exact ⟨_, admitted, if_pos rfl⟩
  · intro other inside _ vector placed slot
    obtain ⟨rfl, -⟩ | ⟨old, -⟩ := Heap.mem_replace.mp inside
    · obtain ⟨number, place⟩ := placed
      exact unplaced number (changedAddress ▸ place)
    · obtain rfl | old := List.mem_cons.mp old
      · rw [storageKind] at vector
        cases vector
      · exact represented.slot_ne_fresh fresh old vector placed (slot.symm.trans changedSlot)

theorem makeValueVector_agrees (environment : Environment) (length : Nat)
    (represented : Represented heap ideal places) {initial : Value} {datum : Datum}
    (stands : Represents places initial datum) :
    Agrees .memory Gives (makeValueVector environment length initial heap)
      (.ok (ideal.add (.vector (List.replicate length datum)))) := by
  rw [makeValueVector]
  obtain failed | ⟨address, after, kept, allocated, fresh, remains⟩ :=
    allocate_pushLocal environment true .valueVector 0 represented [pslNil, initial]
  · rw [failed]
    exact .exhausted _
  · have pointer := fresh.withRoots (heap.rootSet.pushLocal [pslNil, initial])
    obtain ⟨header, header_⟩ : ∃ header : Object,
        header = { blank address .valueVector 0 with length := length } := ⟨_, rfl⟩
    have headerAddress : header.address = address := header_ ▸ rfl
    have headerKind : header.kind = .valueVector := header_ ▸ rfl
    have headerLength : header.length = length := header_ ▸ rfl
    have headerUnmarked : header.marked = false := header_ ▸ rfl
    have linked : ((after.withRoots (heap.rootSet.pushLocal [pslNil, initial])).withObject
          (blank address .valueVector 0)).rootSet.setRootValue heap.rootSet.localRoot 0 address =
        heap.rootSet.pushLocal [address, initial] :=
      setRootValue_pushLocal heap.rootSet pslNil address [initial]
    have pointer' := fresh.withRoots (heap.rootSet.pushLocal [address, initial])
    have measured : ({ ((after.withRoots (heap.rootSet.pushLocal [pslNil, initial])).withObject
          (blank address .valueVector 0)) with
          rootSet := heap.rootSet.pushLocal [address, initial] } : Heap).setLength address length =
        .ok ((after.withObject header).withRoots (heap.rootSet.pushLocal [address, initial])) := by
      rw [header_]
      exact setLength_withObject pointer' rfl length
    have grown := remains.represented.withObject (headerAddress ▸ fresh)
      (fun storage => by rw [headerKind] at storage; cases storage) headerUnmarked remains.below
    have unplaced : ∀ number, kept number ≠ some header.address := by
      rw [headerAddress]
      exact remains.unplaced fresh
    have covered : ∀ value ∈ (after.withObject header).rootSet.values,
        immediateP value = true ∨ value ∈ (heap.rootSet.pushLocal [address, initial]).values := by
      have same : (after.withObject header).rootSet = heap.rootSet := remains.rootSet
      rw [same]
      exact pushLocal_covers heap.rootSet [address, initial]
    rw [allocated]
    simp only [bind, Except.bind, pure, Except.pure]
    rw [linked, measured]
    simp only
    obtain failed | ⟨place, storage, after', kept', made, fresh', storageAddress, storageUnmarked,
      storageKind, capacity, bounded, stored, remains'⟩ :=
      makeStorage_remains environment length grown _ covered
    · rw [failed]
      exact .exhausted _
    · have inside : header ∈ after'.objects := by
        refine remains'.kept header List.mem_cons_self ?_
        rw [headerAddress]
        exact pushLocal_values _ List.mem_cons_self
      have pointer'' := fresh'.withRoots (heap.rootSet.pushLocal [address, initial])
      obtain ⟨filled, filled_⟩ : ∃ filled : Object,
          filled = { storage with trailing := .values (List.replicate length initial) } := ⟨_, rfl⟩
      have filledAddress : filled.address = place := filled_ ▸ storageAddress
      have filledUnmarked : filled.marked = false := filled_ ▸ storageUnmarked
      have filledKind : filled.kind = .valueVectorStorage := filled_ ▸ storageKind
      have filledLength : filled.length = length := filled_ ▸ capacity
      have filledStored : filled.trailing = .values (List.replicate length initial) := filled_ ▸ rfl
      have fill : storage.setItems 0 (List.replicate length initial) = .ok filled := by
        rw [Object.setItems, stored, filled_]
        simp only
        rw [overwrite_eq (by simp)]
        simp [bind, Except.bind, pure, Except.pure]
      have valid : ((after'.withRoots (heap.rootSet.pushLocal [address, initial])).withObject
          filled).Valid := by
        refine (remains'.represented.valid.withRoots _).withObject (filledAddress ▸ pointer'') ?_
          filledUnmarked remains'.below
        exact fun _ => ⟨_, filledStored, by rw [filledLength, List.length_replicate]⟩
      have updated := setSlot_of_mem valid (List.mem_cons_of_mem _ inside) 0 place
      rw [headerAddress] at updated
      have item : ((after'.withRoots (heap.rootSet.pushLocal [address, initial])).withObject
          storage).rootSet.rootValue heap.rootSet.localRoot 1 = .ok initial :=
        rootValue_pushLocal heap.rootSet rfl
      have result : (((after'.withRoots (heap.rootSet.pushLocal [address, initial])).withObject
          filled).replace { header with
            slots := Function.update header.slots 0 place }).rootSet.rootValue
              heap.rootSet.localRoot 0 = .ok address :=
        rootValue_pushLocal heap.rootSet rfl
      rw [made]
      simp only
      rw [item]
      simp only
      rw [changeNewest pointer'' storageAddress filled fill]
      simp only
      rw [← headerAddress] at result updated ⊢
      rw [updated]
      simp only
      rw [result]
      simp only
      rw [popRoots_local heap.rootSet [header.address, initial]]
      · have unchanged : after'.withRoots heap.rootSet = after' := by
          have same : after'.rootSet = heap.rootSet := remains'.rootSet.trans remains.rootSet
          rw [← same]
          rfl
        have stands' : Represents kept' initial datum := by
          refine remains'.rooted initial (pushLocal_values _ (List.mem_cons_of_mem _ List.mem_cons_self))
            datum (remains.rooted initial ?_ datum stands)
          exact pushLocal_values _ (List.mem_cons_of_mem _ List.mem_cons_self)
        have given := remains'.represented.admitVector fresh' remains'.below
          (List.replicate length initial) (List.replicate length datum) inside headerKind
          (by rw [headerLength, List.length_replicate]) (fun number place => unplaced number
            (remains'.fewer number _ place)) filledAddress filledUnmarked filledKind
          (by rw [filledLength, List.length_replicate]) (by rw [List.length_replicate]; exact bounded)
          filledStored (by simp)
          (by simpa using forall₂_replicate stands' length) rfl
        rw [← unchanged] at given
        exact .ok given
      · rfl

/-! ## Pushes -/

/-- An item that is stored behind the items of a vector. -/
theorem storePushed_represented (represented : Represented heap ideal places) {value item : Value}
    {number : Nat} {also : Datum} {header storage : Object} {items : List Datum}
    {contents : List Value} (finds : Finds heap ideal places value number header (.vector items))
    (holds : Holds heap.objects places (header.slots 0) items storage contents)
    (room : items.length < contents.length) (second : Represents places item also)
    (set : RootSet Value) :
    ∃ after, storePushed set.localRoot items.length
        (heap.withRoots (set.pushLocal [value, item])) = .ok (items.length, after.withRoots set) ∧
      after.rootSet = heap.rootSet ∧
      Represented after (ideal.put (.reference number) (.vector (items ++ [also]))) places := by
  obtain ⟨isVector, length, -⟩ := finds.shown
  have valid := represented.valid.withRoots (set.pushLocal [value, item])
  obtain ⟨stored, stored_⟩ : ∃ stored : Object,
      stored = { storage with trailing := .values (contents.set items.length item) } := ⟨_, rfl⟩
  have storedAddress : stored.address = storage.address := stored_ ▸ rfl
  have storedKind : stored.kind = .valueVectorStorage := stored_ ▸ holds.kind
  have storedLength : stored.length = storage.length := stored_ ▸ rfl
  have storedUnmarked : stored.marked = false :=
    stored_ ▸ represented.valid.unmarked storage holds.member
  have trailing : stored.trailing = .values (contents.set items.length item) := stored_ ▸ rfl
  have capacity : stored.length = (contents.set items.length item).length := by
    rw [storedLength, List.length_set]
    exact holds.capacity
  have apart : header.address ≠ stored.address := by
    intro same
    have equal := represented.valid.same finds.member holds.member (same.trans storedAddress)
    have kinds := holds.kind
    rw [← equal, isVector] at kinds
    cases kinds
  -- the item first: the vector is still what it was
  have written : Represented (heap.replace stored) ideal places := by
    have put := represented.putStorage items finds holds storedAddress
      (storedKind.trans holds.kind.symm) storedUnmarked trailing capacity
      (by rw [List.length_set]; exact holds.bounded) rfl
      (by rw [List.length_set]; exact holds.room)
      (by rw [List.take_set_of_le le_rfl]; exact holds.items)
    rwa [IdealHeap.put_same finds.known] at put
  have there : header ∈ (heap.replace stored).objects :=
    Heap.mem_replace.mpr (.inr ⟨finds.member, apart⟩)
  have storedThere : stored ∈ (heap.replace stored).objects :=
    Heap.mem_replace.mpr (.inl ⟨rfl, storedAddress ▸ List.mem_map_of_mem holds.member⟩)
  obtain ⟨found, member, same, thing, known, shown⟩ := written.shown finds.place
  obtain rfl := written.valid.same member there (same.trans finds.address.symm)
  have findsAfter : Finds (heap.replace stored) ideal places value number found thing :=
    ⟨member, same, finds.place, known, shown⟩
  -- then the length, which makes the item part of the vector
  obtain ⟨longer, longer_⟩ : ∃ longer : Object,
      longer = { found with length := items.length + 1 } := ⟨_, rfl⟩
  have longerAddress : longer.address = found.address := longer_ ▸ rfl
  have longerSlot : longer.slots 0 = found.slots 0 := longer_ ▸ rfl
  have shows_ : longer.Shows ((heap.replace stored).replace longer).objects places
      (.vector (items ++ [also])) := by
    refine ⟨longer_ ▸ isVector, ?_, stored, contents.set items.length item, ?_, ?_, storedKind,
      trailing, capacity, ?_, ?_, ?_⟩
    · rw [longer_, List.length_append]
      rfl
    · refine Heap.mem_replace.mpr (.inr ⟨storedThere, ?_⟩)
      rw [longerAddress]
      exact apart.symm
    · rw [longerSlot, storedAddress]
      exact holds.address
    · rw [List.length_set]
      exact holds.bounded
    · rw [List.length_append, List.length_set]
      exact room
    · have taken : (contents.set items.length item).take (items ++ [also]).length =
          contents.take items.length ++ [item] := by
        rw [List.length_append, List.length_singleton, List.take_add_one, List.take_set_of_le le_rfl,
          List.getElem?_set_self room]
        rfl
      rw [taken]
      exact List.rel_append holds.items (.cons second .nil)
  have done := written.put findsAfter longerAddress (longer_ ▸ rfl)
    (longer_ ▸ written.valid.unmarked found member) (by rw [isVector]; decide) shows_
    fun _ => .inl longerSlot
  refine ⟨(heap.replace stored).replace longer, ?_, rfl, done⟩
  have expected : expectVector (heap.withRoots (set.pushLocal [value, item])).objects value =
      .ok found := by
    rw [← finds.address]
    exact expectObject_of_mem represented.valid finds.member isVector
  have first : (heap.withRoots (set.pushLocal [value, item])).rootSet.rootValue set.localRoot 0 =
      .ok value := rootValue_pushLocal set rfl
  have last : (heap.withRoots (set.pushLocal [value, item])).rootSet.rootValue set.localRoot 1 =
      .ok item := rootValue_pushLocal set rfl
  have placed : vectorStorage (heap.withRoots (set.pushLocal [value, item])).objects found =
      .ok storage := holds.find represented
  have replaced : (heap.withRoots (set.pushLocal [value, item])).change storage.address
      (fun object => object.setItems items.length [item]) =
        .ok ((heap.withRoots (set.pushLocal [value, item])).replace stored) := by
    rw [stored_]
    exact Heap.change_of_mem valid holds.member (setItems_single holds.stored room) rfl
  have lengthened : ((heap.withRoots (set.pushLocal [value, item])).replace stored).setLength
      found.address (items.length + 1) =
        .ok (((heap.withRoots (set.pushLocal [value, item])).replace stored).replace longer) := by
    rw [longer_]
    exact setLength_of_mem (written.valid.withRoots (set.pushLocal [value, item])) there _
  rw [storePushed, first]
  simp only [bind, Except.bind, pure, Except.pure]
  rw [expected]
  simp only
  rw [placed]
  simp only
  rw [last]
  simp only
  rw [replaced]
  simp only
  rw [lengthened]
  simp only
  rw [popRoots_local set [value, item]]
  · rfl
  · rfl

/-- A header that shows a vector gets new storage that holds the same items. -/
theorem Represented.renewStorage (represented : Represented heap ideal places) {address value : Value}
    (fresh : heap.Fresh address) (below : heap.objectCount < heap.collectionLimit)
    (contents : List Value) {items : List Datum} {number : Nat} {header storage changed : Object}
    (finds : Finds heap ideal places value number header (.vector items))
    (storageAddress : storage.address = address) (storageUnmarked : storage.marked = false)
    (storageKind : storage.kind = .valueVectorStorage) (capacity : storage.length = contents.length)
    (bounded : contents.length ≤ sizeMax) (stored : storage.trailing = .values contents) (room : items.length ≤ contents.length)
    (shown : List.Forall₂ (Represents places) (contents.take items.length) items)
    (becomes : changed = { header with slots := Function.update header.slots 0 address }) :
    Represented ((heap.withObject storage).replace changed) ideal places ∧
      Finds ((heap.withObject storage).replace changed) ideal places value number changed
        (.vector items) ∧
      Holds ((heap.withObject storage).replace changed).objects places (changed.slots 0) items
        storage contents := by
  subst storageAddress
  obtain ⟨isVector, length, -⟩ := finds.shown
  have grown := represented.withObject fresh
    (fun _ => ⟨contents, stored, le_of_eq capacity⟩) storageUnmarked below
  have findsGrown : Finds (heap.withObject storage) ideal places value number header
      (.vector items) :=
    ⟨List.mem_cons_of_mem _ finds.member, finds.address, finds.place, finds.known,
      finds.shown.grows (List.subset_cons_self _ _) fun _ _ place => place⟩
  have changedAddress : changed.address = header.address := becomes ▸ rfl
  have changedKind : changed.kind = header.kind := becomes ▸ rfl
  have changedLength : changed.length = header.length := becomes ▸ rfl
  have changedSlot : changed.slots 0 = storage.address := becomes ▸ rfl
  have changedUnmarked : changed.marked = false := by
    rw [becomes]
    exact represented.valid.unmarked header finds.member
  have apart : storage.address ≠ changed.address := by
    intro equal
    rw [changedAddress] at equal
    exact fresh.unused (equal ▸ List.mem_map_of_mem finds.member)
  have holds : Holds ((heap.withObject storage).replace changed).objects places (changed.slots 0)
      items storage contents :=
    ⟨Heap.mem_replace.mpr (.inr ⟨List.mem_cons_self, apart⟩), changedSlot.symm, storageKind, stored,
      capacity, bounded, room, shown⟩
  have shows_ : changed.Shows ((heap.withObject storage).replace changed).objects places
      (.vector items) :=
    ⟨changedKind.trans isVector, changedLength.trans length, storage, contents, holds⟩
  have put := grown.put findsGrown changedAddress changedKind changedUnmarked
    (by rw [isVector]; decide) shows_ ?_
  · rw [IdealHeap.put_same finds.known] at put
    refine ⟨put, ⟨?_, changedAddress.trans finds.address, finds.place, finds.known, shows_⟩, holds⟩
    refine Heap.mem_replace.mpr (.inl ⟨rfl, ?_⟩)
    rw [changedAddress]
    exact List.mem_map_of_mem findsGrown.member
  · intro _
    right
    intro other inside vector placed slot
    obtain rfl | old := List.mem_cons.mp inside
    · rw [storageKind] at vector
      cases vector
    · exact represented.slot_ne_fresh fresh old vector placed (slot.trans changedSlot)

/-- Larger storage for a vector whose items stay. -/
theorem growVector_represented (environment : Environment)
    (represented : Represented heap ideal places) {value item : Value} {number required : Nat}
    {also : Datum} {header : Object} {items : List Datum}
    (finds : Finds heap ideal places value number header (.vector items))
    (second : Represents places item also) (small : required ≤ sizeMax)
    (more : items.length < required) :
    growVector environment heap.rootSet.localRoot required (heap.pushLocal [value, item]) =
        .error .memory ∨
      ∃ rest left header' storage contents,
        growVector environment heap.rootSet.localRoot required (heap.pushLocal [value, item]) =
          .ok (rest.withRoots (heap.rootSet.pushLocal [value, item])) ∧
        Represented rest ideal left ∧ rest.rootSet = heap.rootSet ∧
        Finds rest ideal left value number header' (.vector items) ∧
        Holds rest.objects left (header'.slots 0) items storage contents ∧
        items.length < contents.length ∧ Represents left item also := by
  obtain ⟨isVector, length, storage, contents, holds⟩ := finds.shown
  have first : (heap.pushLocal [value, item]).rootSet.rootValue heap.rootSet.localRoot 0 =
      .ok value := rootValue_pushLocal heap.rootSet rfl
  have expected : expectVector (heap.pushLocal [value, item]).objects value = .ok header := by
    rw [← finds.address]
    exact expectObject_of_mem represented.valid finds.member isVector
  have placed : vectorStorage (heap.pushLocal [value, item]).objects header = .ok storage :=
    holds.find represented
  rw [growVector, first]
  simp only [bind, Except.bind]
  rw [expected]
  simp only
  rw [placed]
  simp only
  obtain failed | ⟨capacity, grown, enough⟩ := grownCapacity_spec storage.length small
  · rw [failed]
    exact .inl rfl
  rw [grown]
  simp only
  have covered := pushLocal_covers heap.rootSet [value, item]
  obtain failed | ⟨address, newStorage, after, kept, made, fresh, newAddress, newUnmarked, newKind,
    newLength, bounded, newStored, remains⟩ :=
    makeStorage_remains environment capacity represented _ covered
  · change makeStorage environment capacity (heap.pushLocal [value, item]) = _ at failed
    rw [failed]
    exact .inl rfl
  change makeStorage environment capacity (heap.pushLocal [value, item]) = _ at made
  have findsAfter := remains.finds represented finds (pushLocal_values _ List.mem_cons_self)
  obtain ⟨-, -, oldStorage, oldContents, old⟩ := findsAfter.shown
  have pointer := fresh.withRoots (heap.rootSet.pushLocal [value, item])
  have oldAddress : oldStorage.address = storage.address := old.address.trans holds.address.symm
  have copied : oldContents.take items.length ++
      (List.replicate capacity pslNil).drop items.length =
        (oldContents.take items.length ++ List.replicate (capacity - items.length) pslNil) := by
    rw [List.drop_replicate]
  have counted : (oldContents.take items.length).length = items.length := by
    rw [List.length_take]
    exact min_eq_left old.room
  obtain ⟨filled, filled_⟩ : ∃ filled : Object, filled = { newStorage with
      trailing := .values (oldContents.take items.length ++
        List.replicate (capacity - items.length) pslNil) } := ⟨_, rfl⟩
  have filledAddress : filled.address = address := filled_ ▸ newAddress
  have filledUnmarked : filled.marked = false := filled_ ▸ newUnmarked
  have filledKind : filled.kind = .valueVectorStorage := filled_ ▸ newKind
  have filledLength : filled.length = capacity := filled_ ▸ newLength
  have filledStored : filled.trailing = .values (oldContents.take items.length ++
      List.replicate (capacity - items.length) pslNil) := filled_ ▸ rfl
  have capacityLength : (oldContents.take items.length ++
      List.replicate (capacity - items.length) pslNil).length = capacity := by
    rw [List.length_append, counted, List.length_replicate]
    omega
  have stored : filled.Stored := fun _ => ⟨_, filledStored, by rw [filledLength, capacityLength]⟩
  have fill : newStorage.setItems 0 (oldContents.take items.length) = .ok filled := by
    rw [Object.setItems, newStored, filled_]
    simp only
    rw [overwrite_eq (by rw [counted, List.length_replicate]; omega)]
    simp only [List.take_zero, List.nil_append, Nat.zero_add, counted, copied]
    rfl
  have grownHeap := remains.represented.withObject (filledAddress ▸ fresh) stored filledUnmarked
    remains.below
  have valid : ((after.withRoots (heap.rootSet.pushLocal [value, item])).withObject
      newStorage).Valid :=
    (remains.represented.valid.withRoots _).withObject (newAddress ▸ pointer)
      (fun _ => ⟨_, newStored, by rw [newLength, List.length_replicate]⟩) newUnmarked remains.below
  have foundOld := dereference_of_mem valid.distinct (List.mem_cons_of_mem _ old.member)
  have foundHeader := dereference_of_mem valid.distinct (List.mem_cons_of_mem _ findsAfter.member)
  have itemsCopied : oldStorage.firstItems header.length =
      .ok (oldContents.take items.length) := by
    have room := old.room
    rw [Object.firstItems, old.stored, length]
    exact if_neg (by omega)
  have valid' : ((after.withRoots (heap.rootSet.pushLocal [value, item])).withObject filled).Valid :=
    grownHeap.valid.withRoots _
  have updated := setSlot_of_mem valid' (List.mem_cons_of_mem _ findsAfter.member) 0 address
  obtain ⟨renewed, findsLast, holdsLast⟩ := remains.represented.renewStorage fresh remains.below
    (oldContents.take items.length ++ List.replicate (capacity - items.length) pslNil) findsAfter
    filledAddress filledUnmarked filledKind (by rw [filledLength, capacityLength])
    (by rw [capacityLength]; exact bounded) filledStored (by rw [capacityLength]; omega)
    (by rw [List.take_append_of_le_length (by omega), List.take_of_length_le (by omega)]
        exact old.items) rfl
  refine .inr ⟨_, kept, _, filled, _, ?_, renewed, remains.rootSet, findsLast, holdsLast, ?_, ?_⟩
  · rw [made]
    simp only
    rw [← oldAddress, foundOld]
    simp only
    rw [foundHeader]
    simp only
    rw [itemsCopied]
    simp only
    rw [changeNewest pointer newAddress filled fill]
    simp only
    rw [updated]
    rfl
  · rw [capacityLength]
    omega
  · exact remains.rooted item (pushLocal_values _ (List.mem_cons_of_mem _ List.mem_cons_self)) also
      second

theorem valueVectorPush_agrees (environment : Environment)
    (represented : Represented heap ideal places) {value item : Value} {datum also : Datum}
    (stands : Represents places value datum) (second : Represents places item also) :
    Agrees .memory (fun left right => left.1 = right.1 ∧ ∃ places, Represented left.2 right.2 places)
      (valueVectorPush environment value item heap) (ideal.vectorPush datum also) := by
  have first : (heap.pushLocal [value, item]).rootSet.rootValue heap.rootSet.localRoot 0 =
      .ok value := rootValue_pushLocal heap.rootSet rfl
  rw [valueVectorPush, IdealHeap.vectorPush, first]
  refine Agrees.bind (vector_agrees represented stands) ?_
  rintro header items ⟨number, rfl, finds⟩
  obtain ⟨isVector, length, storage, contents, holds⟩ := finds.shown
  have placed : vectorStorage (heap.pushLocal [value, item]).objects header = .ok storage :=
    holds.find represented
  rw [length]
  by_cases full : items.length = sizeMax
  · rw [if_pos full]
    exact .exhausted _
  rw [if_neg full, placed]
  simp only [bind, Except.bind, pure, Except.pure]
  by_cases room : storage.length < items.length + 1
  · rw [if_pos room]
    have small : items.length + 1 ≤ sizeMax := by
      have := holds.room
      have := holds.bounded
      omega
    obtain failed | ⟨rest, left, header', storage', contents', grown, renewed, rootSet, finds', holds',
      room', second'⟩ := growVector_represented environment represented finds second small
        (Nat.lt_succ_self _)
    · rw [failed]
      exact .exhausted _
    · obtain ⟨after, pushed, sameRoots, done⟩ := storePushed_represented renewed finds' holds' room'
        second' heap.rootSet
      rw [grown]
      simp only
      rw [pushed]
      have same : after.withRoots heap.rootSet = after := by
        rw [← rootSet, ← sameRoots]
        rfl
      exact .ok ⟨rfl, left, same ▸ done⟩
  · rw [if_neg room]
    have capacity := holds.capacity
    obtain ⟨after, pushed, sameRoots, done⟩ := storePushed_represented represented finds holds
      (by omega) second heap.rootSet
    change Agrees _ _ (storePushed heap.rootSet.localRoot items.length
      (heap.withRoots (heap.rootSet.pushLocal [value, item]))) _
    rw [pushed]
    have same : after.withRoots heap.rootSet = after := by
      rw [← sameRoots]
      rfl
    exact .ok ⟨rfl, places, same ▸ done⟩

end Runtime
