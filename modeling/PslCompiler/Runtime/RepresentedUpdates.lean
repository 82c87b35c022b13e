import PslCompiler.Runtime.RepresentedConstructors

/-! # Updates of a heap that represents an ideal heap

An update replaces one object. If the object shows a thing itself, the thing changes; if it is the
storage of a vector, the vector changes.
-/

namespace Runtime

open Heaps (Agrees)

variable {heap : Heap} {ideal : IdealHeap} {places : Places}

/-! ## Replacing objects that things have -/

section Put

variable {value : Value} {number : Nat} {before changed : Object} {thing after : Thing}

theorem IdealHeap.put_things :
    (ideal.put (.reference number) after).things = ideal.things.set number after := rfl

/-- To put back what is there changes nothing. -/
theorem IdealHeap.put_same (there : ideal.things[number]? = some thing) :
    ideal.put (.reference number) thing = ideal := by
  obtain ⟨inside, rfl⟩ := List.getElem?_eq_some_iff.mp there
  have same : ideal.things.set number ideal.things[number] = ideal.things :=
    List.set_getElem_self inside
  change { ideal with things := ideal.things.set number ideal.things[number] } = ideal
  rw [same]

theorem Thing.kind_of_shown {objects : List Object} (shows_ : before.Shows objects places thing) :
    before.kind ≠ .valueVectorStorage := by
  rw [shows_.kind]
  exact thing.kind_ne_storage

/-- An object that has a place is replaced by one that shows another thing. -/
theorem Represented.put (represented : Represented heap ideal places)
    (finds : Finds heap ideal places value number before thing)
    (address : changed.address = before.address) (kind : changed.kind = before.kind)
    (unmarked : changed.marked = false) (plain : before.kind ≠ .symbol)
    (shows_ : changed.Shows (heap.replace changed).objects places after)
    (owned : before.kind = .valueVector → changed.slots 0 = before.slots 0 ∨
      ∀ other ∈ heap.objects, other.kind = .valueVector →
        (∃ number, places number = some other.address) → other.slots 0 ≠ changed.slots 0) :
    Represented (heap.replace changed) (ideal.put (.reference number) after) places := by
  have notStorage := Thing.kind_of_shown finds.shown
  refine represented.replace finds.member address kind
    (fun storage => absurd (kind.symm.trans storage) notStorage) unmarked rfl ?_
    fun vector _ => owned vector
  intro other object member place
  obtain ⟨inside, known⟩ := List.getElem?_eq_some_iff.mp finds.known
  obtain ⟨rfl, -⟩ | ⟨old, apart⟩ := Heap.mem_replace.mp member
  · have same : other = number := by
      refine represented.injective place ?_
      rw [address, finds.address]
      exact finds.place
    subst same
    exact ⟨after, List.getElem?_set_self inside, shows_⟩
  · have differs : number ≠ other := by
      rintro rfl
      have same := Option.some.inj (place.symm.trans finds.place)
      exact apart (same.trans (finds.address.symm.trans address.symm))
    obtain ⟨found, there, same, shown, known', shows'⟩ := represented.shown place
    obtain rfl := represented.valid.same there old same
    refine ⟨shown, ?_, shows'.replace represented.valid finds.member address kind
      (fun symbol => absurd symbol plain) (fun storage => absurd storage notStorage)⟩
    rw [IdealHeap.put_things, List.getElem?_set_ne differs]
    exact known'

/-- The storage of a vector is replaced by storage that holds other items. -/
theorem Represented.putStorage (represented : Represented heap ideal places) (others : List Datum)
    {header : Object} {items : List Datum} {contents items' : List Value}
    (finds : Finds heap ideal places value number header (.vector items))
    (holds : Holds heap.objects places (header.slots 0) items before contents)
    (address : changed.address = before.address) (kind : changed.kind = before.kind)
    (unmarked : changed.marked = false) (stored : changed.trailing = .values items')
    (capacity : changed.length = items'.length) (bounded : items'.length ≤ sizeMax)
    (same : others.length = items.length) (room : others.length ≤ items'.length)
    (shown : List.Forall₂ (Represents places) (items'.take others.length) others) :
    Represented (heap.replace changed) (ideal.put (.reference number) (.vector others)) places := by
  have notSymbol : before.kind ≠ .symbol := by
    rw [holds.kind]
    decide
  have notVector : before.kind ≠ .valueVector := by
    rw [holds.kind]
    decide
  obtain ⟨isVector, length, -⟩ := finds.shown
  refine represented.replace holds.member address kind
    (fun _ => ⟨items', stored, le_of_eq capacity⟩) unmarked rfl ?_
    fun vector _ => absurd vector notVector
  intro other object member place
  obtain ⟨inside, known⟩ := List.getElem?_eq_some_iff.mp finds.known
  have here : changed ∈ (heap.replace changed).objects :=
    Heap.mem_replace.mpr (.inl ⟨rfl, address ▸ List.mem_map_of_mem holds.member⟩)
  obtain ⟨found, there, foundAt, thing, known', shows'⟩ := represented.shown place
  obtain ⟨rfl, -⟩ | ⟨old, apart⟩ := Heap.mem_replace.mp member
  · obtain rfl := represented.valid.same there holds.member (foundAt.trans address)
    exact absurd holds.kind (Thing.kind_of_shown shows')
  · obtain rfl := represented.valid.same there old foundAt
    by_cases owner : found = header
    · subst owner
      have sameNumber : other = number := by
        refine represented.injective place ?_
        rw [finds.address]
        exact finds.place
      subst sameNumber
      refine ⟨.vector others, List.getElem?_set_self inside, isVector, length.trans same.symm,
        changed, items', here, address.trans holds.address, kind.trans holds.kind, stored, capacity,
        bounded, room, shown⟩
    · have differs : number ≠ other := by
        rintro rfl
        have sameAddress := Option.some.inj (place.symm.trans finds.place)
        exact owner (represented.valid.same old finds.member
          (sameAddress.trans finds.address.symm))
      refine ⟨thing, ?_, shows'.replace represented.valid holds.member address kind
        (fun symbol => absurd symbol notSymbol) fun _ vector slot => ?_⟩
      · rw [IdealHeap.put_things, List.getElem?_set_ne differs]
        exact known'
      · refine owner (represented.owned old finds.member vector isVector ⟨other, place⟩
          ⟨number, ?_⟩ (slot.trans holds.address))
        rw [finds.address]
        exact finds.place

end Put

theorem setSlot_of_mem (valid : heap.Valid) {object : Object} (member : object ∈ heap.objects)
    (index : Fin 3) (value : Value) :
    heap.setSlot object.address index value =
      .ok (heap.replace { object with slots := Function.update object.slots index value }) :=
  Heap.change_of_mem valid member rfl rfl

theorem setLength_of_mem (valid : heap.Valid) {object : Object} (member : object ∈ heap.objects)
    (length : Nat) :
    heap.setLength object.address length = .ok (heap.replace { object with length := length }) :=
  Heap.change_of_mem valid member rfl rfl

/-- The frame of a call is the newest one when the call returns. -/
theorem popRoots_local (set : RootSet Value) (values : List Value)
    (linked : heap.rootSet = set.pushLocal values) :
    heap.popRoots set.localRoot = .ok (heap.withRoots set) := by
  simp [Heap.popRoots, linked, Heap.withRoots, RootSet.popRoots, RootSet.pushLocal, bind,
    Except.bind, pure, Except.pure]

/-! ## Strings -/

theorem overwrite_single {α : Type} {contents : List α} {index : Nat} {item : α}
    (inside : index < contents.length) :
    overwrite contents index [item] = .ok (contents.set index item) := by
  rw [overwrite, if_pos (by simpa using inside), List.set_eq_take_append_cons_drop, if_pos inside]
  simp

theorem stringSetByte_agrees (represented : Represented heap ideal places) {value : Value}
    {datum : Datum} (stands : Represents places value datum) (index : Nat) (byte : UInt8) :
    Agrees .memory (fun left right => Represented left right places ∧ left.rootSet = heap.rootSet)
      (stringSetByte heap value index byte) (ideal.stringSetByte datum index byte) := by
  unfold stringSetByte IdealHeap.stringSetByte
  refine (string_agrees represented stands).bind ?_
  rintro object bytes ⟨number, rfl, finds⟩
  obtain ⟨kind, length, trailing⟩ := finds.shown
  by_cases outside : bytes.length ≤ index
  · rw [if_pos (by omega), if_pos outside]
    exact .fault Fault.abort
  · rw [if_neg (by omega), if_neg outside]
    obtain ⟨changed, becomes⟩ : ∃ changed : Object,
        changed = { object with trailing := .bytes (bytes.set index byte ++ [0]) } := ⟨_, rfl⟩
    have step : object.setBytes index [byte] = .ok changed := by
      rw [Object.setBytes, trailing, becomes]
      simp only
      rw [overwrite_single (by rw [List.length_append]; omega), List.set_append_left _ _ (by omega)]
      rfl
    have address : changed.address = object.address := becomes ▸ rfl
    rw [Heap.change_of_mem represented.valid finds.member step address]
    refine .ok ⟨represented.put finds address (becomes ▸ rfl) ?_ ?_ ?_ ?_, rfl⟩
    · rw [becomes]
      exact represented.valid.unmarked object finds.member
    · rw [kind]
      decide
    · rw [becomes]
      exact ⟨kind, by rw [List.length_set]; exact length, rfl⟩
    · intro vector
      rw [kind] at vector
      cases vector

/-! ## Items of vectors -/

theorem Holds.find (represented : Represented heap ideal places) {header storage : Object}
    {items : List Datum} {contents : List Value}
    (holds : Holds heap.objects places (header.slots 0) items storage contents) :
    vectorStorage heap.objects header = .ok storage := by
  rw [vectorStorage, expectObject, ← holds.address, represented.valid.findObject holds.member]
  exact if_neg (not_not.mpr holds.kind)

theorem Holds.item {header storage : Object} {items : List Datum} {contents : List Value}
    (holds : Holds heap.objects places (header.slots 0) items storage contents) {index : Nat}
    (inside : index < items.length) :
    ∃ value, contents[index]? = some value ∧ Represents places value items[index] := by
  have room := holds.room
  have pairs := (List.forall₂_iff_get.mp holds.items).2 index
    (by rw [List.length_take]; omega) inside
  refine ⟨contents.get ⟨index, by omega⟩, List.getElem?_eq_getElem (by omega), ?_⟩
  simpa using pairs

theorem valueVectorRef_agrees (represented : Represented heap ideal places) {value : Value}
    {datum : Datum} (stands : Represents places value datum) (index : Nat) :
    Agrees .memory (Represents places) (valueVectorRef heap value index)
      (ideal.vectorRef datum index) := by
  unfold valueVectorRef IdealHeap.vectorRef
  refine (vector_agrees represented stands).bind ?_
  rintro header items ⟨number, rfl, finds⟩
  obtain ⟨kind, length, storage, contents, holds⟩ := finds.shown
  by_cases inside : index < items.length
  · obtain ⟨item, there, shows_⟩ := holds.item inside
    rw [if_neg (by omega), holds.find represented, List.getElem?_eq_getElem inside]
    simp only [bind, Except.bind]
    rw [Object.itemAt, holds.stored]
    simp only [there]
    exact .ok shows_
  · rw [if_pos (by omega), List.getElem?_eq_none (by omega)]
    exact .fault Fault.abort

/-- Setting an item of storage. -/
theorem setItems_single {storage : Object} {contents : List Value} {index : Nat} {item : Value}
    (stored : storage.trailing = .values contents) (inside : index < contents.length) :
    storage.setItems index [item] =
      .ok { storage with trailing := .values (contents.set index item) } := by
  rw [Object.setItems, stored]
  simp only
  rw [overwrite_single inside]
  rfl

theorem forall₂_set {V W : Type} {rel : V → W → Prop} {left : List V} {right : List W}
    (pairs : List.Forall₂ rel left right) {value : V} {datum : W} (stands : rel value datum) :
    ∀ index, List.Forall₂ rel (left.set index value) (right.set index datum) := by
  induction pairs with
  | nil => exact fun _ => .nil
  | cons here rest ih =>
      intro index
      cases index with
      | zero => exact .cons stands rest
      | succ index => exact .cons here (ih index)

theorem valueVectorSet_agrees (represented : Represented heap ideal places) {value item : Value}
    {datum also : Datum} (stands : Represents places value datum)
    (second : Represents places item also) (index : Nat) :
    Agrees .memory
      (fun left right => left.1 = item ∧ Represented left.2 right places ∧
        left.2.rootSet = heap.rootSet)
      (valueVectorSet heap value index item) (ideal.vectorSet datum index also) := by
  unfold valueVectorSet IdealHeap.vectorSet
  refine (vector_agrees represented stands).bind ?_
  rintro header items ⟨number, rfl, finds⟩
  obtain ⟨kind, length, storage, contents, holds⟩ := finds.shown
  have room := holds.room
  by_cases outside : items.length ≤ index
  · rw [if_pos (by omega), if_pos outside]
    exact .fault Fault.abort
  · rw [if_neg (by omega), if_neg outside]
    have inside : index < contents.length := by omega
    simp only [bind, Except.bind, pure, Except.pure]
    rw [holds.find represented]
    simp only
    have replaced : heap.change storage.address (fun object => object.setItems index [item]) =
        .ok (heap.replace { storage with trailing := .values (contents.set index item) }) :=
      Heap.change_of_mem represented.valid holds.member (setItems_single holds.stored inside) rfl
    rw [replaced]
    refine .ok ⟨rfl, represented.putStorage (items.set index also) finds holds rfl rfl ?_ rfl ?_ ?_
      ?_ ?_ ?_, rfl⟩
    · exact represented.valid.unmarked storage holds.member
    · rw [List.length_set]
      exact holds.capacity
    · rw [List.length_set]
      exact holds.bounded
    · rw [List.length_set]
    · rw [List.length_set, List.length_set]
      exact room
    · rw [List.length_set, List.take_set]
      exact forall₂_set holds.items second index

end Runtime
