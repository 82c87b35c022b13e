import PslCompiler.Runtime.Collection
import PslCompiler.Runtime.Programs

/-! # A heap represents an ideal heap

Each thing that the program can still reach has the address of an object that shows it. A collection
and an allocation keep this for what the roots reach, and forget the addresses of other things.
-/

namespace Runtime

/-- The addresses of the things that are left. -/
abbrev Places := Nat → Option Value

/-- A value stands for a datum. -/
def Represents (places : Places) (value : Value) : Datum → Prop
  | .word word => value = word ∧ immediateP word = true
  | .reference number => places number = some value

/-- The chain of symbols that starts with a value. -/
def SymbolChain (objects : List Object) (places : Places) : Value → List Nat → Prop
  | first, [] => first = pslNil
  | first, number :: rest => places number = some first ∧
      ∃ symbol ∈ objects, symbol.address = first ∧ symbol.kind = .symbol ∧
        SymbolChain objects places (symbol.slots 2) rest

/-- Storage holds items, and may have room for more. -/
structure Holds (objects : List Object) (places : Places) (address : Value)
    (items : List Datum) (storage : Object) (contents : List Value) : Prop where
  member : storage ∈ objects
  address : storage.address = address
  kind : storage.kind = .valueVectorStorage
  stored : storage.trailing = .values contents
  capacity : storage.length = contents.length
  bounded : contents.length ≤ sizeMax
  room : items.length ≤ contents.length
  items : List.Forall₂ (Represents places) (contents.take items.length) items

/-- An object shows a thing. -/
def Object.Shows (objects : List Object) (places : Places) (object : Object) : Thing → Prop
  | .pair first rest => object.kind = .cons ∧ Represents places (object.slots 0) first ∧
      Represents places (object.slots 1) rest
  | .string bytes => object.kind = .string ∧ object.length = bytes.length ∧
      object.trailing = .bytes (bytes ++ [0])
  | .symbol name => object.kind = .symbol ∧ Represents places (object.slots 0) name
  | .package name symbols => object.kind = .package ∧ Represents places (object.slots 0) name ∧
      symbols.Nodup ∧ SymbolChain objects places (object.slots 1) symbols
  | .closure code captured => object.kind = .closure ∧ object.code = code ∧
      Represents places (object.slots 0) captured
  | .vector items => object.kind = .valueVector ∧ object.length = items.length ∧
      ∃ storage contents, Holds objects places (object.slots 0) items storage contents

/-! ## Root sets that correspond -/

section RootSets

variable {V W : Type}

theorem forall₂_mono {rel stronger : V → W → Prop} {left : List V} {right : List W}
    (pairs : List.Forall₂ rel left right)
    (within : ∀ value ∈ left, ∀ datum, rel value datum → stronger value datum) :
    List.Forall₂ stronger left right := by
  induction pairs with
  | nil => exact .nil
  | cons here _ ih =>
      exact .cons (within _ List.mem_cons_self _ here)
        (ih fun value member => within value (List.mem_cons_of_mem _ member))

inductive PermanentRoots.Related (rel : V → W → Prop) : PermanentRoots V → PermanentRoots W → Prop
  | registered {array : Nat} {left : List V} {right : List W} (values : List.Forall₂ rel left right) :
      Related rel (.registered array left) (.registered array right)
  | currentValues : Related rel .currentValues .currentValues

structure RootFrame.Related (rel : V → W → Prop) (left : RootFrame V) (right : RootFrame W) :
    Prop where
  root : left.root = right.root
  values : List.Forall₂ rel left.values right.values

structure ValueHandle.Related (rel : V → W → Prop) (left : ValueHandle V) (right : ValueHandle W) :
    Prop where
  token : left.token = right.token
  value : rel left.value right.value

structure RootSet.Related (rel : V → W → Prop) (left : RootSet V) (right : RootSet W) : Prop where
  roots : List.Forall₂ (RootFrame.Related rel) left.roots right.roots
  permanentRoots :
    List.Forall₂ (PermanentRoots.Related rel) left.permanentRoots right.permanentRoots
  valueHandles : List.Forall₂ (ValueHandle.Related rel) left.valueHandles right.valueHandles
  nextValueHandle : left.nextValueHandle = right.nextValueHandle
  valueHandleCount : left.valueHandleCount = right.valueHandleCount
  firstValue : rel left.currentValues.1 right.currentValues.1
  secondValue : rel left.currentValues.2 right.currentValues.2
  currentCount : left.currentCount = right.currentCount
  initialized : left.initialized = right.initialized

/-- The array of multiple values is among the roots once it has been used. -/
structure RootSet.Registered (set : RootSet Value) (ideal : RootSet Datum) : Prop where
  used : set.initialized = true → .currentValues ∈ set.permanentRoots
  unused : set.initialized = false → ideal.currentValues = (.word 0#64, .word 0#64)

theorem RootSet.Related.mono {rel stronger : V → W → Prop} {left : RootSet V} {right : RootSet W}
    (related : left.Related rel right)
    (values : ∀ value ∈ left.values, ∀ datum, rel value datum → stronger value datum)
    (first : stronger left.currentValues.1 right.currentValues.1)
    (second : stronger left.currentValues.2 right.currentValues.2) :
    left.Related stronger right := by
  have inRoots : ∀ frame ∈ left.roots, ∀ value ∈ frame.values, value ∈ left.values := by
    intro frame member value inside
    exact List.mem_append_left _ (List.mem_append_left _ (List.mem_flatMap.mpr ⟨frame, member, inside⟩))
  have inPermanent : ∀ array ∈ left.permanentRoots, ∀ value ∈ left.permanentValues array,
      value ∈ left.values := by
    intro array member value inside
    exact List.mem_append_left _ (List.mem_append_right _ (List.mem_flatMap.mpr ⟨array, member, inside⟩))
  have inHandles : ∀ handle ∈ left.valueHandles, handle.value ∈ left.values := fun handle member =>
    List.mem_append_right _ (List.mem_map_of_mem member)
  refine { related with
    firstValue := first
    secondValue := second
    roots := ?_
    permanentRoots := ?_
    valueHandles := ?_ }
  · have pairs := related.roots
    generalize left.roots = frames at pairs inRoots
    generalize right.roots = others at pairs
    induction pairs with
    | nil => exact .nil
    | cons here _ ih =>
        refine .cons ⟨here.root, forall₂_mono here.values fun value member => values value
          (inRoots _ List.mem_cons_self value member)⟩ (ih fun frame member => ?_)
        exact inRoots frame (List.mem_cons_of_mem _ member)
  · have pairs := related.permanentRoots
    generalize left.permanentRoots = arrays at pairs inPermanent
    generalize right.permanentRoots = others at pairs
    induction pairs with
    | nil => exact .nil
    | cons here _ ih =>
        refine .cons ?_ (ih fun array member => inPermanent array (List.mem_cons_of_mem _ member))
        cases here with
        | registered pairs =>
            exact .registered (forall₂_mono pairs fun value member => values value
              (inPermanent _ List.mem_cons_self value member))
        | currentValues => exact .currentValues
  · have pairs := related.valueHandles
    generalize left.valueHandles = handles at pairs inHandles
    generalize right.valueHandles = others at pairs
    induction pairs with
    | nil => exact .nil
    | cons here _ ih =>
        exact .cons ⟨here.token, values _ (inHandles _ List.mem_cons_self) _ here.value⟩
          (ih fun handle member => inHandles handle (List.mem_cons_of_mem _ member))

end RootSets

/-! ## Representation -/

/-- A heap represents an ideal heap, with some of its things at places. -/
structure Represented (heap : Heap) (ideal : IdealHeap) (places : Places) : Prop where
  valid : heap.Valid
  injective : ∀ {first second address}, places first = some address →
    places second = some address → first = second
  shown : ∀ {number address}, places number = some address →
    ∃ object ∈ heap.objects, object.address = address ∧
      ∃ thing, ideal.things[number]? = some thing ∧ object.Shows heap.objects places thing
  owned : ∀ {left right : Object}, left ∈ heap.objects → right ∈ heap.objects →
    left.kind = .valueVector → right.kind = .valueVector →
    (∃ number, places number = some left.address) →
    (∃ number, places number = some right.address) → left.slots 0 = right.slots 0 → left = right
  rooted : heap.rootSet.Related (Represents places) ideal.rootSet
  registered : heap.rootSet.Registered ideal.rootSet

section Values

variable {heap : Heap} {ideal : IdealHeap} {places : Places} {value : Value} {datum : Datum}

theorem immediateP_iff : immediateP value = true ↔ value = 0#64 ∨ value &&& 7#64 ≠ 0#64 := by
  rw [immediateP, decide_eq_true_eq]

theorem Represents.nil : Represents places pslNil .nil :=
  ⟨rfl, by decide⟩

/-- A word that is no address is never found as an object. -/
theorem findObject_immediate (immediate : immediateP value = true) (objects : List Object) :
    findObject objects value = none :=
  if_pos (immediateP_iff.mp immediate)

theorem Represented.held (represented : Represented heap ideal places) {number : Nat}
    (place : places number = some value) : value ∈ heap.addresses := by
  obtain ⟨object, member, address, -⟩ := represented.shown place
  exact address ▸ List.mem_map_of_mem member

theorem Represented.pointer (represented : Represented heap ideal places) {number : Nat}
    (place : places number = some value) : value ≠ 0#64 ∧ value &&& 7#64 = 0#64 := by
  obtain ⟨object, member, rfl, -⟩ := represented.shown place
  exact represented.valid.placed object member

theorem Represented.not_immediate (represented : Represented heap ideal places) {number : Nat}
    (place : places number = some value) : immediateP value = false := by
  obtain ⟨nonzero, aligned⟩ := represented.pointer place
  rw [← Bool.not_eq_true, immediateP_iff]
  rintro (zero | tagged)
  · exact nonzero zero
  · exact tagged aligned

/-- Values are the same exactly if what they stand for is. -/
theorem Represented.eq_iff (represented : Represented heap ideal places) {other : Value}
    {also : Datum} (first : Represents places value datum) (second : Represents places other also) :
    value = other ↔ datum = also := by
  cases datum with
  | word word =>
      obtain ⟨rfl, immediate⟩ := first
      cases also with
      | word word' =>
          obtain ⟨rfl, -⟩ := second
          rw [Datum.word.injEq]
      | reference number =>
          have pointer := represented.not_immediate second
          constructor
          · rintro rfl
            rw [immediate] at pointer
            cases pointer
          · intro impossible
            cases impossible
  | reference number =>
      have pointer := represented.not_immediate first
      cases also with
      | word word =>
          obtain ⟨rfl, immediate⟩ := second
          constructor
          · rintro rfl
            rw [immediate] at pointer
            cases pointer
          · intro impossible
            cases impossible
      | reference number' =>
          rw [Datum.reference.injEq]
          constructor
          · rintro rfl
            exact represented.injective first second
          · rintro rfl
            exact Option.some.inj (first.symm.trans second)

/-- What is found at a value that stands for a datum. -/
theorem Represented.find (represented : Represented heap ideal places)
    (stands : Represents places value datum) :
    findObject heap.objects value = none ∧ ideal.thing datum = .error .abort ∨
      ∃ object ∈ heap.objects, findObject heap.objects value = some object ∧
        object.address = value ∧
        ∃ number thing, datum = .reference number ∧ places number = some value ∧
          ideal.things[number]? = some thing ∧ ideal.thing datum = .ok thing ∧
          object.Shows heap.objects places thing := by
  cases datum with
  | word word =>
      obtain ⟨rfl, immediate⟩ := stands
      exact .inl ⟨findObject_immediate immediate heap.objects, rfl⟩
  | reference number =>
      obtain ⟨object, member, address, thing, there, shows_⟩ := represented.shown stands
      refine .inr ⟨object, member, address ▸ represented.valid.findObject member, address, number,
        thing, rfl, stands, there, ?_, shows_⟩
      rw [IdealHeap.thing, there]

end Values

/-! ## Forgetting what the roots do not reach -/

section Restriction

variable {heap after : Heap} {ideal : IdealHeap} {places : Places} {value : Value} {datum : Datum}

open Classical in
/-- The places of the things that values reach. -/
noncomputable def Places.within (places : Places) (reached : Value → Prop) : Places :=
  fun number => (places number).filter fun address => decide (reached address)

open Classical in
theorem Places.within_some {reached : Value → Prop} {number : Nat} {address : Value} :
    places.within reached number = some address ↔ places number = some address ∧ reached address := by
  rw [Places.within, Option.filter_eq_some_iff, decide_eq_true_eq]

/-- A value that an object names is an object, or stands for itself. -/
theorem Represented.named (represented : Represented heap ideal places) {roots : List Value}
    {object : Object} (member : object ∈ heap.objects)
    (reached : heap.Reaches roots object.address) (named : value ∈ object.children)
    (stands : Represents places value datum) :
    Represents (places.within (heap.Reaches roots)) value datum := by
  cases datum with
  | word word => exact stands
  | reference number =>
      exact Places.within_some.mpr ⟨stands,
        Heap.Reaches.step represented.valid reached member named (represented.held stands)⟩

theorem children_slots {object : Object} {slots : List (Fin 3)}
    (differs : object.kind ≠ .valueVectorStorage) (named : childSlots object.kind = .ok slots) :
    object.children = slots.map object.slots := by
  rw [Object.children, if_neg differs, named]

theorem children_storage {object : Object} {contents : List Value}
    (kind : object.kind = .valueVectorStorage) (values : object.trailing = .values contents) :
    object.children = contents.take object.length := by
  rw [Object.children, if_pos kind, values]

/-- The chain of symbols that starts with a value that is reached stays. -/
theorem SymbolChain.within (represented : Represented heap ideal places) {roots : List Value}
    (kept : ∀ object ∈ heap.objects, heap.Reaches roots object.address → object ∈ after.objects) :
    ∀ (symbols : List Nat) (first : Value), SymbolChain heap.objects places first symbols →
      (∀ number, places number = some first → heap.Reaches roots first) →
      SymbolChain after.objects (places.within (heap.Reaches roots)) first symbols := by
  intro symbols
  induction symbols with
  | nil =>
      intro first chain _
      exact chain
  | cons number rest ih =>
      intro first chain reached
      obtain ⟨place, symbol, member, address, kind, others⟩ := chain
      have here : heap.Reaches roots symbol.address := address ▸ reached number place
      refine ⟨Places.within_some.mpr ⟨place, reached number place⟩, symbol,
        kept symbol member here, address, kind, ih _ others ?_⟩
      intro next placed
      have named : symbol.slots 2 ∈ symbol.children := by
        rw [children_slots (by rw [kind]; decide) (by rw [kind]; rfl)]
        simp
      exact Heap.Reaches.step represented.valid here member named (represented.held placed)

/-- An object that is reached shows its thing as before. -/
theorem Object.Shows.within (represented : Represented heap ideal places) {roots : List Value}
    (kept : ∀ object ∈ heap.objects, heap.Reaches roots object.address → object ∈ after.objects)
    {object : Object} (member : object ∈ heap.objects)
    (reached : heap.Reaches roots object.address) {thing : Thing}
    (shows_ : object.Shows heap.objects places thing) :
    object.Shows after.objects (places.within (heap.Reaches roots)) thing := by
  cases thing with
  | pair first rest =>
      obtain ⟨kind, left, right⟩ := shows_
      have children := @children_slots object [0, 1]
        (by rw [kind]; decide) (by rw [kind]; rfl)
      exact ⟨kind, represented.named member reached (by rw [children]; simp) left,
        represented.named member reached (by rw [children]; simp) right⟩
  | string bytes => exact shows_
  | symbol name =>
      obtain ⟨kind, stands⟩ := shows_
      have children := @children_slots object [0, 1, 2]
        (by rw [kind]; decide) (by rw [kind]; rfl)
      exact ⟨kind, represented.named member reached (by rw [children]; simp) stands⟩
  | package name symbols =>
      obtain ⟨kind, stands, distinct, chain⟩ := shows_
      have children := @children_slots object [0, 1]
        (by rw [kind]; decide) (by rw [kind]; rfl)
      refine ⟨kind, represented.named member reached (by rw [children]; simp) stands, distinct, ?_⟩
      refine chain.within represented kept _ _ fun number placed => ?_
      exact Heap.Reaches.step represented.valid reached member (by rw [children]; simp)
        (represented.held placed)
  | closure code captured =>
      obtain ⟨kind, same, stands⟩ := shows_
      have children := @children_slots object [0]
        (by rw [kind]; decide) (by rw [kind]; rfl)
      exact ⟨kind, same, represented.named member reached (by rw [children]; simp) stands⟩
  | vector items =>
      obtain ⟨kind, length, storage, contents, holds⟩ := shows_
      have children := @children_slots object [0]
        (by rw [kind]; decide) (by rw [kind]; rfl)
      have storageReached : heap.Reaches roots storage.address := by
        refine Heap.Reaches.step represented.valid reached member ?_
          (List.mem_map_of_mem holds.member)
        rw [children, holds.address]
        simp
      have inside := children_storage holds.kind holds.stored
      rw [holds.capacity, List.take_length] at inside
      refine ⟨kind, length, storage, contents, { holds with
        member := kept storage holds.member storageReached
        items := ?_ }⟩
      refine forall₂_mono holds.items fun value member datum stands => ?_
      exact represented.named holds.member storageReached
        (inside ▸ List.mem_of_mem_take member) stands

/-- What is left of a heap represents the same ideal heap as long as everything is left that some
roots reach, the registered ones among them. -/
theorem Represented.restrict (represented : Represented heap ideal places) {roots : List Value}
    (covered : ∀ value ∈ heap.rootSet.values, immediateP value = true ∨ value ∈ roots)
    (valid : after.Valid) (within : after.objects ⊆ heap.objects)
    (same : after.rootSet = heap.rootSet)
    (kept : ∀ object ∈ heap.objects, heap.Reaches roots object.address → object ∈ after.objects) :
    Represented after ideal (places.within (heap.Reaches roots)) where
  valid := valid
  injective first second :=
    represented.injective (Places.within_some.mp first).1 (Places.within_some.mp second).1
  shown place := by
    obtain ⟨placed, reached⟩ := Places.within_some.mp place
    obtain ⟨object, member, rfl, thing, there, shows_⟩ := represented.shown placed
    exact ⟨object, kept object member reached, rfl, thing, there,
      shows_.within represented kept member reached⟩
  owned left right leftKind rightKind leftPlaced rightPlaced slot := by
    obtain ⟨first, leftPlace⟩ := leftPlaced
    obtain ⟨second, rightPlace⟩ := rightPlaced
    exact represented.owned (within left) (within right) leftKind rightKind
      ⟨first, (Places.within_some.mp leftPlace).1⟩ ⟨second, (Places.within_some.mp rightPlace).1⟩
      slot
  rooted := by
    rw [same]
    have named : ∀ value ∈ heap.rootSet.values, ∀ datum, Represents places value datum →
        Represents (places.within (heap.Reaches roots)) value datum := by
      intro value member datum stands
      cases datum with
      | word word => exact stands
      | reference number =>
          obtain immediate | root := covered value member
          · rw [represented.not_immediate stands] at immediate
            cases immediate
          · exact Places.within_some.mpr ⟨stands,
              Heap.Reaches.root represented.valid root (represented.held stands)⟩
    cases used : heap.rootSet.initialized with
    | true =>
        have array := represented.registered.used used
        have inside : ∀ value ∈ heap.rootSet.permanentValues .currentValues,
            value ∈ heap.rootSet.values := fun value member =>
          List.mem_append_left _ (List.mem_append_right _
            (List.mem_flatMap.mpr ⟨_, array, member⟩))
        exact represented.rooted.mono named
          (named _ (inside _ List.mem_cons_self) _ represented.rooted.firstValue)
          (named _ (inside _ (List.mem_cons_of_mem _ List.mem_cons_self)) _
            represented.rooted.secondValue)
    | false =>
        have words := represented.registered.unused used
        have first := represented.rooted.firstValue
        have second := represented.rooted.secondValue
        rw [words] at first second
        refine represented.rooted.mono named ?_ ?_
        · rw [words]
          exact first
        · rw [words]
          exact second
  registered := same ▸ represented.registered

end Restriction

end Runtime
