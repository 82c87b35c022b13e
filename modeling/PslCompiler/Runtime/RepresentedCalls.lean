import PslCompiler.Runtime.RepresentedChanges

/-! # Calls on a heap that represents an ideal heap

Each call of the runtime agrees with its meaning on the ideal heap, unless memory runs out.
-/

namespace Runtime

open Heaps (Agrees)

variable {heap : Heap} {ideal : IdealHeap} {places : Places}

/-! ## Finding objects -/

/-- A value leads to an object and stands for a thing that the object shows. -/
structure Finds (heap : Heap) (ideal : IdealHeap) (places : Places) (value : Value) (number : Nat)
    (object : Object) (thing : Thing) : Prop where
  member : object ∈ heap.objects
  address : object.address = value
  place : places number = some value
  known : ideal.things[number]? = some thing
  shown : object.Shows heap.objects places thing

theorem Object.Shows.kind {objects : List Object} {object : Object} {thing : Thing}
    (shows_ : object.Shows objects places thing) : object.kind = thing.kind := by
  cases thing with
  | string bytes => exact shows_.1
  | _ => exact shows_.1

/-- The walk for an object of a kind agrees with the look at the thing. -/
theorem expect_agrees (represented : Represented heap ideal places) {value : Value} {datum : Datum}
    (stands : Represents places value datum) {α : Type} {expected : ObjectKind}
    {part : Thing → Option α}
    (matching : ∀ thing : Thing, (part thing).isSome = decide (thing.kind = expected)) :
    Agrees .memory
      (fun object found => ∃ number thing, datum = .reference number ∧
        Finds heap ideal places value number object thing ∧ part thing = some found)
      (expectObject heap.objects value (some expected)) (ideal.expect datum part) := by
  rw [expectObject, IdealHeap.expect]
  obtain ⟨absent, unknown⟩ | ⟨object, member, found, address, number, thing, rfl, place, there, known,
    shows_⟩ := represented.find stands
  · rw [absent, unknown]
    exact .fault Fault.abort
  · have kind := shows_.kind
    have fits := matching thing
    rw [found, known]
    simp only [bind, Except.bind]
    cases picked : part thing with
    | none =>
        rw [picked] at fits
        have differs : thing.kind ≠ expected := by simpa using fits
        rw [kind, if_pos differs]
        exact .fault Fault.abort
    | some contents =>
        rw [picked] at fits
        have same : thing.kind = expected := by simpa using fits
        rw [kind, if_neg (not_not.mpr same)]
        exact .ok ⟨number, thing, rfl, ⟨member, address, place, there, shows_⟩, picked⟩

theorem kind_agrees (represented : Represented heap ideal places) {value : Value} {datum : Datum}
    (stands : Represents places value datum) :
    Agrees .memory (fun left right => left = right) (kind heap value) (ideal.kind datum) := by
  rw [kind, IdealHeap.kind, expectObject]
  obtain ⟨absent, unknown⟩ | ⟨object, member, found, address, number, thing, rfl, place, there, known,
    shows_⟩ := represented.find stands
  · rw [absent, unknown]
    exact .fault Fault.abort
  · rw [found, known]
    exact .ok shows_.kind

section Parts

theorem asPair_kind (thing : Thing) :
    thing.asPair.isSome = decide (thing.kind = .cons) := by
  cases thing <;> rfl

theorem asString_kind (thing : Thing) :
    thing.asString.isSome = decide (thing.kind = .string) := by
  cases thing <;> rfl

theorem asSymbol_kind (thing : Thing) :
    thing.asSymbol.isSome = decide (thing.kind = .symbol) := by
  cases thing <;> rfl

theorem asPackage_kind (thing : Thing) :
    thing.asPackage.isSome = decide (thing.kind = .package) := by
  cases thing <;> rfl

theorem asClosure_kind (thing : Thing) :
    thing.asClosure.isSome = decide (thing.kind = .closure) := by
  cases thing <;> rfl

theorem asVector_kind (thing : Thing) :
    thing.asVector.isSome = decide (thing.kind = .valueVector) := by
  cases thing <;> rfl

theorem asPair_some {thing : Thing} {parts : Datum × Datum} (found : thing.asPair = some parts) :
    thing = .pair parts.1 parts.2 := by
  cases thing <;> cases found
  rfl

theorem asString_some {thing : Thing} {bytes : List UInt8} (found : thing.asString = some bytes) :
    thing = .string bytes := by
  cases thing <;> cases found
  rfl

theorem asSymbol_some {thing : Thing} {name : Datum} (found : thing.asSymbol = some name) :
    thing = .symbol name := by
  cases thing <;> cases found
  rfl

theorem asPackage_some {thing : Thing} {parts : Datum × List Nat}
    (found : thing.asPackage = some parts) : thing = .package parts.1 parts.2 := by
  cases thing <;> cases found
  rfl

theorem asClosure_some {thing : Thing} {parts : Value × Datum}
    (found : thing.asClosure = some parts) : thing = .closure parts.1 parts.2 := by
  cases thing <;> cases found
  rfl

theorem asVector_some {thing : Thing} {items : List Datum} (found : thing.asVector = some items) :
    thing = .vector items := by
  cases thing <;> cases found
  rfl

end Parts

/-! ## Accessors -/

section Accessors

variable {value : Value} {datum : Datum}

theorem pair_agrees (represented : Represented heap ideal places)
    (stands : Represents places value datum) :
    Agrees .memory
      (fun object parts => Represents places (object.slots 0) parts.1 ∧
        Represents places (object.slots 1) parts.2)
      (expectObject heap.objects value (some .cons)) (ideal.expect datum Thing.asPair) := by
  refine (expect_agrees represented stands asPair_kind).mono ?_
  rintro object parts ⟨number, thing, -, finds, picked⟩
  obtain rfl := asPair_some picked
  exact finds.shown.2

theorem string_agrees (represented : Represented heap ideal places)
    (stands : Represents places value datum) :
    Agrees .memory
      (fun object bytes => ∃ number, datum = .reference number ∧
        Finds heap ideal places value number object (.string bytes))
      (expectObject heap.objects value (some .string)) (ideal.string datum) := by
  refine (expect_agrees represented stands asString_kind).mono ?_
  rintro object bytes ⟨number, thing, same, finds, picked⟩
  obtain rfl := asString_some picked
  exact ⟨number, same, finds⟩

theorem symbol_agrees (represented : Represented heap ideal places)
    (stands : Represents places value datum) :
    Agrees .memory (fun object name => Represents places (object.slots 0) name)
      (expectObject heap.objects value (some .symbol)) (ideal.symbolName datum) := by
  refine (expect_agrees represented stands asSymbol_kind).mono ?_
  rintro object name ⟨number, thing, -, finds, picked⟩
  obtain rfl := asSymbol_some picked
  exact finds.shown.2

theorem package_agrees (represented : Represented heap ideal places)
    (stands : Represents places value datum) :
    Agrees .memory
      (fun object parts => ∃ number, datum = .reference number ∧
        Finds heap ideal places value number object (.package parts.1 parts.2))
      (expectObject heap.objects value (some .package)) (ideal.package datum) := by
  refine (expect_agrees represented stands asPackage_kind).mono ?_
  rintro object parts ⟨number, thing, same, finds, picked⟩
  obtain rfl := asPackage_some picked
  exact ⟨number, same, finds⟩

theorem closure_agrees (represented : Represented heap ideal places)
    (stands : Represents places value datum) :
    Agrees .memory
      (fun object parts => object.code = parts.1 ∧ Represents places (object.slots 0) parts.2)
      (expectObject heap.objects value (some .closure)) (ideal.closure datum) := by
  refine (expect_agrees represented stands asClosure_kind).mono ?_
  rintro object parts ⟨number, thing, -, finds, picked⟩
  obtain rfl := asClosure_some picked
  exact finds.shown.2

theorem vector_agrees (represented : Represented heap ideal places)
    (stands : Represents places value datum) :
    Agrees .memory
      (fun object items => ∃ number, datum = .reference number ∧
        Finds heap ideal places value number object (.vector items))
      (expectVector heap.objects value) (ideal.vector datum) := by
  refine (expect_agrees represented stands asVector_kind).mono ?_
  rintro object items ⟨number, thing, same, finds, picked⟩
  obtain rfl := asVector_some picked
  exact ⟨number, same, finds⟩

theorem car_agrees (represented : Represented heap ideal places)
    (stands : Represents places value datum) :
    Agrees .memory (Represents places) (car heap value) (ideal.car datum) := by
  have same := represented.eq_iff stands Represents.nil
  unfold car IdealHeap.car
  by_cases nil : value = pslNil
  · rw [if_pos nil, if_pos (same.mp nil)]
    exact .ok Represents.nil
  · rw [if_neg nil, if_neg fun also => nil (same.mpr also)]
    exact (pair_agrees represented stands).bind fun object parts stand => .ok stand.1

theorem cdr_agrees (represented : Represented heap ideal places)
    (stands : Represents places value datum) :
    Agrees .memory (Represents places) (cdr heap value) (ideal.cdr datum) := by
  have same := represented.eq_iff stands Represents.nil
  unfold cdr IdealHeap.cdr
  by_cases nil : value = pslNil
  · rw [if_pos nil, if_pos (same.mp nil)]
    exact .ok Represents.nil
  · rw [if_neg nil, if_neg fun also => nil (same.mpr also)]
    exact (pair_agrees represented stands).bind fun object parts stand => .ok stand.2

theorem Finds.firstBytes {number : Nat} {object : Object} {bytes : List UInt8}
    (finds : Finds heap ideal places value number object (.string bytes)) :
    object.firstBytes bytes.length = .ok bytes := by
  obtain ⟨-, -, trailing⟩ := finds.shown
  rw [Object.firstBytes, trailing]
  simp

theorem stringByte_agrees (represented : Represented heap ideal places)
    (stands : Represents places value datum) (index : Nat) :
    Agrees .memory (fun left right => left = right) (stringByte heap value index)
      (ideal.stringByte datum index) := by
  unfold stringByte IdealHeap.stringByte
  refine (string_agrees represented stands).bind ?_
  rintro object bytes ⟨number, rfl, finds⟩
  obtain ⟨-, length, trailing⟩ := finds.shown
  by_cases inside : index < bytes.length
  · rw [if_neg (by omega), List.getElem?_eq_getElem inside, Object.byteAt, trailing]
    simp only [List.getElem?_append_left inside, List.getElem?_eq_getElem inside]
    exact .ok rfl
  · rw [if_pos (by omega), List.getElem?_eq_none (by omega)]
    exact .fault Fault.abort

theorem stringsEqual_agrees (represented : Represented heap ideal places)
    (stands : Represents places value datum) {other : Value} {also : Datum}
    (second : Represents places other also) :
    Agrees .memory (fun left right => left = right) (stringsEqual heap.objects value other)
      (ideal.stringsEqual datum also) := by
  unfold stringsEqual IdealHeap.stringsEqual
  refine (string_agrees represented stands).bind ?_
  rintro left bytes ⟨number, rfl, finds⟩
  refine (string_agrees represented second).bind ?_
  rintro right others ⟨number', rfl, found⟩
  have length := finds.shown.2.1
  have length' := found.shown.2.1
  by_cases same : left.length = right.length
  · rw [if_neg (not_not.mpr same), length, finds.firstBytes]
    rw [length, length'] at same
    rw [same, found.firstBytes]
    exact .ok rfl
  · rw [if_pos same]
    refine .ok ?_
    rw [length, length'] at same
    symm
    rw [decide_eq_false_iff_not]
    rintro rfl
    exact same rfl

end Accessors

end Runtime
