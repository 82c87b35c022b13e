import PslCompiler.Runtime.RepresentedCalls

/-! # Constructors on a heap that represents an ideal heap

An allocation may collect. What the roots and the frame of the constructor reach is still
represented afterwards, and the new object has an address of its own.
-/

namespace Runtime

open Heaps (Agrees)

variable {heap : Heap} {ideal : IdealHeap} {places : Places}

/-! ## Allocation -/

/-- A heap with other roots. -/
def Heap.withRoots (heap : Heap) (set : RootSet Value) : Heap :=
  { heap with rootSet := set }

/-- A new object as the C library clears it. -/
def blank (address : Value) (kind : ObjectKind) (extraBytes : Nat) : Object :=
  { address := address, kind := kind, trailing := clearedTrailing kind extraBytes }

theorem Heap.Valid.withRoots (valid : heap.Valid) (set : RootSet Value) :
    (heap.withRoots set).Valid :=
  ⟨valid.distinct, valid.placed, valid.stored, valid.unmarked, valid.counted, valid.limited⟩

theorem newObject_fresh (environment : Environment) (heap : Heap) (kind : ObjectKind)
    (extraBytes : Nat) :
    newObject environment kind extraBytes heap = .error .memory ∨
      ∃ address, heap.Fresh address ∧ newObject environment kind extraBytes heap =
        .ok (address, ({ heap with requests := heap.requests + 1 } : Heap).withObject
          (blank address kind extraBytes)) := by
  unfold newObject
  split
  · exact .inl rfl
  · cases granted : environment.place heap.requests heap.addresses (sizeofObject + extraBytes) with
    | none => exact .inl rfl
    | some address =>
        obtain ⟨nonzero, unused⟩ := environment.fresh _ _ _ _ granted
        by_cases aligned : address &&& 7#64 = 0#64
        · exact .inr ⟨address, ⟨nonzero, aligned, unused⟩, if_neg (not_not.mpr aligned)⟩
        · exact .inl (if_pos aligned)

/-- What is left of a heap after an allocation for which a collection saw certain roots. -/
structure Remains (heap : Heap) (ideal : IdealHeap) (places : Places) (roots : List Value)
    (rest : Heap) (left : Places) : Prop where
  represented : Represented rest ideal left
  rootSet : rest.rootSet = heap.rootSet
  below : rest.objectCount < rest.collectionLimit
  fewer : left.Grows places
  rooted : ∀ value ∈ roots, ∀ datum, Represents places value datum → Represents left value datum
  kept : ∀ object ∈ heap.objects, object.address ∈ roots → object ∈ rest.objects
  within : rest.objects ⊆ heap.objects

/-- An allocation by a caller that has linked more roots. -/
theorem allocate_remains (environment : Environment) (precise : Bool) (kind : ObjectKind)
    (extraBytes : Nat)
    (represented : Represented heap ideal places) (set : RootSet Value)
    (covered : ∀ value ∈ heap.rootSet.values, immediateP value = true ∨ value ∈ set.values) :
    allocate environment precise kind extraBytes (heap.withRoots set) = .error .memory ∨
      ∃ address rest left,
        allocate environment precise kind extraBytes (heap.withRoots set) =
          .ok (address, (rest.withRoots set).withObject (blank address kind extraBytes)) ∧
        rest.Fresh address ∧ Remains heap ideal places set.values rest left := by
  have collected : (heap.withRoots set).collectionLimit ≤ (heap.withRoots set).objectCount →
      collectObjects environment (!precise) (heap.withRoots set) = .error .memory ∨
        ∃ after rest left, collectObjects environment (!precise) (heap.withRoots set) = .ok after ∧
          after = rest.withRoots set ∧ Remains heap ideal places set.values rest left := by
    intro full
    obtain failed | ⟨after, done, collected⟩ := collectObjects_collected environment
      (represented.valid.withRoots set) (!precise)
    · exact .inl failed
    · have wider : set.values ⊆
          collectionRoots environment (!precise) (heap.withRoots set) :=
        List.subset_append_left _ _
      have kept : ∀ object ∈ heap.objects, heap.Reaches set.values object.address →
          object ∈ after.objects := fun object member reached =>
        (collected.kept object member).mpr (Heaps.Reached.mono wider reached)
      have rest := represented.restrict covered
        (collected.valid.withRoots heap.rootSet) collected.sublist.subset rfl kept
      refine .inr ⟨after, after.withRoots heap.rootSet, _, done, ?_, rest, rfl, ?_, ?_, ?_, ?_, ?_⟩
      · have same : after.rootSet = set := collected.rootSet
        rw [← same]
        rfl
      · have limit := collected.limit
        change after.objectCount < after.collectionLimit
        omega
      · intro number address place
        exact (Places.within_some.mp place).1
      · intro value member datum stands
        cases datum with
        | word word => exact stands
        | reference number =>
            exact Places.within_some.mpr ⟨stands,
              Heap.Reaches.root represented.valid member (represented.held stands)⟩
      · intro object member named
        exact kept object member
          (Heap.Reaches.root represented.valid named (List.mem_map_of_mem member))
      · exact collected.sublist.subset
  have finish : ∀ {rest : Heap} {left : Places}, Remains heap ideal places set.values rest left →
      newObject environment kind extraBytes (rest.withRoots set) = .error .memory ∨
        ∃ address rest' left',
          newObject environment kind extraBytes (rest.withRoots set) =
            .ok (address, (rest'.withRoots set).withObject (blank address kind extraBytes)) ∧
          rest'.Fresh address ∧ Remains heap ideal places set.values rest' left' := by
    intro rest left remains
    obtain failed | ⟨address, fresh, made⟩ := newObject_fresh environment
      (rest.withRoots set) kind extraBytes
    · exact .inl failed
    · refine .inr ⟨address, { rest with requests := rest.requests + 1 }, left, made,
        ⟨fresh.nonzero, fresh.aligned, fresh.unused⟩, ?_⟩
      obtain ⟨⟨⟨distinct, placed, stored, unmarked, counted, limited⟩, injective, shown, owned, rooted,
        registered⟩, rootSet, below, fewer, roots, kept, within⟩ := remains
      exact ⟨⟨⟨distinct, placed, stored, unmarked, counted, limited⟩, injective, shown, owned, rooted,
        registered⟩, rootSet, below, fewer, roots, kept, within⟩
  rw [allocate, allocateObject]
  by_cases full : (heap.withRoots set).objectCount ≥ (heap.withRoots set).collectionLimit
  · rw [if_pos full]
    obtain failed | ⟨after, rest, left, done, rfl, remains⟩ := collected full
    · rw [failed]
      exact .inl rfl
    · rw [done]
      exact finish remains
  · rw [if_neg full]
    have same : Remains heap ideal places set.values heap places :=
      ⟨represented, rfl, not_le.mp full, fun _ _ place => place, fun _ _ _ stands => stands,
        fun _ member _ => member, List.Subset.refl _⟩
    exact finish same

/-! ## The newest object -/

theorem Heap.Fresh.withRoots {address : Value} (fresh : heap.Fresh address) (set : RootSet Value) :
    (heap.withRoots set).Fresh address :=
  ⟨fresh.nonzero, fresh.aligned, fresh.unused⟩

theorem setSlot_withObject {object : Object} {pointer : Value} (fresh : heap.Fresh pointer)
    (same : object.address = pointer) (index : Fin 3) (value : Value) :
    (heap.withObject object).setSlot pointer index value =
      .ok (heap.withObject { object with slots := Function.update object.slots index value }) := by
  subst same
  exact Heap.change_withObject fresh rfl

theorem setLength_withObject {object : Object} {pointer : Value} (fresh : heap.Fresh pointer)
    (same : object.address = pointer) (length : Nat) :
    (heap.withObject object).setLength pointer length =
      .ok (heap.withObject { object with length := length }) := by
  subst same
  exact Heap.change_withObject fresh rfl

theorem setCode_withObject {object : Object} {pointer : Value} (fresh : heap.Fresh pointer)
    (same : object.address = pointer) (code : Value) :
    (heap.withObject object).change pointer (fun object => .ok { object with code := code }) =
      .ok (heap.withObject { object with code := code }) := by
  subst same
  exact Heap.change_withObject fresh rfl

theorem changeNewest {object : Object} {pointer : Value} (fresh : heap.Fresh pointer)
    (same : object.address = pointer) (changed : Object) {step : Object → Except Fault Object}
    (becomes : step object = .ok changed) :
    (heap.withObject object).change pointer step = .ok (heap.withObject changed) := by
  subst same
  exact Heap.change_withObject fresh becomes

/-- The frame of a constructor is the newest one when it returns. -/
theorem popRoots_pushLocal {set : RootSet Value} (values : List Value) (object : Object) :
    ((heap.withRoots (set.pushLocal values)).withObject object).popRoots set.localRoot =
      .ok ((heap.withRoots set).withObject object) := by
  simp [Heap.popRoots, Heap.withObject, Heap.withRoots, RootSet.popRoots, RootSet.pushLocal, bind,
    Except.bind, pure, Except.pure]

theorem values_pushLocal (set : RootSet Value) (values : List Value) :
    (set.pushLocal values).values = values ++ set.values := by
  simp only [RootSet.values, RootSet.pushLocal, List.flatMap_cons, List.append_assoc]
  rfl

theorem pushLocal_within (set : RootSet Value) (values : List Value) {value : Value}
    (member : value ∈ set.values) : value ∈ (set.pushLocal values).values := by
  rw [values_pushLocal]
  exact List.mem_append_right _ member

theorem pushLocal_covers (set : RootSet Value) (values : List Value) :
    ∀ value ∈ set.values, immediateP value = true ∨ value ∈ (set.pushLocal values).values :=
  fun _ member => .inr (pushLocal_within set values member)

theorem pushLocal_values (set : RootSet Value) {values : List Value} {value : Value}
    (member : value ∈ values) : value ∈ (set.pushLocal values).values := by
  rw [values_pushLocal]
  exact List.mem_append_left _ member

/-- An allocation by a constructor whose frame holds some values. -/
theorem allocate_pushLocal (environment : Environment) (precise : Bool) (kind : ObjectKind)
    (extraBytes : Nat) (represented : Represented heap ideal places) (values : List Value) :
    allocate environment precise kind extraBytes (heap.pushLocal values) = .error .memory ∨
      ∃ address rest left,
        allocate environment precise kind extraBytes (heap.pushLocal values) =
          .ok (address, (rest.withRoots (heap.rootSet.pushLocal values)).withObject
            (blank address kind extraBytes)) ∧
        rest.Fresh address ∧
        Remains heap ideal places (heap.rootSet.pushLocal values).values rest left :=
  allocate_remains environment precise kind extraBytes represented _ (pushLocal_covers heap.rootSet values)

/-! ## New things -/

/-- A call that gives a value back agrees with its meaning. -/
def Gives (left : Value × Heap) (right : Datum × IdealHeap) : Prop :=
  ∃ places, Represented left.2 right.2 places ∧ Represents places left.1 right.1

theorem Remains.unplaced {roots : List Value} {rest : Heap} {left : Places} {address : Value}
    (remains : Remains heap ideal places roots rest left) (fresh : rest.Fresh address) :
    ∀ number, left number ≠ some address := fun _ place =>
  fresh.unused (remains.represented.held place)

theorem Thing.kind_ne_storage (thing : Thing) : thing.kind ≠ .valueVectorStorage := by
  cases thing <;> exact ObjectKind.noConfusion

/-- A new object that shows a thing is that thing. -/
theorem Remains.gives {roots : List Value} {rest : Heap} {left : Places} {object : Object}
    (remains : Remains heap ideal places roots rest left) {address : Value}
    (fresh : rest.Fresh address) (same : object.address = address) (unmarked : object.marked = false)
    {thing : Thing} (plain : thing.asVector = none)
    (shows_ : object.Shows rest.objects left thing) :
    Gives (address, (rest.withRoots heap.rootSet).withObject object) (ideal.add thing) := by
  subst same
  have unchanged : rest.withRoots heap.rootSet = rest := by
    rw [← remains.rootSet]
    rfl
  rw [unchanged]
  have notVector : object.kind ≠ .valueVector := by
    have kind := asVector_kind thing
    rw [plain, ← shows_.kind] at kind
    simpa using kind
  have notStorage : object.kind ≠ .valueVectorStorage := by
    rw [shows_.kind]
    exact thing.kind_ne_storage
  have grown := remains.represented.withObject fresh (fun storage => absurd storage notStorage)
    unmarked remains.below
  refine ⟨_, grown.admit List.mem_cons_self (remains.unplaced fresh)
    (shows_.grows (List.subset_cons_self _ _) fun _ _ place => place)
    (fun _ _ vector => absurd vector notVector), ?_⟩
  exact if_pos rfl

theorem makeCons_agrees (environment : Environment) (precise : Bool)
    (represented : Represented heap ideal places) {first rest : Value} {left right : Datum}
    (one : Represents places first left) (two : Represents places rest right) :
    Agrees .memory Gives (makeCons environment precise first rest heap)
      (.ok (ideal.add (.pair left right))) := by
  obtain failed | ⟨address, after, kept, allocated, fresh, remains⟩ :=
    allocate_pushLocal environment precise .cons 0 represented [first, rest]
  · rw [makeCons, failed]
    exact .exhausted _
  · have pointer := fresh.withRoots (heap.rootSet.pushLocal [first, rest])
    obtain ⟨pair, made, same, unmarked, kind, car, cdr⟩ : ∃ pair,
        makeCons environment precise first rest heap =
          .ok (address, (after.withRoots heap.rootSet).withObject pair) ∧
        pair.address = address ∧ pair.marked = false ∧ pair.kind = .cons ∧
        pair.slots 0 = first ∧ pair.slots 1 = rest := by
      rw [makeCons, allocated]
      simp only [bind, Except.bind]
      rw [setSlot_withObject pointer rfl]
      simp only
      rw [setSlot_withObject pointer rfl]
      simp only
      rw [popRoots_pushLocal]
      exact ⟨_, rfl, rfl, rfl, rfl, rfl, rfl⟩
    rw [made]
    refine .ok (remains.gives fresh same unmarked rfl ⟨kind, ?_, ?_⟩)
    · rw [car]
      exact remains.rooted first (pushLocal_values _ List.mem_cons_self) left one
    · rw [cdr]
      exact remains.rooted rest
        (pushLocal_values _ (List.mem_cons_of_mem _ List.mem_cons_self)) right two

/-! ## Strings -/

theorem overwrite_eq {α : Type} {contents items : List α} {start : Nat}
    (room : start + items.length ≤ contents.length) :
    overwrite contents start items =
      .ok (contents.take start ++ items ++ contents.drop (start + items.length)) :=
  if_pos room

/-- Strings come from an allocation without a frame. -/
theorem makeString_remains (environment : Environment) (precise : Bool) (length : Nat)
    (fill : UInt8) (represented : Represented heap ideal places) :
    makeString environment precise length fill heap = .error .memory ∨
      ∃ address string after kept,
        makeString environment precise length fill heap =
          .ok (address, (after.withRoots heap.rootSet).withObject string) ∧
        after.Fresh address ∧ string.address = address ∧ string.marked = false ∧
        string.kind = .string ∧ string.length = length ∧
        string.trailing = .bytes (List.replicate length fill ++ [0]) ∧
        Remains heap ideal places heap.rootSet.values after kept := by
  unfold makeString
  split
  · exact .inl rfl
  · obtain failed | ⟨address, after, kept, allocated, fresh, remains⟩ :=
      allocate_remains environment precise .string (length + 1) represented heap.rootSet
        fun _ member => .inr member
    · left
      change allocate environment precise .string (length + 1) heap = .error .memory at failed
      simp only [bind, Except.bind, failed]
    · right
      change allocate environment precise .string (length + 1) heap = _ at allocated
      have pointer := fresh.withRoots heap.rootSet
      refine ⟨address, { blank address .string (length + 1) with
        length := length
        trailing := .bytes (List.replicate length fill ++ [0]) }, after, kept, ?_, fresh, rfl, rfl,
        rfl, rfl, rfl, remains⟩
      have cleared : (blank address .string (length + 1)).trailing =
          .bytes (List.replicate (length + 1) 0) := rfl
      simp only [bind, Except.bind, allocated]
      rw [setLength_withObject pointer rfl]
      simp only
      rw [changeNewest pointer rfl { blank address .string (length + 1) with
        length := length
        trailing := .bytes (List.replicate length fill ++ [0]) }]
      · simp only
        rw [changeNewest pointer rfl { blank address .string (length + 1) with
          length := length
          trailing := .bytes (List.replicate length fill ++ [0]) }]
        · rfl
        · simp only [Object.setBytes]
          rw [overwrite_eq (by simp)]
          simp [bind, Except.bind, pure, Except.pure]
      · simp only [Object.setBytes, cleared]
        rw [overwrite_eq (by simp)]
        simp [bind, Except.bind, pure, Except.pure]

theorem makeString_agrees (environment : Environment) (precise : Bool) (length : Nat)
    (fill : UInt8) (represented : Represented heap ideal places) :
    Agrees .memory Gives (makeString environment precise length fill heap)
      (.ok (ideal.add (.string (List.replicate length fill)))) := by
  obtain failed | ⟨address, string, after, kept, made, fresh, same, unmarked, kind, count, trailing,
    remains⟩ := makeString_remains environment precise length fill represented
  · rw [failed]
    exact .exhausted _
  · rw [made]
    refine .ok (remains.gives fresh same unmarked rfl ⟨kind, ?_, trailing⟩)
    rw [count, List.length_replicate]

theorem copyStringBytes_agrees (environment : Environment) (precise : Bool) (address : Nat)
    (bytes : List UInt8) (represented : Represented heap ideal places)
    (readable : ¬(bytes.length ≠ 0 ∧ address = 0)) :
    Agrees .memory Gives (copyStringBytes environment precise address bytes heap)
      (.ok (ideal.add (.string bytes))) := by
  rw [copyStringBytes, if_neg readable]
  obtain failed | ⟨place, string, after, kept, made, fresh, same, unmarked, kind, count, trailing,
    remains⟩ := makeString_remains environment precise bytes.length 0 represented
  · rw [failed]
    exact .exhausted _
  · rw [made]
    simp only [bind, Except.bind, pure, Except.pure]
    by_cases empty : bytes.length = 0
    · rw [if_pos empty]
      obtain rfl := List.length_eq_zero_iff.mp empty
      refine .ok (remains.gives fresh same unmarked rfl ?_)
      exact ⟨kind, count, trailing⟩
    · have found : expectObject ((after.withRoots heap.rootSet).withObject string).objects place
          (some .string) = .ok string := by
        have here : findObject ((after.withRoots heap.rootSet).withObject string).objects place =
            some string := by
          rw [findObject_eq_find fresh.nonzero fresh.aligned]
          exact List.find?_cons_of_pos (by simpa using same)
        rw [expectObject, here]
        exact if_neg (not_not.mpr kind)
      rw [if_neg empty, found]
      simp only
      obtain ⟨copied, copy⟩ : ∃ copied : Object,
          copied = { string with trailing := .bytes (bytes ++ [0]) } := ⟨_, rfl⟩
      rw [changeNewest (same ▸ fresh.withRoots heap.rootSet) rfl copied]
      · have same' : copied.address = place := copy ▸ same
        have unmarked' : copied.marked = false := copy ▸ unmarked
        refine .ok (remains.gives fresh same' unmarked' rfl ?_)
        subst copy
        exact ⟨kind, count, rfl⟩
      · rw [Object.setBytes, trailing, copy]
        simp only
        rw [overwrite_eq (by simp)]
        simp [bind, Except.bind, pure, Except.pure]

/-! ## Symbols, packages and closures -/

theorem Remains.mono {roots fewer : List Value} {rest : Heap} {left : Places}
    (remains : Remains heap ideal places roots rest left) (within : fewer ⊆ roots) :
    Remains heap ideal places fewer rest left :=
  { remains with
    rooted := fun value member => remains.rooted value (within member)
    kept := fun object member named => remains.kept object member (within named) }

/-- A new symbol for a caller that has linked more roots. -/
theorem makeSymbol_remains (environment : Environment) (precise : Bool)
    (represented : Represented heap ideal places) (set : RootSet Value)
    (covered : ∀ value ∈ heap.rootSet.values, immediateP value = true ∨ value ∈ set.values)
    {name : Value} {string : Object}
    (found : expectObject heap.objects name (some .string) = .ok string) :
    makeSymbol environment precise name (heap.withRoots set) = .error .memory ∨
      ∃ address symbol after kept,
        makeSymbol environment precise name (heap.withRoots set) =
          .ok (address, (after.withRoots set).withObject symbol) ∧
        after.Fresh address ∧ symbol.address = address ∧ symbol.marked = false ∧
        symbol.kind = .symbol ∧ symbol.slots 0 = name ∧
        Remains heap ideal places (name :: set.values) after kept := by
  have wider : ∀ value ∈ heap.rootSet.values,
      immediateP value = true ∨ value ∈ (set.pushLocal [name]).values := by
    intro value member
    obtain immediate | inside := covered value member
    · exact .inl immediate
    · exact pushLocal_covers set [name] value inside
  have here : expectObject (heap.withRoots set).objects name (some .string) = .ok string := found
  rw [makeSymbol, here]
  simp only [bind, Except.bind]
  have linked : (heap.withRoots set).pushLocal [name] = heap.withRoots (set.pushLocal [name]) := rfl
  rw [linked]
  obtain failed | ⟨address, after, kept, allocated, fresh, remains⟩ :=
    allocate_remains environment precise .symbol 0 represented (set.pushLocal [name]) wider
  · rw [failed]
    exact .inl rfl
  · have pointer := fresh.withRoots (set.pushLocal [name])
    rw [allocated]
    simp only
    rw [setSlot_withObject pointer rfl]
    simp only
    rw [setSlot_withObject pointer rfl]
    simp only
    rw [setSlot_withObject pointer rfl]
    simp only
    have root : (heap.withRoots set).rootSet.localRoot = set.localRoot := rfl
    rw [root, popRoots_pushLocal]
    refine .inr ⟨address, _, after, kept, rfl, fresh, rfl, rfl, rfl, rfl, remains.mono ?_⟩
    intro value member
    obtain rfl | inside := List.mem_cons.mp member
    · exact pushLocal_values set List.mem_cons_self
    · exact pushLocal_within set [name] inside

theorem makeSymbol_agrees (environment : Environment) (precise : Bool)
    (represented : Represented heap ideal places) {name : Value} {datum : Datum}
    (stands : Represents places name datum) :
    Agrees .memory Gives (makeSymbol environment precise name heap) (ideal.makeSymbol datum) := by
  have string := string_agrees represented stands
  rw [IdealHeap.makeSymbol]
  generalize outcome : ideal.string datum = known at string
  generalize there : expectObject heap.objects name (some .string) = found at string
  cases string with
  | exhausted _ =>
      rw [makeSymbol, there]
      exact .exhausted _
  | fault fault =>
      rw [makeSymbol, there]
      exact .fault fault
  | ok _ =>
      obtain failed | ⟨address, symbol, after, kept, made, fresh, same, unmarked, kind, slot,
        remains⟩ := makeSymbol_remains environment precise represented heap.rootSet
          (fun _ member => .inr member) there
      · change makeSymbol environment precise name heap = _ at failed
        rw [failed]
        exact .exhausted _
      · change makeSymbol environment precise name heap = _ at made
        rw [made]
        refine .ok (remains.gives fresh same unmarked rfl ⟨kind, ?_⟩)
        rw [slot]
        exact remains.rooted name List.mem_cons_self datum stands

theorem makePackage_agrees (environment : Environment) (precise : Bool)
    (represented : Represented heap ideal places) {name : Value} {datum : Datum}
    (stands : Represents places name datum) :
    Agrees .memory Gives (makePackage environment precise name heap) (ideal.makePackage datum) := by
  refine (string_agrees represented stands).bind ?_
  intro string bytes _
  obtain failed | ⟨address, after, kept, allocated, fresh, remains⟩ :=
    allocate_pushLocal environment precise .package 0 represented [name]
  · rw [failed]
    exact .exhausted _
  · have pointer := fresh.withRoots (heap.rootSet.pushLocal [name])
    rw [allocated]
    simp only [bind, Except.bind]
    rw [setSlot_withObject pointer rfl]
    simp only
    rw [setSlot_withObject pointer rfl]
    simp only
    rw [popRoots_pushLocal]
    refine .ok (remains.gives fresh rfl rfl rfl ⟨rfl, ?_, List.nodup_nil, rfl⟩)
    exact remains.rooted name (pushLocal_values _ List.mem_cons_self) datum stands

theorem makeClosure_agrees (environment : Environment) (precise : Bool) {code : Value}
    (exists_ : code ≠ 0#64) (represented : Represented heap ideal places) {captured : Value}
    {datum : Datum} (stands : Represents places captured datum) :
    Agrees .memory Gives (makeClosure environment precise code captured heap)
      (.ok (ideal.add (.closure code datum))) := by
  rw [makeClosure, if_neg exists_]
  obtain failed | ⟨address, after, kept, allocated, fresh, remains⟩ :=
    allocate_pushLocal environment precise .closure 0 represented [captured]
  · rw [failed]
    exact .exhausted _
  · have pointer := fresh.withRoots (heap.rootSet.pushLocal [captured])
    rw [allocated]
    simp only [bind, Except.bind, pure, Except.pure]
    rw [setSlot_withObject pointer rfl]
    simp only
    rw [setCode_withObject pointer rfl]
    simp only
    rw [popRoots_pushLocal]
    refine .ok (remains.gives fresh rfl rfl rfl ⟨rfl, rfl, ?_⟩)
    exact remains.rooted captured (pushLocal_values _ List.mem_cons_self) datum stands

end Runtime
