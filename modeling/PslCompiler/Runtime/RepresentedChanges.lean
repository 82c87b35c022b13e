import PslCompiler.Runtime.Representation

/-! # Changes to a heap that represents an ideal heap

A new object changes nothing that is represented, and it can be taken for a new thing once it shows
one. Replacing an object is safe if the symbols keep their links and no other vector uses the object
as its storage.
-/

namespace Runtime

/-! ## New objects -/

namespace Heap

/-- A heap with one more object. -/
def withObject (heap : Heap) (object : Object) : Heap :=
  { heap with objects := object :: heap.objects, objectCount := heap.objectCount + 1 }

/-- An address for a new object. -/
structure Fresh (heap : Heap) (address : Value) : Prop where
  nonzero : address ≠ 0#64
  aligned : address &&& 7#64 = 0#64
  unused : address ∉ heap.addresses

/-- A heap in which an object has taken the place of the one at its address. -/
def replace (heap : Heap) (object : Object) : Heap :=
  { heap with
    objects := heap.objects.map fun other =>
      if other.address = object.address then object else other }

section Objects

variable {heap : Heap} {object changed : Object}

theorem Valid.withObject (valid : heap.Valid) (fresh : heap.Fresh object.address)
    (stored : object.Stored) (unmarked : object.marked = false)
    (below : heap.objectCount < heap.collectionLimit) : (heap.withObject object).Valid where
  distinct := by
    rw [addresses, Heap.withObject, List.map_cons, List.nodup_cons]
    exact ⟨fresh.unused, valid.distinct⟩
  placed other member := by
    obtain rfl | old := List.mem_cons.mp member
    · exact ⟨fresh.nonzero, fresh.aligned⟩
    · exact valid.placed other old
  stored other member := by
    obtain rfl | old := List.mem_cons.mp member
    · exact stored
    · exact valid.stored other old
  unmarked other member := by
    obtain rfl | old := List.mem_cons.mp member
    · exact unmarked
    · exact valid.unmarked other old
  counted := congrArg (· + 1) valid.counted
  limited := below

theorem change_of_mem (valid : heap.Valid) (member : object ∈ heap.objects)
    {step : Object → Except Fault Object} (becomes : step object = .ok changed)
    (same : changed.address = object.address) :
    heap.change object.address step = .ok (heap.replace changed) := by
  have found := dereference_of_mem valid.distinct member
  rw [Heap.change, found]
  simp only [bind, Except.bind, becomes, assign, found, Heap.replace, same]
  rfl

/-- A change of the newest object. -/
theorem change_withObject (fresh : heap.Fresh object.address)
    {step : Object → Except Fault Object} (becomes : step object = .ok changed) :
    (heap.withObject object).change object.address step = .ok (heap.withObject changed) := by
  have found : dereference (heap.withObject object).objects object.address = .ok object := by
    rw [dereference, Heap.withObject, List.find?_cons_of_pos (by simp)]
  have others : (heap.objects.map fun other =>
      if other.address = object.address then changed else other) = heap.objects := by
    rw [List.map_congr_left (g := id), List.map_id]
    intro other member
    refine if_neg fun same => fresh.unused ?_
    exact same ▸ List.mem_map_of_mem member
  rw [Heap.change, found]
  simp only [bind, Except.bind, becomes, assign, found]
  simp only [Heap.withObject, List.map_cons, ↓reduceIte, others]
  rfl

theorem mem_replace {other : Object} :
    other ∈ (heap.replace changed).objects ↔
      other = changed ∧ changed.address ∈ heap.addresses ∨
        other ∈ heap.objects ∧ other.address ≠ changed.address := by
  rw [Heap.replace, List.mem_map]
  constructor
  · rintro ⟨before, member, rfl⟩
    by_cases same : before.address = changed.address
    · rw [if_pos same]
      exact .inl ⟨rfl, same ▸ List.mem_map_of_mem member⟩
    · rw [if_neg same]
      exact .inr ⟨member, same⟩
  · rintro (⟨rfl, here⟩ | ⟨member, differs⟩)
    · obtain ⟨before, member, same⟩ := List.mem_map.mp here
      exact ⟨before, member, if_pos same⟩
    · exact ⟨other, member, if_neg differs⟩

theorem addresses_replace : (heap.replace changed).addresses = heap.addresses := by
  rw [addresses, addresses, Heap.replace, List.map_map]
  apply List.map_congr_left
  intro other _
  rw [Function.comp_apply]
  split
  · rename_i same
    exact same.symm
  · rfl

theorem Valid.replace (valid : heap.Valid) (here : changed.address ∈ heap.addresses)
    (stored : changed.Stored) (unmarked : changed.marked = false) :
    (heap.replace changed).Valid where
  distinct := by
    rw [addresses_replace]
    exact valid.distinct
  placed other member := by
    obtain ⟨rfl, -⟩ | ⟨old, -⟩ := mem_replace.mp member
    · obtain ⟨before, inside, same⟩ := List.mem_map.mp here
      exact same ▸ valid.placed before inside
    · exact valid.placed other old
  stored other member := by
    obtain ⟨rfl, -⟩ | ⟨old, -⟩ := mem_replace.mp member
    · exact stored
    · exact valid.stored other old
  unmarked other member := by
    obtain ⟨rfl, -⟩ | ⟨old, -⟩ := mem_replace.mp member
    · exact unmarked
    · exact valid.unmarked other old
  counted := by
    have := valid.counted
    simpa [Heap.replace] using this
  limited := valid.limited

end Objects

end Heap

/-! ## Showing things in a changed heap -/

section Showing

variable {objects more : List Object} {places larger : Places}

/-- More places. -/
def Places.Grows (places larger : Places) : Prop :=
  ∀ number address, places number = some address → larger number = some address

theorem Represents.grows (grows : places.Grows larger) {value : Value} {datum : Datum}
    (stands : Represents places value datum) : Represents larger value datum := by
  cases datum with
  | word word => exact stands
  | reference number => exact grows number value stands

theorem SymbolChain.grows (within : objects ⊆ more) (grows : places.Grows larger) :
    ∀ (symbols : List Nat) (first : Value), SymbolChain objects places first symbols →
      SymbolChain more larger first symbols := by
  intro symbols
  induction symbols with
  | nil =>
      intro first chain
      exact chain
  | cons number rest ih =>
      intro first chain
      obtain ⟨place, symbol, member, address, kind, others⟩ := chain
      exact ⟨grows number first place, symbol, within member, address, kind, ih _ others⟩

/-- With more objects and more places an object shows what it did. -/
theorem Object.Shows.grows (within : objects ⊆ more) (grows : places.Grows larger) {object : Object}
    {thing : Thing} (shows_ : object.Shows objects places thing) :
    object.Shows more larger thing := by
  cases thing with
  | pair first rest =>
      exact ⟨shows_.1, shows_.2.1.grows grows, shows_.2.2.grows grows⟩
  | string bytes => exact shows_
  | symbol name => exact ⟨shows_.1, shows_.2.grows grows⟩
  | package name symbols =>
      
      obtain ⟨kind, name, distinct, chain⟩ := shows_
      exact ⟨kind, name.grows grows, distinct, chain.grows within grows _ _⟩
  | closure code captured => exact ⟨shows_.1, shows_.2.1, shows_.2.2.grows grows⟩
  | vector items =>
      obtain ⟨kind, length, storage, contents, holds⟩ := shows_
      exact ⟨kind, length, storage, contents, { holds with
        member := within holds.member
        items := holds.items.imp fun _ _ stands => stands.grows grows }⟩

variable {heap : Heap} {before changed : Object}

theorem SymbolChain.replace (valid : heap.Valid) (member : before ∈ heap.objects)
    (address : changed.address = before.address) (kind : changed.kind = before.kind)
    (links : before.kind = .symbol → changed.slots 2 = before.slots 2) :
    ∀ (symbols : List Nat) (first : Value), SymbolChain heap.objects places first symbols →
      SymbolChain (heap.replace changed).objects places first symbols := by
  intro symbols
  induction symbols with
  | nil =>
      intro first chain
      exact chain
  | cons number rest ih =>
      intro first chain
      obtain ⟨place, symbol, inside, same, isSymbol, others⟩ := chain
      by_cases here : symbol.address = before.address
      · obtain rfl := valid.same inside member here
        have next := ih _ others
        refine ⟨place, changed, Heap.mem_replace.mpr (.inl ⟨rfl, ?_⟩), address.trans same,
          kind.trans isSymbol, links isSymbol ▸ next⟩
        exact address ▸ List.mem_map_of_mem member
      · refine ⟨place, symbol, Heap.mem_replace.mpr (.inr ⟨inside, ?_⟩), same, isSymbol,
          ih _ others⟩
        rw [address]
        exact here

/-- An object that does not use the replaced one as storage shows what it did. -/
theorem Object.Shows.replace (valid : heap.Valid) (member : before ∈ heap.objects)
    (address : changed.address = before.address) (kind : changed.kind = before.kind)
    (links : before.kind = .symbol → changed.slots 2 = before.slots 2) {object : Object}
    (apart : before.kind = .valueVectorStorage → object.kind = .valueVector →
      object.slots 0 ≠ before.address)
    {thing : Thing} (shows_ : object.Shows heap.objects places thing) :
    object.Shows (heap.replace changed).objects places thing := by
  cases thing with
  | pair first rest => exact shows_
  | string bytes => exact shows_
  | symbol name => exact shows_
  | package name symbols =>
      obtain ⟨isPackage, name, distinct, chain⟩ := shows_
      exact ⟨isPackage, name, distinct, chain.replace valid member address kind links _ _⟩
  | closure code captured => exact shows_
  | vector items =>
      obtain ⟨isVector, length, storage, contents, holds⟩ := shows_
      refine ⟨isVector, length, storage, contents, { holds with
        member := Heap.mem_replace.mpr (.inr ⟨holds.member, ?_⟩) }⟩
      intro same
      rw [address] at same
      obtain rfl := valid.same holds.member member same
      exact apart holds.kind isVector holds.address.symm

end Showing

/-! ## Representation of changed heaps -/

section Represented

variable {heap : Heap} {ideal : IdealHeap} {places : Places} {object before changed : Object}

/-- A new object changes nothing that is represented. -/
theorem Represented.withObject (represented : Represented heap ideal places)
    (fresh : heap.Fresh object.address) (stored : object.Stored) (unmarked : object.marked = false)
    (below : heap.objectCount < heap.collectionLimit) :
    Represented (heap.withObject object) ideal places where
  valid := represented.valid.withObject fresh stored unmarked below
  injective := represented.injective
  shown place := by
    obtain ⟨other, member, address, thing, there, shows_⟩ := represented.shown place
    exact ⟨other, List.mem_cons_of_mem _ member, address, thing, there,
      shows_.grows (List.subset_cons_self _ _) fun _ _ same => same⟩
  owned {left right} leftMember rightMember leftKind rightKind leftPlaced rightPlaced slot := by
    have old : ∀ {other : Object}, other ∈ (heap.withObject object).objects →
        (∃ number, places number = some other.address) → other ∈ heap.objects := by
      rintro other member ⟨number, place⟩
      obtain rfl | old := List.mem_cons.mp member
      · exact absurd (represented.held place) fresh.unused
      · exact old
    exact represented.owned (old leftMember leftPlaced) (old rightMember rightPlaced) leftKind
      rightKind leftPlaced rightPlaced slot
  rooted := represented.rooted
  registered := represented.registered

/-- The places with one for the thing that is added next. -/
def Places.add (places : Places) (number : Nat) (address : Value) : Places :=
  fun other => if other = number then some address else places other

theorem Represented.number_lt (represented : Represented heap ideal places) {number : Nat}
    {address : Value} (place : places number = some address) : number < ideal.things.length := by
  obtain ⟨_, _, _, thing, there, _⟩ := represented.shown place
  exact (List.getElem?_eq_some_iff.mp there).1

theorem Represented.add_grows (represented : Represented heap ideal places) (address : Value) :
    places.Grows (places.add ideal.things.length address) := by
  intro number other place
  have := represented.number_lt place
  rw [Places.add, if_neg (by omega), place]

theorem RootSet.Related.imp {V W : Type} {rel stronger : V → W → Prop} {left : RootSet V}
    {right : RootSet W} (related : left.Related rel right)
    (implies : ∀ value datum, rel value datum → stronger value datum) :
    left.Related stronger right :=
  related.mono (fun value _ datum => implies value datum) (implies _ _ related.firstValue)
    (implies _ _ related.secondValue)

/-- An object that has no place and shows a thing can be taken for it. -/
theorem Represented.admit (represented : Represented heap ideal places)
    (member : object ∈ heap.objects) (unplaced : ∀ number, places number ≠ some object.address)
    {thing : Thing}
    (shows_ : object.Shows heap.objects places thing)
    (owned : ∀ other ∈ heap.objects, object.kind = .valueVector → other.kind = .valueVector →
      (∃ number, places number = some other.address) → object.slots 0 ≠ other.slots 0) :
    Represented heap (ideal.add thing).2 (places.add ideal.things.length object.address) := by
  have grows := represented.add_grows object.address
  have cases_ : ∀ {number : Nat} {address : Value},
      places.add ideal.things.length object.address number = some address →
        number = ideal.things.length ∧ address = object.address ∨ places number = some address := by
    intro number address place
    rw [Places.add] at place
    split at place
    · rename_i last
      exact .inl ⟨last, (Option.some.inj place).symm⟩
    · exact .inr place
  refine ⟨represented.valid, ?_, ?_, ?_, ?_, represented.registered⟩
  · intro first second address one two
    obtain ⟨rfl, rfl⟩ | one := cases_ one
    · obtain ⟨rfl, -⟩ | two := cases_ two
      · rfl
      · exact absurd two (unplaced second)
    · obtain ⟨rfl, rfl⟩ | two := cases_ two
      · exact absurd one (unplaced first)
      · exact represented.injective one two
  · intro number address place
    obtain ⟨rfl, rfl⟩ | place := cases_ place
    · refine ⟨object, member, rfl, thing, ?_, shows_.grows (List.Subset.refl _) grows⟩
      rw [IdealHeap.add, List.getElem?_append_right le_rfl, Nat.sub_self]
      rfl
    · obtain ⟨other, inside, same, shown, there, shows'⟩ := represented.shown place
      refine ⟨other, inside, same, shown, ?_, shows'.grows (List.Subset.refl _) grows⟩
      rw [IdealHeap.add, List.getElem?_append_left (represented.number_lt place), there]
  · intro left right leftMember rightMember leftKind rightKind leftPlaced rightPlaced slot
    obtain ⟨first, one⟩ := leftPlaced
    obtain ⟨second, two⟩ := rightPlaced
    obtain ⟨-, same⟩ | leftOld := cases_ one
    · obtain rfl := represented.valid.same leftMember member same
      obtain ⟨-, also⟩ | rightOld := cases_ two
      · exact (represented.valid.same rightMember member also).symm
      · exact absurd slot (owned right rightMember leftKind rightKind ⟨second, rightOld⟩)
    · obtain ⟨-, also⟩ | rightOld := cases_ two
      · obtain rfl := represented.valid.same rightMember member also
        exact absurd slot.symm (owned left leftMember rightKind leftKind ⟨first, leftOld⟩)
      · exact represented.owned leftMember rightMember leftKind rightKind ⟨first, leftOld⟩
          ⟨second, rightOld⟩ slot
  · exact represented.rooted.imp fun value datum stands => stands.grows grows

/-- Replace an object. What the other objects show stays, the things that the object and its owner
show may change. -/
theorem Represented.replace (represented : Represented heap ideal places) {after : IdealHeap}
    (member : before ∈ heap.objects) (address : changed.address = before.address)
    (kind : changed.kind = before.kind) (stored : changed.Stored) (unmarked : changed.marked = false)
    (rootSet : after.rootSet = ideal.rootSet)
    (shown : ∀ {number} {object : Object}, object ∈ (heap.replace changed).objects →
      places number = some object.address →
      ∃ thing, after.things[number]? = some thing ∧
        object.Shows (heap.replace changed).objects places thing)
    (owned : before.kind = .valueVector → (∃ number, places number = some before.address) →
      changed.slots 0 = before.slots 0 ∨
        ∀ other ∈ heap.objects, other.kind = .valueVector →
          (∃ number, places number = some other.address) → other.slots 0 ≠ changed.slots 0) :
    Represented (heap.replace changed) after places := by
  have here : changed.address ∈ heap.addresses := address ▸ List.mem_map_of_mem member
  refine ⟨represented.valid.replace here stored unmarked, represented.injective, ?_, ?_, ?_, ?_⟩
  · intro number place_ placed
    obtain ⟨object, inside, same, -⟩ := represented.shown placed
    have now : place_ ∈ (heap.replace changed).addresses := by
      rw [Heap.addresses_replace]
      exact same ▸ List.mem_map_of_mem inside
    obtain ⟨other, there, rfl⟩ := List.mem_map.mp now
    exact ⟨other, there, rfl, shown there placed⟩
  · intro left right leftMember rightMember leftKind rightKind leftPlaced rightPlaced slot
    obtain ⟨rfl, -⟩ | ⟨leftOld, leftApart⟩ := Heap.mem_replace.mp leftMember
    · obtain ⟨rfl, -⟩ | ⟨rightOld, rightApart⟩ := Heap.mem_replace.mp rightMember
      · rfl
      · obtain same | apart := owned (kind ▸ leftKind) (address ▸ leftPlaced)
        · have equal := represented.owned member rightOld (kind ▸ leftKind) rightKind
            (address ▸ leftPlaced) rightPlaced (same ▸ slot)
          exact absurd (equal ▸ address.symm) rightApart
        · exact absurd slot.symm (apart right rightOld rightKind rightPlaced)
    · obtain ⟨rfl, -⟩ | ⟨rightOld, rightApart⟩ := Heap.mem_replace.mp rightMember
      · obtain same | apart := owned (kind ▸ rightKind) (address ▸ rightPlaced)
        · have equal := represented.owned leftOld member leftKind (kind ▸ rightKind) leftPlaced
            (address ▸ rightPlaced) (slot.trans same)
          exact absurd (equal ▸ address.symm) leftApart
        · exact absurd slot (apart left leftOld leftKind leftPlaced)
      · exact represented.owned leftOld rightOld leftKind rightKind leftPlaced rightPlaced slot
  · rw [rootSet]
    exact represented.rooted
  · rw [rootSet]
    exact represented.registered

end Represented

end Runtime
