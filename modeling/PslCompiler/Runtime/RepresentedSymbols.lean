import PslCompiler.Runtime.RepresentedUpdates

/-! # Interning on a heap that represents an ideal heap

The walk along the symbols of a package ends and finds what the list of symbols has. A new symbol
becomes the head of the chain.
-/

namespace Runtime

open Heaps (Agrees)

variable {heap : Heap} {ideal : IdealHeap} {places : Places}

/-- The next symbol of a chain, as the runtime and the ideal heap see it. -/
theorem SymbolChain.head (represented : Represented heap ideal places) {first : Value}
    {number : Nat} {rest : List Nat}
    (chain : SymbolChain heap.objects places first (number :: rest)) :
    first ≠ pslNil ∧ places number = some first ∧ ∃ symbol name,
      expectObject heap.objects first (some .symbol) = .ok symbol ∧
      ideal.symbolName (.reference number) = .ok name ∧
      Represents places (symbol.slots 0) name ∧
      SymbolChain heap.objects places (symbol.slots 2) rest := by
  obtain ⟨place, symbol, member, address, kind, others⟩ := chain
  have pointer := represented.pointer place
  refine ⟨?_, place, symbol, ?_⟩
  · rintro rfl
    exact absurd pointer.2 (by decide)
  have found : expectObject heap.objects first (some .symbol) = .ok symbol := by
    rw [expectObject, ← address, represented.valid.findObject member]
    exact if_neg (not_not.mpr kind)
  obtain ⟨object, inside, same, thing, known, shows_⟩ := represented.shown place
  obtain rfl := represented.valid.same inside member (same.trans address.symm)
  have picked : thing.asSymbol.isSome = true := by
    rw [asSymbol_kind, ← shows_.kind, kind]
    rfl
  obtain ⟨name, picked⟩ := Option.isSome_iff_exists.mp picked
  obtain rfl := asSymbol_some picked
  refine ⟨name, found, ?_, shows_.2, others⟩
  simp only [IdealHeap.symbolName, IdealHeap.expect, IdealHeap.thing, known, bind, Except.bind,
    Thing.asSymbol]
  rfl

theorem IdealHeap.symbolNamed_cons {number : Nat} {rest : List Nat} {name datum : Datum}
    {bytes : List UInt8} (named : ideal.symbolName (.reference number) = .ok name)
    (wanted : ideal.string datum = .ok bytes) :
    ideal.symbolNamed bytes (number :: rest) = (do
      let same ← ideal.stringsEqual name datum
      if same then return some number
      ideal.symbolNamed bytes rest) := by
  rw [IdealHeap.symbolNamed, named, IdealHeap.stringsEqual]
  simp only [bind, Except.bind, pure, Except.pure]
  cases ideal.string name with
  | error fault => rfl
  | ok found =>
      simp only [wanted]
      by_cases same : found = bytes
      · simp [same]
      · simp [same]

/-- The walk along a chain agrees with the search in the list. -/
theorem findInterned_agrees (represented : Represented heap ideal places) {name : Value}
    {datum : Datum} (stands : Represents places name datum) {bytes : List UInt8}
    (wanted : ideal.string datum = .ok bytes) :
    ∀ (symbols : List Nat) (steps : Nat) (first : Value),
      SymbolChain heap.objects places first symbols → symbols.length < steps →
      Agrees .memory (Option.Rel fun found number => places number = some found)
        (findInterned heap.objects name steps first) (ideal.symbolNamed bytes symbols) := by
  intro symbols
  induction symbols with
  | nil =>
      intro steps first chain enough
      obtain ⟨steps, rfl⟩ := Nat.exists_eq_add_of_lt enough
      have last : first = pslNil := chain
      rw [findInterned, if_pos last]
      exact .ok .none
  | cons number rest ih =>
      intro steps first chain enough
      rw [List.length_cons] at enough
      obtain ⟨steps, rfl⟩ : ∃ fewer, steps = fewer + 1 := ⟨steps - 1, by omega⟩
      obtain ⟨pointer, place, symbol, known, found, named, stand, others⟩ := chain.head represented
      rw [findInterned, if_neg pointer, found, IdealHeap.symbolNamed_cons named wanted]
      refine (stringsEqual_agrees represented stand stands).bind ?_
      rintro same _ rfl
      cases same with
      | true => exact .ok (.some place)
      | false => exact ih steps (symbol.slots 2) others (by omega)

theorem SymbolChain.placed {objects : List Object} :
    ∀ (symbols : List Nat) (first : Value), SymbolChain objects places first symbols →
      ∀ number ∈ symbols, ∃ address, places number = some address := by
  intro symbols
  induction symbols with
  | nil =>
      intro _ _ number member
      cases member
  | cons number rest ih =>
      intro first chain other member
      obtain ⟨place, symbol, -, -, -, others⟩ := chain
      obtain rfl | later := List.mem_cons.mp member
      · exact ⟨first, place⟩
      · exact ih _ others other later

/-- The symbols of a chain are objects, so the walk is long enough. -/
theorem SymbolChain.length_le (represented : Represented heap ideal places) {first : Value}
    {symbols : List Nat} (distinct : symbols.Nodup)
    (chain : SymbolChain heap.objects places first symbols) :
    symbols.length ≤ heap.objects.length := by
  have placed := SymbolChain.placed symbols first chain
  have images : (symbols.map fun number => (places number).getD 0#64).Nodup := by
    rw [List.nodup_map_iff_inj_on distinct]
    intro left inLeft right inRight same
    obtain ⟨one, leftPlace⟩ := placed left inLeft
    obtain ⟨two, rightPlace⟩ := placed right inRight
    rw [leftPlace, rightPlace] at same
    obtain rfl : one = two := same
    exact represented.injective leftPlace rightPlace
  have within : (symbols.map fun number => (places number).getD 0#64) ⊆ heap.addresses := by
    intro address member
    obtain ⟨number, inside, rfl⟩ := List.mem_map.mp member
    obtain ⟨address, place⟩ := placed number inside
    rw [place]
    exact represented.held place
  have count := (images.subperm within).length_le
  rwa [List.length_map, Heap.addresses, List.length_map] at count

/-- What a value that a collection saw finds is found afterwards. -/
theorem Remains.finds {roots : List Value} {rest : Heap} {left : Places}
    (remains : Remains heap ideal places roots rest left) (represented : Represented heap ideal places)
    {value : Value} {number : Nat} {object : Object} {thing : Thing}
    (finds : Finds heap ideal places value number object thing) (named : value ∈ roots) :
    Finds rest ideal left value number object thing := by
  have place : left number = some value :=
    remains.rooted value named (.reference number) finds.place
  obtain ⟨found, member, address, other, known, shows_⟩ := remains.represented.shown place
  obtain rfl := represented.valid.same (remains.within member) finds.member
    (address.trans finds.address.symm)
  obtain rfl := Option.some.inj (known.symm.trans finds.known)
  exact ⟨member, address, place, known, shows_⟩

theorem expectObject_of_mem (valid : heap.Valid) {object : Object} (member : object ∈ heap.objects)
    {kind : ObjectKind} (same : object.kind = kind) :
    expectObject heap.objects object.address (some kind) = .ok object := by
  rw [expectObject, valid.findObject member]
  exact if_neg (not_not.mpr same)

/-- What linking a new symbol does to the symbol and to the package. -/
theorem linkSymbol_withObject (valid : heap.Valid) {symbol package : Object}
    (fresh : heap.Fresh symbol.address) (below : heap.objectCount < heap.collectionLimit)
    (unmarked : symbol.marked = false) (kind : symbol.kind = .symbol)
    (member : package ∈ heap.objects) (isPackage : package.kind = .package) (set : RootSet Value)
    (values : List Value) :
    linkSymbol set.localRoot package.address symbol.address
        ((heap.withRoots (set.pushLocal values)).withObject symbol) =
      .ok (symbol.address, (((heap.withRoots set).withObject { symbol with
          slots := Function.update (Function.update symbol.slots 1 package.address) 2
            (package.slots 1) }).replace
        { package with slots := Function.update package.slots 1 symbol.address })) := by
  have pointer := fresh.withRoots (set.pushLocal values)
  have grown : ∀ slots : Fin 3 → Value, ((heap.withRoots (set.pushLocal values)).withObject
      { symbol with slots := slots }).Valid := by
    intro slots
    refine (valid.withRoots _).withObject pointer ?_ unmarked below
    intro storage
    rw [kind] at storage
    cases storage
  have inside : ∀ slots : Fin 3 → Value, package ∈ ((heap.withRoots
      (set.pushLocal values)).withObject { symbol with slots := slots }).objects :=
    fun _ => List.mem_cons_of_mem _ member
  have foundPackage := expectObject_of_mem (grown symbol.slots) (inside symbol.slots) isPackage
  have foundSymbol := expectObject_of_mem (grown symbol.slots) List.mem_cons_self kind
  have found := dereference_of_mem (grown (Function.update symbol.slots 1 package.address)).distinct
    (inside _)
  have replaced := setSlot_of_mem
    (grown (Function.update (Function.update symbol.slots 1 package.address) 2 (package.slots 1)))
    (inside _) 1 symbol.address
  rw [linkSymbol, foundPackage]
  simp only [bind, Except.bind, pure, Except.pure]
  rw [foundSymbol]
  simp only
  rw [setSlot_withObject pointer rfl]
  simp only
  rw [found]
  have second := @setSlot_withObject (heap.withRoots (set.pushLocal values))
    { symbol with slots := Function.update symbol.slots 1 package.address } symbol.address pointer rfl
    2 (package.slots 1)
  simp only
  rw [second]
  simp only
  rw [replaced]
  simp only
  rw [popRoots_local set values]
  · rfl
  · rfl

/-- A new symbol at the head of the chain of a package. -/
theorem Represented.intern (represented : Represented heap ideal places) {address : Value}
    (fresh : heap.Fresh address) (below : heap.objectCount < heap.collectionLimit)
    {package symbol changed : Object} {value : Value} {number : Nat} {name packageName : Datum}
    {symbols : List Nat}
    (finds : Finds heap ideal places value number package (.package packageName symbols))
    (same : symbol.address = address) (unmarked : symbol.marked = false)
    (kind : symbol.kind = .symbol) (stands : Represents places (symbol.slots 0) name)
    (linked : symbol.slots 2 = package.slots 1)
    (becomes : changed = { package with slots := Function.update package.slots 1 address }) :
    Gives (address, (heap.withObject symbol).replace changed)
      (.reference ideal.things.length, (ideal.add (.symbol name)).2.put (.reference number)
        (.package packageName (ideal.things.length :: symbols))) := by
  subst same
  obtain ⟨isPackage, nameStands, distinct, chain⟩ := finds.shown
  have unplaced : ∀ number, places number ≠ some symbol.address := fun _ place =>
    fresh.unused (represented.held place)
  have grown := represented.withObject fresh
    (fun storage => by rw [kind] at storage; cases storage) unmarked below
  have shown : symbol.Shows (heap.withObject symbol).objects places (.symbol name) := ⟨kind, stands⟩
  have admitted := grown.admit List.mem_cons_self unplaced shown
    fun _ _ vector => by rw [kind] at vector; cases vector
  have grows := represented.add_grows symbol.address
  have old : number < ideal.things.length := represented.number_lt finds.place
  have here : Finds (heap.withObject symbol) (ideal.add (.symbol name)).2
      (places.add ideal.things.length symbol.address) value number package
      (.package packageName symbols) := by
    refine ⟨List.mem_cons_of_mem _ finds.member, finds.address, grows _ _ finds.place, ?_,
      finds.shown.grows (List.subset_cons_self _ _) grows⟩
    rw [IdealHeap.add, List.getElem?_append_left old]
    exact finds.known
  have newest : places.add ideal.things.length symbol.address ideal.things.length =
      some symbol.address := if_pos rfl
  have address : changed.address = package.address := becomes ▸ rfl
  have sameKind : changed.kind = package.kind := becomes ▸ rfl
  have apart : symbol.address ≠ changed.address := by
    intro equal
    rw [address] at equal
    exact fresh.unused (equal ▸ List.mem_map_of_mem finds.member)
  have notSymbol : package.kind = .symbol → changed.slots 2 = package.slots 2 := by
    intro isSymbol
    rw [isPackage] at isSymbol
    cases isSymbol
  have newestChain : SymbolChain ((heap.withObject symbol).replace changed).objects
      (places.add ideal.things.length symbol.address) (changed.slots 1)
      (ideal.things.length :: symbols) := by
    have first : changed.slots 1 = symbol.address := by
      rw [becomes]
      rfl
    rw [first]
    refine ⟨newest, symbol, Heap.mem_replace.mpr (.inr ⟨List.mem_cons_self, apart⟩), rfl, kind, ?_⟩
    rw [linked]
    exact (chain.grows (List.subset_cons_self _ _) grows _ _).replace grown.valid
      (List.mem_cons_of_mem _ finds.member) address sameKind notSymbol _ _
  refine ⟨_, admitted.put here address sameKind ?_ ?_ ⟨?_, ?_, ?_, newestChain⟩ ?_, newest⟩
  · rw [becomes]
    exact represented.valid.unmarked package finds.member
  · rw [isPackage]
    decide
  · exact sameKind.trans isPackage
  · rw [becomes]
    exact nameStands.grows grows
  · rw [List.nodup_cons]
    refine ⟨fun member => ?_, distinct⟩
    obtain ⟨place, placed⟩ := SymbolChain.placed symbols _ chain _ member
    exact absurd (represented.number_lt placed) (lt_irrefl _)
  · intro vector
    rw [isPackage] at vector
    cases vector

theorem intern_agrees (environment : Environment) (precise : Bool)
    (represented : Represented heap ideal places) {value name : Value} {datum also : Datum}
    (stands : Represents places value datum) (second : Represents places name also) :
    Agrees .memory Gives (internSymbol environment precise value name heap)
      (ideal.intern datum also) := by
  unfold internSymbol IdealHeap.intern
  refine (package_agrees represented stands).bind ?_
  rintro package ⟨packageName, symbols⟩ ⟨number, rfl, finds⟩
  have string := string_agrees represented second
  generalize wanted : ideal.string also = known at string
  generalize there : expectObject heap.objects name (some .string) = found at string
  cases string with
  | exhausted _ => exact .exhausted _
  | fault fault => exact .fault fault
  | @ok string bytes _ =>
      obtain ⟨isPackage, nameStands, distinct, chain⟩ := finds.shown
      dsimp only at finds distinct chain ⊢
      have enough := chain.length_le represented distinct
      refine (findInterned_agrees represented second wanted symbols _ _ chain (by omega)).bind ?_
      intro found found' same
      cases same with
      | @some symbol number' place => exact .ok ⟨places, represented, place⟩
      | none =>
          dsimp only
          have covered := pushLocal_covers heap.rootSet [value, name]
          obtain failed | ⟨address, symbol, after, kept, made, fresh, same, unmarked, kind, slot,
            remains⟩ := makeSymbol_remains environment precise represented _ covered there
          · change makeSymbol environment precise name (heap.pushLocal [value, name]) = _ at failed
            rw [failed]
            exact .exhausted _
          · change makeSymbol environment precise name (heap.pushLocal [value, name]) = _ at made
            have rooted : value ∈ name :: (heap.rootSet.pushLocal [value, name]).values :=
              List.mem_cons_of_mem _ (pushLocal_values _ List.mem_cons_self)
            have findsAfter := remains.finds represented finds rooted
            subst same
            have linked := linkSymbol_withObject remains.represented.valid fresh remains.below
              unmarked kind findsAfter.member isPackage heap.rootSet [value, name]
            rw [finds.address] at linked
            rw [made]
            simp only [bind, Except.bind, pure, Except.pure]
            rw [linked]
            have unchanged : after.withRoots heap.rootSet = after := by
              rw [← remains.rootSet]
              rfl
            rw [unchanged]
            have stands' : Represents kept (Function.update (Function.update symbol.slots 1 value) 2
                (package.slots 1) 0) also := by
              have first : Function.update (Function.update symbol.slots 1 value) 2
                  (package.slots 1) 0 = name := slot
              rw [first]
              exact remains.rooted name List.mem_cons_self also second
            exact .ok (@Represented.intern after ideal kept remains.represented symbol.address fresh
              remains.below package { symbol with
                slots := Function.update (Function.update symbol.slots 1 value) 2 (package.slots 1) }
              _ value number also packageName symbols findsAfter rfl unmarked kind stands' rfl
              (by rw [finds.address]))

end Runtime
