import PslCompiler.Runtime.RepresentedVectors

/-! # Roots of a heap that represents an ideal heap

Frames, permanent arrays, handles and multiple values are the same on both sides, with values that
stand for the data of the ideal heap.
-/

namespace Runtime

open Heaps (Agrees)

/-! ## Corresponding lists -/

section Lists

variable {V W : Type} {rel : V → W → Prop} {left : List V} {right : List W}

theorem getElem?_related (pairs : List.Forall₂ rel left right) :
    ∀ index : Nat, Option.Rel rel left[index]? right[index]? := by
  induction pairs with
  | nil => exact fun _ => .none
  | cons here _ ih =>
      intro index
      cases index with
      | zero => exact .some here
      | succ index => exact ih index

theorem find?_related {first : V → Bool} {second : W → Bool} (pairs : List.Forall₂ rel left right)
    (same : ∀ value datum, rel value datum → first value = second datum) :
    Option.Rel rel (left.find? first) (right.find? second) := by
  induction pairs with
  | nil => exact .none
  | @cons value datum _ _ here _ ih =>
      rw [List.find?_cons, List.find?_cons, same value datum here]
      cases second datum with
      | true => exact .some here
      | false => exact ih

theorem map_related {A B : Type} {also : A → B → Prop} {first : V → A} {second : W → B}
    (pairs : List.Forall₂ rel left right)
    (follow : ∀ value datum, rel value datum → also (first value) (second datum)) :
    List.Forall₂ also (left.map first) (right.map second) := by
  induction pairs with
  | nil => exact .nil
  | cons here _ ih => exact .cons (follow _ _ here) ih

theorem bind_related {A B : Type} {also : A → B → Prop} {found : Option V} {other : Option W}
    {first : V → Option A} {second : W → Option B} (pair : Option.Rel rel found other)
    (follow : ∀ value datum, rel value datum → Option.Rel also (first value) (second datum)) :
    Option.Rel also (found.bind first) (other.bind second) := by
  cases pair with
  | none => exact .none
  | some here => exact follow _ _ here

theorem orFault_agrees (fault : Fault) {found : Option V} {other : Option W}
    (pair : Option.Rel rel found other) :
    Agrees Fault.memory rel (orFault fault found) (orFault fault other) := by
  cases pair with
  | none => exact .fault fault
  | some here => exact .ok here

end Lists

/-! ## Corresponding root sets -/

section RootSets

variable {places : Places} {left : RootSet Value} {right : RootSet Datum}

/-- Root sets that hold the same. -/
structure RootSet.Corresponds (places : Places) (left : RootSet Value) (right : RootSet Datum) :
    Prop where
  related : left.Related (Represents places) right
  registered : left.Registered right

namespace RootSet.Corresponds

theorem frameRoots (sets : left.Corresponds places right) :
    left.roots.map RootFrame.root = right.roots.map RootFrame.root := by
  have pairs : List.Forall₂ Eq (left.roots.map RootFrame.root) (right.roots.map RootFrame.root) :=
    map_related sets.related.roots fun _ _ frames => frames.root
  rwa [List.forall₂_eq_eq_eq] at pairs

theorem pushRoots (sets : left.Corresponds places right) (root : Nat) {values : List Value}
    {data : List Datum} (pairs : List.Forall₂ (Represents places) values data) :
    Agrees Fault.memory (RootSet.Corresponds places) (left.pushRoots root values)
      (right.pushRoots root data) := by
  rw [RootSet.pushRoots, RootSet.pushRoots, sets.frameRoots]
  split
  · exact .fault Fault.misuse
  · exact .ok ⟨{ sets.related with roots := .cons ⟨rfl, pairs⟩ sets.related.roots },
      sets.registered.used, sets.registered.unused⟩

theorem popRoots (sets : left.Corresponds places right) (root : Nat) :
    Agrees Fault.memory (RootSet.Corresponds places) (left.popRoots root) (right.popRoots root) := by
  have pairs := sets.related.roots
  rw [RootSet.popRoots, RootSet.popRoots]
  generalize left.roots = frames at pairs
  generalize right.roots = others at pairs
  cases pairs with
  | nil => exact .fault Fault.abort
  | cons here rest =>
      dsimp only
      rw [here.root]
      split
      · exact .fault Fault.abort
      · exact .ok ⟨{ sets.related with roots := rest }, sets.registered.used, sets.registered.unused⟩

theorem rootValue (sets : left.Corresponds places right) (root index : Nat) :
    Agrees Fault.memory (Represents places) (left.rootValue root index)
      (right.rootValue root index) := by
  have frames : Option.Rel (RootFrame.Related (Represents places)) (left.frame root)
      (right.frame root) :=
    find?_related sets.related.roots fun _ _ frames => by rw [frames.root]
  exact orFault_agrees _ (bind_related frames fun _ _ here => getElem?_related here.values index)

theorem setRootValue (sets : left.Corresponds places right) (root index : Nat) {value : Value}
    {datum : Datum} (stands : Represents places value datum) :
    (left.setRootValue root index value).Corresponds places
      (right.setRootValue root index datum) := by
  refine ⟨{ sets.related with roots := map_related sets.related.roots fun first second here => ?_ },
    sets.registered.used, sets.registered.unused⟩
  by_cases same : first.root = root
  · rw [if_pos same, if_pos (here.root.symm.trans same)]
    exact ⟨here.root, forall₂_set here.values stands index⟩
  · rw [if_neg same, if_neg fun also => same (here.root.trans also)]
    exact here

theorem permanentArray (sets : left.Corresponds places right) (array : Nat) :
    Option.Rel (List.Forall₂ (Represents places)) (left.permanentArray array)
      (right.permanentArray array) := by
  have pairs := sets.related.permanentRoots
  rw [RootSet.permanentArray, RootSet.permanentArray]
  generalize left.permanentRoots = arrays at pairs
  generalize right.permanentRoots = others at pairs
  induction pairs with
  | nil => exact .none
  | cons here _ ih =>
      cases here with
      | currentValues => exact ih
      | @registered place values data pairs =>
          rw [List.findSome?_cons, List.findSome?_cons]
          by_cases same : place = array
          · simp only [if_pos same]
            exact .some pairs
          · simp only [if_neg same]
            exact ih

theorem setPermanentValue (sets : left.Corresponds places right) (array index : Nat)
    {value : Value} {datum : Datum} (stands : Represents places value datum) :
    (left.setPermanentValue array index value).Corresponds places
      (right.setPermanentValue array index datum) := by
  refine ⟨{ sets.related with
      permanentRoots := map_related sets.related.permanentRoots fun first second here => ?_ },
    fun used => ?_, sets.registered.unused⟩
  · cases here with
    | currentValues => exact .currentValues
    | @registered place values data pairs =>
        dsimp only
        split
        · exact .registered (forall₂_set pairs stands index)
        · exact .registered pairs
  · exact List.mem_map.mpr ⟨_, sets.registered.used used, rfl⟩

theorem load (sets : left.Corresponds places right) (place : Place) :
    Agrees Fault.memory (Represents places) (left.load place) (right.load place) := by
  cases place with
  | frame root index => exact sets.rootValue root index
  | permanent array index =>
      exact orFault_agrees _ (bind_related (sets.permanentArray array)
        fun _ _ here => getElem?_related here index)

theorem store (sets : left.Corresponds places right) (place : Place) {value : Value}
    {datum : Datum} (stands : Represents places value datum) :
    Agrees Fault.memory (RootSet.Corresponds places) (left.store place value)
      (right.store place datum) := by
  refine (sets.load place).bind fun _ _ _ => ?_
  cases place with
  | frame root index => exact .ok (sets.setRootValue root index stands)
  | permanent array index => exact .ok (sets.setPermanentValue array index stands)

theorem operands (sets : left.Corresponds places right) :
    ∀ operands : List Operand,
      Agrees Fault.memory (List.Forall₂ (Represents places)) (left.operands id operands)
        (right.operands .word operands) := by
  intro operands
  induction operands with
  | nil => exact .ok .nil
  | cons operand rest ih =>
      have one : Agrees Fault.memory (Represents places) (left.operand id operand)
          (right.operand .word operand) := by
        cases operand with
        | place place => exact sets.load place
        | immediate value =>
            rw [RootSet.operand, RootSet.operand]
            by_cases immediate : immediateP value = true
            · rw [if_pos immediate, if_pos immediate]
              exact .ok ⟨rfl, immediate⟩
            · rw [if_neg immediate, if_neg immediate]
              exact .fault Fault.misuse
      refine one.bind fun value datum stands => ?_
      exact ih.bind fun values data others => .ok (.cons stands others)

/-! ### Handles -/

theorem findValueHandle (sets : left.Corresponds places right) (token : Nat) :
    Agrees Fault.memory (ValueHandle.Related (Represents places)) (left.findValueHandle token)
      (right.findValueHandle token) := by
  rw [RootSet.findValueHandle, RootSet.findValueHandle]
  split
  · exact .fault Fault.abort
  · exact orFault_agrees _
      (find?_related sets.related.valueHandles fun _ _ here => by rw [here.token])

theorem valueHandleGet (sets : left.Corresponds places right) (token : Nat) :
    Agrees Fault.memory (Represents places) (left.valueHandleGet token)
      (right.valueHandleGet token) :=
  (sets.findValueHandle token).bind fun _ _ here => .ok here.value

theorem valueHandleSet (sets : left.Corresponds places right) (token : Nat) {value : Value}
    {datum : Datum} (stands : Represents places value datum) :
    Agrees Fault.memory (RootSet.Corresponds places) (left.valueHandleSet token value)
      (right.valueHandleSet token datum) := by
  have first : ∀ {handles : List (ValueHandle Value)} {others : List (ValueHandle Datum)},
      List.Forall₂ (ValueHandle.Related (Represents places)) handles others →
      List.Forall₂ (ValueHandle.Related (Represents places)) (RootSet.setFirst token value handles)
        (RootSet.setFirst token datum others) := by
    intro handles others pairs
    induction pairs with
    | nil => exact .nil
    | cons here rest ih =>
        rw [RootSet.setFirst, RootSet.setFirst, here.token]
        split
        · exact .cons ⟨rfl, stands⟩ rest
        · exact .cons here ih
  refine (sets.findValueHandle token).bind fun _ _ _ => ?_
  exact .ok ⟨{ sets.related with valueHandles := first sets.related.valueHandles },
    sets.registered.used, sets.registered.unused⟩

theorem valueHandleClose (sets : left.Corresponds places right) (token : Nat) :
    Agrees Fault.memory (RootSet.Corresponds places) (left.valueHandleClose token)
      (right.valueHandleClose token) := by
  have unlinked : ∀ {handles : List (ValueHandle Value)} {others : List (ValueHandle Datum)},
      List.Forall₂ (ValueHandle.Related (Represents places)) handles others →
      Option.Rel (List.Forall₂ (ValueHandle.Related (Represents places)))
        (RootSet.unlinkFirst token handles) (RootSet.unlinkFirst token others) := by
    intro handles others pairs
    induction pairs with
    | nil => exact .none
    | cons here rest ih =>
        rw [RootSet.unlinkFirst, RootSet.unlinkFirst, here.token]
        split
        · exact .some rest
        · rw [Option.map_eq_bind, Option.map_eq_bind]
          exact bind_related ih fun _ _ more => .some (.cons here more)
  refine (orFault_agrees _ (unlinked sets.related.valueHandles)).bind fun handles others pairs => ?_
  by_cases zero : token = 0
  · rw [if_pos zero, if_pos zero]
    exact .fault Fault.abort
  · rw [if_neg zero, if_neg zero, sets.related.valueHandleCount]
    exact .ok ⟨{ sets.related with
        valueHandles := pairs
        valueHandleCount := rfl }, sets.registered.used, sets.registered.unused⟩

theorem valueHandleOpen (sets : left.Corresponds places right) :
    Agrees Fault.memory
      (fun first second => first.1 = second.1 ∧ first.2.Corresponds places second.2)
      (left.valueHandleOpen pslNil) (right.valueHandleOpen .nil) := by
  rw [RootSet.valueHandleOpen, RootSet.valueHandleOpen, sets.related.nextValueHandle,
    sets.related.valueHandleCount]
  split
  · exact .exhausted _
  · exact .ok ⟨rfl, { sets.related with
        nextValueHandle := rfl
        valueHandleCount := rfl
        valueHandles := .cons ⟨rfl, Represents.nil⟩ sets.related.valueHandles },
      sets.registered.used, sets.registered.unused⟩

/-! ### Permanent roots and multiple values -/

theorem registerPermanentRoots (sets : left.Corresponds places right) (array : Nat)
    {values : List Value} {data : List Datum}
    (pairs : List.Forall₂ (Represents places) values data) :
    (left.registerPermanentRoots (.registered array values)).Corresponds places
      (right.registerPermanentRoots (.registered array data)) :=
  ⟨{ sets.related with permanentRoots := .cons (.registered pairs) sets.related.permanentRoots },
    fun used => List.mem_cons_of_mem _ (sets.registered.used used), sets.registered.unused⟩

theorem values2 (sets : left.Corresponds places right) {first second : Value} {one two : Datum}
    (stands : Represents places first one) (also : Represents places second two) :
    (left.values2 first second).2.Corresponds places (right.values2 one two).2 := by
  have same := sets.related.initialized
  rw [RootSet.values2, RootSet.values2, RootSet.ensureValuesRoots, RootSet.ensureValuesRoots, same]
  cases used : right.initialized with
  | true =>
      rw [used] at same
      refine ⟨{ sets.related with firstValue := stands, secondValue := also, currentCount := rfl },
        fun _ => sets.registered.used same, fun unused => ?_⟩
      change left.initialized = false at unused
      rw [same] at unused
      cases unused
  | false =>
      refine ⟨{ sets.related with
        permanentRoots := .cons .currentValues sets.related.permanentRoots
        firstValue := stands
        secondValue := also
        currentCount := rfl
        initialized := rfl }, fun _ => List.mem_cons_self, fun unused => ?_⟩
      cases unused

theorem nthValue (sets : left.Corresponds places right) (index : Nat) :
    Represents places (left.nthValue pslNil index) (right.nthValue .nil index) := by
  rw [RootSet.nthValue, RootSet.nthValue, sets.related.currentCount]
  split
  · split
    · exact sets.related.firstValue
    · exact sets.related.secondValue
  · exact Represents.nil

end RootSet.Corresponds

end RootSets

end Runtime
