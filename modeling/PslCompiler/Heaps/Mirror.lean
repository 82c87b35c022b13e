import PslCompiler.Heaps.Objects

/-! # Routines on mirrored heaps

A routine that runs on a heap and on its mirror takes the same course, returns corresponding values
and leaves mirrored heaps.
-/

namespace Heaps

variable {Left Right : Type}

/-! ## Values -/

namespace Datum

/-- Values that correspond are the same word, or references to counterparts. -/
theorem Mirrors.inversion {places : List Nat} {left right : Datum}
    (mirrors : left.Mirrors places right) :
    (∃ value, left = word value ∧ right = word value) ∨
      ∃ index place, left = reference index ∧ right = reference place ∧
        places[index]? = some place := by
  cases left with
  | word value =>
      cases right with
      | word other =>
          obtain rfl : value = other := mirrors
          exact .inl ⟨value, rfl, rfl⟩
      | reference place => cases mirrors
  | reference index =>
      cases right with
      | word other => cases mirrors
      | reference place => exact .inr ⟨index, place, rfl, rfl, mirrors⟩

theorem Mirrors.mono {places places' : List Nat} (added : places <+: places') {left right : Datum}
    (mirrors : left.Mirrors places right) : left.Mirrors places' right := by
  obtain ⟨value, rfl, rfl⟩ | ⟨index, place, rfl, rfl, at_⟩ := mirrors.inversion
  · exact rfl
  · obtain ⟨more, rfl⟩ := added
    show (places ++ more)[index]? = some place
    rw [List.getElem?_append_left (List.getElem?_eq_some_iff.mp at_).1]
    exact at_

/-- Values are the same on one side exactly if they are on the other. -/
theorem Mirrors.eq_iff {places : List Nat} (distinct : places.Nodup) {left left' right right' : Datum}
    (first : left.Mirrors places right) (second : left'.Mirrors places right') :
    left = left' ↔ right = right' := by
  obtain ⟨value, rfl, rfl⟩ | ⟨index, place, rfl, rfl, at_⟩ := first.inversion
  · obtain ⟨value', rfl, rfl⟩ | ⟨index', place', rfl, rfl, _⟩ := second.inversion
    · exact Iff.rfl
    · simp
  · obtain ⟨value', rfl, rfl⟩ | ⟨index', place', rfl, rfl, at_'⟩ := second.inversion
    · simp
    · rw [reference.injEq, reference.injEq]
      constructor
      · rintro rfl
        rw [at_, Option.some.injEq] at at_'
        exact at_'
      · rintro rfl
        obtain ⟨inside, here⟩ := List.getElem?_eq_some_iff.mp at_
        obtain ⟨inside', there⟩ := List.getElem?_eq_some_iff.mp at_'
        exact (distinct.getElem_inj_iff).mp (here.trans there.symm)

end Datum

theorem MirrorsAll.mono {places places' : List Nat} (added : places <+: places')
    {left right : List Datum} (mirrors : MirrorsAll places left right) :
    MirrorsAll places' left right :=
  List.Forall₂.imp (fun _ _ same => same.mono added) mirrors

theorem Operand.mirrors {places : List Nat} {left right : List Datum}
    (inputs : MirrorsAll places left right) (operand : Operand) :
    (operand.value left).Mirrors places (operand.value right) := by
  cases operand with
  | word value => exact rfl
  | input index =>
      rw [Operand.value, Operand.value, List.getD_eq_getElem?_getD, List.getD_eq_getElem?_getD]
      induction inputs generalizing index with
      | nil => exact rfl
      | cons same _ ih =>
          cases index with
          | zero => exact same
          | succ index => exact ih index

theorem operands_mirror {places : List Nat} {left right : List Datum}
    (inputs : MirrorsAll places left right) (operands : List Operand) :
    MirrorsAll places (operands.map fun operand => operand.value left)
      (operands.map fun operand => operand.value right) := by
  induction operands with
  | nil => exact .nil
  | cons operand rest ih => exact .cons (operand.mirrors inputs) ih

/-! ## Heaps -/

theorem Kept.refl (places : List Nat) (heap : Heap Right) : Kept places heap places heap :=
  ⟨List.prefix_refl _, Nat.le_refl _, fun _ _ absent => ⟨rfl, absent⟩⟩

theorem Kept.trans {places places' places'' : List Nat} {heap heap' heap'' : Heap Right}
    (first : Kept places heap places' heap') (second : Kept places' heap' places'' heap'') :
    Kept places heap places'' heap'' where
  added := first.added.trans second.added
  size := first.size.trans second.size
  hidden := by
    intro index inside absent
    obtain ⟨same, still⟩ := first.hidden index inside absent
    obtain ⟨same', still'⟩ := second.hidden index (Nat.lt_of_lt_of_le inside first.size) still
    exact ⟨same'.trans same, still'⟩

/-- A new object keeps the hidden ones, whether or not it has a counterpart. -/
theorem Kept.allocate (places : List Nat) (heap : Heap Right) (object : Object Right) :
    Kept places heap (places ++ [heap.objects.length]) (heap.allocate object) := by
  refine ⟨List.prefix_append _ _, ?_, ?_⟩
  · simp [Heap.allocate]
  · intro index within absent
    refine ⟨List.getElem?_append_left within, ?_⟩
    rw [List.mem_append, List.mem_singleton]
    rintro (member | rfl)
    · exact absent member
    · exact Nat.lt_irrefl _ within

theorem Object.Mirrors.imp {places places' : List Nat} (added : places <+: places')
    {codes codes' : Left → Right → Prop} (keeps : ∀ left right, codes left right → codes' left right)
    {left : Object Left} {right : Object Right} (mirrors : left.Mirrors places codes right) :
    left.Mirrors places' codes' right := by
  cases left with
  | record kind words fields =>
      cases right with
      | record kind' words' fields' => exact ⟨mirrors.1, mirrors.2.1, mirrors.2.2.mono added⟩
      | code contents => cases mirrors
  | code contents =>
      cases right with
      | record kind' words' fields' => cases mirrors
      | code contents' => exact keeps _ _ mirrors

/-- The relation of code on both sides survives everything that keeps the hidden objects. -/
def Stable (codes : List Nat → Heap Right → Left → Right → Prop) : Prop :=
  ∀ places heap places' heap', Kept places heap places' heap' →
    ∀ left right, codes places heap left right → codes places' heap' left right

namespace HeapMirrors

variable {codes : List Nat → Heap Right → Left → Right → Prop} {places : List Nat}
variable {left : Heap Left} {right : Heap Right}

theorem inside (mirrors : HeapMirrors codes places left right) {place : Nat} (member : place ∈ places) :
    place < right.objects.length := by
  obtain ⟨index, at_⟩ := List.mem_iff_getElem?.mp member
  obtain ⟨_, _, _, found, _⟩ := mirrors.objects index place at_
  exact (List.getElem?_eq_some_iff.mp found).1

theorem fresh (mirrors : HeapMirrors codes places left right) : right.objects.length ∉ places :=
  fun member => Nat.lt_irrefl _ (mirrors.inside member)

/-- An object that is only on the right. -/
theorem allocate_right (stable : Stable codes) (mirrors : HeapMirrors codes places left right)
    (other : Object Right) : HeapMirrors codes places left (right.allocate other) ∧
      Kept places right places (right.allocate other) := by
  have kept : Kept places right places (right.allocate other) := by
    refine ⟨List.prefix_refl _, ?_, ?_⟩
    · simp [Heap.allocate]
    · intro index within absent
      exact ⟨List.getElem?_append_left within, absent⟩
  refine ⟨⟨mirrors.count, mirrors.distinct, ?_, mirrors.memory⟩, kept⟩
  intro index place at_
  obtain ⟨object, counterpart, here, there, same⟩ := mirrors.objects index place at_
  refine ⟨object, counterpart, here, ?_, same.imp (List.prefix_refl _) (stable _ _ _ _ kept)⟩
  exact (List.getElem?_append_left (List.getElem?_eq_some_iff.mp there).1).trans there

/-- An object on both sides. -/
theorem allocate (stable : Stable codes) (mirrors : HeapMirrors codes places left right)
    {object : Object Left} {other : Object Right}
    (same : object.Mirrors (places ++ [right.objects.length])
      (codes (places ++ [right.objects.length]) (right.allocate other)) other) :
    HeapMirrors codes (places ++ [right.objects.length]) (left.allocate object)
        (right.allocate other) ∧
      Kept places right (places ++ [right.objects.length]) (right.allocate other) ∧
      left.next.Mirrors (places ++ [right.objects.length]) right.next := by
  have kept := Kept.allocate places right other
  have last : (places ++ [right.objects.length])[left.objects.length]? =
      some right.objects.length := by
    rw [← mirrors.count, List.getElem?_concat_length]
  refine ⟨⟨?_, ?_, ?_, mirrors.memory⟩, kept, last⟩
  · simp [Heap.allocate, mirrors.count]
  · rw [List.nodup_append]
    refine ⟨mirrors.distinct, List.nodup_singleton _, ?_⟩
    intro place member other' single
    rw [List.mem_singleton] at single
    exact single ▸ fun equal => mirrors.fresh (equal ▸ member)
  · intro index place at_
    rw [List.getElem?_append] at at_
    by_cases within : index < places.length
    · rw [if_pos within] at at_
      obtain ⟨object', counterpart, here, there, same'⟩ := mirrors.objects index place at_
      refine ⟨object', counterpart, ?_, ?_,
        same'.imp (List.prefix_append _ _) (stable _ _ _ _ kept)⟩
      · exact (List.getElem?_append_left (List.getElem?_eq_some_iff.mp here).1).trans here
      · exact (List.getElem?_append_left (List.getElem?_eq_some_iff.mp there).1).trans there
    · rw [if_neg within, List.getElem?_singleton] at at_
      have position : index = left.objects.length := by
        rw [← mirrors.count]
        by_contra different
        rw [if_neg (by omega)] at at_
        cases at_
      subst position
      rw [mirrors.count, Nat.sub_self, if_pos rfl, Option.some.injEq] at at_
      subst at_
      exact ⟨object, other, List.getElem?_concat_length, List.getElem?_concat_length, same⟩

/-- A record that is replaced on both sides. -/
theorem store (stable : Stable codes) (mirrors : HeapMirrors codes places left right)
    {index place kind : Nat} {words : List Int} {fields fields' : List Datum}
    (at_ : places[index]? = some place) (same : MirrorsAll places fields fields') :
    HeapMirrors codes places (left.store index (.record kind words fields))
        (right.store place (.record kind words fields')) ∧
      Kept places right places (right.store place (.record kind words fields')) := by
  have kept : Kept places right places (right.store place (.record kind words fields')) := by
    refine ⟨List.prefix_refl _, ?_, ?_⟩
    · simp [Heap.store]
    · intro index' within absent
      refine ⟨List.getElem?_set_ne ?_, absent⟩
      rintro rfl
      exact absent (List.mem_of_getElem? at_)
  refine ⟨⟨?_, mirrors.distinct, ?_, mirrors.memory⟩, kept⟩
  · simp [Heap.store, mirrors.count]
  · intro index' place' at_'
    obtain ⟨object, counterpart, here, there, same'⟩ := mirrors.objects index' place' at_'
    obtain ⟨within, value⟩ := List.getElem?_eq_some_iff.mp at_
    obtain ⟨within', value'⟩ := List.getElem?_eq_some_iff.mp at_'
    by_cases equal : index = index'
    · subst equal
      obtain rfl : place = place' := value.symm.trans value'
      refine ⟨_, _, List.getElem?_set_self ?_, List.getElem?_set_self ?_, rfl, rfl, same⟩
      · exact (List.getElem?_eq_some_iff.mp here).1
      · exact (List.getElem?_eq_some_iff.mp there).1
    · have different : place ≠ place' := fun samePlace =>
        equal ((mirrors.distinct.getElem_inj_iff).mp (value.trans (samePlace.trans value'.symm)))
      refine ⟨object, counterpart, ?_, ?_, same'.imp (List.prefix_refl _) (stable _ _ _ _ kept)⟩
      · exact (List.getElem?_set_ne equal).trans here
      · exact (List.getElem?_set_ne different).trans there

theorem write (stable : Stable codes) (mirrors : HeapMirrors codes places left right)
    (address value : Int) :
    HeapMirrors codes places (left.write address value) (right.write address value) ∧
      Kept places right places (right.write address value) := by
  have kept : Kept places right places (right.write address value) :=
    ⟨List.prefix_refl _, Nat.le_refl _, fun _ _ absent => ⟨rfl, absent⟩⟩
  refine ⟨⟨mirrors.count, mirrors.distinct, ?_, ?_⟩, kept⟩
  · intro index place at_
    obtain ⟨object, counterpart, here, there, same⟩ := mirrors.objects index place at_
    exact ⟨object, counterpart, here, there, same.imp (List.prefix_refl _) (stable _ _ _ _ kept)⟩
  · rw [Heap.write, Heap.write, mirrors.memory]

/-- A routine sees the same of values that correspond. -/
theorem view (mirrors : HeapMirrors codes places left right) {value other : Datum}
    (same : value.Mirrors places other) :
    value.view left = other.view right ∧
      MirrorsAll places (value.fields left) (other.fields right) := by
  obtain ⟨word, rfl, rfl⟩ | ⟨index, place, rfl, rfl, at_⟩ := same.inversion
  · exact ⟨rfl, .nil⟩
  · obtain ⟨object, counterpart, here, there, alike⟩ := mirrors.objects index place at_
    simp only [Datum.view, Datum.fields, here, there]
    cases object with
    | record kind words fields =>
        cases counterpart with
        | record kind' words' fields' =>
            obtain ⟨rfl, rfl, alike⟩ := alike
            exact ⟨congrArg (View.record kind words) (List.Forall₂.length_eq alike), alike⟩
        | code contents => cases alike
    | code contents =>
        cases counterpart with
        | record kind' words' fields' => cases alike
        | code contents' => exact ⟨rfl, .nil⟩

end HeapMirrors

/-! ## Routines -/

/-- The result of a routine, and the heap after it, on both sides. -/
structure ResultMirrors (codes : List Nat → Heap Right → Left → Right → Prop) (places : List Nat)
    (before : Heap Right) (left : Option Datum × Heap Left) (right : Option Datum × Heap Right) :
    Prop where
  after : ∃ places', HeapMirrors codes places' left.2 right.2 ∧ Kept places before places' right.2 ∧
    Option.Rel (Datum.Mirrors places') left.1 right.1

section Routines

variable {codes : List Nat → Heap Right → Left → Right → Prop} {places : List Nat}
variable {left : Heap Left} {right : Heap Right}

theorem ResultMirrors.of_kept {places' : List Nat} {middle : Heap Right}
    {first : Option Datum × Heap Left} {second : Option Datum × Heap Right}
    (kept : Kept places right places' middle)
    (result : ResultMirrors codes places' middle first second) :
    ResultMirrors codes places right first second := by
  obtain ⟨places'', mirrors, kept', same⟩ := result.after
  exact ⟨places'', mirrors, kept.trans kept', same⟩

theorem ResultMirrors.aborted (mirrors : HeapMirrors codes places left right) :
    ResultMirrors codes places right (none, left) (none, right) :=
  ⟨places, mirrors, Kept.refl _ _, .none⟩

/-- A routine does the same on both sides. -/
theorem Routine.run_mirrors (stable : Stable codes) (routine : Routine) :
    ∀ {places : List Nat} {left : Heap Left} {right : Heap Right} {inputs inputs' : List Datum},
      HeapMirrors codes places left right → MirrorsAll places inputs inputs' →
        ResultMirrors codes places right (routine.run inputs left) (routine.run inputs' right) := by
  induction routine with
  | finish result =>
      intro places left right inputs inputs' mirrors same
      exact ⟨places, mirrors, Kept.refl _ _, .some (result.mirrors same)⟩
  | abort =>
      intro places left right inputs inputs' mirrors _
      exact .aborted mirrors
  | create kind words fields next ih =>
      intro places left right inputs inputs' mirrors same
      have added : places <+: places ++ [right.objects.length] := List.prefix_append _ _
      have alike := operands_mirror same fields
      obtain ⟨mirrors', kept, reference⟩ := mirrors.allocate stable
        (show Object.Mirrors (places ++ [right.objects.length]) _ (.record kind words _)
          (.record kind words _) from ⟨rfl, rfl, alike.mono added⟩)
      refine .of_kept kept (ih mirrors' ?_)
      exact List.rel_append (same.mono added) (.cons reference .nil)
  | inspect value next ih =>
      intro places left right inputs inputs' mirrors same
      obtain ⟨view, fields⟩ := mirrors.view (value.mirrors same)
      rw [run, run, ← view]
      exact ih _ mirrors (List.rel_append same fields)
  | replace object words fields next ih =>
      intro places left right inputs inputs' mirrors same
      rw [run, run]
      obtain ⟨word, here, there⟩ | ⟨index, place, here, there, at_⟩ :=
        (object.mirrors same).inversion
      · simp only [here, there]
        exact .aborted mirrors
      · obtain ⟨found, counterpart, first, second, alike⟩ := mirrors.objects index place at_
        simp only [here, there, first, second]
        cases found with
        | record kind words' fields' =>
            cases counterpart with
            | record kind' words'' fields'' =>
                obtain ⟨rfl, -, -⟩ := alike
                obtain ⟨mirrors', kept⟩ := mirrors.store stable at_ (operands_mirror same fields)
                exact .of_kept kept (ih mirrors' same)
            | code contents => cases alike
        | code contents =>
            cases counterpart with
            | record kind' words'' fields'' => cases alike
            | code contents' => exact .aborted mirrors
  | compare first second next ih =>
      intro places left right inputs inputs' mirrors same
      rw [run, run, decide_eq_decide.mpr
        ((first.mirrors same).eq_iff mirrors.distinct (second.mirrors same))]
      exact ih _ mirrors same
  | read address next ih =>
      intro places left right inputs inputs' mirrors same
      rw [run, run]
      obtain ⟨word, here, there⟩ | ⟨index, place, here, there, _⟩ :=
        (address.mirrors same).inversion
      · simp only [here, there, mirrors.memory]
        exact ih _ mirrors same
      · simp only [here, there]
        exact .aborted mirrors
  | write address value next ih =>
      intro places left right inputs inputs' mirrors same
      rw [run, run]
      obtain ⟨word, here, there⟩ | ⟨index, place, here, there, _⟩ :=
        (address.mirrors same).inversion
      · obtain ⟨content, this, that⟩ | ⟨index, place, this, that, _⟩ :=
          (value.mirrors same).inversion
        · simp only [here, there, this, that]
          obtain ⟨mirrors', kept⟩ := mirrors.write stable word content
          exact .of_kept kept (ih mirrors' same)
        · simp only [here, there, this, that]
          exact .aborted mirrors
      · simp only [here, there]
        exact .aborted mirrors

end Routines

end Heaps
