import Mathlib.Data.List.Basic
import Mathlib.Data.List.Chain
import Mathlib.Data.List.Range
import Mathlib.Logic.Function.Basic

/-! # Expansion in place

Some elements of a buffer get a guard in front of them. The buffer is rewritten from its end with
two cursors: each element moves to the second cursor, and its guard goes right before it. The
cursors meet exactly when all guards are placed, and no element is overwritten before it has moved
(`expandBackward_spec`).
-/

namespace Buffers

variable {Element : Type}

/-- The elements with their guards. -/
def expansion (guard : Element → Option Element) (elements : List Element) : List Element :=
  elements.flatMap fun element => (guard element).toList ++ [element]

theorem expansion_append (guard : Element → Option Element) (first second : List Element) :
    expansion guard (first ++ second) = expansion guard first ++ expansion guard second :=
  List.flatMap_append

theorem expansion_singleton (guard : Element → Option Element) (element : Element) :
    expansion guard [element] = (guard element).toList ++ [element] := by
  simp [expansion]

theorem expansion_cons (guard : Element → Option Element) (element : Element)
    (rest : List Element) : expansion guard (element :: rest) =
      (guard element).toList ++ element :: expansion guard rest := by
  simp [expansion]

theorem length_expansion (guard : Element → Option Element) (elements : List Element) :
    (expansion guard elements).length =
      elements.length + elements.countP fun element => (guard element).isSome := by
  induction elements with
  | nil => rfl
  | cons element rest ih =>
      rw [expansion_cons, List.length_append, List.length_cons, ih, List.countP_cons,
        List.length_cons]
      cases guard element with
      | none =>
          simp only [Option.toList_none, List.length_nil, Option.isSome_none, Bool.false_eq_true,
            ↓reduceIte]
          omega
      | some one =>
          simp only [Option.toList_some, List.length_singleton, Option.isSome_some, ↓reduceIte]
          omega

theorem mem_expansion {guard : Element → Option Element} {elements : List Element}
    {element : Element} : element ∈ expansion guard elements ↔
      element ∈ elements ∨ ∃ guarded ∈ elements, guard guarded = some element := by
  simp only [expansion, List.mem_flatMap, List.mem_append, Option.mem_toList, List.mem_singleton]
  constructor
  · rintro ⟨source, member, found | rfl⟩
    · exact .inr ⟨source, member, found⟩
    · exact .inl member
  · rintro (member | ⟨source, member, found⟩)
    · exact ⟨element, member, .inr rfl⟩
    · exact ⟨source, member, .inl found⟩

theorem getLast?_expansion (guard : Element → Option Element) (elements : List Element) :
    (expansion guard elements).getLast? = elements.getLast? := by
  rcases List.eq_nil_or_concat elements with rfl | ⟨rest, last, rfl⟩
  · rfl
  · rw [List.concat_eq_append, expansion_append, expansion_singleton, ← List.append_assoc]
    simp only [List.getLast?_append, List.getLast?_singleton, Option.some_or]

/-- Neighbours in an expanded list are an element or a guard after an element, or an element after
its guard. -/
theorem isChain_expansion {guard : Element → Option Element}
    {neighbours : Element → Element → Prop} {plain : Element → Prop}
    (unguarded : ∀ before element, plain before → guard element = none → neighbours before element)
    (guarded : ∀ before element one, plain before → guard element = some one →
      neighbours before one ∧ neighbours one element) : ∀ {elements : List Element}
    {first : Element}, (∀ element ∈ elements, plain element) → plain first →
      (first :: expansion guard elements).IsChain neighbours := by
  intro elements
  induction elements with
  | nil => exact fun _ _ => .singleton _
  | cons element rest ih =>
      intro first others starts
      have tail := ih (fun other member => others other (List.mem_cons_of_mem _ member))
        (others element List.mem_cons_self)
      rw [expansion_cons]
      cases found : guard element with
      | none => exact .cons_cons (unguarded first element starts found) tail
      | some one =>
          obtain ⟨before, after⟩ := guarded first element one starts found
          exact .cons_cons before (.cons_cons after tail)

/-- Move one element to the target, with its guard before it. -/
def expandOne (guard : Element → Option Element) (cursor target : Nat) (cells : Nat → Element) :
    Nat × (Nat → Element) :=
  let moved := Function.update cells target (cells cursor)
  match guard (cells cursor) with
  | some one => (target - 2, Function.update moved (target - 1) one)
  | none => (target - 1, moved)

/-- Move a number of elements that stand after a position, the last one first. -/
def expandBackward (guard : Element → Option Element) (low : Nat) :
    Nat → Nat → (Nat → Element) → Nat × (Nat → Element)
  | 0, target, cells => (target, cells)
  | remaining + 1, target, cells =>
      let step := expandOne guard (low + (remaining + 1)) target cells
      expandBackward guard low remaining step.1 step.2

/-- The elements of a buffer after a position. -/
def slice (cells : Nat → Element) (low count : Nat) : List Element :=
  (List.range' (low + 1) count).map cells

theorem slice_succ (cells : Nat → Element) (low count : Nat) :
    slice cells low (count + 1) = slice cells low count ++ [cells (low + (count + 1))] := by
  simp only [slice, List.range'_concat, List.map_append, List.map_singleton]
  congr 3
  omega

theorem slice_congr {first second : Nat → Element} {low count : Nat}
    (same : ∀ index, low < index → index ≤ low + count → first index = second index) :
    slice first low count = slice second low count := by
  refine List.map_congr_left fun index member => ?_
  obtain ⟨offset, bound, rfl⟩ := List.mem_range'.mp member
  exact same _ (by omega) (by omega)

theorem length_slice (cells : Nat → Element) (low count : Nat) :
    (slice cells low count).length = count := by
  simp [slice]

theorem le_length_expansion (guard : Element → Option Element) (elements : List Element) :
    elements.length ≤ (expansion guard elements).length := by
  rw [length_expansion]
  exact Nat.le_add_right _ _

/-- A buffer holds a list from a position on. -/
def Stores (cells : Nat → Element) (start : Nat) (elements : List Element) : Prop :=
  ∀ offset element, elements[offset]? = some element → cells (start + offset) = element

theorem Stores.append {cells : Nat → Element} {start : Nat} {first second : List Element}
    (one : Stores cells start first) (other : Stores cells (start + first.length) second) :
    Stores cells start (first ++ second) := by
  intro offset element fetched
  rw [List.getElem?_append] at fetched
  split at fetched
  · exact one offset element fetched
  · rename_i beyond
    have found := other _ element fetched
    rwa [Nat.add_assoc, Nat.add_sub_cancel' (Nat.le_of_not_lt beyond)] at found

theorem Stores.singleton {cells : Nat → Element} {start : Nat} {element : Element}
    (found : cells start = element) : Stores cells start [element] := by
  intro offset other fetched
  obtain ⟨inside, rfl⟩ := List.getElem?_eq_some_iff.mp fetched
  have zero : offset = 0 := by simpa using inside
  subst zero
  exact found

theorem Stores.nil (cells : Nat → Element) (start : Nat) : Stores cells start [] := by
  intro offset element fetched
  cases fetched

theorem Stores.left {cells : Nat → Element} {start : Nat} {first second : List Element}
    (both : Stores cells start (first ++ second)) : Stores cells start first := by
  intro offset element fetched
  apply both
  rw [List.getElem?_append_left (List.getElem?_eq_some_iff.mp fetched).1, fetched]

theorem Stores.right {cells : Nat → Element} {start : Nat} {first second : List Element}
    (both : Stores cells start (first ++ second)) :
    Stores cells (start + first.length) second := by
  intro offset element fetched
  rw [Nat.add_assoc]
  apply both
  rw [List.getElem?_append_right (Nat.le_add_right _ _), Nat.add_sub_cancel_left, fetched]

theorem Stores.head {cells : Nat → Element} {start : Nat} {element : Element}
    {rest : List Element} (holds : Stores cells start (element :: rest)) :
    cells start = element :=
  holds 0 element rfl

theorem Stores.tail {cells : Nat → Element} {start : Nat} {element : Element}
    {rest : List Element} (holds : Stores cells start (element :: rest)) :
    Stores cells (start + 1) rest :=
  Stores.right (@id (Stores cells start ([element] ++ rest)) holds)

theorem Stores.cons {cells : Nat → Element} {start : Nat} {element : Element}
    {rest : List Element} (found : cells start = element) (others : Stores cells (start + 1) rest) :
    Stores cells start (element :: rest) :=
  (Stores.singleton found).append others

/-- What a buffer holds depends on the cells it takes only. -/
theorem Stores.congr {cells others : Nat → Element} {start : Nat} {elements : List Element}
    (holds : Stores cells start elements)
    (same : ∀ index, start ≤ index → index < start + elements.length →
      others index = cells index) : Stores others start elements := by
  intro offset element fetched
  have inside := (List.getElem?_eq_some_iff.mp fetched).1
  rw [same _ (Nat.le_add_right _ _) (Nat.add_lt_add_left inside _)]
  exact holds offset element fetched

/-- A buffer that holds a list has it as a slice. -/
theorem Stores.slice_eq {cells : Nat → Element} {low : Nat} {elements : List Element}
    (holds : Stores cells (low + 1) elements) : slice cells low elements.length = elements := by
  apply List.ext_getElem?
  intro offset
  by_cases inside : offset < elements.length
  · have fetched := List.getElem?_eq_getElem inside
    rw [fetched, slice, List.getElem?_map, List.getElem?_range' inside]
    simp only [Option.map_some, Nat.one_mul, Option.some.injEq]
    exact holds offset _ fetched
  · rw [List.getElem?_eq_none (by rw [length_slice]; omega),
      List.getElem?_eq_none (by omega)]

/-- What moving one element does, where `target` is its last cell. -/
theorem expandOne_spec (guard : Element → Option Element) {cursor target : Nat}
    (cells : Nat → Element) (room : (guard (cells cursor)).toList.length < target) :
    let step := expandOne guard cursor target cells
    step.1 + (expansion guard [cells cursor]).length = target ∧
      Stores step.2 (step.1 + 1) (expansion guard [cells cursor]) ∧
      ∀ index, index ≤ step.1 ∨ target < index → step.2 index = cells index := by
  simp only [expansion_singleton, expandOne]
  cases found : guard (cells cursor) with
  | none =>
      simp only [Option.toList_none, List.nil_append, List.length_singleton]
      simp only [found, Option.toList_none, List.length_nil] at room
      refine ⟨by omega, ?_, ?_⟩
      · apply Stores.singleton
        rw [Nat.sub_add_cancel (by omega), Function.update_self]
      · intro index outside
        exact Function.update_of_ne (by omega) _ _
  | some one =>
      simp only [Option.toList_some, List.singleton_append, List.length_cons, List.length_nil]
      simp only [found, Option.toList_some, List.length_singleton] at room
      refine ⟨by omega, ?_, ?_⟩
      · rw [← List.singleton_append]
        apply Stores.append
        · apply Stores.singleton
          rw [show target - 2 + 1 = target - 1 by omega, Function.update_self]
        · apply Stores.singleton
          rw [List.length_singleton, show target - 2 + 1 + 1 = target by omega,
            Function.update_of_ne (by omega), Function.update_self]
      · intro index outside
        rw [Function.update_of_ne (by omega), Function.update_of_ne (by omega)]

/-- Backward expansion leaves the second cursor where the gap starts, writes the elements with
their guards after it, and changes nothing outside. -/
theorem expandBackward_spec (guard : Element → Option Element) (low gap : Nat) :
    ∀ (count target : Nat) (cells : Nat → Element),
      target = low + gap + (expansion guard (slice cells low count)).length →
      let result := expandBackward guard low count target cells
      result.1 = low + gap ∧
        Stores result.2 (low + gap + 1) (expansion guard (slice cells low count)) ∧
        ∀ index, index ≤ low ∨ target < index → result.2 index = cells index := by
  intro count
  induction count with
  | zero =>
      intro target cells total
      refine ⟨by simpa [slice, expansion, expandBackward] using total, ?_, fun _ _ => rfl⟩
      intro offset element fetched
      simp [slice, expansion] at fetched
  | succ count ih =>
      intro target cells total
      rw [slice_succ, expansion_append, List.length_append] at total
      have size := le_length_expansion guard (slice cells low count)
      rw [length_slice] at size
      have one := congrArg List.length (expansion_singleton guard (cells (low + (count + 1))))
      rw [List.length_append, List.length_singleton] at one
      obtain ⟨meets, placed, kept⟩ := expandOne_spec guard cells
        (show (guard (cells (low + (count + 1)))).toList.length < target by omega)
      -- The moved element and its guard lie beyond the elements still to move.
      have same := @slice_congr _ (expandOne guard (low + (count + 1)) target cells).2 cells low
        count fun index _ upper => kept index (.inl (by omega))
      obtain ⟨ends, earlier, unchanged⟩ := ih _ _
        (show (expandOne guard (low + (count + 1)) target cells).1 = _ by rw [same]; omega)
      rw [same] at earlier
      refine ⟨ends, ?_, ?_⟩
      · rw [slice_succ, expansion_append]
        refine earlier.append ?_
        intro offset element fetched
        have inside := (List.getElem?_eq_some_iff.mp fetched).1
        have found := placed offset element fetched
        rw [← found]
        have position : low + gap + 1 + (expansion guard (slice cells low count)).length + offset =
            (expandOne guard (low + (count + 1)) target cells).1 + 1 + offset := by omega
        rw [position]
        exact unchanged _ (.inr (by omega))
      · intro index outside
        exact (unchanged index (by omega)).trans (kept index (by omega))

end Buffers
