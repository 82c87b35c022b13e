import Mathlib.Data.List.Nodup
import Mathlib.Tactic
import PslCompiler.Chains.Linked

/-! # Insertion in place

Cells are inserted into a numbered buffer before a position: the cells from there on move up, the
last one first, and the new cells are written into the gap. References to the cells follow them
(`shiftReference`); a link to the first cell after the gap may enter the gap instead
(`enterReference`), and then a chain of links through the buffer runs through the new cells
(`Linked.insert`).
-/

namespace Buffers

variable {Element : Type}

/-- A reference to a cell after an insertion. -/
def shiftReference (position amount reference : Nat) : Nat :=
  if reference < position then reference else reference + amount

theorem shiftReference_of_lt {position amount reference : Nat} (before : reference < position) :
    shiftReference position amount reference = reference :=
  if_pos before

theorem shiftReference_of_le {position amount reference : Nat} (after : position ≤ reference) :
    shiftReference position amount reference = reference + amount :=
  if_neg (Nat.not_lt.mpr after)

theorem shiftReference_injective (position amount : Nat) :
    Function.Injective (shiftReference position amount) := by
  intro first second same
  unfold shiftReference at same
  split at same <;> split at same <;> omega

theorem mem_shifted {position amount count place : Nat} :
    place ∈ (List.range' 1 count).map (shiftReference position amount) ↔
      1 ≤ place ∧ place < position ∧ place ≤ count ∨
        1 + amount ≤ place ∧ position + amount ≤ place ∧ place ≤ count + amount := by
  simp only [List.mem_map, List.mem_range'_1]
  constructor
  · rintro ⟨reference, inside, rfl⟩
    unfold shiftReference
    split <;> omega
  · rintro (low | high)
    · exact ⟨place, by omega, shiftReference_of_lt low.2.1⟩
    · exact ⟨place - amount, by omega, by rw [shiftReference_of_le (by omega)]; omega⟩

/-! ## Moving up -/

/-- Move the cells from a position to an index up by an amount, the last one first. -/
def moveUp (position amount : Nat) : Nat → (Nat → Element) → Nat → Element
  | 0, cells => cells
  | index + 1, cells =>
      if index + 1 < position then cells
      else moveUp position amount index
        (Function.update cells (index + 1 + amount) (cells (index + 1)))

/-- Every cell is found at its shifted place, and no other cell changes. -/
theorem moveUp_eq {position amount : Nat} (positive : 0 < position) :
    ∀ (count : Nat) (cells : Nat → Element), position ≤ count + 1 →
      moveUp position amount count cells = fun place =>
        if position + amount ≤ place ∧ place ≤ count + amount then cells (place - amount)
        else cells place := by
  intro count
  induction count with
  | zero =>
      intro cells _
      funext place
      rw [moveUp, if_neg (by omega)]
  | succ count ih =>
      intro cells bound
      rw [moveUp]
      split
      · funext place
        rw [if_neg (by omega)]
      · rw [ih _ (by omega)]
        funext place
        by_cases last : place = count + 1 + amount
        · rw [if_neg (by omega), if_pos (by omega), last, Function.update_self,
            Nat.add_sub_cancel]
        · by_cases moved : position + amount ≤ place ∧ place ≤ count + amount
          · rw [if_pos moved, if_pos (by omega), Function.update_of_ne (by omega)]
          · rw [if_neg moved, if_neg (by omega), Function.update_of_ne last]

/-! ## Changing cells one after the other -/

/-- A loop over distinct places that changes the cell of each changes the cells of all of them. -/
theorem foldl_change {State : Type} {embed : (Nat → Element) → State} {step : State → Nat → State}
    {change : Element → Element} {places : List Nat} (distinct : places.Nodup)
    (steps : ∀ cells, ∀ place ∈ places,
      step (embed cells) place = embed (Function.update cells place (change (cells place))))
    (cells : Nat → Element) :
    places.foldl step (embed cells) = embed fun place =>
      if place ∈ places then change (cells place) else cells place := by
  induction places generalizing cells with
  | nil => rfl
  | cons first rest ih =>
      obtain ⟨fresh, distinct⟩ := List.nodup_cons.mp distinct
      rw [List.foldl_cons, steps cells first List.mem_cons_self,
        ih distinct fun cells place member => steps cells place (List.mem_cons_of_mem _ member)]
      congr 1
      funext place
      by_cases here : place = first
      · subst here
        rw [if_neg fresh, if_pos List.mem_cons_self, Function.update_self]
      · simp only [List.mem_cons, here, false_or, Function.update_of_ne here]

/-! ## Overwriting -/

/-- Write a list of elements from a place on. -/
def overwrite (cells : Nat → Element) (start : Nat) (elements : List Element) (place : Nat) :
    Element :=
  if start ≤ place then (elements[place - start]?).getD (cells place) else cells place

theorem overwrite_nil (cells : Nat → Element) (start : Nat) : overwrite cells start [] = cells := by
  funext place
  rw [overwrite, List.getElem?_nil, Option.getD_none, ite_self]

theorem overwrite_cons (cells : Nat → Element) (start : Nat) (first : Element)
    (rest : List Element) : overwrite cells start (first :: rest) =
      overwrite (Function.update cells start first) (start + 1) rest := by
  funext place
  unfold overwrite
  rcases Nat.lt_trichotomy place start with before | rfl | after
  · rw [if_neg (by omega), if_neg (by omega), Function.update_of_ne (by omega)]
  · rw [if_pos (Nat.le_refl _), Nat.sub_self, if_neg (by omega), Function.update_self]
    rfl
  · rw [if_pos (by omega), if_pos (by omega), Function.update_of_ne (by omega),
      show place - start = place - (start + 1) + 1 by omega, List.getElem?_cons_succ]

theorem overwrite_of_lt {cells : Nat → Element} {start place : Nat} {elements : List Element}
    (before : place < start) : overwrite cells start elements place = cells place :=
  if_neg (Nat.not_le.mpr before)

theorem overwrite_of_ge {cells : Nat → Element} {start place : Nat} {elements : List Element}
    (after : start + elements.length ≤ place) :
    overwrite cells start elements place = cells place := by
  rw [overwrite, List.getElem?_eq_none (by omega), Option.getD_none, ite_self]

theorem overwrite_getElem {cells : Nat → Element} {start index : Nat} {elements : List Element}
    (inside : index < elements.length) :
    overwrite cells start elements (start + index) = elements[index] := by
  rw [overwrite, if_pos (Nat.le_add_right _ _), Nat.add_sub_cancel_left,
    List.getElem?_eq_getElem inside, Option.getD_some]

/-- A map of the elements is written as the elements are. -/
theorem overwrite_map {Other : Type} (change : Element → Other) (cells : Nat → Element)
    (start : Nat) (elements : List Element) (place : Nat) :
    overwrite (fun place => change (cells place)) start (elements.map change) place =
      change (overwrite cells start elements place) := by
  unfold overwrite
  rw [List.getElem?_map]
  split
  · cases elements[place - start]? <;> rfl
  · rfl

/-! ## Chains through the buffer -/

/-- A link after an insertion: a link to the cell at the position enters the new cells. -/
def enterReference (position amount reference : Nat) : Nat :=
  if reference = position then position else shiftReference position amount reference

/-- The cells in the place of a cell: the new cells stand before the cell at the position. -/
def spliced (position amount reference : Nat) : List Nat :=
  if reference = position then List.range' position (amount + 1)
  else [shiftReference position amount reference]

/-- New cells that are linked one to the next lead to the cell after them. -/
theorem Linked.lead {next : Nat → Nat} {rest : List Nat} {last : Nat} :
    ∀ {amount start : Nat}, start ≠ 0 → start + amount = last →
      (∀ place, start ≤ place → place < last → next place = place + 1) →
      Chains.Linked next (next last) rest →
        Chains.Linked next start (List.range' start (amount + 1) ++ rest) := by
  intro amount
  induction amount with
  | zero =>
      intro start positive ends _ linked
      obtain rfl : start = last := ends
      exact ⟨rfl, positive, linked⟩
  | succ amount ih =>
      intro start positive ends links linked
      rw [List.range'_succ]
      refine ⟨rfl, positive, ?_⟩
      rw [links start (Nat.le_refl _) (by omega)]
      exact ih (Nat.succ_ne_zero _) (by omega) (fun place low high => links place (by omega) high)
        linked

/-- A chain runs through cells inserted into its buffer. -/
theorem Linked.insert {next other : Nat → Nat} {position amount : Nat} (positive : 0 < position)
    (new : ∀ place, position ≤ place → place < position + amount → other place = place + 1) :
    ∀ {cells : List Nat} {start : Nat}, Chains.Linked next start cells →
      (∀ cell ∈ cells, other (shiftReference position amount cell) =
        enterReference position amount (next cell)) →
      Chains.Linked other (enterReference position amount start)
        (cells.flatMap (spliced position amount)) := by
  intro cells
  induction cells with
  | nil =>
      intro start linked _
      have ended : start = 0 := linked
      rw [ended, enterReference, if_neg (by omega), shiftReference_of_lt positive]
      rfl
  | cons cell rest ih =>
      intro start linked links
      obtain ⟨rfl, present, linked⟩ := linked
      have further := ih linked fun later member => links later (List.mem_cons_of_mem _ member)
      rw [← links start List.mem_cons_self] at further
      rw [List.flatMap_cons]
      by_cases here : start = position
      · subst here
        rw [shiftReference_of_le (Nat.le_refl _)] at further
        rw [spliced, if_pos rfl, enterReference, if_pos rfl]
        exact Linked.lead present rfl new further
      · rw [spliced, if_neg here, enterReference, if_neg here]
        refine ⟨rfl, ?_, further⟩
        unfold shiftReference
        split <;> omega

theorem length_spliced (position amount : Nat) (cells : List Nat) (distinct : cells.Nodup) :
    (cells.flatMap (spliced position amount)).length ≤ cells.length + amount := by
  induction cells with
  | nil => exact Nat.zero_le _
  | cons cell rest ih =>
      obtain ⟨fresh, distinct⟩ := List.nodup_cons.mp distinct
      have bound := ih distinct
      rw [List.flatMap_cons, List.length_append, List.length_cons]
      by_cases here : cell = position
      · subst here
        have alone : rest.flatMap (spliced cell amount) =
            rest.map (shiftReference cell amount) := by
          rw [← List.flatMap_pure_eq_map]
          apply List.flatMap_congr
          intro other member
          rw [spliced, if_neg (by rintro rfl; exact fresh member)]
          rfl
        rw [alone, List.length_map, spliced, if_pos rfl, List.length_range']
        omega
      · rw [spliced, if_neg here, List.length_singleton]
        omega

end Buffers
