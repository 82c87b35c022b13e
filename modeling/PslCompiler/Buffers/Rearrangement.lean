import Mathlib.Tactic
import PslCompiler.Loops.Measured

/-! # Rearranging a buffer in place

A buffer is a function of the place. Exchanging elements from both ends mirrors a part of it, and
mirroring the whole and then two parts swaps the parts (`mirror_rotate`). Exchanging neighbours lifts
an element to the front, or inserts it among ordered elements. The loops that do so are those of any
program: `embed` says where a program keeps the buffer and the cursors of a loop.
-/

namespace Buffers

open Loops

variable {Element State : Type} {step : State → Option State} {measure : State → Nat}

/-- Exchange the elements at two places. -/
def exchange (cells : Nat → Element) (left right : Nat) : Nat → Element :=
  Function.update (Function.update cells left (cells right)) right (cells left)

theorem exchange_eq_swap (cells : Nat → Element) (left right index : Nat) :
    exchange cells left right index = cells (Equiv.swap left right index) := by
  unfold exchange
  rw [Function.update_apply, Function.update_apply, Equiv.swap_apply_def]
  by_cases atRight : index = right
  · rw [if_pos atRight]
    split
    · rename_i atLeft
      rw [← atLeft, atRight]
    · rfl
  · rw [if_neg atRight, if_neg atRight]
    split
    · rfl
    · rfl

/-! ## Mirroring -/

/-- The buffer with the elements between two places, both included, in the opposite order. -/
def mirror (cells : Nat → Element) (left right : Nat) : Nat → Element :=
  fun index => if left ≤ index ∧ index ≤ right then cells (left + right - index) else cells index

theorem mirror_of_le (cells : Nat → Element) {left right : Nat} (closed : right ≤ left) :
    mirror cells left right = cells := by
  funext index
  unfold mirror
  split
  · congr 1
    omega
  · rfl

/-- Exchanging the outermost elements leaves the inner ones to mirror. -/
theorem mirror_exchange (cells : Nat → Element) {left right : Nat} (opened : left < right) :
    mirror (exchange cells left right) (left + 1) (right - 1) = mirror cells left right := by
  funext index
  unfold mirror
  split
  · rw [if_pos (by omega), exchange_eq_swap, Equiv.swap_apply_of_ne_of_ne (by omega) (by omega)]
    congr 1
    omega
  · rw [exchange_eq_swap]
    split
    · obtain rfl | rfl : index = left ∨ index = right := by omega
      · rw [Equiv.swap_apply_left, Nat.add_sub_cancel_left]
      · rw [Equiv.swap_apply_right, Nat.add_sub_cancel]
    · rw [Equiv.swap_apply_of_ne_of_ne (by omega) (by omega)]

/-- A loop that exchanges elements from both ends mirrors what is between them. -/
theorem mirror_loop {embed : (Nat → Element) → Nat → Nat → State} {limit : Nat}
    (stepped : ∀ cells left right, right < limit → step (embed cells left right) =
      if left < right then some (embed (exchange cells left right) (left + 1) (right - 1)) else none)
    (measured : ∀ cells left right, measure (embed cells left right) = right - left)
    (cells : Nat → Element) (left : Nat) {right : Nat} (below : right < limit) :
    ∃ first last, repeatStep step measure (embed cells left right) =
      embed (mirror cells left right) first last := by
  have ended := @repeatStep_ends _ step measure (fun state => ∃ current first last,
    state = embed current first last ∧ last < limit ∧
      mirror current first last = mirror cells left right) ?_ _ ⟨cells, left, right, rfl, below, rfl⟩
  · obtain ⟨⟨current, first, last, ended, bound, same⟩, stopped⟩ := ended
    refine ⟨first, last, ?_⟩
    rw [ended, stepped current first last bound] at stopped
    split at stopped
    · cases stopped
    · rename_i closed
      rw [ended, ← same, mirror_of_le current (by omega)]
  · rintro before after ⟨current, first, last, rfl, bound, same⟩ taken
    rw [stepped current first last bound] at taken
    split at taken
    · rename_i opened
      cases taken
      refine ⟨⟨_, _, _, rfl, by omega, ?_⟩, ?_⟩
      · rw [mirror_exchange current opened, same]
      · rw [measured, measured]
        omega
    · cases taken

/-- Mirroring the whole and then each part swaps the parts. -/
theorem mirror_rotate (cells : Nat → Element) (source : Nat) {startup : Nat} (some : 0 < startup)
    (index : Nat) :
    mirror (mirror (mirror cells 0 (source + startup - 1)) 0 (startup - 1)) startup
        (source + startup - 1) index =
      if index < startup then cells (source + index)
      else if index < source + startup then cells (index - startup) else cells index := by
  unfold mirror
  by_cases front : index < startup
  · rw [if_neg (by omega), if_pos (by omega), if_pos (by omega), if_pos front]
    congr 1
    omega
  · rw [if_neg front]
    by_cases back : index < source + startup
    · rw [if_pos (by omega), if_neg (by omega), if_pos (by omega), if_pos back]
      congr 1
      omega
    · rw [if_neg (by omega), if_neg (by omega), if_neg (by omega), if_neg back]

/-! ## Lifting to the front -/

/-- The buffer with the element at a place in front of those before it. -/
def lift (cells : Nat → Element) (place : Nat) : Nat → Element :=
  fun index => if index = 0 then cells place else if index ≤ place then cells (index - 1)
    else cells index

theorem lift_zero (cells : Nat → Element) : lift cells 0 = cells := by
  funext index
  unfold lift
  split
  · rename_i first
    rw [first]
  · rw [if_neg (by omega)]

theorem lift_exchange (cells : Nat → Element) (place : Nat) :
    lift (exchange cells place (place + 1)) place = lift cells (place + 1) := by
  funext index
  unfold lift
  simp only [exchange_eq_swap]
  split
  · rw [Equiv.swap_apply_left]
  · split
    · rw [if_pos (by omega), Equiv.swap_apply_of_ne_of_ne (by omega) (by omega)]
    · by_cases last : index = place + 1
      · rw [if_pos (by omega), last, Equiv.swap_apply_right, Nat.add_sub_cancel]
      · rw [if_neg (by omega), Equiv.swap_apply_of_ne_of_ne (by omega) last]

/-- A loop that exchanges neighbours downward lifts an element to the front. -/
theorem lift_loop {embed : (Nat → Element) → Nat → State} {limit : Nat}
    (stepped : ∀ cells place, place < limit → step (embed cells place) =
      if 0 < place then some (embed (exchange cells (place - 1) place) (place - 1)) else none)
    (measured : ∀ cells place, measure (embed cells place) = place) (cells : Nat → Element)
    {place : Nat} (below : place < limit) :
    repeatStep step measure (embed cells place) = embed (lift cells place) 0 := by
  rw [repeatStep, measured]
  induction place generalizing cells with
  | zero => rw [stepTimes, lift_zero]
  | succ place ih =>
      rw [stepTimes, stepped cells (place + 1) below, if_pos (Nat.succ_pos place)]
      dsimp only
      rw [Nat.add_sub_cancel, ih _ (by omega), lift_exchange]

/-! ## Sweeping -/

/-- The buffer with the elements from one place up to another, excluded, changed. -/
def sweep (change : Nat → Element → Element) (cells : Nat → Element) (place upTo : Nat) :
    Nat → Element :=
  fun index => if place ≤ index ∧ index < upTo then change index (cells index) else cells index

theorem sweep_of_le (change : Nat → Element → Element) (cells : Nat → Element) {place upTo : Nat}
    (done : upTo ≤ place) : sweep change cells place upTo = cells := by
  funext index
  unfold sweep
  rw [if_neg (by omega)]

theorem sweep_congr {change other : Nat → Element → Element} {cells : Nat → Element}
    {place upTo : Nat}
    (same : ∀ index < upTo, change index (cells index) = other index (cells index)) :
    sweep change cells place upTo = sweep other cells place upTo := by
  funext index
  unfold sweep
  split
  · rename_i inside
    exact same index inside.2
  · rfl

/-- Changing the first element leaves the others to change. -/
theorem sweep_update (change : Nat → Element → Element) (cells : Nat → Element) {place upTo : Nat}
    (goesOn : place < upTo) :
    sweep change (Function.update cells place (change place (cells place))) (place + 1) upTo =
      sweep change cells place upTo := by
  funext index
  unfold sweep
  by_cases here : index = place
  · rw [if_neg (by omega), if_pos (by omega), here, Function.update_self]
  · rw [Function.update_of_ne here]
    by_cases inside : place ≤ index ∧ index < upTo
    · rw [if_pos inside, if_pos (by omega)]
    · rw [if_neg inside, if_neg (by omega)]

/-- A loop that changes one element after the other changes them all. -/
theorem sweep_loop {embed : (Nat → Element) → Nat → State} {upTo : Nat}
    (change : Nat → Element → Element)
    (stepped : ∀ cells place, step (embed cells place) =
      if place < upTo then
        some (embed (Function.update cells place (change place (cells place))) (place + 1))
      else none)
    (measured : ∀ cells place, measure (embed cells place) = upTo - place) (cells : Nat → Element)
    {place : Nat} (within : place ≤ upTo) :
    repeatStep step measure (embed cells place) = embed (sweep change cells place upTo) upTo := by
  rw [repeatStep, measured]
  generalize left : upTo - place = count
  induction count generalizing cells place with
  | zero => rw [stepTimes, sweep_of_le change cells (by omega), show place = upTo by omega]
  | succ count ih =>
      rw [stepTimes, stepped, if_pos (by omega)]
      have swept := ih (Function.update cells place (change place (cells place)))
        (show place + 1 ≤ upTo by omega) (by omega)
      rw [sweep_update change cells (by omega)] at swept
      exact swept

/-! ## Rearranging -/

/-- The elements below a size have moved among these places, and no other has. -/
def Rearranged (size : Nat) (before after : Nat → Element) : Prop :=
  ∃ moves : Equiv.Perm Nat, (∀ index, size ≤ index → moves index = index) ∧
    ∀ index, after (moves index) = before index

theorem Rearranged.refl (size : Nat) (cells : Nat → Element) : Rearranged size cells cells :=
  ⟨Equiv.refl Nat, fun _ _ => rfl, fun _ => rfl⟩

theorem Rearranged.trans {size : Nat} {before between after : Nat → Element}
    (first : Rearranged size before between) (second : Rearranged size between after) :
    Rearranged size before after := by
  obtain ⟨moves, fixed, same⟩ := first
  obtain ⟨more, alsoFixed, alsoSame⟩ := second
  refine ⟨moves.trans more, ?_, ?_⟩
  · intro index outside
    rw [Equiv.trans_apply, fixed index outside, alsoFixed index outside]
  · intro index
    rw [Equiv.trans_apply, alsoSame, same]

theorem Rearranged.exchange {size left right : Nat} {before after : Nat → Element}
    (moved : Rearranged size before after) (leftBelow : left < size) (rightBelow : right < size) :
    Rearranged size before (exchange after left right) := by
  obtain ⟨moves, fixed, same⟩ := moved
  refine ⟨moves.trans (Equiv.swap left right), ?_, ?_⟩
  · intro index outside
    rw [Equiv.trans_apply, fixed index outside,
      Equiv.swap_apply_of_ne_of_ne (by omega) (by omega)]
  · intro index
    rw [exchange_eq_swap, Equiv.trans_apply, Equiv.swap_apply_self, same]

/-- Every element below the size is still below it. -/
theorem Rearranged.exists_place {size : Nat} {before after : Nat → Element}
    (moved : Rearranged size before after) :
    ∃ moves : Equiv.Perm Nat, (∀ index, index < size ↔ moves index < size) ∧
      ∀ index, after (moves index) = before index := by
  obtain ⟨moves, fixed, same⟩ := moved
  refine ⟨moves, fun index => ⟨?_, ?_⟩, same⟩
  · intro inside
    by_contra outside
    have stays := fixed (moves index) (by omega)
    have back := moves.injective stays
    omega
  · intro inside
    by_contra outside
    rw [fixed index (by omega)] at inside
    omega

/-! ## Inserting in order -/

section Order

variable {Key : Type} [LinearOrder Key] (key : Element → Key)

/-- The elements up to a place, included, have increasing keys. -/
def Increasing (cells : Nat → Element) (last : Nat) : Prop :=
  ∀ first second, first < second → second ≤ last → key (cells first) < key (cells second)

/-- The elements below a size have different keys. -/
def Apart (cells : Nat → Element) (size : Nat) : Prop :=
  ∀ first second, first < size → second < size → key (cells first) = key (cells second) →
    first = second

/-- The elements up to a place increase but for one, which is smaller than those after it. -/
structure Inserting (cells : Nat → Element) (last place : Nat) : Prop where
  others : ∀ first second, first < second → second ≤ last → first ≠ place → second ≠ place →
    key (cells first) < key (cells second)
  after : ∀ second, place < second → second ≤ last → key (cells place) < key (cells second)

variable {key} {cells : Nat → Element} {last place : Nat}

theorem Increasing.inserting (increasing : Increasing key cells last) (place : Nat) :
    Inserting key cells last place :=
  ⟨fun first second less bound _ _ => increasing first second less bound,
    fun second less bound => increasing place second less bound⟩

/-- The next element after increasing ones is to be inserted. -/
theorem Increasing.start (increasing : Increasing key cells last) :
    Inserting key cells (last + 1) (last + 1) := by
  constructor
  · intro first second less bound _ other
    exact increasing first second less (by omega)
  · intro second less bound
    omega

/-- An element smaller than the one before it moves one place down. -/
theorem Inserting.exchange (inserting : Inserting key cells last (place + 1))
    (smaller : key (cells (place + 1)) < key (cells place)) :
    Inserting key (exchange cells place (place + 1)) last place := by
  constructor
  · intro first second less inside notFirst notSecond
    rw [exchange_eq_swap, exchange_eq_swap]
    by_cases atFirst : first = place + 1
    · rw [atFirst, Equiv.swap_apply_right,
        Equiv.swap_apply_of_ne_of_ne notSecond (by omega)]
      exact inserting.others place second (by omega) inside (by omega) (by omega)
    · rw [Equiv.swap_apply_of_ne_of_ne notFirst atFirst]
      by_cases atSecond : second = place + 1
      · rw [atSecond, Equiv.swap_apply_right]
        exact inserting.others first place (by omega) (by omega) atFirst (by omega)
      · rw [Equiv.swap_apply_of_ne_of_ne notSecond atSecond]
        exact inserting.others first second less inside atFirst atSecond
  · intro second less inside
    rw [exchange_eq_swap, exchange_eq_swap, Equiv.swap_apply_left]
    by_cases atSecond : second = place + 1
    · rw [atSecond, Equiv.swap_apply_right]
      exact smaller
    · rw [Equiv.swap_apply_of_ne_of_ne (by omega) atSecond]
      exact inserting.after second (by omega) inside

/-- An element that is not smaller than the one before it is in its place. -/
theorem Inserting.settle (inserting : Inserting key cells last (place + 1))
    (larger : key (cells place) < key (cells (place + 1))) : Increasing key cells last := by
  intro first second less inside
  by_cases atFirst : first = place + 1
  · rw [atFirst]
    exact inserting.after second (by omega) inside
  · by_cases atSecond : second = place + 1
    · rw [atSecond]
      by_cases neighbour : first = place
      · rw [neighbour]
        exact larger
      · exact (inserting.others first place (by omega) (by omega) atFirst (by omega)).trans larger
    · exact inserting.others first second less inside atFirst atSecond

/-- An element at the front is in its place. -/
theorem Inserting.front (inserting : Inserting key cells last 0) : Increasing key cells last := by
  intro first second less inside
  by_cases atFirst : first = 0
  · rw [atFirst]
    exact inserting.after second (by omega) inside
  · exact inserting.others first second less inside atFirst (by omega)

omit [LinearOrder Key] in
theorem Rearranged.apart {size : Nat} {before after : Nat → Element}
    (moved : Rearranged size before after) (apart : Apart key before size) : Apart key after size := by
  obtain ⟨moves, inside, same⟩ := moved.exists_place
  intro first second firstBelow secondBelow equal
  obtain ⟨one, rfl⟩ := moves.surjective first
  obtain ⟨other, rfl⟩ := moves.surjective second
  rw [same, same] at equal
  rw [apart one other ((inside one).mpr firstBelow) ((inside other).mpr secondBelow) equal]

/-- A loop that exchanges an element with larger ones before it inserts it in order. -/
theorem insert_loop {embed : (Nat → Element) → Nat → State} {limit size : Nat}
    (stepped : ∀ cells place, place < limit → step (embed cells place) =
      if 0 < place then
        if key (cells place) < key (cells (place - 1)) then
          some (embed (Buffers.exchange cells (place - 1) place) (place - 1))
        else some (embed cells 0)
      else none)
    (measured : ∀ cells place, measure (embed cells place) = place) {start : Nat → Element}
    {place last : Nat} (below : last < limit) (within : last < size) (bound : place ≤ last)
    (inserting : Inserting key start last place) (apart : Apart key start size) :
    ∃ cells, repeatStep step measure (embed start place) = embed cells 0 ∧
      Increasing key cells last ∧ Rearranged size start cells := by
  have ended := @repeatStep_ends _ step measure (fun state => ∃ cells place,
    state = embed cells place ∧ place ≤ last ∧ Inserting key cells last place ∧
      Rearranged size start cells) ?_ _ ⟨start, place, rfl, bound, inserting, .refl size start⟩
  · obtain ⟨⟨cells, place, ended, bound, inserting, moved⟩, stopped⟩ := ended
    rw [ended, stepped cells place (by omega)] at stopped
    cases place with
    | zero => exact ⟨cells, ended, inserting.front, moved⟩
    | succ place =>
        rw [if_pos (Nat.succ_pos place)] at stopped
        split at stopped
        · cases stopped
        · cases stopped
  · rintro before after ⟨cells, place, rfl, bound, inserting, moved⟩ taken
    rw [stepped cells place (by omega)] at taken
    cases place with
    | zero =>
        rw [if_neg (Nat.lt_irrefl 0)] at taken
        cases taken
    | succ place =>
        rw [if_pos (Nat.succ_pos place), Nat.add_sub_cancel] at taken
        split at taken
        · rename_i smaller
          cases taken
          refine ⟨⟨_, place, rfl, by omega, inserting.exchange smaller,
            moved.exchange (by omega) (by omega)⟩, ?_⟩
          rw [measured, measured]
          omega
        · rename_i notSmaller
          cases taken
          have different : key (cells place) ≠ key (cells (place + 1)) := by
            intro equal
            have same := moved.apart apart place (place + 1) (by omega) (by omega) equal
            omega
          have settled := inserting.settle (lt_of_le_of_ne (not_lt.mp notSmaller) different)
          refine ⟨⟨cells, 0, rfl, Nat.zero_le last, settled.inserting 0, moved⟩, ?_⟩
          rw [measured, measured]
          omega

end Order

end Buffers
