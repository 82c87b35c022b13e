import Mathlib.Data.List.Basic
import Mathlib.Data.Nat.Bitwise
import Mathlib.Order.Bounds.Basic

/-! # The placement of record fields

The C rule for records over unbounded numbers: each field lies at the least multiple of its
alignment that is not below the end of the field before it, and the size of the record is the end
of its last field rounded up to the largest alignment.
-/

namespace Records

/-! ## Rounding up -/

/-- The least multiple of an alignment that is not below a number. -/
def roundUp (number alignment : Nat) : Nat :=
  alignment * ((number + (alignment - 1)) / alignment)

section RoundUp

variable {number alignment : Nat}

theorem dvd_roundUp : alignment ∣ roundUp number alignment :=
  Dvd.intro _ rfl

theorem le_roundUp (positive : 0 < alignment) : number ≤ roundUp number alignment := by
  have split := Nat.div_add_mod (number + (alignment - 1)) alignment
  have small := Nat.mod_lt (number + (alignment - 1)) positive
  unfold roundUp
  omega

theorem roundUp_lt (positive : 0 < alignment) :
    roundUp number alignment < number + alignment := by
  have split := Nat.div_add_mod (number + (alignment - 1)) alignment
  unfold roundUp
  omega

/-- Rounding up gives the least multiple not below the number. -/
theorem roundUp_isLeast (positive : 0 < alignment) :
    IsLeast {multiple | alignment ∣ multiple ∧ number ≤ multiple} (roundUp number alignment) := by
  refine ⟨⟨dvd_roundUp, le_roundUp positive⟩, ?_⟩
  rintro multiple ⟨⟨factor, rfl⟩, above⟩
  unfold roundUp
  apply Nat.mul_le_mul_left
  rw [Nat.div_le_iff_le_mul_add_pred positive]
  omega

theorem roundUp_one : roundUp number 1 = number := by
  unfold roundUp
  rw [Nat.one_mul, Nat.div_one, Nat.sub_self, Nat.add_zero]

end RoundUp

/-! ## Placing fields -/

/-- The size and the alignment of a field or a record. -/
structure Extent where
  size : Nat
  alignment : Nat
  deriving DecidableEq, Repr

/-- The fields of a packed record are not aligned. -/
def Extent.inMode (packed : Bool) (extent : Extent) : Extent :=
  if packed then ⟨extent.size, 1⟩ else extent

/-- A field with its offset. -/
structure Placed extends Extent where
  offset : Nat
  deriving DecidableEq, Repr

def Placed.finish (field : Placed) : Nat :=
  field.offset + field.size

/-- Place a field after what ends at some point. -/
def Extent.placeAt (extent : Extent) (start : Nat) : Placed :=
  ⟨extent, roundUp start extent.alignment⟩

/-- Place fields one after the other. -/
def place : Nat → List Extent → List Placed
  | _, [] => []
  | start, extent :: rest =>
      extent.placeAt start :: place (extent.placeAt start).finish rest

/-- Where the last of some fields ends. -/
def finish : Nat → List Extent → Nat
  | start, [] => start
  | start, extent :: rest => finish (extent.placeAt start).finish rest

/-- The largest of the alignments, at least one. -/
def alignmentOf (extents : List Extent) : Nat :=
  extents.foldl (fun largest extent => max largest extent.alignment) 1

/-- The extent of a record with the given fields. -/
def recordOf (extents : List Extent) : Extent :=
  ⟨roundUp (finish 0 extents) (alignmentOf extents), alignmentOf extents⟩

section Place

variable {start : Nat} {extents : List Extent}

theorem place_append (more : List Extent) : ∀ (extents : List Extent) (start : Nat),
    place start (extents ++ more) = place start extents ++ place (finish start extents) more := by
  intro extents
  induction extents with
  | nil =>
      intro start
      rfl
  | cons extent rest ih =>
      intro start
      rw [List.cons_append, place, place, finish, ih, List.cons_append]

theorem finish_append (more : List Extent) : ∀ (extents : List Extent) (start : Nat),
    finish start (extents ++ more) = finish (finish start extents) more := by
  intro extents
  induction extents with
  | nil =>
      intro start
      rfl
  | cons extent rest ih =>
      intro start
      rw [List.cons_append, finish, finish, ih]

theorem alignmentOf_append (extent : Extent) :
    alignmentOf (extents ++ [extent]) = max (alignmentOf extents) extent.alignment := by
  unfold alignmentOf
  rw [List.foldl_append, List.foldl_cons, List.foldl_nil]

theorem length_place : ∀ (extents : List Extent) (start : Nat),
    (place start extents).length = extents.length := by
  intro extents
  induction extents with
  | nil =>
      intro start
      rfl
  | cons extent rest ih =>
      intro start
      rw [place, List.length_cons, List.length_cons, ih]

variable (positive : ∀ extent ∈ extents, 0 < extent.alignment)

include positive in
/-- Fields lie between the start and the end, in order and without overlap. -/
theorem place_ordered :
    start ≤ finish start extents ∧
    (∀ field ∈ place start extents,
      start ≤ field.offset ∧ field.finish ≤ finish start extents) ∧
    (place start extents).Pairwise fun field later => field.finish ≤ later.offset := by
  induction extents generalizing start with
  | nil => exact ⟨le_rfl, fun _ member => (List.not_mem_nil member).elim, List.Pairwise.nil⟩
  | cons extent rest ih =>
      have above : start ≤ (extent.placeAt start).offset :=
        le_roundUp (positive extent List.mem_cons_self)
      have beyond : (extent.placeAt start).offset ≤ (extent.placeAt start).finish :=
        Nat.le_add_right _ _
      obtain ⟨ends, inside, ordered⟩ := @ih (extent.placeAt start).finish
        fun other member => positive other (List.mem_cons_of_mem _ member)
      refine ⟨above.trans (beyond.trans ends), ?_, ?_⟩
      · rw [place, List.forall_mem_cons]
        refine ⟨⟨above, ends⟩, ?_⟩
        intro field member
        exact ⟨above.trans (beyond.trans (inside field member).1), (inside field member).2⟩
      · rw [place, List.pairwise_cons]
        exact ⟨fun field member => (inside field member).1, ordered⟩

theorem alignmentOf_pos : 0 < alignmentOf extents := by
  have grows : ∀ (extents : List Extent) (least : Nat), 0 < least →
      0 < extents.foldl (fun largest extent => max largest extent.alignment) least := by
    intro extents
    induction extents with
    | nil =>
        intro least positive
        exact positive
    | cons extent rest ih =>
        intro least positive
        exact ih _ (lt_of_lt_of_le positive (le_max_left _ _))
  exact grows extents 1 Nat.one_pos

include positive in
/-- Every field of a record lies inside it. -/
theorem finish_le_recordOf {field : Placed} (member : field ∈ place 0 extents) :
    field.finish ≤ (recordOf extents).size :=
  ((place_ordered positive).2.1 field member).2.trans (le_roundUp alignmentOf_pos)

include positive in
/-- A field lies at the least multiple of its alignment not below the end of those before it. -/
theorem place_isLeast {before after : List Extent} {extent : Extent}
    (split : extents = before ++ extent :: after) :
    place 0 extents = place 0 before ++ extent.placeAt (finish 0 before) ::
        place (finish 0 (before ++ [extent])) after ∧
      IsLeast {offset | extent.alignment ∣ offset ∧ finish 0 before ≤ offset}
        (extent.placeAt (finish 0 before)).offset := by
  subst split
  refine ⟨?_, roundUp_isLeast (positive extent (by simp))⟩
  rw [place_append, place, finish_append]
  rfl

end Place

/-! ## Rounding up in machine words -/

/-- Clearing the low bits of a number below a power of two. -/
theorem and_two_pow_sub {number bits low : Nat} (below : number < 2 ^ bits) (fits : low ≤ bits) :
    number &&& (2 ^ bits - 2 ^ low) = 2 ^ low * (number / 2 ^ low) := by
  have mask : 2 ^ bits - 2 ^ low = 2 ^ low * (2 ^ (bits - low) - 1) := by
    rw [Nat.mul_sub, Nat.mul_one, ← Nat.pow_add, Nat.add_sub_cancel' fits]
  apply Nat.eq_of_testBit_eq
  intro index
  rw [mask, Nat.testBit_and, Nat.testBit_two_pow_mul, Nat.testBit_two_pow_mul,
    Nat.testBit_two_pow_sub_one, Nat.testBit_div_two_pow]
  by_cases high : low ≤ index
  · by_cases inside : index < bits
    · have position : index - low + low = index := by omega
      simp only [ge_iff_le, high, decide_true, Bool.true_and, position]
      rw [decide_eq_true (by omega), Bool.and_true]
    · have zero : number.testBit index = false :=
        Nat.testBit_lt_two_pow (below.trans_le (Nat.pow_le_pow_right (by decide) (by omega)))
      have position : index - low + low = index := by omega
      simp only [ge_iff_le, high, zero, position, Bool.false_and, Bool.and_false]
  · simp only [ge_iff_le, high, decide_false, Bool.false_and, Bool.and_false]

end Records
