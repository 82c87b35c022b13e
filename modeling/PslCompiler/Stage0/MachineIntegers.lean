import Mathlib.Tactic
import PslCompiler.Flow.Behaviour
import PslCompiler.Stage0.Execution
import PslCompiler.Stage0.Optimize

/-! # Machine integers

What the binary operations compute: the mathematical result reduced modulo the width of the type
and read back in the type. Folding an operation on integers that fit their type gives the same.
-/

namespace Stage0

open Flow

/-- The representative of an integer in a type. -/
def Ty.reduce (type : Ty) (pointerBits : Nat) (value : Int) : Int :=
  let width := (type.typeWidth pointerBits).getD 0
  if type.signedTypeP then Int.bmod value (2 ^ width) else value % 2 ^ width

/-- The result of an operation on integers. A shift count counts modulo 64. -/
def BinaryOperator.result (operator : BinaryOperator) (left right : Int) : Int :=
  match operator with
  | .wrapAdd => left + right
  | .wrapSub => left - right
  | .wrapMul => left * right
  | .bitsAnd => Int.land left right
  | .shr64 => left / 2 ^ (right % 64).toNat
  | .equal => if left = right then 1 else 0
  | .less => if left < right then 1 else 0

/-- What a binary operation on operands of a type computes. -/
def BinaryOperator.compute (operator : BinaryOperator) (type : Ty) (pointerBits : Nat)
    (left right : Int) : Int :=
  if operator.comparisonP then operator.result left right
  else type.reduce pointerBits (operator.result left right)

/-- An integer fits a type. -/
def Ty.Fits (type : Ty) (pointerBits : Nat) (value : Int) : Prop :=
  literalFitsP (.integer value) type pointerBits = true

section Fits

variable {type : Ty} {pointerBits : Nat} {value left right : Int}

theorem Ty.typeWidth_of_integer (integer : type.integerTypeP = true) (pointers : 0 < pointerBits) :
    ∃ width, type.typeWidth pointerBits = some (width + 1) := by
  cases type with
  | usize => exact ⟨pointerBits - 1, by simp only [Ty.typeWidth]; congr 1; omega⟩
  | isize => exact ⟨pointerBits - 1, by simp only [Ty.typeWidth]; congr 1; omega⟩
  | u8 | s8 => exact ⟨7, rfl⟩
  | u16 | s16 => exact ⟨15, rfl⟩
  | u32 | s32 => exact ⟨31, rfl⟩
  | u64 | s64 => exact ⟨63, rfl⟩
  | f32 | f64 | void | value | boolean | struct | ptr => cases integer

theorem Ty.fits_iff {width : Nat} (integer : type.integerTypeP = true)
    (wide : type.typeWidth pointerBits = some (width + 1)) : type.Fits pointerBits value ↔
      if type.signedTypeP then -2 ^ width ≤ value ∧ value < 2 ^ width
      else 0 ≤ value ∧ value < 2 ^ (width + 1) := by
  have same : literalFitsP (.integer value) type pointerBits =
      integerFitsP (.integer value) type pointerBits := by
    cases type with
    | f32 | f64 | void | value | boolean | struct | ptr => cases integer
    | _ => rfl
  unfold Ty.Fits
  rw [same]
  simp only [integerFitsP, wide, Nat.add_sub_cancel]
  split
  · rw [decide_eq_true_iff, Int.le_sub_one_iff]
  · rw [decide_eq_true_iff, Int.le_sub_one_iff]

theorem Ty.reduce_of_fits (integer : type.integerTypeP = true) (pointers : 0 < pointerBits)
    (fits : type.Fits pointerBits value) : type.reduce pointerBits value = value := by
  obtain ⟨width, wide⟩ := Ty.typeWidth_of_integer integer pointers
  rw [Ty.fits_iff integer wide] at fits
  unfold Ty.reduce
  simp only [wide, Option.getD_some]
  split
  · rename_i signed
    rw [if_pos signed] at fits
    rw [Nat.pow_succ]
    exact Int.bmod_eq_of_le_mul_two (by push_cast; omega) (by push_cast; omega)
  · rename_i signed
    rw [if_neg signed] at fits
    exact Int.emod_eq_of_lt fits.1 fits.2

theorem Ty.fits_reduce (integer : type.integerTypeP = true) (pointers : 0 < pointerBits)
    (value : Int) : type.Fits pointerBits (type.reduce pointerBits value) := by
  obtain ⟨width, wide⟩ := Ty.typeWidth_of_integer integer pointers
  rw [Ty.fits_iff integer wide]
  unfold Ty.reduce
  simp only [wide, Option.getD_some]
  have positive : 0 < 2 ^ (width + 1) := Nat.two_pow_pos _
  split
  · have lower := @Int.le_bmod value (2 ^ (width + 1)) positive
    have upper := @Int.bmod_lt value (2 ^ (width + 1)) positive
    rw [Nat.pow_succ] at lower upper ⊢
    push_cast at lower upper ⊢
    omega
  · exact ⟨Int.emod_nonneg _ (by positivity), Int.emod_lt_of_pos _ (by positivity)⟩

/-- The sign bit of a word tells whether it lies in the upper half. -/
theorem testBit_top {word width : Nat} (below : word < 2 ^ (width + 1)) :
    word.testBit width = decide (2 ^ width ≤ word) := by
  rw [Nat.testBit_eq_decide_div_mod_eq, decide_eq_decide]
  rw [Nat.pow_succ] at below
  have positive : 0 < 2 ^ width := Nat.two_pow_pos _
  have small : word / 2 ^ width < 2 := (Nat.div_lt_iff_lt_mul positive).mpr (by omega)
  have upper : 0 < word / 2 ^ width ↔ 0 < 2 ^ width ∧ 2 ^ width ≤ word := Nat.div_pos_iff
  rw [Nat.mod_eq_of_lt small]
  omega

theorem wrapInteger_eq_reduce (integer : type.integerTypeP = true) (pointers : 0 < pointerBits)
    (value : Int) : wrapInteger value type pointerBits = type.reduce pointerBits value := by
  obtain ⟨width, wide⟩ := Ty.typeWidth_of_integer integer pointers
  unfold wrapInteger Ty.reduce
  simp only [wide, Option.getD_some, Nat.add_sub_cancel]
  have positive : (0 : Int) < 2 ^ (width + 1) := by positivity
  have nonneg := Int.emod_nonneg value (Int.ne_of_gt positive)
  have below := Int.emod_lt_of_pos value positive
  obtain ⟨word, same⟩ := Int.eq_ofNat_of_zero_le nonneg
  have small : word < 2 ^ (width + 1) := by
    rw [same] at below
    exact_mod_cast below
  rw [same, Int.toNat_natCast, testBit_top small]
  cases type.signedTypeP with
  | false => rfl
  | true =>
      have residue : value % ((2 ^ (width + 1) : Nat) : Int) = word := by
        push_cast
        exact same
      have half : (((2 ^ (width + 1) : Nat) : Int) + 1) / 2 = (2 ^ width : Nat) := by
        rw [Nat.pow_succ]
        push_cast
        omega
      simp only [Bool.true_and, decide_eq_true_eq, ↓reduceIte]
      rw [Int.bmod_def, residue, half]
      push_cast
      by_cases upper : 2 ^ width ≤ word
      · rw [if_pos upper, if_neg (by exact_mod_cast Nat.not_lt.mpr upper)]
      · rw [if_neg upper, if_pos (by exact_mod_cast Nat.lt_of_not_le upper)]

theorem ldiff_le (left right : Nat) : Nat.ldiff left right ≤ left := by
  have inside : Nat.ldiff left right &&& left = Nat.ldiff left right := by
    apply Nat.eq_of_testBit_eq
    intro index
    rw [Nat.testBit_and, Nat.testBit_ldiff]
    cases left.testBit index <;> cases right.testBit index <;> rfl
  rw [← inside]
  exact Nat.and_le_right

/-- A bitwise and lies between the same powers of two as its operands. -/
theorem land_bounds {bound : Nat} (leftLower : -((2 ^ bound : Nat) : Int) ≤ left)
    (leftUpper : left < (2 ^ bound : Nat)) (rightLower : -((2 ^ bound : Nat) : Int) ≤ right)
    (rightUpper : right < (2 ^ bound : Nat)) :
    -((2 ^ bound : Nat) : Int) ≤ Int.land left right ∧ Int.land left right < (2 ^ bound : Nat) := by
  cases left with
  | ofNat first =>
      cases right with
      | ofNat second =>
          have smaller : first &&& second ≤ first := Nat.and_le_left
          change -((2 ^ bound : Nat) : Int) ≤ ((first &&& second : Nat) : Int) ∧
            ((first &&& second : Nat) : Int) < (2 ^ bound : Nat)
          change (first : Int) < _ at leftUpper
          omega
      | negSucc second =>
          have smaller := ldiff_le first second
          change -((2 ^ bound : Nat) : Int) ≤ ((Nat.ldiff first second : Nat) : Int) ∧
            ((Nat.ldiff first second : Nat) : Int) < (2 ^ bound : Nat)
          change (first : Int) < _ at leftUpper
          omega
  | negSucc first =>
      cases right with
      | ofNat second =>
          have smaller := ldiff_le second first
          change -((2 ^ bound : Nat) : Int) ≤ ((Nat.ldiff second first : Nat) : Int) ∧
            ((Nat.ldiff second first : Nat) : Int) < (2 ^ bound : Nat)
          change (second : Int) < _ at rightUpper
          omega
      | negSucc second =>
          have small : first < 2 ^ bound := by omega
          have small' : second < 2 ^ bound := by omega
          have joined : first ||| second < 2 ^ bound := Nat.or_lt_two_pow small small'
          change -((2 ^ bound : Nat) : Int) ≤ Int.negSucc (first ||| second) ∧
            Int.negSucc (first ||| second) < (2 ^ bound : Nat)
          omega

theorem land_nonneg (leftLower : 0 ≤ left) (rightLower : 0 ≤ right) : 0 ≤ Int.land left right := by
  obtain ⟨first, rfl⟩ := Int.eq_ofNat_of_zero_le leftLower
  obtain ⟨second, rfl⟩ := Int.eq_ofNat_of_zero_le rightLower
  exact Int.natCast_nonneg (first &&& second)

/-- The bitwise and of two words that fit a type fits it. -/
theorem Ty.fits_land (integer : type.integerTypeP = true) (pointers : 0 < pointerBits)
    (leftFits : type.Fits pointerBits left) (rightFits : type.Fits pointerBits right) :
    type.Fits pointerBits (Int.land left right) := by
  obtain ⟨width, wide⟩ := Ty.typeWidth_of_integer integer pointers
  rw [Ty.fits_iff integer wide] at leftFits rightFits ⊢
  have cast (exponent : Nat) : (2 : Int) ^ exponent = ((2 ^ exponent : Nat) : Int) := by
    push_cast
    rfl
  rw [cast, cast] at leftFits rightFits ⊢
  split at leftFits
  · rename_i signed
    rw [if_pos signed] at rightFits ⊢
    exact land_bounds leftFits.1 leftFits.2 rightFits.1 rightFits.2
  · rename_i signed
    rw [if_neg signed] at rightFits ⊢
    refine ⟨land_nonneg leftFits.1 rightFits.1, ?_⟩
    exact (land_bounds (by omega) leftFits.2 (by omega) rightFits.2).2

/-- A shift right of a word that fits an unsigned type fits it. -/
theorem fits_shift (integer : type.integerTypeP = true) (pointers : 0 < pointerBits)
    (unsigned : type.signedTypeP = false) (fits : type.Fits pointerBits left) (count : Nat) :
    type.Fits pointerBits (left / 2 ^ count) := by
  obtain ⟨width, wide⟩ := Ty.typeWidth_of_integer integer pointers
  rw [Ty.fits_iff integer wide, unsigned] at fits ⊢
  have positive : (0 : Int) < 2 ^ count := by positivity
  exact ⟨Int.ediv_nonneg fits.1 (Int.le_of_lt positive),
    Int.lt_of_le_of_lt (Int.ediv_le_self _ fits.1) fits.2⟩

/-- Folding an operation on integers that fit computes what the machine computes. -/
theorem foldedBinary_eq_compute {operator : BinaryOperator} (integer : type.integerTypeP = true)
    (pointers : 0 < pointerBits) (shift : operator = .shr64 → type = .u64)
    (leftFits : type.Fits pointerBits left) (rightFits : type.Fits pointerBits right) :
    foldedBinary operator type left right pointerBits =
      operator.compute type pointerBits left right := by
  cases operator with
  | wrapAdd => exact wrapInteger_eq_reduce integer pointers _
  | wrapSub => exact wrapInteger_eq_reduce integer pointers _
  | wrapMul => exact wrapInteger_eq_reduce integer pointers _
  | bitsAnd =>
      exact (Ty.reduce_of_fits integer pointers
        (Ty.fits_land integer pointers leftFits rightFits)).symm
  | shr64 =>
      have unsigned : type.signedTypeP = false := by
        rw [shift rfl]
        rfl
      have same : foldedBinary .shr64 type left right pointerBits =
          left / 2 ^ (right % 64).toNat := Int.shiftRight_eq_div_pow _ _
      rw [same]
      exact (Ty.reduce_of_fits integer pointers
        (fits_shift integer pointers unsigned leftFits _)).symm
  | equal => rfl
  | less => rfl

/-- What an operation computes fits the type of its result. -/
theorem BinaryOperator.fits_compute (operator : BinaryOperator) (integer : type.integerTypeP = true)
    (pointers : 0 < pointerBits) (left right : Int) :
    (if operator.comparisonP then Ty.boolean else type).Fits pointerBits
      (operator.compute type pointerBits left right) := by
  unfold BinaryOperator.compute
  by_cases comparison : operator.comparisonP = true
  · rw [if_pos comparison, if_pos comparison]
    cases operator with
    | equal | less =>
        simp only [BinaryOperator.result]
        split
        · rfl
        · rfl
    | _ => cases comparison
  · rw [if_neg comparison, if_neg comparison]
    exact Ty.fits_reduce integer pointers _

end Fits

end Stage0
