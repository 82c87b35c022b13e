import Mathlib.Tactic
import PslCompiler.Native.VerifyOperations
import PslCompiler.Stage0.MachineIntegers

/-! # Constant folding in machine words

The native optimizer folds integer operations in the 64-bit word that the target keeps them in. A
narrow value is extended to the word: with zeros when its type is unsigned, with its sign otherwise.
Folding computes the word of the mathematical result, which is what Stage 0 folds to.
-/

namespace Native

open Stage0

/-! ## Folding -/

def foldScalarWord (code : Nat) (value : BitVec 64) : BitVec 64 :=
  let bits := scalarTypeBits code
  let limit := BitVec.ofNat 64 (scalarUnsignedLimit bits)
  let low := value &&& limit
  if scalarTypeSignedP code then
    if BitVec.ofNat 64 (scalarSignedMagnitudeLimit bits false) < low then low - (limit + 1) else low
  else low

def foldScalarLess (code : Nat) (left right : BitVec 64) : BitVec 64 :=
  if scalarTypeSignedP code then if left.toInt < right.toInt then 1 else 0
  else if left < right then 1 else 0

/-- A shift counts modulo 64, as the operation `shr64` of the language does. -/
def foldScalarBinary (kind : Kind) (code : Nat) (left right : BitVec 64) : BitVec 64 :=
  match kind with
  | .add => foldScalarWord code (left + right)
  | .sub => foldScalarWord code (left - right)
  | .mul => foldScalarWord code (left * right)
  | .bitsAnd => left &&& right
  | .shift => left >>> (right.toNat % 64)
  | .equal => if left = right then 1 else 0
  | _ => foldScalarLess code left right

/-! ## What the words stand for -/

/-- The type that a code names. -/
def scalarType : Nat → Option Ty
  | 1 => some .u64
  | 2 => some .usize
  | 3 => some .u8
  | 4 => some .u16
  | 5 => some .u32
  | 6 => some .s8
  | 7 => some .s16
  | 8 => some .s32
  | 9 => some .s64
  | 10 => some .isize
  | _ => none

/-- The operation number of an operator. -/
def operatorKind : BinaryOperator → Kind
  | .wrapAdd => .add
  | .wrapSub => .sub
  | .wrapMul => .mul
  | .bitsAnd => .bitsAnd
  | .shr64 => .shift
  | .equal => .equal
  | .less => .less

/-- The integer that a word stands for in a type. -/
def wordValue (type : Ty) (word : BitVec 64) : Int :=
  if type.signedTypeP then word.toInt else word.toNat

/-- The canonical word of an integer in a type: the low bits of the type's width, extended. -/
def canonicalWord (type : Ty) (value : Int) : BitVec 64 :=
  let width := (type.typeWidth 64).getD 0
  if type.signedTypeP then (BitVec.ofInt width value).signExtend 64
  else (BitVec.ofInt width value).setWidth 64

section Words

variable {code : Nat} {type : Ty} {value : Int} {word : BitVec 64}

/-- What a code fixes: the sign, and a width between 8 and 64 bits. -/
theorem scalarType_spec (scalar : scalarType code = some type) :
    type.integerTypeP = true ∧ scalarValidCodeP code = true ∧
      type.signedTypeP = scalarTypeSignedP code ∧
      ∃ width ≤ 63, 7 ≤ width ∧ type.typeWidth 64 = some (width + 1) ∧
        scalarTypeBits code = width + 1 := by
  unfold scalarType at scalar
  split at scalar
  case h_11 => cases scalar
  all_goals
    cases scalar
    refine ⟨rfl, rfl, rfl, ?_⟩
  · exact ⟨63, by decide, by decide, rfl, rfl⟩
  · exact ⟨63, by decide, by decide, rfl, rfl⟩
  · exact ⟨7, by decide, by decide, rfl, rfl⟩
  · exact ⟨15, by decide, by decide, rfl, rfl⟩
  · exact ⟨31, by decide, by decide, rfl, rfl⟩
  · exact ⟨7, by decide, by decide, rfl, rfl⟩
  · exact ⟨15, by decide, by decide, rfl, rfl⟩
  · exact ⟨31, by decide, by decide, rfl, rfl⟩
  · exact ⟨63, by decide, by decide, rfl, rfl⟩
  · exact ⟨63, by decide, by decide, rfl, rfl⟩

/-- Every word is the word of the integer that it stands for. -/
theorem ofInt_wordValue (type : Ty) (word : BitVec 64) :
    BitVec.ofInt 64 (wordValue type word) = word := by
  unfold wordValue
  split
  · exact BitVec.ofInt_toInt
  · rw [BitVec.ofInt_natCast, BitVec.ofNat_toNat, BitVec.setWidth_eq]

/-- The canonical word holds the representative of the integer in the type. -/
theorem canonicalWord_eq_reduce (type : Ty) (value : Int) :
    canonicalWord type value = BitVec.ofInt 64 (type.reduce 64 value) := by
  unfold canonicalWord Ty.reduce
  dsimp only
  split
  · rw [BitVec.signExtend, BitVec.toInt_ofInt]
  · have positive : (0 : Int) < 2 ^ ((type.typeWidth 64).getD 0) := by positivity
    have nonneg := Int.emod_nonneg value (Int.ne_of_gt positive)
    obtain ⟨residue, same⟩ := Int.eq_ofNat_of_zero_le nonneg
    apply BitVec.eq_of_toNat_eq
    rw [same, BitVec.toNat_setWidth, BitVec.toNat_ofInt, BitVec.ofInt_natCast, BitVec.toNat_ofNat]
    push_cast
    rw [same, Int.toNat_natCast]

/-- An integer that fits a type is what its word stands for. -/
theorem wordValue_ofInt (scalar : scalarType code = some type) (fits : type.Fits 64 value) :
    wordValue type (BitVec.ofInt 64 value) = value := by
  obtain ⟨integer, -, -, width, small, -, wide, -⟩ := scalarType_spec scalar
  rw [Ty.fits_iff integer wide] at fits
  have half : (2 : Int) ^ width ≤ 2 ^ 63 := pow_le_pow_right₀ (by decide) small
  have whole : (2 : Int) ^ (width + 1) ≤ 2 ^ 64 := pow_le_pow_right₀ (by decide) (by omega)
  unfold wordValue
  split
  · rename_i signed
    rw [if_pos signed] at fits
    exact BitVec.toInt_ofInt_eq_self (by decide) (by omega) (by omega)
  · rename_i signed
    rw [if_neg signed] at fits
    rw [BitVec.toNat_ofInt, Int.toNat_of_nonneg (Int.emod_nonneg _ (by decide))]
    exact Int.emod_eq_of_lt fits.1 (by push_cast; omega)

theorem wordValue_canonicalWord (scalar : scalarType code = some type) (value : Int) :
    wordValue type (canonicalWord type value) = type.reduce 64 value := by
  obtain ⟨integer, -⟩ := scalarType_spec scalar
  rw [canonicalWord_eq_reduce]
  exact wordValue_ofInt scalar (Ty.fits_reduce integer (by decide) value)

/-- The words that the compiler takes for valid are those whose integer fits the type. -/
theorem scalarWordValidP_iff (scalar : scalarType code = some type) :
    scalarWordValidP code word.toNat = true ↔ type.Fits 64 (wordValue type word) := by
  obtain ⟨integer, valid, sign, width, small, -, wide, bits⟩ := scalarType_spec scalar
  have half : 2 ^ width ≤ 2 ^ 63 := Nat.pow_le_pow_right (by decide) small
  have positive : 0 < 2 ^ width := Nat.two_pow_pos width
  have cast : ((2 ^ width : Nat) : Int) = 2 ^ width := by push_cast; rfl
  have bound := word.isLt
  rw [Ty.fits_iff integer wide]
  unfold scalarWordValidP wordValue scalarUnsignedLimit scalarSignedMagnitudeLimit
  simp only [valid, bits, sign, Bool.true_and, Nat.add_sub_cancel, Bool.false_eq_true, ↓reduceIte]
  split
  · rw [Bool.or_eq_true, Bool.not_eq_true', Bool.not_eq_true', decide_eq_false_iff_not,
      decide_eq_false_iff_not, BitVec.toInt_eq_toNat_cond, ← cast]
    split <;> omega
  · have cast : ((2 ^ (width + 1) : Nat) : Int) = 2 ^ (width + 1) := by push_cast; rfl
    rw [Bool.not_eq_true', decide_eq_false_iff_not, ← cast]
    omega

theorem ofInt_sub (left right : Int) :
    BitVec.ofInt 64 (left - right) = BitVec.ofInt 64 left - BitVec.ofInt 64 right := by
  rw [Int.sub_eq_add_neg, BitVec.ofInt_add, BitVec.ofInt_neg, BitVec.sub_eq_add_neg]

/-- The low bits of a word are a residue of the integer that it is the word of. -/
theorem and_limit (value : Int) {bits : Nat} (small : bits ≤ 64) :
    BitVec.ofInt 64 value &&& BitVec.ofNat 64 (2 ^ bits - 1) =
      BitVec.ofNat 64 (value % 2 ^ bits).toNat := by
  have whole : 2 ^ bits ≤ 2 ^ 64 := Nat.pow_le_pow_right (by decide) small
  have positive : 0 < 2 ^ bits := Nat.two_pow_pos bits
  have cast : ((2 ^ bits : Nat) : Int) = 2 ^ bits := by push_cast; rfl
  have nonneg := Int.emod_nonneg value (show ((2 ^ bits : Nat) : Int) ≠ 0 by omega)
  have below := Int.emod_lt_of_pos value (show 0 < ((2 ^ bits : Nat) : Int) by omega)
  have divides : ((2 ^ bits : Nat) : Int) ∣ ((2 ^ 64 : Nat) : Int) :=
    Int.natCast_dvd_natCast.mpr (pow_dvd_pow 2 small)
  have residue := Int.emod_emod_of_dvd value divides
  rw [← cast]
  apply BitVec.eq_of_toNat_eq
  rw [BitVec.toNat_and, BitVec.toNat_ofInt, BitVec.toNat_ofNat, BitVec.toNat_ofNat,
    Nat.mod_eq_of_lt (show 2 ^ bits - 1 < 2 ^ 64 by omega), Nat.and_two_pow_sub_one_eq_mod,
    Nat.mod_eq_of_lt (show (value % ((2 ^ bits : Nat) : Int)).toNat < 2 ^ 64 by omega), ← residue,
    Int.toNat_emod (Int.emod_nonneg _ (by decide)) (by omega), Int.toNat_natCast]

/-- Cutting a word to a type gives the canonical word of the integer that it is the word of. -/
theorem foldScalarWord_ofInt (scalar : scalarType code = some type) (value : Int) :
    foldScalarWord code (BitVec.ofInt 64 value) = canonicalWord type value := by
  obtain ⟨-, -, sign, width, small, -, wide, bits⟩ := scalarType_spec scalar
  have whole : 2 ^ (width + 1) ≤ 2 ^ 64 := Nat.pow_le_pow_right (by decide) (by omega)
  have positive : 0 < 2 ^ width := Nat.two_pow_pos width
  have double : 2 ^ (width + 1) = 2 ^ width * 2 := Nat.pow_succ 2 width
  have cast : ((2 ^ (width + 1) : Nat) : Int) = 2 ^ (width + 1) := by push_cast; rfl
  have nonneg := Int.emod_nonneg value (show ((2 ^ (width + 1) : Nat) : Int) ≠ 0 by omega)
  have below := Int.emod_lt_of_pos value (show 0 < ((2 ^ (width + 1) : Nat) : Int) by omega)
  obtain ⟨residue, same⟩ := Int.eq_ofNat_of_zero_le nonneg
  rw [canonicalWord_eq_reduce]
  unfold foldScalarWord Ty.reduce scalarUnsignedLimit scalarSignedMagnitudeLimit
  simp only [bits, wide, sign, Option.getD_some, Nat.add_sub_cancel, Bool.false_eq_true,
    ↓reduceIte]
  rw [and_limit value (by omega), ← cast, same, Int.toNat_natCast]
  split
  · have upper : BitVec.ofNat 64 (2 ^ width - 1) < BitVec.ofNat 64 residue ↔
        2 ^ width - 1 < residue := by
      rw [BitVec.lt_def, BitVec.toNat_ofNat, BitVec.toNat_ofNat, Nat.mod_eq_of_lt (by omega),
        Nat.mod_eq_of_lt (by omega)]
    have modulus : BitVec.ofNat 64 (2 ^ (width + 1) - 1) + 1 = BitVec.ofNat 64 (2 ^ (width + 1)) := by
      have one : (1 : BitVec 64) = BitVec.ofNat 64 1 := rfl
      rw [one, ← BitVec.ofNat_add, Nat.sub_add_cancel (by omega)]
    rw [Int.bmod_def, same, modulus]
    by_cases above : 2 ^ width - 1 < residue
    · rw [if_pos (upper.mpr above), if_neg (by omega), ofInt_sub, BitVec.ofInt_natCast,
        BitVec.ofInt_natCast]
    · rw [if_neg (fun less => above (upper.mp less)), if_pos (by omega), BitVec.ofInt_natCast]
  · rw [BitVec.ofInt_natCast]

end Words

/-! ## The operations -/

theorem getLsbD_ofInt (value : Int) (index : Nat) :
    (BitVec.ofInt 64 value).getLsbD index = (decide (index < 64) && value.testBit index) := by
  cases value with
  | ofNat magnitude =>
      change (BitVec.ofInt 64 (magnitude : Int)).getLsbD index = _
      rw [BitVec.ofInt_natCast, BitVec.getLsbD_ofNat]
      rfl
  | negSucc magnitude =>
      rw [BitVec.ofInt_negSucc_eq_not_ofNat, BitVec.getLsbD_not, BitVec.getLsbD_ofNat]
      cases decide (index < 64) <;> rfl

/-- The word of a bitwise and is the bitwise and of the words. -/
theorem ofInt_land (left right : Int) :
    BitVec.ofInt 64 (Int.land left right) = BitVec.ofInt 64 left &&& BitVec.ofInt 64 right := by
  apply BitVec.eq_of_getLsbD_eq
  intro index _
  rw [BitVec.getLsbD_and, getLsbD_ofInt, getLsbD_ofInt, getLsbD_ofInt, Int.testBit_land]
  cases decide (index < 64) <;> rfl

/-- The word of a quotient by a power of two is the word shifted right. -/
theorem ofInt_shift (left right : BitVec 64) :
    BitVec.ofInt 64 ((left.toNat : Int) / 2 ^ ((right.toNat : Int) % 64).toNat) =
      left >>> (right.toNat % 64) := by
  have count : ((right.toNat : Int) % 64).toNat = right.toNat % 64 := by omega
  have quotient : (left.toNat : Int) / 2 ^ (right.toNat % 64) =
      ((left.toNat / 2 ^ (right.toNat % 64) : Nat) : Int) := by push_cast; rfl
  have below := Nat.lt_of_le_of_lt (Nat.div_le_self left.toNat (2 ^ (right.toNat % 64))) left.isLt
  rw [count, quotient, BitVec.ofInt_natCast]
  apply BitVec.eq_of_toNat_eq
  rw [BitVec.toNat_ofNat, BitVec.toNat_ushiftRight, Nat.shiftRight_eq_div_pow,
    Nat.mod_eq_of_lt below]

section Folding

variable {code : Nat} {type : Ty} {left right : BitVec 64}

theorem foldScalarLess_eq (scalar : scalarType code = some type) :
    foldScalarLess code left right =
      if wordValue type left < wordValue type right then 1 else 0 := by
  obtain ⟨-, -, sign, -⟩ := scalarType_spec scalar
  unfold foldScalarLess wordValue
  rw [sign]
  split
  · rfl
  · simp only [BitVec.lt_def, Int.ofNat_lt]

/-- Zero and one fit every type. -/
theorem reduce_flag (scalar : scalarType code = some type) (flag : Prop) [Decidable flag] :
    type.reduce 64 (if flag then 1 else 0) = if flag then 1 else 0 := by
  obtain ⟨integer, -, -, width, -, large, wide, -⟩ := scalarType_spec scalar
  have half : (2 : Int) ^ 7 ≤ 2 ^ width := pow_le_pow_right₀ (by decide) large
  have whole : (2 : Int) ^ 7 ≤ 2 ^ (width + 1) := pow_le_pow_right₀ (by decide) (by omega)
  apply Ty.reduce_of_fits integer (by decide)
  rw [Ty.fits_iff integer wide]
  split <;> split <;> omega

theorem canonicalWord_flag (scalar : scalarType code = some type) (flag : Prop) [Decidable flag] :
    canonicalWord type (if flag then 1 else 0) = if flag then 1 else 0 := by
  rw [canonicalWord_eq_reduce, reduce_flag scalar]
  split
  · rfl
  · rfl

/-- The representative of a result is what the operation computes. -/
theorem reduce_result (scalar : scalarType code = some type) (operator : BinaryOperator)
    (left right : Int) :
    type.reduce 64 (operator.result left right) = operator.compute type 64 left right := by
  cases operator with
  | equal => exact reduce_flag scalar _
  | less => exact reduce_flag scalar _
  | _ => rfl

/-- Only words of the code of u64 are shifted. -/
theorem code_of_shift (binary : scalarBinaryCodeP code true = true) : code = 1 := by
  rw [scalarBinaryCodeP, Bool.and_eq_true] at binary
  exact beq_iff_eq.mp binary.2

/-- Folding an operation on valid words gives the canonical word of the mathematical result. -/
theorem foldScalarBinary_eq (scalar : scalarType code = some type) (operator : BinaryOperator)
    (binary : scalarBinaryCodeP code (operator == .shr64) = true)
    (leftValid : scalarWordValidP code left.toNat = true)
    (rightValid : scalarWordValidP code right.toNat = true) :
    foldScalarBinary (operatorKind operator) code left right =
      canonicalWord type (operator.result (wordValue type left) (wordValue type right)) := by
  obtain ⟨integer, -⟩ := scalarType_spec scalar
  rw [scalarWordValidP_iff scalar] at leftValid rightValid
  cases operator with
  | wrapAdd =>
      rw [BinaryOperator.result, ← foldScalarWord_ofInt scalar, BitVec.ofInt_add, ofInt_wordValue,
        ofInt_wordValue]
      rfl
  | wrapSub =>
      rw [BinaryOperator.result, ← foldScalarWord_ofInt scalar, ofInt_sub, ofInt_wordValue,
        ofInt_wordValue]
      rfl
  | wrapMul =>
      rw [BinaryOperator.result, ← foldScalarWord_ofInt scalar, BitVec.ofInt_mul, ofInt_wordValue,
        ofInt_wordValue]
      rfl
  | bitsAnd =>
      rw [BinaryOperator.result, canonicalWord_eq_reduce,
        Ty.reduce_of_fits integer (by decide) (Ty.fits_land integer (by decide) leftValid rightValid),
        ofInt_land, ofInt_wordValue, ofInt_wordValue]
      rfl
  | shr64 =>
      have isWord := code_of_shift binary
      subst isWord
      cases scalar
      rw [BinaryOperator.result, canonicalWord_eq_reduce, Ty.reduce_of_fits integer (by decide)
        (fits_shift integer (by decide) rfl leftValid _)]
      exact (ofInt_shift left right).symm
  | equal =>
      rw [BinaryOperator.result, canonicalWord_flag scalar]
      have same : wordValue type left = wordValue type right ↔ left = right := by
        constructor
        · intro equal
          rw [← ofInt_wordValue type left, equal, ofInt_wordValue]
        · intro equal
          rw [equal]
      simp only [same]
      rfl
  | less =>
      rw [BinaryOperator.result, canonicalWord_flag scalar, ← foldScalarLess_eq scalar]
      rfl

theorem scalarWordValidP_canonicalWord (scalar : scalarType code = some type) (value : Int) :
    scalarWordValidP code (canonicalWord type value).toNat = true := by
  obtain ⟨integer, -⟩ := scalarType_spec scalar
  rw [scalarWordValidP_iff scalar, wordValue_canonicalWord scalar]
  exact Ty.fits_reduce integer (by decide) value

theorem exists_scalarType (valid : scalarValidCodeP code = true) :
    ∃ type, scalarType code = some type := by
  rw [scalarValidCodeP, Bool.and_eq_true, bne_iff_ne, decide_eq_true_eq] at valid
  obtain ⟨positive, below⟩ := valid
  interval_cases code
  · exact absurd rfl positive
  all_goals exact ⟨_, rfl⟩

end Folding

end Native
