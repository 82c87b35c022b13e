import PslCompiler.Native.FloatLiterals
import PslCompiler.Numbers.Rounding

/-! # The conversion rounds to the nearest number

A decimal number that was cut off after 800 digits is converted to the bit pattern of the nearest
number of its format, and of the even one of two. Halfway between two numbers of a format lie only
decimal numbers with fewer digits, so it suffices to know that something was cut off.
-/

namespace Native

open Numbers

/-! ## Formats -/

def floatBias (code : Nat) : Nat := if code = 13 then 127 else 1023

/-- The formats binary32 and binary64. -/
def floatFormat (code : Nat) : BinaryFormat :=
  if code = 13 then { fraction := 23, lowest := -149 } else { fraction := 52, lowest := -1074 }

/-- The bit pattern behind all finite numbers. -/
def floatInfinity (code : Nat) : Nat :=
  (2 * floatBias code + 1) * 2 ^ (floatFormat code).fraction

/-- What the conversion knows about its two formats. -/
structure FormatFacts (code : Nat) : Prop where
  precision : (if code = 13 then 24 else 53) = (floatFormat code).fraction + 1
  maximum : (if (floatFormat code).fraction + 1 = 24 then (127 : Int) else 1023) = floatBias code
  minimum : (if code = 13 then (-126 : Int) else -1022) = 1 - floatBias code
  lowest : (floatFormat code).lowest = 1 - floatBias code - (floatFormat code).fraction
  fraction_pos : 1 ≤ (floatFormat code).fraction
  fraction_le : (floatFormat code).fraction ≤ 52
  bias_le : floatBias code ≤ 1023
  lowest_ge : -1074 ≤ (floatFormat code).lowest

theorem floatFormat_facts (code : Nat) : FormatFacts code := by
  by_cases single : code = 13
  · constructor <;> simp [floatFormat, floatBias, single]
  · constructor <;> simp [floatFormat, floatBias, single]

theorem signedWord_eq {number : Int} (low : -(2 ^ 62) ≤ number) (high : number < 2 ^ 62) :
    signedWord number = number := by
  rw [signedWord, wordLimit, Int.bmod_def]
  norm_num
  split <;> omega

/-! ## Long division -/

section Division

variable {limit divisor : Nat} {denominator : FloatUint}

/-- The bits of a quotient and what remains. -/
theorem floatQuotientBits_spec (divides : denominator.Holds limit divisor)
    (room : 2 * divisor ≤ 2 ^ (32 * limit)) :
    ∀ (remaining : Nat) (numerator : FloatUint) (total quotient : Nat),
      numerator.Holds limit total → total < divisor →
      (quotient + 1) * 2 ^ remaining < wordLimit →
      ∃ (after : Nat) (rest : FloatUint) (remainder : Nat),
        floatQuotientBits denominator remaining numerator quotient = (after, rest) ∧
        rest.Holds limit remainder ∧ remainder < divisor ∧
        after * divisor + remainder = (quotient * divisor + total) * 2 ^ remaining := by
  intro remaining
  induction remaining with
  | zero =>
      intro numerator total quotient holds less _
      refine ⟨quotient, numerator, total, rfl, holds, less, ?_⟩
      rw [pow_zero, Nat.mul_one]
  | succ remaining ih =>
      intro numerator total quotient holds less fits
      rw [pow_succ] at fits
      have one : 1 ≤ 2 ^ remaining := Nat.one_le_two_pow
      have small : (quotient + 1) * 2 < wordLimit := by nlinarith
      have shifted := @FloatUint.Holds.shift numerator limit total holds 1 (by omega)
      have doubled : floatShiftLeft quotient 1 = quotient * 2 := by
        rw [floatShiftLeft_eq 1 quotient (by omega), pow_one]
      rw [pow_one] at shifted
      rw [floatQuotientBits, shifted.compare divides, doubled, wrapAdd_eq (by omega), wrapAdd_eq (by omega)]
      by_cases below : total * 2 < divisor
      · rw [if_pos (Nat.compare_eq_lt.mpr below)]
        obtain ⟨after, rest, remainder, run, left, bound, split⟩ :=
          ih _ (total * 2) (quotient * 2 + 0) shifted below (by nlinarith)
        refine ⟨after, rest, remainder, run, left, bound, ?_⟩
        rw [split, pow_succ]
        ring
      · rw [if_neg (fun found => below (Nat.compare_eq_lt.mp found))]
        have difference := shifted.subtract divides (Nat.not_lt.mp below)
        obtain ⟨after, rest, remainder, run, left, bound, split⟩ :=
          ih _ (total * 2 - divisor) (quotient * 2 + 1) difference (by omega) (by nlinarith)
        refine ⟨after, rest, remainder, run, left, bound, ?_⟩
        have whole : (quotient * 2 + 1) * divisor + (total * 2 - divisor) =
            (quotient * divisor + total) * 2 := by
          rw [Nat.add_mul, Nat.one_mul, Nat.add_assoc, Nat.add_sub_cancel' (Nat.not_lt.mp below)]
          ring
        rw [split, whole, pow_succ]
        ring

/-- Half of the divisor decides, then the parity of the quotient and what was cut off before. -/
theorem FloatParser.roundQuotient_eq (state : FloatParser) {remainder quotient : Nat}
    (rest : state.numerator.Holds limit remainder) (divides : state.denominator.Holds limit divisor)
    (room : 2 * divisor ≤ 2 ^ (32 * limit)) (less : remainder < divisor)
    (small : quotient + 1 < wordLimit) :
    state.roundQuotient quotient =
      quotient + roundUp quotient remainder divisor state.sticky := by
  have shifted := @FloatUint.Holds.shift state.numerator limit remainder rest 1 (by omega)
  rw [pow_one, Nat.mul_comm] at shifted
  rw [FloatParser.roundQuotient, shifted.compare divides, wrapAdd_eq small, roundUp]
  simp only [Nat.compare_eq_gt, Nat.compare_eq_eq, Nat.and_one_is_mod, ← Nat.odd_iff]
  by_cases odd : Odd quotient
  · simp only [odd, true_or, ↓reduceIte]
    split_ifs <;> rfl
  · simp only [odd, false_or, ↓reduceIte]
    split_ifs <;> rfl

end Division

/-! ## Significands and fields -/

namespace FloatParser

variable {state : FloatParser} {output : ParsedInteger} {exponent : Int}

/-- What a conversion gives for a bit pattern. -/
def converted (state : FloatParser) (output : ParsedInteger) (bits : Nat) :
    FloatResult × ParsedInteger :=
  if bits < floatInfinity state.code then state.storeBits bits else (.outOfRange, output)

theorem encodeNormal_pattern {field significand : Nat} (facts : FormatFacts state.code)
    (isField : exponent + floatBias state.code = field) (positive : 1 ≤ field)
    (within : field ≤ 2 * floatBias state.code)
    (low : 2 ^ (floatFormat state.code).fraction ≤ significand)
    (high : significand < 2 ^ ((floatFormat state.code).fraction + 1)) :
    state.encodeNormal output exponent ((floatFormat state.code).fraction + 1) significand =
      state.storeBits (field * 2 ^ (floatFormat state.code).fraction +
        (significand - 2 ^ (floatFormat state.code).fraction)) := by
  obtain ⟨-, maximum, -, -, -, fractionSmall, biasSmall, -⟩ := facts
  generalize (floatFormat state.code).fraction = fraction at *
  have power : 2 ^ (fraction + 1) ≤ 2 ^ 53 := Nat.pow_le_pow_right (by norm_num) (by omega)
  have unit : 2 ^ (fraction + 1) = 2 ^ fraction * 2 := pow_succ 2 fraction
  have product : field * 2 ^ fraction ≤ 2046 * 2 ^ 52 :=
    Nat.mul_le_mul (by omega) (Nat.pow_le_pow_right (by norm_num) fractionSmall)
  have word : (((exponent + floatBias state.code) % (wordLimit : Nat) : Int)).toNat = field := by
    rw [isField, wordLimit]
    omega
  have one (count : Nat) (few : count ≤ 53) : floatShiftLeft 1 count = 2 ^ count := by
    have bound : 2 ^ count ≤ 2 ^ 53 := Nat.pow_le_pow_right (by norm_num) few
    rw [floatShiftLeft_eq count 1 (by rw [wordLimit]; omega), Nat.one_mul]
  rw [encodeNormal, maximum, if_neg (by omega), one _ (by omega), if_neg (by omega), Nat.add_sub_cancel, word,
    one _ (by omega), floatShiftLeft_eq _ _ (by rw [wordLimit]; omega)]
  congr 1
  rw [wrapSub, wordLimit, wrapAdd_eq (by rw [wordLimit]; omega)]
  omega

/-- A significand, perhaps rounded up to the next power of two, makes a bit pattern with its field,
or it is out of range. -/
theorem encodeNormal_eq {field significand : Nat} (facts : FormatFacts state.code)
    (isField : exponent + floatBias state.code = field) (positive : 1 ≤ field)
    (within : field ≤ 2 * floatBias state.code)
    (low : 2 ^ (floatFormat state.code).fraction ≤ significand)
    (high : significand ≤ 2 ^ ((floatFormat state.code).fraction + 1)) :
    state.encodeNormal output exponent ((floatFormat state.code).fraction + 1) significand =
      state.converted output (field * 2 ^ (floatFormat state.code).fraction +
        (significand - 2 ^ (floatFormat state.code).fraction)) := by
  have unit : 2 ^ ((floatFormat state.code).fraction + 1) =
      2 ^ (floatFormat state.code).fraction * 2 := pow_succ 2 _
  have fields (more : Nat) (few : more ≤ 2 * floatBias state.code) :
      more * 2 ^ (floatFormat state.code).fraction ≤
        2 * floatBias state.code * 2 ^ (floatFormat state.code).fraction :=
    Nat.mul_le_mul_right _ few
  have infinity : floatInfinity state.code =
      2 * floatBias state.code * 2 ^ (floatFormat state.code).fraction +
        2 ^ (floatFormat state.code).fraction := by
    rw [floatInfinity, Nat.add_mul, Nat.one_mul]
  have one : 0 < 2 ^ (floatFormat state.code).fraction := by positivity
  by_cases carried : significand = 2 ^ ((floatFormat state.code).fraction + 1)
  · have half : significand >>> 1 = 2 ^ (floatFormat state.code).fraction := by
      rw [carried, Nat.shiftRight_eq_div_pow, pow_one, unit, Nat.mul_div_cancel _ (by norm_num)]
    have next : field * 2 ^ (floatFormat state.code).fraction +
        (significand - 2 ^ (floatFormat state.code).fraction) =
          (field + 1) * 2 ^ (floatFormat state.code).fraction := by
      rw [carried, unit, Nat.add_mul]
      omega
    have power : floatShiftLeft 1 ((floatFormat state.code).fraction + 1) = significand := by
      have bound : 2 ^ ((floatFormat state.code).fraction + 1) ≤ 2 ^ 53 :=
        Nat.pow_le_pow_right (by norm_num) (Nat.succ_le_succ facts.fraction_le)
      rw [floatShiftLeft_eq _ 1 (by rw [wordLimit]; omega), Nat.one_mul, carried]
    rw [encodeNormal, facts.maximum, if_neg (by omega), if_pos power.symm, half, next, converted]
    by_cases last : field = 2 * floatBias state.code
    · rw [if_neg (by rw [last, infinity, Nat.add_mul]; omega), encodeNormal, facts.maximum,
        if_pos (by omega)]
    · have below := fields (field + 1) (by omega)
      rw [if_pos (by omega), @encodeNormal_pattern state output _ (field + 1) _ facts (by push_cast; omega)
        (by omega) (by omega) le_rfl (Nat.pow_lt_pow_right (by norm_num) (Nat.lt_succ_self _)),
        Nat.sub_self, Nat.add_zero]
  · have below := fields field within
    rw [encodeNormal_pattern facts isField positive within low (by omega), converted,
      if_pos (by omega)]

/-! ## Fractions between one and two -/

/-- Between what is left of a number and the number itself lies no half of a last place that the
formats have near them. -/
def Clear (cut x : ℚ) : Prop :=
  ∀ (halves : Nat) (place : Int), -1074 ≤ place → cut < 2 ^ (place + 53) →
    2 * cut < halves * 2 ^ place → 2 * x < halves * 2 ^ place

/-- What is left of a number, as a fraction between one and two and a power of two. -/
structure Scaled (state : FloatParser) (limit total divisor : Nat) (exponent : Int) (cut x : ℚ) :
    Prop where
  numerator : state.numerator.Holds limit total
  denominator : state.denominator.Holds limit divisor
  room : 2 * divisor ≤ 2 ^ (32 * limit)
  reached : divisor ≤ total
  within : total < 2 * divisor
  value : cut * divisor = total * 2 ^ exponent
  below : cut ≤ x
  lost : state.sticky = true ↔ cut < x
  clear : Clear cut x

variable {limit total divisor : Nat} {cut x : ℚ}

theorem Scaled.divisor_pos (scaled : Scaled state limit total divisor exponent cut x) :
    (0 : ℚ) < divisor := by
  have bound := scaled.within
  have reached := scaled.reached
  exact_mod_cast (by omega : 0 < divisor)

theorem Scaled.cut_ge (scaled : Scaled state limit total divisor exponent cut x) :
    2 ^ exponent ≤ cut := by
  have positive := scaled.divisor_pos
  have unit : (0 : ℚ) < 2 ^ exponent := by positivity
  have reached : (divisor : ℚ) ≤ total := by exact_mod_cast scaled.reached
  have value := scaled.value
  by_contra small
  nlinarith

theorem Scaled.cut_lt (scaled : Scaled state limit total divisor exponent cut x) :
    cut < 2 ^ (exponent + 1) := by
  have positive := scaled.divisor_pos
  have unit : (0 : ℚ) < 2 ^ exponent := by positivity
  have within : (total : ℚ) < 2 * divisor := by exact_mod_cast scaled.within
  have value := scaled.value
  rw [zpow_add_one₀ (by norm_num)]
  by_contra large
  nlinarith

/-- The half of the smallest number decides below it. -/
theorem Scaled.nearest_smallest (scaled : Scaled state limit total divisor exponent cut x)
    {doublings : Nat} (small : exponent + (doublings + 1 : Nat) = (floatFormat state.code).lowest) :
    Nearest ((floatFormat state.code).point ℚ) x
      (roundUp 0 total (2 ^ (doublings + 1) * divisor) state.sticky) := by
  have facts := floatFormat_facts state.code
  have double : 2 * divisor ≤ 2 ^ (doublings + 1) * divisor := by
    rw [pow_succ']
    exact Nat.mul_le_mul_right _ (Nat.le_mul_of_pos_right _ (by positivity))
  have smallest := @BinaryFormat.nearest_quotient ℚ _ _ _ (floatFormat state.code) 0 0 0 total
    (2 ^ (doublings + 1) * divisor) cut x state.sticky
    (by rw [BinaryFormat.scaled, if_pos (by positivity), Nat.zero_mul])
    (by rw [BinaryFormat.spacing, Nat.zero_div])
    Iff.rfl (scaled.within.trans_le double) ?_ scaled.below scaled.lost ?_
  · rw [Nat.zero_add] at smallest
    exact smallest
  · have power : (2 : ℚ) ^ exponent * 2 ^ (doublings + 1) = 2 ^ (floatFormat state.code).lowest := by
      rw [← small, zpow_add₀ (by norm_num), zpow_natCast]
    push_cast
    rw [← power]
    linear_combination 2 ^ (doublings + 1) * scaled.value
  · intro halves
    rw [pow_zero, one_mul]
    refine scaled.clear halves _ facts.lowest_ge ?_
    exact scaled.cut_lt.trans_le (zpow_le_zpow_right₀ (by norm_num) (by omega))

/-- The quotient has as many bits as the format keeps, and rounding it finds the nearest number. -/
theorem Scaled.nearest_divided (scaled : Scaled state limit total divisor exponent cut x)
    {bits quotient remainder places digits : Nat} (divided : remainder < divisor)
    (split : quotient * divisor + remainder = total * 2 ^ digits)
    (place : (floatFormat state.code).scaled bits = quotient * 2 ^ places)
    (gap : (floatFormat state.code).spacing bits = 2 ^ places)
    (parity : Even bits ↔ Even quotient) (few : digits ≤ 52)
    (exponents : places + (floatFormat state.code).lowest + digits = exponent) :
    Nearest ((floatFormat state.code).point ℚ) x
      (bits + roundUp quotient remainder divisor state.sticky) := by
  have facts := floatFormat_facts state.code
  have last : (2 : ℚ) ^ places * 2 ^ (floatFormat state.code).lowest =
      2 ^ (places + (floatFormat state.code).lowest) := by
    rw [zpow_add₀ (by norm_num), zpow_natCast]
  refine BinaryFormat.nearest_quotient _ place gap parity divided ?_ scaled.below scaled.lost ?_
  · have power : (2 : ℚ) ^ (places + (floatFormat state.code).lowest) * 2 ^ digits = 2 ^ exponent := by
      rw [← exponents, zpow_add₀ (by norm_num) (places + (floatFormat state.code).lowest),
        zpow_natCast]
    have whole : (quotient * divisor + remainder : ℚ) = total * 2 ^ digits := by exact_mod_cast split
    rw [last, whole, scaled.value, ← power]
    ring
  · intro halves
    rw [last]
    have low := facts.lowest_ge
    refine scaled.clear halves _ (by omega) ?_
    exact scaled.cut_lt.trans_le (zpow_le_zpow_right₀ (by norm_num) (by omega))

/-- A number that is too large for the format is nearest to a bit pattern that is none. -/
theorem nearest_large (large : 2 ^ (floatBias state.code + 1) ≤ x) :
    ∃ bits, Nearest ((floatFormat state.code).point ℚ) x bits ∧
      state.converted output bits = (.outOfRange, output) := by
  have facts := floatFormat_facts state.code
  have increasing := (floatFormat state.code).point_strictMono (K := ℚ)
  obtain ⟨bits, nearest⟩ := exists_nearest increasing
    (by
      rw [(floatFormat state.code).point_zero]
      exact le_trans (by positivity) large)
    ((floatFormat state.code).point_unbounded x)
  obtain ⟨place, -⟩ := @BinaryFormat.scaled_normal (floatFormat state.code)
    (2 * floatBias state.code + 1) (2 ^ (floatFormat state.code).fraction) (by omega) le_rfl (Nat.pow_lt_pow_right (by norm_num) (Nat.lt_succ_self _))
  rw [Nat.sub_self, Nat.add_zero, ← floatInfinity, Nat.add_sub_cancel] at place
  have infinity : (floatFormat state.code).point ℚ (floatInfinity state.code) ≤ x := by
    have power : (2 : ℚ) ^ (floatFormat state.code).fraction * 2 ^ (2 * floatBias state.code) *
        2 ^ (floatFormat state.code).lowest = 2 ^ (floatBias state.code + 1) := by
      rw [facts.lowest, ← zpow_natCast, ← zpow_natCast, ← zpow_natCast, ← zpow_add₀ (by norm_num),
        ← zpow_add₀ (by norm_num)]
      congr 1
      push_cast
      ring
    rw [BinaryFormat.point, place]
    push_cast
    rw [power]
    exact large
  refine ⟨bits, nearest, ?_⟩
  rw [converted, if_neg (Nat.not_lt.mpr (nearest.le_of_le increasing infinity))]

theorem one_lt_infinity (code : Nat) : 2 ^ (floatFormat code).fraction < floatInfinity code ∧
    1 < floatInfinity code := by
  have unit : 0 < 2 ^ (floatFormat code).fraction := by positivity
  have bias : 127 ≤ floatBias code := by
    unfold floatBias
    split <;> norm_num
  rw [floatInfinity]
  constructor
  · nlinarith
  · nlinarith

/-- The results of the conversion below the smallest number. -/
theorem Scaled.encode_smallest (scaled : Scaled state limit total divisor exponent cut x)
    (small : exponent < (floatFormat state.code).lowest) :
    ∃ bits, Nearest ((floatFormat state.code).point ℚ) x bits ∧
      (if exponent < (floatFormat state.code).lowest - 1 then state.storeBits 0
      else state.storeBits (if state.numerator.compare state.denominator = .eq then
        if state.sticky then 1 else 0 else 1)) = state.converted output bits := by
  obtain ⟨doublings, isBelow⟩ : ∃ doublings : Nat,
      exponent + (doublings + 1 : Nat) = (floatFormat state.code).lowest :=
    ⟨((floatFormat state.code).lowest - exponent - 1).toNat, by omega⟩
  have one := (one_lt_infinity state.code).2
  have within := scaled.within
  have reached := scaled.reached
  refine ⟨_, scaled.nearest_smallest isBelow, ?_⟩
  rw [converted, if_pos (lt_of_le_of_lt (roundUp_le _ _ _ _) one), roundUp]
  cases doublings with
  | zero =>
      rw [if_neg (by omega), scaled.numerator.compare scaled.denominator, zero_add, pow_one]
      simp only [Nat.compare_eq_eq, Nat.not_odd_zero, false_or]
      by_cases same : total = divisor
      · have middle : ¬2 * divisor < 2 * total := by omega
        have tie : 2 * total = 2 * divisor := by omega
        rw [if_pos same, if_neg middle, if_pos tie]
      · have larger : 2 * divisor < 2 * total := by omega
        rw [if_neg same, if_pos larger]
  | succ doublings =>
      have quarter : 4 * divisor ≤ 2 ^ (doublings + 1 + 1) * divisor := by
        refine Nat.mul_le_mul_right _ ?_
        rw [pow_succ, pow_succ]
        have power : 1 ≤ 2 ^ doublings := Nat.one_le_two_pow
        omega
      rw [if_pos (by omega), if_neg (by omega), if_neg (by omega)]

/-- A quotient with one in front and some more bits. -/
theorem Scaled.divide (scaled : Scaled state limit total divisor exponent cut x) {digits : Nat}
    (few : digits ≤ 52) : ∃ (quotient : Nat) (rest : FloatUint) (remainder : Nat),
      floatQuotientBits state.denominator digits (state.numerator.subtract state.denominator) 1 =
        (quotient, rest) ∧ remainder < divisor ∧
      quotient * divisor + remainder = total * 2 ^ digits ∧
      2 ^ digits ≤ quotient ∧ quotient < 2 ^ (digits + 1) ∧
      { state with numerator := rest }.roundQuotient quotient =
        quotient + roundUp quotient remainder divisor state.sticky := by
  have within := scaled.within
  have reached := scaled.reached
  have power : 2 ^ (digits + 1) ≤ 2 ^ 53 := Nat.pow_le_pow_right (by norm_num) (by omega)
  obtain ⟨quotient, rest, remainder, run, left, divided, split⟩ :=
    floatQuotientBits_spec scaled.denominator scaled.room digits _ _ 1
      (scaled.numerator.subtract scaled.denominator reached) (by omega)
      (by
        rw [one_add_one_eq_two, ← pow_succ', wordLimit]
        omega)
  rw [Nat.one_mul, Nat.add_sub_cancel' reached] at split
  have low : 2 ^ digits ≤ quotient := by
    by_contra small
    have room : (quotient + 1) * divisor ≤ 2 ^ digits * divisor :=
      Nat.mul_le_mul_right _ (Nat.not_le.mp small)
    have whole : 2 ^ digits * divisor ≤ 2 ^ digits * total := Nat.mul_le_mul_left _ reached
    rw [Nat.add_mul, Nat.one_mul] at room
    rw [Nat.mul_comm total] at split
    omega
  have high : quotient < 2 ^ (digits + 1) := by
    by_contra large
    have room : 2 ^ (digits + 1) * divisor ≤ quotient * divisor :=
      Nat.mul_le_mul_right _ (Nat.not_lt.mp large)
    have whole : 2 ^ digits * total < 2 ^ digits * (2 * divisor) :=
      Nat.mul_lt_mul_of_pos_left within (by positivity)
    rw [pow_succ, Nat.mul_assoc] at room
    rw [Nat.mul_comm total] at split
    omega
  refine ⟨quotient, rest, remainder, run, divided, split, low, high, ?_⟩
  exact roundQuotient_eq { state with numerator := rest } left scaled.denominator scaled.room
    divided (by rw [wordLimit]; omega)

/-- The conversion of a fraction between one and two finds the nearest number of the format. -/
theorem Scaled.encode (scaled : Scaled state limit total divisor exponent cut x)
    (low : -(2 ^ 20) ≤ exponent) (high : exponent ≤ 2 ^ 20) :
    ∃ bits, Nearest ((floatFormat state.code).point ℚ) x bits ∧
      state.encodeRatio output exponent = state.converted output bits := by
  have facts := floatFormat_facts state.code
  have lowest := facts.lowest
  have fractionSmall := facts.fraction_le
  have minimumBit : (1 - (floatBias state.code : Int)) -
      (((floatFormat state.code).fraction + 1 - 1 : Nat) : Int) =
        (floatFormat state.code).lowest := by
    rw [lowest]
    omega
  rw [encodeRatio, facts.precision, facts.minimum, minimumBit]
  by_cases tiny : exponent < (floatFormat state.code).lowest
  · obtain ⟨bits, nearest, result⟩ := @Scaled.encode_smallest state output _ _ _ _ _ _ scaled tiny
    refine ⟨bits, nearest, ?_⟩
    rw [← result]
    by_cases smaller : exponent < (floatFormat state.code).lowest - 1
    · rw [if_pos smaller, if_pos smaller]
    · rw [if_neg smaller, if_neg smaller, if_pos (by omega)]
  · rw [if_neg (by omega), if_neg (by omega)]
    by_cases subnormal : exponent < 1 - (floatBias state.code : Int)
    · obtain ⟨digits, isLast⟩ : ∃ digits : Nat,
          exponent = (floatFormat state.code).lowest + digits :=
        ⟨(exponent - (floatFormat state.code).lowest).toNat, by omega⟩
      have bound : digits + 1 ≤ (floatFormat state.code).fraction := by omega
      obtain ⟨quotient, rest, remainder, run, divided, split, -, small, rounded⟩ :=
        scaled.divide (show digits ≤ 52 by omega)
      have below : quotient < 2 ^ (floatFormat state.code).fraction :=
        small.trans_le (Nat.pow_le_pow_right (by norm_num) bound)
      have count : ((exponent - (floatFormat state.code).lowest + 1) % 2 ^ 32).toNat - 1 = digits := by
        omega
      have place : (floatFormat state.code).scaled quotient = quotient * 2 ^ 0 := by
        rw [BinaryFormat.scaled, if_pos below, pow_zero, Nat.mul_one]
      have gap : (floatFormat state.code).spacing quotient = 2 ^ 0 := by
        rw [BinaryFormat.spacing, Nat.div_eq_of_lt below]
      have nearest := scaled.nearest_divided divided split place gap Iff.rfl (by omega)
        (by push_cast; omega)
      refine ⟨_, nearest, ?_⟩
      have up := roundUp_le quotient remainder divisor state.sticky
      have finite := (one_lt_infinity state.code).1
      rw [if_pos subnormal]
      dsimp only
      rw [count, run]
      dsimp only
      rw [rounded, if_pos subnormal, converted, if_pos (by omega)]
      rfl
    · obtain ⟨quotient, rest, remainder, run, divided, split, large, small, rounded⟩ :=
        scaled.divide fractionSmall
      rw [if_neg subnormal]
      dsimp only
      rw [Nat.add_sub_cancel, run]
      dsimp only
      rw [rounded, if_neg subnormal]
      by_cases beyond : (floatBias state.code : Int) < exponent
      · have above : 2 ^ (floatBias state.code + 1) ≤ x := by
          have power : (2 : ℚ) ^ (floatBias state.code + 1) ≤ 2 ^ exponent := by
            rw [← zpow_natCast]
            exact zpow_le_zpow_right₀ (by norm_num) (by push_cast; omega)
          exact power.trans (scaled.cut_ge.trans scaled.below)
        obtain ⟨bits, nearest, result⟩ := @nearest_large state output _ above
        refine ⟨bits, nearest, ?_⟩
        rw [result, encodeNormal, facts.maximum, if_pos beyond]
      · obtain ⟨field, isField⟩ : ∃ field : Nat, exponent + floatBias state.code = field :=
          ⟨(exponent + floatBias state.code).toNat, by omega⟩
        obtain ⟨place, gap⟩ := @BinaryFormat.scaled_normal (floatFormat state.code)
          field quotient (by omega) large small
        have up := roundUp_le quotient remainder divisor state.sticky
        have parity : Even (field * 2 ^ (floatFormat state.code).fraction +
            (quotient - 2 ^ (floatFormat state.code).fraction)) ↔ Even quotient := by
          have unit : Even (2 ^ (floatFormat state.code).fraction) :=
            (Nat.even_pow' (Nat.one_le_iff_ne_zero.mp facts.fraction_pos)).mpr even_two
          rw [Nat.even_add, Nat.even_sub large]
          simp only [Nat.even_mul, unit, or_true, iff_true, true_iff]
        have nearest := scaled.nearest_divided divided split place gap parity fractionSmall
          (by rw [lowest]; omega)
        refine ⟨_, nearest, ?_⟩
        have positive : 1 ≤ field := by omega
        have within : field ≤ 2 * floatBias state.code := by omega
        have encoded := @encodeNormal_eq { state with numerator := rest } output exponent field _
          facts isField positive within (large.trans (Nat.le_add_right _ _))
          ((Nat.add_le_add_left up quotient).trans (Nat.succ_le_of_lt small))
        rw [encoded, Nat.sub_add_comm large, ← Nat.add_assoc]
        rfl

/-! ## Decimal numbers that were cut off -/

/-- The state keeps the first digits of a number, with a power of ten, and remembers whether the
others were all zero. -/
structure Cut (state : FloatParser) (limit kept : Nat) (exponent : Int) (x : ℚ) : Prop where
  numerator : state.numerator.Holds limit kept
  denominator : state.denominator.Holds limit 1
  room : 128 ≤ limit
  low : 10 ^ (state.digits - 1) ≤ kept
  high : kept < 10 ^ state.digits
  nonzero : 1 ≤ state.digits
  few : state.digits ≤ 800
  below : kept * 10 ^ exponent ≤ x
  above : x < (kept + 1) * 10 ^ exponent
  lost : state.sticky = true ↔ kept * 10 ^ exponent < x
  full : state.sticky = true → state.digits = 800

variable {kept : Nat}

theorem Cut.le (cut : Cut state limit kept exponent x) :
    10 ^ (exponent + state.digits - 1) ≤ x := by
  have positive := cut.nonzero
  have unit : (0 : ℚ) < 10 ^ exponent := by positivity
  have leading : (10 : ℚ) ^ (state.digits - 1) ≤ kept := by exact_mod_cast cut.low
  have power : (10 : ℚ) ^ (exponent + state.digits - 1) =
      10 ^ (state.digits - 1) * 10 ^ exponent := by
    rw [← zpow_natCast, ← zpow_add₀ (by norm_num)]
    congr 1
    omega
  rw [power]
  exact (mul_le_mul_of_nonneg_right leading unit.le).trans cut.below

theorem Cut.lt (cut : Cut state limit kept exponent x) : x < 10 ^ (exponent + state.digits) := by
  have unit : (0 : ℚ) < 10 ^ exponent := by positivity
  have next : (kept + 1 : ℚ) ≤ 10 ^ state.digits := by exact_mod_cast cut.high
  rw [add_comm exponent, zpow_add₀ (by norm_num), zpow_natCast]
  exact cut.above.trans_le (mul_le_mul_of_nonneg_right next unit.le)

/-- With enough digits the last one weighs less than a last place of a format. -/
theorem weight_lt {place : Int} {digits depth : Nat} (enough : 2 ^ 53 * 5 ^ depth ≤ 10 ^ digits)
    (leading : 10 ^ digits ≤ kept) (lowest : -depth ≤ place)
    (small : kept * 10 ^ exponent < (2 : ℚ) ^ (place + 53)) : exponent < place := by
  by_contra heavy
  have bound : (2 : ℚ) ^ 53 * 5 ^ depth ≤ kept := by exact_mod_cast enough.trans leading
  have fives : (1 : ℚ) ≤ 5 ^ depth * 5 ^ exponent := by
    rw [← zpow_natCast, ← zpow_add₀ (by norm_num)]
    exact one_le_zpow₀ (by norm_num) (by omega)
  have ten : (10 : ℚ) ^ exponent = 2 ^ exponent * 5 ^ exponent := by
    rw [← mul_zpow]
    norm_num
  have large : (2 : ℚ) ^ (place + 53) ≤ 2 ^ 53 * 2 ^ exponent := by
    rw [← zpow_natCast, ← zpow_add₀ (by norm_num)]
    exact zpow_le_zpow_right₀ (by norm_num) (by push_cast; omega)
  have larger : (2 : ℚ) ^ 53 * 2 ^ exponent ≤ kept * 10 ^ exponent := by
    calc (2 : ℚ) ^ 53 * 2 ^ exponent
        ≤ 2 ^ 53 * 2 ^ exponent * (5 ^ depth * 5 ^ exponent) :=
          le_mul_of_one_le_right (by positivity) fives
      _ = 2 ^ 53 * 5 ^ depth * (2 ^ exponent * 5 ^ exponent) := by ring
      _ ≤ kept * 10 ^ exponent := by
          rw [ten]
          exact mul_le_mul_of_nonneg_right bound (by positivity)
  exact (small.trans_le (large.trans larger)).false

/-- A half of a last place is an even multiple of what the last of 800 digits weighs, so that no
digits behind that one reach it. -/
theorem Cut.clear (cut : Cut state limit kept exponent x) (order : exponent + state.digits ≤ 310) :
    Clear (kept * 10 ^ exponent) x := by
  intro halves place lowest small half
  by_cases sticky : state.sticky = true
  · have full := cut.full sticky
    have leading := cut.low
    rw [full] at leading
    have weight := weight_lt (by decide +kernel : 2 ^ 53 * 5 ^ 1074 ≤ 10 ^ (800 - 1)) leading lowest
      small
    obtain ⟨twos, isTwos⟩ : ∃ twos : Nat, place = exponent + 1 + twos :=
      ⟨(place - exponent - 1).toNat, by omega⟩
    obtain ⟨fives, isFives⟩ : ∃ fives : Nat, exponent = -fives := ⟨(-exponent).toNat, by omega⟩
    have multiple : (halves : ℚ) * 2 ^ place =
        2 * ((halves * 2 ^ twos * 5 ^ fives : Nat) : ℚ) * 10 ^ exponent := by
      have ten : (10 : ℚ) ^ exponent = 2 ^ exponent * (5 ^ fives)⁻¹ := by
        rw [← zpow_natCast, ← zpow_neg, ← isFives, ← mul_zpow]
        norm_num
      rw [ten, isTwos, zpow_add₀ (by norm_num), zpow_add_one₀ (by norm_num), zpow_natCast]
      push_cast
      field_simp
    have unit : (0 : ℚ) < 10 ^ exponent := by positivity
    rw [multiple] at half ⊢
    have beyond : kept < halves * 2 ^ twos * 5 ^ fives := by
      have less : (kept : ℚ) < ((halves * 2 ^ twos * 5 ^ fives : Nat) : ℚ) := by
        by_contra more
        nlinarith only [more, half, unit]
      exact_mod_cast less
    have next : (kept + 1 : ℚ) ≤ ((halves * 2 ^ twos * 5 ^ fives : Nat) : ℚ) := by
      exact_mod_cast beyond
    have above := cut.above
    nlinarith only [next, above, unit]
  · have exactly : x = kept * 10 ^ exponent :=
      le_antisymm (not_lt.mp fun less => sticky (cut.lost.mpr less)) cut.below
    rw [exactly]
    exact half

/-! ## Scaling -/

theorem ten_pow_le (exponent : Nat) : 10 ^ exponent ≤ 2 ^ (4 * exponent) := by
  rw [pow_mul]
  exact Nat.pow_le_pow_left (by norm_num) exponent

theorem five_pow_lt {exponent : Nat} (positive : exponent ≠ 0) :
    5 ^ exponent < 2 ^ (3 * exponent) := by
  rw [pow_mul]
  exact Nat.pow_lt_pow_left (by norm_num) positive

/-- The fraction without its powers of two. -/
theorem Cut.scale (cut : Cut state limit kept exponent x) (least : -350 ≤ exponent + state.digits)
    (most : exponent + state.digits ≤ 310) :
    ∃ (numerator denominator : FloatUint) (total divisor : Nat),
      state.ratioScale exponent =
        (true, { state with numerator := numerator, denominator := denominator }) ∧
      numerator.Holds limit total ∧ denominator.Holds limit divisor ∧ 0 < total ∧ 0 < divisor ∧
      Nat.size total ≤ 3450 ∧ Nat.size divisor ≤ 3450 ∧
      (kept : ℚ) * 10 ^ exponent * divisor = total * 2 ^ exponent := by
  have positive := cut.nonzero
  have few := cut.few
  have room (bits : Nat) (less : bits ≤ 4096) : 2 ^ bits ≤ 2 ^ (32 * limit) :=
    Nat.pow_le_pow_right (by norm_num) (less.trans (Nat.mul_le_mul_left 32 cut.room))
  have keptPositive : 0 < kept := lt_of_lt_of_le (by positivity) cut.low
  have ten : (10 : ℚ) ^ exponent = 2 ^ exponent * 5 ^ exponent := by
    rw [← mul_zpow]
    norm_num
  rw [ratioScale]
  by_cases negative : exponent < 0
  · obtain ⟨fives, isFives⟩ : ∃ fives : Nat, exponent = -fives := ⟨(-exponent).toNat, by omega⟩
    have word : ((0 - exponent) % 2 ^ 32).toNat = fives := by omega
    have digits := Nat.size_le.mpr (cut.high.trans_le (ten_pow_le _))
    have small := five_pow_lt (by omega : fives ≠ 0)
    obtain ⟨done, scaled⟩ := @FloatUint.Holds.powerFive state.denominator limit 1 cut.denominator
      fives (by rw [Nat.one_mul]; exact small.trans_le (room _ (by omega)))
    rw [Nat.one_mul] at scaled
    have size := Nat.size_le.mpr small
    rw [if_pos negative, word]
    refine ⟨state.numerator, (state.denominator.powerFive fives).2, kept, 5 ^ fives, ?_,
      cut.numerator, scaled, keptPositive, by positivity, by omega, by omega, ?_⟩
    · rw [← done]
    · have cancel : (5 : ℚ) ^ exponent * 5 ^ fives = 1 := by
        rw [isFives, zpow_neg, zpow_natCast]
        exact inv_mul_cancel₀ (by positivity)
      rw [ten]
      push_cast
      linear_combination (kept : ℚ) * 2 ^ exponent * cancel
  · obtain ⟨fives, isFives⟩ : ∃ fives : Nat, exponent = fives := ⟨exponent.toNat, by omega⟩
    have word : (exponent % 2 ^ 32).toNat = fives := by omega
    have small : kept * 5 ^ fives < 2 ^ (4 * (state.digits + fives)) := by
      have power : kept * 5 ^ fives < 10 ^ state.digits * 10 ^ fives :=
        Nat.mul_lt_mul_of_lt_of_le cut.high (Nat.pow_le_pow_left (by norm_num) _) (by positivity)
      rw [← pow_add] at power
      exact power.trans_le (ten_pow_le _)
    obtain ⟨done, scaled⟩ := cut.numerator.powerFive (small.trans_le (room _ (by omega)))
    have size := Nat.size_le.mpr small
    rw [if_neg negative, word]
    refine ⟨(state.numerator.powerFive fives).2, state.denominator, kept * 5 ^ fives, 1, ?_, scaled,
      cut.denominator, by positivity, Nat.one_pos, by omega, by rw [Nat.size_one]; norm_num, ?_⟩
    · rw [← done]
    · rw [ten, isFives, zpow_natCast, zpow_natCast]
      push_cast
      ring

/-- The fraction between one and two. -/
theorem ratioNormalize_spec (numerator : state.numerator.Holds limit total)
    (denominator : state.denominator.Holds limit divisor) (room : 128 ≤ limit)
    (positive : 0 < total) (divisorPositive : 0 < divisor) (size : Nat.size total ≤ 3450)
    (divisorSize : Nat.size divisor ≤ 3450) (least : -2000 ≤ exponent) (most : exponent ≤ 2000) :
    ∃ (after : Int) (top bottom : FloatUint) (value quotient : Nat),
      state.ratioNormalize exponent =
        (after, { state with numerator := top, denominator := bottom }) ∧
      top.Holds limit value ∧ bottom.Holds limit quotient ∧ quotient ≤ value ∧
      value < 2 * quotient ∧ 2 * quotient ≤ 2 ^ (32 * limit) ∧ -10000 ≤ after ∧ after ≤ 10000 ∧
      (total : ℚ) * 2 ^ exponent * quotient = value * 2 ^ after * divisor := by
  have wide (bits : Nat) (less : bits ≤ 4096) : 2 ^ bits ≤ 2 ^ (32 * limit) :=
    Nat.pow_le_pow_right (by norm_num) (less.trans (Nat.mul_le_mul_left 32 room))
  have some := Nat.size_pos.mpr positive
  have divisorSome := Nat.size_pos.mpr divisorPositive
  have low := Nat.lt_size.mp (Nat.sub_lt some Nat.one_pos)
  have high := Nat.lt_size_self total
  have divisorLow := Nat.lt_size.mp (Nat.sub_lt divisorSome Nat.one_pos)
  have divisorHigh := Nat.lt_size_self divisor
  have shift : signedWord ((state.numerator.bits : Int) - state.denominator.bits) =
      (Nat.size total : Int) - Nat.size divisor := by
    rw [numerator.bits (by omega), denominator.bits (by omega)]
    exact signedWord_eq (by omega) (by omega)
  -- the fraction with as many bits above as below
  have aligned : ∃ (top bottom : FloatUint) (value quotient bits : Nat),
      (if (Nat.size total : Int) - Nat.size divisor < 0 then
        { state with numerator := (state.numerator.shift
          ((0 - ((Nat.size total : Int) - Nat.size divisor)) % 2 ^ 32).toNat).2 }
      else { state with denominator := (state.denominator.shift
        (((Nat.size total : Int) - Nat.size divisor) % 2 ^ 32).toNat).2 }) =
        { state with numerator := top, denominator := bottom } ∧
      top.Holds limit value ∧ bottom.Holds limit quotient ∧ bits ≤ 3449 ∧ 2 ^ bits ≤ value ∧
      value < 2 ^ (bits + 1) ∧ 2 ^ bits ≤ quotient ∧ quotient < 2 ^ (bits + 1) ∧
      (total : ℚ) * 2 ^ exponent * quotient =
        value * 2 ^ (exponent + ((Nat.size total : Int) - Nat.size divisor)) * divisor := by
    by_cases fewer : (Nat.size total : Int) - Nat.size divisor < 0
    · obtain ⟨more, isMore⟩ : ∃ more, Nat.size divisor = Nat.size total + more :=
        ⟨Nat.size divisor - Nat.size total, by omega⟩
      have word : ((0 - ((Nat.size total : Int) - Nat.size divisor)) % 2 ^ 32).toNat = more := by
        omega
      have below : total * 2 ^ more < 2 ^ Nat.size divisor := by
        rw [isMore, pow_add]
        exact Nat.mul_lt_mul_of_pos_right high (by positivity)
      have above : 2 ^ (Nat.size divisor - 1) ≤ total * 2 ^ more := by
        rw [show Nat.size divisor - 1 = Nat.size total - 1 + more by omega, pow_add]
        exact Nat.mul_le_mul_right _ low
      rw [if_pos fewer, word]
      refine ⟨_, state.denominator, total * 2 ^ more, divisor, Nat.size divisor - 1, rfl,
        numerator.shift (below.trans_le (wide _ (by omega))), denominator, by omega, above, ?_,
        divisorLow, ?_, ?_⟩
      · rwa [Nat.sub_add_cancel divisorSome]
      · rwa [Nat.sub_add_cancel divisorSome]
      · rw [isMore, show exponent + ((Nat.size total : Int) - (Nat.size total + more : Nat)) =
          exponent + -(more : Int) by push_cast; ring, zpow_add₀ (by norm_num), zpow_neg,
          zpow_natCast]
        push_cast
        field_simp
    · obtain ⟨more, isMore⟩ : ∃ more, Nat.size total = Nat.size divisor + more :=
        ⟨Nat.size total - Nat.size divisor, by omega⟩
      have word : (((Nat.size total : Int) - Nat.size divisor) % 2 ^ 32).toNat = more := by
        omega
      have below : divisor * 2 ^ more < 2 ^ Nat.size total := by
        rw [isMore, pow_add]
        exact Nat.mul_lt_mul_of_pos_right divisorHigh (by positivity)
      have above : 2 ^ (Nat.size total - 1) ≤ divisor * 2 ^ more := by
        rw [show Nat.size total - 1 = Nat.size divisor - 1 + more by omega, pow_add]
        exact Nat.mul_le_mul_right _ divisorLow
      rw [if_neg fewer, word]
      refine ⟨state.numerator, _, total, divisor * 2 ^ more, Nat.size total - 1, rfl, numerator,
        denominator.shift (below.trans_le (wide _ (by omega))), by omega, low, ?_, above, ?_, ?_⟩
      · rwa [Nat.sub_add_cancel some]
      · rwa [Nat.sub_add_cancel some]
      · rw [isMore, show exponent + (((Nat.size divisor + more : Nat) : Int) - Nat.size divisor) =
          exponent + (more : Int) by push_cast; ring, zpow_add₀ (by norm_num), zpow_natCast]
        push_cast
        ring
  obtain ⟨top, bottom, value, quotient, bits, isAligned, topHolds, bottomHolds, few, topLow, topHigh,
    bottomLow, bottomHigh, same⟩ := aligned
  have double : 2 ^ (bits + 1) = 2 ^ bits * 2 := pow_succ 2 bits
  have fits : 2 ^ (bits + 1 + 1) ≤ 2 ^ (32 * limit) := wide _ (by omega)
  have twice : 2 ^ (bits + 1 + 1) = 2 ^ (bits + 1) * 2 := pow_succ 2 (bits + 1)
  have sum : signedWord (exponent + ((Nat.size total : Int) - Nat.size divisor)) =
      exponent + ((Nat.size total : Int) - Nat.size divisor) :=
    signedWord_eq (by omega) (by omega)
  rw [ratioNormalize, shift, isAligned]
  dsimp only
  rw [topHolds.compare bottomHolds, sum, signedWord_eq (by omega) (by omega)]
  by_cases less : value < quotient
  · have shifted := @FloatUint.Holds.shift top limit value topHolds 1 (by omega)
    rw [if_pos (Nat.compare_eq_lt.mpr less)]
    refine ⟨_, _, bottom, value * 2 ^ 1, quotient, rfl, shifted, bottomHolds, by omega, by omega,
      by omega, by omega, by omega, ?_⟩
    rw [same, zpow_sub_one₀ (by norm_num)]
    push_cast
    ring
  · rw [if_neg (fun found => less (Nat.compare_eq_lt.mp found))]
    exact ⟨_, top, bottom, value, quotient, rfl, topHolds, bottomHolds, by omega, by omega, by omega,
      by omega, by omega, same⟩

/-! ## The conversion -/

/-- Below the half of the smallest number, zero is nearest. -/
theorem nearest_small (code : Nat) {depth digits : Nat} (powers : 2 * 2 ^ depth ≤ 10 ^ digits)
    (lowest : -depth ≤ (floatFormat code).lowest) (positive : 0 ≤ x)
    (small : x < 10 ^ (-digits : Int)) : Nearest ((floatFormat code).point ℚ) x 0 := by
  have facts := floatFormat_facts code
  have one : (floatFormat code).point ℚ (0 + 1) = 2 ^ (floatFormat code).lowest := by
    rw [BinaryFormat.point, BinaryFormat.scaled, if_pos (by
      rw [Nat.zero_add]
      exact Nat.one_lt_two_pow (Nat.one_le_iff_ne_zero.mp facts.fraction_pos))]
    push_cast
    ring
  have half : 2 * x < 2 ^ (floatFormat code).lowest := by
    have bound : (2 : ℚ) * 2 ^ depth ≤ 10 ^ digits := by exact_mod_cast powers
    have tiny : 2 * (10 : ℚ) ^ (-digits : Int) ≤ 2 ^ (-depth : Int) := by
      rw [zpow_neg, zpow_neg, zpow_natCast, zpow_natCast, ← div_eq_mul_inv, ← one_div,
        div_le_div_iff₀ (by positivity) (by positivity), one_mul]
      exact bound
    have last : (2 : ℚ) ^ (-depth : Int) ≤ 2 ^ (floatFormat code).lowest :=
      zpow_le_zpow_right₀ (by norm_num) lowest
    linarith only [small, tiny, last]
  refine nearest_low (floatFormat code).point_strictMono ?_ ?_ ?_
  · rw [(floatFormat code).point_zero]
    exact positive
  · rw [(floatFormat code).point_zero, one, zero_add]
    exact half.le
  · intro _
    exact Even.zero

/-- Above a power of two there is nothing in the format. -/
theorem nearest_beyond {exponent digits : Nat} (powers : 2 ^ exponent ≤ 10 ^ digits)
    (bias : floatBias state.code + 1 ≤ exponent) (large : 10 ^ (digits : Int) ≤ x) :
    ∃ bits, Nearest ((floatFormat state.code).point ℚ) x bits ∧
      state.converted output bits = (.outOfRange, output) := by
  have bound : (2 : ℚ) ^ exponent ≤ 10 ^ digits := by exact_mod_cast powers
  rw [zpow_natCast] at large
  exact nearest_large ((pow_le_pow_right₀ (by norm_num) bias).trans (bound.trans large))

theorem converted_zero : state.converted output 0 = state.storeBits 0 :=
  if_pos (Nat.zero_lt_of_lt (one_lt_infinity state.code).2)

/-- How far the exponent that the state has may be from the true one. -/
def Saturated (found exponent : Int) (digits : Nat) : Prop :=
  found = exponent ∨ (310 < found + digits ∧ 310 < exponent + digits) ∨
    (found + digits < -350 ∧ exponent + digits < -350)

/-- The conversion finds the nearest number of the format. -/
theorem Cut.convert (cut : Cut state limit kept exponent x)
    (saturated : Saturated state.decimalExponent exponent state.digits)
    (least : -(2 ^ 61 + 2 ^ 60) ≤ state.decimalExponent)
    (most : state.decimalExponent ≤ 2 ^ 61 + 2 ^ 60) :
    ∃ bits, Nearest ((floatFormat state.code).point ℚ) x bits ∧
      state.convertDecimal output = state.converted output bits := by
  have positive := cut.nonzero
  have few := cut.few
  have order : signedWord (state.decimalExponent + signedWord state.digits) =
      state.decimalExponent + state.digits := by
    have digits : signedWord state.digits = state.digits := signedWord_eq (by omega) (by omega)
    rw [digits, signedWord_eq (by omega) (by omega)]
  rw [convertDecimal, if_neg (by omega)]
  dsimp only
  rw [order]
  by_cases small : state.decimalExponent + state.digits < -350
  · have trulySmall : exponent + state.digits ≤ -350 := by
      unfold Saturated at saturated
      omega
    have nonneg : 0 ≤ x := le_trans (by positivity) cut.below
    have bound : x < 10 ^ (-(350 : Nat) : Int) :=
      cut.lt.trans_le (zpow_le_zpow_right₀ (by norm_num) trulySmall)
    have lowest := (floatFormat_facts state.code).lowest_ge
    refine ⟨0, nearest_small _ (by decide +kernel : 2 * 2 ^ 1074 ≤ 10 ^ 350) lowest nonneg bound, ?_⟩
    rw [if_pos small, converted_zero]
  · rw [if_neg small]
    by_cases large : 310 < state.decimalExponent + state.digits
    · have trulyLarge : 310 ≤ exponent + state.digits - 1 := by
        unfold Saturated at saturated
        omega
      have leading : 10 ^ ((310 : Nat) : Int) ≤ x :=
        (zpow_le_zpow_right₀ (by norm_num) trulyLarge).trans cut.le
      obtain ⟨bits, nearest, result⟩ := @nearest_beyond state output _ _ _
        (by decide +kernel : 2 ^ 1024 ≤ 10 ^ 310)
        (Nat.succ_le_succ (floatFormat_facts state.code).bias_le) leading
      refine ⟨bits, nearest, ?_⟩
      rw [if_pos large, result]
    · have exactly : state.decimalExponent = exponent := by
        unfold Saturated at saturated
        omega
      rw [exactly] at small large ⊢
      obtain ⟨numerator, denominator, total, divisor, scale, top, bottom, totalPositive,
        divisorPositive, size, divisorSize, same⟩ := cut.scale (Int.not_lt.mp small)
          (Int.not_lt.mp large)
      obtain ⟨after, above, below, value, quotient, normalize, aboveHolds, belowHolds, reached,
        within, room, low, high, equal⟩ := @ratioNormalize_spec
          { state with numerator := numerator, denominator := denominator } exponent limit total
          divisor top bottom cut.room totalPositive divisorPositive size divisorSize (by omega)
          (by omega)
      rw [if_neg large, scale]
      dsimp only
      rw [if_neg (by decide), normalize]
      dsimp only
      have scaled : Scaled { state with numerator := above, denominator := below } limit value
          quotient after (kept * 10 ^ exponent) x := {
        numerator := aboveHolds
        denominator := belowHolds
        room := room
        reached := reached
        within := within
        value := by
          have positive : (divisor : ℚ) ≠ 0 := by exact_mod_cast divisorPositive.ne'
          apply mul_right_cancel₀ positive
          linear_combination (quotient : ℚ) * same + equal
        below := cut.below
        lost := cut.lost
        clear := cut.clear (Int.not_lt.mp large) }
      exact scaled.encode (by omega) (by omega)

end FloatParser

end Native
