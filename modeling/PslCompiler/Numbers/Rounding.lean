import Mathlib.Algebra.Order.Archimedean.Basic
import Mathlib.Tactic

/-! # Rounding to the nearest number

Of a sequence of numbers one is nearest to a given number, and of two that are equally near the even
one is taken. The numbers of a binary format, in the order of their bit patterns, are such a
sequence. A number that is cut off is rounded correctly if it is known whether anything was lost.
-/

namespace Numbers

variable {K : Type} [Field K] [LinearOrder K] [IsStrictOrderedRing K]

/-! ## The nearest of a sequence -/

section Nearest

variable {points : Nat → K} {x low high : K} {index : Nat}

/-- No other point is nearer, and if another one is as near, the index is even. -/
structure Nearest (points : Nat → K) (x : K) (index : Nat) : Prop where
  closest : ∀ other, |x - points index| ≤ |x - points other|
  even : ∀ other, other ≠ index → |x - points other| = |x - points index| → Even index

theorem nearer_low (less : low < high) : |x - low| ≤ |x - high| ↔ 2 * x ≤ low + high := by
  rw [← sq_le_sq]
  constructor
  · intro nearer
    by_contra beyond
    nlinarith
  · intro before
    nlinarith

theorem nearer_high (less : low < high) : |x - high| ≤ |x - low| ↔ low + high ≤ 2 * x := by
  rw [← sq_le_sq]
  constructor
  · intro nearer
    by_contra beyond
    nlinarith
  · intro before
    nlinarith

/-- A point is nearest if it is nearer than its two neighbours. -/
theorem nearest_of_neighbours (increasing : StrictMono points)
    (above : 2 * x ≤ points index + points (index + 1))
    (aboveEven : 2 * x = points index + points (index + 1) → Even index)
    (below : ∀ previous, previous + 1 = index → points previous + points index ≤ 2 * x)
    (belowEven : ∀ previous, previous + 1 = index → points previous + points index = 2 * x →
      Even index) : Nearest points x index where
  closest other := by
    rcases lt_trichotomy other index with before | same | after
    · obtain ⟨previous, rfl⟩ : ∃ previous, previous + 1 = index := ⟨index - 1, by omega⟩
      have order := increasing.monotone (Nat.lt_succ_iff.mp before)
      have half := below previous rfl
      rw [nearer_high (increasing before)]
      linarith
    · rw [same]
    · have order := increasing.monotone (Nat.succ_le_of_lt after)
      rw [Nat.succ_eq_add_one] at order
      rw [nearer_low (increasing after)]
      linarith
  even other differs same := by
    rcases lt_or_gt_of_ne differs with before | after
    · obtain ⟨previous, rfl⟩ : ∃ previous, previous + 1 = index := ⟨index - 1, by omega⟩
      have order := increasing.monotone (Nat.lt_succ_iff.mp before)
      have half := below previous rfl
      have bound := (nearer_low (increasing before)).mp same.le
      exact belowEven previous rfl (by linarith)
    · have order := increasing.monotone (Nat.succ_le_of_lt after)
      rw [Nat.succ_eq_add_one] at order
      have bound := (nearer_high (increasing after)).mp same.le
      exact aboveEven (by linarith)

theorem nearest_low (increasing : StrictMono points) (reached : points index ≤ x)
    (half : 2 * x ≤ points index + points (index + 1))
    (tie : 2 * x = points index + points (index + 1) → Even index) : Nearest points x index := by
  refine nearest_of_neighbours increasing half tie ?_ ?_
  · rintro previous rfl
    have order := increasing (Nat.lt_succ_self previous)
    linarith
  · rintro previous rfl same
    have order := increasing (Nat.lt_succ_self previous)
    linarith

theorem nearest_high (increasing : StrictMono points) (within : x ≤ points (index + 1))
    (half : points index + points (index + 1) ≤ 2 * x)
    (tie : points index + points (index + 1) = 2 * x → Even (index + 1)) :
    Nearest points x (index + 1) := by
  have order := increasing (Nat.lt_succ_self (index + 1))
  rw [Nat.succ_eq_add_one] at order
  refine nearest_of_neighbours increasing ?_ ?_ ?_ ?_
  · linarith
  · intro same
    linarith
  · intro previous next
    obtain rfl := Nat.succ_injective next
    exact half
  · intro previous next same
    obtain rfl := Nat.succ_injective next
    exact tie same

theorem Nearest.le_of_le (nearest : Nearest points x index) (increasing : StrictMono points)
    {lower : Nat} (reached : points lower ≤ x) : lower ≤ index := by
  by_contra before
  have order := increasing (Nat.not_le.mp before)
  have half := (nearer_low order).mp (nearest.closest lower)
  linarith

/-- There is no choice. -/
theorem Nearest.unique (increasing : StrictMono points) {other : Nat}
    (nearest : Nearest points x index) (also : Nearest points x other) : index = other := by
  wlog before : index < other generalizing index other
  · rcases lt_or_eq_of_le (Nat.not_lt.mp before) with after | same
    · exact (this also nearest after).symm
    · exact same.symm
  · have same := le_antisymm (nearest.closest other) (also.closest index)
    have first := nearest.even other before.ne' same.symm
    have second := also.even index before.ne same
    have apart : index + 1 < other := by
      obtain ⟨half, rfl⟩ := first
      obtain ⟨double, rfl⟩ := second
      omega
    have middle := (nearer_high (increasing before)).mp same.ge
    have next := (nearer_low (increasing (Nat.lt_succ_self index))).mp (nearest.closest _)
    have order := increasing apart
    rw [Nat.succ_eq_add_one] at next
    linarith

theorem exists_nearest (increasing : StrictMono points) (start : points 0 ≤ x)
    (unbounded : ∃ bound, x < points bound) : ∃ index, Nearest points x index := by
  classical
  have first := Nat.find_spec unbounded
  have minimal := fun smaller => @Nat.find_min _ _ unbounded smaller
  obtain ⟨index, isNext⟩ : ∃ index, Nat.find unbounded = index + 1 :=
    Nat.exists_eq_succ_of_ne_zero fun zero => (zero ▸ first).not_ge start
  rw [isNext] at first minimal
  have reached : points index ≤ x := not_lt.mp (minimal index (Nat.lt_succ_self index))
  rcases lt_trichotomy (2 * x) (points index + points (index + 1)) with below | tie | above
  · exact ⟨index, nearest_low increasing reached below.le fun same => absurd same below.ne⟩
  · by_cases even : Even index
    · exact ⟨index, nearest_low increasing reached tie.le fun _ => even⟩
    · exact ⟨index + 1, nearest_high increasing first.le tie.ge fun _ =>
        Nat.even_add_one.mpr even⟩
  · exact ⟨index + 1, nearest_high increasing first.le above.le fun same => absurd same above.ne⟩

end Nearest

/-! ## Binary formats -/

/-- A format with some bits for the fraction. The last place of the smallest numbers has the lowest
exponent. -/
structure BinaryFormat where
  fraction : Nat
  lowest : Int

namespace BinaryFormat

variable (format : BinaryFormat)

/-- The number of a bit pattern in units of the smallest one. With a field of zero the pattern is
the number; otherwise the fraction has a one in front of it, and the field counts doublings. -/
def scaled (bits : Nat) : Nat :=
  if bits < 2 ^ format.fraction then bits
  else (2 ^ format.fraction + bits % 2 ^ format.fraction) * 2 ^ (bits / 2 ^ format.fraction - 1)

/-- The distance from a bit pattern to the next one. -/
def spacing (bits : Nat) : Nat := 2 ^ (bits / 2 ^ format.fraction - 1)

theorem spacing_pos (bits : Nat) : 0 < format.spacing bits := by
  unfold spacing
  positivity

/-- A significand with its one in front, and a field. -/
theorem scaled_normal {field significand : Nat} (positive : 1 ≤ field)
    (low : 2 ^ format.fraction ≤ significand) (high : significand < 2 ^ (format.fraction + 1)) :
    format.scaled (field * 2 ^ format.fraction + (significand - 2 ^ format.fraction)) =
        significand * 2 ^ (field - 1) ∧
      format.spacing (field * 2 ^ format.fraction + (significand - 2 ^ format.fraction)) =
        2 ^ (field - 1) := by
  have small : significand - 2 ^ format.fraction < 2 ^ format.fraction := by
    rw [pow_succ] at high
    omega
  have large : 2 ^ format.fraction ≤ field * 2 ^ format.fraction :=
    Nat.le_mul_of_pos_left _ positive
  have quotient : (field * 2 ^ format.fraction + (significand - 2 ^ format.fraction)) /
      2 ^ format.fraction = field := by
    rw [Nat.mul_comm, Nat.mul_add_div (by positivity), Nat.div_eq_of_lt small, Nat.add_zero]
  have remainder : (field * 2 ^ format.fraction + (significand - 2 ^ format.fraction)) %
      2 ^ format.fraction = significand - 2 ^ format.fraction := by
    rw [Nat.mul_comm, Nat.mul_add_mod, Nat.mod_eq_of_lt small]
  rw [scaled, if_neg (by omega), spacing, quotient, remainder, Nat.add_sub_cancel' low]
  exact ⟨rfl, rfl⟩

theorem scaled_succ (bits : Nat) :
    format.scaled (bits + 1) = format.scaled bits + format.spacing bits := by
  have unit : 0 < 2 ^ format.fraction := by positivity
  by_cases subnormal : bits < 2 ^ format.fraction
  · rw [spacing, Nat.div_eq_of_lt subnormal, Nat.zero_sub, pow_zero, scaled, scaled,
      if_pos subnormal]
    by_cases next : bits + 1 < 2 ^ format.fraction
    · rw [if_pos next]
    · have full : bits + 1 = 2 ^ format.fraction := by omega
      rw [if_neg next, full, Nat.mod_self, Nat.div_self unit]
      norm_num
  · have field : 1 ≤ bits / 2 ^ format.fraction := (Nat.le_div_iff_mul_le unit).mpr (by omega)
    have small := Nat.mod_lt bits unit
    have split := Nat.div_add_mod' bits (2 ^ format.fraction)
    obtain ⟨here, gap⟩ := @scaled_normal format (bits / 2 ^ format.fraction)
      (2 ^ format.fraction + bits % 2 ^ format.fraction) field (Nat.le_add_right _ _)
      (by rw [pow_succ]; omega)
    rw [Nat.add_sub_cancel_left, split] at here gap
    rw [here, gap]
    by_cases carry : bits % 2 ^ format.fraction + 1 = 2 ^ format.fraction
    · obtain ⟨there, -⟩ := @scaled_normal format (bits / 2 ^ format.fraction + 1)
        (2 ^ format.fraction) (by omega) le_rfl (Nat.pow_lt_pow_right (by norm_num) (by omega))
      have next : (bits / 2 ^ format.fraction + 1) * 2 ^ format.fraction +
          (2 ^ format.fraction - 2 ^ format.fraction) = bits + 1 := by
        rw [Nat.add_mul]
        omega
      have power : (2 : Nat) ^ (bits / 2 ^ format.fraction) =
          2 ^ (bits / 2 ^ format.fraction - 1) * 2 := by
        rw [← pow_succ, Nat.sub_add_cancel field]
      rw [next, Nat.add_sub_cancel, power] at there
      rw [there, ← Nat.succ_mul, Nat.succ_eq_add_one, Nat.add_assoc, carry]
      ring
    · obtain ⟨there, -⟩ := @scaled_normal format (bits / 2 ^ format.fraction)
        (2 ^ format.fraction + bits % 2 ^ format.fraction + 1) field (by omega)
        (by rw [pow_succ]; omega)
      have next : bits / 2 ^ format.fraction * 2 ^ format.fraction +
          (2 ^ format.fraction + bits % 2 ^ format.fraction + 1 - 2 ^ format.fraction) =
            bits + 1 := by
        omega
      rw [next] at there
      rw [there]
      ring

theorem scaled_strictMono : StrictMono format.scaled := by
  refine strictMono_nat_of_lt_succ fun bits => ?_
  have positive := format.spacing_pos bits
  rw [format.scaled_succ]
  omega

theorem le_scaled (bits : Nat) : bits ≤ format.scaled bits := format.scaled_strictMono.le_apply

/-- The number of a bit pattern. -/
def point (K : Type) [Field K] (bits : Nat) : K := format.scaled bits * 2 ^ format.lowest

theorem point_strictMono : StrictMono (format.point K) := by
  intro first second less
  have unit : (0 : K) < 2 ^ format.lowest := by positivity
  have order : (format.scaled first : K) < format.scaled second :=
    Nat.cast_lt.mpr (format.scaled_strictMono less)
  exact mul_lt_mul_of_pos_right order unit

theorem point_zero (K : Type) [Field K] : format.point K 0 = 0 := by
  rw [point, scaled, if_pos (by positivity), Nat.cast_zero, zero_mul]

theorem point_unbounded [Archimedean K] (x : K) : ∃ bits, x < format.point K bits := by
  have unit : (0 : K) < 2 ^ format.lowest := by positivity
  obtain ⟨bits, large⟩ := exists_nat_gt (x / 2 ^ format.lowest)
  refine ⟨bits, ?_⟩
  rw [div_lt_iff₀ unit] at large
  have order : (bits : K) ≤ format.scaled bits := Nat.cast_le.mpr (format.le_scaled bits)
  exact large.trans_le (mul_le_mul_of_nonneg_right order unit.le)

end BinaryFormat

/-! ## Rounding what was cut off -/

/-- Whether a quotient is rounded up. Its remainder decides, and halfway its parity and whether
anything was lost before the division. -/
def roundUp (quotient remainder divisor : Nat) (lost : Bool) : Nat :=
  if divisor < 2 * remainder then 1
  else if 2 * remainder = divisor then if Odd quotient ∨ lost = true then 1 else 0
  else 0

theorem roundUp_le (quotient remainder divisor : Nat) (lost : Bool) :
    roundUp quotient remainder divisor lost ≤ 1 := by
  unfold roundUp
  split_ifs <;> norm_num

/-- A number was cut off and divided. If no half of a last place lies between what is left of it and
the number itself, the quotient is rounded correctly. -/
theorem BinaryFormat.nearest_quotient (format : BinaryFormat)
    {bits quotient places remainder divisor : Nat} {cut x : K} {lost : Bool}
    (place : format.scaled bits = quotient * 2 ^ places) (gap : format.spacing bits = 2 ^ places)
    (parity : Even bits ↔ Even quotient) (divided : remainder < divisor)
    (value : cut * divisor =
      (quotient * divisor + remainder) * (2 ^ places * 2 ^ format.lowest))
    (below : cut ≤ x) (lostSome : lost = true ↔ cut < x)
    (between : ∀ halves : Nat, 2 * cut < halves * (2 ^ places * 2 ^ format.lowest) →
      2 * x < halves * (2 ^ places * 2 ^ format.lowest)) :
    Nearest (format.point K) x (bits + roundUp quotient remainder divisor lost) := by
  have increasing := format.point_strictMono (K := K)
  have unit : (0 : K) < 2 ^ places * 2 ^ format.lowest := by positivity
  have positive : (0 : K) < divisor := by
    exact_mod_cast Nat.lt_of_le_of_lt (Nat.zero_le _) divided
  have here : format.point K bits = quotient * (2 ^ places * 2 ^ format.lowest) := by
    rw [point, place]
    push_cast
    ring
  have there : format.point K (bits + 1) = (quotient + 1) * (2 ^ places * 2 ^ format.lowest) := by
    rw [point, format.scaled_succ, place, gap]
    push_cast
    ring
  generalize (2 : K) ^ places * 2 ^ format.lowest = last at *
  have small : (remainder : K) < divisor := by exact_mod_cast divided
  have reached : quotient * last ≤ cut := by
    have nonneg : (0 : K) ≤ remainder := Nat.cast_nonneg _
    by_contra under
    nlinarith
  have within : x < (quotient + 1) * last := by
    have cutWithin : 2 * cut < ((2 * quotient + 2 : Nat) : K) * last := by
      push_cast
      by_contra beyond
      nlinarith
    have found := between _ cutWithin
    push_cast at found
    linarith
  have middle : ((2 * quotient + 1 : Nat) : K) * last = format.point K bits +
      format.point K (bits + 1) := by
    rw [here, there]
    push_cast
    ring
  have halves : (2 * cut - ((2 * quotient + 1 : Nat) : K) * last) * divisor =
      (2 * remainder - divisor) * last := by
    push_cast
    linear_combination 2 * value
  unfold roundUp
  split_ifs with more tie odd
  · have larger : (divisor : K) < 2 * remainder := by exact_mod_cast more
    have above : ((2 * quotient + 1 : Nat) : K) * last < 2 * cut := by
      by_contra under
      nlinarith
    refine nearest_high increasing (by rw [there]; exact within.le) ?_ ?_
    · rw [← middle]
      linarith
    · rw [← middle]
      intro same
      linarith
  · have same : 2 * cut = ((2 * quotient + 1 : Nat) : K) * last := by
      have exactly : (2 * remainder : K) = divisor := by exact_mod_cast tie
      rw [exactly, sub_self, zero_mul] at halves
      exact sub_eq_zero.mp ((mul_eq_zero.mp halves).resolve_right positive.ne')
    refine nearest_high increasing (by rw [there]; exact within.le) ?_ ?_
    · rw [← middle]
      linarith
    · rw [← middle]
      intro even
      cases odd with
      | inl odd =>
          rw [Nat.even_add_one, parity]
          exact Nat.not_even_iff_odd.mpr odd
      | inr beyond =>
          have strictly := lostSome.mp beyond
          linarith
  · have same : 2 * cut = ((2 * quotient + 1 : Nat) : K) * last := by
      have exactly : (2 * remainder : K) = divisor := by exact_mod_cast tie
      rw [exactly, sub_self, zero_mul] at halves
      exact sub_eq_zero.mp ((mul_eq_zero.mp halves).resolve_right positive.ne')
    rw [not_or, Nat.not_odd_iff_even, lostSome, not_lt] at odd
    rw [Nat.add_zero]
    refine nearest_low increasing (by rw [here]; exact reached.trans below) ?_ ?_
    · rw [← middle]
      linarith
    · exact fun _ => parity.mpr odd.1
  · have smaller : (2 * remainder : K) < divisor := by
      have order : 2 * remainder < divisor := by omega
      exact_mod_cast order
    have under : 2 * cut < ((2 * quotient + 1 : Nat) : K) * last := by
      by_contra above
      nlinarith
    have found := between _ under
    rw [Nat.add_zero]
    refine nearest_low increasing (by rw [here]; exact reached.trans below) ?_ ?_
    · rw [← middle]
      exact found.le
    · rw [← middle]
      intro same
      linarith

end Numbers
