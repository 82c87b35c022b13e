import Mathlib.Data.Nat.Size
import PslCompiler.Native.Layout
import PslCompiler.Numbers.Positional

/-! # Large integers for float literals

Unsigned integers of several words, the lowest first, in scratch memory of a fixed capacity. No
operation writes at the capacity or behind it. An integer that is in use has at least one word, and
its last word is zero only if it is the only one.
-/

namespace Native

open Numbers

/-- `native_float_uint`. The words stand in memory that the caller owns. -/
structure FloatUint where
  words : Nat → BitVec 32
  count : Nat
  capacity : Nat

namespace FloatUint

/-! ## The operations -/

def storeWord (value : FloatUint) (index word : Nat) : FloatUint :=
  { value with words := Function.update value.words index (BitVec.ofNat 32 word) }

def initialized (words : Nat → BitVec 32) (capacity initial : Nat) : FloatUint :=
  { words := Function.update words 0 (BitVec.ofNat 32 initial), count := 1, capacity := capacity }

def finishCarry (value : FloatUint) (count carry : Nat) : Bool × FloatUint :=
  if carry = 0 then (true, value)
  else if count = value.capacity then (false, value)
  else (true, { value.storeWord count carry with count := count + 1 })

/-- Multiply the words from an index on, of which some number is ahead. -/
def multiplyFrom (factor count : Nat) : Nat → FloatUint → Nat → Nat → Bool × FloatUint
  | 0, value, _, carry => value.finishCarry count carry
  | ahead + 1, value, index, carry =>
      let product := wrapAdd ((value.words index).toNat * factor % wordLimit) carry
      multiplyFrom factor count ahead (value.storeWord index product) (index + 1) (product >>> 32)

def multiplyAdd (value : FloatUint) (factor addend : Nat) : Bool × FloatUint :=
  multiplyFrom factor value.count value.count value 0 addend

/-- Multiply again and again, until the capacity is exceeded. -/
def multiplyTimes (factor : Nat) (value : FloatUint) : Nat → Bool × FloatUint
  | 0 => (true, value)
  | times + 1 =>
      let (done, value) := value.multiplyAdd factor 0
      if done then multiplyTimes factor value times else (false, value)

def powerFive (value : FloatUint) (exponent : Nat) : Bool × FloatUint :=
  value.multiplyTimes 5 exponent

def shift (value : FloatUint) (bits : Nat) : Bool × FloatUint :=
  value.multiplyTimes 2 bits

def compareFrom (left right : FloatUint) : Nat → Ordering
  | 0 => .eq
  | index + 1 =>
      if left.words index < right.words index then .lt
      else if right.words index < left.words index then .gt
      else compareFrom left right index

def compare (left right : FloatUint) : Ordering :=
  if left.count < right.count then .lt
  else if right.count < left.count then .gt
  else compareFrom left right left.count

/-- Drop leading zeros, beginning with the word at an index. -/
def trim (value : FloatUint) : Nat → FloatUint
  | 0 => { value with count := 1 }
  | last + 1 =>
      if value.words (last + 1) = 0#32 then value.trim last else { value with count := last + 2 }

/-- Subtract the words from an index on, of which some number is ahead. -/
def subtractFrom (right : FloatUint) (count : Nat) : Nat → FloatUint → Nat → Nat → FloatUint
  | 0, left, _, _ => left.trim (count - 1)
  | ahead + 1, left, index, borrow =>
      let minuend := (left.words index).toNat
      let subtrahend :=
        wrapAdd (if index < right.count then (right.words index).toNat else 0) borrow
      subtractFrom right count ahead (left.storeWord index (wrapSub minuend subtrahend)) (index + 1)
        (if minuend < subtrahend then 1 else 0)

def subtract (left right : FloatUint) : FloatUint :=
  subtractFrom right left.count left.count left 0 0

end FloatUint

/-- The number of bits of a word, and some more. A word of 64 bits is zero after 64 shifts. -/
def floatWordBits : Nat → Nat → Nat → Nat
  | 0, _, bits => bits
  | shifts + 1, value, bits =>
      if value = 0 then bits else floatWordBits shifts (value >>> 1) ((bits + 1) % 2 ^ 32)

def FloatUint.bits (value : FloatUint) : Nat :=
  let last := value.count - 1
  (last % 2 ^ 32 * 32 % 2 ^ 32 + floatWordBits 64 (value.words last).toNat 0) % 2 ^ 32

def floatShiftLeft (value : Nat) : Nat → Nat
  | 0 => value
  | count + 1 => floatShiftLeft (value * 2 % wordLimit) count

/-! ## What the words stand for -/

namespace FloatUint

variable {value left right : FloatUint} {limit total addend factor : Nat}

def digit (value : FloatUint) (index : Nat) : Nat := (value.words index).toNat

theorem digit_lt (value : FloatUint) (index : Nat) : value.digit index < 2 ^ 32 :=
  (value.words index).isLt

def number (value : FloatUint) : Nat := positional (2 ^ 32) value.digit value.count

/-- An integer in use, within a capacity and without leading zeros. -/
structure Holds (value : FloatUint) (limit total : Nat) : Prop where
  denotes : value.number = total
  limited : value.capacity = limit
  positive : 1 ≤ value.count
  within : value.count ≤ limit
  leading : value.count = 1 ∨ value.words (value.count - 1) ≠ 0#32

@[simp]
theorem storeWord_count (index word : Nat) : (value.storeWord index word).count = value.count := rfl

@[simp]
theorem storeWord_capacity (index word : Nat) :
    (value.storeWord index word).capacity = value.capacity := rfl

theorem digit_storeWord (index word : Nat) :
    (value.storeWord index word).digit index = word % 2 ^ 32 := by
  rw [digit, storeWord]
  dsimp only
  rw [Function.update_self, BitVec.toNat_ofNat]

theorem digit_storeWord_of_ne {index other : Nat} (word : Nat) (differs : other ≠ index) :
    (value.storeWord index word).digit other = value.digit other := by
  rw [digit, digit, storeWord]
  dsimp only
  rw [Function.update_of_ne differs]

/-- A stored word changes no lower number. -/
theorem positional_storeWord (index word : Nat) :
    positional (2 ^ 32) (value.storeWord index word).digit index =
      positional (2 ^ 32) value.digit index :=
  positional_congr fun _ below => digit_storeWord_of_ne word (Nat.ne_of_lt below)

theorem Holds.lt (holds : value.Holds limit total) : total < 2 ^ (32 * limit) := by
  have below := positional_lt value.digit_lt value.count
  rw [← holds.denotes, pow_mul]
  exact below.trans_le (Nat.pow_le_pow_right (by norm_num) holds.within)

theorem Holds.le (holds : value.Holds limit total) (several : value.count ≠ 1) :
    2 ^ (32 * (value.count - 1)) ≤ total := by
  have leading : value.digit (value.count - 1) ≠ 0 := fun zero =>
    holds.leading.resolve_left several (BitVec.eq_of_toNat_eq zero)
  have above := @le_positional (2 ^ 32) value.digit _ leading
  rw [Nat.sub_add_cancel holds.positive] at above
  rw [← holds.denotes, pow_mul]
  exact above

theorem initialized_holds (words : Nat → BitVec 32) (room : 1 ≤ limit) {initial : Nat}
    (small : initial < 2 ^ 32) : (initialized words limit initial).Holds limit initial where
  denotes := by
    rw [number, initialized, positional_succ, positional_zero, digit]
    dsimp only
    rw [Function.update_self, BitVec.toNat_ofNat, Nat.mod_eq_of_lt small]
    ring
  limited := rfl
  positive := le_rfl
  within := room
  leading := .inl rfl

/-! ## Products -/

theorem product_eq {word : Nat} (small : word < 2 ^ 32) (factorSmall : factor < 2 ^ 32) {carry : Nat}
    (carrySmall : carry < 2 ^ 32) :
    wrapAdd (word * factor % wordLimit) carry = word * factor + carry ∧
      (word * factor + carry) / 2 ^ 32 < 2 ^ 32 := by
  have bound : word * factor ≤ (2 ^ 32 - 1) * (2 ^ 32 - 1) :=
    Nat.mul_le_mul (Nat.le_pred_of_lt small) (Nat.le_pred_of_lt factorSmall)
  constructor
  · rw [wrapAdd, wordLimit, Nat.mod_eq_of_lt (by omega), Nat.mod_eq_of_lt (by omega)]
  · rw [Nat.div_lt_iff_lt_mul (by norm_num)]
    omega

/-- The loop of a product stores the low words and has the highest one as its carry. -/
theorem multiplyFrom_spec (factorSmall : factor < 2 ^ 32) {original : Nat → Nat} {count : Nat} :
    ∀ (ahead : Nat) (value : FloatUint) (index carry : Nat), index + ahead = count →
      carry < 2 ^ 32 → (∀ later, index ≤ later → value.digit later = original later) →
      positional (2 ^ 32) value.digit index + carry * (2 ^ 32) ^ index =
        positional (2 ^ 32) original index * factor + addend →
      ∃ (after : FloatUint) (last : Nat),
        multiplyFrom factor count ahead value index carry = after.finishCarry count last ∧
        after.count = value.count ∧ after.capacity = value.capacity ∧ last < 2 ^ 32 ∧
        positional (2 ^ 32) after.digit count + last * (2 ^ 32) ^ count =
          positional (2 ^ 32) original count * factor + addend := by
  intro ahead
  induction ahead with
  | zero =>
      rintro value index carry rfl carrySmall - product
      exact ⟨value, carry, rfl, rfl, rfl, carrySmall, product⟩
  | succ ahead ih =>
      intro value index carry reached carrySmall same product
      obtain ⟨exactly, nextSmall⟩ := product_eq (value.digit_lt index) factorSmall carrySmall
      have step := @carry_digit (2 ^ 32) _ _ _ (value.digit index * factor) index product
      rw [multiplyFrom, ← digit, exactly, Nat.shiftRight_eq_div_pow]
      obtain ⟨after, last, run, counted, held, small, final⟩ := ih
        (value.storeWord index (value.digit index * factor + carry)) (index + 1)
        ((value.digit index * factor + carry) / 2 ^ 32) (by omega) nextSmall
        (fun later after => by
          rw [digit_storeWord_of_ne _ (by omega), same later (by omega)])
        (by
          rw [positional_succ, positional_storeWord, digit_storeWord, step, positional_succ,
            same index le_rfl]
          ring)
      exact ⟨after, last, run, counted, held, small, final⟩

/-- A product with a sum that fits is exact. -/
theorem Holds.multiplyAdd (holds : value.Holds limit total) (positive : 0 < factor)
    (factorSmall : factor < 2 ^ 32) (addendSmall : addend < 2 ^ 32)
    (fits : total * factor + addend < 2 ^ (32 * limit)) :
    (value.multiplyAdd factor addend).1 = true ∧
      (value.multiplyAdd factor addend).2.Holds limit (total * factor + addend) := by
  obtain ⟨after, last, run, counted, held, small, final⟩ :=
    @multiplyFrom_spec addend factor factorSmall value.digit value.count value.count value 0 addend
      (Nat.zero_add _) addendSmall (fun _ _ => rfl) (by simp)
  have whole : positional (2 ^ 32) value.digit value.count = total := holds.denotes
  rw [whole] at final
  rw [FloatUint.multiplyAdd, run, finishCarry]
  by_cases zero : last = 0
  · rw [if_pos zero]
    rw [zero, Nat.zero_mul, Nat.add_zero] at final
    refine ⟨rfl, ?_, held.trans holds.limited, counted ▸ holds.positive,
      counted ▸ holds.within, ?_⟩
    · rw [number, counted, final]
    · by_cases single : value.count = 1
      · exact .inl (counted.trans single)
      · refine .inr fun none => ?_
        -- otherwise the product would be smaller than the factor it multiplies
        have above := holds.le single
        have top : positional (2 ^ 32) after.digit value.count < (2 ^ 32) ^ (value.count - 1) := by
          have split := positional_succ (2 ^ 32) after.digit (value.count - 1)
          rw [counted] at none
          rw [Nat.sub_add_cancel holds.positive, digit, none, BitVec.toNat_zero, Nat.zero_mul,
            Nat.add_zero] at split
          rw [split]
          exact positional_lt after.digit_lt _
        rw [final, ← pow_mul] at top
        have grows : total ≤ total * factor := Nat.le_mul_of_pos_right _ positive
        omega
  · rw [if_neg zero]
    have room : value.count ≠ limit := by
      intro full
      have weight : (2 ^ 32) ^ limit ≤ last * (2 ^ 32) ^ limit :=
        Nat.le_mul_of_pos_left _ (Nat.pos_of_ne_zero zero)
      rw [full] at final
      rw [pow_mul] at fits
      omega
    rw [if_neg (by rw [held, holds.limited]; exact room)]
    refine ⟨rfl, ?_, held.trans holds.limited, Nat.le_add_left 1 _,
      Nat.succ_le_of_lt (holds.within.lt_of_ne room), .inr ?_⟩
    · change positional (2 ^ 32) (after.storeWord value.count last).digit (value.count + 1) = _
      rw [positional_succ, positional_storeWord, digit_storeWord, Nat.mod_eq_of_lt small, final]
    · intro none
      have stored := @digit_storeWord after value.count last
      change ((after.storeWord value.count last).words value.count) = 0#32 at none
      rw [digit, none, Nat.mod_eq_of_lt small] at stored
      exact zero stored.symm

theorem Holds.multiplyTimes (positive : 0 < factor) (factorSmall : factor < 2 ^ 32) :
    ∀ (times : Nat) {value : FloatUint} {total : Nat}, value.Holds limit total →
      total * factor ^ times < 2 ^ (32 * limit) →
      (value.multiplyTimes factor times).1 = true ∧
        (value.multiplyTimes factor times).2.Holds limit (total * factor ^ times) := by
  intro times
  induction times with
  | zero =>
      intro value total holds fits
      rw [pow_zero, Nat.mul_one]
      exact ⟨rfl, holds⟩
  | succ times ih =>
      intro value total holds fits
      have next : total * factor ^ (times + 1) = (total * factor + 0) * factor ^ times := by
        rw [pow_succ]
        ring
      have smaller : total * factor + 0 ≤ (total * factor + 0) * factor ^ times :=
        Nat.le_mul_of_pos_right _ (by positivity)
      rw [next] at fits ⊢
      obtain ⟨done, multiplied⟩ :=
        holds.multiplyAdd positive factorSmall (by norm_num) (smaller.trans_lt fits)
      rw [FloatUint.multiplyTimes]
      dsimp only
      rw [if_pos done]
      exact ih multiplied fits

theorem Holds.powerFive (holds : value.Holds limit total) {exponent : Nat}
    (fits : total * 5 ^ exponent < 2 ^ (32 * limit)) :
    (value.powerFive exponent).1 = true ∧
      (value.powerFive exponent).2.Holds limit (total * 5 ^ exponent) :=
  Holds.multiplyTimes (by norm_num) (by norm_num) exponent holds fits

theorem Holds.shift (holds : value.Holds limit total) {bits : Nat}
    (fits : total * 2 ^ bits < 2 ^ (32 * limit)) :
    (value.shift bits).2.Holds limit (total * 2 ^ bits) :=
  (Holds.multiplyTimes (by norm_num) (by norm_num) bits holds fits).2

/-! ## Comparison -/

theorem compareFrom_eq (left right : FloatUint) : ∀ count, compareFrom left right count =
    Ord.compare (positional (2 ^ 32) left.digit count) (positional (2 ^ 32) right.digit count) := by
  intro count
  induction count with
  | zero => exact (Nat.compare_eq_eq.mpr rfl).symm
  | succ index ih =>
      rw [compareFrom]
      split
      · rename_i less
        exact (Nat.compare_eq_lt.mpr (positional_lt_of_top left.digit_lt less)).symm
      · split
        · rename_i greater
          exact (Nat.compare_eq_gt.mpr (positional_lt_of_top right.digit_lt greater)).symm
        · rename_i notLess notGreater
          have same : left.digit index = right.digit index :=
            Nat.le_antisymm (Nat.not_lt.mp notGreater) (Nat.not_lt.mp notLess)
          rw [ih, positional_succ, positional_succ, same]
          simp only [Nat.compare_eq_ite_lt, Nat.add_lt_add_iff_right]

/-- Of two integers in use the one with fewer words is the smaller one. -/
theorem Holds.lt_of_count {other : Nat} (holds : left.Holds limit total)
    (also : right.Holds limit other) (fewer : left.count < right.count) : total < other := by
  have low := positional_lt left.digit_lt left.count
  have positive := holds.positive
  have high := also.le (by omega)
  have between : (2 ^ 32) ^ left.count ≤ 2 ^ (32 * (right.count - 1)) := by
    rw [pow_mul]
    exact Nat.pow_le_pow_right (by norm_num) (by omega)
  rw [← holds.denotes]
  exact low.trans_le (between.trans high)

theorem Holds.compare {other : Nat} (holds : left.Holds limit total)
    (also : right.Holds limit other) : left.compare right = Ord.compare total other := by
  rw [FloatUint.compare]
  split
  · rename_i fewer
    exact (Nat.compare_eq_lt.mpr (holds.lt_of_count also fewer)).symm
  · split
    · rename_i more
      exact (Nat.compare_eq_gt.mpr (also.lt_of_count holds more)).symm
    · rename_i notFewer notMore
      have same : left.count = right.count := by omega
      rw [compareFrom_eq, ← holds.denotes, ← also.denotes, number, number, same]

/-! ## Differences -/

/-- Leading zeros do not count. -/
theorem trim_holds (limited : value.capacity = limit) : ∀ {last : Nat}, last + 1 ≤ limit →
    positional (2 ^ 32) value.digit (last + 1) = total → (value.trim last).Holds limit total := by
  intro last
  induction last with
  | zero =>
      intro room denotes
      exact ⟨denotes, limited, le_rfl, room, .inl rfl⟩
  | succ last ih =>
      intro room denotes
      rw [trim]
      by_cases zero : value.words (last + 1) = 0#32
      · rw [if_pos zero]
        refine ih (by omega) ?_
        rw [positional_succ, digit, zero, BitVec.toNat_zero, Nat.zero_mul, Nat.add_zero] at denotes
        exact denotes
      · rw [if_neg zero]
        exact ⟨denotes, limited, Nat.le_add_left 1 _, room, .inr zero⟩

/-- The digits of an integer, and zeros behind them. -/
def extended (value : FloatUint) (index : Nat) : Nat :=
  if index < value.count then value.digit index else 0

theorem positional_extended (value : FloatUint) : ∀ {count : Nat}, value.count ≤ count →
    positional (2 ^ 32) value.extended count = value.number := by
  intro count
  induction count with
  | zero =>
      intro few
      rw [number, Nat.le_zero.mp few]
      rfl
  | succ count ih =>
      intro few
      by_cases full : value.count = count + 1
      · rw [number, full]
        exact positional_congr fun index below => if_pos (by omega)
      · rw [positional_succ, ih (by omega), extended, if_neg (by omega)]
        ring

theorem difference_eq {minuend subtrahend : Nat} (small : minuend < 2 ^ 32)
    (bound : subtrahend ≤ 2 ^ 32) :
    wrapSub minuend subtrahend % 2 ^ 32 + subtrahend =
      minuend + (if minuend < subtrahend then 1 else 0) * 2 ^ 32 := by
  rw [wrapSub, wordLimit]
  split <;> omega

/-- The loop of a difference borrows from the words that are still to come. -/
theorem subtractFrom_spec {original : Nat → Nat} {count : Nat} :
    ∀ (ahead : Nat) (left : FloatUint) (index borrow : Nat), index + ahead = count →
      borrow ≤ 1 → (∀ later, index ≤ later → left.digit later = original later) →
      positional (2 ^ 32) left.digit index + positional (2 ^ 32) right.extended index =
        positional (2 ^ 32) original index + borrow * (2 ^ 32) ^ index →
      ∃ (after : FloatUint) (last : Nat),
        subtractFrom right count ahead left index borrow = after.trim (count - 1) ∧
        after.capacity = left.capacity ∧
        positional (2 ^ 32) after.digit count + positional (2 ^ 32) right.extended count =
          positional (2 ^ 32) original count + last * (2 ^ 32) ^ count := by
  intro ahead
  induction ahead with
  | zero =>
      rintro left index borrow rfl - - difference
      exact ⟨left, borrow, rfl, rfl, difference⟩
  | succ ahead ih =>
      intro left index borrow reached single same difference
      have word : right.extended index < 2 ^ 32 := by
        rw [extended]
        split
        · exact right.digit_lt index
        · norm_num
      have sum : wrapAdd (right.extended index) borrow = right.extended index + borrow := by
        rw [wrapAdd, wordLimit]
        omega
      have exactly := @difference_eq (left.digit index) (right.extended index + borrow)
        (left.digit_lt index) (by omega)
      rw [subtractFrom, ← digit, ← digit, ← extended, sum]
      obtain ⟨after, last, run, held, final⟩ := ih
        (left.storeWord index (wrapSub (left.digit index) (right.extended index + borrow)))
        (index + 1) (if left.digit index < right.extended index + borrow then 1 else 0) (by omega)
        (by split <;> norm_num)
        (fun later after => by
          rw [digit_storeWord_of_ne _ (by omega), same later (by omega)])
        (by
          rw [positional_succ, positional_storeWord, digit_storeWord, positional_succ,
            positional_succ, ← same index le_rfl, pow_succ]
          linear_combination difference + (2 ^ 32) ^ index * exactly)
      exact ⟨after, last, run, held, final⟩

theorem Holds.subtract {other : Nat} (holds : left.Holds limit total)
    (also : right.Holds limit other) (enough : other ≤ total) :
    (left.subtract right).Holds limit (total - other) := by
  obtain ⟨after, last, run, held, final⟩ :=
    @subtractFrom_spec right left.digit left.count left.count left 0 0 (Nat.zero_add _)
      (Nat.zero_le _) (fun _ _ => rfl) (by simp)
  have fewer : right.count ≤ left.count := by
    by_contra more
    have less := holds.lt_of_count also (Nat.not_le.mp more)
    omega
  have minuend : positional (2 ^ 32) left.digit left.count = total := holds.denotes
  have subtrahend : positional (2 ^ 32) right.extended left.count = other := by
    rw [right.positional_extended fewer]
    exact also.denotes
  have bound := positional_lt after.digit_lt left.count
  rw [minuend, subtrahend] at final
  have settled : last = 0 := by
    by_contra positive
    have weight : (2 ^ 32) ^ left.count ≤ last * (2 ^ 32) ^ left.count :=
      Nat.le_mul_of_pos_left _ (Nat.pos_of_ne_zero positive)
    omega
  rw [settled] at final
  rw [FloatUint.subtract, run]
  refine trim_holds (held.trans holds.limited) ?_ ?_
  · rw [Nat.sub_add_cancel holds.positive]
    exact holds.within
  · rw [Nat.sub_add_cancel holds.positive]
    omega

end FloatUint

/-! ## Bits -/

theorem size_half {value : Nat} (positive : value ≠ 0) : Nat.size value = Nat.size (value / 2) + 1 := by
  refine Nat.le_antisymm ?_ ?_
  · have half := Nat.lt_size_self (value / 2)
    rw [Nat.size_le, pow_succ]
    omega
  · rw [Nat.succ_le_iff, Nat.lt_size]
    by_cases one : value / 2 = 0
    · rw [one, Nat.size_zero, pow_zero]
      exact Nat.pos_of_ne_zero positive
    · have above : 2 ^ (Nat.size (value / 2) - 1) ≤ value / 2 :=
        Nat.lt_size.mp (Nat.sub_lt (Nat.size_pos.mpr (Nat.pos_of_ne_zero one)) Nat.one_pos)
      have split : 2 ^ Nat.size (value / 2) = 2 ^ (Nat.size (value / 2) - 1) * 2 := by
        rw [← pow_succ, Nat.sub_add_cancel (Nat.size_pos.mpr (Nat.pos_of_ne_zero one))]
      omega

theorem floatWordBits_eq : ∀ (shifts value bits : Nat), Nat.size value ≤ shifts →
    bits + shifts < 2 ^ 32 → floatWordBits shifts value bits = bits + Nat.size value := by
  intro shifts
  induction shifts with
  | zero =>
      intro value bits few _
      rw [floatWordBits, Nat.le_zero.mp few, Nat.add_zero]
  | succ shifts ih =>
      intro value bits few small
      rw [floatWordBits]
      by_cases zero : value = 0
      · rw [if_pos zero, zero, Nat.size_zero, Nat.add_zero]
      · have half := size_half zero
        rw [if_neg zero, Nat.shiftRight_eq_div_pow, pow_one, Nat.mod_eq_of_lt (by omega),
          ih _ _ (by omega) (by omega)]
        omega

/-- The number of bits is found exactly. -/
theorem FloatUint.Holds.bits {value : FloatUint} {limit total : Nat}
    (holds : value.Holds limit total) (small : Nat.size total ≤ 4096) :
    value.bits = Nat.size total := by
  have top := value.digit_lt (value.count - 1)
  have low := positional_lt value.digit_lt (value.count - 1)
  have split := positional_succ (2 ^ 32) value.digit (value.count - 1)
  rw [Nat.sub_add_cancel holds.positive] at split
  have whole : positional (2 ^ 32) value.digit value.count = total := holds.denotes
  rw [whole] at split
  have word : Nat.size (value.digit (value.count - 1)) ≤ 32 := Nat.size_le.mpr top
  have few : value.count ≤ 128 := by
    by_contra many
    have above := Nat.lt_size.mpr (holds.le (by omega))
    omega
  have exactly : Nat.size total = 32 * (value.count - 1) +
      Nat.size (value.digit (value.count - 1)) := by
    rw [← pow_mul] at split low
    refine Nat.le_antisymm ?_ ?_
    · have digit := Nat.lt_size_self (value.digit (value.count - 1))
      rw [Nat.size_le, pow_add]
      have next : (value.digit (value.count - 1) + 1) * 2 ^ (32 * (value.count - 1)) ≤
          2 ^ Nat.size (value.digit (value.count - 1)) * 2 ^ (32 * (value.count - 1)) :=
        Nat.mul_le_mul_right _ digit
      rw [Nat.add_mul, Nat.one_mul] at next
      rw [Nat.mul_comm (2 ^ (32 * (value.count - 1)))]
      omega
    · by_cases zero : value.digit (value.count - 1) = 0
      · have single : value.count = 1 :=
          holds.leading.resolve_right (not_not.mpr (BitVec.eq_of_toNat_eq zero))
        rw [zero, Nat.size_zero, single]
        exact Nat.zero_le _
      · have positive := Nat.size_pos.mpr (Nat.pos_of_ne_zero zero)
        have digit : 2 ^ (Nat.size (value.digit (value.count - 1)) - 1) ≤
            value.digit (value.count - 1) := Nat.lt_size.mp (Nat.sub_lt positive Nat.one_pos)
        have lower : 2 ^ (Nat.size (value.digit (value.count - 1)) - 1) *
            2 ^ (32 * (value.count - 1)) ≤
              value.digit (value.count - 1) * 2 ^ (32 * (value.count - 1)) :=
          Nat.mul_le_mul_right _ digit
        have reached : 32 * (value.count - 1) + (Nat.size (value.digit (value.count - 1)) - 1) <
            Nat.size total := by
          rw [Nat.lt_size, pow_add, Nat.mul_comm]
          omega
        omega
  rw [FloatUint.bits, exactly, ← FloatUint.digit, floatWordBits_eq 64 _ 0 (by omega) (by norm_num)]
  omega

theorem floatShiftLeft_eq : ∀ (count value : Nat), value * 2 ^ count < wordLimit →
    floatShiftLeft value count = value * 2 ^ count := by
  intro count
  induction count with
  | zero =>
      intro value _
      rw [floatShiftLeft, pow_zero, Nat.mul_one]
  | succ count ih =>
      intro value fits
      have next : value * 2 ^ (count + 1) = value * 2 * 2 ^ count := by
        rw [pow_succ]
        ring
      have smaller : value * 2 ≤ value * 2 * 2 ^ count :=
        Nat.le_mul_of_pos_right _ (by positivity)
      rw [next] at fits ⊢
      rw [floatShiftLeft, Nat.mod_eq_of_lt (smaller.trans_lt fits)]
      exact ih _ fits

end Native
