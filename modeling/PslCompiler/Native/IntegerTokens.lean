import Mathlib.Tactic
import PslCompiler.Native.Layout

/-! # Integer tokens

The compiler reads an integer from the bytes of a token: a sign, a radix mark, and digits. The
magnitude is a machine word, and reading stops with its own result when the digits exceed it. Then
the sign and the radix of the token are stored, but no magnitude (`parseIntegerToken_token`).
-/

namespace Native

/-- `psl_parsed_integer`. -/
structure ParsedInteger where
  magnitude : Nat := 0
  negative : Bool := false
  radix : Nat := 10
  deriving DecidableEq, Repr, Inhabited

/-- The results 0, 1 and 2 of reading an integer. -/
inductive IntegerResult
  | notInteger | value | overflow
  deriving DecidableEq, Repr

/-! ## Reading -/

def integerDigit (byte : UInt8) : UInt8 :=
  if byte < 48 then 255
  else if byte < 58 then byte - 48
  else if byte < 65 then 255
  else if byte < 71 then byte - 55
  else if byte < 97 then 255
  else if byte < 103 then byte - 87
  else 255

/-- The radix that the bytes before an end announce, and 0 for an unknown mark. -/
def integerRadix (data : Nat → UInt8) (index finish : Nat) : Nat :=
  if index + 1 < finish then
    if data index = 35 then
      let letter := data (index + 1) &&& 223
      if letter = 88 then 16
      else if letter = 66 then 2
      else if letter = 79 then 8
      else if letter = 68 then 10
      else 0
    else 10
  else 10

def radixLimit (radix : Nat) : Nat :=
  if radix = 2 then 9223372036854775807
  else if radix = 8 then 2305843009213693951
  else if radix = 10 then 1844674407370955161
  else 1152921504606846975

def radixRemainder (radix : Nat) : Nat :=
  if radix = 10 then 5 else radix - 1

def integerOverflowsP (value digit radix : Nat) : Bool :=
  let limit := radixLimit radix
  if limit < value then true
  else if limit = value then if radixRemainder radix < digit then true else false
  else false

/-- Read digits up to an end, which is some number of bytes ahead. -/
def parseDigits (data : Nat → UInt8) (radix : Nat) :
    Nat → Nat → Nat → ParsedInteger → IntegerResult × ParsedInteger
  | 0, _, value, output => (.value, { output with magnitude := value })
  | ahead + 1, index, value, output =>
      let digit := (integerDigit (data index)).toNat
      if digit < radix then
        if integerOverflowsP value digit radix then (.overflow, output)
        else
          parseDigits data radix ahead (index + 1)
            (wrapAdd (value * radix % wordLimit) digit) output
      else (.notInteger, output)

/-- After a number sign alone the digits begin beyond the end, which is then almost the whole
address space ahead. -/
def parseIntegerBody (data : Nat → UInt8) (digits finish : Nat) (negative : Bool)
    (output : ParsedInteger) : IntegerResult × ParsedInteger :=
  if digits = finish then (.notInteger, output)
  else
    let radix := integerRadix data digits finish
    if radix = 0 then (.notInteger, output)
    else
      let start := if data digits = 35 then digits + 2 else digits
      if start = finish then (.notInteger, output)
      else
        parseDigits data radix (if start ≤ finish then finish - start else wordLimit - (start - finish))
          start 0 { output with negative := negative, radix := radix }

def parseIntegerToken (data : Nat → UInt8) (start length : Nat) (output : ParsedInteger) :
    IntegerResult × ParsedInteger :=
  if length = 0 then (.notInteger, output)
  else
    let first := data start
    parseIntegerBody data (if first = 43 then start + 1 else if first = 45 then start + 1 else start)
      (start + length) (first = 45) output

/-! ## Tokens -/

/-- A radix mark: none, or a number sign and a letter. -/
inductive RadixMark
  | none | hexadecimal | binary | octal | decimal
  deriving DecidableEq, Repr

def RadixMark.radix : RadixMark → Nat
  | .hexadecimal => 16
  | .binary => 2
  | .octal => 8
  | .none | .decimal => 10

/-- The bytes of a mark, with a capital letter or a small one. -/
def RadixMark.bytes (mark : RadixMark) (capital : Bool) : List UInt8 :=
  match mark with
  | .none => []
  | .hexadecimal => [35, if capital then 88 else 120]
  | .binary => [35, if capital then 66 else 98]
  | .octal => [35, if capital then 79 else 111]
  | .decimal => [35, if capital then 68 else 100]

/-- The byte of a digit; the digits from ten on are capital or small letters. -/
def digitByte (digit : Nat) (capital : Bool) : UInt8 :=
  UInt8.ofNat (if digit < 10 then 48 + digit else if capital then 55 + digit else 87 + digit)

inductive Sign
  | none | plus | minus
  deriving DecidableEq, Repr

def Sign.bytes : Sign → List UInt8
  | .none => []
  | .plus => [43]
  | .minus => [45]

/-- A token that denotes an integer, of any sign, radix and number of digits. -/
structure IntegerToken where
  sign : Sign
  mark : RadixMark
  capitalMark : Bool
  digits : List (Nat × Bool)
  nonempty : digits ≠ []
  valid : ∀ digit ∈ digits, digit.1 < mark.radix

namespace IntegerToken

def bytes (token : IntegerToken) : List UInt8 :=
  token.sign.bytes ++ token.mark.bytes token.capitalMark ++
    token.digits.map fun digit => digitByte digit.1 digit.2

/-- The value of digits after others. -/
def digitsValue (radix : Nat) : Nat → List (Nat × Bool) → Nat
  | value, [] => value
  | value, digit :: rest => digitsValue radix (value * radix + digit.1) rest

def magnitude (token : IntegerToken) : Nat :=
  digitsValue token.mark.radix 0 token.digits

def value (token : IntegerToken) : Int :=
  if token.sign = .minus then -token.magnitude else token.magnitude

end IntegerToken

/-- The bytes stand at a position. -/
def BytesAt (data : Nat → UInt8) (start : Nat) (bytes : List UInt8) : Prop :=
  ∀ index, (inside : index < bytes.length) → data (start + index) = bytes[index]

/-! ## What reading finds -/

section Digits

variable {data : Nat → UInt8} {mark : RadixMark}

theorem integerDigit_digitByte {digit : Nat} (small : digit < 16) (capital : Bool) :
    (integerDigit (digitByte digit capital)).toNat = digit := by
  interval_cases digit <;> cases capital <;> decide

theorem radix_le (mark : RadixMark) : mark.radix ≤ 16 := by
  cases mark <;> decide

theorem radix_pos (mark : RadixMark) : 2 ≤ mark.radix := by
  cases mark <;> decide

/-- The check finds exactly the digits that would exceed a word. -/
theorem integerOverflowsP_iff {value digit : Nat} (small : digit < mark.radix) :
    integerOverflowsP value digit mark.radix = true ↔ wordLimit ≤ value * mark.radix + digit := by
  unfold integerOverflowsP radixLimit radixRemainder wordLimit
  cases mark <;> simp only [RadixMark.radix] at small ⊢ <;> norm_num <;> omega

theorem BytesAt.append {start : Nat} {first second : List UInt8}
    (stands : BytesAt data start (first ++ second)) :
    BytesAt data start first ∧ BytesAt data (start + first.length) second := by
  constructor
  · intro index inside
    rw [stands index (by rw [List.length_append]; omega), List.getElem_append_left inside]
  · intro index inside
    rw [Nat.add_assoc, stands (first.length + index) (by rw [List.length_append]; omega),
      List.getElem_append_right (by omega)]
    congr 1
    omega

theorem le_digitsValue (radix : Nat) (positive : 0 < radix) (digits : List (Nat × Bool))
    (value : Nat) : value ≤ IntegerToken.digitsValue radix value digits := by
  induction digits generalizing value with
  | nil => exact Nat.le_refl _
  | cons digit rest ih =>
      have grows : value ≤ value * radix + digit.1 :=
        (Nat.le_mul_of_pos_right value positive).trans (Nat.le_add_right _ _)
      exact grows.trans (ih _)

/-- Digits are read to their value, unless it exceeds a word. -/
theorem parseDigits_digits {digits : List (Nat × Bool)} (valid : ∀ digit ∈ digits, digit.1 < mark.radix)
    {start value : Nat} (output : ParsedInteger) (below : value < wordLimit)
    (stands : BytesAt data start (digits.map fun digit => digitByte digit.1 digit.2)) :
    parseDigits data mark.radix digits.length start value output =
      if IntegerToken.digitsValue mark.radix value digits < wordLimit then
        (.value, { output with magnitude := IntegerToken.digitsValue mark.radix value digits })
      else (.overflow, output) := by
  induction digits generalizing start value with
  | nil => rw [List.length_nil, parseDigits, IntegerToken.digitsValue, if_pos below]
  | cons digit rest ih =>
      have small := valid digit List.mem_cons_self
      have first : data start = digitByte digit.1 digit.2 :=
        stands 0 (by rw [List.length_map, List.length_cons]; omega)
      have others : BytesAt data (start + 1) (rest.map fun digit => digitByte digit.1 digit.2) :=
        (@BytesAt.append data start [digitByte digit.1 digit.2] _ stands).2
      rw [List.length_cons, parseDigits, first,
        integerDigit_digitByte (small.trans_le (radix_le mark)), if_pos small,
        IntegerToken.digitsValue]
      by_cases overflows : wordLimit ≤ value * mark.radix + digit.1
      · have larger := le_digitsValue mark.radix (by have := radix_pos mark; omega) rest
          (value * mark.radix + digit.1)
        rw [if_pos ((integerOverflowsP_iff small).mpr overflows), if_neg (by omega)]
      · have next : wrapAdd (value * mark.radix % wordLimit) digit.1 =
            value * mark.radix + digit.1 := by
          rw [wrapAdd, Nat.mod_eq_of_lt (show value * mark.radix < wordLimit by omega),
            Nat.mod_eq_of_lt (by omega)]
        rw [if_neg (fun found => overflows ((integerOverflowsP_iff small).mp found)), next]
        exact ih (fun digit member => valid digit (List.mem_cons_of_mem _ member)) (by omega) others

end Digits

section Token

variable {data : Nat → UInt8} (token : IntegerToken)

/-- A digit is neither a number sign nor a sign. -/
theorem digitByte_ne {digit : Nat} (small : digit < 16) (capital : Bool) :
    digitByte digit capital ≠ 35 ∧ digitByte digit capital ≠ 43 ∧ digitByte digit capital ≠ 45 := by
  interval_cases digit <;> cases capital <;> decide

theorem RadixMark.bytes_length (mark : RadixMark) (capital : Bool) :
    (mark.bytes capital).length = if mark = .none then 0 else 2 := by
  cases mark <;> rfl

theorem RadixMark.first_byte (mark : RadixMark) (capital : Bool)
    (inside : 0 < (mark.bytes capital).length) : (mark.bytes capital)[0] = 35 := by
  cases mark with
  | none => exact absurd inside (Nat.lt_irrefl 0)
  | _ => rfl

/-- The letter of a mark announces its radix. -/
theorem RadixMark.second_byte (mark : RadixMark) (capital : Bool)
    (inside : 1 < (mark.bytes capital).length) :
    (let letter := (mark.bytes capital)[1] &&& 223
      if letter = 88 then 16 else if letter = 66 then 2 else if letter = 79 then 8
      else if letter = 68 then 10 else 0) = mark.radix := by
  cases mark with
  | none => exact absurd inside (Nat.not_lt_zero 1)
  | _ =>
      revert inside
      cases capital <;> decide

/-- The first byte of the digits of a token. -/
theorem IntegerToken.first_digit {start : Nat} (stands : BytesAt data start
    (token.digits.map fun digit => digitByte digit.1 digit.2)) :
    data start ≠ 35 ∧ data start ≠ 43 ∧ data start ≠ 45 := by
  have positive := List.length_pos_of_ne_nil token.nonempty
  have first : data start = digitByte token.digits[0].1 token.digits[0].2 := by
    have found := stands 0 (by rw [List.length_map]; exact positive)
    rw [List.getElem_map] at found
    exact found
  rw [first]
  exact digitByte_ne ((token.valid _ (List.getElem_mem positive)).trans_le (radix_le token.mark)) _

/-- The mark of a token is found, and the digits begin after it. -/
theorem IntegerToken.radix_found {start : Nat} (stands : BytesAt data start
    (token.mark.bytes token.capitalMark ++
      token.digits.map fun digit => digitByte digit.1 digit.2)) :
    integerRadix data start (start + (token.mark.bytes token.capitalMark).length +
        token.digits.length) = token.mark.radix ∧
      (if data start = 35 then start + 2 else start) =
        start + (token.mark.bytes token.capitalMark).length := by
  have positive := List.length_pos_of_ne_nil token.nonempty
  obtain ⟨marked, digits⟩ := stands.append
  by_cases plain : token.mark = .none
  · rw [plain] at digits ⊢
    have first := (token.first_digit digits).1
    change data start ≠ 35 at first
    unfold integerRadix
    rw [if_neg first, if_neg first, ite_self]
    exact ⟨rfl, rfl⟩
  · have two : (token.mark.bytes token.capitalMark).length = 2 := by
      rw [RadixMark.bytes_length, if_neg plain]
    have first : data start = 35 := by
      rw [← Nat.add_zero start, marked 0 (by omega)]
      exact token.mark.first_byte token.capitalMark (by omega)
    have second := marked 1 (by omega)
    unfold integerRadix
    rw [two, if_pos (by omega), if_pos first, if_pos first, second]
    exact ⟨token.mark.second_byte token.capitalMark (by omega), rfl⟩

/-- What reading a token stores and returns. -/
def IntegerToken.parsed (output : ParsedInteger) : IntegerResult × ParsedInteger :=
  if token.magnitude < wordLimit then
    (.value, { magnitude := token.magnitude, negative := token.sign = .minus
               radix := token.mark.radix })
  else (.overflow, { output with negative := token.sign = .minus, radix := token.mark.radix })

theorem parseIntegerBody_token {start : Nat} (output : ParsedInteger) (stands : BytesAt data start
    (token.mark.bytes token.capitalMark ++
      token.digits.map fun digit => digitByte digit.1 digit.2)) :
    parseIntegerBody data start (start + (token.mark.bytes token.capitalMark).length +
        token.digits.length) (token.sign = .minus) output = token.parsed output := by
  have positive := List.length_pos_of_ne_nil token.nonempty
  obtain ⟨radix, begins⟩ := token.radix_found stands
  have known := radix_pos token.mark
  unfold parseIntegerBody
  dsimp only
  rw [if_neg (by omega), radix, if_neg (by omega), begins, if_neg (by omega), if_pos (by omega),
    Nat.add_sub_cancel_left, parseDigits_digits token.valid _ (by decide) stands.append.2]
  rfl

/-- A token is read to its magnitude, sign and radix when the magnitude is a machine word.
Otherwise only the sign and the radix are stored. -/
theorem parseIntegerToken_token {start : Nat} (output : ParsedInteger)
    (stands : BytesAt data start token.bytes) :
    parseIntegerToken data start token.bytes.length output = token.parsed output := by
  have positive := List.length_pos_of_ne_nil token.nonempty
  have length : token.bytes.length = token.sign.bytes.length +
      (token.mark.bytes token.capitalMark).length + token.digits.length := by
    rw [IntegerToken.bytes, List.length_append, List.length_append, List.length_map]
  rw [IntegerToken.bytes, List.append_assoc] at stands
  obtain ⟨signed, rest⟩ := stands.append
  have body := parseIntegerBody_token token output rest
  rw [parseIntegerToken, if_neg (by omega), length]
  dsimp only
  cases sign : token.sign with
  | none =>
      have first : data start ≠ 43 ∧ data start ≠ 45 := by
        rw [sign] at rest
        change BytesAt data start _ at rest
        by_cases plain : token.mark = .none
        · have digits := rest.append.2
          rw [plain] at digits
          exact (token.first_digit digits).2
        · have marked := (token.radix_found rest).2
          have two : (token.mark.bytes token.capitalMark).length = 2 := by
            rw [RadixMark.bytes_length, if_neg plain]
          have isMark : data start = 35 := by
            by_contra other
            rw [if_neg other] at marked
            omega
          rw [isMark]
          decide
      rw [sign] at body
      rw [if_neg first.1, if_neg first.2, decide_eq_false first.2,
        show Sign.none.bytes.length = 0 from rfl, Nat.zero_add, ← Nat.add_assoc]
      exact body
  | plus =>
      rw [sign] at signed rest body
      have first : data start = 43 := signed 0 (by decide)
      rw [if_pos first, first, show Sign.plus.bytes.length = 1 from rfl, ← Nat.add_assoc,
        ← Nat.add_assoc]
      exact body
  | minus =>
      rw [sign] at signed rest body
      have first : data start = 45 := signed 0 (by decide)
      rw [first, show Sign.minus.bytes.length = 1 from rfl, ← Nat.add_assoc, ← Nat.add_assoc]
      exact body

end Token

end Native
