import PslCompiler.Native.FloatRounding

/-! # Decimal literals

What the tokens that are decimal literals look like, what they denote, and how the reader takes
their digits, their point and their exponent one byte after another.
-/

namespace Native

open Numbers

/-! ## Digits -/

def decimalByte (digit : Fin 10) : UInt8 := UInt8.ofNat (48 + digit)

/-- The digit that a byte is, or none. -/
def decimalDigit (byte : UInt8) : Option (Fin 10) :=
  if small : byte.toNat - 48 < 10 then if 48 ≤ byte.toNat then some ⟨byte.toNat - 48, small⟩ else none
  else none

theorem decimalDigit_eq_some {byte : UInt8} {digit : Fin 10} :
    decimalDigit byte = some digit ↔ byte = decimalByte digit := by
  have bound := digit.isLt
  have word : (decimalByte digit).toNat = 48 + digit := by
    rw [decimalByte, UInt8.toNat_ofNat']
    omega
  rw [decimalDigit]
  constructor
  · intro found
    split at found
    · split at found
      · have value := congrArg Fin.val (Option.some.inj found)
        dsimp only at value
        apply UInt8.toNat_inj.mp
        omega
      · cases found
    · cases found
  · rintro rfl
    rw [dif_pos (by omega), if_pos (by omega)]
    congr 1
    apply Fin.ext
    dsimp only
    omega

theorem floatDecimalDigit_iff {byte : UInt8} :
    floatDecimalDigit byte = true ↔ ∃ digit, decimalDigit byte = some digit := by
  have word := byte.toNat_lt
  rw [floatDecimalDigit]
  constructor
  · intro isDigit
    split at isDigit
    · cases isDigit
    · rename_i notBelow
      split at isDigit
      · rename_i below
        rw [UInt8.lt_iff_toNat_lt] at notBelow below
        change ¬byte.toNat < 48 at notBelow
        change byte.toNat < 58 at below
        exact ⟨⟨byte.toNat - 48, by omega⟩, by
          rw [decimalDigit, dif_pos (by omega), if_pos (by omega)]⟩
      · cases isDigit
  · rintro ⟨digit, found⟩
    have bound := digit.isLt
    have value : byte.toNat = 48 + digit := by
      rw [decimalDigit_eq_some.mp found, decimalByte, UInt8.toNat_ofNat']
      omega
    rw [if_neg, if_pos]
    · rw [UInt8.lt_iff_toNat_lt]
      change byte.toNat < 58
      omega
    · rw [UInt8.lt_iff_toNat_lt]
      change ¬byte.toNat < 48
      omega

theorem decimalByte_value (digit : Fin 10) : (decimalByte digit - 48).toNat = digit := by
  revert digit
  decide

theorem decimalDigits_eq_some : ∀ {bytes : List UInt8} {digits : List (Fin 10)},
    bytes.mapM decimalDigit = some digits ↔ bytes = digits.map decimalByte := by
  intro bytes
  induction bytes with
  | nil =>
      intro digits
      cases digits with
      | nil => simp
      | cons digit digits => simp
  | cons byte bytes ih =>
      intro digits
      rw [List.mapM_cons]
      cases digits with
      | nil => cases decimalDigit byte <;> cases bytes.mapM decimalDigit <;> simp
      | cons digit digits =>
          rw [List.map_cons, List.cons.injEq, ← ih, ← decimalDigit_eq_some]
          cases decimalDigit byte <;> cases bytes.mapM decimalDigit <;> simp

/-! ## What digits denote -/

def decimal (digits : List (Fin 10)) : Nat :=
  digits.foldl (fun value digit => value * 10 + digit.val) 0

def signedDecimal (sign : Sign) (digits : List (Fin 10)) : Int :=
  if sign = .minus then -decimal digits else decimal digits

theorem foldl_decimal (value : Nat) : ∀ digits : List (Fin 10),
    digits.foldl (fun value digit => value * 10 + digit.val) value =
      value * 10 ^ digits.length + decimal digits := by
  intro digits
  rw [decimal]
  induction digits using List.reverseRecOn with
  | nil => simp
  | append_singleton digits digit ih =>
      rw [List.foldl_append, List.foldl_append, ih, List.length_append, List.length_singleton, pow_succ]
      simp only [List.foldl_cons, List.foldl_nil]
      ring

theorem decimal_append (first second : List (Fin 10)) :
    decimal (first ++ second) = decimal first * 10 ^ second.length + decimal second := by
  rw [decimal, List.foldl_append, foldl_decimal]
  rfl

theorem decimal_singleton (digit : Fin 10) : decimal [digit] = digit := by
  simp [decimal]

theorem decimal_cons (digit : Fin 10) (digits : List (Fin 10)) :
    decimal (digit :: digits) = digit * 10 ^ digits.length + decimal digits := by
  rw [← List.singleton_append, decimal_append, decimal_singleton]

theorem decimal_lt (digits : List (Fin 10)) : decimal digits < 10 ^ digits.length := by
  induction digits with
  | nil => exact Nat.one_pos
  | cons digit digits ih =>
      have top : (digit.val + 1) * 10 ^ digits.length ≤ 10 * 10 ^ digits.length :=
        Nat.mul_le_mul_right _ digit.isLt
      rw [Nat.add_mul, Nat.one_mul] at top
      rw [decimal_cons, List.length_cons, pow_succ']
      omega

/-- A leading digit that is not zero counts. -/
theorem le_decimal {digit : Fin 10} (leading : digit.val ≠ 0) (digits : List (Fin 10)) :
    10 ^ digits.length ≤ decimal (digit :: digits) := by
  rw [decimal_cons]
  exact (Nat.le_mul_of_pos_left _ (Nat.pos_of_ne_zero leading)).trans (Nat.le_add_right _ _)

/-! ## The digits that count -/

/-- The digits without leading zeros. -/
def significant (digits : List (Fin 10)) : List (Fin 10) :=
  digits.dropWhile fun digit => digit.val = 0

theorem significant_append (digits : List (Fin 10)) (digit : Fin 10) :
    significant (digits ++ [digit]) =
      if significant digits = [] then if digit.val = 0 then [] else [digit]
      else significant digits ++ [digit] := by
  rw [significant, List.dropWhile_append]
  change (if (significant digits).isEmpty then _ else significant digits ++ [digit]) = _
  by_cases empty : significant digits = []
  · rw [if_pos empty, empty]
    by_cases zero : digit.val = 0
    · rw [if_pos List.isEmpty_nil, if_pos zero, List.dropWhile_cons, if_pos (decide_eq_true zero),
        List.dropWhile_nil]
    · rw [if_pos List.isEmpty_nil, if_neg zero, List.dropWhile_cons, if_neg (by rwa [decide_eq_true_eq])]
  · rw [if_neg empty, if_neg (by rwa [List.isEmpty_iff])]

theorem decimal_significant (digits : List (Fin 10)) :
    decimal (significant digits) = decimal digits := by
  induction digits with
  | nil => rfl
  | cons digit digits ih =>
      rw [significant, List.dropWhile_cons]
      by_cases zero : digit.val = 0
      · rw [if_pos (by simpa using zero), decimal_cons, zero, Nat.zero_mul, Nat.zero_add]
        exact ih
      · rw [if_neg (by simpa using zero)]

theorem significant_leading : ∀ {digits rest : List (Fin 10)} {digit : Fin 10},
    significant digits = digit :: rest → digit.val ≠ 0 := by
  intro digits
  induction digits with
  | nil =>
      intro rest digit leading
      cases leading
  | cons first digits ih =>
      intro rest digit leading
      rw [significant, List.dropWhile_cons] at leading
      by_cases zero : first.val = 0
      · rw [if_pos (decide_eq_true zero)] at leading
        exact ih leading
      · rw [if_neg (by rwa [decide_eq_true_eq]), List.cons.injEq] at leading
        rwa [← leading.1]

/-! ## Tokens -/

/-- Digits, and digits behind a point if there is one. -/
structure Mantissa where
  whole : List (Fin 10) := []
  fraction : Option (List (Fin 10)) := none

namespace Mantissa

def behind (mantissa : Mantissa) : List (Fin 10) := mantissa.fraction.getD []

def digits (mantissa : Mantissa) : List (Fin 10) := mantissa.whole ++ mantissa.behind

def fractionBytes : Option (List (Fin 10)) → List UInt8
  | none => []
  | some digits => 46 :: digits.map decimalByte

def bytes (mantissa : Mantissa) : List UInt8 :=
  mantissa.whole.map decimalByte ++ fractionBytes mantissa.fraction

/-- One more digit. -/
def push (mantissa : Mantissa) (digit : Fin 10) : Mantissa :=
  match mantissa.fraction with
  | none => { mantissa with whole := mantissa.whole ++ [digit] }
  | some behind => { mantissa with fraction := some (behind ++ [digit]) }

/-- A byte that goes on with a mantissa: the first point, or a digit. -/
def next (mantissa : Mantissa) (byte : UInt8) : Option Mantissa :=
  if byte = 46 ∧ mantissa.fraction.isNone then some { mantissa with fraction := some [] }
  else (decimalDigit byte).map mantissa.push

/-- Read digits and a point as far as they go. -/
def read : List UInt8 → Mantissa → Mantissa × List UInt8
  | [], mantissa => (mantissa, [])
  | byte :: rest, mantissa =>
      match mantissa.next byte with
      | some after => read rest after
      | none => (mantissa, byte :: rest)

end Mantissa

/-- The marker of a literal, with its exponent. -/
structure FloatExponent where
  marker : UInt8
  sign : Sign
  digits : List (Fin 10)
  known : floatMarkerCode marker ≠ 0
  nonempty : digits ≠ []

namespace FloatExponent

def bytes (exponent : FloatExponent) : List UInt8 :=
  exponent.marker :: (exponent.sign.bytes ++ exponent.digits.map decimalByte)

def value (exponent : FloatExponent) : Int := signedDecimal exponent.sign exponent.digits

end FloatExponent

/-- A token that is a decimal literal. Without a marker it has digits behind a point. -/
structure FloatToken where
  sign : Sign
  mantissa : Mantissa
  exponent : Option FloatExponent
  nonempty : mantissa.digits ≠ []
  fractional : exponent = none → mantissa.behind ≠ []

namespace FloatToken

def exponentBytes : Option FloatExponent → List UInt8
  | none => []
  | some exponent => exponent.bytes

def bytes (token : FloatToken) : List UInt8 :=
  token.sign.bytes ++ (token.mantissa.bytes ++ exponentBytes token.exponent)

/-- The format that the marker selects. -/
def code (token : FloatToken) : Nat :=
  match token.exponent with
  | none => 13
  | some exponent => floatMarkerCode exponent.marker

def power (token : FloatToken) : Int :=
  match token.exponent with
  | none => 0
  | some exponent => exponent.value

/-- The number that a literal denotes, apart from its sign. -/
def magnitude (token : FloatToken) : ℚ :=
  decimal token.mantissa.digits * 10 ^ (token.power - token.mantissa.behind.length)

def signMask (token : FloatToken) : Nat :=
  if token.sign = .minus then if token.code = 13 then 2 ^ 31 else 2 ^ 63 else 0

/-- What the reader gives for a literal whose nearest bit pattern is known. -/
def stored (token : FloatToken) (output : ParsedInteger) (bits : Nat) :
    FloatResult × ParsedInteger :=
  if bits < floatInfinity token.code then
    (.value,
      { magnitude := bits + token.signMask, negative := token.sign = .minus, radix := token.code })
  else (.outOfRange, output)

end FloatToken

/-! ## Reading a mantissa -/

namespace Mantissa

variable {mantissa after : Mantissa} {bytes rest : List UInt8}

/-- The digits that the reader keeps. -/
def kept (mantissa : Mantissa) : List (Fin 10) := (significant mantissa.digits).take 800

def dropped (mantissa : Mantissa) : List (Fin 10) := (significant mantissa.digits).drop 800

theorem behind_push (digit : Fin 10) : (mantissa.push digit).behind.length =
    if mantissa.fraction.isSome then mantissa.behind.length + 1 else mantissa.behind.length := by
  obtain ⟨whole, fraction⟩ := mantissa
  cases fraction with
  | none => rfl
  | some digits => simp [push, behind]

theorem digits_push (digit : Fin 10) : (mantissa.push digit).digits = mantissa.digits ++ [digit] := by
  obtain ⟨whole, fraction⟩ := mantissa
  cases fraction with
  | none => simp [push, digits, behind]
  | some later => simp [push, digits, behind]

theorem isSome_push (digit : Fin 10) :
    (mantissa.push digit).fraction.isSome = mantissa.fraction.isSome := by
  obtain ⟨whole, fraction⟩ := mantissa
  cases fraction <;> rfl

theorem bytes_push (digit : Fin 10) :
    (mantissa.push digit).bytes = mantissa.bytes ++ [decimalByte digit] := by
  obtain ⟨whole, fraction⟩ := mantissa
  cases fraction with
  | none => simp [push, Mantissa.bytes, fractionBytes]
  | some behind => simp [push, Mantissa.bytes, fractionBytes]

theorem digits_point (noPoint : mantissa.fraction = none) :
    { mantissa with fraction := some [] }.digits = mantissa.digits := by
  rw [digits, digits, behind, behind, noPoint]
  rfl

theorem bytes_point (noPoint : mantissa.fraction = none) :
    { mantissa with fraction := some [] }.bytes = mantissa.bytes ++ [46] := by
  rw [Mantissa.bytes, Mantissa.bytes, noPoint]
  simp [fractionBytes]

theorem decimalByte_ne_point (digit : Fin 10) : decimalByte digit ≠ 46 := by
  revert digit
  decide

theorem next_digit (mantissa : Mantissa) (digit : Fin 10) :
    mantissa.next (decimalByte digit) = some (mantissa.push digit) := by
  have isDigit : decimalDigit (decimalByte digit) = some digit := decimalDigit_eq_some.mpr rfl
  rw [next, if_neg fun point => decimalByte_ne_point digit point.1, isDigit, Option.map_some]

theorem next_point (noPoint : mantissa.fraction = none) :
    mantissa.next 46 = some { mantissa with fraction := some [] } := by
  rw [next, if_pos ⟨rfl, by rw [noPoint, Option.isNone_none]⟩]

/-- What goes on with a mantissa is a digit or a point. -/
theorem next_cases {byte : UInt8} (goesOn : mantissa.next byte = some after) :
    (∃ digit, byte = decimalByte digit ∧ after = mantissa.push digit) ∨
      byte = 46 ∧ mantissa.fraction = none ∧ after = { mantissa with fraction := some [] } := by
  rw [next] at goesOn
  split at goesOn
  · rename_i point
    exact .inr ⟨point.1, Option.isNone_iff_eq_none.mp point.2, (Option.some.inj goesOn).symm⟩
  · obtain ⟨digit, isDigit, pushed⟩ := Option.map_eq_some_iff.mp goesOn
    exact .inl ⟨digit, decimalDigit_eq_some.mp isDigit, pushed.symm⟩

theorem next_bytes {byte : UInt8} (goesOn : mantissa.next byte = some after) :
    after.bytes = mantissa.bytes ++ [byte] := by
  rcases next_cases goesOn with ⟨digit, rfl, rfl⟩ | ⟨rfl, noPoint, rfl⟩
  · exact bytes_push digit
  · exact bytes_point noPoint

/-- What was read and what is left are the bytes. -/
theorem read_bytes : ∀ (bytes : List UInt8) (mantissa : Mantissa),
    mantissa.bytes ++ bytes = (read bytes mantissa).1.bytes ++ (read bytes mantissa).2 := by
  intro bytes
  induction bytes with
  | nil => exact fun _ => rfl
  | cons byte bytes ih =>
      intro mantissa
      rw [Mantissa.read]
      cases goesOn : mantissa.next byte with
      | some after =>
          rw [← List.singleton_append, ← List.append_assoc, ← next_bytes goesOn]
          exact ih after
      | none => rfl

/-- Digits of the whole part, or behind the point, are read one after another. -/
theorem read_digits (digits : List (Fin 10)) : ∀ (mantissa : Mantissa) (rest : List UInt8),
    read (digits.map decimalByte ++ rest) mantissa = read rest (digits.foldl push mantissa) := by
  induction digits with
  | nil => exact fun _ _ => rfl
  | cons digit digits ih =>
      intro mantissa rest
      rw [List.map_cons, List.cons_append, Mantissa.read, next_digit]
      exact ih _ _

theorem foldl_push_whole (digits : List (Fin 10)) : ∀ whole : List (Fin 10),
    digits.foldl push { whole := whole } = { whole := whole ++ digits } := by
  induction digits with
  | nil => simp
  | cons digit digits ih =>
      intro whole
      rw [List.foldl_cons, push]
      dsimp only
      rw [ih, List.append_assoc]
      rfl

theorem foldl_push_behind (digits : List (Fin 10)) : ∀ whole behind : List (Fin 10),
    digits.foldl push { whole := whole, fraction := some behind } =
      { whole := whole, fraction := some (behind ++ digits) } := by
  induction digits with
  | nil => simp
  | cons digit digits ih =>
      intro whole behind
      rw [List.foldl_cons, push]
      dsimp only
      rw [ih, List.append_assoc]
      rfl

/-- A mantissa is read as what it is, up to a byte that goes on with none. -/
theorem read_mantissa (mantissa : Mantissa)
    (stops : ∀ byte tail, rest = byte :: tail → ∀ other : Mantissa, other.next byte = none) :
    read (mantissa.bytes ++ rest) {} = (mantissa, rest) := by
  have stop (state : Mantissa) : read rest state = (state, rest) := by
    cases left : rest with
    | nil => rfl
    | cons byte tail => rw [Mantissa.read, stops byte tail left]
  obtain ⟨whole, fraction⟩ := mantissa
  rw [Mantissa.bytes, List.append_assoc, read_digits, foldl_push_whole, List.nil_append]
  cases fraction with
  | none => exact stop _
  | some behind =>
      rw [fractionBytes, List.cons_append, Mantissa.read, next_point rfl]
      dsimp only
      rw [read_digits, foldl_push_behind, List.nil_append]
      exact stop _

theorem kept_length : mantissa.kept.length ≤ 800 := by
  rw [kept, List.length_take]
  exact Nat.min_le_left _ _

theorem kept_eq_nil : mantissa.kept = [] ↔ significant mantissa.digits = [] := by
  rw [kept, List.take_eq_nil_iff]
  simp

theorem length_significant : (significant mantissa.digits).length ≤ mantissa.digits.length :=
  (List.dropWhile_suffix _).length_le

theorem length_dropped : mantissa.dropped.length ≤ mantissa.digits.length := by
  have shorter := @length_significant mantissa
  rw [dropped, List.length_drop]
  omega

/-- How the digits that count grow by one. -/
theorem significant_push (digit : Fin 10) : significant (mantissa.push digit).digits =
    if significant mantissa.digits = [] then if digit.val = 0 then [] else [digit]
    else significant mantissa.digits ++ [digit] := by
  rw [digits_push, significant_append]

theorem push_zero {digit : Fin 10} (none : mantissa.kept = []) (zero : digit.val = 0) :
    (mantissa.push digit).kept = [] ∧ (mantissa.push digit).dropped = [] := by
  rw [kept, dropped, significant_push, if_pos (kept_eq_nil.mp none), if_pos zero]
  exact ⟨rfl, rfl⟩

theorem push_kept {digit : Fin 10} (room : mantissa.kept.length < 800)
    (counts : mantissa.kept = [] → digit.val ≠ 0) :
    (mantissa.push digit).kept = mantissa.kept ++ [digit] ∧
      mantissa.dropped = [] ∧ (mantissa.push digit).dropped = [] := by
  have few : (significant mantissa.digits).length < 800 := by
    rw [kept, List.length_take] at room
    omega
  have whole : mantissa.kept = significant mantissa.digits := List.take_of_length_le few.le
  have grown : significant (mantissa.push digit).digits = significant mantissa.digits ++ [digit] := by
    rw [significant_push]
    by_cases empty : significant mantissa.digits = []
    · rw [if_pos empty, if_neg (counts (kept_eq_nil.mpr empty)), empty, List.nil_append]
    · rw [if_neg empty]
  have length : (significant mantissa.digits ++ [digit]).length ≤ 800 := by
    rw [List.length_append, List.length_singleton]
    omega
  rw [kept, dropped, dropped, grown, whole, List.take_of_length_le length,
    List.drop_of_length_le length, List.drop_of_length_le few.le]
  exact ⟨rfl, rfl, rfl⟩

theorem push_dropped {digit : Fin 10} (full : mantissa.kept.length = 800) :
    (mantissa.push digit).kept = mantissa.kept ∧
      (mantissa.push digit).dropped = mantissa.dropped ++ [digit] := by
  have many : 800 ≤ (significant mantissa.digits).length := by
    rw [kept, List.length_take] at full
    omega
  have some : significant mantissa.digits ≠ [] := by
    intro empty
    rw [empty, List.length_nil] at many
    omega
  rw [kept, dropped, significant_push, if_neg some, List.take_append_of_le_length many,
    List.drop_append_of_le_length many]
  exact ⟨rfl, rfl⟩

/-- The kept digits come first. -/
theorem decimal_kept : decimal mantissa.digits =
    decimal mantissa.kept * 10 ^ mantissa.dropped.length + decimal mantissa.dropped := by
  rw [← decimal_significant, ← decimal_append, kept, dropped, List.take_append_drop]

end Mantissa

/-! ## The reader at work -/

namespace FloatParser

variable {state : FloatParser} {limit : Nat} {mantissa : Mantissa}

/-- The state has read a mantissa. -/
structure Scanned (state : FloatParser) (limit : Nat) (mantissa : Mantissa) : Prop where
  numerator : state.numerator.Holds limit (decimal mantissa.kept)
  denominator : state.denominator.Holds limit 1
  digits : state.digits = mantissa.kept.length
  fractional : state.fractional = mantissa.behind.length
  discarded : state.discarded = mantissa.dropped.length
  sticky : state.sticky = true ↔ decimal mantissa.dropped ≠ 0
  sawDigit : state.sawDigit = true ↔ mantissa.digits ≠ []
  sawPoint : state.sawPoint = mantissa.fraction.isSome

theorem keepDigit_holds {digits : List (Fin 10)} (numerator : state.numerator.Holds limit (decimal digits))
    (room : 128 ≤ limit) (digit : Fin 10) (few : (digits ++ [digit]).length ≤ 800) :
    (state.keepDigit digit).numerator.Holds limit (decimal (digits ++ [digit])) := by
  have value : decimal (digits ++ [digit]) = decimal digits * 10 + digit := by
    rw [decimal_append, decimal_singleton, List.length_singleton, pow_one]
  have bound := digit.isLt
  have fits : decimal digits * 10 + digit < 2 ^ (32 * limit) := by
    rw [← value]
    refine (decimal_lt _).trans_le ((ten_pow_le _).trans ?_)
    exact Nat.pow_le_pow_right (by norm_num) (by omega)
  rw [value]
  exact (numerator.multiplyAdd (by norm_num) (by norm_num) (by omega) fits).2

theorem behind_le (mantissa : Mantissa) : mantissa.behind.length ≤ mantissa.digits.length := by
  rw [Mantissa.digits, List.length_append]
  exact Nat.le_add_left _ _

/-- A digit that is kept goes into the numerator. -/
theorem Scanned.keep (scanned : Scanned state limit mantissa) (room : 128 ≤ limit) {digit : Fin 10}
    {fractional : Nat} (few : mantissa.kept.length < 800)
    (counts : mantissa.kept = [] → digit.val ≠ 0)
    (behind : fractional = (mantissa.push digit).behind.length) :
    Scanned ({ state with sawDigit := true, fractional := fractional }.keepDigit digit) limit
      (mantissa.push digit) := by
  obtain ⟨kept, before, dropped⟩ := Mantissa.push_kept few counts
  have length : (mantissa.kept ++ [digit]).length = mantissa.kept.length + 1 := by
    rw [List.length_append, List.length_singleton]
  have counted : wrapAdd state.digits 1 = mantissa.kept.length + 1 := by
    rw [scanned.digits, wrapAdd_eq (by rw [wordLimit]; omega)]
  exact {
    numerator := by
      rw [kept]
      exact keepDigit_holds scanned.numerator room digit (by omega)
    denominator := scanned.denominator
    digits := by
      rw [kept, length]
      exact counted
    fractional := behind
    discarded := by
      rw [dropped, ← before]
      exact scanned.discarded
    sticky := by
      rw [dropped, ← before]
      exact scanned.sticky
    sawDigit := iff_of_true rfl (by simp [Mantissa.digits_push])
    sawPoint := by
      rw [Mantissa.isSome_push]
      exact scanned.sawPoint }

/-- One digit is accumulated as the mantissa grows by it. -/
theorem Scanned.accumulate (scanned : Scanned state limit mantissa) (room : 128 ≤ limit)
    (short : mantissa.digits.length < 2 ^ 60) (digit : Fin 10) :
    Scanned (state.accumulateDigit digit) limit (mantissa.push digit) := by
  have behind := behind_le mantissa
  have droppedShort := @Mantissa.length_dropped mantissa
  have few := @Mantissa.kept_length mantissa
  have fractional : (if state.sawPoint then wrapAdd state.fractional 1 else state.fractional) =
      (mantissa.push digit).behind.length := by
    rw [Mantissa.behind_push, scanned.sawPoint, scanned.fractional,
      wrapAdd_eq (by rw [wordLimit]; omega)]
  have sawDigit : true = true ↔ (mantissa.push digit).digits ≠ [] := by
    simp [Mantissa.digits_push]
  have sawPoint : state.sawPoint = (mantissa.push digit).fraction.isSome := by
    rw [Mantissa.isSome_push, scanned.sawPoint]
  rw [accumulateDigit]
  dsimp only
  by_cases empty : mantissa.kept = [] ∧ digit.val = 0
  · obtain ⟨kept, dropped⟩ := Mantissa.push_zero empty.1 empty.2
    have before : mantissa.dropped = [] := by
      rw [Mantissa.dropped, Mantissa.kept_eq_nil.mp empty.1, List.drop_nil]
    have none : state.digits = 0 := by rw [scanned.digits, empty.1, List.length_nil]
    rw [if_pos none, if_pos empty.2]
    exact {
      numerator := by
        rw [kept, ← empty.1]
        exact scanned.numerator
      denominator := scanned.denominator
      digits := by
        rw [kept]
        exact none
      fractional := fractional
      discarded := by
        rw [dropped, ← before]
        exact scanned.discarded
      sticky := by
        rw [dropped, ← before]
        exact scanned.sticky
      sawDigit := sawDigit
      sawPoint := sawPoint }
  · by_cases full : mantissa.kept.length = 800
    · obtain ⟨kept, dropped⟩ := @Mantissa.push_dropped mantissa digit full
      have many : state.digits = 800 := scanned.digits.trans full
      rw [if_neg (by omega), if_neg (by omega)]
      exact {
        numerator := by
          rw [kept]
          exact scanned.numerator
        denominator := scanned.denominator
        digits := by
          rw [kept]
          exact scanned.digits
        fractional := fractional
        discarded := by
          dsimp only
          rw [dropped, List.length_append, List.length_singleton, scanned.discarded,
            wrapAdd_eq (by rw [wordLimit]; omega)]
        sticky := by
          dsimp only
          rw [dropped, decimal_append, decimal_singleton, List.length_singleton, pow_one]
          by_cases zero : digit.val = 0
          · rw [if_pos zero, scanned.sticky]
            omega
          · rw [if_neg zero]
            simp only [true_iff]
            omega
        sawDigit := sawDigit
        sawPoint := sawPoint }
    · have counts : mantissa.kept = [] → digit.val ≠ 0 := fun none zero => empty ⟨none, zero⟩
      by_cases none : state.digits = 0
      · have nonzero : digit.val ≠ 0 :=
          counts (List.length_eq_zero_iff.mp (scanned.digits.symm.trans none))
        rw [if_pos none, if_neg nonzero]
        exact scanned.keep room (by omega) counts fractional
      · rw [if_neg none, if_pos (by have := scanned.digits; omega)]
        exact scanned.keep room (by omega) counts fractional

/-- The state reads a mantissa, and no marker has been found. -/
structure Scanning (state : FloatParser) (limit : Nat) (mantissa : Mantissa) : Prop extends
    Scanned state limit mantissa where
  exponent : state.exponent = 0
  code : state.code = 13
  sawMarker : state.sawMarker = false

variable {data : Nat → UInt8} {finish : Nat} {after : Mantissa}

theorem accumulateDigit_marks (state : FloatParser) (digit : Nat) :
    (state.accumulateDigit digit).exponent = state.exponent ∧
      (state.accumulateDigit digit).code = state.code ∧
      (state.accumulateDigit digit).sawMarker = state.sawMarker ∧
      (state.accumulateDigit digit).negative = state.negative := by
  rw [accumulateDigit]
  dsimp only
  split_ifs <;> exact ⟨rfl, rfl, rfl, rfl⟩

/-- A character of the mantissa is read. -/
theorem Scanning.step (scanning : Scanning state limit mantissa) (room : 128 ≤ limit)
    (short : mantissa.digits.length < 2 ^ 60) (near : state.cursor < 2 ^ 60)
    (goesOn : mantissa.next (data state.cursor) = some after) :
    Scanning (state.scanMantissaCharacter data finish) limit after ∧
      (state.scanMantissaCharacter data finish).cursor = state.cursor + 1 ∧
      (state.scanMantissaCharacter data finish).negative = state.negative := by
  have cursor : wrapAdd state.cursor 1 = state.cursor + 1 :=
    wrapAdd_eq (by rw [wordLimit]; omega)
  rw [scanMantissaCharacter]
  dsimp only
  rcases Mantissa.next_cases goesOn with ⟨digit, isDigit, rfl⟩ | ⟨isPoint, noPoint, rfl⟩
  · obtain ⟨exponent, code, marker, negative⟩ :=
      accumulateDigit_marks state (data state.cursor - 48).toNat
    have accumulated := scanning.accumulate room short digit
    rw [if_pos (floatDecimalDigit_iff.mpr ⟨digit, decimalDigit_eq_some.mpr isDigit⟩), isDigit,
      decimalByte_value]
    rw [isDigit, decimalByte_value] at exponent code marker negative
    exact ⟨{ accumulated with
      exponent := exponent.trans scanning.exponent
      code := code.trans scanning.code
      sawMarker := marker.trans scanning.sawMarker }, cursor, negative⟩
  · have saw : state.sawPoint = false := by rw [scanning.sawPoint, noPoint, Option.isSome_none]
    have digits := Mantissa.digits_point noPoint
    have noDigit : ¬floatDecimalDigit 46 = true := by decide
    rw [isPoint, if_neg noDigit, saw, if_pos (by decide)]
    exact ⟨{
      numerator := by
        rw [Mantissa.kept, digits]
        exact scanning.numerator
      denominator := scanning.denominator
      digits := by
        rw [Mantissa.kept, digits]
        exact scanning.digits
      fractional := by
        have none : mantissa.behind = [] := by rw [Mantissa.behind, noPoint, Option.getD_none]
        have zero := scanning.fractional
        rw [none] at zero
        exact zero
      discarded := by
        rw [Mantissa.dropped, digits]
        exact scanning.discarded
      sticky := by
        rw [Mantissa.dropped, digits]
        exact scanning.sticky
      sawDigit := by
        rw [digits]
        exact scanning.sawDigit
      sawPoint := rfl
      exponent := scanning.exponent
      code := scanning.code
      sawMarker := scanning.sawMarker }, cursor, rfl⟩

/-- What the reader does at a character that does not go on with the mantissa. -/
def markerRead (state : FloatParser) (data : Nat → UInt8) (finish : Nat) : FloatParser :=
  let code := floatMarkerCode (data state.cursor)
  let marked := { state with sawMarker := true }
  let (status, marked) :=
    if code = 0 then (false, marked)
    else if !state.sawDigit then (false, marked)
    else { marked with code := code }.parseExponent data (wrapAdd state.cursor 1) finish
  { marked with status := status, cursor := finish }

theorem Scanning.stop (scanning : Scanning state limit mantissa)
    (stops : mantissa.next (data state.cursor) = none) :
    state.scanMantissaCharacter data finish = state.markerRead data finish := by
  rw [Mantissa.next] at stops
  split at stops
  · cases stops
  · rename_i noPoint
    have noDigit : ¬floatDecimalDigit (data state.cursor) = true := by
      intro isDigit
      obtain ⟨digit, found⟩ := floatDecimalDigit_iff.mp isDigit
      rw [found] at stops
      cases stops
    rw [scanMantissaCharacter]
    dsimp only
    rw [if_neg noDigit, if_neg]
    · rfl
    · rw [Bool.and_eq_true, decide_eq_true_eq, scanning.sawPoint, Option.not_isSome]
      exact noPoint

theorem scanMantissa_done (ahead : Nat) (done : ¬state.cursor < finish) :
    scanMantissa data finish ahead state = state := by
  cases ahead with
  | zero => rfl
  | succ ahead => rw [scanMantissa, if_neg done]

theorem markerRead_cursor : (state.markerRead data finish).cursor = finish := by
  rw [markerRead]

/-- The loop reads the mantissa as far as it goes, and then a marker if something is left. -/
theorem Scanning.scan (room : 128 ≤ limit) (near : finish < 2 ^ 60) :
    ∀ (ahead : Nat) (state : FloatParser) (mantissa : Mantissa), Scanning state limit mantissa →
      state.cursor + ahead = finish → mantissa.digits.length ≤ state.cursor →
      ∃ after, Scanning after limit (Mantissa.read (spanBytes data state.cursor ahead) mantissa).1 ∧
        after.negative = state.negative ∧
        (Mantissa.read (spanBytes data state.cursor ahead) mantissa).2 =
          spanBytes data after.cursor (finish - after.cursor) ∧ after.cursor ≤ finish ∧
        scanMantissa data finish ahead state =
          if after.cursor = finish then after else after.markerRead data finish := by
  intro ahead
  induction ahead with
  | zero =>
      intro state mantissa scanning reached _
      refine ⟨state, scanning, rfl, ?_, by omega, ?_⟩
      · rw [Nat.sub_eq_zero_of_le (by omega)]
        rfl
      · rw [if_pos (by omega)]
        rfl
  | succ ahead ih =>
      intro state mantissa scanning reached short
      rw [spanBytes, Mantissa.read, scanMantissa, if_pos (by omega)]
      cases goesOn : mantissa.next (data state.cursor) with
      | some after =>
          obtain ⟨next, cursor, negative⟩ :=
            @Scanning.step _ _ _ data finish _ scanning room (by omega) (by omega) goesOn
          have longer : after.digits.length ≤ state.cursor + 1 := by
            rcases Mantissa.next_cases goesOn with ⟨digit, -, rfl⟩ | ⟨-, noPoint, rfl⟩
            · rw [Mantissa.digits_push, List.length_append, List.length_singleton]
              omega
            · rw [Mantissa.digits_point noPoint]
              omega
          obtain ⟨last, scanned, same, left, within, run⟩ := ih _ _ next (by omega) (by omega)
          rw [cursor] at scanned left
          exact ⟨last, scanned, same.trans negative, left, within, run⟩
      | none =>
          rw [scanning.stop goesOn]
          refine ⟨state, scanning, rfl, ?_, by omega, ?_⟩
          · rw [show finish - state.cursor = ahead + 1 by omega]
            rfl
          · rw [if_neg (by omega)]
            exact scanMantissa_done _ (by rw [markerRead_cursor]; exact lt_irrefl _)

/-! ## Exponents -/

/-- The sign and the digits of an exponent. -/
def readExponent (bytes : List UInt8) : Option (Sign × List (Fin 10)) :=
  let sign := (bytes.head?.map signOf).getD .none
  let rest := bytes.drop sign.bytes.length
  if rest.isEmpty then none else (rest.mapM decimalDigit).map fun digits => (sign, digits)

theorem signOf_bytes (byte : UInt8) (rest : List UInt8) :
    byte :: rest = (signOf byte).bytes ++ (byte :: rest).drop (signOf byte).bytes.length := by
  unfold signOf
  split_ifs with plus minus
  · rw [plus]
    rfl
  · rw [minus]
    rfl
  · rfl

theorem readExponent_sound {bytes : List UInt8} {sign : Sign} {digits : List (Fin 10)}
    (read : readExponent bytes = some (sign, digits)) :
    bytes = sign.bytes ++ digits.map decimalByte ∧ digits ≠ [] := by
  rw [readExponent] at read
  split at read
  · cases read
  · rename_i more
    obtain ⟨found, isDigits, same⟩ := Option.map_eq_some_iff.mp read
    rw [Prod.mk.injEq] at same
    obtain ⟨rfl, rfl⟩ := same
    have rest := decimalDigits_eq_some.mp isDigits
    constructor
    · rw [← rest]
      cases bytes with
      | nil => rfl
      | cons byte bytes => exact signOf_bytes byte bytes
    · rintro rfl
      rw [rest] at more
      exact more rfl

theorem decimalByte_signOf (digit : Fin 10) : signOf (decimalByte digit) = .none := by
  revert digit
  decide

theorem readExponent_complete (sign : Sign) {digits : List (Fin 10)} (nonempty : digits ≠ []) :
    readExponent (sign.bytes ++ digits.map decimalByte) = some (sign, digits) := by
  obtain ⟨first, rest, rfl⟩ := List.exists_cons_of_ne_nil nonempty
  have isDigits := decimalDigits_eq_some.mpr (Eq.refl ((first :: rest).map decimalByte))
  rw [readExponent]
  cases sign with
  | none =>
      rw [Sign.bytes, List.nil_append, List.map_cons, List.head?_cons, Option.map_some,
        decimalByte_signOf, Option.getD_some]
      rw [List.map_cons] at isDigits
      change (if false = true then none else Option.map _ ((_ :: _).mapM decimalDigit)) = _
      rw [if_neg (by decide), isDigits]
      rfl
  | plus =>
      change (if false = true then none else
        Option.map _ (((first :: rest).map decimalByte).mapM decimalDigit)) = _
      rw [if_neg (by decide), isDigits]
      rfl
  | minus =>
      change (if false = true then none else
        Option.map _ (((first :: rest).map decimalByte).mapM decimalDigit)) = _
      rw [if_neg (by decide), isDigits]
      rfl

theorem mapM_digit {byte : UInt8} {digit : Fin 10} (found : decimalDigit byte = some digit)
    (rest : List UInt8) : (byte :: rest).mapM decimalDigit =
      (rest.mapM decimalDigit).map fun digits => digit :: digits := by
  rw [List.mapM_cons, found]
  cases rest.mapM decimalDigit <;> rfl

theorem mapM_noDigit {byte : UInt8} (noDigit : decimalDigit byte = none) (rest : List UInt8) :
    (byte :: rest).mapM decimalDigit = none := by
  rw [List.mapM_cons, noDigit]
  rfl

/-- An exponent with its sign, up to a limit. -/
def limited (bound : Nat) (sign : Sign) (digits : List (Fin 10)) : Int :=
  if sign = .minus then -(min bound (decimal digits) : Nat) else (min bound (decimal digits) : Nat)

/-- The loop over the digits of an exponent stays at its limit. -/
theorem exponentDigits_read {bound : Nat} (near : finish < 2 ^ 60)
    (small : bound < 2 ^ 60 + 2048) : ∀ (ahead : Nat) (state : FloatParser) (value : Nat),
      state.cursor + ahead = finish → state.exponent = (min bound value : Nat) →
      ∃ (exponent : Int) (status : Bool) (cursor : Nat),
        exponentDigits data finish bound ahead state =
          { state with exponent := exponent, status := status, cursor := cursor } ∧
        (∀ digits, (spanBytes data state.cursor ahead).mapM decimalDigit = some digits →
          status = state.status ∧ exponent = (min bound
            (digits.foldl (fun value digit => value * 10 + digit.val) value) : Nat)) ∧
        ((spanBytes data state.cursor ahead).mapM decimalDigit = none → status = false) := by
  intro ahead
  induction ahead with
  | zero =>
      intro state value _ same
      refine ⟨state.exponent, state.status, state.cursor, rfl, ?_, ?_⟩
      · intro digits read
        cases read
        exact ⟨rfl, same⟩
      · intro read
        cases read
  | succ ahead ih =>
      intro state value reached same
      rw [exponentDigits, if_pos (by omega), spanBytes, exponentDigit]
      dsimp only
      by_cases isDigit : floatDecimalDigit (data state.cursor) = true
      · obtain ⟨digit, found⟩ := floatDecimalDigit_iff.mp isDigit
        have below := digit.isLt
        have word : (state.exponent % (wordLimit : Nat)).toNat = min bound value := by
          rw [same, wordLimit]
          omega
        have next : wrapAdd (min bound value * 10 % wordLimit) digit.val =
            min bound value * 10 + digit.val := by
          rw [wrapAdd, wordLimit]
          omega
        have stored : signedWord (if bound < min bound value * 10 + digit.val then (bound : Int)
            else (min bound value * 10 + digit.val : Nat)) =
              (min bound (value * 10 + digit.val) : Nat) := by
          rw [signedWord_eq (by split <;> omega) (by split <;> omega)]
          split <;> omega
        rw [if_pos isDigit, word, decimalDigit_eq_some.mp found, decimalByte_value, next, stored,
          wrapAdd_eq (by rw [wordLimit]; omega), mapM_digit (decimalDigit_eq_some.mpr rfl)]
        obtain ⟨exponent, status, cursor, run, all, none⟩ := ih
          { state with exponent := (min bound (value * 10 + digit.val) : Nat)
                       cursor := state.cursor + 1 }
          (value * 10 + digit.val) (by dsimp only; omega) rfl
        refine ⟨exponent, status, cursor, run, ?_, ?_⟩
        · intro digits read
          obtain ⟨rest, isRest, rfl⟩ := Option.map_eq_some_iff.mp read
          exact all rest isRest
        · intro read
          exact none (Option.map_eq_none_iff.mp read)
      · have noDigit : decimalDigit (data state.cursor) = none := by
          rw [← Option.not_isSome_iff_eq_none]
          intro found
          exact isDigit (floatDecimalDigit_iff.mpr (Option.isSome_iff_exists.mp found))
        rw [if_neg isDigit, mapM_noDigit noDigit]
        refine ⟨state.exponent, false, finish, ?_, ?_, fun _ => rfl⟩
        · cases ahead with
          | zero => rfl
          | succ ahead => rw [exponentDigits, if_neg (lt_irrefl _)]
        · intro digits read
          cases read

end FloatParser

end Native
