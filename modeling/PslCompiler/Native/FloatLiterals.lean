import PslCompiler.Native.FloatDecimal

/-! # Converting decimal literals to binary

The decimal number becomes a fraction of two large integers, which is scaled so that it lies between
one and two. Long division gives the bits of the significand, one after another, and the remainder
rounds it.
-/

namespace Native

/-- The results 0, 1 and 2 of reading a literal. -/
inductive FloatResult
  | notFloat | value | outOfRange
  deriving DecidableEq, Repr

namespace FloatParser

/-- The power of five of an exponent; its power of two is counted apart. -/
def ratioScale (state : FloatParser) (exponent : Int) : Bool × FloatParser :=
  if exponent < 0 then
    let (done, denominator) := state.denominator.powerFive ((0 - exponent) % 2 ^ 32).toNat
    (done, { state with denominator := denominator })
  else
    let (done, numerator) := state.numerator.powerFive (exponent % 2 ^ 32).toNat
    (done, { state with numerator := numerator })

def ratioNormalize (state : FloatParser) (exponent : Int) : Int × FloatParser :=
  let shift := signedWord (state.numerator.bits - state.denominator.bits)
  let state :=
    if shift < 0 then
      { state with numerator := (state.numerator.shift ((0 - shift) % 2 ^ 32).toNat).2 }
    else { state with denominator := (state.denominator.shift (shift % 2 ^ 32).toNat).2 }
  if state.numerator.compare state.denominator = .lt then
    (signedWord (signedWord (exponent + shift) - 1),
      { state with numerator := (state.numerator.shift 1).2 })
  else (signedWord (exponent + shift), state)

end FloatParser

/-- Long division, one bit after another. -/
def floatQuotientBits (denominator : FloatUint) : Nat → FloatUint → Nat → Nat × FloatUint
  | 0, numerator, quotient => (quotient, numerator)
  | remaining + 1, numerator, quotient =>
      let numerator := (numerator.shift 1).2
      if numerator.compare denominator = .lt then
        floatQuotientBits denominator remaining numerator (wrapAdd (floatShiftLeft quotient 1) 0)
      else
        floatQuotientBits denominator remaining (numerator.subtract denominator)
          (wrapAdd (floatShiftLeft quotient 1) 1)

namespace FloatParser

def roundQuotient (state : FloatParser) (quotient : Nat) : Nat :=
  let comparison := (state.numerator.shift 1).2.compare state.denominator
  if comparison = .gt then wrapAdd quotient 1
  else if comparison = .eq then
    if quotient &&& 1 = 1 then wrapAdd quotient 1
    else if state.sticky then wrapAdd quotient 1
    else quotient
  else quotient

def signMask (state : FloatParser) : Nat :=
  if !state.negative then 0 else if state.code = 13 then 2147483648 else 9223372036854775808

def storeBits (state : FloatParser) (bits : Nat) : FloatResult × ParsedInteger :=
  (.value,
    { magnitude := wrapAdd bits state.signMask, negative := state.negative, radix := state.code })

/-- A significand that was rounded up to a power of two is halved. The exponent is at most the
maximum when it grows, and then the significand is no power of two again. -/
def encodeNormal (state : FloatParser) (output : ParsedInteger) (exponent : Int)
    (precision quotient : Nat) : FloatResult × ParsedInteger :=
  let bias : Int := if precision = 24 then 127 else 1023
  let maximum : Int := if precision = 24 then 127 else 1023
  if maximum < exponent then (.outOfRange, output)
  else if quotient = floatShiftLeft 1 precision then
    encodeNormal state output (exponent + 1) precision (quotient >>> 1)
  else
    state.storeBits
      (wrapAdd (floatShiftLeft ((exponent + bias) % wordLimit).toNat (precision - 1))
        (wrapSub quotient (floatShiftLeft 1 (precision - 1))))
termination_by (1024 - exponent).toNat
decreasing_by
  have bound : maximum ≤ 1023 := by
    dsimp only [maximum]
    split <;> norm_num
  omega

def encodeRatio (state : FloatParser) (output : ParsedInteger) (exponent : Int) :
    FloatResult × ParsedInteger :=
  let precision : Nat := if state.code = 13 then 24 else 53
  let minimum : Int := if state.code = 13 then -126 else -1022
  let minimumBit : Int := minimum - ((precision - 1 : Nat) : Int)
  if exponent < minimumBit - 1 then state.storeBits 0
  else if exponent = minimumBit - 1 then
    state.storeBits
      (if state.numerator.compare state.denominator = .eq then if state.sticky then 1 else 0 else 1)
  else
    let bits := if exponent < minimum then ((exponent - minimumBit + 1) % 2 ^ 32).toNat else precision
    let (quotient, numerator) := floatQuotientBits state.denominator (bits - 1)
      (state.numerator.subtract state.denominator) 1
    let state := { state with numerator := numerator }
    let quotient := state.roundQuotient quotient
    if exponent < minimum then state.storeBits quotient
    else state.encodeNormal output exponent precision quotient

def convertDecimal (state : FloatParser) (output : ParsedInteger) : FloatResult × ParsedInteger :=
  if state.digits = 0 then state.storeBits 0
  else
    let exponent := state.decimalExponent
    let order := signedWord (exponent + signedWord state.digits)
    if order < -350 then state.storeBits 0
    else if 310 < order then (.outOfRange, output)
    else
      let (done, state) := state.ratioScale exponent
      if !done then (.outOfRange, output)
      else
        let (exponent, state) := state.ratioNormalize exponent
        state.encodeRatio output exponent

end FloatParser

/-- Read a literal from the bytes of a token, with two arrays of words as scratch memory. -/
def parseFloatToken (data : Nat → UInt8) (start length : Nat) (numerator denominator : Nat → BitVec 32)
    (capacity : Nat) (output : ParsedInteger) : FloatResult × ParsedInteger :=
  if wrapAdd start length < start then (.outOfRange, output)
  else if 1152921504606846975 < wrapAdd start length then (.outOfRange, output)
  else if length = 0 then (.notFloat, output)
  else if capacity < 128 then (.outOfRange, output)
  else
    let first := data start
    let state := { FloatParser.initialized numerator denominator capacity with
      negative := first = 45 }
    let begins :=
      if first = 43 then wrapAdd start 1 else if first = 45 then wrapAdd start 1 else start
    let (valid, state) := state.parseMantissa data begins (wrapAdd start length)
    if valid then state.convertDecimal output else (.notFloat, output)

end Native
