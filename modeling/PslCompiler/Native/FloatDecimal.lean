import PslCompiler.Native.FloatIntegers
import PslCompiler.Native.IntegerSpans

/-! # Reading decimal literals

A decimal literal has a sign, digits with at most one point, and a marker that selects the format
and comes with an exponent. The reader keeps the first 800 significant digits and remembers of the
others how many there were and whether one of them was not zero.
-/

namespace Native

/-! ## The reader -/

/-- `native_float_parser`. The mantissa is a numerator and a denominator of one. -/
structure FloatParser where
  numerator : FloatUint
  denominator : FloatUint
  digits : Nat := 0
  fractional : Nat := 0
  discarded : Nat := 0
  exponent : Int := 0
  code : Nat := 13
  negative : Bool := false
  sticky : Bool := false
  sawDigit : Bool := false
  sawPoint : Bool := false
  sawMarker : Bool := false
  status : Bool := false
  cursor : Nat := 0

/-- A signed word of 64 bits. -/
def signedWord (number : Int) : Int := number.bmod wordLimit

def sourceFloatCodeP (code : Nat) : Bool :=
  code = 13 || code = 14

def floatMarkerCode (byte : UInt8) : Nat :=
  let letter := byte &&& 223
  if letter = 68 then 14
  else if letter = 76 then 14
  else if letter = 69 then 13
  else if letter = 70 then 13
  else if letter = 83 then 13
  else 0

def floatDecimalDigit (byte : UInt8) : Bool :=
  if byte < 48 then false else if byte < 58 then true else false

namespace FloatParser

def initialized (numerator denominator : Nat → BitVec 32) (capacity : Nat) : FloatParser where
  numerator := .initialized numerator capacity 0
  denominator := .initialized denominator capacity 1

/-- The result of the product is not looked at: the kept digits always fit. -/
def keepDigit (state : FloatParser) (digit : Nat) : FloatParser :=
  { state with
    digits := wrapAdd state.digits 1
    numerator := (state.numerator.multiplyAdd 10 digit).2 }

def accumulateDigit (state : FloatParser) (digit : Nat) : FloatParser :=
  let state := { state with
    sawDigit := true
    fractional := if state.sawPoint then wrapAdd state.fractional 1 else state.fractional }
  if state.digits = 0 then if digit = 0 then state else state.keepDigit digit
  else if state.digits < 800 then state.keepDigit digit
  else
    { state with
      discarded := wrapAdd state.discarded 1
      sticky := if digit = 0 then state.sticky else true }

/-- A digit of the exponent. Beyond a limit, larger than any exponent that makes a difference, the
exponent stays what it is. -/
def exponentDigit (state : FloatParser) (data : Nat → UInt8) (finish limit : Nat) : FloatParser :=
  let byte := data state.cursor
  if floatDecimalDigit byte then
    let next := wrapAdd ((state.exponent % wordLimit).toNat * 10 % wordLimit) (byte - 48).toNat
    { state with
      exponent := signedWord (if limit < next then limit else next)
      cursor := wrapAdd state.cursor 1 }
  else { state with status := false, cursor := finish }

/-- The loop over the digits of an exponent, with a bound on the digits that are left. -/
def exponentDigits (data : Nat → UInt8) (finish limit : Nat) : Nat → FloatParser → FloatParser
  | 0, state => state
  | ahead + 1, state =>
      if state.cursor < finish then
        exponentDigits data finish limit ahead (state.exponentDigit data finish limit)
      else state

def parseExponent (state : FloatParser) (data : Nat → UInt8) (index finish : Nat) :
    Bool × FloatParser :=
  if index = finish then (false, state)
  else
    let first := data index
    let digits :=
      if first = 43 then wrapAdd index 1 else if first = 45 then wrapAdd index 1 else index
    if digits = finish then (false, state)
    else
      let state := exponentDigits data finish (wrapAdd finish 1024) (finish - digits)
        { state with cursor := digits, status := true }
      let state := if first = 45 then { state with exponent := signedWord (0 - state.exponent) }
        else state
      (state.status, state)

def scanMantissaCharacter (state : FloatParser) (data : Nat → UInt8) (finish : Nat) :
    FloatParser :=
  let index := state.cursor
  let byte := data index
  if floatDecimalDigit byte then
    { state.accumulateDigit (byte - 48).toNat with cursor := wrapAdd index 1 }
  else if byte = 46 && !state.sawPoint then
    { state with sawPoint := true, cursor := wrapAdd index 1 }
  else
    let state := { state with sawMarker := true }
    let code := floatMarkerCode byte
    let (status, state) :=
      if code = 0 then (false, state)
      else if !state.sawDigit then (false, state)
      else { state with code := code }.parseExponent data (wrapAdd index 1) finish
    { state with status := status, cursor := finish }

/-- The loop over a literal, with a bound on the characters that are left. -/
def scanMantissa (data : Nat → UInt8) (finish : Nat) : Nat → FloatParser → FloatParser
  | 0, state => state
  | ahead + 1, state =>
      if state.cursor < finish then
        scanMantissa data finish ahead (state.scanMantissaCharacter data finish)
      else state

def parseMantissa (state : FloatParser) (data : Nat → UInt8) (index finish : Nat) :
    Bool × FloatParser :=
  let state := scanMantissa data finish (finish - index) { state with cursor := index }
  if state.sawMarker then (state.status, state)
  else if !state.sawDigit then (false, state)
  else if state.sawPoint then (decide (state.fractional ≠ 0), state)
  else (false, state)

def decimalExponent (state : FloatParser) : Int :=
  signedWord (signedWord (state.exponent + signedWord state.discarded) - signedWord state.fractional)

end FloatParser

end Native
