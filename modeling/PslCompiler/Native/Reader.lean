import PslCompiler.Loops.Measured
import Mathlib.Data.List.Basic

/-! # The native reader

The scanner of the native compiler: trivia, strings, atoms with bars and escapes, punctuation, and
the token that each call of `scanNext` delivers.
-/

namespace Native

open Loops

/-- The kinds of tokens, which are also the kinds of the nodes built from them. -/
inductive TokenKind where
  | endOfFile
  | opening
  | closing
  | quote
  | quasiquote
  | unquote
  | splice
  | string
  | atom
  | function
  | invalid
  deriving Repr, DecidableEq

/-- The number that stands for a kind. -/
def TokenKind.code : TokenKind → Nat
  | .endOfFile => 0
  | .opening => 1
  | .closing => 2
  | .quote => 3
  | .quasiquote => 4
  | .unquote => 5
  | .splice => 6
  | .string => 7
  | .atom => 8
  | .function => 9
  | .invalid => 255

/-- The state of the scanner: its input, its position and its error mark. -/
structure Scanner where
  data : List UInt8
  cursor : Nat
  error : Bool
  deriving Repr, DecidableEq

/-- A token: its kind and its span in the input. -/
structure Token where
  kind : TokenKind
  start : Nat
  length : Nat
  deriving Repr, DecidableEq

namespace Scanner

/-- A scanner at the start of its input. -/
def start (data : List UInt8) : Scanner :=
  { data, cursor := 0, error := false }

/-- The number of bytes that are left. -/
def remaining (scanner : Scanner) : Nat :=
  scanner.data.length - scanner.cursor

/-- Whether the scanner stands at a byte. -/
def hasByte (scanner : Scanner) : Bool :=
  scanner.cursor < scanner.data.length

def byteAt (scanner : Scanner) (offset : Nat) : UInt8 :=
  scanner.data.getD offset 0

/-- The byte the scanner stands at, or zero at the end. -/
def peek (scanner : Scanner) : UInt8 :=
  if scanner.hasByte then scanner.byteAt scanner.cursor else 0

def advance (scanner : Scanner) : Scanner :=
  { scanner with cursor := scanner.cursor + 1 }

def fail (scanner : Scanner) : Scanner :=
  { scanner with error := true }

def commentContent (scanner : Scanner) : Bool :=
  scanner.hasByte && scanner.peek != 10

/-- Skip a comment up to the end of its line. -/
def skipComment : Scanner → Scanner :=
  repeatStep (fun scanner => if scanner.commentContent then some scanner.advance else none)
    remaining

/-- Consume a blank or a comment, if one is next. -/
def consumeTrivia (scanner : Scanner) : Option Scanner :=
  if scanner.hasByte then
    if scanner.peek < 33 then some scanner.advance
    else if scanner.peek = 59 then some scanner.skipComment else none
  else none

def skipTrivia : Scanner → Scanner :=
  repeatStep consumeTrivia remaining

def stringContent (scanner : Scanner) : Bool :=
  scanner.hasByte && scanner.peek != 34

/-- Read a byte of a string; a backslash takes the byte after it along. -/
def stringStep (scanner : Scanner) : Scanner :=
  if scanner.peek = 92 then
    if scanner.advance.hasByte then scanner.advance.advance else scanner.advance
  else scanner.advance

def scanString (scanner : Scanner) : TokenKind × Scanner :=
  let content := repeatStep
    (fun inside => if inside.stringContent then some inside.stringStep else none)
    remaining scanner.advance
  if content.hasByte then (.string, content.advance) else (.invalid, content)

/-- Whether a byte ends an atom. -/
def atomDelimiter (byte : UInt8) : Bool :=
  byte < 33 || byte = 40 || byte = 41 || byte = 34 || byte = 59 || byte = 39 || byte = 96 ||
    byte = 44

def barContent (scanner : Scanner) : Bool :=
  scanner.hasByte && scanner.peek != 124

/-- Read a backslash and the byte it protects. -/
def scanEscapedByte (scanner : Scanner) : Scanner :=
  if scanner.advance.hasByte then scanner.advance.advance else scanner.advance.fail

def scanBarStep (scanner : Scanner) : Scanner :=
  if scanner.peek = 92 then scanner.scanEscapedByte else scanner.advance

/-- Read the part of an atom between two bars. -/
def scanBar (scanner : Scanner) : Scanner :=
  let content := repeatStep
    (fun inside => if inside.barContent then some inside.scanBarStep else none)
    remaining scanner.advance
  if content.hasByte then content.advance else content.fail

def atomContent (scanner : Scanner) : Bool :=
  !scanner.error && scanner.hasByte && !atomDelimiter scanner.peek

def scanAtomStep (scanner : Scanner) : Scanner :=
  if scanner.peek = 124 then scanner.scanBar
  else if scanner.peek = 92 then scanner.scanEscapedByte
  else scanner.advance

def scanAtom (scanner : Scanner) : TokenKind × Scanner :=
  let content := repeatStep
    (fun inside => if inside.atomContent then some inside.scanAtomStep else none)
    remaining scanner
  (if content.error then .invalid else .atom, content)

/-- Whether the byte after the next one is the given one. -/
def nextByteIs (scanner : Scanner) (byte : UInt8) : Bool :=
  scanner.cursor + 1 < scanner.data.length && scanner.byteAt (scanner.cursor + 1) = byte

/-- Read punctuation, if the given byte starts any. -/
def scanPunctuation (scanner : Scanner) (byte : UInt8) : Option (TokenKind × Scanner) :=
  if byte = 40 then some (.opening, scanner.advance)
  else if byte = 41 then some (.closing, scanner.advance)
  else if byte = 39 then some (.quote, scanner.advance)
  else if byte = 96 then some (.quasiquote, scanner.advance)
  else if byte = 44 then
    if scanner.advance.peek = 64 then some (.splice, scanner.advance.advance)
    else some (.unquote, scanner.advance)
  else if byte = 35 then
    if scanner.nextByteIs 39 then some (.function, scanner.advance.advance) else none
  else none

def scanKind (scanner : Scanner) : TokenKind × Scanner :=
  if scanner.peek = 34 then scanner.scanString
  else
    match scanner.scanPunctuation scanner.peek with
    | some scanned => scanned
    | none => scanner.scanAtom

/-- The token of the given kind between a position and the scanner. -/
def finishToken (scanner : Scanner) (start : Nat) (kind : TokenKind) : Token :=
  { kind, start, length := scanner.cursor - start }

/-- Read the next token. -/
def scanNext (scanner : Scanner) : Token × Scanner :=
  let started := scanner.skipTrivia
  if started.hasByte then
    let scanned := started.scanKind
    (scanned.2.finishToken started.cursor scanned.1, scanned.2)
  else (started.finishToken started.cursor .endOfFile, started)

end Scanner

end Native
