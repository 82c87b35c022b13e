import PslCompiler.Native.Reader
import Mathlib.Logic.Function.Basic

/-! # The native parser

A recursive descent over the tokens with one token of lookahead. Nodes live in an arena that the
caller owns, references count from one, and zero is no node. An error stays once it is set.
-/

namespace Native

/-- A node of the syntax arena; a compiler-generated integer keeps its value in the last two
fields. -/
structure AstNode where
  kind : TokenKind
  start : Nat
  length : Nat
  first : Nat
  last : Nat
  next : Nat
  integerMagnitude : Nat
  integerNegative : Bool
  deriving Repr, DecidableEq

/-- The error codes of the parser, in the order of their numbers from zero on. -/
inductive ParserError where
  | none
  | invalidToken
  | unexpectedClosing
  | unexpectedEnd
  | arenaFull
  deriving Repr, DecidableEq

/-- The parser: its scanner, the token it looks at, its arena and its error. -/
structure Parser where
  scanner : Scanner
  token : Token
  hasToken : Bool
  nodes : Nat → AstNode
  count : Nat
  capacity : Nat
  error : ParserError

namespace Parser

def fail (parser : Parser) (error : ParserError) : Parser :=
  { parser with error }

/-- Look at the next token, which is read unless it has been looked at before. -/
def peek (parser : Parser) : TokenKind × Parser :=
  if parser.hasToken then (parser.token.kind, parser)
  else
    let scanned := parser.scanner.scanNext
    let read := { parser with hasToken := true, token := scanned.1, scanner := scanned.2 }
    if scanned.1.kind = .invalid then (scanned.1.kind, read.fail .invalidToken)
    else (scanned.1.kind, read)

def consume (parser : Parser) : Parser :=
  { parser with hasToken := false }

/-- Allocate a node without children; zero when the arena is full. -/
def newNode (parser : Parser) (kind : TokenKind) (start length : Nat) : Nat × Parser :=
  if parser.count < parser.capacity then
    let reference := parser.count + 1
    let node : AstNode :=
      { kind, start, length, first := 0, last := 0, next := 0
        integerMagnitude := 0, integerNegative := false }
    (reference,
      { parser with nodes := Function.update parser.nodes reference node, count := reference })
  else (0, parser.fail .arenaFull)

/-- Put a reference into a node as its next sibling. -/
def setNext (nodes : Nat → AstNode) (reference next : Nat) : Nat → AstNode :=
  Function.update nodes reference { nodes reference with next }

/-- Link a child behind the last child of its parent. -/
def append (parser : Parser) (parent child : Nat) : Nat × Parser :=
  if child = 0 then (0, parser)
  else
    let last := (parser.nodes parent).last
    let linked :=
      if last = 0 then
        Function.update parser.nodes parent { parser.nodes parent with first := child }
      else setNext parser.nodes last child
    (child,
      { parser with nodes := Function.update linked parent { linked parent with last := child } })

/-- Whether a list has another child; the end of the input inside a list is an error. -/
def listMore (parser : Parser) : Bool × Parser :=
  if parser.error = .none then
    match parser.peek with
    | (.closing, peeked) => (false, peeked)
    | (.endOfFile, peeked) => (false, peeked.fail .unexpectedEnd)
    | (.invalid, peeked) => (false, peeked)
    | (_, peeked) => (true, peeked)
  else (false, parser)

/-- Parse the children of a list; `none` is a loop that has not ended yet. -/
def listChildren (next : Parser → Option (Nat × Parser)) (reference : Nat) :
    Nat → Parser → Option Parser
  | 0, _ => none
  | count + 1, parser =>
      match parser.listMore with
      | (false, ended) => some ended
      | (true, more) => do
          let child ← next more
          listChildren next reference count (child.2.append reference child.1).2

/-- Set the length of a list node to what has been read since its start. -/
def closeList (parser : Parser) (reference start : Nat) : Parser :=
  { parser with
    nodes := Function.update parser.nodes reference
      { parser.nodes reference with length := parser.scanner.cursor - start } }

def list (next : Parser → Option (Nat × Parser)) (count : Nat) (parser : Parser) (start : Nat) :
    Option (Nat × Parser) :=
  let opened := parser.newNode .opening start 0
  if opened.1 = 0 then some (0, opened.2)
  else do
    let filled ← listChildren next opened.1 count opened.2
    if filled.error = .none then some (opened.1, filled.consume.closeList opened.1 start)
    else some (0, filled)

/-- Parse the operand of a quote or another reader mark. -/
def prefixForm (next : Parser → Option (Nat × Parser)) (parser : Parser) (kind : TokenKind)
    (start length : Nat) : Option (Nat × Parser) :=
  let marked := parser.newNode kind start length
  if marked.1 = 0 then some (0, marked.2)
  else do
    let child ← next marked.2
    let linked := child.2.append marked.1 child.1
    if linked.1 = 0 then
      if linked.2.error = .none then some (0, linked.2.fail .unexpectedEnd)
      else some (0, linked.2)
    else some (marked.1, linked.2)

def form (next : Parser → Option (Nat × Parser)) (count : Nat) (parser : Parser)
    (kind : TokenKind) (start length : Nat) : Option (Nat × Parser) :=
  match kind with
  | .opening => list next count parser start
  | .closing => some (0, parser.fail .unexpectedClosing)
  | .quote => prefixForm next parser .quote start length
  | .quasiquote => prefixForm next parser .quasiquote start length
  | .unquote => prefixForm next parser .unquote start length
  | .splice => prefixForm next parser .splice start length
  | .function => prefixForm next parser .function start length
  | kind => some (parser.newNode kind start length)

/-- Parse the next form; zero at the end of the input and after an error. The number bounds the
nesting and the iterations of each loop, and `none` is a call that has not returned within it. -/
def next : Nat → Parser → Option (Nat × Parser)
  | 0, _ => none
  | count + 1, parser =>
      if parser.error = .none then
        match parser.peek with
        | (.endOfFile, peeked) => some (0, peeked)
        | (.invalid, peeked) => some (0, peeked)
        | (kind, peeked) =>
            form (next count) count peeked.consume kind peeked.token.start peeked.token.length
      else some (0, parser)

/-- Call `next` until it returns zero, and collect the references of the forms. -/
def forms (count : Nat) : Nat → Parser → Option (List Nat × Parser)
  | 0, _ => none
  | calls + 1, parser => do
      let parsed ← next count parser
      if parsed.1 = 0 then some ([], parsed.2)
      else
        let others ← forms count calls parsed.2
        some (parsed.1 :: others.1, others.2)

/-- A parser at the start of an input, with an arena of the given capacity. -/
def start (data : List UInt8) (token : Token) (nodes : Nat → AstNode) (capacity : Nat) : Parser :=
  { scanner := Scanner.start data, token, hasToken := false, nodes, count := 0, capacity
    error := .none }

end Parser

end Native
