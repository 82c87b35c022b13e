import PslCompiler.Loading.DepthFirst
import PslCompiler.Native.Layout
import PslCompiler.Native.Parser

/-! # Loading a source unit

The native compiler reads a file and all files that it includes into one buffer before it compiles
them. Each file has a parser of its own; the list of files, the buffer and the tables of the reader
are shared. The file system is a parameter, and so are the symbol tables of the reader, of which the
loader asks whether a word is a builtin one. Memory for the tables is always there.
-/

namespace Native

abbrev SourcePath := List UInt8

/-- The files of the host by their canonical paths, of which there are finitely many, and whether
paths follow the rules of Windows. -/
structure SourceHost where
  canonicalPath : SourcePath → Option SourcePath
  readFile : SourcePath → Option (List UInt8)
  windowsPaths : Bool
  files : List SourcePath
  known : ∀ path canonical, canonicalPath path = some canonical → canonical ∈ files

/-- What the loader asks of the symbol tables: to make room for the names of a file, to resolve the
symbols of the nodes that a parser has added, to compare the symbol of a node with a builtin one, and
to carry out a package form. Each file has its own symbols for its nodes. -/
structure SourceReader (State Symbols : Type) where
  seedStandard : Option State
  reserve : State → Nat → Option State
  noSymbols : Symbols
  resolveIdentities : State → Symbols → Parser → Option (State × Symbols)
  builtinWordP : State → Symbols → Parser → Nat → String → Bool
  applyPackageForm : State → Symbols → Parser → Nat → Option State

/-- The numbers of the reports, from one on. -/
inductive SourceReport
  | unreadable
  | circular
  | rejected
  | malformed
  | duplicate
  deriving DecidableEq, Repr

structure SourceFile where
  path : SourcePath
  active : Bool
  deriving DecidableEq, Repr

/-- The unit: its buffer, the files so far with the latest first, the C sources, the reader, and what
has been reported. -/
structure SourceUnit (State : Type) where
  bytes : List UInt8 := []
  capacity : Nat := 0
  files : List SourceFile := []
  cSources : List SourcePath := []
  state : State
  reports : List (SourceReport × SourcePath) := []

/-- A file that is being read. -/
structure SourceFrame (Symbols : Type) where
  path : SourcePath
  parser : Parser
  root : Nat
  status : Bool
  symbols : Symbols

namespace Parser

/-- A call of the parser, which returns within so many steps (`next_outcome`). -/
def parserNext (parser : Parser) : Nat × Parser :=
  (next (parser.scanner.data.length + 2) parser).getD (0, parser)

end Parser

/-! ## Buffers -/

section Buffers

variable {State : Type} (unit : SourceUnit State)

def SourceUnit.report (report : SourceReport) (path : SourcePath) : SourceUnit State :=
  { unit with reports := unit.reports ++ [(report, path)] }

def sourceGrowBuffer (needed : Nat) : SourceUnit State :=
  if unit.capacity < needed then { unit with capacity := needed } else unit

/-- Copy a form, and a newline after it; a zero stands behind the buffer. -/
def sourceCopyForm (form : List UInt8) : SourceUnit State :=
  { unit with bytes := unit.bytes ++ form ++ [10] }

/-- Append a form unless the buffer would leave the words. -/
def sourceAppendForm (form : List UInt8) : Bool × SourceUnit State :=
  let length := unit.bytes.length
  let end_ := wrapAdd length form.length
  if end_ < length then (false, unit)
  else
    let needed := wrapAdd end_ 2
    if needed < end_ then (false, unit)
    else (true, sourceCopyForm (sourceGrowBuffer unit needed) form)

def sourceFindFile (path : SourcePath) : Option SourceFile :=
  unit.files.find? fun file => file.path == path

def sourceAddFile (path : SourcePath) : SourceUnit State :=
  { unit with files := ⟨path, true⟩ :: unit.files }

/-- The file is no longer being read. -/
def SourceUnit.finish (path : SourcePath) : SourceUnit State :=
  { unit with
    files := unit.files.map fun file =>
      if file.path == path then { file with active := false } else file }

end Buffers

/-! ## Paths -/

def sourcePathAbsoluteP (name : SourcePath) (windows : Bool) : Bool :=
  match name with
  | [] => false
  | first :: rest => first = 47 || windows && (first = 92 || rest.head? = some 58)

/-- The path up to its last separator. -/
def sourceDirectory (parent : SourcePath) (windows : Bool) : SourcePath :=
  (parent.reverse.dropWhile fun byte => byte ≠ 47 && !(windows && byte = 92)).reverse

/-- A name in an INCLUDE is relative to the directory of the file it stands in. -/
def sourceIncludePath (host : SourceHost) (parent name : SourcePath) : SourcePath :=
  if sourcePathAbsoluteP name host.windowsPaths then name
  else sourceDirectory parent host.windowsPaths ++ name

/-! ## Forms -/

/-- What a form is to the loader: rejected, kept, the inclusion of a file, or of a C source. -/
inductive SourceFormKind
  | rejected
  | kept
  | included
  | cSource
  deriving DecidableEq, Repr

section Kinds

variable {State Symbols : Type} (reader : SourceReader State Symbols) (state : State)
  (symbols : Symbols) (parser : Parser) (root : Nat)

def sourceBuiltinHeadP (word : String) : Bool :=
  let form := parser.nodes root
  if form.kind = .opening then
    if form.first = 0 then false
    else if (parser.nodes form.first).kind = .atom then
      reader.builtinWordP state symbols parser form.first word
    else false
  else false

/-- The only argument of a form, if it is a string. -/
def sourceIncludeString : Nat :=
  let argument := (parser.nodes (parser.nodes root).first).next
  if argument = 0 then 0
  else if (parser.nodes argument).kind = .string then
    if (parser.nodes argument).next = 0 then argument else 0
  else 0

def nativeSourceFormKind : SourceFormKind :=
  if sourceBuiltinHeadP reader state symbols parser root "include" then
    if sourceIncludeString parser root = 0 then .rejected else .included
  else if sourceBuiltinHeadP reader state symbols parser root "ffi:source" then
    if sourceIncludeString parser root = 0 then .rejected else .cSource
  else .kept

/-- Whether a form defines or selects a package. -/
def nativeSourcePackageP : Bool :=
  if root = 0 ∨ parser.count < root then false
  else
    let form := parser.nodes root
    if form.kind = .opening then
      reader.builtinWordP state symbols parser form.first "defpackage" ||
        reader.builtinWordP state symbols parser form.first "in-package"
    else false

end Kinds

section Forms

variable {State Symbols : Type} (reader : SourceReader State Symbols)

/-- Resolve the symbols of a form and find out what it is; package forms are carried out, and
kept. -/
def nativeSourceReaderForm (state : State) (symbols : Symbols) (parser : Parser) (root : Nat) :
    SourceFormKind × State × Symbols :=
  match reader.resolveIdentities state symbols parser with
  | none => (.rejected, state, symbols)
  | some (state, symbols) =>
      if nativeSourcePackageP reader state symbols parser root then
        match reader.applyPackageForm state symbols parser root with
        | none => (.rejected, state, symbols)
        | some after => (.kept, after, symbols)
      else (nativeSourceFormKind reader state symbols parser root, state, symbols)

/-- The text of a string without its quotes and escapes; a zero cannot be in a path. -/
def sourceStringCopy : List UInt8 → Option SourcePath
  | [] => some []
  | [byte] => if byte = 92 ∨ byte = 0 then none else some [byte]
  | byte :: next :: rest =>
      if byte = 92 then
        if next = 0 then none else (sourceStringCopy rest).map (next :: ·)
      else if byte = 0 then none
      else (sourceStringCopy (next :: rest)).map (byte :: ·)

/-- The bytes of a node. -/
def Parser.text (parser : Parser) (reference : Nat) : List UInt8 :=
  (parser.scanner.data.drop (parser.nodes reference).start).take (parser.nodes reference).length

/-- The name in an INCLUDE or a C source. -/
def nativeSourceName (parser : Parser) (root : Nat) : Option SourcePath :=
  let node := parser.nodes (sourceIncludeString parser root)
  sourceStringCopy ((parser.scanner.data.drop (node.start + 1)).take (node.length - 2))

end Forms

/-! ## C sources -/

section CSources

variable {State : Type}

/-- Record the path of a C source, which can be there only once. -/
def sourceRecordCPath (host : SourceHost) (unit : SourceUnit State) (path : SourcePath)
    (parser : Parser) (root : Nat) : Bool × SourceUnit State :=
  match nativeSourceName parser root with
  | none => (false, unit)
  | some name =>
      let combined := sourceIncludePath host path name
      match host.canonicalPath combined with
      | none => (false, unit.report .unreadable combined)
      | some canonical =>
          if canonical ∈ unit.cSources then (false, unit.report .duplicate canonical)
          else (true, { unit with cSources := unit.cSources ++ [canonical] })

end CSources

/-! ## Files -/

section Load

variable {State Symbols : Type} (host : SourceHost) (reader : SourceReader State Symbols)

/-- Load the file of an INCLUDE. -/
def sourceLoadInclude (load : SourceUnit State → SourcePath → Option (Bool × SourceUnit State))
    (unit : SourceUnit State) (frame : SourceFrame Symbols) : Option (Bool × SourceUnit State) :=
  match nativeSourceName frame.parser frame.root with
  | none => some (false, unit)
  | some name => load unit (sourceIncludePath host frame.path name)

/-- Process the form that a frame stands at. -/
def sourceProcessForm (load : SourceUnit State → SourcePath → Option (Bool × SourceUnit State))
    (unit : SourceUnit State) (frame : SourceFrame Symbols) :
    Option (Bool × SourceUnit State × SourceFrame Symbols) :=
  let (kind, state, symbols) :=
    nativeSourceReaderForm reader unit.state frame.symbols frame.parser frame.root
  let unit := { unit with state }
  let frame := { frame with symbols }
  match kind with
  | .included => (sourceLoadInclude host load unit frame).map fun done => (done.1, done.2, frame)
  | .cSource =>
      let done := sourceRecordCPath host unit frame.path frame.parser frame.root
      some (done.1, done.2, frame)
  | .kept =>
      let done := sourceAppendForm unit (frame.parser.text frame.root)
      some (done.1, done.2, frame)
  | .rejected => some (false, unit.report .rejected frame.path, frame)

/-- Go on to the next form. -/
def SourceFrame.advance (frame : SourceFrame Symbols) : SourceFrame Symbols :=
  let parsed := frame.parser.parserNext
  { frame with root := parsed.1, parser := parsed.2 }

def sourceFramePendingP (frame : SourceFrame Symbols) : Bool :=
  frame.status && frame.root ≠ 0

/-- The loop over the forms of a file; `none` is a loop that has not ended yet. -/
def sourceLoadPending (load : SourceUnit State → SourcePath → Option (Bool × SourceUnit State)) :
    Nat → SourceUnit State → SourceFrame Symbols →
      Option (SourceUnit State × SourceFrame Symbols)
  | 0, _, _ => none
  | steps + 1, unit, frame =>
      if sourceFramePendingP frame then do
        let (status, unit, frame) ← sourceProcessForm host reader load unit frame
        let frame := { frame with status }
        sourceLoadPending load steps unit (if status then frame.advance else frame)
      else some (unit, frame)

/-- Process the forms of a file, which must end without an error. -/
def sourceLoadForms (load : SourceUnit State → SourcePath → Option (Bool × SourceUnit State))
    (unit : SourceUnit State) (frame : SourceFrame Symbols) : Option (Bool × SourceUnit State) := do
  let steps := frame.parser.scanner.data.length + 2
  let (unit, frame) ← sourceLoadPending host reader load steps unit frame.advance
  return if frame.parser.error = .none then (frame.status, unit)
    else (false, unit.report .malformed frame.path)

/-- A parser with as many nodes as there are bytes, and one more. -/
def sourceParser (data : List UInt8) : Parser :=
  Parser.start data ⟨.endOfFile, 0, 0⟩ (fun _ => ⟨.endOfFile, 0, 0, 0, 0, 0, 0, false⟩)
    (data.length + 1)

/-- Read a file and make room for its names; whether that has been possible. -/
def sourcePrepareFrame (unit : SourceUnit State) (path : SourcePath) :
    Option (SourceFrame Symbols) × SourceUnit State :=
  match host.readFile path with
  | none => (none, unit.report .unreadable path)
  | some data =>
      match reader.reserve unit.state data.length with
      | none => (none, unit)
      | some state => (some ⟨path, sourceParser data, 0, true, reader.noSymbols⟩, { unit with state })

def sourceLoadNewFile (load : SourceUnit State → SourcePath → Option (Bool × SourceUnit State))
    (unit : SourceUnit State) (path : SourcePath) : Option (Bool × SourceUnit State) :=
  match sourcePrepareFrame host reader unit path with
  | (none, unit) => some (false, unit)
  | (some frame, unit) => do
      let (result, unit) ← sourceLoadForms host reader load unit frame
      return (result, unit.finish path)

def sourceCheckExistingFile (unit : SourceUnit State) (file : SourceFile) :
    Bool × SourceUnit State :=
  if file.active then (false, unit.report .circular file.path) else (true, unit)

/-- Load a file; the number bounds how deep files include each other. -/
def sourceLoadFile : Nat → SourceUnit State → SourcePath → Option (Bool × SourceUnit State)
  | 0, _, _ => none
  | levels + 1, unit, path =>
      match host.canonicalPath path with
      | none => some (false, unit.report .unreadable path)
      | some canonical =>
          match sourceFindFile unit canonical with
          | none =>
              sourceLoadNewFile host reader (sourceLoadFile levels) (sourceAddFile unit canonical)
                canonical
          | some file => some (sourceCheckExistingFile unit file)

/-- Read a file with all that it includes: the bytes and the C sources, or nothing. -/
def nativeReadSourceUnit (levels : Nat) (path : SourcePath) :
    Option (Option (List UInt8 × List SourcePath)) :=
  match reader.seedStandard with
  | none => some none
  | some state => do
      let (status, unit) ← sourceLoadFile host reader levels { state } path
      return if status then some (unit.bytes, unit.cSources) else none

end Load

end Native
