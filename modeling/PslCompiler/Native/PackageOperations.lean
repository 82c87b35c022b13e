import PslCompiler.Native.Environment

/-! # Reading symbols and changing packages

The reader of one symbol token, and the package operations of the language. Each operation checks
its conflicts before it changes a table.
-/

namespace Native

open Chains

/-- The state of the reader of a symbol token: the bytes of the name so far, the position, the
separators it has met, and its error. -/
structure ReadState where
  text : List UInt8
  cursor : Nat
  qualifier : Nat
  separator : Nat
  separators : Nat
  bar : Bool
  escape : Bool
  body : Bool
  uninterned : Bool
  error : EnvironmentError
  deriving Repr, DecidableEq

namespace ReadState

def reset (uninterned : Bool) (cursor : Nat) : ReadState :=
  { text := [], cursor, qualifier := 0, separator := 0, separators := 0, bar := false
    escape := false, body := uninterned, uninterned, error := .none }

def fail (state : ReadState) (error : EnvironmentError) : ReadState :=
  if state.error = .none then { state with error } else state

def upper (byte : UInt8) : UInt8 :=
  if 96 < byte then if byte < 123 then byte - 32 else byte else byte

/-- Append a byte to the name, if the name table has room for it. -/
def append (env : Environment) (state : ReadState) (byte : UInt8) : ReadState :=
  if ({ env with nameCount := env.nameCount + state.text.length } : Environment).namesRoom 1 then
    { state with text := state.text ++ [byte], body := true }
  else state.fail .capacity

/-- A package separator: one colon, or two that follow each other. -/
def colon (state : ReadState) : ReadState :=
  if state.uninterned then state.fail .token
  else if state.separators = 0 then
    { state with
      qualifier := state.text.length, separator := state.cursor, separators := 1, body := false }
  else if state.separators = 1 && state.cursor = state.separator + 1 then
    { state with separators := 2, body := false }
  else state.fail .token

def delimiter (byte : UInt8) : Bool :=
  byte < 33 || byte = 40 || byte = 41 || byte = 34 || byte = 59 || byte = 39 || byte = 96 ||
    byte = 44

def byte (env : Environment) (state : ReadState) (byte : UInt8) : ReadState :=
  if state.escape then ({ state with escape := false } : ReadState).append env byte
  else if byte = 92 then { state with escape := true }
  else if byte = 124 then { state with bar := !state.bar, body := true }
  else if state.bar then state.append env byte
  else if byte = 58 then state.colon
  else if delimiter byte then state.fail .token
  else state.append env (upper byte)

/-- Read the bytes that are left, up to the first error. -/
def scanFrom (env : Environment) : List UInt8 → ReadState → ReadState
  | [], state => state
  | first :: rest, state =>
      if state.error = .none then
        scanFrom env rest { state.byte env first with cursor := state.cursor + 1 }
      else state

/-- Read a token to its end, which is an error inside bars, after a backslash or without a name. -/
def scan (env : Environment) (data : List UInt8) (state : ReadState) : ReadState :=
  let scanned := state.scanFrom env (data.drop state.cursor)
  if !scanned.bar && !scanned.escape && scanned.body then scanned else scanned.fail .token

end ReadState

namespace Environment

/-- Move the last bytes of the name table to a position before them. -/
def readCompact (env : Environment) (start source length : Nat) : Environment :=
  { env with
    names := writeName env.names start (env.nameAt source length)
    nameCount := start + length }

def readIntern (env : Environment) (package start source length : Nat) : Nat × Environment :=
  (env.readCompact start source length).internNameSpan package start length

def readExternal (env : Environment) (package start source length : Nat) : Nat × Environment :=
  let entry := env.findPresent package (env.nameAt source length) true
  let released : Environment := { env with nameCount := start }
  if entry = 0 then released.fail .external else ((env.presences entry).symbol, released)

def readQualified (env : Environment) (state : ReadState) (start : Nat) : Nat × Environment :=
  let source := start + state.qualifier
  let package := env.findPackage (env.nameAt start state.qualifier)
  let length := env.nameCount - source
  if package = 0 then ({ env with nameCount := start } : Environment).fail .package
  else if package = env.keywordPackage then env.readIntern package start source length
  else if state.separators = 1 then env.readExternal package start source length
  else env.readIntern package start source length

def readFinish (env : Environment) (state : ReadState) (start : Nat) : Nat × Environment :=
  let length := env.nameCount - start
  if state.uninterned then env.uninternedSpan start length
  else if state.separators = 0 then env.internNameSpan env.currentPackage start length
  else if state.separator = 0 then env.readIntern env.keywordPackage start start length
  else env.readQualified state start

/-- Read one token into the name table and find or make its symbol. -/
def readSymbolBody (env : Environment) (data : List UInt8) (uninterned : Bool) (cursor : Nat) :
    Nat × Environment :=
  let state := (ReadState.reset uninterned cursor).scan env data
  let read : Environment :=
    { env with
      names := writeName env.names env.nameCount state.text
      nameCount := env.nameCount + state.text.length
      error := state.error }
  if state.error = .none then read.readFinish state env.nameCount
  else (0, { read with nameCount := env.nameCount })

def readSymbol (env : Environment) (data : List UInt8) : Nat × Environment :=
  if env.error = .none then
    if data.length = 0 then env.fail .token
    else if data.getD 0 0 = 35 then
      if 1 < data.length then
        if data.getD 1 0 = 58 then env.readSymbolBody data true 2 else env.fail .token
      else env.fail .token
    else env.readSymbolBody data false 0
  else (0, env)

def presenceForSymbol (env : Environment) (package symbol : Nat) : Nat :=
  env.findPresent package (env.symbolName symbol) false

def accessibleSymbol (env : Environment) (package symbol : Nat) : Nat × Environment :=
  env.findSymbol package (env.symbolName symbol)

def packageSymbolValid (env : Environment) (package symbol : Nat) : Nat × Environment :=
  if env.error = .none then
    if env.packageValid package then
      if env.symbolValid symbol then (1, env) else env.fail .reference
    else env.fail .reference
  else (0, env)

/-- Set the home package of a symbol. -/
def setHome (env : Environment) (symbol package : Nat) : Environment :=
  { env with
    symbols := Function.update env.symbols symbol { env.symbols symbol with package } }

/-- Set the flags of a presence. -/
def setFlags (env : Environment) (entry : Nat) (external shadowing : Bool) : Environment :=
  { env with
    presences := Function.update env.presences entry
      { env.presences entry with external, shadowing } }

/-- Make a symbol present, and give it a home if it has none. -/
def importCommit (env : Environment) (package symbol : Nat) : Nat × Environment :=
  let added :=
    if env.presenceForSymbol package symbol = 0 then env.addPresence package symbol false false
    else (symbol, env)
  if added.1 = 0 then (0, added.2)
  else if (added.2.symbols symbol).package = 0 then (added.1, added.2.setHome symbol package)
  else added

def importSymbol (env : Environment) (package symbol : Nat) : Nat × Environment :=
  let valid := env.packageSymbolValid package symbol
  if valid.1 = 0 then (0, valid.2)
  else
    let prior := env.accessibleSymbol package symbol
    if prior.2.error = .none then
      if prior.1 = 0 || prior.1 = symbol then prior.2.importCommit package symbol
      else prior.2.fail .conflict
    else (0, prior.2)

/-- Whether a symbol can become visible in a package without a conflict. -/
def candidateVisible (env : Environment) (package symbol : Nat) : Bool × Environment :=
  let present := env.presenceForSymbol package symbol
  if 0 < present then
    ((env.presences present).shadowing || (env.presences present).symbol = symbol, env)
  else
    let prior := env.accessibleSymbol package symbol
    if prior.2.error = .none then (prior.1 = 0 || prior.1 = symbol, prior.2) else (false, prior.2)

/-- Check the external symbols among some presences against a package. -/
def validateUseExports (env : Environment) (package : Nat) : List Nat → Nat × Environment
  | [] => (1, env)
  | entry :: rest =>
      if (env.presences entry).external then
        let visible := env.candidateVisible package (env.presences entry).symbol
        if visible.1 then visible.2.validateUseExports package rest
        else visible.2.fail .conflict
      else env.validateUseExports package rest

def usePackage (env : Environment) (package used : Nat) : Nat × Environment :=
  if env.error = .none then
    if env.packageValid package then
      if env.packageValid used then
        if package = env.keywordPackage then env.fail .operation
        else if env.hasUse package used then (1, env)
        else
          let chain := trace (fun reference => (env.presences reference).next) env.presentCount
            (env.packages used).present
          let valid := env.validateUseExports package chain
          if valid.1 = 0 then (0, valid.2) else valid.2.linkUse package used
      else env.fail .reference
    else env.fail .reference
  else (0, env)

/-- Check a symbol that becomes external against the packages that use its exporter. -/
def validateExportUsers (env : Environment) (exporter symbol : Nat) : List Nat → Nat × Environment
  | [] => (1, env)
  | package :: rest =>
      if env.hasUse package exporter then
        let visible := env.candidateVisible package symbol
        if visible.1 then visible.2.validateExportUsers exporter symbol rest
        else visible.2.fail .conflict
      else env.validateExportUsers exporter symbol rest

def markExternal (env : Environment) (package symbol : Nat) : Nat × Environment :=
  let present := env.presenceForSymbol package symbol
  if present = 0 then env.addPresence package symbol true false
  else (symbol, env.setFlags present true (env.presences present).shadowing)

def exportSymbol (env : Environment) (package symbol : Nat) : Nat × Environment :=
  let valid := env.packageSymbolValid package symbol
  if valid.1 = 0 then (0, valid.2)
  else
    let prior := env.accessibleSymbol package symbol
    if prior.1 = symbol then
      let users := prior.2.validateExportUsers package symbol (List.range' 1 env.packageCount)
      if users.1 = 0 then (0, users.2) else users.2.markExternal package symbol
    else prior.2.fail .conflict

def markShadowing (env : Environment) (entry : Nat) : Nat × Environment :=
  ((env.presences entry).symbol, env.setFlags entry (env.presences entry).external true)

def shadowName (env : Environment) (package : Nat) (name : List UInt8) : Nat × Environment :=
  if env.error = .none then
    if env.packageValid package then
      let present := env.findPresent package name false
      if 0 < present then env.markShadowing present
      else
        let made := env.newSymbol package name
        if made.1 = 0 then (0, made.2)
        else made.2.markShadowing (made.2.presenceForSymbol package made.1)
    else env.fail .reference
  else (0, env)

def detachHome (env : Environment) (package symbol : Nat) : Environment :=
  if (env.symbols symbol).package = package then env.setHome symbol 0 else env

def shadowingImport (env : Environment) (package symbol : Nat) : Nat × Environment :=
  let valid := env.packageSymbolValid package symbol
  if valid.1 = 0 then (0, valid.2)
  else
    let present := env.presenceForSymbol package symbol
    if present = 0 then env.addPresence package symbol false true
    else if (env.presences present).symbol = symbol then env.markShadowing present
    else
      let detached := env.detachHome package (env.presences present).symbol
      (symbol,
        { detached with
          presences := Function.update detached.presences present
            { detached.presences present with symbol, external := false, shadowing := true } })

/-- Whether a name has no conflict in a package without the package's own presence of it. -/
def uninternVisible (env : Environment) (package symbol : Nat) : Bool × Environment :=
  let found := env.findUsed (env.symbolName symbol) (env.useChain package) 0
  (found.2.error = .none, found.2)

/-- Take a presence off the chain of its bucket. -/
def unlinkIndex (env : Environment) (package reference : Nat) : Environment :=
  if env.bucketCount = 0 then env
  else
    let head := env.bucket package (env.symbolName (env.presences reference).symbol)
    match seek (fun cell => (env.presences cell).bucketNext) (· = reference) env.presentCount 0
        (env.buckets head) with
    | some (0, entry) =>
        { env with buckets := Function.update env.buckets head (env.presences entry).bucketNext }
    | some (prior, entry) =>
        { env with
          presences := Function.update env.presences prior
            { env.presences prior with bucketNext := (env.presences entry).bucketNext } }
    | none => env

/-- Take a presence off the chain of its package. -/
def unlinkPresence (env : Environment) (package symbol : Nat) : Nat × Environment :=
  match seek (fun cell => (env.presences cell).next)
      (fun cell => (env.presences cell).symbol = symbol) env.presentCount 0
      (env.packages package).present with
  | none => (0, env)
  | some (prior, entry) =>
      let unindexed := env.unlinkIndex package entry
      let next := (unindexed.presences entry).next
      let unlinked : Environment :=
        if prior = 0 then
          { unindexed with
            packages := Function.update unindexed.packages package
              { unindexed.packages package with present := next } }
        else
          { unindexed with
            presences := Function.update unindexed.presences prior
              { unindexed.presences prior with next } }
      (1, unlinked.detachHome package symbol)

def uninternSymbol (env : Environment) (package symbol : Nat) : Nat × Environment :=
  let valid := env.packageSymbolValid package symbol
  if valid.1 = 0 then (0, valid.2)
  else
    let present := env.presenceForSymbol package symbol
    if present = 0 then (0, env)
    else if (env.presences present).symbol = symbol then
      let visible := env.uninternVisible package symbol
      if visible.1 then visible.2.unlinkPresence package symbol else (0, visible.2)
    else (0, env)

/-- Take an edge off the chain of the packages that a package uses. -/
def unlinkUse (env : Environment) (package used : Nat) : Environment :=
  match seek (fun edge => (env.uses edge).next) (fun edge => (env.uses edge).package = used)
      env.useCount 0 (env.packages package).uses with
  | none => env
  | some (0, edge) =>
      { env with
        packages := Function.update env.packages package
          { env.packages package with uses := (env.uses edge).next } }
  | some (prior, edge) =>
      { env with
        uses := Function.update env.uses prior
          { env.uses prior with next := (env.uses edge).next } }

def unusePackage (env : Environment) (package used : Nat) : Nat × Environment :=
  if env.error = .none then
    if env.packageValid package then
      if env.packageValid used then (1, env.unlinkUse package used) else env.fail .reference
    else env.fail .reference
  else (0, env)

def unexportSymbol (env : Environment) (package symbol : Nat) : Nat × Environment :=
  let valid := env.packageSymbolValid package symbol
  if valid.1 = 0 then (0, valid.2)
  else
    let prior := env.accessibleSymbol package symbol
    if prior.1 = symbol then
      let present := prior.2.presenceForSymbol package symbol
      if present = 0 then (symbol, prior.2)
      else (symbol, prior.2.setFlags present false (prior.2.presences present).shadowing)
    else prior.2.fail .conflict

end Environment

/-- The operations on packages and symbols. -/
inductive PackageOperation where
  | makePackage (name : List UInt8)
  | addAlias (package : Nat) (name : List UInt8)
  | intern (package : Nat) (name : List UInt8)
  | importSymbol (package symbol : Nat)
  | exportSymbol (package symbol : Nat)
  | unexportSymbol (package symbol : Nat)
  | usePackage (package used : Nat)
  | unusePackage (package used : Nat)
  | shadowName (package : Nat) (name : List UInt8)
  | shadowingImport (package symbol : Nat)
  | uninternSymbol (package symbol : Nat)
  | readSymbol (data : List UInt8)
  deriving Repr, DecidableEq

/-- Perform an operation. It returns zero when it fails. -/
def Environment.perform (env : Environment) : PackageOperation → Nat × Environment
  | .makePackage name => env.makePackage name
  | .addAlias package name => env.addAlias package name
  | .intern package name => env.intern package name
  | .importSymbol package symbol => env.importSymbol package symbol
  | .exportSymbol package symbol => env.exportSymbol package symbol
  | .unexportSymbol package symbol => env.unexportSymbol package symbol
  | .usePackage package used => env.usePackage package used
  | .unusePackage package used => env.unusePackage package used
  | .shadowName package name => env.shadowName package name
  | .shadowingImport package symbol => env.shadowingImport package symbol
  | .uninternSymbol package symbol => env.uninternSymbol package symbol
  | .readSymbol data => env.readSymbol data

end Native
