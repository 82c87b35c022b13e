import Mathlib.Algebra.Group.Nat.Defs
import PslCompiler.Chains.Linked

/-! # The compile-time environment

Packages, symbols, presences, uses and aliases of the build host, in tables of fixed capacity.
References count from one, and zero is no record. The presences of a package form a chain, and
when there are buckets each presence is also on the chain of the bucket of its name.
-/

namespace Native

open Chains

/-- The error codes of the environment. -/
inductive EnvironmentError where
  | none
  | capacity
  | duplicate
  | conflict
  | reference
  | package
  | token
  | external
  | operation
  deriving Repr, DecidableEq

structure PackageRecord where
  name : Nat
  length : Nat
  present : Nat
  uses : Nat
  deriving Repr, DecidableEq

structure SymbolRecord where
  package : Nat
  name : Nat
  length : Nat
  deriving Repr, DecidableEq

/-- The presence of a symbol in a package; the flags say whether it is external and whether it is
explicitly shadowing. -/
structure PresenceRecord where
  symbol : Nat
  next : Nat
  external : Bool
  shadowing : Bool
  bucketNext : Nat
  deriving Repr, DecidableEq

structure UseRecord where
  package : Nat
  next : Nat
  deriving Repr, DecidableEq

structure AliasRecord where
  package : Nat
  name : Nat
  length : Nat
  deriving Repr, DecidableEq

/-- The tables of the environment, which the caller owns, and its latched error. -/
structure Environment where
  names : Nat → UInt8
  nameCount : Nat
  nameCapacity : Nat
  packages : Nat → PackageRecord
  packageCount : Nat
  packageCapacity : Nat
  symbols : Nat → SymbolRecord
  symbolCount : Nat
  symbolCapacity : Nat
  presences : Nat → PresenceRecord
  presentCount : Nat
  presentCapacity : Nat
  uses : Nat → UseRecord
  useCount : Nat
  useCapacity : Nat
  aliases : Nat → AliasRecord
  aliasCount : Nat
  aliasCapacity : Nat
  currentPackage : Nat
  keywordPackage : Nat
  nilSymbol : Nat
  trueSymbol : Nat
  error : EnvironmentError
  hasBuckets : Bool
  buckets : Nat → Nat
  bucketCount : Nat
  bucketCapacity : Nat

namespace Environment

/-- Record an error, unless there is one already. -/
def fail (env : Environment) (error : EnvironmentError) : Nat × Environment :=
  (0, if env.error = .none then { env with error } else env)

def packageValid (env : Environment) (reference : Nat) : Bool :=
  reference ≠ 0 && reference ≤ env.packageCount

def symbolValid (env : Environment) (reference : Nat) : Bool :=
  reference ≠ 0 && reference ≤ env.symbolCount

/-- The bytes of a span of the name table. -/
def nameAt (env : Environment) (offset length : Nat) : List UInt8 :=
  (List.range length).map fun index => env.names (offset + index)

def nameMatches (env : Environment) (offset length : Nat) (name : List UInt8) : Bool :=
  env.nameAt offset length = name

def namesRoom (env : Environment) (length : Nat) : Bool :=
  !(env.nameCapacity < env.nameCount) && !(env.nameCapacity - env.nameCount < length)

/-- Write bytes into the name table. -/
def writeName (names : Nat → UInt8) (start : Nat) (text : List UInt8) : Nat → UInt8 :=
  fun index =>
    if start ≤ index ∧ index < start + text.length then text.getD (index - start) 0
    else names index

/-- Copy a name to the end of the name table. -/
def copyName (env : Environment) (name : List UInt8) : Nat × Environment :=
  (env.nameCount,
    { env with
      names := writeName env.names env.nameCount name
      nameCount := env.nameCount + name.length })

def recordRoom (count capacity : Nat) : Bool :=
  count < capacity

/-- The bucket of a name among the buckets of a package. -/
def hashName (env : Environment) (name : List UInt8) : Nat :=
  (name.foldl (fun hash byte => (hash * 33 + byte.toNat) % 2 ^ 32) 5381) &&& (env.bucketCount - 1)

def bucket (env : Environment) (package : Nat) (name : List UInt8) : Nat :=
  (package - 1) * env.bucketCount + env.hashName name

/-- Whether the buckets of all packages up to one can be numbered without overflow. -/
def indexProductFits (package count : Nat) : Bool :=
  (List.range count).all fun index =>
    !(package * (index + 1) % 2 ^ 64 < package * index % 2 ^ 64)

def indexPackageRoom (env : Environment) (package : Nat) : Bool :=
  if env.bucketCount = 0 then true
  else env.hasBuckets && (env.bucketCount &&& (env.bucketCount - 1)) = 0 &&
    !(1024 < env.bucketCount) && indexProductFits package env.bucketCount &&
    !(env.bucketCapacity < package * env.bucketCount % 2 ^ 64)

def symbolName (env : Environment) (symbol : Nat) : List UInt8 :=
  env.nameAt (env.symbols symbol).name (env.symbols symbol).length

/-- Put a presence on the chain of its bucket. -/
def indexPresence (env : Environment) (package reference : Nat) : Environment :=
  if env.bucketCount = 0 then
    { env with
      presences := Function.update env.presences reference
        { env.presences reference with bucketNext := 0 } }
  else
    let head := env.bucket package (env.symbolName (env.presences reference).symbol)
    { env with
      presences := Function.update env.presences reference
        { env.presences reference with bucketNext := env.buckets head }
      buckets := Function.update env.buckets head reference }

/-- Empty the buckets of a package. -/
def clearPackageIndex (env : Environment) (package : Nat) : Environment :=
  { env with
    buckets := fun index =>
      if (package - 1) * env.bucketCount ≤ index ∧
          index < (package - 1) * env.bucketCount + env.bucketCount then 0
      else env.buckets index }

/-- The alias of a name, as the package it stands for. -/
def findAlias (env : Environment) (name : List UInt8) : Nat :=
  match (List.range' 1 env.aliasCount).find? fun index =>
      env.nameMatches (env.aliases index).name (env.aliases index).length name with
  | some index => (env.aliases index).package
  | none => 0

def findPackageFrom (env : Environment) (name : List UInt8) : Nat :=
  ((List.range' 1 env.packageCount).find? fun index =>
    env.nameMatches (env.packages index).name (env.packages index).length name).getD 0

def findPackage (env : Environment) (name : List UInt8) : Nat :=
  if 0 < env.findPackageFrom name then env.findPackageFrom name else env.findAlias name

def addAlias (env : Environment) (package : Nat) (name : List UInt8) : Nat × Environment :=
  if env.error = .none then
    if env.packageValid package then
      let prior := env.findPackage name
      if 0 < prior then if prior = package then (package, env) else env.fail .duplicate
      else if recordRoom env.aliasCount env.aliasCapacity then
        if env.namesRoom name.length then
          let copied := env.copyName name
          (package,
            { copied.2 with
              aliases := Function.update env.aliases (env.aliasCount + 1)
                { package, name := copied.1, length := name.length }
              aliasCount := env.aliasCount + 1 })
        else env.fail .capacity
      else env.fail .capacity
    else env.fail .reference
  else (0, env)

def makePackage (env : Environment) (name : List UInt8) : Nat × Environment :=
  if env.error = .none then
    if 0 < env.findPackage name then env.fail .duplicate
    else if recordRoom env.packageCount env.packageCapacity then
      let next := env.packageCount + 1
      if env.indexPackageRoom next then
        if env.namesRoom name.length then
          let copied := env.copyName name
          let made :=
            { copied.2 with
              packages := Function.update env.packages next
                { name := copied.1, length := name.length, present := 0, uses := 0 } }
          (next, { made.clearPackageIndex next with packageCount := next })
        else env.fail .capacity
      else env.fail .capacity
    else env.fail .capacity
  else (0, env)

/-- The chain that the presences of a name in a package are on. -/
def presentChain (env : Environment) (package : Nat) (name : List UInt8) : List Nat :=
  if env.bucketCount = 0 then
    trace (fun reference => (env.presences reference).next) env.presentCount
      (env.packages package).present
  else
    trace (fun reference => (env.presences reference).bucketNext) env.presentCount
      (env.buckets (env.bucket package name))

/-- Whether a presence is of a name, and external if that is asked for. -/
def presenceMatches (env : Environment) (name : List UInt8) (external : Bool)
    (reference : Nat) : Bool :=
  (!external || (env.presences reference).external) &&
    env.nameMatches (env.symbols (env.presences reference).symbol).name
      (env.symbols (env.presences reference).symbol).length name

/-- The presence of a name in a package. -/
def findPresent (env : Environment) (package : Nat) (name : List UInt8) (external : Bool) : Nat :=
  ((env.presentChain package name).find? (env.presenceMatches name external)).getD 0

/-- The edges to the packages that a package uses. -/
def useChain (env : Environment) (package : Nat) : List Nat :=
  trace (fun edge => (env.uses edge).next) env.useCount (env.packages package).uses

/-- Look a name up through the used packages; two different symbols are a conflict. -/
def findUsed (env : Environment) (name : List UInt8) : List Nat → Nat → Nat × Environment
  | [], inherited => (inherited, env)
  | edge :: rest, inherited =>
      let entry := env.findPresent (env.uses edge).package name true
      let found := if entry = 0 then 0 else (env.presences entry).symbol
      if found = 0 then env.findUsed name rest inherited
      else if inherited = 0 || inherited = found then env.findUsed name rest found
      else env.fail .conflict

/-- Look a name up in a package. -/
def findSymbol (env : Environment) (package : Nat) (name : List UInt8) : Nat × Environment :=
  if env.packageValid package then
    let entry := env.findPresent package name false
    if 0 < entry then ((env.presences entry).symbol, env)
    else env.findUsed name (env.useChain package) 0
  else env.fail .reference

def addPresence (env : Environment) (package symbol : Nat) (external shadowing : Bool) :
    Nat × Environment :=
  if recordRoom env.presentCount env.presentCapacity then
    let next := env.presentCount + 1
    let entered : Environment :=
      { env with
        presences := Function.update env.presences next
          { env.presences next with
            symbol, external, shadowing, next := (env.packages package).present }
        packages := Function.update env.packages package
          { env.packages package with present := next }
        presentCount := next }
    (symbol, entered.indexPresence package next)
  else env.fail .capacity

def symbolRoom (env : Environment) : Bool :=
  recordRoom env.symbolCount env.symbolCapacity && recordRoom env.presentCount env.presentCapacity

/-- Make a symbol of a span of names; symbols of the keyword package are external at once. -/
def symbolFromName (env : Environment) (package offset length : Nat) : Nat × Environment :=
  let next := env.symbolCount + 1
  let recorded : Environment :=
    { env with
      symbols := Function.update env.symbols next { package, name := offset, length }
      symbolCount := next }
  recorded.addPresence package next (package = env.keywordPackage) false

def newSymbol (env : Environment) (package : Nat) (name : List UInt8) : Nat × Environment :=
  if env.symbolRoom then
    if env.namesRoom name.length then
      let copied := env.copyName name
      copied.2.symbolFromName package copied.1 name.length
    else env.fail .capacity
  else env.fail .capacity

/-- Intern the name that stands at the end of the name table. -/
def internNameSpan (env : Environment) (package offset length : Nat) : Nat × Environment :=
  if env.error = .none then
    let prior := env.findSymbol package (env.nameAt offset length)
    if 0 < prior.1 then (prior.1, { prior.2 with nameCount := offset })
    else if prior.2.error = .none then
      if prior.2.symbolRoom then prior.2.symbolFromName package offset length
      else ({ prior.2 with nameCount := offset } : Environment).fail .capacity
    else (0, { prior.2 with nameCount := offset })
  else (0, env)

def uninternedSpan (env : Environment) (offset length : Nat) : Nat × Environment :=
  if env.error = .none then
    if recordRoom env.symbolCount env.symbolCapacity then
      let next := env.symbolCount + 1
      (next,
        { env with
          symbols := Function.update env.symbols next { package := 0, name := offset, length }
          symbolCount := next })
    else ({ env with nameCount := offset } : Environment).fail .capacity
  else (0, env)

def intern (env : Environment) (package : Nat) (name : List UInt8) : Nat × Environment :=
  if env.error = .none then
    let prior := env.findSymbol package name
    if prior.2.error = .none then
      if 0 < prior.1 then prior else prior.2.newSymbol package name
    else (0, prior.2)
  else (0, env)

/-- Bind a symbol in a package while the environment is set up. -/
def bindSymbol (env : Environment) (package symbol : Nat) (external shadowing : Bool) :
    Nat × Environment :=
  if env.error = .none then
    if env.packageValid package then
      if env.symbolValid symbol then
        let prior := env.findPresent package (env.symbolName symbol) false
        if prior = 0 then env.addPresence package symbol external shadowing
        else if (env.presences prior).symbol = symbol || shadowing then
          (symbol,
            { env with
              presences := Function.update env.presences prior
                { env.presences prior with symbol, external, shadowing } })
        else env.fail .conflict
      else env.fail .reference
    else env.fail .reference
  else (0, env)

def hasUse (env : Environment) (package used : Nat) : Bool :=
  (env.useChain package).any fun edge => (env.uses edge).package = used

/-- Put a package on the chain of the packages that another one uses. -/
def linkUse (env : Environment) (package used : Nat) : Nat × Environment :=
  if env.error = .none then
    if env.packageValid package then
      if env.packageValid used then
        if env.hasUse package used then (1, env)
        else if recordRoom env.useCount env.useCapacity then
          let next := env.useCount + 1
          (1,
            { env with
              uses := Function.update env.uses next
                { package := used, next := (env.packages package).uses }
              packages := Function.update env.packages package
                { env.packages package with uses := next }
              useCount := next })
        else env.fail .capacity
      else env.fail .reference
    else env.fail .reference
  else (0, env)

end Environment

end Native
