import PslCompiler.Native.SeedCatalogue
import PslCompiler.Native.PackageOperations

/-! # The standard packages

The environment starts with six packages: the first three export a catalogue of names, the fourth
is for keywords, the fifth one is for source files and sees the names of the first two, and the
last one uses the first. The tables must be empty.
-/

namespace Native

open Chains

/-- One byte of five words. -/
def seedWordByte (words : SeedWords) (index : Nat) : UInt8 :=
  let word :=
    if index < 8 then words.a
    else if index < 16 then words.b
    else if index < 24 then words.c
    else if index < 32 then words.d
    else words.e
  UInt8.ofNat (word >>> ((index &&& 7) * 8))

/-- The name that the words hold. -/
def SeedWords.name (words : SeedWords) : List UInt8 :=
  (List.range words.length).map (seedWordByte words)

namespace Environment

/-- Write a name after the names in use. -/
def appendName (env : Environment) (name : List UInt8) : Environment :=
  { env with
    names := writeName env.names env.nameCount name
    nameCount := env.nameCount + name.length }

/-- Intern a name of the catalogue. -/
def seedName (env : Environment) (package : Nat) (words : SeedWords) : Nat × Environment :=
  if env.error = .none then
    if env.namesRoom words.length then
      (env.appendName words.name).internNameSpan package env.nameCount words.length
    else env.fail .capacity
  else (0, env)

/-- Intern a name of the catalogue and make it external. -/
def seedExport (env : Environment) (package : Nat) (words : SeedWords) : Nat × Environment :=
  let symbol := env.seedName package words
  if symbol.1 = 0 then (0, symbol.2)
  else
    let bound := symbol.2.bindSymbol package symbol.1 true false
    (if bound.1 = 0 then 0 else 1, bound.2)

/-- Export names one after the other; an error of one of them stays. -/
def seedNames (env : Environment) (package : Nat) (entries : List SeedWords) : Nat × Environment :=
  let after := entries.foldl (fun env words => (env.seedExport package words).2) env
  (if after.error = .none then 1 else 0, after)

def seedCommonLisp (env : Environment) : Nat × Environment :=
  env.seedNames 1 Native.seedCommonLisp

def seedPsl (env : Environment) : Nat × Environment :=
  env.seedNames 2 Native.seedPsl

def seedPslFfi (env : Environment) : Nat × Environment :=
  env.seedNames 3 Native.seedPslFfi

/-- Make a package that must get the expected number. Its name is written once, and the copy that
making a package writes is given back. -/
def seedPackage (env : Environment) (expected : Nat) (words : SeedWords) : Nat × Environment :=
  if env.namesRoom (words.length * 2) then
    let made := (env.appendName words.name).makePackage words.name
    if made.1 = expected then
      (1,
        { made.2 with
          packages := Function.update made.2.packages made.1
            { made.2.packages made.1 with name := env.nameCount }
          nameCount := env.nameCount + words.length })
    else (0, (made.2.fail .duplicate).2)
  else env.fail .capacity

def seedAlias (env : Environment) (package : Nat) (words : SeedWords) : Nat × Environment :=
  if env.namesRoom (words.length * 2) then
    let added := (env.appendName words.name).addAlias package words.name
    if added.1 = 0 then (0, added.2)
    else
      (1,
        { added.2 with
          aliases := Function.update added.2.aliases added.2.aliasCount
            { added.2.aliases added.2.aliasCount with name := env.nameCount }
          nameCount := env.nameCount + words.length })
  else env.fail .capacity

/-- Go on if a step has succeeded. -/
def andThen (result : Nat × Environment) (next : Environment → Nat × Environment) :
    Nat × Environment :=
  if result.1 = 0 then (0, result.2) else next result.2

def seedClUser (env : Environment) : Nat × Environment :=
  andThen (env.seedPackage 6 ⟨16, 0x4c2d4e4f4d4d4f43, 0x524553552d505349, 0, 0, 0⟩) fun env =>
  andThen (env.seedAlias 6 ⟨7, 0x524553552d4c43, 0, 0, 0, 0⟩) fun env =>
  env.linkUse 6 1

def seedPackages (env : Environment) : Nat × Environment :=
  andThen (env.seedPackage 1 ⟨11, 0x4c2d4e4f4d4d4f43, 0x505349, 0, 0, 0⟩) fun env =>
  andThen (env.seedPackage 2 ⟨3, 0x4c5350, 0, 0, 0, 0⟩) fun env =>
  andThen (env.seedPackage 3 ⟨7, 0x4946462e4c5350, 0, 0, 0, 0⟩) fun env =>
  andThen (env.seedPackage 4 ⟨7, 0x44524f5759454b, 0, 0, 0, 0⟩) fun env =>
  andThen (env.seedPackage 5 ⟨6, 0x454352554f53, 0, 0, 0, 0⟩) fun env =>
  andThen (env.seedAlias 1 ⟨2, 0x4c43, 0, 0, 0, 0⟩) fun env =>
  andThen (env.seedAlias 3 ⟨3, 0x494646, 0, 0, 0, 0⟩) fun env =>
  env.seedClUser

def seedExports (env : Environment) : Nat × Environment :=
  andThen env.seedCommonLisp fun env =>
  andThen env.seedPsl fun env =>
  env.seedPslFfi

/-- Bind the symbols of a chain in the fifth package, unless the first package has their name. The
chain has no more presences than the table. -/
def seedPslImports : Nat → Environment → Nat → Nat × Environment
  | 0, env, _ => (1, env)
  | count + 1, env, entry =>
      if entry = 0 then (1, env)
      else
        let symbol := (env.presences entry).symbol
        let prior := env.findSymbol 1 (env.symbolName symbol)
        let bound := if prior.1 = 0 then (prior.2.bindSymbol 5 symbol false true).2 else prior.2
        seedPslImports count bound (bound.presences entry).next

def wordsLoad : SeedWords :=
  ⟨4, 0x44414f4c, 0, 0, 0, 0⟩

def wordsExport : SeedWords :=
  ⟨6, 0x54524f505845, 0, 0, 0, 0⟩

def wordsNil : SeedWords :=
  ⟨3, 0x4c494e, 0, 0, 0, 0⟩

def wordsTrue : SeedWords :=
  ⟨1, 0x54, 0, 0, 0, 0⟩

/-- Two names of the second package shadow those of the first, which the second and the fifth
package use. -/
def seedVisibility (env : Environment) : Nat × Environment :=
  let load := env.seedName 2 wordsLoad
  let loaded := (load.2.bindSymbol 2 load.1 true true).2
  let exporter := loaded.seedName 2 wordsExport
  let shadowed := (exporter.2.bindSymbol 2 exporter.1 true true).2
  andThen (shadowed.linkUse 2 1) fun env =>
  andThen (env.linkUse 5 1) fun env =>
  seedPslImports env.presentCount env (env.packages 2).present

def seedEmpty (env : Environment) : Bool :=
  env.nameCount = 0 && env.packageCount = 0 && env.symbolCount = 0 && env.presentCount = 0 &&
    env.useCount = 0 && env.aliasCount = 0

/-- Keep the symbols of falsity and truth. -/
def seedTruth (env : Environment) : Nat × Environment :=
  let nothing := env.seedName 1 wordsNil
  let truth := ({ nothing.2 with nilSymbol := nothing.1 } : Environment).seedName 1 wordsTrue
  let after : Environment := { truth.2 with trueSymbol := truth.1 }
  (if after.error = .none then 1 else 0, after)

def seedSymbols (env : Environment) : Nat × Environment :=
  andThen env.seedVisibility seedTruth

def seedContents (env : Environment) : Nat × Environment :=
  andThen ({ env with keywordPackage := 4, currentPackage := 5 } : Environment).seedExports
    seedSymbols

def seedStandard (env : Environment) : Nat × Environment :=
  if env.error = .none then
    if env.seedEmpty then andThen env.seedPackages seedContents else env.fail .duplicate
  else (0, env)

end Environment

end Native
