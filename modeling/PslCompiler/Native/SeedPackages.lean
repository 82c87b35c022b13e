import PslCompiler.Native.Seed
import PslCompiler.Native.PackageReading

/-! # Seeding the packages

The packages and aliases that an empty environment gets, with their names. Nothing is present in
them yet, and only the last one uses another one.
-/

namespace Native

open Chains Visibility

@[simp] theorem SeedWords.length_name (words : SeedWords) : words.name.length = words.length := by
  rw [SeedWords.name, List.length_map, List.length_range]

namespace Environment

variable {env : Environment} {refs edges : Nat → List Nat}

/-- The names of the packages, in order. -/
def packageNames (env : Environment) : List (List UInt8) :=
  (List.range' 1 env.packageCount).map fun package =>
    env.nameAt (env.packages package).name (env.packages package).length

/-- The names of the aliases, in order. -/
def aliasNames (env : Environment) : List (List UInt8) :=
  (List.range' 1 env.aliasCount).map fun reference =>
    env.nameAt (env.aliases reference).name (env.aliases reference).length

/-- Packages and aliases with the given names, and nothing in them. -/
structure Bare (env : Environment) (packages aliases : List (List UInt8)) : Prop where
  represents : env.Represents (fun _ => []) (fun _ => [])
  packageNames : env.packageNames = packages
  aliasNames : env.aliasNames = aliases
  symbols : env.symbolCount = 0
  presences : env.presentCount = 0
  uses : env.useCount = 0

theorem bare_of_seedEmpty (empty : env.seedEmpty = true) : Bare env [] [] := by
  simp only [seedEmpty, Bool.and_eq_true, decide_eq_true_eq] at empty
  obtain ⟨⟨⟨⟨⟨names, packages⟩, symbols⟩, presences⟩, uses⟩, aliases⟩ := empty
  have invalid : ∀ package, env.packageValid package = true → False := by
    intro package valid
    have bound := packageValid_iff.mp valid
    omega
  have noSymbol : ∀ symbol, env.symbolValid symbol = true → False := by
    intro symbol valid
    have bound := symbolValid_iff.mp valid
    omega
  have noCells : ∀ (valid : Nat → Prop) (count : Nat) (head next : Nat → Nat),
      (∀ owner, valid owner → False) → Family valid count head next fun _ => [] :=
    fun valid count head next none =>
      ⟨fun owner isValid => absurd isValid (none owner), fun _ _ member =>
        absurd member List.not_mem_nil, fun _ => List.nodup_nil, fun _ _ _ _ member =>
        absurd member List.not_mem_nil⟩
  refine ⟨⟨fun _ _ => ⟨rfl, rfl⟩, noCells _ _ _ _ invalid, ?_, noCells _ _ _ _ invalid, ?_, ?_, ?_,
    ?_, ?_⟩, ?_, ?_, symbols, presences, uses⟩
  · exact fun _ package valid => absurd valid (invalid package)
  · exact fun _ _ member => absurd member List.not_mem_nil
  · exact fun _ _ member => absurd member List.not_mem_nil
  · exact fun symbol valid => absurd valid (noSymbol symbol)
  · exact fun package valid => absurd valid (invalid package)
  · intro reference positive bound
    omega
  · rw [Environment.packageNames, packages]
    rfl
  · rw [Environment.aliasNames, aliases]
    rfl

/-- A name that no package and no alias has is not found. -/
theorem findPackage_zero {name : List UInt8} (noPackage : name ∉ env.packageNames)
    (noAlias : name ∉ env.aliasNames) : env.findPackage name = 0 := by
  have fromPackages : env.findPackageFrom name = 0 := by
    rw [findPackageFrom, List.find?_eq_none.mpr]
    · rfl
    · intro package member found
      rw [nameMatches, decide_eq_true_eq] at found
      exact noPackage (List.mem_map.mpr ⟨package, member, found⟩)
  have fromAliases : env.findAlias name = 0 := by
    rw [findAlias, List.find?_eq_none.mpr]
    intro reference member found
    rw [nameMatches, decide_eq_true_eq] at found
    exact noAlias (List.mem_map.mpr ⟨reference, member, found⟩)
  rw [findPackage, fromPackages, fromAliases]
  rfl

/-- The names are the same in a longer name table. -/
theorem Extends.packageNames {after : Environment} (ext : Extends env after)
    (represents : env.Represents refs edges) :
    after.packageNames = env.packageNames ∧ after.aliasNames = env.aliasNames := by
  have packages : ∀ package ∈ List.range' 1 env.packageCount,
      after.nameAt (env.packages package).name (env.packages package).length =
        env.nameAt (env.packages package).name (env.packages package).length :=
    fun package member => ext.nameAt (represents.packageSpans package (mem_packages_iff.mp member))
  have aliases : ∀ reference ∈ List.range' 1 env.aliasCount,
      after.nameAt (env.aliases reference).name (env.aliases reference).length =
        env.nameAt (env.aliases reference).name (env.aliases reference).length := by
    intro reference member
    obtain ⟨positive, bound⟩ := List.mem_range'_1.mp member
    exact ext.nameAt (represents.aliasSpans reference positive (by omega)).1
  obtain ⟨names, count, error, rfl, _, _⟩ := ext
  exact ⟨List.map_congr_left packages, List.map_congr_left aliases⟩

theorem Bare.of_extends {after : Environment} {packages aliases : List (List UInt8)}
    (bare : Bare env packages aliases) (ext : Extends env after) : Bare after packages aliases := by
  have names := ext.packageNames bare.represents
  have represents := ext.represents bare.represents
  obtain ⟨text, count, error, rfl, _, _⟩ := ext
  exact ⟨represents, names.1.trans bare.packageNames, names.2.trans bare.aliasNames, bare.symbols,
    bare.presences, bare.uses⟩

theorem Bare.addPackage {packages aliases : List (List UInt8)} (bare : Bare env packages aliases)
    {offset length : Nat} (bound : offset + length ≤ env.nameCount) :
    Bare (env.addPackage offset length) (packages ++ [env.nameAt offset length]) aliases := by
  refine ⟨addPackage_represents bare.represents bound, ?_, bare.aliasNames, bare.symbols,
    bare.presences, bare.uses⟩
  rw [← bare.packageNames, Environment.packageNames, Environment.packageNames]
  change (List.range' 1 (env.packageCount + 1)).map _ = _
  rw [List.range'_concat, List.map_append]
  congr 1
  · apply List.map_congr_left
    intro package member
    rw [addPackage_packages env offset length (mem_packages_iff.mp member)]
    rfl
  · simp only [Nat.one_mul, List.map_cons, List.map_nil, Nat.add_comm 1, addPackage_packages_new]
    rfl

theorem Bare.aliasRecord {packages aliases : List (List UInt8)} (bare : Bare env packages aliases)
    {package : Nat} (valid : env.packageValid package = true) {offset length : Nat}
    (bound : offset + length ≤ env.nameCount) :
    Bare (env.aliasRecord package offset length) packages
      (aliases ++ [env.nameAt offset length]) := by
  refine ⟨aliasRecord_represents bare.represents valid bound, bare.packageNames, ?_, bare.symbols,
    bare.presences, bare.uses⟩
  rw [← bare.aliasNames, Environment.aliasNames, Environment.aliasNames]
  change (List.range' 1 (env.aliasCount + 1)).map _ = _
  rw [List.range'_concat, List.map_append]
  congr 1
  · apply List.map_congr_left
    intro reference member
    have bound := (List.mem_range'_1.mp member).2
    have old : (env.aliasRecord package offset length).aliases reference = env.aliases reference :=
      Function.update_of_ne (by omega) _ _
    rw [old]
    rfl
  · have new : (env.aliasRecord package offset length).aliases (env.aliasCount + 1) =
        { package, name := offset, length } := Function.update_self _ _ _
    simp only [Nat.one_mul, List.map_cons, List.map_nil, Nat.add_comm 1, new]
    rfl

/-- A package that is made is an empty one after the others. -/
theorem makePackage_success {name : List UInt8} (success : (env.makePackage name).1 ≠ 0) :
    env.makePackage name =
      (env.packageCount + 1, (env.copyName name).2.addPackage env.nameCount name.length) := by
  rw [makePackage] at success ⊢
  split at success
  case isFalse => exact absurd rfl success
  case isTrue clean =>
    rw [if_pos clean]
    split at success
    case isTrue => exact absurd rfl success
    case isFalse absent =>
      rw [if_neg absent]
      split at success
      case isFalse => exact absurd rfl success
      case isTrue room =>
        rw [if_pos room]
        dsimp only at success ⊢
        split at success
        case isFalse => exact absurd rfl success
        case isTrue index =>
          rw [if_pos index]
          split at success
          case isFalse => exact absurd rfl success
          case isTrue fits =>
            rw [if_pos fits]
            rfl

/-- A new alias is a record after the others. -/
theorem addAlias_success {package : Nat} {name : List UInt8} (absent : env.findPackage name = 0)
    (success : (env.addAlias package name).1 ≠ 0) :
    env.packageValid package = true ∧ env.addAlias package name =
      (package, (env.copyName name).2.aliasRecord package env.nameCount name.length) := by
  rw [addAlias, absent] at success ⊢
  split at success
  case isFalse => exact absurd rfl success
  case isTrue clean =>
    rw [if_pos clean]
    split at success
    case isFalse => exact absurd rfl success
    case isTrue valid =>
      rw [if_pos valid]
      refine ⟨valid, ?_⟩
      dsimp only at success ⊢
      rw [if_neg (Nat.lt_irrefl 0)] at success ⊢
      split at success
      case isFalse => exact absurd rfl success
      case isTrue room =>
        rw [if_pos room]
        split at success
        case isFalse => exact absurd rfl success
        case isTrue fits =>
          rw [if_pos fits]
          rfl

/-- A name that is written twice, with the second copy given back. -/
def appendTwice (env : Environment) (name : List UInt8) : Environment :=
  { env with
    names := writeName (writeName env.names env.nameCount name) (env.nameCount + name.length) name
    nameCount := env.nameCount + name.length }

theorem appendTwice_extends (env : Environment) (name : List UInt8) :
    Extends env (env.appendTwice name) := by
  refine ⟨_, _, env.error, rfl, Nat.le_add_right _ _, ?_⟩
  intro index below
  rw [writeName, if_neg (by omega), writeName, if_neg (by omega)]

theorem appendTwice_nameAt (env : Environment) (name : List UInt8) :
    (env.appendTwice name).nameAt env.nameCount name.length = name := by
  have once := env.writeName_nameAt env.nameCount name 0
  have same : (env.appendTwice name).nameAt env.nameCount name.length =
      ({ env with names := writeName env.names env.nameCount name, nameCount := 0 } :
        Environment).nameAt env.nameCount name.length := by
    apply List.map_congr_left
    intro index member
    have bound := List.mem_range.mp member
    exact if_neg (by omega)
  exact same.trans once

/-- Seeding a package adds it with its name. -/
theorem seedPackage_bare {packages aliases : List (List UInt8)} (bare : Bare env packages aliases)
    {expected : Nat} (positive : expected ≠ 0) {words : SeedWords}
    (success : (env.seedPackage expected words).1 ≠ 0) :
    Bare (env.seedPackage expected words).2 (packages ++ [words.name]) aliases := by
  rw [seedPackage] at success ⊢
  split at success
  case isFalse => exact absurd rfl success
  case isTrue room =>
    rw [if_pos room]
    dsimp only at success ⊢
    split at success
    case isFalse => exact absurd rfl success
    case isTrue same =>
      rw [if_pos same]
      have made := makePackage_success (same ▸ positive)
      have result : ({ ((env.appendName words.name).makePackage words.name).2 with
          packages := Function.update
            ((env.appendName words.name).makePackage words.name).2.packages
            ((env.appendName words.name).makePackage words.name).1
            { ((env.appendName words.name).makePackage words.name).2.packages
              ((env.appendName words.name).makePackage words.name).1 with name := env.nameCount }
          nameCount := env.nameCount + words.length } : Environment) =
          (env.appendTwice words.name).addPackage env.nameCount words.length := by
        rw [made, ← words.length_name]
        simp only [addPackage, clearPackageIndex, copyName, appendName, appendTwice,
          Function.update_self, Function.update_idem]
        rfl
      rw [result]
      have twice := bare.of_extends (env.appendTwice_extends words.name)
      have bound : env.nameCount + words.length ≤ (env.appendTwice words.name).nameCount := by
        rw [← words.length_name]
        exact Nat.le_refl _
      have added := twice.addPackage bound
      have named := env.appendTwice_nameAt words.name
      rw [words.length_name] at named
      rwa [named] at added

theorem appendName_extends (env : Environment) (name : List UInt8) :
    Extends env (env.appendName name) :=
  env.copyName_extends name

/-- Seeding an alias of a name that is not in use adds it. -/
theorem seedAlias_bare {packages aliases : List (List UInt8)} (bare : Bare env packages aliases)
    {package : Nat} {words : SeedWords} (noPackage : words.name ∉ packages)
    (noAlias : words.name ∉ aliases) (success : (env.seedAlias package words).1 ≠ 0) :
    Bare (env.seedAlias package words).2 packages (aliases ++ [words.name]) := by
  have ext := env.appendName_extends words.name
  have appended := bare.of_extends ext
  have absent : (env.appendName words.name).findPackage words.name = 0 := by
    apply findPackage_zero
    · rw [appended.packageNames]
      exact noPackage
    · rw [appended.aliasNames]
      exact noAlias
  rw [seedAlias] at success ⊢
  split at success
  case isFalse => exact absurd rfl success
  case isTrue room =>
    rw [if_pos room]
    dsimp only at success ⊢
    split at success
    case isTrue => exact absurd rfl success
    case isFalse some =>
      rw [if_neg some]
      obtain ⟨valid, made⟩ := addAlias_success absent some
      have result : ({ ((env.appendName words.name).addAlias package words.name).2 with
          aliases := Function.update
            ((env.appendName words.name).addAlias package words.name).2.aliases
            ((env.appendName words.name).addAlias package words.name).2.aliasCount
            { ((env.appendName words.name).addAlias package words.name).2.aliases
              ((env.appendName words.name).addAlias package words.name).2.aliasCount with
              name := env.nameCount }
          nameCount := env.nameCount + words.length } : Environment) =
          (env.appendTwice words.name).aliasRecord package env.nameCount words.length := by
        rw [made, ← words.length_name]
        simp only [aliasRecord, copyName, appendName, appendTwice, Function.update_self,
          Function.update_idem]
      rw [result]
      have twice := bare.of_extends (env.appendTwice_extends words.name)
      have bound : env.nameCount + words.length ≤ (env.appendTwice words.name).nameCount := by
        rw [← words.length_name]
        exact Nat.le_refl _
      have isPackage : (env.appendTwice words.name).packageValid package = true := valid
      have added := twice.aliasRecord isPackage bound
      have named := env.appendTwice_nameAt words.name
      rw [words.length_name] at named
      rwa [named] at added

theorem andThen_ne_zero {result : Nat × Environment} {next : Environment → Nat × Environment}
    (success : (andThen result next).1 ≠ 0) :
    result.1 ≠ 0 ∧ (next result.2).1 ≠ 0 ∧ andThen result next = next result.2 := by
  rw [andThen] at success ⊢
  split at success
  · exact absurd rfl success
  · rename_i some
    rw [if_neg some]
    exact ⟨some, success, rfl⟩

theorem Bare.packageCount {packages aliases : List (List UInt8)}
    (bare : Bare env packages aliases) : env.packageCount = packages.length := by
  rw [← bare.packageNames, Environment.packageNames, List.length_map, List.length_range']

/-- An edge that is linked with success is a new one, or was there. -/
theorem linkUse_success {package used : Nat} (success : (env.linkUse package used).1 ≠ 0) :
    env.error = .none ∧ env.packageValid package = true ∧ env.packageValid used = true ∧
      (env.hasUse package used = true ∨ env.useCount < env.useCapacity) := by
  rw [linkUse] at success
  split at success
  case isFalse => exact absurd rfl success
  case isTrue clean =>
    split at success
    case isFalse => exact absurd rfl success
    case isTrue valid =>
      split at success
      case isFalse => exact absurd rfl success
      case isTrue isUsed =>
        refine ⟨clean, valid, isUsed, ?_⟩
        split at success
        case isTrue uses => exact .inl uses
        case isFalse =>
          split at success
          case isFalse => exact absurd rfl success
          case isTrue room => exact .inr (of_decide_eq_true room)

/-- The edges of the seeded packages: the last one uses the first. -/
def firstEdges : Nat → List Nat :=
  Function.update (fun _ => []) 6 [1]

/-- Six packages without symbols, where the last one uses the first. -/
structure Founded (env : Environment) : Prop where
  represents : env.Represents (fun _ => []) firstEdges
  packages : env.packageCount = 6
  symbols : env.symbolCount = 0
  presences : env.presentCount = 0
  used : (env.uses 1).package = 1
  error : env.error = .none

theorem Bare.linkUse {packages aliases : List (List UInt8)} (bare : Bare env packages aliases)
    (six : packages.length = 6) (success : (env.linkUse 6 1).1 ≠ 0) :
    Founded (env.linkUse 6 1).2 := by
  obtain ⟨clean, valid, isUsed, room⟩ := linkUse_success success
  have fresh : env.hasUse 6 1 = false := by
    rw [hasUse, useChain_eq bare.represents valid]
    rfl
  have room := room.resolve_left (Bool.eq_false_iff.mp fresh)
  obtain ⟨_, added⟩ := linkUse_added valid isUsed clean fresh room
  have represents := added.represents bare.represents valid isUsed
  have uses := added.uses
  rw [bare.uses] at represents uses
  refine ⟨represents, ?_, ?_, ?_, ?_, ?_⟩
  · exact added.changed.kept.packageCount.trans (bare.packageCount.trans six)
  · exact added.changed.kept.symbolCount.trans bare.symbols
  · exact added.changed.presentCount.trans bare.presences
  · rw [uses, Function.update_self]
  · have hasRoom : recordRoom env.useCount env.useCapacity = true := decide_eq_true room
    rw [Environment.linkUse, if_pos clean, if_pos valid, if_pos isUsed,
      if_neg (Bool.eq_false_iff.mp fresh), if_pos hasRoom]
    exact clean

theorem seedPackages_founded (empty : env.seedEmpty = true)
    (success : env.seedPackages.1 ≠ 0) : Founded env.seedPackages.2 := by
  have bare := bare_of_seedEmpty empty
  rw [seedPackages] at success ⊢
  obtain ⟨one, rest, result⟩ := andThen_ne_zero success
  rw [result]
  clear success result
  have bare := seedPackage_bare bare Nat.one_ne_zero one
  obtain ⟨two, rest, result⟩ := andThen_ne_zero rest
  rw [result]
  clear result
  have bare := seedPackage_bare bare (by decide) two
  obtain ⟨three, rest, result⟩ := andThen_ne_zero rest
  rw [result]
  clear result
  have bare := seedPackage_bare bare (by decide) three
  obtain ⟨four, rest, result⟩ := andThen_ne_zero rest
  rw [result]
  clear result
  have bare := seedPackage_bare bare (by decide) four
  obtain ⟨five, rest, result⟩ := andThen_ne_zero rest
  rw [result]
  clear result
  have bare := seedPackage_bare bare (by decide) five
  obtain ⟨first, rest, result⟩ := andThen_ne_zero rest
  rw [result]
  clear result
  have bare := seedAlias_bare bare (by decide) (by decide) first
  obtain ⟨third, rest, result⟩ := andThen_ne_zero rest
  rw [result]
  clear result
  have bare := seedAlias_bare bare (by decide) (by decide) third
  rw [seedClUser] at rest ⊢
  obtain ⟨six, rest, result⟩ := andThen_ne_zero rest
  rw [result]
  clear result
  have bare := seedPackage_bare bare (by decide) six
  obtain ⟨sixth, rest, result⟩ := andThen_ne_zero rest
  rw [result]
  clear result
  exact (seedAlias_bare bare (by decide) (by decide) sixth).linkUse rfl rest

end Environment

end Native
