import PslCompiler.Native.PackageChanges

/-! # New records

Symbols, packages and aliases are added after the last record of their table, with a span of the
names that are there.
-/

namespace Native

open Chains Visibility

namespace Environment

variable {env : Environment} {refs edges : Nat → List Nat}

theorem packageValid_iff {package : Nat} :
    env.packageValid package = true ↔ 0 < package ∧ package ≤ env.packageCount := by
  rw [packageValid, Bool.and_eq_true, decide_eq_true_eq, decide_eq_true_eq, Nat.pos_iff_ne_zero]

theorem symbolValid_iff {symbol : Nat} :
    env.symbolValid symbol = true ↔ 0 < symbol ∧ symbol ≤ env.symbolCount := by
  rw [symbolValid, Bool.and_eq_true, decide_eq_true_eq, decide_eq_true_eq, Nat.pos_iff_ne_zero]

/-- Add a symbol with a home and a span of names. -/
def declare (env : Environment) (home offset length : Nat) : Environment :=
  { env with
    symbols := Function.update env.symbols (env.symbolCount + 1)
      { package := home, name := offset, length }
    symbolCount := env.symbolCount + 1 }

theorem symbolFromName_eq (env : Environment) (package offset length : Nat) :
    env.symbolFromName package offset length =
      (env.declare package offset length).addPresence package (env.symbolCount + 1)
        (package = env.keywordPackage) false := rfl

theorem declare_symbols (env : Environment) (home offset length : Nat) {symbol : Nat}
    (valid : env.symbolValid symbol = true) :
    (env.declare home offset length).symbols symbol = env.symbols symbol := by
  have bound := (symbolValid_iff.mp valid).2
  exact Function.update_of_ne (by omega) _ _

theorem declare_symbolName (env : Environment) (home offset length : Nat) {symbol : Nat}
    (valid : env.symbolValid symbol = true) :
    (env.declare home offset length).symbolName symbol = env.symbolName symbol := by
  rw [symbolName, symbolName, declare_symbols env home offset length valid]
  rfl

theorem declare_symbolName_new (env : Environment) (home offset length : Nat) :
    (env.declare home offset length).symbolName (env.symbolCount + 1) =
      env.nameAt offset length := by
  have record : (env.declare home offset length).symbols (env.symbolCount + 1) =
      { package := home, name := offset, length } := Function.update_self _ _ _
  rw [symbolName, record]
  rfl

theorem declare_valid (env : Environment) (home offset length : Nat) {symbol : Nat} :
    (env.declare home offset length).symbolValid symbol = true ↔
      env.symbolValid symbol = true ∨ symbol = env.symbolCount + 1 := by
  rw [symbolValid_iff, symbolValid_iff]
  change _ ∧ _ ≤ env.symbolCount + 1 ↔ _
  omega

theorem declare_represents (represents : env.Represents refs edges) (home : Nat)
    {offset length : Nat} (bound : offset + length ≤ env.nameCount) :
    (env.declare home offset length).Represents refs edges where
  outside := represents.outside
  present := represents.present
  indexed buckets place valid slot isSlot := by
    have slots : (refs place).filter (fun reference =>
        (env.declare home offset length).slotOf reference = slot) =
        (refs place).filter (fun reference => env.slotOf reference = slot) := by
      apply List.filter_congr
      intro reference member
      have named := env.declare_symbolName home offset length
        (represents.symbols place reference member)
      have same : (env.declare home offset length).slotOf reference = env.slotOf reference :=
        congrArg env.hashName named
      rw [same]
    rw [slots]
    exact represents.indexed buckets place valid slot isSlot
  used := represents.used
  symbols place reference member :=
    (env.declare_valid home offset length).mpr (.inl (represents.symbols place reference member))
  packages := represents.packages
  symbolSpans symbol valid := by
    cases (env.declare_valid home offset length).mp valid with
    | inl old =>
        rw [declare_symbols env home offset length old]
        exact represents.symbolSpans symbol old
    | inr same =>
        subst same
        have record : (env.declare home offset length).symbols (env.symbolCount + 1) =
            { package := home, name := offset, length } := Function.update_self _ _ _
        rw [record]
        exact bound
  packageSpans := represents.packageSpans
  aliasSpans := represents.aliasSpans

theorem declare_homeOf {home offset length symbol package : Nat}
    (found : (env.declare home offset length).homeOf symbol = some package) :
    env.homeOf symbol = some package ∨ symbol = env.symbolCount + 1 ∧ package = home := by
  obtain ⟨valid, same, positive⟩ := homeOf_eq_some.mp found
  cases (env.declare_valid home offset length).mp valid with
  | inl old =>
      rw [declare_symbols env home offset length old] at same
      exact .inl (homeOf_eq_some.mpr ⟨old, same, positive⟩)
  | inr new =>
      subst new
      have record : (env.declare home offset length).symbols (env.symbolCount + 1) =
          { package := home, name := offset, length } := Function.update_self _ _ _
      rw [record] at same
      exact .inr ⟨rfl, same.symm⟩

theorem declare_keepsNames (represents : env.Represents refs edges) (home offset length : Nat) :
    (env.registryOf refs edges).KeepsNames
      ((env.declare home offset length).registryOf refs edges) := by
  intro place entry member
  obtain ⟨reference, inside, rfl⟩ := List.mem_map.mp member
  exact env.declare_symbolName home offset length (represents.symbols place reference inside)

/-- A symbol without a home is present nowhere. -/
theorem declare_settled (represents : env.Represents refs edges) (offset length : Nat) :
    Settled (env.registryOf refs edges)
      ((env.declare 0 offset length).registryOf refs edges) := by
  refine ⟨rfl, rfl, declare_keepsNames represents 0 offset length, ?_⟩
  intro symbol package found
  obtain old | ⟨rfl, rfl⟩ := declare_homeOf found
  · exact .inl old
  · exact absurd rfl (homeOf_eq_some.mp found).2.2

/-- Add an empty package with a span of names. -/
def addPackage (env : Environment) (offset length : Nat) : Environment :=
  let made : Environment :=
    { env with
      packages := Function.update env.packages (env.packageCount + 1)
        { name := offset, length, present := 0, uses := 0 } }
  { made.clearPackageIndex (env.packageCount + 1) with packageCount := env.packageCount + 1 }

theorem addPackage_packages (env : Environment) (offset length : Nat) {package : Nat}
    (valid : env.packageValid package = true) :
    (env.addPackage offset length).packages package = env.packages package := by
  have bound := (packageValid_iff.mp valid).2
  exact Function.update_of_ne (by omega) _ _

theorem addPackage_packages_new (env : Environment) (offset length : Nat) :
    (env.addPackage offset length).packages (env.packageCount + 1) =
      { name := offset, length, present := 0, uses := 0 } :=
  Function.update_self _ _ _

theorem addPackage_valid (env : Environment) (offset length : Nat) {package : Nat} :
    (env.addPackage offset length).packageValid package = true ↔
      env.packageValid package = true ∨ package = env.packageCount + 1 := by
  rw [packageValid_iff, packageValid_iff]
  change _ ∧ _ ≤ env.packageCount + 1 ↔ _
  omega

theorem addPackage_buckets (env : Environment) (offset length index : Nat) :
    (env.addPackage offset length).buckets index =
      if env.packageCount * env.bucketCount ≤ index ∧
          index < env.packageCount * env.bucketCount + env.bucketCount then 0
      else env.buckets index := rfl

/-- The buckets of a package come before those of the next package. -/
theorem bucket_lt {package slot : Nat} (valid : env.packageValid package = true)
    (bound : slot < env.bucketCount) :
    (package - 1) * env.bucketCount + slot < env.packageCount * env.bucketCount := by
  have positive := packageValid_iff.mp valid
  calc (package - 1) * env.bucketCount + slot
      < (package - 1) * env.bucketCount + env.bucketCount := Nat.add_lt_add_left bound _
    _ = (package - 1 + 1) * env.bucketCount := (Nat.succ_mul _ _).symm
    _ ≤ env.packageCount * env.bucketCount := Nat.mul_le_mul_right _ (by omega)

theorem addPackage_represents (represents : env.Represents refs edges) {offset length : Nat}
    (bound : offset + length ≤ env.nameCount) :
    (env.addPackage offset length).Represents refs edges := by
  have fresh : env.packageValid (env.packageCount + 1) = false := by
    apply Bool.eq_false_iff.mpr
    intro valid
    exact Nat.not_succ_le_self _ (packageValid_iff.mp valid).2
  have empty := represents.outside _ fresh
  constructor
  · intro package invalid
    apply represents.outside
    apply Bool.eq_false_iff.mpr
    intro valid
    rw [(env.addPackage_valid offset length).mpr (.inl valid)] at invalid
    cases invalid
  · refine ⟨?_, represents.present.bounded, represents.present.distinct, represents.present.apart⟩
    intro package valid
    cases (env.addPackage_valid offset length).mp valid with
    | inl old =>
        rw [addPackage_packages env offset length old]
        exact represents.present.linked package old
    | inr new =>
        subst new
        rw [addPackage_packages_new, empty.1]
        rfl
  · intro buckets package valid slot isSlot
    change slot < env.bucketCount at isSlot
    change Linked _ ((env.addPackage offset length).buckets
      ((package - 1) * env.bucketCount + slot)) _
    rw [addPackage_buckets]
    cases (env.addPackage_valid offset length).mp valid with
    | inl old =>
        have below := bucket_lt old isSlot
        rw [if_neg (by omega)]
        exact represents.indexed buckets package old slot isSlot
    | inr new =>
        subst new
        rw [Nat.add_sub_cancel, if_pos (by omega), empty.1]
        rfl
  · refine ⟨?_, represents.used.bounded, represents.used.distinct, represents.used.apart⟩
    intro package valid
    cases (env.addPackage_valid offset length).mp valid with
    | inl old =>
        rw [addPackage_packages env offset length old]
        exact represents.used.linked package old
    | inr new =>
        subst new
        rw [addPackage_packages_new, empty.2]
        rfl
  · exact represents.symbols
  · exact fun package edge member =>
      (env.addPackage_valid offset length).mpr (.inl (represents.packages package edge member))
  · exact represents.symbolSpans
  · intro package valid
    cases (env.addPackage_valid offset length).mp valid with
    | inl old =>
        rw [addPackage_packages env offset length old]
        exact represents.packageSpans package old
    | inr new =>
        subst new
        rw [addPackage_packages_new]
        exact bound
  · intro reference positive isAlias
    obtain ⟨span, valid⟩ := represents.aliasSpans reference positive isAlias
    exact ⟨span, (env.addPackage_valid offset length).mpr (.inl valid)⟩

/-- Add an alias of a package with a span of names. -/
def aliasRecord (env : Environment) (package offset length : Nat) : Environment :=
  { env with
    aliases := Function.update env.aliases (env.aliasCount + 1) { package, name := offset, length }
    aliasCount := env.aliasCount + 1 }

theorem aliasRecord_represents (represents : env.Represents refs edges) {package : Nat}
    (valid : env.packageValid package = true) {offset length : Nat}
    (bound : offset + length ≤ env.nameCount) :
    (env.aliasRecord package offset length).Represents refs edges where
  outside := represents.outside
  present := represents.present
  indexed := represents.indexed
  used := represents.used
  symbols := represents.symbols
  packages := represents.packages
  symbolSpans := represents.symbolSpans
  packageSpans := represents.packageSpans
  aliasSpans reference positive isAlias := by
    by_cases new : reference = env.aliasCount + 1
    · subst new
      have record : (env.aliasRecord package offset length).aliases (env.aliasCount + 1) =
          { package, name := offset, length } := Function.update_self _ _ _
      rw [record]
      exact ⟨bound, valid⟩
    · have record : (env.aliasRecord package offset length).aliases reference =
          env.aliases reference := Function.update_of_ne new _ _
      rw [record]
      change reference ≤ env.aliasCount + 1 at isAlias
      exact represents.aliasSpans reference positive (by omega)

end Environment

end Native
