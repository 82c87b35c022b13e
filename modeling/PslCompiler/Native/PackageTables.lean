import PslCompiler.Native.PackageOperations
import PslCompiler.Visibility.Registry

/-! # The tables as a registry

The tables of the environment hold a registry of packages: the chain of a package is what is
present in it, the chains of its buckets are the same presences by their hash, and the chain of its
uses is the packages it uses (`Represents`). So a name is found on the chain of its bucket exactly
when it is found on the chain of the package (`findPresent_eq`).
-/

namespace Native

open Chains Visibility

namespace Environment

/-- The presences of a package. -/
def presentRefs (env : Environment) (package : Nat) : List Nat :=
  if env.packageValid package then
    trace (fun reference => (env.presences reference).next) env.presentCount
      (env.packages package).present
  else []

/-- The edges from a package to the packages it uses. -/
def useRefs (env : Environment) (package : Nat) : List Nat :=
  if env.packageValid package then env.useChain package else []

def entryOf (env : Environment) (reference : Nat) : Entry Nat :=
  ⟨(env.presences reference).symbol, (env.presences reference).external,
    (env.presences reference).shadowing⟩

/-- The home package of a symbol, if it has one. -/
def homeOf (env : Environment) (symbol : Nat) : Option Nat :=
  if env.symbolValid symbol && (env.symbols symbol).package ≠ 0 then
    some (env.symbols symbol).package
  else none

/-- The registry with the given presences and edges. -/
def registryOf (env : Environment) (refs edges : Nat → List Nat) :
    Registry Nat Nat (List UInt8) where
  name := env.symbolName
  home := env.homeOf
  present package := (refs package).map env.entryOf
  uses package := (edges package).map fun edge => (env.uses edge).package

/-- The registry that the tables hold. -/
def registry (env : Environment) : Registry Nat Nat (List UInt8) :=
  env.registryOf env.presentRefs env.useRefs

/-- The hash of the name of a presence. -/
def slotOf (env : Environment) (reference : Nat) : Nat :=
  env.hashName (env.symbolName (env.presences reference).symbol)

/-- The tables chain the given presences and edges of each package, and every reference and every
span of a name is a valid one. -/
structure Represents (env : Environment) (refs edges : Nat → List Nat) : Prop where
  outside : ∀ package, env.packageValid package = false → refs package = [] ∧ edges package = []
  present : Family (fun package => env.packageValid package = true) env.presentCount
    (fun package => (env.packages package).present)
    (fun reference => (env.presences reference).next) refs
  indexed : env.bucketCount ≠ 0 → ∀ package, env.packageValid package = true →
    ∀ slot < env.bucketCount, Linked (fun reference => (env.presences reference).bucketNext)
      (env.buckets ((package - 1) * env.bucketCount + slot))
      ((refs package).filter fun reference => env.slotOf reference = slot)
  used : Family (fun package => env.packageValid package = true) env.useCount
    (fun package => (env.packages package).uses) (fun edge => (env.uses edge).next) edges
  symbols : ∀ package, ∀ reference ∈ refs package,
    env.symbolValid (env.presences reference).symbol = true
  packages : ∀ package, ∀ edge ∈ edges package, env.packageValid (env.uses edge).package = true
  symbolSpans : ∀ symbol, env.symbolValid symbol = true →
    (env.symbols symbol).name + (env.symbols symbol).length ≤ env.nameCount
  packageSpans : ∀ package, env.packageValid package = true →
    (env.packages package).name + (env.packages package).length ≤ env.nameCount
  aliasSpans : ∀ reference, 0 < reference → reference ≤ env.aliasCount →
    (env.aliases reference).name + (env.aliases reference).length ≤ env.nameCount ∧
      env.packageValid (env.aliases reference).package = true

variable {env : Environment} {refs edges : Nat → List Nat}

theorem Represents.presentRefs_eq (represents : env.Represents refs edges) :
    env.presentRefs = refs := by
  funext package
  rw [presentRefs]
  cases valid : env.packageValid package with
  | true => exact represents.present.trace_eq valid
  | false => exact ((represents.outside package valid).1).symm

theorem Represents.useRefs_eq (represents : env.Represents refs edges) : env.useRefs = edges := by
  funext package
  rw [useRefs]
  cases valid : env.packageValid package with
  | true => exact represents.used.trace_eq valid
  | false => exact ((represents.outside package valid).2).symm

theorem Represents.registry_eq (represents : env.Represents refs edges) :
    env.registry = env.registryOf refs edges := by
  rw [registry, represents.presentRefs_eq, represents.useRefs_eq]

theorem hashName_lt (env : Environment) (name : List UInt8) (some : env.bucketCount ≠ 0) :
    env.hashName name < env.bucketCount := by
  have bound : env.hashName name ≤ env.bucketCount - 1 := Nat.and_le_right
  omega

/-- A name is found on the chain of its bucket exactly when it is found on the chain of the
package. -/
theorem findPresent_eq (represents : env.Represents refs edges) {package : Nat}
    (valid : env.packageValid package = true) (name : List UInt8) (external : Bool) :
    env.findPresent package name external =
      ((refs package).find? (env.presenceMatches name external)).getD 0 := by
  rw [findPresent, presentChain]
  split
  · rw [represents.present.trace_eq valid]
  · rename_i buckets
    have chain := represents.indexed buckets package valid _ (env.hashName_lt name buckets)
    have bound : ((refs package).filter fun reference =>
        env.slotOf reference = env.hashName name).length ≤ env.presentCount :=
      Nat.le_trans (List.length_filter_le _ _) (represents.present.length_le valid)
    rw [bucket, chain.trace_eq bound, List.find?_filter]
    congr 2
    funext reference
    -- A presence of the name has the hash of the name.
    cases found : env.presenceMatches name external reference with
    | false => simp only [Bool.false_eq_true, and_false, decide_false]
    | true =>
        rw [presenceMatches, Bool.and_eq_true, nameMatches, decide_eq_true_eq] at found
        have slot : env.slotOf reference = env.hashName name := congrArg env.hashName found.2
        simp only [slot, decide_true, and_self]

theorem presenceMatches_iff {name : List UInt8} {external : Bool} {reference : Nat} :
    env.presenceMatches name external reference = true ↔
      (external = true → (env.presences reference).external = true) ∧
        env.symbolName (env.presences reference).symbol = name := by
  rw [presenceMatches, Bool.and_eq_true, nameMatches, decide_eq_true_eq, symbolName]
  cases external <;> simp

theorem findPresent_zero (represents : env.Represents refs edges) {package : Nat}
    (valid : env.packageValid package = true) {name : List UInt8} {external : Bool}
    (absent : env.findPresent package name external = 0) :
    ∀ reference ∈ refs package, env.presenceMatches name external reference = false := by
  rw [findPresent_eq represents valid] at absent
  cases found : (refs package).find? (env.presenceMatches name external) with
  | none =>
      intro reference member
      exact Bool.not_eq_true _ ▸ List.find?_eq_none.mp found reference member
  | some reference =>
      rw [found, Option.getD_some] at absent
      have member := List.mem_of_find?_eq_some found
      exact absurd absent ((represents.present.linked package valid).ne_zero reference member)

theorem findPresent_found (represents : env.Represents refs edges) {package : Nat}
    (valid : env.packageValid package = true) {name : List UInt8} {external : Bool}
    (present : env.findPresent package name external ≠ 0) :
    env.findPresent package name external ∈ refs package ∧
      env.presenceMatches name external (env.findPresent package name external) = true := by
  rw [findPresent_eq represents valid] at present ⊢
  cases found : (refs package).find? (env.presenceMatches name external) with
  | none =>
      rw [found] at present
      exact absurd rfl present
  | some reference =>
      exact ⟨List.mem_of_find?_eq_some found, List.find?_some found⟩

theorem mem_own_registryOf {package : Nat} {name : List UInt8} {symbol : Nat} :
    symbol ∈ (env.registryOf refs edges).own package name ↔
      ∃ reference ∈ refs package, (env.presences reference).symbol = symbol ∧
        env.symbolName symbol = name := by
  constructor
  · rintro ⟨entry, member, same, named⟩
    obtain ⟨reference, inside, rfl⟩ := List.mem_map.mp member
    exact ⟨reference, inside, same, named⟩
  · rintro ⟨reference, member, same, named⟩
    exact ⟨env.entryOf reference, List.mem_map.mpr ⟨reference, member, rfl⟩, same, named⟩

theorem mem_exported_registryOf {package : Nat} {name : List UInt8} {symbol : Nat} :
    symbol ∈ (env.registryOf refs edges).exported package name ↔
      ∃ reference ∈ refs package, (env.presences reference).external = true ∧
        (env.presences reference).symbol = symbol ∧ env.symbolName symbol = name := by
  constructor
  · rintro ⟨entry, member, external, same, named⟩
    obtain ⟨reference, inside, rfl⟩ := List.mem_map.mp member
    exact ⟨reference, inside, external, same, named⟩
  · rintro ⟨reference, member, external, same, named⟩
    exact ⟨env.entryOf reference, List.mem_map.mpr ⟨reference, member, rfl⟩, external, same, named⟩

theorem shadowed_registryOf {package : Nat} {name : List UInt8} :
    (env.registryOf refs edges).Shadowed package name ↔
      ∃ reference ∈ refs package, (env.presences reference).shadowing = true ∧
        env.symbolName (env.presences reference).symbol = name := by
  constructor
  · rintro ⟨entry, member, shadowing, named⟩
    obtain ⟨reference, inside, rfl⟩ := List.mem_map.mp member
    exact ⟨reference, inside, shadowing, named⟩
  · rintro ⟨reference, member, shadowing, named⟩
    exact ⟨env.entryOf reference, List.mem_map.mpr ⟨reference, member, rfl⟩, shadowing, named⟩

theorem symbol_ne_zero {symbol : Nat} (valid : env.symbolValid symbol = true) : symbol ≠ 0 := by
  rw [symbolValid, Bool.and_eq_true, decide_eq_true_eq] at valid
  exact valid.1

/-- The symbol of a name that an edge leads to, or zero. -/
def usedSymbol (env : Environment) (name : List UInt8) (edge : Nat) : Nat :=
  if env.findPresent (env.uses edge).package name true = 0 then 0
  else (env.presences (env.findPresent (env.uses edge).package name true)).symbol

theorem usedSymbol_mem (represents : env.Represents refs edges)
    (tidy : (env.registryOf refs edges).Tidy) {name : List UInt8} {edge symbol : Nat}
    (valid : env.packageValid (env.uses edge).package = true) :
    env.usedSymbol name edge = symbol ∧ symbol ≠ 0 ↔
      symbol ∈ (env.registryOf refs edges).exported (env.uses edge).package name := by
  rw [usedSymbol]
  constructor
  · rintro ⟨found, positive⟩
    split at found
    · exact absurd found.symm positive
    · rename_i present
      obtain ⟨member, isMatch⟩ := findPresent_found represents valid present
      obtain ⟨external, named⟩ := presenceMatches_iff.mp isMatch
      rw [found] at named
      exact mem_exported_registryOf.mpr ⟨_, member, external rfl, found, named⟩
  · intro exported
    have own := Registry.exported_subset_own _ _ _ exported
    obtain ⟨reference, member, external, same, named⟩ := mem_exported_registryOf.mp exported
    have positive := symbol_ne_zero (represents.symbols _ reference member)
    have isMatch : env.presenceMatches name true reference = true :=
      presenceMatches_iff.mpr ⟨fun _ => external, by rw [same, named]⟩
    have present : env.findPresent (env.uses edge).package name true ≠ 0 := by
      intro absent
      rw [findPresent_zero represents valid absent reference member] at isMatch
      cases isMatch
    obtain ⟨found, alsoMatches⟩ := findPresent_found represents valid present
    rw [if_neg present]
    have other : (env.presences (env.findPresent (env.uses edge).package name true)).symbol ∈
        (env.registryOf refs edges).own (env.uses edge).package name :=
      mem_own_registryOf.mpr ⟨_, found, rfl, (presenceMatches_iff.mp alsoMatches).2⟩
    exact ⟨tidy.own_subsingleton _ _ other own, same ▸ positive⟩

theorem findUsed_cons (env : Environment) (name : List UInt8) (edge : Nat) (rest : List Nat)
    (inherited : Nat) : env.findUsed name (edge :: rest) inherited =
      if env.usedSymbol name edge = 0 then env.findUsed name rest inherited
      else if inherited = 0 || inherited = env.usedSymbol name edge then
        env.findUsed name rest (env.usedSymbol name edge)
      else env.fail .conflict := rfl

/-- Once a symbol is found, the other edges lead to it or to a conflict. -/
theorem findUsed_from (env : Environment) (name : List UInt8) {symbol : Nat}
    (positive : symbol ≠ 0) : ∀ chain : List Nat,
      ((∀ edge ∈ chain, env.usedSymbol name edge = 0 ∨ env.usedSymbol name edge = symbol) ∧
        env.findUsed name chain symbol = (symbol, env)) ∨
      ((∃ edge ∈ chain, env.usedSymbol name edge ≠ 0 ∧ env.usedSymbol name edge ≠ symbol) ∧
        env.findUsed name chain symbol = env.fail .conflict) := by
  intro chain
  induction chain with
  | nil => exact .inl ⟨fun _ member => absurd member List.not_mem_nil, rfl⟩
  | cons edge rest ih =>
      rw [findUsed_cons]
      by_cases nothing : env.usedSymbol name edge = 0
      · rw [if_pos nothing]
        refine ih.imp ?_ ?_
        · exact fun ⟨all, result⟩ => ⟨List.forall_mem_cons.mpr ⟨.inl nothing, all⟩, result⟩
        · exact fun ⟨⟨other, member, apart⟩, result⟩ =>
            ⟨⟨other, List.mem_cons_of_mem _ member, apart⟩, result⟩
      · rw [if_neg nothing]
        by_cases same : symbol = env.usedSymbol name edge
        · rw [← same]
          simp only [positive, decide_false, decide_true, Bool.or_true, ↓reduceIte]
          refine ih.imp ?_ ?_
          · exact fun ⟨all, result⟩ => ⟨List.forall_mem_cons.mpr ⟨.inr same.symm, all⟩, result⟩
          · exact fun ⟨⟨other, member, apart⟩, result⟩ =>
              ⟨⟨other, List.mem_cons_of_mem _ member, apart⟩, result⟩
        · simp only [positive, same, decide_false, Bool.or_self, Bool.false_eq_true, ↓reduceIte]
          exact .inr ⟨⟨edge, List.mem_cons_self, nothing, fun alike => same alike.symm⟩, trivial⟩

/-- A lookup through used packages finds nothing, or the one symbol there is, or a conflict. -/
theorem findUsed_cases (env : Environment) (name : List UInt8) : ∀ chain : List Nat,
    ((∀ edge ∈ chain, env.usedSymbol name edge = 0) ∧ env.findUsed name chain 0 = (0, env)) ∨
      (∃ symbol, symbol ≠ 0 ∧ (∃ edge ∈ chain, env.usedSymbol name edge = symbol) ∧
        (∀ edge ∈ chain, env.usedSymbol name edge = 0 ∨ env.usedSymbol name edge = symbol) ∧
        env.findUsed name chain 0 = (symbol, env)) ∨
      (∃ one ∈ chain, ∃ two ∈ chain, env.usedSymbol name one ≠ 0 ∧ env.usedSymbol name two ≠ 0 ∧
        env.usedSymbol name one ≠ env.usedSymbol name two) ∧
        env.findUsed name chain 0 = env.fail .conflict := by
  intro chain
  induction chain with
  | nil => exact .inl ⟨fun _ member => absurd member List.not_mem_nil, rfl⟩
  | cons edge rest ih =>
      rw [findUsed_cons]
      by_cases nothing : env.usedSymbol name edge = 0
      · rw [if_pos nothing]
        obtain ⟨all, result⟩ | ⟨symbol, positive, ⟨other, member, found⟩, all, result⟩ |
          ⟨⟨one, first, two, second, apart⟩, result⟩ := ih
        · exact .inl ⟨List.forall_mem_cons.mpr ⟨nothing, all⟩, result⟩
        · exact .inr (.inl ⟨symbol, positive, ⟨other, List.mem_cons_of_mem _ member, found⟩,
            List.forall_mem_cons.mpr ⟨.inl nothing, all⟩, result⟩)
        · exact .inr (.inr ⟨⟨one, List.mem_cons_of_mem _ first, two,
            List.mem_cons_of_mem _ second, apart⟩, result⟩)
      · simp only [nothing, ↓reduceIte, decide_true, Bool.true_or]
        obtain ⟨all, result⟩ | ⟨⟨other, member, positive, apart⟩, result⟩ :=
          env.findUsed_from name nothing rest
        · exact .inr (.inl ⟨_, nothing, ⟨edge, List.mem_cons_self, rfl⟩,
            List.forall_mem_cons.mpr ⟨.inr rfl, all⟩, result⟩)
        · exact .inr (.inr ⟨⟨edge, List.mem_cons_self, other, List.mem_cons_of_mem _ member,
            nothing, positive, apart.symm⟩, result⟩)

/-- A lookup through used packages does not depend on their order. -/
theorem findUsed_perm (env : Environment) (name : List UInt8) {order chain : List Nat}
    (same : ∀ edge, edge ∈ order ↔ edge ∈ chain) :
    env.findUsed name order 0 = env.findUsed name chain 0 := by
  obtain ⟨all, result⟩ | ⟨symbol, positive, ⟨edge, member, found⟩, all, result⟩ |
    ⟨⟨one, first, two, second, one0, two0, apart⟩, result⟩ := env.findUsed_cases name order
  all_goals
    rw [result]
    obtain ⟨all', result'⟩ | ⟨symbol', positive', ⟨edge', member', found'⟩, all', result'⟩ |
      ⟨⟨one', first', two', second', one0', two0', apart'⟩, result'⟩ :=
        env.findUsed_cases name chain
    all_goals rw [result']
  · exact absurd (found' ▸ all edge' ((same edge').mpr member')) positive'
  · exact absurd (all one' ((same one').mpr first')) one0'
  · exact absurd (found ▸ all' edge ((same edge).mp member)) positive
  · have alike := (all' edge ((same edge).mp member)).resolve_left (found ▸ positive)
    rw [← found, alike]
  · have first := (all one' ((same one').mpr first')).resolve_left one0'
    have second := (all two' ((same two').mpr second')).resolve_left two0'
    exact absurd (first.trans second.symm) apart'
  · exact absurd (all' one ((same one).mp first)) one0
  · have first := (all' one ((same one).mp first)).resolve_left one0
    have second := (all' two ((same two).mp second)).resolve_left two0
    exact absurd (first.trans second.symm) apart

theorem useChain_eq (represents : env.Represents refs edges) {package : Nat}
    (valid : env.packageValid package = true) : env.useChain package = edges package :=
  represents.used.trace_eq valid

/-- The edges of a package lead to what it inherits. -/
theorem mem_inherited_registryOf (represents : env.Represents refs edges)
    (tidy : (env.registryOf refs edges).Tidy) {package symbol : Nat} {name : List UInt8} :
    symbol ∈ (env.registryOf refs edges).inherited package name ↔
      ∃ edge ∈ edges package, env.usedSymbol name edge = symbol ∧ symbol ≠ 0 := by
  constructor
  · rintro ⟨used, member, exported⟩
    obtain ⟨edge, inside, rfl⟩ := List.mem_map.mp member
    have valid := represents.packages package edge inside
    exact ⟨edge, inside, (usedSymbol_mem represents tidy valid).mpr exported⟩
  · rintro ⟨edge, member, found⟩
    have valid := represents.packages package edge member
    exact ⟨_, List.mem_map.mpr ⟨edge, member, rfl⟩,
      (usedSymbol_mem represents tidy valid).mp found⟩

/-- What a lookup through the used packages of a package comes to. -/
theorem findUsed_inherited (represents : env.Represents refs edges)
    (tidy : (env.registryOf refs edges).Tidy) {package : Nat}
    (valid : env.packageValid package = true) (name : List UInt8) :
    ((env.registryOf refs edges).inherited package name = ∅ ∧
        env.findUsed name (env.useChain package) 0 = (0, env)) ∨
      (∃ symbol, symbol ≠ 0 ∧ (env.registryOf refs edges).inherited package name = {symbol} ∧
        env.findUsed name (env.useChain package) 0 = (symbol, env)) ∨
      ¬((env.registryOf refs edges).inherited package name).Subsingleton ∧
        env.findUsed name (env.useChain package) 0 = env.fail .conflict := by
  rw [useChain_eq represents valid]
  obtain ⟨all, result⟩ | ⟨symbol, positive, ⟨edge, member, found⟩, all, result⟩ |
    ⟨⟨one, first, two, second, one0, two0, apart⟩, result⟩ := env.findUsed_cases name (edges package)
  · refine .inl ⟨Set.eq_empty_iff_forall_notMem.mpr fun symbol inherited => ?_, result⟩
    obtain ⟨edge, member, found, positive⟩ :=
      (mem_inherited_registryOf represents tidy).mp inherited
    exact positive (found.symm.trans (all edge member))
  · refine .inr (.inl ⟨symbol, positive, Set.eq_singleton_iff_unique_mem.mpr ⟨?_, ?_⟩, result⟩)
    · exact (mem_inherited_registryOf represents tidy).mpr ⟨edge, member, found, positive⟩
    · intro other inherited
      obtain ⟨another, inside, leads, nonzero⟩ :=
        (mem_inherited_registryOf represents tidy).mp inherited
      have same := (all another inside).resolve_left (leads ▸ nonzero)
      exact leads.symm.trans same
  · refine .inr (.inr ⟨fun single => apart ?_, result⟩)
    exact single ((mem_inherited_registryOf represents tidy).mpr ⟨one, first, rfl, one0⟩)
      ((mem_inherited_registryOf represents tidy).mpr ⟨two, second, rfl, two0⟩)

/-- What a lookup in a package comes to. -/
theorem findSymbol_cases (represents : env.Represents refs edges)
    (tidy : (env.registryOf refs edges).Tidy) {package : Nat}
    (valid : env.packageValid package = true) (name : List UInt8) :
    (∃ reference ∈ refs package, env.symbolName (env.presences reference).symbol = name ∧
        env.findPresent package name false = reference ∧
        env.findSymbol package name = ((env.presences reference).symbol, env)) ∨
      (env.registryOf refs edges).own package name = ∅ ∧ env.findPresent package name false = 0 ∧
        (((env.registryOf refs edges).inherited package name = ∅ ∧
            env.findSymbol package name = (0, env)) ∨
          (∃ symbol, symbol ≠ 0 ∧
            (env.registryOf refs edges).inherited package name = {symbol} ∧
            env.findSymbol package name = (symbol, env)) ∨
          ¬((env.registryOf refs edges).inherited package name).Subsingleton ∧
            env.findSymbol package name = env.fail .conflict) := by
  rw [findSymbol, if_pos valid]
  by_cases absent : env.findPresent package name false = 0
  · refine .inr ⟨Set.eq_empty_iff_forall_notMem.mpr fun symbol own => ?_, absent, ?_⟩
    · obtain ⟨reference, member, same, named⟩ := mem_own_registryOf.mp own
      have isMatch : env.presenceMatches name false reference = true :=
        presenceMatches_iff.mpr ⟨by intros; contradiction, by rw [same, named]⟩
      rw [findPresent_zero represents valid absent reference member] at isMatch
      cases isMatch
    · simp only [absent, Nat.lt_irrefl, ↓reduceIte]
      exact findUsed_inherited represents tidy valid name
  · obtain ⟨member, isMatch⟩ := findPresent_found represents valid absent
    refine .inl ⟨_, member, (presenceMatches_iff.mp isMatch).2, rfl, ?_⟩
    simp only [Nat.pos_of_ne_zero absent, ↓reduceIte]

end Environment

end Native
