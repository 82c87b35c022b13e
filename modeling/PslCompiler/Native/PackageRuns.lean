import PslCompiler.Native.SeedRoom

/-! # Runs of package operations

A run starts with a seeded environment and goes on with operations, of which some may fail. Between
them the caller may clear the error and select a package. In every state that is reached the tables
hold a registry; names are unambiguous in it as long as no new keyword takes the place of a name that
is visible where the keyword package is used.
-/

namespace Native

open Chains Visibility

namespace Environment

variable {env after : Environment} {refs edges : Nat → List Nat} {used links : Nat}

/-- Whether an operation makes a symbol of a name in a package. -/
def Makes (env : Environment) (operation : PackageOperation) (package : Nat) (name : List UInt8) :
    Prop :=
  match operation with
  | .intern place key => place = package ∧ key = name ∧ env.internMakes place key = true
  | .shadowName place key => place = package ∧ key = name ∧ env.shadowMakes place key = true
  | .readSymbol data => env.ReadMakes data package name
  | _ => False

/-- A new keyword has a name that is shadowed or not accessible in each package that uses the keyword
package. -/
def KeywordsApart (env : Environment) (operation : PackageOperation) : Prop :=
  ∀ name, env.Makes operation env.keywordPackage name →
    ∀ user, env.keywordPackage ∈ env.registry.uses user →
      env.registry.Shadowed user name ∨ env.registry.accessible user name = ∅

/-- Every operation fails and leaves the tables, or changes the registry by one change. -/
theorem perform_outcome (represents : env.Represents refs edges)
    (tidy : (env.registryOf refs edges).Tidy) (operation : PackageOperation) :
    Outcome (fun package name => package = env.keywordPackage ∧ env.Makes operation package name)
      env (env.perform operation) := by
  cases operation with
  | makePackage name => exact makePackage_outcome represents name
  | addAlias package name => exact addAlias_outcome represents package name
  | intern package name =>
      exact intern_outcome represents tidy package name fun keyword makes =>
        ⟨keyword, rfl, rfl, makes⟩
  | importSymbol package symbol => exact importSymbol_outcome represents tidy package symbol
  | exportSymbol package symbol => exact exportSymbol_outcome represents tidy package symbol
  | unexportSymbol package symbol => exact unexportSymbol_outcome represents tidy package symbol
  | usePackage package used => exact usePackage_outcome represents tidy package used
  | unusePackage package used => exact unusePackage_outcome represents package used
  | shadowName package name =>
      exact shadowName_outcome represents package name fun keyword makes =>
        ⟨keyword, rfl, rfl, makes⟩
  | shadowingImport package symbol => exact shadowingImport_outcome represents package symbol
  | uninternSymbol package symbol => exact uninternSymbol_outcome represents tidy package symbol
  | readSymbol data =>
      exact readSymbol_outcome represents tidy data fun name makes => ⟨rfl, makes⟩

/-- The tables hold a registry in which a name has at most one present symbol in each package and a
symbol is present in its home. -/
def Consistent (env : Environment) : Prop :=
  ∃ refs edges, env.Represents refs edges ∧ (env.registryOf refs edges).Tidy

/-- The states of runs from a seeded environment whose operations are allowed ones. -/
inductive Reachable (allowed : Environment → PackageOperation → Prop) : Environment → Prop where
  | seeded {env : Environment} (success : env.seedStandard.1 ≠ 0) :
      Reachable allowed env.seedStandard.2
  | performed {env : Environment} {operation : PackageOperation} (reached : Reachable allowed env)
      (isAllowed : allowed env operation) : Reachable allowed (env.perform operation).2
  | cleared {env : Environment} (reached : Reachable allowed env) :
      Reachable allowed { env with error := .none }
  | selected {env : Environment} (package : Nat) (reached : Reachable allowed env) :
      Reachable allowed { env with currentPackage := package }

/-- The error and the selected package are no part of the tables. -/
theorem Represents.relabel (represents : env.Represents refs edges) (error : EnvironmentError)
    (package : Nat) :
    Represents { env with error, currentPackage := package } refs edges :=
  ⟨represents.outside, represents.present, represents.indexed, represents.used, represents.symbols,
    represents.packages, represents.symbolSpans, represents.packageSpans, represents.aliasSpans⟩

theorem Consistent.perform (consistent : Consistent env) (operation : PackageOperation) :
    Consistent (env.perform operation).2 := by
  obtain ⟨refs, edges, represents, tidy⟩ := consistent
  obtain ⟨refs', edges', still, change⟩ := (perform_outcome represents tidy operation).changed
  rw [represents.registry_eq] at change
  exact ⟨refs', edges', still, change.tidy tidy⟩

theorem Reachable.consistent {allowed : Environment → PackageOperation → Prop}
    (reached : Reachable allowed env) : Consistent env := by
  induction reached with
  | seeded success =>
      obtain ⟨refs, edges, seeding⟩ := (seedStandard_seeded success).1
      exact ⟨refs, edges, seeding.represents, seeding.tidy⟩
  | performed _ _ ih => exact ih.perform _
  | @cleared env _ ih =>
      obtain ⟨refs, edges, represents, tidy⟩ := ih
      exact ⟨refs, edges, represents.relabel .none env.currentPackage, tidy⟩
  | @selected env package _ ih =>
      obtain ⟨refs, edges, represents, tidy⟩ := ih
      exact ⟨refs, edges, represents.relabel env.error package, tidy⟩

theorem Reachable.clear (reached : Reachable KeywordsApart env) : env.registry.Clear := by
  induction reached with
  | seeded success =>
      obtain ⟨refs, edges, seeding⟩ := (seedStandard_seeded success).1
      rw [seeding.represents.registry_eq]
      exact seeding.clear
  | @performed env operation reached apart ih =>
      obtain ⟨refs, edges, represents, tidy⟩ := reached.consistent
      obtain ⟨refs', edges', still, change⟩ := (perform_outcome represents tidy operation).changed
      rw [still.registry_eq]
      refine change.clear (represents.registry_eq ▸ tidy) ih ?_
      rintro _ name symbol ⟨rfl, makes⟩ user uses
      refine (apart name makes user uses).imp_right fun empty => .inr ?_
      rw [empty]
      exact Set.empty_subset _
  | cleared _ ih => exact ih
  | selected _ _ ih => exact ih

/-- In every run whose new keywords are apart from the names visible where the keyword package is
used, a name has at most one symbol in a package, names at most one accessible symbol unless it is
shadowed, and its lookup is no conflict and does not depend on the order of the used packages. -/
theorem packages_unambiguous (reached : Reachable KeywordsApart env) :
    (∀ package name, (env.registry.own package name).Subsingleton) ∧
      (∀ package name, env.registry.Shadowed package name ∨
        (env.registry.accessible package name).Subsingleton) ∧
      (∀ package name, env.packageValid package = true →
        (env.findSymbol package name).2 = env ∧
          ∀ order, (∀ edge, edge ∈ order ↔ edge ∈ env.useChain package) →
            env.findUsed name order 0 = env.findUsed name (env.useChain package) 0) := by
  obtain ⟨refs, edges, represents, tidy⟩ := reached.consistent
  have clear := reached.clear
  refine ⟨?_, clear, ?_⟩
  · rw [represents.registry_eq]
    exact tidy.own_subsingleton
  · intro package name valid
    rw [represents.registry_eq] at clear
    exact ⟨findSymbol_clear represents tidy clear valid name, fun order same =>
      env.findUsed_perm name same⟩

/-- The seeded tables stay unambiguous when the last package uses the keyword package. -/
theorem packages_unambiguous_blank : blank.seedStandard.1 ≠ 0 ∧
    ∀ package name,
      (((blank.seedStandard.2.perform (.usePackage 6 4)).2).registry.own package name).Subsingleton :=
  ⟨blank_fits.1, (packages_unambiguous
    (@Reachable.performed _ _ (.usePackage 6 4) (.seeded blank_fits.1) (by rintro _ ⟨⟩))).1⟩

/-- What interning a name comes to where there is room for it. -/
theorem intern_interned (represents : env.Represents refs edges)
    (tidy : (env.registryOf refs edges).Tidy) (clean : env.error = .none) {name : List UInt8}
    (fits : env.namesRoom name.length = true) (package : Nat) :
    Interned env refs edges package name (env.intern package name) := by
  have lookup := findSymbol_lookup represents tidy package name
  rw [intern, if_pos clean]
  generalize lookedUp : env.findSymbol package name = prior at lookup
  cases lookup with
  | failed some why =>
      rw [if_neg (env.fail_error some)]
      exact .failed (env.fail_untouched _) (why.imp_right .inr)
  | present valid member named found =>
      have positive := symbol_ne_zero (represents.symbols package _ member)
      rw [if_pos clean, if_pos (Nat.pos_of_ne_zero positive)]
      exact .found positive (.refl env) clean
        (.inl (mem_own_registryOf.mpr ⟨_, member, rfl, named⟩))
  | inherited valid positive own _ only =>
      rw [if_pos clean, if_pos (Nat.pos_of_ne_zero positive)]
      exact .found positive (.refl env) clean (.inr (only ▸ rfl))
  | missing valid own _ nothing =>
      rw [if_pos clean, if_neg (Nat.lt_irrefl 0)]
      cases room : env.symbolRoom with
      | false =>
          rw [newSymbol, if_neg (Bool.eq_false_iff.mp room)]
          exact .failed (env.fail_untouched _) (.inr (.inl room))
      | true =>
          obtain ⟨value, made⟩ := newSymbol_made represents valid room fits
          have kept := @symbolFromName_eq_of_room (env.copyName name).2 package env.nameCount
            name.length (symbolRoom_present room)
          have result : env.newSymbol package name =
              (env.copyName name).2.symbolFromName package env.nameCount name.length := by
            rw [newSymbol, if_pos room, if_pos fits]
            rfl
          rw [← result] at kept
          rw [← Prod.eta (env.newSymbol package name), value]
          exact .made (congrArg Prod.fst lookedUp) room own nothing made (kept.1.trans clean) kept.2.1

/-- The last package uses the keyword package, in which nothing is present. -/
structure Ready (env : Environment) (refs edges : Nat → List Nat) : Prop where
  represents : env.Represents refs edges
  tidy : (env.registryOf refs edges).Tidy
  clear : (env.registryOf refs edges).Clear
  packages : env.packageCount = 6
  keyword : env.keywordPackage = 4
  keywords : refs 4 = []
  keywordUses : (env.registryOf refs edges).uses 4 = []
  sees : 4 ∈ (env.registryOf refs edges).uses 6
  plain : ∀ reference ∈ refs 6, (env.presences reference).shadowing = false

theorem Ready.valid (ready : Ready env refs edges) {package : Nat} (positive : 0 < package)
    (bound : package ≤ 6) : env.packageValid package = true :=
  packageValid_iff.mpr ⟨positive, ready.packages ▸ bound⟩

/-- After the setup the last package can use the keyword package. -/
theorem usePackage_ready (seeding : Seeding env refs edges) (fits : Fits env used links)
    (few : links < 16) :
    ∃ edges', Ready (env.usePackage 6 4).2 refs edges' ∧
      Fits (env.usePackage 6 4).2 used (links + 1) := by
  have represents := seeding.represents
  have valid := seeding.valid (show 0 < 6 by decide) (by decide)
  have isUsed := seeding.valid (show 0 < 4 by decide) (by decide)
  have fresh : env.hasUse 6 4 = false := by
    rw [Bool.eq_false_iff, Ne, hasUse_iff represents valid, seeding.userUses, List.mem_singleton]
    decide
  have other : ¬6 = env.keywordPackage := by
    rw [seeding.keyword]
    decide
  have result : env.usePackage 6 4 = env.linkUse 6 4 := by
    rw [usePackage, if_pos fits.clean, if_pos valid, if_pos isUsed, if_neg other,
      if_neg (Bool.eq_false_iff.mp fresh)]
    dsimp only
    rw [represents.present.trace_eq isUsed, seeding.keywords, validateUseExports]
    exact if_neg Nat.one_ne_zero
  have room : env.useCount < env.useCapacity := by
    have uses := fits.uses
    have capacity := fits.capacities.2.2.2
    omega
  obtain ⟨_, added⟩ := linkUse_added valid isUsed fits.clean fresh room
  have keyword : (env.linkUse 6 4).2.keywordPackage = env.keywordPackage := by
    have hasRoom : recordRoom env.useCount env.useCapacity = true := decide_eq_true room
    rw [linkUse, if_pos fits.clean, if_pos valid, if_pos isUsed,
      if_neg (Bool.eq_false_iff.mp fresh), if_pos hasRoom]
  have change : Used (env.registryOf refs edges) ((env.linkUse 6 4).2.registryOf refs
      (Function.update edges 6 ((env.useCount + 1) :: edges 6))) 6 4 := by
    rw [added.registryOf_eq represents]
    refine ⟨rfl, rfl, rfl, rfl, fun entry member => ?_⟩
    simp only [registryOf, seeding.keywords, List.map_nil, List.not_mem_nil] at member
  have whole : Change (fun _ _ => False) _ _ := .used change
  rw [result]
  refine ⟨_, ⟨added.represents represents valid isUsed, whole.tidy seeding.tidy,
    whole.clear seeding.tidy seeding.clear fun _ _ _ never => never.elim,
    added.changed.kept.packageCount.trans seeding.packages, keyword.trans seeding.keyword,
    seeding.keywords, ?_, ?_, ?_⟩, (linkUse_fits fits few valid isUsed).2⟩
  · rw [change.uses, Function.update_of_ne (by decide)]
    exact seeding.keywordUses
  · rw [change.uses, Function.update_self]
    exact List.mem_cons_self
  · rw [seeding.users]
    exact fun _ member => absurd member List.not_mem_nil

/-- Interning a name in the last package makes the name visible there. -/
theorem Ready.intern (ready : Ready env refs edges) (fits : Fits env used links)
    (bound : used < 2 ^ 13) {name : List UInt8} (short : name.length ≤ 40) :
    ∃ refs', Ready (env.intern 6 name).2 refs' edges ∧ Fits (env.intern 6 name).2 (used + 1) links ∧
      (((env.intern 6 name).2.registryOf refs' edges).accessible 6 name).Nonempty := by
  have represents := ready.represents
  have interned := intern_interned represents ready.tidy fits.clean (fits.namesRoom bound short) 6
  have keywordOther : (6 : Nat) ≠ env.keywordPackage := by
    rw [ready.keyword]
    decide
  generalize env.intern 6 name = result at interned
  cases interned with
  | failed _ why =>
      obtain invalid | full | ⟨own, several⟩ := why
      · rw [ready.valid (by decide) (by decide)] at invalid
        cases invalid
      · rw [fits.symbolRoom bound] at full
        cases full
      · exact absurd ⟨own, several⟩ (clear_not_several ready.clear 6 name)
  | @found symbol _ positive untouched clean accessible =>
      have ext := untouched.extends
      have settled := ext.settled represents
      have roomy := (fits.untouched untouched clean).mono (Nat.le_succ used)
      refine ⟨refs, ⟨ext.represents represents, settled.tidy ready.tidy, settled.clear ready.clear,
        ?_, ?_, ready.keywords, ?_, ?_, ?_⟩, roomy, symbol, settled.keeps accessible⟩
      · obtain ⟨_, _, rfl, _⟩ := untouched
        exact ready.packages
      · obtain ⟨_, _, rfl, _⟩ := untouched
        exact ready.keyword
      · exact settled.uses ▸ ready.keywordUses
      · exact settled.uses ▸ ready.sees
      · obtain ⟨_, _, rfl, _⟩ := untouched
        exact ready.plain
  | made _ _ own nothing made clean counted =>
      have entered : Entered (fun _ _ => False) _ _ _ _ :=
        made.entered represents own (fun _ => nothing) fun external =>
          keywordOther (of_decide_eq_true external)
      have whole : Change (fun _ _ => False) _ _ := .entered entered
      refine ⟨_, ⟨made.represents, whole.tidy ready.tidy,
        whole.clear ready.tidy ready.clear fun _ _ _ never => never.elim,
        made.packageCount.trans ready.packages, made.keyword.trans ready.keyword,
        (Function.update_of_ne (by decide) _ _).trans ready.keywords, ?_, ?_, ?_⟩,
        fits.made made short clean counted, env.symbolCount + 1, .inl ?_⟩
      · exact entered.uses ▸ ready.keywordUses
      · exact entered.uses ▸ ready.sees
      · intro reference member
        obtain ⟨rfl, _⟩ | old := mem_push member
        · exact congrArg Entry.shadowing made.entry
        · have same := congrArg Entry.shadowing (made.others 6 reference old)
          exact same.trans (ready.plain reference old)
      · refine mem_own_registryOf.mpr ⟨env.presentCount + 1, ?_,
          congrArg Entry.symbol made.entry, made.named⟩
        rw [Function.update_self]
        exact List.mem_cons_self

/-- A new keyword of a name that the last package sees is a second symbol of the name there. -/
theorem Ready.conflict (ready : Ready env refs edges) (fits : Fits env used links)
    (bound : used < 2 ^ 13) {name : List UInt8} (short : name.length ≤ 40)
    (sees : ((env.registryOf refs edges).accessible 6 name).Nonempty) :
    ¬((env.intern 4 name).2.registry.Shadowed 6 name ∨
      ((env.intern 4 name).2.registry.accessible 6 name).Subsingleton) := by
  have represents := ready.represents
  have own : (env.registryOf refs edges).own 4 name = ∅ := by
    apply Set.eq_empty_iff_forall_notMem.mpr
    intro symbol isOwn
    obtain ⟨reference, member, _⟩ := mem_own_registryOf.mp isOwn
    rw [ready.keywords] at member
    exact absurd member List.not_mem_nil
  have nothing : (env.registryOf refs edges).inherited 4 name = ∅ := by
    apply Set.eq_empty_iff_forall_notMem.mpr
    intro symbol ⟨other, uses, _⟩
    rw [ready.keywordUses] at uses
    exact absurd uses List.not_mem_nil
  have interned := intern_interned represents ready.tidy fits.clean (fits.namesRoom bound short) 4
  generalize env.intern 4 name = result at interned
  cases interned with
  | failed _ why =>
      obtain invalid | full | ⟨_, several⟩ := why
      · rw [ready.valid (by decide) (by decide)] at invalid
        cases invalid
      · rw [fits.symbolRoom bound] at full
        cases full
      · rw [nothing] at several
        exact absurd Set.subsingleton_empty several
  | found _ _ _ accessible =>
      rw [Registry.accessible, own, nothing, Set.union_empty] at accessible
      exact accessible.elim
  | made _ _ _ _ made _ _ =>
      have entered : Entered (fun _ _ => True) _ _ _ _ :=
        made.entered represents own (fun _ => nothing) fun _ => trivial
      have external : decide (4 = env.keywordPackage) = true :=
        decide_eq_true ready.keyword.symm
      rw [made.represents.registry_eq]
      rintro (shadow | single)
      · obtain ⟨reference, member, shadowing, _⟩ := shadowed_registryOf.mp shadow
        rw [Function.update_of_ne (by decide)] at member
        have same := congrArg Entry.shadowing (made.others 6 reference member)
        exact Bool.noConfusion (shadowing.symm.trans (same.trans (ready.plain reference member)))
      · obtain ⟨symbol, visible⟩ := sees
        -- The old symbol is one of the table, the new one comes after all of them.
        have old : symbol ≤ env.symbolCount := by
          obtain mine | ⟨place, _, exported⟩ := visible
          · obtain ⟨reference, member, rfl, _⟩ := mem_own_registryOf.mp mine
            exact (symbolValid_iff.mp (represents.symbols 6 reference member)).2
          · obtain ⟨reference, member, _, rfl, _⟩ := mem_exported_registryOf.mp exported
            exact (symbolValid_iff.mp (represents.symbols place reference member)).2
        have still := entered.keeps visible
        have new : env.symbolCount + 1 ∈ (Environment.registryOf _
            (Function.update refs 4 ((env.presentCount + 1) :: refs 4)) edges).accessible 6 name :=
          entered.exports ready.sees external made.named
        exact absurd (single still new) (by omega)

/-- The name of the keyword that comes into conflict. -/
def conflicting : List UInt8 :=
  [90]

/-- Names become ambiguous: the last package uses the keyword package and has a symbol, and then a
keyword of the same name is made. -/
theorem packages_ambiguous : ¬∀ env, Reachable (fun _ _ => True) env →
    ∀ package name, env.registry.Shadowed package name ∨
      (env.registry.accessible package name).Subsingleton := by
  intro claimed
  obtain ⟨success, fits⟩ := blank_fits
  have reached : Reachable (fun _ _ => True) blank.seedStandard.2 := .seeded success
  obtain ⟨refs, edges, seeding⟩ := (seedStandard_seeded success).1
  generalize blank.seedStandard.2 = seeded at *
  obtain ⟨_, ready, used⟩ := usePackage_ready seeding fits (by decide)
  have reached : Reachable (fun _ _ => True) (seeded.usePackage 6 4).2 :=
    @Reachable.performed _ _ (.usePackage 6 4) reached trivial
  generalize (seeded.usePackage 6 4).2 = user at *
  have short : conflicting.length ≤ 40 := by decide
  obtain ⟨_, again, interned, sees⟩ := ready.intern used (by decide) short
  have reached : Reachable (fun _ _ => True) (user.intern 6 conflicting).2 :=
    @Reachable.performed _ _ (.intern 6 conflicting) reached trivial
  generalize (user.intern 6 conflicting).2 = last at *
  have reached : Reachable (fun _ _ => True) (last.intern 4 conflicting).2 :=
    @Reachable.performed _ _ (.intern 4 conflicting) reached trivial
  exact again.conflict interned (by decide) short sees (claimed _ reached 6 conflicting)

/-- The lookups of packages, of presences, of symbols and of their names give the same. -/
structure SameLookups (before after : Environment) : Prop where
  packages : ∀ name, after.findPackage name = before.findPackage name
  presences : ∀ package name external, before.packageValid package = true →
    after.findPresent package name external = before.findPresent package name external
  symbols : ∀ package name,
    (after.findSymbol package name).1 = (before.findSymbol package name).1
  names : ∀ symbol, before.symbolValid symbol = true →
    after.symbolName symbol = before.symbolName symbol

theorem Extends.sameLookups (ext : Extends env after) (represents : env.Represents refs edges) :
    SameLookups env after where
  packages := ext.findPackage represents
  presences _ name external valid := ext.findPresent represents valid name external
  symbols := ext.findSymbol represents
  names _ valid := ext.symbolName represents valid

/-- The lookup through the buckets finds what a search of the chain of the package finds. -/
def IndexFaithful (env : Environment) : Prop :=
  ∀ package name external, env.packageValid package = true →
    env.findPresent package name external =
      ((env.presentRefs package).find? (env.presenceMatches name external)).getD 0

/-- A symbol has no home, or is present in it. -/
def HomesPresent (env : Environment) : Prop :=
  ∀ symbol, env.symbolValid symbol = true → (env.symbols symbol).package = 0 ∨
    ∃ reference ∈ env.presentRefs (env.symbols symbol).package,
      (env.presences reference).symbol = symbol

theorem Represents.indexFaithful (represents : env.Represents refs edges) : IndexFaithful env := by
  intro package name external valid
  rw [findPresent_eq represents valid, represents.presentRefs_eq]

theorem Represents.homesPresent (represents : env.Represents refs edges)
    (tidy : (env.registryOf refs edges).Tidy) : HomesPresent env := by
  intro symbol valid
  by_cases homeless : (env.symbols symbol).package = 0
  · exact .inl homeless
  · obtain ⟨entry, member, same⟩ := tidy.homes symbol _ (homeOf_eq_some.mpr ⟨valid, rfl, homeless⟩)
    obtain ⟨reference, inside, rfl⟩ := List.mem_map.mp member
    rw [represents.presentRefs_eq]
    exact .inr ⟨reference, inside, same⟩

/-- In every state of every run an operation that fails leaves the tables and what is found in them,
the buckets find what the chains hold, and symbols are present in their homes. -/
theorem packages_atomic (reached : Reachable (fun _ _ => True) env) :
    (∀ operation, (env.perform operation).1 = 0 →
      Untouched env (env.perform operation).2 ∧ SameLookups env (env.perform operation).2) ∧
      IndexFaithful env ∧ HomesPresent env := by
  obtain ⟨refs, edges, represents, tidy⟩ := reached.consistent
  refine ⟨?_, represents.indexFaithful, represents.homesPresent tidy⟩
  intro operation failed
  have untouched := (perform_outcome represents tidy operation).failed failed
  exact ⟨untouched, untouched.extends.sameLookups represents⟩

theorem packages_atomic_blank : blank.seedStandard.1 ≠ 0 ∧ IndexFaithful blank.seedStandard.2 ∧
    HomesPresent blank.seedStandard.2 :=
  ⟨blank_fits.1, (packages_atomic (.seeded blank_fits.1)).2⟩

end Environment

end Native
