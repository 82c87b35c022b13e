import PslCompiler.Native.SeedPackages

/-! # Seeding the symbols

The catalogue goes into the first three packages, which use nothing. So exporting a name there can
only be seen by the last package, which has no symbols of its own.
-/

namespace Native

open Chains Visibility

/-- The names that each package exports. -/
def catalogue : Nat → List SeedWords
  | 1 => seedCommonLisp
  | 2 => seedPsl
  | 3 => seedPslFfi
  | _ => []

namespace Environment

variable {env after : Environment} {refs edges refs' edges' : Nat → List Nat}

/-- The tables while the environment is set up: nothing is in conflict, the keyword package is
empty and uses nothing, and the last package is empty and uses the first. -/
structure Seeding (env : Environment) (refs edges : Nat → List Nat) : Prop where
  represents : env.Represents refs edges
  tidy : (env.registryOf refs edges).Tidy
  clear : (env.registryOf refs edges).Clear
  packages : env.packageCount = 6
  keyword : env.keywordPackage = 4
  keywords : refs 4 = []
  users : refs 6 = []
  keywordUses : (env.registryOf refs edges).uses 4 = []
  userUses : (env.registryOf refs edges).uses 6 = [1]

theorem Seeding.valid (seeding : Seeding env refs edges) {package : Nat} (positive : 0 < package)
    (bound : package ≤ 6) : env.packageValid package = true :=
  packageValid_iff.mpr ⟨positive, seeding.packages ▸ bound⟩

/-- A change without automatic exports, outside the keyword package and the last one. -/
theorem Seeding.of_change (seeding : Seeding env refs edges)
    (represents : after.Represents refs' edges')
    (change : Change (fun _ _ => False) (env.registryOf refs edges)
      (after.registryOf refs' edges'))
    (packages : after.packageCount = env.packageCount)
    (keyword : after.keywordPackage = env.keywordPackage) (keywords : refs' 4 = refs 4)
    (users : refs' 6 = refs 6)
    (keywordUses : (after.registryOf refs' edges').uses 4 = (env.registryOf refs edges).uses 4)
    (userUses : (after.registryOf refs' edges').uses 6 = (env.registryOf refs edges).uses 6) :
    Seeding after refs' edges' where
  represents := represents
  tidy := change.tidy seeding.tidy
  clear := change.clear seeding.tidy seeding.clear fun _ _ _ never => never.elim
  packages := packages.trans seeding.packages
  keyword := keyword.trans seeding.keyword
  keywords := keywords.trans seeding.keywords
  users := users.trans seeding.users
  keywordUses := keywordUses.trans seeding.keywordUses
  userUses := userUses.trans seeding.userUses

theorem Seeding.untouched (seeding : Seeding env refs edges) (untouched : Untouched env after) :
    Seeding after refs edges := by
  have ext := untouched.extends
  have settled := ext.settled seeding.represents
  have represents := ext.represents seeding.represents
  obtain ⟨names, error, rfl, _⟩ := untouched
  exact seeding.of_change represents (.settled settled) rfl rfl rfl rfl rfl rfl

/-- A symbol of a new name in a package that is neither for keywords nor the last one. -/
theorem Seeding.made (seeding : Seeding env refs edges) {package : Nat} {name : List UInt8}
    (notKeyword : package ≠ 4) (notLast : package ≠ 6)
    (own : (env.registryOf refs edges).own package name = ∅)
    (inherited : (env.registryOf refs edges).inherited package name = ∅)
    (made : Made env after refs edges package name (package = env.keywordPackage) false) :
    Seeding after (Function.update refs package ((env.presentCount + 1) :: refs package)) edges := by
  have entered : Entered (fun _ _ => False) _ _ _ _ :=
    made.entered seeding.represents own (fun _ => inherited) fun external =>
      notKeyword ((of_decide_eq_true external).trans seeding.keyword)
  apply seeding.of_change made.represents (.entered entered) made.packageCount made.keyword
  · exact Function.update_of_ne notKeyword.symm _ _
  · exact Function.update_of_ne notLast.symm _ _
  · rw [entered.uses]
  · rw [entered.uses]

/-- What interning a name of the catalogue comes to. -/
theorem seedName_interned (represents : env.Represents refs edges)
    (tidy : (env.registryOf refs edges).Tidy) (package : Nat) (words : SeedWords)
    (clean : env.error = .none) (room : env.namesRoom words.length = true) :
    Interned env refs edges package words.name (env.seedName package words) := by
  have ext := env.appendName_extends words.name
  have named : (env.appendName words.name).nameAt env.nameCount words.length = words.name := by
    have whole := env.writeName_nameAt env.nameCount words.name 0
    rw [words.length_name] at whole
    exact whole
  have counted : (env.appendName words.name).nameCount = env.nameCount + words.length := by
    rw [← words.length_name]
    rfl
  have interned := internNameSpan_interned represents tidy ext clean package words.length counted
  rw [named] at interned
  rwa [seedName, if_pos clean, if_pos room]

theorem seedName_cases (represents : env.Represents refs edges)
    (tidy : (env.registryOf refs edges).Tidy) (package : Nat) (words : SeedWords) :
    Interned env refs edges package words.name (env.seedName package words) ∨
      (env.seedName package words).1 = 0 ∧ Untouched env (env.seedName package words).2 := by
  by_cases clean : env.error = .none
  · cases room : env.namesRoom words.length with
    | true => exact .inl (seedName_interned represents tidy package words clean room)
    | false =>
        rw [seedName, if_pos clean, if_neg (Bool.eq_false_iff.mp room)]
        exact .inr ⟨rfl, env.fail_untouched _⟩
  · rw [seedName, if_neg clean]
    exact .inr ⟨rfl, .refl env⟩

/-- Binding a symbol that is present sets the flags of its presence. -/
theorem bindSymbol_present (represents : env.Represents refs edges)
    (tidy : (env.registryOf refs edges).Tidy) {package reference : Nat}
    (clean : env.error = .none) (valid : env.packageValid package = true)
    (member : reference ∈ refs package) (external shadowing : Bool) :
    ∃ prior ∈ refs package, (env.presences prior).symbol = (env.presences reference).symbol ∧
      env.bindSymbol package (env.presences reference).symbol external shadowing =
        ((env.presences reference).symbol, env.setFlags prior external shadowing) := by
  have isSymbol := represents.symbols package reference member
  have isMatch : env.presenceMatches (env.symbolName (env.presences reference).symbol) false
      reference = true := presenceMatches_iff.mpr ⟨by intros; contradiction, rfl⟩
  have found : env.findPresent package (env.symbolName (env.presences reference).symbol) false ≠
      0 := by
    intro absent
    rw [findPresent_zero represents valid absent reference member] at isMatch
    cases isMatch
  obtain ⟨inside, alsoMatches⟩ := findPresent_found represents valid found
  have same := tidy.own_subsingleton package
    (env.symbolName (env.presences reference).symbol)
    (mem_own_registryOf.mpr ⟨_, inside, rfl, (presenceMatches_iff.mp alsoMatches).2⟩)
    (mem_own_registryOf.mpr ⟨reference, member, rfl, rfl⟩)
  refine ⟨_, inside, same, ?_⟩
  rw [bindSymbol, if_pos clean, if_pos valid, if_pos isSymbol]
  dsimp only
  generalize env.findPresent package (env.symbolName (env.presences reference).symbol) false =
    prior at *
  rw [if_neg found, if_pos (by simp only [same, decide_true, Bool.true_or]), ← same]
  rfl

/-- While the catalogue is entered, every name is one of the catalogue, and only the last package uses
another one. -/
structure Listed (env : Environment) (refs edges : Nat → List Nat) : Prop where
  seeding : Seeding env refs edges
  inside : ∀ place, ∀ reference ∈ refs place, ∃ words ∈ catalogue place,
    env.symbolName (env.presences reference).symbol = words.name
  alone : ∀ place, place ≠ 6 → (env.registryOf refs edges).uses place = []

/-- Nothing shadows. -/
def Plain (env : Environment) (refs : Nat → List Nat) : Prop :=
  ∀ place, ∀ reference ∈ refs place, (env.presences reference).shadowing = false

/-- What is shadowed stays so. -/
def KeepsShadows (before after : Registry Nat Nat (List UInt8)) : Prop :=
  ∀ place name, before.Shadowed place name → after.Shadowed place name

theorem Listed.untouched (listed : Listed env refs edges) (untouched : Untouched env after) :
    Listed after refs edges ∧ (Plain env refs → Plain after refs) ∧
      KeepsShadows (env.registryOf refs edges) (after.registryOf refs edges) := by
  have seeding := listed.seeding.untouched untouched
  have settled := untouched.extends.settled listed.seeding.represents
  have names : ∀ place, ∀ reference ∈ refs place,
      after.symbolName (env.presences reference).symbol =
        env.symbolName (env.presences reference).symbol := fun place reference member =>
    untouched.extends.symbolName listed.seeding.represents
      (listed.seeding.represents.symbols place reference member)
  obtain ⟨text, error, rfl, _⟩ := untouched
  refine ⟨⟨seeding, ?_, listed.alone⟩, fun plain => plain, ?_⟩
  · intro place reference member
    obtain ⟨words, isWords, named⟩ := listed.inside place reference member
    exact ⟨words, isWords, (names place reference member).trans named⟩
  · intro place name shadow
    exact (own_congr settled.names (congrFun settled.present place) name).2.2.mpr shadow

theorem Listed.notSpecial (listed : Listed env refs edges) {package : Nat}
    {words : SeedWords} (isWords : words ∈ catalogue package) :
    package ≠ 4 ∧ package ≠ 6 ∧ env.packageValid package = true := by
  have three : package = 1 ∨ package = 2 ∨ package = 3 := by
    match package, isWords with
    | 1, _ => exact .inl rfl
    | 2, _ => exact .inr (.inl rfl)
    | 3, _ => exact .inr (.inr rfl)
  refine ⟨by omega, by omega, listed.seeding.valid (by omega) (by omega)⟩

theorem mem_push {package place reference count : Nat}
    (member : reference ∈ Function.update refs package ((count + 1) :: refs package) place) :
    reference = count + 1 ∧ place = package ∨ reference ∈ refs place := by
  by_cases here : place = package
  · subst here
    rw [Function.update_self] at member
    exact (List.mem_cons.mp member).imp_left fun same => ⟨same, rfl⟩
  · rw [Function.update_of_ne here] at member
    exact .inr member

/-- A new symbol of a name of the catalogue. -/
theorem Listed.made (listed : Listed env refs edges) {package : Nat} {words : SeedWords}
    (isWords : words ∈ catalogue package)
    (own : (env.registryOf refs edges).own package words.name = ∅)
    (inherited : (env.registryOf refs edges).inherited package words.name = ∅)
    (made : Made env after refs edges package words.name (package = env.keywordPackage) false) :
    Listed after (Function.update refs package ((env.presentCount + 1) :: refs package)) edges ∧
      (Plain env refs →
        Plain after (Function.update refs package ((env.presentCount + 1) :: refs package))) ∧
      KeepsShadows (env.registryOf refs edges) (after.registryOf
        (Function.update refs package ((env.presentCount + 1) :: refs package)) edges) := by
  have seeding := listed.seeding
  obtain ⟨notKeyword, notLast, valid⟩ := listed.notSpecial isWords
  have entered : Entered (fun _ _ => False) _ _ _ _ :=
    made.entered seeding.represents own (fun _ => inherited) fun external =>
      notKeyword ((of_decide_eq_true external).trans seeding.keyword)
  refine ⟨⟨seeding.made notKeyword notLast own inherited made, ?_, ?_⟩, ?_, ?_⟩
  · intro place reference member
    obtain ⟨rfl, rfl⟩ | old := mem_push member
    · have symbol : (after.presences (env.presentCount + 1)).symbol = env.symbolCount + 1 :=
        congrArg Entry.symbol made.entry
      rw [symbol]
      exact ⟨words, isWords, made.named⟩
    · have symbol : (after.presences reference).symbol = (env.presences reference).symbol :=
        congrArg Entry.symbol (made.others place reference old)
      obtain ⟨others, also, named⟩ := listed.inside place reference old
      rw [symbol]
      exact ⟨others, also, (made.names _
        (seeding.represents.symbols place reference old)).trans named⟩
  · intro place other
    simp only [registryOf, made.uses]
    exact listed.alone place other
  · intro plain place reference member
    obtain ⟨rfl, rfl⟩ | old := mem_push member
    · exact congrArg Entry.shadowing made.entry
    · have same := congrArg Entry.shadowing (made.others place reference old)
      exact same.trans (plain place reference old)
  · exact fun place name shadow => entered.shadowed shadow

/-- Interning a name of the catalogue, in the package that exports it. -/
theorem seedName_listed (listed : Listed env refs edges) {package : Nat}
    {words : SeedWords} (isWords : words ∈ catalogue package) :
    ∃ refs', Listed (env.seedName package words).2 refs' edges ∧
      (Plain env refs → Plain (env.seedName package words).2 refs') ∧
      KeepsShadows (env.registryOf refs edges)
        ((env.seedName package words).2.registryOf refs' edges) ∧
      ((env.seedName package words).1 ≠ 0 → ∃ reference ∈ refs' package,
        ((env.seedName package words).2.presences reference).symbol =
            (env.seedName package words).1 ∧
          (env.seedName package words).2.symbolName (env.seedName package words).1 =
            words.name) := by
  have seeding := listed.seeding
  have cases := seedName_cases seeding.represents seeding.tidy package words
  generalize env.seedName package words = result at cases
  obtain interned | ⟨zero, untouched⟩ := cases
  · cases interned with
    | failed untouched _ =>
        obtain ⟨still, plain, shadows⟩ := listed.untouched untouched
        exact ⟨refs, still, plain, shadows, fun some => absurd rfl some⟩
    | found _ untouched _ accessible =>
        obtain ⟨still, plain, shadows⟩ := listed.untouched untouched
        refine ⟨refs, still, plain, shadows, fun _ => ?_⟩
        -- The package uses nothing, so the symbol is its own.
        obtain own | ⟨used, uses, _⟩ := accessible
        · obtain ⟨reference, member, same, named⟩ := mem_own_registryOf.mp own
          have kept := untouched.extends.symbolName seeding.represents
            (seeding.represents.symbols package reference member)
          obtain ⟨text, error, rfl, _⟩ := untouched
          exact ⟨reference, member, same, same ▸ kept.trans (same ▸ named)⟩
        · rw [listed.alone package (listed.notSpecial isWords).2.1] at uses
          exact absurd uses List.not_mem_nil
    | made _ _ own nothing made _ _ =>
        obtain ⟨still, plain, shadows⟩ := listed.made isWords own nothing made
        refine ⟨_, still, plain, shadows, fun _ => ⟨env.presentCount + 1, ?_,
          congrArg Entry.symbol made.entry, made.named⟩⟩
        rw [Function.update_self]
        exact List.mem_cons_self
  · obtain ⟨still, plain, shadows⟩ := listed.untouched untouched
    exact ⟨refs, still, plain, shadows, fun some => absurd zero some⟩

/-- The last package admits the symbols of the first: it has none of its own and sees no others. -/
theorem Seeding.admits (seeding : Seeding env refs edges) {name : List UInt8} {symbol : Nat}
    (own : symbol ∈ (env.registryOf refs edges).own 1 name) :
    (env.registryOf refs edges).Admits 6 name symbol := by
  refine .inr (.inr ?_)
  rintro other (mine | ⟨used, uses, exported⟩)
  · obtain ⟨reference, member, _⟩ := mem_own_registryOf.mp mine
    rw [seeding.users] at member
    exact absurd member List.not_mem_nil
  · rw [seeding.userUses, List.mem_singleton] at uses
    subst uses
    exact seeding.tidy.own_subsingleton 1 name (Registry.exported_subset_own _ _ _ exported) own

/-- Setting the flags of a presence, where the packages that use its package admit the symbol. -/
theorem Seeding.setFlags (seeding : Seeding env refs edges) {package entry : Nat}
    (member : entry ∈ refs package) {external shadowing : Bool}
    (shadows : (env.presences entry).shadowing = true → shadowing = true)
    (users : external = true → ∀ user, package ∈ (env.registryOf refs edges).uses user →
      (env.registryOf refs edges).Admits user (env.symbolName (env.presences entry).symbol)
        (env.presences entry).symbol) :
    Seeding (env.setFlags entry external shadowing) refs edges := by
  have changed := env.setFlags_set entry external shadowing
  have isSymbol := seeding.represents.symbols package entry member
  have replaced := changed.replaced seeding.represents member rfl
    (fun _ _ found => ⟨found, fun _ _ => rfl⟩) shadows (.inl rfl)
    fun isExternal => .inr (users isExternal)
  exact seeding.of_change (changed.represents seeding.represents isSymbol rfl) (.replaced replaced)
    rfl rfl rfl rfl rfl rfl

theorem bindSymbol_failed {package symbol : Nat} {external shadowing : Bool}
    (failing : env.error ≠ .none) :
    env.bindSymbol package symbol external shadowing = (0, env) := by
  rw [bindSymbol, if_neg failing]

/-- Binding a symbol of the catalogue makes it external, and it may shadow as well. -/
theorem bindSymbol_listed (listed : Listed env refs edges) {package reference : Nat}
    {words : SeedWords} (isWords : words ∈ catalogue package) (member : reference ∈ refs package)
    {shadowing : Bool} (shadows : Plain env refs ∨ shadowing = true) :
    Listed (env.bindSymbol package (env.presences reference).symbol true shadowing).2 refs edges ∧
      (Plain env refs → shadowing = false →
        Plain (env.bindSymbol package (env.presences reference).symbol true shadowing).2 refs) ∧
      (shadowing = true → KeepsShadows (env.registryOf refs edges)
        ((env.bindSymbol package (env.presences reference).symbol true shadowing).2.registryOf
          refs edges)) ∧
      (env.error = .none → shadowing = true →
        ((env.bindSymbol package (env.presences reference).symbol true
          shadowing).2.registryOf refs edges).Shadowed package
            (env.symbolName (env.presences reference).symbol)) := by
  have seeding := listed.seeding
  obtain ⟨_, _, valid⟩ := listed.notSpecial isWords
  by_cases clean : env.error = .none
  · obtain ⟨prior, inside, same, result⟩ := bindSymbol_present seeding.represents seeding.tidy
      clean valid member true shadowing
    have users : ∀ user, package ∈ (env.registryOf refs edges).uses user →
        (env.registryOf refs edges).Admits user (env.symbolName (env.presences prior).symbol)
          (env.presences prior).symbol := by
      intro user uses
      by_cases last : user = 6
      · subst last
        rw [seeding.userUses, List.mem_singleton] at uses
        subst uses
        exact seeding.admits (mem_own_registryOf.mpr ⟨prior, inside, rfl, rfl⟩)
      · rw [listed.alone user last] at uses
        exact absurd uses List.not_mem_nil
    have keeps : (env.presences prior).shadowing = true → shadowing = true := by
      intro old
      cases shadows with
      | inl plain =>
          rw [plain package prior inside] at old
          cases old
      | inr new => exact new
    have changed := (env.setFlags_set prior true shadowing).presences
    have symbols : ∀ other, ((env.setFlags prior true shadowing).presences other).symbol =
        (env.presences other).symbol := fun other =>
      field_update PresenceRecord.symbol env.presences prior
        { env.presences prior with external := true, shadowing } rfl other
    rw [result]
    refine ⟨⟨seeding.setFlags inside keeps fun _ => users, ?_, listed.alone⟩, ?_, ?_, ?_⟩
    · intro place other also
      obtain ⟨text, isText, named⟩ := listed.inside place other also
      exact ⟨text, isText, (congrArg env.symbolName (symbols other)).trans named⟩
    · intro plain notShadowing place other also
      rw [changed]
      by_cases here : other = prior
      · rw [here, Function.update_self]
        exact notShadowing
      · rw [Function.update_of_ne here]
        exact plain place other also
    · intro isShadowing place name shadow
      obtain ⟨other, also, old, named⟩ := shadowed_registryOf.mp shadow
      refine shadowed_registryOf.mpr ⟨other, also, ?_, ?_⟩
      · rw [changed]
        by_cases here : other = prior
        · rw [here, Function.update_self]
          exact isShadowing
        · rw [Function.update_of_ne here]
          exact old
      · exact (congrArg env.symbolName (symbols other)).trans named
    · intro _ isShadowing
      refine shadowed_registryOf.mpr ⟨prior, inside, ?_, ?_⟩
      · rw [changed, Function.update_self]
        exact isShadowing
      · exact congrArg env.symbolName ((symbols prior).trans same)
  · rw [bindSymbol_failed clean]
    exact ⟨listed, fun plain _ => plain, fun _ _ _ shadow => shadow, fun none => absurd none clean⟩

theorem seedExport_listed (listed : Listed env refs edges) (plain : Plain env refs) {package : Nat}
    {words : SeedWords} (isWords : words ∈ catalogue package) :
    ∃ refs', Listed (env.seedExport package words).2 refs' edges ∧
      Plain (env.seedExport package words).2 refs' := by
  obtain ⟨refs', named, stillPlain, _, symbol⟩ := seedName_listed listed isWords
  rw [seedExport]
  dsimp only
  split
  case isTrue => exact ⟨refs', named, stillPlain plain⟩
  case isFalse some =>
    obtain ⟨reference, member, same, _⟩ := symbol some
    rw [← same]
    obtain ⟨bound, boundPlain, _⟩ := @bindSymbol_listed _ _ _ named _ _ _ isWords member false
      (.inl (stillPlain plain))
    exact ⟨refs', bound, boundPlain (stillPlain plain) rfl⟩

/-- The state of the tables while names are exported. -/
def Exporting (edges : Nat → List Nat) (env : Environment) : Prop :=
  ∃ refs, Listed env refs edges ∧ Plain env refs

theorem seedNames_exporting {package : Nat} : ∀ {entries : List SeedWords} {env : Environment},
    Exporting edges env → entries ⊆ catalogue package →
      Exporting edges (env.seedNames package entries).2 := by
  intro entries
  induction entries with
  | nil => exact fun exporting _ => exporting
  | cons words rest ih =>
      intro env ⟨_, listed, plain⟩ isWords
      exact ih (seedExport_listed listed plain (isWords List.mem_cons_self))
        fun _ member => isWords (List.mem_cons_of_mem _ member)

theorem seedCommonLisp_exporting (exporting : Exporting edges env) :
    Exporting edges env.seedCommonLisp.2 := by
  have listed : Native.seedCommonLisp ⊆ catalogue 1 := by
    rw [catalogue]
    exact List.Subset.refl _
  rw [seedCommonLisp]
  exact seedNames_exporting exporting listed

theorem seedPsl_exporting (exporting : Exporting edges env) : Exporting edges env.seedPsl.2 := by
  have listed : Native.seedPsl ⊆ catalogue 2 := by
    rw [catalogue]
    exact List.Subset.refl _
  rw [seedPsl]
  exact seedNames_exporting exporting listed

theorem seedPslFfi_exporting (exporting : Exporting edges env) :
    Exporting edges env.seedPslFfi.2 := by
  have listed : Native.seedPslFfi ⊆ catalogue 3 := by
    rw [catalogue]
    exact List.Subset.refl _
  rw [seedPslFfi]
  exact seedNames_exporting exporting listed

/-- What a step establishes and the rest keeps holds after both. -/
theorem andThen_holds {first last : Environment → Prop} {result : Nat × Environment}
    {next : Environment → Nat × Environment} (begins : first result.2)
    (goes : ∀ env, first env → (next env).1 ≠ 0 → last (next env).2)
    (success : (andThen result next).1 ≠ 0) : last (andThen result next).2 := by
  obtain ⟨_, rest, same⟩ := andThen_ne_zero success
  rw [same]
  exact goes result.2 begins rest

theorem seedExports_exporting (exporting : Exporting edges env)
    (success : env.seedExports.1 ≠ 0) : Exporting edges env.seedExports.2 := by
  have last : ∀ env, Exporting edges env → env.seedPslFfi.1 ≠ 0 →
      Exporting edges env.seedPslFfi.2 := fun _ exporting _ => seedPslFfi_exporting exporting
  have middle : ∀ env, Exporting edges env → (andThen env.seedPsl seedPslFfi).1 ≠ 0 →
      Exporting edges (andThen env.seedPsl seedPslFfi).2 := fun _ exporting success =>
    @andThen_holds _ _ _ _ (seedPsl_exporting exporting) last success
  rw [seedExports] at success ⊢
  exact @andThen_holds _ _ _ _ (seedCommonLisp_exporting exporting) middle success

/-- After the packages are made, the catalogue can be exported. -/
theorem Founded.exporting (founded : Founded env) :
    Exporting firstEdges { env with keywordPackage := 4, currentPackage := 5 } := by
  have uses : ∀ place, place ≠ 6 → (env.registryOf (fun _ => []) firstEdges).uses place = [] := by
    intro place other
    simp only [registryOf, firstEdges, Function.update_of_ne other, List.map_nil]
  have last : (env.registryOf (fun _ => []) firstEdges).uses 6 = [1] := by
    simp only [registryOf, firstEdges, Function.update_self, List.map_cons, List.map_nil,
      founded.used]
  have nowhere : ∀ package symbol, env.homeOf symbol ≠ some package := by
    intro package symbol found
    have valid := symbolValid_iff.mp (homeOf_eq_some.mp found).1
    rw [founded.symbols] at valid
    omega
  refine ⟨fun _ => [], ⟨⟨?_, ⟨fun _ => List.Pairwise.nil, fun symbol package found =>
    absurd found (nowhere package symbol)⟩, ?_, founded.packages, rfl, rfl, rfl, uses 4 (by decide),
    last⟩, fun _ _ member => absurd member List.not_mem_nil, uses⟩,
    fun _ _ member => absurd member List.not_mem_nil⟩
  · exact ⟨founded.represents.outside, founded.represents.present, founded.represents.indexed,
      founded.represents.used, founded.represents.symbols, founded.represents.packages,
      founded.represents.symbolSpans, founded.represents.packageSpans,
      founded.represents.aliasSpans⟩
  · refine fun package name => .inr ?_
    rintro symbol (⟨_, member, _⟩ | ⟨used, _, ⟨_, member, _⟩⟩)
    · exact absurd member List.not_mem_nil
    · exact absurd member List.not_mem_nil

end Environment

end Native
