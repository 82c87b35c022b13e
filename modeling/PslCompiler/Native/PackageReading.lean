import PslCompiler.Native.PackageChecks

/-! # Reading symbols

A lookup depends on the tables and the names in use, not on the bytes after them. So the reader may
put a token after the names while it looks the token up, and a failed operation is not seen by any
lookup.
-/

namespace Native

open Chains Visibility

namespace ReadState

variable {env : Environment} {state : ReadState}

/-- The qualifier of a token is a part of its text. -/
def Qualified (state : ReadState) : Prop :=
  state.qualifier ≤ state.text.length

theorem Qualified.fail (qualified : state.Qualified) (error : EnvironmentError) :
    (state.fail error).Qualified := by
  rw [ReadState.fail]
  split
  · exact qualified
  · exact qualified

theorem Qualified.append (qualified : state.Qualified) (byte : UInt8) :
    (state.append env byte).Qualified := by
  rw [ReadState.append]
  split
  · have longer : state.text.length ≤ (state.text ++ [byte]).length := by
      rw [List.length_append]
      exact Nat.le_add_right _ _
    exact Nat.le_trans qualified longer
  · exact qualified.fail _

theorem Qualified.colon (qualified : state.Qualified) : state.colon.Qualified := by
  rw [ReadState.colon]
  split
  · exact qualified.fail _
  · split
    · exact Nat.le_refl _
    · split
      · exact qualified
      · exact qualified.fail _

theorem Qualified.byte (qualified : state.Qualified) (byte : UInt8) :
    (state.byte env byte).Qualified := by
  rw [ReadState.byte]
  split
  · have unescaped : ({ state with escape := false } : ReadState).Qualified := qualified
    exact unescaped.append byte
  · split
    · exact qualified
    · split
      · exact qualified
      · split
        · exact qualified.append byte
        · split
          · exact qualified.colon
          · split
            · exact qualified.fail _
            · exact qualified.append _

theorem Qualified.scanFrom (data : List UInt8) : ∀ {state : ReadState}, state.Qualified →
    (state.scanFrom env data).Qualified := by
  induction data with
  | nil => exact fun qualified => qualified
  | cons first rest ih =>
      intro state qualified
      rw [ReadState.scanFrom]
      split
      · exact ih (qualified.byte first)
      · exact qualified

theorem Qualified.scan (qualified : state.Qualified) (data : List UInt8) :
    (state.scan env data).Qualified := by
  have scanned : (state.scanFrom env (data.drop state.cursor)).Qualified := qualified.scanFrom _
  rw [ReadState.scan]
  split
  · exact scanned
  · exact scanned.fail _

theorem reset_qualified (uninterned : Bool) (cursor : Nat) : (reset uninterned cursor).Qualified :=
  Nat.le_refl _

end ReadState

namespace Environment

variable {env after : Environment} {refs edges : Nat → List Nat}
  {automatic : Nat → List UInt8 → Prop}

/-- A search depends on what it finds in the list only. -/
theorem find?_congr {one two : Nat → Bool} {cells : List Nat}
    (same : ∀ cell ∈ cells, one cell = two cell) : cells.find? one = cells.find? two := by
  rw [← List.head?_filter, ← List.head?_filter, List.filter_congr same]

theorem Extends.findPackage (ext : Extends env after) (represents : env.Represents refs edges)
    (name : List UInt8) : after.findPackage name = env.findPackage name := by
  have packages : ∀ package ∈ List.range' 1 env.packageCount,
      after.nameMatches (env.packages package).name (env.packages package).length name =
        env.nameMatches (env.packages package).name (env.packages package).length name := by
    intro package member
    rw [nameMatches, nameMatches,
      ext.nameAt (represents.packageSpans package (mem_packages_iff.mp member))]
  have aliases : ∀ reference ∈ List.range' 1 env.aliasCount,
      after.nameMatches (env.aliases reference).name (env.aliases reference).length name =
        env.nameMatches (env.aliases reference).name (env.aliases reference).length name := by
    intro reference member
    obtain ⟨positive, bound⟩ := List.mem_range'_1.mp member
    obtain ⟨span, _⟩ := represents.aliasSpans reference positive (by omega)
    rw [nameMatches, nameMatches, ext.nameAt span]
  obtain ⟨names, count, error, rfl, _, _⟩ := ext
  have fromPackages : findPackageFrom { env with names, nameCount := count, error } name =
      env.findPackageFrom name := by
    rw [findPackageFrom, findPackageFrom, find?_congr packages]
  have fromAliases : findAlias { env with names, nameCount := count, error } name =
      env.findAlias name := by
    rw [findAlias, findAlias, find?_congr aliases]
  rw [Environment.findPackage, Environment.findPackage, fromPackages, fromAliases]

theorem Extends.findPresent (ext : Extends env after) (represents : env.Represents refs edges)
    {package : Nat} (valid : env.packageValid package = true) (name : List UInt8)
    (external : Bool) :
    after.findPresent package name external = env.findPresent package name external := by
  have matching : ∀ reference ∈ refs package, after.presenceMatches name external reference =
      env.presenceMatches name external reference := by
    intro reference member
    have span := represents.symbolSpans _ (represents.symbols package reference member)
    have same := ext.nameAt span
    obtain ⟨names, count, error, rfl, _, _⟩ := ext
    rw [presenceMatches, presenceMatches, nameMatches, nameMatches, same]
  have represents' := ext.represents represents
  have valid' : after.packageValid package = true := by
    obtain ⟨names, count, error, rfl, _, _⟩ := ext
    exact valid
  rw [findPresent_eq represents' valid', findPresent_eq represents valid, find?_congr matching]

/-- The result of a lookup: a symbol, or an error to record. -/
def finish (env : Environment) : Except EnvironmentError Nat → Nat × Environment
  | .ok symbol => (symbol, env)
  | .error error => env.fail error

/-- A lookup through used packages depends on what the edges lead to. -/
theorem findUsed_finish (name : List UInt8) : ∀ (chain : List Nat) (inherited : Nat),
    ∃ found, ∀ other : Environment,
      (∀ edge ∈ chain, other.usedSymbol name edge = env.usedSymbol name edge) →
        other.findUsed name chain inherited = other.finish found := by
  intro chain
  induction chain with
  | nil => exact fun inherited => ⟨.ok inherited, fun _ _ => rfl⟩
  | cons edge rest ih =>
      intro inherited
      by_cases nothing : env.usedSymbol name edge = 0
      · obtain ⟨found, result⟩ := ih inherited
        refine ⟨found, fun other same => ?_⟩
        obtain ⟨here, later⟩ := List.forall_mem_cons.mp same
        rw [findUsed_cons, here, if_pos nothing, result other later]
      · by_cases agrees : (inherited = 0 || inherited = env.usedSymbol name edge) = true
        · obtain ⟨found, result⟩ := ih (env.usedSymbol name edge)
          refine ⟨found, fun other same => ?_⟩
          obtain ⟨here, later⟩ := List.forall_mem_cons.mp same
          rw [findUsed_cons, here, if_neg nothing, if_pos agrees, result other later]
        · refine ⟨.error .conflict, fun other same => ?_⟩
          obtain ⟨here, later⟩ := List.forall_mem_cons.mp same
          rw [findUsed_cons, here, if_neg nothing, if_neg agrees]
          rfl

/-- A lookup comes to the same in a longer name table. -/
theorem findSymbol_finish (represents : env.Represents refs edges) (package : Nat)
    (name : List UInt8) : ∃ found, ∀ other, Extends env other →
      other.findSymbol package name = other.finish found := by
  have tables : ∀ other, Extends env other → other.packageValid package = env.packageValid package ∧
      other.presences = env.presences ∧ other.useChain package = env.useChain package ∧
      other.uses = env.uses := by
    rintro other ⟨names, count, error, rfl, _, _⟩
    exact ⟨rfl, rfl, rfl, rfl⟩
  cases valid : env.packageValid package with
  | false =>
      refine ⟨.error .reference, fun other ext => ?_⟩
      rw [findSymbol, (tables other ext).1, valid]
      rfl
  | true =>
      by_cases absent : env.findPresent package name false = 0
      · obtain ⟨found, result⟩ := @findUsed_finish env name (env.useChain package) 0
        refine ⟨found, fun other ext => ?_⟩
        obtain ⟨isValid, presences, chain, uses⟩ := tables other ext
        rw [findSymbol, isValid, if_pos valid]
        dsimp only
        rw [ext.findPresent represents valid, if_neg (Nat.not_lt.mpr (Nat.le_of_eq absent)), chain]
        apply result
        intro edge member
        rw [useChain_eq represents valid] at member
        rw [usedSymbol, usedSymbol, uses, presences,
          ext.findPresent represents (represents.packages package edge member)]
      · refine ⟨.ok (env.presences (env.findPresent package name false)).symbol,
          fun other ext => ?_⟩
        obtain ⟨isValid, presences, _, _⟩ := tables other ext
        rw [findSymbol, isValid, if_pos valid]
        dsimp only
        rw [ext.findPresent represents valid, if_pos (Nat.pos_of_ne_zero absent), presences]
        rfl

theorem Extends.findSymbol (ext : Extends env after) (represents : env.Represents refs edges)
    (package : Nat) (name : List UInt8) :
    (after.findSymbol package name).1 = (env.findSymbol package name).1 := by
  obtain ⟨found, result⟩ := findSymbol_finish represents package name
  rw [result after ext, result env (.refl env)]
  cases found <;> rfl

theorem Extends.reset (ext : Extends env after) :
    Untouched env { after with nameCount := env.nameCount } := by
  obtain ⟨names, count, error, rfl, _, same⟩ := ext
  exact ⟨names, error, rfl, same⟩

theorem fail_nameCount (env : Environment) (error : EnvironmentError) (count : Nat) :
    ({ (env.fail error).2 with nameCount := count } : Environment) =
      (({ env with nameCount := count } : Environment).fail error).2 := by
  rw [fail, fail]
  dsimp only
  split <;> rfl

/-- What a package has and inherits is the same in a longer name table. -/
theorem Extends.sets (ext : Extends env after) (represents : env.Represents refs edges)
    (package : Nat) (name : List UInt8) :
    (after.registryOf refs edges).own package name = (env.registryOf refs edges).own package name ∧
      (after.registryOf refs edges).inherited package name =
        (env.registryOf refs edges).inherited package name := by
  have settled := ext.settled represents
  have same := fun place => own_congr settled.names (congrFun settled.present place) name
  refine ⟨(same package).1, ?_⟩
  ext symbol
  simp only [Registry.inherited, settled.uses, Set.mem_ofPred_eq, fun place => (same place).2.1]

theorem length_nameAt (env : Environment) (offset length : Nat) :
    (env.nameAt offset length).length = length := by
  rw [nameAt, List.length_map, List.length_range]

/-- What interning a name comes to that has been put after the names in use. -/
inductive Interned (env : Environment) (refs edges : Nat → List Nat) (package : Nat)
    (name : List UInt8) : Nat × Environment → Prop where
  | failed {after : Environment} (untouched : Untouched env after)
      (why : env.packageValid package = false ∨ env.symbolRoom = false ∨
        (env.registryOf refs edges).own package name = ∅ ∧
          ¬((env.registryOf refs edges).inherited package name).Subsingleton) :
      Interned env refs edges package name (0, after)
  | found {symbol : Nat} {after : Environment} (positive : symbol ≠ 0)
      (untouched : Untouched env after) (clean : after.error = .none)
      (accessible : symbol ∈ (env.registryOf refs edges).accessible package name) :
      Interned env refs edges package name (symbol, after)
  | made {after : Environment} (absent : (env.findSymbol package name).1 = 0)
      (room : env.symbolRoom = true)
      (own : (env.registryOf refs edges).own package name = ∅)
      (inherited : (env.registryOf refs edges).inherited package name = ∅)
      (made : Made env after refs edges package name (package = env.keywordPackage) false)
      (clean : after.error = .none) (counted : after.nameCount = env.nameCount + name.length) :
      Interned env refs edges package name (env.symbolCount + 1, after)

theorem internNameSpan_interned (represents : env.Represents refs edges)
    (tidy : (env.registryOf refs edges).Tidy) (ext : Extends env after)
    (clean : after.error = .none) (package length : Nat)
    (counted : after.nameCount = env.nameCount + length) :
    Interned env refs edges package (after.nameAt env.nameCount length)
      (after.internNameSpan package env.nameCount length) := by
  have represents' := ext.represents represents
  have tidy' := (ext.settled represents).tidy tidy
  have lookup := findSymbol_lookup represents' tidy' package (after.nameAt env.nameCount length)
  have sets := ext.sets represents package (after.nameAt env.nameCount length)
  have same := ext.findSymbol represents package (after.nameAt env.nameCount length)
  have tables : after.packageValid package = env.packageValid package ∧
      after.symbolRoom = env.symbolRoom ∧ after.keywordPackage = env.keywordPackage ∧
      after.symbolCount = env.symbolCount := by
    obtain ⟨names, count, error, rfl, _, _⟩ := ext
    exact ⟨rfl, rfl, rfl, rfl⟩
  obtain ⟨valids, rooms, keyword, count⟩ := tables
  rw [internNameSpan, if_pos clean]
  dsimp only
  generalize after.findSymbol package (after.nameAt env.nameCount length) = prior at lookup same
  cases lookup with
  | failed some why =>
      rw [if_neg (show ¬0 < (after.fail _).1 from Nat.lt_irrefl 0),
        if_neg (after.fail_error some), fail_nameCount]
      refine .failed (ext.reset.trans (fail_untouched _ _)) ?_
      rw [← valids, ← sets.1, ← sets.2]
      exact why.imp_right .inr
  | present valid member named found =>
      have positive := symbol_ne_zero (represents'.symbols package _ member)
      rw [if_pos (Nat.pos_of_ne_zero positive)]
      refine .found positive ext.reset clean (.inl ?_)
      rw [← sets.1]
      exact mem_own_registryOf.mpr ⟨_, member, rfl, named⟩
  | inherited valid positive _ _ only =>
      rw [if_pos (Nat.pos_of_ne_zero positive)]
      refine .found positive ext.reset clean (.inr ?_)
      rw [← sets.2, only]
      exact Set.mem_singleton _
  | missing valid own absent nothing =>
      rw [if_neg (Nat.lt_irrefl 0), if_pos clean]
      split
      case isFalse full =>
        refine .failed (ext.reset.trans (fail_untouched _ _)) (.inr (.inl ?_))
        rw [← rooms]
        exact Bool.eq_false_iff.mpr full
      case isTrue room =>
        have bound : env.nameCount + length ≤ after.nameCount := Nat.le_of_eq counted.symm
        obtain ⟨value, made⟩ := symbolFromName_made represents' valid (symbolRoom_present room)
          bound
        obtain ⟨errors, names, _⟩ := @symbolFromName_eq_of_room after package env.nameCount length
          (symbolRoom_present room)
        rw [keyword] at made
        rw [← Prod.eta (after.symbolFromName package env.nameCount length), value, count]
        refine .made same.symm (rooms ▸ room) (sets.1 ▸ own) (sets.2 ▸ nothing)
          (made.of_extends represents ext) (errors.trans clean) ?_
        rw [names, counted, length_nameAt]

theorem internNameSpan_outcome (represents : env.Represents refs edges)
    (tidy : (env.registryOf refs edges).Tidy) (ext : Extends env after)
    (clean : after.error = .none) (package length : Nat)
    (counted : after.nameCount = env.nameCount + length)
    (auto : package = env.keywordPackage → (env.findSymbol package
        (after.nameAt env.nameCount length)).1 = 0 →
      env.symbolRoom = true → automatic package (after.nameAt env.nameCount length)) :
    Outcome automatic env (after.internNameSpan package env.nameCount length) := by
  have interned := internNameSpan_interned represents tidy ext clean package length counted
  generalize after.internNameSpan package env.nameCount length = result at interned
  cases interned with
  | failed untouched _ => exact .of_untouched represents 0 untouched
  | found _ untouched _ _ => exact .of_untouched represents _ untouched
  | made absent room own nothing made _ _ =>
      apply Outcome.of_change represents (Nat.succ_ne_zero _) made.represents
      apply Change.entered (made.entered represents own (fun _ => nothing) ?_)
      exact fun external => auto (of_decide_eq_true external) absent room

/-- The environment with a token after the names in use. -/
def withToken (env : Environment) (text : List UInt8) : Environment :=
  { env with
    names := writeName env.names env.nameCount text
    nameCount := env.nameCount + text.length
    error := .none }

theorem withToken_extends (env : Environment) (text : List UInt8) :
    Extends env (env.withToken text) := by
  refine ⟨_, _, _, rfl, Nat.le_add_right _ _, ?_⟩
  intro index below
  rw [writeName, if_neg (by omega)]

theorem nameAt_split (env : Environment) (offset first second : Nat) :
    env.nameAt offset (first + second) =
      env.nameAt offset first ++ env.nameAt (offset + first) second := by
  simp only [nameAt, List.range_add, List.map_append, List.map_map]
  congr 1
  apply List.map_congr_left
  intro index _
  exact congrArg env.names (by simp only [Nat.add_assoc])

theorem withToken_nameAt (env : Environment) {text : List UInt8} {qualifier : Nat}
    (bound : qualifier ≤ text.length) :
    (env.withToken text).nameAt env.nameCount qualifier = text.take qualifier ∧
      (env.withToken text).nameAt (env.nameCount + qualifier) (text.length - qualifier) =
        text.drop qualifier := by
  have whole : (env.withToken text).nameAt env.nameCount text.length = text :=
    env.writeName_nameAt env.nameCount text 0
  have sum : text.length = qualifier + (text.length - qualifier) := by omega
  rw [sum, nameAt_split] at whole
  have front := (env.withToken text).length_nameAt env.nameCount qualifier
  exact ⟨(List.take_left' front).symm.trans (congrArg (List.take qualifier) whole),
    (List.drop_left' front).symm.trans (congrArg (List.drop qualifier) whole)⟩

/-- The package and the name of a token that is interned. -/
def target (env : Environment) (state : ReadState) : Option (Nat × List UInt8) :=
  let package := env.findPackage (state.text.take state.qualifier)
  if state.uninterned then none
  else if state.separators = 0 then some (env.currentPackage, state.text)
  else if state.separator = 0 then some (env.keywordPackage, state.text)
  else if package = 0 then none
  else if package = env.keywordPackage || state.separators ≠ 1 then
    some (package, state.text.drop state.qualifier)
  else none

theorem readIntern_outcome (represents : env.Represents refs edges)
    (tidy : (env.registryOf refs edges).Tidy) (text : List UInt8) {qualifier : Nat}
    (bound : qualifier ≤ text.length) (package : Nat)
    (auto : package = env.keywordPackage → (env.findSymbol package (text.drop qualifier)).1 = 0 →
      env.symbolRoom = true → automatic package (text.drop qualifier)) :
    Outcome automatic env ((env.withToken text).readIntern package env.nameCount
      (env.nameCount + qualifier) (text.length - qualifier)) := by
  have name := (env.withToken_nameAt bound).2
  have length : (text.drop qualifier).length = text.length - qualifier := List.length_drop
  rw [readIntern, readCompact, name]
  have ext : Extends env
      { env.withToken text with
        names := writeName (env.withToken text).names env.nameCount (text.drop qualifier)
        nameCount := env.nameCount + (text.length - qualifier) } := by
    refine ⟨_, _, _, rfl, Nat.le_add_right _ _, ?_⟩
    intro index below
    rw [writeName, if_neg (by omega), withToken]
    dsimp only
    rw [writeName, if_neg (by omega)]
  have written := (env.withToken text).writeName_nameAt env.nameCount (text.drop qualifier)
    (env.nameCount + (text.length - qualifier))
  rw [length] at written
  apply internNameSpan_outcome represents tidy ext rfl package _ rfl
  rw [written]
  exact auto

/-- What the reader does with a token that it has put after the names. -/
theorem readFinish_outcome (represents : env.Represents refs edges)
    (tidy : (env.registryOf refs edges).Tidy) {state : ReadState}
    (bound : state.qualifier ≤ state.text.length)
    (auto : ∀ name, env.target state = some (env.keywordPackage, name) →
      (env.findSymbol env.keywordPackage name).1 = 0 → env.symbolRoom = true →
      automatic env.keywordPackage name) :
    Outcome automatic env ((env.withToken state.text).readFinish state env.nameCount) := by
  have ext := env.withToken_extends state.text
  have represents' := ext.represents represents
  have counted : (env.withToken state.text).nameCount - env.nameCount = state.text.length :=
    Nat.add_sub_cancel_left _ _
  have whole : (env.withToken state.text).nameAt env.nameCount state.text.length = state.text :=
    env.writeName_nameAt env.nameCount state.text 0
  rw [target] at auto
  rw [readFinish]
  rw [counted]
  by_cases uninterned : state.uninterned = true
  · have clean : (env.withToken state.text).error = .none := rfl
    rw [if_pos uninterned, uninternedSpan, if_pos clean]
    split
    · have bound : env.nameCount + state.text.length ≤ (env.withToken state.text).nameCount :=
        Nat.le_refl _
      apply Outcome.of_change represents (Nat.succ_ne_zero _)
        (declare_represents represents' 0 bound)
      exact .settled ((ext.settled represents).trans (declare_settled represents' _ _))
    · exact .of_untouched represents 0 (ext.reset.trans (fail_untouched _ _))
  · rw [if_neg uninterned] at auto ⊢
    by_cases plain : state.separators = 0
    · rw [if_pos plain] at auto ⊢
      apply internNameSpan_outcome represents tidy ext rfl _ _ rfl
      rw [whole]
      intro isKeyword
      have current : env.currentPackage = env.keywordPackage := isKeyword
      have same : (env.withToken state.text).currentPackage = env.keywordPackage := isKeyword
      rw [same]
      exact auto state.text (by rw [current])
    · rw [if_neg plain] at auto ⊢
      by_cases isKeyword : state.separator = 0
      · rw [if_pos isKeyword] at auto ⊢
        have interned := @readIntern_outcome env refs edges automatic represents tidy state.text 0
          (Nat.zero_le _) env.keywordPackage
        rw [List.drop_zero] at interned
        exact interned fun _ => auto state.text rfl
      · rw [if_neg isKeyword] at auto ⊢
        obtain ⟨qualifier, name⟩ := env.withToken_nameAt bound
        have size : (env.withToken state.text).nameCount - (env.nameCount + state.qualifier) =
            state.text.length - state.qualifier :=
          Nat.add_sub_add_left _ _ _
        rw [readQualified]
        rw [qualifier, ext.findPackage represents, size]
        generalize env.findPackage (state.text.take state.qualifier) = package at *
        by_cases unknown : package = 0
        · rw [if_pos unknown]
          exact .of_untouched represents 0 (ext.reset.trans (fail_untouched _ _))
        · rw [if_neg unknown] at auto ⊢
          have interned : (package = env.keywordPackage ∨ state.separators ≠ 1) →
              Outcome automatic env ((env.withToken state.text).readIntern package env.nameCount
                (env.nameCount + state.qualifier) (state.text.length - state.qualifier)) := by
            intro interns
            apply readIntern_outcome represents tidy state.text bound
            rintro rfl
            apply auto
            rw [if_pos (by simp only [decide_true, Bool.true_or])]
          by_cases keyword : package = env.keywordPackage
          · rw [if_pos (show package = (env.withToken state.text).keywordPackage from keyword)]
            exact interned (.inl keyword)
          · rw [if_neg (show ¬package = (env.withToken state.text).keywordPackage from keyword)]
            split
            · rw [readExternal]
              split
              · exact .of_untouched represents 0 (ext.reset.trans (fail_untouched _ _))
              · exact .of_untouched represents _ ext.reset
            · rename_i separators
              exact interned (.inr separators)

/-- What the reader knows of a token when it has read it to its end. -/
def tokenState (env : Environment) (data : List UInt8) : ReadState :=
  if data.getD 0 0 = 35 then (ReadState.reset true 2).scan env data
  else (ReadState.reset false 0).scan env data

/-- Whether reading a token makes a symbol of a name in a package. -/
def ReadMakes (env : Environment) (data : List UInt8) (package : Nat) (name : List UInt8) : Prop :=
  env.error = .none ∧ (env.tokenState data).error = .none ∧
    env.target (env.tokenState data) = some (package, name) ∧
    (env.findSymbol package name).1 = 0 ∧ env.symbolRoom = true

theorem readSymbolBody_outcome (represents : env.Represents refs edges)
    (tidy : (env.registryOf refs edges).Tidy) (data : List UInt8) (uninterned : Bool) (cursor : Nat)
    (auto : ∀ name, ((ReadState.reset uninterned cursor).scan env data).error = .none →
      env.target ((ReadState.reset uninterned cursor).scan env data) =
        some (env.keywordPackage, name) →
      (env.findSymbol env.keywordPackage name).1 = 0 → env.symbolRoom = true →
      automatic env.keywordPackage name) :
    Outcome automatic env (env.readSymbolBody data uninterned cursor) := by
  have qualified : ((ReadState.reset uninterned cursor).scan env data).Qualified :=
    (ReadState.reset_qualified uninterned cursor).scan data
  rw [readSymbolBody]
  dsimp only
  generalize (ReadState.reset uninterned cursor).scan env data = state at *
  split
  · rename_i clean
    rw [clean]
    exact readFinish_outcome represents tidy qualified fun name => auto name clean
  · apply Outcome.of_untouched represents
    refine ⟨_, _, rfl, ?_⟩
    intro index below
    rw [writeName, if_neg (by omega)]

theorem readSymbol_outcome (represents : env.Represents refs edges)
    (tidy : (env.registryOf refs edges).Tidy) (data : List UInt8)
    (auto : ∀ name, env.ReadMakes data env.keywordPackage name →
      automatic env.keywordPackage name) : Outcome automatic env (env.readSymbol data) := by
  rw [readSymbol]
  split
  case isFalse => exact .same represents 0
  case isTrue clean =>
    split
    case isTrue => exact .of_fail represents _
    case isFalse =>
      split
      case isTrue hash =>
        have token : env.tokenState data = (ReadState.reset true 2).scan env data := by
          rw [tokenState, if_pos hash]
        split
        · split
          · apply readSymbolBody_outcome represents tidy
            rw [← token]
            exact fun name read isTarget absent room =>
              auto name ⟨clean, read, isTarget, absent, room⟩
          · exact .of_fail represents _
        · exact .of_fail represents _
      case isFalse hash =>
        have token : env.tokenState data = (ReadState.reset false 0).scan env data := by
          rw [tokenState, if_neg hash]
        apply readSymbolBody_outcome represents tidy
        rw [← token]
        exact fun name read isTarget absent room =>
          auto name ⟨clean, read, isTarget, absent, room⟩

end Environment

end Native
