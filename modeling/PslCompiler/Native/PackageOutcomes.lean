import PslCompiler.Native.PresenceRemoval
import PslCompiler.Native.TableGrowth

/-! # What the operations come to

Each operation either fails, with the tables as they were, or changes the registry by one change
(`Outcome`). Only a new symbol of the keyword package is exported without a check of the packages
that use it.
-/

namespace Native

open Chains Visibility

namespace Environment

variable {env : Environment} {refs edges : Nat → List Nat}

/-- The error may be another one, and so may the bytes after the names. Everything else stays. -/
def Untouched (before after : Environment) : Prop :=
  ∃ names error, after = { before with names, error } ∧
    ∀ index < before.nameCount, names index = before.names index

theorem Untouched.refl (env : Environment) : Untouched env env :=
  ⟨env.names, env.error, rfl, fun _ _ => rfl⟩

theorem Untouched.trans {middle after : Environment} (one : Untouched env middle)
    (two : Untouched middle after) : Untouched env after := by
  obtain ⟨names, error, rfl, same⟩ := one
  obtain ⟨others, failure, rfl, also⟩ := two
  exact ⟨others, failure, rfl, fun index bound => (also index bound).trans (same index bound)⟩

theorem Untouched.extends {after : Environment} (untouched : Untouched env after) :
    Extends env after := by
  obtain ⟨names, error, rfl, same⟩ := untouched
  exact ⟨names, env.nameCount, error, rfl, Nat.le_refl _, same⟩

theorem fail_untouched (env : Environment) (error : EnvironmentError) :
    Untouched env (env.fail error).2 := by
  rw [fail]
  dsimp only
  split
  · exact ⟨env.names, error, rfl, fun _ _ => rfl⟩
  · exact .refl env

theorem fail_error (env : Environment) {error : EnvironmentError} (some : error ≠ .none) :
    (env.fail error).2.error ≠ .none := by
  rw [fail]
  dsimp only
  split
  · exact some
  · assumption

/-- A failed operation leaves the tables, and any other changes the registry by one change. -/
structure Outcome (automatic : Nat → List UInt8 → Prop) (env : Environment)
    (result : Nat × Environment) : Prop where
  failed : result.1 = 0 → Untouched env result.2
  changed : ∃ refs edges, result.2.Represents refs edges ∧
    Change automatic env.registry (result.2.registryOf refs edges)

variable {automatic : Nat → List UInt8 → Prop}

theorem Outcome.of_untouched (represents : env.Represents refs edges) (value : Nat)
    {after : Environment} (untouched : Untouched env after) :
    Outcome automatic env (value, after) where
  failed _ := untouched
  changed := by
    refine ⟨refs, edges, untouched.extends.represents represents, ?_⟩
    rw [represents.registry_eq]
    exact .settled (untouched.extends.settled represents)

theorem Outcome.same (represents : env.Represents refs edges) (value : Nat) :
    Outcome automatic env (value, env) :=
  .of_untouched represents value (.refl env)

theorem Outcome.of_fail (represents : env.Represents refs edges) (error : EnvironmentError) :
    Outcome automatic env (env.fail error) :=
  .of_untouched represents 0 (env.fail_untouched error)

theorem Outcome.of_change (represents : env.Represents refs edges) {value : Nat}
    {after : Environment} {refs' edges' : Nat → List Nat} (success : value ≠ 0)
    (represents' : after.Represents refs' edges')
    (change : Change automatic (env.registryOf refs edges) (after.registryOf refs' edges')) :
    Outcome automatic env (value, after) where
  failed zero := absurd zero success
  changed := ⟨refs', edges', represents', represents.registry_eq ▸ change⟩

/-- A new symbol of a name is present in a package. -/
structure Made (before after : Environment) (refs edges : Nat → List Nat) (package : Nat)
    (name : List UInt8) (external shadowing : Bool) : Prop where
  represents : after.Represents
    (Function.update refs package ((before.presentCount + 1) :: refs package)) edges
  entry : after.entryOf (before.presentCount + 1) = ⟨before.symbolCount + 1, external, shadowing⟩
  others : ∀ place, ∀ reference ∈ refs place,
    after.entryOf reference = before.entryOf reference
  uses : after.uses = before.uses
  names : ∀ symbol, before.symbolValid symbol = true →
    after.symbolName symbol = before.symbolName symbol
  named : after.symbolName (before.symbolCount + 1) = name
  homes : ∀ symbol home, after.homeOf symbol = some home →
    before.homeOf symbol = some home ∨ symbol = before.symbolCount + 1 ∧ home = package
  symbolCount : after.symbolCount = before.symbolCount + 1
  packageCount : after.packageCount = before.packageCount
  presentCount : after.presentCount = before.presentCount + 1
  keyword : after.keywordPackage = before.keywordPackage
  capacities : after.nameCapacity = before.nameCapacity ∧
    after.symbolCapacity = before.symbolCapacity ∧
    after.presentCapacity = before.presentCapacity ∧ after.useCount = before.useCount ∧
    after.useCapacity = before.useCapacity

theorem symbolFromName_eq_of_room {package offset length : Nat}
    (room : env.presentCount < env.presentCapacity) :
    (env.symbolFromName package offset length).2.error = env.error ∧
      (env.symbolFromName package offset length).2.nameCount = env.nameCount ∧
      (env.symbolFromName package offset length).2.presentCount = env.presentCount + 1 ∧
      (env.symbolFromName package offset length).2.keywordPackage = env.keywordPackage ∧
      (env.symbolFromName package offset length).2.nameCapacity = env.nameCapacity ∧
      (env.symbolFromName package offset length).2.symbolCapacity = env.symbolCapacity ∧
      (env.symbolFromName package offset length).2.presentCapacity = env.presentCapacity ∧
      (env.symbolFromName package offset length).2.useCount = env.useCount ∧
      (env.symbolFromName package offset length).2.useCapacity = env.useCapacity := by
  rw [symbolFromName_eq, addPresence_eq (env.declare package offset length) _ _ _ _ room]
  exact ⟨rfl, rfl, rfl, rfl, rfl, rfl, rfl, rfl, rfl⟩

theorem symbolFromName_made (represents : env.Represents refs edges) {package offset length : Nat}
    (valid : env.packageValid package = true) (room : env.presentCount < env.presentCapacity)
    (bound : offset + length ≤ env.nameCount) :
    (env.symbolFromName package offset length).1 = env.symbolCount + 1 ∧
      Made env (env.symbolFromName package offset length).2 refs edges package
        (env.nameAt offset length) (package = env.keywordPackage) false := by
  obtain ⟨_, _, presentCount, keyword, capacities⟩ :=
    @symbolFromName_eq_of_room env package offset length room
  rw [symbolFromName_eq] at presentCount keyword capacities ⊢
  obtain ⟨result, added⟩ := (env.declare package offset length).addPresence_added package
    (env.symbolCount + 1) (package = env.keywordPackage) false room
  refine ⟨result, ?_⟩
  have declared := declare_represents represents package bound
  have isSymbol := (env.declare_valid package offset length).mpr (.inr rfl)
  constructor
  · exact added.represents declared valid isSymbol
  · rw [entryOf, show env.presentCount + 1 = (env.declare package offset length).presentCount + 1
      from rfl, added.entry]
  · intro place reference member
    have below := represents.present.bounded place reference member
    have apart : reference ≠ (env.declare package offset length).presentCount + 1 :=
      Nat.ne_of_lt (Nat.lt_succ_of_le below)
    rw [entryOf, entryOf, added.others reference apart]
    rfl
  · exact added.uses
  · intro symbol old
    rw [added.kept.symbolName, declare_symbolName env package offset length old]
  · rw [added.kept.symbolName, declare_symbolName_new]
  · intro symbol home found
    apply @declare_homeOf env package offset length
    rw [← found, homeOf, homeOf, added.kept.symbolValid, added.symbols]
  · exact added.kept.symbolCount
  · exact added.kept.packageCount
  · exact presentCount
  · exact keyword
  · exact capacities

/-- Before a symbol is made, the name table may grow. -/
theorem Made.of_extends {middle after : Environment} {package : Nat} {name : List UInt8}
    {external shadowing : Bool} (represents : env.Represents refs edges)
    (ext : Extends env middle)
    (made : Made middle after refs edges package name external shadowing) :
    Made env after refs edges package name external shadowing := by
  have named : ∀ symbol, env.symbolValid symbol = true →
      middle.symbolName symbol = env.symbolName symbol :=
    fun symbol valid => ext.symbolName represents valid
  obtain ⟨names, count, error, rfl, _, _⟩ := ext
  exact ⟨made.represents, made.entry, made.others, made.uses, fun symbol valid =>
    (made.names symbol valid).trans (named symbol valid), made.named, made.homes,
    made.symbolCount, made.packageCount, made.presentCount, made.keyword, made.capacities⟩

namespace Made

variable {after : Environment} {package : Nat} {name : List UInt8} {external shadowing : Bool}

/-- A new symbol is a new entry of the registry. -/
theorem entered (made : Made env after refs edges package name external shadowing)
    (represents : env.Represents refs edges)
    (absent : (env.registryOf refs edges).own package name = ∅)
    (visible : shadowing = false → (env.registryOf refs edges).inherited package name = ∅)
    (auto : external = true → automatic package name) :
    Entered automatic (env.registryOf refs edges)
      (after.registryOf
        (Function.update refs package ((env.presentCount + 1) :: refs package)) edges)
      package ⟨env.symbolCount + 1, external, shadowing⟩ where
  present := by
    have old : ∀ place, (refs place).map after.entryOf = (refs place).map env.entryOf :=
      fun place => List.map_congr_left (made.others place)
    funext place
    simp only [registryOf]
    by_cases here : place = package
    · subst here
      rw [Function.update_self, Function.update_self, List.map_cons, made.entry, old]
    · rw [Function.update_of_ne here, Function.update_of_ne here, old]
  uses := by
    simp only [registryOf, made.uses]
  names place entry member := by
    obtain ⟨reference, inside, rfl⟩ := List.mem_map.mp member
    exact made.names _ (represents.symbols place reference inside)
  homes := made.homes
  absent := by
    rw [show (after.registryOf _ edges).name _ = name from made.named]
    exact absent
  visible plain := by
    rw [show (after.registryOf _ edges).name _ = name from made.named, visible plain]
    exact Set.empty_subset _
  users isExternal := by
    rw [show (after.registryOf _ edges).name _ = name from made.named]
    exact .inl (auto isExternal)

/-- The new symbol is the one that its name finds in the package. -/
theorem findPresent_eq (made : Made env after refs edges package name external shadowing)
    (valid : after.packageValid package = true) :
    after.findPresent package name false = env.presentCount + 1 := by
  have symbol : (after.presences (env.presentCount + 1)).symbol = env.symbolCount + 1 :=
    congrArg Entry.symbol made.entry
  have isMatch : after.presenceMatches name false (env.presentCount + 1) = true :=
    presenceMatches_iff.mpr ⟨by intros; contradiction, by rw [symbol, made.named]⟩
  rw [Environment.findPresent_eq made.represents valid, Function.update_self,
    List.find?_cons_of_pos isMatch, Option.getD_some]

end Made

theorem copyName_extends (env : Environment) (name : List UInt8) :
    Extends env (env.copyName name).2 := by
  refine ⟨_, _, env.error, rfl, Nat.le_add_right _ _, ?_⟩
  intro index below
  rw [writeName, if_neg (by omega)]

theorem writeName_nameAt (env : Environment) (start : Nat) (name : List UInt8) (count : Nat) :
    ({ env with names := writeName env.names start name, nameCount := count } :
      Environment).nameAt start name.length = name := by
  apply List.ext_getElem
  · rw [nameAt, List.length_map, List.length_range]
  · intro index below bound
    simp only [nameAt, List.getElem_map, List.getElem_range]
    rw [writeName, if_pos (by omega), Nat.add_sub_cancel_left,
      List.getD_eq_getElem?_getD, List.getElem?_eq_getElem bound, Option.getD_some]

theorem copyName_nameAt (env : Environment) (name : List UInt8) :
    (env.copyName name).2.nameAt env.nameCount name.length = name :=
  env.writeName_nameAt env.nameCount name _

theorem symbolRoom_present (room : env.symbolRoom = true) :
    env.presentCount < env.presentCapacity := by
  rw [symbolRoom, Bool.and_eq_true] at room
  exact of_decide_eq_true room.2

theorem newSymbol_made (represents : env.Represents refs edges) {package : Nat}
    {name : List UInt8} (valid : env.packageValid package = true) (room : env.symbolRoom = true)
    (fits : env.namesRoom name.length = true) :
    (env.newSymbol package name).1 = env.symbolCount + 1 ∧
      Made env (env.newSymbol package name).2 refs edges package name
        (package = env.keywordPackage) false := by
  have ext := env.copyName_extends name
  have spanned : env.nameCount + name.length ≤ (env.copyName name).2.nameCount := Nat.le_refl _
  obtain ⟨result, made⟩ := symbolFromName_made (ext.represents represents) valid
    (symbolRoom_present room) spanned
  rw [copyName_nameAt] at made
  rw [newSymbol, if_pos room, if_pos fits]
  exact ⟨result, made.of_extends represents ext⟩

theorem newSymbol_full {package : Nat} {name : List UInt8}
    (full : (env.symbolRoom && env.namesRoom name.length) = false) :
    env.newSymbol package name = env.fail .capacity := by
  rw [newSymbol]
  split
  · rename_i room
    rw [room, Bool.true_and] at full
    rw [if_neg (Bool.eq_false_iff.mp full)]
  · rfl

/-- Whether interning a name makes a symbol. -/
def internMakes (env : Environment) (package : Nat) (name : List UInt8) : Bool :=
  env.error = .none && (env.findSymbol package name).1 = 0 &&
    (env.findSymbol package name).2.error = .none && env.symbolRoom && env.namesRoom name.length

theorem own_empty_of_absent (represents : env.Represents refs edges) {package : Nat}
    (valid : env.packageValid package = true) {name : List UInt8}
    (absent : env.findPresent package name false = 0) :
    (env.registryOf refs edges).own package name = ∅ := by
  apply Set.eq_empty_iff_forall_notMem.mpr
  intro symbol own
  obtain ⟨reference, member, same, named⟩ := mem_own_registryOf.mp own
  have isMatch : env.presenceMatches name false reference = true :=
    presenceMatches_iff.mpr ⟨by intros; contradiction, by rw [same, named]⟩
  rw [findPresent_zero represents valid absent reference member] at isMatch
  cases isMatch

/-- What a lookup of a name in a package comes to. -/
inductive Lookup (env : Environment) (refs edges : Nat → List Nat) (package : Nat)
    (name : List UInt8) : Nat × Environment → Prop where
  | failed {error : EnvironmentError} (some : error ≠ .none)
      (why : env.packageValid package = false ∨
        (env.registryOf refs edges).own package name = ∅ ∧
          ¬((env.registryOf refs edges).inherited package name).Subsingleton) :
      Lookup env refs edges package name (env.fail error)
  | present {reference : Nat} (valid : env.packageValid package = true)
      (member : reference ∈ refs package)
      (named : env.symbolName (env.presences reference).symbol = name)
      (found : env.findPresent package name false = reference) :
      Lookup env refs edges package name ((env.presences reference).symbol, env)
  | missing (valid : env.packageValid package = true)
      (own : (env.registryOf refs edges).own package name = ∅)
      (absent : env.findPresent package name false = 0)
      (inherited : (env.registryOf refs edges).inherited package name = ∅) :
      Lookup env refs edges package name (0, env)
  | inherited {symbol : Nat} (valid : env.packageValid package = true) (positive : symbol ≠ 0)
      (own : (env.registryOf refs edges).own package name = ∅)
      (absent : env.findPresent package name false = 0)
      (inherited : (env.registryOf refs edges).inherited package name = {symbol}) :
      Lookup env refs edges package name (symbol, env)

theorem findSymbol_lookup (represents : env.Represents refs edges)
    (tidy : (env.registryOf refs edges).Tidy) (package : Nat) (name : List UInt8) :
    Lookup env refs edges package name (env.findSymbol package name) := by
  cases valid : env.packageValid package with
  | false =>
      rw [findSymbol, if_neg (Bool.eq_false_iff.mp valid)]
      exact .failed (by intro same; cases same) (.inl valid)
  | true =>
      obtain ⟨reference, member, named, found, result⟩ | ⟨own, absent, lookup⟩ :=
        findSymbol_cases represents tidy valid name
      · rw [result]
        exact .present valid member named found
      · obtain ⟨nothing, result⟩ | ⟨symbol, positive, only, result⟩ | ⟨several, result⟩ := lookup
        · rw [result]
          exact .missing valid own absent nothing
        · rw [result]
          exact .inherited valid positive own absent only
        · rw [result]
          exact .failed (by intro same; cases same) (.inr ⟨own, several⟩)

/-- An unambiguous registry has no name with several inherited symbols and none of its own. -/
theorem clear_not_several {registry : Registry Nat Nat (List UInt8)} (clear : registry.Clear)
    (package : Nat) (name : List UInt8) :
    ¬(registry.own package name = ∅ ∧ ¬(registry.inherited package name).Subsingleton) := by
  rintro ⟨own, several⟩
  cases clear package name with
  | inl shadow =>
      obtain ⟨entry, member, _, named⟩ := shadow
      have present : entry.symbol ∈ registry.own package name := ⟨entry, member, rfl, named⟩
      rw [own] at present
      exact present.elim
  | inr single => exact several (single.anti Set.subset_union_right)

/-- A lookup in an unambiguous registry is no conflict. -/
theorem findSymbol_clear (represents : env.Represents refs edges)
    (tidy : (env.registryOf refs edges).Tidy) (clear : (env.registryOf refs edges).Clear)
    {package : Nat} (valid : env.packageValid package = true) (name : List UInt8) :
    (env.findSymbol package name).2 = env := by
  have lookup := findSymbol_lookup represents tidy package name
  generalize env.findSymbol package name = prior at lookup
  cases lookup with
  | failed _ why =>
      obtain invalid | several := why
      · rw [valid] at invalid
        cases invalid
      · exact absurd several (clear_not_several clear package name)
  | present _ _ _ _ => rfl
  | missing _ _ _ _ => rfl
  | inherited _ _ _ _ _ => rfl

theorem intern_outcome (represents : env.Represents refs edges)
    (tidy : (env.registryOf refs edges).Tidy) (package : Nat) (name : List UInt8)
    (auto : package = env.keywordPackage → env.internMakes package name = true →
      automatic package name) : Outcome automatic env (env.intern package name) := by
  have lookup := findSymbol_lookup represents tidy package name
  rw [internMakes] at auto
  rw [intern]
  split
  case isFalse => exact .same represents 0
  case isTrue clean =>
    generalize env.findSymbol package name = prior at lookup auto
    cases lookup with
    | failed some _ =>
        rw [if_neg (env.fail_error some)]
        exact .of_untouched represents 0 (env.fail_untouched _)
    | present valid member named found =>
        have positive := symbol_ne_zero (represents.symbols package _ member)
        rw [if_pos clean, if_pos (Nat.pos_of_ne_zero positive)]
        exact .same represents _
    | inherited valid positive own absent only =>
        rw [if_pos clean, if_pos (Nat.pos_of_ne_zero positive)]
        exact .same represents _
    | missing valid own absent nothing =>
        rw [if_pos clean, if_neg (Nat.lt_irrefl 0)]
        cases full : env.symbolRoom && env.namesRoom name.length with
        | false =>
            rw [newSymbol_full full]
            exact .of_fail represents _
        | true =>
            obtain ⟨room, fits⟩ := Bool.and_eq_true_iff.mp full
            obtain ⟨value, made⟩ := newSymbol_made represents valid room fits
            rw [← Prod.eta (env.newSymbol package name), value]
            apply Outcome.of_change represents (Nat.succ_ne_zero _) made.represents
            apply Change.entered (made.entered represents own (fun _ => nothing) ?_)
            intro external
            apply auto (of_decide_eq_true external)
            rw [clean, room, fits]
            rfl

/-- A presence that is set is an entry in the place of another one. -/
theorem PresenceSet.replaced {after : Environment} {entry symbol package : Nat}
    {external shadowing : Bool} (changed : PresenceSet env after entry symbol external shadowing)
    (represents : env.Represents refs edges) (member : entry ∈ refs package)
    (named : env.symbolName symbol = env.symbolName (env.presences entry).symbol)
    (homes : ∀ other home, after.homeOf other = some home → env.homeOf other = some home ∧
      (other = (env.presences entry).symbol → home = package →
        symbol = (env.presences entry).symbol))
    (shadows : (env.presences entry).shadowing = true → shadowing = true)
    (visible : symbol = (env.presences entry).symbol ∨ shadowing = true)
    (users : external = true →
      symbol = (env.presences entry).symbol ∧ (env.presences entry).external = true ∨
        ∀ user, package ∈ (env.registryOf refs edges).uses user →
          (env.registryOf refs edges).Admits user (env.symbolName symbol) symbol) :
    Replaced (env.registryOf refs edges) (after.registryOf refs edges) package (env.entryOf entry)
      ⟨symbol, external, shadowing⟩ := by
  obtain ⟨front, back, shape⟩ := List.append_of_mem member
  obtain ⟨old, new⟩ := changed.registryOf_present represents shape
  exact ⟨⟨_, _, old, new⟩, by simp only [registryOf, changed.uses], funext changed.kept.symbolName,
    named, homes, shadows, visible, users⟩

/-- Setting flags keeps the symbol and its home. -/
theorem setFlags_outcome (represents : env.Represents refs edges) {entry package : Nat}
    (member : entry ∈ refs package) (external shadowing : Bool)
    (shadows : (env.presences entry).shadowing = true → shadowing = true)
    (users : external = true → (env.presences entry).external = true ∨
      ∀ user, package ∈ (env.registryOf refs edges).uses user →
        (env.registryOf refs edges).Admits user
          (env.symbolName (env.presences entry).symbol) (env.presences entry).symbol) :
    Outcome automatic env
      ((env.presences entry).symbol, env.setFlags entry external shadowing) := by
  have changed := env.setFlags_set entry external shadowing
  have isSymbol := represents.symbols package entry member
  apply Outcome.of_change represents (symbol_ne_zero isSymbol)
    (changed.represents represents isSymbol rfl)
  apply Change.replaced
  apply changed.replaced represents member rfl
  · exact fun other home found => ⟨found, fun _ _ => rfl⟩
  · exact shadows
  · exact .inl rfl
  · exact fun isExternal => (users isExternal).imp_left fun old => ⟨rfl, old⟩

theorem markShadowing_outcome (represents : env.Represents refs edges) {entry package : Nat}
    (member : entry ∈ refs package) : Outcome automatic env (env.markShadowing entry) :=
  setFlags_outcome represents member _ true (fun _ => rfl) fun external => .inl external

theorem Made.shadow {after : Environment} {package : Nat} {name : List UInt8} {external : Bool}
    (made : Made env after refs edges package name external false)
    (represents : env.Represents refs edges) :
    Made env (after.setFlags (env.presentCount + 1) external true) refs edges package name external
      true := by
  have symbol : (after.presences (env.presentCount + 1)).symbol = env.symbolCount + 1 :=
    congrArg Entry.symbol made.entry
  have isSymbol : after.symbolValid (env.symbolCount + 1) = true :=
    symbolValid_iff.mpr ⟨Nat.succ_pos _, Nat.le_of_eq made.symbolCount.symm⟩
  have changed := after.setFlags_set (env.presentCount + 1) external true
  constructor
  · exact changed.represents made.represents (symbol ▸ isSymbol) rfl
  · rw [entryOf, changed.presences, Function.update_self, symbol]
  · intro place reference member
    have old : reference ≠ env.presentCount + 1 :=
      Nat.ne_of_lt (Nat.lt_succ_of_le (represents.present.bounded place reference member))
    rw [← made.others place reference member, entryOf, entryOf, changed.presences,
      Function.update_of_ne old]
  · exact made.uses
  · exact made.names
  · exact made.named
  · exact made.homes
  · exact made.symbolCount
  · exact made.packageCount
  · exact made.presentCount
  · exact made.keyword
  · exact made.capacities

/-- Whether shadowing a name makes a symbol. -/
def shadowMakes (env : Environment) (package : Nat) (name : List UInt8) : Bool :=
  env.error = .none && env.packageValid package && env.findPresent package name false = 0 &&
    env.symbolRoom && env.namesRoom name.length

theorem shadowName_outcome (represents : env.Represents refs edges) (package : Nat)
    (name : List UInt8) (auto : package = env.keywordPackage →
      env.shadowMakes package name = true → automatic package name) :
    Outcome automatic env (env.shadowName package name) := by
  rw [shadowMakes] at auto
  rw [shadowName]
  split
  case isFalse => exact .same represents 0
  case isTrue clean =>
    split
    case isFalse => exact .of_fail represents _
    case isTrue valid =>
      by_cases absent : env.findPresent package name false = 0
      · dsimp only
        rw [if_neg (Nat.not_lt.mpr (Nat.le_of_eq absent))]
        cases full : env.symbolRoom && env.namesRoom name.length with
        | false =>
            rw [newSymbol_full full]
            exact .of_untouched represents 0 (env.fail_untouched _)
        | true =>
            obtain ⟨room, fits⟩ := Bool.and_eq_true_iff.mp full
            obtain ⟨value, made⟩ := newSymbol_made represents valid room fits
            generalize env.newSymbol package name = result at value made
            have isPackage : result.2.packageValid package = true := by
              rw [packageValid, made.packageCount]
              exact valid
            have entry := made.entry
            have flags : (result.2.presences (env.presentCount + 1)).external =
                decide (package = env.keywordPackage) := congrArg Entry.external entry
            have symbol : (result.2.presences (env.presentCount + 1)).symbol =
                env.symbolCount + 1 := congrArg Entry.symbol entry
            rw [value, if_neg (Nat.succ_ne_zero _), presenceForSymbol, made.named,
              made.findPresent_eq isPackage, markShadowing, flags, symbol]
            have shadowed := made.shadow represents
            apply Outcome.of_change represents (Nat.succ_ne_zero _) shadowed.represents
            apply Change.entered (shadowed.entered represents
              (own_empty_of_absent represents valid absent) (by intros; contradiction) ?_)
            intro external
            apply auto (of_decide_eq_true external)
            rw [clean, valid, absent, room, fits]
            rfl
      · dsimp only
        rw [if_pos (Nat.pos_of_ne_zero absent)]
        exact markShadowing_outcome represents (findPresent_found represents valid absent).1

theorem packageSymbolValid_cases (env : Environment) (package symbol : Nat) :
    (env.packageSymbolValid package symbol).1 = 0 ∧
        Untouched env (env.packageSymbolValid package symbol).2 ∨
      env.error = .none ∧ env.packageValid package = true ∧ env.symbolValid symbol = true ∧
        env.packageSymbolValid package symbol = (1, env) := by
  rw [packageSymbolValid]
  split
  case isFalse => exact .inl ⟨rfl, .refl env⟩
  case isTrue clean =>
    split
    case isFalse => exact .inl ⟨rfl, env.fail_untouched _⟩
    case isTrue valid =>
      split
      case isFalse => exact .inl ⟨rfl, env.fail_untouched _⟩
      case isTrue isSymbol => exact .inr ⟨clean, valid, isSymbol, rfl⟩

theorem addPresence_full {package symbol : Nat} {external shadowing : Bool}
    (full : ¬env.presentCount < env.presentCapacity) :
    env.addPresence package symbol external shadowing = env.fail .capacity := by
  rw [addPresence, recordRoom, if_neg (by simpa only [decide_eq_true_eq] using full)]

/-- A symbol that is added to a package is an entry of the registry. -/
theorem PresenceAdded.entered {after : Environment} {package symbol : Nat}
    {external shadowing : Bool}
    (added : PresenceAdded env after package symbol external shadowing)
    (represents : env.Represents refs edges) (valid : env.packageValid package = true)
    (absent : env.findPresent package (env.symbolName symbol) false = 0)
    (visible : shadowing = false →
      (env.registryOf refs edges).inherited package (env.symbolName symbol) ⊆ {symbol})
    (users : external = true → ∀ user, package ∈ (env.registryOf refs edges).uses user →
      (env.registryOf refs edges).Admits user (env.symbolName symbol) symbol) :
    Entered automatic (env.registryOf refs edges)
      (after.registryOf
        (Function.update refs package ((env.presentCount + 1) :: refs package)) edges)
      package ⟨symbol, external, shadowing⟩ := by
  rw [added.registryOf_eq represents]
  exact ⟨rfl, rfl, fun _ _ _ => rfl, fun _ _ found => .inl found,
    own_empty_of_absent represents valid absent, visible, fun isExternal =>
      .inr (users isExternal)⟩

end Environment

end Native
