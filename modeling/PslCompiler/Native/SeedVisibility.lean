import PslCompiler.Native.SeedExports

/-! # Seeding what is visible

Two names of the second package are also names of the first, and they shadow those. All others are
apart, so the second package may use the first. The fifth package uses the first too, and has the
other names of the second as shadowing ones.
-/

namespace Native

open Chains Visibility

/-- Two entries of the catalogue differ in length or in a byte. -/
def SeedWords.apart (one two : SeedWords) : Bool :=
  !Nat.beq one.length two.length ||
    (List.range one.length).any fun index =>
      !Nat.beq (seedWordByte one index).toNat (seedWordByte two index).toNat

theorem SeedWords.apart_ne {one two : SeedWords} (apart : one.apart two = true) :
    one.name ≠ two.name := by
  intro same
  rw [SeedWords.apart, Bool.or_eq_true, Bool.not_eq_true', List.any_eq_true] at apart
  have lengths : one.length = two.length := by
    rw [← one.length_name, ← two.length_name, same]
  cases apart with
  | inl different =>
      rw [lengths, Nat.beq_refl] at different
      cases different
  | inr byte =>
      obtain ⟨index, member, different⟩ := byte
      have bytes : seedWordByte one index = seedWordByte two index := by
        have bound := List.mem_range.mp member
        have getter := congrArg (fun name => name[index]?) same
        simp only [SeedWords.name, List.getElem?_map, List.getElem?_range bound,
          List.getElem?_range (lengths ▸ bound), Option.map_some, Option.some.injEq] at getter
        exact getter
      rw [bytes, Nat.beq_refl] at different
      cases different

theorem SeedWords.eq_of_not_apart {one two : SeedWords} (together : one.apart two = false) :
    one.name = two.name := by
  rw [SeedWords.apart, Bool.or_eq_false_iff, Bool.not_eq_false', List.any_eq_false] at together
  obtain ⟨lengths, bytes⟩ := together
  rw [SeedWords.name, SeedWords.name, ← Nat.eq_of_beq_eq_true lengths]
  apply List.map_congr_left
  intro index member
  have same := bytes index member
  rw [Bool.not_eq_true', Bool.not_eq_false] at same
  exact UInt8.toNat_inj.mp (Nat.eq_of_beq_eq_true same)

set_option maxRecDepth 4000 in
theorem catalogue_checked : (seedCommonLisp.all fun one =>
    !one.apart Environment.wordsLoad || !one.apart Environment.wordsExport ||
      seedPsl.all one.apart) = true := by
  decide +kernel

/-- A name that the first two packages have in common is one of two. -/
theorem catalogue_common {one two : SeedWords} (inFirst : one ∈ seedCommonLisp)
    (inSecond : two ∈ seedPsl) (same : one.name = two.name) :
    one.name = Environment.wordsLoad.name ∨ one.name = Environment.wordsExport.name := by
  have checked := List.all_eq_true.mp catalogue_checked one inFirst
  rw [Bool.or_eq_true, Bool.or_eq_true, Bool.not_eq_true', Bool.not_eq_true'] at checked
  obtain (load | exporter) | others := checked
  · exact .inl (SeedWords.eq_of_not_apart load)
  · exact .inr (SeedWords.eq_of_not_apart exporter)
  · exact absurd same (SeedWords.apart_ne (List.all_eq_true.mp others two inSecond))

namespace Environment

variable {env after : Environment} {refs edges refs' edges' : Nat → List Nat}

theorem wordsLoad_listed : wordsLoad ∈ catalogue 2 := by
  rw [catalogue]
  decide

theorem wordsExport_listed : wordsExport ∈ catalogue 2 := by
  rw [catalogue]
  decide

theorem bindSymbol_invalid {package : Nat} {external shadowing : Bool}
    (clean : (env.bindSymbol package 0 external shadowing).2.error = .none) : False := by
  have failing : (env.fail .reference).2.error ≠ .none := env.fail_error (by intro same; cases same)
  have noSymbol : ¬env.symbolValid 0 = true := fun valid => symbol_ne_zero valid rfl
  rw [bindSymbol, if_neg noSymbol, ite_self] at clean
  split at clean
  case isFalse before => exact before clean
  case isTrue => exact failing clean

/-- A name of the second package that is made to shadow. -/
theorem seedShadow_listed (listed : Listed env refs edges) {words : SeedWords}
    (isWords : words ∈ catalogue 2)
    (clean : ((env.seedName 2 words).2.bindSymbol 2 (env.seedName 2 words).1 true
      true).2.error = .none) :
    ∃ refs', Listed ((env.seedName 2 words).2.bindSymbol 2 (env.seedName 2 words).1 true true).2
        refs' edges ∧
      KeepsShadows (env.registryOf refs edges)
        (((env.seedName 2 words).2.bindSymbol 2 (env.seedName 2 words).1 true true).2.registryOf
          refs' edges) ∧
      (((env.seedName 2 words).2.bindSymbol 2 (env.seedName 2 words).1 true true).2.registryOf
        refs' edges).Shadowed 2 words.name := by
  obtain ⟨refs', named, _, shadows, symbol⟩ := seedName_listed listed isWords
  generalize env.seedName 2 words = result at *
  by_cases zero : result.1 = 0
  · rw [zero] at clean
    exact absurd clean fun none => bindSymbol_invalid none
  · obtain ⟨reference, member, same, isName⟩ := symbol zero
    rw [← same] at clean isName ⊢
    obtain ⟨bound, _, keeps, shadow⟩ := @bindSymbol_listed _ _ _ named _ _ _ isWords member true
      (.inr rfl)
    have before : result.2.error = .none := by
      by_contra failing
      rw [bindSymbol_failed failing] at clean
      exact failing clean
    refine ⟨refs', bound, fun place name held => keeps rfl place name (shadows place name held), ?_⟩
    rw [← isName]
    exact shadow before rfl

/-- A package starts to use the first one, where every name of the first is shadowed or new. -/
theorem linkUse_seeding (seeding : Seeding env refs edges) {package : Nat} (notKeyword : package ≠ 4)
    (notLast : package ≠ 6)
    (admits : ∀ entry ∈ (env.registryOf refs edges).present 1, entry.external = true →
      (env.registryOf refs edges).Admits package (env.symbolName entry.symbol) entry.symbol)
    (success : (env.linkUse package 1).1 ≠ 0) :
    ∃ edges', Seeding (env.linkUse package 1).2 refs edges' ∧
      (env.linkUse package 1).2.presences = env.presences ∧
      (env.linkUse package 1).2.symbolName = env.symbolName ∧
      ∀ place, place ≠ package →
        ((env.linkUse package 1).2.registryOf refs edges').uses place =
          (env.registryOf refs edges).uses place := by
  obtain ⟨clean, valid, isUsed, room⟩ := linkUse_success success
  by_cases fresh : env.hasUse package 1 = true
  · have same : env.linkUse package 1 = (1, env) := by
      rw [linkUse, if_pos clean, if_pos valid, if_pos isUsed, if_pos fresh]
    rw [same]
    exact ⟨edges, seeding, rfl, rfl, fun _ _ => rfl⟩
  · obtain ⟨_, added⟩ := linkUse_added valid isUsed clean (Bool.eq_false_iff.mpr fresh)
      (room.resolve_left fresh)
    have represents := added.represents seeding.represents valid isUsed
    have registry := added.registryOf_eq seeding.represents
    have keyword : (env.linkUse package 1).2.keywordPackage = env.keywordPackage := by
      have hasRoom : recordRoom env.useCount env.useCapacity = true :=
        decide_eq_true (room.resolve_left fresh)
      rw [linkUse, if_pos clean, if_pos valid, if_pos isUsed, if_neg fresh, if_pos hasRoom]
    have change : Used (env.registryOf refs edges) ((env.linkUse package 1).2.registryOf refs
        (Function.update edges package ((env.useCount + 1) :: edges package))) package 1 := by
      rw [registry]
      exact ⟨rfl, rfl, rfl, rfl, admits⟩
    have elsewhere : ∀ place, place ≠ package →
        ((env.linkUse package 1).2.registryOf refs
          (Function.update edges package ((env.useCount + 1) :: edges package))).uses place =
          (env.registryOf refs edges).uses place := by
      intro place other
      rw [change.uses, Function.update_of_ne other]
    refine ⟨_, seeding.of_change represents (.used change) added.changed.kept.packageCount keyword
      rfl rfl (elsewhere 4 notKeyword.symm) (elsewhere 6 notLast.symm), added.changed.presences,
      funext added.changed.kept.symbolName, elsewhere⟩

/-- A package with no symbol of a name that uses nothing admits every symbol of the name. -/
theorem admits_of_absent {package : Nat} {name : List UInt8}
    (own : (env.registryOf refs edges).own package name = ∅)
    (uses : (env.registryOf refs edges).uses package = []) (symbol : Nat) :
    (env.registryOf refs edges).Admits package name symbol := by
  refine .inr (.inr ?_)
  rintro other (mine | ⟨used, member, _⟩)
  · rw [own] at mine
    exact mine.elim
  · rw [uses] at member
    exact absurd member List.not_mem_nil

/-- The second package admits the names of the first: those in common are shadowed. -/
theorem Listed.second_admits (listed : Listed env refs edges)
    (load : (env.registryOf refs edges).Shadowed 2 wordsLoad.name)
    (exporter : (env.registryOf refs edges).Shadowed 2 wordsExport.name) :
    ∀ entry ∈ (env.registryOf refs edges).present 1, entry.external = true →
      (env.registryOf refs edges).Admits 2 (env.symbolName entry.symbol) entry.symbol := by
  intro entry member _
  obtain ⟨reference, isFirst, rfl⟩ := List.mem_map.mp member
  obtain ⟨one, inFirst, named⟩ := listed.inside 1 reference isFirst
  rw [catalogue] at inFirst
  by_cases own : (env.registryOf refs edges).own 2
      (env.symbolName (env.presences reference).symbol) = ∅
  · exact admits_of_absent own (listed.alone 2 (by decide)) _
  · obtain ⟨other, isOwn⟩ := Set.nonempty_iff_ne_empty.mpr own
    obtain ⟨second, isSecond, same, alike⟩ := mem_own_registryOf.mp isOwn
    obtain ⟨two, inSecond, also⟩ := listed.inside 2 second isSecond
    rw [catalogue] at inSecond
    rw [same] at also
    have common : one.name = two.name := by
      rw [← named, ← also, alike]
    have shadow : (env.registryOf refs edges).Shadowed 2
        (env.symbolName (env.presences reference).symbol) := by
      rw [named]
      obtain isLoad | isExport := catalogue_common inFirst inSecond common
      · exact isLoad ▸ load
      · exact isExport ▸ exporter
    exact .inl shadow

/-- While symbols of the second package are bound in the fifth: they shadow there. -/
structure Importing (env : Environment) (refs edges : Nat → List Nat) : Prop where
  seeding : Seeding env refs edges
  imported : ∀ reference ∈ refs 5, (env.presences reference).shadowing = true ∧
    ∃ other ∈ refs 2, (env.presences other).symbol = (env.presences reference).symbol

theorem Importing.untouched (importing : Importing env refs edges)
    (untouched : Untouched env after) : Importing after refs edges := by
  have seeding := importing.seeding.untouched untouched
  obtain ⟨names, error, rfl, _⟩ := untouched
  exact ⟨seeding, importing.imported⟩

end Environment

end Native
