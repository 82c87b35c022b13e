import PslCompiler.Native.SeedVisibility

/-! # The seeded environment

The symbols of the second package become visible in the fifth, and the environment that results has
no conflict. Its keyword package is empty, and so is its last one.
-/

namespace Native

open Chains Visibility

namespace Environment

variable {env after : Environment} {refs edges refs' edges' : Nat → List Nat}

/-- Binding a symbol of the second package in the fifth. -/
theorem bindSymbol_importing (importing : Importing env refs edges) {reference : Nat}
    (member : reference ∈ refs 2) :
    ∃ refs', Importing (env.bindSymbol 5 (env.presences reference).symbol false true).2 refs'
        edges ∧ refs' 2 = refs 2 ∧
      ∀ other ∈ refs 2,
        ((env.bindSymbol 5 (env.presences reference).symbol false true).2.presences other).next =
          (env.presences other).next := by
  have seeding := importing.seeding
  have valid := seeding.valid (show 0 < 5 by decide) (by decide)
  have isSymbol := seeding.represents.symbols 2 reference member
  by_cases clean : env.error = .none
  · by_cases absent : env.findPresent 5 (env.symbolName (env.presences reference).symbol) false = 0
    · have result : env.bindSymbol 5 (env.presences reference).symbol false true =
          env.addPresence 5 (env.presences reference).symbol false true := by
        rw [bindSymbol, if_pos clean, if_pos valid, if_pos isSymbol]
        exact if_pos absent
      rw [result]
      by_cases room : env.presentCount < env.presentCapacity
      · obtain ⟨_, added⟩ := env.addPresence_added 5 (env.presences reference).symbol false true
          room
        have entered : Entered (fun _ _ => False) _ _ _ _ :=
          added.entered seeding.represents valid absent (by intros; contradiction) (by intros; contradiction)
        have keyword : (env.addPresence 5 (env.presences reference).symbol false
            true).2.keywordPackage = env.keywordPackage := by
          rw [addPresence_eq env _ _ _ _ room]
        have old : ∀ place, ∀ other ∈ refs place, (env.addPresence 5
            (env.presences reference).symbol false true).2.presences other =
            env.presences other := by
          intro place other inside
          have bound := seeding.represents.present.bounded place other inside
          exact added.others other (Nat.ne_of_lt (Nat.lt_succ_of_le bound))
        have second : Function.update refs 5 ((env.presentCount + 1) :: refs 5) 2 = refs 2 :=
          Function.update_of_ne (by decide) _ _
        refine ⟨_, ⟨seeding.of_change (added.represents seeding.represents valid isSymbol)
          (.entered entered) added.kept.packageCount keyword (Function.update_of_ne (by decide) _ _)
          (Function.update_of_ne (by decide) _ _) (by rw [entered.uses]) (by rw [entered.uses]), ?_⟩,
          second, fun other inside => by rw [old 2 other inside]⟩
        intro other inside
        rw [second]
        obtain ⟨rfl, _⟩ | earlier := mem_push inside
        · rw [added.entry]
          exact ⟨rfl, reference, member, by rw [old 2 reference member]⟩
        · obtain ⟨shadowing, twin, isTwin, same⟩ := importing.imported other earlier
          rw [old 5 other earlier]
          exact ⟨shadowing, twin, isTwin, by rw [old 2 twin isTwin, same]⟩
      · rw [addPresence_full room]
        have untouched := env.fail_untouched .capacity
        refine ⟨refs, importing.untouched untouched, rfl, ?_⟩
        obtain ⟨names, error, same, _⟩ := untouched
        rw [same]
        exact fun _ _ => rfl
    · -- A symbol of the name that is there is a symbol of the second package too.
      obtain ⟨inside, isMatch⟩ := findPresent_found seeding.represents valid absent
      have named := (presenceMatches_iff.mp isMatch).2
      obtain ⟨_, twin, isTwin, same⟩ := importing.imported _ inside
      have alike := seeding.tidy.own_subsingleton 2
        (env.symbolName (env.presences reference).symbol)
        (mem_own_registryOf.mpr ⟨twin, isTwin, same, named⟩)
        (mem_own_registryOf.mpr ⟨reference, member, rfl, rfl⟩)
      obtain ⟨prior, isPrior, _, result⟩ := bindSymbol_present seeding.represents seeding.tidy
        clean valid inside false true
      rw [← alike, result]
      have changed := (env.setFlags_set prior false true).presences
      have symbols : ∀ other, ((env.setFlags prior false true).presences other).symbol =
          (env.presences other).symbol := fun other =>
        field_update PresenceRecord.symbol env.presences prior
          { env.presences prior with external := false, shadowing := true } rfl other
      refine ⟨refs, ⟨seeding.setFlags isPrior (fun _ => rfl) (by intros; contradiction), ?_⟩, rfl, ?_⟩
      · intro other also
        obtain ⟨shadowing, match', isMatch', alike'⟩ := importing.imported other also
        refine ⟨?_, match', isMatch', by rw [symbols, symbols, alike']⟩
        rw [changed]
        by_cases here : other = prior
        · rw [here, Function.update_self]
        · rw [Function.update_of_ne here]
          exact shadowing
      · intro other _
        exact field_update PresenceRecord.next env.presences prior
          { env.presences prior with external := false, shadowing := true } rfl other
  · rw [bindSymbol_failed clean]
    exact ⟨refs, importing, rfl, fun _ _ => rfl⟩

/-- The symbols of a chain of the second package are bound one after the other. -/
theorem seedPslImports_importing : ∀ (count : Nat) {env : Environment} {refs : Nat → List Nat}
    {entry : Nat} {cells : List Nat}, Importing env refs edges →
      Linked (fun reference => (env.presences reference).next) entry cells → cells ⊆ refs 2 →
      ∃ refs', Importing (seedPslImports count env entry).2 refs' edges := by
  intro count
  induction count with
  | zero => exact fun importing _ _ => ⟨_, importing⟩
  | succ count ih =>
      intro env refs entry cells importing linked inside
      rw [seedPslImports]
      split
      case isTrue => exact ⟨_, importing⟩
      case isFalse some =>
        cases cells with
        | nil => exact absurd linked some
        | cons cell rest =>
            obtain ⟨rfl, positive, linked⟩ := linked
            obtain ⟨member, others⟩ := List.forall_mem_cons.mp inside
            have seeding := importing.seeding
            have lookup := findSymbol_lookup seeding.represents seeding.tidy 1
              (env.symbolName (env.presences entry).symbol)
            have untouched : Untouched env (env.findSymbol 1
                (env.symbolName (env.presences entry).symbol)).2 := by
              generalize env.findSymbol 1 (env.symbolName (env.presences entry).symbol) = prior
                at lookup
              cases lookup with
              | failed _ _ => exact env.fail_untouched _
              | present _ _ _ _ => exact .refl env
              | missing _ _ _ _ => exact .refl env
              | inherited _ _ _ _ _ => exact .refl env
            have found := importing.untouched untouched
            dsimp only
            generalize env.findSymbol 1 (env.symbolName (env.presences entry).symbol) = prior
              at untouched found
            have presences : prior.2.presences = env.presences := by
              obtain ⟨names, error, same, _⟩ := untouched
              rw [same]
            split
            · rw [← presences] at linked ⊢
              obtain ⟨refs', bound, second, next⟩ := bindSymbol_importing found member
              refine ih bound ?_ (second ▸ others)
              rw [next entry member]
              exact linked.congr fun cell isCell => next cell (others cell isCell)
            · rw [← presences] at linked
              exact ih found linked others

theorem seedName_failed {package : Nat} {words : SeedWords} (failing : env.error ≠ .none) :
    env.seedName package words = (0, env) := by
  rw [seedName, if_neg failing]

/-- The two names that the second package shadows. -/
theorem shadows_listed (exporting : Exporting edges env)
    (clean : let load := env.seedName 2 wordsLoad
      let loaded := (load.2.bindSymbol 2 load.1 true true).2
      let exporter := loaded.seedName 2 wordsExport
      (exporter.2.bindSymbol 2 exporter.1 true true).2.error = .none) :
    let load := env.seedName 2 wordsLoad
    let loaded := (load.2.bindSymbol 2 load.1 true true).2
    let exporter := loaded.seedName 2 wordsExport
    let shadowed := (exporter.2.bindSymbol 2 exporter.1 true true).2
    ∃ refs, Listed shadowed refs edges ∧
      (shadowed.registryOf refs edges).Shadowed 2 wordsLoad.name ∧
      (shadowed.registryOf refs edges).Shadowed 2 wordsExport.name := by
  obtain ⟨refs, listed, _⟩ := exporting
  dsimp only at clean ⊢
  have before : ((env.seedName 2 wordsLoad).2.bindSymbol 2 (env.seedName 2 wordsLoad).1 true
      true).2.error = .none := by
    by_contra failing
    rw [seedName_failed failing, bindSymbol_failed failing] at clean
    exact failing clean
  obtain ⟨first, loaded, _, load⟩ := seedShadow_listed listed wordsLoad_listed before
  obtain ⟨second, shadowed, keeps, exporter⟩ := seedShadow_listed loaded wordsExport_listed clean
  exact ⟨second, shadowed, keeps 2 _ load, exporter⟩

/-- The tables while the fifth package is empty. -/
def Linking (env : Environment) : Prop :=
  ∃ refs edges, Seeding env refs edges ∧ refs 5 = [] ∧ (env.registryOf refs edges).uses 5 = []

/-- Nothing in the tables is in conflict, and the keyword package and the last one are empty. -/
def Seeded (env : Environment) : Prop :=
  ∃ refs edges, Seeding env refs edges

/-- The second package uses the first one. -/
theorem Listed.linking (listed : Listed env refs edges)
    (load : (env.registryOf refs edges).Shadowed 2 wordsLoad.name)
    (exporter : (env.registryOf refs edges).Shadowed 2 wordsExport.name)
    (linked : (env.linkUse 2 1).1 ≠ 0) : Linking (env.linkUse 2 1).2 := by
  obtain ⟨edges', seeding, _, _, elsewhere⟩ := linkUse_seeding listed.seeding (by decide)
    (by decide) (listed.second_admits load exporter) linked
  have empty : refs 5 = [] := by
    apply List.eq_nil_iff_forall_not_mem.mpr
    intro reference member
    obtain ⟨_, isWords, _⟩ := listed.inside 5 reference member
    exact absurd isWords List.not_mem_nil
  exact ⟨refs, edges', seeding, empty,
    (elsewhere 5 (by decide)).trans (listed.alone 5 (by decide))⟩

/-- The fifth package uses the first one, and can get the symbols of the second. -/
theorem Linking.importing (linking : Linking env) (linked : (env.linkUse 5 1).1 ≠ 0) :
    ∃ refs edges, Importing (env.linkUse 5 1).2 refs edges := by
  obtain ⟨refs, edges, seeding, empty, unused⟩ := linking
  have admits : ∀ entry ∈ (env.registryOf refs edges).present 1, entry.external = true →
      (env.registryOf refs edges).Admits 5 (env.symbolName entry.symbol) entry.symbol := by
    intro entry _ _
    refine admits_of_absent ?_ unused _
    apply Set.eq_empty_iff_forall_notMem.mpr
    intro symbol own
    obtain ⟨reference, member, _⟩ := mem_own_registryOf.mp own
    rw [empty] at member
    exact absurd member List.not_mem_nil
  obtain ⟨edges', also, _⟩ := linkUse_seeding seeding (by decide) (by decide) admits linked
  refine ⟨refs, edges', also, fun reference member => ?_⟩
  rw [empty] at member
  exact absurd member List.not_mem_nil

theorem seedVisibility_seeded (exporting : Exporting edges env)
    (success : env.seedVisibility.1 ≠ 0) : Seeded env.seedVisibility.2 := by
  have shadows := fun clean => shadows_listed exporting clean
  rw [seedVisibility] at success ⊢
  dsimp only at shadows success ⊢
  generalize (env.seedName 2 wordsLoad).2.bindSymbol 2 (env.seedName 2 wordsLoad).1 true true =
    loaded at *
  generalize (loaded.2.seedName 2 wordsExport).2.bindSymbol 2
    (loaded.2.seedName 2 wordsExport).1 true true = shadowed at *
  have linked := (andThen_ne_zero success).1
  obtain ⟨refs, listed, load, exporter⟩ := shadows (linkUse_success linked).1
  refine @andThen_holds Linking Seeded _ _ (listed.linking load exporter linked) ?_ success
  intro env linking success
  obtain ⟨refs, edges, importing⟩ := linking.importing (andThen_ne_zero success).1
  rw [(andThen_ne_zero success).2.2]
  have valid := importing.seeding.valid (show 0 < 2 by decide) (by decide)
  obtain ⟨_, imported⟩ := seedPslImports_importing (env.linkUse 5 1).2.presentCount importing
    (importing.seeding.represents.present.linked 2 valid) (List.Subset.refl _)
  exact ⟨_, _, imported.seeding⟩

/-- Interning a name of the first package, whatever is visible there. -/
theorem seedName_seeded (seeded : Seeded env) (words : SeedWords) :
    Seeded (env.seedName 1 words).2 := by
  obtain ⟨refs, edges, seeding⟩ := seeded
  have cases := seedName_cases seeding.represents seeding.tidy 1 words
  generalize env.seedName 1 words = result at cases
  obtain interned | ⟨_, untouched⟩ := cases
  · cases interned with
    | failed untouched _ => exact ⟨refs, edges, seeding.untouched untouched⟩
    | found _ untouched _ _ => exact ⟨refs, edges, seeding.untouched untouched⟩
    | made _ _ own nothing made _ _ =>
        exact ⟨_, edges, seeding.made (by decide) (by decide) own nothing made⟩
  · exact ⟨refs, edges, seeding.untouched untouched⟩

theorem Seeded.relabel (seeded : Seeded env) (nothing truth : Nat) :
    Seeded { env with nilSymbol := nothing, trueSymbol := truth } := by
  obtain ⟨refs, edges, seeding⟩ := seeded
  have represents := seeding.represents
  exact ⟨refs, edges, ⟨represents.outside, represents.present, represents.indexed, represents.used,
    represents.symbols, represents.packages, represents.symbolSpans, represents.packageSpans,
    represents.aliasSpans⟩, seeding.tidy, seeding.clear, seeding.packages, seeding.keyword,
    seeding.keywords, seeding.users, seeding.keywordUses, seeding.userUses⟩

theorem seedTruth_seeded (seeded : Seeded env) (success : env.seedTruth.1 ≠ 0) :
    Seeded env.seedTruth.2 ∧ env.seedTruth.2.error = .none := by
  have nothing := (seedName_seeded seeded wordsNil).relabel (env.seedName 1 wordsNil).1
    (env.seedName 1 wordsNil).2.trueSymbol
  have truth := seedName_seeded nothing wordsTrue
  rw [seedTruth] at success ⊢
  dsimp only at success ⊢
  refine ⟨truth.relabel _ _, ?_⟩
  by_contra failing
  rw [if_neg failing] at success
  exact success rfl

theorem seedSymbols_seeded (exporting : Exporting edges env) (success : env.seedSymbols.1 ≠ 0) :
    Seeded env.seedSymbols.2 ∧ env.seedSymbols.2.error = .none := by
  rw [seedSymbols] at success ⊢
  have visible := seedVisibility_seeded exporting (andThen_ne_zero success).1
  exact @andThen_holds Seeded (fun env => Seeded env ∧ env.error = .none) _ _ visible
    (fun _ => seedTruth_seeded) success

theorem seedContents_seeded (founded : Founded env) (success : env.seedContents.1 ≠ 0) :
    Seeded env.seedContents.2 ∧ env.seedContents.2.error = .none := by
  rw [seedContents] at success ⊢
  have exported := seedExports_exporting founded.exporting (andThen_ne_zero success).1
  exact @andThen_holds (Exporting firstEdges) (fun env => Seeded env ∧ env.error = .none) _ _
    exported (fun _ => seedSymbols_seeded) success

/-- An environment that is set up with success has no conflict and no error. -/
theorem seedStandard_seeded (success : env.seedStandard.1 ≠ 0) :
    Seeded env.seedStandard.2 ∧ env.seedStandard.2.error = .none := by
  rw [seedStandard] at success ⊢
  split at success
  case isFalse => exact absurd rfl success
  case isTrue clean =>
    rw [if_pos clean]
    split at success
    case isFalse => exact absurd rfl success
    case isTrue empty =>
      rw [if_pos empty]
      have founded := seedPackages_founded empty (andThen_ne_zero success).1
      exact @andThen_holds Founded (fun env => Seeded env ∧ env.error = .none) _ _ founded
        (fun _ => seedContents_seeded) success

end Environment

end Native
