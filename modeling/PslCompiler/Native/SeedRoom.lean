import PslCompiler.Native.SeedStandard

/-! # Room for the catalogue

With enough capacity every step of the setup succeeds, so there is a seeded environment.
-/

namespace Native

open Chains Visibility

namespace Environment

variable {env after : Environment} {refs edges : Nat → List Nat} {used links : Nat}

/-- The tables have used a number of records and links at most, and have room for many more. -/
structure Fits (env : Environment) (used links : Nat) : Prop where
  clean : env.error = .none
  names : env.nameCount ≤ 64 * used
  symbols : env.symbolCount ≤ used
  presences : env.presentCount ≤ used
  uses : env.useCount ≤ links
  capacities : 2 ^ 20 ≤ env.nameCapacity ∧ 2 ^ 20 ≤ env.symbolCapacity ∧
    2 ^ 20 ≤ env.presentCapacity ∧ 16 ≤ env.useCapacity

theorem Fits.mono (fits : Fits env used links) {more : Nat} (bound : used ≤ more) :
    Fits env more links := by
  obtain ⟨clean, names, symbols, presences, uses, capacities⟩ := fits
  exact ⟨clean, by omega, by omega, by omega, uses, capacities⟩

theorem Fits.untouched (fits : Fits env used links) (untouched : Untouched env after)
    (clean : after.error = .none) : Fits after used links := by
  obtain ⟨names, error, rfl, _⟩ := untouched
  exact ⟨clean, fits.names, fits.symbols, fits.presences, fits.uses, fits.capacities⟩

theorem Fits.setFlags (fits : Fits env used links) (entry : Nat) (external shadowing : Bool) :
    Fits (env.setFlags entry external shadowing) used links :=
  ⟨fits.clean, fits.names, fits.symbols, fits.presences, fits.uses, fits.capacities⟩

theorem Fits.symbolRoom (fits : Fits env used links) (bound : used < 2 ^ 13) :
    env.symbolRoom = true := by
  have symbols := fits.symbols
  have presences := fits.presences
  obtain ⟨_, symbolCapacity, presentCapacity, _⟩ := fits.capacities
  rw [Environment.symbolRoom, recordRoom, recordRoom, Bool.and_eq_true, decide_eq_true_eq,
    decide_eq_true_eq]
  omega

theorem Fits.namesRoom (fits : Fits env used links) (bound : used < 2 ^ 13) {length : Nat}
    (short : length ≤ 40) : env.namesRoom length = true := by
  have names := fits.names
  have capacity := fits.capacities.1
  simp only [Environment.namesRoom, Bool.and_eq_true, Bool.not_eq_true', decide_eq_false_iff_not]
  omega

/-- A new symbol of a short name takes one record of each kind. -/
theorem Fits.made (fits : Fits env used links) {package : Nat} {name : List UInt8}
    {external shadowing : Bool}
    (made : Made env after refs edges package name external shadowing) (short : name.length ≤ 40)
    (clean : after.error = .none) (counted : after.nameCount = env.nameCount + name.length) :
    Fits after (used + 1) links := by
  obtain ⟨names, symbols, presents, uses, useCapacity⟩ := made.capacities
  have usedNames := fits.names
  refine ⟨clean, ?_, ?_, ?_, ?_, ?_⟩
  · omega
  · rw [made.symbolCount]
    exact Nat.succ_le_succ fits.symbols
  · rw [made.presentCount]
    exact Nat.succ_le_succ fits.presences
  · rw [uses]
    exact fits.uses
  · rw [names, symbols, presents, useCapacity]
    exact fits.capacities

/-- Where nothing is in conflict and there is room, a name of the catalogue is interned. -/
theorem seedName_fits (represents : env.Represents refs edges)
    (tidy : (env.registryOf refs edges).Tidy) (clear : (env.registryOf refs edges).Clear)
    {package : Nat} (valid : env.packageValid package = true) {words : SeedWords}
    (short : words.length ≤ 40) (fits : Fits env used links) (bound : used < 2 ^ 13) :
    (env.seedName package words).1 ≠ 0 ∧ Fits (env.seedName package words).2 (used + 1) links := by
  have interned := seedName_interned represents tidy package words fits.clean
    (fits.namesRoom bound short)
  generalize env.seedName package words = result at interned
  cases interned with
  | failed _ why =>
      obtain invalid | full | ⟨own, several⟩ := why
      · rw [valid] at invalid
        cases invalid
      · rw [fits.symbolRoom bound] at full
        cases full
      · exact absurd ⟨own, several⟩ (clear_not_several clear package words.name)
  | found positive untouched clean _ =>
      exact ⟨positive, (fits.untouched untouched clean).mono (Nat.le_succ _)⟩
  | made _ _ _ _ made clean counted =>
      exact ⟨Nat.succ_ne_zero _, fits.made made (words.length_name ▸ short) clean counted⟩

/-- Binding a symbol that is present takes no room. -/
theorem bindSymbol_fits (represents : env.Represents refs edges)
    (tidy : (env.registryOf refs edges).Tidy) (fits : Fits env used links)
    {package reference : Nat} (valid : env.packageValid package = true)
    (member : reference ∈ refs package) (external shadowing : Bool) :
    (env.bindSymbol package (env.presences reference).symbol external shadowing).1 ≠ 0 ∧
      Fits (env.bindSymbol package (env.presences reference).symbol external shadowing).2 used
        links := by
  obtain ⟨prior, _, _, result⟩ := bindSymbol_present represents tidy fits.clean valid member
    external shadowing
  rw [result]
  exact ⟨symbol_ne_zero (represents.symbols package reference member), fits.setFlags _ _ _⟩

/-- The tables while names are exported, with the room they have used. -/
def ExportingFits (edges : Nat → List Nat) (used links : Nat) (env : Environment) : Prop :=
  ∃ refs, Listed env refs edges ∧ Plain env refs ∧ Fits env used links

theorem seedExport_fits (exporting : ExportingFits edges used links env) {package : Nat}
    {words : SeedWords} (isWords : words ∈ catalogue package) (short : words.length ≤ 40)
    (bound : used < 2 ^ 13) :
    ExportingFits edges (used + 1) links (env.seedExport package words).2 := by
  obtain ⟨refs, listed, plain, fits⟩ := exporting
  have seeding := listed.seeding
  obtain ⟨_, _, valid⟩ := listed.notSpecial isWords
  obtain ⟨refs', named, stillPlain, _, symbol⟩ := seedName_listed listed isWords
  obtain ⟨some, roomy⟩ := seedName_fits seeding.represents seeding.tidy seeding.clear valid short
    fits bound
  obtain ⟨reference, member, same, _⟩ := symbol some
  obtain ⟨bound, boundPlain, _⟩ := @bindSymbol_listed _ _ _ named _ _ _ isWords member false
    (.inl (stillPlain plain))
  have still := (bindSymbol_fits named.seeding.represents named.seeding.tidy roomy
    (named.notSpecial isWords).2.2 member true false).2
  rw [seedExport]
  dsimp only
  rw [if_neg some, ← same]
  exact ⟨refs', bound, boundPlain (stillPlain plain) rfl, still⟩

/-- Short names are exported as long as there is room. -/
theorem seedNames_fits {package : Nat} : ∀ {entries : List SeedWords} {env : Environment}
    {used : Nat}, ExportingFits edges used links env → entries ⊆ catalogue package →
      (∀ words ∈ entries, words.length ≤ 40) → used + entries.length ≤ 2 ^ 13 →
      (env.seedNames package entries).1 ≠ 0 ∧
        ExportingFits edges (used + entries.length) links (env.seedNames package entries).2 := by
  intro entries
  induction entries with
  | nil =>
      intro env used exporting _ _ _
      refine ⟨?_, exporting⟩
      obtain ⟨_, _, _, fits⟩ := exporting
      simp only [seedNames, List.foldl_nil, fits.clean, ↓reduceIte]
      exact Nat.one_ne_zero
  | cons words rest ih =>
      intro env used exporting isWords short bound
      rw [List.length_cons] at bound ⊢
      have first := seedExport_fits exporting (isWords List.mem_cons_self)
        (short words List.mem_cons_self) (by omega)
      have others := ih first (fun _ member => isWords (List.mem_cons_of_mem _ member))
        (fun _ member => short _ (List.mem_cons_of_mem _ member)) (by omega)
      rw [show used + 1 + rest.length = used + (rest.length + 1) by omega] at others
      exact others

/-- Two steps that succeed, of which the first establishes what the second needs. -/
theorem andThen_succeeds {first last : Environment → Prop} {result : Nat × Environment}
    {next : Environment → Nat × Environment} (begins : result.1 ≠ 0 ∧ first result.2)
    (goes : ∀ env, first env → (next env).1 ≠ 0 ∧ last (next env).2) :
    (andThen result next).1 ≠ 0 ∧ last (andThen result next).2 := by
  rw [andThen, if_neg begins.1]
  exact goes result.2 begins.2

/-- A list of names that is short and has short names. -/
def shortNames (entries : List SeedWords) : Bool :=
  Nat.ble entries.length 1000 && entries.all fun words => Nat.ble words.length 40

theorem seedNames_short {package : Nat} {entries : List SeedWords}
    (exporting : ExportingFits edges used links env) (same : catalogue package = entries)
    (short : shortNames entries = true) (bound : used ≤ 4000) :
    (env.seedNames package entries).1 ≠ 0 ∧
      ExportingFits edges (used + 1000) links (env.seedNames package entries).2 := by
  rw [shortNames, Bool.and_eq_true, List.all_eq_true] at short
  have few := Nat.le_of_ble_eq_true short.1
  have listed : entries ⊆ catalogue package := by
    rw [same]
    exact List.Subset.refl _
  obtain ⟨success, refs, listed, plain, fits⟩ := seedNames_fits exporting listed (fun words member => Nat.le_of_ble_eq_true (short.2 words member))
    (by omega)
  exact ⟨success, refs, listed, plain, fits.mono (by omega)⟩

theorem seedExports_fits (exporting : ExportingFits edges 1 links env) :
    env.seedExports.1 ≠ 0 ∧ ExportingFits edges 3001 links env.seedExports.2 := by
  have first : ∀ env, ExportingFits edges 1 links env → env.seedCommonLisp.1 ≠ 0 ∧
      ExportingFits edges 1001 links env.seedCommonLisp.2 := by
    intro env exporting
    rw [seedCommonLisp]
    exact seedNames_short exporting (by rw [catalogue]) (by decide +kernel) (by decide)
  have second : ∀ env, ExportingFits edges 1001 links env → env.seedPsl.1 ≠ 0 ∧
      ExportingFits edges 2001 links env.seedPsl.2 := by
    intro env exporting
    rw [seedPsl]
    exact seedNames_short exporting (by rw [catalogue]) (by decide +kernel) (by decide)
  have third : ∀ env, ExportingFits edges 2001 links env → env.seedPslFfi.1 ≠ 0 ∧
      ExportingFits edges 3001 links env.seedPslFfi.2 := by
    intro env exporting
    rw [seedPslFfi]
    exact seedNames_short exporting (by rw [catalogue]) (by decide +kernel) (by decide)
  rw [seedExports]
  exact andThen_succeeds (first env exporting) fun env exporting =>
    andThen_succeeds (second env exporting) third

theorem linkUse_fits (fits : Fits env used links) (few : links < 16) {package other : Nat}
    (valid : env.packageValid package = true) (isUsed : env.packageValid other = true) :
    (env.linkUse package other).1 ≠ 0 ∧ Fits (env.linkUse package other).2 used (links + 1) := by
  have room : recordRoom env.useCount env.useCapacity = true := by
    have uses := fits.uses
    have capacity := fits.capacities.2.2.2
    exact decide_eq_true (by omega)
  rw [linkUse, if_pos fits.clean, if_pos valid, if_pos isUsed]
  split
  case isTrue =>
    exact ⟨Nat.one_ne_zero, fits.clean, fits.names, fits.symbols, fits.presences,
      Nat.le_succ_of_le fits.uses, fits.capacities⟩
  case isFalse =>
    exact ⟨Nat.one_ne_zero, fits.clean, fits.names, fits.symbols, fits.presences,
      Nat.succ_le_succ fits.uses, fits.capacities⟩

/-- A name of the second package is made to shadow. -/
theorem seedShadow_fits (listed : Listed env refs edges) (fits : Fits env used links)
    {words : SeedWords} (isWords : words ∈ catalogue 2) (short : words.length ≤ 40)
    (bound : used < 2 ^ 13) :
    ∃ refs', Listed ((env.seedName 2 words).2.bindSymbol 2 (env.seedName 2 words).1 true true).2
        refs' edges ∧
      Fits ((env.seedName 2 words).2.bindSymbol 2 (env.seedName 2 words).1 true true).2 (used + 1)
        links := by
  have seeding := listed.seeding
  obtain ⟨_, _, valid⟩ := listed.notSpecial isWords
  obtain ⟨refs', named, _, _, symbol⟩ := seedName_listed listed isWords
  obtain ⟨some, roomy⟩ := seedName_fits seeding.represents seeding.tidy seeding.clear valid short
    fits bound
  obtain ⟨reference, member, same, _⟩ := symbol some
  have still := (bindSymbol_fits named.seeding.represents named.seeding.tidy roomy
    (named.notSpecial isWords).2.2 member true true).2
  rw [← same]
  exact ⟨refs', (@bindSymbol_listed _ _ _ named _ _ _ isWords member true (.inr rfl)).1, still⟩

/-- A symbol of the second package that is bound in the fifth takes one presence at most. -/
theorem importing_fits (importing : Importing env refs edges) (fits : Fits env used links)
    (bound : used < 2 ^ 13) {reference : Nat} (member : reference ∈ refs 2) :
    Fits (env.bindSymbol 5 (env.presences reference).symbol false true).2 (used + 1) links := by
  have seeding := importing.seeding
  have valid := seeding.valid (show 0 < 5 by decide) (by decide)
  have isSymbol := seeding.represents.symbols 2 reference member
  by_cases absent : env.findPresent 5 (env.symbolName (env.presences reference).symbol) false = 0
  · have presences := fits.presences
    have room : env.presentCount < env.presentCapacity := by
      have capacity := fits.capacities.2.2.1
      omega
    have more := fits.mono (Nat.le_succ used)
    rw [bindSymbol, if_pos fits.clean, if_pos valid, if_pos isSymbol]
    dsimp only
    rw [if_pos absent, addPresence_eq env _ _ _ _ room]
    exact ⟨more.clean, more.names, more.symbols, Nat.succ_le_succ presences, more.uses,
      more.capacities⟩
  · obtain ⟨inside, isMatch⟩ := findPresent_found seeding.represents valid absent
    have named := (presenceMatches_iff.mp isMatch).2
    obtain ⟨_, twin, isTwin, same⟩ := importing.imported _ inside
    have alike := seeding.tidy.own_subsingleton 2
      (env.symbolName (env.presences reference).symbol)
      (mem_own_registryOf.mpr ⟨twin, isTwin, same, named⟩)
      (mem_own_registryOf.mpr ⟨reference, member, rfl, rfl⟩)
    rw [← alike]
    exact (bindSymbol_fits seeding.represents seeding.tidy fits valid inside false true).2.mono
      (Nat.le_succ used)

theorem seedPslImports_fits : ∀ (count : Nat) {env : Environment} {refs : Nat → List Nat}
    {entry used : Nat} {cells : List Nat}, Importing env refs edges → Fits env used links →
      used + count ≤ 2 ^ 13 →
      Linked (fun reference => (env.presences reference).next) entry cells → cells ⊆ refs 2 →
      (seedPslImports count env entry).1 ≠ 0 ∧
        Fits (seedPslImports count env entry).2 (used + count) links := by
  intro count
  induction count with
  | zero => exact fun _ fits _ _ _ => ⟨Nat.one_ne_zero, fits⟩
  | succ count ih =>
      intro env refs entry used cells importing fits bound linked inside
      rw [seedPslImports]
      split
      case isTrue => exact ⟨Nat.one_ne_zero, fits.mono (Nat.le_add_right _ _)⟩
      case isFalse some =>
        cases cells with
        | nil => exact absurd linked some
        | cons cell rest =>
            obtain ⟨rfl, positive, linked⟩ := linked
            obtain ⟨member, others⟩ := List.forall_mem_cons.mp inside
            have seeding := importing.seeding
            have clear := findSymbol_clear seeding.represents seeding.tidy seeding.clear
              (seeding.valid (show 0 < 1 by decide) (by decide))
              (env.symbolName (env.presences entry).symbol)
            rw [show used + (count + 1) = used + 1 + count by omega] at bound ⊢
            dsimp only
            rw [clear]
            split
            · obtain ⟨refs', bound', second, next⟩ := bindSymbol_importing importing member
              refine ih bound' (importing_fits importing fits (by omega) member) bound ?_
                (second ▸ others)
              rw [next entry member]
              exact linked.congr fun cell isCell => next cell (others cell isCell)
            · exact ih importing (fits.mono (Nat.le_succ used)) bound linked others

theorem wordsLoad_short : wordsLoad.length ≤ 40 := by
  decide

theorem wordsExport_short : wordsExport.length ≤ 40 := by
  decide

theorem seedVisibility_fits (exporting : ExportingFits edges 3001 1 env) :
    env.seedVisibility.1 ≠ 0 ∧ Fits env.seedVisibility.2 6006 3 := by
  obtain ⟨refs, listed, plain, fits⟩ := exporting
  obtain ⟨first, loaded, loadedFits⟩ := seedShadow_fits listed fits wordsLoad_listed
    wordsLoad_short (by decide)
  obtain ⟨second, _, roomy⟩ := seedShadow_fits loaded loadedFits wordsExport_listed
    wordsExport_short (by decide)
  obtain ⟨third, shadowed, load, exporter⟩ := shadows_listed ⟨refs, listed, plain⟩ roomy.clean
  rw [seedVisibility]
  generalize (env.seedName 2 wordsLoad).2.bindSymbol 2 (env.seedName 2 wordsLoad).1 true true =
    bound at *
  generalize (bound.2.seedName 2 wordsExport).2.bindSymbol 2
    (bound.2.seedName 2 wordsExport).1 true true = shadowing at *
  have linked := linkUse_fits roomy (by decide)
    (shadowed.seeding.valid (show 0 < 2 by decide) (by decide))
    (shadowed.seeding.valid (show 0 < 1 by decide) (by decide))
  have linking := shadowed.linking load exporter linked.1
  refine @andThen_succeeds (fun env => Linking env ∧ Fits env 3003 2) (fun env => Fits env 6006 3)
    _ _ ⟨linked.1, linking, linked.2⟩ ?_
  rintro env ⟨linking, fits⟩
  obtain ⟨_, _, seeding, _⟩ := id linking
  have linked := linkUse_fits fits (by decide) (seeding.valid (show 0 < 5 by decide) (by decide))
    (seeding.valid (show 0 < 1 by decide) (by decide))
  obtain ⟨refs, edges, importing⟩ := linking.importing linked.1
  refine @andThen_succeeds (fun env => Fits env 3003 3 ∧ ∃ refs edges, Importing env refs edges)
    (fun env => Fits env 6006 3) _ _ ⟨linked.1, linked.2, refs, edges, importing⟩ ?_
  rintro env ⟨fits, refs, edges, importing⟩
  have valid := importing.seeding.valid (show 0 < 2 by decide) (by decide)
  have presences := fits.presences
  have imported := seedPslImports_fits env.presentCount importing fits (by omega)
    (importing.seeding.represents.present.linked 2 valid) (List.Subset.refl _)
  exact ⟨imported.1, imported.2.mono (by omega)⟩

/-- Interning a name of the first package. -/
theorem seedName_first (seeded : Seeded env) (fits : Fits env used links) (bound : used < 2 ^ 13)
    {words : SeedWords} (short : words.length ≤ 40) :
    Fits (env.seedName 1 words).2 (used + 1) links := by
  obtain ⟨refs, edges, seeding⟩ := seeded
  have valid := seeding.valid (show 0 < 1 by decide) (by decide)
  exact (seedName_fits seeding.represents seeding.tidy seeding.clear valid short fits bound).2

theorem Fits.relabel (fits : Fits env used links) (nothing truth : Nat) :
    Fits { env with nilSymbol := nothing, trueSymbol := truth } used links :=
  ⟨fits.clean, fits.names, fits.symbols, fits.presences, fits.uses, fits.capacities⟩

theorem seedTruth_fits (seeded : Seeded env) (fits : Fits env used links)
    (bound : used + 1 < 2 ^ 13) :
    env.seedTruth.1 ≠ 0 ∧ Fits env.seedTruth.2 (used + 2) links := by
  have falsity := (seedName_first seeded fits (Nat.lt_of_succ_lt bound)
    (show wordsNil.length ≤ 40 by decide)).relabel (env.seedName 1 wordsNil).1
      (env.seedName 1 wordsNil).2.trueSymbol
  have nothing := (seedName_seeded seeded wordsNil).relabel (env.seedName 1 wordsNil).1
    (env.seedName 1 wordsNil).2.trueSymbol
  have truth := seedName_first nothing falsity bound (show wordsTrue.length ≤ 40 by decide)
  rw [seedTruth]
  dsimp only
  rw [if_pos truth.clean]
  exact ⟨Nat.one_ne_zero, truth.relabel _ _⟩

/-- With enough room the setup succeeds once the packages are made. -/
theorem seedContents_fits (founded : Founded env) (fits : Fits env 1 1) :
    env.seedContents.1 ≠ 0 ∧ Fits env.seedContents.2 6008 3 := by
  obtain ⟨refs, listed, plain⟩ := founded.exporting
  have roomy : Fits { env with keywordPackage := 4, currentPackage := 5 } 1 1 :=
    ⟨fits.clean, fits.names, fits.symbols, fits.presences, fits.uses, fits.capacities⟩
  rw [seedContents]
  refine @andThen_succeeds (ExportingFits firstEdges 3001 1) (fun env => Fits env 6008 3) _ _
    (seedExports_fits ⟨refs, listed, plain, roomy⟩) ?_
  intro env exporting
  have visible := seedVisibility_fits exporting
  obtain ⟨refs, listed, plain, _⟩ := exporting
  have seeded := seedVisibility_seeded ⟨refs, listed, plain⟩ visible.1
  rw [seedSymbols]
  refine @andThen_succeeds (fun env => Seeded env ∧ Fits env 6006 3) (fun env => Fits env 6008 3)
    _ _ ⟨visible.1, seeded, visible.2⟩ ?_
  exact fun env holds => seedTruth_fits holds.1 holds.2 (by decide)

/-- Empty tables with room for the catalogue. -/
def blank : Environment where
  names _ := 0
  nameCount := 0
  nameCapacity := 2 ^ 20
  packages _ := ⟨0, 0, 0, 0⟩
  packageCount := 0
  packageCapacity := 32
  symbols _ := ⟨0, 0, 0⟩
  symbolCount := 0
  symbolCapacity := 2 ^ 20
  presences _ := ⟨0, 0, false, false, 0⟩
  presentCount := 0
  presentCapacity := 2 ^ 20
  uses _ := ⟨0, 0⟩
  useCount := 0
  useCapacity := 16
  aliases _ := ⟨0, 0, 0⟩
  aliasCount := 0
  aliasCapacity := 8
  currentPackage := 0
  keywordPackage := 0
  nilSymbol := 0
  trueSymbol := 0
  error := .none
  hasBuckets := true
  buckets _ := 0
  bucketCount := 1024
  bucketCapacity := 32 * 1024

theorem blank_founded : blank.seedPackages.1 = 1 ∧ blank.seedPackages.2.error = .none ∧
    blank.seedPackages.2.nameCount = 62 ∧ blank.seedPackages.2.symbolCount = 0 ∧
    blank.seedPackages.2.presentCount = 0 ∧ blank.seedPackages.2.useCount = 1 ∧
    blank.seedPackages.2.nameCapacity = 2 ^ 20 ∧ blank.seedPackages.2.symbolCapacity = 2 ^ 20 ∧
    blank.seedPackages.2.presentCapacity = 2 ^ 20 ∧ blank.seedPackages.2.useCapacity = 16 := by
  decide +kernel

/-- The setup of empty tables succeeds. -/
theorem blank_fits : blank.seedStandard.1 ≠ 0 ∧ Fits blank.seedStandard.2 6008 3 := by
  obtain ⟨success, clean, names, symbols, presences, uses, capacities⟩ := blank_founded
  have made : blank.seedPackages.1 ≠ 0 := by
    rw [success]
    exact Nat.one_ne_zero
  have empty : blank.seedEmpty = true := rfl
  have fits : Fits blank.seedPackages.2 1 1 :=
    ⟨clean, by rw [names]; decide, by rw [symbols]; decide, by rw [presences]; decide,
      by rw [uses], by simp only [capacities]; decide⟩
  have noError : blank.error = .none := rfl
  rw [seedStandard, if_pos noError, if_pos empty]
  refine @andThen_succeeds (fun env => Founded env ∧ Fits env 1 1) (fun env => Fits env 6008 3) _ _
    ⟨made, seedPackages_founded empty made, fits⟩ ?_
  exact fun env holds => seedContents_fits holds.1 holds.2

end Environment

end Native
