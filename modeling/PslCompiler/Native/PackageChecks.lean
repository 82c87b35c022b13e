import PslCompiler.Native.PackageOutcomes

/-! # The operations on packages

Importing, exporting, using, shadowing and removing symbols, with the checks that each of them
makes first.
-/

namespace Native

open Chains Visibility

namespace Environment

variable {env : Environment} {refs edges : Nat → List Nat} {automatic : Nat → List UInt8 → Prop}

/-- The symbols that an addition makes present are entries, also after the symbol has a home. -/
theorem importCommit_added (represents : env.Represents refs edges) {package symbol : Nat}
    (valid : env.packageValid package = true) (isSymbol : env.symbolValid symbol = true)
    (absent : env.presenceForSymbol package symbol = 0)
    (inherited : (env.registryOf refs edges).inherited package (env.symbolName symbol) ⊆ {symbol}) :
    Outcome automatic env (env.importCommit package symbol) := by
  rw [importCommit, if_pos absent]
  by_cases room : env.presentCount < env.presentCapacity
  · obtain ⟨value, added⟩ := env.addPresence_added package symbol false false room
    have positive := symbol_ne_zero isSymbol
    have made := added.represents represents valid isSymbol
    have entered : Entered automatic _ _ _ _ :=
      added.entered represents valid absent (fun _ => inherited) (by intros; contradiction)
    generalize env.addPresence package symbol false false = result at value added made entered
    rw [value, if_neg positive]
    split
    · have rehomed := result.2.setHome_rehomed symbol package
      apply Outcome.of_change represents positive (rehomed.represents made)
      apply Change.entered
      rw [rehomed.registryOf_eq]
      refine ⟨entered.present, entered.uses, entered.names, ?_, entered.absent, entered.visible,
        entered.users⟩
      intro other home found
      obtain ⟨rfl, rfl⟩ | ⟨_, old⟩ := setHome_homeOf found
      · exact .inr ⟨rfl, rfl⟩
      · exact entered.homes other home old
    · rw [← Prod.eta result, value]
      exact .of_change represents positive made (.entered entered)
  · rw [addPresence_full room]
    exact .of_untouched represents 0 (env.fail_untouched _)

/-- A symbol that is present already gets a home if it has none. -/
theorem importCommit_present (represents : env.Represents refs edges) {package reference : Nat}
    (member : reference ∈ refs package)
    (found : env.presenceForSymbol package (env.presences reference).symbol ≠ 0) :
    Outcome automatic env (env.importCommit package (env.presences reference).symbol) := by
  have positive := symbol_ne_zero (represents.symbols package reference member)
  rw [importCommit, if_neg found]
  dsimp only
  rw [if_neg positive]
  split
  · have rehomed := env.setHome_rehomed (env.presences reference).symbol package
    apply Outcome.of_change represents positive (rehomed.represents represents)
    apply Change.settled
    rw [rehomed.registryOf_eq]
    refine ⟨rfl, rfl, fun _ _ _ => rfl, ?_⟩
    intro other home isHome
    obtain ⟨rfl, rfl⟩ | ⟨_, old⟩ := setHome_homeOf isHome
    · exact .inr ⟨env.entryOf reference, List.mem_map.mpr ⟨reference, member, rfl⟩, rfl⟩
    · exact .inl old
  · exact .same represents _

theorem importSymbol_outcome (represents : env.Represents refs edges)
    (tidy : (env.registryOf refs edges).Tidy) (package symbol : Nat) :
    Outcome automatic env (env.importSymbol package symbol) := by
  rw [importSymbol]
  obtain ⟨zero, untouched⟩ | ⟨clean, valid, isSymbol, result⟩ :=
    env.packageSymbolValid_cases package symbol
  · dsimp only
    rw [if_pos zero]
    exact .of_untouched represents 0 untouched
  · have lookup := findSymbol_lookup represents tidy package (env.symbolName symbol)
    have positive := symbol_ne_zero isSymbol
    dsimp only
    rw [result, accessibleSymbol]
    dsimp only
    rw [if_neg Nat.one_ne_zero]
    generalize env.findSymbol package (env.symbolName symbol) = prior at lookup
    cases lookup with
    | failed some _ =>
        rw [if_neg (env.fail_error some)]
        exact .of_untouched represents 0 (env.fail_untouched _)
    | @present reference _ member named found =>
        rw [if_pos clean]
        have nonzero := symbol_ne_zero (represents.symbols package reference member)
        by_cases same : (env.presences reference).symbol = symbol
        · subst same
          simp only [decide_true, Bool.or_true, ↓reduceIte]
          apply importCommit_present represents member
          rw [presenceForSymbol, found]
          exact (represents.present.linked package valid).ne_zero reference member
        · simp only [nonzero, same, decide_false, Bool.or_self, Bool.false_eq_true, ↓reduceIte]
          exact .of_fail represents _
    | missing _ own absent nothing =>
        rw [if_pos clean]
        simp only [decide_true, Bool.true_or, ↓reduceIte]
        apply importCommit_added represents valid isSymbol absent
        rw [nothing]
        exact Set.empty_subset _
    | @inherited other _ nonzero own absent only =>
        rw [if_pos clean]
        by_cases same : other = symbol
        · subst same
          simp only [decide_true, Bool.or_true, ↓reduceIte]
          exact importCommit_added represents valid isSymbol absent (only.subset)
        · simp only [nonzero, same, decide_false, Bool.or_self, Bool.false_eq_true, ↓reduceIte]
          exact .of_fail represents _

/-- A check of one symbol in one package either passes, and then the package admits the symbol, or
leaves the tables. -/
theorem candidateVisible_cases (represents : env.Represents refs edges)
    (tidy : (env.registryOf refs edges).Tidy) {package : Nat} (clean : env.error = .none)
    (valid : env.packageValid package = true) (symbol : Nat) :
    env.candidateVisible package symbol = (true, env) ∧
        (env.registryOf refs edges).Admits package (env.symbolName symbol) symbol ∨
      (env.candidateVisible package symbol).1 = false ∧
        Untouched env (env.candidateVisible package symbol).2 := by
  rw [candidateVisible]
  dsimp only
  by_cases absent : env.presenceForSymbol package symbol = 0
  · have lookup := findSymbol_lookup represents tidy package (env.symbolName symbol)
    rw [if_neg (Nat.not_lt.mpr (Nat.le_of_eq absent)), accessibleSymbol]
    generalize env.findSymbol package (env.symbolName symbol) = prior at lookup
    cases lookup with
    | failed some _ =>
        rw [if_neg (env.fail_error some)]
        exact .inr ⟨rfl, env.fail_untouched _⟩
    | present _ member named found =>
        rw [presenceForSymbol, found] at absent
        exact absurd absent ((represents.present.linked package valid).ne_zero _ member)
    | missing _ own _ nothing =>
        rw [if_pos clean]
        refine .inl ⟨rfl, .inr (.inr ?_)⟩
        rw [Registry.accessible, own, nothing, Set.union_empty]
        exact Set.empty_subset _
    | @inherited other _ nonzero own _ only =>
        rw [if_pos clean]
        by_cases same : other = symbol
        · subst same
          refine .inl ⟨by simp only [decide_true, Bool.or_true], .inr (.inr ?_)⟩
          rw [Registry.accessible, own, only, Set.empty_union]
        · refine .inr ⟨by simp only [nonzero, same, decide_false, Bool.or_self], .refl env⟩
  · obtain ⟨member, isMatch⟩ := findPresent_found represents valid absent
    have named := (presenceMatches_iff.mp isMatch).2
    rw [if_pos (Nat.pos_of_ne_zero absent)]
    rw [presenceForSymbol] at absent ⊢
    generalize env.findPresent package (env.symbolName symbol) false = reference at *
    by_cases same : (env.presences reference).symbol = symbol
    · refine .inl ⟨by simp only [same, decide_true, Bool.or_true], .inr (.inl ?_)⟩
      exact mem_own_registryOf.mpr ⟨reference, member, same, rfl⟩
    · cases shadowing : (env.presences reference).shadowing with
      | true =>
          refine .inl ⟨rfl, .inl ?_⟩
          exact shadowed_registryOf.mpr ⟨reference, member, shadowing, named⟩
      | false => exact .inr ⟨by simp only [same, decide_false, Bool.or_self], .refl env⟩

/-- A check of the external symbols among some presences. -/
theorem validateUseExports_cases (represents : env.Represents refs edges)
    (tidy : (env.registryOf refs edges).Tidy) {package : Nat} (clean : env.error = .none)
    (valid : env.packageValid package = true) : ∀ entries : List Nat,
      env.validateUseExports package entries = (1, env) ∧
          (∀ entry ∈ entries, (env.presences entry).external = true →
            (env.registryOf refs edges).Admits package
              (env.symbolName (env.presences entry).symbol) (env.presences entry).symbol) ∨
        (env.validateUseExports package entries).1 = 0 ∧
          Untouched env (env.validateUseExports package entries).2 := by
  intro entries
  induction entries with
  | nil => exact .inl ⟨rfl, fun _ member => absurd member List.not_mem_nil⟩
  | cons entry rest ih =>
      rw [validateUseExports]
      cases external : (env.presences entry).external with
      | false =>
          refine ih.imp_left fun ⟨result, admits⟩ => ⟨result, ?_⟩
          refine List.forall_mem_cons.mpr ⟨fun isExternal => ?_, admits⟩
          rw [external] at isExternal
          cases isExternal
      | true =>
          obtain ⟨visible, admitted⟩ | ⟨hidden, untouched⟩ :=
            candidateVisible_cases represents tidy clean valid (env.presences entry).symbol
          · simp only [visible, ↓reduceIte]
            exact ih.imp_left fun ⟨result, admits⟩ =>
              ⟨result, List.forall_mem_cons.mpr ⟨fun _ => admitted, admits⟩⟩
          · simp only [hidden, Bool.false_eq_true, ↓reduceIte]
            exact .inr ⟨rfl, untouched.trans (fail_untouched _ _)⟩

theorem hasUse_iff (represents : env.Represents refs edges) {package : Nat}
    (valid : env.packageValid package = true) (used : Nat) :
    env.hasUse package used = true ↔ used ∈ (env.registryOf refs edges).uses package := by
  rw [hasUse, useChain_eq represents valid, List.any_eq_true]
  simp only [decide_eq_true_eq, registryOf, List.mem_map]

/-- A check of one symbol in the packages that use its exporter. -/
theorem validateExportUsers_cases (represents : env.Represents refs edges)
    (tidy : (env.registryOf refs edges).Tidy) {exporter symbol : Nat} (clean : env.error = .none) :
    ∀ packages : List Nat, (∀ package ∈ packages, env.packageValid package = true) →
      env.validateExportUsers exporter symbol packages = (1, env) ∧
          (∀ package ∈ packages, exporter ∈ (env.registryOf refs edges).uses package →
            (env.registryOf refs edges).Admits package (env.symbolName symbol) symbol) ∨
        (env.validateExportUsers exporter symbol packages).1 = 0 ∧
          Untouched env (env.validateExportUsers exporter symbol packages).2 := by
  intro packages
  induction packages with
  | nil => exact fun _ => .inl ⟨rfl, fun _ member => absurd member List.not_mem_nil⟩
  | cons package rest ih =>
      intro valid
      obtain ⟨isPackage, others⟩ := List.forall_mem_cons.mp valid
      rw [validateExportUsers]
      cases uses : env.hasUse package exporter with
      | false =>
          refine (ih others).imp_left fun ⟨result, admits⟩ => ⟨result, ?_⟩
          refine List.forall_mem_cons.mpr ⟨fun isUsed => ?_, admits⟩
          rw [(hasUse_iff represents isPackage exporter).mpr isUsed] at uses
          cases uses
      | true =>
          obtain ⟨visible, admitted⟩ | ⟨hidden, untouched⟩ :=
            candidateVisible_cases represents tidy clean isPackage symbol
          · simp only [visible, ↓reduceIte]
            exact (ih others).imp_left fun ⟨result, admits⟩ =>
              ⟨result, List.forall_mem_cons.mpr ⟨fun _ => admitted, admits⟩⟩
          · simp only [hidden, Bool.false_eq_true, ↓reduceIte]
            exact .inr ⟨rfl, untouched.trans (fail_untouched _ _)⟩

theorem mem_packages_iff {package : Nat} :
    package ∈ List.range' 1 env.packageCount ↔ env.packageValid package = true := by
  rw [packageValid_iff, List.mem_range'_1]
  omega

/-- Packages that use another one are valid. -/
theorem user_valid (represents : env.Represents refs edges) {user used : Nat}
    (uses : used ∈ (env.registryOf refs edges).uses user) : env.packageValid user = true := by
  by_contra invalid
  obtain ⟨edge, member, _⟩ := List.mem_map.mp uses
  rw [(represents.outside user (Bool.eq_false_iff.mpr invalid)).2] at member
  exact absurd member List.not_mem_nil

/-- An export that the users of the package admit. -/
theorem markExternal_outcome (represents : env.Represents refs edges) {package symbol : Nat}
    (valid : env.packageValid package = true) (isSymbol : env.symbolValid symbol = true)
    (inherited : env.findPresent package (env.symbolName symbol) false = 0 →
      (env.registryOf refs edges).inherited package (env.symbolName symbol) ⊆ {symbol})
    (present : env.findPresent package (env.symbolName symbol) false ≠ 0 →
      (env.presences (env.findPresent package (env.symbolName symbol) false)).symbol = symbol)
    (users : ∀ user, package ∈ (env.registryOf refs edges).uses user →
      (env.registryOf refs edges).Admits user (env.symbolName symbol) symbol) :
    Outcome automatic env (env.markExternal package symbol) := by
  rw [markExternal, presenceForSymbol]
  split
  case isTrue absent =>
    by_cases room : env.presentCount < env.presentCapacity
    · obtain ⟨value, added⟩ := env.addPresence_added package symbol true false room
      rw [← Prod.eta (env.addPresence package symbol true false), value]
      apply Outcome.of_change represents (symbol_ne_zero isSymbol)
        (added.represents represents valid isSymbol)
      exact .entered (added.entered represents valid absent (fun _ => inherited absent)
        fun _ => users)
    · rw [addPresence_full room]
      exact .of_fail represents _
  case isFalse found =>
    have member := (findPresent_found represents valid found).1
    have same := present found
    have outcome : Outcome automatic env _ := setFlags_outcome represents member true
      (env.presences (env.findPresent package (env.symbolName symbol) false)).shadowing id
      fun _ => .inr (by rwa [same])
    rwa [same] at outcome

theorem exportSymbol_outcome (represents : env.Represents refs edges)
    (tidy : (env.registryOf refs edges).Tidy) (package symbol : Nat) :
    Outcome automatic env (env.exportSymbol package symbol) := by
  rw [exportSymbol]
  obtain ⟨zero, untouched⟩ | ⟨clean, valid, isSymbol, result⟩ :=
    env.packageSymbolValid_cases package symbol
  · dsimp only
    rw [if_pos zero]
    exact .of_untouched represents 0 untouched
  · have lookup := findSymbol_lookup represents tidy package (env.symbolName symbol)
    have positive := symbol_ne_zero isSymbol
    have checks : _ ∨ (env.validateExportUsers package symbol
        (List.range' 1 env.packageCount)).1 = 0 ∧ _ :=
      validateExportUsers_cases represents tidy clean _ fun _ => mem_packages_iff.mp
    dsimp only
    rw [result, accessibleSymbol]
    dsimp only
    rw [if_neg Nat.one_ne_zero]
    generalize env.findSymbol package (env.symbolName symbol) = prior at lookup
    by_cases same : prior.1 = symbol
    · have unchanged : prior.2 = env := by
        cases lookup with
        | failed some _ => exact absurd same.symm positive
        | present _ _ _ _ => rfl
        | missing _ _ _ _ => rfl
        | inherited _ _ _ _ _ => rfl
      rw [if_pos same, unchanged]
      obtain ⟨passes, admits⟩ | ⟨zero, untouched⟩ := checks
      · rw [passes]
        dsimp only
        rw [if_neg Nat.one_ne_zero]
        apply markExternal_outcome represents valid isSymbol
        · intro absent
          cases lookup with
          | failed some _ => exact absurd same.symm positive
          | present _ member _ found =>
              exact absurd (found.symm.trans absent)
                ((represents.present.linked package valid).ne_zero _ member)
          | missing _ _ _ _ => exact absurd same.symm positive
          | inherited _ _ _ _ only => exact same ▸ only.subset
        · intro found
          cases lookup with
          | failed some _ => exact absurd same.symm positive
          | present _ _ _ isReference => exact isReference ▸ same
          | missing _ _ absent _ => exact absurd absent found
          | inherited _ _ _ absent _ => exact absurd absent found
        · exact fun user uses => admits user (mem_packages_iff.mpr (user_valid represents uses)) uses
      · rw [if_pos zero]
        exact .of_untouched represents 0 untouched
    · rw [if_neg same]
      cases lookup with
      | failed some _ =>
          exact .of_untouched represents 0 ((env.fail_untouched _).trans (fail_untouched _ _))
      | present _ _ _ _ => exact .of_fail represents _
      | missing _ _ _ _ => exact .of_fail represents _
      | inherited _ _ _ _ _ => exact .of_fail represents _

theorem unexportSymbol_outcome (represents : env.Represents refs edges)
    (tidy : (env.registryOf refs edges).Tidy) (package symbol : Nat) :
    Outcome automatic env (env.unexportSymbol package symbol) := by
  rw [unexportSymbol]
  obtain ⟨zero, untouched⟩ | ⟨clean, valid, isSymbol, result⟩ :=
    env.packageSymbolValid_cases package symbol
  · dsimp only
    rw [if_pos zero]
    exact .of_untouched represents 0 untouched
  · have lookup := findSymbol_lookup represents tidy package (env.symbolName symbol)
    have positive := symbol_ne_zero isSymbol
    dsimp only
    rw [result, accessibleSymbol]
    dsimp only
    rw [if_neg Nat.one_ne_zero]
    generalize env.findSymbol package (env.symbolName symbol) = prior at lookup
    cases lookup with
    | failed some _ =>
        rw [if_neg (fun same => positive same.symm)]
        exact .of_untouched represents 0 ((env.fail_untouched _).trans (fail_untouched _ _))
    | missing _ _ _ _ =>
        rw [if_neg (fun same => positive same.symm)]
        exact .of_fail represents _
    | inherited _ _ _ absent _ =>
        rw [presenceForSymbol, absent]
        split
        · exact .same represents _
        · exact .of_fail represents _
    | @present reference _ member _ found =>
        split
        · rename_i same
          have linked := (represents.present.linked package valid).ne_zero _ member
          rw [presenceForSymbol, found, if_neg linked]
          have outcome : Outcome automatic env _ := setFlags_outcome represents member false
            (env.presences reference).shadowing id (by intros; contradiction)
          rwa [show (env.presences reference).symbol = symbol from same] at outcome
        · exact .of_fail represents _

theorem linkUse_outcome (represents : env.Represents refs edges) {package used : Nat}
    (clean : env.error = .none) (valid : env.packageValid package = true)
    (isUsed : env.packageValid used = true) (fresh : env.hasUse package used = false)
    (admits : ∀ entry ∈ (env.registryOf refs edges).present used, entry.external = true →
      (env.registryOf refs edges).Admits package (env.symbolName entry.symbol) entry.symbol) :
    Outcome automatic env (env.linkUse package used) := by
  by_cases room : env.useCount < env.useCapacity
  · obtain ⟨value, added⟩ := linkUse_added valid isUsed clean fresh room
    rw [← Prod.eta (env.linkUse package used), value]
    apply Outcome.of_change represents Nat.one_ne_zero (added.represents represents valid isUsed)
    apply Change.used
    rw [added.registryOf_eq represents]
    exact ⟨rfl, rfl, rfl, rfl, admits⟩
  · have full : ¬recordRoom env.useCount env.useCapacity = true := by
      simpa only [recordRoom, decide_eq_true_eq] using room
    rw [linkUse, if_pos clean, if_pos valid, if_pos isUsed, if_neg (Bool.eq_false_iff.mp fresh),
      if_neg full]
    exact .of_fail represents _

theorem usePackage_outcome (represents : env.Represents refs edges)
    (tidy : (env.registryOf refs edges).Tidy) (package used : Nat) :
    Outcome automatic env (env.usePackage package used) := by
  rw [usePackage]
  split
  case isFalse => exact .same represents 0
  case isTrue clean =>
    split
    case isFalse => exact .of_fail represents _
    case isTrue valid =>
      split
      case isFalse => exact .of_fail represents _
      case isTrue isUsed =>
        split
        · exact .of_fail represents _
        · split
          · exact .same represents 1
          · rename_i fresh
            dsimp only
            rw [represents.present.trace_eq isUsed]
            obtain ⟨passes, admits⟩ | ⟨zero, untouched⟩ :=
              validateUseExports_cases represents tidy clean valid (refs used)
            · rw [passes]
              dsimp only
              rw [if_neg Nat.one_ne_zero]
              apply linkUse_outcome represents clean valid isUsed (Bool.eq_false_iff.mpr fresh)
              intro entry member external
              obtain ⟨reference, inside, rfl⟩ := List.mem_map.mp member
              exact admits reference inside external
            · rw [if_pos zero]
              exact .of_untouched represents 0 untouched

theorem unusePackage_outcome (represents : env.Represents refs edges) (package used : Nat) :
    Outcome automatic env (env.unusePackage package used) := by
  rw [unusePackage]
  split
  case isFalse => exact .same represents 0
  case isTrue clean =>
    split
    case isFalse => exact .of_fail represents _
    case isTrue valid =>
      split
      case isFalse => exact .of_fail represents _
      case isTrue isUsed =>
        obtain ⟨fewer, subset, changed, represents', leads⟩ :=
          unlinkUse_represents represents valid used
        apply Outcome.of_change represents Nat.one_ne_zero represents'
        rw [changed.registryOf_eq refs edges]
        refine @Change.unused _ _ _ _ _ _ _ package
          ⟨rfl, ⟨fewer.map fun edge => (env.uses edge).package, ?_, ?_⟩, rfl, rfl⟩
        · funext place
          simp only [leads, registryOf]
          by_cases here : place = package
          · subst here
            rw [Function.update_self, Function.update_self]
          · rw [Function.update_of_ne here, Function.update_of_ne here]
        · exact List.map_subset _ subset

theorem shadowingImport_outcome (represents : env.Represents refs edges) (package symbol : Nat) :
    Outcome automatic env (env.shadowingImport package symbol) := by
  rw [shadowingImport]
  obtain ⟨zero, untouched⟩ | ⟨clean, valid, isSymbol, result⟩ :=
    env.packageSymbolValid_cases package symbol
  · dsimp only
    rw [if_pos zero]
    exact .of_untouched represents 0 untouched
  · have positive := symbol_ne_zero isSymbol
    dsimp only
    rw [result, presenceForSymbol]
    dsimp only
    rw [if_neg Nat.one_ne_zero]
    split
    case isTrue absent =>
      by_cases room : env.presentCount < env.presentCapacity
      · obtain ⟨value, added⟩ := env.addPresence_added package symbol false true room
        rw [← Prod.eta (env.addPresence package symbol false true), value]
        apply Outcome.of_change represents positive (added.represents represents valid isSymbol)
        exact .entered (added.entered represents valid absent (by intros; contradiction) (by intros; contradiction))
      · rw [addPresence_full room]
        exact .of_fail represents _
    case isFalse found =>
      obtain ⟨member, isMatch⟩ := findPresent_found represents valid found
      have named := (presenceMatches_iff.mp isMatch).2
      generalize env.findPresent package (env.symbolName symbol) false = entry at *
      split
      · exact markShadowing_outcome represents member
      · rename_i different
        have rehomed := env.detachHome_rehomed package (env.presences entry).symbol
        have homes : ∀ other home,
            (env.detachHome package (env.presences entry).symbol).homeOf other = some home →
              env.homeOf other = some home ∧
                ¬(other = (env.presences entry).symbol ∧ home = package) :=
          fun other home => detachHome_homeOf
        generalize env.detachHome package (env.presences entry).symbol = detached at *
        have changed : PresenceSet env
            { detached with
              presences := Function.update detached.presences entry
                { detached.presences entry with symbol, external := false, shadowing := true } }
            entry symbol false true := by
          refine ⟨⟨rehomed.kept.names, rehomed.kept.nameCount, rehomed.kept.symbolSpans,
            rehomed.kept.symbolCount, rehomed.kept.packageSpans, rehomed.kept.packageCount,
            rehomed.kept.aliases, rehomed.kept.aliasCount, rehomed.kept.bucketCount⟩, rehomed.uses,
            rehomed.useCount, rehomed.presentCount, ?_, rehomed.packages, rehomed.buckets⟩
          simp only [rehomed.presences]
        apply Outcome.of_change represents positive
          (changed.represents represents isSymbol named.symm)
        apply Change.replaced
        apply changed.replaced represents member named.symm
        · intro other home isHome
          obtain ⟨old, apart⟩ := homes other home isHome
          exact ⟨old, fun sameSymbol samePackage => absurd ⟨sameSymbol, samePackage⟩ apart⟩
        · exact fun _ => rfl
        · exact .inr rfl
        · intros
          contradiction

/-- Removing a presence whose name is not in conflict without it. -/
theorem unlinkPresence_outcome (represents : env.Represents refs edges)
    (tidy : (env.registryOf refs edges).Tidy) {package entry : Nat}
    (valid : env.packageValid package = true) (member : entry ∈ refs package)
    (visible : ((env.registryOf refs edges).inherited package
      (env.symbolName (env.presences entry).symbol)).Subsingleton) :
    Outcome automatic env (env.unlinkPresence package (env.presences entry).symbol) := by
  obtain ⟨before, later, shape⟩ := List.append_of_mem member
  have present : (env.registryOf refs edges).present package =
      before.map env.entryOf ++ env.entryOf entry :: later.map env.entryOf := by
    simp only [registryOf, shape, List.map_append, List.map_cons]
  have others : ∀ cell ∈ before, (env.presences cell).symbol ≠ (env.presences entry).symbol := by
    intro cell inside same
    have unique := tidy.unique package
    rw [present, List.pairwise_append] at unique
    exact unique.2.2 (env.entryOf cell) (List.mem_map.mpr ⟨cell, inside, rfl⟩)
      (env.entryOf entry) List.mem_cons_self (congrArg env.symbolName same)
  obtain ⟨unlinked, kept, registry⟩ := unlinkNext_represents represents valid shape
  rw [unlinkPresence_eq represents valid shape others]
  generalize (env.unlinkIndex package entry).unlinkNext package (lastOr 0 before) entry =
    after at *
  have rehomed := after.detachHome_rehomed package (env.presences entry).symbol
  apply Outcome.of_change represents Nat.one_ne_zero (rehomed.represents unlinked)
  refine @Change.removed _ _ _ _ _ _ _ package (env.entryOf entry) ?_
  rw [rehomed.registryOf_eq, registry]
  refine ⟨⟨_, _, present, rfl⟩, rfl, rfl, ?_, visible⟩
  intro other home found
  obtain ⟨old, apart⟩ := detachHome_homeOf found
  have homes : after.homeOf = env.homeOf := congrArg Registry.home registry
  exact ⟨(congrFun homes other).symm.trans old, apart⟩

/-- Without an entry the name must not be in conflict; then the entry goes. -/
theorem uninternSymbol_outcome (represents : env.Represents refs edges)
    (tidy : (env.registryOf refs edges).Tidy) (package symbol : Nat) :
    Outcome automatic env (env.uninternSymbol package symbol) := by
  rw [uninternSymbol]
  obtain ⟨zero, untouched⟩ | ⟨clean, valid, isSymbol, result⟩ :=
    env.packageSymbolValid_cases package symbol
  · dsimp only
    rw [if_pos zero]
    exact .of_untouched represents 0 untouched
  · dsimp only
    rw [result, presenceForSymbol]
    dsimp only
    rw [if_neg Nat.one_ne_zero]
    split
    case isTrue absent => exact .same represents 0
    case isFalse found =>
      obtain ⟨member, isMatch⟩ := findPresent_found represents valid found
      generalize env.findPresent package (env.symbolName symbol) false = entry at *
      split
      case isFalse => exact .same represents 0
      case isTrue same =>
        subst same
        have inherited := findUsed_inherited represents tidy valid
          (env.symbolName (env.presences entry).symbol)
        rw [uninternVisible]
        dsimp only
        generalize env.findUsed (env.symbolName (env.presences entry).symbol)
          (env.useChain package) 0 = found at *
        have single : found = env.fail .conflict ∨ found.2 = env ∧
            ((env.registryOf refs edges).inherited package
              (env.symbolName (env.presences entry).symbol)).Subsingleton := by
          obtain ⟨nothing, rfl⟩ | ⟨other, _, only, rfl⟩ | ⟨_, conflict⟩ := inherited
          · exact .inr ⟨rfl, nothing ▸ Set.subsingleton_empty⟩
          · exact .inr ⟨rfl, only ▸ Set.subsingleton_singleton⟩
          · exact .inl conflict
        obtain rfl | ⟨unchanged, visible⟩ := single
        · have failing : (env.fail .conflict).2.error ≠ .none := env.fail_error (by intro same; cases same)
          rw [if_neg (by simpa only [decide_eq_true_eq] using failing)]
          exact .of_untouched represents 0 (env.fail_untouched _)
        · rw [unchanged, clean, if_pos (decide_eq_true rfl)]
          exact unlinkPresence_outcome represents tidy valid member visible

theorem makePackage_outcome (represents : env.Represents refs edges) (name : List UInt8) :
    Outcome automatic env (env.makePackage name) := by
  rw [makePackage]
  split
  case isFalse => exact .same represents 0
  case isTrue clean =>
    split
    case isTrue => exact .of_fail represents _
    case isFalse =>
      split
      case isFalse => exact .of_fail represents _
      case isTrue =>
        dsimp only
        split
        case isFalse => exact .of_fail represents _
        case isTrue =>
          split
          case isFalse => exact .of_fail represents _
          case isTrue =>
            have ext := env.copyName_extends name
            have copied := ext.represents represents
            have added := @addPackage_represents _ refs edges copied env.nameCount name.length
              (Nat.le_refl _)
            apply Outcome.of_change represents (Nat.succ_ne_zero _) added
            exact .settled (ext.settled represents)

theorem addAlias_outcome (represents : env.Represents refs edges) (package : Nat)
    (name : List UInt8) : Outcome automatic env (env.addAlias package name) := by
  rw [addAlias]
  split
  case isFalse => exact .same represents 0
  case isTrue clean =>
    split
    case isFalse => exact .of_fail represents _
    case isTrue valid =>
      dsimp only
      split
      · split
        · exact .same represents _
        · exact .of_fail represents _
      · split
        case isFalse => exact .of_fail represents _
        case isTrue =>
          split
          case isFalse => exact .of_fail represents _
          case isTrue =>
            have ext := env.copyName_extends name
            have copied := ext.represents represents
            have isPackage : (env.copyName name).2.packageValid package = true := valid
            have added := @aliasRecord_represents _ refs edges copied package isPackage
              env.nameCount name.length (Nat.le_refl _)
            have positive := Nat.ne_of_gt (packageValid_pos valid)
            apply Outcome.of_change represents positive added
            exact .settled (ext.settled represents)

end Environment

end Native
