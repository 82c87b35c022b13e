import Mathlib.Data.Set.Subsingleton
import Mathlib.Data.List.Nodup
import Mathlib.Data.List.Pairwise
import Mathlib.Logic.Function.Basic

/-! # Visibility of symbols in packages

A package has symbols present in it, some of them external, and sees the external symbols of the
packages it uses. A registry is tidy when a name has at most one present symbol in each package and
a symbol is present in its home, and it is clear when every name that is not shadowed names at most
one accessible symbol. Changes of one presence or one use keep both, under the checks that each of
them asks for.
-/

namespace Visibility

/-- A symbol present in a package. -/
structure Entry (Symbol : Type) where
  symbol : Symbol
  external : Bool
  shadowing : Bool
  deriving DecidableEq

/-- What is present in each package, and which packages it uses. -/
structure Registry (Package Symbol Name : Type) where
  name : Symbol → Name
  home : Symbol → Option Package
  present : Package → List (Entry Symbol)
  uses : Package → List Package

variable {Package Symbol Name : Type}

namespace Registry

/-- The symbols of a name that are present in a package. -/
def own (registry : Registry Package Symbol Name) (package : Package) (name : Name) :
    Set Symbol :=
  { symbol | ∃ entry ∈ registry.present package, entry.symbol = symbol ∧
    registry.name symbol = name }

/-- The external symbols of a name in a package. -/
def exported (registry : Registry Package Symbol Name) (package : Package) (name : Name) :
    Set Symbol :=
  { symbol | ∃ entry ∈ registry.present package, entry.external = true ∧ entry.symbol = symbol ∧
    registry.name symbol = name }

/-- The symbols of a name that a package sees through the packages it uses. -/
def inherited (registry : Registry Package Symbol Name) (package : Package) (name : Name) :
    Set Symbol :=
  { symbol | ∃ used ∈ registry.uses package, symbol ∈ registry.exported used name }

def accessible (registry : Registry Package Symbol Name) (package : Package) (name : Name) :
    Set Symbol :=
  registry.own package name ∪ registry.inherited package name

/-- A shadowing symbol of the name is present in the package. -/
def Shadowed (registry : Registry Package Symbol Name) (package : Package) (name : Name) : Prop :=
  ∃ entry ∈ registry.present package, entry.shadowing = true ∧ registry.name entry.symbol = name

/-- A symbol can become visible in a package: its name is shadowed there, or the symbol is present
there, or its name names nothing else. -/
def Admits (registry : Registry Package Symbol Name) (package : Package) (name : Name)
    (symbol : Symbol) : Prop :=
  registry.Shadowed package name ∨ symbol ∈ registry.own package name ∨
    registry.accessible package name ⊆ {symbol}

/-- Every name names at most one accessible symbol, unless it is shadowed. -/
def Clear (registry : Registry Package Symbol Name) : Prop :=
  ∀ package name, registry.Shadowed package name ∨
    (registry.accessible package name).Subsingleton

/-- A name has at most one present symbol in a package, and a symbol is present in its home. -/
structure Tidy (registry : Registry Package Symbol Name) : Prop where
  unique : ∀ package, (registry.present package).Pairwise fun first second =>
    registry.name first.symbol ≠ registry.name second.symbol
  homes : ∀ symbol package, registry.home symbol = some package →
    ∃ entry ∈ registry.present package, entry.symbol = symbol

/-- The names of the symbols that are present somewhere are the same in another registry. -/
def KeepsNames (registry other : Registry Package Symbol Name) : Prop :=
  ∀ package, ∀ entry ∈ registry.present package,
    other.name entry.symbol = registry.name entry.symbol

theorem mem_own {registry : Registry Package Symbol Name} {package : Package}
    {entry : Entry Symbol} (member : entry ∈ registry.present package) :
    entry.symbol ∈ registry.own package (registry.name entry.symbol) :=
  ⟨entry, member, rfl, rfl⟩

theorem exported_subset_own (registry : Registry Package Symbol Name) (package : Package)
    (name : Name) : registry.exported package name ⊆ registry.own package name := by
  rintro symbol ⟨entry, member, _, same, named⟩
  exact ⟨entry, member, same, named⟩

theorem Clear.admits {registry : Registry Package Symbol Name} (clear : registry.Clear)
    {package : Package} {name : Name} {symbol : Symbol}
    (admits : registry.Admits package name symbol) :
    registry.Shadowed package name ∨ registry.accessible package name ⊆ {symbol} := by
  obtain shadow | own | alone := admits
  · exact .inl shadow
  · refine (clear package name).imp_right fun single => ?_
    exact fun other found => single found (.inl own)
  · exact .inr alone

/-- Nothing becomes accessible and nothing shadowed is lost. -/
theorem Clear.mono {registry other : Registry Package Symbol Name} (clear : registry.Clear)
    (accessible : ∀ package name,
      other.accessible package name ⊆ registry.accessible package name)
    (shadowed : ∀ package name, registry.Shadowed package name →
      other.Shadowed package name) : other.Clear := by
  intro package name
  cases clear package name with
  | inl shadow => exact .inl (shadowed package name shadow)
  | inr single => exact .inr (single.anti (accessible package name))

end Registry

/-- Nothing changes but symbols that are present nowhere, and homes where the symbol is present. -/
structure Settled (before after : Registry Package Symbol Name) : Prop where
  present : after.present = before.present
  uses : after.uses = before.uses
  names : before.KeepsNames after
  homes : ∀ symbol package, after.home symbol = some package →
    before.home symbol = some package ∨ ∃ entry ∈ before.present package, entry.symbol = symbol

theorem Settled.trans {first second third : Registry Package Symbol Name}
    (one : Settled first second) (two : Settled second third) : Settled first third where
  present := two.present.trans one.present
  uses := two.uses.trans one.uses
  names package entry member := by
    have later : entry ∈ second.present package := one.present ▸ member
    exact (two.names package entry later).trans (one.names package entry member)
  homes symbol package found := by
    cases two.homes symbol package found with
    | inl old => exact one.homes symbol package old
    | inr present => exact .inr (one.present ▸ present)

section Changes

variable [DecidableEq Package]

/-- A symbol becomes present in a package. Its name is not present there; it becomes visible
there unless it shadows; and if it is external, the packages that use this one are checked, or the
export is an automatic one. -/
structure Entered (automatic : Package → Name → Prop) (before after : Registry Package Symbol Name)
    (package : Package) (entry : Entry Symbol) : Prop where
  present : after.present =
    Function.update before.present package (entry :: before.present package)
  uses : after.uses = before.uses
  names : before.KeepsNames after
  homes : ∀ symbol home, after.home symbol = some home →
    before.home symbol = some home ∨ symbol = entry.symbol ∧ home = package
  absent : before.own package (after.name entry.symbol) = ∅
  visible : entry.shadowing = false →
    before.inherited package (after.name entry.symbol) ⊆ {entry.symbol}
  users : entry.external = true → automatic package (after.name entry.symbol) ∨
    ∀ user, package ∈ before.uses user →
      before.Admits user (after.name entry.symbol) entry.symbol

/-- A present entry takes the place of another one of the same name. It keeps shadowing, it shadows
if its symbol is another one, and if it becomes external, the packages that use this one are
checked. -/
structure Replaced (before after : Registry Package Symbol Name) (package : Package)
    (old new : Entry Symbol) : Prop where
  present : ∃ front back, before.present package = front ++ old :: back ∧
    after.present = Function.update before.present package (front ++ new :: back)
  uses : after.uses = before.uses
  names : after.name = before.name
  named : before.name new.symbol = before.name old.symbol
  homes : ∀ symbol home, after.home symbol = some home →
    before.home symbol = some home ∧ (symbol = old.symbol → home = package → new.symbol = old.symbol)
  shadows : old.shadowing = true → new.shadowing = true
  visible : new.symbol = old.symbol ∨ new.shadowing = true
  users : new.external = true → new.symbol = old.symbol ∧ old.external = true ∨
    ∀ user, package ∈ before.uses user →
      before.Admits user (before.name new.symbol) new.symbol

/-- A symbol stops being present in a package, where its name has no conflict without it. -/
structure Removed (before after : Registry Package Symbol Name) (package : Package)
    (old : Entry Symbol) : Prop where
  present : ∃ front back, before.present package = front ++ old :: back ∧
    after.present = Function.update before.present package (front ++ back)
  uses : after.uses = before.uses
  names : after.name = before.name
  homes : ∀ symbol home, after.home symbol = some home →
    before.home symbol = some home ∧ ¬(symbol = old.symbol ∧ home = package)
  visible : (before.inherited package (before.name old.symbol)).Subsingleton

/-- A package starts to use another one, whose external symbols are checked. -/
structure Used (before after : Registry Package Symbol Name) (package used : Package) : Prop where
  present : after.present = before.present
  uses : after.uses = Function.update before.uses package (used :: before.uses package)
  names : after.name = before.name
  homes : after.home = before.home
  visible : ∀ entry ∈ before.present used, entry.external = true →
    before.Admits package (before.name entry.symbol) entry.symbol

/-- A package uses fewer packages. -/
structure Unused (before after : Registry Package Symbol Name) (package : Package) : Prop where
  present : after.present = before.present
  uses : ∃ fewer, after.uses = Function.update before.uses package fewer ∧
    fewer ⊆ before.uses package
  names : after.name = before.name
  homes : after.home = before.home

/-- One change of a registry, where some exports may be automatic ones. -/
inductive Change (automatic : Package → Name → Prop) (before after : Registry Package Symbol Name) :
    Prop where
  | settled (change : Settled before after)
  | entered {package : Package} {entry : Entry Symbol}
      (change : Entered automatic before after package entry)
  | replaced {package : Package} {old new : Entry Symbol}
      (change : Replaced before after package old new)
  | removed {package : Package} {old : Entry Symbol}
      (change : Removed before after package old)
  | used {package used : Package} (change : Used before after package used)
  | unused {package : Package} (change : Unused before after package)

end Changes

section Preservation

variable {before after : Registry Package Symbol Name}

theorem Settled.tidy (change : Settled before after) (tidy : before.Tidy) : after.Tidy where
  unique other := by
    rw [change.present]
    apply (tidy.unique other).imp_of_mem
    intro first second inFirst inSecond different
    rw [change.names other first inFirst, change.names other second inSecond]
    exact different
  homes symbol home found := by
    rw [change.present]
    cases change.homes symbol home found with
    | inl kept => exact tidy.homes symbol home kept
    | inr present => exact present

/-- Where the presences of a package stay, so does what is in it. -/
theorem own_congr (names : before.KeepsNames after) {package : Package}
    (present : after.present package = before.present package) (name : Name) :
    after.own package name = before.own package name ∧
      after.exported package name = before.exported package name ∧
      (after.Shadowed package name ↔ before.Shadowed package name) := by
  have same : ∀ entry ∈ before.present package,
      (after.name entry.symbol = name ↔ before.name entry.symbol = name) := by
    intro entry member
    rw [names package entry member]
  refine ⟨?_, ?_, ?_⟩
  · ext symbol
    constructor
    · rintro ⟨entry, member, rfl, named⟩
      rw [present] at member
      exact ⟨entry, member, rfl, (same entry member).mp named⟩
    · rintro ⟨entry, member, rfl, named⟩
      exact ⟨entry, present ▸ member, rfl, (same entry member).mpr named⟩
  · ext symbol
    constructor
    · rintro ⟨entry, member, external, rfl, named⟩
      rw [present] at member
      exact ⟨entry, member, external, rfl, (same entry member).mp named⟩
    · rintro ⟨entry, member, external, rfl, named⟩
      exact ⟨entry, present ▸ member, external, rfl, (same entry member).mpr named⟩
  · constructor
    · rintro ⟨entry, member, shadowing, named⟩
      rw [present] at member
      exact ⟨entry, member, shadowing, (same entry member).mp named⟩
    · rintro ⟨entry, member, shadowing, named⟩
      exact ⟨entry, present ▸ member, shadowing, (same entry member).mpr named⟩

theorem Settled.keeps (change : Settled before after) {name : Name} {symbol : Symbol}
    (visible : symbol ∈ before.accessible package name) :
    symbol ∈ after.accessible package name := by
  have same := fun place => own_congr change.names (congrFun change.present place)
  obtain own | ⟨used, uses, exported⟩ := visible
  · exact .inl ((same package name).1 ▸ own)
  · exact .inr ⟨used, change.uses ▸ uses, (same used name).2.1 ▸ exported⟩

theorem Settled.clear (change : Settled before after) (clear : before.Clear) : after.Clear := by
  have same := fun package => own_congr change.names (congrFun change.present package)
  apply clear.mono
  · rintro package name symbol (own | ⟨used, member, found⟩)
    · exact .inl ((same package name).1 ▸ own)
    · rw [change.uses] at member
      exact .inr ⟨used, member, (same used name).2.1 ▸ found⟩
  · intro package name shadow
    exact (same package name).2.2.mpr shadow

/-- At most one symbol of a name is present in a package. -/
theorem Registry.Tidy.own_subsingleton (tidy : before.Tidy) (package : Package) (name : Name) :
    (before.own package name).Subsingleton := by
  rintro first ⟨one, inOne, rfl, named⟩ second ⟨two, inTwo, rfl, alike⟩
  by_contra different
  have entries : one ≠ two := fun same => different (same ▸ rfl)
  have symmetric : Std.Symm fun first second : Entry Symbol =>
      before.name first.symbol ≠ before.name second.symbol := ⟨fun _ _ apart => apart.symm⟩
  exact (tidy.unique package).forall inOne inTwo entries (named.trans alike.symm)

variable [DecidableEq Package] {automatic : Package → Name → Prop}
  {package : Package}

open Registry

theorem Entered.tidy {entry : Entry Symbol} (change : Entered automatic before after package entry)
    (tidy : before.Tidy) : after.Tidy where
  unique other := by
    have kept := (tidy.unique other).imp_of_mem fun {first second} inFirst inSecond different => by
      rw [← change.names other first inFirst, ← change.names other second inSecond] at different
      exact different
    rw [change.present]
    by_cases here : other = package
    · subst here
      rw [Function.update_self]
      refine List.pairwise_cons.mpr ⟨?_, kept⟩
      intro old member same
      have named : before.name old.symbol = after.name entry.symbol := by
        rw [same, change.names other old member]
      have present : old.symbol ∈ before.own other (after.name entry.symbol) :=
        ⟨old, member, rfl, named⟩
      rw [change.absent] at present
      exact present
    · rw [Function.update_of_ne here]
      exact kept
  homes symbol home found := by
    rw [change.present]
    cases change.homes symbol home found with
    | inl kept =>
        obtain ⟨old, member, same⟩ := tidy.homes symbol home kept
        by_cases here : home = package
        · subst here
          rw [Function.update_self]
          exact ⟨old, List.mem_cons_of_mem _ member, same⟩
        · rw [Function.update_of_ne here]
          exact ⟨old, member, same⟩
    | inr added =>
        obtain ⟨rfl, rfl⟩ := added
        rw [Function.update_self]
        exact ⟨entry, List.mem_cons_self, rfl⟩

theorem Replaced.tidy {old new : Entry Symbol} (change : Replaced before after package old new)
    (tidy : before.Tidy) : after.Tidy where
  unique other := by
    obtain ⟨front, back, shape, present⟩ := change.present
    rw [present, change.names]
    by_cases here : other = package
    · subst here
      have unique := tidy.unique other
      rw [shape] at unique
      rw [Function.update_self]
      simp only [List.pairwise_append, List.pairwise_cons, List.mem_cons, forall_eq_or_imp,
        change.named] at unique ⊢
      exact unique
    · rw [Function.update_of_ne here]
      exact tidy.unique other
  homes symbol home found := by
    obtain ⟨front, back, shape, present⟩ := change.present
    obtain ⟨kept, same⟩ := change.homes symbol home found
    obtain ⟨entry, member, named⟩ := tidy.homes symbol home kept
    rw [present]
    by_cases here : home = package
    · subst here
      rw [shape] at member
      rw [Function.update_self]
      by_cases replaced : entry = old
      · subst replaced
        exact ⟨new, List.mem_append_right _ List.mem_cons_self,
          (same named.symm rfl).trans named⟩
      · refine ⟨entry, ?_, named⟩
        simp only [List.mem_append, List.mem_cons] at member ⊢
        tauto
    · rw [Function.update_of_ne here]
      exact ⟨entry, member, named⟩

theorem Removed.tidy {old : Entry Symbol} (change : Removed before after package old)
    (tidy : before.Tidy) : after.Tidy where
  unique other := by
    obtain ⟨front, back, shape, present⟩ := change.present
    rw [present, change.names]
    by_cases here : other = package
    · subst here
      have unique := tidy.unique other
      rw [shape] at unique
      rw [Function.update_self]
      exact unique.sublist (List.Sublist.append_left (List.sublist_cons_self _ _) _)
    · rw [Function.update_of_ne here]
      exact tidy.unique other
  homes symbol home found := by
    obtain ⟨front, back, shape, present⟩ := change.present
    obtain ⟨kept, other⟩ := change.homes symbol home found
    obtain ⟨entry, member, named⟩ := tidy.homes symbol home kept
    rw [present]
    by_cases here : home = package
    · subst here
      rw [shape] at member
      rw [Function.update_self]
      have different : entry ≠ old := fun same => other ⟨same ▸ named.symm, rfl⟩
      refine ⟨entry, ?_, named⟩
      simp only [List.mem_append, List.mem_cons] at member ⊢
      tauto
    · rw [Function.update_of_ne here]
      exact ⟨entry, member, named⟩

theorem Change.tidy (change : Change automatic before after) (tidy : before.Tidy) :
    after.Tidy := by
  cases change with
  | settled change => exact change.tidy tidy
  | entered change => exact change.tidy tidy
  | replaced change => exact change.tidy tidy
  | removed change => exact change.tidy tidy
  | used change =>
      exact ⟨by rw [change.present, change.names]; exact tidy.unique,
        by rw [change.present, change.homes]; exact tidy.homes⟩
  | unused change =>
      exact ⟨by rw [change.present, change.names]; exact tidy.unique,
        by rw [change.present, change.homes]; exact tidy.homes⟩

/-- What a new entry makes accessible: its own symbol, where it is and where it is used from. -/
theorem Entered.accessible {entry : Entry Symbol}
    (change : Entered automatic before after package entry) {other : Package} {name : Name}
    {symbol : Symbol} (found : symbol ∈ after.accessible other name) :
    symbol ∈ before.accessible other name ∨
      symbol = entry.symbol ∧ name = after.name entry.symbol ∧
        (other = package ∨ package ∈ before.uses other ∧ entry.external = true) := by
  have elsewhere := fun place (apart : place ≠ package) => own_congr change.names
    (show after.present place = before.present place by
      rw [change.present, Function.update_of_ne apart])
  rcases found with own | ⟨used, member, exported⟩
  · by_cases here : other = package
    · subst here
      obtain ⟨held, member, rfl, named⟩ := own
      rw [change.present, Function.update_self] at member
      cases List.mem_cons.mp member with
      | inl same => exact .inr ⟨same ▸ rfl, same ▸ named.symm, .inl rfl⟩
      | inr old =>
          rw [change.names other held old] at named
          exact .inl (.inl ⟨held, old, rfl, named⟩)
    · rw [(elsewhere other here name).1] at own
      exact .inl (.inl own)
  · rw [change.uses] at member
    by_cases here : used = package
    · subst here
      obtain ⟨held, inside, external, rfl, named⟩ := exported
      rw [change.present, Function.update_self] at inside
      cases List.mem_cons.mp inside with
      | inl same => exact .inr ⟨same ▸ rfl, same ▸ named.symm, .inr ⟨member, same ▸ external⟩⟩
      | inr old =>
          rw [change.names used held old] at named
          exact .inl (.inr ⟨used, member, held, old, external, rfl, named⟩)
    · rw [(elsewhere used here name).2.1] at exported
      exact .inl (.inr ⟨used, member, exported⟩)

/-- What is visible stays visible when an entry is put in. -/
theorem Entered.keeps {entry : Entry Symbol}
    (change : Entered automatic before after package entry) {other : Package} {name : Name}
    {symbol : Symbol} (visible : symbol ∈ before.accessible other name) :
    symbol ∈ after.accessible other name := by
  have inside : ∀ place, ∀ held ∈ before.present place, held ∈ after.present place := by
    intro place held member
    rw [change.present]
    by_cases here : place = package
    · subst here
      rw [Function.update_self]
      exact List.mem_cons_of_mem _ member
    · rw [Function.update_of_ne here]
      exact member
  obtain ⟨held, member, same, named⟩ | ⟨used, uses, held, member, external, same, named⟩ := visible
  · subst same
    exact .inl ⟨held, inside other held member, rfl, (change.names other held member).trans named⟩
  · subst same
    exact .inr ⟨used, change.uses ▸ uses, held, inside used held member, external, rfl,
      (change.names used held member).trans named⟩

/-- An external entry is visible in the packages that use its package. -/
theorem Entered.exports {entry : Entry Symbol}
    (change : Entered automatic before after package entry) {other : Package} {name : Name}
    (uses : package ∈ before.uses other) (external : entry.external = true)
    (named : after.name entry.symbol = name) : entry.symbol ∈ after.accessible other name := by
  refine .inr ⟨package, change.uses ▸ uses, entry, ?_, external, rfl, named⟩
  rw [change.present, Function.update_self]
  exact List.mem_cons_self

theorem Entered.shadowed {entry : Entry Symbol}
    (change : Entered automatic before after package entry) {other : Package} {name : Name}
    (shadow : before.Shadowed other name) : after.Shadowed other name := by
  obtain ⟨held, member, shadowing, named⟩ := shadow
  refine ⟨held, ?_, shadowing, (change.names other held member).trans named⟩
  rw [change.present]
  by_cases here : other = package
  · subst here
    rw [Function.update_self]
    exact List.mem_cons_of_mem _ member
  · rw [Function.update_of_ne here]
    exact member

/-- A new entry keeps the registry clear, if its automatic export is a harmless one. -/
theorem Entered.clear {entry : Entry Symbol}
    (change : Entered automatic before after package entry) (clear : before.Clear)
    (harmless : automatic package (after.name entry.symbol) → ∀ user, package ∈ before.uses user →
      before.Admits user (after.name entry.symbol) entry.symbol) : after.Clear := by
  have only : ∀ {other : Package},
      before.accessible other (after.name entry.symbol) ⊆ {entry.symbol} →
      (after.accessible other (after.name entry.symbol)).Subsingleton := by
    intro other alone
    apply Set.subsingleton_of_subset_singleton (a := entry.symbol)
    intro symbol found
    rcases change.accessible found with old | ⟨same, _⟩
    · exact alone old
    · exact same
  intro other name
  by_cases touched : name = after.name entry.symbol ∧
      (other = package ∨ package ∈ before.uses other ∧ entry.external = true)
  · obtain ⟨rfl, rfl | ⟨uses, external⟩⟩ := touched
    · cases shadowing : entry.shadowing with
      | true =>
          refine .inl ⟨entry, ?_, shadowing, rfl⟩
          rw [change.present, Function.update_self]
          exact List.mem_cons_self
      | false =>
          apply Or.inr
          apply only
          rw [Registry.accessible, change.absent, Set.empty_union]
          exact change.visible shadowing
    · have admits : before.Admits other (after.name entry.symbol) entry.symbol := by
        cases change.users external with
        | inl auto => exact harmless auto other uses
        | inr checked => exact checked other uses
      cases clear.admits admits with
      | inl shadow => exact .inl (change.shadowed shadow)
      | inr alone => exact .inr (only alone)
  · cases clear other name with
    | inl shadow => exact .inl (change.shadowed shadow)
    | inr single =>
        refine .inr (single.anti fun symbol found => ?_)
        rcases change.accessible found with old | ⟨_, here⟩
        · exact old
        · exact absurd here touched

theorem Replaced.shadowed {old new : Entry Symbol}
    (change : Replaced before after package old new) {other : Package} {name : Name}
    (shadow : before.Shadowed other name) : after.Shadowed other name := by
  obtain ⟨front, back, shape, present⟩ := change.present
  obtain ⟨held, member, shadowing, named⟩ := shadow
  rw [Shadowed, present, change.names]
  by_cases here : other = package
  · subst here
    rw [Function.update_self]
    rw [shape] at member
    by_cases replaced : held = old
    · subst replaced
      exact ⟨new, List.mem_append_right _ List.mem_cons_self, change.shadows shadowing,
        change.named.trans named⟩
    · refine ⟨held, ?_, shadowing, named⟩
      simp only [List.mem_append, List.mem_cons] at member ⊢
      tauto
  · rw [Function.update_of_ne here]
    exact ⟨held, member, shadowing, named⟩

/-- What an entry makes accessible when it takes the place of another. -/
theorem Replaced.accessible {old new : Entry Symbol}
    (change : Replaced before after package old new) {other : Package} {name : Name}
    {symbol : Symbol} (found : symbol ∈ after.accessible other name) :
    symbol ∈ before.accessible other name ∨
      symbol = new.symbol ∧ name = before.name new.symbol ∧
        (other = package ∧ new.symbol ≠ old.symbol ∨
          package ∈ before.uses other ∧ new.external = true ∧
            ¬(new.symbol = old.symbol ∧ old.external = true)) := by
  obtain ⟨front, back, shape, present⟩ := change.present
  have kept : ∀ held, held ∈ front ++ new :: back → held = new ∨ held ∈ before.present package := by
    intro held member
    rw [shape]
    simp only [List.mem_append, List.mem_cons] at member ⊢
    tauto
  have oldMember : old ∈ before.present package := by
    rw [shape]
    exact List.mem_append_right _ List.mem_cons_self
  rcases found with ⟨held, member, rfl, named⟩ | ⟨used, member, held, inside, external, rfl, named⟩
  · rw [change.names] at named
    rw [present] at member
    by_cases here : other = package
    · subst here
      rw [Function.update_self] at member
      rcases kept held member with rfl | old
      · by_cases same : held.symbol = old.symbol
        · exact .inl (.inl ⟨old, oldMember, same.symm, named⟩)
        · exact .inr ⟨rfl, named.symm, .inl ⟨rfl, same⟩⟩
      · exact .inl (.inl ⟨held, old, rfl, named⟩)
    · rw [Function.update_of_ne here] at member
      exact .inl (.inl ⟨held, member, rfl, named⟩)
  · rw [change.names] at named
    rw [change.uses] at member
    rw [present] at inside
    by_cases here : used = package
    · subst here
      rw [Function.update_self] at inside
      rcases kept held inside with rfl | still
      · by_cases same : held.symbol = old.symbol ∧ old.external = true
        · exact .inl (.inr ⟨used, member, old, oldMember, same.2, same.1.symm, named⟩)
        · exact .inr ⟨rfl, named.symm, .inr ⟨member, external, same⟩⟩
      · exact .inl (.inr ⟨used, member, held, still, external, rfl, named⟩)
    · rw [Function.update_of_ne here] at inside
      exact .inl (.inr ⟨used, member, held, inside, external, rfl, named⟩)

theorem Replaced.clear {old new : Entry Symbol} (change : Replaced before after package old new)
    (clear : before.Clear) : after.Clear := by
  intro other name
  by_cases touched : name = before.name new.symbol ∧
      (other = package ∧ new.symbol ≠ old.symbol ∨
        package ∈ before.uses other ∧ new.external = true ∧
          ¬(new.symbol = old.symbol ∧ old.external = true))
  · obtain ⟨rfl, ⟨rfl, different⟩ | ⟨uses, external, becomes⟩⟩ := touched
    · obtain ⟨front, back, _, present⟩ := change.present
      refine .inl ⟨new, ?_, change.visible.resolve_left different, by rw [change.names]⟩
      rw [present, Function.update_self]
      exact List.mem_append_right _ List.mem_cons_self
    · cases clear.admits ((change.users external).resolve_left becomes other uses) with
      | inl shadow => exact .inl (change.shadowed shadow)
      | inr alone =>
          apply Or.inr
          apply Set.subsingleton_of_subset_singleton (a := new.symbol)
          intro symbol found
          rcases change.accessible found with still | ⟨same, _⟩
          · exact alone still
          · exact same
  · cases clear other name with
    | inl shadow => exact .inl (change.shadowed shadow)
    | inr single =>
        refine .inr (single.anti fun symbol found => ?_)
        rcases change.accessible found with still | ⟨_, here⟩
        · exact still
        · exact absurd here touched

/-- Without an entry less is accessible. -/
theorem Removed.accessible {old : Entry Symbol} (change : Removed before after package old)
    (other : Package) (name : Name) :
    after.own other name ⊆ before.own other name ∧
      after.inherited other name ⊆ before.inherited other name := by
  obtain ⟨front, back, shape, present⟩ := change.present
  have fewer : ∀ place, after.present place ⊆ before.present place := by
    intro place
    rw [present]
    by_cases here : place = package
    · subst here
      rw [Function.update_self, shape]
      exact (List.Sublist.append_left (List.sublist_cons_self _ _) _).subset
    · rw [Function.update_of_ne here]
      exact List.Subset.refl _
  constructor
  · rintro symbol ⟨held, member, rfl, named⟩
    rw [change.names] at named
    exact ⟨held, fewer other member, rfl, named⟩
  · rintro symbol ⟨used, member, held, inside, external, rfl, named⟩
    rw [change.names] at named
    rw [change.uses] at member
    exact ⟨used, member, held, fewer used inside, external, rfl, named⟩

theorem Removed.clear {old : Entry Symbol} (change : Removed before after package old)
    (tidy : before.Tidy) (clear : before.Clear) : after.Clear := by
  intro other name
  obtain ⟨own, inherited⟩ := change.accessible other name
  by_cases touched : other = package ∧ name = before.name old.symbol
  · obtain ⟨rfl, rfl⟩ := touched
    refine .inr (change.visible.anti ?_)
    rintro symbol (⟨held, member, rfl, named⟩ | found)
    · -- The name has no other entry in the package.
      obtain ⟨front, back, shape, present⟩ := change.present
      have unique := tidy.unique other
      rw [present, Function.update_self] at member
      rw [change.names] at named
      rw [shape, List.pairwise_append, List.pairwise_cons] at unique
      cases List.mem_append.mp member with
      | inl early => exact absurd named (unique.2.2 held early old List.mem_cons_self)
      | inr late => exact absurd named.symm (unique.2.1.1 held late)
    · exact inherited found
  · cases clear other name with
    | inr single => exact .inr (single.anti (Set.union_subset_union own inherited))
    | inl shadow =>
        obtain ⟨front, back, shape, present⟩ := change.present
        obtain ⟨held, member, shadowing, named⟩ := shadow
        refine .inl ⟨held, ?_, shadowing, by rw [change.names, named]⟩
        rw [present]
        by_cases here : other = package
        · subst here
          have different : held ≠ old := fun same => touched ⟨rfl, same ▸ named.symm⟩
          rw [shape] at member
          rw [Function.update_self]
          simp only [List.mem_append, List.mem_cons] at member ⊢
          tauto
        · rw [Function.update_of_ne here]
          exact member

theorem Used.clear {used : Package} (change : Used before after package used)
    (tidy : before.Tidy) (clear : before.Clear) : after.Clear := by
  have shadowed : ∀ other name, before.Shadowed other name → after.Shadowed other name := by
    intro other name shadow
    rw [Shadowed, change.present, change.names]
    exact shadow
  have exported : after.exported = before.exported := by
    funext other name
    rw [Registry.exported, Registry.exported, change.present, change.names]
  have own : after.own = before.own := by
    funext other name
    rw [Registry.own, Registry.own, change.present, change.names]
  intro other name
  by_cases here : other = package
  · subst here
    have split : after.accessible other name ⊆
        before.accessible other name ∪ before.exported used name := by
      rintro symbol (found | ⟨place, member, found⟩)
      · exact .inl (.inl (own ▸ found))
      · rw [change.uses, Function.update_self] at member
        rw [exported] at found
        cases List.mem_cons.mp member with
        | inl same => exact .inr (same ▸ found)
        | inr old => exact .inl (.inr ⟨place, old, found⟩)
    rcases Set.eq_empty_or_nonempty (before.exported used name) with none | ⟨symbol, found⟩
    · rw [none, Set.union_empty] at split
      cases clear other name with
      | inl shadow => exact .inl (shadowed other name shadow)
      | inr single => exact .inr (single.anti split)
    · have alike : before.exported used name ⊆ {symbol} := by
        intro another also
        exact tidy.own_subsingleton used name (exported_subset_own before used name also)
          (exported_subset_own before used name found)
      obtain ⟨held, member, external, rfl, rfl⟩ := found
      cases clear.admits (change.visible held member external) with
      | inl shadow => exact .inl (shadowed other _ shadow)
      | inr alone =>
          exact .inr ((Set.subsingleton_singleton).anti
            (split.trans (Set.union_subset alone alike)))
  · have same : after.accessible other name = before.accessible other name := by
      rw [Registry.accessible, Registry.accessible, own, inherited, inherited, change.uses,
        Function.update_of_ne here, exported]
    rw [same]
    exact (clear other name).imp_left (shadowed other name)

theorem Unused.clear (change : Unused before after package) (clear : before.Clear) :
    after.Clear := by
  obtain ⟨fewer, uses, subset⟩ := change.uses
  apply clear.mono
  · rintro other name symbol (⟨held, member, rfl, named⟩ | ⟨used, member, held, inside, external, rfl, named⟩)
    · rw [change.present] at member
      rw [change.names] at named
      exact .inl ⟨held, member, rfl, named⟩
    · rw [change.present] at inside
      rw [change.names] at named
      refine .inr ⟨used, ?_, held, inside, external, rfl, named⟩
      rw [uses] at member
      by_cases here : other = package
      · subst here
        rw [Function.update_self] at member
        exact subset member
      · rwa [Function.update_of_ne here] at member
  · intro other name shadow
    rw [Shadowed, change.present, change.names]
    exact shadow

/-- A change keeps the registry clear, if an automatic export is a harmless one. -/
theorem Change.clear (change : Change automatic before after) (tidy : before.Tidy)
    (clear : before.Clear)
    (harmless : ∀ package name symbol, automatic package name → ∀ user,
      package ∈ before.uses user → before.Admits user name symbol) : after.Clear := by
  cases change with
  | settled change => exact change.clear clear
  | entered change => exact change.clear clear (harmless _ _ _)
  | replaced change => exact change.clear clear
  | removed change => exact change.clear tidy clear
  | used change => exact change.clear tidy clear
  | unused change => exact change.clear clear

end Preservation

end Visibility
