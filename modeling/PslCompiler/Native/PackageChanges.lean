import PslCompiler.Native.PackageTables

/-! # Changes of the tables

What each step of an operation does to the tables and to the registry they hold: a longer name
table, a new symbol, a new presence, other flags or another symbol of a presence, a new or a removed
edge, a removed presence, a new package.
-/

namespace Native

open Chains Visibility

namespace Environment

variable {env : Environment} {refs edges : Nat → List Nat}

/-- A field that an updated record has in common with the old one stays in all records. -/
theorem field_update {Record Field : Type} (field : Record → Field) (records : Nat → Record)
    (index : Nat) (record : Record) (same : field record = field (records index)) (other : Nat) :
    field (Function.update records index record other) = field (records other) := by
  by_cases here : other = index
  · subst here
    rw [Function.update_self, same]
  · rw [Function.update_of_ne here]

/-- The name table may grow and the error may change; everything else stays. -/
def Extends (before after : Environment) : Prop :=
  ∃ names count error, after = { before with names, nameCount := count, error } ∧
    before.nameCount ≤ count ∧ ∀ index < before.nameCount, names index = before.names index

theorem Extends.refl (env : Environment) : Extends env env :=
  ⟨env.names, env.nameCount, env.error, rfl, Nat.le_refl _, fun _ _ => rfl⟩

theorem Extends.trans {first second third : Environment} (one : Extends first second)
    (two : Extends second third) : Extends first third := by
  obtain ⟨names, count, error, rfl, grows, kept⟩ := one
  obtain ⟨others, more, failure, rfl, rises, same⟩ := two
  exact ⟨others, more, failure, rfl, Nat.le_trans grows rises, fun index bound =>
    (same index (Nat.lt_of_lt_of_le bound grows)).trans (kept index bound)⟩

theorem fail_extends (env : Environment) (error : EnvironmentError) :
    Extends env (env.fail error).2 := by
  rw [fail]
  dsimp only
  split
  · exact ⟨env.names, env.nameCount, error, rfl, Nat.le_refl _, fun _ _ => rfl⟩
  · exact .refl env

/-- Names that stand in the old part of the table stay. -/
theorem Extends.nameAt {before after : Environment} (ext : Extends before after)
    {offset length : Nat} (bound : offset + length ≤ before.nameCount) :
    after.nameAt offset length = before.nameAt offset length := by
  obtain ⟨names, count, error, rfl, _, kept⟩ := ext
  rw [Environment.nameAt, Environment.nameAt]
  apply List.map_congr_left
  intro index member
  exact kept _ (by have := List.mem_range.mp member; omega)

theorem Extends.symbolName {before after : Environment} (ext : Extends before after)
    (represents : before.Represents refs edges) {symbol : Nat}
    (valid : before.symbolValid symbol = true) :
    after.symbolName symbol = before.symbolName symbol := by
  have same := ext.nameAt (represents.symbolSpans symbol valid)
  obtain ⟨names, count, error, rfl, _, kept⟩ := ext
  exact same

theorem Extends.represents {before after : Environment} (ext : Extends before after)
    (represents : before.Represents refs edges) : after.Represents refs edges := by
  have named : ∀ symbol, before.symbolValid symbol = true →
      after.symbolName symbol = before.symbolName symbol :=
    fun symbol valid => ext.symbolName represents valid
  obtain ⟨names, count, error, rfl, grows, kept⟩ := ext
  constructor
  · exact represents.outside
  · exact represents.present
  · intro buckets package valid slot bound
    have chain := represents.indexed buckets package valid slot bound
    have same : (refs package).filter (fun reference => before.slotOf reference = slot) =
        (refs package).filter (fun reference => slotOf
          { before with names := names, nameCount := count, error := error } reference = slot) := by
      apply List.filter_congr
      intro reference member
      have symbol := named _ (represents.symbols package reference member)
      rw [slotOf, slotOf, symbol]
      rfl
    rw [same] at chain
    exact chain
  · exact represents.used
  · exact represents.symbols
  · exact represents.packages
  · exact fun symbol valid => Nat.le_trans (represents.symbolSpans symbol valid) grows
  · exact fun package valid => Nat.le_trans (represents.packageSpans package valid) grows
  · intro reference positive bound
    obtain ⟨span, valid⟩ := represents.aliasSpans reference positive bound
    exact ⟨Nat.le_trans span grows, valid⟩

theorem Extends.settled {before after : Environment} (ext : Extends before after)
    (represents : before.Represents refs edges) :
    Settled (before.registryOf refs edges) (after.registryOf refs edges) := by
  have named : ∀ symbol, before.symbolValid symbol = true →
      after.symbolName symbol = before.symbolName symbol :=
    fun symbol valid => ext.symbolName represents valid
  obtain ⟨names, count, error, rfl, grows, kept⟩ := ext
  refine ⟨rfl, rfl, ?_, fun symbol package found => .inl found⟩
  intro package entry member
  obtain ⟨reference, inside, rfl⟩ := List.mem_map.mp member
  exact named _ (represents.symbols package reference inside)

theorem bucket_injective {count one two slot other : Nat} (positive : 0 < one)
    (positive' : 0 < two) (bound : slot < count) (bound' : other < count)
    (same : (one - 1) * count + slot = (two - 1) * count + other) : one = two ∧ slot = other := by
  have slots : slot = other := by
    have mods := congrArg (· % count) same
    simpa only [Nat.mul_add_mod_self_right, Nat.mod_eq_of_lt bound, Nat.mod_eq_of_lt bound'] using
      mods
  subst slots
  have products : (one - 1) * count = (two - 1) * count := Nat.add_right_cancel same
  have owners := Nat.eq_of_mul_eq_mul_right (Nat.lt_of_le_of_lt (Nat.zero_le _) bound) products
  exact ⟨by omega, rfl⟩

theorem packageValid_pos {package : Nat} (valid : env.packageValid package = true) :
    0 < package := by
  rw [packageValid, Bool.and_eq_true, decide_eq_true_eq] at valid
  exact Nat.pos_of_ne_zero valid.1

theorem addPresence_eq (env : Environment) (package symbol : Nat) (external shadowing : Bool)
    (room : env.presentCount < env.presentCapacity) :
    env.addPresence package symbol external shadowing =
      (symbol,
        { env with
          presences := Function.update env.presences (env.presentCount + 1)
            { symbol, next := (env.packages package).present, external, shadowing
              bucketNext := if env.bucketCount = 0 then 0
                else env.buckets (env.bucket package (env.symbolName symbol)) }
          packages := Function.update env.packages package
            { env.packages package with present := env.presentCount + 1 }
          presentCount := env.presentCount + 1
          buckets := if env.bucketCount = 0 then env.buckets
            else Function.update env.buckets (env.bucket package (env.symbolName symbol))
              (env.presentCount + 1) }) := by
  by_cases buckets : env.bucketCount = 0
  · simp only [addPresence, recordRoom, decide_eq_true room, indexPresence, buckets, ↓reduceIte,
      Function.update_self, Function.update_idem]
  · simp only [addPresence, recordRoom, decide_eq_true room, indexPresence, buckets, ↓reduceIte,
      Function.update_self, Function.update_idem]
    rfl

/-- The names of symbols, packages and aliases stay, and so do the numbers of records that have a
name. -/
structure Kept (before after : Environment) : Prop where
  names : after.names = before.names
  nameCount : after.nameCount = before.nameCount
  symbolSpans : ∀ symbol, (after.symbols symbol).name = (before.symbols symbol).name ∧
    (after.symbols symbol).length = (before.symbols symbol).length
  symbolCount : after.symbolCount = before.symbolCount
  packageSpans : ∀ package, (after.packages package).name = (before.packages package).name ∧
    (after.packages package).length = (before.packages package).length
  packageCount : after.packageCount = before.packageCount
  aliases : after.aliases = before.aliases
  aliasCount : after.aliasCount = before.aliasCount
  bucketCount : after.bucketCount = before.bucketCount

theorem Kept.trans {middle after : Environment} (one : Kept env middle) (two : Kept middle after) :
    Kept env after where
  names := two.names.trans one.names
  nameCount := two.nameCount.trans one.nameCount
  symbolSpans symbol := ⟨(two.symbolSpans symbol).1.trans (one.symbolSpans symbol).1,
    (two.symbolSpans symbol).2.trans (one.symbolSpans symbol).2⟩
  symbolCount := two.symbolCount.trans one.symbolCount
  packageSpans package := ⟨(two.packageSpans package).1.trans (one.packageSpans package).1,
    (two.packageSpans package).2.trans (one.packageSpans package).2⟩
  packageCount := two.packageCount.trans one.packageCount
  aliases := two.aliases.trans one.aliases
  aliasCount := two.aliasCount.trans one.aliasCount
  bucketCount := two.bucketCount.trans one.bucketCount

namespace Kept

variable {after : Environment}

theorem symbolName (kept : Kept env after) (symbol : Nat) :
    after.symbolName symbol = env.symbolName symbol := by
  rw [Environment.symbolName, Environment.symbolName, nameAt, nameAt, kept.names,
    (kept.symbolSpans symbol).1, (kept.symbolSpans symbol).2]

theorem hashName (kept : Kept env after) (name : List UInt8) :
    after.hashName name = env.hashName name := by
  rw [Environment.hashName, Environment.hashName, kept.bucketCount]

theorem packageValid (kept : Kept env after) (package : Nat) :
    after.packageValid package = env.packageValid package := by
  rw [Environment.packageValid, Environment.packageValid, kept.packageCount]

theorem symbolValid (kept : Kept env after) (symbol : Nat) :
    after.symbolValid symbol = env.symbolValid symbol := by
  rw [Environment.symbolValid, Environment.symbolValid, kept.symbolCount]

theorem slotOf (kept : Kept env after) {reference : Nat}
    (same : env.symbolName (after.presences reference).symbol =
      env.symbolName (env.presences reference).symbol) :
    after.slotOf reference = env.slotOf reference := by
  rw [Environment.slotOf, Environment.slotOf, kept.symbolName, kept.hashName, same]

/-- What is left to show of tables whose names are kept. -/
theorem represents {refs' edges' : Nat → List Nat} (kept : Kept env after)
    (represents : env.Represents refs edges)
    (outside : ∀ package, env.packageValid package = false →
      refs' package = [] ∧ edges' package = [])
    (present : Family (fun package => env.packageValid package = true) after.presentCount
      (fun package => (after.packages package).present)
      (fun reference => (after.presences reference).next) refs')
    (indexed : env.bucketCount ≠ 0 → ∀ package, env.packageValid package = true →
      ∀ slot < env.bucketCount, Linked (fun reference => (after.presences reference).bucketNext)
        (after.buckets ((package - 1) * env.bucketCount + slot))
        ((refs' package).filter fun reference => after.slotOf reference = slot))
    (used : Family (fun package => env.packageValid package = true) after.useCount
      (fun package => (after.packages package).uses) (fun edge => (after.uses edge).next) edges')
    (symbols : ∀ package, ∀ reference ∈ refs' package,
      env.symbolValid (after.presences reference).symbol = true)
    (packages : ∀ package, ∀ edge ∈ edges' package,
      env.packageValid (after.uses edge).package = true) : after.Represents refs' edges' where
  outside package invalid := outside package (kept.packageValid package ▸ invalid)
  present := by
    simp only [kept.packageValid]
    exact present
  indexed := by
    simp only [kept.packageValid, kept.bucketCount]
    exact indexed
  used := by
    simp only [kept.packageValid]
    exact used
  symbols := by
    simp only [kept.symbolValid]
    exact symbols
  packages := by
    simp only [kept.packageValid]
    exact packages
  symbolSpans symbol valid := by
    rw [(kept.symbolSpans symbol).1, (kept.symbolSpans symbol).2, kept.nameCount]
    exact represents.symbolSpans symbol (kept.symbolValid symbol ▸ valid)
  packageSpans package valid := by
    rw [(kept.packageSpans package).1, (kept.packageSpans package).2, kept.nameCount]
    exact represents.packageSpans package (kept.packageValid package ▸ valid)
  aliasSpans reference positive bound := by
    rw [kept.aliases, kept.nameCount, kept.packageValid]
    exact represents.aliasSpans reference positive (kept.aliasCount ▸ bound)

end Kept

/-- A presence has been added in front of the chains it is on. -/
structure PresenceAdded (before after : Environment) (package symbol : Nat)
    (external shadowing : Bool) : Prop where
  kept : Kept before after
  symbols : after.symbols = before.symbols
  uses : after.uses = before.uses
  useCount : after.useCount = before.useCount
  presentCount : after.presentCount = before.presentCount + 1
  others : ∀ reference, reference ≠ before.presentCount + 1 →
    after.presences reference = before.presences reference
  entry : after.presences (before.presentCount + 1) =
    { symbol, next := (before.packages package).present, external, shadowing
      bucketNext := if before.bucketCount = 0 then 0
        else before.buckets (before.bucket package (before.symbolName symbol)) }
  packages : after.packages = Function.update before.packages package
    { before.packages package with present := before.presentCount + 1 }
  buckets : after.buckets = if before.bucketCount = 0 then before.buckets
    else Function.update before.buckets (before.bucket package (before.symbolName symbol))
      (before.presentCount + 1)

theorem addPresence_added (env : Environment) (package symbol : Nat) (external shadowing : Bool)
    (room : env.presentCount < env.presentCapacity) :
    (env.addPresence package symbol external shadowing).1 = symbol ∧
      PresenceAdded env (env.addPresence package symbol external shadowing).2 package symbol
        external shadowing := by
  rw [addPresence_eq env package symbol external shadowing room]
  refine ⟨rfl, ⟨rfl, rfl, fun _ => ⟨rfl, rfl⟩, rfl, ?_, rfl, rfl, rfl, rfl⟩, rfl, rfl, rfl, rfl,
    ?_, ?_, rfl, rfl⟩
  · intro place
    let record := { env.packages package with present := env.presentCount + 1 }
    exact ⟨field_update PackageRecord.name env.packages package record rfl place,
      field_update PackageRecord.length env.packages package record rfl place⟩
  · exact fun reference other => Function.update_of_ne other _ _
  · exact Function.update_self _ _ _

namespace PresenceAdded

variable {after : Environment} {package symbol : Nat} {external shadowing : Bool}

/-- A new presence is in front of the chain of its package and of the chain of its bucket. -/
theorem represents (added : PresenceAdded env after package symbol external shadowing)
    (represents : env.Represents refs edges) (valid : env.packageValid package = true)
    (isSymbol : env.symbolValid symbol = true) :
    after.Represents
      (Function.update refs package ((env.presentCount + 1) :: refs package)) edges := by
  have old : ∀ place, ∀ reference ∈ refs place,
      after.presences reference = env.presences reference := by
    intro place reference member
    have bound := represents.present.bounded place reference member
    exact added.others reference (by omega)
  have slots : ∀ place slot, (refs place).filter (fun reference => after.slotOf reference = slot) =
      (refs place).filter (fun reference => env.slotOf reference = slot) := by
    intro place slot
    apply List.filter_congr
    intro reference member
    rw [added.kept.slotOf (by rw [old place reference member])]
  apply added.kept.represents represents
  · intro place invalid
    obtain ⟨nothing, unused⟩ := represents.outside place invalid
    have other : place ≠ package := by
      rintro rfl
      rw [invalid] at valid
      cases valid
    exact ⟨(Function.update_of_ne other _ _).trans nothing, unused⟩
  · rw [added.presentCount]
    apply represents.present.push
    · rw [added.entry]
    · intro cell bound
      rw [added.others cell (by omega)]
    · rw [added.packages]
      exact Function.comp_update PackageRecord.present env.packages package _
  · intro buckets place isValid slot bound
    have chain := represents.indexed buckets place isValid slot bound
    have hashed := env.hashName_lt (env.symbolName symbol) buckets
    have fresh : after.slotOf (env.presentCount + 1) = env.hashName (env.symbolName symbol) := by
      rw [slotOf, added.entry, added.kept.symbolName, added.kept.hashName]
    have links : ∀ cell ∈ (refs place).filter (fun reference => env.slotOf reference = slot),
        (after.presences cell).bucketNext = (env.presences cell).bucketNext := by
      intro cell member
      rw [old place cell (List.mem_filter.mp member).1]
    rw [added.buckets, if_neg buckets]
    by_cases head : (place - 1) * env.bucketCount + slot =
        env.bucket package (env.symbolName symbol)
    · obtain ⟨rfl, rfl⟩ := bucket_injective (packageValid_pos isValid) (packageValid_pos valid)
        bound hashed head
      rw [Function.update_self, head, Function.update_self, List.filter_cons, fresh, slots]
      simp only [decide_true, ↓reduceIte]
      apply chain.push (Nat.succ_ne_zero _)
      · rw [added.entry, if_neg buckets, ← head]
      · exact links
    · rw [Function.update_of_ne head]
      have same : (Function.update refs package ((env.presentCount + 1) :: refs package)
          place).filter (fun reference => after.slotOf reference = slot) =
          (refs place).filter (fun reference => env.slotOf reference = slot) := by
        by_cases here : place = package
        · subst here
          have apart : ¬env.hashName (env.symbolName symbol) = slot := by
            rintro rfl
            exact head rfl
          rw [Function.update_self, List.filter_cons, fresh, slots]
          simp only [apart, decide_false, Bool.false_eq_true, ↓reduceIte]
        · rw [Function.update_of_ne here, slots]
      rw [same]
      exact chain.congr links
  · rw [added.useCount]
    apply represents.used.congr
    · intro place _
      rw [added.packages]
      exact field_update PackageRecord.uses env.packages package
        { env.packages package with present := env.presentCount + 1 } rfl place
    · exact fun _ _ edge _ => by rw [added.uses]
    · exact Nat.le_refl _
  · intro place reference member
    have earlier : reference ∈ refs place →
        env.symbolValid (after.presences reference).symbol = true := by
      intro inside
      rw [old place reference inside]
      exact represents.symbols place reference inside
    by_cases here : place = package
    · subst here
      rw [Function.update_self] at member
      cases List.mem_cons.mp member with
      | inl same =>
          rw [same, added.entry]
          exact isSymbol
      | inr inside => exact earlier inside
    · rw [Function.update_of_ne here] at member
      exact earlier member
  · rw [added.uses]
    exact represents.packages

/-- The registry has the new entry in front. -/
theorem registryOf_eq (added : PresenceAdded env after package symbol external shadowing)
    (represents : env.Represents refs edges) :
    after.registryOf (Function.update refs package ((env.presentCount + 1) :: refs package)) edges =
      { env.registryOf refs edges with
        present := Function.update (env.registryOf refs edges).present package
          (⟨symbol, external, shadowing⟩ :: (env.registryOf refs edges).present package) } := by
  have old : ∀ place, (refs place).map after.entryOf = (refs place).map env.entryOf := by
    intro place
    apply List.map_congr_left
    intro reference member
    have bound := represents.present.bounded place reference member
    rw [entryOf, entryOf, added.others reference (by omega)]
  have fresh : after.entryOf (env.presentCount + 1) = ⟨symbol, external, shadowing⟩ := by
    rw [entryOf, added.entry]
  simp only [registryOf, Registry.mk.injEq]
  refine ⟨funext added.kept.symbolName, ?_, ?_, ?_⟩
  · funext other
    rw [homeOf, homeOf, added.kept.symbolValid, added.symbols]
  · funext place
    by_cases here : place = package
    · subst here
      rw [Function.update_self, Function.update_self, List.map_cons, fresh, old]
    · rw [Function.update_of_ne here, Function.update_of_ne here, old]
  · rw [added.uses]

end PresenceAdded

/-- A presence has other flags, or another symbol of the same name; and homes may be other ones. -/
structure PresenceSet (before after : Environment) (entry symbol : Nat)
    (external shadowing : Bool) : Prop where
  kept : Kept before after
  uses : after.uses = before.uses
  useCount : after.useCount = before.useCount
  presentCount : after.presentCount = before.presentCount
  presences : after.presences = Function.update before.presences entry
    { before.presences entry with symbol, external, shadowing }
  packages : after.packages = before.packages
  buckets : after.buckets = before.buckets

namespace PresenceSet

variable {after : Environment} {entry symbol : Nat} {external shadowing : Bool}

theorem represents (changed : PresenceSet env after entry symbol external shadowing)
    (represents : env.Represents refs edges) (isSymbol : env.symbolValid symbol = true)
    (named : env.symbolName symbol = env.symbolName (env.presences entry).symbol) :
    after.Represents refs edges := by
  have links : ∀ reference, (after.presences reference).next = (env.presences reference).next ∧
      (after.presences reference).bucketNext = (env.presences reference).bucketNext ∧
      env.symbolName (after.presences reference).symbol =
        env.symbolName (env.presences reference).symbol := by
    intro reference
    rw [changed.presences]
    by_cases here : reference = entry
    · subst here
      rw [Function.update_self]
      exact ⟨rfl, rfl, named⟩
    · rw [Function.update_of_ne here]
      exact ⟨rfl, rfl, rfl⟩
  apply changed.kept.represents represents
  · exact represents.outside
  · apply represents.present.congr
    · exact fun place _ => by rw [changed.packages]
    · exact fun _ _ cell _ => (links cell).1
    · exact Nat.le_of_eq changed.presentCount.symm
  · intro buckets place valid slot bound
    have slots : (refs place).filter (fun reference => after.slotOf reference = slot) =
        (refs place).filter (fun reference => env.slotOf reference = slot) := by
      apply List.filter_congr
      intro reference _
      rw [changed.kept.slotOf (links reference).2.2]
    rw [slots, changed.buckets]
    apply (represents.indexed buckets place valid slot bound).congr
    exact fun cell _ => (links cell).2.1
  · rw [changed.packages, changed.uses, changed.useCount]
    exact represents.used
  · intro place reference member
    rw [changed.presences]
    by_cases here : reference = entry
    · subst here
      rw [Function.update_self]
      exact isSymbol
    · rw [Function.update_of_ne here]
      exact represents.symbols place reference member
  · rw [changed.uses]
    exact represents.packages

/-- The entry stands in its package where the old one stood. -/
theorem registryOf_present (changed : PresenceSet env after entry symbol external shadowing)
    (represents : env.Represents refs edges) {package : Nat} {front back : List Nat}
    (shape : refs package = front ++ entry :: back) :
    (env.registryOf refs edges).present package =
        front.map env.entryOf ++ env.entryOf entry :: back.map env.entryOf ∧
      (after.registryOf refs edges).present =
        Function.update (env.registryOf refs edges).present package
          (front.map env.entryOf ++ ⟨symbol, external, shadowing⟩ :: back.map env.entryOf) := by
  have others : ∀ cells : List Nat, entry ∉ cells →
      cells.map after.entryOf = cells.map env.entryOf := by
    intro cells absent
    apply List.map_congr_left
    intro reference member
    have apart : reference ≠ entry := fun same => absent (same ▸ member)
    rw [entryOf, entryOf, changed.presences, Function.update_of_ne apart]
  have distinct := represents.present.distinct package
  rw [shape, List.nodup_append, List.nodup_cons] at distinct
  constructor
  · simp only [registryOf, shape, List.map_append, List.map_cons]
  · funext place
    simp only [registryOf]
    by_cases here : place = package
    · subst here
      have fresh : after.entryOf entry = ⟨symbol, external, shadowing⟩ := by
        rw [entryOf, changed.presences, Function.update_self]
      rw [Function.update_self, shape, List.map_append, List.map_cons, fresh,
        others front fun member => distinct.2.2 entry member entry List.mem_cons_self rfl,
        others back distinct.2.1.1]
    · rw [Function.update_of_ne here]
      apply others
      apply represents.present.apart package place (Ne.symm here)
      rw [shape]
      exact List.mem_append_right _ List.mem_cons_self

end PresenceSet

theorem setFlags_set (env : Environment) (entry : Nat) (external shadowing : Bool) :
    PresenceSet env (env.setFlags entry external shadowing) entry (env.presences entry).symbol
      external shadowing :=
  ⟨⟨rfl, rfl, fun _ => ⟨rfl, rfl⟩, rfl, fun _ => ⟨rfl, rfl⟩, rfl, rfl, rfl, rfl⟩, rfl, rfl, rfl,
    rfl, rfl, rfl⟩

/-- A symbol has another home. -/
structure Rehomed (before after : Environment) : Prop where
  kept : Kept before after
  uses : after.uses = before.uses
  useCount : after.useCount = before.useCount
  presentCount : after.presentCount = before.presentCount
  presences : after.presences = before.presences
  packages : after.packages = before.packages
  buckets : after.buckets = before.buckets

theorem Rehomed.represents {after : Environment} (rehomed : Rehomed env after)
    (represents : env.Represents refs edges) : after.Represents refs edges := by
  apply rehomed.kept.represents represents
  · exact represents.outside
  · rw [rehomed.presences, rehomed.packages, rehomed.presentCount]
    exact represents.present
  · intro buckets place valid slot bound
    have slots : (refs place).filter (fun reference => after.slotOf reference = slot) =
        (refs place).filter (fun reference => env.slotOf reference = slot) := by
      apply List.filter_congr
      intro reference _
      rw [rehomed.kept.slotOf (by rw [rehomed.presences])]
    rw [slots, rehomed.buckets, rehomed.presences]
    exact represents.indexed buckets place valid slot bound
  · rw [rehomed.packages, rehomed.uses, rehomed.useCount]
    exact represents.used
  · rw [rehomed.presences]
    exact represents.symbols
  · rw [rehomed.uses]
    exact represents.packages

theorem Rehomed.registryOf_eq {after : Environment} (rehomed : Rehomed env after) :
    after.registryOf refs edges = { env.registryOf refs edges with home := after.homeOf } := by
  simp only [registryOf, Registry.mk.injEq]
  refine ⟨funext rehomed.kept.symbolName, trivial, ?_, ?_⟩
  · funext place
    apply List.map_congr_left
    intro reference _
    rw [entryOf, entryOf, rehomed.presences]
  · rw [rehomed.uses]

theorem setHome_rehomed (env : Environment) (symbol package : Nat) :
    Rehomed env (env.setHome symbol package) := by
  refine ⟨⟨rfl, rfl, ?_, rfl, fun _ => ⟨rfl, rfl⟩, rfl, rfl, rfl, rfl⟩, rfl, rfl, rfl, rfl, rfl, rfl⟩
  intro other
  let record := { env.symbols symbol with package }
  exact ⟨field_update SymbolRecord.name env.symbols symbol record rfl other,
    field_update SymbolRecord.length env.symbols symbol record rfl other⟩

theorem homeOf_eq_some {symbol package : Nat} : env.homeOf symbol = some package ↔
    env.symbolValid symbol = true ∧ (env.symbols symbol).package = package ∧ package ≠ 0 := by
  rw [homeOf]
  split
  · rename_i found
    rw [Bool.and_eq_true, decide_eq_true_eq] at found
    constructor
    · intro same
      cases same
      exact ⟨found.1, rfl, found.2⟩
    · rintro ⟨_, rfl, _⟩
      rfl
  · rename_i absent
    rw [Bool.and_eq_true, decide_eq_true_eq] at absent
    constructor
    · intros
      contradiction
    · rintro ⟨valid, rfl, positive⟩
      exact absurd ⟨valid, positive⟩ absent

theorem setHome_symbols (env : Environment) (symbol package : Nat) :
    (env.setHome symbol package).symbols =
      Function.update env.symbols symbol { env.symbols symbol with package } := rfl

theorem setHome_homeOf {symbol package other home : Nat}
    (found : (env.setHome symbol package).homeOf other = some home) :
    other = symbol ∧ home = package ∨ other ≠ symbol ∧ env.homeOf other = some home := by
  rw [homeOf_eq_some] at found
  obtain ⟨valid, same, positive⟩ := found
  by_cases here : other = symbol
  · subst here
    rw [setHome_symbols, Function.update_self] at same
    exact .inl ⟨rfl, same.symm⟩
  · rw [setHome_symbols, Function.update_of_ne here] at same
    exact .inr ⟨here, homeOf_eq_some.mpr ⟨valid, same, positive⟩⟩

theorem detachHome_rehomed (env : Environment) (package symbol : Nat) :
    Rehomed env (env.detachHome package symbol) := by
  rw [detachHome]
  split
  · exact setHome_rehomed env symbol 0
  · exact ⟨⟨rfl, rfl, fun _ => ⟨rfl, rfl⟩, rfl, fun _ => ⟨rfl, rfl⟩, rfl, rfl, rfl, rfl⟩, rfl, rfl,
      rfl, rfl, rfl, rfl⟩

/-- A detached symbol does not have its home in the package. -/
theorem detachHome_homeOf {package symbol other home : Nat}
    (found : (env.detachHome package symbol).homeOf other = some home) :
    env.homeOf other = some home ∧ ¬(other = symbol ∧ home = package) := by
  rw [detachHome] at found
  split at found
  · obtain ⟨rfl, rfl⟩ | ⟨apart, kept⟩ := setHome_homeOf found
    · exact absurd rfl (homeOf_eq_some.mp found).2.2
    · exact ⟨kept, fun both => apart both.1⟩
  · rename_i elsewhere
    refine ⟨found, ?_⟩
    rintro ⟨rfl, rfl⟩
    exact elsewhere (homeOf_eq_some.mp found).2.1

/-- The edges of packages have changed, and nothing else. -/
structure UsesChanged (before after : Environment) : Prop where
  kept : Kept before after
  symbols : after.symbols = before.symbols
  presences : after.presences = before.presences
  presentCount : after.presentCount = before.presentCount
  present : ∀ package, (after.packages package).present = (before.packages package).present
  buckets : after.buckets = before.buckets

namespace UsesChanged

variable {after : Environment} {edges' : Nat → List Nat}

theorem represents (changed : UsesChanged env after) (represents : env.Represents refs edges)
    (outside : ∀ package, env.packageValid package = false → edges' package = [])
    (used : Family (fun package => env.packageValid package = true) after.useCount
      (fun package => (after.packages package).uses) (fun edge => (after.uses edge).next) edges')
    (packages : ∀ package, ∀ edge ∈ edges' package,
      env.packageValid (after.uses edge).package = true) : after.Represents refs edges' := by
  apply changed.kept.represents represents
  · exact fun package invalid => ⟨(represents.outside package invalid).1, outside package invalid⟩
  · apply represents.present.congr
    · exact fun place _ => changed.present place
    · exact fun _ _ _ _ => by rw [changed.presences]
    · exact Nat.le_of_eq changed.presentCount.symm
  · intro buckets place valid slot bound
    have slots : (refs place).filter (fun reference => after.slotOf reference = slot) =
        (refs place).filter (fun reference => env.slotOf reference = slot) := by
      apply List.filter_congr
      intro reference _
      rw [changed.kept.slotOf (by rw [changed.presences])]
    rw [slots, changed.buckets, changed.presences]
    exact represents.indexed buckets place valid slot bound
  · exact used
  · rw [changed.presences]
    exact represents.symbols
  · exact packages

theorem registryOf_eq (changed : UsesChanged env after) (refs edges edges' : Nat → List Nat) :
    after.registryOf refs edges' =
      { env.registryOf refs edges with
        uses := fun package => (edges' package).map fun edge => (after.uses edge).package } := by
  simp only [registryOf, Registry.mk.injEq]
  refine ⟨funext changed.kept.symbolName, ?_, ?_, trivial⟩
  · funext other
    rw [homeOf, homeOf, changed.kept.symbolValid, changed.symbols]
  · funext place
    apply List.map_congr_left
    intro reference _
    rw [entryOf, entryOf, changed.presences]

end UsesChanged

theorem usesChanged_heads (env : Environment) (package head : Nat) (uses : Nat → UseRecord)
    (count : Nat) : UsesChanged env
      { env with
        uses := uses
        packages := Function.update env.packages package { env.packages package with uses := head }
        useCount := count } := by
  let record := { env.packages package with uses := head }
  refine ⟨⟨rfl, rfl, fun _ => ⟨rfl, rfl⟩, rfl, ?_, rfl, rfl, rfl, rfl⟩, rfl, rfl, rfl, ?_, rfl⟩
  · exact fun place => ⟨field_update PackageRecord.name env.packages package record rfl place,
      field_update PackageRecord.length env.packages package record rfl place⟩
  · exact fun place => field_update PackageRecord.present env.packages package record rfl place

/-- An edge has been added in front of the chain of a package. -/
structure UseAdded (before after : Environment) (package used : Nat) : Prop where
  changed : UsesChanged before after
  useCount : after.useCount = before.useCount + 1
  uses : after.uses = Function.update before.uses (before.useCount + 1)
    { package := used, next := (before.packages package).uses }
  heads : (fun place => (after.packages place).uses) =
    Function.update (fun place => (before.packages place).uses) package (before.useCount + 1)

theorem linkUse_added {package used : Nat} (valid : env.packageValid package = true)
    (isUsed : env.packageValid used = true) (clean : env.error = .none)
    (fresh : env.hasUse package used = false) (room : env.useCount < env.useCapacity) :
    (env.linkUse package used).1 = 1 ∧ UseAdded env (env.linkUse package used).2 package used := by
  have hasRoom : recordRoom env.useCount env.useCapacity = true := decide_eq_true room
  rw [linkUse, if_pos clean, if_pos valid, if_pos isUsed, if_neg (Bool.eq_false_iff.mp fresh),
    if_pos hasRoom]
  exact ⟨rfl, usesChanged_heads env package _ _ _, rfl, rfl,
    Function.comp_update PackageRecord.uses env.packages package _⟩

namespace UseAdded

variable {after : Environment} {package used : Nat}

theorem represents (added : UseAdded env after package used)
    (represents : env.Represents refs edges) (valid : env.packageValid package = true)
    (isUsed : env.packageValid used = true) :
    after.Represents refs
      (Function.update edges package ((env.useCount + 1) :: edges package)) := by
  have old : ∀ place, ∀ edge ∈ edges place, after.uses edge = env.uses edge := by
    intro place edge member
    have bound := represents.used.bounded place edge member
    rw [added.uses, Function.update_of_ne (by omega)]
  apply added.changed.represents represents
  · intro place invalid
    have other : place ≠ package := by
      rintro rfl
      rw [invalid] at valid
      cases valid
    exact (Function.update_of_ne other _ _).trans (represents.outside place invalid).2
  · rw [added.useCount]
    apply represents.used.push
    · rw [added.uses, Function.update_self]
    · intro cell bound
      rw [added.uses, Function.update_of_ne (by omega)]
    · exact added.heads
  · intro place edge member
    by_cases here : place = package
    · subst here
      rw [Function.update_self] at member
      cases List.mem_cons.mp member with
      | inl same =>
          rw [same, added.uses, Function.update_self]
          exact isUsed
      | inr earlier =>
          rw [old place edge earlier]
          exact represents.packages place edge earlier
    · rw [Function.update_of_ne here] at member
      rw [old place edge member]
      exact represents.packages place edge member

theorem registryOf_eq (added : UseAdded env after package used)
    (represents : env.Represents refs edges) :
    after.registryOf refs (Function.update edges package ((env.useCount + 1) :: edges package)) =
      { env.registryOf refs edges with
        uses := Function.update (env.registryOf refs edges).uses package
          (used :: (env.registryOf refs edges).uses package) } := by
  have old : ∀ place, (edges place).map (fun edge => (after.uses edge).package) =
      (edges place).map (fun edge => (env.uses edge).package) := by
    intro place
    apply List.map_congr_left
    intro edge member
    have bound := represents.used.bounded place edge member
    rw [added.uses, Function.update_of_ne (by omega)]
  have uses : (fun place => (Function.update edges package ((env.useCount + 1) :: edges package)
      place).map fun edge => (after.uses edge).package) =
      Function.update (env.registryOf refs edges).uses package
        (used :: (env.registryOf refs edges).uses package) := by
    funext place
    by_cases here : place = package
    · subst here
      rw [Function.update_self, Function.update_self, List.map_cons, old, added.uses,
        Function.update_self]
      rfl
    · rw [Function.update_of_ne here, Function.update_of_ne here, old]
      rfl
  rw [added.changed.registryOf_eq refs edges, uses]

end UseAdded

/-- A package that stops using another one loses an edge to it, if it has one. -/
theorem unlinkUse_represents (represents : env.Represents refs edges) {package : Nat}
    (valid : env.packageValid package = true) (used : Nat) :
    ∃ fewer, fewer ⊆ edges package ∧ UsesChanged env (env.unlinkUse package used) ∧
      (env.unlinkUse package used).Represents refs (Function.update edges package fewer) ∧
      ∀ edge, ((env.unlinkUse package used).uses edge).package = (env.uses edge).package := by
  have same : UsesChanged env env :=
    ⟨⟨rfl, rfl, fun _ => ⟨rfl, rfl⟩, rfl, fun _ => ⟨rfl, rfl⟩, rfl, rfl, rfl, rfl⟩, rfl, rfl, rfl,
      fun _ => rfl, rfl⟩
  have chain := represents.used.linked package valid
  by_cases found : ∃ edge ∈ edges package, decide ((env.uses edge).package = used) = true
  · obtain ⟨before, target, later, split, leads, passes⟩ := exists_first found
    have length := represents.used.length_le valid
    rw [split, List.length_append, List.length_cons] at length
    have sought := @seek_found (fun edge => (env.uses edge).next)
      (fun edge => decide ((env.uses edge).package = used)) target leads before later
      (env.packages package).uses 0 env.useCount (split ▸ chain) passes (by omega)
    have fewer : before ++ later ⊆ edges package := by
      rw [split]
      exact (List.Sublist.append_left (List.sublist_cons_self _ _) _).subset
    have outside : ∀ place, env.packageValid place = false →
        Function.update edges package (before ++ later) place = [] := by
      intro place invalid
      have other : place ≠ package := by
        rintro rfl
        rw [invalid] at valid
        cases valid
      exact (Function.update_of_ne other _ _).trans (represents.outside place invalid).2
    have valids : ∀ place, ∀ edge ∈ Function.update edges package (before ++ later) place,
        env.packageValid (env.uses edge).package = true := by
      intro place edge member
      apply represents.packages place
      by_cases here : place = package
      · subst here
        rw [Function.update_self] at member
        exact fewer member
      · rwa [Function.update_of_ne here] at member
    refine ⟨before ++ later, fewer, ?_⟩
    by_cases isFirst : before = []
    · subst isFirst
      have shape : env.unlinkUse package used =
          { env with
            packages := Function.update env.packages package
              { env.packages package with uses := (env.uses target).next } } := by
        rw [unlinkUse, sought]
        rfl
      have changed := usesChanged_heads env package (env.uses target).next env.uses env.useCount
      rw [shape]
      refine ⟨changed, changed.represents represents outside ?_ valids, fun _ => rfl⟩
      apply represents.used.remove split
      · exact Function.comp_update PackageRecord.uses env.packages package _
      · rfl
    · have prior : lastOr 0 before ≠ 0 := by
        apply lastOr_ne_zero isFirst
        intro cell member
        exact chain.ne_zero cell (split ▸ List.mem_append_left _ member)
      have shape : env.unlinkUse package used =
          { env with
            uses := Function.update env.uses (lastOr 0 before)
              { env.uses (lastOr 0 before) with next := (env.uses target).next } } := by
        rw [unlinkUse, sought]
        split
        · rename_i absurd
          cases absurd
        · rename_i zero
          exact absurd (congrArg Prod.fst (Option.some.inj zero)) prior
        · rename_i found
          cases found
          rfl
      have changed : UsesChanged env
          { env with
            uses := Function.update env.uses (lastOr 0 before)
              { env.uses (lastOr 0 before) with next := (env.uses target).next } } :=
        ⟨⟨rfl, rfl, fun _ => ⟨rfl, rfl⟩, rfl, fun _ => ⟨rfl, rfl⟩, rfl, rfl, rfl, rfl⟩, rfl, rfl,
          rfl, fun _ => rfl, rfl⟩
      have leadsSame := field_update UseRecord.package env.uses (lastOr 0 before)
        { env.uses (lastOr 0 before) with next := (env.uses target).next } rfl
      rw [shape]
      refine ⟨changed, changed.represents represents outside ?_ ?_, leadsSame⟩
      · apply represents.used.remove split
        · rw [if_neg isFirst]
        · rw [if_neg isFirst]
          exact Function.comp_update UseRecord.next env.uses (lastOr 0 before) _
      · intro place edge member
        exact (leadsSame edge).symm ▸ valids place edge member
  · have absent : ∀ edge ∈ edges package, decide ((env.uses edge).package = used) = false :=
      fun edge member => decide_eq_false fun leads =>
        found ⟨edge, member, decide_eq_true leads⟩
    have shape : env.unlinkUse package used = env := by
      rw [unlinkUse, seek_absent chain absent]
    rw [shape]
    refine ⟨edges package, List.Subset.refl _, same, ?_, fun _ => rfl⟩
    rw [Function.update_eq_self]
    exact represents

end Environment

end Native
