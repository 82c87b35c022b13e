import PslCompiler.Native.PackageChanges

/-! # Removing a presence

A presence goes off the chain of its bucket first and off the chain of its package next. Its symbol
loses its home if that is the package.
-/

namespace Native

open Chains Visibility

namespace Environment

variable {env : Environment} {refs edges : Nat → List Nat}

/-- The presences among some that have a hash. -/
def slotCells (env : Environment) (cells : List Nat) (slot : Nat) : List Nat :=
  cells.filter fun reference => env.slotOf reference = slot

theorem slotCells_cons_self (env : Environment) (entry : Nat) (cells : List Nat) :
    env.slotCells (entry :: cells) (env.slotOf entry) =
      entry :: env.slotCells cells (env.slotOf entry) :=
  List.filter_cons_of_pos (p := fun reference => env.slotOf reference = env.slotOf entry)
    (decide_eq_true rfl)

theorem slotCells_cons_ne (env : Environment) {entry slot : Nat} (other : env.slotOf entry ≠ slot)
    (cells : List Nat) : env.slotCells (entry :: cells) slot = env.slotCells cells slot :=
  List.filter_cons_of_neg (p := fun reference => env.slotOf reference = slot)
    (by simpa only [decide_eq_true_eq] using other)

theorem slotCells_append (env : Environment) (front back : List Nat) (slot : Nat) :
    env.slotCells (front ++ back) slot = env.slotCells front slot ++ env.slotCells back slot :=
  List.filter_append ..

/-- The chains of the buckets, each owned by a package and a hash. -/
theorem Represents.bucketChains (represents : env.Represents refs edges)
    (buckets : env.bucketCount ≠ 0) :
    Family (fun owner : Nat × Nat => env.packageValid owner.1 = true ∧ owner.2 < env.bucketCount)
      env.presentCount (fun owner => env.buckets ((owner.1 - 1) * env.bucketCount + owner.2))
      (fun reference => (env.presences reference).bucketNext)
      (fun owner => env.slotCells (refs owner.1) owner.2) where
  linked owner valid := represents.indexed buckets owner.1 valid.1 owner.2 valid.2
  bounded owner cell member :=
    represents.present.bounded owner.1 cell (List.mem_filter.mp member).1
  distinct owner := (represents.present.distinct owner.1).filter _
  apart one two different cell member also := by
    obtain ⟨inOne, slotOne⟩ := List.mem_filter.mp member
    obtain ⟨inTwo, slotTwo⟩ := List.mem_filter.mp also
    rw [decide_eq_true_eq] at slotOne slotTwo
    by_cases same : one.1 = two.1
    · exact different (Prod.ext same (slotOne.symm.trans slotTwo))
    · exact represents.present.apart one.1 two.1 same cell inOne inTwo

/-- Without one presence, the presences of its own hash are fewer, and no others. -/
theorem slotCells_removed {package entry : Nat} {before later : List Nat}
    (shape : refs package = before ++ entry :: later) (owner : Nat × Nat) :
    env.slotCells (Function.update refs package (before ++ later) owner.1) owner.2 =
      Function.update (fun owner : Nat × Nat => env.slotCells (refs owner.1) owner.2)
        (package, env.slotOf entry)
        (env.slotCells before (env.slotOf entry) ++ env.slotCells later (env.slotOf entry))
        owner := by
  obtain ⟨place, slot⟩ := owner
  dsimp only
  by_cases here : place = package
  · subst here
    rw [Function.update_self, slotCells_append]
    by_cases same : slot = env.slotOf entry
    · subst same
      rw [Function.update_self]
    · have apart : (place, slot) ≠ (place, env.slotOf entry) := fun both =>
        same (congrArg Prod.snd both)
      rw [Function.update_of_ne apart]
      dsimp only
      rw [shape, slotCells_append, slotCells_cons_ne env (Ne.symm same)]
  · have apart : (place, slot) ≠ (package, env.slotOf entry) := fun both =>
      here (congrArg Prod.fst both)
    rw [Function.update_of_ne here, Function.update_of_ne apart]

/-- The bucket of a package and a hash is the bucket of no other ones. -/
theorem bucket_update {package slot : Nat} (valid : env.packageValid package = true)
    (bound : slot < env.bucketCount) (value : Nat) {owner : Nat × Nat}
    (isOwner : env.packageValid owner.1 = true ∧ owner.2 < env.bucketCount) :
    Function.update env.buckets ((package - 1) * env.bucketCount + slot) value
        ((owner.1 - 1) * env.bucketCount + owner.2) =
      Function.update (fun owner : Nat × Nat =>
        env.buckets ((owner.1 - 1) * env.bucketCount + owner.2)) (package, slot) value owner := by
  by_cases here : owner = (package, slot)
  · subst here
    rw [Function.update_self, Function.update_self]
  · rw [Function.update_of_ne here, Function.update_of_ne]
    intro same
    obtain ⟨places, slots⟩ := bucket_injective (packageValid_pos isOwner.1)
      (packageValid_pos valid) isOwner.2 bound same
    exact here (Prod.ext places slots)

/-- Only the chains of the buckets have changed. -/
structure Reindexed (before after : Environment) : Prop where
  kept : Kept before after
  symbols : after.symbols = before.symbols
  uses : after.uses = before.uses
  useCount : after.useCount = before.useCount
  presentCount : after.presentCount = before.presentCount
  packages : after.packages = before.packages
  presences : ∀ reference, ∃ link,
    after.presences reference = { before.presences reference with bucketNext := link }

theorem Reindexed.slotOf {after : Environment} (reindexed : Reindexed env after) (reference : Nat) :
    after.slotOf reference = env.slotOf reference := by
  obtain ⟨link, same⟩ := reindexed.presences reference
  exact reindexed.kept.slotOf (by rw [same])

theorem reindexed_buckets (env : Environment) (links : Nat → PresenceRecord) (buckets : Nat → Nat)
    (same : ∀ reference, ∃ link,
      links reference = { env.presences reference with bucketNext := link }) :
    Reindexed env { env with presences := links, buckets } :=
  ⟨⟨rfl, rfl, fun _ => ⟨rfl, rfl⟩, rfl, fun _ => ⟨rfl, rfl⟩, rfl, rfl, rfl, rfl⟩, rfl, rfl, rfl, rfl,
    rfl, same⟩

/-- A presence is off the chain of its bucket, and the other chains are as they were. -/
theorem unlinkIndex_reindexed (represents : env.Represents refs edges) {package entry : Nat}
    (valid : env.packageValid package = true) {before later : List Nat}
    (shape : refs package = before ++ entry :: later) :
    Reindexed env (env.unlinkIndex package entry) ∧
      (env.bucketCount ≠ 0 → ∀ place, env.packageValid place = true → ∀ slot < env.bucketCount,
        Linked (fun reference => ((env.unlinkIndex package entry).presences reference).bucketNext)
          ((env.unlinkIndex package entry).buckets ((place - 1) * env.bucketCount + slot))
          (env.slotCells (Function.update refs package (before ++ later) place) slot)) := by
  by_cases buckets : env.bucketCount = 0
  · rw [unlinkIndex, if_pos buckets]
    exact ⟨reindexed_buckets env env.presences env.buckets fun _ => ⟨_, rfl⟩,
      fun some => absurd buckets some⟩
  · have family := represents.bucketChains buckets
    have hashed : env.slotOf entry < env.bucketCount := env.hashName_lt _ buckets
    have chained : env.slotCells (refs package) (env.slotOf entry) =
        env.slotCells before (env.slotOf entry) ++
          entry :: env.slotCells later (env.slotOf entry) := by
      rw [shape, slotCells_append, slotCells_cons_self]
    have distinct := represents.present.distinct package
    rw [shape, List.nodup_append] at distinct
    have passes : ∀ cell ∈ env.slotCells before (env.slotOf entry),
        decide (cell = entry) = false := by
      intro cell member
      exact decide_eq_false
        (distinct.2.2 cell (List.mem_filter.mp member).1 entry List.mem_cons_self)
    have owned : env.packageValid (package, env.slotOf entry).1 = true ∧
        (package, env.slotOf entry).2 < env.bucketCount := ⟨valid, hashed⟩
    have chain := family.linked _ owned
    have length := family.length_le owned
    dsimp only at chain length
    rw [chained] at chain length
    rw [List.length_append, List.length_cons] at length
    have sought := @seek_found (fun cell => (env.presences cell).bucketNext)
      (fun cell => decide (cell = entry)) entry (decide_eq_true rfl) _ _ _ 0 env.presentCount
      chain passes (by omega)
    have removed := @Family.remove _ _ _ _ _ _ _ _ _ (package, env.slotOf entry) entry _ _
      family chained rfl rfl
    have rest : ∀ after : Environment,
        (∀ owner : Nat × Nat, env.packageValid owner.1 = true ∧ owner.2 < env.bucketCount →
          after.buckets ((owner.1 - 1) * env.bucketCount + owner.2) =
            (if env.slotCells before (env.slotOf entry) = [] then
              Function.update (fun owner : Nat × Nat =>
                env.buckets ((owner.1 - 1) * env.bucketCount + owner.2))
                (package, env.slotOf entry) (env.presences entry).bucketNext
            else fun owner => env.buckets ((owner.1 - 1) * env.bucketCount + owner.2)) owner) →
        (fun reference => (after.presences reference).bucketNext) =
          (if env.slotCells before (env.slotOf entry) = [] then
            fun reference => (env.presences reference).bucketNext
          else Function.update (fun reference => (env.presences reference).bucketNext)
            (lastOr 0 (env.slotCells before (env.slotOf entry)))
            (env.presences entry).bucketNext) →
        ∀ place, env.packageValid place = true → ∀ slot < env.bucketCount,
          Linked (fun reference => (after.presences reference).bucketNext)
            (after.buckets ((place - 1) * env.bucketCount + slot))
            (env.slotCells (Function.update refs package (before ++ later) place) slot) := by
      intro after heads links place isValid slot bound
      have linked := removed.linked (place, slot) ⟨isValid, bound⟩
      rw [links, heads (place, slot) ⟨isValid, bound⟩, slotCells_removed shape (place, slot)]
      exact linked
    by_cases isFirst : env.slotCells before (env.slotOf entry) = []
    · rw [isFirst] at sought
      have result : env.unlinkIndex package entry =
          { env with
            buckets := Function.update env.buckets
              ((package - 1) * env.bucketCount + env.slotOf entry)
              (env.presences entry).bucketNext } := by
        rw [unlinkIndex, if_neg buckets]
        dsimp only
        rw [bucket, ← slotOf, sought]
        rfl
      rw [result]
      refine ⟨reindexed_buckets env env.presences _ fun _ => ⟨_, rfl⟩, fun _ => rest _ ?_ ?_⟩
      · intro owner isOwner
        rw [if_pos isFirst]
        exact bucket_update valid hashed _ isOwner
      · rw [if_pos isFirst]
    · have last : lastOr 0 (env.slotCells before (env.slotOf entry)) ≠ 0 := by
        apply lastOr_ne_zero isFirst
        exact fun cell member => chain.ne_zero cell (List.mem_append_left _ member)
      have result : env.unlinkIndex package entry =
          { env with
            presences := Function.update env.presences
              (lastOr 0 (env.slotCells before (env.slotOf entry)))
              { env.presences (lastOr 0 (env.slotCells before (env.slotOf entry))) with
                bucketNext := (env.presences entry).bucketNext } } := by
        rw [unlinkIndex, if_neg buckets]
        dsimp only
        rw [bucket, ← slotOf, sought]
        split
        · rename_i zero
          exact absurd (congrArg Prod.fst (Option.some.inj zero)) last
        · rename_i found
          cases found
          rfl
        · rename_i absurd
          cases absurd
      rw [result]
      refine ⟨reindexed_buckets env _ env.buckets ?_, fun _ => rest _ ?_ ?_⟩
      · intro reference
        by_cases here : reference = lastOr 0 (env.slotCells before (env.slotOf entry))
        · subst here
          exact ⟨_, Function.update_self _ _ _⟩
        · exact ⟨_, Function.update_of_ne here _ _⟩
      · intro owner _
        rw [if_neg isFirst]
      · rw [if_neg isFirst]
        exact Function.comp_update PresenceRecord.bucketNext env.presences _ _

/-- The chains of presences have changed, and no entry of them. -/
structure Relinked (before after : Environment) : Prop where
  kept : Kept before after
  symbols : after.symbols = before.symbols
  uses : after.uses = before.uses
  useCount : after.useCount = before.useCount
  presentCount : after.presentCount = before.presentCount
  heads : ∀ package, (after.packages package).uses = (before.packages package).uses
  entries : ∀ reference, after.entryOf reference = before.entryOf reference
  buckets : after.buckets = before.buckets
  links : ∀ reference,
    (after.presences reference).bucketNext = (before.presences reference).bucketNext

/-- Take a presence out of the chain of a package, after the given one. -/
def unlinkNext (env : Environment) (package prior entry : Nat) : Environment :=
  if prior = 0 then
    { env with
      packages := Function.update env.packages package
        { env.packages package with present := (env.presences entry).next } }
  else
    { env with
      presences := Function.update env.presences prior
        { env.presences prior with next := (env.presences entry).next } }

theorem unlinkNext_relinked (env : Environment) (package prior entry : Nat) :
    Relinked env (env.unlinkNext package prior entry) := by
  rw [unlinkNext]
  split
  · let record := { env.packages package with present := (env.presences entry).next }
    refine ⟨⟨rfl, rfl, fun _ => ⟨rfl, rfl⟩, rfl, ?_, rfl, rfl, rfl, rfl⟩, rfl, rfl, rfl, rfl, ?_,
      fun _ => rfl, rfl, fun _ => rfl⟩
    · exact fun place => ⟨field_update PackageRecord.name env.packages package record rfl place,
        field_update PackageRecord.length env.packages package record rfl place⟩
    · exact fun place => field_update PackageRecord.uses env.packages package record rfl place
  · let record := { env.presences prior with next := (env.presences entry).next }
    refine ⟨⟨rfl, rfl, fun _ => ⟨rfl, rfl⟩, rfl, fun _ => ⟨rfl, rfl⟩, rfl, rfl, rfl, rfl⟩, rfl, rfl,
      rfl, rfl, fun _ => rfl, ?_, rfl, ?_⟩
    · intro reference
      let entry := fun record : PresenceRecord =>
        (⟨record.symbol, record.external, record.shadowing⟩ : Entry Nat)
      exact field_update entry env.presences prior record rfl reference
    · exact field_update PresenceRecord.bucketNext env.presences prior record rfl

/-- The tables without one presence of a package. -/
theorem unlinkNext_represents (represents : env.Represents refs edges) {package entry : Nat}
    (valid : env.packageValid package = true) {before later : List Nat}
    (shape : refs package = before ++ entry :: later) :
    ((env.unlinkIndex package entry).unlinkNext package (lastOr 0 before) entry).Represents
        (Function.update refs package (before ++ later)) edges ∧
      Kept env ((env.unlinkIndex package entry).unlinkNext package (lastOr 0 before) entry) ∧
      ((env.unlinkIndex package entry).unlinkNext package (lastOr 0 before) entry).registryOf
          (Function.update refs package (before ++ later)) edges =
        { env.registryOf refs edges with
          present := Function.update (env.registryOf refs edges).present package
            (before.map env.entryOf ++ later.map env.entryOf) } := by
  obtain ⟨reindexed, indexed⟩ := unlinkIndex_reindexed represents valid shape
  have relinked := (env.unlinkIndex package entry).unlinkNext_relinked package (lastOr 0 before)
    entry
  have next : ∀ reference, ((env.unlinkIndex package entry).presences reference).next =
      (env.presences reference).next := by
    intro reference
    obtain ⟨link, same⟩ := reindexed.presences reference
    rw [same]
  have entries : ∀ reference, ((env.unlinkIndex package entry).unlinkNext package
      (lastOr 0 before) entry).entryOf reference = env.entryOf reference := by
    intro reference
    obtain ⟨link, same⟩ := reindexed.presences reference
    rw [relinked.entries, entryOf, entryOf, same]
  have chain := represents.present.linked package valid
  -- The first presence of a package is the one with no presence before it.
  have isFirst : lastOr 0 before = 0 ↔ before = [] := by
    constructor
    · intro zero
      by_contra some
      refine lastOr_ne_zero some ?_ zero
      intro cell member
      exact chain.ne_zero cell (shape ▸ List.mem_append_left _ member)
    · rintro rfl
      rfl
  have subset : ∀ place, Function.update refs package (before ++ later) place ⊆ refs place := by
    intro place
    by_cases here : place = package
    · subst here
      rw [Function.update_self, shape]
      exact (List.Sublist.append_left (List.sublist_cons_self _ _) _).subset
    · rw [Function.update_of_ne here]
      exact List.Subset.refl _
  have family : Family (fun package => env.packageValid package = true) env.presentCount
      (fun place => (((env.unlinkIndex package entry).unlinkNext package (lastOr 0 before)
        entry).packages place).present)
      (fun reference => (((env.unlinkIndex package entry).unlinkNext package (lastOr 0 before)
        entry).presences reference).next)
      (Function.update refs package (before ++ later)) := by
    apply represents.present.remove shape
    · by_cases first : before = []
      · rw [if_pos first, unlinkNext, if_pos (isFirst.mpr first), next, reindexed.packages]
        exact Function.comp_update PackageRecord.present env.packages package _
      · rw [if_neg first, unlinkNext, if_neg fun zero => first (isFirst.mp zero),
          reindexed.packages]
    · by_cases first : before = []
      · rw [if_pos first, unlinkNext, if_pos (isFirst.mpr first)]
        exact funext next
      · rw [if_neg first, unlinkNext, if_neg fun zero => first (isFirst.mp zero), ← funext next,
          ← next entry]
        exact Function.comp_update PresenceRecord.next (env.unlinkIndex package entry).presences
          _ _
  generalize (env.unlinkIndex package entry).unlinkNext package (lastOr 0 before) entry =
    after at relinked entries family
  have kept := reindexed.kept.trans relinked.kept
  refine ⟨kept.represents represents ?_ ?_ ?_ ?_ ?_ ?_, kept, ?_⟩
  · intro place invalid
    obtain ⟨nothing, unused⟩ := represents.outside place invalid
    exact ⟨List.eq_nil_of_subset_nil (nothing ▸ subset place), unused⟩
  · rw [relinked.presentCount, reindexed.presentCount]
    exact family
  · intro buckets place isValid slot bound
    have linked := indexed buckets place isValid slot bound
    have slots : ∀ cells : List Nat, cells.filter (fun reference => after.slotOf reference = slot) =
        env.slotCells cells slot := by
      intro cells
      apply List.filter_congr
      intro reference _
      have same : (after.presences reference).symbol = (env.presences reference).symbol :=
        congrArg Entry.symbol (entries reference)
      rw [kept.slotOf (by rw [same])]
    rw [slots, relinked.buckets]
    exact linked.congr fun cell _ => relinked.links cell
  · rw [relinked.useCount, reindexed.useCount, relinked.uses, reindexed.uses]
    apply represents.used.congr
    · exact fun place _ => by rw [relinked.heads, reindexed.packages]
    · exact fun _ _ _ _ => rfl
    · exact Nat.le_refl _
  · intro place reference member
    have same : (after.presences reference).symbol = (env.presences reference).symbol :=
      congrArg Entry.symbol (entries reference)
    rw [same]
    exact represents.symbols place reference (subset place member)
  · rw [relinked.uses, reindexed.uses]
    exact represents.packages
  · simp only [registryOf, Registry.mk.injEq]
    refine ⟨funext kept.symbolName, ?_, ?_, ?_⟩
    · funext other
      rw [homeOf, homeOf, kept.symbolValid, relinked.symbols, reindexed.symbols]
    · funext place
      rw [funext entries]
      by_cases here : place = package
      · subst here
        rw [Function.update_self, Function.update_self, List.map_append]
      · rw [Function.update_of_ne here, Function.update_of_ne here]
    · rw [relinked.uses, reindexed.uses]

/-- Removing a symbol from a package takes its presence off both chains, and the package is no
longer its home. -/
theorem unlinkPresence_eq (represents : env.Represents refs edges) {package entry : Nat}
    (valid : env.packageValid package = true) {before later : List Nat}
    (shape : refs package = before ++ entry :: later)
    (others : ∀ cell ∈ before, (env.presences cell).symbol ≠ (env.presences entry).symbol) :
    env.unlinkPresence package (env.presences entry).symbol =
      (1, ((env.unlinkIndex package entry).unlinkNext package (lastOr 0 before)
        entry).detachHome package (env.presences entry).symbol) := by
  have length := represents.present.length_le valid
  rw [shape, List.length_append, List.length_cons] at length
  have sought := @seek_found (fun cell => (env.presences cell).next)
    (fun cell => decide ((env.presences cell).symbol = (env.presences entry).symbol)) entry
    (decide_eq_true rfl) before later (env.packages package).present 0 env.presentCount
    (shape ▸ represents.present.linked package valid)
    (fun cell member => decide_eq_false (others cell member)) (by omega)
  rw [unlinkPresence, sought]
  dsimp only
  rw [unlinkNext]

end Environment

end Native
