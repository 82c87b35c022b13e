import Mathlib.Data.List.Basic
import Mathlib.Data.List.Nodup
import Mathlib.Data.List.Perm.Subperm
import Mathlib.Logic.Function.Basic

/-! # Linked lists in an arena

A table of links chains numbered cells; zero ends a chain. A chain is read by following its links
(`trace`), a cell is put in front of it, and a cell is taken out by redirecting the link that
points to it (`seek`). `Linked` relates a chain to the list of its cells, and `Family` the chains of several owners over
one table, which have no cell in common.
-/

namespace Chains

/-- The cells of a chain that starts with a link. -/
def Linked (next : Nat → Nat) : Nat → List Nat → Prop
  | start, [] => start = 0
  | start, cell :: rest => start = cell ∧ cell ≠ 0 ∧ Linked next (next cell) rest

/-- Follow the links of a chain, for a number of cells at most. -/
def trace (next : Nat → Nat) : Nat → Nat → List Nat
  | 0, _ => []
  | count + 1, start => if start = 0 then [] else start :: trace next count (next start)

variable {next : Nat → Nat}

theorem Linked.trace_eq : ∀ {cells : List Nat} {start count : Nat}, Linked next start cells →
    cells.length ≤ count → trace next count start = cells := by
  intro cells
  induction cells with
  | nil =>
      intro start count linked _
      have ended : start = 0 := linked
      subst ended
      cases count <;> rfl
  | cons cell rest ih =>
      intro start count linked bound
      obtain ⟨rfl, positive, linked⟩ := linked
      obtain ⟨less, rfl⟩ := Nat.exists_eq_succ_of_ne_zero (Nat.ne_zero_of_lt bound)
      rw [trace, if_neg positive, ih linked (Nat.le_of_succ_le_succ bound)]

theorem Linked.ne_zero : ∀ {cells : List Nat} {start : Nat}, Linked next start cells →
    ∀ cell ∈ cells, cell ≠ 0 := by
  intro cells
  induction cells with
  | nil => exact fun _ _ member => absurd member List.not_mem_nil
  | cons cell rest ih =>
      intro start linked other member
      obtain ⟨_, positive, linked⟩ := linked
      cases List.mem_cons.mp member with
      | inl same => exact same ▸ positive
      | inr later => exact ih linked other later

/-- A chain depends on the links of its own cells only. -/
theorem Linked.congr {other : Nat → Nat} : ∀ {cells : List Nat} {start : Nat},
    Linked next start cells → (∀ cell ∈ cells, other cell = next cell) →
      Linked other start cells := by
  intro cells
  induction cells with
  | nil => exact fun linked _ => linked
  | cons cell rest ih =>
      intro start linked same
      obtain ⟨begins, positive, linked⟩ := linked
      refine ⟨begins, positive, ?_⟩
      rw [same cell List.mem_cons_self]
      exact ih linked fun later member => same later (List.mem_cons_of_mem cell member)

/-- A new cell goes in front of a chain. -/
theorem Linked.push {other : Nat → Nat} {start cell : Nat} {cells : List Nat}
    (linked : Linked next start cells) (positive : cell ≠ 0) (points : other cell = start)
    (same : ∀ old ∈ cells, other old = next old) : Linked other cell (cell :: cells) := by
  refine ⟨rfl, positive, ?_⟩
  rw [points]
  exact linked.congr same

/-- Search a chain for a cell, with the cell before it; zero before the first. -/
def seek (next : Nat → Nat) (stop : Nat → Bool) : Nat → Nat → Nat → Option (Nat × Nat)
  | 0, _, _ => none
  | count + 1, prior, cell =>
      if cell = 0 then none
      else if stop cell then some (prior, cell)
      else seek next stop count cell (next cell)

/-- The cell before the end of a list, or a cell before the whole list. -/
def lastOr (prior : Nat) (cells : List Nat) : Nat :=
  cells.getLast?.getD prior

theorem lastOr_ne_zero {cells : List Nat} (some : cells ≠ [])
    (positive : ∀ cell ∈ cells, cell ≠ 0) : lastOr 0 cells ≠ 0 := by
  rw [lastOr, List.getLast?_eq_getLast_of_ne_nil some]
  exact positive _ (List.getLast_mem some)

/-- A list with a cell to stop at, up to the first one. -/
theorem exists_first {stop : Nat → Bool} {cells : List Nat}
    (found : ∃ cell ∈ cells, stop cell = true) :
    ∃ before target after, cells = before ++ target :: after ∧ stop target = true ∧
      ∀ cell ∈ before, stop cell = false := by
  obtain ⟨cell, member, stops⟩ := found
  obtain ⟨target, first⟩ := Option.isSome_iff_exists.mp
    (List.find?_isSome.mpr ⟨cell, member, stops⟩)
  obtain ⟨stopsThere, before, after, shape, passes⟩ := List.find?_eq_some_iff_append.mp first
  exact ⟨before, target, after, shape, stopsThere, fun other inside => by
    simpa only [Bool.not_eq_true'] using passes other inside⟩

theorem seek_found {stop : Nat → Bool} {target : Nat} (stops : stop target = true) :
    ∀ {before after : List Nat} {start prior count : Nat},
      Linked next start (before ++ target :: after) → (∀ cell ∈ before, stop cell = false) →
      before.length < count → seek next stop count prior start =
        some (lastOr prior before, target) := by
  intro before
  induction before with
  | nil =>
      intro after start prior count linked _ bound
      obtain ⟨less, rfl⟩ := Nat.exists_eq_succ_of_ne_zero (Nat.ne_zero_of_lt bound)
      obtain ⟨rfl, positive, _⟩ := linked
      rw [seek, if_neg positive, if_pos stops]
      rfl
  | cons cell before ih =>
      intro after start prior count linked passes bound
      obtain ⟨less, rfl⟩ := Nat.exists_eq_succ_of_ne_zero (Nat.ne_zero_of_lt bound)
      obtain ⟨rfl, positive, linked⟩ := linked
      rw [seek, if_neg positive, passes start List.mem_cons_self, if_neg Bool.false_ne_true,
        ih linked (fun later member => passes later (List.mem_cons_of_mem _ member))
          (Nat.lt_of_succ_lt_succ bound)]
      simp only [lastOr, List.getLast?_cons, Option.getD_some]

theorem seek_absent {stop : Nat → Bool} : ∀ {cells : List Nat} {start prior count : Nat},
    Linked next start cells → (∀ cell ∈ cells, stop cell = false) →
      seek next stop count prior start = none := by
  intro cells
  induction cells with
  | nil =>
      intro start prior count linked _
      have ended : start = 0 := linked
      subst ended
      cases count <;> rfl
  | cons cell rest ih =>
      intro start prior count linked passes
      obtain ⟨rfl, positive, linked⟩ := linked
      cases count with
      | zero => rfl
      | succ count =>
          rw [seek, if_neg positive, passes start List.mem_cons_self, if_neg Bool.false_ne_true]
          exact ih linked fun later member => passes later (List.mem_cons_of_mem _ member)

/-- Redirecting the link before a cell takes the cell out of its chain. -/
theorem Linked.remove {target : Nat} : ∀ {before after : List Nat} {start : Nat},
    Linked next start (before ++ target :: after) → (before ++ target :: after).Nodup →
      Linked (if before = [] then next
          else Function.update next (lastOr 0 before) (next target))
        (if before = [] then next target else start) (before ++ after) := by
  intro before
  induction before with
  | nil =>
      intro after start linked _
      obtain ⟨_, _, linked⟩ := linked
      simpa only [↓reduceIte, List.nil_append] using linked
  | cons cell before ih =>
      intro after start linked distinct
      obtain ⟨rfl, positive, linked⟩ := linked
      obtain ⟨fresh, distinct⟩ := List.nodup_cons.mp distinct
      have removed := ih linked distinct
      simp only [List.cons_ne_nil, ↓reduceIte, List.cons_append]
      refine ⟨rfl, positive, ?_⟩
      cases before with
      | nil =>
          simp only [↓reduceIte, List.nil_append] at removed
          have last : lastOr 0 [start] = start := rfl
          rw [last, Function.update_self]
          apply removed.congr
          intro later member
          have other : later ≠ start := by
            rintro rfl
            exact fresh (List.mem_append_right _ (List.mem_cons_of_mem _ member))
          exact Function.update_of_ne other _ _
      | cons second before =>
          simp only [List.cons_ne_nil, ↓reduceIte] at removed
          have last : lastOr 0 (start :: second :: before) = lastOr 0 (second :: before) := by
            simp only [lastOr, List.getLast?_cons, Option.getD_some]
          have other : start ≠ lastOr 0 (second :: before) := by
            intro same
            apply fresh
            rw [same]
            apply List.mem_append_left
            rw [lastOr, List.getLast?_eq_getLast_of_ne_nil (List.cons_ne_nil _ _)]
            exact List.getLast_mem _
          rw [last, Function.update_of_ne other]
          exact removed

/-- Chains of several owners over one table of cells. -/
structure Family {Owner : Type} (valid : Owner → Prop) (count : Nat) (head : Owner → Nat)
    (next : Nat → Nat) (cells : Owner → List Nat) : Prop where
  linked : ∀ owner, valid owner → Linked next (head owner) (cells owner)
  bounded : ∀ owner, ∀ cell ∈ cells owner, cell ≤ count
  distinct : ∀ owner, (cells owner).Nodup
  apart : ∀ one two, one ≠ two → ∀ cell ∈ cells one, cell ∉ cells two

namespace Family

variable {Owner : Type} {valid : Owner → Prop} {count : Nat} {head : Owner → Nat}
  {cells : Owner → List Nat}

theorem congr {other : Nat → Nat} {first : Owner → Nat} {more : Nat} (family : Family valid count
    head next cells) (heads : ∀ owner, valid owner → first owner = head owner)
    (links : ∀ owner, valid owner → ∀ cell ∈ cells owner, other cell = next cell)
    (grows : count ≤ more) : Family valid more first other cells where
  linked owner isValid := by
    rw [heads owner isValid]
    exact (family.linked owner isValid).congr (links owner isValid)
  bounded owner cell member := Nat.le_trans (family.bounded owner cell member) grows
  distinct := family.distinct
  apart := family.apart

/-- A chain has no more cells than the table. -/
theorem length_le (family : Family valid count head next cells) {owner : Owner}
    (isValid : valid owner) : (cells owner).length ≤ count := by
  have inside : cells owner ⊆ List.range' 1 count := by
    intro cell member
    have positive := (family.linked owner isValid).ne_zero cell member
    have bounded := family.bounded owner cell member
    exact List.mem_range'_1.mpr ⟨by omega, by omega⟩
  have bound := (List.subperm_of_subset (family.distinct owner) inside).length_le
  rwa [List.length_range'] at bound

theorem trace_eq (family : Family valid count head next cells) {owner : Owner}
    (isValid : valid owner) : trace next count (head owner) = cells owner :=
  (family.linked owner isValid).trace_eq (family.length_le isValid)

variable [DecidableEq Owner]

/-- The next free cell goes in front of a chain. -/
theorem push {other : Nat → Nat} {first : Owner → Nat} {owner : Owner}
    (family : Family valid count head next cells) (points : other (count + 1) = head owner)
    (links : ∀ cell ≤ count, other cell = next cell)
    (heads : first = Function.update head owner (count + 1)) :
    Family valid (count + 1) first other
      (Function.update cells owner ((count + 1) :: cells owner)) where
  linked one isValid := by
    have kept : ∀ cell ∈ cells one, other cell = next cell := fun cell member =>
      links cell (family.bounded one cell member)
    rw [heads]
    by_cases here : one = owner
    · subst here
      rw [Function.update_self, Function.update_self]
      exact (family.linked one isValid).push (Nat.succ_ne_zero _) points kept
    · rw [Function.update_of_ne here, Function.update_of_ne here]
      exact (family.linked one isValid).congr kept
  bounded one cell member := by
    by_cases here : one = owner
    · subst here
      rw [Function.update_self] at member
      cases List.mem_cons.mp member with
      | inl same => exact Nat.le_of_eq same
      | inr old => exact Nat.le_succ_of_le (family.bounded one cell old)
    · rw [Function.update_of_ne here] at member
      exact Nat.le_succ_of_le (family.bounded one cell member)
  distinct one := by
    by_cases here : one = owner
    · subst here
      rw [Function.update_self]
      refine List.nodup_cons.mpr ⟨fun member => ?_, family.distinct one⟩
      exact absurd (family.bounded one _ member) (Nat.not_succ_le_self _)
    · rw [Function.update_of_ne here]
      exact family.distinct one
  apart one two different cell member other := by
    by_cases here : one = owner
    · subst here
      rw [Function.update_self] at member
      rw [Function.update_of_ne different.symm] at other
      cases List.mem_cons.mp member with
      | inl same => exact absurd (family.bounded two cell other) (by omega)
      | inr old => exact family.apart one two different cell old other
    · rw [Function.update_of_ne here] at member
      by_cases there : two = owner
      · subst there
        rw [Function.update_self] at other
        cases List.mem_cons.mp other with
        | inl same => exact absurd (family.bounded one cell member) (by omega)
        | inr old => exact family.apart one two different cell member old
      · rw [Function.update_of_ne there] at other
        exact family.apart one two different cell member other

/-- Taking a cell out of a chain. -/
theorem remove {other : Nat → Nat} {first : Owner → Nat} {owner : Owner} {target : Nat}
    {before after : List Nat} (family : Family valid count head next cells)
    (shape : cells owner = before ++ target :: after)
    (heads : first = if before = [] then Function.update head owner (next target) else head)
    (links : other = if before = [] then next
      else Function.update next (lastOr 0 before) (next target)) :
    Family valid count first other (Function.update cells owner (before ++ after)) where
  linked one isValid := by
    have chain := family.linked one isValid
    by_cases here : one = owner
    · subst here
      have removed := Linked.remove (shape ▸ chain) (shape ▸ family.distinct one)
      rw [Function.update_self, heads, links]
      by_cases isFirst : before = []
      · simp only [isFirst, ↓reduceIte, List.nil_append] at removed ⊢
        rw [Function.update_self]
        exact removed
      · simp only [isFirst, ↓reduceIte] at removed ⊢
        exact removed
    · rw [Function.update_of_ne here, heads, links]
      by_cases isFirst : before = []
      · simp only [isFirst, ↓reduceIte]
        rw [Function.update_of_ne here]
        exact chain
      · simp only [isFirst, ↓reduceIte]
        apply chain.congr
        intro cell member
        apply Function.update_of_ne
        rintro rfl
        refine family.apart one owner here _ member ?_
        rw [shape, lastOr, List.getLast?_eq_getLast_of_ne_nil isFirst]
        exact List.mem_append_left _ (List.getLast_mem isFirst)
  bounded one cell member := by
    apply family.bounded one
    by_cases here : one = owner
    · subst here
      rw [Function.update_self] at member
      rw [shape]
      exact (List.Sublist.append_left (List.sublist_cons_self _ _) _).subset member
    · rwa [Function.update_of_ne here] at member
  distinct one := by
    by_cases here : one = owner
    · subst here
      have distinct := family.distinct one
      rw [shape] at distinct
      rw [Function.update_self]
      exact distinct.sublist (List.Sublist.append_left (List.sublist_cons_self _ _) _)
    · rw [Function.update_of_ne here]
      exact family.distinct one
  apart one two different cell member also := by
    have subset : ∀ place, Function.update cells owner (before ++ after) place ⊆ cells place := by
      intro place
      by_cases here : place = owner
      · subst here
        rw [Function.update_self, shape]
        exact (List.Sublist.append_left (List.sublist_cons_self _ _) _).subset
      · rw [Function.update_of_ne here]
        exact List.Subset.refl _
    exact family.apart one two different cell (subset one member) (subset two also)

end Family

end Chains
