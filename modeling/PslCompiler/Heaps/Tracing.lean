import Mathlib.Data.List.Basic
import Mathlib.Data.List.Nodup
import Mathlib.Data.List.Perm.Subperm
import Mathlib.Tactic

/-! # Tracing with a work list

A trace enters the nodes that its roots name into a work list. It visits the entries in order and
enters what they name at the end of the list, each node once. When the visit has caught up with the
list, the list holds exactly the nodes that can be reached.
-/

namespace Heaps

variable {Node : Type} [DecidableEq Node]

/-- Enter a node that is present and has not been entered. -/
def enter (present : Node → Bool) (work : List Node) (node : Node) : List Node :=
  if present node = true ∧ node ∉ work then work ++ [node] else work

/-- Enter the nodes of a list in order. -/
def enterAll (present : Node → Bool) (work nodes : List Node) : List Node :=
  nodes.foldl (enter present) work

/-- Visit the entries from an index on. -/
def trace (present : Node → Bool) (children : Node → List Node) :
    Nat → Nat → List Node → Option (List Node)
  | 0, index, work => if index < work.length then none else some work
  | rounds + 1, index, work =>
      if inside : index < work.length then
        trace present children rounds (index + 1) (enterAll present work (children work[index]))
      else some work

/-- What can be reached from the roots through nodes that are present. -/
inductive Reached (present : Node → Bool) (children : Node → List Node) (roots : List Node) :
    Node → Prop
  | root {node : Node} (named : node ∈ roots) (here : present node = true) :
      Reached present children roots node
  | child {node next : Node} (before : Reached present children roots node)
      (named : next ∈ children node) (here : present next = true) :
      Reached present children roots next

section Entering

variable {present : Node → Bool} {work nodes : List Node} {node : Node}

@[simp] theorem enterAll_nil : enterAll present work [] = work := rfl

@[simp] theorem enterAll_cons :
    enterAll present work (node :: nodes) = enterAll present (enter present work node) nodes := rfl

theorem enterAll_append {first second : List Node} :
    enterAll present work (first ++ second) = enterAll present (enterAll present work first) second :=
  List.foldl_append

theorem mem_enter {other : Node} :
    other ∈ enter present work node ↔ other ∈ work ∨ other = node ∧ present node = true := by
  unfold enter
  split
  · rename_i fresh
    simp [fresh.1]
  · rename_i old
    constructor
    · exact .inl
    · rintro (member | ⟨rfl, here⟩)
      · exact member
      · exact Decidable.of_not_not fun absent => old ⟨here, absent⟩

theorem enter_nodup (distinct : work.Nodup) : (enter present work node).Nodup := by
  unfold enter
  split
  · rename_i fresh
    rw [List.nodup_append]
    refine ⟨distinct, List.nodup_singleton node, ?_⟩
    rintro left member right single rfl
    rw [List.mem_singleton] at single
    exact fresh.2 (single ▸ member)
  · exact distinct

theorem enter_prefix : work <+: enter present work node := by
  unfold enter
  split
  · exact List.prefix_append work [node]
  · exact List.prefix_rfl

theorem mem_enterAll {other : Node} :
    other ∈ enterAll present work nodes ↔ other ∈ work ∨ other ∈ nodes ∧ present other = true := by
  induction nodes generalizing work with
  | nil => simp
  | cons node rest ih =>
      rw [enterAll_cons, ih, mem_enter, List.mem_cons]
      constructor
      · rintro ((member | ⟨rfl, here⟩) | ⟨member, here⟩)
        · exact .inl member
        · exact .inr ⟨.inl rfl, here⟩
        · exact .inr ⟨.inr member, here⟩
      · rintro (member | ⟨rfl | member, here⟩)
        · exact .inl (.inl member)
        · exact .inl (.inr ⟨rfl, here⟩)
        · exact .inr ⟨member, here⟩

theorem enterAll_nodup (distinct : work.Nodup) : (enterAll present work nodes).Nodup := by
  induction nodes generalizing work with
  | nil => exact distinct
  | cons node rest ih => exact ih (enter_nodup distinct)

theorem enterAll_prefix : work <+: enterAll present work nodes := by
  induction nodes generalizing work with
  | nil => exact List.prefix_rfl
  | cons node rest ih => exact enter_prefix.trans ih

end Entering

section Trace

variable {present : Node → Bool} {children : Node → List Node} {roots : List Node}

/-- The work list of a trace whose visit stands at an index. -/
structure Tracing (present : Node → Bool) (children : Node → List Node) (roots : List Node)
    (index : Nat) (work : List Node) : Prop where
  distinct : work.Nodup
  sound : ∀ node ∈ work, Reached present children roots node
  rooted : ∀ node ∈ roots, present node = true → node ∈ work
  visited : ∀ earlier (inside : earlier < work.length), earlier < index →
    ∀ next ∈ children work[earlier], present next = true → next ∈ work

omit [DecidableEq Node] in
theorem Reached.here {node : Node} (reached : Reached present children roots node) :
    present node = true := by
  cases reached with
  | root _ here => exact here
  | child _ _ here => exact here

omit [DecidableEq Node] in
/-- Roots that name more nodes reach more nodes. -/
theorem Reached.mono {more : List Node} (within : roots ⊆ more) {node : Node}
    (reached : Reached present children roots node) : Reached present children more node := by
  induction reached with
  | root named here => exact .root (within named) here
  | child _ named here ih => exact .child ih named here

theorem Tracing.start : Tracing present children roots 0 (enterAll present [] roots) where
  distinct := enterAll_nodup List.nodup_nil
  sound := by
    intro node member
    obtain nothing | ⟨named, here⟩ := mem_enterAll.mp member
    · cases nothing
    · exact .root named here
  rooted node named here := mem_enterAll.mpr (.inr ⟨named, here⟩)
  visited earlier _ before := (Nat.not_lt_zero earlier before).elim

/-- The visit of one entry. -/
theorem Tracing.visit {index : Nat} {work : List Node}
    (tracing : Tracing present children roots index work) (inside : index < work.length) :
    Tracing present children roots (index + 1) (enterAll present work (children work[index])) where
  distinct := enterAll_nodup tracing.distinct
  sound := by
    intro node member
    obtain old | ⟨named, here⟩ := mem_enterAll.mp member
    · exact tracing.sound node old
    · exact .child (tracing.sound _ (List.getElem_mem inside)) named here
  rooted node named here := mem_enterAll.mpr (.inl (tracing.rooted node named here))
  visited := by
    intro earlier bound before next named here
    obtain ⟨more, grown⟩ : work <+: enterAll present work (children work[index]) := enterAll_prefix
    have old : earlier < work.length := by omega
    have same : (enterAll present work (children work[index]))[earlier] = work[earlier] := by
      simp only [← grown]
      exact List.getElem_append_left old
    rw [same] at named
    obtain now | sooner := Nat.eq_or_lt_of_le (Nat.le_of_lt_succ before)
    · subst now
      exact mem_enterAll.mpr (.inr ⟨named, here⟩)
    · exact mem_enterAll.mpr (.inl (tracing.visited earlier old sooner next named here))

omit [DecidableEq Node] in
theorem Tracing.complete {index : Nat} {work : List Node}
    (tracing : Tracing present children roots index work) (done : work.length ≤ index)
    {node : Node} (reached : Reached present children roots node) : node ∈ work := by
  induction reached with
  | root named here => exact tracing.rooted _ named here
  | child before named here ih =>
      obtain ⟨earlier, inside, rfl⟩ := List.getElem_of_mem ih
      exact tracing.visited earlier inside (inside.trans_le done) _ named here

omit [DecidableEq Node] in
/-- A work list without repetitions is no longer than the list of all nodes. -/
theorem Tracing.length_le {index : Nat} {work all : List Node}
    (tracing : Tracing present children roots index work)
    (known : ∀ node, present node = true → node ∈ all) : work.length ≤ all.length :=
  (tracing.distinct.subperm fun node member =>
    known node (tracing.sound node member).here).length_le

theorem Tracing.finish {all : List Node} (known : ∀ node, present node = true → node ∈ all) :
    ∀ (rounds index : Nat) (work : List Node), Tracing present children roots index work →
      all.length ≤ rounds + index →
      ∃ result, trace present children rounds index work = some result ∧ result.Nodup ∧
        ∀ node, node ∈ result ↔ Reached present children roots node := by
  intro rounds
  induction rounds with
  | zero =>
      intro index work tracing enough
      have done : work.length ≤ index := by
        have := tracing.length_le known
        omega
      refine ⟨work, if_neg (by omega), tracing.distinct, fun node => ?_⟩
      exact ⟨tracing.sound node, tracing.complete done⟩
  | succ rounds ih =>
      intro index work tracing enough
      by_cases inside : index < work.length
      · obtain ⟨result, traced, exact_⟩ := ih (index + 1) _ (tracing.visit inside) (by omega)
        exact ⟨result, by rw [trace, dif_pos inside, traced], exact_⟩
      · refine ⟨work, by rw [trace, dif_neg inside], tracing.distinct, fun node => ?_⟩
        exact ⟨tracing.sound node, tracing.complete (by omega)⟩

/-- A trace with a round for each node ends, and its list holds what can be reached. -/
theorem trace_reached (children : Node → List Node) (roots : List Node) {all : List Node}
    (known : ∀ node, present node = true → node ∈ all) {rounds : Nat} (enough : all.length ≤ rounds) :
    ∃ result, trace present children rounds 0 (enterAll present [] roots) = some result ∧
      result.Nodup ∧ ∀ node, node ∈ result ↔ Reached present children roots node :=
  Tracing.start.finish known rounds 0 _ enough

end Trace

end Heaps
