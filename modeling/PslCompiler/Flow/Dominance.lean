import Mathlib.Data.Finset.Basic
import PslCompiler.Flow.Search

/-! # Trails and dominance

A trail is a walk from the entry of a graph, latest node first. One node dominates another when
every trail that ends in the second contains the first. Two ways of computing dominance are
justified here: a search that avoids the dominating node, and the solution of the usual
set-intersection equations.
-/

namespace Flow

variable {Node : Type} {succ : Node → List Node} {entry : Node}

/-- A walk from the entry, latest node first. -/
inductive Trail (succ : Node → List Node) (entry : Node) : List Node → Prop
  | start : Trail succ entry [entry]
  | extend {last next : Node} {earlier : List Node} (before : Trail succ entry (last :: earlier))
      (edge : next ∈ succ last) : Trail succ entry (next :: last :: earlier)

theorem Trail.start_eq {node : Node} (trail : Trail succ entry [node]) : node = entry := by
  cases trail
  rfl

theorem Trail.last_edge {last next : Node} {earlier : List Node}
    (trail : Trail succ entry (next :: last :: earlier)) :
    Trail succ entry (last :: earlier) ∧ next ∈ succ last := by
  cases trail with
  | extend before edge => exact ⟨before, edge⟩

/-- Every trail to a node passes through another. -/
def Dominates (succ : Node → List Node) (entry : Node) (dominator node : Node) : Prop :=
  ∀ earlier, Trail succ entry (node :: earlier) → dominator ∈ node :: earlier

theorem Dominates.refl (node : Node) : Dominates succ entry node node :=
  fun _ _ => List.mem_cons_self

/-- Dropping the latest nodes of a trail leaves a trail. -/
theorem Trail.drop {recent earlier : List Node} {node : Node}
    (trail : Trail succ entry (recent ++ node :: earlier)) :
    Trail succ entry (node :: earlier) := by
  induction recent with
  | nil => exact trail
  | cons first recent ih =>
      apply ih
      cases recent with
      | nil => exact trail.last_edge.1
      | cons second recent => exact trail.last_edge.1

theorem Dominates.trans {first second third : Node}
    (left : Dominates succ entry first second) (right : Dominates succ entry second third) :
    Dominates succ entry first third := by
  intro earlier trail
  obtain ⟨recent, older, split⟩ := List.append_of_mem (right earlier trail)
  rw [split] at trail ⊢
  exact List.mem_append_right _ (left older trail.drop)

/-- The entry dominates every node. -/
theorem entry_dominates (node : Node) : Dominates succ entry entry node := by
  intro earlier trail
  generalize shape : node :: earlier = nodes at trail
  induction trail generalizing node earlier with
  | start => exact List.mem_cons_self
  | extend _ _ ih => exact List.mem_cons_of_mem _ (ih _ _ rfl)

/-- Nodes that a trail leads to are reachable, and the other way round. -/
theorem exists_trail_iff {node : Node} :
    (∃ earlier, Trail succ entry (node :: earlier)) ↔
      Relation.ReflTransGen (fun source target => target ∈ succ source) entry node := by
  constructor
  · rintro ⟨earlier, trail⟩
    generalize shape : node :: earlier = nodes at trail
    induction trail generalizing node earlier with
    | start =>
        cases shape
        exact .refl
    | extend _ edge ih =>
        cases shape
        exact (ih _ rfl).tail edge
  · intro path
    induction path with
    | refl => exact ⟨[], .start⟩
    | tail _ edge ih =>
        obtain ⟨earlier, trail⟩ := ih
        exact ⟨_, trail.extend edge⟩

/-- If no path of admissible nodes leads to a node, every trail to it has left an inadmissible one. -/
theorem Trail.exists_inadmissible {admissible : Node → Bool} {node : Node} {earlier : List Node}
    (blocked : ¬PathVia succ admissible entry node) (trail : Trail succ entry (node :: earlier)) :
    ∃ other ∈ earlier, admissible other = false := by
  by_contra none
  simp only [not_exists, not_and, Bool.not_eq_false] at none
  apply blocked
  clear blocked
  generalize shape : node :: earlier = nodes at trail
  induction trail generalizing node earlier with
  | start =>
      cases shape
      exact .refl
  | @extend last next rest _ edge ih =>
      cases shape
      have before := ih (fun other member => none other (List.mem_cons_of_mem _ member)) rfl
      exact before.tail ⟨none last List.mem_cons_self, edge⟩

/-- A trail around a node is a path of admissible nodes, when exactly that node is barred. -/
theorem exists_trail_avoiding_iff {admissible : Node → Bool} {barred : Node}
    (only : ∀ node, admissible node = false ↔ node = barred) {node : Node} (other : node ≠ barred) :
    (∃ earlier, Trail succ entry (node :: earlier) ∧ barred ∉ node :: earlier) ↔
      PathVia succ admissible entry node := by
  constructor
  · rintro ⟨earlier, trail, avoids⟩
    clear other
    generalize shape : node :: earlier = nodes at trail
    induction trail generalizing node earlier with
    | start =>
        cases shape
        exact .refl
    | @extend last next rest _ edge ih =>
        cases shape
        have rest := ih rest (fun member => avoids (List.mem_cons_of_mem _ member)) rfl
        refine rest.tail ⟨?_, edge⟩
        have differs : last ≠ barred := fun same =>
          avoids (List.mem_cons_of_mem _ (same ▸ List.mem_cons_self))
        simpa using mt (only last).mp differs
  · intro path
    induction path with
    | refl =>
        exact ⟨[], .start, fun member => other (List.mem_singleton.mp member).symm⟩
    | @tail middle last _ step ih =>
        have usable : middle ≠ barred := fun same => by
          have := (only middle).mpr same
          rw [step.1] at this
          cases this
        obtain ⟨earlier, trail, avoids⟩ := ih usable
        refine ⟨_, trail.extend step.2, fun member => ?_⟩
        rcases List.mem_cons.mp member with same | inside
        · exact other same.symm
        · exact avoids inside

/-- A node dominates another exactly when no path reaches the other around it. -/
theorem dominates_iff_not_path {admissible : Node → Bool} {dominator node : Node}
    (only : ∀ node, admissible node = false ↔ node = dominator) (other : node ≠ dominator) :
    Dominates succ entry dominator node ↔ ¬PathVia succ admissible entry node := by
  rw [← exists_trail_avoiding_iff only other]
  simp only [Dominates, not_exists, not_and, not_not]

section Equations

variable [DecidableEq Node]

/-- Sets that satisfy the dominator inequalities contain only dominators. -/
theorem dominates_of_facts {facts : Node → Finset Node} (atEntry : facts entry ⊆ {entry})
    (alongEdges : ∀ source target, target ∈ succ source → target ≠ entry →
      (∃ earlier, Trail succ entry (source :: earlier)) →
      facts target ⊆ insert target (facts source))
    {dominator node : Node} (member : dominator ∈ facts node) :
    Dominates succ entry dominator node := by
  intro earlier trail
  generalize shape : node :: earlier = nodes at trail
  induction trail generalizing node earlier with
  | start =>
      cases shape
      rw [Finset.mem_singleton.mp (atEntry member)]
      exact List.mem_cons_self
  | @extend last next rest before edge ih =>
      injection shape with same _
      subst same
      by_cases initial : node = entry
      · subst initial
        rw [Finset.mem_singleton.mp (atEntry member)]
        exact List.mem_cons_self
      · rcases Finset.mem_insert.mp (alongEdges last node edge initial ⟨_, before⟩ member) with
          rfl | inherited
        · exact List.mem_cons_self
        · exact List.mem_cons_of_mem _ (ih inherited _ rfl)

end Equations

end Flow
