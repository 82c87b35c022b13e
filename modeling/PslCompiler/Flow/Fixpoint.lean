import Mathlib.Algebra.BigOperators.Group.Finset.Basic
import Mathlib.Algebra.GroupWithZero.Nat
import Mathlib.Algebra.Order.BigOperators.Group.List
import Mathlib.Algebra.Order.Group.Nat
import Mathlib.Data.Finset.Card
import Mathlib.Logic.Function.Basic
import Mathlib.Logic.Relation
import Mathlib.Order.Monotone.Basic

/-! # Round-robin and worklist iteration

Two loops that data-flow analyses share. `solve` recomputes the fact of every node in a fixed
order, round after round, until a round changes nothing. `closure` empties a worklist, marking
each node once and pushing its successors. Both carry a bound on their iterations, with the
theorems that say which bounds are large enough.
-/

namespace Flow

/-! ## Round-robin iteration -/

section RoundRobin

variable {Node Fact : Type} [DecidableEq Node] [DecidableEq Fact]

/-- Recompute the facts of some nodes in order, and report whether one of them has changed. -/
def pass (update : Node → (Node → Fact) → Fact) :
    List Node → (Node → Fact) → (Node → Fact) × Bool
  | [], facts => (facts, false)
  | node :: rest, facts =>
      if update node facts = facts node then pass update rest facts
      else ((pass update rest (Function.update facts node (update node facts))).1, true)

/-- Repeat passes until one of them changes nothing. -/
def solve (update : Node → (Node → Fact) → Fact) (nodes : List Node) :
    Nat → (Node → Fact) → Option (Node → Fact)
  | 0, _ => none
  | rounds + 1, facts =>
      if (pass update nodes facts).2 then solve update nodes rounds (pass update nodes facts).1
      else some facts

variable {update : Node → (Node → Fact) → Fact}

theorem pass_stable : ∀ (nodes : List Node) (facts : Node → Fact),
    (pass update nodes facts).2 = false → ∀ node ∈ nodes, update node facts = facts node := by
  intro nodes
  induction nodes with
  | nil =>
      intro facts _ node member
      exact (List.not_mem_nil member).elim
  | cons first rest ih =>
      intro facts unchanged node member
      unfold pass at unchanged
      split at unchanged
      · rename_i same
        rcases List.mem_cons.mp member with rfl | later
        · exact same
        · exact ih facts unchanged node later
      · cases unchanged

/-- The facts that `solve` returns are a fixpoint at every node. -/
theorem solve_fixpoint {nodes : List Node} : ∀ (rounds : Nat) (facts result : Node → Fact),
    solve update nodes rounds facts = some result →
      ∀ node ∈ nodes, update node result = result node := by
  intro rounds
  induction rounds with
  | zero =>
      intro facts result finished
      cases finished
  | succ rounds ih =>
      intro facts result finished
      unfold solve at finished
      split at finished
      · exact ih _ result finished
      · rename_i unchanged
        cases finished
        exact pass_stable nodes facts (by simpa using unchanged)

/-- Whatever holds of the initial facts and survives each single update holds of the result. -/
theorem solve_invariant {nodes : List Node} {invariant : (Node → Fact) → Prop}
    (preserved : ∀ facts, invariant facts → ∀ node ∈ nodes,
      invariant (Function.update facts node (update node facts))) :
    ∀ (rounds : Nat) (facts result : Node → Fact), invariant facts →
      solve update nodes rounds facts = some result → invariant result := by
  have passes : ∀ (some : List Node) (facts : Node → Fact), (∀ node ∈ some, node ∈ nodes) →
      invariant facts → invariant (pass update some facts).1 := by
    intro some
    induction some with
    | nil => exact fun _ _ holds => holds
    | cons first rest ih =>
        intro facts inside holds
        unfold pass
        split
        · exact ih facts (fun node member => inside node (List.mem_cons_of_mem _ member)) holds
        · exact ih _ (fun node member => inside node (List.mem_cons_of_mem _ member))
            (preserved facts holds first (inside first List.mem_cons_self))
  intro rounds
  induction rounds with
  | zero =>
      intro facts result _ finished
      cases finished
  | succ rounds ih =>
      intro facts result holds finished
      unfold solve at finished
      split at finished
      · exact ih _ result (passes nodes facts (fun _ member => member) holds) finished
      · cases finished
        exact holds

section Termination

variable [PartialOrder Fact] {rank : Fact → Nat}

/-- The rank of a list of nodes under an assignment of facts. -/
def totalRank (rank : Fact → Nat) (nodes : List Node) (facts : Node → Fact) : Nat :=
  (nodes.map fun node => rank (facts node)).sum

omit [DecidableEq Fact] in
theorem totalRank_update_le (mono : StrictMono rank) {facts : Node → Fact} {node : Node}
    {fact : Fact} (below : fact ≤ facts node) (nodes : List Node) :
    totalRank rank nodes (Function.update facts node fact) ≤ totalRank rank nodes facts := by
  apply List.sum_le_sum
  intro other _
  by_cases same : other = node
  · subst same
    simpa only [Function.update_self] using mono.monotone below
  · simp only [Function.update_of_ne same, le_refl]

omit [DecidableEq Fact] in
theorem totalRank_update_lt (mono : StrictMono rank) {facts : Node → Fact} {node : Node}
    {fact : Fact} (below : fact < facts node) {nodes : List Node} (member : node ∈ nodes) :
    totalRank rank nodes (Function.update facts node fact) < totalRank rank nodes facts := by
  apply List.sum_lt_sum
  · intro other _
    by_cases same : other = node
    · subst same
      simpa only [Function.update_self] using (mono below).le
    · simp only [Function.update_of_ne same, le_refl]
  · exact ⟨node, member, by simpa only [Function.update_self] using mono below⟩

/-- Facts from which every update can only descend. -/
def Descending (update : Node → (Node → Fact) → Fact) (nodes : List Node) (facts : Node → Fact) :
    Prop :=
  ∀ node ∈ nodes, update node facts ≤ facts node

omit [DecidableEq Fact] in
theorem Descending.after {nodes : List Node} {facts : Node → Fact}
    (monotone : ∀ node, Monotone (update node)) (descending : Descending update nodes facts)
    {node : Node} (member : node ∈ nodes) :
    Descending update nodes (Function.update facts node (update node facts)) := by
  have lower : Function.update facts node (update node facts) ≤ facts := by
    intro other
    by_cases same : other = node
    · subst same
      simpa only [Function.update_self] using descending other member
    · simp only [Function.update_of_ne same, le_refl]
  intro other inside
  by_cases same : other = node
  · subst same
    simpa only [Function.update_self] using monotone other lower
  · simpa only [Function.update_of_ne same] using
      (monotone other lower).trans (descending other inside)

theorem pass_descends (mono : StrictMono rank) (monotone : ∀ node, Monotone (update node))
    {nodes : List Node} : ∀ (some : List Node) (facts : Node → Fact),
      (∀ node ∈ some, node ∈ nodes) → Descending update nodes facts →
      Descending update nodes (pass update some facts).1 ∧
        totalRank rank nodes (pass update some facts).1 ≤ totalRank rank nodes facts ∧
        ((pass update some facts).2 = true →
          totalRank rank nodes (pass update some facts).1 < totalRank rank nodes facts) := by
  intro some
  induction some with
  | nil =>
      intro facts _ descending
      exact ⟨descending, le_rfl, fun changed => by cases changed⟩
  | cons first rest ih =>
      intro facts inside descending
      have firstInside := inside first List.mem_cons_self
      have restInside : ∀ node ∈ rest, node ∈ nodes :=
        fun node member => inside node (List.mem_cons_of_mem _ member)
      unfold pass
      split
      · exact ih facts restInside descending
      · rename_i changes
        obtain ⟨keeps, lower, -⟩ :=
          ih _ restInside (descending.after monotone firstInside)
        have strict := totalRank_update_lt mono
          (lt_of_le_of_ne (descending first firstInside) changes) firstInside
        exact ⟨keeps, lower.trans strict.le, fun _ => lower.trans_lt strict⟩

/-- Descending facts of bounded rank reach a fixpoint. -/
theorem solve_isSome (mono : StrictMono rank) (monotone : ∀ node, Monotone (update node))
    {nodes : List Node} : ∀ (rounds : Nat) (facts : Node → Fact), Descending update nodes facts →
      totalRank rank nodes facts < rounds → (solve update nodes rounds facts).isSome = true := by
  intro rounds
  induction rounds with
  | zero =>
      intro facts _ enough
      exact (Nat.not_lt_zero _ enough).elim
  | succ rounds ih =>
      intro facts descending enough
      obtain ⟨keeps, -, strict⟩ :=
        pass_descends mono monotone nodes facts (fun _ member => member) descending
      unfold solve
      split
      · rename_i changed
        exact ih _ keeps (by have := strict changed; omega)
      · rfl

end Termination

end RoundRobin

/-! ## Shared facts

The meet of an analysis that intersects the sets of several sources. -/

section Intersection

variable {Node Element : Type} [DecidableEq Element]

theorem foldl_inter_subset (sets : Node → Finset Element) :
    ∀ (rest : List Node) (shared : Finset Element),
      rest.foldl (fun shared source => shared ∩ sets source) shared ⊆ shared ∧
      ∀ source ∈ rest, rest.foldl (fun shared source => shared ∩ sets source) shared ⊆
        sets source := by
  intro rest
  induction rest with
  | nil => exact fun shared => ⟨Finset.Subset.refl _, fun _ member => (List.not_mem_nil member).elim⟩
  | cons first rest ih =>
      intro shared
      obtain ⟨base, others⟩ := ih (shared ∩ sets first)
      refine ⟨base.trans Finset.inter_subset_left, ?_⟩
      intro source member
      rcases List.mem_cons.mp member with rfl | later
      · exact base.trans Finset.inter_subset_right
      · exact others source later

theorem foldl_inter_mono {sets larger : Node → Finset Element}
    (below : ∀ source, sets source ⊆ larger source) :
    ∀ (rest : List Node) {small large : Finset Element}, small ⊆ large →
      rest.foldl (fun shared source => shared ∩ sets source) small ⊆
        rest.foldl (fun shared source => shared ∩ larger source) large := by
  intro rest
  induction rest with
  | nil => exact fun subset => subset
  | cons first rest ih =>
      intro small large subset
      exact ih (Finset.inter_subset_inter subset (below first))

end Intersection

/-! ## Worklist closure -/

section Worklist

variable {Node : Type} [DecidableEq Node]

/-- Mark everything that the pending nodes reach, pushing the successors of each newly marked
node in front of the worklist. -/
def closure (succ : Node → List Node) : Nat → List Node → Finset Node → Option (Finset Node)
  | 0, _, _ => none
  | _ + 1, [], seen => some seen
  | fuel + 1, node :: pending, seen =>
      if node ∈ seen then closure succ fuel pending seen
      else closure succ fuel ((succ node).reverse ++ pending) (insert node seen)

variable {succ : Node → List Node}

/-- Reachability along successor edges. -/
def Reaches (succ : Node → List Node) : Node → Node → Prop :=
  Relation.ReflTransGen fun source target => target ∈ succ source

/-- The result of a worklist contains what was pending and is closed under successors. -/
theorem closure_closed : ∀ (fuel : Nat) (pending : List Node) (seen result : Finset Node),
    closure succ fuel pending seen = some result →
    seen ⊆ result ∧ (∀ node ∈ pending, node ∈ result) ∧
      ∀ node ∈ result, node ∉ seen → ∀ next ∈ succ node, next ∈ result := by
  intro fuel
  induction fuel with
  | zero =>
      intro pending seen result finished
      cases finished
  | succ fuel ih =>
      intro pending seen result finished
      cases pending with
      | nil =>
          cases finished
          exact ⟨Finset.Subset.refl _, fun _ member => (List.not_mem_nil member).elim,
            fun _ member absent => (absent member).elim⟩
      | cons node pending =>
          simp only [closure] at finished
          split at finished
          · rename_i old
            obtain ⟨grows, covered, closed⟩ := ih pending seen result finished
            refine ⟨grows, ?_, closed⟩
            intro other member
            rcases List.mem_cons.mp member with rfl | later
            · exact grows old
            · exact covered other later
          · obtain ⟨grows, covered, closed⟩ := ih _ _ result finished
            refine ⟨(Finset.subset_insert _ _).trans grows, ?_, ?_⟩
            · intro other member
              rcases List.mem_cons.mp member with rfl | later
              · exact grows (Finset.mem_insert_self _ _)
              · exact covered other (List.mem_append_right _ later)
            · intro other member absent next edge
              by_cases same : other = node
              · subst same
                exact covered next (List.mem_append_left _ (List.mem_reverse.mpr edge))
              · refine closed other member (fun old => ?_) next edge
                rcases Finset.mem_insert.mp old with equal | early
                · exact same equal
                · exact absent early

/-- A worklist marks only what was marked before or can be reached from a pending node. -/
theorem closure_reaches : ∀ (fuel : Nat) (pending : List Node) (seen result : Finset Node),
    closure succ fuel pending seen = some result →
    ∀ node ∈ result, node ∈ seen ∨ ∃ start ∈ pending, Reaches succ start node := by
  intro fuel
  induction fuel with
  | zero =>
      intro pending seen result finished
      cases finished
  | succ fuel ih =>
      intro pending seen result finished node member
      cases pending with
      | nil =>
          cases finished
          exact .inl member
      | cons first pending =>
          simp only [closure] at finished
          split at finished
          · rcases ih pending seen result finished node member with old | ⟨start, inside, path⟩
            · exact .inl old
            · exact .inr ⟨start, List.mem_cons_of_mem _ inside, path⟩
          · rcases ih _ _ result finished node member with old | ⟨start, inside, path⟩
            · rcases Finset.mem_insert.mp old with rfl | early
              · exact .inr ⟨node, List.mem_cons_self, .refl⟩
              · exact .inl early
            · rcases List.mem_append.mp inside with pushed | later
              · exact .inr ⟨first, List.mem_cons_self, .head (List.mem_reverse.mp pushed) path⟩
              · exact .inr ⟨start, List.mem_cons_of_mem _ later, path⟩

/-- Started on one node of an unmarked graph, a worklist marks exactly what the node reaches. -/
theorem mem_closure_iff {fuel : Nat} {start : Node} {result : Finset Node}
    (finished : closure succ fuel [start] ∅ = some result) (node : Node) :
    node ∈ result ↔ Reaches succ start node := by
  constructor
  · intro member
    rcases closure_reaches fuel [start] ∅ result finished node member with old | ⟨first, inside, path⟩
    · exact (Finset.notMem_empty _ old).elim
    · rw [List.mem_singleton.mp inside] at path
      exact path
  · obtain ⟨-, covered, closed⟩ := closure_closed fuel [start] ∅ result finished
    intro path
    induction path with
    | refl => exact covered start List.mem_cons_self
    | tail _ edge ih => exact closed _ ih (Finset.notMem_empty _) _ edge

/-- The work left for a worklist: its pending nodes and the pushes of the unmarked ones. -/
def workLeft (succ : Node → List Node) (nodes : Finset Node) (pending : List Node)
    (seen : Finset Node) : Nat :=
  pending.length + ∑ node ∈ nodes \ seen, ((succ node).length + 1)

/-- A worklist in a finite successor-closed graph finishes. -/
theorem closure_isSome (nodes : Finset Node)
    (inside : ∀ node ∈ nodes, ∀ next ∈ succ node, next ∈ nodes) :
    ∀ (fuel : Nat) (pending : List Node) (seen : Finset Node), (∀ node ∈ pending, node ∈ nodes) →
      workLeft succ nodes pending seen < fuel → (closure succ fuel pending seen).isSome = true := by
  intro fuel
  induction fuel with
  | zero =>
      intro pending seen _ enough
      exact (Nat.not_lt_zero _ enough).elim
  | succ fuel ih =>
      intro pending seen pendingInside enough
      cases pending with
      | nil => rfl
      | cons node pending =>
          have nodeInside := pendingInside node List.mem_cons_self
          have restInside : ∀ other ∈ pending, other ∈ nodes :=
            fun other member => pendingInside other (List.mem_cons_of_mem _ member)
          simp only [closure]
          split
          · apply ih pending seen restInside
            simp only [workLeft, List.length_cons] at enough ⊢
            omega
          · rename_i fresh
            apply ih
            · intro other member
              rcases List.mem_append.mp member with pushed | later
              · exact inside node nodeInside other (List.mem_reverse.mp pushed)
              · exact restInside other later
            · have removed : nodes \ seen = insert node (nodes \ insert node seen) := by
                ext other
                simp only [Finset.mem_sdiff, Finset.mem_insert]
                by_cases same : other = node
                · subst same
                  simp [nodeInside, fresh]
                · simp [same]
              have outside : node ∉ nodes \ insert node seen := by simp
              simp only [workLeft, List.length_cons, List.length_append, List.length_reverse,
                removed, Finset.sum_insert outside] at enough ⊢
              omega

end Worklist

end Flow
