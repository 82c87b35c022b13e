import Mathlib.Data.Finset.Card
import Mathlib.Data.Finset.Lattice.Basic
import Mathlib.Logic.Relation

/-! # Depth-first search in a finite graph

A search marks every node it expands, so that each node is expanded at most once. It finds a
target exactly when a path of admissible nodes leads there. The search carries a bound on its
depth; `search_eq_true_iff` holds for every bound larger than the number of unmarked nodes.
-/

namespace Flow

variable {Node : Type} [DecidableEq Node]

/-- One step along an edge that leaves an admissible node. -/
def StepVia (succ : Node → List Node) (admissible : Node → Bool) (source target : Node) : Prop :=
  admissible source = true ∧ target ∈ succ source

/-- A path all of whose nodes, except possibly the last, are admissible. -/
def PathVia (succ : Node → List Node) (admissible : Node → Bool) : Node → Node → Prop :=
  Relation.ReflTransGen (StepVia succ admissible)

/-- Visit the nodes of a list in order until one visit succeeds. -/
def searchAll (visit : Node → Finset Node → Bool × Finset Node) :
    List Node → Finset Node → Bool × Finset Node
  | [], seen => (false, seen)
  | next :: rest, seen =>
      let outcome := visit next seen
      if outcome.1 then (true, outcome.2) else searchAll visit rest outcome.2

/-- Depth-first search for a target through admissible nodes. -/
def search (succ : Node → List Node) (admissible : Node → Bool) (target : Node) :
    Nat → Node → Finset Node → Bool × Finset Node
  | 0, _, seen => (false, seen)
  | depth + 1, node, seen =>
      if node = target then (true, seen)
      else if node ∈ seen ∨ admissible node = false then (false, seen)
      else searchAll (search succ admissible target depth) (succ node) (insert node seen)

section Search

variable {succ : Node → List Node} {admissible : Node → Bool} {target : Node}

omit [DecidableEq Node] in
theorem searchAll_found {visit : Node → Finset Node → Bool × Finset Node} {good : Node → Prop}
    (found : ∀ node seen, (visit node seen).1 = true → good node) :
    ∀ (nodes : List Node) (seen : Finset Node), (searchAll visit nodes seen).1 = true →
      ∃ node ∈ nodes, good node := by
  intro nodes
  induction nodes with
  | nil =>
      intro seen success
      cases success
  | cons next rest ih =>
      intro seen success
      simp only [searchAll] at success
      by_cases hit : (visit next seen).1 = true
      · exact ⟨next, List.mem_cons_self, found next seen hit⟩
      · simp only [hit, Bool.false_eq_true, ↓reduceIte] at success
        obtain ⟨node, member, isGood⟩ := ih _ success
        exact ⟨node, List.mem_cons_of_mem _ member, isGood⟩

/-- A successful search has followed a path of admissible nodes. -/
theorem search_found : ∀ (depth : Nat) (node : Node) (seen : Finset Node),
    (search succ admissible target depth node seen).1 = true →
      PathVia succ admissible node target := by
  intro depth
  induction depth with
  | zero =>
      intro node seen success
      cases success
  | succ depth ih =>
      intro node seen success
      unfold search at success
      split at success
      · rename_i same
        subst same
        exact .refl
      · split at success
        · cases success
        · rename_i fresh
          obtain ⟨next, member, path⟩ := searchAll_found ih _ _ success
          have usable : admissible node = true := by
            simpa using fun blocked => fresh (.inr blocked)
          exact .head ⟨usable, member⟩ path

/-- A marked set that a failed search has left behind: the nodes it has added have been expanded
completely, without meeting the target. -/
structure Explored (succ : Node → List Node) (admissible : Node → Bool) (target : Node)
    (before after : Finset Node) : Prop where
  grows : before ⊆ after
  expanded : ∀ node ∈ after, node ∉ before → ∀ next ∈ succ node,
    next ≠ target ∧ (next ∈ after ∨ admissible next = false)

omit [DecidableEq Node] in
theorem Explored.refl (seen : Finset Node) : Explored succ admissible target seen seen :=
  ⟨Finset.Subset.refl _, fun _ member absent => (absent member).elim⟩

theorem Explored.trans {first second third : Finset Node}
    (left : Explored succ admissible target first second)
    (right : Explored succ admissible target second third) :
    Explored succ admissible target first third := by
  refine ⟨left.grows.trans right.grows, ?_⟩
  intro node member absent next edge
  by_cases old : node ∈ second
  · obtain ⟨differs, covered⟩ := left.expanded node old absent next edge
    exact ⟨differs, covered.imp_left fun inside => right.grows inside⟩
  · exact right.expanded node member old next edge

/-- What a failed visit of a single node establishes. -/
def VisitFails (succ : Node → List Node) (admissible : Node → Bool) (target node : Node)
    (before after : Finset Node) : Prop :=
  Explored succ admissible target before after ∧ node ≠ target ∧
    (node ∈ after ∨ admissible node = false)

theorem searchAll_failed {visit : Node → Finset Node → Bool × Finset Node}
    (room : Finset Node → Prop) (allowed : Node → Prop)
    (visited : ∀ node seen, allowed node → room seen → (visit node seen).1 = false →
      VisitFails succ admissible target node seen (visit node seen).2 ∧ room (visit node seen).2) :
    ∀ (nodes : List Node) (seen : Finset Node), (∀ node ∈ nodes, allowed node) → room seen →
      (searchAll visit nodes seen).1 = false →
      Explored succ admissible target seen (searchAll visit nodes seen).2 ∧
        room (searchAll visit nodes seen).2 ∧
        ∀ node ∈ nodes, node ≠ target ∧
          (node ∈ (searchAll visit nodes seen).2 ∨ admissible node = false) := by
  intro nodes
  induction nodes with
  | nil =>
      intro seen _ space _
      exact ⟨Explored.refl seen, space, fun _ member => (List.not_mem_nil member).elim⟩
  | cons next rest ih =>
      intro seen permitted space failure
      simp only [searchAll] at failure ⊢
      by_cases hit : (visit next seen).1 = true
      · simp only [hit, ↓reduceIte] at failure
        cases failure
      · simp only [hit, Bool.false_eq_true, ↓reduceIte] at failure ⊢
        obtain ⟨⟨explored, differs, covered⟩, left⟩ :=
          visited next seen (permitted next List.mem_cons_self) space (by simpa using hit)
        obtain ⟨restExplored, restSpace, restCovered⟩ :=
          ih _ (fun node member => permitted node (List.mem_cons_of_mem _ member)) left failure
        refine ⟨explored.trans restExplored, restSpace, ?_⟩
        intro node member
        rcases List.mem_cons.mp member with same | later
        · subst same
          exact ⟨differs, covered.imp_left fun inside => restExplored.grows inside⟩
        · exact restCovered node later

/-- A failed search with enough depth has explored everything that it could reach. -/
theorem search_failed {nodes : Finset Node}
    (closed : ∀ node ∈ nodes, admissible node = true → ∀ next ∈ succ node, next ∈ nodes) :
    ∀ (depth : Nat) (node : Node) (seen : Finset Node), node ∈ nodes →
      (nodes \ seen).card < depth →
      (search succ admissible target depth node seen).1 = false →
      VisitFails succ admissible target node seen
        (search succ admissible target depth node seen).2 := by
  intro depth
  induction depth with
  | zero =>
      intro node seen _ space
      exact (Nat.not_lt_zero _ space).elim
  | succ depth ih =>
      intro node seen inside space failure
      unfold search at failure ⊢
      split at failure
      · cases failure
      · rename_i differs
        simp only [differs, ↓reduceIte]
        split at failure
        · rename_i stopped
          simp only [stopped, ↓reduceIte]
          exact ⟨Explored.refl seen, differs, stopped⟩
        · rename_i fresh
          simp only [fresh, ↓reduceIte]
          have unseen : node ∉ seen := fun marked => fresh (.inl marked)
          have usable : admissible node = true := by
            simpa using fun blocked => fresh (.inr blocked)
          have smaller : (nodes \ insert node seen).card < depth := by
            have removed : nodes \ insert node seen = (nodes \ seen).erase node := by
              ext other
              simp only [Finset.mem_sdiff, Finset.mem_insert, Finset.mem_erase]
              tauto
            rw [removed, Finset.card_erase_of_mem (Finset.mem_sdiff.mpr ⟨inside, unseen⟩)]
            have positive : 0 < (nodes \ seen).card :=
              Finset.card_pos.mpr ⟨node, Finset.mem_sdiff.mpr ⟨inside, unseen⟩⟩
            omega
          obtain ⟨explored, -, children⟩ := searchAll_failed
            (fun marked => (nodes \ marked).card < depth) (fun next => next ∈ nodes)
            (fun next marked member left missed => by
              have visit := ih next marked member left missed
              refine ⟨visit, lt_of_le_of_lt (Finset.card_le_card ?_) left⟩
              exact Finset.sdiff_subset_sdiff (Finset.Subset.refl _) visit.1.grows)
            (succ node) (insert node seen) (closed node inside usable) smaller failure
          have marked : node ∈ (searchAll (search succ admissible target depth) (succ node)
              (insert node seen)).2 := explored.grows (Finset.mem_insert_self _ _)
          refine ⟨⟨(Finset.subset_insert _ _).trans explored.grows, ?_⟩, differs, .inl marked⟩
          intro other member absent next edge
          by_cases self : other = node
          · subst self
            exact children next edge
          · refine explored.expanded other member (fun old => ?_) next edge
            rcases Finset.mem_insert.mp old with same | early
            · exact self same
            · exact absent early

/-- A search from an unmarked graph finds its target exactly when a path of admissible nodes
leads there. -/
theorem search_eq_true_iff {nodes : Finset Node}
    (closed : ∀ node ∈ nodes, admissible node = true → ∀ next ∈ succ node, next ∈ nodes)
    {depth : Nat} {start : Node} (inside : start ∈ nodes) (enough : nodes.card < depth) :
    (search succ admissible target depth start ∅).1 = true ↔
      PathVia succ admissible start target := by
  refine ⟨search_found depth start ∅, fun path => ?_⟩
  by_contra missed
  obtain ⟨explored, differs, covered⟩ := search_failed closed depth start ∅ inside
    (by simpa using enough) (by simpa using missed)
  -- Every node on the path stays inside the explored region, which avoids the target.
  have stays : ∀ node, PathVia succ admissible start node → node ≠ target ∧
      (node ∈ (search succ admissible target depth start ∅).2 ∨ admissible node = false) := by
    intro node walk
    induction walk with
    | refl => exact ⟨differs, covered⟩
    | tail _ step ih =>
        rcases ih.2 with marked | blocked
        · exact explored.expanded _ marked (Finset.notMem_empty _) _ step.2
        · rw [step.1] at blocked
          cases blocked
  exact (stays target path).1 rfl

end Search

end Flow
