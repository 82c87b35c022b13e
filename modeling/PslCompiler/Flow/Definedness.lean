import Mathlib.Data.List.Basic
import Mathlib.Tactic
import PslCompiler.Flow.Dominance

/-! # Definedness in SSA control-flow graphs

An SSA graph, seen only through what each definition reads and assigns, and the machine that runs
it along arbitrary edges. A phi reads, from the values assigned when its block was entered, the
input of the edge taken; at the initial entry there is no such edge. If definitions dominate their
uses, every run reads only assigned values exactly when the entry block has no phi
(`SsaGraph.Verified.safe_iff`).
-/

namespace Flow

/-- What a definition reads. -/
inductive Reads
  | phi (inputs : List (Nat × Nat))
  | plain (operands : List Nat)

/-- A definition: the value it assigns, the type it assigns it with, and what it reads. -/
structure Item (Ty : Type) where
  dst : Nat
  type : Ty
  reads : Reads

/-- The definitions of each block in order, the values its terminator reads, and its successors. -/
structure SsaGraph (Ty : Type) where
  entry : Nat
  succ : Nat → List Nat
  items : Nat → List (Item Ty)
  final : Nat → List Nat

namespace SsaGraph

variable {Ty : Type}

/-- A point of a run: the current block and the edge it was entered by, the next definition to
execute, and the values assigned at the entry of the block and by now, with their types. -/
structure State (Ty : Type) where
  block : Nat
  entered : Option Nat
  position : Nat
  atEntry : Nat → Option Ty
  assigned : Nat → Option Ty

def start (graph : SsaGraph Ty) : State Ty where
  block := graph.entry
  entered := none
  position := 0
  atEntry := fun _ => none
  assigned := fun _ => none

inductive Step (graph : SsaGraph Ty) : State Ty → State Ty → Prop
  | item {state : State Ty} {item : Item Ty}
      (fetched : (graph.items state.block)[state.position]? = some item) :
      Step graph state { state with
        position := state.position + 1
        assigned := Function.update state.assigned item.dst (some item.type) }
  | edge {state : State Ty} {next : Nat}
      (finished : state.position = (graph.items state.block).length)
      (taken : next ∈ graph.succ state.block) :
      Step graph state
        { block := next, entered := some state.block, position := 0,
          atEntry := state.assigned, assigned := state.assigned }

/-- A state of a run from the initial entry. -/
def Reached (graph : SsaGraph Ty) (state : State Ty) : Prop :=
  Relation.ReflTransGen graph.Step graph.start state

/-- A value is assigned, with the type of one of its definitions. -/
def Available (graph : SsaGraph Ty) (assigned : Nat → Option Ty) (value : Nat) : Prop :=
  ∃ block, ∃ item ∈ graph.items block, item.dst = value ∧ assigned value = some item.type

/-- Everything that the next action of a state reads is available. -/
structure Safe (graph : SsaGraph Ty) (state : State Ty) : Prop where
  plain : ∀ item operands, (graph.items state.block)[state.position]? = some item →
    item.reads = .plain operands → ∀ value ∈ operands, graph.Available state.assigned value
  phi : ∀ item inputs, (graph.items state.block)[state.position]? = some item →
    item.reads = .phi inputs → ∃ predecessor value, state.entered = some predecessor ∧
      inputs.lookup predecessor = some value ∧ graph.Available state.atEntry value
  final : state.position = (graph.items state.block).length →
    ∀ value ∈ graph.final state.block, graph.Available state.assigned value

/-- The block that holds a definition of a value, and its place there. -/
def Site (graph : SsaGraph Ty) (value block position : Nat) : Prop :=
  ∃ item, (graph.items block)[position]? = some item ∧ item.dst = value

/-- A value is defined before a place of a block: earlier in it, or in another dominator. -/
def DefinedBefore (graph : SsaGraph Ty) (value block position : Nat) : Prop :=
  ∃ home place, graph.Site value home place ∧
    ((home = block ∧ place < position) ∨
      (home ≠ block ∧ Dominates graph.succ graph.entry home block))

/-- Some trail leads to a block. -/
def Visited (graph : SsaGraph Ty) (block : Nat) : Prop :=
  ∃ earlier, Trail graph.succ graph.entry (block :: earlier)

/-- The static conditions of SSA form on the blocks that a run can visit. -/
structure Verified (graph : SsaGraph Ty) : Prop where
  unique : ∀ {value block position other place : Nat}, graph.Visited block →
    graph.Visited other → graph.Site value block position → graph.Site value other place →
    block = other ∧ position = place
  plain : ∀ {block position : Nat} {item : Item Ty} {operands : List Nat}, graph.Visited block →
    (graph.items block)[position]? = some item → item.reads = .plain operands →
    ∀ value ∈ operands, graph.DefinedBefore value block position
  phi : ∀ {block position predecessor : Nat} {item : Item Ty} {inputs : List (Nat × Nat)},
    graph.Visited predecessor → block ∈ graph.succ predecessor →
    (graph.items block)[position]? = some item →
    item.reads = .phi inputs → ∃ value home place, inputs.lookup predecessor = some value ∧
      graph.Site value home place ∧ Dominates graph.succ graph.entry home predecessor
  final : ∀ {block : Nat}, graph.Visited block → ∀ value ∈ graph.final block,
    graph.DefinedBefore value block (graph.items block).length

/-- All values of the given blocks are assigned with the types of their definitions. -/
def Assigns (graph : SsaGraph Ty) (assigned : Nat → Option Ty) (blocks : List Nat) : Prop :=
  ∀ block ∈ blocks, ∀ item ∈ graph.items block, assigned item.dst = some item.type

/-- What a run keeps true of its state, relative to the blocks it has left. -/
structure Invariant (graph : SsaGraph Ty) (state : State Ty) (earlier : List Nat) : Prop where
  trail : Trail graph.succ graph.entry (state.block :: earlier)
  entered : state.entered = earlier.head?
  bounded : state.position ≤ (graph.items state.block).length
  atEntry : graph.Assigns state.atEntry earlier
  before : graph.Assigns state.assigned earlier
  executed : ∀ place < state.position, ∀ item, (graph.items state.block)[place]? = some item →
    state.assigned item.dst = some item.type

theorem trail_visited {graph : SsaGraph Ty} {nodes : List Nat}
    (trail : Trail graph.succ graph.entry nodes) : ∀ block ∈ nodes, graph.Visited block := by
  intro block member
  obtain ⟨recent, older, split⟩ := List.append_of_mem member
  rw [split] at trail
  exact ⟨older, trail.drop⟩

/-- Executing one definition again assigns what all its executions assign. -/
theorem Verified.update_agrees {graph : SsaGraph Ty} (verified : graph.Verified)
    {block other position : Nat} {item known : Item Ty} {assigned : Nat → Option Ty}
    (visited : graph.Visited block) (otherVisited : graph.Visited other)
    (fetched : (graph.items block)[position]? = some item) (member : known ∈ graph.items other)
    (holds : assigned known.dst = some known.type) :
    Function.update assigned item.dst (some item.type) known.dst = some known.type := by
  by_cases same : known.dst = item.dst
  · obtain ⟨place, found⟩ := List.getElem?_of_mem member
    obtain ⟨rfl, rfl⟩ := verified.unique otherVisited visited ⟨known, found, same⟩
      ⟨item, fetched, rfl⟩
    rw [fetched] at found
    cases found
    simp only [Function.update_self]
  · rw [Function.update_of_ne same, holds]

theorem Verified.invariant {graph : SsaGraph Ty} (verified : graph.Verified) {state : State Ty}
    (reached : graph.Reached state) : ∃ earlier, graph.Invariant state earlier := by
  induction reached with
  | refl =>
      refine ⟨[], .start, rfl, Nat.zero_le _, ?_, ?_, ?_⟩
      · intro block member
        exact (List.not_mem_nil member).elim
      · intro block member
        exact (List.not_mem_nil member).elim
      · intro place below
        exact (Nat.not_lt_zero _ below).elim
  | @tail before after _ step ih =>
      obtain ⟨earlier, holds⟩ := ih
      have visited := trail_visited holds.trail
      cases step with
      | @item item fetched =>
          have here := visited before.block List.mem_cons_self
          have inside := (List.getElem?_eq_some_iff.mp fetched).1
          refine ⟨earlier, holds.trail, holds.entered, inside, holds.atEntry, ?_, ?_⟩
          · intro block member known inBlock
            exact verified.update_agrees here (visited block (List.mem_cons_of_mem _ member)) fetched
              inBlock (holds.before block member known inBlock)
          · intro place below known found
            rcases Nat.lt_succ_iff_lt_or_eq.mp below with less | rfl
            · exact verified.update_agrees here here fetched (List.mem_of_getElem? found)
                (holds.executed place less known found)
            · rw [fetched] at found
              cases found
              exact Function.update_self _ _ _
      | @edge next finished taken =>
          have all : graph.Assigns before.assigned (before.block :: earlier) := by
            intro block member item inBlock
            rcases List.mem_cons.mp member with rfl | left
            · obtain ⟨place, found⟩ := List.getElem?_of_mem inBlock
              refine holds.executed place ?_ item found
              rw [finished]
              exact (List.getElem?_eq_some_iff.mp found).1
            · exact holds.before block left item inBlock
          refine ⟨before.block :: earlier, holds.trail.extend taken, rfl, Nat.zero_le _, all, all, ?_⟩
          intro place below
          exact (Nat.not_lt_zero _ below).elim

/-- A value defined before the current place of a run is available there. -/
theorem Invariant.available {graph : SsaGraph Ty} {state : State Ty} {earlier : List Nat}
    (holds : graph.Invariant state earlier) {value : Nat}
    (defined : graph.DefinedBefore value state.block state.position) :
    graph.Available state.assigned value := by
  obtain ⟨home, place, ⟨item, found, rfl⟩, ⟨rfl, before⟩ | ⟨other, dominates⟩⟩ := defined
  · exact ⟨state.block, item, List.mem_of_getElem? found, rfl, holds.executed place before item found⟩
  · have left : home ∈ earlier := by
      rcases List.mem_cons.mp (dominates earlier holds.trail) with same | inside
      · exact (other same).elim
      · exact inside
    exact ⟨home, item, List.mem_of_getElem? found, rfl,
      holds.before home left item (List.mem_of_getElem? found)⟩

/-- The first positions of a block are reached from its entry. -/
theorem reached_position (graph : SsaGraph Ty) : ∀ position,
    position ≤ (graph.items graph.entry).length →
      ∃ state, graph.Reached state ∧ state.block = graph.entry ∧ state.entered = none ∧
        state.position = position := by
  intro position
  induction position with
  | zero => exact fun _ => ⟨graph.start, .refl, rfl, rfl, rfl⟩
  | succ position ih =>
      intro inside
      obtain ⟨state, reached, atBlock, initial, rfl⟩ := ih (by omega)
      obtain ⟨item, fetched⟩ : ∃ item, (graph.items state.block)[state.position]? = some item :=
        ⟨_, List.getElem?_eq_getElem (by rw [atBlock]; omega)⟩
      exact ⟨_, reached.tail (Step.item fetched), atBlock, initial, rfl⟩

/-- **Soundness of dominance checks.** In a graph whose definitions dominate their uses, all runs
read only available values exactly when the entry block has no phi. -/
theorem Verified.safe_iff {graph : SsaGraph Ty} (verified : graph.Verified) :
    (∀ state, graph.Reached state → graph.Safe state) ↔
      ∀ item ∈ graph.items graph.entry, ∀ inputs, item.reads ≠ .phi inputs := by
  constructor
  · intro safe item member inputs isPhi
    obtain ⟨position, found⟩ := List.getElem?_of_mem member
    obtain ⟨state, reached, atBlock, initial, rfl⟩ :=
      graph.reached_position position (List.getElem?_eq_some_iff.mp found).1.le
    rw [← atBlock] at found
    obtain ⟨predecessor, -, entered, -⟩ := (safe state reached).phi item inputs found isPhi
    rw [initial] at entered
    cases entered
  · intro noPhi state reached
    obtain ⟨earlier, holds⟩ := verified.invariant reached
    have visited := trail_visited holds.trail
    refine ⟨?_, ?_, ?_⟩
    · intro item operands fetched plain value member
      exact holds.available (verified.plain (visited _ List.mem_cons_self) fetched plain value member)
    · intro item inputs fetched isPhi
      cases trail : earlier with
      | nil =>
          have single := holds.trail
          rw [trail] at single
          have initial : state.block = graph.entry := single.start_eq
          exact (noPhi item (initial ▸ List.mem_of_getElem? fetched) inputs isPhi).elim
      | cons predecessor rest =>
          have longer := holds.trail
          rw [trail] at longer
          obtain ⟨before, edge⟩ := longer.last_edge
          obtain ⟨value, home, place, found, ⟨known, site, rfl⟩, dominates⟩ :=
            verified.phi ⟨_, before⟩ edge fetched isPhi
          refine ⟨predecessor, known.dst, by rw [holds.entered, trail]; rfl, found, ?_⟩
          have left : home ∈ earlier := by
            rw [trail]
            exact dominates rest before
          exact ⟨home, known, List.mem_of_getElem? site, rfl,
            holds.atEntry home left known (List.mem_of_getElem? site)⟩
    · intro finished value member
      have defined := verified.final (visited _ List.mem_cons_self) value member
      rw [← finished] at defined
      exact holds.available defined

end SsaGraph

end Flow
