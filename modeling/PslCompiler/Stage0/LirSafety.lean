import Mathlib.Algebra.Order.BigOperators.Group.Finset
import Mathlib.Tactic
import PslCompiler.Stage0.VerifyLir

/-! # Executions of verified Stage 0 LIR

An execution of a LIR function is abstracted to its program counter and the registers assigned so
far; a conditional branch may go either way. In an accepted function every register read is
assigned before, and every jump finds its label. Control stays inside the function exactly when no
reachable conditional branch is the last instruction (`verifyLirFunction_safe_iff`).
-/

namespace Stage0

open Flow

/-! ## Executions -/

structure LirState where
  pc : Nat
  assigned : Finset Nat
  deriving DecidableEq

/-- The position of a label. -/
def labelIndex (instructions : List LirInstruction) (target : Nat) : Option Nat :=
  instructions.findIdx? fun instruction => instruction.op == .label target

/-- The registers assigned after an instruction. -/
def LirInstruction.assign (instruction : LirInstruction) (assigned : Finset Nat) : Finset Nat :=
  match instruction.dst with
  | some dst => insert dst assigned
  | none => assigned

/-- Operations after which control may continue with the next instruction. -/
def LirOp.fallsThroughP : LirOp → Bool
  | .ret | .jump _ => false
  | _ => true

/-- The label that an operation may transfer control to. -/
def LirOp.target? : LirOp → Option Nat
  | .jump target | .branchZero target => some target
  | _ => none

inductive LirStep (instructions : List LirInstruction) : LirState → LirState → Prop
  | next {state : LirState} {instruction : LirInstruction}
      (fetched : instructions[state.pc]? = some instruction)
      (falls : instruction.op.fallsThroughP = true) :
      LirStep instructions state ⟨state.pc + 1, instruction.assign state.assigned⟩
  | transfer {state : LirState} {instruction : LirInstruction} {target index : Nat}
      (fetched : instructions[state.pc]? = some instruction)
      (transfers : instruction.op.target? = some target)
      (found : labelIndex instructions target = some index) :
      LirStep instructions state ⟨index, instruction.assign state.assigned⟩

/-- What must hold in every state that an execution passes through. -/
structure LirSafe (instructions : List LirInstruction) (state : LirState) : Prop where
  inside : state.pc < instructions.length
  reads : ∀ instruction, instructions[state.pc]? = some instruction →
    ∀ register ∈ instruction.args, register ∈ state.assigned
  targets : ∀ instruction target, instructions[state.pc]? = some instruction →
    instruction.op.target? = some target → (labelIndex instructions target).isSome = true
  continues : (∃ instruction, instructions[state.pc]? = some instruction ∧ instruction.op = .ret) ∨
    ∃ next, LirStep instructions state next

/-- Every execution from the first instruction is safe. -/
def LirFunction.ExecutionSafe (function : LirFunction) : Prop :=
  ∀ state, Relation.ReflTransGen (LirStep function.instructions) ⟨0, ∅⟩ state →
    LirSafe function.instructions state

/-- A conditional branch that control flow reaches is the last instruction. -/
def LirFunction.BranchAtEnd (function : LirFunction) : Prop :=
  ∃ labels target, lirLabelIndices function.instructions = .ok labels ∧
    function.instructions.getLast?.map LirInstruction.op = some (.branchZero target) ∧
    function.instructions.length - 1 ∈ lirReachable function.instructions labels

/-! ## Labels and successors -/

theorem lirLabelIndicesFrom_eq : ∀ (instructions : List LirInstruction) (index : Nat)
    (labels result : Nat → Option Nat), lirLabelIndicesFrom instructions index labels = .ok result →
    ∀ target, result target = ((labelIndex instructions target).map (index + ·)).or (labels target) ∧
      ((labelIndex instructions target).isSome = true → labels target = none) := by
  intro instructions
  induction instructions with
  | nil =>
      intro index labels result success target
      cases success
      simp [labelIndex]
  | cons instruction rest ih =>
      intro index labels result success target
      have skip : instruction.op ≠ .label target →
          (labelIndex (instruction :: rest) target) = (labelIndex rest target).map (· + 1) := by
        intro differs
        simp only [labelIndex, List.findIdx?_cons, beq_eq_false_iff_ne.mpr differs]
        rfl
      have shift : (((labelIndex rest target).map (· + 1)).map (index + ·)) =
          (labelIndex rest target).map (index + 1 + ·) := by
        rw [Option.map_map]
        congr 1
        funext position
        simp only [Function.comp_apply]
        omega
      have pass (other : instruction.op ≠ .label target) (tail : Nat → Option Nat)
          (same : tail target = labels target)
          (done : lirLabelIndicesFrom rest (index + 1) tail = .ok result) :
          result target = ((labelIndex (instruction :: rest) target).map (index + ·)).or
              (labels target) ∧
            ((labelIndex (instruction :: rest) target).isSome = true → labels target = none) := by
        obtain ⟨value, absent⟩ := ih (index + 1) tail result done target
        rw [skip other, shift, value, same]
        refine ⟨rfl, fun present => ?_⟩
        rw [same] at absent
        exact absent (by simpa using present)
      cases kind : instruction.op with
      | label id =>
          simp only [lirLabelIndicesFrom, kind, bind_eq_ok, require_eq_ok] at success
          obtain ⟨-, fresh, done⟩ := success
          by_cases same : id = target
          · subst same
            obtain ⟨value, absent⟩ := ih (index + 1) _ result done id
            have none : labelIndex rest id = none := by
              by_contra present
              have := absent (Option.isSome_iff_ne_none.mpr present)
              simp only [Function.update_self, reduceCtorEq] at this
            have here : labelIndex (instruction :: rest) id = some 0 := by
              simp [labelIndex, List.findIdx?_cons, kind]
            rw [value, none, here]
            simp only [Option.map_none, Option.none_or, Function.update_self, Option.map_some,
              Option.some_or, Nat.add_zero, true_and]
            intro _
            simpa using fresh
          · exact pass (by rw [kind]; simpa using same) _
              (Function.update_of_ne (Ne.symm same) _ _) done
      | _ =>
          simp only [lirLabelIndicesFrom, kind] at success
          exact pass (by rw [kind]; simp) labels rfl success

/-- The label table of the verifier holds the position of every label. -/
theorem lirLabelIndices_eq {instructions : List LirInstruction} {labels : Nat → Option Nat}
    (success : lirLabelIndices instructions = .ok labels) (target : Nat) :
    labels target = labelIndex instructions target := by
  obtain ⟨value, -⟩ := lirLabelIndicesFrom_eq instructions 0 _ labels success target
  rw [value]
  cases labelIndex instructions target with
  | none => rfl
  | some index => simp

theorem labelIndex_lt {instructions : List LirInstruction} {target index : Nat}
    (found : labelIndex instructions target = some index) : index < instructions.length := by
  unfold labelIndex at found
  rw [List.findIdx?_eq_some_iff_findIdx_eq] at found
  exact found.1

section Flow

variable {instructions : List LirInstruction} {labels : Nat → Option Nat}

theorem lirNext_eq_some {index next : Nat} :
    lirNext instructions index = some next ↔ next = index + 1 ∧ next < instructions.length := by
  unfold lirNext
  split
  · rename_i inside
    simp only [Option.some.injEq]
    exact ⟨fun same => ⟨same.symm, same ▸ inside⟩, fun both => both.1.symm⟩
  · rename_i outside
    simp only [reduceCtorEq, false_iff, not_and]
    intro same inside
    exact outside (same ▸ inside)

/-- The successors of an instruction are where a step of an execution may lead. -/
theorem mem_lirSuccessors (agree : ∀ target, labels target = labelIndex instructions target)
    {index next : Nat} {instruction : LirInstruction}
    (fetched : instructions[index]? = some instruction) :
    next ∈ lirSuccessors instructions labels index ↔
      (instruction.op.fallsThroughP = true ∧ next = index + 1 ∧ next < instructions.length) ∨
      ∃ target, instruction.op.target? = some target ∧
        labelIndex instructions target = some next := by
  unfold lirSuccessors
  rw [fetched]
  cases kind : instruction.op with
  | ret => simp [kind, LirOp.fallsThroughP, LirOp.target?]
  | jump target => simp [kind, LirOp.fallsThroughP, LirOp.target?, agree]
  | branchZero target =>
      simp only [kind, LirOp.fallsThroughP, LirOp.target?, agree, List.mem_append, Option.mem_toList,
        lirNext_eq_some, true_and, Option.some.injEq, exists_eq_left']
      exact or_comm
  | _ => simp [kind, LirOp.fallsThroughP, LirOp.target?, lirNext_eq_some]

theorem lirSuccessors_lt (agree : ∀ target, labels target = labelIndex instructions target)
    {index next : Nat} (edge : next ∈ lirSuccessors instructions labels index) :
    next < instructions.length := by
  cases fetched : instructions[index]? with
  | none =>
      unfold lirSuccessors at edge
      rw [fetched] at edge
      exact (List.not_mem_nil edge).elim
  | some instruction =>
      rcases (mem_lirSuccessors agree fetched).mp edge with ⟨-, -, inside⟩ | ⟨_, -, found⟩
      · exact inside
      · exact labelIndex_lt found

theorem lirSuccessors_length_le (index : Nat) :
    (lirSuccessors instructions labels index).length ≤ 2 := by
  have short (entry : Option Nat) : entry.toList.length ≤ 1 := by cases entry <;> simp
  unfold lirSuccessors
  split
  · simp
  · split
    · simp
    · exact (short _).trans (by omega)
    · rw [List.length_append]
      have first := short (labels ‹Nat›)
      have second := short (lirNext instructions index)
      omega
    · exact (short _).trans (by omega)

/-- The worklist of `lir-flow` finishes within its bound. -/
theorem lirReachable_finished (agree : ∀ target, labels target = labelIndex instructions target)
    (nonempty : 0 < instructions.length) :
    closure (lirSuccessors instructions labels) (3 * instructions.length + 2) [0] ∅ =
      some (lirReachable instructions labels) := by
  have total : (closure (lirSuccessors instructions labels) (3 * instructions.length + 2) [0]
      ∅).isSome = true :=
    closure_isSome (Finset.range instructions.length)
      (fun node _ next edge => Finset.mem_range.mpr (lirSuccessors_lt agree edge))
      (3 * instructions.length + 2) [0] ∅ (by simpa using nonempty) (by
      have bound : ∑ node ∈ Finset.range instructions.length,
          ((lirSuccessors instructions labels node).length + 1) ≤
          ∑ _node ∈ Finset.range instructions.length, 3 :=
        Finset.sum_le_sum fun node _ =>
          Nat.succ_le_succ (lirSuccessors_length_le node)
      simp only [Finset.sum_const, Finset.card_range, smul_eq_mul] at bound
      simp only [workLeft, List.length_singleton, Finset.sdiff_empty]
      omega)
  obtain ⟨result, finished⟩ := Option.isSome_iff_exists.mp total
  unfold lirReachable
  rw [finished]
  rfl

theorem mem_lirReachable (agree : ∀ target, labels target = labelIndex instructions target)
    (nonempty : 0 < instructions.length) (index : Nat) :
    index ∈ lirReachable instructions labels ↔
      Reaches (lirSuccessors instructions labels) 0 index :=
  mem_closure_iff (lirReachable_finished agree nonempty) index

/-- A step of an execution from inside the function, to somewhere inside it, follows an edge. -/
theorem LirStep.edge (agree : ∀ target, labels target = labelIndex instructions target)
    {state next : LirState} (step : LirStep instructions state next)
    (inside : next.pc < instructions.length) :
    next.pc ∈ lirSuccessors instructions labels state.pc := by
  cases step with
  | next fetched falls => exact (mem_lirSuccessors agree fetched).mpr (.inl ⟨falls, rfl, inside⟩)
  | transfer fetched transfers found =>
      exact (mem_lirSuccessors agree fetched).mpr (.inr ⟨_, transfers, found⟩)

/-- Every edge is the trace of a step, whatever has been assigned before. -/
theorem lirStep_of_edge (agree : ∀ target, labels target = labelIndex instructions target)
    {index next : Nat} (edge : next ∈ lirSuccessors instructions labels index)
    (assigned : Finset Nat) :
    ∃ after, LirStep instructions ⟨index, assigned⟩ ⟨next, after⟩ := by
  cases fetched : instructions[index]? with
  | none =>
      unfold lirSuccessors at edge
      rw [fetched] at edge
      exact (List.not_mem_nil edge).elim
  | some instruction =>
      rcases (mem_lirSuccessors agree fetched).mp edge with
        ⟨falls, rfl, -⟩ | ⟨target, transfers, found⟩
      · exact ⟨_, @LirStep.next _ ⟨index, assigned⟩ _ fetched falls⟩
      · exact ⟨_, @LirStep.transfer _ ⟨index, assigned⟩ _ _ _ fetched transfers found⟩

/-- Control flow reaches only instructions that an execution reaches. -/
theorem exists_execution (agree : ∀ target, labels target = labelIndex instructions target)
    {index : Nat} (path : Reaches (lirSuccessors instructions labels) 0 index) :
    ∃ assigned, Relation.ReflTransGen (LirStep instructions) ⟨0, ∅⟩ ⟨index, assigned⟩ := by
  induction path with
  | refl => exact ⟨∅, .refl⟩
  | tail _ edge ih =>
      obtain ⟨assigned, run⟩ := ih
      obtain ⟨after, step⟩ := lirStep_of_edge agree edge assigned
      exact ⟨after, run.tail step⟩

/-! ## The assignment analysis -/

/-- The registers assumed before an instruction are assigned after each reachable predecessor. -/
theorem lirAssignmentUpdate_input (facts : Nat → Finset Nat × Finset Nat) {source index : Nat}
    (reached : index ∈ lirReachable instructions labels)
    (sourceReached : source ∈ lirReachable instructions labels)
    (sourceInside : source < instructions.length)
    (edge : index ∈ lirSuccessors instructions labels source) :
    (lirAssignmentUpdate instructions labels index facts).1 ⊆ (facts source).2 := by
  have member : source ∈ (lirPredecessors instructions labels index).filter fun source =>
      source ∈ lirReachable instructions labels := by
    simp only [lirPredecessors, List.mem_filter, List.mem_range, List.contains_iff_mem,
      decide_eq_true_eq]
    exact ⟨⟨sourceInside, edge⟩, sourceReached⟩
  simp only [lirAssignmentUpdate, reached, ↓reduceIte]
  split
  · exact Finset.empty_subset _
  · split
    · exact Finset.empty_subset _
    · rename_i first rest shape
      rw [shape] at member
      obtain ⟨base, others⟩ := foldl_inter_subset (fun source => (facts source).2) rest (facts first).2
      rcases List.mem_cons.mp member with rfl | later
      · exact base
      · exact others source later

theorem lirAssignmentUpdate_output (facts : Nat → Finset Nat × Finset Nat) {index : Nat}
    {instruction : LirInstruction} (reached : index ∈ lirReachable instructions labels)
    (fetched : instructions[index]? = some instruction) :
    (lirAssignmentUpdate instructions labels index facts).2 =
      instruction.assign (lirAssignmentUpdate instructions labels index facts).1 := by
  unfold lirAssignmentUpdate
  rw [if_pos reached, fetched]
  rfl

theorem LirInstruction.assign_mono (instruction : LirInstruction) {small large : Finset Nat}
    (subset : small ⊆ large) : instruction.assign small ⊆ instruction.assign large := by
  unfold LirInstruction.assign
  split
  · exact Finset.insert_subset_insert _ subset
  · exact subset

/-! ## Convergence of the analysis -/

/-- What is assigned on every way into an instruction. -/
def assignedBefore (facts : Nat → Finset Nat × Finset Nat) (index : Nat) (preds : List Nat) :
    Finset Nat :=
  if index = 0 then ∅ else
    match preds with
    | [] => ∅
    | first :: rest => rest.foldl (fun shared source => shared ∩ (facts source).2) (facts first).2

theorem assignedBefore_mono {facts larger : Nat → Finset Nat × Finset Nat} (below : facts ≤ larger)
    (index : Nat) (preds : List Nat) :
    assignedBefore facts index preds ⊆ assignedBefore larger index preds := by
  unfold assignedBefore
  split
  · exact Finset.Subset.refl _
  · cases preds with
    | nil => exact Finset.Subset.refl _
    | cons first rest => exact foldl_inter_mono (fun source => (below source).2) rest (below first).2

theorem lirAssignmentUpdate_monotone (index : Nat) :
    Monotone (lirAssignmentUpdate instructions labels index) := by
  intro facts larger below
  by_cases reached : index ∈ lirReachable instructions labels
  · simp only [lirAssignmentUpdate, reached, ↓reduceIte]
    have input := fun preds => assignedBefore_mono below index preds
    refine Prod.mk_le_mk.mpr ⟨input _, ?_⟩
    cases instructions[index]?.bind LirInstruction.dst with
    | none => exact input _
    | some dst => exact Finset.insert_subset_insert _ (input _)
  · simp only [lirAssignmentUpdate, reached, ↓reduceIte]
    exact below index

theorem lirAssignmentStart_descending {registerCount : Nat}
    (bounded : ∀ instruction ∈ instructions, ∀ dst, instruction.dst = some dst →
      dst < registerCount) :
    Descending (lirAssignmentUpdate instructions labels) (List.range instructions.length)
      (lirAssignmentStart registerCount) := by
  intro index _
  by_cases reached : index ∈ lirReachable instructions labels
  · have input : (lirAssignmentUpdate instructions labels index
        (lirAssignmentStart registerCount)).1 ⊆ (lirAssignmentStart registerCount index).1 := by
      simp only [lirAssignmentUpdate, reached, ↓reduceIte, lirAssignmentStart]
      split
      · exact Finset.Subset.refl _
      · split
        · exact Finset.empty_subset _
        · exact (foldl_inter_subset (fun source => (lirAssignmentStart registerCount source).2) _ _).1
    refine Prod.le_def.mpr ⟨input, ?_⟩
    have below : (lirAssignmentStart registerCount index).1 ⊆ Finset.range registerCount := by
      simp only [lirAssignmentStart]
      split
      · exact Finset.empty_subset _
      · exact Finset.Subset.refl _
    cases fetched : instructions[index]? with
    | none =>
        simp only [lirAssignmentUpdate, reached, ↓reduceIte, fetched, Option.bind_none] at input ⊢
        exact input.trans below
    | some instruction =>
        rw [lirAssignmentUpdate_output _ reached fetched]
        unfold LirInstruction.assign
        split
        · rename_i dst assigned
          refine Finset.insert_subset ?_ (input.trans below)
          exact Finset.mem_range.mpr
            (bounded instruction (List.mem_of_getElem? fetched) dst assigned)
        · exact input.trans below
  · simp only [lirAssignmentUpdate, reached, ↓reduceIte, le_refl]

/-- The analysis of a function with registers in range reaches its fixpoint. -/
theorem lirAssignment_isSome {registerCount : Nat}
    (bounded : ∀ instruction ∈ instructions, ∀ dst, instruction.dst = some dst →
      dst < registerCount) :
    (lirAssignment instructions labels registerCount).isSome = true := by
  have mono : StrictMono fun fact : Finset Nat × Finset Nat => fact.1.card + fact.2.card := by
    intro small large below
    rcases Prod.lt_iff.mp below with ⟨first, second⟩ | ⟨first, second⟩
    · exact Nat.add_lt_add_of_lt_of_le (Finset.card_lt_card first) (Finset.card_le_card second)
    · exact Nat.add_lt_add_of_le_of_lt (Finset.card_le_card first) (Finset.card_lt_card second)
  apply solve_isSome mono lirAssignmentUpdate_monotone _ _ (lirAssignmentStart_descending bounded)
  have each : ∀ index ∈ List.range instructions.length,
      (lirAssignmentStart registerCount index).1.card +
        (lirAssignmentStart registerCount index).2.card ≤ 2 * registerCount := by
    intro index _
    simp only [lirAssignmentStart, Finset.card_range]
    split
    · simp only [Finset.card_empty]
      omega
    · simp only [Finset.card_range]
      omega
  have total := List.sum_le_card_nsmul ((List.range instructions.length).map fun index =>
    (lirAssignmentStart registerCount index).1.card +
      (lirAssignmentStart registerCount index).2.card) (2 * registerCount) (by
        intro size member
        obtain ⟨index, inside, rfl⟩ := List.mem_map.mp member
        exact each index inside)
  simp only [List.length_map, List.length_range, smul_eq_mul] at total
  unfold totalRank lirAssignmentRounds
  rw [Nat.mul_comm] at total
  exact Nat.lt_succ_of_le total

/-- What the verifier has established of an accepted function's control flow. -/
structure LirVerified (instructions : List LirInstruction) (labels : Nat → Option Nat)
    (facts : Nat → Finset Nat × Finset Nat) : Prop where
  nonempty : 0 < instructions.length
  agree : ∀ target, labels target = labelIndex instructions target
  targets : ∀ instruction ∈ instructions, ∀ target, instruction.op.target? = some target →
    (labelIndex instructions target).isSome = true
  fixpoint : ∀ index < instructions.length,
    lirAssignmentUpdate instructions labels index facts = facts index
  ends : ∀ index instruction, instructions[index]? = some instruction →
    index ∈ lirReachable instructions labels → instruction.op ≠ .ret →
    lirSuccessors instructions labels index ≠ []
  used : ∀ index instruction, instructions[index]? = some instruction →
    index ∈ lirReachable instructions labels →
    ∀ register ∈ instruction.args, register ∈ (facts index).1

end Flow

theorem lirRegisterTypesFrom_bounded {count : Nat} : ∀ (instructions : List LirInstruction)
    (types result : Nat → Option Ty), lirRegisterTypesFrom count instructions types = .ok result →
    ∀ instruction ∈ instructions, ∀ dst, instruction.dst = some dst → dst < count := by
  intro instructions
  induction instructions with
  | nil =>
      intro types result _ instruction member
      exact (List.not_mem_nil member).elim
  | cons first rest ih =>
      intro types result success instruction member dst assigned
      cases target : first.dst with
      | none =>
          simp only [lirRegisterTypesFrom, target] at success
          rcases List.mem_cons.mp member with rfl | later
          · rw [target] at assigned
            cases assigned
          · exact ih types result success instruction later dst assigned
      | some id =>
          simp only [lirRegisterTypesFrom, target, bind_eq_ok, require_eq_ok] at success
          obtain ⟨-, inRange, -, -, done⟩ := success
          rcases List.mem_cons.mp member with rfl | later
          · rw [target] at assigned
            cases assigned
            simp only [Bool.and_eq_true, decide_eq_true_eq] at inRange
            exact inRange.1
          · exact ih _ result done instruction later dst assigned

/-- The analysis that the verifier starts, once it has typed the registers, always ends. -/
theorem lirAssignment_converges {function : LirFunction} {types : Nat → Option Ty}
    (typed : lirRegisterTypes function = .ok types) (labels : Nat → Option Nat) :
    (lirAssignment function.instructions labels function.registerCount).isSome = true :=
  lirAssignment_isSome (lirRegisterTypesFrom_bounded _ _ types typed)

theorem verifyLirFunction_verified {function : LirFunction} {signatures : Signatures}
    {pointerBits : Nat} (accepted : verifyLirFunction function signatures pointerBits = .ok ()) :
    ∃ labels facts, lirLabelIndices function.instructions = .ok labels ∧
      LirVerified function.instructions labels facts := by
  simp only [verifyLirFunction, bind_eq_ok, require_eq_ok, checkAll_eq_ok] at accepted
  obtain ⟨-, -, registerTypes, -, labels, labelled, -, present, -, each, -, -, analysed⟩ := accepted
  have agree := lirLabelIndices_eq labelled
  unfold verifyLirAssignment at analysed
  split at analysed
  · cases analysed
  · rename_i facts solved
    refine ⟨labels, facts, labelled, ?_, agree, ?_, ?_, ?_, ?_⟩
    · rw [List.length_pos_iff]
      intro empty
      rw [empty] at present
      cases present
    · intro instruction member target transfers
      have checked := each instruction member
      simp only [verifyLirInstruction, bind_eq_ok] at checked
      obtain ⟨_, targeted, _⟩ := checked
      rw [← agree]
      cases kind : instruction.op with
      | jump _ =>
          simp only [verifyLirTransfer, kind, LirOp.target?, Option.some.injEq] at transfers targeted
          subst transfers
          exact require_eq_ok.mp targeted
      | branchZero _ =>
          simp only [verifyLirTransfer, kind, LirOp.target?, Option.some.injEq] at transfers targeted
          subst transfers
          exact require_eq_ok.mp targeted
      | _ => simp [kind, LirOp.target?] at transfers
    · intro index inside
      exact solve_fixpoint _ _ facts solved index (List.mem_range.mpr inside)
    all_goals
      intro index instruction fetched reached
      have inside : index < function.instructions.length := (List.getElem?_eq_some_iff.mp fetched).1
      have checked := checkAll_eq_ok.mp analysed index (List.mem_range.mpr inside)
      simp only [fetched, reached, ↓reduceIte, bind_eq_ok, require_eq_ok, checkAll_eq_ok] at checked
      obtain ⟨-, ends, used⟩ := checked
    · intro notReturn empty
      rw [empty] at ends
      simp [notReturn] at ends
    · intro register member
      simpa using used register member

/-- In an accepted function without a reachable branch at its end, every state of an execution
is at a reachable instruction, with at least the registers of the analysis assigned. -/
theorem LirVerified.invariant {instructions : List LirInstruction} {labels : Nat → Option Nat}
    {facts : Nat → Finset Nat × Finset Nat} (verified : LirVerified instructions labels facts)
    (closed : ∀ index instruction, instructions[index]? = some instruction →
      index ∈ lirReachable instructions labels → instruction.op.fallsThroughP = true →
      index + 1 < instructions.length)
    {state : LirState} (run : Relation.ReflTransGen (LirStep instructions) ⟨0, ∅⟩ state) :
    state.pc < instructions.length ∧ state.pc ∈ lirReachable instructions labels ∧
      (facts state.pc).1 ⊆ state.assigned := by
  have reachable := mem_lirReachable verified.agree verified.nonempty
  induction run with
  | refl =>
      refine ⟨verified.nonempty, (reachable 0).mpr .refl, ?_⟩
      rw [← verified.fixpoint 0 verified.nonempty]
      simp only [lirAssignmentUpdate, (reachable 0).mpr .refl, ↓reduceIte, Finset.Subset.refl]
  | @tail before after _ step ih =>
      obtain ⟨inside, reached, known⟩ := ih
      have within : after.pc < instructions.length := by
        cases step with
        | next fetched falls => exact closed _ _ fetched reached falls
        | transfer _ _ found => exact labelIndex_lt found
      have edge := step.edge verified.agree within
      have afterReached := (reachable _).mpr (((reachable _).mp reached).tail edge)
      refine ⟨within, afterReached, ?_⟩
      have input := lirAssignmentUpdate_input facts afterReached reached inside edge
      rw [verified.fixpoint _ within] at input
      have assigned : ∃ instruction, instructions[before.pc]? = some instruction ∧
          after.assigned = instruction.assign before.assigned := by
        cases step with
        | next fetched _ => exact ⟨_, fetched, rfl⟩
        | transfer fetched _ _ => exact ⟨_, fetched, rfl⟩
      obtain ⟨instruction, fetched, equal⟩ := assigned
      have output := lirAssignmentUpdate_output facts reached fetched
      rw [verified.fixpoint _ inside] at output
      calc (facts after.pc).1 ⊆ (facts before.pc).2 := input
        _ = instruction.assign (facts before.pc).1 := output
        _ ⊆ instruction.assign before.assigned := instruction.assign_mono known
        _ = after.assigned := equal.symm

/-- An accepted LIR function runs safely, whichever way its branches go, exactly when no reachable
conditional branch is its last instruction. -/
theorem verifyLirFunction_safe_iff {function : LirFunction} {signatures : Signatures}
    {pointerBits : Nat} (accepted : verifyLirFunction function signatures pointerBits = .ok ()) :
    function.ExecutionSafe ↔ ¬function.BranchAtEnd := by
  obtain ⟨labels, facts, labelled, verified⟩ := verifyLirFunction_verified accepted
  have reachable := mem_lirReachable verified.agree verified.nonempty
  constructor
  · rintro safe ⟨others, target, same, last, reached⟩
    rw [labelled] at same
    cases same
    obtain ⟨assigned, run⟩ := exists_execution verified.agree ((reachable _).mp reached)
    obtain ⟨instruction, fetched, kind⟩ := Option.map_eq_some_iff.mp last
    rw [List.getLast?_eq_getElem?] at fetched
    have beyond := (safe _ (run.tail (LirStep.next fetched (by rw [kind]; rfl)))).inside
    have positive := verified.nonempty
    simp only at beyond
    omega
  · intro noBranch
    have closed : ∀ index instruction, function.instructions[index]? = some instruction →
        index ∈ lirReachable function.instructions labels →
        instruction.op.fallsThroughP = true → index + 1 < function.instructions.length := by
      intro index instruction fetched reached falls
      have inside := (List.getElem?_eq_some_iff.mp fetched).1
      by_contra beyond
      have lastIndex : index = function.instructions.length - 1 := by omega
      cases target : instruction.op.target? with
      | some label =>
          have kind : instruction.op = .branchZero label := by
            cases shape : instruction.op <;> simp_all [LirOp.target?, LirOp.fallsThroughP]
          refine noBranch ⟨labels, label, labelled, ?_, lastIndex ▸ reached⟩
          rw [List.getLast?_eq_getElem?, ← lastIndex, fetched, Option.map_some, kind]
      | none =>
          obtain ⟨next, edge⟩ := List.exists_mem_of_ne_nil _
            (verified.ends index instruction fetched reached (fun kind => by
              rw [kind] at falls
              cases falls))
          rcases (mem_lirSuccessors verified.agree fetched).mp edge with
            ⟨-, rfl, within⟩ | ⟨label, transfers, -⟩
          · exact beyond within
          · rw [target] at transfers
            cases transfers
    intro state run
    obtain ⟨inside, reached, known⟩ := verified.invariant closed run
    refine ⟨inside, ?_, ?_, ?_⟩
    · intro instruction fetched register member
      exact known (verified.used _ instruction fetched reached register member)
    · intro instruction target fetched transfers
      exact verified.targets instruction (List.mem_of_getElem? fetched) target transfers
    · obtain ⟨instruction, fetched⟩ : ∃ instruction,
          function.instructions[state.pc]? = some instruction :=
        ⟨_, List.getElem?_eq_getElem inside⟩
      by_cases returns : instruction.op = .ret
      · exact .inl ⟨instruction, fetched, returns⟩
      · obtain ⟨next, edge⟩ := List.exists_mem_of_ne_nil _
          (verified.ends _ instruction fetched reached returns)
        obtain ⟨after, step⟩ := lirStep_of_edge verified.agree edge state.assigned
        exact .inr ⟨_, step⟩

/-- A branch to a return is the last instruction, and its condition is true. -/
def endBranch : LirFunction where
  name := "end-branch"
  signature := { name := "end-branch", arguments := [], result := .boolean }
  instructions :=
    [{ op := .label 0 },
      { op := .constant (.integer 1) .boolean, dst := some 0, type := some .boolean },
      { op := .jump 2 },
      { op := .label 1 },
      { op := .ret, type := some .boolean, args := [0] },
      { op := .label 2 },
      { op := .branchZero 1, args := [0] }]
  registerCount := 1

/-- The verifier accepts a function that runs past its last instruction. -/
theorem endBranch_unsafe : verifyLirFunction endBranch (fun _ => none) 64 = .ok () ∧
    ¬endBranch.ExecutionSafe := by
  refine ⟨by rfl, fun safe => ?_⟩
  have label : LirStep endBranch.instructions ⟨0, ∅⟩ ⟨1, ∅⟩ :=
    @LirStep.next _ ⟨0, ∅⟩ { op := .label 0 } rfl rfl
  have assign : LirStep endBranch.instructions ⟨1, ∅⟩ ⟨2, {0}⟩ :=
    @LirStep.next _ ⟨1, ∅⟩
      { op := .constant (.integer 1) .boolean, dst := some 0, type := some .boolean } rfl rfl
  have jump : LirStep endBranch.instructions ⟨2, {0}⟩ ⟨5, {0}⟩ :=
    @LirStep.transfer _ ⟨2, {0}⟩ { op := .jump 2 } 2 5 rfl rfl rfl
  have target : LirStep endBranch.instructions ⟨5, {0}⟩ ⟨6, {0}⟩ :=
    @LirStep.next _ ⟨5, {0}⟩ { op := .label 2 } rfl rfl
  have branch : LirStep endBranch.instructions ⟨6, {0}⟩ ⟨7, {0}⟩ :=
    @LirStep.next _ ⟨6, {0}⟩ { op := .branchZero 1, args := [0] } rfl rfl
  have beyond := (safe _ (((((Relation.ReflTransGen.single label).tail assign).tail jump).tail
    target).tail branch)).inside
  exact absurd beyond (by decide)

/-- The same function with its blocks in the other order. -/
def innerBranch : LirFunction where
  name := "inner-branch"
  signature := { name := "inner-branch", arguments := [], result := .boolean }
  instructions :=
    [{ op := .label 0 },
      { op := .constant (.integer 1) .boolean, dst := some 0, type := some .boolean },
      { op := .branchZero 1, args := [0] },
      { op := .label 1 },
      { op := .ret, type := some .boolean, args := [0] }]
  registerCount := 1

theorem innerBranch_safe : verifyLirFunction innerBranch (fun _ => none) 64 = .ok () ∧
    innerBranch.ExecutionSafe := by
  refine ⟨by rfl, (@verifyLirFunction_safe_iff _ (fun _ => none) 64
    (by rfl)).mpr ?_⟩
  rintro ⟨labels, target, -, last, -⟩
  cases last

end Stage0
