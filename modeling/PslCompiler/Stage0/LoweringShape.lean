import PslCompiler.Stage0.Execution
import PslCompiler.Stage0.Lower
import PslCompiler.Stage0.VerifyHir

/-! # The control flow that lowering builds

Lowering a node extends the block under construction, finishes it and goes on in a new one, or
both. Finished blocks stay as they are, new edges lead to new blocks, and a phi stands at the start
of its block with an input for every edge.
-/

namespace Stage0

/-- Induction over a tree, with the property for the initializers and the children. -/
theorem Hir.induction {motive : Hir → Prop}
    (node : ∀ kind type bindings children, (∀ binding ∈ bindings, motive binding.2) →
      (∀ child ∈ children, motive child) → motive (.node kind type bindings children)) :
    ∀ tree, motive tree
  | .node kind type bindings children =>
      node kind type bindings children (fun binding _ => Hir.induction node binding.2)
        (fun child _ => Hir.induction node child)
termination_by tree => sizeOf tree
decreasing_by
  · rename_i member
    have inList := List.sizeOf_lt_of_mem member
    have inPair : sizeOf binding.2 < sizeOf binding := by
      cases binding
      simp only [Prod.mk.sizeOf_spec]
      omega
    simp only [Hir.node.sizeOf_spec]
    omega
  · rename_i member
    have inList := List.sizeOf_lt_of_mem member
    simp only [Hir.node.sizeOf_spec]
    omega

namespace SsaTerminator

/-- The terminators that lowering emits. -/
def Shaped (terminator : SsaTerminator) : Prop :=
  (∃ result, terminator = ⟨.ret, [result], []⟩) ∨ (∃ target, terminator = ⟨.jump, [], [target]⟩) ∨
    ∃ condition ifTrue ifFalse, terminator = ⟨.branch, [condition], [ifTrue, ifFalse]⟩

end SsaTerminator

namespace LoweringState

/-- A state with a block under construction. -/
structure Valid (state : LoweringState) : Prop where
  current : state.current < state.nextBlock
  unfinished : (state.blocks state.current).terminator = none
  ids : ∀ block, block < state.nextBlock → (state.blocks block).id = block
  phis : ∀ block, block < state.nextBlock → ∀ instruction ∈ (state.blocks block).instructions.tail,
    instruction.isPhi = false
  edges : ∀ block, block < state.nextBlock → ∀ target ∈ (state.blocks block).successors,
    target < state.nextBlock ∧ ∀ instruction ∈ (state.blocks target).instructions,
      instruction.isPhi = true → ∃ value, instruction.incoming.lookup block = some value
  shaped : ∀ block, block < state.nextBlock → ∀ terminator,
    (state.blocks block).terminator = some terminator → terminator.Shaped

/-- What lowering a node may do to a state. -/
structure Continues (before after : LoweringState) : Prop where
  blocks_le : before.nextBlock ≤ after.nextBlock
  values_le : before.nextValue ≤ after.nextValue
  others : ∀ block, block < before.nextBlock → block ≠ before.current →
    after.blocks block = before.blocks block
  extends_current : ∃ more, (∀ instruction ∈ more, instruction.isPhi = false) ∧
    (after.blocks before.current).instructions =
      (before.blocks before.current).instructions ++ more
  current : after.current = before.current ∨ before.nextBlock ≤ after.current ∧
    (after.blocks before.current).terminator.isSome = true
  edges : ∀ block, block < after.nextBlock → ∀ target ∈ (after.blocks block).successors,
    block < before.nextBlock ∧ block ≠ before.current ∨ before.nextBlock ≤ target
  finishes : ∀ block, before.nextBlock ≤ block → block < after.nextBlock → block ≠ after.current →
    (after.blocks block).terminator.isSome = true

/-- A state that has left the block of an earlier state for new ones. -/
structure Beyond (origin state : LoweringState) : Prop where
  blocks_le : origin.nextBlock ≤ state.nextBlock
  values_le : origin.nextValue ≤ state.nextValue
  others : ∀ block, block < origin.nextBlock → block ≠ origin.current →
    state.blocks block = origin.blocks block
  finished : (state.blocks origin.current).instructions =
      (origin.blocks origin.current).instructions ∧
    (state.blocks origin.current).terminator.isSome = true
  current : origin.nextBlock ≤ state.current
  edges : ∀ block, block < state.nextBlock → ∀ target ∈ (state.blocks block).successors,
    block < origin.nextBlock ∧ block ≠ origin.current ∨ origin.nextBlock ≤ target

/-- All blocks that are new since an earlier state are finished, apart from the one under
construction and those still to be entered. -/
def Finishes (origin state : LoweringState) (pending : List Nat) : Prop :=
  ∀ block, origin.nextBlock ≤ block → block < state.nextBlock → block ≠ state.current →
    block ∉ pending → (state.blocks block).terminator.isSome = true

variable {before after : LoweringState}

/-- The blocks after an instruction has been emitted. -/
theorem emitValue_blocks (state : LoweringState) (op : SsaOp) (type : Ty) (args : List Nat)
    (block : Nat) : (state.emitValue op type args).2.blocks block =
      if block = state.current then { state.blocks block with
        instructions := (state.blocks block).instructions ++ [⟨state.nextValue, op, type, args⟩] }
      else state.blocks block := by
  simp only [emitValue, Function.update_apply]
  split
  · rename_i same
    rw [same]
  · rfl

/-- Finish the current block and go on in another. -/
def leaveTo (state : LoweringState) (terminator : SsaTerminator) (block : Nat) : LoweringState :=
  { state with
    blocks := Function.update state.blocks state.current
      { state.blocks state.current with terminator := terminator }
    current := block }

theorem leaveTo_blocks (state : LoweringState) (terminator : SsaTerminator) (next block : Nat) :
    (state.leaveTo terminator next).blocks block =
      if block = state.current then { state.blocks block with terminator := some terminator }
      else state.blocks block := by
  simp only [leaveTo, Function.update_apply]
  split
  · rename_i same
    rw [same]
  · rfl

theorem terminateBlock_eq (valid : before.Valid) (terminator : SsaTerminator) :
    before.terminateBlock terminator = .ok (before.leaveTo terminator before.current) := by
  unfold terminateBlock
  simp only [valid.unfinished, Option.isSome_none, Bool.false_eq_true, ↓reduceIte]
  rfl

theorem leaveTo_switchBlock (state : LoweringState) (terminator : SsaTerminator)
    (middle next : Nat) :
    (state.leaveTo terminator middle).switchBlock next = state.leaveTo terminator next := rfl

/-- Three new blocks. -/
def reserve (state : LoweringState) : LoweringState :=
  state.newBlock.2.newBlock.2.newBlock.2

theorem reserve_blocks (state : LoweringState) (block : Nat) :
    state.reserve.blocks block =
      if state.nextBlock ≤ block ∧ block < state.nextBlock + 3 then { id := block }
      else state.blocks block := by
  simp only [reserve, newBlock, Function.update_apply]
  by_cases third : block = state.nextBlock + 1 + 1
  · rw [if_pos third, if_pos (by omega), third]
  · rw [if_neg third]
    by_cases second : block = state.nextBlock + 1
    · rw [if_pos second, if_pos (by omega), second]
    · rw [if_neg second]
      by_cases first : block = state.nextBlock
      · rw [if_pos first, if_pos (by omega), first]
      · rw [if_neg first, if_neg (by omega)]

theorem reserve_nextBlock (state : LoweringState) :
    state.reserve.nextBlock = state.nextBlock + 3 := rfl

/-! ## Steps keep states valid -/

/-- A phi may be emitted at the start of a block, with an input for every edge. -/
theorem Valid.emitValue (valid : before.Valid) {op : SsaOp} (type : Ty) (args : List Nat)
    (fits : SsaInstruction.isPhi ⟨before.nextValue, op, type, args⟩ = true →
      (before.blocks before.current).instructions = [] ∧
      ∀ block, block < before.nextBlock → before.current ∈ (before.blocks block).successors →
        ∃ value, (SsaInstruction.incoming ⟨before.nextValue, op, type, args⟩).lookup block =
          some value) :
    (before.emitValue op type args).2.Valid := by
  have blocks := emitValue_blocks before op type args
  have keeps : ∀ block,
      ((before.emitValue op type args).2.blocks block).terminator =
        (before.blocks block).terminator ∧
      ((before.emitValue op type args).2.blocks block).id = (before.blocks block).id := by
    intro block
    rw [blocks]
    split
    · exact ⟨rfl, rfl⟩
    · exact ⟨rfl, rfl⟩
  have successors : ∀ block, ((before.emitValue op type args).2.blocks block).successors =
      (before.blocks block).successors := by
    intro block
    unfold SsaBlock.successors
    rw [(keeps block).1]
  refine ⟨valid.current, ?_, ?_, ?_, ?_, ?_⟩
  · rw [← valid.unfinished]
    exact (keeps _).1
  · intro block inside
    rw [(keeps block).2]
    exact valid.ids block inside
  · intro block inside instruction member
    rw [blocks] at member
    split at member
    · rename_i here
      subst here
      rcases empty : (before.blocks before.current).instructions with _ | ⟨first, rest⟩
      · simp [empty] at member
      · simp only [empty, List.cons_append, List.tail_cons, List.mem_append,
          List.mem_singleton] at member
        rcases member with old | rfl
        · refine valid.phis _ valid.current instruction ?_
          rw [empty]
          exact old
        · by_contra isPhi
          rw [(fits (by simpa using isPhi)).1] at empty
          cases empty
    · exact valid.phis block inside instruction member
  · intro block inside target edge
    rw [successors] at edge
    obtain ⟨bounded, inputs⟩ := valid.edges block inside target edge
    refine ⟨bounded, ?_⟩
    intro instruction member isPhi
    rw [blocks] at member
    split at member
    · rename_i here
      subst here
      rcases List.mem_append.mp member with old | new
      · exact inputs instruction old isPhi
      · rw [List.mem_singleton.mp new] at isPhi ⊢
        exact (fits isPhi).2 block inside edge
    · exact inputs instruction member isPhi
  · intro block inside terminator found
    rw [(keeps block).1] at found
    exact valid.shaped block inside terminator found

theorem emitValue_continues {op : SsaOp} {type : Ty} {args : List Nat} (valid : before.Valid)
    (ordinary : SsaInstruction.isPhi ⟨before.nextValue, op, type, args⟩ = false) :
    before.Continues (before.emitValue op type args).2 := by
  have blocks := emitValue_blocks before op type args
  refine ⟨le_rfl, Nat.le_succ _, ?_, ?_, .inl rfl, ?_,
    fun _ above below _ => absurd below (Nat.not_lt.mpr above)⟩
  · intro block _ other
    rw [blocks, if_neg other]
  · refine ⟨[⟨before.nextValue, op, type, args⟩], ?_, ?_⟩
    · intro instruction member
      rw [List.mem_singleton.mp member]
      exact ordinary
    · rw [blocks, if_pos rfl]
  · intro block inside target edge
    rw [blocks] at edge
    split at edge
    · rename_i here
      simp [here, SsaBlock.successors, valid.unfinished] at edge
    · rename_i other
      exact .inl ⟨inside, other⟩

/-- Leaving the current block for an unfinished one. -/
theorem Valid.leaveTo (valid : before.Valid) {terminator : SsaTerminator} {next : Nat}
    (shaped : terminator.Shaped) (bounded : next < before.nextBlock)
    (unfinished : (before.blocks next).terminator = none) (differs : next ≠ before.current)
    (targets : ∀ target ∈ terminator.targets, target < before.nextBlock ∧
      ∀ instruction ∈ (before.blocks target).instructions, instruction.isPhi = false) :
    (before.leaveTo terminator next).Valid := by
  have blocks := leaveTo_blocks before terminator next
  have instructions : ∀ block, ((before.leaveTo terminator next).blocks block).instructions =
      (before.blocks block).instructions := by
    intro block
    rw [blocks]
    split
    · rfl
    · rfl
  refine ⟨bounded, ?_, ?_, ?_, ?_, ?_⟩
  · change ((before.leaveTo terminator next).blocks next).terminator = none
    rw [blocks, if_neg differs]
    exact unfinished
  · intro block inside
    rw [blocks]
    split
    · exact valid.ids block inside
    · exact valid.ids block inside
  · intro block inside instruction member
    rw [instructions] at member
    exact valid.phis block inside instruction member
  · intro block inside target edge
    rw [blocks] at edge
    split at edge
    · rename_i here
      obtain ⟨bounded, ordinary⟩ := targets target edge
      refine ⟨bounded, fun instruction member isPhi => ?_⟩
      rw [instructions] at member
      rw [ordinary instruction member] at isPhi
      cases isPhi
    · obtain ⟨bounded, inputs⟩ := valid.edges block inside target edge
      refine ⟨bounded, fun instruction member isPhi => ?_⟩
      rw [instructions] at member
      exact inputs instruction member isPhi
  · intro block inside found same
    rw [blocks] at same
    split at same
    · cases same
      exact shaped
    · exact valid.shaped block inside found same

theorem Valid.reserve (valid : before.Valid) : before.reserve.Valid := by
  have blocks := reserve_blocks before
  have old : ∀ block, block < before.nextBlock → before.reserve.blocks block = before.blocks block := by
    intro block inside
    rw [blocks, if_neg (by omega)]
  have size := before.reserve_nextBlock
  have below := valid.current
  refine ⟨?_, ?_, ?_, ?_, ?_, ?_⟩
  · change before.current < before.reserve.nextBlock
    omega
  · change (before.reserve.blocks before.current).terminator = none
    rw [old _ below]
    exact valid.unfinished
  · intro block inside
    rw [blocks]
    split
    · rfl
    · exact valid.ids block (by omega)
  · intro block inside instruction member
    rw [blocks] at member
    split at member
    · cases member
    · exact valid.phis block (by omega) instruction member
  · intro block inside target edge
    rw [blocks] at edge
    split at edge
    · cases edge
    · obtain ⟨bounded, inputs⟩ := valid.edges block (by omega) target edge
      refine ⟨by omega, ?_⟩
      rw [old target bounded]
      exact inputs
  · intro block inside terminator found
    rw [blocks] at found
    split at found
    · cases found
    · exact valid.shaped block (by omega) terminator found

/-! ## Composition -/

theorem Continues.refl (valid : before.Valid) : before.Continues before := by
  refine ⟨le_rfl, le_rfl, fun _ _ _ => rfl, ⟨[], ?_, (List.append_nil _).symm⟩, .inl rfl, ?_,
    fun _ above below _ => absurd below (Nat.not_lt.mpr above)⟩
  · exact fun _ member => (List.not_mem_nil member).elim
  · intro block inside target edge
    refine .inl ⟨inside, ?_⟩
    rintro rfl
    simp [SsaBlock.successors, valid.unfinished] at edge

theorem Continues.trans {middle : LoweringState} (valid : before.Valid)
    (first : before.Continues middle) (second : middle.Continues after) : before.Continues after := by
  obtain ⟨more, ordinary, extended⟩ := first.extends_current
  obtain ⟨others, otherwise', extended'⟩ := second.extends_current
  have below := valid.current
  refine ⟨first.blocks_le.trans second.blocks_le, first.values_le.trans second.values_le,
    ?_, ?_, ?_, ?_, ?_⟩
  · intro block inside other
    have differs : block ≠ middle.current := by
      rcases first.current with same | ⟨beyond, -⟩
      · rwa [same]
      · omega
    rw [second.others block (Nat.lt_of_lt_of_le inside first.blocks_le) differs,
      first.others block inside other]
  · rcases first.current with same | ⟨beyond, -⟩
    · refine ⟨more ++ others, ?_, ?_⟩
      · intro instruction member
        rcases List.mem_append.mp member with here | there
        · exact ordinary instruction here
        · exact otherwise' instruction there
      · rw [← List.append_assoc, ← extended, ← same]
        exact extended'
    · refine ⟨more, ordinary, ?_⟩
      rw [second.others before.current (Nat.lt_of_lt_of_le below first.blocks_le) (by omega)]
      exact extended
  · rcases first.current with same | ⟨beyond, finished⟩
    · rcases second.current with same' | ⟨beyond', finished'⟩
      · exact .inl (same'.trans same)
      · rw [same] at finished'
        exact .inr ⟨first.blocks_le.trans beyond', finished'⟩
    · have kept := second.others before.current (Nat.lt_of_lt_of_le below first.blocks_le) (by omega)
      refine .inr ⟨?_, by rw [kept]; exact finished⟩
      rcases second.current with same' | ⟨beyond', -⟩
      · omega
      · exact first.blocks_le.trans beyond'
  · intro block inside target edge
    rcases second.edges block inside target edge with ⟨old, other⟩ | new
    · rw [second.others block old other] at edge
      exact first.edges block old target edge
    · exact .inr (first.blocks_le.trans new)
  · intro block above inside other
    by_cases old : block < middle.nextBlock
    · by_cases here : block = middle.current
      · subst here
        rcases second.current with same | ⟨-, finished⟩
        · exact (other same.symm).elim
        · exact finished
      · rw [second.others block old here]
        exact first.finishes block above old here
    · exact second.finishes block (Nat.le_of_not_lt old) inside other

theorem Beyond.continues {origin : LoweringState} (beyond : origin.Beyond before)
    (finishes : origin.Finishes before []) : origin.Continues before := by
  refine ⟨beyond.blocks_le, beyond.values_le, beyond.others, ⟨[], ?_, ?_⟩,
    .inr ⟨beyond.current, beyond.finished.2⟩, beyond.edges,
    fun block above inside other => finishes block above inside other List.not_mem_nil⟩
  · exact fun _ member => (List.not_mem_nil member).elim
  · rw [List.append_nil]
    exact beyond.finished.1

/-- The first step beyond a state: three new blocks, one of which is entered. -/
theorem beyond_leaveTo {origin : LoweringState} (valid : origin.Valid) {terminator : SsaTerminator}
    {next : Nat} (new : origin.nextBlock ≤ next)
    (targets : ∀ target ∈ terminator.targets, origin.nextBlock ≤ target) :
    origin.Beyond (origin.reserve.leaveTo terminator next) := by
  have blocks := leaveTo_blocks origin.reserve terminator next
  have below := valid.current
  have size := origin.reserve_nextBlock
  have same : origin.reserve.current = origin.current := rfl
  have old : ∀ block, block < origin.nextBlock → origin.reserve.blocks block = origin.blocks block := by
    intro block inside
    rw [reserve_blocks, if_neg (by omega)]
  refine ⟨?_, le_rfl, ?_, ?_, new, ?_⟩
  · change origin.nextBlock ≤ origin.reserve.nextBlock
    omega
  · intro block inside other
    rw [blocks, if_neg (by rwa [same]), old block inside]
  · rw [blocks, if_pos same.symm, old _ below]
    exact ⟨rfl, rfl⟩
  · intro block inside target edge
    change block < origin.reserve.nextBlock at inside
    rw [blocks] at edge
    split at edge
    · exact .inr (targets target edge)
    · rename_i other
      rw [reserve_blocks] at edge
      split at edge
      · cases edge
      · exact .inl ⟨by omega, by rwa [same] at other⟩

theorem Beyond.trans {origin : LoweringState} (valid : origin.Valid)
    (beyond : origin.Beyond before) (further : before.Continues after) : origin.Beyond after := by
  have below := valid.current
  have old : ∀ block, block < origin.nextBlock → after.blocks block = before.blocks block := by
    intro block inside
    have := beyond.current
    have := beyond.blocks_le
    exact further.others block (by omega) (by omega)
  refine ⟨beyond.blocks_le.trans further.blocks_le, beyond.values_le.trans further.values_le, ?_,
    ?_, ?_, ?_⟩
  · intro block inside other
    rw [old block inside, beyond.others block inside other]
  · rw [old _ below]
    exact beyond.finished
  · rcases further.current with same | ⟨new, -⟩
    · rw [same]
      exact beyond.current
    · exact beyond.blocks_le.trans new
  · intro block inside target edge
    rcases further.edges block inside target edge with ⟨known, other⟩ | new
    · rw [further.others block known other] at edge
      exact beyond.edges block known target edge
    · exact .inr (beyond.blocks_le.trans new)

theorem Beyond.leaveTo {origin : LoweringState} (valid : origin.Valid)
    (beyond : origin.Beyond before) {terminator : SsaTerminator} {next : Nat}
    (new : origin.nextBlock ≤ next)
    (targets : ∀ target ∈ terminator.targets, origin.nextBlock ≤ target) :
    origin.Beyond (before.leaveTo terminator next) := by
  have blocks := leaveTo_blocks before terminator next
  have below := valid.current
  have current := beyond.current
  refine ⟨beyond.blocks_le, beyond.values_le, ?_, ?_, new, ?_⟩
  · intro block inside other
    rw [blocks, if_neg (by omega), beyond.others block inside other]
  · rw [blocks, if_neg (by omega)]
    exact beyond.finished
  · intro block inside target edge
    rw [blocks] at edge
    split at edge
    · exact .inr (targets target edge)
    · exact beyond.edges block inside target edge

theorem Beyond.emitValue {origin : LoweringState} (valid : origin.Valid)
    (beyond : origin.Beyond before) (op : SsaOp) (type : Ty) (args : List Nat) :
    origin.Beyond (before.emitValue op type args).2 := by
  have blocks := emitValue_blocks before op type args
  have below := valid.current
  have current := beyond.current
  refine ⟨beyond.blocks_le, beyond.values_le.trans (Nat.le_succ _), ?_, ?_, current, ?_⟩
  · intro block inside other
    rw [blocks, if_neg (by omega), beyond.others block inside other]
  · rw [blocks, if_neg (by omega)]
    exact beyond.finished
  · intro block inside target edge
    rw [blocks] at edge
    split at edge
    · exact beyond.edges block inside target edge
    · exact beyond.edges block inside target edge

/-- Of three new blocks the first is under construction. -/
theorem finishes_leaveTo (origin : LoweringState) (terminator : SsaTerminator) :
    origin.Finishes (origin.reserve.leaveTo terminator origin.nextBlock)
      [origin.nextBlock + 1, origin.nextBlock + 2] := by
  intro block above inside other absent
  change block < origin.nextBlock + 3 at inside
  change block ≠ origin.nextBlock at other
  simp only [List.mem_cons, List.not_mem_nil, or_false] at absent
  omega

theorem Finishes.trans {origin : LoweringState} {pending : List Nat}
    (finishes : origin.Finishes before pending) (further : before.Continues after) :
    origin.Finishes after pending := by
  intro block above inside other absent
  by_cases old : block < before.nextBlock
  · by_cases here : block = before.current
    · subst here
      rcases further.current with same | ⟨-, finished⟩
      · exact (other same.symm).elim
      · exact finished
    · rw [further.others block old here]
      exact finishes block above old here absent
  · exact further.finishes block (Nat.le_of_not_lt old) inside other

theorem Finishes.leaveTo {origin : LoweringState} {next : Nat} {pending : List Nat}
    (finishes : origin.Finishes before (next :: pending)) (terminator : SsaTerminator) :
    origin.Finishes (before.leaveTo terminator next) pending := by
  intro block above inside other absent
  rw [leaveTo_blocks]
  split
  · rfl
  · rename_i here
    exact finishes block above inside here (List.not_mem_cons_of_ne_of_not_mem other absent)

theorem Finishes.emitValue {origin : LoweringState} {pending : List Nat}
    (finishes : origin.Finishes before pending) (op : SsaOp) (type : Ty) (args : List Nat) :
    origin.Finishes (before.emitValue op type args).2 pending := by
  intro block above inside other absent
  have here := finishes block above inside other absent
  rw [emitValue_blocks]
  split
  · exact here
  · exact here

theorem terminateBlock_eq_ok {terminator : SsaTerminator} :
    before.terminateBlock terminator = .ok after ↔
      (before.blocks before.current).terminator = none ∧
        after = before.leaveTo terminator before.current := by
  unfold terminateBlock
  cases finished : (before.blocks before.current).terminator with
  | some terminator' => simp [finished]
  | none =>
      simp only [finished, Option.isSome_none, Bool.false_eq_true, ↓reduceIte, true_and]
      constructor
      · intro done
        cases done
        rfl
      · rintro rfl
        rfl

end LoweringState

open LoweringState

/-! ## Conditionals and loops, step by step -/

section Control

variable {environment : List (String × Nat)} {before after : LoweringState}

/-- The state in which a branch to two of three new blocks starts the first of them. -/
def forked (state : LoweringState) (test : Nat) : LoweringState :=
  state.reserve.leaveTo ⟨.branch, [test], [state.nextBlock, state.nextBlock + 1]⟩ state.nextBlock

/-- How a conditional is lowered: an arm without a test, or two arms that meet in a phi. -/
theorem lowerIf_cases {type : Ty} {condition ifTrue ifFalse : Hir} {value : Nat}
    (lowered : lowerIf environment type [condition, ifTrue, ifFalse] before = .ok (value, after)) :
    ∃ test tested, lowerHir environment condition before = .ok (test, tested) ∧
      (condition.type ≠ .boolean ∧ lowerHir environment ifTrue tested = .ok (value, after) ∨
        condition.type = .boolean ∧ ∃ thenValue thenState elseValue elseState,
          lowerHir environment ifTrue (forked tested test) = .ok (thenValue, thenState) ∧
          lowerHir environment ifFalse
              (thenState.leaveTo ⟨.jump, [], [tested.nextBlock + 2]⟩ (tested.nextBlock + 1)) =
            .ok (elseValue, elseState) ∧
          (value, after) =
            (elseState.leaveTo ⟨.jump, [], [tested.nextBlock + 2]⟩
              (tested.nextBlock + 2)).emitValue
                (.phi [(thenState.current, thenValue), (elseState.current, elseValue)]) type []) := by
  unfold lowerIf at lowered
  rw [bind_eq_ok] at lowered
  obtain ⟨⟨test, tested⟩, first, rest⟩ := lowered
  refine ⟨test, tested, first, ?_⟩
  by_cases boolean : condition.type = .boolean
  · simp only [boolean, ne_eq, not_true_eq_false, ↓reduceIte] at rest
    simp only [bind_eq_ok, terminateBlock_eq_ok] at rest
    obtain ⟨_, ⟨-, rfl⟩, ⟨thenValue, thenState⟩, thenArm, _, ⟨-, rfl⟩, ⟨elseValue, elseState⟩,
      elseArm, _, ⟨-, rfl⟩, done⟩ := rest
    cases done
    exact .inr ⟨boolean, thenValue, thenState, elseValue, elseState, thenArm, elseArm, rfl⟩
  · simp only [boolean, ne_eq, not_false_eq_true, ↓reduceIte] at rest
    exact .inl ⟨boolean, rest⟩

/-- How a loop is lowered: a header that tests, a body that jumps back, and a block after it. -/
theorem lowerWhile_cases {condition body : Hir} {value : Nat}
    (lowered : lowerWhile environment [condition, body] before = .ok (value, after)) :
    ∃ test tested result bodyState,
      lowerHir environment condition
          (before.reserve.leaveTo ⟨.jump, [], [before.nextBlock]⟩ before.nextBlock) =
        .ok (test, tested) ∧
      lowerHir environment body (tested.leaveTo
          ⟨.branch, [test], [before.nextBlock + 1, before.nextBlock + 2]⟩ (before.nextBlock + 1)) =
        .ok (result, bodyState) ∧
      (value, after) = (bodyState.leaveTo ⟨.jump, [], [before.nextBlock]⟩
        (before.nextBlock + 2)).emitValue (.constant (.integer 0)) .boolean [] := by
  unfold lowerWhile at lowered
  simp only [bind_eq_ok, terminateBlock_eq_ok] at lowered
  obtain ⟨_, ⟨-, rfl⟩, ⟨test, tested⟩, first, _, ⟨-, rfl⟩, ⟨result, bodyState⟩, second, _,
    ⟨-, rfl⟩, done⟩ := lowered
  cases done
  exact ⟨test, tested, result, bodyState, first, second, rfl⟩

end Control

/-! ## Lowering keeps states valid -/

namespace LoweringState

variable {before after : LoweringState}

/-- An edge to a block of the earlier state is an edge of the earlier state. -/
theorem Continues.edge (continues : before.Continues after) {block target : Nat}
    (inside : block < after.nextBlock) (edge : target ∈ (after.blocks block).successors)
    (old : target < before.nextBlock) :
    block < before.nextBlock ∧ target ∈ (before.blocks block).successors := by
  rcases continues.edges block inside target edge with ⟨known, other⟩ | new
  · rw [continues.others block known other] at edge
    exact ⟨known, edge⟩
  · omega

theorem leaveTo_edge {terminator : SsaTerminator} {next block target : Nat}
    (edge : target ∈ ((before.leaveTo terminator next).blocks block).successors) :
    block = before.current ∨ target ∈ (before.blocks block).successors := by
  rw [leaveTo_blocks] at edge
  split at edge
  · rename_i here
    exact .inl here
  · exact .inr edge

/-- Entering the first of three new blocks. -/
theorem Valid.enter (valid : before.Valid) {terminator : SsaTerminator} (shaped : terminator.Shaped)
    (targets : ∀ target ∈ terminator.targets, before.nextBlock ≤ target ∧
      target < before.nextBlock + 3) :
    (before.reserve.leaveTo terminator before.nextBlock).Valid ∧
      before.Beyond (before.reserve.leaveTo terminator before.nextBlock) ∧
      ∀ block, before.nextBlock ≤ block → block < before.nextBlock + 3 →
        (before.reserve.leaveTo terminator before.nextBlock).blocks block = { id := block } := by
  have blocks := reserve_blocks before
  have below := valid.current
  have same : before.reserve.current = before.current := rfl
  refine ⟨?_, ?_, ?_⟩
  · refine valid.reserve.leaveTo shaped ?_ ?_ ?_ ?_
    · change before.nextBlock < before.nextBlock + 3
      omega
    · rw [blocks, if_pos (by omega)]
    · rw [same]
      omega
    · intro target member
      obtain ⟨lower, upper⟩ := targets target member
      refine ⟨upper, ?_⟩
      rw [blocks, if_pos ⟨lower, upper⟩]
      exact fun _ inside => (List.not_mem_nil inside).elim
  · exact beyond_leaveTo valid le_rfl fun target member => (targets target member).1
  · intro block lower upper
    rw [leaveTo_blocks, if_neg (by omega), blocks, if_pos (by omega)]

end LoweringState

/-- Lowering a node keeps a state valid and only extends it. -/
def LoweringSound (node : Hir) : Prop :=
  ∀ {environment before value after}, lowerHir environment node before = .ok (value, after) →
    before.Valid → after.Valid ∧ before.Continues after

section Sound

variable {environment : List (String × Nat)} {before after : LoweringState}

theorem lowerChildren_sound {children : List Hir} (sound : ∀ child ∈ children, LoweringSound child)
    {ids : List Nat} (lowered : lowerChildren environment children before = .ok (ids, after))
    (valid : before.Valid) : after.Valid ∧ before.Continues after := by
  induction children generalizing before ids with
  | nil =>
      unfold lowerChildren at lowered
      cases lowered
      exact ⟨valid, Continues.refl valid⟩
  | cons child rest ih =>
      unfold lowerChildren at lowered
      simp only [bind_eq_ok] at lowered
      obtain ⟨⟨id, middle⟩, first, ⟨ids', final⟩, others, done⟩ := lowered
      cases done
      obtain ⟨validMiddle, one⟩ := sound child List.mem_cons_self first valid
      obtain ⟨validAfter, more⟩ :=
        ih (fun other member => sound other (List.mem_cons_of_mem _ member)) others validMiddle
      exact ⟨validAfter, one.trans valid more⟩

theorem lowerProgn_sound {children : List Hir} (sound : ∀ child ∈ children, LoweringSound child)
    {value : Nat} (lowered : lowerProgn environment children before = .ok (value, after))
    (valid : before.Valid) : after.Valid ∧ before.Continues after := by
  induction children generalizing before with
  | nil => cases lowered
  | cons child rest ih =>
      rcases rest with _ | ⟨next, rest⟩
      · exact sound child List.mem_cons_self lowered valid
      · unfold lowerProgn at lowered
        simp only [bind_eq_ok] at lowered
        obtain ⟨⟨id, middle⟩, first, others⟩ := lowered
        obtain ⟨validMiddle, one⟩ := sound child List.mem_cons_self first valid
        obtain ⟨validAfter, more⟩ :=
          ih (fun other member => sound other (List.mem_cons_of_mem _ member)) others validMiddle
        exact ⟨validAfter, one.trans valid more⟩

theorem lowerBindings_sound {bindings : List (String × Hir)}
    (sound : ∀ binding ∈ bindings, LoweringSound binding.2) {scope result : List (String × Nat)}
    (lowered : lowerBindings environment scope bindings before = .ok (result, after))
    (valid : before.Valid) : after.Valid ∧ before.Continues after := by
  induction bindings generalizing before scope with
  | nil =>
      unfold lowerBindings at lowered
      cases lowered
      exact ⟨valid, Continues.refl valid⟩
  | cons binding rest ih =>
      unfold lowerBindings at lowered
      simp only [bind_eq_ok] at lowered
      obtain ⟨⟨id, middle⟩, first, others⟩ := lowered
      obtain ⟨validMiddle, one⟩ := sound binding List.mem_cons_self first valid
      obtain ⟨validAfter, more⟩ :=
        ih (fun other member => sound other (List.mem_cons_of_mem _ member)) others validMiddle
      exact ⟨validAfter, one.trans valid more⟩

theorem forked_sound {tested : LoweringState} (valid : tested.Valid) (test : Nat) :
    (forked tested test).Valid ∧ tested.Beyond (forked tested test) ∧
      ∀ block, tested.nextBlock ≤ block → block < tested.nextBlock + 3 →
        (forked tested test).blocks block = { id := block } := by
  refine valid.enter (.inr (.inr ⟨_, _, _, rfl⟩)) ?_
  intro target member
  simp only [List.mem_cons, List.not_mem_nil, or_false] at member
  omega

/-- The state in which the else arm starts. -/
def otherArm (tested thenState : LoweringState) : LoweringState :=
  thenState.leaveTo ⟨.jump, [], [tested.nextBlock + 2]⟩ (tested.nextBlock + 1)

section Arms

variable {tested thenState elseState : LoweringState} {test : Nat} (valid : tested.Valid)
variable (thenValid : thenState.Valid) (thenSteps : (forked tested test).Continues thenState)

include valid thenSteps in
/-- The then arm leaves the other new blocks alone. -/
theorem thenState_fresh {block : Nat} (lower : tested.nextBlock < block)
    (upper : block < tested.nextBlock + 3) :
    thenState.blocks block = { id := block } ∧ block ≠ thenState.current ∧
      block < thenState.nextBlock := by
  obtain ⟨-, -, fresh⟩ := forked_sound valid test
  have size : tested.nextBlock + 3 ≤ thenState.nextBlock := thenSteps.blocks_le
  have start : (forked tested test).current = tested.nextBlock := rfl
  have bound : (forked tested test).nextBlock = tested.nextBlock + 3 := rfl
  refine ⟨?_, ?_, by omega⟩
  · rw [thenSteps.others block (by omega) (by omega), fresh block (Nat.le_of_lt lower) upper]
  · rcases thenSteps.current with same | ⟨new, -⟩
    · omega
    · omega

include valid thenValid thenSteps in
theorem otherArm_sound : (otherArm tested thenState).Valid ∧
    tested.Beyond (otherArm tested thenState) ∧
    (otherArm tested thenState).blocks (tested.nextBlock + 2) = { id := tested.nextBlock + 2 } := by
  obtain ⟨elseFresh, elseOther, elseBound⟩ :=
    thenState_fresh valid thenSteps (Nat.lt_succ_self _) (by omega)
  obtain ⟨joinFresh, joinOther, joinBound⟩ :=
    @thenState_fresh tested thenState test valid thenSteps (tested.nextBlock + 2) (by omega)
      (by omega)
  obtain ⟨-, beyond, -⟩ := forked_sound valid test
  refine ⟨?_, ?_, ?_⟩
  · refine thenValid.leaveTo (.inr (.inl ⟨_, rfl⟩)) elseBound (by rw [elseFresh]) elseOther ?_
    intro target member
    rw [List.mem_singleton.mp member, joinFresh]
    exact ⟨joinBound, fun _ inside => (List.not_mem_nil inside).elim⟩
  · refine (beyond.trans valid thenSteps).leaveTo valid (Nat.le_succ _) ?_
    intro target member
    rw [List.mem_singleton.mp member]
    omega
  · unfold otherArm
    rw [leaveTo_blocks, if_neg joinOther, joinFresh]

/-- The state in which both arms have ended. -/
def joined (tested elseState : LoweringState) : LoweringState :=
  elseState.leaveTo ⟨.jump, [], [tested.nextBlock + 2]⟩ (tested.nextBlock + 2)

variable (elseValid : elseState.Valid)
variable (elseSteps : (otherArm tested thenState).Continues elseState)

include valid thenValid thenSteps elseSteps in
/-- The else arm leaves the block of the join alone. -/
theorem elseState_fresh : elseState.blocks (tested.nextBlock + 2) = { id := tested.nextBlock + 2 } ∧
    tested.nextBlock + 2 ≠ elseState.current ∧ tested.nextBlock + 2 < elseState.nextBlock := by
  obtain ⟨-, -, fresh⟩ := otherArm_sound valid thenValid thenSteps
  have size : thenState.nextBlock ≤ elseState.nextBlock := elseSteps.blocks_le
  have start : (otherArm tested thenState).current = tested.nextBlock + 1 := rfl
  have bound : (otherArm tested thenState).nextBlock = thenState.nextBlock := rfl
  obtain ⟨-, -, inside⟩ := @thenState_fresh tested thenState test valid thenSteps
    (tested.nextBlock + 2) (by omega) (by omega)
  refine ⟨?_, ?_, by omega⟩
  · rw [elseSteps.others _ (by omega) (by omega), fresh]
  · rcases elseSteps.current with same | ⟨new, -⟩
    · omega
    · omega

include thenValid elseSteps thenSteps in
/-- The arms end in different blocks. -/
theorem arms_apart : elseState.current ≠ thenState.current := by
  have bound := thenValid.current
  have start : (otherArm tested thenState).current = tested.nextBlock + 1 := rfl
  have size : (otherArm tested thenState).nextBlock = thenState.nextBlock := rfl
  have start' : (forked tested test).current = tested.nextBlock := rfl
  have size' : (forked tested test).nextBlock = tested.nextBlock + 3 := rfl
  rcases thenSteps.current with same | ⟨new, -⟩ <;>
    rcases elseSteps.current with same' | ⟨new', -⟩ <;> omega

include valid thenValid thenSteps elseValid elseSteps in
theorem joined_sound : (joined tested elseState).Valid ∧ tested.Beyond (joined tested elseState) ∧
    ((joined tested elseState).blocks (tested.nextBlock + 2)).instructions = [] := by
  obtain ⟨joinFresh, joinOther, joinBound⟩ :=
    elseState_fresh valid thenValid thenSteps elseSteps
  obtain ⟨-, beyond, -⟩ := otherArm_sound valid thenValid thenSteps
  refine ⟨?_, ?_, ?_⟩
  · refine elseValid.leaveTo (.inr (.inl ⟨_, rfl⟩)) joinBound (by rw [joinFresh]) joinOther ?_
    intro target member
    rw [List.mem_singleton.mp member, joinFresh]
    exact ⟨joinBound, fun _ inside => (List.not_mem_nil inside).elim⟩
  · refine (beyond.trans valid elseSteps).leaveTo valid (by omega) ?_
    intro target member
    rw [List.mem_singleton.mp member]
    omega
  · unfold joined
    rw [leaveTo_blocks, if_neg joinOther, joinFresh]

include valid thenSteps elseSteps in
/-- Only the ends of the arms lead to the join. -/
theorem joined_edges {block : Nat} (inside : block < elseState.nextBlock)
    (edge : tested.nextBlock + 2 ∈ ((joined tested elseState).blocks block).successors) :
    block = thenState.current ∨ block = elseState.current := by
  have old : tested.nextBlock + 2 < thenState.nextBlock := by
    have size : tested.nextBlock + 3 ≤ thenState.nextBlock := thenSteps.blocks_le
    omega
  rcases leaveTo_edge edge with here | edge
  · exact .inr here
  · obtain ⟨inside, edge⟩ := elseSteps.edge inside edge old
    rcases leaveTo_edge edge with here | edge
    · exact .inl here
    · obtain ⟨inside, edge⟩ := thenSteps.edge inside edge
        (show tested.nextBlock + 2 < tested.nextBlock + 3 by omega)
      rcases leaveTo_edge edge with here | edge
      · obtain ⟨-, beyond, -⟩ := forked_sound valid test
        subst here
        rw [forked, leaveTo_blocks, if_pos rfl] at edge
        simp only [SsaBlock.successors, List.mem_cons, List.not_mem_nil, or_false] at edge
        omega
      · rw [reserve_blocks] at edge
        split at edge
        · cases edge
        · have := (valid.edges block (by
            have := tested.reserve_nextBlock
            change block < tested.reserve.nextBlock at inside
            omega) _ edge).1
          omega

include valid thenValid thenSteps elseValid elseSteps in
/-- The states of two arms that meet in a phi. -/
theorem lowerArms_sound (thenValue elseValue : Nat) (type : Ty) :
    ((joined tested elseState).emitValue
      (.phi [(thenState.current, thenValue), (elseState.current, elseValue)]) type []).2.Valid ∧
    tested.Continues ((joined tested elseState).emitValue
      (.phi [(thenState.current, thenValue), (elseState.current, elseValue)]) type []).2 := by
  obtain ⟨joinedValid, beyond, empty⟩ :=
    joined_sound valid thenValid thenSteps elseValid elseSteps
  have finishes : tested.Finishes (joined tested elseState) [] :=
    ((((finishes_leaveTo tested _).trans thenSteps).leaveTo _).trans elseSteps).leaveTo _
  refine ⟨joinedValid.emitValue type [] ?_,
    (beyond.emitValue valid _ _ _).continues (finishes.emitValue _ _ _)⟩
  refine fun _ => ⟨empty, fun block inside edge => ?_⟩
  simp only [SsaInstruction.incoming, List.lookup_cons]
  rcases joined_edges valid thenSteps elseSteps inside edge with rfl | rfl
  · exact ⟨thenValue, by simp⟩
  · split
    · exact ⟨thenValue, rfl⟩
    · exact ⟨elseValue, by simp⟩

end Arms

theorem lowerIf_sound {type : Ty} {children : List Hir}
    (sound : ∀ child ∈ children, LoweringSound child) {value : Nat}
    (lowered : lowerIf environment type children before = .ok (value, after))
    (valid : before.Valid) : after.Valid ∧ before.Continues after := by
  rcases children with _ | ⟨condition, _ | ⟨ifTrue, _ | ⟨ifFalse, _ | _⟩⟩⟩
  · cases lowered
  · cases lowered
  · cases lowered
  · obtain ⟨test, tested, first, arm | arms⟩ := lowerIf_cases lowered
    · obtain ⟨validTested, one⟩ := sound condition (by simp) first valid
      obtain ⟨validAfter, more⟩ := sound ifTrue (by simp) arm.2 validTested
      exact ⟨validAfter, one.trans valid more⟩
    · obtain ⟨-, thenValue, thenState, elseValue, elseState, thenArm, elseArm, done⟩ := arms
      obtain ⟨validTested, one⟩ := sound condition (by simp) first valid
      obtain ⟨thenValid, thenSteps⟩ :=
        sound ifTrue (by simp) thenArm (forked_sound validTested test).1
      obtain ⟨elseValid, elseSteps⟩ :=
        sound ifFalse (by simp) elseArm (otherArm_sound validTested thenValid thenSteps).1
      obtain ⟨validAfter, more⟩ := lowerArms_sound validTested thenValid thenSteps elseValid
        elseSteps thenValue elseValue type
      obtain ⟨-, same⟩ := Prod.mk.inj done
      rw [same]
      exact ⟨validAfter, one.trans valid more⟩
  · cases lowered

/-! ## Loops -/

/-- The state in which the test of a loop starts. -/
def loopTest (state : LoweringState) : LoweringState :=
  state.reserve.leaveTo ⟨.jump, [], [state.nextBlock]⟩ state.nextBlock

theorem loopTest_sound (valid : before.Valid) : (loopTest before).Valid ∧
    before.Beyond (loopTest before) ∧
    ∀ block, before.nextBlock ≤ block → block < before.nextBlock + 3 →
      (loopTest before).blocks block = { id := block } := by
  refine valid.enter (.inr (.inl ⟨_, rfl⟩)) ?_
  intro target member
  rw [List.mem_singleton.mp member]
  omega

/-- The state in which the body of a loop starts. -/
def loopBody (before tested : LoweringState) (test : Nat) : LoweringState :=
  tested.leaveTo ⟨.branch, [test], [before.nextBlock + 1, before.nextBlock + 2]⟩
    (before.nextBlock + 1)

section Loop

variable {tested bodyState : LoweringState} {test : Nat} (valid : before.Valid)
variable (testedValid : tested.Valid) (testSteps : (loopTest before).Continues tested)

include valid testSteps in
/-- The test leaves the other new blocks alone, and puts no phi into the header. -/
theorem tested_fresh : (∀ block, before.nextBlock < block → block < before.nextBlock + 3 →
      tested.blocks block = { id := block } ∧ block ≠ tested.current ∧ block < tested.nextBlock) ∧
    before.nextBlock < tested.nextBlock ∧
    ∀ instruction ∈ (tested.blocks before.nextBlock).instructions, instruction.isPhi = false := by
  obtain ⟨-, -, fresh⟩ := loopTest_sound valid
  have size : before.nextBlock + 3 ≤ tested.nextBlock := testSteps.blocks_le
  have start : (loopTest before).current = before.nextBlock := rfl
  have bound : (loopTest before).nextBlock = before.nextBlock + 3 := rfl
  refine ⟨?_, by omega, ?_⟩
  · intro block lower upper
    refine ⟨?_, ?_, by omega⟩
    · rw [testSteps.others block (by omega) (by omega), fresh block (Nat.le_of_lt lower) upper]
    · rcases testSteps.current with same | ⟨new, -⟩
      · omega
      · omega
  · obtain ⟨more, ordinary, extended⟩ := testSteps.extends_current
    have empty : ((loopTest before).blocks before.nextBlock).instructions = [] := by
      rw [fresh _ le_rfl (by omega)]
    rw [start, empty, List.nil_append] at extended
    rw [extended]
    exact ordinary

include valid testedValid testSteps in
theorem loopBody_sound (test : Nat) : (loopBody before tested test).Valid ∧
    before.Beyond (loopBody before tested test) ∧
    (loopBody before tested test).blocks (before.nextBlock + 2) = { id := before.nextBlock + 2 } ∧
    ∀ instruction ∈ ((loopBody before tested test).blocks before.nextBlock).instructions,
      instruction.isPhi = false := by
  obtain ⟨fresh, -, ordinary⟩ := tested_fresh valid testSteps
  obtain ⟨bodyFresh, bodyOther, bodyBound⟩ := fresh (before.nextBlock + 1) (by omega) (by omega)
  obtain ⟨exitFresh, exitOther, exitBound⟩ := fresh (before.nextBlock + 2) (by omega) (by omega)
  obtain ⟨-, beyond, -⟩ := loopTest_sound valid
  refine ⟨?_, ?_, ?_, ?_⟩
  · refine testedValid.leaveTo (.inr (.inr ⟨_, _, _, rfl⟩)) bodyBound (by rw [bodyFresh])
      bodyOther ?_
    intro target member
    simp only [List.mem_cons, List.not_mem_nil, or_false] at member
    rcases member with rfl | rfl
    · rw [bodyFresh]
      exact ⟨bodyBound, fun _ inside => (List.not_mem_nil inside).elim⟩
    · rw [exitFresh]
      exact ⟨exitBound, fun _ inside => (List.not_mem_nil inside).elim⟩
  · refine (beyond.trans valid testSteps).leaveTo valid (Nat.le_succ _) ?_
    intro target member
    simp only [List.mem_cons, List.not_mem_nil, or_false] at member
    omega
  · unfold loopBody
    rw [leaveTo_blocks, if_neg exitOther, exitFresh]
  · unfold loopBody
    rw [leaveTo_blocks]
    split
    · exact ordinary
    · exact ordinary

/-- The state after a loop. -/
def loopExit (before bodyState : LoweringState) : LoweringState :=
  bodyState.leaveTo ⟨.jump, [], [before.nextBlock]⟩ (before.nextBlock + 2)

variable (bodyValid : bodyState.Valid)
variable (bodySteps : (loopBody before tested test).Continues bodyState)

include valid testedValid testSteps bodyValid bodySteps in
theorem loopExit_sound : (loopExit before bodyState).Valid ∧
    before.Beyond (loopExit before bodyState) ∧
    ((loopExit before bodyState).blocks (before.nextBlock + 2)).instructions = [] := by
  obtain ⟨-, beyond, exitFresh, ordinary⟩ := loopBody_sound valid testedValid testSteps test
  obtain ⟨fresh, headerBound, -⟩ := tested_fresh valid testSteps
  obtain ⟨-, -, exitBound⟩ := fresh (before.nextBlock + 2) (by omega) (by omega)
  have size : tested.nextBlock ≤ bodyState.nextBlock := bodySteps.blocks_le
  have start : (loopBody before tested test).current = before.nextBlock + 1 := rfl
  have bound : (loopBody before tested test).nextBlock = tested.nextBlock := rfl
  have kept : ∀ block, block < tested.nextBlock → block ≠ before.nextBlock + 1 →
      bodyState.blocks block = (loopBody before tested test).blocks block := by
    intro block inside other
    exact bodySteps.others block (by omega) (by omega)
  have exitOther : before.nextBlock + 2 ≠ bodyState.current := by
    rcases bodySteps.current with same | ⟨new, -⟩
    · omega
    · omega
  refine ⟨?_, ?_, ?_⟩
  · refine bodyValid.leaveTo (.inr (.inl ⟨_, rfl⟩)) (by omega) ?_ exitOther ?_
    · rw [kept _ exitBound (by omega), exitFresh]
    · intro target member
      rw [List.mem_singleton.mp member, kept _ headerBound (by omega)]
      exact ⟨by omega, ordinary⟩
  · refine (beyond.trans valid bodySteps).leaveTo valid (by omega) ?_
    intro target member
    rw [List.mem_singleton.mp member]
  · rw [loopExit, leaveTo_blocks, if_neg exitOther, kept _ exitBound (by omega), exitFresh]

end Loop

theorem lowerWhile_sound {children : List Hir} (sound : ∀ child ∈ children, LoweringSound child)
    {value : Nat} (lowered : lowerWhile environment children before = .ok (value, after))
    (valid : before.Valid) : after.Valid ∧ before.Continues after := by
  rcases children with _ | ⟨condition, _ | ⟨body, _ | _⟩⟩
  · cases lowered
  · cases lowered
  · obtain ⟨test, tested, result, bodyState, first, second, done⟩ := lowerWhile_cases lowered
    obtain ⟨testedValid, testSteps⟩ := sound condition (by simp) first (loopTest_sound valid).1
    obtain ⟨bodyValid, bodySteps⟩ :=
      sound body (by simp) second (loopBody_sound valid testedValid testSteps test).1
    obtain ⟨exitValid, beyond, -⟩ := loopExit_sound valid testedValid testSteps bodyValid bodySteps
    obtain ⟨-, same⟩ := Prod.mk.inj done
    rw [same]
    have finishes : before.Finishes (loopExit before bodyState) [] :=
      ((((finishes_leaveTo before _).trans testSteps).leaveTo _).trans bodySteps).leaveTo _
    exact ⟨exitValid.emitValue _ _ (fun isPhi => by cases isPhi),
      (beyond.emitValue valid _ _ _).continues (finishes.emitValue _ _ _)⟩
  · cases lowered

/-- Emitting one instruction that is not a phi. -/
theorem emitValue_sound {op : SsaOp} {type : Ty} {args : List Nat} (valid : before.Valid)
    (ordinary : SsaInstruction.isPhi ⟨before.nextValue, op, type, args⟩ = false) :
    (before.emitValue op type args).2.Valid ∧
      before.Continues (before.emitValue op type args).2 := by
  refine ⟨valid.emitValue type args fun isPhi => ?_, emitValue_continues valid ordinary⟩
  rw [ordinary] at isPhi
  cases isPhi

theorem lowerOperation_sound {children : List Hir}
    (sound : ∀ child ∈ children, LoweringSound child) {op : SsaOp} {type : Ty} {value : Nat}
    (lowered : (lowerChildren environment children before >>= fun result =>
      .ok (result.2.emitValue op type result.1)) = .ok (value, after))
    (ordinary : ∀ id args, SsaInstruction.isPhi ⟨id, op, type, args⟩ = false)
    (valid : before.Valid) : after.Valid ∧ before.Continues after := by
  rw [bind_eq_ok] at lowered
  obtain ⟨⟨args, middle⟩, first, done⟩ := lowered
  obtain ⟨validMiddle, one⟩ := lowerChildren_sound sound first valid
  obtain ⟨validAfter, more⟩ :=
    emitValue_sound validMiddle (ordinary middle.nextValue args)
  cases done
  exact ⟨validAfter, one.trans valid more⟩

/-- Lowering keeps states valid. -/
theorem lowerHir_sound (node : Hir) : LoweringSound node := by
  induction node using Hir.induction with
  | node kind type bindings children bindingsSound childrenSound =>
      intro environment before value after lowered valid
      unfold lowerHir at lowered
      cases kind with
      | literal literal =>
          cases lowered
          exact emitValue_sound valid rfl
      | dataAddress name dataType =>
          cases lowered
          exact emitValue_sound valid rfl
      | «variable» name =>
          simp only [bind_eq_ok] at lowered
          obtain ⟨id, -, done⟩ := lowered
          cases done
          exact ⟨valid, Continues.refl valid⟩
      | progn => exact lowerProgn_sound childrenSound lowered valid
      | letForm =>
          simp only [bind_eq_ok] at lowered
          obtain ⟨⟨scope, middle⟩, first, second⟩ := lowered
          obtain ⟨validMiddle, one⟩ := lowerBindings_sound bindingsSound first valid
          obtain ⟨validAfter, more⟩ := lowerProgn_sound childrenSound second validMiddle
          exact ⟨validAfter, one.trans valid more⟩
      | ifForm => exact lowerIf_sound childrenSound lowered valid
      | whileForm => exact lowerWhile_sound childrenSound lowered valid
      | _ =>
          simp only [HirKind.ssaOp] at lowered
          exact lowerOperation_sound childrenSound lowered (fun _ _ => rfl) valid

end Sound

/-! ## Verified trees are lowered -/

theorem lookup_isSome_of_names {α β : Type} {name : String} : ∀ {first : List (String × α)}
    {second : List (String × β)}, first.map Prod.fst = second.map Prod.fst →
    (first.lookup name).isSome = true → ∃ value, second.lookup name = some value := by
  intro first
  induction first with
  | nil =>
      intro second _ found
      cases found
  | cons entry rest ih =>
      intro second same found
      rcases second with _ | ⟨other, others⟩
      · cases same
      · obtain ⟨key, names⟩ := List.cons.inj same
        rw [List.lookup_cons] at found ⊢
        rw [← key]
        split
        · exact ⟨_, rfl⟩
        · rename_i differs
          rw [differs] at found
          exact ih names found

/-- A verified node is lowered. -/
def LoweringTotal (signatures : Signatures) (pointerBits : Nat) (node : Hir) : Prop :=
  ∀ {types : List (String × Ty)} {environment : List (String × Nat)} {before : LoweringState}
    {type : Ty}, verifyHirNode signatures pointerBits types node = .ok type →
    types.map Prod.fst = environment.map Prod.fst → before.Valid →
    ∃ value after, lowerHir environment node before = .ok (value, after)

section Total

variable {signatures : Signatures} {pointerBits : Nat}
variable {types : List (String × Ty)} {environment : List (String × Nat)}

theorem lowerChildren_total {children : List Hir}
    (total : ∀ child ∈ children, LoweringTotal signatures pointerBits child) {found : List Ty}
    (verified : verifyHirChildren signatures pointerBits types children = .ok found)
    (names : types.map Prod.fst = environment.map Prod.fst) {before : LoweringState}
    (valid : before.Valid) :
    ∃ ids after, lowerChildren environment children before = .ok (ids, after) := by
  induction children generalizing before found with
  | nil => exact ⟨[], before, rfl⟩
  | cons child rest ih =>
      unfold verifyHirChildren at verified
      simp only [bind_eq_ok] at verified
      obtain ⟨_, first, _, others, -⟩ := verified
      obtain ⟨value, middle, one⟩ := total child List.mem_cons_self first names valid
      obtain ⟨validMiddle, -⟩ := lowerHir_sound child one valid
      obtain ⟨ids, after, more⟩ :=
        ih (fun other member => total other (List.mem_cons_of_mem _ member)) others validMiddle
      refine ⟨value :: ids, after, ?_⟩
      unfold lowerChildren
      simp only [bind_eq_ok]
      exact ⟨_, one, _, more, rfl⟩

theorem lowerProgn_total {children : List Hir}
    (total : ∀ child ∈ children, LoweringTotal signatures pointerBits child) {found : List Ty}
    (verified : verifyHirChildren signatures pointerBits types children = .ok found)
    (present : children ≠ []) (names : types.map Prod.fst = environment.map Prod.fst)
    {before : LoweringState} (valid : before.Valid) :
    ∃ value after, lowerProgn environment children before = .ok (value, after) := by
  induction children generalizing before found with
  | nil => exact (present rfl).elim
  | cons child rest ih =>
      unfold verifyHirChildren at verified
      simp only [bind_eq_ok] at verified
      obtain ⟨_, first, _, others, -⟩ := verified
      obtain ⟨value, middle, one⟩ := total child List.mem_cons_self first names valid
      rcases rest with _ | ⟨next, rest⟩
      · exact ⟨value, middle, one⟩
      · obtain ⟨validMiddle, -⟩ := lowerHir_sound child one valid
        obtain ⟨last, after, more⟩ := ih
          (fun other member => total other (List.mem_cons_of_mem _ member)) others
          (List.cons_ne_nil _ _) validMiddle
        refine ⟨last, after, ?_⟩
        unfold lowerProgn
        simp only [bind_eq_ok]
        exact ⟨_, one, more⟩

theorem lowerBindings_total {bindings : List (String × Hir)}
    (total : ∀ binding ∈ bindings, LoweringTotal signatures pointerBits binding.2)
    {outer inner scope : List (String × Ty)}
    (verified : verifyHirBindings signatures pointerBits outer inner bindings = .ok scope)
    (names : outer.map Prod.fst = environment.map Prod.fst) {start : List (String × Nat)}
    (starts : inner.map Prod.fst = start.map Prod.fst) {before : LoweringState}
    (valid : before.Valid) :
    ∃ result after, lowerBindings environment start bindings before = .ok (result, after) ∧
      scope.map Prod.fst = result.map Prod.fst := by
  induction bindings generalizing before inner start with
  | nil =>
      cases verified
      exact ⟨start, before, rfl, starts⟩
  | cons binding rest ih =>
      unfold verifyHirBindings at verified
      simp only [bind_eq_ok] at verified
      obtain ⟨type, first, others⟩ := verified
      obtain ⟨value, middle, one⟩ := total binding List.mem_cons_self first names valid
      obtain ⟨validMiddle, -⟩ := lowerHir_sound binding.2 one valid
      obtain ⟨result, after, more, ends⟩ := @ih
        (fun other member => total other (List.mem_cons_of_mem _ member))
        ((binding.1, type) :: inner) others ((binding.1, value) :: start)
        (by rw [List.map_cons, List.map_cons, starts]) middle validMiddle
      refine ⟨result, after, ?_, ends⟩
      unfold lowerBindings
      simp only [bind_eq_ok]
      exact ⟨_, one, more⟩

theorem lowerIf_total {children : List Hir}
    (total : ∀ child ∈ children, LoweringTotal signatures pointerBits child) {found : List Ty}
    (verified : verifyHirChildren signatures pointerBits types children = .ok found)
    (three : children.length = 3) (names : types.map Prod.fst = environment.map Prod.fst)
    {before : LoweringState} (valid : before.Valid) (type : Ty) :
    ∃ value after, lowerIf environment type children before = .ok (value, after) := by
  obtain ⟨condition, ifTrue, ifFalse, rfl⟩ := List.length_eq_three.mp three
  simp only [verifyHirChildren, bind_eq_ok] at verified
  obtain ⟨_, first, _, ⟨_, second, _, ⟨_, third, -⟩, -⟩, -⟩ := verified
  obtain ⟨test, tested, testing⟩ := total condition (by simp) first names valid
  obtain ⟨testedValid, -⟩ := lowerHir_sound condition testing valid
  by_cases boolean : condition.type = .boolean
  · obtain ⟨thenValue, thenState, thenArm⟩ :=
      total ifTrue (by simp) second names (forked_sound testedValid test).1
    obtain ⟨thenValid, thenSteps⟩ := lowerHir_sound ifTrue thenArm (forked_sound testedValid test).1
    have otherValid := (otherArm_sound testedValid thenValid thenSteps).1
    obtain ⟨elseValue, elseState, elseArm⟩ := total ifFalse (by simp) third names otherValid
    obtain ⟨elseValid, -⟩ := lowerHir_sound ifFalse elseArm otherValid
    refine ⟨_, _, show lowerIf environment type [condition, ifTrue, ifFalse] before =
      .ok ((joined tested elseState).emitValue
        (.phi [(thenState.current, thenValue), (elseState.current, elseValue)]) type []) from ?_⟩
    unfold lowerIf
    simp only [bind_eq_ok, boolean, ne_eq, not_true_eq_false, ↓reduceIte]
    exact ⟨_, testing, _, terminateBlock_eq testedValid.reserve _, _, thenArm, _,
      terminateBlock_eq thenValid _, _, elseArm, _, terminateBlock_eq elseValid _, rfl⟩
  · obtain ⟨value, after, arm⟩ := total ifTrue (by simp) second names testedValid
    refine ⟨value, after, ?_⟩
    unfold lowerIf
    simp only [bind_eq_ok, boolean, ne_eq, not_false_eq_true, ↓reduceIte]
    exact ⟨_, testing, arm⟩

theorem lowerWhile_total {children : List Hir}
    (total : ∀ child ∈ children, LoweringTotal signatures pointerBits child) {found : List Ty}
    (verified : verifyHirChildren signatures pointerBits types children = .ok found)
    (two : children.length = 2) (names : types.map Prod.fst = environment.map Prod.fst)
    {before : LoweringState} (valid : before.Valid) :
    ∃ value after, lowerWhile environment children before = .ok (value, after) := by
  obtain ⟨condition, body, rfl⟩ := List.length_eq_two.mp two
  simp only [verifyHirChildren, bind_eq_ok] at verified
  obtain ⟨_, first, _, ⟨_, second, -⟩, -⟩ := verified
  have startValid := (loopTest_sound valid).1
  obtain ⟨test, tested, testing⟩ := total condition (by simp) first names startValid
  obtain ⟨testedValid, testSteps⟩ := lowerHir_sound condition testing startValid
  have bodyValid := (loopBody_sound valid testedValid testSteps test).1
  obtain ⟨result, bodyState, looping⟩ := total body (by simp) second names bodyValid
  obtain ⟨endValid, -⟩ := lowerHir_sound body looping bodyValid
  refine ⟨_, _, show lowerWhile environment [condition, body] before =
    .ok ((loopExit before bodyState).emitValue (.constant (.integer 0)) .boolean []) from ?_⟩
  unfold lowerWhile
  simp only [bind_eq_ok]
  exact ⟨_, terminateBlock_eq valid.reserve _, _, testing, _, terminateBlock_eq testedValid _, _,
    looping, _, terminateBlock_eq endValid _, rfl⟩

theorem verifyHirChildren_length : ∀ {children : List Hir} {found : List Ty},
    verifyHirChildren signatures pointerBits types children = .ok found →
    found.length = children.length := by
  intro children
  induction children with
  | nil =>
      intro found verified
      cases verified
      rfl
  | cons child rest ih =>
      intro found verified
      unfold verifyHirChildren at verified
      simp only [bind_eq_ok] at verified
      obtain ⟨_, -, _, others, done⟩ := verified
      cases done
      rw [List.length_cons, List.length_cons, ih others]

/-- Every verified node is lowered. -/
theorem lowerHir_total (node : Hir) : LoweringTotal signatures pointerBits node := by
  induction node using Hir.induction with
  | node kind type bindings children bindingsTotal childrenTotal =>
      intro types environment before found verified names valid
      unfold verifyHirNode at verified
      unfold lowerHir
      cases kind with
      | literal literal => exact ⟨_, _, rfl⟩
      | dataAddress name dataType => exact ⟨_, _, rfl⟩
      | «variable» name =>
          simp only at verified
          cases declared : types.lookup name with
          | none =>
              rw [declared] at verified
              cases verified
          | some type =>
              obtain ⟨id, known⟩ := lookup_isSome_of_names names (by rw [declared]; rfl)
              refine ⟨id, before, ?_⟩
              simp only [lowerVariable, known]
              rfl
      | progn =>
          simp only [bind_eq_ok] at verified
          obtain ⟨found, checked, _, shape, -⟩ := verified
          refine lowerProgn_total childrenTotal checked ?_ names valid
          rintro rfl
          cases checked
          cases shape
      | letForm =>
          simp only [bind_eq_ok, expectCount_eq_ok] at verified
          obtain ⟨scope, outer, _, single, _, inner, _⟩ := verified
          obtain ⟨result, middle, one, scopes⟩ :=
            lowerBindings_total bindingsTotal outer names names valid
          obtain ⟨validMiddle, -⟩ :=
            lowerBindings_sound (fun binding _ => lowerHir_sound binding.2) one valid
          have present : children ≠ [] := by
            rintro rfl
            cases single
          obtain ⟨value, after, more⟩ :=
            lowerProgn_total childrenTotal inner present scopes validMiddle
          refine ⟨value, after, ?_⟩
          simp only [bind_eq_ok]
          exact ⟨_, one, more⟩
      | ifForm =>
          simp only [bind_eq_ok, verifyHirIf, expectCount_eq_ok] at verified
          obtain ⟨found, checked, _, ⟨_, three, _⟩, _⟩ := verified
          rw [verifyHirChildren_length checked] at three
          exact lowerIf_total childrenTotal checked three names valid type
      | whileForm =>
          simp only [bind_eq_ok, verifyHirWhile, expectCount_eq_ok] at verified
          obtain ⟨found, checked, _, ⟨_, two, _⟩, _⟩ := verified
          rw [verifyHirChildren_length checked] at two
          exact lowerWhile_total childrenTotal checked two names valid
      | _ =>
          simp only [bind_eq_ok] at verified
          obtain ⟨found, checked, -⟩ := verified
          obtain ⟨ids, after, lowered⟩ := lowerChildren_total childrenTotal checked names valid
          rw [lowered]
          exact ⟨_, _, rfl⟩

end Total

end Stage0
