import PslCompiler.Stage0.LoweringMeaning

/-! # Lowered functions

A verified function is lowered to blocks that are all finished, and the program of these blocks
behaves like the evaluation of the function.
-/

namespace Stage0

open Flow LoweringState

/-! ## Finished blocks -/

namespace LoweringState

/-- A state without a block under construction. -/
structure Finished (state : LoweringState) : Prop where
  ids : ∀ block, block < state.nextBlock → (state.blocks block).id = block
  phis : ∀ block, block < state.nextBlock → ∀ instruction ∈ (state.blocks block).instructions.tail,
    instruction.isPhi = false
  edges : ∀ block, block < state.nextBlock → ∀ target ∈ (state.blocks block).successors,
    target < state.nextBlock ∧ ∀ instruction ∈ (state.blocks target).instructions,
      instruction.isPhi = true → ∃ value, instruction.incoming.lookup block = some value
  shaped : ∀ block, block < state.nextBlock → ∃ terminator,
    (state.blocks block).terminator = some terminator ∧ terminator.Shaped

variable {state : LoweringState}

/-- The last block returns. -/
theorem Valid.finish (valid : state.Valid) {value : Nat}
    (finishes : ∀ block, block < state.nextBlock → block ≠ state.current →
      (state.blocks block).terminator.isSome = true) :
    (state.leaveTo ⟨.ret, [value], []⟩ state.current).Finished := by
  have blocks := leaveTo_blocks state ⟨.ret, [value], []⟩ state.current
  have instructions : ∀ block, ((state.leaveTo ⟨.ret, [value], []⟩ state.current).blocks
      block).instructions = (state.blocks block).instructions := by
    intro block
    rw [blocks]
    split
    · rfl
    · rfl
  refine ⟨?_, ?_, ?_, ?_⟩
  · intro block inside
    rw [blocks]
    split
    · exact valid.ids block inside
    · exact valid.ids block inside
  · intro block inside instruction member
    rw [instructions] at member
    exact valid.phis block inside instruction member
  · intro block inside target edge
    rw [blocks] at edge
    split at edge
    · cases edge
    · obtain ⟨bounded, inputs⟩ := valid.edges block inside target edge
      refine ⟨bounded, fun instruction member isPhi => ?_⟩
      rw [instructions] at member
      exact inputs instruction member isPhi
  · intro block inside
    rw [blocks]
    split
    · exact ⟨_, rfl, .inl ⟨value, rfl⟩⟩
    · rename_i other
      obtain ⟨terminator, found⟩ := Option.isSome_iff_exists.mp (finishes block inside other)
      exact ⟨terminator, found, valid.shaped block inside terminator found⟩

end LoweringState

/-! ## Parameters -/

/-- The state in which the parameters of a function are emitted. -/
def entryState : LoweringState := (LoweringState.newBlock {}).2.switchBlock 0

theorem entryState_blocks (block : Nat) : entryState.blocks block = { id := block } := by
  change Function.update (fun id => ({ id := id } : SsaBlock)) 0 { id := 0 } block = _
  rw [Function.update_apply]
  split
  · rename_i same
    rw [same]
  · rfl

theorem entryState_valid : entryState.Valid := by
  refine ⟨Nat.one_pos, ?_, ?_, ?_, ?_, ?_⟩
  · rw [entryState_blocks]
  · intro block _
    rw [entryState_blocks]
  · intro block _ instruction member
    rw [entryState_blocks] at member
    cases member
  · intro block _ target edge
    rw [entryState_blocks] at edge
    cases edge
  · intro block _ terminator found
    rw [entryState_blocks] at found
    cases found

theorem lowerParameters_sound : ∀ (parameters : List (String × Ty)) (index : Nat)
    {before : LoweringState}, before.Valid →
    (lowerParameters parameters index before).2.Valid ∧
      before.Continues (lowerParameters parameters index before).2 ∧
      (lowerParameters parameters index before).1.map Prod.fst = parameters.map Prod.fst := by
  intro parameters
  induction parameters with
  | nil => exact fun _ _ valid => ⟨valid, Continues.refl valid, rfl⟩
  | cons parameter rest ih =>
      intro index before valid
      obtain ⟨middleValid, one⟩ := @emitValue_sound before (.argument index) parameter.2 [] valid rfl
      obtain ⟨afterValid, more, names⟩ := ih (index + 1) middleValid
      exact ⟨afterValid, one.trans valid more, congrArg (parameter.1 :: ·) names⟩

section Parameters

variable {Value World : Type} {meaning : Interpretation Operation Value World}
variable {program : SsaProgram Operation} {final : LoweringState}
variable (implements : Implements program final)

/-- The values of parameters from an index on. -/
def argumentsFrom (meaning : Interpretation Operation Value World) (parameters : List (String × Ty))
    (index : Nat) : List (String × Value) :=
  parameters.mapIdx fun position parameter =>
    (parameter.1, meaning.scalar ⟨.argument (index + position), some parameter.2⟩ [])

theorem argumentsFrom_cons (parameter : String × Ty) (rest : List (String × Ty)) (index : Nat) :
    argumentsFrom meaning (parameter :: rest) index =
      (parameter.1, meaning.scalar ⟨.argument index, some parameter.2⟩ []) ::
        argumentsFrom meaning rest (index + 1) := by
  unfold argumentsFrom
  rw [List.mapIdx_cons]
  simp only [Nat.add_zero, Nat.add_comm 1, Nat.add_assoc]

variable (meaning) in
include implements in
/-- The code for the parameters puts them into the registers of the scope. -/
theorem lowerParameters_simulated (fuel : Nat) : ∀ (parameters : List (String × Ty)) (index : Nat)
    {before : LoweringState} {store : Store Operation Value World}, before.Valid →
    Realizes final (lowerParameters parameters index before).2 →
    Arrives meaning program fuel before.nextValue before (lowerParameters parameters index before).2
      store (.value () store.surroundings) fun _ registers =>
        Matches (lowerParameters parameters index before).1
          (argumentsFrom meaning parameters index) registers
          (lowerParameters parameters index before).2.nextValue := by
  intro parameters
  induction parameters with
  | nil =>
      intro index before store _ _
      exact Arrives.of_steps 0 rfl rfl .nil fun _ _ => rfl
  | cons parameter rest ih =>
      intro index before store valid realizes
      obtain ⟨middleValid, one⟩ := @emitValue_sound before (.argument index) parameter.2 [] valid rfl
      obtain ⟨-, more, -⟩ := lowerParameters_sound rest (index + 1) middleValid
      have middleRealizes : Realizes final (before.emitValue (.argument index) parameter.2 []).2 :=
        Realizes.of_continues middleValid more realizes
      have emitted : Arrives meaning program fuel before.nextValue before
          (before.emitValue (.argument index) parameter.2 []).2 store
          (.value (meaning.scalar ⟨.argument index, some parameter.2⟩ []) store.surroundings)
          fun value registers => before.nextValue < before.nextValue + 1 ∧
            registers before.nextValue = some value :=
        arrives_operation implements fuel valid rfl rfl middleRealizes rfl
      obtain ⟨steps, last, reached, same, ⟨below, holds⟩, kept⟩ := emitted
      obtain ⟨further, next, arrived, same', others, kept'⟩ :=
        @ih (index + 1) _ last middleValid realizes
      refine ⟨further + steps, next, ?_, same'.trans same, ?_, ?_⟩
      · rw [Function.iterate_add_apply, reached]
        exact arrived
      · rw [argumentsFrom_cons]
        exact .cons ⟨rfl, Nat.lt_of_lt_of_le below more.values_le, (kept' _ below).trans holds⟩ others
      · intro register lower
        rw [kept' register (Nat.lt_succ_of_lt lower), kept register lower]

end Parameters

/-! ## Functions -/

/-- How a function is lowered. -/
theorem lowerFunction_cases {function : FunctionDef} {ssa : SsaFunction}
    (lowered : lowerFunction function = .ok ssa) :
    ∃ result after,
      lowerHir (lowerParameters function.parameters 0 entryState).1 function.body
          (lowerParameters function.parameters 0 entryState).2 = .ok (result, after) ∧
      ssa = {
        name := function.signature.name
        signature := function.signature
        entry := 0
        blocks := (List.range after.nextBlock).map
          (after.leaveTo ⟨.ret, [result], []⟩ after.current).blocks
        nextValue := after.nextValue } := by
  unfold lowerFunction at lowered
  simp only [bind_eq_ok, terminateBlock_eq_ok] at lowered
  obtain ⟨⟨result, after⟩, body, _, ⟨-, rfl⟩, done⟩ := lowered
  cases done
  exact ⟨result, after, body, rfl⟩

theorem lowerFunction_total {function : FunctionDef} {signatures : Signatures} {pointerBits : Nat}
    (verified : verifyHirFunction function signatures pointerBits = .ok ()) :
    ∃ ssa, lowerFunction function = .ok ssa := by
  unfold verifyHirFunction at verified
  simp only [bind_eq_ok] at verified
  obtain ⟨_, -, _, -, type, body, -⟩ := verified
  obtain ⟨valid, -, names⟩ := lowerParameters_sound function.parameters 0 entryState_valid
  obtain ⟨result, after, lowered⟩ := lowerHir_total function.body body names.symm valid
  obtain ⟨afterValid, -⟩ := lowerHir_sound function.body lowered valid
  have done := terminateBlock_eq afterValid ⟨.ret, [result], []⟩
  unfold lowerFunction
  exact ⟨_, bind_eq_ok.mpr ⟨_, lowered, bind_eq_ok.mpr ⟨_, done, rfl⟩⟩⟩

/-- A function made of the finished blocks of a state, from block 0 on. -/
structure SsaFunction.Consists (ssa : SsaFunction) (final : LoweringState) : Prop where
  entry : ssa.entry = 0
  nonempty : 0 < final.nextBlock
  blocks : ssa.blocks = (List.range final.nextBlock).map final.blocks
  finished : final.Finished

theorem SsaFunction.Consists.findBlock {ssa : SsaFunction} {final : LoweringState}
    (consists : ssa.Consists final) {block : Nat} (inside : block < final.nextBlock) :
    ssa.findBlock block = some (final.blocks block) := by
  have found : (List.range final.nextBlock).find? (fun other => (final.blocks other).id == block) =
      some block := by
    rw [List.find?_range_eq_some]
    refine ⟨beq_iff_eq.mpr (consists.finished.ids block inside), List.mem_range.mpr inside, ?_⟩
    intro other below
    rw [consists.finished.ids other (below.trans inside)]
    simpa using Nat.ne_of_lt below
  rw [SsaFunction.findBlock, consists.blocks, List.find?_map]
  exact congrArg (Option.map final.blocks) found

theorem SsaFunction.Consists.implements {ssa : SsaFunction} {final : LoweringState}
    (consists : ssa.Consists final) : Implements ssa.program final := by
  refine ⟨?_, ?_, ?_⟩
  · intro block inside
    simp only [SsaFunction.program, consists.findBlock inside, Option.map_some, Option.getD_some]
  · intro block inside
    simp only [SsaFunction.program, consists.findBlock inside, Option.map_some, Option.getD_some]
  · intro block inside
    simp only [SsaFunction.program, consists.findBlock inside, Option.map_some, Option.getD_some]

/-- A lowered function consists of the finished blocks of the state that has lowered its body. -/
theorem lowerFunction_consists {function : FunctionDef} {ssa : SsaFunction}
    (lowered : lowerFunction function = .ok ssa) : ∃ result after,
      lowerHir (lowerParameters function.parameters 0 entryState).1 function.body
        (lowerParameters function.parameters 0 entryState).2 = .ok (result, after) ∧
      ssa.Consists (after.leaveTo ⟨.ret, [result], []⟩ after.current) := by
  obtain ⟨result, after, body, rfl⟩ := lowerFunction_cases lowered
  obtain ⟨startValid, one, -⟩ := lowerParameters_sound function.parameters 0 entryState_valid
  obtain ⟨afterValid, more⟩ := lowerHir_sound function.body body startValid
  have steps := one.trans entryState_valid more
  refine ⟨result, after, body, rfl, afterValid.current.pos, rfl, afterValid.finish ?_⟩
  intro block inside other
  by_cases first : block = 0
  · subst first
    rcases steps.current with same | ⟨-, finished⟩
    · exact (other same.symm).elim
    · exact finished
  · exact steps.finishes block (Nat.one_le_iff_ne_zero.mpr first) inside other

section Run

variable {Value World : Type} (meaning : Interpretation Operation Value World)

theorem step_halt (program : SsaProgram Operation)
    (surroundings : Surroundings Operation Value World) (steps : Nat) :
    (program.step meaning)^[steps] (.halt surroundings) = .halt surroundings :=
  Function.iterate_fixed rfl steps

/-- A run from the entry evaluates the body in the scope of the parameters. -/
theorem lowerFunction_arrives {function : FunctionDef} {ssa : SsaFunction} {result : Nat}
    {after : LoweringState}
    (body : lowerHir (lowerParameters function.parameters 0 entryState).1 function.body
      (lowerParameters function.parameters 0 entryState).2 = .ok (result, after))
    (consists : ssa.Consists (after.leaveTo ⟨.ret, [result], []⟩ after.current)) (fuel : Nat)
    (store : Store Operation Value World) :
    Arrives meaning ssa.program fuel 0 entryState after store
      (evaluate meaning fuel (function.arguments meaning) function.body store.surroundings)
      fun value registers => result < after.nextValue ∧ registers result = some value := by
  obtain ⟨startValid, one, -⟩ := lowerParameters_sound function.parameters 0 entryState_valid
  obtain ⟨afterValid, more⟩ := lowerHir_sound function.body body startValid
  have implements := consists.implements
  have realizes : Realizes (after.leaveTo ⟨.ret, [result], []⟩ after.current) after :=
    Settled.of_leaveTo afterValid ⟨le_rfl, fun _ _ _ => rfl⟩
  have startRealizes := realizes.of_continues startValid more
  obtain ⟨steps, next, reached, same, matching, -⟩ :=
    @lowerParameters_simulated _ _ meaning _ _ implements fuel function.parameters 0 _ store
      entryState_valid startRealizes
  have scope : argumentsFrom meaning function.parameters 0 = function.arguments meaning := by
    simp only [argumentsFrom, FunctionDef.arguments, Nat.zero_add]
  rw [scope] at matching
  have evaluated := @lowerHir_simulated _ _ meaning _ _ fuel implements function.body _ _ _ _ body
    startValid realizes _ next matching
  rw [same] at evaluated
  exact (Arrives.after_steps steps reached (fun _ below => absurd below (Nat.not_lt_zero _))
    (Nat.zero_le _) evaluated).weaken (Nat.le_add_right _ _)

/-- The program of a lowered function behaves like the evaluation of the function. -/
theorem lowerFunction_sameBehaviour {function : FunctionDef} {ssa : SsaFunction}
    (lowered : lowerFunction function = .ok ssa) (world : World) :
    SameBehaviour (function.run meaning world)
      ((ssa.program.machine meaning).run (ssa.program.start world)) := by
  obtain ⟨result, after, body, consists⟩ := lowerFunction_consists lowered
  refine sameBehaviour_of_follows (Machine.progressive _ _) fun fuel => ?_
  have arrives := lowerFunction_arrives meaning body consists fuel ⟨fun _ => none, ⟨world, []⟩⟩
  have progressive := (ssa.program.machine meaning).progressive (ssa.program.start world)
  obtain ⟨startValid, -, -⟩ := lowerParameters_sound function.parameters 0 entryState_valid
  obtain ⟨afterValid, -⟩ := lowerHir_sound function.body body startValid
  have starts : ssa.program.step meaning (ssa.program.start world) =
      underway meaning ssa.program entryState ⟨fun _ => none, ⟨world, []⟩⟩ := by
    unfold SsaProgram.start
    rw [SsaProgram.step_goto, show ssa.program.entry = 0 from consists.entry]
    unfold underway
    rw [entryState_blocks]
    rfl
  have ran (steps : Nat) : (ssa.program.machine meaning).run (ssa.program.start world) (steps + 1) =
      ((ssa.program.step meaning)^[steps] (underway meaning ssa.program entryState
        ⟨fun _ => none, ⟨world, []⟩⟩)).observe := by
    rw [← starts, ← Function.iterate_succ_apply]
    rfl
  unfold FunctionDef.run
  generalize evaluate meaning fuel (function.arguments meaning) function.body ⟨world, []⟩ =
    evaluation at arrives
  cases evaluation with
  | value value surroundings =>
      obtain ⟨steps, last, reached, rfl, ⟨-, holds⟩, -⟩ := arrives
      obtain ⟨leaves, exits⟩ := underway_leave meaning consists.implements afterValid
        ⟨le_rfl, fun _ _ _ => rfl⟩ last
      have returned : (ssa.program.machine meaning).run (ssa.program.start world) (steps + 1) =
          (last.surroundings.trace, some (some value)) := by
        rw [ran, reached, leaves, SsaProgram.leave, exits]
        simp only [SsaBlock.exit, MachineState.finish, holds, MachineState.observe]
      refine ⟨max fuel (steps + 1), Nat.le_max_left _ _, ?_⟩
      rw [progressive.stays (Nat.le_max_right fuel (steps + 1)) (by rw [returned]), returned]
      rfl
  | stopped surroundings =>
      obtain ⟨steps, ends⟩ := arrives
      refine ⟨fuel + steps + 1, by omega, ?_⟩
      rw [ran, Function.iterate_add_apply, ends, step_halt]
      rfl
  | timeout surroundings =>
      obtain ⟨steps, enough, observed⟩ := arrives
      exact ⟨steps + 1, by omega, (ran steps).trans observed⟩

end Run

end Stage0
