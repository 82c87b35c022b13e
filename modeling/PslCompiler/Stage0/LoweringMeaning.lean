import PslCompiler.Stage0.LoweringShape

/-! # Lowered functions evaluate their trees

Evaluating a node and running the code emitted for it go together: the machine that has executed
the block under construction as far as it stood before the node arrives, with the node's value in
its register, where the block under construction stands after the node. Iterations of loops bound
the steps from below, so that an evaluation that runs out of them is a run that goes on.
-/

namespace Stage0

open Flow LoweringState

/-! ## Programs made of blocks -/

/-- A program made of the blocks of a state. -/
structure Implements (program : SsaProgram Operation) (final : LoweringState) : Prop where
  phis : ∀ block, block < final.nextBlock → program.phis block = (final.blocks block).phis
  body : ∀ block, block < final.nextBlock → program.body block = (final.blocks block).body
  exit : ∀ block, block < final.nextBlock → program.exit block = (final.blocks block).exit

/-- The finished blocks of a state are final. -/
def Settled (final state : LoweringState) : Prop :=
  state.nextBlock ≤ final.nextBlock ∧ ∀ block, block < state.nextBlock →
    (state.blocks block).terminator.isSome = true → final.blocks block = state.blocks block

/-- Moreover the block under construction only grows by instructions other than phis. -/
def Realizes (final state : LoweringState) : Prop :=
  Settled final state ∧ ∃ more, (∀ instruction ∈ more, instruction.isPhi = false) ∧
    (final.blocks state.current).instructions = (state.blocks state.current).instructions ++ more

section Realizes

variable {final before after : LoweringState}

theorem Realizes.of_continues (valid : before.Valid) (steps : before.Continues after)
    (realizes : Realizes final after) : Realizes final before := by
  obtain ⟨⟨size, settled⟩, more, ordinary, extended⟩ := realizes
  obtain ⟨own, ordinary', extended'⟩ := steps.extends_current
  refine ⟨⟨steps.blocks_le.trans size, ?_⟩, ?_⟩
  · intro block inside finished
    have other : block ≠ before.current := by
      rintro rfl
      rw [valid.unfinished] at finished
      cases finished
    have same := steps.others block inside other
    rw [← same]
    exact settled block (Nat.lt_of_lt_of_le inside steps.blocks_le) (by rw [same]; exact finished)
  · rcases steps.current with same | ⟨-, finished⟩
    · refine ⟨own ++ more, ?_, ?_⟩
      · intro instruction member
        rcases List.mem_append.mp member with here | there
        · exact ordinary' instruction here
        · exact ordinary instruction there
      · rw [← List.append_assoc, ← extended', ← same]
        exact extended
    · refine ⟨own, ordinary', ?_⟩
      rw [settled _ (Nat.lt_of_lt_of_le valid.current steps.blocks_le) finished]
      exact extended'

theorem Settled.of_beyond (valid : before.Valid) (beyond : before.Beyond after)
    (settled : Settled final after) : Realizes final before := by
  obtain ⟨size, settled⟩ := settled
  refine ⟨⟨beyond.blocks_le.trans size, ?_⟩, [], ?_, ?_⟩
  · intro block inside finished
    have other : block ≠ before.current := by
      rintro rfl
      rw [valid.unfinished] at finished
      cases finished
    have same := beyond.others block inside other
    rw [← same]
    exact settled block (Nat.lt_of_lt_of_le inside beyond.blocks_le) (by rw [same]; exact finished)
  · exact fun _ member => (List.not_mem_nil member).elim
  · rw [List.append_nil, ← beyond.finished.1,
      settled _ (Nat.lt_of_lt_of_le valid.current beyond.blocks_le) beyond.finished.2]

theorem Settled.of_leaveTo (valid : before.Valid) {terminator : SsaTerminator} {next : Nat}
    (settled : Settled final (before.leaveTo terminator next)) : Realizes final before := by
  obtain ⟨size, settled⟩ := settled
  have blocks := leaveTo_blocks before terminator next
  refine ⟨⟨size, ?_⟩, [], ?_, ?_⟩
  · intro block inside finished
    have other : block ≠ before.current := by
      rintro rfl
      rw [valid.unfinished] at finished
      cases finished
    have same := blocks block
    rw [if_neg other] at same
    rw [← same]
    exact settled block inside (by rw [same]; exact finished)
  · exact fun _ member => (List.not_mem_nil member).elim
  · have here := blocks before.current
    rw [if_pos rfl] at here
    rw [settled _ valid.current (by rw [here]; rfl), here, List.append_nil]

theorem Settled.of_emitValue (valid : before.Valid) {op : SsaOp} {type : Ty} {args : List Nat}
    (settled : Settled final (before.emitValue op type args).2) : Settled final before := by
  obtain ⟨size, settled⟩ := settled
  refine ⟨size, ?_⟩
  intro block inside finished
  have other : block ≠ before.current := by
    rintro rfl
    rw [valid.unfinished] at finished
    cases finished
  have same := emitValue_blocks before op type args block
  rw [if_neg other] at same
  rw [← same]
  exact settled block inside (by rw [same]; exact finished)

end Realizes

/-! ## Arriving -/

section Meaning

variable {Value World α β : Type} (meaning : Interpretation Operation Value World)
variable (program : SsaProgram Operation)

/-- The machine that has executed the block under construction as far as it stands. -/
def underway (state : LoweringState) (store : Store Operation Value World) :
    MachineState Operation Value World :=
  program.resume meaning state.current (state.blocks state.current).body.length store

/-- Running from one state of lowering to a later one does what an evaluation does, and keeps
the registers below a bound. -/
def Arrives (fuel bound : Nat) (before after : LoweringState) (store : Store Operation Value World)
    (evaluation : Evaluation Value World α) (holds : α → (Nat → Option Value) → Prop) : Prop :=
  match evaluation with
  | .value result surroundings => ∃ steps next,
      (program.step meaning)^[steps] (underway meaning program before store) =
        underway meaning program after next ∧
      next.surroundings = surroundings ∧ holds result next.registers ∧
      ∀ register, register < bound → next.registers register = store.registers register
  | .stopped surroundings => ∃ steps,
      (program.step meaning)^[steps] (underway meaning program before store) = .halt surroundings
  | .timeout surroundings => ∃ steps, fuel ≤ steps ∧
      ((program.step meaning)^[steps] (underway meaning program before store)).observe =
        (surroundings.trace, none)

variable {meaning program}
variable {fuel bound further : Nat} {before middle after : LoweringState}
variable {store : Store Operation Value World}
variable {evaluation : Evaluation Value World α} {holds : α → (Nat → Option Value) → Prop}

theorem Arrives.weaken {less : Nat} (fewer : less ≤ fuel)
    (arrives : Arrives meaning program fuel bound before after store evaluation holds) :
    Arrives meaning program less bound before after store evaluation holds := by
  cases evaluation with
  | value result surroundings => exact arrives
  | stopped surroundings => exact arrives
  | timeout surroundings =>
      obtain ⟨steps, enough, observed⟩ := arrives
      exact ⟨steps, fewer.trans enough, observed⟩

theorem Arrives.lower {less : Nat} (lower : less ≤ bound)
    (arrives : Arrives meaning program fuel bound before after store evaluation holds) :
    Arrives meaning program fuel less before after store evaluation holds := by
  cases evaluation with
  | value result surroundings =>
      obtain ⟨steps, next, reached, same, holds, kept⟩ := arrives
      exact ⟨steps, next, reached, same, holds,
        fun register below => kept register (Nat.lt_of_lt_of_le below lower)⟩
  | stopped surroundings => exact arrives
  | timeout surroundings => exact arrives

theorem Arrives.imp {others : α → (Nat → Option Value) → Prop}
    (arrives : Arrives meaning program fuel bound before after store evaluation holds)
    (weaker : ∀ result registers, holds result registers → others result registers) :
    Arrives meaning program fuel bound before after store evaluation others := by
  cases evaluation with
  | value result surroundings =>
      obtain ⟨steps, next, reached, same, holds, kept⟩ := arrives
      exact ⟨steps, next, reached, same, weaker _ _ holds, kept⟩
  | stopped surroundings => exact arrives
  | timeout surroundings => exact arrives

/-- Steps without an evaluation. -/
theorem Arrives.of_steps {result : α} {next : Store Operation Value World} (steps : Nat)
    (reached : (program.step meaning)^[steps] (underway meaning program before store) =
      underway meaning program after next)
    (same : next.surroundings = store.surroundings) (holds' : holds result next.registers)
    (kept : ∀ register, register < bound →
      next.registers register = store.registers register) :
    Arrives meaning program fuel bound before after store (.value result store.surroundings) holds :=
  ⟨steps, next, reached, same, holds', kept⟩

/-- Some steps first. -/
theorem Arrives.after_steps {next : Store Operation Value World} (steps : Nat)
    (reached : (program.step meaning)^[steps] (underway meaning program before store) =
      underway meaning program middle next)
    (kept : ∀ register, register < bound →
      next.registers register = store.registers register)
    (grows : bound ≤ further)
    (arrives : Arrives meaning program fuel further middle after next evaluation holds) :
    Arrives meaning program (fuel + steps) bound before after store evaluation holds := by
  cases evaluation with
  | value result surroundings =>
      obtain ⟨more, last, arrived, same, holds, kept'⟩ := arrives
      refine ⟨more + steps, last, ?_, same, holds, ?_⟩
      · rw [Function.iterate_add_apply, reached, arrived]
      · intro register below
        rw [kept' register (Nat.lt_of_lt_of_le below grows), kept register below]
  | stopped surroundings =>
      obtain ⟨more, ends⟩ := arrives
      refine ⟨more + steps, ?_⟩
      rw [Function.iterate_add_apply, reached, ends]
  | timeout surroundings =>
      obtain ⟨more, enough, observed⟩ := arrives
      refine ⟨more + steps, Nat.add_le_add_right enough steps, ?_⟩
      rw [Function.iterate_add_apply, reached, observed]

/-- One evaluation after another. -/
theorem Arrives.andThen {next : α → Surroundings Operation Value World → Evaluation Value World β}
    {others : β → (Nat → Option Value) → Prop} (grows : bound ≤ further)
    (first : Arrives meaning program fuel bound before middle store evaluation holds)
    (second : ∀ result (last : Store Operation Value World), holds result last.registers →
      (∀ register, register < bound →
        last.registers register = store.registers register) →
      Arrives meaning program fuel further middle after last (next result last.surroundings) others) :
    Arrives meaning program fuel bound before after store (evaluation.andThen next) others := by
  cases evaluation with
  | value result surroundings =>
      obtain ⟨steps, last, reached, rfl, holds, kept⟩ := first
      have arrives := second result last holds kept
      exact (Arrives.after_steps steps reached kept grows arrives).weaken (Nat.le_add_right _ _)
  | stopped surroundings => exact first
  | timeout surroundings => exact first

/-- Some steps afterwards. -/
theorem Arrives.then_steps {others : α → (Nat → Option Value) → Prop}
    (grows : bound ≤ further)
    (first : Arrives meaning program fuel bound before middle store evaluation holds)
    (second : ∀ result (last : Store Operation Value World), holds result last.registers →
      ∃ steps next, (program.step meaning)^[steps] (underway meaning program middle last) =
          underway meaning program after next ∧
        next.surroundings = last.surroundings ∧ others result next.registers ∧
        ∀ register, register < further →
          next.registers register = last.registers register) :
    Arrives meaning program fuel bound before after store evaluation others := by
  have unchanged : evaluation.andThen .value = evaluation := by cases evaluation <;> rfl
  rw [← unchanged]
  refine Arrives.andThen grows first fun result last holds _ => ?_
  obtain ⟨steps, next, reached, same, result', kept⟩ := second result last holds
  exact Arrives.of_steps steps reached same result' kept

end Meaning

/-! ## Instructions -/

section Machine

variable {Value World : Type} {meaning : Interpretation Operation Value World}
variable {program : SsaProgram Operation} {final before after : LoweringState}
variable (implements : Implements program final)

theorem SsaBlock.body_eq (block : SsaBlock) : block.body =
    (block.instructions.filter fun instruction => !instruction.isPhi).map SsaInstruction.assignment :=
  rfl

/-- The block under construction after an instruction that is not a phi. -/
theorem emitValue_body {op : SsaOp} {type : Ty} {args : List Nat}
    (ordinary : SsaInstruction.isPhi ⟨before.nextValue, op, type, args⟩ = false) :
    ((before.emitValue op type args).2.blocks before.current).body =
      (before.blocks before.current).body ++
        [SsaInstruction.assignment ⟨before.nextValue, op, type, args⟩] := by
  rw [emitValue_blocks, if_pos rfl, SsaBlock.body_eq, SsaBlock.body_eq]
  simp only [List.filter_append, List.map_append, List.filter_cons, ordinary, Bool.not_false,
    ↓reduceIte, List.filter_nil, List.map_cons, List.map_nil]

include implements in
/-- The next assignment of the program is the instruction just emitted. -/
theorem emitValue_program {op : SsaOp} {type : Ty} {args : List Nat} (valid : before.Valid)
    (ordinary : SsaInstruction.isPhi ⟨before.nextValue, op, type, args⟩ = false)
    (realizes : Realizes final (before.emitValue op type args).2) :
    ∃ rest, program.body before.current = (before.blocks before.current).body ++
      SsaInstruction.assignment ⟨before.nextValue, op, type, args⟩ :: rest := by
  obtain ⟨⟨size, -⟩, more, -, extended⟩ := realizes
  have inside : before.current < final.nextBlock := Nat.lt_of_lt_of_le valid.current size
  refine ⟨(more.filter fun instruction => !instruction.isPhi).map SsaInstruction.assignment, ?_⟩
  change (final.blocks before.current).instructions =
    ((before.emitValue op type args).2.blocks before.current).instructions ++ more at extended
  rw [implements.body _ inside, SsaBlock.body_eq, extended, List.filter_append, List.map_append,
    ← SsaBlock.body_eq, emitValue_body ordinary, List.append_assoc]
  rfl

include implements in
/-- An emitted operation is applied to the values of its arguments. -/
theorem arrives_operation (fuel : Nat) {op : SsaOp} {type : Ty} {args : List Nat} {code : OpCode}
    (valid : before.Valid) (isCode : op.code = some code)
    (ordinary : SsaInstruction.isPhi ⟨before.nextValue, op, type, args⟩ = false)
    (realizes : Realizes final (before.emitValue op type args).2)
    {store : Store Operation Value World} {operands : List Value}
    (given : args.mapM store.registers = some operands) :
    Arrives meaning program fuel before.nextValue before (before.emitValue op type args).2 store
      (applyOperation meaning ⟨code, some type⟩ operands store.surroundings)
      fun value registers => before.nextValue < before.nextValue + 1 ∧
        registers before.nextValue = some value := by
  obtain ⟨rest, body⟩ := emitValue_program implements valid ordinary realizes
  have executed : program.resume meaning before.current _ store = _ :=
    SsaProgram.resume_assign body store
  have length : ((before.emitValue op type args).2.blocks before.current).body.length =
      (before.blocks before.current).body.length + 1 := by
    rw [emitValue_body ordinary, List.length_append]
    rfl
  have arrived (next : Store Operation Value World) :
      program.resume meaning before.current ((before.blocks before.current).body.length + 1) next =
        underway meaning program (before.emitValue op type args).2 next := by
    rw [← length]
    rfl
  have fresh (value : Value) : ∀ register, register < before.nextValue →
      Function.update store.registers before.nextValue (some value) register =
        store.registers register :=
    fun register below => Function.update_of_ne (Nat.ne_of_lt below) _ _
  have assignment : SsaInstruction.assignment ⟨before.nextValue, op, type, args⟩ =
      ⟨before.nextValue, Operation.producer ⟨code, some type⟩, args⟩ := by
    simp only [SsaInstruction.assignment, isCode]
  rw [assignment] at executed
  unfold applyOperation
  unfold Operation.producer at executed
  by_cases effect : Operation.effectP ⟨code, some type⟩ = true
  · rw [if_pos effect] at executed ⊢
    simp only [Assignment.run, given] at executed
    rcases performed : meaning.perform ⟨code, some type⟩ operands store.surroundings with
      ⟨_ | answer, surroundings⟩
    · rw [performed] at executed
      exact ⟨0, executed⟩
    · rw [performed] at executed
      refine ⟨0, _, executed.trans (arrived _), rfl, ⟨Nat.lt_succ_self _, ?_⟩, fresh answer⟩
      exact Function.update_self _ _ _
  · rw [if_neg effect] at executed ⊢
    simp only [Assignment.run, given, Option.map_some] at executed
    refine ⟨0, _, executed.trans (arrived _), rfl, ⟨Nat.lt_succ_self _, ?_⟩, fresh _⟩
    exact Function.update_self _ _ _

/-! ## Edges -/

variable (meaning) in
include implements in
/-- A finished block leaves by its terminator. -/
theorem underway_leave (valid : before.Valid) {terminator : SsaTerminator} {next : Nat}
    (settled : Settled final (before.leaveTo terminator next))
    (store : Store Operation Value World) :
    underway meaning program before store = program.leave meaning before.current store ∧
      program.exit before.current = SsaBlock.exit ⟨before.current, [], some terminator⟩ := by
  obtain ⟨size, settled⟩ := settled
  have here := leaveTo_blocks before terminator next before.current
  rw [if_pos rfl] at here
  have same := settled _ valid.current (by rw [here]; rfl)
  have inside : before.current < final.nextBlock := Nat.lt_of_lt_of_le valid.current size
  constructor
  · refine SsaProgram.resume_leave ?_ store
    rw [implements.body _ inside, same, here]
    rfl
  · rw [implements.exit _ inside, same, here]
    rfl

include implements in
/-- A block that starts without a phi is entered with the registers as they are. -/
theorem enter_underway (valid : before.Valid) (realizes : Realizes final before)
    (empty : (before.blocks before.current).instructions = []) (predecessor : Nat)
    (store : Store Operation Value World) :
    program.step meaning (program.enter predecessor before.current store) =
      underway meaning program before store := by
  obtain ⟨⟨size, -⟩, more, ordinary, extended⟩ := realizes
  have inside : before.current < final.nextBlock := Nat.lt_of_lt_of_le valid.current size
  have noPhis : program.phis before.current = [] := by
    rw [implements.phis _ inside, SsaBlock.phis, extended, empty, List.nil_append,
      List.map_eq_nil_iff, List.filter_eq_nil_iff]
    intro instruction member isPhi
    rw [ordinary instruction member] at isPhi
    cases isPhi
  have same : enterPhis (program.phis before.current) predecessor store.registers =
      store.registers := by
    rw [noPhis]
    rfl
  unfold SsaProgram.enter underway
  rw [same, SsaProgram.step_goto, SsaBlock.body_eq, empty]
  rfl

include implements in
/-- Entering a block whose first instruction is a phi assigns it from the edge. -/
theorem enter_phi (valid : before.Valid) {incoming : List (Nat × Nat)} {type : Ty}
    (empty : (before.blocks before.current).instructions = [])
    (realizes : Realizes final (before.emitValue (.phi incoming) type []).2) (predecessor : Nat)
    (store : Store Operation Value World) :
    program.step meaning (program.enter predecessor before.current store) =
      underway meaning program (before.emitValue (.phi incoming) type []).2
        ⟨Function.update store.registers before.nextValue
          ((incoming.lookup predecessor).bind store.registers), store.surroundings⟩ := by
  obtain ⟨⟨size, -⟩, more, ordinary, extended⟩ := realizes
  have inside : before.current < final.nextBlock := Nat.lt_of_lt_of_le valid.current size
  have here := emitValue_blocks before (.phi incoming) type [] before.current
  rw [if_pos rfl, empty, List.nil_append] at here
  change (final.blocks before.current).instructions =
    ((before.emitValue (.phi incoming) type []).2.blocks before.current).instructions ++ more
    at extended
  rw [here] at extended
  have others : more.filter SsaInstruction.isPhi = [] := by
    rw [List.filter_eq_nil_iff]
    intro instruction member isPhi
    rw [ordinary instruction member] at isPhi
    cases isPhi
  have phis : program.phis before.current = [(before.nextValue, incoming)] := by
    rw [implements.phis _ inside, SsaBlock.phis, extended, List.filter_append, others,
      List.append_nil]
    rfl
  have assigned : enterPhis (program.phis before.current) predecessor store.registers =
      Function.update store.registers before.nextValue
        ((incoming.lookup predecessor).bind store.registers) := by
    rw [phis]
    funext register
    unfold enterPhis
    rw [List.lookup_cons, List.lookup_nil, Function.update_apply]
    by_cases same : register = before.nextValue
    · rw [if_pos same, beq_iff_eq.mpr same]
    · rw [if_neg same, beq_eq_false_iff_ne.mpr same]
  have body : ((before.emitValue (.phi incoming) type []).2.blocks
      (before.emitValue (.phi incoming) type []).2.current).body = [] := by
    change ((before.emitValue (.phi incoming) type []).2.blocks before.current).body = []
    rw [here]
    rfl
  unfold SsaProgram.enter underway
  rw [assigned, SsaProgram.step_goto, body]
  rfl

theorem underway_reserve (valid : before.Valid) (store : Store Operation Value World) :
    underway meaning program before.reserve store = underway meaning program before store := by
  have same : before.reserve.blocks before.current = before.blocks before.current := by
    rw [reserve_blocks, if_neg (by have := valid.current; omega)]
  unfold underway
  rw [show before.reserve.current = before.current from rfl, same]

theorem Arrives.of_reserve {α : Type} {fuel bound : Nat} {store : Store Operation Value World}
    {evaluation : Evaluation Value World α} {holds : α → (Nat → Option Value) → Prop}
    (valid : before.Valid)
    (arrives : Arrives meaning program fuel bound before.reserve after store evaluation holds) :
    Arrives meaning program fuel bound before after store evaluation holds := by
  unfold Arrives at arrives ⊢
  rwa [underway_reserve valid store] at arrives

end Machine

/-! ## Scopes -/

/-- The registers of a scope hold its values. -/
def Matches {Value : Type} (environment : List (String × Nat)) (scope : List (String × Value))
    (registers : Nat → Option Value) (bound : Nat) : Prop :=
  List.Forall₂ (fun entry binding => entry.1 = binding.1 ∧ entry.2 < bound ∧
    registers entry.2 = some binding.2) environment scope

section Scopes

variable {Value : Type} {environment : List (String × Nat)} {scope : List (String × Value)}
variable {registers others : Nat → Option Value} {bound more : Nat}

theorem Matches.kept (matching : Matches environment scope registers bound)
    (kept : ∀ register, register < bound → others register = registers register)
    (grows : bound ≤ more) : Matches environment scope others more := by
  refine matching.imp ?_
  rintro entry binding ⟨name, below, holds⟩
  exact ⟨name, Nat.lt_of_lt_of_le below grows, (kept _ below).trans holds⟩

theorem Matches.lookup {name : String} {id : Nat}
    (matching : Matches environment scope registers bound)
    (found : environment.lookup name = some id) :
    ∃ value, scope.lookup name = some value ∧ id < bound ∧ registers id = some value := by
  induction matching with
  | nil => cases found
  | @cons entry binding environment scope first rest ih =>
      obtain ⟨same, below, holds⟩ := first
      rw [List.lookup_cons] at found ⊢
      rw [← same]
      split
      · rename_i here
        rw [here] at found
        cases found
        exact ⟨_, rfl, below, holds⟩
      · rename_i there
        rw [there] at found
        exact ih found

end Scopes

/-! ## Nodes -/

section Nodes

variable {Value World : Type} (meaning : Interpretation Operation Value World)
variable (program : SsaProgram Operation) (final : LoweringState) (fuel : Nat)

/-- The code of a node does what evaluating the node does. -/
def Simulated (node : Hir) : Prop :=
  ∀ {environment before value after}, lowerHir environment node before = .ok (value, after) →
    before.Valid → Realizes final after →
    ∀ {scope : List (String × Value)} {store : Store Operation Value World},
    Matches environment scope store.registers before.nextValue →
    Arrives meaning program fuel before.nextValue before after store
      (evaluate meaning fuel scope node store.surroundings)
      fun result registers => value < after.nextValue ∧ registers value = some result

variable {meaning program final fuel} {environment : List (String × Nat)}
variable {before after : LoweringState} {scope : List (String × Value)}
variable {store : Store Operation Value World}

theorem lowerChildren_simulated {children : List Hir}
    (simulated : ∀ child ∈ children, Simulated meaning program final fuel child) {ids : List Nat}
    (lowered : lowerChildren environment children before = .ok (ids, after))
    (valid : before.Valid) (realizes : Realizes final after)
    (matching : Matches environment scope store.registers before.nextValue) :
    Arrives meaning program fuel before.nextValue before after store
      (evaluateChildren meaning fuel scope children store.surroundings)
      fun results registers => ids.mapM registers = some results := by
  induction children generalizing before ids store with
  | nil =>
      unfold lowerChildren at lowered
      cases lowered
      exact Arrives.of_steps 0 rfl rfl rfl fun _ _ => rfl
  | cons child rest ih =>
      unfold lowerChildren at lowered
      simp only [bind_eq_ok] at lowered
      obtain ⟨⟨id, middle⟩, first, ⟨others, ending⟩, second, done⟩ := lowered
      cases done
      obtain ⟨middleValid, steps⟩ := lowerHir_sound child first valid
      obtain ⟨-, more⟩ := lowerChildren_sound (fun other _ => lowerHir_sound other) second middleValid
      unfold evaluateChildren
      refine Arrives.andThen steps.values_le (simulated child List.mem_cons_self first valid
        (realizes.of_continues middleValid more) matching) ?_
      rintro result last ⟨below, holds⟩ kept
      refine Arrives.andThen more.values_le
        (ih (fun other member => simulated other (List.mem_cons_of_mem _ member)) second middleValid
          (matching.kept kept steps.values_le)) ?_
      intro results next given kept'
      refine Arrives.of_steps 0 rfl rfl ?_ fun _ _ => rfl
      rw [List.mapM_cons, kept' id below, holds, given]
      rfl

theorem lowerProgn_simulated {children : List Hir}
    (simulated : ∀ child ∈ children, Simulated meaning program final fuel child) {value : Nat}
    (lowered : lowerProgn environment children before = .ok (value, after))
    (valid : before.Valid) (realizes : Realizes final after)
    (matching : Matches environment scope store.registers before.nextValue) :
    Arrives meaning program fuel before.nextValue before after store
      (evaluateSequence meaning fuel scope children store.surroundings)
      fun result registers => value < after.nextValue ∧ registers value = some result := by
  induction children generalizing before store with
  | nil => cases lowered
  | cons child rest ih =>
      rcases rest with _ | ⟨next, rest⟩
      · exact simulated child List.mem_cons_self lowered valid realizes matching
      · unfold lowerProgn at lowered
        simp only [bind_eq_ok] at lowered
        obtain ⟨⟨id, middle⟩, first, second⟩ := lowered
        obtain ⟨middleValid, steps⟩ := lowerHir_sound child first valid
        obtain ⟨-, more⟩ := lowerProgn_sound (fun other _ => lowerHir_sound other) second middleValid
        unfold evaluateSequence
        refine Arrives.andThen steps.values_le (simulated child List.mem_cons_self first valid
          (realizes.of_continues middleValid more) matching) ?_
        intro result last _ kept
        exact ih (fun other member => simulated other (List.mem_cons_of_mem _ member)) second
          middleValid (matching.kept kept steps.values_le)

theorem lowerBindings_simulated {bindings : List (String × Hir)}
    (simulated : ∀ binding ∈ bindings, Simulated meaning program final fuel binding.2)
    {start result : List (String × Nat)} {inner : List (String × Value)}
    (lowered : lowerBindings environment start bindings before = .ok (result, after))
    (valid : before.Valid) (realizes : Realizes final after)
    (matching : Matches environment scope store.registers before.nextValue)
    (starts : Matches start inner store.registers before.nextValue) :
    Arrives meaning program fuel before.nextValue before after store
      (evaluateBindings meaning fuel scope inner bindings store.surroundings)
      fun extended registers => Matches result extended registers after.nextValue := by
  induction bindings generalizing before start inner store with
  | nil =>
      unfold lowerBindings at lowered
      cases lowered
      exact Arrives.of_steps 0 rfl rfl starts fun _ _ => rfl
  | cons binding rest ih =>
      unfold lowerBindings at lowered
      simp only [bind_eq_ok] at lowered
      obtain ⟨⟨id, middle⟩, first, second⟩ := lowered
      obtain ⟨middleValid, steps⟩ := lowerHir_sound binding.2 first valid
      obtain ⟨-, more⟩ :=
        lowerBindings_sound (fun other _ => lowerHir_sound other.2) second middleValid
      unfold evaluateBindings
      refine Arrives.andThen steps.values_le (simulated binding List.mem_cons_self first valid
        (realizes.of_continues middleValid more) matching) ?_
      rintro value last ⟨below, holds⟩ kept
      exact ih (fun other member => simulated other (List.mem_cons_of_mem _ member)) second
        middleValid (matching.kept kept steps.values_le)
        (List.Forall₂.cons ⟨rfl, below, holds⟩ (starts.kept kept steps.values_le))

/-! ## Conditionals -/

section Arms

variable (implements : Implements program final) {tested thenState elseState : LoweringState}
variable {test : Nat}

include implements in
/-- An arm that ends by jumping to a phi. -/
theorem arm_simulated {start ending join : LoweringState} {next value : Nat}
    {incoming : List (Nat × Nat)} {type : Ty} {evaluation : Evaluation Value World Value}
    (endingValid : ending.Valid) (joinValid : join.Valid)
    (settled : Settled final (ending.leaveTo ⟨.jump, [], [join.current]⟩ next))
    (empty : (join.blocks join.current).instructions = [])
    (realizes : Realizes final (join.emitValue (.phi incoming) type []).2)
    (input : incoming.lookup ending.current = some value)
    (grows : start.nextValue ≤ ending.nextValue) (grows' : ending.nextValue ≤ join.nextValue)
    (arrives : Arrives meaning program fuel start.nextValue start ending store evaluation
      fun result registers => value < ending.nextValue ∧ registers value = some result) :
    Arrives meaning program fuel start.nextValue start
      (join.emitValue (.phi incoming) type []).2 store evaluation
      fun result registers => join.nextValue < join.nextValue + 1 ∧
        registers join.nextValue = some result := by
  refine arrives.then_steps grows ?_
  rintro result last ⟨-, holds⟩
  obtain ⟨leaves, exits⟩ := underway_leave meaning implements endingValid settled last
  refine ⟨1, ⟨Function.update last.registers join.nextValue
    ((incoming.lookup ending.current).bind last.registers), last.surroundings⟩, ?_, rfl,
    ⟨Nat.lt_succ_self _, ?_⟩, ?_⟩
  · rw [Function.iterate_one, leaves]
    unfold SsaProgram.leave
    rw [exits]
    exact enter_phi implements joinValid empty realizes ending.current last
  · simp only [input, Option.bind_some, holds, Function.update_self]
  · intro register below
    exact Function.update_of_ne (by omega) _ _

variable (meaning) in
include implements in
/-- The branch of a conditional starts one of its arms. -/
theorem forked_simulated (valid : tested.Valid) {result : Value}
    (settled : Settled final (forked tested test))
    (holds : store.registers test = some result) :
    underway meaning program tested store = program.enter tested.current
      (if meaning.truth result then tested.nextBlock else tested.nextBlock + 1) store := by
  obtain ⟨leaves, exits⟩ := underway_leave meaning implements valid.reserve settled store
  rw [← underway_reserve valid, leaves]
  unfold SsaProgram.leave
  rw [exits]
  simp only [SsaBlock.exit, holds]
  rfl

variable {ifTrue ifFalse : Hir} {thenValue elseValue : Nat} {type : Ty}

include implements in
/-- A conditional with a boolean test does what evaluating the chosen arm does. -/
theorem lowerArms_simulated (simulatedTrue : Simulated meaning program final fuel ifTrue)
    (simulatedFalse : Simulated meaning program final fuel ifFalse) (valid : tested.Valid)
    (thenArm : lowerHir environment ifTrue (forked tested test) = .ok (thenValue, thenState))
    (elseArm : lowerHir environment ifFalse (otherArm tested thenState) = .ok (elseValue, elseState))
    (realizes : Realizes final ((joined tested elseState).emitValue
      (.phi [(thenState.current, thenValue), (elseState.current, elseValue)]) type []).2)
    (matching : Matches environment scope store.registers tested.nextValue) {result : Value}
    (holds : store.registers test = some result) :
    Arrives meaning program fuel tested.nextValue tested ((joined tested elseState).emitValue
      (.phi [(thenState.current, thenValue), (elseState.current, elseValue)]) type []).2 store
      (if meaning.truth result = true then evaluate meaning fuel scope ifTrue store.surroundings
        else evaluate meaning fuel scope ifFalse store.surroundings)
      fun result registers => (joined tested elseState).nextValue <
          (joined tested elseState).nextValue + 1 ∧
        registers (joined tested elseState).nextValue = some result := by
  obtain ⟨startValid, -, fresh⟩ := forked_sound valid test
  obtain ⟨thenValid, thenSteps⟩ := lowerHir_sound ifTrue thenArm startValid
  obtain ⟨otherValid, -, -⟩ := otherArm_sound valid thenValid thenSteps
  obtain ⟨elseValid, elseSteps⟩ := lowerHir_sound ifFalse elseArm otherValid
  obtain ⟨joinValid, -, empty⟩ := joined_sound valid thenValid thenSteps elseValid elseSteps
  have joinSettled : Settled final (joined tested elseState) := realizes.1.of_emitValue joinValid
  have elseRealizes : Realizes final elseState := Settled.of_leaveTo elseValid joinSettled
  have otherRealizes := elseRealizes.of_continues otherValid elseSteps
  have thenRealizes : Realizes final thenState := Settled.of_leaveTo thenValid otherRealizes.1
  have startRealizes := thenRealizes.of_continues startValid thenSteps
  have chosen := forked_simulated meaning implements valid startRealizes.1 holds
  have grows : (forked tested test).nextValue ≤ thenState.nextValue := thenSteps.values_le
  have grows' : thenState.nextValue ≤ elseState.nextValue := elseSteps.values_le
  have later : tested.nextValue ≤ (otherArm tested thenState).nextValue := grows
  by_cases truth : meaning.truth result = true
  · rw [if_pos truth] at chosen ⊢
    have first : ((forked tested test).blocks (forked tested test).current).instructions = [] := by
      change ((forked tested test).blocks tested.nextBlock).instructions = []
      rw [fresh _ le_rfl (by omega)]
    have starts : (program.step meaning)^[1] (underway meaning program tested store) =
        underway meaning program (forked tested test) store := by
      rw [Function.iterate_one, chosen]
      exact enter_underway implements startValid startRealizes first tested.current store
    have whole := arm_simulated implements thenValid joinValid otherRealizes.1 empty realizes
      List.lookup_cons_self grows grows' (simulatedTrue thenArm startValid thenRealizes matching)
    exact (Arrives.after_steps 1 starts (fun _ _ => rfl) le_rfl whole).weaken (Nat.le_add_right _ _)
  · rw [if_neg truth] at chosen ⊢
    obtain ⟨otherFresh, other, -⟩ := @thenState_fresh tested thenState test valid thenSteps
      (tested.nextBlock + 1) (by omega) (by omega)
    have first : ((otherArm tested thenState).blocks
        (otherArm tested thenState).current).instructions = [] := by
      change ((otherArm tested thenState).blocks (tested.nextBlock + 1)).instructions = []
      rw [otherArm, leaveTo_blocks, if_neg other, otherFresh]
    have starts : (program.step meaning)^[1] (underway meaning program tested store) =
        underway meaning program (otherArm tested thenState) store := by
      rw [Function.iterate_one, chosen]
      exact enter_underway implements otherValid otherRealizes first tested.current store
    have input : List.lookup elseState.current
        [(thenState.current, thenValue), (elseState.current, elseValue)] = some elseValue := by
      rw [List.lookup_cons, beq_eq_false_iff_ne.mpr (arms_apart thenValid thenSteps elseSteps)]
      exact List.lookup_cons_self
    have whole := arm_simulated implements elseValid joinValid joinSettled empty realizes input
      elseSteps.values_le le_rfl
      (simulatedFalse elseArm otherValid elseRealizes (matching.kept (fun _ _ => rfl) later))
    exact (Arrives.after_steps 1 starts (fun _ _ => rfl) later whole).weaken (Nat.le_add_right _ _)

end Arms

/-! ## Loops -/

section Loop

variable (implements : Implements program final) {tested bodyState : LoweringState}
variable {test : Nat}

variable (meaning) in
include implements in
/-- The branch of a loop starts its body or leaves the loop. -/
theorem tested_simulated (valid : tested.Valid) {result : Value}
    (settled : Settled final (loopBody before tested test))
    (holds : store.registers test = some result) :
    underway meaning program tested store = program.enter tested.current
      (if meaning.truth result then before.nextBlock + 1 else before.nextBlock + 2) store := by
  obtain ⟨leaves, exits⟩ := underway_leave meaning implements valid settled store
  rw [leaves]
  unfold SsaProgram.leave
  rw [exits]
  simp only [SsaBlock.exit, holds]

variable {testing looping : Surroundings Operation Value World → Evaluation Value World Value}

include implements in
/-- The jump to the header of a loop starts its next iteration, if there is one. -/
theorem header_simulated {leaving ending : LoweringState} {next bound iterations : Nat}
    (valid : before.Valid) (realizes : Realizes final (loopTest before))
    (leavingValid : leaving.Valid)
    (settled : Settled final (leaving.leaveTo ⟨.jump, [], [before.nextBlock]⟩ next))
    (iterates : ∀ fewer, iterations = fewer + 1 →
      Arrives meaning program fewer bound (loopTest before) ending store
        (whileLoop meaning testing looping iterations store.surroundings) fun _ _ => True) :
    Arrives meaning program iterations bound leaving ending store
      (whileLoop meaning testing looping iterations store.surroundings) fun _ _ => True := by
  obtain ⟨headerValid, -, fresh⟩ := loopTest_sound valid
  have empty : ((loopTest before).blocks (loopTest before).current).instructions = [] := by
    change ((loopTest before).blocks before.nextBlock).instructions = []
    rw [fresh _ le_rfl (by omega)]
  obtain ⟨leaves, exits⟩ := underway_leave meaning implements leavingValid settled store
  have entered : underway meaning program leaving store =
      program.enter leaving.current (loopTest before).current store := by
    rw [leaves]
    unfold SsaProgram.leave
    rw [exits]
    rfl
  cases iterations with
  | zero =>
      refine ⟨0, le_rfl, ?_⟩
      rw [Function.iterate_zero_apply, entered]
      rfl
  | succ fewer =>
      refine Arrives.after_steps 1 ?_ (fun _ _ => rfl) le_rfl (iterates fewer rfl)
      rw [Function.iterate_one, entered]
      exact enter_underway implements headerValid realizes empty leaving.current store

variable {condition body : Hir} {result : Nat}

include implements in
/-- The header of a loop, its body and the way back do what the iterations do. -/
theorem iterations_simulated (simulatedTest : Simulated meaning program final fuel condition)
    (simulatedBody : Simulated meaning program final fuel body) (valid : before.Valid)
    (first : lowerHir environment condition (loopTest before) = .ok (test, tested))
    (second : lowerHir environment body (loopBody before tested test) = .ok (result, bodyState))
    (realizes : Realizes final (loopExit before bodyState)) {iterations : Nat}
    (fewer : iterations ≤ fuel)
    (matching : Matches environment scope store.registers before.nextValue) :
    Arrives meaning program iterations before.nextValue (loopTest before)
      (loopExit before bodyState) store
      (whileLoop meaning (evaluate meaning fuel scope condition) (evaluate meaning fuel scope body)
        (iterations + 1) store.surroundings) fun _ _ => True := by
  obtain ⟨headerValid, -, -⟩ := loopTest_sound valid
  obtain ⟨testedValid, testSteps⟩ := lowerHir_sound condition first headerValid
  obtain ⟨startValid, -, -, -⟩ := loopBody_sound valid testedValid testSteps test
  obtain ⟨bodyValid, bodySteps⟩ := lowerHir_sound body second startValid
  obtain ⟨exitValid, -, exitEmpty⟩ :=
    loopExit_sound valid testedValid testSteps bodyValid bodySteps
  obtain ⟨fresh, -, -⟩ := tested_fresh valid testSteps
  obtain ⟨bodyFresh, bodyOther, -⟩ := fresh (before.nextBlock + 1) (by omega) (by omega)
  have bodyRealizes : Realizes final bodyState := Settled.of_leaveTo bodyValid realizes.1
  have startRealizes := bodyRealizes.of_continues startValid bodySteps
  have testedRealizes : Realizes final tested := Settled.of_leaveTo testedValid startRealizes.1
  have headerRealizes := testedRealizes.of_continues headerValid testSteps
  have bodyEmpty : ((loopBody before tested test).blocks
      (loopBody before tested test).current).instructions = [] := by
    change ((loopBody before tested test).blocks (before.nextBlock + 1)).instructions = []
    rw [loopBody, leaveTo_blocks, if_neg bodyOther, bodyFresh]
  have toTested : before.nextValue ≤ tested.nextValue := testSteps.values_le
  have toBody : tested.nextValue ≤ bodyState.nextValue := bodySteps.values_le
  induction iterations using Nat.strong_induction_on generalizing store with
  | _ iterations ih =>
      unfold whileLoop
      refine Arrives.andThen le_rfl
        ((simulatedTest first headerValid testedRealizes matching).weaken fewer) ?_
      rintro value last ⟨-, holds⟩ kept
      have chosen := tested_simulated meaning implements testedValid startRealizes.1 holds
      have matching' := matching.kept kept le_rfl
      by_cases truth : meaning.truth value = true
      · rw [if_pos truth] at chosen ⊢
        have starts : (program.step meaning)^[1] (underway meaning program tested last) =
            underway meaning program (loopBody before tested test) last := by
          rw [Function.iterate_one, chosen]
          exact enter_underway implements startValid startRealizes bodyEmpty tested.current last
        refine (Arrives.after_steps 1 starts (fun _ _ => rfl) le_rfl ?_).weaken (Nat.le_add_right _ _)
        have evaluated := simulatedBody second startValid bodyRealizes
          (matching'.kept (fun _ _ => rfl) toTested)
        refine Arrives.andThen le_rfl ((evaluated.lower toTested).weaken fewer) ?_
        intro _ next _ kept'
        refine header_simulated implements valid headerRealizes bodyValid realizes.1 ?_
        rintro fewer' rfl
        exact ih fewer' (Nat.lt_succ_self _) ((Nat.le_succ _).trans fewer)
          (matching'.kept kept' le_rfl)
      · rw [if_neg truth] at chosen ⊢
        have starts : (program.step meaning)^[1] (underway meaning program tested last) =
            underway meaning program (loopExit before bodyState) last := by
          rw [Function.iterate_one, chosen]
          exact enter_underway implements exitValid realizes exitEmpty tested.current last
        exact Arrives.of_steps 1 starts rfl trivial fun _ _ => rfl

include implements in
/-- A loop does what its iterations do, and leaves false. -/
theorem lowerWhile_simulated (simulatedTest : Simulated meaning program final fuel condition)
    (simulatedBody : Simulated meaning program final fuel body) (valid : before.Valid)
    (first : lowerHir environment condition (loopTest before) = .ok (test, tested))
    (second : lowerHir environment body (loopBody before tested test) = .ok (result, bodyState))
    (realizes : Realizes final
      ((loopExit before bodyState).emitValue (.constant (.integer 0)) .boolean []).2)
    (matching : Matches environment scope store.registers before.nextValue) :
    Arrives meaning program fuel before.nextValue before
      ((loopExit before bodyState).emitValue (.constant (.integer 0)) .boolean []).2 store
      ((whileLoop meaning (evaluate meaning fuel scope condition)
          (evaluate meaning fuel scope body) fuel store.surroundings).andThen fun _ after =>
        applyOperation meaning ⟨.constant (.integer 0), some .boolean⟩ [] after)
      fun value registers => (loopExit before bodyState).nextValue <
          (loopExit before bodyState).nextValue + 1 ∧
        registers (loopExit before bodyState).nextValue = some value := by
  obtain ⟨headerValid, -, -⟩ := loopTest_sound valid
  obtain ⟨testedValid, testSteps⟩ := lowerHir_sound condition first headerValid
  obtain ⟨startValid, -, -, -⟩ := loopBody_sound valid testedValid testSteps test
  obtain ⟨bodyValid, bodySteps⟩ := lowerHir_sound body second startValid
  obtain ⟨exitValid, beyond, -⟩ :=
    loopExit_sound valid testedValid testSteps bodyValid bodySteps
  have exitRealizes : Realizes final (loopExit before bodyState) :=
    realizes.of_continues exitValid (emitValue_continues exitValid rfl)
  have bodyRealizes : Realizes final bodyState := Settled.of_leaveTo bodyValid exitRealizes.1
  have testedRealizes : Realizes final tested :=
    Settled.of_leaveTo testedValid (bodyRealizes.of_continues startValid bodySteps).1
  have headerRealizes := testedRealizes.of_continues headerValid testSteps
  have looped : Arrives meaning program fuel before.nextValue before (loopExit before bodyState) store
      (whileLoop meaning (evaluate meaning fuel scope condition) (evaluate meaning fuel scope body)
        fuel store.surroundings) fun _ _ => True := by
    refine Arrives.of_reserve valid ?_
    refine header_simulated implements valid headerRealizes valid.reserve headerRealizes.1 ?_
    intro fewer same
    have less : fewer ≤ fuel := by omega
    have iterated := iterations_simulated implements simulatedTest simulatedBody valid first second
      exitRealizes less matching
    rwa [← same] at iterated
  exact looped.andThen beyond.values_le fun _ _ _ _ =>
    arrives_operation implements fuel exitValid rfl rfl realizes rfl

end Loop

/-! ## Trees -/

theorem lowerVariable_eq_ok {name : String} {id : Nat} :
    lowerVariable name environment = .ok id ↔ environment.lookup name = some id := by
  unfold lowerVariable
  cases environment.lookup name with
  | none => simp
  | some found => simp

variable (implements : Implements program final)

include implements in
/-- A conditional does what evaluating it does. -/
theorem lowerIf_simulated {children : List Hir} {type : Ty} {value : Nat}
    (simulated : ∀ child ∈ children, Simulated meaning program final fuel child)
    (lowered : lowerIf environment type children before = .ok (value, after))
    (valid : before.Valid) (realizes : Realizes final after)
    (matching : Matches environment scope store.registers before.nextValue) :
    Arrives meaning program fuel before.nextValue before after store
      (evaluateIf meaning fuel scope children store.surroundings)
      fun result registers => value < after.nextValue ∧ registers value = some result := by
  rcases children with _ | ⟨condition, _ | ⟨ifTrue, _ | ⟨ifFalse, _ | _⟩⟩⟩
  · cases lowered
  · cases lowered
  · cases lowered
  · obtain ⟨test, tested, first, arms⟩ := lowerIf_cases lowered
    obtain ⟨testedValid, steps⟩ := lowerHir_sound condition first valid
    have simulatedTrue : Simulated meaning program final fuel ifTrue := simulated ifTrue (by simp)
    have simulatedFalse : Simulated meaning program final fuel ifFalse :=
      simulated ifFalse (by simp)
    unfold evaluateIf
    have tests (realizes : Realizes final tested) :=
      simulated condition List.mem_cons_self first valid realizes matching
    rcases arms with ⟨managed, arm⟩ | ⟨boolean, thenValue, thenState, elseValue, elseState, thenArm,
      elseArm, done⟩
    · obtain ⟨-, more⟩ := lowerHir_sound ifTrue arm testedValid
      refine (tests (realizes.of_continues testedValid more)).andThen steps.values_le ?_
      intro result last _ kept
      rw [if_pos (.inl managed)]
      exact simulatedTrue arm testedValid realizes (matching.kept kept steps.values_le)
    · cases done
      obtain ⟨thenValid, thenSteps⟩ := lowerHir_sound ifTrue thenArm (forked_sound testedValid test).1
      obtain ⟨elseValid, elseSteps⟩ :=
        lowerHir_sound ifFalse elseArm (otherArm_sound testedValid thenValid thenSteps).1
      obtain ⟨-, more⟩ := lowerArms_sound testedValid thenValid thenSteps elseValid elseSteps
        thenValue elseValue type
      refine (tests (realizes.of_continues testedValid more)).andThen steps.values_le ?_
      rintro result last ⟨-, holds⟩ kept
      simp only [boolean, ne_eq, not_true_eq_false, false_or]
      exact lowerArms_simulated implements simulatedTrue simulatedFalse testedValid thenArm elseArm
        realizes (matching.kept kept steps.values_le) holds
  · cases lowered

include implements in
/-- An operation on the values of all children. -/
theorem lowerOperation_simulated {children : List Hir}
    (simulated : ∀ child ∈ children, Simulated meaning program final fuel child) {op : SsaOp}
    {type : Ty} {code : OpCode} {value : Nat}
    (lowered : (lowerChildren environment children before >>= fun result =>
      .ok (result.2.emitValue op type result.1)) = .ok (value, after))
    (isCode : op.code = some code)
    (ordinary : ∀ id args, SsaInstruction.isPhi ⟨id, op, type, args⟩ = false)
    (valid : before.Valid) (realizes : Realizes final after)
    (matching : Matches environment scope store.registers before.nextValue) :
    Arrives meaning program fuel before.nextValue before after store
      ((evaluateChildren meaning fuel scope children store.surroundings).andThen
        fun operands after => applyOperation meaning ⟨code, some type⟩ operands after)
      fun result registers => value < after.nextValue ∧ registers value = some result := by
  rw [bind_eq_ok] at lowered
  obtain ⟨⟨args, middle⟩, first, done⟩ := lowered
  obtain ⟨middleValid, steps⟩ := lowerChildren_sound (fun child _ => lowerHir_sound child) first valid
  have here := ordinary middle.nextValue args
  cases done
  have middleRealizes := realizes.of_continues middleValid (emitValue_continues middleValid here)
  refine Arrives.andThen steps.values_le
    (lowerChildren_simulated simulated first valid middleRealizes matching) ?_
  intro operands last given _
  exact arrives_operation implements fuel middleValid isCode here realizes given

include implements in
/-- The code of every node does what evaluating the node does. -/
theorem lowerHir_simulated (node : Hir) : Simulated meaning program final fuel node := by
  induction node using Hir.induction with
  | node kind type bindings children bindingsSimulated childrenSimulated =>
      intro environment before value after lowered valid realizes scope store matching
      unfold lowerHir at lowered
      unfold evaluate
      cases kind with
      | literal literal =>
          cases lowered
          exact arrives_operation implements fuel valid rfl rfl realizes rfl
      | dataAddress name dataType =>
          cases lowered
          exact arrives_operation implements fuel valid rfl rfl realizes rfl
      | «variable» name =>
          simp only [bind_eq_ok] at lowered
          obtain ⟨id, found, done⟩ := lowered
          cases done
          obtain ⟨result, looked, below, holds⟩ := matching.lookup (lowerVariable_eq_ok.mp found)
          simp only [looked]
          exact Arrives.of_steps 0 rfl rfl ⟨below, holds⟩ fun _ _ => rfl
      | progn => exact lowerProgn_simulated childrenSimulated lowered valid realizes matching
      | letForm =>
          simp only [bind_eq_ok] at lowered
          obtain ⟨⟨inner, middle⟩, first, second⟩ := lowered
          obtain ⟨middleValid, steps⟩ :=
            lowerBindings_sound (fun binding _ => lowerHir_sound binding.2) first valid
          obtain ⟨-, more⟩ :=
            lowerProgn_sound (fun child _ => lowerHir_sound child) second middleValid
          refine Arrives.andThen steps.values_le
            (lowerBindings_simulated bindingsSimulated first valid
              (realizes.of_continues middleValid more) matching matching) ?_
          intro extended last matching' _
          exact lowerProgn_simulated childrenSimulated second middleValid realizes matching'
      | ifForm => exact lowerIf_simulated implements childrenSimulated lowered valid realizes matching
      | whileForm =>
          rcases children with _ | ⟨condition, _ | ⟨body, _ | _⟩⟩
          · cases lowered
          · cases lowered
          · obtain ⟨test, tested, result, bodyState, first, second, done⟩ := lowerWhile_cases lowered
            cases done
            exact lowerWhile_simulated implements (childrenSimulated condition List.mem_cons_self)
              (childrenSimulated body (by simp)) valid first second realizes matching
          · cases lowered
      | _ =>
          simp only [HirKind.ssaOp, HirKind.code] at lowered ⊢
          exact lowerOperation_simulated implements childrenSimulated lowered rfl (fun _ _ => rfl) valid
            realizes matching

end Nodes

end Stage0
