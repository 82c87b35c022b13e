import PslCompiler.Flow.Availability
import PslCompiler.Stage0.LoweringShape
import PslCompiler.Stage0.MachineIntegers

/-! # Well-scoped and well-typed SSA functions

What the optimizer relies on and keeps: the shape of the control-flow graph, that every value is
available where it is used, and that operands have the types that operations expect. Here a call of
an inlinable function and a load that is not volatile only read the world.
-/

namespace Stage0

open Flow

/-! ## Observed programs -/

/-- How an instruction computes its value, when calls of some functions need not be observed. -/
def SsaInstruction.observer (inlined : String → Bool) (instruction : SsaInstruction) :
    Producer Operation :=
  match instruction.op, instruction.op.code with
  | _, none => .move
  | .call callee, some code =>
      if inlined callee then .read ⟨code, some instruction.type⟩
      else .effect ⟨code, some instruction.type⟩
  | .load volatile, some code =>
      if volatile then .effect ⟨code, some instruction.type⟩
      else .read ⟨code, some instruction.type⟩
  | .store, some code => .effect ⟨code, some instruction.type⟩
  | _, some code => .scalar ⟨code, some instruction.type⟩

def SsaInstruction.observed (inlined : String → Bool) (instruction : SsaInstruction) :
    Assignment Operation :=
  ⟨instruction.id, instruction.observer inlined, instruction.args⟩

def SsaBlock.observedBody (inlined : String → Bool) (block : SsaBlock) :
    List (Assignment Operation) :=
  (block.instructions.filter fun instruction => !instruction.isPhi).map
    (SsaInstruction.observed inlined)

/-- The program that an SSA function denotes to an observer of stores, volatile loads and the calls
of other functions. -/
def SsaFunction.observedProgram (inlined : String → Bool) (function : SsaFunction) :
    SsaProgram Operation where
  entry := function.entry
  phis id := ((function.findBlock id).map SsaBlock.phis).getD []
  body id := ((function.findBlock id).map (SsaBlock.observedBody inlined)).getD []
  exit id := ((function.findBlock id).map SsaBlock.exit).getD .none

/-! ## Static conditions -/

/-- The values that a block has at its end. -/
def SsaBlock.Ends (available : Nat → Nat → Prop) (block : SsaBlock) (value : Nat) : Prop :=
  available block.id value ∨ value ∈ block.instructions.map SsaInstruction.id

/-- Each instruction of a list finds its operands among some values and those defined before it. -/
def AllScoped : (Nat → Prop) → List SsaInstruction → Prop
  | _, [] => True
  | values, instruction :: rest =>
      ((instruction.isPhi = false → ∀ arg ∈ instruction.args, values arg) ∧
        (instruction.op = .copy → instruction.args ≠ [])) ∧
      AllScoped (fun value => values value ∨ value = instruction.id) rest

namespace SsaFunction

/-- The shape of a function. -/
structure Formed (function : SsaFunction) : Prop where
  blockIds : (function.blocks.map SsaBlock.id).Nodup
  valueIds : ((function.blocks.flatMap SsaBlock.instructions).map SsaInstruction.id).Nodup
  bounded : ∀ block ∈ function.blocks, ∀ instruction ∈ block.instructions,
    instruction.id < function.nextValue
  phis : ∀ block ∈ function.blocks, ∀ instruction ∈ block.instructions.tail,
    instruction.isPhi = false
  shaped : ∀ block ∈ function.blocks, ∃ terminator, block.terminator = some terminator ∧
    terminator.Shaped
  entry : ∃ block ∈ function.blocks, block.id = function.entry ∧
    ∀ instruction ∈ block.instructions, instruction.isPhi = false
  edges : ∀ block ∈ function.blocks, ∀ target ∈ block.successors, ∃ next ∈ function.blocks,
    next.id = target ∧ ∀ instruction ∈ next.instructions, instruction.isPhi = true →
      ∃ value, instruction.incoming.lookup block.id = some value

/-- Every use finds its value. -/
structure Scoped (function : SsaFunction) (available : Nat → Nat → Prop) : Prop where
  entry : ∀ value, ¬available function.entry value
  uses : ∀ block ∈ function.blocks, AllScoped (available block.id) block.instructions
  ends : ∀ block ∈ function.blocks, ∀ arg ∈ block.terminatorArgs, block.Ends available arg
  passes : ∀ block ∈ function.blocks, ∀ next ∈ function.blocks, next.id ∈ block.successors →
    (∀ value, available next.id value → block.Ends available value) ∧
    ∀ instruction ∈ next.instructions, ∀ value, instruction.isPhi = true →
      instruction.incoming.lookup block.id = some value → block.Ends available value

end SsaFunction

/-! ## Lookup -/

section Lookup

variable {function : SsaFunction} (formed : function.Formed)

theorem findBlock_of_mem {blocks : List SsaBlock} (distinct : (blocks.map SsaBlock.id).Nodup)
    {block : SsaBlock} (member : block ∈ blocks) :
    (blocks.find? fun other => other.id == block.id) = some block := by
  induction blocks with
  | nil => exact (List.not_mem_nil member).elim
  | cons first rest ih =>
      rw [List.map_cons, List.nodup_cons] at distinct
      rw [List.find?_cons]
      rcases List.mem_cons.mp member with rfl | later
      · rw [beq_self_eq_true]
      · have differs : first.id ≠ block.id := by
          intro same
          exact distinct.1 (same ▸ List.mem_map_of_mem later)
        rw [beq_eq_false_iff_ne.mpr differs]
        exact ih distinct.2 later

include formed in
theorem SsaFunction.Formed.find {block : SsaBlock} (member : block ∈ function.blocks) :
    function.findBlock block.id = some block :=
  findBlock_of_mem formed.blockIds member

variable (inlined : String → Bool)

include formed in
theorem SsaFunction.Formed.program {block : SsaBlock} (member : block ∈ function.blocks) :
    (function.observedProgram inlined).phis block.id = block.phis ∧
      (function.observedProgram inlined).body block.id = block.observedBody inlined ∧
      (function.observedProgram inlined).exit block.id = block.exit := by
  have found := formed.find member
  refine ⟨?_, ?_, ?_⟩
  · simp only [SsaFunction.observedProgram, found, Option.map_some, Option.getD_some]
  · simp only [SsaFunction.observedProgram, found, Option.map_some, Option.getD_some]
  · simp only [SsaFunction.observedProgram, found, Option.map_some, Option.getD_some]

end Lookup

/-! ## Availability -/

section Availability

variable {function : SsaFunction} {available : Nat → Nat → Prop} (inlined : String → Bool)

theorem SsaBlock.exit_shape {block : SsaBlock} {terminator : SsaTerminator}
    (found : block.terminator = some terminator) (shaped : terminator.Shaped) :
    block.exit.reads = block.terminatorArgs ∧ block.exit.targets = block.successors := by
  unfold SsaBlock.exit SsaBlock.terminatorArgs SsaBlock.successors
  rw [found]
  rcases shaped with ⟨result, rfl⟩ | ⟨target, rfl⟩ | ⟨condition, ifTrue, ifFalse, rfl⟩
  · exact ⟨rfl, rfl⟩
  · exact ⟨rfl, rfl⟩
  · exact ⟨rfl, rfl⟩

/-- The values of a block are its phis and the values of its body. -/
theorem SsaBlock.mem_ids (block : SsaBlock) (value : Nat) :
    value ∈ block.instructions.map SsaInstruction.id ↔
      value ∈ block.phis.map Prod.fst ∨
        value ∈ (block.observedBody inlined).map Assignment.dst := by
  simp only [SsaBlock.phis, SsaBlock.observedBody, List.mem_map, List.mem_filter,
    SsaInstruction.observed]
  constructor
  · rintro ⟨instruction, member, rfl⟩
    cases isPhi : instruction.isPhi with
    | true => exact .inl ⟨_, ⟨instruction, ⟨member, isPhi⟩, rfl⟩, rfl⟩
    | false => exact .inr ⟨_, ⟨instruction, ⟨member, by rw [isPhi]; rfl⟩, rfl⟩, rfl⟩
  · rintro (⟨_, ⟨instruction, ⟨member, -⟩, rfl⟩, rfl⟩ | ⟨_, ⟨instruction, ⟨member, -⟩, rfl⟩, rfl⟩)
    · exact ⟨instruction, member, rfl⟩
    · exact ⟨instruction, member, rfl⟩

theorem SsaInstruction.observer_move {instruction : SsaInstruction}
    (ordinary : instruction.isPhi = false) (move : instruction.observer inlined = .move) :
    instruction.op = .copy := by
  unfold SsaInstruction.observer at move
  unfold SsaInstruction.isPhi at ordinary
  cases op : instruction.op with
  | copy => rfl
  | phi incoming =>
      rw [op] at ordinary
      cases ordinary
  | call callee =>
      simp only [op, SsaOp.code] at move
      split at move
      · cases move
      · cases move
  | load volatile =>
      simp only [op, SsaOp.code] at move
      split at move
      · cases move
      · cases move
  | _ =>
      simp only [op, SsaOp.code] at move
      cases move

/-- Instructions in scope denote assignments that find their operands. -/
theorem AllScoped.provided : ∀ {instructions : List SsaInstruction} {values : Nat → Prop},
    AllScoped values instructions → (∀ instruction ∈ instructions, instruction.isPhi = false) →
    Assignment.AllProvided values (instructions.map (SsaInstruction.observed inlined)) := by
  intro instructions
  induction instructions with
  | nil => exact fun _ _ => trivial
  | cons instruction rest ih =>
      intro values inScope ordinary
      have here := ordinary instruction List.mem_cons_self
      refine ⟨⟨inScope.1.1 here, fun move => ?_⟩,
        ih inScope.2 fun other member => ordinary other (List.mem_cons_of_mem _ member)⟩
      exact inScope.1.2 (instruction.observer_move inlined here move)

theorem AllScoped.mono : ∀ {instructions : List SsaInstruction} {values more : Nat → Prop},
    AllScoped values instructions → (∀ value, values value → more value) →
    AllScoped more instructions := by
  intro instructions
  induction instructions with
  | nil => exact fun _ _ => trivial
  | cons instruction rest ih =>
      intro values more inScope weaker
      refine ⟨⟨fun ordinary arg member => weaker _ (inScope.1.1 ordinary arg member), inScope.1.2⟩,
        ih inScope.2 ?_⟩
      rintro value (old | here)
      · exact .inl (weaker value old)
      · exact .inr here

/-- The instructions of a block after its phi, if it has one. -/
theorem SsaBlock.body_scoped {block : SsaBlock} {values : Nat → Prop}
    (ordinary : ∀ instruction ∈ block.instructions.tail, instruction.isPhi = false)
    (inScope : AllScoped values block.instructions) :
    AllScoped (fun value => values value ∨ value ∈ block.phis.map Prod.fst)
      (block.instructions.filter fun instruction => !instruction.isPhi) := by
  unfold SsaBlock.phis
  rcases split : block.instructions with _ | ⟨first, rest⟩
  · trivial
  · rw [split] at ordinary inScope
    have others : (rest.filter fun instruction => !instruction.isPhi) = rest := by
      rw [List.filter_eq_self]
      intro instruction member
      rw [ordinary instruction member]
      rfl
    have none : rest.filter SsaInstruction.isPhi = [] := by
      rw [List.filter_eq_nil_iff]
      intro instruction member isPhi
      rw [ordinary instruction member] at isPhi
      cases isPhi
    rw [List.filter_cons, List.filter_cons, others, none]
    cases isPhi : first.isPhi with
    | true =>
        simp only [Bool.not_true, Bool.false_eq_true, ↓reduceIte, List.map_cons, List.map_nil]
        refine inScope.2.mono ?_
        rintro value (old | rfl)
        · exact .inl old
        · exact .inr List.mem_cons_self
    | false =>
        simp only [Bool.not_false, Bool.false_eq_true, ↓reduceIte, List.map_nil]
        exact AllScoped.mono inScope fun value old => .inl old

/-- The blocks of a function, by id. -/
def SsaFunction.Has (function : SsaFunction) (id : Nat) : Prop :=
  ∃ block ∈ function.blocks, block.id = id

theorem SsaFunction.Scoped.ends_atEnd (formed : function.Formed) {block : SsaBlock}
    (member : block ∈ function.blocks) {value : Nat} (ends : block.Ends available value) :
    (function.observedProgram inlined).AtEnd available block.id value := by
  obtain ⟨phis, body, -⟩ := formed.program inlined member
  unfold SsaProgram.AtEnd SsaProgram.AtStart
  rw [phis, body]
  rcases ends with old | here
  · exact .inl (.inl old)
  · rcases (block.mem_ids inlined value).mp here with phi | body
    · exact .inl (.inr phi)
    · exact .inr body

/-- Values in scope are available. -/
theorem SsaFunction.Scoped.program_available (formed : function.Formed)
    (inScope : function.Scoped available) :
    (function.observedProgram inlined).Available function.Has available := by
  refine ⟨?_, ?_, ?_, ?_, ?_⟩
  · obtain ⟨block, member, same, -⟩ := formed.entry
    exact ⟨block, member, same⟩
  · obtain ⟨block, member, same, ordinary⟩ := formed.entry
    rintro value (old | phi)
    · exact inScope.entry value old
    · have entry : (function.observedProgram inlined).entry = block.id := same.symm
      rw [entry, (formed.program inlined member).1, SsaBlock.phis, List.map_map] at phi
      obtain ⟨instruction, kept, -⟩ := List.mem_map.mp phi
      obtain ⟨inside, isPhi⟩ := List.mem_filter.mp kept
      rw [ordinary instruction inside] at isPhi
      cases isPhi
  · rintro _ ⟨block, member, rfl⟩
    obtain ⟨phis, body, -⟩ := formed.program inlined member
    unfold SsaProgram.AtStart
    rw [phis, body]
    refine (SsaBlock.body_scoped (formed.phis block member) (inScope.uses block member)).provided
      inlined ?_
    intro instruction kept
    simpa using (List.mem_filter.mp kept).2
  · rintro _ ⟨block, member, rfl⟩ register reads
    obtain ⟨terminator, found, shaped⟩ := formed.shaped block member
    rw [(formed.program inlined member).2.2, (SsaBlock.exit_shape found shaped).1] at reads
    exact ends_atEnd inlined formed member (inScope.ends block member register reads)
  · rintro _ ⟨block, member, rfl⟩ target edge
    obtain ⟨terminator, found, shaped⟩ := formed.shaped block member
    rw [(formed.program inlined member).2.2, (SsaBlock.exit_shape found shaped).2] at edge
    obtain ⟨next, inside, rfl, inputs⟩ := formed.edges block member target edge
    obtain ⟨passes, phis⟩ := inScope.passes block member next inside edge
    refine ⟨⟨next, inside, rfl⟩, fun value known =>
      ends_atEnd inlined formed member (passes value known), ?_⟩
    intro phi listed
    rw [(formed.program inlined inside).1, SsaBlock.phis] at listed
    obtain ⟨instruction, kept, rfl⟩ := List.mem_map.mp listed
    obtain ⟨inside', isPhi⟩ := List.mem_filter.mp kept
    obtain ⟨value, looked⟩ := inputs instruction inside' isPhi
    exact ⟨value, looked, ends_atEnd inlined formed member
      (phis instruction inside' value isPhi looked)⟩

end Availability

end Stage0
