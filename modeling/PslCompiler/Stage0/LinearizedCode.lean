import PslCompiler.Stage0.LoweringPreservation
import PslCompiler.Stage0.Roots
import PslCompiler.Stage0.SsaSafety

/-! # The shape of linearized code

Where the instructions of `linearize-function` come from: the label and the values of a block, and
the copies, jumps and fresh labels of its exit. The labels are distinct and every register has one
type, so the tables of the LIR verifier can be built for the code of a verified function.
-/

namespace Stage0

open Flow

/-! ## Labels and registers -/

def LirOp.label? : LirOp → Option Nat
  | .label id => some id
  | _ => none

/-- The labels that code places, in order. -/
def lirLabels (instructions : List LirInstruction) : List Nat :=
  instructions.filterMap fun instruction => instruction.op.label?

theorem lirLabels_append (first second : List LirInstruction) :
    lirLabels (first ++ second) = lirLabels first ++ lirLabels second :=
  List.filterMap_append

theorem lirLabels_cons (instruction : LirInstruction) (rest : List LirInstruction) :
    lirLabels (instruction :: rest) = instruction.op.label?.toList ++ lirLabels rest := by
  unfold lirLabels
  cases kind : instruction.op.label? <;> simp [kind]

theorem lirLabelIndicesFrom_ok : ∀ (instructions : List LirInstruction) (index : Nat)
    (labels : Nat → Option Nat), (lirLabels instructions).Nodup →
    (∀ id ∈ lirLabels instructions, labels id = none) →
    ∃ result, lirLabelIndicesFrom instructions index labels = .ok result := by
  intro instructions
  induction instructions with
  | nil => exact fun _ labels _ _ => ⟨labels, rfl⟩
  | cons instruction rest ih =>
      intro index labels distinct fresh
      cases kind : instruction.op with
      | label id =>
          have here : lirLabels (instruction :: rest) = id :: lirLabels rest := by
            simp [lirLabels, kind, LirOp.label?]
          rw [here, List.nodup_cons] at distinct
          rw [here] at fresh
          simp only [lirLabelIndicesFrom, kind, fresh id List.mem_cons_self]
          apply ih _ _ distinct.2
          intro other member
          have differs : other ≠ id := fun same => distinct.1 (same ▸ member)
          rw [Function.update_of_ne differs]
          exact fresh other (List.mem_cons_of_mem _ member)
      | _ =>
          have here : lirLabels (instruction :: rest) = lirLabels rest := by
            simp [lirLabels, kind, LirOp.label?]
          rw [here] at distinct fresh
          simp only [lirLabelIndicesFrom, kind]
          exact ih _ _ distinct fresh

/-- Code with distinct labels has a label table. -/
theorem lirLabelIndices_ok {instructions : List LirInstruction}
    (distinct : (lirLabels instructions).Nodup) :
    ∃ labels, lirLabelIndices instructions = .ok labels :=
  lirLabelIndicesFrom_ok instructions 0 _ distinct fun _ _ => rfl

/-- Registers that agree with one typing have register types. -/
theorem lirRegisterTypesFrom_ok {count : Nat} (typing : Nat → Option Ty) :
    ∀ (instructions : List LirInstruction) (types : Nat → Option Ty),
      (∀ instruction ∈ instructions, ∀ id, instruction.dst = some id →
        id < count ∧ instruction.type.isSome = true ∧ instruction.type = typing id) →
      (∀ id, types id = none ∨ types id = typing id) →
      ∃ result, lirRegisterTypesFrom count instructions types = .ok result := by
  intro instructions
  induction instructions with
  | nil => exact fun types _ _ => ⟨types, rfl⟩
  | cons instruction rest ih =>
      intro types typed below
      have later := fun other member => typed other (List.mem_cons_of_mem instruction member)
      unfold lirRegisterTypesFrom
      cases target : instruction.dst with
      | none => exact ih types later below
      | some id =>
          obtain ⟨inside, known, same⟩ := typed instruction List.mem_cons_self id target
          have agrees : ((types id).isNone || instruction.type == types id) = true := by
            rcases below id with missing | value
            · simp [missing]
            · simp [value, same]
          simp only [inside, known, agrees, decide_true, Bool.and_self, require, ↓reduceIte]
          apply ih _ later
          intro other
          by_cases equal : other = id
          · rw [equal, Function.update_self, same]
            exact .inr rfl
          · rw [Function.update_of_ne equal]
            exact below other

/-! ## Linearized code -/

/-- The instructions that leave a block. Fresh labels start at `next`. -/
inductive Exits (function : SsaFunction) (next : Nat) (block : SsaBlock) : LirInstruction → Prop
  | copy {target : SsaBlock} {instruction : SsaInstruction} {value : Nat}
      (placed : target ∈ function.blocks) (member : instruction ∈ target.instructions) :
      Exits function next block
        { op := .copy, dst := some instruction.id, type := some instruction.type, args := [value] }
  | jump {target : Nat} (edge : target ∈ block.successors) :
      Exits function next block { op := .jump target }
  | branch {fresh : Nat} {args : List Nat} (above : next ≤ fresh) :
      Exits function next block { op := .branchZero fresh, args := args }
  | fresh {fresh : Nat} (above : next ≤ fresh) :
      Exits function next block { op := .label fresh }
  | ret {type : Option Ty} {args : List Nat} :
      Exits function next block { op := .ret, type := type, args := args }

/-- Where an instruction of linearized code comes from. -/
inductive Linear (function : SsaFunction) (next : Nat) (block : SsaBlock) :
    LirInstruction → Prop
  | label : Linear function next block { op := .label block.id }
  | value {instruction : SsaInstruction} (member : instruction ∈ block.instructions)
      (ordinary : instruction.isPhi = false) :
      Linear function next block (instructionToLir instruction)
  | exit {instruction : LirInstruction} (exits : Exits function next block instruction) :
      Linear function next block instruction

theorem Exits.mono {function : SsaFunction} {next after : Nat} (below : next ≤ after)
    {block : SsaBlock} {instruction : LirInstruction}
    (exits : Exits function after block instruction) : Exits function next block instruction := by
  cases exits with
  | copy placed member => exact .copy placed member
  | jump edge => exact .jump edge
  | branch above => exact .branch (below.trans above)
  | fresh above => exact .fresh (below.trans above)
  | ret => exact .ret

theorem Exits.target {function : SsaFunction} {next target : Nat} {block : SsaBlock}
    {instruction : LirInstruction} (exits : Exits function next block instruction)
    (jumps : instruction.op.target? = some target) :
    target ∈ block.successors ∨ next ≤ target := by
  cases exits with
  | copy => cases jumps
  | jump edge =>
      cases jumps
      exact .inl edge
  | branch above =>
      cases jumps
      exact .inr above
  | fresh => cases jumps
  | ret => cases jumps

theorem Linear.mono {function : SsaFunction} {next after : Nat} (below : next ≤ after)
    {block : SsaBlock} {instruction : LirInstruction}
    (linear : Linear function after block instruction) :
    Linear function next block instruction := by
  cases linear with
  | label => exact .label
  | value member ordinary => exact .value member ordinary
  | exit exits => exact .exit (exits.mono below)

section Linearized

variable {function : SsaFunction}

theorem phiCopies_exits {predecessor : Nat} {target : SsaBlock} {next : Nat} {block : SsaBlock}
    (placed : target ∈ function.blocks) : ∀ {instructions : List SsaInstruction}
    {copies : List LirInstruction}, (∀ instruction ∈ instructions,
      instruction ∈ target.instructions) → phiCopies predecessor instructions = .ok copies →
    ∀ copy ∈ copies, copy.op = .copy ∧ Exits function next block copy := by
  intro instructions
  induction instructions with
  | nil =>
      intro copies _ success
      cases success
      exact fun _ member => (List.not_mem_nil member).elim
  | cons instruction rest ih =>
      intro copies inside success
      unfold phiCopies at success
      cases kind : instruction.op with
      | phi incoming =>
          simp only [kind] at success
          cases found : incoming.lookup predecessor with
          | none => simp only [found, reduceCtorEq] at success
          | some value =>
              simp only [found, bind_eq_ok] at success
              obtain ⟨others, later, same⟩ := success
              cases same
              intro copy member
              rcases List.mem_cons.mp member with rfl | old
              · exact ⟨rfl, .copy placed (inside instruction List.mem_cons_self)⟩
              · exact ih (fun other member => inside other (List.mem_cons_of_mem _ member)) later
                  copy old
      | _ =>
          simp only [kind, Except.ok.injEq] at success
          subst success
          exact fun _ member => (List.not_mem_nil member).elim

theorem edgeToLir_exits {block : SsaBlock} {target next : Nat} {code : List LirInstruction}
    (edge : target ∈ block.successors) (success : edgeToLir function block.id target = .ok code) :
    lirLabels code = [] ∧ (∀ instruction ∈ code, Exits function next block instruction) ∧
      ∃ first rest, code = first :: rest ∧ first.op.beforeEntryP = false := by
  simp only [edgeToLir, edgeCopies, bind_eq_ok] at success
  obtain ⟨copies, copied, same⟩ := success
  cases same
  cases found : function.findBlock target with
  | none => simp only [found, reduceCtorEq] at copied
  | some successor =>
      simp only [found] at copied
      have exits := @phiCopies_exits function block.id successor next block
        (findBlock_mem found).1 _ _ (fun _ member => member) copied
      have unlabelled : lirLabels copies = [] := by
        apply List.filterMap_eq_nil_iff.mpr
        intro copy member
        rw [(exits copy member).1]
        rfl
      refine ⟨by rw [lirLabels_append, unlabelled]; rfl, ?_, ?_⟩
      · intro instruction member
        rcases List.mem_append.mp member with copy | jump
        · exact (exits instruction copy).2
        · rw [List.mem_singleton.mp jump]
          exact .jump edge
      · cases copies with
        | nil => exact ⟨_, _, rfl, rfl⟩
        | cons copy rest =>
            refine ⟨_, _, rfl, ?_⟩
            rw [(exits copy List.mem_cons_self).1]
            rfl

theorem terminatorToLir_exits {block : SsaBlock} {next after : Nat} {code : List LirInstruction}
    (success : terminatorToLir function block next = .ok (code, after)) :
    (lirLabels code = [] ∧ after = next ∨ lirLabels code = [next] ∧ after = next + 1) ∧
      (∀ instruction ∈ code, Exits function next block instruction) ∧
      ∃ first rest, code = first :: rest ∧ first.op.beforeEntryP = false := by
  unfold terminatorToLir at success
  split at success
  · cases success
    refine ⟨.inl ⟨rfl, rfl⟩, ?_, _, _, rfl, rfl⟩
    intro instruction member
    rw [List.mem_singleton.mp member]
    exact .ret
  · rename_i args target others ended
    simp only [bind_eq_ok] at success
    obtain ⟨edge, lowered, same⟩ := success
    cases same
    have successor : target ∈ block.successors := by simp [SsaBlock.successors, ended]
    obtain ⟨unlabelled, exits, starts⟩ := edgeToLir_exits successor lowered
    exact ⟨.inl ⟨unlabelled, rfl⟩, exits, starts⟩
  · rename_i args ifTrue ifFalse others ended
    simp only [bind_eq_ok] at success
    obtain ⟨trueEdge, trueLowered, falseEdge, falseLowered, same⟩ := success
    cases same
    obtain ⟨trueUnlabelled, trueExits, -⟩ := @edgeToLir_exits function block ifTrue next _
      (by simp [SsaBlock.successors, ended]) trueLowered
    obtain ⟨falseUnlabelled, falseExits, -⟩ := @edgeToLir_exits function block ifFalse next _
      (by simp [SsaBlock.successors, ended]) falseLowered
    refine ⟨.inr ⟨?_, rfl⟩, ?_, _, _, rfl, rfl⟩
    · rw [List.cons_append, lirLabels_cons, lirLabels_append, trueUnlabelled, lirLabels_cons,
        falseUnlabelled]
      rfl
    · intro instruction member
      simp only [List.cons_append, List.mem_cons, List.mem_append] at member
      rcases member with rfl | early | rfl | late
      · exact .branch le_rfl
      · exact trueExits instruction early
      · exact .fresh le_rfl
      · exact falseExits instruction late
  · cases success

/-- The code of the instructions of a block that are no phis. -/
def blockValues (block : SsaBlock) : List LirInstruction :=
  (block.instructions.filter fun instruction => !instruction.isPhi).map instructionToLir

theorem linearizeBlocks_cons {block : SsaBlock} {rest : List SsaBlock} {next : Nat}
    {code : List LirInstruction}
    (success : linearizeBlocks function (block :: rest) next = .ok code) :
    ∃ terminator after later, terminatorToLir function block next = .ok (terminator, after) ∧
      linearizeBlocks function rest after = .ok later ∧
      code = { op := .label block.id } :: (blockValues block ++ (terminator ++ later)) := by
  simp only [linearizeBlocks, bind_eq_ok] at success
  obtain ⟨⟨terminator, after⟩, ended, later, continued, same⟩ := success
  cases same
  refine ⟨terminator, after, later, ended, continued, ?_⟩
  simp [blockValues]

theorem linear_blockValues {block : SsaBlock} {next : Nat} {instruction : LirInstruction}
    (member : instruction ∈ blockValues block) : Linear function next block instruction := by
  obtain ⟨source, kept, rfl⟩ := List.mem_map.mp member
  obtain ⟨inside, ordinary⟩ := List.mem_filter.mp kept
  exact .value inside (by simpa using ordinary)

theorem instructionToLir_label? (instruction : SsaInstruction) :
    (instructionToLir instruction).op.label? = none := by
  unfold instructionToLir
  cases instruction.op <;> rfl

theorem lirLabels_blockValues (block : SsaBlock) : lirLabels (blockValues block) = [] := by
  apply List.filterMap_eq_nil_iff.mpr
  intro instruction member
  obtain ⟨source, -, rfl⟩ := List.mem_map.mp member
  exact instructionToLir_label? source

/-- Every instruction of linearized code comes from one of the blocks. -/
theorem linearizeBlocks_linear : ∀ {blocks : List SsaBlock} {next : Nat}
    {code : List LirInstruction}, linearizeBlocks function blocks next = .ok code →
    ∀ instruction ∈ code, ∃ block ∈ blocks, Linear function next block instruction := by
  intro blocks
  induction blocks with
  | nil =>
      intro next code success
      cases success
      exact fun _ member => (List.not_mem_nil member).elim
  | cons block rest ih =>
      intro next code success instruction member
      obtain ⟨terminator, after, later, ended, continued, rfl⟩ := linearizeBlocks_cons success
      obtain ⟨labels, exits, -⟩ := terminatorToLir_exits ended
      have below : next ≤ after := by
        rcases labels with ⟨-, rfl⟩ | ⟨-, rfl⟩
        · exact le_rfl
        · exact Nat.le_succ _
      simp only [List.mem_cons, List.mem_append] at member
      rcases member with rfl | value | exit | further
      · exact ⟨block, List.mem_cons_self, .label⟩
      · exact ⟨block, List.mem_cons_self, linear_blockValues value⟩
      · exact ⟨block, List.mem_cons_self, .exit (exits instruction exit)⟩
      · obtain ⟨other, inside, found⟩ := ih continued instruction further
        exact ⟨other, List.mem_cons_of_mem _ inside, found.mono below⟩

/-- The labels of linearized code are the blocks and fresh ones, all distinct. -/
theorem linearizeBlocks_labels : ∀ {blocks : List SsaBlock} {next : Nat}
    {code : List LirInstruction}, linearizeBlocks function blocks next = .ok code →
    (blocks.map SsaBlock.id).Nodup → (∀ block ∈ blocks, block.id < next) →
    (lirLabels code).Nodup ∧
      ∀ label ∈ lirLabels code, label ∈ blocks.map SsaBlock.id ∨ next ≤ label := by
  intro blocks
  induction blocks with
  | nil =>
      intro next code success _ _
      cases success
      exact ⟨.nil, fun _ member => (List.not_mem_nil member).elim⟩
  | cons block rest ih =>
      intro next code success distinct below
      obtain ⟨terminator, after, later, ended, continued, rfl⟩ := linearizeBlocks_cons success
      obtain ⟨labels, -, -⟩ := terminatorToLir_exits ended
      have here := below block List.mem_cons_self
      rw [List.map_cons, List.nodup_cons] at distinct
      have shape : lirLabels ({ op := .label block.id } ::
          (blockValues block ++ (terminator ++ later))) =
          block.id :: (lirLabels terminator ++ lirLabels later) := by
        rw [lirLabels_cons, lirLabels_append, lirLabels_append, lirLabels_blockValues]
        rfl
      have restBelow : ∀ other ∈ rest, other.id < next := fun other member =>
        below other (List.mem_cons_of_mem _ member)
      rw [shape]
      rcases labels with ⟨none, rfl⟩ | ⟨one, rfl⟩
      · obtain ⟨laterDistinct, known⟩ := ih continued distinct.2 restBelow
        rw [none, List.nil_append, List.nodup_cons]
        refine ⟨⟨?_, laterDistinct⟩, ?_⟩
        · intro member
          rcases known _ member with old | fresh
          · exact distinct.1 old
          · omega
        · intro label member
          rcases List.mem_cons.mp member with rfl | old
          · exact .inl List.mem_cons_self
          · exact (known label old).imp (List.mem_cons_of_mem _) id
      · obtain ⟨laterDistinct, known⟩ := ih continued distinct.2 fun other member =>
          Nat.lt_succ_of_lt (restBelow other member)
        have bounded : ∀ id ∈ rest.map SsaBlock.id, id < next := by
          intro id member
          obtain ⟨other, inside, rfl⟩ := List.mem_map.mp member
          exact restBelow other inside
        rw [one, List.singleton_append, List.nodup_cons, List.nodup_cons]
        refine ⟨⟨?_, ?_, laterDistinct⟩, ?_⟩
        · intro member
          rcases List.mem_cons.mp member with same | old
          · omega
          · rcases known _ old with listed | fresh
            · exact distinct.1 listed
            · omega
        · intro member
          rcases known _ member with listed | fresh
          · exact Nat.lt_irrefl _ (bounded _ listed)
          · omega
        · intro label member
          rcases List.mem_cons.mp member with rfl | old
          · exact .inl List.mem_cons_self
          · rcases List.mem_cons.mp old with rfl | later
            · exact .inr le_rfl
            · rcases known label later with listed | fresh
              · exact .inl (List.mem_cons_of_mem _ listed)
              · exact .inr (by omega)

end Linearized

def SsaInstruction.isArgument (instruction : SsaInstruction) : Bool :=
  match instruction.op with
  | .argument _ => true
  | _ => false

theorem instructionToLir_argument {instruction : SsaInstruction} {index : Nat} {type : Ty}
    (reads : (instructionToLir instruction).op = .argument index type) :
    instruction.isArgument = true := by
  unfold instructionToLir at reads
  unfold SsaInstruction.isArgument
  cases kind : instruction.op <;> simp [kind, SsaOp.toLir] at reads ⊢

theorem instructionToLir_target? (instruction : SsaInstruction) :
    (instructionToLir instruction).op.target? = none := by
  unfold instructionToLir
  cases instruction.op <;> rfl

/-! ## Verified functions -/

/-- What the SSA verifier establishes of blocks, values and arguments. -/
structure SsaFunction.Named (function : SsaFunction) : Prop where
  blocks : (function.blocks.map SsaBlock.id).Nodup
  values : ((function.blocks.flatMap SsaBlock.instructions).map SsaInstruction.id).Nodup
  bounded : ∀ block ∈ function.blocks, ∀ instruction ∈ block.instructions,
    instruction.id < function.nextValue
  arguments : ∀ block ∈ function.blocks, ∀ instruction ∈ block.instructions,
    instruction.isArgument = true → block.id = function.entry

theorem verifySsaValueIds_bounded {nextValue : Nat} : ∀ {instructions : List SsaInstruction}
    {values result : Finset Nat}, verifySsaValueIds nextValue instructions values = .ok result →
    ∀ instruction ∈ instructions, instruction.id < nextValue := by
  intro instructions
  induction instructions with
  | nil => exact fun _ _ member => (List.not_mem_nil member).elim
  | cons first rest ih =>
      intro values result success instruction member
      simp only [verifySsaValueIds, bind_eq_ok, require_eq_ok, decide_eq_true_eq] at success
      obtain ⟨-, inside, -, -, done⟩ := success
      rcases List.mem_cons.mp member with rfl | later
      · exact inside
      · exact ih done instruction later

theorem verifySsaBlockIds_bounded {nextValue : Nat} : ∀ {blocks : List SsaBlock}
    {ids values result : Finset Nat}, verifySsaBlockIds nextValue blocks ids values = .ok result →
    ∀ block ∈ blocks, ∀ instruction ∈ block.instructions, instruction.id < nextValue := by
  intro blocks
  induction blocks with
  | nil => exact fun _ _ member => (List.not_mem_nil member).elim
  | cons first rest ih =>
      intro ids values result success block member
      simp only [verifySsaBlockIds, bind_eq_ok, require_eq_ok, decide_eq_true_eq] at success
      obtain ⟨-, -, -, -, seen, checked, done⟩ := success
      rcases List.mem_cons.mp member with rfl | later
      · exact verifySsaValueIds_bounded checked
      · exact ih done block later

theorem verifySsaFunction_named {function : SsaFunction} {signatures : Signatures}
    {pointerBits : Nat} (accepted : verifySsaFunction function signatures pointerBits = .ok ()) :
    function.Named := by
  simp only [verifySsaFunction, verifySsaStructure, bind_eq_ok, require_eq_ok, checkAll_eq_ok,
    decide_eq_true_eq] at accepted
  obtain ⟨-, -, -, ⟨-, -, ids, named, -⟩, -, checked, -⟩ := accepted
  have blockIds := verifySsaBlockIds_ids named
  refine ⟨blockIds.distinct, ?_, verifySsaBlockIds_bounded named, ?_⟩
  · rw [List.map_flatMap]
    exact blockIds.values
  · intro block member instruction inside argument
    obtain ⟨-, each, -⟩ := checked block member
    have check := each instruction inside
    simp only [verifySsaInstruction, bind_eq_ok] at check
    obtain ⟨types, -, check⟩ := check
    cases kind : instruction.op with
    | argument index =>
        simp only [kind, bind_eq_ok, require_eq_ok, beq_iff_eq] at check
        exact check.choose_spec.2.choose_spec.1
    | _ => simp [SsaInstruction.isArgument, kind] at argument

namespace SsaFunction.Named

variable {function : SsaFunction} (named : function.Named)

include named in
theorem type_unique {first second : SsaInstruction}
    (firstMember : first ∈ function.blocks.flatMap SsaBlock.instructions)
    (secondMember : second ∈ function.blocks.flatMap SsaBlock.instructions)
    (same : first.id = second.id) : first = second :=
  List.inj_on_of_nodup_map named.values firstMember secondMember same

/-- The type of the only instruction with an id. -/
def typing (function : SsaFunction) (id : Nat) : Option Ty :=
  ((function.blocks.flatMap SsaBlock.instructions).find? fun instruction =>
    instruction.id == id).map SsaInstruction.type

include named in
theorem typing_eq {block : SsaBlock} {instruction : SsaInstruction}
    (placed : block ∈ function.blocks) (member : instruction ∈ block.instructions) :
    typing function instruction.id = some instruction.type := by
  have inside : instruction ∈ function.blocks.flatMap SsaBlock.instructions :=
    List.mem_flatMap.mpr ⟨block, placed, member⟩
  obtain ⟨found, known⟩ : ∃ found, (function.blocks.flatMap SsaBlock.instructions).find?
      (fun other => other.id == instruction.id) = some found := by
    apply Option.isSome_iff_exists.mp
    rw [List.find?_isSome]
    exact ⟨instruction, inside, by simp⟩
  have equal := named.type_unique (List.mem_of_find?_eq_some known) inside
    (by simpa using List.find?_some known)
  rw [typing, known, equal, Option.map_some]

variable {lir : LirFunction} (linearized : linearizeFunction function = .ok lir)

include linearized in
theorem linearizeFunction_code : ∃ code, linearizeBlocks function function.blocks
      (1 + (function.blocks.map SsaBlock.id).foldl max 0) = .ok code ∧
    lir.instructions = code ∧ lir.registerCount = function.nextValue ∧ lir.rootRegisters = [] := by
  simp only [linearizeFunction, bind_eq_ok] at linearized
  obtain ⟨code, success, same⟩ := linearized
  cases same
  exact ⟨code, success, rfl, rfl, rfl⟩

include named linearized in
theorem registerTypes : ∃ types, lirRegisterTypes lir = .ok types := by
  obtain ⟨code, success, rfl, count, -⟩ := linearizeFunction_code linearized
  unfold lirRegisterTypes
  apply lirRegisterTypesFrom_ok (typing function)
  · intro instruction member id target
    obtain ⟨block, placed, linear⟩ := linearizeBlocks_linear success instruction member
    rw [count]
    cases linear with
    | value inside ordinary =>
        cases target
        exact ⟨named.bounded block placed _ inside, rfl, (named.typing_eq placed inside).symm⟩
    | label => cases target
    | exit exits =>
        cases exits with
        | copy targetPlaced inside =>
            cases target
            exact ⟨named.bounded _ targetPlaced _ inside, rfl,
              (named.typing_eq targetPlaced inside).symm⟩
        | _ => cases target
  · exact fun _ => .inl rfl

include named linearized in
theorem labels : (lirLabels lir.instructions).Nodup := by
  obtain ⟨code, success, rfl, -, -⟩ := linearizeFunction_code linearized
  refine (linearizeBlocks_labels success named.blocks ?_).1
  intro block member
  have above := (foldl_max_above (function.blocks.map SsaBlock.id) 0).2 block.id
    (List.mem_map_of_mem member)
  omega

end SsaFunction.Named

end Stage0
