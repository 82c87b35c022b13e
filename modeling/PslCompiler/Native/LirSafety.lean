import Mathlib.Tactic
import PslCompiler.Flow.Dominance
import PslCompiler.Native.OperandTypes
import PslCompiler.Native.SsaSafety
import PslCompiler.Native.VerifyLir

/-! # What the native LIR verifier guarantees

A flat instruction list run from its first instruction, whichever way its branches go. In an
accepted list every register is assigned before it is read, with its catalogued type, every jump
and branch finds its label, and control stays inside the list until a return.
-/

namespace Native

open Flow

/-! ## Executions -/

/-- The next instruction, and the types of the assigned registers. -/
structure LirState where
  pc : Nat
  assigned : Nat → Option SourceType

namespace LirInstruction

/-- The labels that an instruction may transfer control to. -/
def targets (op : LirInstruction) : List Nat :=
  match op.kind with
  | .jump => [op.target]
  | .branch => [op.target, op.right]
  | _ => []

def assign (op : LirInstruction) (assigned : Nat → Option SourceType) : Nat → Option SourceType :=
  if op.destination = 0 then assigned
  else Function.update assigned op.destination (some op.toScalarOp.sourceType)

end LirInstruction

namespace LirArena

/-- The position of a label. -/
def labelIndex (arena : LirArena) (label : Nat) : Option Nat :=
  (List.range' 1 arena.count).find? fun index =>
    (arena.instructions index).kind == .label && (arena.instructions index).target == label

/-- The arguments of a call, along the chain of links in the catalogue. -/
def callArguments (context : CompileContext) (arena : LirArena) (op : ScalarOp) : List Nat :=
  chainArguments (fun link => (arena.types link).left) (fun link => (arena.types link).right)
    op.left (context.signatureAt (op.target - 1)).arity

/-- The registers that an instruction reads. -/
def reads (context : CompileContext) (arena : LirArena) (op : LirInstruction) : List Nat :=
  match op.kind with
  | .rootsInit | .rootsEnter | .rootsSync | .rootsLeave | .label | .jump => []
  | .ret => if op.scalarCode = 12 then [] else [op.left]
  | .literal | .parameter | .booleanLiteral | .voidValue | .dataAddress | .literalAddress
  | .functionAddress => []
  | .call => arena.callArguments context op.toScalarOp
  | kind => if kind.irBinaryKindP then [op.left, op.right] else [op.left]

inductive Step (arena : LirArena) : LirState → LirState → Prop
  | next {state : LirState} (lower : 1 ≤ state.pc) (upper : state.pc ≤ arena.count)
      (falls : (arena.instructions state.pc).kind.terminalKindP = false) :
      Step arena state
        ⟨state.pc + 1, (arena.instructions state.pc).assign state.assigned⟩
  | transfer {state : LirState} {label index : Nat} (lower : 1 ≤ state.pc)
      (upper : state.pc ≤ arena.count)
      (transfers : label ∈ (arena.instructions state.pc).targets)
      (found : arena.labelIndex label = some index) :
      Step arena state ⟨index, (arena.instructions state.pc).assign state.assigned⟩

/-- The catalogued types of the assigned registers. -/
def declared (arena : LirArena) (assigned : Nat → Option SourceType) (register : Nat) :
    Option SourceType :=
  (assigned register).map fun _ => (arena.types register).sourceType

/-- What must hold in every state that an execution passes through. -/
structure Safe (context : CompileContext) (arena : LirArena) (state : LirState) : Prop where
  inside : 1 ≤ state.pc ∧ state.pc ≤ arena.count
  assigned : ∀ register ∈ arena.reads context (arena.instructions state.pc),
    Holds state.assigned register (·.Same context (arena.types register).sourceType)
  typed : OperandsTyped context (arena.declared state.assigned)
    (arena.callArguments context (arena.instructions state.pc).toScalarOp)
    (arena.instructions state.pc).toScalarOp
  condition : (arena.instructions state.pc).kind = .branch →
    Holds (arena.declared state.assigned) (arena.instructions state.pc).left (·.Same context ⟨0, 0⟩)
  result : (arena.instructions state.pc).kind = .ret →
    (arena.instructions state.pc).sourceType.Same context
        ⟨context.currentSignature.typeCode, context.currentSignature.resultPointee⟩ ∧
      ((arena.instructions state.pc).scalarCode ≠ 12 →
        Holds (arena.declared state.assigned) (arena.instructions state.pc).left
          (·.Same context (arena.instructions state.pc).sourceType))
  targets : ∀ label ∈ (arena.instructions state.pc).targets, (arena.labelIndex label).isSome = true
  continues : (arena.instructions state.pc).kind = .ret ∨ ∃ next, arena.Step state next

/-- Every execution from the first instruction is safe. -/
def ExecutionSafe (context : CompileContext) (arena : LirArena) : Prop :=
  ∀ state, Relation.ReflTransGen arena.Step ⟨1, fun _ => none⟩ state → arena.Safe context state

/-! ## The block table -/

/-- What the scan has recorded of the first instructions. -/
structure Scanned (arena : LirArena) (known previous : Nat) (blocks : Nat → LirBlock) : Prop where
  firsts : ∀ label, (blocks label).first ≠ 0 → 1 ≤ label ∧ 2 ≤ (blocks label).first ∧
    (blocks label).first ≤ known + 1 ∧
    (arena.instructions ((blocks label).first - 1)).kind = .label ∧
    (arena.instructions ((blocks label).first - 1)).target = label
  labels : ∀ index, 1 ≤ index → index ≤ known → (arena.instructions index).kind = .label →
    (blocks (arena.instructions index).target).first = index + 1
  closed : ∀ label, (blocks label).first ≠ 0 → label ≠ previous → ∀ index,
    (blocks label).first ≤ index → index ≤ (blocks label).last →
    (arena.instructions index).kind ≠ .label
  current : previous ≠ 0 → (blocks previous).first ≠ 0 ∧ ∀ index,
    (blocks previous).first ≤ index → index ≤ known → (arena.instructions index).kind ≠ .label

/-- The blocks of a list that has been scanned to its end. -/
structure Layout (arena : LirArena) (blocks : Nat → LirBlock) : Prop where
  firsts : ∀ label, (blocks label).first ≠ 0 → 1 ≤ label ∧ 2 ≤ (blocks label).first ∧
    (blocks label).first ≤ arena.count + 1 ∧
    (arena.instructions ((blocks label).first - 1)).kind = .label ∧
    (arena.instructions ((blocks label).first - 1)).target = label
  labels : ∀ index, 1 ≤ index → index ≤ arena.count → (arena.instructions index).kind = .label →
    (blocks (arena.instructions index).target).first = index + 1
  inside : ∀ label, (blocks label).first ≠ 0 → ∀ index, (blocks label).first ≤ index →
    index ≤ (blocks label).last → (arena.instructions index).kind ≠ .label

variable {arena : LirArena}

/-- Reading one more instruction keeps what is recorded. -/
theorem Scanned.skip {known previous : Nat} {blocks : Nat → LirBlock}
    (scanned : arena.Scanned known previous blocks)
    (ordinary : (arena.instructions (known + 1)).kind ≠ .label) :
    arena.Scanned (known + 1) previous blocks := by
  refine ⟨?_, ?_, scanned.closed, ?_⟩
  · intro label present
    obtain ⟨positive, lower, upper, kind, target⟩ := scanned.firsts label present
    exact ⟨positive, lower, by omega, kind, target⟩
  · intro index lower upper isLabel
    rcases Nat.lt_or_eq_of_le upper with before | rfl
    · exact scanned.labels index lower (by omega) isLabel
    · exact (ordinary isLabel).elim
  · intro present
    obtain ⟨opened, none⟩ := scanned.current present
    refine ⟨opened, fun index lower upper => ?_⟩
    rcases Nat.lt_or_eq_of_le upper with before | rfl
    · exact none index lower (by omega)
    · exact ordinary

/-- Opening a block at a new label, and closing the one before. -/
theorem Scanned.enter {known previous : Nat} {blocks : Nat → LirBlock}
    (scanned : arena.Scanned known previous blocks)
    (isLabel : (arena.instructions (known + 1)).kind = .label)
    (positive : 1 ≤ (arena.instructions (known + 1)).target)
    (fresh : (blocks (arena.instructions (known + 1)).target).first = 0)
    {opened closed : Nat → LirBlock}
    (opens : opened = Function.update blocks (arena.instructions (known + 1)).target
      { blocks (arena.instructions (known + 1)).target with first := known + 1 + 1 })
    (closes : closed = if previous = 0 then opened
      else Function.update opened previous { opened previous with last := known }) :
    arena.Scanned (known + 1) (arena.instructions (known + 1)).target closed := by
  set entered := (arena.instructions (known + 1)).target with enteredEq
  have other : previous ≠ 0 → previous ≠ entered := by
    rintro present rfl
    exact (scanned.current present).1 fresh
  have first (label : Nat) : (closed label).first =
      if label = entered then known + 2 else (blocks label).first := by
    rw [closes, opens]
    by_cases here : label = entered
    · subst here
      rw [if_pos rfl]
      split
      · rw [Function.update_self]
      · rename_i present
        rw [Function.update_of_ne (Ne.symm (other present)), Function.update_self]
    · rw [if_neg here]
      split
      · rw [Function.update_of_ne here]
      · by_cases before : label = previous
        · subst before
          rw [Function.update_self, Function.update_of_ne here]
        · rw [Function.update_of_ne before, Function.update_of_ne here]
  have last (label : Nat) (different : label ≠ entered) : (closed label).last =
      if label = previous ∧ previous ≠ 0 then known else (blocks label).last := by
    rw [closes, opens]
    split
    · rename_i none
      rw [Function.update_of_ne different, if_neg (fun both => both.2 none)]
    · rename_i present
      by_cases before : label = previous
      · subst before
        rw [Function.update_self, if_pos ⟨rfl, present⟩]
      · rw [Function.update_of_ne before, Function.update_of_ne different,
          if_neg (fun both => before both.1)]
  refine ⟨?_, ?_, ?_, ?_⟩
  · intro label present
    rw [first] at present ⊢
    by_cases here : label = entered
    · rw [if_pos here, here]
      exact ⟨positive, by omega, by omega, isLabel, enteredEq.symm⟩
    · rw [if_neg here] at present ⊢
      obtain ⟨least, lower, upper, kind, target⟩ := scanned.firsts label present
      exact ⟨least, lower, by omega, kind, target⟩
  · intro index lower upper label
    rw [first]
    rcases Nat.lt_or_eq_of_le upper with before | rfl
    · have recorded := scanned.labels index lower (by omega) label
      have differs : (arena.instructions index).target ≠ entered := by
        intro same
        rw [same, fresh] at recorded
        omega
      rw [if_neg differs, recorded]
    · rw [if_pos enteredEq.symm]
  · intro label present different index lower upper
    rw [first, if_neg different] at present lower
    rw [last label different] at upper
    split at upper
    · rename_i before
      exact (scanned.current before.2).2 index (before.1 ▸ lower) upper
    · rename_i earlier
      refine scanned.closed label present (fun before => ?_) index lower upper
      have least := (scanned.firsts label present).1
      exact earlier ⟨before, by omega⟩
  · intro _
    rw [first, if_pos rfl]
    refine ⟨by omega, fun index lower upper => ?_⟩
    omega

/-- The scan of a list yields the layout of its blocks. -/
theorem scanBlocks_layout : ∀ (remaining known previous : Nat) (blocks result : Nat → LirBlock),
    known + remaining = arena.count → arena.Scanned known previous blocks →
    arena.scanBlocks remaining (known + 1) previous blocks = some result →
    arena.Layout result := by
  intro remaining
  induction remaining with
  | zero =>
      intro known previous blocks result total scanned success
      unfold scanBlocks at success
      split at success
      · cases success
      · rename_i present
        cases success
        have first (label : Nat) : (Function.update blocks previous
            { blocks previous with last := arena.count } label).first = (blocks label).first := by
          by_cases same : label = previous
          · subst same
            rw [Function.update_self]
          · rw [Function.update_of_ne same]
        refine ⟨?_, ?_, ?_⟩
        · intro label opened
          rw [first] at opened ⊢
          obtain ⟨positive, lower, upper, rest⟩ := scanned.firsts label opened
          exact ⟨positive, lower, by omega, rest⟩
        · intro index lower upper isLabel
          rw [first]
          exact scanned.labels index lower (by omega) isLabel
        · intro label opened index lower upper
          rw [first] at opened lower
          by_cases same : label = previous
          · subst same
            rw [Function.update_self] at upper
            exact (scanned.current present).2 index lower (by simp only at upper; omega)
          · rw [Function.update_of_ne same] at upper
            exact scanned.closed label opened same index lower upper
  | succ remaining ih =>
      intro known previous blocks result total scanned success
      by_cases isLabel : (arena.instructions (known + 1)).kind = .label
      · by_cases inside : irReferenceP (arena.instructions (known + 1)).target arena.labelCount = true
        · by_cases fresh : (blocks (arena.instructions (known + 1)).target).first = 0
          · simp only [scanBlocks, isLabel, inside, fresh, ↓reduceIte] at success
            exact ih (known + 1) _ _ result (by omega)
              (scanned.enter isLabel (irReferenceP_eq_true.mp inside).1 fresh rfl rfl) success
          · simp only [scanBlocks, isLabel, inside, fresh, ↓reduceIte, reduceCtorEq] at success
        · simp only [scanBlocks, isLabel, inside, ↓reduceIte, reduceCtorEq] at success
      · by_cases none : previous = 0
        · simp only [scanBlocks, isLabel, none, ↓reduceIte, reduceCtorEq] at success
        · simp only [scanBlocks, isLabel, none, ↓reduceIte] at success
          exact ih (known + 1) _ _ result (by omega) (scanned.skip isLabel) success

theorem scanned_none : arena.Scanned 0 0 fun _ => {} :=
  ⟨fun _ present => (present rfl).elim, fun index lower upper => by omega,
    fun _ present => (present rfl).elim, fun present => (present rfl).elim⟩

/-! ## Accepted lists -/

/-- A register holds a value of its catalogued type. -/
def Carries (context : CompileContext) (arena : LirArena) (assigned : Nat → Option SourceType)
    (register : Nat) : Prop :=
  Holds assigned register (·.Same context (arena.types register).sourceType)

/-- The blocks that the last instruction of a block may lead to. -/
def successors (arena : LirArena) (blocks : Nat → LirBlock) (block : Nat) : List Nat :=
  (arena.instructions (blocks block).last).targets

/-- What the verifier establishes of an accepted instruction list. -/
structure Accepted (context : CompileContext) (arena : LirArena) (blocks : Nat → LirBlock) :
    Prop where
  entry : (arena.instructions 1).kind = .label ∧ (arena.instructions 1).target = 1
  nonempty : 1 ≤ arena.count
  catalogue : ∀ reference, 1 ≤ reference → reference ≤ arena.valueCount →
    lirCatalogEntryP context arena reference = true
  shapes : ∀ index, 1 ≤ index → index ≤ arena.count →
    if (arena.instructions index).destination = 0 then
      lirControlShapeP context arena (arena.instructions index) = true
    else lirValueShapeP context arena (arena.instructions index) = true
  layout : arena.Layout blocks
  ranges : ∀ label, 1 ≤ label → label ≤ arena.labelCount → (blocks label).first ≠ 0 ∧
    arena.verifyBlockRange (blocks label).first (blocks label).last = true
  definitions : lirVerifyDefinitions context arena blocks arena.count 1 0 = true

/-- What an execution keeps true of its state, in a block and relative to the blocks it has left. -/
structure Invariant (context : CompileContext) (arena : LirArena) (blocks : Nat → LirBlock)
    (state : LirState) (block : Nat) (earlier : List Nat) : Prop where
  trail : Trail (arena.successors blocks) 1 (block :: earlier)
  bounds : 1 ≤ block ∧ block ≤ arena.labelCount
  place : (blocks block).first ≤ state.pc + 1 ∧ state.pc ≤ (blocks block).last
  left : ∀ other ∈ earlier, ∀ index, (blocks other).first ≤ index → index ≤ (blocks other).last →
    (arena.instructions index).destination ≠ 0 →
    arena.Carries context state.assigned (arena.instructions index).destination
  executed : ∀ index, (blocks block).first ≤ index → index < state.pc →
    (arena.instructions index).destination ≠ 0 →
    arena.Carries context state.assigned (arena.instructions index).destination

end LirArena

open LirArena

theorem lirVerifyFunction_accepted {context : CompileContext} {arena : LirArena}
    (verified : lirVerifyFunction context arena = true) :
    ∃ blocks, Accepted context arena blocks := by
  simp only [lirVerifyFunction, lirVerifyFunctionBody, lirVerifyShapes, Bool.and_eq_true,
    irReferenceP_eq_true, checkUpTo_eq_true, entryP, beq_iff_eq] at verified
  obtain ⟨⟨⟨⟨-, counted⟩, entry⟩, ⟨⟨-, catalogue⟩, shapes⟩, scan⟩, -⟩ := verified
  split at scan
  · cases scan
  · rename_i blocks scanned
    simp only [Bool.and_eq_true, verifyRanges, checkUpTo_eq_true, bne_iff_ne] at scan
    obtain ⟨⟨ranges, -⟩, definitions⟩ := scan
    refine ⟨blocks, entry, counted.1, catalogue, ?_, ?_, ranges, definitions⟩
    · intro index lower upper
      have shape := shapes index lower upper
      split
      · rename_i control
        rwa [if_pos control] at shape
      · rename_i value
        rwa [if_neg value] at shape
    · exact scanBlocks_layout arena.count 0 0 _ blocks (by omega) scanned_none scanned

namespace LirArena.Accepted

variable {context : CompileContext} {arena : LirArena} {blocks : Nat → LirBlock}
variable (accepted : Accepted context arena blocks)

include accepted

theorem control {index : Nat} (lower : 1 ≤ index) (upper : index ≤ arena.count)
    (none : (arena.instructions index).destination = 0) :
    lirControlShapeP context arena (arena.instructions index) = true := by
  have shape := accepted.shapes index lower upper
  rwa [if_pos none] at shape

theorem value {index : Nat} (lower : 1 ≤ index) (upper : index ≤ arena.count)
    (some : (arena.instructions index).destination ≠ 0) :
    lirValueShapeP context arena (arena.instructions index) = true := by
  have shape := accepted.shapes index lower upper
  rwa [if_neg some] at shape

/-- An instruction with a destination is no control operation. -/
theorem value_kind {index : Nat} (lower : 1 ≤ index) (upper : index ≤ arena.count)
    (some : (arena.instructions index).destination ≠ 0) :
    irOpOperandsP (arena.instructions index).toScalarOp arena.valueCount = true ∧
      irVerifyScalarType context arena.types (arena.instructions index).toScalarOp = true ∧
      (arena.instructions index).sourceType.Same context
        (arena.types (arena.instructions index).destination).sourceType := by
  have shape := accepted.value lower upper some
  simp only [lirValueShapeP, lirVerifyValueOp, Bool.and_eq_true] at shape
  obtain ⟨⟨⟨-, same⟩, -⟩, ⟨⟨⟨⟨-, operands⟩, -⟩, typed⟩, -⟩⟩ := shape
  exact ⟨operands, typed, same⟩

theorem targets_bounds {index label : Nat} (lower : 1 ≤ index) (upper : index ≤ arena.count)
    (target : label ∈ (arena.instructions index).targets) :
    1 ≤ label ∧ label ≤ arena.labelCount := by
  have none : (arena.instructions index).destination = 0 := by
    by_contra some
    obtain ⟨operands, -, -⟩ := accepted.value_kind lower upper some
    unfold LirInstruction.targets at target
    cases kind : (arena.instructions index).kind <;>
      simp_all [irOpOperandsP, Kind.irLeafKindP, Kind.irUnaryKindP, Kind.irBinaryKindP]
  have shape := accepted.control lower upper none
  unfold LirInstruction.targets at target
  split at target
  · rename_i kind
    simp only [lirControlShapeP, kind, Bool.and_eq_true, irReferenceP_eq_true] at shape
    rw [List.mem_singleton.mp target]
    exact shape.2.2
  · rename_i kind
    simp only [lirControlShapeP, kind, Bool.and_eq_true, irReferenceP_eq_true] at shape
    obtain ⟨-, ⟨⟨-, first⟩, second⟩, -⟩ := shape
    simp only [List.mem_cons, List.not_mem_nil, or_false] at target
    rcases target with rfl | rfl
    · exact first
    · exact second
  · exact (List.not_mem_nil target).elim

/-- The bounds of a block, and the instructions in it. -/
theorem range {label : Nat} (lower : 1 ≤ label) (upper : label ≤ arena.labelCount) :
    2 ≤ (blocks label).first ∧ (blocks label).first ≤ (blocks label).last ∧
      (blocks label).last ≤ arena.count ∧
      (arena.instructions (blocks label).last).kind.terminalKindP = true ∧
      ∀ index, (blocks label).first ≤ index → index < (blocks label).last →
        (arena.instructions index).kind.terminalKindP = false := by
  obtain ⟨opened, verified⟩ := accepted.ranges label lower upper
  simp only [verifyBlockRange, Bool.and_eq_true, irReferenceP_eq_true, Bool.not_eq_true',
    decide_eq_false_iff_not, List.all_eq_true, List.mem_range'_1] at verified
  obtain ⟨⟨⟨bounds, order⟩, inner⟩, terminal⟩ := verified
  refine ⟨(accepted.layout.firsts label opened).2.1, by omega, bounds.2, terminal, ?_⟩
  intro index first last
  exact inner index ⟨first, by omega⟩

theorem successor_bounds {block next : Nat} (lower : 1 ≤ block) (upper : block ≤ arena.labelCount)
    (edge : next ∈ arena.successors blocks block) : 1 ≤ next ∧ next ≤ arena.labelCount := by
  obtain ⟨first, order, last, -⟩ := accepted.range lower upper
  exact accepted.targets_bounds (by omega) last edge

/-- A label in range stands right before its block. -/
theorem labelIndex_eq {label : Nat} (lower : 1 ≤ label) (upper : label ≤ arena.labelCount) :
    arena.labelIndex label = some ((blocks label).first - 1) := by
  obtain ⟨opened, -⟩ := accepted.ranges label lower upper
  obtain ⟨-, least, most, kind, target⟩ := accepted.layout.firsts label opened
  have present : (arena.labelIndex label).isSome = true := by
    rw [labelIndex, List.find?_isSome]
    refine ⟨(blocks label).first - 1, List.mem_range'_1.mpr ⟨by omega, by omega⟩, ?_⟩
    simp only [kind, target, beq_self_eq_true, Bool.and_self]
  obtain ⟨index, found⟩ := Option.isSome_iff_exists.mp present
  have member := List.mem_range'_1.mp (List.mem_of_find?_eq_some found)
  have matching := List.find?_some found
  simp only [Bool.and_eq_true, beq_iff_eq] at matching
  have recorded := accepted.layout.labels index member.1 (by omega) matching.1
  rw [matching.2] at recorded
  rw [found, recorded, Nat.add_sub_cancel]

/-- The entry block starts at the second instruction. -/
theorem entry_first : (blocks 1).first = 2 := by
  have recorded := accepted.layout.labels 1 le_rfl accepted.nonempty accepted.entry.1
  rwa [accepted.entry.2] at recorded

theorem labelled : 1 ≤ arena.labelCount := by
  have none : (arena.instructions 1).destination = 0 := by
    by_contra some
    obtain ⟨operands, -, -⟩ := accepted.value_kind le_rfl accepted.nonempty some
    simp [irOpOperandsP, accepted.entry.1, Kind.irLeafKindP, Kind.irUnaryKindP,
      Kind.irBinaryKindP] at operands
  have shape := accepted.control le_rfl accepted.nonempty none
  simp only [lirControlShapeP, accepted.entry.1, accepted.entry.2, Bool.and_eq_true,
    irReferenceP_eq_true] at shape
  exact shape.2.2.2

/-! ## The search for undefined registers -/

/-- The search of the verifier is a depth-first search through the blocks that do not assign the
register. -/
theorem reachesWithoutDefinition_eq_search {target value : Nat} (present : value ≠ 0) :
    ∀ (depth current : Nat) (visited : Finset Nat), 1 ≤ current → current ≤ arena.labelCount →
    arena.reachesWithoutDefinition blocks target value depth current visited =
      search (arena.successors blocks)
        (fun block => !arena.blockDefinesP value (blocks block).first (blocks block).last)
        target depth current visited := by
  intro depth
  induction depth with
  | zero => exact fun _ _ _ _ => rfl
  | succ depth ih =>
      intro current visited lower upper
      unfold reachesWithoutDefinition search
      rw [if_neg (by omega : ¬current = 0)]
      by_cases found : current = target
      · rw [if_pos found, if_pos found]
      · rw [if_neg found, if_neg found]
        by_cases old : current ∈ visited
        · rw [if_pos old, if_pos (.inl old)]
        · rw [if_neg old]
          by_cases defines : arena.blockDefinesP value (blocks current).first
              (blocks current).last = true
          · rw [if_pos ⟨present, defines⟩, if_pos (.inr (by rw [defines]; rfl))]
          · rw [if_neg (fun both => defines both.2),
              if_neg (not_or.mpr ⟨old, by simpa using defines⟩)]
            obtain ⟨-, -, -, terminal, -⟩ := accepted.range lower upper
            have visit {next : Nat} (edge : next ∈ arena.successors blocks current)
                (visited : Finset Nat) := by
              obtain ⟨first, last⟩ := accepted.successor_bounds lower upper edge
              exact ih next visited first last
            unfold successors LirInstruction.targets at visit ⊢
            cases kind : (arena.instructions (blocks current).last).kind <;>
              simp only [kind, Kind.terminalKindP, Bool.false_eq_true] at terminal visit ⊢
            case ret => simp only [↓reduceIte, searchAll]
            case jump =>
                simp only [reduceCtorEq, ↓reduceIte, searchAll, visit List.mem_cons_self]
            case branch =>
                have second : (arena.instructions (blocks current).last).right ∈
                    [(arena.instructions (blocks current).last).target,
                      (arena.instructions (blocks current).last).right] :=
                  List.mem_cons_of_mem _ List.mem_cons_self
                simp only [reduceCtorEq, ↓reduceIte, searchAll, visit List.mem_cons_self,
                  visit second]
                split
                · rfl
                · split
                  · rename_i success
                    exact Prod.ext success rfl
                  · rename_i failure
                    exact Prod.ext (by simpa using failure) rfl

/-- A register that a verified use reads is assigned earlier in the block of the use, or in a
block that every trail to it has left. -/
theorem valueDefinedP_defined {value index block : Nat} {earlier : List Nat} (present : value ≠ 0)
    (positive : 1 ≤ index)
    (verified : arena.valueDefinedP blocks value index block = true)
    (trail : Trail (arena.successors blocks) 1 (block :: earlier)) :
    (∃ place, (blocks block).first ≤ place ∧ place < index ∧
      (arena.instructions place).destination = value) ∨
    ∃ other ∈ earlier, ∃ place, (blocks other).first ≤ place ∧ place ≤ (blocks other).last ∧
      (arena.instructions place).destination = value := by
  simp only [valueDefinedP, Bool.or_eq_true, Bool.not_eq_true'] at verified
  rcases verified with here | blocked
  · simp only [blockDefinesP, List.any_eq_true, List.mem_range'_1, beq_iff_eq] at here
    obtain ⟨place, bounds, assigns⟩ := here
    exact .inl ⟨place, bounds.1, by omega, assigns⟩
  · have closed : ∀ node ∈ Finset.Icc 1 arena.labelCount,
        (!arena.blockDefinesP value (blocks node).first (blocks node).last) = true →
        ∀ next ∈ arena.successors blocks node, next ∈ Finset.Icc 1 arena.labelCount := by
      intro node member _ next edge
      rw [Finset.mem_Icc] at member ⊢
      exact accepted.successor_bounds member.1 member.2 edge
    have start : 1 ∈ Finset.Icc 1 arena.labelCount := Finset.mem_Icc.mpr ⟨le_rfl, accepted.labelled⟩
    have noPath : ¬PathVia (arena.successors blocks)
        (fun node => !arena.blockDefinesP value (blocks node).first (blocks node).last) 1 block := by
      rw [← search_eq_true_iff closed start (by rw [Nat.card_Icc]; exact Nat.lt_succ_self _),
        ← accepted.reachesWithoutDefinition_eq_search present _ _ _ le_rfl accepted.labelled]
      rw [reachedWithoutDefinitionP] at blocked
      simp only [Nat.add_sub_cancel] at blocked ⊢
      rw [blocked]
      exact Bool.false_ne_true
    obtain ⟨other, member, defines⟩ := trail.exists_inadmissible noPath
    simp only [Bool.not_eq_false', blockDefinesP, List.any_eq_true, List.mem_range'_1,
      beq_iff_eq] at defines
    obtain ⟨place, bounds, assigns⟩ := defines
    exact .inr ⟨other, member, place, bounds.1, by omega, assigns⟩

omit accepted in
/-- The definition checks of the instructions of a block, once the checks have entered it. -/
theorem lirVerifyDefinitions_block {label : Nat} : ∀ (remaining index : Nat),
    lirVerifyDefinitions context arena blocks remaining index label = true →
    ∀ place, index ≤ place → place < index + remaining →
      (∀ other, index ≤ other → other ≤ place → (arena.instructions other).kind ≠ .label) →
      lirVerifyDefinedOperands context arena blocks (arena.instructions place) place label = true := by
  intro remaining
  induction remaining with
  | zero =>
      intro index _ place lower upper
      omega
  | succ remaining ih =>
      intro index verified place lower upper ordinary
      have here := ordinary index le_rfl lower
      simp only [lirVerifyDefinitions, here, ↓reduceIte, Bool.and_eq_true] at verified
      rcases Nat.lt_or_eq_of_le lower with later | rfl
      · exact ih (index + 1) verified.2 place later (by omega)
          (fun other first last => ordinary other (by omega) last)
      · exact verified.1

omit accepted in
/-- The definition checks reach every label, and go on in its block. -/
theorem lirVerifyDefinitions_label : ∀ (remaining index block : Nat),
    lirVerifyDefinitions context arena blocks remaining index block = true →
    ∀ place, index ≤ place → place < index + remaining → (arena.instructions place).kind = .label →
      lirVerifyDefinitions context arena blocks (index + remaining - (place + 1)) (place + 1)
        (arena.instructions place).target = true := by
  intro remaining
  induction remaining with
  | zero =>
      intro index block _ place lower upper
      omega
  | succ remaining ih =>
      intro index block verified place lower upper isLabel
      rcases Nat.lt_or_eq_of_le lower with later | rfl
      · have shift : index + (remaining + 1) - (place + 1) = index + 1 + remaining - (place + 1) := by
          omega
        rw [shift]
        by_cases here : (arena.instructions index).kind = .label
        · simp only [lirVerifyDefinitions, here, ↓reduceIte] at verified
          exact ih (index + 1) _ verified place later (by omega) isLabel
        · simp only [lirVerifyDefinitions, here, ↓reduceIte, Bool.and_eq_true] at verified
          exact ih (index + 1) _ verified.2 place later (by omega) isLabel
      · simp only [lirVerifyDefinitions, isLabel, ↓reduceIte] at verified
        rwa [show index + (remaining + 1) - (index + 1) = remaining by omega]

/-- Every instruction of a block has passed its definition check there. -/
theorem defined_operands {label index : Nat} (lower : 1 ≤ label) (upper : label ≤ arena.labelCount)
    (first : (blocks label).first ≤ index) (last : index ≤ (blocks label).last) :
    lirVerifyDefinedOperands context arena blocks (arena.instructions index) index label = true := by
  obtain ⟨opened, -⟩ := accepted.ranges label lower upper
  obtain ⟨-, least, most, kind, target⟩ := accepted.layout.firsts label opened
  obtain ⟨-, -, within, -⟩ := accepted.range lower upper
  have entered := lirVerifyDefinitions_label _ _ _ accepted.definitions ((blocks label).first - 1)
    (by omega) (by omega) kind
  rw [target, show (blocks label).first - 1 + 1 = (blocks label).first by omega] at entered
  refine lirVerifyDefinitions_block _ _ entered index first (by omega) ?_
  intro other lowest highest
  exact accepted.layout.inside label opened other lowest (by omega)

/-! ## Executions of accepted lists -/

/-- Executing an instruction leaves every register that held a value of its type so, and its
destination too. -/
theorem assign_carries {assigned : Nat → Option SourceType} {index register : Nat}
    (lower : 1 ≤ index) (upper : index ≤ arena.count)
    (holds : arena.Carries context assigned register ∨
      (register ≠ 0 ∧ (arena.instructions index).destination = register)) :
    arena.Carries context ((arena.instructions index).assign assigned) register := by
  unfold LirInstruction.assign
  split
  · rename_i none
    rcases holds with before | ⟨present, here⟩
    · exact before
    · exact (present (here ▸ none)).elim
  · rename_i some
    by_cases same : register = (arena.instructions index).destination
    · subst same
      exact ⟨_, Function.update_self _ _ _, (accepted.value_kind lower upper some).2.2⟩
    · rcases holds with ⟨type, known, matching⟩ | ⟨-, here⟩
      · exact ⟨type, by rw [Function.update_of_ne same, known], matching⟩
      · exact (same here.symm).elim

theorem invariant_start : arena.Invariant context blocks ⟨1, fun _ => none⟩ 1 [] := by
  have first := accepted.entry_first
  obtain ⟨-, order, -⟩ := accepted.range le_rfl accepted.labelled
  refine ⟨.start, ⟨le_rfl, accepted.labelled⟩, ⟨by simp only; omega, by simp only; omega⟩, ?_, ?_⟩
  · intro other member
    exact (List.not_mem_nil member).elim
  · intro index lower upper
    simp only at upper
    omega

/-- The instruction of a state is inside the list. -/
theorem inside {state : LirState} {block : Nat} {earlier : List Nat}
    (holds : arena.Invariant context blocks state block earlier) :
    1 ≤ state.pc ∧ state.pc ≤ arena.count := by
  obtain ⟨first, -, last, -⟩ := accepted.range holds.bounds.1 holds.bounds.2
  have place := holds.place
  omega

/-- Only the last instruction of a block transfers control. -/
theorem at_last {state : LirState} {block : Nat} {earlier : List Nat}
    (holds : arena.Invariant context blocks state block earlier)
    (terminal : (arena.instructions state.pc).kind.terminalKindP = true) :
    state.pc = (blocks block).last := by
  obtain ⟨least, order, -, -, inner⟩ := accepted.range holds.bounds.1 holds.bounds.2
  by_contra before
  have place := holds.place
  rcases Nat.lt_or_ge state.pc (blocks block).first with atLabel | within
  · obtain ⟨opened, -⟩ := accepted.ranges block holds.bounds.1 holds.bounds.2
    obtain ⟨-, -, -, kind, -⟩ := accepted.layout.firsts block opened
    rw [show (blocks block).first - 1 = state.pc by omega] at kind
    rw [kind] at terminal
    cases terminal
  · rw [inner state.pc within (by omega)] at terminal
    cases terminal

theorem invariant_step {state next : LirState} {block : Nat} {earlier : List Nat}
    (holds : arena.Invariant context blocks state block earlier) (step : arena.Step state next) :
    ∃ block earlier, arena.Invariant context blocks next block earlier := by
  obtain ⟨lower, upper⟩ := accepted.inside holds
  have place := holds.place
  have kept {register : Nat} (before : arena.Carries context state.assigned register) :=
    accepted.assign_carries lower upper (.inl before)
  have here (present : (arena.instructions state.pc).destination ≠ 0) :=
    @assign_carries _ _ _ accepted state.assigned _ _ lower upper (.inr ⟨present, rfl⟩)
  have executed : ∀ index, (blocks block).first ≤ index → index ≤ state.pc →
      (arena.instructions index).destination ≠ 0 →
      arena.Carries context ((arena.instructions state.pc).assign state.assigned)
        (arena.instructions index).destination := by
    intro index first last present
    rcases Nat.lt_or_eq_of_le last with before | rfl
    · exact kept (holds.executed index first before present)
    · exact here present
  cases step with
  | next _ _ falls =>
      have notLast : state.pc ≠ (blocks block).last := by
        intro same
        obtain ⟨-, -, -, terminal, -⟩ := accepted.range holds.bounds.1 holds.bounds.2
        rw [← same, falls] at terminal
        cases terminal
      refine ⟨block, earlier, holds.trail, holds.bounds, ⟨by simp only; omega, by simp only; omega⟩,
        ?_, ?_⟩
      · intro other member index first last present
        exact kept (holds.left other member index first last present)
      · intro index first last present
        exact executed index first (Nat.lt_succ_iff.mp last) present
  | @transfer label index _ _ transfers found =>
      have terminal : (arena.instructions state.pc).kind.terminalKindP = true := by
        unfold LirInstruction.targets at transfers
        split at transfers
        · rename_i kind
          rw [kind]
          rfl
        · rename_i kind
          rw [kind]
          rfl
        · exact (List.not_mem_nil transfers).elim
      have last := accepted.at_last holds terminal
      obtain ⟨least, most⟩ := accepted.targets_bounds lower upper transfers
      obtain ⟨first, order, -⟩ := accepted.range least most
      rw [accepted.labelIndex_eq least most] at found
      cases found
      have edge : label ∈ arena.successors blocks block := by
        unfold successors
        rwa [← last]
      refine ⟨label, block :: earlier, holds.trail.extend edge, ⟨least, most⟩,
        ⟨by simp only; omega, by simp only; omega⟩, ?_, ?_⟩
      · intro other member index first last present
        rcases List.mem_cons.mp member with rfl | before
        · exact executed index first (by omega) present
        · exact kept (holds.left other before index first last present)
      · intro index first last
        simp only at last
        omega

theorem invariant {state : LirState}
    (run : Relation.ReflTransGen arena.Step ⟨1, fun _ => none⟩ state) :
    ∃ block earlier, arena.Invariant context blocks state block earlier := by
  induction run with
  | refl => exact ⟨1, [], accepted.invariant_start⟩
  | tail _ step ih =>
      obtain ⟨block, earlier, holds⟩ := ih
      exact accepted.invariant_step holds step

/-- A register that passes the definition check of the current instruction holds a value. -/
theorem carries_of_defined {state : LirState} {block register : Nat} {earlier : List Nat}
    (holds : arena.Invariant context blocks state block earlier) (present : register ≠ 0)
    (verified : arena.valueDefinedP blocks register state.pc block = true) :
    arena.Carries context state.assigned register := by
  obtain ⟨lower, -⟩ := accepted.inside holds
  rcases accepted.valueDefinedP_defined present lower verified holds.trail with
    ⟨place, first, last, rfl⟩ | ⟨other, member, place, first, last, rfl⟩
  · exact holds.executed place first last present
  · exact holds.left other member place first last present

/-- The registers along a verified chain of argument links hold values. -/
theorem chain_carries {state : LirState} {block : Nat} {earlier : List Nat} {signature : Signature}
    (holds : arena.Invariant context blocks state block earlier) : ∀ (remaining chain : Nat),
    chain ≤ arena.valueCount →
    irVerifyArgumentChain context arena.types signature chain remaining = true →
    lirVerifyCallDefinitions arena blocks state.pc block chain remaining = true →
    ∀ argument ∈ chainArguments (fun link => (arena.types link).left)
      (fun link => (arena.types link).right) chain remaining,
      arena.Carries context state.assigned argument := by
  intro remaining
  induction remaining with
  | zero =>
      intro chain _ _ _ argument member
      exact (List.not_mem_nil member).elim
  | succ remaining ih =>
      intro chain upper typed defined argument member
      simp only [irVerifyArgumentChain, Bool.and_eq_true, bne_iff_ne, beq_iff_eq] at typed
      obtain ⟨⟨⟨present, link⟩, -⟩, rest⟩ := typed
      simp only [lirVerifyCallDefinitions, Bool.and_eq_true] at defined
      have entry := accepted.catalogue chain (by omega) upper
      simp only [lirCatalogEntryP, link, ↓reduceIte, Bool.and_eq_true, Bool.or_eq_true, beq_iff_eq,
        irReferenceP_eq_true] at entry
      obtain ⟨-, leftBounds, rightBounds⟩ := entry
      have next : (arena.types chain).right ≤ arena.valueCount := by
        rcases rightBounds with none | some
        · omega
        · omega
      rcases List.mem_cons.mp member with rfl | later
      · exact accepted.carries_of_defined holds (Nat.ne_of_gt leftBounds.1) defined.1
      · exact ih _ next rest defined.2 argument later

/-- Everything that the instruction of a state reads holds a value. -/
theorem reads_carry {state : LirState} {block : Nat} {earlier : List Nat}
    (holds : arena.Invariant context blocks state block earlier) :
    ∀ register ∈ arena.reads context (arena.instructions state.pc),
      arena.Carries context state.assigned register := by
  obtain ⟨lower, upper⟩ := accepted.inside holds
  have place := holds.place
  rcases Nat.lt_or_ge state.pc (blocks block).first with atLabel | within
  · obtain ⟨opened, -⟩ := accepted.ranges block holds.bounds.1 holds.bounds.2
    obtain ⟨-, -, -, kind, -⟩ := accepted.layout.firsts block opened
    rw [show (blocks block).first - 1 = state.pc by omega] at kind
    intro register member
    simp only [reads, kind] at member
    exact (List.not_mem_nil member).elim
  · have defined := accepted.defined_operands holds.bounds.1 holds.bounds.2 within place.2
    have carries {register : Nat} (present : 1 ≤ register)
        (checked : arena.valueDefinedP blocks register state.pc block = true) :=
      accepted.carries_of_defined holds (Nat.ne_of_gt present) checked
    unfold lirVerifyDefinedOperands at defined
    unfold reads
    by_cases none : (arena.instructions state.pc).destination = 0
    · have shape := accepted.control lower upper none
      unfold lirControlShapeP at shape
      cases kind : (arena.instructions state.pc).kind with
      | ret =>
          simp only [kind, Bool.and_eq_true, Bool.or_eq_true, beq_iff_eq] at shape defined ⊢
          intro register member
          split at member
          · exact (List.not_mem_nil member).elim
          · rename_i nonVoid
            rw [if_neg nonVoid, Bool.and_eq_true, irReferenceP_eq_true] at shape
            rw [List.mem_singleton.mp member]
            exact carries shape.2.2.1.1 (defined.resolve_left nonVoid)
      | branch =>
          simp only [kind, Bool.and_eq_true, irReferenceP_eq_true, Kind.irBinaryKindP] at shape defined ⊢
          intro register member
          simp only [Bool.false_eq_true, ↓reduceIte, List.mem_singleton] at member
          rw [member]
          exact carries shape.2.1.1.1.1 defined.1
      | rootsInit | rootsEnter | rootsSync | rootsLeave | label | jump =>
          exact fun _ member => (List.not_mem_nil member).elim
      | _ => simp only [kind, Bool.and_false, Bool.false_eq_true] at shape
    · obtain ⟨operands, typed, -⟩ := accepted.value_kind lower upper none
      by_cases isCall : (arena.instructions state.pc).kind = .call
      · simp only [isCall] at defined ⊢
        simp only [irVerifyScalarType, isCall, irVerifyCallType, irVerifyCallTypeChecked,
          Bool.and_eq_true] at typed
        simp only [irOpOperandsP, isCall, Kind.irLeafKindP, Kind.irUnaryKindP, Kind.irBinaryKindP,
          Bool.false_eq_true, ↓reduceIte, Bool.and_eq_true, Bool.or_eq_true, beq_iff_eq,
          irReferenceP_eq_true] at operands
        exact accepted.chain_carries holds _ _ (by omega) typed.2.2.1.2 defined
      · cases kind : (arena.instructions state.pc).kind with
        | add | sub | mul | equal | less | bitsAnd | shift | store | pointerAdd | phi =>
            have left := irOpOperandsP_left operands (by rw [kind]; rfl) isCall
            have right := irOpOperandsP_right operands (by rw [kind]; rfl)
            simp only [kind, Kind.irBinaryKindP, Bool.and_eq_true, Bool.not_true,
              Bool.false_or] at defined
            intro register member
            simp only [Kind.irBinaryKindP, ↓reduceIte, List.mem_cons, List.not_mem_nil,
              or_false] at member
            rcases member with rfl | rfl
            · exact carries left.1 defined.1
            · exact carries right.1 defined.2
        | integerCast | wordTruth | addressToPointer | pointerCast | fieldPointer | load
        | pointerAddress | forward | copy | argumentLink =>
            have left := irOpOperandsP_left operands (by rw [kind]; rfl) isCall
            simp only [kind, Bool.and_eq_true] at defined
            intro register member
            simp only [Kind.irBinaryKindP, Bool.false_eq_true, ↓reduceIte,
              List.mem_singleton] at member
            rw [member]
            exact carries left.1 defined.1
        | call => exact (isCall kind).elim
        | literal | parameter | booleanLiteral | voidValue | dataAddress | literalAddress
        | functionAddress => exact fun _ member => (List.not_mem_nil member).elim
        | _ => simp [irOpOperandsP, kind, Kind.irLeafKindP, Kind.irUnaryKindP,
            Kind.irBinaryKindP] at operands

omit accepted in
theorem declared_of_carries {assigned : Nat → Option SourceType} {register : Nat}
    (carries : arena.Carries context assigned register) :
    arena.declared assigned register = some (arena.types register).sourceType := by
  obtain ⟨type, known, -⟩ := carries
  rw [declared, known, Option.map_some]

/-- The instruction of a state is typed. -/
theorem operandsTyped {state : LirState} {block : Nat} {earlier : List Nat}
    (holds : arena.Invariant context blocks state block earlier) :
    OperandsTyped context (arena.declared state.assigned)
      (arena.callArguments context (arena.instructions state.pc).toScalarOp)
      (arena.instructions state.pc).toScalarOp := by
  obtain ⟨lower, upper⟩ := accepted.inside holds
  have declares {register : Nat}
      (read : register ∈ arena.reads context (arena.instructions state.pc)) :=
    declared_of_carries (accepted.reads_carry holds register read)
  by_cases none : (arena.instructions state.pc).destination = 0
  · -- A control operation reads no typed operand.
    have shape := accepted.control lower upper none
    unfold lirControlShapeP at shape
    unfold OperandsTyped
    cases kind : (arena.instructions state.pc).kind with
    | rootsInit | rootsEnter | rootsSync | rootsLeave | label | jump | branch | ret => trivial
    | _ => simp only [kind, Bool.and_false, Bool.false_eq_true] at shape
  · obtain ⟨operands, typed, -⟩ := accepted.value_kind lower upper none
    have control : (arena.instructions state.pc).kind.terminalKindP = false ∧
        (arena.instructions state.pc).kind.rootKindP = false ∧
        (arena.instructions state.pc).kind ≠ .label := by
      revert operands
      unfold irOpOperandsP
      cases (arena.instructions state.pc).kind <;>
        simp [Kind.terminalKindP, Kind.rootKindP, Kind.irLeafKindP, Kind.irUnaryKindP,
          Kind.irBinaryKindP]
    refine irVerifyScalarType_typed typed ?_ ?_ ?_
    · intro notCall notLeaf
      apply declares
      revert control notCall notLeaf
      unfold reads
      cases (arena.instructions state.pc).kind <;>
        simp [Kind.terminalKindP, Kind.rootKindP, Kind.irLeafKindP, Kind.irBinaryKindP]
    · intro binary
      apply declares
      revert binary
      unfold reads
      cases (arena.instructions state.pc).kind <;> simp [Kind.irBinaryKindP]
    · intro isCall argument member
      apply declares
      simp only [reads, isCall]
      exact member

theorem safe {state : LirState}
    (run : Relation.ReflTransGen arena.Step ⟨1, fun _ => none⟩ state) :
    arena.Safe context state := by
  obtain ⟨block, earlier, holds⟩ := accepted.invariant run
  obtain ⟨lower, upper⟩ := accepted.inside holds
  have declares {register : Nat}
      (read : register ∈ arena.reads context (arena.instructions state.pc)) :=
    declared_of_carries (accepted.reads_carry holds register read)
  have control (terminal : (arena.instructions state.pc).kind.terminalKindP = true) :
      lirControlShapeP context arena (arena.instructions state.pc) = true := by
    apply accepted.control lower upper
    by_contra some
    obtain ⟨operands, -, -⟩ := accepted.value_kind lower upper some
    revert terminal operands
    unfold irOpOperandsP
    cases (arena.instructions state.pc).kind <;>
      simp [Kind.terminalKindP, Kind.irLeafKindP, Kind.irUnaryKindP, Kind.irBinaryKindP]
  have found {label : Nat} (target : label ∈ (arena.instructions state.pc).targets) :
      arena.labelIndex label = some ((blocks label).first - 1) := by
    obtain ⟨least, most⟩ := accepted.targets_bounds lower upper target
    exact accepted.labelIndex_eq least most
  refine ⟨⟨lower, upper⟩, accepted.reads_carry holds, accepted.operandsTyped holds, ?_, ?_, ?_, ?_⟩
  · intro isBranch
    have shape := control (by rw [isBranch]; rfl)
    simp only [lirControlShapeP, isBranch, Bool.and_eq_true] at shape
    exact ⟨_, declares (by simp [reads, isBranch, Kind.irBinaryKindP]), shape.2.2⟩
  · intro isReturn
    have shape := control (by rw [isReturn]; rfl)
    simp only [lirControlShapeP, isReturn, Bool.and_eq_true, lirReturnTypeP] at shape
    obtain ⟨-, -, shape⟩ := shape
    by_cases void : (arena.instructions state.pc).scalarCode = 12
    · simp only [void, ↓reduceIte, Bool.and_eq_true] at shape
      refine ⟨?_, fun nonVoid => (nonVoid void).elim⟩
      unfold SourceType.Same ScalarOp.sourceType
      rw [void]
      exact shape.2.1
    · simp only [void, ↓reduceIte, Bool.and_eq_true] at shape
      exact ⟨shape.2.1, fun _ => ⟨_, declares (by simp [reads, isReturn, void]), shape.2.2⟩⟩
  · intro label target
    rw [found target]
    rfl
  · by_cases terminal : (arena.instructions state.pc).kind.terminalKindP = true
    · cases kind : (arena.instructions state.pc).kind with
      | ret => exact .inl rfl
      | jump | branch =>
          have target : (arena.instructions state.pc).target ∈
              (arena.instructions state.pc).targets := by
            simp [LirInstruction.targets, kind]
          exact .inr ⟨_, Step.transfer lower upper target (found target)⟩
      | _ =>
          rw [kind] at terminal
          cases terminal
    · exact .inr ⟨_, Step.next lower upper (by simpa using terminal)⟩

end LirArena.Accepted

/-- Every execution of an accepted instruction list reads only registers that it has assigned,
with the types their uses require, jumps only to existing labels, and stays inside the list until
it returns. -/
theorem lirVerifyFunction_safe {context : CompileContext} {arena : LirArena}
    (verified : lirVerifyFunction context arena = true) : arena.ExecutionSafe context := by
  obtain ⟨blocks, accepted⟩ := lirVerifyFunction_accepted verified
  exact fun _ run => accepted.safe run

/-- An arena of some instructions over a catalogue, with as many labels as given. -/
def LirArena.ofLists (instructions : List LirInstruction) (types : List IrType) (labels : Nat) :
    LirArena where
  instructions index := instructions.getD (index - 1) {}
  count := instructions.length
  capacity := instructions.length
  types reference := types.getD (reference - 1) {}
  valueCount := types.length
  valueCapacity := types.length
  blocks _ := {}
  labelCount := labels
  labelCapacity := labels

/-- A loop that is left over an edge of its own, with a copy on the edge. -/
def copyLoop : LirArena :=
  .ofLists
    [{ kind := .label, target := 1 },
      { kind := .literal, scalarCode := 1, value := 5, source := 1, destination := 1 },
      { kind := .booleanLiteral, value := 1, source := 1, destination := 2 },
      { kind := .branch, left := 2, target := 2, right := 3 },
      { kind := .label, target := 2 },
      { kind := .jump, target := 1 },
      { kind := .label, target := 3 },
      { kind := .copy, scalarCode := 1, left := 1, source := 1, destination := 3 },
      { kind := .ret, scalarCode := 1, left := 3 }]
    [{ kind := .literal, scalarCode := 1 }, { kind := .booleanLiteral },
      { kind := .phi, scalarCode := 1 }] 3

theorem copyLoop_safe : lirVerifyFunction plainContext copyLoop = true ∧
    copyLoop.ExecutionSafe plainContext :=
  ⟨by rfl, lirVerifyFunction_safe (by rfl)⟩

end Native
