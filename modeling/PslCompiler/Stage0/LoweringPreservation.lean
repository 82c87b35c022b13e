import PslCompiler.Flow.Linearize
import PslCompiler.Stage0.FunctionLowering

/-! # Lowering preserves meaning

A function that consists of finished blocks is linearized, its flat code is laid out block after
block, and every edge copies at most one phi. So the code of a verified function behaves like the
evaluation of the function.
-/

namespace Stage0

open Flow LoweringState

section Linearization

variable {ssa : SsaFunction} {final : LoweringState} (consists : ssa.Consists final)

/-! ## Edges -/

/-- The copies of an edge, as pairs of registers. -/
def edgePairs (final : LoweringState) (source target : Nat) : List (Nat × Nat) :=
  (final.blocks target).phis.filterMap fun phi =>
    (phi.2.lookup source).map fun value => (phi.1, value)

/-- The flat code of an edge. -/
def edgeFlat (final : LoweringState) (source target : Nat) : List (Flat Operation) :=
  ((edgePairs final source target).map fun pair => Flat.copy pair.1 pair.2) ++ [.jump target]

/-- A block without phis after its first instruction starts with its only phi, if any. -/
theorem phis_cases {block : SsaBlock}
    (ordinary : ∀ instruction ∈ block.instructions.tail, instruction.isPhi = false) :
    block.phis = [] ∧ (∀ instruction ∈ block.instructions, instruction.isPhi = false) ∨
      ∃ instruction rest incoming, block.instructions = instruction :: rest ∧
        instruction.op = .phi incoming ∧ block.phis = [(instruction.id, incoming)] ∧
        ∀ other ∈ rest, other.isPhi = false := by
  unfold SsaBlock.phis
  rcases instructions : block.instructions with _ | ⟨first, rest⟩
  · exact .inl ⟨rfl, fun _ member => (List.not_mem_nil member).elim⟩
  · rw [instructions, List.tail_cons] at ordinary
    have none : rest.filter SsaInstruction.isPhi = [] := by
      rw [List.filter_eq_nil_iff]
      intro instruction member isPhi
      rw [ordinary instruction member] at isPhi
      cases isPhi
    rw [List.filter_cons, none]
    cases op : first.op with
    | phi incoming =>
        refine .inr ⟨first, rest, incoming, rfl, op, ?_, ordinary⟩
        simp [SsaInstruction.isPhi, SsaInstruction.incoming, op]
    | _ =>
        have here : first.isPhi = false := by simp [SsaInstruction.isPhi, op]
        refine .inl ⟨by simp [here], ?_⟩
        intro instruction member
        rcases List.mem_cons.mp member with rfl | later
        · exact here
        · exact ordinary instruction later

theorem phiCopies_of_ordinary (predecessor : Nat) {instructions : List SsaInstruction}
    (ordinary : ∀ instruction ∈ instructions, instruction.isPhi = false) :
    phiCopies predecessor instructions = .ok [] := by
  cases instructions with
  | nil => rfl
  | cons instruction rest =>
      have here := ordinary instruction List.mem_cons_self
      unfold phiCopies
      split
      · rename_i incoming op
        simp [SsaInstruction.isPhi, op] at here
      · rfl

include consists in
/-- The copies of an edge of a finished function. -/
theorem edgeToLir_flat {source target : Nat} (inside : source < final.nextBlock)
    (edge : target ∈ (final.blocks source).successors) :
    ∃ code, edgeToLir ssa source target = .ok code ∧
      code.map LirInstruction.denote = edgeFlat final source target := by
  obtain ⟨bounded, inputs⟩ := consists.finished.edges source inside target edge
  have found := consists.findBlock bounded
  unfold edgeToLir edgeCopies edgeFlat edgePairs
  simp only [found]
  rcases phis_cases (consists.finished.phis target bounded) with
    ⟨none, ordinary⟩ | ⟨instruction, rest, incoming, split, op, phis, ordinary⟩
  · rw [phiCopies_of_ordinary source ordinary, none]
    exact ⟨_, rfl, rfl⟩
  · have isPhi : instruction.isPhi = true := by simp [SsaInstruction.isPhi, op]
    obtain ⟨value, looked⟩ := inputs instruction (by rw [split]; exact List.mem_cons_self) isPhi
    simp only [SsaInstruction.incoming, op] at looked
    rw [split, phis]
    simp only [phiCopies, op, looked, phiCopies_of_ordinary source ordinary]
    refine ⟨_, rfl, ?_⟩
    simp only [List.filterMap_cons, looked]
    rfl

/-! ## Blocks -/

/-- The flat code of the terminator of a block, which may take a fresh label. -/
def exitFlat (final : LoweringState) (block fresh : Nat) : List (Flat Operation) :=
  match (final.blocks block).exit with
  | .ret value => [.ret value]
  | .jump target => edgeFlat final block target
  | .branch condition ifTrue ifFalse =>
      .branchZero condition fresh :: edgeFlat final block ifTrue ++
        .label fresh :: edgeFlat final block ifFalse
  | .none => []

def labelsTaken (final : LoweringState) (block : Nat) : Nat :=
  match (final.blocks block).exit with
  | .branch _ _ _ => 1
  | _ => 0

/-- The flat code of a block. -/
def blockFlat (final : LoweringState) (block fresh : Nat) : List (Flat Operation) :=
  .label block :: ((final.blocks block).body.map Flat.assign ++ exitFlat final block fresh)

include consists in
theorem terminatorToLir_flat {block : Nat} (inside : block < final.nextBlock) (fresh : Nat) :
    ∃ code, terminatorToLir ssa (final.blocks block) fresh =
        .ok (code, fresh + labelsTaken final block) ∧
      code.map LirInstruction.denote = exitFlat final block fresh := by
  obtain ⟨terminator, found, shaped⟩ := consists.finished.shaped block inside
  have id := consists.finished.ids block inside
  have edges (target : Nat) (member : target ∈ terminator.targets) :
      ∃ code, edgeToLir ssa block target = .ok code ∧
        code.map LirInstruction.denote = edgeFlat final block target := by
    refine edgeToLir_flat consists inside ?_
    rw [SsaBlock.successors, found]
    exact member
  unfold terminatorToLir exitFlat labelsTaken SsaBlock.exit
  rw [id]
  rcases shaped with ⟨result, rfl⟩ | ⟨target, rfl⟩ | ⟨condition, ifTrue, ifFalse, rfl⟩
  · simp only [found]
    exact ⟨_, rfl, rfl⟩
  · obtain ⟨code, built, flat⟩ := edges target List.mem_cons_self
    simp only [found, built]
    exact ⟨code, rfl, flat⟩
  · obtain ⟨first, built, flat⟩ := edges ifTrue List.mem_cons_self
    obtain ⟨second, built', flat'⟩ := edges ifFalse (by simp)
    simp only [found, built, built']
    refine ⟨_, rfl, ?_⟩
    rw [List.map_append, List.map_cons, List.map_cons, flat, flat']
    rfl

theorem instructionToLir_denote {instruction : SsaInstruction} (ordinary : instruction.isPhi = false) :
    (instructionToLir instruction).denote = .assign instruction.assignment := by
  unfold instructionToLir SsaInstruction.assignment
  cases op : instruction.op with
  | phi incoming => simp [SsaInstruction.isPhi, op] at ordinary
  | _ => rfl

theorem values_denote (instructions : List SsaInstruction) :
    ((instructions.filter fun instruction => !instruction.isPhi).map instructionToLir).map
        LirInstruction.denote =
      ((instructions.filter fun instruction => !instruction.isPhi).map
        SsaInstruction.assignment).map Flat.assign := by
  rw [List.map_map, List.map_map]
  refine List.map_congr_left fun instruction member => ?_
  exact instructionToLir_denote (by simpa using (List.mem_filter.mp member).2)

include consists in
/-- The blocks are laid out one after another. -/
theorem linearizeBlocks_flat : ∀ (blocks : List Nat) (fresh : Nat),
    (∀ block ∈ blocks, block < final.nextBlock) →
    ∃ code, linearizeBlocks ssa (blocks.map final.blocks) fresh = .ok code ∧
      code.map LirInstruction.denote =
        Flat.layout (blockFlat final) (labelsTaken final) blocks fresh := by
  intro blocks
  induction blocks with
  | nil => exact fun _ _ => ⟨[], rfl, rfl⟩
  | cons block rest ih =>
      intro fresh inside
      have here := inside block List.mem_cons_self
      obtain ⟨terminator, ends, flat⟩ := terminatorToLir_flat consists here fresh
      obtain ⟨code, built, laid⟩ := ih (fresh + labelsTaken final block)
        fun other member => inside other (List.mem_cons_of_mem _ member)
      rw [List.map_cons, linearizeBlocks]
      refine ⟨_, bind_eq_ok.mpr ⟨_, ends, bind_eq_ok.mpr ⟨code, built, rfl⟩⟩, ?_⟩
      rw [Flat.layout, ← laid, blockFlat, consists.finished.ids block here, ← flat]
      simp only [List.map_append, List.map_cons, values_denote, List.append_assoc, List.cons_append]
      rfl

/-! ## The flat program -/

theorem labels_edgeFlat (source target : Nat) : Flat.labels (edgeFlat final source target) = [] := by
  rw [edgeFlat, Flat.labels_append, Flat.labels_copies]
  rfl

theorem labels_blockFlat (block fresh : Nat) : Flat.labels (blockFlat final block fresh) =
    block :: List.range' fresh (labelsTaken final block) := by
  rw [blockFlat, Flat.labels_label, Flat.labels_append, Flat.labels_assignments, List.nil_append]
  unfold exitFlat labelsTaken
  cases (final.blocks block).exit with
  | ret value => rfl
  | jump target =>
      simp only [labels_edgeFlat]
      rfl
  | branch condition ifTrue ifFalse =>
      change block :: Flat.labels (edgeFlat final block ifTrue ++
        .label fresh :: edgeFlat final block ifFalse) = _
      rw [Flat.labels_append, Flat.labels_label, labels_edgeFlat, labels_edgeFlat]
      rfl
  | none => rfl

include consists in
/-- The code of an edge implements its phis. -/
theorem edgeFlat_implements {source target pc : Nat} {code rest : List (Flat Operation)}
    (inside : source < final.nextBlock) (edge : target ∈ (final.blocks source).successors)
    (stands : Flat.Segment code pc (edgeFlat final source target ++ rest)) :
    EdgeCode (fun _ => true) ssa.program code (fun block => block < final.nextBlock) pc source target
      (edgePairs final source target) := by
  obtain ⟨bounded, inputs⟩ := consists.finished.edges source inside target edge
  have same := consists.implements.phis target bounded
  unfold edgeFlat at stands
  rw [List.append_assoc] at stands
  rcases phis_cases (consists.finished.phis target bounded) with
    ⟨none, -⟩ | ⟨instruction, others, incoming, split, op, phis, -⟩
  · have copies : edgePairs final source target = [] := by
      rw [edgePairs, none]
      rfl
    rw [copies] at stands ⊢
    rw [none] at same
    refine ⟨⟨rest, stands⟩, List.Pairwise.nil, ?_, fun _ _ _ => rfl, bounded⟩
    intro register _ incoming looked
    rw [same] at looked
    cases looked
  · have isPhi : instruction.isPhi = true := by simp [SsaInstruction.isPhi, op]
    obtain ⟨value, given⟩ := inputs instruction (by rw [split]; exact List.mem_cons_self) isPhi
    simp only [SsaInstruction.incoming, op] at given
    have copies : edgePairs final source target = [(instruction.id, value)] := by
      simp only [edgePairs, phis, List.filterMap_cons, given, Option.map_some, List.filterMap_nil]
    rw [copies] at stands ⊢
    rw [phis] at same
    refine ⟨⟨rest, stands⟩, List.pairwise_singleton _ _, ?_, ?_, bounded⟩
    · intro register _ incoming' looked
      rw [same, List.lookup_cons] at looked
      rw [List.lookup_cons]
      split at looked
      · cases looked
        exact ⟨value, given, rfl, rfl⟩
      · cases looked
    · intro register _ absent
      rw [same, List.lookup_cons] at absent
      rw [List.lookup_cons]
      split at absent
      · cases absent
      · rfl

include consists in
/-- The code of a terminator implements the exit of its block. -/
theorem exitFlat_implements {code : List (Flat Operation)} {pc block fresh : Nat}
    (distinct : (Flat.labels code).Nodup) (inside : block < final.nextBlock)
    (stands : Flat.Segment code pc (exitFlat final block fresh)) :
    ExitCode (fun _ => true) ssa.program code (fun block => block < final.nextBlock) pc block
      (ssa.program.exit block) := by
  rw [consists.implements.exit block inside]
  obtain ⟨terminator, found, shaped⟩ := consists.finished.shaped block inside
  have edges (target : Nat) (member : target ∈ terminator.targets) :
      target ∈ (final.blocks block).successors := by
    rw [SsaBlock.successors, found]
    exact member
  unfold exitFlat at stands
  generalize exit : (final.blocks block).exit = way at stands ⊢
  rw [SsaBlock.exit, found] at exit
  rcases shaped with ⟨result, rfl⟩ | ⟨target, rfl⟩ | ⟨condition, ifTrue, ifFalse, rfl⟩
  · cases exit
    exact .ret stands fun _ _ => rfl
  · cases exit
    change Flat.Segment code pc (edgeFlat final block target) at stands
    rw [← List.append_nil (edgeFlat final block target)] at stands
    exact .jump (edgeFlat_implements consists inside (edges target List.mem_cons_self) stands)
  · cases exit
    have first := stands.tail
    have second : Flat.Segment code _ (_ :: _) := first.drop
    have last := second.tail
    rw [← List.append_nil (edgeFlat final block ifFalse)] at last
    refine .branchZero stands rfl
      (edgeFlat_implements consists inside (edges ifTrue List.mem_cons_self) first)
      ⟨_, _, _, second.position distinct, second,
        edgeFlat_implements consists inside (edges ifFalse (by simp)) last⟩

include consists in
/-- The code laid out from some fresh label implements the program of the function. -/
theorem linearized {fresh : Nat} (above : final.nextBlock ≤ fresh) :
    Linearized (fun _ => true) ssa.program
      (Flat.layout (blockFlat final) (labelsTaken final) (List.range final.nextBlock) fresh)
      (fun block => block < final.nextBlock) := by
  have implements := consists.implements
  obtain ⟨distinct, -⟩ := @Flat.layout_labels _ (blockFlat final) (labelsTaken final)
    (List.range final.nextBlock) fresh (fun block _ => labels_blockFlat block) List.nodup_range
    (fun block member => Nat.lt_of_lt_of_le (List.mem_range.mp member) above)
  have live (block : Nat) : ssa.program.liveBody (fun _ => true) block = ssa.program.body block :=
    List.filter_true _
  have entry : ssa.program.entry = 0 := consists.entry
  refine ⟨?_, ?_, fun _ _ _ _ => ⟨fun _ => rfl, fun _ _ _ => rfl⟩, ?_⟩
  · rw [entry]
    exact consists.nonempty
  · obtain ⟨count, same⟩ := Nat.exists_eq_add_of_le' consists.nonempty
    have first : Flat.Segment (Flat.layout (blockFlat final) (labelsTaken final)
        (List.range final.nextBlock) fresh) 0 (blockFlat final 0 fresh) := by
      rw [same, List.range_eq_range', List.range'_succ]
      exact List.prefix_append _ _
    rw [entry]
    exact first.position distinct
  · intro block inside
    obtain ⟨pc, label, -, stands⟩ := @Flat.layout_segment _ (blockFlat final) (labelsTaken final) _
      fresh block (List.mem_range.mpr inside)
    rw [live, implements.body block inside]
    refine ⟨pc, _, stands.position distinct, stands, ?_⟩
    have exits := stands.tail.drop
    rw [List.length_map] at exits
    exact exitFlat_implements consists distinct inside exits

theorem foldl_max_above : ∀ (ids : List Nat) (start : Nat),
    start ≤ ids.foldl max start ∧ ∀ id ∈ ids, id ≤ ids.foldl max start := by
  intro ids
  induction ids with
  | nil => exact fun start => ⟨le_rfl, fun _ member => (List.not_mem_nil member).elim⟩
  | cons first rest ih =>
      intro start
      obtain ⟨above, others⟩ := ih (max start first)
      refine ⟨(Nat.le_max_left _ _).trans above, ?_⟩
      intro id member
      rcases List.mem_cons.mp member with rfl | later
      · exact (Nat.le_max_right _ _).trans above
      · exact others id later

include consists in
/-- A function of finished blocks is linearized to code that behaves like its program. -/
theorem linearizeFunction_preserves : ∃ lir, linearizeFunction ssa = .ok lir ∧
    ∀ {Value World : Type} (meaning : Interpretation Operation Value World) (world : World),
      SameBehaviour ((ssa.program.machine meaning).run (ssa.program.start world))
        ((Flat.machine meaning lir.flat).run (Flat.start world)) := by
  have above : final.nextBlock ≤ 1 + (ssa.blocks.map SsaBlock.id).foldl max 0 := by
    obtain ⟨count, same⟩ := Nat.exists_eq_add_of_le' consists.nonempty
    have member : count ∈ ssa.blocks.map SsaBlock.id := by
      rw [consists.blocks, List.map_map, List.mem_map]
      exact ⟨count, List.mem_range.mpr (by omega), consists.finished.ids count (by omega)⟩
    have := (foldl_max_above (ssa.blocks.map SsaBlock.id) 0).2 count member
    omega
  obtain ⟨code, built, flat⟩ := linearizeBlocks_flat consists (List.range final.nextBlock)
    (1 + (ssa.blocks.map SsaBlock.id).foldl max 0) fun block member => List.mem_range.mp member
  rw [← consists.blocks] at built
  refine ⟨_, bind_eq_ok.mpr ⟨code, built, rfl⟩, ?_⟩
  intro Value World meaning world
  have implements := linearized consists above
  rw [← flat] at implements
  exact implements.sameBehaviour meaning world

end Linearization

/-! ## From trees to flat code -/

/-- Verified functions are lowered and linearized, and the code behaves like the function. -/
theorem lowering_preserves {function : FunctionDef} {signatures : Signatures} {pointerBits : Nat}
    (verified : verifyHirFunction function signatures pointerBits = .ok ()) :
    ∃ ssa lir, lowerFunction function = .ok ssa ∧ linearizeFunction ssa = .ok lir ∧
      ∀ {Value World : Type} (meaning : Interpretation Operation Value World) (world : World),
        SameBehaviour (function.run meaning world)
          ((Flat.machine meaning lir.flat).run (Flat.start world)) := by
  obtain ⟨ssa, lowered⟩ := lowerFunction_total verified
  obtain ⟨result, after, -, consists⟩ := lowerFunction_consists lowered
  obtain ⟨lir, built, same⟩ := linearizeFunction_preserves consists
  refine ⟨ssa, lir, lowered, built, ?_⟩
  intro Value World meaning world
  exact (lowerFunction_sameBehaviour meaning lowered world).trans (same meaning world)

/-- A conditional around a LET whose body loops on a call. -/
def drain : FunctionDef where
  signature := { name := "drain", arguments := [.u64], result := .u64 }
  parameters := [("limit", .u64)]
  body :=
    .node .ifForm .u64 []
      [.node (.binary .less .u64) .boolean []
          [.node (.variable "limit") .u64 [] [], .node (.literal (.integer 10)) .u64 [] []],
        .node .letForm .u64
          [("start", .node (.variable "limit") .u64 [] []),
            ("limit", .node (.literal (.integer 1)) .u64 [] [])]
          [.node .progn .u64 []
            [.node .whileForm .boolean []
                [.node (.call "poll") .boolean [] [.node (.variable "start") .u64 [] []],
                  .node (.variable "limit") .u64 [] []],
              .node (.binary .wrapAdd .u64) .u64 []
                [.node (.variable "start") .u64 [] [], .node (.variable "limit") .u64 [] []]]],
        .node (.variable "limit") .u64 [] []]

def drainSignatures : Signatures := fun name =>
  if name == "poll" then some { name := "poll", arguments := [.u64], result := .boolean } else none

theorem drain_preserved : verifyHirFunction drain drainSignatures 64 = .ok () ∧
    ∃ ssa lir, lowerFunction drain = .ok ssa ∧ linearizeFunction ssa = .ok lir ∧
      ∀ {Value World : Type} (meaning : Interpretation Operation Value World) (world : World),
        SameBehaviour (drain.run meaning world)
          ((Flat.machine meaning lir.flat).run (Flat.start world)) :=
  ⟨by rfl, @lowering_preserves drain drainSignatures 64 (by rfl)⟩

end Stage0
