import PslCompiler.Native.LirLowering

/-! # The lowered code behaves like the SSA program

The emitted list implements the program that the arena denotes, provided that no live phi has a phi
of its own block as an input: on the edge from which that input comes, the earlier copy would
overwrite the register before the later one reads it.
-/

namespace Native

open Flow SsaArena

/-! ## Liveness -/

namespace SsaArena

def live (arena : SsaArena) (reference : Nat) : Bool := (arena.values reference).live == 1

/-- A live phi has a phi of its own block as an input. -/
def PhiOverlap (arena : SsaArena) : Prop :=
  ∃ block, 1 ≤ block ∧ block ≤ arena.blockCount ∧
    ∃ phi ∈ arena.blockValues block, ∃ input ∈ arena.blockValues block,
      arena.phiP phi = true ∧ arena.phiP input = true ∧ arena.live phi = true ∧
        (input = (arena.values phi).left ∨ input = (arena.values phi).right)

instance (arena : SsaArena) : Decidable arena.PhiOverlap :=
  decidable_of_iff (∃ block ∈ List.range' 1 arena.blockCount,
    ∃ phi ∈ arena.blockValues block, ∃ input ∈ arena.blockValues block,
      arena.phiP phi = true ∧ arena.phiP input = true ∧ arena.live phi = true ∧
        (input = (arena.values phi).left ∨ input = (arena.values phi).right)) <| by
    refine exists_congr fun block => ?_
    rw [List.mem_range'_1, Nat.lt_one_add_iff, and_assoc]

/-- What the liveness check establishes. -/
structure LivenessChecked (arena : SsaArena) : Prop where
  marked : ∀ reference, 1 ≤ reference → reference ≤ arena.valueCount →
    (arena.values reference).live = 0 ∨ arena.live reference = true
  effects : ∀ reference, 1 ≤ reference → reference ≤ arena.valueCount →
    (arena.values reference).kind.ssaEffectRootP = true → arena.live reference = true
  operands : ∀ reference, 1 ≤ reference → reference ≤ arena.valueCount →
    arena.live reference = true → ∀ operand,
    operand = (arena.values reference).left ∨ operand = (arena.values reference).right →
    operand ≠ 0 → arena.live operand = true
  terminals : ∀ block, 1 ≤ block → block ≤ arena.blockCount → ∀ operand,
    operand = (arena.blocks block).condition ∨ operand = (arena.blocks block).result →
    operand ≠ 0 → arena.live operand = true

end SsaArena

section Liveness

variable {context : CompileContext} {arena : SsaArena}

theorem referenceLiveP_live {operand : Nat} (checked : arena.referenceLiveP operand = true)
    (present : operand ≠ 0) : arena.live operand = true := by
  simpa [referenceLiveP, present, live] using checked

theorem ssaVerifyLiveness_checked (verified : ssaVerifyLiveness context arena = true) :
    Accepted context arena ∧ LivenessChecked arena := by
  simp only [ssaVerifyLiveness, Bool.and_eq_true, checkUpTo_eq_true] at verified
  obtain ⟨⟨accepted, values⟩, terminals⟩ := verified
  refine ⟨ssaVerifyFunction_accepted accepted, ?_, ?_, ?_, ?_⟩
  · intro reference lower upper
    have checked := values reference lower upper
    by_cases dead : (arena.values reference).live = 0
    · exact .inl dead
    · simp only [verifyLiveValue, dead, ↓reduceIte, Bool.and_eq_true] at checked
      exact .inr checked.1.1
  · intro reference lower upper effect
    have checked := values reference lower upper
    by_cases dead : (arena.values reference).live = 0
    · simp [verifyLiveValue, dead, effect] at checked
    · simp only [verifyLiveValue, dead, ↓reduceIte, Bool.and_eq_true] at checked
      exact checked.1.1
  · intro reference lower upper isLive operand read present
    have checked := values reference lower upper
    have alive : (arena.values reference).live = 1 := by simpa [live] using isLive
    simp only [verifyLiveValue, alive, Nat.one_ne_zero, ↓reduceIte, Bool.and_eq_true] at checked
    rcases read with rfl | rfl
    · exact referenceLiveP_live checked.1.2 present
    · exact referenceLiveP_live checked.2 present
  · intro block lower upper operand read present
    have checked := terminals block lower upper
    simp only [verifyLiveTerminal, Bool.and_eq_true] at checked
    rcases read with rfl | rfl
    · exact referenceLiveP_live checked.1 present
    · exact referenceLiveP_live checked.2 present

end Liveness

section Preservation

variable {context : CompileContext} {arena : SsaArena}
variable (accepted : Accepted context arena) (checked : LivenessChecked arena)

include accepted checked

/-- The arguments along the chain of a live link are live. -/
theorem chain_live {signature : Signature} : ∀ (remaining chain : Nat),
    irVerifyArgumentChain context arena.types signature chain remaining = true →
    (chain ≠ 0 → 1 ≤ chain ∧ chain ≤ arena.valueCount ∧ arena.live chain = true) →
    ∀ argument ∈ chainArguments (fun link => (arena.values link).left)
      (fun link => (arena.values link).right) chain remaining, arena.live argument = true := by
  intro remaining
  induction remaining with
  | zero => exact fun _ _ _ _ member => (List.not_mem_nil member).elim
  | succ remaining ih =>
      intro chain verified alive argument member
      simp only [irVerifyArgumentChain, Bool.and_eq_true, bne_iff_ne, beq_iff_eq] at verified
      obtain ⟨⟨⟨present, link⟩, -⟩, rest⟩ := verified
      obtain ⟨lower, upper, here⟩ := alive present
      obtain ⟨kind, -, ends⟩ := accepted.catalogue lower upper
      have isLink : (arena.values chain).kind = .argumentLink := kind.symm.trans link
      have ordinary : (arena.values chain).kind ≠ .phi := by rw [isLink]; exact Kind.noConfusion
      have shape := (accepted.checks lower upper).operands
      simp only [irOpOperandsP, isLink, Kind.irLeafKindP, Kind.irUnaryKindP, Kind.irBinaryKindP,
        Bool.false_eq_true, ↓reduceIte, Bool.and_eq_true, irReferenceP_eq_true] at shape
      rcases List.mem_cons.mp member with rfl | later
      · exact checked.operands chain lower upper here _ (.inl rfl) (Nat.ne_of_gt shape.1.1)
      · rw [(ends isLink).2] at rest
        refine ih _ rest ?_ argument later
        intro nonzero
        have usable := accepted.operand_usable lower upper ordinary nonzero (.inr rfl)
        have smaller := usable.2.1
        exact ⟨usable.1, by omega, checked.operands chain lower upper here _ (.inr rfl) nonzero⟩

theorem assignment_closed {reference : Nat} (lower : 1 ≤ reference)
    (upper : reference ≤ arena.valueCount) : (arena.assignment context reference).Closed arena.live := by
  constructor
  · intro effect
    refine checked.effects reference lower upper ?_
    change ((arena.values reference).toScalarOp.producer arena.types).isEffect = true at effect
    unfold ScalarOp.producer at effect
    split at effect
    · cases effect
    · split at effect
      · assumption
      · cases effect
  · intro alive argument member
    change argument ∈ (arena.values reference).toScalarOp.arguments _ at member
    unfold ScalarOp.arguments at member
    split at member
    · rename_i isCall
      have typed := (accepted.checks lower upper).typed
      simp only [irVerifyScalarType, isCall, irVerifyCallType, irVerifyCallTypeChecked,
        Bool.and_eq_true] at typed
      obtain ⟨-, -, ⟨-, chain⟩, -⟩ := typed
      refine chain_live accepted checked _ _ chain ?_ argument (List.mem_reverse.mp member)
      intro nonzero
      have ordinary : (arena.values reference).kind ≠ .phi := by rw [isCall]; exact Kind.noConfusion
      have usable := accepted.operand_usable lower upper ordinary nonzero (.inl rfl)
      have smaller := usable.2.1
      exact ⟨usable.1, by omega, checked.operands reference lower upper alive _ (.inl rfl) nonzero⟩
    · simp only [List.mem_filter, List.mem_cons, List.not_mem_nil, or_false, bne_iff_ne] at member
      exact checked.operands reference lower upper alive argument member.1 member.2

/-! ## The phis of a block -/

omit accepted checked in
theorem phiPrefixFromP_before {reference : Nat} : ∀ (fuel current : Nat),
    arena.phiPrefixFromP reference fuel current = true → ∀ before after : List Nat,
    arena.blockValuesFrom fuel current = before ++ reference :: after → reference ∉ before →
    ∀ value ∈ before, arena.phiP value = true := by
  intro fuel
  induction fuel with
  | zero =>
      intro current found
      cases found
  | succ fuel ih =>
      intro current found before after split absent value member
      cases before with
      | nil => exact (List.not_mem_nil member).elim
      | cons first before =>
          unfold blockValuesFrom at split
          by_cases ends : current = 0
          · rw [if_pos ends] at split
            cases split
          · rw [if_neg ends, List.cons_append] at split
            obtain ⟨rfl, rest⟩ := List.cons.inj split
            obtain ⟨differs, absent⟩ := List.ne_and_not_mem_of_not_mem_cons absent
            simp only [phiPrefixFromP, Bool.or_eq_true, beq_iff_eq, Ne.symm differs, false_or,
              Bool.and_eq_true] at found
            rcases List.mem_cons.mp member with rfl | later
            · exact beq_iff_eq.mpr found.1.2
            · exact ih _ found.2 before after rest absent value later

omit accepted checked in
/-- Taking a prefix is filtering when everything before a selected element is selected. -/
theorem takeWhile_eq_filter {select : Nat → Bool} : ∀ {values : List Nat},
    (∀ before value after, values = before ++ value :: after → select value = true →
      ∀ other ∈ before, select other = true) →
    values.takeWhile select = values.filter select := by
  intro values
  induction values with
  | nil => exact fun _ => rfl
  | cons first values ih =>
      intro closed
      by_cases selected : select first = true
      · rw [List.takeWhile_cons, List.filter_cons, if_pos selected, if_pos selected, ih]
        intro before value after split holds other member
        exact closed (first :: before) value after (congrArg _ split) holds other
          (List.mem_cons_of_mem _ member)
      · rw [List.takeWhile_cons, List.filter_cons, if_neg selected, if_neg selected, eq_comm,
          List.filter_eq_nil_iff]
        intro value member holds
        obtain ⟨before, after, split⟩ := List.append_of_mem member
        exact selected (closed (first :: before) value after (congrArg _ split) holds first
          List.mem_cons_self)

omit checked in
/-- The phis of a block stand at its start. -/
theorem takeWhile_phi {block : Nat} (lower : 1 ≤ block) (upper : block ≤ arena.blockCount) :
    (arena.blockValues block).takeWhile arena.phiP = (arena.blockValues block).filter arena.phiP := by
  refine takeWhile_eq_filter ?_
  intro before value after split isPhi
  have member : value ∈ arena.blockValues block := by
    rw [split]
    exact List.mem_append_right _ List.mem_cons_self
  obtain ⟨from1, toCount, home⟩ := accepted.mem_blockValues lower upper member
  have edges := (accepted.checks from1 toCount).edges
  have kind : (arena.values value).kind = .phi := beq_iff_eq.mp isPhi
  simp only [verifyValueEdges, kind, ↓reduceIte, Bool.and_eq_true, home] at edges
  refine phiPrefixFromP_before _ _ edges.1 before after split ?_
  intro twice
  obtain ⟨sorted, -⟩ := verifyBlockList_list _ _ _ (accepted.shaped.lists block lower upper)
  change (arena.blockValues block).Pairwise (· < ·) at sorted
  rw [split, List.pairwise_append] at sorted
  exact Nat.lt_irrefl _ (sorted.2.2 value twice value List.mem_cons_self)

/-! ## The meaning of the emitted code -/

/-- The copies of an edge. -/
def edgeCopies (arena : SsaArena) (predecessor successor : Nat) : List (Nat × Nat) :=
  (((arena.blockValues successor).filter arena.phiP).filter arena.live).map fun reference =>
    (reference, (arena.values reference).incoming predecessor)

omit accepted checked in
/-- An accepted value other than a phi or a link denotes its assignment. -/
theorem denote_value {types : Nat → IrType} {op : ScalarOp} {count reference : Nat}
    (shape : irOpOperandsP op count = true) :
    LirArena.denote context types { toScalarOp := op, destination := reference } =
      .assign (op.assignment types reference (chainArguments (fun link => (types link).left)
        (fun link => (types link).right) op.left
        (context.signatureAt (op.target - 1)).arity)) := by
  unfold LirArena.denote
  cases kind : op.kind with
  | label | jump | branch | ret | rootsInit | rootsEnter | rootsSync | rootsLeave =>
      simp [irOpOperandsP, kind, Kind.irLeafKindP, Kind.irUnaryKindP, Kind.irBinaryKindP] at shape
  | _ => rfl

omit accepted checked in
theorem assignment_congr {types : Nat → IrType} {op : ScalarOp} {reference : Nat}
    {first second : List Nat} (same : op.kind = .call → first = second) :
    op.assignment types reference first = op.assignment types reference second := by
  unfold ScalarOp.assignment ScalarOp.arguments
  split
  · rename_i isCall
    rw [same isCall]
  · rfl

/-- The emitted values of a block are its live assignments. -/
theorem denote_values : ∀ {values : List Nat},
    (∀ reference ∈ values, 1 ≤ reference ∧ reference ≤ arena.valueCount) →
    (values.flatMap (valueCode arena)).map (LirArena.denote context arena.types) =
      (((values.filter arena.assignedP).map (arena.assignment context)).filter
        fun assignment => arena.live assignment.dst).map Flat.assign := by
  intro values
  induction values with
  | nil => exact fun _ => rfl
  | cons reference values ih =>
      intro bounds
      obtain ⟨lower, upper⟩ := bounds reference List.mem_cons_self
      have rest := ih fun other member => bounds other (List.mem_cons_of_mem _ member)
      rw [List.flatMap_cons, List.map_append, rest, List.filter_cons]
      by_cases kept : arena.assignedP reference = true
      · rw [if_pos kept, List.map_cons, List.filter_cons]
        have dst : (arena.assignment context reference).dst = reference := rfl
        rw [dst]
        rcases checked.marked reference lower upper with dead | alive
        · have notLive : ¬arena.live reference = true := by simp [live, dead]
          rw [if_neg notLive]
          simp only [valueCode, dead, true_or, ↓reduceIte, List.map_nil, List.nil_append]
        · have isLive : (arena.values reference).live = 1 := by simpa [live] using alive
          rw [if_pos alive]
          simp only [valueCode, isLive, kept, Nat.one_ne_zero, Bool.true_eq_false, or_self,
            ↓reduceIte, List.map_cons, List.map_nil, List.cons_append, List.nil_append]
          congr 1
          rw [denote_value (accepted.checks lower upper).operands]
          exact congrArg _ (assignment_congr fun isCall =>
            (accepted.callArguments_usable lower upper isCall).1)
      · have dropped : arena.assignedP reference = false := by simpa using kept
        rw [if_neg kept]
        simp only [valueCode, dropped, or_true, ↓reduceIte, List.map_nil, List.nil_append]

omit checked in
/-- The inputs of a phi are registers. -/
theorem incoming_cases {reference : Nat} (lower : 1 ≤ reference)
    (upper : reference ≤ arena.valueCount) (isPhi : arena.phiP reference = true)
    (predecessor : Nat) :
    ((arena.values reference).incoming predecessor = (arena.values reference).left ∨
      (arena.values reference).incoming predecessor = (arena.values reference).right) ∧
    (arena.values reference).incoming predecessor ≠ 0 := by
  have kind : (arena.values reference).kind = .phi := beq_iff_eq.mp isPhi
  have shape := (accepted.checks lower upper).operands
  have left := irOpOperandsP_left shape (by rw [kind]; rfl) (by rw [kind]; exact Kind.noConfusion)
  have right := irOpOperandsP_right shape (by rw [kind]; rfl)
  unfold SsaValue.incoming
  split
  · exact ⟨.inl rfl, Nat.ne_of_gt left.1⟩
  · exact ⟨.inr rfl, Nat.ne_of_gt right.1⟩

omit accepted checked in
theorem denote_copy {types : Nat → IrType} {op : LirInstruction} (isCopy : op.kind = .copy)
    (left : op.left ≠ 0) (right : op.right = 0) :
    LirArena.denote context types op = Flat.copy op.destination op.left := by
  simp [LirArena.denote, ScalarOp.assignment, ScalarOp.producer, ScalarOp.arguments, isCopy, left,
    right, Kind.moveP, Flat.copy, Assignment.copy]

/-- The emitted copies of an edge. -/
theorem denote_copies {predecessor : Nat} : ∀ {values : List Nat},
    (∀ reference ∈ values, 1 ≤ reference ∧ reference ≤ arena.valueCount ∧
      arena.phiP reference = true) →
    (values.flatMap (copyCode arena predecessor)).map (LirArena.denote context arena.types) =
      ((values.filter arena.live).map fun reference =>
        (reference, (arena.values reference).incoming predecessor)).map
          fun pair => Flat.copy pair.1 pair.2 := by
  intro values
  induction values with
  | nil => exact fun _ => rfl
  | cons reference values ih =>
      intro bounds
      obtain ⟨lower, upper, isPhi⟩ := bounds reference List.mem_cons_self
      have rest := ih fun other member => bounds other (List.mem_cons_of_mem _ member)
      rw [List.flatMap_cons, List.map_append, rest, List.filter_cons]
      rcases checked.marked reference lower upper with dead | alive
      · have notLive : ¬arena.live reference = true := by simp [live, dead]
        rw [if_neg notLive]
        simp only [copyCode, dead, ↓reduceIte, List.map_nil, List.nil_append]
      · have isLive : (arena.values reference).live = 1 := by simpa [live] using alive
        have present := (incoming_cases accepted lower upper isPhi predecessor).2
        rw [if_pos alive]
        simp only [copyCode, isLive, Nat.one_ne_zero, ↓reduceIte, List.map_cons, List.map_nil,
          List.cons_append, List.nil_append]
        rw [denote_copy rfl present rfl]

/-- The meaning of the code of an edge. -/
theorem denote_edge {successor : Nat} (predecessor : Nat) (lower : 1 ≤ successor)
    (upper : successor ≤ arena.blockCount) :
    (edgeCode arena predecessor successor).map (LirArena.denote context arena.types) =
      ((edgeCopies arena predecessor successor).map fun pair => Flat.copy pair.1 pair.2) ++
        [.jump successor] := by
  unfold edgeCode edgeCopies
  rw [List.map_append, takeWhile_phi accepted lower upper]
  congr 1
  refine denote_copies accepted checked fun reference member => ?_
  obtain ⟨inBlock, isPhi⟩ := List.mem_filter.mp member
  obtain ⟨from1, toCount, -⟩ := accepted.mem_blockValues lower upper inBlock
  exact ⟨from1, toCount, isPhi⟩

/-! ## The simulation -/

omit accepted checked in
theorem lookup_graph_none {β : Type} {f : Nat → β} {register : Nat} {references : List Nat} :
    (references.map fun reference => (reference, f reference)).lookup register = none ↔
      register ∉ references := by
  rw [List.lookup_eq_none_iff]
  constructor
  · intro absent member
    have differs := absent (register, f register) (List.mem_map.mpr ⟨register, member, rfl⟩)
    exact absurd differs (by simp)
  · intro absent pair member
    obtain ⟨reference, inside, rfl⟩ := List.mem_map.mp member
    have differs : register ≠ reference := by
      rintro rfl
      exact absent inside
    simpa using differs

omit checked in
/-- No copy of an edge reads a register that an earlier copy has written. -/
theorem edgeCopies_independent (apart : ¬arena.PhiOverlap) {predecessor successor : Nat}
    (lower : 1 ≤ successor) (upper : successor ≤ arena.blockCount) :
    Flat.Independent (edgeCopies arena predecessor successor) := by
  unfold Flat.Independent edgeCopies
  rw [List.pairwise_map]
  obtain ⟨sorted, -⟩ := verifyBlockList_list _ _ _ (accepted.shaped.lists successor lower upper)
  change (arena.blockValues successor).Pairwise (· < ·) at sorted
  refine List.Pairwise.imp_of_mem ?_ ((sorted.filter arena.phiP).filter arena.live)
  intro first second atFirst atSecond before
  refine ⟨?_, Nat.ne_of_gt before⟩
  intro overwritten
  change (arena.values second).incoming predecessor = first at overwritten
  obtain ⟨firstPhi, -⟩ := List.mem_filter.mp atFirst
  obtain ⟨firstIn, isPhi⟩ := List.mem_filter.mp firstPhi
  obtain ⟨secondPhi, alive⟩ := List.mem_filter.mp atSecond
  obtain ⟨secondIn, isPhi'⟩ := List.mem_filter.mp secondPhi
  obtain ⟨from1, toCount, -⟩ := accepted.mem_blockValues lower upper secondIn
  have input := (incoming_cases accepted from1 toCount isPhi' predecessor).1
  rw [overwritten] at input
  exact apart ⟨successor, lower, upper, second, secondIn, first, firstIn, isPhi', isPhi, alive, input⟩

omit checked in
/-- A phi reads, on an edge, the input that the copies of the edge read. -/
theorem lookup_incoming {reference predecessor : Nat} (lower : 1 ≤ reference)
    (upper : reference ≤ arena.valueCount) (isPhi : arena.phiP reference = true)
    (from1 : 1 ≤ predecessor) (toCount : predecessor ≤ arena.blockCount)
    (edge : (arena.values reference).block ∈ arena.successors predecessor) :
    (phiInputs (arena.values reference)).lookup predecessor =
      some ((arena.values reference).incoming predecessor) := by
  obtain ⟨input, found, -, -⟩ :=
    accepted.phi_edge lower upper (beq_iff_eq.mp isPhi) from1 toCount edge
  rw [found]
  unfold SsaValue.incoming
  unfold phiInputs at found
  by_cases fromLeft : predecessor = (arena.values reference).predecessorLeft
  · rw [if_pos fromLeft]
    rw [fromLeft, List.lookup_cons_self] at found
    exact found.symm
  · rw [if_neg fromLeft]
    rw [List.lookup_cons, beq_eq_false_iff_ne.mpr fromLeft] at found
    simp only [List.lookup_cons, List.lookup_nil] at found
    split at found
    · exact found.symm
    · cases found

omit checked in
/-- The edges of a phi, from which it reads smaller registers. -/
theorem phi_edges {reference : Nat} (lower : 1 ≤ reference) (upper : reference ≤ arena.valueCount)
    (isPhi : arena.phiP reference = true) :
    (∀ operand, operand = (arena.values reference).left ∨ operand = (arena.values reference).right →
      operand < reference ∧ ∃ predecessor, (1 ≤ predecessor ∧ predecessor ≤ arena.blockCount) ∧
        (arena.values reference).block ∈ arena.successors predecessor ∧
        (arena.values reference).incoming predecessor = operand) := by
  have checks := accepted.checks lower upper
  have edges := checks.edges
  have kind : (arena.values reference).kind = .phi := beq_iff_eq.mp isPhi
  have present : (arena.values reference).block ≠ 0 := Nat.ne_of_gt checks.block.1
  simp only [verifyValueEdges, kind, ↓reduceIte, verifyPhi, Bool.and_eq_true, bne_iff_ne,
    irReferenceP_eq_true, edgeP_eq_true present] at edges
  obtain ⟨-, ⟨⟨⟨⟨⟨⟨fromLeft, fromRight⟩, differs⟩, -⟩, leftEdge⟩, rightEdge⟩, useLeft⟩,
    useRight⟩ := edges
  obtain ⟨-, nonzero⟩ := incoming_cases accepted lower upper isPhi
    (arena.values reference).predecessorLeft
  obtain ⟨-, nonzero'⟩ := incoming_cases accepted lower upper isPhi
    (arena.values reference).predecessorRight
  have left : (arena.values reference).incoming (arena.values reference).predecessorLeft =
      (arena.values reference).left := if_pos rfl
  have right : (arena.values reference).incoming (arena.values reference).predecessorRight =
      (arena.values reference).right := if_neg (Ne.symm differs)
  rw [left] at nonzero
  rw [right] at nonzero'
  rintro operand (rfl | rfl)
  · exact ⟨(accepted.shaped.verifyUse_usable nonzero useLeft).2.1, _, fromLeft, leftEdge, left⟩
  · exact ⟨(accepted.shaped.verifyUse_usable nonzero' useRight).2.1, _, fromRight, rightEdge, right⟩

/-- Overlapping phis have an edge on which the copies do not act as a simultaneous assignment. -/
theorem edgeCopies_overlap (overlap : arena.PhiOverlap) :
    ∃ predecessor successor, (1 ≤ predecessor ∧ predecessor ≤ arena.blockCount) ∧
      successor ∈ arena.successors predecessor ∧ ∃ register, arena.live register = true ∧
        Flat.copyAll (edgeCopies arena predecessor successor) some register ≠
          enterPhis ((arena.program context).phis successor) predecessor some register := by
  obtain ⟨block, lower, upper, phi, phiIn, input, inputIn, isPhi, isPhi', alive, reads⟩ := overlap
  obtain ⟨positive, bounded, home⟩ := accepted.mem_blockValues lower upper phiIn
  obtain ⟨smaller, predecessor, inside, edge, incoming⟩ :=
    phi_edges accepted positive bounded isPhi input reads
  rw [home] at edge
  refine ⟨predecessor, block, inside, edge, phi, alive, ?_⟩
  have simultaneous : enterPhis ((arena.program context).phis block) predecessor some phi =
      some input := by
    have entry : ((arena.program context).phis block).lookup phi =
        some (phiInputs (arena.values phi)) :=
      List.lookup_graph _ (List.mem_filter.mpr ⟨phiIn, isPhi⟩)
    have found := lookup_incoming accepted positive bounded isPhi inside.1 inside.2 (by rwa [home])
    simp only [enterPhis, entry, found, incoming, Option.bind_some]
  rw [simultaneous]
  obtain ⟨sorted, -⟩ := verifyBlockList_list _ _ _ (accepted.shaped.lists block lower upper)
  change (arena.blockValues block).Pairwise (· < ·) at sorted
  have increasing := (sorted.filter arena.phiP).filter arena.live
  have phiLive := List.mem_filter.mpr ⟨List.mem_filter.mpr ⟨phiIn, isPhi⟩, alive⟩
  have inputLive : input ∈ ((arena.blockValues block).filter arena.phiP).filter arena.live := by
    obtain ⟨from1, -⟩ := accepted.mem_blockValues lower upper inputIn
    have used := checked.operands phi positive bounded alive input reads (by omega)
    exact List.mem_filter.mpr ⟨List.mem_filter.mpr ⟨inputIn, isPhi'⟩, used⟩
  have up : ∀ copy ∈ edgeCopies arena predecessor block, copy.2 < copy.1 := by
    intro copy member
    obtain ⟨reference, selected, rfl⟩ := List.mem_map.mp member
    obtain ⟨inBlock, kind⟩ := List.mem_filter.mp (List.mem_filter.mp selected).1
    obtain ⟨from1, toCount, -⟩ := accepted.mem_blockValues lower upper inBlock
    exact (phi_edges accepted from1 toCount kind _
      (incoming_cases accepted from1 toCount kind predecessor).1).1
  unfold edgeCopies at up ⊢
  obtain ⟨before, after, split⟩ := List.append_of_mem phiLive
  rw [split] at increasing inputLive up ⊢
  rw [List.pairwise_append, List.pairwise_cons] at increasing
  obtain ⟨-, ⟨above, -⟩, -⟩ := increasing
  -- The copy for the input stands before the copy that reads it.
  have earlier : input ∈ before := by
    rcases List.mem_append.mp inputLive with here | there
    · exact here
    · rcases List.mem_cons.mp there with same | later
      · omega
      · have := above input later
        omega
  rw [List.map_append, List.map_cons] at up ⊢
  obtain ⟨origin, moved, -, strict⟩ := Flat.copyAll_below
    (fun copy member => up copy (List.mem_append_left _ member)) input
  have written : input ∈ (before.map fun reference =>
      (reference, (arena.values reference).incoming predecessor)).map Prod.fst :=
    List.mem_map.mpr ⟨_, List.mem_map.mpr ⟨input, earlier, rfl⟩, rfl⟩
  have last : phi ∉ (after.map fun reference =>
      (reference, (arena.values reference).incoming predecessor)).map Prod.fst := by
    intro member
    obtain ⟨_, copied, same⟩ := List.mem_map.mp member
    obtain ⟨reference, later, rfl⟩ := List.mem_map.mp copied
    have := above reference later
    simp only at same
    omega
  have final := @Flat.copyAll_of_not_mem _ _ (Function.update (Flat.copyAll (before.map
    fun reference => (reference, (arena.values reference).incoming predecessor)) some) phi
      (Flat.copyAll (before.map fun reference =>
        (reference, (arena.values reference).incoming predecessor)) some input)) _ last
  rw [Function.update_self] at final
  rw [Flat.copyAll_append, incoming]
  intro same
  have equal := moved.symm.trans (final.symm.trans same)
  have below := strict written
  cases equal
  exact Nat.lt_irrefl _ below

/-- The copies of an edge do to the live registers what entering the block does. -/
theorem edge_implements (apart : ¬arena.PhiOverlap) {code : List (Flat Operation)}
    {pc predecessor successor : Nat} (from1 : 1 ≤ predecessor)
    (toCount : predecessor ≤ arena.blockCount) (edge : successor ∈ arena.successors predecessor)
    {rest : List (Flat Operation)} (stands : Flat.Segment code pc
      ((edgeCode arena predecessor successor).map (LirArena.denote context arena.types) ++ rest)) :
    EdgeCode arena.live (arena.program context) code
      (fun block => 1 ≤ block ∧ block ≤ arena.blockCount) pc predecessor successor
      (edgeCopies arena predecessor successor) := by
  obtain ⟨lower, upper⟩ := accepted.shaped.successor_bounds from1 toCount edge
  rw [denote_edge accepted checked predecessor lower upper, List.append_assoc] at stands
  refine ⟨⟨rest, stands⟩, edgeCopies_independent accepted apart lower upper, ?_, ?_, lower, upper⟩
  · intro register alive incoming found
    have phi : register ∈ (arena.blockValues successor).filter arena.phiP := by
      by_contra absent
      have none : ((arena.program context).phis successor).lookup register = none :=
        lookup_graph_none.mpr absent
      rw [none] at found
      cases found
    have entry : ((arena.program context).phis successor).lookup register =
        some (phiInputs (arena.values register)) := List.lookup_graph _ phi
    rw [entry] at found
    cases found
    obtain ⟨inBlock, isPhi⟩ := List.mem_filter.mp phi
    obtain ⟨positive, bounded, home⟩ := accepted.mem_blockValues lower upper inBlock
    obtain ⟨input, present⟩ := incoming_cases accepted positive bounded isPhi predecessor
    refine ⟨(arena.values register).incoming predecessor, ?_, ?_, ?_⟩
    · exact lookup_incoming accepted positive bounded isPhi from1 toCount (by rwa [home])
    · exact List.lookup_graph _ (List.mem_filter.mpr ⟨phi, alive⟩)
    · exact checked.operands register positive bounded alive _ input present
  · intro register _ absent
    have outside : register ∉ (arena.blockValues successor).filter arena.phiP :=
      lookup_graph_none.mp absent
    exact lookup_graph_none.mpr fun member => outside (List.mem_filter.mp member).1

/-- The code of a terminator does what leaving the block does. -/
theorem terminator_implements (apart : ¬arena.PhiOverlap) {code : List (Flat Operation)}
    {pc index next : Nat} (distinct : (Flat.labels code).Nodup) (lower : 1 ≤ index)
    (upper : index ≤ arena.blockCount) (stands : Flat.Segment code pc
      ((terminatorCode arena index next).map (LirArena.denote context arena.types))) :
    ExitCode arena.live (arena.program context) code
      (fun block => 1 ≤ block ∧ block ≤ arena.blockCount) pc index
      ((arena.program context).exit index) := by
  have shape := accepted.shaped.terminators index lower upper
  have left : (arena.blocks index).targetLeft ≠ 0 →
      (arena.blocks index).targetLeft ∈ arena.successors index := fun present =>
    mem_successors.mpr ⟨present, .inl rfl⟩
  have right : (arena.blocks index).targetRight ≠ 0 →
      (arena.blocks index).targetRight ∈ arena.successors index := fun present =>
    mem_successors.mpr ⟨present, .inr rfl⟩
  have exits : (arena.program context).exit index = arena.exit index := rfl
  rw [exits]
  unfold SsaArena.exit
  unfold verifyTerminatorShape at shape
  unfold terminatorCode at stands
  cases kind : (arena.blocks index).terminator with
  | ret =>
      simp only [kind, Bool.and_eq_true, irReferenceP_eq_true] at shape
      simp only [kind, List.map_cons, List.map_nil] at stands
      simp only [kind]
      have meaning : LirArena.denote context arena.types
          { kind := .ret, scalarCode := (arena.types (arena.blocks index).result).scalarCode,
            pointee := (arena.types (arena.blocks index).result).pointee,
            left := if (arena.types (arena.blocks index).result).scalarCode = 12 then 0
              else (arena.blocks index).result, source := 1 } =
          .ret (returnedRegister (arena.types (arena.blocks index).result).scalarCode
            (arena.blocks index).result) := by
        simp only [LirArena.denote, returnedRegister]
        split
        · rfl
        · rfl
      rw [meaning] at stands
      refine .ret stands ?_
      intro register returned
      unfold returnedRegister at returned
      split at returned
      · cases returned
      · cases returned
        exact checked.terminals index lower upper _ (.inr rfl) (by omega)
  | jump =>
      simp only [kind, Bool.and_eq_true, irReferenceP_eq_true] at shape
      simp only [kind] at stands
      simp only [kind]
      rw [← List.append_nil (List.map _ _)] at stands
      exact .jump (edge_implements accepted checked apart lower upper (left (by omega)) stands)
  | branch =>
      simp only [kind, Bool.and_eq_true, irReferenceP_eq_true] at shape
      simp only [kind, List.map_cons, List.map_append, List.cons_append] at stands
      simp only [kind]
      have first := stands.tail
      have second : Flat.Segment code _ (_ :: _) := (first.tail).drop
      refine .branch stands ?_ ?_ ?_
      · exact checked.terminals index lower upper _ (.inl rfl) (by omega)
      · exact ⟨_, _, _, first.position distinct, first,
          edge_implements accepted checked apart lower upper (left (by omega)) first.tail⟩
      · have last := second.tail
        rw [← List.append_nil (List.map _ (edgeCode arena index (arena.blocks index).targetRight))]
          at last
        exact ⟨_, _, _, second.position distinct, second,
          edge_implements accepted checked apart lower upper (right (by omega)) last⟩
  | unset => simp [kind] at shape
  | other number => simp [kind] at shape

/-! ## The whole list -/

/-- The meaning of the code of a block. -/
def flatBlock (context : CompileContext) (arena : SsaArena) (index next : Nat) :
    List (Flat Operation) :=
  (blockCode arena index next).map (LirArena.denote context arena.types)

omit accepted checked in
theorem blocksCode_layout : ∀ (indexes : List Nat) (next : Nat),
    (blocksCode arena indexes next).map (LirArena.denote context arena.types) =
      Flat.layout (flatBlock context arena) (edgeLabels arena) indexes next := by
  intro indexes
  induction indexes with
  | nil => exact fun _ => rfl
  | cons index indexes ih =>
      intro next
      rw [blocksCode, List.map_append, ih]
      rfl

/-- The parts of the code of a block. -/
theorem flatBlock_eq {index : Nat} (lower : 1 ≤ index) (upper : index ≤ arena.blockCount)
    (next : Nat) :
    flatBlock context arena index next =
      .label index :: (((arena.program context).liveBody arena.live index).map Flat.assign ++
        (terminatorCode arena index next).map (LirArena.denote context arena.types)) := by
  have bounds : ∀ reference ∈ arena.blockValues index,
      1 ≤ reference ∧ reference ≤ arena.valueCount := by
    intro reference member
    obtain ⟨positive, bounded, -⟩ := accepted.mem_blockValues lower upper member
    exact ⟨positive, bounded⟩
  have values := @denote_values context arena accepted checked _ bounds
  unfold flatBlock blockCode
  rw [List.map_append, List.map_cons, values]
  rfl

theorem labels_edge {successor : Nat} (predecessor : Nat) (lower : 1 ≤ successor)
    (upper : successor ≤ arena.blockCount) :
    Flat.labels ((edgeCode arena predecessor successor).map
      (LirArena.denote context arena.types)) = [] := by
  rw [denote_edge accepted checked predecessor lower upper, Flat.labels_append, Flat.labels_copies]
  rfl

/-- A block holds its own label and those of its edges. -/
theorem labels_block {index : Nat} (lower : 1 ≤ index) (upper : index ≤ arena.blockCount)
    (next : Nat) :
    Flat.labels (flatBlock context arena index next) =
      index :: List.range' next (edgeLabels arena index) := by
  have shape := accepted.shaped.terminators index lower upper
  rw [flatBlock_eq accepted checked lower upper, Flat.labels_label, Flat.labels_append,
    Flat.labels_assignments, List.nil_append]
  congr 1
  unfold verifyTerminatorShape at shape
  unfold terminatorCode edgeLabels
  cases kind : (arena.blocks index).terminator with
  | ret =>
      simp only [kind]
      rfl
  | jump =>
      simp only [kind, Bool.and_eq_true, irReferenceP_eq_true] at shape
      simp only [kind]
      exact labels_edge accepted checked index shape.2.1 shape.2.2
  | branch =>
      simp only [kind, Bool.and_eq_true, irReferenceP_eq_true] at shape
      obtain ⟨⟨-, left⟩, right⟩ := shape
      simp only [kind, List.cons_append, List.map_cons, List.map_append]
      change next :: Flat.labels (_ ++ .label (next + 1) :: _) = _
      rw [Flat.labels_append, Flat.labels_label, labels_edge accepted checked index left.1 left.2,
        labels_edge accepted checked index right.1 right.2]
      rfl
  | unset => simp [kind] at shape
  | other number => simp [kind] at shape

/-- The lowered code implements the program of the arena. -/
theorem linearized (apart : ¬arena.PhiOverlap) :
    Linearized arena.live (arena.program context)
      (Flat.layout (flatBlock context arena) (edgeLabels arena) (List.range' 1 arena.blockCount)
        (arena.blockCount + 1))
      (fun block => 1 ≤ block ∧ block ≤ arena.blockCount) := by
  have inRange : ∀ block, block ∈ List.range' 1 arena.blockCount ↔
      1 ≤ block ∧ block ≤ arena.blockCount := by
    intro block
    rw [List.mem_range'_1]
    omega
  obtain ⟨distinct, -⟩ := @Flat.layout_labels _ (flatBlock context arena) (edgeLabels arena)
    (List.range' 1 arena.blockCount) (arena.blockCount + 1)
    (fun block member next => labels_block accepted checked ((inRange block).mp member).1
      ((inRange block).mp member).2 next)
    List.nodup_range' (fun block member => Nat.lt_succ_of_le ((inRange block).mp member).2)
  refine ⟨⟨le_rfl, accepted.shaped.entered⟩, ?_, ?_, ?_⟩
  · obtain ⟨count, same⟩ := Nat.exists_eq_add_of_le' accepted.shaped.entered
    have first : Flat.Segment (Flat.layout (flatBlock context arena) (edgeLabels arena)
        (List.range' 1 arena.blockCount) (arena.blockCount + 1)) 0
        (flatBlock context arena 1 (arena.blockCount + 1)) := by
      rw [same, List.range'_succ]
      exact List.prefix_append _ _
    rw [flatBlock_eq accepted checked le_rfl accepted.shaped.entered] at first
    exact first.position distinct
  · rintro block ⟨lower, upper⟩ assignment member
    obtain ⟨reference, kept, rfl⟩ := List.mem_map.mp member
    obtain ⟨positive, bounded, -⟩ :=
      accepted.mem_blockValues lower upper (List.mem_filter.mp kept).1
    exact assignment_closed accepted checked positive bounded
  · rintro block ⟨lower, upper⟩
    obtain ⟨pc, fresh, -, stands⟩ := @Flat.layout_segment _ (flatBlock context arena)
      (edgeLabels arena) _ (arena.blockCount + 1) block ((inRange block).mpr ⟨lower, upper⟩)
    rw [flatBlock_eq accepted checked lower upper] at stands
    refine ⟨pc, _, stands.position distinct, stands, ?_⟩
    have exits := stands.tail.drop
    rw [List.length_map] at exits
    exact terminator_implements accepted checked apart distinct lower upper exits

end Preservation

/-- The copies of every edge act as the simultaneous assignment of the live phis. -/
def SsaArena.EdgesExact (context : CompileContext) (arena : SsaArena) : Prop :=
  ∀ predecessor successor, 1 ≤ predecessor ∧ predecessor ≤ arena.blockCount →
    successor ∈ arena.successors predecessor →
    ∀ {Value : Type} (registers : Nat → Option Value) register, arena.live register = true →
      Flat.copyAll (edgeCopies arena predecessor successor) registers register =
        enterPhis ((arena.program context).phis successor) predecessor registers register

section Lowering

variable {context : CompileContext} {arena : SsaArena}

theorem edgesExact_iff (accepted : Accepted context arena) (checked : LivenessChecked arena) :
    arena.EdgesExact context ↔ ¬arena.PhiOverlap := by
  constructor
  · intro exact' overlap
    obtain ⟨predecessor, successor, inside, edge, register, alive, differs⟩ :=
      edgeCopies_overlap accepted checked overlap
    exact differs (exact' predecessor successor inside edge some register alive)
  · intro apart predecessor successor inside edge Value registers register alive
    have implements := @edge_implements context arena accepted checked apart
      ((edgeCode arena predecessor successor).map (LirArena.denote context arena.types) ++ []) 0
      predecessor successor inside.1 inside.2 edge [] List.prefix_rfl
    exact implements.copies_eq registers alive

/-- The lowered list is laid out block after block. -/
theorem lirLowerFunction_flat (verified : ssaVerifyLiveness context arena = true)
    {lir lowered : LirArena} (done : lirLowerFunction arena context lir = some lowered) :
    lowered.flat context = Flat.layout (flatBlock context arena) (edgeLabels arena)
      (List.range' 1 arena.blockCount) (arena.blockCount + 1) := by
  obtain ⟨accepted, -⟩ := ssaVerifyLiveness_checked verified
  have unfolded : lirLowerFunction arena context lir = lirLowerBlocks arena (lir.prepare arena) :=
    if_pos verified
  have bounds : ∀ index ∈ List.range' 1 arena.blockCount,
      1 ≤ index ∧ index ≤ arena.blockCount := by
    intro index member
    rw [List.mem_range'_1] at member
    omega
  rw [unfolded] at done
  have extended := lirLowerBlocks_extends accepted.shaped bounds rfl done
  rw [← blocksCode_layout, LirArena.flat, extended.types, extended.code]
  rfl

/-- Lowering succeeds as soon as there is room for the code. -/
theorem lirLowerFunction_isSome (verified : ssaVerifyLiveness context arena = true)
    {lir : LirArena} (instructions : arena.blockCount * (3 * arena.valueCount + 9) ≤ lir.capacity)
    (labels : 3 * arena.blockCount ≤ lir.labelCapacity) :
    ∃ lowered, lirLowerFunction arena context lir = some lowered := by
  obtain ⟨accepted, -⟩ := ssaVerifyLiveness_checked verified
  rw [lirLowerFunction, if_pos verified]
  exact lirLowerBlocks_isSome_of_capacity accepted.shaped instructions labels

/-- Without overlapping phis, lowering succeeds as soon as there is room for the code, and whenever
it succeeds the code returns what the SSA program returns and performs the same effects. Overlapping
phis have an edge on which the copies do not act as a simultaneous assignment. -/
theorem lirLowerFunction_preserves (verified : ssaVerifyLiveness context arena = true) :
    (arena.EdgesExact context ↔ ¬arena.PhiOverlap) ∧ (¬arena.PhiOverlap → ∀ lir : LirArena,
      (arena.blockCount * (3 * arena.valueCount + 9) ≤ lir.capacity →
        3 * arena.blockCount ≤ lir.labelCapacity →
        ∃ lowered, lirLowerFunction arena context lir = some lowered) ∧
      ∀ lowered, lirLowerFunction arena context lir = some lowered →
        ∀ {Value World : Type} (meaning : Interpretation Operation Value World) (world : World),
          SameBehaviour (((arena.program context).machine meaning).run
              ((arena.program context).start world))
            ((Flat.machine meaning (lowered.flat context)).run (Flat.start world))) := by
  obtain ⟨accepted, checked⟩ := ssaVerifyLiveness_checked verified
  refine ⟨edgesExact_iff accepted checked, fun apart lir => ⟨?_, ?_⟩⟩
  · exact fun instructions labels => lirLowerFunction_isSome verified instructions labels
  · intro lowered done Value World meaning world
    rw [lirLowerFunction_flat verified done]
    exact (linearized accepted checked apart).sameBehaviour meaning world

end Lowering

/-! ## A phi that passes another phi around a loop -/

/-- Words without memory or callees. -/
def wordMeaning : Interpretation Operation Nat Unit where
  scalar op operands :=
    match op.kind, operands with
    | .literal, _ => op.value
    | .equal, [left, right] => if left = right then 1 else 0
    | _, _ => 0
  read _ _ _ := 0
  truth value := value != 0
  effect _ _ world := some (0, world)

/-- A loop with two phis. On the back edge the first becomes 1, and the second becomes the value of
a given register. -/
def twoPhiLoop (back : Nat) : SsaArena :=
  .ofLists
    [{ kind := .literal, scalarCode := 1, value := 0, source := 1, block := 1, next := 2, live := 1 },
      { kind := .literal, scalarCode := 1, value := 1, source := 1, block := 1, live := 1 },
      { kind := .phi, scalarCode := 1, left := 1, right := 2, source := 1, block := 2, next := 4,
        predecessorLeft := 1, predecessorRight := 2, live := 1 },
      { kind := .phi, scalarCode := 1, left := 1, right := back, source := 1, block := 2, next := 5,
        predecessorLeft := 1, predecessorRight := 2, live := 1 },
      { kind := .equal, left := 3, right := 1, source := 1, block := 2, live := 1 }]
    [{ first := 1, last := 2, terminator := .jump, targetLeft := 2 },
      { first := 3, last := 5, terminator := .branch, condition := 5, targetLeft := 2,
        targetRight := 3 },
      { terminator := .ret, result := 4 }]

/-- A LIR arena with room for small functions. -/
def emptyLir : LirArena where
  instructions _ := default
  count := 0
  capacity := 100
  types _ := default
  valueCount := 0
  valueCapacity := 100
  blocks _ := default
  labelCount := 0
  labelCapacity := 100

/-- The second phi receives the first one's value from before the back edge, but the lowered code
returns the value that the first one has after it. -/
theorem twoPhiLoop_diverges : ssaVerifyLiveness plainContext (twoPhiLoop 3) = true ∧
    ∃ lowered, lirLowerFunction (twoPhiLoop 3) plainContext emptyLir = some lowered ∧
      ¬SameBehaviour ((((twoPhiLoop 3).program plainContext).machine wordMeaning).run
          (((twoPhiLoop 3).program plainContext).start ()))
        ((Flat.machine wordMeaning (lowered.flat plainContext)).run (Flat.start ())) := by
  have verified : ssaVerifyLiveness plainContext (twoPhiLoop 3) = true := by rfl
  obtain ⟨lowered, done⟩ := @lirLowerFunction_isSome _ _ verified emptyLir (by decide) (by decide)
  refine ⟨verified, lowered, done, ?_⟩
  rw [lirLowerFunction_flat verified done]
  have right : ((Flat.machine wordMeaning (Flat.layout (flatBlock plainContext (twoPhiLoop 3))
      (edgeLabels (twoPhiLoop 3)) (List.range' 1 3) 4)).run (Flat.start ()) 21).2 =
      some (some 1) := by rfl
  have left : ((((twoPhiLoop 3).program plainContext).machine wordMeaning).run
      (((twoPhiLoop 3).program plainContext).start ()) 4).2 = some (some 0) := by rfl
  exact Progressive.not_sameBehaviour (Machine.progressive _ _) left right
    fun same => by cases same

/-- A second phi that receives a literal is copied independently of the first. -/
theorem twoPhiLoop_preserved : ssaVerifyLiveness plainContext (twoPhiLoop 2) = true ∧
    ∃ lowered, lirLowerFunction (twoPhiLoop 2) plainContext emptyLir = some lowered ∧
      SameBehaviour ((((twoPhiLoop 2).program plainContext).machine wordMeaning).run
          (((twoPhiLoop 2).program plainContext).start ()))
        ((Flat.machine wordMeaning (lowered.flat plainContext)).run (Flat.start ())) := by
  have verified : ssaVerifyLiveness plainContext (twoPhiLoop 2) = true := by rfl
  have apart : ¬(twoPhiLoop 2).PhiOverlap := by decide
  obtain ⟨enough, same⟩ := (lirLowerFunction_preserves verified).2 apart emptyLir
  obtain ⟨lowered, done⟩ := enough (by decide) (by decide)
  exact ⟨verified, lowered, done, same lowered done wordMeaning ()⟩

end Native
