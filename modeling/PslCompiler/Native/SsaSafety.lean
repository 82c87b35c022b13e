import PslCompiler.Flow.Definedness
import PslCompiler.Native.OperandTypes
import PslCompiler.Native.VerifySsa

/-! # What the native SSA verifier guarantees

An SSA arena run along arbitrary edges from block 1. The verifier searches the control-flow graph
once for every use, with the block of the definition barred; together with the increasing
references of the block lists this makes definitions dominate uses, and every operand is assigned
with the required type before it is read. Only a phi of block 1, which has no input for the
initial entry, escapes the checks.
-/

namespace Native

open Flow

/-! ## The graph of an arena -/

namespace SsaArena

def blockValuesFrom (arena : SsaArena) : Nat → Nat → List Nat
  | 0, _ => []
  | fuel + 1, current =>
      if current = 0 then [] else current :: arena.blockValuesFrom fuel (arena.values current).next

/-- The values of a block, in the order of its list. -/
def blockValues (arena : SsaArena) (block : Nat) : List Nat :=
  arena.blockValuesFrom (arena.valueCount + 1) (arena.blocks block).first

def successors (arena : SsaArena) (block : Nat) : List Nat :=
  [(arena.blocks block).targetLeft, (arena.blocks block).targetRight].filter (· != 0)

/-- The arguments of a call, along its chain of links. -/
def callArguments (context : CompileContext) (arena : SsaArena) (op : ScalarOp) : List Nat :=
  chainArguments (fun link => (arena.values link).left) (fun link => (arena.values link).right)
    op.left (context.signatureAt (op.target - 1)).arity

/-- Everything that a value other than a phi reads. -/
def operands (context : CompileContext) (arena : SsaArena) (op : ScalarOp) : List Nat :=
  [op.left, op.right].filter (· != 0) ++
    if op.kind = .call then arena.callArguments context op else []

/-- The input of a phi for each of its edges. -/
def phiInputs (value : SsaValue) : List (Nat × Nat) :=
  [(value.predecessorLeft, value.left), (value.predecessorRight, value.right)]

def item (context : CompileContext) (arena : SsaArena) (reference : Nat) : Item SourceType where
  dst := reference
  type := (arena.values reference).sourceType
  reads :=
    if (arena.values reference).kind = .phi then .phi (phiInputs (arena.values reference))
    else .plain (arena.operands context (arena.values reference).toScalarOp)

/-- The value that a terminator reads. -/
def terminalOperands (block : SsaBlock) : List Nat :=
  match block.terminator with
  | .ret => [block.result]
  | .branch => [block.condition]
  | _ => []

def graph (context : CompileContext) (arena : SsaArena) : SsaGraph SourceType where
  entry := 1
  succ := arena.successors
  items block := (arena.blockValues block).map (arena.item context)
  final block := terminalOperands (arena.blocks block)

/-- In a state of a run, everything that is read next has been assigned, with the type that the
operation requires. -/
structure Safe (context : CompileContext) (arena : SsaArena)
    (state : SsaGraph.State SourceType) : Prop where
  assigned : (arena.graph context).Safe state
  typed : ∀ reference, (arena.blockValues state.block)[state.position]? = some reference →
    (arena.values reference).kind ≠ .phi →
    OperandsTyped context state.assigned
      (arena.callArguments context (arena.values reference).toScalarOp)
      (arena.values reference).toScalarOp
  phi : ∀ reference, (arena.blockValues state.block)[state.position]? = some reference →
    (arena.values reference).kind = .phi → ∃ predecessor input, state.entered = some predecessor ∧
      (phiInputs (arena.values reference)).lookup predecessor = some input ∧
      Holds state.atEntry input (·.Same context (arena.values reference).sourceType)
  terminal : state.position = (arena.blockValues state.block).length →
    match (arena.blocks state.block).terminator with
    | .ret => Holds state.assigned (arena.blocks state.block).result (·.Same context
        ⟨context.currentSignature.typeCode, context.currentSignature.resultPointee⟩)
    | .branch => Holds state.assigned (arena.blocks state.block).condition (·.Same context ⟨0, 0⟩)
    | _ => True

/-- Every state of every run from block 1 is safe. -/
def ExecutionSafe (context : CompileContext) (arena : SsaArena) : Prop :=
  ∀ state, (arena.graph context).Reached state → arena.Safe context state

/-- Block 1 has a phi. -/
def EntryPhi (arena : SsaArena) : Prop :=
  ∃ reference ∈ arena.blockValues 1, (arena.values reference).kind = .phi

end SsaArena

/-! ## References and block lists -/

theorem checkUpTo_eq_true {count : Nat} {check : Nat → Bool} :
    checkUpTo count check = true ↔ ∀ index, 1 ≤ index → index ≤ count → check index = true := by
  simp only [checkUpTo, List.all_eq_true, List.mem_range'_1]
  constructor
  · intro all index lower upper
    exact all index ⟨lower, by omega⟩
  · intro all index inside
    exact all index inside.1 (by omega)

namespace SsaArena

variable {arena : SsaArena}

/-- A verified list increases, and its values belong to its block. -/
theorem verifyBlockList_list {block : Nat} : ∀ (fuel reference previous : Nat),
    arena.verifyBlockList block fuel reference previous = true →
    (arena.blockValuesFrom fuel reference).Pairwise (· < ·) ∧
      ∀ value ∈ arena.blockValuesFrom fuel reference,
        previous < value ∧ value ≤ arena.valueCount ∧ (arena.values value).block = block := by
  intro fuel
  induction fuel with
  | zero =>
      intro reference previous verified
      cases verified
  | succ fuel ih =>
      intro reference previous verified
      unfold verifyBlockList at verified
      unfold blockValuesFrom
      split
      · exact ⟨List.Pairwise.nil, fun _ member => (List.not_mem_nil member).elim⟩
      · rename_i present
        rw [if_neg present] at verified
        simp only [Bool.and_eq_true, irReferenceP_eq_true, decide_eq_true_eq, beq_iff_eq] at verified
        obtain ⟨⟨⟨inside, above⟩, home⟩, rest⟩ := verified
        obtain ⟨sorted, members⟩ := ih _ _ rest
        refine ⟨List.pairwise_cons.mpr ⟨fun value member => (members value member).1, sorted⟩, ?_⟩
        intro value member
        rcases List.mem_cons.mp member with rfl | later
        · exact ⟨above, inside.2, home⟩
        · obtain ⟨larger, bounded, owner⟩ := members value later
          exact ⟨above.trans larger, bounded, owner⟩

theorem blockContainsP_mem {reference : Nat} : ∀ (fuel current : Nat),
    arena.blockContainsP reference fuel current = true →
      reference ∈ arena.blockValuesFrom fuel current := by
  intro fuel
  induction fuel with
  | zero =>
      intro current contains
      cases contains
  | succ fuel ih =>
      intro current contains
      simp only [blockContainsP, Bool.and_eq_true, Bool.or_eq_true, bne_iff_ne, beq_iff_eq] at contains
      obtain ⟨present, here | later⟩ := contains
      · rw [blockValuesFrom, if_neg present, here]
        exact List.mem_cons_self
      · rw [blockValuesFrom, if_neg present]
        exact List.mem_cons_of_mem _ (ih _ later)

/-- In a sorted list, smaller elements stand earlier. -/
theorem position_lt_of_pairwise {values : List Nat} (sorted : values.Pairwise (· < ·))
    {first second value parent : Nat} (atFirst : values[first]? = some value)
    (atSecond : values[second]? = some parent) (smaller : value < parent) : first < second := by
  obtain ⟨firstInside, rfl⟩ := List.getElem?_eq_some_iff.mp atFirst
  obtain ⟨secondInside, rfl⟩ := List.getElem?_eq_some_iff.mp atSecond
  by_contra later
  rcases Nat.lt_or_eq_of_le (Nat.le_of_not_lt later) with before | same
  · have := List.pairwise_iff_getElem.mp sorted second first secondInside firstInside before
    omega
  · subst same
    exact Nat.lt_irrefl _ smaller

/-! ## Dominance -/

theorem mem_successors {block next : Nat} : next ∈ arena.successors block ↔
    next ≠ 0 ∧ (next = (arena.blocks block).targetLeft ∨ next = (arena.blocks block).targetRight) := by
  simp only [successors, List.mem_filter, List.mem_cons, List.not_mem_nil, or_false, bne_iff_ne]
  exact and_comm

theorem edgeP_eq_true {predecessor successor : Nat} (present : successor ≠ 0) :
    arena.edgeP predecessor successor = true ↔ successor ∈ arena.successors predecessor := by
  rw [mem_successors]
  simp only [edgeP, Bool.or_eq_true, beq_iff_eq, present, ne_eq, not_false_eq_true, true_and]
  exact ⟨fun edge => edge.imp Eq.symm Eq.symm, fun edge => edge.imp Eq.symm Eq.symm⟩

/-- The search of the verifier is a depth-first search around the excluded block. -/
theorem reachesWithout_eq_search {target excluded : Nat} (differs : target ≠ excluded) :
    ∀ (depth block : Nat) (visited : Finset Nat), block ≠ 0 →
    arena.reachesWithout target excluded depth block visited =
      search arena.successors (fun node => node != excluded) target depth block visited := by
  intro depth
  induction depth with
  | zero => exact fun _ _ _ => rfl
  | succ depth ih =>
      intro block visited nonzero
      have stop (visited : Finset Nat) :
          arena.reachesWithout target excluded depth 0 visited = (false, visited) := by
        cases depth <;> rfl
      unfold reachesWithout search
      rw [if_neg nonzero]
      by_cases barred : block = excluded
      · subst barred
        rw [if_pos rfl, if_neg (Ne.symm differs), if_pos (.inr (bne_self_eq_false _))]
      · rw [if_neg barred]
        by_cases found : block = target
        · rw [if_pos found, if_pos found]
        · rw [if_neg found, if_neg found]
          have admissible : ¬(block != excluded) = false := by simpa using barred
          by_cases old : block ∈ visited
          · rw [if_pos old, if_pos (.inl old)]
          · rw [if_neg old, if_neg (not_or.mpr ⟨old, admissible⟩)]
            simp only [successors]
            generalize (arena.blocks block).targetLeft = left
            generalize (arena.blocks block).targetRight = right
            by_cases noLeft : left = 0 <;> by_cases noRight : right = 0
            · simp only [noLeft, noRight, stop, List.filter_cons, List.filter_nil, searchAll,
                bne_self_eq_false, Bool.false_eq_true, ↓reduceIte]
            · simp only [noLeft, stop, ih right _ noRight, List.filter_cons, List.filter_nil,
                searchAll, bne_self_eq_false, Bool.false_eq_true, ↓reduceIte,
                bne_iff_ne, ne_eq, noRight, not_false_eq_true]
              split
              · rename_i success
                exact Prod.ext success rfl
              · rename_i failure
                exact Prod.ext (by simpa using failure) rfl
            · simp only [noRight, stop, ih left _ noLeft, List.filter_cons, List.filter_nil,
                searchAll, bne_self_eq_false, Bool.false_eq_true, ↓reduceIte,
                bne_iff_ne, ne_eq, noLeft, not_false_eq_true]
            · simp only [ih left _ noLeft, ih right _ noRight, List.filter_cons, List.filter_nil,
                searchAll, bne_iff_ne, ne_eq, noLeft, noRight, not_false_eq_true, ↓reduceIte]
              split
              · rfl
              · split
                · rename_i success
                  exact Prod.ext success rfl
                · rename_i failure
                  exact Prod.ext (by simpa using failure) rfl

/-- What the verifier establishes of the shape of an accepted arena. -/
structure Shaped (arena : SsaArena) : Prop where
  entered : 1 ≤ arena.blockCount
  terminators : ∀ block, 1 ≤ block → block ≤ arena.blockCount →
    arena.verifyTerminatorShape (arena.blocks block) = true
  lists : ∀ block, 1 ≤ block → block ≤ arena.blockCount →
    arena.verifyBlockList block (arena.valueCount + 1) (arena.blocks block).first 0 = true

variable (shaped : Shaped arena)

include shaped in
theorem Shaped.successor_bounds {block next : Nat} (lower : 1 ≤ block)
    (upper : block ≤ arena.blockCount) (edge : next ∈ arena.successors block) :
    1 ≤ next ∧ next ≤ arena.blockCount := by
  obtain ⟨nonzero, target⟩ := mem_successors.mp edge
  have shape := shaped.terminators block lower upper
  refine ⟨Nat.pos_of_ne_zero nonzero, ?_⟩
  unfold verifyTerminatorShape at shape
  split at shape
  · simp only [Bool.and_eq_true, beq_iff_eq] at shape
    omega
  · simp only [Bool.and_eq_true, beq_iff_eq, irReferenceP_eq_true] at shape
    omega
  · simp only [Bool.and_eq_true, beq_iff_eq, irReferenceP_eq_true] at shape
    omega
  · cases shape

include shaped in
theorem Shaped.visited_bounds {context : CompileContext} {block : Nat}
    (visited : (arena.graph context).Visited block) : 1 ≤ block ∧ block ≤ arena.blockCount := by
  have path := exists_trail_iff.mp visited
  induction path with
  | refl => exact ⟨le_rfl, shaped.entered⟩
  | tail before edge ih =>
      obtain ⟨lower, upper⟩ := ih (exists_trail_iff.mpr before)
      exact shaped.successor_bounds lower upper edge

include shaped in
theorem Shaped.reachedWithoutP_iff {target excluded : Nat} (differs : target ≠ excluded) :
    arena.reachedWithoutP target excluded = true ↔
      PathVia arena.successors (fun node => node != excluded) 1 target := by
  unfold reachedWithoutP
  rw [reachesWithout_eq_search differs _ _ _ Nat.one_ne_zero]
  have closed : ∀ node ∈ Finset.Icc 1 arena.blockCount, (node != excluded) = true →
      ∀ next ∈ arena.successors node, next ∈ Finset.Icc 1 arena.blockCount := by
    intro node member _ next edge
    rw [Finset.mem_Icc] at member ⊢
    exact shaped.successor_bounds member.1 member.2 edge
  refine search_eq_true_iff closed ?_ ?_
  · rw [Finset.mem_Icc]
    exact ⟨le_rfl, shaped.entered⟩
  · rw [Nat.card_Icc]
    omega

include shaped in
/-- The search decides dominance. -/
theorem Shaped.dominatesP_dominates {definition use : Nat}
    (dominates : arena.dominatesP definition use = true) :
    Dominates arena.successors 1 definition use := by
  by_cases same : definition = use
  · rw [same]
    exact Dominates.refl use
  · have blocked : ¬PathVia arena.successors (fun node => node != definition) 1 use := by
      rw [← shaped.reachedWithoutP_iff (Ne.symm same)]
      simpa [dominatesP, same] using dominates
    exact (dominates_iff_not_path (fun node => by simp) (Ne.symm same)).mpr blocked

/-! ## Uses -/

/-- A value is defined in a block that dominates another, with a smaller reference than its use. -/
def Usable (arena : SsaArena) (reference parent block : Nat) : Prop :=
  1 ≤ reference ∧ reference < parent ∧
    Dominates arena.successors 1 (arena.values reference).block block

include shaped in
theorem Shaped.verifyUse_usable {reference parent block : Nat} (present : reference ≠ 0)
    (verified : arena.verifyUse reference parent block = true) :
    arena.Usable reference parent block := by
  simp only [verifyUse, Bool.or_eq_true, beq_iff_eq, present, Bool.and_eq_true, decide_eq_true_eq,
    false_or] at verified
  exact ⟨Nat.pos_of_ne_zero present, verified.1, shaped.dominatesP_dominates verified.2⟩

theorem Usable.trans {reference middle parent block : Nat}
    (first : arena.Usable reference middle (arena.values middle).block)
    (second : arena.Usable middle parent block) : arena.Usable reference parent block :=
  ⟨first.1, first.2.1.trans second.2.1, first.2.2.trans second.2.2⟩

/-- What the verifier establishes of an accepted arena. -/
structure Accepted (context : CompileContext) (arena : SsaArena) : Prop where
  shaped : Shaped arena
  values : ∀ reference, 1 ≤ reference → reference ≤ arena.valueCount →
    ssaVerifyValue context arena reference = true
  terminals : ∀ block, 1 ≤ block → block ≤ arena.blockCount →
    ssaVerifyTerminalType context arena block = true

end SsaArena

open SsaArena

section Accepted

variable {context : CompileContext} {arena : SsaArena}

theorem ssaVerifyFunction_accepted (verified : ssaVerifyFunction context arena = true) :
    Accepted context arena := by
  simp only [ssaVerifyFunction, Bool.and_eq_true, irReferenceP_eq_true, SsaArena.verifyBlocks,
    ssaVerifyReachableBlocks, checkUpTo_eq_true] at verified
  obtain ⟨⟨⟨⟨-, blockBounds⟩, blocks⟩, values⟩, reachable⟩ := verified
  refine ⟨⟨blockBounds.1, ?_, ?_⟩, values, ?_⟩
  · exact fun block lower upper => (blocks block lower upper).1
  · exact fun block lower upper => (blocks block lower upper).2
  · exact fun block lower upper => (reachable block lower upper).2

/-- The checks of one value. -/
structure ValueChecks (context : CompileContext) (arena : SsaArena) (reference : Nat) : Prop where
  block : 1 ≤ (arena.values reference).block ∧ (arena.values reference).block ≤ arena.blockCount
  listed : reference ∈ arena.blockValues (arena.values reference).block
  operands : irOpOperandsP (arena.values reference).toScalarOp (reference - 1) = true
  catalogue : arena.catalogMatchesP reference (arena.values reference) = true
  edges : arena.verifyValueEdges reference (arena.values reference) = true
  typed : irVerifyScalarType context arena.types (arena.values reference).toScalarOp = true

namespace SsaArena.Accepted

variable (accepted : Accepted context arena)

include accepted

theorem checks {reference : Nat} (lower : 1 ≤ reference) (upper : reference ≤ arena.valueCount) :
    ValueChecks context arena reference := by
  have verified := accepted.values reference lower upper
  simp only [ssaVerifyValue, Bool.and_eq_true, irReferenceP_eq_true] at verified
  obtain ⟨⟨⟨⟨⟨⟨⟨block, contains⟩, operands⟩, -⟩, catalogue⟩, edges⟩, typed⟩, -⟩ := verified
  exact ⟨block, blockContainsP_mem _ _ contains, operands, catalogue, edges, typed⟩

theorem mem_blockValues {block reference : Nat} (lower : 1 ≤ block)
    (upper : block ≤ arena.blockCount) (member : reference ∈ arena.blockValues block) :
    1 ≤ reference ∧ reference ≤ arena.valueCount ∧ (arena.values reference).block = block := by
  obtain ⟨-, members⟩ := verifyBlockList_list _ _ _ (accepted.shaped.lists block lower upper)
  obtain ⟨positive, bounded, home⟩ := members reference member
  exact ⟨positive, bounded, home⟩

theorem catalogue {reference : Nat} (lower : 1 ≤ reference) (upper : reference ≤ arena.valueCount) :
    (arena.types reference).kind = (arena.values reference).kind ∧
      (arena.types reference).sourceType = (arena.values reference).sourceType ∧
      ((arena.values reference).kind = .argumentLink →
        (arena.types reference).left = (arena.values reference).left ∧
        (arena.types reference).right = (arena.values reference).right) := by
  have matching := (accepted.checks lower upper).catalogue
  simp only [catalogMatchesP, Bool.and_eq_true, beq_iff_eq] at matching
  obtain ⟨⟨⟨kind, code⟩, pointee⟩, edges⟩ := matching
  refine ⟨kind.symm, ?_, ?_⟩
  · simp only [IrType.sourceType, ScalarOp.sourceType, code, pointee]
  · intro link
    simpa [catalogEdgesMatchP, link] using edges

/-- The left and right operands of a value that is not a phi are usable at the value. -/
theorem operand_usable {reference operand : Nat} (lower : 1 ≤ reference)
    (upper : reference ≤ arena.valueCount) (ordinary : (arena.values reference).kind ≠ .phi)
    (present : operand ≠ 0)
    (read : operand = (arena.values reference).left ∨ operand = (arena.values reference).right) :
    arena.Usable operand reference (arena.values reference).block := by
  have edges := (accepted.checks lower upper).edges
  simp only [verifyValueEdges, ordinary, ↓reduceIte, Bool.and_eq_true] at edges
  rcases read with rfl | rfl
  · exact accepted.shaped.verifyUse_usable present edges.1.2
  · exact accepted.shaped.verifyUse_usable present edges.2

/-- The arguments of a verified chain are usable wherever its first link is, and the chain that
the catalogue records is the chain of the values. -/
theorem chain_usable {signature : Signature} {parent block : Nat}
    (bounded : parent ≤ arena.valueCount + 1) : ∀ (remaining chain : Nat),
    irVerifyArgumentChain context arena.types signature chain remaining = true →
    (chain ≠ 0 → arena.Usable chain parent block) →
    chainArguments (fun link => (arena.types link).left) (fun link => (arena.types link).right)
        chain remaining =
      chainArguments (fun link => (arena.values link).left) (fun link => (arena.values link).right)
        chain remaining ∧
    ∀ argument ∈ chainArguments (fun link => (arena.values link).left)
      (fun link => (arena.values link).right) chain remaining,
      arena.Usable argument parent block := by
  intro remaining
  induction remaining with
  | zero =>
      intro chain _ _
      exact ⟨rfl, fun _ member => (List.not_mem_nil member).elim⟩
  | succ remaining ih =>
      intro chain verified usable
      simp only [irVerifyArgumentChain, Bool.and_eq_true, bne_iff_ne, beq_iff_eq] at verified
      obtain ⟨⟨⟨present, link⟩, -⟩, rest⟩ := verified
      have here := usable present
      have upper : chain ≤ arena.valueCount := by have := here.2.1; omega
      obtain ⟨kind, -, ends⟩ := accepted.catalogue here.1 upper
      have isLink : (arena.values chain).kind = .argumentLink := kind.symm.trans link
      obtain ⟨left, right⟩ := ends isLink
      have ordinary : (arena.values chain).kind ≠ .phi := by rw [isLink]; exact Kind.noConfusion
      have shape := (accepted.checks here.1 upper).operands
      simp only [irOpOperandsP, isLink, Kind.irLeafKindP, Kind.irUnaryKindP, Kind.irBinaryKindP,
        Bool.false_eq_true, ↓reduceIte, Bool.and_eq_true, irReferenceP_eq_true] at shape
      have next : (arena.values chain).right ≠ 0 →
          arena.Usable (arena.values chain).right parent block := fun nonzero =>
        (accepted.operand_usable here.1 upper ordinary nonzero (.inr rfl)).trans here
      rw [right] at rest
      obtain ⟨same, others⟩ := ih _ rest next
      refine ⟨by simp only [chainArguments, left, right, same], ?_⟩
      intro argument member
      rcases List.mem_cons.mp member with rfl | later
      · exact (accepted.operand_usable here.1 upper ordinary (by omega) (.inl rfl)).trans here
      · exact others argument later

/-- A call's arguments are usable at the call. -/
theorem callArguments_usable {reference : Nat} (lower : 1 ≤ reference)
    (upper : reference ≤ arena.valueCount) (isCall : (arena.values reference).kind = .call) :
    chainArguments (fun link => (arena.types link).left) (fun link => (arena.types link).right)
        (arena.values reference).left
        (context.signatureAt ((arena.values reference).target - 1)).arity =
      arena.callArguments context (arena.values reference).toScalarOp ∧
    ∀ argument ∈ arena.callArguments context (arena.values reference).toScalarOp,
      arena.Usable argument reference (arena.values reference).block := by
  have typed := (accepted.checks lower upper).typed
  simp only [irVerifyScalarType, isCall, irVerifyCallType, irVerifyCallTypeChecked,
    Bool.and_eq_true] at typed
  obtain ⟨-, -, ⟨-, chain⟩, -⟩ := typed
  have ordinary : (arena.values reference).kind ≠ .phi := by rw [isCall]; exact Kind.noConfusion
  exact accepted.chain_usable (by omega) _ _ chain fun present =>
    accepted.operand_usable lower upper ordinary present (.inl rfl)

/-- Everything that a value other than a phi reads is usable at the value. -/
theorem operands_usable {reference operand : Nat} (lower : 1 ≤ reference)
    (upper : reference ≤ arena.valueCount) (ordinary : (arena.values reference).kind ≠ .phi)
    (member : operand ∈ arena.operands context (arena.values reference).toScalarOp) :
    arena.Usable operand reference (arena.values reference).block := by
  rcases List.mem_append.mp member with direct | argument
  · simp only [List.mem_filter, List.mem_cons, List.not_mem_nil, or_false, bne_iff_ne] at direct
    exact accepted.operand_usable lower upper ordinary direct.2 direct.1
  · split at argument
    · rename_i isCall
      exact (accepted.callArguments_usable lower upper isCall).2 operand argument
    · exact (List.not_mem_nil argument).elim

/-- The reference behind an item of the graph. -/
theorem item_reference {block position : Nat} {item : Item SourceType}
    (visited : (arena.graph context).Visited block)
    (fetched : ((arena.graph context).items block)[position]? = some item) :
    ∃ reference, (arena.blockValues block)[position]? = some reference ∧
      arena.item context reference = item ∧ 1 ≤ reference ∧ reference ≤ arena.valueCount ∧
      (arena.values reference).block = block := by
  obtain ⟨lower, upper⟩ := accepted.shaped.visited_bounds visited
  simp only [SsaArena.graph, List.getElem?_map] at fetched
  obtain ⟨reference, found, same⟩ := Option.map_eq_some_iff.mp fetched
  exact ⟨reference, found, same, accepted.mem_blockValues lower upper (List.mem_of_getElem? found)⟩

theorem site {reference : Nat} (lower : 1 ≤ reference) (upper : reference ≤ arena.valueCount) :
    ∃ place, (arena.blockValues (arena.values reference).block)[place]? = some reference ∧
      (arena.graph context).Site reference (arena.values reference).block place := by
  obtain ⟨place, found⟩ := List.getElem?_of_mem (accepted.checks lower upper).listed
  refine ⟨place, found, arena.item context reference, ?_, rfl⟩
  simp only [SsaArena.graph, List.getElem?_map, found, Option.map_some]

theorem site_unique {value block position other place : Nat}
    (visited : (arena.graph context).Visited block)
    (otherVisited : (arena.graph context).Visited other)
    (first : (arena.graph context).Site value block position)
    (second : (arena.graph context).Site value other place) : block = other ∧ position = place := by
  obtain ⟨item, fetched, rfl⟩ := first
  obtain ⟨item', fetched', same⟩ := second
  obtain ⟨reference, here, rfl, -, -, home⟩ := accepted.item_reference visited fetched
  obtain ⟨reference', there, rfl, -, -, home'⟩ := accepted.item_reference otherVisited fetched'
  have equal : reference' = reference := same
  subst equal
  have blocks : block = other := home.symm.trans home'
  subst blocks
  obtain ⟨lower, upper⟩ := accepted.shaped.visited_bounds visited
  obtain ⟨sorted, -⟩ := verifyBlockList_list _ _ _ (accepted.shaped.lists block lower upper)
  have distinct : (arena.blockValues block).Nodup := sorted.imp fun less => Nat.ne_of_lt less
  exact ⟨rfl, (List.getElem?_inj (List.getElem?_eq_some_iff.mp here).1 distinct).mp
    (here.trans there.symm)⟩

/-- A usable value is defined before the place of its use. -/
theorem definedBefore {operand parent block position : Nat} (lower : 1 ≤ block)
    (upper : block ≤ arena.blockCount) (usable : arena.Usable operand parent block)
    (bounded : parent ≤ arena.valueCount + 1)
    (place : (arena.blockValues block)[position]? = some parent ∨
      position = (arena.blockValues block).length) :
    (arena.graph context).DefinedBefore operand block position := by
  obtain ⟨positive, smaller, dominates⟩ := usable
  obtain ⟨home, found, defined⟩ := accepted.site positive (by omega)
  refine ⟨_, home, defined, ?_⟩
  by_cases same : (arena.values operand).block = block
  · rw [same] at found
    refine .inl ⟨same, ?_⟩
    rcases place with atParent | atEnd
    · obtain ⟨sorted, -⟩ := verifyBlockList_list _ _ _ (accepted.shaped.lists block lower upper)
      exact position_lt_of_pairwise sorted found atParent smaller
    · rw [atEnd]
      exact (List.getElem?_eq_some_iff.mp found).1
  · exact .inr ⟨same, dominates⟩

/-- A phi has an input for every edge into its block. -/
theorem phi_edge {reference predecessor : Nat} (lower : 1 ≤ reference)
    (upper : reference ≤ arena.valueCount) (isPhi : (arena.values reference).kind = .phi)
    (from1 : 1 ≤ predecessor) (toCount : predecessor ≤ arena.blockCount)
    (edge : (arena.values reference).block ∈ arena.successors predecessor) :
    ∃ input, (phiInputs (arena.values reference)).lookup predecessor = some input ∧
      (input = (arena.values reference).left ∨ input = (arena.values reference).right) ∧
      arena.Usable input reference predecessor := by
  have checks := accepted.checks lower upper
  have edges := checks.edges
  simp only [verifyValueEdges, isPhi, ↓reduceIte, verifyPhi, Bool.and_eq_true, bne_iff_ne,
    beq_iff_eq, irReferenceP_eq_true] at edges
  obtain ⟨-, ⟨⟨⟨⟨⟨⟨leftBounds, rightBounds⟩, differs⟩, count⟩, leftEdge⟩, rightEdge⟩, useLeft⟩,
    useRight⟩ := edges
  have left := irOpOperandsP_left checks.operands (by rw [isPhi]; rfl)
    (by rw [isPhi]; exact Kind.noConfusion)
  have right := irOpOperandsP_right checks.operands (by rw [isPhi]; rfl)
  have present : (arena.values reference).block ≠ 0 := Nat.ne_of_gt checks.block.1
  by_cases fromLeft : predecessor = (arena.values reference).predecessorLeft
  · refine ⟨_, ?_, .inl rfl, ?_⟩
    · simp only [phiInputs, fromLeft, List.lookup_cons_self]
    · rw [fromLeft]
      exact accepted.shaped.verifyUse_usable (by omega) useLeft
  · by_cases fromRight : predecessor = (arena.values reference).predecessorRight
    · refine ⟨_, ?_, .inr rfl, ?_⟩
      · have skip : ((arena.values reference).predecessorRight ==
            (arena.values reference).predecessorLeft) = false :=
          beq_eq_false_iff_ne.mpr (Ne.symm differs)
        simp only [phiInputs, List.lookup_cons, fromRight, skip, beq_self_eq_true]
      · rw [fromRight]
        exact accepted.shaped.verifyUse_usable (by omega) useRight
    · -- A third predecessor would contradict the count of two.
      have inside : ({predecessor, (arena.values reference).predecessorLeft,
          (arena.values reference).predecessorRight} : Finset Nat) ⊆
          ((List.range' 1 arena.blockCount).filter fun index =>
            arena.edgeP index (arena.values reference).block).toFinset := by
        intro block member
        simp only [Finset.mem_insert, Finset.mem_singleton] at member
        simp only [List.mem_toFinset, List.mem_filter, List.mem_range'_1]
        rcases member with rfl | rfl | rfl
        · exact ⟨by omega, (edgeP_eq_true present).mpr edge⟩
        · exact ⟨by omega, leftEdge⟩
        · exact ⟨by omega, rightEdge⟩
      have three : ({predecessor, (arena.values reference).predecessorLeft,
          (arena.values reference).predecessorRight} : Finset Nat).card = 3 :=
        Finset.card_eq_three.mpr ⟨_, _, _, fromLeft, fromRight, differs, rfl⟩
      have two := Finset.card_le_card inside
      rw [three, incomingCount, List.countP_eq_length_filter] at *
      have bound := List.toFinset_card_le ((List.range' 1 arena.blockCount).filter fun index =>
        arena.edgeP index (arena.values reference).block)
      omega

theorem terminal_usable {block operand : Nat} (lower : 1 ≤ block)
    (upper : block ≤ arena.blockCount) (member : operand ∈ terminalOperands (arena.blocks block)) :
    operand ≤ arena.valueCount ∧ arena.Usable operand (arena.valueCount + 1) block := by
  have shape := accepted.shaped.terminators block lower upper
  have terminal := accepted.terminals block lower upper
  unfold terminalOperands at member
  unfold verifyTerminatorShape at shape
  unfold ssaVerifyTerminalType at terminal
  cases kind : (arena.blocks block).terminator with
  | ret =>
      rw [kind] at member
      simp only [kind, Bool.and_eq_true, irReferenceP_eq_true] at shape
      rw [List.mem_singleton.mp member]
      simp only [kind, ↓reduceIte, Bool.or_eq_true, beq_iff_eq, Bool.and_eq_true] at terminal
      rcases terminal with absent | ⟨dominates, -⟩
      · omega
      · exact ⟨by omega, by omega, by omega, accepted.shaped.dominatesP_dominates dominates⟩
  | branch =>
      rw [kind] at member
      simp only [kind, Bool.and_eq_true, irReferenceP_eq_true] at shape
      rw [List.mem_singleton.mp member]
      simp only [kind, reduceCtorEq, ↓reduceIte, Bool.or_eq_true, beq_iff_eq,
        Bool.and_eq_true] at terminal
      rcases terminal with absent | ⟨dominates, -⟩
      · omega
      · exact ⟨by omega, by omega, by omega, accepted.shaped.dominatesP_dominates dominates⟩
  | _ =>
      rw [kind] at member
      exact (List.not_mem_nil member).elim

/-- In an accepted arena, definitions dominate their uses. -/
theorem verified : (arena.graph context).Verified := by
  refine ⟨fun visited other => accepted.site_unique visited other, ?_, ?_, ?_⟩
  · intro block position item operands visited fetched plain value member
    obtain ⟨reference, found, rfl, lower, upper, rfl⟩ := accepted.item_reference visited fetched
    obtain ⟨blockLower, blockUpper⟩ := accepted.shaped.visited_bounds visited
    unfold SsaArena.item at plain
    split at plain
    · cases plain
    · rename_i ordinary
      cases plain
      exact accepted.definedBefore blockLower blockUpper
        (accepted.operands_usable lower upper ordinary member) (by omega) (.inl found)
  · intro block position predecessor item inputs visited edge fetched isPhi
    have reached : (arena.graph context).Visited block := by
      obtain ⟨earlier, trail⟩ := visited
      exact ⟨_, trail.extend edge⟩
    obtain ⟨reference, found, rfl, lower, upper, rfl⟩ := accepted.item_reference reached fetched
    obtain ⟨blockLower, blockUpper⟩ := accepted.shaped.visited_bounds visited
    unfold SsaArena.item at isPhi
    split at isPhi
    · rename_i kind
      cases isPhi
      obtain ⟨input, looked, -, positive, smaller, dominates⟩ :=
        accepted.phi_edge lower upper kind blockLower blockUpper edge
      obtain ⟨place, -, defined⟩ := accepted.site positive (by omega)
      exact ⟨input, _, place, looked, defined, dominates⟩
    · cases isPhi
  · intro block visited value member
    obtain ⟨lower, upper⟩ := accepted.shaped.visited_bounds visited
    simp only [SsaArena.graph, List.length_map]
    exact accepted.definedBefore lower upper (accepted.terminal_usable lower upper member).2
      le_rfl (.inr rfl)

/-- An available value carries its catalogued type. -/
theorem carries {assigned : Nat → Option SourceType} {value : Nat} (lower : 1 ≤ value)
    (upper : value ≤ arena.valueCount)
    (available : (arena.graph context).Available assigned value) :
    assigned value = some (arena.types value).sourceType := by
  obtain ⟨block, item, member, rfl, holds⟩ := available
  simp only [SsaArena.graph, List.mem_map] at member
  obtain ⟨reference, -, rfl⟩ := member
  rw [holds, (accepted.catalogue lower upper).2.1]
  rfl

/-- An available operand of an ordinary value carries its catalogued type. -/
theorem operand_carries {assigned : Nat → Option SourceType} {reference operand : Nat}
    (lower : 1 ≤ reference) (upper : reference ≤ arena.valueCount)
    (ordinary : (arena.values reference).kind ≠ .phi)
    (member : operand ∈ arena.operands context (arena.values reference).toScalarOp)
    (available : ∀ value ∈ arena.operands context (arena.values reference).toScalarOp,
      (arena.graph context).Available assigned value) :
    assigned operand = some (arena.types operand).sourceType := by
  obtain ⟨positive, smaller, -⟩ := accepted.operands_usable lower upper ordinary member
  exact accepted.carries positive (by omega) (available operand member)

/-- A value whose operands are available is typed. -/
theorem operandsTyped {assigned : Nat → Option SourceType} {reference : Nat}
    (lower : 1 ≤ reference) (upper : reference ≤ arena.valueCount)
    (ordinary : (arena.values reference).kind ≠ .phi)
    (available : ∀ value ∈ arena.operands context (arena.values reference).toScalarOp,
      (arena.graph context).Available assigned value) :
    OperandsTyped context assigned
      (arena.callArguments context (arena.values reference).toScalarOp)
      (arena.values reference).toScalarOp := by
  have checks := accepted.checks lower upper
  have direct {operand : Nat} (read : operand = (arena.values reference).left ∨
      operand = (arena.values reference).right) (present : operand ≠ 0) :
      assigned operand = some (arena.types operand).sourceType := by
    refine accepted.operand_carries lower upper ordinary ?_ available
    apply List.mem_append_left
    simp only [List.mem_filter, List.mem_cons, List.not_mem_nil, or_false, bne_iff_ne]
    exact ⟨read, present⟩
  by_cases isCall : (arena.values reference).kind = .call
  · have chain := (accepted.callArguments_usable lower upper isCall).1
    rw [← chain]
    refine irVerifyScalarType_typed checks.typed (fun other => (other isCall).elim) ?_ ?_
    · intro binary
      rw [isCall] at binary
      cases binary
    · intro _ argument member
      rw [chain] at member
      refine accepted.operand_carries lower upper ordinary ?_ available
      apply List.mem_append_right
      rw [if_pos isCall]
      exact member
  · have left (notLeaf : (arena.values reference).kind.irLeafKindP = false) :=
      (irOpOperandsP_left checks.operands notLeaf isCall).1
    have right (binary : (arena.values reference).kind.irBinaryKindP = true) :=
      (irOpOperandsP_right checks.operands binary).1
    exact (irVerifyScalarType_typed checks.typed
      (fun _ notLeaf => direct (.inl rfl) (Nat.ne_of_gt (left notLeaf)))
      (fun binary => direct (.inr rfl) (Nat.ne_of_gt (right binary)))
      (fun call => (isCall call).elim)).of_arguments isCall

theorem phiTyped {reference input : Nat} {assigned : Nat → Option SourceType}
    (lower : 1 ≤ reference) (upper : reference ≤ arena.valueCount)
    (isPhi : (arena.values reference).kind = .phi)
    (read : input = (arena.values reference).left ∨ input = (arena.values reference).right)
    (carried : assigned input = some (arena.types input).sourceType) :
    Holds assigned input (·.Same context (arena.values reference).sourceType) := by
  have typed := (accepted.checks lower upper).typed
  simp only [irVerifyScalarType, isPhi, irVerifyMemoryType, Bool.and_eq_true] at typed
  obtain ⟨-, ⟨-, left⟩, right⟩ := typed
  rcases read with rfl | rfl
  · exact ⟨_, carried, left⟩
  · exact ⟨_, carried, right⟩

/-- A state in which everything read next is assigned is also typed. -/
theorem safe_of_assigned {state : SsaGraph.State SourceType}
    (reached : (arena.graph context).Reached state) (assigned : (arena.graph context).Safe state) :
    arena.Safe context state := by
  obtain ⟨earlier, holds⟩ := accepted.verified.invariant reached
  have visited : (arena.graph context).Visited state.block := ⟨_, holds.trail⟩
  obtain ⟨blockLower, blockUpper⟩ := accepted.shaped.visited_bounds visited
  have fetch {reference : Nat}
      (found : (arena.blockValues state.block)[state.position]? = some reference) :
      ((arena.graph context).items state.block)[state.position]? =
        some (arena.item context reference) := by
    simp only [SsaArena.graph, List.getElem?_map, found, Option.map_some]
  refine ⟨assigned, ?_, ?_, ?_⟩
  · intro reference found ordinary
    obtain ⟨lower, upper, -⟩ :=
      accepted.mem_blockValues blockLower blockUpper (List.mem_of_getElem? found)
    refine accepted.operandsTyped lower upper ordinary ?_
    exact assigned.plain _ _ (fetch found) (by simp only [SsaArena.item, ordinary, ↓reduceIte])
  · intro reference found isPhi
    obtain ⟨lower, upper, home⟩ :=
      accepted.mem_blockValues blockLower blockUpper (List.mem_of_getElem? found)
    obtain ⟨predecessor, input, entered, looked, available⟩ :=
      assigned.phi _ (phiInputs (arena.values reference)) (fetch found)
        (by simp only [SsaArena.item, isPhi, ↓reduceIte])
    refine ⟨predecessor, input, entered, looked, ?_⟩
    obtain ⟨before, rest⟩ : ∃ before, Trail arena.successors 1 (predecessor :: before) ∧
        state.block ∈ arena.successors predecessor := by
      cases shape : earlier with
      | nil =>
          rw [holds.entered, shape] at entered
          cases entered
      | cons last before =>
          have trail := holds.trail
          rw [holds.entered, shape] at entered
          cases entered
          rw [shape] at trail
          exact ⟨before, trail.last_edge⟩
    have bounds := accepted.shaped.visited_bounds
      (show (arena.graph context).Visited predecessor from ⟨before, rest.1⟩)
    obtain ⟨other, found', read, positive, smaller, -⟩ :=
      accepted.phi_edge lower upper isPhi bounds.1 bounds.2 (home ▸ rest.2)
    rw [looked] at found'
    cases found'
    exact accepted.phiTyped lower upper isPhi read
      (accepted.carries positive (by omega) available)
  · intro finished
    have final := assigned.final (by simpa only [SsaArena.graph, List.length_map] using finished)
    have carried {operand : Nat} (member : operand ∈ terminalOperands (arena.blocks state.block)) :
        state.assigned operand = some (arena.types operand).sourceType := by
      obtain ⟨upper, positive, -⟩ := accepted.terminal_usable blockLower blockUpper member
      exact accepted.carries positive upper (final operand member)
    have shape := accepted.shaped.terminators state.block blockLower blockUpper
    have terminal := accepted.terminals state.block blockLower blockUpper
    unfold verifyTerminatorShape at shape
    unfold ssaVerifyTerminalType at terminal
    cases kind : (arena.blocks state.block).terminator with
    | ret =>
        simp only [kind, Bool.and_eq_true, irReferenceP_eq_true] at shape
        simp only [kind, ↓reduceIte, reduceCtorEq, Bool.or_eq_true, beq_iff_eq,
          Bool.and_eq_true] at terminal
        rcases terminal with absent | ⟨-, same⟩
        · omega
        · exact ⟨_, carried (by simp only [terminalOperands, kind, List.mem_singleton]), same⟩
    | branch =>
        simp only [kind, Bool.and_eq_true, irReferenceP_eq_true] at shape
        simp only [kind, ↓reduceIte, reduceCtorEq, Bool.or_eq_true, beq_iff_eq,
          Bool.and_eq_true] at terminal
        rcases terminal with absent | ⟨-, same⟩
        · omega
        · exact ⟨_, carried (by simp only [terminalOperands, kind, List.mem_singleton]), same⟩
    | _ => trivial

end SsaArena.Accepted

/-- In an accepted arena, every run from block 1 along every choice of edges reads only values
that it has assigned before, with the types their uses require, exactly when block 1 has no phi. -/
theorem ssaVerifyFunction_safe_iff (verified : ssaVerifyFunction context arena = true) :
    arena.ExecutionSafe context ↔ ¬arena.EntryPhi := by
  have accepted := ssaVerifyFunction_accepted verified
  have phiItem {reference : Nat} : (∃ inputs, (arena.item context reference).reads = .phi inputs) ↔
      (arena.values reference).kind = .phi := by
    unfold SsaArena.item
    by_cases isPhi : (arena.values reference).kind = .phi
    · simp only [isPhi, ↓reduceIte, Reads.phi.injEq, exists_eq']
    · simp only [isPhi, ↓reduceIte, reduceCtorEq, exists_false]
  have noPhi : (∀ item ∈ (arena.graph context).items (arena.graph context).entry, ∀ inputs,
      item.reads ≠ .phi inputs) ↔ ¬arena.EntryPhi := by
    constructor
    · rintro none ⟨reference, member, isPhi⟩
      obtain ⟨inputs, reads⟩ := phiItem.mpr isPhi
      exact none _ (List.mem_map_of_mem member) inputs reads
    · intro none item member inputs reads
      obtain ⟨reference, inside, rfl⟩ := List.mem_map.mp member
      exact none ⟨reference, inside, phiItem.mp ⟨inputs, reads⟩⟩
  rw [← noPhi, ← accepted.verified.safe_iff]
  constructor
  · exact fun safe state reached => (safe state reached).assigned
  · exact fun assigned state reached => accepted.safe_of_assigned reached (assigned state reached)

end Accepted

/-! ## A phi in the entry block -/

/-- A context without source types, signatures or data. -/
def plainContext : CompileContext where
  profile := 0
  parserCount := 1
  priorCount := 0
  dataCount := 0
  signatureAt _ := ⟨0, 0, 0, 0, 1, 0, fun _ => 0, fun _ => 0⟩
  signaturesError := 0
  parameterCount := 0
  parameterCapacity := 0
  currentSignature := ⟨0, 0, 0, 0, 1, 0, fun _ => 0, fun _ => 0⟩
  currentArity := 0
  currentParameterCode _ := 0
  astTypeEqualP _ _ := false
  pointerPointeeP _ := false
  aggregateTypeP _ := false
  syntaxCode _ := 0
  syntaxPointee _ := 0
  syntaxSize _ := 0
  pointerConstP _ := false
  pointerWithFlags _ _ := 0
  fieldCount := 0
  fieldAt _ := ⟨0, 0, 0⟩
  findField _ _ := 0
  dataImportType _ := 0
  runtimeSignatureP _ := false
  literalTargetP _ := false
  literalExtentP _ _ := false
  lambdaOriginP _ := false
  closureCallbackTargetP _ _ := false
  callAllocationFreeP _ := false

/-- An arena of some values and blocks, with the catalogue of the values. -/
def SsaArena.ofLists (values : List SsaValue) (blocks : List SsaBlock) : SsaArena where
  values reference := values.getD (reference - 1) {}
  types reference :=
    let value := values.getD (reference - 1) {}
    { kind := value.kind
      scalarCode := value.scalarCode
      pointee := value.pointee
      left := if value.kind = .argumentLink then value.left else 0
      right := if value.kind = .argumentLink then value.right else 0 }
  valueCount := values.length
  valueCapacity := values.length
  blocks reference := blocks.getD (reference - 1) {}
  blockCount := blocks.length
  blockCapacity := blocks.length

/-- Two loops around block 1, which joins their values in a phi. -/
def entryJoin : SsaArena :=
  .ofLists
    [{ kind := .literal, scalarCode := 1, value := 5, source := 1, block := 2 },
      { kind := .literal, scalarCode := 1, value := 7, source := 1, block := 3 },
      { kind := .phi, scalarCode := 1, left := 1, right := 2, source := 1, block := 1, next := 4,
        predecessorLeft := 2, predecessorRight := 3 },
      { kind := .booleanLiteral, value := 1, source := 1, block := 1 }]
    [{ first := 3, last := 4, terminator := .branch, condition := 4, targetLeft := 2,
       targetRight := 3 },
      { first := 1, last := 1, terminator := .jump, targetLeft := 1 },
      { first := 2, last := 2, terminator := .jump, targetLeft := 1 }]

/-- The verifier accepts an arena whose first value reads the input of no edge. -/
theorem entryJoin_unsafe : ssaVerifyFunction plainContext entryJoin = true ∧
    ¬entryJoin.ExecutionSafe plainContext := by
  refine ⟨by rfl, fun safe => ?_⟩
  obtain ⟨predecessor, -, entered, -⟩ :=
    (safe (entryJoin.graph plainContext).start .refl).phi 3 rfl rfl
  cases entered

/-- A conditional that joins the values of its arms in a block of its own. -/
def innerJoin : SsaArena :=
  .ofLists
    [{ kind := .booleanLiteral, value := 1, source := 1, block := 1 },
      { kind := .literal, scalarCode := 1, value := 5, source := 1, block := 2 },
      { kind := .literal, scalarCode := 1, value := 7, source := 1, block := 3 },
      { kind := .phi, scalarCode := 1, left := 2, right := 3, source := 1, block := 4,
        predecessorLeft := 2, predecessorRight := 3 }]
    [{ first := 1, last := 1, terminator := .branch, condition := 1, targetLeft := 2,
       targetRight := 3 },
      { first := 2, last := 2, terminator := .jump, targetLeft := 4 },
      { first := 3, last := 3, terminator := .jump, targetLeft := 4 },
      { first := 4, last := 4, terminator := .ret, result := 4 }]

theorem innerJoin_safe : ¬innerJoin.EntryPhi ∧ innerJoin.ExecutionSafe plainContext := by
  have noPhi : ¬innerJoin.EntryPhi := by
    rintro ⟨reference, member, isPhi⟩
    have only : innerJoin.blockValues 1 = [1] := rfl
    rw [only, List.mem_singleton] at member
    rw [member] at isPhi
    cases isPhi
  exact ⟨noPhi, (ssaVerifyFunction_safe_iff (by rfl)).mpr noPhi⟩

end Native
