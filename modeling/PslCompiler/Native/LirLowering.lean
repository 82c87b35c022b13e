import PslCompiler.Flow.Linearize
import PslCompiler.Native.LowerLir

/-! # What the lowering to LIR preserves

The emitted list lays out every block behind its label with its live values, and realises every
edge by copies in the order of the phis. It behaves like the SSA program as long as on no edge a
live phi reads a live phi that stands before it in the same block: the copy for the earlier one has
then already overwritten the value.
-/

namespace Native

open Flow SsaArena

/-! ## Emitted code -/

namespace LirArena

def append (lir : LirArena) (op : LirInstruction) : Option LirArena :=
  if lir.count < lir.capacity then
    some { lir with
      instructions := Function.update lir.instructions (lir.count + 1) op
      count := lir.count + 1 }
  else none

def appendAll (lir : LirArena) (code : List LirInstruction) : Option LirArena :=
  code.foldlM append lir

/-- An arena after some more code, which takes some labels. -/
structure Extends (lir after : LirArena) (more : List LirInstruction) (taken : Nat) : Prop where
  code : after.code = lir.code ++ more
  count : after.count = lir.count + more.length
  types : after.types = lir.types
  labels : after.labelCount = lir.labelCount + taken
  capacity : after.capacity = lir.capacity
  labelCapacity : after.labelCapacity = lir.labelCapacity

variable {lir after : LirArena}

theorem Extends.trans {middle : LirArena} {first second : List LirInstruction} {some more : Nat}
    (one : Extends lir middle first some) (two : Extends middle after second more) :
    Extends lir after (first ++ second) (some + more) := by
  refine ⟨?_, ?_, two.types.trans one.types, ?_, two.capacity.trans one.capacity,
    two.labelCapacity.trans one.labelCapacity⟩
  · rw [two.code, one.code, List.append_assoc]
  · rw [two.count, one.count, List.length_append, Nat.add_assoc]
  · rw [two.labels, one.labels, Nat.add_assoc]

theorem allocate_eq_append (kind : Kind) (destination left right target : Nat) :
    lir.allocate kind destination left right target = lir.append
      { kind := kind, left := left, right := right, target := target, destination := destination } :=
  rfl

theorem append_extends {op : LirInstruction} (appended : lir.append op = some after) :
    Extends lir after [op] 0 := by
  unfold append at appended
  split at appended
  · cases appended
    refine ⟨?_, rfl, rfl, rfl, rfl, rfl⟩
    have before : ∀ index ∈ List.range' 1 lir.count,
        Function.update lir.instructions (lir.count + 1) op index = lir.instructions index := by
      intro index member
      rw [List.mem_range'_1] at member
      exact Function.update_of_ne (by omega) _ _
    simp only [code, List.range'_concat, List.map_append, List.map_singleton, Nat.one_mul,
      Nat.add_comm 1, Function.update_self, List.map_congr_left before]
  · cases appended

theorem appendAll_extends : ∀ {code : List LirInstruction} {lir : LirArena},
    lir.appendAll code = some after → Extends lir after code 0 := by
  intro code
  induction code with
  | nil =>
      intro lir appended
      cases appended
      exact ⟨(List.append_nil _).symm, rfl, rfl, rfl, rfl, rfl⟩
  | cons op code ih =>
      intro lir appended
      unfold appendAll at appended
      rw [List.foldlM_cons, Option.bind_eq_bind, Option.bind_eq_some_iff] at appended
      obtain ⟨middle, first, rest⟩ := appended
      exact (append_extends first).trans (ih rest)

theorem appendAll_isSome : ∀ {code : List LirInstruction} {lir : LirArena},
    lir.count + code.length ≤ lir.capacity → ∃ after, lir.appendAll code = some after := by
  intro code
  induction code with
  | nil => exact fun _ => ⟨_, rfl⟩
  | cons op code ih =>
      intro lir room
      rw [List.length_cons] at room
      have appended : lir.append op = some { lir with
          instructions := Function.update lir.instructions (lir.count + 1) op
          count := lir.count + 1 } := if_pos (by omega)
      obtain ⟨after, rest⟩ := @ih { lir with
          instructions := Function.update lir.instructions (lir.count + 1) op
          count := lir.count + 1 } (by simpa [Nat.add_assoc, Nat.add_comm 1] using room)
      refine ⟨after, ?_⟩
      unfold appendAll
      rw [List.foldlM_cons, appended]
      exact rest

theorem appendAll_append (first second : List LirInstruction) :
    lir.appendAll (first ++ second) = (lir.appendAll first).bind (·.appendAll second) :=
  List.foldlM_append

theorem appendAll_cons (op : LirInstruction) (code : List LirInstruction) :
    lir.appendAll (op :: code) = (lir.append op).bind (·.appendAll code) :=
  List.foldlM_cons

theorem appendAll_singleton (op : LirInstruction) : lir.appendAll [op] = lir.append op := by
  rw [appendAll_cons]
  cases lir.append op <;> rfl

theorem allocate_recordType (kind : Kind) (destination left right target code pointee source : Nat) :
    (lir.allocate kind destination left right target).map (·.recordType code pointee source) =
      lir.append {
        kind := kind, scalarCode := code, pointee := pointee, left := left, right := right,
        target := target, source := source, destination := destination } := by
  unfold allocate append
  split
  · simp only [Option.map_some, recordType, Function.update_self, Function.update_idem]
  · rfl

end LirArena

section Emitted

variable (arena : SsaArena)

def valueCode (reference : Nat) : List LirInstruction :=
  let value := arena.values reference
  if value.live = 0 ∨ arena.assignedP reference = false then []
  else [{ toScalarOp := value.toScalarOp, destination := reference }]

def copyCode (predecessor reference : Nat) : List LirInstruction :=
  let value := arena.values reference
  if value.live = 0 then []
  else [{ kind := .copy, scalarCode := value.scalarCode, pointee := value.pointee,
          left := value.incoming predecessor, source := value.source, destination := reference }]

def labelCode (id : Nat) : LirInstruction := { kind := .label, target := id }

def edgeCode (predecessor successor : Nat) : List LirInstruction :=
  ((arena.blockValues successor).takeWhile arena.phiP).flatMap (copyCode arena predecessor) ++
    [{ kind := .jump, target := successor }]

def terminatorCode (index next : Nat) : List LirInstruction :=
  let block := arena.blocks index
  match block.terminator with
  | .jump => edgeCode arena index block.targetLeft
  | .branch =>
      { kind := .branch, left := block.condition, right := next + 1, target := next } ::
        labelCode next :: edgeCode arena index block.targetLeft ++
        labelCode (next + 1) :: edgeCode arena index block.targetRight
  | _ =>
      let type := arena.types block.result
      [{ kind := .ret, scalarCode := type.scalarCode, pointee := type.pointee,
         left := if type.scalarCode = 12 then 0 else block.result, source := 1 }]

/-- The code of a block whose edges take the labels from `next` on. -/
def blockCode (index next : Nat) : List LirInstruction :=
  labelCode index :: (arena.blockValues index).flatMap (valueCode arena) ++
    terminatorCode arena index next

/-- How many labels the edges of a block take. -/
def edgeLabels (index : Nat) : Nat :=
  if (arena.blocks index).terminator = .branch then 2 else 0

def blocksCode : List Nat → Nat → List LirInstruction
  | [], _ => []
  | index :: rest, next => blockCode arena index next ++ blocksCode rest (next + edgeLabels arena index)

end Emitted

section Lowering

variable {arena : SsaArena}

theorem lirLowerValue_eq (lir : LirArena) (reference : Nat) :
    lirLowerValue arena lir reference = lir.appendAll (valueCode arena reference) := by
  unfold lirLowerValue valueCode assignedP phiP
  by_cases dead : (arena.values reference).live = 0
  · simp only [dead, ↓reduceIte, true_or]
    rfl
  · by_cases isPhi : (arena.values reference).kind = .phi
    · simp only [dead, isPhi, ↓reduceIte, beq_self_eq_true, Bool.not_true, Bool.false_and, or_true]
      rfl
    · by_cases isLink : (arena.values reference).kind = .argumentLink
      · simp only [dead, isLink, ↓reduceIte, bne_self_eq_false, Bool.and_false, or_true,
          reduceCtorEq]
        rfl
      · have kept : (!(arena.values reference).kind == .phi &&
            (arena.values reference).kind != .argumentLink) = true := by simp [isPhi, isLink]
        simp only [dead, isPhi, isLink, kept, ↓reduceIte, Bool.true_eq_false, or_self,
          LirArena.appendAll_singleton]
        unfold LirArena.allocate LirArena.append
        split
        · simp only [Option.bind_eq_bind, Option.bind_some, LirArena.recordValue,
            LirArena.recordType, Function.update_self, Function.update_idem, Option.pure_def]
        · rfl

theorem lirLowerValues_eq {block : Nat} : ∀ (fuel reference previous : Nat) (lir : LirArena),
    arena.verifyBlockList block fuel reference previous = true →
    lirLowerValues arena fuel lir reference =
      lir.appendAll ((arena.blockValuesFrom fuel reference).flatMap (valueCode arena)) := by
  intro fuel
  induction fuel with
  | zero =>
      intro reference previous lir verified
      cases verified
  | succ fuel ih =>
      intro reference previous lir verified
      unfold verifyBlockList at verified
      unfold lirLowerValues blockValuesFrom
      by_cases ends : reference = 0
      · rw [if_pos ends, if_pos ends]
        rfl
      · rw [if_neg ends] at verified
        simp only [Bool.and_eq_true] at verified
        rw [if_neg ends, if_neg ends, List.flatMap_cons, LirArena.appendAll_append,
          lirLowerValue_eq]
        exact congrArg _ (funext fun after => ih _ _ after verified.2)

theorem lirLowerEdgeCopies_eq {block predecessor : Nat} :
    ∀ (fuel reference previous : Nat) (lir : LirArena),
    arena.verifyBlockList block fuel reference previous = true →
    lirLowerEdgeCopies arena predecessor fuel lir reference =
      lir.appendAll (((arena.blockValuesFrom fuel reference).takeWhile arena.phiP).flatMap
        (copyCode arena predecessor)) := by
  intro fuel
  induction fuel with
  | zero =>
      intro reference previous lir verified
      cases verified
  | succ fuel ih =>
      intro reference previous lir verified
      unfold verifyBlockList at verified
      by_cases ends : reference = 0
      · simp only [lirLowerEdgeCopies, blockValuesFrom, ends, ↓reduceIte]
        rfl
      · rw [if_neg ends] at verified
        simp only [Bool.and_eq_true] at verified
        have later := fun lir => ih _ _ lir verified.2
        by_cases isPhi : (arena.values reference).kind = .phi
        · have phi : arena.phiP reference = true := by simpa [phiP] using isPhi
          simp only [lirLowerEdgeCopies, blockValuesFrom, ends, isPhi, ↓reduceIte,
            List.takeWhile_cons, phi, List.flatMap_cons, LirArena.appendAll_append]
          by_cases dead : (arena.values reference).live = 0
          · simp only [dead, copyCode, ↓reduceIte, later]
            rfl
          · simp only [dead, copyCode, ↓reduceIte, LirArena.appendAll_singleton,
              ← LirArena.allocate_recordType, Option.bind_eq_bind, Option.bind_map]
            exact congrArg _ (funext fun after => later _)
        · have ordinary : arena.phiP reference = false := by simpa [phiP] using isPhi
          simp only [lirLowerEdgeCopies, blockValuesFrom, ends, isPhi, ↓reduceIte,
            List.takeWhile_cons, ordinary, Bool.false_eq_true]
          rfl

variable {context : CompileContext} (shaped : Shaped arena)

include shaped

theorem lirLowerEdge_eq {successor : Nat} (predecessor : Nat) (lower : 1 ≤ successor)
    (upper : successor ≤ arena.blockCount) (lir : LirArena) :
    lirLowerEdge arena lir predecessor successor =
      lir.appendAll (edgeCode arena predecessor successor) := by
  unfold lirLowerEdge edgeCode
  rw [LirArena.appendAll_append,
    lirLowerEdgeCopies_eq _ _ _ _ (shaped.lists successor lower upper)]
  refine congrArg _ (funext fun after => ?_)
  rw [LirArena.appendAll_singleton]
  rfl

theorem lirLowerTerminator_eq {index : Nat} (lower : 1 ≤ index) (upper : index ≤ arena.blockCount)
    {lir : LirArena} (types : lir.types = arena.types) :
    lirLowerTerminator arena lir index =
      if edgeLabels arena index ≠ 0 ∧ lir.labelCapacity < lir.labelCount + edgeLabels arena index
      then none
      else LirArena.appendAll { lir with labelCount := lir.labelCount + edgeLabels arena index }
        (terminatorCode arena index (lir.labelCount + 1)) := by
  have shape := shaped.terminators index lower upper
  unfold verifyTerminatorShape at shape
  cases kind : (arena.blocks index).terminator with
  | ret =>
      simp only [lirLowerTerminator, terminatorCode, edgeLabels, kind, reduceCtorEq, ↓reduceIte,
        ne_eq, not_true_eq_false, false_and, Nat.add_zero, LirArena.appendAll_singleton, ← types,
        ← LirArena.allocate_recordType]
      cases lir.allocate .ret 0 (if (lir.types (arena.blocks index).result).scalarCode = 12 then 0
        else (arena.blocks index).result) 0 0 <;> rfl
  | jump =>
      simp only [kind, Bool.and_eq_true, irReferenceP_eq_true] at shape
      simp only [lirLowerTerminator, terminatorCode, edgeLabels, kind, reduceCtorEq, ↓reduceIte,
        ne_eq, not_true_eq_false, false_and, Nat.add_zero]
      exact lirLowerEdge_eq shaped index shape.2.1 shape.2.2 lir
  | branch =>
      simp only [kind, Bool.and_eq_true, irReferenceP_eq_true] at shape
      obtain ⟨⟨-, left⟩, right⟩ := shape
      simp only [lirLowerTerminator, lirLowerBranchEdges, terminatorCode, edgeLabels, kind,
        ↓reduceIte, ne_eq, OfNat.ofNat_ne_zero, not_false_eq_true, true_and]
      split
      · rfl
      · simp only [List.cons_append, LirArena.appendAll_cons, LirArena.appendAll_append,
          lirLowerEdge_eq shaped index left.1 left.2, lirLowerEdge_eq shaped index right.1 right.2]
        rfl
  | unset => simp [kind] at shape
  | other number => simp [kind] at shape

theorem lirLowerBlock_eq {index : Nat} (lower : 1 ≤ index) (upper : index ≤ arena.blockCount)
    (lir : LirArena) :
    lirLowerBlock arena lir index =
      (lir.appendAll (labelCode index :: (arena.blockValues index).flatMap (valueCode arena))).bind
        fun after => lirLowerTerminator arena after index := by
  have values := fun after =>
    lirLowerValues_eq (arena.valueCount + 1) _ _ after (shaped.lists index lower upper)
  unfold lirLowerBlock
  simp only [values, LirArena.appendAll_cons, Option.bind_assoc]
  rfl

/-- A lowered block has its code appended. -/
theorem lirLowerBlock_extends {index : Nat} (lower : 1 ≤ index) (upper : index ≤ arena.blockCount)
    {lir after : LirArena} (types : lir.types = arena.types)
    (lowered : lirLowerBlock arena lir index = some after) :
    LirArena.Extends lir after (blockCode arena index (lir.labelCount + 1))
      (edgeLabels arena index) := by
  rw [lirLowerBlock_eq shaped lower upper, Option.bind_eq_some_iff] at lowered
  obtain ⟨middle, values, terminates⟩ := lowered
  have first := LirArena.appendAll_extends values
  rw [lirLowerTerminator_eq shaped lower upper (first.types.trans types)] at terminates
  split at terminates
  · cases terminates
  · have second := LirArena.appendAll_extends terminates
    have labels : middle.labelCount = lir.labelCount := first.labels
    rw [labels] at second
    have last : LirArena.Extends middle after (terminatorCode arena index (lir.labelCount + 1))
        (edgeLabels arena index) :=
      ⟨second.code, second.count, second.types, by rw [second.labels, labels]; rfl, second.capacity,
        second.labelCapacity⟩
    have both := first.trans last
    rwa [Nat.zero_add] at both

theorem lirLowerBlock_isSome {index : Nat} (lower : 1 ≤ index) (upper : index ≤ arena.blockCount)
    {lir : LirArena} (types : lir.types = arena.types)
    (room : lir.count + (blockCode arena index (lir.labelCount + 1)).length ≤ lir.capacity)
    (labels : lir.labelCount + edgeLabels arena index ≤ lir.labelCapacity) :
    ∃ after, lirLowerBlock arena lir index = some after := by
  unfold blockCode at room
  rw [List.length_append] at room
  obtain ⟨middle, values⟩ := @LirArena.appendAll_isSome
    (labelCode index :: (arena.blockValues index).flatMap (valueCode arena)) lir (by omega)
  have first := LirArena.appendAll_extends values
  have same : middle.labelCount = lir.labelCount := first.labels
  rw [lirLowerBlock_eq shaped lower upper, values]
  simp only [Option.bind_some]
  rw [lirLowerTerminator_eq shaped lower upper (first.types.trans types), if_neg]
  · refine LirArena.appendAll_isSome ?_
    simp only [same, first.count, first.capacity]
    omega
  · rw [same, first.labelCapacity]
    omega

theorem lirLowerBlocks_extends : ∀ {indexes : List Nat} {lir after : LirArena},
    (∀ index ∈ indexes, 1 ≤ index ∧ index ≤ arena.blockCount) → lir.types = arena.types →
    indexes.foldlM (lirLowerBlock arena) lir = some after →
    LirArena.Extends lir after (blocksCode arena indexes (lir.labelCount + 1))
      (indexes.map (edgeLabels arena)).sum := by
  intro indexes
  induction indexes with
  | nil =>
      intro lir after _ _ lowered
      cases lowered
      exact ⟨(List.append_nil _).symm, rfl, rfl, rfl, rfl, rfl⟩
  | cons index indexes ih =>
      intro lir after bounds types lowered
      obtain ⟨lower, upper⟩ := bounds index List.mem_cons_self
      rw [List.foldlM_cons, Option.bind_eq_bind, Option.bind_eq_some_iff] at lowered
      obtain ⟨middle, first, rest⟩ := lowered
      have one := lirLowerBlock_extends shaped lower upper types first
      have more := ih (fun other member => bounds other (List.mem_cons_of_mem _ member))
        (one.types.trans types) rest
      rw [one.labels, Nat.add_right_comm] at more
      exact one.trans more

theorem lirLowerBlocks_isSome : ∀ {indexes : List Nat} {lir : LirArena},
    (∀ index ∈ indexes, 1 ≤ index ∧ index ≤ arena.blockCount) → lir.types = arena.types →
    lir.count + (blocksCode arena indexes (lir.labelCount + 1)).length ≤ lir.capacity →
    lir.labelCount + (indexes.map (edgeLabels arena)).sum ≤ lir.labelCapacity →
    ∃ after, indexes.foldlM (lirLowerBlock arena) lir = some after := by
  intro indexes
  induction indexes with
  | nil => exact fun _ _ _ _ => ⟨_, rfl⟩
  | cons index indexes ih =>
      intro lir bounds types room labels
      obtain ⟨lower, upper⟩ := bounds index List.mem_cons_self
      simp only [blocksCode, List.length_append, List.map_cons, List.sum_cons] at room labels
      obtain ⟨middle, first⟩ := lirLowerBlock_isSome shaped lower upper types (by omega) (by omega)
      have one := lirLowerBlock_extends shaped lower upper types first
      rw [List.foldlM_cons, first]
      refine ih (fun other member => bounds other (List.mem_cons_of_mem _ member))
        (one.types.trans types) ?_ ?_
      · rw [one.labels, one.count, one.capacity, Nat.add_right_comm lir.labelCount]
        omega
      · rw [one.labels, one.labelCapacity]
        omega

omit shaped in
theorem blockValuesFrom_length : ∀ (fuel reference : Nat),
    (arena.blockValuesFrom fuel reference).length ≤ fuel := by
  intro fuel
  induction fuel with
  | zero => exact fun _ => le_rfl
  | succ fuel ih =>
      intro reference
      unfold blockValuesFrom
      split
      · exact Nat.zero_le _
      · exact Nat.succ_le_succ (ih _)

omit shaped in
theorem flatMap_length_le {emit : Nat → List LirInstruction}
    (small : ∀ reference, (emit reference).length ≤ 1) : ∀ references : List Nat,
    (references.flatMap emit).length ≤ references.length := by
  intro references
  induction references with
  | nil => exact le_rfl
  | cons reference references ih =>
      rw [List.flatMap_cons, List.length_append, List.length_cons]
      have := small reference
      omega

omit shaped in
theorem edgeCode_length (predecessor successor : Nat) :
    (edgeCode arena predecessor successor).length ≤ arena.valueCount + 2 := by
  have copies := @flatMap_length_le (copyCode arena predecessor)
    (fun reference => by simp only [copyCode]; split <;> simp)
    ((arena.blockValues successor).takeWhile arena.phiP)
  have shorter := (List.takeWhile_sublist arena.phiP (l := arena.blockValues successor)).length_le
  have values : (arena.blockValues successor).length ≤ arena.valueCount + 1 :=
    blockValuesFrom_length _ _
  unfold edgeCode
  rw [List.length_append, List.length_singleton]
  omega

omit shaped in
theorem blockCode_length (index next : Nat) :
    (blockCode arena index next).length ≤ 3 * arena.valueCount + 9 := by
  have assigns := @flatMap_length_le (valueCode arena)
    (fun reference => by simp only [valueCode]; split <;> simp) (arena.blockValues index)
  have values : (arena.blockValues index).length ≤ arena.valueCount + 1 :=
    blockValuesFrom_length _ _
  have left := @edgeCode_length arena index (arena.blocks index).targetLeft
  have right := @edgeCode_length arena index (arena.blocks index).targetRight
  unfold blockCode terminatorCode
  simp only [List.length_append, List.length_cons]
  split
  · omega
  · simp only [List.length_append, List.length_cons]
    omega
  · simp only [List.length_singleton]
    omega

omit shaped in
theorem blocksCode_length : ∀ (indexes : List Nat) (next : Nat),
    (blocksCode arena indexes next).length ≤ indexes.length * (3 * arena.valueCount + 9) := by
  intro indexes
  induction indexes with
  | nil => exact fun _ => Nat.zero_le _
  | cons index indexes ih =>
      intro next
      have first := @blockCode_length arena index next
      have rest := ih (next + edgeLabels arena index)
      rw [blocksCode, List.length_append, List.length_cons, Nat.succ_mul]
      omega

omit shaped in
theorem edgeLabels_sum (indexes : List Nat) :
    (indexes.map (edgeLabels arena)).sum ≤ 2 * indexes.length := by
  induction indexes with
  | nil => exact le_rfl
  | cons index indexes ih =>
      rw [List.map_cons, List.sum_cons, List.length_cons]
      have : edgeLabels arena index ≤ 2 := by unfold edgeLabels; split <;> omega
      omega

/-- Enough instructions and labels for any function of an arena's size. -/
theorem lirLowerBlocks_isSome_of_capacity {lir : LirArena}
    (instructions : arena.blockCount * (3 * arena.valueCount + 9) ≤ lir.capacity)
    (labels : 3 * arena.blockCount ≤ lir.labelCapacity) :
    ∃ after, lirLowerBlocks arena (lir.prepare arena) = some after := by
  have bounds : ∀ index ∈ List.range' 1 arena.blockCount, 1 ≤ index ∧ index ≤ arena.blockCount := by
    intro index member
    rw [List.mem_range'_1] at member
    omega
  have size := @blocksCode_length arena (List.range' 1 arena.blockCount)
    ((lir.prepare arena).labelCount + 1)
  have sum := @edgeLabels_sum arena (List.range' 1 arena.blockCount)
  rw [List.length_range'] at size sum
  refine lirLowerBlocks_isSome shaped bounds rfl ?_ ?_
  · refine le_trans ?_ instructions
    rw [show (lir.prepare arena).count = 0 from rfl, Nat.zero_add]
    exact size
  · refine le_trans ?_ labels
    rw [show (lir.prepare arena).labelCount = arena.blockCount from rfl]
    omega

end Lowering

end Native
