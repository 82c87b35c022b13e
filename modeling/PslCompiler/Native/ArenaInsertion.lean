import PslCompiler.Native.Inlining
import PslCompiler.Native.SsaSafety

/-! # Insertion into an arena

The list of an arena's values gets new values before one of them, which is replaced, and all
references are renamed to match (`SsaArena.insertBefore`). Inlining does this in place: it moves
the values up, renames them where they are, and writes into the room (`placeValues_reserved`).
-/

namespace Native

open Buffers

/-! ## Insertion into an arena -/

def SsaValue.rename (reference link : Nat → Nat) (value : SsaValue) : SsaValue :=
  { value with
    left := reference value.left, right := reference value.right, next := link value.next }

def SsaBlock.rename (reference link : Nat → Nat) (block : SsaBlock) : SsaBlock :=
  { block with
    first := link block.first, last := reference block.last
    condition := reference block.condition, result := reference block.result }

namespace SsaArena

def valueList (arena : SsaArena) : List SsaValue :=
  (List.range' 1 arena.valueCount).map arena.values

/-- The values of an arena after an insertion before a value, which is replaced. -/
def insertedValues (arena : SsaArena) (position : Nat) (inserted : List SsaValue)
    (replace : SsaValue → SsaValue) : List SsaValue :=
  let rename := SsaValue.rename (shiftReference position inserted.length)
    (enterReference position inserted.length)
  (arena.valueList.take (position - 1)).map rename ++ (inserted ++
    replace (rename (arena.values position)) :: (arena.valueList.drop position).map rename)

/-- Insert values before a value, which is replaced, and rename all references: a link that led to
the value leads to the first inserted one. -/
def insertBefore (arena : SsaArena) (position : Nat) (inserted : List SsaValue)
    (replace : SsaValue → SsaValue) : SsaArena :=
  let values := arena.insertedValues position inserted replace
  { arena with
    values := overwrite arena.values 1 values
    types := overwrite arena.types 1 (values.map SsaValue.irType)
    valueCount := arena.valueCount + inserted.length
    blocks := fun block =>
      if 1 ≤ block ∧ block ≤ arena.blockCount then
        (arena.blocks block).rename (shiftReference position inserted.length)
          (enterReference position inserted.length)
      else arena.blocks block }

/-- Store values from a place on. -/
def placeValues (arena : SsaArena) (start : Nat) (values : List SsaValue) : SsaArena :=
  { arena with
    values := overwrite arena.values start values
    types := overwrite arena.types start (values.map SsaValue.irType) }

theorem placeValues_nil (arena : SsaArena) (start : Nat) : arena.placeValues start [] = arena := by
  rw [placeValues, List.map_nil, overwrite_nil, overwrite_nil]

theorem placeValues_cons (arena : SsaArena) (start : Nat) (first : SsaValue)
    (rest : List SsaValue) : arena.placeValues start (first :: rest) =
      (arena.storeValue start first).placeValues (start + 1) rest := by
  rw [placeValues, List.map_cons, overwrite_cons, overwrite_cons]
  rfl

end SsaArena

/-! ## Making room -/

section Reserve

variable {arena : SsaArena} {position amount : Nat}

theorem ssaInlineShiftValue_eq (position amount : Nat) :
    ssaInlineShiftValue position amount =
      SsaValue.rename (shiftReference position amount) (enterReference position amount) := by
  funext value
  rw [ssaInlineShiftValue, SsaValue.rename, enterReference]
  by_cases enters : value.next = position
  · rw [if_pos enters, if_pos enters, enters]
  · rw [if_neg enters, if_neg enters]

theorem ssaInlineShiftBlock_eq (position amount : Nat) :
    ssaInlineShiftBlock position amount =
      SsaBlock.rename (shiftReference position amount) (enterReference position amount) := by
  funext block
  rw [ssaInlineShiftBlock, SsaBlock.rename, enterReference]
  by_cases enters : block.first = position
  · rw [if_pos enters, if_pos enters, enters]
  · rw [if_neg enters, if_neg enters]

/-- All values move to their shifted places and are renamed there, with their types recorded. -/
theorem ssaInlineShiftValues_eq (arena : SsaArena) (count position amount : Nat) :
    ssaInlineShiftValues arena count position amount =
      let places := (List.range' 1 count).map (shiftReference position amount)
      let rename := SsaValue.rename (shiftReference position amount)
        (enterReference position amount)
      { arena with
        values := fun place =>
          if place ∈ places then rename (arena.values place) else arena.values place
        types := fun place =>
          if place ∈ places then (rename (arena.values place)).irType else arena.types place } := by
  dsimp only
  have distinct : ((List.range' 1 count).map (shiftReference position amount)).Nodup :=
    List.Nodup.map (shiftReference_injective position amount) List.nodup_range'
  -- The loop changes a value and its type together.
  have changed := @foldl_change (SsaValue × IrType) SsaArena
    (fun cells => { arena with values := fun place => (cells place).1
                               types := fun place => (cells place).2 })
    (fun arena place =>
      arena.storeValue place (ssaInlineShiftValue position amount (arena.values place)))
    (fun cell => (ssaInlineShiftValue position amount cell.1,
      (ssaInlineShiftValue position amount cell.1).irType)) _ distinct
    (by
      intro cells place _
      unfold SsaArena.storeValue
      congr 1 <;> funext other <;> by_cases here : other = place
      · subst here
        rw [Function.update_self, Function.update_self]
      · rw [Function.update_of_ne here, Function.update_of_ne here]
      · subst here
        rw [Function.update_self, Function.update_self]
      · rw [Function.update_of_ne here, Function.update_of_ne here])
    fun place => (arena.values place, arena.types place)
  rw [List.foldl_map] at changed
  rw [ssaInlineShiftValues]
  refine changed.trans ?_
  rw [ssaInlineShiftValue_eq]
  congr 1 <;> funext place <;> dsimp only <;> split <;> rfl

theorem ssaInlineShiftBlocks_eq (arena : SsaArena) (position amount : Nat) :
    ssaInlineShiftBlocks arena position amount =
      { arena with
        blocks := fun block =>
          if 1 ≤ block ∧ block ≤ arena.blockCount then
            (arena.blocks block).rename (shiftReference position amount)
              (enterReference position amount)
          else arena.blocks block } := by
  have changed := @foldl_change SsaBlock SsaArena (fun blocks => { arena with blocks := blocks })
    (fun arena index => { arena with
      blocks := Function.update arena.blocks index
        (ssaInlineShiftBlock position amount (arena.blocks index)) })
    (ssaInlineShiftBlock position amount) (List.range' 1 arena.blockCount) List.nodup_range'
    (fun _ _ _ => rfl) arena.blocks
  rw [ssaInlineShiftBlocks]
  refine changed.trans ?_
  rw [ssaInlineShiftBlock_eq]
  congr 1
  funext block
  by_cases inside : 1 ≤ block ∧ block ≤ arena.blockCount
  · rw [if_pos inside, if_pos (List.mem_range'_1.mpr (by omega))]
  · rw [if_neg inside, if_neg fun member => inside (by
      have := List.mem_range'_1.mp member
      omega)]

/-- The values of an arena with room before a position. -/
theorem reserved_values (positive : 1 ≤ position) (upper : position ≤ arena.valueCount) (place : Nat) :
    (ssaInlineReserveValues arena position amount).values place =
      let rename := SsaValue.rename (shiftReference position amount)
        (enterReference position amount)
      if 1 ≤ place ∧ place < position then rename (arena.values place)
      else if position + amount ≤ place ∧ place ≤ arena.valueCount + amount then
        rename (arena.values (place - amount))
      else arena.values place := by
  unfold ssaInlineReserveValues
  dsimp only
  rw [ssaInlineShiftBlocks_eq, ssaInlineShiftValues_eq, ssaInlineMoveValues]
  dsimp only
  rw [moveUp_eq positive _ _ (by omega)]
  beta_reduce
  by_cases before : 1 ≤ place ∧ place < position
  · rw [if_pos before, if_pos (mem_shifted.mpr (.inl (by omega))), if_neg (by omega)]
  · rw [if_neg before]
    by_cases after : position + amount ≤ place ∧ place ≤ arena.valueCount + amount
    · rw [if_pos after, if_pos after, if_pos (mem_shifted.mpr (.inr (by omega)))]
    · rw [if_neg after, if_neg after, if_neg fun member => by
        have := mem_shifted.mp member
        omega]

/-- The types of an arena with room are those of its values. -/
theorem reserved_types (positive : 1 ≤ position) (upper : position ≤ arena.valueCount) (place : Nat) :
    (ssaInlineReserveValues arena position amount).types place =
      if (1 ≤ place ∧ place < position) ∨
          (position + amount ≤ place ∧ place ≤ arena.valueCount + amount) then
        ((ssaInlineReserveValues arena position amount).values place).irType
      else arena.types place := by
  unfold ssaInlineReserveValues
  dsimp only
  rw [ssaInlineShiftBlocks_eq, ssaInlineShiftValues_eq, ssaInlineMoveValues]
  dsimp only
  by_cases moved : (1 ≤ place ∧ place < position) ∨
      (position + amount ≤ place ∧ place ≤ arena.valueCount + amount)
  · have member : place ∈ (List.range' 1 arena.valueCount).map (shiftReference position amount) :=
      mem_shifted.mpr (by omega)
    rw [if_pos moved, if_pos member, if_pos member]
  · rw [if_neg moved, if_neg fun member => by
      have := mem_shifted.mp member
      omega]

theorem reserved_rest (arena : SsaArena) (position amount : Nat) :
    ssaInlineReserveValues arena position amount =
      { arena with
        values := (ssaInlineReserveValues arena position amount).values
        types := (ssaInlineReserveValues arena position amount).types
        valueCount := arena.valueCount + amount
        blocks := fun block =>
          if 1 ≤ block ∧ block ≤ arena.blockCount then
            (arena.blocks block).rename (shiftReference position amount)
              (enterReference position amount)
          else arena.blocks block } := by
  unfold ssaInlineReserveValues
  dsimp only
  rw [ssaInlineShiftBlocks_eq, ssaInlineShiftValues_eq, ssaInlineMoveValues]

end Reserve

section Assemble

variable {arena : SsaArena} {position : Nat} {inserted : List SsaValue}

theorem length_insertedValues (positive : 1 ≤ position) (upper : position ≤ arena.valueCount)
    (replace : SsaValue → SsaValue) :
    (arena.insertedValues position inserted replace).length =
      arena.valueCount + inserted.length := by
  simp only [SsaArena.insertedValues, SsaArena.valueList, List.length_append, List.length_cons,
    List.length_map, List.length_take, List.length_drop, List.length_range']
  omega

/-- The inserted list by places. -/
theorem insertedValues_getElem (positive : 1 ≤ position) (upper : position ≤ arena.valueCount)
    (replace : SsaValue → SsaValue) {index : Nat} :
    (arena.insertedValues position inserted replace)[index]? =
      let rename := SsaValue.rename (shiftReference position inserted.length)
        (enterReference position inserted.length)
      if index + 1 < position then some (rename (arena.values (index + 1)))
      else if index + 1 < position + inserted.length then inserted[index + 1 - position]?
      else if index + 1 = position + inserted.length then
        some (replace (rename (arena.values position)))
      else if index + 1 ≤ arena.valueCount + inserted.length then
        some (rename (arena.values (index + 1 - inserted.length)))
      else none := by
  have before : (arena.valueList.take (position - 1)).length = position - 1 := by
    rw [SsaArena.valueList, List.length_take, List.length_map, List.length_range']
    omega
  unfold SsaArena.insertedValues
  dsimp only
  rw [List.getElem?_append, List.length_map, before]
  by_cases low : index + 1 < position
  · rw [if_pos (by omega), if_pos low, List.getElem?_map, List.getElem?_take, if_pos (by omega),
      SsaArena.valueList, List.getElem?_map, List.getElem?_range' (by omega), Option.map_some,
      Option.map_some, Nat.one_mul, Nat.add_comm 1 index]
  · rw [if_neg (by omega), if_neg low, List.getElem?_append]
    by_cases middle : index + 1 < position + inserted.length
    · rw [if_pos (by omega), if_pos middle]
      congr 1
      omega
    · rw [if_neg (by omega), if_neg middle]
      by_cases here : index + 1 = position + inserted.length
      · rw [if_pos here, show index - (position - 1) - inserted.length = 0 by omega,
          List.getElem?_cons_zero]
      · rw [if_neg here, show index - (position - 1) - inserted.length =
          index - position - inserted.length + 1 by omega, List.getElem?_cons_succ,
          List.getElem?_map, List.getElem?_drop, SsaArena.valueList, List.getElem?_map]
        by_cases high : index + 1 ≤ arena.valueCount + inserted.length
        · rw [if_pos high, List.getElem?_range' (by omega), Option.map_some, Option.map_some,
            Nat.one_mul]
          congr 3
          omega
        · rw [if_neg high, List.getElem?_eq_none (by rw [List.length_range']; omega)]
          rfl

/-- The types written with a list of values are theirs. -/
theorem overwrite_irType (values : Nat → SsaValue) (types : Nat → IrType) (list : List SsaValue)
    (start place : Nat) :
    overwrite types start (list.map SsaValue.irType) place =
      if start ≤ place ∧ place < start + list.length then
        (overwrite values start list place).irType
      else types place := by
  by_cases inside : start ≤ place ∧ place < start + list.length
  · obtain ⟨offset, rfl⟩ := Nat.exists_eq_add_of_le inside.1
    rw [if_pos inside, overwrite_getElem (by rw [List.length_map]; omega),
      overwrite_getElem (by omega), List.getElem_map]
  · rw [if_neg inside]
    by_cases before : place < start
    · exact overwrite_of_lt before
    · exact overwrite_of_ge (by rw [List.length_map]; omega)

/-- Values written into the room, and the replaced call after them, make an insertion. -/
theorem placeValues_reserved (positive : 1 ≤ position) (upper : position ≤ arena.valueCount)
    (replace : SsaValue → SsaValue) :
    ((ssaInlineReserveValues arena position inserted.length).placeValues position
      inserted).storeValue (position + inserted.length)
        (replace (SsaValue.rename (shiftReference position inserted.length)
          (enterReference position inserted.length) (arena.values position))) =
      arena.insertBefore position inserted replace := by
  have length := @length_insertedValues arena position inserted positive upper replace
  have values : ∀ place, Function.update
      (overwrite (ssaInlineReserveValues arena position inserted.length).values position inserted)
      (position + inserted.length)
      (replace (SsaValue.rename (shiftReference position inserted.length)
        (enterReference position inserted.length) (arena.values position))) place =
      overwrite arena.values 1 (arena.insertedValues position inserted replace) place := by
    intro place
    by_cases inside : 1 ≤ place ∧ place ≤ arena.valueCount + inserted.length
    · obtain ⟨index, rfl⟩ := Nat.exists_eq_add_of_le' inside.1
      rw [overwrite, if_pos inside.1, Nat.add_sub_cancel,
        insertedValues_getElem positive upper replace]
      dsimp only
      by_cases before : index + 1 < position
      · rw [if_pos before, Function.update_of_ne (by omega), overwrite_of_lt before,
          reserved_values positive upper, if_pos ⟨inside.1, before⟩, Option.getD_some]
      · rw [if_neg before]
        by_cases gap : index + 1 < position + inserted.length
        · obtain ⟨offset, same⟩ := Nat.exists_eq_add_of_le (Nat.not_lt.mp before)
          rw [if_pos gap, Function.update_of_ne (by omega), same,
            overwrite_getElem (by omega), Nat.add_sub_cancel_left,
            List.getElem?_eq_getElem (by omega), Option.getD_some]
        · rw [if_neg gap]
          by_cases here : index + 1 = position + inserted.length
          · rw [if_pos here, here, Function.update_self, Option.getD_some]
          · rw [if_neg here, if_pos inside.2, Function.update_of_ne here,
              overwrite_of_ge (by omega), reserved_values positive upper]
            dsimp only
            rw [if_neg (by omega), if_pos (by omega), Option.getD_some]
    · have outside : overwrite arena.values 1 (arena.insertedValues position inserted replace)
          place = arena.values place := by
        by_cases zero : place < 1
        · exact overwrite_of_lt zero
        · exact overwrite_of_ge (by omega)
      rw [outside, Function.update_of_ne (by omega), overwrite]
      have kept : (ssaInlineReserveValues arena position inserted.length).values place =
          arena.values place := by
        rw [reserved_values positive upper]
        dsimp only
        rw [if_neg (by omega), if_neg (by omega)]
      rw [kept]
      by_cases low : position ≤ place
      · rw [if_pos low, List.getElem?_eq_none (by omega), Option.getD_none]
      · rw [if_neg low]
  have types : ∀ place, Function.update
      (overwrite (ssaInlineReserveValues arena position inserted.length).types position
        (inserted.map SsaValue.irType)) (position + inserted.length)
      (replace (SsaValue.rename (shiftReference position inserted.length)
        (enterReference position inserted.length) (arena.values position))).irType place =
      overwrite arena.types 1
        ((arena.insertedValues position inserted replace).map SsaValue.irType) place := by
    intro place
    have gapTypes := overwrite_irType (ssaInlineReserveValues arena position inserted.length).values
      (ssaInlineReserveValues arena position inserted.length).types inserted position place
    rw [overwrite_irType arena.values, ← values place, length]
    by_cases here : place = position + inserted.length
    · subst here
      rw [Function.update_self, Function.update_self, if_pos (by omega)]
    · rw [Function.update_of_ne here, Function.update_of_ne here, gapTypes]
      by_cases gap : position ≤ place ∧ place < position + inserted.length
      · rw [if_pos gap, if_pos (by omega)]
      · have outside : overwrite (ssaInlineReserveValues arena position inserted.length).values
            position inserted place =
              (ssaInlineReserveValues arena position inserted.length).values place := by
          by_cases low : place < position
          · exact overwrite_of_lt low
          · exact overwrite_of_ge (by omega)
        rw [if_neg gap, outside, reserved_types positive upper]
        by_cases inside : 1 ≤ place ∧ place < 1 + (arena.valueCount + inserted.length)
        · rw [if_pos inside, if_pos (by omega)]
        · rw [if_neg inside, if_neg (by omega)]
  unfold SsaArena.placeValues SsaArena.storeValue SsaArena.insertBefore
  rw [reserved_rest]
  dsimp only
  rw [funext values, funext types]

end Assemble

/-! ## Block lists -/

section Lists

variable {arena : SsaArena} {position : Nat} {inserted : List SsaValue}
  {replace : SsaValue → SsaValue}

theorem blockValuesFrom_eq_trace (arena : SsaArena) : ∀ (fuel start : Nat),
    arena.blockValuesFrom fuel start =
      Chains.trace (fun reference => (arena.values reference).next) fuel start := by
  intro fuel
  induction fuel with
  | zero => exact fun _ => rfl
  | succ fuel ih =>
      intro start
      rw [SsaArena.blockValuesFrom, Chains.trace, ih]

theorem verifyBlockList_linked {block : Nat} : ∀ {fuel reference previous : Nat},
    arena.verifyBlockList block fuel reference previous = true →
      Chains.Linked (fun reference => (arena.values reference).next) reference
        (arena.blockValuesFrom fuel reference) := by
  intro fuel
  induction fuel with
  | zero =>
      intro reference previous verified
      cases verified
  | succ fuel ih =>
      intro reference previous verified
      unfold SsaArena.verifyBlockList at verified
      unfold SsaArena.blockValuesFrom
      split
      · rename_i ended
        exact ended
      · rename_i present
        rw [if_neg present] at verified
        simp only [Bool.and_eq_true] at verified
        exact ⟨rfl, present, ih verified.2⟩

theorem SsaArena.length_blockValuesFrom (arena : SsaArena) : ∀ (fuel start : Nat),
    (arena.blockValuesFrom fuel start).length ≤ fuel := by
  intro fuel
  induction fuel with
  | zero => exact fun _ => Nat.le_refl 0
  | succ fuel ih =>
      intro start
      rw [SsaArena.blockValuesFrom]
      split
      · exact Nat.zero_le _
      · exact Nat.succ_le_succ (ih _)

/-- An inserted value stands at its place. -/
theorem insertBefore_inserted (positive : 1 ≤ position) (upper : position ≤ arena.valueCount)
    {offset : Nat} (inside : offset < inserted.length) :
    (arena.insertBefore position inserted replace).values (position + offset) =
      inserted[offset] := by
  change overwrite arena.values 1 (arena.insertedValues position inserted replace) _ = _
  rw [overwrite, if_pos (by omega), insertedValues_getElem positive upper]
  dsimp only
  rw [if_neg (by omega), if_pos (by omega), show position + offset - 1 + 1 - position = offset by
    omega, List.getElem?_eq_getElem inside, Option.getD_some]

/-- Every value but the replaced one is found renamed at its shifted place. -/
theorem insertBefore_shifted (positive : 1 ≤ position) (upper : position ≤ arena.valueCount)
    {place : Nat} (lower : 1 ≤ place) (inside : place ≤ arena.valueCount)
    (other : place ≠ position) :
    (arena.insertBefore position inserted replace).values
        (shiftReference position inserted.length place) =
      SsaValue.rename (shiftReference position inserted.length)
        (enterReference position inserted.length) (arena.values place) := by
  change overwrite arena.values 1 (arena.insertedValues position inserted replace) _ = _
  rw [overwrite, insertedValues_getElem positive upper]
  dsimp only
  by_cases before : place < position
  · rw [shiftReference_of_lt before, if_pos lower, if_pos (by omega), Nat.sub_add_cancel lower,
      Option.getD_some]
  · rw [shiftReference_of_le (Nat.not_lt.mp before), if_pos (by omega), if_neg (by omega),
      if_neg (by omega), if_neg (by omega), if_pos (by omega), Option.getD_some]
    congr 2
    omega

theorem insertBefore_replaced (positive : 1 ≤ position) (upper : position ≤ arena.valueCount) :
    (arena.insertBefore position inserted replace).values (position + inserted.length) =
      replace (SsaValue.rename (shiftReference position inserted.length)
        (enterReference position inserted.length) (arena.values position)) := by
  change overwrite arena.values 1 (arena.insertedValues position inserted replace) _ = _
  rw [overwrite, if_pos (by omega), insertedValues_getElem positive upper]
  dsimp only
  rw [if_neg (by omega), if_neg (by omega), if_pos (by omega), Option.getD_some]

/-- In the list of its block, the replaced value has the inserted values before it. -/
theorem insertBefore_blockValues {context : CompileContext}
    (accepted : SsaArena.Accepted context arena) (positive : 1 ≤ position)
    (upper : position ≤ arena.valueCount)
    (leads : ∀ offset, (inside : offset < inserted.length) →
      (inserted[offset]).next = position + offset + 1)
    (keeps : ∀ value, (replace value).next = value.next) {block : Nat} (lower : 1 ≤ block)
    (bound : block ≤ arena.blockCount) :
    (arena.insertBefore position inserted replace).blockValues block =
      (arena.blockValues block).flatMap (spliced position inserted.length) := by
  have list := accepted.shaped.lists block lower bound
  have new : ∀ place, position ≤ place → place < position + inserted.length →
      ((arena.insertBefore position inserted replace).values place).next = place + 1 := by
    intro place low high
    obtain ⟨offset, rfl⟩ := Nat.exists_eq_add_of_le low
    rw [insertBefore_inserted positive upper (by omega), leads]
  have links : ∀ cell ∈ arena.blockValues block,
      ((arena.insertBefore position inserted replace).values
        (shiftReference position inserted.length cell)).next =
        enterReference position inserted.length (arena.values cell).next := by
    intro cell member
    obtain ⟨low, high, -⟩ := accepted.mem_blockValues lower bound member
    by_cases here : cell = position
    · subst here
      rw [shiftReference_of_le (Nat.le_refl _), insertBefore_replaced positive upper, keeps]
      rfl
    · rw [insertBefore_shifted positive upper low high here]
      rfl
  have linked := Linked.insert positive new (verifyBlockList_linked list) links
  have sorted := (SsaArena.verifyBlockList_list _ _ _ list).1
  have size := length_spliced position inserted.length (arena.blockValues block)
    (sorted.imp Nat.ne_of_lt)
  have small := arena.length_blockValuesFrom (arena.valueCount + 1) (arena.blocks block).first
  unfold SsaArena.blockValues at size ⊢
  rw [blockValuesFrom_eq_trace]
  change Chains.trace _ (arena.valueCount + inserted.length + 1)
    (if 1 ≤ block ∧ block ≤ arena.blockCount then
      (arena.blocks block).rename (shiftReference position inserted.length)
        (enterReference position inserted.length)
      else arena.blocks block).first = _
  rw [if_pos ⟨lower, bound⟩]
  exact linked.trace_eq (by omega)

end Lists

end Native
