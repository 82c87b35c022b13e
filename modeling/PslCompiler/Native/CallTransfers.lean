import PslCompiler.Native.CallPatching
import PslCompiler.Machines.Arm
import PslCompiler.Machines.Intel
import PslCompiler.Machines.RiscV

/-! # Where patched calls lead

A patched call of a defined function leads to its offset, with the position behind the call as return
address. AArch64 and RISC-V refuse a call whose distance the instruction cannot hold. The x86-64 back
end keeps the low 32 bits of any distance (`callsExact_iff`).
-/

namespace Native

open Machines Buffers

/-! ## Words in buffers -/

theorem patchIntegerSteps_eq (data : Memory) (address bits remaining : Nat) :
    patchIntegerSteps data address bits remaining = storeWord data address bits remaining := by
  induction remaining generalizing data address bits with
  | zero => rfl
  | succ remaining ih => exact ih _ _ _

theorem readU32Le_eq (data : Memory) (address : Nat) :
    readU32Le data address = loadWord data address 4 := by
  have first := (data address).toNat_lt
  have second := (data (address + 1)).toNat_lt
  have third := (data (address + 2)).toNat_lt
  have fourth := (data (address + 3)).toNat_lt
  unfold readU32Le wrapAdd wordLimit
  simp only [loadWord, Nat.add_assoc, Nat.reduceAdd]
  omega

theorem wrapSub_distance {destination position : Nat} (below : position < wordLimit) :
    wrapSub destination position = distance position destination := by
  unfold wrapSub distance wordLimit wordCount at *
  rw [Nat.mod_eq_of_lt below]
  congr 1
  omega

theorem patchI32_eq (code : ByteBuffer) {offset value : Nat} (below : code.length < wordLimit)
    (inside : offset + 4 ≤ code.length) :
    patchI32 code offset value = (true, { code with data := storeWord code.data offset value 4 }) := by
  rw [patchI32, if_neg (by omega), wrapSub_eq (by omega) below, if_neg (by omega),
    patchIntegerSteps_eq]

/-! ## One call -/

/-- The number of bytes of a call. -/
def callSize (architecture : Nat) : Nat :=
  if architecture = 1 then 5 else if architecture = 2 then 4 else 8

/-- The bytes of a call that is not patched yet. -/
def CallPlaceholder (architecture : Nat) (data : Memory) (position : Nat) : Prop :=
  if architecture = 1 then (data position).toNat = 0xe8 ∧ loadWord data (position + 1) 4 = 0
  else if architecture = 2 then loadWord data position 4 = 0x94000000
  else loadWord data position 4 = 0x97 ∧ loadWord data (position + 4) 4 = 0x80e7

/-- What the back ends check of the places of a call and of the function that it calls. -/
def CallWithin (architecture length position destination : Nat) : Prop :=
  if architecture = 1 then destination ≤ length
  else if architecture = 2 then
    destination + 4 ≤ length ∧ position % 4 = 0 ∧ destination % 4 = 0 ∧
      position ≤ destination + 2 ^ 27 ∧ destination < position + 2 ^ 27
  else
    destination + 4 ≤ length ∧ position % 4 = 0 ∧ destination % 4 = 0 ∧
      position ≤ destination + 2 ^ 31 ∧ destination + 2049 ≤ position + 2 ^ 31

instance (architecture length position destination : Nat) :
    Decidable (CallWithin architecture length position destination) := by
  unfold CallWithin
  infer_instance

/-- The bytes that make a call lead to a destination. -/
def callWritten (architecture position destination : Nat) (data : Memory) : Memory :=
  if architecture = 1 then
    storeWord data (position + 1) (distance (position + 5) destination % 2 ^ 32) 4
  else if architecture = 2 then
    storeWord data position (0x94000000 + distance position destination / 4 % 2 ^ 26) 4
  else
    storeWord
      (storeWord data position
        (0x97 + (distance position destination + 2048) % wordCount / 4096 % 2 ^ 20 * 4096) 4)
      (position + 4) (0x80e7 + distance position destination % 4096 * 2 ^ 20) 4

theorem land_upper (value : Nat) : value &&& 0xfffff000 = value / 4096 % 2 ^ 20 * 4096 := by
  apply Nat.eq_of_testBit_eq
  intro bit
  rw [show (0xfffff000 : Nat) = (2 ^ 20 - 1) * 2 ^ 12 by norm_num, Nat.testBit_and,
    show (4096 : Nat) = 2 ^ 12 by norm_num, Nat.testBit_mul_two_pow, Nat.testBit_mul_two_pow,
    Nat.testBit_mod_two_pow, Nat.testBit_div_two_pow, Nat.testBit_two_pow_sub_one]
  by_cases high : 12 ≤ bit
  · simp only [high, decide_true, Bool.true_and, Nat.sub_add_cancel high]
    exact Bool.and_comm _ _
  · simp only [high, decide_false, Bool.false_and, Bool.and_false]

section Steps

variable {functions : Nat → NativeFunction} {count : Nat} {fixups : CallArena} {code : ByteBuffer}

/-- The function that a recorded call needs. -/
def callee (functions : Nat → NativeFunction) (entry : CallFixup) : NativeFunction :=
  functions (entry.target - 1)

/-- Whether a recorded call is accepted, when the code has not been changed at its place. -/
def CallAccepted (architecture length : Nat) (functions : Nat → NativeFunction) (count : Nat)
    (entry : CallFixup) : Prop :=
  entry.target ≠ 0 ∧ entry.target ≤ count ∧
    (architecture ≠ 1 → entry.instruction % 4 = 0) ∧
    ((callee functions entry).imported = 1 ∨
      CallWithin architecture length entry.instruction (callee functions entry).offset)

instance (architecture length : Nat) (functions : Nat → NativeFunction) (count : Nat)
    (entry : CallFixup) : Decidable (CallAccepted architecture length functions count entry) :=
  inferInstanceAs (Decidable (_ ∧ _ ∧ (_ → _) ∧ (_ ∨ _)))

/-- What patching a recorded call makes of the code. -/
def callPatched (architecture : Nat) (functions : Nat → NativeFunction) (entry : CallFixup)
    (data : Memory) : Memory :=
  if (callee functions entry).imported = 1 then data
  else callWritten architecture entry.instruction (callee functions entry).offset data

/-- The steps of a back end do what the checks and the bytes of a call say. -/
def PatchesCall (architecture : Nat) (functions : Nat → NativeFunction) (count : Nat)
    (fixups : CallArena) (code : ByteBuffer)
    (patchAt : ByteBuffer → Nat → Bool × ByteBuffer) : Prop :=
  ∀ (index : Nat) (data : Memory),
    (fixups.items index).instruction + callSize architecture ≤ code.length →
    CallPlaceholder architecture data (fixups.items index).instruction →
    patchAt { code with data } index =
      if CallAccepted architecture code.length functions count (fixups.items index) then
        (true, { code with data := callPatched architecture functions (fixups.items index) data })
      else (false, { code with data })

theorem land_three (value : Nat) : value &&& 3 = value % 4 :=
  Nat.and_two_pow_sub_one_eq_mod value 2

theorem patchCallAt_patches (below : code.length < wordLimit) (counted : count < wordLimit) :
    PatchesCall 1 functions count fixups code (patchCallAt functions count fixups) := by
  intro index data inside placeholder
  change _ + 5 ≤ _ at inside
  unfold patchCallAt
  dsimp only
  by_cases none : (fixups.items index).target = 0
  · rw [if_pos none, if_neg fun accepted => accepted.1 none]
  rw [if_neg none]
  by_cases beyond : count < (fixups.items index).target
  · rw [if_pos beyond, if_neg fun accepted => absurd accepted.2.1 (Nat.not_le.mpr beyond)]
  rw [if_neg beyond, if_neg (by omega), wrapSub_eq (by omega) below, if_neg (by omega),
    wrapSub_eq (Nat.one_le_iff_ne_zero.mpr none) (by omega)]
  change (if (callee functions (fixups.items index)).imported = 1 then _ else
    patchDefinedCall _ (callee functions (fixups.items index)) _) = _
  have accepted (last : (callee functions (fixups.items index)).imported = 1 ∨
      CallWithin 1 code.length (fixups.items index).instruction
        (callee functions (fixups.items index)).offset) :
      CallAccepted 1 code.length functions count (fixups.items index) :=
    ⟨none, Nat.le_of_not_lt beyond, fun other => absurd rfl other, last⟩
  by_cases imported : (callee functions (fixups.items index)).imported = 1
  · rw [if_pos imported, if_pos (accepted (.inl imported)), callPatched, if_pos imported]
  rw [if_neg imported, patchDefinedCall]
  dsimp only
  by_cases outside : code.length < (callee functions (fixups.items index)).offset
  · rw [if_pos outside, if_neg]
    rintro ⟨-, -, -, known | within⟩
    · exact imported known
    · exact absurd within (Nat.not_le.mpr outside)
  · rw [if_neg outside, if_pos (accepted (.inr (Nat.le_of_not_lt outside))), callPatched,
      if_neg imported, wrapAdd_eq (by omega), wrapAdd_eq (by omega), wrapSub_distance (by omega),
      @patchI32_eq { code with data } _ _ below (by change _ ≤ code.length; omega)]
    rfl

theorem a64BranchDeltaP_iff {position destination : Nat} (inside : position < wordLimit)
    (known : destination < wordLimit) : a64BranchDeltaP position destination 26 = true ↔
      position % 4 = 0 ∧ destination % 4 = 0 ∧ position ≤ destination + 2 ^ 27 ∧
        destination < position + 2 ^ 27 := by
  unfold a64BranchDeltaP
  rw [land_three, land_three]
  dsimp only
  rw [if_pos rfl]
  by_cases back : destination < position
  · rw [if_pos back, wrapSub_eq (Nat.le_of_lt back) inside]
    split_ifs <;> simp <;> omega
  · rw [if_neg back, wrapSub_eq (Nat.le_of_not_lt back) known]
    split_ifs <;> simp <;> omega

theorem rvPairDeltaP_iff {position destination : Nat} (inside : position < wordLimit)
    (known : destination < wordLimit) : rvPairDeltaP position destination = true ↔
      position % 4 = 0 ∧ destination % 4 = 0 ∧ position ≤ destination + 2 ^ 31 ∧
        destination + 2049 ≤ position + 2 ^ 31 := by
  unfold rvPairDeltaP
  rw [land_three, land_three]
  by_cases back : destination < position
  · rw [if_pos back, wrapSub_eq (Nat.le_of_lt back) inside]
    split_ifs <;> simp <;> omega
  · rw [if_neg back, wrapSub_eq (Nat.le_of_not_lt back) known]
    split_ifs <;> simp <;> omega

theorem a64PatchCallAt_patches (below : code.length < wordLimit) (counted : count < wordLimit) :
    PatchesCall 2 functions count fixups code (a64PatchCallAt functions count fixups) := by
  intro index data inside placeholder
  change _ + 4 ≤ _ at inside
  change loadWord data _ 4 = _ at placeholder
  unfold a64PatchCallAt
  dsimp only
  by_cases none : (fixups.items index).target = 0
  · rw [if_pos none, if_neg fun accepted => accepted.1 none]
  rw [if_neg none]
  by_cases beyond : count < (fixups.items index).target
  · rw [if_pos beyond, if_neg fun accepted => absurd accepted.2.1 (Nat.not_le.mpr beyond)]
  rw [if_neg beyond, if_neg (by omega), wrapSub_eq (by omega) below, if_neg (by omega),
    wrapSub_eq (Nat.one_le_iff_ne_zero.mpr none) (by omega), land_three, readU32Le_eq,
    if_pos placeholder]
  by_cases unaligned : (fixups.items index).instruction % 4 = 0
  swap
  · rw [if_neg unaligned, if_neg fun accepted => unaligned (accepted.2.2.1 (by decide))]
  rw [if_pos unaligned]
  change (if (callee functions (fixups.items index)).imported = 1 then _ else
    if _ < (callee functions (fixups.items index)).offset then _ else
      a64PatchBranch _ _ (callee functions (fixups.items index)).offset _ _) = _
  have accepted (last : (callee functions (fixups.items index)).imported = 1 ∨
      CallWithin 2 code.length (fixups.items index).instruction
        (callee functions (fixups.items index)).offset) :
      CallAccepted 2 code.length functions count (fixups.items index) :=
    ⟨none, Nat.le_of_not_lt beyond, fun _ => unaligned, last⟩
  by_cases imported : (callee functions (fixups.items index)).imported = 1
  · rw [if_pos imported, if_pos (accepted (.inl imported)), callPatched, if_pos imported]
  rw [if_neg imported]
  by_cases outside : code.length - 4 < (callee functions (fixups.items index)).offset
  · rw [if_pos outside, if_neg]
    rintro ⟨-, -, -, known | within⟩
    · exact imported known
    · have early := within.1
      omega
  rw [if_neg outside, a64PatchBranch]
  have delta := @a64BranchDeltaP_iff (fixups.items index).instruction
    (callee functions (fixups.items index)).offset (by omega) (by omega)
  by_cases fits : a64BranchDeltaP (fixups.items index).instruction
      (callee functions (fixups.items index)).offset 26 = true
  · have within := delta.mp fits
    rw [if_neg (by rw [fits]; decide), if_pos (accepted (.inr ⟨by omega, within⟩)),
      callPatched, if_neg imported]
    dsimp only
    rw [if_pos rfl, if_pos rfl, wrapSub_distance (by omega),
      show (0x3ffffff : Nat) = 2 ^ 26 - 1 by norm_num, Nat.and_two_pow_sub_one_eq_mod, castS32,
      shr64, show 2 % 64 = 2 by norm_num, show 2 ^ 2 = 4 by norm_num,
      wrapAdd_eq (by unfold wordLimit; omega), Nat.mod_eq_of_lt (by omega),
      @patchI32_eq { code with data } _ _ below (by change _ ≤ code.length; omega)]
    rfl
  · rw [if_pos (Bool.not_eq_true _ ▸ fits), if_neg]
    rintro ⟨-, -, -, known | within⟩
    · exact imported known
    · exact fits (delta.mpr within.2)

theorem rvUpperWord_eq (delta : Nat) :
    castS32 (wrapAdd 0x17 (wrapAdd (wrapMul 1 128) (wrapAdd delta 2048 &&& 0xfffff000))) =
      0x97 + (delta + 2048) % wordCount / 4096 % 2 ^ 20 * 4096 := by
  rw [land_upper]
  unfold castS32 wrapAdd wrapMul wordLimit wordCount
  omega

theorem rvIWord_eq (delta : Nat) :
    castS32 (rvIWord 0x67 1 1 0 delta) = 0x80e7 + delta % 4096 * 2 ^ 20 := by
  have small := Nat.mod_lt delta (show 0 < 4096 by norm_num)
  unfold castS32 rvIWord wrapAdd wrapMul wordLimit
  rw [show (4095 : Nat) = 2 ^ 12 - 1 by norm_num, Nat.and_two_pow_sub_one_eq_mod]
  norm_num
  omega

theorem rvPatchCallAt_patches (below : code.length < wordLimit) (counted : count < wordLimit) :
    PatchesCall 3 functions count fixups code (rvPatchCallAt functions count fixups) := by
  intro index data inside placeholder
  change _ + 8 ≤ _ at inside
  change loadWord data _ 4 = _ ∧ loadWord data _ 4 = _ at placeholder
  unfold rvPatchCallAt rvCallPlaceholderP
  dsimp only
  by_cases none : (fixups.items index).target = 0
  · rw [if_pos none, if_neg fun accepted => accepted.1 none]
  rw [if_neg none]
  by_cases beyond : count < (fixups.items index).target
  · rw [if_pos beyond, if_neg fun accepted => absurd accepted.2.1 (Nat.not_le.mpr beyond)]
  rw [if_neg beyond, if_neg (by omega), wrapSub_eq (by omega) below, if_neg (by omega),
    wrapSub_eq (Nat.one_le_iff_ne_zero.mpr none) (by omega), land_three, readU32Le_eq,
    readU32Le_eq, if_pos placeholder.1, if_pos placeholder.2]
  by_cases unaligned : (fixups.items index).instruction % 4 = 0
  swap
  · rw [if_neg unaligned, if_neg fun accepted => unaligned (accepted.2.2.1 (by decide))]
  rw [if_pos unaligned, if_neg (show ¬true = false by decide)]
  change (if (callee functions (fixups.items index)).imported = 1 then _ else
    if _ < (callee functions (fixups.items index)).offset then _ else
      rvPatchPair _ _ (callee functions (fixups.items index)).offset _ _) = _
  have accepted (last : (callee functions (fixups.items index)).imported = 1 ∨
      CallWithin 3 code.length (fixups.items index).instruction
        (callee functions (fixups.items index)).offset) :
      CallAccepted 3 code.length functions count (fixups.items index) :=
    ⟨none, Nat.le_of_not_lt beyond, fun _ => unaligned, last⟩
  by_cases imported : (callee functions (fixups.items index)).imported = 1
  · rw [if_pos imported, if_pos (accepted (.inl imported)), callPatched, if_pos imported]
  rw [if_neg imported]
  rw [wrapSub_eq (by omega) below]
  by_cases outside : code.length - 4 < (callee functions (fixups.items index)).offset
  · rw [if_pos outside, if_neg]
    rintro ⟨-, -, -, known | within⟩
    · exact imported known
    · have early := within.1
      omega
  rw [if_neg outside, rvPatchPair]
  have delta := @rvPairDeltaP_iff (fixups.items index).instruction
    (callee functions (fixups.items index)).offset (by omega) (by omega)
  by_cases fits : rvPairDeltaP (fixups.items index).instruction
      (callee functions (fixups.items index)).offset = true
  · have within := delta.mp fits
    rw [if_neg (by rw [fits]; decide), if_pos (accepted (.inr ⟨by omega, within⟩)),
      callPatched, if_neg imported]
    dsimp only
    rw [wrapSub_distance (by omega), rvUpperWord_eq, rvIWord_eq, wrapAdd_eq (by omega),
      @patchI32_eq { code with data } _ _ below (by change _ ≤ code.length; omega),
      if_neg fun failed => Bool.noConfusion failed]
    exact patchI32_eq { code with data := _ } below (by change _ ≤ code.length; omega)
  · rw [if_pos (Bool.not_eq_true _ ▸ fits), if_neg]
    rintro ⟨-, -, -, known | within⟩
    · exact imported known
    · exact fits (delta.mpr within.2)

end Steps

/-! ## All calls -/

/-- The bytes of a call that is not patched yet, one by one. -/
def placeholderBytes (architecture : Nat) : List Nat :=
  if architecture = 1 then [0xe8, 0, 0, 0, 0]
  else if architecture = 2 then [0, 0, 0, 0x94]
  else [0x97, 0, 0, 0, 0xe7, 0x80, 0, 0]

theorem placeholder_byte {architecture : Nat} {data : Memory} {position : Nat}
    (placeholder : CallPlaceholder architecture data position) {offset : Nat}
    (inside : offset < callSize architecture) :
    (data (position + offset)).toNat = (placeholderBytes architecture).getD offset 0 := by
  unfold CallPlaceholder at placeholder
  unfold callSize at inside
  unfold placeholderBytes
  split_ifs at placeholder inside ⊢
  · obtain ⟨opcode, word⟩ := placeholder
    cases offset with
    | zero => exact opcode
    | succ offset =>
        rw [Nat.add_comm offset 1, ← Nat.add_assoc,
          byte_of_loadWord (show offset < 4 by omega), word]
        have small : offset < 4 := by omega
        interval_cases offset <;> rfl
  · rw [byte_of_loadWord inside, placeholder]
    interval_cases offset <;> rfl
  · obtain ⟨first, second⟩ := placeholder
    by_cases early : offset < 4
    · rw [byte_of_loadWord early, first]
      interval_cases offset <;> rfl
    · obtain ⟨rest, rfl⟩ : ∃ rest, offset = 4 + rest := ⟨offset - 4, by omega⟩
      rw [← Nat.add_assoc, byte_of_loadWord (show rest < 4 by omega), second]
      have small : rest < 4 := by omega
      interval_cases rest <;> rfl

/-- Two calls at different places do not overlap. -/
theorem placeholders_apart {architecture : Nat} {data : Memory} {position other : Nat}
    (placeholder : CallPlaceholder architecture data position)
    (otherPlaceholder : CallPlaceholder architecture data other) (before : position < other) :
    position + callSize architecture ≤ other := by
  by_contra overlap
  obtain ⟨shift, rfl⟩ : ∃ shift, other = position + shift := ⟨other - position, by omega⟩
  have same (offset : Nat) (inside : shift + offset < callSize architecture) :
      (placeholderBytes architecture).getD (shift + offset) 0 =
        (placeholderBytes architecture).getD offset 0 := by
    rw [← placeholder_byte placeholder inside,
      ← placeholder_byte otherPlaceholder (show offset < callSize architecture by omega),
      Nat.add_assoc]
  have positive : 0 < shift := by omega
  unfold callSize placeholderBytes at *
  split_ifs at * with intel arm
  · have first := same 0 (by omega)
    have small : shift < 5 := by omega
    interval_cases shift <;> revert first <;> decide
  · have last := same (3 - shift) (by omega)
    have small : shift < 4 := by omega
    interval_cases shift <;> revert last <;> decide
  · have first := same 0 (by omega)
    have small : shift < 8 := by omega
    interval_cases shift <;> revert first <;> decide

/-- Calls are recorded at different places, each of which holds a call that is not patched yet. -/
structure CallSites (architecture : Nat) (code : ByteBuffer) (fixups : CallArena) : Prop where
  bounded : code.length < wordLimit
  counted : fixups.count < wordLimit
  inside : ∀ index, index < fixups.count →
    (fixups.items index).instruction + callSize architecture ≤ code.length
  placeholder : ∀ index, index < fixups.count →
    CallPlaceholder architecture code.data (fixups.items index).instruction
  distinct : ∀ index other, index < fixups.count → other < fixups.count → index ≠ other →
    (fixups.items index).instruction ≠ (fixups.items other).instruction

/-- The addresses of a recorded call. -/
def CallPlace (architecture : Nat) (fixups : CallArena) (index address : Nat) : Prop :=
  (fixups.items index).instruction ≤ address ∧
    address < (fixups.items index).instruction + callSize architecture

section Written

variable {architecture : Nat} {functions : Nat → NativeFunction} {entry : CallFixup}

theorem callPatched_pointwise {data other : Memory} {address : Nat}
    (same : data address = other address) :
    callPatched architecture functions entry data address =
      callPatched architecture functions entry other address := by
  unfold callPatched callWritten
  split_ifs
  · exact same
  · exact storeWord_pointwise same
  · exact storeWord_pointwise same
  · exact storeWord_pointwise (storeWord_pointwise same)

theorem callPatched_outside {data : Memory} {address : Nat}
    (outside : ¬(entry.instruction ≤ address ∧
      address < entry.instruction + callSize architecture)) :
    callPatched architecture functions entry data address = data address := by
  unfold callPatched callWritten
  unfold callSize at outside
  split_ifs at outside ⊢
  · rfl
  · rfl
  · rfl
  · exact storeWord_outside (by omega)
  · exact storeWord_outside (by omega)
  · rw [storeWord_outside (by omega), storeWord_outside (by omega)]

end Written

section Sites

variable {architecture : Nat} {functions : Nat → NativeFunction} {count : Nat} {fixups : CallArena}
  {code : ByteBuffer}

theorem CallSites.separate (sites : CallSites architecture code fixups) :
    Separate (fun index _ =>
        decide (CallAccepted architecture code.length functions count (fixups.items index)))
      (fun index => callPatched architecture functions (fixups.items index))
      (CallPlace architecture fixups) fixups.count where
  accepts_congr _ _ _ _ _ := rfl
  write_congr _ _ _ _ same address here := callPatched_pointwise (same address here)
  write_outside _ _ _ _ outside := callPatched_outside outside
  apart index other inside otherInside different address here there := by
    have one := sites.placeholder index inside
    have two := sites.placeholder other otherInside
    rcases Nat.lt_or_gt_of_ne (sites.distinct index other inside otherInside different) with
      before | after
    · have gap := placeholders_apart one two before
      exact absurd (Nat.lt_of_lt_of_le here.2 gap) (Nat.not_lt.mpr there.1)
    · have gap := placeholders_apart two one after
      exact absurd (Nat.lt_of_lt_of_le there.2 gap) (Nat.not_lt.mpr here.1)

theorem CallPlaceholder.congr {data other : Memory} {position : Nat}
    (same : ∀ address, position ≤ address → address < position + callSize architecture →
      other address = data address)
    (placeholder : CallPlaceholder architecture data position) :
    CallPlaceholder architecture other position := by
  unfold callSize at same
  unfold CallPlaceholder at placeholder ⊢
  split_ifs at same placeholder ⊢
  · rw [same position (Nat.le_refl _) (by omega),
      loadWord_congr fun offset inside => same (position + 1 + offset) (by omega) (by omega)]
    exact placeholder
  · rw [loadWord_congr fun offset inside => same (position + offset) (by omega) (by omega)]
    exact placeholder
  · rw [loadWord_congr fun offset inside => same (position + offset) (by omega) (by omega),
      loadWord_congr fun offset inside => same (position + 4 + offset) (by omega) (by omega)]
    exact placeholder

/-- The loop over the calls is a loop over separate places. -/
theorem patchFrom_eq {patchAt : ByteBuffer → Nat → Bool × ByteBuffer}
    (patches : PatchesCall architecture functions count fixups code patchAt)
    (sites : CallSites architecture code fixups) : ∀ (remaining index : Nat) (data : Memory),
      index + remaining = fixups.count →
      (∀ other, index ≤ other → other < fixups.count →
        CallPlaceholder architecture data (fixups.items other).instruction) →
      patchFrom patchAt remaining index { code with data } =
        let run := patchEach (fun index _ =>
            decide (CallAccepted architecture code.length functions count (fixups.items index)))
          (fun index => callPatched architecture functions (fixups.items index)) remaining index data
        (run.1, { code with data := run.2 }) := by
  intro remaining
  induction remaining with
  | zero => exact fun _ _ _ _ => rfl
  | succ remaining ih =>
      intro index data ends placeholders
      have word := sites.counted
      rw [patchFrom, patches index data (sites.inside index (by omega))
        (placeholders index (Nat.le_refl _) (by omega)), patchEach]
      dsimp only
      by_cases accepted :
          CallAccepted architecture code.length functions count (fixups.items index)
      · rw [if_pos accepted, if_pos (decide_eq_true accepted), if_pos rfl, wrapAdd_eq (by omega)]
        refine ih (index + 1) _ (by omega) ?_
        intro other after before
        refine (placeholders other (by omega) before).congr ?_
        intro address from_ upTo
        exact @Separate.write_other _ _ _ _ (@CallSites.separate _ functions count _ _ sites)
          index other (by omega) before (by omega) data address ⟨from_, upTo⟩
      · rw [if_neg accepted, if_neg (fun failed => Bool.noConfusion failed),
          if_neg (by rw [decide_eq_false accepted]; decide)]

end Sites

/-! ## Executing a call -/

/-- The bytes of a buffer stand in a memory from an address on. -/
def Loaded (memory : Memory) (base : Nat) (code : ByteBuffer) : Prop :=
  ∀ offset, offset < code.length → memory (base + offset) = code.data offset

theorem Loaded.word {memory : Memory} {base : Nat} {code : ByteBuffer}
    (loaded : Loaded memory base code) {position size : Nat} (inside : position + size ≤ code.length) :
    loadWord memory (base + position) size = loadWord code.data position size := by
  refine loadWord_congr fun offset within => ?_
  rw [Nat.add_assoc]
  exact loaded _ (by omega)

/-- Wherever the code is loaded, the call at a position leads to a destination, with the position
behind the call as return address. On x86-64 that address is pushed on the stack. -/
def CallTransfers (architecture : Nat) (code : ByteBuffer) (position destination : Nat) : Prop :=
  ∀ base, base + code.length < wordCount →
    if architecture = 1 then
      ∀ state : Intel.State, Loaded state.memory base code → state.counter = base + position →
        ∃ after, state.step = some after ∧ after.counter = base + destination ∧
          after.registers Intel.stackPointer =
            (state.registers Intel.stackPointer + wordCount - 8) % wordCount ∧
          loadWord after.memory (after.registers Intel.stackPointer) 8 = base + position + 5
    else if architecture = 2 then
      ∀ state : Arm.State, Loaded state.memory base code → state.counter = base + position →
        ∃ after, state.step = some after ∧ after.counter = base + destination ∧
          after.read 30 = base + position + 4
    else
      base % 2 = 0 →
      ∀ state : RiscV.State, Loaded state.memory base code → state.counter = base + position →
        ∃ after, RiscV.State.steps 2 state = some after ∧ after.counter = base + destination ∧
          after.read 1 = base + position + 8

/-- Whether a call can hold the distance to a destination: some value of its fields leads there. -/
def CallFits (architecture position destination : Nat) : Prop :=
  if architecture = 1 then
    ∃ displacement, displacement < 2 ^ 32 ∧
      (position + 5 + signExtended 32 displacement) % wordCount = destination
  else if architecture = 2 then
    ∃ immediate, immediate < 2 ^ 26 ∧
      (position + signExtended 28 (4 * immediate)) % wordCount = destination
  else
    ∃ upper lower, upper < 2 ^ 20 ∧ lower < 2 ^ 12 ∧
      ((position + signExtended 32 (upper * 2 ^ 12)) % wordCount + signExtended 12 lower) %
        wordCount / 2 * 2 = destination

/-- The low 32 bits of a distance are the displacement, when one exists. -/
theorem intel_fits_iff {position destination : Nat} (inside : position + 5 < wordCount) : CallFits 1 position destination ↔
      (position + 5 + signExtended 32 (distance (position + 5) destination % 2 ^ 32)) % wordCount =
        destination := by
  change (∃ displacement, _ ∧ _) ↔ _
  constructor
  · rintro ⟨displacement, small, leads⟩
    have same : distance (position + 5) destination % 2 ^ 32 = displacement := by
      unfold distance signExtended wordCount at *
      norm_num at *
      split at leads <;> omega
    rw [same, leads]
  · exact fun leads => ⟨_, Nat.mod_lt _ (by decide), leads⟩

theorem CallWithin.fits {architecture length position destination : Nat} (native : architecture ≠ 1)
    (below : length < wordCount)
    (within : CallWithin architecture length position destination) :
    CallFits architecture position destination := by
  unfold CallWithin at within
  unfold CallFits
  rw [if_neg native] at within ⊢
  split_ifs at within ⊢
  · obtain ⟨room, aligned, target, back, ahead⟩ := within
    exact ⟨_, Nat.mod_lt _ (by decide), reached_28 (by omega) back ahead aligned target⟩
  · obtain ⟨room, aligned, target, back, ahead⟩ := within
    refine ⟨(distance position destination + 2048) % wordCount / 4096 % 2 ^ 20,
      distance position destination % 4096, Nat.mod_lt _ (by decide),
      Nat.mod_lt _ (by decide), ?_⟩
    rw [show (2 : Nat) ^ 12 = 4096 by norm_num, reached_pair (by omega) back ahead]
    omega

/-- The bytes of a call that leads to a destination. -/
def CallBytes (architecture : Nat) (data : Memory) (position destination : Nat) : Prop :=
  if architecture = 1 then
    (data position).toNat = 0xe8 ∧
      loadWord data (position + 1) 4 = distance (position + 5) destination % 2 ^ 32
  else if architecture = 2 then
    loadWord data position 4 = 0x94000000 + distance position destination / 4 % 2 ^ 26
  else
    loadWord data position 4 =
        0x97 + (distance position destination + 2048) % wordCount / 4096 % 2 ^ 20 * 4096 ∧
      loadWord data (position + 4) 4 = 0x80e7 + distance position destination % 4096 * 2 ^ 20

theorem callWritten_bytes {architecture : Nat} {data : Memory} {position destination : Nat}
    (placeholder : CallPlaceholder architecture data position) :
    CallBytes architecture (callWritten architecture position destination data) position
      destination := by
  unfold CallPlaceholder at placeholder
  unfold CallBytes callWritten
  split_ifs at placeholder ⊢
  · refine ⟨?_, ?_⟩
    · rw [storeWord_outside (by omega)]
      exact placeholder.1
    · rw [loadWord_storeWord]
      omega
  · rw [loadWord_storeWord]
    omega
  · refine ⟨?_, ?_⟩
    · rw [loadWord_congr fun offset inside => storeWord_outside (by omega), loadWord_storeWord]
      omega
    · rw [loadWord_storeWord]
      omega

theorem CallBytes.congr {architecture : Nat} {data other : Memory} {position destination : Nat}
    (same : ∀ address, position ≤ address → address < position + callSize architecture →
      other address = data address)
    (bytes : CallBytes architecture data position destination) :
    CallBytes architecture other position destination := by
  unfold callSize at same
  unfold CallBytes at bytes ⊢
  split_ifs at same bytes ⊢
  · rw [same position (Nat.le_refl _) (by omega),
      loadWord_congr fun offset inside => same (position + 1 + offset) (by omega) (by omega)]
    exact bytes
  · rw [loadWord_congr fun offset inside => same (position + offset) (by omega) (by omega)]
    exact bytes
  · rw [loadWord_congr fun offset inside => same (position + offset) (by omega) (by omega),
      loadWord_congr fun offset inside => same (position + 4 + offset) (by omega) (by omega)]
    exact bytes

section Execution

variable {code : ByteBuffer} {base position destination : Nat}

theorem intel_transfers (bytes : CallBytes 1 code.data position destination)
    (inside : position + 5 ≤ code.length) (known : destination ≤ code.length)
    (below : base + code.length < wordCount) (fits : CallFits 1 position destination)
    {state : Intel.State} (loaded : Loaded state.memory base code)
    (counter : state.counter = base + position) :
    ∃ after, state.step = some after ∧ after.counter = base + destination ∧
      after.registers Intel.stackPointer =
        (state.registers Intel.stackPointer + wordCount - 8) % wordCount ∧
      loadWord after.memory (after.registers Intel.stackPointer) 8 = base + position + 5 := by
  obtain ⟨opcode, displacement⟩ := bytes
  rw [← loaded.word (show position + 1 + 4 ≤ code.length by omega)] at displacement
  rw [← loaded position (by omega)] at opcode
  have decoded : Intel.decode state.memory state.counter =
      some (.call (distance (position + 5) destination % 2 ^ 32), 5) := by
    unfold Intel.decode
    dsimp only
    rw [counter, opcode, Nat.add_assoc base position 1, displacement]
    rfl
  rw [intel_fits_iff (by omega)] at fits
  refine ⟨_, Intel.State.step_eq decoded, ?_, ?_, ?_⟩
  · rw [Intel.State.execute, Intel.State.jumpTo_counter, counter]
    generalize signExtended 32 _ = extended at fits ⊢
    unfold wordCount at *
    omega
  · rw [Intel.State.execute, Intel.State.jumpTo_registers, Intel.State.push_stackPointer]
  · rw [Intel.State.execute, Intel.State.jumpTo_registers, Intel.State.jumpTo_memory,
      Intel.State.push_top, counter]
    unfold wordCount at *
    omega

theorem arm_transfers (bytes : CallBytes 2 code.data position destination)
    (inside : position + 4 ≤ code.length) (within : CallWithin 2 code.length position destination)
    (below : base + code.length < wordCount) {state : Arm.State}
    (loaded : Loaded state.memory base code) (counter : state.counter = base + position) :
    ∃ after, state.step = some after ∧ after.counter = base + destination ∧
      after.read 30 = base + position + 4 := by
  obtain ⟨room, aligned, target, back, ahead⟩ := within
  have word : loadWord state.memory state.counter 4 =
      0x94000000 + distance position destination / 4 % 2 ^ 26 := by
    rw [counter, loaded.word inside]
    exact bytes
  have decoded : Arm.decode (loadWord state.memory state.counter 4) =
      some (.branchLink (distance position destination / 4 % 2 ^ 26)) := by
    rw [word]
    unfold Arm.decode
    rw [if_pos (by omega)]
    congr 2
    omega
  have reached := reached_28 (show destination < wordCount by omega) back ahead aligned target
  refine ⟨_, Arm.State.step_eq decoded, ?_, ?_⟩
  · rw [Arm.State.branchLink_counter, counter]
    generalize signExtended 28 _ = extended at reached ⊢
    unfold wordCount at *
    omega
  · rw [Arm.State.branchLink_read, counter]
    unfold wordCount at *
    omega

theorem riscV_transfers (bytes : CallBytes 3 code.data position destination)
    (inside : position + 8 ≤ code.length) (within : CallWithin 3 code.length position destination)
    (below : base + code.length < wordCount) (even : base % 2 = 0) {state : RiscV.State}
    (loaded : Loaded state.memory base code) (counter : state.counter = base + position) :
    ∃ after, RiscV.State.steps 2 state = some after ∧ after.counter = base + destination ∧
      after.read 1 = base + position + 8 := by
  obtain ⟨room, aligned, target, back, ahead⟩ := within
  obtain ⟨upper, lower⟩ := bytes
  have reached := reached_pair (show destination < wordCount by omega) back ahead
  have lowerSmall := Nat.mod_lt (distance position destination) (show 0 < 4096 by decide)
  generalize (distance position destination + 2048) % wordCount / 4096 = high at upper reached
  generalize distance position destination % 4096 = low at lower reached lowerSmall
  have first : RiscV.decode (loadWord state.memory state.counter 4) =
      some (.upperPosition 1 (high % 2 ^ 20)) := by
    rw [counter, loaded.word (by omega), upper]
    unfold RiscV.decode
    dsimp only
    rw [if_pos (by omega)]
    congr 2 <;> omega
  have next : (state.counter + 4) % wordCount = base + (position + 4) := by
    rw [counter]
    unfold wordCount at *
    omega
  have second : RiscV.decode (loadWord state.memory ((state.counter + 4) % wordCount) 4) =
      some (.jumpRegister 1 1 low) := by
    rw [next, loaded.word (by omega), lower]
    unfold RiscV.decode
    dsimp only
    rw [if_neg (by omega), if_neg (by omega), if_pos (by omega)]
    congr 2 <;> omega
  -- The first instruction leaves the second where it is.
  have moved : (state.execute (.upperPosition 1 (high % 2 ^ 20))).counter =
        (state.counter + 4) % wordCount ∧
      (state.execute (.upperPosition 1 (high % 2 ^ 20))).memory = state.memory ∧
      (state.execute (.upperPosition 1 (high % 2 ^ 20))).read 1 =
        (base + position + signExtended 32 (high % 2 ^ 20 * 2 ^ 12)) % wordCount := by
    rw [RiscV.State.execute, RiscV.State.next_counter, RiscV.State.next_memory,
      RiscV.State.next_read, RiscV.State.write_counter, RiscV.State.write_memory,
      RiscV.State.read_write _ _ (by decide), counter]
    exact ⟨rfl, rfl, rfl⟩
  have stepped := RiscV.State.step_eq first
  generalize state.execute (.upperPosition 1 (high % 2 ^ 20)) = middle at moved stepped
  obtain ⟨middleCounter, sameMemory, upperRegister⟩ := moved
  rw [← middleCounter, ← sameMemory] at second
  have two : RiscV.State.steps 2 state = some (middle.execute (.jumpRegister 1 1 low)) := by
    rw [RiscV.State.steps, stepped, Option.bind_some, RiscV.State.steps,
      RiscV.State.step_eq second]
    rfl
  refine ⟨_, two, ?_, ?_⟩
  · rw [RiscV.State.jumpRegister_counter, upperRegister, show (2 : Nat) ^ 12 = 4096 by norm_num]
    generalize signExtended 32 (high % 2 ^ 20 * 4096) = extended at reached ⊢
    generalize signExtended 12 low = little at reached ⊢
    unfold wordCount at *
    omega
  · rw [RiscV.State.jumpRegister_read _ _ _ (by decide), middleCounter, next]
    unfold wordCount at *
    omega

end Execution

/-! ## Patching a unit -/

theorem nativeTargetArchitecture_cases (target : Nat) : nativeTargetArchitecture target = 1 ∨
    nativeTargetArchitecture target = 2 ∨ nativeTargetArchitecture target = 3 := by
  unfold nativeTargetArchitecture
  split_ifs
  · exact .inr (.inl rfl)
  · exact .inr (.inr rfl)
  · exact .inl rfl

/-- What keeps patching from starting: the error mark, or too many fixups for their capacity. -/
def CallsBlocked (architecture : Nat) (fixups : CallArena) : Prop :=
  fixups.error ≠ 0 ∨ (architecture ≠ 1 ∧ fixups.capacity < fixups.count)

section Units

variable {target : Nat} {functions : Nat → NativeFunction} {count : Nat} {fixups : CallArena}
  {code : ByteBuffer}

theorem nativePatchUnitCalls_from (below : code.length < wordLimit) (counted : count < wordLimit) :
    ∃ patchAt, PatchesCall (nativeTargetArchitecture target) functions count fixups code patchAt ∧
      (¬CallsBlocked (nativeTargetArchitecture target) fixups →
        nativePatchUnitCalls target code functions count fixups =
          patchFrom patchAt fixups.count 0 code) ∧
      (CallsBlocked (nativeTargetArchitecture target) fixups →
        (nativePatchUnitCalls target code functions count fixups).1 = false) := by
  unfold nativePatchUnitCalls CallsBlocked
  rcases nativeTargetArchitecture_cases target with intel | arm | riscV
  · rw [intel, if_pos rfl, patchCallFixups]
    refine ⟨_, patchCallAt_patches below counted, ?_, ?_⟩
    · intro free
      rw [if_pos (not_not.mp fun failed => free (.inl failed))]
    · rintro (failed | native)
      · rw [if_neg failed]
      · exact absurd rfl native.1
  · rw [arm, if_neg (by decide), if_pos rfl, a64PatchCalls]
    refine ⟨_, a64PatchCallAt_patches below counted, ?_, ?_⟩
    · intro free
      rw [if_pos (not_not.mp fun failed => free (.inl failed)),
        if_neg fun many => free (.inr ⟨by decide, many⟩)]
    · rintro (failed | many)
      · rw [if_neg failed]
      · rw [if_pos many.2, ite_self]
  · rw [riscV, if_neg (by decide), if_neg (by decide), if_pos rfl, rvPatchCalls]
    refine ⟨_, rvPatchCallAt_patches below counted, ?_, ?_⟩
    · intro free
      rw [if_pos (not_not.mp fun failed => free (.inl failed)),
        if_neg fun many => free (.inr ⟨by decide, many⟩)]
    · rintro (failed | many)
      · rw [if_neg failed]
      · rw [if_pos many.2, ite_self]

/-- The calls are patched exactly when each of them is accepted. -/
theorem nativePatchUnitCalls_iff
    (sites : CallSites (nativeTargetArchitecture target) code fixups) (counted : count < wordLimit) :
    (nativePatchUnitCalls target code functions count fixups).1 = true ↔
      ¬CallsBlocked (nativeTargetArchitecture target) fixups ∧
        ∀ index, index < fixups.count → CallAccepted (nativeTargetArchitecture target) code.length
          functions count (fixups.items index) := by
  obtain ⟨patchAt, patches, free, blocked⟩ :=
    @nativePatchUnitCalls_from target functions count fixups code sites.bounded counted
  by_cases isBlocked : CallsBlocked (nativeTargetArchitecture target) fixups
  · rw [blocked isBlocked]
    exact ⟨fun impossible => Bool.noConfusion impossible, fun all => absurd isBlocked all.1⟩
  · rw [free isBlocked, show code = { code with data := code.data } from rfl,
      patchFrom_eq patches sites fixups.count 0 code.data (Nat.zero_add _)
        fun other _ before => sites.placeholder other before]
    dsimp only
    rw [patchEach_accepts (sites.separate) (Nat.le_of_eq (Nat.zero_add _))]
    constructor
    · intro all
      exact ⟨isBlocked, fun index inside =>
        of_decide_eq_true (all index (Nat.zero_le _) (by omega))⟩
    · intro all other _ before
      exact decide_eq_true (all.2 other (by omega))

/-- Where calls are patched, and where the code stays as it is. -/
theorem nativePatchUnitCalls_data
    (sites : CallSites (nativeTargetArchitecture target) code fixups) (counted : count < wordLimit)
    (patched : (nativePatchUnitCalls target code functions count fixups).1 = true) :
    (nativePatchUnitCalls target code functions count fixups).2.length = code.length ∧
    (∀ index, index < fixups.count → ∀ address,
      CallPlace (nativeTargetArchitecture target) fixups index address →
      (nativePatchUnitCalls target code functions count fixups).2.data address =
        callPatched (nativeTargetArchitecture target) functions (fixups.items index) code.data
          address) ∧
    ∀ address, (∀ index, index < fixups.count →
        ¬CallPlace (nativeTargetArchitecture target) fixups index address) →
      (nativePatchUnitCalls target code functions count fixups).2.data address =
        code.data address := by
  obtain ⟨patchAt, patches, free, _⟩ :=
    @nativePatchUnitCalls_from target functions count fixups code sites.bounded counted
  have run := patchFrom_eq patches sites fixups.count 0 code.data (Nat.zero_add _)
    fun other _ before => sites.placeholder other before
  have same := free ((nativePatchUnitCalls_iff sites counted).mp patched).1
  rw [same] at patched ⊢
  change patchFrom patchAt fixups.count 0 code = _ at run
  rw [run] at patched ⊢
  refine ⟨rfl, ?_, ?_⟩
  · intro index inside address here
    exact patchEach_inside sites.separate (Nat.le_of_eq (Nat.zero_add _)) code.data patched index
      (Nat.zero_le _) (by omega) address here
  · intro address outside
    exact patchEach_outside sites.separate (Nat.le_of_eq (Nat.zero_add _)) code.data
      fun other _ before => outside other (by omega)

/-- What patching the calls of a unit is for. Each call of a defined function leads there, the calls
of imported functions and all other bytes stay, and a distance that a call cannot hold is refused. -/
structure CallsExact (target : Nat) (code : ByteBuffer) (functions : Nat → NativeFunction)
    (count : Nat) (fixups : CallArena) : Prop where
  transfers : (nativePatchUnitCalls target code functions count fixups).1 = true →
    ∀ index, index < fixups.count → (callee functions (fixups.items index)).imported ≠ 1 →
      CallTransfers (nativeTargetArchitecture target)
        (nativePatchUnitCalls target code functions count fixups).2
        (fixups.items index).instruction (callee functions (fixups.items index)).offset
  imported : (nativePatchUnitCalls target code functions count fixups).1 = true →
    ∀ index, index < fixups.count → (callee functions (fixups.items index)).imported = 1 →
      ∀ address, CallPlace (nativeTargetArchitecture target) fixups index address →
        (nativePatchUnitCalls target code functions count fixups).2.data address =
          code.data address
  frame : (nativePatchUnitCalls target code functions count fixups).1 = true →
    (nativePatchUnitCalls target code functions count fixups).2.length = code.length ∧
    ∀ address, (∀ index, index < fixups.count →
        (callee functions (fixups.items index)).imported ≠ 1 →
        ¬CallPlace (nativeTargetArchitecture target) fixups index address) →
      (nativePatchUnitCalls target code functions count fixups).2.data address =
        code.data address
  refused : ∀ index, index < fixups.count →
    (callee functions (fixups.items index)).imported ≠ 1 →
    ¬CallFits (nativeTargetArchitecture target) (fixups.items index).instruction
      (callee functions (fixups.items index)).offset →
    (nativePatchUnitCalls target code functions count fixups).1 = false

/-- Whether a call names no function of the table, or a defined one whose place is not in the
code. -/
def CallRefused (code : ByteBuffer) (functions : Nat → NativeFunction) (count : Nat)
    (entry : CallFixup) : Prop :=
  entry.target = 0 ∨ count < entry.target ∨
    ((callee functions entry).imported ≠ 1 ∧ code.length < (callee functions entry).offset)

theorem patched_bytes
    (sites : CallSites (nativeTargetArchitecture target) code fixups) (counted : count < wordLimit)
    (patched : (nativePatchUnitCalls target code functions count fixups).1 = true) {index : Nat}
    (inside : index < fixups.count)
    (defined : (callee functions (fixups.items index)).imported ≠ 1) :
    CallBytes (nativeTargetArchitecture target)
      (nativePatchUnitCalls target code functions count fixups).2.data
      (fixups.items index).instruction (callee functions (fixups.items index)).offset := by
  have places := (nativePatchUnitCalls_data sites counted patched).2.1 index inside
  refine (callWritten_bytes (sites.placeholder index inside)).congr ?_
  intro address from_ upTo
  rw [places address ⟨from_, upTo⟩, callPatched, if_neg defined]

/-- Where every distance fits, each patched call leads to its function. -/
theorem patched_transfers
    (sites : CallSites (nativeTargetArchitecture target) code fixups) (counted : count < wordLimit)
    (patched : (nativePatchUnitCalls target code functions count fixups).1 = true) {index : Nat}
    (inside : index < fixups.count)
    (defined : (callee functions (fixups.items index)).imported ≠ 1)
    (fits : CallFits (nativeTargetArchitecture target) (fixups.items index).instruction
      (callee functions (fixups.items index)).offset) :
    CallTransfers (nativeTargetArchitecture target)
      (nativePatchUnitCalls target code functions count fixups).2
      (fixups.items index).instruction (callee functions (fixups.items index)).offset := by
  have bytes := patched_bytes sites counted patched inside defined
  have length := (nativePatchUnitCalls_data sites counted patched).1
  have room := sites.inside index inside
  have within := (((nativePatchUnitCalls_iff sites counted).mp patched).2 index inside).2.2.2
  have accepted := within.resolve_left defined
  rw [← length] at room accepted
  intro base below
  rcases nativeTargetArchitecture_cases target with intel | arm | riscV
  · rw [intel] at bytes room accepted fits ⊢
    rw [if_pos rfl]
    exact fun state loaded counter =>
      intel_transfers bytes room accepted below fits loaded counter
  · rw [arm] at bytes room accepted ⊢
    rw [if_neg (by decide), if_pos rfl]
    exact fun state loaded counter => arm_transfers bytes room accepted below loaded counter
  · rw [riscV] at bytes room accepted ⊢
    rw [if_neg (by decide), if_neg (by decide)]
    exact fun even state loaded counter =>
      riscV_transfers bytes room accepted below even loaded counter

/-- The calls of a unit are patched as they should be on AArch64 and RISC-V. On x86-64 this is so
exactly when patching is refused, or every distance fits. -/
theorem callsExact_iff (target : Nat) (code : ByteBuffer) (functions : Nat → NativeFunction)
    (count : Nat) (fixups : CallArena)
    (sites : CallSites (nativeTargetArchitecture target) code fixups)
    (counted : count < wordLimit) :
    CallsExact target code functions count fixups ↔
      nativeTargetArchitecture target ≠ 1 ∨ fixups.error ≠ 0 ∨
        (∃ index, index < fixups.count ∧
          CallRefused code functions count (fixups.items index)) ∨
        ∀ index, index < fixups.count → (callee functions (fixups.items index)).imported ≠ 1 →
          CallFits 1 (fixups.items index).instruction
            (callee functions (fixups.items index)).offset := by
  have refused : (nativePatchUnitCalls target code functions count fixups).1 = false ↔
      ¬((nativePatchUnitCalls target code functions count fixups).1 = true) := by
    rw [Bool.not_eq_true]
  have run := @nativePatchUnitCalls_iff target functions count fixups code sites counted
  constructor
  · intro exact_
    by_contra all
    push Not at all
    obtain ⟨intel, working, accepted, index, inside, defined, unfit⟩ := all
    have stopped := exact_.refused index inside defined (intel ▸ unfit)
    rw [refused, run] at stopped
    refine stopped ⟨?_, ?_⟩
    · rintro (failed | native)
      · exact failed working
      · exact native.1 intel
    · intro other before
      have known := accepted other before
      rw [CallRefused, not_or, not_or, not_and_or, not_not] at known
      refine ⟨known.1, Nat.le_of_not_lt known.2.1, fun native => absurd intel native, ?_⟩
      rw [intel]
      exact known.2.2.imp_right Nat.le_of_not_lt
  · intro condition
    have fits (patched : (nativePatchUnitCalls target code functions count fixups).1 = true)
        (index : Nat) (inside : index < fixups.count)
        (defined : (callee functions (fixups.items index)).imported ≠ 1) :
        CallFits (nativeTargetArchitecture target) (fixups.items index).instruction
          (callee functions (fixups.items index)).offset := by
      obtain ⟨free, accepted⟩ := run.mp patched
      by_cases intel : nativeTargetArchitecture target = 1
      · rcases condition with native | failed | ⟨other, before, stopped⟩ | fits
        · exact absurd intel native
        · exact absurd (.inl failed) free
        · obtain ⟨named, known, _, placed⟩ := accepted other before
          rw [intel] at placed
          rcases stopped with none | beyond | ⟨own, outside⟩
          · exact absurd none named
          · exact absurd beyond (Nat.not_lt.mpr known)
          · exact absurd (placed.resolve_left own) (Nat.not_le.mpr outside)
        · rw [intel]
          exact fits index inside defined
      · have within := (accepted index inside).2.2.2.resolve_left defined
        exact within.fits intel sites.bounded
    refine ⟨?_, ?_, ?_, ?_⟩
    · exact fun patched index inside defined =>
        patched_transfers sites counted patched inside defined (fits patched index inside defined)
    · intro patched index inside imported address here
      rw [(nativePatchUnitCalls_data sites counted patched).2.1 index inside address here,
        callPatched, if_pos imported]
    · intro patched
      obtain ⟨length, places, outside⟩ := nativePatchUnitCalls_data sites counted patched
      refine ⟨length, ?_⟩
      intro address apart
      by_cases here : ∃ index, index < fixups.count ∧
          CallPlace (nativeTargetArchitecture target) fixups index address
      · obtain ⟨index, inside, place⟩ := here
        have imported : (callee functions (fixups.items index)).imported = 1 :=
          not_not.mp fun defined => apart index inside defined place
        rw [places index inside address place, callPatched, if_pos imported]
      · exact outside address fun index inside place => here ⟨index, inside, place⟩
    · intro index inside defined unfit
      rw [refused]
      exact fun patched => unfit (fits patched index inside defined)

/-- A call at the start of the code, and the bytes behind it. -/
def callAlone (length : Nat) : ByteBuffer where
  data address := if address = 0 then 0xe8 else 0
  length := length
  capacity := length

/-- One call of one function. -/
def oneCall : CallArena where
  items _ := { instruction := 0, target := 1 }
  count := 1
  capacity := 1

theorem callAlone_sites {length : Nat} (room : 5 ≤ length) (below : length < wordLimit) :
    CallSites 1 (callAlone length) oneCall where
  bounded := below
  counted := by decide
  inside _ _ := room
  placeholder _ _ := ⟨rfl, rfl⟩
  distinct index other inside otherInside different := by
    change index < 1 at inside
    change other < 1 at otherInside
    omega

/-- A call to the byte behind it is patched as it should be. -/
theorem callAlone_exact :
    CallsExact 0 (callAlone 6) (fun _ => { offset := 5, size := 1 }) 1 oneCall := by
  refine (callsExact_iff 0 (callAlone 6) _ 1 oneCall (callAlone_sites (by decide) (by decide))
    (by decide)).mpr (.inr (.inr (.inr ?_)))
  exact fun index _ _ => ⟨0, by decide, (show (0 + 5 + signExtended 32 0) % wordCount = 5 by decide)⟩

/-- A call over 2147483648 bytes is patched on x86-64, although its distance does not fit. -/
theorem callAlone_far : ¬CallsExact 0 (callAlone 2147483660)
    (fun _ => { offset := 2147483653, size := 1 }) 1 oneCall := by
  intro exact_
  have sites := @callAlone_sites 2147483660 (by decide) (by decide)
  have stopped := exact_.refused 0 (by decide) (by decide) (by
    intro fits
    change CallFits 1 0 2147483653 at fits
    rw [intel_fits_iff (by decide)] at fits
    exact absurd fits (by decide))
  have patched := (@nativePatchUnitCalls_iff 0 (fun _ => { offset := 2147483653, size := 1 }) 1 oneCall
    (callAlone 2147483660) sites (by decide)).mpr ⟨?_, ?_⟩
  · rw [stopped] at patched
    cases patched
  · rintro (failed | native)
    · exact failed rfl
    · exact native.1 rfl
  · intro index inside
    exact ⟨Nat.one_ne_zero, Nat.le_refl 1, fun native => absurd rfl native,
      .inr (show 2147483653 ≤ 2147483660 by decide)⟩

end Units

end Native
