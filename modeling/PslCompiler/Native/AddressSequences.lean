import PslCompiler.Native.CallTransfers
import PslCompiler.Native.FunctionAddresses

/-! # Recorded address sequences

Each recorded sequence stands in the code as it was encoded, apart from the others. Its check then
looks at its function and the distance only (`nativeFunctionAddressEntryP_iff`), and patching it is
storing the distance in its fields (`nativePatchFunctionAddressAt_eq`).
-/

namespace Native

open Machines Buffers

/-! ## Encoding -/

/-- The words of a sequence that is not patched yet. -/
def addressPieces (architecture : Nat) : List (Nat × Nat) :=
  if architecture = 1 then [(0x058d48, 3), (0, 4)]
  else if architecture = 2 then
    [(0x10000009, 4), (0xd280000a, 4), (0xf2a0000a, 4), (0xf2c0000a, 4), (0xf2e0000a, 4),
      (0x8b0a0129, 4)]
  else [(0x297, 4), (0x28293, 4)]

/-- The number of bytes of a sequence. -/
def addressSize (architecture : Nat) : Nat :=
  piecesSize (addressPieces architecture)

theorem nativeFunctionAddressSize_eq (target : Nat) :
    nativeFunctionAddressSize target = addressSize (nativeTargetArchitecture target) := by
  unfold nativeFunctionAddressSize
  rcases nativeTargetArchitecture_cases target with known | known | known <;> rw [known] <;> rfl

section Encoding

variable {code : ByteBuffer}

theorem emitInteger_of_room (valid : code.Valid) {bits count : Nat} (few : count ≤ 8)
    (room : code.length + count ≤ code.capacity) :
    emitInteger code bits count = (true, code.emitted bits count) := by
  rw [emitInteger_eq valid few, if_pos room]

theorem x86EncodeFunctionAddress_eq (valid : code.Valid) (room : code.length + 7 ≤ code.capacity) :
    x86EncodeFunctionAddress code = (true, code.emittedPieces (addressPieces 1)) := by
  rw [x86EncodeFunctionAddress, emitInteger_of_room valid (by decide) (by omega)]
  exact @emitInteger_of_room (code.emitted 0x058d48 3) (valid.emitted _ (by omega)) 0 4 (by decide)
    (by change code.length + 3 + 4 ≤ code.capacity; omega)

theorem rvEncodeFunctionAddress_eq (valid : code.Valid) (room : code.length + 8 ≤ code.capacity) :
    rvEncodeFunctionAddress code = (true, code.emittedPieces (addressPieces 3)) := by
  rw [rvEncodeFunctionAddress, rvWord, emitInteger_of_room valid (by decide) (by omega)]
  exact @emitInteger_of_room (code.emitted 0x297 4) (valid.emitted _ (by omega)) 0x28293 4
    (by decide) (by change code.length + 4 + 4 ≤ code.capacity; omega)

/-- The words for some halves of a distance from one on. -/
def a64DeltaPieces : Nat → Nat → List (Nat × Nat)
  | 0, _ => [(0x8b0a0129, 4)]
  | remaining + 1, half =>
      (a64FunctionDeltaBase half, 4) :: a64DeltaPieces remaining (half + 1)

theorem a64EncodeFunctionDelta_eq : ∀ {remaining half : Nat} {code : ByteBuffer}, code.Valid →
    half + remaining < wordLimit → code.length + 4 * (remaining + 1) ≤ code.capacity →
      a64EncodeFunctionDelta remaining code half =
        (true, code.emittedPieces (a64DeltaPieces remaining half)) := by
  intro remaining
  induction remaining with
  | zero => exact fun valid _ room => emitInteger_of_room valid (by decide) room
  | succ remaining ih =>
      intro half code valid below room
      rw [a64EncodeFunctionDelta, a64Word, emitInteger_of_room valid (by decide) (by omega)]
      dsimp only
      rw [wrapAdd_eq (by omega), if_neg (fun failed => Bool.noConfusion failed)]
      exact ih (valid.emitted _ (by omega)) (by omega)
        (by change code.length + 4 + _ ≤ code.capacity; omega)

theorem a64EncodeFunctionAddress_eq (valid : code.Valid) (room : code.length + 24 ≤ code.capacity) :
    a64EncodeFunctionAddress code = (true, code.emittedPieces (addressPieces 2)) := by
  rw [a64EncodeFunctionAddress, a64Word, emitInteger_of_room valid (by decide) (by omega)]
  exact a64EncodeFunctionDelta_eq (valid.emitted _ (by omega)) (by decide)
    (by change code.length + 4 + 20 ≤ code.capacity; omega)

end Encoding

/-- Sequences are recorded one after the other; in between, the code grows or moves, and each
sequence keeps its bytes at a place of its own. -/
inductive AddressRecording (target : Nat) : ByteBuffer → CallArena → Prop
  | start {code : ByteBuffer} {addresses : CallArena} (valid : code.Valid)
      (empty : addresses.count = 0) (bounded : addresses.capacity < wordLimit)
      (clean : addresses.error = 0) : AddressRecording target code addresses
  | encode {code encoded : ByteBuffer} {addresses recorded : CallArena} {function : Nat}
      (before : AddressRecording target code addresses)
      (encodes : nativeEncodeFunctionAddress target code addresses function =
        (true, encoded, recorded)) : AddressRecording target encoded recorded
  | carry {code other : ByteBuffer} {addresses moved : CallArena}
      (before : AddressRecording target code addresses) (valid : other.Valid)
      (counted : moved.count = addresses.count) (room : moved.capacity = addresses.capacity)
      (clean : moved.error = addresses.error)
      (references : ∀ index, index < addresses.count →
        (moved.items index).target = (addresses.items index).target)
      (inside : ∀ index, index < addresses.count →
        (moved.items index).instruction + nativeFunctionAddressSize target ≤ other.length)
      (kept : ∀ index, index < addresses.count → ∀ offset, offset < nativeFunctionAddressSize target →
        other.data ((moved.items index).instruction + offset) =
          code.data ((addresses.items index).instruction + offset))
      (distinct : ∀ index later, index < addresses.count → later < addresses.count → index ≠ later →
        (moved.items index).instruction ≠ (moved.items later).instruction) :
      AddressRecording target other moved

/-- The recorded sequences stand in the code, each at a place of its own. -/
structure AddressSites (architecture : Nat) (code : ByteBuffer) (addresses : CallArena) : Prop where
  valid : code.Valid
  counted : addresses.count ≤ addresses.capacity
  bounded : addresses.capacity < wordLimit
  clean : addresses.error = 0
  inside : ∀ index, index < addresses.count →
    (addresses.items index).instruction + addressSize architecture ≤ code.length
  stands : ∀ index, index < addresses.count →
    Pieces code.data (addresses.items index).instruction (addressPieces architecture)
  distinct : ∀ index later, index < addresses.count → later < addresses.count → index ≠ later →
    (addresses.items index).instruction ≠ (addresses.items later).instruction

theorem addressPieces_small {architecture : Nat} :
    ∀ piece ∈ addressPieces architecture, piece.1 < 256 ^ piece.2 := by
  unfold addressPieces
  split_ifs <;> decide

section Recording

variable {target : Nat} {code encoded : ByteBuffer} {addresses recorded : CallArena} {function : Nat}

/-- A sequence that is encoded stands behind the code before it, and is recorded there. -/
theorem nativeEncodeFunctionAddress_records
    (sites : AddressSites (nativeTargetArchitecture target) code addresses)
    (encodes : nativeEncodeFunctionAddress target code addresses function =
      (true, encoded, recorded)) :
    code.length + addressSize (nativeTargetArchitecture target) ≤ code.capacity ∧
      addresses.count < addresses.capacity ∧
      encoded = code.emittedPieces (addressPieces (nativeTargetArchitecture target)) ∧
      recorded = { addresses with
        items := Function.update addresses.items addresses.count ⟨code.length, function⟩
        count := addresses.count + 1 } := by
  have valid := sites.valid
  unfold nativeEncodeFunctionAddress at encodes
  rw [nativeFunctionAddressSize_eq] at encodes
  dsimp only at encodes
  by_cases refused : nativeTargetValidP target = false ∨ function = 0 ∨
      nativeFunctionAddressBufferP code = false ∨ nativeFunctionAddressArenaP addresses = false ∨
      addresses.count = addresses.capacity ∨
      roomFor code (addressSize (nativeTargetArchitecture target)) = false
  · split_ifs at encodes <;> simp_all
  push Not at refused
  obtain ⟨valid_, real, buffered, arena, notFull, hasRoom⟩ := refused
  rw [if_neg valid_, if_neg real, if_neg buffered, if_neg arena, if_neg notFull, if_neg hasRoom]
    at encodes
  have room := (roomFor_iff valid).mp (Bool.eq_true_of_not_eq_false hasRoom)
  have free : addresses.count < addresses.capacity := Nat.lt_of_le_of_ne sites.counted notFull
  have bounded := sites.bounded
  have encoding : (if nativeTargetArchitecture target = 1 then x86EncodeFunctionAddress code
      else if nativeTargetArchitecture target = 2 then a64EncodeFunctionAddress code
      else rvEncodeFunctionAddress code) =
        (true, code.emittedPieces (addressPieces (nativeTargetArchitecture target))) := by
    rcases nativeTargetArchitecture_cases target with known | known | known
    all_goals rw [known] at room ⊢
    · exact x86EncodeFunctionAddress_eq valid room
    · exact a64EncodeFunctionAddress_eq valid room
    · exact rvEncodeFunctionAddress_eq valid room
  rw [encoding, if_neg (fun failed => Bool.noConfusion failed), recordCallFixup, if_pos free,
    wrapAdd_eq (by omega)] at encodes
  obtain ⟨-, rest⟩ := Prod.mk.inj encodes
  obtain ⟨same, also⟩ := Prod.mk.inj rest
  exact ⟨room, free, same.symm, also.symm⟩

/-- Every recorded sequence stands at its place. -/
theorem AddressRecording.sites (recording : AddressRecording target code addresses) :
    AddressSites (nativeTargetArchitecture target) code addresses := by
  induction recording with
  | start valid empty bounded clean =>
      have none (index : Nat) : ¬index < _ := empty ▸ Nat.not_lt_zero index
      exact ⟨valid, empty ▸ Nat.zero_le _, bounded, clean,
        fun index before => absurd before (none index),
        fun index before => absurd before (none index),
        fun index _ before => absurd before (none index)⟩
  | @encode code encoded addresses recorded function before encodes ih =>
      obtain ⟨room, free, rfl, rfl⟩ := nativeEncodeFunctionAddress_records ih encodes
      have old (index : Nat) (known : index < addresses.count) :
          Function.update addresses.items addresses.count ⟨code.length, function⟩ index =
            addresses.items index := Function.update_of_ne (Nat.ne_of_lt known) _ _
      have new : Function.update addresses.items addresses.count ⟨code.length, function⟩
          addresses.count = ⟨code.length, function⟩ := Function.update_self _ _ _
      have behind (index : Nat) (known : index < addresses.count) :
          (addresses.items index).instruction < code.length := by
        have inside := ih.inside index known
        have positive : 0 < addressSize (nativeTargetArchitecture target) := by
          rcases nativeTargetArchitecture_cases target with arch | arch | arch <;>
            rw [arch] <;> decide
        omega
      refine ⟨ih.valid.emittedPieces room, free, ih.bounded, ih.clean, ?_, ?_, ?_⟩
      all_goals dsimp only
      · intro index within
        rw [emittedPieces_length]
        rcases Nat.lt_or_eq_of_le (Nat.le_of_lt_succ within) with known | rfl
        · rw [old index known]
          exact Nat.le_trans (ih.inside index known) (Nat.le_add_right _ _)
        · rw [new]
          exact Nat.le_refl _
      · intro index within
        rcases Nat.lt_or_eq_of_le (Nat.le_of_lt_succ within) with known | rfl
        · rw [old index known]
          refine (ih.stands index known).congr fun offset inside => emittedPieces_before ?_
          exact Nat.lt_of_lt_of_le (Nat.add_lt_add_left inside _) (ih.inside index known)
        · rw [new]
          exact ByteBuffer.emittedPieces_pieces addressPieces_small
      · intro index later within laterWithin different
        rcases Nat.lt_or_eq_of_le (Nat.le_of_lt_succ within) with known | rfl
        · rw [old index known]
          rcases Nat.lt_or_eq_of_le (Nat.le_of_lt_succ laterWithin) with laterKnown | rfl
          · rw [old later laterKnown]
            exact ih.distinct index later known laterKnown different
          · rw [new]
            exact Nat.ne_of_lt (behind index known)
        · rw [new, old later (by omega)]
          exact Nat.ne_of_gt (behind later (by omega))
  | carry before valid counted room clean references inside kept distinct ih =>
      rw [nativeFunctionAddressSize_eq] at inside kept
      exact ⟨valid, counted ▸ room ▸ ih.counted, room ▸ ih.bounded, clean.trans ih.clean,
        fun index within => inside index (counted ▸ within),
        fun index within => (ih.stands index (counted ▸ within)).congr
          (kept index (counted ▸ within)),
        fun index later within laterWithin =>
          distinct index later (counted ▸ within) (counted ▸ laterWithin)⟩

end Recording

/-! ## One sequence -/

/-- In a table in which the defined functions precede the imported ones. -/
def DefinedFirst (functions : Nat → NativeFunction) (count : Nat) : Prop :=
  ∀ index later, index < later → later < count → (functions index).imported = 1 →
    (functions later).imported = 1

/-- A recorded sequence names a defined function of a table. -/
def NamesDefined (functions : Nat → NativeFunction) (count : Nat) (entry : CallFixup) : Prop :=
  entry.target ≠ 0 ∧ entry.target ≤ count ∧ (callee functions entry).imported ≠ 1

/-- The code of a function is not empty and inside the code. -/
def SpanWithin (length : Nat) (function : NativeFunction) : Prop :=
  function.size ≠ 0 ∧ function.offset + function.size ≤ length

/-- The distances that a back end accepts. -/
def AddressReach (architecture anchor destination : Nat) : Prop :=
  if architecture = 1 then
    anchor + 7 ≤ destination + 2 ^ 31 ∧ destination < anchor + 7 + 2 ^ 31
  else if architecture = 2 then True
  else anchor ≤ destination + 2 ^ 31 ∧ destination + 2049 ≤ anchor + 2 ^ 31

/-- What is needed for a recorded sequence to be patched. -/
def AddressAccepted (architecture length : Nat) (functions : Nat → NativeFunction) (count : Nat)
    (entry : CallFixup) : Prop :=
  NamesDefined functions count entry ∧ SpanWithin length (callee functions entry) ∧
    AddressReach architecture entry.instruction (callee functions entry).offset

section Defined

variable {functions : Nat → NativeFunction} {count : Nat}

theorem nativeFunctionDefinedTargetFrom_of : ∀ {remaining index : Nat},
    index + remaining < wordLimit →
    (∀ other, index ≤ other → other < index + remaining → (functions other).imported ≠ 1) →
      nativeFunctionDefinedTargetFrom functions remaining index = true := by
  intro remaining
  induction remaining with
  | zero => exact fun _ _ => rfl
  | succ remaining ih =>
      intro index below defined
      rw [nativeFunctionDefinedTargetFrom, if_neg (defined index (Nat.le_refl _) (by omega)),
        wrapAdd_eq (by omega)]
      exact ih (by omega) fun other after before => defined other (by omega) (by omega)

/-- The walk over the table finds out whether a reference is to a defined function. -/
theorem nativeFunctionDefinedTargetP_iff (partitioned : DefinedFirst functions count)
    (counted : count < wordLimit) (entry : CallFixup) :
    nativeFunctionDefinedTargetP functions count entry.target = true ↔
      NamesDefined functions count entry := by
  unfold nativeFunctionDefinedTargetP NamesDefined callee
  by_cases none : entry.target = 0
  · rw [if_pos none]
    exact ⟨fun failed => Bool.noConfusion failed, fun names => absurd none names.1⟩
  by_cases beyond : count < entry.target
  · rw [if_neg none, if_pos beyond]
    exact ⟨fun failed => Bool.noConfusion failed,
      fun names => absurd names.2.1 (Nat.not_le.mpr beyond)⟩
  rw [if_neg none, if_neg beyond, wrapSub_eq (Nat.one_le_iff_ne_zero.mpr none) (by omega)]
  by_cases imported : (functions (entry.target - 1)).imported = 1
  · rw [if_pos imported]
    exact ⟨fun failed => Bool.noConfusion failed, fun names => absurd imported names.2.2⟩
  · rw [if_neg imported]
    refine ⟨fun _ => ⟨none, Nat.le_of_not_lt beyond, imported⟩, fun _ => ?_⟩
    refine nativeFunctionDefinedTargetFrom_of (by omega) fun other _ before known => ?_
    exact imported (partitioned other (entry.target - 1) (by omega) (by omega) known)

end Defined

section Shapes

variable {code : ByteBuffer} {anchor : Nat}

theorem x86FunctionAddressShapeP_of (stands : Pieces code.data anchor (addressPieces 1)) :
    x86FunctionAddressShapeP code anchor = true := by
  have opcode : loadWord code.data anchor 3 = 0x058d48 := stands.1
  rw [x86FunctionAddressShapeP, readU32Le_eq, show (0xffffff : Nat) = 2 ^ 24 - 1 by norm_num,
    Nat.and_two_pow_sub_one_eq_mod, show (2 : Nat) ^ 24 = 256 ^ 3 by norm_num,
    ← loadWord_take (by decide), if_pos opcode]

theorem rvFunctionAddressShapeP_of (stands : Pieces code.data anchor (addressPieces 3))
    (below : anchor + 8 < wordLimit) : rvFunctionAddressShapeP code anchor = true := by
  obtain ⟨upper, lower, -⟩ := stands
  rw [rvFunctionAddressShapeP, readU32Le_eq, readU32Le_eq, wrapAdd_eq (by omega), upper, lower,
    if_pos (by decide), if_pos (by decide)]

/-- The place of the word for a half of a distance. -/
theorem deltaPlace_eq {half : Nat} (below : anchor + 24 < wordLimit) (few : half < 4) :
    wrapAdd anchor (wrapMul (wrapAdd half 1) 4) = anchor + 4 * (half + 1) := by
  have next : wrapAdd half 1 = half + 1 := wrapAdd_eq (by omega)
  have scaled : wrapMul (half + 1) 4 = 4 * (half + 1) := by
    rw [wrapMul, Nat.mod_eq_of_lt (by omega), Nat.mul_comm]
  rw [next, scaled, wrapAdd_eq (by omega)]

/-- A half whose word has the shape of its instruction is passed. -/
theorem a64FunctionDeltaShapeP_succ {remaining half word : Nat} (below : anchor + 24 < wordLimit)
    (few : half < 4) (loaded : loadWord code.data (anchor + 4 * (half + 1)) 4 = word)
    (masked : word &&& 0xffe0001f = a64FunctionDeltaBase half) :
    a64FunctionDeltaShapeP code anchor (remaining + 1) half =
      a64FunctionDeltaShapeP code anchor remaining (half + 1) := by
  have place := @deltaPlace_eq anchor half below few
  rw [a64FunctionDeltaShapeP, place, readU32Le_eq, loaded, if_pos masked, wrapAdd_eq (by omega)]

theorem a64FunctionAddressShapeP_of (stands : Pieces code.data anchor (addressPieces 2))
    (below : anchor + 24 < wordLimit) : a64FunctionAddressShapeP code anchor = true := by
  obtain ⟨position, first, second, third, fourth, addition, -⟩ := stands
  rw [a64FunctionAddressShapeP, readU32Le_eq, readU32Le_eq, wrapAdd_eq (by omega), if_pos position,
    if_pos (show loadWord code.data (anchor + 20) 4 = 0x8b0a0129 from addition)]
  calc a64FunctionDeltaShapeP code anchor 4 0
      = a64FunctionDeltaShapeP code anchor 3 1 :=
        a64FunctionDeltaShapeP_succ below (by decide) first (by decide)
    _ = a64FunctionDeltaShapeP code anchor 2 2 :=
        a64FunctionDeltaShapeP_succ below (by decide) second (by decide)
    _ = a64FunctionDeltaShapeP code anchor 1 3 :=
        a64FunctionDeltaShapeP_succ below (by decide) third (by decide)
    _ = a64FunctionDeltaShapeP code anchor 0 4 :=
        a64FunctionDeltaShapeP_succ below (by decide) fourth (by decide)

end Shapes

section Ranges

variable {anchor destination : Nat}

theorem x86FunctionAddressRangeP_iff (inside : anchor + 7 < wordLimit)
    (known : destination < wordLimit) :
    x86FunctionAddressRangeP destination anchor = true ↔ AddressReach 1 anchor destination := by
  unfold x86FunctionAddressRangeP
  rw [wrapAdd_eq inside]
  change _ ↔ anchor + 7 ≤ destination + 2 ^ 31 ∧ destination < anchor + 7 + 2 ^ 31
  dsimp only
  by_cases back : destination < anchor + 7
  · rw [if_pos back, wrapSub_eq (Nat.le_of_lt back) inside]
    split_ifs <;> simp <;> omega
  · rw [if_neg back, wrapSub_eq (Nat.le_of_not_lt back) known]
    split_ifs <;> simp <;> omega

theorem rvFunctionAddressRangeP_iff (inside : anchor < wordLimit) (known : destination < wordLimit) :
    rvFunctionAddressRangeP destination anchor = true ↔ AddressReach 3 anchor destination := by
  unfold rvFunctionAddressRangeP
  change _ ↔ anchor ≤ destination + 2 ^ 31 ∧ destination + 2049 ≤ anchor + 2 ^ 31
  by_cases back : destination < anchor
  · rw [if_pos back, wrapSub_eq (Nat.le_of_lt back) inside]
    split_ifs <;> simp <;> omega
  · rw [if_neg back, wrapSub_eq (Nat.le_of_not_lt back) known]
    split_ifs <;> simp <;> omega

end Ranges

/-- The bytes of a sequence, one by one, begin with one that does not occur in it again. -/
theorem addressPieces_marked {architecture : Nat} : ∀ offset, 0 < offset →
    offset < piecesSize (addressPieces architecture) →
      pieceByte (addressPieces architecture) offset ≠ pieceByte (addressPieces architecture) 0 := by
  have check (pieces : List (Nat × Nat)) (all : ∀ offset ∈ List.range (piecesSize pieces),
      0 < offset → pieceByte pieces offset ≠ pieceByte pieces 0) :
      ∀ offset, 0 < offset → offset < piecesSize pieces →
        pieceByte pieces offset ≠ pieceByte pieces 0 :=
    fun offset positive inside => all offset (List.mem_range.mpr inside) positive
  refine check _ ?_
  unfold addressPieces
  split_ifs <;> decide

/-- The bytes that make a sequence yield the address of a destination. -/
def addressWritten (architecture anchor destination : Nat) (data : Memory) : Memory :=
  let delta := distance anchor destination
  if architecture = 1 then
    storeWord data (anchor + 3) (distance (anchor + 7) destination % 2 ^ 32) 4
  else if architecture = 2 then
    storeWord (storeWord (storeWord (storeWord data
      (anchor + 4) (0xd280000a + delta % 2 ^ 16 * 32) 4)
      (anchor + 8) (0xf2a0000a + delta / 2 ^ 16 % 2 ^ 16 * 32) 4)
      (anchor + 12) (0xf2c0000a + delta / 2 ^ 32 % 2 ^ 16 * 32) 4)
      (anchor + 16) (0xf2e0000a + delta / 2 ^ 48 % 2 ^ 16 * 32) 4
  else
    storeWord (storeWord data
      anchor (0x297 + (delta + 2048) % wordCount / 4096 % 2 ^ 20 * 4096) 4)
      (anchor + 4) (0x28293 + delta % 4096 * 2 ^ 20) 4

section Patching

variable {code : ByteBuffer} {anchor destination : Nat}

theorem x86PatchFunctionAddress_eq (below : code.length < wordLimit)
    (inside : anchor + 7 ≤ code.length) :
    x86PatchFunctionAddress code anchor destination =
      (true, { code with data := addressWritten 1 anchor destination code.data }) := by
  rw [x86PatchFunctionAddress, wrapAdd_eq (by omega), wrapAdd_eq (by omega),
    wrapSub_distance (by omega), patchI32_eq code below (by omega)]
  rfl

theorem rvAddressUpper_eq (delta : Nat) :
    castS32 (wrapAdd (wrapAdd delta 2048 &&& 0xfffff000) 0x297) =
      0x297 + (delta + 2048) % wordCount / 4096 % 2 ^ 20 * 4096 := by
  rw [land_upper]
  unfold castS32 wrapAdd wordLimit wordCount
  omega

theorem rvAddressLower_eq (delta : Nat) :
    castS32 (rvIWord 0x13 5 5 0 delta) = 0x28293 + delta % 4096 * 2 ^ 20 := by
  have small := Nat.mod_lt delta (show 0 < 4096 by norm_num)
  unfold castS32 rvIWord wrapAdd wrapMul wordLimit
  rw [show (4095 : Nat) = 2 ^ 12 - 1 by norm_num, Nat.and_two_pow_sub_one_eq_mod]
  norm_num
  omega

theorem rvPatchFunctionAddress_eq (below : code.length < wordLimit)
    (inside : anchor + 8 ≤ code.length) :
    rvPatchFunctionAddress code anchor destination =
      (true, { code with data := addressWritten 3 anchor destination code.data }) := by
  rw [rvPatchFunctionAddress, wrapSub_distance (by omega), rvAddressUpper_eq, rvAddressLower_eq,
    patchI32_eq code below (by omega), wrapAdd_eq (by omega)]
  dsimp only
  rw [if_neg (fun failed => Bool.noConfusion failed)]
  exact @patchI32_eq { code with data := _ } _ _ below (by change _ ≤ code.length; omega)

/-- The word for a half of a distance is patched. -/
theorem a64PatchFunctionDelta_succ {delta remaining half : Nat} {data : Memory} (below : code.length < wordLimit)
    (inside : anchor + 24 ≤ code.length) (few : half < 4) :
    a64PatchFunctionDelta anchor delta (remaining + 1) { code with data } half =
      a64PatchFunctionDelta anchor delta remaining
        { code with
          data := storeWord data (anchor + 4 * (half + 1))
            (a64FunctionDeltaBase half + delta / 2 ^ (16 * half) % 2 ^ 16 * 32) 4 }
        (half + 1) := by
  have shift : shr64 delta (wrapMul half 16) = delta / 2 ^ (16 * half) := by
    rw [shr64, wrapMul, Nat.mod_eq_of_lt (show half * 16 < wordLimit by unfold wordLimit; omega),
      Nat.mod_eq_of_lt (by omega), Nat.mul_comm]
  have piece := Nat.mod_lt (delta / 2 ^ (16 * half)) (show 0 < 2 ^ 16 by norm_num)
  have base : a64FunctionDeltaBase half ≤ 0xf2e0000a := by
    interval_cases half <;> decide
  have word : castS32 (wrapAdd (a64FunctionDeltaBase half)
      (wrapMul (delta / 2 ^ (16 * half) % 2 ^ 16) 32)) =
        a64FunctionDeltaBase half + delta / 2 ^ (16 * half) % 2 ^ 16 * 32 := by
    unfold castS32 wrapAdd wrapMul wordLimit
    omega
  rw [a64PatchFunctionDelta, deltaPlace_eq (by omega) few, shift,
    show (65535 : Nat) = 2 ^ 16 - 1 by norm_num, Nat.and_two_pow_sub_one_eq_mod, word,
    @patchI32_eq { code with data } _ _ below (by change _ ≤ code.length; omega)]
  dsimp only
  rw [if_neg (fun failed => Bool.noConfusion failed), wrapAdd_eq (by omega)]

theorem a64PatchFunctionAddress_eq (below : code.length < wordLimit)
    (inside : anchor + 24 ≤ code.length) :
    a64PatchFunctionAddress code anchor destination =
      (true, { code with data := addressWritten 2 anchor destination code.data }) := by
  rw [a64PatchFunctionAddress, wrapSub_distance (by omega)]
  refine (a64PatchFunctionDelta_succ below inside (by decide)).trans ?_
  rw [a64PatchFunctionDelta_succ below inside (by decide),
    a64PatchFunctionDelta_succ below inside (by decide),
    a64PatchFunctionDelta_succ below inside (by decide), a64PatchFunctionDelta]
  unfold addressWritten
  norm_num [a64FunctionDeltaBase, wrapAdd, wrapMul, wordLimit]

theorem addressWritten_pointwise {architecture address : Nat} {data other : Memory}
    (same : data address = other address) :
    addressWritten architecture anchor destination data address =
      addressWritten architecture anchor destination other address := by
  unfold addressWritten
  split_ifs
  · exact storeWord_pointwise same
  · exact storeWord_pointwise (storeWord_pointwise (storeWord_pointwise (storeWord_pointwise same)))
  · exact storeWord_pointwise (storeWord_pointwise same)

theorem addressWritten_outside {architecture address : Nat} {data : Memory}
    (outside : address < anchor ∨ anchor + addressSize architecture ≤ address) :
    addressWritten architecture anchor destination data address = data address := by
  unfold addressWritten
  split_ifs with intel arm
  · rw [intel] at outside
    change _ ∨ anchor + 7 ≤ address at outside
    exact storeWord_outside (by omega)
  · rw [arm] at outside
    change _ ∨ anchor + 24 ≤ address at outside
    rw [storeWord_outside (by omega), storeWord_outside (by omega), storeWord_outside (by omega),
      storeWord_outside (by omega)]
  · have size : addressSize architecture = 8 := by
      rw [addressSize, addressPieces, if_neg intel, if_neg arm]
      rfl
    rw [storeWord_outside (by omega), storeWord_outside (by omega)]

end Patching

/-! ## Checks and patches of a back end -/

section Dispatch

variable {target count : Nat} {code : ByteBuffer} {functions : Nat → NativeFunction}
  {addresses : CallArena}

/-- Where a sequence stands in the code, its last check is that of the distance. -/
theorem addressReach_iff {anchor destination : Nat} (below : code.length < wordLimit)
    (known : destination < wordLimit)
    (inside : anchor + addressSize (nativeTargetArchitecture target) ≤ code.length)
    (stands : Pieces code.data anchor (addressPieces (nativeTargetArchitecture target))) :
    (if nativeTargetArchitecture target = 1 then
        if x86FunctionAddressShapeP code anchor = false then false
        else x86FunctionAddressRangeP destination anchor
      else if nativeTargetArchitecture target = 2 then a64FunctionAddressShapeP code anchor
      else if rvFunctionAddressShapeP code anchor = false then false
      else rvFunctionAddressRangeP destination anchor) = true ↔
      AddressReach (nativeTargetArchitecture target) anchor destination := by
  rcases nativeTargetArchitecture_cases target with intel | arm | riscV
  · rw [intel] at inside stands ⊢
    change anchor + 7 ≤ code.length at inside
    rw [if_pos rfl, x86FunctionAddressShapeP_of stands, if_neg Bool.noConfusion]
    exact x86FunctionAddressRangeP_iff (by omega) known
  · rw [arm] at inside stands ⊢
    change anchor + 24 ≤ code.length at inside
    rw [if_neg (by decide), if_pos rfl, a64FunctionAddressShapeP_of stands (by omega)]
    exact iff_of_true rfl trivial
  · rw [riscV] at inside stands ⊢
    change anchor + 8 ≤ code.length at inside
    rw [if_neg (by decide), if_neg (by decide), rvFunctionAddressShapeP_of stands (by omega),
      if_neg Bool.noConfusion]
    exact rvFunctionAddressRangeP_iff (by omega) known

/-- The check of a sequence that stands in the code is about its function and the distance. -/
theorem nativeFunctionAddressEntryP_iff (partitioned : DefinedFirst functions count)
    (counted : count < wordLimit) (below : code.length < wordLimit) {entry : CallFixup}
    (inside : entry.instruction + addressSize (nativeTargetArchitecture target) ≤ code.length)
    (stands : Pieces code.data entry.instruction
      (addressPieces (nativeTargetArchitecture target))) :
    nativeFunctionAddressEntryP target code functions count entry = true ↔
      AddressAccepted (nativeTargetArchitecture target) code.length functions count entry := by
  have defined := nativeFunctionDefinedTargetP_iff partitioned counted entry
  unfold nativeFunctionAddressEntryP AddressAccepted
  dsimp only
  by_cases named : NamesDefined functions count entry
  swap
  · rw [Bool.eq_false_iff.mpr (mt defined.mp named), if_neg Bool.false_ne_true, ite_self, ite_self,
      ite_self]
    exact iff_of_false Bool.false_ne_true fun accepted => named accepted.1
  have real := named.1
  have listed := named.2.1
  rw [if_neg (not_or.mpr ⟨real, Nat.not_lt.mpr listed⟩), if_neg (by omega),
    wrapSub_eq (by omega) below, nativeFunctionAddressSize_eq, if_neg (by omega),
    if_pos (defined.mpr named), wrapSub_eq (Nat.one_le_iff_ne_zero.mpr real) (by omega)]
  have span : SpanWithin code.length (callee functions entry) ↔
      (functions (entry.target - 1)).size ≠ 0 ∧
        (functions (entry.target - 1)).offset + (functions (entry.target - 1)).size ≤
          code.length := Iff.rfl
  by_cases outside : (functions (entry.target - 1)).size = 0 ∨
      code.length < (functions (entry.target - 1)).offset
  · rw [if_pos outside, span]
    exact iff_of_false Bool.false_ne_true fun accepted => by omega
  have after := not_or.mp outside
  rw [if_neg outside, wrapSub_eq (by omega) below]
  by_cases long : code.length - (functions (entry.target - 1)).offset <
      (functions (entry.target - 1)).size
  · rw [if_pos long, span]
    exact iff_of_false Bool.false_ne_true fun accepted => by omega
  · rw [if_neg long, span, addressReach_iff below (by omega) inside stands]
    exact ⟨fun reach => ⟨named, ⟨after.1, by omega⟩, reach⟩, fun accepted => accepted.2.2⟩

theorem nativePatchFunctionAddressAt_eq (below : code.length < wordLimit) (counted : count < wordLimit)
    {index : Nat} (data : Memory)
    (inside : (addresses.items index).instruction + addressSize (nativeTargetArchitecture target) ≤
      code.length)
    (named : NamesDefined functions count (addresses.items index)) :
    nativePatchFunctionAddressAt target functions addresses { code with data } index =
      (true, { code with
        data := addressWritten (nativeTargetArchitecture target) (addresses.items index).instruction
          (callee functions (addresses.items index)).offset data }) := by
  have listed := named.2.1
  unfold nativePatchFunctionAddressAt
  dsimp only
  rw [wrapSub_eq (Nat.one_le_iff_ne_zero.mpr named.1) (by omega)]
  rcases nativeTargetArchitecture_cases target with intel | arm | riscV
  · rw [intel] at inside ⊢
    exact x86PatchFunctionAddress_eq below inside
  · rw [arm] at inside ⊢
    exact a64PatchFunctionAddress_eq below inside
  · rw [riscV] at inside ⊢
    exact rvPatchFunctionAddress_eq below inside

end Dispatch

end Native
