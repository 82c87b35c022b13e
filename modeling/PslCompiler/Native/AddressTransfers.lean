import PslCompiler.Native.AddressSequences

/-! # What patched address sequences yield

Executing a patched sequence, wherever the code is loaded, leaves the address of its function in the
working register (`nativePatchFunctionAddresses_exact`). The sequence of RISC-V could hold some
distances back beyond those that are accepted.
-/

namespace Native

open Machines Buffers

/-- The words of a sequence that yields the address of a destination. -/
def patchedPieces (architecture anchor destination : Nat) : List (Nat × Nat) :=
  let delta := distance anchor destination
  if architecture = 1 then [(0x058d48, 3), (distance (anchor + 7) destination % 2 ^ 32, 4)]
  else if architecture = 2 then
    [(0x10000009, 4), (0xd280000a + delta % 2 ^ 16 * 32, 4),
      (0xf2a0000a + delta / 2 ^ 16 % 2 ^ 16 * 32, 4),
      (0xf2c0000a + delta / 2 ^ 32 % 2 ^ 16 * 32, 4),
      (0xf2e0000a + delta / 2 ^ 48 % 2 ^ 16 * 32, 4), (0x8b0a0129, 4)]
  else
    [(0x297 + (delta + 2048) % wordCount / 4096 % 2 ^ 20 * 4096, 4),
      (0x28293 + delta % 4096 * 2 ^ 20, 4)]

theorem patchedPieces_size (architecture anchor destination : Nat) :
    piecesSize (patchedPieces architecture anchor destination) = addressSize architecture := by
  unfold patchedPieces addressSize addressPieces
  split_ifs <;> simp only [piecesSize]

theorem addressWritten_pieces {architecture anchor destination : Nat} {data : Memory}
    (stands : Pieces data anchor (addressPieces architecture)) :
    Pieces (addressWritten architecture anchor destination data) anchor
      (patchedPieces architecture anchor destination) := by
  unfold addressPieces at stands
  unfold addressWritten patchedPieces
  dsimp only
  generalize distance anchor destination = delta
  generalize distance (anchor + 7) destination = displacement
  split_ifs at stands ⊢
  · rw [pieces_cons] at stands
    rw [pieces_cons, pieces_cons, loadWord_storeWord_apart (.inl (Nat.le_refl _)),
      loadWord_storeWord]
    exact ⟨stands.1, by omega, pieces_nil⟩
  · simp only [pieces_cons, pieces_nil, and_true, Nat.add_assoc, Nat.reduceAdd] at stands ⊢
    obtain ⟨position, -, -, -, -, addition⟩ := stands
    refine ⟨?_, ?_, ?_, ?_, ?_, ?_⟩
    · rw [loadWord_storeWord_apart (by omega), loadWord_storeWord_apart (by omega),
        loadWord_storeWord_apart (by omega), loadWord_storeWord_apart (by omega)]
      exact position
    · rw [loadWord_storeWord_apart (by omega), loadWord_storeWord_apart (by omega),
        loadWord_storeWord_apart (by omega), loadWord_storeWord]
      omega
    · rw [loadWord_storeWord_apart (by omega), loadWord_storeWord_apart (by omega),
        loadWord_storeWord]
      omega
    · rw [loadWord_storeWord_apart (by omega), loadWord_storeWord]
      omega
    · rw [loadWord_storeWord]
      omega
    · rw [loadWord_storeWord_apart (by omega), loadWord_storeWord_apart (by omega),
        loadWord_storeWord_apart (by omega), loadWord_storeWord_apart (by omega)]
      exact addition
  · rw [pieces_cons, pieces_cons, loadWord_storeWord_apart (.inl (Nat.le_refl _)),
      loadWord_storeWord, loadWord_storeWord]
    exact ⟨by omega, by omega, pieces_nil⟩

/-! ## Executing a sequence -/

section Execution

variable {base anchor destination : Nat}

theorem intel_yields {state : Intel.State} (counter : state.counter = base + anchor)
    (stands : Pieces state.memory (base + anchor) (patchedPieces 1 anchor destination))
    (below : base + anchor + 7 < wordCount) (known : base + destination < wordCount)
    (reach : AddressReach 1 anchor destination) :
    ∃ after, Intel.State.steps 1 state = some after ∧ after.counter = base + anchor + 7 ∧
      after.registers 0 = base + destination ∧ after.memory = state.memory := by
  obtain ⟨back, ahead⟩ := reach
  have reached := reached_32 (show destination < wordCount by omega) back ahead
  rw [patchedPieces, if_pos rfl, pieces_cons, pieces_cons] at stands
  obtain ⟨opcode, displacement, -⟩ := stands
  generalize distance (anchor + 7) destination % 2 ^ 32 = field at displacement reached
  have bytes (offset : Nat) (inside : offset < 3) : (state.memory (base + anchor + offset)).toNat =
      0x058d48 / 256 ^ offset % 256 := by rw [byte_of_loadWord inside, opcode]
  have decoded : Intel.decode state.memory state.counter =
      some (.positionAddress 0 field, 7) := by
    rw [counter]
    unfold Intel.decode Intel.decodeWide
    dsimp only
    rw [bytes 1 (by decide), bytes 2 (by decide), displacement,
      show (state.memory (base + anchor)).toNat = 0x48 from bytes 0 (by decide)]
    rfl
  refine ⟨_, by rw [Intel.State.steps, Intel.State.step_eq decoded]; rfl, ?_, ?_, ?_⟩
  · rw [Intel.State.execute, Intel.State.jumpTo_counter, counter, Nat.mod_eq_of_lt below]
  · rw [Intel.State.execute, Intel.State.jumpTo_registers, Intel.State.write, counter]
    dsimp only
    rw [Function.update_self]
    generalize signExtended 32 field = extended at reached ⊢
    unfold wordCount at *
    omega
  · rw [Intel.State.execute, Intel.State.jumpTo_memory, Intel.State.write]

theorem riscV_yields {state : RiscV.State} (counter : state.counter = base + anchor)
    (stands : Pieces state.memory (base + anchor) (patchedPieces 3 anchor destination))
    (below : base + anchor + 8 < wordCount) (known : base + destination < wordCount)
    (reach : AddressReach 3 anchor destination) :
    ∃ after, RiscV.State.steps 2 state = some after ∧ after.counter = base + anchor + 8 ∧
      after.read 5 = base + destination ∧ after.memory = state.memory := by
  obtain ⟨back, ahead⟩ := reach
  have reached := reached_pair (show destination < wordCount by omega) back ahead
  rw [patchedPieces, if_neg (by decide), if_neg (by decide), pieces_cons, pieces_cons] at stands
  obtain ⟨upper, lower, -⟩ := stands
  have lowerSmall := Nat.mod_lt (distance anchor destination) (show 0 < 4096 by decide)
  generalize (distance anchor destination + 2048) % wordCount / 4096 = high at upper reached
  generalize distance anchor destination % 4096 = low at lower reached lowerSmall
  have first : RiscV.decode (loadWord state.memory state.counter 4) =
      some (.upperPosition 5 (high % 2 ^ 20)) := by
    rw [counter, upper]
    unfold RiscV.decode
    dsimp only
    rw [if_pos (by omega)]
    congr 2 <;> omega
  have second : RiscV.decode (loadWord state.memory (base + anchor + 4) 4) =
      some (.addImmediate 5 5 low) := by
    rw [lower]
    unfold RiscV.decode
    dsimp only
    rw [if_neg (by omega), if_pos (by omega)]
    congr 2 <;> omega
  obtain ⟨middle, stepped, moved⟩ := RiscV.State.step_writes first rfl (by decide)
  have place : middle.counter = base + anchor + 4 := by
    rw [moved.counter, counter, Nat.mod_eq_of_lt (by omega)]
  rw [← place, ← moved.memory] at second
  obtain ⟨after, lastStep, last⟩ := RiscV.State.step_writes second rfl (by decide)
  refine ⟨after, RiscV.State.steps_succ stepped (RiscV.State.steps_succ lastStep rfl), ?_, ?_, ?_⟩
  · rw [last.counter, place, Nat.mod_eq_of_lt (by omega)]
  · rw [last.written, moved.written, counter, show (2 : Nat) ^ 12 = 4096 by norm_num]
    generalize signExtended 32 (high % 2 ^ 20 * 4096) = extended at reached ⊢
    generalize signExtended 12 low = little at reached ⊢
    unfold wordCount at *
    omega
  · rw [last.memory, moved.memory]

/-- The word that replaces one of the halves of the distance. -/
theorem arm_moveKeep {word half piece : Nat} (few : half < 4) (small : piece < 2 ^ 16)
    (known : word = 0xf280000a + half * 2 ^ 21 + piece * 32) :
    Arm.decode word = some (.moveKeep 10 piece half) := by
  subst known
  unfold Arm.decode
  dsimp only
  rw [if_neg (by omega), if_neg (by omega), if_neg (by omega), if_pos (by omega)]
  congr 2 <;> omega

/-- A half above a number is put in front of it. -/
theorem withHalf_above {value piece half : Nat} (below : value < 2 ^ (16 * half)) :
    Arm.State.withHalf value piece half = value + piece * 2 ^ (16 * half) := by
  have small : value < 2 ^ (16 * (half + 1)) :=
    Nat.lt_of_lt_of_le below (Nat.pow_le_pow_right (by decide) (by omega))
  rw [Arm.State.withHalf, Nat.mod_eq_of_lt below, Nat.div_eq_of_lt small, Nat.zero_mul, Nat.add_zero]

/-- One half more of a number in the register. -/
theorem arm_keeps {state : Arm.State} {place value piece half : Nat} (few : half < 4)
    (small : piece < 2 ^ 16) (counter : state.counter = place) (below : place + 4 < wordCount)
    (word : loadWord state.memory place 4 = 0xf280000a + half * 2 ^ 21 + piece * 32)
    (held : state.read 10 = value) (valueBelow : value < 2 ^ (16 * half)) :
    ∃ after, state.step = some after ∧ after.counter = place + 4 ∧ after.memory = state.memory ∧
      after.read 10 = value + piece * 2 ^ (16 * half) ∧ after.read 9 = state.read 9 := by
  obtain ⟨after, step, writes⟩ := @Arm.State.step_writes state (.moveKeep 10 piece half) 10
    (Arm.State.withHalf (state.read 10) piece half) (by rw [counter, arm_moveKeep few small word])
    rfl (by decide)
  refine ⟨after, step, ?_, writes.memory, ?_, writes.kept 9 (by decide)⟩
  · rw [writes.counter, counter, Nat.mod_eq_of_lt below]
  · rw [writes.written, held, withHalf_above valueBelow]

theorem arm_yields {state : Arm.State} (counter : state.counter = base + anchor)
    (stands : Pieces state.memory (base + anchor) (patchedPieces 2 anchor destination))
    (below : base + anchor + 24 < wordCount) (known : base + destination < wordCount) :
    ∃ after, Arm.State.steps 6 state = some after ∧ after.counter = base + anchor + 24 ∧
      after.read 9 = base + destination ∧ after.memory = state.memory := by
  have reached : (base + anchor + distance anchor destination) % wordCount = base + destination := by
    unfold distance wordCount at *
    omega
  have bounded : distance anchor destination < 2 ^ 64 := Nat.mod_lt _ (by decide)
  rw [patchedPieces, if_neg (by decide), if_pos rfl] at stands
  simp only [pieces_cons, pieces_nil, and_true, Nat.add_assoc, Nat.reduceAdd] at stands
  generalize distance anchor destination = delta at stands reached bounded
  obtain ⟨position, low, second, third, high, addition⟩ := stands
  -- Each instruction writes one register and leads to the next.
  obtain ⟨first, firstStep, firstWrites⟩ := @Arm.State.step_writes state (.position 9 0) 9
    ((state.counter + signExtended 21 0) % wordCount) (by rw [counter, position]; rfl) rfl (by decide)
  have firstPlace : first.counter = base + (anchor + 4) := by
    rw [firstWrites.counter, counter, Nat.mod_eq_of_lt (by omega), Nat.add_assoc]
  obtain ⟨lowest, lowestStep, lowestWrites⟩ := @Arm.State.step_writes first
    (.moveZero 10 (delta % 2 ^ 16) 0) 10 (delta % 2 ^ 16 * 2 ^ (16 * 0))
    (by rw [firstPlace, firstWrites.memory, low]
        unfold Arm.decode
        dsimp only
        rw [if_neg (by omega), if_neg (by omega), if_pos (by omega)]
        congr 2 <;> omega)
    rfl (by decide)
  have lowestPlace : lowest.counter = base + (anchor + 8) := by
    rw [lowestWrites.counter, firstPlace, Nat.mod_eq_of_lt (by omega)]
    rfl
  have memory : lowest.memory = state.memory := lowestWrites.memory.trans firstWrites.memory
  have piece (number : Nat) : number % 2 ^ 16 < 2 ^ 16 := Nat.mod_lt _ (by decide)
  obtain ⟨two, twoStep, twoPlace, twoMemory, twoHeld, twoPosition⟩ :=
    @arm_keeps lowest _ _ (delta / 2 ^ 16 % 2 ^ 16) 1 (by decide) (piece _) lowestPlace (by omega)
      (by rw [memory]; exact second) lowestWrites.written (by have := piece delta; omega)
  obtain ⟨three, threeStep, threePlace, threeMemory, threeHeld, threePosition⟩ :=
    @arm_keeps two _ _ (delta / 2 ^ 32 % 2 ^ 16) 2 (by decide) (piece _) twoPlace (by omega)
      (by rw [twoMemory, memory]; exact third) twoHeld
      (by have := piece delta; have := piece (delta / 2 ^ 16); omega)
  obtain ⟨four, fourStep, fourPlace, fourMemory, fourHeld, fourPosition⟩ :=
    @arm_keeps three _ _ (delta / 2 ^ 48 % 2 ^ 16) 3 (by decide) (piece _) threePlace (by omega)
      (by rw [threeMemory, twoMemory, memory]; exact high) threeHeld
      (by
        have := piece delta
        have := piece (delta / 2 ^ 16)
        have := piece (delta / 2 ^ 32)
        omega)
  have fourAll : four.memory = state.memory := by rw [fourMemory, threeMemory, twoMemory, memory]
  obtain ⟨after, lastStep, last⟩ := @Arm.State.step_writes four (.addRegisters 9 9 10 0) 9
    ((four.read 9 + four.read 10 * 2 ^ 0) % wordCount)
    (by rw [fourPlace, fourAll, show loadWord state.memory (base + (anchor + 8) + 4 + 4 + 4) 4 =
          0x8b0a0129 from addition]
        rfl)
    rfl (by decide)
  refine ⟨after, ?_, ?_, ?_, ?_⟩
  · exact Arm.State.steps_succ firstStep (Arm.State.steps_succ lowestStep (Arm.State.steps_succ twoStep
      (Arm.State.steps_succ threeStep (Arm.State.steps_succ fourStep
        (Arm.State.steps_succ lastStep rfl)))))
  · rw [last.counter, fourPlace, Nat.mod_eq_of_lt (by omega)]
    omega
  · have origin : four.read 9 = base + anchor := by
      rw [fourPosition, threePosition, twoPosition, lowestWrites.kept 9 (by decide),
        firstWrites.written, counter, show signExtended 21 0 = 0 from if_pos (by decide),
        Nat.add_zero, Nat.mod_eq_of_lt (by omega)]
    have whole : four.read 10 = delta := by
      rw [fourHeld]
      omega
    rw [last.written, origin, whole, Nat.pow_zero, Nat.mul_one, reached]
  · rw [last.memory, fourAll]

end Execution

/-- Wherever the code is loaded, the sequence at a position leaves the address of a destination in
the working register and goes on behind itself. -/
def YieldsAddress (architecture : Nat) (code : ByteBuffer) (position destination : Nat) : Prop :=
  ∀ base, base + code.length < wordCount →
    if architecture = 1 then
      ∀ state : Intel.State, Loaded state.memory base code → state.counter = base + position →
        ∃ after, Intel.State.steps 1 state = some after ∧ after.counter = base + position + 7 ∧
          after.registers 0 = base + destination ∧ after.memory = state.memory
    else if architecture = 2 then
      ∀ state : Arm.State, Loaded state.memory base code → state.counter = base + position →
        ∃ after, Arm.State.steps 6 state = some after ∧ after.counter = base + position + 24 ∧
          after.read 9 = base + destination ∧ after.memory = state.memory
    else
      ∀ state : RiscV.State, Loaded state.memory base code → state.counter = base + position →
        ∃ after, RiscV.State.steps 2 state = some after ∧ after.counter = base + position + 8 ∧
          after.read 5 = base + destination ∧ after.memory = state.memory

theorem patchedPieces_yields {architecture : Nat} {code : ByteBuffer} {position destination : Nat}
    (native : architecture = 1 ∨ architecture = 2 ∨ architecture = 3)
    (stands : Pieces code.data position (patchedPieces architecture position destination))
    (inside : position + addressSize architecture ≤ code.length) (known : destination ≤ code.length)
    (reach : AddressReach architecture position destination) :
    YieldsAddress architecture code position destination := by
  intro base below
  have placed {memory : Memory} (loaded : Loaded memory base code) :
      Pieces memory (base + position) (patchedPieces architecture position destination) := by
    refine stands.congr fun offset within => ?_
    rw [patchedPieces_size] at within
    rw [Nat.add_assoc]
    exact loaded _ (by omega)
  rcases native with rfl | rfl | rfl
  · change position + 7 ≤ _ at inside
    rw [if_pos rfl]
    exact fun state loaded counter =>
      intel_yields counter (placed loaded) (by omega) (by omega) reach
  · change position + 24 ≤ _ at inside
    rw [if_neg (by decide), if_pos rfl]
    exact fun state loaded counter => arm_yields counter (placed loaded) (by omega) (by omega)
  · change position + 8 ≤ _ at inside
    rw [if_neg (by decide), if_neg (by decide)]
    exact fun state loaded counter =>
      riscV_yields counter (placed loaded) (by omega) (by omega) reach

/-! ## All sequences -/

/-- The addresses of a recorded sequence. -/
def AddressPlace (architecture : Nat) (addresses : CallArena) (index address : Nat) : Prop :=
  (addresses.items index).instruction ≤ address ∧
    address < (addresses.items index).instruction + addressSize architecture

section Sites

variable {target count : Nat} {code : ByteBuffer} {functions : Nat → NativeFunction}
  {addresses : CallArena}

/-- What patching one sequence makes of the bytes. -/
def sequenceWritten (target : Nat) (functions : Nat → NativeFunction) (addresses : CallArena)
    (index : Nat) : Memory → Memory :=
  addressWritten (nativeTargetArchitecture target) (addresses.items index).instruction
    (callee functions (addresses.items index)).offset

theorem AddressSites.separate
    (sites : AddressSites (nativeTargetArchitecture target) code addresses) :
    Separate (fun _ _ => true) (sequenceWritten target functions addresses)
      (AddressPlace (nativeTargetArchitecture target) addresses) addresses.count where
  accepts_congr _ _ _ _ _ := rfl
  write_congr _ _ _ _ same address here := addressWritten_pointwise (same address here)
  write_outside index _ _ address outside := addressWritten_outside (by
    unfold AddressPlace at outside
    omega)
  apart index other inside otherInside different address here there := by
    have one := sites.stands index inside
    have two := sites.stands other otherInside
    rcases Nat.lt_or_gt_of_ne (sites.distinct index other inside otherInside different) with
      before | after
    · have gap := one.apart two before addressPieces_marked
      exact absurd (Nat.lt_of_lt_of_le here.2 gap) (Nat.not_lt.mpr there.1)
    · have gap := two.apart one after addressPieces_marked
      exact absurd (Nat.lt_of_lt_of_le there.2 gap) (Nat.not_lt.mpr here.1)

theorem nativeFunctionAddressesValidP_iff (partitioned : DefinedFirst functions count)
    (counted : count < wordLimit)
    (sites : AddressSites (nativeTargetArchitecture target) code addresses) :
    ∀ {remaining index : Nat}, index + remaining = addresses.count →
      (nativeFunctionAddressesValidP target code functions count addresses remaining index = true ↔
        ∀ other, index ≤ other → other < addresses.count →
          AddressAccepted (nativeTargetArchitecture target) code.length functions count
            (addresses.items other)) := by
  have bounded := sites.bounded
  have within := sites.counted
  have below : code.length < wordLimit := Nat.lt_of_le_of_lt sites.valid.within sites.valid.bounded
  intro remaining
  induction remaining with
  | zero =>
      intro index ends
      exact iff_of_true rfl fun other after before => absurd before (by omega)
  | succ remaining ih =>
      intro index ends
      have entry := nativeFunctionAddressEntryP_iff partitioned counted below
        (sites.inside index (by omega)) (sites.stands index (by omega))
      rw [nativeFunctionAddressesValidP, wrapAdd_eq (by omega)]
      by_cases accepted : nativeFunctionAddressEntryP target code functions count
          (addresses.items index) = true
      · rw [accepted, if_neg Bool.noConfusion, ih (by omega)]
        constructor
        · intro all other after before
          rcases Nat.eq_or_lt_of_le after with rfl | later
          · exact entry.mp accepted
          · exact all other later before
        · exact fun all other after before => all other (by omega) before
      · rw [Bool.eq_false_iff.mpr accepted, if_pos rfl]
        exact iff_of_false Bool.false_ne_true fun all =>
          accepted (entry.mpr (all index (Nat.le_refl _) (by omega)))

/-- The loop over the sequences is a loop over separate places. -/
theorem patchAddresses_eq (counted : count < wordLimit)
    (sites : AddressSites (nativeTargetArchitecture target) code addresses)
    (accepted : ∀ index, index < addresses.count → NamesDefined functions count
      (addresses.items index)) : ∀ {remaining index : Nat} (data : Memory),
      index + remaining = addresses.count →
      patchFrom (nativePatchFunctionAddressAt target functions addresses) remaining index
          { code with data } =
        (true, { code with
          data := (patchEach (fun _ _ => true) (sequenceWritten target functions addresses)
            remaining index data).2 }) := by
  have bounded := sites.bounded
  have within := sites.counted
  have below : code.length < wordLimit := Nat.lt_of_le_of_lt sites.valid.within sites.valid.bounded
  intro remaining
  induction remaining with
  | zero => exact fun _ _ => rfl
  | succ remaining ih =>
      intro index data ends
      rw [patchFrom, nativePatchFunctionAddressAt_eq below counted data
        (sites.inside index (by omega)) (accepted index (by omega)), patchEach]
      dsimp only
      rw [if_pos rfl, if_pos rfl, wrapAdd_eq (by omega), ih _ (by omega)]
      rfl

/-- Patching is the loop where all sequences are accepted, and nothing elsewhere. -/
theorem nativePatchFunctionAddresses_eq (valid : target < 6)
    (sites : AddressSites (nativeTargetArchitecture target) code addresses)
    (partitioned : DefinedFirst functions count) (counted : count < wordLimit) :
    ((∀ index, index < addresses.count → AddressAccepted (nativeTargetArchitecture target)
        code.length functions count (addresses.items index)) ∧
      nativePatchFunctionAddresses target code functions count addresses =
        (true, { code with
          data := (patchEach (fun _ _ => true) (sequenceWritten target functions addresses)
            addresses.count 0 code.data).2 })) ∨
    ((¬∀ index, index < addresses.count → AddressAccepted (nativeTargetArchitecture target)
        code.length functions count (addresses.items index)) ∧
      nativePatchFunctionAddresses target code functions count addresses = (false, code)) := by
  have checks := @nativeFunctionAddressesValidP_iff target count code functions addresses partitioned
    counted sites addresses.count 0 (Nat.zero_add _)
  have known : nativeTargetValidP target = true := by rw [nativeTargetValidP, if_pos valid]
  have buffer : nativeFunctionAddressBufferP code = true := by
    rw [nativeFunctionAddressBufferP, if_neg (Nat.not_lt.mpr sites.valid.within)]
  have arena : nativeFunctionAddressArenaP addresses = true := by
    rw [nativeFunctionAddressArenaP, if_neg (Nat.not_lt.mpr sites.counted), sites.clean,
      if_neg (Nat.lt_irrefl 0)]
  rw [nativePatchFunctionAddresses, known, buffer, arena, if_neg Bool.noConfusion,
    if_neg Bool.noConfusion, if_neg Bool.noConfusion]
  by_cases all : ∀ index, index < addresses.count → AddressAccepted
      (nativeTargetArchitecture target) code.length functions count (addresses.items index)
  · refine .inl ⟨all, ?_⟩
    by_cases none : addresses.count = 0
    · rw [if_pos none, none]
      rfl
    · rw [if_neg none, checks.mpr fun index _ inside => all index inside, if_neg Bool.noConfusion]
      exact patchAddresses_eq counted sites (fun index inside => (all index inside).1) code.data
        (Nat.zero_add _)
  · refine .inr ⟨all, ?_⟩
    have some_ : addresses.count ≠ 0 := fun none =>
      all fun index inside => absurd inside (none ▸ Nat.not_lt_zero index)
    rw [if_neg some_, if_pos]
    exact Bool.eq_false_iff.mpr fun passed =>
      all fun index inside => checks.mp passed index (Nat.zero_le _) inside

/-- Address sequences are patched all or none. They are patched exactly when each of them names a
defined function whose code is in the buffer, at a distance that is accepted; then each yields the
address of its function, and all other bytes stay. -/
theorem nativePatchFunctionAddresses_exact (target : Nat) (code : ByteBuffer)
    (functions : Nat → NativeFunction) (count : Nat) (addresses : CallArena)
    (valid : target < 6) (recording : AddressRecording target code addresses)
    (partitioned : DefinedFirst functions count) (counted : count < wordLimit) :
    let patched := nativePatchFunctionAddresses target code functions count addresses
    (patched.1 = true ↔ ∀ index, index < addresses.count →
      AddressAccepted (nativeTargetArchitecture target) code.length functions count
        (addresses.items index)) ∧
    (patched.1 = true →
      (∀ index, index < addresses.count →
        YieldsAddress (nativeTargetArchitecture target) patched.2
          (addresses.items index).instruction (callee functions (addresses.items index)).offset) ∧
      patched.2.length = code.length ∧ patched.2.capacity = code.capacity ∧
      ∀ address, (∀ index, index < addresses.count →
          ¬AddressPlace (nativeTargetArchitecture target) addresses index address) →
        patched.2.data address = code.data address) ∧
    (patched.1 = false → patched.2 = code) := by
  have sites := recording.sites
  dsimp only
  rcases nativePatchFunctionAddresses_eq valid sites partitioned counted with
    ⟨all, run⟩ | ⟨refused, run⟩
  · rw [run]
    refine ⟨iff_of_true rfl all, fun _ => ⟨?_, rfl, rfl, ?_⟩, fun failed => Bool.noConfusion failed⟩
    · intro index inside
      have accepted := all index inside
      have ends := accepted.2.1.2
      refine patchedPieces_yields (nativeTargetArchitecture_cases target) ?_
        (sites.inside index inside) (by change _ ≤ code.length; omega) accepted.2.2
      refine (addressWritten_pieces (sites.stands index inside)).congr fun offset within => ?_
      rw [patchedPieces_size] at within
      exact patchEach_inside sites.separate (Nat.le_of_eq (Nat.zero_add _)) code.data
        ((patchEach_accepts sites.separate (Nat.le_of_eq (Nat.zero_add _)) code.data).mpr
          fun _ _ _ => rfl) index (Nat.zero_le _) (by omega) _
        ⟨Nat.le_add_right _ _, Nat.add_lt_add_left within _⟩
    · intro address outside
      exact patchEach_outside sites.separate (Nat.le_of_eq (Nat.zero_add _)) code.data
        fun other _ before => outside other (by omega)
  · rw [run]
    exact ⟨iff_of_false Bool.false_ne_true refused, fun passed => absurd passed Bool.false_ne_true,
      fun _ => rfl⟩

end Sites

/-- Some code and one sequence for the first function behind it. -/
def encodedBehind (target length : Nat) : Bool × ByteBuffer × CallArena :=
  nativeEncodeFunctionAddress target
    { data := fun _ => 0, length, capacity := length + 64 } { toFixupArena := {}, capacity := 4 } 1

theorem encodedBehind_recording {target length : Nat} (below : length + 64 < wordLimit)
    (encodes : (encodedBehind target length).1 = true) :
    AddressRecording target (encodedBehind target length).2.1 (encodedBehind target length).2.2 :=
  .encode (.start ⟨Nat.le_add_right _ _, below⟩ rfl (show 4 < wordLimit by decide) rfl)
    (Prod.ext encodes rfl)

/-- One function at the front of the code. -/
def frontFunction : Nat → NativeFunction :=
  fun _ => { size := 4 }

theorem frontFunction_definedFirst : DefinedFirst frontFunction 1 :=
  fun _ _ before inside _ => absurd inside (by omega)

theorem nativePatchFunctionAddresses_front :
    let patched := nativePatchFunctionAddresses 0 (encodedBehind 0 16).2.1 frontFunction 1
      (encodedBehind 0 16).2.2
    patched.1 = true ∧ YieldsAddress 1 patched.2 16 0 := by
  have exact_ := nativePatchFunctionAddresses_exact 0 (encodedBehind 0 16).2.1 frontFunction 1
    (encodedBehind 0 16).2.2 (by decide)
    (encodedBehind_recording (by decide) (by decide)) frontFunction_definedFirst (by decide)
  have passed : (nativePatchFunctionAddresses 0 (encodedBehind 0 16).2.1 frontFunction 1
      (encodedBehind 0 16).2.2).1 = true := by decide
  exact ⟨passed, (exact_.2.1 passed).1 0 (by decide)⟩

/-- Whether the sequence of RISC-V can hold the distance to a destination. -/
def RiscVFits (position destination : Nat) : Prop :=
  ∃ upper lower, upper < 2 ^ 20 ∧ lower < 2 ^ 12 ∧
    ((position + signExtended 32 (upper * 2 ^ 12)) % wordCount + signExtended 12 lower) % wordCount =
      destination

/-- The distances just behind the accepted ones could be held, but are refused. -/
theorem nativePatchFunctionAddresses_farBack :
    let encoded := encodedBehind 2 (2 ^ 31 + 4)
    AddressRecording 2 encoded.2.1 encoded.2.2 ∧ DefinedFirst frontFunction 1 ∧
      encoded.2.2.count = 1 ∧ NamesDefined frontFunction 1 (encoded.2.2.items 0) ∧
      SpanWithin encoded.2.1.length (callee frontFunction (encoded.2.2.items 0)) ∧
      RiscVFits (encoded.2.2.items 0).instruction
        (callee frontFunction (encoded.2.2.items 0)).offset ∧
      (nativePatchFunctionAddresses 2 encoded.2.1 frontFunction 1 encoded.2.2).1 = false := by
  have fits : RiscVFits (2 ^ 31 + 4) 0 := by
    refine ⟨0x80000, 0xffc, by decide, by decide, ?_⟩
    norm_num [signExtended, wordCount]
  exact ⟨encodedBehind_recording (by decide) (by decide), frontFunction_definedFirst, by decide,
    ⟨by decide, by decide, by decide⟩, ⟨by decide, by decide⟩, fits, by decide⟩

end Native
