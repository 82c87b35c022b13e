import PslCompiler.Buffers.Rearrangement
import PslCompiler.Loops.Measured
import PslCompiler.Native.Layout

/-! # Moving the startup code to the front

The generated entry of a freestanding image is emitted after the source functions and then moved in
front of them: the code is rotated in place, the entry's record goes to the first slot, and the
recorded positions of calls, function addresses and data references follow their instructions. The
loops share two cursors of the compile context. Results that are always 1 are left out.
-/

namespace Native

open Buffers Loops

/-- `native_function`; the name is the bytes that its pointer and length delimit. -/
structure NativeFunction where
  name : List UInt8 := []
  offset : Nat := 0
  size : Nat := 0
  arity : Nat := 0
  exported : Nat := 0
  imported : Nat := 0
  referenced : Nat := 0
  frameSize : Nat := 0
  prologueSize : Nat := 0
  deriving DecidableEq, Repr, Inhabited

/-- `native_call_fixup`: the position of an instruction, and the one-based reference it needs. -/
structure CallFixup where
  instruction : Nat := 0
  target : Nat := 0
  deriving DecidableEq, Repr, Inhabited

/-- What the move reads and writes of `native_fixup_arena`. -/
structure FixupArena where
  items : Nat → CallFixup := fun _ => {}
  count : Nat := 0

/-- What the move reads and writes of `native_compile_context`. -/
structure StartupContext where
  code : Nat → UInt8
  codeLength : Nat
  functions : Nat → NativeFunction
  fixups : FixupArena := {}
  functionAddresses : FixupArena := {}
  dataFixups : FixupArena := {}
  foldCursor : Nat := 0
  inlineCursor : Nat := 0

/-! ## The code -/

def nativeStartupSwapBytes (code : Nat → UInt8) (left right : Nat) : Nat → UInt8 :=
  let leftByte := code left
  let rightByte := code right
  Function.update (Function.update code left rightByte) right leftByte

/-- One turn of the loop of `native_startup_reverse_bytes`. -/
def reverseBytesStep (context : StartupContext) : Option StartupContext :=
  if context.foldCursor < context.inlineCursor then
    some { context with
      code := nativeStartupSwapBytes context.code context.foldCursor context.inlineCursor
      foldCursor := wrapAdd context.foldCursor 1
      inlineCursor := wrapSub context.inlineCursor 1 }
  else none

def nativeStartupReverseBytes (context : StartupContext) (left right : Nat) : StartupContext :=
  repeatStep reverseBytesStep (fun context => context.inlineCursor - context.foldCursor)
    { context with foldCursor := left, inlineCursor := right }

def nativeStartupRotateCode (context : StartupContext) (startupSize totalSize : Nat) :
    Option StartupContext :=
  if startupSize = 0 then none
  else
    let context := nativeStartupReverseBytes context 0 (wrapSub totalSize 1)
    let context := nativeStartupReverseBytes context 0 (wrapSub startupSize 1)
    some (nativeStartupReverseBytes context startupSize (wrapSub totalSize 1))

/-! ## The functions -/

def rotateFunctionsStep (context : StartupContext) : Option StartupContext :=
  if 0 < context.foldCursor then
    some { context with
      functions := exchange context.functions (wrapSub context.foldCursor 1) context.foldCursor
      foldCursor := wrapSub context.foldCursor 1 }
  else none

/-- The source exchanges the records of two neighbours field by field. -/
def nativeStartupRotateFunctions (context : StartupContext) (index : Nat) : StartupContext :=
  repeatStep rotateFunctionsStep StartupContext.foldCursor { context with foldCursor := index }

def shiftSourceOffsetsStep (count startupSize : Nat) (context : StartupContext) :
    Option StartupContext :=
  if context.foldCursor < count then
    let function := context.functions context.foldCursor
    some { context with
      functions := Function.update context.functions context.foldCursor
        { function with offset := wrapAdd function.offset startupSize }
      foldCursor := wrapAdd context.foldCursor 1 }
  else none

def nativeStartupShiftSourceOffsets (context : StartupContext) (count startupSize index : Nat) :
    StartupContext :=
  repeatStep (shiftSourceOffsetsStep count startupSize) (fun context => count - context.foldCursor)
    { context with foldCursor := index }

/-! ## The fixups -/

def adjustCallFixupsStep (sourceCount sourceSize startupSize : Nat) (context : StartupContext) :
    Option StartupContext :=
  if context.foldCursor < context.fixups.count then
    let entry := context.fixups.items context.foldCursor
    let instruction :=
      if context.foldCursor < sourceCount then wrapAdd entry.instruction startupSize
      else wrapSub entry.instruction sourceSize
    some { context with
      fixups := { context.fixups with
        items := Function.update context.fixups.items context.foldCursor
          { instruction := instruction, target := wrapAdd entry.target 1 } }
      foldCursor := wrapAdd context.foldCursor 1 }
  else none

def nativeStartupAdjustCallFixups (context : StartupContext)
    (sourceCount sourceSize startupSize index : Nat) : StartupContext :=
  repeatStep (adjustCallFixupsStep sourceCount sourceSize startupSize)
    (fun context => context.fixups.count - context.foldCursor) { context with foldCursor := index }

def bubbleCallFixupStep (context : StartupContext) : Option StartupContext :=
  if 0 < context.foldCursor then
    let current := context.fixups.items context.foldCursor
    let previous := context.fixups.items (wrapSub context.foldCursor 1)
    if current.instruction < previous.instruction then
      some { context with
        fixups := { context.fixups with
          items := exchange context.fixups.items (wrapSub context.foldCursor 1) context.foldCursor }
        foldCursor := wrapSub context.foldCursor 1 }
    else some { context with foldCursor := 0 }
  else none

def nativeStartupBubbleCallFixup (context : StartupContext) (index : Nat) : StartupContext :=
  repeatStep bubbleCallFixupStep StartupContext.foldCursor { context with foldCursor := index }

def sortCallFixupsStep (context : StartupContext) : Option StartupContext :=
  if context.inlineCursor < context.fixups.count then
    let context := nativeStartupBubbleCallFixup context context.inlineCursor
    some { context with inlineCursor := wrapAdd context.inlineCursor 1 }
  else none

def nativeStartupSortCallFixups (context : StartupContext) (index : Nat) : StartupContext :=
  repeatStep sortCallFixupsStep (fun context => context.fixups.count - context.inlineCursor)
    { context with inlineCursor := index }

def shiftFixupPositionsStep (startupSize : Nat) (context : StartupContext) :
    Option StartupContext :=
  if context.foldCursor < context.dataFixups.count then
    let entry := context.dataFixups.items context.foldCursor
    some { context with
      dataFixups := { context.dataFixups with
        items := Function.update context.dataFixups.items context.foldCursor
          { entry with instruction := wrapAdd entry.instruction startupSize } }
      foldCursor := wrapAdd context.foldCursor 1 }
  else none

/-- The source passes the arena; it is called for the data fixups only. -/
def nativeStartupShiftFixupPositions (context : StartupContext) (startupSize index : Nat) :
    StartupContext :=
  repeatStep (shiftFixupPositionsStep startupSize)
    (fun context => context.dataFixups.count - context.foldCursor)
    { context with foldCursor := index }

def shiftAddressFixupsStep (startupSize : Nat) (context : StartupContext) : Option StartupContext :=
  if context.foldCursor < context.functionAddresses.count then
    let entry := context.functionAddresses.items context.foldCursor
    some { context with
      functionAddresses := { context.functionAddresses with
        items := Function.update context.functionAddresses.items context.foldCursor
          { instruction := wrapAdd entry.instruction startupSize
            target := wrapAdd entry.target 1 } }
      foldCursor := wrapAdd context.foldCursor 1 }
  else none

/-- The source passes the arena; it is called for the function addresses only. -/
def nativeStartupShiftAddressFixups (context : StartupContext) (startupSize index : Nat) :
    StartupContext :=
  repeatStep (shiftAddressFixupsStep startupSize)
    (fun context => context.functionAddresses.count - context.foldCursor)
    { context with foldCursor := index }

/-- Move the code after the source and the function in the slot after the source functions to the
front. -/
def nativeStartupMoveToFront (context : StartupContext) (count sourceSize sourceFixupCount : Nat) :
    Option StartupContext :=
  let totalSize := context.codeLength
  let startupSize := wrapSub context.codeLength sourceSize
  (nativeStartupRotateCode context startupSize totalSize).map fun context =>
    let context := nativeStartupShiftSourceOffsets context count startupSize 0
    let context := nativeStartupRotateFunctions context count
    let context := { context with
      functions := Function.update context.functions 0 { context.functions 0 with offset := 0 } }
    let context := nativeStartupAdjustCallFixups context sourceFixupCount sourceSize startupSize 0
    let context := nativeStartupSortCallFixups context 1
    let context := nativeStartupShiftAddressFixups context startupSize 0
    nativeStartupShiftFixupPositions context startupSize 0

/-! ## What each loop does -/

theorem wrapSub_eq {left right : Nat} (ordered : right ≤ left) (below : left < wordLimit) :
    wrapSub left right = left - right := by
  unfold wrapSub
  rw [Nat.mod_eq_of_lt (show right < wordLimit by omega),
    show left + (wordLimit - right) = (left - right) + wordLimit by omega, Nat.add_mod_right,
    Nat.mod_eq_of_lt (by omega)]

section Loops

variable (context : StartupContext)

theorem nativeStartupReverseBytes_eq (left : Nat) {right : Nat} (below : right < wordLimit) :
    ∃ fold inline, nativeStartupReverseBytes context left right =
      { context with
        code := mirror context.code left right, foldCursor := fold, inlineCursor := inline } := by
  refine @mirror_loop _ _ _ _ (fun code fold inline =>
    { context with code := code, foldCursor := fold, inlineCursor := inline }) wordLimit ?_
    ?_ context.code left right below
  · intro code fold inline bound
    rw [reverseBytesStep]
    dsimp only
    split
    · rw [wrapAdd_eq (by omega), wrapSub_eq (by omega) bound]
      rfl
    · rfl
  · intros
    rfl

theorem nativeStartupRotateFunctions_eq {index : Nat} (below : index < wordLimit) :
    nativeStartupRotateFunctions context index =
      { context with functions := lift context.functions index, foldCursor := 0 } := by
  refine @lift_loop _ _ _ _ (fun functions fold =>
    { context with functions := functions, foldCursor := fold }) wordLimit ?_ ?_
    context.functions index below
  · intro functions fold bound
    rw [rotateFunctionsStep]
    dsimp only
    split
    · rw [wrapSub_eq (by omega) bound]
    · rfl
  · intros
    rfl

theorem nativeStartupShiftSourceOffsets_eq {count : Nat} (below : count < wordLimit)
    (startupSize : Nat) :
    nativeStartupShiftSourceOffsets context count startupSize 0 =
      { context with
        functions := sweep (fun _ function =>
          { function with offset := wrapAdd function.offset startupSize }) context.functions 0 count
        foldCursor := count } := by
  refine @sweep_loop _ _ _ _ (fun functions fold =>
    { context with functions := functions, foldCursor := fold }) count
    (fun _ function => { function with offset := wrapAdd function.offset startupSize }) ?_
    ?_ context.functions 0 (Nat.zero_le _)
  · intro functions fold
    rw [shiftSourceOffsetsStep]
    dsimp only
    split
    · rw [wrapAdd_eq (show fold + 1 < wordLimit by omega)]
    · rfl
  · intros
    rfl

theorem nativeStartupAdjustCallFixups_eq (below : context.fixups.count < wordLimit)
    (sourceCount sourceSize startupSize : Nat) :
    nativeStartupAdjustCallFixups context sourceCount sourceSize startupSize 0 =
      { context with
        fixups := { context.fixups with
          items := sweep (fun index entry =>
            { instruction := if index < sourceCount then wrapAdd entry.instruction startupSize
                else wrapSub entry.instruction sourceSize
              target := wrapAdd entry.target 1 }) context.fixups.items 0 context.fixups.count }
        foldCursor := context.fixups.count } := by
  refine @sweep_loop _ _ _ _ (fun items fold =>
    { context with fixups := { context.fixups with items := items }, foldCursor := fold })
    context.fixups.count _ ?_ ?_ context.fixups.items 0 (Nat.zero_le _)
  · intro items fold
    rw [adjustCallFixupsStep]
    dsimp only
    split
    · rw [wrapAdd_eq (show fold + 1 < wordLimit by omega)]
    · rfl
  · intros
    rfl

theorem nativeStartupShiftAddressFixups_eq (below : context.functionAddresses.count < wordLimit)
    (startupSize : Nat) :
    nativeStartupShiftAddressFixups context startupSize 0 =
      { context with
        functionAddresses := { context.functionAddresses with
          items := sweep (fun _ entry =>
            { instruction := wrapAdd entry.instruction startupSize
              target := wrapAdd entry.target 1 })
            context.functionAddresses.items 0 context.functionAddresses.count }
        foldCursor := context.functionAddresses.count } := by
  refine @sweep_loop _ _ _ _ (fun items fold =>
    { context with
      functionAddresses := { context.functionAddresses with items := items }, foldCursor := fold })
    context.functionAddresses.count _ ?_ ?_ context.functionAddresses.items 0 (Nat.zero_le _)
  · intro items fold
    rw [shiftAddressFixupsStep]
    dsimp only
    split
    · rw [wrapAdd_eq (show fold + 1 < wordLimit by omega)]
    · rfl
  · intros
    rfl

theorem nativeStartupShiftFixupPositions_eq (below : context.dataFixups.count < wordLimit)
    (startupSize : Nat) :
    nativeStartupShiftFixupPositions context startupSize 0 =
      { context with
        dataFixups := { context.dataFixups with
          items := sweep (fun _ entry =>
            { entry with instruction := wrapAdd entry.instruction startupSize })
            context.dataFixups.items 0 context.dataFixups.count }
        foldCursor := context.dataFixups.count } := by
  refine @sweep_loop _ _ _ _ (fun items fold =>
    { context with
      dataFixups := { context.dataFixups with items := items }, foldCursor := fold })
    context.dataFixups.count _ ?_ ?_ context.dataFixups.items 0 (Nat.zero_le _)
  · intro items fold
    rw [shiftFixupPositionsStep]
    dsimp only
    split
    · rw [wrapAdd_eq (show fold + 1 < wordLimit by omega)]
    · rfl
  · intros
    rfl

/-- One insertion of the sort: a call fixup after ordered ones goes to its place among them. -/
theorem nativeStartupBubbleCallFixup_eq {index : Nat} (below : context.fixups.count < wordLimit)
    (inside : index < context.fixups.count)
    (inserting : Inserting CallFixup.instruction context.fixups.items index index)
    (apart : Apart CallFixup.instruction context.fixups.items context.fixups.count) :
    ∃ items, nativeStartupBubbleCallFixup context index =
        { context with fixups := { context.fixups with items := items }, foldCursor := 0 } ∧
      Increasing CallFixup.instruction items index ∧
      Rearranged context.fixups.count context.fixups.items items := by
  refine @insert_loop _ _ _ _ _ _ CallFixup.instruction (fun items fold =>
    { context with fixups := { context.fixups with items := items }, foldCursor := fold })
    wordLimit context.fixups.count ?_ ?_ context.fixups.items index index (by omega) inside
    (Nat.le_refl index) inserting apart
  · intro items fold bound
    rw [bubbleCallFixupStep]
    dsimp only
    split
    · rw [wrapSub_eq (by omega) bound]
    · rfl
  · intros
    rfl

/-- The sort puts call fixups at different positions in the order of their positions. -/
theorem nativeStartupSortCallFixups_eq (below : context.fixups.count < wordLimit)
    (apart : Apart CallFixup.instruction context.fixups.items context.fixups.count) :
    ∃ items fold inline, nativeStartupSortCallFixups context 1 =
        { context with
          fixups := { context.fixups with items := items }
          foldCursor := fold, inlineCursor := inline } ∧
      (∀ first second, first < second → second < context.fixups.count →
        (items first).instruction < (items second).instruction) ∧
      Rearranged context.fixups.count context.fixups.items items := by
  have ended := @repeatStep_ends _ sortCallFixupsStep
    (fun context => context.fixups.count - context.inlineCursor)
    (fun state => ∃ items fold last,
      state = { context with
        fixups := { context.fixups with items := items }
        foldCursor := fold, inlineCursor := last + 1 } ∧
      Increasing CallFixup.instruction items last ∧
      Rearranged context.fixups.count context.fixups.items items) ?_
    { context with inlineCursor := 1 } ⟨context.fixups.items, context.foldCursor, 0, rfl, ?_, .refl _ _⟩
  · obtain ⟨⟨items, fold, last, ended, increasing, moved⟩, stopped⟩ := ended
    refine ⟨items, fold, last + 1, ended, ?_, moved⟩
    rw [ended] at stopped
    have passed : ¬ last + 1 < context.fixups.count := by
      intro goesOn
      rw [sortCallFixupsStep, if_pos goesOn] at stopped
      cases stopped
    intro first second less inside
    exact increasing first second less (by omega)
  · rintro before after ⟨items, fold, last, rfl, increasing, moved⟩ taken
    rw [sortCallFixupsStep] at taken
    split at taken
    · rename_i goesOn
      dsimp only at goesOn taken
      obtain ⟨inserted, placed, ordered, again⟩ := nativeStartupBubbleCallFixup_eq
        { context with
          fixups := { context.fixups with items := items }
          foldCursor := fold, inlineCursor := last + 1 } below goesOn increasing.start
        (moved.apart apart)
      rw [placed, wrapAdd_eq (by dsimp only; omega)] at taken
      cases taken
      refine ⟨⟨inserted, 0, last + 1, rfl, ordered, moved.trans again⟩, ?_⟩
      dsimp only
      omega
    · cases taken
  · intro first second less bound
    omega

end Loops

/-! ## The move -/

/-- A unit whose startup code was appended: the code and the records of the source functions come
first, and the calls are recorded in the order of their positions, those of the source before those
of the startup code. -/
structure StartupAppended (context : StartupContext) (count sourceSize sourceFixupCount : Nat) :
    Prop where
  codeFits : context.codeLength < wordLimit
  startup : sourceSize < context.codeLength
  countFits : count + 1 < wordLimit
  sources : ∀ index < count,
    (context.functions index).offset + (context.functions index).size ≤ sourceSize
  entryOffset : (context.functions count).offset = sourceSize
  entrySize : (context.functions count).size = context.codeLength - sourceSize
  callsFit : context.fixups.count < wordLimit
  callsOrdered : ∀ first second, first < second → second < context.fixups.count →
    (context.fixups.items first).instruction < (context.fixups.items second).instruction
  sourceCalls : ∀ index < context.fixups.count, index < sourceFixupCount →
    (context.fixups.items index).instruction < sourceSize
  startupCalls : ∀ index < context.fixups.count, sourceFixupCount ≤ index →
    sourceSize ≤ (context.fixups.items index).instruction ∧
      (context.fixups.items index).instruction < context.codeLength
  callTargets : ∀ index < context.fixups.count,
    0 < (context.fixups.items index).target ∧ (context.fixups.items index).target ≤ count
  addressesFit : context.functionAddresses.count < wordLimit
  addresses : ∀ index < context.functionAddresses.count,
    (context.functionAddresses.items index).instruction < sourceSize
  addressTargets : ∀ index < context.functionAddresses.count,
    0 < (context.functionAddresses.items index).target ∧
      (context.functionAddresses.items index).target ≤ count
  dataFit : context.dataFixups.count < wordLimit
  data : ∀ index < context.dataFixups.count,
    (context.dataFixups.items index).instruction < sourceSize

/-- The bytes from a position on. -/
def StartupContext.slice (context : StartupContext) (start size : Nat) : List UInt8 :=
  (List.range size).map fun index => context.code (start + index)

/-- The bytes of the function in a slot. -/
def StartupContext.body (context : StartupContext) (slot : Nat) : List UInt8 :=
  context.slice (context.functions slot).offset (context.functions slot).size

/-- The function in a slot after the move is the one in a slot before it: the same record but for
the offset, with the same bytes. -/
def SameFunction (before after : StartupContext) (old new : Nat) : Prop :=
  after.functions new =
      { before.functions old with offset := (after.functions new).offset } ∧
    after.body new = before.body old

/-- A position after the move is that of the same instruction: as far as the bytes from the old
position belong to the same part of the code, they are the bytes from the new position. -/
def SameInstruction (before after : StartupContext) (sourceSize old new : Nat) : Prop :=
  ∀ size, (old + size ≤ sourceSize ∨ sourceSize ≤ old ∧ old + size ≤ before.codeLength) →
    after.slice new size = before.slice old size

section Move

variable {context : StartupContext} {count sourceSize sourceFixupCount : Nat}

theorem nativeStartupRotateCode_eq (below : context.codeLength < wordLimit)
    (startup : sourceSize < context.codeLength) :
    ∃ fold inline, nativeStartupRotateCode context (context.codeLength - sourceSize)
        context.codeLength =
      some { context with
        code := fun index =>
          if index < context.codeLength - sourceSize then context.code (sourceSize + index)
          else if index < context.codeLength then
            context.code (index - (context.codeLength - sourceSize))
          else context.code index
        foldCursor := fold, inlineCursor := inline } := by
  rw [nativeStartupRotateCode, if_neg (by omega), wrapSub_eq (by omega) below,
    wrapSub_eq (by omega) (by omega)]
  obtain ⟨_, _, whole⟩ := nativeStartupReverseBytes_eq context 0
    (show context.codeLength - 1 < wordLimit by omega)
  dsimp only
  rw [whole]
  obtain ⟨_, _, front⟩ := nativeStartupReverseBytes_eq _ 0
    (show context.codeLength - sourceSize - 1 < wordLimit by omega)
  rw [front]
  obtain ⟨fold, inline, back⟩ := nativeStartupReverseBytes_eq _ (context.codeLength - sourceSize)
    (show context.codeLength - 1 < wordLimit by omega)
  rw [back]
  refine ⟨fold, inline, ?_⟩
  congr 2
  funext index
  have rotated := mirror_rotate context.code sourceSize
    (show 0 < context.codeLength - sourceSize by omega) index
  rw [Nat.add_sub_cancel' (by omega)] at rotated
  exact rotated

/-- The call fixups before they are sorted. -/
def adjustedFixup (startupSize sourceSize sourceFixupCount index : Nat) (entry : CallFixup) :
    CallFixup where
  instruction := if index < sourceFixupCount then entry.instruction + startupSize
    else entry.instruction - sourceSize
  target := entry.target + 1

/-- Adjusting the call fixups of an appended unit does not overflow. -/
theorem sweep_adjusted (appended : StartupAppended context count sourceSize sourceFixupCount) :
    sweep (fun index entry =>
        { instruction := if index < sourceFixupCount then
            wrapAdd entry.instruction (context.codeLength - sourceSize)
            else wrapSub entry.instruction sourceSize
          target := wrapAdd entry.target 1 }) context.fixups.items 0 context.fixups.count =
      sweep (adjustedFixup (context.codeLength - sourceSize) sourceSize sourceFixupCount)
        context.fixups.items 0 context.fixups.count := by
  apply sweep_congr
  intro index inside
  have fits := appended.codeFits
  have startup := appended.startup
  have target := appended.callTargets index inside
  have few := appended.countFits
  rw [adjustedFixup, wrapAdd_eq (show (context.fixups.items index).target + 1 < wordLimit by omega)]
  congr 1
  split
  · rename_i source
    have position := appended.sourceCalls index inside source
    exact wrapAdd_eq (by omega)
  · have position := appended.startupCalls index inside (by omega)
    exact wrapSub_eq position.1 (by omega)

/-- The adjusted call fixups are at different positions. -/
theorem apart_adjusted (appended : StartupAppended context count sourceSize sourceFixupCount) :
    Apart CallFixup.instruction
      (sweep (adjustedFixup (context.codeLength - sourceSize) sourceSize sourceFixupCount)
        context.fixups.items 0 context.fixups.count) context.fixups.count := by
  have moved : ∀ index < context.fixups.count,
      (sweep (adjustedFixup (context.codeLength - sourceSize) sourceSize sourceFixupCount)
        context.fixups.items 0 context.fixups.count index).instruction =
      if index < sourceFixupCount then
        (context.fixups.items index).instruction + (context.codeLength - sourceSize)
      else (context.fixups.items index).instruction - sourceSize := by
    intro index inside
    rw [sweep, if_pos ⟨Nat.zero_le index, inside⟩]
    rfl
  -- The fixups of the startup code land below those of the source.
  have different : ∀ first second, first < second → second < context.fixups.count →
      (sweep (adjustedFixup (context.codeLength - sourceSize) sourceSize sourceFixupCount)
        context.fixups.items 0 context.fixups.count first).instruction ≠
      (sweep (adjustedFixup (context.codeLength - sourceSize) sourceSize sourceFixupCount)
        context.fixups.items 0 context.fixups.count second).instruction := by
    intro first second less inside
    have ordered := appended.callsOrdered first second less inside
    rw [moved first (by omega), moved second inside]
    by_cases firstSource : first < sourceFixupCount
    · rw [if_pos firstSource]
      split
      · omega
      · have position := appended.startupCalls second inside (by omega)
        omega
    · have position := appended.startupCalls first (by omega) (by omega)
      rw [if_neg firstSource, if_neg (by omega)]
      omega
  intro first second firstInside secondInside equal
  by_contra other
  rcases Nat.lt_or_gt_of_ne other with less | more
  · exact different first second less secondInside equal
  · exact different second first more firstInside equal.symm

/-- The fixups after the move, whatever the code and the functions are by then. -/
theorem fixups_moved (appended : StartupAppended context count sourceSize sourceFixupCount)
    (code : Nat → UInt8) (functions : Nat → NativeFunction) (fold inline : Nat) :
    ∃ items fold' inline', nativeStartupShiftFixupPositions (nativeStartupShiftAddressFixups
      (nativeStartupSortCallFixups (nativeStartupAdjustCallFixups
        { context with
          code := code, functions := functions, foldCursor := fold, inlineCursor := inline }
        sourceFixupCount sourceSize (context.codeLength - sourceSize) 0) 1)
      (context.codeLength - sourceSize) 0) (context.codeLength - sourceSize) 0 =
      { context with
        code := code
        functions := functions
        fixups := { context.fixups with items := items }
        functionAddresses := { context.functionAddresses with
          items := sweep (fun _ entry =>
            { instruction := entry.instruction + (context.codeLength - sourceSize)
              target := entry.target + 1 })
            context.functionAddresses.items 0 context.functionAddresses.count }
        dataFixups := { context.dataFixups with
          items := sweep (fun _ entry =>
            { entry with instruction := entry.instruction + (context.codeLength - sourceSize) })
            context.dataFixups.items 0 context.dataFixups.count }
        foldCursor := fold', inlineCursor := inline' } ∧
      (∀ first second, first < second → second < context.fixups.count →
        (items first).instruction < (items second).instruction) ∧
      Rearranged context.fixups.count
        (sweep (adjustedFixup (context.codeLength - sourceSize) sourceSize sourceFixupCount)
          context.fixups.items 0 context.fixups.count) items := by
  have fits := appended.codeFits
  have startup := appended.startup
  have few := appended.countFits
  rw [nativeStartupAdjustCallFixups_eq _ (by exact appended.callsFit)]
  dsimp only
  rw [sweep_adjusted appended]
  obtain ⟨items, fold, inline, sorted, increasing, moved⟩ := nativeStartupSortCallFixups_eq
    { context with
      code := code
      functions := functions
      fixups := { context.fixups with
        items := sweep (adjustedFixup (context.codeLength - sourceSize) sourceSize sourceFixupCount)
          context.fixups.items 0 context.fixups.count }
      foldCursor := context.fixups.count, inlineCursor := inline } appended.callsFit
    (apart_adjusted appended)
  rw [sorted]
  dsimp only
  rw [nativeStartupShiftAddressFixups_eq _ (by exact appended.addressesFit),
    nativeStartupShiftFixupPositions_eq _ (by exact appended.dataFit)]
  refine ⟨items, context.dataFixups.count, inline, ?_, increasing, moved⟩
  dsimp only
  congr 2
  · apply sweep_congr
    intro index inside
    have position := appended.addresses index inside
    have target := appended.addressTargets index inside
    rw [wrapAdd_eq (by omega), wrapAdd_eq (by omega)]
  · apply sweep_congr
    intro index inside
    have position := appended.data index inside
    rw [wrapAdd_eq (by omega)]

/-- The functions after the move: the entry first, and then the source functions. -/
theorem functions_moved (appended : StartupAppended context count sourceSize sourceFixupCount)
    (slot : Nat) :
    Function.update (lift (sweep (fun _ function =>
          { function with
            offset := wrapAdd function.offset (context.codeLength - sourceSize) })
          context.functions 0 count) count) 0
        { lift (sweep (fun _ function =>
          { function with
            offset := wrapAdd function.offset (context.codeLength - sourceSize) })
          context.functions 0 count) count 0 with offset := 0 } slot =
      if slot = 0 then { context.functions count with offset := 0 }
      else if slot ≤ count then
        { context.functions (slot - 1) with
          offset := (context.functions (slot - 1)).offset + (context.codeLength - sourceSize) }
      else context.functions slot := by
  have fits := appended.codeFits
  have startup := appended.startup
  have last : sweep (fun _ function =>
      { function with offset := wrapAdd function.offset (context.codeLength - sourceSize) })
      context.functions 0 count count = context.functions count := by
    rw [sweep, if_neg (by omega)]
  rw [Function.update_apply]
  split
  · rw [lift, if_pos rfl, last]
  · rename_i other
    rw [lift, if_neg other]
    split
    · rename_i inside
      have bound := appended.sources (slot - 1) (by omega)
      rw [sweep, if_pos (by omega), wrapAdd_eq (by omega)]
    · rw [sweep, if_neg (by omega)]

/-- The unit after the move, up to the order of the call fixups. -/
theorem nativeStartupMoveToFront_eq
    (appended : StartupAppended context count sourceSize sourceFixupCount) :
    ∃ items fold inline, nativeStartupMoveToFront context count sourceSize sourceFixupCount =
      some { context with
        code := fun index =>
          if index < context.codeLength - sourceSize then context.code (sourceSize + index)
          else if index < context.codeLength then
            context.code (index - (context.codeLength - sourceSize))
          else context.code index
        functions := fun slot =>
          if slot = 0 then { context.functions count with offset := 0 }
          else if slot ≤ count then
            { context.functions (slot - 1) with
              offset := (context.functions (slot - 1)).offset + (context.codeLength - sourceSize) }
          else context.functions slot
        fixups := { context.fixups with items := items }
        functionAddresses := { context.functionAddresses with
          items := sweep (fun _ entry =>
            { instruction := entry.instruction + (context.codeLength - sourceSize)
              target := entry.target + 1 })
            context.functionAddresses.items 0 context.functionAddresses.count }
        dataFixups := { context.dataFixups with
          items := sweep (fun _ entry =>
            { entry with instruction := entry.instruction + (context.codeLength - sourceSize) })
            context.dataFixups.items 0 context.dataFixups.count }
        foldCursor := fold, inlineCursor := inline } ∧
      (∀ first second, first < second → second < context.fixups.count →
        (items first).instruction < (items second).instruction) ∧
      Rearranged context.fixups.count
        (sweep (adjustedFixup (context.codeLength - sourceSize) sourceSize sourceFixupCount)
          context.fixups.items 0 context.fixups.count) items := by
  have fits := appended.codeFits
  have startup := appended.startup
  have few := appended.countFits
  rw [nativeStartupMoveToFront, wrapSub_eq (by omega) fits]
  obtain ⟨_, inline, rotated⟩ := nativeStartupRotateCode_eq fits startup
  rw [rotated, Option.map_some]
  dsimp only
  rw [nativeStartupShiftSourceOffsets_eq _ (by omega), nativeStartupRotateFunctions_eq _ (by omega)]
  dsimp only
  rw [funext (functions_moved appended)]
  obtain ⟨items, fold, inline, moved, ordered, rearranged⟩ := fixups_moved appended _ _ 0 inline
  exact ⟨items, fold, inline, congrArg some moved, ordered, rearranged⟩

/-- The code is rotated, and the functions follow it. -/
structure Rotated (context after : StartupContext) (count sourceSize : Nat) : Prop where
  code : after.code = fun index =>
    if index < context.codeLength - sourceSize then context.code (sourceSize + index)
    else if index < context.codeLength then context.code (index - (context.codeLength - sourceSize))
    else context.code index
  functions : after.functions = fun slot =>
    if slot = 0 then { context.functions count with offset := 0 }
    else if slot ≤ count then
      { context.functions (slot - 1) with
        offset := (context.functions (slot - 1)).offset + (context.codeLength - sourceSize) }
    else context.functions slot

namespace Rotated

variable {after : StartupContext} (rotated : Rotated context after count sourceSize)

include rotated

theorem slice_source (startup : sourceSize < context.codeLength) {start size : Nat}
    (inside : start + size ≤ sourceSize) :
    after.slice (start + (context.codeLength - sourceSize)) size = context.slice start size := by
  apply List.map_congr_left
  intro index member
  have below := List.mem_range.mp member
  rw [rotated.code]
  dsimp only
  rw [if_neg (by omega), if_pos (by omega)]
  congr 1
  omega

theorem slice_startup {start size : Nat} (source : sourceSize ≤ start)
    (inside : start + size ≤ context.codeLength) :
    after.slice (start - sourceSize) size = context.slice start size := by
  apply List.map_congr_left
  intro index member
  have below := List.mem_range.mp member
  rw [rotated.code]
  dsimp only
  rw [if_pos (by omega)]
  congr 1
  omega

theorem sameFunction_source
    (appended : StartupAppended context count sourceSize sourceFixupCount) {index : Nat}
    (inside : index < count) : SameFunction context after index (index + 1) := by
  have record : after.functions (index + 1) = { context.functions index with
      offset := (context.functions index).offset + (context.codeLength - sourceSize) } := by
    rw [rotated.functions]
    dsimp only
    rw [if_neg (by omega), if_pos (by omega), Nat.add_sub_cancel]
  constructor
  · rw [record]
  · rw [StartupContext.body, record]
    exact rotated.slice_source appended.startup (appended.sources index inside)

theorem sameFunction_entry
    (appended : StartupAppended context count sourceSize sourceFixupCount) :
    SameFunction context after count 0 ∧ (after.functions 0).offset = 0 := by
  have record : after.functions 0 = { context.functions count with offset := 0 } := by
    rw [rotated.functions]
    exact if_pos rfl
  refine ⟨⟨by rw [record], ?_⟩, by rw [record]⟩
  rw [StartupContext.body, StartupContext.body, record, appended.entryOffset]
  have startup := appended.startup
  have size := appended.entrySize
  have same := @slice_startup context count sourceSize after rotated sourceSize
    (context.functions count).size (Nat.le_refl sourceSize) (by omega)
  rw [Nat.sub_self] at same
  exact same

/-- A reference to a source function follows it to the next slot. -/
theorem sameFunction_target
    (appended : StartupAppended context count sourceSize sourceFixupCount) {target : Nat}
    (valid : 0 < target ∧ target ≤ count) :
    SameFunction context after (target - 1) (target + 1 - 1) := by
  have same := rotated.sameFunction_source appended (show target - 1 < count by omega)
  rw [Nat.sub_add_cancel (by omega)] at same
  rw [Nat.add_sub_cancel]
  exact same

/-- A position in the source moves behind the startup code. -/
theorem sameInstruction_source (startup : sourceSize < context.codeLength) {position : Nat}
    (inside : position < sourceSize) :
    SameInstruction context after sourceSize position
      (position + (context.codeLength - sourceSize)) := by
  rintro size (source | ⟨beyond, -⟩)
  · exact rotated.slice_source startup source
  · omega

/-- A position in the startup code moves to the front. -/
theorem sameInstruction_startup {position : Nat} (beyond : sourceSize ≤ position) :
    SameInstruction context after sourceSize position (position - sourceSize) := by
  rintro size (source | ⟨-, inside⟩)
  · have empty : size = 0 := by omega
    rw [empty]
    rfl
  · exact rotated.slice_startup beyond inside

end Rotated

/-- An adjusted call fixup is at the same instruction and refers to the same function. -/
theorem Rotated.sameCall {after : StartupContext} (rotated : Rotated context after count sourceSize)
    (appended : StartupAppended context count sourceSize sourceFixupCount) {index : Nat}
    (inside : index < context.fixups.count) :
    SameInstruction context after sourceSize (context.fixups.items index).instruction
        (adjustedFixup (context.codeLength - sourceSize) sourceSize sourceFixupCount index
          (context.fixups.items index)).instruction ∧
      SameFunction context after ((context.fixups.items index).target - 1)
        ((adjustedFixup (context.codeLength - sourceSize) sourceSize sourceFixupCount index
          (context.fixups.items index)).target - 1) := by
  refine ⟨?_, rotated.sameFunction_target appended (appended.callTargets index inside)⟩
  rw [adjustedFixup]
  dsimp only
  split
  · rename_i source
    exact rotated.sameInstruction_source appended.startup (appended.sourceCalls index inside source)
  · rename_i beyond
    exact rotated.sameInstruction_startup
      (appended.startupCalls index inside (Nat.le_of_not_lt beyond)).1

/-- The code is the startup code followed by the source, byte for byte. -/
theorem Rotated.bytes {after : StartupContext} (rotated : Rotated context after count sourceSize)
    (appended : StartupAppended context count sourceSize sourceFixupCount) :
    after.slice 0 context.codeLength =
      context.slice sourceSize (context.codeLength - sourceSize) ++ context.slice 0 sourceSize := by
  have startup := appended.startup
  have split : after.slice 0 context.codeLength =
      after.slice 0 (context.codeLength - sourceSize) ++
        after.slice (context.codeLength - sourceSize) sourceSize := by
    unfold StartupContext.slice
    conv_lhs => rw [show context.codeLength = context.codeLength - sourceSize + sourceSize by omega,
      List.range_add, List.map_append, List.map_map]
    congr 1
    apply List.map_congr_left
    intro index _
    exact congrArg after.code (Nat.zero_add _)
  have front := rotated.slice_startup (Nat.le_refl sourceSize)
    (show sourceSize + (context.codeLength - sourceSize) ≤ context.codeLength by omega)
  have back := rotated.slice_source startup (show 0 + sourceSize ≤ sourceSize by omega)
  rw [Nat.sub_self] at front
  rw [Nat.zero_add] at back
  rw [split, front, back]

end Move

/-- Moving the startup code to the front keeps the meaning of the unit. The code is the startup code
followed by the source, byte for byte. The entry is in the first slot at offset zero, and every source
function is in the next slot with its bytes. Every fixup is at the same instruction; those of calls
and addresses refer to the same function and those of data to the same datum; and the call fixups are
in the order of their positions. -/
theorem nativeStartupMoveToFront_preserves (context : StartupContext)
    (count sourceSize sourceFixupCount : Nat)
    (appended : StartupAppended context count sourceSize sourceFixupCount) :
    ∃ after, nativeStartupMoveToFront context count sourceSize sourceFixupCount = some after ∧
      after.codeLength = context.codeLength ∧
      after.slice 0 context.codeLength =
        context.slice sourceSize (context.codeLength - sourceSize) ++ context.slice 0 sourceSize ∧
      SameFunction context after count 0 ∧ (after.functions 0).offset = 0 ∧
      (∀ index < count, SameFunction context after index (index + 1)) ∧
      (after.fixups.count = context.fixups.count ∧
        ∃ moves : Equiv.Perm Nat, ∀ index < context.fixups.count,
          moves index < context.fixups.count ∧
          SameInstruction context after sourceSize (context.fixups.items index).instruction
            (after.fixups.items (moves index)).instruction ∧
          SameFunction context after ((context.fixups.items index).target - 1)
            ((after.fixups.items (moves index)).target - 1)) ∧
      (after.functionAddresses.count = context.functionAddresses.count ∧
        ∀ index < context.functionAddresses.count,
          SameInstruction context after sourceSize (context.functionAddresses.items index).instruction
            (after.functionAddresses.items index).instruction ∧
          SameFunction context after ((context.functionAddresses.items index).target - 1)
            ((after.functionAddresses.items index).target - 1)) ∧
      (after.dataFixups.count = context.dataFixups.count ∧
        ∀ index < context.dataFixups.count,
          SameInstruction context after sourceSize (context.dataFixups.items index).instruction
            (after.dataFixups.items index).instruction ∧
          (after.dataFixups.items index).target = (context.dataFixups.items index).target) ∧
      ∀ first second, first < second → second < after.fixups.count →
        (after.fixups.items first).instruction < (after.fixups.items second).instruction := by
  have startup := appended.startup
  obtain ⟨items, fold, inline, result, ordered, rearranged⟩ := nativeStartupMoveToFront_eq appended
  obtain ⟨after, result, length, rotated, calls, addresses, data⟩ : ∃ after,
      nativeStartupMoveToFront context count sourceSize sourceFixupCount = some after ∧
      after.codeLength = context.codeLength ∧ Rotated context after count sourceSize ∧
      after.fixups = { context.fixups with items := items } ∧
      after.functionAddresses = { context.functionAddresses with
        items := sweep (fun _ entry =>
          { instruction := entry.instruction + (context.codeLength - sourceSize)
            target := entry.target + 1 })
          context.functionAddresses.items 0 context.functionAddresses.count } ∧
      after.dataFixups = { context.dataFixups with
        items := sweep (fun _ entry =>
          { entry with instruction := entry.instruction + (context.codeLength - sourceSize) })
          context.dataFixups.items 0 context.dataFixups.count } :=
    ⟨_, result, rfl, ⟨rfl, rfl⟩, rfl, rfl, rfl⟩
  obtain ⟨entry, front⟩ := rotated.sameFunction_entry appended
  obtain ⟨moves, stays, same⟩ := rearranged.exists_place
  refine ⟨after, result, length, rotated.bytes appended, entry, front,
    fun index inside => rotated.sameFunction_source appended inside, ?_, ?_, ?_, ?_⟩
  · rw [calls]
    refine ⟨rfl, moves, fun index inside => ⟨(stays index).mp inside, ?_⟩⟩
    have moved := same index
    rw [sweep, if_pos ⟨Nat.zero_le index, inside⟩] at moved
    dsimp only
    rw [moved]
    exact rotated.sameCall appended inside
  · rw [addresses]
    refine ⟨rfl, fun index inside => ?_⟩
    dsimp only
    rw [sweep, if_pos ⟨Nat.zero_le index, inside⟩]
    exact ⟨rotated.sameInstruction_source startup (appended.addresses index inside),
      rotated.sameFunction_target appended (appended.addressTargets index inside)⟩
  · rw [data]
    refine ⟨rfl, fun index inside => ?_⟩
    dsimp only
    rw [sweep, if_pos ⟨Nat.zero_le index, inside⟩]
    exact ⟨rotated.sameInstruction_source startup (appended.data index inside), rfl⟩
  · rw [calls]
    exact ordered

/-- A unit of one function that calls itself, and two bytes of startup code that call it. -/
def startupSample : StartupContext where
  code := fun index => [0x10, 0x11, 0x20, 0x21].getD index 0
  codeLength := 4
  functions := fun slot => if slot = 0 then { size := 2 } else { offset := 2, size := 2 }
  fixups :=
    { items := fun index => if index = 0 then { target := 1 } else { instruction := 2, target := 1 }
      count := 2 }

theorem nativeStartupMoveToFront_preserves_sample :
    ∃ after, nativeStartupMoveToFront startupSample 1 2 1 = some after ∧
      after.slice 0 4 = [0x20, 0x21, 0x10, 0x11] := by
  have appended : StartupAppended startupSample 1 2 1 := by
    refine ⟨by decide, by decide, by decide, by decide, rfl, rfl, by decide, ?_, by decide,
      by decide, by decide, by decide, by decide, by decide, by decide, by decide⟩
    intro first second less inside
    change second < 2 at inside
    obtain ⟨rfl, rfl⟩ : first = 0 ∧ second = 1 := by omega
    decide
  obtain ⟨after, moved, -, bytes, -⟩ := nativeStartupMoveToFront_preserves startupSample 1 2 1 appended
  exact ⟨after, moved, bytes.trans (by decide)⟩

end Native
