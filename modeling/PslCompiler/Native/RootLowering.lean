import PslCompiler.Native.LowerRoots

/-! # What root lowering does to a list

The expansion in place yields the list with its root operations and loses nothing
(`nativeRootLowerWithCapacity_code`). The verifier accepts it exactly when no jump leads back to
the entry, and what the verifier accepts keeps the discipline of the frame on every execution.
-/

namespace Native

open Buffers

/-! ## The expanded list -/

/-- The root operation before an instruction. -/
def rootGuard (pop : Nat) (op : LirInstruction) : Option LirInstruction :=
  match op.kind with
  | .call => some (rootControl .rootsSync 0)
  | .ret => some (rootControl .rootsLeave pop)
  | _ => none

/-- An instruction list with the operations of a root frame: initialization and push after the
entry, a synchronization before every call, a pop before every return. -/
def rootFrameCode (push pop : Nat) : List LirInstruction → List LirInstruction
  | [] => []
  | entry :: body => entry :: rootControl .rootsInit 0 :: rootControl .rootsEnter push ::
      expansion (rootGuard pop) body

theorem nativeRootExpandInstruction_eq (pop source target : Nat)
    (instructions : Nat → LirInstruction) :
    nativeRootExpandInstruction pop source target instructions =
      expandOne (rootGuard pop) source target instructions := by
  unfold nativeRootExpandInstruction expandOne rootGuard
  cases kind : (instructions source).kind with
  | call => simp [nativeRootWriteControl, nativeRootCopyInstruction]
  | ret => simp [nativeRootWriteControl, nativeRootCopyInstruction]
  | _ => simp [nativeRootCopyInstruction]

theorem nativeRootExpandLoop_eq (pop : Nat) : ∀ (remaining target : Nat)
    (instructions : Nat → LirInstruction),
    nativeRootExpandLoop pop remaining target instructions =
      expandBackward (rootGuard pop) 1 remaining target instructions := by
  intro remaining
  induction remaining with
  | zero => exact fun _ _ => rfl
  | succ remaining ih =>
      intro target instructions
      simp only [nativeRootExpandLoop, expandBackward, ih, nativeRootExpandInstruction_eq]

section Expansion

variable {arena : LirArena}

theorem code_eq (nonempty : 1 ≤ arena.count) :
    arena.code = arena.instructions 1 :: slice arena.instructions 1 (arena.count - 1) := by
  obtain ⟨rest, size⟩ := Nat.exists_eq_add_of_le' nonempty
  rw [LirArena.code, size, List.range'_succ, List.map_cons, Nat.add_sub_cancel]
  rfl

/-- One extra instruction for each call and return, and two for the entry. -/
theorem nativeRootExtraInstructions_eq (entry : arena.entryP = true) (nonempty : 1 ≤ arena.count)
    (pop : Nat) : arena.count + nativeRootExtraInstructions arena =
      1 + 2 + (expansion (rootGuard pop)
        (slice arena.instructions 1 (arena.count - 1))).length := by
  have guarded : ∀ op : LirInstruction, (rootGuard pop op).isSome =
      (op.kind == .call || op.kind == .ret) := by
    intro op
    unfold rootGuard
    cases op.kind <;> rfl
  have counted : (List.range' 1 arena.count).countP (fun index =>
      (arena.instructions index).kind == .call || (arena.instructions index).kind == .ret) =
      arena.code.countP fun op => op.kind == .call || op.kind == .ret := by
    rw [LirArena.code, List.countP_map]
    rfl
  have first : (arena.instructions 1).kind = .label := by
    simp only [LirArena.entryP, Bool.and_eq_true, beq_iff_eq] at entry
    exact entry.1
  rw [nativeRootExtraInstructions, counted, code_eq nonempty, List.countP_cons_of_neg (by
    simp [first]), length_expansion, length_slice]
  simp only [guarded]
  omega

theorem nativeRootExpandEntry_above (instructions : Nat → LirInstruction) (push : Nat)
    {index : Nat} (above : 3 < index) :
    nativeRootExpandEntry instructions push index = instructions index := by
  simp only [nativeRootExpandEntry, nativeRootWriteControl, nativeRootCopyInstruction,
    Function.update_of_ne (show index ≠ 3 by omega), Function.update_of_ne (show index ≠ 2 by omega),
    Function.update_of_ne (show index ≠ 1 by omega)]

/-- With enough capacity, lowering yields the list with its root operations, and changes nothing
else of the arena. -/
theorem nativeRootLowerWithCapacity_code (entry : arena.entryP = true)
    (nonempty : 1 ≤ arena.count)
    (capacity : nativeRootExtraInstructions arena ≤ arena.capacity - arena.count)
    (roots push pop : Nat) : ∃ lowered,
      nativeRootLowerWithCapacity arena roots push pop = (true, lowered) ∧
      lowered.code = rootFrameCode push pop arena.code ∧
      lowered = { arena with
        instructions := lowered.instructions
        count := arena.count + nativeRootExtraInstructions arena
        rootCount := roots } := by
  have total := nativeRootExtraInstructions_eq entry nonempty pop
  obtain ⟨meets, placed, kept⟩ := expandBackward_spec (rootGuard pop) 1 2 (arena.count - 1) _
    arena.instructions total
  rw [nativeRootLowerWithCapacity, if_neg (Nat.not_lt.mpr capacity), nativeRootExpandFunction,
    nativeRootExpandLoop_eq]
  simp only [meets, ↓reduceIte]
  refine ⟨_, rfl, ?_, rfl⟩
  generalize expandBackward (rootGuard pop) 1 (arena.count - 1)
    (arena.count + nativeRootExtraInstructions arena) arena.instructions = expanded at *
  have written : Stores (nativeRootExpandEntry expanded.2 push) (0 + 1)
      (rootFrameCode push pop arena.code) := by
    rw [code_eq nonempty]
    change Stores _ _ ([arena.instructions 1, rootControl .rootsInit 0,
      rootControl .rootsEnter push] ++ _)
    apply Stores.append
    · intro offset element fetched
      rcases offset with _ | _ | _ | offset
      · cases fetched
        exact kept 1 (.inl le_rfl)
      · cases fetched
        rfl
      · cases fetched
        rfl
      · cases fetched
    · intro offset element fetched
      have found := placed offset element fetched
      rw [nativeRootExpandEntry_above _ _ (by simp only [List.length_cons, List.length_nil]; omega),
        ← found]
      exact congrArg expanded.2 (by simp only [List.length_cons, List.length_nil])
  have size : (rootFrameCode push pop arena.code).length =
      arena.count + nativeRootExtraInstructions arena := by
    rw [code_eq nonempty, rootFrameCode, total]
    simp only [List.length_cons]
    omega
  have whole := written.slice_eq
  rw [size] at whole
  exact whole

end Expansion

/-! ## Verification of the expanded list -/

/-- Calls stand right after a synchronization, returns right after a pop. -/
structure RootNeighbours (before after : LirInstruction) : Prop where
  sync : after.kind = .call ↔ before.kind = .rootsSync
  leave : after.kind = .ret ↔ before.kind = .rootsLeave

/-- A list without root operations, as it is before root lowering. -/
def Rootless (code : List LirInstruction) : Prop := ∀ op ∈ code, op.kind.rootKindP = false

theorem rootGuard_neighbours {pop : Nat} {before op guard : LirInstruction}
    (noSync : before.kind ≠ .rootsSync) (noLeave : before.kind ≠ .rootsLeave)
    (found : rootGuard pop op = some guard) :
    RootNeighbours before guard ∧ RootNeighbours guard op := by
  unfold rootGuard at found
  split at found
  · rename_i kind
    cases found
    exact ⟨⟨by simp [rootControl, noSync], by simp [rootControl, noLeave]⟩,
      ⟨by simp [rootControl, kind], by simp [rootControl, kind]⟩⟩
  · rename_i kind
    cases found
    exact ⟨⟨by simp [rootControl, noSync], by simp [rootControl, noLeave]⟩,
      ⟨by simp [rootControl, kind], by simp [rootControl, kind]⟩⟩
  · cases found

theorem rootGuard_eq_none {pop : Nat} {op : LirInstruction} (found : rootGuard pop op = none) :
    op.kind ≠ .call ∧ op.kind ≠ .ret := by
  unfold rootGuard at found
  split at found
  · cases found
  · cases found
  · rename_i noCall noReturn
    exact ⟨noCall, noReturn⟩

/-- The list from the push on is guarded. -/
theorem isChain_rootFrameCode {body : List LirInstruction} (rootless : Rootless body)
    (push pop : Nat) : (rootControl .rootsEnter push ::
      expansion (rootGuard pop) body).IsChain RootNeighbours := by
  refine @isChain_expansion _ _ _ (fun op => op.kind ≠ .rootsSync ∧ op.kind ≠ .rootsLeave)
    ?_ ?_ _ _ ?_ ⟨by simp [rootControl], by simp [rootControl]⟩
  · rintro before op ⟨noSync, noLeave⟩ found
    obtain ⟨noCall, noReturn⟩ := rootGuard_eq_none found
    exact ⟨by simp [noCall, noSync], by simp [noReturn, noLeave]⟩
  · rintro before op guard ⟨noSync, noLeave⟩ found
    exact rootGuard_neighbours noSync noLeave found
  · intro op member
    have plain := rootless op member
    refine ⟨?_, ?_⟩
    · intro same
      simp [same, Kind.rootKindP] at plain
    · intro same
      simp [same, Kind.rootKindP] at plain

/-- What an instruction of the body of a framed list is. -/
theorem mem_body {pop : Nat} {body : List LirInstruction} {op : LirInstruction}
    (member : op ∈ expansion (rootGuard pop) body) :
    op ∈ body ∨ op = rootControl .rootsSync 0 ∨ op = rootControl .rootsLeave pop := by
  rcases mem_expansion.mp member with old | ⟨guarded, -, found⟩
  · exact .inl old
  · unfold rootGuard at found
    split at found
    · cases found
      exact .inr (.inl rfl)
    · cases found
      exact .inr (.inr rfl)
    · cases found

section Verification

variable {arena : LirArena}

theorem code_getElem? {offset : Nat} {op : LirInstruction} : arena.code[offset]? = some op ↔
    offset < arena.count ∧ arena.instructions (offset + 1) = op := by
  unfold LirArena.code
  rw [List.getElem?_map, Option.map_eq_some_iff]
  constructor
  · rintro ⟨index, fetched, rfl⟩
    obtain ⟨inside, rfl⟩ := List.getElem?_eq_some_iff.mp fetched
    rw [List.length_range'] at inside
    refine ⟨inside, ?_⟩
    rw [List.getElem_range', Nat.one_mul, Nat.add_comm]
  · rintro ⟨inside, rfl⟩
    exact ⟨offset + 1, by rw [List.getElem?_range' inside, Nat.one_mul, Nat.add_comm], rfl⟩

/-- An instruction that passes the lifetime check does not lead to the entry. -/
theorem lifetime_onward {index : Nat} (check : nativeRootInstructionLifetimeP arena index = true) :
    1 ∉ (arena.instructions index).targets := by
  unfold nativeRootInstructionLifetimeP at check
  unfold LirInstruction.targets
  intro target
  split at check
  · simp only [beq_iff_eq] at check
    simp [check] at target
  · split at check
    · simp only [beq_iff_eq] at check
      simp [check] at target
    · split at target
      · rename_i kind
        simp only [kind, bne_iff_ne] at check
        exact check (List.mem_singleton.mp target).symm
      · rename_i kind
        simp only [kind, Bool.and_eq_true, bne_iff_ne] at check
        simp only [List.mem_cons, List.not_mem_nil, or_false] at target
        rcases target with first | second
        · exact check.1 first.symm
        · exact check.2 second.symm
      · exact List.not_mem_nil target

/-- A list in which no jump and no branch leads to the entry. -/
def EntryOnce (code : List LirInstruction) : Prop := ∀ op ∈ code, 1 ∉ op.targets

instance (code : List LirInstruction) : Decidable (EntryOnce code) :=
  inferInstanceAs (Decidable (∀ op ∈ code, 1 ∉ op.targets))

section Framed

variable {lowered : LirArena} {entry : LirInstruction} {body : List LirInstruction}
variable {push pop : Nat} (shape : lowered.code = rootFrameCode push pop (entry :: body))
variable (labelled : entry.kind = .label) (rootless : Rootless body)

include shape in
/-- Where the instructions of a framed list stand. -/
theorem framed_position {index : Nat} (lower : 1 ≤ index) (upper : index ≤ lowered.count) :
    index = 1 ∧ lowered.instructions index = entry ∨
    index = 2 ∧ lowered.instructions index = rootControl .rootsInit 0 ∨
    index = 3 ∧ lowered.instructions index = rootControl .rootsEnter push ∨
    4 ≤ index ∧
      (expansion (rootGuard pop) body)[index - 4]? = some (lowered.instructions index) := by
  obtain ⟨offset, rfl⟩ := Nat.exists_eq_add_of_le' lower
  have fetched := (@code_getElem? lowered offset _).mpr ⟨upper, rfl⟩
  rw [shape, rootFrameCode] at fetched
  rcases offset with _ | _ | _ | offset
  · exact .inl ⟨rfl, (Option.some.inj fetched).symm⟩
  · exact .inr (.inl ⟨rfl, (Option.some.inj fetched).symm⟩)
  · exact .inr (.inr (.inl ⟨rfl, (Option.some.inj fetched).symm⟩))
  · exact .inr (.inr (.inr ⟨by omega, fetched⟩))

include shape in
theorem framed_count : lowered.count = (expansion (rootGuard pop) body).length + 3 := by
  have size := congrArg List.length shape
  simpa [LirArena.code, rootFrameCode] using size

include shape rootless in
/-- Neighbours from the push on. -/
theorem framed_neighbours {index : Nat} (lower : 3 ≤ index) (upper : index < lowered.count) :
    RootNeighbours (lowered.instructions index) (lowered.instructions (index + 1)) := by
  have chain := isChain_rootFrameCode rootless push pop
  have tail : lowered.code.drop 2 =
      rootControl .rootsEnter push :: expansion (rootGuard pop) body := by
    rw [shape]
    rfl
  rw [← tail] at chain
  have size : lowered.code.length = lowered.count := by simp [LirArena.code]
  have pair := List.isChain_iff_getElem.mp chain (index - 3) (by
    rw [List.length_drop, size]
    omega)
  have first := (@code_getElem? lowered (index - 1) _).mpr ⟨by omega, rfl⟩
  have second := (@code_getElem? lowered index _).mpr ⟨upper, rfl⟩
  rw [Nat.sub_add_cancel (by omega)] at first
  obtain ⟨_, firstSame⟩ := List.getElem?_eq_some_iff.mp first
  obtain ⟨_, secondSame⟩ := List.getElem?_eq_some_iff.mp second
  simp only [List.getElem_drop] at pair
  rw [← firstSame, ← secondSame]
  convert pair using 2
  · omega
  · omega

include shape rootless in
/-- A framed list does not end in a root operation of its body. -/
theorem framed_last {index : Nat} (lower : 4 ≤ index) (upper : index ≤ lowered.count)
    (root : (lowered.instructions index).kind.rootKindP = true) : index < lowered.count := by
  refine Nat.lt_of_le_of_ne upper ?_
  rintro rfl
  have size := framed_count shape
  rcases framed_position shape (by omega) le_rfl with ⟨one, -⟩ | ⟨two, -⟩ | ⟨three, -⟩ | ⟨-, fetched⟩
  · omega
  · omega
  · omega
  · have last : (expansion (rootGuard pop) body).getLast? =
        some (lowered.instructions lowered.count) := by
      rw [List.getLast?_eq_getElem?, ← fetched]
      congr 1
      omega
    rw [getLast?_expansion] at last
    rw [rootless _ (List.mem_of_getLast? last)] at root
    cases root

include shape labelled rootless in
/-- The lifetime check accepts a framed list exactly when nothing leads back to the entry. -/
theorem nativeRootVerifyLifetime_framed :
    nativeRootVerifyLifetime lowered = true ↔ EntryOnce (entry :: body) := by
  rw [nativeRootVerifyLifetime, checkUpTo_eq_true]
  constructor
  · intro checked op member target
    rcases List.mem_cons.mp member with rfl | inside
    · simp [LirInstruction.targets, labelled] at target
    · obtain ⟨offset, fetched⟩ :=
        List.getElem?_of_mem (mem_expansion.mpr (.inl inside) : op ∈ expansion (rootGuard pop) body)
      have placed : lowered.code[offset + 3]? = some op := by
        rw [shape]
        exact fetched
      obtain ⟨bound, same⟩ := code_getElem?.mp placed
      have onward := lifetime_onward (checked (offset + 3 + 1) (by omega) bound)
      rw [same] at onward
      exact onward target
  · intro once index lower upper
    unfold nativeRootInstructionLifetimeP
    rcases framed_position shape lower upper with ⟨rfl, same⟩ | ⟨rfl, same⟩ | ⟨rfl, same⟩ |
        ⟨late, fetched⟩
    · simp [same, labelled]
    · simp [same, rootControl]
    · simp [same, rootControl]
    · rw [if_neg (by omega), if_neg (by omega)]
      have before := framed_neighbours shape rootless (show 3 ≤ index - 1 by omega) (by omega)
      rw [Nat.sub_add_cancel (by omega)] at before
      have ends := framed_last shape rootless late upper
      have after := fun inside => framed_neighbours shape rootless (show 3 ≤ index by omega) inside
      have source := mem_body (List.mem_of_getElem? fetched)
      generalize lowered.instructions index = op at *
      cases kind : op.kind with
      | rootsInit =>
          rcases source with old | rfl | rfl
          · have plain := rootless op old
            simp [kind, Kind.rootKindP] at plain
          · cases kind
          · cases kind
      | rootsEnter =>
          rcases source with old | rfl | rfl
          · have plain := rootless op old
            simp [kind, Kind.rootKindP] at plain
          · cases kind
          · cases kind
      | call =>
          simp only [nativeRootPreviousKindP, before.sync.mp kind, beq_self_eq_true, Bool.and_true,
            decide_eq_true_eq]
          omega
      | ret =>
          simp only [nativeRootPreviousKindP, before.leave.mp kind, beq_self_eq_true, Bool.and_true,
            decide_eq_true_eq]
          omega
      | rootsSync =>
          have inside := ends (by rw [kind]; rfl)
          simp only [nativeRootNextKindP, (after inside).sync.mpr kind, beq_self_eq_true, inside,
            decide_true, Bool.and_self]
      | rootsLeave =>
          have inside := ends (by rw [kind]; rfl)
          simp only [nativeRootNextKindP, (after inside).leave.mpr kind, beq_self_eq_true, inside,
            decide_true, Bool.and_self]
      | jump =>
          rcases source with old | rfl | rfl
          · have apart := once op (List.mem_cons_of_mem _ old)
            simp only [LirInstruction.targets, kind, List.mem_singleton] at apart
            exact bne_iff_ne.mpr (Ne.symm apart)
          · cases kind
          · cases kind
      | branch =>
          rcases source with old | rfl | rfl
          · have apart := once op (List.mem_cons_of_mem _ old)
            simp only [LirInstruction.targets, kind, List.mem_cons, List.not_mem_nil, or_false,
              not_or] at apart
            simp only [Bool.and_eq_true, bne_iff_ne]
            exact ⟨Ne.symm apart.1, Ne.symm apart.2⟩
          · cases kind
          · cases kind
      | _ => rfl

end Framed

end Verification

/-! ## The catalogue -/

section Catalogue

variable {context : CompileContext} {arena : LirArena}

theorem nativeRootCollectingCallP_code : nativeRootCollectingCallP context arena =
    arena.code.any fun op => op.kind == .call && !context.callAllocationFreeP op.target := by
  rw [LirArena.code, List.any_map]
  rfl

/-- Root operations are no calls that collect. -/
theorem any_rootFrameCode (push pop : Nat) (code : List LirInstruction) :
    ((rootFrameCode push pop code).any fun op =>
        op.kind == .call && !context.callAllocationFreeP op.target) =
      code.any fun op => op.kind == .call && !context.callAllocationFreeP op.target := by
  cases code with
  | nil => rfl
  | cons entry body =>
      have guards : ((expansion (rootGuard pop) body).any fun op =>
          op.kind == .call && !context.callAllocationFreeP op.target) =
          body.any fun op => op.kind == .call && !context.callAllocationFreeP op.target := by
        rw [Bool.eq_iff_iff, List.any_eq_true, List.any_eq_true]
        constructor
        · rintro ⟨op, member, calls⟩
          rcases mem_body member with old | rfl | rfl
          · exact ⟨op, old, calls⟩
          · simp [rootControl] at calls
          · simp [rootControl] at calls
        · rintro ⟨op, member, calls⟩
          exact ⟨op, mem_expansion.mpr (.inl member), calls⟩
      simp only [rootFrameCode, List.any_cons, guards, rootControl]
      rfl

/-- Root lowering does not change how many roots a function requires. -/
theorem nativeRootRequiredCount_framed {lowered : LirArena} {push pop : Nat}
    (shape : lowered.code = rootFrameCode push pop arena.code) (types : lowered.types = arena.types)
    (values : lowered.valueCount = arena.valueCount) :
    nativeRootRequiredCount context lowered = nativeRootRequiredCount context arena := by
  unfold nativeRootRequiredCount nativeRootValueCount
  rw [nativeRootCollectingCallP_code, nativeRootCollectingCallP_code, shape, any_rootFrameCode,
    types, values]

/-- What is known of a list that root lowering accepts and changes. -/
structure RootInput (context : CompileContext) (arena : LirArena) : Prop where
  counted : 1 ≤ arena.count
  fits : arena.count ≤ arena.capacity
  entry : arena.entryP = true
  parameters : nativeRootParametersP context = true
  rootless : Rootless arena.code

theorem rootInput_of_nativeRootInputP (accepted : nativeRootInputP context arena = true) :
    RootInput context arena := by
  simp only [nativeRootInputP, Bool.and_eq_true, irReferenceP_eq_true, nativeRootVerifyEmpty,
    checkUpTo_eq_true, Bool.not_eq_true'] at accepted
  obtain ⟨⟨⟨⟨⟨-, counted, fits⟩, entry⟩, parameters⟩, -⟩, plain⟩ := accepted
  refine ⟨counted, fits, entry, parameters, ?_⟩
  intro op member
  obtain ⟨offset, fetched⟩ := List.getElem?_of_mem member
  obtain ⟨inside, rfl⟩ := code_getElem?.mp fetched
  exact plain (offset + 1) (by omega) inside

/-- The verifier accepts a lowered list exactly when nothing leads back to the entry. -/
theorem nativeVerifyRoots_framed (input : RootInput context arena) {lowered : LirArena}
    {push pop : Nat} (shape : lowered.code = rootFrameCode push pop arena.code)
    (types : lowered.types = arena.types) (values : lowered.valueCount = arena.valueCount)
    (required : nativeRootRequiredCount context arena ≠ 0)
    (roots : lowered.rootCount = nativeRootRequiredCount context arena)
    (profile : context.profile = 1) :
    nativeVerifyRoots context lowered = true ↔ EntryOnce arena.code := by
  have first := code_eq input.counted
  have labelled : (arena.instructions 1).kind = .label := by
    have entry := input.entry
    simp only [LirArena.entryP, Bool.and_eq_true, beq_iff_eq] at entry
    exact entry.1
  have rootless : Rootless (slice arena.instructions 1 (arena.count - 1)) := by
    intro op member
    exact input.rootless op (first ▸ List.mem_cons_of_mem _ member)
  have shape' := shape
  rw [first] at shape'
  have size : ¬lowered.count < 4 := by
    have calls : nativeRootCollectingCallP context arena = true := by
      by_contra none
      simp [nativeRootRequiredCount, none] at required
    rw [nativeRootCollectingCallP_code, first, List.any_cons, labelled] at calls
    have count := framed_count shape'
    have bound := le_length_expansion (rootGuard pop) (slice arena.instructions 1 (arena.count - 1))
    have present : slice arena.instructions 1 (arena.count - 1) ≠ [] := by
      intro empty
      simp [empty] at calls
    have positive := List.length_pos_of_ne_nil present
    omega
  rw [first, ← nativeRootVerifyLifetime_framed shape' labelled rootless]
  simp only [nativeVerifyRoots, nativeVerifyRootCatalogue, input.parameters,
    nativeRootRequiredCount_framed shape types values, roots, required, ↓reduceIte, profile, size,
    beq_self_eq_true, decide_false, Bool.not_false, Bool.true_and]

end Catalogue

/-! ## Executions of verified lists -/

namespace LirArena

/-- The kinds of the instructions executed before a state is reached. -/
inductive History (arena : LirArena) : List Kind → LirState → Prop
  | start : History arena [] ⟨1, fun _ => none⟩
  | step {history : List Kind} {state next : LirState} (earlier : History arena history state)
      (steps : arena.Step state next) :
      History arena (history ++ [(arena.instructions state.pc).kind]) next

end LirArena

/-- What the root frame demands of an instruction about to be executed, by what was executed
before it. -/
structure RootDiscipline (history : List Kind) (kind : Kind) : Prop where
  call : kind = .call → history.count .rootsInit = 1 ∧ history.count .rootsEnter = 1 ∧
    history.count .rootsLeave = 0 ∧ history.getLast? = some .rootsSync
  ret : kind = .ret → history.count .rootsInit = 1 ∧ history.count .rootsEnter = 1 ∧
    history.count .rootsLeave = 1 ∧ history.getLast? = some .rootsLeave

/-- Every instruction that an execution comes to keeps the discipline of the root frame. -/
def LirArena.RootDisciplined (arena : LirArena) : Prop :=
  ∀ history state, arena.History history state → 1 ≤ state.pc → state.pc ≤ arena.count →
    RootDiscipline history (arena.instructions state.pc).kind

section Executions

variable {context : CompileContext} {arena : LirArena}

/-- What the lifetime check establishes, with the entry in its place. -/
structure RootPlaced (arena : LirArena) : Prop where
  entry : (arena.instructions 1).kind = .label ∧ (arena.instructions 1).target = 1
  init : (arena.instructions 2).kind = .rootsInit
  enter : (arena.instructions 3).kind = .rootsEnter
  single : ∀ index, 4 ≤ index → index ≤ arena.count →
    (arena.instructions index).kind ≠ .rootsInit ∧ (arena.instructions index).kind ≠ .rootsEnter
  neighbours : ∀ index, 3 ≤ index → index < arena.count →
    RootNeighbours (arena.instructions index) (arena.instructions (index + 1))
  onward : ∀ index, 1 ≤ index → index ≤ arena.count → 1 ∉ (arena.instructions index).targets

theorem rootPlaced_of_lifetime (entry : arena.entryP = true) (large : 4 ≤ arena.count)
    (checked : nativeRootVerifyLifetime arena = true) : RootPlaced arena := by
  rw [nativeRootVerifyLifetime, checkUpTo_eq_true] at checked
  simp only [LirArena.entryP, Bool.and_eq_true, beq_iff_eq] at entry
  have init : (arena.instructions 2).kind = .rootsInit := by
    simpa [nativeRootInstructionLifetimeP] using checked 2 (by omega) (by omega)
  have enter : (arena.instructions 3).kind = .rootsEnter := by
    simpa [nativeRootInstructionLifetimeP] using checked 3 (by omega) (by omega)
  have late {index : Nat} (lower : 4 ≤ index) (upper : index ≤ arena.count) :=
    checked index (by omega) upper
  refine ⟨entry, init, enter, ?_, ?_, ?_⟩
  · intro index lower upper
    have check := late lower upper
    rw [nativeRootInstructionLifetimeP, if_neg (by omega), if_neg (by omega)] at check
    refine ⟨?_, ?_⟩
    · intro kind
      simp [kind] at check
    · intro kind
      simp [kind] at check
  · intro index lower upper
    have check := late (show 4 ≤ index + 1 by omega) upper
    rw [nativeRootInstructionLifetimeP, if_neg (by omega), if_neg (by omega)] at check
    have before : (arena.instructions index).kind = .rootsSync ∨
        (arena.instructions index).kind = .rootsLeave →
        nativeRootInstructionLifetimeP arena index = true ∧ 4 ≤ index := by
      intro root
      have other : index ≠ 3 := by
        rintro rfl
        rw [enter] at root
        simp at root
      exact ⟨late (by omega) (by omega), by omega⟩
    refine ⟨⟨?_, ?_⟩, ⟨?_, ?_⟩⟩
    · intro kind
      simp only [kind, nativeRootPreviousKindP, Nat.add_sub_cancel, Bool.and_eq_true,
        beq_iff_eq] at check
      exact check.2
    · intro kind
      obtain ⟨check, lower⟩ := before (.inl kind)
      rw [nativeRootInstructionLifetimeP, if_neg (by omega), if_neg (by omega)] at check
      simp only [kind, nativeRootNextKindP, Bool.and_eq_true, beq_iff_eq] at check
      exact check.2
    · intro kind
      simp only [kind, nativeRootPreviousKindP, Nat.add_sub_cancel, Bool.and_eq_true,
        beq_iff_eq] at check
      exact check.2
    · intro kind
      obtain ⟨check, lower⟩ := before (.inr kind)
      rw [nativeRootInstructionLifetimeP, if_neg (by omega), if_neg (by omega)] at check
      simp only [kind, nativeRootNextKindP, Bool.and_eq_true, beq_iff_eq] at check
      exact check.2
  · intro index lower upper
    exact lifetime_onward (checked index lower upper)

/-- The operations executed before an instruction after the push. -/
structure InsideFrame (history : List Kind) (kind : Kind) : Prop where
  init : history.count .rootsInit = 1
  enter : history.count .rootsEnter = 1
  leave : history.count .rootsLeave = if kind = .ret then 1 else 0
  sync : kind = .call → history.getLast? = some .rootsSync
  last : kind = .ret → history.getLast? = some .rootsLeave

/-- What has been executed when control is at an instruction. -/
def Executed (arena : LirArena) (history : List Kind) (pc : Nat) : Prop :=
  pc = 1 ∧ history = [] ∨ pc = 2 ∧ history = [.label] ∨ pc = 3 ∧ history = [.label, .rootsInit] ∨
    4 ≤ pc ∧ InsideFrame history (arena.instructions pc).kind

/-- An ordinary instruction inside the frame leads to an instruction inside the frame. -/
theorem InsideFrame.next {history : List Kind} {kind following : Kind}
    (inside : InsideFrame history kind) (noInit : kind ≠ .rootsInit) (noEnter : kind ≠ .rootsEnter)
    (noReturn : kind ≠ .ret) (calls : following = .call ↔ kind = .rootsSync)
    (returns : following = .ret ↔ kind = .rootsLeave) :
    InsideFrame (history ++ [kind]) following := by
  have last : (history ++ [kind]).getLast? = some kind := by simp
  refine ⟨?_, ?_, ?_, ?_, ?_⟩
  · rw [List.count_append, inside.init, List.count_singleton, if_neg (by simpa using noInit)]
  · rw [List.count_append, inside.enter, List.count_singleton, if_neg (by simpa using noEnter)]
  · rw [List.count_append, inside.leave, if_neg noReturn, List.count_singleton]
    simp [returns]
  · intro call
    rw [last, calls.mp call]
  · intro ret
    rw [last, returns.mp ret]

theorem InsideFrame.start {following : Kind} (noCall : following ≠ .call)
    (noReturn : following ≠ .ret) :
    InsideFrame [.label, .rootsInit, .rootsEnter] following :=
  ⟨rfl, rfl, by simp [noReturn], fun call => (noCall call).elim, fun ret => (noReturn ret).elim⟩

/-- One step of an execution keeps what is known of the operations executed. -/
theorem RootPlaced.step (placed : RootPlaced arena) {history : List Kind} {state next : LirState}
    (executed : Executed arena history state.pc) (steps : arena.Step state next)
    (inside : next.pc ≤ arena.count) :
    Executed arena (history ++ [(arena.instructions state.pc).kind]) next.pc := by
  cases steps with
  | next lower upper falls =>
      rcases executed with ⟨one, rfl⟩ | ⟨two, rfl⟩ | ⟨three, rfl⟩ | ⟨late, framed⟩
      · rw [one, placed.entry.1]
        exact .inr (.inl ⟨rfl, rfl⟩)
      · rw [two, placed.init]
        exact .inr (.inr (.inl ⟨rfl, rfl⟩))
      · rw [three] at inside ⊢
        have pair := placed.neighbours 3 le_rfl inside
        rw [placed.enter]
        exact .inr (.inr (.inr ⟨le_rfl, .start (by simp [pair.sync, placed.enter])
          (by simp [pair.leave, placed.enter])⟩))
      · have pair := placed.neighbours state.pc (by omega) inside
        obtain ⟨noInit, noEnter⟩ := placed.single state.pc late upper
        refine .inr (.inr (.inr ⟨Nat.le_succ_of_le late, framed.next noInit noEnter ?_
          pair.sync pair.leave⟩))
        intro ret
        simp [ret, Kind.terminalKindP] at falls
  | @transfer label index lower upper transfers found =>
      have here : label ≠ 1 := fun same => placed.onward state.pc lower upper (same ▸ transfers)
      have labelled := List.find?_some found
      simp only [Bool.and_eq_true, beq_iff_eq] at labelled
      have bounds := List.mem_range'_1.mp (List.mem_of_find?_eq_some found)
      have late : 4 ≤ index := by
        have one : index ≠ 1 := by
          rintro rfl
          exact here (labelled.2.symm.trans placed.entry.2)
        have two : index ≠ 2 := by
          rintro rfl
          simp [placed.init] at labelled
        have three : index ≠ 3 := by
          rintro rfl
          simp [placed.enter] at labelled
        omega
      have kinds : (arena.instructions state.pc).kind = .jump ∨
          (arena.instructions state.pc).kind = .branch := by
        unfold LirInstruction.targets at transfers
        split at transfers
        · rename_i kind
          exact .inl kind
        · rename_i kind
          exact .inr kind
        · exact (List.not_mem_nil transfers).elim
      refine .inr (.inr (.inr ⟨late, ?_⟩))
      rcases executed with ⟨one, -⟩ | ⟨two, -⟩ | ⟨three, -⟩ | ⟨-, framed⟩
      · simp [one, placed.entry.1] at kinds
      · simp [two, placed.init] at kinds
      · simp [three, placed.enter] at kinds
      · rw [labelled.1]
        rcases kinds with kind | kind
        · rw [kind] at framed ⊢
          exact framed.next (by simp) (by simp) (by simp) (by simp) (by simp)
        · rw [kind] at framed ⊢
          exact framed.next (by simp) (by simp) (by simp) (by simp) (by simp)

theorem RootPlaced.executed (placed : RootPlaced arena) {history : List Kind} {state : LirState}
    (run : arena.History history state) (inside : state.pc ≤ arena.count) :
    Executed arena history state.pc := by
  induction run with
  | start => exact .inl ⟨rfl, rfl⟩
  | step earlier steps ih =>
      refine placed.step (ih ?_) steps inside
      cases steps with
      | next _ upper _ => exact upper
      | transfer _ upper _ _ => exact upper

/-- A list accepted with roots keeps the discipline of its frame. -/
theorem nativeVerifyRoots_disciplined (entry : arena.entryP = true)
    (verified : nativeVerifyRoots context arena = true) (rooted : arena.rootCount ≠ 0) :
    arena.RootDisciplined := by
  simp only [nativeVerifyRoots, nativeVerifyRootCatalogue, Bool.and_eq_true, beq_iff_eq] at verified
  obtain ⟨-, count, checks⟩ := verified
  rw [count] at rooted
  simp only [rooted, ↓reduceIte, Bool.and_eq_true, Bool.not_eq_true', decide_eq_false_iff_not,
    Nat.not_lt] at checks
  have placed := rootPlaced_of_lifetime entry checks.1.2 checks.2
  intro history state run lower upper
  rcases placed.executed run upper with ⟨one, -⟩ | ⟨two, -⟩ | ⟨three, -⟩ | ⟨-, framed⟩
  · rw [one, placed.entry.1]
    exact ⟨by simp, by simp⟩
  · rw [two, placed.init]
    exact ⟨by simp, by simp⟩
  · rw [three, placed.enter]
    exact ⟨by simp, by simp⟩
  · refine ⟨?_, ?_⟩
    · intro call
      have left := framed.leave
      rw [call, if_neg (by simp)] at left
      exact ⟨framed.init, framed.enter, left, framed.sync call⟩
    · intro ret
      have left := framed.leave
      rw [if_pos ret] at left
      exact ⟨framed.init, framed.enter, left, framed.last ret⟩

end Executions

/-! ## Root lowering as a whole -/

/-- A list that root lowering changes, given enough capacity. -/
structure Lowerable (context : RootContext) (arena : LirArena) : Prop where
  fresh : arena.rootCount = 0
  input : nativeRootInputP context.toCompileContext arena = true
  required : nativeRootRequiredCount context.toCompileContext arena ≠ 0
  push : nativeRootTargetP context.toCompileContext (nativeRuntimeFunctionIndex context 7) 7 = true
  pop : nativeRootTargetP context.toCompileContext (nativeRuntimeFunctionIndex context 8) 8 = true

section Lowering

variable {context : RootContext} {arena : LirArena}

theorem nativeLowerRoots_lowerable (lowerable : Lowerable context arena) :
    nativeLowerRoots context arena = nativeRootLowerWithCapacity arena
      (nativeRootRequiredCount context.toCompileContext arena)
      (nativeRuntimeFunctionIndex context 7) (nativeRuntimeFunctionIndex context 8) := by
  simp only [nativeLowerRoots, lowerable.fresh, lowerable.input, lowerable.required,
    lowerable.push, lowerable.pop, Nat.lt_irrefl, Bool.true_eq_false, ↓reduceIte]

/-- Every other list is left alone. -/
theorem nativeLowerRoots_unchanged (other : ¬Lowerable context arena) :
    (nativeLowerRoots context arena).2 = arena := by
  unfold nativeLowerRoots
  split
  · rfl
  · rename_i fresh
    split
    · rfl
    · rename_i input
      simp only
      split
      · rfl
      · rename_i required
        split
        · rfl
        · rename_i push
          split
          · rfl
          · rename_i pop
            exact (other ⟨by omega, by simpa using input, required, by simpa using push,
              by simpa using pop⟩).elim

/-- Root lowering expands every list that needs a frame, exactly and in place, and leaves every
other list as it is. The verifier accepts the result exactly when nothing leads back to the entry,
and what it accepts after the entry check keeps the discipline of the frame. -/
theorem root_lowering
    (runtime : ∀ signature, context.runtimeSignatureP signature = true → context.profile = 1) :
    (Lowerable context arena →
      nativeRootExtraInstructions arena ≤ arena.capacity - arena.count → ∃ lowered,
        nativeLowerRoots context arena = (true, lowered) ∧
        lowered.code = rootFrameCode (nativeRuntimeFunctionIndex context 7)
          (nativeRuntimeFunctionIndex context 8) arena.code ∧
        lowered = { arena with
          instructions := lowered.instructions
          count := arena.count + nativeRootExtraInstructions arena
          rootCount := nativeRootRequiredCount context.toCompileContext arena } ∧
        (nativeVerifyRoots context.toCompileContext lowered = true ↔ EntryOnce arena.code)) ∧
    (Lowerable context arena →
      arena.capacity - arena.count < nativeRootExtraInstructions arena →
        nativeLowerRoots context arena = (false, arena)) ∧
    (¬Lowerable context arena → (nativeLowerRoots context arena).2 = arena) ∧
    (∀ lowered, nativeLowerRoots context arena = (true, lowered) →
      (nativeLowerRoots context lowered).2 = lowered) ∧
    (arena.entryP = true → nativeVerifyRoots context.toCompileContext arena = true →
      arena.rootCount ≠ 0 → arena.RootDisciplined) := by
  have expand (lowerable : Lowerable context arena)
      (capacity : nativeRootExtraInstructions arena ≤ arena.capacity - arena.count) :=
    nativeRootLowerWithCapacity_code
      (rootInput_of_nativeRootInputP lowerable.input).entry
      (rootInput_of_nativeRootInputP lowerable.input).counted capacity
      (nativeRootRequiredCount context.toCompileContext arena)
      (nativeRuntimeFunctionIndex context 7) (nativeRuntimeFunctionIndex context 8)
  refine ⟨?_, ?_, nativeLowerRoots_unchanged, ?_, nativeVerifyRoots_disciplined⟩
  · intro lowerable capacity
    obtain ⟨lowered, success, code, shape⟩ := expand lowerable capacity
    refine ⟨lowered, (nativeLowerRoots_lowerable lowerable).trans success, code, shape, ?_⟩
    have target := lowerable.push
    simp only [nativeRootTargetP, Bool.and_eq_true] at target
    refine nativeVerifyRoots_framed (rootInput_of_nativeRootInputP lowerable.input) code ?_ ?_
      lowerable.required ?_ (runtime _ target.2)
    · rw [shape]
    · rw [shape]
    · rw [shape]
  · intro lowerable short
    rw [nativeLowerRoots_lowerable lowerable, nativeRootLowerWithCapacity, if_pos short]
  · intro lowered success
    apply nativeLowerRoots_unchanged
    intro again
    by_cases lowerable : Lowerable context arena
    · -- A successful expansion leaves the roots counted, so the list is no longer fresh.
      rw [nativeLowerRoots_lowerable lowerable] at success
      by_cases short : arena.capacity - arena.count < nativeRootExtraInstructions arena
      · rw [nativeRootLowerWithCapacity, if_pos short] at success
        cases success
      · obtain ⟨result, expanded, -, shape⟩ := expand lowerable (Nat.not_lt.mp short)
        rw [expanded] at success
        cases success
        have rooted := lowerable.required
        rw [shape] at again
        exact rooted again.fresh
    · have same := nativeLowerRoots_unchanged lowerable
      rw [success] at same
      subst same
      exact lowerable again

end Lowering

/-! ## Lists with and without a frame -/

/-- A context with a function that may collect and the entries that push and pop roots. -/
def managedContext : RootContext := { plainContext with
  profile := 1
  priorCount := 3
  signatureCount := 3
  runtimeTargetSupportedP := true
  signatureAt := fun index =>
    { arity := 0, runtimeId := if index = 1 then 7 else if index = 2 then 8 else 0, typeCode := 15,
      parameterCode := fun _ => 0 }
  currentSignature := { arity := 0, typeCode := 15, parameterCode := fun _ => 0 }
  runtimeSignatureP := fun signature => signature.runtimeId == 7 || signature.runtimeId == 8 }

/-- A list of some instructions with room for more. -/
def roomy (instructions : List LirInstruction) (types : List IrType) (labels : Nat) : LirArena :=
  { LirArena.ofLists instructions types labels with capacity := instructions.length + 8 }

/-- Returns what a call produces. -/
def collector : LirArena :=
  roomy
    [{ kind := .label, target := 1 },
      { kind := .call, scalarCode := 15, target := 1, source := 1, destination := 1 },
      { kind := .ret, scalarCode := 15, left := 1 }]
    [{ kind := .call, scalarCode := 15 }] 1

theorem collector_lowered : ∃ lowered, nativeLowerRoots managedContext collector = (true, lowered) ∧
    lowered.code.map (·.kind) =
      [.label, .rootsInit, .rootsEnter, .rootsSync, .call, .rootsLeave, .ret] ∧
    nativeVerifyRoots managedContext.toCompileContext lowered = true ∧ lowered.RootDisciplined ∧
    (nativeLowerRoots managedContext lowered).2 = lowered := by
  have runtime : ∀ signature, managedContext.runtimeSignatureP signature = true →
      managedContext.profile = 1 := fun _ _ => rfl
  obtain ⟨expands, -, -, again, -⟩ := @root_lowering managedContext collector runtime
  obtain ⟨lowered, success, code, shape, accepted⟩ :=
    expands ⟨rfl, by rfl, by decide +kernel, by rfl, by rfl⟩ (by decide +kernel)
  have verified := accepted.mpr (by decide +kernel)
  refine ⟨lowered, success, ?_, verified, ?_, again lowered success⟩
  · rw [code]
    decide +kernel
  · refine (@root_lowering managedContext lowered runtime).2.2.2.2 ?_ verified ?_
    · have first := (@code_getElem? lowered 0 { kind := .label, target := 1 }).mp (by
        rw [code]
        rfl)
      rw [LirArena.entryP, first.2]
      rfl
    · have rooted : lowered.rootCount =
          nativeRootRequiredCount managedContext.toCompileContext collector :=
        congrArg LirArena.rootCount shape
      rw [rooted]
      decide +kernel

/-- Waits in a loop without calls. -/
def quiet : LirArena :=
  roomy
    [{ kind := .label, target := 1 },
      { kind := .voidValue, scalarCode := 12, source := 1, destination := 1 },
      { kind := .jump, target := 2 },
      { kind := .label, target := 2 },
      { kind := .jump, target := 2 }]
    [{ kind := .voidValue, scalarCode := 12 }] 2

/-- Repeats itself from its entry on. -/
def restarting : LirArena :=
  roomy
    [{ kind := .label, target := 1 },
      { kind := .call, scalarCode := 15, target := 1, source := 1, destination := 1 },
      { kind := .booleanLiteral, value := 1, source := 1, destination := 2 },
      { kind := .branch, left := 2, target := 1, right := 2 },
      { kind := .label, target := 2 },
      { kind := .ret, scalarCode := 15, left := 1 }]
    [{ kind := .call, scalarCode := 15 }, { kind := .booleanLiteral }] 2

/-- Jumps over its frame. -/
def skipping : LirArena :=
  { roomy
      [{ kind := .jump, target := 2 }, { kind := .rootsInit }, { kind := .rootsEnter, target := 2 },
        { kind := .label, target := 2 }, { kind := .rootsSync },
        { kind := .call, scalarCode := 15, target := 1, source := 1, destination := 1 },
        { kind := .rootsLeave, target := 3 }, { kind := .ret, scalarCode := 15, left := 1 }]
      [{ kind := .call, scalarCode := 15 }] 2 with rootCount := 1 }

/-- Not every accepted list gets a frame, not every frame is accepted, and the root check alone
does not see a list that jumps over its frame. -/
theorem frames_limited :
    (nativeRootInputP managedContext.toCompileContext quiet = true ∧
      nativeRootExtraInstructions quiet ≤ quiet.capacity - quiet.count ∧
      nativeLowerRoots managedContext quiet = (true, quiet)) ∧
    (nativeRootInputP managedContext.toCompileContext restarting = true ∧
      nativeRootExtraInstructions restarting ≤ restarting.capacity - restarting.count ∧
      (nativeLowerRoots managedContext restarting).1 = true ∧
      nativeVerifyRoots managedContext.toCompileContext
        (nativeLowerRoots managedContext restarting).2 = false) ∧
    nativeVerifyRoots managedContext.toCompileContext skipping = true ∧
      skipping.rootCount ≠ 0 ∧ ¬skipping.RootDisciplined := by
  refine ⟨⟨by rfl, by decide +kernel, rfl⟩, ⟨by rfl, by decide +kernel, by rfl, by rfl⟩, by rfl,
    by decide, ?_⟩
  intro disciplined
  have jumps : skipping.Step ⟨1, fun _ => none⟩ ⟨4, _⟩ :=
    .transfer le_rfl (by decide) (List.mem_singleton.mpr rfl) rfl
  have labels (assigned : Nat → Option SourceType) : skipping.Step ⟨4, assigned⟩ ⟨5, _⟩ :=
    .next (show 1 ≤ 4 by decide) (show 4 ≤ skipping.count by decide) rfl
  have syncs (assigned : Nat → Option SourceType) : skipping.Step ⟨5, assigned⟩ ⟨6, _⟩ :=
    .next (show 1 ≤ 5 by decide) (show 5 ≤ skipping.count by decide) rfl
  have run := ((LirArena.History.start.step jumps).step (labels _)).step (syncs _)
  have inside : 6 ≤ skipping.count := by decide
  have counts := (disciplined _ _ run (show 1 ≤ 6 by decide) inside).call rfl
  exact absurd counts.1 (by decide)

end Native
