import Mathlib.Data.List.Chain
import PslCompiler.Stage0.LinearizedCode

/-! # Root frames of linearized functions

Linearized code starts with the label and the arguments of its first block. Where this run of
arguments holds all of them and no jump leads back to the first label, the frame that
`lower-root-frames` adds passes the verifier (`root_frames`).
-/

namespace Stage0

open Flow

/-! ## Code with guards -/

/-- Returns stand right after an exit of the frame, calls right after a synchronization. -/
structure Guarded (before after : LirInstruction) : Prop where
  leave : after.op = .ret ↔ before.op = .rootsLeave
  sync : (∃ callee type, after.op = .call callee type) ↔ before.op = .rootsSync

/-- Instructions without root operations, as linearization produces them. -/
def Rootless (instructions : List LirInstruction) : Prop :=
  ∀ instruction ∈ instructions, instruction.op.rootOperationP = false

theorem guarded_rootFrameInstructions : ∀ (instructions : List LirInstruction) (entered : Bool)
    (first : LirInstruction), Rootless instructions → first.op ≠ .rootsLeave →
    first.op ≠ .rootsSync →
    (first :: rootFrameInstructions entered instructions).IsChain Guarded := by
  intro instructions
  induction instructions with
  | nil => exact fun _ _ _ _ _ => .singleton _
  | cons instruction rest ih =>
      intro entered first rootless noExit noSync
      have plain := rootless instruction List.mem_cons_self
      have tail : (instruction :: rootFrameInstructions (entered || !instruction.op.beforeEntryP)
          rest).IsChain Guarded := by
        apply ih
        · exact fun other member => rootless other (List.mem_cons_of_mem _ member)
        · intro exit
          simp [exit, LirOp.rootOperationP] at plain
        · intro sync
          simp [sync, LirOp.rootOperationP] at plain
      -- The code of the instruction itself, after anything that is no exit and no synchronization.
      have guarded : ∀ before : LirInstruction, before.op ≠ .rootsLeave → before.op ≠ .rootsSync →
          (before :: (instruction.op.rootGuard ++ instruction :: rootFrameInstructions
            (entered || !instruction.op.beforeEntryP) rest)).IsChain Guarded := by
        intro before notLeave notSync
        cases kind : instruction.op with
        | call callee type =>
            simp only [kind] at tail
            refine .cons_cons ⟨?_, ?_⟩ (.cons_cons ⟨?_, ?_⟩ tail)
            · simp [rootOperation, notLeave]
            · simp [rootOperation, notSync]
            · simp [rootOperation, kind]
            · simp [rootOperation, kind]
        | ret =>
            simp only [kind] at tail
            refine .cons_cons ⟨?_, ?_⟩ (.cons_cons ⟨?_, ?_⟩ tail)
            · simp [rootOperation, notLeave]
            · simp [rootOperation, notSync]
            · simp [rootOperation, kind]
            · simp [rootOperation, kind]
        | _ =>
            simp only [kind] at tail
            refine .cons_cons ⟨?_, ?_⟩ tail
            · simp [kind, notLeave]
            · simp [kind, notSync]
      unfold rootFrameInstructions
      split
      · exact guarded first noExit noSync
      · refine .cons_cons ⟨?_, ?_⟩ (guarded (rootOperation .rootsEnter) ?_ ?_)
        · simp [rootOperation, noExit]
        · simp [rootOperation, noSync]
        · simp [rootOperation]
        · simp [rootOperation]

theorem rootFrameInstructions_lead {lead : List LirInstruction}
    (leading : ∀ instruction ∈ lead, instruction.op.beforeEntryP = true)
    (rest : List LirInstruction) :
    rootFrameInstructions false (lead ++ rest) = lead ++ rootFrameInstructions false rest := by
  induction lead with
  | nil => rfl
  | cons instruction lead ih =>
      have here := leading instruction List.mem_cons_self
      have unguarded : instruction.op.rootGuard = [] := by
        cases kind : instruction.op <;> simp [kind, LirOp.beforeEntryP] at here <;> rfl
      simp only [List.cons_append, rootFrameInstructions, here, unguarded, Bool.or_true, ↓reduceIte,
        List.nil_append, Bool.not_true, Bool.or_false]
      rw [ih fun other member => leading other (List.mem_cons_of_mem _ member)]

theorem rootFrameInstructions_enter {first : LirInstruction} {rest : List LirInstruction}
    (starts : first.op.beforeEntryP = false) :
    rootFrameInstructions false (first :: rest) =
      rootOperation .rootsEnter :: rootFrameInstructions true (first :: rest) := by
  simp [rootFrameInstructions, starts]

/-- Inside the frame, code gets synchronizations and exits only. -/
theorem mem_rootFrameInstructions {instructions : List LirInstruction}
    {instruction : LirInstruction} (member : instruction ∈ rootFrameInstructions true instructions) :
    instruction ∈ instructions ∨ instruction.op = .rootsSync ∨ instruction.op = .rootsLeave := by
  induction instructions with
  | nil => exact (List.not_mem_nil member).elim
  | cons first rest ih =>
      simp only [rootFrameInstructions, Bool.true_or, ↓reduceIte, List.nil_append, List.mem_append,
        List.mem_cons] at member
      rcases member with guard | rfl | later
      · cases kind : first.op <;> simp [kind, LirOp.rootGuard, rootOperation] at guard
        all_goals simp [guard]
      · exact .inl List.mem_cons_self
      · rcases ih later with old | new
        · exact .inl (List.mem_cons_of_mem _ old)
        · exact .inr new

/-! ## The lifetime of an added frame -/

/-- Code with a frame: its leading labels and arguments stand before the entry, and the rest has
no argument and does not jump back before the entry. -/
structure Framed (lead body : List LirInstruction) : Prop where
  leading : ∀ instruction ∈ lead, instruction.op.beforeEntryP = true
  rootless : Rootless body
  bodied : ∃ first rest, body = first :: rest ∧ first.op.beforeEntryP = false
  received : ∀ instruction ∈ body, ∀ index type, instruction.op ≠ .argument index type
  onward : ∀ instruction ∈ body, ∀ target, instruction.op.target? = some target →
    ∀ other ∈ lead, other.op ≠ .label target

/-- The lifetime state before the instruction at an index, when the frame is entered at `entry`. -/
def frameState (instructions : List LirInstruction) (entry index : Nat) : RootState :=
  if index = 0 then .uninitialized
  else if index ≤ entry then .ready
  else if instructions[index]?.map LirInstruction.op = some .ret then .closed
  else .active

namespace Framed

variable {lead body : List LirInstruction} (framed : Framed lead body)

include framed in
theorem code_eq : rootOperation .rootsInit :: rootFrameInstructions false (lead ++ body) =
    rootOperation .rootsInit :: (lead ++ rootOperation .rootsEnter ::
      rootFrameInstructions true body) := by
  obtain ⟨first, rest, rfl, starts⟩ := framed.bodied
  rw [rootFrameInstructions_lead framed.leading, rootFrameInstructions_enter starts]

include framed in
theorem rootless_append : Rootless (lead ++ body) := by
  intro instruction member
  rcases List.mem_append.mp member with early | late
  · have before := framed.leading instruction early
    cases kind : instruction.op <;> simp [kind, LirOp.beforeEntryP] at before <;> rfl
  · exact framed.rootless instruction late

include framed in
theorem chain : (rootOperation .rootsInit ::
    rootFrameInstructions false (lead ++ body)).IsChain Guarded :=
  guarded_rootFrameInstructions _ false _ framed.rootless_append (by simp [rootOperation])
    (by simp [rootOperation])

/-- Where an instruction of framed code stands. -/
theorem position {index : Nat} {instruction : LirInstruction}
    (fetched : (rootOperation .rootsInit :: (lead ++ rootOperation .rootsEnter ::
      rootFrameInstructions true body))[index]? = some instruction) :
    (index = 0 ∧ instruction.op = .rootsInit) ∨
    (0 < index ∧ index ≤ lead.length ∧ instruction ∈ lead) ∨
    (index = lead.length + 1 ∧ instruction.op = .rootsEnter) ∨
    (lead.length + 1 < index ∧ instruction ∈ rootFrameInstructions true body) := by
  cases index with
  | zero =>
      cases fetched
      exact .inl ⟨rfl, rfl⟩
  | succ index =>
      rw [List.getElem?_cons_succ, List.getElem?_append] at fetched
      split at fetched
      · rename_i early
        exact .inr (.inl ⟨Nat.succ_pos _, early, List.mem_of_getElem? fetched⟩)
      · rename_i late
        cases place : index - lead.length with
        | zero =>
            rw [place] at fetched
            cases fetched
            exact .inr (.inr (.inl ⟨by omega, rfl⟩))
        | succ offset =>
            rw [place, List.getElem?_cons_succ] at fetched
            exact .inr (.inr (.inr ⟨by omega, List.mem_of_getElem? fetched⟩))


section Lifetime

variable {code : List LirInstruction} {labels : Nat → Option Nat}
variable (shape : code = rootOperation .rootsInit :: rootFrameInstructions false (lead ++ body))
variable (agree : ∀ target, labels target = labelIndex code target)
variable {index : Nat} {instruction : LirInstruction}

include framed shape in
theorem place (fetched : code[index]? = some instruction) :
    (index = 0 ∧ instruction.op = .rootsInit) ∨
    (0 < index ∧ index ≤ lead.length ∧ instruction ∈ lead) ∨
    (index = lead.length + 1 ∧ instruction.op = .rootsEnter) ∨
    (lead.length + 1 < index ∧ instruction ∈ rootFrameInstructions true body) := by
  rw [shape, framed.code_eq] at fetched
  exact position fetched

include framed shape in
theorem guarded {second : LirInstruction} (fetched : code[index]? = some instruction)
    (next : code[index + 1]? = some second) : Guarded instruction second := by
  have chain : code.IsChain Guarded := shape ▸ framed.chain
  obtain ⟨inside, rfl⟩ := List.getElem?_eq_some_iff.mp fetched
  obtain ⟨nextInside, rfl⟩ := List.getElem?_eq_some_iff.mp next
  exact List.isChain_iff_getElem.mp chain index nextInside

/-- The labels and arguments before the entry keep the frame ready. -/
theorem lead_step (leads : instruction.op.beforeEntryP = true) :
    rootStateAfter instruction.op .ready = .ok .ready ∧ instruction.op.target? = none := by
  cases kind : instruction.op with
  | label id => exact ⟨rfl, rfl⟩
  | argument position type => exact ⟨rfl, rfl⟩
  | _ => simp [kind, LirOp.beforeEntryP] at leads

/-- Inside the frame, only an exit changes the state. -/
theorem body_step (framed : Framed lead body)
    (member : instruction ∈ rootFrameInstructions true body) :
    rootStateAfter instruction.op (if instruction.op = .ret then .closed else .active) =
      .ok (if instruction.op = .rootsLeave ∨ instruction.op = .ret then .closed else .active) := by
  rcases mem_rootFrameInstructions member with old | sync | leave
  · have plain := framed.rootless instruction old
    have noArgument := framed.received instruction old
    cases kind : instruction.op with
    | argument position type => exact (noArgument position type kind).elim
    | rootsInit => simp [kind, LirOp.rootOperationP] at plain
    | rootsEnter => simp [kind, LirOp.rootOperationP] at plain
    | _ => rfl
  · rw [sync]
    rfl
  · rw [leave]
    rfl

theorem body_target (framed : Framed lead body)
    (member : instruction ∈ rootFrameInstructions true body) {target : Nat}
    (jumps : instruction.op.target? = some target) : ∀ other ∈ lead, other.op ≠ .label target := by
  rcases mem_rootFrameInstructions member with old | sync | leave
  · exact framed.onward instruction old target jumps
  · simp [sync, LirOp.target?] at jumps
  · simp [leave, LirOp.target?] at jumps

include framed shape agree in
/-- From the entry on, control reaches returns after exits and active instructions otherwise. -/
theorem frameState_onward (fetched : code[index]? = some instruction)
    (entered : lead.length < index)
    (bodyTarget : ∀ target, instruction.op.target? = some target →
      ∀ other ∈ lead, other.op ≠ .label target)
    {next : Nat} (edge : next ∈ lirSuccessors code labels index) :
    frameState code (lead.length + 1) next =
      if instruction.op = .rootsLeave then .closed else .active := by
  obtain ⟨second, nextFetched⟩ : ∃ second, code[next]? = some second :=
    ⟨_, List.getElem?_eq_getElem (lirSuccessors_lt agree edge)⟩
  rcases (mem_lirSuccessors agree fetched).mp edge with ⟨-, rfl, -⟩ | ⟨target, jumps, found⟩
  · have pair := framed.guarded shape fetched nextFetched
    simp only [frameState, Nat.succ_ne_zero, ↓reduceIte, nextFetched, Option.map_some,
      Option.some.injEq, pair.leave, if_neg (show ¬index + 1 ≤ lead.length + 1 by omega)]
  · have labelled : second.op = .label target := by
      unfold labelIndex at found
      obtain ⟨bound, matched⟩ := List.findIdx?_eq_some_iff_getElem.mp found
      rw [List.getElem?_eq_getElem bound] at nextFetched
      cases nextFetched
      simpa using matched.1
    have noLeave : instruction.op ≠ .rootsLeave := by
      intro leaves
      simp [leaves, LirOp.target?] at jumps
    rcases framed.place shape nextFetched with ⟨-, op⟩ | ⟨-, -, early⟩ | ⟨-, op⟩ | ⟨late, -⟩
    · simp [labelled] at op
    · exact (bodyTarget target jumps second early labelled).elim
    · simp [labelled] at op
    · simp only [frameState, nextFetched, labelled, noLeave, Option.map_some, ↓reduceIte,
        Option.some.injEq, reduceCtorEq, if_neg (show ¬next = 0 by omega),
        if_neg (show ¬next ≤ lead.length + 1 by omega)]

include framed shape agree in
/-- The transfer of an instruction of framed code leads to the states of its successors. -/
theorem frameState_step (fetched : code[index]? = some instruction) :
    ∃ after, rootStateAfter instruction.op (frameState code (lead.length + 1) index) = .ok after ∧
      ∀ next ∈ lirSuccessors code labels index,
        frameState code (lead.length + 1) next = after := by
  have falls {next : Nat} (edge : next ∈ lirSuccessors code labels index)
      (straight : instruction.op.target? = none) : next = index + 1 := by
    rcases (mem_lirSuccessors agree fetched).mp edge with ⟨-, same, -⟩ | ⟨target, jumps, -⟩
    · exact same
    · rw [straight] at jumps
      cases jumps
  rcases framed.place shape fetched with ⟨rfl, op⟩ | ⟨moved, early, member⟩ | ⟨rfl, op⟩ |
      ⟨late, member⟩
  · refine ⟨.ready, by rw [op]; rfl, ?_⟩
    intro next edge
    rw [falls edge (by rw [op]; rfl)]
    simp [frameState]
  · obtain ⟨keeps, straight⟩ := lead_step (framed.leading instruction member)
    refine ⟨.ready, ?_, ?_⟩
    · simpa only [frameState, if_neg (show ¬index = 0 by omega),
        if_pos (show index ≤ lead.length + 1 by omega)] using keeps
    · intro next edge
      rw [falls edge straight]
      simp only [frameState, Nat.succ_ne_zero, ↓reduceIte,
        if_pos (show index + 1 ≤ lead.length + 1 by omega)]
  · refine ⟨.active, ?_, ?_⟩
    · simp only [op, frameState, Nat.succ_ne_zero, ↓reduceIte, le_refl]
      rfl
    · intro next edge
      rw [framed.frameState_onward shape agree fetched (Nat.lt_succ_self _)
        (by simp [op, LirOp.target?]) edge]
      simp [op]
  · refine ⟨if instruction.op = .rootsLeave ∨ instruction.op = .ret then .closed else .active,
      ?_, ?_⟩
    · simpa only [frameState, fetched, Option.map_some, Option.some.injEq,
        if_neg (show ¬index = 0 by omega), if_neg (show ¬index ≤ lead.length + 1 by omega)]
        using framed.body_step member
    · intro next edge
      by_cases stops : instruction.op = .ret
      · rcases (mem_lirSuccessors agree fetched).mp edge with ⟨continues, -, -⟩ | ⟨_, jumps, -⟩
        · simp [stops, LirOp.fallsThroughP] at continues
        · simp [stops, LirOp.target?] at jumps
      · rw [framed.frameState_onward shape agree fetched (by omega)
          (fun _ jumps => framed.body_target member jumps) edge]
        simp [stops]

include framed shape agree in
/-- Framed code has the lifetimes of `frameState`. -/
theorem typed : RootTyped code labels fun index =>
    if index < code.length then some (frameState code (lead.length + 1) index) else none := by
  refine ⟨?_, ?_⟩
  · have nonempty : 0 < code.length := by simp [shape]
    simp only [nonempty, ↓reduceIte]
    rfl
  · intro index state known
    split at known
    case isFalse => cases known
    rename_i inside
    cases known
    obtain ⟨after, transferred, onward⟩ :=
      framed.frameState_step shape agree (List.getElem?_eq_getElem inside)
    refine ⟨after, (rootTransfer_eq_some (List.getElem?_eq_getElem inside)).mpr transferred, ?_⟩
    intro next edge
    rw [if_pos (lirSuccessors_lt agree edge), onward next edge]

include framed shape in
theorem callsSynchronized : CallsSynchronized code labels := by
  intro index instruction callee type fetched kind _
  have moved : 0 < index := by
    apply Nat.pos_of_ne_zero
    rintro rfl
    rw [shape, List.getElem?_cons_zero] at fetched
    cases fetched
    cases kind
  obtain ⟨before, rfl⟩ := Nat.exists_eq_add_of_le' moved
  have inside := (List.getElem?_eq_some_iff.mp fetched).1
  have earlier : code[before]? = some _ :=
    List.getElem?_eq_getElem (Nat.lt_trans (Nat.lt_succ_self before) inside)
  have pair := framed.guarded shape earlier fetched
  refine ⟨moved, ?_⟩
  rw [Nat.add_sub_cancel, earlier, Option.map_some, pair.sync.mp ⟨callee, type, kind⟩]

end Lifetime

end Framed

/-! ## Labels and registers -/

/-- Instructions without a destination and without a label may be added freely. -/
def Silent (instructions : List LirInstruction) : Prop :=
  ∀ instruction ∈ instructions, instruction.dst = none ∧ instruction.op.label? = none

theorem Silent.labels {instructions : List LirInstruction} (silent : Silent instructions) :
    lirLabels instructions = [] :=
  List.filterMap_eq_nil_iff.mpr fun instruction member => (silent instruction member).2

theorem Silent.types {instructions : List LirInstruction} (silent : Silent instructions)
    (count : Nat) (rest : List LirInstruction) (types : Nat → Option Ty) :
    lirRegisterTypesFrom count (instructions ++ rest) types =
      lirRegisterTypesFrom count rest types := by
  induction instructions with
  | nil => rfl
  | cons instruction others ih =>
      rw [List.cons_append, lirRegisterTypesFrom, (silent instruction List.mem_cons_self).1]
      exact ih fun other member => silent other (List.mem_cons_of_mem _ member)

theorem silent_guard (entered : Bool) (op : LirOp) :
    Silent ((if entered || op.beforeEntryP then [] else [rootOperation .rootsEnter]) ++
      op.rootGuard) := by
  intro instruction member
  rcases List.mem_append.mp member with entry | guard
  · split at entry
    · exact (List.not_mem_nil entry).elim
    · rw [List.mem_singleton.mp entry]
      exact ⟨rfl, rfl⟩
  · cases op <;> simp only [LirOp.rootGuard, List.mem_singleton, List.not_mem_nil] at guard
    all_goals
      rw [guard]
      exact ⟨rfl, rfl⟩

theorem lirLabels_rootFrameInstructions : ∀ (instructions : List LirInstruction) (entered : Bool),
    lirLabels (rootFrameInstructions entered instructions) = lirLabels instructions := by
  intro instructions
  induction instructions with
  | nil => exact fun _ => rfl
  | cons instruction rest ih =>
      intro entered
      rw [rootFrameInstructions, lirLabels_append, (silent_guard entered instruction.op).labels,
        List.nil_append]
      simp only [lirLabels, List.filterMap_cons]
      rw [← lirLabels, ih, lirLabels]

theorem lirRegisterTypesFrom_rootFrameInstructions (count : Nat) :
    ∀ (instructions : List LirInstruction) (entered : Bool) (types : Nat → Option Ty),
      lirRegisterTypesFrom count (rootFrameInstructions entered instructions) types =
        lirRegisterTypesFrom count instructions types := by
  intro instructions
  induction instructions with
  | nil => exact fun _ _ => rfl
  | cons instruction rest ih =>
      intro entered types
      rw [rootFrameInstructions, (silent_guard entered instruction.op).types]
      unfold lirRegisterTypesFrom
      cases instruction.dst with
      | none => exact ih _ _
      | some id => simp only [ih]

/-! ## Acceptance -/

/-- A function starts with its entry block, never returns to it, and reads all its arguments
before anything else there. -/
structure SsaFunction.EntryShaped (function : SsaFunction) : Prop where
  first : function.blocks.head?.map SsaBlock.id = some function.entry
  once : ∀ block ∈ function.blocks, function.entry ∉ block.successors
  lead : ∀ block ∈ function.blocks, block.id = function.entry → ∃ arguments others,
    block.instructions.filter (fun instruction => !instruction.isPhi) = arguments ++ others ∧
      (∀ instruction ∈ arguments, instruction.isArgument = true) ∧
      ∀ instruction ∈ others, instruction.isArgument = false

/-- The root checks of `verify-lir-function`, with the tables that it passes to them. -/
def verifyRootFrame (function : LirFunction) (signatures : Signatures) : Check Unit := do
  let types ← lirRegisterTypes function
  let labels ← lirLabelIndices function.instructions
  verifyLirRoots function types signatures labels

theorem instructionToLir_beforeEntryP {instruction : SsaInstruction} :
    (instructionToLir instruction).op.beforeEntryP = instruction.isArgument := by
  unfold instructionToLir SsaInstruction.isArgument
  cases instruction.op <;> rfl

theorem Linear.rootless {function : SsaFunction} {next : Nat} {block : SsaBlock}
    {instruction : LirInstruction} (linear : Linear function next block instruction) :
    instruction.op.rootOperationP = false := by
  cases linear with
  | label => rfl
  | @value source _ _ =>
      unfold instructionToLir
      cases source.op <;> rfl
  | exit exits => cases exits <;> rfl

namespace SsaFunction.Named

variable {function : SsaFunction} (named : function.Named)
variable {lir : LirFunction} (linearized : linearizeFunction function = .ok lir)

include linearized in
theorem rootless : Rootless lir.instructions := by
  obtain ⟨code, success, rfl, -, -⟩ := linearizeFunction_code linearized
  intro instruction member
  obtain ⟨_, _, linear⟩ := linearizeBlocks_linear success instruction member
  exact linear.rootless

include named linearized in
/-- The linearized code of a function shaped for a frame. -/
theorem framed (shaped : function.EntryShaped) :
    ∃ lead body, lir.instructions = lead ++ body ∧ Framed lead body := by
  obtain ⟨code, success, rfl, -, -⟩ := linearizeFunction_code linearized
  obtain ⟨block, rest, listed⟩ : ∃ block rest, function.blocks = block :: rest := by
    cases listed : function.blocks with
    | nil => simpa [listed] using shaped.first
    | cons block rest => exact ⟨block, rest, rfl⟩
  have isEntry : block.id = function.entry := by simpa [listed] using shaped.first
  have placed : block ∈ function.blocks := listed ▸ List.mem_cons_self
  obtain ⟨arguments, others, split, leading, plain⟩ := shaped.lead block placed isEntry
  have below : function.entry < 1 + (function.blocks.map SsaBlock.id).foldl max 0 := by
    have above := (foldl_max_above (function.blocks.map SsaBlock.id) 0).2 block.id
      (List.mem_map_of_mem placed)
    omega
  have names := named.blocks
  rw [listed] at names
  rw [List.map_cons, List.nodup_cons] at names
  generalize 1 + (function.blocks.map SsaBlock.id).foldl max 0 = next at success below
  rw [listed] at success
  obtain ⟨terminator, after, later, ended, continued, shape⟩ := linearizeBlocks_cons success
  obtain ⟨labels, exits, starts⟩ := terminatorToLir_exits ended
  have onward : next ≤ after := by
    rcases labels with ⟨-, rfl⟩ | ⟨-, rfl⟩
    · exact le_rfl
    · exact Nat.le_succ _
  -- Past the arguments stand values, exits of the first block, and the code of other blocks.
  have source {instruction : LirInstruction}
      (member : instruction ∈ others.map instructionToLir ++ (terminator ++ later)) :
      (∃ value, value.isArgument = false ∧ instruction = instructionToLir value) ∨
      (∃ other ∈ function.blocks, Exits function next other instruction) ∨
      ∃ other ∈ rest, instruction = { op := .label other.id } := by
    simp only [List.mem_append, List.mem_map] at member
    rcases member with ⟨value, inside, rfl⟩ | exit | further
    · exact .inl ⟨value, plain value inside, rfl⟩
    · exact .inr (.inl ⟨block, placed, exits instruction exit⟩)
    · obtain ⟨other, inside, linear⟩ := linearizeBlocks_linear continued instruction further
      have otherPlaced : other ∈ function.blocks := listed ▸ List.mem_cons_of_mem _ inside
      cases linear with
      | label => exact .inr (.inr ⟨other, inside, rfl⟩)
      | @value value member _ =>
          refine .inl ⟨value, ?_, rfl⟩
          by_contra argument
          have same := named.arguments other otherPlaced value member (by simpa using argument)
          exact names.1 (isEntry ▸ same ▸ List.mem_map_of_mem inside)
      | exit leaves => exact .inr (.inl ⟨other, otherPlaced, leaves.mono onward⟩)
  have values : blockValues block =
      arguments.map instructionToLir ++ others.map instructionToLir := by
    rw [blockValues, split, List.map_append]
  refine ⟨{ op := .label block.id } :: arguments.map instructionToLir,
    others.map instructionToLir ++ (terminator ++ later), ?_, ?_, ?_, ?_, ?_, ?_⟩
  · rw [shape, values]
    simp
  · intro instruction member
    rcases List.mem_cons.mp member with rfl | value
    · rfl
    · obtain ⟨origin, inside, rfl⟩ := List.mem_map.mp value
      rw [instructionToLir_beforeEntryP]
      exact leading origin inside
  · intro instruction member
    rcases source member with ⟨value, -, rfl⟩ | ⟨other, -, leaves⟩ | ⟨other, -, rfl⟩
    · unfold instructionToLir
      cases value.op <;> rfl
    · cases leaves <;> rfl
    · rfl
  · cases others with
    | nil =>
        obtain ⟨first, more, rfl, begins⟩ := starts
        exact ⟨first, more ++ later, rfl, begins⟩
    | cons other others =>
        refine ⟨instructionToLir other, _, rfl, ?_⟩
        rw [instructionToLir_beforeEntryP]
        exact plain other List.mem_cons_self
  · intro instruction member index type reads
    rcases source member with ⟨value, noArgument, rfl⟩ | ⟨other, -, leaves⟩ | ⟨other, -, rfl⟩
    · rw [instructionToLir_argument reads] at noArgument
      cases noArgument
    · cases leaves <;> cases reads
    · cases reads
  · intro instruction member target jumps first early labelled
    have same : target = function.entry := by
      rcases List.mem_cons.mp early with rfl | value
      · cases labelled
        exact isEntry
      · obtain ⟨origin, -, rfl⟩ := List.mem_map.mp value
        have none := instructionToLir_label? origin
        rw [labelled] at none
        cases none
    rcases source member with ⟨value, -, rfl⟩ | ⟨other, otherPlaced, leaves⟩ | ⟨other, -, rfl⟩
    · rw [instructionToLir_target?] at jumps
      cases jumps
    · rcases leaves.target jumps with edge | fresh
      · exact shaped.once other otherPlaced (same ▸ edge)
      · omega
    · cases jumps

include named linearized in
theorem accepted (shaped : function.EntryShaped) (signatures : Signatures) :
    ∃ lowered, lowerRootFrames lir signatures = .ok lowered ∧
      verifyRootFrame lowered signatures = .ok () := by
  obtain ⟨types, typed⟩ := named.registerTypes linearized
  obtain ⟨-, -, -, -, unrooted⟩ := linearizeFunction_code linearized
  have distinct := named.labels linearized
  rw [lowerRootFrames_eq unrooted typed]
  cases needs : lirNeedsRootFrameP lir signatures types with
  | false =>
      obtain ⟨labels, labelled⟩ := lirLabelIndices_ok distinct
      refine ⟨lir, rfl, ?_⟩
      simp only [verifyRootFrame, bind_eq_ok]
      refine ⟨types, typed, labels, labelled, ?_⟩
      have plain : (lir.instructions.any fun instruction => instruction.op.rootOperationP) =
          false := by
        rw [List.any_eq_false]
        intro instruction member
        simp [rootless linearized instruction member]
      simp only [verifyLirRoots, unrooted, List.isEmpty_nil, ↓reduceIte, needs, plain]
      rfl
  | true =>
      obtain ⟨lead, body, shape, framed⟩ := named.framed linearized shaped
      refine ⟨lir.withRootFrame types, rfl, ?_⟩
      simp only [verifyRootFrame, bind_eq_ok]
      have labelsSame : lirLabels (lir.withRootFrame types).instructions =
          lirLabels lir.instructions := by
        rw [LirFunction.withRootFrame, lirLabels_cons, lirLabels_rootFrameInstructions]
        rfl
      obtain ⟨labels, labelled⟩ := lirLabelIndices_ok (labelsSame ▸ distinct)
      have agree := lirLabelIndices_eq labelled
      refine ⟨types, ?_, labels, labelled, ?_⟩
      · unfold lirRegisterTypes at typed ⊢
        exact (lirRegisterTypesFrom_rootFrameInstructions _ lir.instructions false _).trans typed
      · have rooted : (managedRegisters lir.registerCount types).isEmpty = false := by
          simp only [lirNeedsRootFrameP, Bool.and_eq_true, Bool.not_eq_true'] at needs
          exact needs.1
        have code : (lir.withRootFrame types).instructions =
            rootOperation .rootsInit :: rootFrameInstructions false (lead ++ body) := by
          rw [LirFunction.withRootFrame, shape]
        have flow := (verifyRootFlow_iff agree (by rw [code]; simp)).mpr
          ⟨⟨_, framed.typed code agree⟩, framed.callsSynchronized code⟩
        have catalogue : (lir.withRootFrame types).rootRegisters =
            managedRegisters lir.registerCount types := rfl
        simp only [verifyLirRoots, catalogue, rooted, Bool.false_eq_true, ↓reduceIte, flow]
        simp only [LirFunction.withRootFrame, beq_self_eq_true, List.head?_cons,
          Option.map_some, rootOperation]
        rfl

end SsaFunction.Named

/-! ## Lowered functions -/

namespace LoweringState

variable {before middle after : LoweringState}

/-- No block of the earlier state has got an argument. -/
structure KeepsArguments (before after : LoweringState) : Prop where
  blocks_le : before.nextBlock ≤ after.nextBlock
  same : ∀ block, block < before.nextBlock →
    (after.blocks block).instructions.filter SsaInstruction.isArgument =
      (before.blocks block).instructions.filter SsaInstruction.isArgument

theorem KeepsArguments.refl (state : LoweringState) : state.KeepsArguments state :=
  ⟨le_rfl, fun _ _ => rfl⟩

theorem KeepsArguments.trans (first : before.KeepsArguments middle)
    (second : middle.KeepsArguments after) : before.KeepsArguments after :=
  ⟨first.blocks_le.trans second.blocks_le, fun block inside =>
    (second.same block (inside.trans_le first.blocks_le)).trans (first.same block inside)⟩

theorem keepsArguments_leaveTo (state : LoweringState) (terminator : SsaTerminator) (next : Nat) :
    state.KeepsArguments (state.leaveTo terminator next) := by
  refine ⟨le_rfl, ?_⟩
  intro block _
  rw [leaveTo_blocks]
  split <;> rfl

theorem keepsArguments_reserve (state : LoweringState) : state.KeepsArguments state.reserve := by
  refine ⟨by rw [reserve_nextBlock]; omega, ?_⟩
  intro block inside
  rw [reserve_blocks, if_neg (by omega)]

theorem keepsArguments_emitValue (state : LoweringState) {op : SsaOp} (type : Ty) (args : List Nat)
    (other : ∀ index, op ≠ .argument index) :
    state.KeepsArguments (state.emitValue op type args).2 := by
  refine ⟨le_rfl, ?_⟩
  intro block _
  rw [emitValue_blocks]
  split
  · have plain : SsaInstruction.isArgument ⟨state.nextValue, op, type, args⟩ = false := by
      cases op <;> first | rfl | exact (other _ rfl).elim
    simp [List.filter_append, plain]
  · rfl

end LoweringState

open LoweringState

section Arguments

variable {environment : List (String × Nat)} {before after : LoweringState}

/-- Lowering a node emits no argument. -/
def EmitsNoArgument (node : Hir) : Prop :=
  ∀ {environment before value after}, lowerHir environment node before = .ok (value, after) →
    before.KeepsArguments after

theorem lowerChildren_arguments {children : List Hir}
    (none : ∀ child ∈ children, EmitsNoArgument child) {ids : List Nat}
    (lowered : lowerChildren environment children before = .ok (ids, after)) :
    before.KeepsArguments after := by
  induction children generalizing before ids with
  | nil =>
      cases lowered
      exact .refl _
  | cons child rest ih =>
      unfold lowerChildren at lowered
      simp only [bind_eq_ok] at lowered
      obtain ⟨⟨id, middle⟩, first, ⟨others, last⟩, second, done⟩ := lowered
      cases done
      exact (none child List.mem_cons_self first).trans
        (ih (fun other member => none other (List.mem_cons_of_mem _ member)) second)

theorem lowerProgn_arguments {children : List Hir}
    (none : ∀ child ∈ children, EmitsNoArgument child) {value : Nat}
    (lowered : lowerProgn environment children before = .ok (value, after)) :
    before.KeepsArguments after := by
  induction children generalizing before with
  | nil => cases lowered
  | cons child rest ih =>
      rcases rest with _ | ⟨next, rest⟩
      · exact none child List.mem_cons_self lowered
      · unfold lowerProgn at lowered
        simp only [bind_eq_ok] at lowered
        obtain ⟨⟨id, middle⟩, first, second⟩ := lowered
        exact (none child List.mem_cons_self first).trans
          (ih (fun other member => none other (List.mem_cons_of_mem _ member)) second)

theorem lowerBindings_arguments {bindings : List (String × Hir)}
    (none : ∀ binding ∈ bindings, EmitsNoArgument binding.2) {scope result : List (String × Nat)}
    (lowered : lowerBindings environment scope bindings before = .ok (result, after)) :
    before.KeepsArguments after := by
  induction bindings generalizing before scope with
  | nil =>
      cases lowered
      exact .refl _
  | cons binding rest ih =>
      unfold lowerBindings at lowered
      simp only [bind_eq_ok] at lowered
      obtain ⟨⟨id, middle⟩, first, second⟩ := lowered
      exact (none binding List.mem_cons_self first).trans
        (ih (fun other member => none other (List.mem_cons_of_mem _ member)) second)

theorem lowerIf_arguments {type : Ty} {children : List Hir}
    (none : ∀ child ∈ children, EmitsNoArgument child) {value : Nat}
    (lowered : lowerIf environment type children before = .ok (value, after)) :
    before.KeepsArguments after := by
  rcases children with _ | ⟨condition, _ | ⟨ifTrue, _ | ⟨ifFalse, _ | _⟩⟩⟩
  · cases lowered
  · cases lowered
  · cases lowered
  · obtain ⟨test, tested, testing, arms⟩ := lowerIf_cases lowered
    have first := none condition (by simp) testing
    rcases arms with ⟨-, arm⟩ | ⟨-, thenValue, thenState, elseValue, elseState, thenArm, elseArm,
      done⟩
    · exact first.trans (none ifTrue (by simp) arm)
    · obtain ⟨-, rfl⟩ := Prod.mk.inj done
      exact first.trans <| (keepsArguments_reserve tested).trans <|
        (keepsArguments_leaveTo _ _ _).trans <| (none ifTrue (by simp) thenArm).trans <|
        (keepsArguments_leaveTo _ _ _).trans <| (none ifFalse (by simp) elseArm).trans <|
        (keepsArguments_leaveTo _ _ _).trans <|
        keepsArguments_emitValue _ _ _ fun _ same => by cases same
  · cases lowered

theorem lowerWhile_arguments {children : List Hir}
    (none : ∀ child ∈ children, EmitsNoArgument child) {value : Nat}
    (lowered : lowerWhile environment children before = .ok (value, after)) :
    before.KeepsArguments after := by
  rcases children with _ | ⟨condition, _ | ⟨body, _ | _⟩⟩
  · cases lowered
  · cases lowered
  · obtain ⟨test, tested, result, bodyState, first, second, done⟩ := lowerWhile_cases lowered
    obtain ⟨-, rfl⟩ := Prod.mk.inj done
    exact (keepsArguments_reserve before).trans <| (keepsArguments_leaveTo _ _ _).trans <|
      (none condition (by simp) first).trans <| (keepsArguments_leaveTo _ _ _).trans <|
      (none body (by simp) second).trans <| (keepsArguments_leaveTo _ _ _).trans <|
      keepsArguments_emitValue _ _ _ fun _ same => by cases same
  · cases lowered

/-- Only the parameters of a function become arguments. -/
theorem lowerHir_arguments (node : Hir) : EmitsNoArgument node := by
  induction node using Hir.induction with
  | node kind type bindings children bindingsNone childrenNone =>
      intro environment before value after lowered
      unfold lowerHir at lowered
      cases kind with
      | literal literal =>
          cases lowered
          exact keepsArguments_emitValue _ _ _ fun _ same => by cases same
      | dataAddress name dataType =>
          cases lowered
          exact keepsArguments_emitValue _ _ _ fun _ same => by cases same
      | «variable» name =>
          simp only [bind_eq_ok] at lowered
          obtain ⟨id, -, done⟩ := lowered
          cases done
          exact .refl before
      | progn => exact lowerProgn_arguments childrenNone lowered
      | letForm =>
          simp only [bind_eq_ok] at lowered
          obtain ⟨⟨scope, middle⟩, first, second⟩ := lowered
          exact (lowerBindings_arguments bindingsNone first).trans
            (lowerProgn_arguments childrenNone second)
      | ifForm => exact lowerIf_arguments childrenNone lowered
      | whileForm => exact lowerWhile_arguments childrenNone lowered
      | _ =>
          simp only [HirKind.ssaOp, bind_eq_ok] at lowered
          obtain ⟨⟨args, middle⟩, first, done⟩ := lowered
          cases done
          exact (lowerChildren_arguments childrenNone first).trans
            (keepsArguments_emitValue _ _ _ fun _ same => by cases same)

theorem lowerParameters_arguments : ∀ (parameters : List (String × Ty)) (index : Nat)
    (before : LoweringState), ∃ arguments,
      (lowerParameters parameters index before).2.current = before.current ∧
      ((lowerParameters parameters index before).2.blocks before.current).instructions =
        (before.blocks before.current).instructions ++ arguments ∧
      ∀ instruction ∈ arguments, instruction.isArgument = true := by
  intro parameters
  induction parameters with
  | nil =>
      intro index before
      exact ⟨[], rfl, by simp [lowerParameters], fun _ member => (List.not_mem_nil member).elim⟩
  | cons parameter rest ih =>
      intro index before
      obtain ⟨arguments, current, emitted, each⟩ :=
        ih (index + 1) (before.emitValue (.argument index) parameter.2 []).2
      refine ⟨⟨before.nextValue, .argument index, parameter.2, []⟩ :: arguments, current, ?_, ?_⟩
      · refine emitted.trans ?_
        rw [emitValue_blocks]
        simp [LoweringState.emitValue]
      · intro instruction member
        rcases List.mem_cons.mp member with rfl | later
        · rfl
        · exact each instruction later

/-- Functions are lowered in the shape that a root frame needs. -/
theorem lowerFunction_entryShaped {function : FunctionDef} {ssa : SsaFunction}
    (lowered : lowerFunction function = .ok ssa) : ssa.EntryShaped := by
  obtain ⟨result, after, body, consists⟩ := lowerFunction_consists lowered
  obtain ⟨startValid, one, -⟩ := lowerParameters_sound function.parameters 0 entryState_valid
  obtain ⟨arguments, current, emitted, each⟩ :=
    lowerParameters_arguments function.parameters 0 entryState
  have kept := lowerHir_arguments function.body body
  obtain ⟨-, more⟩ := lowerHir_sound function.body body startValid
  have steps := one.trans entryState_valid more
  have blocks := leaveTo_blocks after ⟨.ret, [result], []⟩ after.current
  have instructions : ∀ block, ((after.leaveTo ⟨.ret, [result], []⟩ after.current).blocks
      block).instructions = (after.blocks block).instructions := by
    intro block
    rw [blocks]
    split <;> rfl
  refine ⟨?_, ?_, ?_⟩
  · obtain ⟨count, same⟩ := Nat.exists_eq_add_of_le' consists.nonempty
    rw [consists.blocks, consists.entry, same, List.range_succ_eq_map]
    simp [consists.finished.ids 0 consists.nonempty]
  · intro block member
    rw [consists.blocks] at member
    obtain ⟨id, inside, rfl⟩ := List.mem_map.mp member
    rw [consists.entry, blocks]
    split
    · simp [SsaBlock.successors]
    · intro edge
      rcases steps.edges id (List.mem_range.mp inside) 0 edge with ⟨old, other⟩ | new
      · exact other (Nat.lt_one_iff.mp old)
      · exact absurd new (by decide)
  · intro block member isEntry
    rw [consists.blocks] at member
    obtain ⟨id, inside, rfl⟩ := List.mem_map.mp member
    rw [consists.finished.ids id (List.mem_range.mp inside), consists.entry] at isEntry
    subst isEntry
    have entry : entryState.current = 0 := rfl
    rw [entry] at current emitted
    obtain ⟨others, ordinary, extended⟩ := more.extends_current
    rw [current] at extended
    have empty : (entryState.blocks 0).instructions = [] := by rw [entryState_blocks]
    rw [empty, List.nil_append] at emitted
    rw [emitted] at extended
    have noMore : ∀ instruction ∈ others, instruction.isArgument = false := by
      have same := kept.same 0 (by
        have := startValid.current
        rw [current] at this
        exact this)
      rw [extended, emitted, List.filter_append, List.append_right_eq_self] at same
      intro instruction present
      simpa using List.filter_eq_nil_iff.mp same instruction present
    refine ⟨arguments, others, ?_, each, noMore⟩
    rw [instructions, extended, List.filter_eq_self]
    intro instruction present
    rcases List.mem_append.mp present with early | late
    · have argument := each instruction early
      unfold SsaInstruction.isArgument at argument
      unfold SsaInstruction.isPhi
      cases kind : instruction.op <;> simp [kind] at argument ⊢
    · simp [ordinary instruction late]

end Arguments

/-! ## Root frames of the compiler -/

/-- The frame that `lower-root-frames` adds to linearized code is accepted, whatever the signatures
say, when the function starts with its entry, never returns to it and reads its arguments first;
`lower-function` builds no other functions. Whatever is accepted with a root catalogue keeps the
discipline of the frame on every execution. -/
theorem root_frames :
    (∀ (ssa : SsaFunction) (lir : LirFunction) (table : Signatures) (pointerBits : Nat),
      verifySsaFunction ssa table pointerBits = .ok () → linearizeFunction ssa = .ok lir →
      ssa.EntryShaped → ∀ signatures, ∃ lowered, lowerRootFrames lir signatures = .ok lowered ∧
        verifyRootFrame lowered signatures = .ok ()) ∧
    (∀ (function : FunctionDef) (ssa : SsaFunction), lowerFunction function = .ok ssa →
      ssa.EntryShaped) ∧
    ∀ (function : LirFunction) (types : Nat → Option Ty) (signatures : Signatures)
      (labels : Nat → Option Nat), lirLabelIndices function.instructions = .ok labels →
      verifyLirRoots function types signatures labels = .ok () → function.rootRegisters ≠ [] →
      function.FrameDisciplined := by
  refine ⟨?_, ?_, ?_⟩
  · intro ssa lir table pointerBits verified linearized shaped signatures
    exact (verifySsaFunction_named verified).accepted linearized shaped signatures
  · intro function ssa lowered
    exact lowerFunction_entryShaped lowered
  · intro function types signatures labels labelled accepted rooted
    exact verifyLirRoots_disciplined labelled accepted rooted

/-- A table with one function that may collect. -/
def collecting : Signatures := fun name =>
  if name == "collect" then some { name := "collect", arguments := [.value], result := .value }
  else none

/-- Keeps its argument across a call. -/
def keeper : SsaFunction where
  name := "keeper"
  signature := { name := "keeper", arguments := [.value], result := .value }
  entry := 0
  nextValue := 2
  blocks := [{
    id := 0
    instructions := [
      { id := 0, op := .argument 0, type := .value },
      { id := 1, op := .call "collect", type := .value, args := [0] }]
    terminator := some { op := .ret, args := [1] } }]

theorem keeper_framed : ∃ lir lowered, linearizeFunction keeper = .ok lir ∧
    lowerRootFrames lir collecting = .ok lowered ∧ lowered.rootRegisters = [0, 1] ∧
    verifyRootFrame lowered collecting = .ok () ∧ lowered.FrameDisciplined := by
  have shaped : keeper.EntryShaped := by
    refine ⟨rfl, by decide, ?_⟩
    intro block member _
    rw [List.mem_singleton.mp member]
    exact ⟨[{ id := 0, op := .argument 0, type := .value }],
      [{ id := 1, op := .call "collect", type := .value, args := [0] }], rfl, by decide, by decide⟩
  obtain ⟨lowered, framed, accepted⟩ :=
    root_frames.1 keeper _ collecting 64 (by rfl) rfl shaped collecting
  refine ⟨_, lowered, rfl, framed, ?_, accepted, ?_⟩
  · cases framed
    rfl
  · have checked := accepted
    simp only [verifyRootFrame, bind_eq_ok] at checked
    obtain ⟨types, -, labels, labelled, verified⟩ := checked
    refine root_frames.2.2 lowered types collecting labels labelled verified ?_
    cases framed
    decide

/-- A verified function whose frame the LIR verifier rejects. -/
def FrameRejected (ssa : SsaFunction) : Prop :=
  ∃ lir lowered message, verifySsaFunction ssa collecting 64 = .ok () ∧
    linearizeFunction ssa = .ok lir ∧ lowerRootFrames lir collecting = .ok lowered ∧
    verifyRootFrame lowered collecting = .error message

/-- Reads its argument after a constant. -/
def lateArgument : SsaFunction := { keeper with
  nextValue := 3
  blocks := [{
    id := 0
    instructions := [
      { id := 2, op := .constant (.integer 1), type := .u64 },
      { id := 0, op := .argument 0, type := .value },
      { id := 1, op := .call "collect", type := .value, args := [0] }]
    terminator := some { op := .ret, args := [1] } }] }

/-- Branches back to its entry. -/
def entryRevisited : SsaFunction := { keeper with
  nextValue := 3
  blocks := [
    { id := 0
      instructions := [
        { id := 0, op := .argument 0, type := .value },
        { id := 1, op := .call "collect", type := .value, args := [0] },
        { id := 2, op := .constant (.integer 1), type := .boolean }]
      terminator := some { op := .branch, args := [2], targets := [0, 1] } },
    { id := 1, terminator := some { op := .ret, args := [1] } }] }

/-- Lists a loop before its entry. -/
def entryLast : SsaFunction := { keeper with
  nextValue := 3
  blocks := [
    { id := 1
      instructions := [{ id := 2, op := .constant (.integer 1), type := .boolean }]
      terminator := some { op := .branch, args := [2], targets := [1, 2] } },
    { id := 2, terminator := some { op := .ret, args := [1] } },
    { id := 0
      instructions := [
        { id := 0, op := .argument 0, type := .value },
        { id := 1, op := .call "collect", type := .value, args := [0] }]
      terminator := some { op := .jump, targets := [1] } }] }

/-- Each part of the shape is needed: the SSA verifier accepts functions without it, and their
frames are rejected. -/
theorem unshaped_frames_rejected :
    FrameRejected lateArgument ∧ FrameRejected entryRevisited ∧ FrameRejected entryLast :=
  ⟨⟨_, _, _, by rfl, rfl, rfl, rfl⟩, ⟨_, _, _, by rfl, rfl, rfl, rfl⟩,
    ⟨_, _, _, by rfl, rfl, rfl, rfl⟩⟩

end Stage0
