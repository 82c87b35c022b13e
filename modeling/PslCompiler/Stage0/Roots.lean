import PslCompiler.Flow.Typestate
import PslCompiler.Stage0.LirSafety

/-! # Stage 0 root frames

`lower-root-frames` brackets the code of a function that keeps managed values across safepoints:
the roots are initialized first, the frame is entered after the arguments, synchronized before
every call and left before every return. The verifier follows the lifetime of the frame along
control flow. Whatever function it accepts with a root catalogue keeps the discipline of the frame
on every execution (`verifyLirRoots_disciplined`).
-/

namespace Stage0

open Flow

/-! ## Lowering -/

/-- The operations that may stand before the frame is entered. -/
def LirOp.beforeEntryP : LirOp → Bool
  | .label _ | .argument _ _ => true
  | _ => false

def rootOperation (op : LirOp) : LirInstruction := { op := op }

/-- The root operations put before an operation, apart from the entry of the frame. -/
def LirOp.rootGuard : LirOp → List LirInstruction
  | .call _ _ => [rootOperation .rootsSync]
  | .ret => [rootOperation .rootsLeave]
  | _ => []

/-- The loop of `lower-root-frames`, with the flag that says whether the frame is entered. -/
def rootFrameInstructions : Bool → List LirInstruction → List LirInstruction
  | _, [] => []
  | entered, instruction :: rest =>
      (if entered || instruction.op.beforeEntryP then [] else [rootOperation .rootsEnter]) ++
        instruction.op.rootGuard ++
        instruction :: rootFrameInstructions (entered || !instruction.op.beforeEntryP) rest

/-- A function with a root frame for its managed registers. -/
def LirFunction.withRootFrame (function : LirFunction) (types : Nat → Option Ty) : LirFunction :=
  { function with
    rootRegisters := managedRegisters function.registerCount types
    instructions := rootOperation .rootsInit ::
      rootFrameInstructions false function.instructions }

def lowerRootFrames (function : LirFunction) (signatures : Signatures) : Check LirFunction :=
  if !function.rootRegisters.isEmpty then .ok function
  else do
    let types ← lirRegisterTypes function
    if lirNeedsRootFrameP function signatures types then .ok (function.withRootFrame types)
    else .ok function

theorem lowerRootFrames_eq {function : LirFunction} {types : Nat → Option Ty}
    (unrooted : function.rootRegisters = []) (typed : lirRegisterTypes function = .ok types)
    (signatures : Signatures) : lowerRootFrames function signatures =
      .ok (if lirNeedsRootFrameP function signatures types then function.withRootFrame types
        else function) := by
  unfold lowerRootFrames
  rw [typed, unrooted]
  cases needs : lirNeedsRootFrameP function signatures types with
  | true => simp [bind, Except.bind, needs]
  | false => simp [bind, Except.bind, needs]

/-! ## The worklist of the verifier -/

/-- The lifetime state after the instruction at an index. -/
def rootTransfer (instructions : List LirInstruction) (index : Nat) (state : RootState) :
    Option RootState :=
  match instructions[index]? with
  | some instruction => (rootStateAfter instruction.op state).toOption
  | none => some state

theorem rootTransfer_eq_some {instructions : List LirInstruction} {index : Nat}
    {instruction : LirInstruction} (fetched : instructions[index]? = some instruction)
    {state after : RootState} :
    rootTransfer instructions index state = some after ↔
      rootStateAfter instruction.op state = .ok after := by
  unfold rootTransfer
  simp only [fetched]
  cases rootStateAfter instruction.op state <;> simp [Except.toOption]

theorem rootFlowSuccessors_toOption (state : RootState) : ∀ (nexts pending : List Nat)
    (states : Nat → Option RootState),
    (rootFlowSuccessors state nexts (pending, states)).toOption =
      spread state nexts (pending, states) := by
  intro nexts
  induction nexts with
  | nil => exact fun _ _ => rfl
  | cons next rest ih =>
      intro pending states
      unfold rootFlowSuccessors spread
      cases states next with
      | none => exact ih _ _
      | some prior =>
          by_cases same : prior = state
          · simp only [same, beq_self_eq_true, require, ↓reduceIte]
            exact ih _ _
          · simp only [same, require, beq_iff_eq, ↓reduceIte]
            rfl

/-- The loop of the verifier is a typestate analysis. -/
theorem rootFlowLoop_iff (instructions : List LirInstruction) (labels : Nat → Option Nat) :
    ∀ (fuel : Nat) (pending : List Nat) (states : Nat → Option RootState),
      rootFlowLoop instructions labels fuel pending states = .ok () ↔
        propagate (lirSuccessors instructions labels) (rootTransfer instructions) fuel pending
          states = true := by
  intro fuel
  induction fuel with
  | zero => exact fun _ _ => ⟨fun _ => rfl, fun _ => rfl⟩
  | succ fuel ih =>
      intro pending states
      cases pending with
      | nil => exact ⟨fun _ => rfl, fun _ => rfl⟩
      | cons index pending =>
          unfold rootFlowLoop propagate
          cases known : states index with
          | none =>
              cases instructions[index]? <;> exact ih _ _
          | some state =>
              cases fetched : instructions[index]? with
              | none =>
                  have stops : lirSuccessors instructions labels index = [] := by
                    unfold lirSuccessors
                    rw [fetched]
                  simp only [rootTransfer, fetched, stops, spread]
                  exact ih _ _
              | some instruction =>
                  simp only [rootTransfer, fetched, bind_eq_ok]
                  cases transferred : rootStateAfter instruction.op state with
                  | error message => simp [Except.toOption]
                  | ok after =>
                      have same := rootFlowSuccessors_toOption after
                        (lirSuccessors instructions labels index) pending states
                      cases spreads : rootFlowSuccessors after
                          (lirSuccessors instructions labels index) (pending, states) with
                      | error message =>
                          rw [spreads] at same
                          simp [Except.toOption, ← same, spreads]
                      | ok work =>
                          rw [spreads] at same
                          simp only [Except.toOption, ← same, spreads, Except.ok.injEq,
                            exists_eq_left', ih]

section Flow

variable {instructions : List LirInstruction} {labels : Nat → Option Nat}

/-- The lifetimes of a root frame along control flow. -/
abbrev RootTyped (instructions : List LirInstruction) (labels : Nat → Option Nat)
    (states : Nat → Option RootState) : Prop :=
  Typestate (lirSuccessors instructions labels) (rootTransfer instructions) 0 .uninitialized states

/-- Every call that control reaches stands after a synchronization. -/
def CallsSynchronized (instructions : List LirInstruction) (labels : Nat → Option Nat) : Prop :=
  ∀ index instruction callee type, instructions[index]? = some instruction →
    instruction.op = .call callee type → index ∈ lirReachable instructions labels →
      0 < index ∧ instructions[index - 1]?.map LirInstruction.op = some .rootsSync

/-- The check of a call for a synchronization before it. -/
theorem verifyRootFlow_calls : checkAll (fun index =>
      match instructions[index]?.map LirInstruction.op with
      | some (.call _ _) =>
          require (decide (index ∉ lirReachable instructions labels) ||
              (decide (0 < index) && instructions[index - 1]?.map LirInstruction.op ==
                some .rootsSync))
            "LIR call lacks root synchronization"
      | _ => .ok ()) (List.range instructions.length) = .ok () ↔
    CallsSynchronized instructions labels := by
  rw [checkAll_eq_ok]
  constructor
  · intro checked index instruction callee type fetched kind reached
    have inside := (List.getElem?_eq_some_iff.mp fetched).1
    have check := checked index (List.mem_range.mpr inside)
    simp only [fetched, Option.map_some, kind, require_eq_ok, reached, not_true_eq_false,
      decide_false, Bool.false_or, Bool.and_eq_true, decide_eq_true_eq, beq_iff_eq] at check
    exact check
  · intro synchronized index _
    cases fetched : instructions[index]? with
    | none => rfl
    | some instruction =>
        cases kind : instruction.op with
        | call callee type =>
            simp only [Option.map_some, kind, require_eq_ok, Bool.or_eq_true, decide_eq_true_eq,
              Bool.and_eq_true, beq_iff_eq]
            by_cases reached : index ∈ lirReachable instructions labels
            · exact .inr (synchronized index instruction callee type fetched kind reached)
            · exact .inl reached
        | _ => simp only [Option.map_some, kind]

/-- What `verify-root-flow` decides. -/
theorem verifyRootFlow_iff (agree : ∀ target, labels target = labelIndex instructions target)
    (nonempty : 0 < instructions.length) :
    verifyRootFlow instructions labels = .ok () ↔
      (∃ states, RootTyped instructions labels states) ∧
        CallsSynchronized instructions labels := by
  unfold verifyRootFlow
  rw [bind_eq_ok]
  have flow := @propagate_iff _ _ _ _ (lirSuccessors instructions labels)
    (rootTransfer instructions) (Finset.range instructions.length) 0 .uninitialized
    (instructions.length + 1) (Finset.mem_range.mpr nonempty)
    (fun _ next edge => Finset.mem_range.mpr (lirSuccessors_lt agree edge))
    (by rw [Finset.card_range]; omega)
  rw [← flow, ← rootFlowLoop_iff, ← verifyRootFlow_calls]
  exact ⟨fun ⟨_, loop, calls⟩ => ⟨loop, calls⟩, fun ⟨loop, calls⟩ => ⟨(), loop, calls⟩⟩

end Flow

/-! ## Executions with their history -/

/-- The operations executed before a state is reached. -/
inductive LirHistory (instructions : List LirInstruction) : List LirOp → LirState → Prop
  | start : LirHistory instructions [] ⟨0, ∅⟩
  | step {history : List LirOp} {state next : LirState} {instruction : LirInstruction}
      (earlier : LirHistory instructions history state)
      (fetched : instructions[state.pc]? = some instruction)
      (steps : LirStep instructions state next) :
      LirHistory instructions (history ++ [instruction.op]) next

/-- What the root frame demands of an operation about to be executed, by what was executed
before it. -/
structure FrameDiscipline (history : List LirOp) (op : LirOp) : Prop where
  init_first : op = .rootsInit ↔ history = []
  argument_early : ∀ index type, op = .argument index type → .rootsEnter ∉ history
  enter_once : op = .rootsEnter → .rootsEnter ∉ history
  call_inside : ∀ callee type, op = .call callee type →
    .rootsEnter ∈ history ∧ .rootsLeave ∉ history ∧ history.getLast? = some .rootsSync
  leave_inside : op = .rootsLeave → .rootsEnter ∈ history ∧ .rootsLeave ∉ history
  return_left : op = .ret → history.count .rootsEnter = 1 ∧ history.count .rootsLeave = 1

/-- Every operation that an execution comes to keeps the discipline of the root frame. -/
def LirFunction.FrameDisciplined (function : LirFunction) : Prop :=
  ∀ history state instruction, LirHistory function.instructions history state →
    function.instructions[state.pc]? = some instruction →
      FrameDiscipline history instruction.op

/-- What a lifetime state says about the operations executed so far. -/
def RootState.Describes : RootState → List LirOp → Prop
  | .uninitialized, history => history = []
  | .ready, history => history ≠ [] ∧ .rootsEnter ∉ history ∧ .rootsLeave ∉ history
  | .active, history => history.count .rootsEnter = 1 ∧ .rootsLeave ∉ history
  | .closed, history => history.count .rootsEnter = 1 ∧ history.count .rootsLeave = 1

theorem RootState.Describes.ne_nil {state : RootState} {history : List LirOp}
    (described : state.Describes history) (started : state ≠ .uninitialized) : history ≠ [] := by
  rintro rfl
  cases state with
  | uninitialized => exact started rfl
  | ready => exact described.1 rfl
  | active => exact absurd described.1 (by simp)
  | closed => exact absurd described.1 (by simp)

/-- An operation that is no entry and no exit leaves what a started state says unchanged. -/
theorem RootState.Describes.append {state : RootState} {history : List LirOp} {op : LirOp}
    (described : state.Describes history) (started : state ≠ .uninitialized)
    (noEntry : op ≠ .rootsEnter) (noExit : op ≠ .rootsLeave) :
    state.Describes (history ++ [op]) := by
  have entries : (history ++ [op]).count .rootsEnter = history.count .rootsEnter := by
    simp [List.count_append, noEntry]
  have exits : (history ++ [op]).count .rootsLeave = history.count .rootsLeave := by
    simp [List.count_append, noExit]
  have absent {wanted : LirOp} (other : op ≠ wanted) (missing : wanted ∉ history) :
      wanted ∉ history ++ [op] := by
    simp [missing, Ne.symm other]
  cases state with
  | uninitialized => exact (started rfl).elim
  | ready =>
      exact ⟨by simp, absent noEntry described.2.1, absent noExit described.2.2⟩
  | active => exact ⟨entries ▸ described.1, absent noExit described.2⟩
  | closed => exact ⟨entries ▸ described.1, exits ▸ described.2⟩

/-- A transition of the frame that demands the state before it. -/
theorem demand_eq_ok {state wanted next after : RootState} {message : String} :
    (do require (state == wanted) message; .ok next : Check RootState) = .ok after ↔
      state = wanted ∧ next = after := by
  simp only [bind_eq_ok, require_eq_ok, beq_iff_eq, Except.ok.injEq]
  exact ⟨fun ⟨_, both⟩ => both, fun both => ⟨(), both⟩⟩

/-- One operation takes a history that a state describes to one that the next state describes. -/
theorem rootStateAfter_describes {op : LirOp} {state after : RootState} {history : List LirOp}
    (moves : rootStateAfter op state = .ok after) (described : state.Describes history)
    (first : history = [] → op = .rootsInit) : after.Describes (history ++ [op]) := by
  by_cases started : state = .uninitialized
  · subst started
    have empty : history = [] := described
    subst empty
    rw [first rfl] at moves ⊢
    cases moves
    exact ⟨by simp, by simp, by simp⟩
  · have plain (same : after = state) (noEntry : op ≠ .rootsEnter) (noExit : op ≠ .rootsLeave) :
        after.Describes (history ++ [op]) :=
      same ▸ described.append started noEntry noExit
    cases op with
    | rootsInit =>
        exact (started (demand_eq_ok.mp moves).1).elim
    | rootsEnter =>
        obtain ⟨rfl, rfl⟩ := demand_eq_ok.mp moves
        refine ⟨?_, by simpa using described.2.2⟩
        simp [List.count_append, List.count_eq_zero.mpr described.2.1]
    | rootsLeave =>
        obtain ⟨rfl, rfl⟩ := demand_eq_ok.mp moves
        refine ⟨?_, ?_⟩
        · simpa [List.count_append] using described.1
        · simp [List.count_append, List.count_eq_zero.mpr described.2]
    | rootsSync =>
        obtain ⟨rfl, rfl⟩ := demand_eq_ok.mp moves
        exact plain rfl (by simp) (by simp)
    | argument index type =>
        obtain ⟨rfl, rfl⟩ := demand_eq_ok.mp moves
        exact plain rfl (by simp) (by simp)
    | call callee type =>
        obtain ⟨rfl, rfl⟩ := demand_eq_ok.mp moves
        exact plain rfl (by simp) (by simp)
    | ret =>
        obtain ⟨rfl, rfl⟩ := demand_eq_ok.mp moves
        exact plain rfl (by simp) (by simp)
    | _ =>
        cases moves
        exact plain rfl (by simp) (by simp)

section Discipline

variable {instructions : List LirInstruction} {labels : Nat → Option Nat}
  {states : Nat → Option RootState}

theorem LirHistory.reaches (agree : ∀ target, labels target = labelIndex instructions target)
    {history : List LirOp} {state : LirState} (run : LirHistory instructions history state)
    (inside : state.pc < instructions.length) :
    Reaches (lirSuccessors instructions labels) 0 state.pc := by
  induction run with
  | start => exact .refl
  | step _ fetched steps ih =>
      exact (ih (List.getElem?_eq_some_iff.mp fetched).1).tail (steps.edge agree inside)

/-- The state of the analysis describes every history that leads to an instruction. -/
theorem RootTyped.describes (typed : RootTyped instructions labels states)
    (agree : ∀ target, labels target = labelIndex instructions target)
    (head : instructions.head?.map LirInstruction.op = some .rootsInit)
    {history : List LirOp} {state : LirState} (run : LirHistory instructions history state)
    (inside : state.pc < instructions.length) :
    ∃ root, states state.pc = some root ∧ root.Describes history ∧
      (history = [] → state.pc = 0) := by
  induction run with
  | start => exact ⟨.uninitialized, typed.start, rfl, fun _ => rfl⟩
  | step earlier fetched steps ih =>
      obtain ⟨root, known, described, start⟩ := ih (List.getElem?_eq_some_iff.mp fetched).1
      obtain ⟨after, transferred, onward⟩ := typed.steps _ root known
      refine ⟨after, onward _ (steps.edge agree inside), ?_, by simp⟩
      refine rootStateAfter_describes ((rootTransfer_eq_some fetched).mp transferred) described ?_
      intro empty
      rw [start empty, ← List.head?_eq_getElem?] at fetched
      rw [fetched] at head
      exact Option.some.inj head

/-- An operation that is no label is only reached from the instruction before it. -/
theorem LirHistory.last {history : List LirOp} {state : LirState}
    (run : LirHistory instructions history state) {instruction : LirInstruction}
    (fetched : instructions[state.pc]? = some instruction)
    (plain : ∀ target, instruction.op ≠ .label target) (moved : 0 < state.pc) :
    history.getLast? = instructions[state.pc - 1]?.map LirInstruction.op := by
  cases run with
  | start => exact (Nat.lt_irrefl 0 moved).elim
  | step earlier fetchedBefore steps =>
      cases steps with
      | next =>
          simp only [Nat.add_sub_cancel, fetchedBefore, Option.map_some, List.getLast?_append,
            List.getLast?_singleton, Option.some_or]
      | transfer _ _ found =>
          unfold labelIndex at found
          obtain ⟨inside, labelled⟩ := List.findIdx?_eq_some_iff_getElem.mp found
          rw [List.getElem?_eq_getElem inside] at fetched
          cases fetched
          exact (plain _ (by simpa using labelled.1)).elim

/-- A state that describes a history and accepts an operation keeps the discipline. -/
theorem frameDiscipline_of_describes {op : LirOp} {root after : RootState} {history : List LirOp}
    (moves : rootStateAfter op root = .ok after) (described : root.Describes history)
    (first : history = [] → op = .rootsInit)
    (synchronized : ∀ callee type, op = .call callee type → history.getLast? = some .rootsSync) :
    FrameDiscipline history op where
  init_first := by
    refine ⟨?_, first⟩
    rintro rfl
    obtain ⟨rfl, -⟩ := demand_eq_ok.mp moves
    exact described
  argument_early := by
    rintro index type rfl
    obtain ⟨rfl, -⟩ := demand_eq_ok.mp moves
    exact described.2.1
  enter_once := by
    rintro rfl
    obtain ⟨rfl, -⟩ := demand_eq_ok.mp moves
    exact described.2.1
  call_inside := by
    rintro callee type rfl
    have last := synchronized callee type rfl
    obtain ⟨rfl, -⟩ := demand_eq_ok.mp moves
    exact ⟨List.count_pos_iff.mp (by rw [described.1]; exact Nat.one_pos), described.2, last⟩
  leave_inside := by
    rintro rfl
    obtain ⟨rfl, -⟩ := demand_eq_ok.mp moves
    exact ⟨List.count_pos_iff.mp (by rw [described.1]; exact Nat.one_pos), described.2⟩
  return_left := by
    rintro rfl
    obtain ⟨rfl, -⟩ := demand_eq_ok.mp moves
    exact described

end Discipline

/-- A function accepted with a root catalogue keeps the discipline of its frame. -/
theorem verifyLirRoots_disciplined {function : LirFunction} {types : Nat → Option Ty}
    {signatures : Signatures} {labels : Nat → Option Nat}
    (labelled : lirLabelIndices function.instructions = .ok labels)
    (accepted : verifyLirRoots function types signatures labels = .ok ())
    (rooted : function.rootRegisters ≠ []) : function.FrameDisciplined := by
  have agree := lirLabelIndices_eq labelled
  simp only [verifyLirRoots, List.isEmpty_iff, rooted, ↓reduceIte, bind_eq_ok, require_eq_ok,
    beq_iff_eq] at accepted
  obtain ⟨-, -, -, head, flow⟩ := accepted
  have nonempty : 0 < function.instructions.length := by
    cases shape : function.instructions with
    | nil => simp [shape] at head
    | cons => simp
  obtain ⟨⟨states, typed⟩, calls⟩ := (verifyRootFlow_iff agree nonempty).mp flow
  intro history state instruction run fetched
  have inside := (List.getElem?_eq_some_iff.mp fetched).1
  obtain ⟨root, known, described, start⟩ := typed.describes agree head run inside
  obtain ⟨after, transferred, -⟩ := typed.steps _ root known
  refine frameDiscipline_of_describes ((rootTransfer_eq_some fetched).mp transferred) described
    ?_ ?_
  · intro empty
    rw [start empty, ← List.head?_eq_getElem?] at fetched
    rw [fetched] at head
    exact Option.some.inj head
  · intro callee type kind
    have reached : state.pc ∈ lirReachable function.instructions labels :=
      (mem_lirReachable agree nonempty _).mpr (run.reaches agree inside)
    obtain ⟨moved, before⟩ := calls _ _ callee type fetched kind reached
    rw [run.last fetched (by simp [kind]) moved, before]

end Stage0
