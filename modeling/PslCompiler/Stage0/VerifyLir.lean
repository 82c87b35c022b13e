import PslCompiler.Flow.Fixpoint
import PslCompiler.Stage0.Syntax

/-! # The Stage 0 LIR verifier

The checks of `verify-lir-function`: register types, operand types, labels, root lifetimes, and
the must-be-assigned analysis over instruction-level control flow. Tables keyed by a register or
a label are functions into `Option`, and the assigned-register lists of the analysis are finite
sets, which is how the source compares them (`set-equal`).
-/

namespace Stage0

open Flow

/-! ## Operations shared with SSA -/

def verifySsaBinary (type : Option Ty) (operator : BinaryOperator) (operandType : Ty)
    (types : List Ty) : Check Unit := do
  expectCount types 2 "SSA binary operation"
  require operandType.integerTypeP "SSA binary operand type is not an integer"
  require (operator != .shr64 || operandType == .u64) "SSA SHR64 requires U64"
  checkAll (fun operand => expectSameType (some operand) (some operandType) "SSA binary operand")
    types
  expectSameType type (some (if operator.comparisonP then .boolean else operandType))
    "SSA binary result"

def verifySsaCall (type : Option Ty) (callee : String) (types : List Ty)
    (signatures : Signatures) : Check Unit :=
  match signatures callee with
  | none => .error s!"SSA call has unknown callee {callee}"
  | some signature => do
      require (types == signature.arguments) ("SSA call arguments do not match " ++ signature.name)
      expectSameType type (some signature.result) "SSA call result"

/-- Whether an operand list starts with a pointer to a scalar machine value. -/
def scalarPointerP (types : List Ty) : Bool :=
  match types.head?.bind Ty.pointedType with
  | some pointee => pointee.scalarTypeP
  | none => false

def verifySsaLoad (type : Option Ty) (volatile : Bool) (types : List Ty) : Check Unit := do
  expectCount types 1 "SSA load"
  require (scalarPointerP types) "SSA load needs a pointer to a scalar machine value"
  expectSameType type (types.head?.bind Ty.pointedType) "SSA load result"
  require (types.head?.map Ty.pointerVolatileP == some volatile)
    "SSA load volatile flag does not match pointer"

def verifySsaStore (type : Option Ty) (types : List Ty) : Check Unit := do
  expectCount types 2 "SSA store"
  require (scalarPointerP types) "SSA store needs a pointer to a scalar machine value"
  require (types.head?.map Ty.pointerConstP == some false) "SSA store through const pointer"
  expectSameType types[1]? (types.head?.bind Ty.pointedType) "SSA store value"
  expectSameType type types[1]? "SSA store result"

def verifySsaPointerAdd (type : Option Ty) (scale : Int) (types : List Ty) : Check Unit := do
  expectCount types 2 "SSA pointer addition"
  require ((types.head?.map Ty.pointerTypeP == some true) && types[1]? == some .isize &&
    decide (0 < scale)) "invalid SSA pointer addition"
  expectSameType type types.head? "SSA pointer result"

def verifySsaFieldPointer (type : Option Ty) (offset : Int) (types : List Ty) : Check Unit := do
  expectCount types 1 "SSA field pointer"
  require ((types.head?.map Ty.pointerTypeP == some true) && type.map Ty.pointerTypeP == some true &&
    decide (0 ≤ offset)) "invalid SSA field pointer"
  require (types.head?.map Ty.pointerConstP == type.map Ty.pointerConstP &&
    types.head?.map Ty.pointerVolatileP == type.map Ty.pointerVolatileP)
    "SSA field pointer lost its qualifiers"

/-! ## Registers and operations -/

def lirRegisterTypesFrom (count : Nat) :
    List LirInstruction → (Nat → Option Ty) → Check (Nat → Option Ty)
  | [], types => .ok types
  | instruction :: rest, types =>
      match instruction.dst with
      | none => lirRegisterTypesFrom count rest types
      | some id => do
          require (decide (id < count) && instruction.type.isSome)
            "invalid LIR destination register or type"
          require ((types id).isNone || instruction.type == types id) "LIR register type mismatch"
          lirRegisterTypesFrom count rest (Function.update types id instruction.type)

def lirRegisterTypes (function : LirFunction) : Check (Nat → Option Ty) :=
  lirRegisterTypesFrom function.registerCount function.instructions fun _ => none

def lirOperandTypes (registerTypes : Nat → Option Ty) : List Nat → Check (List Ty)
  | [] => .ok []
  | id :: rest =>
      match registerTypes id with
      | none => .error s!"LIR uses undefined register {id}"
      | some type => do
          let types ← lirOperandTypes registerTypes rest
          .ok (type :: types)

def verifyLirConversion (type : Option Ty) (types : List Ty) : Check Unit := do
  expectCount types 1 "LIR conversion"
  let operand := types.head?
  require ((type.map Ty.integerTypeP == some true && operand.map Ty.integerTypeP == some true) ||
    (type.map Ty.pointerTypeP == some true &&
      (operand.map Ty.pointerTypeP == some true || operand == some .usize)) ||
    (type == some .usize && operand.map Ty.pointerTypeP == some true)) "invalid LIR conversion"

def verifyLirOperation (function : LirFunction) (registerTypes : Nat → Option Ty)
    (signatures : Signatures) (pointerBits : Nat) (instruction : LirInstruction) : Check Unit := do
  let types ← lirOperandTypes registerTypes instruction.args
  let type := instruction.type
  match instruction.op with
  | .rootsInit | .rootsEnter | .rootsSync | .rootsLeave => do
      expectCount types 0 "LIR roots"
      require (instruction.dst.isNone && type.isNone) "invalid LIR root operation fields"
  | .label _ => expectCount types 0 "LIR label"
  | .jump _ => expectCount types 0 "LIR jump"
  | .branchZero _ => do
      expectCount types 1 "LIR branch"
      expectSameType types.head? (some .boolean) "LIR branch condition"
  | .ret => do
      expectCount types 1 "LIR return"
      expectSameType types.head? type "LIR return"
  | .argument index _ => do
      expectCount types 0 "LIR argument"
      require (decide (index < function.signature.arguments.length)) "invalid LIR argument index"
      expectSameType type function.signature.arguments[index]? "LIR argument"
  | .constant value constantType => do
      expectCount types 0 "LIR constant"
      require (some constantType == type && literalFitsP value constantType pointerBits)
        "invalid LIR constant"
  | .copy => do
      expectCount types 1 "LIR copy"
      require (type == types.head?) "LIR copy type mismatch"
  | .convert => verifyLirConversion type types
  | .binary operator operandType => verifySsaBinary type operator operandType types
  | .call callee _ => verifySsaCall type callee types signatures
  | .dataAddress _ dataType => do
      expectCount types 0 "LIR data address"
      require (type.bind Ty.pointedType == some dataType) "invalid LIR data address"
  | .fieldPointer offset => verifySsaFieldPointer type offset types
  | .pointerAdd scale => verifySsaPointerAdd type scale types
  | .load _ => verifySsaLoad type ((types.head?.map Ty.pointerVolatileP).getD false) types
  | .store _ => verifySsaStore type types

/-! ## Labels and control flow -/

def lirLabelIndicesFrom :
    List LirInstruction → Nat → (Nat → Option Nat) → Check (Nat → Option Nat)
  | [], _, labels => .ok labels
  | instruction :: rest, index, labels =>
      match instruction.op with
      | .label id => do
          require (labels id).isNone s!"duplicate LIR label {id}"
          lirLabelIndicesFrom rest (index + 1) (Function.update labels id (some index))
      | _ => lirLabelIndicesFrom rest (index + 1) labels

def lirLabelIndices (instructions : List LirInstruction) : Check (Nat → Option Nat) :=
  lirLabelIndicesFrom instructions 0 fun _ => none

/-- The index after `index`, when there is one. -/
def lirNext (instructions : List LirInstruction) (index : Nat) : Option Nat :=
  if index + 1 < instructions.length then some (index + 1) else none

def lirSuccessors (instructions : List LirInstruction) (labels : Nat → Option Nat) (index : Nat) :
    List Nat :=
  match instructions[index]? with
  | none => []
  | some instruction =>
      match instruction.op with
      | .ret => []
      | .jump target => (labels target).toList
      | .branchZero target => (labels target).toList ++ (lirNext instructions index).toList
      | _ => (lirNext instructions index).toList

def lirPredecessors (instructions : List LirInstruction) (labels : Nat → Option Nat)
    (index : Nat) : List Nat :=
  (List.range instructions.length).filter fun source =>
    (lirSuccessors instructions labels source).contains index

/-- The instructions that control flow reaches from the first. An instruction has at most two
successors, so the worklist finishes within the given bound. -/
def lirReachable (instructions : List LirInstruction) (labels : Nat → Option Nat) : Finset Nat :=
  (closure (lirSuccessors instructions labels) (3 * instructions.length + 2) [0] ∅).getD ∅

/-! ## Root lifetimes -/

def managedRegisters (count : Nat) (types : Nat → Option Ty) : List Nat :=
  (List.range count).filter fun id => types id == some .value

def lirSafepointP (signatures : Signatures) (instruction : LirInstruction) : Bool :=
  match instruction.op with
  | .call callee _ =>
      match signatures callee with
      | none => true
      | some signature => signature.effect != .none
  | _ => false

def lirNeedsRootFrameP (function : LirFunction) (signatures : Signatures)
    (types : Nat → Option Ty) : Bool :=
  !(managedRegisters function.registerCount types).isEmpty &&
    function.instructions.any (lirSafepointP signatures)

inductive RootState
  | uninitialized | ready | active | closed
  deriving DecidableEq, Repr

def rootStateAfter (op : LirOp) (state : RootState) : Check RootState :=
  match op with
  | .rootsInit => do
      require (state == .uninitialized) "duplicate LIR root initialization"
      .ok .ready
  | .rootsEnter => do
      require (state == .ready) "invalid LIR root entry"
      .ok .active
  | .rootsSync => do
      require (state == .active) "LIR roots synchronized outside frame"
      .ok .active
  | .rootsLeave => do
      require (state == .active) "invalid LIR root exit"
      .ok .closed
  | .argument _ _ => do
      require (state == .ready) "LIR argument follows root registration"
      .ok .ready
  | .call _ _ => do
      require (state == .active) "LIR call outside root frame"
      .ok .active
  | .ret => do
      require (state == .closed) "LIR return leaves root frame active"
      .ok .closed
  | _ => .ok state

/-- Give a state to every successor of one instruction, pushing those that had none. -/
def rootFlowSuccessors (state : RootState) :
    List Nat → List Nat × (Nat → Option RootState) → Check (List Nat × (Nat → Option RootState))
  | [], result => .ok result
  | next :: rest, (pending, states) =>
      match states next with
      | some prior => do
          require (prior == state) "inconsistent LIR root lifetime at control-flow join"
          rootFlowSuccessors state rest (pending, states)
      | none =>
          rootFlowSuccessors state rest (next :: pending, Function.update states next (some state))

/-- The worklist of `verify-root-flow`. Each instruction is pushed at most once, so a bound of
one more than the number of instructions is never reached. -/
def rootFlowLoop (instructions : List LirInstruction) (labels : Nat → Option Nat) :
    Nat → List Nat → (Nat → Option RootState) → Check Unit
  | 0, _, _ => .ok ()
  | _ + 1, [], _ => .ok ()
  | fuel + 1, index :: pending, states =>
      match instructions[index]?, states index with
      | some instruction, some state => do
          let after ← rootStateAfter instruction.op state
          let result ← rootFlowSuccessors after (lirSuccessors instructions labels index)
            (pending, states)
          rootFlowLoop instructions labels fuel result.1 result.2
      | _, _ => rootFlowLoop instructions labels fuel pending states

def verifyRootFlow (instructions : List LirInstruction) (labels : Nat → Option Nat) :
    Check Unit := do
  rootFlowLoop instructions labels (instructions.length + 1) [0]
    (Function.update (fun _ => none) 0 (some .uninitialized))
  checkAll (fun index =>
    match instructions[index]?.map LirInstruction.op with
    | some (.call _ _) =>
        require (decide (index ∉ lirReachable instructions labels) ||
            (decide (0 < index) && instructions[index - 1]?.map LirInstruction.op ==
              some .rootsSync))
          "LIR call lacks root synchronization"
    | _ => .ok ()) (List.range instructions.length)

def LirOp.rootOperationP : LirOp → Bool
  | .rootsInit | .rootsEnter | .rootsSync | .rootsLeave => true
  | _ => false

def verifyLirRoots (function : LirFunction) (types : Nat → Option Ty) (signatures : Signatures)
    (labels : Nat → Option Nat) : Check Unit :=
  if function.rootRegisters.isEmpty then do
    require (!lirNeedsRootFrameP function signatures types)
      "managed LIR safepoint has no root frame"
    require (!function.instructions.any fun instruction => instruction.op.rootOperationP)
      "LIR root operations lack a root catalogue"
  else do
    require (function.rootRegisters == managedRegisters function.registerCount types)
      "LIR root catalogue differs from managed register types"
    require (function.instructions.head?.map LirInstruction.op == some .rootsInit)
      "LIR root initialization must precede labels and arguments"
    verifyRootFlow function.instructions labels

/-! ## Assignment on every path -/

/-- The assigned registers before and after an instruction, from those of its predecessors. -/
def lirAssignmentUpdate (instructions : List LirInstruction) (labels : Nat → Option Nat)
    (index : Nat) (facts : Nat → Finset Nat × Finset Nat) : Finset Nat × Finset Nat :=
  if index ∈ lirReachable instructions labels then
    let preds := (lirPredecessors instructions labels index).filter fun source =>
      source ∈ lirReachable instructions labels
    let input : Finset Nat :=
      if index = 0 then ∅
      else
        match preds with
        | [] => ∅
        | first :: rest => rest.foldl (fun shared source => shared ∩ (facts source).2) (facts first).2
    let output : Finset Nat :=
      match instructions[index]?.bind LirInstruction.dst with
      | some dst => insert dst input
      | none => input
    (input, output)
  else facts index

def lirAssignmentStart (registerCount : Nat) (index : Nat) : Finset Nat × Finset Nat :=
  (if index = 0 then ∅ else Finset.range registerCount, Finset.range registerCount)

/-- The least bound on the rounds of the analysis: every changing round removes a register. -/
def lirAssignmentRounds (instructions : List LirInstruction) (registerCount : Nat) : Nat :=
  2 * registerCount * instructions.length + 1

def lirAssignment (instructions : List LirInstruction) (labels : Nat → Option Nat)
    (registerCount : Nat) : Option (Nat → Finset Nat × Finset Nat) :=
  solve (lirAssignmentUpdate instructions labels) (List.range instructions.length)
    (lirAssignmentRounds instructions registerCount) (lirAssignmentStart registerCount)

def verifyLirAssignment (instructions : List LirInstruction) (labels : Nat → Option Nat)
    (registerCount : Nat) : Check Unit :=
  match lirAssignment instructions labels registerCount with
  | none => .error "the assignment analysis did not converge"
  | some facts =>
      checkAll (fun index =>
        match instructions[index]? with
        | none => .ok ()
        | some instruction =>
            if index ∈ lirReachable instructions labels then do
              require (!(lirSuccessors instructions labels index).isEmpty ||
                instruction.op == .ret) "LIR control flow reaches the end without a return"
              checkAll (fun used => require (decide (used ∈ (facts index).1))
                s!"LIR register {used} may be used before assignment") instruction.args
            else .ok ()) (List.range instructions.length)

/-! ## Functions -/

/-- The checks of `verify-lir-function` on where an instruction transfers control. -/
def verifyLirTransfer (function : LirFunction) (labels : Nat → Option Nat)
    (instruction : LirInstruction) : Check Unit :=
  match instruction.op with
  | .jump target | .branchZero target =>
      require (labels target).isSome s!"LIR branch targets undefined label {target}"
  | .ret => expectSameType instruction.type (some function.signature.result) "LIR return"
  | _ => .ok ()

/-- The checks that `verify-lir-function` makes of each instruction by itself. -/
def verifyLirInstruction (function : LirFunction) (registerTypes : Nat → Option Ty)
    (labels : Nat → Option Nat) (signatures : Signatures) (pointerBits : Nat)
    (instruction : LirInstruction) : Check Unit := do
  verifyLirTransfer function labels instruction
  verifyLirOperation function registerTypes signatures pointerBits instruction

def verifyLirFunction (function : LirFunction) (signatures : Signatures) (pointerBits : Nat) :
    Check Unit := do
  require (function.name == function.signature.name) "LIR function name differs from signature"
  let registerTypes ← lirRegisterTypes function
  let labels ← lirLabelIndices function.instructions
  require (!function.instructions.isEmpty) "empty LIR function"
  checkAll (verifyLirInstruction function registerTypes labels signatures pointerBits)
    function.instructions
  verifyLirRoots function registerTypes signatures labels
  verifyLirAssignment function.instructions labels function.registerCount

end Stage0
