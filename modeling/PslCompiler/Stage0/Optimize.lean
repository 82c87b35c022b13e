import Mathlib.Data.Int.Bitwise
import PslCompiler.Stage0.VerifySsa

/-! # The Stage 0 optimizer

Inlining of short functions without control flow, constant folding with the pruning of blocks that
folding makes unreachable, and removal of unused values. The source rewrites instruction records in
place; here a pass returns the rewritten function. The hash tables of the source are functions.
-/

namespace Stage0

open Flow

/-! ## Inlining -/

/-- The operations of a body that may be inlined. -/
def SsaOp.inlineP : SsaOp → Bool
  | .argument _ | .constant _ | .binary _ _ | .copy | .cast | .integerCast => true
  | _ => false

def simpleInlineBody (function : SsaFunction) : Option SsaBlock :=
  match function.blocks with
  | [block] =>
      if (block.terminator.map SsaTerminator.op == some .ret) &&
          decide (block.instructions.length ≤ 12) &&
          block.instructions.all fun instruction => instruction.op.inlineP
        then some block
      else none
  | _ => none

def remapValue (id : Nat) (mapping : Nat → Option Nat) : Check Nat :=
  match mapping id with
  | some mapped => .ok mapped
  | none => .error s!"inliner could not map SSA value {id}"

/-- Map the operands of an instruction, in order. -/
def remapValues (mapping : Nat → Option Nat) : List Nat → Check (List Nat)
  | [] => .ok []
  | id :: rest => do
      let mapped ← remapValue id mapping
      let others ← remapValues mapping rest
      .ok (mapped :: others)

/-- Clone the instructions of a body for the arguments of a call: the clones, the mapping of the
body's values, and the next unused value. An argument that the call lacks has no value. -/
def cloneBody (arguments : List Nat) : List SsaInstruction → (Nat → Option Nat) → Nat →
    Check (List SsaInstruction × (Nat → Option Nat) × Nat)
  | [], mapping, nextValue => .ok ([], mapping, nextValue)
  | instruction :: rest, mapping, nextValue =>
      match instruction.op with
      | .argument index =>
          cloneBody arguments rest (Function.update mapping instruction.id arguments[index]?)
            nextValue
      | _ => do
          let args ← remapValues mapping instruction.args
          let (clones, mapping, next) ← cloneBody arguments rest
            (Function.update mapping instruction.id (some nextValue)) (nextValue + 1)
          .ok ({ instruction with id := nextValue, args := args } :: clones, mapping, next)

/-- The clones of a callee's body and the copy that takes the place of the call. -/
def inlineCall (call : SsaInstruction) (body : SsaBlock) (nextValue : Nat) :
    Check (List SsaInstruction × Nat) := do
  let (clones, mapping, nextValue) ← cloneBody call.args body.instructions (fun _ => none) nextValue
  match body.terminatorArgs with
  | result :: _ => do
      let mapped ← remapValue result mapping
      .ok (clones ++ [{ call with op := .copy, args := [mapped] }], nextValue)
  | [] => .error "inliner could not map SSA value NIL"

/-- The bodies that may be inlined, by the name of their function; a later function replaces an
earlier one. -/
def inlineCallees (functions : List SsaFunction) (name : String) : Option SsaBlock :=
  (functions.reverse.find? fun function =>
    function.name == name && (simpleInlineBody function).isSome).bind simpleInlineBody

def inlineInstructions (callees : String → Option SsaBlock) :
    List SsaInstruction → Nat → Check (List SsaInstruction × Nat)
  | [], nextValue => .ok ([], nextValue)
  | instruction :: rest, nextValue =>
      match instruction.op with
      | .call name =>
          match callees name with
          | some body => do
              let (inlined, nextValue) ← inlineCall instruction body nextValue
              let (others, nextValue) ← inlineInstructions callees rest nextValue
              .ok (inlined ++ others, nextValue)
          | none => do
              let (others, nextValue) ← inlineInstructions callees rest nextValue
              .ok (instruction :: others, nextValue)
      | _ => do
          let (others, nextValue) ← inlineInstructions callees rest nextValue
          .ok (instruction :: others, nextValue)

def inlineBlocks (callees : String → Option SsaBlock) :
    List SsaBlock → Nat → Check (List SsaBlock × Nat)
  | [], nextValue => .ok ([], nextValue)
  | block :: rest, nextValue => do
      let (instructions, nextValue) ← inlineInstructions callees block.instructions nextValue
      let (others, nextValue) ← inlineBlocks callees rest nextValue
      .ok ({ block with instructions := instructions } :: others, nextValue)

def inlineFunction (callees : String → Option SsaBlock) (caller : SsaFunction) :
    Check SsaFunction := do
  let (blocks, nextValue) ← inlineBlocks callees caller.blocks caller.nextValue
  .ok { caller with blocks := blocks, nextValue := nextValue }

/-- Inlining into a body that may itself be inlined changes nothing, since it has no calls; so all
callers may use the functions as they were. -/
def inlineSimpleFunctions (functions : List SsaFunction) : Check (List SsaFunction) :=
  functions.mapM (inlineFunction (inlineCallees functions))

/-! ## Constant folding -/

def wrapInteger (value : Int) (type : Ty) (pointerBits : Nat) : Int :=
  let width := (type.typeWidth pointerBits).getD 0
  let bits := value % 2 ^ width
  if type.signedTypeP && bits.toNat.testBit (width - 1) then bits - 2 ^ width else bits

def foldedBinary (operator : BinaryOperator) (type : Ty) (left right : Int) (pointerBits : Nat) :
    Int :=
  match operator with
  | .wrapAdd => wrapInteger (left + right) type pointerBits
  | .wrapSub => wrapInteger (left - right) type pointerBits
  | .wrapMul => wrapInteger (left * right) type pointerBits
  | .bitsAnd => Int.land left right
  | .shr64 => left >>> (right % 64).toNat
  | .equal => if left = right then 1 else 0
  | .less => if left < right then 1 else 0

/-- The constants found so far, by value. -/
abbrev Constants := Nat → Option Literal

/-- The values of some ids, when all are known. -/
def knownConstants (ids : List Nat) (constants : Constants) : Option (List Literal) :=
  ids.mapM constants

/-- Whether two literals are the same number; only integers are ever compared. -/
def Literal.sameNumberP : Literal → Literal → Bool
  | .integer left, .integer right => left == right
  | _, _ => false

def Literal.zeroP : Literal → Bool
  | .integer value => value == 0
  | .single bits => bits.setWidth 31 == 0
  | .double bits => bits.setWidth 63 == 0

/-- The constant that a copy or a phi passes on from all its inputs. -/
def passedConstant (type : Ty) (ids : List Nat) (constants : Constants) : Option Literal :=
  if type.integerTypeP || type == .boolean then
    match knownConstants ids constants with
    | some (first :: rest) => if rest.all fun item => item.sameNumberP first then some first else none
    | _ => none
  else none

/-- The constant that an instruction computes, when folding finds one. -/
def foldedConstant (instruction : SsaInstruction) (constants : Constants) (pointerBits : Nat) :
    Check (Option Literal) :=
  match instruction.op with
  | .copy => .ok (passedConstant instruction.type instruction.args constants)
  | .phi incoming => .ok (passedConstant instruction.type (incoming.map Prod.snd) constants)
  | .binary operator type =>
      match knownConstants instruction.args constants with
      | none => .ok none
      | some (.integer left :: .integer right :: _) =>
          .ok (some (.integer (foldedBinary operator type left right pointerBits)))
      | some _ => .error "constant-fold operand is not an integer"
  | _ => .ok none

def replaceWithConstant (instruction : SsaInstruction) (value : Literal) : SsaInstruction :=
  { instruction with op := .constant value, args := [] }

/-- Fold an instruction: the instruction afterwards, the constants, and whether it has changed. -/
def foldInstruction (instruction : SsaInstruction) (constants : Constants) (pointerBits : Nat) :
    Check (SsaInstruction × Constants × Bool) := do
  match instruction.op with
  | .constant value => .ok (instruction, Function.update constants instruction.id (some value), false)
  | _ =>
      match ← foldedConstant instruction constants pointerBits with
      | some value =>
          .ok (replaceWithConstant instruction value,
            Function.update constants instruction.id (some value), true)
      | none => .ok (instruction, constants, false)

def foldBranch (terminator : SsaTerminator) (constants : Constants) : SsaTerminator × Bool :=
  match terminator with
  | ⟨.branch, condition :: _, ifTrue :: ifFalse :: _⟩ =>
      match constants condition with
      | some value => (⟨.jump, [], [if value.zeroP then ifFalse else ifTrue]⟩, true)
      | none => (terminator, false)
  | _ => (terminator, false)

def foldInstructions (pointerBits : Nat) : List SsaInstruction → Constants →
    Check (List SsaInstruction × Constants × Bool)
  | [], constants => .ok ([], constants, false)
  | instruction :: rest, constants => do
      let (folded, constants, changed) ← foldInstruction instruction constants pointerBits
      let (others, constants, more) ← foldInstructions pointerBits rest constants
      .ok (folded :: others, constants, changed || more)

def foldBlock (pointerBits : Nat) (block : SsaBlock) (constants : Constants) :
    Check (SsaBlock × Constants × Bool) := do
  let (instructions, constants, changed) ←
    foldInstructions pointerBits block.instructions constants
  match block.terminator with
  | some terminator =>
      let (folded, more) := foldBranch terminator constants
      .ok ({ block with instructions := instructions, terminator := some folded }, constants,
        changed || more)
  | none => .ok ({ block with instructions := instructions }, constants, changed)

def foldBlocks (pointerBits : Nat) : List SsaBlock → Constants →
    Check (List SsaBlock × Constants × Bool)
  | [], constants => .ok ([], constants, false)
  | block :: rest, constants => do
      let (folded, constants, changed) ← foldBlock pointerBits block constants
      let (others, constants, more) ← foldBlocks pointerBits rest constants
      .ok (folded :: others, constants, changed || more)

/-- Forget the inputs of a phi from blocks that are gone; a single input that is left becomes a
copy. -/
def prunePhi (reachable : Finset Nat) (instruction : SsaInstruction) : SsaInstruction :=
  match instruction.op with
  | .phi incoming =>
      match incoming.filter fun edge => decide (edge.1 ∈ reachable) with
      | [(_, value)] => { instruction with op := .copy, args := [value] }
      | edges => { instruction with op := .phi edges }
  | _ => instruction

def pruneUnreachableBlocks (function : SsaFunction) : SsaFunction :=
  { function with
    blocks := (function.blocks.filter fun block => decide (block.id ∈ function.reachableBlocks)).map
      fun block => { block with
        instructions := block.instructions.map (prunePhi function.reachableBlocks) } }

/-- Fold until nothing changes, at most some number of times. -/
def foldRounds (pointerBits : Nat) : Nat → SsaFunction → Constants → Check SsaFunction
  | 0, _, _ => .error "constant folding did not finish"
  | rounds + 1, function, constants => do
      let (blocks, constants, changed) ← foldBlocks pointerBits function.blocks constants
      if changed then
        foldRounds pointerBits rounds (pruneUnreachableBlocks { function with blocks := blocks })
          constants
      else .ok { function with blocks := blocks }

/-- Every round but the last replaces an instruction or a branch, which bounds the rounds. -/
def foldConstants (function : SsaFunction) (pointerBits : Nat) : Check SsaFunction :=
  foldRounds pointerBits
    ((function.blocks.map fun block => block.instructions.length + 1).sum + 1) function
    fun _ => none

/-! ## Unused values -/

def effectfulInstructionP (instruction : SsaInstruction) : Bool :=
  match instruction.op with
  | .call _ | .store => true
  | .load volatile => volatile
  | _ => false

/-- Mark values and what they depend on, depth first. The number of visits is bounded by the number
of uses. -/
def markLiveValues (definitions : Nat → Option SsaInstruction) :
    Nat → List Nat → Finset Nat → Check (Finset Nat)
  | 0, _, _ => .error "marking live values did not finish"
  | _ + 1, [], live => .ok live
  | fuel + 1, id :: pending, live =>
      if id ∈ live then markLiveValues definitions fuel pending live
      else
        match definitions id with
        | none => .error s!"dead-code pass found missing SSA value {id}"
        | some instruction =>
            markLiveValues definitions fuel (instruction.operands ++ pending) (insert id live)

/-- The values that a block needs by itself: those of its terminator and of its effects. -/
def SsaBlock.roots (block : SsaBlock) : List Nat :=
  block.terminatorArgs ++ (block.instructions.filter effectfulInstructionP).map SsaInstruction.id

/-- A bound on the visits of marking: the roots, and each definition with its uses. -/
def SsaFunction.visits (function : SsaFunction) : Nat :=
  (function.blocks.flatMap SsaBlock.roots).length +
    ((function.blocks.flatMap SsaBlock.instructions).map fun instruction =>
      instruction.operands.length + 1).sum + 1

def eliminateDeadCode (function : SsaFunction) : Check SsaFunction := do
  let live ← markLiveValues function.definition function.visits
    (function.blocks.flatMap SsaBlock.roots) ∅
  .ok { function with
    blocks := function.blocks.map fun block => { block with
      instructions := block.instructions.filter fun instruction => decide (instruction.id ∈ live) } }

/-! ## The optimizer -/

def optimizeFunction (function : SsaFunction) (pointerBits : Nat) : Check SsaFunction := do
  eliminateDeadCode (← foldConstants function pointerBits)

def optimizeFunctions (functions : List SsaFunction) (pointerBits : Nat) :
    Check (List SsaFunction) := do
  let inlined ← inlineSimpleFunctions functions
  inlined.mapM fun function => optimizeFunction function pointerBits

end Stage0
