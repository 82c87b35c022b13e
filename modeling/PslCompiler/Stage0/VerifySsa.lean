import PslCompiler.Flow.Fixpoint
import PslCompiler.Stage0.Syntax
import PslCompiler.Stage0.VerifyLir

/-! # The Stage 0 SSA verifier

The checks of `verify-ssa-function`: the shape of the control-flow graph, the types of operations,
and dominance of uses by definitions. Dominator lists are finite sets, which is how the source
compares them (`set-equal`).
-/

namespace Stage0

open Flow

/-! ## Structure -/

/-- Check the value ids of a block's instructions against those already seen. -/
def verifySsaValueIds (nextValue : Nat) : List SsaInstruction → Finset Nat → Check (Finset Nat)
  | [], values => .ok values
  | instruction :: rest, values => do
      require (decide (instruction.id < nextValue)) "SSA value id is out of range"
      require (decide (instruction.id ∉ values)) ("duplicate SSA value " ++ toString instruction.id)
      verifySsaValueIds nextValue rest (insert instruction.id values)

/-- Check the ids of blocks and of their values, and return the block ids. -/
def verifySsaBlockIds (nextValue : Nat) :
    List SsaBlock → Finset Nat → Finset Nat → Check (Finset Nat)
  | [], ids, _ => .ok ids
  | block :: rest, ids, values => do
      require (decide (block.id ∉ ids)) ("duplicate SSA block " ++ toString block.id)
      require block.terminator.isSome
        ("SSA block " ++ toString block.id ++ " lacks a terminator")
      let values ← verifySsaValueIds nextValue block.instructions values
      verifySsaBlockIds nextValue rest (insert block.id ids) values

def verifySsaTerminatorShape (ids : Finset Nat) (terminator : SsaTerminator) : Check Unit := do
  match terminator.op with
  | .ret => do
      expectCount terminator.args 1 "SSA return"
      expectCount terminator.targets 0 "SSA return targets"
  | .jump => do
      expectCount terminator.args 0 "SSA jump"
      expectCount terminator.targets 1 "SSA jump target"
  | .branch => do
      expectCount terminator.args 1 "SSA branch"
      expectCount terminator.targets 2 "SSA branch targets"
  checkAll (fun target => require (decide (target ∈ ids))
    ("SSA branch targets missing block " ++ toString target)) terminator.targets

namespace SsaFunction

/-- The successors of a block, by its id. -/
def successors (function : SsaFunction) (id : Nat) : List Nat :=
  ((function.findBlock id).map SsaBlock.successors).getD []

/-- The blocks that control flow reaches. A block has at most two successors, so the worklist
finishes within the given bound. -/
def reachableBlocks (function : SsaFunction) : Finset Nat :=
  (closure function.successors (3 * function.blocks.length + 2) [function.entry] ∅).getD ∅

end SsaFunction

def verifySsaStructure (function : SsaFunction) : Check Unit := do
  require (!function.blocks.isEmpty) "SSA function has no blocks"
  let ids ← verifySsaBlockIds function.nextValue function.blocks ∅ ∅
  require (decide (function.entry ∈ ids)) "SSA entry block is missing"
  checkAll (fun block =>
    match block.terminator with
    | some terminator => verifySsaTerminatorShape ids terminator
    | none => .ok ()) function.blocks
  checkAll (fun block => require (decide (block.id ∈ function.reachableBlocks))
    ("unreachable SSA block " ++ toString block.id)) function.blocks

/-! ## Dominance -/

/-- One step of the dominator equations. The dominators of the entry are never recomputed. -/
def dominatorUpdate (function : SsaFunction) (id : Nat) (dominators : Nat → Finset Nat) :
    Finset Nat :=
  if id = function.entry then dominators id
  else
    match function.blockPredecessors id with
    | [] => dominators id
    | first :: rest =>
        insert id (rest.foldl (fun shared predecessor => shared ∩ dominators predecessor)
          (dominators first))

def dominatorStart (function : SsaFunction) (id : Nat) : Finset Nat :=
  if id = function.entry then {id} else (function.blocks.map SsaBlock.id).toFinset

/-- The dominators of every block. A block without predecessors fails in the first round. The
bound on the rounds is never reached, since every changing round removes a dominator. -/
def computeDominators (function : SsaFunction) : Check (Nat → Finset Nat) := do
  checkAll (fun block => require
    (block.id == function.entry || !(function.blockPredecessors block.id).isEmpty)
    ("SSA block " ++ toString block.id ++ " has no predecessor")) function.blocks
  match solve (dominatorUpdate function) (function.blocks.map SsaBlock.id)
      (function.blocks.length * function.blocks.length + 1) (dominatorStart function) with
  | some dominators => .ok dominators
  | none => .error "the dominator equations did not converge"

/-- Every definition with its block and its index there. -/
def definitionList (function : SsaFunction) : List (Nat × Nat × Nat) :=
  function.blocks.flatMap fun block =>
    block.instructions.zipIdx.map fun entry => (entry.1.id, block.id, entry.2)

/-- The block and the index of the definition of a value; a later entry replaces an earlier. -/
def definitionSites (function : SsaFunction) (value : Nat) : Option (Nat × Nat) :=
  (definitionList function).reverse.lookup value

def verifySsaUse (value block index : Nat) (sites : Nat → Option (Nat × Nat))
    (dominators : Nat → Finset Nat) : Check Unit :=
  match sites value with
  | none => .error s!"SSA uses undefined value {value}"
  | some site =>
      if site.1 = block then
        require (decide (site.2 < index)) s!"SSA value {value} is used before its definition"
      else require (decide (site.1 ∈ dominators block)) s!"SSA value {value} does not dominate its use"

/-- The check of one incoming edge of a phi. -/
def verifySsaPhiEdge (sites : Nat → Option (Nat × Nat)) (dominators : Nat → Finset Nat)
    (edge : Nat × Nat) : Check Unit :=
  match sites edge.2 with
  | none => .error ("SSA phi uses undefined value " ++ toString edge.2)
  | some site =>
      require (site.1 == edge.1 || decide (site.1 ∈ dominators edge.1))
        ("SSA phi input " ++ toString edge.2 ++ " does not dominate predecessor " ++
          toString edge.1)

def verifySsaPhi (incoming : List (Nat × Nat)) (block : Nat) (function : SsaFunction)
    (sites : Nat → Option (Nat × Nat)) (dominators : Nat → Finset Nat) : Check Unit := do
  let predecessors := function.blockPredecessors block
  require (incoming.length == predecessors.length &&
      (incoming.map Prod.fst).toFinset == predecessors.toFinset)
    s!"SSA phi inputs do not match predecessors of block {block}"
  checkAll (verifySsaPhiEdge sites dominators) incoming

/-- The dominance checks of a block's instructions, from an index on. -/
def verifySsaInstructions (function : SsaFunction) (block : Nat)
    (sites : Nat → Option (Nat × Nat)) (dominators : Nat → Finset Nat) :
    List SsaInstruction → Nat → Bool → Check Unit
  | [], _, _ => .ok ()
  | instruction :: rest, index, nonPhiSeen =>
      match instruction.op with
      | .phi incoming => do
          require (!nonPhiSeen) "SSA phi must precede ordinary instructions"
          verifySsaPhi incoming block function sites dominators
          verifySsaInstructions function block sites dominators rest (index + 1) nonPhiSeen
      | _ => do
          checkAll (fun value => verifySsaUse value block index sites dominators) instruction.args
          verifySsaInstructions function block sites dominators rest (index + 1) true

def verifySsaDominance (function : SsaFunction) : Check Unit := do
  let sites := definitionSites function
  let dominators ← computeDominators function
  checkAll (fun block => do
    verifySsaInstructions function block.id sites dominators block.instructions 0 false
    checkAll (fun value => verifySsaUse value block.id block.instructions.length sites dominators)
      block.terminatorArgs) function.blocks

/-! ## Types -/

def ssaValueType (function : SsaFunction) (id : Nat) : Check Ty :=
  match function.definition id with
  | none => .error s!"SSA uses undefined value {id}"
  | some instruction => .ok instruction.type

def ssaValueTypes (function : SsaFunction) : List Nat → Check (List Ty)
  | [] => .ok []
  | id :: rest => do
      let type ← ssaValueType function id
      let types ← ssaValueTypes function rest
      .ok (type :: types)

def verifySsaCast (type : Ty) (types : List Ty) : Check Unit := do
  expectCount types 1 "SSA pointer cast"
  let operand := types.head?
  require ((type.pointerTypeP && (operand.map Ty.pointerTypeP == some true ||
      operand == some .usize)) ||
    (type == .usize && operand.map Ty.pointerTypeP == some true)) "invalid SSA pointer cast"

def verifySsaInstruction (instruction : SsaInstruction) (function : SsaFunction)
    (signatures : Signatures) (pointerBits blockId : Nat) : Check Unit := do
  let types ← ssaValueTypes function instruction.operands
  let type := instruction.type
  match instruction.op with
  | .argument index => do
      expectCount types 0 "SSA argument"
      require (blockId == function.entry) "SSA argument must be in entry block"
      require (decide (index < function.signature.arguments.length))
        "SSA argument index is out of range"
      expectSameType (some type) function.signature.arguments[index]? "SSA argument"
  | .constant value => do
      expectCount types 0 "SSA constant"
      require (literalFitsP value type pointerBits) ("SSA constant does not fit " ++ type.print)
  | .phi _ =>
      checkAll (fun incoming => expectSameType (some incoming) (some type) "SSA phi input") types
  | .copy => do
      expectCount types 1 "SSA copy"
      expectSameType (some type) types.head? "SSA copy"
  | .binary operator operandType => verifySsaBinary (some type) operator operandType types
  | .integerCast => do
      expectCount types 1 "SSA integer cast"
      require (type.integerTypeP && types.head?.map Ty.integerTypeP == some true)
        "invalid SSA integer cast"
  | .call callee => verifySsaCall (some type) callee types signatures
  | .dataAddress _ dataType => do
      expectCount types 0 "SSA data address"
      require (type.pointedType == some dataType) "invalid SSA data address"
  | .load volatile => verifySsaLoad (some type) volatile types
  | .store => verifySsaStore (some type) types
  | .pointerAdd scale => verifySsaPointerAdd (some type) scale types
  | .fieldPointer offset => verifySsaFieldPointer (some type) offset types
  | .cast => verifySsaCast type types

def verifySsaTerminator (block : SsaBlock) (function : SsaFunction) : Check Unit :=
  match block.terminator with
  | none => .ok ()
  | some terminator => do
      match terminator.op, terminator.args.head? with
      | .ret, some value => do
          let type ← ssaValueType function value
          expectSameType (some type) (some function.signature.result) "SSA return"
      | .branch, some value => do
          let type ← ssaValueType function value
          expectSameType (some type) (some .boolean) "SSA branch condition"
      | _, _ => .ok ()

/-! ## Functions -/

def verifySsaFunction (function : SsaFunction) (signatures : Signatures) (pointerBits : Nat) :
    Check Unit := do
  require (function.name == function.signature.name) "SSA function name differs from signature"
  verifySsaStructure function
  checkAll (fun block => do
    checkAll (fun instruction =>
      verifySsaInstruction instruction function signatures pointerBits block.id)
      block.instructions
    verifySsaTerminator block function) function.blocks
  verifySsaDominance function

end Stage0
