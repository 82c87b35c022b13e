import PslCompiler.Buffers.Insertion
import PslCompiler.Loops.Measured
import PslCompiler.Native.VerifySsa

/-! # Inlining

Calls of small functions are replaced by copies of the function's values. The values of such a
function are saved in a table as the function's template; at a call they are inserted into the
arena before the call, and the call becomes a copy of the template's result. The `remap` field of
a template value is scratch state: it holds the reference that stands for the value at the call
that is inlined.
-/

namespace Native

open Buffers

/-- The range of a function's template in the table, and its result. -/
structure InlineRange where
  base : Nat := 0
  count : Nat := 0
  result : Nat := 0
  deriving DecidableEq, Repr, Inhabited

/-- What inlining reads of the compilation context. The template table is in the state. -/
structure InlineContext where
  compile : CompileContext
  /-- The range of each signature. -/
  rangeAt : Nat → InlineRange
  /-- The table has an address. -/
  present : Bool
  used : Nat
  capacity : Nat

structure InlineState where
  arena : SsaArena
  templates : Nat → SsaValue

/-! ## Templates -/

def ssaInlineKindP : Kind → Bool
  | .literal | .parameter | .booleanLiteral | .add | .sub | .mul | .equal | .less | .bitsAnd
  | .shift | .integerCast | .addressToPointer | .pointerCast | .pointerAddress | .forward => true
  | _ => false

def ssaInlineBodyP (arena : SsaArena) : Bool :=
  arena.blockCount == 1 && !decide (12 < arena.valueCount) &&
    (arena.blocks 1).terminator == .ret &&
    checkUpTo arena.valueCount fun index => ssaInlineKindP (arena.values index).kind

def InlineRange.place (range : InlineRange) (reference : Nat) : Nat :=
  range.base + (reference - 1)

def ssaInlineTemplateAt (templates : Nat → SsaValue) (range : InlineRange) (reference : Nat) :
    SsaValue :=
  templates (range.place reference)

/-- Save a body behind the templates in use; no range is made when it does not fit. -/
def ssaInlineSaveBody (state : InlineState) (used capacity : Nat) :
    Bool × Option InlineRange × InlineState :=
  let count := state.arena.valueCount
  if capacity < used then (false, none, state)
  else if capacity - used < count then (true, none, state)
  else
    let range : InlineRange := { base := used, count, result := (state.arena.blocks 1).result }
    (true, some range, { state with
      templates := (List.range' 1 count).foldl
        (fun templates index => Function.update templates (range.place index)
          (state.arena.values index)) state.templates })

def ssaInlineTemplateValueP (context : CompileContext) (templates : Nat → SsaValue)
    (range : InlineRange) (arity index : Nat) : Bool :=
  let node := ssaInlineTemplateAt templates range index
  ssaInlineKindP node.kind && irOpOperandsP node.toScalarOp (index - 1) &&
    irOpMetadataP context node.toScalarOp &&
    if node.kind = .parameter then irReferenceP node.value arity else true

def ssaInlineTemplateP (context : InlineContext) (templates : Nat → SsaValue)
    (signature : Nat) : Bool :=
  let range := context.rangeAt signature
  context.present && (context.compile.signatureAt signature).imported != 1 &&
    irReferenceP range.count 12 && !decide (context.capacity < context.used) &&
    !decide (context.used < range.base) && !decide (context.used - range.base < range.count) &&
    irReferenceP range.result range.count &&
    checkUpTo range.count fun index => ssaInlineTemplateValueP context.compile templates range
      (context.compile.signatureAt signature).arity index

/-! ## Making room -/

/-- `ssa_record_type`. -/
def SsaValue.irType (value : SsaValue) : IrType where
  kind := value.kind
  scalarCode := value.scalarCode
  pointee := value.pointee
  left := if value.kind = .argumentLink then value.left else 0
  right := if value.kind = .argumentLink then value.right else 0

/-- Store a value and record its type. -/
def SsaArena.storeValue (arena : SsaArena) (reference : Nat) (value : SsaValue) : SsaArena :=
  { arena with
    values := Function.update arena.values reference value
    types := Function.update arena.types reference value.irType }

def ssaInlineMoveValues (arena : SsaArena) (index position amount : Nat) : SsaArena :=
  { arena with values := moveUp position amount index arena.values }

/-- A link that enters the call enters the first new value now. -/
def ssaInlineShiftValue (position amount : Nat) (value : SsaValue) : SsaValue :=
  { value with
    left := shiftReference position amount value.left
    right := shiftReference position amount value.right
    next := if value.next = position then value.next
      else shiftReference position amount value.next }

def ssaInlineShiftValues (arena : SsaArena) (count position amount : Nat) : SsaArena :=
  (List.range' 1 count).foldl
    (fun arena index =>
      let mapped := shiftReference position amount index
      arena.storeValue mapped (ssaInlineShiftValue position amount (arena.values mapped)))
    arena

def ssaInlineShiftBlock (position amount : Nat) (block : SsaBlock) : SsaBlock :=
  { block with
    first := if block.first = position then block.first
      else shiftReference position amount block.first
    last := shiftReference position amount block.last
    condition := shiftReference position amount block.condition
    result := shiftReference position amount block.result }

def ssaInlineShiftBlocks (arena : SsaArena) (position amount : Nat) : SsaArena :=
  (List.range' 1 arena.blockCount).foldl
    (fun arena index => { arena with
      blocks := Function.update arena.blocks index
        (ssaInlineShiftBlock position amount (arena.blocks index)) })
    arena

def ssaInlineReserveValues (arena : SsaArena) (position amount : Nat) : SsaArena :=
  let count := arena.valueCount
  let arena := ssaInlineMoveValues arena count position amount
  let arena := ssaInlineShiftValues arena count position amount
  let arena := ssaInlineShiftBlocks arena position amount
  { arena with valueCount := count + amount }

/-! ## Copying a template -/

/-- The position of a valid template is at most the arity, so the walk ends with the links. -/
def ssaInlineArgument (arena : SsaArena) : Nat → Nat → Nat → Nat
  | chain, 0, _ => (arena.values chain).left
  | chain, remaining + 1, position =>
      if remaining + 1 = position then (arena.values chain).left
      else ssaInlineArgument arena (arena.values chain).right remaining position

def ssaInlineMappedValue (templates : Nat → SsaValue) (range : InlineRange) (reference : Nat) : Nat :=
  if reference = 0 then 0 else (ssaInlineTemplateAt templates range reference).remap

/-- The values of a template that are not parameters, from an index on. -/
def ssaInlineCloneCount (templates : Nat → SsaValue) (range : InlineRange) : Nat → Nat → Nat
  | 0, _ => 0
  | remaining + 1, index =>
      (if (ssaInlineTemplateAt templates range index).kind = .parameter then 0 else 1) +
        ssaInlineCloneCount templates range remaining (index + 1)

/-- The copy of a template value at a destination, for a call. -/
def ssaInlineCloneOf (templates : Nat → SsaValue) (range : InlineRange) (template : SsaValue)
    (destination : Nat) (call : SsaValue) : SsaValue :=
  { template with
    left := ssaInlineMappedValue templates range template.left
    right := ssaInlineMappedValue templates range template.right
    source := call.source
    block := call.block
    next := destination + 1
    live := 1
    remap := 0 }

def InlineState.setRemap (state : InlineState) (place remap : Nat) : InlineState :=
  { state with
    templates := Function.update state.templates place
      { state.templates place with remap := remap } }

def ssaInlineCloneValue (range : InlineRange) (state : InlineState) (index destination : Nat)
    (call : SsaValue) : InlineState :=
  let clone := ssaInlineCloneOf state.templates range
    (ssaInlineTemplateAt state.templates range index) destination call
  { state with arena := state.arena.storeValue destination clone }.setRemap (range.place index)
    destination

/-- Copy the template values from an index on, a number of them. The call stands after the
destinations, so it is read as it was before. -/
def ssaInlineCloneValues (range : InlineRange) (arity : Nat) (call : SsaValue) :
    Nat → Nat → Nat → InlineState → InlineState
  | 0, _, _, state => state
  | remaining + 1, index, destination, state =>
      let template := ssaInlineTemplateAt state.templates range index
      if template.kind = .parameter then
        ssaInlineCloneValues range arity call remaining (index + 1) destination
          (state.setRemap (range.place index)
            (ssaInlineArgument state.arena call.left arity template.value))
      else
        ssaInlineCloneValues range arity call remaining (index + 1) (destination + 1)
          (ssaInlineCloneValue range state index destination call)

def ssaInlineReplaceCall (range : InlineRange) (state : InlineState) (reference : Nat) :
    InlineState :=
  let call := state.arena.values reference
  { state with
    arena := state.arena.storeValue reference
      { call with
        kind := .forward
        value := 0
        left := ssaInlineMappedValue state.templates range range.result
        right := 0
        target := 0 } }

/-! ## Calls and functions -/

def ssaInlineCall (context : InlineContext) (signature : Nat) (state : InlineState)
    (reference : Nat) : Nat × InlineState :=
  let range := context.rangeAt signature
  let amount := ssaInlineCloneCount state.templates range range.count 1
  if state.arena.valueCapacity - state.arena.valueCount < amount then (0, state)
  else
    let state := { state with arena := ssaInlineReserveValues state.arena reference amount }
    let call := state.arena.values (reference + amount)
    let state := ssaInlineCloneValues range (context.compile.signatureAt signature).arity call
      range.count 1 reference state
    (amount, ssaInlineReplaceCall range state (reference + amount))

def ssaInlineCheckCalls (context : InlineContext) (state : InlineState) : Bool :=
  checkUpTo state.arena.valueCount fun index =>
    let value := state.arena.values index
    if value.kind = .call then
      (context.rangeAt (value.target - 1)).count == 0 ||
        ssaInlineTemplateP context state.templates (value.target - 1)
    else true

def ssaInlineStep (context : InlineContext) (state : InlineState) (reference : Nat) :
    Nat × InlineState :=
  let value := state.arena.values reference
  if value.kind = .call then
    if (context.rangeAt (value.target - 1)).count = 0 then (0, state)
    else ssaInlineCall context (value.target - 1) state reference
  else (0, state)

/-- The state of the loop, with `inline_cursor`. -/
structure InlineRun where
  state : InlineState
  cursor : Nat

def InlineRun.step (context : InlineContext) (run : InlineRun) : Option InlineRun :=
  if run.cursor < run.state.arena.valueCount + 1 then
    let (amount, state) := ssaInlineStep context run.state run.cursor
    some { state := state, cursor := run.cursor + (amount + 1) }
  else none

/-- A step moves the cursor past the values that it inserts. -/
def InlineRun.remaining (run : InlineRun) : Nat :=
  run.state.arena.valueCount + 1 - run.cursor

def ssaInlineFunction (context : InlineContext) (state : InlineState) : Bool × InlineState :=
  if !ssaInlineCheckCalls context state then (false, state)
  else
    let run := Loops.repeatStep (InlineRun.step context) InlineRun.remaining
      { state := state, cursor := 1 }
    (ssaVerifyFunction context.compile run.state.arena, run.state)

end Native
