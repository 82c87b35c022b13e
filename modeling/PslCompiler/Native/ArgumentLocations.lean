import PslCompiler.Native.AggregateTypes
import PslCompiler.Calling.Assignment

/-! # Argument locations in the backends

Each backend goes through the parameters with counters of general registers, floating-point registers
and stack slots, and gives every parameter a location. A location is one number: its class in the
high word, and the register or the slot in the low word. The caller sends the pieces of an argument
to the places that the location stands for, and the callee reads them there.
-/

namespace Native

open Stage0 Calling

/-! ## Locations -/

def nativeAbiLocation (kind index : Nat) : Nat :=
  kind * 2 ^ 32 + index

def nativeAbiLocationClass (location : Nat) : Nat :=
  location / 2 ^ 32

def nativeAbiLocationIndex (location : Nat) : Nat :=
  location % 2 ^ 32

/-- Class 1 is a general register, class 2 a floating-point one, and all else is on the stack. -/
def locationPlace (location : Nat) : Place :=
  if nativeAbiLocationClass location = 1 then .general (nativeAbiLocationIndex location)
  else if nativeAbiLocationClass location = 2 then .floating (nativeAbiLocationIndex location)
  else .stack (nativeAbiLocationIndex location)

/-- How a backend goes from one parameter to the next: the location of a parameter, from the counters
before it, and the counters after it. -/
structure LocationRules where
  location : Ty → Used → Nat
  nextGp : Ty → Nat → Nat → Nat
  nextFp : Ty → Nat → Nat → Nat
  nextStack : Ty → Nat → Nat → Nat

namespace LocationRules

/-- The counters after a parameter. -/
def advance (rules : LocationRules) (type : Ty) (used : Used) : Used :=
  let location := rules.location type used
  ⟨rules.nextGp type location used.general, rules.nextFp type location used.floating,
    rules.nextStack type location used.stack⟩

/-- The location of the parameter with an index. -/
def paramLocation (rules : LocationRules) : List Ty → Nat → Used → Nat
  | [], _, _ => 0
  | type :: _, 0, used => rules.location type used
  | type :: rest, index + 1, used => rules.paramLocation rest index (rules.advance type used)

/-- The stack slots that all parameters take. -/
def stackCount (rules : LocationRules) : List Ty → Used → Nat
  | [], used => used.stack
  | type :: rest, used => rules.stackCount rest (rules.advance type used)

end LocationRules

section Backends

variable (tables : LayoutContext)

/-! ## System V -/

/-- The class of a word of a record: floating-point unless a field in it is not. -/
def x86AggregateClassScan (part : Nat) : List Nat → Nat → Nat
  | [], found => if found = 0 then 1 else found
  | leaf :: rest, found =>
      if nativeAggregateLeafOffset leaf >>> 3 = part then
        if nativeAbiFloatP (nativeAggregateLeafCode leaf) then x86AggregateClassScan part rest 2
        else 1
      else x86AggregateClassScan part rest found

def x86AggregateClass (type : Ty) (part : Nat) : Nat :=
  x86AggregateClassScan part (aggregateLeaves tables type) 0

/-- The words of a class among the first words. -/
def x86AggregateClassCount (type : Ty) (kind words : Nat) : Nat :=
  (List.range words).countP fun part => x86AggregateClass tables type part = kind

def x86LirArgumentLocation (code : Nat) (used : Used) : Nat :=
  if nativeAbiFloatP code then
    if used.floating < 8 then nativeAbiLocation 2 used.floating
    else nativeAbiLocation 3 used.stack
  else if used.general < 6 then nativeAbiLocation 1 used.general
  else nativeAbiLocation 3 used.stack

def x86AggregateLocation (type : Ty) (used : Used) : Nat :=
  let code := scalarTypeCode tables.layouts type
  if code = 16 then
    let words := nativeAggregateWords tables.layouts type
    if 6 < used.general + x86AggregateClassCount tables type 1 words ∨
        8 < used.floating + x86AggregateClassCount tables type 2 words then
      nativeAbiLocation 3 used.stack
    else nativeAbiLocation 4 (used.general + used.floating * 16)
  else x86LirArgumentLocation code used

def x86AggregateNextRegister (kind : Nat) (type : Ty) (location count : Nat) : Nat :=
  if nativeAbiLocationClass location = 4 then
    count + x86AggregateClassCount tables type kind (nativeAggregateWords tables.layouts type)
  else if nativeAbiLocationClass location = kind then count + 1
  else count

def x86Rules : LocationRules where
  location := x86AggregateLocation tables
  nextGp := x86AggregateNextRegister tables 1
  nextFp := x86AggregateNextRegister tables 2
  nextStack type location stack :=
    if nativeAbiLocationClass location = 3 then stack + nativeAggregateWords tables.layouts type
    else stack

def x86LirParamLocation (parameters : List Ty) (index : Nat) : Nat :=
  (x86Rules tables).paramLocation parameters index {}

/-- The location of a word of a record. -/
def x86AggregatePartLocation (type : Ty) (location part : Nat) : Nat :=
  let index := nativeAbiLocationIndex location
  if nativeAbiLocationClass location = 4 then
    let kind := x86AggregateClass tables type part
    nativeAbiLocation kind
      ((if kind = 1 then index &&& 15 else index >>> 4) + x86AggregateClassCount tables type kind part)
  else nativeAbiLocation (nativeAbiLocationClass location) (index + part)

/-- Where the caller puts the words of an argument. -/
def x86AggregateSendPart (type : Ty) (location : Nat) : List Place :=
  if scalarTypeCode tables.layouts type = 16 then
    (List.range (nativeAggregateWords tables.layouts type)).map fun part =>
      locationPlace (x86AggregatePartLocation tables type location part)
  else [locationPlace location]

/-- Where the callee reads the words of an argument. -/
def x86LirLoadArgument (type : Ty) (location : Nat) : List Place :=
  if scalarTypeCode tables.layouts type = 16 then
    (List.range (nativeAggregateWords tables.layouts type)).map fun part =>
      locationPlace (x86AggregatePartLocation tables type location part)
  else [locationPlace location]

/-- The end of the last stack slot, from the last argument of a call to the first. -/
def x86LirCallStackSlots (parameters : List Ty) : Nat → Nat → Nat
  | 0, largest => largest
  | remaining + 1, largest =>
      let location := x86LirParamLocation tables parameters remaining
      x86LirCallStackSlots parameters remaining
        (if nativeAbiLocationClass location = 3 then
          let stop := nativeAbiLocationIndex location +
            nativeAggregateWords tables.layouts (parameters.getD remaining .void)
          if largest < stop then stop else largest
        else largest)

/-! ## AAPCS64 -/

def a64LirArgumentLocation (code : Nat) (used : Used) : Nat :=
  if nativeAbiFloatP code then
    if used.floating < 8 then nativeAbiLocation 2 used.floating
    else nativeAbiLocation 3 used.stack
  else if used.general < 8 then nativeAbiLocation 1 used.general
  else nativeAbiLocation 3 used.stack

def a64AggregateLocation (type : Ty) (used : Used) : Nat :=
  let code := scalarTypeCode tables.layouts type
  if code = 16 then
    if 0 < nativeAggregateHfaCode tables type then
      if 8 < used.floating + nativeAggregateLeafCount tables type then
        nativeAbiLocation 5 used.stack
      else nativeAbiLocation 4 used.floating
    else if nativeAggregateWords tables.layouts type = 2 then
      if used.general < 7 then nativeAbiLocation 1 used.general
      else nativeAbiLocation 3 used.stack
    else a64LirArgumentLocation code used
  else a64LirArgumentLocation code used

def a64LirArgumentNextFp (location fp : Nat) : Nat :=
  if nativeAbiLocationClass location = 2 then fp + 1 else fp

def a64AggregateNextFp (type : Ty) (location fp : Nat) : Nat :=
  if nativeAbiLocationClass location = 4 then fp + nativeAggregateLeafCount tables type
  else if nativeAbiLocationClass location = 5 then 8
  else a64LirArgumentNextFp location fp

def a64AggregateNextGp (location words gp : Nat) : Nat :=
  if nativeAbiLocationClass location = 1 then gp + words
  else if nativeAbiLocationClass location = 3 ∧ words = 2 then 8
  else gp

def a64AggregateNextStack (location words stack : Nat) : Nat :=
  if nativeAbiLocationClass location = 3 ∨ nativeAbiLocationClass location = 5 then stack + words
  else stack

def a64Rules : LocationRules where
  location := a64AggregateLocation tables
  nextGp type location := a64AggregateNextGp location (nativeAggregateWords tables.layouts type)
  nextFp := a64AggregateNextFp tables
  nextStack type location :=
    a64AggregateNextStack location (nativeAggregateWords tables.layouts type)

def a64LirParamLocation (parameters : List Ty) (index : Nat) : Nat :=
  (a64Rules tables).paramLocation parameters index {}

def a64LirCallStackCount (parameters : List Ty) : Nat :=
  (a64Rules tables).stackCount parameters {}

/-- The stack location of a record of floating-point fields that finds no registers. -/
def a64StackLocation (location : Nat) : Nat :=
  if nativeAbiLocationClass location = 5 then
    nativeAbiLocation 3 (nativeAbiLocationIndex location)
  else location

/-- Consecutive words from a location on. -/
def locationWords (location words : Nat) : List Place :=
  (List.range words).map fun part =>
    locationPlace (nativeAbiLocation (nativeAbiLocationClass location)
      (nativeAbiLocationIndex location + part))

/-- The registers of the fields of a record, one for each. -/
def a64AggregateFields (type : Ty) (fp : Nat) : List Place :=
  (List.range (aggregateLeaves tables type).length).map fun index =>
    locationPlace (nativeAbiLocation 2 (fp + index))

def a64AggregateSend (type : Ty) (location : Nat) : List Place :=
  if nativeAbiLocationClass location = 4 then
    a64AggregateFields tables type (nativeAbiLocationIndex location)
  else locationWords (a64StackLocation location) (nativeAggregateWords tables.layouts type)

def a64LirLoadArgument (type : Ty) (location : Nat) : List Place :=
  if scalarTypeCode tables.layouts type = 16 then
    if nativeAbiLocationClass location = 4 then
      a64AggregateFields tables type (nativeAbiLocationIndex location)
    else locationWords (a64StackLocation location) (nativeAggregateWords tables.layouts type)
  else [locationPlace location]

/-! ## LP64D -/

def rvAggregateSpecialP (type : Ty) : Bool :=
  let count := nativeAggregateLeafCount tables type
  let floats := nativeAggregateFloatLeafCount (aggregateLeaves tables type)
  !(2 < count || floats = 0)

def rvAggregateFieldCount (type : Ty) (floating : Bool) : Nat :=
  let floats := nativeAggregateFloatLeafCount (aggregateLeaves tables type)
  if floating then floats else nativeAggregateLeafCount tables type - floats

def rvLirArgumentLocation (code : Nat) (used : Used) : Nat :=
  if nativeAbiFloatP code then
    if used.floating < 8 then nativeAbiLocation 2 used.floating
    else if used.general < 8 then nativeAbiLocation 1 used.general
    else nativeAbiLocation 3 used.stack
  else if used.general < 8 then nativeAbiLocation 1 used.general
  else nativeAbiLocation 3 used.stack

def rvAggregateGeneralLocation (type : Ty) (used : Used) : Nat :=
  if nativeAggregateWords tables.layouts type = 2 then
    if used.general < 7 then nativeAbiLocation 1 used.general
    else if used.general = 7 then nativeAbiLocation 4 used.stack
    else nativeAbiLocation 3 used.stack
  else rvLirArgumentLocation (scalarTypeCode tables.layouts type) used

def rvAggregateLocation (type : Ty) (used : Used) : Nat :=
  if scalarTypeCode tables.layouts type = 16 ∧ rvAggregateSpecialP tables type = true then
    if 8 < used.general + rvAggregateFieldCount tables type false ∨
        8 < used.floating + rvAggregateFieldCount tables type true then
      rvAggregateGeneralLocation tables type used
    else nativeAbiLocation 5 (used.general + used.floating * 16)
  else rvAggregateGeneralLocation tables type used

def rvAggregateNextGp (type : Ty) (location gp : Nat) : Nat :=
  if nativeAbiLocationClass location = 5 then gp + rvAggregateFieldCount tables type false
  else if nativeAbiLocationClass location = 1 then gp + nativeAggregateWords tables.layouts type
  else if nativeAbiLocationClass location = 4 then 8
  else gp

def rvLirNextFp (location fp : Nat) : Nat :=
  if nativeAbiLocationClass location = 2 then fp + 1 else fp

def rvAggregateNextFp (type : Ty) (location fp : Nat) : Nat :=
  if nativeAbiLocationClass location = 5 then fp + rvAggregateFieldCount tables type true
  else rvLirNextFp location fp

def rvAggregateNextStack (location words stack : Nat) : Nat :=
  if nativeAbiLocationClass location = 3 then stack + words
  else if nativeAbiLocationClass location = 4 then stack + 1
  else stack

def rvRules : LocationRules where
  location := rvAggregateLocation tables
  nextGp := rvAggregateNextGp tables
  nextFp := rvAggregateNextFp tables
  nextStack type location :=
    rvAggregateNextStack location (nativeAggregateWords tables.layouts type)

def rvLirParamLocation (parameters : List Ty) (index : Nat) : Nat :=
  (rvRules tables).paramLocation parameters index {}

def rvLirStackCount (parameters : List Ty) : Nat :=
  (rvRules tables).stackCount parameters {}

/-- Class 4 is the last general register for the first word and the stack for the second. -/
def rvAggregatePartLocation (location part : Nat) : Nat :=
  let kind := nativeAbiLocationClass location
  let index := nativeAbiLocationIndex location
  if kind = 4 then if part = 0 then nativeAbiLocation 1 7 else nativeAbiLocation 3 index
  else nativeAbiLocation kind (index + part)

/-- The fields of a register file before a field. -/
def rvAggregateFieldRegisterIndex (leaves : List Nat) (stop : Nat) (floating : Bool) : Nat :=
  (leaves.take stop).countP fun leaf => nativeAbiFloatP (nativeAggregateLeafCode leaf) = floating

def rvAggregateFieldLocation (type : Ty) (location index : Nat) : Nat :=
  let packet := nativeAbiLocationIndex location
  let floating := nativeAbiFloatP (nativeAggregateLeafCode (nativeAggregateLeaf tables type index))
  nativeAbiLocation (if floating then 2 else 1)
    ((if floating then packet >>> 4 else packet &&& 15) +
      rvAggregateFieldRegisterIndex (aggregateLeaves tables type) index floating)

def rvAggregateFields (type : Ty) (location : Nat) : List Place :=
  (List.range (aggregateLeaves tables type).length).map fun index =>
    locationPlace (rvAggregateFieldLocation tables type location index)

/-- The caller writes what is not in a general register to the stack. -/
def rvSendPlace (location : Nat) : Place :=
  if nativeAbiLocationClass location = 1 then .general (nativeAbiLocationIndex location)
  else .stack (nativeAbiLocationIndex location)

def rvAggregateSend (type : Ty) (location : Nat) : List Place :=
  if nativeAbiLocationClass location = 5 then rvAggregateFields tables type location
  else if scalarTypeCode tables.layouts type = 16 then
    (List.range (nativeAggregateWords tables.layouts type)).map fun part =>
      rvSendPlace (rvAggregatePartLocation location part)
  else [locationPlace location]

def rvLirLoadArgument (type : Ty) (location : Nat) : List Place :=
  if scalarTypeCode tables.layouts type = 16 then
    if nativeAbiLocationClass location = 5 then rvAggregateFields tables type location
    else
      (List.range (nativeAggregateWords tables.layouts type)).map fun part =>
        locationPlace (rvAggregatePartLocation location part)
  else [locationPlace location]

/-! ## Microsoft x64 -/

def nativeAggregateWordSizeP (size : Nat) : Bool :=
  size = 1 || size = 2 || size = 4 || size = 8

/-- Records of other sizes than a power of two up to eight are passed by their address. -/
def win64AggregateIndirectP (type : Ty) : Bool :=
  scalarTypeCode tables.layouts type = 16 &&
    !nativeAggregateWordSizeP (sourceTypeSize tables.layouts type)

/-- The positions that the address of the result takes. -/
def win64AggregateHidden (types : FunctionTypes) : Nat :=
  if win64AggregateIndirectP tables types.result then 1 else 0

def win64LirArgumentLocation (code position : Nat) : Nat :=
  if position < 4 then
    if nativeAbiFloatP code then nativeAbiLocation 2 position else nativeAbiLocation 1 position
  else nativeAbiLocation 3 position

def win64AggregateLocation (types : FunctionTypes) (index : Nat) : Nat :=
  let position := index + win64AggregateHidden tables types
  let type := types.parameters.getD index .void
  if win64AggregateIndirectP tables type then
    nativeAbiLocation (if position < 4 then 4 else 5) position
  else win64LirArgumentLocation (scalarTypeCode tables.layouts type) position

/-- The first four positions are registers, the others follow each other on the stack. -/
def win64AggregateSend (location : Nat) : List Place :=
  let position := nativeAbiLocationIndex location
  if nativeAbiLocationClass location = 2 then [.floating position]
  else if position < 4 then [.general position]
  else [.stack (position + 1 - 5)]

/-- A parameter by its number, from one. -/
def win64LoadParameter (index : Nat) : Place :=
  if 4 < index then .stack (index - 5) else .general (index - 1)

def win64LirLoadAbiParameter (location : Nat) : List Place :=
  let position := nativeAbiLocationIndex location
  if nativeAbiLocationClass location = 1 then [win64LoadParameter (position + 1)]
  else if nativeAbiLocationClass location = 2 then [.floating position]
  else [win64LoadParameter (position + 1)]

/-- The address of the result is the first argument. -/
def win64AggregateHiddenArgument (types : FunctionTypes) : List (List Place) :=
  if win64AggregateHidden tables types = 0 then [] else [[.general 0]]

/-- At its return a function reads the address from its first parameter. -/
def win64HiddenParameter (types : FunctionTypes) : List (List Place) :=
  if win64AggregateIndirectP tables types.result then [[win64LoadParameter 1]] else []

/-- The positions of a call beyond the registers. -/
def win64StackSlots (types : FunctionTypes) : Nat :=
  let count := types.parameters.length + win64AggregateHidden tables types
  if 4 < count then count - 4 else 0

def win64AlignFrame (bytes : Nat) : Nat :=
  (bytes + 15) / 16 * 16

/-- The bytes that a call needs below its frame, and zero when there are too many. -/
def win64AggregateOutgoing (types : FunctionTypes) : Nat :=
  let count := types.parameters.length + win64AggregateHidden tables types
  if 268435445 < count then 0
  else
    let base := win64AlignFrame (32 + 8 * win64StackSlots tables types)
    if types.parameters.any (win64AggregateIndirectP tables) then
      if 89478480 < count then 0 else base + count * 16
    else base

end Backends

end Native
