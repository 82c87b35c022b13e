import PslCompiler.Calling.Assignment
import PslCompiler.Stage0.Layout

/-! # The C ABI in Stage 0

Records of at most sixteen bytes are classified when they are declared, and each backend goes through
the types of a signature with counters of the registers and the stack that are taken. Records nest in
records that are registered before them; the functions that go down into a record take a number of
levels, of which as many as there are records are enough.
-/

namespace Stage0

open Calling

/-! ## Targets -/

/-- The calling conventions of the targets. -/
inductive Abi
  | sysvAmd64
  | win64
  | aapcs64
  | lp64d
  deriving DecidableEq, Repr

/-- The registers of a target for arguments that are no floating-point numbers, by their number in
instructions. -/
def Abi.argumentRegisters : Abi → List Nat
  | sysvAmd64 => [7, 6, 2, 1, 8, 9]
  | win64 => [1, 2, 8, 9]
  | aapcs64 => [0, 1, 2, 3, 4, 5, 6, 7]
  | lp64d => [10, 11, 12, 13, 14, 15, 16, 17]

def Abi.floatArgumentRegisters : Abi → List Nat
  | sysvAmd64 => [0, 1, 2, 3, 4, 5, 6, 7]
  | win64 => [0, 1, 2, 3]
  | aapcs64 => [0, 1, 2, 3, 4, 5, 6, 7]
  | lp64d => [10, 11, 12, 13, 14, 15, 16, 17]

/-! ## Classes of records -/

inductive WordClass
  | integer
  | sse
  deriving DecidableEq, Repr

/-- The class of a record, with the kinds of its fields where they matter: the class of each word for
System V, the common kind and the offsets of homogeneous fields or a size for AAPCS64, the fields or
a size for LP64D, and whether the record is passed by its address on Windows. -/
inductive AggregateClass (Kind : Type)
  | words (classes : List WordClass)
  | hfa (kind : Kind) (offsets : List Nat)
  | general (size : Nat)
  | rvFields (fields : List (Nat × Kind)) (size : Nat)
  | rvGeneral (size : Nat)
  | winDirect (size : Nat)
  | winIndirect (size : Nat)
  deriving DecidableEq, Repr

/-- The same class with other names for the kinds of fields. -/
def AggregateClass.map {First Second : Type} (rename : First → Second) :
    AggregateClass First → AggregateClass Second
  | words classes => words classes
  | hfa kind offsets => hfa (rename kind) offsets
  | general size => general size
  | rvFields fields size => rvFields (fields.map fun field => (field.1, rename field.2)) size
  | rvGeneral size => rvGeneral size
  | winDirect size => winDirect size
  | winIndirect size => winIndirect size

/-- The class of a word in which a field is. -/
def scalarWordClass (type : Ty) : Option WordClass :=
  if type.integerTypeP || type.pointerTypeP then some .integer
  else if type.floatTypeP then some .sse
  else none

/-- A word with an integer in it is an integer word. -/
def markWord (fieldClass : WordClass) (previous : Option WordClass) : Option WordClass :=
  if fieldClass = .integer ∨ previous = some .integer then some .integer else some .sse

section Classes

variable (layouts : Layouts)

/-- Mark the words that the scalars of a field are in, unless one of them crosses a word. -/
def markCAggregateField : Nat → Ty → Nat → List (Option WordClass) →
    Option (List (Option WordClass))
  | levels, .struct name, offset, classes =>
      match layouts name, levels with
      | some layout, levels + 1 =>
          if layout.packed then none
          else
            layout.fields.foldlM (fun classes field =>
              markCAggregateField levels field.type (offset + field.offset) classes) classes
      | _, _ => none
  | _, type, offset, classes =>
      match scalarWordClass type, typeSize 64 layouts type with
      | some fieldClass, .ok size =>
          if offset % 8 + size ≤ 8 then some (classes.modify (offset / 8) (markWord fieldClass))
          else none
      | _, _ => none

def windowsCAggregateFieldP : Nat → Ty → Bool
  | levels, .struct name =>
      match layouts name, levels with
      | some layout, levels + 1 =>
          !layout.packed && layout.fields.all fun field => windowsCAggregateFieldP levels field.type
      | _, _ => false
  | _, type => type.integerTypeP || type.pointerTypeP || type.floatTypeP

/-- The scalars of a field: itself, or those of its record, moved. -/
def leafFieldsOf (nestedLeaves : PackedLayout → Check (List (Nat × Ty))) (field : FieldLayout) :
    Check (List (Nat × Ty)) :=
  match field.type with
  | .struct name =>
      match layouts name with
      | some nested =>
          if nested.packed then .error ("unsupported nested C aggregate " ++ name)
          else (nestedLeaves nested).map fun leaves =>
            leaves.map fun leaf => (field.offset + leaf.1, leaf.2)
      | none => .error ("unsupported nested C aggregate " ++ name)
  | type => .ok [(field.offset, type)]

/-- The scalars of a record with their offsets. -/
def cLeafFields : Nat → PackedLayout → Check (List (Nat × Ty))
  | 0, _ => .error "unsupported nested C aggregate"
  | levels + 1, layout => do
      let parts ← layout.fields.mapM (leafFieldsOf layouts (cLeafFields levels))
      return parts.flatten

def aapcsAggregateClass (levels : Nat) (layout : PackedLayout) :
    Check (Option (AggregateClass Ty)) := do
  let leaves ← cLeafFields layouts levels layout
  return match leaves with
    | [] => none
    | first :: rest =>
        if leaves.all fun leaf =>
            leaf.2.integerTypeP || leaf.2.pointerTypeP || leaf.2.floatTypeP then
          if leaves.length ≤ 4 && first.2.floatTypeP && rest.all fun leaf => leaf.2 = first.2 then
            some (.hfa first.2 (leaves.map Prod.fst))
          else some (.general layout.size)
        else none

def riscvAggregateClass (levels : Nat) (layout : PackedLayout) :
    Check (Option (AggregateClass Ty)) := do
  let leaves ← cLeafFields layouts levels layout
  let floats := leaves.countP fun leaf => leaf.2.floatTypeP
  let integers := leaves.countP fun leaf => leaf.2.integerTypeP || leaf.2.pointerTypeP
  return if !leaves.isEmpty && floats + integers = leaves.length then
      if floats = 1 ∧ integers = 0 ∨ floats = 2 ∧ integers = 0 ∨ floats = 1 ∧ integers = 1 then
        some (.rvFields leaves layout.size)
      else some (.rvGeneral layout.size)
    else none

/-- The class of a record type that can be passed by value. -/
def cAggregateClasses (abi : Abi) (levels : Nat) : Ty → Check (Option (AggregateClass Ty))
  | .struct name =>
      match layouts name with
      | none => .ok none
      | some layout =>
          if layout.packed = true ∨ layout.size < 1 ∨ 16 < layout.size then .ok none
          else
            match abi with
            | .aapcs64 => aapcsAggregateClass layouts levels layout
            | .lp64d => riscvAggregateClass layouts levels layout
            | .win64 =>
                .ok (if layout.fields.all fun field =>
                    windowsCAggregateFieldP layouts levels field.type then
                  some (if layout.size ∈ [1, 2, 4, 8] then .winDirect layout.size
                    else .winIndirect layout.size)
                else none)
            | .sysvAmd64 =>
                .ok ((layout.fields.foldlM (fun classes field =>
                  markCAggregateField layouts levels field.type field.offset classes)
                    (List.replicate ((layout.size + 7) / 8) none)).map fun classes =>
                  .words (classes.map fun word => word.getD .integer))
  | _ => .ok none

/-! ## Signatures -/

def supportedAbiArgumentTypeP (abi : Abi) (levels : Nat) (type : Ty) : Check Bool :=
  if type.integerTypeP || type.pointerTypeP || type = .value || type.floatTypeP then .ok true
  else (cAggregateClasses layouts abi levels type).map Option.isSome

def supportedAbiResultTypeP (abi : Abi) (levels : Nat) (type : Ty) : Check Bool :=
  if type = .void then .ok true else supportedAbiArgumentTypeP layouts abi levels type

/-- The class that a backend looks up for a type, none for a scalar. -/
def aggregateInfo (abi : Abi) (levels : Nat) (type : Ty) : Check (Option (AggregateClass Ty)) :=
  match type with
  | .struct name => do
      match ← cAggregateClasses layouts abi levels type with
      | some found => return some found
      | none => .error ("unsupported C aggregate ABI type " ++ name)
  | _ => .ok none

end Classes

/-! ## System V -/

/-- The location of an argument: a register, a stack word, the registers of the words of a record, or
the stack words of a record. -/
inductive SysvLocation
  | sse (register : Nat)
  | gp (register : Nat)
  | stack (index : Nat)
  | aggregateRegisters (parts : List Place)
  | aggregateStack (index count : Nat)
  deriving DecidableEq, Repr

/-- The next register for each word of a record. -/
def sysvTakeRegisters : List WordClass → Used → List Place
  | [], _ => []
  | .integer :: rest, used =>
      .general (Abi.sysvAmd64.argumentRegisters.getD used.general 0) ::
        sysvTakeRegisters rest { used with general := used.general + 1 }
  | .sse :: rest, used =>
      .floating (Abi.sysvAmd64.floatArgumentRegisters.getD used.floating 0) ::
        sysvTakeRegisters rest { used with floating := used.floating + 1 }

def sysvArgumentLocation (type : Ty) (info : Option (AggregateClass Ty)) (used : Used) :
    Check (SysvLocation × Used) :=
  let general := Abi.sysvAmd64.argumentRegisters
  let floating := Abi.sysvAmd64.floatArgumentRegisters
  if type.floatTypeP then
    if used.floating < floating.length then
      .ok (.sse (floating.getD used.floating 0), { used with floating := used.floating + 1 })
    else .ok (.stack used.stack, { used with stack := used.stack + 1 })
  else if type.integerTypeP || type.pointerTypeP || type = .value then
    if used.general < general.length then
      .ok (.gp (general.getD used.general 0), { used with general := used.general + 1 })
    else .ok (.stack used.stack, { used with stack := used.stack + 1 })
  else
    match info with
    | some (.words classes) =>
        if used.general + classes.count .integer ≤ general.length ∧
            used.floating + classes.count .sse ≤ floating.length then
          .ok (.aggregateRegisters (sysvTakeRegisters classes used),
            { used with
              general := used.general + classes.count .integer
              floating := used.floating + classes.count .sse })
        else
          .ok (.aggregateStack used.stack classes.length,
            { used with stack := used.stack + classes.length })
    | _ => .error ("unsupported System V argument type " ++ type.print)

/-- The registers, and the byte offsets on the stack, of the words of an argument. -/
def SysvLocation.places : SysvLocation → List Place
  | sse register => [.floating register]
  | gp register => [.general register]
  | stack index => [.stack (8 * index)]
  | aggregateRegisters parts => parts
  | aggregateStack index count => (List.range count).map fun part => .stack (8 * (index + part))

def sysvReturnLocations : List WordClass → Used → List Place
  | [], _ => []
  | .integer :: rest, used =>
      .general ([0, 2].getD used.general 0) ::
        sysvReturnLocations rest { used with general := used.general + 1 }
  | .sse :: rest, used =>
      .floating used.floating ::
        sysvReturnLocations rest { used with floating := used.floating + 1 }

/-- Where a result that is not a record is. -/
def scalarReturn (type : Ty) (floating general : Place) : List Place :=
  if type = .void then [] else if type.floatTypeP then [floating] else [general]

def sysvReturn (type : Ty) : Option (AggregateClass Ty) → List Place
  | some (.words classes) => sysvReturnLocations classes {}
  | _ => scalarReturn type (.floating 0) (.general 0)

/-! ## AAPCS64 -/

def scalarWidth (type : Ty) : Nat :=
  if type = .f32 then 32
  else if type.floatTypeP || type.pointerTypeP || type = .value || type = .boolean then 64
  else (type.typeWidth 64).getD 0

/-- The bytes of a record: those up to the end of the last homogeneous field. -/
def aapcsAggregateSize : AggregateClass Ty → Nat
  | .hfa type offsets => offsets.getLast?.getD 0 + scalarWidth type / 8
  | .general size => size
  | _ => 0

def aapcsAggregateWords (info : AggregateClass Ty) : Nat :=
  (aapcsAggregateSize info + 7) / 8

/-- The location of an argument; stack locations are in bytes. -/
inductive AapcsLocation
  | fp (index : Nat)
  | gp (index : Nat)
  | hfa (start : Nat) (type : Ty) (offsets : List Nat)
  | aggregateGp (start count : Nat)
  | stack (offset size : Nat)
  deriving DecidableEq, Repr

def aapcsArgumentLocation (type : Ty) (info : Option (AggregateClass Ty)) (used : Used) :
    Check (AapcsLocation × Used) :=
  if type.floatTypeP then
    if used.floating < 8 then
      .ok (.fp used.floating, { used with floating := used.floating + 1 })
    else .ok (.stack used.stack 8, { used with stack := used.stack + 8 })
  else if type.integerTypeP || type.pointerTypeP || type = .value || type = .boolean then
    if used.general < 8 then
      .ok (.gp used.general, { used with general := used.general + 1 })
    else .ok (.stack used.stack 8, { used with stack := used.stack + 8 })
  else
    match info with
    | some (.hfa kind offsets) =>
        let words := aapcsAggregateWords (.hfa kind offsets)
        if used.floating + offsets.length ≤ 8 then
          .ok (.hfa used.floating kind offsets,
            { used with floating := used.floating + offsets.length })
        else
          .ok (.stack used.stack (8 * words), { used with floating := 8, stack := used.stack + 8 * words })
    | some found =>
        let words := aapcsAggregateWords found
        if used.general + words ≤ 8 then
          .ok (.aggregateGp used.general words, { used with general := used.general + words })
        else
          .ok (.stack used.stack (8 * words), { used with general := 8, stack := used.stack + 8 * words })
    | none => .error ("unsupported AAPCS64 argument type " ++ type.print)

def AapcsLocation.places : AapcsLocation → List Place
  | fp index => [.floating index]
  | gp index => [.general index]
  | hfa start _ offsets => (List.range offsets.length).map fun part => .floating (start + part)
  | aggregateGp start count => (List.range count).map fun part => .general (start + part)
  | stack offset size => (List.range ((size + 7) / 8)).map fun part => .stack (offset + 8 * part)

def aapcsReturn (type : Ty) : Option (AggregateClass Ty) → List Place
  | some (.hfa kind offsets) => (AapcsLocation.hfa 0 kind offsets).places
  | some found => (AapcsLocation.aggregateGp 0 (aapcsAggregateWords found)).places
  | none => scalarReturn type (.floating 0) (.general 0)

/-! ## LP64D -/

def rvAggregateSize : AggregateClass Ty → Nat
  | .rvFields _ size => size
  | .rvGeneral size => size
  | _ => 0

/-- The words of a value in the general registers that are left, and then on the stack; the places
after them. -/
def generalParts : Nat → Used → List Place × Used
  | 0, used => ([], used)
  | words + 1, used =>
      let (place, next) :=
        if used.general < 8 then
          (Place.general (10 + used.general), { used with general := used.general + 1 })
        else (Place.stack used.stack, { used with stack := used.stack + 8 })
      let (parts, after) := generalParts words next
      (place :: parts, after)

def specialFieldParts : List (Nat × Ty) → Used → List Place × Used
  | [], used => ([], used)
  | field :: rest, used =>
      let (place, next) :=
        if field.2.floatTypeP then
          (Place.floating (10 + used.floating), { used with floating := used.floating + 1 })
        else (Place.general (10 + used.general), { used with general := used.general + 1 })
      let (parts, after) := specialFieldParts rest next
      (place :: parts, after)

def specialFieldsP (fields : List (Nat × Ty)) (used : Used) : Bool :=
  used.floating + fields.countP (fun field => field.2.floatTypeP) ≤ 8 &&
    used.general + fields.countP (fun field => !field.2.floatTypeP) ≤ 8

def rvArgumentLocation (type : Ty) (info : Option (AggregateClass Ty)) (used : Used) :
    List Place × Used :=
  if type.floatTypeP && used.floating < 8 then
    ([.floating (10 + used.floating)], { used with floating := used.floating + 1 })
  else
    match info with
    | some (.rvFields fields size) =>
        if specialFieldsP fields used then specialFieldParts fields used
        else generalParts ((size + 7) / 8) used
    | some found => generalParts ((rvAggregateSize found + 7) / 8) used
    | none => generalParts 1 used

/-- A result is where it would be as the only argument. -/
def rvReturn (type : Ty) (info : Option (AggregateClass Ty)) : List Place :=
  if type = .void then [] else (rvArgumentLocation type info {}).1

/-! ## Microsoft x64 -/

/-- The location of an argument: the register or the stack word of the value or of its address. -/
inductive WinLocation
  | stackPointer (index : Nat)
  | stack (index : Nat)
  | gpPointer (register : Nat)
  | sse (register : Nat)
  | gp (register : Nat)
  deriving DecidableEq, Repr

def AggregateClass.winIndirectP : Option (AggregateClass Ty) → Bool
  | some (winIndirect _) => true
  | _ => false

def winArgumentLocation (type : Ty) (info : Option (AggregateClass Ty)) (position : Nat) :
    WinLocation :=
  if 4 ≤ position then
    if AggregateClass.winIndirectP info then .stackPointer (position - 4)
    else .stack (position - 4)
  else if AggregateClass.winIndirectP info then
    .gpPointer (Abi.win64.argumentRegisters.getD position 0)
  else if type.floatTypeP then .sse position
  else .gp (Abi.win64.argumentRegisters.getD position 0)

def WinLocation.places : WinLocation → List Place
  | stackPointer index | stack index => [.stack (8 * index)]
  | gpPointer register | gp register => [.general register]
  | sse register => [.floating register]

/-- The address of a result that is passed in memory is the first argument, and is returned. -/
def winReturn (type : Ty) (_ : Option (AggregateClass Ty)) : List Place :=
  scalarReturn type (.floating 0) (.general 0)

/-! ## Signatures -/

section Signatures

variable (layouts : Layouts)

/-- Go through the types of the arguments with the places that are taken. -/
def argumentPlaces {Location : Type} (info : Ty → Check (Option (AggregateClass Ty)))
    (location : Ty → Option (AggregateClass Ty) → Used → Check (Location × Used))
    (places : Location → List Place) : List Ty → Used → Check (List (List Place))
  | [], _ => .ok []
  | type :: rest, used => do
      let found ← info type
      let (first, next) ← location type found used
      let others ← argumentPlaces info location places rest next
      return places first :: others

/-- The places of the arguments of a function, with stack places in bytes from the first stack
argument; on Windows the address of a result in memory comes first. -/
def abiArgumentLocations (abi : Abi) (levels : Nat) (signature : Signature) :
    Check (List (List Place)) :=
  let info := aggregateInfo layouts abi levels
  let types := signature.arguments
  match abi with
  | .sysvAmd64 => argumentPlaces info sysvArgumentLocation SysvLocation.places types {}
  | .aapcs64 => argumentPlaces info aapcsArgumentLocation AapcsLocation.places types {}
  | .lp64d => argumentPlaces info (fun type found used => .ok (rvArgumentLocation type found used))
      id types {}
  | .win64 => do
      let hidden := AggregateClass.winIndirectP (← info signature.result)
      let start : Used := if hidden then { general := 1 } else {}
      let others ← argumentPlaces info (fun type found used =>
        .ok (winArgumentLocation type found used.general, { used with general := used.general + 1 }))
        WinLocation.places types start
      return (if hidden then [[.general 1]] else []) ++ others

/-- The places of the result of a function. -/
def abiReturnLocations (abi : Abi) (levels : Nat) (type : Ty) : Check (List Place) := do
  let found ← aggregateInfo layouts abi levels type
  return match abi with
    | .sysvAmd64 => sysvReturn type found
    | .aapcs64 => aapcsReturn type found
    | .lp64d => rvReturn type found
    | .win64 => winReturn type found

end Signatures

end Stage0
