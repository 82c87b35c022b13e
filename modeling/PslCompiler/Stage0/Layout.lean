import PslCompiler.Records.Placement
import PslCompiler.Stage0.Syntax

/-! # Structure layout in Stage 0

Structures are laid out with unbounded integers as they are registered: naturally aligned for
DEFCSTRUCT, without padding for DEFSTRUCT/PACKED. The forms below stand for the source forms after
the names of types have been read; which names a structure may have depends on symbol packages and
is a parameter.
-/

namespace Stage0

open Records

/-- A field of a structure form: a name and a type, or something else. -/
inductive FieldForm
  | field (name : String) (type : Ty)
  | malformed
  deriving DecidableEq, Repr

structure StructureForm where
  name : String
  fields : List FieldForm
  packed : Bool := false
  deriving DecidableEq, Repr

structure FieldLayout where
  name : String
  type : Ty
  offset : Nat
  deriving DecidableEq, Repr

/-- A registered structure; its `kind` is whether it is packed. -/
structure PackedLayout where
  name : String
  fields : List FieldLayout
  size : Nat
  alignment : Nat
  packed : Bool
  deriving DecidableEq, Repr

abbrev Layouts := String → Option PackedLayout

/-- Read a type: a structure must be registered, also behind a pointer, and a pointer never leads
to a managed value. -/
def readType (layouts : Layouts) : Ty → Check Unit
  | .struct name =>
      require (layouts name).isSome ("machine type " ++ name ++ " is not implemented yet")
  | .ptr pointee _ _ => do
      require (pointee != .value) "raw pointers to managed values are not supported"
      readType layouts pointee
  | .boolean => .error "machine type BOOLEAN is not implemented yet"
  | _ => .ok ()

def typeSize (pointerBits : Nat) (layouts : Layouts) (type : Ty) : Check Nat :=
  match type with
  | .value => .ok 8
  | .f32 => .ok 4
  | .f64 => .ok 8
  | .ptr _ _ _ => .ok (pointerBits / 8)
  | .struct name =>
      match layouts name with
      | some layout => .ok layout.size
      | none => .error ("unknown structure " ++ name)
  | type =>
      match type.typeWidth pointerBits with
      | some width => .ok (width / 8)
      | none => .error ("type " ++ type.print ++ " has no fixed layout")

def typeAlignment (pointerBits : Nat) (layouts : Layouts) (type : Ty) : Check Nat :=
  match type with
  | .struct name =>
      match layouts name with
      | some layout => .ok layout.alignment
      | none => .error ("unknown structure " ++ name)
  | type => typeSize pointerBits layouts type

/-- The alignment times the rounded-up quotient. -/
def alignOffset (offset alignment : Nat) : Nat :=
  roundUp offset alignment

def parseLayoutField (pointerBits : Nat) (layouts : Layouts) (form : FieldForm) (offset : Nat)
    (cLayoutP : Bool) : Check (FieldLayout × Nat) :=
  match form with
  | .malformed => .error "invalid structure field"
  | .field name type => do
      readType layouts type
      let alignedOffset ← (if cLayoutP then
          (typeAlignment pointerBits layouts type).map (alignOffset offset)
        else .ok offset : Check Nat)
      require (type != .value)
        "managed values require a traced runtime object, not a raw structure field"
      let size ← typeSize pointerBits layouts type
      return (⟨name, type, alignedOffset⟩, alignedOffset + size)

/-- The fields so far, latest first, with the next offset and the alignment. -/
structure FieldsSoFar where
  fields : List FieldLayout := []
  offset : Nat := 0
  alignment : Nat := 1

def registerField (pointerBits : Nat) (layouts : Layouts) (structureName : String)
    (cLayoutP : Bool) (soFar : FieldsSoFar) (form : FieldForm) : Check FieldsSoFar := do
  let (field, nextOffset) ← parseLayoutField pointerBits layouts form soFar.offset cLayoutP
  require (!soFar.fields.any fun other => other.name == field.name)
    ("duplicate field " ++ field.name ++ " in " ++ structureName)
  let alignment ← (if cLayoutP then
      (typeAlignment pointerBits layouts field.type).map (max soFar.alignment)
    else .ok soFar.alignment : Check Nat)
  return ⟨field :: soFar.fields, nextOffset, alignment⟩

def registerFields (pointerBits : Nat) (layouts : Layouts) (structureName : String)
    (cLayoutP : Bool) : FieldsSoFar → List FieldForm → Check FieldsSoFar
  | soFar, [] => .ok soFar
  | soFar, form :: rest => do
      let next ← registerField pointerBits layouts structureName cLayoutP soFar form
      registerFields pointerBits layouts structureName cLayoutP next rest

def registerStructure (pointerBits : Nat) (ensureUserName : String → Check Unit)
    (layouts : Layouts) (form : StructureForm) : Check Layouts := do
  require (!form.fields.isEmpty) "expected structure name followed by typed fields"
  ensureUserName form.name
  require (layouts form.name).isNone ("duplicate structure " ++ form.name)
  let done ← registerFields pointerBits layouts form.name (!form.packed) {} form.fields
  return Function.update layouts form.name
    (some ⟨form.name, done.fields.reverse, alignOffset done.offset done.alignment, done.alignment,
      form.packed⟩)

def registerStructures (pointerBits : Nat) (ensureUserName : String → Check Unit) :
    Layouts → List StructureForm → Check Layouts
  | layouts, [] => .ok layouts
  | layouts, form :: rest => do
      let next ← registerStructure pointerBits ensureUserName layouts form
      registerStructures pointerBits ensureUserName next rest

end Stage0
