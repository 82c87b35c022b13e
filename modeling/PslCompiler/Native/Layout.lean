import PslCompiler.Stage0.Layout

/-! # Structure layout in the native compiler

Structures are laid out in 64-bit words. The table of structures and the table of all their fields
have fixed capacities; a registration that fails may leave fields behind that no structure names.
Types and structure forms are the same source forms that Stage 0 reads; the spelling check of
names is a parameter.
-/

namespace Native

open Records Stage0

/-! ## Words -/

/-- The number of machine words. -/
def wordLimit : Nat := 2 ^ 64

def wrapAdd (left right : Nat) : Nat :=
  (left + right) % wordLimit

theorem wrapAdd_eq {left right : Nat} (below : left + right < wordLimit) :
    wrapAdd left right = left + right :=
  Nat.mod_eq_of_lt below

def wrapSub (left right : Nat) : Nat :=
  (left + (wordLimit - right % wordLimit)) % wordLimit

def layoutRoundUp (value alignment : Nat) : Nat :=
  wrapAdd value (wrapSub alignment 1) &&& wrapSub 0 alignment

/-! ## Tables -/

/-- The shape kinds 1 to 5. -/
inductive ShapeKind
  | scalar | pointer | aggregate | void | value
  deriving DecidableEq, Repr

/-- `native_type_shape`, without the pointee, which layouts do not read. -/
structure TypeShape where
  size : Nat
  alignment : Nat
  kind : ShapeKind
  deriving DecidableEq, Repr

structure LayoutField where
  name : String
  typeAst : Ty
  offset : Nat
  size : Nat
  alignment : Nat
  deriving DecidableEq, Repr

structure Layout where
  name : String
  first : Nat
  count : Nat := 0
  size : Nat := 0
  alignment : Nat := 1
  packed : Bool
  deriving DecidableEq, Repr

structure LayoutContext where
  layouts : List Layout := []
  layoutCapacity : Nat
  fields : List LayoutField := []
  fieldCapacity : Nat
  error : Nat := 0
  deriving DecidableEq, Repr

/-- The fields of a structure in the table of fields. -/
def Layout.fieldsIn (layout : Layout) (fields : List LayoutField) : List LayoutField :=
  (fields.drop layout.first).take layout.count

def nativeFindLayout (layouts : List Layout) (name : String) : Option Layout :=
  layouts.find? fun layout => layout.name == name

/-! ## Types -/

/-- The size of an integer or floating-point type, and zero for other types. -/
def layoutPrimitiveSize : Ty → Nat
  | .u8 | .s8 => 1
  | .u16 | .s16 => 2
  | .u32 | .s32 | .f32 => 4
  | .u64 | .s64 | .usize | .isize | .f64 => 8
  | _ => 0

def nativeResolveType (layouts : List Layout) : Ty → Option TypeShape
  | .value => some ⟨8, 8, .value⟩
  | .void => some ⟨0, 1, .void⟩
  | .ptr pointee _ _ =>
      match nativeResolveType layouts pointee with
      | some shape => if shape.kind = .value then none else some ⟨8, 8, .pointer⟩
      | none => none
  | .struct name =>
      match nativeFindLayout layouts name with
      | some layout => some ⟨layout.size, layout.alignment, .aggregate⟩
      | none => none
  | type =>
      if 0 < layoutPrimitiveSize type then
        some ⟨layoutPrimitiveSize type, layoutPrimitiveSize type, .scalar⟩
      else none

/-! ## Fields -/

/-- Append a field at the next aligned offset unless an end would leave the words. -/
def layoutCommitField (context : LayoutContext) (layout : Layout) (name : String) (type : Ty)
    (shape : TypeShape) : LayoutContext × Layout × Bool :=
  let alignment := if layout.packed then 1 else shape.alignment
  let aligned := layoutRoundUp layout.size alignment
  if aligned < layout.size then (context, layout, false)
  else if wrapSub 0 shape.size < aligned then (context, layout, false)
  else
    ({ context with fields := context.fields ++ [⟨name, type, aligned, shape.size, alignment⟩] },
      { layout with
        count := layout.count + 1
        size := wrapAdd aligned shape.size
        alignment := if layout.alignment < alignment then alignment else layout.alignment },
      true)

section Register

variable (identifierP : String → Bool)

def layoutAddNamedField (context : LayoutContext) (name : String) (type : Ty) (layout : Layout) :
    LayoutContext × Layout × Bool :=
  if (layout.fieldsIn context.fields).any fun field => field.name == name then
    (context, layout, false)
  else
    match nativeResolveType context.layouts type with
    | none => (context, layout, false)
    | some shape =>
        if shape.kind = .void ∨ shape.kind = .value then (context, layout, false)
        else layoutCommitField context layout name type shape

def layoutAddField (context : LayoutContext) (form : FieldForm) (layout : Layout) :
    LayoutContext × Layout × Bool :=
  if context.fields.length = context.fieldCapacity then (context, layout, false)
  else
    match form with
    | .malformed => (context, layout, false)
    | .field name type =>
        if identifierP name then layoutAddNamedField context name type layout
        else (context, layout, false)

def layoutAddFields : LayoutContext → Layout → List FieldForm → LayoutContext × Layout × Bool
  | context, layout, [] => (context, layout, true)
  | context, layout, form :: rest =>
      match layoutAddField identifierP context form layout with
      | (context, layout, true) => layoutAddFields context layout rest
      | failed => failed

/-! ## Registration -/

def nativeRegisterLayoutMode (context : LayoutContext) (name : String) (fields : List FieldForm)
    (packed : Bool) : LayoutContext × Bool :=
  if fields.isEmpty ∨ name = "value" then (context, false)
  else
    match layoutAddFields identifierP context
        { name, first := context.fields.length, packed } fields with
    | (context, _, false) => ({ context with error := 1 }, false)
    | (context, layout, true) =>
        let rounded := layoutRoundUp layout.size layout.alignment
        if rounded < layout.size then ({ context with error := 1 }, false)
        else
          ({ context with layouts := context.layouts ++ [{ layout with size := rounded }] }, true)

/-- The checks that DEFCSTRUCT and DEFSTRUCT/PACKED share before they lay a structure out. -/
def registerForm (context : LayoutContext) (form : StructureForm) : LayoutContext × Bool :=
  if identifierP form.name = false then (context, false)
  else if (nativeFindLayout context.layouts form.name).isSome then (context, false)
  else if context.layouts.length = context.layoutCapacity then (context, false)
  else nativeRegisterLayoutMode identifierP context form.name form.fields form.packed

def nativeRegisterLayout (context : LayoutContext) (name : String) (fields : List FieldForm) :
    LayoutContext × Bool :=
  registerForm identifierP context ⟨name, fields, false⟩

def nativeRegisterPackedLayout (context : LayoutContext) (name : String) (fields : List FieldForm) :
    LayoutContext × Bool :=
  registerForm identifierP context ⟨name, fields, true⟩

/-- Register a form by its head. -/
def nativeRegister (context : LayoutContext) (form : StructureForm) : LayoutContext × Bool :=
  if form.packed then nativeRegisterPackedLayout identifierP context form.name form.fields
  else nativeRegisterLayout identifierP context form.name form.fields

/-- Register forms in order and collect those that are accepted. -/
def registerAll : LayoutContext → List StructureForm → LayoutContext × List StructureForm
  | context, [] => (context, [])
  | context, form :: rest =>
      let after := nativeRegister identifierP context form
      let last := registerAll after.1 rest
      (last.1, if after.2 then form :: last.2 else last.2)

end Register

end Native
