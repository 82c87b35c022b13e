import PslCompiler.Native.Layout
import PslCompiler.Native.VerifyOperations

/-! # Records that are passed by value

A record parameter is accepted when its layout is a natural one of at most sixteen bytes. The
backends see such a record as a sequence of scalar fields, which they look up by their number.
-/

namespace Native

open Records Stage0

/-! ## Codes -/

/-- The code of a source type. -/
def scalarTypeCode (layouts : List Layout) : Ty → Nat
  | .value => 15
  | .u64 => 1
  | .usize => 2
  | .u8 => 3
  | .u16 => 4
  | .u32 => 5
  | .s8 => 6
  | .s16 => 7
  | .s32 => 8
  | .s64 => 9
  | .isize => 10
  | .f32 => 13
  | .f64 => 14
  | .void => 12
  | .ptr pointee const volatile =>
      if (nativeResolveType layouts (.ptr pointee const volatile)).isSome then 11 else 0
  | .struct name => if (nativeFindLayout layouts name).isSome then 16 else 0
  | .boolean => 0

/-- The codes of the floating-point types. -/
def nativeAbiFloatP (code : Nat) : Bool :=
  code = 13 || code = 14

def sourceTypeSize (layouts : List Layout) (type : Ty) : Nat :=
  ((nativeResolveType layouts type).map TypeShape.size).getD 0

/-! ## Accepted records -/

/-- A pointer leads to something with a size, or to nothing in particular. -/
def sourcePointerPointeeP (layouts : List Layout) (pointee : Ty) : Bool :=
  if scalarTypeCode layouts pointee = 12 then true
  else if scalarTypeCode layouts pointee = 15 then false
  else sourceTypeSize layouts pointee ≠ 0

def sourceAggregateSizeP (size : Nat) : Bool :=
  if size = 0 then false else size < 17

/-- The type of a field is a scalar one, or a record that is accepted itself. -/
def sourceAggregateFieldTypeP (layouts : List Layout) (aggregate : Ty → Bool) (type : Ty) : Bool :=
  let code := scalarTypeCode layouts type
  if scalarValidCodeP code || nativeAbiFloatP code then true
  else
    match type with
    | .ptr pointee _ _ => code = 11 && sourcePointerPointeeP layouts pointee
    | _ => code = 16 && aggregate type

/-- A field is where its alignment puts it. The offsets of a table that is in memory stay within a
word, so they are rounded as numbers. -/
def sourceAggregateFieldShapeP (layouts : List Layout) (aggregate : Ty → Bool) (field : LayoutField)
    (offset : Nat) : Bool :=
  match nativeResolveType layouts field.typeAst with
  | none => false
  | some shape =>
      field.offset = roundUp offset shape.alignment && field.size = shape.size &&
        field.alignment = shape.alignment && sourceAggregateFieldTypeP layouts aggregate field.typeAst

/-- Check the fields of a layout that are left, from an offset and an alignment on. -/
def sourceAggregateFieldsP (layouts : List Layout) (aggregate : Ty → Bool) (layout : Layout) :
    List LayoutField → Nat → Nat → Bool
  | [], offset, alignment =>
      roundUp offset alignment = layout.size && alignment = layout.alignment
  | field :: rest, offset, alignment =>
      sourceAggregateFieldShapeP layouts aggregate field offset &&
        sourceAggregateFieldsP layouts aggregate layout rest (field.offset + field.size)
          (if alignment < field.alignment then field.alignment else alignment)

def sourceAggregateLayoutP (tables : LayoutContext) (aggregate : Ty → Bool) (layout : Layout) :
    Bool :=
  !layout.packed && sourceAggregateSizeP layout.size && layout.count ≠ 0 &&
    layout.first + layout.count ≤ tables.fields.length &&
    sourceAggregateFieldsP tables.layouts aggregate layout (layout.fieldsIn tables.fields) 0 1

/-- Check a record type with a number of nested levels that are left. -/
def sourceAggregateAtDepthP (tables : LayoutContext) : Nat → Ty → Bool
  | 0, _ => false
  | levels + 1, .struct name =>
      match nativeFindLayout tables.layouts name with
      | none => false
      | some layout => sourceAggregateLayoutP tables (sourceAggregateAtDepthP tables levels) layout
  | _ + 1, _ => false

/-- The depths from 0 to 1024 are allowed. -/
def sourceAggregateTypeP (tables : LayoutContext) (type : Ty) : Bool :=
  sourceAggregateAtDepthP tables 1025 type

/-! ## Signatures -/

/-- The types of the parameters and of the result of a function. -/
structure FunctionTypes where
  parameters : List Ty
  result : Ty
  deriving DecidableEq, Repr

/-- Whether a type can be that of a parameter; managed values need the hosted profile. -/
def scalarParameterP (tables : LayoutContext) (hosted : Bool) (type : Ty) : Bool :=
  let code := scalarTypeCode tables.layouts type
  if code = 15 then hosted
  else if code = 16 then sourceAggregateTypeP tables type
  else sourceValidCodeP code

def sourceScalarSignatureP (tables : LayoutContext) (hosted : Bool) (types : FunctionTypes) : Bool :=
  let code := scalarTypeCode tables.layouts types.result
  if code = 0 then false
  else if code = 16 then
    sourceAggregateTypeP tables types.result &&
      types.parameters.all (scalarParameterP tables hosted)
  else if code = 15 then hosted && types.parameters.all (scalarParameterP tables hosted)
  else types.parameters.all (scalarParameterP tables hosted)

/-! ## The scalar fields of a record -/

/-- A field is one number: its code in the low byte and its offset in the others. -/
def packLeaf (offset code : Nat) : Nat :=
  offset * 256 + code

def nativeAggregateLeafCode (leaf : Nat) : Nat :=
  leaf % 256

def nativeAggregateLeafOffset (leaf : Nat) : Nat :=
  leaf / 256

/-- The number of scalar fields, of those that no more than some levels are above. -/
def nativeAggregateLeafCountAtDepth (tables : LayoutContext) : Nat → Ty → Nat
  | 0, _ => 0
  | levels + 1, type =>
      match type with
      | .struct name =>
          match nativeFindLayout tables.layouts name with
          | none => 1
          | some layout =>
              ((layout.fieldsIn tables.fields).map fun field =>
                nativeAggregateLeafCountAtDepth tables levels field.typeAst).sum
      | _ => 1

/-- The depths from 0 to 128 are counted. -/
def nativeAggregateLeafCount (tables : LayoutContext) (type : Ty) : Nat :=
  nativeAggregateLeafCountAtDepth tables 129 type

/-- Find a scalar field among the fields that are left. -/
def nativeAggregateFindField (count : Ty → Nat) (leaf : Ty → Nat → Nat → Nat) :
    List LayoutField → Nat → Nat → Nat
  | [], _, _ => 0
  | field :: rest, index, offset =>
      if index < count field.typeAst then leaf field.typeAst index (offset + field.offset)
      else nativeAggregateFindField count leaf rest (index - count field.typeAst) offset

def nativeAggregateLeafAtDepth (tables : LayoutContext) : Nat → Ty → Nat → Nat → Nat
  | 0, _, _, _ => 0
  | levels + 1, type, index, offset =>
      match type with
      | .struct name =>
          match nativeFindLayout tables.layouts name with
          | none => if index = 0 then packLeaf offset (scalarTypeCode tables.layouts type) else 0
          | some layout =>
              nativeAggregateFindField (nativeAggregateLeafCountAtDepth tables levels)
                (nativeAggregateLeafAtDepth tables levels) (layout.fieldsIn tables.fields) index
                offset
      | _ => if index = 0 then packLeaf offset (scalarTypeCode tables.layouts type) else 0

/-- A scalar field by its number, and zero when there is none. -/
def nativeAggregateLeaf (tables : LayoutContext) (type : Ty) (index : Nat) : Nat :=
  nativeAggregateLeafAtDepth tables 129 type index 0

/-- The fields from a number on, up to the first zero. -/
def leavesFrom (leaf : Nat → Nat) : Nat → Nat → List Nat
  | 0, _ => []
  | fuel + 1, index => if leaf index = 0 then [] else leaf index :: leavesFrom leaf fuel (index + 1)

/-- The fields in the order in which the backends go through them: by number, up to a zero, which
comes after as many as are counted at the latest. -/
def aggregateLeaves (tables : LayoutContext) (type : Ty) : List Nat :=
  leavesFrom (nativeAggregateLeaf tables type) (nativeAggregateLeafCount tables type) 0

def nativeAggregateFloatLeafCount (leaves : List Nat) : Nat :=
  leaves.countP fun leaf => nativeAbiFloatP (nativeAggregateLeafCode leaf)

/-- The code that all fields share, if they are one to four of one floating-point type. -/
def nativeAggregateHfaCode (tables : LayoutContext) (type : Ty) : Nat :=
  let count := nativeAggregateLeafCount tables type
  let code := nativeAggregateLeafCode (nativeAggregateLeaf tables type 0)
  if count = 0 || 4 < count then 0
  else if nativeAbiFloatP code then
    if (aggregateLeaves tables type).tail.all fun leaf => nativeAggregateLeafCode leaf = code then
      code
    else 0
  else 0

/-- The words that a value takes. -/
def nativeAggregateWords (layouts : List Layout) (type : Ty) : Nat :=
  if scalarTypeCode layouts type = 16 then if 8 < sourceTypeSize layouts type then 2 else 1 else 1

end Native
