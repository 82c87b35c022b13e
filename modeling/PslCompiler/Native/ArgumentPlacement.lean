import PslCompiler.Native.ArgumentLocations
import PslCompiler.Native.AggregateLeaves
import PslCompiler.Calling.Conventions

/-! # Locations follow the calling conventions

A backend's counters go through the same states as the convention's, and its locations stand for the
places that the convention hands out, as long as the stack slots fit into the low word of a location.
-/

namespace Native

open Records Stage0 Calling

variable {tables : LayoutContext}

/-! ## What the conventions see -/

def fieldOf (field : Nat × Nat) : ScalarField :=
  ⟨field.1, codeWidth field.2, nativeAbiFloatP field.2⟩

/-- A parameter type as the conventions see it, with all scalar fields of a record. -/
def argumentOf (tables : LayoutContext) (type : Ty) : Argument :=
  if scalarTypeCode tables.layouts type = 16 then
    .record (sourceTypeSize tables.layouts type) ((scalarFields tables 1026 0 type).map fieldOf)
  else .scalar (nativeAbiFloatP (scalarTypeCode tables.layouts type))

/-- An accepted parameter type in which records are not nested too deep. -/
def Passable (tables : LayoutContext) (hosted : Bool) (type : Ty) : Prop :=
  scalarParameterP tables hosted type = true ∧ nestsWithin tables 128 type = true

/-- A record parameter: its scalar fields are those that the backend goes through. -/
structure RecordParameter (tables : LayoutContext) (type : Ty) (size : Nat)
    (fields : List (Nat × Nat)) : Prop where
  code : scalarTypeCode tables.layouts type = 16
  argument : argumentOf tables type = .record size (fields.map fieldOf)
  leaves : aggregateLeaves tables type = fields.map fun field => packLeaf field.1 field.2
  leaf : ∀ index, nativeAggregateLeaf tables type index = packedAt fields index
  count : nativeAggregateLeafCount tables type = fields.length
  sized : sourceTypeSize tables.layouts type = size
  positive : 0 < size
  small : size ≤ 16
  natural : ∃ alignment, Natural size alignment fields

theorem RecordParameter.words {type : Ty} {size : Nat} {fields : List (Nat × Nat)}
    (record : RecordParameter tables type size fields) :
    nativeAggregateWords tables.layouts type = wordsOf size ∧ 1 ≤ wordsOf size ∧
      wordsOf size ≤ 2 := by
  have positive := record.positive
  have small := record.small
  rw [nativeAggregateWords, if_pos record.code, record.sized, wordsOf]
  split
  · omega
  · omega

/-- The backend sees all scalar fields of an accepted record that is not nested too deep. -/
theorem recordParameter_of {type : Ty} {shape : TypeShape}
    (record : scalarTypeCode tables.layouts type = 16)
    (accepted : sourceAggregateTypeP tables type = true)
    (nests : nestsWithin tables 128 type = true)
    (resolved : nativeResolveType tables.layouts type = some shape) :
    RecordParameter tables type shape.size (scalarFields tables 129 0 type) := by
  obtain ⟨positive, small, natural⟩ := accepted_natural 1025 type shape accepted resolved
  have same := scalarFields_of_nests 128 1026 type 0 nests (by decide)
  have size : sourceTypeSize tables.layouts type = shape.size := by
    rw [sourceTypeSize, resolved]
    rfl
  rw [same] at natural
  refine ⟨record, ?_, ?_, ?_, ?_, size, positive, small, shape.alignment, natural⟩
  · rw [argumentOf, if_pos record, size, same]
  · exact aggregateLeaves_eq fun field member => (fieldCode_bounds (natural.codes field member)).1
  · exact fun index => leafAt_eq 129 type index 0
  · exact leafCount_eq 129 0 type

/-- A passable parameter is a scalar, or a record with the fields that its backend sees. -/
theorem Passable.cases {hosted : Bool} {type : Ty} (passable : Passable tables hosted type) :
    (scalarTypeCode tables.layouts type ≠ 16 ∧
        argumentOf tables type = .scalar (nativeAbiFloatP (scalarTypeCode tables.layouts type)) ∧
        nativeAggregateWords tables.layouts type = 1) ∨
      ∃ size fields, RecordParameter tables type size fields := by
  obtain ⟨accepted, nests⟩ := passable
  by_cases record : scalarTypeCode tables.layouts type = 16
  · rw [scalarParameterP] at accepted
    rw [if_neg (by rw [record]; decide), if_pos record] at accepted
    have resolves : ∃ shape, nativeResolveType tables.layouts type = some shape := by
      cases type with
      | struct name =>
          rw [sourceAggregateTypeP, sourceAggregateAtDepthP] at accepted
          cases found : nativeFindLayout tables.layouts name with
          | none =>
              rw [found] at accepted
              cases accepted
          | some layout =>
              refine ⟨⟨layout.size, layout.alignment, .aggregate⟩, ?_⟩
              simp only [nativeResolveType, found]
      | _ =>
          rw [sourceAggregateTypeP, sourceAggregateAtDepthP] at accepted
          · cases accepted
          · intros
            contradiction
    obtain ⟨shape, resolved⟩ := resolves
    exact .inr ⟨shape.size, _, recordParameter_of record accepted nests resolved⟩
  · refine .inl ⟨record, ?_, ?_⟩
    · rw [argumentOf, if_neg record]
    · rw [nativeAggregateWords, if_neg record]

/-! ## Locations as numbers -/

theorem locationClass_eq {index : Nat} (kind : Nat) (small : index < 2 ^ 32) :
    nativeAbiLocationClass (nativeAbiLocation kind index) = kind := by
  rw [nativeAbiLocationClass, nativeAbiLocation]
  omega

theorem locationIndex_eq {index : Nat} (kind : Nat) (small : index < 2 ^ 32) :
    nativeAbiLocationIndex (nativeAbiLocation kind index) = index := by
  rw [nativeAbiLocationIndex, nativeAbiLocation]
  omega

theorem locationPlace_general {index : Nat} (small : index < 2 ^ 32) :
    locationPlace (nativeAbiLocation 1 index) = .general index := by
  rw [locationPlace, locationClass_eq 1 small, locationIndex_eq 1 small, if_pos rfl]

theorem locationPlace_floating {index : Nat} (small : index < 2 ^ 32) :
    locationPlace (nativeAbiLocation 2 index) = .floating index := by
  rw [locationPlace, locationClass_eq 2 small, locationIndex_eq 2 small, if_neg (by decide),
    if_pos rfl]

theorem locationPlace_stack {index : Nat} (small : index < 2 ^ 32) :
    locationPlace (nativeAbiLocation 3 index) = .stack index := by
  rw [locationPlace, locationClass_eq 3 small, locationIndex_eq 3 small, if_neg (by decide),
    if_neg (by decide)]

/-- The location of the next place of a kind. -/
def nextLocation (used : Used) : Calling.Kind → Nat
  | .general => nativeAbiLocation 1 used.general
  | .floating => nativeAbiLocation 2 used.floating
  | .stack => nativeAbiLocation 3 used.stack

theorem nextLocation_place {used : Used} {kind : Calling.Kind}
    (small : used.general < 2 ^ 32 ∧ used.floating < 2 ^ 32 ∧ used.stack < 2 ^ 32) :
    locationPlace (nextLocation used kind) = used.next kind := by
  cases kind with
  | general => exact locationPlace_general small.1
  | floating => exact locationPlace_floating small.2.1
  | stack => exact locationPlace_stack small.2.2

theorem nextLocation_class {used : Used} {kind : Calling.Kind}
    (small : used.general < 2 ^ 32 ∧ used.floating < 2 ^ 32 ∧ used.stack < 2 ^ 32) :
    nativeAbiLocationClass (nextLocation used kind) =
      match kind with
      | .general => 1
      | .floating => 2
      | .stack => 3 := by
  cases kind with
  | general => exact locationClass_eq 1 small.1
  | floating => exact locationClass_eq 2 small.2.1
  | stack => exact locationClass_eq 3 small.2.2

theorem locationWords_one (location : Nat) :
    locationWords location 1 = [locationPlace location] := by
  have whole : nativeAbiLocation (nativeAbiLocationClass location)
      (nativeAbiLocationIndex location + 0) = location := by
    rw [nativeAbiLocation, nativeAbiLocationClass, nativeAbiLocationIndex]
    omega
  change [locationPlace _] = _
  rw [whole]

theorem locationWords_general {index words : Nat} (small : index + words < 2 ^ 32) :
    locationWords (nativeAbiLocation 1 index) words =
      (List.range words).map fun part => .general (index + part) := by
  rw [locationWords, locationClass_eq 1 (by omega), locationIndex_eq 1 (by omega)]
  apply List.map_congr_left
  intro part member
  have inside := List.mem_range.mp member
  exact locationPlace_general (by omega)

theorem locationWords_stack {index words : Nat} (small : index + words < 2 ^ 32) :
    locationWords (nativeAbiLocation 3 index) words =
      (List.range words).map fun part => .stack (index + part) := by
  rw [locationWords, locationClass_eq 3 (by omega), locationIndex_eq 3 (by omega)]
  apply List.map_congr_left
  intro part member
  have inside := List.mem_range.mp member
  exact locationPlace_stack (by omega)

/-! ## Runs through the parameters -/

namespace LocationRules

variable (rules : LocationRules)

/-- The counters after some parameters. -/
def finish (used : Used) (parameters : List Ty) : Used :=
  parameters.foldl (fun used type => rules.advance type used) used

theorem stackCount_eq : ∀ (parameters : List Ty) (used : Used),
    rules.stackCount parameters used = (rules.finish used parameters).stack := by
  intro parameters
  induction parameters with
  | nil => exact fun _ => rfl
  | cons type rest ih => exact fun used => ih _

end LocationRules

/-- A backend follows a convention: the pieces of a location are where the convention puts them, and
the counters after it are the convention's. -/
structure Follows (rules : LocationRules) (sends receives : Ty → Nat → List Place)
    (convention : Convention Argument) (allowed : Used → Prop) (tables : LayoutContext)
    (hosted : Bool) : Prop where
  sent : ∀ type used, Passable tables hosted type → allowed used → used.stack + 2 < 2 ^ 32 →
    sends type (rules.location type used) =
      used.deal (convention.kinds used (argumentOf tables type))
  received : ∀ type used, Passable tables hosted type → allowed used → used.stack + 2 < 2 ^ 32 →
    receives type (rules.location type used) =
      used.deal (convention.kinds used (argumentOf tables type))
  after : ∀ type used, Passable tables hosted type → allowed used → used.stack + 2 < 2 ^ 32 →
    rules.advance type used = convention.after used (argumentOf tables type)

end Native
