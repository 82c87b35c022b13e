import PslCompiler.Native.AggregateTypes

/-! # The scalar fields of accepted records

The fields that the backends see are the scalar fields of the record at their offsets, as long as
records are not nested more than 128 deep. The fields of an accepted record are naturally aligned and
reach into each of its words.
-/

namespace Native

open Records Stage0

variable {tables : LayoutContext}

/-- The scalar fields of a type with their offsets and codes, down to a number of levels. -/
def scalarFields (tables : LayoutContext) : Nat → Nat → Ty → List (Nat × Nat)
  | 0, _, _ => []
  | levels + 1, offset, type =>
      match type with
      | .struct name =>
          match nativeFindLayout tables.layouts name with
          | none => [(offset, scalarTypeCode tables.layouts type)]
          | some layout =>
              (layout.fieldsIn tables.fields).flatMap fun field =>
                scalarFields tables levels (offset + field.offset) field.typeAst
      | _ => [(offset, scalarTypeCode tables.layouts type)]

/-- Records are nested at most so deep. -/
def nestsWithin (tables : LayoutContext) : Nat → Ty → Bool
  | levels, .struct name =>
      match nativeFindLayout tables.layouts name with
      | none => true
      | some layout =>
          match levels with
          | 0 => false
          | levels + 1 =>
              (layout.fieldsIn tables.fields).all fun field => nestsWithin tables levels field.typeAst
  | _, _ => true

/-- A type is a record of the table, or not. -/
theorem record_cases (tables : LayoutContext) (type : Ty) :
    (∃ name layout, type = .struct name ∧ nativeFindLayout tables.layouts name = some layout) ∨
      ∀ name, type = .struct name → nativeFindLayout tables.layouts name = none := by
  cases type with
  | struct name =>
      cases found : nativeFindLayout tables.layouts name with
      | some layout => exact .inl ⟨name, layout, rfl, found⟩
      | none =>
          refine .inr fun other same => ?_
          cases same
          exact found
  | _ => exact .inr fun _ same => nomatch same

section Unfold

variable {name : String} {layout : Layout} {type : Ty} (levels index offset : Nat)

theorem scalarFields_record (found : nativeFindLayout tables.layouts name = some layout) :
    scalarFields tables (levels + 1) offset (.struct name) =
      (layout.fieldsIn tables.fields).flatMap fun field =>
        scalarFields tables levels (offset + field.offset) field.typeAst := by
  rw [scalarFields, found]

theorem scalarFields_scalar
    (scalar : ∀ name, type = .struct name → nativeFindLayout tables.layouts name = none) :
    scalarFields tables (levels + 1) offset type =
      [(offset, scalarTypeCode tables.layouts type)] := by
  cases type with
  | struct name => simp only [scalarFields, scalar name rfl]
  | _ => rfl

theorem leafCount_record (found : nativeFindLayout tables.layouts name = some layout) :
    nativeAggregateLeafCountAtDepth tables (levels + 1) (.struct name) =
      ((layout.fieldsIn tables.fields).map fun field =>
        nativeAggregateLeafCountAtDepth tables levels field.typeAst).sum := by
  rw [nativeAggregateLeafCountAtDepth, found]

theorem leafCount_scalar
    (scalar : ∀ name, type = .struct name → nativeFindLayout tables.layouts name = none) :
    nativeAggregateLeafCountAtDepth tables (levels + 1) type = 1 := by
  cases type with
  | struct name => simp only [nativeAggregateLeafCountAtDepth, scalar name rfl]
  | _ => rfl

theorem leafAt_record (found : nativeFindLayout tables.layouts name = some layout) :
    nativeAggregateLeafAtDepth tables (levels + 1) (.struct name) index offset =
      nativeAggregateFindField (nativeAggregateLeafCountAtDepth tables levels)
        (nativeAggregateLeafAtDepth tables levels) (layout.fieldsIn tables.fields) index offset := by
  rw [nativeAggregateLeafAtDepth, found]

theorem leafAt_scalar
    (scalar : ∀ name, type = .struct name → nativeFindLayout tables.layouts name = none) :
    nativeAggregateLeafAtDepth tables (levels + 1) type index offset =
      if index = 0 then packLeaf offset (scalarTypeCode tables.layouts type) else 0 := by
  cases type with
  | struct name => simp only [nativeAggregateLeafAtDepth, scalar name rfl]
  | _ => rfl

end Unfold

/-! ## Looking fields up by number -/

theorem leafCount_eq (levels : Nat) : ∀ (offset : Nat) (type : Ty),
    nativeAggregateLeafCountAtDepth tables levels type =
      (scalarFields tables levels offset type).length := by
  induction levels with
  | zero => exact fun _ _ => rfl
  | succ levels ih =>
      intro offset type
      obtain ⟨name, layout, rfl, found⟩ | scalar := record_cases tables type
      · rw [leafCount_record levels found, scalarFields_record levels offset found,
          List.length_flatMap]
        simp only [← ih]
      · rw [leafCount_scalar levels scalar, scalarFields_scalar levels offset scalar]
        rfl

/-- The number of a field in a list, or zero after its end. -/
def packedAt (fields : List (Nat × Nat)) (index : Nat) : Nat :=
  (fields[index]?.map fun field => packLeaf field.1 field.2).getD 0

theorem packedAt_append (front back : List (Nat × Nat)) (index : Nat) :
    packedAt (front ++ back) index =
      if index < front.length then packedAt front index
      else packedAt back (index - front.length) := by
  unfold packedAt
  split
  case isTrue inside => rw [List.getElem?_append_left inside]
  case isFalse outside => rw [List.getElem?_append_right (Nat.not_lt.mp outside)]

theorem leafAt_eq (levels : Nat) : ∀ (type : Ty) (index offset : Nat),
    nativeAggregateLeafAtDepth tables levels type index offset =
      packedAt (scalarFields tables levels offset type) index := by
  induction levels with
  | zero => exact fun _ _ _ => rfl
  | succ levels ih =>
      intro type index offset
      obtain ⟨name, layout, rfl, found⟩ | scalar := record_cases tables type
      · rw [leafAt_record levels index offset found, scalarFields_record levels offset found]
        generalize layout.fieldsIn tables.fields = fields
        induction fields generalizing index with
        | nil => rfl
        | cons field rest ihRest =>
            rw [List.flatMap_cons, packedAt_append, nativeAggregateFindField, ihRest, ih,
              leafCount_eq levels (offset + field.offset)]
      · rw [leafAt_scalar levels index offset scalar, scalarFields_scalar levels offset scalar]
        cases index with
        | zero => rfl
        | succ index => rfl

/-- A search by number up to a zero goes through a list of codes that are not zero. -/
theorem leavesFrom_eq : ∀ (fields : List (Nat × Nat)) (leaf : Nat → Nat) (index : Nat),
    (∀ step, leaf (index + step) = packedAt fields step) → (∀ field ∈ fields, field.2 ≠ 0) →
      leavesFrom leaf fields.length index = fields.map fun field => packLeaf field.1 field.2 := by
  intro fields
  induction fields with
  | nil => exact fun _ _ _ _ => rfl
  | cons field rest ih =>
      intro leaf index same nonzero
      have first : leaf index = packLeaf field.1 field.2 := same 0
      have some : leaf index ≠ 0 := by
        have code := nonzero field List.mem_cons_self
        rw [first, packLeaf]
        omega
      rw [List.length_cons, leavesFrom, if_neg some, first, List.map_cons]
      congr 1
      apply ih
      · intro step
        rw [Nat.add_assoc, Nat.add_comm 1 step]
        exact same (step + 1)
      · exact fun other member => nonzero other (List.mem_cons_of_mem _ member)

/-- The backends see the scalar fields that are at most 128 levels deep. -/
theorem aggregateLeaves_eq {type : Ty}
    (nonzero : ∀ field ∈ scalarFields tables 129 0 type, field.2 ≠ 0) :
    aggregateLeaves tables type =
      (scalarFields tables 129 0 type).map fun field => packLeaf field.1 field.2 := by
  rw [aggregateLeaves, nativeAggregateLeafCount, leafCount_eq 129 0]
  refine leavesFrom_eq _ _ 0 (fun step => ?_) nonzero
  rw [Nat.zero_add, nativeAggregateLeaf, leafAt_eq]

/-- More levels than records are nested make no difference. -/
theorem scalarFields_of_nests (levels : Nat) : ∀ (more : Nat) (type : Ty) (offset : Nat),
    nestsWithin tables levels type = true → levels < more →
      scalarFields tables more offset type = scalarFields tables (levels + 1) offset type := by
  induction levels with
  | zero =>
      intro more type offset nests deep
      obtain ⟨rest, rfl⟩ := Nat.exists_eq_add_of_lt deep
      obtain ⟨name, layout, rfl, found⟩ | scalar := record_cases tables type
      · simp only [nestsWithin, found] at nests
        cases nests
      · rw [scalarFields_scalar _ offset scalar, scalarFields_scalar _ offset scalar]
  | succ levels ih =>
      intro more type offset nests deep
      obtain ⟨rest, rfl⟩ := Nat.exists_eq_add_of_lt deep
      obtain ⟨name, layout, rfl, found⟩ | scalar := record_cases tables type
      · rw [scalarFields_record _ offset found, scalarFields_record _ offset found]
        simp only [nestsWithin, found, List.all_eq_true] at nests
        apply List.flatMap_congr
        intro field member
        exact ih _ _ _ (nests field member) (by omega)
      · rw [scalarFields_scalar _ offset scalar, scalarFields_scalar _ offset scalar]

/-! ## Natural layouts -/

/-- The bytes of a scalar. -/
def codeWidth (code : Nat) : Nat :=
  scalarTypeBits code / 8

/-- The codes of the scalar fields of a record. -/
def fieldCodeP (code : Nat) : Bool :=
  scalarValidCodeP code || nativeAbiFloatP code || code = 11

theorem fieldCode_bounds {code : Nat} (valid : fieldCodeP code = true) :
    code ≠ 0 ∧ code < 16 ∧ codeWidth code ∣ 8 := by
  have small : ∀ code < 16, fieldCodeP code = true → code ≠ 0 ∧ codeWidth code ∣ 8 := by decide
  have bound : code < 16 := by
    simp only [fieldCodeP, scalarValidCodeP, nativeAbiFloatP, Bool.or_eq_true, Bool.and_eq_true,
      decide_eq_true_eq] at valid
    omega
  exact ⟨(small code bound valid).1, bound, (small code bound valid).2⟩

/-- Divisors of eight are powers of two. -/
theorem dvd_of_le_of_dvd_eight {first second : Nat} (isDivisor : first ∣ 8) (alsoDivisor : second ∣ 8)
    (bound : first ≤ second) : first ∣ second := by
  have small : ∀ first ≤ 8, ∀ second ≤ 8, first ∣ 8 → second ∣ 8 → first ≤ second →
      first ∣ second := by decide
  exact small first (Nat.le_of_dvd (by decide) isDivisor) second
    (Nat.le_of_dvd (by decide) alsoDivisor) isDivisor alsoDivisor bound

/-- A multiple of eight's divisor that is above another one is above it by the divisor at least. -/
theorem add_le_of_dvd {divisor first second : Nat} (isDivisor : divisor ∣ first)
    (alsoDivisor : divisor ∣ second) (bound : first < second) : first + divisor ≤ second := by
  have gap := Nat.le_of_dvd (by omega) (Nat.dvd_sub alsoDivisor isDivisor)
  omega

/-- The scalar fields of a value of some size and alignment: they are aligned and inside, one of
them is at the start, and one of them ends in the last stretch of the alignment. -/
structure Natural (size alignment : Nat) (fields : List (Nat × Nat)) : Prop where
  power : alignment ∣ 8
  rounded : alignment ∣ size
  codes : ∀ field ∈ fields, fieldCodeP field.2 = true
  aligned : ∀ field ∈ fields, codeWidth field.2 ∣ field.1 ∧ codeWidth field.2 ∣ alignment
  inside : ∀ field ∈ fields, field.1 + codeWidth field.2 ≤ size
  first : ∃ field ∈ fields, field.1 = 0
  last : ∃ field ∈ fields, size < field.1 + codeWidth field.2 + alignment

/-- The same for fields up to an offset, of which there may be none. -/
structure Running (offset alignment : Nat) (fields : List (Nat × Nat)) : Prop where
  power : alignment ∣ 8
  codes : ∀ field ∈ fields, fieldCodeP field.2 = true
  aligned : ∀ field ∈ fields, codeWidth field.2 ∣ field.1 ∧ codeWidth field.2 ∣ alignment
  inside : ∀ field ∈ fields, field.1 + codeWidth field.2 ≤ offset
  first : offset = 0 ∨ ∃ field ∈ fields, field.1 = 0
  last : fields = [] ∨ ∃ field ∈ fields, ∃ step, step ∣ alignment ∧ step ∣ offset ∧
    offset < field.1 + codeWidth field.2 + step

/-- The fields of a field are those of its type, moved. -/
theorem scalarFields_shift (levels : Nat) : ∀ (type : Ty) (offset : Nat),
    scalarFields tables levels offset type =
      (scalarFields tables levels 0 type).map fun field => (offset + field.1, field.2) := by
  induction levels with
  | zero => exact fun _ _ => rfl
  | succ levels ih =>
      intro type offset
      obtain ⟨name, layout, rfl, found⟩ | scalar := record_cases tables type
      · rw [scalarFields_record _ _ found, scalarFields_record _ _ found, List.map_flatMap]
        apply List.flatMap_congr
        intro field _
        rw [ih, ih _ (0 + field.offset), List.map_map]
        apply List.map_congr_left
        intro inner _
        simp only [Function.comp_apply, Nat.zero_add, Nat.add_assoc]
      · rw [scalarFields_scalar _ _ scalar, scalarFields_scalar _ _ scalar]
        rfl

theorem Running.start : Running 0 1 [] where
  power := one_dvd _
  codes _ member := absurd member List.not_mem_nil
  aligned _ member := absurd member List.not_mem_nil
  inside _ member := absurd member List.not_mem_nil
  first := .inl rfl
  last := .inl rfl

/-- A naturally aligned field follows others. -/
theorem Running.step {offset alignment size fieldAlignment : Nat}
    {fields inner : List (Nat × Nat)} (running : Running offset alignment fields)
    (natural : Natural size fieldAlignment inner) :
    Running (roundUp offset fieldAlignment + size)
      (if alignment < fieldAlignment then fieldAlignment else alignment)
      (fields ++ inner.map fun field => (roundUp offset fieldAlignment + field.1, field.2)) := by
  have positive := Nat.pos_of_dvd_of_pos natural.power (by decide)
  have after : offset ≤ roundUp offset fieldAlignment := le_roundUp positive
  have isMultiple : fieldAlignment ∣ roundUp offset fieldAlignment := dvd_roundUp
  generalize largest : (if alignment < fieldAlignment then fieldAlignment else alignment) = common
  have divides : common ∣ 8 ∧ alignment ∣ common ∧ fieldAlignment ∣ common := by
    rw [← largest]
    split
    case isTrue less =>
      exact ⟨natural.power, dvd_of_le_of_dvd_eight running.power natural.power
        (Nat.le_of_lt less), dvd_rfl⟩
    case isFalse notLess =>
      exact ⟨running.power, dvd_rfl, dvd_of_le_of_dvd_eight natural.power running.power
        (Nat.not_lt.mp notLess)⟩
  refine ⟨divides.1, ?_, ?_, ?_, ?_, ?_⟩
  · intro field member
    cases List.mem_append.mp member with
    | inl early => exact running.codes field early
    | inr late =>
        obtain ⟨inside, isInside, rfl⟩ := List.mem_map.mp late
        exact natural.codes inside isInside
  · intro field member
    cases List.mem_append.mp member with
    | inl early =>
        obtain ⟨aligned, width⟩ := running.aligned field early
        exact ⟨aligned, width.trans divides.2.1⟩
    | inr late =>
        obtain ⟨inside, isInside, rfl⟩ := List.mem_map.mp late
        obtain ⟨aligned, width⟩ := natural.aligned inside isInside
        exact ⟨Nat.dvd_add (width.trans isMultiple) aligned, width.trans divides.2.2⟩
  · intro field member
    cases List.mem_append.mp member with
    | inl early => exact (running.inside field early).trans (after.trans (Nat.le_add_right _ _))
    | inr late =>
        obtain ⟨inside, isInside, rfl⟩ := List.mem_map.mp late
        have bound := natural.inside inside isInside
        dsimp only
        omega
  · refine .inr ?_
    obtain zero | ⟨field, member, atStart⟩ := running.first
    · obtain ⟨field, member, atStart⟩ := natural.first
      refine ⟨_, List.mem_append_right _ (List.mem_map.mpr ⟨field, member, rfl⟩), ?_⟩
      have unmoved : roundUp offset fieldAlignment = 0 := by
        rw [zero, roundUp, Nat.zero_add, Nat.div_eq_of_lt (by omega), Nat.mul_zero]
      dsimp only
      omega
    · exact ⟨field, List.mem_append_left _ member, atStart⟩
  · obtain ⟨field, member, close⟩ := natural.last
    refine .inr ⟨_, List.mem_append_right _ (List.mem_map.mpr ⟨field, member, rfl⟩), fieldAlignment,
      divides.2.2, Nat.dvd_add isMultiple natural.rounded, ?_⟩
    dsimp only
    omega

/-- At the end the size is rounded up to the alignment. -/
theorem Running.natural {offset alignment : Nat} {fields : List (Nat × Nat)}
    (running : Running offset alignment fields) (some : fields ≠ []) :
    Natural (roundUp offset alignment) alignment fields := by
  have positive := Nat.pos_of_dvd_of_pos running.power (by decide)
  have after : offset ≤ roundUp offset alignment := le_roundUp positive
  have close : roundUp offset alignment < offset + alignment := roundUp_lt positive
  refine ⟨running.power, dvd_roundUp, running.codes, running.aligned, ?_, ?_, ?_⟩
  · exact fun field member => (running.inside field member).trans after
  · obtain zero | first := running.first
    · obtain none | ⟨field, member, step, _, _, near⟩ := running.last
      · exact absurd none some
      · have bound := running.inside field member
        exact ⟨field, member, by omega⟩
    · exact first
  · obtain none | ⟨field, member, step, divides, isMultiple, near⟩ := running.last
    · exact absurd none some
    · refine ⟨field, member, ?_⟩
      -- What is below the last stretch is a multiple of the step, and so is the offset.
      by_cases small : roundUp offset alignment < alignment
      · omega
      · have below : roundUp offset alignment - alignment + step ≤ offset := by
          apply add_le_of_dvd _ isMultiple (by omega)
          exact Nat.dvd_sub (divides.trans dvd_roundUp) divides
        omega

/-! ## Accepted types -/

/-- A scalar type that a field may have fills its own alignment. -/
theorem natural_scalar {type : Ty} {shape : TypeShape} (levels : Nat)
    (valid : fieldCodeP (scalarTypeCode tables.layouts type) = true)
    (resolved : nativeResolveType tables.layouts type = some shape) :
    Natural shape.size shape.alignment (scalarFields tables (levels + 1) 0 type) := by
  have scalar : ∀ name, type = .struct name → nativeFindLayout tables.layouts name = none := by
    rintro name rfl
    cases found : nativeFindLayout tables.layouts name with
    | none => rfl
    | some layout =>
        simp only [scalarTypeCode, found, Option.isSome_some, ↓reduceIte] at valid
        exact absurd valid (by decide)
  have extent : shape.size = codeWidth (scalarTypeCode tables.layouts type) ∧
      shape.alignment = codeWidth (scalarTypeCode tables.layouts type) := by
    cases type with
    | ptr pointee const volatile =>
        have code : scalarTypeCode tables.layouts (.ptr pointee const volatile) = 11 := by
          simp only [scalarTypeCode, resolved, Option.isSome_some, ↓reduceIte]
        rw [code]
        rw [nativeResolveType] at resolved
        split at resolved
        · split at resolved
          · cases resolved
          · cases resolved
            exact ⟨rfl, rfl⟩
        · cases resolved
    | struct name =>
        simp only [nativeResolveType, scalar name rfl] at resolved
        cases resolved
    | boolean => cases resolved
    | void =>
        simp only [scalarTypeCode] at valid
        exact absurd valid (by decide)
    | value =>
        simp only [scalarTypeCode] at valid
        exact absurd valid (by decide)
    | _ =>
        cases resolved
        simp only [scalarTypeCode]
        decide
  have eight := (fieldCode_bounds valid).2.2
  have positive := Nat.pos_of_dvd_of_pos eight (by decide)
  rw [scalarFields_scalar levels 0 scalar, extent.1, extent.2]
  refine ⟨eight, dvd_rfl, ?_, ?_, ?_, ?_, ?_⟩
  · intro field member
    rw [List.mem_singleton.mp member]
    exact valid
  · intro field member
    rw [List.mem_singleton.mp member]
    exact ⟨Nat.dvd_zero _, dvd_rfl⟩
  · intro field member
    rw [List.mem_singleton.mp member, Nat.zero_add]
  · exact ⟨_, List.mem_singleton_self _, rfl⟩
  · refine ⟨_, List.mem_singleton_self _, ?_⟩
    dsimp only
    omega

/-- The field of a checked layout has a scalar type, or is an accepted record. -/
theorem fieldType_cases {aggregate : Ty → Bool} {type : Ty}
    (accepted : sourceAggregateFieldTypeP tables.layouts aggregate type = true) :
    fieldCodeP (scalarTypeCode tables.layouts type) = true ∨ aggregate type = true := by
  unfold sourceAggregateFieldTypeP at accepted
  dsimp only at accepted
  split at accepted
  case isTrue scalar =>
    rw [fieldCodeP, scalar]
    exact .inl rfl
  case isFalse =>
    split at accepted
    · have code := of_decide_eq_true (Bool.and_eq_true_iff.mp accepted).1
      rw [fieldCodeP, code]
      exact .inl rfl
    · exact .inr (Bool.and_eq_true_iff.mp accepted).2

/-- The checked fields of a layout continue those before them. -/
theorem fields_running {levels : Nat} {layout : Layout} {aggregate : Ty → Bool}
    (nested : ∀ type shape, aggregate type = true →
      nativeResolveType tables.layouts type = some shape →
      Natural shape.size shape.alignment (scalarFields tables (levels + 1) 0 type)) :
    ∀ (fields : List LayoutField) (offset alignment : Nat) (earlier : List (Nat × Nat)),
      sourceAggregateFieldsP tables.layouts aggregate layout fields offset alignment = true →
      Running offset alignment earlier →
      ∃ finish, layout.size = roundUp finish layout.alignment ∧
        Running finish layout.alignment (earlier ++ fields.flatMap fun field =>
          scalarFields tables (levels + 1) (0 + field.offset) field.typeAst) := by
  intro fields
  induction fields with
  | nil =>
      intro offset alignment earlier accepted running
      rw [sourceAggregateFieldsP, Bool.and_eq_true, decide_eq_true_eq, decide_eq_true_eq] at accepted
      obtain ⟨size, rfl⟩ := accepted
      rw [List.flatMap_nil, List.append_nil]
      exact ⟨offset, size.symm, running⟩
  | cons field rest ih =>
      intro offset alignment earlier accepted running
      rw [sourceAggregateFieldsP, Bool.and_eq_true, sourceAggregateFieldShapeP] at accepted
      obtain ⟨shaped, others⟩ := accepted
      split at shaped
      case h_1 => cases shaped
      case h_2 shape resolved =>
        simp only [Bool.and_eq_true, decide_eq_true_eq] at shaped
        obtain ⟨⟨⟨place, size⟩, aligned⟩, isType⟩ := shaped
        have natural : Natural shape.size shape.alignment
            (scalarFields tables (levels + 1) 0 field.typeAst) := by
          cases fieldType_cases isType with
          | inl scalar => exact natural_scalar levels scalar resolved
          | inr record => exact nested field.typeAst shape record resolved
        have next := running.step natural
        rw [← place, ← size, ← aligned] at next
        obtain ⟨finish, rounded, last⟩ := ih _ _ _ others next
        refine ⟨finish, rounded, ?_⟩
        rw [List.flatMap_cons, ← List.append_assoc, Nat.zero_add,
          scalarFields_shift (levels + 1) field.typeAst field.offset]
        exact last

/-- An accepted record has a natural layout of at most sixteen bytes. -/
theorem accepted_natural (levels : Nat) : ∀ (type : Ty) (shape : TypeShape),
    sourceAggregateAtDepthP tables levels type = true →
      nativeResolveType tables.layouts type = some shape →
      0 < shape.size ∧ shape.size ≤ 16 ∧
        Natural shape.size shape.alignment (scalarFields tables (levels + 1) 0 type) := by
  induction levels with
  | zero =>
      intro type shape accepted
      rw [sourceAggregateAtDepthP] at accepted
      cases accepted
  | succ levels ih =>
      intro type shape accepted resolved
      cases type with
      | struct name =>
          rw [sourceAggregateAtDepthP] at accepted
          cases found : nativeFindLayout tables.layouts name with
          | none =>
              rw [found] at accepted
              cases accepted
          | some layout =>
              simp only [found, sourceAggregateLayoutP, Bool.and_eq_true, sourceAggregateSizeP,
                decide_eq_true_eq] at accepted
              obtain ⟨⟨⟨⟨_, small⟩, some⟩, inside⟩, fields⟩ := accepted
              simp only [nativeResolveType, found, Option.some.injEq] at resolved
              subst resolved
              have sized : 0 < layout.size ∧ layout.size ≤ 16 := by
                split at small
                · cases small
                · rw [decide_eq_true_eq] at small
                  omega
              obtain ⟨finish, rounded, running⟩ := fields_running
                (fun type shape accepted resolved => (ih type shape accepted resolved).2.2) _ _ _ _
                fields Running.start
              rw [List.nil_append] at running
              refine ⟨sized.1, sized.2, ?_⟩
              rw [scalarFields_record (levels + 1) 0 found]
              have natural := running.natural ?_
              · rw [← rounded] at natural
                exact natural
              · -- A layout with no fields would have no size.
                intro none
                have empty := running.first
                rw [none] at empty
                obtain zero | ⟨_, member, _⟩ := empty
                · rw [rounded, zero] at sized
                  have power := Nat.pos_of_dvd_of_pos running.power (by decide)
                  rw [roundUp, Nat.zero_add, Nat.div_eq_of_lt (by omega)] at sized
                  omega
                · exact absurd member List.not_mem_nil
      | _ =>
          rw [sourceAggregateAtDepthP] at accepted
          · cases accepted
          · intros
            contradiction

/-- Each word of an accepted record has a scalar field that starts in it. -/
theorem Natural.word {size alignment : Nat} {fields : List (Nat × Nat)}
    (natural : Natural size alignment fields) (small : size ≤ 16) {part : Nat}
    (inside : 8 * part < size) : ∃ field ∈ fields, field.1 / 8 = part := by
  have positive := Nat.pos_of_dvd_of_pos natural.power (by decide)
  by_cases first : part = 0
  · obtain ⟨field, member, zero⟩ := natural.first
    exact ⟨field, member, by rw [zero, first]⟩
  · obtain ⟨field, member, close⟩ := natural.last
    have bound := natural.inside field member
    obtain ⟨aligned, _⟩ := natural.aligned field member
    have eight := (fieldCode_bounds (natural.codes field member)).2.2
    have width := Nat.pos_of_dvd_of_pos eight (by decide)
    refine ⟨field, member, ?_⟩
    -- The size is at least an alignment above eight, so the field ends after the first word.
    have above : 8 + alignment ≤ size := add_le_of_dvd natural.power natural.rounded (by omega)
    have after : 8 ≤ field.1 := by
      by_contra before
      have ends := add_le_of_dvd aligned eight (by omega)
      omega
    omega

end Native
