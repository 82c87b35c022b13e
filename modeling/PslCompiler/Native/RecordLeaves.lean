import PslCompiler.Native.SharedLayouts

/-! # The scalars of records in Stage 0

For a record that the native compiler accepts, Stage 0 finds the scalars at the same offsets, marks
the words that they are in, and goes through them in the order of their offsets.
-/

namespace Native

open Records Stage0

variable {forms : List StructureForm} {layouts : Layouts} {tables : LayoutContext}

/-! ## Types and codes -/

/-- A type is a floating-point one if its code is. -/
theorem floatTypeP_eq (known : List Layout) (type : Ty) :
    type.floatTypeP = nativeAbiFloatP (scalarTypeCode known type) := by
  cases type with
  | ptr pointee const volatile =>
      rw [scalarTypeCode]
      split
      · rfl
      · rfl
  | struct name =>
      rw [scalarTypeCode]
      split
      · rfl
      · rfl
  | _ => rfl

/-- Floating-point types with one code are the same. -/
theorem floatType_inj (known : List Layout) {first second : Ty} (isFloat : first.floatTypeP = true) :
    second = first ↔ scalarTypeCode known second = scalarTypeCode known first := by
  refine ⟨fun same => by rw [same], fun same => ?_⟩
  have alsoFloat : second.floatTypeP = true := by
    rw [floatTypeP_eq known, same, ← floatTypeP_eq known]
    exact isFloat
  cases first with
  | f32 =>
      cases second with
      | f32 => rfl
      | f64 => exact absurd same (by simp [scalarTypeCode])
      | _ => cases alsoFloat
  | f64 =>
      cases second with
      | f64 => rfl
      | f32 => exact absurd same (by simp [scalarTypeCode])
      | _ => cases alsoFloat
  | _ => cases isFloat

/-- A type with the code of a field is a scalar of the width that the code says. -/
theorem scalar_of_code {known : List Layout} {type : Ty}
    (valid : fieldCodeP (scalarTypeCode known type) = true) :
    type.scalarTypeP = true ∧ (∀ name, type ≠ .struct name) ∧
      typeSize 64 layouts type = .ok (codeWidth (scalarTypeCode known type)) := by
  cases type with
  | ptr pointee const volatile =>
      have code : scalarTypeCode known (.ptr pointee const volatile) = 11 := by
        rw [scalarTypeCode] at valid ⊢
        split
        · rfl
        case isFalse missing =>
          rw [if_neg missing] at valid
          exact absurd valid (by decide)
      rw [code]
      exact ⟨rfl, (by rintro _ ⟨⟩), rfl⟩
  | struct name =>
      rw [scalarTypeCode] at valid
      split at valid
      · exact absurd valid (by decide)
      · exact absurd valid (by decide)
  | value | void | boolean => exact absurd valid (by rw [scalarTypeCode]; decide)
  | _ =>
      rw [scalarTypeCode]
      exact ⟨rfl, (by rintro _ ⟨⟩), by simp [typeSize, codeWidth, scalarTypeBits, Ty.typeWidth]⟩

/-- The type of a field of an accepted record is a scalar, or a record that is accepted itself. -/
theorem fieldType_split {aggregate : Ty → Bool} {type : Ty}
    (accepted : sourceAggregateFieldTypeP tables.layouts aggregate type = true) :
    fieldCodeP (scalarTypeCode tables.layouts type) = true ∨
      ∃ name layout, type = .struct name ∧ nativeFindLayout tables.layouts name = some layout ∧
        aggregate (.struct name) = true := by
  cases type with
  | struct name =>
      cases found : nativeFindLayout tables.layouts name with
      | none =>
          simp only [sourceAggregateFieldTypeP, scalarTypeCode, found] at accepted
          exact absurd accepted (by simp [scalarValidCodeP, nativeAbiFloatP])
      | some layout =>
          simp only [sourceAggregateFieldTypeP, scalarTypeCode, found, Option.isSome_some,
            ↓reduceIte] at accepted
          exact .inr ⟨name, layout, rfl, found, accepted⟩
  | value | void | boolean => cases accepted
  | ptr pointee const volatile =>
      obtain scalar | record := fieldType_cases accepted
      · exact .inl scalar
      · unfold sourceAggregateFieldTypeP at accepted
        dsimp only at accepted
        split at accepted
        case isTrue valid =>
          rw [fieldCodeP, valid]
          exact .inl rfl
        case isFalse =>
          have code := of_decide_eq_true (Bool.and_eq_true_iff.mp accepted).1
          rw [fieldCodeP, code]
          exact .inl rfl
  | _ => exact .inl rfl

/-! ## The fields of an accepted record -/

theorem checked_types {aggregate : Ty → Bool} {layout : Layout} :
    ∀ (fields : List LayoutField) (offset alignment : Nat),
      sourceAggregateFieldsP tables.layouts aggregate layout fields offset alignment = true →
      ∀ field ∈ fields, sourceAggregateFieldTypeP tables.layouts aggregate field.typeAst = true := by
  intro fields
  induction fields with
  | nil => exact fun _ _ _ field member => absurd member List.not_mem_nil
  | cons first rest ih =>
      intro offset alignment checked field member
      rw [sourceAggregateFieldsP, Bool.and_eq_true, sourceAggregateFieldShapeP] at checked
      obtain ⟨shaped, others⟩ := checked
      cases List.mem_cons.mp member with
      | inl same =>
          subst same
          split at shaped
          · cases shaped
          · exact (Bool.and_eq_true_iff.mp shaped).2
      | inr later => exact ih _ _ others field later

/-- What Stage 0 knows about the fields of an accepted record. -/
theorem Shared.recordFields (shared : Shared forms layouts tables) {levels : Nat} {name : String}
    {layout : Layout} (accepted : sourceAggregateAtDepthP tables (levels + 1) (.struct name) = true)
    (found : nativeFindLayout tables.layouts name = some layout) :
    ∃ record, layouts name = some record ∧ Alike tables layout record ∧
      ∀ field ∈ record.fields, sourceAggregateFieldTypeP tables.layouts
        (sourceAggregateAtDepthP tables levels) field.type = true := by
  obtain ⟨record, known, alike⟩ := shared.alike (levels + 1) name layout accepted found
  refine ⟨record, known, alike, fun field member => ?_⟩
  simp only [sourceAggregateAtDepthP, found, sourceAggregateLayoutP, Bool.and_eq_true] at accepted
  have types := checked_types _ _ _ accepted.2
  have pair : (field.offset, field.type) ∈
      (layout.fieldsIn tables.fields).map fun field => (field.offset, field.typeAst) := by
    rw [← alike.fields]
    exact List.mem_map_of_mem member
  obtain ⟨other, isField, same⟩ := List.mem_map.mp pair
  have sameType : other.typeAst = field.type := congrArg Prod.snd same
  rw [← sameType]
  exact types other isField

/-- The scalar fields of a record, by the fields that Stage 0 knows. -/
theorem Alike.scalarFields {layout : Layout} {record : PackedLayout}
    (alike : Alike tables layout record) {name : String}
    (found : nativeFindLayout tables.layouts name = some layout) (levels offset : Nat) :
    Native.scalarFields tables (levels + 1) offset (.struct name) =
      record.fields.flatMap fun field =>
        Native.scalarFields tables levels (offset + field.offset) field.type := by
  have byPairs := congrArg (List.flatMap fun pair : Nat × Ty =>
    Native.scalarFields tables levels (offset + pair.1) pair.2) alike.fields
  rw [List.flatMap_map, List.flatMap_map] at byPairs
  rw [scalarFields_record levels offset found]
  exact byPairs.symm

/-! ## Scalars -/

/-- A scalar as the native compiler sees it. -/
def codedLeaf (known : List Layout) (leaf : Nat × Ty) : Nat × Nat :=
  (leaf.1, scalarTypeCode known leaf.2)

/-- Collect the scalars of fields, each of which has those that are expected. -/
theorem mapM_leaves {known : List Layout} {part : FieldLayout → Check (List (Nat × Ty))}
    {expected : FieldLayout → List (Nat × Nat)} : ∀ (fields : List FieldLayout),
    (∀ field ∈ fields, ∃ leaves, part field = .ok leaves ∧
      leaves.map (codedLeaf known) = expected field ∧
      ∀ leaf ∈ leaves, leaf.2.scalarTypeP = true) →
    ∃ parts, fields.mapM part = .ok parts ∧
      parts.flatten.map (codedLeaf known) = fields.flatMap expected ∧
      ∀ leaf ∈ parts.flatten, leaf.2.scalarTypeP = true := by
  intro fields
  induction fields with
  | nil => exact fun _ => ⟨[], rfl, rfl, fun leaf member => absurd member List.not_mem_nil⟩
  | cons field rest ih =>
      intro each
      obtain ⟨leaves, own, coded, scalar⟩ := each field List.mem_cons_self
      obtain ⟨parts, others, codedRest, scalarRest⟩ :=
        ih fun other member => each other (List.mem_cons_of_mem _ member)
      refine ⟨leaves :: parts, ?_, ?_, ?_⟩
      · rw [List.mapM_cons, own, others]
        rfl
      · rw [List.flatten_cons, List.map_append, coded, codedRest, List.flatMap_cons]
      · intro leaf member
        rw [List.flatten_cons] at member
        cases List.mem_append.mp member with
        | inl early => exact scalar leaf early
        | inr late => exact scalarRest leaf late

/-- Stage 0 collects the scalar fields of an accepted record. -/
theorem Shared.leafFields (shared : Shared forms layouts tables) {rank : String → Nat} {count : Nat}
    (layered : Layered layouts rank count) (levels : Nat) :
    ∀ (depth : Nat) (name : String) (layout : Layout) (record : PackedLayout),
      sourceAggregateAtDepthP tables levels (.struct name) = true →
      nativeFindLayout tables.layouts name = some layout → layouts name = some record →
      rank name < depth →
      ∃ leaves, cLeafFields layouts depth record = .ok leaves ∧
        leaves.map (codedLeaf tables.layouts) =
          Native.scalarFields tables (levels + 1) 0 (.struct name) ∧
        ∀ leaf ∈ leaves, leaf.2.scalarTypeP = true := by
  induction levels with
  | zero =>
      intro depth name layout record accepted
      rw [sourceAggregateAtDepthP] at accepted
      cases accepted
  | succ levels ih =>
      intro depth name layout record accepted found known deep
      obtain ⟨other, alsoKnown, alike, types⟩ := shared.recordFields accepted found
      rw [known] at alsoKnown
      cases alsoKnown
      obtain ⟨depth, rfl⟩ := Nat.exists_eq_add_one_of_ne_zero (Nat.ne_of_gt (Nat.zero_lt_of_lt deep))
      rw [alike.scalarFields found (levels + 1) 0, cLeafFields]
      have each : ∀ field ∈ record.fields, ∃ leaves,
          leafFieldsOf layouts (cLeafFields layouts depth) field = .ok leaves ∧
          leaves.map (codedLeaf tables.layouts) =
            Native.scalarFields tables (levels + 1) (0 + field.offset) field.type ∧
          ∀ leaf ∈ leaves, leaf.2.scalarTypeP = true := by
        intro field member
        obtain scalar | ⟨inner, innerLayout, isRecord, innerFound, innerAccepted⟩ :=
          fieldType_split (types field member)
        · obtain ⟨isScalar, noRecord, _⟩ := @scalar_of_code layouts _ _ scalar
          refine ⟨[(field.offset, field.type)], ?_, ?_, ?_⟩
          · rw [leafFieldsOf]
            split
            case h_1 name isRecord => exact absurd isRecord (noRecord name)
            case h_2 => rfl
          · rw [scalarFields_scalar _ _ fun name same => absurd same (noRecord name), Nat.zero_add]
            rfl
          · intro leaf isLeaf
            cases List.mem_singleton.mp isLeaf
            exact isScalar
        · obtain ⟨nested, innerKnown, innerAlike⟩ :=
            shared.alike levels inner innerLayout innerAccepted innerFound
          have less := (layered.nested name record known field member inner isRecord).2
          obtain ⟨leaves, collected, coded, scalar⟩ := ih depth inner innerLayout nested
            innerAccepted innerFound innerKnown (by omega)
          refine ⟨leaves.map fun leaf => (field.offset + leaf.1, leaf.2), ?_, ?_, ?_⟩
          · simp only [leafFieldsOf, isRecord, innerKnown, innerAlike.natural, Bool.false_eq_true, ↓reduceIte,
              collected]
            rfl
          · rw [isRecord, Nat.zero_add, scalarFields_shift, ← coded, List.map_map, List.map_map]
            rfl
          · intro leaf isLeaf
            obtain ⟨plain, isPlain, rfl⟩ := List.mem_map.mp isLeaf
            exact scalar plain isPlain
      obtain ⟨parts, collected, coded, scalar⟩ := mapM_leaves record.fields each
      rw [collected]
      exact ⟨parts.flatten, rfl, coded, scalar⟩

/-! ## Marked words -/

/-- Mark the word of a scalar. -/
def markLeaf (classes : List (Option WordClass)) (leaf : Nat × Nat) : List (Option WordClass) :=
  classes.modify (leaf.1 / 8) (markWord (if nativeAbiFloatP leaf.2 then .sse else .integer))

/-- A scalar has the class that its code says. -/
theorem scalarWordClass_eq {known : List Layout} {type : Ty} (scalar : type.scalarTypeP = true) :
    scalarWordClass type =
      some (if nativeAbiFloatP (scalarTypeCode known type) then .sse else .integer) := by
  rw [← floatTypeP_eq known, scalarWordClass]
  cases type with
  | void | value | boolean | struct _ => cases scalar
  | _ => rfl

/-- A list is folded as by a function if the steps are. -/
theorem foldlM_some {State Item : Type} {step : State → Item → Option State}
    {next : State → Item → State} : ∀ (items : List Item) (state : State),
    (∀ state, ∀ item ∈ items, step state item = some (next state item)) →
      items.foldlM step state = some (items.foldl next state) := by
  intro items
  induction items with
  | nil => exact fun _ _ => rfl
  | cons item rest ih =>
      intro state each
      rw [List.foldlM_cons, each state item List.mem_cons_self]
      exact ih _ fun state other member => each state other (List.mem_cons_of_mem _ member)

/-- An aligned scalar lies in its word. -/
theorem marked_scalar {depth levels offset : Nat} {type : Ty} {classes : List (Option WordClass)}
    (scalar : fieldCodeP (scalarTypeCode tables.layouts type) = true)
    (aligned : ∀ leaf ∈ Native.scalarFields tables (levels + 1) offset type,
      codeWidth leaf.2 ∣ leaf.1) :
    markCAggregateField layouts depth type offset classes =
      some ((Native.scalarFields tables (levels + 1) offset type).foldl markLeaf classes) := by
  obtain ⟨isScalar, noRecord, sized⟩ := @scalar_of_code layouts _ _ scalar
  have fields := @scalarFields_scalar tables type levels offset
    fun name same => absurd same (noRecord name)
  rw [fields] at aligned ⊢
  have divides := aligned _ List.mem_cons_self
  have eight := (fieldCode_bounds scalar).2.2
  have room : offset % 8 + codeWidth (scalarTypeCode tables.layouts type) ≤ 8 :=
    add_le_of_dvd ((Nat.dvd_mod_iff eight).mpr divides) eight (Nat.mod_lt _ (by decide))
  rw [markCAggregateField]
  · simp only [sized, @scalarWordClass_eq tables.layouts type isScalar, if_pos room]
    rfl
  · exact noRecord

theorem markCAggregateField_record {levels offset : Nat} {name : String} {record : PackedLayout}
    (known : layouts name = some record) (natural : record.packed = false)
    (classes : List (Option WordClass)) :
    markCAggregateField layouts (levels + 1) (.struct name) offset classes =
      record.fields.foldlM (fun classes field =>
        markCAggregateField layouts levels field.type (offset + field.offset) classes) classes := by
  rw [markCAggregateField.eq_1 layouts offset classes name record levels known, if_neg]
  rw [natural]
  decide

theorem windowsCAggregateFieldP_record {levels : Nat} {name : String} {record : PackedLayout}
    (known : layouts name = some record) (natural : record.packed = false) :
    windowsCAggregateFieldP layouts (levels + 1) (.struct name) =
      record.fields.all fun field => windowsCAggregateFieldP layouts levels field.type := by
  rw [windowsCAggregateFieldP.eq_1 layouts name record levels known, natural]
  rfl

/-- Stage 0 marks the words of the scalar fields of a field, if they are aligned. -/
theorem Shared.marked (shared : Shared forms layouts tables) {rank : String → Nat} {count : Nat}
    (layered : Layered layouts rank count) (levels : Nat) :
    ∀ (depth : Nat) (type : Ty) (offset : Nat) (classes : List (Option WordClass)),
      sourceAggregateFieldTypeP tables.layouts (sourceAggregateAtDepthP tables levels) type = true →
      (∀ name, type = .struct name → rank name < depth) →
      (∀ leaf ∈ Native.scalarFields tables (levels + 1) offset type, codeWidth leaf.2 ∣ leaf.1) →
      markCAggregateField layouts depth type offset classes =
        some ((Native.scalarFields tables (levels + 1) offset type).foldl markLeaf classes) := by
  induction levels with
  | zero =>
      intro depth type offset classes accepted _ aligned
      obtain scalar | ⟨inner, _, _, _, innerAccepted⟩ := fieldType_split accepted
      · exact marked_scalar scalar aligned
      · rw [sourceAggregateAtDepthP] at innerAccepted
        cases innerAccepted
  | succ levels ih =>
      intro depth type offset classes accepted deep aligned
      obtain scalar | ⟨inner, layout, rfl, found, innerAccepted⟩ := fieldType_split accepted
      · exact marked_scalar scalar aligned
      · obtain ⟨record, known, alike, types⟩ := shared.recordFields innerAccepted found
        have less := deep inner rfl
        obtain ⟨depth, rfl⟩ := Nat.exists_eq_add_one_of_ne_zero (Nat.ne_of_gt (Nat.zero_lt_of_lt less))
        rw [alike.scalarFields found (levels + 1) offset] at aligned ⊢
        rw [markCAggregateField_record known alike.natural, List.foldl_flatMap]
        apply foldlM_some
        intro state field member
        apply ih depth field.type _ state (types field member)
        · intro name isRecord
          have smaller := (layered.nested inner record known field member name isRecord).2
          omega
        · exact fun leaf isLeaf => aligned leaf (List.mem_flatMap.mpr ⟨field, member, isLeaf⟩)

/-- Windows takes the fields of accepted records. -/
theorem Shared.windowsFields (shared : Shared forms layouts tables) {rank : String → Nat}
    {count : Nat} (layered : Layered layouts rank count) (levels : Nat) :
    ∀ (depth : Nat) (type : Ty),
      sourceAggregateFieldTypeP tables.layouts (sourceAggregateAtDepthP tables levels) type = true →
      (∀ name, type = .struct name → rank name < depth) →
      windowsCAggregateFieldP layouts depth type = true := by
  have ofScalar : ∀ (depth : Nat) (type : Ty),
      fieldCodeP (scalarTypeCode tables.layouts type) = true →
      windowsCAggregateFieldP layouts depth type = true := by
    intro depth type scalar
    obtain ⟨isScalar, noRecord, _⟩ := @scalar_of_code layouts _ _ scalar
    rw [windowsCAggregateFieldP]
    · rw [Ty.scalarTypeP, Bool.or_assoc, Bool.or_comm type.floatTypeP, ← Bool.or_assoc] at isScalar
      exact isScalar
    · exact noRecord
  induction levels with
  | zero =>
      intro depth type accepted _
      obtain scalar | ⟨inner, _, _, _, innerAccepted⟩ := fieldType_split accepted
      · exact ofScalar depth type scalar
      · rw [sourceAggregateAtDepthP] at innerAccepted
        cases innerAccepted
  | succ levels ih =>
      intro depth type accepted deep
      obtain scalar | ⟨inner, layout, rfl, found, innerAccepted⟩ := fieldType_split accepted
      · exact ofScalar depth type scalar
      · obtain ⟨record, known, alike, types⟩ := shared.recordFields innerAccepted found
        have less := deep inner rfl
        obtain ⟨depth, rfl⟩ := Nat.exists_eq_add_one_of_ne_zero (Nat.ne_of_gt (Nat.zero_lt_of_lt less))
        rw [windowsCAggregateFieldP_record known alike.natural, List.all_eq_true]
        intro field member
        apply ih depth field.type (types field member)
        intro name isRecord
        have smaller := (layered.nested inner record known field member name isRecord).2
        omega

/-! ## The order of the fields -/

/-- The scalar fields of the fields that are left come one after the other. -/
theorem fields_ordered {levels : Nat} {layout : Layout} {aggregate : Ty → Bool}
    (nested : ∀ type shape, aggregate type = true →
      nativeResolveType tables.layouts type = some shape →
      Natural shape.size shape.alignment (Native.scalarFields tables (levels + 1) 0 type) ∧
        (Native.scalarFields tables (levels + 1) 0 type).Pairwise fun first second =>
          first.1 ≤ second.1) :
    ∀ (fields : List LayoutField) (offset alignment : Nat),
      sourceAggregateFieldsP tables.layouts aggregate layout fields offset alignment = true →
      (∀ leaf ∈ fields.flatMap fun field =>
          Native.scalarFields tables (levels + 1) (0 + field.offset) field.typeAst,
        offset ≤ leaf.1) ∧
      (fields.flatMap fun field =>
          Native.scalarFields tables (levels + 1) (0 + field.offset) field.typeAst).Pairwise
        fun first second => first.1 ≤ second.1 := by
  intro fields
  induction fields with
  | nil => exact fun _ _ _ => ⟨fun leaf member => absurd member List.not_mem_nil, .nil⟩
  | cons field rest ih =>
      intro offset alignment accepted
      rw [sourceAggregateFieldsP, Bool.and_eq_true, sourceAggregateFieldShapeP] at accepted
      obtain ⟨shaped, others⟩ := accepted
      split at shaped
      case h_1 => cases shaped
      case h_2 shape resolved =>
        simp only [Bool.and_eq_true, decide_eq_true_eq] at shaped
        obtain ⟨⟨⟨place, size⟩, aligned⟩, isType⟩ := shaped
        have own : Natural shape.size shape.alignment
              (Native.scalarFields tables (levels + 1) 0 field.typeAst) ∧
            (Native.scalarFields tables (levels + 1) 0 field.typeAst).Pairwise
              fun first second => first.1 ≤ second.1 := by
          cases fieldType_cases isType with
          | inl scalar =>
              have noRecord := (@scalar_of_code (fun _ => none) _ _ scalar).2.1
              refine ⟨natural_scalar levels scalar resolved, ?_⟩
              rw [scalarFields_scalar _ _ fun name same => absurd same (noRecord name)]
              exact List.pairwise_singleton _ _
          | inr record => exact nested field.typeAst shape record resolved
        obtain ⟨natural, sorted⟩ := own
        obtain ⟨after, sortedRest⟩ := ih _ _ others
        have positive := Nat.pos_of_dvd_of_pos natural.power (by decide)
        have start : offset ≤ field.offset := place ▸ le_roundUp positive
        rw [List.flatMap_cons, Nat.zero_add, scalarFields_shift]
        constructor
        · intro leaf member
          cases List.mem_append.mp member with
          | inl early =>
              obtain ⟨plain, _, rfl⟩ := List.mem_map.mp early
              exact start.trans (Nat.le_add_right _ _)
          | inr late =>
              have bound := after leaf late
              omega
        · rw [List.pairwise_append, List.pairwise_map]
          refine ⟨sorted.imp fun less => Nat.add_le_add_left less _, sortedRest, ?_⟩
          intro first early second late
          obtain ⟨plain, isPlain, rfl⟩ := List.mem_map.mp early
          have inside := natural.inside plain isPlain
          have bound := after second late
          dsimp only
          omega

/-- The scalar fields of an accepted record come in the order of their offsets. -/
theorem accepted_ordered (levels : Nat) : ∀ (type : Ty) (shape : TypeShape),
    sourceAggregateAtDepthP tables levels type = true →
      nativeResolveType tables.layouts type = some shape →
      (Native.scalarFields tables (levels + 1) 0 type).Pairwise fun first second =>
        first.1 ≤ second.1 := by
  induction levels with
  | zero =>
      intro type shape accepted
      rw [sourceAggregateAtDepthP] at accepted
      cases accepted
  | succ levels ih =>
      intro type shape accepted resolved
      cases type with
      | struct name =>
          cases found : nativeFindLayout tables.layouts name with
          | none =>
              rw [sourceAggregateAtDepthP, found] at accepted
              cases accepted
          | some layout =>
              simp only [sourceAggregateAtDepthP, found, sourceAggregateLayoutP,
                Bool.and_eq_true] at accepted
              rw [scalarFields_record (levels + 1) 0 found]
              exact (fields_ordered (fun type shape accepted resolved =>
                ⟨(accepted_natural levels type shape accepted resolved).2.2,
                  ih type shape accepted resolved⟩) _ _ _ accepted.2).2
      | _ =>
          rw [sourceAggregateAtDepthP] at accepted
          · cases accepted
          · intros
            contradiction

end Native
