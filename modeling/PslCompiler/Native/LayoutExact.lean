import PslCompiler.Native.Layout
import PslCompiler.Stage0.LayoutExact

/-! # Native layouts follow the C rule

Word arithmetic computes the exact layout as long as no field ends exactly at the word limit. The
check before a field is appended compares the negated size with the offset, so an end at the limit
passes, and the size of the structure wraps to zero.
-/

namespace Native

open Records Stage0

/-! ## Words -/

section Words

variable {value alignment low : Nat}

theorem layoutRoundUp_lt : layoutRoundUp value alignment < wordLimit :=
  lt_of_le_of_lt Nat.and_le_left (Nat.mod_lt _ (by decide))

/-- The alignments of source types are powers of two. -/
theorem layoutRoundUp_eq (below : value < wordLimit) (fits : low < 64)
    (notBelow : ¬layoutRoundUp value (2 ^ low) < value) :
    layoutRoundUp value (2 ^ low) = roundUp value (2 ^ low) := by
  have small : 2 ^ low < wordLimit := Nat.pow_lt_pow_right (by decide) fits
  have positive : 0 < 2 ^ low := Nat.two_pow_pos low
  have mask : wrapSub 0 (2 ^ low) = 2 ^ 64 - 2 ^ low := by
    unfold wrapSub
    rw [Nat.mod_eq_of_lt small, Nat.zero_add]
    exact Nat.mod_eq_of_lt (by unfold wordLimit; omega)
  have less : wrapSub (2 ^ low) 1 = 2 ^ low - 1 := by
    unfold wrapSub wordLimit at *
    omega
  have cleared : layoutRoundUp value (2 ^ low) =
      2 ^ low * (wrapAdd value (2 ^ low - 1) / 2 ^ low) := by
    unfold layoutRoundUp
    rw [mask, less]
    exact and_two_pow_sub (Nat.mod_lt _ (by decide)) fits.le
  by_cases wraps : value + (2 ^ low - 1) < wordLimit
  · rw [cleared]
    unfold wrapAdd roundUp
    rw [Nat.mod_eq_of_lt wraps]
  · exfalso
    have short : wrapAdd value (2 ^ low - 1) < value := by
      unfold wrapAdd
      rw [Nat.mod_eq_sub_mod (Nat.le_of_not_lt wraps), Nat.mod_eq_of_lt]
      · omega
      · omega
    exact notBelow (lt_of_le_of_lt Nat.and_le_left (by rw [less]; exact short))

/-- An offset that passes the check leaves room for the field up to the limit. -/
theorem add_le_wordLimit {aligned size : Nat} (alignedBelow : aligned < wordLimit)
    (sizeBelow : size < wordLimit) (fits : ¬wrapSub 0 size < aligned) :
    aligned + size ≤ wordLimit := by
  unfold wrapSub at fits
  by_cases empty : size = 0
  · omega
  · rw [Nat.mod_eq_of_lt sizeBelow, Nat.zero_add, Nat.mod_eq_of_lt (by omega)] at fits
    omega

end Words

/-! ## Placing one field -/

/-- An extent that words can represent, with a power of two as its alignment. -/
def Wordlike (extent : Extent) : Prop :=
  extent.size < wordLimit ∧ ∃ low < 64, extent.alignment = 2 ^ low

def LayoutField.placed (field : LayoutField) : Records.Placed :=
  ⟨⟨field.size, field.alignment⟩, field.offset⟩

/-- A structure under construction whose fields lie where the rule places them. -/
structure Building (start : LayoutContext) (forms : List FieldForm) (extents : List Extent)
    (context : LayoutContext) (layout : Layout) : Prop where
  layouts : context.layouts = start.layouts
  layoutCapacity : context.layoutCapacity = start.layoutCapacity
  fieldCapacity : context.fieldCapacity = start.fieldCapacity
  first : layout.first = start.fields.length
  appended : ∃ new, context.fields = start.fields ++ new ∧ layout.count = new.length ∧
    new.map LayoutField.placed = place 0 extents ∧
    new.map (fun field => some (field.name, field.typeAst)) = forms.map FieldForm.declared
  size : layout.size = finish 0 extents
  below : finish 0 extents < wordLimit
  alignment : layout.alignment = alignmentOf extents
  wordlike : ∃ low < 64, alignmentOf extents = 2 ^ low

/-- A committed field lies where the rule places it, unless it ends exactly at the limit. -/
theorem layoutCommitField_builds {start context after : LayoutContext} {layout next : Layout}
    {forms : List FieldForm} {extents : List Extent} {name : String} {type : Ty}
    {shape : TypeShape} (building : Building start forms extents context layout)
    (wordlike : Wordlike ⟨shape.size, shape.alignment⟩)
    (regular : ((Extent.inMode layout.packed ⟨shape.size, shape.alignment⟩).placeAt
      (finish 0 extents)).finish ≠ wordLimit)
    (committed : layoutCommitField context layout name type shape = (after, next, true)) :
    Building start (forms ++ [.field name type])
      (extents ++ [Extent.inMode layout.packed ⟨shape.size, shape.alignment⟩]) after next ∧
      next.packed = layout.packed ∧ next.name = layout.name := by
  obtain ⟨sizeBelow, low, lowBelow, power⟩ := wordlike
  replace sizeBelow : shape.size < wordLimit := sizeBelow
  have modeAlignment : (if layout.packed = true then 1 else shape.alignment) =
      (Extent.inMode layout.packed ⟨shape.size, shape.alignment⟩).alignment := by
    unfold Extent.inMode
    split
    · rfl
    · rfl
  have modeSize : shape.size =
      (Extent.inMode layout.packed ⟨shape.size, shape.alignment⟩).size := by
    unfold Extent.inMode
    split
    · rfl
    · rfl
  have modePower : ∃ low < 64,
      (Extent.inMode layout.packed ⟨shape.size, shape.alignment⟩).alignment = 2 ^ low := by
    unfold Extent.inMode
    split
    · exact ⟨0, by decide, rfl⟩
    · exact ⟨low, lowBelow, power⟩
  unfold layoutCommitField at committed
  rw [modeAlignment] at committed
  -- From here on only the extent in its mode matters.
  generalize Extent.inMode layout.packed ⟨shape.size, shape.alignment⟩ = extent at *
  simp only at committed
  split at committed
  · cases committed
  · rename_i notBelow
    split at committed
    · cases committed
    · rename_i fits
      obtain ⟨power, powerBelow, same⟩ := modePower
      rw [same, building.size] at notBelow fits
      have rounded := layoutRoundUp_eq building.below powerBelow notBelow
      have room := add_le_wordLimit layoutRoundUp_lt sizeBelow fits
      rw [rounded, modeSize] at room
      have ends : (extent.placeAt (finish 0 extents)).finish < wordLimit := by
        unfold Extent.placeAt Records.Placed.finish at regular ⊢
        rw [same] at regular ⊢
        exact lt_of_le_of_ne room regular
      have offset : layoutRoundUp layout.size extent.alignment =
          (extent.placeAt (finish 0 extents)).offset := by
        unfold Extent.placeAt
        rw [building.size, same, rounded]
      rw [offset, modeSize] at committed
      cases committed
      obtain ⟨new, fields, count, placed, declared⟩ := building.appended
      refine ⟨⟨building.layouts, building.layoutCapacity, building.fieldCapacity, building.first,
        ⟨new ++ [⟨name, type, (extent.placeAt (finish 0 extents)).offset, extent.size,
          extent.alignment⟩], ?_, ?_, ?_, ?_⟩, ?_, ?_, ?_, ?_⟩, rfl, rfl⟩
      · simp only [fields, List.append_assoc]
      · rw [List.length_append, ← count]
        rfl
      · rw [List.map_append, placed, place_append, List.map_singleton]
        rfl
      · rw [List.map_append, declared, List.map_append]
        rfl
      · rw [finish_append]
        exact Nat.mod_eq_of_lt ends
      · rw [finish_append]
        exact ends
      · rw [alignmentOf_append, building.alignment]
        split
        · rename_i less
          exact (max_eq_right less.le).symm
        · rename_i notLess
          exact (max_eq_left (Nat.le_of_not_lt notLess)).symm
      · rw [alignmentOf_append, same]
        obtain ⟨other, otherBelow, alsoPower⟩ := building.wordlike
        rw [alsoPower]
        rcases Nat.le_total (2 ^ other) (2 ^ power) with less | less
        · exact ⟨power, powerBelow, max_eq_right less⟩
        · exact ⟨other, otherBelow, max_eq_left less⟩

/-! ## Structures -/

def Layout.extent (layout : Layout) : Extent :=
  ⟨layout.size, layout.alignment⟩

/-- The table gives every structure its exact extent, which words can represent. -/
structure Tabled (layouts : List Layout) (table : Extents) : Prop where
  agrees : ∀ name, (nativeFindLayout layouts name).map Layout.extent = table name
  wordlike : ∀ name extent, table name = some extent → Wordlike extent

section Structures

variable {layouts : List Layout} {table : Extents}

/-- A type that resolves to storage has its exact extent. -/
theorem fieldExtent_of_resolve (tabled : Tabled layouts table) {type : Ty} {shape : TypeShape}
    (resolved : nativeResolveType layouts type = some shape)
    (storage : ¬(shape.kind = .void ∨ shape.kind = .value)) :
    fieldExtent table type = some ⟨shape.size, shape.alignment⟩ ∧
      Wordlike ⟨shape.size, shape.alignment⟩ := by
  cases type with
  | value =>
      cases resolved
      exact (storage (.inr rfl)).elim
  | void =>
      cases resolved
      exact (storage (.inl rfl)).elim
  | boolean => cases resolved
  | ptr pointee const volatile =>
      unfold nativeResolveType at resolved
      split at resolved
      · split at resolved
        · cases resolved
        · cases resolved
          exact ⟨rfl, by decide, 3, by decide, rfl⟩
      · cases resolved
  | struct name =>
      have known := tabled.agrees name
      unfold nativeResolveType at resolved
      split at resolved
      · rename_i layout found
        cases resolved
        rw [found] at known
        exact ⟨known.symm, tabled.wordlike name _ known.symm⟩
      · cases resolved
  | u8 | s8 =>
      cases resolved
      exact ⟨rfl, by decide, 0, by decide, rfl⟩
  | u16 | s16 =>
      cases resolved
      exact ⟨rfl, by decide, 1, by decide, rfl⟩
  | u32 | s32 | f32 =>
      cases resolved
      exact ⟨rfl, by decide, 2, by decide, rfl⟩
  | u64 | s64 | usize | isize | f64 =>
      cases resolved
      exact ⟨rfl, by decide, 3, by decide, rfl⟩

variable {identifierP : String → Bool}

/-- A field that is added has been committed with the shape of its type. -/
theorem layoutAddField_eq_true {context after : LayoutContext} {layout next : Layout}
    {form : FieldForm}
    (added : layoutAddField identifierP context form layout = (after, next, true)) :
    ∃ name type shape, form = .field name type ∧
      nativeResolveType context.layouts type = some shape ∧
      ¬(shape.kind = .void ∨ shape.kind = .value) ∧
      layoutCommitField context layout name type shape = (after, next, true) := by
  unfold layoutAddField at added
  split at added
  · cases added
  · cases form with
    | malformed => cases added
    | field name type =>
        simp only at added
        split at added
        · unfold layoutAddNamedField at added
          split at added
          · cases added
          · split at added
            · cases added
            · rename_i shape resolved
              split at added
              · cases added
              · rename_i storage
                exact ⟨name, type, shape, rfl, resolved, storage, added⟩
        · cases added

theorem layoutCommitField_layouts {context after : LayoutContext} {layout next : Layout}
    {name : String} {type : Ty} {shape : TypeShape} {success : Bool}
    (committed : layoutCommitField context layout name type shape = (after, next, success)) :
    after.layouts = context.layouts ∧ context.fields <+: after.fields ∧
      next.packed = layout.packed ∧ next.name = layout.name := by
  unfold layoutCommitField at committed
  generalize (if layout.packed = true then 1 else shape.alignment) = alignment at committed
  simp only at committed
  split at committed
  · cases committed
    exact ⟨rfl, List.prefix_rfl, rfl, rfl⟩
  · split at committed
    · cases committed
      exact ⟨rfl, List.prefix_rfl, rfl, rfl⟩
    · cases committed
      exact ⟨rfl, List.prefix_append _ _, rfl, rfl⟩

/-- Every field of an accepted structure has an exact extent. -/
theorem fieldExtents_of_accepted : ∀ (forms : List FieldForm) {context after : LayoutContext}
    {layout next : Layout}, Tabled context.layouts table →
    layoutAddFields identifierP context layout forms = (after, next, true) →
    ∃ extents, fieldExtents table layout.packed forms = some extents := by
  intro forms
  induction forms with
  | nil =>
      intro context after layout next _ _
      exact ⟨[], rfl⟩
  | cons form rest ih =>
      intro context after layout next tabled added
      unfold layoutAddFields at added
      split at added
      · rename_i middle partial_ first
        obtain ⟨name, type, shape, rfl, resolved, storage, committed⟩ :=
          layoutAddField_eq_true first
        obtain ⟨same, _, mode, _⟩ := layoutCommitField_layouts committed
        rw [← same] at tabled
        obtain ⟨extents, known⟩ := ih tabled added
        rw [mode] at known
        rw [same] at tabled
        have here : formExtent table layout.packed (.field name type) =
            some (Extent.inMode layout.packed ⟨shape.size, shape.alignment⟩) := by
          simp only [formExtent, (fieldExtent_of_resolve tabled resolved storage).1,
            Option.map_some]
        exact ⟨_, fieldExtents_cons.mpr ⟨_, extents, here, known, rfl⟩⟩
      · rename_i failed
        rw [added] at failed
        exact (failed _ _ rfl).elim

/-- The fields of an accepted structure lie where the rule places them, unless one of them ends
exactly at the limit. -/
theorem layoutAddFields_builds : ∀ (rest : List FieldForm) {start context after : LayoutContext}
    {layout next : Layout} {forms : List FieldForm} {extents others : List Extent},
    Tabled start.layouts table → Building start forms extents context layout →
    fieldExtents table layout.packed rest = some others →
    (∀ field ∈ place (finish 0 extents) others, field.finish ≠ wordLimit) →
    layoutAddFields identifierP context layout rest = (after, next, true) →
    Building start (forms ++ rest) (extents ++ others) after next ∧
      next.packed = layout.packed ∧ next.name = layout.name := by
  intro rest
  induction rest with
  | nil =>
      intro start context after layout next forms extents others _ building known _ added
      cases known
      cases added
      rw [List.append_nil, List.append_nil]
      exact ⟨building, rfl, rfl⟩
  | cons form rest ih =>
      intro start context after layout next forms extents others tabled building known regular added
      obtain ⟨extent, later, first, remaining, rfl⟩ := fieldExtents_cons.mp known
      unfold layoutAddFields at added
      split at added
      · rename_i middle partial_ step
        obtain ⟨name, type, shape, rfl, resolved, storage, committed⟩ :=
          layoutAddField_eq_true step
        rw [building.layouts] at resolved
        obtain ⟨exact_, wordlike⟩ := fieldExtent_of_resolve tabled resolved storage
        simp only [formExtent, exact_, Option.map_some] at first
        cases first
        rw [place, List.forall_mem_cons] at regular
        obtain ⟨built, mode, sameName⟩ :=
          layoutCommitField_builds building wordlike regular.1 committed
        rw [← mode] at remaining
        have laterRegular := regular.2
        have moved : (Extent.placeAt (Extent.inMode layout.packed ⟨shape.size, shape.alignment⟩)
            (finish 0 extents)).finish =
            finish 0 (extents ++ [Extent.inMode layout.packed ⟨shape.size, shape.alignment⟩]) := by
          rw [finish_append]
          rfl
        rw [moved] at laterRegular
        obtain ⟨done, modeDone, nameDone⟩ := ih tabled built remaining laterRegular added
        rw [List.append_assoc, List.append_assoc] at done
        exact ⟨done, modeDone.trans mode, nameDone.trans sameName⟩
      · rename_i failed
        rw [added] at failed
        exact (failed _ _ rfl).elim

/-- What never changes while fields are added: the registered structures, the fields before, and
the name of the structure. -/
structure Extends (context : LayoutContext) (layout : Layout) (after : LayoutContext)
    (next : Layout) : Prop where
  layouts : after.layouts = context.layouts
  fields : context.fields <+: after.fields
  name : next.name = layout.name

theorem Extends.refl (context : LayoutContext) (layout : Layout) :
    Extends context layout context layout :=
  ⟨rfl, List.prefix_rfl, rfl⟩

theorem layoutAddField_extends {context after : LayoutContext} {layout next : Layout}
    {form : FieldForm} {success : Bool}
    (added : layoutAddField identifierP context form layout = (after, next, success)) :
    Extends context layout after next := by
  unfold layoutAddField layoutAddNamedField at added
  split at added
  · cases added
    exact .refl _ _
  split at added
  · cases added
    exact .refl _ _
  split at added
  · split at added
    · cases added
      exact .refl _ _
    split at added
    · cases added
      exact .refl _ _
    split at added
    · cases added
      exact .refl _ _
    · obtain ⟨same, grows, _, name⟩ := layoutCommitField_layouts added
      exact ⟨same, grows, name⟩
  · cases added
    exact .refl _ _

theorem layoutAddFields_extends : ∀ (forms : List FieldForm) {context after : LayoutContext}
    {layout next : Layout} {success : Bool},
    layoutAddFields identifierP context layout forms = (after, next, success) →
    Extends context layout after next := by
  intro forms
  induction forms with
  | nil =>
      intro context after layout next success added
      cases added
      exact .refl _ _
  | cons form rest ih =>
      intro context after layout next success added
      unfold layoutAddFields at added
      split at added
      · rename_i middle partial_ step
        have first := layoutAddField_extends step
        have later := ih added
        exact ⟨later.layouts.trans first.layouts, first.fields.trans later.fields,
          later.name.trans first.name⟩
      · exact layoutAddField_extends added

/-- A structure in the table with the exact layout of its form. -/
structure Recorded (fields : List LayoutField) (form : StructureForm) (extents : List Extent)
    (layout : Layout) : Prop where
  name : layout.name = form.name
  extent : layout.extent = recordOf extents
  below : layout.size < wordLimit
  inside : layout.first + layout.count ≤ fields.length
  placed : (layout.fieldsIn fields).map LayoutField.placed = place 0 extents
  declared : (layout.fieldsIn fields).map (fun field => some (field.name, field.typeAst)) =
    form.fields.map FieldForm.declared
  wordlike : Wordlike layout.extent
  aligned : ∀ extent ∈ extents, 0 < extent.alignment

theorem fieldsIn_of_initial {layout : Layout} {fields more : List LayoutField}
    (inside : layout.first + layout.count ≤ fields.length) (grows : fields <+: more) :
    layout.fieldsIn more = layout.fieldsIn fields := by
  obtain ⟨new, rfl⟩ := grows
  unfold Layout.fieldsIn
  rw [List.drop_append_of_le_length (by omega), List.take_append_of_le_length]
  rw [List.length_drop]
  omega

theorem Recorded.mono {fields more : List LayoutField} {form : StructureForm}
    {extents : List Extent} {layout : Layout} (recorded : Recorded fields form extents layout)
    (grows : fields <+: more) : Recorded more form extents layout :=
  { recorded with
    inside := recorded.inside.trans grows.length_le
    placed := by rw [fieldsIn_of_initial recorded.inside grows, recorded.placed]
    declared := by rw [fieldsIn_of_initial recorded.inside grows, recorded.declared] }

/-- No field of the structure ends exactly at the word limit. -/
def Regular (table : Extents) (form : StructureForm) : Prop :=
  ∀ extents, form.extents table = some extents →
    ∀ field ∈ place 0 extents, field.finish ≠ wordLimit

/-- The alignments of a resolved structure are positive. -/
theorem aligned_of_fieldExtents (tabled : Tabled layouts table) {packed : Bool} :
    ∀ (forms : List FieldForm) {extents : List Extent},
      fieldExtents table packed forms = some extents → ∀ extent ∈ extents, 0 < extent.alignment := by
  intro forms
  induction forms with
  | nil =>
      intro extents known extent member
      cases known
      exact (List.not_mem_nil member).elim
  | cons form rest ih =>
      intro extents known
      obtain ⟨extent, others, first, remaining, rfl⟩ := fieldExtents_cons.mp known
      refine List.forall_mem_cons.mpr ⟨?_, ih remaining⟩
      cases form with
      | malformed => cases first
      | field name type =>
          simp only [formExtent, Option.map_eq_some_iff] at first
          obtain ⟨plain, found, rfl⟩ := first
          unfold Extent.inMode
          split
          · exact Nat.one_pos
          · cases type with
            | struct name =>
                obtain ⟨_, low, _, power⟩ := tabled.wordlike name plain found
                rw [power]
                exact Nat.two_pow_pos low
            | void | value | boolean => cases found
            | _ =>
                cases found
                decide

/-- What a registration does: a rejection leaves the structures, and an acceptance adds the exact
layout of the structure unless a field ends exactly at the limit. -/
theorem nativeRegister_cases {context : LayoutContext} (tabled : Tabled context.layouts table)
    {form : StructureForm} {after : LayoutContext} {success : Bool}
    (registered : nativeRegister identifierP context form = (after, success)) :
    context.fields <+: after.fields ∧
    (success = false ∧ after.layouts = context.layouts ∨
      success = true ∧ nativeFindLayout context.layouts form.name = none ∧
      ∃ layout, layout.name = form.name ∧ after.layouts = context.layouts ++ [layout] ∧
        (Regular table form → ∃ extents, form.extents table = some extents ∧
          Recorded after.fields form extents layout)) := by
  have direct : nativeRegister identifierP context form = registerForm identifierP context form := by
    unfold nativeRegister nativeRegisterPackedLayout nativeRegisterLayout
    cases form with
    | mk name fields packed =>
        cases packed with
        | true => rfl
        | false => rfl
  rw [direct] at registered
  unfold registerForm at registered
  split at registered
  · cases registered
    exact ⟨List.prefix_rfl, .inl ⟨rfl, rfl⟩⟩
  split at registered
  · cases registered
    exact ⟨List.prefix_rfl, .inl ⟨rfl, rfl⟩⟩
  rename_i fresh
  split at registered
  · cases registered
    exact ⟨List.prefix_rfl, .inl ⟨rfl, rfl⟩⟩
  unfold nativeRegisterLayoutMode at registered
  split at registered
  · cases registered
    exact ⟨List.prefix_rfl, .inl ⟨rfl, rfl⟩⟩
  split at registered
  · rename_i middle _ added
    cases registered
    have kept := layoutAddFields_extends form.fields added
    exact ⟨kept.fields, .inl ⟨rfl, kept.layouts⟩⟩
  · rename_i middle layout added
    have kept := layoutAddFields_extends form.fields added
    simp only at registered
    split at registered
    · cases registered
      exact ⟨kept.fields, .inl ⟨rfl, kept.layouts⟩⟩
    · rename_i notBelow
      cases registered
      refine ⟨kept.fields, .inr ⟨rfl, ?_,
        { layout with size := layoutRoundUp layout.size layout.alignment }, kept.name,
        by rw [kept.layouts], ?_⟩⟩
      · exact Option.not_isSome_iff_eq_none.mp fresh
      · intro regular
        obtain ⟨extents, known⟩ := fieldExtents_of_accepted form.fields tabled added
        have start : Building context [] [] context
            { name := form.name, first := context.fields.length, packed := form.packed } :=
          ⟨rfl, rfl, rfl, rfl, ⟨[], (List.append_nil _).symm, rfl, rfl, rfl⟩, rfl, by decide, rfl,
            0, by decide, rfl⟩
        obtain ⟨built, _, _⟩ := layoutAddFields_builds form.fields tabled start known
          (regular extents known) added
        rw [List.nil_append, List.nil_append] at built
        obtain ⟨low, fits, power⟩ := built.wordlike
        have aligned := aligned_of_fieldExtents tabled form.fields known
        have rounded : layoutRoundUp layout.size layout.alignment =
            roundUp (finish 0 extents) (alignmentOf extents) := by
          rw [built.alignment, power, built.size] at notBelow ⊢
          exact layoutRoundUp_eq built.below fits notBelow
        have limit : layoutRoundUp layout.size layout.alignment < wordLimit := layoutRoundUp_lt
        obtain ⟨new, fields, count, placed, declared⟩ := built.appended
        have slice : (Layout.fieldsIn
            { layout with size := layoutRoundUp layout.size layout.alignment } middle.fields) =
            new := by
          unfold Layout.fieldsIn
          simp only [built.first, fields, List.drop_left, count, List.take_length]
        refine ⟨extents, known, kept.name, ?_, limit, ?_, ?_, ?_, ⟨limit, low, fits, ?_⟩, aligned⟩
        · unfold Layout.extent recordOf
          rw [rounded, built.alignment]
        · rw [built.first, fields, count, List.length_append]
        · rw [slice, placed]
        · rw [slice, declared]
        · exact built.alignment.trans power

end Structures

/-! ## Sequences of definitions -/

/-- After some accepted definitions: the table has the exact extents, and each definition has been
recorded with its exact layout. -/
structure Faithful (context : LayoutContext) (accepted : List StructureForm) : Prop where
  tabled : Tabled context.layouts (exactTable accepted)
  recorded : ∀ before form after, accepted = before ++ form :: after → ∃ extents layout,
    form.extents (exactTable before) = some extents ∧
      nativeFindLayout context.layouts form.name = some layout ∧
      Recorded context.fields form extents layout

section Sequences

variable {identifierP : String → Bool} {layoutCapacity fieldCapacity : Nat}

theorem nativeFindLayout_append {layouts : List Layout} {added : Layout} {name : String} :
    nativeFindLayout (layouts ++ [added]) name =
      (nativeFindLayout layouts name).or (if added.name = name then some added else none) := by
  unfold nativeFindLayout
  rw [List.find?_append]
  congr 1
  rw [List.find?_singleton]
  simp only [beq_iff_eq]

/-- The registered structures keep their records and fields whatever is registered next. -/
theorem nativeRegister_keeps {context : LayoutContext} {accepted : List StructureForm}
    (faithful : Faithful context accepted) (form : StructureForm) {name : String} {layout : Layout}
    (found : nativeFindLayout context.layouts name = some layout) :
    nativeFindLayout (nativeRegister identifierP context form).1.layouts name = some layout ∧
      (layout.first + layout.count ≤ context.fields.length →
        layout.fieldsIn (nativeRegister identifierP context form).1.fields =
          layout.fieldsIn context.fields) := by
  have step : nativeRegister identifierP context form =
    ((nativeRegister identifierP context form).1, (nativeRegister identifierP context form).2) := rfl
  obtain ⟨grows, outcome⟩ := nativeRegister_cases faithful.tabled step
  refine ⟨?_, fun inside => fieldsIn_of_initial inside grows⟩
  rcases outcome with ⟨_, same⟩ | ⟨_, _, added, _, same, _⟩
  · rw [same, found]
  · rw [same, nativeFindLayout_append, found, Option.some_or]

theorem Faithful.reject {context after : LayoutContext} {accepted : List StructureForm}
    (faithful : Faithful context accepted) (same : after.layouts = context.layouts)
    (grows : context.fields <+: after.fields) : Faithful after accepted := by
  refine ⟨by rw [same]; exact faithful.tabled, ?_⟩
  intro before form rest split
  obtain ⟨extents, layout, known, found, recorded⟩ := faithful.recorded before form rest split
  exact ⟨extents, layout, known, by rw [same, found], recorded.mono grows⟩

theorem Faithful.accept {context after : LayoutContext} {accepted : List StructureForm}
    (faithful : Faithful context accepted) {form : StructureForm} {layout : Layout}
    {extents : List Extent} (fresh : nativeFindLayout context.layouts form.name = none)
    (added : after.layouts = context.layouts ++ [layout])
    (grows : context.fields <+: after.fields)
    (known : form.extents (exactTable accepted) = some extents)
    (recorded : Recorded after.fields form extents layout) :
    Faithful after (accepted ++ [form]) := by
  have find (name : String) : nativeFindLayout after.layouts name =
      (nativeFindLayout context.layouts name).or
        (if form.name = name then some layout else none) := by
    rw [added, nativeFindLayout_append, recorded.name]
  refine ⟨⟨?_, ?_⟩, ?_⟩
  · intro name
    rw [find, exactTable_append]
    unfold addExtent
    by_cases same : name = form.name
    · subst same
      rw [fresh, Function.update_self, known, if_pos rfl, Option.none_or, Option.map_some,
        Option.map_some, recorded.extent]
    · rw [if_neg (Ne.symm same), Option.or_none, Function.update_of_ne same]
      exact faithful.tabled.agrees name
  · intro name extent present
    rw [exactTable_append] at present
    unfold addExtent at present
    by_cases same : name = form.name
    · subst same
      rw [Function.update_self, known, Option.map_some, ← recorded.extent] at present
      cases present
      exact recorded.wordlike
    · rw [Function.update_of_ne same] at present
      exact faithful.tabled.wordlike name extent present
  · intro before other rest split
    rcases List.eq_nil_or_concat rest with rfl | ⟨rest, last, rfl⟩
    · obtain ⟨rfl, ⟨⟩⟩ := List.append_inj' split rfl
      refine ⟨extents, layout, known, ?_, recorded⟩
      rw [find, fresh, if_pos rfl, Option.none_or]
    · rw [List.concat_eq_append, ← List.cons_append, ← List.append_assoc] at split
      obtain ⟨earlier, -⟩ := List.append_inj' split rfl
      obtain ⟨others, older, exact_, found, kept⟩ := faithful.recorded before other rest earlier
      refine ⟨others, older, exact_, ?_, kept.mono grows⟩
      rw [find, found, Option.some_or]

/-- The exact layouts survive a whole run whose structures are all regular. -/
theorem registerAll_faithful : ∀ (forms : List StructureForm) {context : LayoutContext}
    {accepted : List StructureForm}, Faithful context accepted →
    (∀ before form after, forms = before ++ form :: after →
      Regular (exactTable (accepted ++ (registerAll identifierP context before).2)) form) →
    Faithful (registerAll identifierP context forms).1
      (accepted ++ (registerAll identifierP context forms).2) := by
  intro forms
  induction forms with
  | nil =>
      intro context accepted faithful _
      rw [registerAll, List.append_nil]
      exact faithful
  | cons form rest ih =>
      intro context accepted faithful regular
      have here : Regular (exactTable accepted) form := by
        have first := regular [] form rest rfl
        rw [registerAll, List.append_nil] at first
        exact first
      have later : ∀ before other after, rest = before ++ other :: after →
          Regular (exactTable (accepted ++ (registerAll identifierP context (form :: before)).2))
            other := by
        intro before other after split
        exact regular (form :: before) other after (by rw [split, List.cons_append])
      have step : nativeRegister identifierP context form =
        ((nativeRegister identifierP context form).1,
          (nativeRegister identifierP context form).2) := rfl
      obtain ⟨grows, outcome⟩ := nativeRegister_cases faithful.tabled step
      rcases outcome with ⟨refused, same⟩ | ⟨passed, fresh, layout, _, added, exactly⟩
      · simp only [registerAll, refused, Bool.false_eq_true, ↓reduceIte] at later ⊢
        exact ih (faithful.reject same grows) later
      · obtain ⟨extents, known, recorded⟩ := exactly here
        simp only [registerAll, passed, ↓reduceIte] at later ⊢
        have rest := ih (faithful.accept fresh added grows known recorded) (by
          intro before other after split
          rw [List.append_assoc]
          exact later before other after split)
        rw [List.append_assoc] at rest
        exact rest

theorem Faithful.empty :
    Faithful { layoutCapacity, fieldCapacity } [] := by
  refine ⟨⟨fun _ => rfl, fun _ _ absent => by cases absent⟩, ?_⟩
  intro before form after split
  exact (List.cons_ne_nil _ _ (List.append_eq_nil_iff.mp split.symm).2).elim

/-- What a registered structure holds: the exact offsets, size and alignment, all below the word
limit, fields that are inside the structure and do not overlap, and what Stage 0 computes. -/
def HasExactLayout (run : LayoutContext × List StructureForm) (before : List StructureForm)
    (form : StructureForm) : Prop :=
  ∃ extents layout, form.extents (exactTable before) = some extents ∧
    nativeFindLayout run.1.layouts form.name = some layout ∧
    layout.extent = recordOf extents ∧ layout.size < wordLimit ∧
    (layout.fieldsIn run.1.fields).map LayoutField.placed = place 0 extents ∧
    (∀ field ∈ layout.fieldsIn run.1.fields, field.offset + field.size ≤ layout.size) ∧
    ((layout.fieldsIn run.1.fields).Pairwise fun field later =>
      field.offset + field.size ≤ later.offset) ∧
    ∀ ensureUserName stage0,
      registerStructures 64 ensureUserName (fun _ => none) run.2 = .ok stage0 →
      ∃ known, stage0 form.name = some known ∧ known.size = layout.size ∧
        known.alignment = layout.alignment ∧
        known.fields.map (fun field => (some (field.name, field.type), field.offset)) =
          (layout.fieldsIn run.1.fields).map fun field =>
            (some (field.name, field.typeAst), field.offset)

theorem Faithful.hasExactLayout {context : LayoutContext} {accepted : List StructureForm}
    (faithful : Faithful context accepted) {before after : List StructureForm}
    {form : StructureForm} (split : accepted = before ++ form :: after) :
    HasExactLayout (context, accepted) before form := by
  obtain ⟨extents, layout, known, found, recorded⟩ := faithful.recorded before form after split
  have ordered := @place_ordered 0 extents recorded.aligned
  refine ⟨extents, layout, known, found, recorded.extent, recorded.below, recorded.placed, ?_, ?_,
    ?_⟩
  · intro field member
    have inside : field.placed ∈ place 0 extents := by
      rw [← recorded.placed]
      exact List.mem_map_of_mem member
    have size : layout.size = (recordOf extents).size := congrArg Extent.size recorded.extent
    rw [size]
    exact finish_le_recordOf recorded.aligned inside
  · have disjoint := ordered.2.2
    rw [← recorded.placed, List.pairwise_map] at disjoint
    exact disjoint
  · intro ensureUserName stage0 registered
    have agrees : Stage0.Agrees (fun _ => none) (exactTable []) := fun _ => rfl
    obtain ⟨others, other, alsoKnown, follows, present⟩ :=
      (registerStructures_follows accepted agrees registered).2 before form after split
    rw [List.nil_append, known] at alsoKnown
    cases alsoKnown
    have extent : other.extent = layout.extent := follows.extent.trans recorded.extent.symm
    refine ⟨other, present, congrArg Extent.size extent, congrArg Extent.alignment extent, ?_⟩
    have offsets : other.fields.map FieldLayout.offset =
        (layout.fieldsIn context.fields).map LayoutField.offset := by
      have placed := congrArg (List.map Records.Placed.offset) recorded.placed
      rw [List.map_map] at placed
      exact follows.offsets.trans placed.symm
    have declared := follows.declared.trans recorded.declared.symm
    have zipped := congrArg₂ List.zip declared offsets
    rw [List.zip_map', List.zip_map'] at zipped
    exact zipped

end Sequences

/-- A byte and a word, with padding between them. -/
def pairForm : StructureForm :=
  ⟨"pair", [.field "a" .u8, .field "b" .u32], false⟩

/-- Structures that double in size, from eight bytes on. -/
def doubling : Nat → List StructureForm
  | 0 => [⟨"s0", [.field "a" .u64], false⟩]
  | count + 1 =>
      doubling count ++ [⟨"s" ++ toString (count + 1),
        [.field "a" (.struct ("s" ++ toString count)),
          .field "b" (.struct ("s" ++ toString count))], false⟩]

end Native
