import PslCompiler.Stage0.Layout

/-! # Stage 0 layouts follow the C rule

The exact extent of every structure over unbounded numbers, and the proof that registration in
Stage 0 for a 64-bit target computes it.
-/

namespace Stage0

open Records

/-! ## Exact extents -/

/-- The exact extents of the structures registered so far. -/
abbrev Extents := String → Option Extent

/-- The extent of a type that a field can have. -/
def fieldExtent (table : Extents) : Ty → Option Extent
  | .u8 | .s8 => some ⟨1, 1⟩
  | .u16 | .s16 => some ⟨2, 2⟩
  | .u32 | .s32 | .f32 => some ⟨4, 4⟩
  | .u64 | .s64 | .usize | .isize | .f64 => some ⟨8, 8⟩
  | .ptr _ _ _ => some ⟨8, 8⟩
  | .struct name => table name
  | .void | .value | .boolean => none

def formExtent (table : Extents) (packed : Bool) : FieldForm → Option Extent
  | .field _ type => (fieldExtent table type).map (Extent.inMode packed)
  | .malformed => none

/-- The extents of all fields of a structure, when each has one. -/
def fieldExtents (table : Extents) (packed : Bool) : List FieldForm → Option (List Extent)
  | [] => some []
  | form :: rest =>
      match formExtent table packed form, fieldExtents table packed rest with
      | some extent, some extents => some (extent :: extents)
      | _, _ => none

def StructureForm.extents (form : StructureForm) (table : Extents) : Option (List Extent) :=
  fieldExtents table form.packed form.fields

/-- Add the exact extent of a structure to the table. -/
def addExtent (table : Extents) (form : StructureForm) : Extents :=
  Function.update table form.name ((form.extents table).map recordOf)

def exactTable (forms : List StructureForm) : Extents :=
  forms.foldl addExtent fun _ => none

theorem exactTable_append (forms : List StructureForm) (form : StructureForm) :
    exactTable (forms ++ [form]) = addExtent (exactTable forms) form := by
  unfold exactTable
  rw [List.foldl_append, List.foldl_cons, List.foldl_nil]

theorem fieldExtents_cons {table : Extents} {packed : Bool} {form : FieldForm}
    {rest : List FieldForm} {extents : List Extent} :
    fieldExtents table packed (form :: rest) = some extents ↔
      ∃ extent others, formExtent table packed form = some extent ∧
        fieldExtents table packed rest = some others ∧ extents = extent :: others := by
  rw [fieldExtents]
  cases formExtent table packed form with
  | none => simp only [reduceCtorEq, false_and, exists_false]
  | some extent =>
      cases fieldExtents table packed rest with
      | none => simp only [reduceCtorEq, false_and, and_false, exists_false]
      | some others =>
          simp only [Option.some.injEq, exists_and_left, exists_eq_left']
          exact eq_comm

/-- The name and the type that a form declares. -/
def FieldForm.declared : FieldForm → Option (String × Ty)
  | .field name type => some (name, type)
  | .malformed => none

/-! ## Registration -/

section Registration

variable {layouts : Layouts} {table : Extents}

def PackedLayout.extent (layout : PackedLayout) : Extent :=
  ⟨layout.size, layout.alignment⟩

/-- The registered structures have their exact extents. -/
def Agrees (layouts : Layouts) (table : Extents) : Prop :=
  ∀ name, (layouts name).map PackedLayout.extent = table name

/-- The size and the alignment of a readable field type are those of its exact extent. -/
theorem fieldExtent_of_typeSize (agrees : Agrees layouts table) {type : Ty} {size : Nat}
    (read : readType layouts type = .ok ()) (unmanaged : type ≠ .value)
    (sized : typeSize 64 layouts type = .ok size) :
    ∃ extent, fieldExtent table type = some extent ∧ extent.size = size ∧
      typeAlignment 64 layouts type = .ok extent.alignment := by
  cases type with
  | value => exact (unmanaged rfl).elim
  | void => cases sized
  | boolean => cases read
  | struct name =>
      have known := agrees name
      simp only [typeSize] at sized
      simp only [typeAlignment, fieldExtent]
      cases found : layouts name with
      | none =>
          rw [found] at sized
          cases sized
      | some layout =>
          rw [found] at known sized
          cases sized
          exact ⟨layout.extent, known.symm, rfl, rfl⟩
  | _ =>
      cases sized
      exact ⟨_, rfl, rfl, rfl⟩

/-- The fields registered so far lie where the rule places them. -/
structure FieldsSoFar.Follows (soFar : FieldsSoFar) (forms : List FieldForm)
    (extents : List Extent) : Prop where
  offsets : soFar.fields.reverse.map FieldLayout.offset = (place 0 extents).map Placed.offset
  declared : soFar.fields.reverse.map (fun field => some (field.name, field.type)) =
    forms.map FieldForm.declared
  ends : soFar.offset = finish 0 extents
  alignment : soFar.alignment = alignmentOf extents

theorem one_le_alignmentOf (extents : List Extent) : 1 ≤ alignmentOf extents :=
  alignmentOf_pos

/-- Registering one field places it by the rule. -/
theorem registerField_follows (agrees : Agrees layouts table) {structureName : String}
    {packed : Bool} {soFar next : FieldsSoFar} {form : FieldForm} {forms : List FieldForm}
    {extents : List Extent} (follows : soFar.Follows forms extents)
    (registered : registerField 64 layouts structureName (!packed) soFar form = .ok next) :
    ∃ extent, formExtent table packed form = some extent ∧
      next.Follows (forms ++ [form]) (extents ++ [extent]) := by
  unfold registerField at registered
  simp only [bind_eq_ok] at registered
  obtain ⟨⟨field, nextOffset⟩, parsed, _, _, alignment, chosen, done⟩ := registered
  cases done
  cases form with
  | malformed => cases parsed
  | field name type =>
      unfold parseLayoutField at parsed
      simp only [bind_eq_ok, require_eq_ok] at parsed
      obtain ⟨_, read, alignedOffset, aligned, _, unmanaged, size, sized, result⟩ := parsed
      cases result
      obtain ⟨extent, known, sameSize, sameAlignment⟩ := fieldExtent_of_typeSize agrees read
        (bne_iff_ne.mp unmanaged) sized
      have placed : alignedOffset = ((extent.inMode packed).placeAt (finish 0 extents)).offset ∧
          alignment = max (alignmentOf extents) (extent.inMode packed).alignment := by
        cases packed with
        | true =>
            cases aligned
            cases chosen
            refine ⟨?_, ?_⟩
            · exact follows.ends.trans roundUp_one.symm
            · exact follows.alignment.trans (max_eq_left (one_le_alignmentOf extents)).symm
        | false =>
            simp only [Bool.not_false, ↓reduceIte, sameAlignment] at aligned chosen
            cases aligned
            cases chosen
            exact ⟨by rw [follows.ends]; rfl, by rw [follows.alignment]; rfl⟩
      have kept : (extent.inMode packed).size = size := by
        rw [← sameSize]
        unfold Extent.inMode
        split
        · rfl
        · rfl
      refine ⟨extent.inMode packed, ?_, ?_, ?_, ?_, ?_⟩
      · simp only [formExtent, known, Option.map_some]
      · rw [List.reverse_cons, List.map_append, follows.offsets, place_append, List.map_append,
          List.map_singleton, placed.1]
        rfl
      · rw [List.reverse_cons, List.map_append, follows.declared, List.map_append]
        rfl
      · rw [finish_append, placed.1, ← kept]
        rfl
      · rw [alignmentOf_append]
        exact placed.2

theorem registerFields_follows (agrees : Agrees layouts table) {structureName : String}
    {packed : Bool} : ∀ (rest : List FieldForm) {soFar last : FieldsSoFar}
      {forms : List FieldForm} {extents : List Extent}, soFar.Follows forms extents →
      registerFields 64 layouts structureName (!packed) soFar rest = .ok last →
      ∃ others, fieldExtents table packed rest = some others ∧
        last.Follows (forms ++ rest) (extents ++ others) := by
  intro rest
  induction rest with
  | nil =>
      intro soFar last forms extents follows registered
      cases registered
      refine ⟨[], rfl, ?_⟩
      rw [List.append_nil, List.append_nil]
      exact follows
  | cons form rest ih =>
      intro soFar last forms extents follows registered
      unfold registerFields at registered
      simp only [bind_eq_ok] at registered
      obtain ⟨next, first, later⟩ := registered
      obtain ⟨extent, known, followed⟩ := registerField_follows agrees follows first
      obtain ⟨others, remaining, done⟩ := ih followed later
      refine ⟨extent :: others, fieldExtents_cons.mpr ⟨extent, others, known, remaining, rfl⟩, ?_⟩
      rw [List.append_assoc, List.append_assoc] at done
      exact done

/-- A registered structure has the extent and the offsets of the exact rule. -/
structure PackedLayout.Follows (layout : PackedLayout) (form : StructureForm)
    (extents : List Extent) : Prop where
  extent : layout.extent = recordOf extents
  offsets : layout.fields.map FieldLayout.offset = (place 0 extents).map Placed.offset
  declared : layout.fields.map (fun field => some (field.name, field.type)) =
    form.fields.map FieldForm.declared

theorem registerStructure_follows (agrees : Agrees layouts table)
    {ensureUserName : String → Check Unit} {form : StructureForm} {after : Layouts}
    (registered : registerStructure 64 ensureUserName layouts form = .ok after) :
    ∃ extents layout, form.extents table = some extents ∧ layout.Follows form extents ∧
      layouts form.name = none ∧ after = Function.update layouts form.name (some layout) := by
  unfold registerStructure at registered
  simp only [bind_eq_ok, require_eq_ok] at registered
  obtain ⟨_, _, _, _, _, fresh, last, fields, done⟩ := registered
  cases done
  have start : FieldsSoFar.Follows {} [] [] := ⟨rfl, rfl, rfl, rfl⟩
  obtain ⟨extents, known, follows⟩ := registerFields_follows agrees form.fields start fields
  refine ⟨extents, _, known, ⟨?_, follows.offsets, follows.declared⟩,
    Option.isNone_iff_eq_none.mp fresh, rfl⟩
  unfold PackedLayout.extent recordOf alignOffset
  rw [follows.ends, follows.alignment]
  rfl

theorem agrees_addExtent (agrees : Agrees layouts table) {form : StructureForm}
    {extents : List Extent} {layout : PackedLayout} (known : form.extents table = some extents)
    (follows : layout.Follows form extents) :
    Agrees (Function.update layouts form.name (some layout)) (addExtent table form) := by
  intro name
  unfold addExtent
  by_cases same : name = form.name
  · subst same
    rw [Function.update_self, Function.update_self, known, Option.map_some, Option.map_some,
      follows.extent]
  · rw [Function.update_of_ne same, Function.update_of_ne same]
    exact agrees name

/-- Stage 0 gives every structure of a sequence of definitions its exact layout. -/
theorem registerStructures_follows {ensureUserName : String → Check Unit} :
    ∀ (rest : List StructureForm) {layouts last : Layouts} {forms : List StructureForm},
      Agrees layouts (exactTable forms) →
      registerStructures 64 ensureUserName layouts rest = .ok last →
      (∀ name layout, layouts name = some layout → last name = some layout) ∧
      ∀ before form after, rest = before ++ form :: after →
        ∃ extents layout, form.extents (exactTable (forms ++ before)) = some extents ∧
          layout.Follows form extents ∧ last form.name = some layout := by
  intro rest
  induction rest with
  | nil =>
      intro layouts last forms agrees registered
      cases registered
      refine ⟨fun _ _ found => found, ?_⟩
      intro before form after split
      exact (List.cons_ne_nil _ _ (List.append_eq_nil_iff.mp split.symm).2).elim
  | cons form rest ih =>
      intro layouts last forms agrees registered
      unfold registerStructures at registered
      simp only [bind_eq_ok] at registered
      obtain ⟨next, first, later⟩ := registered
      obtain ⟨extents, layout, known, follows, fresh, rfl⟩ :=
        registerStructure_follows agrees first
      have agreesNext := agrees_addExtent agrees known follows
      rw [← exactTable_append] at agreesNext
      obtain ⟨kept, all⟩ := ih agreesNext later
      refine ⟨?_, ?_⟩
      · intro name other found
        apply kept
        rw [Function.update_of_ne]
        · exact found
        · rintro rfl
          rw [fresh] at found
          cases found
      · intro before other after split
        cases before with
        | nil =>
            cases split
            rw [List.append_nil]
            exact ⟨extents, layout, known, follows, kept _ _ (Function.update_self _ _ _)⟩
        | cons head before =>
            cases split
            obtain ⟨extents, layout, known, follows, found⟩ := all before other after rfl
            refine ⟨extents, layout, ?_, follows, found⟩
            rw [List.append_assoc] at known
            exact known

end Registration

end Stage0
