import PslCompiler.Native.AggregateLeaves
import PslCompiler.Native.LayoutExact
import PslCompiler.Stage0.AbiLocations

/-! # Records that both compilers know

Stage 0 and the native compiler read the same structure definitions. A record that the native
compiler accepts as an argument has been checked field by field, so Stage 0 has laid it out alike,
whatever other structures the two tables hold.
-/

namespace Native

open Records Stage0

/-! ## Stage 0 keeps what it registers -/

section Registered

variable {layouts later : Layouts}

/-- The structures of a table are those of another one. -/
def KeptIn (layouts later : Layouts) : Prop :=
  ∀ name layout, layouts name = some layout → later name = some layout

theorem typeSize_kept (kept : KeptIn layouts later) {type : Ty} {size : Nat}
    (sized : typeSize 64 layouts type = .ok size) : typeSize 64 later type = .ok size := by
  cases type with
  | struct name =>
      simp only [typeSize] at sized ⊢
      cases found : layouts name with
      | none =>
          rw [found] at sized
          cases sized
      | some layout =>
          rw [found] at sized
          rw [kept name layout found]
          exact sized
  | _ => exact sized

theorem typeAlignment_kept (kept : KeptIn layouts later) {type : Ty} {alignment : Nat}
    (aligned : typeAlignment 64 layouts type = .ok alignment) :
    typeAlignment 64 later type = .ok alignment := by
  cases type with
  | struct name =>
      simp only [typeAlignment] at aligned ⊢
      cases found : layouts name with
      | none =>
          rw [found] at aligned
          cases aligned
      | some layout =>
          rw [found] at aligned
          rw [kept name layout found]
          exact aligned
  | _ => exact aligned

theorem readType_kept (kept : KeptIn layouts later) : ∀ {type : Ty},
    readType layouts type = .ok () → readType later type = .ok () := by
  intro type
  induction type with
  | struct name =>
      intro read
      simp only [readType, require_eq_ok] at read ⊢
      obtain ⟨layout, found⟩ := Option.isSome_iff_exists.mp read
      rw [kept name layout found]
      rfl
  | ptr pointee _ _ ih =>
      intro read
      simp only [readType, bind_eq_ok] at read ⊢
      obtain ⟨done, managed, inner⟩ := read
      exact ⟨done, managed, ih inner⟩
  | _ => exact fun read => read

theorem registerField_kept (kept : KeptIn layouts later) {name : String} {natural : Bool}
    {soFar next : FieldsSoFar} {form : FieldForm}
    (registered : registerField 64 layouts name natural soFar form = .ok next) :
    registerField 64 later name natural soFar form = .ok next := by
  unfold registerField parseLayoutField at registered ⊢
  cases form with
  | malformed =>
      simp only [bind_eq_ok] at registered
      obtain ⟨_, impossible, _⟩ := registered
      cases impossible
  | field fieldName type =>
      simp only [bind_eq_ok] at registered ⊢
      obtain ⟨⟨field, offset⟩, ⟨checked, read, alignedOffset, aligned, unmanaged, some, size, sized,
        result⟩, unique, fresh, alignment, chosen, done⟩ := registered
      cases result
      refine ⟨_, ⟨checked, readType_kept kept read, alignedOffset, ?_, unmanaged, some, size,
        typeSize_kept kept sized, rfl⟩, unique, fresh, alignment, ?_, done⟩
      · cases natural with
        | false => exact aligned
        | true =>
            simp only [↓reduceIte] at aligned ⊢
            cases found : typeAlignment 64 layouts type with
            | error message =>
                rw [found] at aligned
                cases aligned
            | ok amount =>
                rw [found] at aligned
                rw [typeAlignment_kept kept found]
                exact aligned
      · cases natural with
        | false => exact chosen
        | true =>
            simp only [↓reduceIte] at chosen ⊢
            cases found : typeAlignment 64 layouts type with
            | error message =>
                rw [found] at chosen
                cases chosen
            | ok amount =>
                rw [found] at chosen
                rw [typeAlignment_kept kept found]
                exact chosen

theorem registerFields_kept (kept : KeptIn layouts later) {name : String} {natural : Bool} :
    ∀ (forms : List FieldForm) {soFar last : FieldsSoFar},
      registerFields 64 layouts name natural soFar forms = .ok last →
        registerFields 64 later name natural soFar forms = .ok last := by
  intro forms
  induction forms with
  | nil => exact fun registered => registered
  | cons form rest ih =>
      intro soFar last registered
      simp only [registerFields, bind_eq_ok] at registered ⊢
      obtain ⟨next, first, others⟩ := registered
      exact ⟨next, registerField_kept kept first, ih others⟩

/-- A structure is laid out as its fields are registered in the table. -/
def LaidOut (layouts : Layouts) (form : StructureForm) (record : PackedLayout) : Prop :=
  ∃ last, registerFields 64 layouts form.name (!form.packed) {} form.fields = .ok last ∧
    record = ⟨form.name, last.fields.reverse, alignOffset last.offset last.alignment,
      last.alignment, form.packed⟩

theorem LaidOut.kept (kept : KeptIn layouts later) {form : StructureForm} {record : PackedLayout}
    (laidOut : LaidOut layouts form record) : LaidOut later form record := by
  obtain ⟨last, registered, same⟩ := laidOut
  exact ⟨last, registerFields_kept kept _ registered, same⟩

theorem registerStructure_laidOut {ensureUserName : String → Check Unit} {form : StructureForm}
    (registered : registerStructure 64 ensureUserName layouts form = .ok later) :
    layouts form.name = none ∧ ∃ record, LaidOut layouts form record ∧
      later = Function.update layouts form.name (some record) := by
  unfold registerStructure at registered
  simp only [bind_eq_ok, require_eq_ok] at registered
  obtain ⟨_, _, _, _, _, fresh, last, fields, done⟩ := registered
  cases done
  exact ⟨Option.isNone_iff_eq_none.mp fresh, _, ⟨last, fields, rfl⟩, rfl⟩

theorem keptIn_update {name : String} (fresh : layouts name = none) (record : PackedLayout) :
    KeptIn layouts (Function.update layouts name (some record)) := by
  intro other layout found
  rw [Function.update_of_ne]
  · exact found
  · rintro rfl
    rw [fresh] at found
    cases found

/-- Each structure of a sequence of definitions is laid out in the table at the end. -/
theorem registerStructures_laidOut {ensureUserName : String → Check Unit} :
    ∀ (forms : List StructureForm) {layouts later : Layouts},
      registerStructures 64 ensureUserName layouts forms = .ok later →
        KeptIn layouts later ∧ ∀ form ∈ forms, ∃ record, later form.name = some record ∧
          LaidOut later form record := by
  intro forms
  induction forms with
  | nil =>
      intro layouts later registered
      cases registered
      exact ⟨fun _ _ found => found, fun form member => absurd member List.not_mem_nil⟩
  | cons form rest ih =>
      intro layouts later registered
      simp only [registerStructures, bind_eq_ok] at registered
      obtain ⟨next, first, others⟩ := registered
      obtain ⟨fresh, record, laidOut, rfl⟩ := registerStructure_laidOut first
      obtain ⟨kept, all⟩ := ih others
      have grows := keptIn_update fresh record
      have whole : KeptIn layouts later := fun name layout found => kept _ _ (grows _ _ found)
      refine ⟨whole, ?_⟩
      intro other member
      cases List.mem_cons.mp member with
      | inl same =>
          subst same
          exact ⟨record, kept _ _ (Function.update_self _ _ _), laidOut.kept whole⟩
      | inr later => exact all other later

end Registered

/-! ## Records are nested in later ones only -/

/-- An order of the structures in which the fields of each lead to earlier ones. -/
structure Layered (layouts : Layouts) (rank : String → Nat) (count : Nat) : Prop where
  below : ∀ name record, layouts name = some record → rank name < count
  nested : ∀ name record, layouts name = some record → ∀ field ∈ record.fields, ∀ inner,
    field.type = .struct inner → (layouts inner).isSome = true ∧ rank inner < rank name

/-- The structure of a field has been registered. -/
theorem registerFields_known {layouts : Layouts} {name : String} {natural : Bool} :
    ∀ (forms : List FieldForm) {soFar last : FieldsSoFar},
      registerFields 64 layouts name natural soFar forms = .ok last →
      (∀ field ∈ soFar.fields, ∀ inner, field.type = .struct inner →
        (layouts inner).isSome = true) →
      ∀ field ∈ last.fields, ∀ inner, field.type = .struct inner →
        (layouts inner).isSome = true := by
  intro forms
  induction forms with
  | nil =>
      intro soFar last registered known
      cases registered
      exact known
  | cons form rest ih =>
      intro soFar last registered known
      simp only [registerFields, bind_eq_ok] at registered
      obtain ⟨next, first, others⟩ := registered
      apply ih others
      unfold registerField parseLayoutField at first
      cases form with
      | malformed =>
          simp only [bind_eq_ok] at first
          obtain ⟨_, impossible, _⟩ := first
          cases impossible
      | field fieldName type =>
          simp only [bind_eq_ok] at first
          obtain ⟨_, ⟨_, read, _, _, _, _, _, _, result⟩, _, _, _, _, done⟩ := first
          cases result
          cases done
          intro field member inner isRecord
          cases List.mem_cons.mp member with
          | inl same =>
              subst same
              dsimp only at isRecord
              subst isRecord
              simp only [readType, require_eq_ok] at read
              exact read
          | inr earlier => exact known field earlier inner isRecord

/-- A new structure comes after those that its fields lead to. -/
theorem Layered.add {layouts : Layouts} {rank : String → Nat} {count : Nat}
    (layered : Layered layouts rank count) {name : String} (fresh : layouts name = none)
    {record : PackedLayout} (known : ∀ field ∈ record.fields, ∀ inner,
      field.type = .struct inner → (layouts inner).isSome = true) :
    Layered (Function.update layouts name (some record)) (Function.update rank name count)
      (count + 1) := by
  have old : ∀ other, (layouts other).isSome = true → other ≠ name := by
    rintro other isSome rfl
    rw [fresh] at isSome
    cases isSome
  constructor
  · intro other layout found
    by_cases same : other = name
    · rw [same, Function.update_self]
      exact Nat.lt_succ_self _
    · rw [Function.update_of_ne same] at found ⊢
      exact Nat.lt_succ_of_lt (layered.below other layout found)
  · intro other layout found field member inner isRecord
    by_cases same : other = name
    · subst same
      rw [Function.update_self] at found
      cases found
      have isKnown := known field member inner isRecord
      obtain ⟨nested, innerFound⟩ := Option.isSome_iff_exists.mp isKnown
      rw [Function.update_self, Function.update_of_ne (old inner isKnown),
        Function.update_of_ne (old inner isKnown)]
      exact ⟨isKnown, layered.below inner nested innerFound⟩
    · rw [Function.update_of_ne same] at found
      obtain ⟨isKnown, less⟩ := layered.nested other layout found field member inner isRecord
      rw [Function.update_of_ne same, Function.update_of_ne (old inner isKnown),
        Function.update_of_ne (old inner isKnown)]
      exact ⟨isKnown, less⟩

theorem registerStructures_layered {ensureUserName : String → Check Unit} :
    ∀ (forms : List StructureForm) {layouts later : Layouts} {rank : String → Nat} {count : Nat},
      Layered layouts rank count →
      registerStructures 64 ensureUserName layouts forms = .ok later →
        ∃ rank, Layered later rank (count + forms.length) := by
  intro forms
  induction forms with
  | nil =>
      intro layouts later rank count layered registered
      cases registered
      exact ⟨rank, layered⟩
  | cons form rest ih =>
      intro layouts later rank count layered registered
      simp only [registerStructures, bind_eq_ok] at registered
      obtain ⟨next, first, others⟩ := registered
      obtain ⟨fresh, record, ⟨last, fields, rfl⟩, rfl⟩ := registerStructure_laidOut first
      have known := registerFields_known _ fields
        fun field member => absurd member List.not_mem_nil
      obtain ⟨rank, done⟩ := ih (layered.add fresh fun field member =>
        known field (List.mem_reverse.mp member)) others
      refine ⟨rank, ?_⟩
      rw [List.length_cons, Nat.add_comm rest.length 1, ← Nat.add_assoc]
      exact done

/-! ## The native compiler keeps what it accepts -/

section Accepted

variable {identifierP : String → Bool}

/-- A structure of the table is the one of a form. -/
structure OfForm (fields : List LayoutField) (form : StructureForm) (layout : Layout) : Prop where
  name : layout.name = form.name
  packed : layout.packed = form.packed
  inside : layout.first + layout.count ≤ fields.length
  declared : (layout.fieldsIn fields).map (fun field => some (field.name, field.typeAst)) =
    form.fields.map FieldForm.declared

theorem OfForm.mono {fields more : List LayoutField} {form : StructureForm} {layout : Layout}
    (ofForm : OfForm fields form layout) (grows : fields <+: more) : OfForm more form layout where
  name := ofForm.name
  packed := ofForm.packed
  inside := ofForm.inside.trans grows.length_le
  declared := by rw [fieldsIn_of_initial ofForm.inside grows, ofForm.declared]

/-- The fields that are added are those of the forms. -/
theorem layoutAddFields_declared : ∀ (forms : List FieldForm) {context after : LayoutContext}
    {layout next : Layout}, layoutAddFields identifierP context layout forms = (after, next, true) →
    ∃ added, after.fields = context.fields ++ added ∧ next.first = layout.first ∧
      next.count = layout.count + added.length ∧ next.packed = layout.packed ∧
      added.map (fun field => some (field.name, field.typeAst)) =
        forms.map FieldForm.declared := by
  intro forms
  induction forms with
  | nil =>
      intro context after layout next added
      cases added
      exact ⟨[], (List.append_nil _).symm, rfl, rfl, rfl, rfl⟩
  | cons form rest ih =>
      intro context after layout next added
      unfold layoutAddFields at added
      split at added
      · rename_i middle partial_ first
        obtain ⟨name, type, shape, rfl, _, _, committed⟩ := layoutAddField_eq_true first
        obtain ⟨others, fields, start, count, packed, declared⟩ := ih added
        unfold layoutCommitField at committed
        simp only at committed
        generalize (if layout.packed = true then 1 else shape.alignment) = alignment at committed
        split at committed
        · cases committed
        · split at committed
          · cases committed
          · cases committed
            refine ⟨⟨name, type, layoutRoundUp layout.size alignment, shape.size, alignment⟩ :: others,
              ?_, start, ?_, packed, ?_⟩
            · rw [fields, List.append_assoc, List.singleton_append]
            · rw [count, List.length_cons, Nat.add_comm others.length 1, ← Nat.add_assoc]
            · rw [List.map_cons, List.map_cons, declared]
              rfl
      · rename_i failed
        rw [added] at failed
        exact (failed _ _ rfl).elim

/-- A registration keeps the structures before, and an accepted one adds the structure of its
form. -/
theorem nativeRegister_ofForm {context after : LayoutContext} {form : StructureForm}
    {success : Bool} (registered : nativeRegister identifierP context form = (after, success)) :
    context.fields <+: after.fields ∧
      (after.layouts = context.layouts ∨
        ∃ layout, after.layouts = context.layouts ++ [layout] ∧ OfForm after.fields form layout) := by
  have direct : nativeRegister identifierP context form = registerForm identifierP context form := by
    unfold nativeRegister nativeRegisterPackedLayout nativeRegisterLayout
    cases form with
    | mk name fields packed =>
        cases packed with
        | true => rfl
        | false => rfl
  rw [direct] at registered
  unfold registerForm at registered
  split at registered
  · cases registered
    exact ⟨List.prefix_rfl, .inl rfl⟩
  split at registered
  · cases registered
    exact ⟨List.prefix_rfl, .inl rfl⟩
  split at registered
  · cases registered
    exact ⟨List.prefix_rfl, .inl rfl⟩
  unfold nativeRegisterLayoutMode at registered
  split at registered
  · cases registered
    exact ⟨List.prefix_rfl, .inl rfl⟩
  split at registered
  · rename_i middle _ added
    cases registered
    have kept := layoutAddFields_extends form.fields added
    exact ⟨kept.fields, .inl kept.layouts⟩
  · rename_i middle layout added
    have kept := layoutAddFields_extends form.fields added
    simp only at registered
    split at registered
    · cases registered
      exact ⟨kept.fields, .inl kept.layouts⟩
    · cases registered
      obtain ⟨new, fields, first, count, packed, declared⟩ :=
        layoutAddFields_declared form.fields added
      have slice : (Layout.fieldsIn
          { layout with size := layoutRoundUp layout.size layout.alignment } middle.fields) =
          new := by
        unfold Layout.fieldsIn
        simp only [first, fields, List.drop_left, count, Nat.zero_add, List.take_length]
      refine ⟨kept.fields, .inr
        ⟨{ layout with size := layoutRoundUp layout.size layout.alignment },
          by rw [kept.layouts], kept.name, packed, ?_, ?_⟩⟩
      · rw [first, fields, count, List.length_append, Nat.zero_add]
      · rw [slice, declared]

/-- Every structure of the table is that of a form. -/
theorem registerAll_ofForm : ∀ (forms earlier : List StructureForm) {context : LayoutContext},
    (∀ layout ∈ context.layouts, ∃ form ∈ earlier, OfForm context.fields form layout) →
    ∀ layout ∈ (registerAll identifierP context forms).1.layouts,
      ∃ form ∈ earlier ++ forms,
        OfForm (registerAll identifierP context forms).1.fields form layout := by
  intro forms
  induction forms with
  | nil =>
      intro earlier context all
      rw [List.append_nil]
      exact all
  | cons form rest ih =>
      intro earlier context all
      have split : earlier ++ form :: rest = (earlier ++ [form]) ++ rest := by
        rw [List.append_assoc, List.singleton_append]
      rw [split]
      apply ih (earlier ++ [form])
      have step : nativeRegister identifierP context form =
        ((nativeRegister identifierP context form).1,
          (nativeRegister identifierP context form).2) := rfl
      obtain ⟨grows, outcome⟩ := nativeRegister_ofForm step
      intro layout member
      have old : layout ∈ context.layouts → ∃ other ∈ earlier ++ [form],
          OfForm (nativeRegister identifierP context form).1.fields other layout := by
        intro isOld
        obtain ⟨other, isForm, ofForm⟩ := all layout isOld
        exact ⟨other, List.mem_append_left _ isForm, ofForm.mono grows⟩
      cases outcome with
      | inl same =>
          rw [same] at member
          exact old member
      | inr added =>
          obtain ⟨new, appended, ofForm⟩ := added
          rw [appended] at member
          cases List.mem_append.mp member with
          | inl isOld => exact old isOld
          | inr isNew =>
              cases List.mem_singleton.mp isNew
              exact ⟨form, List.mem_append_right _ List.mem_cons_self, ofForm⟩

end Accepted

/-! ## Both tables -/

/-- Both compilers have read the same structure definitions and accepted all of them. -/
structure Shared (forms : List StructureForm) (layouts : Layouts) (tables : LayoutContext) :
    Prop where
  registered : ∃ ensureUserName,
    registerStructures 64 ensureUserName (fun _ => none) forms = .ok layouts
  accepted : ∃ identifierP layoutCapacity fieldCapacity,
    registerAll identifierP { layoutCapacity, fieldCapacity } forms = (tables, forms)

section Shared

variable {forms : List StructureForm} {layouts : Layouts} {tables : LayoutContext}

theorem Shared.layered (shared : Shared forms layouts tables) :
    ∃ rank, Layered layouts rank forms.length := by
  obtain ⟨ensureUserName, registered⟩ := shared.registered
  have start : Layered (fun _ => none) (fun _ => 0) 0 := by
    constructor
    · intro name record absent
      cases absent
    · intro name record absent
      cases absent
  obtain ⟨rank, layered⟩ := registerStructures_layered forms start registered
  rw [Nat.zero_add] at layered
  exact ⟨rank, layered⟩

/-- A structure of the native table is in the table of Stage 0, laid out from the same form. -/
theorem Shared.record (shared : Shared forms layouts tables) {name : String} {layout : Layout}
    (found : nativeFindLayout tables.layouts name = some layout) :
    ∃ form record, form.name = name ∧ layouts name = some record ∧
      LaidOut layouts form record ∧ OfForm tables.fields form layout := by
  obtain ⟨ensureUserName, registered⟩ := shared.registered
  obtain ⟨identifierP, layoutCapacity, fieldCapacity, accepted⟩ := shared.accepted
  have all := @registerAll_ofForm identifierP forms [] { layoutCapacity, fieldCapacity }
    fun layout member => absurd member List.not_mem_nil
  rw [accepted] at all
  obtain ⟨form, member, ofForm⟩ := all layout (List.mem_of_find?_eq_some found)
  have called : layout.name = name := by
    have matched := List.find?_some found
    exact beq_iff_eq.mp matched
  obtain ⟨record, known, laidOut⟩ := (registerStructures_laidOut forms registered).2 form member
  have same : form.name = name := ofForm.name.symm.trans called
  rw [same] at known
  exact ⟨form, record, same, known, laidOut, ofForm⟩

/-- A record that both compilers lay out alike. -/
structure Alike (tables : LayoutContext) (layout : Layout) (record : PackedLayout) : Prop where
  natural : record.packed = false
  size : record.size = layout.size
  alignment : record.alignment = layout.alignment
  fields : record.fields.map (fun field => (field.offset, field.type)) =
    (layout.fieldsIn tables.fields).map fun field => (field.offset, field.typeAst)

/-- A type of a field has the same size and alignment for both, if records have. -/
theorem shape_alike {aggregate : Ty → Bool}
    (records : ∀ name layout, aggregate (.struct name) = true →
      nativeFindLayout tables.layouts name = some layout →
        ∃ record, layouts name = some record ∧ Alike tables layout record)
    {type : Ty} {shape : TypeShape}
    (accepted : sourceAggregateFieldTypeP tables.layouts aggregate type = true)
    (resolved : nativeResolveType tables.layouts type = some shape) :
    typeSize 64 layouts type = .ok shape.size ∧
      typeAlignment 64 layouts type = .ok shape.alignment := by
  cases type with
  | struct name =>
      cases found : nativeFindLayout tables.layouts name with
      | none =>
          simp only [nativeResolveType, found] at resolved
          cases resolved
      | some layout =>
          simp only [nativeResolveType, found, Option.some.injEq] at resolved
          subst resolved
          have isAggregate : aggregate (.struct name) = true := by
            simp only [sourceAggregateFieldTypeP, scalarTypeCode, found, Option.isSome_some,
              ↓reduceIte] at accepted
            exact accepted
          obtain ⟨record, known, alike⟩ := records name layout isAggregate found
          simp only [typeSize, typeAlignment, known, alike.size, alike.alignment, and_self]
  | ptr pointee const volatile =>
      simp only [nativeResolveType] at resolved
      split at resolved
      · split at resolved
        · cases resolved
        · cases resolved
          exact ⟨rfl, rfl⟩
      · cases resolved
  | value | void | boolean => cases accepted
  | _ =>
      cases resolved
      exact ⟨rfl, rfl⟩

/-- A field of a natural layout goes to the next multiple of its alignment. -/
theorem registerField_natural {name fieldName : String} {type : Ty} {soFar next : FieldsSoFar}
    {size alignment : Nat} (sized : typeSize 64 layouts type = .ok size)
    (aligned : typeAlignment 64 layouts type = .ok alignment)
    (registered : registerField 64 layouts name true soFar (.field fieldName type) = .ok next) :
    next = ⟨⟨fieldName, type, alignOffset soFar.offset alignment⟩ :: soFar.fields,
      alignOffset soFar.offset alignment + size, max soFar.alignment alignment⟩ := by
  unfold registerField parseLayoutField at registered
  simp only [bind_eq_ok, ↓reduceIte, aligned] at registered
  obtain ⟨_, ⟨_, _, _, placed, _, _, _, same, result⟩, _, _, _, chosen, done⟩ := registered
  cases placed
  rw [sized] at same
  cases same
  cases result
  simp only [aligned] at chosen
  cases chosen
  cases done
  rfl

/-- Fields that the native compiler has checked are where Stage 0 puts them. -/
theorem fields_alike {aggregate : Ty → Bool} {layout : Layout} {name : String}
    (records : ∀ name layout, aggregate (.struct name) = true →
      nativeFindLayout tables.layouts name = some layout →
        ∃ record, layouts name = some record ∧ Alike tables layout record) :
    ∀ (forms : List FieldForm) (fields : List LayoutField) {soFar last : FieldsSoFar},
      registerFields 64 layouts name true soFar forms = .ok last →
      fields.map (fun field => some (field.name, field.typeAst)) = forms.map FieldForm.declared →
      sourceAggregateFieldsP tables.layouts aggregate layout fields soFar.offset soFar.alignment =
        true →
      roundUp last.offset last.alignment = layout.size ∧ last.alignment = layout.alignment ∧
        last.fields.reverse.map (fun field => (field.offset, field.type)) =
          soFar.fields.reverse.map (fun field => (field.offset, field.type)) ++
            fields.map fun field => (field.offset, field.typeAst) := by
  intro forms
  induction forms with
  | nil =>
      intro fields soFar last registered declared checked
      cases registered
      cases List.map_eq_nil_iff.mp declared
      rw [sourceAggregateFieldsP, Bool.and_eq_true, decide_eq_true_eq, decide_eq_true_eq] at checked
      exact ⟨checked.1, checked.2, (List.append_nil _).symm⟩
  | cons form rest ih =>
      intro fields soFar last registered declared checked
      simp only [registerFields, bind_eq_ok] at registered
      obtain ⟨next, first, others⟩ := registered
      cases fields with
      | nil => cases declared
      | cons field fields =>
          rw [List.map_cons, List.map_cons, List.cons.injEq] at declared
          obtain ⟨own, later⟩ := declared
          rw [sourceAggregateFieldsP, Bool.and_eq_true] at checked
          obtain ⟨shaped, remaining⟩ := checked
          cases form with
          | malformed => cases own
          | field fieldName type =>
              simp only [FieldForm.declared, Option.some.injEq, Prod.mk.injEq] at own
              obtain ⟨rfl, rfl⟩ := own
              rw [sourceAggregateFieldShapeP] at shaped
              cases resolved : nativeResolveType tables.layouts field.typeAst with
              | none =>
                  rw [resolved] at shaped
                  cases shaped
              | some shape =>
                  simp only [resolved, Bool.and_eq_true, decide_eq_true_eq] at shaped
                  obtain ⟨⟨⟨offset, size⟩, alignment⟩, isField⟩ := shaped
                  obtain ⟨sized, aligned⟩ := shape_alike records isField resolved
                  have result := registerField_natural sized aligned first
                  subst result
                  have place : alignOffset soFar.offset shape.alignment = field.offset := offset.symm
                  have largest : max soFar.alignment shape.alignment =
                      if soFar.alignment < field.alignment then field.alignment
                      else soFar.alignment := by
                    rw [alignment]
                    split
                    · omega
                    · omega
                  obtain ⟨rounded, same, placed⟩ := ih fields others later (by
                    dsimp only
                    rw [largest, place, ← size]
                    exact remaining)
                  refine ⟨rounded, same, ?_⟩
                  rw [placed, List.reverse_cons, List.map_append, List.append_assoc, place]
                  rfl

/-- An accepted record is laid out alike, and its fields are of accepted types. -/
theorem Shared.alike (shared : Shared forms layouts tables) (levels : Nat) :
    ∀ name layout, sourceAggregateAtDepthP tables levels (.struct name) = true →
      nativeFindLayout tables.layouts name = some layout →
        ∃ record, layouts name = some record ∧ Alike tables layout record := by
  induction levels with
  | zero =>
      intro name layout accepted
      rw [sourceAggregateAtDepthP] at accepted
      cases accepted
  | succ levels ih =>
      intro name layout accepted found
      simp only [sourceAggregateAtDepthP, found, sourceAggregateLayoutP, Bool.and_eq_true,
        Bool.not_eq_true'] at accepted
      obtain ⟨⟨⟨⟨natural, _⟩, _⟩, _⟩, fields⟩ := accepted
      obtain ⟨form, record, same, known, ⟨last, registered, rfl⟩, ofForm⟩ := shared.record found
      have isNatural : form.packed = false := ofForm.packed.symm.trans natural
      rw [isNatural] at registered
      obtain ⟨rounded, alignment, placed⟩ := fields_alike ih _ _ registered ofForm.declared fields
      exact ⟨_, known, isNatural, rounded, alignment, placed⟩

end Shared

end Native
