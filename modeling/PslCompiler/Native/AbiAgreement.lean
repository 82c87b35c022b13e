import PslCompiler.Native.RecordClasses
import PslCompiler.Native.ResultLocations

/-! # Both compilers have one C ABI

Stage 0 puts every argument where the convention of the target does, in the same registers and at the
same offsets. With what has been shown for the native backends, functions of either compiler can call
those of the other, unless a record nests records more than 128 deep.
-/

namespace Native

open Records Stage0 Calling

variable {forms : List StructureForm} {layouts : Layouts} {tables : LayoutContext} {hosted : Bool}

/-! ## Scalars -/

/-- A type of a signature that is not a record, as Stage 0 tells it apart. -/
structure ScalarArgument (tables : LayoutContext) (type : Ty) : Prop where
  floating : type.floatTypeP = nativeAbiFloatP (scalarTypeCode tables.layouts type)
  argument : argumentOf tables type = .scalar type.floatTypeP
  known : type.floatTypeP = true ∨ (type.integerTypeP || type.pointerTypeP || type = .value) = true
  noRecord : ∀ name, type ≠ .struct name
  code : scalarTypeCode tables.layouts type ≠ 16

/-- An accepted parameter is a scalar or an accepted record. -/
theorem parameter_cases {type : Ty} (accepted : scalarParameterP tables hosted type = true) :
    ScalarArgument tables type ∨
      ∃ name layout fields, type = .struct name ∧ AcceptedRecord tables name layout fields := by
  rw [scalarParameterP] at accepted
  by_cases record : scalarTypeCode tables.layouts type = 16
  · rw [if_neg (by rw [record]; decide), if_pos record] at accepted
    exact .inr (acceptedRecord_of accepted)
  · refine .inl ⟨floatTypeP_eq _ _, ?_, ?_, ?_, record⟩
    · rw [argumentOf, if_neg record, floatTypeP_eq tables.layouts]
    · cases type with
      | void | boolean => cases accepted
      | struct name =>
          rw [scalarTypeCode] at accepted record
          split at record
          · exact absurd rfl record
          case isFalse missing =>
            rw [if_neg missing] at accepted
            cases accepted
      | _ => simp [Ty.floatTypeP, Ty.integerTypeP, Ty.pointerTypeP]
    · rintro name rfl
      rw [scalarTypeCode] at accepted record
      split at record
      · exact absurd rfl record
      case isFalse missing =>
        rw [if_neg missing] at accepted
        cases accepted

/-- Stage 0 looks for a record class only where the type is a record. -/
theorem aggregateInfo_scalar {type : Ty} {abi : Abi} {levels : Nat}
    (scalar : ScalarArgument tables type) : aggregateInfo layouts abi levels type = .ok none := by
  cases type with
  | struct name => exact absurd rfl (scalar.noRecord name)
  | _ => rfl

theorem aggregateInfo_record {name : String} {abi : Abi} {levels : Nat} {found : AggregateClass Ty}
    (known : cAggregateClasses layouts abi levels (.struct name) = .ok (some found)) :
    aggregateInfo layouts abi levels (.struct name) = .ok (some found) := by
  rw [aggregateInfo, known]
  rfl

/-! ## Runs through the arguments -/

/-- If Stage 0 goes along with a convention for each argument, so it does for all. -/
theorem argumentPlaces_eq {Location : Type} {info : Ty → Check (Option (AggregateClass Ty))}
    {location : Ty → Option (AggregateClass Ty) → Used → Check (Location × Used)}
    {places : Location → List Place} {convention : Convention Argument} {machine : Place → Place}
    {along : Used → Used → Prop}
    (step : ∀ type used state, scalarParameterP tables hosted type = true → along used state →
      ∃ found located, info type = .ok found ∧ location type found state = .ok located ∧
        places located.1 =
          (used.deal (convention.kinds used (argumentOf tables type))).map machine ∧
        along (convention.after used (argumentOf tables type)) located.2) :
    ∀ (types : List Ty) (used state : Used),
      (∀ type ∈ types, scalarParameterP tables hosted type = true) → along used state →
      argumentPlaces info location places types state =
        .ok ((convention.places used (types.map (argumentOf tables))).map (List.map machine)) := by
  intro types
  induction types with
  | nil => exact fun _ _ _ _ => rfl
  | cons type rest ih =>
      intro used state accepted together
      obtain ⟨found, ⟨first, next⟩, known, located, same, later⟩ :=
        step type used state (accepted type List.mem_cons_self) together
      have others := ih _ next (fun other member => accepted other (List.mem_cons_of_mem _ member))
        later
      rw [argumentPlaces, known]
      change (location type found state >>= _) = _
      rw [located]
      change (argumentPlaces info location places rest next >>= _) = _
      rw [others, List.map_cons, Convention.places, List.map_cons, ← same]
      rfl

/-! ## System V -/

/-- No word of a record is on the stack by its class. -/
theorem wordClasses_stack (size : Nat) (fields : List ScalarField) :
    Kind.stack ∉ wordClasses size fields := by
  rw [wordClasses, List.mem_filterMap]
  rintro ⟨part, _, found⟩
  rw [wordClass] at found
  split at found
  · cases found
  · split at found
    · cases found
    · cases found

theorem count_wordClassOf : ∀ (kinds : List Calling.Kind), Kind.stack ∉ kinds →
    (kinds.map AbiTarget.wordClassOf).count .integer = kinds.count .general ∧
      (kinds.map AbiTarget.wordClassOf).count .sse = kinds.count .floating := by
  intro kinds
  induction kinds with
  | nil => exact fun _ => ⟨rfl, rfl⟩
  | cons kind rest ih =>
      intro noStack
      obtain ⟨integers, floats⟩ := ih fun member => noStack (List.mem_cons_of_mem _ member)
      simp only [List.map_cons, List.count_cons, integers, floats]
      cases kind with
      | general => exact ⟨rfl, rfl⟩
      | floating => exact ⟨rfl, rfl⟩
      | stack => exact absurd List.mem_cons_self noStack

/-- The registers that Stage 0 takes for the words of a record. -/
theorem sysvTakeRegisters_eq : ∀ (kinds : List Calling.Kind) (used : Used), Kind.stack ∉ kinds →
    used.general + kinds.count .general ≤ 6 → used.floating + kinds.count .floating ≤ 8 →
    sysvTakeRegisters (kinds.map AbiTarget.wordClassOf) used =
      (used.deal kinds).map AbiTarget.systemV.machinePlace := by
  have generals : ∀ index < 6, Abi.sysvAmd64.argumentRegisters.getD index 0 =
      x86LirMoveArgumentGp index := by decide
  have floatings : ∀ index < 8, Abi.sysvAmd64.floatArgumentRegisters.getD index 0 = index := by
    decide
  intro kinds
  induction kinds with
  | nil => exact fun _ _ _ _ => rfl
  | cons kind rest ih =>
      intro used noStack general floating
      have others := fun used => ih used fun member => noStack (List.mem_cons_of_mem _ member)
      rw [List.count_cons] at general floating
      cases kind with
      | general =>
          simp only [beq_self_eq_true, ↓reduceIte, reduceCtorEq, beq_iff_eq, Nat.add_zero]
            at general floating
          have room : used.general + 1 + rest.count .general ≤ 6 := by omega
          have later := others (used.take .general) room floating
          rw [List.map_cons, AbiTarget.wordClassOf, sysvTakeRegisters, generals _ (by omega)]
          · exact congrArg (_ :: ·) later
          · intros
            contradiction
      | floating =>
          simp only [beq_self_eq_true, ↓reduceIte, reduceCtorEq, beq_iff_eq, Nat.add_zero]
            at general floating
          have room : used.floating + 1 + rest.count .floating ≤ 8 := by omega
          have later := others (used.take .floating) general room
          rw [List.map_cons, AbiTarget.wordClassOf, sysvTakeRegisters, floatings _ (by omega)]
          exact congrArg (_ :: ·) later
      | stack => exact absurd List.mem_cons_self noStack

/-- A record goes into registers as a whole, or to the stack as a whole. -/
theorem sysvLocation_record (name : String) {kinds : List Calling.Kind} (used : Used)
    (noStack : Kind.stack ∉ kinds) :
    sysvArgumentLocation (.struct name) (some (.words (kinds.map AbiTarget.wordClassOf))) used =
      .ok (if used.general + kinds.count .general ≤ 6 ∧ used.floating + kinds.count .floating ≤ 8 then
          (.aggregateRegisters (sysvTakeRegisters (kinds.map AbiTarget.wordClassOf) used),
            used.takeAll kinds)
        else (.aggregateStack used.stack kinds.length,
          used.takeAll (List.replicate kinds.length .stack))) := by
  obtain ⟨integers, floats⟩ := count_wordClassOf kinds noStack
  change (if used.general + List.count WordClass.integer _ ≤ 6 ∧
    used.floating + List.count WordClass.sse _ ≤ 8 then _ else _) = _
  rw [integers, floats, Used.takeAll_eq, Used.takeAll_eq, List.count_eq_zero.mpr noStack,
    List.length_map]
  simp only [count_replicate_stack, List.count_replicate_self]
  split
  · rfl
  · rfl

theorem sysv_step (shared : Shared forms layouts tables) {levels : Nat}
    (deep : forms.length ≤ levels) (type : Ty) (used state : Used)
    (accepted : scalarParameterP tables hosted type = true)
    (together : used = state ∧ used.WithinFiles 6 8) :
    ∃ found located, aggregateInfo layouts .sysvAmd64 levels type = .ok found ∧
      sysvArgumentLocation type found state = .ok located ∧
      located.1.places = (used.deal (systemV.kinds used (argumentOf tables type))).map
        AbiTarget.systemV.machinePlace ∧
      systemV.after used (argumentOf tables type) = located.2 ∧
        (systemV.after used (argumentOf tables type)).WithinFiles 6 8 := by
  obtain ⟨rfl, within⟩ := together
  have stays := systemV_lawful.stays used (argumentOf tables type) within
  obtain ⟨general, floating⟩ := within
  have generals : ∀ index < 6, Abi.sysvAmd64.argumentRegisters.getD index 0 =
      x86LirMoveArgumentGp index := by decide
  have floatings : ∀ index < 8, Abi.sysvAmd64.floatArgumentRegisters.getD index 0 = index := by
    decide
  obtain scalar | ⟨name, layout, fields, rfl, record⟩ := parameter_cases accepted
  · refine ⟨none, ?_⟩
    rw [scalar.argument] at stays ⊢
    simp only [systemV, sysvArgumentLocation] at stays ⊢
    cases float : type.floatTypeP with
    | true =>
        rw [float] at stays
        by_cases room : used.floating < 8
        · refine ⟨_, aggregateInfo_scalar scalar, if_pos room, ?_, ?_, stays⟩
          · rw [SysvLocation.places, floatings _ room, systemVKinds, if_pos room]
            rfl
          · rw [systemVKinds, if_pos room]
            rfl
        · refine ⟨_, aggregateInfo_scalar scalar, if_neg room, ?_, ?_, stays⟩
          · rw [SysvLocation.places, systemVKinds, if_neg room]
            rfl
          · rw [systemVKinds, if_neg room]
            rfl
    | false =>
        have known := scalar.known.resolve_left (by rw [float]; decide)
        rw [float] at stays
        simp only [Bool.false_eq_true, ↓reduceIte, known]
        by_cases room : used.general < 6
        · refine ⟨_, aggregateInfo_scalar scalar, if_pos room, ?_, ?_, stays⟩
          · rw [SysvLocation.places, generals _ room, systemVKinds, if_pos room]
            rfl
          · rw [systemVKinds, if_pos room]
            rfl
        · refine ⟨_, aggregateInfo_scalar scalar, if_neg room, ?_, ?_, stays⟩
          · rw [SysvLocation.places, systemVKinds, if_neg room]
            rfl
          · rw [systemVKinds, if_neg room]
            rfl
  · obtain ⟨found, classified, same⟩ := record.stage0Class shared .systemV deep
    rw [AbiTarget.conventionClass] at same
    cases found with
    | words classes =>
        rw [AggregateClass.map, AggregateClass.words.injEq] at same
        subst same
        have noStack := wordClasses_stack layout.size (fields.map fieldOf)
        have length : (wordClasses layout.size (fields.map fieldOf)).length =
            wordsOf layout.size := by
          rw [record.wordClasses, List.length_map, List.length_range]
        refine ⟨_, _, aggregateInfo_record classified, sysvLocation_record name used noStack, ?_⟩
        rw [length]
        rw [record.argument] at stays ⊢
        simp only [systemV, systemVKinds] at stays ⊢
        by_cases room : used.general + (wordClasses layout.size (fields.map fieldOf)).count .general ≤
              6 ∧
            used.floating + (wordClasses layout.size (fields.map fieldOf)).count .floating ≤ 8
        · rw [if_pos room] at stays ⊢
          rw [if_pos room]
          exact ⟨sysvTakeRegisters_eq _ used noStack room.1 room.2, rfl, stays⟩
        · rw [if_neg room] at stays ⊢
          rw [if_neg room]
          refine ⟨?_, rfl, stays⟩
          rw [SysvLocation.places, Used.deal_stack, List.map_map]
          rfl
    | _ => cases same

/-! ## AAPCS64 -/

/-- The counters of Stage 0, which count the stack in bytes. -/
def inBytes (used : Used) : Used :=
  { used with stack := 8 * used.stack }

/-- The last of ordered fields has the largest offset. -/
theorem le_last {fields : List (Nat × Nat)}
    (ordered : fields.Pairwise fun first second => first.1 ≤ second.1) {last : Nat × Nat}
    (isLast : fields.getLast? = some last) : ∀ field ∈ fields, field.1 ≤ last.1 := by
  obtain ⟨front, rfl⟩ := List.getLast?_eq_some_iff.mp isLast
  intro field member
  rw [List.pairwise_append] at ordered
  cases List.mem_append.mp member with
  | inl early => exact ordered.2.2 field early last List.mem_cons_self
  | inr same =>
      cases List.mem_singleton.mp same
      exact Nat.le_refl _

/-- Homogeneous fields reach into the last word of their record. -/
theorem AcceptedRecord.hfaWords {name : String} {layout : Layout} {fields : List (Nat × Nat)}
    (record : AcceptedRecord tables name layout fields) {type : Ty}
    (isHomogeneous : homogeneous (fields.map fieldOf) = true)
    (same : scalarTypeCode tables.layouts type = (fields.head?.map Prod.snd).getD 0) :
    aapcsAggregateWords (.hfa type (fields.map Prod.fst)) = wordsOf layout.size := by
  have positive := record.positive
  obtain ⟨reaching, member, inWord⟩ := record.natural.word record.small
    (show 8 * (wordsOf layout.size - 1) < layout.size by rw [wordsOf]; omega)
  cases fields with
  | nil => cases member
  | cons first rest =>
      obtain ⟨_, isFloat, codes⟩ := homogeneous_iff.mp isHomogeneous
      change _ = first.2 at same
      have width : scalarWidth type / 8 = codeWidth first.2 := by
        have float : type.floatTypeP = true := by
          rw [floatTypeP_eq tables.layouts, same]
          exact isFloat
        rw [← same]
        cases type with
        | f32 | f64 =>
            rw [scalarTypeCode]
            rfl
        | _ => cases float
      obtain ⟨last, isLast⟩ : ∃ last, (first :: rest).getLast? = some last :=
        ⟨_, List.getLast?_eq_some_getLast (List.cons_ne_nil first rest)⟩
      have isField := List.mem_of_getLast? isLast
      have code : last.2 = first.2 := by
        cases List.mem_cons.mp isField with
        | inl same => rw [same]
        | inr later => exact codes last later
      have inside := record.natural.inside last isField
      have largest := le_last record.ordered isLast reaching member
      have wide := Nat.pos_of_dvd_of_pos
        (fieldCode_bounds (record.natural.codes first List.mem_cons_self)).2.2 (by decide)
      rw [code] at inside
      rw [aapcsAggregateWords, aapcsAggregateSize, List.getLast?_map, isLast, width]
      change (last.1 + codeWidth first.2 + 7) / 8 = _
      rw [wordsOf] at inWord ⊢
      omega

theorem aapcsStack_places (used : Used) (words : Nat) :
    (AapcsLocation.stack (8 * used.stack) (8 * words)).places =
      (used.deal (List.replicate words .stack)).map AbiTarget.aapcs64.machinePlace := by
  have bytes : (8 * words + 7) / 8 = words := by omega
  rw [AapcsLocation.places, Used.deal_stack, List.map_map, bytes]
  apply List.map_congr_left
  intro part _
  rw [Function.comp_apply, AbiTarget.machinePlace, Nat.mul_add]

theorem aapcs_scalar {type : Ty} (scalar : ScalarArgument tables type) (used : Used) :
    ∃ located, aapcsArgumentLocation type none (inBytes used) = .ok located ∧
      located.1.places = (used.deal (aapcs64Kinds used (.scalar type.floatTypeP))).map
        AbiTarget.aapcs64.machinePlace ∧
      located.2 = inBytes (aapcs64After used (.scalar type.floatTypeP)) := by
  have onStack := aapcsStack_places used 1
  simp only [aapcsArgumentLocation, inBytes]
  cases float : type.floatTypeP with
  | true =>
      by_cases room : used.floating < 8
      · refine ⟨_, if_pos room, ?_, ?_⟩
        · rw [aapcs64Kinds, if_pos room]
          rfl
        · rw [aapcs64After, aapcs64Kinds, if_pos room]
          rfl
      · refine ⟨_, if_neg room, ?_, ?_⟩
        · rw [aapcs64Kinds, if_neg room]
          exact onStack
        · rw [aapcs64After, aapcs64Kinds, if_neg room]
          rfl
  | false =>
      have known := scalar.known.resolve_left (by rw [float]; decide)
      rw [known]
      by_cases room : used.general < 8
      · refine ⟨_, if_pos room, ?_, ?_⟩
        · rw [aapcs64Kinds, if_pos room]
          rfl
        · rw [aapcs64After, aapcs64Kinds, if_pos room]
          rfl
      · refine ⟨_, if_neg room, ?_, ?_⟩
        · rw [aapcs64Kinds, if_neg room]
          exact onStack
        · rw [aapcs64After, aapcs64Kinds, if_neg room]
          rfl

/-- A homogeneous record goes into floating-point registers as a whole, or to the stack. -/
theorem aapcs_hfa (name : String) {kind : Ty} {offsets : List Nat} {size : Nat}
    {fields : List ScalarField} (used : Used) (isHomogeneous : homogeneous fields = true)
    (length : offsets.length = fields.length)
    (words : aapcsAggregateWords (.hfa kind offsets) = wordsOf size) :
    ∃ located, aapcsArgumentLocation (.struct name) (some (.hfa kind offsets)) (inBytes used) =
        .ok located ∧
      located.1.places = (used.deal (aapcs64Kinds used (.record size fields))).map
        AbiTarget.aapcs64.machinePlace ∧
      located.2 = inBytes (aapcs64After used (.record size fields)) := by
  simp only [aapcsArgumentLocation, aapcs64After, aapcs64Kinds, words, isHomogeneous, ↓reduceIte,
    ← length]
  by_cases room : used.floating + offsets.length ≤ 8
  · refine ⟨_, if_pos room, ?_, ?_⟩
    · rw [if_pos room, Used.deal_floating, List.map_map, AapcsLocation.places]
      rfl
    · rw [if_pos room, if_pos room, Used.takeAll_eq]
      simp only [List.count_replicate_self, inBytes]
      simp [List.count_replicate]
  · refine ⟨_, if_neg room, ?_, ?_⟩
    · rw [if_neg room]
      exact aapcsStack_places used _
    · rw [if_neg room, if_neg room, Used.takeAll_eq]
      simp only [List.count_replicate_self, inBytes, count_replicate_stack, Nat.add_zero,
        Nat.mul_add]

/-- Other records go into general registers as a whole, or to the stack. -/
theorem aapcs_general (name : String) {size : Nat} {fields : List ScalarField} (used : Used)
    (isNot : ¬ homogeneous fields = true) :
    ∃ located, aapcsArgumentLocation (.struct name) (some (.general size)) (inBytes used) =
        .ok located ∧
      located.1.places = (used.deal (aapcs64Kinds used (.record size fields))).map
        AbiTarget.aapcs64.machinePlace ∧
      located.2 = inBytes (aapcs64After used (.record size fields)) := by
  have words : aapcsAggregateWords (.general size) = wordsOf size := rfl
  simp only [aapcsArgumentLocation, aapcs64After, aapcs64Kinds, words, if_neg isNot]
  by_cases room : used.general + wordsOf size ≤ 8
  · refine ⟨_, if_pos room, ?_, ?_⟩
    · rw [if_pos room, Used.deal_general, List.map_map, AapcsLocation.places]
      rfl
    · rw [if_pos room, if_pos room, Used.takeAll_eq]
      simp only [List.count_replicate_self, inBytes]
      simp [List.count_replicate]
  · refine ⟨_, if_neg room, ?_, ?_⟩
    · rw [if_neg room]
      exact aapcsStack_places used _
    · rw [if_neg room, if_neg room, Used.takeAll_eq]
      simp only [List.count_replicate_self, inBytes, count_replicate_stack, Nat.add_zero,
        Nat.mul_add]

theorem aapcs_step (shared : Shared forms layouts tables) {levels : Nat}
    (deep : forms.length ≤ levels) (type : Ty) (used state : Used)
    (accepted : scalarParameterP tables hosted type = true) (together : inBytes used = state) :
    ∃ found located, aggregateInfo layouts .aapcs64 levels type = .ok found ∧
      aapcsArgumentLocation type found state = .ok located ∧
      located.1.places = (used.deal (aapcs64.kinds used (argumentOf tables type))).map
        AbiTarget.aapcs64.machinePlace ∧
      inBytes (aapcs64.after used (argumentOf tables type)) = located.2 := by
  subst together
  obtain scalar | ⟨name, layout, fields, rfl, record⟩ := parameter_cases accepted
  · obtain ⟨located, place, same, next⟩ := aapcs_scalar scalar used
    rw [scalar.argument]
    exact ⟨none, located, aggregateInfo_scalar scalar, place, same, next.symm⟩
  · obtain ⟨found, classified, same⟩ := record.stage0Class shared .aapcs64 deep
    have info := aggregateInfo_record classified
    rw [AbiTarget.conventionClass] at same
    rw [record.argument]
    split at same
    case isTrue isHomogeneous =>
      cases found with
      | hfa kind offsets =>
          rw [AggregateClass.map, AggregateClass.hfa.injEq] at same
          obtain ⟨code, rfl⟩ := same
          obtain ⟨located, place, sent, next⟩ := aapcs_hfa name used isHomogeneous
            (by rw [List.length_map, List.length_map]) (record.hfaWords isHomogeneous code)
          exact ⟨_, located, info, place, sent, next.symm⟩
      | _ => cases same
    case isFalse isNot =>
      cases found with
      | general size =>
          rw [AggregateClass.map, AggregateClass.general.injEq] at same
          subst same
          obtain ⟨located, place, sent, next⟩ := aapcs_general name used isNot
          exact ⟨_, located, info, place, sent, next.symm⟩
      | _ => cases same

/-! ## LP64D -/

/-- A word is in the next register, if there is one, or in the next word of the stack. -/
theorem generalParts_next {used : Used} {kind : Calling.Kind} (words : Nat)
    (next : kind = if used.general < 8 then .general else .stack) :
    generalParts (words + 1) (inBytes used) =
      (AbiTarget.lp64d.machinePlace (used.next kind) ::
        (generalParts words (inBytes (used.take kind))).1,
        (generalParts words (inBytes (used.take kind))).2) := by
  subst next
  rw [generalParts]
  by_cases room : used.general < 8
  · simp only [inBytes, room, ↓reduceIte]
    rfl
  · simp only [inBytes, room, ↓reduceIte]
    rfl

/-- One or two words are where the integer rules have them. -/
theorem generalParts_eq {used : Used} {words : Nat} (some : 1 ≤ words) (two : words ≤ 2) :
    generalParts words (inBytes used) =
      ((used.deal (integerKinds used words)).map AbiTarget.lp64d.machinePlace,
        inBytes (used.takeAll (integerKinds used words))) := by
  have first : ∀ (used : Used) (words : Nat), used.general < 8 →
      generalParts (words + 1) (inBytes used) = _ :=
    fun used words room => @generalParts_next used .general words (if_pos room).symm
  have onStack : ∀ (used : Used) (words : Nat), ¬ used.general < 8 →
      generalParts (words + 1) (inBytes used) = _ :=
    fun used words full => @generalParts_next used .stack words (if_neg full).symm
  obtain rfl | rfl : words = 1 ∨ words = 2 := by omega
  · rw [integerKinds, if_pos (Nat.le_refl _)]
    by_cases room : used.general < 8
    · rw [if_pos room, first used 0 room]
      rfl
    · rw [if_neg room, onStack used 0 room]
      rfl
  · rw [integerKinds, if_neg (by decide)]
    by_cases both : used.general + 2 ≤ 8
    · rw [if_pos both, first used 1 (by omega), first (used.take .general) 0 (Nat.lt_of_succ_le both)]
      rfl
    · rw [if_neg both]
      by_cases room : used.general < 8
      · have full : ¬ (used.take .general).general < 8 := mt Nat.succ_le_of_lt both
        rw [if_pos room, first used 1 room, onStack (used.take .general) 0 full]
        rfl
      · rw [if_neg room, onStack used 1 room, onStack (used.take .stack) 0 room]
        rfl

/-- Each field on its own is in the next register of its file. -/
theorem specialFieldParts_eq {known : List Layout} : ∀ (leaves : List (Nat × Ty)) (used : Used),
    specialFieldParts leaves (inBytes used) =
      ((used.deal (fieldKinds ((leaves.map (codedLeaf known)).map fieldOf))).map
          AbiTarget.lp64d.machinePlace,
        inBytes (used.takeAll (fieldKinds ((leaves.map (codedLeaf known)).map fieldOf)))) := by
  intro leaves
  induction leaves with
  | nil => exact fun _ => rfl
  | cons leaf rest ih =>
      intro used
      have kind : fieldKinds (((leaf :: rest).map (codedLeaf known)).map fieldOf) =
          (if leaf.2.floatTypeP then .floating else .general) ::
            fieldKinds ((rest.map (codedLeaf known)).map fieldOf) := by
        rw [floatTypeP_eq known]
        rfl
      rw [kind, specialFieldParts]
      cases float : leaf.2.floatTypeP with
      | true =>
          have others := ih (used.take .floating)
          simp only [inBytes, Used.take] at others
          simp only [inBytes, ↓reduceIte, others]
          rfl
      | false =>
          have others := ih (used.take .general)
          simp only [inBytes, Used.take] at others
          simp only [inBytes, Bool.false_eq_true, ↓reduceIte, others]
          rfl

theorem specialFieldsP_eq {known : List Layout} (leaves : List (Nat × Ty)) (used : Used) :
    specialFieldsP leaves (inBytes used) = true ↔
      used.general + (fieldKinds ((leaves.map (codedLeaf known)).map fieldOf)).count .general ≤ 8 ∧
        used.floating +
          (fieldKinds ((leaves.map (codedLeaf known)).map fieldOf)).count .floating ≤ 8 := by
  have counts : (fieldKinds ((leaves.map (codedLeaf known)).map fieldOf)).count .floating =
        leaves.countP (fun leaf => leaf.2.floatTypeP) ∧
      (fieldKinds ((leaves.map (codedLeaf known)).map fieldOf)).count .general =
        leaves.countP (fun leaf => !leaf.2.floatTypeP) := by
    simp only [fieldKinds, List.count, List.countP_map]
    constructor
    · apply List.countP_congr
      intro leaf _
      simp only [Function.comp_apply, fieldOf, codedLeaf, ← floatTypeP_eq]
      cases leaf.2.floatTypeP with
      | true => simp
      | false => simp
    · apply List.countP_congr
      intro leaf _
      simp only [Function.comp_apply, fieldOf, codedLeaf, ← floatTypeP_eq]
      cases leaf.2.floatTypeP with
      | true => simp
      | false => simp
  rw [specialFieldsP, Bool.and_eq_true, decide_eq_true_eq, decide_eq_true_eq, counts.1, counts.2]
  exact and_comm

theorem rv_scalarArgument (type : Ty) (used : Used) :
    rvArgumentLocation type none (inBytes used) =
      ((used.deal (lp64dKinds used (.scalar type.floatTypeP))).map AbiTarget.lp64d.machinePlace,
        inBytes (used.takeAll (lp64dKinds used (.scalar type.floatTypeP)))) := by
  have general := @generalParts_eq used 1 (Nat.le_refl _) (by decide)
  rw [rvArgumentLocation]
  cases float : type.floatTypeP with
  | true =>
      by_cases room : used.floating < 8
      · rw [lp64dKinds, if_pos room, if_pos (by simp [inBytes, room])]
        rfl
      · rw [lp64dKinds, if_neg room, if_neg (by simp [inBytes, room])]
        exact general
  | false => exact general

theorem rv_step (shared : Shared forms layouts tables) {levels : Nat}
    (deep : forms.length ≤ levels) (type : Ty) (used state : Used)
    (accepted : scalarParameterP tables hosted type = true) (together : inBytes used = state) :
    ∃ found located, aggregateInfo layouts .lp64d levels type = .ok found ∧
      Except.ok (rvArgumentLocation type found state) = (.ok located : Check _) ∧
      id located.1 = (used.deal (lp64d.kinds used (argumentOf tables type))).map
        AbiTarget.lp64d.machinePlace ∧
      inBytes (lp64d.after used (argumentOf tables type)) = located.2 := by
  subst together
  obtain scalar | ⟨name, layout, fields, rfl, record⟩ := parameter_cases accepted
  · rw [scalar.argument]
    exact ⟨none, _, aggregateInfo_scalar scalar, congrArg Except.ok (rv_scalarArgument type used),
      rfl, rfl⟩
  · obtain ⟨found, classified, same⟩ := record.stage0Class shared .lp64d deep
    have words : 1 ≤ wordsOf layout.size ∧ wordsOf layout.size ≤ 2 := by
      have positive := record.positive
      have small := record.small
      rw [wordsOf]
      omega
    have general := @generalParts_eq used _ words.1 words.2
    rw [AbiTarget.conventionClass] at same
    refine ⟨_, _, aggregateInfo_record classified, rfl, ?_⟩
    rw [record.argument]
    simp only [lp64d, lp64dKinds]
    split at same
    case isTrue isFlat =>
      cases found with
      | rvFields leaves size =>
          rw [AggregateClass.map, AggregateClass.rvFields.injEq] at same
          obtain ⟨rfl, rfl⟩ := same
          have special := @specialFieldsP_eq tables.layouts leaves used
          change (if specialFieldsP leaves (inBytes used) then specialFieldParts leaves (inBytes used)
            else generalParts (wordsOf layout.size) (inBytes used)).1 = _ ∧ _ =
            (if specialFieldsP leaves (inBytes used) then specialFieldParts leaves (inBytes used)
              else generalParts (wordsOf layout.size) (inBytes used)).2
          by_cases fits : specialFieldsP leaves (inBytes used) = true
          · rw [if_pos fits, if_pos ⟨isFlat, special.mp fits⟩, specialFieldParts_eq]
            exact ⟨rfl, rfl⟩
          · rw [if_neg fits, if_neg (fun all => fits (special.mpr all.2)), general]
            exact ⟨rfl, rfl⟩
      | _ => cases same
    case isFalse isNot =>
      cases found with
      | rvGeneral size =>
          rw [AggregateClass.map, AggregateClass.rvGeneral.injEq] at same
          subst same
          rw [if_neg (fun all => isNot all.1)]
          change (generalParts (wordsOf layout.size) (inBytes used)).1 = _ ∧ _ =
            (generalParts (wordsOf layout.size) (inBytes used)).2
          rw [general]
          exact ⟨rfl, rfl⟩
      | _ => cases same

/-! ## Microsoft x64 -/

/-- A value, or its address, is at its position. -/
theorem winLocation_places {type : Ty} {info : Option (AggregateClass Ty)} {argument : Argument}
    (position : Nat)
    (float : argument = .scalar true ↔ AggregateClass.winIndirectP info = false ∧ type.floatTypeP) :
    (winArgumentLocation type info position).places =
      [AbiTarget.microsoft.machinePlace (microsoftPlace position argument)] := by
  have generals : ∀ index < 4, Abi.win64.argumentRegisters.getD index 0 =
      win64RegisterArgument (index + 1) := by decide
  rw [winArgumentLocation, microsoftPlace]
  by_cases room : position < 4
  · rw [if_neg (by omega), if_pos room]
    cases indirect : AggregateClass.winIndirectP info with
    | true =>
        rw [if_pos rfl, if_neg (by rw [float, indirect]; simp), WinLocation.places,
          generals _ room]
        rfl
    | false =>
        rw [if_neg (by decide)]
        cases isFloat : type.floatTypeP with
        | true =>
            rw [if_pos rfl, if_pos (float.mpr ⟨indirect, isFloat⟩)]
            rfl
        | false =>
            rw [if_neg (by decide), if_neg (by rw [float, isFloat]; simp), WinLocation.places,
              generals _ room]
            rfl
  · rw [if_pos (by omega), if_neg room]
    split
    · rfl
    · rfl

theorem win_step (shared : Shared forms layouts tables) {levels : Nat}
    (deep : forms.length ≤ levels) (type : Ty) (used state : Used)
    (accepted : scalarParameterP tables hosted type = true)
    (together : used = positionState state.general) :
    ∃ found located, aggregateInfo layouts .win64 levels type = .ok found ∧
      Except.ok (winArgumentLocation type found state.general,
        { state with general := state.general + 1 }) = (.ok located : Check _) ∧
      located.1.places = (used.deal (microsoft.kinds used (argumentOf tables type))).map
        AbiTarget.microsoft.machinePlace ∧
      microsoft.after used (argumentOf tables type) = positionState located.2.general := by
  subst together
  rw [microsoft_deal, microsoft_after]
  obtain scalar | ⟨name, layout, fields, rfl, record⟩ := parameter_cases accepted
  · refine ⟨none, _, aggregateInfo_scalar scalar, rfl, ?_, rfl⟩
    apply winLocation_places
    rw [scalar.argument, Argument.scalar.injEq]
    exact ⟨fun float => ⟨rfl, float⟩, fun both => both.2⟩
  · obtain ⟨found, classified, _⟩ := record.stage0Class shared .microsoft deep
    refine ⟨_, _, aggregateInfo_record classified, rfl, ?_, rfl⟩
    apply winLocation_places
    rw [record.argument]
    constructor
    · rintro ⟨⟩
    · rintro ⟨_, float⟩
      cases float

/-! ## Signatures -/

/-- An accepted result is a record, a scalar, or nothing. -/
theorem result_cases {types : FunctionTypes}
    (accepted : sourceScalarSignatureP tables hosted types = true) :
    types.result = .void ∨ scalarParameterP tables hosted types.result = true := by
  rw [sourceScalarSignatureP] at accepted
  split at accepted
  · cases accepted
  case isFalse known =>
    rw [scalarParameterP]
    split at accepted
    case isTrue record =>
      rw [if_neg (by rw [record]; decide), if_pos record]
      exact .inr (Bool.and_eq_true_iff.mp accepted).1
    case isFalse noRecord =>
      split at accepted
      case isTrue value =>
        rw [if_pos value]
        exact .inr (Bool.and_eq_true_iff.mp accepted).1
      case isFalse noValue =>
        rw [if_neg noValue, if_neg noRecord]
        cases result : types.result with
        | void => exact .inl rfl
        | boolean | value =>
            rw [result] at known noValue
            first | exact absurd rfl known | exact absurd rfl noValue
        | ptr pointee const volatile =>
            rw [result, scalarTypeCode] at known
            rw [scalarTypeCode]
            split at known
            case isTrue some =>
              rw [if_pos some]
              exact .inr rfl
            case isFalse => exact absurd rfl known
        | struct name =>
            rw [result, scalarTypeCode] at known noRecord
            split at known
            case isTrue some => exact absurd (if_pos some) noRecord
            case isFalse => exact absurd rfl known
        | _ => exact .inr rfl

theorem aggregateInfo_void {abi : Abi} {levels : Nat} :
    aggregateInfo layouts abi levels .void = .ok none := rfl

/-- A record type is one whose class Stage 0 finds. -/
theorem record_of_code {type : Ty} (accepted : scalarParameterP tables hosted type = true)
    (code : scalarTypeCode tables.layouts type = 16) :
    ∃ name layout fields, type = .struct name ∧ AcceptedRecord tables name layout fields := by
  rw [scalarParameterP, if_neg (by rw [code]; decide), if_pos code] at accepted
  exact acceptedRecord_of accepted

/-- Where the address of a result in memory comes first. -/
theorem stage0_hidden (shared : Shared forms layouts tables) {levels : Nat}
    (deep : forms.length ≤ levels) {types : FunctionTypes}
    (accepted : sourceScalarSignatureP tables hosted types = true) :
    ∃ found, aggregateInfo layouts .win64 levels types.result = .ok found ∧
      AggregateClass.winIndirectP found = win64AggregateIndirectP tables types.result := by
  cases result_cases accepted with
  | inl nothing =>
      refine ⟨none, by rw [nothing]; rfl, ?_⟩
      rw [nothing]
      rfl
  | inr result =>
      obtain scalar | ⟨name, layout, fields, same, record⟩ := parameter_cases result
      · refine ⟨none, aggregateInfo_scalar scalar, ?_⟩
        rw [win64AggregateIndirectP, decide_eq_false scalar.code]
        rfl
      · obtain ⟨found, classified, class_⟩ := record.stage0Class shared .microsoft deep
        rw [same]
        refine ⟨_, aggregateInfo_record classified, ?_⟩
        rw [← record.nativeClass .microsoft (absurd rfl), AbiTarget.aggregateClass] at class_
        split at class_
        case isTrue indirect =>
          rw [indirect]
          cases found with
          | winIndirect size => rfl
          | _ => cases class_
        case isFalse direct =>
          rw [Bool.eq_false_iff.mpr direct]
          cases found with
          | winDirect size => rfl
          | _ => cases class_

open AbiTarget in
/-- Stage 0 puts arguments where the convention does: the registers of the machine, and the bytes of
the stack from the first stack argument on. -/
theorem stage0_arguments (shared : Shared forms layouts tables) {levels : Nat}
    (deep : forms.length ≤ levels) (target : AbiTarget) {signature : Stage0.Signature}
    (accepted : sourceScalarSignatureP tables hosted ⟨signature.arguments, signature.result⟩ = true) :
    abiArgumentLocations layouts target.abi levels signature =
      .ok ((target.convention.places {} (target.arguments tables
        ⟨signature.arguments, signature.result⟩)).map (List.map target.machinePlace)) := by
  have parameters := accepted_parameters accepted
  cases target with
  | systemV =>
      exact argumentPlaces_eq (sysv_step shared deep) signature.arguments {} {} parameters
        ⟨rfl, Nat.zero_le _, Nat.zero_le _⟩
  | aapcs64 =>
      exact argumentPlaces_eq (aapcs_step shared deep) signature.arguments {} {} parameters rfl
  | lp64d =>
      exact argumentPlaces_eq (rv_step shared deep) signature.arguments {} {} parameters rfl
  | microsoft =>
      obtain ⟨found, info, hidden⟩ := stage0_hidden shared deep accepted
      have others := fun start => argumentPlaces_eq (win_step shared deep) signature.arguments _ start
        parameters rfl
      obtain ⟨leading, _, _⟩ :=
        @microsoft_leading tables ⟨signature.arguments, signature.result⟩
      simp only [abiArgumentLocations, AbiTarget.abi, info, convention]
      rw [leading, win64AggregateHiddenArgument, win64AggregateHidden, List.map_append]
      change (argumentPlaces _ _ _ _ _ >>= _) = _
      rw [others, hidden]
      split
      · rfl
      · rfl

end Native
