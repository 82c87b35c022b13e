import PslCompiler.Native.AbiAgreement

/-! # Results, and calls between the compilers

Both compilers put the pieces of a result in the same registers. Together with the places of the
arguments this is all that functions of one compiler need to call those of the other.
-/

namespace Native

open Records Stage0 Calling

variable {forms : List StructureForm} {layouts : Layouts} {tables : LayoutContext} {hosted : Bool}

/-! ## Scalars -/

/-- Only a type without values has the code of none. -/
theorem scalarReturn_eq {type : Ty} (scalar : ScalarArgument tables type)
    (floating general : Place) : scalarReturn type floating general =
      scalarResult (scalarTypeCode tables.layouts type) floating general := by
  have noVoid : scalarTypeCode tables.layouts type ≠ 12 ∧ type ≠ .void := by
    have known := scalar.known
    cases type with
    | void => simp [Ty.floatTypeP, Ty.integerTypeP, Ty.pointerTypeP] at known
    | struct name => exact absurd rfl (scalar.noRecord name)
    | ptr pointee const volatile =>
        rw [scalarTypeCode]
        refine ⟨?_, by simp⟩
        split
        · decide
        · decide
    | _ => exact ⟨by rw [scalarTypeCode]; decide, by simp⟩
  rw [scalarReturn, scalarResult, if_neg noVoid.2, if_neg noVoid.1, scalar.floating]

theorem rvReturn_scalar (type : Ty) :
    rvReturn type none = scalarReturn type (.floating 10) (.general 10) := by
  rw [rvReturn, scalarReturn]
  split
  · rfl
  · rw [rvArgumentLocation]
    cases type.floatTypeP with
    | true => rfl
    | false => rfl

/-! ## System V -/

/-- The registers for results: rax and rdx, and the first floating-point registers. -/
def sysvResultPlace : Place → Place
  | .general index => .general ([0, 2].getD index 0)
  | place => place

theorem sysvReturnLocations_eq : ∀ (kinds : List Calling.Kind) (used : Used), Kind.stack ∉ kinds →
    sysvReturnLocations (kinds.map AbiTarget.wordClassOf) used =
      (used.deal kinds).map sysvResultPlace := by
  intro kinds
  induction kinds with
  | nil => exact fun _ _ => rfl
  | cons kind rest ih =>
      intro used noStack
      have others := fun used => ih used fun member => noStack (List.mem_cons_of_mem _ member)
      cases kind with
      | general =>
          have later := others (used.take .general)
          exact congrArg (_ :: ·) later
      | floating =>
          have later := others (used.take .floating)
          exact congrArg (_ :: ·) later
      | stack => exact absurd List.mem_cons_self noStack

/-- The backend puts each word of a result in the next register of its class. -/
theorem RecordParameter.resultWords {type : Ty} {size : Nat} {fields : List (Nat × Nat)}
    (record : RecordParameter tables type size fields) :
    x86AggregateReceiveResult tables type =
      (({} : Used).deal (Calling.wordClasses size (fields.map fieldOf))).map sysvResultPlace := by
  obtain ⟨words, _, two⟩ := record.words
  rw [x86AggregateReceiveResult, words, record.wordClasses, Used.deal_eq_map, List.map_map,
    List.length_map, List.length_range]
  apply List.map_congr_left
  intro part member
  have inside := List.mem_range.mp member
  obtain ⟨generals, floatings⟩ := record.classCount (Nat.le_of_lt inside)
  have few : ((List.range part).map (x86WordKind tables type)).count .general < 2 := by
    have bound := List.count_le_length (a := Calling.Kind.general)
      (l := (List.range part).map (x86WordKind tables type))
    rw [List.length_map, List.length_range] at bound
    omega
  have taken : ((List.range (wordsOf size)).map (x86WordKind tables type)).take part =
      (List.range part).map (x86WordKind tables type) := by
    rw [← List.map_take, List.take_range, Nat.min_eq_left (Nat.le_of_lt inside)]
  have own : ((List.range (wordsOf size)).map (x86WordKind tables type)).getD part .stack =
      x86WordKind tables type part := by
    rw [List.getD_eq_getElem?_getD, List.getElem?_map, List.getElem?_range inside]
    rfl
  have register : ∀ index < 2, (if index = 0 then 0 else 2) = [0, 2].getD index 0 := by decide
  rw [Function.comp_apply, taken, own, Used.takeAll_eq, x86WordKind]
  cases (record.wordClass inside).2 with
  | inl isGeneral =>
      rw [isGeneral]
      dsimp only
      rw [generals]
      simp only [↓reduceIte, Nat.reduceEqDiff, register _ few, Used.next, Nat.zero_add,
        sysvResultPlace]
  | inr isFloating =>
      rw [isFloating]
      dsimp only
      rw [floatings]
      simp only [↓reduceIte, Nat.reduceEqDiff, Used.next, Nat.zero_add, sysvResultPlace]

theorem AcceptedRecord.sysvResult {name : String} {layout : Layout} {fields : List (Nat × Nat)}
    (record : AcceptedRecord tables name layout fields)
    (nests : nestsWithin tables 128 (.struct name) = true) {found : AggregateClass Ty}
    (same : found.map (scalarTypeCode tables.layouts) =
      AbiTarget.systemV.conventionClass layout.size fields) :
    sysvReturn (.struct name) (some found) = x86AggregateReceiveResult tables (.struct name) := by
  rw [AbiTarget.conventionClass] at same
  cases found with
  | words classes =>
      rw [AggregateClass.map, AggregateClass.words.injEq] at same
      subst same
      rw [(record.parameter nests).resultWords, sysvReturn]
      exact sysvReturnLocations_eq _ _ (wordClasses_stack _ _)
  | _ => cases same

/-! ## AAPCS64 -/

theorem AcceptedRecord.aapcsResult {name : String} {layout : Layout} {fields : List (Nat × Nat)}
    (record : AcceptedRecord tables name layout fields)
    (nests : nestsWithin tables 128 (.struct name) = true) {found : AggregateClass Ty}
    (same : found.map (scalarTypeCode tables.layouts) =
      AbiTarget.aapcs64.aggregateClass tables (.struct name)) :
    aapcsReturn (.struct name) (some found) = a64AggregateCallResult tables (.struct name) := by
  obtain ⟨words, some, two⟩ := (record.parameter nests).words
  rw [AbiTarget.aggregateClass] at same
  rw [a64AggregateCallResult, words]
  split at same
  case isTrue isHomogeneous =>
    rw [if_pos isHomogeneous]
    cases found with
    | hfa kind offsets =>
        rw [AggregateClass.map, AggregateClass.hfa.injEq] at same
        rw [aapcsReturn, AapcsLocation.places, same.2, List.length_map]
        apply List.map_congr_left
        intro part _
        rw [Nat.zero_add]
    | _ => cases same
  case isFalse isNot =>
    rw [if_neg isNot]
    cases found with
    | general size =>
        rw [AggregateClass.map, AggregateClass.general.injEq, record.sized] at same
        subst same
        change (List.range (wordsOf layout.size)).map _ = _
        obtain one | both : wordsOf layout.size = 1 ∨ wordsOf layout.size = 2 := by omega
        · rw [one]
          rfl
        · rw [both]
          rfl
    | _ => cases same

/-! ## LP64D -/

theorem AcceptedRecord.rvResult {name : String} {layout : Layout} {fields : List (Nat × Nat)}
    (record : AcceptedRecord tables name layout fields)
    (nests : nestsWithin tables 128 (.struct name) = true) {found : AggregateClass Ty}
    (same : found.map (scalarTypeCode tables.layouts) =
      AbiTarget.lp64d.conventionClass layout.size fields) :
    rvReturn (.struct name) (some found) = rvAggregateCallResult tables (.struct name) := by
  have parameter := record.parameter nests
  obtain ⟨words, some, two⟩ := parameter.words
  rw [AbiTarget.conventionClass] at same
  rw [rvAggregateCallResult, parameter.special, words, rvReturn, if_neg (by simp)]
  have integer := @generalParts_eq {} _ some two
  split at same
  case isTrue isFlat =>
    rw [if_pos isFlat]
    cases found with
    | rvFields leaves size =>
        rw [AggregateClass.map, AggregateClass.rvFields.injEq] at same
        obtain ⟨coded, rfl⟩ := same
        change leaves.map (codedLeaf tables.layouts) = fields at coded
        have short : fields.length ≤ 2 := by
          rw [flattened, Bool.and_eq_true, decide_eq_true_eq, List.length_map] at isFlat
          exact isFlat.1
        have few : ∀ kind : Calling.Kind, (fieldKinds (fields.map fieldOf)).count kind ≤ 2 := by
          intro kind
          refine List.count_le_length.trans ?_
          rw [fieldKinds, List.length_map, List.length_map]
          exact short
        have fits : specialFieldsP leaves (inBytes {}) = true := by
          rw [@specialFieldsP_eq tables.layouts, coded]
          exact ⟨(Nat.zero_add _).trans_le ((few .general).trans (by decide)),
            (Nat.zero_add _).trans_le ((few .floating).trans (by decide))⟩
        have parts := @specialFieldParts_eq tables.layouts leaves {}
        change (if specialFieldsP leaves (inBytes {}) then specialFieldParts leaves (inBytes {})
          else generalParts ((layout.size + 7) / 8) (inBytes {})).1 = _
        rw [if_pos fits, parts, coded]
        rw [fieldKinds_eq] at few ⊢
        apply congrArg (List.map _)
        symm
        apply @RecordParameter.fieldPlaces _ _ _ _ parameter {}
        · exact (Nat.zero_add _).trans_le ((few .general).trans (by decide))
        · exact (Nat.zero_add _).trans_le ((few .floating).trans (by decide))
    | _ => cases same
  case isFalse isNot =>
    rw [if_neg isNot]
    cases found with
    | rvGeneral size =>
        rw [AggregateClass.map, AggregateClass.rvGeneral.injEq] at same
        subst same
        change (generalParts (wordsOf layout.size) (inBytes {})).1 = _
        rw [integer]
        obtain one | both : wordsOf layout.size = 1 ∨ wordsOf layout.size = 2 := by omega
        · rw [one]
          rfl
        · rw [both]
          rfl
    | _ => cases same

/-! ## Signatures -/

/-- Stage 0 puts the pieces of a result where the backends do. -/
theorem stage0_result (shared : Shared forms layouts tables) {levels : Nat}
    (deep : forms.length ≤ levels) (target : AbiTarget) {types : FunctionTypes}
    (accepted : sourceScalarSignatureP tables hosted types = true)
    (nests : target ≠ .microsoft → nestsWithin tables 128 types.result = true) :
    abiReturnLocations layouts target.abi levels types.result =
      .ok (target.resultPlaces tables types.result) := by
  cases result_cases accepted with
  | inl nothing =>
      rw [nothing]
      cases target with
      | systemV | aapcs64 | lp64d | microsoft => rfl
  | inr result =>
      obtain scalar | ⟨name, layout, fields, isRecord, record⟩ := parameter_cases result
      · have found := fun abi => @aggregateInfo_scalar layouts tables _ abi levels scalar
        cases target with
        | systemV =>
            rw [abiReturnLocations, found, AbiTarget.resultPlaces, if_neg scalar.code,
              ← scalarReturn_eq scalar]
            rfl
        | aapcs64 =>
            rw [abiReturnLocations, found, AbiTarget.resultPlaces, if_neg scalar.code,
              ← scalarReturn_eq scalar]
            rfl
        | lp64d =>
            rw [abiReturnLocations, found, AbiTarget.resultPlaces, if_neg scalar.code,
              ← scalarReturn_eq scalar, ← rvReturn_scalar]
            rfl
        | microsoft =>
            rw [abiReturnLocations, found, AbiTarget.resultPlaces, ← scalarReturn_eq scalar]
            rfl
      · rw [isRecord] at nests ⊢
        obtain ⟨found, classified, same⟩ := record.stage0Class shared target deep
        have info := aggregateInfo_record classified
        rw [abiReturnLocations, info]
        apply congrArg Except.ok
        cases target with
        | systemV =>
            rw [AbiTarget.resultPlaces, if_pos record.code]
            exact record.sysvResult (nests (by decide)) same
        | aapcs64 =>
            rw [AbiTarget.resultPlaces, if_pos record.code]
            rw [← record.nativeClass .aapcs64 nests] at same
            exact record.aapcsResult (nests (by decide)) same
        | lp64d =>
            rw [AbiTarget.resultPlaces, if_pos record.code]
            exact record.rvResult (nests (by decide)) same
        | microsoft =>
            rw [AbiTarget.resultPlaces, record.code]
            rfl

/-- The types of a function without its name. -/
def typesOf (signature : Stage0.Signature) : FunctionTypes :=
  ⟨signature.arguments, signature.result⟩

/-- What functions of one compiler need to call those of the other: both take the records of a
signature alike, and the pieces of arguments and results are in the same registers and at the same
offsets on the stack. -/
structure SharesAbi (layouts : Layouts) (levels : Nat) (tables : LayoutContext) (target : AbiTarget)
    (signature : Stage0.Signature) : Prop where
  classified : ∀ type ∈ signature.result :: signature.arguments,
    scalarTypeCode tables.layouts type = 16 →
      ∃ found, cAggregateClasses layouts target.abi levels type = .ok (some found) ∧
        found.map (scalarTypeCode tables.layouts) = target.aggregateClass tables type
  supported : (∀ type ∈ signature.arguments,
      supportedAbiArgumentTypeP layouts target.abi levels type = .ok true) ∧
    supportedAbiResultTypeP layouts target.abi levels signature.result = .ok true
  arguments : abiArgumentLocations layouts target.abi levels signature =
    .ok ((target.sent tables (typesOf signature)).map (List.map target.machinePlace))
  received : target.received tables (typesOf signature) = target.sent tables (typesOf signature)
  result : abiReturnLocations layouts target.abi levels signature.result =
    .ok (target.resultPlaces tables signature.result)

/-- The records of a signature do not nest records more than 128 deep; on Windows it does not
matter. -/
def AbiTarget.ShallowSignature (tables : LayoutContext) (signature : Stage0.Signature)
    (target : AbiTarget) : Prop :=
  target ≠ .microsoft →
    ∀ type ∈ signature.result :: signature.arguments, nestsWithin tables 128 type = true

/-- Stage 0 supports an argument that the native compiler accepts. -/
theorem stage0_supported (shared : Shared forms layouts tables) {levels : Nat}
    (deep : forms.length ≤ levels) (target : AbiTarget) {type : Ty}
    (accepted : scalarParameterP tables hosted type = true) :
    supportedAbiArgumentTypeP layouts target.abi levels type = .ok true := by
  rw [supportedAbiArgumentTypeP]
  obtain scalar | ⟨name, layout, fields, rfl, record⟩ := parameter_cases accepted
  · rw [if_pos]
    cases scalar.known with
    | inl floating => rw [floating, Bool.or_true]
    | inr others => rw [others, Bool.true_or]
  · obtain ⟨found, classified, _⟩ := record.stage0Class shared target deep
    rw [classified]
    rfl

/-- A record with two floating-point numbers, which is in two registers in both directions. -/
def floatPairForm : StructureForm :=
  ⟨"pair", [.field "x" .f64, .field "y" .f64], false⟩

section Chain

def chainForm (index : Nat) : StructureForm :=
  ⟨chainName index, [.field "x" (chainType index)], false⟩

/-- What Stage 0 knows of the first records of the chain. -/
def stage0Chain : Nat → Layouts
  | 0 => fun _ => none
  | number + 1 => Function.update (stage0Chain number) (chainName number)
      (some ⟨chainName number, [⟨"x", chainType number, 0⟩], 8, 8, false⟩)

theorem stage0Chain_find : ∀ number index, stage0Chain number (chainName index) =
    if index < number then some ⟨chainName index, [⟨"x", chainType index, 0⟩], 8, 8, false⟩
    else none := by
  intro number
  induction number with
  | zero => exact fun _ => rfl
  | succ number ih =>
      intro index
      rw [stage0Chain]
      by_cases same : index = number
      · rw [same, Function.update_self, if_pos (Nat.lt_succ_self _)]
      · rw [Function.update_of_ne (mt chainName_inj same), ih]
        apply ite_congr _ (fun _ => rfl) fun _ => rfl
        exact propext ⟨Nat.lt_succ_of_lt, fun within => by omega⟩

/-- In Stage 0 the next record has a field of eight bytes. -/
theorem stage0Chain_field (number : Nat) :
    readType (stage0Chain number) (chainType number) = .ok () ∧
      typeSize 64 (stage0Chain number) (chainType number) = .ok 8 ∧
      typeAlignment 64 (stage0Chain number) (chainType number) = .ok 8 ∧
      (chainType number != .value) = true := by
  cases number with
  | zero => exact ⟨rfl, rfl, rfl, rfl⟩
  | succ number =>
      have inner := stage0Chain_find (number + 1) number
      rw [if_pos (Nat.lt_succ_self _)] at inner
      refine ⟨?_, ?_, ?_, rfl⟩
      · rw [chainType, readType, inner]
        rfl
      · simp only [chainType, typeSize, inner]
      · simp only [chainType, typeAlignment, inner]

/-- Stage 0 registers the next record of the chain. -/
theorem stage0Chain_next (number : Nat) :
    registerStructure 64 (fun _ => .ok ()) (stage0Chain number) (chainForm number) =
      .ok (stage0Chain (number + 1)) := by
  obtain ⟨read, size, alignment, unmanaged⟩ := stage0Chain_field number
  have fresh := stage0Chain_find number number
  rw [if_neg (Nat.lt_irrefl _)] at fresh
  have field : registerFields 64 (stage0Chain number) (chainName number) true {}
      [.field "x" (chainType number)] = .ok ⟨[⟨"x", chainType number, 0⟩], 8, 8⟩ := by
    have parsed : parseLayoutField 64 (stage0Chain number) (.field "x" (chainType number)) 0 true =
        .ok (⟨"x", chainType number, 0⟩, 8) := by
      simp only [parseLayoutField, read, size, alignment, unmanaged]
      rfl
    simp only [registerFields, registerField, bind_eq_ok]
    exact ⟨_, ⟨_, parsed, (), rfl, 8, by simp only [alignment]; rfl, rfl⟩, rfl⟩
  have rounded : alignOffset 8 8 = 8 := by decide
  simp only [registerStructure, bind_eq_ok]
  refine ⟨(), rfl, (), trivial, (), ?_, _, field, ?_⟩
  · change require (stage0Chain number (chainName number)).isNone _ = _
    rw [fresh]
    rfl
  · simp only [chainForm, rounded]
    rfl

theorem stage0Chain_registered : ∀ count number,
    registerStructures 64 (fun _ => .ok ()) (stage0Chain number)
      ((List.range' number count).map chainForm) = .ok (stage0Chain (number + count)) := by
  intro count
  induction count with
  | zero => exact fun _ => rfl
  | succ count ih =>
      intro number
      rw [List.range'_succ, List.map_cons, registerStructures, stage0Chain_next]
      exact (ih (number + 1)).trans (by rw [Nat.add_assoc, Nat.add_comm 1])

/-- The first records of the chain in tables with room for more. -/
def chainTables (capacity number : Nat) : LayoutContext :=
  { chain number with layoutCapacity := capacity, fieldCapacity := capacity }

theorem chainName_value (index : Nat) : chainName index ≠ "value" := by
  intro same
  have first := congrArg (fun name => 'v' ∈ name.toList) same
  simp [chainName] at first

theorem chain_fresh (number : Nat) :
    nativeFindLayout (chain number).layouts (chainName number) = none := by
  rw [nativeFindLayout, List.find?_eq_none]
  intro layout member
  obtain ⟨index, inside, rfl⟩ := List.mem_map.mp member
  rw [beq_iff_eq]
  exact fun same => absurd (chainName_inj same) (Nat.ne_of_lt (List.mem_range.mp inside))

theorem chain_shape (number : Nat) : ∃ kind,
    nativeResolveType (chain number).layouts (chainType number) = some ⟨8, 8, kind⟩ ∧
      ¬ (kind = .void ∨ kind = .value) := by
  cases number with
  | zero => exact ⟨.scalar, rfl, by decide⟩
  | succ number =>
      refine ⟨.aggregate, ?_, by decide⟩
      simp only [chainType, nativeResolveType, chain_find (Nat.lt_succ_self _)]
      rfl

/-- The first field of a record, with eight bytes. -/
theorem commit_first (context : LayoutContext) (name fieldName : String) (first : Nat) (type : Ty)
    (kind : ShapeKind) :
    layoutCommitField context ⟨name, first, 0, 0, 1, false⟩ fieldName type ⟨8, 8, kind⟩ =
      ({ context with fields := context.fields ++ [⟨fieldName, type, 0, 8, 8⟩] },
        ⟨name, first, 1, 8, 8, false⟩, true) := by
  have aligned : layoutRoundUp 0 8 = 0 := by decide
  have ends : wrapAdd 0 8 = 8 := by decide
  simp only [layoutCommitField, Bool.false_eq_true, ↓reduceIte, aligned, Nat.lt_irrefl,
    Nat.not_lt_zero, ends, Nat.zero_add]
  rfl

/-- The native compiler registers the next record of the chain. -/
theorem chain_next {capacity number : Nat} (room : number < capacity) :
    nativeRegister (fun _ => true) (chainTables capacity number) (chainForm number) =
      (chainTables capacity (number + 1), true) := by
  obtain ⟨kind, resolved, known⟩ := chain_shape number
  have fields : (chainTables capacity number).fields.length = number := by
    rw [chainTables, chain, List.length_map, List.length_range]
  have layouts : (chainTables capacity number).layouts.length = number := by
    rw [chainTables, chain, List.length_map, List.length_range]
  have empty : (⟨chainName number, number, 0, 0, 1, false⟩ : Layout).fieldsIn
      (chainTables capacity number).fields = [] := by
    rw [Layout.fieldsIn, List.take_zero]
  have field : layoutAddFields (fun _ => true) (chainTables capacity number)
      ⟨chainName number, number, 0, 0, 1, false⟩ [.field "x" (chainType number)] =
      ({ chainTables capacity number with
          fields := (chainTables capacity number).fields ++ [chainField number] },
        ⟨chainName number, number, 1, 8, 8, false⟩, true) := by
    have named : layoutAddNamedField (chainTables capacity number) "x" (chainType number)
        ⟨chainName number, number, 0, 0, 1, false⟩ =
        layoutCommitField (chainTables capacity number) ⟨chainName number, number, 0, 0, 1, false⟩
          "x" (chainType number) ⟨8, 8, kind⟩ := by
      have shape : nativeResolveType (chainTables capacity number).layouts (chainType number) =
          some ⟨8, 8, kind⟩ := resolved
      rw [layoutAddNamedField, empty, shape]
      exact if_neg known
    have room : ¬ (chainTables capacity number).fields.length =
        (chainTables capacity number).fieldCapacity := by
      rw [fields]
      exact Nat.ne_of_lt room
    rw [layoutAddFields, layoutAddField, if_neg room]
    dsimp only
    rw [if_pos rfl, named, commit_first]
    rfl
  have rounded : layoutRoundUp 8 8 = 8 := by decide
  have full : ¬ (chainTables capacity number).layouts.length =
      (chainTables capacity number).layoutCapacity := by
    rw [layouts]
    exact Nat.ne_of_lt room
  have fresh : (nativeFindLayout (chainTables capacity number).layouts
      (chainName number)).isSome = false := by
    change (nativeFindLayout (chain number).layouts _).isSome = _
    rw [chain_fresh]
    rfl
  rw [nativeRegister, if_neg (by simp [chainForm]), nativeRegisterLayout, registerForm,
    if_neg (by simp)]
  simp only [chainForm, fresh, Bool.false_eq_true, if_false, if_neg full]
  rw [nativeRegisterLayoutMode, if_neg (by simp [chainName_value]), fields, field]
  simp only [rounded, Nat.lt_irrefl, if_false]
  simp only [chainTables, chain, List.range_succ, List.map_append, List.map_singleton]
  rfl

theorem chain_registered {capacity : Nat} : ∀ count number, number + count ≤ capacity →
    registerAll (fun _ => true) (chainTables capacity number)
        ((List.range' number count).map chainForm) =
      (chainTables capacity (number + count), (List.range' number count).map chainForm) := by
  intro count
  induction count with
  | zero => exact fun _ _ => rfl
  | succ count ih =>
      intro number room
      rw [List.range'_succ, List.map_cons, registerAll, chain_next (by omega)]
      dsimp only
      rw [ih (number + 1) (by omega), Nat.add_assoc, Nat.add_comm 1]
      rfl

theorem chain_shared (number : Nat) :
    Shared ((List.range' 0 number).map chainForm) (stage0Chain number) (chain number) where
  registered := ⟨fun _ => .ok (), by
    have registered := stage0Chain_registered number 0
    rw [Nat.zero_add] at registered
    exact registered⟩
  accepted := ⟨fun _ => true, number, number, by
    have registered := @chain_registered number number 0 (by omega)
    rw [Nat.zero_add] at registered
    exact registered⟩

/-- A function that takes the outermost record of the chain. -/
def chainSignature (number : Nat) : Stage0.Signature :=
  { name := "f", arguments := [chainType number], result := .void }

end Chain

end Native
