import PslCompiler.Native.ArgumentPlacement

/-! # The register conventions, parameter by parameter

From a state that the convention allows, each backend with counters puts the pieces of the next
parameter where its convention does, and goes on in the convention's next state.
-/

namespace Native

open Records Stage0 Calling

variable {tables : LayoutContext} {hosted : Bool}

/-! ## System V -/

/-- A naturally aligned field lies in one word, the one that it starts in. -/
theorem inWord_iff {size alignment : Nat} {fields : List (Nat × Nat)}
    (natural : Natural size alignment fields) {field : Nat × Nat} (member : field ∈ fields)
    (part : Nat) : (fieldOf field).inWord part = true ↔ field.1 / 8 = part := by
  have eight := (fieldCode_bounds (natural.codes field member)).2.2
  have positive := Nat.pos_of_dvd_of_pos eight (by decide)
  obtain ⟨aligned, _⟩ := natural.aligned field member
  rw [ScalarField.inWord, Bool.and_eq_true, decide_eq_true_eq, decide_eq_true_eq, fieldOf]
  dsimp only
  constructor
  · rintro ⟨before, after⟩
    -- A field that starts before a word ends before it, as its width divides both.
    have starts : 8 * part ≤ field.1 := by
      by_contra early
      have ends := add_le_of_dvd aligned (Nat.dvd_mul_right_of_dvd eight part)
        (Nat.not_le.mp early)
      omega
    omega
  · intro same
    omega

/-- A word of a natural record has scalars in it, and is floating-point if all of them are. -/
theorem Natural.wordClass {size alignment : Nat} {fields : List (Nat × Nat)}
    (natural : Natural size alignment fields) (small : size ≤ 16) {part : Nat}
    (inside : part < wordsOf size) :
    (fields.filter fun field => field.1 / 8 = part).isEmpty = false ∧
      Calling.wordClass (fields.map fieldOf) part =
        some (if (fields.filter fun field => field.1 / 8 = part).all fun field =>
          nativeAbiFloatP field.2 then .floating else .general) := by
  have same : (fields.map fieldOf).filter (fun field => field.inWord part) =
      (fields.filter fun field => field.1 / 8 = part).map fieldOf := by
    rw [List.filter_map]
    apply congrArg (List.map fieldOf)
    apply List.filter_congr
    intro field member
    rw [Function.comp_apply, Bool.eq_iff_iff, inWord_iff natural member, decide_eq_true_eq]
  have some : (fields.filter fun field => field.1 / 8 = part).isEmpty = false := by
    obtain ⟨field, member, starts⟩ := natural.word small
      (show 8 * part < size by rw [wordsOf] at inside; omega)
    rw [List.isEmpty_eq_false_iff_exists_mem]
    exact ⟨field, List.mem_filter.mpr ⟨member, decide_eq_true starts⟩⟩
  have floats : (List.all ((fields.filter fun field => field.1 / 8 = part).map fieldOf)
      fun field => field.floating) =
      (fields.filter fun field => field.1 / 8 = part).all fun field => nativeAbiFloatP field.2 := by
    rw [List.all_map]
    rfl
  refine ⟨some, ?_⟩
  simp only [Calling.wordClass, same, List.isEmpty_map, some, floats, Bool.false_eq_true,
    ↓reduceIte]
  split
  · rfl
  · rfl

theorem leafCode_packLeaf {offset code : Nat} (small : code < 256) :
    nativeAggregateLeafCode (packLeaf offset code) = code := by
  rw [nativeAggregateLeafCode, packLeaf]
  omega

theorem leafOffset_packLeaf {offset code : Nat} (small : code < 256) :
    nativeAggregateLeafOffset (packLeaf offset code) = offset := by
  rw [nativeAggregateLeafOffset, packLeaf]
  omega

/-- The scan finds a field that is no floating-point one, or else what it has seen. -/
theorem classScan_eq (part : Nat) : ∀ (fields : List (Nat × Nat)) (found : Nat),
    (∀ field ∈ fields, field.2 < 256) →
      x86AggregateClassScan part (fields.map fun field => packLeaf field.1 field.2) found =
        if (fields.filter fun field => field.1 / 8 = part).all fun field =>
            nativeAbiFloatP field.2 then
          if (fields.filter fun field => field.1 / 8 = part).isEmpty then
            if found = 0 then 1 else found
          else 2
        else 1 := by
  intro fields
  induction fields with
  | nil => exact fun _ _ => rfl
  | cons field rest ih =>
      intro found small
      have code := small field List.mem_cons_self
      have others := fun found => ih found fun other member =>
        small other (List.mem_cons_of_mem _ member)
      rw [List.map_cons, x86AggregateClassScan, leafOffset_packLeaf code, leafCode_packLeaf code,
        Nat.shiftRight_eq_div_pow]
      by_cases same : field.1 / 2 ^ 3 = part
      · rw [if_pos same, List.filter_cons_of_pos (by simpa using same)]
        cases float : nativeAbiFloatP field.2 with
        | true =>
            simp only [↓reduceIte, others, List.all_cons, float, Bool.true_and, List.isEmpty_cons,
              Bool.false_eq_true, OfNat.ofNat_ne_zero, ite_self]
        | false =>
            simp only [Bool.false_eq_true, ↓reduceIte, List.all_cons, float, Bool.false_and]
      · rw [if_neg same, List.filter_cons_of_neg (by simpa using same)]
        exact others found

/-- The kind of a word, as the backend classifies it. -/
def x86WordKind (tables : LayoutContext) (type : Ty) (part : Nat) : Calling.Kind :=
  if x86AggregateClass tables type part = 2 then .floating else .general

theorem wordKinds_stack (type : Ty) (words : Nat) :
    ((List.range words).map (x86WordKind tables type)).count .stack = 0 := by
  rw [List.count_eq_zero, List.mem_map]
  rintro ⟨part, _, same⟩
  rw [x86WordKind] at same
  split at same
  · cases same
  · cases same

section Record

variable {type : Ty} {size : Nat} {fields : List (Nat × Nat)}

theorem RecordParameter.codes (record : RecordParameter tables type size fields) :
    ∀ field ∈ fields, field.2 < 256 := by
  obtain ⟨alignment, natural⟩ := record.natural
  intro field member
  have bound := (fieldCode_bounds (natural.codes field member)).2.1
  omega

/-- A word has a class in the convention, and it is the backend's. -/
theorem RecordParameter.wordClass (record : RecordParameter tables type size fields) {part : Nat}
    (inside : part < wordsOf size) :
    Calling.wordClass (fields.map fieldOf) part = some (x86WordKind tables type part) ∧
      (x86AggregateClass tables type part = 1 ∨ x86AggregateClass tables type part = 2) := by
  obtain ⟨alignment, natural⟩ := record.natural
  have scan := classScan_eq part fields 0 record.codes
  obtain ⟨some, known⟩ := natural.wordClass record.small inside
  rw [← record.leaves, ← x86AggregateClass, some] at scan
  simp only [Bool.false_eq_true, ↓reduceIte] at scan
  rw [known, x86WordKind, scan]
  split
  · exact ⟨rfl, .inr rfl⟩
  · exact ⟨rfl, .inl rfl⟩

theorem RecordParameter.wordClasses (record : RecordParameter tables type size fields) :
    Calling.wordClasses size (fields.map fieldOf) =
      (List.range (wordsOf size)).map (x86WordKind tables type) := by
  rw [Calling.wordClasses, ← List.filterMap_eq_map (f := x86WordKind tables type)]
  apply List.filterMap_congr
  intro part member
  exact (record.wordClass (List.mem_range.mp member)).1

/-- The backend counts the words of a class as the convention does. -/
theorem RecordParameter.classCount (record : RecordParameter tables type size fields) {words : Nat}
    (bound : words ≤ wordsOf size) :
    x86AggregateClassCount tables type 1 words =
        ((List.range words).map (x86WordKind tables type)).count .general ∧
      x86AggregateClassCount tables type 2 words =
        ((List.range words).map (x86WordKind tables type)).count .floating := by
  simp only [x86AggregateClassCount, List.count, List.countP_map]
  constructor
  · apply List.countP_congr
    intro part member
    have found := (record.wordClass (Nat.lt_of_lt_of_le (List.mem_range.mp member) bound)).2
    simp only [Function.comp_apply, x86WordKind, decide_eq_true_eq, beq_iff_eq]
    cases found with
    | inl general => simp [general]
    | inr floating => simp [floating]
  · apply List.countP_congr
    intro part member
    simp only [Function.comp_apply, x86WordKind, decide_eq_true_eq, beq_iff_eq]
    split
    case isTrue floating => simp [floating]
    case isFalse general => simp [general]

theorem packed_low {general : Nat} (small : general < 16) (floating : Nat) :
    (general + floating * 16) &&& 15 = general := by
  rw [show 15 = 2 ^ 4 - 1 from rfl, Nat.and_two_pow_sub_one_eq_mod]
  omega

theorem packed_high {general : Nat} (small : general < 16) (floating : Nat) :
    (general + floating * 16) >>> 4 = floating := by
  rw [Nat.shiftRight_eq_div_pow]
  omega

/-- Each word in registers is at the next register of its class. -/
theorem RecordParameter.parts (record : RecordParameter tables type size fields) {used : Used}
    (within : used.WithinFiles 6 8) :
    (List.range (wordsOf size)).map (fun part => locationPlace (x86AggregatePartLocation tables type
        (nativeAbiLocation 4 (used.general + used.floating * 16)) part)) =
      used.deal ((List.range (wordsOf size)).map (x86WordKind tables type)) := by
  obtain ⟨general, floating⟩ := within
  have words := record.words.2.2
  rw [Used.deal_eq_map, List.length_map, List.length_range]
  apply List.map_congr_left
  intro part member
  have inside := List.mem_range.mp member
  obtain ⟨generals, floatings⟩ := record.classCount (Nat.le_of_lt inside)
  have few : ∀ kind : Calling.Kind,
      ((List.range part).map (x86WordKind tables type)).count kind ≤ part := by
    intro kind
    have bound := List.count_le_length (a := kind)
      (l := (List.range part).map (x86WordKind tables type))
    rwa [List.length_map, List.length_range] at bound
  have fewGenerals := few .general
  have fewFloatings := few .floating
  have taken : ((List.range (wordsOf size)).map (x86WordKind tables type)).take part =
      (List.range part).map (x86WordKind tables type) := by
    rw [← List.map_take, List.take_range, Nat.min_eq_left (Nat.le_of_lt inside)]
  have own : ((List.range (wordsOf size)).map (x86WordKind tables type)).getD part .stack =
      x86WordKind tables type part := by
    rw [List.getD_eq_getElem?_getD, List.getElem?_map, List.getElem?_range inside]
    rfl
  rw [taken, own, Used.takeAll_eq, x86AggregatePartLocation, locationClass_eq 4 (by omega),
    locationIndex_eq 4 (by omega), if_pos rfl, packed_low (by omega),
    packed_high (by omega)]
  cases (record.wordClass inside).2 with
  | inl isGeneral =>
      rw [x86WordKind, isGeneral]
      dsimp only
      rw [if_pos rfl, generals, locationPlace_general (by omega)]
      rfl
  | inr isFloating =>
      rw [x86WordKind, isFloating]
      dsimp only
      rw [if_neg (by decide), floatings, locationPlace_floating (by omega)]
      rfl

end Record

/-- A record that a backend of this kind sends to the stack is in consecutive slots. -/
theorem x86_stackParts {type : Ty} {words index : Nat} (small : index + words < 2 ^ 32) :
    (List.range words).map (fun part => locationPlace (x86AggregatePartLocation tables type
        (nativeAbiLocation 3 index) part)) =
      (List.range words).map fun part => .stack (index + part) := by
  apply List.map_congr_left
  intro part member
  have inside := List.mem_range.mp member
  rw [x86AggregatePartLocation, locationClass_eq 3 (by omega), locationIndex_eq 3 (by omega),
    if_neg (by decide), locationPlace_stack (by omega)]

theorem x86_scalar {type : Ty} (scalar : scalarTypeCode tables.layouts type ≠ 16) (used : Used) :
    ∃ kind, systemVKinds used (.scalar (nativeAbiFloatP (scalarTypeCode tables.layouts type))) =
        [kind] ∧ (x86Rules tables).location type used = nextLocation used kind := by
  have place : (x86Rules tables).location type used =
      x86LirArgumentLocation (scalarTypeCode tables.layouts type) used := if_neg scalar
  rw [place, x86LirArgumentLocation]
  cases nativeAbiFloatP (scalarTypeCode tables.layouts type) with
  | true =>
      simp only [systemVKinds, ↓reduceIte]
      split
      · exact ⟨.floating, rfl, rfl⟩
      · exact ⟨.stack, rfl, rfl⟩
  | false =>
      simp only [systemVKinds, Bool.false_eq_true, ↓reduceIte]
      split
      · exact ⟨.general, rfl, rfl⟩
      · exact ⟨.stack, rfl, rfl⟩

theorem x86_follows : Follows (x86Rules tables) (x86AggregateSendPart tables)
    (x86LirLoadArgument tables) systemV (Used.WithinFiles 6 8) tables hosted := by
  have steps : ∀ type used, Passable tables hosted type → used.WithinFiles 6 8 →
      used.stack + 2 < 2 ^ 32 →
      x86AggregateSendPart tables type ((x86Rules tables).location type used) =
          used.deal (systemVKinds used (argumentOf tables type)) ∧
        (x86Rules tables).advance type used =
          used.takeAll (systemVKinds used (argumentOf tables type)) := by
    intro type used passable within small
    obtain ⟨scalar, argument, words⟩ | ⟨size, fields, record⟩ := passable.cases
    · obtain ⟨kind, kinds, location⟩ := x86_scalar scalar used
      have inFiles : used.general < 2 ^ 32 ∧ used.floating < 2 ^ 32 ∧ used.stack < 2 ^ 32 := by
        obtain ⟨general, floating⟩ := within
        omega
      rw [argument, kinds, x86AggregateSendPart, if_neg scalar, LocationRules.advance, location,
        nextLocation_place inFiles]
      refine ⟨rfl, ?_⟩
      simp only [x86Rules, x86AggregateNextRegister, nextLocation_class inFiles, words]
      cases kind with
      | general => rfl
      | floating => rfl
      | stack => rfl
    · obtain ⟨sized, some, two⟩ := record.words
      obtain ⟨generals, floatings⟩ := record.classCount (Nat.le_refl _)
      have place : (x86Rules tables).location type used =
          if 6 < used.general + x86AggregateClassCount tables type 1 (wordsOf size) ∨
              8 < used.floating + x86AggregateClassCount tables type 2 (wordsOf size) then
            nativeAbiLocation 3 used.stack
          else nativeAbiLocation 4 (used.general + used.floating * 16) := by
        change x86AggregateLocation tables type used = _
        rw [x86AggregateLocation, if_pos record.code, sized]
      rw [record.argument, systemVKinds, record.wordClasses, ← generals, ← floatings,
        x86AggregateSendPart, if_pos record.code, sized, LocationRules.advance, place]
      by_cases fits : used.general + x86AggregateClassCount tables type 1 (wordsOf size) ≤ 6 ∧
          used.floating + x86AggregateClassCount tables type 2 (wordsOf size) ≤ 8
      · obtain ⟨general, floating⟩ := within
        rw [if_pos fits, if_neg (by omega), record.parts ⟨general, floating⟩]
        refine ⟨rfl, ?_⟩
        rw [Used.takeAll_eq, ← generals, ← floatings, wordKinds_stack]
        have registers : used.general + used.floating * 16 < 2 ^ 32 := by omega
        simp only [x86Rules, x86AggregateNextRegister, sized, locationClass_eq 4 registers,
          ↓reduceIte, Nat.reduceEqDiff, Nat.add_zero]
      · rw [if_neg fits, if_pos (by omega), x86_stackParts (by omega), Used.deal_stack]
        refine ⟨rfl, ?_⟩
        rw [Used.takeAll_eq]
        simp only [x86Rules, x86AggregateNextRegister, sized, locationClass_eq 3
          (show used.stack < 2 ^ 32 by omega), count_replicate_stack, List.count_replicate_self]
        rfl
  exact ⟨fun type used passable within small => (steps type used passable within small).1,
    fun type used passable within small => (steps type used passable within small).1,
    fun type used passable within small => (steps type used passable within small).2⟩

/-! ## AAPCS64 -/

/-- Floating-point codes of one width are the same. -/
theorem floatCode_inj {first second : Nat} (isFloat : nativeAbiFloatP first = true)
    (alsoFloat : nativeAbiFloatP second = true) (same : codeWidth second = codeWidth first) :
    second = first := by
  simp only [nativeAbiFloatP, Bool.or_eq_true, decide_eq_true_eq] at isFloat alsoFloat
  obtain rfl | rfl := isFloat
  · obtain rfl | rfl := alsoFloat
    · rfl
    · exact absurd same (by decide)
  · obtain rfl | rfl := alsoFloat
    · exact absurd same (by decide)
    · rfl

/-- Homogeneous fields are one to four of one floating-point type. -/
theorem homogeneous_iff {first : Nat × Nat} {rest : List (Nat × Nat)} :
    Calling.homogeneous ((first :: rest).map fieldOf) = true ↔
      (first :: rest).length ≤ 4 ∧ nativeAbiFloatP first.2 = true ∧
        ∀ field ∈ rest, field.2 = first.2 := by
  have widths : nativeAbiFloatP first.2 = true → ((List.all (rest.map fieldOf)
      fun field => field.floating && field.width = (fieldOf first).width) = true ↔
      ∀ field ∈ rest, field.2 = first.2) := by
    intro isFloat
    rw [List.all_map, List.all_eq_true]
    apply forall₂_congr
    intro field _
    rw [Function.comp_apply, Bool.and_eq_true, decide_eq_true_eq]
    constructor
    · rintro ⟨alsoFloat, same⟩
      exact floatCode_inj isFloat alsoFloat same
    · intro same
      exact ⟨by rw [fieldOf, same]; exact isFloat, by rw [fieldOf, fieldOf, same]⟩
  change (decide (((first :: rest).map fieldOf).length ≤ 4) && nativeAbiFloatP first.2 &&
    List.all (rest.map fieldOf)
      fun field => field.floating && field.width = (fieldOf first).width) = true ↔ _
  rw [List.length_map, Bool.and_eq_true, Bool.and_eq_true, decide_eq_true_eq, and_assoc]
  exact and_congr_right fun _ => and_congr_right widths

section Record

variable {type : Ty} {size : Nat} {fields : List (Nat × Nat)}

/-- The backend finds the homogeneous records. -/
theorem RecordParameter.homogeneous (record : RecordParameter tables type size fields) :
    0 < nativeAggregateHfaCode tables type ↔ Calling.homogeneous (fields.map fieldOf) = true := by
  have codes := record.codes
  rw [nativeAggregateHfaCode, record.count, record.leaf, record.leaves]
  cases fields with
  | nil => simp [Calling.homogeneous]
  | cons first rest =>
      have code := codes first List.mem_cons_self
      have packed : nativeAggregateLeafCode (packedAt (first :: rest) 0) = first.2 :=
        leafCode_packLeaf code
      have others : (List.tail ((first :: rest).map fun field => packLeaf field.1 field.2)).all
          (fun leaf => nativeAggregateLeafCode leaf = first.2) = true ↔
          ∀ field ∈ rest, field.2 = first.2 := by
        rw [List.map_cons, List.tail_cons, List.all_map, List.all_eq_true]
        apply forall₂_congr
        intro field member
        rw [Function.comp_apply, leafCode_packLeaf (codes field (List.mem_cons_of_mem _ member)),
          decide_eq_true_eq]
      rw [packed, homogeneous_iff, ← others]
      cases isFloat : nativeAbiFloatP first.2 with
      | false => simp
      | true =>
          have some : first.2 ≠ 0 := by
            rintro zero
            rw [zero] at isFloat
            cases isFloat
          split
          case isTrue many =>
            simp only [List.length_cons, Bool.or_eq_true, decide_eq_true_eq] at many
            simp only [Nat.lt_irrefl, false_iff, List.length_cons]
            omega
          case isFalse few =>
            simp only [List.length_cons, Bool.or_eq_true, decide_eq_true_eq, not_or] at few
            rw [if_pos rfl]
            split
            case isTrue same =>
              refine ⟨fun _ => ⟨?_, rfl, same⟩, fun _ => Nat.pos_of_ne_zero some⟩
              rw [List.length_cons]
              omega
            case isFalse different =>
              exact ⟨fun impossible => absurd impossible (Nat.lt_irrefl _),
                fun all => absurd all.2.2 different⟩

end Record

theorem a64_scalar {type : Ty} (scalar : scalarTypeCode tables.layouts type ≠ 16) (used : Used) :
    ∃ kind, aapcs64Kinds used (.scalar (nativeAbiFloatP (scalarTypeCode tables.layouts type))) =
        [kind] ∧ (a64Rules tables).location type used = nextLocation used kind := by
  have place : (a64Rules tables).location type used =
      a64LirArgumentLocation (scalarTypeCode tables.layouts type) used := if_neg scalar
  rw [place, a64LirArgumentLocation]
  cases nativeAbiFloatP (scalarTypeCode tables.layouts type) with
  | true =>
      simp only [aapcs64Kinds, ↓reduceIte]
      split
      · exact ⟨.floating, rfl, rfl⟩
      · exact ⟨.stack, rfl, rfl⟩
  | false =>
      simp only [aapcs64Kinds, Bool.false_eq_true, ↓reduceIte]
      split
      · exact ⟨.general, rfl, rfl⟩
      · exact ⟨.stack, rfl, rfl⟩

/-- A record that is not homogeneous is in general registers if there are enough of them. -/
theorem RecordParameter.a64Location {type : Ty} {size : Nat} {fields : List (Nat × Nat)}
    (record : RecordParameter tables type size fields) (used : Used)
    (isNot : ¬ 0 < nativeAggregateHfaCode tables type) :
    (a64Rules tables).location type used =
      if used.general + wordsOf size ≤ 8 then nativeAbiLocation 1 used.general
      else nativeAbiLocation 3 used.stack := by
  obtain ⟨sized, some, two⟩ := record.words
  change a64AggregateLocation tables type used = _
  rw [a64AggregateLocation, if_pos record.code, if_neg isNot, sized]
  by_cases both : wordsOf size = 2
  · rw [if_pos both, both]
    apply ite_congr _ (fun _ => rfl) fun _ => rfl
    apply propext
    omega
  · have one : wordsOf size = 1 := by omega
    rw [if_neg both, one, a64LirArgumentLocation, record.code]
    rfl

/-- Other classes than 4 and 5 are consecutive places. -/
theorem a64_words {type : Ty} {location : Nat} (noFields : nativeAbiLocationClass location ≠ 4)
    (noFallback : nativeAbiLocationClass location ≠ 5) :
    a64AggregateSend tables type location =
      locationWords location (nativeAggregateWords tables.layouts type) := by
  rw [a64AggregateSend, a64StackLocation, if_neg noFields, if_neg noFallback]

/-- The fields of a homogeneous record are in floating-point registers, or the record is on the
stack. -/
theorem RecordParameter.a64Homogeneous {type : Ty} {size : Nat} {fields : List (Nat × Nat)}
    (record : RecordParameter tables type size fields) {used : Used} (floating : used.floating ≤ 8)
    (small : used.stack + 2 < 2 ^ 32) (isHomogeneous : 0 < nativeAggregateHfaCode tables type) :
    a64AggregateSend tables type ((a64Rules tables).location type used) =
        used.deal (aapcs64Kinds used (.record size (fields.map fieldOf))) ∧
      (a64Rules tables).advance type used =
        aapcs64After used (.record size (fields.map fieldOf)) := by
  obtain ⟨sized, some, two⟩ := record.words
  have place : (a64Rules tables).location type used =
      if 8 < used.floating + fields.length then nativeAbiLocation 5 used.stack
      else nativeAbiLocation 4 used.floating := by
    change a64AggregateLocation tables type used = _
    rw [a64AggregateLocation, if_pos record.code, if_pos isHomogeneous, record.count]
  have inStack : used.stack < 2 ^ 32 := by omega
  have inFile : used.floating < 2 ^ 32 := by omega
  rw [LocationRules.advance, place, aapcs64After, aapcs64Kinds, List.length_map,
    if_pos (record.homogeneous.mp isHomogeneous)]
  rw [if_pos (record.homogeneous.mp isHomogeneous)]
  by_cases fits : used.floating + fields.length ≤ 8
  · rw [if_neg (by omega), if_pos fits, if_pos fits]
    constructor
    · rw [a64AggregateSend, locationClass_eq 4 inFile, if_pos rfl, locationIndex_eq 4 inFile,
        a64AggregateFields, record.leaves, List.length_map, Used.deal_floating]
      apply List.map_congr_left
      intro index member
      have inside := List.mem_range.mp member
      exact locationPlace_floating (by omega)
    · simp only [a64Rules, a64AggregateNextGp, a64AggregateNextFp, a64AggregateNextStack,
        locationClass_eq 4 inFile, record.count, Used.takeAll_eq, List.count_replicate_self,
        List.count_replicate]
      rfl
  · rw [if_pos (by omega), if_neg fits, if_neg fits]
    constructor
    · rw [a64AggregateSend, a64StackLocation, locationClass_eq 5 inStack, if_neg (by decide),
        if_pos rfl, locationIndex_eq 5 inStack, sized, locationWords_stack (by omega),
        Used.deal_stack]
    · simp only [a64Rules, a64AggregateNextGp, a64AggregateNextFp, a64AggregateNextStack,
        locationClass_eq 5 inStack, sized, Used.takeAll_eq, List.count_replicate_self,
        count_replicate_stack]
      rfl

/-- Other records are in general registers, or on the stack. -/
theorem RecordParameter.a64General {type : Ty} {size : Nat} {fields : List (Nat × Nat)}
    (record : RecordParameter tables type size fields) {used : Used} (general : used.general ≤ 8)
    (small : used.stack + 2 < 2 ^ 32) (isNot : ¬ 0 < nativeAggregateHfaCode tables type) :
    a64AggregateSend tables type ((a64Rules tables).location type used) =
        used.deal (aapcs64Kinds used (.record size (fields.map fieldOf))) ∧
      (a64Rules tables).advance type used =
        aapcs64After used (.record size (fields.map fieldOf)) := by
  obtain ⟨sized, some, two⟩ := record.words
  have inStack : used.stack < 2 ^ 32 := by omega
  have inFile : used.general < 2 ^ 32 := by omega
  rw [LocationRules.advance, record.a64Location used isNot, aapcs64After, aapcs64Kinds,
    if_neg (mt record.homogeneous.mpr isNot)]
  rw [if_neg (mt record.homogeneous.mpr isNot)]
  by_cases fits : used.general + wordsOf size ≤ 8
  · rw [if_pos fits, if_pos fits, if_pos fits]
    constructor
    · rw [a64_words (by rw [locationClass_eq 1 inFile]; decide)
        (by rw [locationClass_eq 1 inFile]; decide), sized, locationWords_general (by omega),
        Used.deal_general]
    · simp only [a64Rules, a64AggregateNextGp, a64AggregateNextFp, a64LirArgumentNextFp,
        a64AggregateNextStack, locationClass_eq 1 inFile, sized, Used.takeAll_eq,
        List.count_replicate_self, List.count_replicate]
      rfl
  · rw [if_neg fits, if_neg fits, if_neg fits]
    constructor
    · rw [a64_words (by rw [locationClass_eq 3 inStack]; decide)
        (by rw [locationClass_eq 3 inStack]; decide), sized, locationWords_stack (by omega),
        Used.deal_stack]
    · have gone : (if wordsOf size = 2 then 8 else used.general) = 8 := by
        split
        · rfl
        · omega
      simp only [a64Rules, a64AggregateNextGp, a64AggregateNextFp, a64LirArgumentNextFp,
        a64AggregateNextStack, locationClass_eq 3 inStack, sized, Used.takeAll_eq,
        List.count_replicate_self, count_replicate_stack, true_and, gone]
      rfl

theorem a64_steps {type : Ty} {used : Used} (passable : Passable tables hosted type)
    (within : used.WithinFiles 8 8) (small : used.stack + 2 < 2 ^ 32) :
    a64AggregateSend tables type ((a64Rules tables).location type used) =
        used.deal (aapcs64Kinds used (argumentOf tables type)) ∧
      a64LirLoadArgument tables type ((a64Rules tables).location type used) =
        a64AggregateSend tables type ((a64Rules tables).location type used) ∧
      (a64Rules tables).advance type used = aapcs64After used (argumentOf tables type) := by
  obtain ⟨general, floating⟩ := within
  have registers : used.general < 2 ^ 32 ∧ used.floating < 2 ^ 32 ∧ used.stack < 2 ^ 32 := by omega
  obtain ⟨scalar, argument, words⟩ | ⟨size, fields, record⟩ := passable.cases
  · obtain ⟨kind, kinds, location⟩ := a64_scalar scalar used
    have after : aapcs64After used (argumentOf tables type) = used.takeAll [kind] := by
      rw [argument, aapcs64After, kinds]
    have sent : a64AggregateSend tables type (nextLocation used kind) = [used.next kind] := by
      rw [a64_words, words, locationWords_one, nextLocation_place registers]
      · rw [nextLocation_class registers]
        cases kind <;> decide
      · rw [nextLocation_class registers]
        cases kind <;> decide
    rw [after, argument, kinds, LocationRules.advance, location, sent]
    refine ⟨rfl, ?_, ?_⟩
    · rw [a64LirLoadArgument, if_neg scalar, nextLocation_place registers]
    · simp only [a64Rules, a64AggregateNextGp, a64AggregateNextFp, a64LirArgumentNextFp,
        a64AggregateNextStack, nextLocation_class registers, words]
      cases kind with
      | general => rfl
      | floating => rfl
      | stack => rfl
  · rw [record.argument]
    by_cases isHomogeneous : 0 < nativeAggregateHfaCode tables type
    · obtain ⟨sent, after⟩ := record.a64Homogeneous floating small isHomogeneous
      exact ⟨sent, if_pos record.code, after⟩
    · obtain ⟨sent, after⟩ := record.a64General general small isHomogeneous
      exact ⟨sent, if_pos record.code, after⟩

theorem a64_follows : Follows (a64Rules tables) (a64AggregateSend tables)
    (a64LirLoadArgument tables) aapcs64 (Used.WithinFiles 8 8) tables hosted :=
  ⟨fun _ _ passable within small => (a64_steps passable within small).1,
    fun _ _ passable within small =>
      (a64_steps passable within small).2.1.trans (a64_steps passable within small).1,
    fun _ _ passable within small => (a64_steps passable within small).2.2⟩

/-! ## LP64D -/

/-- The location of one or two words by the integer rules. -/
def rvIntegerLocation (used : Used) (words : Nat) : Nat :=
  if words = 2 then
    if used.general < 7 then nativeAbiLocation 1 used.general
    else if used.general = 7 then nativeAbiLocation 4 used.stack
    else nativeAbiLocation 3 used.stack
  else if used.general < 8 then nativeAbiLocation 1 used.general
  else nativeAbiLocation 3 used.stack

/-- The place of a word, for the classes of the integer rules. -/
theorem rv_part {kind index part : Nat} (small : index + part < 2 ^ 32)
    (plain : kind = 1 ∨ kind = 3) :
    rvSendPlace (rvAggregatePartLocation (nativeAbiLocation kind index) part) =
        locationPlace (nativeAbiLocation kind (index + part)) ∧
      locationPlace (rvAggregatePartLocation (nativeAbiLocation kind index) part) =
        locationPlace (nativeAbiLocation kind (index + part)) := by
  have moved : rvAggregatePartLocation (nativeAbiLocation kind index) part =
      nativeAbiLocation kind (index + part) := by
    rw [rvAggregatePartLocation, locationClass_eq kind (by omega), locationIndex_eq kind (by omega),
      if_neg (by omega)]
  rw [moved]
  refine ⟨?_, rfl⟩
  obtain rfl | rfl := plain
  · rw [locationPlace_general small, rvSendPlace, locationClass_eq 1 small, locationIndex_eq 1 small,
      if_pos rfl]
  · rw [locationPlace_stack small, rvSendPlace, locationClass_eq 3 small, locationIndex_eq 3 small,
      if_neg (by decide)]

/-- By the integer rules all words are in registers, or the last register is split off, or all words
are on the stack. -/
theorem rvInteger_cases {used : Used} {words : Nat} (general : used.general ≤ 8)
    (few : words = 1 ∨ words = 2) :
    (used.general + words ≤ 8 ∧
        rvIntegerLocation used words = nativeAbiLocation 1 used.general ∧
        integerKinds used words = List.replicate words .general) ∨
      (words = 2 ∧ used.general = 7 ∧
        rvIntegerLocation used words = nativeAbiLocation 4 used.stack ∧
        integerKinds used words = [.general, .stack]) ∨
      (used.general = 8 ∧ rvIntegerLocation used words = nativeAbiLocation 3 used.stack ∧
        integerKinds used words = List.replicate words .stack) := by
  rw [rvIntegerLocation, integerKinds]
  obtain rfl | rfl := few
  · by_cases room : used.general < 8
    · refine .inl ⟨room, ?_, ?_⟩
      · rw [if_neg (by decide), if_pos room]
      · rw [if_pos (Nat.le_refl _), if_pos room]
        rfl
    · refine .inr (.inr ⟨by omega, ?_, ?_⟩)
      · rw [if_neg (by decide), if_neg room]
      · rw [if_pos (Nat.le_refl _), if_neg room]
        rfl
  · rw [if_pos rfl, if_neg (show ¬ 2 ≤ 1 by decide)]
    by_cases room : used.general < 7
    · refine .inl ⟨by omega, if_pos room, ?_⟩
      rw [if_pos (by omega)]
      rfl
    · by_cases last : used.general = 7
      · refine .inr (.inl ⟨rfl, last, ?_, ?_⟩)
        · rw [if_neg room, if_pos last]
        · rw [if_neg (by omega), if_pos (by omega)]
      · refine .inr (.inr ⟨by omega, ?_, ?_⟩)
        · rw [if_neg room, if_neg last]
        · rw [if_neg (by omega), if_neg (by omega)]
          rfl

theorem rvInteger_one {used : Used} (general : used.general ≤ 8)
    (small : used.stack + 2 < 2 ^ 32) :
    nativeAbiLocationClass (rvIntegerLocation used 1) ≠ 4 := by
  obtain ⟨_, location, _⟩ | ⟨two, _⟩ | ⟨_, location, _⟩ := rvInteger_cases general (.inl rfl)
  · rw [location, locationClass_eq 1 (by omega)]
    decide
  · cases two
  · rw [location, locationClass_eq 3 (by omega)]
    decide

/-- The words of a value by the integer rules, at the caller and at the callee. -/
theorem rv_integer {type : Ty} {used : Used} {words : Nat} (general : used.general ≤ 8)
    (small : used.stack + 2 < 2 ^ 32) (few : words = 1 ∨ words = 2)
    (sized : nativeAggregateWords tables.layouts type = words)
    (place : (rvRules tables).location type used = rvIntegerLocation used words) :
    (List.range words).map (fun part =>
        rvSendPlace (rvAggregatePartLocation (rvIntegerLocation used words) part)) =
        used.deal (integerKinds used words) ∧
      (List.range words).map (fun part =>
        locationPlace (rvAggregatePartLocation (rvIntegerLocation used words) part)) =
        used.deal (integerKinds used words) ∧
      (rvRules tables).advance type used = used.takeAll (integerKinds used words) ∧
      nativeAbiLocationClass (rvIntegerLocation used words) ≠ 5 := by
  rw [LocationRules.advance, place]
  simp only [rvRules, rvAggregateNextGp, rvAggregateNextFp, rvLirNextFp, rvAggregateNextStack, sized]
  have registers : used.general < 2 ^ 32 := by omega
  have slots : used.stack < 2 ^ 32 := by omega
  obtain ⟨room, location, kinds⟩ | ⟨rfl, last, location, kinds⟩ | ⟨full, location, kinds⟩ :=
    rvInteger_cases general few
  · rw [location, kinds, locationClass_eq 1 registers, Used.deal_general]
    refine ⟨?_, ?_, ?_, by decide⟩
    · apply List.map_congr_left
      intro part member
      have inside := List.mem_range.mp member
      rw [(rv_part (by omega) (.inl rfl)).1, locationPlace_general (by omega)]
    · apply List.map_congr_left
      intro part member
      have inside := List.mem_range.mp member
      rw [(rv_part (by omega) (.inl rfl)).2, locationPlace_general (by omega)]
    · simp only [Used.takeAll_eq, List.count_replicate_self, List.count_replicate]
      rfl
  · rw [location, kinds, locationClass_eq 4 slots]
    have first : rvAggregatePartLocation (nativeAbiLocation 4 used.stack) 0 =
        nativeAbiLocation 1 7 := by
      rw [rvAggregatePartLocation, locationClass_eq 4 slots, if_pos rfl, if_pos rfl]
    have second : rvAggregatePartLocation (nativeAbiLocation 4 used.stack) 1 =
        nativeAbiLocation 3 used.stack := by
      rw [rvAggregatePartLocation, locationClass_eq 4 slots, locationIndex_eq 4 slots, if_pos rfl,
        if_neg (by decide)]
    have dealt : used.deal [.general, .stack] = [.general 7, .stack used.stack] := by
      rw [← last]
      rfl
    refine ⟨?_, ?_, ?_, by decide⟩
    · change [rvSendPlace _, rvSendPlace _] = _
      rw [first, second, dealt, rvSendPlace, rvSendPlace, locationClass_eq 1 (by decide),
        locationIndex_eq 1 (by decide), locationClass_eq 3 slots, locationIndex_eq 3 slots,
        if_pos rfl, if_neg (by decide)]
    · change [locationPlace _, locationPlace _] = _
      rw [first, second, dealt, locationPlace_general (by decide), locationPlace_stack slots]
    · rw [Used.takeAll_eq, last]
      rfl
  · rw [location, kinds, locationClass_eq 3 slots, Used.deal_stack]
    refine ⟨?_, ?_, ?_, by decide⟩
    · apply List.map_congr_left
      intro part member
      have inside := List.mem_range.mp member
      rw [(rv_part (by omega) (.inr rfl)).1, locationPlace_stack (by omega)]
    · apply List.map_congr_left
      intro part member
      have inside := List.mem_range.mp member
      rw [(rv_part (by omega) (.inr rfl)).2, locationPlace_stack (by omega)]
    · simp only [Used.takeAll_eq, List.count_replicate_self, count_replicate_stack]
      rfl

section Record

variable {type : Ty} {size : Nat} {fields : List (Nat × Nat)}

/-- The kind of the register of a field on its own. -/
def fieldKind (field : Nat × Nat) : Calling.Kind :=
  if nativeAbiFloatP field.2 then .floating else .general

theorem fieldKinds_eq (fields : List (Nat × Nat)) :
    fieldKinds (fields.map fieldOf) = fields.map fieldKind := by
  rw [fieldKinds, List.map_map]
  rfl

/-- The fields of a file among the first ones. -/
theorem RecordParameter.registerIndex (record : RecordParameter tables type size fields)
    (stop : Nat) :
    rvAggregateFieldRegisterIndex (aggregateLeaves tables type) stop true =
        ((fields.take stop).map fieldKind).count .floating ∧
      rvAggregateFieldRegisterIndex (aggregateLeaves tables type) stop false =
        ((fields.take stop).map fieldKind).count .general := by
  have codes : ∀ field ∈ fields.take stop,
      nativeAggregateLeafCode (packLeaf field.1 field.2) = field.2 := fun field member =>
    leafCode_packLeaf (record.codes field (List.mem_of_mem_take member))
  rw [record.leaves]
  simp only [rvAggregateFieldRegisterIndex, ← List.map_take, List.countP_map, List.count]
  constructor
  · apply List.countP_congr
    intro field member
    simp only [Function.comp_apply, codes field member, fieldKind]
    cases nativeAbiFloatP field.2 with
    | true => simp
    | false => simp
  · apply List.countP_congr
    intro field member
    simp only [Function.comp_apply, codes field member, fieldKind]
    cases nativeAbiFloatP field.2 with
    | true => simp
    | false => simp

theorem count_fieldKind (fields : List (Nat × Nat)) :
    (fields.map fieldKind).count .general + (fields.map fieldKind).count .floating =
      fields.length := by
  induction fields with
  | nil => rfl
  | cons field rest ih =>
      rw [List.map_cons, List.count_cons, List.count_cons, List.length_cons]
      cases isFloat : nativeAbiFloatP field.2 with
      | true =>
          simp only [fieldKind, isFloat] at ih ⊢
          simp
          omega
      | false =>
          simp only [fieldKind, isFloat] at ih ⊢
          simp
          omega

theorem fieldKinds_stack (fields : List (Nat × Nat)) :
    (fields.map fieldKind).count .stack = 0 := by
  rw [List.count_eq_zero, List.mem_map]
  rintro ⟨field, _, same⟩
  rw [fieldKind] at same
  split at same
  · cases same
  · cases same

theorem RecordParameter.floats (record : RecordParameter tables type size fields) :
    nativeAggregateFloatLeafCount (aggregateLeaves tables type) =
      (fields.map fieldKind).count .floating := by
  have all := (record.registerIndex fields.length).1
  have whole : (aggregateLeaves tables type).take fields.length = aggregateLeaves tables type := by
    rw [record.leaves, List.take_of_length_le (by rw [List.length_map])]
  rw [rvAggregateFieldRegisterIndex, whole, List.take_length] at all
  rw [nativeAggregateFloatLeafCount, ← all]
  apply List.countP_congr
  intro leaf _
  rw [decide_eq_true_eq]

theorem RecordParameter.fieldCount (record : RecordParameter tables type size fields) :
    rvAggregateFieldCount tables type true = (fields.map fieldKind).count .floating ∧
      rvAggregateFieldCount tables type false = (fields.map fieldKind).count .general := by
  have total := count_fieldKind fields
  simp only [rvAggregateFieldCount, record.floats, record.count, ↓reduceIte, Bool.false_eq_true,
    true_and]
  omega

theorem RecordParameter.special (record : RecordParameter tables type size fields) :
    rvAggregateSpecialP tables type = flattened (fields.map fieldOf) := by
  have some : (fields.map fieldKind).count .floating = 0 ↔
      ¬ (fields.any fun field => nativeAbiFloatP field.2) = true := by
    rw [List.count_eq_zero, List.mem_map, List.any_eq_true, not_iff_not]
    apply exists_congr
    intro field
    apply and_congr_right
    intro _
    rw [fieldKind]
    split
    case isTrue isFloat => exact ⟨fun _ => isFloat, fun _ => rfl⟩
    case isFalse isNot => exact ⟨by intros; contradiction, fun isFloat => absurd isFloat isNot⟩
  rw [rvAggregateSpecialP, record.count, record.floats, flattened, List.length_map, List.any_map,
    Bool.eq_iff_iff]
  simp only [Bool.not_eq_true', Bool.or_eq_false_iff, decide_eq_false_iff_not, some, not_not,
    Nat.not_lt, Bool.and_eq_true, decide_eq_true_eq]
  rfl

/-- Each field is in the next register of its file. -/
theorem RecordParameter.fieldPlaces (record : RecordParameter tables type size fields) {used : Used}
    (general : used.general + (fields.map fieldKind).count .general ≤ 8)
    (floating : used.floating + (fields.map fieldKind).count .floating ≤ 8) :
    rvAggregateFields tables type (nativeAbiLocation 5 (used.general + used.floating * 16)) =
      used.deal (fields.map fieldKind) := by
  have small : used.general + used.floating * 16 < 2 ^ 32 := by omega
  rw [rvAggregateFields, record.leaves, List.length_map, Used.deal_eq_map, List.length_map]
  apply List.map_congr_left
  intro index member
  have inside := List.mem_range.mp member
  obtain ⟨floats, generals⟩ := record.registerIndex index
  have few : ∀ kind : Calling.Kind, ((fields.take index).map fieldKind).count kind ≤
      (fields.map fieldKind).count kind := fun kind =>
    ((List.take_sublist index fields).map fieldKind).count_le kind
  have fewGenerals := few .general
  have fewFloats := few .floating
  have found : fields[index]? = some fields[index] := List.getElem?_eq_getElem inside
  have own : (fields.map fieldKind).getD index .stack = fieldKind fields[index] := by
    rw [List.getD_eq_getElem?_getD, List.getElem?_map, found]
    rfl
  have code : nativeAggregateLeafCode (nativeAggregateLeaf tables type index) =
      fields[index].2 := by
    rw [record.leaf, packedAt, found]
    exact leafCode_packLeaf (record.codes _ (List.getElem_mem inside))
  rw [own, ← List.map_take, Used.takeAll_eq, rvAggregateFieldLocation, locationIndex_eq 5 small, code,
    fieldKind, packed_low (by omega), packed_high (by omega)]
  cases nativeAbiFloatP fields[index].2 with
  | true =>
      rw [if_pos rfl, if_pos rfl, if_pos rfl, floats, locationPlace_floating (by omega)]
      rfl
  | false =>
      rw [if_neg (by decide), if_neg (by decide), if_neg (by decide), generals,
        locationPlace_general (by omega)]
      rfl

end Record

/-- A scalar is in a floating-point register, or follows the integer rules. -/
theorem rv_scalar {type : Ty} (scalar : scalarTypeCode tables.layouts type ≠ 16)
    (words : nativeAggregateWords tables.layouts type = 1) (used : Used) :
    (used.floating < 8 ∧
        lp64dKinds used (.scalar (nativeAbiFloatP (scalarTypeCode tables.layouts type))) =
          [.floating] ∧
        (rvRules tables).location type used = nativeAbiLocation 2 used.floating) ∨
      (lp64dKinds used (.scalar (nativeAbiFloatP (scalarTypeCode tables.layouts type))) =
          integerKinds used 1 ∧
        (rvRules tables).location type used = rvIntegerLocation used 1) := by
  have place : (rvRules tables).location type used =
      rvLirArgumentLocation (scalarTypeCode tables.layouts type) used := by
    change rvAggregateLocation tables type used = _
    rw [rvAggregateLocation, if_neg fun special => scalar special.1, rvAggregateGeneralLocation,
      words, if_neg (by decide)]
  rw [place, rvLirArgumentLocation]
  cases nativeAbiFloatP (scalarTypeCode tables.layouts type) with
  | true =>
      by_cases room : used.floating < 8
      · exact .inl ⟨room, if_pos room, by rw [if_pos rfl, if_pos room]⟩
      · refine .inr ⟨if_neg room, ?_⟩
        rw [if_pos rfl, if_neg room]
        rfl
  | false => exact .inr ⟨rfl, rfl⟩

theorem rv_steps {type : Ty} {used : Used} (passable : Passable tables hosted type)
    (within : used.WithinFiles 8 8) (small : used.stack + 2 < 2 ^ 32) :
    rvAggregateSend tables type ((rvRules tables).location type used) =
        used.deal (lp64dKinds used (argumentOf tables type)) ∧
      rvLirLoadArgument tables type ((rvRules tables).location type used) =
        used.deal (lp64dKinds used (argumentOf tables type)) ∧
      (rvRules tables).advance type used =
        used.takeAll (lp64dKinds used (argumentOf tables type)) := by
  obtain ⟨general, floating⟩ := within
  obtain ⟨scalar, argument, words⟩ | ⟨size, fields, record⟩ := passable.cases
  · rw [argument]
    obtain ⟨room, kinds, location⟩ | ⟨kinds, location⟩ := rv_scalar scalar words used
    · have inFile : used.floating < 2 ^ 32 := by omega
      rw [kinds, LocationRules.advance, location, rvAggregateSend, rvLirLoadArgument,
        locationClass_eq 2 inFile, if_neg (by decide), if_neg scalar, if_neg scalar,
        locationPlace_floating inFile]
      refine ⟨rfl, rfl, ?_⟩
      simp only [rvRules, rvAggregateNextGp, rvAggregateNextFp, rvLirNextFp, rvAggregateNextStack,
        locationClass_eq 2 inFile]
      rfl
    · obtain ⟨_, received, after, noFields⟩ := rv_integer general small (.inl rfl) words location
      have whole : rvAggregatePartLocation (rvIntegerLocation used 1) 0 =
          rvIntegerLocation used 1 := by
        rw [rvAggregatePartLocation, if_neg (rvInteger_one general small), nativeAbiLocation,
          nativeAbiLocationClass, nativeAbiLocationIndex]
        omega
      have one : [locationPlace (rvIntegerLocation used 1)] = used.deal (integerKinds used 1) := by
        rw [← received]
        change _ = [locationPlace (rvAggregatePartLocation _ 0)]
        rw [whole]
      rw [kinds, location, rvAggregateSend, rvLirLoadArgument, if_neg noFields, if_neg scalar,
        if_neg scalar]
      exact ⟨one, one, after⟩
  · obtain ⟨sized, some, two⟩ := record.words
    obtain ⟨floats, generals⟩ := record.fieldCount
    rw [record.argument, lp64dKinds, fieldKinds_eq]
    by_cases fits : flattened (fields.map fieldOf) = true ∧
        used.general + (fields.map fieldKind).count .general ≤ 8 ∧
        used.floating + (fields.map fieldKind).count .floating ≤ 8
    · have place : (rvRules tables).location type used =
          nativeAbiLocation 5 (used.general + used.floating * 16) := by
        change rvAggregateLocation tables type used = _
        rw [rvAggregateLocation, if_pos ⟨record.code, record.special.trans fits.1⟩, floats, generals,
          if_neg (by omega)]
      have packed : used.general + used.floating * 16 < 2 ^ 32 := by omega
      rw [if_pos fits, LocationRules.advance, place, rvAggregateSend, rvLirLoadArgument,
        locationClass_eq 5 packed, if_pos rfl, if_pos record.code, if_pos rfl,
        record.fieldPlaces fits.2.1 fits.2.2]
      refine ⟨rfl, rfl, ?_⟩
      simp only [rvRules, rvAggregateNextGp, rvAggregateNextFp, rvAggregateNextStack,
        locationClass_eq 5 packed, floats, generals, Used.takeAll_eq, fieldKinds_stack, ↓reduceIte,
        Nat.reduceEqDiff, Nat.add_zero]
    · have place : (rvRules tables).location type used = rvIntegerLocation used (wordsOf size) := by
        have integer : rvAggregateGeneralLocation tables type used =
            rvIntegerLocation used (wordsOf size) := by
          rw [rvAggregateGeneralLocation, sized, record.code]
          rfl
        change rvAggregateLocation tables type used = _
        rw [rvAggregateLocation, record.special, floats, generals, integer]
        split
        case isTrue special =>
          rw [if_pos]
          by_contra room
          exact fits ⟨special.2, by omega, by omega⟩
        case isFalse => rfl
      obtain ⟨sent, received, after, noFields⟩ := rv_integer general small (by omega) sized place
      rw [if_neg fits, after, place, rvAggregateSend, rvLirLoadArgument, if_neg noFields,
        if_pos record.code, if_pos record.code, if_neg noFields, sized]
      exact ⟨sent, received, rfl⟩

theorem rv_follows : Follows (rvRules tables) (rvAggregateSend tables)
    (rvLirLoadArgument tables) lp64d (Used.WithinFiles 8 8) tables hosted :=
  ⟨fun _ _ passable within small => (rv_steps passable within small).1,
    fun _ _ passable within small => (rv_steps passable within small).2.1,
    fun _ _ passable within small => (rv_steps passable within small).2.2⟩

end Native
