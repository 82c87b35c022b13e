import PslCompiler.Native.ArgumentPassing
import PslCompiler.Native.RecordLeaves

/-! # How records are classified

A calling convention decides from the size and the scalar fields of a record how it is passed. Stage 0
decides so for every accepted record, and the native compiler for those that are not nested too deep.
-/

namespace Native

open Records Stage0 Calling

variable {forms : List StructureForm} {layouts : Layouts} {tables : LayoutContext}

/-! ## Classes -/

namespace AbiTarget

/-- The convention of a target by its name in Stage 0. -/
def abi : AbiTarget → Abi
  | systemV => .sysvAmd64
  | aapcs64 => .aapcs64
  | lp64d => .lp64d
  | microsoft => .win64

/-- How a native backend takes a record. -/
def aggregateClass (tables : LayoutContext) (type : Ty) : AbiTarget → AggregateClass Nat
  | systemV =>
      .words ((List.range (nativeAggregateWords tables.layouts type)).map fun part =>
        if x86AggregateClass tables type part = 1 then .integer else .sse)
  | aapcs64 =>
      if 0 < nativeAggregateHfaCode tables type then
        .hfa (nativeAggregateHfaCode tables type)
          ((aggregateLeaves tables type).map nativeAggregateLeafOffset)
      else .general (sourceTypeSize tables.layouts type)
  | lp64d =>
      if rvAggregateSpecialP tables type then
        .rvFields ((aggregateLeaves tables type).map fun leaf =>
          (nativeAggregateLeafOffset leaf, nativeAggregateLeafCode leaf))
          (sourceTypeSize tables.layouts type)
      else .rvGeneral (sourceTypeSize tables.layouts type)
  | microsoft =>
      if win64AggregateIndirectP tables type then .winIndirect (sourceTypeSize tables.layouts type)
      else .winDirect (sourceTypeSize tables.layouts type)

def wordClassOf : Calling.Kind → WordClass
  | .floating => .sse
  | _ => .integer

/-- How the convention takes a record of some size with some scalar fields. -/
def conventionClass (size : Nat) (fields : List (Nat × Nat)) : AbiTarget → AggregateClass Nat
  | systemV => .words ((wordClasses size (fields.map fieldOf)).map wordClassOf)
  | aapcs64 =>
      if homogeneous (fields.map fieldOf) then
        .hfa ((fields.head?.map Prod.snd).getD 0) (fields.map Prod.fst)
      else .general size
  | lp64d => if flattened (fields.map fieldOf) then .rvFields fields size else .rvGeneral size
  | microsoft => if size ∈ [1, 2, 4, 8] then .winDirect size else .winIndirect size

end AbiTarget

/-! ## Accepted records -/

/-- A record type that the native compiler accepts, with its size and its scalar fields. -/
structure AcceptedRecord (tables : LayoutContext) (name : String) (layout : Layout)
    (fields : List (Nat × Nat)) : Prop where
  accepted : sourceAggregateAtDepthP tables 1025 (.struct name) = true
  found : nativeFindLayout tables.layouts name = some layout
  scalars : scalarFields tables 1026 0 (.struct name) = fields
  positive : 0 < layout.size
  small : layout.size ≤ 16
  natural : Natural layout.size layout.alignment fields
  ordered : fields.Pairwise fun first second => first.1 ≤ second.1

theorem acceptedRecord_of {type : Ty} (accepted : sourceAggregateTypeP tables type = true) :
    ∃ name layout fields, type = .struct name ∧ AcceptedRecord tables name layout fields := by
  rw [sourceAggregateTypeP] at accepted
  cases type with
  | struct name =>
      cases found : nativeFindLayout tables.layouts name with
      | none =>
          rw [sourceAggregateAtDepthP, found] at accepted
          cases accepted
      | some layout =>
          have resolved : nativeResolveType tables.layouts (.struct name) =
              some ⟨layout.size, layout.alignment, .aggregate⟩ := by
            simp only [nativeResolveType, found]
          obtain ⟨positive, small, natural⟩ := accepted_natural 1025 _ _ accepted resolved
          exact ⟨name, layout, _, rfl, accepted, found, rfl, positive, small, natural,
            accepted_ordered 1025 _ _ accepted resolved⟩
  | _ =>
      rw [sourceAggregateAtDepthP] at accepted
      · cases accepted
      · intros
        contradiction

namespace AcceptedRecord

variable {name : String} {layout : Layout} {fields : List (Nat × Nat)}

theorem code (record : AcceptedRecord tables name layout fields) :
    scalarTypeCode tables.layouts (.struct name) = 16 := by
  rw [scalarTypeCode, record.found]
  rfl

theorem sized (record : AcceptedRecord tables name layout fields) :
    sourceTypeSize tables.layouts (.struct name) = layout.size := by
  rw [sourceTypeSize, nativeResolveType, record.found]
  rfl

theorem argument (record : AcceptedRecord tables name layout fields) :
    argumentOf tables (.struct name) = .record layout.size (fields.map fieldOf) := by
  rw [argumentOf, if_pos record.code, record.sized, record.scalars]

/-- The backends see all scalar fields of a record that is not nested too deep. -/
theorem parameter (record : AcceptedRecord tables name layout fields)
    (nests : nestsWithin tables 128 (.struct name) = true) :
    RecordParameter tables (.struct name) layout.size fields := by
  have resolved : nativeResolveType tables.layouts (.struct name) =
      some ⟨layout.size, layout.alignment, .aggregate⟩ := by
    simp only [nativeResolveType, record.found]
  have parameter := recordParameter_of record.code record.accepted nests resolved
  rw [← scalarFields_of_nests 128 1026 (.struct name) 0 nests (by decide),
    record.scalars] at parameter
  exact parameter

end AcceptedRecord

/-! ## Stage 0 -/

/-- Marking goes word by word. -/
theorem foldl_markLeaf (part : Nat) : ∀ (leaves : List (Nat × Nat))
    (classes : List (Option WordClass)), (leaves.foldl markLeaf classes)[part]? =
      classes[part]?.map fun previous =>
        (leaves.filter fun leaf => leaf.1 / 8 = part).foldl (fun word leaf =>
          markWord (if nativeAbiFloatP leaf.2 then .sse else .integer) word) previous := by
  intro leaves
  induction leaves with
  | nil => exact fun classes => Option.map_id'.symm
  | cons leaf rest ih =>
      intro classes
      rw [List.foldl_cons, ih, markLeaf, List.getElem?_modify, Option.map_eq_map, Option.map_map]
      by_cases same : leaf.1 / 8 = part
      · rw [List.filter_cons_of_pos (by simpa using same)]
        simp only [if_pos same]
        rfl
      · rw [List.filter_cons_of_neg (by simpa using same)]
        simp only [if_neg same]
        rfl

/-- A marked word is an integer word unless all its scalars are floating-point numbers. -/
theorem foldl_markWord : ∀ (inside : List (Nat × Nat)) (previous : Option WordClass),
    inside.foldl (fun word leaf =>
      markWord (if nativeAbiFloatP leaf.2 then .sse else .integer) word) previous =
      if inside.isEmpty then previous
      else if previous = some .integer then some .integer
      else if inside.all fun leaf => nativeAbiFloatP leaf.2 then some .sse
      else some .integer := by
  intro inside
  induction inside with
  | nil => exact fun previous => rfl
  | cons leaf rest ih =>
      intro previous
      rw [List.foldl_cons, ih, List.all_cons, List.isEmpty_cons]
      cases float : nativeAbiFloatP leaf.2 with
      | true =>
          by_cases integer : previous = some .integer
          · simp [integer, markWord]
          · have word : markWord .sse previous = some .sse := by
              rw [markWord, if_neg (by simp [integer])]
            simp only [↓reduceIte, word, if_neg integer, Bool.true_and]
            cases rest with
            | nil => rfl
            | cons next rest => rfl
      | false =>
          have word : markWord .integer previous = some .integer := if_pos (.inl rfl)
          cases rest with
          | nil => simp [word]
          | cons next rest => simp [word]

/-- Each word of a record has a class. -/
theorem AcceptedRecord.wordClasses {name : String} {layout : Layout} {fields : List (Nat × Nat)}
    (record : AcceptedRecord tables name layout fields) :
    Calling.wordClasses layout.size (fields.map fieldOf) =
      (List.range (wordsOf layout.size)).map fun part =>
        if (fields.filter fun field => field.1 / 8 = part).all fun field =>
          nativeAbiFloatP field.2 then .floating else .general := by
  have byMap : ∀ kind : Nat → Calling.Kind, (List.range (wordsOf layout.size)).map kind =
      (List.range (wordsOf layout.size)).filterMap (some ∘ kind) :=
    fun kind => congrFun List.filterMap_eq_map.symm _
  rw [Calling.wordClasses, byMap]
  apply List.filterMap_congr
  intro part member
  exact (record.natural.wordClass record.small (List.mem_range.mp member)).2

/-- The words that Stage 0 marks are those of the System V convention. -/
theorem AcceptedRecord.markedWords {name : String} {layout : Layout} {fields : List (Nat × Nat)}
    (record : AcceptedRecord tables name layout fields) :
    (fields.foldl markLeaf (List.replicate (wordsOf layout.size) none)).map
        (fun word => word.getD .integer) =
      (Calling.wordClasses layout.size (fields.map fieldOf)).map AbiTarget.wordClassOf := by
  rw [record.wordClasses, List.map_map]
  apply List.ext_getElem?
  intro part
  rw [List.getElem?_map, List.getElem?_map, foldl_markLeaf]
  by_cases inside : part < wordsOf layout.size
  · have some := (record.natural.wordClass record.small inside).1
    rw [List.getElem?_replicate_of_lt inside, List.getElem?_range inside, Option.map_some,
      Option.map_some, Option.map_some, foldl_markWord, some]
    simp only [Bool.false_eq_true, ↓reduceIte, Function.comp_apply, reduceCtorEq]
    split
    · rfl
    · rfl
  · rw [List.getElem?_eq_none (by rw [List.length_replicate]; omega),
      List.getElem?_eq_none (by rw [List.length_range]; omega)]
    rfl

/-- The scalars of Stage 0 are homogeneous if those of the convention are. -/
theorem homogeneous_leaves {known : List Layout} {first : Nat × Ty} {rest : List (Nat × Ty)} :
    Calling.homogeneous (((first :: rest).map (codedLeaf known)).map fieldOf) =
      ((first :: rest).length ≤ 4 && first.2.floatTypeP &&
        rest.all fun leaf => leaf.2 = first.2) := by
  rw [Bool.eq_iff_iff, List.map_cons, homogeneous_iff, Bool.and_eq_true, Bool.and_eq_true,
    decide_eq_true_eq, and_assoc, List.length_cons, List.length_map, List.length_cons,
    List.all_eq_true, floatTypeP_eq known]
  apply and_congr_right
  intro _
  apply and_congr_right
  intro isFloat
  rw [List.forall_mem_map]
  apply forall₂_congr
  intro leaf _
  rw [decide_eq_true_eq, floatType_inj known (by rw [floatTypeP_eq known]; exact isFloat)]
  rfl

/-- Scalars are floating-point numbers or not. -/
theorem count_scalars : ∀ (leaves : List (Nat × Ty)), (∀ leaf ∈ leaves, leaf.2.scalarTypeP = true) →
    leaves.countP (fun leaf => leaf.2.floatTypeP) +
      leaves.countP (fun leaf => leaf.2.integerTypeP || leaf.2.pointerTypeP) = leaves.length := by
  intro leaves
  induction leaves with
  | nil => exact fun _ => rfl
  | cons leaf rest ih =>
      intro scalars
      have others := ih fun other member => scalars other (List.mem_cons_of_mem _ member)
      have own : (leaf.2.integerTypeP || leaf.2.pointerTypeP) = !leaf.2.floatTypeP := by
        have scalar := scalars leaf List.mem_cons_self
        cases type : leaf.2 with
        | void | value | boolean | struct _ =>
            rw [type] at scalar
            cases scalar
        | _ => rfl
      rw [List.countP_cons, List.countP_cons, List.length_cons, own]
      cases leaf.2.floatTypeP with
      | true =>
          simp only [↓reduceIte, Bool.not_true, Bool.false_eq_true, Nat.add_zero]
          omega
      | false =>
          simp only [Bool.false_eq_true, ↓reduceIte, Bool.not_false, Nat.add_zero]
          omega

theorem flattened_leaves {known : List Layout} (leaves : List (Nat × Ty)) :
    flattened ((leaves.map (codedLeaf known)).map fieldOf) = true ↔
      leaves.length ≤ 2 ∧ 0 < leaves.countP fun leaf => leaf.2.floatTypeP := by
  rw [flattened, Bool.and_eq_true, decide_eq_true_eq, List.length_map, List.length_map,
    List.any_eq_true, List.countP_pos_iff, List.map_map]
  apply and_congr_right
  intro _
  constructor
  · rintro ⟨_, member, float⟩
    obtain ⟨leaf, isLeaf, rfl⟩ := List.mem_map.mp member
    exact ⟨leaf, isLeaf, (floatTypeP_eq known _).trans float⟩
  · rintro ⟨leaf, isLeaf, float⟩
    exact ⟨_, List.mem_map_of_mem isLeaf, (floatTypeP_eq known _).symm.trans float⟩

theorem aapcsClass_of {known : List Layout} {levels : Nat} {record : PackedLayout}
    {leaves : List (Nat × Ty)} (collected : cLeafFields layouts levels record = .ok leaves)
    (nonempty : leaves ≠ []) (scalars : ∀ leaf ∈ leaves, leaf.2.scalarTypeP = true) :
    aapcsAggregateClass layouts levels record = .ok (some
      (if homogeneous ((leaves.map (codedLeaf known)).map fieldOf) then
        .hfa ((leaves.head?.map Prod.snd).getD .void) (leaves.map Prod.fst)
      else .general record.size)) := by
  have all : (leaves.all fun leaf =>
      leaf.2.integerTypeP || leaf.2.pointerTypeP || leaf.2.floatTypeP) = true := by
    rw [List.all_eq_true]
    intro leaf member
    rw [Bool.or_assoc, Bool.or_comm leaf.2.pointerTypeP, ← Bool.or_assoc]
    exact scalars leaf member
  rw [aapcsAggregateClass, collected]
  cases leaves with
  | nil => exact absurd rfl nonempty
  | cons first rest =>
      rw [homogeneous_leaves]
      change Except.ok (if _ then if _ then _ else _ else _) = _
      rw [if_pos all]
      split
      · rfl
      · rfl

theorem riscvClass_of {known : List Layout} {levels : Nat} {record : PackedLayout}
    {leaves : List (Nat × Ty)} (collected : cLeafFields layouts levels record = .ok leaves)
    (nonempty : leaves ≠ []) (scalars : ∀ leaf ∈ leaves, leaf.2.scalarTypeP = true) :
    riscvAggregateClass layouts levels record = .ok (some
      (if flattened ((leaves.map (codedLeaf known)).map fieldOf) then .rvFields leaves record.size
      else .rvGeneral record.size)) := by
  have counts := count_scalars leaves scalars
  have some : 0 < leaves.length := List.length_pos_iff.mpr nonempty
  have isSome : leaves.isEmpty = false := List.isEmpty_eq_false_iff.mpr nonempty
  rw [riscvAggregateClass, collected]
  change Except.ok (if _ then if _ then _ else _ else _) = _
  rw [if_pos (by rw [isSome, counts]; simp)]
  have same : (leaves.countP (fun leaf => leaf.2.floatTypeP) = 1 ∧
        leaves.countP (fun leaf => leaf.2.integerTypeP || leaf.2.pointerTypeP) = 0 ∨
      leaves.countP (fun leaf => leaf.2.floatTypeP) = 2 ∧
        leaves.countP (fun leaf => leaf.2.integerTypeP || leaf.2.pointerTypeP) = 0 ∨
      leaves.countP (fun leaf => leaf.2.floatTypeP) = 1 ∧
        leaves.countP (fun leaf => leaf.2.integerTypeP || leaf.2.pointerTypeP) = 1) ↔
      flattened ((leaves.map (codedLeaf known)).map fieldOf) = true := by
    rw [flattened_leaves]
    omega
  by_cases flat : flattened ((leaves.map (codedLeaf known)).map fieldOf) = true
  · rw [if_pos flat, if_pos (same.mpr flat)]
  · rw [if_neg flat, if_neg (mt same.mp flat)]

/-- Stage 0 classifies an accepted record as the convention does. -/
theorem AcceptedRecord.stage0Class {name : String} {layout : Layout} {fields : List (Nat × Nat)}
    (record : AcceptedRecord tables name layout fields) (shared : Shared forms layouts tables)
    (target : AbiTarget) {levels : Nat} (deep : forms.length ≤ levels) :
    ∃ found, cAggregateClasses layouts target.abi levels (.struct name) = .ok (some found) ∧
      found.map (scalarTypeCode tables.layouts) = target.conventionClass layout.size fields := by
  obtain ⟨rank, layered⟩ := shared.layered
  obtain ⟨known, isKnown, alike, types⟩ := shared.recordFields record.accepted record.found
  have below : rank name < levels := Nat.lt_of_lt_of_le (layered.below name known isKnown) deep
  have nested : ∀ field ∈ known.fields, ∀ inner, field.type = .struct inner → rank inner < levels :=
    fun field member inner isRecord =>
      (layered.nested name known isKnown field member inner isRecord).2.trans below
  obtain ⟨leaves, collected, coded, scalars⟩ := shared.leafFields layered 1025 levels name layout
    known record.accepted record.found isKnown below
  rw [record.scalars] at coded
  have nonempty : leaves ≠ [] := by
    rintro rfl
    obtain ⟨field, member, _⟩ := record.natural.first
    rw [← coded] at member
    cases member
  have sizes : ¬ (known.packed = true ∨ known.size < 1 ∨ 16 < known.size) := by
    rw [alike.natural, alike.size]
    have positive := record.positive
    have small := record.small
    simp only [Bool.false_eq_true, false_or]
    omega
  simp only [cAggregateClasses, isKnown, if_neg sizes]
  cases target with
  | systemV =>
      have marked : known.fields.foldlM (fun classes field =>
          markCAggregateField layouts levels field.type field.offset classes)
          (List.replicate ((known.size + 7) / 8) none) =
          some (fields.foldl markLeaf (List.replicate (wordsOf layout.size) none)) := by
        have scalarFields := alike.scalarFields record.found 1025 0
        rw [record.scalars] at scalarFields
        rw [alike.size, ← wordsOf, scalarFields, List.foldl_flatMap]
        apply foldlM_some
        intro state field member
        rw [Nat.zero_add]
        apply shared.marked layered 1024 levels _ _ _ (types field member) (nested field member)
        intro leaf isLeaf
        apply (record.natural.aligned leaf _).1
        rw [scalarFields]
        refine List.mem_flatMap.mpr ⟨field, member, ?_⟩
        rw [Nat.zero_add]
        exact isLeaf
      simp only [AbiTarget.abi, marked]
      refine ⟨_, rfl, ?_⟩
      rw [AbiTarget.conventionClass, ← record.markedWords]
      rfl
  | aapcs64 =>
      refine ⟨_, @aapcsClass_of layouts tables.layouts _ _ _ collected nonempty scalars, ?_⟩
      rw [AbiTarget.conventionClass, ← coded]
      split
      · cases leaves with
        | nil => exact absurd rfl nonempty
        | cons first rest =>
            simp only [AggregateClass.map, List.map_map]
            rfl
      · rw [← alike.size]
        rfl
  | lp64d =>
      refine ⟨_, @riscvClass_of layouts tables.layouts _ _ _ collected nonempty scalars, ?_⟩
      rw [AbiTarget.conventionClass, ← coded, ← alike.size]
      split
      · rfl
      · rfl
  | microsoft =>
      have all : (known.fields.all fun field =>
          windowsCAggregateFieldP layouts levels field.type) = true := by
        rw [List.all_eq_true]
        exact fun field member =>
          shared.windowsFields layered 1024 levels _ (types field member) (nested field member)
      simp only [AbiTarget.abi, all, ↓reduceIte, alike.size]
      refine ⟨_, rfl, ?_⟩
      rw [AbiTarget.conventionClass]
      split
      · rfl
      · rfl

/-! ## The native compiler -/

/-- The backends see the scalar fields with their offsets and codes. -/
theorem RecordParameter.leafPairs {type : Ty} {size : Nat} {fields : List (Nat × Nat)}
    (record : RecordParameter tables type size fields) :
    ((aggregateLeaves tables type).map fun leaf =>
      (nativeAggregateLeafOffset leaf, nativeAggregateLeafCode leaf)) = fields := by
  rw [record.leaves, List.map_map]
  conv_rhs => rw [← List.map_id fields]
  apply List.map_congr_left
  intro field member
  have code := record.codes field member
  rw [Function.comp_apply, leafOffset_packLeaf code, leafCode_packLeaf code]
  rfl

/-- The code of homogeneous fields is that of the first one. -/
theorem RecordParameter.hfaCode {type : Ty} {size : Nat} {fields : List (Nat × Nat)}
    (record : RecordParameter tables type size fields)
    (isHomogeneous : 0 < nativeAggregateHfaCode tables type) :
    nativeAggregateHfaCode tables type = (fields.head?.map Prod.snd).getD 0 := by
  have codes := record.codes
  rw [nativeAggregateHfaCode, record.leaf] at isHomogeneous ⊢
  have first : nativeAggregateLeafCode (packedAt fields 0) = (fields.head?.map Prod.snd).getD 0 := by
    cases fields with
    | nil => rfl
    | cons field rest => exact leafCode_packLeaf (codes field List.mem_cons_self)
  rw [← first]
  split at isHomogeneous
  · exact absurd isHomogeneous (Nat.lt_irrefl _)
  · split at isHomogeneous
    · split at isHomogeneous
      case isTrue few isFloat same => rw [if_neg few, if_pos isFloat, if_pos same]
      case isFalse => exact absurd isHomogeneous (Nat.lt_irrefl _)
    · exact absurd isHomogeneous (Nat.lt_irrefl _)

/-- The native compiler classifies a record as the convention does, unless records are nested too
deep in it. -/
theorem AcceptedRecord.nativeClass {name : String} {layout : Layout} {fields : List (Nat × Nat)}
    (record : AcceptedRecord tables name layout fields) (target : AbiTarget)
    (nests : target ≠ .microsoft → nestsWithin tables 128 (.struct name) = true) :
    target.aggregateClass tables (.struct name) = target.conventionClass layout.size fields := by
  cases target with
  | systemV =>
      have parameter := record.parameter (nests (by decide))
      rw [AbiTarget.aggregateClass, AbiTarget.conventionClass, parameter.words.1,
        parameter.wordClasses, List.map_map]
      apply congrArg AggregateClass.words
      apply List.map_congr_left
      intro part member
      rw [Function.comp_apply, x86WordKind]
      cases (parameter.wordClass (List.mem_range.mp member)).2 with
      | inl general =>
          rw [general]
          rfl
      | inr floating =>
          rw [floating]
          rfl
  | aapcs64 =>
      have parameter := record.parameter (nests (by decide))
      have offsets := congrArg (List.map Prod.fst) parameter.leafPairs
      rw [List.map_map] at offsets
      rw [AbiTarget.aggregateClass, AbiTarget.conventionClass, record.sized]
      split
      case isTrue isHomogeneous =>
        rw [if_pos (parameter.homogeneous.mp isHomogeneous), parameter.hfaCode isHomogeneous,
          ← offsets]
        rfl
      case isFalse isNot => rw [if_neg (mt parameter.homogeneous.mpr isNot)]
  | lp64d =>
      have parameter := record.parameter (nests (by decide))
      rw [AbiTarget.aggregateClass, AbiTarget.conventionClass, record.sized, parameter.special,
        parameter.leafPairs]
  | microsoft =>
      rw [AbiTarget.aggregateClass, AbiTarget.conventionClass, record.sized, win64AggregateIndirectP,
        record.code, record.sized]
      have same : nativeAggregateWordSizeP layout.size = true ↔ layout.size ∈ [1, 2, 4, 8] := by
        simp [nativeAggregateWordSizeP, or_assoc]
      by_cases word : layout.size ∈ [1, 2, 4, 8]
      · rw [if_pos word, same.mpr word]
        rfl
      · rw [if_neg word, Bool.eq_false_iff.mpr (mt same.mp word)]
        rfl

end Native
