import PslCompiler.Native.ArgumentConventions

/-! # Passing arguments

For each target: where a caller puts the arguments of a call, where the function reads its
parameters, and the stack slots that the caller reserves. A call that is accepted follows the target's
convention, and no two pieces of arguments meet.
-/

namespace Native

open Records Stage0 Calling

/-! ## Runs -/

section Runs

variable {tables : LayoutContext} {hosted : Bool} {rules : LocationRules}
  {sends receives : Ty → Nat → List Place} {convention : Convention Argument}
  {allowed : Used → Prop}

/-- A run through all parameters, as long as the stack slots stay within a location. -/
theorem Follows.run (follows : Follows rules sends receives convention allowed tables hosted)
    (lawful : convention.Lawful allowed) : ∀ (parameters : List Ty) (used : Used), allowed used →
    (∀ type ∈ parameters, Passable tables hosted type) →
    (∀ count, (rules.finish used (parameters.take count)).stack + 2 < 2 ^ 32) →
      ((List.range parameters.length).map fun index =>
          sends (parameters.getD index .void) (rules.paramLocation parameters index used)) =
          convention.places used (parameters.map (argumentOf tables)) ∧
        ((List.range parameters.length).map fun index =>
          receives (parameters.getD index .void) (rules.paramLocation parameters index used)) =
          convention.places used (parameters.map (argumentOf tables)) ∧
        rules.finish used parameters =
          convention.finish used (parameters.map (argumentOf tables)) := by
  intro parameters
  induction parameters with
  | nil => exact fun _ _ _ _ => ⟨rfl, rfl, rfl⟩
  | cons type rest ih =>
      intro used isAllowed passable small
      have first := passable type List.mem_cons_self
      have room := small 0
      have after := follows.after type used first isAllowed room
      obtain ⟨sent, received, finished⟩ := ih (convention.after used (argumentOf tables type))
        (lawful.stays _ _ isAllowed) (fun other member => passable other (List.mem_cons_of_mem _ member))
        (by
          intro count
          rw [← after]
          exact small (count + 1))
      simp only [List.length_cons, List.range_succ_eq_map, List.map_cons, List.map_map,
        Convention.places]
      refine ⟨?_, ?_, ?_⟩
      · rw [← sent, ← after]
        exact congrArg (· :: _) (follows.sent type used first isAllowed room)
      · rw [← received, ← after]
        exact congrArg (· :: _) (follows.received type used first isAllowed room)
      · change rules.finish (rules.advance type used) rest = _
        rw [after]
        exact finished

/-- Where a parameter takes at most two slots, all take at most twice as many. -/
theorem LocationRules.finish_stack
    (two : ∀ type location stack, rules.nextStack type location stack ≤ stack + 2) :
    ∀ (parameters : List Ty) (used : Used),
      (rules.finish used parameters).stack ≤ used.stack + 2 * parameters.length := by
  intro parameters
  induction parameters with
  | nil => exact fun used => Nat.le_refl _
  | cons type rest ih =>
      intro used
      have others := ih (rules.advance type used)
      have one : (rules.advance type used).stack ≤ used.stack + 2 := two _ _ _
      change (rules.finish (rules.advance type used) rest).stack ≤ _
      rw [List.length_cons]
      omega

theorem LocationRules.prefixes_small
    (two : ∀ type location stack, rules.nextStack type location stack ≤ stack + 2)
    {parameters : List Ty} (few : parameters.length ≤ 134217719) (count : Nat) :
    (rules.finish {} (parameters.take count)).stack + 2 < 2 ^ 32 := by
  have bound := rules.finish_stack two (parameters.take count) {}
  have length : (parameters.take count).length ≤ parameters.length := List.length_take_le' _ _
  dsimp only at bound
  omega

theorem words_le_two (type : Ty) : nativeAggregateWords tables.layouts type ≤ 2 := by
  rw [nativeAggregateWords]
  split
  · split
    · exact Nat.le_refl _
    · decide
  · decide

theorem a64_two (type : Ty) (location stack : Nat) :
    (a64Rules tables).nextStack type location stack ≤ stack + 2 := by
  have words : nativeAggregateWords tables.layouts type ≤ 2 := words_le_two type
  change a64AggregateNextStack _ _ _ ≤ _
  rw [a64AggregateNextStack]
  split
  · omega
  · omega

theorem rv_two (type : Ty) (location stack : Nat) :
    (rvRules tables).nextStack type location stack ≤ stack + 2 := by
  have words : nativeAggregateWords tables.layouts type ≤ 2 := words_le_two type
  change rvAggregateNextStack _ _ _ ≤ _
  rw [rvAggregateNextStack]
  split
  · omega
  · split
    · omega
    · omega

end Runs

/-! ## The stack slots of a System V call -/

section Slots

variable {tables : LayoutContext} {parameters : List Ty}

theorem LocationRules.finish_take_succ (rules : LocationRules) {index : Nat}
    (inside : index < parameters.length) (used : Used) :
    rules.finish used (parameters.take (index + 1)) =
      rules.advance (parameters.getD index .void) (rules.finish used (parameters.take index)) := by
  rw [LocationRules.finish, List.take_add_one, List.foldl_append, List.getD_eq_getElem?_getD,
    List.getElem?_eq_getElem inside]
  rfl

theorem LocationRules.paramLocation_eq (rules : LocationRules) : ∀ (parameters : List Ty)
    (index : Nat) (used : Used), index < parameters.length →
      rules.paramLocation parameters index used =
        rules.location (parameters.getD index .void)
          (rules.finish used (parameters.take index)) := by
  intro parameters
  induction parameters with
  | nil => exact fun _ _ inside => absurd inside (Nat.not_lt_zero _)
  | cons type rest ih =>
      intro index used inside
      cases index with
      | zero => rfl
      | succ index => exact ih index _ (Nat.lt_of_succ_lt_succ inside)

/-- A location on the stack is the next slot. -/
theorem x86_stackIndex {type : Ty} {used : Used} (within : used.WithinFiles 6 8)
    (small : used.stack < 2 ^ 32)
    (onStack : nativeAbiLocationClass ((x86Rules tables).location type used) = 3) :
    nativeAbiLocationIndex ((x86Rules tables).location type used) = used.stack := by
  obtain ⟨general, floating⟩ := within
  have next := locationIndex_eq 3 small
  change nativeAbiLocationClass (x86AggregateLocation tables type used) = 3 at onStack
  change nativeAbiLocationIndex (x86AggregateLocation tables type used) = _
  rw [x86AggregateLocation, x86LirArgumentLocation] at onStack ⊢
  dsimp only at onStack ⊢
  split at onStack
  case isTrue record =>
    rw [if_pos record]
    split at onStack
    case isTrue full => rw [if_pos full, next]
    case isFalse =>
      rw [locationClass_eq 4 (by omega)] at onStack
      cases onStack
  case isFalse scalar =>
    rw [if_neg scalar]
    split at onStack
    case isTrue isFloat =>
      rw [if_pos isFloat]
      split at onStack
      case isTrue =>
        rw [locationClass_eq 2 (by omega)] at onStack
        cases onStack
      case isFalse full => rw [if_neg full, next]
    case isFalse isNot =>
      rw [if_neg isNot]
      split at onStack
      case isTrue =>
        rw [locationClass_eq 1 (by omega)] at onStack
        cases onStack
      case isFalse full => rw [if_neg full, next]

/-- The slots reach the end of each argument on the stack. -/
theorem callStackSlots_le : ∀ (count largest : Nat),
    largest ≤ x86LirCallStackSlots tables parameters count largest ∧
      ∀ index < count, nativeAbiLocationClass (x86LirParamLocation tables parameters index) = 3 →
        nativeAbiLocationIndex (x86LirParamLocation tables parameters index) +
            nativeAggregateWords tables.layouts (parameters.getD index .void) ≤
          x86LirCallStackSlots tables parameters count largest := by
  intro count
  induction count with
  | zero => exact fun largest => ⟨Nat.le_refl _, fun _ inside => absurd inside (Nat.not_lt_zero _)⟩
  | succ count ih =>
      intro largest
      rw [x86LirCallStackSlots]
      dsimp only
      generalize chosen : (if nativeAbiLocationClass (x86LirParamLocation tables parameters count) = 3
        then
          if largest < nativeAbiLocationIndex (x86LirParamLocation tables parameters count) +
              nativeAggregateWords tables.layouts (parameters.getD count .void) then
            nativeAbiLocationIndex (x86LirParamLocation tables parameters count) +
              nativeAggregateWords tables.layouts (parameters.getD count .void)
          else largest
        else largest) = next
      obtain ⟨least, earlier⟩ := ih next
      constructor
      · refine Nat.le_trans ?_ least
        rw [← chosen]
        split
        · split
          · omega
          · omega
        · exact Nat.le_refl _
      · intro index inside onStack
        by_cases last : index = count
        · subst last
          refine Nat.le_trans ?_ least
          rw [← chosen, if_pos onStack]
          split
          · omega
          · omega
        · exact earlier index (by omega) onStack

/-- The stack counter moves to the end of a parameter that is on the stack. -/
theorem x86_nextStack {type : Ty} {used : Used} (within : used.WithinFiles 6 8)
    (small : used.stack < 2 ^ 32) :
    ((x86Rules tables).advance type used).stack =
      if nativeAbiLocationClass ((x86Rules tables).location type used) = 3 then
        nativeAbiLocationIndex ((x86Rules tables).location type used) +
          nativeAggregateWords tables.layouts type
      else used.stack := by
  change (if nativeAbiLocationClass _ = 3 then _ else _) = _
  apply ite_congr rfl _ fun _ => rfl
  intro onStack
  rw [x86_stackIndex within small onStack]

variable {hosted : Bool}

/-- If the slots of a call are not too many, neither are those of any of its first parameters. -/
theorem x86_prefixes (passable : ∀ type ∈ parameters, Passable tables hosted type)
    (few : x86LirCallStackSlots tables parameters parameters.length 0 ≤ 268435454) (count : Nat) :
    ((x86Rules tables).finish {} (parameters.take count)).WithinFiles 6 8 ∧
      ((x86Rules tables).finish {} (parameters.take count)).stack ≤ 268435454 := by
  induction count with
  | zero => exact ⟨⟨Nat.zero_le _, Nat.zero_le _⟩, Nat.zero_le _⟩
  | succ count ih =>
      obtain ⟨within, bound⟩ := ih
      by_cases inside : count < parameters.length
      · have member : parameters.getD count .void ∈ parameters := by
          rw [List.getD_eq_getElem?_getD, List.getElem?_eq_getElem inside]
          exact List.getElem_mem inside
        have after := x86_follows.after _ _ (passable _ member) within (by omega)
        have allowed := systemV_lawful.stays _ (argumentOf tables (parameters.getD count .void)) within
        rw [← after] at allowed
        rw [LocationRules.finish_take_succ _ inside]
        refine ⟨allowed, ?_⟩
        rw [x86_nextStack within (by omega), ← LocationRules.paramLocation_eq _ _ _ _ inside]
        split
        case isTrue onStack =>
          exact Nat.le_trans ((callStackSlots_le parameters.length 0).2 count inside onStack) few
        case isFalse => exact bound
      · rw [List.take_of_length_le (by omega)]
        rw [List.take_of_length_le (by omega)] at within bound
        exact ⟨within, bound⟩

/-- The slots that a caller reserves are those that the counters give. -/
theorem callStackSlots_eq (passable : ∀ type ∈ parameters, Passable tables hosted type)
    (few : x86LirCallStackSlots tables parameters parameters.length 0 ≤ 268435454) :
    ∀ count largest, count ≤ parameters.length →
      x86LirCallStackSlots tables parameters count largest =
        max largest ((x86Rules tables).finish {} (parameters.take count)).stack := by
  intro count
  induction count with
  | zero => exact fun largest _ => (Nat.max_zero _).symm
  | succ count ih =>
      intro largest inside
      obtain ⟨within, bound⟩ := x86_prefixes passable few count
      have index := @x86_stackIndex tables (parameters.getD count .void) _ within (by omega)
      rw [x86LirCallStackSlots, ih _ (Nat.le_of_lt inside),
        LocationRules.finish_take_succ _ inside, x86_nextStack within (by omega)]
      rw [← LocationRules.paramLocation_eq _ _ _ _ inside, ← x86LirParamLocation] at index ⊢
      by_cases onStack : nativeAbiLocationClass (x86LirParamLocation tables parameters count) = 3
      · have same := index onStack
        simp only [if_pos onStack]
        split
        · omega
        · omega
      · simp only [if_neg onStack]

end Slots

/-! ## Positions -/

section Positions

variable {tables : LayoutContext}

/-- The state of the Microsoft convention at a position. -/
def positionState (position : Nat) : Used :=
  ⟨min position 4, min position 4, position - 4⟩

def microsoftPlace (position : Nat) (argument : Argument) : Place :=
  if position < 4 then
    if argument = .scalar true then .floating position else .general position
  else .stack (position - 4)

theorem microsoft_after (position : Nat) (argument : Argument) :
    microsoft.after (positionState position) argument = positionState (position + 1) := by
  simp only [microsoft, microsoftAfter, positionState]
  split
  case isTrue room =>
    simp only [Used.mk.injEq]
    omega
  case isFalse full =>
    simp only [Used.mk.injEq]
    omega

theorem microsoft_deal (position : Nat) (argument : Argument) :
    (positionState position).deal (microsoft.kinds (positionState position) argument) =
      [microsoftPlace position argument] := by
  simp only [microsoft, microsoftKinds, microsoftPlace, positionState]
  by_cases room : position < 4
  · have least : min position 4 = position := Nat.min_eq_left (Nat.le_of_lt room)
    rw [if_pos room, least, if_pos room]
    by_cases isFloat : argument = .scalar true
    · rw [if_pos isFloat, if_pos isFloat]
      rfl
    · rw [if_neg isFloat, if_neg isFloat]
      rfl
  · have least : min position 4 = 4 := Nat.min_eq_right (Nat.not_lt.mp room)
    rw [if_neg room, least, if_neg (by decide)]
    rfl

theorem microsoft_places : ∀ (arguments : List Argument) (position : Nat),
    microsoft.places (positionState position) arguments =
        (List.range arguments.length).map (fun index =>
          [microsoftPlace (position + index) (arguments.getD index (.scalar false))]) ∧
      microsoft.finish (positionState position) arguments =
        positionState (position + arguments.length) := by
  intro arguments
  induction arguments with
  | nil => exact fun position => ⟨rfl, rfl⟩
  | cons argument rest ih =>
      intro position
      obtain ⟨places, finish⟩ := ih (position + 1)
      simp only [Convention.places, microsoft_after, microsoft_deal, places, List.length_cons,
        List.range_succ_eq_map, List.map_cons, List.map_map, Convention.finish, List.foldl_cons]
      constructor
      · apply congrArg (_ :: ·)
        apply List.map_congr_left
        intro index _
        rw [Function.comp_apply, Nat.add_assoc, Nat.add_comm 1 index]
        rfl
      · rw [← Convention.finish, finish, Nat.add_assoc, Nat.add_comm 1]

theorem argument_floating (type : Ty) : argumentOf tables type = .scalar true ↔
    nativeAbiFloatP (scalarTypeCode tables.layouts type) = true := by
  rw [argumentOf]
  split
  case isTrue record =>
    rw [record]
    exact ⟨by intros; contradiction, by intros; contradiction⟩
  case isFalse => rw [Argument.scalar.injEq]

/-- A location of another class than 2 is the general register or the slot of its position. -/
theorem win64_general {kind position : Nat} (small : position < 2 ^ 32) (general : kind ≠ 2) :
    win64AggregateSend (nativeAbiLocation kind position) =
        [if position < 4 then .general position else .stack (position - 4)] ∧
      win64LirLoadAbiParameter (nativeAbiLocation kind position) =
        [if position < 4 then .general position else .stack (position - 4)] := by
  have read : [win64LoadParameter (position + 1)] =
      [if position < 4 then Place.general position else .stack (position - 4)] := by
    rw [win64LoadParameter]
    by_cases room : position < 4
    · rw [if_neg (by omega), if_pos room, Nat.add_sub_cancel]
    · rw [if_pos (by omega), if_neg room, Nat.add_sub_add_right position 1 4]
  rw [win64AggregateSend, win64LirLoadAbiParameter, locationClass_eq kind small,
    locationIndex_eq kind small, if_neg general, if_neg general, read]
  refine ⟨?_, by split <;> rfl⟩
  split
  · rfl
  · rw [Nat.add_sub_add_right position 1 4]

/-- A parameter is at its position, for the caller and for the function. -/
theorem win64_position {types : FunctionTypes} {index : Nat}
    (small : index + win64AggregateHidden tables types < 2 ^ 32) :
    win64AggregateSend (win64AggregateLocation tables types index) =
        [microsoftPlace (index + win64AggregateHidden tables types)
          (argumentOf tables (types.parameters.getD index .void))] ∧
      win64LirLoadAbiParameter (win64AggregateLocation tables types index) =
        [microsoftPlace (index + win64AggregateHidden tables types)
          (argumentOf tables (types.parameters.getD index .void))] := by
  rw [win64AggregateLocation, microsoftPlace]
  generalize index + win64AggregateHidden tables types = position at small ⊢
  generalize types.parameters.getD index .void = type
  have floating := @argument_floating tables type
  split
  case isTrue indirect =>
    have record := of_decide_eq_true (Bool.and_eq_true_iff.mp indirect).1
    have isNot : argumentOf tables type ≠ .scalar true := by
      rw [Ne, floating, record]
      decide
    rw [if_neg isNot]
    apply win64_general small
    split
    · decide
    · decide
  case isFalse =>
    rw [win64LirArgumentLocation]
    by_cases room : position < 4
    · rw [if_pos room]
      split
      case isTrue isFloat =>
        rw [if_pos (floating.mpr isFloat), win64AggregateSend, win64LirLoadAbiParameter,
          locationClass_eq 2 small, locationIndex_eq 2 small]
        exact ⟨rfl, rfl⟩
      case isFalse isNot =>
        have places := win64_general small (show 1 ≠ 2 by decide)
        rw [if_pos room] at places
        rw [if_neg (mt floating.mp isNot)]
        exact places
    · have places := win64_general small (show 3 ≠ 2 by decide)
      rw [if_neg room] at places
      rw [if_neg room, if_neg room]
      exact places

end Positions

/-! ## Targets -/

inductive AbiTarget
  | systemV
  | aapcs64
  | lp64d
  | microsoft
  deriving DecidableEq, Repr

namespace AbiTarget

variable (tables : LayoutContext) (types : FunctionTypes)

/-- The places of the parameters, from the locations of a backend. -/
def byParameter (places : Ty → Nat → List Place) (location : List Ty → Nat → Nat) :
    List (List Place) :=
  (List.range types.parameters.length).map fun index =>
    places (types.parameters.getD index .void) (location types.parameters index)

/-- Where a caller puts the pieces of each argument. -/
def sent : AbiTarget → List (List Place)
  | systemV => byParameter types (x86AggregateSendPart tables) (x86LirParamLocation tables)
  | aapcs64 => byParameter types (a64AggregateSend tables) (a64LirParamLocation tables)
  | lp64d => byParameter types (rvAggregateSend tables) (rvLirParamLocation tables)
  | microsoft =>
      win64AggregateHiddenArgument tables types ++ (List.range types.parameters.length).map
        fun index => win64AggregateSend (win64AggregateLocation tables types index)

/-- Where a function reads the pieces of each parameter. -/
def received : AbiTarget → List (List Place)
  | systemV => byParameter types (x86LirLoadArgument tables) (x86LirParamLocation tables)
  | aapcs64 => byParameter types (a64LirLoadArgument tables) (a64LirParamLocation tables)
  | lp64d => byParameter types (rvLirLoadArgument tables) (rvLirParamLocation tables)
  | microsoft =>
      win64HiddenParameter tables types ++ (List.range types.parameters.length).map
        fun index => win64LirLoadAbiParameter (win64AggregateLocation tables types index)

/-- The stack slots that a caller reserves. -/
def reserved : AbiTarget → Nat
  | systemV => x86LirCallStackSlots tables types.parameters types.parameters.length 0
  | aapcs64 => a64LirCallStackCount tables types.parameters
  | lp64d => rvLirStackCount tables types.parameters
  | microsoft => win64StackSlots tables types

/-- Whether a caller can reserve what a call needs. -/
def callAccepted : AbiTarget → Bool
  | systemV => !(268435454 < reserved tables types systemV)
  | aapcs64 => !(134217719 < types.parameters.length)
  | lp64d => !(134217719 < types.parameters.length)
  | microsoft => win64AggregateOutgoing tables types ≠ 0

def convention : AbiTarget → Convention Argument
  | systemV => Calling.systemV
  | aapcs64 => Calling.aapcs64
  | lp64d => Calling.lp64d
  | microsoft => Calling.microsoft

/-- The arguments of a call in the target's convention: on Windows the address of a record that is
not returned in a register comes first. -/
def arguments : AbiTarget → List Argument
  | microsoft =>
      (if scalarTypeCode tables.layouts types.result = 16 ∧
          sourceTypeSize tables.layouts types.result ∉ [1, 2, 4, 8] then [.scalar false] else []) ++
        types.parameters.map (argumentOf tables)
  | _ => types.parameters.map (argumentOf tables)

def generalRegisters : AbiTarget → Nat
  | systemV => 6
  | aapcs64 => 8
  | lp64d => 8
  | microsoft => 4

def floatingRegisters : AbiTarget → Nat
  | microsoft => 4
  | _ => 8

/-- A record parameter does not nest records more than 128 deep; on Windows its fields do not
matter. -/
def Shallow : AbiTarget → Prop
  | microsoft => True
  | _ => ∀ type ∈ types.parameters, nestsWithin tables 128 type = true

/-- What a call on a target has to do with its arguments. -/
structure Placed (target : AbiTarget) : Prop where
  sent : target.sent tables types = target.convention.places {} (target.arguments tables types)
  received : target.received tables types = target.sent tables types
  general : ∀ index, .general index ∈ (target.sent tables types).flatten →
    index < target.generalRegisters
  floating : ∀ index, .floating index ∈ (target.sent tables types).flatten →
    index < target.floatingRegisters
  distinct : (target.sent tables types).flatten.Nodup
  slots : ∀ slot, .stack slot ∈ (target.sent tables types).flatten ↔
    slot < target.reserved tables types

variable {tables types} {hosted : Bool}

/-- It is enough that the places are the convention's and the slots are as many as it takes. -/
theorem placed_of_follows (target : AbiTarget) {allowed : Used → Prop}
    (lawful : target.convention.Lawful allowed) (start : allowed {})
    (files : ∀ used, allowed used →
      used.WithinFiles target.generalRegisters target.floatingRegisters)
    (sent : target.sent tables types = target.convention.places {} (target.arguments tables types))
    (received : target.received tables types =
      target.convention.places {} (target.arguments tables types))
    (reserved : target.reserved tables types =
      (target.convention.finish {} (target.arguments tables types)).stack) :
    Placed tables types target := by
  obtain ⟨between, finished⟩ := lawful.between (target.arguments tables types) {} start
  obtain ⟨general, floating⟩ := files _ finished
  rw [← sent] at between
  refine ⟨sent, received.trans sent.symm, ?_, ?_, between.distinct, ?_⟩
  · exact fun index member => Nat.lt_of_lt_of_le (between.generals index member).2 general
  · exact fun index member => Nat.lt_of_lt_of_le (between.floatings index member).2 floating
  · intro slot
    rw [between.slots, reserved]
    exact ⟨fun range => range.2, fun below => ⟨Nat.zero_le _, below⟩⟩

theorem accepted_parameters (accepted : sourceScalarSignatureP tables hosted types = true) :
    ∀ type ∈ types.parameters, scalarParameterP tables hosted type = true := by
  have parameters : types.parameters.all (scalarParameterP tables hosted) = true := by
    rw [sourceScalarSignatureP] at accepted
    split at accepted
    · cases accepted
    · split at accepted
      · exact (Bool.and_eq_true_iff.mp accepted).2
      · split at accepted
        · exact (Bool.and_eq_true_iff.mp accepted).2
        · exact accepted
  exact List.all_eq_true.mp parameters

theorem passable_of_accepted (accepted : sourceScalarSignatureP tables hosted types = true)
    (shallow : ∀ type ∈ types.parameters, nestsWithin tables 128 type = true) :
    ∀ type ∈ types.parameters, Passable tables hosted type :=
  fun type member => ⟨accepted_parameters accepted type member, shallow type member⟩

theorem systemV_placed (passable : ∀ type ∈ types.parameters, Passable tables hosted type)
    (called : systemV.callAccepted tables types = true) : Placed tables types systemV := by
  have few : x86LirCallStackSlots tables types.parameters types.parameters.length 0 ≤ 268435454 := by
    rw [callAccepted, Bool.not_eq_true', decide_eq_false_iff_not, Nat.not_lt] at called
    exact called
  have prefixes := x86_prefixes passable few
  obtain ⟨sent, received, finished⟩ := x86_follows.run systemV_lawful types.parameters {}
    ⟨Nat.zero_le _, Nat.zero_le _⟩ passable (fun count => by have := (prefixes count).2; omega)
  apply placed_of_follows systemV systemV_lawful ⟨Nat.zero_le _, Nat.zero_le _⟩ (fun _ within => within)
    sent received
  change x86LirCallStackSlots tables types.parameters types.parameters.length 0 = _
  rw [callStackSlots_eq passable few _ _ (Nat.le_refl _), List.take_length, Nat.zero_max, finished]
  rfl

theorem aapcs64_placed (passable : ∀ type ∈ types.parameters, Passable tables hosted type)
    (called : aapcs64.callAccepted tables types = true) : Placed tables types aapcs64 := by
  have few : types.parameters.length ≤ 134217719 := by
    rw [callAccepted, Bool.not_eq_true', decide_eq_false_iff_not, Nat.not_lt] at called
    exact called
  obtain ⟨sent, received, finished⟩ := a64_follows.run aapcs64_lawful types.parameters {}
    ⟨Nat.zero_le _, Nat.zero_le _⟩ passable (LocationRules.prefixes_small a64_two few)
  apply placed_of_follows aapcs64 aapcs64_lawful ⟨Nat.zero_le _, Nat.zero_le _⟩ (fun _ within => within)
    sent received
  change (a64Rules tables).stackCount types.parameters {} = _
  rw [LocationRules.stackCount_eq, finished]
  rfl

theorem lp64d_placed (passable : ∀ type ∈ types.parameters, Passable tables hosted type)
    (called : lp64d.callAccepted tables types = true) : Placed tables types lp64d := by
  have few : types.parameters.length ≤ 134217719 := by
    rw [callAccepted, Bool.not_eq_true', decide_eq_false_iff_not, Nat.not_lt] at called
    exact called
  obtain ⟨sent, received, finished⟩ := rv_follows.run lp64d_lawful types.parameters {}
    ⟨Nat.zero_le _, Nat.zero_le _⟩ passable (LocationRules.prefixes_small rv_two few)
  apply placed_of_follows lp64d lp64d_lawful ⟨Nat.zero_le _, Nat.zero_le _⟩ (fun _ within => within)
    sent received
  change (rvRules tables).stackCount types.parameters {} = _
  rw [LocationRules.stackCount_eq, finished]
  rfl

/-- The address of the result takes the first position, and the parameters those after it. -/
theorem microsoft_leading :
    Calling.microsoft.places {} (microsoft.arguments tables types) =
        win64AggregateHiddenArgument tables types ++
          Calling.microsoft.places (positionState (win64AggregateHidden tables types))
            (types.parameters.map (argumentOf tables)) ∧
      Calling.microsoft.finish {} (microsoft.arguments tables types) =
        Calling.microsoft.finish (positionState (win64AggregateHidden tables types))
          (types.parameters.map (argumentOf tables)) ∧
      win64HiddenParameter tables types = win64AggregateHiddenArgument tables types := by
  have same : (scalarTypeCode tables.layouts types.result = 16 ∧
      sourceTypeSize tables.layouts types.result ∉ [1, 2, 4, 8]) ↔
      win64AggregateIndirectP tables types.result = true := by
    simp only [win64AggregateIndirectP, nativeAggregateWordSizeP, Bool.and_eq_true,
      decide_eq_true_eq, Bool.not_eq_true', Bool.or_eq_false_iff, decide_eq_false_iff_not,
      List.mem_cons, List.not_mem_nil, or_false, not_or, and_assoc]
  rw [arguments, win64AggregateHiddenArgument, win64HiddenParameter, win64AggregateHidden]
  by_cases indirect : win64AggregateIndirectP tables types.result = true
  · rw [if_pos (same.mpr indirect), if_pos indirect, if_pos indirect]
    exact ⟨rfl, rfl, rfl⟩
  · rw [if_neg (mt same.mp indirect), if_neg indirect, if_neg indirect]
    exact ⟨rfl, rfl, rfl⟩

theorem microsoft_placed (called : microsoft.callAccepted tables types = true) :
    Placed tables types microsoft := by
  have few : types.parameters.length + win64AggregateHidden tables types ≤ 268435445 := by
    by_contra many
    rw [callAccepted, win64AggregateOutgoing, if_pos (Nat.not_le.mp many)] at called
    cases called
  obtain ⟨places, finish, hidden⟩ := @microsoft_leading tables types
  obtain ⟨byPosition, finished⟩ := microsoft_places (types.parameters.map (argumentOf tables))
    (win64AggregateHidden tables types)
  rw [byPosition, List.length_map] at places
  rw [finished, List.length_map] at finish
  have argument : ∀ index ∈ List.range types.parameters.length,
      (types.parameters.map (argumentOf tables)).getD index (.scalar false) =
        argumentOf tables (types.parameters.getD index .void) := by
    intro index member
    have inside := List.mem_range.mp member
    rw [List.getD_eq_getElem?_getD, List.getD_eq_getElem?_getD, List.getElem?_map,
      List.getElem?_eq_getElem inside]
    rfl
  have small : ∀ index ∈ List.range types.parameters.length,
      index + win64AggregateHidden tables types < 2 ^ 32 := by
    intro index member
    have inside := List.mem_range.mp member
    omega
  apply placed_of_follows microsoft microsoft_lawful ⟨⟨Nat.zero_le _, Nat.zero_le _⟩, rfl⟩
    (fun _ together => together.1)
  · change _ = Calling.microsoft.places {} _
    rw [places, sent]
    rw [List.append_cancel_left_eq]
    apply List.map_congr_left
    intro index member
    rw [argument index member, Nat.add_comm, (win64_position (small index member)).1]
  · change _ = Calling.microsoft.places {} _
    rw [places, received, hidden]
    rw [List.append_cancel_left_eq]
    apply List.map_congr_left
    intro index member
    rw [argument index member, Nat.add_comm, (win64_position (small index member)).2]
  · change win64StackSlots tables types = (Calling.microsoft.finish {} _).stack
    rw [finish, win64StackSlots, positionState]
    dsimp only
    split
    · omega
    · omega

end AbiTarget

section Chain

def chainName (index : Nat) : String :=
  String.ofList (List.replicate (index + 1) 'r')

/-- A number around which so many records are. -/
def chainType : Nat → Ty
  | 0 => .f64
  | depth + 1 => .struct (chainName depth)

def chainLayout (index : Nat) : Layout :=
  ⟨chainName index, index, 1, 8, 8, false⟩

def chainField (index : Nat) : LayoutField :=
  ⟨"x", chainType index, 0, 8, 8⟩

/-- Records with one field each, which is the record before. -/
def chain (number : Nat) : LayoutContext where
  layouts := (List.range number).map chainLayout
  layoutCapacity := number
  fields := (List.range number).map chainField
  fieldCapacity := number

theorem chainName_inj {first second : Nat} (same : chainName first = chainName second) :
    first = second := by
  have lists := congrArg String.toList same
  rw [chainName, chainName, String.toList_ofList, String.toList_ofList] at lists
  simpa using congrArg List.length lists

variable {number index : Nat}

theorem chain_find (inside : index < number) :
    nativeFindLayout (chain number).layouts (chainName index) = some (chainLayout index) := by
  rw [nativeFindLayout, chain, List.find?_map, Option.map_eq_some_iff]
  refine ⟨index, ?_, rfl⟩
  rw [List.find?_range_eq_some]
  refine ⟨by simp [chainLayout], List.mem_range.mpr inside, ?_⟩
  intro other before
  simp only [Function.comp_apply, chainLayout, Bool.not_eq_true', beq_eq_false_iff_ne]
  intro same
  exact absurd (chainName_inj same) (Nat.ne_of_lt before)

theorem chain_fields (inside : index < number) :
    (chainLayout index).fieldsIn (chain number).fields = [chainField index] := by
  have bound : index < ((List.range number).map chainField).length := by
    rw [List.length_map, List.length_range]
    exact inside
  change (((List.range number).map chainField).drop index).take 1 = _
  rw [List.drop_eq_getElem_cons bound, List.take_succ_cons, List.take_zero, List.getElem_map,
    List.getElem_range]

theorem chain_code (bound : index < number) :
    scalarTypeCode (chain number).layouts (chainType (index + 1)) = 16 := by
  rw [chainType, scalarTypeCode, chain_find bound]
  rfl

theorem chain_resolve : ∀ depth ≤ number, ∃ kind,
    nativeResolveType (chain number).layouts (chainType depth) = some ⟨8, 8, kind⟩ := by
  intro depth bound
  cases depth with
  | zero => exact ⟨_, rfl⟩
  | succ index =>
      refine ⟨.aggregate, ?_⟩
      simp only [chainType, nativeResolveType, chain_find bound]
      rfl

/-- A record of the chain is accepted if the type of its field is. -/
theorem chain_layout {aggregate : Ty → Bool} (inside : index < number)
    (field : sourceAggregateFieldTypeP (chain number).layouts aggregate (chainType index) = true) :
    sourceAggregateLayoutP (chain number) aggregate (chainLayout index) = true := by
  obtain ⟨kind, resolved⟩ := chain_resolve index (Nat.le_of_lt inside)
  have length : (chain number).fields.length = number := by
    rw [chain, List.length_map, List.length_range]
  have shape : sourceAggregateFieldShapeP (chain number).layouts aggregate (chainField index) 0 =
      true := by
    simp [sourceAggregateFieldShapeP, chainField, resolved, field, roundUp]
  rw [sourceAggregateLayoutP, chain_fields inside, sourceAggregateFieldsP, shape, length]
  simp [chainLayout, chainField, sourceAggregateFieldsP, sourceAggregateSizeP, roundUp,
    Nat.succ_le_of_lt inside]

/-- As many levels as there are records are enough to accept the outermost. -/
theorem chain_accepted : ∀ index < number, ∀ levels, index < levels →
    sourceAggregateAtDepthP (chain number) levels (chainType (index + 1)) = true := by
  intro index
  induction index with
  | zero =>
      intro inside levels deep
      obtain ⟨rest, rfl⟩ := Nat.exists_eq_succ_of_ne_zero (Nat.ne_of_gt deep)
      rw [chainType, sourceAggregateAtDepthP, chain_find inside]
      exact chain_layout inside rfl
  | succ index ih =>
      intro inside levels deep
      obtain ⟨rest, rfl⟩ := Nat.exists_eq_succ_of_ne_zero (Nat.ne_of_gt (Nat.zero_lt_of_lt deep))
      rw [chainType, sourceAggregateAtDepthP, chain_find inside]
      apply chain_layout inside
      have inner := ih (Nat.lt_of_succ_lt inside) rest (by omega)
      have code := chain_code (Nat.lt_of_succ_lt inside)
      unfold sourceAggregateFieldTypeP
      simp only [code, inner]
      rfl

/-- The number is found where there is one level more than records, and not with fewer. -/
theorem chain_scalarFields : ∀ depth ≤ number, ∀ levels offset,
    scalarFields (chain number) levels offset (chainType depth) =
      if depth < levels then [(offset, 14)] else [] := by
  intro depth
  induction depth with
  | zero =>
      intro _ levels offset
      cases levels with
      | zero => rfl
      | succ levels => rfl
  | succ depth ih =>
      intro inside levels offset
      cases levels with
      | zero => rfl
      | succ levels =>
          rw [chainType, scalarFields_record _ _ (chain_find inside), chain_fields inside,
            List.flatMap_singleton, chainField, ih (Nat.le_of_lt inside)]
          simp only [Nat.add_lt_add_iff_right, Nat.add_zero]

theorem chain_outermost : scalarTypeCode (chain 129).layouts (chainType 129) = 16 :=
  chain_code (show 128 < 129 by decide)

/-- The class of a word in which no field is seen. -/
theorem chain_class (part : Nat) : x86AggregateClass (chain 129) (chainType 129) part = 1 := by
  have count : nativeAggregateLeafCount (chain 129) (chainType 129) = 0 := by
    rw [nativeAggregateLeafCount, leafCount_eq 129 0, chain_scalarFields 129 (Nat.le_refl _)]
    rfl
  rw [x86AggregateClass, aggregateLeaves, count]
  rfl

theorem chain_argument : argumentOf (chain 129) (chainType 129) = .record 8 [⟨0, 8, true⟩] := by
  obtain ⟨kind, resolved⟩ := @chain_resolve 129 129 (Nat.le_refl _)
  rw [argumentOf, if_pos chain_outermost, sourceTypeSize, resolved,
    chain_scalarFields 129 (Nat.le_refl _)]
  rfl

theorem chain_words : nativeAggregateWords (chain 129).layouts (chainType 129) = 1 := by
  obtain ⟨kind, resolved⟩ := @chain_resolve 129 129 (Nat.le_refl _)
  rw [nativeAggregateWords, if_pos chain_outermost, sourceTypeSize, resolved]
  rfl

theorem chain_location :
    x86LirParamLocation (chain 129) [chainType 129] 0 = nativeAbiLocation 4 0 := by
  have first : ∀ type : Ty, x86LirParamLocation (chain 129) [type] 0 =
      x86AggregateLocation (chain 129) type {} := fun _ => rfl
  rw [first, x86AggregateLocation, if_pos chain_outermost, chain_words]
  simp only [x86AggregateClassCount, chain_class]
  rfl

end Chain

end Native
