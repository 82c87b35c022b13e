import PslCompiler.Native.IntegerTokens

/-! # Compile-time equality of integers

`=` in a macro reads its operands one after the other into one record. An operand outside the 64-bit
range leaves the magnitude of the record as it was, and is compared with that magnitude. The
evaluator of operand expressions is a parameter: the answer is to be right for every evaluator and
whatever the record held before.
-/

namespace Native

/-! ## The operation -/

/-- What `=` reads and writes of a syntax node. -/
structure MacroNode where
  kind : Nat := 0
  start : Nat := 0
  length : Nat := 0
  next : Nat := 0
  integerMagnitude : Nat := 0
  integerNegative : Bool := false
  deriving DecidableEq, Repr, Inhabited

/-- `native_source_identity`. -/
structure SourceIdentity where
  symbol : Nat := 0
  origin : Nat := 0
  deriving DecidableEq, Repr, Inhabited

/-- The state of a macro call: what `=` uses of the call, its registry, the parser and the reader,
and the rest of the state, which only the evaluator uses. -/
structure MacroCall (Others : Type) where
  source : Nat → UInt8
  nodes : Nat → MacroNode
  count : Nat
  capacity : Nat
  parserError : Nat := 0
  identities : Nat → SourceIdentity
  readerCount : Nat
  readerCapacity : Nat
  integer : Option ParsedInteger
  origin : Nat := 0
  error : Nat := 0
  others : Others

/-- The symbols of the environment that stand for false and true. -/
structure TruthSymbols where
  nilSymbol : Nat
  trueSymbol : Nat
  apart : nilSymbol ≠ trueSymbol

variable {Others : Type}

/-- Evaluate an expression; the result 0 is a failure. -/
abbrev MacroEvaluator (Others : Type) := MacroCall Others → Nat → Nat × MacroCall Others

def nativeMacroCallFail (call : MacroCall Others) (error : Nat) : Nat × MacroCall Others :=
  (0, if call.error = 0 then { call with error := error } else call)

def nativeMacroNext (call : MacroCall Others) (reference : Nat) : Nat :=
  if reference = 0 then 0 else (call.nodes reference).next

def parserNewMacroNode (call : MacroCall Others) (kind start length : Nat) :
    Nat × MacroCall Others :=
  if call.count < call.capacity then
    let reference := call.count + 1
    (reference, { call with
      nodes := Function.update call.nodes reference { kind := kind, start := start, length := length }
      count := reference })
  else (0, { call with parserError := 4 })

def nativeMacroSymbolForm (call : MacroCall Others) (reference symbol : Nat) :
    Nat × MacroCall Others :=
  if call.count < call.readerCapacity then
    let node := call.nodes reference
    let (copy, call) := parserNewMacroNode call 8 node.start 0
    if copy = 0 then nativeMacroCallFail call 3
    else
      (copy, { call with
        readerCount := copy
        identities := Function.update call.identities copy
          { symbol := symbol, origin := call.origin } })
  else nativeMacroCallFail call 3

def nativeMacroBooleanForm (symbols : TruthSymbols) (call : MacroCall Others) (reference : Nat)
    (truth : Bool) : Nat × MacroCall Others :=
  nativeMacroSymbolForm call reference (if truth then symbols.trueSymbol else symbols.nilSymbol)

def nativeMacroNumberLiteral (call : MacroCall Others) (reference : Nat) :
    IntegerResult × MacroCall Others :=
  match call.integer with
  | none => (.notInteger, (nativeMacroCallFail call 4).2)
  | some integer =>
      let node := call.nodes reference
      if node.kind = 8 then
        let (result, integer) := parseIntegerToken call.source node.start node.length integer
        (result, { call with integer := some integer })
      else if node.kind = 11 then
        (.value, { call with
          integer := some { magnitude := node.integerMagnitude, negative := node.integerNegative
                            radix := 10 } })
      else (.notInteger, call)

def nativeMacroIntegerOperand (eval : MacroEvaluator Others) (call : MacroCall Others)
    (expression : Nat) : IntegerResult × MacroCall Others :=
  let (value, call) := eval call expression
  if value = 0 then (.notInteger, call) else nativeMacroNumberLiteral call value

def nativeMacroIntegerEqualP (integer : ParsedInteger) (leftNegative : Bool) (leftMagnitude : Nat) :
    Bool :=
  if leftMagnitude = integer.magnitude then
    if leftMagnitude = 0 then true
    else if leftNegative = integer.negative then true else false
  else false

/-- The recursion follows the chain of arguments; the fuel bounds its length. -/
def nativeMacroEvalEqualFrom (symbols : TruthSymbols) (eval : MacroEvaluator Others) :
    Nat → MacroCall Others → Nat → Nat → Bool → Bool → Nat → Bool → Option (Nat × MacroCall Others)
  | 0, _, _, _, _, _, _, _ => none
  | fuel + 1, call, head, argument, seen, negative, magnitude, equal =>
      if argument = 0 then
        if seen then some (nativeMacroBooleanForm symbols call head equal)
        else some (nativeMacroCallFail call 2)
      else
        let next := nativeMacroNext call argument
        let (result, call) := nativeMacroIntegerOperand eval call argument
        if result = .notInteger then some (nativeMacroCallFail call 10)
        else
          let integer := call.integer.getD default
          if seen then
            nativeMacroEvalEqualFrom symbols eval fuel call head next seen negative magnitude
              (if nativeMacroIntegerEqualP integer negative magnitude then equal else false)
          else
            nativeMacroEvalEqualFrom symbols eval fuel call head next true integer.negative
              integer.magnitude equal

def nativeMacroEvalEqual (symbols : TruthSymbols) (eval : MacroEvaluator Others) (fuel : Nat)
    (call : MacroCall Others) (head : Nat) : Option (Nat × MacroCall Others) :=
  nativeMacroEvalEqualFrom symbols eval fuel call head (nativeMacroNext call head) false false 0 true

/-! ## Operands -/

/-- The integer with a sign and a magnitude. -/
def signedInteger (negative : Bool) (magnitude : Nat) : Int :=
  if negative then -magnitude else magnitude

/-- The value of an operand: an integer token, or a generated integer form. -/
inductive IntegerOperand
  | token (spelled : IntegerToken)
  | generated (magnitude : Nat) (negative : Bool) (word : magnitude < wordLimit)

namespace IntegerOperand

def magnitude : IntegerOperand → Nat
  | .token spelled => spelled.magnitude
  | .generated magnitude _ _ => magnitude

def negative : IntegerOperand → Bool
  | .token spelled => spelled.sign = .minus
  | .generated _ negative _ => negative

def radix : IntegerOperand → Nat
  | .token spelled => spelled.mark.radix
  | .generated _ _ _ => 10

/-- The integer that an operand denotes. -/
def value (operand : IntegerOperand) : Int :=
  signedInteger operand.negative operand.magnitude

/-- The record after reading an operand. -/
def read (operand : IntegerOperand) (integer : ParsedInteger) : ParsedInteger where
  magnitude := if operand.magnitude < wordLimit then operand.magnitude else integer.magnitude
  negative := operand.negative
  radix := operand.radix

/-- The integer with another magnitude in the place of one outside the 64-bit range. -/
def taken (operand : IntegerOperand) (kept : Nat) : Int :=
  signedInteger operand.negative
    (if operand.magnitude < wordLimit then operand.magnitude else kept)

theorem taken_of_lt {operand : IntegerOperand} (fits : operand.magnitude < wordLimit) (kept : Nat) :
    operand.taken kept = operand.value := by
  rw [taken, if_pos fits, value]

end IntegerOperand

/-- A node is a form of an operand. -/
def Denotes (call : MacroCall Others) (reference : Nat) : IntegerOperand → Prop
  | .token spelled => (call.nodes reference).kind = 8 ∧
      (call.nodes reference).length = spelled.bytes.length ∧
      BytesAt call.source (call.nodes reference).start spelled.bytes
  | .generated magnitude negative _ => (call.nodes reference).kind = 11 ∧
      (call.nodes reference).integerMagnitude = magnitude ∧
      (call.nodes reference).integerNegative = negative

/-- The arguments from one on have values that denote operands. The last list holds the magnitudes in
the record when the operands are read. -/
inductive Operands (eval : MacroEvaluator Others) :
    MacroCall Others → Nat → List IntegerOperand → List Nat → Prop
  | nil (call : MacroCall Others) : Operands eval call 0 [] []
  | cons {call after : MacroCall Others} {argument value : Nat} {operand : IntegerOperand}
      {operands : List IntegerOperand} {kepts : List Nat} {integer : ParsedInteger}
      (present : argument ≠ 0) (evaluated : eval call argument = (value, after))
      (succeeded : value ≠ 0) (record : after.integer = some integer)
      (word : integer.magnitude < wordLimit) (denotes : Denotes after value operand)
      (rest : Operands eval { after with integer := some (operand.read integer) }
        (nativeMacroNext call argument) operands kepts) :
      Operands eval call argument (operand :: operands) (integer.magnitude :: kepts)

/-- All integers of a list are the same. -/
def AllSame (values : List Int) : Prop :=
  ∀ first ∈ values, ∀ second ∈ values, first = second

instance (values : List Int) : Decidable (AllSame values) :=
  inferInstanceAs (Decidable (∀ first ∈ values, ∀ second ∈ values, first = second))

/-- A result of `=` is a failure with an error, or true exactly when the operands are the same. -/
def EqualAnswer (symbols : TruthSymbols) (operands : List IntegerOperand)
    (result : Nat × MacroCall Others) : Prop :=
  result.1 = 0 ∧ result.2.error ≠ 0 ∨
    result.1 ≠ 0 ∧ ((result.2.identities result.1).symbol = symbols.trueSymbol ↔
      AllSame (operands.map IntegerOperand.value))

/-- The operands are told apart without the magnitudes outside the 64-bit range: there are none, or
there is nothing to compare, or the operands differ whatever the same 64-bit magnitude is put in
their place. -/
def ToldApart (operands : List IntegerOperand) : Prop :=
  (∀ operand ∈ operands, operand.magnitude < wordLimit) ∨ operands.length ≤ 1 ∨
    ∀ kept < wordLimit, ¬ AllSame (operands.map fun operand => operand.taken kept)

/-! ## What the operation answers -/

section Answer

variable {symbols : TruthSymbols} {eval : MacroEvaluator Others}

theorem signedInteger_natAbs (negative : Bool) (magnitude : Nat) :
    (signedInteger negative magnitude).natAbs = magnitude := by
  cases negative with
  | false => exact Int.natAbs_natCast magnitude
  | true => exact (Int.natAbs_neg _).trans (Int.natAbs_natCast magnitude)

/-- The comparison is that of the integers with the signs and magnitudes. -/
theorem nativeMacroIntegerEqualP_iff (integer : ParsedInteger) (negative : Bool) (magnitude : Nat) :
    nativeMacroIntegerEqualP integer negative magnitude = true ↔
      signedInteger integer.negative integer.magnitude = signedInteger negative magnitude := by
  unfold nativeMacroIntegerEqualP
  split
  · rename_i same
    rw [← same]
    split
    · rename_i zero
      rw [zero]
      cases integer.negative <;> cases negative <;> decide
    · rename_i nonzero
      cases integer.negative <;> cases negative <;> simp [signedInteger] <;> omega
  · rename_i different
    simp only [Bool.false_eq_true, false_iff]
    intro equal
    have same := congrArg Int.natAbs equal
    rw [signedInteger_natAbs, signedInteger_natAbs] at same
    exact different same.symm

/-- The record holds the integer taken for the operand. -/
theorem IntegerOperand.read_eq_taken (operand : IntegerOperand) (integer : ParsedInteger) :
    signedInteger (operand.read integer).negative (operand.read integer).magnitude =
      operand.taken integer.magnitude := by
  rfl

theorem nativeMacroNumberLiteral_eq {call : MacroCall Others} {reference : Nat}
    {operand : IntegerOperand} {integer : ParsedInteger} (record : call.integer = some integer)
    (denotes : Denotes call reference operand) :
    (nativeMacroNumberLiteral call reference).1 ≠ .notInteger ∧
      (nativeMacroNumberLiteral call reference).2 =
        { call with integer := some (operand.read integer) } := by
  unfold nativeMacroNumberLiteral
  rw [record]
  dsimp only
  cases operand with
  | token spelled =>
      obtain ⟨kind, length, stands⟩ := denotes
      rw [if_pos kind, length, parseIntegerToken_token spelled integer stands]
      unfold IntegerToken.parsed IntegerOperand.read
      simp only [IntegerOperand.magnitude, IntegerOperand.negative, IntegerOperand.radix]
      by_cases fits : spelled.magnitude < wordLimit
      · simp only [fits, ↓reduceIte]
        exact ⟨IntegerResult.noConfusion, trivial⟩
      · simp only [fits, ↓reduceIte]
        exact ⟨IntegerResult.noConfusion, trivial⟩
  | generated magnitude negative word =>
      obtain ⟨kind, isMagnitude, isNegative⟩ := denotes
      rw [if_neg (by rw [kind]; decide), if_pos kind, isMagnitude, isNegative]
      refine ⟨IntegerResult.noConfusion, ?_⟩
      simp only [IntegerOperand.read, IntegerOperand.magnitude, IntegerOperand.negative,
        IntegerOperand.radix, word, ↓reduceIte]

/-- A property of calls that reading operands keeps. -/
structure KeptByReading (eval : MacroEvaluator Others) (Property : MacroCall Others → Prop) :
    Prop where
  evaluation : ∀ {call : MacroCall Others} (argument : Nat), Property call →
    Property (eval call argument).2
  record : ∀ {call : MacroCall Others} (integer : Option ParsedInteger), Property call →
    Property { call with integer := integer }

/-- The integers that the operands are taken for. -/
def takenIntegers (operands : List IntegerOperand) (kepts : List Nat) : List Int :=
  List.zipWith IntegerOperand.taken operands kepts

/-- Once an operand has been read, the others are compared with it. -/
theorem nativeMacroEvalEqualFrom_seen {operands : List IntegerOperand} {kepts : List Nat}
    {call : MacroCall Others} {argument : Nat} (read : Operands eval call argument operands kepts)
    {Property : MacroCall Others → Prop} (keeps : KeptByReading eval Property)
    (begins : Property call) (head : Nat) (negative : Bool) (magnitude : Nat) (equal : Bool)
    {fuel : Nat} (enough : operands.length < fuel) :
    ∃ final, Property final ∧ nativeMacroEvalEqualFrom symbols eval fuel call head argument true negative magnitude
        equal =
      some (nativeMacroBooleanForm symbols final head (equal &&
        decide (∀ taken ∈ takenIntegers operands kepts,
          taken = signedInteger negative magnitude))) := by
  induction read generalizing equal fuel with
  | nil call =>
      obtain ⟨less, rfl⟩ := Nat.exists_eq_add_of_lt enough
      refine ⟨call, begins, ?_⟩
      rw [nativeMacroEvalEqualFrom, if_pos rfl]
      simp [takenIntegers]
  | @cons call after argument value operand operands kepts integer present evaluated succeeded record
      word denotes rest ih =>
      obtain ⟨less, rfl⟩ := Nat.exists_eq_add_of_lt enough
      obtain ⟨isInteger, recorded⟩ := nativeMacroNumberLiteral_eq record denotes
      have operandRead : nativeMacroIntegerOperand eval call argument =
          nativeMacroNumberLiteral after value := by
        rw [nativeMacroIntegerOperand, evaluated]
        exact if_neg succeeded
      rw [nativeMacroEvalEqualFrom, if_neg present, operandRead]
      dsimp only
      rw [if_neg isInteger, recorded, if_pos rfl, Option.getD_some]
      have further : operands.length < operands.length + less + 1 := by omega
      have evaluatedKeeps : Property after := by
        rw [show after = (eval call argument).2 by rw [evaluated]]
        exact keeps.evaluation argument begins
      obtain ⟨final, kept, answered⟩ := ih (keeps.record _ evaluatedKeeps) (if nativeMacroIntegerEqualP (operand.read integer) negative
        magnitude then equal else false) further
      refine ⟨final, kept, ?_⟩
      rw [List.length_cons, show operands.length + 1 + less = operands.length + less + 1 by omega,
        answered]
      have taken : takenIntegers (operand :: operands) (integer.magnitude :: kepts) =
          operand.taken integer.magnitude :: takenIntegers operands kepts := rfl
      have compared := nativeMacroIntegerEqualP_iff (operand.read integer) negative magnitude
      rw [operand.read_eq_taken integer] at compared
      rw [taken]
      simp only [List.forall_mem_cons, Bool.decide_and, ← compared]
      cases nativeMacroIntegerEqualP (operand.read integer) negative magnitude <;> simp

theorem allSame_cons (value : Int) (values : List Int) :
    AllSame (value :: values) ↔ ∀ other ∈ values, other = value := by
  constructor
  · intro same other member
    exact same other (List.mem_cons_of_mem value member) value List.mem_cons_self
  · intro equal
    have all : ∀ other ∈ value :: values, other = value :=
      List.forall_mem_cons.mpr ⟨rfl, equal⟩
    intro first isFirst second isSecond
    rw [all first isFirst, all second isSecond]

/-- The answer to operands that are read: whether the integers taken for them are the same. -/
theorem nativeMacroEvalEqual_taken {operand : IntegerOperand} {operands : List IntegerOperand}
    {kepts : List Nat} {call : MacroCall Others} {head : Nat}
    (read : Operands eval call (nativeMacroNext call head) (operand :: operands) kepts)
    {Property : MacroCall Others → Prop} (keeps : KeptByReading eval Property)
    (starts : Property call) {fuel : Nat} (enough : (operand :: operands).length < fuel) :
    ∃ final, Property final ∧ nativeMacroEvalEqual symbols eval fuel call head =
      some (nativeMacroBooleanForm symbols final head
        (decide (AllSame (takenIntegers (operand :: operands) kepts)))) := by
  generalize begins : nativeMacroNext call head = argument at read
  cases read with
  | @cons _ after _ value _ _ kepts integer present evaluated succeeded record word denotes
      rest =>
      obtain ⟨less, rfl⟩ := Nat.exists_eq_add_of_lt enough
      obtain ⟨isInteger, recorded⟩ := nativeMacroNumberLiteral_eq record denotes
      have operandRead : nativeMacroIntegerOperand eval call argument =
          nativeMacroNumberLiteral after value := by
        rw [nativeMacroIntegerOperand, evaluated]
        exact if_neg succeeded
      have evaluatedKeeps : Property after := by
        rw [show after = (eval call argument).2 by rw [evaluated]]
        exact keeps.evaluation argument starts
      obtain ⟨final, kept, answered⟩ := @nativeMacroEvalEqualFrom_seen _ symbols _ _ _ _ _ rest
        Property keeps (keeps.record _ evaluatedKeeps) head (operand.read integer).negative
        (operand.read integer).magnitude true (operands.length + less + 1) (by omega)
      refine ⟨final, kept, ?_⟩
      rw [nativeMacroEvalEqual, begins, nativeMacroEvalEqualFrom, if_neg present, operandRead]
      dsimp only
      rw [if_neg isInteger, recorded, if_neg Bool.false_ne_true, Option.getD_some, List.length_cons,
        show operands.length + 1 + less = operands.length + less + 1 by omega, answered,
        operand.read_eq_taken integer, Bool.true_and]
      congr 2
      apply decide_eq_decide.mpr
      exact (allSame_cons _ _).symm

theorem nativeMacroCallFail_error (call : MacroCall Others) {error : Nat} (isError : error ≠ 0) :
    (nativeMacroCallFail call error).2.error ≠ 0 := by
  unfold nativeMacroCallFail
  dsimp only
  split
  · exact isError
  · assumption

/-- A boolean form is a node with the symbol of its truth, or a failure with an error. -/
theorem nativeMacroBooleanForm_spec (call : MacroCall Others) (reference : Nat) (truth : Bool) :
    ((nativeMacroBooleanForm symbols call reference truth).1 = 0 ∧
        (nativeMacroBooleanForm symbols call reference truth).2.error ≠ 0) ∨
      ((nativeMacroBooleanForm symbols call reference truth).1 ≠ 0 ∧
        ((nativeMacroBooleanForm symbols call reference truth).2.identities
          (nativeMacroBooleanForm symbols call reference truth).1).symbol =
            if truth then symbols.trueSymbol else symbols.nilSymbol) := by
  have failed : ∀ call : MacroCall Others, (nativeMacroCallFail call 3).2.error ≠ 0 :=
    fun call => nativeMacroCallFail_error call (Nat.succ_ne_zero 2)
  unfold nativeMacroBooleanForm nativeMacroSymbolForm parserNewMacroNode
  split
  · split
    · refine .inr ?_
      simp only [Nat.succ_ne_zero, ↓reduceIte, Function.update_self, ne_eq, not_false_eq_true,
        and_self]
    · exact .inl ⟨rfl, failed _⟩
  · exact .inl ⟨rfl, failed _⟩

/-- A boolean form answers the question whose truth it holds. -/
theorem equalAnswer_booleanForm {operands : List IntegerOperand} (call : MacroCall Others)
    (reference : Nat) {truth : Bool}
    (right : truth = true ↔ AllSame (operands.map IntegerOperand.value)) :
    EqualAnswer symbols operands (nativeMacroBooleanForm symbols call reference truth) := by
  rcases @nativeMacroBooleanForm_spec _ symbols call reference truth with
    failed | ⟨made, symbol⟩
  · exact .inl failed
  · refine .inr ⟨made, ?_⟩
    rw [symbol, ← right]
    cases truth with
    | false => exact ⟨fun same => absurd same symbols.apart, fun same => absurd same (by decide)⟩
    | true => exact ⟨fun _ => rfl, fun _ => rfl⟩

end Answer

/-! ## When the answer is right -/

/-- The kept magnitudes are one word for each operand. -/
theorem Operands.words {eval : MacroEvaluator Others} {call : MacroCall Others} {argument : Nat}
    {operands : List IntegerOperand} {kepts : List Nat}
    (read : Operands eval call argument operands kepts) :
    List.Forall₂ (fun _ kept => kept < wordLimit) operands kepts := by
  induction read with
  | nil => exact .nil
  | cons _ _ _ _ word _ _ ih => exact .cons word ih

section Told

variable {operands : List IntegerOperand} {kepts : List Nat}

theorem mem_takenIntegers (words : List.Forall₂ (fun _ kept => kept < wordLimit) operands kepts)
    {operand : IntegerOperand} (member : operand ∈ operands) :
    ∃ kept < wordLimit, operand.taken kept ∈ takenIntegers operands kepts := by
  induction words with
  | nil => cases member
  | @cons first kept rest others word _ ih =>
      rcases List.mem_cons.mp member with rfl | later
      · exact ⟨kept, word, List.mem_cons_self⟩
      · obtain ⟨other, bound, found⟩ := ih later
        exact ⟨other, bound, List.mem_cons_of_mem _ found⟩

/-- Operands inside the range are taken for their integers. -/
theorem takenIntegers_of_lt (words : List.Forall₂ (fun _ kept => kept < wordLimit) operands kepts)
    (fits : ∀ operand ∈ operands, operand.magnitude < wordLimit) :
    takenIntegers operands kepts = operands.map IntegerOperand.value := by
  induction words with
  | nil => rfl
  | @cons first kept rest others _ _ ih =>
      obtain ⟨firstFits, restFits⟩ := List.forall_mem_cons.mp fits
      have tail := ih restFits
      rw [List.map_cons, ← tail, ← IntegerOperand.taken_of_lt firstFits kept]
      rfl

/-- Operands taken for the same integer are so with one magnitude in the place of all outside the
range. -/
theorem same_taken (words : List.Forall₂ (fun _ kept => kept < wordLimit) operands kepts)
    (nonempty : operands ≠ []) (same : AllSame (takenIntegers operands kepts)) :
    ∃ kept < wordLimit, AllSame (operands.map fun operand => operand.taken kept) := by
  obtain ⟨first, rest, rfl⟩ := List.exists_cons_of_ne_nil nonempty
  obtain ⟨kept, bound, found⟩ := mem_takenIntegers words List.mem_cons_self
  have below : (first.taken kept).natAbs < wordLimit := by
    rw [IntegerOperand.taken, signedInteger_natAbs]
    split
    · assumption
    · exact bound
  refine ⟨(first.taken kept).natAbs, below, ?_⟩
  have all : ∀ operand ∈ first :: rest,
      operand.taken (first.taken kept).natAbs = first.taken kept := by
    intro operand member
    obtain ⟨other, _, alsoFound⟩ := mem_takenIntegers words member
    have equal := same _ alsoFound _ found
    by_cases fits : operand.magnitude < wordLimit
    · rw [← equal, IntegerOperand.taken_of_lt fits, IntegerOperand.taken_of_lt fits]
    · rw [← equal, IntegerOperand.taken, IntegerOperand.taken, if_neg fits, signedInteger_natAbs]
  intro one isOne other isOther
  obtain ⟨operand, member, rfl⟩ := List.mem_map.mp isOne
  obtain ⟨second, alsoMember, rfl⟩ := List.mem_map.mp isOther
  rw [all operand member, all second alsoMember]

/-- The same integers are the same with zero in the place of all magnitudes outside the range. -/
theorem same_zero (same : AllSame (operands.map IntegerOperand.value)) :
    AllSame (operands.map fun operand => operand.taken 0) := by
  intro one isOne other isOther
  obtain ⟨first, member, rfl⟩ := List.mem_map.mp isOne
  obtain ⟨second, alsoMember, rfl⟩ := List.mem_map.mp isOther
  have equal : first.value = second.value :=
    same _ (List.mem_map_of_mem member) _ (List.mem_map_of_mem alsoMember)
  have magnitudes : first.magnitude = second.magnitude := by
    have absolute := congrArg Int.natAbs equal
    rwa [IntegerOperand.value, IntegerOperand.value, signedInteger_natAbs, signedInteger_natAbs]
      at absolute
  by_cases fits : first.magnitude < wordLimit
  · rw [IntegerOperand.taken_of_lt fits, IntegerOperand.taken_of_lt (magnitudes ▸ fits), equal]
  · rw [IntegerOperand.taken, IntegerOperand.taken, if_neg fits, if_neg (magnitudes ▸ fits)]
    cases first.negative <;> cases second.negative <;> rfl

theorem allSame_of_length_le {values : List Int} (few : values.length ≤ 1) : AllSame values := by
  cases values with
  | nil => exact fun first member => absurd member List.not_mem_nil
  | cons value rest =>
      have alone : rest = [] :=
        List.eq_nil_of_length_eq_zero (Nat.le_zero.mp (Nat.le_of_succ_le_succ few))
      rw [alone, allSame_cons]
      exact fun other member => absurd member List.not_mem_nil

/-- Operands that are told apart are compared right. -/
theorem ToldApart.taken_iff (told : ToldApart operands)
    (words : List.Forall₂ (fun _ kept => kept < wordLimit) operands kepts) :
    AllSame (takenIntegers operands kepts) ↔ AllSame (operands.map IntegerOperand.value) := by
  rcases told with fits | few | differ
  · rw [takenIntegers_of_lt words fits]
  · have length : (takenIntegers operands kepts).length ≤ 1 := by
      rw [takenIntegers, List.length_zipWith]
      omega
    have one : (operands.map IntegerOperand.value).length ≤ 1 := by rwa [List.length_map]
    exact ⟨fun _ => allSame_of_length_le one, fun _ => allSame_of_length_le length⟩
  · constructor
    · intro same
      by_cases nonempty : operands = []
      · rw [nonempty]
        exact allSame_of_length_le (Nat.zero_le 1)
      · obtain ⟨kept, bound, all⟩ := same_taken words nonempty same
        exact absurd all (differ kept bound)
    · intro same
      exact absurd (same_zero same) (differ 0 (by decide))

end Told

/-! ## A call with given operands -/

namespace SampleCall

/-- The bytes of an operand in the source. -/
def bytes : IntegerOperand → List UInt8
  | .token spelled => spelled.bytes
  | .generated _ _ _ => []

/-- The source is the operands one after the other. -/
def source (operands : List IntegerOperand) (position : Nat) : UInt8 :=
  (operands.flatMap bytes)[position]?.getD 0

/-- The node of an operand that starts at a position. -/
def node (operand : IntegerOperand) (start next : Nat) : MacroNode :=
  match operand with
  | .token spelled => { kind := 8, start := start, length := spelled.bytes.length, next := next }
  | .generated magnitude negative _ =>
      { kind := 11, start := start, next := next, integerMagnitude := magnitude
        integerNegative := negative }

/-- The reference of the operand after some others, or zero at the end. -/
def reference (operands : List IntegerOperand) (index : Nat) : Nat :=
  if index < operands.length then index + 2 else 0

/-- The head is the first node, and the operands follow. -/
def nodes (operands : List IntegerOperand) (place : Nat) : MacroNode :=
  match place with
  | index + 2 =>
      match operands[index]? with
      | some operand =>
          node operand ((operands.take index).flatMap bytes).length (reference operands (index + 1))
      | none => {}
  | _ => { next := reference operands 0 }

def call (operands : List IntegerOperand) : MacroCall Unit where
  source := source operands
  nodes := nodes operands
  count := operands.length + 1
  capacity := operands.length + 2
  identities := fun _ => {}
  readerCount := operands.length + 1
  readerCapacity := operands.length + 2
  integer := some {}
  others := ()

/-- Every operand is its own value, and evaluating it leaves some magnitude in the record, as the
evaluation of another `=` inside it does. -/
def evaluate (leaves : Nat → Nat) : MacroEvaluator Unit := fun call place =>
  (place, { call with integer := some { magnitude := leaves (place - 2) } })

def symbols : TruthSymbols where
  nilSymbol := 0
  trueSymbol := 1
  apart := Nat.zero_ne_one

variable {operands : List IntegerOperand}

/-- The node of every operand denotes it. -/
theorem denotes {earlier rest : List IntegerOperand} {operand : IntegerOperand}
    (split : operands = earlier ++ operand :: rest) (integer : Option ParsedInteger) :
    Denotes { call operands with integer := integer } (earlier.length + 2) operand := by
  have found : operands[earlier.length]? = some operand := by
    rw [split, List.getElem?_append_right (Nat.le_refl _), Nat.sub_self]
    rfl
  have before : operands.take earlier.length = earlier := by
    rw [split, List.take_left]
  have placed : nodes operands (earlier.length + 2) =
      node operand (earlier.flatMap bytes).length (reference operands (earlier.length + 1)) := by
    rw [nodes, found, before]
  cases operand with
  | token spelled =>
      unfold Denotes call
      dsimp only
      rw [placed]
      refine ⟨rfl, rfl, ?_⟩
      intro index inside
      change source operands ((earlier.flatMap bytes).length + index) = _
      rw [source, split, List.flatMap_append, List.flatMap_cons,
        List.getElem?_append_right (Nat.le_add_right _ _), Nat.add_sub_cancel_left]
      change ((spelled.bytes ++ rest.flatMap bytes)[index]?).getD 0 = _
      rw [List.getElem?_append_left inside, List.getElem?_eq_getElem inside, Option.getD_some]
  | generated magnitude negative word =>
      unfold Denotes call
      dsimp only
      rw [placed]
      exact ⟨rfl, rfl, rfl⟩

/-- The magnitudes that evaluation leaves for the operands from an index on. -/
def kepts (leaves : Nat → Nat) (index count : Nat) : List Nat :=
  (List.range' index count).map leaves

/-- The operands of the call are read. -/
theorem operands_read {leaves : Nat → Nat} (words : ∀ index, leaves index < wordLimit)
    {rest earlier : List IntegerOperand} (split : operands = earlier ++ rest)
    (integer : Option ParsedInteger) :
    Operands (evaluate leaves) { call operands with integer := integer }
      (reference operands earlier.length) rest (kepts leaves earlier.length rest.length) := by
  induction rest generalizing earlier integer with
  | nil =>
      have ended : reference operands earlier.length = 0 := by
        rw [reference, split, List.append_nil, if_neg (Nat.lt_irrefl _)]
      rw [ended]
      exact .nil _
  | cons operand rest ih =>
      have place : reference operands earlier.length = earlier.length + 2 := by
        rw [reference, if_pos (by rw [split, List.length_append, List.length_cons]; omega)]
      have found : operands[earlier.length]? = some operand := by
        rw [split, List.getElem?_append_right (Nat.le_refl _), Nat.sub_self]
        rfl
      have next : nativeMacroNext { call operands with integer := integer } (earlier.length + 2) =
          reference operands (earlier ++ [operand]).length := by
        rw [nativeMacroNext, if_neg (Nat.succ_ne_zero _)]
        change (nodes operands (earlier.length + 2)).next = _
        rw [nodes, found, List.length_append]
        cases operand <;> rfl
      have advanced : operands = (earlier ++ [operand]) ++ rest := by
        rw [split, List.append_assoc]
        rfl
      have evaluated : evaluate leaves { call operands with integer := integer }
          (earlier.length + 2) = (earlier.length + 2,
            { call operands with integer := some { magnitude := leaves earlier.length } }) := rfl
      have further := ih advanced (some (operand.read { magnitude := leaves earlier.length }))
      rw [← next, List.length_append] at further
      rw [place, List.length_cons, kepts, List.range'_succ, List.map_cons]
      exact .cons (Nat.succ_ne_zero _) evaluated (Nat.succ_ne_zero _) rfl (words _)
        (denotes split _) further

/-- There is room for the answer. -/
def Roomy (call : MacroCall Unit) : Prop :=
  call.count < call.capacity ∧ call.count < call.readerCapacity

theorem roomy_kept (leaves : Nat → Nat) : KeptByReading (evaluate leaves) Roomy where
  evaluation := fun _ roomy => roomy
  record := fun _ roomy => roomy

/-- A boolean form that fits is made. -/
theorem booleanForm_made {call : MacroCall Unit} (roomy : Roomy call) (reference : Nat)
    (truth : Bool) : (nativeMacroBooleanForm symbols call reference truth).1 ≠ 0 := by
  unfold nativeMacroBooleanForm nativeMacroSymbolForm parserNewMacroNode
  simp only [roomy.1, roomy.2, ↓reduceIte, Nat.succ_ne_zero, ne_eq, not_false_eq_true]

/-- If the answer is right whatever is left in the record, the integers taken for the operands are
the same exactly when the operands are. -/
theorem taken_iff {operand : IntegerOperand} {rest : List IntegerOperand}
    (right : ∀ (call : MacroCall Unit) (eval : MacroEvaluator Unit) (head : Nat) (kepts : List Nat),
      Operands eval call (nativeMacroNext call head) (operand :: rest) kepts →
        ∃ result, nativeMacroEvalEqual symbols eval ((operand :: rest).length + 1) call head =
          some result ∧ EqualAnswer symbols (operand :: rest) result)
    {leaves : Nat → Nat} (words : ∀ index, leaves index < wordLimit) :
    AllSame (takenIntegers (operand :: rest) (kepts leaves 0 (rest.length + 1))) ↔
      AllSame ((operand :: rest).map IntegerOperand.value) := by
  have read : Operands (evaluate leaves) (call (operand :: rest))
      (nativeMacroNext (call (operand :: rest)) 1) (operand :: rest)
      (kepts leaves 0 (rest.length + 1)) :=
    @operands_read (operand :: rest) leaves words (operand :: rest) [] rfl (some {})
  have roomy : Roomy (call (operand :: rest)) :=
    ⟨Nat.lt_succ_self _, Nat.lt_succ_self _⟩
  obtain ⟨final, hasRoom, answered⟩ := @nativeMacroEvalEqual_taken _ symbols _ _ _ _ _ _ read Roomy
    (roomy_kept leaves) roomy _ (Nat.lt_succ_self _)
  obtain ⟨result, same, answer⟩ := right _ _ _ _ read
  rw [answered, Option.some.injEq] at same
  subst same
  rcases answer with ⟨failed, _⟩ | ⟨_, isTrue⟩
  · exact absurd failed (booleanForm_made hasRoom 1 _)
  · rw [← isTrue]
    rcases @nativeMacroBooleanForm_spec _ symbols final 1
        (decide (AllSame (takenIntegers (operand :: rest) (kepts leaves 0 (rest.length + 1))))) with
      ⟨failed, _⟩ | ⟨_, symbol⟩
    · exact absurd failed (booleanForm_made hasRoom 1 _)
    · rw [symbol]
      by_cases taken : AllSame (takenIntegers (operand :: rest) (kepts leaves 0 (rest.length + 1)))
      · rw [decide_eq_true taken]
        exact ⟨fun _ => rfl, fun _ => taken⟩
      · rw [decide_eq_false taken]
        exact ⟨fun found => absurd found taken, fun found => absurd found Nat.zero_ne_one⟩

theorem takenIntegers_constant (operands : List IntegerOperand) (kept index : Nat) :
    takenIntegers operands (kepts (fun _ => kept) index operands.length) =
      operands.map fun operand => operand.taken kept := by
  induction operands generalizing index with
  | nil => rfl
  | cons operand rest ih =>
      rw [List.map_cons, ← ih (index + 1)]
      rfl

/-- Operands that are not told apart are compared wrong after some evaluations. -/
theorem told_of_taken_iff {operands : List IntegerOperand}
    (right : ∀ leaves : Nat → Nat, (∀ index, leaves index < wordLimit) →
      (AllSame (takenIntegers operands (kepts leaves 0 operands.length)) ↔
        AllSame (operands.map IntegerOperand.value))) : ToldApart operands := by
  by_contra untold
  unfold ToldApart at untold
  push Not at untold
  obtain ⟨⟨large, member, tooLarge⟩, several, kept, bound, same⟩ := untold
  have constant := right (fun _ => kept) (fun _ => bound)
  rw [takenIntegers_constant] at constant
  have values := constant.mp same
  obtain ⟨first, second, rest, rfl⟩ : ∃ first second rest, operands = first :: second :: rest := by
    cases operands with
    | nil => exact absurd several (Nat.not_lt_zero 1)
    | cons first others =>
        cases others with
        | nil => exact absurd several (Nat.lt_irrefl 1)
        | cons second rest => exact ⟨first, second, rest, rfl⟩
  have outside : ∀ operand ∈ first :: second :: rest, ¬ operand.magnitude < wordLimit := by
    intro operand isOperand
    have equal : operand.value = large.value :=
      values _ (List.mem_map_of_mem isOperand) _ (List.mem_map_of_mem member)
    have magnitudes := congrArg Int.natAbs equal
    rw [IntegerOperand.value, IntegerOperand.value, signedInteger_natAbs, signedInteger_natAbs]
      at magnitudes
    omega
  -- The records hold zero before the first operand and one before the second.
  have words : ∀ index, (if index = 0 then 0 else 1) < wordLimit := by
    intro index
    split <;> decide
  have taken := (right (fun index => if index = 0 then 0 else 1) words).mpr values
  have equal : first.taken 0 = second.taken 1 :=
    taken _ List.mem_cons_self _ (List.mem_cons_of_mem _ List.mem_cons_self)
  rw [IntegerOperand.taken, IntegerOperand.taken, if_neg (outside first List.mem_cons_self),
    if_neg (outside second (List.mem_cons_of_mem _ List.mem_cons_self))] at equal
  have magnitudes := congrArg Int.natAbs equal
  rw [signedInteger_natAbs, signedInteger_natAbs] at magnitudes
  exact Nat.zero_ne_one magnitudes

end SampleCall

/-- The answer to operands is right in every call exactly when they are told apart without the
magnitudes outside the 64-bit range. -/
theorem nativeMacroEvalEqual_exact (operands : List IntegerOperand) :
    (∀ (Others : Type) (symbols : TruthSymbols) (eval : MacroEvaluator Others)
      (call : MacroCall Others) (head : Nat) (kepts : List Nat) (fuel : Nat),
      operands.length < fuel → Operands eval call (nativeMacroNext call head) operands kepts →
        ∃ result, nativeMacroEvalEqual symbols eval fuel call head = some result ∧
          EqualAnswer symbols operands result) ↔ ToldApart operands := by
  constructor
  · intro right
    cases operands with
    | nil => exact .inr (.inl (Nat.zero_le 1))
    | cons operand rest =>
        apply SampleCall.told_of_taken_iff
        intro leaves words
        apply SampleCall.taken_iff _ words
        intro call eval head kepts read
        exact right Unit SampleCall.symbols eval call head kepts _ (Nat.lt_succ_self _) read
  · intro told Others symbols eval call head kepts fuel enough read
    cases operands with
    | nil =>
        obtain ⟨less, rfl⟩ := Nat.exists_eq_add_of_lt enough
        generalize ends : nativeMacroNext call head = argument at read
        cases read
        refine ⟨nativeMacroCallFail call 2, ?_, .inl ⟨rfl, ?_⟩⟩
        · rw [nativeMacroEvalEqual, ends, nativeMacroEvalEqualFrom, if_pos rfl,
            if_neg Bool.false_ne_true]
        · exact nativeMacroCallFail_error call (Nat.succ_ne_zero 1)
    | cons operand rest =>
        have keeps : KeptByReading eval fun _ => True :=
          ⟨fun _ _ => trivial, fun _ _ => trivial⟩
        obtain ⟨final, _, answered⟩ := @nativeMacroEvalEqual_taken _ symbols _ _ _ _ _ _ read _ keeps
          trivial _ enough
        refine ⟨_, answered, equalAnswer_booleanForm final head ?_⟩
        rw [decide_eq_true_iff]
        exact told.taken_iff read.words

namespace SampleCall

/-- The token `5`. -/
def five : IntegerOperand := .token
  { sign := .none, mark := .none, capitalMark := false, digits := [(5, false)]
    nonempty := List.cons_ne_nil _ _, valid := by decide }

/-- The token `18446744073709551616`, which is the first integer outside the 64-bit range. -/
def wordSize : IntegerOperand := .token
  { sign := .none, mark := .none, capitalMark := false
    digits := [1, 8, 4, 4, 6, 7, 4, 4, 0, 7, 3, 7, 0, 9, 5, 5, 1, 6, 1, 6].map fun digit =>
      (digit, false)
    nonempty := List.cons_ne_nil _ _, valid := by decide }

/-- An integer evaluates to itself. -/
def evaluateInteger : MacroEvaluator Unit := fun call place => (place, call)

theorem operands_five : Operands evaluateInteger (call [five, wordSize])
    (nativeMacroNext (call [five, wordSize]) 1) [five, wordSize] [0, 5] := by
  have fiveDenotes : Denotes (call [five, wordSize]) 2 five :=
    @denotes _ [] [wordSize] five rfl (some {})
  have otherDenotes := @denotes _ [five] [] wordSize rfl (some (five.read {}))
  have further : Operands evaluateInteger
      { call [five, wordSize] with integer := some (five.read {}) } 3 [wordSize] [5] :=
    .cons (Nat.succ_ne_zero 2) rfl (Nat.succ_ne_zero 2) rfl (by decide) otherDenotes (.nil _)
  exact @Operands.cons _ evaluateInteger (call [five, wordSize]) _ 2 2 five [wordSize] [5] {}
    (Nat.succ_ne_zero 1) rfl (Nat.succ_ne_zero 1) rfl (by decide) fiveDenotes further

theorem equal_five : ∃ result, nativeMacroEvalEqual symbols evaluateInteger 3
    (call [five, wordSize]) 1 = some result ∧ ¬ EqualAnswer symbols [five, wordSize] result := by
  refine ⟨_, rfl, ?_⟩
  rintro (⟨failed, _⟩ | ⟨_, right⟩)
  · revert failed
    decide
  · have same := right.mp (by decide)
    revert same
    decide

end SampleCall

/-- `(= 5 18446744073709551616)` answers true. -/
theorem nativeMacroEvalEqual_confused : ¬ ∀ (operands : List IntegerOperand)
    (Others : Type) (symbols : TruthSymbols) (eval : MacroEvaluator Others)
    (call : MacroCall Others) (head : Nat) (kepts : List Nat) (fuel : Nat),
      operands.length < fuel → Operands eval call (nativeMacroNext call head) operands kepts →
        ∃ result, nativeMacroEvalEqual symbols eval fuel call head = some result ∧
          EqualAnswer symbols operands result := by
  intro right
  obtain ⟨result, answered, wrong⟩ := SampleCall.equal_five
  obtain ⟨other, alsoAnswered, answer⟩ := right _ _ SampleCall.symbols _ _ _ _ 3 (by decide)
    SampleCall.operands_five
  rw [answered, Option.some.injEq] at alsoAnswered
  rw [← alsoAnswered] at answer
  exact wrong answer

end Native
