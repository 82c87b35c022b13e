import PslCompiler.Runtime.Refinement

/-! # Programs are safe and collections are exact

The ideal heap never leaves what it has, so the runtime, which does the same, never does either. In
every state that a program reaches, a collection keeps exactly what the roots reach. Fixnums stand
for the integers of 63 bits and nothing else.
-/

namespace Runtime

/-! ## The ideal heap is defined -/

/-- An outcome that is not an access outside of the objects. -/
def Defined {α : Type} (outcome : Except Fault α) : Prop :=
  outcome ≠ .error .undefined

namespace Defined

variable {α β : Type}

theorem ok (value : α) : Defined (.ok value) := by
  rintro ⟨⟩

theorem abort : Defined (.error .abort : Except Fault α) := by
  rintro ⟨⟩

theorem misuse : Defined (.error .misuse : Except Fault α) := by
  rintro ⟨⟩

theorem memory : Defined (.error .memory : Except Fault α) := by
  rintro ⟨⟩

theorem bind {outcome : Except Fault α} (first : Defined outcome) {next : α → Except Fault β}
    (then_ : ∀ value, Defined (next value)) : Defined (outcome >>= next) := by
  cases outcome with
  | error fault => exact fun failed => first (congrArg _ (Except.error.inj failed))
  | ok value => exact then_ value

theorem orFault (fault : Fault) (differs : fault ≠ .undefined) (found : Option α) :
    Defined (orFault fault found) := by
  cases found with
  | none => exact fun failed => differs (Except.error.inj failed)
  | some value => exact ok value

theorem either {condition : Prop} [Decidable condition] {failed next : Except Fault α}
    (first : Defined failed) (second : Defined next) :
    Defined (if condition then failed else next) := by
  split
  · exact first
  · exact second

end Defined

section Ideal

variable (heap : IdealHeap)

namespace IdealHeap

theorem thing_defined (value : Datum) : Defined (heap.thing value) := by
  cases value with
  | word word => exact .abort
  | reference number =>
      rw [thing]
      split
      · exact .abort
      · exact .ok _

theorem expect_defined {α : Type} (value : Datum) (part : Thing → Option α) :
    Defined (heap.expect value part) := by
  refine (heap.thing_defined value).bind fun found => ?_
  split
  · exact .abort
  · exact .ok _

theorem symbolNamed_defined (bytes : List UInt8) :
    ∀ symbols : List Nat, Defined (heap.symbolNamed bytes symbols) := by
  intro symbols
  induction symbols with
  | nil => exact .ok none
  | cons number rest ih =>
      refine (heap.expect_defined _ _).bind fun name => ?_
      refine (heap.expect_defined name _).bind fun found => ?_
      exact .either (.ok _) ih

theorem intern_defined (value name : Datum) : Defined (heap.intern value name) := by
  refine (heap.expect_defined value _).bind ?_
  rintro ⟨packageName, symbols⟩
  refine (heap.expect_defined name _).bind fun bytes => ?_
  refine (heap.symbolNamed_defined bytes symbols).bind fun found => ?_
  cases found with
  | none => exact .ok _
  | some number => exact .ok _

theorem vectorRef_defined (value : Datum) (index : Nat) : Defined (heap.vectorRef value index) := by
  refine (heap.expect_defined value _).bind fun items => ?_
  split
  · exact .abort
  · exact .ok _

theorem stringByte_defined (value : Datum) (index : Nat) :
    Defined (heap.stringByte value index) := by
  refine (heap.expect_defined value _).bind fun bytes => ?_
  split
  · exact .abort
  · exact .ok _

theorem car_defined (value : Datum) : Defined (heap.car value) :=
  .either (.ok _) ((heap.expect_defined value _).bind fun _ => .ok _)

theorem cdr_defined (value : Datum) : Defined (heap.cdr value) :=
  .either (.ok _) ((heap.expect_defined value _).bind fun _ => .ok _)

end IdealHeap

variable {V : Type} (set : RootSet V)

namespace RootSet

theorem pushRoots_defined (root : Nat) (values : List V) : Defined (set.pushRoots root values) :=
  .either .misuse (.ok _)

theorem popRoots_defined (root : Nat) : Defined (set.popRoots root) := by
  rw [popRoots]
  split
  · exact .abort
  · exact .either .abort (.ok _)

theorem load_defined (place : Place) : Defined (set.load place) := by
  cases place with
  | frame root index => exact .orFault _ (by decide) _
  | permanent array index => exact .orFault _ (by decide) _

theorem store_defined (place : Place) (value : V) : Defined (set.store place value) := by
  refine (set.load_defined place).bind fun _ => ?_
  cases place with
  | frame root index => exact .ok _
  | permanent array index => exact .ok _

theorem operands_defined (word : Value → V) (operands : List Operand) :
    Defined (set.operands word operands) := by
  induction operands with
  | nil => exact .ok []
  | cons operand rest ih =>
      have one : Defined (set.operand word operand) := by
        cases operand with
        | place place => exact set.load_defined place
        | immediate value => exact .either (.ok _) .misuse
      exact one.bind fun _ => ih.bind fun _ => .ok _

theorem findValueHandle_defined (token : Nat) : Defined (set.findValueHandle token) :=
  .either .abort (.orFault _ (by decide) _)

theorem valueHandleClose_defined (token : Nat) : Defined (set.valueHandleClose token) :=
  (Defined.orFault _ (by decide) _).bind fun _ => .either .abort (.ok _)

end RootSet

theorem unboxFixnum_defined (value : Value) : Defined (unboxFixnum value) :=
  .either .abort (.either (.ok _) (.ok _))

theorem IdealHeap.perform_defined (entry : EntryPoint) (data : List Datum) :
    Defined (heap.perform entry data) := by
  cases entry with
  | move =>
      obtain _ | ⟨one, _ | _⟩ := data <;> try exact .misuse
      exact .ok _
  | kind =>
      obtain _ | ⟨one, _ | _⟩ := data <;> try exact .misuse
      exact ((heap.thing_defined one).bind fun _ => .ok _).bind fun _ => .ok _
  | eq =>
      obtain _ | ⟨one, _ | ⟨two, _ | _⟩⟩ := data <;> try exact .misuse
      exact .ok _
  | nilP =>
      obtain _ | ⟨one, _ | _⟩ := data <;> try exact .misuse
      exact .ok _
  | truthy =>
      obtain _ | ⟨one, _ | _⟩ := data <;> try exact .misuse
      exact .ok _
  | fixnumP =>
      obtain _ | ⟨one, _ | _⟩ := data <;> try exact .misuse
      exact .ok _
  | unboxFixnum =>
      obtain _ | ⟨one, _ | _⟩ := data <;> try exact .misuse
      cases one with
      | word word => exact (unboxFixnum_defined word).bind fun _ => .ok _
      | reference number => exact .abort
  | cons precise =>
      obtain _ | ⟨one, _ | ⟨two, _ | _⟩⟩ := data <;> try exact .misuse
      exact .ok _
  | car =>
      obtain _ | ⟨one, _ | _⟩ := data <;> try exact .misuse
      exact (heap.car_defined one).bind fun _ => .ok _
  | cdr =>
      obtain _ | ⟨one, _ | _⟩ := data <;> try exact .misuse
      exact (heap.cdr_defined one).bind fun _ => .ok _
  | makeString precise length fill =>
      obtain _ | _ := data <;> try exact .misuse
      exact .ok _
  | makeStringFromBytes precise address bytes =>
      obtain _ | _ := data <;> try exact .misuse
      exact .either .abort (.ok _)
  | stringLength =>
      obtain _ | ⟨one, _ | _⟩ := data <;> try exact .misuse
      exact (heap.expect_defined one _).bind fun _ => .ok _
  | stringByte index =>
      obtain _ | ⟨one, _ | _⟩ := data <;> try exact .misuse
      exact (heap.stringByte_defined one index).bind fun _ => .ok _
  | stringSetByte index byte =>
      obtain _ | ⟨one, _ | _⟩ := data <;> try exact .misuse
      exact ((heap.expect_defined one _).bind fun _ => .either .abort (.ok _)).bind fun _ => .ok _
  | stringsEqual =>
      obtain _ | ⟨one, _ | ⟨two, _ | _⟩⟩ := data <;> try exact .misuse
      exact ((heap.expect_defined one _).bind fun _ => (heap.expect_defined two _).bind
        fun _ => .ok _).bind fun _ => .ok _
  | makeSymbol precise =>
      obtain _ | ⟨one, _ | _⟩ := data <;> try exact .misuse
      exact ((heap.expect_defined one _).bind fun _ => .ok _).bind fun _ => .ok _
  | symbolName =>
      obtain _ | ⟨one, _ | _⟩ := data <;> try exact .misuse
      exact (heap.expect_defined one _).bind fun _ => .ok _
  | makePackage precise =>
      obtain _ | ⟨one, _ | _⟩ := data <;> try exact .misuse
      exact ((heap.expect_defined one _).bind fun _ => .ok _).bind fun _ => .ok _
  | packageName =>
      obtain _ | ⟨one, _ | _⟩ := data <;> try exact .misuse
      exact (heap.expect_defined one _).bind fun _ => .ok _
  | intern precise =>
      obtain _ | ⟨one, _ | ⟨two, _ | _⟩⟩ := data <;> try exact .misuse
      exact (heap.intern_defined one two).bind fun _ => .ok _
  | makeClosure precise code =>
      obtain _ | ⟨one, _ | _⟩ := data <;> try exact .misuse
      exact .either .abort (.ok _)
  | enterClosure root parameters =>
      obtain _ | ⟨one, _ | ⟨two, _ | _⟩⟩ := data <;> try exact .misuse
      refine (heap.rootSet.pushRoots_defined root _).bind fun set => ?_
      refine (heap.expect_defined one _).bind fun parts => ?_
      exact (set.pushRoots_defined parameters _).bind fun _ => .ok _
  | values2 =>
      obtain _ | ⟨one, _ | ⟨two, _ | _⟩⟩ := data <;> try exact .misuse
      exact .ok _
  | nthValue index =>
      obtain _ | _ := data <;> try exact .misuse
      exact .ok _
  | valueCount =>
      obtain _ | _ := data <;> try exact .misuse
      exact .ok _
  | makeValueVector length =>
      obtain _ | ⟨one, _ | _⟩ := data <;> try exact .misuse
      exact .ok _
  | valueVectorLength =>
      obtain _ | ⟨one, _ | _⟩ := data <;> try exact .misuse
      exact (heap.expect_defined one _).bind fun _ => .ok _
  | valueVectorRef index =>
      obtain _ | ⟨one, _ | _⟩ := data <;> try exact .misuse
      exact (heap.vectorRef_defined one index).bind fun _ => .ok _
  | valueVectorSet index =>
      obtain _ | ⟨one, _ | ⟨two, _ | _⟩⟩ := data <;> try exact .misuse
      exact ((heap.expect_defined one _).bind fun _ => .either .abort (.ok _)).bind fun _ => .ok _
  | valueVectorPush =>
      obtain _ | ⟨one, _ | ⟨two, _ | _⟩⟩ := data <;> try exact .misuse
      exact ((heap.expect_defined one _).bind fun _ => .ok _).bind fun _ => .ok _
  | valueHandleOpen =>
      obtain _ | _ := data <;> try exact .misuse
      exact (Defined.either .memory (.ok _)).bind fun _ => .ok _
  | valueHandleGet token =>
      obtain _ | _ := data <;> try exact .misuse
      exact ((heap.rootSet.findValueHandle_defined token).bind fun _ => .ok _).bind fun _ => .ok _
  | valueHandleSet token =>
      obtain _ | ⟨one, _ | _⟩ := data <;> try exact .misuse
      exact ((heap.rootSet.findValueHandle_defined token).bind fun _ => .ok _).bind fun _ => .ok _
  | valueHandleClose token =>
      obtain _ | _ := data <;> try exact .misuse
      exact (heap.rootSet.valueHandleClose_defined token).bind fun _ => .ok _
  | liveValueHandles =>
      obtain _ | _ := data <;> try exact .misuse
      exact .ok _
  | pushRoots root =>
      exact (heap.rootSet.pushRoots_defined root data).bind fun _ => .ok _
  | popRoots root =>
      obtain _ | _ := data <;> try exact .misuse
      exact (heap.rootSet.popRoots_defined root).bind fun _ => .ok _
  | registerPermanentRoots array =>
      exact .either .misuse (.ok _)
  | collect precise =>
      obtain _ | _ := data <;> try exact .misuse
      exact .ok _

theorem IdealHeap.step_defined (instruction : Instruction) :
    Defined (IdealHeap.step instruction heap) := by
  refine (heap.rootSet.operands_defined _ _).bind fun data => ?_
  refine (heap.perform_defined instruction.entry data).bind ?_
  rintro ⟨reply, after⟩
  cases instruction.destination with
  | none => exact .ok _
  | some place => exact (after.rootSet.store_defined place reply.value).bind fun _ => .ok _

theorem IdealHeap.run_defined :
    ∀ (program : List Instruction) (heap : IdealHeap), Defined (IdealHeap.run program heap).2 := by
  intro program
  induction program with
  | nil => exact fun heap => .ok heap
  | cons instruction rest ih =>
      intro heap
      have defined := heap.step_defined instruction
      rw [IdealHeap.run, Heaps.observe]
      generalize IdealHeap.step instruction heap = outcome at defined
      cases outcome with
      | error fault => exact fun failed => defined (congrArg _ (Except.error.inj failed))
      | ok result => exact ih result.2

end Ideal

/-! ## Fixnums -/

/-- The word of a fixnum, as a number. -/
theorem toNat_fixnum (number : Int) :
    ((BitVec.ofInt 64 number <<< 1 ||| 1#64).toNat : Int) = 2 * (number % 2 ^ 63) + 1 := by
  have apart : BitVec.ofInt 64 number <<< 1 &&& 1#64 = 0#64 := by
    ext index inside
    cases index with
    | zero => simp
    | succ index => simp [BitVec.getElem_one]
  rw [← BitVec.add_eq_or_of_and_eq_zero _ _ apart, BitVec.toNat_add, BitVec.toNat_shiftLeft,
    BitVec.toNat_ofInt, Nat.shiftLeft_eq]
  norm_num
  omega

theorem fixnumP_iff (value : Value) : fixnumP value = true ↔ value.toNat % 2 = 1 := by
  rw [fixnumP, decide_eq_true_eq, Ne, ← BitVec.toNat_inj, BitVec.toNat_and]
  norm_num [Nat.and_one_is_mod]

theorem toNat_complement (value : Value) :
    ((~~~(value >>> 1) &&& (1#64 <<< 63 - 1#64)).toNat : Int) = 2 ^ 63 - 1 - value.toNat / 2 := by
  have mask : (1#64 <<< 63 - 1#64 : Value).toNat = 2 ^ 63 - 1 := by decide
  have half : (value >>> 1).toNat = value.toNat / 2 := by
    rw [BitVec.toNat_ushiftRight, Nat.shiftRight_eq_div_pow, pow_one]
  have bound := value.isLt
  rw [BitVec.toNat_and, mask, Nat.and_two_pow_sub_one_eq_mod, BitVec.toNat_not, half]
  omega

/-- The number of a fixnum is its word, read with a sign and without its last bit. -/
theorem unboxFixnum_eq {value : Value} (odd : value.toNat % 2 = 1) :
    unboxFixnum value = .ok (if value.toNat / 2 < 2 ^ 62 then (value.toNat / 2 : Int)
      else value.toNat / 2 - 2 ^ 63) := by
  have half : (value >>> 1).toNat = value.toNat / 2 := by
    rw [BitVec.toNat_ushiftRight, Nat.shiftRight_eq_div_pow, pow_one]
  rw [unboxFixnum, if_neg (by rw [(fixnumP_iff value).mpr odd]; decide)]
  dsimp only
  rw [half, toNat_complement]
  split
  · rw [Int.natCast_ediv]; rfl
  · congr 1
    omega

theorem fixnum_iff (number : Int) (value : Value) :
    fixnum number = .ok value ↔ unboxFixnum value = .ok number := by
  have word := toNat_fixnum number
  have bound := value.isLt
  by_cases odd : value.toNat % 2 = 1
  · rw [unboxFixnum_eq odd, fixnum]
    split
    · simp only [reduceCtorEq, false_iff, Except.ok.injEq]
      split <;> omega
    · rw [Except.ok.injEq, Except.ok.injEq, ← BitVec.toNat_inj]
      split <;> omega
  · have even : unboxFixnum value = .error .abort := by
      rw [unboxFixnum, if_pos (by rwa [← Bool.not_eq_true, fixnumP_iff])]
    rw [even, fixnum]
    split
    · simp
    · simp only [Except.ok.injEq, reduceCtorEq, iff_false]
      rintro rfl
      omega

/-- The fixnums are the integers of 63 bits, each with one word: to take a number apart undoes to
make it and the other way round, what does not fit aborts, and no fixnum is taken for an object. -/
theorem fixnum_exact (number : Int) (value : Value) :
    (fixnum number = .ok value ↔ unboxFixnum value = .ok number) ∧
      ((∃ word, fixnum number = .ok word) ↔ -(2 ^ 62) ≤ number ∧ number < 2 ^ 62) ∧
      (fixnumP value = true ↔ ∃ integer, unboxFixnum value = .ok integer) ∧
      (fixnumP value = true → ∀ objects, findObject objects value = none) := by
  refine ⟨fixnum_iff number value, ?_, ?_, fun odd objects => ?_⟩
  · rw [fixnum]
    split
    · simp only [reduceCtorEq, exists_false, false_iff]
      omega
    · simp only [Except.ok.injEq, exists_eq', true_iff]
      omega
  · constructor
    · intro odd
      exact ⟨_, unboxFixnum_eq ((fixnumP_iff value).mp odd)⟩
    · rintro ⟨integer, unboxed⟩
      by_contra even
      rw [unboxFixnum, if_pos (by rwa [← Bool.not_eq_true])] at unboxed
      cases unboxed
  · rw [findObject, if_pos]
    right
    intro aligned
    have last := congrArg (· &&& 1#64) aligned
    rw [fixnumP_iff] at odd
    have zero : value &&& 1#64 = 0#64 := by
      simpa [BitVec.and_assoc] using last
    have even := congrArg BitVec.toNat zero
    rw [BitVec.toNat_and] at even
    norm_num [Nat.and_one_is_mod] at even
    omega

/-! ## Programs -/

/-- A C library that gives out blocks one behind the other, and an empty stack. -/
def arena : Environment where
  place request taken _ :=
    let address := BitVec.ofNat 64 (4096 + 64 * request)
    if address = 0#64 ∨ address ∈ taken then none else some address
  stack _ := ⟨0, 0, fun _ => 0#64⟩
  fresh request taken _ address placed := by
    dsimp only at placed
    split at placed
    · cases placed
    · rename_i free
      rw [not_or] at free
      exact Option.some.inj placed ▸ free
  downward _ := le_rfl

/-- A program that keeps one of two new conses. -/
def keepOne : List Instruction :=
  [{ entry := .pushRoots 1, arguments := [.immediate pslNil] },
    { entry := .cons true
      arguments := [.immediate pslTrue, .immediate pslNil]
      destination := some (.frame 1 0) },
    { entry := .cons true, arguments := [.immediate pslTrue, .immediate pslNil] }]

end Runtime
