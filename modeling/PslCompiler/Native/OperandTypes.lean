import Mathlib.Tactic
import PslCompiler.Native.VerifyOperations

/-! # The types that operations require

What an operation demands of the values it reads, stated of the types with which those values
were assigned. An operation that passes `ir_verify_scalar_type` against the type catalogue is
typed in this sense whenever its operands carry their catalogued types.
-/

namespace Native

theorem irReferenceP_eq_true {reference count : Nat} :
    irReferenceP reference count = true ↔ 1 ≤ reference ∧ reference ≤ count := by
  simp only [irReferenceP, Bool.and_eq_true, bne_iff_ne, ne_eq, Bool.not_eq_true',
    decide_eq_false_iff_not, Nat.not_lt]
  omega

/-- Every operation other than a leaf and a call names its left operand. -/
theorem irOpOperandsP_left {op : ScalarOp} {count : Nat} (shape : irOpOperandsP op count = true)
    (notLeaf : op.kind.irLeafKindP = false) (notCall : op.kind ≠ .call) :
    1 ≤ op.left ∧ op.left ≤ count := by
  unfold irOpOperandsP at shape
  rw [notLeaf, if_neg Bool.false_ne_true] at shape
  split at shape
  · simp only [Bool.and_eq_true, irReferenceP_eq_true] at shape
    exact shape.2
  · split at shape
    · simp only [Bool.and_eq_true, irReferenceP_eq_true] at shape
      exact shape.1
    · split at shape
      · exact (notCall ‹_›).elim
      · simp only [Bool.and_eq_true, irReferenceP_eq_true] at shape
        exact shape.1
      · cases shape

/-- A binary operation names its right operand. -/
theorem irOpOperandsP_right {op : ScalarOp} {count : Nat} (shape : irOpOperandsP op count = true)
    (binary : op.kind.irBinaryKindP = true) : 1 ≤ op.right ∧ op.right ≤ count := by
  have notLeaf : op.kind.irLeafKindP = false := by
    revert binary
    cases op.kind <;> simp [Kind.irBinaryKindP, Kind.irLeafKindP]
  have notUnary : op.kind.irUnaryKindP = false := by
    revert binary
    cases op.kind <;> simp [Kind.irBinaryKindP, Kind.irUnaryKindP]
  simp only [irOpOperandsP, notLeaf, notUnary, binary, Bool.false_eq_true, ↓reduceIte,
    Bool.and_eq_true, irReferenceP_eq_true] at shape
  exact shape.2

/-- A scalar code with the syntax of a pointed-to or aggregate type. -/
structure SourceType where
  code : Nat
  pointee : Nat
  deriving DecidableEq, Repr

def IrType.sourceType (type : IrType) : SourceType := ⟨type.scalarCode, type.pointee⟩

def ScalarOp.sourceType (op : ScalarOp) : SourceType := ⟨op.scalarCode, op.pointee⟩

/-- Two types are the same for `source_types_equal_p`. -/
def SourceType.Same (context : CompileContext) (actual expected : SourceType) : Prop :=
  sourceTypesEqualP context actual.code actual.pointee expected.code expected.pointee = true

/-- A reference holds a value of a type that satisfies a condition. -/
def Holds (assigned : Nat → Option SourceType) (reference : Nat) (accepts : SourceType → Prop) :
    Prop :=
  ∃ type, assigned reference = some type ∧ accepts type

/-- The left references along a chain of argument links, the first of them first. -/
def chainArguments (left right : Nat → Nat) : Nat → Nat → List Nat
  | _, 0 => []
  | chain, remaining + 1 => left chain :: chainArguments left right (right chain) remaining

/-- The types that an operation other than a phi requires. The arguments of a call are given in
the order of the chain, which is the reverse of the order of the parameters. -/
def OperandsTyped (context : CompileContext) (assigned : Nat → Option SourceType)
    (arguments : List Nat) (op : ScalarOp) : Prop :=
  match op.kind with
  | .add | .sub | .mul | .bitsAnd | .shift =>
      Holds assigned op.left (·.Same context op.sourceType) ∧
        Holds assigned op.right (·.Same context op.sourceType)
  | .equal | .less =>
      Holds assigned op.left fun left => scalarValidCodeP left.code = true ∧
        Holds assigned op.right (·.Same context ⟨left.code, 0⟩)
  | .call =>
      let signature := context.signatureAt (op.target - 1)
      arguments.length = signature.arity ∧
        ∀ index argument, arguments.reverse[index]? = some argument → Holds assigned argument
          (·.Same context ⟨signature.parameterCode index, signature.parameterPointee index⟩)
  | .argumentLink | .forward | .copy => Holds assigned op.left (·.Same context op.sourceType)
  | .integerCast => Holds assigned op.left fun left => scalarValidCodeP left.code = true
  | .wordTruth => Holds assigned op.left fun left =>
      left.code ≠ 15 ∧ left.code ≠ 16 ∧ sourceContextCodeP context left.code = true
  | .addressToPointer => Holds assigned op.left (·.Same context ⟨2, 0⟩)
  | .pointerCast | .pointerAddress => Holds assigned op.left fun left => left.code = 11
  | .fieldPointer => Holds assigned op.left fun left => left.code = 11 ∧
      op.target = context.findField left.pointee (context.fieldAt (op.target - 1)).name
  | .load => Holds assigned op.left fun left => left.code = 11 ∧
      op.sourceType.Same context ⟨context.syntaxCode left.pointee, context.syntaxPointee left.pointee⟩
  | .store =>
      (Holds assigned op.left fun left => left.code = 11 ∧
        context.pointerConstP left.pointee = false ∧ op.sourceType.Same context
          ⟨context.syntaxCode left.pointee, context.syntaxPointee left.pointee⟩) ∧
        Holds assigned op.right (·.Same context op.sourceType)
  | .pointerAdd => Holds assigned op.left (·.Same context op.sourceType) ∧
      Holds assigned op.right (·.Same context ⟨10, 0⟩)
  | _ => True

theorem chainArguments_length (left right : Nat → Nat) : ∀ (remaining chain : Nat),
    (chainArguments left right chain remaining).length = remaining := by
  intro remaining
  induction remaining with
  | zero => exact fun _ => rfl
  | succ remaining ih =>
      intro chain
      rw [chainArguments, List.length_cons, ih]

/-- Only a call looks at the arguments. -/
theorem OperandsTyped.of_arguments {context : CompileContext} {assigned : Nat → Option SourceType}
    {arguments others : List Nat} {op : ScalarOp} (ordinary : op.kind ≠ .call)
    (typed : OperandsTyped context assigned arguments op) :
    OperandsTyped context assigned others op := by
  revert typed
  unfold OperandsTyped
  cases kind : op.kind with
  | call => exact (ordinary kind).elim
  | _ => exact id

section Catalogue

variable {context : CompileContext} {types : Nat → IrType} {assigned : Nat → Option SourceType}

theorem irVerifyArgumentChain_typed {signature : Signature} : ∀ (remaining chain : Nat),
    irVerifyArgumentChain context types signature chain remaining = true →
    ∀ index argument,
      (chainArguments (fun link => (types link).left) (fun link => (types link).right) chain
        remaining).reverse[index]? = some argument →
      irTypesSameP context types argument (signature.parameterCode index)
        (signature.parameterPointee index) = true := by
  intro remaining
  induction remaining with
  | zero =>
      intro chain _ index argument found
      simp [chainArguments] at found
  | succ remaining ih =>
      intro chain verified index argument found
      simp only [irVerifyArgumentChain, Bool.and_eq_true] at verified
      obtain ⟨⟨-, same⟩, rest⟩ := verified
      simp only [chainArguments, List.reverse_cons] at found
      rcases Nat.lt_or_ge index remaining with inside | beyond
      · rw [List.getElem?_append_left (by simpa [chainArguments_length] using inside)] at found
        exact ih _ rest index argument found
      · rw [List.getElem?_append_right (by simpa [chainArguments_length] using beyond)] at found
        simp only [List.length_reverse, chainArguments_length, List.getElem?_singleton] at found
        split at found
        · rename_i last
          have atEnd : index = remaining := by omega
          subst atEnd
          cases found
          exact same
        · cases found

/-- An operand that carries its catalogued type satisfies what the catalogue satisfies. -/
theorem holds_of_catalogue {reference : Nat} {accepts : SourceType → Prop}
    (carried : assigned reference = some (types reference).sourceType)
    (accepted : accepts (types reference).sourceType) : Holds assigned reference accepts :=
  ⟨_, carried, accepted⟩

/-- An operation that passes its type check is typed, once the references that it mentions and,
for a call, the arguments along its chain carry their catalogued types. -/
theorem irVerifyScalarType_typed {op : ScalarOp}
    (verified : irVerifyScalarType context types op = true)
    (left : op.kind ≠ .call → op.kind.irLeafKindP = false →
      assigned op.left = some (types op.left).sourceType)
    (right : op.kind.irBinaryKindP = true → assigned op.right = some (types op.right).sourceType)
    (arguments : op.kind = .call → ∀ argument ∈ chainArguments (fun link => (types link).left)
      (fun link => (types link).right) op.left (context.signatureAt (op.target - 1)).arity,
      assigned argument = some (types argument).sourceType) :
    OperandsTyped context assigned (chainArguments (fun link => (types link).left)
      (fun link => (types link).right) op.left (context.signatureAt (op.target - 1)).arity) op := by
  simp only [irVerifyScalarType, Bool.and_eq_true] at verified
  obtain ⟨-, verified⟩ := verified
  unfold OperandsTyped
  cases kind : op.kind with
  | call =>
      simp only [kind, irVerifyCallType, irVerifyCallTypeChecked, Bool.and_eq_true] at verified
      obtain ⟨-, ⟨-, chain⟩, -⟩ := verified
      refine ⟨chainArguments_length _ _ _ _, ?_⟩
      intro index argument found
      refine holds_of_catalogue (arguments kind argument ?_)
        (irVerifyArgumentChain_typed _ _ chain index argument found)
      exact List.mem_reverse.mp (List.mem_of_getElem? found)
  | equal | less =>
      simp only [kind, irVerifyComparison, Bool.and_eq_true] at verified
      obtain ⟨⟨-, valid⟩, same⟩ := verified
      exact ⟨_, left (by simp [kind]) (by simp [kind, Kind.irLeafKindP]), valid,
        _, right (by simp [kind, Kind.irBinaryKindP]), same⟩
  | add | sub | mul | bitsAnd | shift =>
      simp only [kind, irVerifyIntegerBinary, Bool.and_eq_true] at verified
      obtain ⟨⟨-, first⟩, second⟩ := verified
      exact ⟨⟨_, left (by simp [kind]) (by simp [kind, Kind.irLeafKindP]), first⟩,
        ⟨_, right (by simp [kind, Kind.irBinaryKindP]), second⟩⟩
  | argumentLink =>
      simp only [kind] at verified
      exact ⟨_, left (by simp [kind]) (by simp [kind, Kind.irLeafKindP]), verified⟩
  | forward =>
      simp only [kind, Bool.and_eq_true] at verified
      exact ⟨_, left (by simp [kind]) (by simp [kind, Kind.irLeafKindP]), verified.2⟩
  | copy =>
      simp only [kind, irVerifyMemoryType, Bool.and_eq_true] at verified
      exact ⟨_, left (by simp [kind]) (by simp [kind, Kind.irLeafKindP]), verified.2⟩
  | integerCast =>
      simp only [kind, irVerifyUnaryType, Bool.and_eq_true] at verified
      exact ⟨_, left (by simp [kind]) (by simp [kind, Kind.irLeafKindP]), verified.2⟩
  | wordTruth =>
      simp only [kind, irVerifyUnaryType, Bool.and_eq_true, bne_iff_ne] at verified
      obtain ⟨⟨⟨-, managed⟩, aggregate⟩, valid⟩ := verified
      exact ⟨_, left (by simp [kind]) (by simp [kind, Kind.irLeafKindP]), managed, aggregate, valid⟩
  | addressToPointer =>
      simp only [kind, irVerifyUnaryType, Bool.and_eq_true] at verified
      exact ⟨_, left (by simp [kind]) (by simp [kind, Kind.irLeafKindP]), verified.2⟩
  | pointerCast | pointerAddress =>
      simp only [kind, irVerifyUnaryType, Bool.and_eq_true, beq_iff_eq] at verified
      exact ⟨_, left (by simp [kind]) (by simp [kind, Kind.irLeafKindP]), verified.2⟩
  | fieldPointer =>
      simp only [kind, irVerifyMemoryType, irVerifyFieldType, Bool.and_eq_true,
        beq_iff_eq] at verified
      obtain ⟨⟨⟨⟨⟨-, pointer⟩, found⟩, -⟩, -⟩, -⟩ := verified
      exact ⟨_, left (by simp [kind]) (by simp [kind, Kind.irLeafKindP]), pointer, found⟩
  | load =>
      simp only [kind, irVerifyMemoryType, irVerifyAccessType, Bool.and_eq_true,
        beq_iff_eq] at verified
      obtain ⟨⟨⟨⟨pointer, -⟩, same⟩, -⟩, -⟩ := verified
      exact ⟨_, left (by simp [kind]) (by simp [kind, Kind.irLeafKindP]), pointer, same⟩
  | store =>
      simp only [kind, irVerifyMemoryType, irVerifyAccessType, Bool.and_eq_true, beq_iff_eq,
        Bool.not_eq_true', beq_self_eq_true, Bool.true_and, reduceCtorEq,
        Bool.or_eq_true, false_or] at verified
      obtain ⟨⟨⟨⟨pointer, writable⟩, same⟩, -⟩, operand⟩ := verified
      exact ⟨⟨_, left (by simp [kind]) (by simp [kind, Kind.irLeafKindP]), pointer, writable, same⟩,
        ⟨_, right (by simp [kind, Kind.irBinaryKindP]), operand⟩⟩
  | pointerAdd =>
      simp only [kind, irVerifyMemoryType, irVerifyPointerAddType, Bool.and_eq_true] at verified
      obtain ⟨⟨⟨-, first⟩, second⟩, -⟩ := verified
      exact ⟨⟨_, left (by simp [kind]) (by simp [kind, Kind.irLeafKindP]), first⟩,
        ⟨_, right (by simp [kind, Kind.irBinaryKindP]), second⟩⟩
  | _ => trivial

end Catalogue

end Native
