import PslCompiler.Calling.Assignment

/-! # Four calling conventions

The rules for scalar arguments and for records of at most sixteen bytes, of which no field is aligned
to more than eight: System V for x86-64, AAPCS64, the LP64D convention of RISC-V, and Microsoft x64.
-/

namespace Calling

/-- A scalar field of a record. -/
structure ScalarField where
  offset : Nat
  width : Nat
  floating : Bool
  deriving DecidableEq, Repr

inductive Argument
  | scalar (floating : Bool)
  | record (size : Nat) (fields : List ScalarField)
  deriving DecidableEq, Repr

/-- The words that a number of bytes takes. -/
def wordsOf (size : Nat) : Nat :=
  (size + 7) / 8

/-! ## System V -/

/-- Whether a field has a byte in a word. -/
def ScalarField.inWord (field : ScalarField) (part : Nat) : Bool :=
  field.offset < 8 * part + 8 && 8 * part < field.offset + field.width

/-- The class of a word: none if no field is in it, and floating-point if all those in it are. -/
def wordClass (fields : List ScalarField) (part : Nat) : Option Kind :=
  let inside := fields.filter fun field => field.inWord part
  if inside.isEmpty then none
  else if inside.all fun field => field.floating then some .floating
  else some .general

def wordClasses (size : Nat) (fields : List ScalarField) : List Kind :=
  (List.range (wordsOf size)).filterMap (wordClass fields)

/-- A record goes into registers as a whole, or to the stack as a whole. -/
def systemVKinds (used : Used) : Argument → List Kind
  | .scalar true => if used.floating < 8 then [.floating] else [.stack]
  | .scalar false => if used.general < 6 then [.general] else [.stack]
  | .record size fields =>
      if used.general + (wordClasses size fields).count .general ≤ 6 ∧
          used.floating + (wordClasses size fields).count .floating ≤ 8 then
        wordClasses size fields
      else List.replicate (wordsOf size) .stack

def systemV : Convention Argument where
  kinds := systemVKinds
  after used argument := used.takeAll (systemVKinds used argument)

/-! ## AAPCS64 -/

/-- One to four floating-point fields of one width. -/
def homogeneous (fields : List ScalarField) : Bool :=
  match fields with
  | [] => false
  | first :: rest =>
      fields.length ≤ 4 && first.floating &&
        rest.all fun field => field.floating && field.width = first.width

def aapcs64Kinds (used : Used) : Argument → List Kind
  | .scalar true => if used.floating < 8 then [.floating] else [.stack]
  | .scalar false => if used.general < 8 then [.general] else [.stack]
  | .record size fields =>
      if homogeneous fields then
        if used.floating + fields.length ≤ 8 then List.replicate fields.length .floating
        else List.replicate (wordsOf size) .stack
      else if used.general + wordsOf size ≤ 8 then List.replicate (wordsOf size) .general
      else List.replicate (wordsOf size) .stack

/-- A record that finds too few registers leaves none of its kind for later arguments. -/
def aapcs64After (used : Used) (argument : Argument) : Used :=
  let taken := used.takeAll (aapcs64Kinds used argument)
  match argument with
  | .scalar _ => taken
  | .record size fields =>
      if homogeneous fields then
        if used.floating + fields.length ≤ 8 then taken else { taken with floating := 8 }
      else if used.general + wordsOf size ≤ 8 then taken
      else { taken with general := 8 }

def aapcs64 : Convention Argument where
  kinds := aapcs64Kinds
  after := aapcs64After

/-! ## LP64D -/

/-- One or two words by the integer rules: two words are split when one register is left. -/
def integerKinds (used : Used) (words : Nat) : List Kind :=
  if words ≤ 1 then if used.general < 8 then [.general] else [.stack]
  else if used.general + 2 ≤ 8 then [.general, .general]
  else if used.general < 8 then [.general, .stack]
  else [.stack, .stack]

/-- At most two fields, at least one of them a floating-point one. -/
def flattened (fields : List ScalarField) : Bool :=
  fields.length ≤ 2 && fields.any fun field => field.floating

def fieldKinds (fields : List ScalarField) : List Kind :=
  fields.map fun field => if field.floating then .floating else .general

def lp64dKinds (used : Used) : Argument → List Kind
  | .scalar true => if used.floating < 8 then [.floating] else integerKinds used 1
  | .scalar false => integerKinds used 1
  | .record size fields =>
      if flattened fields = true ∧ used.general + (fieldKinds fields).count .general ≤ 8 ∧
          used.floating + (fieldKinds fields).count .floating ≤ 8 then
        fieldKinds fields
      else integerKinds used (wordsOf size)

def lp64d : Convention Argument where
  kinds := lp64dKinds
  after used argument := used.takeAll (lp64dKinds used argument)

/-! ## Microsoft x64 -/

/-- Each argument takes a position, in one of the files: records are in general registers, by their
value or by their address. -/
def microsoftKinds (used : Used) (argument : Argument) : List Kind :=
  if used.general < 4 then [if argument = .scalar true then .floating else .general] else [.stack]

def microsoftAfter (used : Used) (_ : Argument) : Used :=
  if used.general < 4 then
    { used with general := used.general + 1, floating := used.floating + 1 }
  else { used with stack := used.stack + 1 }

def microsoft : Convention Argument where
  kinds := microsoftKinds
  after := microsoftAfter

/-! ## No convention hands a place out twice -/

/-- The registers are those that there are. -/
def Used.WithinFiles (general floating : Nat) (used : Used) : Prop :=
  used.general ≤ general ∧ used.floating ≤ floating

/-- In the Microsoft convention the two files go together. -/
def Used.Together (used : Used) : Prop :=
  used.WithinFiles 4 4 ∧ used.floating = used.general

@[simp]
theorem count_replicate_stack (number : Nat) :
    (List.replicate number Kind.stack).count .general = 0 ∧
      (List.replicate number Kind.stack).count .floating = 0 := by
  simp [List.count_replicate]

theorem systemV_lawful : systemV.Lawful (Used.WithinFiles 6 8) where
  general _ _ _ := Nat.le_refl _
  floating _ _ _ := Nat.le_refl _
  stack _ _ _ := rfl
  stays used argument within := by
    obtain ⟨general, floating⟩ := within
    simp only [systemV, Used.WithinFiles, Used.takeAll_eq]
    cases argument with
    | scalar isFloating =>
        cases isFloating with
        | true =>
            simp only [systemVKinds]
            split
            · exact ⟨general, Nat.succ_le_of_lt ‹used.floating < 8›⟩
            · exact ⟨general, floating⟩
        | false =>
            simp only [systemVKinds]
            split
            · exact ⟨Nat.succ_le_of_lt ‹used.general < 6›, floating⟩
            · exact ⟨general, floating⟩
    | record size fields =>
        simp only [systemVKinds]
        split
        case isTrue fits => exact fits
        case isFalse =>
          simp only [count_replicate_stack, Nat.add_zero]
          exact ⟨general, floating⟩

theorem aapcs64_lawful : aapcs64.Lawful (Used.WithinFiles 8 8) where
  general used argument within := by
    obtain ⟨general, floating⟩ := within
    simp only [aapcs64, aapcs64After]
    cases argument with
    | scalar _ => exact Nat.le_refl _
    | record size fields =>
        dsimp only
        split
        case isTrue isHomogeneous => split <;> exact Nat.le_refl _
        case isFalse isNot =>
          split
          case isTrue => exact Nat.le_refl _
          case isFalse full =>
            simp only [Used.takeAll_eq, aapcs64Kinds, isNot, full, Bool.false_eq_true, ↓reduceIte,
              count_replicate_stack]
            exact general
  floating used argument within := by
    obtain ⟨general, floating⟩ := within
    simp only [aapcs64, aapcs64After]
    cases argument with
    | scalar _ => exact Nat.le_refl _
    | record size fields =>
        dsimp only
        split
        case isTrue isHomogeneous =>
          split
          case isTrue => exact Nat.le_refl _
          case isFalse full =>
            simp only [Used.takeAll_eq, aapcs64Kinds, isHomogeneous, full, ↓reduceIte,
              count_replicate_stack]
            exact floating
        case isFalse => split <;> exact Nat.le_refl _
  stack used argument _ := by
    simp only [aapcs64, aapcs64After]
    cases argument with
    | scalar _ => rfl
    | record size fields =>
        dsimp only
        split
        · split <;> rfl
        · split <;> rfl
  stays used argument within := by
    obtain ⟨general, floating⟩ := within
    simp only [aapcs64, aapcs64After, Used.WithinFiles, Used.takeAll_eq]
    cases argument with
    | scalar isFloating =>
        cases isFloating with
        | true =>
            simp only [aapcs64Kinds]
            split
            · exact ⟨general, Nat.succ_le_of_lt ‹used.floating < 8›⟩
            · exact ⟨general, floating⟩
        | false =>
            simp only [aapcs64Kinds]
            split
            · exact ⟨Nat.succ_le_of_lt ‹used.general < 8›, floating⟩
            · exact ⟨general, floating⟩
    | record size fields =>
        simp only [aapcs64Kinds]
        split
        case isTrue =>
          split
          case isTrue fits =>
            simp only [List.count_replicate, beq_self_eq_true, ↓reduceIte]
            exact ⟨by simpa using general, fits⟩
          case isFalse =>
            simp only [count_replicate_stack]
            exact ⟨general, Nat.le_refl _⟩
        case isFalse =>
          split
          case isTrue fits =>
            simp only [List.count_replicate, beq_self_eq_true, ↓reduceIte]
            exact ⟨fits, by simpa using floating⟩
          case isFalse =>
            simp only [count_replicate_stack]
            exact ⟨Nat.le_refl _, floating⟩

/-- The integer rules stay within the general registers. -/
theorem integerKinds_within {used : Used} (words : Nat) (general : used.general ≤ 8) :
    used.general + (integerKinds used words).count .general ≤ 8 ∧
      (integerKinds used words).count .floating = 0 := by
  rw [integerKinds]
  split
  · split
    · exact ⟨Nat.succ_le_of_lt ‹used.general < 8›, rfl⟩
    · exact ⟨general, rfl⟩
  · split
    · exact ⟨by simpa using ‹used.general + 2 ≤ 8›, rfl⟩
    · split
      · exact ⟨Nat.succ_le_of_lt ‹used.general < 8›, rfl⟩
      · exact ⟨general, rfl⟩

theorem lp64d_lawful : lp64d.Lawful (Used.WithinFiles 8 8) where
  general _ _ _ := Nat.le_refl _
  floating _ _ _ := Nat.le_refl _
  stack _ _ _ := rfl
  stays used argument within := by
    obtain ⟨general, floating⟩ := within
    have integer : ∀ words, used.general + (integerKinds used words).count .general ≤ 8 ∧
        used.floating + (integerKinds used words).count .floating ≤ 8 := by
      intro words
      obtain ⟨fits, none⟩ := integerKinds_within words general
      rw [none]
      exact ⟨fits, floating⟩
    simp only [lp64d, Used.WithinFiles, Used.takeAll_eq]
    cases argument with
    | scalar isFloating =>
        cases isFloating with
        | true =>
            simp only [lp64dKinds]
            split
            · exact ⟨general, Nat.succ_le_of_lt ‹used.floating < 8›⟩
            · exact integer 1
        | false => exact integer 1
    | record size fields =>
        simp only [lp64dKinds]
        split
        case isTrue fits => exact fits.2
        case isFalse => exact integer _

theorem microsoft_lawful : microsoft.Lawful Used.Together where
  general used argument _ := by
    simp only [microsoft, microsoftAfter, microsoftKinds, Used.takeAll_eq]
    split
    · split
      · exact Nat.le_succ _
      · exact Nat.le_refl _
    · exact Nat.le_refl _
  floating used argument _ := by
    simp only [microsoft, microsoftAfter, microsoftKinds, Used.takeAll_eq]
    split
    · split
      · exact Nat.le_refl _
      · exact Nat.le_succ _
    · exact Nat.le_refl _
  stack used argument _ := by
    simp only [microsoft, microsoftAfter, microsoftKinds, Used.takeAll_eq]
    split
    · split
      · rfl
      · rfl
    · rfl
  stays used argument together := by
    obtain ⟨⟨general, floating⟩, same⟩ := together
    simp only [microsoft, microsoftAfter]
    split
    case isTrue room =>
      refine ⟨⟨room, ?_⟩, ?_⟩
      · dsimp only
        omega
      · dsimp only
        omega
    case isFalse => exact ⟨⟨general, floating⟩, same⟩

end Calling
