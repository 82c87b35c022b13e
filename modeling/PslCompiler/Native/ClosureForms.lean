import PslCompiler.Stage0.Syntax
import Mathlib.Data.List.Nodup

/-! # The search for captured variables

Before a lambda is lifted out of its function, the compiler looks through its body for the variables
of the function. It goes through the syntax tree as the parser left it, with a limit on the depth.
-/

namespace Native

open Stage0

/-! ## Syntax trees -/

/-- The symbols that the compiler knows by their identity and that decide how a form is read. -/
inductive SourceWord
  | letForm
  | lambda
  | function
  | quote
  | cond
  | multipleValueBind
  | wrapCast
  | ptrCast
  | ptrFromAddress
  | ffiCall
  | ffiAddressOf
  | true
  | nil
  deriving DecidableEq, Repr

/-- A symbol by its identity: one of those above, or another one. -/
inductive SourceSymbol
  | word (word : SourceWord)
  | name (identity : Nat)
  deriving DecidableEq, Repr

/-- The kinds of nodes: lists (1), the quote mark (3), symbols (8), the function mark (9), and those of
numbers, strings and other literals. -/
inductive SyntaxKind
  | list
  | quote
  | symbol (symbol : SourceSymbol)
  | function
  | literal
  deriving DecidableEq, Repr

/-- A reference to a node with its first child and the node after it. -/
inductive Syntax
  | none
  | node (kind : SyntaxKind) (first next : Syntax)
  deriving DecidableEq, Repr

def astFirst : Syntax → Syntax
  | .none => .none
  | .node _ first _ => first

def astNext : Syntax → Syntax
  | .none => .none
  | .node _ _ next => next

def astListP : Syntax → Bool
  | .node .list _ _ => true
  | _ => false

/-- Whether a node is the symbol; the text of a node that is no symbol is not that of a symbol. -/
def astSameNameP (left : Syntax) (right : SourceSymbol) : Bool :=
  match left with
  | .node (.symbol symbol) _ _ => symbol = right
  | _ => false

def astPackageNameP (head : Syntax) (word : SourceWord) : Bool :=
  astSameNameP head (.word word)

/-! ## Occurrences -/

section Search

variable (wanted : SourceSymbol)

/-- Whether a LET binds the name. The reference is to its first binding already, and each step goes
to the first child of what it looks at. -/
def nativeAstLetBindingNameP : Syntax → Bool
  | .none => false
  | .node _ .none _ => false
  | .node _ (.node _ first next) _ => astSameNameP first wanted || nativeAstLetBindingNameP next

/-- How a list is searched, from the searches of its parts. -/
def nativeAstListNameOccursP (siblings : Syntax → Bool) (letForm : Syntax → Syntax → Bool)
    (lambda : Syntax → Bool) (form : Syntax) : Bool :=
  let head := astFirst form
  let firstArgument := astNext head
  if astPackageNameP head .letForm then letForm (astFirst firstArgument) (astNext firstArgument)
  else if astPackageNameP head .lambda then lambda form
  else if astPackageNameP head .function then siblings firstArgument
  else if astPackageNameP head .quote then false
  else siblings firstArgument

mutual

/-- Search a form with a number of levels that are left. Below the last level nothing is found. -/
def nativeAstNameOccursInFormsP : Nat → Bool → Syntax → Bool
  | 0, _, _ => false
  | _ + 1, _, .none => false
  | levels + 1, shadowed, .node kind first next =>
      match kind with
      | .symbol _ => if shadowed then false else astSameNameP (.node kind first next) wanted
      | .function => nativeAstNameOccursInFormsP levels shadowed first
      | .list =>
          nativeAstListNameOccursP (nativeAstSiblingsNameOccursP levels shadowed)
            (nativeAstLetNameOccursP levels shadowed) (nativeAstLambdaNameOccursP levels shadowed)
            (.node .list first next)
      | _ => false

def nativeAstSiblingsNameOccursP : Nat → Bool → Syntax → Bool
  | 0, _, _ => false
  | _ + 1, _, .none => false
  | levels + 1, shadowed, .node kind first next =>
      nativeAstNameOccursInFormsP levels shadowed (.node kind first next) ||
        nativeAstSiblingsNameOccursP levels shadowed next

def nativeAstLetInitializersNameOccursP : Nat → Bool → Syntax → Bool
  | 0, _, _ => false
  | _ + 1, _, .none => false
  | levels + 1, shadowed, .node _ first next =>
      nativeAstNameOccursInFormsP levels shadowed (astNext first) ||
        nativeAstLetInitializersNameOccursP levels shadowed next

def nativeAstLetNameOccursP : Nat → Bool → Syntax → Syntax → Bool
  | 0, _, _, _ => false
  | levels + 1, shadowed, bindings, body =>
      if nativeAstLetInitializersNameOccursP levels shadowed bindings then true
      else if shadowed then false
      else if nativeAstLetBindingNameP wanted bindings then false
      else nativeAstSiblingsNameOccursP levels shadowed body

def nativeAstLambdaNameOccursP : Nat → Bool → Syntax → Bool
  | 0, _, _ => false
  | levels + 1, shadowed, lambda =>
      let parameters := astNext (astFirst lambda)
      nativeAstSiblingsNameOccursP levels
        (if astSameNameP (astFirst parameters) wanted then true else shadowed) (astNext parameters)

end

/-- The depths from 0 to 1024 are searched. -/
def nativeLambdaNeedsCaptureP (lambda : Syntax) : Bool :=
  nativeAstLambdaNameOccursP wanted 1025 false lambda

end Search

/-! ## Captures -/

/-- The variables around a lambda: the parameters of its function, of which one may have no name and
no two have the same, and the active bindings from the innermost outwards. -/
structure LexicalScope where
  parameters : List (Option SourceSymbol × Ty)
  bindings : List (SourceSymbol × Ty)
  distinct : (parameters.filterMap Prod.fst).Nodup

/-- The captures of a plan, and the room for more in the table. -/
structure CapturePlan where
  captures : List SourceSymbol := []
  room : Nat
  deriving DecidableEq, Repr

def nativeClosureCaptureDuplicateP (name : SourceSymbol) (bindings : List (SourceSymbol × Ty)) :
    Bool :=
  bindings.any fun binding => binding.1 = name

def nativeClosureRecordCapture (plan : CapturePlan) (name : SourceSymbol) : Option CapturePlan :=
  if plan.room = 0 then none else some ⟨plan.captures ++ [name], plan.room - 1⟩

section Prepare

variable (lambda : Syntax)

/-- Go through the active bindings; those further in come first. -/
def nativeClosurePrepareCapturesFrom (inner : List (SourceSymbol × Ty)) :
    List (SourceSymbol × Ty) → CapturePlan → Option CapturePlan
  | [], plan => some plan
  | (name, type) :: outer, plan =>
      let rest := nativeClosurePrepareCapturesFrom (inner ++ [(name, type)]) outer
      if nativeClosureCaptureDuplicateP name inner then rest plan
      else if nativeLambdaNeedsCaptureP name lambda then
        if type = .value then (nativeClosureRecordCapture plan name).bind rest else none
      else rest plan

/-- Go through the parameters that no active binding hides. -/
def nativeClosurePrepareParametersFrom (bindings : List (SourceSymbol × Ty)) :
    List (Option SourceSymbol × Ty) → CapturePlan → Option CapturePlan
  | [], plan => some plan
  | (none, _) :: later, plan => nativeClosurePrepareParametersFrom bindings later plan
  | (some name, type) :: later, plan =>
      let rest := nativeClosurePrepareParametersFrom bindings later
      if nativeClosureCaptureDuplicateP name bindings then rest plan
      else if nativeLambdaNeedsCaptureP name lambda then
        if type = .value then (nativeClosureRecordCapture plan name).bind rest else none
      else rest plan

/-- The captures of a lambda, or none when it is rejected. -/
def nativeClosurePrepare (scope : LexicalScope) (room : Nat) : Option (List SourceSymbol) := do
  let plan ← nativeClosurePrepareParametersFrom lambda scope.bindings scope.parameters ⟨[], room⟩
  let plan ← nativeClosurePrepareCapturesFrom lambda [] scope.bindings plan
  return plan.captures

end Prepare

/-! ## Lambda forms -/

/-- A lambda with one parameter and a body. -/
def nativeLambdaOriginP (origin : Syntax) : Bool :=
  astListP origin && astPackageNameP (astFirst origin) .lambda &&
    match astNext (astFirst origin) with
    | .node .list (.node (.symbol argument) _ .none) body =>
        argument ≠ .word .true && argument ≠ .word .nil && body ≠ .none
    | _ => false

end Native
