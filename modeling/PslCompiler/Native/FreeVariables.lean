import PslCompiler.Native.ClosureForms

/-! # Free variables of forms

Which variables a form refers to under lexical scoping, by the positions that are evaluated, and the
forms in which the compiler's search finds exactly those.
-/

namespace Native

section Reference

variable (wanted : SourceSymbol)

/-- The symbols that are no variables. -/
def constantP (symbol : SourceSymbol) : Bool :=
  symbol = .word .true || symbol = .word .nil

/-- The symbols of a list of parameters or names. -/
def namesOf : Syntax → List SourceSymbol
  | .none => []
  | .node (.symbol symbol) _ next => symbol :: namesOf next
  | .node _ _ next => namesOf next

/-- The variables that the bindings of a LET bind. -/
def letVariables : Syntax → List SourceSymbol
  | .none => []
  | .node .list (.node (.symbol symbol) _ _) next => symbol :: letVariables next
  | .node _ _ next => letVariables next

mutual

/-- Whether a form refers to a variable: it is that variable, or one of its evaluated parts refers to
it where the form does not bind it. -/
def nodeFreeP : SyntaxKind → Syntax → Bool
  | .symbol symbol, _ => symbol = wanted && !constantP symbol
  | .function, .node .list (.node (.symbol (.word .lambda)) _ (.node .list parameters body)) _ =>
      !(namesOf parameters).contains wanted && freeInP body
  | .list, .node (.symbol (.word word)) _ arguments => operatorFreeP word arguments
  | .list, .node _ _ arguments => freeInP arguments
  | _, _ => false

/-- The arguments of an operator that are evaluated. -/
def operatorFreeP : SourceWord → Syntax → Bool
  | .letForm, .node .list bindings body =>
      initializersFreeP bindings || (!(letVariables bindings).contains wanted && freeInP body)
  | .lambda, .node .list parameters body =>
      !(namesOf parameters).contains wanted && freeInP body
  | .function, .node .list (.node (.symbol (.word .lambda)) _ (.node .list parameters body)) _ =>
      !(namesOf parameters).contains wanted && freeInP body
  | .cond, clauses => clausesFreeP clauses
  | .multipleValueBind, .node .list names (.node kind first body) =>
      nodeFreeP kind first || (!(namesOf names).contains wanted && freeInP body)
  | .wrapCast, .node _ _ operands => freeInP operands
  | .ptrCast, .node _ _ operands => freeInP operands
  | .ptrFromAddress, .node _ _ operands => freeInP operands
  | .ffiCall, .node _ _ operands => freeInP operands
  | .true, arguments => freeInP arguments
  | .nil, arguments => freeInP arguments
  | _, _ => false

/-- One of several forms refers to the variable. -/
def freeInP : Syntax → Bool
  | .none => false
  | .node kind first next => nodeFreeP kind first || freeInP next

/-- An initial value of a LET, which is not in the scope of its variables. -/
def initializersFreeP : Syntax → Bool
  | .none => false
  | .node .list (.node _ _ (.node kind first _)) next =>
      nodeFreeP kind first || initializersFreeP next
  | .node _ _ next => initializersFreeP next

/-- A test or a form of a clause. -/
def clausesFreeP : Syntax → Bool
  | .none => false
  | .node .list clause next => freeInP clause || clausesFreeP next
  | .node _ _ next => clausesFreeP next

end

/-- The variable is free in a lambda. -/
def lambdaFreeP : Syntax → Bool
  | .node .list first _ => nodeFreeP wanted .list first
  | _ => false

end Reference

/-! ## Forms that the search reads right -/

section Regular

variable (wanted : SourceSymbol)

/-- The symbol stands somewhere in these nodes. -/
def mentionsP : Syntax → Bool
  | .none => false
  | .node kind first next => kind = .symbol wanted || mentionsP first || mentionsP next

/-- The operators that the search treats in a way of their own. -/
def searchedWordP (kind : SyntaxKind) : Bool :=
  kind = .symbol (.word .letForm) || kind = .symbol (.word .lambda) ||
    kind = .symbol (.word .function) || kind = .symbol (.word .quote)

mutual

/-- The name is not written where the form does not evaluate it but the search looks, and is not used
where the form evaluates it but the search does not look. -/
def nodeRegularP : SyntaxKind → Syntax → Bool
  | .symbol symbol, _ => symbol ≠ wanted || !constantP symbol
  | .function, .node .list (.node (.symbol (.word .lambda)) _
      (.node .list (.node (.symbol parameter) _ .none) body)) _ =>
      parameter = wanted || regularInP body
  | .function, _ => false
  | .list, .node (.symbol (.word word)) _ arguments => operatorRegularP word arguments
  | .list, .node _ _ arguments => regularInP arguments
  | _, _ => true

def operatorRegularP : SourceWord → Syntax → Bool
  | .letForm, .node .list bindings body =>
      nativeAstLetBindingNameP wanted bindings = (letVariables bindings).contains wanted &&
        initializersRegularP bindings &&
        ((letVariables bindings).contains wanted || regularInP body)
  | .letForm, _ => false
  | .lambda, .node .list (.node (.symbol parameter) _ .none) body =>
      parameter = wanted || regularInP body
  | .lambda, _ => false
  | .function, .node .list (.node (.symbol (.word .lambda)) _
      (.node .list (.node (.symbol parameter) _ .none) body)) .none =>
      parameter = wanted || regularInP body
  | .function, _ => false
  | .quote, _ => true
  | .cond, clauses => clausesRegularP clauses
  | .multipleValueBind, .node .list names (.node kind first body) =>
      !mentionsP wanted names && nodeRegularP kind first && regularInP body
  | .multipleValueBind, _ => false
  | .wrapCast, .node kind first operands =>
      !mentionsP wanted (.node kind first .none) && regularInP operands
  | .ptrCast, .node kind first operands =>
      !mentionsP wanted (.node kind first .none) && regularInP operands
  | .ptrFromAddress, .node kind first operands =>
      !mentionsP wanted (.node kind first .none) && regularInP operands
  | .ffiCall, .node kind first operands =>
      !mentionsP wanted (.node kind first .none) && regularInP operands
  | .ffiAddressOf, arguments => !mentionsP wanted arguments
  | _, arguments => regularInP arguments

def regularInP : Syntax → Bool
  | .none => true
  | .node kind first next => nodeRegularP kind first && regularInP next

def initializersRegularP : Syntax → Bool
  | .none => true
  | .node .list (.node _ _ (.node kind first _)) next =>
      nodeRegularP kind first && initializersRegularP next
  | .node _ _ _ => false

/-- The test of a clause does not refer to the variable. -/
def clausesRegularP : Syntax → Bool
  | .none => true
  | .node .list (.node kind first forms) next =>
      !searchedWordP kind && !nodeFreeP wanted kind first && regularInP forms &&
        clausesRegularP next
  | .node _ _ _ => false

end

end Regular

/-! ## Levels -/

mutual

/-- The levels that the search of a form takes. -/
def nodeLevels : SyntaxKind → Syntax → Nat
  | .function, .node kind first _ => 1 + nodeLevels kind first
  | .list, .node (.symbol (.word .letForm)) _ (.node _ bindings body) =>
      2 + max (initializersLevels bindings) (siblingsLevels body)
  | .list, .node (.symbol (.word .lambda)) _ (.node _ _ body) => 2 + siblingsLevels body
  | .list, .node (.symbol (.word .quote)) _ _ => 1
  | .list, .node _ _ arguments => 1 + siblingsLevels arguments
  | _, _ => 1

/-- A form that follows others is a level deeper than the one before it. -/
def siblingsLevels : Syntax → Nat
  | .none => 0
  | .node kind first next => 1 + max (nodeLevels kind first) (siblingsLevels next)

def initializersLevels : Syntax → Nat
  | .none => 0
  | .node _ (.node _ _ (.node kind first _)) next =>
      1 + max (nodeLevels kind first) (initializersLevels next)
  | .node _ _ next => 1 + initializersLevels next

end

end Native
