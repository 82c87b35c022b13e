import PslCompiler.Stage0.Closures
import PslCompiler.Stage0.Execution
import PslCompiler.Stage0.LexicalNames

/-! # The analysis of lambdas

The front end turns forms with lambdas into HIR trees and further functions. Of the other forms only
their scoping is kept here: what an operator does with its operands is an operation of the tree, with
the truth tests and conversions that the front end puts around an operand.
-/

namespace Stage0

/-- Forms after macro expansion. A reference has the type of its variable. -/
inductive Form
  | operation (kind : HirKind) (type : Ty) (operands : List Form)
  | reference (symbol : LispSymbol) (type : Ty)
  | progn (forms : List Form)
  | letForm (bindings : List (LispSymbol × Form)) (body : List Form)
  | ifForm (test consequent alternative : Form)
  | whileForm (test : Form) (body : List Form)
  | lambda (parameter : LispSymbol) (body : List Form)

/-- A function of the source. -/
structure SourceFunction where
  signature : Signature
  parameters : List (LispSymbol × Ty)
  body : List Form

/-- The functions that are declared with the numbers of their parameters, the number of lambdas so
far, and the functions made of them. -/
structure AnalysisContext where
  declared : List (String × Nat)
  counter : Nat := 0
  generated : List FunctionDef := []

/-- The runtime functions that operators stand for. -/
def runtimeOperations : List String :=
  ["psl_rt_cons", "psl_rt_car", "psl_rt_cdr", "psl_rt_eq", "psl_rt_make_symbol",
    "psl_rt_symbol_name", "psl_rt_package_name", "psl_rt_call_closure", "psl_rt_fixnum",
    "psl_rt_unbox_fixnum", "psl_rt_make_string", "psl_rt_string_byte", "psl_rt_string_set_byte",
    "psl_rt_make_package", "psl_rt_intern", "psl_rt_make_value_vector_precise",
    "psl_rt_value_vector_length", "psl_rt_value_vector_ref", "psl_rt_value_vector_set",
    "psl_rt_value_vector_push_precise", "psl_rt_collect", "psl_rt_truthy", "psl_rt_values2",
    "psl_rt_nth_value", "psl_rt_make_string_from_bytes"]

/-- An operation of the source calls a declared function with as many operands as it has parameters,
or a function of the runtime. Literals and addresses have no operands. -/
def acceptedP (declared : List (String × Nat)) (kind : HirKind) (count : Nat) : Bool :=
  match kind with
  | .call name =>
      match declared.lookup name with
      | some parameters => parameters == count
      | none => runtimeOperations.contains name
  | .literal _ | .dataAddress _ _ => count == 0
  | _ => true

def undeclaredP (context : AnalysisContext) (name : String) : Bool :=
  (context.declared.lookup name).isNone

def lambdaName (counter : Nat) : String :=
  "psl_lambda_" ++ counter.repr

def signatureKnownP (context : AnalysisContext) (name : String) : Bool :=
  !undeclaredP context name ||
    (context.generated.map fun function => function.signature.name).contains name

def prognType (nodes : List Hir) : Ty :=
  match nodes.getLast? with
  | some node => node.type
  | none => .void

section Analysis

variable (names : NameTable)

/-- The name of a variable of the source. -/
def variableName (symbol : LispSymbol) : Check String :=
  match names.nameOf (.source symbol) with
  | some name => .ok name
  | none => .error "invalid lexical variable"

/-- The name of the list of captured values of a lambda. -/
def environmentName (number : Nat) : Check String :=
  match names.nameOf (.environment number) with
  | some name => .ok name
  | none => .error "invalid lexical variable"

/-- The function that is made of a lambda. It takes the list of captured values and the argument, and
binds the captured variables around the body. -/
def lambdaFunction (number : Nat) (environmentName argumentName : String)
    (captures : List (String × Ty)) (body : Hir) : FunctionDef :=
  let bindings := capturedBindingNodes captures (.node (.variable environmentName) .value [] [])
  { signature :=
      { name := lambdaName number, arguments := [.value, .value], result := .value, localP := true }
    parameters := [(environmentName, .value), (argumentName, .value)]
    body := if bindings.isEmpty then body else .node .letForm .value bindings [body] }

/-- Finish a lambda whose body has been analyzed. -/
def finishLambda (number : Nat) (environment : List (String × Ty)) (argumentName : String)
    (body : Hir) (context : AnalysisContext) : Check (Hir × AnalysisContext) := do
  let captures ← requiredValueCaptures (visibleBindings environment argumentName) body argumentName
  let environmentName ← environmentName names number
  let name := lambdaName number
  require (captures.isEmpty || undeclaredP context "psl_rt_car")
    "runtime symbol psl_rt_car conflicts with a source declaration"
  require (captures.isEmpty || undeclaredP context "psl_rt_cdr")
    "runtime symbol psl_rt_cdr conflicts with a source declaration"
  require (!signatureKnownP context name) ("generated closure name conflicts with " ++ name)
  require (captures.isEmpty || undeclaredP context "psl_rt_cons")
    "runtime symbol psl_rt_cons conflicts with a source declaration"
  require (undeclaredP context "psl_rt_make_closure")
    "runtime symbol psl_rt_make_closure conflicts with a source declaration"
  return (closureNode name captures,
    { context with
      generated := context.generated ++
        [lambdaFunction number environmentName argumentName captures body] })

mutual

def analyzeForm (environment : List (String × Ty)) :
    Form → AnalysisContext → Check (Hir × AnalysisContext)
  | .operation kind type operands, context => do
      require (kind.code.isSome && acceptedP context.declared kind operands.length)
        "unsupported form"
      let (children, context) ← analyzeForms environment operands context
      return (.node kind type [] children, context)
  | .reference symbol type, context => do
      let name ← variableName names symbol
      require (environment.lookup name == some type) "unknown variable"
      return (.node (.variable name) type [] [], context)
  | .progn forms, context => do
      let (nodes, context) ← analyzeForms environment forms context
      require (!nodes.isEmpty) "empty PROGN is not supported"
      return (.node .progn (prognType nodes) [] nodes, context)
  | .letForm bindings body, context => do
      let (entries, context) ← analyzeBindings environment [] bindings context
      let scope := entries.map (fun entry => (entry.1, entry.2.type)) ++ environment
      let (nodes, context) ← analyzeForms scope body context
      require (!nodes.isEmpty) "LET requires bindings and a body"
      return (.node .letForm (prognType nodes) entries
        [.node .progn (prognType nodes) [] nodes], context)
  | .ifForm test consequent alternative, context => do
      let (condition, context) ← analyzeForm environment test context
      let (first, context) ← analyzeForm environment consequent context
      let (second, context) ← analyzeForm environment alternative context
      require (first.type == second.type) "IF branches have different machine types"
      return (.node .ifForm first.type [] [condition, first, second], context)
  | .whileForm test body, context => do
      let (condition, context) ← analyzeForm environment test context
      let (nodes, context) ← analyzeForms environment body context
      require (!nodes.isEmpty) "WHILE requires a condition and a body"
      require (condition.type == .boolean) "WHILE condition must be a Boolean expression"
      return (.node .whileForm .boolean [] [condition, .node .progn (prognType nodes) [] nodes],
        context)
  | .lambda parameter body, context => do
      let argumentName ← variableName names parameter
      let number := context.counter
      let scope := (argumentName, .value) :: visibleBindings environment argumentName
      let (nodes, context) ← analyzeForms scope body { context with counter := number + 1 }
      require (!nodes.isEmpty) "hosted closures currently require one simple parameter"
      finishLambda names number environment argumentName (.node .progn (prognType nodes) [] nodes)
        context

def analyzeForms (environment : List (String × Ty)) :
    List Form → AnalysisContext → Check (List Hir × AnalysisContext)
  | [], context => .ok ([], context)
  | form :: rest, context => do
      let (node, context) ← analyzeForm environment form context
      let (nodes, context) ← analyzeForms environment rest context
      return (node :: nodes, context)

/-- The bindings of a LET, whose variables have to be different. -/
def analyzeBindings (environment : List (String × Ty)) (seen : List String) :
    List (LispSymbol × Form) → AnalysisContext → Check (List (String × Hir) × AnalysisContext)
  | [], context => .ok ([], context)
  | (symbol, form) :: rest, context => do
      let name ← variableName names symbol
      let (node, context) ← analyzeForm environment form context
      require (!seen.contains name) "duplicate LET variable"
      let (entries, context) ← analyzeBindings environment (name :: seen) rest context
      return ((name, node) :: entries, context)

end

/-- The named parameters of a function. -/
def namedParameters : List (LispSymbol × Ty) → Check (List (String × Ty))
  | [] => .ok []
  | (symbol, type) :: rest => do
      let name ← variableName names symbol
      let others ← namedParameters rest
      return (name, type) :: others

def analyzeDefinition (function : SourceFunction) (context : AnalysisContext) :
    Check (FunctionDef × AnalysisContext) := do
  let parameters ← namedParameters names function.parameters
  let (nodes, context) ← analyzeForms names parameters function.body context
  require (!nodes.isEmpty) "function has no body"
  require (prognType nodes == function.signature.result) "return type mismatch"
  return (⟨function.signature, parameters, .node .progn (prognType nodes) [] nodes⟩, context)

def analyzeDefinitions : List SourceFunction → AnalysisContext →
    Check (List FunctionDef × AnalysisContext)
  | [], context => .ok ([], context)
  | function :: rest, context => do
      let (definition, context) ← analyzeDefinition names function context
      let (definitions, context) ← analyzeDefinitions rest context
      return (definition :: definitions, context)

/-- Analyze the functions of a unit after all of them, and the imported ones, are declared. -/
def analyzeUnit (imports : List (String × Nat)) (functions : List SourceFunction) :
    Check (List FunctionDef × AnalysisContext) := do
  let declared := imports ++ functions.map fun function =>
    (function.signature.name, function.parameters.length)
  require (decide (declared.map Prod.fst).Nodup) "duplicate C symbol"
  analyzeDefinitions names functions { declared := declared }

/-- The functions of the source, and after them those of its lambdas. -/
def analyzeSource (imports : List (String × Nat)) (functions : List SourceFunction) :
    Check (List FunctionDef) := do
  let (definitions, context) ← analyzeUnit names imports functions
  return definitions ++ context.generated

end Analysis

end Stage0
