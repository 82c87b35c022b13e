import PslCompiler.Heaps.Objects
import PslCompiler.Stage0.Lambdas
import PslCompiler.Stage0.LoweringShape

/-! # Executing hosted programs

The meaning of whole programs, before and after lambdas are turned into functions. Calls of the
program's own functions and of closures are entered, up to a depth. Before, a closure is a lambda with
the variables around it; after, it is a function and a list of values.
-/

namespace Stage0

open Flow Heaps

/-! ## Trees and forms -/

section Execute

variable {Value World : Type}

/-- What is done with an operation and the values of its operands. -/
abbrev Apply (Value World : Type) :=
  Operation → List Value → Surroundings Operation Value World → Evaluation Value World Value

variable (apply : Apply Value World) (truth : Value → Bool)

def loop (test body : Surroundings Operation Value World → Evaluation Value World Value) :
    Nat → Surroundings Operation Value World → Evaluation Value World Unit
  | 0, before => .timeout before
  | fuel + 1, before =>
      (test before).andThen fun value after =>
        if truth value then (body after).andThen fun _ after => loop test body fuel after
        else .value () after

variable (fuel : Nat)

mutual

/-- Evaluate a tree, with the operations that perform calls left open. -/
def execute (environment : List (String × Value)) : Hir →
    Surroundings Operation Value World → Evaluation Value World Value
  | .node kind type bindings children, before =>
      match kind with
      | .literal value => apply ⟨.constant value, some type⟩ [] before
      | .dataAddress name dataType => apply ⟨.dataAddress name dataType, some type⟩ [] before
      | .variable name =>
          match environment.lookup name with
          | some value => .value value before
          | none => .stopped before
      | .progn => executeSequence environment children before
      | .letForm =>
          (executeBindings environment environment bindings before).andThen fun scope after =>
            executeSequence scope children after
      | .ifForm => executeIf environment children before
      | .whileForm =>
          (executeWhile environment children before).andThen fun _ after =>
            apply ⟨.constant (.integer 0), some .boolean⟩ [] after
      | kind =>
          (executeChildren environment children before).andThen fun operands after =>
            match kind.code with
            | some code => apply ⟨code, some type⟩ operands after
            | none => .stopped after

def executeChildren (environment : List (String × Value)) : List Hir →
    Surroundings Operation Value World → Evaluation Value World (List Value)
  | [], before => .value [] before
  | child :: rest, before =>
      (execute environment child before).andThen fun value after =>
        (executeChildren environment rest after).andThen fun values after =>
          .value (value :: values) after

def executeSequence (environment : List (String × Value)) : List Hir →
    Surroundings Operation Value World → Evaluation Value World Value
  | [], before => .stopped before
  | [last], before => execute environment last before
  | child :: rest, before =>
      (execute environment child before).andThen fun _ after =>
        executeSequence environment rest after

def executeBindings (environment scope : List (String × Value)) : List (String × Hir) →
    Surroundings Operation Value World → Evaluation Value World (List (String × Value))
  | [], before => .value scope before
  | (name, initializer) :: rest, before =>
      (execute environment initializer before).andThen fun value after =>
        executeBindings environment ((name, value) :: scope) rest after

def executeIf (environment : List (String × Value)) : List Hir →
    Surroundings Operation Value World → Evaluation Value World Value
  | [condition, ifTrue, ifFalse], before =>
      (execute environment condition before).andThen fun value after =>
        if condition.type ≠ .boolean ∨ truth value = true then execute environment ifTrue after
        else execute environment ifFalse after
  | _, before => .stopped before

def executeWhile (environment : List (String × Value)) : List Hir →
    Surroundings Operation Value World → Evaluation Value World Unit
  | [test, body], before =>
      loop truth (execute environment test) (execute environment body) fuel before
  | _, before => .stopped before

end

mutual

def Form.type : Form → Ty
  | .operation _ type _ => type
  | .reference _ type => type
  | .progn forms => lastType forms
  | .letForm _ body => lastType body
  | .ifForm _ consequent _ => consequent.type
  | .whileForm _ _ => .boolean
  | .lambda _ _ => .value

def lastType : List Form → Ty
  | [] => .void
  | [form] => form.type
  | _ :: rest => lastType rest

end

variable (close : LispSymbol → List Form → List (LispSymbol × Value) →
  Surroundings Operation Value World → Evaluation Value World Value)

mutual

/-- Evaluate a form under lexical scoping. A lambda is closed over the scope it is in. -/
def executeForm (scope : List (LispSymbol × Value)) : Form →
    Surroundings Operation Value World → Evaluation Value World Value
  | .operation kind type operands, before =>
      (executeForms scope operands before).andThen fun values after =>
        match kind.code with
        | some code => apply ⟨code, some type⟩ values after
        | none => .stopped after
  | .reference symbol _, before =>
      match scope.lookup symbol with
      | some value => .value value before
      | none => .stopped before
  | .progn forms, before => executeBody scope forms before
  | .letForm bindings body, before =>
      (executeInitializers scope scope bindings before).andThen fun inner after =>
        executeBody inner body after
  | .ifForm test consequent alternative, before =>
      (executeForm scope test before).andThen fun value after =>
        if test.type ≠ .boolean ∨ truth value = true then executeForm scope consequent after
        else executeForm scope alternative after
  | .whileForm test body, before =>
      (loop truth (executeForm scope test) (executeBody scope body) fuel before).andThen
        fun _ after => apply ⟨.constant (.integer 0), some .boolean⟩ [] after
  | .lambda parameter body, before => close parameter body scope before

def executeForms (scope : List (LispSymbol × Value)) : List Form →
    Surroundings Operation Value World → Evaluation Value World (List Value)
  | [], before => .value [] before
  | form :: rest, before =>
      (executeForm scope form before).andThen fun value after =>
        (executeForms scope rest after).andThen fun values after =>
          .value (value :: values) after

def executeBody (scope : List (LispSymbol × Value)) : List Form →
    Surroundings Operation Value World → Evaluation Value World Value
  | [], before => .stopped before
  | [last], before => executeForm scope last before
  | form :: rest, before =>
      (executeForm scope form before).andThen fun _ after => executeBody scope rest after

/-- The initial values are evaluated in the outer scope. -/
def executeInitializers (scope inner : List (LispSymbol × Value)) : List (LispSymbol × Form) →
    Surroundings Operation Value World → Evaluation Value World (List (LispSymbol × Value))
  | [], before => .value inner before
  | (symbol, form) :: rest, before =>
      (executeForm scope form before).andThen fun value after =>
        executeInitializers scope ((symbol, value) :: inner) rest after

end

end Execute

/-! ## Opaque calls

With calls as effects of the surroundings, executing a tree is evaluating it. -/

section Opaque

variable {Value World : Type} (meaning : Interpretation Operation Value World) (fuel : Nat)

theorem loop_eq (test body : Surroundings Operation Value World → Evaluation Value World Value)
    (iterations : Nat) : loop meaning.truth test body iterations =
      whileLoop meaning test body iterations := by
  induction iterations with
  | zero => rfl
  | succ iterations ih =>
      funext before
      rw [loop, whileLoop, ih]

variable {meaning fuel}

/-- Continuations that agree on every value may replace each other. -/
theorem Evaluation.andThen_congr {α β : Type} {left right : Evaluation Value World α}
    {first second : α → Surroundings Operation Value World → Evaluation Value World β}
    (evaluated : left = right) (same : ∀ value after, first value after = second value after) :
    left.andThen first = right.andThen second := by
  have equal : first = second := funext fun value => funext (same value)
  rw [evaluated, equal]

theorem executeChildren_eq {children : List Hir}
    (each : ∀ child ∈ children, ∀ environment,
      execute (applyOperation meaning) meaning.truth fuel environment child =
        evaluate meaning fuel environment child) (environment : List (String × Value)) :
    executeChildren (applyOperation meaning) meaning.truth fuel environment children =
      evaluateChildren meaning fuel environment children := by
  induction children with
  | nil => rfl
  | cons child rest ih =>
      funext before
      rw [executeChildren, evaluateChildren, each child List.mem_cons_self,
        ih fun other member => each other (List.mem_cons_of_mem _ member)]

theorem executeSequence_eq {children : List Hir}
    (each : ∀ child ∈ children, ∀ environment,
      execute (applyOperation meaning) meaning.truth fuel environment child =
        evaluate meaning fuel environment child) (environment : List (String × Value)) :
    executeSequence (applyOperation meaning) meaning.truth fuel environment children =
      evaluateSequence meaning fuel environment children := by
  induction children with
  | nil => rfl
  | cons child rest ih =>
      funext before
      have here := each child List.mem_cons_self environment
      cases rest with
      | nil => rw [executeSequence, evaluateSequence, here]
      | cons next others =>
          rw [executeSequence, evaluateSequence, here,
            ih fun other member => each other (List.mem_cons_of_mem _ member)]
          · intros
            contradiction
          · intros
            contradiction

theorem executeBindings_eq {bindings : List (String × Hir)}
    (each : ∀ binding ∈ bindings, ∀ environment,
      execute (applyOperation meaning) meaning.truth fuel environment binding.2 =
        evaluate meaning fuel environment binding.2) (environment : List (String × Value)) :
    ∀ scope, executeBindings (applyOperation meaning) meaning.truth fuel environment scope bindings =
      evaluateBindings meaning fuel environment scope bindings := by
  induction bindings with
  | nil =>
      intro scope
      rfl
  | cons binding rest ih =>
      intro scope
      funext before
      rw [executeBindings, evaluateBindings, each binding List.mem_cons_self]
      congr 1
      funext value after
      rw [ih fun other member => each other (List.mem_cons_of_mem _ member)]

theorem execute_eq_evaluate (node : Hir) : ∀ environment,
    execute (applyOperation meaning) meaning.truth fuel environment node =
      evaluate meaning fuel environment node := by
  induction node using Hir.induction with
  | node kind type bindings children bindingsEach childrenEach =>
      intro environment
      funext before
      have sequences := executeSequence_eq childrenEach
      cases kind with
      | letForm =>
          rw [execute, evaluate, executeBindings_eq bindingsEach]
          congr 1
          funext scope after
          rw [sequences]
      | progn => rw [execute, evaluate, sequences]
      | ifForm =>
          rw [execute, evaluate]
          rcases children with _ | ⟨condition, _ | ⟨ifTrue, _ | ⟨ifFalse, _ | ⟨more, others⟩⟩⟩⟩
          · rfl
          · rfl
          · rfl
          · rw [executeIf, evaluateIf, childrenEach condition (by simp), childrenEach ifTrue (by simp),
              childrenEach ifFalse (by simp)]
          · rfl
      | whileForm =>
          rw [execute, evaluate]
          rcases children with _ | ⟨test, _ | ⟨body, _ | ⟨more, others⟩⟩⟩
          · rfl
          · rfl
          · rw [executeWhile, evaluateWhile, childrenEach test (by simp), childrenEach body (by simp),
              loop_eq]
          · rfl
      | literal value => rfl
      | dataAddress name dataType => rfl
      | «variable» name => rfl
      | _ =>
          have same := executeChildren_eq childrenEach environment
          simp only [execute, evaluate]
          exact Evaluation.andThen_congr (congrFun same before) fun _ _ => rfl

end Opaque

/-! ## Runtime -/

/-- What is outside of the program: where functions and data are, what operations on words compute,
and what the functions of the runtime and of other languages do, which may differ from call to call. -/
structure Platform where
  address : String → Int
  distinct : Function.Injective address
  compute : Operation → List Int → Int
  truth : Int → Bool
  routine : Operation → Nat → Routine

/-- The functions of the runtime that the compiler itself relies on. -/
inductive RuntimeCallee
  | cons | car | cdr | makeClosure | callClosure | other
  deriving DecidableEq, Repr

def runtimeCallee (name : String) : RuntimeCallee :=
  if name = "psl_rt_cons" then .cons
  else if name = "psl_rt_car" then .car
  else if name = "psl_rt_cdr" then .cdr
  else if name = "psl_rt_make_closure" then .makeClosure
  else if name = "psl_rt_call_closure" then .callClosure
  else .other

def consKind : Nat := 1

/-- The word of NIL. -/
def nilWord : Int := 2

/-- Input 0 is the state of the runtime; the operands follow. -/
def consRoutine : Routine :=
  .create consKind [] [.input 1, .input 2] (.finish (.input 3))

/-- Take a field of a pair; NIL has NIL in both. -/
def pairRoutine (field : Nat) : Routine :=
  .inspect (.input 1) fun view =>
    match view with
    | .word value => if value = nilWord then .finish (.word nilWord) else .abort
    | .record kind _ 2 => if kind = consKind then .finish (.input (2 + field)) else .abort
    | _ => .abort

def datumBits : Datum → Int
  | .word value => value
  | .reference _ => 0

def datumTruth (truth : Int → Bool) : Datum → Bool
  | .word value => truth value
  | .reference _ => true

section Host

variable {Code : Type} (platform : Platform)

def scalarResult (operation : Operation) (operands : List Datum) : Datum :=
  match operation.code with
  | .dataAddress name _ => .word (platform.address name)
  | .constant (.integer value) => .word value
  | _ => .word (platform.compute operation (operands.map datumBits))

/-- The surroundings with one more call. -/
def recordCall (operation : Operation) (operands : List Datum)
    (before : Surroundings Operation Datum (Heap Code)) :
    Surroundings Operation Datum (Heap Code) :=
  ⟨before.world, before.trace ++ [(operation, operands)]⟩

def runRoutine (routine : Routine) (operands : List Datum)
    (before : Surroundings Operation Datum (Heap Code)) : Evaluation Datum (Heap Code) Datum :=
  match routine.run (.reference 0 :: operands) before.world with
  | (some result, heap) => .value result ⟨heap, before.trace⟩
  | (none, heap) => .stopped ⟨heap, before.trace⟩

/-- A function outside of the program. -/
def callForeign (operation : Operation) (operands : List Datum)
    (before : Surroundings Operation Datum (Heap Code)) : Evaluation Datum (Heap Code) Datum :=
  runRoutine (platform.routine operation before.trace.length) operands
    (recordCall operation operands before)

/-- The code that a value refers to. -/
def codeOf (heap : Heap Code) : Datum → Option Code
  | .word _ => none
  | .reference index =>
      match heap.objects[index]? with
      | some (.code contents) => some contents
      | _ => none

variable (callFunction : String → Option (List Datum →
  Surroundings Operation Datum (Heap Code) → Evaluation Datum (Heap Code) Datum))
variable (callCode : Code → Datum →
  Surroundings Operation Datum (Heap Code) → Evaluation Datum (Heap Code) Datum)
variable (makeCode : Int → Datum → Option Code)

def makeClosure (operation : Operation) (operands : List Datum)
    (before : Surroundings Operation Datum (Heap Code)) : Evaluation Datum (Heap Code) Datum :=
  match operands with
  | [.word address, environment] =>
      match makeCode address environment with
      | some contents => .value before.world.next ⟨before.world.allocate (.code contents), before.trace⟩
      | none => callForeign platform operation operands before
  | _ => callForeign platform operation operands before

def callClosure (operation : Operation) (operands : List Datum)
    (before : Surroundings Operation Datum (Heap Code)) : Evaluation Datum (Heap Code) Datum :=
  match operands with
  | [function, argument] =>
      match codeOf before.world function with
      | some contents => callCode contents argument (recordCall operation operands before)
      | none => callForeign platform operation operands before
  | _ => callForeign platform operation operands before

/-- Operations of a hosted program. Making pairs and closures is not recorded as a call. -/
def applyHosted : Apply Datum (Heap Code) := fun operation operands before =>
  if operation.effectP then
    match operation.code with
    | .call name =>
        match runtimeCallee name with
        | .cons => runRoutine consRoutine operands before
        | .car => runRoutine (pairRoutine 0) operands before
        | .cdr => runRoutine (pairRoutine 1) operands before
        | .makeClosure => makeClosure platform makeCode operation operands before
        | .callClosure => callClosure platform callCode operation operands before
        | .other =>
            match callFunction name with
            | some enter => enter operands (recordCall operation operands before)
            | none => callForeign platform operation operands before
    | _ => callForeign platform operation operands before
  else .value (scalarResult platform operation operands) before

end Host

/-! ## Programs -/

/-- A lambda with the variables around it. -/
structure SourceClosure where
  parameter : LispSymbol
  body : List Form
  scope : List (LispSymbol × Datum)

/-- A function with the list of values that it finds its variables in. -/
structure CodeClosure where
  function : FunctionDef
  environment : Datum

/-- The scope of a call. -/
def bindArguments {Key : Type} (parameters : List (Key × Ty)) (operands : List Datum) :
    List (Key × Datum) :=
  (parameters.map Prod.fst).zip operands

section Programs

variable (platform : Platform) (fuel : Nat)

/-- Lambdas are closed over their scope. -/
def closeLambda (parameter : LispSymbol) (body : List Form) (scope : List (LispSymbol × Datum))
    (before : Surroundings Operation Datum (Heap SourceClosure)) :
    Evaluation Datum (Heap SourceClosure) Datum :=
  .value before.world.next ⟨before.world.allocate (.code ⟨parameter, body, scope⟩), before.trace⟩

section Source

variable (functions : List SourceFunction)

/-- The operations of the source program, with calls up to a depth. -/
def sourceApply : Nat → Apply Datum (Heap SourceClosure)
  | 0 =>
      applyHosted platform
        (fun name => (functions.find? fun function => function.signature.name == name).map
          fun _ => fun _ before => .timeout before)
        (fun _ _ before => .timeout before) (fun _ _ => none)
  | depth + 1 =>
      applyHosted platform
        (fun name => (functions.find? fun function => function.signature.name == name).map
          fun function => fun operands before =>
            executeBody (sourceApply depth) (datumTruth platform.truth) fuel closeLambda
              (bindArguments function.parameters operands) function.body before)
        (fun closure argument before =>
          executeBody (sourceApply depth) (datumTruth platform.truth) fuel closeLambda
            ((closure.parameter, argument) :: closure.scope) closure.body before)
        (fun _ _ => none)

end Source

section Target

variable (definitions generated : List FunctionDef)

/-- The generated function at an address. -/
def functionAt (address : Int) (environment : Datum) : Option CodeClosure :=
  (generated.find? fun function => platform.address function.signature.name == address).map
    fun function => ⟨function, environment⟩

/-- The operations of the first-order program, with calls up to a depth. -/
def targetApply : Nat → Apply Datum (Heap CodeClosure)
  | 0 =>
      applyHosted platform
        (fun name => ((definitions ++ generated).find? fun function =>
          function.signature.name == name).map fun _ => fun _ before => .timeout before)
        (fun _ _ before => .timeout before) (functionAt platform generated)
  | depth + 1 =>
      applyHosted platform
        (fun name => ((definitions ++ generated).find? fun function =>
          function.signature.name == name).map fun function => fun operands before =>
            execute (targetApply depth) (datumTruth platform.truth) fuel
              (bindArguments function.parameters operands) function.body before)
        (fun closure argument before =>
          execute (targetApply depth) (datumTruth platform.truth) fuel
            (bindArguments closure.function.parameters [closure.environment, argument])
            closure.function.body before)
        (functionAt platform generated)

end Target

end Programs

end Stage0
