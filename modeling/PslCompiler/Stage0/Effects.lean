import PslCompiler.Flow.Certification
import PslCompiler.Stage0.Execution
import PslCompiler.Stage0.LoweringShape

/-! # Allocation effects in Stage 0

Which functions of a unit cannot allocate, and whether every WITHOUT-ALLOCATION region calls only
such functions. All functions of the unit start as allocation-free, and passes over the unit remove
those that call something uncertified.
-/

namespace Stage0

open Flow

/-! ## The calls of a tree -/

namespace Hir

/-- The nodes below a node; the initializers of a LET are in its value slot. -/
def nestedNodes : Hir → List Hir
  | node .letForm _ bindings children => bindings.map Prod.snd ++ children
  | node _ _ _ children => children

/-- The callee of a node that is itself a call. -/
def ownCall : Hir → List String
  | node (.call callee) _ _ _ => [callee]
  | _ => []

mutual

def callNames : Hir → List String
  | node kind type bindings children =>
      ownCall (node kind type bindings children) ++
        match kind with
        | .letForm => callNamesOfBindings bindings ++ callNamesOfNodes children
        | _ => callNamesOfNodes children

def callNamesOfNodes : List Hir → List String
  | [] => []
  | child :: rest => callNames child ++ callNamesOfNodes rest

def callNamesOfBindings : List (String × Hir) → List String
  | [] => []
  | (_, initializer) :: rest => callNames initializer ++ callNamesOfBindings rest

end

theorem callNamesOfNodes_eq (nodes : List Hir) : callNamesOfNodes nodes = nodes.flatMap callNames := by
  induction nodes with
  | nil => rw [callNamesOfNodes, List.flatMap_nil]
  | cons child rest ih => rw [callNamesOfNodes, List.flatMap_cons, ih]

theorem callNamesOfBindings_eq (bindings : List (String × Hir)) :
    callNamesOfBindings bindings = (bindings.map Prod.snd).flatMap callNames := by
  induction bindings with
  | nil => rw [callNamesOfBindings, List.map_nil, List.flatMap_nil]
  | cons binding rest ih =>
      rw [callNamesOfBindings, List.map_cons, List.flatMap_cons, ih]

/-- The calls of a tree are its own and those of the nodes below it. -/
theorem callNames_eq (tree : Hir) :
    tree.callNames = tree.ownCall ++ tree.nestedNodes.flatMap callNames := by
  cases tree with
  | node kind type bindings children =>
      cases kind with
      | letForm =>
          simp only [callNames, nestedNodes, callNamesOfBindings_eq, callNamesOfNodes_eq,
            List.flatMap_append]
      | _ => simp only [callNames, nestedNodes, callNamesOfNodes_eq]

theorem callNames_of_nested {tree child : Hir} (nested : child ∈ tree.nestedNodes) {name : String}
    (called : name ∈ child.callNames) : name ∈ tree.callNames := by
  rw [callNames_eq]
  exact List.mem_append_right _ (List.mem_flatMap.mpr ⟨child, nested, called⟩)

end Hir

/-! ## Certification -/

def callAllocationFreeP (name : String) (signatures : Signatures) (safeFunctions : String → Bool) :
    Bool :=
  match signatures name with
  | none => false
  | some signature =>
      if signature.externalP then signature.effect == .none else safeFunctions name

def functionAllocationFreeP (function : FunctionDef) (signatures : Signatures)
    (safeFunctions : String → Bool) : Bool :=
  function.body.callNames.all fun name => callAllocationFreeP name signatures safeFunctions

/-- The table of functions that cannot allocate, after passes until nothing changes. -/
def allocationFreeFunctions (functions : List FunctionDef) (signatures : Signatures) :
    String → Bool :=
  settle (fun function => function.signature.name)
    (fun safe function => functionAllocationFreeP function signatures safe) functions
    fun name => functions.any fun function => function.signature.name == name

def verifyAllocationRegion (region : Hir) (signatures : Signatures)
    (safeFunctions : String → Bool) : Check Unit :=
  match region.callNames.find? fun name => !callAllocationFreeP name signatures safeFunctions with
  | some callee => .error ("WITHOUT-ALLOCATION cannot certify call to " ++ callee)
  | none => .ok ()

/-- Record the inferred effects in the signatures of the functions and check every region. -/
def verifyAllocationRegions (functions : List FunctionDef) (signatures : Signatures)
    (allocationRegions : List Hir) : Check (List FunctionDef) := do
  let safe := allocationFreeFunctions functions signatures
  checkAll (fun region => verifyAllocationRegion region signatures safe) allocationRegions
  return functions.map fun function =>
    { function with signature :=
      { function.signature with
        effect := if safe function.signature.name then .none else .allocates } }

/-- An analyzed unit: its functions, the signatures of all that they can call, and the bodies of
its WITHOUT-ALLOCATION forms. Every function has registered its own signature. -/
structure AnalyzedUnit where
  functions : List FunctionDef
  signatures : Signatures
  allocationRegions : List Hir
  registered : ∀ function ∈ functions,
    signatures function.signature.name = some function.signature
  internal : ∀ function ∈ functions, function.signature.externalP = false

namespace AnalyzedUnit

variable (unit : AnalyzedUnit)

def safeFunctions : String → Bool :=
  allocationFreeFunctions unit.functions unit.signatures

/-- A function of the unit contains a call. -/
def Calls (caller callee : String) : Prop :=
  ∃ function ∈ unit.functions, function.signature.name = caller ∧ callee ∈ function.body.callNames

/-- The name of an external function whose effect is not `:none`, or of no known function. -/
def MayAllocate (name : String) : Prop :=
  (∃ signature, unit.signatures name = some signature ∧ signature.externalP = true ∧
    signature.effect ≠ .none) ∨
  (∀ signature, unit.signatures name = some signature → signature.externalP = false) ∧
    ∀ function ∈ unit.functions, function.signature.name ≠ name

/-- A chain of calls leads from the function to one that may allocate. -/
def ReachesAllocation : String → Prop :=
  Tainted unit.Calls unit.MayAllocate

/-- What the signature table alone says about a name. -/
def decided (name : String) : Option Bool :=
  match unit.signatures name with
  | none => some false
  | some signature => if signature.externalP then some (signature.effect == .none) else none

theorem callAllocationFreeP_eq (safe : String → Bool) (name : String) :
    callAllocationFreeP name unit.signatures safe = passes unit.decided safe name := by
  unfold callAllocationFreeP passes decided
  cases unit.signatures name with
  | none => rfl
  | some signature =>
      by_cases external : signature.externalP = true
      · simp only [external, ↓reduceIte, Option.getD_some]
      · simp only [external, Bool.false_eq_true, ↓reduceIte, Option.getD_none]

theorem functionAllocationFreeP_eq (safe : String → Bool) (function : FunctionDef) :
    functionAllocationFreeP function unit.signatures safe =
      calleesPass (fun function => function.body.callNames) unit.decided safe function := by
  unfold functionAllocationFreeP calleesPass
  congr 1
  funext name
  exact unit.callAllocationFreeP_eq safe name

variable {unit}

theorem decided_of_mem {function : FunctionDef} (member : function ∈ unit.functions) :
    unit.decided function.signature.name = none := by
  unfold decided
  simp only [unit.registered function member, unit.internal function member, Bool.false_eq_true,
    ↓reduceIte]

theorem itemCalls_iff {caller callee : String} :
    ItemCalls (fun function => function.signature.name) (fun function => function.body.callNames)
      unit.decided unit.functions caller callee ↔ unit.Calls caller callee := by
  constructor
  · rintro ⟨-, calls⟩
    exact calls
  · rintro ⟨function, member, rfl, called⟩
    exact ⟨decided_of_mem member, function, member, rfl, called⟩

/-- The names refused in advance are those that may allocate. -/
theorem refused_iff {name : String} :
    Refused unit.decided
      (fun name => unit.functions.any fun function => function.signature.name == name) name ↔
      unit.MayAllocate name := by
  have unnamed : (unit.functions.any fun function => function.signature.name == name) = false ↔
      ∀ function ∈ unit.functions, function.signature.name ≠ name := by
    simp only [List.any_eq_false, beq_iff_eq, ne_eq]
  unfold Refused passes decided MayAllocate
  cases found : unit.signatures name with
  | none =>
      simp only [Option.getD_some, true_iff]
      right
      refine ⟨fun signature absent => (Option.some_ne_none _ absent.symm).elim, ?_⟩
      intro function member same
      rw [← same, unit.registered function member] at found
      cases found
  | some signature =>
      by_cases external : signature.externalP = true
      · simp only [external, ↓reduceIte, Option.getD_some, beq_eq_false_iff_ne, ne_eq,
          Option.some.injEq]
        constructor
        · intro effect
          exact .inl ⟨signature, rfl, external, effect⟩
        · rintro (⟨_, rfl, -, effect⟩ | ⟨inside, -⟩)
          · exact effect
          · rw [inside signature rfl] at external
            cases external
      · simp only [external, Bool.false_eq_true, ↓reduceIte, Option.getD_none, unnamed,
          Option.some.injEq]
        constructor
        · intro absent
          refine .inr ⟨?_, absent⟩
          rintro _ rfl
          exact Bool.eq_false_iff.mpr external
        · rintro (⟨_, rfl, outside, -⟩ | ⟨-, absent⟩)
          · exact (external outside).elim
          · exact absent

/-- A call is certified exactly when no chain of calls from it reaches an allocation. -/
theorem callAllocationFreeP_iff (name : String) :
    callAllocationFreeP name unit.signatures unit.safeFunctions = true ↔
      ¬unit.ReachesAllocation name := by
  have calls : ItemCalls (fun function => function.signature.name)
      (fun function => function.body.callNames) unit.decided unit.functions = unit.Calls := by
    funext caller callee
    exact propext itemCalls_iff
  have refused : Refused unit.decided
      (fun name => unit.functions.any fun function => function.signature.name == name) =
      unit.MayAllocate := by
    funext name
    exact propext refused_iff
  have check : (fun safe function => functionAllocationFreeP function unit.signatures safe) =
      calleesPass (fun function => function.body.callNames) unit.decided := by
    funext safe function
    exact unit.functionAllocationFreeP_eq safe function
  unfold safeFunctions allocationFreeFunctions ReachesAllocation
  rw [unit.callAllocationFreeP_eq, check, settle_passes_iff, calls, refused]

/-- A function of the unit is certified exactly when no chain of calls from it reaches an
allocation. -/
theorem safeFunctions_iff {function : FunctionDef} (member : function ∈ unit.functions) :
    unit.safeFunctions function.signature.name = true ↔
      ¬unit.ReachesAllocation function.signature.name := by
  rw [← callAllocationFreeP_iff, callAllocationFreeP_eq]
  unfold passes
  rw [decided_of_mem member, Option.getD_none]

/-- A region is accepted exactly when none of its calls can reach an allocation. -/
theorem verifyAllocationRegion_iff (region : Hir) :
    verifyAllocationRegion region unit.signatures unit.safeFunctions = .ok () ↔
      ∀ name ∈ region.callNames, ¬unit.ReachesAllocation name := by
  unfold verifyAllocationRegion
  cases found : region.callNames.find? fun name =>
      !callAllocationFreeP name unit.signatures unit.safeFunctions with
  | none =>
      refine ⟨fun _ name called => ?_, fun _ => rfl⟩
      have passing := List.find?_eq_none.mp found name called
      rw [Bool.not_eq_true', Bool.not_eq_false] at passing
      exact (callAllocationFreeP_iff name).mp passing
  | some callee =>
      refine ⟨fun accepted => (by cases accepted), fun clean => ?_⟩
      have fails := List.find?_some found
      have passing := (callAllocationFreeP_iff callee).mpr
        (clean callee (List.mem_of_find?_eq_some found))
      rw [passing] at fails
      cases fails

def Accepted (unit : AnalyzedUnit) : Prop :=
  ∃ functions,
    verifyAllocationRegions unit.functions unit.signatures unit.allocationRegions = .ok functions

theorem accepted_iff : unit.Accepted ↔ ∀ region ∈ unit.allocationRegions,
    ∀ name ∈ region.callNames, ¬unit.ReachesAllocation name := by
  unfold Accepted verifyAllocationRegions
  simp only [bind_eq_ok, checkAll_eq_ok]
  constructor
  · rintro ⟨_, _, checked, _⟩ region member
    exact (verifyAllocationRegion_iff region).mp (checked region member)
  · intro clean
    exact ⟨_, (), fun region member => (verifyAllocationRegion_iff region).mpr (clean region member),
      rfl⟩

end AnalyzedUnit

/-! ## Calls during execution -/

section Performs

variable {Value World : Type}

/-- From some surroundings to later ones, every call performed is one of the named functions. -/
def Performs (names : List String) (before after : Surroundings Operation Value World) : Prop :=
  ∃ events, after.trace = before.trace ++ events ∧
    ∀ event ∈ events, ∀ callee, event.1.code = .call callee → callee ∈ names

theorem Performs.refl {names : List String} (before : Surroundings Operation Value World) :
    Performs names before before :=
  ⟨[], (List.append_nil _).symm, fun _ member => (List.not_mem_nil member).elim⟩

theorem Performs.trans {names : List String} {first second third : Surroundings Operation Value World}
    (left : Performs names first second) (right : Performs names second third) :
    Performs names first third := by
  obtain ⟨early, grew, named⟩ := left
  obtain ⟨late, grown, also⟩ := right
  refine ⟨early ++ late, by rw [grown, grew, List.append_assoc], ?_⟩
  intro event member
  rcases List.mem_append.mp member with inside | inside
  · exact named event inside
  · exact also event inside

namespace Evaluation

variable {α β : Type}

def surroundings : Evaluation Value World α → Surroundings Operation Value World
  | value _ after | stopped after | timeout after => after

theorem performs_andThen {names : List String} {before : Surroundings Operation Value World}
    {first : Evaluation Value World α}
    {next : α → Surroundings Operation Value World → Evaluation Value World β}
    (early : Performs names before first.surroundings)
    (late : ∀ result middle, Performs names middle (next result middle).surroundings) :
    Performs names before (first.andThen next).surroundings := by
  cases first with
  | value result middle => exact early.trans (late result middle)
  | stopped after => exact early
  | timeout after => exact early

end Evaluation

open Evaluation

variable (meaning : Interpretation Operation Value World)

theorem performs_applyOperation {names : List String} {operation : Operation}
    (named : ∀ callee, operation.code = .call callee → callee ∈ names) (operands : List Value)
    (before : Surroundings Operation Value World) :
    Performs names before (applyOperation meaning operation operands before).surroundings := by
  have event : ∀ item ∈ [(operation, operands)], ∀ callee, item.1.code = .call callee →
      callee ∈ names := by
    intro item member
    rw [List.mem_singleton.mp member]
    exact named
  unfold applyOperation Interpretation.perform
  split
  · cases meaning.effect operation operands before.world with
    | none => exact ⟨_, rfl, event⟩
    | some outcome => exact ⟨_, rfl, event⟩
  · exact .refl before

theorem performs_whileLoop {names : List String}
    {test body : Surroundings Operation Value World → Evaluation Value World Value}
    (testPerforms : ∀ before, Performs names before (test before).surroundings)
    (bodyPerforms : ∀ before, Performs names before (body before).surroundings) :
    ∀ (fuel : Nat) (before : Surroundings Operation Value World),
      Performs names before (whileLoop meaning test body fuel before).surroundings := by
  intro fuel
  induction fuel with
  | zero =>
      intro before
      exact .refl before
  | succ fuel ih =>
      intro before
      unfold whileLoop
      refine performs_andThen (testPerforms before) ?_
      intro value middle
      split
      · exact performs_andThen (bodyPerforms middle) fun _ => ih
      · exact .refl middle

variable {fuel : Nat} {names : List String}

/-- The trees of a list perform only calls of the named functions. -/
def AllPerform (meaning : Interpretation Operation Value World) (fuel : Nat) (names : List String)
    (trees : List Hir) : Prop :=
  ∀ tree ∈ trees, ∀ environment before,
    Performs names before (evaluate meaning fuel environment tree before).surroundings

theorem performs_evaluateChildren {children : List Hir}
    (all : AllPerform meaning fuel names children) (environment : List (String × Value)) :
    ∀ before, Performs names before
      (evaluateChildren meaning fuel environment children before).surroundings := by
  induction children with
  | nil =>
      intro before
      unfold evaluateChildren
      exact .refl before
  | cons child rest ih =>
      intro before
      unfold evaluateChildren
      refine performs_andThen (all child List.mem_cons_self environment before) ?_
      intro value middle
      refine performs_andThen (ih (fun tree member => all tree (List.mem_cons_of_mem _ member))
        middle) ?_
      intro values after
      exact .refl after

theorem performs_evaluateSequence {children : List Hir}
    (all : AllPerform meaning fuel names children) (environment : List (String × Value)) :
    ∀ before, Performs names before
      (evaluateSequence meaning fuel environment children before).surroundings := by
  induction children with
  | nil =>
      intro before
      unfold evaluateSequence
      exact .refl before
  | cons child rest ih =>
      intro before
      cases rest with
      | nil =>
          unfold evaluateSequence
          exact all child List.mem_cons_self environment before
      | cons second others =>
          unfold evaluateSequence
          refine performs_andThen (all child List.mem_cons_self environment before) ?_
          intro value middle
          exact ih (fun tree member => all tree (List.mem_cons_of_mem _ member)) middle

theorem performs_evaluateBindings (environment : List (String × Value)) :
    ∀ {bindings : List (String × Hir)}, AllPerform meaning fuel names (bindings.map Prod.snd) →
      ∀ scope before, Performs names before
        (evaluateBindings meaning fuel environment scope bindings before).surroundings := by
  intro bindings
  induction bindings with
  | nil =>
      intro _ scope before
      unfold evaluateBindings
      exact .refl before
  | cons binding rest ih =>
      intro all scope before
      rw [List.map_cons] at all
      unfold evaluateBindings
      refine performs_andThen (all binding.2 List.mem_cons_self environment before) ?_
      intro value middle
      exact ih (fun tree member => all tree (List.mem_cons_of_mem _ member)) _ middle

theorem performs_evaluateIf {children : List Hir}
    (all : AllPerform meaning fuel names children) (environment : List (String × Value))
    (before : Surroundings Operation Value World) :
    Performs names before (evaluateIf meaning fuel environment children before).surroundings := by
  unfold evaluateIf
  split
  · rename_i condition ifTrue ifFalse
    refine performs_andThen (all condition (by simp) environment before) ?_
    intro value middle
    split
    · exact all ifTrue (by simp) environment middle
    · exact all ifFalse (by simp) environment middle
  · exact .refl before

theorem performs_evaluateWhile {children : List Hir}
    (all : AllPerform meaning fuel names children) (environment : List (String × Value))
    (before : Surroundings Operation Value World) :
    Performs names before (evaluateWhile meaning fuel environment children before).surroundings := by
  unfold evaluateWhile
  split
  · rename_i test body
    exact performs_whileLoop meaning (all test (by simp) environment)
      (all body (by simp) environment) fuel before
  · exact .refl before

/-- Evaluation performs only calls that the tree names. -/
theorem performs_evaluate (fuel : Nat) (tree : Hir) :
    ∀ (environment : List (String × Value)) (before : Surroundings Operation Value World),
      Performs tree.callNames before (evaluate meaning fuel environment tree before).surroundings := by
  have widen {small large : List String} {before after : Surroundings Operation Value World}
      (inside : ∀ name ∈ small, name ∈ large) (performs : Performs small before after) :
      Performs large before after := by
    obtain ⟨events, grew, named⟩ := performs
    exact ⟨events, grew, fun event member callee code => inside _ (named event member callee code)⟩
  induction tree using Hir.induction with
  | node kind type bindings children bindingsPerform childrenPerform =>
      intro environment before
      have nested : ∀ child ∈ (Hir.node kind type bindings children).nestedNodes,
          (child ∈ children ∨ child ∈ bindings.map Prod.snd) →
          ∀ environment before, Performs (Hir.node kind type bindings children).callNames before
            (evaluate meaning fuel environment child before).surroundings := by
        intro child member place environment before
        refine widen (fun name => Hir.callNames_of_nested member) ?_
        rcases place with inside | inside
        · exact childrenPerform child inside environment before
        · obtain ⟨binding, present, rfl⟩ := List.mem_map.mp inside
          exact bindingsPerform binding present environment before
      have below : AllPerform meaning fuel (Hir.node kind type bindings children).callNames
          children := by
        intro child member
        refine nested child ?_ (.inl member)
        cases kind with
        | letForm => exact List.mem_append_right _ member
        | _ => exact member
      have plain : ∀ {code : OpCode}, (∀ callee, code ≠ .call callee) → ∀ operands middle,
          Performs (Hir.node kind type bindings children).callNames middle
            (applyOperation meaning ⟨code, some type⟩ operands middle).surroundings :=
        fun pure operands middle =>
          performs_applyOperation meaning (fun callee same => (pure callee same).elim) operands middle
      unfold evaluate
      cases kind with
      | literal literal => exact plain (fun _ same => by cases same) _ _
      | dataAddress name dataType => exact plain (fun _ same => by cases same) _ _
      | «variable» name =>
          simp only
          split
          · exact .refl before
          · exact .refl before
      | progn => exact performs_evaluateSequence meaning below environment before
      | letForm =>
          refine performs_andThen (performs_evaluateBindings meaning environment ?_ _ before) ?_
          · intro child member
            exact nested child (List.mem_append_left _ member) (.inr member)
          · intro scope middle
            exact performs_evaluateSequence meaning below scope middle
      | ifForm => exact performs_evaluateIf meaning below environment before
      | whileForm =>
          refine performs_andThen (performs_evaluateWhile meaning below environment before) ?_
          intro _ middle
          exact performs_applyOperation meaning (fun callee same => by cases same) _ middle
      | call callee =>
          refine performs_andThen (performs_evaluateChildren meaning below environment before) ?_
          intro operands middle
          refine performs_applyOperation meaning ?_ operands middle
          rintro _ ⟨⟩
          rw [Hir.callNames_eq]
          exact List.mem_append_left _ List.mem_cons_self
      | _ =>
          exact performs_andThen (performs_evaluateChildren meaning below environment before)
            (plain fun _ same => by cases same)

end Performs

/-- The calls performed while a region of an accepted unit runs cannot reach an allocation. -/
theorem AnalyzedUnit.Accepted.region_performs {unit : AnalyzedUnit} (accepted : unit.Accepted)
    {region : Hir} (member : region ∈ unit.allocationRegions) {Value World : Type}
    (meaning : Interpretation Operation Value World) (fuel : Nat)
    (environment : List (String × Value)) (before : Surroundings Operation Value World) :
    ∃ events, (evaluate meaning fuel environment region before).surroundings.trace =
        before.trace ++ events ∧
      ∀ event ∈ events, ∀ callee, event.1.code = .call callee →
        ¬unit.ReachesAllocation callee := by
  obtain ⟨events, grew, named⟩ := performs_evaluate meaning fuel region environment before
  refine ⟨events, grew, ?_⟩
  intro event inside callee code
  exact AnalyzedUnit.accepted_iff.mp accepted region member callee (named event inside callee code)

end Stage0
