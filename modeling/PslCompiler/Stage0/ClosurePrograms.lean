import PslCompiler.Stage0.ClosurePreservation

/-! # Hosted programs with closures

Calls of functions and of closures agree at every depth, so a program and the first-order program that
is made of it have the same outcome.
-/

namespace Stage0

open Flow Heaps

/-! ## Entering calls -/

section Entering

variable {names : NameTable} {final : AnalysisContext} {platform : Platform} {entries : Entries}
variable {fuel : Nat} {places : List Nat}
variable {left : Surroundings Operation Datum (Heap SourceClosure)}
variable {right : Surroundings Operation Datum (Heap CodeClosure)}

theorem executeSequence_single {apply : Apply Datum (Heap CodeClosure)} {truth : Datum → Bool}
    {environment : List (String × Datum)} {node : Hir} :
    executeSequence apply truth fuel environment [node] right =
      execute apply truth fuel environment node right := by
  rw [executeSequence]

/-- The function of a lambda binds the captured variables and executes the body. -/
theorem execute_lambdaFunction {number : Nat} {listName argumentName : String}
    {captures : List (String × Ty)} {type : Ty} {nodes : List Hir} {generated : List FunctionDef}
    {truth : Datum → Bool} {list argument : Datum} {values : List Datum}
    (count : values.length = captures.length) (listed : Listed places right.world list values) :
    execute (entries.apply' platform generated) truth fuel
        (bindArguments (lambdaFunction number listName argumentName captures
          (.node .progn type [] nodes)).parameters [list, argument])
        (lambdaFunction number listName argumentName captures (.node .progn type [] nodes)).body right =
      executeSequence (entries.apply' platform generated) truth fuel
        (bindCaptures (captures.map Prod.fst) values [(listName, list), (argumentName, argument)])
        nodes right := by
  have scope : bindArguments (lambdaFunction number listName argumentName captures
      (.node .progn type [] nodes)).parameters [list, argument] =
        [(listName, list), (argumentName, argument)] := rfl
  have tail : execute (entries.apply' platform generated) truth fuel
      [(listName, list), (argumentName, argument)] (.node (.variable listName) .value [] []) right =
        .value list right := by
    rw [execute, List.lookup_cons_self]
  have bound := @execute_capturedBindings platform generated entries truth fuel
    [(listName, list), (argumentName, argument)] right places captures _ list values
    [(listName, list), (argumentName, argument)] count tail listed
  rw [scope]
  cases captures with
  | nil =>
      simp only [lambdaFunction, capturedBindingNodes, List.isEmpty_nil, ↓reduceIte, List.map_nil]
      rw [execute, bindCaptures]
      intros
      contradiction
  | cons entry rest =>
      have some : (capturedBindingNodes (entry :: rest)
          (.node (.variable listName) .value [] [])).isEmpty = false := rfl
      simp only [lambdaFunction, some, Bool.false_eq_true, ↓reduceIte]
      rw [execute, bound, Evaluation.andThen, executeSequence_single, execute]

/-- Calls of closures agree. -/
theorem code_agrees (each : ∀ form, SimulatedForm names final platform entries fuel form)
    {closure : SourceClosure} {closure' : CodeClosure} {argument argument' : Datum}
    (mirrors : StateMirrors names final places left right)
    (closures : ClosureMirrors names final places right.world closure closure')
    (same : argument.Mirrors places argument') :
    Agree names final places right.world Datum.Mirrors
      (executeBody (entries.apply platform) (datumTruth platform.truth) fuel closeLambda
        ((closure.parameter, argument) :: closure.scope) closure.body left)
      (execute (entries.apply' platform final.generated) (datumTruth platform.truth) fuel
        (bindArguments closure'.function.parameters [closure'.environment, argument'])
        closure'.function.body right) := by
  cases closures with
  | @intro number typed argumentName listName type nodes start before after node captures values
      isArgument analyzed declared generated finished made listed carried =>
      have count : values.length = captures.length := by
        rw [← carried.length_eq, List.length_map]
      rw [made, execute_lambdaFunction count listed]
      refine body_agrees (fun form _ => each form) analyzed declared generated mirrors ?_
      obtain ⟨inside, _⟩ := analyzeForms_converts (fun form _ => analyzeForm_converts form) analyzed
      have different : argumentName ≠ listName := by
        rintro rfl
        cases NameTable.nameOf_injective isArgument finished.list
      intro symbol name named member
      obtain ⟨found, skipped⟩ := lookup_bindCaptures carried name
        [(listName, closure'.environment), (argumentName, argument')]
      by_cases isOwn : name = argumentName
      · subst isOwn
        have symbols : symbol = closure.parameter := by
          have source := NameTable.nameOf_injective named isArgument
          rwa [LexicalSymbol.source.injEq] at source
        have absent : name ∉ captures.map Prod.fst := fun inList =>
          ((mem_captures finished.captured).mp inList).1.2 rfl
        have apart : (name == listName) = false := by simpa using different
        refine ⟨argument, argument', ?_, ?_, same⟩
        · rw [symbols, List.lookup_cons_self]
        · rw [skipped absent, List.lookup_cons, apart, List.lookup_cons_self]
      · have visible := inside.visible name member
        rw [List.map_cons, List.mem_cons] at visible
        have inList : name ∈ captures.map Prod.fst := by
          rw [mem_captures finished.captured, ← mem_visibleBindings, freeHirNames_progn]
          exact ⟨visible.resolve_left isOwn, member⟩
        obtain ⟨value, bound, carries⟩ := found inList
        obtain ⟨original, here, alike⟩ := carries symbol named
        have apart : (symbol == closure.parameter) = false := by
          rw [beq_eq_false_iff_ne]
          rintro rfl
          rw [isArgument, Option.some.injEq] at named
          exact isOwn named.symm
        refine ⟨original, value, ?_, bound, alike⟩
        rw [List.lookup_cons, apart, here]

/-- The arguments of a call on both sides. -/
theorem arguments_mirror : ∀ {parameters : List (LispSymbol × Ty)} {named : List (String × Ty)}
    {operands operands' : List Datum}, namedParameters names parameters = .ok named →
      operands.length = parameters.length → MirrorsAll places operands operands' →
        ScopeMirrors names places (named.map Prod.fst) (bindArguments parameters operands)
          (bindArguments named operands') := by
  intro parameters
  induction parameters with
  | nil =>
      intro named operands operands' isNamed _ _
      cases isNamed
      intro symbol name _ member
      cases member
  | cons parameter rest ih =>
      intro named operands operands' isNamed count same
      rw [namedParameters] at isNamed
      simp only [bind_eq_ok, variableName_ok] at isNamed
      obtain ⟨name, first, others, second, done⟩ := isNamed
      cases done
      cases same with
      | nil => cases count
      | @cons value value' values values' head tail =>
          rw [List.length_cons, List.length_cons, Nat.succ_inj] at count
          refine (ih second count tail).bind first head ?_
          intro another member different
          rw [List.map_cons, List.mem_cons] at member
          exact member.resolve_left different

/-- Calls of functions agree. -/
theorem function_agrees (each : ∀ form, SimulatedForm names final platform entries fuel form)
    {function : SourceFunction} {definition : FunctionDef} {before after : AnalysisContext}
    (analyzed : analyzeDefinition names function before = .ok (definition, after))
    (declared : before.declared = final.declared) (generated : after.generated <+: final.generated)
    {operands operands' : List Datum} (count : operands.length = function.parameters.length)
    (mirrors : StateMirrors names final places left right)
    (same : MirrorsAll places operands operands') :
    Agree names final places right.world Datum.Mirrors
      (executeBody (entries.apply platform) (datumTruth platform.truth) fuel closeLambda
        (bindArguments function.parameters operands) function.body left)
      (execute (entries.apply' platform final.generated) (datumTruth platform.truth) fuel
        (bindArguments definition.parameters operands') definition.body right) := by
  rw [analyzeDefinition] at analyzed
  simp only [bind_eq_ok] at analyzed
  obtain ⟨named, isNamed, ⟨nodes, last⟩, inside, _, _, _, _, done⟩ := analyzed
  cases done
  obtain ⟨converts, _⟩ := analyzeForms_converts (fun form _ => analyzeForm_converts form) inside
  rw [execute]
  exact body_agrees (fun form _ => each form) inside declared generated mirrors
    ((arguments_mirror isNamed count same).fewer converts.visible)

end Entering

/-! ## Units -/

section Units

variable {names : NameTable}

theorem analyzeDefinition_converts {function : SourceFunction} {definition : FunctionDef}
    {before after : AnalysisContext}
    (analyzed : analyzeDefinition names function before = .ok (definition, after)) :
    after.declared = before.declared ∧ before.generated <+: after.generated ∧
      (before.Valid → after.Valid) ∧ definition.signature = function.signature := by
  rw [analyzeDefinition] at analyzed
  simp only [bind_eq_ok] at analyzed
  obtain ⟨named, isNamed, ⟨nodes, last⟩, inside, _, _, _, _, done⟩ := analyzed
  cases done
  obtain ⟨converts, _⟩ := analyzeForms_converts (fun form _ => analyzeForm_converts form) inside
  exact ⟨converts.declared, converts.generated, converts.valid, rfl⟩

theorem analyzeDefinitions_converts : ∀ {functions : List SourceFunction}
    {definitions : List FunctionDef} {before after : AnalysisContext},
    analyzeDefinitions names functions before = .ok (definitions, after) →
      after.declared = before.declared ∧ before.generated <+: after.generated ∧
        (before.Valid → after.Valid) := by
  intro functions
  induction functions with
  | nil =>
      intro definitions before after analyzed
      cases analyzed
      exact ⟨rfl, List.prefix_refl _, id⟩
  | cons function rest ih =>
      intro definitions before after analyzed
      rw [analyzeDefinitions] at analyzed
      simp only [bind_eq_ok] at analyzed
      obtain ⟨⟨definition, middle⟩, first, ⟨others, last⟩, second, done⟩ := analyzed
      cases done
      obtain ⟨declared, generated, valid, _⟩ := analyzeDefinition_converts first
      obtain ⟨declared', generated', valid'⟩ := ih second
      exact ⟨declared'.trans declared, generated.trans generated', fun start => valid' (valid start)⟩

/-- A function and the definition that is made of it. -/
def Defines (names : NameTable) (final : AnalysisContext) (function : SourceFunction)
    (definition : FunctionDef) : Prop :=
  ∃ before after, analyzeDefinition names function before = .ok (definition, after) ∧
    before.declared = final.declared ∧ after.generated <+: final.generated

/-- The functions and their definitions have the same order. -/
theorem definitions_of_functions {final : AnalysisContext} : ∀ {functions : List SourceFunction}
    {definitions : List FunctionDef} {before after : AnalysisContext},
    analyzeDefinitions names functions before = .ok (definitions, after) →
      before.declared = final.declared → after.generated <+: final.generated →
        List.Forall₂ (Defines names final) functions definitions := by
  intro functions
  induction functions with
  | nil =>
      intro definitions before after analyzed _ _
      cases analyzed
      exact .nil
  | cons function rest ih =>
      intro definitions before after analyzed declared generated
      rw [analyzeDefinitions] at analyzed
      simp only [bind_eq_ok] at analyzed
      obtain ⟨⟨definition, middle⟩, first, ⟨others, last⟩, second, done⟩ := analyzed
      cases done
      obtain ⟨same, _, _, _⟩ := analyzeDefinition_converts first
      obtain ⟨_, more, _⟩ := analyzeDefinitions_converts second
      exact .cons ⟨_, _, first, declared, more.trans generated⟩
        (ih second (same.trans declared) generated)

theorem find_definition {final : AnalysisContext} {functions : List SourceFunction}
    {definitions : List FunctionDef}
    (all : List.Forall₂ (Defines names final) functions definitions) (name : String) :
    Option.Rel (Defines names final)
      (functions.find? fun function => function.signature.name == name)
      (definitions.find? fun definition => definition.signature.name == name) := by
  induction all with
  | nil => exact .none
  | @cons function definition _ _ first _ ih =>
      obtain ⟨before, after, analyzed, others⟩ := first
      have same := (analyzeDefinition_converts analyzed).2.2.2
      rw [List.find?_cons, List.find?_cons, same]
      cases function.signature.name == name with
      | true => exact .some ⟨before, after, analyzed, others⟩
      | false => exact ih

/-- The functions that are made of lambdas are not called by name. -/
theorem find_generated {final : AnalysisContext} (valid : final.Valid) {name : String} {count : Nat}
    (callable : CallableName final name count) :
    (final.generated.find? fun function => function.signature.name == name) = none := by
  rw [List.find?_eq_none]
  intro function member same
  rw [beq_iff_eq] at same
  have undeclared := valid.undeclared function member
  rw [undeclaredP, same, Option.isNone_iff_eq_none] at undeclared
  obtain declared | ⟨_, runtime⟩ := callable
  · rw [undeclared] at declared
    cases declared
  · obtain ⟨number, numbered⟩ := valid.numbered function member
    rw [same] at numbered
    -- The names of the runtime start in another way.
    have begins : name.toList.take 5 = "psl_l".toList := by
      rw [numbered, lambdaName, String.toList_append]
      rfl
    have others : ∀ operation ∈ runtimeOperations, operation.toList.take 5 ≠ "psl_l".toList := by
      decide
    exact others name runtime begins

/-- A function is declared with the number of its parameters. -/
theorem count_of_callable {imports : List (String × Nat)} {functions : List SourceFunction}
    {final : AnalysisContext}
    (declared : final.declared = imports ++ functions.map fun function =>
      (function.signature.name, function.parameters.length))
    (distinct : (final.declared.map Prod.fst).Nodup) {function : SourceFunction}
    (member : function ∈ functions) {count : Nat}
    (callable : CallableName final function.signature.name count) :
    count = function.parameters.length := by
  have inside : (function.signature.name, function.parameters.length) ∈ final.declared := by
    rw [declared]
    exact List.mem_append_right _ (List.mem_map.mpr ⟨function, member, rfl⟩)
  have entry : ∀ other, final.declared.lookup function.signature.name = some other →
      other = function.parameters.length := by
    intro other found
    obtain ⟨before, after, split, _⟩ := List.lookup_eq_some_iff.mp found
    have there : (function.signature.name, other) ∈ final.declared := by
      rw [split]
      exact List.mem_append_right _ List.mem_cons_self
    exact congrArg Prod.snd (List.inj_on_of_nodup_map distinct there inside rfl)
  obtain found | ⟨absent, _⟩ := callable
  · exact entry count found
  · rw [List.lookup_eq_none_iff] at absent
    have different := absent _ inside
    simp at different

end Units

/-! ## Depths -/

section Depths

variable (platform : Platform) (fuel : Nat) (functions : List SourceFunction)
variable (definitions generated : List FunctionDef)

/-- How calls are entered at a depth. -/
def entriesAt : Nat → Entries
  | 0 =>
      { functions := fun name =>
          (functions.find? fun function => function.signature.name == name).map
            fun _ => fun _ before => .timeout before
        codes := fun _ _ before => .timeout before
        functions' := fun name =>
          ((definitions ++ generated).find? fun function => function.signature.name == name).map
            fun _ => fun _ before => .timeout before
        codes' := fun _ _ before => .timeout before }
  | depth + 1 =>
      { functions := fun name =>
          (functions.find? fun function => function.signature.name == name).map
            fun function => fun operands before =>
              executeBody (sourceApply platform fuel functions depth) (datumTruth platform.truth) fuel
                closeLambda (bindArguments function.parameters operands) function.body before
        codes := fun closure argument before =>
          executeBody (sourceApply platform fuel functions depth) (datumTruth platform.truth) fuel
            closeLambda ((closure.parameter, argument) :: closure.scope) closure.body before
        functions' := fun name =>
          ((definitions ++ generated).find? fun function => function.signature.name == name).map
            fun function => fun operands before =>
              execute (targetApply platform fuel definitions generated depth)
                (datumTruth platform.truth) fuel (bindArguments function.parameters operands)
                function.body before
        codes' := fun closure argument before =>
          execute (targetApply platform fuel definitions generated depth) (datumTruth platform.truth)
            fuel (bindArguments closure.function.parameters [closure.environment, argument])
            closure.function.body before }

theorem sourceApply_eq (depth : Nat) : sourceApply platform fuel functions depth =
    (entriesAt platform fuel functions definitions generated depth).apply platform := by
  cases depth with
  | zero => rfl
  | succ depth => rfl

theorem targetApply_eq (depth : Nat) : targetApply platform fuel definitions generated depth =
    (entriesAt platform fuel functions definitions generated depth).apply' platform generated := by
  cases depth with
  | zero => rfl
  | succ depth => rfl

end Depths

section Programs

variable {names : NameTable} {final : AnalysisContext} {imports : List (String × Nat)}
variable {functions : List SourceFunction} {definitions : List FunctionDef}
variable {platform : Platform} {fuel : Nat}

/-- Calls agree at every depth. -/
theorem entries_agree (valid : final.Valid)
    (declared : final.declared = imports ++ functions.map fun function =>
      (function.signature.name, function.parameters.length))
    (distinct : (final.declared.map Prod.fst).Nodup)
    (all : List.Forall₂ (Defines names final) functions definitions) (depth : Nat) :
    EntriesAgree names final
      (entriesAt platform fuel functions definitions final.generated depth) := by
  induction depth with
  | zero =>
      refine ⟨?_, fun places left right _ _ _ _ mirrors _ _ => ⟨places, mirrors⟩⟩
      intro name count callable
      have found := find_definition all name
      simp only [entriesAt, List.find?_append, find_generated valid callable, Option.or_none]
      revert found
      generalize (functions.find? fun function => function.signature.name == name) = here
      generalize (definitions.find? fun function => function.signature.name == name) = there
      intro found
      cases found with
      | none => exact .none
      | some _ => exact .some fun places left right _ _ _ mirrors _ => ⟨places, mirrors⟩
  | succ depth ih =>
      have each := fun form => @form_agrees names final platform _ fuel ih valid form
      have source := sourceApply_eq platform fuel functions definitions final.generated depth
      have target := targetApply_eq platform fuel functions definitions final.generated depth
      refine ⟨?_, ?_⟩
      · intro name count callable
        have found := find_definition all name
        simp only [entriesAt, List.find?_append, find_generated valid callable, Option.or_none]
        cases here : functions.find? fun function => function.signature.name == name with
        | none =>
            rw [here] at found
            cases there : definitions.find? fun function => function.signature.name == name with
            | none => exact .none
            | some definition =>
                rw [there] at found
                cases found
        | some function =>
            rw [here] at found
            cases there : definitions.find? fun function => function.signature.name == name with
            | none =>
                rw [there] at found
                cases found
            | some definition =>
                rw [there] at found
                cases found with
                | some defines =>
                    obtain ⟨before, after, analyzed, same, more⟩ := defines
                    have isNamed := List.find?_some here
                    rw [beq_iff_eq] at isNamed
                    refine .some fun places left right operands operands' count' mirrors alike => ?_
                    have parameters := count_of_callable declared distinct
                      (List.mem_of_find?_eq_some here) (isNamed ▸ callable)
                    rw [source, target]
                    exact function_agrees each analyzed same more (count'.trans parameters) mirrors
                      alike
      · intro places left right closure closure' argument argument' mirrors closures same
        simp only [entriesAt]
        rw [source, target]
        exact code_agrees each mirrors closures same

end Programs

/-! ## Outcomes -/

/-- The heap before a program starts, with the state of the runtime only. -/
def rootHeap {Code : Type} (memory : Int → Int) : Heap Code :=
  ⟨[.record 0 [] []], memory⟩

/-- The objects of the source program have counterparts, and the calls are the same. -/
structure SameState (places : List Nat)
    (left : Surroundings Operation Datum (Heap SourceClosure))
    (right : Surroundings Operation Datum (Heap CodeClosure)) : Prop where
  heap : HeapMirrors (fun _ _ _ _ => True) places left.world right.world
  calls : List.Forall₂ (CallMirrors places) left.trace right.trace

/-- The same result after the same calls, up to the places of objects; or both stop, or both take
longer. -/
def SameOutcome : Evaluation Datum (Heap SourceClosure) Datum →
    Evaluation Datum (Heap CodeClosure) Datum → Prop
  | .value result left, .value other right =>
      ∃ places, SameState places left right ∧ result.Mirrors places other
  | .stopped left, .stopped right => ∃ places, SameState places left right
  | .timeout left, .timeout right => ∃ places, SameState places left right
  | _, _ => False

section Outcomes

variable (platform : Platform) (fuel depth : Nat) (memory : Int → Int) (arguments : List Int)

/-- Call a function of the source with words. -/
def runSource (functions : List SourceFunction) (function : SourceFunction) :
    Evaluation Datum (Heap SourceClosure) Datum :=
  executeBody (sourceApply platform fuel functions depth) (datumTruth platform.truth) fuel closeLambda
    (bindArguments function.parameters (arguments.map Datum.word)) function.body
    ⟨rootHeap memory, []⟩

/-- Call a function of the first-order program with words. -/
def runTarget (definitions generated : List FunctionDef) (definition : FunctionDef) :
    Evaluation Datum (Heap CodeClosure) Datum :=
  execute (targetApply platform fuel definitions generated depth) (datumTruth platform.truth) fuel
    (bindArguments definition.parameters (arguments.map Datum.word)) definition.body
    ⟨rootHeap memory, []⟩

end Outcomes

section Conversion

variable {names : NameTable} {final : AnalysisContext}

theorem SameState.of_mirrors {places : List Nat}
    {left : Surroundings Operation Datum (Heap SourceClosure)}
    {right : Surroundings Operation Datum (Heap CodeClosure)}
    (mirrors : StateMirrors names final places left right) : SameState places left right where
  heap :=
    { count := mirrors.heap.count
      distinct := mirrors.heap.distinct
      objects := by
        intro index place at_
        obtain ⟨object, other, here, there, same⟩ := mirrors.heap.objects index place at_
        exact ⟨object, other, here, there, same.imp (List.prefix_refl _) fun _ _ _ => trivial⟩
      memory := mirrors.heap.memory }
  calls := mirrors.trace

theorem SameOutcome.of_agree {places : List Nat} {before : Heap CodeClosure}
    {source : Evaluation Datum (Heap SourceClosure) Datum}
    {target : Evaluation Datum (Heap CodeClosure) Datum}
    (agree : Agree names final places before Datum.Mirrors source target) :
    SameOutcome source target := by
  cases source with
  | value result left =>
      cases target with
      | value other right =>
          obtain ⟨places', mirrors, _, same⟩ := agree
          exact ⟨places', .of_mirrors mirrors, same⟩
      | stopped right => cases agree
      | timeout right => cases agree
  | stopped left =>
      cases target with
      | value other right => cases agree
      | stopped right =>
          obtain ⟨places', mirrors⟩ := agree
          exact ⟨places', .of_mirrors mirrors⟩
      | timeout right => cases agree
  | timeout left =>
      cases target with
      | value other right => cases agree
      | stopped right => cases agree
      | timeout right =>
          obtain ⟨places', mirrors⟩ := agree
          exact ⟨places', .of_mirrors mirrors⟩

theorem rootHeap_mirrors (memory : Int → Int) :
    StateMirrors names final [0] ⟨rootHeap memory, []⟩ ⟨rootHeap memory, []⟩ := by
  refine ⟨⟨rfl, List.nodup_singleton 0, ?_, rfl⟩, .nil, rfl⟩
  intro index place at_
  obtain ⟨inside, same⟩ := List.getElem?_eq_some_iff.mp at_
  rw [List.length_singleton, Nat.lt_one_iff] at inside
  subst inside
  obtain rfl : 0 = place := same
  exact ⟨_, _, rfl, rfl, rfl, rfl, .nil⟩

theorem words_mirror (places : List Nat) (arguments : List Int) :
    MirrorsAll places (arguments.map Datum.word) (arguments.map Datum.word) := by
  induction arguments with
  | nil => exact .nil
  | cons first _ ih => exact .cons rfl ih

theorem find_counterpart {functions : List SourceFunction} {definitions : List FunctionDef}
    (all : List.Forall₂ (Defines names final) functions definitions) {function : SourceFunction}
    (member : function ∈ functions) :
    ∃ definition ∈ definitions, Defines names final function definition := by
  induction all with
  | nil => cases member
  | cons first _ ih =>
      cases member with
      | head => exact ⟨_, List.mem_cons_self, first⟩
      | tail _ later =>
          obtain ⟨definition, inside, defines⟩ := ih later
          exact ⟨definition, List.mem_cons_of_mem _ inside, defines⟩

end Conversion

/-- Turning lambdas into functions keeps the outcome of every call, and gives every variable and every
function a name of its own. -/
theorem closure_conversion {sourceName : String → String} {requests : List LexicalSymbol}
    {names : NameTable} (named : lexicalNames sourceName requests .empty = .ok names)
    {imports : List (String × Nat)} {functions : List SourceFunction} {program : List FunctionDef}
    (analyzed : analyzeSource names imports functions = .ok program) :
    ∃ definitions generated, program = definitions ++ generated ∧
      (∀ platform fuel depth memory arguments, ∀ function ∈ functions,
        arguments.length = function.parameters.length →
          ∃ definition ∈ definitions, definition.signature = function.signature ∧
            SameOutcome (runSource platform fuel depth memory arguments functions function)
              (runTarget platform fuel depth memory arguments definitions generated definition)) ∧
      (∀ symbol ∈ requests, ∃ name, names.nameOf symbol = some name) ∧
      (∀ first second name, names.nameOf first = some name → names.nameOf second = some name →
        first = second) ∧
      (generated.map fun made => made.signature.name).Nodup ∧
      ∀ made ∈ generated, (∀ imported ∈ imports, made.signature.name ≠ imported.1) ∧
        ∀ function ∈ functions, made.signature.name ≠ function.signature.name := by
  rw [analyzeSource] at analyzed
  simp only [bind_eq_ok] at analyzed
  obtain ⟨⟨definitions, final⟩, unit, done⟩ := analyzed
  cases done
  rw [analyzeUnit] at unit
  simp only [bind_eq_ok, require_eq_ok, decide_eq_true_eq] at unit
  obtain ⟨_, distinct, unit⟩ := unit
  obtain ⟨declared, _, valid⟩ := analyzeDefinitions_converts unit
  have valid : final.Valid := valid ⟨List.nodup_nil, by simp, by simp, by simp⟩
  have all := definitions_of_functions unit declared.symm (List.prefix_refl _)
  refine ⟨definitions, final.generated, rfl, ?_, lexicalNames_named named,
    fun _ _ _ => NameTable.nameOf_injective, valid.distinct, ?_⟩
  · intro platform fuel depth memory arguments function member count
    obtain ⟨definition, inside, before, after, defined, same, more⟩ := find_counterpart all member
    refine ⟨definition, inside, (analyzeDefinition_converts defined).2.2.2, ?_⟩
    have entries := @entries_agree names final imports functions definitions platform fuel valid
      declared (declared ▸ distinct) all depth
    have each := fun form => @form_agrees names final platform _ fuel entries valid form
    have agree := function_agrees each defined same more
      (show (arguments.map Datum.word).length = _ by rw [List.length_map, count])
      (rootHeap_mirrors memory) (words_mirror [0] arguments)
    rw [runSource, runTarget, sourceApply_eq platform fuel functions definitions final.generated,
      targetApply_eq platform fuel functions definitions final.generated]
    exact .of_agree agree
  · intro made member
    have undeclared := valid.undeclared made member
    rw [undeclaredP, declared, Option.isNone_iff_eq_none, List.lookup_eq_none_iff] at undeclared
    refine ⟨fun imported inside same => ?_, fun function inside same => ?_⟩
    · have different := undeclared imported (List.mem_append_left _ inside)
      simp [same] at different
    · have different := undeclared (function.signature.name, function.parameters.length)
        (List.mem_append_right _ (List.mem_map.mpr ⟨function, inside, rfl⟩))
      simp [same] at different

/-- A function of `x` that calls `(lambda (y) (cons x y))` with a number. -/
def pairing : SourceFunction where
  signature := { name := "pairing", arguments := [.value], result := .value }
  parameters := [(.interned "USER" "X", .value)]
  body := [.operation (.call "psl_rt_call_closure") .value
    [.lambda (.interned "USER" "Y")
      [.operation (.call "psl_rt_cons") .value
        [.reference (.interned "USER" "X") .value, .reference (.interned "USER" "Y") .value]],
      .operation (.literal (.integer 7)) .value []]]

def pairingSymbols : List LexicalSymbol :=
  [.source (.interned "USER" "X"), .source (.interned "USER" "Y"), .environment 0]

theorem closure_conversion_pairing :
    ∃ names program, lexicalNames id pairingSymbols .empty = .ok names ∧
      analyzeSource names [] [pairing] = .ok program ∧
      ∃ definitions generated, program = definitions ++ generated ∧
        ∀ platform fuel depth memory argument, ∃ definition ∈ definitions,
          SameOutcome (runSource platform fuel depth memory [argument] [pairing] pairing)
            (runTarget platform fuel depth memory [argument] definitions generated definition) := by
  obtain ⟨names, named⟩ : ∃ names, lexicalNames id pairingSymbols .empty = .ok names := ⟨_, rfl⟩
  obtain ⟨program, analyzed⟩ : ∃ program, analyzeSource names [] [pairing] = .ok program := by
    cases named
    exact ⟨_, rfl⟩
  obtain ⟨definitions, generated, split, outcomes, _⟩ := closure_conversion named analyzed
  refine ⟨names, program, named, analyzed, definitions, generated, split, ?_⟩
  intro platform fuel depth memory argument
  obtain ⟨definition, member, _, same⟩ :=
    outcomes platform fuel depth memory [argument] pairing List.mem_cons_self rfl
  exact ⟨definition, member, same⟩

end Stage0
