import PslCompiler.Stage0.ClosureMeaning

/-! # Converted programs behave like their source

Evaluating a form and executing the tree that is made of it agree, and so do calls up to any depth.
-/

namespace Stage0

open Flow Heaps

/-! ## Pairs and closures of the compiler -/

section Inserted

variable {platform : Platform} {generated : List FunctionDef} {entries : Entries}
variable {truth : Datum → Bool} {fuel : Nat} {environment : List (String × Datum)}
variable {right : Surroundings Operation Datum (Heap CodeClosure)}

theorem apply_cons (first rest : Datum) (type : Option Ty) :
    entries.apply' platform generated ⟨.call "psl_rt_cons", type⟩ [first, rest] right =
      .value right.world.next
        ⟨right.world.allocate (.record consKind [] [first, rest]), right.trace⟩ := rfl

/-- A field of a pair. -/
theorem pairRoutine_run {index : Nat} {first rest : Datum}
    (found : right.world.objects[index]? = some (.record consKind [] [first, rest])) (field : Nat) :
    runRoutine (pairRoutine field) [.reference index] right =
      .value ([first, rest].getD field (.word 0)) right := by
  have view : Datum.view right.world (.reference index) = .record consKind [] 2 := by
    rw [Datum.view, found]
    rfl
  have fields : Datum.fields right.world (.reference index) = [first, rest] := by
    rw [Datum.fields, found]
  have input : Operand.value [Datum.reference 0, .reference index] (.input 1) = .reference index := rfl
  rw [runRoutine, pairRoutine, Routine.run, input, view, fields]
  simp only [↓reduceIte, Routine.run, Operand.value]
  rw [Nat.add_comm]
  rfl

theorem apply_car {index : Nat} {first rest : Datum}
    (found : right.world.objects[index]? = some (.record consKind [] [first, rest]))
    (type : Option Ty) :
    entries.apply' platform generated ⟨.call "psl_rt_car", type⟩ [.reference index] right =
      .value first right :=
  pairRoutine_run found 0

theorem apply_cdr {index : Nat} {first rest : Datum}
    (found : right.world.objects[index]? = some (.record consKind [] [first, rest]))
    (type : Option Ty) :
    entries.apply' platform generated ⟨.call "psl_rt_cdr", type⟩ [.reference index] right =
      .value rest right :=
  pairRoutine_run found 1

/-- The function at the address of a generated function is that function. -/
theorem functionAt_generated {context : AnalysisContext} (valid : context.Valid)
    {function : FunctionDef} (member : function ∈ context.generated) (environment : Datum) :
    functionAt platform context.generated (platform.address function.signature.name) environment =
      some ⟨function, environment⟩ := by
  have distinct := valid.distinct
  rw [functionAt]
  have found : (context.generated.find? fun other =>
      platform.address other.signature.name == platform.address function.signature.name) =
        some function := by
    have some : (context.generated.find? fun other =>
        platform.address other.signature.name == platform.address function.signature.name).isSome := by
      rw [List.find?_isSome]
      exact ⟨function, member, by simp⟩
    obtain ⟨other, isOther⟩ := Option.isSome_iff_exists.mp some
    have same := List.find?_some isOther
    rw [beq_iff_eq] at same
    rw [isOther, List.inj_on_of_nodup_map distinct (List.mem_of_find?_eq_some isOther) member
      (platform.distinct same)]
  rw [found]
  rfl

theorem apply_makeClosure {context : AnalysisContext} (valid : context.Valid)
    {function : FunctionDef} (member : function ∈ context.generated) (list : Datum)
    (type : Option Ty) :
    entries.apply' platform context.generated ⟨.call "psl_rt_make_closure", type⟩
        [.word (platform.address function.signature.name), list] right =
      .value right.world.next ⟨right.world.allocate (.code ⟨function, list⟩), right.trace⟩ := by
  have opened : entries.apply' platform context.generated ⟨.call "psl_rt_make_closure", type⟩
      [.word (platform.address function.signature.name), list] right =
        makeClosure platform (functionAt platform context.generated)
          ⟨.call "psl_rt_make_closure", type⟩
          [.word (platform.address function.signature.name), list] right := rfl
  rw [opened, makeClosure, functionAt_generated valid member list]

/-- The list of captured values, made of the variables in scope. -/
theorem execute_captureList {names : NameTable} {final : AnalysisContext} {places : List Nat}
    {left : Surroundings Operation Datum (Heap SourceClosure)} {captures : List (String × Ty)}
    {values : List Datum}
    (bound : List.Forall₂ (fun (entry : String × Ty) value => environment.lookup entry.1 = some value)
      captures values)
    (mirrors : StateMirrors names final places left right) :
    ∃ list heap,
      execute (entries.apply' platform generated) truth fuel environment (captureListNode captures)
        right = .value list ⟨heap, right.trace⟩ ∧
      StateMirrors names final places left ⟨heap, right.trace⟩ ∧
      Kept places right.world places heap ∧ Listed places heap list values := by
  induction bound with
  | nil => exact ⟨.word nilWord, right.world, rfl, mirrors, Kept.refl _ _, .nil⟩
  | @cons entry value rest values here _ ih =>
      obtain ⟨list, heap, executed, mirrors', kept, listed⟩ := ih
      obtain ⟨heapMirrors, kept'⟩ := mirrors'.heap.allocate_right (closureMirrors_stable names final)
        (.record consKind [] [value, list])
      refine ⟨heap.next, heap.allocate (.record consKind [] [value, list]), ?_, ?_, kept.trans kept', ?_⟩
      · have first : execute (entries.apply' platform generated) truth fuel environment
            (.node (.variable entry.1) .value [] []) right = .value value right := by
          rw [execute, here]
        have opened : captureListNode (entry :: rest) =
            runtimeCallNode "psl_rt_cons" .value
              [.node (.variable entry.1) .value [] [], captureListNode rest] := rfl
        rw [opened, runtimeCallNode, execute]
        · simp only [executeChildren, first, executed, Evaluation.andThen, HirKind.code]
          exact apply_cons value list _
        all_goals (intros; contradiction)
      · exact ⟨heapMirrors, mirrors'.trace, mirrors'.root⟩
      · refine .cons ?_ mirrors'.heap.fresh List.getElem?_concat_length (listed.kept kept')
        simp [Heap.allocate]

/-- The scope with the captured variables. -/
def bindCaptures : List String → List Datum → List (String × Datum) → List (String × Datum)
  | name :: others, value :: values, scope => bindCaptures others values ((name, value) :: scope)
  | _, _, scope => scope

/-- The bindings around the body of a function find the captured values in their list. -/
theorem execute_capturedBindings {places : List Nat} {captures : List (String × Ty)} :
    ∀ {tail : Hir} {list : Datum} {values : List Datum} {scope : List (String × Datum)},
      values.length = captures.length →
      execute (entries.apply' platform generated) truth fuel environment tail right =
        .value list right →
      Listed places right.world list values →
        executeBindings (entries.apply' platform generated) truth fuel environment scope
          (capturedBindingNodes captures tail) right =
            .value (bindCaptures (captures.map Prod.fst) values scope) right := by
  induction captures with
  | nil =>
      intro tail list values scope _ _ _
      rw [capturedBindingNodes, executeBindings, List.map_nil, bindCaptures]
      intros
      contradiction
  | cons entry rest ih =>
      intro tail list values scope count executed listed
      cases listed with
      | nil => cases count
      | @cons index first others values inside hidden found listed =>
          have head : execute (entries.apply' platform generated) truth fuel environment
              (runtimeCallNode "psl_rt_car" .value [tail]) right = .value first right := by
            rw [runtimeCallNode, execute]
            · simp only [executeChildren, executed, Evaluation.andThen, HirKind.code]
              exact apply_car found _
            all_goals (intros; contradiction)
          have next : execute (entries.apply' platform generated) truth fuel environment
              (runtimeCallNode "psl_rt_cdr" .value [tail]) right = .value others right := by
            rw [runtimeCallNode, execute]
            · simp only [executeChildren, executed, Evaluation.andThen, HirKind.code]
              exact apply_cdr found _
            all_goals (intros; contradiction)
          rw [capturedBindingNodes, executeBindings, head, Evaluation.andThen, List.map_cons,
            bindCaptures]
          rw [List.length_cons, List.length_cons, Nat.succ_inj] at count
          exact ih count next listed

theorem lookup_bindCaptures {holds : String → Datum → Prop} {captures : List String}
    {values : List Datum} (each : List.Forall₂ holds captures values) (name : String) :
    ∀ scope : List (String × Datum),
      (name ∈ captures → ∃ value, (bindCaptures captures values scope).lookup name = some value ∧
        holds name value) ∧
      (name ∉ captures → (bindCaptures captures values scope).lookup name = scope.lookup name) := by
  induction each with
  | nil =>
      intro scope
      simp [bindCaptures]
  | @cons capture value others values first _ ih =>
      intro scope
      rw [bindCaptures]
      obtain ⟨found, skipped⟩ := ih ((capture, value) :: scope)
      by_cases later : name ∈ others
      · exact ⟨fun _ => found later, fun absent => absurd (List.mem_cons_of_mem _ later) absent⟩
      · rw [skipped later, List.lookup_cons]
        constructor
        · intro member
          rw [List.mem_cons] at member
          obtain rfl := member.resolve_right later
          exact ⟨value, by simp, first⟩
        · intro absent
          have different : (name == capture) = false := by
            rw [beq_eq_false_iff_ne]
            rintro rfl
            exact absent List.mem_cons_self
          rw [different]

end Inserted

/-! ## Scopes -/

/-- The variables of some names have corresponding values. -/
def ScopeMirrors (names : NameTable) (places : List Nat) (free : List String)
    (scope : List (LispSymbol × Datum)) (environment : List (String × Datum)) : Prop :=
  ∀ symbol name, names.nameOf (.source symbol) = some name → name ∈ free →
    ∃ value other, scope.lookup symbol = some value ∧ environment.lookup name = some other ∧
      value.Mirrors places other

namespace ScopeMirrors

variable {names : NameTable} {places places' : List Nat} {free free' : List String}
variable {scope : List (LispSymbol × Datum)} {environment : List (String × Datum)}

theorem mono (added : places <+: places')
    (mirrors : ScopeMirrors names places free scope environment) :
    ScopeMirrors names places' free scope environment := by
  intro symbol name named member
  obtain ⟨value, other, here, there, same⟩ := mirrors symbol name named member
  exact ⟨value, other, here, there, same.mono added⟩

theorem fewer (mirrors : ScopeMirrors names places free scope environment)
    (subset : ∀ name ∈ free', name ∈ free) :
    ScopeMirrors names places free' scope environment :=
  fun symbol name named member => mirrors symbol name named (subset name member)

/-- One more variable on both sides. -/
theorem bind (mirrors : ScopeMirrors names places free scope environment) {symbol : LispSymbol}
    {name : String} (named : names.nameOf (.source symbol) = some name) {value other : Datum}
    (same : value.Mirrors places other) (covers : ∀ another ∈ free', another ≠ name → another ∈ free) :
    ScopeMirrors names places free' ((symbol, value) :: scope) ((name, other) :: environment) := by
  intro symbol' name' named' member
  by_cases equal : name' = name
  · subst equal
    have symbols : symbol' = symbol := by
      have source := NameTable.nameOf_injective named' named
      rwa [LexicalSymbol.source.injEq] at source
    subst symbols
    exact ⟨value, other, by simp, by simp, same⟩
  · have symbols : symbol' ≠ symbol := by
      rintro rfl
      rw [named, Option.some.injEq] at named'
      exact equal named'.symm
    have apart : (symbol' == symbol) = false := by simpa using symbols
    have apart' : (name' == name) = false := by simpa using equal
    obtain ⟨value', other', here, there, same'⟩ :=
      mirrors symbol' name' named' (covers name' member equal)
    refine ⟨value', other', ?_, ?_, same'⟩
    · rw [List.lookup_cons, apart, here]
    · rw [List.lookup_cons, apart', there]

end ScopeMirrors

/-! ## Forms -/

section Forms

variable {names : NameTable} {final : AnalysisContext} {platform : Platform} {entries : Entries}
variable {fuel : Nat}

/-- Evaluating a form and executing its tree agree. -/
def SimulatedForm (names : NameTable) (final : AnalysisContext) (platform : Platform)
    (entries : Entries) (fuel : Nat) (form : Form) : Prop :=
  ∀ {typed before node after}, analyzeForm names typed form before = .ok (node, after) →
    before.declared = final.declared → after.generated <+: final.generated →
    ∀ {places scope environment left right}, StateMirrors names final places left right →
      ScopeMirrors names places (freeHirNames [] node) scope environment →
        Agree names final places right.world Datum.Mirrors
          (executeForm (entries.apply platform) (datumTruth platform.truth) fuel closeLambda scope form
            left)
          (execute (entries.apply' platform final.generated) (datumTruth platform.truth) fuel
            environment node right)

/-- The values of the variables that a lambda captures. -/
theorem captured_values {places : List Nat} {scope : List (LispSymbol × Datum)}
    {environment : List (String × Datum)} {captures : List (String × Ty)}
    (named : ∀ name ∈ captures.map Prod.fst, ∃ symbol, names.nameOf (.source symbol) = some name)
    (mirrors : ScopeMirrors names places (captures.map Prod.fst) scope environment) :
    ∃ values,
      List.Forall₂ (fun (entry : String × Ty) value => environment.lookup entry.1 = some value)
        captures values ∧
      List.Forall₂ (Carries names places scope) (captures.map Prod.fst) values := by
  induction captures with
  | nil => exact ⟨[], .nil, .nil⟩
  | cons entry rest ih =>
      obtain ⟨values, bound, carried⟩ :=
        ih (fun name member => named name (List.mem_cons_of_mem _ member))
          (mirrors.fewer fun name member => List.mem_cons_of_mem _ member)
      obtain ⟨symbol, isNamed⟩ := named entry.1 List.mem_cons_self
      obtain ⟨_, other, _, there, _⟩ := mirrors symbol entry.1 isNamed List.mem_cons_self
      refine ⟨other :: values, .cons there bound, .cons ?_ carried⟩
      intro symbol' named'
      obtain ⟨value', other', here', there', same'⟩ :=
        mirrors symbol' entry.1 named' List.mem_cons_self
      rw [there, Option.some.injEq] at there'
      exact ⟨value', here', there' ▸ same'⟩

/-- A closure is made on both sides. -/
theorem lambda_agrees (valid : final.Valid) {parameter : LispSymbol} {body : List Form}
    {typed : List (String × Ty)} {argumentName listName : String} {nodes : List Hir} {type : Ty}
    {start before after : AnalysisContext} {node : Hir} {captures : List (String × Ty)} {number : Nat}
    (argument : names.nameOf (.source parameter) = some argumentName)
    (analyzed : analyzeForms names ((argumentName, .value) :: visibleBindings typed argumentName) body
      start = .ok (nodes, before))
    (declared : start.declared = final.declared)
    (finished : Finished names number typed argumentName (.node .progn type [] nodes) before node after
      captures listName)
    (generated : after.generated <+: final.generated) {places : List Nat}
    {scope : List (LispSymbol × Datum)} {environment : List (String × Datum)}
    {left : Surroundings Operation Datum (Heap SourceClosure)}
    {right : Surroundings Operation Datum (Heap CodeClosure)}
    (mirrors : StateMirrors names final places left right)
    (scopes : ScopeMirrors names places (freeHirNames [] node) scope environment) :
    Agree names final places right.world Datum.Mirrors (closeLambda parameter body scope left)
      (execute (entries.apply' platform final.generated) (datumTruth platform.truth) fuel environment
        node right) := by
  obtain ⟨inside, _⟩ := analyzeForms_converts (fun form _ => analyzeForm_converts form) analyzed
  have whole := finished.converts inside
  have free : ∀ name ∈ captures.map Prod.fst, name ∈ freeHirNames [] node := by
    intro name member
    rw [finished.made, mem_freeHirNames_closure]
    exact ⟨member, List.not_mem_nil⟩
  obtain ⟨values, bound, carried⟩ :=
    captured_values (fun name member => whole.named name (free name member)) (scopes.fewer free)
  obtain ⟨list, heap, executed, mirrors', kept, listed⟩ :=
    @execute_captureList platform final.generated entries (datumTruth platform.truth) fuel environment
      right names final places left captures values bound mirrors
  -- The function is the last one that the analysis added.
  let function := lambdaFunction number listName argumentName captures (.node .progn type [] nodes)
  have added := finished.added
  have member : function ∈ final.generated := by
    refine generated.subset ?_
    rw [added]
    exact List.mem_append_right _ (List.mem_singleton_self _)
  have earlier : before.generated <+: final.generated := by
    refine List.IsPrefix.trans ?_ generated
    rw [added]
    exact List.prefix_append _ _
  have executed' : execute (entries.apply' platform final.generated) (datumTruth platform.truth) fuel
      environment node right =
        .value heap.next ⟨heap.allocate (.code ⟨function, list⟩), right.trace⟩ := by
    rw [finished.made, closureNode, runtimeCallNode, execute]
    · have address : execute (entries.apply' platform final.generated) (datumTruth platform.truth) fuel
          environment (.node (.dataAddress (lambdaName number) .void) (.ptr .void false false) [] [])
          right = .value (.word (platform.address (lambdaName number))) right := rfl
      simp only [executeChildren, address, executed, Evaluation.andThen, HirKind.code]
      exact apply_makeClosure valid member list _
    all_goals (intros; contradiction)
  rw [executed', closeLambda]
  have keptAll := Kept.allocate places heap (.code (⟨function, list⟩ : CodeClosure))
  have closures : ClosureMirrors names final places heap ⟨parameter, body, scope⟩ ⟨function, list⟩ :=
    .intro argument analyzed declared earlier finished rfl listed carried
  obtain ⟨heapMirrors, kept', reference⟩ :=
    mirrors'.heap.allocate (closureMirrors_stable names final)
      (show Object.Mirrors (places ++ [heap.objects.length]) _
          (.code (⟨parameter, body, scope⟩ : SourceClosure)) (.code (⟨function, list⟩ : CodeClosure))
        from closureMirrors_stable names final _ _ _ _ keptAll _ _ closures)
  exact ⟨_, mirrors'.advance heapMirrors kept', kept.trans kept', reference⟩

theorem forms_agree {forms : List Form}
    (each : ∀ form ∈ forms, SimulatedForm names final platform entries fuel form) :
    ∀ {typed before nodes after}, analyzeForms names typed forms before = .ok (nodes, after) →
      before.declared = final.declared → after.generated <+: final.generated →
      ∀ {places scope environment left right}, StateMirrors names final places left right →
        ScopeMirrors names places (freeChildNames [] nodes) scope environment →
          Agree names final places right.world
            (fun places' values values' =>
              values.length = forms.length ∧ MirrorsAll places' values values')
            (executeForms (entries.apply platform) (datumTruth platform.truth) fuel closeLambda scope
              forms left)
            (executeChildren (entries.apply' platform final.generated) (datumTruth platform.truth) fuel
              environment nodes right) := by
  induction forms with
  | nil =>
      intro typed before nodes after analyzed _ _ places scope environment left right mirrors _
      rw [analyzeForms] at analyzed
      cases analyzed
      rw [executeForms, executeChildren]
      exact .value mirrors ⟨rfl, .nil⟩
  | cons form rest ih =>
      intro typed before nodes after analyzed declared generated
      intro places scope environment left right mirrors scopes
      rw [analyzeForms] at analyzed
      simp only [bind_eq_ok] at analyzed
      obtain ⟨⟨node, middle⟩, first, ⟨others, last⟩, second, done⟩ := analyzed
      cases done
      obtain ⟨head, _⟩ := analyzeForm_converts form first
      obtain ⟨tail, _⟩ := analyzeForms_converts (fun form _ => analyzeForm_converts form) second
      rw [freeChildNames] at scopes
      rw [executeForms, executeChildren]
      refine (each form List.mem_cons_self first declared (tail.generated.trans generated) mirrors
        (scopes.fewer fun name member => List.mem_append_left _ member)).andThen ?_
      intro places' value other left' right' kept mirrors' same
      refine (ih (fun other member => each other (List.mem_cons_of_mem _ member)) second
        (head.declared.trans declared) generated mirrors'
        ((scopes.fewer fun name member => List.mem_append_right _ member).mono kept.added)).andThen ?_
      intro places'' values others' left'' right'' kept' mirrors'' same'
      exact .value mirrors'' ⟨congrArg (· + 1) same'.1, .cons (same.mono kept'.added) same'.2⟩

/-- The forms of a body, for the value of the last. -/
theorem body_agrees {forms : List Form}
    (each : ∀ form ∈ forms, SimulatedForm names final platform entries fuel form) :
    ∀ {typed before nodes after}, analyzeForms names typed forms before = .ok (nodes, after) →
      before.declared = final.declared → after.generated <+: final.generated →
      ∀ {places scope environment left right}, StateMirrors names final places left right →
        ScopeMirrors names places (freeChildNames [] nodes) scope environment →
          Agree names final places right.world Datum.Mirrors
            (executeBody (entries.apply platform) (datumTruth platform.truth) fuel closeLambda scope
              forms left)
            (executeSequence (entries.apply' platform final.generated) (datumTruth platform.truth) fuel
              environment nodes right) := by
  induction forms with
  | nil =>
      intro typed before nodes after analyzed _ _ places scope environment left right mirrors _
      rw [analyzeForms] at analyzed
      cases analyzed
      rw [executeBody, executeSequence]
      exact ⟨places, mirrors⟩
  | cons form rest ih =>
      intro typed before nodes after analyzed declared generated
      intro places scope environment left right mirrors scopes
      rw [analyzeForms] at analyzed
      simp only [bind_eq_ok] at analyzed
      obtain ⟨⟨node, middle⟩, first, ⟨others, last⟩, second, done⟩ := analyzed
      cases done
      obtain ⟨head, _⟩ := analyzeForm_converts form first
      obtain ⟨tail, _⟩ := analyzeForms_converts (fun form _ => analyzeForm_converts form) second
      rw [freeChildNames] at scopes
      have here := each form List.mem_cons_self first declared (tail.generated.trans generated) mirrors
        (scopes.fewer fun name member => List.mem_append_left _ member)
      cases rest with
      | nil =>
          rw [analyzeForms] at second
          cases second
          rw [executeBody, executeSequence]
          exact here
      | cons form' rest' =>
          obtain ⟨node', others', rfl⟩ : ∃ node' others', others = node' :: others' := by
            rw [analyzeForms] at second
            simp only [bind_eq_ok] at second
            obtain ⟨_, _, _, _, done⟩ := second
            cases done
            exact ⟨_, _, rfl⟩
          rw [executeBody, executeSequence]
          · refine here.andThen ?_
            intro places' value other left' right' kept mirrors' _
            exact ih (fun other member => each other (List.mem_cons_of_mem _ member)) second
              (head.declared.trans declared) generated mirrors'
              ((scopes.fewer fun name member => List.mem_append_right _ member).mono kept.added)
          all_goals (intros; contradiction)

/-- The variables of a LET, for the names that its body leaves free. -/
theorem bindings_agree {bindings : List (LispSymbol × Form)} {free : List String}
    (each : ∀ binding ∈ bindings, SimulatedForm names final platform entries fuel binding.2) :
    ∀ {typed seen before entered after},
      analyzeBindings names typed seen bindings before = .ok (entered, after) →
      before.declared = final.declared → after.generated <+: final.generated →
      ∀ {places scope environment inner inner' left right},
        StateMirrors names final places left right →
        ScopeMirrors names places (freeBindingNames [] entered) scope environment →
        ScopeMirrors names places (free.filter fun name => name ∉ entered.map Prod.fst) inner inner' →
          Agree names final places right.world (fun places' => ScopeMirrors names places' free)
            (executeInitializers (entries.apply platform) (datumTruth platform.truth) fuel closeLambda
              scope inner bindings left)
            (executeBindings (entries.apply' platform final.generated) (datumTruth platform.truth) fuel
              environment inner' entered right) := by
  induction bindings with
  | nil =>
      intro typed seen before entered after analyzed _ _
      intro places scope environment inner inner' left right mirrors _ inside
      rw [analyzeBindings] at analyzed
      cases analyzed
      rw [executeInitializers, executeBindings]
      exact .value mirrors (inside.fewer fun name member => by simpa using member)
  | cons binding rest ih =>
      intro typed seen before entered after analyzed declared generated
      intro places scope environment inner inner' left right mirrors scopes inside
      rw [analyzeBindings] at analyzed
      simp only [bind_eq_ok, variableName_ok] at analyzed
      obtain ⟨name, named, ⟨node, middle⟩, first, _, _, ⟨others, last⟩, second, done⟩ := analyzed
      cases done
      obtain ⟨head, _⟩ := analyzeForm_converts binding.2 first
      have tail := analyzeBindings_converts (fun binding _ => analyzeForm_converts binding.2) second
      rw [freeBindingNames] at scopes
      rw [executeInitializers, executeBindings]
      refine (each binding List.mem_cons_self first declared (tail.generated.trans generated) mirrors
        (scopes.fewer fun name member => List.mem_append_left _ member)).andThen ?_
      intro places' value other left' right' kept mirrors' same
      refine ih (fun other member => each other (List.mem_cons_of_mem _ member)) second
        (head.declared.trans declared) generated mirrors'
        ((scopes.fewer fun name member => List.mem_append_right _ member).mono kept.added) ?_
      refine (inside.mono kept.added).bind named same ?_
      intro another member different
      rw [List.mem_filter, decide_eq_true_eq] at member ⊢
      refine ⟨member.1, ?_⟩
      rw [List.map_cons, List.mem_cons, not_or]
      exact ⟨different, member.2⟩

theorem analyzeForms_length : ∀ {forms : List Form} {typed before nodes after},
    analyzeForms names typed forms before = .ok (nodes, after) → nodes.length = forms.length := by
  intro forms
  induction forms with
  | nil =>
      intro typed before nodes after analyzed
      rw [analyzeForms] at analyzed
      cases analyzed
      rfl
  | cons form rest ih =>
      intro typed before nodes after analyzed
      rw [analyzeForms] at analyzed
      simp only [bind_eq_ok] at analyzed
      obtain ⟨_, _, ⟨others, last⟩, second, done⟩ := analyzed
      cases done
      rw [List.length_cons, List.length_cons, ih second]

/-- A node of an operation that is accepted computes from its children. -/
theorem execute_operation {apply : Apply Datum (Heap CodeClosure)} {truth : Datum → Bool}
    {declared : List (String × Nat)} {kind : HirKind} {code : OpCode} (isCode : kind.code = some code)
    {children : List Hir} (accepted : acceptedP declared kind children.length = true) (type : Ty)
    (environment : List (String × Datum))
    (right : Surroundings Operation Datum (Heap CodeClosure)) :
    execute apply truth fuel environment (.node kind type [] children) right =
      (executeChildren apply truth fuel environment children right).andThen
        fun operands after => apply ⟨code, some type⟩ operands after := by
  cases kind with
  | literal value =>
      obtain rfl : children = [] := by simpa [acceptedP] using accepted
      cases isCode
      rw [execute, executeChildren, Evaluation.andThen]
  | dataAddress name dataType =>
      obtain rfl : children = [] := by simpa [acceptedP] using accepted
      cases isCode
      rw [execute, executeChildren, Evaluation.andThen]
  | «variable» => cases isCode
  | progn => cases isCode
  | letForm => cases isCode
  | ifForm => cases isCode
  | whileForm => cases isCode
  | _ =>
      rw [execute]
      · simp only [isCode]
      all_goals (intros; contradiction)

theorem callable_of_accepted {kind : HirKind} {code : OpCode} (isCode : kind.code = some code)
    {count : Nat} (accepted : acceptedP final.declared kind count = true) (name : String)
    (isCall : code = .call name) : CallableName final name count := by
  subst isCall
  cases kind with
  | call callee =>
      cases isCode
      rw [acceptedP] at accepted
      split at accepted
      · rename_i parameters declared
        rw [beq_iff_eq] at accepted
        exact .inl (accepted ▸ declared)
      · rename_i undeclared
        exact .inr ⟨undeclared, by simpa using accepted⟩
  | _ => cases isCode

theorem loop_agrees {truth : Int → Bool} {places : List Nat} {before : Heap CodeClosure}
    {test body : Surroundings Operation Datum (Heap SourceClosure) →
      Evaluation Datum (Heap SourceClosure) Datum}
    {test' body' : Surroundings Operation Datum (Heap CodeClosure) →
      Evaluation Datum (Heap CodeClosure) Datum}
    (tests : ∀ places' left right, Kept places before places' right.world →
      StateMirrors names final places' left right →
        Agree names final places' right.world Datum.Mirrors (test left) (test' right))
    (bodies : ∀ places' left right, Kept places before places' right.world →
      StateMirrors names final places' left right →
        Agree names final places' right.world Datum.Mirrors (body left) (body' right)) :
    ∀ (iterations : Nat) {places' left right}, Kept places before places' right.world →
      StateMirrors names final places' left right →
        Agree names final places' right.world (fun _ _ _ => True)
          (loop (datumTruth truth) test body iterations left)
          (loop (datumTruth truth) test' body' iterations right) := by
  intro iterations
  induction iterations with
  | zero =>
      intro places' left right _ mirrors
      exact ⟨places', mirrors⟩
  | succ iterations ih =>
      intro places' left right kept mirrors
      rw [loop, loop]
      refine (tests places' left right kept mirrors).andThen ?_
      intro places'' value other left' right' kept' mirrors' same
      rw [datumTruth_mirrors same truth]
      by_cases isTrue : datumTruth truth other = true
      · rw [if_pos isTrue, if_pos isTrue]
        refine (bodies places'' left' right' (kept.trans kept') mirrors').andThen ?_
        intro latest _ _ left'' right'' later mirrors'' _
        exact ih ((kept.trans kept').trans later) mirrors''
      · rw [if_neg isTrue, if_neg isTrue]
        exact .value mirrors' trivial

/-- Evaluating a form and executing the tree that is made of it agree. -/
theorem form_agrees (agree : EntriesAgree names final entries) (valid : final.Valid) (form : Form) :
    SimulatedForm names final platform entries fuel form := by
  induction form using Form.induction with
  | operation kind type operands each =>
      intro typed before node after analyzed declared generated
      intro places scope environment left right mirrors scopes
      rw [analyzeForm] at analyzed
      simp only [bind_eq_ok, require_eq_ok, Bool.and_eq_true] at analyzed
      obtain ⟨_, ⟨isOperation, accepted⟩, ⟨children, last⟩, inside, done⟩ := analyzed
      cases done
      obtain ⟨code, isCode⟩ := Option.isSome_iff_exists.mp isOperation
      rw [freeHirNames_plain (plain_of_code isOperation)] at scopes
      rw [declared] at accepted
      have accepted' := accepted
      rw [← analyzeForms_length inside] at accepted'
      rw [executeForm, execute_operation isCode accepted']
      refine (forms_agree each inside declared generated mirrors scopes).andThen ?_
      intro places' values values' left' right' _ mirrors' same
      simp only [isCode]
      refine apply_agrees agree valid mirrors' same.2 ?_
      intro name isCall
      rw [same.1]
      exact callable_of_accepted isCode accepted name isCall
  | reference symbol type =>
      intro typed before node after analyzed _ _
      intro places scope environment left right mirrors scopes
      rw [analyzeForm] at analyzed
      simp only [bind_eq_ok, variableName_ok] at analyzed
      obtain ⟨name, named, _, _, done⟩ := analyzed
      cases done
      obtain ⟨value, other, here, there, same⟩ :=
        scopes symbol name named (by simp [freeHirNames])
      rw [executeForm, execute, here, there]
      exact .value mirrors same
  | progn forms each =>
      intro typed before node after analyzed declared generated
      intro places scope environment left right mirrors scopes
      rw [analyzeForm] at analyzed
      simp only [bind_eq_ok] at analyzed
      obtain ⟨⟨nodes, last⟩, inside, _, _, done⟩ := analyzed
      cases done
      rw [freeHirNames_progn] at scopes
      rw [executeForm, execute]
      exact body_agrees each inside declared generated mirrors scopes
  | letForm bindings body bindingsEach bodyEach =>
      intro typed before node after analyzed declared generated
      intro places scope environment left right mirrors scopes
      rw [analyzeForm] at analyzed
      simp only [bind_eq_ok] at analyzed
      obtain ⟨⟨entered, middle⟩, first, ⟨nodes, last⟩, second, _, _, done⟩ := analyzed
      cases done
      have head := analyzeBindings_converts (fun binding _ => analyzeForm_converts binding.2) first
      obtain ⟨tail, _⟩ := analyzeForms_converts (fun form _ => analyzeForm_converts form) second
      rw [freeHirNames, freeFirstNames, List.append_nil] at scopes
      have outside : ScopeMirrors names places
          ((freeChildNames [] nodes).filter fun name => name ∉ entered.map Prod.fst) scope
          environment := by
        refine scopes.fewer fun name member => List.mem_append_right _ ?_
        rw [List.mem_filter, decide_eq_true_eq] at member
        rw [mem_freeHirNames, freeHirNames_progn]
        exact member
      rw [executeForm, execute]
      refine (bindings_agree bindingsEach first declared (tail.generated.trans generated) mirrors
        (scopes.fewer fun name member => List.mem_append_left _ member) outside).andThen ?_
      intro places' inner inner' left' right' _ mirrors' inside
      rw [executeSequence, execute]
      exact body_agrees bodyEach second (head.declared.trans declared) generated mirrors' inside
  | ifForm test consequent alternative testEach consequentEach alternativeEach =>
      intro typed before node after analyzed declared generated
      intro places scope environment left right mirrors scopes
      rw [analyzeForm] at analyzed
      simp only [bind_eq_ok] at analyzed
      obtain ⟨⟨condition, middle⟩, first, ⟨ifTrue, later⟩, second, ⟨ifFalse, last⟩, third, _, _, done⟩ :=
        analyzed
      cases done
      obtain ⟨tested, type⟩ := analyzeForm_converts test first
      obtain ⟨chosen, _⟩ := analyzeForm_converts consequent second
      obtain ⟨other, _⟩ := analyzeForm_converts alternative third
      have plain := plain_if
      rw [freeHirNames_plain plain, freeChildNames, freeChildNames, freeChildNames] at scopes
      rw [executeForm, execute, executeIf]
      refine (testEach first declared (chosen.generated.trans (other.generated.trans generated)) mirrors
        (scopes.fewer fun name member => List.mem_append_left _ member)).andThen ?_
      intro places' value value' left' right' kept mirrors' same
      have scopes' := scopes.mono kept.added
      rw [type, datumTruth_mirrors same platform.truth]
      by_cases isTrue : test.type ≠ .boolean ∨ datumTruth platform.truth value' = true
      · rw [if_pos isTrue, if_pos isTrue]
        refine consequentEach second (tested.declared.trans declared)
          (other.generated.trans generated) mirrors' (scopes'.fewer fun name member => ?_)
        exact List.mem_append_right _ (List.mem_append_left _ member)
      · rw [if_neg isTrue, if_neg isTrue]
        refine alternativeEach third (chosen.declared.trans (tested.declared.trans declared)) generated
          mirrors' (scopes'.fewer fun name member => ?_)
        exact List.mem_append_right _ (List.mem_append_right _ (List.mem_append_left _ member))
  | whileForm test body testEach bodyEach =>
      intro typed before node after analyzed declared generated
      intro places scope environment left right mirrors scopes
      rw [analyzeForm] at analyzed
      simp only [bind_eq_ok] at analyzed
      obtain ⟨⟨condition, middle⟩, first, ⟨nodes, last⟩, second, _, _, _, _, done⟩ := analyzed
      cases done
      obtain ⟨tested, _⟩ := analyzeForm_converts test first
      obtain ⟨repeated, _⟩ := analyzeForms_converts (fun form _ => analyzeForm_converts form) second
      have plain := plain_while
      rw [freeHirNames_plain plain, freeChildNames, freeChildNames, freeHirNames_progn] at scopes
      rw [executeForm, execute, executeWhile]
      refine (loop_agrees ?_ ?_ fuel (Kept.refl _ _) mirrors).andThen ?_
      · intro places' left' right' kept mirrors'
        exact testEach first declared (repeated.generated.trans generated) mirrors'
          ((scopes.fewer fun name member => List.mem_append_left _ member).mono kept.added)
      · intro places' left' right' kept mirrors'
        rw [execute]
        refine body_agrees bodyEach second (tested.declared.trans declared) generated mirrors'
          ((scopes.fewer fun name member => ?_).mono kept.added)
        exact List.mem_append_right _ (List.mem_append_left _ member)
      · intro places' _ _ left' right' _ mirrors' _
        exact apply_agrees agree valid mirrors' .nil (by intros; contradiction)
  | lambda parameter body each =>
      intro typed before node after analyzed declared generated
      intro places scope environment left right mirrors scopes
      rw [analyzeForm] at analyzed
      simp only [bind_eq_ok, variableName_ok] at analyzed
      obtain ⟨argumentName, argument, ⟨nodes, middle⟩, inside, _, _, finished⟩ := analyzed
      obtain ⟨captures, listName, finished⟩ := finishLambda_ok finished
      rw [executeForm]
      exact lambda_agrees valid argument inside declared finished generated mirrors scopes

end Forms

end Stage0
