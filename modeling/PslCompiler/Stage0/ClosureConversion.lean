import PslCompiler.Stage0.HostedExecution

/-! # What the analysis of lambdas makes

The trees refer to variables that are in scope, and the functions made of lambdas have names of their
own.
-/

namespace Stage0

/-! ## Free names -/

theorem freeChildNames_bound {children : List Hir}
    (each : ∀ child ∈ children, ∀ bound name,
      name ∈ freeHirNames bound child ↔ name ∈ freeHirNames [] child ∧ name ∉ bound)
    (bound : List String) (name : String) :
    name ∈ freeChildNames bound children ↔ name ∈ freeChildNames [] children ∧ name ∉ bound := by
  induction children with
  | nil => simp [freeChildNames]
  | cons child rest ih =>
      rw [freeChildNames, freeChildNames, List.mem_append, List.mem_append,
        each child List.mem_cons_self, ih fun other member => each other (List.mem_cons_of_mem _ member),
        or_and_right]

theorem freeBindingNames_bound {bindings : List (String × Hir)}
    (each : ∀ binding ∈ bindings, ∀ bound name,
      name ∈ freeHirNames bound binding.2 ↔ name ∈ freeHirNames [] binding.2 ∧ name ∉ bound)
    (bound : List String) (name : String) :
    name ∈ freeBindingNames bound bindings ↔
      name ∈ freeBindingNames [] bindings ∧ name ∉ bound := by
  induction bindings with
  | nil => simp [freeBindingNames]
  | cons binding rest ih =>
      rw [freeBindingNames, freeBindingNames, List.mem_append, List.mem_append,
        each binding List.mem_cons_self,
        ih fun other member => each other (List.mem_cons_of_mem _ member), or_and_right]

/-- Bound names are taken away from the free ones. -/
theorem mem_freeHirNames (node : Hir) : ∀ bound name,
    name ∈ freeHirNames bound node ↔ name ∈ freeHirNames [] node ∧ name ∉ bound := by
  induction node using Hir.induction with
  | node kind type bindings children bindingsBound childrenBound =>
      intro bound name
      by_cases isLet : kind = .letForm
      · subst isLet
        simp only [freeHirNames]
        rw [List.mem_append, List.mem_append, freeBindingNames_bound bindingsBound, or_and_right]
        refine or_congr Iff.rfl ?_
        cases children with
        | nil => simp [freeFirstNames]
        | cons body rest =>
            simp only [freeFirstNames]
            rw [childrenBound body List.mem_cons_self,
              childrenBound body List.mem_cons_self (bindings.map Prod.fst ++ [])]
            simp only [List.mem_append, List.not_mem_nil, or_false, not_or, and_assoc]
      · by_cases isVariable : ∃ other, kind = .variable other
        · obtain ⟨other, rfl⟩ := isVariable
          simp only [freeHirNames, List.not_mem_nil, ↓reduceIte, List.mem_singleton]
          by_cases isBound : other ∈ bound
          · rw [if_pos isBound]
            constructor
            · intro member
              cases member
            · rintro ⟨rfl, unbound⟩
              exact absurd isBound unbound
          · rw [if_neg isBound, List.mem_singleton]
            exact ⟨fun same => ⟨same, same ▸ isBound⟩, fun both => both.1⟩
        · have plain : PlainKind kind := ⟨fun other same => isVariable ⟨other, same⟩, isLet⟩
          rw [freeHirNames_plain plain, freeHirNames_plain plain, freeChildNames_bound childrenBound]

/-! ## Contexts -/

/-- The functions made of lambdas have names of their own. -/
structure AnalysisContext.Valid (context : AnalysisContext) : Prop where
  distinct : (context.generated.map fun function => function.signature.name).Nodup
  undeclared : ∀ function ∈ context.generated, undeclaredP context function.signature.name = true
  numbered : ∀ function ∈ context.generated, ∃ number, function.signature.name = lambdaName number
  reserved : context.generated ≠ [] → undeclaredP context "psl_rt_make_closure" = true

/-- What an analysis in an environment does to the context, and the names it leaves free. -/
structure Converts (names : NameTable) (environment : List (String × Ty)) (before : AnalysisContext)
    (free : List String) (after : AnalysisContext) : Prop where
  declared : after.declared = before.declared
  generated : before.generated <+: after.generated
  valid : before.Valid → after.Valid
  visible : ∀ name ∈ free, name ∈ environment.map Prod.fst
  named : ∀ name ∈ free, ∃ symbol, names.nameOf (.source symbol) = some name

namespace Converts

variable {names : NameTable} {environment : List (String × Ty)}
variable {before middle after : AnalysisContext} {free others : List String}

theorem refl (context : AnalysisContext) : Converts names environment context [] context where
  declared := rfl
  generated := List.prefix_refl _
  valid := id
  visible := by simp
  named := by simp

theorem trans (first : Converts names environment before free middle)
    (second : Converts names environment middle others after) :
    Converts names environment before (free ++ others) after where
  declared := second.declared.trans first.declared
  generated := first.generated.trans second.generated
  valid := fun valid => second.valid (first.valid valid)
  visible := by
    intro name member
    rw [List.mem_append] at member
    exact member.elim (first.visible name) (second.visible name)
  named := by
    intro name member
    rw [List.mem_append] at member
    exact member.elim (first.named name) (second.named name)

/-- Fewer names, in a scope that has them. -/
theorem imp {inner : List (String × Ty)} (converts : Converts names inner before free after)
    (fewer : ∀ name ∈ others, name ∈ free ∧ name ∈ environment.map Prod.fst) :
    Converts names environment before others after where
  declared := converts.declared
  generated := converts.generated
  valid := converts.valid
  visible := fun name member => (fewer name member).2
  named := fun name member => converts.named name (fewer name member).1

end Converts

/-! ## Lambdas -/

theorem environmentName_ok {names : NameTable} {number : Nat} {name : String} :
    environmentName names number = .ok name ↔ names.nameOf (.environment number) = some name := by
  rw [environmentName]
  cases names.nameOf (.environment number) with
  | none => simp
  | some other => simp

theorem variableName_ok {names : NameTable} {symbol : LispSymbol} {name : String} :
    variableName names symbol = .ok name ↔ names.nameOf (.source symbol) = some name := by
  rw [variableName]
  cases names.nameOf (.source symbol) with
  | none => simp
  | some other => simp

/-- What is known of a lambda that has been finished. -/
structure Finished (names : NameTable) (number : Nat) (environment : List (String × Ty))
    (argumentName : String) (body : Hir) (before : AnalysisContext) (node : Hir)
    (after : AnalysisContext) (captures : List (String × Ty)) (listName : String) : Prop where
  captured : requiredValueCaptures (visibleBindings environment argumentName) body argumentName =
    .ok captures
  list : names.nameOf (.environment number) = some listName
  unknown : signatureKnownP before (lambdaName number) = false
  reserved : undeclaredP before "psl_rt_make_closure" = true
  made : node = closureNode (lambdaName number) captures
  added : after = { before with generated := before.generated ++
    [lambdaFunction number listName argumentName captures body] }

theorem finishLambda_ok {names : NameTable} {number : Nat} {environment : List (String × Ty)}
    {argumentName : String} {body node : Hir} {before after : AnalysisContext}
    (finished : finishLambda names number environment argumentName body before = .ok (node, after)) :
    ∃ captures listName,
      Finished names number environment argumentName body before node after captures listName := by
  rw [finishLambda] at finished
  simp only [bind_eq_ok, require_eq_ok, environmentName_ok] at finished
  obtain ⟨captures, captured, listName, list, -, -, -, -, -, unknown, -, -, -, reserved, done⟩ :=
    finished
  cases done
  refine ⟨captures, listName, captured, list, ?_, ?_, rfl, rfl⟩
  · simpa using unknown
  · exact reserved

/-- One more function with a name of its own. -/
theorem AnalysisContext.Valid.add {context : AnalysisContext} (valid : context.Valid)
    {function : FunctionDef} {number : Nat} (named : function.signature.name = lambdaName number)
    (unknown : signatureKnownP context (lambdaName number) = false)
    (reserved : undeclaredP context "psl_rt_make_closure" = true) :
    AnalysisContext.Valid { context with generated := context.generated ++ [function] } := by
  rw [signatureKnownP, Bool.or_eq_false_iff, ← named] at unknown
  have undeclared : undeclaredP context function.signature.name = true := by simpa using unknown.1
  have other : function.signature.name ∉
      context.generated.map fun function => function.signature.name := by
    intro member
    have found := List.contains_iff_mem.mpr member
    rw [unknown.2] at found
    cases found
  refine ⟨?_, ?_, ?_, fun _ => reserved⟩
  · rw [List.map_append, List.map_singleton, List.nodup_append]
    refine ⟨valid.distinct, List.nodup_singleton _, ?_⟩
    intro name member another single
    rw [List.mem_singleton] at single
    exact single ▸ fun same => other (same ▸ member)
  · intro made member
    rw [List.mem_append, List.mem_singleton] at member
    cases member with
    | inl earlier => exact valid.undeclared made earlier
    | inr last => exact last ▸ undeclared
  · intro made member
    rw [List.mem_append, List.mem_singleton] at member
    cases member with
    | inl earlier => exact valid.numbered made earlier
    | inr last => exact ⟨number, last ▸ named⟩

section Finished

variable {names : NameTable} {number : Nat} {environment : List (String × Ty)}
variable {argumentName listName : String} {before after : AnalysisContext}
variable {nodes : List Hir} {node : Hir} {type : Ty} {captures : List (String × Ty)}

/-- The captures are visible variables that the body leaves free. -/
theorem mem_captures {body : Hir}
    (captured : requiredValueCaptures (visibleBindings environment argumentName) body argumentName =
      .ok captures) {name : String} :
    name ∈ captures.map Prod.fst ↔
      (name ∈ environment.map Prod.fst ∧ name ≠ argumentName) ∧ name ∈ freeHirNames [] body := by
  have listed := requiredValueCaptures_ok _ _ (not_uncapturable_of_ok _ _ captured)
  rw [captured, Except.ok.injEq] at listed
  have free : ∀ other, other ∈ freeHirNames [argumentName] body ↔
      other ∈ freeHirNames [] body ∧ other ≠ argumentName := by
    intro other
    rw [mem_freeHirNames, List.mem_singleton]
  rw [← mem_visibleBindings, listed]
  constructor
  · intro member
    obtain ⟨entry, kept, rfl⟩ := List.mem_map.mp member
    rw [List.mem_filter, decide_eq_true_eq, free] at kept
    exact ⟨List.mem_map_of_mem kept.1, kept.2.1⟩
  · rintro ⟨member, used⟩
    obtain ⟨entry, inside, rfl⟩ := List.mem_map.mp member
    have other := (mem_visibleBindings.mp member).2
    refine List.mem_map.mpr ⟨entry, List.mem_filter.mpr ⟨inside, ?_⟩, rfl⟩
    rw [decide_eq_true_eq, free]
    exact ⟨used, other⟩

theorem freeHirNames_progn (bound : List String) (type : Ty) (nodes : List Hir) :
    freeHirNames bound (.node .progn type [] nodes) = freeChildNames bound nodes := by
  have plain := plain_progn
  exact freeHirNames_plain plain _ _ _ _

/-- Finishing a lambda leaves free what its body does, apart from the argument. -/
theorem Finished.converts {start : AnalysisContext}
    (finished : Finished names number environment argumentName (.node .progn type [] nodes) before node
      after captures listName)
    (inside : Converts names ((argumentName, .value) :: visibleBindings environment argumentName) start
      (freeChildNames [] nodes) before) :
    Converts names environment start (freeHirNames [] node) after := by
  have free : ∀ name ∈ freeHirNames [] node,
      name ∈ freeChildNames [] nodes ∧ name ∈ environment.map Prod.fst := by
    intro name member
    rw [finished.made, mem_freeHirNames_closure, mem_captures finished.captured,
      freeHirNames_progn] at member
    exact ⟨member.1.2, member.1.1.1⟩
  have body := inside.imp free
  have added := finished.added
  refine ⟨?_, ?_, ?_, body.visible, body.named⟩
  · rw [added]
    exact body.declared
  · rw [added]
    exact body.generated.trans (List.prefix_append _ _)
  · intro valid
    rw [added]
    exact (body.valid valid).add rfl finished.unknown finished.reserved

end Finished

/-! ## Forms -/

/-- Induction over forms, with the property for the forms inside. -/
theorem Form.induction {motive : Form → Prop}
    (operation : ∀ kind type operands, (∀ form ∈ operands, motive form) →
      motive (.operation kind type operands))
    (reference : ∀ symbol type, motive (.reference symbol type))
    (progn : ∀ forms, (∀ form ∈ forms, motive form) → motive (.progn forms))
    (letForm : ∀ bindings body, (∀ binding ∈ bindings, motive binding.2) →
      (∀ form ∈ body, motive form) → motive (.letForm bindings body))
    (ifForm : ∀ test consequent alternative, motive test → motive consequent → motive alternative →
      motive (.ifForm test consequent alternative))
    (whileForm : ∀ test body, motive test → (∀ form ∈ body, motive form) →
      motive (.whileForm test body))
    (lambda : ∀ parameter body, (∀ form ∈ body, motive form) → motive (.lambda parameter body)) :
    ∀ form, motive form :=
  fun form => @Form.rec motive (fun forms => ∀ form ∈ forms, motive form)
    (fun bindings => ∀ binding ∈ bindings, motive binding.2) (fun binding => motive binding.2)
    operation reference progn letForm ifForm whileForm lambda (by simp)
    (fun first rest here there => by
      intro form member
      rw [List.mem_cons] at member
      exact member.elim (fun same => same ▸ here) (there form)) (by simp)
    (fun first rest here there => by
      intro binding member
      rw [List.mem_cons] at member
      exact member.elim (fun same => same ▸ here) (there binding)) (fun _ _ inside => inside) form

section Forms

variable {names : NameTable}

/-- The analysis of a form leaves names free that are in scope, and keeps its type. -/
def ConvertsForm (names : NameTable) (form : Form) : Prop :=
  ∀ {environment before node after}, analyzeForm names environment form before = .ok (node, after) →
    Converts names environment before (freeHirNames [] node) after ∧ node.type = form.type

theorem analyzeForms_converts {forms : List Form} (each : ∀ form ∈ forms, ConvertsForm names form) :
    ∀ {environment before nodes after},
      analyzeForms names environment forms before = .ok (nodes, after) →
        Converts names environment before (freeChildNames [] nodes) after ∧
          prognType nodes = lastType forms := by
  induction forms with
  | nil =>
      intro environment before nodes after analyzed
      rw [analyzeForms] at analyzed
      cases analyzed
      exact ⟨Converts.refl _, rfl⟩
  | cons form rest ih =>
      intro environment before nodes after analyzed
      rw [analyzeForms] at analyzed
      simp only [bind_eq_ok] at analyzed
      obtain ⟨⟨node, middle⟩, first, ⟨others, last⟩, second, done⟩ := analyzed
      cases done
      obtain ⟨head, type⟩ := each form List.mem_cons_self first
      obtain ⟨tail, types⟩ := ih (fun other member => each other (List.mem_cons_of_mem _ member)) second
      refine ⟨head.trans tail, ?_⟩
      cases rest with
      | nil =>
          rw [analyzeForms] at second
          cases second
          rw [lastType]
          exact type
      | cons another others' =>
          rw [lastType, ← types]
          rw [analyzeForms] at second
          simp only [bind_eq_ok] at second
          obtain ⟨_, _, _, _, done⟩ := second
          cases done
          rfl
          intros
          contradiction

theorem analyzeBindings_converts {bindings : List (LispSymbol × Form)}
    (each : ∀ binding ∈ bindings, ConvertsForm names binding.2) :
    ∀ {environment seen before entries after},
      analyzeBindings names environment seen bindings before = .ok (entries, after) →
        Converts names environment before (freeBindingNames [] entries) after := by
  induction bindings with
  | nil =>
      intro environment seen before entries after analyzed
      rw [analyzeBindings] at analyzed
      cases analyzed
      exact Converts.refl _
  | cons binding rest ih =>
      intro environment seen before entries after analyzed
      rw [analyzeBindings] at analyzed
      simp only [bind_eq_ok] at analyzed
      obtain ⟨name, _, ⟨node, middle⟩, first, _, _, ⟨others, last⟩, second, done⟩ := analyzed
      cases done
      exact (each binding List.mem_cons_self first).1.trans
        (ih (fun other member => each other (List.mem_cons_of_mem _ member)) second)

theorem plain_of_code {kind : HirKind} (isCode : kind.code.isSome = true) : PlainKind kind := by
  constructor
  · rintro name rfl
    cases isCode
  · rintro rfl
    cases isCode

theorem analyzeForm_converts (form : Form) : ConvertsForm names form := by
  induction form using Form.induction with
  | operation kind type operands each =>
      intro environment before node after analyzed
      rw [analyzeForm] at analyzed
      simp only [bind_eq_ok, require_eq_ok] at analyzed
      obtain ⟨_, accepted, ⟨children, last⟩, inside, done⟩ := analyzed
      cases done
      rw [Bool.and_eq_true] at accepted
      rw [freeHirNames_plain (plain_of_code accepted.1)]
      exact ⟨(analyzeForms_converts each inside).1, rfl⟩
  | reference symbol type =>
      intro environment before node after analyzed
      rw [analyzeForm] at analyzed
      simp only [bind_eq_ok, require_eq_ok, variableName_ok, beq_iff_eq] at analyzed
      obtain ⟨name, named, _, bound, done⟩ := analyzed
      cases done
      have free : freeHirNames [] (.node (.variable name) type [] []) = [name] := by
        simp [freeHirNames]
      rw [free]
      refine ⟨⟨rfl, List.prefix_refl _, id, ?_, ?_⟩, rfl⟩
      · intro other member
        rw [List.mem_singleton.mp member]
        exact lookup_mem_names bound
      · intro other member
        rw [List.mem_singleton.mp member]
        exact ⟨symbol, named⟩
  | progn forms each =>
      intro environment before node after analyzed
      rw [analyzeForm] at analyzed
      simp only [bind_eq_ok] at analyzed
      obtain ⟨⟨nodes, last⟩, inside, _, _, done⟩ := analyzed
      cases done
      obtain ⟨converts, type⟩ := analyzeForms_converts each inside
      rw [freeHirNames_progn, Form.type]
      exact ⟨converts, type⟩
  | letForm bindings body bindingsEach bodyEach =>
      intro environment before node after analyzed
      rw [analyzeForm] at analyzed
      simp only [bind_eq_ok] at analyzed
      obtain ⟨⟨entries, middle⟩, first, ⟨nodes, last⟩, second, _, _, done⟩ := analyzed
      cases done
      obtain ⟨inside, type⟩ := analyzeForms_converts bodyEach second
      rw [freeHirNames, freeFirstNames, freeHirNames_progn, Form.type]
      refine ⟨(analyzeBindings_converts bindingsEach first).trans (inside.imp ?_), type⟩
      intro name member
      rw [← freeHirNames_progn _ .void, mem_freeHirNames, freeHirNames_progn, List.append_nil] at member
      have visible := inside.visible name member.1
      rw [List.map_append, List.map_map, List.mem_append] at visible
      exact ⟨member.1, visible.resolve_left member.2⟩
  | ifForm test consequent alternative testEach consequentEach alternativeEach =>
      intro environment before node after analyzed
      rw [analyzeForm] at analyzed
      simp only [bind_eq_ok] at analyzed
      obtain ⟨⟨condition, middle⟩, first, ⟨ifTrue, later⟩, second, ⟨ifFalse, last⟩, third, _, _, done⟩ :=
        analyzed
      cases done
      have plain := plain_if
      obtain ⟨tested, _⟩ := testEach first
      obtain ⟨chosen, type⟩ := consequentEach second
      obtain ⟨other, _⟩ := alternativeEach third
      rw [freeHirNames_plain plain, Form.type]
      have all := (tested.trans (chosen.trans (other.trans (Converts.refl _))))
      exact ⟨all, type⟩
  | whileForm test body testEach bodyEach =>
      intro environment before node after analyzed
      rw [analyzeForm] at analyzed
      simp only [bind_eq_ok] at analyzed
      obtain ⟨⟨condition, middle⟩, first, ⟨nodes, last⟩, second, _, _, _, _, done⟩ := analyzed
      cases done
      have plain := plain_while
      rw [freeHirNames_plain plain, Form.type]
      simp only [freeChildNames, freeHirNames_progn]
      exact ⟨(testEach first).1.trans ((analyzeForms_converts bodyEach second).1.trans
        (Converts.refl _)), rfl⟩
  | lambda parameter body each =>
      intro environment before node after analyzed
      rw [analyzeForm] at analyzed
      simp only [bind_eq_ok] at analyzed
      obtain ⟨argumentName, _, ⟨nodes, middle⟩, inside, _, _, finished⟩ := analyzed
      obtain ⟨captures, listName, finished⟩ := finishLambda_ok finished
      obtain ⟨converts, _⟩ := analyzeForms_converts each inside
      have whole := finished.converts converts
      refine ⟨⟨whole.declared, whole.generated, ?_, whole.visible, whole.named⟩, ?_⟩
      · exact fun valid =>
          whole.valid ⟨valid.distinct, valid.undeclared, valid.numbered, valid.reserved⟩
      · rw [finished.made]
        rfl

end Forms

end Stage0
