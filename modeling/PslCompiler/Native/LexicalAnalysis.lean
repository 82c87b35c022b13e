import PslCompiler.Native.FreeVariables
import PslCompiler.Stage0.Closures

/-! # The bootstrap compiler on the same source

How the bootstrap compiler turns a form into a HIR tree, as far as the scoping of variables goes. The
names that the tree leaves free are those of the variables that are free in the form.
-/

namespace Native

open Stage0

/-- The names that the bootstrap compiler gives to the symbols of a unit: no two share one. -/
structure LexicalNames where
  nameOf : SourceSymbol → String
  injective : Function.Injective nameOf

/-- Nodes that are made from analyzed parts, in their order: calls of the runtime, tests, blocks,
literals and addresses are put around them. -/
inductive Assembled : List Hir → List Hir → Prop
  | nil : Assembled [] []
  | part {hir : Hir} {parts nodes : List Hir} (rest : Assembled parts nodes) :
      Assembled (hir :: parts) (hir :: nodes)
  | node {kind : HirKind} {type : Ty} {inner children parts nodes : List Hir}
      (plain : PlainKind kind) (inside : Assembled inner children) (rest : Assembled parts nodes) :
      Assembled (inner ++ parts) (.node kind type [] children :: nodes)

/-- Forms that are not evaluated: literals, quoted data, T and NIL. -/
def dataFormP : SyntaxKind → Syntax → Bool
  | .quote, _ => true
  | .literal, _ => true
  | .symbol symbol, _ => constantP symbol
  | .list, .node (.symbol (.word .quote)) _ _ => true
  | _, _ => false

/-- The operators whose first argument is a type. -/
def castWordP (word : SourceWord) : Bool :=
  word = .wrapCast || word = .ptrCast || word = .ptrFromAddress

/-- What is analyzed: a form, several forms, the bindings of a LET, or the clauses of a COND. -/
inductive Part
  | form (kind : SyntaxKind) (first : Syntax) (hir : Hir)
  | forms (items : Syntax) (nodes : List Hir)
  | bindings (items : Syntax) (entries : List (String × Hir))
  | clauses (items : Syntax) (nodes : List Hir)

def hirType : Hir → Ty
  | .node _ type _ _ => type

/-- The lambda `(lambda (parameter) body...)` after its first symbol. -/
def lambdaParts (parameter : SourceSymbol) (below body : Syntax) : Syntax :=
  .node .list (.node (.symbol parameter) below .none) body

section Analysis

variable (names : LexicalNames)

/-- The analysis of the bootstrap compiler in an environment. Operators other than those that bind
variables or have arguments of their own put their arguments together. -/
inductive Analyzed : List (String × Ty) → Part → Prop
  | data {environment kind first hir} (unevaluated : dataFormP kind first = true)
      (made : Assembled [] [hir]) : Analyzed environment (.form kind first hir)
  | reference {environment symbol first type} (proper : constantP symbol = false)
      (bound : environment.lookup (names.nameOf symbol) = some type) :
      Analyzed environment
        (.form (.symbol symbol) first (.node (.variable (names.nameOf symbol)) type [] []))
  | call {environment identity below arguments parts hir}
      (operands : Analyzed environment (.forms arguments parts)) (made : Assembled parts [hir]) :
      Analyzed environment (.form .list (.node (.symbol (.name identity)) below arguments) hir)
  | letForm {environment below bindings body entries nodes type bodyType}
      (values : Analyzed environment (.bindings bindings entries))
      (inside : Analyzed (entries.map (fun entry => (entry.1, hirType entry.2)) ++ environment)
        (.forms body nodes)) :
      Analyzed environment
        (.form .list (.node (.symbol (.word .letForm)) below (.node .list bindings body))
          (.node .letForm type entries [.node .progn bodyType [] nodes]))
  | lambda {environment below parameter under body nodes type captures code}
      (inside : Analyzed ((names.nameOf parameter, .value) ::
        visibleBindings environment (names.nameOf parameter)) (.forms body nodes))
      (captured : requiredValueCaptures (visibleBindings environment (names.nameOf parameter))
        (.node .progn type [] nodes) (names.nameOf parameter) = .ok captures) :
      Analyzed environment
        (.form .list (.node (.symbol (.word .lambda)) below (lambdaParts parameter under body))
          (closureNode code captures))
  | function {environment below parameter under body head hir}
      (inside : Analyzed environment
        (.form .list (.node (.symbol (.word .lambda)) head (lambdaParts parameter under body))
          hir)) :
      Analyzed environment
        (.form .list (.node (.symbol (.word .function)) below
          (.node .list (.node (.symbol (.word .lambda)) head (lambdaParts parameter under body))
            .none)) hir)
  | functionMark {environment parameter under body head others hir}
      (inside : Analyzed environment
        (.form .list (.node (.symbol (.word .lambda)) head (lambdaParts parameter under body))
          hir)) :
      Analyzed environment
        (.form .function (.node .list (.node (.symbol (.word .lambda)) head
          (lambdaParts parameter under body)) others) hir)
  | cond {environment below clauses parts hir}
      (inside : Analyzed environment (.clauses clauses parts)) (made : Assembled parts [hir]) :
      Analyzed environment (.form .list (.node (.symbol (.word .cond)) below clauses) hir)
  | multipleValueBind {environment below left right leftBelow rightBelow kind first body value second}
      {nodes type bodyType}
      (values : Analyzed environment (.form kind first value))
      (other : Assembled [] [second])
      (inside : Analyzed ((names.nameOf left, .value) :: (names.nameOf right, .value) :: environment)
        (.forms body nodes)) :
      Analyzed environment
        (.form .list (.node (.symbol (.word .multipleValueBind)) below
          (.node .list (.node (.symbol left) leftBelow (.node (.symbol right) rightBelow .none))
            (.node kind first body)))
          (.node .letForm type [(names.nameOf left, value), (names.nameOf right, second)]
            [.node .progn bodyType [] nodes]))
  | cast {environment word below kind first operands parts hir} (typed : castWordP word = true)
      (inside : Analyzed environment (.forms operands parts)) (made : Assembled parts [hir]) :
      Analyzed environment
        (.form .list (.node (.symbol (.word word)) below (.node kind first operands)) hir)
  | ffiCall {environment below kind first operands parts hir}
      (inside : Analyzed environment (.forms operands parts)) (made : Assembled parts [hir]) :
      Analyzed environment
        (.form .list (.node (.symbol (.word .ffiCall)) below (.node kind first operands)) hir)
  | ffiAddressOf {environment below arguments hir} (made : Assembled [] [hir]) :
      Analyzed environment
        (.form .list (.node (.symbol (.word .ffiAddressOf)) below arguments) hir)
  | noForms {environment} : Analyzed environment (.forms .none [])
  | nextForm {environment kind first next hir nodes}
      (head : Analyzed environment (.form kind first hir))
      (tail : Analyzed environment (.forms next nodes)) :
      Analyzed environment (.forms (.node kind first next) (hir :: nodes))
  | skipData {environment kind first next nodes} (unevaluated : dataFormP kind first = true)
      (tail : Analyzed environment (.forms next nodes)) :
      Analyzed environment (.forms (.node kind first next) nodes)
  | noBindings {environment} : Analyzed environment (.bindings .none [])
  | nextBinding {environment symbol below kind first next hir entries}
      (value : Analyzed environment (.form kind first hir))
      (rest : Analyzed environment (.bindings next entries)) :
      Analyzed environment
        (.bindings (.node .list (.node (.symbol symbol) below (.node kind first .none)) next)
          ((names.nameOf symbol, hir) :: entries))
  | noClauses {environment} : Analyzed environment (.clauses .none [])
  | nextClause {environment clause next nodes others}
      (head : Analyzed environment (.forms clause nodes))
      (tail : Analyzed environment (.clauses next others)) :
      Analyzed environment (.clauses (.node .list clause next) (nodes ++ others))

end Analysis

/-! ## Free names -/

theorem Assembled.freeChildNames {parts nodes : List Hir} (assembled : Assembled parts nodes)
    (bound : List String) : freeChildNames bound nodes = Stage0.freeChildNames bound parts := by
  induction assembled with
  | nil => rfl
  | part _ ih => rw [Stage0.freeChildNames, Stage0.freeChildNames, ih]
  | node plain _ _ inside rest =>
      rw [Stage0.freeChildNames, freeHirNames_plain plain, inside, rest, freeChildNames_append]

/-- A node that is made from parts leaves the names free that they leave free. -/
theorem Assembled.freeHirNames {parts : List Hir} {hir : Hir} (assembled : Assembled parts [hir])
    (bound : List String) : freeHirNames bound hir = Stage0.freeChildNames bound parts := by
  rw [← assembled.freeChildNames bound, Stage0.freeChildNames, Stage0.freeChildNames,
    List.append_nil]

namespace Part

/-- A part refers to a variable. -/
def FreeP (wanted : SourceSymbol) : Part → Prop
  | form kind first _ => nodeFreeP wanted kind first = true
  | forms items _ => freeInP wanted items = true
  | bindings items _ => initializersFreeP wanted items = true
  | clauses items _ => clausesFreeP wanted items = true

/-- The names that the analysis of a part leaves free. -/
def freeNames (bound : List String) : Part → List String
  | form _ _ hir => freeHirNames bound hir
  | forms _ nodes => freeChildNames bound nodes
  | bindings _ entries => freeBindingNames bound entries
  | clauses _ nodes => freeChildNames bound nodes

/-- The names that are left free are those of the free variables, which are in scope. -/
structure Lexical (names : LexicalNames) (environment : List (String × Ty)) (part : Part) : Prop where
  free : ∀ bound name, name ∈ part.freeNames bound ↔
    name ∉ bound ∧ ∃ symbol, names.nameOf symbol = name ∧ part.FreeP symbol
  inScope : ∀ symbol, part.FreeP symbol → names.nameOf symbol ∈ environment.map Prod.fst

end Part

theorem nodeFreeP_data {wanted : SourceSymbol} {kind : SyntaxKind} {first : Syntax}
    (unevaluated : dataFormP kind first = true) : nodeFreeP wanted kind first = false := by
  unfold dataFormP at unevaluated
  split at unevaluated
  · rw [nodeFreeP] <;> (intros; contradiction)
  · rw [nodeFreeP] <;> (intros; contradiction)
  · rw [nodeFreeP, unevaluated]
    simp
  · rw [nodeFreeP, operatorFreeP] <;> (intros; contradiction)
  · cases unevaluated

namespace Part.Lexical

variable {names : LexicalNames} {environment : List (String × Ty)}

theorem of_none {part : Part} (noNames : ∀ bound, part.freeNames bound = [])
    (noSymbols : ∀ symbol, ¬ part.FreeP symbol) : part.Lexical names environment where
  free := by
    intro bound name
    simp only [noNames, List.not_mem_nil, noSymbols, and_false, exists_false]
  inScope := fun symbol used => absurd used (noSymbols symbol)

theorem of_same {part other : Part} (lexical : other.Lexical names environment)
    (sameNames : ∀ bound, part.freeNames bound = other.freeNames bound)
    (sameSymbols : ∀ symbol, part.FreeP symbol ↔ other.FreeP symbol) :
    part.Lexical names environment where
  free := by
    intro bound name
    simp only [sameNames, sameSymbols, lexical.free]
  inScope := fun symbol used => lexical.inScope symbol ((sameSymbols symbol).mp used)

theorem of_both {part left right : Part} (first : left.Lexical names environment)
    (second : right.Lexical names environment)
    (bothNames : ∀ bound, part.freeNames bound = left.freeNames bound ++ right.freeNames bound)
    (bothSymbols : ∀ symbol, part.FreeP symbol ↔ left.FreeP symbol ∨ right.FreeP symbol) :
    part.Lexical names environment where
  free := by
    intro bound name
    rw [bothNames, List.mem_append, first.free, second.free, ← and_or_left, ← exists_or]
    simp only [bothSymbols, and_or_left]
  inScope := by
    intro symbol used
    rw [bothSymbols] at used
    cases used with
    | inl used => exact first.inScope symbol used
    | inr used => exact second.inScope symbol used

/-- Forms in the scope of variables, after parts outside of it. -/
theorem of_scope {part outside inside : Part} {inner : List (String × Ty)}
    (locals : List SourceSymbol) (first : outside.Lexical names environment)
    (second : inside.Lexical names inner)
    (outer : inner.map Prod.fst = locals.map names.nameOf ++ environment.map Prod.fst)
    (bothNames : ∀ bound, part.freeNames bound =
      outside.freeNames bound ++ inside.freeNames (locals.map names.nameOf ++ bound))
    (bothSymbols : ∀ symbol, part.FreeP symbol ↔
      outside.FreeP symbol ∨ symbol ∉ locals ∧ inside.FreeP symbol) :
    part.Lexical names environment where
  free := by
    intro bound name
    rw [bothNames, List.mem_append, first.free, second.free]
    simp only [bothSymbols, List.mem_append, not_or]
    constructor
    · rintro (⟨unbound, symbol, named, used⟩ | ⟨⟨other, unbound⟩, symbol, rfl, used⟩)
      · exact ⟨unbound, symbol, named, .inl used⟩
      · exact ⟨unbound, symbol, rfl, .inr ⟨fun member => other (List.mem_map_of_mem member), used⟩⟩
    · rintro ⟨unbound, symbol, rfl, used | ⟨other, used⟩⟩
      · exact .inl ⟨unbound, symbol, rfl, used⟩
      · refine .inr ⟨⟨?_, unbound⟩, symbol, rfl, used⟩
        rw [List.mem_map_of_injective names.injective]
        exact other
  inScope := by
    intro symbol used
    rw [bothSymbols] at used
    cases used with
    | inl used => exact first.inScope symbol used
    | inr used =>
        have member := second.inScope symbol used.2
        rw [outer, List.mem_append, List.mem_map_of_injective names.injective] at member
        exact member.resolve_left used.1

end Part.Lexical

/-- The bindings of a LET bind its variables. -/
theorem Analyzed.binds {names : LexicalNames} {environment : List (String × Ty)} :
    ∀ {items : Syntax} {entries : List (String × Hir)},
      Analyzed names environment (.bindings items entries) →
        entries.map Prod.fst = (letVariables items).map names.nameOf := by
  intro items
  induction items with
  | none =>
      intro entries analyzed
      cases analyzed
      rfl
  | node kind first next _ ih =>
      intro entries analyzed
      cases analyzed with
      | nextBinding value rest => rw [List.map_cons, letVariables, List.map_cons, ih rest]

/-- The free variables of a lambda are those of its body, apart from its parameter. -/
theorem nodeFreeP_lambda {wanted parameter : SourceSymbol} {below under body : Syntax} :
    nodeFreeP wanted .list (.node (.symbol (.word .lambda)) below (lambdaParts parameter under body)) =
        true ↔
      wanted ≠ parameter ∧ freeInP wanted body = true := by
  rw [nodeFreeP, lambdaParts, operatorFreeP, namesOf, namesOf]
  simp

/-- A closure leaves the names free that the body of its lambda does, apart from the argument. -/
theorem Part.Lexical.of_lambda {names : LexicalNames} {environment : List (String × Ty)}
    {below under body : Syntax} {parameter : SourceSymbol} {nodes : List Hir} {type : Ty}
    {captures : List (String × Ty)} {code : String}
    (inside : (Part.forms body nodes).Lexical names ((names.nameOf parameter, .value) ::
      visibleBindings environment (names.nameOf parameter)))
    (captured : requiredValueCaptures (visibleBindings environment (names.nameOf parameter))
      (.node .progn type [] nodes) (names.nameOf parameter) = .ok captures) :
    (Part.form .list (.node (.symbol (.word .lambda)) below (lambdaParts parameter under body))
      (closureNode code captures)).Lexical names environment := by
  have plain := plain_progn
  have listed := requiredValueCaptures_ok _ _ (not_uncapturable_of_ok _ _ captured)
  rw [captured, Except.ok.injEq, freeHirNames_plain plain] at listed
  have inEnvironment : ∀ symbol, symbol ≠ parameter → freeInP symbol body = true →
      names.nameOf symbol ∈
        (visibleBindings environment (names.nameOf parameter)).map Prod.fst := by
    intro symbol different used
    have member := inside.inScope symbol used
    rw [List.map_cons, List.mem_cons] at member
    exact member.resolve_left fun same => different (names.injective same)
  -- The captures are the free variables of the body that are not the argument.
  have members : ∀ name, name ∈ captures.map Prod.fst ↔
      ∃ symbol, names.nameOf symbol = name ∧ symbol ≠ parameter ∧ freeInP symbol body = true := by
    intro name
    have used := inside.free [names.nameOf parameter] name
    rw [List.mem_singleton] at used
    constructor
    · intro member
      obtain ⟨entry, kept, rfl⟩ := List.mem_map.mp member
      rw [listed, List.mem_filter, decide_eq_true_eq] at kept
      obtain ⟨other, symbol, named, free⟩ := used.mp kept.2
      exact ⟨symbol, named, fun same => other (same ▸ named.symm), free⟩
    · rintro ⟨symbol, rfl, different, free⟩
      obtain ⟨entry, member, named⟩ := List.mem_map.mp (inEnvironment symbol different free)
      refine List.mem_map.mpr ⟨entry, ?_, named⟩
      rw [listed, List.mem_filter, decide_eq_true_eq, named]
      exact ⟨member, used.mpr ⟨fun same => different (names.injective same), symbol, rfl, free⟩⟩
  refine ⟨?_, ?_⟩
  · intro bound name
    rw [Part.freeNames, mem_freeHirNames_closure, members]
    simp only [Part.FreeP, nodeFreeP_lambda]
    exact and_comm
  · intro symbol used
    rw [Part.FreeP, nodeFreeP_lambda] at used
    exact (mem_visibleBindings.mp (inEnvironment symbol used.1 used.2)).1

theorem nodeFreeP_cast {wanted : SourceSymbol} {word : SourceWord} (typed : castWordP word = true)
    {below first operands : Syntax} {kind : SyntaxKind} :
    nodeFreeP wanted .list (.node (.symbol (.word word)) below (.node kind first operands)) =
      freeInP wanted operands := by
  cases word with
  | wrapCast => rw [nodeFreeP, operatorFreeP]
  | ptrCast => rw [nodeFreeP, operatorFreeP]
  | ptrFromAddress => rw [nodeFreeP, operatorFreeP]
  | _ => cases typed

/-- The analysis of a part leaves exactly its free variables free. -/
theorem Analyzed.lexical {names : LexicalNames} {environment : List (String × Ty)} {part : Part}
    (analyzed : Analyzed names environment part) : part.Lexical names environment := by
  have plain := plain_progn
  induction analyzed with
  | data unevaluated made =>
      refine .of_none (fun bound => made.freeHirNames bound) (fun symbol used => ?_)
      rw [Part.FreeP, nodeFreeP_data unevaluated] at used
      cases used
  | @reference environment symbol first type proper bound =>
      refine ⟨fun bound name => ?_, fun other used => ?_⟩
      · simp only [Part.freeNames, freeHirNames, Part.FreeP, nodeFreeP]
        by_cases isBound : names.nameOf symbol ∈ bound
        · rw [if_pos isBound]
          constructor
          · intro member
            cases member
          · rintro ⟨unbound, other, rfl, used⟩
            rw [Bool.and_eq_true, decide_eq_true_eq] at used
            exact absurd (used.1 ▸ isBound) unbound
        · rw [if_neg isBound, List.mem_singleton]
          constructor
          · rintro rfl
            exact ⟨isBound, symbol, rfl, by simp [proper]⟩
          · rintro ⟨_, other, rfl, used⟩
            rw [Bool.and_eq_true, decide_eq_true_eq] at used
            rw [used.1]
      · rw [Part.FreeP, nodeFreeP, Bool.and_eq_true, decide_eq_true_eq] at used
        exact used.1 ▸ lookup_mem_names bound
  | call operands made ih =>
      refine ih.of_same (fun bound => made.freeHirNames bound) (fun symbol => ?_)
      rw [Part.FreeP, Part.FreeP, nodeFreeP]
      rintro _ ⟨⟩
  | @letForm environment below bindings body entries nodes type bodyType values inside first second =>
      refine .of_scope (letVariables bindings) first second ?_ (fun bound => ?_) (fun symbol => ?_)
      · rw [List.map_append, List.map_map, ← values.binds]
        rfl
      · simp only [Part.freeNames, freeHirNames, freeFirstNames]
        rw [values.binds]
      · simp [Part.FreeP, nodeFreeP, operatorFreeP]
  | lambda inside captured ih => exact ih.of_lambda captured
  | function inside ih =>
      refine ih.of_same (fun bound => rfl) (fun symbol => ?_)
      simp [Part.FreeP, nodeFreeP, operatorFreeP, lambdaParts]
  | functionMark inside ih =>
      refine ih.of_same (fun bound => rfl) (fun symbol => ?_)
      simp [Part.FreeP, nodeFreeP, operatorFreeP, lambdaParts]
  | cond inside made ih =>
      refine ih.of_same (fun bound => made.freeHirNames bound) (fun symbol => ?_)
      rw [Part.FreeP, Part.FreeP, nodeFreeP, operatorFreeP]
  | @multipleValueBind environment below left right leftBelow rightBelow kind first body value second
      nodes type bodyType values other inside outer inner =>
      refine .of_scope [left, right] outer inner ?_ (fun bound => ?_) (fun symbol => ?_)
      · rfl
      · simp only [Part.freeNames, freeHirNames, freeFirstNames, freeChildNames, freeBindingNames,
          other.freeHirNames, List.append_nil, List.map_cons, List.map_nil]
      · simp [Part.FreeP, nodeFreeP, operatorFreeP, namesOf]
  | cast typed inside made ih =>
      refine ih.of_same (fun bound => made.freeHirNames bound) (fun symbol => ?_)
      rw [Part.FreeP, Part.FreeP, nodeFreeP_cast typed]
  | ffiCall inside made ih =>
      refine ih.of_same (fun bound => made.freeHirNames bound) (fun symbol => ?_)
      rw [Part.FreeP, Part.FreeP, nodeFreeP, operatorFreeP]
  | ffiAddressOf made =>
      refine .of_none (fun bound => made.freeHirNames bound) (fun symbol used => ?_)
      rw [Part.FreeP, nodeFreeP, operatorFreeP] at used
      all_goals first | cases used | (intros; contradiction)
  | noForms =>
      refine .of_none (fun bound => rfl) (fun symbol used => ?_)
      rw [Part.FreeP, freeInP] at used
      cases used
  | nextForm head tail first second =>
      refine first.of_both second (fun bound => rfl) (fun symbol => ?_)
      rw [Part.FreeP, Part.FreeP, Part.FreeP, freeInP, Bool.or_eq_true]
  | skipData unevaluated tail ih =>
      refine ih.of_same (fun bound => rfl) (fun symbol => ?_)
      rw [Part.FreeP, Part.FreeP, freeInP, nodeFreeP_data unevaluated, Bool.false_or]
  | noBindings =>
      refine .of_none (fun bound => rfl) (fun symbol used => ?_)
      rw [Part.FreeP, initializersFreeP] at used
      cases used
  | nextBinding value rest first second =>
      refine first.of_both second (fun bound => ?_) (fun symbol => ?_)
      · simp only [Part.freeNames, freeBindingNames]
      · rw [Part.FreeP, Part.FreeP, Part.FreeP, initializersFreeP, Bool.or_eq_true]
  | noClauses =>
      refine .of_none (fun bound => rfl) (fun symbol used => ?_)
      rw [Part.FreeP, clausesFreeP] at used
      cases used
  | nextClause head tail first second =>
      refine first.of_both second (fun bound => freeChildNames_append _ _ _) (fun symbol => ?_)
      rw [Part.FreeP, Part.FreeP, Part.FreeP, clausesFreeP, Bool.or_eq_true]

end Native
