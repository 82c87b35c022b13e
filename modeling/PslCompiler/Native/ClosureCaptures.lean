import PslCompiler.Native.CaptureSearch
import PslCompiler.Native.LexicalAnalysis

/-! # The captures of a lambda

The plan of a lambda captures every variable of the enclosing scope that is free in it, once, if the
search reads the lambda right; and it captures what the bootstrap compiler captures.
-/

namespace Native

open Stage0

/-! ## Candidates -/

namespace LexicalScope

def namedParameters (scope : LexicalScope) : List (SourceSymbol × Ty) :=
  scope.parameters.filterMap fun parameter => parameter.1.map fun name => (name, parameter.2)

/-- The variables of a scope, the innermost first. -/
def entries (scope : LexicalScope) : List (SourceSymbol × Ty) :=
  scope.bindings ++ scope.namedParameters

/-- The innermost variable of a name. -/
def lookup (scope : LexicalScope) (name : SourceSymbol) : Option Ty :=
  scope.entries.lookup name

/-- The environment in which the bootstrap compiler analyzes the lambda. -/
def environment (scope : LexicalScope) (names : LexicalNames) : List (String × Ty) :=
  scope.entries.map fun entry => (names.nameOf entry.1, entry.2)

end LexicalScope

/-- The bindings that no binding further in hides. -/
def unhidden (inner : List (SourceSymbol × Ty)) :
    List (SourceSymbol × Ty) → List (SourceSymbol × Ty)
  | [] => []
  | entry :: outer =>
      if nativeClosureCaptureDuplicateP entry.1 inner then unhidden (inner ++ [entry]) outer
      else entry :: unhidden (inner ++ [entry]) outer

/-- Capture those of the candidates that are needed. -/
def captureAll (needed : SourceSymbol → Bool) :
    List (SourceSymbol × Ty) → CapturePlan → Option CapturePlan
  | [], plan => some plan
  | (name, type) :: rest, plan =>
      if needed name then
        if type = .value then
          (nativeClosureRecordCapture plan name).bind (captureAll needed rest)
        else none
      else captureAll needed rest plan

/-- The variables that are tried for a lambda: the parameters, then the bindings. -/
def LexicalScope.candidates (scope : LexicalScope) : List (SourceSymbol × Ty) :=
  scope.namedParameters.filter (fun entry => !nativeClosureCaptureDuplicateP entry.1 scope.bindings) ++
    unhidden [] scope.bindings

theorem captureAll_append (needed : SourceSymbol → Bool) :
    ∀ (first second : List (SourceSymbol × Ty)) (plan : CapturePlan),
      captureAll needed (first ++ second) plan =
        (captureAll needed first plan).bind (captureAll needed second) := by
  intro first second
  induction first with
  | nil =>
      intro plan
      rfl
  | cons entry rest ih =>
      intro plan
      rw [List.cons_append, captureAll, captureAll]
      by_cases isNeeded : needed entry.1 = true
      · rw [if_pos isNeeded, if_pos isNeeded]
        by_cases managed : entry.2 = .value
        · rw [if_pos managed, if_pos managed, Option.bind_assoc]
          congr 1
          funext next
          exact ih next
        · rw [if_neg managed, if_neg managed]
          rfl
      · rw [if_neg isNeeded, if_neg isNeeded, ih]

theorem nativeClosurePrepareCapturesFrom_eq (lambda : Syntax) :
    ∀ (outer inner : List (SourceSymbol × Ty)) (plan : CapturePlan),
      nativeClosurePrepareCapturesFrom lambda inner outer plan =
        captureAll (nativeLambdaNeedsCaptureP · lambda) (unhidden inner outer) plan := by
  intro outer
  induction outer with
  | nil =>
      intro inner plan
      rfl
  | cons entry rest ih =>
      intro inner plan
      rw [nativeClosurePrepareCapturesFrom, unhidden]
      by_cases hidden : nativeClosureCaptureDuplicateP entry.1 inner = true
      · rw [if_pos hidden, if_pos hidden, ih]
      · rw [if_neg hidden, if_neg hidden, captureAll, ih]
        congr 1
        congr 1
        congr 1
        funext next
        exact ih _ next

theorem nativeClosurePrepareParametersFrom_eq (lambda : Syntax)
    (bindings : List (SourceSymbol × Ty)) :
    ∀ (parameters : List (Option SourceSymbol × Ty)) (plan : CapturePlan),
      nativeClosurePrepareParametersFrom lambda bindings parameters plan =
        captureAll (nativeLambdaNeedsCaptureP · lambda)
          ((parameters.filterMap fun parameter => parameter.1.map fun name => (name, parameter.2)).filter
            fun entry => !nativeClosureCaptureDuplicateP entry.1 bindings) plan := by
  intro parameters
  induction parameters with
  | nil =>
      intro plan
      rfl
  | cons parameter rest ih =>
      intro plan
      obtain ⟨name, type⟩ := parameter
      cases name with
      | none =>
          rw [nativeClosurePrepareParametersFrom, ih]
          rfl
      | some name =>
          rw [nativeClosurePrepareParametersFrom, List.filterMap_cons, Option.map_some]
          by_cases hidden : nativeClosureCaptureDuplicateP name bindings = true
          · rw [if_pos hidden, List.filter_cons_of_neg (by simp [hidden]), ih]
          · rw [if_neg hidden, List.filter_cons_of_pos (by simpa using hidden), captureAll, ih]
            congr 1
            congr 1
            congr 1
            funext next
            exact ih next

/-- The captures of a lambda are taken from the candidates. -/
theorem nativeClosurePrepare_eq (lambda : Syntax) (scope : LexicalScope) (room : Nat) :
    nativeClosurePrepare lambda scope room =
      (captureAll (nativeLambdaNeedsCaptureP · lambda) scope.candidates ⟨[], room⟩).map
        CapturePlan.captures := by
  rw [nativeClosurePrepare, nativeClosurePrepareParametersFrom_eq, LexicalScope.candidates,
    captureAll_append, LexicalScope.namedParameters]
  cases captureAll (nativeLambdaNeedsCaptureP · lambda) _ ⟨[], room⟩ with
  | none => rfl
  | some plan =>
      simp only [Option.bind_some, bind, nativeClosurePrepareCapturesFrom_eq]
      exact Option.map_eq_bind.symm

/-- A candidate that is needed but is no managed value. -/
def Refused (needed : SourceSymbol → Bool) (candidates : List (SourceSymbol × Ty)) : Prop :=
  ∃ entry ∈ candidates, needed entry.1 = true ∧ entry.2 ≠ .value

theorem captureAll_none {needed : SourceSymbol → Bool} :
    ∀ {candidates : List (SourceSymbol × Ty)} {plan : CapturePlan},
      captureAll needed candidates plan = none ↔
        Refused needed candidates ∨
          plan.room < (candidates.filter fun entry => needed entry.1).length := by
  intro candidates
  induction candidates with
  | nil =>
      intro plan
      simp [captureAll, Refused]
  | cons entry rest ih =>
      intro plan
      rw [captureAll, Refused, List.exists_mem_cons_iff, ← Refused]
      by_cases isNeeded : needed entry.1 = true
      · simp only [List.filter_cons, isNeeded, ↓reduceIte, List.length_cons, true_and]
        by_cases managed : entry.2 = .value
        · rw [if_pos managed, nativeClosureRecordCapture]
          by_cases full : plan.room = 0
          · simp [full]
          · rw [if_neg full, Option.bind_some, ih]
            simp only [managed, ne_eq, not_true_eq_false, false_or]
            have step : plan.room - 1 < (rest.filter fun entry => needed entry.1).length ↔
                plan.room < (rest.filter fun entry => needed entry.1).length + 1 := by omega
            rw [step]
        · simp [managed]
      · simp only [List.filter_cons, isNeeded, Bool.false_eq_true, ↓reduceIte, false_and, false_or]
        exact ih

theorem captureAll_some {needed : SourceSymbol → Bool} :
    ∀ {candidates : List (SourceSymbol × Ty)} {plan after : CapturePlan},
      captureAll needed candidates plan = some after →
        after.captures =
          plan.captures ++ (candidates.filter fun entry => needed entry.1).map Prod.fst := by
  intro candidates
  induction candidates with
  | nil =>
      intro plan after captured
      cases captured
      simp
  | cons entry rest ih =>
      intro plan after captured
      rw [captureAll] at captured
      by_cases isNeeded : needed entry.1 = true
      · rw [if_pos isNeeded] at captured
        by_cases managed : entry.2 = .value
        · rw [if_pos managed, nativeClosureRecordCapture] at captured
          by_cases full : plan.room = 0
          · simp [full] at captured
          · rw [if_neg full, Option.bind_some] at captured
            rw [ih captured]
            simp [isNeeded]
        · simp [managed] at captured
      · rw [if_neg isNeeded] at captured
        rw [ih captured]
        simp [isNeeded]

/-! ## Innermost variables -/

theorem nativeClosureCaptureDuplicateP_append (name : SourceSymbol)
    (first second : List (SourceSymbol × Ty)) :
    nativeClosureCaptureDuplicateP name (first ++ second) =
      (nativeClosureCaptureDuplicateP name first || nativeClosureCaptureDuplicateP name second) := by
  rw [nativeClosureCaptureDuplicateP, List.any_append]
  rfl

theorem nativeClosureCaptureDuplicateP_false {name : SourceSymbol}
    {entries : List (SourceSymbol × Ty)} :
    nativeClosureCaptureDuplicateP name entries = false ↔ entries.lookup name = none := by
  rw [nativeClosureCaptureDuplicateP, List.any_eq_false, List.lookup_eq_none_iff]
  refine forall_congr' fun entry => forall_congr' fun _ => ?_
  rw [decide_eq_true_eq, bne_iff_ne]
  exact ne_comm

/-- A binding that is not hidden is the innermost one of its name. -/
theorem mem_unhidden {name : SourceSymbol} {type : Ty} :
    ∀ {outer inner : List (SourceSymbol × Ty)},
      (name, type) ∈ unhidden inner outer ↔
        nativeClosureCaptureDuplicateP name inner = false ∧ outer.lookup name = some type := by
  intro outer
  induction outer with
  | nil =>
      intro inner
      simp [unhidden]
  | cons entry rest ih =>
      intro inner
      have extended : nativeClosureCaptureDuplicateP name (inner ++ [entry]) = false ↔
          nativeClosureCaptureDuplicateP name inner = false ∧ name ≠ entry.1 := by
        rw [nativeClosureCaptureDuplicateP_append, Bool.or_eq_false_iff]
        refine and_congr_right fun _ => ?_
        rw [nativeClosureCaptureDuplicateP_false, List.lookup_eq_none_iff]
        simp
      rw [unhidden, List.lookup_cons]
      by_cases same : name = entry.1
      · subst same
        by_cases hidden : nativeClosureCaptureDuplicateP entry.1 inner = true
        · rw [if_pos hidden, ih, extended]
          simp [hidden]
        · rw [if_neg hidden, List.mem_cons, ih, extended]
          rw [Bool.not_eq_true] at hidden
          simp [hidden, Prod.ext_iff, eq_comm]
      · have other : (name == entry.1) = false := by simpa using same
        have different : (name, type) ≠ entry := fun equal => same (congrArg Prod.fst equal)
        rw [other]
        by_cases hidden : nativeClosureCaptureDuplicateP entry.1 inner = true
        · rw [if_pos hidden, ih, extended]
          simp [same]
        · rw [if_neg hidden, List.mem_cons, ih, extended]
          simp [same, different]

theorem unhidden_nodup : ∀ (outer inner : List (SourceSymbol × Ty)),
    ((unhidden inner outer).map Prod.fst).Nodup := by
  intro outer
  induction outer with
  | nil =>
      intro inner
      exact List.nodup_nil
  | cons entry rest ih =>
      intro inner
      rw [unhidden]
      by_cases hidden : nativeClosureCaptureDuplicateP entry.1 inner = true
      · rw [if_pos hidden]
        exact ih _
      · rw [if_neg hidden, List.map_cons, List.nodup_cons]
        refine ⟨?_, ih _⟩
        intro member
        obtain ⟨other, inside, same⟩ := List.mem_map.mp member
        have unseen := (mem_unhidden.mp inside).1
        rw [same, nativeClosureCaptureDuplicateP_append] at unseen
        simp [nativeClosureCaptureDuplicateP] at unseen

theorem lookup_of_nodup {name : SourceSymbol} {type : Ty} :
    ∀ {entries : List (SourceSymbol × Ty)}, (entries.map Prod.fst).Nodup →
      ((name, type) ∈ entries ↔ entries.lookup name = some type) := by
  intro entries
  induction entries with
  | nil => simp
  | cons entry rest ih =>
      intro distinct
      rw [List.map_cons, List.nodup_cons] at distinct
      rw [List.mem_cons, List.lookup_cons]
      by_cases same : name = entry.1
      · subst same
        have absent : (entry.1, type) ∉ rest := fun member =>
          distinct.1 (List.mem_map.mpr ⟨_, member, rfl⟩)
        simp [absent, Prod.ext_iff, eq_comm]
      · have other : (name == entry.1) = false := by simpa using same
        have different : (name, type) ≠ entry := fun equal => same (congrArg Prod.fst equal)
        simp [other, different, ih distinct.2]

namespace LexicalScope

variable (scope : LexicalScope)

theorem namedParameters_nodup : (scope.namedParameters.map Prod.fst).Nodup := by
  have same : scope.namedParameters.map Prod.fst = scope.parameters.filterMap Prod.fst := by
    rw [namedParameters, List.map_filterMap]
    congr 1
    funext parameter
    cases parameter.1 with
    | none => rfl
    | some name => rfl
  rw [same]
  exact scope.distinct

/-- The candidates are the innermost variables. -/
theorem mem_candidates {name : SourceSymbol} {type : Ty} :
    (name, type) ∈ scope.candidates ↔ scope.lookup name = some type := by
  rw [candidates, List.mem_append, List.mem_filter, mem_unhidden,
    lookup_of_nodup scope.namedParameters_nodup, lookup, entries, List.lookup_append]
  cases bound : scope.bindings.lookup name with
  | none =>
      have free := nativeClosureCaptureDuplicateP_false.mpr bound
      simp [free]
  | some other =>
      have hidden : nativeClosureCaptureDuplicateP name scope.bindings ≠ false := by
        rw [ne_eq, nativeClosureCaptureDuplicateP_false, bound]
        intro same
        cases same
      rw [ne_eq, Bool.not_eq_false] at hidden
      rw [hidden]
      simp [nativeClosureCaptureDuplicateP]

theorem candidates_nodup : (scope.candidates.map Prod.fst).Nodup := by
  rw [candidates, List.map_append]
  refine List.Nodup.append ?_ (unhidden_nodup _ _) ?_
  · exact scope.namedParameters_nodup.sublist (List.filter_sublist.map _)
  · intro name first second
    obtain ⟨entry, member, rfl⟩ := List.mem_map.mp first
    obtain ⟨other, inside, same⟩ := List.mem_map.mp second
    have unbound := (List.mem_filter.mp member).2
    rw [Bool.not_eq_true', nativeClosureCaptureDuplicateP_false] at unbound
    have bound := (mem_unhidden.mp inside).2
    rw [same, unbound] at bound
    cases bound

end LexicalScope

/-! ## Exact captures -/

/-- The search reads a lambda right for a name: the lambda's LET forms bind it where the search takes
them to, its tests in COND do not refer to it, it is not written where nothing is evaluated but the
search looks, and the levels suffice. -/
def readRightP (name : SourceSymbol) (lambda : Syntax) : Bool :=
  nodeRegularP name .list (astFirst lambda) && nodeLevels .list (astFirst lambda) ≤ 1026

theorem lambda_of_origin {lambda : Syntax} (accepted : nativeLambdaOriginP lambda = true) :
    ∃ head parameter under body next,
      lambda = .node .list (.node (.symbol (.word .lambda)) head (lambdaParts parameter under body))
        next := by
  rw [nativeLambdaOriginP, Bool.and_eq_true, Bool.and_eq_true] at accepted
  obtain ⟨⟨isList, isLambda⟩, parts⟩ := accepted
  unfold astListP at isList
  split at isList
  case h_2 => cases isList
  case h_1 first next =>
    cases first with
    | none => cases isLambda
    | node kind head arguments =>
        rw [astFirst, astPackageNameP] at isLambda
        cases kind with
        | symbol symbol =>
            rw [astSameNameP, decide_eq_true_eq] at isLambda
            rw [astFirst, astNext] at parts
            split at parts
            case h_1 parameter under body => exact ⟨head, parameter, under, body, next, by rw [isLambda]; rfl⟩
            case h_2 => cases parts
        | _ => cases isLambda

/-- Where the search reads a lambda right, it finds the free variables. -/
theorem nativeLambdaNeedsCaptureP_eq {name : SourceSymbol} {lambda : Syntax}
    (accepted : nativeLambdaOriginP lambda = true) (right : readRightP name lambda = true) :
    nativeLambdaNeedsCaptureP name lambda = lambdaFreeP name lambda := by
  obtain ⟨head, parameter, under, body, next, rfl⟩ := lambda_of_origin accepted
  rw [readRightP, Bool.and_eq_true, decide_eq_true_eq] at right
  obtain ⟨regular, room⟩ := right
  rw [astFirst, nodeRegularP, lambdaParts, operatorRegularP] at regular
  rw [astFirst, lambdaParts, nodeLevels] at room
  rw [nativeLambdaNeedsCaptureP, lambdaParts,
    (agrees_all body.size).lambda_step (Nat.le_refl _) regular (by omega), lambdaFreeP, nodeFreeP,
    operatorFreeP]

/-- What the captures of a lambda have to be. -/
structure ExactCaptures (lambda : Syntax) (scope : LexicalScope) (room : Nat) : Prop where
  /-- They are the enclosing variables that are free in the lambda, once each, and are managed. -/
  captured : ∀ captures, nativeClosurePrepare lambda scope room = some captures →
    captures.Nodup ∧
      (∀ name, name ∈ captures ↔
        (∃ type, scope.lookup name = some type) ∧ lambdaFreeP name lambda = true) ∧
      ∀ name ∈ captures, scope.lookup name = some .value
  /-- A lambda is rejected if it refers to a variable that is not managed, or the table is full. -/
  rejected : nativeClosurePrepare lambda scope room = none ↔
    (∃ name type, scope.lookup name = some type ∧ lambdaFreeP name lambda = true ∧ type ≠ .value) ∨
      room < (scope.candidates.filter fun entry => lambdaFreeP entry.1 lambda).length
  /-- The bootstrap compiler captures the same variables. -/
  shared : ∀ (names : LexicalNames) head parameter under body next nodes type,
    lambda = .node .list (.node (.symbol (.word .lambda)) head (lambdaParts parameter under body))
      next →
    Analyzed names ((names.nameOf parameter, .value) ::
      visibleBindings (scope.environment names) (names.nameOf parameter)) (.forms body nodes) →
    ∀ captures, nativeClosurePrepare lambda scope room = some captures →
      ∃ entries, requiredValueCaptures
          (visibleBindings (scope.environment names) (names.nameOf parameter))
          (.node .progn type [] nodes) (names.nameOf parameter) = .ok entries ∧
        ∀ name, name ∈ entries.map Prod.fst ↔ ∃ symbol ∈ captures, names.nameOf symbol = name

section Exact

variable {lambda : Syntax} {scope : LexicalScope} {room : Nat}

/-- The variables of a scope that are free in a lambda. -/
theorem captured_of_found
    (found : ∀ name type, scope.lookup name = some type →
      nativeLambdaNeedsCaptureP name lambda = lambdaFreeP name lambda)
    {captures : List SourceSymbol}
    (prepared : nativeClosurePrepare lambda scope room = some captures) :
    captures = (scope.candidates.filter fun entry => lambdaFreeP entry.1 lambda).map Prod.fst := by
  rw [nativeClosurePrepare_eq, Option.map_eq_some_iff] at prepared
  obtain ⟨plan, captured, rfl⟩ := prepared
  rw [captureAll_some captured, List.nil_append]
  congr 1
  refine List.filter_congr fun entry member => ?_
  exact found entry.1 entry.2 ((scope.mem_candidates).mp member)

theorem mem_captured {name : SourceSymbol} :
    name ∈ (scope.candidates.filter fun entry => lambdaFreeP entry.1 lambda).map Prod.fst ↔
      (∃ type, scope.lookup name = some type) ∧ lambdaFreeP name lambda = true := by
  constructor
  · intro member
    obtain ⟨entry, kept, rfl⟩ := List.mem_map.mp member
    rw [List.mem_filter] at kept
    exact ⟨⟨entry.2, scope.mem_candidates.mp kept.1⟩, kept.2⟩
  · rintro ⟨⟨type, bound⟩, free⟩
    exact List.mem_map.mpr
      ⟨(name, type), List.mem_filter.mpr ⟨scope.mem_candidates.mpr bound, free⟩, rfl⟩

theorem rejected_of_found
    (found : ∀ name type, scope.lookup name = some type →
      nativeLambdaNeedsCaptureP name lambda = lambdaFreeP name lambda) :
    nativeClosurePrepare lambda scope room = none ↔
      (∃ name type, scope.lookup name = some type ∧ lambdaFreeP name lambda = true ∧
        type ≠ .value) ∨
        room < (scope.candidates.filter fun entry => lambdaFreeP entry.1 lambda).length := by
  have same : (scope.candidates.filter fun entry => nativeLambdaNeedsCaptureP entry.1 lambda) =
      scope.candidates.filter fun entry => lambdaFreeP entry.1 lambda :=
    List.filter_congr fun entry member => found entry.1 entry.2 (scope.mem_candidates.mp member)
  rw [nativeClosurePrepare_eq, Option.map_eq_none_iff, captureAll_none, same]
  refine or_congr_left ⟨?_, ?_⟩
  · rintro ⟨entry, member, needed, unmanaged⟩
    have bound := scope.mem_candidates.mp member
    exact ⟨entry.1, entry.2, bound, found _ _ bound ▸ needed, unmanaged⟩
  · rintro ⟨name, type, bound, free, unmanaged⟩
    exact ⟨(name, type), scope.mem_candidates.mpr bound, (found _ _ bound).trans free, unmanaged⟩

theorem LexicalScope.lookup_environment (names : LexicalNames) (symbol : SourceSymbol) :
    (scope.environment names).lookup (names.nameOf symbol) = scope.lookup symbol := by
  rw [environment, lookup]
  induction scope.entries with
  | nil => rfl
  | cons entry rest ih =>
      rw [List.map_cons, List.lookup_cons, List.lookup_cons, ih]
      by_cases same : symbol = entry.1
      · simp [same]
      · have different : names.nameOf symbol ≠ names.nameOf entry.1 := fun equal =>
          same (names.injective equal)
        have other : (symbol == entry.1) = false := by simpa using same
        have apart : (names.nameOf symbol == names.nameOf entry.1) = false := by simpa using different
        rw [other, apart]

/-- The names that a lambda's body leaves free, in terms of its free variables. -/
theorem mem_freeHirNames_body {names : LexicalNames} {environment : List (String × Ty)}
    {parameter : SourceSymbol} {head under body next : Syntax} {nodes : List Hir} {type : Ty}
    (analyzed : Analyzed names environment (.forms body nodes)) {name : String} :
    name ∈ freeHirNames [names.nameOf parameter] (.node .progn type [] nodes) ↔
      ∃ symbol, names.nameOf symbol = name ∧
        lambdaFreeP symbol (.node .list (.node (.symbol (.word .lambda)) head
          (lambdaParts parameter under body)) next) = true := by
  have plain := plain_progn
  rw [freeHirNames_plain plain]
  have free := analyzed.lexical.free [names.nameOf parameter] name
  rw [Part.freeNames, List.mem_singleton] at free
  rw [free]
  simp only [Part.FreeP, lambdaFreeP, nodeFreeP_lambda]
  constructor
  · rintro ⟨other, symbol, rfl, used⟩
    exact ⟨symbol, rfl, fun same => other (same ▸ rfl), used⟩
  · rintro ⟨symbol, rfl, other, used⟩
    exact ⟨fun same => other (names.injective same), symbol, rfl, used⟩

end Exact

section Examples

def symbolNode (symbol : SourceSymbol) (next : Syntax) : Syntax :=
  .node (.symbol symbol) .none next

/-- `(lambda (parameter) form)` with one form. -/
def lambdaNode (parameter : SourceSymbol) (form : Syntax) : Syntax :=
  .node .list (symbolNode (.word .lambda) (lambdaParts parameter .none form)) .none

/-- A function with one parameter. -/
def oneParameter (name : SourceSymbol) (type : Ty) : LexicalScope where
  parameters := [(some name, type)]
  bindings := []
  distinct := List.nodup_singleton name

theorem eq_of_oneParameter {parameter name : SourceSymbol} {declared type : Ty}
    (bound : (oneParameter parameter declared).lookup name = some type) : name = parameter := by
  by_contra other
  have apart : (name == parameter) = false := by simpa using other
  simp [LexicalScope.lookup, LexicalScope.entries, LexicalScope.namedParameters, oneParameter,
    List.lookup_cons, apart] at bound

/-- `(lambda (y) (lambda (z) (cons x (cons y z))))` for the symbols 0, 1 and 2, and CONS as 3. -/
def nestedLambda : Syntax :=
  lambdaNode (.name 1) (lambdaNode (.name 2)
    (.node .list (symbolNode (.name 3) (symbolNode (.name 0)
      (.node .list (symbolNode (.name 3) (symbolNode (.name 1) (symbolNode (.name 2) .none)))
        .none))) .none))

/-- `(lambda (y) (let ((x y)) x))` for the symbols 0 and 1. -/
def shadowingLambda : Syntax :=
  lambdaNode (.name 1)
    (.node .list (symbolNode (.word .letForm)
      (.node .list (.node .list (symbolNode (.name 0) (symbolNode (.name 1) .none)) .none)
        (symbolNode (.name 0) .none))) .none)

end Examples

end Native
