import PslCompiler.Stage0.Syntax
import Mathlib.Data.List.Basic

/-! # Closures in the bootstrap compiler

A lambda becomes a function of its own, which finds the values of the variables that it captures in a
list. Which variables these are is read off the analyzed body.
-/

namespace Stage0

/-- The variables that are visible inside a lambda, besides its argument. -/
def visibleFrom : List String → List (String × Ty) → List (String × Ty)
  | _, [] => []
  | seen, entry :: environment =>
      if entry.1 ∈ seen then visibleFrom seen environment
      else entry :: visibleFrom (entry.1 :: seen) environment

def visibleBindings (environment : List (String × Ty)) (argumentName : String) :
    List (String × Ty) :=
  visibleFrom [argumentName] environment

mutual

/-- The names that a node refers to, apart from those that are bound. -/
def freeHirNames (bound : List String) : Hir → List String
  | .node kind _ bindings children =>
      match kind with
      | .variable name => if name ∈ bound then [] else [name]
      | .letForm =>
          freeBindingNames bound bindings ++
            freeFirstNames (bindings.map Prod.fst ++ bound) children
      | _ => freeChildNames bound children

def freeBindingNames (bound : List String) : List (String × Hir) → List String
  | [] => []
  | (_, value) :: rest => freeHirNames bound value ++ freeBindingNames bound rest

def freeFirstNames (bound : List String) : List Hir → List String
  | [] => []
  | body :: _ => freeHirNames bound body

def freeChildNames (bound : List String) : List Hir → List String
  | [] => []
  | child :: rest => freeHirNames bound child ++ freeChildNames bound rest

end

/-- The visible variables that a lambda's body refers to, which have to be managed values. -/
def requiredValueCaptures (visible : List (String × Ty)) (body : Hir) (argumentName : String) :
    Except String (List (String × Ty)) :=
  let names := freeHirNames [argumentName] body
  visible.foldr
    (fun entry rest =>
      if entry.1 ∈ names then
        if entry.2 = .value then rest.map (entry :: ·)
        else .error ("closures currently capture only VALUE variables: " ++ entry.1)
      else rest)
    (.ok [])

def runtimeCallNode (name : String) (result : Ty) (arguments : List Hir) : Hir :=
  .node (.call name) result [] arguments

/-- The list of captured values, as it is made where the closure is. -/
def captureListNode (captures : List (String × Ty)) : Hir :=
  captures.foldr
    (fun entry rest =>
      runtimeCallNode "psl_rt_cons" .value [.node (.variable entry.1) .value [] [], rest])
    (.node (.literal (.integer 2)) .value [] [])

/-- The bindings that take the captured values out of the list. -/
def capturedBindingNodes : List (String × Ty) → Hir → List (String × Hir)
  | [], _ => []
  | entry :: rest, tail =>
      (entry.1, runtimeCallNode "psl_rt_car" .value [tail]) ::
        capturedBindingNodes rest (runtimeCallNode "psl_rt_cdr" .value [tail])

/-- The value of a lambda: its code and the captured values. -/
def closureNode (name : String) (captures : List (String × Ty)) : Hir :=
  runtimeCallNode "psl_rt_make_closure" .value
    [.node (.dataAddress name .void) (.ptr .void false false) [] [], captureListNode captures]

/-! ## Names -/

/-- The kinds of nodes that neither are variables nor bind any. -/
def PlainKind (kind : HirKind) : Prop :=
  (∀ name, kind ≠ .variable name) ∧ kind ≠ .letForm

theorem freeHirNames_plain {kind : HirKind} (plain : PlainKind kind) (bound : List String) (type : Ty)
    (bindings : List (String × Hir)) (children : List Hir) :
    freeHirNames bound (.node kind type bindings children) = freeChildNames bound children := by
  rw [freeHirNames]
  · exact plain.1
  · exact plain.2

theorem plain_call (name : String) : PlainKind (.call name) :=
  ⟨fun _ same => HirKind.noConfusion same, HirKind.noConfusion⟩

theorem plain_progn : PlainKind .progn := ⟨fun _ => HirKind.noConfusion, HirKind.noConfusion⟩

theorem plain_if : PlainKind .ifForm := ⟨fun _ => HirKind.noConfusion, HirKind.noConfusion⟩

theorem plain_while : PlainKind .whileForm := ⟨fun _ => HirKind.noConfusion, HirKind.noConfusion⟩

theorem freeChildNames_append (bound : List String) (first second : List Hir) :
    freeChildNames bound (first ++ second) =
      freeChildNames bound first ++ freeChildNames bound second := by
  induction first with
  | nil => simp only [List.nil_append, freeChildNames]
  | cons child rest ih => simp only [List.cons_append, freeChildNames, ih, List.append_assoc]

theorem freeHirNames_captureList (captures : List (String × Ty)) (bound : List String) :
    freeHirNames bound (captureListNode captures) =
      (captures.map Prod.fst).filter fun name => name ∉ bound := by
  induction captures with
  | nil =>
      simp only [captureListNode, List.foldr_nil, freeHirNames, freeChildNames, List.map_nil,
        List.filter_nil]
  | cons entry rest ih =>
      rw [captureListNode, List.foldr_cons, ← captureListNode, runtimeCallNode,
        freeHirNames_plain (plain_call _)]
      simp only [freeChildNames, freeHirNames, ih, List.append_nil, List.map_cons]
      by_cases isBound : entry.1 ∈ bound
      · simp [isBound]
      · simp [isBound]

/-- A closure refers to the variables that it captures. -/
theorem mem_freeHirNames_closure {name code : String} {captures : List (String × Ty)}
    {bound : List String} :
    name ∈ freeHirNames bound (closureNode code captures) ↔
      name ∈ captures.map Prod.fst ∧ name ∉ bound := by
  rw [closureNode, runtimeCallNode, freeHirNames_plain (plain_call _)]
  simp only [freeChildNames, freeHirNames, freeHirNames_captureList, List.nil_append,
    List.append_nil, List.mem_filter, decide_eq_true_eq]

theorem lookup_mem_names {environment : List (String × Ty)} {name : String} {type : Ty}
    (bound : environment.lookup name = some type) : name ∈ environment.map Prod.fst := by
  obtain ⟨before, after, rfl, _⟩ := List.lookup_eq_some_iff.mp bound
  rw [List.map_append, List.mem_append, List.map_cons]
  exact .inr List.mem_cons_self

theorem mem_visibleFrom {name : String} : ∀ {environment : List (String × Ty)} {seen : List String},
    name ∈ (visibleFrom seen environment).map Prod.fst ↔
      name ∈ environment.map Prod.fst ∧ name ∉ seen := by
  intro environment
  induction environment with
  | nil => simp [visibleFrom]
  | cons entry rest ih =>
      intro seen
      rw [visibleFrom]
      by_cases isSeen : entry.1 ∈ seen
      · rw [if_pos isSeen, ih]
        constructor
        · rintro ⟨member, unseen⟩
          exact ⟨List.mem_cons_of_mem _ member, unseen⟩
        · rintro ⟨member, unseen⟩
          rw [List.map_cons, List.mem_cons] at member
          cases member with
          | inl same => exact absurd (same ▸ isSeen) unseen
          | inr later => exact ⟨later, unseen⟩
      · rw [if_neg isSeen, List.map_cons, List.mem_cons, ih, List.map_cons, List.mem_cons,
          List.mem_cons]
        constructor
        · rintro (rfl | ⟨member, unseen⟩)
          · exact ⟨.inl rfl, isSeen⟩
          · exact ⟨.inr member, fun inside => unseen (.inr inside)⟩
        · rintro ⟨same | member, unseen⟩
          · exact .inl same
          · by_cases same : name = entry.1
            · exact .inl same
            · exact .inr ⟨member, fun inside => inside.elim same unseen⟩

theorem mem_visibleBindings {name argumentName : String} {environment : List (String × Ty)} :
    name ∈ (visibleBindings environment argumentName).map Prod.fst ↔
      name ∈ environment.map Prod.fst ∧ name ≠ argumentName := by
  rw [visibleBindings, mem_visibleFrom, List.mem_singleton]

theorem mem_visibleFrom_entry {name : String} {type : Ty} :
    ∀ {environment : List (String × Ty)} {seen : List String},
      (name, type) ∈ visibleFrom seen environment ↔
        name ∉ seen ∧ environment.lookup name = some type := by
  intro environment
  induction environment with
  | nil =>
      intro seen
      simp [visibleFrom]
  | cons entry rest ih =>
      intro seen
      rw [visibleFrom, List.lookup_cons]
      by_cases same : name = entry.1
      · subst same
        by_cases isSeen : entry.1 ∈ seen
        · rw [if_pos isSeen, ih]
          simp [isSeen]
        · rw [if_neg isSeen, List.mem_cons, ih]
          simp [isSeen, Prod.ext_iff, eq_comm]
      · have other : (name == entry.1) = false := by simpa using same
        have different : (name, type) ≠ entry := fun equal => same (congrArg Prod.fst equal)
        rw [other]
        by_cases isSeen : entry.1 ∈ seen
        · rw [if_pos isSeen, ih]
        · rw [if_neg isSeen, List.mem_cons, ih]
          simp [same, different]

/-- The visible entry of a name is the innermost one. -/
theorem mem_visibleBindings_entry {name argumentName : String} {type : Ty}
    {environment : List (String × Ty)} :
    (name, type) ∈ visibleBindings environment argumentName ↔
      name ≠ argumentName ∧ environment.lookup name = some type := by
  rw [visibleBindings, mem_visibleFrom_entry, List.mem_singleton]

section Captures

variable (body : Hir) (argumentName : String)

/-- A visible variable that a lambda refers to but cannot capture. -/
def Uncapturable (visible : List (String × Ty)) : Prop :=
  ∃ entry ∈ visible, entry.1 ∈ freeHirNames [argumentName] body ∧ entry.2 ≠ .value

theorem uncapturable_cons {entry : String × Ty} {visible : List (String × Ty)} :
    Uncapturable body argumentName (entry :: visible) ↔
      (entry.1 ∈ freeHirNames [argumentName] body ∧ entry.2 ≠ .value) ∨
        Uncapturable body argumentName visible := by
  simp only [Uncapturable, List.mem_cons, exists_eq_or_imp]

/-- The captures are the visible variables that are used. -/
theorem requiredValueCaptures_ok {visible : List (String × Ty)}
    (capturable : ¬ Uncapturable body argumentName visible) :
    requiredValueCaptures visible body argumentName =
      .ok (visible.filter fun entry => entry.1 ∈ freeHirNames [argumentName] body) := by
  rw [requiredValueCaptures]
  induction visible with
  | nil => rfl
  | cons entry rest ih =>
      rw [uncapturable_cons, not_or] at capturable
      rw [List.foldr_cons, ih capturable.2]
      by_cases used : entry.1 ∈ freeHirNames [argumentName] body
      · have managed : entry.2 = .value := by
          by_contra unmanaged
          exact capturable.1 ⟨used, unmanaged⟩
        rw [if_pos used, if_pos managed, List.filter_cons_of_pos (by simpa using used)]
        rfl
      · rw [if_neg used, List.filter_cons_of_neg (by simpa using used)]

/-- A lambda that refers to a variable that is no managed value is rejected. -/
theorem requiredValueCaptures_error {visible : List (String × Ty)}
    (refused : Uncapturable body argumentName visible) :
    ∃ message, requiredValueCaptures visible body argumentName = .error message := by
  rw [requiredValueCaptures]
  induction visible with
  | nil =>
      obtain ⟨_, member, _⟩ := refused
      cases member
  | cons entry rest ih =>
      rw [List.foldr_cons]
      by_cases used : entry.1 ∈ freeHirNames [argumentName] body
      · rw [if_pos used]
        by_cases managed : entry.2 = .value
        · rw [uncapturable_cons] at refused
          obtain ⟨message, failed⟩ := ih (refused.resolve_left fun first => first.2 managed)
          exact ⟨message, by rw [if_pos managed, failed]; rfl⟩
        · exact ⟨_, if_neg managed⟩
      · rw [uncapturable_cons] at refused
        rw [if_neg used]
        exact ih (refused.resolve_left fun first => used first.1)

theorem not_uncapturable_of_ok {visible captures : List (String × Ty)}
    (captured : requiredValueCaptures visible body argumentName = .ok captures) :
    ¬ Uncapturable body argumentName visible := by
  intro refused
  obtain ⟨message, failed⟩ := requiredValueCaptures_error body argumentName refused
  rw [failed] at captured
  cases captured

end Captures

end Stage0
