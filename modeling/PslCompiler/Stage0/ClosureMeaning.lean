import PslCompiler.Heaps.Mirror
import PslCompiler.Stage0.ClosureConversion

/-! # Closures keep their meaning

The first-order program goes along with the source program: their heaps mirror each other, except that
the lists of captured values are only in one of them, and they make the same calls.
-/

namespace Stage0

open Flow Heaps

/-! ## Closures on both sides -/

/-- A list of values in pairs that have no counterpart. -/
inductive Listed (places : List Nat) (heap : Heap CodeClosure) : Datum → List Datum → Prop
  | nil : Listed places heap (.word nilWord) []
  | cons {index : Nat} {first rest : Datum} {values : List Datum}
      (inside : index < heap.objects.length) (hidden : index ∉ places)
      (found : heap.objects[index]? = some (.record consKind [] [first, rest]))
      (others : Listed places heap rest values) :
      Listed places heap (.reference index) (first :: values)

theorem Listed.kept {places places' : List Nat} {heap heap' : Heap CodeClosure}
    (kept : Kept places heap places' heap') {list : Datum} {values : List Datum}
    (listed : Listed places heap list values) : Listed places' heap' list values := by
  induction listed with
  | nil => exact .nil
  | cons inside hidden found _ ih =>
      obtain ⟨same, still⟩ := kept.hidden _ inside hidden
      exact .cons (Nat.lt_of_lt_of_le inside kept.size) still (same.trans found) ih

/-- The variable of a name in a scope has a value that corresponds. -/
def Carries (names : NameTable) (places : List Nat) (scope : List (LispSymbol × Datum)) (name : String)
    (value : Datum) : Prop :=
  ∀ symbol, names.nameOf (.source symbol) = some name →
    ∃ original, scope.lookup symbol = some original ∧ original.Mirrors places value

theorem Carries.mono {names : NameTable} {places places' : List Nat} (added : places <+: places')
    {scope : List (LispSymbol × Datum)} {name : String} {value : Datum}
    (carries : Carries names places scope name value) : Carries names places' scope name value := by
  intro symbol named
  obtain ⟨original, bound, same⟩ := carries symbol named
  exact ⟨original, bound, same.mono added⟩

/-- A lambda with its scope, and the function made of it with the values that it captured. -/
inductive ClosureMirrors (names : NameTable) (final : AnalysisContext) (places : List Nat)
    (heap : Heap CodeClosure) : SourceClosure → CodeClosure → Prop
  | intro {left : SourceClosure} {right : CodeClosure} {number : Nat}
      {environment : List (String × Ty)} {argumentName listName : String} {type : Ty}
      {nodes : List Hir} {start before after : AnalysisContext} {node : Hir}
      {captures : List (String × Ty)} {values : List Datum}
      (argument : names.nameOf (.source left.parameter) = some argumentName)
      (analyzed : analyzeForms names
        ((argumentName, .value) :: visibleBindings environment argumentName) left.body start =
          .ok (nodes, before))
      (declared : start.declared = final.declared)
      (generated : before.generated <+: final.generated)
      (finished : Finished names number environment argumentName (.node .progn type [] nodes) before
        node after captures listName)
      (made : right.function =
        lambdaFunction number listName argumentName captures (.node .progn type [] nodes))
      (listed : Listed places heap right.environment values)
      (carried : List.Forall₂ (Carries names places left.scope) (captures.map Prod.fst) values) :
      ClosureMirrors names final places heap left right

theorem closureMirrors_stable (names : NameTable) (final : AnalysisContext) :
    Stable (ClosureMirrors names final) := by
  intro places heap places' heap' kept left right mirrors
  cases mirrors with
  | intro argument analyzed declared generated finished made listed carried =>
      exact .intro argument analyzed declared generated finished made (listed.kept kept)
        (carried.imp fun _ _ carries => carries.mono kept.added)

/-! ## States -/

/-- A recorded call on both sides. -/
def CallMirrors (places : List Nat) (left right : Operation × List Datum) : Prop :=
  left.1 = right.1 ∧ MirrorsAll places left.2 right.2

/-- The heaps mirror each other and the calls so far are the same. -/
structure StateMirrors (names : NameTable) (final : AnalysisContext) (places : List Nat)
    (left : Surroundings Operation Datum (Heap SourceClosure))
    (right : Surroundings Operation Datum (Heap CodeClosure)) : Prop where
  heap : HeapMirrors (ClosureMirrors names final) places left.world right.world
  trace : List.Forall₂ (CallMirrors places) left.trace right.trace
  root : places[0]? = some 0

/-- Two evaluations go the same way, and end in states that mirror each other. -/
def Agree (names : NameTable) (final : AnalysisContext) {α β : Type} (places : List Nat)
    (before : Heap CodeClosure) (holds : List Nat → α → β → Prop) :
    Evaluation Datum (Heap SourceClosure) α → Evaluation Datum (Heap CodeClosure) β → Prop
  | .value result left, .value other right =>
      ∃ places', StateMirrors names final places' left right ∧
        Kept places before places' right.world ∧ holds places' result other
  | .stopped left, .stopped right => ∃ places', StateMirrors names final places' left right
  | .timeout left, .timeout right => ∃ places', StateMirrors names final places' left right
  | _, _ => False

section States

variable {names : NameTable} {final : AnalysisContext} {places places' : List Nat}
variable {left : Surroundings Operation Datum (Heap SourceClosure)}
variable {right : Surroundings Operation Datum (Heap CodeClosure)}

theorem trace_mono (added : places <+: places') {first second : List (Operation × List Datum)}
    (same : List.Forall₂ (CallMirrors places) first second) :
    List.Forall₂ (CallMirrors places') first second :=
  same.imp fun _ _ call => ⟨call.1, call.2.mono added⟩

theorem root_kept (added : places <+: places') (root : places[0]? = some 0) :
    places'[0]? = some 0 := by
  obtain ⟨more, rfl⟩ := added
  rw [List.getElem?_append_left (List.getElem?_eq_some_iff.mp root).1]
  exact root

namespace StateMirrors

/-- The calls so far, with heaps that have gone on. -/
theorem advance (mirrors : StateMirrors names final places left right)
    {heap : Heap SourceClosure} {heap' : Heap CodeClosure}
    (after : HeapMirrors (ClosureMirrors names final) places' heap heap')
    (kept : Kept places right.world places' heap') :
    StateMirrors names final places' ⟨heap, left.trace⟩ ⟨heap', right.trace⟩ :=
  ⟨after, trace_mono kept.added mirrors.trace, root_kept kept.added mirrors.root⟩

theorem record (mirrors : StateMirrors names final places left right) (operation : Operation)
    {operands operands' : List Datum} (same : MirrorsAll places operands operands') :
    StateMirrors names final places (recordCall operation operands left)
      (recordCall operation operands' right) :=
  ⟨mirrors.heap, List.rel_append mirrors.trace (.cons ⟨rfl, same⟩ .nil), mirrors.root⟩

end StateMirrors

namespace Agree

variable {α β γ δ : Type} {before : Heap CodeClosure} {holds : List Nat → α → β → Prop}
variable {next : List Nat → γ → δ → Prop}

theorem value (mirrors : StateMirrors names final places left right) {result : α} {other : β}
    (same : holds places result other) :
    Agree names final places right.world holds (.value result left) (.value other right) :=
  ⟨places, mirrors, Kept.refl _ _, same⟩

theorem of_kept {middle : Heap CodeClosure} (kept : Kept places before places' middle)
    {first : Evaluation Datum (Heap SourceClosure) α} {second : Evaluation Datum (Heap CodeClosure) β}
    (agree : Agree names final places' middle holds first second) :
    Agree names final places before holds first second := by
  cases first with
  | value result left =>
      cases second with
      | value other right =>
          obtain ⟨places'', mirrors, kept', same⟩ := agree
          exact ⟨places'', mirrors, kept.trans kept', same⟩
      | stopped right => cases agree
      | timeout right => cases agree
  | stopped left =>
      cases second with
      | value other right => cases agree
      | stopped right => exact agree
      | timeout right => cases agree
  | timeout left =>
      cases second with
      | value other right => cases agree
      | stopped right => cases agree
      | timeout right => exact agree

/-- Evaluations that agree, followed by evaluations that agree. -/
theorem andThen {first : Evaluation Datum (Heap SourceClosure) α}
    {second : Evaluation Datum (Heap CodeClosure) β}
    (agree : Agree names final places before holds first second)
    {continue₁ : α → Surroundings Operation Datum (Heap SourceClosure) →
      Evaluation Datum (Heap SourceClosure) γ}
    {continue₂ : β → Surroundings Operation Datum (Heap CodeClosure) →
      Evaluation Datum (Heap CodeClosure) δ}
    (goes : ∀ places' result other left right, Kept places before places' right.world →
      StateMirrors names final places' left right → holds places' result other →
        Agree names final places' right.world next (continue₁ result left) (continue₂ other right)) :
    Agree names final places before next (first.andThen continue₁) (second.andThen continue₂) := by
  cases first with
  | value result left =>
      cases second with
      | value other right =>
          obtain ⟨places', mirrors, kept, same⟩ := agree
          exact .of_kept kept (goes places' result other left right kept mirrors same)
      | stopped right => cases agree
      | timeout right => cases agree
  | stopped left =>
      cases second with
      | value other right => cases agree
      | stopped right => exact agree
      | timeout right => cases agree
  | timeout left =>
      cases second with
      | value other right => cases agree
      | stopped right => cases agree
      | timeout right => exact agree

end Agree

end States

/-! ## Operations -/

section Operations

variable {names : NameTable} {final : AnalysisContext} {platform : Platform} {places : List Nat}
variable {left : Surroundings Operation Datum (Heap SourceClosure)}
variable {right : Surroundings Operation Datum (Heap CodeClosure)}
variable {operands operands' : List Datum}

theorem runRoutine_agrees (mirrors : StateMirrors names final places left right)
    (same : MirrorsAll places operands operands') (routine : Routine) :
    Agree names final places right.world Datum.Mirrors (runRoutine routine operands left)
      (runRoutine routine operands' right) := by
  have inputs : MirrorsAll places (.reference 0 :: operands) (.reference 0 :: operands') :=
    .cons mirrors.root same
  obtain ⟨places', heap, kept, results⟩ :=
    (routine.run_mirrors (closureMirrors_stable names final) mirrors.heap inputs).after
  rw [runRoutine, runRoutine]
  revert heap kept results
  generalize routine.run (.reference 0 :: operands) left.world = first
  generalize routine.run (.reference 0 :: operands') right.world = second
  intro heap kept results
  obtain ⟨result, heapLeft⟩ := first
  obtain ⟨other, heapRight⟩ := second
  cases results with
  | none => exact ⟨places', mirrors.advance heap kept⟩
  | some alike => exact ⟨places', mirrors.advance heap kept, kept, alike⟩

theorem callForeign_agrees (mirrors : StateMirrors names final places left right)
    (same : MirrorsAll places operands operands') (operation : Operation) :
    Agree names final places right.world Datum.Mirrors (callForeign platform operation operands left)
      (callForeign platform operation operands' right) := by
  rw [callForeign, callForeign, mirrors.trace.length_eq]
  exact runRoutine_agrees (mirrors.record operation same) same _

theorem datumBits_mirrors {value other : Datum} (same : value.Mirrors places other) :
    datumBits value = datumBits other := by
  obtain ⟨word, rfl, rfl⟩ | ⟨_, _, rfl, rfl, _⟩ := same.inversion
  · rfl
  · rfl

theorem datumTruth_mirrors {value other : Datum} (same : value.Mirrors places other)
    (truth : Int → Bool) : datumTruth truth value = datumTruth truth other := by
  obtain ⟨word, rfl, rfl⟩ | ⟨_, _, rfl, rfl, _⟩ := same.inversion
  · rfl
  · rfl

theorem scalarResult_mirrors (same : MirrorsAll places operands operands') (operation : Operation) :
    (scalarResult platform operation operands).Mirrors places
      (scalarResult platform operation operands') := by
  have bits : operands.map datumBits = operands'.map datumBits := by
    induction same with
    | nil => rfl
    | cons first _ ih => rw [List.map_cons, List.map_cons, datumBits_mirrors first, ih]
  unfold scalarResult
  rw [bits]
  split
  · exact rfl
  · exact rfl
  · exact rfl

/-- A value refers to code on one side if it does on the other. -/
theorem codeOf_mirrors (mirrors : StateMirrors names final places left right) {value other : Datum}
    (same : value.Mirrors places other) :
    Option.Rel (ClosureMirrors names final places right.world) (codeOf left.world value)
      (codeOf right.world other) := by
  obtain ⟨word, rfl, rfl⟩ | ⟨index, place, rfl, rfl, at_⟩ := same.inversion
  · exact .none
  · obtain ⟨object, counterpart, here, there, alike⟩ := mirrors.heap.objects index place at_
    rw [codeOf, codeOf, here, there]
    cases object with
    | record kind words fields =>
        cases counterpart with
        | record kind' words' fields' => exact .none
        | code contents => cases alike
    | code contents =>
        cases counterpart with
        | record kind' words' fields' => cases alike
        | code contents' => exact .some alike

/-- A function that forms call with a number of operands. -/
def CallableName (final : AnalysisContext) (name : String) (count : Nat) : Prop :=
  final.declared.lookup name = some count ∨
    (final.declared.lookup name = none ∧ name ∈ runtimeOperations)

/-- How calls are entered, on both sides. -/
structure Entries where
  functions : String → Option (List Datum → Surroundings Operation Datum (Heap SourceClosure) →
    Evaluation Datum (Heap SourceClosure) Datum)
  codes : SourceClosure → Datum → Surroundings Operation Datum (Heap SourceClosure) →
    Evaluation Datum (Heap SourceClosure) Datum
  functions' : String → Option (List Datum → Surroundings Operation Datum (Heap CodeClosure) →
    Evaluation Datum (Heap CodeClosure) Datum)
  codes' : CodeClosure → Datum → Surroundings Operation Datum (Heap CodeClosure) →
    Evaluation Datum (Heap CodeClosure) Datum

/-- The operations of the source. -/
def Entries.apply (entries : Entries) (platform : Platform) : Apply Datum (Heap SourceClosure) :=
  applyHosted platform entries.functions entries.codes (fun _ _ => none)

/-- The operations of the first-order program. -/
def Entries.apply' (entries : Entries) (platform : Platform) (generated : List FunctionDef) :
    Apply Datum (Heap CodeClosure) :=
  applyHosted platform entries.functions' entries.codes' (functionAt platform generated)

/-- Calls that are entered agree. -/
structure EntriesAgree (names : NameTable) (final : AnalysisContext) (entries : Entries) : Prop where
  functions : ∀ name count, CallableName final name count →
    Option.Rel (fun enter enter' => ∀ places left right operands operands', operands.length = count →
      StateMirrors names final places left right → MirrorsAll places operands operands' →
        Agree names final places right.world Datum.Mirrors (enter operands left)
          (enter' operands' right)) (entries.functions name) (entries.functions' name)
  codes : ∀ places left right closure closure' argument argument',
    StateMirrors names final places left right →
      ClosureMirrors names final places right.world closure closure' →
        argument.Mirrors places argument' →
          Agree names final places right.world Datum.Mirrors (entries.codes closure argument left)
            (entries.codes' closure' argument' right)

/-- Without functions at addresses, closures are made elsewhere. -/
theorem makeClosure_foreign {Code : Type} {makeCode : Int → Datum → Option Code}
    (none : ∀ address environment, makeCode address environment = none) (operation : Operation)
    (operands : List Datum) (before : Surroundings Operation Datum (Heap Code)) :
    makeClosure platform makeCode operation operands before =
      callForeign platform operation operands before := by
  unfold makeClosure
  split
  · rw [none]
  · rfl

theorem runtimeCallee_makeClosure {name : String} (callee : runtimeCallee name = .makeClosure) :
    name = "psl_rt_make_closure" := by
  unfold runtimeCallee at callee
  split_ifs at callee with _ _ _ isMake
  exact isMake

/-- Only the compiler makes closures, if there are lambdas at all. -/
theorem functionAt_none (valid : final.Valid) {name : String} {count : Nat}
    (callable : CallableName final name count) (callee : runtimeCallee name = .makeClosure)
    (address : Int) (environment : Datum) :
    functionAt platform final.generated address environment = none := by
  obtain rfl := runtimeCallee_makeClosure callee
  have empty : final.generated = [] := by
    by_contra some
    have undeclared := valid.reserved some
    rw [undeclaredP, Option.isNone_iff_eq_none] at undeclared
    obtain declared | ⟨_, runtime⟩ := callable
    · rw [undeclared] at declared
      cases declared
    · revert runtime
      decide
  rw [functionAt, empty]
  rfl

theorem callClosure_agrees {entries : Entries} (agree : EntriesAgree names final entries)
    (mirrors : StateMirrors names final places left right)
    (same : MirrorsAll places operands operands') (operation : Operation) :
    Agree names final places right.world Datum.Mirrors
      (callClosure platform entries.codes operation operands left)
      (callClosure platform entries.codes' operation operands' right) := by
  have foreign : Agree names final places right.world Datum.Mirrors
      (callForeign platform operation operands left)
      (callForeign platform operation operands' right) :=
    callForeign_agrees mirrors same operation
  have recorded := mirrors.record operation same
  cases same with
  | nil => exact foreign
  | cons first rest =>
      cases rest with
      | nil => exact foreign
      | cons second others =>
          cases others with
          | nil =>
              rw [callClosure, callClosure]
              have found := codeOf_mirrors mirrors first
              revert found
              generalize codeOf left.world _ = here
              generalize codeOf right.world _ = there
              intro found
              cases found with
              | none => exact foreign
              | some alike => exact agree.codes _ _ _ _ _ _ _ recorded alike second
          | cons third others' => exact foreign

/-- Operations of forms agree. -/
theorem apply_agrees {entries : Entries} (agree : EntriesAgree names final entries)
    (valid : final.Valid) (mirrors : StateMirrors names final places left right)
    (same : MirrorsAll places operands operands') {operation : Operation}
    (callable : ∀ name, operation.code = .call name → CallableName final name operands.length) :
    Agree names final places right.world Datum.Mirrors (entries.apply platform operation operands left)
      (entries.apply' platform final.generated operation operands' right) := by
  rw [Entries.apply, Entries.apply', applyHosted, applyHosted]
  by_cases isEffect : operation.effectP = true
  · rw [if_pos isEffect, if_pos isEffect]
    cases isCode : operation.code with
    | call name =>
        have called := callable name isCode
        dsimp only
        cases callee : runtimeCallee name with
        | cons => exact runRoutine_agrees mirrors same _
        | car => exact runRoutine_agrees mirrors same _
        | cdr => exact runRoutine_agrees mirrors same _
        | makeClosure =>
            rw [makeClosure_foreign fun _ _ => rfl,
              makeClosure_foreign (functionAt_none valid called callee)]
            exact callForeign_agrees mirrors same operation
        | callClosure => exact callClosure_agrees agree mirrors same operation
        | other =>
            have entered := agree.functions name _ called
            revert entered
            generalize entries.functions name = here
            generalize entries.functions' name = there
            intro entered
            cases entered with
            | none => exact callForeign_agrees mirrors same operation
            | some enter => exact enter _ _ _ _ _ rfl (mirrors.record operation same) same
    | _ => exact callForeign_agrees mirrors same operation
  · rw [if_neg isEffect, if_neg isEffect]
    exact .value mirrors (scalarResult_mirrors same operation)

end Operations

end Stage0
