import PslCompiler.Native.FreeVariables

/-! # The search finds the free variables

With enough levels, and in forms that it reads right, the search for a name finds it exactly where it
is free. The proof goes by the size of the syntax trees.
-/

namespace Native

variable {wanted : SourceSymbol}

/-! ## What is never found -/

/-- Under a binding of the name nothing is found. -/
theorem shadowed_not_found (levels : Nat) :
    (∀ form, nativeAstNameOccursInFormsP wanted levels true form = false) ∧
      (∀ items, nativeAstSiblingsNameOccursP wanted levels true items = false) ∧
      (∀ bindings, nativeAstLetInitializersNameOccursP wanted levels true bindings = false) ∧
      (∀ bindings body, nativeAstLetNameOccursP wanted levels true bindings body = false) ∧
      ∀ lambda, nativeAstLambdaNameOccursP wanted levels true lambda = false := by
  induction levels with
  | zero =>
      simp only [nativeAstNameOccursInFormsP, nativeAstSiblingsNameOccursP,
        nativeAstLetInitializersNameOccursP, nativeAstLetNameOccursP, nativeAstLambdaNameOccursP,
        implies_true, and_self]
  | succ levels ih =>
      obtain ⟨forms, siblings, initializers, lets, lambdas⟩ := ih
      refine ⟨?_, ?_, ?_, ?_, ?_⟩
      · intro form
        cases form with
        | none => rfl
        | node kind first next =>
            cases kind with
            | list =>
                simp only [nativeAstNameOccursInFormsP, nativeAstListNameOccursP, siblings, lets,
                  lambdas, ite_self]
            | function => exact forms first
            | symbol => rfl
            | quote => rfl
            | literal => rfl
      · intro items
        cases items with
        | none => rfl
        | node kind first next =>
            simp only [nativeAstSiblingsNameOccursP, forms, siblings, Bool.or_self]
      · intro bindings
        cases bindings with
        | none => rfl
        | node kind first next =>
            simp only [nativeAstLetInitializersNameOccursP, forms, initializers, Bool.or_self]
      · intro bindings body
        simp only [nativeAstLetNameOccursP, initializers, Bool.false_eq_true, ↓reduceIte]
      · intro lambda
        simp only [nativeAstLambdaNameOccursP, ite_self, siblings]

theorem mentionsP_first {form : Syntax} (absent : mentionsP wanted form = false) :
    mentionsP wanted (astFirst form) = false := by
  cases form with
  | none => rfl
  | node kind first next =>
      rw [mentionsP, Bool.or_eq_false_iff, Bool.or_eq_false_iff] at absent
      exact absent.1.2

theorem mentionsP_next {form : Syntax} (absent : mentionsP wanted form = false) :
    mentionsP wanted (astNext form) = false := by
  cases form with
  | none => rfl
  | node kind first next =>
      rw [mentionsP, Bool.or_eq_false_iff] at absent
      exact absent.2

/-- A name that is not written is not found. -/
theorem absent_not_found (levels : Nat) : ∀ (shadowed : Bool) (form : Syntax),
    mentionsP wanted form = false →
      nativeAstNameOccursInFormsP wanted levels shadowed form = false ∧
        nativeAstSiblingsNameOccursP wanted levels shadowed form = false ∧
        nativeAstLetInitializersNameOccursP wanted levels shadowed form = false ∧
        (∀ body, mentionsP wanted body = false →
          nativeAstLetNameOccursP wanted levels shadowed form body = false) ∧
        nativeAstLambdaNameOccursP wanted levels shadowed form = false := by
  induction levels with
  | zero =>
      intro shadowed form _
      simp only [nativeAstNameOccursInFormsP, nativeAstSiblingsNameOccursP,
        nativeAstLetInitializersNameOccursP, nativeAstLetNameOccursP, nativeAstLambdaNameOccursP,
        implies_true, and_self]
  | succ levels ih =>
      intro shadowed form absent
      have inner := ih shadowed
      have arguments := mentionsP_next (mentionsP_first absent)
      refine ⟨?_, ?_, ?_, ?_, ?_⟩
      · cases form with
        | none => rfl
        | node kind first next =>
            cases kind with
            | list =>
                rw [nativeAstNameOccursInFormsP, nativeAstListNameOccursP]
                have lets := (inner _ (mentionsP_first arguments)).2.2.2.1 _
                  (mentionsP_next arguments)
                have lambdas := (inner _ absent).2.2.2.2
                have others := (inner _ arguments).2.1
                simp only [lets, lambdas, others, ite_self]
            | function => exact (inner _ (mentionsP_first absent)).1
            | symbol symbol =>
                rw [mentionsP, Bool.or_eq_false_iff, Bool.or_eq_false_iff] at absent
                have other : ¬ symbol = wanted := by simpa using absent.1.1
                simp [nativeAstNameOccursInFormsP, astSameNameP, other]
            | quote => rfl
            | literal => rfl
      · cases form with
        | none => rfl
        | node kind first next =>
            rw [nativeAstSiblingsNameOccursP, Bool.or_eq_false_iff]
            exact ⟨(inner _ absent).1, (inner _ (mentionsP_next absent)).2.1⟩
      · cases form with
        | none => rfl
        | node kind first next =>
            rw [nativeAstLetInitializersNameOccursP, Bool.or_eq_false_iff]
            exact ⟨(inner _ arguments).1, (inner _ (mentionsP_next absent)).2.2.1⟩
      · intro body noBody
        simp only [nativeAstLetNameOccursP, (inner _ absent).2.2.1, (inner _ noBody).2.1,
          Bool.false_eq_true, ↓reduceIte, ite_self]
      · rw [nativeAstLambdaNameOccursP]
        exact (ih _ _ (mentionsP_next arguments)).2.1

/-- The search of a form does not depend on what follows it. -/
theorem forms_next (levels : Nat) (shadowed : Bool) (kind : SyntaxKind) (first next other : Syntax) :
    nativeAstNameOccursInFormsP wanted levels shadowed (.node kind first next) =
      nativeAstNameOccursInFormsP wanted levels shadowed (.node kind first other) := by
  cases levels with
  | zero => rfl
  | succ levels =>
      cases kind with
      | list =>
          cases levels with
          | zero => rfl
          | succ levels => rfl
      | _ => rfl

/-! ## Regular forms -/

def Syntax.size : Syntax → Nat
  | .none => 0
  | .node _ first next => 1 + first.size + next.size

/-- The search agrees with lexical scoping on trees below a size. -/
structure Agrees (wanted : SourceSymbol) (size : Nat) : Prop where
  form : ∀ kind first next levels, first.size < size → nodeRegularP wanted kind first = true →
    nodeLevels kind first ≤ levels →
      nativeAstNameOccursInFormsP wanted levels false (.node kind first next) =
        nodeFreeP wanted kind first
  siblings : ∀ items levels, items.size < size → regularInP wanted items = true →
    siblingsLevels items ≤ levels →
      nativeAstSiblingsNameOccursP wanted levels false items = freeInP wanted items
  initializers : ∀ bindings levels, bindings.size < size →
    initializersRegularP wanted bindings = true → initializersLevels bindings ≤ levels →
      nativeAstLetInitializersNameOccursP wanted levels false bindings =
        initializersFreeP wanted bindings

namespace Agrees

variable {size levels : Nat}

theorem siblings_step (agrees : Agrees wanted size) {items : Syntax} (bound : items.size ≤ size)
    (regular : regularInP wanted items = true) (room : siblingsLevels items ≤ levels) :
    nativeAstSiblingsNameOccursP wanted levels false items = freeInP wanted items := by
  cases items with
  | none =>
      rw [freeInP]
      cases levels with
      | zero => rfl
      | succ levels => rfl
  | node kind first next =>
      rw [regularInP, Bool.and_eq_true] at regular
      rw [Syntax.size] at bound
      rw [siblingsLevels] at room
      obtain ⟨less, rfl⟩ := Nat.exists_eq_add_of_le' (show 1 ≤ levels by omega)
      rw [nativeAstSiblingsNameOccursP, freeInP,
        agrees.form _ _ _ _ (by omega) regular.1 (by omega),
        agrees.siblings _ _ (by omega) regular.2 (by omega)]

theorem initializers_step (agrees : Agrees wanted size) {bindings : Syntax}
    (bound : bindings.size ≤ size) (regular : initializersRegularP wanted bindings = true)
    (room : initializersLevels bindings ≤ levels) :
    nativeAstLetInitializersNameOccursP wanted levels false bindings =
      initializersFreeP wanted bindings := by
  cases bindings with
  | none =>
      rw [initializersFreeP]
      cases levels with
      | zero => rfl
      | succ levels => rfl
  | node kind binding next =>
      cases kind with
      | list =>
          cases binding with
          | none =>
              rw [initializersRegularP] at regular
              · cases regular
              · intros
                contradiction
          | node nameKind nameFirst initializer =>
              cases initializer with
              | none =>
                  rw [initializersRegularP] at regular
                  · cases regular
                  · rintro _ _ _ _ _ _ ⟨⟩
              | node kind first others =>
                  rw [initializersRegularP, Bool.and_eq_true] at regular
                  simp only [Syntax.size] at bound
                  rw [initializersLevels] at room
                  obtain ⟨less, rfl⟩ := Nat.exists_eq_add_of_le' (show 1 ≤ levels by omega)
                  rw [nativeAstLetInitializersNameOccursP, initializersFreeP, astNext,
                    agrees.form _ _ _ _ (by omega) regular.1 (by omega),
                    agrees.initializers _ _ (by omega) regular.2 (by omega)]
      | _ =>
          rw [initializersRegularP] at regular
          · cases regular
          · intros
            contradiction

/-- The search of a lambda, from its parameter and its body. -/
theorem lambda_step (agrees : Agrees wanted size) {parameter : SourceSymbol}
    {head parameters body next : Syntax} (bound : body.size ≤ size)
    (regular : (decide (parameter = wanted) || regularInP wanted body) = true)
    (room : 1 + siblingsLevels body ≤ levels) :
    nativeAstLambdaNameOccursP wanted levels false
        (.node .list (.node (.symbol (.word .lambda)) head
          (.node .list (.node (.symbol parameter) parameters .none) body)) next) =
      (!(namesOf (.node (.symbol parameter) parameters .none)).contains wanted &&
        freeInP wanted body) := by
  obtain ⟨less, rfl⟩ := Nat.exists_eq_add_of_le' (show 1 ≤ levels by omega)
  rw [nativeAstLambdaNameOccursP]
  simp only [astFirst, astNext, astSameNameP, namesOf]
  by_cases same : parameter = wanted
  · simp [same, shadowed_not_found less]
  · have others : regularInP wanted body = true := by simpa [same] using regular
    have different : ¬ wanted = parameter := fun equal => same equal.symm
    have found := agrees.siblings_step bound others (show siblingsLevels body ≤ less by omega)
    simp [same, different, found]

end Agrees

/-- Operators that the search does not know are searched for in their arguments. -/
theorem forms_call {kind : SyntaxKind} {first arguments next : Syntax} {levels : Nat}
    (plain : searchedWordP kind = false ∨ kind = .symbol (.word .function)) :
    nativeAstNameOccursInFormsP wanted (levels + 1) false
        (.node .list (.node kind first arguments) next) =
      nativeAstSiblingsNameOccursP wanted levels false arguments := by
  rw [nativeAstNameOccursInFormsP, nativeAstListNameOccursP]
  obtain plain | rfl := plain
  · simp only [searchedWordP, Bool.or_eq_false_iff, decide_eq_false_iff_not] at plain
    obtain ⟨⟨⟨noLet, noLambda⟩, noFunction⟩, noQuote⟩ := plain
    cases kind with
    | symbol symbol =>
        rw [SyntaxKind.symbol.injEq] at noLet noLambda noFunction noQuote
        simp [astPackageNameP, astSameNameP, astFirst, astNext, noLet, noLambda, noFunction, noQuote]
    | _ => simp [astPackageNameP, astSameNameP, astFirst, astNext]
  · simp [astPackageNameP, astSameNameP, astFirst, astNext]

theorem nodeLevels_call {kind : SyntaxKind} {first arguments : Syntax}
    (plain : searchedWordP kind = false ∨ kind = .symbol (.word .function)) :
    nodeLevels .list (.node kind first arguments) = 1 + siblingsLevels arguments := by
  cases kind with
  | symbol symbol =>
      cases symbol with
      | word word =>
          cases word with
          | letForm => simp [searchedWordP] at plain
          | lambda => simp [searchedWordP] at plain
          | quote => simp [searchedWordP] at plain
          | _ => simp only [nodeLevels]
      | name identity => simp only [nodeLevels]
  | _ => simp only [nodeLevels]

namespace Agrees

variable {size levels : Nat}

/-- The clauses of a COND: their tests are not searched, and do not refer to the variable. -/
theorem clauses_step (agrees : Agrees wanted size) : ∀ (clauses : Syntax) (levels : Nat),
    clauses.size ≤ size → clausesRegularP wanted clauses = true → siblingsLevels clauses ≤ levels →
      nativeAstSiblingsNameOccursP wanted levels false clauses = clausesFreeP wanted clauses := by
  intro clauses
  induction clauses with
  | none =>
      intro levels _ _ _
      rw [clausesFreeP]
      cases levels with
      | zero => rfl
      | succ levels => rfl
  | node kind clause next _ ih =>
      intro levels bound regular room
      cases kind with
      | list =>
          cases clause with
          | none =>
              rw [clausesRegularP] at regular
              · cases regular
              · intros
                contradiction
          | node testKind test forms =>
              rw [clausesRegularP] at regular
              simp only [Bool.and_eq_true, Bool.not_eq_true'] at regular
              obtain ⟨⟨⟨plain, unused⟩, others⟩, rest⟩ := regular
              simp only [Syntax.size] at bound
              rw [siblingsLevels, nodeLevels_call (.inl plain)] at room
              obtain ⟨less, rfl⟩ := Nat.exists_eq_add_of_le' (show 2 ≤ levels by omega)
              rw [nativeAstSiblingsNameOccursP, forms_call (.inl plain),
                agrees.siblings_step (by omega) others (by omega),
                ih _ (by omega) rest (by omega), clausesFreeP, freeInP, unused, Bool.false_or]
      | _ =>
          rw [clausesRegularP] at regular
          · cases regular
          · intros
            contradiction

/-- An argument that is not evaluated and does not mention the name, before others that are. -/
theorem skip_step (agrees : Agrees wanted size) {kind : SyntaxKind} {first operands : Syntax}
    (bound : operands.size ≤ size)
    (absent : mentionsP wanted (.node kind first .none) = false)
    (regular : regularInP wanted operands = true)
    (room : siblingsLevels (.node kind first operands) ≤ levels) :
    nativeAstSiblingsNameOccursP wanted levels false (.node kind first operands) =
      freeInP wanted operands := by
  rw [siblingsLevels] at room
  obtain ⟨less, rfl⟩ := Nat.exists_eq_add_of_le' (show 1 ≤ levels by omega)
  rw [nativeAstSiblingsNameOccursP, forms_next less false kind first operands .none,
    (absent_not_found less false _ absent).1, Bool.false_or,
    agrees.siblings_step bound regular (by omega)]

/-- A LET: its variables are what the search takes them for. -/
theorem let_step (agrees : Agrees wanted size) {bindings body : Syntax}
    (bound : bindings.size ≤ size ∧ body.size ≤ size)
    (right : nativeAstLetBindingNameP wanted bindings = (letVariables bindings).contains wanted)
    (initializers : initializersRegularP wanted bindings = true)
    (regular : ((letVariables bindings).contains wanted || regularInP wanted body) = true)
    (room : 1 + max (initializersLevels bindings) (siblingsLevels body) ≤ levels) :
    nativeAstLetNameOccursP wanted levels false bindings body =
      (initializersFreeP wanted bindings ||
        (!(letVariables bindings).contains wanted && freeInP wanted body)) := by
  obtain ⟨less, rfl⟩ := Nat.exists_eq_add_of_le' (show 1 ≤ levels by omega)
  rw [nativeAstLetNameOccursP, agrees.initializers_step bound.1 initializers (by omega), right]
  cases initializersFreeP wanted bindings with
  | true => rfl
  | false =>
      simp only [Bool.false_eq_true, ↓reduceIte, Bool.false_or]
      cases binds : (letVariables bindings).contains wanted with
      | true => rfl
      | false =>
          rw [binds, Bool.false_or] at regular
          rw [if_neg (by decide), agrees.siblings_step bound.2 regular (by omega)]
          rfl

theorem namesOf_absent {names : Syntax} (absent : mentionsP wanted names = false) :
    (namesOf names).contains wanted = false := by
  induction names with
  | none => rfl
  | node kind first next _ ih =>
      rw [mentionsP, Bool.or_eq_false_iff, Bool.or_eq_false_iff] at absent
      obtain ⟨⟨other, _⟩, later⟩ := absent
      cases kind with
      | symbol symbol =>
          have different : ¬ wanted = symbol := fun same => by simp [same] at other
          rw [namesOf, List.contains_cons, ih later, Bool.or_false]
          simpa using different
      | _ => exact ih later

section Shapes

variable {arguments : Syntax}

theorem letForm_of_regular (regular : operatorRegularP wanted .letForm arguments = true) :
    ∃ bindings body, arguments = .node .list bindings body := by
  cases arguments with
  | none =>
      rw [operatorRegularP] at regular
      · cases regular
      · intros
        contradiction
  | node kind bindings body =>
      cases kind with
      | list => exact ⟨bindings, body, rfl⟩
      | _ =>
          rw [operatorRegularP] at regular
          · cases regular
          · rintro _ _ ⟨⟩

theorem lambda_of_regular (regular : operatorRegularP wanted .lambda arguments = true) :
    ∃ parameter parameters body,
      arguments = .node .list (.node (.symbol parameter) parameters .none) body := by
  unfold operatorRegularP at regular
  split at regular
  case h_3 => exact ⟨_, _, _, rfl⟩
  case h_4 => cases regular
  all_goals contradiction

theorem function_of_regular (regular : operatorRegularP wanted .function arguments = true) :
    ∃ head parameter parameters body,
      arguments = .node .list (.node (.symbol (.word .lambda)) head
        (.node .list (.node (.symbol parameter) parameters .none) body)) .none := by
  unfold operatorRegularP at regular
  split at regular
  case h_5 => exact ⟨_, _, _, _, rfl⟩
  case h_6 => cases regular
  all_goals contradiction

theorem functionMark_of_regular {first : Syntax}
    (regular : nodeRegularP wanted .function first = true) :
    ∃ head parameter parameters body others,
      first = .node .list (.node (.symbol (.word .lambda)) head
        (.node .list (.node (.symbol parameter) parameters .none) body)) others := by
  unfold nodeRegularP at regular
  split at regular
  case h_2 => exact ⟨_, _, _, _, _, rfl⟩
  case h_3 => cases regular
  all_goals contradiction

theorem values_of_regular (regular : operatorRegularP wanted .multipleValueBind arguments = true) :
    ∃ names kind first body, arguments = .node .list names (.node kind first body) := by
  unfold operatorRegularP at regular
  split at regular
  case h_9 => exact ⟨_, _, _, _, rfl⟩
  case h_10 => cases regular
  all_goals contradiction

end Shapes

/-- A form with an operator whose first argument is not evaluated. -/
theorem skipping_step (agrees : Agrees wanted size) {word : SourceWord}
    {head arguments next : Syntax} (plain : searchedWordP (.symbol (.word word)) = false)
    (skips : ∀ kind first operands,
      operatorFreeP wanted word (.node kind first operands) = freeInP wanted operands ∧
        operatorRegularP wanted word (.node kind first operands) =
          (!mentionsP wanted (.node kind first .none) && regularInP wanted operands))
    (nothing : operatorFreeP wanted word .none = false) (bound : arguments.size ≤ size)
    (regular : operatorRegularP wanted word arguments = true)
    (room : nodeLevels .list (.node (.symbol (.word word)) head arguments) ≤ levels) :
    nativeAstNameOccursInFormsP wanted levels false
        (.node .list (.node (.symbol (.word word)) head arguments) next) =
      operatorFreeP wanted word arguments := by
  rw [nodeLevels_call (.inl plain)] at room
  obtain ⟨less, rfl⟩ := Nat.exists_eq_add_of_le' (show 1 ≤ levels by omega)
  rw [forms_call (.inl plain)]
  cases arguments with
  | none =>
      rw [nothing]
      cases less with
      | zero => rfl
      | succ less => rfl
  | node kind first operands =>
      rw [(skips kind first operands).2, Bool.and_eq_true, Bool.not_eq_true'] at regular
      rw [Syntax.size] at bound
      rw [(skips kind first operands).1]
      exact agrees.skip_step (by omega) regular.1 regular.2 (by omega)

theorem operator_step (agrees : Agrees wanted size) {word : SourceWord}
    {head arguments next : Syntax} (bound : arguments.size ≤ size)
    (regular : operatorRegularP wanted word arguments = true)
    (room : nodeLevels .list (.node (.symbol (.word word)) head arguments) ≤ levels) :
    nativeAstNameOccursInFormsP wanted levels false
        (.node .list (.node (.symbol (.word word)) head arguments) next) =
      operatorFreeP wanted word arguments := by
  have plainCall : searchedWordP (.symbol (.word word)) = false →
      operatorFreeP wanted word arguments = freeInP wanted arguments →
      operatorRegularP wanted word arguments = regularInP wanted arguments →
      nativeAstNameOccursInFormsP wanted levels false
        (.node .list (.node (.symbol (.word word)) head arguments) next) =
      operatorFreeP wanted word arguments := by
    intro plain free same
    rw [nodeLevels_call (.inl plain)] at room
    obtain ⟨less, rfl⟩ := Nat.exists_eq_add_of_le' (show 1 ≤ levels by omega)
    rw [forms_call (.inl plain), free]
    exact agrees.siblings_step bound (same ▸ regular) (by omega)
  cases word with
  | letForm =>
      obtain ⟨bindings, body, rfl⟩ := letForm_of_regular regular
      rw [operatorRegularP, Bool.and_eq_true, Bool.and_eq_true, decide_eq_true_eq] at regular
      obtain ⟨⟨right, initializers⟩, others⟩ := regular
      rw [Syntax.size] at bound
      rw [nodeLevels] at room
      obtain ⟨less, rfl⟩ := Nat.exists_eq_add_of_le' (show 1 ≤ levels by omega)
      have found := agrees.let_step ⟨by omega, by omega⟩ right initializers others
        (show 1 + max (initializersLevels bindings) (siblingsLevels body) ≤ less by omega)
      rw [operatorFreeP, ← found]
      rfl
  | lambda =>
      obtain ⟨parameter, parameters, body, rfl⟩ := lambda_of_regular regular
      rw [operatorRegularP] at regular
      simp only [Syntax.size] at bound
      rw [nodeLevels] at room
      obtain ⟨less, rfl⟩ := Nat.exists_eq_add_of_le' (show 1 ≤ levels by omega)
      have found := @lambda_step wanted size less agrees parameter head parameters body next
        (by omega) regular (by omega)
      rw [operatorFreeP, ← found]
      rfl
  | function =>
      obtain ⟨lambdaHead, parameter, parameters, body, rfl⟩ := function_of_regular regular
      rw [operatorRegularP] at regular
      simp only [Syntax.size] at bound
      rw [nodeLevels_call (.inr rfl), siblingsLevels, nodeLevels] at room
      obtain ⟨less, rfl⟩ := Nat.exists_eq_add_of_le' (show 3 ≤ levels by omega)
      have last : nativeAstSiblingsNameOccursP wanted (less + 1) false .none = false := rfl
      have found := @lambda_step wanted size less agrees parameter lambdaHead parameters body .none
        (by omega) regular (by omega)
      rw [forms_call (.inr rfl), nativeAstSiblingsNameOccursP, last, Bool.or_false, operatorFreeP,
        ← found]
      rfl
  | quote =>
      rw [nodeLevels] at room
      obtain ⟨less, rfl⟩ := Nat.exists_eq_add_of_le' (show 1 ≤ levels by omega)
      rw [operatorFreeP]
      · rfl
      all_goals (intros; contradiction)
  | cond =>
      rw [operatorRegularP] at regular
      rw [nodeLevels_call (.inl rfl)] at room
      obtain ⟨less, rfl⟩ := Nat.exists_eq_add_of_le' (show 1 ≤ levels by omega)
      rw [forms_call (.inl rfl), operatorFreeP]
      exact agrees.clauses_step _ _ bound regular (by omega)
  | multipleValueBind =>
      obtain ⟨names, kind, first, body, rfl⟩ := values_of_regular regular
      rw [operatorRegularP, Bool.and_eq_true, Bool.and_eq_true, Bool.not_eq_true'] at regular
      obtain ⟨⟨absent, initializer⟩, others⟩ := regular
      simp only [Syntax.size] at bound
      rw [nodeLevels_call (.inl rfl)] at room
      obtain ⟨less, rfl⟩ := Nat.exists_eq_add_of_le' (show 1 ≤ levels by omega)
      have unbound : (namesOf names).contains wanted = false := namesOf_absent absent
      have parts : regularInP wanted (.node kind first body) = true := by
        rw [regularInP, initializer, others]
        rfl
      have noNames : mentionsP wanted (.node .list names .none) = false := by
        simp [mentionsP, absent]
      rw [forms_call (.inl rfl), operatorFreeP, unbound,
        agrees.skip_step (by simp only [Syntax.size]; omega) noNames parts (by omega), freeInP]
      rfl
  | wrapCast =>
      exact agrees.skipping_step rfl (fun _ _ _ => ⟨by rw [operatorFreeP], by rw [operatorRegularP]⟩)
        (by rw [operatorFreeP]; all_goals (intros; contradiction)) bound regular room
  | ptrCast =>
      exact agrees.skipping_step rfl (fun _ _ _ => ⟨by rw [operatorFreeP], by rw [operatorRegularP]⟩)
        (by rw [operatorFreeP]; all_goals (intros; contradiction)) bound regular room
  | ptrFromAddress =>
      exact agrees.skipping_step rfl (fun _ _ _ => ⟨by rw [operatorFreeP], by rw [operatorRegularP]⟩)
        (by rw [operatorFreeP]; all_goals (intros; contradiction)) bound regular room
  | ffiCall =>
      exact agrees.skipping_step rfl (fun _ _ _ => ⟨by rw [operatorFreeP], by rw [operatorRegularP]⟩)
        (by rw [operatorFreeP]; all_goals (intros; contradiction)) bound regular room
  | ffiAddressOf =>
      rw [operatorRegularP, Bool.not_eq_true'] at regular
      rw [nodeLevels_call (.inl rfl)] at room
      obtain ⟨less, rfl⟩ := Nat.exists_eq_add_of_le' (show 1 ≤ levels by omega)
      rw [forms_call (.inl rfl), (absent_not_found less false _ regular).2.1, operatorFreeP]
      all_goals (intros; contradiction)
  | true => exact plainCall rfl (by rw [operatorFreeP]) (by rw [operatorRegularP]; all_goals (intros; contradiction))
  | nil => exact plainCall rfl (by rw [operatorFreeP]) (by rw [operatorRegularP]; all_goals (intros; contradiction))

theorem form_step (agrees : Agrees wanted size) {kind : SyntaxKind} {first next : Syntax}
    (bound : first.size ≤ size) (regular : nodeRegularP wanted kind first = true)
    (room : nodeLevels kind first ≤ levels) :
    nativeAstNameOccursInFormsP wanted levels false (.node kind first next) =
      nodeFreeP wanted kind first := by
  cases kind with
  | symbol symbol =>
      rw [nodeLevels] at room
      · obtain ⟨less, rfl⟩ := Nat.exists_eq_add_of_le' room
        rw [nodeRegularP] at regular
        rw [nodeFreeP]
        change decide (symbol = wanted) = _
        by_cases same : symbol = wanted
        · have isVariable : constantP symbol = false := by simpa [same] using regular
          rw [isVariable, Bool.not_false, Bool.and_true]
        · simp [same]
      all_goals (intros; contradiction)
  | function =>
      obtain ⟨head, parameter, parameters, body, others, rfl⟩ := functionMark_of_regular regular
      rw [nodeRegularP] at regular
      simp only [Syntax.size] at bound
      rw [nodeLevels, nodeLevels] at room
      obtain ⟨less, rfl⟩ := Nat.exists_eq_add_of_le' (show 2 ≤ levels by omega)
      have found := @lambda_step wanted size less agrees parameter head parameters body others
        (by omega) regular (by omega)
      rw [nodeFreeP, ← found]
      rfl
  | list =>
      cases first with
      | none =>
          rw [nodeLevels] at room
          · obtain ⟨less, rfl⟩ := Nat.exists_eq_add_of_le' room
            rw [nodeFreeP]
            · cases less with
              | zero => rfl
              | succ less => rfl
            all_goals (intros; contradiction)
          all_goals (intros; contradiction)
      | node headKind head arguments =>
          rw [Syntax.size] at bound
          have call : searchedWordP headKind = false →
              nodeFreeP wanted .list (.node headKind head arguments) = freeInP wanted arguments →
              nodeRegularP wanted .list (.node headKind head arguments) =
                regularInP wanted arguments →
              nativeAstNameOccursInFormsP wanted levels false
                  (.node .list (.node headKind head arguments) next) =
                nodeFreeP wanted .list (.node headKind head arguments) := by
            intro plain free same
            rw [nodeLevels_call (.inl plain)] at room
            obtain ⟨less, rfl⟩ := Nat.exists_eq_add_of_le' (show 1 ≤ levels by omega)
            rw [forms_call (.inl plain), free]
            exact agrees.siblings_step (by omega) (same ▸ regular) (by omega)
          cases headKind with
          | symbol symbol =>
              cases symbol with
              | word word =>
                  rw [nodeRegularP] at regular
                  rw [nodeFreeP]
                  exact agrees.operator_step (by omega) regular room
              | name identity =>
                  exact call rfl (by rw [nodeFreeP]; all_goals (rintro _ ⟨⟩))
                    (by rw [nodeRegularP]; all_goals (rintro _ ⟨⟩))
          | _ =>
              exact call rfl (by rw [nodeFreeP]; all_goals (intros; contradiction))
                (by rw [nodeRegularP]; all_goals (intros; contradiction))
  | _ =>
      rw [nodeLevels] at room
      · obtain ⟨less, rfl⟩ := Nat.exists_eq_add_of_le' room
        rw [nodeFreeP]
        · rfl
        all_goals (intros; contradiction)
      all_goals (intros; contradiction)

end Agrees

/-- The search finds the free variables of regular forms. -/
theorem agrees_all (size : Nat) : Agrees wanted size := by
  induction size with
  | zero =>
      exact ⟨fun _ _ _ _ bound => absurd bound (Nat.not_lt_zero _),
        fun _ _ bound => absurd bound (Nat.not_lt_zero _),
        fun _ _ bound => absurd bound (Nat.not_lt_zero _)⟩
  | succ size agrees =>
      exact ⟨fun _ _ _ _ bound => agrees.form_step (Nat.le_of_lt_succ bound),
        fun _ _ bound => agrees.siblings_step (Nat.le_of_lt_succ bound),
        fun _ _ bound => agrees.initializers_step (Nat.le_of_lt_succ bound)⟩

end Native
