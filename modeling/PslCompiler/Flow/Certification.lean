import Mathlib.Data.List.Basic
import Mathlib.Logic.Function.Basic
import Mathlib.Logic.Relation

/-! # Certification by withdrawal

Every node of a call graph starts with a certificate, and passes over the nodes withdraw the
certificates of those that call a node without one, until a pass withdraws nothing. Some nodes are
decided in advance. The certificates that remain are the largest consistent set: a node keeps its
certificate exactly when no chain of calls leads from it to a node that is refused in advance.
-/

namespace Flow

/-! ## Tainted nodes -/

section Tainted

variable {Node : Type} {calls : Node → Node → Prop} {bad : Node → Prop}

/-- A chain of calls leads from the node to a bad one. -/
def Tainted (calls : Node → Node → Prop) (bad : Node → Prop) (node : Node) : Prop :=
  ∃ other, Relation.ReflTransGen calls node other ∧ bad other

theorem Tainted.of_bad {node : Node} (isBad : bad node) : Tainted calls bad node :=
  ⟨node, .refl, isBad⟩

theorem Tainted.of_call {node next : Node} (call : calls node next)
    (tainted : Tainted calls bad next) : Tainted calls bad node := by
  obtain ⟨other, chain, isBad⟩ := tainted
  exact ⟨other, .head call chain, isBad⟩

/-- A set without bad nodes that is closed under calls has no tainted node. -/
theorem not_tainted_of_closed {motive : Node → Prop}
    (clean : ∀ node, motive node → ¬bad node)
    (closed : ∀ node next, motive node → calls node next → motive next) {node : Node}
    (member : motive node) : ¬Tainted calls bad node := by
  rintro ⟨other, chain, isBad⟩
  have reached : motive other := by
    clear isBad
    induction chain with
    | refl => exact member
    | tail _ call ih => exact closed _ _ ih call
  exact clean other reached isBad

end Tainted

/-! ## Withdrawing certificates -/

section Withdraw

variable {Item Node : Type} [DecidableEq Node] (name : Item → Node)
  (check : (Node → Bool) → Item → Bool)

/-- Visit items in order, withdraw the certificate of each that fails its check, and say whether
any was withdrawn. Later items see what earlier ones have lost. -/
def withdraw : List Item → (Node → Bool) → (Node → Bool) × Bool
  | [], safe => (safe, false)
  | item :: rest, safe =>
      if safe (name item) && !check safe item then
        ((withdraw rest (Function.update safe (name item) false)).1, true)
      else withdraw rest safe

variable {name check}

/-- A property that every single withdrawal preserves holds after a pass. -/
theorem withdraw_invariant {motive : (Node → Bool) → Prop} :
    ∀ (items : List Item) (safe : Node → Bool),
      (∀ safe, ∀ item ∈ items, motive safe → check safe item = false →
        motive (Function.update safe (name item) false)) →
      motive safe → motive (withdraw name check items safe).1 := by
  intro items
  induction items with
  | nil =>
      intro safe _ holds
      exact holds
  | cons item rest ih =>
      intro safe preserved holds
      have later : ∀ safe, ∀ item ∈ rest, motive safe → check safe item = false →
          motive (Function.update safe (name item) false) := fun safe item member =>
        preserved safe item (List.mem_cons_of_mem _ member)
      unfold withdraw
      split
      · rename_i fails
        rw [Bool.and_eq_true, Bool.not_eq_true'] at fails
        exact ih _ later (preserved safe item List.mem_cons_self holds fails.2)
      · exact ih _ later holds

/-- A pass adds no certificate. -/
theorem withdraw_le (items : List Item) (safe : Node → Bool) {node : Node}
    (kept : (withdraw name check items safe).1 node = true) : safe node = true := by
  refine withdraw_invariant (motive := fun after => after node = true → safe node = true)
    items safe ?_ id kept
  intro after item _ below _ still
  by_cases same : node = name item
  · rw [same, Function.update_self] at still
    cases still
  · rw [Function.update_of_ne same] at still
    exact below still

/-- After a pass that withdraws nothing, every certified item passes its check. -/
theorem withdraw_stable : ∀ (items : List Item) (safe : Node → Bool),
    (withdraw name check items safe).2 = false → (withdraw name check items safe).1 = safe ∧
      ∀ item ∈ items, safe (name item) = true → check safe item = true := by
  intro items
  induction items with
  | nil =>
      intro safe _
      exact ⟨rfl, fun item member => (List.not_mem_nil member).elim⟩
  | cons item rest ih =>
      intro safe unchanged
      unfold withdraw at unchanged ⊢
      split at unchanged
      · cases unchanged
      · rename_i passes
        rw [if_neg passes]
        obtain ⟨same, stable⟩ := ih safe unchanged
        refine ⟨same, List.forall_mem_cons.mpr ⟨?_, stable⟩⟩
        intro certified
        rw [certified, Bool.true_and, Bool.not_eq_true', Bool.not_eq_false] at passes
        exact passes

/-- A pass that withdraws something takes the certificate of one of the items. -/
theorem withdraw_changed : ∀ (items : List Item) (safe : Node → Bool),
    (withdraw name check items safe).2 = true →
      ∃ item ∈ items, safe (name item) = true ∧
        (withdraw name check items safe).1 (name item) = false := by
  intro items
  induction items with
  | nil =>
      intro safe changed
      cases changed
  | cons item rest ih =>
      intro safe changed
      unfold withdraw at changed ⊢
      split
      · rename_i fails
        rw [Bool.and_eq_true] at fails
        refine ⟨item, List.mem_cons_self, fails.1, ?_⟩
        rw [← Bool.not_eq_true]
        intro still
        have before := withdraw_le rest _ still
        rw [Function.update_self] at before
        cases before
      · rename_i passes
        rw [if_neg passes] at changed
        obtain ⟨other, member, certified, lost⟩ := ih safe changed
        exact ⟨other, List.mem_cons_of_mem _ member, certified, lost⟩

theorem countP_lt_countP {before after : Item → Bool} (below : ∀ item, after item → before item) :
    ∀ {items : List Item}, (∃ item ∈ items, before item = true ∧ after item = false) →
      items.countP after < items.countP before := by
  intro items
  induction items with
  | nil =>
      rintro ⟨item, member, _⟩
      exact (List.not_mem_nil member).elim
  | cons item rest ih =>
      rintro ⟨other, member, had, lost⟩
      have rest_le : rest.countP after ≤ rest.countP before :=
        List.countP_mono_left fun item _ => below item
      rw [List.countP_cons, List.countP_cons]
      rcases List.mem_cons.mp member with rfl | inside
      · simp only [had, lost, ↓reduceIte, Bool.false_eq_true]
        omega
      · have smaller := ih ⟨other, inside, had, lost⟩
        have head_le : (if after item = true then 1 else 0) ≤
            (if before item = true then 1 else 0) := by
          split
          · simp only [below item ‹_›, ↓reduceIte, Nat.le_refl]
          · exact Nat.zero_le _
        omega

variable (name check)

/-- Repeat passes over the items until one withdraws nothing. -/
def settle (items : List Item) (safe : Node → Bool) : Node → Bool :=
  if (withdraw name check items safe).2 then settle items (withdraw name check items safe).1
  else (withdraw name check items safe).1
termination_by items.countP fun item => safe (name item)
decreasing_by
  exact countP_lt_countP (fun _ => withdraw_le items safe)
    (withdraw_changed items safe ‹_›)

variable {name check}

theorem settle_of_changed {items : List Item} {safe : Node → Bool}
    (changed : (withdraw name check items safe).2 = true) :
    settle name check items safe = settle name check items (withdraw name check items safe).1 := by
  rw [settle, if_pos changed]

theorem settle_of_unchanged {items : List Item} {safe : Node → Bool}
    (unchanged : (withdraw name check items safe).2 = false) :
    settle name check items safe = (withdraw name check items safe).1 := by
  rw [settle, if_neg (Bool.eq_false_iff.mp unchanged)]

theorem settle_invariant {motive : (Node → Bool) → Prop} {items : List Item}
    (preserved : ∀ safe, ∀ item ∈ items, motive safe → check safe item = false →
      motive (Function.update safe (name item) false)) (safe : Node → Bool)
    (holds : motive safe) : motive (settle name check items safe) := by
  fun_induction settle name check items safe with
  | case1 safe changed ih =>
      exact ih (withdraw_invariant items safe preserved holds)
  | case2 safe unchanged =>
      exact withdraw_invariant items safe preserved holds

/-- At the end every certified item passes its check. -/
theorem settle_stable (items : List Item) (safe : Node → Bool) :
    ∀ item ∈ items, settle name check items safe (name item) = true →
      check (settle name check items safe) item = true := by
  fun_induction settle name check items safe with
  | case1 safe changed ih => exact ih
  | case2 safe unchanged =>
      obtain ⟨same, stable⟩ := withdraw_stable items safe (Bool.eq_false_iff.mpr unchanged)
      rw [same]
      exact stable

end Withdraw

/-! ## Exactness -/

section Exact

variable {Item Node : Type} [DecidableEq Node] (name : Item → Node)
  (callees : Item → List Node) (decided : Node → Option Bool)

/-- A node passes when it is decided in advance to be good, or has a certificate. -/
def passes (safe : Node → Bool) (node : Node) : Bool :=
  (decided node).getD (safe node)

/-- An item passes when all nodes that it calls do. -/
def calleesPass (safe : Node → Bool) (item : Item) : Bool :=
  (callees item).all (passes decided safe)

/-- A node that is not decided in advance calls what the items of its name call. -/
def ItemCalls (items : List Item) (node next : Node) : Prop :=
  decided node = none ∧ ∃ item ∈ items, name item = node ∧ next ∈ callees item

/-- A node that is refused in advance or starts without a certificate. -/
def Refused (initial : Node → Bool) (node : Node) : Prop :=
  passes decided initial node = false

variable {name callees decided}

/-- The nodes that pass in the end are those from which no call chain reaches a refused one. -/
theorem settle_passes_iff (items : List Item) (initial : Node → Bool) (node : Node) :
    passes decided (settle name (calleesPass callees decided) items initial) node = true ↔
      ¬Tainted (ItemCalls name callees decided items) (Refused decided initial) node := by
  constructor
  · intro passing
    have kept : ∀ other, settle name (calleesPass callees decided) items initial other = true →
        initial other = true := fun other =>
      settle_invariant (motive := fun safe => safe other = true → initial other = true)
        (by
          intro safe item _ below _ still
          by_cases same : other = name item
          · rw [same, Function.update_self] at still
            cases still
          · rw [Function.update_of_ne same] at still
            exact below still) initial id
    refine not_tainted_of_closed (motive := fun node =>
      passes decided (settle name (calleesPass callees decided) items initial) node = true)
      ?_ ?_ passing
    · intro other good refused
      unfold Refused passes at refused
      unfold passes at good
      cases advance : decided other with
      | some verdict =>
          rw [advance, Option.getD_some] at good refused
          rw [good] at refused
          cases refused
      | none =>
          rw [advance, Option.getD_none] at good refused
          rw [kept other good] at refused
          cases refused
    · rintro other next good ⟨undecided, item, member, rfl, called⟩
      unfold passes at good
      rw [undecided, Option.getD_none] at good
      exact List.all_eq_true.mp (settle_stable items initial item member good) next called
  · intro clean
    have certified : ∀ other, decided other = none →
        ¬Tainted (ItemCalls name callees decided items) (Refused decided initial) other →
        settle name (calleesPass callees decided) items initial other = true := by
      refine settle_invariant (motive := fun safe => ∀ other, decided other = none →
        ¬Tainted (ItemCalls name callees decided items) (Refused decided initial) other →
        safe other = true) ?_ initial ?_
      · intro safe item member holds fails other undecided untainted
        by_cases same : other = name item
        · subst same
          obtain ⟨next, called, rejected⟩ := List.all_eq_false.mp fails
          refine (untainted (.of_call ⟨undecided, item, member, rfl, called⟩ ?_)).elim
          by_contra free
          apply rejected
          unfold passes
          cases advance : decided next with
          | some verdict =>
              rw [Option.getD_some]
              by_contra refused
              apply free (.of_bad _)
              unfold Refused passes
              rw [advance, Option.getD_some]
              exact Bool.eq_false_iff.mpr refused
          | none =>
              rw [Option.getD_none]
              exact holds next advance free
        · rw [Function.update_of_ne same]
          exact holds other undecided untainted
      · intro other undecided untainted
        by_contra refused
        apply untainted (.of_bad _)
        unfold Refused passes
        rw [undecided, Option.getD_none]
        exact Bool.eq_false_iff.mpr refused
    unfold passes
    cases advance : decided node with
    | some verdict =>
        rw [Option.getD_some]
        by_contra refused
        apply clean (.of_bad _)
        unfold Refused passes
        rw [advance, Option.getD_some]
        exact Bool.eq_false_iff.mpr refused
    | none => exact certified node advance clean

end Exact

end Flow
