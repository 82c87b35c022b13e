import Mathlib.Data.Finset.Card
import Mathlib.Logic.Function.Basic
import Mathlib.Logic.Relation

/-! # Typestates

A typestate analysis gives every node that control reaches one state, so that the transfer of a
node turns its state into the state of each successor. `propagate` searches for such an assignment
with a worklist and rejects a graph when a transfer fails or when two paths disagree at a node. It
accepts exactly when an assignment exists (`propagate_iff`).
-/

namespace Flow

variable {Node State : Type}

/-- An assignment of states that every transfer respects. -/
structure Typestate (succ : Node → List Node) (transfer : Node → State → Option State)
    (start : Node) (initial : State) (states : Node → Option State) : Prop where
  start : states start = some initial
  steps : ∀ node state, states node = some state →
    ∃ after, transfer node state = some after ∧ ∀ next ∈ succ node, states next = some after

/-- Every node that control reaches has a state. -/
theorem Typestate.reaches {succ : Node → List Node} {transfer : Node → State → Option State}
    {start : Node} {initial : State} {states : Node → Option State}
    (typed : Typestate succ transfer start initial states) {node : Node}
    (path : Relation.ReflTransGen (fun source target => target ∈ succ source) start node) :
    ∃ state, states node = some state := by
  induction path with
  | refl => exact ⟨initial, typed.start⟩
  | tail _ edge ih =>
      obtain ⟨state, known⟩ := ih
      obtain ⟨after, -, agree⟩ := typed.steps _ state known
      exact ⟨after, agree _ edge⟩

variable [DecidableEq Node]

section Worklist

variable [DecidableEq State]

/-- Give a state to some nodes, pushing those that had none. -/
def spread (state : State) :
    List Node → List Node × (Node → Option State) → Option (List Node × (Node → Option State))
  | [], work => some work
  | next :: rest, (pending, states) =>
      match states next with
      | some prior => if prior = state then spread state rest (pending, states) else none
      | none => spread state rest (next :: pending, Function.update states next (some state))

/-- Empty a worklist, giving the successors of each node the state after it. -/
def propagate (succ : Node → List Node) (transfer : Node → State → Option State) :
    Nat → List Node → (Node → Option State) → Bool
  | 0, _, _ => true
  | _ + 1, [], _ => true
  | fuel + 1, node :: pending, states =>
      match states node with
      | none => propagate succ transfer fuel pending states
      | some state =>
          match transfer node state with
          | none => false
          | some after =>
              match spread after (succ node) (pending, states) with
              | none => false
              | some work => propagate succ transfer fuel work.1 work.2

end Worklist

/-- The nodes of a finite set without a state. -/
def unassigned (nodes : Finset Node) (states : Node → Option State) : Finset Node :=
  nodes.filter fun node => states node = none

theorem card_unassigned_update {nodes : Finset Node} {states : Node → Option State} {node : Node}
    (member : node ∈ nodes) (new : states node = none) (state : State) :
    (unassigned nodes (Function.update states node (some state))).card + 1 =
      (unassigned nodes states).card := by
  have inside : node ∈ unassigned nodes states := Finset.mem_filter.mpr ⟨member, new⟩
  have rest : unassigned nodes (Function.update states node (some state)) =
      (unassigned nodes states).erase node := by
    ext other
    simp only [unassigned, Finset.mem_filter, Finset.mem_erase, Function.update_apply]
    by_cases same : other = node
    · simp [same]
    · simp [same]
  rw [rest]
  exact Finset.card_erase_add_one inside

/-- One assignment of states continues another. -/
def Extends (states result : Node → Option State) : Prop :=
  ∀ node state, states node = some state → result node = some state

theorem extends_update {states : Node → Option State} {node : Node} (new : states node = none)
    (state : State) : Extends states (Function.update states node (some state)) := by
  intro other prior known
  rw [Function.update_apply]
  split
  · rename_i same
    rw [same, new] at known
    cases known
  · exact known

variable [DecidableEq State]

/-- What spreading a state to the successors of a node does to the worklist. -/
structure Spread (nodes : Finset Node) (state : State) (nexts pending : List Node)
    (states : Node → Option State) (pending' : List Node) (states' : Node → Option State) :
    Prop where
  grows : Extends states states'
  reached : ∀ next ∈ nexts, states' next = some state
  queued : ∀ node ∈ pending', (states' node).isSome = true ∨ node ∈ pending
  kept : ∀ node ∈ pending, node ∈ pending'
  fresh : ∀ node, states node = none → states' node ≠ none → node ∈ pending'
  measure : (unassigned nodes states').card + pending'.length =
    (unassigned nodes states).card + pending.length

theorem spread_spec {nodes : Finset Node} {state : State} : ∀ {nexts pending pending' : List Node}
    {states states' : Node → Option State}, (∀ next ∈ nexts, next ∈ nodes) →
    spread state nexts (pending, states) = some (pending', states') →
    Spread nodes state nexts pending states pending' states' := by
  intro nexts
  induction nexts with
  | nil =>
      intro pending pending' states states' _ finished
      cases finished
      exact ⟨fun _ _ known => known, fun _ member => (List.not_mem_nil member).elim,
        fun _ member => .inr member, fun _ member => member,
        fun _ missing present => (present missing).elim, rfl⟩
  | cons next rest ih =>
      intro pending pending' states states' inside finished
      have restInside : ∀ node ∈ rest, node ∈ nodes := fun node member =>
        inside node (List.mem_cons_of_mem _ member)
      unfold spread at finished
      cases known : states next with
      | some prior =>
          rw [known] at finished
          by_cases same : prior = state
          · simp only [same, ↓reduceIte] at finished
            have tail := ih restInside finished
            refine ⟨tail.grows, ?_, tail.queued, tail.kept, tail.fresh, tail.measure⟩
            intro node member
            rcases List.mem_cons.mp member with rfl | later
            · exact tail.grows _ _ (same ▸ known)
            · exact tail.reached node later
          · simp only [same, ↓reduceIte, reduceCtorEq] at finished
      | none =>
          simp only [known] at finished
          have tail := ih restInside finished
          have growth := extends_update known state
          have here : states' next = some state :=
            tail.grows _ _ (Function.update_self next (some state) states)
          refine ⟨fun node prior old => tail.grows _ _ (growth _ _ old), ?_, ?_, ?_, ?_, ?_⟩
          · intro node member
            rcases List.mem_cons.mp member with rfl | later
            · exact here
            · exact tail.reached node later
          · intro node member
            rcases tail.queued node member with assigned | old
            · exact .inl assigned
            · rcases List.mem_cons.mp old with rfl | earlier
              · exact .inl (by rw [here]; rfl)
              · exact .inr earlier
          · exact fun node member => tail.kept node (List.mem_cons_of_mem _ member)
          · intro node missing present
            by_cases same : node = next
            · exact tail.kept node (same ▸ List.mem_cons_self)
            · exact tail.fresh node (by rw [Function.update_of_ne same]; exact missing) present
          · have total := tail.measure
            have fewer := card_unassigned_update (inside next List.mem_cons_self) known state
            rw [List.length_cons] at total
            omega

/-- Spreading a state that an assignment has at every successor succeeds, below the assignment. -/
theorem spread_below {state : State} {result : Node → Option State} : ∀ {nexts pending : List Node}
    {states : Node → Option State}, Extends states result →
    (∀ next ∈ nexts, result next = some state) →
    ∃ pending' states', spread state nexts (pending, states) = some (pending', states') ∧
      Extends states' result := by
  intro nexts
  induction nexts with
  | nil => exact fun {pending states} below _ => ⟨pending, states, rfl, below⟩
  | cons next rest ih =>
      intro pending states below agree
      have here := agree next List.mem_cons_self
      have later : ∀ node ∈ rest, result node = some state := fun node member =>
        agree node (List.mem_cons_of_mem _ member)
      unfold spread
      cases known : states next with
      | some prior =>
          have same : prior = state := by
            have value := below next prior known
            rw [here] at value
            exact (Option.some.inj value).symm
          simp only [same, ↓reduceIte]
          exact ih below later
      | none =>
          refine ih ?_ later
          intro node prior given
          rw [Function.update_apply] at given
          split at given
          · rename_i same
            rw [same, here, given]
          · exact below node prior given

section Propagation

variable {succ : Node → List Node} {transfer : Node → State → Option State}

/-- The state after an assigned node has gone to its successors. -/
def Settled (succ : Node → List Node) (transfer : Node → State → Option State)
    (states : Node → Option State) (node : Node) : Prop :=
  ∀ state, states node = some state →
    ∃ after, transfer node state = some after ∧ ∀ next ∈ succ node, states next = some after

omit [DecidableEq Node] [DecidableEq State] in
theorem Settled.extends {states result : Node → Option State} {node : Node}
    (settled : Settled succ transfer states node) (known : (states node).isSome = true)
    (grows : Extends states result) : Settled succ transfer result node := by
  obtain ⟨state, value⟩ := Option.isSome_iff_exists.mp known
  obtain ⟨after, transferred, agree⟩ := settled state value
  intro other given
  rw [grows node state value] at given
  cases given
  exact ⟨after, transferred, fun next member => grows _ _ (agree next member)⟩

/-- With enough fuel, an accepted worklist ends in an assignment that every transfer respects. -/
theorem propagate_settles {nodes : Finset Node}
    (closed : ∀ node, ∀ next ∈ succ node, next ∈ nodes) : ∀ (fuel : Nat) (pending : List Node)
    (states : Node → Option State), (∀ node ∈ pending, (states node).isSome = true) →
    (∀ node, node ∉ pending → Settled succ transfer states node) →
    (unassigned nodes states).card + pending.length ≤ fuel →
    propagate succ transfer fuel pending states = true →
    ∃ result, Extends states result ∧ ∀ node, Settled succ transfer result node := by
  intro fuel
  induction fuel with
  | zero =>
      intro pending states _ settled bound _
      have empty : pending = [] := List.length_eq_zero_iff.mp (by omega)
      exact ⟨states, fun _ _ known => known, fun node => settled node (by simp [empty])⟩
  | succ fuel ih =>
      intro pending states queued settled bound accepted
      cases pending with
      | nil => exact ⟨states, fun _ _ known => known, fun node => settled node List.not_mem_nil⟩
      | cons node pending =>
          obtain ⟨state, known⟩ := Option.isSome_iff_exists.mp (queued node List.mem_cons_self)
          unfold propagate at accepted
          simp only [known] at accepted
          cases transferred : transfer node state with
          | none => simp only [transferred, Bool.false_eq_true] at accepted
          | some after =>
              simp only [transferred] at accepted
              cases spreads : spread after (succ node) (pending, states) with
              | none => simp only [spreads, Bool.false_eq_true] at accepted
              | some work =>
                  simp only [spreads] at accepted
                  have spec := spread_spec (closed node) spreads
                  have stillQueued : ∀ other ∈ work.1, (work.2 other).isSome = true := by
                    intro other member
                    rcases spec.queued other member with assigned | old
                    · exact assigned
                    · obtain ⟨prior, value⟩ := Option.isSome_iff_exists.mp
                        (queued other (List.mem_cons_of_mem _ old))
                      rw [spec.grows _ _ value]
                      rfl
                  have stillSettled : ∀ other, other ∉ work.1 →
                      Settled succ transfer work.2 other := by
                    intro other absent
                    by_cases same : other = node
                    · -- The popped node is the one whose successors were just assigned.
                      subst same
                      intro prior value
                      rw [spec.grows _ _ known] at value
                      cases value
                      exact ⟨after, transferred, spec.reached⟩
                    · cases assigned : states other with
                      | some prior =>
                          refine (settled other ?_).extends (by rw [assigned]; rfl) spec.grows
                          intro member
                          rcases List.mem_cons.mp member with equal | old
                          · exact same equal
                          · exact absent (spec.kept other old)
                      | none =>
                          intro prior value
                          exact (absent (spec.fresh other assigned (by simp [value]))).elim
                  have total := spec.measure
                  rw [List.length_cons] at bound
                  obtain ⟨result, grows, every⟩ := ih work.1 work.2 stillQueued stillSettled
                    (by omega) accepted
                  exact ⟨result, fun _ _ old => grows _ _ (spec.grows _ _ old), every⟩

/-- An assignment that every transfer respects keeps the worklist from failing. -/
theorem propagate_of_settled {result : Node → Option State}
    (every : ∀ node, Settled succ transfer result node) : ∀ (fuel : Nat) (pending : List Node)
    (states : Node → Option State), Extends states result →
    propagate succ transfer fuel pending states = true := by
  intro fuel
  induction fuel with
  | zero => exact fun _ _ _ => rfl
  | succ fuel ih =>
      intro pending states below
      cases pending with
      | nil => rfl
      | cons node pending =>
          unfold propagate
          cases known : states node with
          | none => exact ih pending states below
          | some state =>
              obtain ⟨after, transferred, agree⟩ := every node state (below node state known)
              obtain ⟨pending', states', spreads, below'⟩ := @spread_below _ _ _ _ _ _ _ pending _
                below agree
              simp only [transferred, spreads]
              exact ih pending' states' below'

/-- The worklist accepts a graph exactly when the graph has a typestate. -/
theorem propagate_iff {nodes : Finset Node} {start : Node} {initial : State} {fuel : Nat}
    (inside : start ∈ nodes) (closed : ∀ node, ∀ next ∈ succ node, next ∈ nodes)
    (bound : nodes.card ≤ fuel) :
    propagate succ transfer fuel [start]
        (Function.update (fun _ => none) start (some initial)) = true ↔
      ∃ states, Typestate succ transfer start initial states := by
  have here : Function.update (fun _ => none) start (some initial) start = some initial :=
    Function.update_self ..
  constructor
  · intro accepted
    have fewer := @card_unassigned_update _ State _ _ (fun _ => none) _ inside rfl initial
    have whole : (unassigned nodes fun _ : Node => (none : Option State)).card ≤ nodes.card :=
      Finset.card_filter_le _ _
    have queued : ∀ node ∈ [start],
        (Function.update (fun _ => none) start (some initial) node).isSome = true := by
      intro node member
      rw [List.mem_singleton.mp member, here]
      rfl
    have settled : ∀ node, node ∉ [start] →
        Settled succ transfer (Function.update (fun _ => none) start (some initial)) node := by
      intro node absent state known
      rw [Function.update_of_ne (by simpa using absent)] at known
      cases known
    obtain ⟨result, grows, every⟩ := propagate_settles closed fuel [start] _ queued settled
      (by rw [List.length_singleton]; omega) accepted
    exact ⟨result, grows _ _ here, every⟩
  · rintro ⟨result, typed⟩
    refine propagate_of_settled typed.steps fuel [start] _ ?_
    intro node state known
    rw [Function.update_apply] at known
    split at known
    · rename_i same
      cases known
      rw [same]
      exact typed.start
    · cases known

end Propagation

end Flow
