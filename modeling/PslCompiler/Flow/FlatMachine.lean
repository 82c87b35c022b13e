import PslCompiler.Flow.SsaMachine

/-! # Executing flat code

Lists of instructions with labels, jumps and branches. Phis have become copies that run one after
another; they have the effect of a simultaneous assignment as long as no copy reads a register
that an earlier copy of the same edge has overwritten.
-/

namespace Flow

inductive Flat (Op : Type)
  | assign (assignment : Assignment Op)
  | label (id : Nat)
  | skip
  | jump (target : Nat)
  | branch (condition ifTrue ifFalse : Nat)
  | branchZero (condition target : Nat)
  | ret (value : Option Nat)

variable {Op Value World : Type}

namespace Flat

def copy (dst src : Nat) : Flat Op := .assign (.copy dst src)

def isLabel (id : Nat) : Flat Op → Bool
  | label other => other == id
  | _ => false

/-- The labels of some code, in order. -/
def labels (code : List (Flat Op)) : List Nat :=
  code.filterMap fun instruction =>
    match instruction with
    | label id => some id
    | _ => none

theorem labels_append (first second : List (Flat Op)) :
    labels (first ++ second) = labels first ++ labels second :=
  List.filterMap_append

theorem labels_label (id : Nat) (code : List (Flat Op)) :
    labels (label id :: code) = id :: labels code := rfl

theorem labels_assignments (assignments : List (Assignment Op)) :
    labels (assignments.map assign) = [] := by
  rw [labels, List.filterMap_eq_nil_iff]
  intro instruction member
  obtain ⟨assignment, -, rfl⟩ := List.mem_map.mp member
  rfl

theorem labels_copies (copies : List (Nat × Nat)) :
    labels (copies.map fun pair => (copy pair.1 pair.2 : Flat Op)) = [] := by
  rw [labels, List.filterMap_eq_nil_iff]
  intro instruction member
  obtain ⟨pair, -, rfl⟩ := List.mem_map.mp member
  rfl

/-- The position of a label. -/
def position (code : List (Flat Op)) (id : Nat) : Option Nat :=
  code.findIdx? (isLabel id)

def transfer (code : List (Flat Op)) (target : Nat) (store : Store Op Value World) :
    MachineState Op Value World :=
  match position code target with
  | some index => .goto index store
  | none => .halt store.surroundings

/-- Execute one instruction. -/
def execute (meaning : Interpretation Op Value World) (code : List (Flat Op)) (pc : Nat)
    (store : Store Op Value World) : Flat Op → MachineState Op Value World
  | assign assignment =>
      match assignment.run meaning store with
      | .running after => .goto (pc + 1) after
      | .stopped surroundings => .halt surroundings
  | label _ | skip => .goto (pc + 1) store
  | jump target => transfer code target store
  | branch condition ifTrue ifFalse =>
      match store.registers condition with
      | some value => transfer code (if meaning.truth value then ifTrue else ifFalse) store
      | none => .halt store.surroundings
  | branchZero condition target =>
      match store.registers condition with
      | some value =>
          if meaning.truth value then .goto (pc + 1) store else transfer code target store
      | none => .halt store.surroundings
  | ret value => .finish value store

def step (meaning : Interpretation Op Value World) (code : List (Flat Op))
    (state : MachineState Op Value World) : MachineState Op Value World :=
  match state.control with
  | .at pc =>
      match code[pc]? with
      | some instruction => execute meaning code pc state.store instruction
      | none => .halt state.store.surroundings
  | _ => state

theorem transfer_trace (code : List (Flat Op)) (target : Nat) (store : Store Op Value World) :
    (transfer code target store).store.surroundings.trace = store.surroundings.trace := by
  unfold transfer
  split
  · rfl
  · rfl

theorem execute_grows (meaning : Interpretation Op Value World) (code : List (Flat Op)) (pc : Nat)
    (store : Store Op Value World) (instruction : Flat Op) :
    store.surroundings.trace <+:
      (execute meaning code pc store instruction).store.surroundings.trace := by
  cases instruction with
  | assign assignment =>
      have grows := assignment.run_grows meaning store
      simp only [execute]
      split
      · rename_i after outcome
        rwa [outcome] at grows
      · rename_i surroundings outcome
        rwa [outcome] at grows
  | label id => exact List.prefix_rfl
  | skip => exact List.prefix_rfl
  | jump target => rw [execute, transfer_trace]
  | branch condition ifTrue ifFalse =>
      simp only [execute]
      split
      · rw [transfer_trace]
      · exact List.prefix_rfl
  | branchZero condition target =>
      simp only [execute]
      split
      · split
        · exact List.prefix_rfl
        · rw [transfer_trace]
      · exact List.prefix_rfl
  | ret value => rw [execute, MachineState.finish_trace]

/-- The machine of some flat code. -/
def machine (meaning : Interpretation Op Value World) (code : List (Flat Op)) :
    Machine Op Value (MachineState Op Value World) where
  step := step meaning code
  observe := MachineState.observe
  grows state := by
    change state.store.surroundings.trace <+: (step meaning code state).store.surroundings.trace
    unfold step
    split
    · split
      · exact execute_grows meaning code _ state.store _
      · exact List.prefix_rfl
    · exact List.prefix_rfl
  rests state result returned := by
    unfold step
    unfold MachineState.observe at returned
    split
    · rename_i pc position
      rw [position] at returned
      cases returned
    · rfl

def start (world : World) : MachineState Op Value World :=
  .goto 0 ⟨fun _ => none, ⟨world, []⟩⟩

/-! ## Segments of code -/

/-- A segment stands at a position of some code. -/
def Segment (code : List (Flat Op)) (pc : Nat) (segment : List (Flat Op)) : Prop :=
  segment <+: code.drop pc

theorem Segment.fetch {code : List (Flat Op)} {pc : Nat} {first : Flat Op}
    {rest : List (Flat Op)} (here : Segment code pc (first :: rest)) : code[pc]? = some first := by
  obtain ⟨after, same⟩ := here
  have head : (code.drop pc)[0]? = some first := by
    rw [← same]
    rfl
  rwa [List.getElem?_drop, Nat.add_zero] at head

theorem Segment.tail {code : List (Flat Op)} {pc : Nat} {first : Flat Op} {rest : List (Flat Op)}
    (here : Segment code pc (first :: rest)) : Segment code (pc + 1) rest := by
  obtain ⟨after, same⟩ := here
  refine ⟨after, ?_⟩
  rw [← List.drop_drop, ← same]
  rfl

theorem Segment.drop {code : List (Flat Op)} : ∀ {pc : Nat} {first rest : List (Flat Op)},
    Segment code pc (first ++ rest) → Segment code (pc + first.length) rest := by
  intro pc first
  induction first generalizing pc with
  | nil => exact fun here => here
  | cons instruction first ih =>
      intro rest here
      have next := ih here.tail
      rwa [List.length_cons, Nat.add_comm first.length 1, ← Nat.add_assoc]

theorem step_at {meaning : Interpretation Op Value World} {code : List (Flat Op)} {pc : Nat}
    {store : Store Op Value World} {first : Flat Op} {rest : List (Flat Op)}
    (here : Segment code pc (first :: rest)) :
    step meaning code (.goto pc store) = execute meaning code pc store first := by
  simp only [step, MachineState.goto, here.fetch]

/-- Assignments in a row execute as a list of assignments. -/
theorem run_assignments (meaning : Interpretation Op Value World) {code : List (Flat Op)} :
    ∀ (assignments : List (Assignment Op)) {pc : Nat} {rest : List (Flat Op)}
      (store : Store Op Value World), Segment code pc (assignments.map assign ++ rest) →
      match Assignment.runAll meaning assignments store with
      | .running after => (step meaning code)^[assignments.length] (.goto pc store) =
          .goto (pc + assignments.length) after
      | .stopped surroundings =>
          ∃ steps, 0 < steps ∧ (step meaning code)^[steps] (.goto pc store) = .halt surroundings := by
  intro assignments
  induction assignments with
  | nil => exact fun _ _ => rfl
  | cons assignment assignments ih =>
      intro pc rest store here
      have first : step meaning code (.goto pc store) =
          execute meaning code pc store (assign assignment) := step_at here
      unfold Assignment.runAll
      cases outcome : assignment.run meaning store with
      | running after =>
          have moved : step meaning code (.goto pc store) = .goto (pc + 1) after := by
            rw [first]
            simp only [execute, outcome]
          have later := ih after here.tail
          simp only [Outcome.andThen]
          split
          · rename_i final finished
            rw [finished] at later
            rw [List.length_cons, Function.iterate_succ_apply, moved, later]
            congr 1
            omega
          · rename_i surroundings stopped
            rw [stopped] at later
            obtain ⟨steps, -, ends⟩ := later
            refine ⟨steps + 1, Nat.succ_pos _, ?_⟩
            rw [Function.iterate_succ_apply, moved, ends]
      | stopped surroundings =>
          refine ⟨1, Nat.one_pos, ?_⟩
          rw [Function.iterate_one, first]
          simp only [execute, outcome]

/-! ## Copies -/

/-- Copies from sources to destinations, one after another. -/
def copyAll (copies : List (Nat × Nat)) (registers : Nat → Option Value) : Nat → Option Value :=
  copies.foldl (fun registers copy => Function.update registers copy.1 (registers copy.2)) registers

theorem run_copies (meaning : Interpretation Op Value World) {code : List (Flat Op)} :
    ∀ (copies : List (Nat × Nat)) {pc : Nat} {rest : List (Flat Op)} (store : Store Op Value World),
      Segment code pc ((copies.map fun pair => copy pair.1 pair.2) ++ rest) →
      (step meaning code)^[copies.length] (.goto pc store) =
        .goto (pc + copies.length) { store with registers := copyAll copies store.registers } := by
  intro copies
  induction copies with
  | nil => exact fun _ _ => rfl
  | cons pair copies ih =>
      intro pc rest store here
      have first : step meaning code (.goto pc store) =
          execute meaning code pc store (copy pair.1 pair.2) := step_at here
      simp only [copy, execute, Assignment.run_copy] at first
      rw [List.length_cons, Function.iterate_succ_apply, first, ih _ here.tail]
      congr 1
      omega

/-- No copy reads what an earlier one has written, and no register is written twice. -/
def Independent (copies : List (Nat × Nat)) : Prop :=
  copies.Pairwise fun first second => second.2 ≠ first.1 ∧ second.1 ≠ first.1

/-- Independent copies act as one simultaneous assignment. -/
theorem copyAll_of_independent : ∀ (copies : List (Nat × Nat)) (registers : Nat → Option Value),
    Independent copies → ∀ register, copyAll copies registers register =
      match copies.lookup register with
      | some source => registers source
      | none => registers register := by
  intro copies
  induction copies with
  | nil => exact fun _ _ _ => rfl
  | cons pair copies ih =>
      intro registers independent register
      obtain ⟨apart, others⟩ := List.pairwise_cons.mp independent
      have after := ih (Function.update registers pair.1 (registers pair.2)) others register
      have unfolded : copyAll (pair :: copies) registers register =
          copyAll copies (Function.update registers pair.1 (registers pair.2)) register := rfl
      rw [unfolded, after, List.lookup_cons]
      by_cases same : register = pair.1
      · subst same
        rw [beq_self_eq_true]
        have absent : copies.lookup pair.1 = none := by
          rw [List.lookup_eq_none_iff]
          intro other member
          simpa using (apart other member).2.symm
        rw [absent]
        exact Function.update_self _ _ _
      · rw [beq_eq_false_iff_ne.mpr same]
        cases found : copies.lookup register with
        | none => exact Function.update_of_ne same _ _
        | some source =>
            obtain ⟨before, behind, split, -⟩ := List.lookup_eq_some_iff.mp found
            have member : (register, source) ∈ copies := by
              rw [split]
              exact List.mem_append_right _ List.mem_cons_self
            exact Function.update_of_ne (apart _ member).1 _ _

theorem copyAll_append (first second : List (Nat × Nat)) (registers : Nat → Option Value) :
    copyAll (first ++ second) registers = copyAll second (copyAll first registers) :=
  List.foldl_append

theorem copyAll_of_not_mem : ∀ {copies : List (Nat × Nat)} {registers : Nat → Option Value}
    {register : Nat}, register ∉ copies.map Prod.fst →
    copyAll copies registers register = registers register := by
  intro copies
  induction copies with
  | nil => exact fun _ => rfl
  | cons copy copies ih =>
      intro registers register absent
      obtain ⟨differs, others⟩ := List.ne_and_not_mem_of_not_mem_cons absent
      have later := @ih (Function.update registers copy.1 (registers copy.2)) register others
      rw [Function.update_of_ne differs] at later
      exact later

/-- When every copy moves a value up, each register ends with a value from at most its own number,
and a copied register with a value from below. -/
theorem copyAll_below {copies : List (Nat × Nat)} (up : ∀ copy ∈ copies, copy.2 < copy.1)
    (register : Nat) : ∃ origin, copyAll copies some register = some origin ∧ origin ≤ register ∧
      (register ∈ copies.map Prod.fst → origin < register) := by
  induction copies using List.reverseRecOn generalizing register with
  | nil => exact ⟨register, rfl, le_rfl, fun member => (List.not_mem_nil member).elim⟩
  | append_singleton copies copy ih =>
      have before := ih fun other member => up other (List.mem_append_left _ member)
      have last := up copy (List.mem_append_right _ List.mem_cons_self)
      have unfolded : copyAll (copies ++ [copy]) some =
          Function.update (copyAll copies some) copy.1 (copyAll copies some copy.2) :=
        copyAll_append copies [copy] some
      rw [unfolded]
      by_cases written : register = copy.1
      · obtain ⟨origin, same, below, -⟩ := before copy.2
        refine ⟨origin, ?_, by omega, fun _ => by omega⟩
        rw [written, Function.update_self, same]
      · obtain ⟨origin, same, below, strict⟩ := before register
        refine ⟨origin, ?_, below, fun member => strict ?_⟩
        · rw [Function.update_of_ne written, same]
        · rw [List.map_append, List.mem_append] at member
          rcases member with here | there
          · exact here
          · exact (written (List.mem_singleton.mp there)).elim

/-! ## Labels -/

/-- A label that occurs once is found where it stands. -/
theorem position_of_nodup {code before after : List (Flat Op)} {id : Nat}
    (distinct : (labels code).Nodup) (split : code = before ++ label id :: after) :
    position code id = some before.length := by
  have absent : ∀ instruction ∈ before, isLabel id instruction = false := by
    intro instruction member
    by_contra found
    have isId : instruction = label id := by
      cases instruction with
      | label other =>
          have same : (other == id) = true := by simpa [isLabel] using found
          rw [beq_iff_eq] at same
          rw [same]
      | _ => simp [isLabel] at found
    rw [split, labels, List.filterMap_append, List.filterMap_cons] at distinct
    obtain ⟨-, -, apart⟩ := List.nodup_append'.mp distinct
    refine apart ?_ List.mem_cons_self
    rw [List.mem_filterMap]
    exact ⟨instruction, member, by rw [isId]⟩
  rw [position, split, List.findIdx?_append, List.findIdx?_eq_none_iff.mpr absent,
    List.findIdx?_cons]
  simp [isLabel]

theorem Segment.position {code rest : List (Flat Op)} {pc id : Nat}
    (distinct : (labels code).Nodup) (here : Segment code pc (label id :: rest)) :
    position code id = some pc := by
  obtain ⟨after, same⟩ := here
  have inside : pc < code.length := by
    by_contra beyond
    rw [List.drop_eq_nil_of_le (Nat.le_of_not_lt beyond)] at same
    cases same
  have split : code = code.take pc ++ label id :: (rest ++ after) := by
    rw [← List.cons_append, same, List.take_append_drop]
  have found := position_of_nodup distinct split
  rwa [List.length_take, Nat.min_eq_left (Nat.le_of_lt inside)] at found

/-! ## Layout -/

/-- Code laid out block after block. Each block takes some fresh labels. -/
def layout (blockCode : Nat → Nat → List (Flat Op)) (taken : Nat → Nat) :
    List Nat → Nat → List (Flat Op)
  | [], _ => []
  | block :: rest, next =>
      blockCode block next ++ layout blockCode taken rest (next + taken block)

section Layout

variable {blockCode : Nat → Nat → List (Flat Op)} {taken : Nat → Nat}

theorem layout_segment : ∀ {blocks : List Nat} {next block : Nat}, block ∈ blocks →
    ∃ pc fresh, next ≤ fresh ∧
      Segment (layout blockCode taken blocks next) pc (blockCode block fresh) := by
  intro blocks
  induction blocks with
  | nil => exact fun member => (List.not_mem_nil member).elim
  | cons first rest ih =>
      intro next block member
      rcases List.mem_cons.mp member with rfl | later
      · exact ⟨0, next, le_rfl, List.prefix_append _ _⟩
      · obtain ⟨pc, fresh, above, here⟩ := @ih (next + taken first) block later
        refine ⟨(blockCode first next).length + pc, fresh, by omega, ?_⟩
        unfold Segment layout
        rwa [List.drop_append, List.drop_eq_nil_of_le (by omega), List.nil_append,
          Nat.add_sub_cancel_left]

/-- When the blocks are distinct and lie below the fresh labels, so are all labels distinct. -/
theorem layout_labels : ∀ {blocks : List Nat} {next : Nat},
      (∀ block ∈ blocks, ∀ next, labels (blockCode block next) =
        block :: List.range' next (taken block)) →
      blocks.Nodup → (∀ block ∈ blocks, block < next) →
      (labels (layout blockCode taken blocks next)).Nodup ∧
      ∀ id ∈ labels (layout blockCode taken blocks next), id ∈ blocks ∨ next ≤ id := by
  intro blocks
  induction blocks with
  | nil => exact fun _ _ _ => ⟨List.nodup_nil, fun _ member => (List.not_mem_nil member).elim⟩
  | cons first rest ih =>
      intro next shape distinct below
      obtain ⟨fresh, others⟩ := List.nodup_cons.mp distinct
      have under : ∀ block ∈ rest, block < next := fun block member =>
        below block (List.mem_cons_of_mem _ member)
      obtain ⟨laterDistinct, later⟩ := @ih (next + taken first)
        (fun block member => shape block (List.mem_cons_of_mem _ member)) others
        fun block member => Nat.lt_of_lt_of_le (under block member) (Nat.le_add_right _ _)
      have firstBelow := below first List.mem_cons_self
      have same : labels (layout blockCode taken (first :: rest) next) =
          (first :: List.range' next (taken first)) ++
            labels (layout blockCode taken rest (next + taken first)) := by
        rw [← shape first List.mem_cons_self next]
        exact List.filterMap_append
      rw [same]
      constructor
      · refine List.Nodup.append ?_ laterDistinct ?_
        · refine List.nodup_cons.mpr ⟨?_, List.nodup_range'⟩
          rw [List.mem_range'_1]
          omega
        · intro id here there
          rcases List.mem_cons.mp here with rfl | inside
          · rcases later id there with old | above
            · exact fresh old
            · omega
          · rw [List.mem_range'_1] at inside
            rcases later id there with old | above
            · have := under id old
              omega
            · omega
      · intro id member
        rcases List.mem_append.mp member with here | there
        · rcases List.mem_cons.mp here with rfl | inside
          · exact .inl List.mem_cons_self
          · rw [List.mem_range'_1] at inside
            exact .inr inside.1
        · rcases later id there with old | above
          · exact .inl (List.mem_cons_of_mem _ old)
          · exact .inr (by omega)

end Layout

end Flat

end Flow
