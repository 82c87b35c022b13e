import PslCompiler.Flow.Definedness
import PslCompiler.Stage0.VerifySsa

/-! # What the Stage 0 SSA verifier guarantees

An SSA function run along arbitrary edges, with a phi reading the input of the edge by which its
block was entered. In an accepted function definitions dominate their uses, so every operand is
assigned before it is read; only a phi of the entry block, which has no input for the initial
entry, escapes the checks.
-/

namespace Stage0

open Flow

/-! ## The graph of a function -/

def SsaInstruction.item (instruction : SsaInstruction) : Item Ty where
  dst := instruction.id
  type := instruction.type
  reads :=
    match instruction.op with
    | .phi incoming => .phi incoming
    | _ => .plain instruction.args

namespace SsaFunction

/-- The definitions, terminator operands and edges of a function. -/
def graph (function : SsaFunction) : SsaGraph Ty where
  entry := function.entry
  succ := function.successors
  items id := ((function.findBlock id).map SsaBlock.instructions |>.getD []).map SsaInstruction.item
  final id := ((function.findBlock id).map SsaBlock.terminatorArgs).getD []

/-- In every run, all operands of instructions, phis and terminators have been assigned. -/
def ExecutionSafe (function : SsaFunction) : Prop :=
  ∀ state, function.graph.Reached state → function.graph.Safe state

/-- The entry block has a phi. -/
def EntryPhi (function : SsaFunction) : Prop :=
  ∃ block, function.findBlock function.entry = some block ∧
    ∃ instruction ∈ block.instructions, instruction.isPhi = true

end SsaFunction

/-! ## Block and value ids -/

theorem verifySsaValueIds_eq_ok {nextValue : Nat} : ∀ (instructions : List SsaInstruction)
    (values result : Finset Nat), verifySsaValueIds nextValue instructions values = .ok result →
    (instructions.map SsaInstruction.id).Nodup ∧
      (∀ instruction ∈ instructions, instruction.id ∉ values) ∧
      result = values ∪ (instructions.map SsaInstruction.id).toFinset := by
  intro instructions
  induction instructions with
  | nil =>
      intro values result success
      cases success
      exact ⟨List.nodup_nil, fun _ member => (List.not_mem_nil member).elim, by simp⟩
  | cons first rest ih =>
      intro values result success
      simp only [verifySsaValueIds, bind_eq_ok, require_eq_ok, decide_eq_true_eq] at success
      obtain ⟨-, -, -, fresh, done⟩ := success
      obtain ⟨distinct, absent, rfl⟩ := ih _ result done
      refine ⟨?_, ?_, ?_⟩
      · rw [List.map_cons, List.nodup_cons]
        refine ⟨fun member => ?_, distinct⟩
        obtain ⟨other, inside, same⟩ := List.mem_map.mp member
        exact absent other inside (same ▸ Finset.mem_insert_self _ _)
      · intro instruction member
        rcases List.mem_cons.mp member with rfl | later
        · exact fresh
        · exact fun old => absent instruction later (Finset.mem_insert_of_mem old)
      · ext value
        simp only [Finset.mem_union, Finset.mem_insert, List.mem_toFinset, List.map_cons,
          List.mem_cons]
        tauto

/-- What the structure check establishes of the ids of some blocks. -/
structure BlockIds (blocks : List SsaBlock) (ids : Finset Nat) : Prop where
  distinct : (blocks.map SsaBlock.id).Nodup
  values : (blocks.flatMap fun block => block.instructions.map SsaInstruction.id).Nodup
  terminated : ∀ block ∈ blocks, block.terminator.isSome = true
  known : ∀ id, id ∈ ids ↔ id ∈ blocks.map SsaBlock.id

theorem verifySsaBlockIds_eq_ok {nextValue : Nat} : ∀ (blocks : List SsaBlock)
    (ids values result : Finset Nat),
    verifySsaBlockIds nextValue blocks ids values = .ok result →
    (blocks.map SsaBlock.id).Nodup ∧ (∀ block ∈ blocks, block.id ∉ ids) ∧
      (blocks.flatMap fun block => block.instructions.map SsaInstruction.id).Nodup ∧
      (∀ block ∈ blocks, ∀ instruction ∈ block.instructions, instruction.id ∉ values) ∧
      (∀ block ∈ blocks, block.terminator.isSome = true) ∧
      result = ids ∪ (blocks.map SsaBlock.id).toFinset := by
  intro blocks
  induction blocks with
  | nil =>
      intro ids values result success
      cases success
      simp
  | cons first rest ih =>
      intro ids values result success
      simp only [verifySsaBlockIds, bind_eq_ok, require_eq_ok, decide_eq_true_eq] at success
      obtain ⟨-, fresh, -, terminated, seen, checked, done⟩ := success
      obtain ⟨own, unused, rfl⟩ := verifySsaValueIds_eq_ok _ _ _ checked
      obtain ⟨distinct, absent, values, unseen, others, rfl⟩ := ih _ _ result done
      refine ⟨?_, ?_, ?_, ?_, ?_, ?_⟩
      · rw [List.map_cons, List.nodup_cons]
        refine ⟨fun member => ?_, distinct⟩
        obtain ⟨other, inside, same⟩ := List.mem_map.mp member
        exact absent other inside (same ▸ Finset.mem_insert_self _ _)
      · intro block member
        rcases List.mem_cons.mp member with rfl | later
        · exact fresh
        · exact fun old => absent block later (Finset.mem_insert_of_mem old)
      · rw [List.flatMap_cons, List.nodup_append']
        refine ⟨own, values, ?_⟩
        intro value here there
        obtain ⟨block, inside, member⟩ := List.mem_flatMap.mp there
        obtain ⟨instruction, inBlock, rfl⟩ := List.mem_map.mp member
        exact unseen block inside instruction inBlock
          (Finset.mem_union_right _ (List.mem_toFinset.mpr here))
      · intro block member instruction inBlock
        rcases List.mem_cons.mp member with rfl | later
        · exact unused instruction inBlock
        · exact fun old => unseen block later instruction inBlock (Finset.mem_union_left _ old)
      · intro block member
        rcases List.mem_cons.mp member with rfl | later
        · exact terminated
        · exact others block later
      · ext id
        simp only [Finset.mem_union, Finset.mem_insert, List.mem_toFinset, List.map_cons,
          List.mem_cons]
        tauto

theorem verifySsaBlockIds_ids {nextValue : Nat} {blocks : List SsaBlock} {ids : Finset Nat}
    (success : verifySsaBlockIds nextValue blocks ∅ ∅ = .ok ids) : BlockIds blocks ids := by
  obtain ⟨distinct, -, values, -, terminated, rfl⟩ := verifySsaBlockIds_eq_ok blocks ∅ ∅ ids success
  exact ⟨distinct, values, terminated, fun id => by simp⟩

section Blocks

variable {function : SsaFunction} {ids : Finset Nat}

theorem findBlock_mem {id : Nat} {block : SsaBlock} (found : function.findBlock id = some block) :
    block ∈ function.blocks ∧ block.id = id := by
  refine ⟨List.mem_of_find?_eq_some found, ?_⟩
  simpa using List.find?_some found

/-- Distinct ids make every block the one that its id finds. -/
theorem BlockIds.find (names : BlockIds function.blocks ids) {block : SsaBlock}
    (member : block ∈ function.blocks) : function.findBlock block.id = some block := by
  have present : (function.findBlock block.id).isSome = true := by
    rw [SsaFunction.findBlock, List.find?_isSome]
    exact ⟨block, member, beq_self_eq_true _⟩
  obtain ⟨other, found⟩ := Option.isSome_iff_exists.mp present
  obtain ⟨inside, same⟩ := findBlock_mem found
  rw [found, List.inj_on_of_nodup_map names.distinct inside member same]

theorem BlockIds.find_of_mem (names : BlockIds function.blocks ids) {id : Nat} (member : id ∈ ids) :
    ∃ block ∈ function.blocks, block.id = id ∧ function.findBlock id = some block := by
  obtain ⟨block, inside, rfl⟩ := List.mem_map.mp ((names.known id).mp member)
  exact ⟨block, inside, rfl, names.find inside⟩

theorem mem_successors {id next : Nat} : next ∈ function.successors id ↔
    ∃ block, function.findBlock id = some block ∧ next ∈ block.successors := by
  unfold SsaFunction.successors
  cases function.findBlock id with
  | none => simp
  | some block => simp

theorem mem_blockPredecessors (names : BlockIds function.blocks ids) {source target : Nat} :
    source ∈ function.blockPredecessors target ↔ target ∈ function.successors source := by
  rw [mem_successors]
  simp only [SsaFunction.blockPredecessors, List.mem_map, List.mem_filter, List.contains_iff_mem]
  constructor
  · rintro ⟨block, ⟨inside, edge⟩, rfl⟩
    exact ⟨block, names.find inside, edge⟩
  · rintro ⟨block, found, edge⟩
    obtain ⟨inside, same⟩ := findBlock_mem found
    exact ⟨block, ⟨inside, edge⟩, same⟩

theorem graph_items {id : Nat} {block : SsaBlock} (found : function.findBlock id = some block) :
    function.graph.items id = block.instructions.map SsaInstruction.item := by
  simp only [SsaFunction.graph, found, Option.map_some, Option.getD_some]

/-- The instruction behind an item of the graph. -/
theorem graph_item {id position : Nat} {item : Item Ty}
    (fetched : (function.graph.items id)[position]? = some item) :
    ∃ block instruction, function.findBlock id = some block ∧
      block.instructions[position]? = some instruction ∧ instruction.item = item := by
  cases found : function.findBlock id with
  | none => simp [SsaFunction.graph, found] at fetched
  | some block =>
      rw [graph_items found, List.getElem?_map] at fetched
      obtain ⟨instruction, at_, same⟩ := Option.map_eq_some_iff.mp fetched
      exact ⟨block, instruction, rfl, at_, same⟩

/-- Values are defined at one place only. -/
theorem BlockIds.site_unique (names : BlockIds function.blocks ids)
    {value block position other place : Nat} (site : function.graph.Site value block position)
    (second : function.graph.Site value other place) : block = other ∧ position = place := by
  obtain ⟨item, fetched, rfl⟩ := site
  obtain ⟨item', fetched', same⟩ := second
  obtain ⟨first, instruction, found, here, rfl⟩ := graph_item fetched
  obtain ⟨last, instruction', found', there, rfl⟩ := graph_item fetched'
  obtain ⟨inside, rfl⟩ := findBlock_mem found
  obtain ⟨inside', rfl⟩ := findBlock_mem found'
  obtain ⟨each, apart⟩ := List.nodup_flatMap.mp names.values
  have member : instruction.id ∈ first.instructions.map SsaInstruction.id :=
    List.mem_map_of_mem (List.mem_of_getElem? here)
  have member' : instruction.id ∈ last.instructions.map SsaInstruction.id := by
    have copy : instruction'.id = instruction.id := same
    rw [← copy]
    exact List.mem_map_of_mem (List.mem_of_getElem? there)
  have equal : first = last := by
    by_contra differs
    have symmetric : Std.Symm (Function.onFun List.Disjoint fun block : SsaBlock =>
        block.instructions.map SsaInstruction.id) := ⟨fun _ _ disjoint => disjoint.symm⟩
    exact apart.forall inside inside' differs member member'
  subst equal
  refine ⟨rfl, ?_⟩
  have bound := (List.getElem?_eq_some_iff.mp here).1
  have copy : (first.instructions.map SsaInstruction.id)[position]? =
      (first.instructions.map SsaInstruction.id)[place]? := by
    rw [List.getElem?_map, List.getElem?_map, here, there, Option.map_some, Option.map_some]
    exact congrArg some same.symm
  exact (List.getElem?_inj (by rwa [List.length_map]) (each first inside)).mp copy

/-- The recorded site of a value is a place of the graph that defines it. -/
theorem BlockIds.definition_site (names : BlockIds function.blocks ids) {value block index : Nat}
    (recorded : definitionSites function value = some (block, index)) :
    function.graph.Site value block index := by
  have member : (value, block, index) ∈ definitionList function := by
    obtain ⟨before, after, split, -⟩ := List.lookup_eq_some_iff.mp recorded
    rw [← List.mem_reverse, split]
    exact List.mem_append_right _ List.mem_cons_self
  obtain ⟨owner, inside, listed⟩ := List.mem_flatMap.mp member
  obtain ⟨⟨instruction, place⟩, indexed, same⟩ := List.mem_map.mp listed
  cases same
  refine ⟨instruction.item, ?_, rfl⟩
  rw [graph_items (names.find inside), List.getElem?_map]
  rw [List.mem_zipIdx_iff_getElem?] at indexed
  rw [indexed, Option.map_some]

end Blocks

/-! ## Dominators -/

section Dominators

variable {function : SsaFunction} {ids : Finset Nat}

theorem dominatorUpdate_along (names : BlockIds function.blocks ids) {source target : Nat}
    (edge : target ∈ function.successors source) (other : target ≠ function.entry)
    (dominators : Nat → Finset Nat) :
    dominatorUpdate function target dominators ⊆ insert target (dominators source) := by
  have member := (mem_blockPredecessors names).mpr edge
  unfold dominatorUpdate
  rw [if_neg other]
  split
  · rename_i empty
    rw [empty] at member
    exact (List.not_mem_nil member).elim
  · rename_i first rest shape
    rw [shape] at member
    obtain ⟨base, others⟩ := foldl_inter_subset dominators rest (dominators first)
    apply Finset.insert_subset_insert
    rcases List.mem_cons.mp member with rfl | later
    · exact base
    · exact others source later

theorem dominatorUpdate_monotone (id : Nat) : Monotone (dominatorUpdate function id) := by
  intro small large below
  unfold dominatorUpdate
  split
  · exact below id
  · split
    · exact below id
    · exact Finset.insert_subset_insert _ (foldl_inter_mono below _ (below _))

theorem dominatorStart_subset (names : BlockIds function.blocks ids)
    (entered : function.entry ∈ ids) (id : Nat) :
    dominatorStart function id ⊆ (function.blocks.map SsaBlock.id).toFinset := by
  unfold dominatorStart
  split
  · rename_i same
    rw [Finset.singleton_subset_iff, List.mem_toFinset, same]
    exact (names.known _).mp entered
  · exact Finset.Subset.refl _

/-- The dominator equations are solved within the bound on the rounds. -/
theorem dominators_converge (names : BlockIds function.blocks ids)
    (entered : function.entry ∈ ids) :
    (solve (dominatorUpdate function) (function.blocks.map SsaBlock.id)
      (function.blocks.length * function.blocks.length + 1)
      (dominatorStart function)).isSome = true := by
  have mono : StrictMono (Finset.card : Finset Nat → Nat) := fun _ _ => Finset.card_lt_card
  apply solve_isSome mono dominatorUpdate_monotone
  · intro id member
    unfold dominatorUpdate
    split
    · exact Finset.Subset.refl _
    · rename_i other
      split
      · exact Finset.Subset.refl _
      · rename_i first rest _
        have start : dominatorStart function id = (function.blocks.map SsaBlock.id).toFinset :=
          if_neg other
        rw [start]
        refine Finset.insert_subset (List.mem_toFinset.mpr member) ?_
        exact (foldl_inter_subset (dominatorStart function) rest _).1.trans
          (dominatorStart_subset names entered first)
  · have each : ∀ size ∈ (function.blocks.map SsaBlock.id).map
        (fun id => (dominatorStart function id).card), size ≤ function.blocks.length := by
      intro size member
      obtain ⟨id, -, rfl⟩ := List.mem_map.mp member
      calc (dominatorStart function id).card
          ≤ (function.blocks.map SsaBlock.id).toFinset.card :=
            Finset.card_le_card (dominatorStart_subset names entered id)
        _ ≤ (function.blocks.map SsaBlock.id).length := List.toFinset_card_le _
        _ = function.blocks.length := List.length_map _
    have total := List.sum_le_card_nsmul _ _ each
    simp only [List.length_map, smul_eq_mul] at total
    exact Nat.lt_succ_of_le total

/-- What `compute-dominators` returns are dominators. -/
theorem computeDominators_dominates (names : BlockIds function.blocks ids)
    (closed : ∀ source target, target ∈ function.successors source → target ∈ ids)
    {dominators : Nat → Finset Nat} (computed : computeDominators function = .ok dominators)
    {dominator block : Nat} (member : dominator ∈ dominators block) :
    Dominates function.successors function.entry dominator block := by
  simp only [computeDominators, bind_eq_ok] at computed
  obtain ⟨-, -, computed⟩ := computed
  split at computed
  · rename_i result solved
    cases computed
    refine dominates_of_facts ?_ ?_ member
    · have preserved (facts : Nat → Finset Nat) (holds : facts function.entry ⊆ {function.entry})
          (id : Nat) (_ : id ∈ function.blocks.map SsaBlock.id) :
          Function.update facts id (dominatorUpdate function id facts) function.entry ⊆
            {function.entry} := by
        by_cases same : id = function.entry
        · subst same
          simp only [Function.update_self, dominatorUpdate, ↓reduceIte]
          exact holds
        · rwa [Function.update_of_ne (Ne.symm same)]
      refine @solve_invariant _ _ _ _ _ _ (fun facts => facts function.entry ⊆ {function.entry})
        preserved _ _ _ ?_ solved
      simp only [dominatorStart, ↓reduceIte, Finset.Subset.refl]
    · intro source target edge other _
      have inside : target ∈ function.blocks.map SsaBlock.id :=
        (names.known target).mp (closed source target edge)
      rw [← solve_fixpoint _ _ dominators solved target inside]
      exact dominatorUpdate_along names edge other dominators
  · cases computed

end Dominators

/-! ## Accepted functions -/

section Accepted

variable {function : SsaFunction} {ids : Finset Nat} {dominators : Nat → Finset Nat}

/-- What the verifier establishes of an accepted function's blocks and edges. -/
structure SsaStructured (function : SsaFunction) (ids : Finset Nat) : Prop where
  names : BlockIds function.blocks ids
  entered : function.entry ∈ ids
  closed : ∀ source target, target ∈ function.successors source → target ∈ ids

theorem verifySsaTerminatorShape_targets {terminator : SsaTerminator} {result : Unit}
    (success : verifySsaTerminatorShape ids terminator = .ok result) :
    ∀ target ∈ terminator.targets, target ∈ ids := by
  cases kind : terminator.op with
  | _ =>
      simp only [verifySsaTerminatorShape, kind, bind_eq_ok, checkAll_eq_ok, require_eq_ok,
        decide_eq_true_eq] at success
      obtain ⟨-, -, -, -, targets⟩ := success
      exact targets

theorem verifySsaStructure_structured (success : verifySsaStructure function = .ok ()) :
    ∃ ids, SsaStructured function ids := by
  simp only [verifySsaStructure, bind_eq_ok, require_eq_ok, checkAll_eq_ok,
    decide_eq_true_eq] at success
  obtain ⟨-, -, ids, named, -, entered, -, shapes, -⟩ := success
  refine ⟨ids, verifySsaBlockIds_ids named, entered, ?_⟩
  intro source target edge
  obtain ⟨block, found, inside⟩ := mem_successors.mp edge
  have shape := shapes block (findBlock_mem found).1
  unfold SsaBlock.successors at inside
  cases terminated : block.terminator with
  | none =>
      rw [terminated] at inside
      exact (List.not_mem_nil inside).elim
  | some terminator =>
      rw [terminated] at inside shape
      exact verifySsaTerminatorShape_targets shape target inside

/-- A value that passes `verify-ssa-use` is defined before its use. -/
theorem verifySsaUse_defined (structured : SsaStructured function ids)
    (computed : computeDominators function = .ok dominators) {value block index : Nat}
    (success : verifySsaUse value block index (definitionSites function) dominators = .ok ()) :
    function.graph.DefinedBefore value block index := by
  unfold verifySsaUse at success
  split at success
  · cases success
  · rename_i site recorded
    have place := structured.names.definition_site recorded
    split at success
    · rename_i same
      exact ⟨site.1, site.2, place, .inl ⟨same, by simpa [require_eq_ok] using success⟩⟩
    · rename_i other
      have member : site.1 ∈ dominators block := by simpa [require_eq_ok] using success
      exact ⟨site.1, site.2, place, .inr ⟨other,
        computeDominators_dominates structured.names structured.closed computed member⟩⟩

/-- A phi that passes `verify-ssa-phi` has, for every predecessor, an input that is defined at
the predecessor's end. -/
theorem verifySsaPhi_defined (structured : SsaStructured function ids)
    (computed : computeDominators function = .ok dominators) {incoming : List (Nat × Nat)}
    {block predecessor : Nat}
    (success : verifySsaPhi incoming block function (definitionSites function) dominators = .ok ())
    (edge : block ∈ function.successors predecessor) :
    ∃ value home place, incoming.lookup predecessor = some value ∧
      function.graph.Site value home place ∧
      Dominates function.graph.succ function.graph.entry home predecessor := by
  simp only [verifySsaPhi, bind_eq_ok, require_eq_ok, checkAll_eq_ok, Bool.and_eq_true,
    beq_iff_eq] at success
  obtain ⟨-, ⟨-, same⟩, edges⟩ := success
  have listed : predecessor ∈ incoming.map Prod.fst := by
    rw [← List.mem_toFinset, same, List.mem_toFinset]
    exact (mem_blockPredecessors structured.names).mpr edge
  obtain ⟨value, found⟩ : ∃ value, incoming.lookup predecessor = some value := by
    rw [← Option.isSome_iff_exists, List.lookup_isSome_iff]
    obtain ⟨pair, inside, rfl⟩ := List.mem_map.mp listed
    exact ⟨pair, inside, beq_self_eq_true _⟩
  have member : (predecessor, value) ∈ incoming := by
    obtain ⟨before, after, split, -⟩ := List.lookup_eq_some_iff.mp found
    rw [split]
    exact List.mem_append_right _ List.mem_cons_self
  have checked := edges _ member
  unfold verifySsaPhiEdge at checked
  split at checked
  · cases checked
  · rename_i site recorded
    refine ⟨value, site.1, site.2, found, structured.names.definition_site recorded, ?_⟩
    rw [require_eq_ok, Bool.or_eq_true, beq_iff_eq, decide_eq_true_eq] at checked
    rcases checked with home | dominated
    · rw [home]
      exact Dominates.refl predecessor
    · exact computeDominators_dominates structured.names structured.closed computed dominated

/-- The dominance checks of a block, instruction by instruction. -/
theorem verifySsaInstructions_each {sites : Nat → Option (Nat × Nat)} {block : Nat} :
    ∀ (instructions : List SsaInstruction) (index : Nat) (seen : Bool),
      verifySsaInstructions function block sites dominators instructions index seen = .ok () →
      ∀ (position : Nat) (instruction : SsaInstruction),
        instructions[position]? = some instruction →
        match instruction.op with
        | .phi incoming => verifySsaPhi incoming block function sites dominators = .ok ()
        | _ => ∀ value ∈ instruction.args,
            verifySsaUse value block (index + position) sites dominators = .ok () := by
  intro instructions
  induction instructions with
  | nil =>
      intro index seen _ position instruction fetched
      rw [List.getElem?_nil] at fetched
      cases fetched
  | cons first rest ih =>
      intro index seen success position instruction fetched
      have both : (match first.op with
          | .phi incoming => verifySsaPhi incoming block function sites dominators = .ok ()
          | _ => ∀ value ∈ first.args,
              verifySsaUse value block index sites dominators = .ok ()) ∧
          ∃ later, verifySsaInstructions function block sites dominators rest (index + 1) later =
            .ok () := by
        cases kind : first.op with
        | phi incoming =>
            simp only [verifySsaInstructions, kind, bind_eq_ok] at success
            obtain ⟨-, -, _, checked, done⟩ := success
            exact ⟨checked, _, done⟩
        | _ =>
            simp only [verifySsaInstructions, kind, bind_eq_ok, checkAll_eq_ok] at success
            obtain ⟨-, checked, done⟩ := success
            exact ⟨checked, _, done⟩
      obtain ⟨here, later, done⟩ := both
      cases position with
      | zero =>
          rw [List.getElem?_cons_zero, Option.some.injEq] at fetched
          subst fetched
          exact here
      | succ position =>
          rw [List.getElem?_cons_succ] at fetched
          have next := ih (index + 1) later done position instruction fetched
          rw [show index + (position + 1) = index + 1 + position by omega]
          exact next

/-- In an accepted function, definitions dominate their uses. -/
theorem verifySsaFunction_verified {signatures : Signatures} {pointerBits : Nat}
    (accepted : verifySsaFunction function signatures pointerBits = .ok ()) :
    function.graph.Verified := by
  simp only [verifySsaFunction, bind_eq_ok] at accepted
  obtain ⟨_, _, _, shaped, _, _, dominance⟩ := accepted
  obtain ⟨ids, structured⟩ := verifySsaStructure_structured shaped
  simp only [verifySsaDominance, bind_eq_ok, checkAll_eq_ok] at dominance
  obtain ⟨dominators, computed, each⟩ := dominance
  have checked {block : Nat} {owner : SsaBlock} (found : function.findBlock block = some owner) :
      verifySsaInstructions function block (definitionSites function) dominators
          owner.instructions 0 false = .ok () ∧
        ∀ value ∈ owner.terminatorArgs, verifySsaUse value block owner.instructions.length
          (definitionSites function) dominators = .ok () := by
    obtain ⟨inside, rfl⟩ := findBlock_mem found
    obtain ⟨_, first, second⟩ := each owner inside
    exact ⟨first, second⟩
  refine ⟨fun _ _ => structured.names.site_unique, ?_, ?_, ?_⟩
  · intro block position item operands _ fetched plain value member
    obtain ⟨owner, instruction, found, here, rfl⟩ := graph_item fetched
    have uses := verifySsaInstructions_each _ _ _ (checked found).1 position instruction here
    unfold SsaInstruction.item at plain
    cases kind : instruction.op with
    | phi incoming => simp only [kind, reduceCtorEq] at plain
    | _ =>
        simp only [kind, Nat.zero_add, Reads.plain.injEq] at plain uses
        subst plain
        exact verifySsaUse_defined structured computed (uses value member)
  · intro block position predecessor item inputs _ edge fetched isPhi
    obtain ⟨owner, instruction, found, here, rfl⟩ := graph_item fetched
    have uses := verifySsaInstructions_each _ _ _ (checked found).1 position instruction here
    unfold SsaInstruction.item at isPhi
    cases kind : instruction.op with
    | phi incoming =>
        simp only [kind, Reads.phi.injEq] at isPhi uses
        subst isPhi
        exact verifySsaPhi_defined structured computed uses edge
    | _ => simp only [kind, reduceCtorEq] at isPhi
  · intro block _ value member
    cases found : function.findBlock block with
    | none => simp [SsaFunction.graph, found] at member
    | some owner =>
        rw [graph_items found, List.length_map]
        simp only [SsaFunction.graph, found, Option.map_some, Option.getD_some] at member
        exact verifySsaUse_defined structured computed ((checked found).2 value member)

/-- In an accepted SSA function, every run along every choice of edges reads only values that it
has assigned before, with their declared types, exactly when the entry block has no phi. -/
theorem verifySsaFunction_safe_iff {signatures : Signatures} {pointerBits : Nat}
    (accepted : verifySsaFunction function signatures pointerBits = .ok ()) :
    function.ExecutionSafe ↔ ¬function.EntryPhi := by
  unfold SsaFunction.ExecutionSafe
  rw [(verifySsaFunction_verified accepted).safe_iff]
  constructor
  · rintro noPhi ⟨block, found, instruction, member, isPhi⟩
    cases kind : instruction.op with
    | phi incoming =>
        refine noPhi instruction.item ?_ incoming (by simp only [SsaInstruction.item, kind])
        rw [show function.graph.entry = function.entry from rfl, graph_items found]
        exact List.mem_map_of_mem member
    | _ => simp [SsaInstruction.isPhi, kind] at isPhi
  · intro noPhi item member inputs isPhi
    obtain ⟨position, fetched⟩ := List.getElem?_of_mem member
    obtain ⟨block, instruction, found, here, rfl⟩ := graph_item fetched
    refine noPhi ⟨block, found, instruction, List.mem_of_getElem? here, ?_⟩
    unfold SsaInstruction.item at isPhi
    unfold SsaInstruction.isPhi
    cases kind : instruction.op with
    | phi incoming => rfl
    | _ => simp only [kind, reduceCtorEq] at isPhi

end Accepted

/-- An entry block that loops to itself, with a phi that has an input for the loop edge only. -/
def entryLoop : SsaFunction where
  name := "entry-loop"
  signature := { name := "entry-loop", arguments := [], result := .u64 }
  blocks :=
    [{ id := 0
       instructions :=
        [{ id := 0, op := .phi [(0, 1)], type := .u64 },
          { id := 1, op := .binary .wrapAdd .u64, type := .u64, args := [0, 0] }]
       terminator := some { op := .jump, targets := [0] } }]
  entry := 0
  nextValue := 2

/-- The verifier accepts a function whose first instruction reads a value of no edge. -/
theorem entryLoop_unsafe : verifySsaFunction entryLoop (fun _ => none) 64 = .ok () ∧
    ¬entryLoop.ExecutionSafe := by
  refine ⟨by rfl, fun safe => ?_⟩
  obtain ⟨predecessor, -, entered, -⟩ :=
    (safe entryLoop.graph.start .refl).phi ⟨0, .u64, .phi [(0, 1)]⟩ [(0, 1)] rfl rfl
  cases entered

/-- The same loop, entered from a block of its own. -/
def innerLoop : SsaFunction where
  name := "inner-loop"
  signature := { name := "inner-loop", arguments := [], result := .u64 }
  blocks :=
    [{ id := 0
       instructions := [{ id := 2, op := .constant (.integer 1), type := .u64 }]
       terminator := some { op := .jump, targets := [1] } },
     { id := 1
       instructions :=
        [{ id := 0, op := .phi [(0, 2), (1, 1)], type := .u64 },
          { id := 1, op := .binary .wrapAdd .u64, type := .u64, args := [0, 0] }]
       terminator := some { op := .jump, targets := [1] } }]
  entry := 0
  nextValue := 3

theorem innerLoop_safe : ¬innerLoop.EntryPhi ∧ innerLoop.ExecutionSafe := by
  have noPhi : ¬innerLoop.EntryPhi := by
    rintro ⟨block, found, instruction, member, isPhi⟩
    cases found
    rw [List.mem_singleton.mp member] at isPhi
    cases isPhi
  have accepted : verifySsaFunction innerLoop (fun _ => none) 64 = .ok () := by rfl
  exact ⟨noPhi, (verifySsaFunction_safe_iff accepted).mpr noPhi⟩

end Stage0
