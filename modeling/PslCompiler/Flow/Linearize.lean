import PslCompiler.Flow.FlatMachine

/-! # From basic blocks to flat code

Flat code implements an SSA program when every block stands behind its label, without its dead
assignments, and leaves along edges that copy the inputs of the live phis of their target. Such
code behaves like the program.
-/

namespace Flow

variable {Op Value World : Type}

section Linearize

variable (live : Nat → Bool) (program : SsaProgram Op) (code : List (Flat Op))
variable (valid : Nat → Prop)

/-- The code of an edge: copies for the live phis of the target, and a jump there. -/
structure EdgeCode (pc source target : Nat) (copies : List (Nat × Nat)) : Prop where
  stands : ∃ rest, Flat.Segment code pc
    ((copies.map fun pair => Flat.copy pair.1 pair.2) ++ .jump target :: rest)
  independent : Flat.Independent copies
  phis : ∀ register, live register = true → ∀ incoming,
    (program.phis target).lookup register = some incoming →
    ∃ input, incoming.lookup source = some input ∧ copies.lookup register = some input ∧
      live input = true
  others : ∀ register, live register = true → (program.phis target).lookup register = none →
    copies.lookup register = none
  target_valid : valid target

/-- A label at a position, followed by the code of an edge. -/
def LabelledEdge (label source target : Nat) : Prop :=
  ∃ pc copies rest, Flat.position code label = some pc ∧
    Flat.Segment code pc (.label label :: rest) ∧
    EdgeCode live program code valid (pc + 1) source target copies

/-- The code by which control leaves a block. -/
inductive ExitCode (pc source : Nat) : Exit → Prop
  | ret {value : Option Nat} {rest : List (Flat Op)}
      (stands : Flat.Segment code pc (.ret value :: rest))
      (used : ∀ register, value = some register → live register = true) :
      ExitCode pc source (.ret value)
  | jump {target : Nat} {copies : List (Nat × Nat)}
      (edge : EdgeCode live program code valid pc source target copies) :
      ExitCode pc source (.jump target)
  | branch {condition ifTrue ifFalse left right : Nat} {rest : List (Flat Op)}
      (stands : Flat.Segment code pc (.branch condition left right :: rest))
      (used : live condition = true) (first : LabelledEdge live program code valid left source ifTrue)
      (second : LabelledEdge live program code valid right source ifFalse) :
      ExitCode pc source (.branch condition ifTrue ifFalse)
  | branchZero {condition ifTrue ifFalse label : Nat} {copies : List (Nat × Nat)}
      {rest : List (Flat Op)}
      (stands : Flat.Segment code pc (.branchZero condition label :: rest))
      (used : live condition = true)
      (first : EdgeCode live program code valid (pc + 1) source ifTrue copies)
      (second : LabelledEdge live program code valid label source ifFalse) :
      ExitCode pc source (.branch condition ifTrue ifFalse)

/-- The assignments of a block whose values are live. -/
def SsaProgram.liveBody (block : Nat) : List (Assignment Op) :=
  (program.body block).filter fun assignment => live assignment.dst

/-- Flat code implements a program on its valid blocks. -/
structure Linearized : Prop where
  entry_valid : valid program.entry
  entry : Flat.position code program.entry = some 0
  closed : ∀ block, valid block → ∀ assignment ∈ program.body block, assignment.Closed live
  blocks : ∀ block, valid block → ∃ pc rest, Flat.position code block = some pc ∧
    Flat.Segment code pc
      (.label block :: ((program.liveBody live block).map Flat.assign ++ rest)) ∧
    ExitCode live program code valid (pc + 1 + (program.liveBody live block).length) block
      (program.exit block)

end Linearize

/-! ## The simulation -/

/-- A state of an SSA program and a state of its flat code. -/
inductive Linked (live : Nat → Bool) (code : List (Flat Op)) (valid : Nat → Prop) :
    MachineState Op Value World → MachineState Op Value World → Prop
  | block {block pc : Nat} {first second : Store Op Value World} (isValid : valid block)
      (found : Flat.position code block = some pc)
      (agree : AgreeOn live first.registers second.registers)
      (same : first.surroundings = second.surroundings) :
      Linked live code valid (.goto block first) (.goto pc second)
  | returned {value : Option Value} {first second : Store Op Value World}
      (same : first.surroundings = second.surroundings) :
      Linked live code valid ⟨.returned value, first⟩ ⟨.returned value, second⟩
  | stopped {first second : Store Op Value World}
      (same : first.surroundings = second.surroundings) :
      Linked live code valid ⟨.stopped, first⟩ ⟨.stopped, second⟩

section Simulation

variable {live : Nat → Bool} {program : SsaProgram Op} {code : List (Flat Op)}
variable {valid : Nat → Prop} (meaning : Interpretation Op Value World)

theorem Linked.alike {first second : MachineState Op Value World}
    (linked : Linked live code valid first second) : first.observe = second.observe := by
  cases linked with
  | block _ _ _ same => simp only [MachineState.observe, MachineState.goto, same]
  | returned same => simp only [MachineState.observe, same]
  | stopped same => simp only [MachineState.observe, same]

theorem Linked.finish {value : Option Nat} {first second : Store Op Value World}
    (agree : AgreeOn live first.registers second.registers)
    (same : first.surroundings = second.surroundings)
    (used : ∀ register, value = some register → live register = true) :
    Linked live code valid (MachineState.finish value first) (MachineState.finish value second) := by
  cases value with
  | none => exact .returned same
  | some register =>
      simp only [MachineState.finish, agree register (used register rfl)]
      split
      · exact .returned same
      · exact .stopped (by rw [same])

/-- The copies of an edge assign the live registers as entering its target does. -/
theorem EdgeCode.copies_eq {pc source target : Nat} {copies : List (Nat × Nat)}
    (edge : EdgeCode live program code valid pc source target copies)
    (registers : Nat → Option Value) {register : Nat} (used : live register = true) :
    Flat.copyAll copies registers register =
      enterPhis (program.phis target) source registers register := by
  rw [Flat.copyAll_of_independent copies _ edge.independent]
  unfold enterPhis
  cases looked : (program.phis target).lookup register with
  | none => rw [edge.others register used looked]
  | some incoming =>
      obtain ⟨input, given, copied, -⟩ := edge.phis register used incoming looked
      rw [copied]
      simp only [given, Option.bind_some]

/-- Entering a block reads live registers only. -/
theorem EdgeCode.entered_agree {pc source target : Nat} {copies : List (Nat × Nat)}
    (edge : EdgeCode live program code valid pc source target copies)
    {first second : Nat → Option Value} (agree : AgreeOn live first second) :
    AgreeOn live (enterPhis (program.phis target) source first)
      (enterPhis (program.phis target) source second) := by
  intro register used
  unfold enterPhis
  cases looked : (program.phis target).lookup register with
  | none => exact agree register used
  | some incoming =>
      obtain ⟨input, given, -, inputUsed⟩ := edge.phis register used incoming looked
      simp only [given, Option.bind_some]
      exact agree input inputUsed

/-- The code of an edge enters its target. -/
theorem EdgeCode.enters {pc source target : Nat} {copies : List (Nat × Nat)}
    (edge : EdgeCode live program code valid pc source target copies)
    {position : Nat} (found : Flat.position code target = some position)
    {first second : Store Op Value World} (agree : AgreeOn live first.registers second.registers)
    (same : first.surroundings = second.surroundings) :
    ∃ steps, 0 < steps ∧ Linked live code valid (program.enter source target first)
      ((Flat.step meaning code)^[steps] (.goto pc second)) := by
  obtain ⟨rest, stands⟩ := edge.stands
  have copied := Flat.run_copies meaning copies second stands
  have after := stands.drop
  rw [List.length_map] at after
  refine ⟨copies.length + 1, Nat.succ_pos _, ?_⟩
  rw [Function.iterate_succ_apply', copied, Flat.step_at after]
  simp only [Flat.execute, Flat.transfer, found]
  refine .block edge.target_valid found ?_ same
  intro register used
  have copies := edge.copies_eq second.registers used
  exact (edge.entered_agree agree register used).trans copies.symm

theorem LabelledEdge.enters {label source target : Nat}
    (edge : LabelledEdge live program code valid label source target)
    (positions : ∀ block, valid block → ∃ position, Flat.position code block = some position)
    {first second : Store Op Value World} (agree : AgreeOn live first.registers second.registers)
    (same : first.surroundings = second.surroundings) :
    ∃ steps, 0 < steps ∧ Linked live code valid (program.enter source target first)
      ((Flat.step meaning code)^[steps] (Flat.transfer code label second)) := by
  obtain ⟨pc, copies, rest, found, stands, edge⟩ := edge
  obtain ⟨position, targetFound⟩ := positions target edge.target_valid
  obtain ⟨steps, -, linked⟩ := edge.enters meaning targetFound agree same
  refine ⟨steps + 1, Nat.succ_pos _, ?_⟩
  rw [Function.iterate_succ_apply]
  simp only [Flat.transfer, found, Flat.step_at stands, Flat.execute]
  exact linked

/-- The exit code of a block does what leaving the block does. -/
theorem ExitCode.leaves {pc source : Nat}
    (exits : ExitCode live program code valid pc source (program.exit source))
    (positions : ∀ block, valid block → ∃ position, Flat.position code block = some position)
    {first second : Store Op Value World} (agree : AgreeOn live first.registers second.registers)
    (same : first.surroundings = second.surroundings) :
    ∃ steps, 0 < steps ∧ Linked live code valid (program.leave meaning source first)
      ((Flat.step meaning code)^[steps] (.goto pc second)) := by
  unfold SsaProgram.leave
  generalize program.exit source = exit at exits
  cases exits with
  | ret stands used =>
      refine ⟨1, Nat.one_pos, ?_⟩
      rw [Function.iterate_one, Flat.step_at stands]
      exact Linked.finish agree same used
  | jump edge =>
      obtain ⟨position, found⟩ := positions _ edge.target_valid
      exact edge.enters meaning found agree same
  | @branch condition ifTrue ifFalse left right rest stands used one two =>
      have moved := @Flat.step_at _ _ _ meaning _ _ second _ _ stands
      simp only [Flat.execute, ← agree condition used] at moved
      cases value : first.registers condition with
      | none =>
          rw [value] at moved
          refine ⟨1, Nat.one_pos, ?_⟩
          rw [Function.iterate_one, moved]
          simp only [value]
          exact .stopped same
      | some value' =>
          rw [value] at moved
          have edge : ∃ steps, 0 < steps ∧ Linked live code valid
              (program.enter source (if meaning.truth value' then ifTrue else ifFalse) first)
              ((Flat.step meaning code)^[steps]
                (Flat.transfer code (if meaning.truth value' then left else right) second)) := by
            split
            · exact one.enters meaning positions agree same
            · exact two.enters meaning positions agree same
          obtain ⟨steps, -, linked⟩ := edge
          refine ⟨steps + 1, Nat.succ_pos _, ?_⟩
          rw [Function.iterate_succ_apply, moved]
          simp only [value]
          exact linked
  | @branchZero condition ifTrue ifFalse label copies rest stands used one two =>
      have moved := @Flat.step_at _ _ _ meaning _ _ second _ _ stands
      simp only [Flat.execute, ← agree condition used] at moved
      cases value : first.registers condition with
      | none =>
          rw [value] at moved
          refine ⟨1, Nat.one_pos, ?_⟩
          rw [Function.iterate_one, moved]
          simp only [value]
          exact .stopped same
      | some value' =>
          rw [value] at moved
          have edge : ∃ steps, 0 < steps ∧ Linked live code valid
              (program.enter source (if meaning.truth value' then ifTrue else ifFalse) first)
              ((Flat.step meaning code)^[steps] (if meaning.truth value' then .goto (pc + 1) second
                else Flat.transfer code label second)) := by
            split
            · obtain ⟨position, found⟩ := positions _ one.target_valid
              exact one.enters meaning found agree same
            · exact two.enters meaning positions agree same
          obtain ⟨steps, -, linked⟩ := edge
          refine ⟨steps + 1, Nat.succ_pos _, ?_⟩
          rw [Function.iterate_succ_apply, moved]
          simp only [value]
          exact linked

/-- One step of the program is matched by some steps of the code. -/
theorem Linearized.advance (linearized : Linearized live program code valid)
    {first second : MachineState Op Value World} (linked : Linked live code valid first second) :
    ∃ moves, 0 < moves ∧ Linked live code valid (program.step meaning first)
      ((Flat.step meaning code)^[moves] second) := by
  have positions : ∀ block, valid block → ∃ position, Flat.position code block = some position := by
    intro block isValid
    obtain ⟨pc, -, found, -⟩ := linearized.blocks block isValid
    exact ⟨pc, found⟩
  cases linked with
  | @block block pc first second isValid found agree same =>
      obtain ⟨pc', rest, found', stands, exits⟩ := linearized.blocks block isValid
      rw [found] at found'
      cases found'
      have entered : Flat.step meaning code (.goto pc second) = .goto (pc + 1) second :=
        Flat.step_at stands
      have executed := Flat.run_assignments meaning (program.liveBody live block) second stands.tail
      have matching := Assignment.runAll_filter meaning (program.body block)
        (linearized.closed block isValid) first second agree same
      simp only [SsaProgram.step, MachineState.goto]
      unfold SsaProgram.liveBody at executed exits
      cases outcome : Assignment.runAll meaning (program.body block) first with
      | running after =>
          cases other : Assignment.runAll meaning
              ((program.body block).filter fun assignment => live assignment.dst) second with
          | running after' =>
              rw [outcome, other] at matching
              simp only [other] at executed
              obtain ⟨steps, positive, linked⟩ :=
                exits.leaves meaning positions matching.1 matching.2
              refine ⟨steps + (((program.body block).filter fun assignment =>
                live assignment.dst).length + 1), by omega, ?_⟩
              rw [Function.iterate_add_apply, Function.iterate_succ_apply]
              change Linked live code valid _ ((Flat.step meaning code)^[steps]
                ((Flat.step meaning code)^[_] (Flat.step meaning code (.goto pc second))))
              rw [entered, executed]
              exact linked
          | stopped surroundings =>
              rw [outcome, other] at matching
              exact matching.elim
      | stopped surroundings =>
          cases other : Assignment.runAll meaning
              ((program.body block).filter fun assignment => live assignment.dst) second with
          | running after' =>
              rw [outcome, other] at matching
              exact matching.elim
          | stopped surroundings' =>
              rw [outcome, other] at matching
              simp only [other] at executed
              obtain ⟨steps, -, ends⟩ := executed
              refine ⟨steps + 1, Nat.succ_pos _, ?_⟩
              rw [Function.iterate_succ_apply]
              change Linked live code valid _ ((Flat.step meaning code)^[steps]
                (Flat.step meaning code (.goto pc second)))
              rw [entered, ends]
              exact .stopped matching
  | returned same => exact ⟨1, Nat.one_pos, .returned same⟩
  | stopped same => exact ⟨1, Nat.one_pos, .stopped same⟩

/-- Flat code that implements a program behaves like it. -/
theorem Linearized.sameBehaviour (linearized : Linearized live program code valid)
    (world : World) :
    SameBehaviour ((program.machine meaning).run (program.start world))
      ((Flat.machine meaning code).run (Flat.start world)) := by
  have initial : Linked live code valid (program.start world : MachineState Op Value World)
      (Flat.start world) :=
    .block linearized.entry_valid linearized.entry (fun _ _ => rfl) rfl
  refine Machine.sameBehaviour_of_simulation Linked.alike (fun linked => ?_) initial
  obtain ⟨moves, positive, after⟩ := linearized.advance meaning linked
  exact ⟨1, moves, Nat.one_pos, positive, after⟩

end Simulation

end Flow
