import PslCompiler.Flow.Availability

/-! # Rewriting programs block by block

Two programs behave the same when a link between their stores at the start of each block is kept by
every block.
-/

namespace Flow

variable {Op Value World : Type}

/-- Two machines are at the same block with linked stores, or have both come to rest alike. -/
inductive Matched (link : Nat → Store Op Value World → Store Op Value World → Prop) :
    MachineState Op Value World → MachineState Op Value World → Prop
  | block {block : Nat} {first second : Store Op Value World} (linked : link block first second) :
      Matched link (.goto block first) (.goto block second)
  | returned {value : Option Value} {first second : Store Op Value World}
      (same : first.surroundings = second.surroundings) :
      Matched link ⟨.returned value, first⟩ ⟨.returned value, second⟩
  | stopped {first second : Store Op Value World}
      (same : first.surroundings = second.surroundings) :
      Matched link ⟨.stopped, first⟩ ⟨.stopped, second⟩

section Rewriting

variable {meaning : Interpretation Op Value World} {first second : SsaProgram Op}
variable {link : Nat → Store Op Value World → Store Op Value World → Prop}

theorem Matched.finish {value : Option Nat} {left right : Store Op Value World}
    (agree : ∀ register, value = some register →
      left.registers register = right.registers register)
    (same : left.surroundings = right.surroundings) :
    Matched link (MachineState.finish value left) (MachineState.finish value right) := by
  cases value with
  | none => exact .returned same
  | some register =>
      simp only [MachineState.finish, agree register rfl]
      split
      · exact .returned same
      · exact .stopped same

/-- Blocks with the same exit leave to linked stores. -/
theorem Matched.leave {block : Nat} {left right : Store Op Value World}
    (exits : first.exit block = second.exit block)
    (agree : ∀ register ∈ (first.exit block).reads,
      left.registers register = right.registers register)
    (same : left.surroundings = right.surroundings)
    (enters : ∀ target ∈ (first.exit block).targets, link target
      ⟨enterPhis (first.phis target) block left.registers, left.surroundings⟩
      ⟨enterPhis (second.phis target) block right.registers, right.surroundings⟩) :
    Matched link (first.leave meaning block left) (second.leave meaning block right) := by
  unfold SsaProgram.leave
  rw [← exits]
  generalize first.exit block = exit at agree enters
  cases exit with
  | ret value =>
      refine .finish (fun register returned => agree register ?_) same
      rw [returned]
      exact List.mem_cons_self
  | jump target => exact .block (enters target List.mem_cons_self)
  | branch condition ifTrue ifFalse =>
      simp only [← agree condition List.mem_cons_self]
      split
      · rename_i value _
        refine .block (enters _ ?_)
        split
        · exact List.mem_cons_self
        · exact List.mem_cons_of_mem _ List.mem_cons_self
      · exact .stopped same
  | none => exact .stopped same

/-- A link that every block keeps makes two programs behave the same. -/
theorem sameBehaviour_of_link
    (alike : ∀ {block : Nat} {left right : Store Op Value World}, link block left right →
      left.surroundings = right.surroundings)
    (keeps : ∀ {block : Nat} {left right : Store Op Value World}, link block left right →
      Matched link (first.step meaning (.goto block left)) (second.step meaning (.goto block right)))
    {start partner : MachineState Op Value World} (initial : Matched link start partner) :
    SameBehaviour ((first.machine meaning).run start) ((second.machine meaning).run partner) := by
  refine Machine.sameBehaviour_of_simulation (fun matched => ?_) (fun matched => ?_) initial
  · cases matched with
    | block linked =>
        change (_, _) = (_, _)
        rw [MachineState.goto, MachineState.goto, alike linked]
    | returned same =>
        change (_, _) = (_, _)
        rw [same]
    | stopped same =>
        change (_, _) = (_, _)
        rw [same]
  · refine ⟨1, 1, Nat.one_pos, Nat.one_pos, ?_⟩
    cases matched with
    | block linked => exact keeps linked
    | returned same => exact .returned same
    | stopped same => exact .stopped same

end Rewriting

end Flow
