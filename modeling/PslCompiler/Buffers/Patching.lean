import PslCompiler.Machines.Words

/-! # Patching places one after the other

A loop checks and rewrites places of a memory. Where the places are apart and each check and rewrite
looks at its own place only, all of them can be read off the memory before the loop
(`patchEach_accepts`, `patchEach_inside`, `patchEach_outside`).
-/

namespace Buffers

open Machines

/-- Rewrite some places from an index on, as long as each is accepted. -/
def patchEach (accepts : Nat → Memory → Bool) (write : Nat → Memory → Memory) :
    Nat → Nat → Memory → Bool × Memory
  | 0, _, memory => (true, memory)
  | remaining + 1, index, memory =>
      if accepts index memory then patchEach accepts write remaining (index + 1) (write index memory)
      else (false, memory)

/-- The places are apart, and each is checked and rewritten by itself. -/
structure Separate (accepts : Nat → Memory → Bool) (write : Nat → Memory → Memory)
    (place : Nat → Nat → Prop) (count : Nat) : Prop where
  accepts_congr : ∀ index, index < count → ∀ {memory other : Memory},
    (∀ address, place index address → memory address = other address) →
    accepts index memory = accepts index other
  write_congr : ∀ index, index < count → ∀ {memory other : Memory},
    (∀ address, place index address → memory address = other address) →
    ∀ address, place index address → write index memory address = write index other address
  write_outside : ∀ index, index < count → ∀ (memory : Memory) (address : Nat),
    ¬place index address → write index memory address = memory address
  apart : ∀ index other, index < count → other < count → index ≠ other →
    ∀ address, place index address → ¬place other address

section Run

variable {accepts : Nat → Memory → Bool} {write : Nat → Memory → Memory} {place : Nat → Nat → Prop}
  {count : Nat}

/-- Rewriting one place leaves the others alone. -/
theorem Separate.write_other (separate : Separate accepts write place count) {index other : Nat}
    (inside : index < count) (otherInside : other < count) (different : index ≠ other)
    (memory : Memory) : ∀ address, place other address →
      write index memory address = memory address := by
  intro address at_
  refine separate.write_outside index inside memory address ?_
  exact fun here => separate.apart index other inside otherInside different address here at_

/-- The loop goes through exactly when the memory before it is accepted at every place. -/
theorem patchEach_accepts (separate : Separate accepts write place count) :
    ∀ {remaining index : Nat}, index + remaining ≤ count → ∀ memory : Memory,
      ((patchEach accepts write remaining index memory).1 = true ↔
        ∀ other, index ≤ other → other < index + remaining → accepts other memory = true) := by
  intro remaining
  induction remaining with
  | zero => exact fun _ _ => ⟨fun _ other after before => absurd before (Nat.not_lt.mpr after),
      fun _ => rfl⟩
  | succ remaining ih =>
      intro index within memory
      rw [patchEach]
      by_cases accepted : accepts index memory = true
      · rw [if_pos accepted, ih (by omega)]
        have same (other : Nat) (after : index + 1 ≤ other) (before : other < count) :
            accepts other (write index memory) = accepts other memory :=
          separate.accepts_congr other before
            (separate.write_other (by omega) before (by omega) memory)
        constructor
        · intro all other after before
          by_cases first : other = index
          · exact first ▸ accepted
          · rw [← same other (by omega) (by omega)]
            exact all other (by omega) (by omega)
        · intro all other after before
          rw [same other after (by omega)]
          exact all other (by omega) (by omega)
      · rw [if_neg accepted]
        exact ⟨fun impossible => Bool.noConfusion impossible,
          fun all => absurd (all index (Nat.le_refl _) (by omega)) accepted⟩

theorem patchEach_outside (separate : Separate accepts write place count) {address : Nat} :
    ∀ {remaining index : Nat}, index + remaining ≤ count → ∀ memory : Memory,
      (∀ other, index ≤ other → other < index + remaining → ¬place other address) →
      (patchEach accepts write remaining index memory).2 address = memory address := by
  intro remaining
  induction remaining with
  | zero => exact fun _ _ _ => rfl
  | succ remaining ih =>
      intro index within memory outside
      rw [patchEach]
      split
      · have kept := separate.write_outside index (by omega) memory address
          (outside index (Nat.le_refl _) (by omega))
        rw [← kept]
        exact ih (by omega) _ fun other after before => outside other (by omega) (by omega)
      · rfl

/-- After a loop that goes through, each place holds what rewriting it alone makes of it. -/
theorem patchEach_inside (separate : Separate accepts write place count) :
    ∀ {remaining index : Nat}, index + remaining ≤ count → ∀ memory : Memory,
      (patchEach accepts write remaining index memory).1 = true →
      ∀ other, index ≤ other → other < index + remaining → ∀ address, place other address →
        (patchEach accepts write remaining index memory).2 address = write other memory address := by
  intro remaining
  induction remaining with
  | zero => exact fun _ _ _ other after before => absurd before (Nat.not_lt.mpr after)
  | succ remaining ih =>
      intro index within memory passed other after before address here
      rw [patchEach] at passed ⊢
      split at passed
      · rename_i accepted
        rw [if_pos accepted]
        by_cases first : other = index
        · subst first
          exact patchEach_outside separate (by omega) _ fun later _ _ =>
            separate.apart other later (by omega) (by omega) (by omega) address here
        · rw [ih (by omega) _ passed other (by omega) (by omega) address here]
          exact separate.write_congr other (by omega)
            (separate.write_other (by omega) (by omega) (fun same => first same.symm) memory) address here
      · exact Bool.noConfusion passed

end Run

end Buffers
