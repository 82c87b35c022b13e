import Mathlib.Algebra.BigOperators.Group.Finset.Basic
import Mathlib.Tactic

/-! # Positional numbers

The number that digits stand for, with the lowest digit first. Arithmetic goes through the digits
from the lowest one and carries; comparison goes from the highest one.
-/

namespace Numbers

open Finset

variable {base : Nat} {digit other : Nat → Nat}

/-- The number that the first digits stand for. -/
def positional (base : Nat) (digit : Nat → Nat) (count : Nat) : Nat :=
  ∑ index ∈ range count, digit index * base ^ index

@[simp]
theorem positional_zero (base : Nat) (digit : Nat → Nat) : positional base digit 0 = 0 := rfl

theorem positional_succ (base : Nat) (digit : Nat → Nat) (count : Nat) :
    positional base digit (count + 1) = positional base digit count + digit count * base ^ count :=
  sum_range_succ _ _

theorem positional_congr {count : Nat} (same : ∀ index < count, digit index = other index) :
    positional base digit count = positional base other count :=
  sum_congr rfl fun index member => by rw [same index (mem_range.mp member)]

theorem positional_lt (small : ∀ index, digit index < base) :
    ∀ count, positional base digit count < base ^ count := by
  intro count
  induction count with
  | zero => exact Nat.one_pos
  | succ count ih =>
      have top : (digit count + 1) * base ^ count ≤ base * base ^ count :=
        Nat.mul_le_mul_right _ (small count)
      rw [positional_succ, pow_succ']
      rw [Nat.add_mul, one_mul] at top
      omega

/-- A number without leading zeros is not below the weight of its highest digit. -/
theorem le_positional {count : Nat} (leading : digit count ≠ 0) :
    base ^ count ≤ positional base digit (count + 1) := by
  rw [positional_succ]
  exact (Nat.le_mul_of_pos_left _ (Nat.pos_of_ne_zero leading)).trans (Nat.le_add_left _ _)

/-- The highest digit that differs decides. -/
theorem positional_lt_of_top (small : ∀ index, digit index < base) {count : Nat}
    (less : digit count < other count) :
    positional base digit (count + 1) < positional base other (count + 1) := by
  have low := positional_lt small count
  have top : (digit count + 1) * base ^ count ≤ other count * base ^ count :=
    Nat.mul_le_mul_right _ less
  rw [positional_succ, positional_succ]
  rw [Nat.add_mul, one_mul] at top
  omega

/-- One digit of a product with a carry: what is below and the carry stand for the product so far. -/
theorem carry_digit {low target carry next : Nat} (count : Nat)
    (before : low + carry * base ^ count = target) :
    low + (next + carry) % base * base ^ count + (next + carry) / base * base ^ (count + 1) =
      target + next * base ^ count := by
  have split := Nat.mod_add_div (next + carry) base
  calc low + (next + carry) % base * base ^ count + (next + carry) / base * base ^ (count + 1)
      = low + ((next + carry) % base + base * ((next + carry) / base)) * base ^ count := by
        rw [pow_succ]
        ring
    _ = target + next * base ^ count := by
        rw [split, ← before]
        ring

end Numbers
