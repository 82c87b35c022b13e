import PslCompiler.Machines.Words

/-! # Words one behind the other

A piece of code is a list of numbers, each with its size in bytes. Such a list determines each of its
bytes, wherever it stands.
-/

namespace Buffers

open Machines

/-- Some numbers stand one behind the other from an address on. -/
def Pieces (memory : Memory) (address : Nat) : List (Nat × Nat) → Prop
  | [] => True
  | piece :: rest =>
      loadWord memory address piece.2 = piece.1 ∧ Pieces memory (address + piece.2) rest

def piecesSize : List (Nat × Nat) → Nat
  | [] => 0
  | piece :: rest => piece.2 + piecesSize rest

/-- The byte of a list of numbers at an offset. -/
def pieceByte : List (Nat × Nat) → Nat → Nat
  | [], _ => 0
  | piece :: rest, offset =>
      if offset < piece.2 then piece.1 / 256 ^ offset % 256 else pieceByte rest (offset - piece.2)

@[simp] theorem pieces_nil {memory : Memory} {address : Nat} : Pieces memory address [] :=
  trivial

theorem pieces_cons {memory : Memory} {address number size : Nat} {rest : List (Nat × Nat)} :
    Pieces memory address ((number, size) :: rest) ↔
      loadWord memory address size = number ∧ Pieces memory (address + size) rest :=
  Iff.rfl

section Pieces

variable {memory other : Memory} {pieces : List (Nat × Nat)}

theorem Pieces.congr {address place : Nat}
    (same : ∀ offset, offset < piecesSize pieces →
      memory (address + offset) = other (place + offset))
    (stands : Pieces other place pieces) : Pieces memory address pieces := by
  induction pieces generalizing address place with
  | nil => trivial
  | cons piece rest ih =>
      change ∀ offset, offset < piece.2 + piecesSize rest → _ at same
      obtain ⟨word, behind⟩ := stands
      refine ⟨?_, @ih (address + piece.2) (place + piece.2) ?_ behind⟩
      · rw [← word]
        exact loadWord_congr fun offset inside => same offset (by omega)
      · intro offset inside
        rw [Nat.add_assoc, Nat.add_assoc]
        exact same (piece.2 + offset) (by omega)

theorem Pieces.byte {address offset : Nat} (stands : Pieces memory address pieces)
    (inside : offset < piecesSize pieces) :
    (memory (address + offset)).toNat = pieceByte pieces offset := by
  induction pieces generalizing address offset with
  | nil => exact absurd inside (Nat.not_lt_zero _)
  | cons piece rest ih =>
      change offset < piece.2 + piecesSize rest at inside
      obtain ⟨word, behind⟩ := stands
      rw [pieceByte]
      by_cases first : offset < piece.2
      · rw [if_pos first, byte_of_loadWord first, word]
      · rw [if_neg first, ← ih behind (by omega), Nat.add_assoc, Nat.add_sub_cancel' (by omega)]

/-- The first of the numbers. -/
theorem Pieces.left {others : List (Nat × Nat)} {address : Nat}
    (stands : Pieces memory address (pieces ++ others)) : Pieces memory address pieces := by
  induction pieces generalizing address with
  | nil => trivial
  | cons piece rest ih => exact ⟨stands.1, ih stands.2⟩

/-- The numbers behind some others. -/
theorem Pieces.right {others : List (Nat × Nat)} {address : Nat}
    (stands : Pieces memory address (pieces ++ others)) :
    Pieces memory (address + piecesSize pieces) others := by
  induction pieces generalizing address with
  | nil => exact stands
  | cons piece rest ih =>
      rw [piecesSize, ← Nat.add_assoc]
      exact ih stands.2

/-- Where the first byte of a list of numbers occurs nowhere else in it, two places at which the
numbers stand do not overlap. -/
theorem Pieces.apart {address place : Nat} (stands : Pieces memory address pieces)
    (also : Pieces memory place pieces) (before : address < place)
    (marked : ∀ offset, 0 < offset → offset < piecesSize pieces →
      pieceByte pieces offset ≠ pieceByte pieces 0) :
    address + piecesSize pieces ≤ place := by
  by_contra overlap
  obtain ⟨shift, rfl⟩ : ∃ shift, place = address + shift := ⟨place - address, by omega⟩
  have here := stands.byte (show shift < piecesSize pieces by omega)
  have there := also.byte (show 0 < piecesSize pieces by omega)
  exact marked shift (by omega) (by omega) (here.symm.trans there)

end Pieces

end Buffers
