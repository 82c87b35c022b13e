import Mathlib.Tactic

/-! # Bytes and machine words

A memory of bytes with little-endian words in it, and the arithmetic of 64-bit words on natural
numbers.
-/

namespace Machines

/-- A memory: the byte at each address. -/
abbrev Memory := Nat → UInt8

/-- The number of 64-bit words. -/
def wordCount : Nat := 2 ^ 64

/-- The little-endian number in some bytes. -/
def loadWord (memory : Memory) (address : Nat) : Nat → Nat
  | 0 => 0
  | count + 1 => (memory address).toNat + 256 * loadWord memory (address + 1) count

/-- The memory after some bytes of a number are stored, the lowest first. -/
def storeWord (memory : Memory) (address value : Nat) : Nat → Memory
  | 0 => memory
  | count + 1 =>
      storeWord (Function.update memory address (UInt8.ofNat value)) (address + 1) (value / 256) count

section Bytes

variable {memory other : Memory}

theorem storeWord_outside {position : Nat} : ∀ {count address value : Nat},
    position < address ∨ address + count ≤ position →
      storeWord memory address value count position = memory position := by
  intro count
  induction count generalizing memory with
  | zero => exact fun _ => rfl
  | succ count ih =>
      intro address value outside
      rw [storeWord, ih (by omega), Function.update_of_ne (by omega)]

/-- A byte after a store depends on no other byte before it. -/
theorem storeWord_pointwise {position : Nat} : ∀ {count address value : Nat} {memory other : Memory},
    memory position = other position →
      storeWord memory address value count position = storeWord other address value count position := by
  intro count
  induction count with
  | zero => exact fun same => same
  | succ count ih =>
      intro address value memory other same
      refine ih ?_
      rw [Function.update_apply, Function.update_apply, same]

theorem loadWord_congr {address place : Nat} : ∀ {count : Nat},
    (∀ offset, offset < count → memory (address + offset) = other (place + offset)) →
      loadWord memory address count = loadWord other place count := by
  intro count
  induction count generalizing address place with
  | zero => exact fun _ => rfl
  | succ count ih =>
      intro same
      have rest : loadWord memory (address + 1) count = loadWord other (place + 1) count := by
        refine ih fun offset inside => ?_
        rw [Nat.add_assoc, Nat.add_assoc, Nat.add_comm 1 offset]
        exact same (offset + 1) (Nat.succ_lt_succ inside)
      rw [loadWord, loadWord, rest, show memory address = other place from same 0 (Nat.succ_pos _)]

/-- Only the low bytes of a number are stored. -/
theorem storeWord_low : ∀ {count address value : Nat} {memory : Memory},
    storeWord memory address (value % 256 ^ count) count = storeWord memory address value count := by
  intro count
  induction count with
  | zero => exact rfl
  | succ count ih =>
      intro address value memory
      have low : UInt8.ofNat (value % 256 ^ (count + 1)) = UInt8.ofNat value := by
        apply UInt8.toNat_inj.mp
        rw [UInt8.toNat_ofNat', UInt8.toNat_ofNat', Nat.pow_succ']
        exact Nat.mod_mul_right_mod value 256 (256 ^ count)
      have high : value % 256 ^ (count + 1) / 256 = value / 256 % 256 ^ count := by
        rw [Nat.pow_succ', Nat.mod_mul_right_div_self]
      rw [storeWord, storeWord, low, high, ih]

/-- What is stored is loaded again. -/
theorem loadWord_storeWord : ∀ {count address value : Nat},
    loadWord (storeWord memory address value count) address count = value % 256 ^ count := by
  intro count
  induction count generalizing memory with
  | zero =>
      intro address value
      rw [Nat.pow_zero, Nat.mod_one]
      rfl
  | succ count ih =>
      intro address value
      rw [storeWord, loadWord, ih, storeWord_outside (.inl (Nat.lt_succ_self _)),
        Function.update_self, UInt8.toNat_ofNat', @Nat.pow_succ' 256 count,
        @Nat.mod_mul 256 (256 ^ count) value]

/-- What is stored elsewhere does not matter. -/
theorem loadWord_storeWord_apart {address value count place size : Nat}
    (apart : place + size ≤ address ∨ address + count ≤ place) :
    loadWord (storeWord memory address value count) place size = loadWord memory place size :=
  loadWord_congr fun _ inside => storeWord_outside (by omega)

theorem loadWord_lt (address count : Nat) : loadWord memory address count < 256 ^ count := by
  induction count generalizing address with
  | zero => exact Nat.one_pos
  | succ count ih =>
      have first := (memory address).toNat_lt
      have rest := ih (address + 1)
      rw [loadWord, Nat.pow_succ']
      omega

/-- The bytes of a number are determined by it. -/
theorem byte_of_loadWord : ∀ {count address offset : Nat}, offset < count →
    (memory (address + offset)).toNat = loadWord memory address count / 256 ^ offset % 256 := by
  intro count
  induction count with
  | zero => exact fun inside => absurd inside (Nat.not_lt_zero _)
  | succ count ih =>
      intro address offset inside
      have first := (memory address).toNat_lt
      cases offset with
      | zero =>
          rw [Nat.pow_zero, Nat.div_one, loadWord, Nat.add_zero]
          omega
      | succ offset =>
          have rest := @ih (address + 1) offset (Nat.lt_of_succ_lt_succ inside)
          rw [Nat.add_assoc, Nat.add_comm 1 offset] at rest
          rw [rest, loadWord, Nat.pow_succ', ← Nat.div_div_eq_div_mul]
          congr 2
          omega

theorem loadWord_one (memory : Memory) (address : Nat) :
    loadWord memory address 1 = (memory address).toNat := by
  rw [loadWord, loadWord, Nat.mul_zero, Nat.add_zero]

/-- The low bytes of a number. -/
theorem loadWord_take : ∀ {few count address : Nat}, few ≤ count →
    loadWord memory address few = loadWord memory address count % 256 ^ few := by
  intro few
  induction few with
  | zero =>
      intro count address _
      rw [Nat.pow_zero, Nat.mod_one]
      rfl
  | succ few ih =>
      intro count address more
      obtain ⟨rest, rfl⟩ := Nat.exists_eq_succ_of_ne_zero (Nat.ne_zero_of_lt more)
      have first := (memory address).toNat_lt
      rw [loadWord, loadWord, ih (Nat.le_of_succ_le_succ more), Nat.pow_succ', Nat.mod_mul]
      have low : ((memory address).toNat + 256 * loadWord memory (address + 1) rest) % 256 =
          (memory address).toNat := by omega
      have high : ((memory address).toNat + 256 * loadWord memory (address + 1) rest) / 256 =
          loadWord memory (address + 1) rest := by omega
      rw [low, high]

/-- The high bytes of a number. -/
theorem loadWord_drop {few count address : Nat} :
    loadWord memory (address + few) count = loadWord memory address (few + count) / 256 ^ few := by
  induction few generalizing address with
  | zero => rw [Nat.pow_zero, Nat.div_one, Nat.add_zero, Nat.zero_add]
  | succ few ih =>
      have first := (memory address).toNat_lt
      rw [show few + 1 + count = few + count + 1 by omega, loadWord, Nat.pow_succ',
        ← Nat.div_div_eq_div_mul, show address + (few + 1) = address + 1 + few by omega, ih]
      congr 1
      omega

end Bytes

/-! ## Words -/

/-- The 64-bit word of the signed number that a field of some bits holds. -/
def signExtended (bits value : Nat) : Nat :=
  if value < 2 ^ (bits - 1) then value else value + wordCount - 2 ^ bits

/-- The word that leads from one position to another. -/
def distance (position destination : Nat) : Nat :=
  (destination + wordCount - position) % wordCount

section Words

variable {position destination : Nat}

/-- A displacement of 32 bits leads to every destination within its reach. -/
theorem reached_32 (known : destination < wordCount)
    (back : position ≤ destination + 2 ^ 31) (ahead : destination < position + 2 ^ 31) :
    (position + signExtended 32 (distance position destination % 2 ^ 32)) % wordCount =
      destination := by
  unfold signExtended distance wordCount at *
  norm_num at *
  split <;> omega

/-- A displacement of 26 bits that counts words of four bytes. -/
theorem reached_28 (known : destination < wordCount)
    (back : position ≤ destination + 2 ^ 27) (ahead : destination < position + 2 ^ 27)
    (aligned : position % 4 = 0) (target : destination % 4 = 0) :
    (position + signExtended 28 (4 * (distance position destination / 4 % 2 ^ 26))) % wordCount =
      destination := by
  unfold signExtended distance wordCount at *
  norm_num at *
  split <;> omega

/-- A displacement in two parts: the rounded upper twenty bits, and the lower twelve with a sign. -/
theorem reached_pair (known : destination < wordCount)
    (back : position ≤ destination + 2 ^ 31) (ahead : destination + 2049 ≤ position + 2 ^ 31) :
    ((position + signExtended 32
          ((distance position destination + 2048) % wordCount / 4096 % 2 ^ 20 * 4096)) % wordCount +
        signExtended 12 (distance position destination % 4096)) % wordCount = destination := by
  unfold signExtended distance wordCount at *
  norm_num at *
  split <;> split <;> omega

end Words

end Machines
