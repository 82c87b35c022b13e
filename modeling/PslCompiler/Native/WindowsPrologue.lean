import PslCompiler.Native.WindowsEmission

/-! # Running the entry of a function

From the first instruction to the last, the entry of a function is at a known position, and what it
has done so far is what the unwind data describe there. The stack pointer of a large frame is lowered
after all of its pages have been touched.
-/

namespace Native

open Machines Buffers
open Machines.Intel (State stackPointer framePointer)

/-- A machine at the entry of a function whose code stands at a position, with room on the stack. -/
structure AtEntry (entry : State) (base frame : Nat) : Prop where
  counter : entry.counter = base
  stands : Pieces entry.memory base (entryPieces frame)
  ends : base + entrySize frame < wordCount
  words : ∀ register, entry.registers register < wordCount
  room : frame + 8 ≤ entry.registers stackPointer
  aligned : entry.registers stackPointer % 8 = 0
  apart : entry.registers stackPointer ≤ base ∨
    base + entrySize frame + 8 ≤ entry.registers stackPointer

/-- The place of the saved frame pointer. -/
def savedPlace (entry : State) : Nat :=
  entry.registers stackPointer - 8

/-- A state after the frame pointer was saved, with its stack pointer and its frame pointer. -/
structure Along (entry state : State) (stack pointer : Nat) : Prop where
  stack : state.registers stackPointer = stack
  pointer : state.registers framePointer = pointer
  kept : ∀ register, register ≠ stackPointer → register ≠ framePointer → register ≠ 10 →
    register ≠ 11 → state.registers register = entry.registers register
  memory : state.memory = storeWord entry.memory (savedPlace entry) (entry.registers framePointer) 8

/-- The places at the distances of some pages below the saved frame pointer were touched. -/
def Probed (entry state : State) (pages : Nat) : Prop :=
  ∀ page, page ≤ pages → savedPlace entry - 4096 * page ∈ state.touched

section Steps

variable {entry state after : State} {base frame stack pointer position offset pages : Nat}

theorem Along.writes {destination value : Nat} (along : Along entry state stack pointer)
    (writes : Intel.State.Writes state after position destination value)
    (scratch : destination = 10 ∨ destination = 11) : Along entry after stack pointer where
  stack := by
    rw [writes.read_other (by unfold stackPointer; omega), along.stack]
  pointer := by
    rw [writes.read_other (by unfold framePointer; omega), along.pointer]
  kept := by
    intro register first second third fourth
    rw [writes.read_other (by omega), along.kept register first second third fourth]
  memory := writes.memory.trans along.memory

theorem Along.moves {touched : List Nat} (along : Along entry state stack pointer)
    (moves : Intel.State.Moves state after position touched) : Along entry after stack pointer := by
  refine ⟨?_, ?_, ?_, moves.memory.trans along.memory⟩
  · rw [moves.registers, along.stack]
  · rw [moves.registers, along.pointer]
  · intro register first second third fourth
    rw [moves.registers, along.kept register first second third fourth]

theorem Probed.writes {destination value : Nat} (probed : Probed entry state pages)
    (writes : Intel.State.Writes state after position destination value) :
    Probed entry after pages := by
  intro page few
  rw [writes.touched]
  exact probed page few

theorem Probed.moves {touched : List Nat} (probed : Probed entry state pages)
    (moves : Intel.State.Moves state after position touched) : Probed entry after pages := by
  intro page few
  rw [moves.touched]
  exact List.mem_append_right _ (probed page few)

theorem Along.lowers (along : Along entry state (savedPlace entry) (entry.registers framePointer))
    (writes : Intel.State.Writes state after position stackPointer
      (Intel.State.difference (state.registers stackPointer) (signExtended 32 frame)))
    (small : frame < 2 ^ 31) (below : savedPlace entry < wordCount)
    (room : frame ≤ savedPlace entry) :
    Along entry after (savedPlace entry - frame) (entry.registers framePointer) := by
  refine ⟨?_, ?_, ?_, writes.memory.trans along.memory⟩
  · rw [writes.read_self, along.stack, show signExtended 32 frame = frame from if_pos small,
      Intel.State.difference_eq below room]
  · rw [writes.read_other (by decide), along.pointer]
  · intro register first second third fourth
    rw [writes.read_other first, along.kept register first second third fourth]

theorem Along.frames (along : Along entry state stack pointer)
    (writes : Intel.State.Writes state after position framePointer (state.registers stackPointer)) :
    Along entry after stack stack := by
  refine ⟨?_, writes.read_self.trans along.stack, ?_, writes.memory.trans along.memory⟩
  · rw [writes.read_other (by decide), along.stack]
  · intro register first second third fourth
    rw [writes.read_other second, along.kept register first second third fourth]

/-- The first instruction leaves the code as it is. -/
theorem AtEntry.kept (atEntry : AtEntry entry base frame) :
    Pieces (storeWord entry.memory (savedPlace entry) (entry.registers framePointer) 8) base
      (entryPieces frame) := by
  have room := atEntry.room
  have apart := atEntry.apart
  refine atEntry.stands.congr fun offset inside => storeWord_outside ?_
  rw [entryPieces_size] at inside
  unfold savedPlace
  omega

/-- The first instruction saves the frame pointer. -/
theorem AtEntry.pushes (atEntry : AtEntry entry base frame)
    (decoded : Intel.decode entry.memory base = some (.push 5, 1)) :
    ∃ after, entry.step = some after ∧ after.counter = base + 1 ∧
      Along entry after (savedPlace entry) (entry.registers framePointer) ∧ Probed entry after 0 := by
  have room := atEntry.room
  have ends := atEntry.ends
  have below := atEntry.words stackPointer
  rw [← atEntry.counter] at decoded
  obtain ⟨after, step, counter, registers, memory, touched⟩ := Intel.State.step_push decoded
  have lowered : (entry.registers stackPointer + wordCount - 8) % wordCount = savedPlace entry := by
    unfold savedPlace
    rw [show entry.registers stackPointer + wordCount - 8 =
      entry.registers stackPointer - 8 + wordCount by omega, Nat.add_mod_right,
      Nat.mod_eq_of_lt (by omega)]
  rw [lowered] at registers memory touched
  refine ⟨after, step, ?_, ⟨?_, ?_, ?_, memory⟩, ?_⟩
  · rw [counter, atEntry.counter, Nat.mod_eq_of_lt]
    have long : 1 ≤ entrySize frame := by unfold entrySize; split <;> decide
    omega
  · rw [registers, Function.update_self]
  · rw [registers, Function.update_of_ne (by decide)]
  · intro register first _ _ _
    rw [registers, Function.update_of_ne first]
  · intro page few
    rw [touched, show page = 0 by omega]
    exact List.mem_cons_self ..

end Steps

/-! ## Large frames -/

/-- The points of the entry of a large frame, with the number of instructions that are left. The
number of pages that are touched grows with each round of the loop. -/
inductive LargePoint (entry : State) (base frame remaining : Nat) (state : State) : Prop
  | entered (same : state = entry) (count : remaining = 9 + 6 * (frame / 4096))
  | pushed (along : Along entry state (savedPlace entry) (entry.registers framePointer))
      (probed : Probed entry state 0) (counter : state.counter = base + 1)
      (count : remaining = 8 + 6 * (frame / 4096))
  | copied (along : Along entry state (savedPlace entry) (entry.registers framePointer))
      (probed : Probed entry state 0) (counter : state.counter = base + 4)
      (probe : state.registers 10 = savedPlace entry)
      (count : remaining = 7 + 6 * (frame / 4096))
  | round (page : Nat) (few : page ≤ frame / 4096)
      (along : Along entry state (savedPlace entry) (entry.registers framePointer))
      (probed : Probed entry state page) (counter : state.counter = base + 14)
      (probe : state.registers 10 = savedPlace entry - 4096 * page)
      (left : state.registers 11 = frame - 4096 * page)
      (count : remaining = 6 + 6 * (frame / 4096 - page))
  | compared (page : Nat) (few : page ≤ frame / 4096)
      (along : Along entry state (savedPlace entry) (entry.registers framePointer))
      (probed : Probed entry state page) (counter : state.counter = base + 21)
      (probe : state.registers 10 = savedPlace entry - 4096 * page)
      (left : state.registers 11 = frame - 4096 * page)
      (carry : state.carry = decide (frame - 4096 * page < 4096))
      (count : remaining = 5 + 6 * (frame / 4096 - page))
  | advancing (page : Nat) (few : page < frame / 4096)
      (along : Along entry state (savedPlace entry) (entry.registers framePointer))
      (probed : Probed entry state page) (counter : state.counter = base + 27)
      (probe : state.registers 10 = savedPlace entry - 4096 * page)
      (left : state.registers 11 = frame - 4096 * page)
      (count : remaining = 4 + 6 * (frame / 4096 - page))
  | probing (page : Nat) (few : page < frame / 4096)
      (along : Along entry state (savedPlace entry) (entry.registers framePointer))
      (probed : Probed entry state page) (counter : state.counter = base + 34)
      (probe : state.registers 10 = savedPlace entry - 4096 * (page + 1))
      (left : state.registers 11 = frame - 4096 * page)
      (count : remaining = 3 + 6 * (frame / 4096 - page))
  | counting (page : Nat) (few : page < frame / 4096)
      (along : Along entry state (savedPlace entry) (entry.registers framePointer))
      (probed : Probed entry state (page + 1)) (counter : state.counter = base + 38)
      (probe : state.registers 10 = savedPlace entry - 4096 * (page + 1))
      (left : state.registers 11 = frame - 4096 * page)
      (count : remaining = 2 + 6 * (frame / 4096 - page))
  | returning (page : Nat) (few : page < frame / 4096)
      (along : Along entry state (savedPlace entry) (entry.registers framePointer))
      (probed : Probed entry state (page + 1)) (counter : state.counter = base + 45)
      (probe : state.registers 10 = savedPlace entry - 4096 * (page + 1))
      (left : state.registers 11 = frame - 4096 * (page + 1))
      (count : remaining = 1 + 6 * (frame / 4096 - page))
  | rest (along : Along entry state (savedPlace entry) (entry.registers framePointer))
      (probed : Probed entry state (frame / 4096)) (counter : state.counter = base + 50)
      (probe : state.registers 10 = savedPlace entry - 4096 * (frame / 4096))
      (left : state.registers 11 = frame - 4096 * (frame / 4096)) (count : remaining = 4)
  | touching (along : Along entry state (savedPlace entry) (entry.registers framePointer))
      (probed : Probed entry state (frame / 4096)) (counter : state.counter = base + 53)
      (probe : state.registers 10 = savedPlace entry - frame) (count : remaining = 3)
  | touched (along : Along entry state (savedPlace entry) (entry.registers framePointer))
      (probed : Probed entry state (frame / 4096)) (last : savedPlace entry - frame ∈ state.touched)
      (counter : state.counter = base + 57) (count : remaining = 2)
  | lowered (along : Along entry state (savedPlace entry - frame) (entry.registers framePointer))
      (probed : Probed entry state (frame / 4096)) (last : savedPlace entry - frame ∈ state.touched)
      (counter : state.counter = base + 64) (count : remaining = 1)
  | framed (along : Along entry state (savedPlace entry - frame) (savedPlace entry - frame))
      (probed : Probed entry state (frame / 4096)) (last : savedPlace entry - frame ∈ state.touched)
      (counter : state.counter = base + 67) (count : remaining = 0)

section Large

variable {entry state : State} {base frame remaining : Nat}

/-- One instruction of the entry of a large frame leads to the next point. -/
theorem LargePoint.next (atEntry : AtEntry entry base frame) (large : ¬frame < 4096)
    (small : frame < 2 ^ 31)
    (point : LargePoint entry base frame (remaining + 1) state) :
    ∃ after, state.step = some after ∧ LargePoint entry base frame remaining after ∧
      base ≤ state.counter ∧ state.counter < base + 67 := by
  have room := atEntry.room
  have ends := atEntry.ends
  rw [entrySize, if_neg large] at ends
  have below := atEntry.words stackPointer
  have top : savedPlace entry < wordCount ∧ frame ≤ savedPlace entry := by
    unfold savedPlace
    omega
  have place : savedPlace entry + 8 = entry.registers stackPointer := by
    unfold savedPlace
    omega
  have first := (entryPieces_large large atEntry.stands).1
  have code := (entryPieces_large large atEntry.kept).2
  simp only [probeInstructions, frameInstructions, List.cons_append, List.nil_append,
    Intel.coded_cons, Nat.add_assoc, Nat.reduceAdd] at code
  obtain ⟨copy, load, compare, branch, advance, probeTest, countDown, back, restOf, lastTest, lower,
    frame_, -⟩ := code
  have page4096 : signExtended 32 4096 = 4096 := if_pos (by decide)
  have reach {counter size offset : Nat} (here : counter = base + offset) (inside : offset + size ≤ 67) :
      (counter + size) % wordCount = base + (offset + size) := by
    rw [here, Nat.mod_eq_of_lt (by omega), Nat.add_assoc]
  have pages := Nat.div_mul_le_self frame 4096
  cases point with
  | entered same count =>
      subst same
      obtain ⟨after, step, counter, along, probed⟩ := atEntry.pushes first
      exact ⟨after, step, .pushed along probed counter (by omega), by
        rw [atEntry.counter], by rw [atEntry.counter]; omega⟩
  | pushed along probed counter count =>
      rw [← along.memory, ← counter] at copy
      obtain ⟨after, step, writes⟩ := Intel.State.step_move copy
      refine ⟨after, step, .copied (along.writes writes (.inl rfl)) (probed.writes writes) ?_ ?_
        (by omega), by omega, by omega⟩
      · exact writes.counter.trans (reach counter (by decide))
      · exact writes.read_self.trans along.stack
  | copied along probed counter probe count =>
      rw [← along.memory, ← counter] at load
      obtain ⟨after, step, writes⟩ := Intel.State.step_moveImmediate load
      refine ⟨after, step, .round 0 (Nat.zero_le _) (along.writes writes (.inr rfl))
        (probed.writes writes) ?_ ?_ writes.read_self (by omega), by omega, by omega⟩
      · exact writes.counter.trans (reach counter (by decide))
      · exact (writes.read_other (by decide)).trans probe
  | round page few along probed counter probe left count =>
      rw [← along.memory, ← counter] at compare
      obtain ⟨after, step, moves, carry⟩ := Intel.State.step_compareImmediate compare
      refine ⟨after, step, .compared page few (along.moves moves) (probed.moves moves) ?_ ?_ ?_ ?_
        (by omega), by omega, by omega⟩
      · exact moves.counter.trans (reach counter (by decide))
      · rw [moves.registers, probe]
      · rw [moves.registers, left]
      · rw [carry, left, page4096]
  | compared page few along probed counter probe left carry count =>
      rw [← along.memory, ← counter] at branch
      obtain ⟨after, step, moves⟩ := Intel.State.step_jumpBelow branch
      rw [carry] at moves
      by_cases last : frame - 4096 * page < 4096
      · -- What is left is less than a page.
        rw [decide_eq_true last, if_pos rfl, show signExtended 32 23 = 23 from if_pos (by decide)]
          at moves
        have all : page = frame / 4096 := by omega
        subst all
        refine ⟨after, step, .rest (along.moves moves) (probed.moves moves) ?_ ?_ ?_ (by omega),
          by omega, by omega⟩
        · rw [moves.counter, counter, Nat.mod_eq_of_lt (by omega)]
        · rw [moves.registers, probe]
        · rw [moves.registers, left]
      · rw [decide_eq_false last, if_neg Bool.false_ne_true] at moves
        refine ⟨after, step, .advancing page (by omega) (along.moves moves) (probed.moves moves) ?_
          ?_ ?_ (by omega), by omega, by omega⟩
        · exact moves.counter.trans (reach counter (by decide))
        · rw [moves.registers, probe]
        · rw [moves.registers, left]
  | advancing page few along probed counter probe left count =>
      rw [← along.memory, ← counter] at advance
      obtain ⟨after, step, writes⟩ := Intel.State.step_subtractImmediate advance
      refine ⟨after, step, .probing page few (along.writes writes (.inl rfl)) (probed.writes writes)
        ?_ ?_ ?_ (by omega), by omega, by omega⟩
      · exact writes.counter.trans (reach counter (by decide))
      · rw [writes.read_self, probe, page4096, Intel.State.difference_eq (by omega) (by omega)]
        omega
      · exact (writes.read_other (by decide)).trans left
  | probing page few along probed counter probe left count =>
      rw [← along.memory, ← counter] at probeTest
      obtain ⟨after, step, moves⟩ := Intel.State.step_testByte probeTest
      refine ⟨after, step, .counting page few (along.moves moves) ?_ ?_ ?_ ?_ (by omega), by omega,
        by omega⟩
      · intro other within
        rcases Nat.lt_or_eq_of_le within with before | rfl
        · exact probed.moves moves other (by omega)
        · rw [moves.touched, probe]
          exact List.mem_cons_self ..
      · exact moves.counter.trans (reach counter (by decide))
      · rw [moves.registers, probe]
      · rw [moves.registers, left]
  | counting page few along probed counter probe left count =>
      rw [← along.memory, ← counter] at countDown
      obtain ⟨after, step, writes⟩ := Intel.State.step_subtractImmediate countDown
      refine ⟨after, step, .returning page few (along.writes writes (.inr rfl))
        (probed.writes writes) ?_ ?_ ?_ (by omega), by omega, by omega⟩
      · exact writes.counter.trans (reach counter (by decide))
      · exact (writes.read_other (by decide)).trans probe
      · rw [writes.read_self, left, page4096, Intel.State.difference_eq (by omega) (by omega)]
        omega
  | returning page few along probed counter probe left count =>
      rw [← along.memory, ← counter] at back
      obtain ⟨after, step, moves⟩ := Intel.State.step_jump back
      refine ⟨after, step, .round (page + 1) few (along.moves moves) (probed.moves moves) ?_ ?_ ?_
        (by omega), by omega, by omega⟩
      · have backwards : signExtended 32 (2 ^ 32 - 36) = wordCount - 36 := by
          rw [signExtended, if_neg (by decide)]
          unfold wordCount
          omega
        rw [moves.counter, counter, backwards, show base + 45 + 5 + (wordCount - 36) =
          base + 14 + wordCount by omega, Nat.add_mod_right, Nat.mod_eq_of_lt (by omega)]
      · rw [moves.registers, probe]
      · rw [moves.registers, left]
  | rest along probed counter probe left count =>
      rw [← along.memory, ← counter] at restOf
      obtain ⟨after, step, writes⟩ := Intel.State.step_subtract restOf
      refine ⟨after, step, .touching (along.writes writes (.inl rfl)) (probed.writes writes) ?_ ?_
        (by omega), by omega, by omega⟩
      · exact writes.counter.trans (reach counter (by decide))
      · rw [writes.read_self, probe, left, Intel.State.difference_eq (by omega) (by omega)]
        omega
  | touching along probed counter probe count =>
      rw [← along.memory, ← counter] at lastTest
      obtain ⟨after, step, moves⟩ := Intel.State.step_testByte lastTest
      refine ⟨after, step, .touched (along.moves moves) (probed.moves moves) ?_ ?_ (by omega),
        by omega, by omega⟩
      · rw [moves.touched, probe]
        exact List.mem_cons_self ..
      · exact moves.counter.trans (reach counter (by decide))
  | touched along probed last counter count =>
      rw [← along.memory, ← counter] at lower
      obtain ⟨after, step, writes⟩ := Intel.State.step_subtractImmediate lower
      exact ⟨after, step, .lowered (along.lowers writes small top.1 top.2) (probed.writes writes)
        (writes.touched ▸ last) (writes.counter.trans (reach counter (by decide))) (by omega),
        by omega, by omega⟩
  | lowered along probed last counter count =>
      rw [← along.memory, ← counter] at frame_
      obtain ⟨after, step, writes⟩ := Intel.State.step_move frame_
      exact ⟨after, step, .framed (along.frames writes) (probed.writes writes)
        (writes.touched ▸ last) (writes.counter.trans (reach counter (by decide))) (by omega),
        by omega, by omega⟩
  | framed along probed last counter count => exact absurd count (by omega)

end Large

/-! ## Small frames -/

/-- The points of the entry of a small frame, with the number of instructions that are left. -/
inductive SmallPoint (entry : State) (base frame remaining : Nat) (state : State) : Prop
  | entered (same : state = entry) (count : remaining = 3)
  | pushed (along : Along entry state (savedPlace entry) (entry.registers framePointer))
      (probed : Probed entry state 0) (counter : state.counter = base + 1) (count : remaining = 2)
  | lowered (along : Along entry state (savedPlace entry - frame) (entry.registers framePointer))
      (probed : Probed entry state 0) (counter : state.counter = base + 8) (count : remaining = 1)
  | framed (along : Along entry state (savedPlace entry - frame) (savedPlace entry - frame))
      (probed : Probed entry state 0) (counter : state.counter = base + 11) (count : remaining = 0)

section Frames

variable {entry state after : State} {base frame remaining position offset : Nat}

/-- One instruction of the entry of a small frame leads to the next point. -/
theorem SmallPoint.next (atEntry : AtEntry entry base frame) (few : frame < 4096)
    (point : SmallPoint entry base frame (remaining + 1) state) :
    ∃ after, state.step = some after ∧ SmallPoint entry base frame remaining after ∧
      base ≤ state.counter ∧ state.counter < base + 11 := by
  have room := atEntry.room
  have ends := atEntry.ends
  rw [entrySize, if_pos few] at ends
  have below := atEntry.words stackPointer
  have top : savedPlace entry < wordCount ∧ frame ≤ savedPlace entry := by
    unfold savedPlace
    omega
  have first := (entryPieces_small few atEntry.stands).1
  have code := (entryPieces_small few atEntry.kept).2
  simp only [frameInstructions, Intel.coded_cons, Nat.add_assoc, Nat.reduceAdd] at code
  obtain ⟨lower, frame_, -⟩ := code
  have reach {counter size offset : Nat} (here : counter = base + offset) (inside : offset + size ≤ 11) :
      (counter + size) % wordCount = base + (offset + size) := by
    rw [here, Nat.mod_eq_of_lt (by omega), Nat.add_assoc]
  cases point with
  | entered same count =>
      subst same
      obtain ⟨after, step, counter, along, probed⟩ := atEntry.pushes first
      exact ⟨after, step, .pushed along probed counter (by omega), by
        rw [atEntry.counter], by rw [atEntry.counter]; omega⟩
  | pushed along probed counter count =>
      rw [← along.memory, ← counter] at lower
      obtain ⟨after, step, writes⟩ := Intel.State.step_subtractImmediate lower
      exact ⟨after, step, .lowered (along.lowers writes (by omega) top.1 top.2)
        (probed.writes writes) (writes.counter.trans (reach counter (by decide))) (by omega),
        by omega, by omega⟩
  | lowered along probed counter count =>
      rw [← along.memory, ← counter] at frame_
      obtain ⟨after, step, writes⟩ := Intel.State.step_move frame_
      exact ⟨after, step, .framed (along.frames writes) (probed.writes writes)
        (writes.counter.trans (reach counter (by decide))) (by omega), by omega, by omega⟩
  | framed along probed counter count => exact absurd count (by omega)

end Frames

/-! ## All frames -/

/-- The pages that the entry of a function has to touch before it lowers the stack pointer: that of
the saved frame pointer, and all pages of a large frame. -/
def Prepared (entry state : State) (frame : Nat) : Prop :=
  Probed entry state 0 ∧
    (4096 ≤ frame → Probed entry state (frame / 4096) ∧ savedPlace entry - frame ∈ state.touched)

/-- How far the entry of a function has come. -/
inductive EntryPhase (entry : State) (base frame : Nat) (state : State) : Prop
  | entered (same : state = entry)
  | pushed (offset : Nat) (counter : state.counter = base + offset) (positive : 1 ≤ offset)
      (before : offset + 3 < entrySize frame)
      (along : Along entry state (savedPlace entry) (entry.registers framePointer))
      (probed : Probed entry state 0)
  | lowered (counter : state.counter = base + (entrySize frame - 3))
      (along : Along entry state (savedPlace entry - frame) (entry.registers framePointer))
      (prepared : Prepared entry state frame)
  | framed (counter : state.counter = base + entrySize frame)
      (along : Along entry state (savedPlace entry - frame) (savedPlace entry - frame))
      (prepared : Prepared entry state frame)

section Phases

variable {entry state : State} {base frame remaining : Nat}

theorem Probed.first {pages : Nat} (probed : Probed entry state pages) : Probed entry state 0 :=
  fun page few => probed page (by omega)

theorem SmallPoint.phase (few : frame < 4096) (point : SmallPoint entry base frame remaining state) :
    EntryPhase entry base frame state := by
  have size : entrySize frame = 11 := if_pos few
  cases point with
  | entered same count => exact .entered same
  | pushed along probed counter count =>
      exact .pushed 1 counter (by decide) (by omega) along probed
  | lowered along probed counter count =>
      exact .lowered (by rw [size, counter]) along ⟨probed, fun large => absurd few (by omega)⟩
  | framed along probed counter count =>
      exact .framed (by rw [size, counter]) along ⟨probed, fun large => absurd few (by omega)⟩

theorem LargePoint.phase (large : ¬frame < 4096)
    (point : LargePoint entry base frame remaining state) : EntryPhase entry base frame state := by
  have size : entrySize frame = 67 := if_neg large
  cases point with
  | entered same count => exact .entered same
  | pushed along probed counter count =>
      exact .pushed 1 counter (by decide) (by omega) along probed
  | copied along probed counter probe count =>
      exact .pushed 4 counter (by decide) (by omega) along probed
  | round page few along probed counter probe left count =>
      exact .pushed 14 counter (by decide) (by omega) along probed.first
  | compared page few along probed counter probe left carry count =>
      exact .pushed 21 counter (by decide) (by omega) along probed.first
  | advancing page few along probed counter probe left count =>
      exact .pushed 27 counter (by decide) (by omega) along probed.first
  | probing page few along probed counter probe left count =>
      exact .pushed 34 counter (by decide) (by omega) along probed.first
  | counting page few along probed counter probe left count =>
      exact .pushed 38 counter (by decide) (by omega) along probed.first
  | returning page few along probed counter probe left count =>
      exact .pushed 45 counter (by decide) (by omega) along probed.first
  | rest along probed counter probe left count =>
      exact .pushed 50 counter (by decide) (by omega) along probed.first
  | touching along probed counter probe count =>
      exact .pushed 53 counter (by decide) (by omega) along probed.first
  | touched along probed last counter count =>
      exact .pushed 57 counter (by decide) (by omega) along probed.first
  | lowered along probed last counter count =>
      exact .lowered (by rw [size, counter]) along ⟨probed.first, fun _ => ⟨probed, last⟩⟩
  | framed along probed last counter count =>
      exact .framed (by rw [size, counter]) along ⟨probed.first, fun _ => ⟨probed, last⟩⟩

/-- The run of the entry of a function goes through its phases and comes to the last one. -/
theorem AtEntry.runs (atEntry : AtEntry entry base frame) (accepted : FrameSize frame) :
    (∀ state, Intel.State.RunsWithin entry base (base + entrySize frame) state →
      EntryPhase entry base frame state) ∧
    ∃ final, Intel.State.RunsWithin entry base (base + entrySize frame) final ∧
      final.counter = base + entrySize frame ∧
      Along entry final (savedPlace entry - frame) (savedPlace entry - frame) ∧
      Prepared entry final frame := by
  obtain ⟨positive, small, aligned⟩ := accepted
  by_cases few : frame < 4096
  · have size : entrySize frame = 11 := if_pos few
    rw [size]
    obtain ⟨all, final, runs, last⟩ := Intel.State.RunsWithin.points
      (SmallPoint.entered rfl rfl : SmallPoint entry base frame 3 entry)
      (fun remaining state point => point.next atEntry few)
      (fun state point => by
        cases point with
        | framed along probed counter count => exact Nat.le_of_eq counter.symm
        | _ => omega)
    refine ⟨fun state within => ?_, final, runs, ?_⟩
    · obtain ⟨remaining, point⟩ := all state within
      exact point.phase few
    · cases last with
      | framed along probed counter count =>
          exact ⟨counter, along, probed, fun large => absurd few (by omega)⟩
      | _ => omega
  · have size : entrySize frame = 67 := if_neg few
    rw [size]
    obtain ⟨all, final, runs, last⟩ := Intel.State.RunsWithin.points
      (LargePoint.entered rfl rfl :
        LargePoint entry base frame (9 + 6 * (frame / 4096)) entry)
      (fun remaining state point => point.next atEntry few (by omega))
      (fun state point => by
        cases point with
        | framed along probed last counter count => exact Nat.le_of_eq counter.symm
        | _ => omega)
    refine ⟨fun state within => ?_, final, runs, ?_⟩
    · obtain ⟨remaining, point⟩ := all state within
      exact point.phase few
    · cases last with
      | framed along probed last counter count =>
          exact ⟨counter, along, probed.first, fun _ => ⟨probed, last⟩⟩
      | _ => omega

/-- The words on the stack, and the registers, from which unwinding starts. -/
theorem Along.saved {stack pointer : Nat} (along : Along entry state stack pointer)
    (words : ∀ register, entry.registers register < wordCount)
    (room : 8 ≤ entry.registers stackPointer) :
    Intel.Saved entry state (savedPlace entry) := by
  refine ⟨by unfold savedPlace; omega, ?_, ?_, ?_⟩
  · rw [along.memory, loadWord_storeWord]
    exact Nat.mod_eq_of_lt (words framePointer)
  · rw [along.memory, loadWord_storeWord_apart (.inr (Nat.le_refl _))]
  · intro register saved other
    unfold Intel.Nonvolatile framePointer at saved
    unfold framePointer at other
    exact along.kept register (by unfold stackPointer; omega) other (by omega) (by omega)

/-- In every phase the unwind data lead back to the caller. -/
theorem EntryPhase.unwinds {info : Memory} {position : Nat} (atEntry : AtEntry entry base frame)
    (data : Intel.FrameData info position frame (entrySize frame))
    (phase : EntryPhase entry base frame state) :
    Intel.UnwindsTo info position (state.counter - base) entry state := by
  have below := atEntry.words stackPointer
  have room := atEntry.room
  have long : 11 ≤ entrySize frame := by
    unfold entrySize
    split <;> decide
  have within : frame ≤ savedPlace entry := by
    unfold savedPlace
    omega
  cases phase with
  | entered same =>
      subst same
      rw [atEntry.counter, Nat.sub_self]
      exact data.unwinds_entry (by omega)
  | pushed offset counter positive before along probed =>
      rw [counter, Nat.add_sub_cancel_left]
      exact data.unwinds_pushed (along.saved atEntry.words (by omega)) below along.stack positive
        before
  | lowered counter along prepared =>
      rw [counter, Nat.add_sub_cancel_left]
      exact data.unwinds_lowered (along.saved atEntry.words (by omega)) below
        (by rw [along.stack]; omega) (by omega) (by omega) (by omega)
  | framed counter along prepared =>
      rw [counter, Nat.add_sub_cancel_left]
      exact data.unwinds_framed (along.saved atEntry.words (by omega)) below
        (by rw [along.pointer]; omega) (Nat.le_refl _) (by omega)

/-- A page between the stack pointers was touched. -/
def PageTouched (state : State) (address : Nat) : Prop :=
  ∃ place ∈ state.touched, place / 4096 = address / 4096

/-- The stack pointer is never lowered below a page of a large frame that was not touched. -/
theorem EntryPhase.touched (atEntry : AtEntry entry base frame) (large : 4096 ≤ frame)
    (phase : EntryPhase entry base frame state) {address : Nat}
    (from_ : state.registers stackPointer ≤ address) (upTo : address < entry.registers stackPointer) :
    PageTouched state address := by
  have room := atEntry.room
  have aligned := atEntry.aligned
  have place : savedPlace entry + 8 = entry.registers stackPointer := by
    unfold savedPlace
    omega
  have first (probed : Probed entry state 0) (near : savedPlace entry ≤ address) :
      PageTouched state address :=
    ⟨savedPlace entry - 4096 * 0, probed 0 (Nat.le_refl _), by omega⟩
  have all (prepared : Prepared entry state frame)
      (after : savedPlace entry - frame ≤ address) : PageTouched state address := by
    obtain ⟨probed, last⟩ := prepared.2 large
    by_cases near : savedPlace entry ≤ address
    · exact first prepared.1 near
    -- The probed place in the page of the address, unless the last one is there.
    obtain ⟨page, here⟩ : ∃ page, page = savedPlace entry / 4096 - address / 4096 := ⟨_, rfl⟩
    by_cases within : page ≤ frame / 4096
    · exact ⟨savedPlace entry - 4096 * page, probed page within, by omega⟩
    · exact ⟨savedPlace entry - frame, last, by omega⟩
  cases phase with
  | entered same => exact absurd upTo (by rw [same] at from_; omega)
  | pushed offset counter positive before along probed =>
      exact first probed (along.stack ▸ from_)
  | lowered counter along prepared => exact all prepared (along.stack ▸ from_)
  | framed counter along prepared => exact all prepared (along.stack ▸ from_)

end Phases

/-! ## What is emitted -/

/-- A machine about to enter a function, with room for its frame on the stack. -/
structure Entering (entry : State) (start frame : Nat) : Prop where
  counter : entry.counter = start
  ends : start + entrySize frame < wordCount
  words : ∀ register, entry.registers register < wordCount
  room : frame + 8 ≤ entry.registers stackPointer
  aligned : entry.registers stackPointer % 8 = 0
  apart : entry.registers stackPointer ≤ start ∨
    start + entrySize frame + 8 ≤ entry.registers stackPointer

/-- A point of the body of a function: the frame pointer has its place, and nothing that the caller
needs was overwritten. -/
structure InBody (entry state : State) (frame : Nat) : Prop where
  pointer : state.registers framePointer + frame = savedPlace entry
  saved : Intel.Saved entry state (savedPlace entry)

section Emitted

variable {code output : ByteBuffer} {frame outgoing : Nat}

theorem entry_small (accepted : FrameSize frame) (within : outgoing ≤ frame) :
    ∀ piece ∈ entryPieces frame ++ savePieces outgoing, piece.1 < 256 ^ piece.2 := by
  obtain ⟨positive, small, aligned⟩ := accepted
  unfold entryPieces framePieces probePieces savePieces
  split_ifs <;> simp <;> omega

/-- The bytes of the entry stand where the code was. -/
theorem win64FunctionPrologue_pieces (valid : code.Valid) (accepted : FrameSize frame)
    (within : outgoing ≤ frame) (room : code.length + (entrySize frame + 28) ≤ code.capacity) :
    Pieces (win64FunctionPrologue code frame outgoing).2.data code.length
      (entryPieces frame ++ savePieces outgoing) := by
  rw [win64FunctionPrologue_eq valid accepted within room]
  exact ByteBuffer.emittedPieces_pieces (entry_small accepted within)

/-- The validation of the object writer accepts what is emitted. -/
theorem win64FunctionPrologue_validated (valid : code.Valid) (accepted : FrameSize frame)
    (within : outgoing ≤ frame) (room : code.length + (entrySize frame + 28) ≤ code.capacity)
    {function : NativeFunction} (place : function.offset = code.length)
    (size : function.frameSize = frame) (prologue : function.prologueSize = entrySize frame) :
    coffEncodedPrologueP (win64FunctionPrologue code frame outgoing).2.data function = true := by
  have stands := (win64FunctionPrologue_pieces valid accepted within room).left
  obtain ⟨positive, small, aligned⟩ := accepted
  have bounded := valid.bounded
  have shape : coffFrameShapeP frame (entrySize frame) = true := by
    rw [coffFrameShapeP, if_neg positive, if_neg (by omega), land_fifteen, if_pos aligned, entrySize,
      if_pos rfl]
  have mask (value : Nat) : value &&& 0xffffff = value % 256 ^ 3 :=
    Nat.and_two_pow_sub_one_eq_mod value 24
  rw [coffEncodedPrologueP, size, prologue, place, shape, if_neg Bool.noConfusion]
  generalize (win64FunctionPrologue code frame outgoing).2.data = data at stands ⊢
  have checks {push : Nat} (first : loadWord data code.length 1 = 0x55)
      (far : push + 10 = entrySize frame) (frames : Pieces data (code.length + push) (framePieces frame)) :
      coffPrologueBytesP data code.length frame (entrySize frame) = true := by
    obtain ⟨lower, immediate, framed, -⟩ := frames
    rw [loadWord_one] at first
    have word : code.length + entrySize frame < wordLimit := by omega
    rw [coffPrologueBytesP, wrapSub_eq (by omega) (by omega), wrapAdd_eq (by omega),
      show code.length + (entrySize frame - 10) = code.length + push by omega, readU32Le_eq,
      readU32Le_eq, readU32Le_eq, mask, mask, ← loadWord_take (by decide), ← loadWord_take (by decide)]
    rw [if_pos first, if_pos lower, if_pos immediate,
      if_pos (show loadWord data (code.length + push + 7) 3 = 0xe58948 from framed)]
  unfold entryPieces at stands
  split_ifs at stands with few
  · exact checks stands.1 (show 1 + 10 = _ by rw [entrySize, if_pos few]) stands.2
  · refine checks stands.1 (show 57 + 10 = _ by rw [entrySize, if_neg few]) ?_
    exact stands.2.right

end Emitted

/-- The entry of a function and its unwind data agree. The size in the data is that of the entry; the
entry lowers the stack pointer by the frame and takes it as the frame pointer; wherever it is
interrupted, and everywhere in the body, the data lead back to the caller with its stack pointer and
its registers; and the stack pointer of a large frame never passes a page that was not touched. -/
theorem win64Entry_unwinds (code output : ByteBuffer) (frame outgoing : Nat) (valid : code.Valid)
    (outputValid : output.Valid) (accepted : FrameSize frame) (within : outgoing ≤ frame)
    (room : code.length + (entrySize frame + 28) ≤ code.capacity)
    (outputRoom : output.length + win64UnwindBytes frame ≤ output.capacity) :
    let emitted := win64FunctionPrologue code frame outgoing
    let written := win64WriteUnwind output frame emitted.1
    emitted.1 = entrySize frame ∧ written.1 = true ∧
    (written.2.data (output.length + 1)).toNat = emitted.1 ∧
    ∀ (entry : State) (base place : Nat) (info : Memory), Loaded entry.memory base emitted.2 →
      Loaded info place written.2 → Entering entry (base + code.length) frame →
      (∀ state, Intel.State.RunsWithin entry (base + code.length)
          (base + code.length + emitted.1) state →
        Intel.UnwindsTo info (place + output.length) (state.counter - (base + code.length)) entry
          state ∧
        (4096 ≤ frame → ∀ address, state.registers stackPointer ≤ address →
          address < entry.registers stackPointer → PageTouched state address)) ∧
      (∃ final, Intel.State.RunsWithin entry (base + code.length)
          (base + code.length + emitted.1) final ∧
        final.counter = base + code.length + emitted.1 ∧
        final.registers stackPointer + frame + 8 = entry.registers stackPointer ∧
        InBody entry final frame) ∧
      ∀ state offset, InBody entry state frame → emitted.1 ≤ offset →
        Intel.UnwindsTo info (place + output.length) offset entry state := by
  have pieces := win64FunctionPrologue_pieces valid accepted within room
  rw [win64FunctionPrologue_eq valid accepted within room] at pieces ⊢
  rw [win64UnwindBytes_eq] at outputRoom
  dsimp only at pieces ⊢
  rw [win64WriteUnwind_eq outputValid accepted outputRoom]
  have written := @ByteBuffer.emittedPieces_pieces output _ (unwindPieces_small accepted)
  refine ⟨rfl, rfl, (unwindPieces_data accepted written).length, ?_⟩
  intro entry base place info loaded infoLoaded entering
  have stands : Pieces entry.memory (base + code.length) (entryPieces frame) := by
    refine pieces.left.congr fun offset inside => ?_
    rw [Nat.add_assoc]
    refine loaded _ ?_
    rw [emittedPieces_length, piecesSize_append]
    omega
  have data : Intel.FrameData info (place + output.length) frame (entrySize frame) := by
    refine unwindPieces_data accepted (written.congr fun offset inside => ?_)
    rw [Nat.add_assoc]
    refine infoLoaded _ ?_
    rw [emittedPieces_length]
    omega
  have atEntry : AtEntry entry (base + code.length) frame :=
    ⟨entering.counter, stands, entering.ends, entering.words, entering.room, entering.aligned,
      entering.apart⟩
  obtain ⟨all, final, runs, counter, along, prepared⟩ := atEntry.runs accepted
  have space := entering.room
  have top : savedPlace entry + 8 = entry.registers stackPointer := by
    unfold savedPlace
    omega
  refine ⟨?_, ⟨final, runs, counter, ?_, ?_, ?_⟩, ?_⟩
  · intro state within_
    have phase := all state within_
    exact ⟨phase.unwinds atEntry data, fun large address from_ upTo =>
      phase.touched atEntry large from_ upTo⟩
  · rw [along.stack]
    omega
  · rw [along.pointer]
    omega
  · exact along.saved entering.words (by omega)
  · intro state offset body after
    have long : 11 ≤ entrySize frame := by
      unfold entrySize
      split <;> decide
    exact data.unwinds_framed body.saved (entering.words _) body.pointer after (by omega)

/-- An empty buffer. -/
def emptyBuffer (capacity : Nat) : ByteBuffer :=
  { data := fun _ => 0, length := 0, capacity }

/-- A machine whose stack is above the code. -/
def enteringState (memory : Memory) : State :=
  { counter := 0, registers := fun register => if register = 4 then 0x100008 else 0, carry := false,
    memory, touched := [] }

theorem win64Entry_page :
    let emitted := win64FunctionPrologue (emptyBuffer 100) 4096 32
    let written := win64WriteUnwind (emptyBuffer 100) 4096 emitted.1
    emitted.1 = 67 ∧ ∃ final, final.registers stackPointer = 0xff000 ∧
      Intel.UnwindsTo written.2.data 0 67 (enteringState emitted.2.data) final := by
  obtain ⟨size, -, -, run⟩ := win64Entry_unwinds (emptyBuffer 100) (emptyBuffer 100) 4096 32
    ⟨by decide, by decide⟩ ⟨by decide, by decide⟩ ⟨by decide, by decide, by decide⟩ (by decide)
    (by decide) (by decide)
  obtain ⟨-, ⟨final, -, -, lowered, body⟩, unwinds⟩ := run
    (enteringState (win64FunctionPrologue (emptyBuffer 100) 4096 32).2.data) 0 0
    (win64WriteUnwind (emptyBuffer 100) 4096
      (win64FunctionPrologue (emptyBuffer 100) 4096 32).1).2.data
    (fun offset _ => congrArg _ (Nat.zero_add offset))
    (fun offset _ => congrArg _ (Nat.zero_add offset))
    ⟨rfl, by decide, by
      intro register
      change (if register = 4 then 0x100008 else 0) < wordCount
      unfold wordCount
      split <;> omega, by decide, by decide, .inr (by decide)⟩
  refine ⟨size, final, ?_, unwinds final 67 body (Nat.le_of_eq size)⟩
  change _ = 0x100008 at lowered
  omega

end Native
