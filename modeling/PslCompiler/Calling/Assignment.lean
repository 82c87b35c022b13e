import Mathlib.Data.List.Nodup
import Mathlib.Tactic.Common

/-! # Handing out argument places

A calling convention hands out the registers of two files and the slots of the stack, argument by
argument. It decides of which kinds the pieces of the next argument are, and each piece takes the
next place of its kind. Registers may be given up in between, stack slots are not.
-/

namespace Calling

/-- A register of one of the two files, or a stack slot. -/
inductive Place
  | general (index : Nat)
  | floating (index : Nat)
  | stack (slot : Nat)
  deriving DecidableEq, Repr

inductive Kind
  | general
  | floating
  | stack
  deriving DecidableEq, Repr

/-- How many places of each kind are gone. -/
structure Used where
  general : Nat := 0
  floating : Nat := 0
  stack : Nat := 0
  deriving DecidableEq, Repr

namespace Used

/-- The next place of a kind. -/
def next (used : Used) : Kind → Place
  | .general => .general used.general
  | .floating => .floating used.floating
  | .stack => .stack used.stack

def take (used : Used) : Kind → Used
  | .general => { used with general := used.general + 1 }
  | .floating => { used with floating := used.floating + 1 }
  | .stack => { used with stack := used.stack + 1 }

/-- Take the next places of some kinds. -/
def deal : Used → List Kind → List Place
  | _, [] => []
  | used, kind :: rest => used.next kind :: (used.take kind).deal rest

def takeAll (used : Used) (kinds : List Kind) : Used :=
  kinds.foldl take used

theorem takeAll_eq (kinds : List Kind) : ∀ used : Used, used.takeAll kinds =
    ⟨used.general + kinds.count .general, used.floating + kinds.count .floating,
      used.stack + kinds.count .stack⟩ := by
  induction kinds with
  | nil => exact fun _ => rfl
  | cons kind rest ih =>
      intro used
      rw [takeAll, List.foldl_cons, ← takeAll, ih]
      have counts := fun wanted : Kind => List.count_cons (a := wanted) (b := kind) (l := rest)
      cases kind with
      | general => simp [take, counts, Nat.add_assoc, Nat.add_comm 1]
      | floating => simp [take, counts, Nat.add_assoc, Nat.add_comm 1]
      | stack => simp [take, counts, Nat.add_assoc, Nat.add_comm 1]

/-- Each piece is at the next place of its kind after the pieces before it. -/
theorem deal_eq_map (kinds : List Kind) : ∀ used : Used, used.deal kinds =
    (List.range kinds.length).map fun index =>
      (used.takeAll (kinds.take index)).next (kinds.getD index .stack) := by
  induction kinds with
  | nil => exact fun _ => rfl
  | cons kind rest ih =>
      intro used
      rw [deal, ih, List.length_cons, List.range_succ_eq_map, List.map_cons, List.map_map]
      rfl

/-- Pieces of one kind follow each other. -/
theorem deal_replicate (used : Used) (kind : Kind) (number : Nat) :
    used.deal (List.replicate number kind) =
      (List.range number).map fun index =>
        (used.takeAll (List.replicate index kind)).next kind := by
  rw [deal_eq_map, List.length_replicate]
  apply List.map_congr_left
  intro index member
  have inside := List.mem_range.mp member
  rw [List.take_replicate, Nat.min_eq_left (Nat.le_of_lt inside), List.getD_eq_getElem?_getD,
    List.getElem?_replicate_of_lt inside, Option.getD_some]

theorem deal_general (used : Used) (number : Nat) :
    used.deal (List.replicate number .general) =
      (List.range number).map fun index => .general (used.general + index) := by
  simp only [deal_replicate, takeAll_eq, next, List.count_replicate_self]

theorem deal_floating (used : Used) (number : Nat) :
    used.deal (List.replicate number .floating) =
      (List.range number).map fun index => .floating (used.floating + index) := by
  simp only [deal_replicate, takeAll_eq, next, List.count_replicate_self]

theorem deal_stack (used : Used) (number : Nat) :
    used.deal (List.replicate number .stack) =
      (List.range number).map fun index => .stack (used.stack + index) := by
  simp only [deal_replicate, takeAll_eq, next, List.count_replicate_self]

end Used

/-- Places that lie between two states: registers of what has been used in between, and exactly the
stack slots in between. -/
structure Between (before : Used) (places : List Place) (after : Used) : Prop where
  general : before.general ≤ after.general
  floating : before.floating ≤ after.floating
  stack : before.stack ≤ after.stack
  distinct : places.Nodup
  generals : ∀ index, .general index ∈ places →
    before.general ≤ index ∧ index < after.general
  floatings : ∀ index, .floating index ∈ places →
    before.floating ≤ index ∧ index < after.floating
  slots : ∀ slot, .stack slot ∈ places ↔ before.stack ≤ slot ∧ slot < after.stack

namespace Between

variable {before middle after : Used} {places more : List Place}

theorem refl (used : Used) : Between used [] used where
  general := Nat.le_refl _
  floating := Nat.le_refl _
  stack := Nat.le_refl _
  distinct := List.nodup_nil
  generals _ member := absurd member List.not_mem_nil
  floatings _ member := absurd member List.not_mem_nil
  slots _ := ⟨fun member => absurd member List.not_mem_nil, fun range => by omega⟩

/-- Places of consecutive stretches are different. -/
theorem append (first : Between before places middle) (second : Between middle more after) :
    Between before (places ++ more) after where
  general := Nat.le_trans first.general second.general
  floating := Nat.le_trans first.floating second.floating
  stack := Nat.le_trans first.stack second.stack
  distinct := by
    apply first.distinct.append second.distinct
    intro place early late
    cases place with
    | general index =>
        exact absurd (first.generals index early).2 (by have := second.generals index late; omega)
    | floating index =>
        exact absurd (first.floatings index early).2
          (by have := second.floatings index late; omega)
    | stack slot =>
        have low := (first.slots slot).mp early
        have high := (second.slots slot).mp late
        omega
  generals index member := by
    have low := first.general
    have high := second.general
    cases List.mem_append.mp member with
    | inl early => have := first.generals index early; omega
    | inr late => have := second.generals index late; omega
  floatings index member := by
    have low := first.floating
    have high := second.floating
    cases List.mem_append.mp member with
    | inl early => have := first.floatings index early; omega
    | inr late => have := second.floatings index late; omega
  slots slot := by
    have low := first.stack
    have high := second.stack
    rw [List.mem_append, first.slots, second.slots]
    omega

/-- The next place of a kind is between. -/
theorem single (used : Used) (kind : Kind) : Between used [used.next kind] (used.take kind) := by
  cases kind with
  | general =>
      refine ⟨Nat.le_succ _, Nat.le_refl _, Nat.le_refl _, List.nodup_singleton _, ?_, ?_, ?_⟩
      · intro index member
        cases List.mem_singleton.mp member
        exact ⟨Nat.le_refl _, Nat.lt_succ_self _⟩
      · intro index member
        cases List.mem_singleton.mp member
      · intro slot
        simp only [Used.next, List.mem_singleton, reduceCtorEq, Used.take, false_iff]
        omega
  | floating =>
      refine ⟨Nat.le_refl _, Nat.le_succ _, Nat.le_refl _, List.nodup_singleton _, ?_, ?_, ?_⟩
      · intro index member
        cases List.mem_singleton.mp member
      · intro index member
        cases List.mem_singleton.mp member
        exact ⟨Nat.le_refl _, Nat.lt_succ_self _⟩
      · intro slot
        simp only [Used.next, List.mem_singleton, reduceCtorEq, Used.take, false_iff]
        omega
  | stack =>
      refine ⟨Nat.le_refl _, Nat.le_refl _, Nat.le_succ _, List.nodup_singleton _, ?_, ?_, ?_⟩
      · intro index member
        cases List.mem_singleton.mp member
      · intro index member
        cases List.mem_singleton.mp member
      · intro slot
        simp only [Used.next, List.mem_singleton, Place.stack.injEq, Used.take]
        omega

/-- Registers that are given up are used. -/
theorem giveUp (between : Between before places middle) (general : middle.general ≤ after.general)
    (floating : middle.floating ≤ after.floating) (stack : middle.stack = after.stack) :
    Between before places after where
  general := Nat.le_trans between.general general
  floating := Nat.le_trans between.floating floating
  stack := stack ▸ between.stack
  distinct := between.distinct
  generals index member := by have := between.generals index member; omega
  floatings index member := by have := between.floatings index member; omega
  slots slot := stack ▸ between.slots slot

end Between

theorem Used.deal_between (kinds : List Kind) : ∀ used : Used,
    Between used (used.deal kinds) (used.takeAll kinds) := by
  induction kinds with
  | nil => exact Between.refl
  | cons kind rest ih => exact fun used => (Between.single used kind).append (ih (used.take kind))

/-- The kinds of the pieces of an argument, and the state in which the next argument is placed. -/
structure Convention (Argument : Type) where
  kinds : Used → Argument → List Kind
  after : Used → Argument → Used

namespace Convention

variable {Argument : Type} (convention : Convention Argument)

/-- The places of the pieces of each argument. -/
def places : Used → List Argument → List (List Place)
  | _, [] => []
  | used, argument :: rest =>
      used.deal (convention.kinds used argument) :: places (convention.after used argument) rest

/-- The state after some arguments. -/
def finish (used : Used) (arguments : List Argument) : Used :=
  arguments.foldl convention.after used

/-- Where a state is allowed, the next one has used up what the pieces take, and at most some
registers more. -/
structure Lawful (allowed : Used → Prop) : Prop where
  general : ∀ used argument, allowed used →
    (used.takeAll (convention.kinds used argument)).general ≤
      (convention.after used argument).general
  floating : ∀ used argument, allowed used →
    (used.takeAll (convention.kinds used argument)).floating ≤
      (convention.after used argument).floating
  stack : ∀ used argument, allowed used →
    (used.takeAll (convention.kinds used argument)).stack = (convention.after used argument).stack
  stays : ∀ used argument, allowed used → allowed (convention.after used argument)

variable {convention} {allowed : Used → Prop}

/-- The places of all arguments lie between the first state and the last. -/
theorem Lawful.between (lawful : convention.Lawful allowed) : ∀ (arguments : List Argument)
    (used : Used), allowed used →
      Between used (convention.places used arguments).flatten (convention.finish used arguments) ∧
        allowed (convention.finish used arguments) := by
  intro arguments
  induction arguments with
  | nil => exact fun used isAllowed => ⟨Between.refl used, isAllowed⟩
  | cons argument rest ih =>
      intro used isAllowed
      have first := (Used.deal_between (convention.kinds used argument) used).giveUp
        (lawful.general used argument isAllowed) (lawful.floating used argument isAllowed)
        (lawful.stack used argument isAllowed)
      have others := ih (convention.after used argument) (lawful.stays used argument isAllowed)
      rw [places, List.flatten_cons]
      exact ⟨first.append others.1, others.2⟩

end Convention

end Calling
