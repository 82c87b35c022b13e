import Mathlib.Data.List.Basic
import Mathlib.Data.List.Nodup
import Mathlib.Data.List.Forall2
import Mathlib.Tactic

/-! # Heaps of objects with identity

Values are words or references to objects. A routine works on objects and on raw memory without ever
seeing a reference as a number, so it does the same on heaps in which the objects have other places,
also next to objects that are only on one side.
-/

namespace Heaps

inductive Datum
  | word (value : Int)
  | reference (index : Nat)
  deriving DecidableEq, Repr

/-- A record has a kind, words and values. Code is called and not looked into. -/
inductive Object (Code : Type)
  | record (kind : Nat) (words : List Int) (fields : List Datum)
  | code (contents : Code)
  deriving Repr

/-- The objects by their places, and the memory that is accessed by address. -/
structure Heap (Code : Type) where
  objects : List (Object Code)
  memory : Int → Int

namespace Heap

variable {Code : Type}

def allocate (heap : Heap Code) (object : Object Code) : Heap Code :=
  { heap with objects := heap.objects ++ [object] }

/-- The reference to the object that is allocated next. -/
def next (heap : Heap Code) : Datum :=
  .reference heap.objects.length

def store (heap : Heap Code) (index : Nat) (object : Object Code) : Heap Code :=
  { heap with objects := heap.objects.set index object }

def write (heap : Heap Code) (address value : Int) : Heap Code :=
  { heap with memory := Function.update heap.memory address value }

end Heap

/-! ## Routines -/

/-- An operand of a routine: one of the values it has so far, or a word. -/
inductive Operand
  | input (index : Nat)
  | word (value : Int)
  deriving DecidableEq, Repr

def Operand.value (inputs : List Datum) : Operand → Datum
  | input index => inputs.getD index (.word 0)
  | word value => .word value

/-- What a routine sees of a value: a word, or the object but not its place. -/
inductive View
  | word (value : Int)
  | record (kind : Nat) (words : List Int) (fields : Nat)
  | code
  | missing
  deriving DecidableEq, Repr

/-- The steps of a routine. A new object, and the fields of an object that is inspected, become
further inputs. -/
inductive Routine
  | finish (result : Operand)
  | abort
  | create (kind : Nat) (words : List Int) (fields : List Operand) (next : Routine)
  | inspect (value : Operand) (next : View → Routine)
  | replace (object : Operand) (words : List Int) (fields : List Operand) (next : Routine)
  | compare (left right : Operand) (next : Bool → Routine)
  | read (address : Operand) (next : Int → Routine)
  | write (address value : Operand) (next : Routine)

section Run

variable {Code : Type}

def Datum.view (heap : Heap Code) : Datum → View
  | word value => .word value
  | reference index =>
      match heap.objects[index]? with
      | some (.record kind words fields) => .record kind words fields.length
      | some (.code _) => .code
      | none => .missing

def Datum.fields (heap : Heap Code) : Datum → List Datum
  | word _ => []
  | reference index =>
      match heap.objects[index]? with
      | some (.record _ _ fields) => fields
      | _ => []

/-- Run a routine on inputs. It may abort. -/
def Routine.run : Routine → List Datum → Heap Code → Option Datum × Heap Code
  | finish result, inputs, heap => (some (result.value inputs), heap)
  | abort, _, heap => (none, heap)
  | create kind words fields next, inputs, heap =>
      next.run (inputs ++ [heap.next])
        (heap.allocate (.record kind words (fields.map fun field => field.value inputs)))
  | inspect value next, inputs, heap =>
      (next ((value.value inputs).view heap)).run (inputs ++ (value.value inputs).fields heap) heap
  | replace object words fields next, inputs, heap =>
      match object.value inputs with
      | .word _ => (none, heap)
      | .reference index =>
          match heap.objects[index]? with
          | some (.record kind _ _) =>
              next.run inputs
                (heap.store index (.record kind words (fields.map fun field => field.value inputs)))
          | _ => (none, heap)
  | compare left right next, inputs, heap =>
      (next (left.value inputs = right.value inputs)).run inputs heap
  | read address next, inputs, heap =>
      match address.value inputs with
      | .word place => (next (heap.memory place)).run inputs heap
      | .reference _ => (none, heap)
  | write address value next, inputs, heap =>
      match address.value inputs, value.value inputs with
      | .word place, .word value => next.run inputs (heap.write place value)
      | _, _ => (none, heap)

end Run

/-! ## Mirrored heaps -/

/-- The value on the other side, where object `i` has the place `places[i]`. -/
def Datum.Mirrors (places : List Nat) : Datum → Datum → Prop
  | word left, word right => left = right
  | reference left, reference right => places[left]? = some right
  | _, _ => False

/-- Values on both sides, one by one. -/
def MirrorsAll (places : List Nat) (left right : List Datum) : Prop :=
  List.Forall₂ (Datum.Mirrors places) left right

section Mirror

variable {Left Right : Type}

def Object.Mirrors (places : List Nat) (codes : Left → Right → Prop) :
    Object Left → Object Right → Prop
  | record kind words fields, record kind' words' fields' =>
      kind = kind' ∧ words = words' ∧ MirrorsAll places fields fields'
  | code contents, code contents' => codes contents contents'
  | _, _ => False

/-- Places are only added, and what has no counterpart on the left is not touched. -/
structure Kept (places : List Nat) (heap : Heap Right) (places' : List Nat) (heap' : Heap Right) :
    Prop where
  added : places <+: places'
  size : heap.objects.length ≤ heap'.objects.length
  hidden : ∀ index, index < heap.objects.length → index ∉ places →
    heap'.objects[index]? = heap.objects[index]? ∧ index ∉ places'

/-- Every object on the left has a counterpart of its own on the right. -/
structure HeapMirrors (codes : List Nat → Heap Right → Left → Right → Prop) (places : List Nat)
    (left : Heap Left) (right : Heap Right) : Prop where
  count : places.length = left.objects.length
  distinct : places.Nodup
  objects : ∀ (index place : Nat), places[index]? = some place →
    ∃ (object : Object Left) (other : Object Right),
      left.objects[index]? = some object ∧ right.objects[place]? = some other ∧
        object.Mirrors places (codes places right) other
  memory : left.memory = right.memory

end Mirror

end Heaps
