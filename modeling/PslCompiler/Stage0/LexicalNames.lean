import Mathlib

/-! # Lexical names

The front end turns the symbols of a unit into strings, one for each symbol. A spelling that is taken
is numbered until it is free.
-/

namespace Stage0

/-- A symbol of the source by its identity: of a package, or without one. -/
inductive LispSymbol
  | interned (package name : String)
  | uninterned (number : Nat)
  deriving DecidableEq, Repr

/-- The symbols that get names: those of the source, and a new one for each lambda. -/
inductive LexicalSymbol
  | source (symbol : LispSymbol)
  | environment (lambda : Nat)
  deriving DecidableEq, Repr

/-- Keywords, NIL and T are no variables. -/
def LexicalSymbol.invalidP : LexicalSymbol → Bool
  | source (.interned package name) =>
      package = "KEYWORD" || (package = "COMMON-LISP" && (name = "NIL" || name = "T"))
  | _ => false

/-- The numbered spelling of a base. -/
def numberedSpelling (base : String) (number : Nat) : String :=
  base ++ "#" ++ number.repr

/-- Number a spelling until it is free. As many attempts as there are spellings, and one more, are
enough. -/
def freshSpelling (spellings : List String) (base : String) : Nat → Nat → String → String × Nat
  | 0, counter, name => (name, counter)
  | attempts + 1, counter, name =>
      if name ∈ spellings then
        freshSpelling spellings base attempts (counter + 1) (numberedSpelling base (counter + 1))
      else (name, counter)

/-! ## Fresh spellings -/

section Fresh

variable {spellings : List String} {base : String}

theorem numberedSpelling_ne (number : Nat) : numberedSpelling base number ≠ base := by
  intro same
  have lengths := congrArg String.length same
  have mark : "#".length = 1 := rfl
  rw [numberedSpelling, String.length_append, String.length_append] at lengths
  omega

theorem numberedSpelling_injective {first second : Nat}
    (same : numberedSpelling base first = numberedSpelling base second) : first = second := by
  rw [numberedSpelling, numberedSpelling, String.append_right_inj] at same
  exact Nat.repr_injective same

/-- The spellings that are tried after a number. -/
def attempted (base : String) (counter attempts : Nat) : List String :=
  (List.range attempts).map fun step => numberedSpelling base (counter + 1 + step)

theorem attempted_nodup (counter attempts : Nat) : (attempted base counter attempts).Nodup := by
  refine List.Nodup.map ?_ List.nodup_range
  intro first second same
  have numbers := numberedSpelling_injective same
  omega

theorem attempted_succ (counter attempts : Nat) :
    attempted base counter (attempts + 1) =
      numberedSpelling base (counter + 1) :: attempted base (counter + 1) attempts := by
  rw [attempted, List.range_succ_eq_map, List.map_cons, List.map_map, attempted, Nat.add_zero]
  congr 1
  refine List.map_congr_left fun step _ => ?_
  show numberedSpelling base (counter + 1 + (step + 1)) = _
  congr 1
  omega

/-- If the last attempt is not free, none before was. -/
theorem attempts_taken : ∀ (attempts counter : Nat) (name : String),
    (freshSpelling spellings base (attempts + 1) counter name).1 ∈ spellings →
      name ∈ spellings ∧ ∀ spelling ∈ attempted base counter attempts, spelling ∈ spellings := by
  intro attempts
  induction attempts with
  | zero =>
      intro counter name taken
      rw [freshSpelling] at taken
      by_cases member : name ∈ spellings
      · exact ⟨member, by simp [attempted]⟩
      · rw [if_neg member] at taken
        exact absurd taken member
  | succ attempts ih =>
      intro counter name taken
      rw [freshSpelling] at taken
      by_cases member : name ∈ spellings
      · rw [if_pos member] at taken
        obtain ⟨first, others⟩ := ih _ _ taken
        refine ⟨member, ?_⟩
        rw [attempted_succ]
        intro spelling inside
        rw [List.mem_cons] at inside
        cases inside with
        | inl same => exact same ▸ first
        | inr later => exact others spelling later
      · rw [if_neg member] at taken
        exact absurd taken member

theorem freshSpelling_free (counter : Nat) :
    (freshSpelling spellings base (spellings.length + 1) counter base).1 ∉ spellings := by
  intro taken
  obtain ⟨first, others⟩ := attempts_taken _ _ _ taken
  have distinct : (base :: attempted base counter spellings.length).Nodup := by
    rw [List.nodup_cons]
    refine ⟨?_, attempted_nodup _ _⟩
    intro member
    obtain ⟨step, _, same⟩ := List.mem_map.mp member
    exact numberedSpelling_ne _ same
  have inside : base :: attempted base counter spellings.length ⊆ spellings :=
    List.cons_subset.mpr ⟨first, others⟩
  have count := (List.subperm_of_subset distinct inside).length_le
  rw [List.length_cons, attempted, List.length_map, List.length_range] at count
  omega

end Fresh

/-! ## Tables -/

/-- The names that have been given. No symbol has two, and no two symbols share one. -/
structure NameTable where
  names : List (LexicalSymbol × String)
  counter : Nat
  symbols : (names.map Prod.fst).Nodup
  spellings : (names.map Prod.snd).Nodup

namespace NameTable

def empty : NameTable :=
  ⟨[], 0, List.nodup_nil, List.nodup_nil⟩

def nameOf (table : NameTable) (symbol : LexicalSymbol) : Option String :=
  table.names.lookup symbol

theorem mem_of_nameOf {table : NameTable} {symbol : LexicalSymbol} {name : String}
    (named : table.nameOf symbol = some name) : (symbol, name) ∈ table.names := by
  obtain ⟨before, after, split, _⟩ := List.lookup_eq_some_iff.mp named
  rw [split]
  exact List.mem_append_right _ List.mem_cons_self

/-- No two symbols share a name. -/
theorem nameOf_injective {table : NameTable} {first second : LexicalSymbol} {name : String}
    (left : table.nameOf first = some name) (right : table.nameOf second = some name) :
    first = second := by
  have same := List.inj_on_of_nodup_map table.spellings (mem_of_nameOf left) (mem_of_nameOf right) rfl
  exact congrArg Prod.fst same

/-- Give a free name to a symbol that has none. -/
def add (table : NameTable) (symbol : LexicalSymbol) (name : String) (counter : Nat)
    (unnamed : table.nameOf symbol = none) (free : name ∉ table.names.map Prod.snd) : NameTable where
  names := (symbol, name) :: table.names
  counter := counter
  symbols := by
    rw [List.map_cons, List.nodup_cons]
    refine ⟨fun member => ?_, table.symbols⟩
    obtain ⟨entry, inside, same⟩ := List.mem_map.mp member
    rw [nameOf, List.lookup_eq_none_iff] at unnamed
    have different := unnamed entry inside
    simp [same] at different
  spellings := List.nodup_cons.mpr ⟨free, table.spellings⟩

end NameTable

section Naming

variable (sourceName : String → String)

/-- The spelling that a symbol starts from. -/
def LexicalSymbol.base : LexicalSymbol → String
  | source (.interned _ name) => sourceName name
  | _ => "#:temporary"

/-- The name of a symbol, which is given when it is first asked for. -/
def lexicalName (symbol : LexicalSymbol) (table : NameTable) : Except String (String × NameTable) :=
  if symbol.invalidP then .error "invalid lexical variable"
  else
    match given : table.nameOf symbol with
    | some name => .ok (name, table)
    | none =>
        let taken := table.names.map Prod.snd
        let base := symbol.base sourceName
        let fresh := freshSpelling taken base (taken.length + 1) table.counter base
        .ok (fresh.1, table.add symbol fresh.1 fresh.2 given (freshSpelling_free table.counter))

/-- The names of several symbols, as they are asked for. -/
def lexicalNames : List LexicalSymbol → NameTable → Except String NameTable
  | [], table => .ok table
  | symbol :: rest, table =>
      match lexicalName sourceName symbol table with
      | .error message => .error message
      | .ok (_, table) => lexicalNames rest table

variable {sourceName}

/-- A symbol has the name that it is given, and the others keep theirs. -/
theorem lexicalName_ok {symbol : LexicalSymbol} {table after : NameTable} {name : String}
    (named : lexicalName sourceName symbol table = .ok (name, after)) :
    after.nameOf symbol = some name ∧
      ∀ other spelling, table.nameOf other = some spelling → after.nameOf other = some spelling := by
  unfold lexicalName at named
  by_cases invalid : symbol.invalidP = true
  · rw [if_pos invalid] at named
    cases named
  · rw [if_neg invalid] at named
    split at named
    · rename_i spelling given
      cases named
      exact ⟨given, fun _ _ same => same⟩
    · rename_i given
      cases named
      refine ⟨List.lookup_cons_self, ?_⟩
      intro other spelling before
      rw [NameTable.nameOf, NameTable.add, List.lookup_cons]
      have different : (other == symbol) = false := by
        rw [beq_eq_false_iff_ne]
        rintro rfl
        rw [given] at before
        cases before
      rw [different]
      exact before

/-- Names are never taken back. -/
theorem lexicalNames_keeps : ∀ {requests : List LexicalSymbol} {table after : NameTable},
    lexicalNames sourceName requests table = .ok after →
      ∀ other spelling, table.nameOf other = some spelling → after.nameOf other = some spelling := by
  intro requests
  induction requests with
  | nil =>
      intro table after named other spelling before
      cases named
      exact before
  | cons symbol rest ih =>
      intro table after named other spelling before
      rw [lexicalNames] at named
      split at named
      · cases named
      · rename_i name middle first
        exact ih named other spelling ((lexicalName_ok first).2 other spelling before)

/-- Every symbol that was asked for has a name. -/
theorem lexicalNames_named : ∀ {requests : List LexicalSymbol} {table after : NameTable},
    lexicalNames sourceName requests table = .ok after →
      ∀ symbol ∈ requests, ∃ name, after.nameOf symbol = some name := by
  intro requests
  induction requests with
  | nil =>
      intro table after _ symbol member
      cases member
  | cons first rest ih =>
      intro table after named symbol member
      rw [lexicalNames] at named
      split at named
      · cases named
      · rename_i name middle given
        rw [List.mem_cons] at member
        cases member with
        | inl same =>
            subst same
            exact ⟨name, lexicalNames_keeps named _ _ (lexicalName_ok given).1⟩
        | inr later => exact ih named symbol later

end Naming

end Stage0
