import PslCompiler.Loading.DepthFirst

/-! # Reading source files in Stage 0

Stage 0 reads a file form by form. INCLUDE is replaced by the forms of another file unless they have
been read before, package forms change the reader and are dropped, and all others are returned. What
the Lisp reader makes of a file, and of which file an INCLUDE speaks, are parameters.
-/

namespace Stage0

open Loading

/-- Why a source file cannot be read. -/
inductive SourceError (Doc : Type)
  | circular (doc : Doc)
  | missing (doc : Doc)
  | readerError
  | invalidForm

/-- What is known after reading: the forms, the files that have been included, and the reader. -/
structure SourceRead (Doc Form State : Type) where
  forms : List Form
  included : List Doc
  state : State

section Reading

variable {Doc Form Tag State Local : Type} [DecidableEq Doc]
  (system : System Doc Form Tag State Local) (packageP : Tag → Bool)

/-- Process the forms of a file one after another; `none` is a call that has not returned. -/
def readSourceForms (readFile : List Doc → State → Doc →
      Option (Except (SourceError Doc) (SourceRead Doc Form State))) (complete : Bool) :
    List Form → List Doc → State → Local →
      Option (Except (SourceError Doc) (SourceRead Doc Form State))
  | [], included, state, _ =>
      some (if complete then .ok ⟨[], included, state⟩ else .error .readerError)
  | form :: rest, included, state, here =>
      match system.action state here form with
      | none => some (.error .invalidForm)
      | some (next, after, .form tag) =>
          (readSourceForms readFile complete rest included next after).map fun others =>
            others.map fun read =>
              { read with forms := (if packageP tag then [] else [form]) ++ read.forms }
      | some (next, after, .visit doc) =>
          (readFile included next doc).bind fun inner =>
            match inner with
            | .error error => some (.error error)
            | .ok first =>
                (readSourceForms readFile complete rest first.included first.state after).map
                  fun others => others.map fun read => { read with forms := first.forms ++ read.forms }

/-- Read a file, unless it has been read; a file that is being read is in a circle. -/
def readSourceFile : Nat → List Doc → List Doc → State → Doc →
    Option (Except (SourceError Doc) (SourceRead Doc Form State))
  | 0, _, _, _, _ => none
  | levels + 1, active, included, state, doc =>
      if doc ∈ active then some (.error (.circular doc))
      else if doc ∈ included then some (.ok ⟨[], included, state⟩)
      else
        match system.contents doc, system.opened state doc with
        | some contents, some (start, inside) =>
            readSourceForms system packageP (readSourceFile levels (doc :: active))
              contents.complete contents.forms (doc :: included) start inside
        | _, _ => some (.error (.missing doc))

end Reading

/-! ## The order of forms -/

section Order

variable {Doc Form Tag State Local : Type} [DecidableEq Doc]
  {system : System Doc Form Tag State Local} {packageP : Tag → Bool}

/-- The forms that Stage 0 returns. -/
def returnedForms (packageP : Tag → Bool) (entries : List (Tag × Form)) : List Form :=
  (entries.filter fun entry => !packageP entry.1).map Prod.snd

/-- With enough levels, forms are returned in the order of reading. -/
theorem readSourceForms_reads {seen active last : List Doc} {state final : State} {here : Local}
    {forms : List Form} {entries : List (Tag × Form)}
    (reads : Reads system seen active state here forms entries last final) (within : active ⊆ seen) :
    ∃ least, ∀ levels ≥ least, readSourceForms system packageP
      (readSourceFile system packageP levels active) true forms seen state here =
        some (.ok ⟨returnedForms packageP entries, last, final⟩) := by
  induction reads with
  | ended => exact ⟨0, fun _ _ => rfl⟩
  | @form seen active last state next final here after form rest tag entries acts others ih =>
      obtain ⟨least, ends⟩ := ih within
      refine ⟨least, fun levels enough => ?_⟩
      rw [readSourceForms, acts]
      dsimp only
      rw [ends levels enough]
      cases package : packageP tag with
      | true => simp [returnedForms, package, Except.map]
      | false => simp [returnedForms, package, Except.map]
  | again acts known closed others ih =>
      obtain ⟨least, ends⟩ := ih within
      refine ⟨least + 1, fun levels enough => ?_⟩
      obtain ⟨levels, rfl⟩ := Nat.exists_eq_succ_of_ne_zero (Nat.ne_zero_of_lt enough)
      rw [readSourceForms, acts]
      dsimp only
      rw [readSourceFile, if_neg closed, if_pos known]
      dsimp only [Option.bind]
      rw [ends _ (by omega)]
      rfl
  | fresh acts new readable complete opens inner others inside outside =>
      obtain ⟨first, nested⟩ := inside (List.cons_subset_cons _ within)
      have kept := (inner.seen).2.1
      obtain ⟨second, ends⟩ := outside (fun doc member =>
        kept (List.mem_cons_of_mem _ (within member)))
      refine ⟨first + second + 1, fun levels enough => ?_⟩
      obtain ⟨levels, rfl⟩ := Nat.exists_eq_succ_of_ne_zero (Nat.ne_zero_of_lt enough)
      rw [readSourceForms, acts]
      dsimp only
      rw [readSourceFile, if_neg (fun member => new (within member)), if_neg new, readable, opens]
      dsimp only
      rw [complete, nested _ (by omega)]
      dsimp only [Option.bind]
      rw [ends _ (by omega)]
      simp [returnedForms, Except.map]

/-- Where a source can be loaded, Stage 0 returns its forms in the order of reading. -/
theorem readSourceFile_loads {state : State} {doc : Doc} {entries : List (Tag × Form)}
    (loads : Loads system state doc entries) :
    ∃ least, ∀ levels ≥ least, ∃ included final,
      readSourceFile system packageP levels [] [] state doc =
        some (.ok ⟨returnedForms packageP entries, included, final⟩) := by
  obtain ⟨readable, complete, opens, reads⟩ := loads
  obtain ⟨least, ends⟩ := @readSourceForms_reads _ _ _ _ _ _ _ packageP _ _ _ _ _ _ _ _ reads
    (List.Subset.refl _)
  refine ⟨least + 1, fun levels enough => ?_⟩
  obtain ⟨levels, rfl⟩ := Nat.exists_eq_succ_of_ne_zero (Nat.ne_zero_of_lt enough)
  rw [readSourceFile, if_neg List.not_mem_nil, if_neg List.not_mem_nil, readable, opens]
  dsimp only
  rw [complete, ends _ (by omega)]
  exact ⟨_, _, rfl⟩

end Order

end Stage0
