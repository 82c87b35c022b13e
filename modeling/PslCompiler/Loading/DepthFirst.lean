import Mathlib.Algebra.BigOperators.Group.List.Basic
import Mathlib.Tactic

/-! # Loading documents that include each other

A document is a list of forms. A reader goes through them in order, with a state that it hands on and
a local state for each document. It keeps a form, or it takes the form as the inclusion of another
document, whose forms then stand in its place unless that document has been read before. `Reads` is
such a traversal in which no document is included while it is still being read.
-/

namespace Loading

variable {Doc Form Tag State Local : Type}

/-- What a reader makes of a form. -/
inductive Action (Doc Tag : Type)
  | form (tag : Tag)
  | visit (doc : Doc)

/-- The forms of a document as far as they can be read, and whether that is all of it. -/
structure Contents (Form : Type) where
  forms : List Form
  complete : Bool

/-- Documents with what a reader does at the start of each and with each of their forms. -/
structure System (Doc Form Tag State Local : Type) where
  contents : Doc → Option (Contents Form)
  opened : State → Doc → Option (State × Local)
  action : State → Local → Form → Option (State × Local × Action Doc Tag)

variable (system : System Doc Form Tag State Local)

/-- Read forms, with the documents that have been seen and those that are being read: the forms that
are kept with their tags, the documents that have been seen at the end, and the state there. -/
inductive Reads : List Doc → List Doc → State → Local → List Form → List (Tag × Form) →
    List Doc → State → Prop
  | ended {seen active : List Doc} {state : State} {here : Local} :
      Reads seen active state here [] [] seen state
  | form {seen active last : List Doc} {state next final : State} {here after : Local} {form : Form}
      {rest : List Form} {tag : Tag} {entries : List (Tag × Form)}
      (acts : system.action state here form = some (next, after, .form tag))
      (others : Reads seen active next after rest entries last final) :
      Reads seen active state here (form :: rest) ((tag, form) :: entries) last final
  | again {seen active last : List Doc} {state next final : State} {here after : Local} {form : Form}
      {rest : List Form} {doc : Doc} {entries : List (Tag × Form)}
      (acts : system.action state here form = some (next, after, .visit doc))
      (known : doc ∈ seen) (closed : doc ∉ active)
      (others : Reads seen active next after rest entries last final) :
      Reads seen active state here (form :: rest) entries last final
  | fresh {seen active middle last : List Doc} {state next start between final : State}
      {here after inside : Local} {form : Form} {rest : List Form} {doc : Doc}
      {contents : Contents Form} {entries more : List (Tag × Form)}
      (acts : system.action state here form = some (next, after, .visit doc))
      (new : doc ∉ seen) (readable : system.contents doc = some contents)
      (complete : contents.complete = true) (opens : system.opened next doc = some (start, inside))
      (inner : Reads (doc :: seen) (doc :: active) start inside contents.forms entries middle between)
      (others : Reads middle active between after rest more last final) :
      Reads seen active state here (form :: rest) (entries ++ more) last final

/-- Load a document from a state: the forms that are kept, in the order of reading. -/
inductive Loads (state : State) (doc : Doc) (entries : List (Tag × Form)) : Prop
  | intro {contents : Contents Form} {start final : State} {inside : Local} {last : List Doc}
      (readable : system.contents doc = some contents) (complete : contents.complete = true)
      (opens : system.opened state doc = some (start, inside))
      (reads : Reads system [doc] [doc] start inside contents.forms entries last final)

variable {system}

/-- Documents are seen once each, and those that are new can be read. -/
theorem Reads.seen {seen active last : List Doc} {state final : State} {here : Local}
    {forms : List Form} {entries : List (Tag × Form)}
    (reads : Reads system seen active state here forms entries last final) :
    (seen.Nodup → last.Nodup) ∧ seen ⊆ last ∧
      ∀ doc ∈ last, doc ∈ seen ∨ (system.contents doc).isSome = true := by
  induction reads with
  | ended => exact ⟨fun distinct => distinct, List.Subset.refl _, fun doc member => .inl member⟩
  | form acts others ih => exact ih
  | again acts known closed others ih => exact ih
  | fresh acts new readable complete opens inner others inside outside =>
      obtain ⟨first, kept, found⟩ := inside
      obtain ⟨second, later, more⟩ := outside
      refine ⟨fun distinct => second (first (distinct.cons new)),
        fun doc member => later (kept (List.mem_cons_of_mem _ member)), ?_⟩
      intro doc member
      obtain inMiddle | isSome := more doc member
      · obtain inSeen | isSome := found doc inMiddle
        · obtain rfl | earlier := List.mem_cons.mp inSeen
          · exact .inr (by rw [readable]; rfl)
          · exact .inl earlier
        · exact .inr isSome
      · exact .inr isSome

/-- The sizes of forms together. -/
def formsSize (size : Form → Nat) (forms : List Form) : Nat :=
  (forms.map size).sum

/-- The sizes of the forms of documents together. -/
def docsSize (system : System Doc Form Tag State Local) (size : Form → Nat) (docs : List Doc) : Nat :=
  (docs.map fun doc => formsSize size (((system.contents doc).map Contents.forms).getD [])).sum

/-- What is kept is not more than the forms that are read. -/
theorem Reads.size (size : Form → Nat) {seen active last : List Doc} {state final : State}
    {here : Local} {forms : List Form} {entries : List (Tag × Form)}
    (reads : Reads system seen active state here forms entries last final) :
    formsSize size (entries.map Prod.snd) + docsSize system size seen ≤
      formsSize size forms + docsSize system size last := by
  induction reads with
  | ended => exact Nat.le_refl _
  | form acts others ih =>
      simp only [formsSize, List.map_cons, List.sum_cons] at ih ⊢
      omega
  | again acts known closed others ih =>
      simp only [formsSize, List.map_cons, List.sum_cons] at ih ⊢
      omega
  | fresh acts new readable complete opens inner others inside outside =>
      simp only [docsSize, List.map_cons, List.sum_cons, readable, Option.map_some,
        Option.getD_some] at inside outside ⊢
      simp only [formsSize, List.map_append, List.sum_append, List.map_cons, List.sum_cons]
        at inside outside ⊢
      omega

end Loading
