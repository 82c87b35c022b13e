import PslCompiler.Native.Tokens
import PslCompiler.Native.Parser
import PslCompiler.Buffers.Expansion

/-! # The grammar of forms

A form is an atom, a string, a list of forms in parentheses, or a reader mark before a form. The
grammar is stated over token sequences (`Form`), and each tree has one place in a syntax arena: its
nodes in source order, parents first (`Tree.encode`).
-/

namespace Native

/-- The kinds of tokens that stand before an operand. -/
def TokenKind.takesOperand : TokenKind → Bool
  | .quote | .quasiquote | .unquote | .splice | .function => true
  | _ => false

/-- The kinds of tokens that are a form by themselves. -/
def TokenKind.isLeaf : TokenKind → Bool
  | .atom | .string => true
  | _ => false

/-- The tree of a form, with the tokens it is made of. -/
inductive Tree where
  | leaf (token : Token)
  | list (opening closing : Token) (children : List Tree)
  | prefixed (mark : Token) (operand : Tree)

mutual

/-- A token sequence is a form, with its tree. -/
inductive Form : List Token → Tree → Prop where
  | leaf {token : Token} (kind : token.kind.isLeaf = true) : Form [token] (.leaf token)
  | list {opening closing : Token} {tokens : List Token} {children : List Tree}
      (opens : opening.kind = .opening) (body : Forms tokens children)
      (closes : closing.kind = .closing) :
      Form (opening :: (tokens ++ [closing])) (.list opening closing children)
  | prefixed {mark : Token} {tokens : List Token} {operand : Tree}
      (kind : mark.kind.takesOperand = true) (body : Form tokens operand) :
      Form (mark :: tokens) (.prefixed mark operand)

/-- A token sequence is a sequence of forms, with their trees. -/
inductive Forms : List Token → List Tree → Prop where
  | nil : Forms [] []
  | cons {tokens others : List Token} {tree : Tree} {trees : List Tree} (first : Form tokens tree)
      (rest : Forms others trees) : Forms (tokens ++ others) (tree :: trees)

end

mutual

/-- The number of nodes of a tree. -/
def Tree.size : Tree → Nat
  | .leaf _ => 1
  | .list _ _ children => 1 + sizes children
  | .prefixed _ operand => 1 + operand.size

/-- The number of nodes of a sequence of trees. -/
def sizes : List Tree → Nat
  | [] => 0
  | tree :: trees => tree.size + sizes trees

end

/-- The references of trees that follow each other in an arena. -/
def roots (reference : Nat) : List Tree → List Nat
  | [] => []
  | tree :: trees => reference :: roots (reference + tree.size) trees

/-- The node at the root of a tree, without its links. -/
def Tree.root : Tree → AstNode
  | .leaf token => ⟨token.kind, token.start, token.length, 0, 0, 0, 0, false⟩
  | .list opening closing _ =>
      ⟨.opening, opening.start, closing.finish - opening.start, 0, 0, 0, 0, false⟩
  | .prefixed mark _ => ⟨mark.kind, mark.start, mark.length, 0, 0, 0, 0, false⟩

/-- The trees right under the root. -/
def Tree.children : Tree → List Tree
  | .leaf _ => []
  | .list _ _ children => children
  | .prefixed _ operand => [operand]

/-- A node with links to its first and its last child and to its next sibling. -/
def AstNode.linked (node : AstNode) (children : List Nat) (next : Nat) : AstNode :=
  { node with first := children.head?.getD 0, last := children.getLast?.getD 0, next }

mutual

/-- The nodes of a tree whose root has a reference and a next sibling. -/
def Tree.encode (reference next : Nat) : Tree → List AstNode
  | .leaf token => [(Tree.leaf token).root.linked [] next]
  | .list opening closing children =>
      (Tree.list opening closing children).root.linked (roots (reference + 1) children) next ::
        encodeSiblings (reference + 1) 0 children
  | .prefixed mark operand =>
      (Tree.prefixed mark operand).root.linked [reference + 1] next ::
        operand.encode (reference + 1) 0

/-- The nodes of trees that are linked to each other, and the last of them to a next node. -/
def encodeSiblings (reference next : Nat) : List Tree → List AstNode
  | [] => []
  | tree :: trees =>
      tree.encode reference (if trees.isEmpty then next else reference + tree.size) ++
        encodeSiblings (reference + tree.size) next trees

end

/-- The nodes of the trees of a file, whose roots are not linked to each other. -/
def encodeRoots (reference : Nat) : List Tree → List AstNode
  | [] => []
  | tree :: trees => tree.encode reference 0 ++ encodeRoots (reference + tree.size) trees

/-- What holds of a tree when it holds of the trees under it holds of every tree. -/
theorem Tree.induction {motive : Tree → Prop}
    (step : ∀ tree : Tree, (∀ child ∈ tree.children, motive child) → motive tree) (tree : Tree) :
    motive tree := by
  refine @Tree.rec motive (fun trees => ∀ child ∈ trees, motive child) ?_ ?_ ?_ ?_ ?_ tree
  · exact fun token => step (.leaf token) (fun _ member => absurd member List.not_mem_nil)
  · exact fun opening closing children below => step (.list opening closing children) below
  · intro mark operand below
    apply step
    intro child member
    cases List.mem_singleton.mp member
    exact below
  · exact fun _ member => absurd member List.not_mem_nil
  · intro tree trees one others child member
    cases List.mem_cons.mp member with
    | inl head => exact head ▸ one
    | inr tail => exact others child tail

theorem Tree.size_eq (tree : Tree) : tree.size = 1 + sizes tree.children := by
  cases tree with
  | leaf token => rfl
  | list opening closing children => rw [Tree.size, Tree.children]
  | prefixed mark operand => rw [Tree.size, Tree.children, sizes, sizes, Nat.add_zero]

theorem Tree.encode_eq (tree : Tree) (reference next : Nat) :
    tree.encode reference next =
      tree.root.linked (roots (reference + 1) tree.children) next ::
        encodeSiblings (reference + 1) 0 tree.children := by
  cases tree with
  | leaf token => rw [Tree.encode, Tree.children, roots, encodeSiblings]
  | list opening closing children => rw [Tree.encode, Tree.children]
  | prefixed mark operand =>
      rw [Tree.encode, Tree.children, roots, roots, encodeSiblings, encodeSiblings,
        List.isEmpty_nil, if_pos rfl, List.append_nil]

theorem Tree.size_pos (tree : Tree) : 0 < tree.size := by
  rw [tree.size_eq]
  omega

theorem sizes_append (first second : List Tree) :
    sizes (first ++ second) = sizes first + sizes second := by
  induction first with
  | nil => rw [List.nil_append, sizes, Nat.zero_add]
  | cons tree trees ih => rw [List.cons_append, sizes, sizes, ih, Nat.add_assoc]

theorem roots_append (reference : Nat) (first second : List Tree) :
    roots reference (first ++ second) =
      roots reference first ++ roots (reference + sizes first) second := by
  induction first generalizing reference with
  | nil => rw [List.nil_append, roots, List.nil_append, sizes, Nat.add_zero]
  | cons tree trees ih =>
      rw [List.cons_append, roots, roots, ih, sizes, Nat.add_assoc, List.cons_append]

theorem encodeSiblings_concat (reference next : Nat) (trees : List Tree) (tree : Tree) :
    encodeSiblings reference next (trees ++ [tree]) =
      encodeSiblings reference (reference + sizes trees) trees ++
        tree.encode (reference + sizes trees) next := by
  induction trees generalizing reference with
  | nil =>
      rw [List.nil_append, encodeSiblings, encodeSiblings, encodeSiblings, List.isEmpty_nil,
        if_pos rfl, sizes, Nat.add_zero, List.append_nil, List.nil_append]
  | cons head trees ih =>
      have inner : (trees ++ [tree]).isEmpty = false := by
        cases trees <;> rfl
      rw [List.cons_append, encodeSiblings, encodeSiblings, ih, inner, sizes, Nat.add_assoc,
        List.append_assoc]
      congr 2
      cases trees with
      | nil => simp only [Bool.false_eq_true, ↓reduceIte, List.isEmpty_nil, sizes, Nat.add_zero]
      | cons other trees => rfl

theorem encodeRoots_concat (reference : Nat) (trees : List Tree) (tree : Tree) :
    encodeRoots reference (trees ++ [tree]) =
      encodeRoots reference trees ++ tree.encode (reference + sizes trees) 0 := by
  induction trees generalizing reference with
  | nil =>
      rw [List.nil_append, encodeRoots, encodeRoots, encodeRoots, sizes, Nat.add_zero,
        List.append_nil, List.nil_append]
  | cons head trees ih =>
      rw [List.cons_append, encodeRoots, encodeRoots, ih, sizes, Nat.add_assoc, List.append_assoc]

theorem length_encodeSiblings_of {trees : List Tree}
    (each : ∀ tree ∈ trees, ∀ reference next, (tree.encode reference next).length = tree.size)
    (reference next : Nat) : (encodeSiblings reference next trees).length = sizes trees := by
  induction trees generalizing reference with
  | nil => rw [encodeSiblings, sizes, List.length_nil]
  | cons tree trees ih =>
      rw [encodeSiblings, sizes, List.length_append, each tree List.mem_cons_self,
        ih fun other member => each other (List.mem_cons_of_mem tree member)]

theorem Tree.length_encode (tree : Tree) (reference next : Nat) :
    (tree.encode reference next).length = tree.size := by
  induction tree using Tree.induction generalizing reference next with
  | step tree below =>
      rw [tree.encode_eq, List.length_cons, length_encodeSiblings_of below, tree.size_eq,
        Nat.add_comm]

theorem length_encodeSiblings (reference next : Nat) (trees : List Tree) :
    (encodeSiblings reference next trees).length = sizes trees :=
  length_encodeSiblings_of (fun tree _ => tree.length_encode) reference next

theorem length_encodeRoots (reference : Nat) (trees : List Tree) :
    (encodeRoots reference trees).length = sizes trees := by
  induction trees generalizing reference with
  | nil => rw [encodeRoots, sizes, List.length_nil]
  | cons tree trees ih =>
      rw [encodeRoots, sizes, List.length_append, tree.length_encode, ih]

theorem Form.ne_nil {tokens : List Token} {tree : Tree} (form : Form tokens tree) :
    tokens ≠ [] := by
  cases form <;> exact List.cons_ne_nil _ _

/-- No form starts with a closing parenthesis. -/
theorem Form.head_ne_closing {token : Token} {rest : List Token} {tree : Tree}
    (form : Form (token :: rest) tree) : token.kind ≠ .closing := by
  intro closes
  cases form with
  | leaf kind =>
      rw [closes] at kind
      cases kind
  | list opens body _ =>
      rw [closes] at opens
      cases opens
  | prefixed kind body =>
      rw [closes] at kind
      cases kind

theorem TokenKind.not_isLeaf_of_takesOperand {kind : TokenKind} (mark : kind.takesOperand = true) :
    ¬kind.isLeaf = true := by
  cases kind <;> simp [takesOperand, isLeaf] at mark ⊢

mutual

/-- A token sequence starts with at most one form. -/
theorem Form.unique {tokens others rest beyond : List Token} {tree other : Tree} :
    Form tokens tree → Form others other → tokens ++ rest = others ++ beyond →
      tokens = others ∧ tree = other
  | .leaf kind, form, same => by
      cases form with
      | leaf otherKind =>
          cases same
          exact ⟨rfl, rfl⟩
      | list opens body closes =>
          rw [(List.cons.inj same).1, opens] at kind
          cases kind
      | prefixed otherKind body =>
          rw [(List.cons.inj same).1] at kind
          exact absurd kind (TokenKind.not_isLeaf_of_takesOperand otherKind)
  | .list opens body closes, form, same => by
      cases form with
      | leaf kind =>
          rw [← (List.cons.inj same).1, opens] at kind
          cases kind
      | list otherOpens otherBody otherCloses =>
          rw [List.cons_append, List.cons_append, List.append_assoc, List.append_assoc] at same
          obtain ⟨rfl, tails⟩ := List.cons.inj same
          obtain ⟨rfl, rfl, rfl⟩ := Forms.unique_closed body closes otherBody otherCloses tails
          exact ⟨rfl, rfl⟩
      | prefixed kind operand =>
          rw [← (List.cons.inj same).1, opens] at kind
          cases kind
  | .prefixed kind body, form, same => by
      cases form with
      | leaf otherKind =>
          rw [← (List.cons.inj same).1] at otherKind
          exact absurd otherKind (TokenKind.not_isLeaf_of_takesOperand kind)
      | list opens others closes =>
          rw [(List.cons.inj same).1, opens] at kind
          cases kind
      | prefixed otherKind otherBody =>
          obtain ⟨rfl, tails⟩ := List.cons.inj same
          obtain ⟨rfl, rfl⟩ := Form.unique body otherBody tails
          exact ⟨rfl, rfl⟩

/-- A token sequence has at most one sequence of forms before a closing parenthesis. -/
theorem Forms.unique_closed {tokens others rest beyond : List Token} {trees otherTrees : List Tree}
    {closing otherClosing : Token} :
    Forms tokens trees → closing.kind = .closing → Forms others otherTrees →
      otherClosing.kind = .closing → tokens ++ closing :: rest = others ++ otherClosing :: beyond →
      tokens = others ∧ closing = otherClosing ∧ trees = otherTrees
  | .nil, closes, forms, otherCloses, same => by
      cases forms with
      | nil =>
          cases same
          exact ⟨rfl, rfl, rfl⟩
      | cons first others =>
          obtain ⟨token, tail, rfl⟩ := List.exists_cons_of_ne_nil first.ne_nil
          cases same
          exact absurd closes first.head_ne_closing
  | .cons first others, closes, forms, otherCloses, same => by
      cases forms with
      | nil =>
          obtain ⟨token, tail, rfl⟩ := List.exists_cons_of_ne_nil first.ne_nil
          cases same
          exact absurd otherCloses first.head_ne_closing
      | cons otherFirst otherRest =>
          rw [List.append_assoc, List.append_assoc] at same
          obtain ⟨rfl, rfl⟩ := Form.unique first otherFirst same
          obtain ⟨rfl, rfl, rfl⟩ := Forms.unique_closed others closes otherRest otherCloses
            (List.append_cancel_left same)
          exact ⟨rfl, rfl, rfl⟩

end

/-- A token sequence has at most one sequence of trees. -/
theorem Forms.unique {tokens : List Token} {trees others : List Tree} :
    Forms tokens trees → Forms tokens others → trees = others := by
  intro forms other
  induction trees generalizing tokens others with
  | nil =>
      cases forms
      generalize shape : ([] : List Token) = tokens at other
      cases other with
      | nil => rfl
      | cons first rest =>
          exact absurd (List.append_eq_nil_iff.mp shape.symm).1 first.ne_nil
  | cons tree trees ih =>
      cases forms with
      | @cons front back tree trees first rest =>
          generalize shape : front ++ back = tokens at other
          cases other with
          | nil => exact absurd (List.append_eq_nil_iff.mp shape).1 first.ne_nil
          | cons otherFirst otherRest =>
              obtain ⟨rfl, rfl⟩ := Form.unique first otherFirst shape
              rw [List.append_cancel_left_eq] at shape
              subst shape
              rw [ih rest otherRest]

end Native
