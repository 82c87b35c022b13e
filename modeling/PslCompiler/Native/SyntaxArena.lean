import PslCompiler.Native.Parsing
import Mathlib.Data.List.Perm.Basic

/-! # The syntax arena

The parser accepts exactly the token sequences of the grammar, and the arena it leaves is the tree
of the input: every node has one parent or is a top-level form, links and references follow source
order, and spans stand in order inside the input. The span of a list holds the spans of its
children; the span of a reader mark is its own token and stands before its operand.
-/

namespace Native

open Buffers

/-- The nodes on a chain of siblings that starts at a reference. -/
def siblings (nodes : Nat → AstNode) : Nat → Nat → List Nat
  | 0, _ => []
  | count + 1, reference =>
      if reference = 0 then [] else reference :: siblings nodes count (nodes reference).next

/-- The children of a node, along its links. -/
def Parser.children (parser : Parser) (reference : Nat) : List Nat :=
  siblings parser.nodes parser.count (parser.nodes reference).first

/-- The position after a node. -/
def AstNode.finish (node : AstNode) : Nat :=
  node.start + node.length

theorem siblings_zero (nodes : Nat → AstNode) (count : Nat) : siblings nodes count 0 = [] := by
  cases count <;> rfl

/-- The trees are stored one after another from a reference on. -/
def Placed (nodes : Nat → AstNode) (reference : Nat) : List Tree → Prop
  | [] => True
  | tree :: trees =>
      (∃ next, Stores nodes reference (tree.encode reference next)) ∧
        Placed nodes (reference + tree.size) trees

theorem placed_siblings {nodes : Nat → AstNode} {next : Nat} : ∀ {trees : List Tree}
    {reference : Nat}, Stores nodes reference (encodeSiblings reference next trees) →
      Placed nodes reference trees := by
  intro trees
  induction trees with
  | nil => exact fun _ => trivial
  | cons tree trees ih =>
      intro reference stored
      rw [encodeSiblings] at stored
      have others := stored.right
      rw [tree.length_encode] at others
      exact ⟨⟨_, stored.left⟩, ih others⟩

theorem placed_roots {nodes : Nat → AstNode} : ∀ {trees : List Tree} {reference : Nat},
    Stores nodes reference (encodeRoots reference trees) → Placed nodes reference trees := by
  intro trees
  induction trees with
  | nil => exact fun _ => trivial
  | cons tree trees ih =>
      intro reference stored
      rw [encodeRoots] at stored
      have others := stored.right
      rw [tree.length_encode] at others
      exact ⟨⟨_, stored.left⟩, ih others⟩

/-- The siblings of a stored node are the roots of the stored trees. -/
theorem siblings_roots {nodes : Nat → AstNode} : ∀ {trees : List Tree} {reference count : Nat},
    0 < reference → sizes trees ≤ count →
      Stores nodes reference (encodeSiblings reference 0 trees) →
      siblings nodes count ((roots reference trees).head?.getD 0) = roots reference trees := by
  intro trees
  induction trees with
  | nil => exact fun _ _ _ => siblings_zero nodes _
  | cons tree trees ih =>
      intro reference count positive enough stored
      rw [sizes] at enough
      have size := tree.size_pos
      obtain ⟨less, rfl⟩ := Nat.exists_eq_succ_of_ne_zero (show count ≠ 0 by omega)
      rw [encodeSiblings] at stored
      have root := stored.left
      have others := stored.right
      rw [tree.encode_eq] at root
      rw [tree.length_encode] at others
      have next : (nodes reference).next = (roots (reference + tree.size) trees).head?.getD 0 := by
        rw [root.head]
        cases trees with
        | nil => rfl
        | cons other trees => rfl
      rw [roots, List.head?_cons, Option.getD_some, siblings, if_neg (Nat.ne_of_gt positive), next,
        ih (by omega) (by omega) others]

/-- The children of a stored tree are the roots of the trees under it. -/
theorem children_roots {parser : Parser} {reference next : Nat} {tree : Tree}
    (stored : Stores parser.nodes reference (tree.encode reference next))
    (enough : tree.size ≤ parser.count) :
    parser.children reference = roots (reference + 1) tree.children := by
  rw [tree.encode_eq] at stored
  rw [tree.size_eq] at enough
  rw [Parser.children, stored.head]
  exact siblings_roots (Nat.succ_pos _) (by omega) stored.tail

/-- The roots of stored trees and the children of their nodes are all the nodes there are, each
once. -/
theorem perm_placed_of {parser : Parser} : ∀ {trees : List Tree} {reference : Nat},
    (∀ tree ∈ trees, ∀ reference next, tree.size ≤ parser.count →
      Stores parser.nodes reference (tree.encode reference next) →
      List.Perm (reference :: (List.range' reference tree.size).flatMap parser.children)
        (List.range' reference tree.size)) →
    sizes trees ≤ parser.count → Placed parser.nodes reference trees →
    List.Perm
      (roots reference trees ++
        (List.range' reference (sizes trees)).flatMap parser.children)
      (List.range' reference (sizes trees)) := by
  intro trees
  induction trees with
  | nil => exact fun _ _ _ => .refl _
  | cons tree trees ih =>
      intro reference each enough placed
      obtain ⟨⟨next, stored⟩, others⟩ := placed
      rw [sizes] at enough
      have one := each tree List.mem_cons_self reference next (by omega) stored
      have rest := ih (fun other member => each other (List.mem_cons_of_mem tree member))
        (by omega) others
      rw [sizes, ← List.range'_append_1, List.flatMap_append, roots, List.cons_append]
      refine List.Perm.trans ?_ (one.append rest)
      exact (List.perm_append_comm_assoc _ _ _).cons reference

theorem perm_tree {parser : Parser} (tree : Tree) (reference next : Nat)
    (enough : tree.size ≤ parser.count)
    (stored : Stores parser.nodes reference (tree.encode reference next)) :
    List.Perm (reference :: (List.range' reference tree.size).flatMap parser.children)
      (List.range' reference tree.size) := by
  induction tree using Tree.induction generalizing reference next with
  | step tree below =>
      have children := children_roots stored enough
      rw [tree.encode_eq] at stored
      have placed := placed_siblings stored.tail
      rw [tree.size_eq] at enough
      rw [tree.size_eq, Nat.add_comm 1, List.range'_succ, List.flatMap_cons, children]
      apply List.Perm.cons
      exact perm_placed_of (fun child member reference next => below child member reference next)
        (by omega) placed

theorem perm_placed {parser : Parser} {trees : List Tree} {reference : Nat}
    (enough : sizes trees ≤ parser.count) (placed : Placed parser.nodes reference trees) :
    List.Perm
      (roots reference trees ++ (List.range' reference (sizes trees)).flatMap parser.children)
      (List.range' reference (sizes trees)) :=
  perm_placed_of (fun tree _ => perm_tree tree) enough placed

theorem roots_ordered : ∀ (trees : List Tree) (reference : Nat),
    (roots reference trees).Pairwise (· < ·) ∧
      ∀ root ∈ roots reference trees, reference ≤ root := by
  intro trees
  induction trees with
  | nil => exact fun _ => ⟨.nil, fun _ member => absurd member List.not_mem_nil⟩
  | cons tree trees ih =>
      intro reference
      obtain ⟨ordered, above⟩ := ih (reference + tree.size)
      have size := tree.size_pos
      rw [roots]
      constructor
      · refine List.pairwise_cons.mpr ⟨fun root member => ?_, ordered⟩
        have bound := above root member
        omega
      · intro root member
        cases List.mem_cons.mp member with
        | inl head => exact Nat.le_of_eq head.symm
        | inr tail =>
            have bound := above root tail
            omega

/-- The spans of a token sequence stand in order. -/
def Ordered (tokens : List Token) : Prop :=
  tokens.Pairwise fun first second => first.finish ≤ second.start

theorem Form.children {tokens : List Token} {tree : Tree} (form : Form tokens tree) :
    ∃ body, Forms body tree.children ∧ body.Sublist tokens := by
  cases form with
  | leaf kind => exact ⟨[], .nil, List.nil_sublist _⟩
  | list opens body closes =>
      exact ⟨_, body, (List.sublist_append_left _ _).trans (List.sublist_cons_self _ _)⟩
  | @prefixed mark tokens operand kind body =>
      refine ⟨tokens ++ [], .cons body .nil, ?_⟩
      rw [List.append_nil]
      exact List.sublist_cons_self _ _

/-- A form starts with its first token and ends with one of its tokens. -/
theorem Form.root_span {tokens : List Token} {tree : Tree} (form : Form tokens tree)
    (ordered : Ordered tokens) :
    (∃ first ∈ tokens, tree.root.start = first.start) ∧
      ∃ last ∈ tokens, tree.root.finish ≤ last.finish := by
  cases form with
  | leaf kind =>
      exact ⟨⟨_, List.mem_singleton_self _, rfl⟩, _, List.mem_singleton_self _, Nat.le_refl _⟩
  | @list opening closing body children opens forms closes =>
      have member : closing ∈ body ++ [closing] := List.mem_append_right _ List.mem_cons_self
      have after := (List.pairwise_cons.mp ordered).1 closing member
      refine ⟨⟨opening, List.mem_cons_self, rfl⟩, closing, List.mem_cons_of_mem _ member, ?_⟩
      have starts : opening.start ≤ opening.finish := Nat.le_add_right _ _
      have ends : closing.start ≤ closing.finish := Nat.le_add_right _ _
      have finish : opening.start + (closing.finish - opening.start) ≤ closing.finish := by
        omega
      exact finish
  | prefixed kind body =>
      exact ⟨⟨_, List.mem_cons_self, rfl⟩, _, List.mem_cons_self, Nat.le_refl _⟩

/-- The spans of stored trees stand in order, and each stands among the tokens of its form. -/
theorem roots_spans {nodes : Nat → AstNode} : ∀ {trees : List Tree} {tokens : List Token}
    {reference : Nat}, Forms tokens trees → Placed nodes reference trees → Ordered tokens →
      (roots reference trees).Pairwise
        (fun first second => (nodes first).finish ≤ (nodes second).start) ∧
      ∀ root ∈ roots reference trees, (∃ first ∈ tokens, (nodes root).start = first.start) ∧
        ∃ last ∈ tokens, (nodes root).finish ≤ last.finish := by
  intro trees
  induction trees with
  | nil =>
      intro tokens reference _ _ _
      exact ⟨.nil, fun _ member => absurd member List.not_mem_nil⟩
  | cons tree trees ih =>
      intro tokens reference forms placed ordered
      cases forms with
      | @cons tokens others tree trees first rest =>
          obtain ⟨⟨next, stored⟩, placed⟩ := placed
          obtain ⟨here, there, between⟩ := List.pairwise_append.mp ordered
          obtain ⟨laterOrdered, later⟩ := ih rest placed there
          obtain ⟨⟨head, headMember, start⟩, last, lastMember, finish⟩ := first.root_span here
          rw [tree.encode_eq] at stored
          have root := stored.head
          rw [roots]
          constructor
          · refine List.pairwise_cons.mpr ⟨?_, laterOrdered⟩
            intro other member
            obtain ⟨⟨next, nextMember, begins⟩, _⟩ := later other member
            rw [begins, root]
            exact Nat.le_trans finish (between last lastMember next nextMember)
          · intro other member
            cases List.mem_cons.mp member with
            | inl same =>
                rw [same, root]
                exact ⟨⟨head, List.mem_append_left _ headMember, start⟩, last,
                  List.mem_append_left _ lastMember, finish⟩
            | inr tail =>
                obtain ⟨⟨next, nextMember, begins⟩, final, finalMember, ends⟩ := later other tail
                exact ⟨⟨next, List.mem_append_right _ nextMember, begins⟩, final,
                  List.mem_append_right _ finalMember, ends⟩

/-- Every node of stored trees is the root of a stored form. -/
theorem forms_at_of {nodes : Nat → AstNode} : ∀ {trees : List Tree} {tokens : List Token}
    {reference : Nat},
    (∀ tree ∈ trees, ∀ tokens reference next, Form tokens tree →
      Stores nodes reference (tree.encode reference next) →
      ∀ other, reference ≤ other → other < reference + tree.size →
        ∃ inner next form, Stores nodes other (inner.encode other next) ∧ Form form inner ∧
          form.Sublist tokens ∧ inner.size ≤ tree.size) →
    Forms tokens trees → Placed nodes reference trees →
    ∀ other, reference ≤ other → other < reference + sizes trees →
      ∃ inner next form, Stores nodes other (inner.encode other next) ∧ Form form inner ∧
        form.Sublist tokens ∧ inner.size ≤ sizes trees := by
  intro trees
  induction trees with
  | nil =>
      intro tokens reference _ _ _ other above below
      rw [sizes] at below
      omega
  | cons tree trees ih =>
      intro tokens reference each forms placed other above below
      cases forms with
      | @cons tokens others tree trees first rest =>
          obtain ⟨⟨next, stored⟩, placed⟩ := placed
          rw [sizes] at below ⊢
          by_cases inside : other < reference + tree.size
          · obtain ⟨inner, next, form, found, parsed, sub, size⟩ :=
              each tree List.mem_cons_self tokens reference next first stored other above inside
            exact ⟨inner, next, form, found, parsed, sub.trans (List.sublist_append_left _ _),
              by omega⟩
          · obtain ⟨inner, next, form, found, parsed, sub, size⟩ :=
              ih (fun tree member => each tree (List.mem_cons_of_mem _ member)) rest placed other
                (by omega) (by omega)
            exact ⟨inner, next, form, found, parsed, sub.trans (List.sublist_append_right _ _),
              by omega⟩

theorem form_at {nodes : Nat → AstNode} (tree : Tree) (tokens : List Token)
    (reference next : Nat) (form : Form tokens tree)
    (stored : Stores nodes reference (tree.encode reference next)) (other : Nat)
    (above : reference ≤ other) (below : other < reference + tree.size) :
    ∃ inner next form, Stores nodes other (inner.encode other next) ∧ Form form inner ∧
      form.Sublist tokens ∧ inner.size ≤ tree.size := by
  induction tree using Tree.induction generalizing tokens reference next other with
  | step tree inner =>
      by_cases same : other = reference
      · subst same
        exact ⟨tree, next, tokens, stored, form, List.Sublist.refl _, Nat.le_refl _⟩
      · obtain ⟨body, forms, sub⟩ := form.children
        rw [tree.encode_eq] at stored
        rw [tree.size_eq] at below ⊢
        obtain ⟨found, next, form, place, parsed, within, size⟩ :=
          forms_at_of inner forms (placed_siblings stored.tail) other (by omega) (by omega)
        exact ⟨found, next, form, place, parsed, within.trans sub, by omega⟩

theorem forms_at {nodes : Nat → AstNode} {trees : List Tree} {tokens : List Token}
    {reference : Nat} (forms : Forms tokens trees) (placed : Placed nodes reference trees)
    (other : Nat) (above : reference ≤ other) (below : other < reference + sizes trees) :
    ∃ inner next form, Stores nodes other (inner.encode other next) ∧ Form form inner ∧
      form.Sublist tokens ∧ inner.size ≤ sizes trees :=
  forms_at_of (fun tree _ => form_at tree) forms placed other above below

/-- The arena of a parser is a sequence of trees over an input of the given size, whose roots have
the given references. -/
structure TreeArena (size : Nat) (references : List Nat) (parser : Parser) : Prop where
  reached : List.Perm (references ++ (List.range' 1 parser.count).flatMap parser.children)
    (List.range' 1 parser.count)
  above : ∀ parent, 0 < parent → parent ≤ parser.count →
    ∀ child ∈ parser.children parent, parent < child
  ordered : ∀ parent, 0 < parent → parent ≤ parser.count →
    (parser.children parent).Pairwise fun first second =>
      first < second ∧ (parser.nodes first).finish ≤ (parser.nodes second).start
  rootsOrdered : references.Pairwise fun first second =>
    first < second ∧ (parser.nodes first).finish ≤ (parser.nodes second).start
  last : ∀ parent, 0 < parent → parent ≤ parser.count →
    (parser.nodes parent).last = (parser.children parent).getLast?.getD 0
  bounded : ∀ reference, 0 < reference → reference ≤ parser.count →
    (parser.nodes reference).finish ≤ size
  leaves : ∀ reference, 0 < reference → reference ≤ parser.count →
    (parser.nodes reference).kind.isLeaf = true → parser.children reference = []
  nested : ∀ parent, 0 < parent → parent ≤ parser.count →
    (parser.nodes parent).kind = .opening → ∀ child ∈ parser.children parent,
      (parser.nodes parent).start ≤ (parser.nodes child).start ∧
        (parser.nodes child).finish ≤ (parser.nodes parent).finish
  marked : ∀ parent, 0 < parent → parent ≤ parser.count →
    (parser.nodes parent).kind.takesOperand = true →
      ∃ operand, parser.children parent = [operand] ∧
        (parser.nodes parent).finish ≤ (parser.nodes operand).start

/-- What the arena holds about one node, which is the root of a stored form. -/
theorem node_facts {parser : Parser} {reference next : Nat} {tree : Tree} {tokens : List Token}
    (stored : Stores parser.nodes reference (tree.encode reference next))
    (form : Form tokens tree) (ordered : Ordered tokens) (enough : tree.size ≤ parser.count) :
    (∀ child ∈ parser.children reference, reference < child) ∧
      ((parser.children reference).Pairwise fun first second =>
        first < second ∧ (parser.nodes first).finish ≤ (parser.nodes second).start) ∧
      (parser.nodes reference).last = (parser.children reference).getLast?.getD 0 ∧
      (∃ token ∈ tokens, (parser.nodes reference).finish ≤ token.finish) := by
  have children := children_roots stored enough
  obtain ⟨body, forms, sub⟩ := form.children
  rw [tree.encode_eq] at stored
  have root := stored.head
  obtain ⟨spans, _⟩ := roots_spans forms (placed_siblings stored.tail) (ordered.sublist sub)
  obtain ⟨increasing, above⟩ := roots_ordered tree.children (reference + 1)
  rw [children, root]
  exact ⟨above, increasing.and spans, rfl, (form.root_span ordered).2⟩

/-- The spans of the children of a list stand inside its span. -/
theorem list_nested {parser : Parser} {reference next : Nat} {tree : Tree} {tokens : List Token}
    (stored : Stores parser.nodes reference (tree.encode reference next))
    (form : Form tokens tree) (ordered : Ordered tokens) (enough : tree.size ≤ parser.count)
    (kind : (parser.nodes reference).kind = .opening) :
    ∀ child ∈ parser.children reference,
      (parser.nodes reference).start ≤ (parser.nodes child).start ∧
        (parser.nodes child).finish ≤ (parser.nodes reference).finish := by
  rw [children_roots stored enough]
  rw [tree.encode_eq] at stored
  have root := stored.head
  rw [root] at kind ⊢
  cases form with
  | @leaf token leaf =>
      have opens : token.kind = .opening := kind
      rw [opens] at leaf
      cases leaf
  | @list opening closing body trees opens forms closes =>
      obtain ⟨after, inner⟩ := List.pairwise_cons.mp ordered
      obtain ⟨bodyOrdered, _, before⟩ := List.pairwise_append.mp inner
      obtain ⟨_, spans⟩ := roots_spans forms (placed_siblings stored.tail) bodyOrdered
      intro child member
      obtain ⟨⟨first, firstMember, starts⟩, last, lastMember, ends⟩ := spans child member
      have left := after first (List.mem_append_left _ firstMember)
      have right := before last lastMember closing List.mem_cons_self
      have opened : opening.start ≤ opening.finish := Nat.le_add_right _ _
      have closed : closing.start ≤ closing.finish := Nat.le_add_right _ _
      have within : opening.start ≤ first.start ∧
          last.finish ≤ opening.start + (closing.finish - opening.start) := by
        omega
      rw [starts]
      exact ⟨within.1, Nat.le_trans ends within.2⟩
  | @prefixed mark tokens operand takes body =>
      have opens : mark.kind = .opening := kind
      rw [opens] at takes
      cases takes

/-- The operand of a mark stands behind it. -/
theorem mark_before {parser : Parser} {reference next : Nat} {tree : Tree} {tokens : List Token}
    (stored : Stores parser.nodes reference (tree.encode reference next))
    (form : Form tokens tree) (ordered : Ordered tokens) (enough : tree.size ≤ parser.count)
    (kind : (parser.nodes reference).kind.takesOperand = true) :
    ∃ operand, parser.children reference = [operand] ∧
      (parser.nodes reference).finish ≤ (parser.nodes operand).start := by
  rw [children_roots stored enough]
  rw [tree.encode_eq] at stored
  have root := stored.head
  rw [root] at kind ⊢
  cases form with
  | leaf leaf => exact absurd leaf (TokenKind.not_isLeaf_of_takesOperand kind)
  | list opens forms closes => cases kind
  | @prefixed mark tokens operand takes body =>
      obtain ⟨after, inner⟩ := List.pairwise_cons.mp ordered
      have forms : Forms (tokens ++ []) [operand] := .cons body .nil
      rw [List.append_nil] at forms
      obtain ⟨_, spans⟩ := roots_spans forms (placed_siblings stored.tail) inner
      obtain ⟨⟨first, member, starts⟩, _⟩ := spans (reference + 1) List.mem_cons_self
      refine ⟨reference + 1, rfl, ?_⟩
      rw [starts]
      exact after first member

theorem leaf_childless {parser : Parser} {reference next : Nat} {tree : Tree}
    {tokens : List Token} (stored : Stores parser.nodes reference (tree.encode reference next))
    (form : Form tokens tree) (enough : tree.size ≤ parser.count)
    (kind : (parser.nodes reference).kind.isLeaf = true) : parser.children reference = [] := by
  rw [children_roots stored enough]
  rw [tree.encode_eq] at stored
  rw [stored.head] at kind
  cases form with
  | leaf leaf => rfl
  | list opens forms closes => cases kind
  | prefixed takes body => exact absurd kind (TokenKind.not_isLeaf_of_takesOperand takes)

/-- Stored forms make the arena a sequence of trees. -/
theorem treeArena_of_stored {parser : Parser} {size : Nat} {tokens : List Token}
    {trees : List Tree} (forms : Forms tokens trees) (ordered : Ordered tokens)
    (bounded : ∀ token ∈ tokens, token.finish ≤ size) (count : parser.count = sizes trees)
    (stored : Stores parser.nodes 1 (encodeRoots 1 trees)) :
    TreeArena size (roots 1 trees) parser := by
  have placed := placed_roots stored
  have at_ : ∀ reference, 0 < reference → reference ≤ parser.count →
      ∃ tree next form, Stores parser.nodes reference (tree.encode reference next) ∧
        Form form tree ∧ form.Sublist tokens ∧ tree.size ≤ parser.count := by
    intro reference positive below
    rw [count] at below ⊢
    exact forms_at forms placed reference positive (by omega)
  obtain ⟨spans, _⟩ := roots_spans forms placed ordered
  constructor
  · rw [count]
    exact perm_placed (Nat.le_of_eq count.symm) placed
  · intro parent positive below
    obtain ⟨tree, next, form, found, parsed, sub, enough⟩ := at_ parent positive below
    exact (node_facts found parsed (ordered.sublist sub) enough).1
  · intro parent positive below
    obtain ⟨tree, next, form, found, parsed, sub, enough⟩ := at_ parent positive below
    exact (node_facts found parsed (ordered.sublist sub) enough).2.1
  · exact (roots_ordered trees 1).1.and spans
  · intro parent positive below
    obtain ⟨tree, next, form, found, parsed, sub, enough⟩ := at_ parent positive below
    exact (node_facts found parsed (ordered.sublist sub) enough).2.2.1
  · intro reference positive below
    obtain ⟨tree, next, form, found, parsed, sub, enough⟩ := at_ reference positive below
    obtain ⟨token, member, ends⟩ :=
      (node_facts found parsed (ordered.sublist sub) enough).2.2.2
    exact Nat.le_trans ends (bounded token (sub.subset member))
  · intro reference positive below kind
    obtain ⟨tree, next, form, found, parsed, sub, enough⟩ := at_ reference positive below
    exact leaf_childless found parsed enough kind
  · intro parent positive below kind
    obtain ⟨tree, next, form, found, parsed, sub, enough⟩ := at_ parent positive below
    exact list_nested found parsed (ordered.sublist sub) enough kind
  · intro parent positive below kind
    obtain ⟨tree, next, form, found, parsed, sub, enough⟩ := at_ parent positive below
    exact mark_before found parsed (ordered.sublist sub) enough kind

/-- The parser accepts exactly the token sequences of the grammar whose trees fit the arena, and
what it builds is those trees. -/
theorem parser_exact (data : List UInt8) (token : Token) (nodes : Nat → AstNode)
    (capacity count calls : Nat) (deep : (tokenize data).length ≤ count)
    (enough : (tokenize data).length ≤ calls) :
    ∃ references after read rest trees,
      Parser.forms count calls (Parser.start data token nodes capacity) =
        some (references, after) ∧
      tokenize data = read ++ rest ∧ Forms read trees ∧
      (∀ others, Forms read others → others = trees) ∧
      references = roots 1 trees ∧ Stores after.nodes 1 (encodeRoots 1 trees) ∧
      sizes trees ≤ capacity ∧
      (after.error = .none → after.count = sizes trees ∧
        (∃ last, rest = [last] ∧ last.kind = .endOfFile) ∧
        TreeArena data.length references after) ∧
      (after.error ≠ .none → ∀ form others tree, rest = form ++ others → Form form tree →
        capacity < sizes trees + tree.size) ∧
      (after.error = .none ↔ ∃ whole last trees, tokenize data = whole ++ [last] ∧
        last.kind = .endOfFile ∧ Forms whole trees ∧ sizes trees ≤ capacity) := by
  have pending : (Parser.start data token nodes capacity).Pending (tokenize data) :=
    .inl ⟨rfl, tokenize_streams data⟩
  obtain ⟨references, after, read, rest, trees, returned, ran⟩ :=
    Parser.forms_outcome pending rfl (Nat.zero_le _) deep enough
  obtain ⟨bounded, ordered⟩ := (tokenize_streams data).ordered (Nat.zero_le _)
  have fits : sizes trees ≤ capacity := Nat.zero_add (sizes trees) ▸ ran.fits
  have ended : after.error = .none → after.count = sizes trees ∧
      ∃ last, rest = [last] ∧ last.kind = .endOfFile := by
    intro clean
    obtain ⟨counted, last⟩ := ran.ended clean
    exact ⟨counted.trans (Nat.zero_add _), last⟩
  refine ⟨references, after, read, rest, trees, returned, ran.split, ran.forms,
    fun others forms => forms.unique ran.forms, ran.references, ran.stored, fits, ?_, ?_, ?_, ?_⟩
  · intro clean
    obtain ⟨counted, last⟩ := ended clean
    refine ⟨counted, last, ran.references ▸ treeArena_of_stored ran.forms ?_ ?_ counted ran.stored⟩
    · rw [ran.split] at ordered
      exact (List.pairwise_append.mp ordered).1
    · intro one member
      exact (bounded one (ran.split ▸ List.mem_append_left _ member)).2
  · intro failed form others tree shape parsed
    have bound := (ran.failed failed).2 form others tree shape parsed
    exact (Nat.zero_add (sizes trees)) ▸ bound
  · intro clean
    obtain ⟨_, last, shape, ends⟩ := ended clean
    exact ⟨read, last, trees, shape ▸ ran.split, ends, ran.forms, fits⟩
  · rintro ⟨whole, last, forest, shape, ends, forms, room⟩
    rw [shape] at pending
    rw [shape, List.length_append, List.length_singleton] at deep enough
    have fewer := forms.length_le
    obtain ⟨_, other, complete, clean⟩ := Parser.forms_complete ends forms pending rfl
      ((Nat.zero_add _).symm ▸ room) deep (Nat.lt_of_le_of_lt fewer enough)
    rw [returned] at complete
    cases complete
    exact clean

/-- The input `(a 'b)` is one form of four nodes. -/
theorem quoted_list_parsed :
    (tokenize [40, 97, 32, 39, 98, 41]).length = 6 ∧
      ∃ references after read rest trees,
        Parser.forms 6 6 (Parser.start [40, 97, 32, 39, 98, 41] ⟨.endOfFile, 0, 0⟩
          (fun _ => ⟨.endOfFile, 0, 0, 0, 0, 0, 0, false⟩) 4) = some (references, after) ∧
        tokenize [40, 97, 32, 39, 98, 41] = read ++ rest ∧ Forms read trees ∧
        references = roots 1 trees ∧ Stores after.nodes 1 (encodeRoots 1 trees) ∧
        sizes trees ≤ 4 := by
  have length : (tokenize [40, 97, 32, 39, 98, 41]).length = 6 := by decide +kernel
  obtain ⟨references, after, read, rest, trees, returned, split, forms, _, named, stored, fits, _⟩ :=
    parser_exact [40, 97, 32, 39, 98, 41] ⟨.endOfFile, 0, 0⟩
      (fun _ => ⟨.endOfFile, 0, 0, 0, 0, 0, 0, false⟩) 4 6 6 (Nat.le_of_eq length)
      (Nat.le_of_eq length)
  exact ⟨length, references, after, read, rest, trees, returned, split, forms, named, stored, fits⟩

/-- Spans are not nested under a reader mark: in `'a` the node of the quote ends where the node of
its operand begins. -/
theorem quote_span_excludes_operand :
    ¬∀ (data : List UInt8) (token : Token) (nodes : Nat → AstNode) (capacity count calls : Nat)
      (references : List Nat) (after : Parser),
      Parser.forms count calls (Parser.start data token nodes capacity) =
        some (references, after) → after.error = .none →
      ∀ parent, 0 < parent → parent ≤ after.count → ∀ child ∈ after.children parent,
        (after.nodes parent).start ≤ (after.nodes child).start ∧
          (after.nodes child).finish ≤ (after.nodes parent).finish := by
  intro nested
  let blank : Nat → AstNode := fun _ => ⟨.endOfFile, 0, 0, 0, 0, 0, 0, false⟩
  have run : (Parser.forms 3 3 (Parser.start [39, 97] ⟨.endOfFile, 0, 0⟩ blank 2)).map
      (fun result => (result.2.error, result.2.count, result.2.children 1,
        (result.2.nodes 1).finish, (result.2.nodes 2).finish)) =
      some (.none, 2, [2], 1, 2) := by
    decide +kernel
  obtain ⟨⟨references, after⟩, returned, facts⟩ := Option.map_eq_some_iff.mp run
  simp only [Prod.mk.injEq] at facts
  obtain ⟨clean, count, children, quote, operand⟩ := facts
  have inside := nested [39, 97] ⟨.endOfFile, 0, 0⟩ blank 2 3 3 references after returned clean 1
    Nat.one_pos (count ▸ Nat.le_succ 1) 2 (children ▸ List.mem_cons_self)
  rw [quote, operand] at inside
  omega

end Native
