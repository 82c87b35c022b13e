import PslCompiler.Native.Grammar

/-! # The parser and the grammar

The parser reads exactly the forms of the grammar. Where a form is next and its nodes fit the
arena, `next` returns it and stores its tree (`next_form`); and where `next` returns a form, the
tokens it has read are one (`next_outcome`).
-/

namespace Native

open Buffers

namespace Parser

/-- The parser looks at a token, and the others follow it. -/
structure Looking (parser : Parser) (token : Token) (rest : List Token) : Prop where
  present : parser.hasToken = true
  current : parser.token = token
  cursor : parser.scanner.cursor = token.finish
  ends : token.last = true → rest = []
  streams : token.last = false → Streams parser.scanner rest
  invalid : token.kind = .invalid → parser.error ≠ .none

/-- The tokens that the parser has not consumed. -/
def Pending (parser : Parser) (tokens : List Token) : Prop :=
  (parser.hasToken = false ∧ Streams parser.scanner tokens) ∨
    ∃ token rest, tokens = token :: rest ∧ parser.Looking token rest

/-- Two parsers with the same arena and error. -/
structure SameArena (before after : Parser) : Prop where
  nodes : after.nodes = before.nodes
  count : after.count = before.count
  capacity : after.capacity = before.capacity
  error : after.error = before.error

theorem Looking.pending {parser : Parser} {token : Token} {rest : List Token}
    (looking : parser.Looking token rest) : parser.Pending (token :: rest) :=
  .inr ⟨token, rest, rfl, looking⟩

theorem Pending.ne_nil {parser : Parser} {tokens : List Token} (pending : parser.Pending tokens) :
    tokens ≠ [] := by
  cases pending with
  | inl unread => exact unread.2.ne_nil
  | inr looking =>
      obtain ⟨token, rest, rfl, _⟩ := looking
      exact List.cons_ne_nil _ _

/-- Looking at a token delivers the first pending one. -/
theorem peek_looking {parser : Parser} {token : Token} {rest : List Token}
    (pending : parser.Pending (token :: rest)) :
    parser.peek.1 = token.kind ∧ parser.peek.2.Looking token rest := by
  cases pending with
  | inl unread =>
      obtain ⟨absent, streams⟩ := unread
      rw [peek, absent, if_neg Bool.false_ne_true]
      have finish := parser.scanner.scanNext_finish.symm
      cases streams with
      | ended last =>
          dsimp only
          split
          · exact ⟨rfl, rfl, rfl, finish, fun _ => rfl, fun more => absurd last (by simp [more]),
              fun _ => (by intro same; cases same)⟩
          · rename_i valid
            exact ⟨rfl, rfl, rfl, finish, fun _ => rfl, fun more => absurd last (by simp [more]),
              fun invalid => absurd invalid valid⟩
      | more more streams =>
          have valid : parser.scanner.scanNext.1.kind ≠ .invalid := by
            rw [Token.last, Bool.or_eq_false_iff] at more
            exact of_decide_eq_false more.2
          rw [if_neg valid]
          exact ⟨rfl, rfl, rfl, finish, fun last => absurd last (by simp [more]), fun _ => streams,
            fun invalid => absurd invalid valid⟩
  | inr looked =>
      obtain ⟨head, others, shape, looking⟩ := looked
      cases shape
      rw [peek, looking.present, if_pos rfl]
      exact ⟨congrArg Token.kind looking.current, looking⟩

theorem peek_sameArena {parser : Parser} {token : Token} {rest : List Token}
    (pending : parser.Pending (token :: rest)) (valid : token.kind ≠ .invalid) :
    SameArena parser parser.peek.2 := by
  have kind := (peek_looking pending).1
  rw [peek] at kind ⊢
  split
  · exact ⟨rfl, rfl, rfl, rfl⟩
  · rename_i absent
    rw [if_neg absent] at kind
    dsimp only at kind ⊢
    split
    · rename_i invalid
      rw [if_pos invalid] at kind
      exact absurd (kind.symm.trans invalid) valid
    · exact ⟨rfl, rfl, rfl, rfl⟩

theorem Looking.consume {parser : Parser} {token : Token} {rest : List Token}
    (looking : parser.Looking token rest) (more : token.last = false) :
    parser.consume.Pending rest :=
  .inl ⟨rfl, looking.streams more⟩

theorem SameArena.trans {first second third : Parser} (one : SameArena first second)
    (two : SameArena second third) : SameArena first third :=
  ⟨two.nodes.trans one.nodes, two.count.trans one.count, two.capacity.trans one.capacity,
    two.error.trans one.error⟩

theorem consume_sameArena (parser : Parser) : SameArena parser parser.consume :=
  ⟨rfl, rfl, rfl, rfl⟩

/-- A call of `next` reads the first pending token and parses a form that starts with it. -/
theorem next_reads {parser : Parser} {token : Token} {rest : List Token} (count : Nat)
    (pending : parser.Pending (token :: rest)) (clean : parser.error = .none)
    (more : token.last = false) :
    ∃ read : Parser, next (count + 1) parser =
        form (next count) count read token.kind token.start token.length ∧
      read.Pending rest ∧ SameArena parser read := by
  rw [Token.last, Bool.or_eq_false_iff, decide_eq_false_iff_not, decide_eq_false_iff_not] at more
  obtain ⟨kind, looking⟩ := peek_looking pending
  have arena := peek_sameArena pending more.2
  refine ⟨parser.peek.2.consume, ?_, looking.consume ?_, arena.trans (consume_sameArena _)⟩
  · rw [next, if_pos clean]
    have shape : parser.peek = (token.kind, parser.peek.2) := Prod.ext kind rfl
    rw [shape]
    split
    · rename_i found
      exact absurd (congrArg Prod.fst found) more.1
    · rename_i found
      exact absurd (congrArg Prod.fst found) more.2
    · rename_i found
      cases found
      rw [looking.current]
  · rw [Token.last, Bool.or_eq_false_iff]
    exact ⟨decide_eq_false more.1, decide_eq_false more.2⟩

/-- The arena of a parser after a node has been allocated. -/
theorem newNode_eq {parser : Parser} (kind : TokenKind) (start length : Nat)
    (room : parser.count < parser.capacity) :
    parser.newNode kind start length =
      (parser.count + 1,
        { parser with
          nodes := Function.update parser.nodes (parser.count + 1)
            ⟨kind, start, length, 0, 0, 0, 0, false⟩
          count := parser.count + 1 }) := by
  rw [newNode, if_pos room]

/-- A form has been parsed: its tree is stored after the nodes there were. -/
structure Built (before : Parser) (rest : List Token) (tree : Tree) (after : Parser) : Prop where
  pending : after.Pending rest
  error : after.error = .none
  capacity : after.capacity = before.capacity
  count : after.count = before.count + tree.size
  stored : Stores after.nodes (before.count + 1) (tree.encode (before.count + 1) 0)
  kept : ∀ reference ≤ before.count, after.nodes reference = before.nodes reference

/-- A list is open, and the trees of some of its children are stored. -/
structure Opened (nodes : Nat → AstNode) (reference : Nat) (node : AstNode) (done : List Tree)
    (now : Parser) : Prop where
  error : now.error = .none
  count : now.count = reference + sizes done
  stored : Stores now.nodes reference
    (node.linked (roots (reference + 1) done) 0 :: encodeSiblings (reference + 1) 0 done)
  kept : ∀ other < reference, now.nodes other = nodes other

theorem append_eq {parser : Parser} {parent child : Nat} (present : child ≠ 0) :
    parser.append parent child =
      (child, { parser with nodes := (parser.append parent child).2.nodes }) := by
  rw [append, if_neg present]

theorem append_nodes_first {parser : Parser} {parent child : Nat} (present : child ≠ 0)
    (childless : (parser.nodes parent).last = 0) :
    (parser.append parent child).2.nodes =
      Function.update parser.nodes parent
        { parser.nodes parent with first := child, last := child } := by
  rw [append, if_neg present]
  simp only [childless, ↓reduceIte, Function.update_self, Function.update_idem]

theorem append_nodes_other {parser : Parser} {parent child last : Nat} (present : child ≠ 0)
    (found : (parser.nodes parent).last = last) (positive : last ≠ 0) (other : parent ≠ last) :
    (parser.append parent child).2.nodes =
      Function.update (setNext parser.nodes last child) parent
        { parser.nodes parent with last := child } := by
  rw [append, if_neg present]
  simp only [found, positive, ↓reduceIte]
  rw [setNext, Function.update_of_ne other]

/-- Giving a stored tree a next sibling changes its root only. -/
theorem stores_setNext {nodes : Nat → AstNode} {reference next other : Nat} {tree : Tree}
    (stored : Stores nodes reference (tree.encode reference next)) :
    Stores (setNext nodes reference other) reference (tree.encode reference other) := by
  rw [tree.encode_eq] at stored ⊢
  apply Stores.cons
  · rw [setNext, Function.update_self, stored.head]
    rfl
  · apply stored.tail.congr
    intro index above _
    exact Function.update_of_ne (by omega) _ _

theorem getLast?_roots_concat (reference : Nat) (trees : List Tree) (tree : Tree) :
    (roots reference (trees ++ [tree])).getLast? = some (reference + sizes trees) := by
  rw [roots_append, roots, roots, List.getLast?_append, List.getLast?_singleton, Option.some_or]

/-- The first child stays the first when another is added. -/
theorem head?_roots_append (reference : Nat) (trees others : List Tree) (some : trees ≠ []) :
    (roots reference (trees ++ others)).head? = (roots reference trees).head? := by
  cases trees with
  | nil => exact absurd rfl some
  | cons tree trees => rfl

/-- Linking a stored tree behind the stored children of a node makes it the last of them. -/
theorem stores_append {parser : Parser} {reference child : Nat} {node : AstNode}
    {done : List Tree} {tree : Tree} (place : child = reference + 1 + sizes done)
    (stored : Stores parser.nodes reference
      (node.linked (roots (reference + 1) done) 0 :: encodeSiblings (reference + 1) 0 done))
    (added : Stores parser.nodes child (tree.encode child 0)) :
    Stores (parser.append reference child).2.nodes reference
      (node.linked (roots (reference + 1) (done ++ [tree])) 0 ::
        encodeSiblings (reference + 1) 0 (done ++ [tree])) := by
  have header := stored.head
  have present : child ≠ 0 := by omega
  have lastChild := getLast?_roots_concat (reference + 1) done tree
  rw [encodeSiblings_concat, ← place]
  rw [← place] at lastChild
  rcases List.eq_nil_or_concat done with rfl | ⟨init, last, rfl⟩
  · have childless : (parser.nodes reference).last = 0 := by
      rw [header]
      rfl
    rw [append_nodes_first present childless]
    rw [sizes, Nat.add_zero] at place
    subst place
    apply Stores.cons
    · rw [Function.update_self, header]
      rfl
    · apply Stores.congr added
      intro index above _
      exact Function.update_of_ne (by omega) _ _
  · rw [List.concat_eq_append] at *
    have found : (parser.nodes reference).last = reference + 1 + sizes init := by
      rw [header, AstNode.linked, getLast?_roots_concat]
      rfl
    have siblings := stored.tail
    rw [encodeSiblings_concat] at siblings
    have before := siblings.left
    have final := siblings.right
    rw [length_encodeSiblings] at final
    have sum : sizes (init ++ [last]) = sizes init + last.size := by
      rw [sizes_append, sizes, sizes, Nat.add_zero]
    have size := last.size_pos
    rw [append_nodes_other present found (by omega) (by omega)]
    apply Stores.cons
    · rw [Function.update_self, header]
      simp only [AstNode.linked, lastChild, Option.getD_some]
      rw [head?_roots_append _ (init ++ [last]) _ (List.append_ne_nil_of_right_ne_nil _ (by intro same; cases same))]
    · apply Stores.append
      · rw [encodeSiblings_concat]
        apply Stores.append
        · apply before.congr
          intro index above below
          rw [length_encodeSiblings] at below
          rw [Function.update_of_ne (by omega), setNext, Function.update_of_ne (by omega)]
        · rw [length_encodeSiblings]
          apply (stores_setNext final).congr
          intro index above _
          exact Function.update_of_ne (by omega) _ _
      · rw [length_encodeSiblings, ← place]
        apply added.congr
        intro index above _
        rw [Function.update_of_ne (by omega), setNext, Function.update_of_ne (by omega)]

theorem append_kept {parser : Parser} {reference child other : Nat} (present : child ≠ 0)
    (children : (parser.nodes reference).last = 0 ∨ reference < (parser.nodes reference).last)
    (below : other < reference) :
    (parser.append reference child).2.nodes other = parser.nodes other := by
  cases children with
  | inl childless =>
      rw [append_nodes_first present childless, Function.update_of_ne (by omega)]
  | inr above =>
      rw [append_nodes_other present rfl (by omega) (by omega),
        Function.update_of_ne (by omega), setNext, Function.update_of_ne (by omega)]

/-- Two parsers at the same place of their input. -/
structure SameInput (before after : Parser) : Prop where
  scanner : after.scanner = before.scanner
  token : after.token = before.token
  present : after.hasToken = before.hasToken
  error : after.error = before.error

theorem Looking.congr {before after : Parser} {token : Token} {rest : List Token}
    (looking : before.Looking token rest) (same : SameInput before after) :
    after.Looking token rest where
  present := same.present.trans looking.present
  current := same.token.trans looking.current
  cursor := (congrArg Scanner.cursor same.scanner).trans looking.cursor
  ends := looking.ends
  streams more := same.scanner ▸ looking.streams more
  invalid kind := same.error ▸ looking.invalid kind

theorem Pending.congr {before after : Parser} {tokens : List Token}
    (pending : before.Pending tokens) (same : SameInput before after) : after.Pending tokens := by
  cases pending with
  | inl unread => exact .inl ⟨same.present.trans unread.1, same.scanner ▸ unread.2⟩
  | inr looked =>
      obtain ⟨token, rest, shape, looking⟩ := looked
      exact .inr ⟨token, rest, shape, looking.congr same⟩

theorem append_sameInput (parser : Parser) (parent child : Nat) :
    SameInput parser (parser.append parent child).2 := by
  rw [append]
  split <;> exact ⟨rfl, rfl, rfl, rfl⟩

theorem append_count (parser : Parser) (parent child : Nat) :
    (parser.append parent child).2.count = parser.count ∧
      (parser.append parent child).2.capacity = parser.capacity := by
  rw [append]
  split <;> exact ⟨rfl, rfl⟩

/-- A parsed form becomes the next child of an open list. -/
theorem Opened.add {nodes : Nat → AstNode} {reference : Nat} {node : AstNode} {done : List Tree}
    {now after : Parser} {rest : List Token} {tree : Tree}
    (opened : Opened nodes reference node done now) (built : Built now rest tree after) :
    Opened nodes reference node (done ++ [tree])
        (after.append reference (now.count + 1)).2 ∧
      (after.append reference (now.count + 1)).2.Pending rest := by
  have same := append_sameInput after reference (now.count + 1)
  have place : now.count + 1 = reference + 1 + sizes done := by
    rw [opened.count]
    omega
  have stored : Stores after.nodes reference (node.linked (roots (reference + 1) done) 0 ::
      encodeSiblings (reference + 1) 0 done) := by
    apply opened.stored.congr
    intro index _ below
    rw [List.length_cons, length_encodeSiblings] at below
    exact built.kept index (by rw [opened.count]; omega)
  have children : (after.nodes reference).last = 0 ∨
      reference < (after.nodes reference).last := by
    rw [stored.head, AstNode.linked]
    rcases List.eq_nil_or_concat done with rfl | ⟨init, last, rfl⟩
    · exact .inl rfl
    · rw [List.concat_eq_append, getLast?_roots_concat]
      have above : reference < reference + 1 + sizes init := by omega
      exact .inr above
  refine ⟨⟨same.error.trans built.error, ?_, stores_append place stored built.stored, ?_⟩,
    built.pending.congr same⟩
  · rw [(append_count _ _ _).1, built.count, opened.count, sizes_append, sizes, sizes]
    omega
  · intro other below
    rw [append_kept (Nat.succ_ne_zero _) children below, built.kept other
      (by rw [opened.count]; omega), opened.kept other below]

theorem form_leaf {kind : TokenKind} (leaf : kind.isLeaf = true)
    (next : Parser → Option (Nat × Parser)) (count : Nat) (parser : Parser)
    (start length : Nat) :
    form next count parser kind start length = some (parser.newNode kind start length) := by
  cases kind <;> first | rfl | cases leaf

theorem form_prefixed {kind : TokenKind} (mark : kind.takesOperand = true)
    (next : Parser → Option (Nat × Parser)) (count : Nat) (parser : Parser)
    (start length : Nat) :
    form next count parser kind start length = prefixForm next parser kind start length := by
  cases kind <;> first | rfl | cases mark

theorem not_last_of_kind {token : Token} (ends : token.kind ≠ .endOfFile)
    (invalid : token.kind ≠ .invalid) : token.last = false := by
  rw [Token.last, Bool.or_eq_false_iff]
  exact ⟨decide_eq_false ends, decide_eq_false invalid⟩

theorem not_last_of_isLeaf {token : Token} (leaf : token.kind.isLeaf = true) :
    token.last = false := by
  apply not_last_of_kind <;> intro kind <;> rw [kind] at leaf <;> cases leaf

theorem not_last_of_takesOperand {token : Token} (mark : token.kind.takesOperand = true) :
    token.last = false := by
  apply not_last_of_kind <;> intro kind <;> rw [kind] at mark <;> cases mark

end Parser

theorem Forms.length_le {tokens : List Token} {trees : List Tree} (forms : Forms tokens trees) :
    trees.length ≤ tokens.length := by
  cases forms with
  | nil => exact Nat.le_refl _
  | cons first rest =>
      have one := List.length_pos_iff.mpr first.ne_nil
      have others := rest.length_le
      rw [List.length_cons, List.length_append]
      omega

/-- No form starts with the end of the input. -/
theorem Form.head_not_last {token : Token} {rest : List Token} {tree : Tree}
    (form : Form (token :: rest) tree) : token.last = false := by
  cases form with
  | leaf kind => exact Parser.not_last_of_isLeaf kind
  | list opens body closes =>
      apply Parser.not_last_of_kind <;> rw [opens] <;> (intro same; cases same)
  | prefixed kind body => exact Parser.not_last_of_takesOperand kind

namespace Parser

/-- A list with another child goes on. -/
theorem listMore_of_form {parser : Parser} {token : Token} {rest : List Token}
    (pending : parser.Pending (token :: rest)) (clean : parser.error = .none)
    (open_ : token.kind ≠ .closing) (more : token.last = false) :
    parser.listMore = (true, parser.peek.2) := by
  rw [Token.last, Bool.or_eq_false_iff, decide_eq_false_iff_not, decide_eq_false_iff_not] at more
  have shape : parser.peek = (token.kind, parser.peek.2) := Prod.ext (peek_looking pending).1 rfl
  rw [listMore, if_pos clean, shape]
  split
  · rename_i found
    exact absurd (congrArg Prod.fst found) open_
  · rename_i found
    exact absurd (congrArg Prod.fst found) more.1
  · rename_i found
    exact absurd (congrArg Prod.fst found) more.2
  · rename_i found
    rw [(Prod.mk.inj found).2]

theorem listMore_of_closing {parser : Parser} {token : Token} {rest : List Token}
    (pending : parser.Pending (token :: rest)) (clean : parser.error = .none)
    (closes : token.kind = .closing) : parser.listMore = (false, parser.peek.2) := by
  have shape : parser.peek = (.closing, parser.peek.2) :=
    Prod.ext ((peek_looking pending).1.trans closes) rfl
  rw [listMore, if_pos clean, shape]

theorem Opened.congr {nodes : Nat → AstNode} {reference : Nat} {node : AstNode}
    {done : List Tree} {before after : Parser} (opened : Opened nodes reference node done before)
    (same : SameArena before after) : Opened nodes reference node done after where
  error := same.error.trans opened.error
  count := same.count.trans opened.count
  stored := same.nodes ▸ opened.stored
  kept := same.nodes ▸ opened.kept

/-- Reading a token and allocating its node opens that node. -/
theorem newNode_opened {before read : Parser} {rest : List Token} (kind : TokenKind)
    (start length : Nat) (same : SameArena before read) (clean : before.error = .none)
    (pending : read.Pending rest) (room : before.count < before.capacity) :
    ∃ opened, read.newNode kind start length = (before.count + 1, opened) ∧
      Opened before.nodes (before.count + 1) ⟨kind, start, length, 0, 0, 0, 0, false⟩ [] opened ∧
      opened.Pending rest ∧ opened.capacity = before.capacity := by
  rw [← same.count, ← same.capacity] at room
  rw [newNode_eq _ _ _ room, ← same.nodes, ← same.count]
  refine ⟨_, rfl, ⟨same.error.trans clean, rfl, ?_, ?_⟩, pending.congr ⟨rfl, rfl, rfl, rfl⟩,
    same.capacity⟩
  · rw [encodeSiblings]
    apply Stores.singleton
    exact Function.update_self _ _ _
  · intro other below
    exact Function.update_of_ne (Nat.ne_of_lt below) _ _

/-- A node with all its children is a parsed form. -/
theorem Opened.built {before after : Parser} {rest : List Token} {tree : Tree}
    (opened : Opened before.nodes (before.count + 1) tree.root tree.children after)
    (pending : after.Pending rest) (capacity : after.capacity = before.capacity) :
    Built before rest tree after where
  pending := pending
  error := opened.error
  capacity := capacity
  count := by
    rw [opened.count, tree.size_eq, Nat.add_assoc]
  stored := by
    rw [tree.encode_eq]
    exact opened.stored
  kept reference bound := opened.kept reference (Nat.lt_succ_of_le bound)

theorem next_leaf {token : Token} {rest : List Token} {before : Parser} (count : Nat)
    (kind : token.kind.isLeaf = true) (pending : before.Pending (token :: rest))
    (clean : before.error = .none) (room : before.count < before.capacity) :
    ∃ after, next (count + 1) before = some (before.count + 1, after) ∧
      Built before rest (.leaf token) after := by
  obtain ⟨read, reads, others, same⟩ := next_reads count pending clean (not_last_of_isLeaf kind)
  obtain ⟨opened, allocated, isOpen, left, capacity⟩ :=
    newNode_opened token.kind token.start token.length same clean others room
  rw [reads, form_leaf kind, allocated]
  exact ⟨opened, rfl, isOpen.built left capacity⟩

/-- A mark before a form that the parser reads is parsed with it. -/
theorem next_prefixed {mark : Token} {tokens rest : List Token} {operand : Tree}
    {before : Parser} {count : Nat} (kind : mark.kind.takesOperand = true)
    (pending : before.Pending (mark :: tokens)) (clean : before.error = .none)
    (room : before.count < before.capacity)
    (below : ∀ marked : Parser, marked.Pending tokens → marked.error = .none →
      marked.count = before.count + 1 → marked.capacity = before.capacity →
      ∃ after, next count marked = some (marked.count + 1, after) ∧
        Built marked rest operand after) :
    ∃ after, next (count + 1) before = some (before.count + 1, after) ∧
      Built before rest (.prefixed mark operand) after := by
  obtain ⟨read, reads, others, same⟩ :=
    next_reads count pending clean (not_last_of_takesOperand kind)
  obtain ⟨opened, allocated, isOpen, left, capacity⟩ :=
    newNode_opened mark.kind mark.start mark.length same clean others room
  obtain ⟨after, parsed, built⟩ := below opened left isOpen.error isOpen.count capacity
  obtain ⟨linked, pendingRest⟩ := isOpen.add built
  have child : (after.append (before.count + 1) (opened.count + 1)).1 = opened.count + 1 := by
    rw [append_eq (Nat.succ_ne_zero _)]
  rw [reads, form_prefixed kind, prefixForm, allocated]
  simp only [Nat.succ_ne_zero, ↓reduceIte, Option.bind_eq_bind, parsed, Option.bind_some, child]
  refine ⟨_, rfl, linked.built pendingRest ?_⟩
  rw [(append_count _ _ _).2, built.capacity, capacity]

theorem closeList_opened {nodes : Nat → AstNode} {reference : Nat} {node : AstNode}
    {done : List Tree} {filled : Parser} (opened : Opened nodes reference node done filled)
    (start : Nat) :
    Opened nodes reference { node with length := filled.scanner.cursor - start } done
      (filled.consume.closeList reference start) where
  error := opened.error
  count := opened.count
  stored := by
    apply Stores.cons
    · apply (Function.update_self _ _ _).trans
      rw [consume, opened.stored.head]
      rfl
    · apply opened.stored.tail.congr
      intro index above _
      exact Function.update_of_ne (by omega) _ _
  kept other below := by
    rw [← opened.kept other below]
    exact Function.update_of_ne (Nat.ne_of_lt below) _ _

/-- A list whose children the parser reads is parsed with them. -/
theorem next_list {opening closing : Token} {tokens rest : List Token} {children : List Tree}
    {before : Parser} {count : Nat} (opens : opening.kind = .opening)
    (closes : closing.kind = .closing) (pending : before.Pending (opening :: tokens))
    (clean : before.error = .none) (room : before.count < before.capacity)
    (below : ∀ opened : Parser, opened.Pending tokens →
      Opened before.nodes (before.count + 1)
        ⟨.opening, opening.start, 0, 0, 0, 0, 0, false⟩ [] opened →
      opened.capacity = before.capacity →
      ∃ after, listChildren (next count) (before.count + 1) count opened = some after ∧
        Opened before.nodes (before.count + 1)
          ⟨.opening, opening.start, 0, 0, 0, 0, 0, false⟩ children after ∧
        after.Looking closing rest ∧ after.capacity = before.capacity) :
    ∃ after, next (count + 1) before = some (before.count + 1, after) ∧
      Built before rest (.list opening closing children) after := by
  have more : opening.last = false := not_last_of_kind (by rw [opens]; intro same; cases same)
    (by rw [opens]; intro same; cases same)
  have goesOn : closing.last = false := not_last_of_kind (by rw [closes]; intro same; cases same)
    (by rw [closes]; intro same; cases same)
  obtain ⟨read, reads, others, same⟩ := next_reads count pending clean more
  obtain ⟨opened, allocated, isOpen, left, capacity⟩ :=
    newNode_opened .opening opening.start 0 same clean others room
  obtain ⟨filled, looped, isFilled, looking, filledCapacity⟩ := below opened left isOpen capacity
  have closed := closeList_opened isFilled opening.start
  rw [looking.cursor] at closed
  rw [reads, opens, form, list, allocated]
  simp only [Nat.succ_ne_zero, ↓reduceIte, Option.bind_eq_bind, looped, Option.bind_some,
    isFilled.error]
  refine ⟨_, rfl, closed.built ?_ filledCapacity⟩
  exact (looking.consume goesOn).congr ⟨rfl, rfl, rfl, rfl⟩

end Parser

mutual

/-- Where a form is next and its tree fits the arena, the parser reads it and stores the tree. -/
theorem Parser.next_form {tokens rest : List Token} {tree : Tree} {count : Nat} {before : Parser} :
    Form tokens tree → tokens.length ≤ count → before.Pending (tokens ++ rest) →
      before.error = .none → before.count + tree.size ≤ before.capacity →
      ∃ after, Parser.next count before = some (before.count + 1, after) ∧
        Parser.Built before rest tree after
  | .leaf kind, enough, pending, clean, room => by
      obtain ⟨less, rfl⟩ := Nat.exists_eq_add_of_le' enough
      exact Parser.next_leaf less kind pending clean room
  | @Form.list opening closing body children opens forms closes, enough, pending, clean, room => by
      rw [List.length_cons] at enough
      obtain ⟨less, rfl⟩ := Nat.exists_eq_add_of_le' (Nat.le_trans (Nat.le_add_left 1 _) enough)
      rw [List.length_append, List.length_singleton] at enough
      rw [List.cons_append, List.append_assoc] at pending
      rw [Tree.size] at room
      have calls := forms.length_le
      have nested : body.length ≤ less := by omega
      have iterations : children.length < less := by omega
      apply Parser.next_list opens closes pending clean (by omega)
      intro opened left isOpen capacity
      have fits : opened.count + sizes children ≤ opened.capacity := by
        rw [isOpen.count, capacity, sizes]
        omega
      obtain ⟨after, looped, filled, looking, same⟩ :=
        Parser.listChildren_forms forms nested iterations left closes isOpen fits
      exact ⟨after, looped, filled, looking, same.trans capacity⟩
  | .prefixed kind body, enough, pending, clean, room => by
      rw [List.length_cons] at enough
      obtain ⟨less, rfl⟩ := Nat.exists_eq_add_of_le' (Nat.le_trans (Nat.le_add_left 1 _) enough)
      rw [Tree.size] at room
      apply Parser.next_prefixed kind pending clean (by omega)
      intro marked left fresh count capacity
      exact Parser.next_form body (by omega) left fresh (by rw [count, capacity]; omega)

/-- An open list whose children are next reads them all and stops at its end. -/
theorem Parser.listChildren_forms {tokens rest : List Token} {children done : List Tree}
    {count calls reference : Nat} {closing : Token} {now : Parser} {nodes : Nat → AstNode}
    {node : AstNode} :
    Forms tokens children → tokens.length ≤ count → children.length < calls →
      now.Pending (tokens ++ closing :: rest) → closing.kind = .closing →
      Parser.Opened nodes reference node done now →
      now.count + sizes children ≤ now.capacity →
      ∃ after, Parser.listChildren (Parser.next count) reference calls now = some after ∧
        Parser.Opened nodes reference node (done ++ children) after ∧
        after.Looking closing rest ∧ after.capacity = now.capacity
  | .nil, enough, bound, pending, closes, opened, room => by
      obtain ⟨less, rfl⟩ := Nat.exists_eq_add_of_lt bound
      rw [List.length_nil, Nat.zero_add]
      have valid : closing.kind ≠ .invalid := by
        rw [closes]
        intro same
        cases same
      have same := Parser.peek_sameArena pending valid
      rw [Parser.listChildren, Parser.listMore_of_closing pending opened.error closes,
        List.append_nil]
      exact ⟨_, rfl, opened.congr same, (Parser.peek_looking pending).2, same.capacity⟩
  | @Forms.cons tokens body tree trees first others, enough, bound, pending, closes, opened,
      room => by
      obtain ⟨fewer, rfl⟩ := Nat.exists_eq_succ_of_ne_zero (Nat.ne_zero_of_lt bound)
      rw [List.length_append] at enough
      rw [sizes] at room
      rw [List.append_assoc] at pending
      obtain ⟨token, tail, rfl⟩ := List.exists_cons_of_ne_nil first.ne_nil
      have inside := first.head_ne_closing
      have more := first.head_not_last
      have valid : token.kind ≠ .invalid := by
        rw [Token.last, Bool.or_eq_false_iff] at more
        exact of_decide_eq_false more.2
      rw [List.cons_append] at pending
      have same := Parser.peek_sameArena pending valid
      have looking := (Parser.peek_looking pending).2.pending
      rw [← List.cons_append] at looking
      -- The first child is read and linked, and the loop goes on with the others.
      obtain ⟨after, parsed, built⟩ := Parser.next_form first (Nat.le_of_add_right_le enough)
        looking (same.error.trans opened.error) (by rw [same.count, same.capacity]; omega)
      obtain ⟨added, left⟩ := (opened.congr same).add built
      have capacity := (Parser.append_count after reference (now.peek.2.count + 1)).2
      obtain ⟨final, looped, filled, ends, unchanged⟩ := Parser.listChildren_forms others
        (Nat.le_of_add_left_le enough) (Nat.lt_of_succ_lt_succ bound) left closes added
        (by
          rw [(Parser.append_count _ _ _).1, capacity, built.count, built.capacity, same.count,
            same.capacity]
          omega)
      rw [List.append_assoc] at filled
      refine ⟨final, ?_, filled, ends, ?_⟩
      · rw [Parser.listChildren, Parser.listMore_of_form pending opened.error inside more]
        simp only [Option.bind_eq_bind, parsed, Option.bind_some, looped]
      · rw [unchanged, capacity, built.capacity, same.capacity]

end

namespace Parser

/-- A form that fits the arena is next. -/
def FormNext (parser : Parser) (tokens : List Token) : Prop :=
  ∃ read rest tree, tokens = read ++ rest ∧ Form read tree ∧
    parser.count + tree.size ≤ parser.capacity

/-- What a call of the parser can come to: there is a form, or the input has ended, or the call
fails. -/
def Outcome (count : Nat) (parser : Parser) (tokens : List Token) : Prop :=
  parser.FormNext tokens ∨
    (∃ token rest after, tokens = token :: rest ∧ token.kind = .endOfFile ∧
      next count parser = some (0, after) ∧ SameArena parser after ∧ after.Pending tokens) ∨
    ∃ after, next count parser = some (0, after) ∧ after.error ≠ .none ∧
      ∀ reference ≤ parser.count, after.nodes reference = parser.nodes reference

theorem newNode_full {parser : Parser} (kind : TokenKind) (start length : Nat)
    (full : ¬parser.count < parser.capacity) :
    parser.newNode kind start length = (0, parser.fail .arenaFull) := by
  rw [newNode, if_neg full]

theorem peek_nodes (parser : Parser) : parser.peek.2.nodes = parser.nodes := by
  rw [peek]
  split
  · rfl
  · dsimp only
    split <;> rfl

theorem peek_invalid {parser : Parser} {token : Token} {rest : List Token}
    (pending : parser.Pending (token :: rest)) (invalid : token.kind = .invalid) :
    parser.peek.2.error ≠ .none :=
  (peek_looking pending).2.invalid invalid

theorem Pending.rest_ne_nil {parser : Parser} {token : Token} {rest : List Token}
    (pending : parser.Pending (token :: rest)) (more : token.last = false) : rest ≠ [] :=
  ((peek_looking pending).2.streams more).ne_nil

theorem next_ended {parser : Parser} {token : Token} {rest : List Token} (count : Nat)
    (pending : parser.Pending (token :: rest)) (clean : parser.error = .none)
    (ends : token.kind = .endOfFile) : next (count + 1) parser = some (0, parser.peek.2) := by
  have shape : parser.peek = (.endOfFile, parser.peek.2) :=
    Prod.ext ((peek_looking pending).1.trans ends) rfl
  rw [next, if_pos clean, shape]

theorem next_invalid {parser : Parser} {token : Token} {rest : List Token} (count : Nat)
    (pending : parser.Pending (token :: rest)) (clean : parser.error = .none)
    (invalid : token.kind = .invalid) : next (count + 1) parser = some (0, parser.peek.2) := by
  have shape : parser.peek = (.invalid, parser.peek.2) :=
    Prod.ext ((peek_looking pending).1.trans invalid) rfl
  rw [next, if_pos clean, shape]

theorem listMore_of_error {parser : Parser} (failed : parser.error ≠ .none) :
    parser.listMore = (false, parser) := by
  rw [listMore, if_neg failed]

/-- The end of the input or an invalid token inside a list is an error. -/
theorem listMore_of_last {parser : Parser} {token : Token} {rest : List Token}
    (pending : parser.Pending (token :: rest)) (clean : parser.error = .none)
    (last : token.last = true) :
    ∃ after, parser.listMore = (false, after) ∧ after.error ≠ .none ∧
      after.nodes = parser.nodes := by
  have kind := (peek_looking pending).1
  rw [Token.last, Bool.or_eq_true, decide_eq_true_eq, decide_eq_true_eq] at last
  rw [listMore, if_pos clean]
  cases last with
  | inl ends =>
      have shape : parser.peek = (.endOfFile, parser.peek.2) := Prod.ext (kind.trans ends) rfl
      rw [shape]
      exact ⟨_, rfl, (by intro same; cases same), parser.peek_nodes⟩
  | inr invalid =>
      have shape : parser.peek = (.invalid, parser.peek.2) := Prod.ext (kind.trans invalid) rfl
      rw [shape]
      exact ⟨_, rfl, peek_invalid pending invalid, parser.peek_nodes⟩

/-- The loop over the children of a list finds them and the end of the list, or it fails. -/
theorem listChildren_outcome {count reference : Nat} {nodes : Nat → AstNode} {node : AstNode}
    (below : ∀ {parser : Parser} {tokens : List Token}, parser.Pending tokens →
      parser.error = .none → tokens.length ≤ count → Outcome count parser tokens) :
    ∀ {calls : Nat} {now : Parser} {done : List Tree} {tokens : List Token},
      now.Pending tokens → Opened nodes reference node done now → now.count ≤ now.capacity →
      tokens.length ≤ calls → calls ≤ count →
      (∃ read closing rest children, tokens = read ++ closing :: rest ∧ Forms read children ∧
        closing.kind = .closing ∧ now.count + sizes children ≤ now.capacity) ∨
      ∃ after, listChildren (next count) reference calls now = some after ∧
        after.error ≠ .none ∧ ∀ other < reference, after.nodes other = nodes other := by
  intro calls
  induction calls with
  | zero =>
      intro now done tokens pending opened room bound _
      exact absurd (List.eq_nil_of_length_eq_zero (Nat.le_zero.mp bound)) pending.ne_nil
  | succ calls ih =>
      intro now done tokens pending opened room bound enough
      obtain ⟨token, rest, rfl⟩ := List.exists_cons_of_ne_nil pending.ne_nil
      by_cases closes : token.kind = .closing
      · exact .inl ⟨[], token, rest, [], rfl, .nil, closes, room⟩
      cases more : token.last with
      | true =>
          obtain ⟨after, stopped, failed, same⟩ := listMore_of_last pending opened.error more
          rw [listChildren, stopped]
          exact .inr ⟨after, rfl, failed, same ▸ opened.kept⟩
      | false =>
          have valid : token.kind ≠ .invalid ∧ token.kind ≠ .endOfFile := by
            rw [Token.last, Bool.or_eq_false_iff] at more
            exact ⟨of_decide_eq_false more.2, of_decide_eq_false more.1⟩
          have same := peek_sameArena pending valid.1
          have looking := (peek_looking pending).2.pending
          have left := List.length_pos_iff.mpr (pending.rest_ne_nil more)
          rw [listChildren, listMore_of_form pending opened.error closes more]
          rw [List.length_cons] at bound
          obtain ⟨read, others, tree, shape, parsed, fits⟩ | ⟨_, _, _, same, ends, _⟩ |
            ⟨after, failed, error, kept⟩ := below looking (same.error.trans opened.error)
              (by rw [List.length_cons]; omega)
          · rw [shape] at looking
            have shorter := congrArg List.length shape
            have size := List.length_pos_iff.mpr parsed.ne_nil
            rw [List.length_cons, List.length_append] at shorter
            have deep : read.length ≤ count := by omega
            obtain ⟨after, called, built⟩ := next_form parsed deep looking
              (same.error.trans opened.error) fits
            obtain ⟨added, pendingRest⟩ := (opened.congr same).add built
            have counts := append_count after reference (now.peek.2.count + 1)
            rw [built.count, built.capacity] at counts
            simp only [Option.bind_eq_bind, called, Option.bind_some]
            obtain ⟨inner, closing, beyond, children, split, forms, closed, room⟩ |
              ⟨final, looped, failed⟩ := ih pendingRest added
                (by rw [counts.1, counts.2]; exact fits) (by omega) (by omega)
            · refine .inl ⟨read ++ inner, closing, beyond, tree :: children, ?_,
                .cons parsed forms, closed, ?_⟩
              · rw [shape, split, List.append_assoc]
              · rw [counts.1, counts.2, same.count, same.capacity] at room
                rw [sizes]
                omega
            · exact .inr ⟨final, looped, failed⟩
          · cases same
            exact absurd ends valid.2
          · obtain ⟨fewer, rfl⟩ := Nat.exists_eq_succ_of_ne_zero (show calls ≠ 0 by omega)
            simp only [Option.bind_eq_bind, failed, Option.bind_some]
            rw [append, if_pos rfl, listChildren, listMore_of_error error]
            refine .inr ⟨after, rfl, error, ?_⟩
            intro other before
            have earlier : other ≤ now.peek.2.count := by
              rw [same.count, opened.count]
              omega
            rw [kept other earlier, same.nodes, opened.kept other before]

theorem kind_cases {token : Token} (more : token.last = false) :
    token.kind = .opening ∨ token.kind = .closing ∨ token.kind.isLeaf = true ∨
      token.kind.takesOperand = true := by
  rw [Token.last] at more
  cases kind : token.kind <;> simp [kind, TokenKind.isLeaf, TokenKind.takesOperand] at more ⊢

/-- A mark with a form behind it is a form, and without one it is an error. -/
theorem prefixed_outcome {count : Nat} {parser read : Parser} {token : Token} {rest : List Token}
    (below : ∀ {parser : Parser} {tokens : List Token}, parser.Pending tokens →
      parser.error = .none → tokens.length ≤ count → Outcome count parser tokens)
    (kind : token.kind.takesOperand = true) (pending : read.Pending rest)
    (same : SameArena parser read) (clean : parser.error = .none) (bound : rest.length ≤ count) :
    parser.FormNext (token :: rest) ∨
      ∃ after, prefixForm (next count) read token.kind token.start token.length =
        some (0, after) ∧ after.error ≠ .none ∧
          ∀ reference ≤ parser.count, after.nodes reference = parser.nodes reference := by
  by_cases room : parser.count < parser.capacity
  · obtain ⟨opened, allocated, isOpen, left, capacity⟩ :=
      newNode_opened token.kind token.start token.length same clean pending room
    rw [prefixForm, allocated]
    simp only [Nat.succ_ne_zero, ↓reduceIte, Option.bind_eq_bind]
    obtain ⟨operand, others, tree, shape, parsed, fits⟩ | ⟨_, _, after, _, _, called, stays, _⟩ |
      ⟨after, called, failed, kept⟩ := below left isOpen.error bound
    · refine .inl ⟨token :: operand, others, .prefixed token tree, ?_, .prefixed kind parsed, ?_⟩
      · rw [shape, List.cons_append]
      · rw [isOpen.count, capacity, sizes] at fits
        rw [Tree.size]
        omega
    · refine .inr ⟨after.fail .unexpectedEnd, ?_, (by intro same; cases same), ?_⟩
      · rw [called]
        simp only [Option.bind_some, append, ↓reduceIte, stays.error.trans isOpen.error]
      · intro reference below
        exact (congrFun stays.nodes reference).trans
          (isOpen.kept reference (Nat.lt_succ_of_le below))
    · refine .inr ⟨after, ?_, failed, ?_⟩
      · rw [called]
        simp only [Option.bind_some, append, ↓reduceIte, failed]
      · intro reference below
        have earlier : reference ≤ opened.count := by
          rw [isOpen.count]
          omega
        exact (kept reference earlier).trans (isOpen.kept reference (Nat.lt_succ_of_le below))
  · rw [← same.count, ← same.capacity] at room
    rw [prefixForm, newNode_full _ _ _ room]
    exact .inr ⟨_, rfl, (by intro same; cases same), fun reference _ => congrFun same.nodes reference⟩

/-- A list that the loop over its children reads to its end is a form, and any other is an
error. -/
theorem list_outcome {count : Nat} {parser read : Parser} {token : Token} {rest : List Token}
    (below : ∀ {parser : Parser} {tokens : List Token}, parser.Pending tokens →
      parser.error = .none → tokens.length ≤ count → Outcome count parser tokens)
    (opens : token.kind = .opening) (pending : read.Pending rest)
    (same : SameArena parser read) (clean : parser.error = .none) (bound : rest.length ≤ count) :
    parser.FormNext (token :: rest) ∨
      ∃ after, list (next count) count read token.start = some (0, after) ∧
        after.error ≠ .none ∧
          ∀ reference ≤ parser.count, after.nodes reference = parser.nodes reference := by
  by_cases room : parser.count < parser.capacity
  · obtain ⟨opened, allocated, isOpen, left, capacity⟩ :=
      newNode_opened .opening token.start 0 same clean pending room
    have fits : opened.count ≤ opened.capacity := by
      rw [isOpen.count, capacity, sizes]
      omega
    rw [list, allocated]
    simp only [Nat.succ_ne_zero, ↓reduceIte, Option.bind_eq_bind]
    obtain ⟨body, closing, others, children, shape, forms, closes, fits⟩ |
      ⟨after, looped, failed, kept⟩ :=
        listChildren_outcome below left isOpen fits bound (Nat.le_refl _)
    · refine .inl ⟨token :: (body ++ [closing]), others, .list token closing children, ?_,
        .list opens forms closes, ?_⟩
      · rw [shape, List.cons_append, List.append_assoc]
        rfl
      · rw [isOpen.count, capacity, sizes] at fits
        rw [Tree.size]
        omega
    · refine .inr ⟨after, ?_, failed, fun reference below => kept reference (by omega)⟩
      rw [looped]
      simp only [Option.bind_some, failed, ↓reduceIte]
  · rw [← same.count, ← same.capacity] at room
    rw [list, newNode_full _ _ _ room]
    exact .inr ⟨_, rfl, (by intro same; cases same), fun reference _ => congrFun same.nodes reference⟩

theorem leaf_outcome {parser read : Parser} {token : Token} {rest : List Token}
    (kind : token.kind.isLeaf = true) (same : SameArena parser read) :
    parser.FormNext (token :: rest) ∨
      ∃ after, some (read.newNode token.kind token.start token.length) = some (0, after) ∧
        after.error ≠ .none ∧
          ∀ reference ≤ parser.count, after.nodes reference = parser.nodes reference := by
  by_cases room : parser.count < parser.capacity
  · exact .inl ⟨[token], rest, .leaf token, rfl, .leaf kind, room⟩
  · rw [← same.count, ← same.capacity] at room
    rw [newNode_full _ _ _ room]
    exact .inr ⟨_, rfl, (by intro same; cases same), fun reference _ => congrFun same.nodes reference⟩

/-- Every call of the parser returns, and where no form is next the input has ended or the call
fails. -/
theorem next_outcome : ∀ {count : Nat} {parser : Parser} {tokens : List Token},
    parser.Pending tokens → parser.error = .none → tokens.length ≤ count →
      Outcome count parser tokens := by
  intro count
  induction count with
  | zero =>
      intro parser tokens pending _ bound
      exact absurd (List.eq_nil_of_length_eq_zero (Nat.le_zero.mp bound)) pending.ne_nil
  | succ count ih =>
      intro parser tokens pending clean bound
      obtain ⟨token, rest, rfl⟩ := List.exists_cons_of_ne_nil pending.ne_nil
      rw [List.length_cons] at bound
      have bound := Nat.le_of_succ_le_succ bound
      cases more : token.last with
      | true =>
          rw [Token.last, Bool.or_eq_true, decide_eq_true_eq, decide_eq_true_eq] at more
          cases more with
          | inl ends =>
              have same := peek_sameArena pending (by rw [ends]; intro same; cases same)
              exact .inr (.inl ⟨token, rest, _, rfl, ends, next_ended count pending clean ends,
                same, (peek_looking pending).2.pending⟩)
          | inr invalid =>
              exact .inr (.inr ⟨_, next_invalid count pending clean invalid,
                peek_invalid pending invalid, fun _ _ => congrFun parser.peek_nodes _⟩)
      | false =>
          obtain ⟨read, reads, others, same⟩ := next_reads count pending clean more
          rw [Outcome, reads]
          rcases kind_cases more with opens | closes | leaf | mark
          · rw [opens, form]
            exact (list_outcome ih opens others same clean bound).imp_right .inr
          · rw [closes, form]
            exact .inr (.inr ⟨_, rfl, (by intro same; cases same), fun _ _ => congrFun same.nodes _⟩)
          · rw [form_leaf leaf]
            exact (leaf_outcome leaf same).imp_right .inr
          · rw [form_prefixed mark]
            exact (prefixed_outcome ih mark others same clean bound).imp_right .inr

/-- A run of the parser has read some forms of its input, and it goes no further: the input has
ended, or no form is next that fits the arena. -/
structure Ran (before : Parser) (tokens : List Token) (references : List Nat) (after : Parser)
    (read rest : List Token) (trees : List Tree) : Prop where
  split : tokens = read ++ rest
  forms : Forms read trees
  references : references = roots (before.count + 1) trees
  stored : Stores after.nodes (before.count + 1) (encodeRoots (before.count + 1) trees)
  kept : ∀ reference ≤ before.count, after.nodes reference = before.nodes reference
  fits : before.count + sizes trees ≤ before.capacity
  ended : after.error = .none → after.count = before.count + sizes trees ∧
    ∃ last, rest = [last] ∧ last.kind = .endOfFile
  failed : after.error ≠ .none → (∀ last, rest = [last] → last.kind ≠ .endOfFile) ∧
    ∀ form others tree, rest = form ++ others → Form form tree →
      before.capacity < before.count + sizes trees + tree.size

theorem Ran.stop {before after : Parser} {tokens : List Token}
    (kept : ∀ reference ≤ before.count, after.nodes reference = before.nodes reference)
    (room : before.count ≤ before.capacity)
    (ended : after.error = .none → after.count = before.count ∧
      ∃ last, tokens = [last] ∧ last.kind = .endOfFile)
    (failed : after.error ≠ .none → (∀ last, tokens = [last] → last.kind ≠ .endOfFile) ∧
      ∀ form others tree, tokens = form ++ others → Form form tree →
        before.capacity < before.count + tree.size) :
    Ran before tokens [] after [] tokens [] where
  split := rfl
  forms := .nil
  references := rfl
  stored := Stores.nil _ _
  kept := kept
  fits := room
  ended := ended
  failed := failed

theorem Ran.step {before middle after : Parser} {tokens others read rest : List Token}
    {references : List Nat} {tree : Tree} {trees : List Tree} (form : Form tokens tree)
    (built : Built before others tree middle)
    (ran : Ran middle others references after read rest trees) :
    Ran before (tokens ++ others) ((before.count + 1) :: references) after (tokens ++ read) rest
      (tree :: trees) where
  split := by rw [ran.split, List.append_assoc]
  forms := .cons form ran.forms
  references := by
    rw [ran.references, built.count, roots]
    congr 2
    omega
  stored := by
    have others := ran.stored
    rw [built.count] at others
    rw [encodeRoots]
    apply Stores.append
    · apply built.stored.congr
      intro index _ below
      rw [tree.length_encode] at below
      exact ran.kept index (by rw [built.count]; omega)
    · rw [tree.length_encode, Nat.add_right_comm]
      exact others
  kept reference below := by
    rw [ran.kept reference (by rw [built.count]; omega), built.kept reference below]
  fits := by
    have fits := ran.fits
    rw [built.count, built.capacity] at fits
    rw [sizes]
    omega
  ended clean := by
    obtain ⟨count, last⟩ := ran.ended clean
    rw [built.count] at count
    refine ⟨?_, last⟩
    rw [sizes]
    omega
  failed error := by
    obtain ⟨unfinished, full⟩ := ran.failed error
    refine ⟨unfinished, ?_⟩
    intro form others tree shape parsed
    have bound := full form others tree shape parsed
    rw [built.count, built.capacity] at bound
    rw [sizes]
    omega

theorem Pending.ends {parser : Parser} {token : Token} {rest : List Token}
    (pending : parser.Pending (token :: rest)) (ends : token.kind = .endOfFile) : rest = [] := by
  apply (peek_looking pending).2.ends
  rw [Token.last, ends]
  rfl

/-- Every run of the parser returns, with the forms of its input as far as they go. -/
theorem forms_outcome {count : Nat} : ∀ {calls : Nat} {before : Parser} {tokens : List Token},
    before.Pending tokens → before.error = .none → before.count ≤ before.capacity →
      tokens.length ≤ count → tokens.length ≤ calls →
      ∃ references after read rest trees, forms count calls before = some (references, after) ∧
        Ran before tokens references after read rest trees := by
  intro calls
  induction calls with
  | zero =>
      intro before tokens pending _ _ _ bound
      exact absurd (List.eq_nil_of_length_eq_zero (Nat.le_zero.mp bound)) pending.ne_nil
  | succ calls ih =>
      intro before tokens pending clean room deep bound
      rw [forms]
      obtain ⟨read, others, tree, shape, parsed, fits⟩ |
        ⟨token, rest, after, shape, ends, called, same, left⟩ | ⟨after, called, failed, kept⟩ :=
          next_outcome pending clean deep
      · rw [shape] at pending
        have size := List.length_pos_iff.mpr parsed.ne_nil
        have shorter := congrArg List.length shape
        rw [List.length_append] at shorter
        have enough : read.length ≤ count := by omega
        obtain ⟨middle, called, built⟩ := next_form parsed enough pending clean fits
        obtain ⟨references, after, more, rest, trees, ran, holds⟩ := ih built.pending built.error
          (by rw [built.count, built.capacity]; exact fits) (by omega) (by omega)
        refine ⟨_, after, read ++ more, rest, tree :: trees, ?_, shape ▸ holds.step parsed built⟩
        simp only [Option.bind_eq_bind, called, Option.bind_some, Nat.succ_ne_zero, ↓reduceIte,
          ran]
      · subst shape
        have alone := pending.ends ends
        subst alone
        refine ⟨[], after, [], [token], [], ?_, Ran.stop ?_ room ?_ ?_⟩
        · simp only [Option.bind_eq_bind, called, Option.bind_some, ↓reduceIte]
        · exact fun reference _ => congrFun same.nodes reference
        · exact fun _ => ⟨same.count, token, rfl, ends⟩
        · exact fun failed => absurd (same.error.trans clean) failed
      · refine ⟨[], after, [], tokens, [], ?_, Ran.stop kept room ?_ ?_⟩
        · simp only [Option.bind_eq_bind, called, Option.bind_some, ↓reduceIte]
        · exact fun unfailed => absurd unfailed failed
        · refine fun _ => ⟨?_, ?_⟩
          · intro last shape ends
            subst shape
            obtain ⟨less, rfl⟩ := Nat.exists_eq_succ_of_ne_zero (Nat.ne_zero_of_lt deep)
            have stays := peek_sameArena pending (by rw [ends]; intro same; cases same)
            rw [next_ended less pending clean ends] at called
            cases called
            exact failed (stays.error.trans clean)
          · intro form others tree shape parsed
            subst shape
            rw [List.length_append] at deep
            have enough : form.length ≤ count := by omega
            by_contra fits
            obtain ⟨other, returned, _⟩ :=
              next_form parsed enough pending clean (Nat.le_of_not_lt fits)
            rw [returned] at called
            cases called

/-- A run over forms that fit the arena ends without an error. -/
theorem forms_complete {count : Nat} {last : Token} (ends : last.kind = .endOfFile) :
    ∀ {trees : List Tree} {tokens : List Token} {calls : Nat} {before : Parser},
      Forms tokens trees → before.Pending (tokens ++ [last]) → before.error = .none →
      before.count + sizes trees ≤ before.capacity → tokens.length < count →
      trees.length < calls →
      ∃ references after, forms count calls before = some (references, after) ∧
        after.error = .none := by
  intro trees
  induction trees with
  | nil =>
      intro tokens calls before parsed pending clean room deep bound
      cases parsed
      obtain ⟨less, rfl⟩ := Nat.exists_eq_succ_of_ne_zero (Nat.ne_zero_of_lt deep)
      obtain ⟨fewer, rfl⟩ := Nat.exists_eq_succ_of_ne_zero (Nat.ne_zero_of_lt bound)
      have same := peek_sameArena pending (by rw [ends]; intro same; cases same)
      rw [forms, next_ended less pending clean ends]
      exact ⟨[], _, rfl, same.error.trans clean⟩
  | cons tree trees ih =>
      intro tokens calls before parsed pending clean room deep bound
      cases parsed with
      | @cons tokens others tree trees first rest =>
          obtain ⟨fewer, rfl⟩ := Nat.exists_eq_succ_of_ne_zero (Nat.ne_zero_of_lt bound)
          rw [List.append_assoc] at pending
          rw [List.length_append] at deep
          rw [sizes] at room
          have enough : tokens.length ≤ count := by omega
          obtain ⟨middle, called, built⟩ := next_form first enough pending clean (by omega)
          obtain ⟨references, after, ran, unfailed⟩ := ih rest built.pending built.error
            (by rw [built.count, built.capacity]; omega) (by omega) (Nat.lt_of_succ_lt_succ bound)
          rw [forms]
          simp only [Option.bind_eq_bind, called, Option.bind_some, Nat.succ_ne_zero, ↓reduceIte,
            ran]
          exact ⟨_, after, rfl, unfailed⟩

end Parser

end Native
