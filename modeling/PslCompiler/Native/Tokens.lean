import PslCompiler.Native.Reader

/-! # The token sequence

Every loop of the scanner stops by its own condition, because every step moves the position
forward within the input. So each call of `scanNext` returns, the tokens of an input form a finite
sequence, and their spans stand in order inside the input (`Streams.ordered`).
-/

namespace Native

open Loops

namespace Scanner

/-- The second scanner is further along in the same input. -/
structure Advances (before after : Scanner) : Prop where
  data : after.data = before.data
  moves : before.cursor < after.cursor
  bounded : after.cursor ≤ before.data.length

/-- The second scanner is as far along in the same input, or further. -/
structure Follows (before after : Scanner) : Prop where
  data : after.data = before.data
  moves : before.cursor ≤ after.cursor
  bounded : before.cursor ≤ before.data.length → after.cursor ≤ before.data.length

theorem Follows.refl (scanner : Scanner) : Follows scanner scanner :=
  ⟨rfl, Nat.le_refl _, fun bounded => bounded⟩

theorem Follows.trans {first second third : Scanner} (one : Follows first second)
    (two : Follows second third) : Follows first third where
  data := two.data.trans one.data
  moves := Nat.le_trans one.moves two.moves
  bounded bounded := by
    have within := two.bounded
    rw [one.data] at within
    exact within (one.bounded bounded)

theorem Advances.follows {before after : Scanner} (advances : Advances before after) :
    Follows before after :=
  ⟨advances.data, Nat.le_of_lt advances.moves, fun _ => advances.bounded⟩

theorem Advances.then {first second third : Scanner} (one : Advances first second)
    (two : Follows second third) : Advances first third where
  data := two.data.trans one.data
  moves := Nat.lt_of_lt_of_le one.moves two.moves
  bounded := by
    have within := two.bounded
    rw [one.data] at within
    exact within one.bounded

theorem Advances.falls {before after : Scanner} (advances : Advances before after) :
    after.remaining < before.remaining := by
  have moves := advances.moves
  have bounded := advances.bounded
  simp only [remaining, advances.data]
  omega

theorem hasByte_iff {scanner : Scanner} :
    scanner.hasByte = true ↔ scanner.cursor < scanner.data.length := by
  simp only [hasByte, decide_eq_true_eq]

theorem advance_advances {scanner : Scanner} (present : scanner.hasByte = true) :
    Advances scanner scanner.advance :=
  ⟨rfl, Nat.lt_succ_self _, hasByte_iff.mp present⟩

theorem fail_follows (scanner : Scanner) : Follows scanner scanner.fail :=
  ⟨rfl, Nat.le_refl _, fun bounded => bounded⟩

/-- A step that a loop takes only under a guard. -/
theorem guarded_eq_some {guard : Scanner → Bool} {body : Scanner → Scanner}
    {before after : Scanner}
    (stepped : (if guard before then some (body before) else none) = some after) :
    guard before = true ∧ body before = after := by
  split at stepped
  · rename_i taken
    exact ⟨taken, Option.some.inj stepped⟩
  · cases stepped

theorem repeatStep_follows {step : Scanner → Option Scanner}
    (advances : ∀ before after, step before = some after → Advances before after)
    (scanner : Scanner) : Follows scanner (repeatStep step remaining scanner) := by
  apply repeatStep_invariant
  · intro before after follows stepped
    exact follows.trans (advances before after stepped).follows
  · exact .refl scanner

theorem skipComment_step {before after : Scanner}
    (stepped : (if before.commentContent then some before.advance else none) = some after) :
    Advances before after := by
  obtain ⟨guard, rfl⟩ := guarded_eq_some stepped
  exact advance_advances (Bool.and_eq_true_iff.mp guard).1

theorem skipComment_advances {scanner : Scanner} (present : scanner.hasByte = true)
    (marked : scanner.peek = 59) : Advances scanner scanner.skipComment := by
  have inside : scanner.commentContent = true := by
    simp only [commentContent, present, marked, Bool.true_and]
    decide
  rw [skipComment]
  apply repeatStep_invariant_step
  · intro before after advances stepped
    exact advances.then (skipComment_step stepped).follows
  · have bound := hasByte_iff.mp present
    rw [remaining]
    omega
  · simp only [inside, ↓reduceIte]
    rfl
  · exact advance_advances present

theorem consumeTrivia_advances {before after : Scanner}
    (stepped : before.consumeTrivia = some after) : Advances before after := by
  rw [consumeTrivia] at stepped
  split at stepped
  · rename_i present
    split at stepped
    · cases stepped
      exact advance_advances present
    · obtain ⟨marked, rfl⟩ : before.peek = 59 ∧ before.skipComment = after := by
        split at stepped
        · rename_i marked
          exact ⟨marked, Option.some.inj stepped⟩
        · cases stepped
      exact skipComment_advances present marked
  · cases stepped

theorem skipTrivia_follows (scanner : Scanner) : Follows scanner scanner.skipTrivia :=
  repeatStep_follows (fun _ _ => consumeTrivia_advances) scanner

/-- After trivia, the scanner is at the end or at a byte that starts a token. -/
theorem skipTrivia_stops (scanner : Scanner) : scanner.skipTrivia.consumeTrivia = none :=
  repeatStep_stops (fun _ _ stepped => (consumeTrivia_advances stepped).falls) scanner

theorem stringStep_advances {scanner : Scanner} (present : scanner.hasByte = true) :
    Advances scanner scanner.stringStep := by
  have first := advance_advances present
  rw [stringStep]
  split
  · split
    · rename_i more
      exact first.then (advance_advances more).follows
    · exact first
  · exact first

theorem string_step {before after : Scanner}
    (stepped : (if before.stringContent then some before.stringStep else none) = some after) :
    Advances before after := by
  obtain ⟨guard, rfl⟩ := guarded_eq_some stepped
  exact stringStep_advances (Bool.and_eq_true_iff.mp guard).1

theorem scanString_advances {scanner : Scanner} (present : scanner.hasByte = true) :
    Advances scanner scanner.scanString.2 := by
  have content := (advance_advances present).then
    (repeatStep_follows (fun _ _ => string_step) scanner.advance)
  rw [scanString]
  split
  · rename_i more
    exact content.then (advance_advances more).follows
  · exact content

theorem scanEscapedByte_advances {scanner : Scanner} (present : scanner.hasByte = true) :
    Advances scanner scanner.scanEscapedByte := by
  have first := advance_advances present
  rw [scanEscapedByte]
  split
  · rename_i more
    exact first.then (advance_advances more).follows
  · exact first.then (fail_follows _)

theorem bar_step {before after : Scanner}
    (stepped : (if before.barContent then some before.scanBarStep else none) = some after) :
    Advances before after := by
  obtain ⟨guard, rfl⟩ := guarded_eq_some stepped
  have present := (Bool.and_eq_true_iff.mp guard).1
  rw [scanBarStep]
  split
  · exact scanEscapedByte_advances present
  · exact advance_advances present

theorem scanBar_advances {scanner : Scanner} (present : scanner.hasByte = true) :
    Advances scanner scanner.scanBar := by
  have content := (advance_advances present).then
    (repeatStep_follows (fun _ _ => bar_step) scanner.advance)
  rw [scanBar]
  split
  · rename_i more
    exact content.then (advance_advances more).follows
  · exact content.then (fail_follows _)

theorem scanAtomStep_advances {scanner : Scanner} (present : scanner.hasByte = true) :
    Advances scanner scanner.scanAtomStep := by
  rw [scanAtomStep]
  split
  · exact scanBar_advances present
  · split
    · exact scanEscapedByte_advances present
    · exact advance_advances present

theorem atom_step {before after : Scanner}
    (stepped : (if before.atomContent then some before.scanAtomStep else none) = some after) :
    Advances before after := by
  obtain ⟨guard, rfl⟩ := guarded_eq_some stepped
  simp only [atomContent, Bool.and_eq_true] at guard
  exact scanAtomStep_advances guard.1.2

/-- The conditions of the loops inside a token are what ends them. -/
theorem content_loops_stop (scanner : Scanner) :
    (repeatStep (fun inside => if inside.stringContent then some inside.stringStep else none)
        remaining scanner).stringContent = false ∧
      (repeatStep (fun inside => if inside.barContent then some inside.scanBarStep else none)
        remaining scanner).barContent = false ∧
      (repeatStep (fun inside => if inside.atomContent then some inside.scanAtomStep else none)
        remaining scanner).atomContent = false ∧
      scanner.skipComment.commentContent = false := by
  have stopped : ∀ {guard : Scanner → Bool} {body : Scanner → Scanner}, (∀ before after,
      (if guard before then some (body before) else none) = some after → Advances before after) →
      guard (repeatStep (fun inside => if guard inside then some (body inside) else none)
        remaining scanner) = false := by
    intro guard body advances
    have ends := repeatStep_stops (fun before after stepped =>
      (advances before after stepped).falls) scanner
    by_contra running
    simp only [Bool.not_eq_false] at running
    simp only [running, ↓reduceIte, reduceCtorEq] at ends
  exact ⟨stopped fun _ _ => string_step, stopped fun _ _ => bar_step,
    stopped fun _ _ => atom_step, stopped fun _ _ => skipComment_step⟩

theorem scanPunctuation_advances {scanner : Scanner} {byte : UInt8} {scanned : TokenKind × Scanner}
    (present : scanner.hasByte = true) (found : scanner.scanPunctuation byte = some scanned) :
    Advances scanner scanned.2 := by
  have first := advance_advances present
  have both : scanner.advance.hasByte = true → Advances scanner scanner.advance.advance :=
    fun more => first.then (advance_advances more).follows
  -- Two tokens take a second byte, and both have looked at it.
  have splice : scanner.advance.peek = 64 → scanner.advance.hasByte = true := by
    intro at64
    by_contra absent
    rw [peek, if_neg absent] at at64
    exact absurd at64 (by decide)
  have function : scanner.nextByteIs 39 = true → scanner.advance.hasByte = true := by
    intro next
    rw [nextByteIs, Bool.and_eq_true, decide_eq_true_eq] at next
    exact hasByte_iff.mpr next.1
  rw [scanPunctuation] at found
  split_ifs at found <;> cases found
  all_goals first
    | exact first
    | exact both (splice ‹_›)
    | exact both (function ‹_›)

theorem scanPunctuation_kind {scanner : Scanner} {byte : UInt8} {scanned : TokenKind × Scanner}
    (found : scanner.scanPunctuation byte = some scanned) : scanned.1 ≠ .endOfFile := by
  rw [scanPunctuation] at found
  split_ifs at found <;> cases found <;> (intro same; cases same)

/-- A byte that is neither trivia nor the start of a string or of punctuation starts an atom. -/
theorem not_atomDelimiter {scanner : Scanner} (present : scanner.hasByte = true)
    (settled : scanner.consumeTrivia = none) (plain : scanner.peek ≠ 34)
    (unpunctuated : scanner.scanPunctuation scanner.peek = none) :
    atomDelimiter scanner.peek = false := by
  rw [consumeTrivia, if_pos present] at settled
  rw [scanPunctuation] at unpunctuated
  split_ifs at settled with blank comment
  simp only [atomDelimiter, Bool.or_eq_false_iff, decide_eq_false_iff_not]
  split_ifs at unpunctuated with opening closing quote quasiquote comma <;>
    exact ⟨⟨⟨⟨⟨⟨⟨blank, opening⟩, closing⟩, plain⟩, comment⟩, quote⟩, quasiquote⟩, comma⟩

theorem scanAtom_advances {scanner : Scanner} (present : scanner.hasByte = true)
    (starts : atomDelimiter scanner.peek = false) (valid : scanner.scanAtom.1 ≠ .invalid) :
    Advances scanner scanner.scanAtom.2 := by
  rw [scanAtom] at valid ⊢
  dsimp only at valid ⊢
  cases failed : scanner.error with
  | true =>
      -- A scanner that has failed before reads nothing more, and the token is invalid.
      rw [repeatStep_of_none (by simp only [atomContent, failed, Bool.not_true, Bool.false_and,
        Bool.false_eq_true, ↓reduceIte])] at valid
      rw [failed] at valid
      exact absurd rfl valid
  | false =>
      have inside : scanner.atomContent = true := by
        simp only [atomContent, failed, present, starts, Bool.not_false, Bool.and_true]
      apply repeatStep_invariant_step
      · intro before after advances stepped
        exact advances.then (atom_step stepped).follows
      · have bound := hasByte_iff.mp present
        rw [remaining]
        omega
      · simp only [inside, ↓reduceIte]
        rfl
      · exact scanAtomStep_advances present

theorem scanKind_follows {scanner : Scanner} (present : scanner.hasByte = true) :
    Follows scanner scanner.scanKind.2 ∧ scanner.scanKind.1 ≠ .endOfFile := by
  rw [scanKind]
  split
  · refine ⟨(scanString_advances present).follows, ?_⟩
    rw [scanString]
    split <;> (intro same; cases same)
  · split
    · rename_i scanned found
      exact ⟨(scanPunctuation_advances present found).follows, scanPunctuation_kind found⟩
    · refine ⟨repeatStep_follows (fun _ _ => atom_step) scanner, ?_⟩
      rw [scanAtom]
      dsimp only
      split <;> (intro same; cases same)

theorem scanKind_advances {scanner : Scanner} (present : scanner.hasByte = true)
    (settled : scanner.consumeTrivia = none) (valid : scanner.scanKind.1 ≠ .invalid) :
    Advances scanner scanner.scanKind.2 := by
  rw [scanKind] at valid ⊢
  split
  · exact scanString_advances present
  · rename_i plain
    rw [if_neg plain] at valid
    cases found : scanner.scanPunctuation scanner.peek with
    | some scanned => exact scanPunctuation_advances present found
    | none =>
        rw [found] at valid
        exact scanAtom_advances present (not_atomDelimiter present settled plain found) valid

end Scanner

namespace Token

/-- The position after a token. -/
def finish (token : Token) : Nat :=
  token.start + token.length

/-- Whether no token follows this one. -/
def last (token : Token) : Bool :=
  token.kind = .endOfFile || token.kind = .invalid

end Token

namespace Scanner

theorem scanNext_follows (scanner : Scanner) : Follows scanner scanner.scanNext.2 := by
  have started := skipTrivia_follows scanner
  rw [scanNext]
  split
  · rename_i present
    exact started.trans (scanKind_follows present).1
  · exact started

theorem le_scanNext_start (scanner : Scanner) : scanner.cursor ≤ scanner.scanNext.1.start := by
  have started := (skipTrivia_follows scanner).moves
  rw [scanNext]
  split <;> exact started

theorem scanNext_finish (scanner : Scanner) :
    scanner.scanNext.1.finish = scanner.scanNext.2.cursor := by
  rw [scanNext]
  split
  · rename_i present
    exact Nat.add_sub_cancel' (scanKind_follows present).1.moves
  · exact Nat.add_sub_cancel' (Nat.le_refl _)

theorem scanNext_advances {scanner : Scanner} (more : scanner.scanNext.1.last = false) :
    Advances scanner scanner.scanNext.2 := by
  have started := skipTrivia_follows scanner
  rw [Token.last, Bool.or_eq_false_iff, decide_eq_false_iff_not, decide_eq_false_iff_not] at more
  rw [scanNext] at more ⊢
  split at more
  · rename_i present
    rw [if_pos present]
    have advances := scanKind_advances present (skipTrivia_stops scanner) more.2
    exact ⟨advances.data.trans started.data, Nat.lt_of_le_of_lt started.moves advances.moves,
      started.data ▸ advances.bounded⟩
  · exact absurd rfl more.1

/-- The tokens from a scanner on, up to the first that is invalid or ends the input. -/
def tokensFrom : Nat → Scanner → List Token
  | 0, _ => []
  | count + 1, scanner =>
      if scanner.scanNext.1.last then [scanner.scanNext.1]
      else scanner.scanNext.1 :: tokensFrom count scanner.scanNext.2

end Scanner

/-- The token sequence of an input. -/
def tokenize (data : List UInt8) : List Token :=
  (Scanner.start data).tokensFrom (data.length + 1)

/-- Repeated calls of `scanNext` deliver these tokens, and the last of them ends the sequence. -/
inductive Streams : Scanner → List Token → Prop where
  | ended {scanner : Scanner} (last : scanner.scanNext.1.last = true) :
      Streams scanner [scanner.scanNext.1]
  | more {scanner : Scanner} {rest : List Token} (more : scanner.scanNext.1.last = false)
      (streams : Streams scanner.scanNext.2 rest) : Streams scanner (scanner.scanNext.1 :: rest)

theorem tokensFrom_streams : ∀ {count : Nat} {scanner : Scanner}, scanner.remaining < count →
    Streams scanner (scanner.tokensFrom count) := by
  intro count
  induction count with
  | zero => exact fun bound => absurd bound (Nat.not_lt_zero _)
  | succ count ih =>
      intro scanner bound
      rw [Scanner.tokensFrom]
      cases last : scanner.scanNext.1.last with
      | true => exact .ended last
      | false =>
          have falls := (Scanner.scanNext_advances last).falls
          exact .more last (ih (by omega))

theorem tokenize_streams (data : List UInt8) : Streams (Scanner.start data) (tokenize data) :=
  tokensFrom_streams (Nat.lt_succ_of_le (Nat.sub_le _ _))

theorem Streams.ne_nil {scanner : Scanner} {tokens : List Token} (streams : Streams scanner tokens) :
    tokens ≠ [] := by
  cases streams <;> exact List.cons_ne_nil _ _

/-- The spans of the tokens stand in order inside the input. -/
theorem Streams.ordered {scanner : Scanner} {tokens : List Token}
    (streams : Streams scanner tokens) (bounded : scanner.cursor ≤ scanner.data.length) :
    (∀ token ∈ tokens, scanner.cursor ≤ token.start ∧ token.finish ≤ scanner.data.length) ∧
      tokens.Pairwise fun first second => first.finish ≤ second.start := by
  induction streams with
  | @ended scanner last =>
      refine ⟨?_, List.pairwise_singleton _ _⟩
      intro token member
      cases List.mem_singleton.mp member
      exact ⟨scanner.le_scanNext_start,
        scanner.scanNext_finish ▸ scanner.scanNext_follows.bounded bounded⟩
  | @more scanner rest more streams ih =>
      have follows := scanner.scanNext_follows
      have finish := scanner.scanNext_finish
      have within := follows.bounded bounded
      rw [follows.data] at ih
      obtain ⟨others, ordered⟩ := ih within
      constructor
      · intro token member
        cases List.mem_cons.mp member with
        | inl head => exact head ▸ ⟨scanner.le_scanNext_start, finish ▸ within⟩
        | inr tail =>
            have other := others token tail
            exact ⟨Nat.le_trans follows.moves other.1, other.2⟩
      · refine List.pairwise_cons.mpr ⟨?_, ordered⟩
        intro token member
        rw [finish]
        exact (others token member).1

/-- Only the last token of a sequence ends it. -/
theorem Streams.last {scanner : Scanner} {front : List Token} {token : Token} {rest : List Token}
    (streams : Streams scanner (front ++ token :: rest)) (last : token.last = true) : rest = [] := by
  generalize shape : front ++ token :: rest = tokens at streams
  induction streams generalizing front with
  | ended found =>
      have lengths := congrArg List.length shape
      rw [List.length_append, List.length_cons, List.length_singleton] at lengths
      exact List.eq_nil_of_length_eq_zero (by omega)
  | more found streams ih =>
      cases front with
      | nil =>
          rw [List.nil_append] at shape
          rw [← (List.cons.inj shape).1, last] at found
          cases found
      | cons head front => exact ih (List.cons.inj shape).2

end Native
