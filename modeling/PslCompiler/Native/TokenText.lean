import PslCompiler.Native.Tokens

/-! # What the text of a token is

A string or a part between bars goes on to its first closing byte that no backslash protects, and an
atom to the first delimiter outside such parts. The scanner reads a token exactly where its text
stands (`scanKind_text`, `TokenText.scanKind`).
-/

namespace Native

open Loops

/-! ## Texts -/

/-- From the first position on, the closing byte that no backslash protects stands at the second for
the first time. -/
inductive Enclosed (data : List UInt8) (close : UInt8) : Nat → Nat → Prop
  | closed {position : Nat} (found : data[position]? = some close) :
      Enclosed data close position position
  | plain {position last : Nat} {byte : UInt8} (found : data[position]? = some byte)
      (open_ : byte ≠ close) (unescaped : byte ≠ 92)
      (rest : Enclosed data close (position + 1) last) : Enclosed data close position last
  | escaped {position last : Nat} (found : data[position]? = some 92)
      (protects : position + 1 < data.length) (rest : Enclosed data close (position + 2) last) :
      Enclosed data close position last

/-- The bytes between two positions are parts of an atom: plain bytes, protected bytes, and parts
between bars. -/
inductive AtomText (data : List UInt8) : Nat → Nat → Prop
  | done {position : Nat} : AtomText data position position
  | plain {position last : Nat} {byte : UInt8} (found : data[position]? = some byte)
      (continues : Scanner.atomDelimiter byte = false) (unbarred : byte ≠ 124)
      (unescaped : byte ≠ 92) (rest : AtomText data (position + 1) last) :
      AtomText data position last
  | escaped {position last : Nat} (found : data[position]? = some 92)
      (protects : position + 1 < data.length) (rest : AtomText data (position + 2) last) :
      AtomText data position last
  | bars {position close last : Nat} (found : data[position]? = some 124)
      (inside : Enclosed data 124 (position + 1) close) (rest : AtomText data (close + 1) last) :
      AtomText data position last

theorem Enclosed.le {data : List UInt8} {close : UInt8} {first last : Nat}
    (text : Enclosed data close first last) : first ≤ last := by
  induction text with
  | closed => exact Nat.le_refl _
  | plain _ _ _ _ ih => exact Nat.le_of_succ_le ih
  | escaped _ _ _ ih => exact Nat.le_of_succ_le (Nat.le_of_succ_le ih)

theorem AtomText.le {data : List UInt8} {first last : Nat} (text : AtomText data first last) :
    first ≤ last := by
  induction text with
  | done => exact Nat.le_refl _
  | plain _ _ _ _ _ ih => exact Nat.le_of_succ_le ih
  | escaped _ _ _ ih => exact Nat.le_of_succ_le (Nat.le_of_succ_le ih)
  | bars _ inside _ ih => exact Nat.le_trans (Nat.le_of_succ_le inside.le) (Nat.le_of_succ_le ih)

/-- The bytes between two positions are the text of a token of a kind. -/
def TokenText (data : List UInt8) (start finish : Nat) : TokenKind → Prop
  | .opening => data[start]? = some 40 ∧ finish = start + 1
  | .closing => data[start]? = some 41 ∧ finish = start + 1
  | .quote => data[start]? = some 39 ∧ finish = start + 1
  | .quasiquote => data[start]? = some 96 ∧ finish = start + 1
  | .unquote => data[start]? = some 44 ∧ finish = start + 1
  | .splice => data[start]? = some 44 ∧ data[start + 1]? = some 64 ∧ finish = start + 2
  | .function => data[start]? = some 35 ∧ data[start + 1]? = some 39 ∧ finish = start + 2
  | .string => data[start]? = some 34 ∧ ∃ close, Enclosed data 34 (start + 1) close ∧ finish = close + 1
  | .atom => start < finish ∧ AtomText data start finish ∧
      ¬(data[start]? = some 35 ∧ data[start + 1]? = some 39)
  | .endOfFile | .invalid => False

/-- What stands behind a token does not continue it. -/
def TokenEnds (data : List UInt8) (finish : Nat) : TokenKind → Prop
  | .atom => ∀ byte, data[finish]? = some byte → Scanner.atomDelimiter byte = true
  | .unquote => data[finish]? ≠ some 64
  | _ => True

namespace Scanner

/-- The scanner at another position of its input. -/
def at_ (scanner : Scanner) (cursor : Nat) : Scanner :=
  { scanner with cursor }

theorem hasByte_eq_isSome (scanner : Scanner) :
    scanner.hasByte = scanner.data[scanner.cursor]?.isSome := by
  rw [hasByte, Bool.eq_iff_iff, decide_eq_true_eq, isSome_getElem?]

theorem getElem_of_hasByte {scanner : Scanner} (present : scanner.hasByte = true) :
    scanner.data[scanner.cursor]? = some scanner.peek := by
  have inside := hasByte_iff.mp present
  rw [peek, if_pos present, byteAt, List.getD_eq_getElem?_getD, List.getElem?_eq_getElem inside]
  rfl

theorem peek_of_getElem {scanner : Scanner} {byte : UInt8}
    (found : scanner.data[scanner.cursor]? = some byte) :
    scanner.hasByte = true ∧ scanner.peek = byte := by
  have present : scanner.hasByte = true := by
    rw [hasByte_eq_isSome, found]
    rfl
  have same := getElem_of_hasByte present
  rw [found] at same
  exact ⟨present, (Option.some.inj same).symm⟩

theorem nextByteIs_iff {scanner : Scanner} {byte : UInt8} :
    scanner.nextByteIs byte = true ↔ scanner.data[scanner.cursor + 1]? = some byte := by
  rw [nextByteIs, Bool.and_eq_true, decide_eq_true_eq, decide_eq_true_eq]
  constructor
  · rintro ⟨inside, same⟩
    rw [byteAt, List.getD_eq_getElem?_getD, List.getElem?_eq_getElem inside] at same
    rw [List.getElem?_eq_getElem inside]
    exact congrArg some same
  · intro found
    refine ⟨(List.getElem?_eq_some_iff.mp found).1, ?_⟩
    rw [byteAt, List.getD_eq_getElem?_getD, found]
    rfl

end Scanner

/-- The first byte of an atom is no delimiter. -/
theorem AtomText.first {data : List UInt8} {start finish : Nat} (text : AtomText data start finish)
    (nonempty : start < finish) :
    ∃ byte, data[start]? = some byte ∧ Scanner.atomDelimiter byte = false := by
  cases text with
  | done => exact absurd nonempty (Nat.lt_irrefl _)
  | plain found continues => exact ⟨_, found, continues⟩
  | escaped found => exact ⟨92, found, by decide⟩
  | bars found => exact ⟨124, found, by decide⟩

/-! ## Enclosed texts -/

open Scanner

/-- A loop that goes from byte to byte, two at a time where the first protects the second, up to a
closing byte. -/
structure EnclosedLoop (close : UInt8) (step : Scanner → Option Scanner) : Prop where
  stops : ∀ scanner, scanner.hasByte = false ∨ scanner.peek = close → step scanner = none
  plain : ∀ scanner, scanner.hasByte = true → scanner.peek ≠ close → scanner.peek ≠ 92 →
    step scanner = some scanner.advance
  escaped : ∀ scanner, scanner.hasByte = true → scanner.peek = 92 →
    scanner.cursor + 1 < scanner.data.length → step scanner = some scanner.advance.advance
  truncated : ∀ scanner, scanner.hasByte = true → scanner.peek = 92 →
    ¬scanner.cursor + 1 < scanner.data.length →
      ∃ after, step scanner = some after ∧ after.hasByte = false

namespace EnclosedLoop

variable {close : UInt8} {step : Scanner → Option Scanner}

/-- A loop that reaches the closing byte has passed an enclosed text. -/
theorem enclosed (loop : EnclosedLoop close step) {scanner last : Scanner}
    (steps : Steps step scanner last) (present : last.hasByte = true) (closed : last.peek = close) :
    last = scanner.at_ last.cursor ∧ Enclosed scanner.data close scanner.cursor last.cursor := by
  induction steps with
  | refl => exact ⟨rfl, .closed (closed ▸ getElem_of_hasByte present)⟩
  | @head scanner next last stepped others ih =>
      obtain ⟨same, rest⟩ := ih present closed
      by_cases absent : scanner.hasByte = false
      · rw [loop.stops scanner (.inl absent)] at stepped
        cases stepped
      rw [Bool.not_eq_false] at absent
      by_cases ended : scanner.peek = close
      · rw [loop.stops scanner (.inr ended)] at stepped
        cases stepped
      by_cases escape : scanner.peek = 92
      · by_cases protects : scanner.cursor + 1 < scanner.data.length
        · rw [loop.escaped scanner absent escape protects] at stepped
          cases stepped
          exact ⟨same, .escaped (escape ▸ getElem_of_hasByte absent) protects rest⟩
        · obtain ⟨after, moved, gone⟩ := loop.truncated scanner absent escape protects
          obtain rfl := Option.some.inj (moved.symm.trans stepped)
          -- Nothing is left behind a backslash at the end of the input.
          cases others with
          | refl =>
              rw [gone] at present
              cases present
          | head stepped _ =>
              rw [loop.stops after (.inl gone)] at stepped
              cases stepped
      · rw [loop.plain scanner absent ended escape] at stepped
        cases stepped
        exact ⟨same, .plain (getElem_of_hasByte absent) ended escape rest⟩

/-- The loop passes an enclosed text. -/
theorem passes (loop : EnclosedLoop close step) {data : List UInt8}
    {first last : Nat} (text : Enclosed data close first last) : ∀ {scanner : Scanner},
    scanner.data = data → scanner.cursor = first →
      Steps step scanner (scanner.at_ last) ∧ data[last]? = some close := by
  induction text with
  | closed found =>
      rintro scanner rfl rfl
      exact ⟨.refl, found⟩
  | @plain position last byte found open_ unescaped rest ih =>
      rintro scanner rfl rfl
      obtain ⟨present, same⟩ := peek_of_getElem found
      obtain ⟨steps, closed⟩ := @ih scanner.advance rfl rfl
      exact ⟨.head (loop.plain scanner present (same ▸ open_) (same ▸ unescaped)) steps, closed⟩
  | @escaped position last found protects rest ih =>
      rintro scanner rfl rfl
      obtain ⟨present, same⟩ := peek_of_getElem found
      obtain ⟨steps, closed⟩ := @ih scanner.advance.advance rfl rfl
      exact ⟨.head (loop.escaped scanner present same protects) steps, closed⟩

end EnclosedLoop

theorem string_loop : EnclosedLoop 34
    fun inside => if inside.stringContent then some inside.stringStep else none where
  stops scanner stopped := by
    have guard : scanner.stringContent = false := by
      cases stopped with
      | inl absent => rw [stringContent, absent, Bool.false_and]
      | inr closed => rw [stringContent, closed, bne_self_eq_false, Bool.and_false]
    rw [guard]
    rfl
  plain scanner present other unescaped := by
    rw [stringContent, present, bne_iff_ne.mpr other, stringStep, if_neg unescaped]
    rfl
  escaped scanner present escape protects := by
    have next : scanner.advance.hasByte = true := hasByte_iff.mpr protects
    rw [stringContent, present, escape, stringStep, if_pos escape, if_pos next]
    rfl
  truncated scanner present escape truncated := by
    have next : scanner.advance.hasByte = false :=
      Bool.eq_false_iff.mpr fun more => truncated (hasByte_iff.mp more)
    refine ⟨scanner.advance, ?_, next⟩
    rw [stringContent, present, escape, stringStep, if_pos escape, next]
    rfl

theorem bar_loop : EnclosedLoop 124
    fun inside => if inside.barContent then some inside.scanBarStep else none where
  stops scanner stopped := by
    have guard : scanner.barContent = false := by
      cases stopped with
      | inl absent => rw [barContent, absent, Bool.false_and]
      | inr closed => rw [barContent, closed, bne_self_eq_false, Bool.and_false]
    rw [guard]
    rfl
  plain scanner present other unescaped := by
    rw [barContent, present, bne_iff_ne.mpr other, scanBarStep, if_neg unescaped]
    rfl
  escaped scanner present escape protects := by
    have next : scanner.advance.hasByte = true := hasByte_iff.mpr protects
    rw [barContent, present, escape, scanBarStep, if_pos escape, scanEscapedByte, if_pos next]
    rfl
  truncated scanner present escape truncated := by
    have next : scanner.advance.hasByte = false :=
      Bool.eq_false_iff.mpr fun more => truncated (hasByte_iff.mp more)
    refine ⟨scanner.advance.fail, ?_, next⟩
    rw [barContent, present, escape, scanBarStep, if_pos escape, scanEscapedByte, next]
    rfl

/-! ## Strings and bars -/

theorem string_falls (before after : Scanner)
    (stepped : (if before.stringContent then some before.stringStep else none) = some after) :
    after.remaining < before.remaining :=
  (string_step stepped).falls

theorem bar_falls (before after : Scanner)
    (stepped : (if before.barContent then some before.scanBarStep else none) = some after) :
    after.remaining < before.remaining :=
  (bar_step stepped).falls

/-- A string is read up to its closing quotation mark. -/
theorem scanString_text {scanner : Scanner} (valid : scanner.scanString.1 ≠ .invalid) :
    ∃ close, Enclosed scanner.data 34 (scanner.cursor + 1) close ∧
      scanner.scanString = (.string, scanner.at_ (close + 1)) := by
  have stopped := (content_loops_stop scanner.advance).1
  have steps := repeatStep_steps
    (fun inside : Scanner => if inside.stringContent then some inside.stringStep else none)
    remaining scanner.advance
  rw [scanString] at valid ⊢
  generalize repeatStep (fun inside : Scanner => if inside.stringContent then some inside.stringStep
    else none) remaining scanner.advance = content at valid stopped steps ⊢
  by_cases present : content.hasByte = true
  · rw [stringContent, present, Bool.true_and, bne_eq_false_iff_eq] at stopped
    obtain ⟨same, text⟩ := string_loop.enclosed steps present stopped
    refine ⟨content.cursor, text, ?_⟩
    rw [if_pos present, same]
    rfl
  · rw [if_neg present] at valid
    exact absurd rfl valid

theorem scanString_of_text {scanner : Scanner} {close : Nat}
    (text : Enclosed scanner.data 34 (scanner.cursor + 1) close) :
    scanner.scanString = (.string, scanner.at_ (close + 1)) := by
  obtain ⟨steps, closed⟩ := @EnclosedLoop.passes _ _ string_loop _ _ _ text scanner.advance rfl rfl
  obtain ⟨present, same⟩ := @peek_of_getElem (scanner.advance.at_ close) 34 closed
  rw [scanString, steps.repeatStep_eq string_falls (string_loop.stops _ (.inr same)),
    if_pos present]
  rfl

/-- A part between bars is read up to its closing bar, or the scanner fails at the end. -/
theorem scanBar_text (scanner : Scanner) :
    (∃ close, Enclosed scanner.data 124 (scanner.cursor + 1) close ∧
      scanner.scanBar = scanner.at_ (close + 1)) ∨
    (scanner.scanBar.error = true ∧ scanner.scanBar.hasByte = false) := by
  have stopped := (content_loops_stop scanner.advance).2.1
  have steps := repeatStep_steps
    (fun inside : Scanner => if inside.barContent then some inside.scanBarStep else none)
    remaining scanner.advance
  rw [scanBar]
  generalize repeatStep (fun inside : Scanner => if inside.barContent then some inside.scanBarStep
    else none) remaining scanner.advance = content at stopped steps ⊢
  by_cases present : content.hasByte = true
  · rw [barContent, present, Bool.true_and, bne_eq_false_iff_eq] at stopped
    obtain ⟨same, text⟩ := bar_loop.enclosed steps present stopped
    refine .inl ⟨content.cursor, text, ?_⟩
    rw [if_pos present, same]
    rfl
  · rw [if_neg present]
    exact .inr ⟨rfl, Bool.eq_false_iff.mpr present⟩

theorem scanBar_of_text {scanner : Scanner} {close : Nat}
    (text : Enclosed scanner.data 124 (scanner.cursor + 1) close) :
    scanner.scanBar = scanner.at_ (close + 1) := by
  obtain ⟨steps, closed⟩ := @EnclosedLoop.passes _ _ bar_loop _ _ _ text scanner.advance rfl rfl
  obtain ⟨present, same⟩ := @peek_of_getElem (scanner.advance.at_ close) 124 closed
  rw [scanBar, steps.repeatStep_eq bar_falls (bar_loop.stops _ (.inr same)), if_pos present]
  rfl

/-! ## Atoms -/

/-- A step inside an atom, with its guard. -/
def atomLoop (inside : Scanner) : Option Scanner :=
  if inside.atomContent then some inside.scanAtomStep else none

theorem atom_falls (before after : Scanner) (stepped : atomLoop before = some after) :
    after.remaining < before.remaining :=
  (atom_step stepped).falls

theorem atomLoop_stops {scanner : Scanner} (stopped : scanner.error = true ∨
    scanner.hasByte = false ∨ atomDelimiter scanner.peek = true) : atomLoop scanner = none := by
  have guard : scanner.atomContent = false := by
    rw [atomContent]
    rcases stopped with failed | absent | delimits
    · rw [failed]
      rfl
    · rw [absent, Bool.and_false, Bool.false_and]
    · rw [delimits, Bool.not_true, Bool.and_false]
  rw [atomLoop, guard]
  rfl

theorem atomLoop_steps {scanner : Scanner} (working : scanner.error = false)
    (present : scanner.hasByte = true) (continues : atomDelimiter scanner.peek = false) :
    atomLoop scanner = some scanner.scanAtomStep := by
  rw [atomLoop, atomContent, working, present, continues]
  rfl

/-- A byte that starts a protected or barred part of an atom is no delimiter. -/
theorem atomDelimiter_marks : atomDelimiter 124 = false ∧ atomDelimiter 92 = false := by
  decide

/-- A loop over an atom passes the text of one, unless it fails at the end of the input. -/
theorem atomText_of_steps {scanner last : Scanner} (working : scanner.error = false)
    (steps : Steps atomLoop scanner last) :
    (last = scanner.at_ last.cursor ∧ AtomText scanner.data scanner.cursor last.cursor) ∨
      (last.error = true ∧ last.hasByte = false) := by
  induction steps with
  | refl => exact .inl ⟨rfl, .done⟩
  | @head scanner next last stepped others ih =>
      have failed (error : next.error = true) (absent : next.hasByte = false) :
          last.error = true ∧ last.hasByte = false := by
        cases others with
        | refl => exact ⟨error, absent⟩
        | head stepped _ =>
            rw [atomLoop_stops (.inl error)] at stepped
            cases stepped
      obtain ⟨guard, moved⟩ : scanner.atomContent = true ∧ scanner.scanAtomStep = next :=
        guarded_eq_some stepped
      rw [atomContent, Bool.and_eq_true, Bool.and_eq_true, Bool.not_eq_true'] at guard
      have found := getElem_of_hasByte guard.1.2
      rw [scanAtomStep] at moved
      split_ifs at moved with bar escape
      · rw [bar] at found
        cases scanBar_text scanner with
        | inl closed =>
            obtain ⟨close, text, same⟩ := closed
            rw [moved] at same
            subst same
            cases ih working with
            | inl rest => exact .inl ⟨rest.1, .bars found text rest.2⟩
            | inr failed => exact .inr failed
        | inr open_ =>
            rw [moved] at open_
            exact .inr (failed open_.1 open_.2)
      · rw [escape] at found
        rw [scanEscapedByte] at moved
        split_ifs at moved with protects
        · subst moved
          cases ih working with
          | inl rest => exact .inl ⟨rest.1, .escaped found (hasByte_iff.mp protects) rest.2⟩
          | inr failed => exact .inr failed
        · subst moved
          exact .inr (failed rfl (Bool.eq_false_iff.mpr protects))
      · subst moved
        have continues : atomDelimiter scanner.peek = false := by
          rw [Bool.not_eq_true'] at guard
          exact guard.2
        cases ih working with
        | inl rest => exact .inl ⟨rest.1, .plain found continues bar escape rest.2⟩
        | inr failed => exact .inr failed

/-- A loop over an atom passes the text of one. -/
theorem steps_of_atomText {data : List UInt8} {first last : Nat} (text : AtomText data first last) :
    ∀ {scanner : Scanner}, scanner.data = data → scanner.cursor = first → scanner.error = false →
      Steps atomLoop scanner (scanner.at_ last) := by
  induction text with
  | done =>
      rintro scanner rfl rfl _
      exact .refl
  | @plain position last byte found continues unbarred unescaped rest ih =>
      rintro scanner rfl rfl working
      obtain ⟨present, same⟩ := peek_of_getElem found
      refine .head (atomLoop_steps working present (same ▸ continues)) ?_
      rw [scanAtomStep, same, if_neg unbarred, if_neg unescaped]
      exact @ih scanner.advance rfl rfl working
  | @escaped position last found protects rest ih =>
      rintro scanner rfl rfl working
      obtain ⟨present, same⟩ := peek_of_getElem found
      have next : scanner.advance.hasByte = true := hasByte_iff.mpr protects
      refine .head (atomLoop_steps working present (same ▸ atomDelimiter_marks.2)) ?_
      rw [scanAtomStep, same, if_neg (by decide), if_pos rfl, scanEscapedByte, if_pos next]
      exact @ih scanner.advance.advance rfl rfl working
  | @bars position close last found inside rest ih =>
      rintro scanner rfl rfl working
      obtain ⟨present, same⟩ := peek_of_getElem found
      refine .head (atomLoop_steps working present (same ▸ atomDelimiter_marks.1)) ?_
      rw [scanAtomStep, same, if_pos rfl, scanBar_of_text inside]
      exact @ih (scanner.at_ (close + 1)) rfl rfl working

/-- An atom is read up to a delimiter or the end, or the scanner fails at the end. -/
theorem scanAtom_text {scanner : Scanner} (working : scanner.error = false) :
    (∃ last, AtomText scanner.data scanner.cursor last ∧ TokenEnds scanner.data last .atom ∧
      scanner.scanAtom = (.atom, scanner.at_ last)) ∨
    (scanner.scanAtom.1 = .invalid ∧ scanner.scanAtom.2.error = true ∧
      scanner.scanAtom.2.hasByte = false) := by
  have stopped := (content_loops_stop scanner).2.2.1
  have steps := repeatStep_steps atomLoop remaining scanner
  rw [scanAtom]
  change (repeatStep atomLoop remaining scanner).atomContent = false at stopped
  change (∃ last, _ ∧ _ ∧ (if (repeatStep atomLoop remaining scanner).error then TokenKind.invalid
    else .atom, repeatStep atomLoop remaining scanner) = _) ∨
    ((if (repeatStep atomLoop remaining scanner).error then TokenKind.invalid else .atom) = _ ∧
      (repeatStep atomLoop remaining scanner).error = true ∧
      (repeatStep atomLoop remaining scanner).hasByte = false)
  generalize repeatStep atomLoop remaining scanner = content at stopped steps ⊢
  cases atomText_of_steps working steps with
  | inl passed =>
      obtain ⟨same, text⟩ := passed
      have error : content.error = false := by
        rw [same]
        exact working
      refine .inl ⟨content.cursor, text, ?_, ?_⟩
      · intro byte found
        rw [show scanner.data = content.data by rw [same]; rfl] at found
        obtain ⟨present, isByte⟩ := peek_of_getElem found
        rw [atomContent, error, present, isByte] at stopped
        rwa [Bool.not_false, Bool.true_and, Bool.true_and, Bool.not_eq_false'] at stopped
      · rw [error, ← same]
        rfl
  | inr failed =>
      rw [failed.1]
      exact .inr ⟨rfl, rfl, failed.2⟩

theorem scanAtom_of_text {scanner : Scanner} {last : Nat} (working : scanner.error = false)
    (text : AtomText scanner.data scanner.cursor last)
    (ends : TokenEnds scanner.data last .atom) :
    scanner.scanAtom = (.atom, scanner.at_ last) := by
  have stopped : atomLoop (scanner.at_ last) = none := by
    by_cases present : (scanner.at_ last).hasByte = true
    · exact atomLoop_stops (.inr (.inr (ends _ (getElem_of_hasByte present))))
    · exact atomLoop_stops (.inr (.inl (Bool.eq_false_iff.mpr present)))
  have loops := (steps_of_atomText text rfl rfl working).repeatStep_eq atom_falls stopped
  change (if (repeatStep atomLoop remaining scanner).error then TokenKind.invalid else .atom,
    repeatStep atomLoop remaining scanner) = _
  rw [loops, show (scanner.at_ last).error = false from working]
  rfl

/-! ## Tokens -/

/-- The scanner reads the text of a token, or it fails at the end of the input. -/
theorem scanKind_text {scanner : Scanner} (working : scanner.error = false)
    (present : scanner.hasByte = true) (settled : scanner.consumeTrivia = none) :
    (∃ finish, TokenText scanner.data scanner.cursor finish scanner.scanKind.1 ∧
      TokenEnds scanner.data finish scanner.scanKind.1 ∧
      scanner.scanKind.2 = scanner.at_ finish) ∨
    (scanner.scanKind.1 = .invalid ∧ scanner.scanKind.2.hasByte = false) := by
  have found := getElem_of_hasByte present
  rw [scanKind]
  by_cases quoted : scanner.peek = 34
  · rw [if_pos quoted]
    rw [quoted] at found
    by_cases valid : scanner.scanString.1 = .invalid
    · refine .inr ⟨valid, ?_⟩
      rw [scanString] at valid ⊢
      split_ifs at valid ⊢ with closed
      exact Bool.eq_false_iff.mpr closed
    · obtain ⟨close, text, scanned⟩ := scanString_text valid
      rw [scanned]
      exact .inl ⟨close + 1, ⟨found, close, text, rfl⟩, trivial, rfl⟩
  rw [if_neg quoted]
  have second (more : scanner.advance.hasByte = true) :
      scanner.data[scanner.cursor + 1]? = some scanner.advance.peek :=
    getElem_of_hasByte more
  cases punctuation : scanner.scanPunctuation scanner.peek with
  | some scanned =>
      dsimp only
      rw [scanPunctuation] at punctuation
      split_ifs at punctuation with opening closing quote quasiquote comma splice sharp function
      · cases punctuation
        exact .inl ⟨_, ⟨opening ▸ found, rfl⟩, trivial, rfl⟩
      · cases punctuation
        exact .inl ⟨_, ⟨closing ▸ found, rfl⟩, trivial, rfl⟩
      · cases punctuation
        exact .inl ⟨_, ⟨quote ▸ found, rfl⟩, trivial, rfl⟩
      · cases punctuation
        exact .inl ⟨_, ⟨quasiquote ▸ found, rfl⟩, trivial, rfl⟩
      · cases punctuation
        have more : scanner.advance.hasByte = true := by
          by_contra absent
          rw [peek, if_neg absent] at splice
          exact absurd splice (by decide)
        exact .inl ⟨_, ⟨comma ▸ found, splice ▸ second more, rfl⟩, trivial, rfl⟩
      · cases punctuation
        refine .inl ⟨_, ⟨comma ▸ found, rfl⟩, ?_, rfl⟩
        intro next
        exact splice (@peek_of_getElem scanner.advance 64 next).2
      · cases punctuation
        exact .inl ⟨_, ⟨sharp ▸ found, nextByteIs_iff.mp function, rfl⟩, trivial, rfl⟩
  | none =>
      dsimp only
      have starts := not_atomDelimiter present settled quoted punctuation
      cases scanAtom_text working with
      | inr failed => exact .inr ⟨failed.1, failed.2.2⟩
      | inl passed =>
          obtain ⟨last, text, ends, scanned⟩ := passed
          rw [scanned]
          refine .inl ⟨last, ⟨?_, text, ?_⟩, ends, rfl⟩
          · cases text with
            | done =>
                rw [ends _ found] at starts
                cases starts
            | plain _ _ _ _ rest => exact rest.le
            | escaped _ _ rest => exact Nat.lt_of_succ_lt rest.le
            | bars _ inside rest => exact Nat.lt_of_lt_of_le inside.le (Nat.le_of_succ_le rest.le)
          · rintro ⟨sharp, next⟩
            rw [(peek_of_getElem sharp).2, scanPunctuation, if_neg (by decide), if_neg (by decide),
              if_neg (by decide), if_neg (by decide), if_neg (by decide), if_pos rfl,
              if_pos (nextByteIs_iff.mpr next)] at punctuation
            cases punctuation

/-- Where the text of a token stands, the scanner reads it. -/
theorem TokenText.scanKind {scanner : Scanner} {kind : TokenKind} {finish : Nat}
    (working : scanner.error = false)
    (text : TokenText scanner.data scanner.cursor finish kind)
    (ends : TokenEnds scanner.data finish kind) :
    scanner.scanKind = (kind, scanner.at_ finish) := by
  have mark {byte : UInt8} (found : scanner.data[scanner.cursor]? = some byte) (plain : byte ≠ 34)
      {scanned : TokenKind × Scanner} (punctuation : scanner.scanPunctuation byte = some scanned) :
      scanner.scanKind = scanned := by
    rw [Scanner.scanKind, (peek_of_getElem found).2, if_neg plain, punctuation]
  cases kind with
  | endOfFile => exact absurd text id
  | invalid => exact absurd text id
  | opening => exact text.2 ▸ mark text.1 (by decide) rfl
  | closing => exact text.2 ▸ mark text.1 (by decide) rfl
  | quote => exact text.2 ▸ mark text.1 (by decide) rfl
  | quasiquote => exact text.2 ▸ mark text.1 (by decide) rfl
  | unquote =>
      obtain ⟨found, rfl⟩ := text
      refine mark found (by decide) ?_
      have other : scanner.advance.peek ≠ 64 := by
        intro same
        have present : scanner.advance.hasByte = true := by
          by_contra absent
          rw [peek, if_neg absent] at same
          exact absurd same (by decide)
        exact ends (same ▸ getElem_of_hasByte present)
      rw [scanPunctuation, if_neg (by decide), if_neg (by decide), if_neg (by decide),
        if_neg (by decide), if_pos rfl, if_neg other]
      rfl
  | splice =>
      obtain ⟨found, next, rfl⟩ := text
      refine mark found (by decide) ?_
      rw [scanPunctuation, if_neg (by decide), if_neg (by decide), if_neg (by decide),
        if_neg (by decide), if_pos rfl, if_pos (@peek_of_getElem scanner.advance 64 next).2]
      rfl
  | function =>
      obtain ⟨found, next, rfl⟩ := text
      refine mark found (by decide) ?_
      rw [scanPunctuation, if_neg (by decide), if_neg (by decide), if_neg (by decide),
        if_neg (by decide), if_neg (by decide), if_pos rfl, if_pos (nextByteIs_iff.mpr next)]
      rfl
  | string =>
      obtain ⟨found, close, inside, rfl⟩ := text
      rw [Scanner.scanKind, (peek_of_getElem found).2, if_pos rfl, scanString_of_text inside]
  | atom =>
      obtain ⟨more, parts, unmarked⟩ := text
      obtain ⟨byte, found, continues⟩ := parts.first more
      have plain : scanner.scanPunctuation byte = none := by
        simp only [atomDelimiter, Bool.or_eq_false_iff, decide_eq_false_iff_not] at continues
        obtain ⟨⟨⟨⟨⟨⟨⟨-, opening⟩, closing⟩, -⟩, -⟩, quote⟩, quasiquote⟩, comma⟩ := continues
        rw [scanPunctuation, if_neg opening, if_neg closing, if_neg quote, if_neg quasiquote,
          if_neg comma]
        split_ifs with sharp next
        · exact absurd ⟨sharp ▸ found, nextByteIs_iff.mp next⟩ unmarked
        · rfl
        · rfl
      have unquoted : byte ≠ 34 := by
        rintro rfl
        cases continues
      rw [Scanner.scanKind, (peek_of_getElem found).2, if_neg unquoted, plain]
      exact scanAtom_of_text working parts ends

end Native
