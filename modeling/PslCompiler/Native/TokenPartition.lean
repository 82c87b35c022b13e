import PslCompiler.Native.TokenText

/-! # How tokens partition an input

Each call of the scanner skips blanks and comments and then reads one token, whose text depends on no
byte outside it but the one behind it. So the tokens of an input stand in order with trivia between
them, and a token is read again from its own bytes wherever a delimiter follows
(`scanNext_partitions`). There is one exception: a quotation mark behind a number sign turns it into
another token.
-/

namespace Native

open Loops

/-! ## Trivia -/

/-- The bytes between two positions are blanks and comments. A comment goes on to the end of its line
or of the input. -/
inductive TriviaText (data : List UInt8) : Nat → Nat → Prop
  | done {position : Nat} : TriviaText data position position
  | blank {position last : Nat} {byte : UInt8} (found : data[position]? = some byte)
      (control : byte < 33) (rest : TriviaText data (position + 1) last) :
      TriviaText data position last
  | comment {position stop last : Nat} (found : data[position]? = some 59)
      (goes : position < stop) (line : ∀ inside, position < inside → inside < stop →
        data[inside]? ≠ some 10)
      (stops : stop = data.length ∨ data[stop]? = some 10) (rest : TriviaText data stop last) :
      TriviaText data position last

namespace Scanner

theorem at_self (scanner : Scanner) : scanner.at_ scanner.cursor = scanner :=
  rfl

/-- A step of the loop over a comment. -/
def commentLoop (scanner : Scanner) : Option Scanner :=
  if scanner.commentContent then some scanner.advance else none

theorem comment_passed {scanner last : Scanner} (steps : Steps commentLoop scanner last) :
    last = scanner.at_ last.cursor ∧ scanner.cursor ≤ last.cursor ∧
      ∀ inside, scanner.cursor ≤ inside → inside < last.cursor →
        scanner.data[inside]? ≠ some 10 := by
  induction steps with
  | refl =>
      exact ⟨rfl, Nat.le_refl _, fun inside after before => absurd before (Nat.not_lt.mpr after)⟩
  | @head scanner next last stepped others ih =>
      obtain ⟨guard, rfl⟩ := guarded_eq_some stepped
      obtain ⟨same, moves, line⟩ := ih
      rw [commentContent, Bool.and_eq_true, bne_iff_ne] at guard
      refine ⟨same, Nat.le_of_succ_le moves, ?_⟩
      intro inside after before
      by_cases first : inside = scanner.cursor
      · rw [first, getElem_of_hasByte guard.1]
        exact fun newline => guard.2 (Option.some.inj newline)
      · exact line inside (Nat.lt_of_le_of_ne after (Ne.symm first)) before

/-- A comment is skipped up to the newline that ends it, or to the end of the input. -/
theorem skipComment_text {scanner : Scanner} (present : scanner.hasByte = true)
    (marked : scanner.peek = 59) :
    ∃ stop, scanner.skipComment = scanner.at_ stop ∧ scanner.cursor < stop ∧
      stop ≤ scanner.data.length ∧
      (∀ inside, scanner.cursor < inside → inside < stop → scanner.data[inside]? ≠ some 10) ∧
      (stop = scanner.data.length ∨ scanner.data[stop]? = some 10) := by
  have advances := skipComment_advances present marked
  have stopped := (content_loops_stop scanner).2.2.2
  obtain ⟨same, _, line⟩ := comment_passed (repeatStep_steps commentLoop remaining scanner)
  change scanner.skipComment = scanner.at_ scanner.skipComment.cursor at same
  refine ⟨scanner.skipComment.cursor, same, advances.moves, advances.bounded,
    fun inside after before => line inside (Nat.le_of_lt after) before, ?_⟩
  rw [commentContent, Bool.and_eq_false_iff] at stopped
  cases stopped with
  | inl absent =>
      refine .inl (Nat.le_antisymm advances.bounded ?_)
      rw [← advances.data]
      exact Nat.le_of_not_lt fun more => by rw [hasByte_iff.mpr more] at absent; cases absent
  | inr newline =>
      rw [bne_eq_false_iff_eq] at newline
      by_cases more : scanner.skipComment.hasByte = true
      · rw [← advances.data, ← newline]
        exact .inr (getElem_of_hasByte more)
      · rw [peek, if_neg more] at newline
        exact absurd newline (by decide)

theorem trivia_passed {scanner last : Scanner} (steps : Steps consumeTrivia scanner last) :
    last = scanner.at_ last.cursor ∧ TriviaText scanner.data scanner.cursor last.cursor := by
  induction steps with
  | refl => exact ⟨rfl, .done⟩
  | @head scanner next last stepped others ih =>
      obtain ⟨same, rest⟩ := ih
      rw [consumeTrivia] at stepped
      split_ifs at stepped with present blank comment
      · cases stepped
        exact ⟨same, .blank (getElem_of_hasByte present) blank rest⟩
      · obtain ⟨stop, skipped, moves, _, line, stops⟩ := skipComment_text present comment
        rw [skipped] at stepped
        cases stepped
        exact ⟨same, .comment (comment ▸ getElem_of_hasByte present) moves line stops rest⟩

theorem skipTrivia_text (scanner : Scanner) :
    scanner.skipTrivia = scanner.at_ scanner.skipTrivia.cursor ∧
      TriviaText scanner.data scanner.cursor scanner.skipTrivia.cursor :=
  trivia_passed (repeatStep_steps consumeTrivia remaining scanner)

/-! ## What a call reads -/

def peekReads (scanner : Scanner) : List Nat :=
  if scanner.hasByte then [scanner.cursor] else []

/-- The positions that a loop reads, when each evaluation of its guard and body reads some. -/
def loopReads (step : Scanner → Option Scanner) (reads : Scanner → List Nat) (scanner : Scanner) :
    List Nat :=
  (visited step scanner.remaining scanner).flatMap reads ++
    reads (repeatStep step remaining scanner)

def skipCommentReads : Scanner → List Nat :=
  loopReads commentLoop peekReads

def consumeTriviaReads (scanner : Scanner) : List Nat :=
  scanner.peekReads ++
    if scanner.peek < 33 then [] else if scanner.peek = 59 then scanner.skipCommentReads else []

def skipTriviaReads : Scanner → List Nat :=
  loopReads consumeTrivia consumeTriviaReads

def stringStepReads (scanner : Scanner) : List Nat :=
  scanner.peekReads

def scanStringReads (scanner : Scanner) : List Nat :=
  loopReads (fun inside => if inside.stringContent then some inside.stringStep else none)
    (fun inside => inside.peekReads ++ if inside.stringContent then inside.stringStepReads else [])
    scanner.advance

def scanBarStepReads (scanner : Scanner) : List Nat :=
  scanner.peekReads

def scanBarReads (scanner : Scanner) : List Nat :=
  loopReads (fun inside => if inside.barContent then some inside.scanBarStep else none)
    (fun inside => inside.peekReads ++ if inside.barContent then inside.scanBarStepReads else [])
    scanner.advance

def scanAtomStepReads (scanner : Scanner) : List Nat :=
  scanner.peekReads ++ if scanner.peek = 124 then scanner.scanBarReads else []

def scanAtomReads : Scanner → List Nat :=
  loopReads atomLoop fun inside =>
    (if inside.error then [] else inside.peekReads) ++
      if inside.atomContent then inside.scanAtomStepReads else []

def nextByteReads (scanner : Scanner) : List Nat :=
  if scanner.cursor + 1 < scanner.data.length then [scanner.cursor + 1] else []

def scanPunctuationReads (scanner : Scanner) (byte : UInt8) : List Nat :=
  if byte = 44 then scanner.advance.peekReads
  else if byte = 35 then scanner.nextByteReads else []

def scanKindReads (scanner : Scanner) : List Nat :=
  scanner.peekReads ++
    if scanner.peek = 34 then scanner.scanStringReads
    else scanner.scanPunctuationReads scanner.peek ++
      if (scanner.scanPunctuation scanner.peek).isNone then scanner.scanAtomReads else []

/-- The positions of the input that a call of `scanNext` reads. -/
def scanNextReads (scanner : Scanner) : List Nat :=
  scanner.skipTriviaReads ++
    if scanner.skipTrivia.hasByte then scanner.skipTrivia.scanKindReads else []

/-- Positions inside an input. -/
def Inside (data : List UInt8) (positions : List Nat) : Prop :=
  ∀ position ∈ positions, position < data.length

theorem inside_nil (data : List UInt8) : Inside data [] :=
  fun _ member => absurd member List.not_mem_nil

theorem Inside.append {data : List UInt8} {first second : List Nat} (one : Inside data first)
    (two : Inside data second) : Inside data (first ++ second) := by
  intro position member
  cases List.mem_append.mp member with
  | inl early => exact one position early
  | inr late => exact two position late

theorem peekReads_inside (scanner : Scanner) : Inside scanner.data scanner.peekReads := by
  rw [peekReads]
  split
  · rename_i present
    intro position member
    rw [List.mem_singleton.mp member]
    exact hasByte_iff.mp present
  · exact inside_nil _

theorem loopReads_inside {step : Scanner → Option Scanner} {reads : Scanner → List Nat}
    (advances : ∀ before after, step before = some after → Advances before after)
    (inside : ∀ scanner, Inside scanner.data (reads scanner)) (scanner : Scanner) :
    Inside scanner.data (loopReads step reads scanner) := by
  have visits : ∀ (count : Nat) (scanner : Scanner),
      Inside scanner.data ((visited step count scanner).flatMap reads) := by
    intro count
    induction count with
    | zero => exact fun scanner => inside_nil _
    | succ count ih =>
        intro scanner
        rw [visited]
        cases stepped : step scanner with
        | none => exact inside_nil _
        | some after =>
            rw [List.flatMap_cons]
            exact (inside scanner).append ((advances _ _ stepped).data ▸ ih after)
  have last := inside (repeatStep step remaining scanner)
  rw [(repeatStep_follows advances scanner).data] at last
  exact (visits _ _).append last

theorem guardedReads_inside {scanner : Scanner} {guard : Bool} {reads : List Nat}
    (inside : Inside scanner.data reads) : Inside scanner.data (if guard then reads else []) := by
  cases guard
  · exact inside_nil _
  · exact inside

theorem scanStringReads_inside (scanner : Scanner) : Inside scanner.data scanner.scanStringReads :=
  loopReads_inside (fun _ _ => string_step) (fun inside => (peekReads_inside inside).append
    (guardedReads_inside (peekReads_inside inside))) scanner.advance

theorem scanBarReads_inside (scanner : Scanner) : Inside scanner.data scanner.scanBarReads :=
  loopReads_inside (fun _ _ => bar_step) (fun inside => (peekReads_inside inside).append
    (guardedReads_inside (peekReads_inside inside))) scanner.advance

theorem scanAtomReads_inside (scanner : Scanner) : Inside scanner.data scanner.scanAtomReads := by
  refine loopReads_inside (fun _ _ => atom_step) ?_ scanner
  intro inside
  refine Inside.append ?_ (guardedReads_inside ((peekReads_inside inside).append ?_))
  · split
    · exact inside_nil _
    · exact peekReads_inside inside
  · split
    · exact scanBarReads_inside inside
    · exact inside_nil _

theorem scanKindReads_inside (scanner : Scanner) : Inside scanner.data scanner.scanKindReads := by
  refine (peekReads_inside scanner).append ?_
  split
  · exact scanStringReads_inside scanner
  · refine Inside.append ?_ (guardedReads_inside (scanAtomReads_inside scanner))
    rw [scanPunctuationReads]
    split
    · exact peekReads_inside scanner.advance
    · split
      · rw [nextByteReads]
        split
        · rename_i more
          intro position member
          rw [List.mem_singleton.mp member]
          exact more
        · exact inside_nil _
      · exact inside_nil _

/-- A call reads no byte at the end of the input or behind it. -/
theorem scanNextReads_inside (scanner : Scanner) : Inside scanner.data scanner.scanNextReads := by
  refine Inside.append ?_ ?_
  · refine loopReads_inside (fun _ _ => consumeTrivia_advances) ?_ scanner
    intro inside
    refine (peekReads_inside inside).append ?_
    split
    · exact inside_nil _
    · split
      · exact loopReads_inside (fun _ _ => skipComment_step) peekReads_inside inside
      · exact inside_nil _
  · have kind := scanKindReads_inside scanner.skipTrivia
    rw [(skipTrivia_follows scanner).data] at kind
    split
    · exact kind
    · exact inside_nil _

/-! ## One call -/

/-- A scanner of an input, which has failed only at its end. -/
structure Sound (data : List UInt8) (scanner : Scanner) : Prop where
  input : scanner.data = data
  bounded : scanner.cursor ≤ data.length
  latched : scanner.error = true → scanner.hasByte = false

theorem start_sound (data : List UInt8) : Sound data (start data) :=
  ⟨rfl, Nat.zero_le _, fun failed => Bool.noConfusion failed⟩

/-- Every loop of the scanner leaves by its own condition, from wherever it starts. -/
structure LoopsEnd (scanner : Scanner) : Prop where
  comment : commentLoop (repeatStep commentLoop remaining scanner) = none
  trivia : consumeTrivia (repeatStep consumeTrivia remaining scanner) = none
  string : (repeatStep (fun inside => if inside.stringContent then some inside.stringStep else none)
    remaining scanner).stringContent = false
  bar : (repeatStep (fun inside => if inside.barContent then some inside.scanBarStep else none)
    remaining scanner).barContent = false
  atom : atomLoop (repeatStep atomLoop remaining scanner) = none

theorem loopsEnd (scanner : Scanner) : LoopsEnd scanner where
  comment := repeatStep_stops (fun _ _ stepped => (skipComment_step stepped).falls) scanner
  trivia := skipTrivia_stops scanner
  string := (content_loops_stop scanner).1
  bar := (content_loops_stop scanner).2.1
  atom := repeatStep_stops atom_falls scanner

/-- What a call does: it skips trivia and reads the text of a token, or it finds the end, or the
token is not complete at the end. -/
theorem scanNext_text {data : List UInt8} {scanner : Scanner} (sound : Sound data scanner) :
    Sound data scanner.scanNext.2 ∧
    TriviaText data scanner.cursor scanner.scanNext.1.start ∧
    (scanner.scanNext.1.kind = .endOfFile ∧ scanner.scanNext.1.start = data.length ∧
        scanner.scanNext.1.length = 0 ∨
      scanner.scanNext.1.kind = .invalid ∧ scanner.scanNext.1.start < scanner.scanNext.1.finish ∧
        scanner.scanNext.1.finish = data.length ∨
      TokenText data scanner.scanNext.1.start scanner.scanNext.1.finish scanner.scanNext.1.kind ∧
        TokenEnds data scanner.scanNext.1.finish scanner.scanNext.1.kind) := by
  obtain ⟨rfl, bounded, latched⟩ := sound
  obtain ⟨same, trivia⟩ := skipTrivia_text scanner
  have follows := skipTrivia_follows scanner
  have settled := skipTrivia_stops scanner
  have within := follows.bounded bounded
  have finish := scanner.scanNext_finish
  have after := scanner.scanNext_follows
  rw [scanNext] at finish after ⊢
  split_ifs at finish after ⊢ with present
  · have working : scanner.skipTrivia.error = false := by
      rw [same]
      refine Bool.eq_false_iff.mpr fun failed => ?_
      have here := latched failed
      rw [hasByte_iff, follows.data] at present
      rw [hasByte, decide_eq_false_iff_not] at here
      exact here (Nat.lt_of_le_of_lt follows.moves present)
    dsimp only at finish after ⊢
    have kinds := scanKind_text working present settled
    rw [follows.data] at kinds
    rcases kinds with ⟨last, text, ends, scanned⟩ | ⟨invalid, ended⟩
    · refine ⟨⟨after.data, after.bounded bounded, ?_⟩, trivia, .inr (.inr ?_)⟩
      · intro failed
        rw [scanned] at failed
        rw [show (scanner.skipTrivia.at_ last).error = scanner.skipTrivia.error from rfl, working]
          at failed
        cases failed
      · rw [finish, scanned]
        exact ⟨text, ends⟩
    · have last : scanner.skipTrivia.scanKind.2.cursor = scanner.data.length := by
        refine Nat.le_antisymm (after.bounded bounded) ?_
        rw [← after.data]
        rw [hasByte, decide_eq_false_iff_not] at ended
        exact Nat.le_of_not_lt ended
      refine ⟨⟨after.data, after.bounded bounded, fun _ => ended⟩, trivia, .inr (.inl ?_)⟩
      rw [finish, last]
      refine ⟨invalid, ?_, rfl⟩
      rw [← follows.data]
      exact hasByte_iff.mp present
  · have ended : scanner.skipTrivia.cursor = scanner.data.length := by
      refine Nat.le_antisymm within ?_
      rw [← follows.data]
      exact Nat.le_of_not_lt fun more => present (hasByte_iff.mpr more)
    refine ⟨⟨after.data, within, fun _ => Bool.eq_false_iff.mpr present⟩, trivia, .inl ?_⟩
    exact ⟨rfl, ended, Nat.sub_self _⟩

end Scanner

/-! ## Reading a token again -/

open Scanner

section Copies

variable {data copy : List UInt8} {start length : Nat}

theorem Enclosed.copied {close : UInt8}
    (same : ∀ offset, offset < length → data[start + offset]? = copy[offset]?) {first last : Nat}
    (text : Enclosed data close (start + first) (start + last)) (inside : last < length) :
    Enclosed copy close first last := by
  generalize from_ : start + first = position, upTo : start + last = stop at text
  induction text generalizing first with
  | closed found =>
      obtain rfl : first = last := by omega
      rw [← from_, same _ inside] at found
      exact .closed found
  | plain found open_ unescaped rest ih =>
      have before := rest.le
      rw [← from_, same _ (by omega)] at found
      exact .plain found open_ unescaped (ih (by omega) upTo)
  | escaped found protects rest ih =>
      have before := rest.le
      rw [← from_, same _ (by omega)] at found
      have next := same (first + 1) (by omega)
      rw [List.getElem?_eq_getElem (by omega)] at next
      exact .escaped found (List.getElem?_eq_some_iff.mp next.symm).1 (ih (by omega) upTo)

theorem AtomText.copied
    (same : ∀ offset, offset < length → data[start + offset]? = copy[offset]?) {first last : Nat}
    (text : AtomText data (start + first) (start + last)) (inside : last ≤ length) :
    AtomText copy first last := by
  generalize from_ : start + first = position, upTo : start + last = stop at text
  induction text generalizing first with
  | done =>
      obtain rfl : first = last := by omega
      exact .done
  | plain found continues unbarred unescaped rest ih =>
      have before := rest.le
      rw [← from_, same _ (by omega)] at found
      exact .plain found continues unbarred unescaped (ih (by omega) upTo)
  | escaped found protects rest ih =>
      have before := rest.le
      rw [← from_, same _ (by omega)] at found
      have next := same (first + 1) (by omega)
      rw [List.getElem?_eq_getElem (by omega)] at next
      exact .escaped found (List.getElem?_eq_some_iff.mp next.symm).1 (ih (by omega) upTo)
  | @bars position close last found enclosed rest ih =>
      have early := enclosed.le
      have before := rest.le
      rw [← from_, same _ (by omega)] at found
      obtain ⟨closes, rfl⟩ : ∃ closes, close = start + closes := ⟨close - start, by omega⟩
      subst from_
      exact .bars found (Enclosed.copied same enclosed (by omega)) (ih (by omega) upTo)

/-- The text of a token is the same in a copy, unless the copy continues a lone number sign. -/
theorem TokenText.copied {kind : TokenKind}
    (same : ∀ offset, offset < length → data[start + offset]? = copy[offset]?)
    (text : TokenText data start (start + length) kind)
    (unmarked : length = 1 → data[start]? = some 35 → copy[1]? ≠ some 39) :
    TokenText copy 0 length kind := by
  have single {byte : UInt8} (found : data[start]? = some byte) (one : start + length = start + 1) :
      copy[0]? = some byte ∧ length = 0 + 1 := by
    have first := same 0 (by omega)
    rw [Nat.add_zero, found] at first
    exact ⟨first.symm, by omega⟩
  have double {byte other : UInt8} (found : data[start]? = some byte)
      (next : data[start + 1]? = some other) (two : start + length = start + 2) :
      copy[0]? = some byte ∧ copy[0 + 1]? = some other ∧ length = 0 + 2 := by
    have first := same 0 (by omega)
    have second := same 1 (by omega)
    rw [Nat.add_zero, found] at first
    rw [next] at second
    exact ⟨first.symm, second.symm, by omega⟩
  cases kind with
  | endOfFile => exact text
  | invalid => exact text
  | opening => exact single text.1 text.2
  | closing => exact single text.1 text.2
  | quote => exact single text.1 text.2
  | quasiquote => exact single text.1 text.2
  | unquote => exact single text.1 text.2
  | splice => exact double text.1 text.2.1 text.2.2
  | function => exact double text.1 text.2.1 text.2.2
  | string =>
      obtain ⟨found, close, enclosed, ends⟩ := text
      have early := enclosed.le
      obtain ⟨closes, rfl⟩ : ∃ closes, close = start + closes := ⟨close - start, by omega⟩
      have first := same 0 (by omega)
      rw [Nat.add_zero, found] at first
      exact ⟨first.symm, closes, Enclosed.copied same enclosed (by omega), by omega⟩
  | atom =>
      obtain ⟨more, parts, plain⟩ := text
      refine ⟨by omega, @AtomText.copied _ _ _ _ same 0 _ parts (Nat.le_refl _), ?_⟩
      rintro ⟨first, second⟩
      rw [← same 0 (by omega), Nat.add_zero] at first
      by_cases one : length = 1
      · exact unmarked one first second
      · rw [Nat.zero_add, ← same 1 (by omega)] at second
        exact plain ⟨first, second⟩

end Copies

/-- A token begins with a byte that is no trivia. -/
theorem TokenText.starts {data : List UInt8} {start finish : Nat} {kind : TokenKind}
    (text : TokenText data start finish kind) :
    ∃ byte, data[start]? = some byte ∧ ¬byte < 33 ∧ byte ≠ 59 := by
  cases kind with
  | endOfFile => exact absurd text id
  | invalid => exact absurd text id
  | atom =>
      obtain ⟨byte, found, continues⟩ := text.2.1.first text.1
      simp only [atomDelimiter, Bool.or_eq_false_iff, decide_eq_false_iff_not] at continues
      exact ⟨byte, found, continues.1.1.1.1.1.1.1, continues.1.1.1.2⟩
  | _ => exact ⟨_, text.1, by decide, by decide⟩

/-- The bytes of a token. -/
def Token.bytes (data : List UInt8) (token : Token) : List UInt8 :=
  (data.drop token.start).take token.length

/-- From the bytes of a token and a delimiter, the token is read again. -/
theorem TokenText.rescanned {data rest : List UInt8} {start length : Nat} {kind : TokenKind}
    {delimiter : UInt8} (text : TokenText data start (start + length) kind)
    (within : start + length ≤ data.length) (delimits : atomDelimiter delimiter = true)
    (apart : ¬((data.drop start).take length = [35] ∧ delimiter = 39)) :
    (Scanner.start ((data.drop start).take length ++ delimiter :: rest)).scanNext.1 =
      { kind, start := 0, length } := by
  have size : ((data.drop start).take length).length = length := by
    rw [List.length_take, List.length_drop]
    omega
  have same : ∀ offset, offset < length → data[start + offset]? =
      ((data.drop start).take length ++ delimiter :: rest)[offset]? := by
    intro offset inside
    rw [List.getElem?_append_left (by omega), List.getElem?_take_of_lt inside, List.getElem?_drop]
  have behind : ((data.drop start).take length ++ delimiter :: rest)[length]? = some delimiter := by
    rw [List.getElem?_append_right (by omega), size, Nat.sub_self]
    rfl
  have again : TokenText ((data.drop start).take length ++ delimiter :: rest) 0 length kind := by
    refine TokenText.copied same text ?_
    rintro rfl sharp next
    rw [behind] at next
    refine apart ⟨?_, Option.some.inj next⟩
    have first : ((data.drop start).take 1)[0]? = some 35 := by
      rw [List.getElem?_take_of_lt Nat.one_pos, List.getElem?_drop]
      exact sharp
    obtain ⟨byte, single⟩ := List.length_eq_one_iff.mp size
    rw [single] at first ⊢
    exact congrArg (fun byte => [byte]) (Option.some.inj first)
  have ends : TokenEnds ((data.drop start).take length ++ delimiter :: rest) length kind := by
    cases kind with
    | atom =>
        intro byte found
        rw [behind] at found
        rwa [← Option.some.inj found]
    | unquote =>
        intro found
        rw [behind] at found
        rw [Option.some.inj found] at delimits
        exact absurd delimits (by decide)
    | _ => trivial
  generalize (data.drop start).take length ++ delimiter :: rest = copy at again ends
  obtain ⟨byte, found, visible, other⟩ := again.starts
  obtain ⟨present, first⟩ := @peek_of_getElem (Scanner.start copy) byte found
  have settled : (Scanner.start copy).skipTrivia = Scanner.start copy := by
    refine repeatStep_of_none ?_
    rw [consumeTrivia, if_pos present, first, if_neg visible, if_neg other]
  have scanned := @TokenText.scanKind (Scanner.start copy) kind length rfl again ends
  rw [scanNext, settled, if_pos present, scanned]
  rfl

/-! ## All calls -/

/-- The scanner of an input after a number of calls. -/
def scannerAfter (data : List UInt8) : Nat → Scanner
  | 0 => Scanner.start data
  | count + 1 => (scannerAfter data count).scanNext.2

/-- The token that a call delivers. -/
def tokenAt (data : List UInt8) (call : Nat) : Token :=
  (scannerAfter data call).scanNext.1

/-- A token that is neither the end of the input nor incomplete. -/
def Token.Complete (token : Token) : Prop :=
  token.kind ≠ .endOfFile ∧ token.kind ≠ .invalid

instance (token : Token) : Decidable token.Complete :=
  inferInstanceAs (Decidable (_ ∧ _))

theorem scannerAfter_sound (data : List UInt8) (call : Nat) :
    Scanner.Sound data (scannerAfter data call) := by
  induction call with
  | zero => exact Scanner.start_sound data
  | succ call ih => exact (Scanner.scanNext_text ih).1

theorem tokenAt_finish (data : List UInt8) (call : Nat) :
    (tokenAt data call).finish = (scannerAfter data (call + 1)).cursor :=
  (scannerAfter data call).scanNext_finish

theorem tokenAt_text {data : List UInt8} {call : Nat} (complete : (tokenAt data call).Complete) :
    TokenText data (tokenAt data call).start (tokenAt data call).finish (tokenAt data call).kind ∧
      TokenEnds data (tokenAt data call).finish (tokenAt data call).kind := by
  rcases (Scanner.scanNext_text (scannerAfter_sound data call)).2.2 with ended | invalid | text
  · exact absurd ended.1 complete.1
  · exact absurd invalid.1 complete.2
  · exact text

theorem TokenText.lt {data : List UInt8} {start finish : Nat} {kind : TokenKind}
    (text : TokenText data start finish kind) : start < finish := by
  cases kind with
  | endOfFile => exact absurd text id
  | invalid => exact absurd text id
  | atom => exact text.1
  | string =>
      obtain ⟨_, close, enclosed, rfl⟩ := text
      exact Nat.lt_succ_of_lt enclosed.le
  | splice => exact text.2.2 ▸ Nat.lt_add_of_pos_right (by decide)
  | function => exact text.2.2 ▸ Nat.lt_add_of_pos_right (by decide)
  | _ => exact text.2 ▸ Nat.lt_succ_self _

/-- The tokens of an input, call after call, with what stands between them. -/
structure TokenPartition (data : List UInt8) : Prop where
  loops : ∀ scanner : Scanner, scanner.LoopsEnd
  reads : ∀ call, ∀ position ∈ (scannerAfter data call).scanNextReads, position < data.length
  spans : ∀ call, (scannerAfter data call).cursor ≤ (tokenAt data call).start ∧
    (tokenAt data call).finish = (scannerAfter data (call + 1)).cursor ∧
    (tokenAt data call).finish ≤ data.length
  advances : ∀ call, (tokenAt data call).kind ≠ .endOfFile →
    (tokenAt data call).start < (tokenAt data call).finish
  ordered : ∀ call later, call < later → (tokenAt data call).finish ≤ (tokenAt data later).start
  gaps : ∀ call, TriviaText data (scannerAfter data call).cursor (tokenAt data call).start
  ends : ∀ call, (tokenAt data call).kind = .endOfFile → (tokenAt data call).start = data.length
  texts : ∀ call, (tokenAt data call).Complete →
    TokenText data (tokenAt data call).start (tokenAt data call).finish (tokenAt data call).kind ∧
      TokenEnds data (tokenAt data call).finish (tokenAt data call).kind
  rescanned : ∀ call delimiter rest, (tokenAt data call).Complete →
    Scanner.atomDelimiter delimiter = true →
    ¬((tokenAt data call).bytes data = [35] ∧ delimiter = 39) →
    (Scanner.start ((tokenAt data call).bytes data ++ delimiter :: rest)).scanNext.1 =
      { kind := (tokenAt data call).kind, start := 0, length := (tokenAt data call).length }

theorem scannerAfter_monotone (data : List UInt8) {call later : Nat} (before : call ≤ later) :
    (scannerAfter data call).cursor ≤ (scannerAfter data later).cursor := by
  induction before with
  | refl => exact Nat.le_refl _
  | step _ ih => exact Nat.le_trans ih (scannerAfter data _).scanNext_follows.moves

/-- The tokens of every input are in order, with trivia between them; each of them is a text of its
kind, and is read again from its own bytes before a delimiter. -/
theorem scanNext_partitions (data : List UInt8) : TokenPartition data where
  loops := Scanner.loopsEnd
  reads call := by
    have inside := Scanner.scanNextReads_inside (scannerAfter data call)
    rw [(scannerAfter_sound data call).input] at inside
    exact inside
  spans call := by
    refine ⟨Scanner.le_scanNext_start _, tokenAt_finish data call, ?_⟩
    rw [tokenAt_finish]
    exact (scannerAfter_sound data (call + 1)).bounded
  advances call more := by
    rcases (Scanner.scanNext_text (scannerAfter_sound data call)).2.2 with ended | invalid | text
    · exact absurd ended.1 more
    · exact invalid.2.1
    · exact text.1.lt
  ordered call later before := by
    rw [tokenAt_finish]
    exact Nat.le_trans (scannerAfter_monotone data before) (Scanner.le_scanNext_start _)
  gaps call := (Scanner.scanNext_text (scannerAfter_sound data call)).2.1
  ends call ended := by
    rcases (Scanner.scanNext_text (scannerAfter_sound data call)).2.2 with found | invalid | text
    · exact found.2.1
    · exact absurd (invalid.1.symm.trans ended) (by decide)
    · rw [show (scannerAfter data call).scanNext.1.kind = .endOfFile from ended] at text
      exact absurd text.1 id
  texts call complete := tokenAt_text complete
  rescanned call delimiter rest complete delimits apart := by
    refine TokenText.rescanned (tokenAt_text complete).1 ?_ delimits apart
    change (tokenAt data call).finish ≤ data.length
    rw [tokenAt_finish]
    exact (scannerAfter_sound data (call + 1)).bounded

/-- Not every token is read again before every delimiter: a number sign alone, with a quotation mark
behind it, is read as the mark of a function. -/
theorem scanNext_sharp : ¬∀ (data : List UInt8) (call : Nat) (delimiter : UInt8),
    (tokenAt data call).Complete → Scanner.atomDelimiter delimiter = true →
    (Scanner.start ((tokenAt data call).bytes data ++ [delimiter])).scanNext.1 =
      { kind := (tokenAt data call).kind, start := 0, length := (tokenAt data call).length } := by
  intro all
  have again := all [35, 32] 0 39 (by decide) (by decide)
  exact absurd again (by decide)

end Native
