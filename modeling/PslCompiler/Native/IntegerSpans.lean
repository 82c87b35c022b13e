import PslCompiler.Native.IntegerTokens

/-! # Which spans are integers

The reader of integers looks at the bytes of a span and finds what they denote, except for two kinds
of span (`parseIntegerToken_exact_iff`). After a number sign that stands alone it reads on behind the
span, and after the digit that exceeds a word it looks at no further byte.
-/

namespace Native

/-! ## The bytes that are read -/

/-- The positions that `integerRadix` reads. -/
def radixReads (data : Nat → UInt8) (index finish : Nat) : List Nat :=
  if index + 1 < finish then
    if data index = 35 then [index, index + 1] else [index]
  else []

/-- The positions that `parseDigits` reads. -/
def digitReads (data : Nat → UInt8) (radix : Nat) : Nat → Nat → Nat → List Nat
  | 0, _, _ => []
  | ahead + 1, index, value =>
      let digit := (integerDigit (data index)).toNat
      index ::
        if digit < radix then
          if integerOverflowsP value digit radix then []
          else digitReads data radix ahead (index + 1) (wrapAdd (value * radix % wordLimit) digit)
        else []

/-- The positions that `parseIntegerBody` reads. -/
def bodyReads (data : Nat → UInt8) (digits finish : Nat) : List Nat :=
  if digits = finish then []
  else
    let radix := integerRadix data digits finish
    radixReads data digits finish ++
      if radix = 0 then []
      else
        let start := if data digits = 35 then digits + 2 else digits
        digits ::
          if start = finish then []
          else
            digitReads data radix
              (if start ≤ finish then finish - start else wordLimit - (start - finish)) start 0

/-- The positions that `parseIntegerToken` reads. -/
def integerReads (data : Nat → UInt8) (start length : Nat) : List Nat :=
  if length = 0 then []
  else
    let first := data start
    start :: bodyReads data
      (if first = 43 then start + 1 else if first = 45 then start + 1 else start) (start + length)

section Reads

variable {data other : Nat → UInt8}

theorem integerRadix_reads {index finish : Nat}
    (same : ∀ position ∈ radixReads data index finish, other position = data position) :
    integerRadix other index finish = integerRadix data index finish ∧
      radixReads other index finish = radixReads data index finish := by
  unfold radixReads at same
  unfold integerRadix radixReads
  by_cases inside : index + 1 < finish
  · rw [if_pos inside] at same
    by_cases marked : data index = 35
    · rw [if_pos marked] at same
      rw [same index List.mem_cons_self, same (index + 1) (List.mem_cons_of_mem _ List.mem_cons_self)]
      exact ⟨rfl, rfl⟩
    · rw [if_neg marked] at same
      rw [if_pos inside, if_pos inside, if_pos inside, if_pos inside,
        same index List.mem_cons_self, if_neg marked, if_neg marked, if_neg marked]
      exact ⟨rfl, rfl⟩
  · rw [if_neg inside, if_neg inside, if_neg inside, if_neg inside]
    exact ⟨rfl, rfl⟩

theorem parseDigits_reads {radix : Nat} (output : ParsedInteger) : ∀ (ahead index value : Nat),
    (∀ position ∈ digitReads data radix ahead index value, other position = data position) →
    parseDigits other radix ahead index value output =
      parseDigits data radix ahead index value output := by
  intro ahead
  induction ahead with
  | zero => exact fun _ _ _ => rfl
  | succ ahead ih =>
      intro index value same
      rw [digitReads] at same
      rw [parseDigits, parseDigits, same index List.mem_cons_self]
      split
      · rename_i small
        split
        · rfl
        · rename_i fits
          rw [if_pos small, if_neg fits] at same
          exact ih _ _ fun position member => same position (List.mem_cons_of_mem _ member)
      · rfl

/-- Reading depends on the bytes that are read, and on no others. -/
theorem parseIntegerToken_reads {start length : Nat} (output : ParsedInteger)
    (same : ∀ position ∈ integerReads data start length, other position = data position) :
    parseIntegerToken other start length output = parseIntegerToken data start length output := by
  unfold integerReads at same
  unfold parseIntegerToken
  by_cases empty : length = 0
  · rw [if_pos empty, if_pos empty]
  · rw [if_neg empty] at same
    rw [if_neg empty, if_neg empty]
    dsimp only at same ⊢
    rw [same start List.mem_cons_self]
    have body := fun position member => same position (List.mem_cons_of_mem _ member)
    generalize (if data start = 43 then start + 1 else if data start = 45 then start + 1 else start) =
      digits at body ⊢
    unfold bodyReads at body
    unfold parseIntegerBody
    by_cases ended : digits = start + length
    · rw [if_pos ended, if_pos ended]
    · rw [if_neg ended] at body
      rw [if_neg ended, if_neg ended]
      dsimp only at body ⊢
      rw [(integerRadix_reads fun position member =>
        body position (List.mem_append_left _ member)).1]
      by_cases unknown : integerRadix data digits (start + length) = 0
      · rw [if_pos unknown, if_pos unknown]
      · rw [if_neg unknown] at body
        rw [if_neg unknown, if_neg unknown,
          body digits (List.mem_append_right _ List.mem_cons_self)]
        generalize (if data digits = 35 then digits + 2 else digits) = begins at body ⊢
        by_cases none : begins = start + length
        · rw [if_pos none, if_pos none]
        · rw [if_neg none] at body
          rw [if_neg none, if_neg none]
          exact parseDigits_reads _ _ _ _ fun position member =>
            body position (List.mem_append_right _ (List.mem_cons_of_mem _ member))

end Reads

/-! ## Spans -/

/-- The bytes of a span. -/
def spanBytes (data : Nat → UInt8) : Nat → Nat → List UInt8
  | _, 0 => []
  | start, length + 1 => data start :: spanBytes data (start + 1) length

theorem spanBytes_length (data : Nat → UInt8) : ∀ (start length : Nat),
    (spanBytes data start length).length = length := by
  intro start length
  induction length generalizing start with
  | zero => rfl
  | succ length ih => rw [spanBytes, List.length_cons, ih]

theorem spanBytes_first {data : Nat → UInt8} {start : Nat} {byte : UInt8} {rest : List UInt8} :
    ∀ {length : Nat}, spanBytes data start length = byte :: rest → data start = byte := by
  intro length same
  cases length with
  | zero => cases same
  | succ length =>
      rw [spanBytes, List.cons.injEq] at same
      exact same.1

theorem spanBytes_drop (data : Nat → UInt8) : ∀ (count start length : Nat),
    (spanBytes data start length).drop count = spanBytes data (start + count) (length - count) := by
  intro count
  induction count with
  | zero => exact fun _ _ => rfl
  | succ count ih =>
      intro start length
      cases length with
      | zero =>
          rw [Nat.zero_sub]
          rfl
      | succ length =>
          rw [spanBytes, List.drop_succ_cons, ih, Nat.add_right_comm, Nat.add_sub_add_right]
          rfl

theorem spanBytes_isEmpty (data : Nat → UInt8) (start length : Nat) :
    (spanBytes data start length).isEmpty = true ↔ length = 0 := by
  rw [List.isEmpty_iff, ← List.length_eq_zero_iff, spanBytes_length]

/-- The beginnings of a span are what stands at its start. -/
theorem prefix_spanBytes {data : Nat → UInt8} {bytes : List UInt8} : ∀ {start length : Nat},
    bytes <+: spanBytes data start length ↔ BytesAt data start bytes ∧ bytes.length ≤ length := by
  induction bytes with
  | nil =>
      intro start length
      exact ⟨fun _ => ⟨fun _ inside => absurd inside (Nat.not_lt_zero _), Nat.zero_le _⟩,
        fun _ => List.nil_prefix⟩
  | cons byte bytes ih =>
      intro start length
      cases length with
      | zero =>
          rw [spanBytes, List.prefix_nil]
          exact ⟨fun empty => absurd empty (List.cons_ne_nil _ _),
            fun stands => absurd stands.2 (Nat.not_succ_le_zero _)⟩
      | succ length =>
          rw [spanBytes, List.cons_prefix_cons, ih, List.length_cons, Nat.succ_le_succ_iff]
          constructor
          · rintro ⟨first, stands, short⟩
            refine ⟨?_, short⟩
            intro index inside
            cases index with
            | zero => exact first.symm
            | succ index =>
                have next := stands index (Nat.lt_of_succ_lt_succ inside)
                rw [Nat.add_right_comm] at next
                exact next
          · rintro ⟨stands, short⟩
            exact ⟨(stands 0 (Nat.succ_pos _)).symm,
              (@BytesAt.append data start [byte] bytes stands).2, short⟩

theorem eq_spanBytes {data : Nat → UInt8} {bytes : List UInt8} {start length : Nat} :
    bytes = spanBytes data start length ↔ BytesAt data start bytes ∧ bytes.length = length := by
  constructor
  · intro same
    have whole := prefix_spanBytes.mp (same ▸ List.prefix_rfl :
      bytes <+: spanBytes data start length)
    exact ⟨whole.1, by rw [same, spanBytes_length]⟩
  · rintro ⟨stands, same⟩
    exact (prefix_spanBytes.mpr ⟨stands, same.le⟩).eq_of_length (by rw [same, spanBytes_length])

/-! ## Bytes that are digits and marks -/

theorem exists_digitByte {byte : UInt8} (digit : (integerDigit byte).toNat < 16) :
    ∃ capital, byte = digitByte (integerDigit byte).toNat capital := by
  revert digit
  have all : ∀ byte : Fin 256, (integerDigit (UInt8.ofNat byte)).toNat < 16 →
      UInt8.ofNat byte = digitByte (integerDigit (UInt8.ofNat byte)).toNat true ∨
        UInt8.ofNat byte = digitByte (integerDigit (UInt8.ofNat byte)).toNat false := by
    decide +kernel
  intro digit
  have found := all ⟨byte.toNat, byte.toNat_lt⟩
  rw [UInt8.ofNat_toNat] at found
  cases found digit with
  | inl capital => exact ⟨true, capital⟩
  | inr small => exact ⟨false, small⟩

/-- The radix of a letter that is a mark, with the letter that it is. -/
theorem exists_mark {letter : UInt8}
    (known : (let plain := letter &&& 223
      if plain = 88 then 16 else if plain = 66 then 2 else if plain = 79 then 8
      else if plain = 68 then 10 else 0) ≠ 0) :
    ∃ (mark : RadixMark) (capital : Bool), mark.bytes capital = [35, letter] ∧
      (let plain := letter &&& 223
        if plain = 88 then 16 else if plain = 66 then 2 else if plain = 79 then 8
        else if plain = 68 then 10 else 0) = mark.radix := by
  have all : ∀ byte : Fin 256,
      (UInt8.ofNat byte &&& 223 = 88 → UInt8.ofNat byte = 88 ∨ UInt8.ofNat byte = 120) ∧
      (UInt8.ofNat byte &&& 223 = 66 → UInt8.ofNat byte = 66 ∨ UInt8.ofNat byte = 98) ∧
      (UInt8.ofNat byte &&& 223 = 79 → UInt8.ofNat byte = 79 ∨ UInt8.ofNat byte = 111) ∧
      (UInt8.ofNat byte &&& 223 = 68 → UInt8.ofNat byte = 68 ∨ UInt8.ofNat byte = 100) := by
    decide +kernel
  have letters := all ⟨letter.toNat, letter.toNat_lt⟩
  rw [UInt8.ofNat_toNat] at letters
  obtain ⟨hexadecimal, binary, octal, decimal⟩ := letters
  dsimp only at known ⊢
  split_ifs at known ⊢ with isHexadecimal isBinary isOctal isDecimal
  · cases hexadecimal isHexadecimal with
    | inl same => exact ⟨.hexadecimal, true, by rw [same]; rfl, rfl⟩
    | inr same => exact ⟨.hexadecimal, false, by rw [same]; rfl, rfl⟩
  · cases binary isBinary with
    | inl same => exact ⟨.binary, true, by rw [same]; rfl, rfl⟩
    | inr same => exact ⟨.binary, false, by rw [same]; rfl, rfl⟩
  · cases octal isOctal with
    | inl same => exact ⟨.octal, true, by rw [same]; rfl, rfl⟩
    | inr same => exact ⟨.octal, false, by rw [same]; rfl, rfl⟩
  · cases decimal isDecimal with
    | inl same => exact ⟨.decimal, true, by rw [same]; rfl, rfl⟩
    | inr same => exact ⟨.decimal, false, by rw [same]; rfl, rfl⟩
  · exact absurd rfl known

/-- The sign that a byte is, or none. -/
def signOf (byte : UInt8) : Sign :=
  if byte = 43 then .plus else if byte = 45 then .minus else .none

section Parts

variable {data : Nat → UInt8}

theorem signOf_after (start : Nat) :
    (if data start = 43 then start + 1 else if data start = 45 then start + 1 else start) =
        start + (signOf (data start)).bytes.length ∧
      decide (data start = 45) = decide (signOf (data start) = .minus) := by
  unfold signOf
  by_cases plus : data start = 43
  · rw [if_pos plus, if_pos plus, plus]
    exact ⟨rfl, rfl⟩
  · rw [if_neg plus, if_neg plus]
    by_cases minus : data start = 45
    · rw [if_pos minus, if_pos minus, minus]
      exact ⟨rfl, rfl⟩
    · rw [if_neg minus, if_neg minus, decide_eq_false minus]
      exact ⟨rfl, rfl⟩

theorem signOf_stands (start : Nat) : BytesAt data start (signOf (data start)).bytes := by
  unfold signOf
  split_ifs with plus minus
  · intro index inside
    obtain rfl := Nat.lt_one_iff.mp inside
    exact plus
  · intro index inside
    obtain rfl := Nat.lt_one_iff.mp inside
    exact minus
  · exact fun _ inside => absurd inside (Nat.not_lt_zero _)

theorem BytesAt.append_of {start : Nat} {first second : List UInt8} (stands : BytesAt data start first)
    (rest : BytesAt data (start + first.length) second) : BytesAt data start (first ++ second) := by
  intro index inside
  by_cases early : index < first.length
  · rw [List.getElem_append_left early]
    exact stands index early
  · rw [List.length_append] at inside
    have found := rest (index - first.length) (by omega)
    rw [List.getElem_append_right (by omega), ← found, Nat.add_assoc]
    congr 2
    omega

/-- The bytes at the start of the digits are a mark, when they announce a radix. -/
theorem integerRadix_mark {index finish : Nat} (known : integerRadix data index finish ≠ 0)
    (followed : data index = 35 → index + 1 < finish) :
    ∃ (mark : RadixMark) (capital : Bool), mark.radix = integerRadix data index finish ∧
      BytesAt data index (mark.bytes capital) ∧
      (if data index = 35 then index + 2 else index) = index + (mark.bytes capital).length ∧
      (mark.bytes capital ≠ [] → index + 1 < finish) := by
  unfold integerRadix at known ⊢
  by_cases marked : data index = 35
  · rw [if_pos (followed marked), if_pos marked] at known ⊢
    obtain ⟨mark, capital, bytes, radix⟩ := exists_mark known
    refine ⟨mark, capital, radix.symm, ?_, ?_, fun _ => followed marked⟩
    · rw [bytes]
      intro position inside
      change position < 2 at inside
      interval_cases position
      · exact marked
      · rfl
    · rw [if_pos marked, bytes]
      rfl
  · rw [if_neg marked, ite_self, if_neg marked]
    exact ⟨.none, false, rfl, fun _ inside => absurd inside (Nat.not_lt_zero _), rfl,
      fun other => absurd rfl other⟩

/-- What reading digits finds: their value, or that the first of them already exceed a word. -/
theorem parseDigits_found {mark : RadixMark} (output : ParsedInteger) :
    ∀ (ahead start value : Nat), value < wordLimit →
      (parseDigits data mark.radix ahead start value output).1 ≠ .notInteger →
      ∃ digits : List (Nat × Bool), (∀ digit ∈ digits, digit.1 < mark.radix) ∧
        BytesAt data start (digits.map fun digit => digitByte digit.1 digit.2) ∧
        digits.length ≤ ahead ∧ (0 < ahead → digits ≠ []) ∧
        ((parseDigits data mark.radix ahead start value output).1 = .value →
          digits.length = ahead) ∧
        ((parseDigits data mark.radix ahead start value output).1 = .overflow →
          wordLimit ≤ IntegerToken.digitsValue mark.radix value digits) := by
  intro ahead
  induction ahead with
  | zero =>
      intro start value _ _
      refine ⟨[], fun _ member => absurd member List.not_mem_nil,
        fun _ inside => absurd inside (Nat.not_lt_zero _), Nat.le_refl _,
        fun more => absurd more (Nat.lt_irrefl _), fun _ => rfl, fun overflows => ?_⟩
      cases overflows
  | succ ahead ih =>
      intro start value below found
      rw [parseDigits] at found ⊢
      by_cases small : (integerDigit (data start)).toNat < mark.radix
      · rw [if_pos small] at found ⊢
        obtain ⟨capital, byte⟩ := exists_digitByte (small.trans_le (radix_le mark))
        have single : BytesAt data start [digitByte (integerDigit (data start)).toNat capital] := by
          intro index inside
          obtain rfl := Nat.lt_one_iff.mp inside
          exact byte
        by_cases overflows : integerOverflowsP value (integerDigit (data start)).toNat mark.radix
        · rw [if_pos overflows]
          refine ⟨[((integerDigit (data start)).toNat, capital)], ?_, single,
            Nat.succ_le_succ (Nat.zero_le _), fun _ => List.cons_ne_nil _ _, fun found => ?_,
            fun _ => (integerOverflowsP_iff small).mp overflows⟩
          · intro digit member
            rw [List.mem_singleton.mp member]
            exact small
          · cases found
        · rw [if_neg overflows] at found ⊢
          have fits : ¬wordLimit ≤ value * mark.radix + (integerDigit (data start)).toNat :=
            fun larger => overflows ((integerOverflowsP_iff small).mpr larger)
          have next : wrapAdd (value * mark.radix % wordLimit) (integerDigit (data start)).toNat =
              value * mark.radix + (integerDigit (data start)).toNat := by
            rw [wrapAdd, Nat.mod_eq_of_lt (show value * mark.radix < wordLimit by omega),
              Nat.mod_eq_of_lt (by omega)]
          rw [next] at found ⊢
          obtain ⟨digits, valid, stands, short, _, value, overflow⟩ := ih _ _ (by omega) found
          refine ⟨((integerDigit (data start)).toNat, capital) :: digits, ?_,
            single.append_of stands, Nat.succ_le_succ short, fun _ => List.cons_ne_nil _ _,
            fun found => congrArg Nat.succ (value found), overflow⟩
          intro digit member
          cases List.mem_cons.mp member with
          | inl first => exact first ▸ small
          | inr others => exact valid digit others
      · rw [if_neg small] at found
        exact absurd rfl found

/-- Reading ends at the digit that exceeds a word. -/
theorem parseDigits_exceeds {mark : RadixMark} {digits : List (Nat × Bool)}
    (valid : ∀ digit ∈ digits, digit.1 < mark.radix) {ahead start value : Nat}
    (output : ParsedInteger) (below : value < wordLimit) (short : digits.length ≤ ahead)
    (stands : BytesAt data start (digits.map fun digit => digitByte digit.1 digit.2))
    (exceeds : wordLimit ≤ IntegerToken.digitsValue mark.radix value digits) :
    (parseDigits data mark.radix ahead start value output).1 = .overflow := by
  induction digits generalizing start value ahead with
  | nil => exact absurd exceeds (Nat.not_le.mpr below)
  | cons digit rest ih =>
      have small := valid digit List.mem_cons_self
      have first : data start = digitByte digit.1 digit.2 :=
        stands 0 (by rw [List.length_map, List.length_cons]; omega)
      have others : BytesAt data (start + 1) (rest.map fun digit => digitByte digit.1 digit.2) :=
        (@BytesAt.append data start [digitByte digit.1 digit.2] _ stands).2
      obtain ⟨fewer, rfl⟩ := Nat.exists_eq_succ_of_ne_zero (Nat.ne_zero_of_lt short)
      rw [parseDigits, first, integerDigit_digitByte (small.trans_le (radix_le mark)), if_pos small]
      by_cases overflows : wordLimit ≤ value * mark.radix + digit.1
      · rw [if_pos ((integerOverflowsP_iff small).mpr overflows)]
      · have next : wrapAdd (value * mark.radix % wordLimit) digit.1 =
            value * mark.radix + digit.1 := by
          rw [wrapAdd, Nat.mod_eq_of_lt (show value * mark.radix < wordLimit by omega),
            Nat.mod_eq_of_lt (by omega)]
        rw [if_neg (fun found => overflows ((integerOverflowsP_iff small).mp found)), next]
        exact ih (fun digit member => valid digit (List.mem_cons_of_mem _ member)) (by omega)
          (Nat.le_of_succ_le_succ short) others exceeds

end Parts

/-! ## What reading a span finds -/

section Spans

variable {data : Nat → UInt8} {start length : Nat}

/-- Whether bytes are a number sign alone, or one after a sign. -/
def LoneMark (bytes : List UInt8) : Prop :=
  ∃ sign : Sign, bytes = sign.bytes ++ [35]

/-- Whether bytes begin with an integer that exceeds a word and are no integer themselves. -/
def LateByte (bytes : List UInt8) : Prop :=
  (∃ token : IntegerToken, token.bytes <+: bytes ∧ wordLimit ≤ token.magnitude) ∧
    ∀ token : IntegerToken, token.bytes ≠ bytes

/-- Reading looks at no byte outside a span, and it finds what the span denotes. -/
structure ReadsExactly (data : Nat → UInt8) (start length : Nat) (output : ParsedInteger) : Prop where
  inside : ∀ position ∈ integerReads data start length, start ≤ position ∧ position < start + length
  value : (parseIntegerToken data start length output).1 = .value ↔
    ∃ token : IntegerToken, token.bytes = spanBytes data start length ∧ token.magnitude < wordLimit
  stored : ∀ token : IntegerToken, token.bytes = spanBytes data start length →
    token.magnitude < wordLimit → (parseIntegerToken data start length output).2 =
      { magnitude := token.magnitude, negative := token.sign = .minus, radix := token.mark.radix }
  overflow : (parseIntegerToken data start length output).1 = .overflow ↔
    ∃ token : IntegerToken, token.bytes = spanBytes data start length ∧ wordLimit ≤ token.magnitude
  notInteger : (parseIntegerToken data start length output).1 = .notInteger ↔
    ∀ token : IntegerToken, token.bytes ≠ spanBytes data start length

theorem parseIntegerToken_body (output : ParsedInteger) (nonempty : length ≠ 0) :
    parseIntegerToken data start length output =
      parseIntegerBody data (start + (signOf (data start)).bytes.length) (start + length)
        (signOf (data start) = .minus) output := by
  rw [parseIntegerToken, if_neg nonempty]
  dsimp only
  rw [(signOf_after start).1, (signOf_after start).2]

theorem integerReads_body (nonempty : length ≠ 0) : integerReads data start length =
    start :: bodyReads data (start + (signOf (data start)).bytes.length) (start + length) := by
  rw [integerReads, if_neg nonempty]
  dsimp only
  rw [(signOf_after start).1]

/-- A byte that follows the sign of bytes is the number sign or no sign. -/
theorem signOf_eq {sign : Sign} {rest : List UInt8} (nonempty : rest ≠ [])
    (unsigned : sign = .none → ∀ byte ∈ rest.head?, byte ≠ 43 ∧ byte ≠ 45)
    (stands : BytesAt data start (sign.bytes ++ rest)) : signOf (data start) = sign := by
  cases sign with
  | none =>
      obtain ⟨byte, others, rfl⟩ := List.exists_cons_of_ne_nil nonempty
      have first : data start = byte := stands 0 (Nat.succ_pos _)
      have plain := unsigned rfl byte rfl
      rw [first, signOf, if_neg plain.1, if_neg plain.2]
  | plus =>
      have first : data start = 43 := stands 0 (Nat.succ_pos _)
      rw [first]
      rfl
  | minus =>
      have first : data start = 45 := stands 0 (Nat.succ_pos _)
      rw [first]
      rfl

theorem IntegerToken.signOf_start (token : IntegerToken) (stands : BytesAt data start token.bytes) :
    signOf (data start) = token.sign := by
  rw [IntegerToken.bytes, List.append_assoc] at stands
  refine signOf_eq ?_ ?_ stands
  · intro empty
    exact token.nonempty (List.map_eq_nil_iff.mp (List.append_eq_nil_iff.mp empty).2)
  · intro _ byte member
    by_cases plain : token.mark = .none
    · rw [plain] at member
      obtain ⟨digit, others, same⟩ := List.exists_cons_of_ne_nil token.nonempty
      rw [same] at member
      obtain rfl := Option.some.inj member
      have small := token.valid digit (same ▸ List.mem_cons_self)
      exact (digitByte_ne (small.trans_le (radix_le token.mark)) digit.2).2
    · have first : (token.mark.bytes token.capitalMark).head? = some 35 := by
        cases mark : token.mark with
        | none => exact absurd mark plain
        | _ => rfl
      rw [List.head?_append, first] at member
      obtain rfl := Option.some.inj member
      decide

theorem loneMark_iff : LoneMark (spanBytes data start length) ↔
    length = (signOf (data start)).bytes.length + 1 ∧
      data (start + (signOf (data start)).bytes.length) = 35 := by
  constructor
  · rintro ⟨sign, same⟩
    obtain ⟨stands, short⟩ := eq_spanBytes.mp same.symm
    have found : signOf (data start) = sign :=
      signOf_eq (List.cons_ne_nil 35 []) (fun _ byte member => by
        obtain rfl := Option.some.inj member
        decide) stands
    rw [found]
    rw [List.length_append] at short
    exact ⟨short.symm, stands.append.2 0 (Nat.succ_pos _)⟩
  · rintro ⟨short, mark⟩
    refine ⟨signOf (data start), (eq_spanBytes.mpr ⟨?_, by rw [List.length_append, short]; rfl⟩).symm⟩
    refine (signOf_stands start).append_of ?_
    intro index inside
    obtain rfl := Nat.lt_one_iff.mp inside
    exact mark

/-- A sign does not exceed a span that has bytes. -/
theorem signOf_length_le (nonempty : length ≠ 0) : (signOf (data start)).bytes.length ≤ length := by
  have short : (signOf (data start)).bytes.length ≤ 1 := by
    cases signOf (data start) <;> decide
  omega

/-- Where reading finds an integer or too large a one, the span begins with that integer. -/
theorem parseIntegerToken_found (output : ParsedInteger)
    (followed : ¬LoneMark (spanBytes data start length))
    (found : (parseIntegerToken data start length output).1 ≠ .notInteger) :
    ∃ token : IntegerToken, token.bytes <+: spanBytes data start length ∧
      ((parseIntegerToken data start length output).1 = .value →
        token.bytes = spanBytes data start length) ∧
      ((parseIntegerToken data start length output).1 = .overflow → wordLimit ≤ token.magnitude) := by
  have nonempty : length ≠ 0 := by
    rintro rfl
    exact found rfl
  have signed := @signOf_length_le data start length nonempty
  rw [loneMark_iff] at followed
  rw [parseIntegerToken_body output nonempty] at found ⊢
  have stands := @signOf_stands data start
  generalize signOf (data start) = sign at *
  unfold parseIntegerBody at found ⊢
  by_cases ended : start + sign.bytes.length = start + length
  · rw [if_pos ended] at found
    exact absurd rfl found
  rw [if_neg ended] at found ⊢
  dsimp only at found ⊢
  by_cases known : integerRadix data (start + sign.bytes.length) (start + length) = 0
  · rw [if_pos known] at found
    exact absurd rfl found
  rw [if_neg known] at found ⊢
  have more : data (start + sign.bytes.length) = 35 →
      start + sign.bytes.length + 1 < start + length := by
    intro mark
    by_contra none
    exact followed ⟨by omega, mark⟩
  obtain ⟨mark, capital, radix, marked, begins, room⟩ := integerRadix_mark known more
  rw [begins] at found ⊢
  have two := mark.bytes_length capital
  have within : start + sign.bytes.length + (mark.bytes capital).length ≤ start + length := by
    by_cases bare : mark.bytes capital = []
    · rw [bare, List.length_nil]
      omega
    · have inside := room bare
      split at two <;> omega
  by_cases none : start + sign.bytes.length + (mark.bytes capital).length = start + length
  · rw [if_pos none] at found
    exact absurd rfl found
  rw [if_neg none, if_pos within, ← radix] at found ⊢
  obtain ⟨digits, valid, digitsStand, short, some, value, overflow⟩ :=
    parseDigits_found _ _ _ _ (by decide) found
  refine ⟨⟨sign, mark, capital, digits, some (by omega), valid⟩, ?_, ?_, overflow⟩
  · rw [prefix_spanBytes, IntegerToken.bytes, List.append_assoc]
    refine ⟨stands.append_of (marked.append_of digitsStand), ?_⟩
    rw [List.length_append, List.length_append, List.length_map]
    dsimp only
    omega
  · intro isValue
    have whole := value isValue
    rw [eq_spanBytes, IntegerToken.bytes, List.append_assoc]
    refine ⟨stands.append_of (marked.append_of digitsStand), ?_⟩
    rw [List.length_append, List.length_append, List.length_map]
    dsimp only
    omega

/-- The mark at the start of the digits is found, wherever the span ends after it. -/
theorem IntegerToken.radix_within (token : IntegerToken) {start finish : Nat}
    (stands : BytesAt data start (token.mark.bytes token.capitalMark ++
      token.digits.map fun digit => digitByte digit.1 digit.2))
    (within : start + (token.mark.bytes token.capitalMark).length + token.digits.length ≤ finish) :
    integerRadix data start finish = token.mark.radix := by
  have positive := List.length_pos_of_ne_nil token.nonempty
  obtain ⟨radix, begins⟩ := token.radix_found stands
  rw [← radix]
  unfold integerRadix
  by_cases marked : data start = 35
  · rw [if_pos marked] at begins
    rw [if_pos (show start + 1 < finish by omega),
      if_pos (show start + 1 < start + _ + token.digits.length by omega)]
  · simp only [if_neg marked, ite_self]

/-- A span that begins with an integer that exceeds a word is read as one. -/
theorem parseIntegerToken_exceeds (token : IntegerToken) (output : ParsedInteger)
    (begins : token.bytes <+: spanBytes data start length)
    (exceeds : wordLimit ≤ token.magnitude) :
    (parseIntegerToken data start length output).1 = .overflow := by
  have positive := List.length_pos_of_ne_nil token.nonempty
  obtain ⟨stands, short⟩ := prefix_spanBytes.mp begins
  have sign := token.signOf_start stands
  rw [IntegerToken.bytes, List.length_append, List.length_append, List.length_map] at short
  rw [IntegerToken.bytes, List.append_assoc] at stands
  have rest := stands.append.2
  have digits := rest.append.2
  have radix := token.radix_within rest (show _ ≤ start + length by omega)
  have known := radix_pos token.mark
  rw [parseIntegerToken_body output (by omega), sign, parseIntegerBody, if_neg (by omega)]
  dsimp only
  rw [radix, (token.radix_found rest).2, if_neg (by omega), if_neg (by omega), if_pos (by omega)]
  exact parseDigits_exceeds token.valid _ (by decide) (by omega) digits exceeds

/-! ## Where reading looks -/

theorem mem_digitReads {radix position : Nat} : ∀ {ahead start value : Nat},
    position ∈ digitReads data radix ahead start value →
      start ≤ position ∧ position < start + ahead := by
  intro ahead
  induction ahead with
  | zero => exact fun member => absurd member List.not_mem_nil
  | succ ahead ih =>
      intro start value member
      rw [digitReads] at member
      cases List.mem_cons.mp member with
      | inl first => omega
      | inr others =>
          split_ifs at others
          · cases others
          · have within := ih others
            omega
          · cases others

theorem mem_radixReads {index finish position : Nat} (member : position ∈ radixReads data index finish) :
    index ≤ position ∧ position < finish := by
  unfold radixReads at member
  split_ifs at member with inside marked
  · cases List.mem_cons.mp member with
    | inl first => omega
    | inr second =>
        obtain rfl := List.mem_singleton.mp second
        omega
  · obtain rfl := List.mem_singleton.mp member
    omega
  · cases member

/-- After any start but a lone number sign, reading stays in the span. -/
theorem integerReads_inside (followed : ¬LoneMark (spanBytes data start length)) :
    ∀ position ∈ integerReads data start length, start ≤ position ∧ position < start + length := by
  intro position member
  by_cases empty : length = 0
  · rw [integerReads, if_pos empty] at member
    cases member
  · have signed := @signOf_length_le data start length empty
    rw [loneMark_iff] at followed
    rw [integerReads_body empty] at member
    generalize (signOf (data start)).bytes.length = sign at *
    have more : data (start + sign) = 35 → length ≠ sign + 1 :=
      fun mark alone => followed ⟨alone, mark⟩
    cases List.mem_cons.mp member with
    | inl first => omega
    | inr body =>
        unfold bodyReads at body
        dsimp only at body
        split_ifs at body with ended unknown marked none
        · cases body
        · rw [List.append_nil] at body
          have within := mem_radixReads body
          omega
        all_goals
          cases List.mem_append.mp body with
          | inl radix =>
              have within := mem_radixReads radix
              omega
          | inr rest =>
              cases List.mem_cons.mp rest with
              | inl first => omega
              | inr digits =>
                  first
                  | cases digits
                  | have within := mem_digitReads digits
                    first
                    | omega
                    | have ahead := more ‹_›
                      omega

/-- After a lone number sign, the second byte behind the span is read. -/
theorem integerReads_loneMark (lone : LoneMark (spanBytes data start length)) :
    start + length + 1 ∈ integerReads data start length := by
  obtain ⟨short, mark⟩ := loneMark_iff.mp lone
  rw [integerReads_body (by omega)]
  refine List.mem_cons_of_mem _ ?_
  generalize (signOf (data start)).bytes.length = sign at *
  have radix : integerRadix data (start + sign) (start + length) = 10 := by
    unfold integerRadix
    rw [if_neg (by omega)]
  rw [bodyReads, if_neg (by omega)]
  dsimp only
  rw [radix, mark, if_neg (by decide), if_pos rfl, if_neg (by omega), if_neg (by omega)]
  refine List.mem_append_right _ (List.mem_cons_of_mem _ ?_)
  obtain ⟨ahead, many⟩ : ∃ ahead, wordLimit - (start + sign + 2 - (start + length)) = ahead + 1 :=
    ⟨wordLimit - 2, by unfold wordLimit; omega⟩
  rw [many, digitReads]
  exact List.mem_cons.mpr (.inl (by omega))

/-- Reading is exact on all spans but two kinds: a number sign that stands alone, and bytes after a
number that already exceeds a word. -/
theorem parseIntegerToken_exact_iff (data : Nat → UInt8) (start length : Nat)
    (output : ParsedInteger) : ReadsExactly data start length output ↔
      ¬LoneMark (spanBytes data start length) ∧ ¬LateByte (spanBytes data start length) := by
  have token (token : IntegerToken) (same : token.bytes = spanBytes data start length) :
      parseIntegerToken data start length output = token.parsed output := by
    obtain ⟨stands, short⟩ := eq_spanBytes.mp same
    rw [← short]
    exact parseIntegerToken_token token output stands
  constructor
  · intro exact
    constructor
    · intro lone
      have outside := exact.inside _ (integerReads_loneMark lone)
      omega
    · rintro ⟨⟨token, begins, exceeds⟩, none⟩
      have overflows := parseIntegerToken_exceeds token output begins exceeds
      rw [exact.notInteger.mpr none] at overflows
      cases overflows
  · rintro ⟨followed, timely⟩
    have value : (parseIntegerToken data start length output).1 = .value →
        ∃ token : IntegerToken, token.bytes = spanBytes data start length ∧
          token.magnitude < wordLimit := by
      intro isValue
      obtain ⟨found, _, whole, _⟩ := parseIntegerToken_found output followed (by
        rw [isValue]
        decide)
      refine ⟨found, whole isValue, ?_⟩
      by_contra large
      rw [token found (whole isValue), IntegerToken.parsed, if_neg large] at isValue
      cases isValue
    have overflow : (parseIntegerToken data start length output).1 = .overflow →
        ∃ token : IntegerToken, token.bytes = spanBytes data start length ∧
          wordLimit ≤ token.magnitude := by
      intro isOverflow
      obtain ⟨found, begins, _, exceeds⟩ := parseIntegerToken_found output followed (by
        rw [isOverflow]
        decide)
      by_contra none
      refine timely ⟨⟨found, begins, exceeds isOverflow⟩, ?_⟩
      intro whole same
      refine none ⟨whole, same, ?_⟩
      by_contra small
      rw [token whole same, IntegerToken.parsed, if_pos (Nat.lt_of_not_le small)] at isOverflow
      cases isOverflow
    refine ⟨integerReads_inside followed, ⟨value, ?_⟩, ?_, ⟨overflow, ?_⟩, ⟨?_, ?_⟩⟩
    · rintro ⟨found, same, small⟩
      rw [token found same, IntegerToken.parsed, if_pos small]
    · intro found same small
      rw [token found same, IntegerToken.parsed, if_pos small]
    · rintro ⟨found, same, large⟩
      rw [token found same, IntegerToken.parsed, if_neg (Nat.not_lt.mpr large)]
    · intro isNone found same
      rw [token found same, IntegerToken.parsed] at isNone
      split at isNone <;> cases isNone
    · intro none
      cases result : (parseIntegerToken data start length output).1 with
      | notInteger => rfl
      | value =>
          obtain ⟨found, same, _⟩ := value result
          exact absurd same (none found)
      | overflow =>
          obtain ⟨found, same, _⟩ := overflow result
          exact absurd same (none found)

/-- Of a number sign with blanks after it, the second blank is read as well. -/
theorem parseIntegerToken_loneMark :
    ¬ReadsExactly (fun position => if position = 0 then 35 else 32) 0 1 {} := by
  intro exact
  have outside := exact.inside _ (integerReads_loneMark ⟨.none, rfl⟩)
  exact absurd outside.2 (by decide)

end Spans

end Native
