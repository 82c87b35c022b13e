import PslCompiler.Native.FloatTokens

/-! # Decimal literals are read exactly

A token that is a decimal literal is read to the bit pattern nearest to the number it denotes,
however many digits it has and however large its exponent is. Every other token is rejected, every
integer among them.
-/

namespace Native

open Numbers

namespace FloatParser

variable {state : FloatParser} {limit : Nat} {mantissa : Mantissa} {data : Nat → UInt8} {finish : Nat}

/-! ## Reading an exponent -/

theorem sign_length (sign : Sign) : sign.bytes.length ≤ 1 := by
  cases sign <;> decide

/-- Where a span begins behind its sign. -/
theorem begins_eq {index : Nat} (near : index < 2 ^ 60) :
    (if data index = 43 then wrapAdd index 1 else if data index = 45 then wrapAdd index 1
      else index) = index + (signOf (data index)).bytes.length := by
  rw [wrapAdd_eq (by rw [wordLimit]; omega)]
  exact (signOf_after index).1

theorem minus_iff (index : Nat) : data index = 45 ↔ signOf (data index) = .minus :=
  decide_eq_decide.mp (@signOf_after data index).2

/-- What is read behind a marker, in terms of the bytes at an index. -/
theorem readExponent_span {index length : Nat} (more : length ≠ 0) :
    readExponent (spanBytes data index length) =
      if length - (signOf (data index)).bytes.length = 0 then none
      else ((spanBytes data (index + (signOf (data index)).bytes.length)
        (length - (signOf (data index)).bytes.length)).mapM decimalDigit).map
          fun digits => (signOf (data index), digits) := by
  obtain ⟨shorter, rfl⟩ := Nat.exists_eq_succ_of_ne_zero more
  have first : (spanBytes data index (shorter + 1)).head? = some (data index) := rfl
  rw [readExponent, Nat.succ_eq_add_one, first, Option.map_some, Option.getD_some, spanBytes_drop]
  simp only [spanBytes_isEmpty]

/-- Reading an exponent changes nothing but the exponent and the marks of the reader. -/
theorem parseExponent_read {index : Nat} (near : finish < 2 ^ 60) (within : index ≤ finish)
    (zero : state.exponent = 0) :
    ∃ (valid status : Bool) (exponent : Int) (cursor : Nat),
      state.parseExponent data index finish =
        (valid, { state with exponent := exponent, status := status, cursor := cursor }) ∧
      (∀ sign digits, readExponent (spanBytes data index (finish - index)) = some (sign, digits) →
        valid = true ∧ exponent = limited (finish + 1024) sign digits) ∧
      (readExponent (spanBytes data index (finish - index)) = none → valid = false) := by
  rw [parseExponent]
  by_cases ended : index = finish
  · rw [if_pos ended, ended, Nat.sub_self]
    refine ⟨false, state.status, state.exponent, state.cursor, rfl, ?_, fun _ => rfl⟩
    intro sign digits read
    cases read
  · have bound : wrapAdd finish 1024 = finish + 1024 := wrapAdd_eq (by rw [wordLimit]; omega)
    have short := sign_length (signOf (data index))
    rw [if_neg ended, readExponent_span (by omega)]
    dsimp only
    simp only [@begins_eq data index (by omega)]
    by_cases bare : index + (signOf (data index)).bytes.length = finish
    · rw [if_pos bare, if_pos (by omega)]
      refine ⟨false, state.status, state.exponent, state.cursor, rfl, ?_, fun _ => rfl⟩
      intro sign digits found
      cases found
    · obtain ⟨exponent, status, cursor, run, all, none⟩ := @exponentDigits_read data finish
        (finish + 1024) near (by omega) (finish - (index + (signOf (data index)).bytes.length))
        { state with cursor := index + (signOf (data index)).bytes.length, status := true } 0
        (by dsimp only; omega) (by rw [Nat.min_zero]; exact zero)
      have some : ¬finish - index - (signOf (data index)).bytes.length = 0 := by omega
      rw [if_neg bare, if_neg some, Nat.sub_sub, bound, run]
      dsimp only at all none ⊢
      refine ⟨status, status, if data index = 45 then signedWord (0 - exponent) else exponent, cursor,
        ?_, ?_, ?_⟩
      · by_cases negative : data index = 45
        · simp only [if_pos negative]
        · simp only [if_neg negative]
      · intro sign digits found
        obtain ⟨read, isRead, same⟩ := Option.map_eq_some_iff.mp found
        rw [Prod.mk.injEq] at same
        obtain ⟨rfl, rfl⟩ := same
        obtain ⟨isValid, value⟩ := all read isRead
        refine ⟨isValid, ?_⟩
        rw [value, limited]
        change (if data index = 45 then signedWord (0 - (min (finish + 1024) (decimal read) : Nat))
          else (min (finish + 1024) (decimal read) : Nat)) = _
        by_cases negative : data index = 45
        · rw [if_pos negative, if_pos ((minus_iff index).mp negative),
            signedWord_eq (by omega) (by omega), zero_sub]
        · rw [if_neg negative, if_neg fun found => negative ((minus_iff index).mpr found)]
      · intro found
        exact none (Option.map_eq_none_iff.mp found)

/-! ## Reading what comes behind a mantissa -/

/-- The state has read a mantissa, a format and an exponent. -/
structure Interpreted (state : FloatParser) (limit : Nat) (mantissa : Mantissa) (code : Nat)
    (exponent : Int) : Prop extends Scanned state limit mantissa where
  isCode : state.code = code
  isExponent : state.exponent = exponent

/-- What comes after a mantissa: nothing, or a marker and an exponent. -/
def readMarker (mantissa : Mantissa) : List UInt8 → Option (Nat × Sign × List (Fin 10))
  | [] => if mantissa.behind = [] then none else some (13, .none, [])
  | marker :: rest =>
      if floatMarkerCode marker = 0 ∨ mantissa.digits = [] then none
      else (readExponent rest).map fun exponent => (floatMarkerCode marker, exponent)

/-- Without a marker, a literal has digits behind its point. -/
theorem Scanned.unmarked (scanned : Scanned state limit mantissa) :
    (if (!state.sawDigit) = true then (false, state)
      else if state.sawPoint = true then (decide (state.fractional ≠ 0), state)
      else (false, state)) = (decide (mantissa.behind ≠ []), state) := by
  by_cases none : mantissa.behind = []
  · have zero : state.fractional = 0 := by rw [scanned.fractional, none, List.length_nil]
    rw [zero, none]
    split_ifs <;> rfl
  · have digits : mantissa.digits ≠ [] := fun empty => none (List.append_eq_nil_iff.mp empty).2
    have saw : state.sawDigit = true := scanned.sawDigit.mpr digits
    have point : state.sawPoint = true := by
      rw [scanned.sawPoint, ← Option.isSome_iff_ne_none.mpr]
      intro noPoint
      exact none (by rw [Mantissa.behind, noPoint, Option.getD_none])
    have counted : state.fractional ≠ 0 := by
      rw [scanned.fractional]
      exact fun zero => none (List.length_eq_zero_iff.mp zero)
    rw [if_neg (by rw [saw]; decide), if_pos point, decide_eq_true counted, decide_eq_true none]

/-- A marker and its exponent are read. -/
theorem Scanning.readMarker_eq (scanning : Scanning state limit mantissa) (near : finish < 2 ^ 60)
    (more : state.cursor < finish) :
    ∃ (valid : Bool) (exponent : Int) (code : Nat),
      state.markerRead data finish =
        { state with sawMarker := true, code := code, exponent := exponent, status := valid
                     cursor := finish } ∧
      (∀ found, readMarker mantissa (spanBytes data state.cursor (finish - state.cursor)) = some found →
        valid = true ∧ code = found.1 ∧
          exponent = limited (finish + 1024) found.2.1 found.2.2) ∧
      (readMarker mantissa (spanBytes data state.cursor (finish - state.cursor)) = none →
        valid = false) := by
  obtain ⟨length, isLength⟩ := Nat.exists_eq_succ_of_ne_zero (Nat.sub_ne_zero_of_lt more)
  have rest : finish - (state.cursor + 1) = length := by omega
  rw [markerRead, isLength, Nat.succ_eq_add_one, spanBytes, readMarker,
    wrapAdd_eq (by rw [wordLimit]; omega)]
  dsimp only
  by_cases unknown : floatMarkerCode (data state.cursor) = 0
  · rw [if_pos unknown, if_pos (.inl unknown)]
    refine ⟨false, state.exponent, state.code, rfl, ?_, fun _ => rfl⟩
    intro found read
    cases read
  · rw [if_neg unknown]
    by_cases digits : mantissa.digits = []
    · have saw : (!state.sawDigit) = true := by
        rw [Bool.not_eq_true', ← Bool.not_eq_true]
        exact fun found => scanning.sawDigit.mp found digits
      rw [if_pos saw, if_pos (.inr digits)]
      refine ⟨false, state.exponent, state.code, rfl, ?_, fun _ => rfl⟩
      intro found read
      cases read
    · have saw : ¬(!state.sawDigit) = true := by
        rw [scanning.sawDigit.mpr digits]
        decide
      have isMarker : ¬(floatMarkerCode (data state.cursor) = 0 ∨ mantissa.digits = []) :=
        not_or.mpr ⟨unknown, digits⟩
      rw [if_neg saw, if_neg isMarker]
      obtain ⟨valid, status, exponent, cursor, run, all, none⟩ := @parseExponent_read
        { state with sawMarker := true, code := floatMarkerCode (data state.cursor) } data finish
        (state.cursor + 1) near (by omega) scanning.exponent
      rw [rest] at all none
      rw [run]
      refine ⟨valid, exponent, floatMarkerCode (data state.cursor), rfl, ?_, ?_⟩
      · intro found read
        obtain ⟨exponentRead, isRead, rfl⟩ := Option.map_eq_some_iff.mp read
        obtain ⟨isValid, value⟩ := all _ _ isRead
        exact ⟨isValid, rfl, value⟩
      · intro read
        exact none (Option.map_eq_none_iff.mp read)

/-- The reader accepts what is a literal, and knows its digits, its format and its exponent. -/
theorem parseMantissa_read {index : Nat} (room : 128 ≤ limit) (near : finish < 2 ^ 60)
    (within : index ≤ finish) (fresh : Scanning { state with cursor := index } limit {}) :
    ∃ (valid : Bool) (after : FloatParser),
      state.parseMantissa data index finish = (valid, after) ∧ after.negative = state.negative ∧
      (∀ found, readMarker (Mantissa.read (spanBytes data index (finish - index)) {}).1
          (Mantissa.read (spanBytes data index (finish - index)) {}).2 = some found →
        valid = true ∧ Interpreted after limit
          (Mantissa.read (spanBytes data index (finish - index)) {}).1 found.1
          (limited (finish + 1024) found.2.1 found.2.2)) ∧
      (readMarker (Mantissa.read (spanBytes data index (finish - index)) {}).1
        (Mantissa.read (spanBytes data index (finish - index)) {}).2 = none → valid = false) := by
  obtain ⟨last, scanning, negative, left, reached, run⟩ :=
    @Scanning.scan limit data finish room near (finish - index) { state with cursor := index } {}
      fresh (by dsimp only; omega) (Nat.zero_le _)
  dsimp only at scanning negative left run
  generalize (Mantissa.read (spanBytes data index (finish - index)) {}).1 = mantissa at *
  rw [left, parseMantissa]
  rw [run]
  by_cases ended : last.cursor = finish
  · have unmarked : ¬last.sawMarker = true := by
      rw [scanning.sawMarker]
      decide
    rw [if_pos ended, if_neg unmarked, scanning.unmarked, ended, Nat.sub_self]
    refine ⟨_, _, rfl, negative, ?_, ?_⟩
    · intro found read
      change (if mantissa.behind = [] then none else some (13, Sign.none, [])) = some found at read
      by_cases none : mantissa.behind = []
      · rw [if_pos none] at read
        cases read
      · rw [if_neg none] at read
        obtain rfl := Option.some.inj read
        refine ⟨decide_eq_true none, { scanning with
          isCode := scanning.code
          isExponent := ?_ }⟩
        rw [scanning.exponent, limited]
        rfl
    · intro read
      change (if mantissa.behind = [] then none else some (13, Sign.none, [])) = none at read
      by_cases none : mantissa.behind = []
      · rw [none]
        rfl
      · rw [if_neg none] at read
        cases read
  · obtain ⟨valid, exponent, code, marked, all, none⟩ :=
      @Scanning.readMarker_eq last limit mantissa data finish scanning near (by omega)
    rw [if_neg ended, marked]
    dsimp only
    rw [if_pos rfl]
    refine ⟨valid, _, rfl, negative, ?_, none⟩
    intro found read
    obtain ⟨isValid, isCode, isExponent⟩ := all found read
    exact ⟨isValid, {
      numerator := scanning.numerator
      denominator := scanning.denominator
      digits := scanning.digits
      fractional := scanning.fractional
      discarded := scanning.discarded
      sticky := scanning.sticky
      sawDigit := scanning.sawDigit
      sawPoint := scanning.sawPoint
      isCode := isCode
      isExponent := isExponent }⟩

end FloatParser

/-! ## Converting what was read -/

namespace Mantissa

variable {mantissa : Mantissa}

theorem kept_full (more : mantissa.dropped ≠ []) : mantissa.kept.length = 800 := by
  have positive := List.length_pos_of_ne_nil more
  rw [dropped, List.length_drop] at positive
  rw [kept, List.length_take]
  omega

theorem kept_low (some : mantissa.kept ≠ []) :
    10 ^ (mantissa.kept.length - 1) ≤ decimal mantissa.kept := by
  cases leading : significant mantissa.digits with
  | nil => exact absurd (kept_eq_nil.mpr leading) some
  | cons digit rest =>
      have cut : mantissa.kept = digit :: rest.take 799 := by rw [kept, leading, List.take_succ_cons]
      rw [cut, List.length_cons, Nat.add_sub_cancel]
      exact le_decimal (significant_leading leading) _

theorem length_digits : mantissa.kept.length + mantissa.dropped.length ≤ mantissa.digits.length := by
  rw [← List.length_append, kept, dropped, List.take_append_drop]
  exact length_significant

theorem length_bytes (mantissa : Mantissa) : mantissa.digits.length ≤ mantissa.bytes.length := by
  obtain ⟨whole, fraction⟩ := mantissa
  cases fraction with
  | none => simp [digits, behind, Mantissa.bytes, fractionBytes]
  | some behind => simp [digits, Mantissa.behind, Mantissa.bytes, fractionBytes]

/-- A mantissa does not begin with a sign. -/
theorem bytes_unsigned (some : mantissa.digits ≠ []) :
    ∃ byte rest, mantissa.bytes = byte :: rest ∧ signOf byte = .none := by
  obtain ⟨whole, fraction⟩ := mantissa
  cases whole with
  | cons digit whole => exact ⟨_, _, rfl, FloatParser.decimalByte_signOf digit⟩
  | nil =>
      cases fraction with
      | none => exact absurd rfl some
      | some behind => exact ⟨46, _, rfl, by decide⟩

end Mantissa

namespace FloatParser

variable {state : FloatParser} {limit finish : Nat} {mantissa : Mantissa} {output : ParsedInteger}

/-- With a power of ten, what was read is a decimal number that was cut off. -/
theorem Scanned.cut (scanned : Scanned state limit mantissa) (room : 128 ≤ limit)
    (some : mantissa.kept ≠ []) (power : Int) :
    Cut state limit (decimal mantissa.kept)
      (power + mantissa.dropped.length - mantissa.behind.length)
      (decimal mantissa.digits * 10 ^ (power - mantissa.behind.length)) := by
  have unit : (0 : ℚ) < 10 ^ (power - mantissa.behind.length) := by positivity
  have step : (10 : ℚ) ^ (power + mantissa.dropped.length - mantissa.behind.length) =
      10 ^ mantissa.dropped.length * 10 ^ (power - mantissa.behind.length) := by
    rw [← zpow_natCast, ← zpow_add₀ (by norm_num)]
    congr 1
    omega
  have value : (decimal mantissa.digits : ℚ) * 10 ^ (power - mantissa.behind.length) =
      decimal mantissa.kept * 10 ^ (power + mantissa.dropped.length - mantissa.behind.length) +
        decimal mantissa.dropped * 10 ^ (power - mantissa.behind.length) := by
    rw [step, Mantissa.decimal_kept]
    push_cast
    ring
  have counted := List.length_pos_of_ne_nil some
  rw [value]
  exact {
    numerator := scanned.numerator
    denominator := scanned.denominator
    room := room
    low := by
      rw [scanned.digits]
      exact Mantissa.kept_low some
    high := by
      rw [scanned.digits]
      exact decimal_lt _
    nonzero := by
      rw [scanned.digits]
      exact counted
    few := by
      rw [scanned.digits]
      exact Mantissa.kept_length
    below := le_add_of_nonneg_right (by positivity)
    above := by
      have tail : (decimal mantissa.dropped : ℚ) < 10 ^ mantissa.dropped.length := by
        exact_mod_cast decimal_lt mantissa.dropped
      rw [add_mul, one_mul, step]
      exact add_lt_add_right (mul_lt_mul_of_pos_right tail unit) _
    lost := by
      rw [scanned.sticky, lt_add_iff_pos_right, mul_pos_iff_of_pos_right unit, Nat.cast_pos,
        Nat.pos_iff_ne_zero]
    full := by
      intro sticky
      rw [scanned.digits]
      refine Mantissa.kept_full fun none => scanned.sticky.mp sticky ?_
      rw [none]
      rfl }

theorem Scanned.decimalExponent_eq (scanned : Scanned state limit mantissa)
    (short : mantissa.digits.length < 2 ^ 60) (low : -(2 ^ 60 + 1024) ≤ state.exponent)
    (high : state.exponent ≤ 2 ^ 60 + 1024) : state.decimalExponent =
      state.exponent + mantissa.dropped.length - mantissa.behind.length := by
  have behind := behind_le mantissa
  have dropped := @Mantissa.length_dropped mantissa
  have more : signedWord mantissa.dropped.length = mantissa.dropped.length :=
    signedWord_eq (by omega) (by omega)
  have fewer : signedWord mantissa.behind.length = mantissa.behind.length :=
    signedWord_eq (by omega) (by omega)
  have raised : signedWord (state.exponent + mantissa.dropped.length) =
      state.exponent + mantissa.dropped.length := signedWord_eq (by omega) (by omega)
  rw [decimalExponent, scanned.discarded, scanned.fractional, more, fewer, raised,
    signedWord_eq (by omega) (by omega)]

/-- A limited exponent is off only where every number is too small or too large. -/
theorem limited_saturated {sign : Sign} {digits : List (Fin 10)} {dropped behind kept : Nat}
    (rest : kept + dropped ≤ finish) (point : behind ≤ finish) :
    Saturated (limited (finish + 1024) sign digits + dropped - behind)
      (signedDecimal sign digits + dropped - behind) kept := by
  unfold Saturated limited signedDecimal
  split <;> omega

/-- What was interpreted is converted to the nearest number of its format. -/
theorem Interpreted.convert {sign : Sign} {digits : List (Fin 10)} {code : Nat}
    (interpreted : Interpreted state limit mantissa code (limited (finish + 1024) sign digits))
    (room : 128 ≤ limit) (near : finish < 2 ^ 60) (short : mantissa.digits.length ≤ finish) :
    ∃ bits, Nearest ((floatFormat code).point ℚ)
        (decimal mantissa.digits * 10 ^ (signedDecimal sign digits - mantissa.behind.length)) bits ∧
      state.convertDecimal output = state.converted output bits := by
  have behind := behind_le mantissa
  have lengths := @Mantissa.length_digits mantissa
  rw [← interpreted.isCode]
  by_cases none : mantissa.kept = []
  · have zero : decimal mantissa.digits = 0 := by
      rw [← decimal_significant, Mantissa.kept_eq_nil.mp none]
      rfl
    have count : state.digits = 0 := by rw [interpreted.digits, none, List.length_nil]
    refine ⟨0, ?_, ?_⟩
    · rw [zero, Nat.cast_zero, zero_mul]
      exact nearest_small _ (by decide +kernel : 2 * 2 ^ 1074 ≤ 10 ^ 350)
        (floatFormat_facts state.code).lowest_ge le_rfl (by positivity)
    · rw [convertDecimal, if_pos count, converted_zero]
  · have exponent := interpreted.isExponent
    have low : -(finish + 1024 : Int) ≤ limited (finish + 1024) sign digits := by
      unfold limited
      split <;> omega
    have high : limited (finish + 1024) sign digits ≤ finish + 1024 := by
      unfold limited
      split <;> omega
    have found := interpreted.decimalExponent_eq (by omega) (by omega) (by omega)
    have saturated := @limited_saturated finish sign digits mantissa.dropped.length
      mantissa.behind.length mantissa.kept.length (by omega) (by omega)
    rw [← exponent, ← found, ← interpreted.digits] at saturated
    exact (interpreted.toScanned.cut room none _).convert saturated (by omega) (by omega)

theorem floatInfinity_le (code : Nat) : floatInfinity code ≤ 2 ^ 63 := by
  rw [floatInfinity, floatBias, floatFormat]
  split <;> norm_num

/-- The bits are stored with the sign in front. -/
theorem converted_stored {token : FloatToken} (code : state.code = token.code)
    (sign : state.negative = decide (token.sign = .minus)) (bits : Nat) :
    state.converted output bits = token.stored output bits := by
  have mask : state.signMask = token.signMask := by
    rw [signMask, FloatToken.signMask, sign, code]
    by_cases minus : token.sign = .minus
    · rw [decide_eq_true minus, if_pos minus]
      rfl
    · rw [decide_eq_false minus, if_neg minus]
      rfl
  have small : token.signMask ≤ 2 ^ 63 := by
    rw [FloatToken.signMask]
    split_ifs <;> norm_num
  have infinity := floatInfinity_le token.code
  rw [converted, FloatToken.stored, code]
  by_cases finite : bits < floatInfinity token.code
  · rw [if_pos finite, if_pos finite, storeBits, mask, sign, code,
      wrapAdd_eq (by rw [wordLimit]; omega)]
  · rw [if_neg finite, if_neg finite]

theorem readMarker_sound {rest : List UInt8} {found : Nat × Sign × List (Fin 10)}
    (read : readMarker mantissa rest = some found) : mantissa.digits ≠ [] ∧
      ∃ exponent : Option FloatExponent, FloatToken.exponentBytes exponent = rest ∧
        (exponent = none → mantissa.behind ≠ []) := by
  cases rest with
  | nil =>
      have some : mantissa.behind ≠ [] := by
        intro none
        rw [readMarker, if_pos none] at read
        cases read
      exact ⟨fun empty => some (List.append_eq_nil_iff.mp empty).2, none, rfl, fun _ => some⟩
  | cons marker rest =>
      rw [readMarker] at read
      split at read
      · cases read
      · rename_i marked
        obtain ⟨⟨sign, digits⟩, isRead, -⟩ := Option.map_eq_some_iff.mp read
        obtain ⟨rfl, nonempty⟩ := readExponent_sound isRead
        obtain ⟨known, some⟩ := not_or.mp marked
        exact ⟨some, .some { marker, sign, digits, known, nonempty }, rfl, nofun⟩

theorem readMarker_complete (token : FloatToken) : ∃ sign digits,
    readMarker token.mantissa (FloatToken.exponentBytes token.exponent) =
      some (token.code, sign, digits) ∧ signedDecimal sign digits = token.power := by
  rw [FloatToken.code, FloatToken.power]
  cases marked : token.exponent with
  | none =>
      refine ⟨.none, [], ?_, rfl⟩
      rw [FloatToken.exponentBytes, readMarker, if_neg (token.fractional marked)]
  | some exponent =>
      refine ⟨exponent.sign, exponent.digits, ?_, rfl⟩
      rw [FloatToken.exponentBytes, FloatExponent.bytes, readMarker,
        if_neg (not_or.mpr ⟨exponent.known, token.nonempty⟩),
        readExponent_complete exponent.sign exponent.nonempty, Option.map_some]

end FloatParser

/-! ## The whole token -/

theorem floatMarkerCode_digit (digit : Fin 10) : floatMarkerCode (decimalByte digit) = 0 := by
  revert digit
  decide

/-- No marker goes on with a mantissa. -/
theorem FloatExponent.next_marker (exponent : FloatExponent) (mantissa : Mantissa) :
    mantissa.next exponent.marker = none := by
  cases goesOn : mantissa.next exponent.marker with
  | none => rfl
  | some after =>
      rcases Mantissa.next_cases goesOn with ⟨digit, isDigit, -⟩ | ⟨isPoint, -⟩
      · refine absurd ?_ exponent.known
        rw [isDigit, floatMarkerCode_digit]
      · refine absurd ?_ exponent.known
        rw [isPoint]
        rfl

namespace FloatToken

theorem read_mantissa (token : FloatToken) :
    Mantissa.read (token.mantissa.bytes ++ exponentBytes token.exponent) {} =
      (token.mantissa, exponentBytes token.exponent) := by
  refine Mantissa.read_mantissa token.mantissa ?_
  intro byte tail left other
  cases marked : token.exponent with
  | none =>
      rw [marked] at left
      cases left
  | some exponent =>
      rw [marked, exponentBytes, FloatExponent.bytes, List.cons.injEq] at left
      rw [← left.1]
      exact exponent.next_marker other

/-- The first byte tells the sign, and the mantissa comes behind it. -/
theorem bytes_sign (token : FloatToken) : ∃ byte rest, token.bytes = byte :: rest ∧
    signOf byte = token.sign ∧ token.bytes.drop token.sign.bytes.length =
      token.mantissa.bytes ++ exponentBytes token.exponent := by
  obtain ⟨byte, rest, begins, unsigned⟩ := Mantissa.bytes_unsigned token.nonempty
  have drop : token.bytes.drop token.sign.bytes.length =
      token.mantissa.bytes ++ exponentBytes token.exponent := List.drop_left
  cases isSign : token.sign with
  | none =>
      refine ⟨byte, rest ++ exponentBytes token.exponent, ?_, unsigned, isSign ▸ drop⟩
      rw [FloatToken.bytes, isSign, begins]
      rfl
  | plus =>
      refine ⟨43, token.mantissa.bytes ++ exponentBytes token.exponent, ?_, rfl, isSign ▸ drop⟩
      rw [FloatToken.bytes, isSign]
      rfl
  | minus =>
      refine ⟨45, token.mantissa.bytes ++ exponentBytes token.exponent, ?_, rfl, isSign ▸ drop⟩
      rw [FloatToken.bytes, isSign]
      rfl

end FloatToken

section Tokens

variable {data : Nat → UInt8} {start length capacity : Nat} {numerator denominator : Nat → BitVec 32}
  {output : ParsedInteger}

open FloatParser

theorem initialized_scanning (negative : Bool) (index : Nat) (room : 128 ≤ capacity) :
    Scanning { FloatParser.initialized numerator denominator capacity with
      negative := negative, cursor := index } capacity {} where
  numerator := FloatUint.initialized_holds numerator (by omega) (by norm_num)
  denominator := FloatUint.initialized_holds denominator (by omega) (by norm_num)
  digits := rfl
  fractional := rfl
  discarded := rfl
  sticky := iff_of_false Bool.false_ne_true fun nonzero => nonzero rfl
  sawDigit := iff_of_false Bool.false_ne_true fun some => some rfl
  sawPoint := rfl
  exponent := rfl
  code := rfl
  sawMarker := rfl

/-- The reader takes the sign, reads the mantissa and what comes behind it, and converts. -/
theorem parseFloatToken_read (near : start + length < 2 ^ 60) (room : 128 ≤ capacity)
    (some : length ≠ 0) {sign : Sign} (isSign : signOf (data start) = sign) {mantissa : Mantissa}
    {rest : List UInt8}
    (read : Mantissa.read ((spanBytes data start length).drop sign.bytes.length) {} = (mantissa, rest)) :
    ∃ (valid : Bool) (after : FloatParser),
      parseFloatToken data start length numerator denominator capacity output =
        (if valid then after.convertDecimal output else (.notFloat, output)) ∧
      after.negative = decide (sign = .minus) ∧
      (∀ found, readMarker mantissa rest = .some found → valid = true ∧
        Interpreted after capacity mantissa found.1
          (limited (start + length + 1024) found.2.1 found.2.2)) ∧
      (readMarker mantissa rest = none → valid = false) := by
  have short := sign_length sign
  have ends : wrapAdd start length = start + length := wrapAdd_eq (by rw [wordLimit]; omega)
  have left : length - sign.bytes.length = start + length - (start + sign.bytes.length) := by omega
  obtain ⟨valid, after, run, negative, all, none⟩ := @parseMantissa_read
    { FloatParser.initialized numerator denominator capacity with negative := data start = 45 }
    capacity data (start + length) (start + sign.bytes.length) room near (by omega)
    (initialized_scanning _ _ room)
  rw [spanBytes_drop, left] at read
  rw [read] at all none
  refine ⟨valid, after, ?_, ?_, all, none⟩
  · rw [parseFloatToken, ends, if_neg (by omega), if_neg (by omega), if_neg some, if_neg (by omega)]
    dsimp only
    simp only [@begins_eq data start (by omega), isSign]
    rw [run]
  · rw [negative, ← isSign]
    exact (signOf_after start).2

/-- A decimal literal is accepted and converted. -/
theorem parseFloatToken_literal (near : start + length < 2 ^ 60) (room : 128 ≤ capacity)
    {token : FloatToken} (same : spanBytes data start length = token.bytes) :
    ∃ bits, Nearest ((floatFormat token.code).point ℚ) token.magnitude bits ∧
      parseFloatToken data start length numerator denominator capacity output =
        token.stored output bits := by
  have size := spanBytes_length data start length
  obtain ⟨byte, rest, begins, isSign, isRest⟩ := token.bytes_sign
  obtain ⟨shorter, rfl⟩ : ∃ shorter, length = shorter + 1 := by
    refine Nat.exists_eq_succ_of_ne_zero ?_
    rintro rfl
    rw [same, begins] at size
    cases size
  have first : data start = byte := spanBytes_first (same.trans begins)
  have enough : token.mantissa.digits.length ≤ start + (shorter + 1) := by
    have digits := Mantissa.length_bytes token.mantissa
    rw [same, FloatToken.bytes, List.length_append, List.length_append] at size
    omega
  have read := token.read_mantissa
  rw [← isRest, ← same] at read
  obtain ⟨valid, after, run, negative, all, -⟩ := @parseFloatToken_read data start (shorter + 1)
    capacity numerator denominator output near room (Nat.succ_ne_zero _) token.sign
    (by rw [first, isSign]) _ _ read
  obtain ⟨sign, digits, found, power⟩ := readMarker_complete token
  obtain ⟨isValid, interpreted⟩ := all _ found
  obtain ⟨bits, nearest, converted⟩ := @Interpreted.convert after capacity
    (start + (shorter + 1)) token.mantissa output sign digits token.code interpreted room near enough
  refine ⟨bits, ?_, ?_⟩
  · rw [power] at nearest
    exact nearest
  · rw [run, if_pos isValid, converted]
    exact converted_stored interpreted.isCode negative bits

/-- The pieces that a reader accepts make up a literal. -/
theorem readMarker_token (some : length ≠ 0) {mantissa : Mantissa} {rest : List UInt8}
    (read : Mantissa.read
      ((spanBytes data start length).drop (signOf (data start)).bytes.length) {} = (mantissa, rest))
    {found : Nat × Sign × List (Fin 10)} (accepted : readMarker mantissa rest = .some found) :
    ∃ token : FloatToken, spanBytes data start length = token.bytes := by
  obtain ⟨nonempty, exponent, bytes, fractional⟩ := readMarker_sound accepted
  refine ⟨{ sign := signOf (data start), mantissa, exponent, nonempty, fractional }, ?_⟩
  obtain ⟨shorter, rfl⟩ := Nat.exists_eq_succ_of_ne_zero some
  have whole := Mantissa.read_bytes ((spanBytes data start (shorter + 1)).drop
    (signOf (data start)).bytes.length) {}
  rw [read] at whole
  rw [FloatToken.bytes, bytes]
  dsimp only
  rw [← whole]
  exact signOf_bytes (data start) _

/-- What is no decimal literal is rejected. -/
theorem parseFloatToken_other (near : start + length < 2 ^ 60) (room : 128 ≤ capacity)
    (noToken : ∀ token : FloatToken, spanBytes data start length ≠ token.bytes) :
    parseFloatToken data start length numerator denominator capacity output =
      (.notFloat, output) := by
  by_cases some : length = 0
  · rw [parseFloatToken, wrapAdd_eq (by rw [wordLimit]; omega), if_neg (by omega),
      if_neg (by omega), if_pos some]
  · generalize isRead : Mantissa.read ((spanBytes data start length).drop
      (signOf (data start)).bytes.length) {} = read
    obtain ⟨valid, after, run, -, -, none⟩ := @parseFloatToken_read data start length
      capacity numerator denominator output near room some _ rfl read.1 read.2 isRead
    have rejected : readMarker read.1 read.2 = .none := by
      rw [← Option.not_isSome_iff_eq_none]
      intro accepted
      obtain ⟨found, isFound⟩ := Option.isSome_iff_exists.mp accepted
      obtain ⟨token, same⟩ := readMarker_token some isRead isFound
      exact noToken token same
    rw [run, none rejected, if_neg (by decide)]

/-- A decimal literal is read to the bit pattern nearest to the number it denotes, with its sign in
front, or reported as out of range when that is infinity. Everything else is rejected. -/
theorem parseFloatToken_exact (data : Nat → UInt8) (start length : Nat)
    (numerator denominator : Nat → BitVec 32) (capacity : Nat) (output : ParsedInteger)
    (near : start + length < 2 ^ 60) (room : 128 ≤ capacity) :
    (∀ token : FloatToken, spanBytes data start length = token.bytes →
      ∃ bits, Nearest ((floatFormat token.code).point ℚ) token.magnitude bits ∧
        parseFloatToken data start length numerator denominator capacity output =
          token.stored output bits) ∧
    ((∀ token : FloatToken, spanBytes data start length ≠ token.bytes) →
      parseFloatToken data start length numerator denominator capacity output =
        (.notFloat, output)) :=
  ⟨fun _ same => parseFloatToken_literal near room same, parseFloatToken_other near room⟩

/-- The token `-1.5d0`. -/
def minusOneAndHalf : FloatToken where
  sign := .minus
  mantissa := { whole := [1], fraction := some [5] }
  exponent := some {
    marker := 100
    sign := .none
    digits := [0]
    known := by decide
    nonempty := by decide }
  nonempty := by decide
  fractional := by decide

theorem parseFloatToken_minusOneAndHalf :
    ∃ bits, Nearest ((floatFormat 14).point ℚ) minusOneAndHalf.magnitude bits ∧
      parseFloatToken (fun index => [45, 49, 46, 53, 100, 48].getD index 0) 0 6 (fun _ => 0)
        (fun _ => 0) 128 {} = minusOneAndHalf.stored {} bits :=
  (parseFloatToken_exact _ 0 6 _ _ 128 _ (by norm_num) le_rfl).1 minusOneAndHalf rfl

end Tokens

/-! ## Integers and floats -/

theorem Mantissa.mem_bytes {mantissa : Mantissa} {byte : UInt8} (member : byte ∈ mantissa.bytes) :
    (∃ digit, byte = decimalByte digit) ∨ byte = 46 := by
  obtain ⟨whole, fraction⟩ := mantissa
  cases List.mem_append.mp member with
  | inl isWhole =>
      obtain ⟨digit, -, rfl⟩ := List.mem_map.mp isWhole
      exact .inl ⟨digit, rfl⟩
  | inr isBehind =>
      cases fraction with
      | none => cases isBehind
      | some behind =>
          cases List.mem_cons.mp isBehind with
          | inl isPoint => exact .inr isPoint
          | inr isDigit =>
              obtain ⟨digit, -, rfl⟩ := List.mem_map.mp isDigit
              exact .inl ⟨digit, rfl⟩

theorem decimalByte_ne_numberSign (digit : Fin 10) : (35 : UInt8) ≠ decimalByte digit := by
  revert digit
  decide

theorem Sign.no_numberSign (sign : Sign) : (35 : UInt8) ∉ sign.bytes := by
  cases sign <;> decide

namespace FloatToken

/-- A decimal literal has no radix mark. -/
theorem no_numberSign (token : FloatToken) : (35 : UInt8) ∉ token.bytes := by
  intro member
  rw [FloatToken.bytes, List.mem_append, List.mem_append] at member
  rcases member with inSign | inMantissa | inExponent
  · exact token.sign.no_numberSign inSign
  · rcases Mantissa.mem_bytes inMantissa with ⟨digit, isDigit⟩ | isPoint
    · exact decimalByte_ne_numberSign digit isDigit
    · revert isPoint
      decide
  · cases marked : token.exponent with
    | none =>
        rw [marked] at inExponent
        cases inExponent
    | some exponent =>
        rw [marked, exponentBytes, FloatExponent.bytes, List.mem_cons, List.mem_append] at inExponent
        rcases inExponent with isMarker | inSign | inDigits
        · refine exponent.known ?_
          rw [← isMarker]
          rfl
        · exact exponent.sign.no_numberSign inSign
        · obtain ⟨digit, -, isDigit⟩ := List.mem_map.mp inDigits
          exact decimalByte_ne_numberSign digit isDigit.symm

/-- Behind its sign, a decimal literal has a byte that is no digit: its marker or its point. -/
theorem mem_noDigit (token : FloatToken) : ∃ byte ∈ token.bytes.drop token.sign.bytes.length,
    ∀ digit, byte ≠ decimalByte digit := by
  obtain ⟨-, -, -, -, isRest⟩ := token.bytes_sign
  rw [isRest]
  cases marked : token.exponent with
  | none =>
      cases point : token.mantissa.fraction with
      | none =>
          refine absurd ?_ (token.fractional marked)
          rw [Mantissa.behind, point, Option.getD_none]
      | some behind =>
          refine ⟨46, List.mem_append_left _ ?_, fun digit => (Mantissa.decimalByte_ne_point digit).symm⟩
          rw [Mantissa.bytes, point]
          exact List.mem_append_right _ List.mem_cons_self
  | some exponent =>
      refine ⟨exponent.marker, List.mem_append_right _ List.mem_cons_self, ?_⟩
      rintro digit isDigit
      exact exponent.known (by rw [isDigit, floatMarkerCode_digit])

end FloatToken

section Classes

variable {data : Nat → UInt8} {start length : Nat}

theorem FloatToken.ne_integer (token : FloatToken)
    (float : spanBytes data start length = token.bytes) (other : IntegerToken) :
    other.bytes ≠ spanBytes data start length := by
  intro integer
  have plain : other.mark = .none := by
    by_contra marked
    apply token.no_numberSign
    rw [← float, ← integer, IntegerToken.bytes, List.mem_append, List.mem_append]
    refine .inl (.inr ?_)
    cases mark : other.mark with
    | none => exact absurd mark marked
    | _ => exact List.mem_cons_self
  have signs : other.sign = token.sign := by
    obtain ⟨byte, rest, begins, isSign, -⟩ := token.bytes_sign
    rw [← other.signOf_start (eq_spanBytes.mp integer).1,
      spanBytes_first (float.trans begins), isSign]
  obtain ⟨byte, member, noDigit⟩ := token.mem_noDigit
  rw [← float, ← integer, ← signs, IntegerToken.bytes, List.append_assoc, List.drop_left,
    plain] at member
  obtain ⟨digit, isDigit, rfl⟩ := List.mem_map.mp member
  have small : digit.1 < 10 := by
    have valid := other.valid digit isDigit
    rwa [plain] at valid
  refine noDigit ⟨digit.1, small⟩ ?_
  rw [digitByte, if_pos small]
  rfl

/-- No atom is both an integer and a float: what the one reader accepts, the other rejects. So it
does not matter which of the two is asked first. -/
theorem parseFloatToken_integer (data : Nat → UInt8) (start length : Nat)
    (numerator denominator : Nat → BitVec 32) (capacity : Nat) (integerOutput output : ParsedInteger)
    (near : start + length < 2 ^ 60) (room : 128 ≤ capacity)
    (isInteger : (parseIntegerToken data start length integerOutput).1 = .value) :
    parseFloatToken data start length numerator denominator capacity output =
      (.notFloat, output) := by
  refine parseFloatToken_other near room fun token float => ?_
  have followed : ¬LoneMark (spanBytes data start length) := by
    rintro ⟨sign, lone⟩
    apply token.no_numberSign
    rw [← float, lone]
    exact List.mem_append_right _ List.mem_cons_self
  obtain ⟨integer, -, same, -⟩ := parseIntegerToken_found integerOutput followed
    (by rw [isInteger]; decide)
  exact token.ne_integer float integer (same isInteger)

theorem parseFloatToken_fortyTwo :
    (parseIntegerToken (fun index => [52, 50].getD index 0) 0 2 {}).1 = .value ∧
      parseFloatToken (fun index => [52, 50].getD index 0) 0 2 (fun _ => 0) (fun _ => 0) 128 {} =
        (.notFloat, {}) :=
  ⟨by decide, parseFloatToken_integer _ 0 2 _ _ 128 {} _ (by norm_num) le_rfl (by decide)⟩

end Classes

end Native
