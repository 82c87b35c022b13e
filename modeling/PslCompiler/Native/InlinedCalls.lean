import PslCompiler.Native.ArenaInsertion

/-! # Inlined calls

Inlining a call in place is an insertion into the arena (`ssaInline_exact`). The inserted values
are the template's, with the arguments of the call in the place of the parameters
(`InlinedCall.clones`).
-/

namespace Native

open Buffers

/-! ## The values that a call is replaced by -/

/-- A call that is inlined: its template, its arguments and its place. -/
structure InlinedCall where
  template : Nat → SsaValue
  count : Nat
  result : Nat
  argument : Nat → Nat
  position : Nat
  call : SsaValue

namespace InlinedCall

variable (site : InlinedCall)

def CopiedP (reference : Nat) : Prop :=
  (site.template reference).kind ≠ .parameter

instance (reference : Nat) : Decidable (site.CopiedP reference) :=
  inferInstanceAs (Decidable (_ ≠ _))

/-- The copied values before a template value. -/
def rank (reference : Nat) : Nat :=
  (List.range' 1 (reference - 1)).countP fun earlier => decide (site.CopiedP earlier)

/-- What stands for a template value at the call: an argument, or the copy of the value. -/
def mapped (reference : Nat) : Nat :=
  if site.CopiedP reference then site.position + site.rank reference
  else site.argument (site.template reference).value

def operand (reference : Nat) : Nat :=
  if reference = 0 then 0 else site.mapped reference

def clone (reference : Nat) : SsaValue :=
  { site.template reference with
    left := site.operand (site.template reference).left
    right := site.operand (site.template reference).right
    source := site.call.source
    block := site.call.block
    next := site.mapped reference + 1
    live := 1
    remap := 0 }

/-- The copies of the template values from one on. -/
def clonesFrom (index remaining : Nat) : List SsaValue :=
  ((List.range' index remaining).filter fun reference => site.CopiedP reference).map site.clone

def clones : List SsaValue :=
  site.clonesFrom 1 site.count

/-- The call becomes a copy of the result. -/
def forward (call : SsaValue) : SsaValue :=
  { call with kind := .forward, value := 0, left := site.operand site.result, right := 0, target := 0 }

/-- Every template value reads template values before it. -/
def Ordered : Prop :=
  ∀ reference, 1 ≤ reference → reference ≤ site.count →
    (site.template reference).left < reference ∧ (site.template reference).right < reference

theorem clonesFrom_succ (index remaining : Nat) :
    site.clonesFrom index (remaining + 1) =
      if site.CopiedP index then site.clone index :: site.clonesFrom (index + 1) remaining
      else site.clonesFrom (index + 1) remaining := by
  rw [clonesFrom, List.range'_succ, List.filter_cons]
  by_cases copied : site.CopiedP index
  · rw [if_pos copied, if_pos (decide_eq_true copied)]
    rfl
  · rw [if_neg copied, if_neg (by simpa only [decide_eq_true_eq] using copied)]
    rfl

theorem rank_succ {index : Nat} (positive : 1 ≤ index) :
    site.rank (index + 1) = site.rank index + if site.CopiedP index then 1 else 0 := by
  obtain ⟨before, rfl⟩ := Nat.exists_eq_add_of_le' positive
  rw [rank, rank, Nat.add_sub_cancel, Nat.add_sub_cancel, List.range'_concat, List.countP_append,
    List.countP_singleton, Nat.one_mul, Nat.add_comm 1 before]
  simp only [decide_eq_true_eq]

/-- Each copy leads to the cell after it. -/
theorem clonesFrom_next {index remaining offset : Nat} (positive : 1 ≤ index) {copy : SsaValue}
    (found : (site.clonesFrom index remaining)[offset]? = some copy) :
    copy.next = site.position + site.rank index + offset + 1 := by
  induction remaining generalizing index offset with
  | zero => cases found
  | succ remaining ih =>
      rw [clonesFrom_succ] at found
      have next := site.rank_succ positive
      split at found
      · rename_i copied
        rw [if_pos copied] at next
        cases offset with
        | zero =>
            rw [List.getElem?_cons_zero, Option.some.injEq] at found
            rw [← found, clone, mapped, if_pos copied]
        | succ offset =>
            rw [List.getElem?_cons_succ] at found
            rw [ih (by omega) found]
            omega
      · rename_i kept
        rw [if_neg kept] at next
        rw [ih (by omega) found]
        omega

/-- The template table with the references for the values before an index. -/
def scratch (templates : Nat → SsaValue) (range : InlineRange) (index place : Nat) : SsaValue :=
  if range.base ≤ place ∧ place + 1 < range.base + index then
    { templates place with remap := site.mapped (place - range.base + 1) }
  else templates place

section Scratch

variable {site} {templates : Nat → SsaValue} {range : InlineRange}

theorem scratch_one (templates : Nat → SsaValue) (range : InlineRange) :
    site.scratch templates range 1 = templates := by
  funext place
  rw [scratch, if_neg (by omega)]

theorem scratch_before {reference index : Nat} (positive : 1 ≤ reference)
    (before : reference < index) : site.scratch templates range index (range.place reference) =
      { templates (range.place reference) with remap := site.mapped reference } := by
  have back : range.place reference - range.base + 1 = reference := by
    unfold InlineRange.place
    omega
  rw [scratch, back, if_pos (by unfold InlineRange.place; omega)]

theorem scratch_after {reference index : Nat} (positive : 1 ≤ reference)
    (after : index ≤ reference) : site.scratch templates range index (range.place reference) =
      templates (range.place reference) := by
  rw [scratch, if_neg (by unfold InlineRange.place; omega)]

theorem scratch_succ {index : Nat} (positive : 1 ≤ index) :
    Function.update (site.scratch templates range index) (range.place index)
        { site.scratch templates range index (range.place index) with
          remap := site.mapped index } = site.scratch templates range (index + 1) := by
  rw [scratch_after positive (Nat.le_refl _)]
  funext place
  by_cases here : place = range.place index
  · subst here
    rw [Function.update_self, scratch_before positive (Nat.lt_succ_self _)]
  · rw [Function.update_of_ne here]
    unfold scratch
    unfold InlineRange.place at here
    by_cases before : range.base ≤ place ∧ place + 1 < range.base + index
    · rw [if_pos before, if_pos (by omega)]
    · rw [if_neg before, if_neg (by omega)]

/-- The references are all that copying leaves in the table. -/
theorem scratch_remap (templates : Nat → SsaValue) (range : InlineRange) (index place : Nat) :
    { site.scratch templates range index place with remap := 0 } =
      { templates place with remap := 0 } := by
  unfold scratch
  split <;> rfl

/-- A reference of a template value to an earlier one is found in the table. -/
theorem mappedValue_scratch {reference index : Nat} (before : reference < index) :
    ssaInlineMappedValue (site.scratch templates range index) range reference =
      site.operand reference := by
  unfold ssaInlineMappedValue operand ssaInlineTemplateAt
  split
  · rfl
  · rename_i present
    rw [scratch_before (Nat.pos_of_ne_zero present) before]

theorem scratch_fields {reference index : Nat} (positive : 1 ≤ reference) (after : index ≤ reference)
    (stored : ∀ reference, site.template reference = templates (range.place reference)) :
    ssaInlineTemplateAt (site.scratch templates range index) range reference =
      site.template reference := by
  rw [ssaInlineTemplateAt, scratch_after positive after, stored]

end Scratch

/-- Copying writes the copies from the destination on and leaves the references in the table. -/
theorem ssaInlineCloneValues_eq {templates : Nat → SsaValue} {range : InlineRange} {arity : Nat}
    {call : SsaValue} {below : Nat → SsaValue} (source : call.source = site.call.source)
    (block : call.block = site.call.block)
    (stored : ∀ reference, site.template reference = templates (range.place reference))
    (ordered : site.Ordered)
    (reads : ∀ arena : SsaArena, (∀ place < site.position, arena.values place = below place) →
      ∀ reference, 1 ≤ reference → reference ≤ site.count → ¬ site.CopiedP reference →
        ssaInlineArgument arena call.left arity (site.template reference).value =
          site.argument (site.template reference).value)
    (remaining : Nat) : ∀ {index : Nat} {arena : SsaArena}, 1 ≤ index →
      index + remaining = site.count + 1 →
      (∀ place < site.position, arena.values place = below place) →
      ssaInlineCloneValues range arity call remaining index (site.position + site.rank index)
          { arena := arena, templates := site.scratch templates range index } =
        { arena := arena.placeValues (site.position + site.rank index)
            (site.clonesFrom index remaining)
          templates := site.scratch templates range (site.count + 1) } := by
  induction remaining with
  | zero =>
      intro index arena positive ends same
      have last : index = site.count + 1 := ends
      rw [ssaInlineCloneValues, last]
      exact congrArg (InlineState.mk · _) (arena.placeValues_nil _).symm
  | succ remaining ih =>
      intro index arena positive ends same
      have next := site.rank_succ positive
      rw [ssaInlineCloneValues]
      dsimp only
      rw [scratch_fields positive (Nat.le_refl _) stored, clonesFrom_succ]
      by_cases copied : site.CopiedP index
      · have mapped : site.mapped index = site.position + site.rank index := if_pos copied
        obtain ⟨left, right⟩ := ordered index positive (by omega)
        have clone : ssaInlineCloneOf (site.scratch templates range index) range
            (site.template index) (site.position + site.rank index) call = site.clone index := by
          rw [ssaInlineCloneOf, mappedValue_scratch left, mappedValue_scratch right, clone, mapped,
            source, block]
        rw [if_pos copied] at next
        rw [if_neg copied, if_pos copied, SsaArena.placeValues_cons, ssaInlineCloneValue]
        dsimp only
        rw [scratch_fields positive (Nat.le_refl _) stored, clone, InlineState.setRemap]
        dsimp only
        rw [← mapped, scratch_succ positive, mapped, Nat.add_assoc, ← next]
        apply ih (by omega) (by omega)
        intro place before
        rw [← same place before]
        exact Function.update_of_ne (by omega) _ _
      · have mapped : site.mapped index = site.argument (site.template index).value :=
          if_neg copied
        rw [if_neg copied] at next
        rw [if_pos (not_not.mp copied), if_neg copied, reads arena same index positive (by omega)
          copied, ← mapped, InlineState.setRemap]
        dsimp only
        rw [scratch_succ positive, show site.rank index = site.rank (index + 1) from next.symm]
        exact ih (by omega) (by omega) same

theorem length_clonesFrom {templates : Nat → SsaValue} {range : InlineRange}
    (stored : ∀ reference, site.template reference = templates (range.place reference)) :
    ∀ (remaining index : Nat), (site.clonesFrom index remaining).length =
      ssaInlineCloneCount templates range remaining index := by
  intro remaining
  induction remaining with
  | zero => exact fun _ => rfl
  | succ remaining ih =>
      intro index
      rw [clonesFrom_succ, ssaInlineCloneCount, ssaInlineTemplateAt, ← stored, ← ih]
      by_cases copied : site.CopiedP index
      · rw [if_pos copied, if_neg copied, List.length_cons, Nat.add_comm]
      · rw [if_neg copied, if_pos (not_not.mp copied), Nat.zero_add]

end InlinedCall

/-! ## Inlining a call -/

/-- The argument at a position is found along the chain of links. -/
theorem ssaInlineArgument_eq (arena : SsaArena) {position : Nat} (positive : 1 ≤ position) :
    ∀ {remaining chain : Nat}, position ≤ remaining →
      ssaInlineArgument arena chain remaining position =
        ((chainArguments (fun link => (arena.values link).left)
          (fun link => (arena.values link).right) chain remaining).reverse[position - 1]?).getD 0 := by
  intro remaining
  induction remaining with
  | zero => exact fun bound => absurd positive (by omega)
  | succ remaining ih =>
      intro chain bound
      have length : ∀ chain, (chainArguments (fun link => (arena.values link).left)
          (fun link => (arena.values link).right) chain remaining).reverse.length = remaining := by
        intro chain
        rw [List.length_reverse, chainArguments_length]
      rw [ssaInlineArgument, chainArguments, List.reverse_cons]
      by_cases here : remaining + 1 = position
      · rw [if_pos here, List.getElem?_append_right (by rw [length]; omega), length,
          show position - 1 - remaining = 0 by omega, List.getElem?_cons_zero, Option.getD_some]
      · rw [if_neg here, ih (by omega), List.getElem?_append_left (by rw [length]; omega)]

/-- The operands of a valid operation are at most the count. -/
theorem irOpOperandsP_le {op : ScalarOp} {count : Nat} (shape : irOpOperandsP op count = true) :
    op.left ≤ count ∧ op.right ≤ count := by
  unfold irOpOperandsP at shape
  split at shape
  · simp only [Bool.and_eq_true, beq_iff_eq] at shape
    omega
  · split at shape
    · simp only [Bool.and_eq_true, beq_iff_eq, irReferenceP_eq_true] at shape
      omega
    · split at shape
      · simp only [Bool.and_eq_true, irReferenceP_eq_true] at shape
        omega
      · split at shape
        · simp only [Bool.and_eq_true, Bool.or_eq_true, beq_iff_eq, irReferenceP_eq_true] at shape
          omega
        · simp only [Bool.and_eq_true, Bool.or_eq_true, beq_iff_eq, irReferenceP_eq_true] at shape
          omega
        · cases shape

theorem checkUpTo_apply {count index : Nat} {check : Nat → Bool}
    (checked : checkUpTo count check = true) (lower : 1 ≤ index) (upper : index ≤ count) :
    check index = true :=
  checkUpTo_eq_true.mp checked index lower upper

namespace SsaArena.Accepted

variable {context : CompileContext} {arena : SsaArena} (accepted : Accepted context arena)

include accepted

theorem operands_lt {reference : Nat} (lower : 1 ≤ reference)
    (upper : reference ≤ arena.valueCount) :
    (arena.values reference).left < reference ∧ (arena.values reference).right < reference := by
  have bounds := irOpOperandsP_le (accepted.checks lower upper).operands
  omega

/-- A verified chain stands before its user, so an arena with the same links before the user has
the same chain. -/
theorem chain_congr {signature : Signature} {parent : Nat} {left right : Nat → Nat}
    (bounded : parent ≤ arena.valueCount + 1)
    (lefts : ∀ link, 1 ≤ link → link < parent → left link = (arena.values link).left)
    (rights : ∀ link, 1 ≤ link → link < parent → right link = (arena.values link).right) :
    ∀ {remaining chain : Nat},
      irVerifyArgumentChain context arena.types signature chain remaining = true →
      chain < parent →
      chainArguments left right chain remaining =
        chainArguments (fun link => (arena.values link).left)
          (fun link => (arena.values link).right) chain remaining := by
  intro remaining
  induction remaining with
  | zero => exact fun _ _ => rfl
  | succ remaining ih =>
      intro chain verified before
      simp only [irVerifyArgumentChain, Bool.and_eq_true, bne_iff_ne, beq_iff_eq] at verified
      obtain ⟨⟨⟨present, link⟩, -⟩, rest⟩ := verified
      have positive := Nat.pos_of_ne_zero present
      have upper : chain ≤ arena.valueCount := by omega
      obtain ⟨kind, -, ends⟩ := accepted.catalogue positive upper
      obtain ⟨-, sameRight⟩ := ends (kind.symm.trans link)
      have earlier := (accepted.operands_lt positive upper).2
      rw [sameRight] at rest
      rw [chainArguments, chainArguments, lefts chain positive before, rights chain positive before,
        ih rest (by omega)]

end SsaArena.Accepted

/-- A call in an arena, with the template of its signature. -/
def inlinedCall (context : InlineContext) (state : InlineState) (position : Nat) : InlinedCall :=
  let call := state.arena.values position
  let range := context.rangeAt (call.target - 1)
  { template := ssaInlineTemplateAt state.templates range
    count := range.count
    result := range.result
    argument := fun parameter => ((state.arena.callArguments context.compile
      call.toScalarOp).reverse[parameter - 1]?).getD 0
    position := position
    call := call }

section Call

variable {context : InlineContext} {state : InlineState} {position : Nat}

theorem ssaInlineTemplateP_value {signature : Nat} {templates : Nat → SsaValue}
    (valid : ssaInlineTemplateP context templates signature = true) {reference : Nat}
    (lower : 1 ≤ reference) (upper : reference ≤ (context.rangeAt signature).count) :
    ssaInlineTemplateValueP context.compile templates (context.rangeAt signature)
      (context.compile.signatureAt signature).arity reference = true := by
  simp only [ssaInlineTemplateP, Bool.and_eq_true] at valid
  exact checkUpTo_apply valid.2 lower upper

theorem ssaInlineTemplateP_result {signature : Nat} {templates : Nat → SsaValue}
    (valid : ssaInlineTemplateP context templates signature = true) :
    1 ≤ (context.rangeAt signature).result ∧
      (context.rangeAt signature).result ≤ (context.rangeAt signature).count := by
  simp only [ssaInlineTemplateP, Bool.and_eq_true, irReferenceP_eq_true] at valid
  exact valid.1.2

theorem inlinedCall_ordered
    (valid : ssaInlineTemplateP context state.templates ((state.arena.values position).target - 1) =
      true) : (inlinedCall context state position).Ordered := by
  intro reference lower upper
  have checked := ssaInlineTemplateP_value valid lower upper
  simp only [ssaInlineTemplateValueP, Bool.and_eq_true] at checked
  have bounds := irOpOperandsP_le checked.1.1.2
  exact ⟨Nat.lt_of_le_pred lower bounds.1, Nat.lt_of_le_pred lower bounds.2⟩

/-- After room is made, the arguments of a verified call are read as they stood before. -/
theorem inlinedCall_reads (verified : ssaVerifyFunction context.compile state.arena = true)
    (lower : 1 ≤ position) (upper : position ≤ state.arena.valueCount)
    (isCall : (state.arena.values position).kind = .call)
    (valid : ssaInlineTemplateP context state.templates ((state.arena.values position).target - 1) =
      true) (amount : Nat) (arena : SsaArena)
    (same : ∀ place < position, arena.values place =
      (ssaInlineReserveValues state.arena position amount).values place)
    {reference : Nat} (first : 1 ≤ reference)
    (last : reference ≤ (inlinedCall context state position).count)
    (parameter : ¬ (inlinedCall context state position).CopiedP reference) :
    ssaInlineArgument arena
        ((ssaInlineReserveValues state.arena position amount).values (position + amount)).left
        (context.compile.signatureAt ((state.arena.values position).target - 1)).arity
        ((inlinedCall context state position).template reference).value =
      (inlinedCall context state position).argument
        ((inlinedCall context state position).template reference).value := by
  have accepted := ssaVerifyFunction_accepted verified
  have checked := ssaInlineTemplateP_value valid first last
  simp only [ssaInlineTemplateValueP, Bool.and_eq_true] at checked
  have isParameter : (ssaInlineTemplateAt state.templates
      (context.rangeAt ((state.arena.values position).target - 1)) reference).kind = .parameter :=
    not_not.mp parameter
  have bounds := checked.2
  rw [if_pos isParameter, irReferenceP_eq_true] at bounds
  have chain := (accepted.checks lower upper).typed
  simp only [irVerifyScalarType, isCall, irVerifyCallType, irVerifyCallTypeChecked,
    Bool.and_eq_true] at chain
  obtain ⟨-, -, ⟨-, chain⟩, -⟩ := chain
  have begins := (accepted.operands_lt lower upper).1
  have moved : ((ssaInlineReserveValues state.arena position amount).values
      (position + amount)).left = (state.arena.values position).left := by
    rw [reserved_values lower upper]
    dsimp only
    rw [if_neg (by omega), if_pos (by omega), Nat.add_sub_cancel, SsaValue.rename]
    exact shiftReference_of_lt begins
  have links : ∀ link, 1 ≤ link → link < position →
      (arena.values link).left = (state.arena.values link).left ∧
        (arena.values link).right = (state.arena.values link).right := by
    intro link positive before
    obtain ⟨left, right⟩ := accepted.operands_lt positive (by omega)
    rw [same link before, reserved_values lower upper]
    dsimp only
    rw [if_pos ⟨positive, before⟩, SsaValue.rename]
    exact ⟨shiftReference_of_lt (by omega), shiftReference_of_lt (by omega)⟩
  have found := @ssaInlineArgument_eq arena _ bounds.1 _ (state.arena.values position).left bounds.2
  rw [accepted.chain_congr (by omega) (fun link positive before => (links link positive before).1)
      (fun link positive before => (links link positive before).2) chain begins] at found
  rw [moved]
  exact found

/-- Inlining a verified call leaves everything as it was when the copies do not fit, and otherwise
inserts them. -/
theorem ssaInlineCall_eq (verified : ssaVerifyFunction context.compile state.arena = true)
    (lower : 1 ≤ position) (upper : position ≤ state.arena.valueCount)
    (isCall : (state.arena.values position).kind = .call)
    (valid : ssaInlineTemplateP context state.templates ((state.arena.values position).target - 1) =
      true) :
    let site := inlinedCall context state position
    let range := context.rangeAt ((state.arena.values position).target - 1)
    ssaInlineCall context ((state.arena.values position).target - 1) state position =
      if state.arena.valueCapacity - state.arena.valueCount < site.clones.length then (0, state)
      else (site.clones.length,
        { arena := state.arena.insertBefore position site.clones site.forward
          templates := site.scratch state.templates range (range.count + 1) }) := by
  intro site range
  have amount : ssaInlineCloneCount state.templates range range.count 1 = site.clones.length :=
    (site.length_clonesFrom (fun _ => rfl) range.count 1).symm
  unfold ssaInlineCall
  dsimp only
  rw [amount]
  split
  · rfl
  · have call : (ssaInlineReserveValues state.arena position site.clones.length).values
        (position + site.clones.length) =
          SsaValue.rename (shiftReference position site.clones.length)
            (enterReference position site.clones.length) (state.arena.values position) := by
      rw [reserved_values lower upper]
      dsimp only
      rw [if_neg (by omega), if_pos (by omega), Nat.add_sub_cancel]
    have copied := @InlinedCall.ssaInlineCloneValues_eq site state.templates range
      (context.compile.signatureAt ((state.arena.values position).target - 1)).arity
      ((ssaInlineReserveValues state.arena position site.clones.length).values
        (position + site.clones.length)) _ (by rw [call]; rfl) (by rw [call]; rfl) (fun _ => rfl)
      (inlinedCall_ordered valid)
      (fun arena same _ first last parameter => inlinedCall_reads verified lower upper isCall valid
        site.clones.length arena same first last parameter) range.count
      1 (ssaInlineReserveValues state.arena position site.clones.length) (Nat.le_refl 1)
      (Nat.add_comm 1 _) (fun _ _ => rfl)
    rw [InlinedCall.scratch_one, show site.position + site.rank 1 = position from rfl] at copied
    rw [copied]
    have result : ssaInlineMappedValue (site.scratch state.templates range (site.count + 1))
        (context.rangeAt ((state.arena.values position).target - 1))
        (context.rangeAt ((state.arena.values position).target - 1)).result =
          site.operand site.result :=
      InlinedCall.mappedValue_scratch (Nat.lt_succ_of_le (ssaInlineTemplateP_result valid).2)
    have found : ((ssaInlineReserveValues state.arena position site.clones.length).placeValues
        position site.clones).values (position + site.clones.length) =
          SsaValue.rename (shiftReference position site.clones.length)
            (enterReference position site.clones.length) (state.arena.values position) := by
      rw [← call]
      exact overwrite_of_ge (Nat.le_refl _)
    unfold ssaInlineReplaceCall
    dsimp only
    rw [show site.clonesFrom 1 range.count = site.clones from rfl, found,
      result, ← placeValues_reserved lower upper site.forward]
    rfl

end Call

/-! ## Saved bodies -/

section Saved

variable {context : InlineContext} {state saved : InlineState} {range : InlineRange}

/-- The values of a saved body are found at their places. -/
theorem foldl_saved (range : InlineRange) (values : Nat → SsaValue) (count : Nat)
    (templates : Nat → SsaValue) {reference : Nat} (lower : 1 ≤ reference)
    (upper : reference ≤ count) :
    (List.range' 1 count).foldl (fun templates index =>
      Function.update templates (range.place index) (values index)) templates
        (range.place reference) = values reference := by
  induction count with
  | zero => exact absurd upper (by omega)
  | succ count ih =>
      rw [List.range'_concat, List.foldl_append, List.foldl_cons, List.foldl_nil, Nat.one_mul,
        Nat.add_comm 1 count]
      by_cases last : reference = count + 1
      · rw [last, Function.update_self]
      · rw [Function.update_of_ne (by unfold InlineRange.place; omega)]
        exact ih (by omega)

/-- A verified body that may be inlined is saved as a valid template of its signature. -/
theorem ssaInlineSaveBody_valid {signature : Nat}
    (verified : ssaVerifyFunction context.compile state.arena = true)
    (body : ssaInlineBodyP state.arena = true)
    (parameters : context.compile.currentArity = (context.compile.signatureAt signature).arity)
    (defined : (context.compile.signatureAt signature).imported ≠ 1)
    (save : ssaInlineSaveBody state context.used context.capacity = (true, some range, saved)) :
    ssaInlineTemplateP
        { context with
          rangeAt := Function.update context.rangeAt signature range
          present := true
          used := context.used + range.count }
        saved.templates signature = true := by
  have accepted := ssaVerifyFunction_accepted verified
  simp only [ssaInlineBodyP, Bool.and_eq_true, beq_iff_eq, Bool.not_eq_true',
    decide_eq_false_iff_not] at body
  obtain ⟨⟨⟨oneBlock, small⟩, returns⟩, kinds⟩ := body
  have shape := accepted.shaped.terminators 1 (Nat.le_refl 1) (Nat.le_of_eq oneBlock.symm)
  simp only [SsaArena.verifyTerminatorShape, returns, Bool.and_eq_true,
    irReferenceP_eq_true] at shape
  have result := shape.2
  unfold ssaInlineSaveBody at save
  dsimp only at save
  split at save
  · exact absurd (congrArg Prod.fst save) Bool.false_ne_true
  · split at save
    · exact absurd (congrArg (Prod.fst ∘ Prod.snd) save) (by simp)
    · rename_i inside fits
      simp only [Prod.mk.injEq, Option.some.injEq, true_and] at save
      obtain ⟨rfl, rfl⟩ := save
      simp only [ssaInlineTemplateP, Function.update_self, Bool.and_eq_true, bne_iff_ne,
        irReferenceP_eq_true, Bool.not_eq_true', decide_eq_false_iff_not, true_and]
      refine ⟨⟨⟨⟨⟨⟨defined, by omega, by omega⟩, by omega⟩, by omega⟩, by omega⟩, result⟩, ?_⟩
      apply checkUpTo_eq_true.mpr
      intro reference lower upper
      have checks := accepted.values reference lower upper
      simp only [ssaVerifyValue, Bool.and_eq_true] at checks
      obtain ⟨⟨⟨⟨⟨⟨-, operands⟩, metadata⟩, -⟩, -⟩, typed⟩, -⟩ := checks
      have found := foldl_saved
        ⟨context.used, state.arena.valueCount, (state.arena.blocks 1).result⟩ state.arena.values
        state.arena.valueCount state.templates lower upper
      simp only [ssaInlineTemplateValueP, ssaInlineTemplateAt, found, Bool.and_eq_true]
      refine ⟨⟨⟨checkUpTo_apply kinds lower upper, operands⟩, metadata⟩, ?_⟩
      split
      · rename_i isParameter
        simp only [irVerifyScalarType, isParameter, irVerifyParameterType, Bool.and_eq_true,
          bne_iff_ne, Bool.not_eq_true', decide_eq_false_iff_not] at typed
        rw [irReferenceP_eq_true, ← parameters]
        omega
      · rfl

end Saved

/-! ## The calls of a function -/

/-- A run with the value of the function that each value of the arena stands for; a copy stands for
none. -/
structure TracedRun where
  run : InlineRun
  origins : List (Option Nat)

/-- A step of the loop; the values that it inserts stand for none. -/
def TracedRun.step (context : InlineContext) (traced : TracedRun) : Option TracedRun :=
  (traced.run.step context).map fun after =>
    { run := after
      origins := traced.origins.take (traced.run.cursor - 1) ++
        List.replicate (after.cursor - (traced.run.cursor + 1)) none ++
          traced.origins.drop (traced.run.cursor - 1) }

/-- A value that the loop looks at. -/
structure Visit where
  origin : Option Nat
  kind : Kind
  target : Nat
  deriving DecidableEq, Repr

def TracedRun.visit (traced : TracedRun) : Visit where
  origin := (traced.origins[traced.run.cursor - 1]?).getD none
  kind := (traced.run.state.arena.values traced.run.cursor).kind
  target := (traced.run.state.arena.values traced.run.cursor).target

/-- The loop before its first step. -/
def TracedRun.start (state : InlineState) : TracedRun where
  run := { state := state, cursor := 1 }
  origins := (List.range' 1 state.arena.valueCount).map some

section Frame

variable {context : InlineContext} {range : InlineRange} {arity : Nat} {call : SsaValue}

theorem InlineState.setRemap_kind (state : InlineState) (place remap other : Nat) :
    ((state.setRemap place remap).templates other).kind = (state.templates other).kind := by
  unfold InlineState.setRemap
  dsimp only
  by_cases here : other = place
  · subst here
    rw [Function.update_self]
  · rw [Function.update_of_ne here]

/-- Copying changes no value after the copies. -/
theorem ssaInlineCloneValues_frame {templates : Nat → SsaValue} (remaining : Nat) :
    ∀ {index destination : Nat} {state : InlineState},
      (∀ place, (state.templates place).kind = (templates place).kind) →
      (ssaInlineCloneValues range arity call remaining index destination state).arena.valueCount =
          state.arena.valueCount ∧
        ∀ place, destination + ssaInlineCloneCount templates range remaining index ≤ place →
          (ssaInlineCloneValues range arity call remaining index destination state).arena.values
            place = state.arena.values place := by
  induction remaining with
  | zero => exact fun _ => ⟨rfl, fun _ _ => rfl⟩
  | succ remaining ih =>
      intro index destination state kinds
      have same : (ssaInlineTemplateAt state.templates range index).kind =
          (ssaInlineTemplateAt templates range index).kind := kinds _
      rw [ssaInlineCloneValues, ssaInlineCloneCount, same]
      by_cases parameter : (ssaInlineTemplateAt templates range index).kind = .parameter
      · rw [if_pos parameter, if_pos parameter, Nat.zero_add]
        apply ih
        intro place
        rw [InlineState.setRemap_kind, kinds]
      · rw [if_neg parameter, if_neg parameter]
        obtain ⟨count, values⟩ := @ih (index + 1) (destination + 1)
          (ssaInlineCloneValue range state index destination call) (by
            intro place
            rw [ssaInlineCloneValue, InlineState.setRemap_kind, kinds])
        refine ⟨count, ?_⟩
        intro place after
        rw [values place (by omega)]
        exact Function.update_of_ne (by omega) _ _

/-- A step of the loop moves the values after the cursor up and changes no kind or target there. -/
theorem ssaInlineStep_frame {state : InlineState} {position : Nat} (lower : 1 ≤ position)
    (upper : position ≤ state.arena.valueCount) :
    let result := ssaInlineStep context state position
    result.2.arena.valueCount = state.arena.valueCount + result.1 ∧
      ∀ place, position < place → place ≤ state.arena.valueCount →
        (result.2.arena.values (place + result.1)).kind = (state.arena.values place).kind ∧
          (result.2.arena.values (place + result.1)).target = (state.arena.values place).target := by
  have unchanged : state.arena.valueCount = state.arena.valueCount + 0 ∧
      ∀ place, position < place → place ≤ state.arena.valueCount →
        (state.arena.values (place + 0)).kind = (state.arena.values place).kind ∧
          (state.arena.values (place + 0)).target = (state.arena.values place).target :=
    ⟨rfl, fun _ _ _ => ⟨rfl, rfl⟩⟩
  intro result
  unfold result ssaInlineStep
  dsimp only
  split
  · split
    · exact unchanged
    · unfold ssaInlineCall
      dsimp only
      split
      · exact unchanged
      · obtain ⟨count, values⟩ := @ssaInlineCloneValues_frame
          (context.rangeAt ((state.arena.values position).target - 1)) _ _ state.templates
          (context.rangeAt ((state.arena.values position).target - 1)).count 1 position
          { state with
            arena := ssaInlineReserveValues state.arena position (ssaInlineCloneCount state.templates
              (context.rangeAt ((state.arena.values position).target - 1))
              (context.rangeAt ((state.arena.values position).target - 1)).count 1) }
          (fun _ => rfl)
        refine ⟨count, ?_⟩
        intro place after inside
        unfold ssaInlineReplaceCall SsaArena.storeValue
        dsimp only
        rw [Function.update_of_ne (by omega), values _ (by omega), reserved_values lower upper]
        dsimp only
        rw [if_neg (by omega), if_pos (by omega), Nat.add_sub_cancel]
        exact ⟨rfl, rfl⟩
  · exact unchanged

/-- From a cursor on, the loop looks at the values after it one after the other, each where it has
moved to. -/
theorem visited_from {remaining fuel : Nat} (enough : remaining ≤ fuel) : ∀ {traced : TracedRun},
    1 ≤ traced.run.cursor →
    traced.run.cursor + remaining = traced.run.state.arena.valueCount + 1 →
    traced.origins.length = traced.run.state.arena.valueCount →
    (Loops.visited (TracedRun.step context) fuel traced).map TracedRun.visit =
      (List.range' traced.run.cursor remaining).map fun place =>
        { origin := (traced.origins[place - 1]?).getD none
          kind := (traced.run.state.arena.values place).kind
          target := (traced.run.state.arena.values place).target } := by
  induction remaining generalizing fuel with
  | zero =>
      intro traced _ ends _
      have stopped : traced.step context = none := by
        rw [TracedRun.step, InlineRun.step, if_neg (by omega)]
        rfl
      cases fuel with
      | zero => rfl
      | succ fuel =>
          rw [Loops.visited, stopped]
          rfl
  | succ remaining ih =>
      intro traced positive ends length
      obtain ⟨less, rfl⟩ := Nat.exists_eq_succ_of_ne_zero (Nat.ne_zero_of_lt enough)
      obtain ⟨count, values⟩ := @ssaInlineStep_frame context traced.run.state traced.run.cursor
        positive (by omega)
      generalize result : ssaInlineStep context traced.run.state traced.run.cursor = stepped
        at count values
      obtain ⟨amount, after⟩ := stepped
      dsimp only at count values
      have step : traced.step context = some
          { run := { state := after, cursor := traced.run.cursor + (amount + 1) }
            origins := traced.origins.take (traced.run.cursor - 1) ++
              List.replicate amount none ++ traced.origins.drop (traced.run.cursor - 1) } := by
        rw [TracedRun.step, InlineRun.step, if_pos (by omega), result]
        dsimp only [Option.map_some]
        rw [show traced.run.cursor + (amount + 1) - (traced.run.cursor + 1) = amount by omega]
      have before : (traced.origins.take (traced.run.cursor - 1)).length =
          traced.run.cursor - 1 := by
        rw [List.length_take]
        omega
      have further := @ih less (Nat.le_of_succ_le_succ enough)
        { run := { state := after, cursor := traced.run.cursor + (amount + 1) }
          origins := traced.origins.take (traced.run.cursor - 1) ++
            List.replicate amount none ++ traced.origins.drop (traced.run.cursor - 1) }
        (by dsimp only; omega) (by dsimp only; omega) (by
          simp only [List.length_append, before, List.length_replicate, List.length_drop]
          omega)
      rw [Loops.visited, step]
      dsimp only at further ⊢
      rw [List.map_cons, further, List.range'_succ, List.map_cons]
      congr 1
      rw [show traced.run.cursor + (amount + 1) = amount + (traced.run.cursor + 1) by omega,
        ← List.map_add_range', List.map_map]
      apply List.map_congr_left
      intro place member
      have inside := List.mem_range'_1.mp member
      obtain ⟨kind, target⟩ := values place (by omega) (by omega)
      rw [Function.comp_apply, Nat.add_comm amount place, kind, target,
        List.getElem?_append_right (by
          simp only [List.length_append, before, List.length_replicate]
          omega), List.length_append, before, List.length_replicate, List.getElem?_drop]
      congr 3
      omega

/-- The loop looks at every value of the function once, in order, and at no copy. -/
theorem visited_start (state : InlineState) {fuel : Nat} (enough : state.arena.valueCount ≤ fuel) :
    (Loops.visited (TracedRun.step context) fuel (TracedRun.start state)).map TracedRun.visit =
      (List.range' 1 state.arena.valueCount).map fun place =>
        { origin := some place
          kind := (state.arena.values place).kind
          target := (state.arena.values place).target } := by
  rw [visited_from enough (Nat.le_refl 1) (Nat.add_comm 1 _) (by
    rw [TracedRun.start, List.length_map, List.length_range'])]
  apply List.map_congr_left
  intro place member
  have inside := List.mem_range'_1.mp member
  change 1 ≤ place ∧ place < 1 + state.arena.valueCount at inside
  rw [TracedRun.start]
  dsimp only
  rw [List.getElem?_map, List.getElem?_range' (by omega), Option.map_some, Option.getD_some,
    Nat.one_mul, show 1 + (place - 1) = place by omega]

end Frame

/-! ## Inlining in place is insertion -/

/-- What inlining a call in place does: nothing when the copies do not fit, and otherwise an
insertion of the copies before the call, which becomes a copy of the result. In the list of its
block, the call has the copies before it. -/
def InlinesInPlace (context : InlineContext) (state : InlineState) (position : Nat) : Prop :=
  let site := inlinedCall context state position
  let inlined := ssaInlineCall context ((state.arena.values position).target - 1) state position
  if state.arena.valueCapacity - state.arena.valueCount < site.clones.length then
    inlined = (0, state)
  else
    inlined.1 = site.clones.length ∧
      inlined.2.arena = state.arena.insertBefore position site.clones site.forward ∧
      (∀ place, { inlined.2.templates place with remap := 0 } =
        { state.templates place with remap := 0 }) ∧
      ∀ block, 1 ≤ block → block ≤ state.arena.blockCount →
        inlined.2.arena.blockValues block =
          (state.arena.blockValues block).flatMap (spliced position site.clones.length)

/-- One function of one integer parameter, whose template adds the parameter to itself. -/
def doublingContext : InlineContext where
  compile := { plainContext with
    priorCount := 1
    signatureAt := fun _ => { arity := 1, typeCode := 1, parameterCode := fun _ => 1 } }
  rangeAt _ := { base := 0, count := 2, result := 2 }
  present := true
  used := 2
  capacity := 2

/-- A function that calls it with a literal. -/
def doublingState : InlineState where
  arena := { SsaArena.ofLists
      [{ kind := .literal, scalarCode := 1, value := 5, source := 1, block := 1, next := 2 },
        { kind := .argumentLink, scalarCode := 1, left := 1, source := 1, block := 1, next := 3 },
        { kind := .call, scalarCode := 1, left := 2, target := 1, source := 1, block := 1 }]
      [{ first := 1, last := 3, terminator := .ret, result := 3 }] with valueCapacity := 8 }
  templates place := [{ kind := .parameter, scalarCode := 1, value := 1, source := 1 },
    { kind := .add, scalarCode := 1, left := 1, right := 1, source := 1 }].getD place {}

end Native
