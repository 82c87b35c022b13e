import PslCompiler.Runtime.RepresentedRoots

/-! # The runtime implements the ideal heap

Whatever a program does, it sees what it would see on a heap that never collects anything, or memory
runs out. No object that the program can still use is ever lost, no freed object is ever used, and no
access leaves its object.
-/

namespace Runtime

open Heaps (Agrees)

variable {environment : Environment} {heap : Heap} {ideal : IdealHeap} {places : Places}

/-! ## Calls -/

theorem Represented.corresponds (represented : Represented heap ideal places) :
    heap.rootSet.Corresponds places ideal.rootSet :=
  ⟨represented.rooted, represented.registered⟩

theorem Represented.setRoots (represented : Represented heap ideal places) {left : RootSet Value}
    {right : RootSet Datum} (sets : left.Corresponds places right) :
    Represented { heap with rootSet := left } { ideal with rootSet := right } places :=
  ⟨represented.valid.withRoots left, represented.injective, represented.shown, represented.owned,
    sets.related, sets.registered⟩

theorem request_represented (environment : Environment) (represented : Represented heap ideal places) (size : Nat) :
    heap.request environment size = .error .memory ∨
      ∃ after, heap.request environment size = .ok after ∧ after.rootSet = heap.rootSet ∧
        Represented after ideal places := by
  rw [Heap.request]
  cases environment.place heap.requests heap.addresses size with
  | none => exact .inl rfl
  | some block =>
      obtain ⟨⟨distinct, placed, stored, unmarked, counted, limited⟩, injective, shown, owned, rooted,
        registered⟩ := represented
      exact .inr ⟨_, rfl, rfl, ⟨distinct, placed, stored, unmarked, counted, limited⟩, injective,
        shown, owned, rooted, registered⟩

/-- What a call gives back stands for what its meaning gives back. -/
structure Answers (left : Reply Value × Heap) (right : Reply Datum × IdealHeap) : Prop where
  seen : left.1.seen = right.1.seen
  represented : ∃ places, Represented left.2 right.2 places ∧
    Represents places left.1.value right.1.value

theorem Answers.observed {left : Heap} {right : IdealHeap} (represented : Represented left right places)
    {seen also : Observation} (same : seen = also) :
    Answers (Runtime.observed left seen) (right.observed also) :=
  ⟨same, places, represented, Represents.nil⟩

theorem answers_returned {left : Except Fault (Value × Heap)}
    {right : Except Fault (Datum × IdealHeap)} (agrees : Agrees Fault.memory Gives left right) :
    Agrees Fault.memory Answers (do return returned (← left)) (do return returned (← right)) :=
  agrees.bind fun _ _ given => .ok ⟨rfl, given⟩

theorem answers_value (represented : Represented heap ideal places) {left : Except Fault Value}
    {right : Except Fault Datum} (agrees : Agrees Fault.memory (Represents places) left right) :
    Agrees Fault.memory Answers (do return ({ value := ← left }, heap))
      (do return ({ value := ← right }, ideal)) :=
  agrees.bind fun _ _ stands => .ok ⟨rfl, places, represented, stands⟩

/-- A pointer has no low bit set. -/
theorem fixnumP_pointer {value : Value} (aligned : value &&& 7#64 = 0#64) :
    fixnumP value = false := by
  have low : value &&& 1#64 = 0#64 := by
    have split : value &&& 1#64 = (value &&& 7#64) &&& 1#64 := by
      rw [BitVec.and_assoc]
      rfl
    rw [split, aligned, BitVec.zero_and]
  rw [fixnumP, low]
  decide

theorem fixnumP_agrees (represented : Represented heap ideal places) {value : Value} {datum : Datum}
    (stands : Represents places value datum) : fixnumP value = datum.asWord.any fixnumP := by
  cases datum with
  | word word =>
      obtain ⟨rfl, -⟩ := stands
      rfl
  | reference number => exact fixnumP_pointer (represented.pointer stands).2

theorem collect_agrees (environment : Environment) (precise : Bool)
    (represented : Represented heap ideal places) :
    Agrees Fault.memory (fun left right => ∃ places, Represented left right places)
      (collectObjects environment (!precise) heap) (.ok ideal) := by
  obtain failed | ⟨after, done, collected⟩ := collectObjects_collected environment represented.valid
    (!precise)
  · rw [failed]
    exact .exhausted _
  · rw [done]
    refine .ok ⟨_, represented.restrict (fun value member => .inr ?_) collected.valid
      collected.sublist.subset collected.rootSet fun object member reached =>
        (collected.kept object member).mpr reached⟩
    exact List.mem_append_left _ member

theorem enterClosure_agrees (represented : Represented heap ideal places) (root parameters : Nat)
    {closure argument : Value} {datum also : Datum} (stands : Represents places closure datum)
    (second : Represents places argument also) :
    Agrees Fault.memory Answers
      (perform environment heap (.enterClosure root parameters) [closure, argument])
      (ideal.perform (.enterClosure root parameters) [datum, also]) := by
  change Agrees Fault.memory Answers (callClosureEntry heap root closure argument >>= _) _
  rw [callClosureEntry, bind_assoc]
  refine (represented.corresponds.pushRoots root (.cons stands (.cons second .nil))).bind ?_
  intro left right sets
  rw [bind_assoc]
  refine (closure_agrees represented stands).bind ?_
  rintro object ⟨code, captured⟩ ⟨sameCode, captures⟩
  refine (sets.pushRoots parameters (.cons captures (.cons second .nil))).bind ?_
  intro left right sets
  exact .ok (.observed (represented.setRoots sets) (congrArg _ sameCode))

theorem valueHandleOpen_agrees (represented : Represented heap ideal places) :
    Agrees Fault.memory Answers (perform environment heap .valueHandleOpen [])
      (ideal.perform .valueHandleOpen []) := by
  change Agrees Fault.memory Answers (valueHandleOpen environment heap >>= _) _
  rw [valueHandleOpen, bind_assoc]
  refine represented.corresponds.valueHandleOpen.bind ?_
  rintro ⟨token, left⟩ ⟨token', right⟩ ⟨same, sets⟩
  obtain failed | ⟨after, granted, rootSet, kept⟩ := request_represented environment represented
    sizeofRecord
  · dsimp only
    rw [failed]
    exact .exhausted _
  · dsimp only
    rw [granted]
    exact .ok (.observed (kept.setRoots sets) (congrArg (fun token : Nat => Observation.number token) same))

theorem values2_agrees (represented : Represented heap ideal places) {first second : Value}
    {one two : Datum} (stands : Represents places first one) (also : Represents places second two) :
    Agrees Fault.memory Answers (perform environment heap .values2 [first, second])
      (ideal.perform .values2 [one, two]) := by
  change Agrees Fault.memory Answers (values2 environment first second heap >>= _) _
  have sets := represented.corresponds.values2 stands also
  rw [values2]
  by_cases used : heap.rootSet.initialized = true
  · rw [if_pos used]
    exact .ok ⟨rfl, places, represented.setRoots sets, stands⟩
  · rw [if_neg used]
    obtain failed | ⟨after, granted, rootSet, kept⟩ := request_represented environment represented
      sizeofRecord
    · rw [failed]
      exact .exhausted _
    · rw [granted]
      rw [← rootSet] at sets
      exact .ok ⟨rfl, places, kept.setRoots sets, stands⟩

theorem registerPermanentRoots_agrees (represented : Represented heap ideal places) (array : Nat)
    {values : List Value} {data : List Datum}
    (pairs : List.Forall₂ (Represents places) values data) :
    Agrees Fault.memory Answers
      (perform environment heap (.registerPermanentRoots array) values)
      (ideal.perform (.registerPermanentRoots array) data) := by
  have known : (heap.rootSet.permanentArray array).isSome =
      (ideal.rootSet.permanentArray array).isSome := by
    have arrays := represented.corresponds.permanentArray array
    generalize heap.rootSet.permanentArray array = found at arrays
    generalize ideal.rootSet.permanentArray array = other at arrays
    cases arrays with
    | none => rfl
    | some _ => rfl
  have sets := represented.corresponds.registerPermanentRoots array pairs
  change Agrees Fault.memory Answers
    (if (heap.rootSet.permanentArray array).isSome = true then _ else _)
    (if (ideal.rootSet.permanentArray array).isSome = true then _ else _)
  rw [known]
  split
  · exact .fault Fault.misuse
  · rw [registerPermanentRoots]
    obtain failed | ⟨after, granted, rootSet, kept⟩ := request_represented environment represented
      sizeofRecord
    · rw [failed]
      exact .exhausted _
    · rw [granted]
      rw [← rootSet] at sets
      exact .ok (.observed (kept.setRoots sets) rfl)

theorem unboxFixnum_agrees (represented : Represented heap ideal places) {value : Value}
    {datum : Datum} (stands : Represents places value datum) :
    Agrees Fault.memory Answers (perform environment heap .unboxFixnum [value])
      (ideal.perform .unboxFixnum [datum]) := by
  cases datum with
  | word word =>
      obtain ⟨rfl, -⟩ := stands
      change Agrees Fault.memory Answers (unboxFixnum value >>= _) (unboxFixnum value >>= _)
      cases unboxFixnum value with
      | error fault => exact .fault fault
      | ok number => exact .ok (.observed represented rfl)
  | reference number =>
      change Agrees Fault.memory Answers (unboxFixnum value >>= _) _
      rw [unboxFixnum, if_pos (fixnumP_pointer (represented.pointer stands).2)]
      exact .fault Fault.abort

theorem makeStringFromBytes_agrees (environment : Environment) (precise : Bool) (address : Nat)
    (bytes : List UInt8) (represented : Represented heap ideal places) :
    Agrees Fault.memory Answers
      (perform environment heap (.makeStringFromBytes precise address bytes) [])
      (ideal.perform (.makeStringFromBytes precise address bytes) []) := by
  change Agrees Fault.memory Answers (copyStringBytes environment precise address bytes heap >>= _)
    (if bytes.length ≠ 0 ∧ address = 0 then _ else _)
  by_cases unreadable : bytes.length ≠ 0 ∧ address = 0
  · rw [copyStringBytes, if_pos unreadable, if_pos unreadable]
    exact .fault Fault.abort
  · rw [if_neg unreadable]
    have given := answers_returned
      (copyStringBytes_agrees environment precise address bytes represented unreadable)
    exact given

theorem makeClosureCall_agrees (environment : Environment) (precise : Bool) (code : Value)
    (represented : Represented heap ideal places) {captured : Value} {datum : Datum}
    (stands : Represents places captured datum) :
    Agrees Fault.memory Answers (perform environment heap (.makeClosure precise code) [captured])
      (ideal.perform (.makeClosure precise code) [datum]) := by
  change Agrees Fault.memory Answers (makeClosure environment precise code captured heap >>= _)
    (if code = 0#64 then _ else _)
  by_cases missing : code = 0#64
  · rw [makeClosure, if_pos missing, if_pos missing]
    exact .fault Fault.abort
  · rw [if_neg missing]
    have given := answers_returned (makeClosure_agrees environment precise missing represented stands)
    exact given

theorem packageNameCall_agrees (represented : Represented heap ideal places) {value : Value}
    {datum : Datum} (stands : Represents places value datum) :
    Agrees Fault.memory Answers (perform environment heap .packageName [value])
      (ideal.perform .packageName [datum]) := by
  change Agrees Fault.memory Answers (packageName heap value >>= _) _
  rw [packageName, bind_assoc]
  refine (package_agrees represented stands).bind ?_
  rintro package parts ⟨number, -, finds⟩
  exact .ok ⟨rfl, places, represented, finds.shown.2.1⟩

theorem popRoots_agrees (represented : Represented heap ideal places) (root : Nat) :
    Agrees Fault.memory Answers (perform environment heap (.popRoots root) [])
      (ideal.perform (.popRoots root) []) := by
  change Agrees Fault.memory Answers (heap.popRoots root >>= _) _
  rw [Heap.popRoots, bind_assoc]
  exact (represented.corresponds.popRoots root).bind fun _ _ sets =>
    .ok (.observed (represented.setRoots sets) rfl)

theorem collectCall_agrees (environment : Environment) (precise : Bool)
    (represented : Represented heap ideal places) :
    Agrees Fault.memory Answers (perform environment heap (.collect precise) [])
      (ideal.perform (.collect precise) []) := by
  have agrees := collect_agrees environment precise represented
  change Agrees Fault.memory Answers (collectObjects environment (!precise) heap >>= _) _
  generalize collectObjects environment (!precise) heap = outcome at agrees
  cases agrees with
  | exhausted _ => exact .exhausted _
  | ok given =>
      obtain ⟨places, given⟩ := given
      exact .ok (.observed given rfl)

/-- A length that both sides can see. -/
theorem answers_count (represented : Represented heap ideal places) {α : Type}
    {left : Except Fault Object} {right : Except Fault (List α)}
    (agrees : Agrees Fault.memory (fun object items => object.length = items.length) left right) :
    Agrees Fault.memory Answers
      ((do return (← left).length) >>= fun length : Nat =>
        .ok (Runtime.observed heap (.number length)))
      (right >>= fun items => .ok (ideal.observed (.number items.length))) := by
  rw [bind_assoc]
  exact agrees.bind fun _ _ same =>
    .ok (.observed represented (congrArg (fun count : Nat => Observation.number count) same))

/-- Every call of the runtime agrees with its meaning. -/
theorem perform_agrees (environment : Environment) (represented : Represented heap ideal places)
    (entry : EntryPoint) {values : List Value} {data : List Datum}
    (pairs : List.Forall₂ (Represents places) values data) :
    Agrees Fault.memory Answers (perform environment heap entry values)
      (ideal.perform entry data) := by
  cases entry with
  | move =>
      obtain _ | ⟨one, _ | _⟩ := pairs <;> try exact .fault Fault.misuse
      exact .ok ⟨rfl, places, represented, one⟩
  | kind =>
      obtain _ | ⟨one, _ | _⟩ := pairs <;> try exact .fault Fault.misuse
      exact (kind_agrees represented one).bind fun _ _ same =>
        .ok (.observed represented (congrArg _ same))
  | eq =>
      obtain _ | ⟨one, _ | ⟨two, _ | _⟩⟩ := pairs <;> try exact .fault Fault.misuse
      refine .ok (.observed represented (congrArg _ ?_))
      exact decide_eq_decide.mpr (represented.eq_iff one two)
  | nilP =>
      obtain _ | ⟨one, _ | _⟩ := pairs <;> try exact .fault Fault.misuse
      refine .ok (.observed represented (congrArg _ ?_))
      exact decide_eq_decide.mpr (represented.eq_iff one Represents.nil)
  | truthy =>
      obtain _ | ⟨one, _ | _⟩ := pairs <;> try exact .fault Fault.misuse
      refine .ok (.observed represented (congrArg _ ?_))
      exact decide_eq_decide.mpr (not_congr (represented.eq_iff one Represents.nil))
  | fixnumP =>
      obtain _ | ⟨one, _ | _⟩ := pairs <;> try exact .fault Fault.misuse
      exact .ok (.observed represented (congrArg _ (fixnumP_agrees represented one)))
  | unboxFixnum =>
      obtain _ | ⟨one, _ | _⟩ := pairs <;> try exact .fault Fault.misuse
      exact unboxFixnum_agrees represented one
  | cons precise =>
      obtain _ | ⟨one, _ | ⟨two, _ | _⟩⟩ := pairs <;> try exact .fault Fault.misuse
      have given := answers_returned (makeCons_agrees environment precise represented one two)
      exact given
  | car =>
      obtain _ | ⟨one, _ | _⟩ := pairs <;> try exact .fault Fault.misuse
      exact answers_value represented (car_agrees represented one)
  | cdr =>
      obtain _ | ⟨one, _ | _⟩ := pairs <;> try exact .fault Fault.misuse
      exact answers_value represented (cdr_agrees represented one)
  | makeString precise length fill =>
      obtain _ | _ := pairs <;> try exact .fault Fault.misuse
      have given := answers_returned (makeString_agrees environment precise length fill represented)
      exact given
  | makeStringFromBytes precise address bytes =>
      obtain _ | _ := pairs <;> try exact .fault Fault.misuse
      exact makeStringFromBytes_agrees environment precise address bytes represented
  | stringLength =>
      obtain _ | ⟨one, _ | _⟩ := pairs <;> try exact .fault Fault.misuse
      refine answers_count represented ((string_agrees represented one).mono ?_)
      rintro object bytes ⟨number, -, finds⟩
      exact finds.shown.2.1
  | stringByte index =>
      obtain _ | ⟨one, _ | _⟩ := pairs <;> try exact .fault Fault.misuse
      refine (stringByte_agrees represented one index).bind ?_
      rintro byte _ rfl
      exact .ok (.observed represented rfl)
  | stringSetByte index byte =>
      obtain _ | ⟨one, _ | _⟩ := pairs <;> try exact .fault Fault.misuse
      exact (stringSetByte_agrees represented one index byte).bind fun _ _ given =>
        .ok (.observed given.1 rfl)
  | stringsEqual =>
      obtain _ | ⟨one, _ | ⟨two, _ | _⟩⟩ := pairs <;> try exact .fault Fault.misuse
      exact (stringsEqual_agrees represented one two).bind fun _ _ same =>
        .ok (.observed represented (congrArg _ same))
  | makeSymbol precise =>
      obtain _ | ⟨one, _ | _⟩ := pairs <;> try exact .fault Fault.misuse
      exact answers_returned (makeSymbol_agrees environment precise represented one)
  | symbolName =>
      obtain _ | ⟨one, _ | _⟩ := pairs <;> try exact .fault Fault.misuse
      exact answers_value represented
        ((symbol_agrees represented one).mapLeft fun _ _ stands => stands)
  | makePackage precise =>
      obtain _ | ⟨one, _ | _⟩ := pairs <;> try exact .fault Fault.misuse
      exact answers_returned (makePackage_agrees environment precise represented one)
  | packageName =>
      obtain _ | ⟨one, _ | _⟩ := pairs <;> try exact .fault Fault.misuse
      exact packageNameCall_agrees represented one
  | intern precise =>
      obtain _ | ⟨one, _ | ⟨two, _ | _⟩⟩ := pairs <;> try exact .fault Fault.misuse
      exact answers_returned (intern_agrees environment precise represented one two)
  | makeClosure precise code =>
      obtain _ | ⟨one, _ | _⟩ := pairs <;> try exact .fault Fault.misuse
      exact makeClosureCall_agrees environment precise code represented one
  | enterClosure root parameters =>
      obtain _ | ⟨one, _ | ⟨two, _ | _⟩⟩ := pairs <;> try exact .fault Fault.misuse
      exact enterClosure_agrees represented root parameters one two
  | values2 =>
      obtain _ | ⟨one, _ | ⟨two, _ | _⟩⟩ := pairs <;> try exact .fault Fault.misuse
      exact values2_agrees represented one two
  | nthValue index =>
      obtain _ | _ := pairs <;> try exact .fault Fault.misuse
      exact .ok ⟨rfl, places, represented, represented.corresponds.nthValue index⟩
  | valueCount =>
      obtain _ | _ := pairs <;> try exact .fault Fault.misuse
      refine .ok (.observed represented (congrArg (fun count : Nat => Observation.number count) ?_))
      exact represented.rooted.currentCount
  | makeValueVector length =>
      obtain _ | ⟨one, _ | _⟩ := pairs <;> try exact .fault Fault.misuse
      have given := answers_returned (makeValueVector_agrees environment length represented one)
      exact given
  | valueVectorLength =>
      obtain _ | ⟨one, _ | _⟩ := pairs <;> try exact .fault Fault.misuse
      refine answers_count represented ((vector_agrees represented one).mono ?_)
      rintro object items ⟨number, -, finds⟩
      exact finds.shown.2.1
  | valueVectorRef index =>
      obtain _ | ⟨one, _ | _⟩ := pairs <;> try exact .fault Fault.misuse
      exact answers_value represented (valueVectorRef_agrees represented one index)
  | valueVectorSet index =>
      obtain _ | ⟨one, _ | ⟨two, _ | _⟩⟩ := pairs <;> try exact .fault Fault.misuse
      refine (valueVectorSet_agrees represented one two index).bind ?_
      rintro ⟨item, after⟩ other ⟨rfl, given, -⟩
      exact .ok ⟨rfl, places, given, two⟩
  | valueVectorPush =>
      obtain _ | ⟨one, _ | ⟨two, _ | _⟩⟩ := pairs <;> try exact .fault Fault.misuse
      refine (valueVectorPush_agrees environment represented one two).bind ?_
      rintro ⟨index, after⟩ ⟨index', other⟩ ⟨same, places, given⟩
      exact .ok (.observed given (congrArg (fun index : Nat => Observation.number index) same))
  | valueHandleOpen =>
      obtain _ | _ := pairs <;> try exact .fault Fault.misuse
      exact valueHandleOpen_agrees represented
  | valueHandleGet token =>
      obtain _ | _ := pairs <;> try exact .fault Fault.misuse
      exact answers_value represented (represented.corresponds.valueHandleGet token)
  | valueHandleSet token =>
      obtain _ | ⟨one, _ | _⟩ := pairs <;> try exact .fault Fault.misuse
      exact (represented.corresponds.valueHandleSet token one).bind fun _ _ sets =>
        .ok (.observed (represented.setRoots sets) rfl)
  | valueHandleClose token =>
      obtain _ | _ := pairs <;> try exact .fault Fault.misuse
      exact (represented.corresponds.valueHandleClose token).bind fun _ _ sets =>
        .ok (.observed (represented.setRoots sets) rfl)
  | liveValueHandles =>
      obtain _ | _ := pairs <;> try exact .fault Fault.misuse
      refine .ok (.observed represented (congrArg (fun count : Nat => Observation.number count) ?_))
      exact represented.rooted.valueHandleCount
  | pushRoots root =>
      exact (represented.corresponds.pushRoots root pairs).bind fun _ _ sets =>
        .ok (.observed (represented.setRoots sets) rfl)
  | popRoots root =>
      obtain _ | _ := pairs <;> try exact .fault Fault.misuse
      exact popRoots_agrees represented root
  | registerPermanentRoots array => exact registerPermanentRoots_agrees represented array pairs
  | collect precise =>
      obtain _ | _ := pairs <;> try exact .fault Fault.misuse
      exact collectCall_agrees environment precise represented

/-! ## Programs -/

theorem step_agrees (environment : Environment) (instruction : Instruction)
    (represented : Represented heap ideal places) :
    Agrees Fault.memory
      (fun left right => left.1 = right.1 ∧ ∃ places, Represented left.2 right.2 places)
      (step environment instruction heap) (IdealHeap.step instruction ideal) := by
  rw [step, IdealHeap.step]
  refine (represented.corresponds.operands instruction.arguments).bind fun values data pairs => ?_
  refine (perform_agrees environment represented instruction.entry pairs).bind ?_
  rintro ⟨reply, after⟩ ⟨meaning, later⟩ ⟨seen, places, given, stands⟩
  dsimp only at seen given stands ⊢
  cases instruction.destination with
  | none => exact .ok ⟨seen, places, given⟩
  | some place =>
      exact (given.corresponds.store place stands).bind fun left right sets =>
        .ok ⟨seen, places, given.setRoots sets⟩

/-- The runtime before its first call represents the empty ideal heap. -/
theorem represented_empty : Represented {} {} fun _ => none where
  valid := {
    distinct := List.nodup_nil
    placed := fun _ member => absurd member List.not_mem_nil
    stored := fun _ member => absurd member List.not_mem_nil
    unmarked := fun _ member => absurd member List.not_mem_nil
    counted := rfl
    limited := Nat.zero_le _ }
  injective place _ := by cases place
  shown place := by cases place
  owned member := by cases member
  rooted := {
    roots := .nil
    permanentRoots := .nil
    valueHandles := .nil
    nextValueHandle := rfl
    valueHandleCount := rfl
    firstValue := ⟨rfl, by decide⟩
    secondValue := ⟨rfl, by decide⟩
    currentCount := rfl
    initialized := rfl }
  registered := {
    used := fun used => absurd used Bool.false_ne_true
    unused := fun _ => rfl }

/-- Whatever a program does, it sees what it would see on the ideal heap and ends in the same way,
unless memory runs out, and until then it has seen the same. -/
theorem run_agrees (environment : Environment) (program : List Instruction) :
    (run environment program {}).1 <+: (IdealHeap.run program {}).1 ∧
      ((run environment program {}).2 = .error .memory ∨
        (run environment program {}).1 = (IdealHeap.run program {}).1 ∧
          Agrees Fault.memory (fun heap ideal => ∃ places, Represented heap ideal places)
            (run environment program {}).2 (IdealHeap.run program {}).2) := by
  have steps : ∀ (instruction : Instruction) (heap : Heap) (ideal : IdealHeap),
      (∃ places, Represented heap ideal places) →
      Agrees Fault.memory
        (fun left right => left.1 = right.1 ∧ ∃ places, Represented left.2 right.2 places)
        (step environment instruction heap) (IdealHeap.step instruction ideal) := by
    rintro instruction heap ideal ⟨places, represented⟩
    exact step_agrees environment instruction represented
  exact Heaps.observe_agrees steps program {} {} ⟨_, represented_empty⟩

end Runtime
