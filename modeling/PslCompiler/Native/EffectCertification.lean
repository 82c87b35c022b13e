import PslCompiler.Native.Effects
import PslCompiler.Stage0.Effects

/-! # Exact certification of allocation effects

The sweeps of the native driver withdraw certificates until none changes, so that a certificate
remains exactly when no chain of calls reaches an uncertified signature. Closures that the compiler
generates start without a certificate and never get one; apart from them the native compiler and
Stage 0 certify the same functions and accept the same regions.
-/

namespace Native

open Flow

/-! ## One sweep -/

section Sweep

variable (bodies : Nat → Option HirArena) (signatures : Nat → CallSummary)

/-- The zero-based signatures that the calls in an arena name. -/
def HirArena.calledSignatures (arena : HirArena) : List Nat :=
  ((List.range' 1 arena.count).filter fun reference =>
    decide ((arena.nodes reference).kind = .call)).map fun reference =>
      (arena.nodes reference).target - 1

/-- What a function of the unit calls; an import has no body. -/
def calledBy (index : Nat) : List Nat :=
  if (signatures index).imported then []
  else ((bodies index).map HirArena.calledSignatures).getD []

/-- No signature is decided in advance: imports carry their declared effect as certificate. -/
def undecided (_index : Nat) : Option Bool := none

theorem passes_undecided (free : Nat → Bool) : passes undecided free = free :=
  rfl

variable {bodies signatures}

theorem calleesPass_iff {arena : HirArena} {index : Nat}
    (internal : (signatures index).imported = false) (body : bodies index = some arena)
    (free : Nat → Bool) :
    calleesPass (calledBy bodies signatures) undecided free index = true ↔
      hirFunctionUnsafeCall (withCertificates signatures free) arena 1 = 0 := by
  rw [hirFunctionUnsafeCall_eq_zero_iff]
  unfold calleesPass calledBy HirArena.calledSignatures
  rw [passes_undecided, internal, body]
  simp only [Bool.false_eq_true, ↓reduceIte, Option.map_some, Option.getD_some, List.all_map,
    List.all_eq_true, List.mem_filter, List.mem_range'_1, decide_eq_true_eq, Function.comp_apply]
  constructor
  · intro all reference from_ within isCall
    exact all reference ⟨⟨from_, by omega⟩, isCall⟩
  · rintro all reference ⟨⟨from_, within⟩, isCall⟩
    exact all reference from_ (by omega) isCall

theorem calledBy_withCertificates (free : Nat → Bool) :
    calledBy bodies (withCertificates signatures free) = calledBy bodies signatures :=
  rfl

end Sweep

section Certify

variable {bodies : Nat → Option HirArena} {count : Nat}

/-- The signatures that a pass visits from an index on. -/
abbrev visited (index remaining : Nat) : List Nat := List.range' index remaining

/-- Withdraw certificates among some signatures as one pass does. -/
def sweep (bodies : Nat → Option HirArena) (signatures : Nat → CallSummary) (items : List Nat)
    (free : Nat → Bool) : (Nat → Bool) × Bool :=
  withdraw id (calleesPass (calledBy bodies signatures) undecided) items free

/-- The state after the sweep of some signatures. -/
def EffectState.swept (bodies : Nat → Option HirArena) (state : EffectState) (items : List Nat) :
    EffectState :=
  { state with
    signatures := withCertificates state.signatures
      (sweep bodies state.signatures items (certificates state.signatures)).1
    effectsChanged := state.effectsChanged ||
      (sweep bodies state.signatures items (certificates state.signatures)).2 }

/-- A visit of the inference either fails or does what the sweep does at this signature. -/
theorem nativeInferFunctionEffect_cases (bodies : Nat → Option HirArena) (state : EffectState) :
    ((nativeInferFunctionEffect bodies state).2 = false ∧
      (nativeInferFunctionEffect bodies state).1 = { state with phase := 6 } ∧
      bodies state.index = none ∧ (state.signatures state.index).imported = false) ∨
    (nativeInferFunctionEffect bodies state).2 = true ∧
      (nativeInferFunctionEffect bodies state).1 = state.swept bodies [state.index] := by
  have unchanged (passing : certificates state.signatures state.index = false ∨
      calleesPass (calledBy bodies state.signatures) undecided (certificates state.signatures)
        state.index = true) :
      sweep bodies state.signatures [state.index] (certificates state.signatures) =
        (certificates state.signatures, false) := by
    unfold sweep withdraw withdraw
    rw [if_neg]
    rcases passing with uncertified | passing
    · rw [id, uncertified, Bool.false_and]
      exact Bool.false_ne_true
    · rw [passing, Bool.not_true, Bool.and_false]
      exact Bool.false_ne_true
  have same : { state with
      signatures := withCertificates state.signatures (certificates state.signatures)
      effectsChanged := state.effectsChanged || false } = state := by
    rw [Bool.or_false]
    rfl
  unfold nativeInferFunctionEffect nativeUnitFail EffectState.swept
  by_cases imported : (state.signatures state.index).imported = true
  · right
    rw [unchanged (.inr (by unfold calleesPass calledBy; rw [if_pos imported]; rfl)), same]
    simp only [imported, ↓reduceIte, and_self]
  · by_cases uncertified : (state.signatures state.index).allocationFree = false
    · right
      rw [unchanged (.inl uncertified), same]
      simp only [imported, uncertified, Bool.false_eq_true, ↓reduceIte, and_self]
    · cases body : bodies state.index with
      | none =>
          left
          simp only [imported, uncertified, Bool.false_eq_true, Bool.true_eq_false, ↓reduceIte,
            and_self]
      | some arena =>
          right
          have internal : (state.signatures state.index).imported = false :=
            Bool.eq_false_iff.mpr imported
          have exact_ := calleesPass_iff internal body (certificates state.signatures)
          rw [withCertificates_self] at exact_
          by_cases clean : hirFunctionUnsafeCall state.signatures arena 1 = 0
          · rw [unchanged (.inr (exact_.mpr clean)), same]
            simp only [imported, uncertified, clean, Bool.false_eq_true, Bool.true_eq_false,
              ↓reduceIte, and_self]
          · have fails := mt exact_.mp clean
            have withdrawn : sweep bodies state.signatures [state.index]
                (certificates state.signatures) =
                (Function.update (certificates state.signatures) state.index false, true) := by
              unfold sweep withdraw withdraw
              rw [if_pos]
              · rfl
              · rw [Bool.eq_false_iff.mpr fails, Bool.not_false, Bool.and_true]
                exact Bool.not_eq_false _ ▸ uncertified
            rw [withdrawn, ← update_eq_withCertificates]
            simp only [imported, uncertified, clean, Bool.false_eq_true, Bool.true_eq_false,
              ↓reduceIte, Bool.or_true, and_self]

theorem sweep_cons (signatures : Nat → CallSummary) (item : Nat) (rest : List Nat)
    (free : Nat → Bool) : sweep bodies signatures (item :: rest) free =
      ((sweep bodies signatures rest (sweep bodies signatures [item] free).1).1,
        (sweep bodies signatures [item] free).2 ||
          (sweep bodies signatures rest (sweep bodies signatures [item] free).1).2) := by
  unfold sweep
  simp only [withdraw]
  split
  · rfl
  · rw [Bool.false_or]

/-- The visits of a pass that has not failed are one sweep. -/
theorem visitSignatures_infer : ∀ (remaining : Nat) (state : EffectState),
    state.index + remaining = count → state.phase = 0 →
    (visitSignatures count (nativeInferFunctionEffect bodies) remaining state).phase = 0 →
    visitSignatures count (nativeInferFunctionEffect bodies) remaining state =
      { state.swept bodies (List.range' state.index remaining) with index := count } := by
  intro remaining
  induction remaining with
  | zero =>
      intro state ends _ _
      have same : state.index = count := ends
      unfold visitSignatures
      simp only [EffectState.swept, List.range'_zero, sweep, withdraw, Bool.or_false,
        withCertificates_self, ← same]
  | succ remaining ih =>
      intro state ends start finished
      have pending : nativeUnitPendingP state count = true :=
        decide_eq_true ⟨start, by omega⟩
      unfold visitSignatures at finished ⊢
      rw [if_pos pending] at finished ⊢
      rcases nativeInferFunctionEffect_cases bodies state with ⟨fails, after, -⟩ | ⟨works, after⟩
      · unfold nativeNextSignature at finished
        rw [fails, after] at finished
        cases remaining with
        | zero => cases finished
        | succ remaining =>
            unfold visitSignatures at finished
            rw [if_neg (by simp [nativeUnitPendingP])] at finished
            cases finished
      · unfold nativeNextSignature at finished ⊢
        rw [works, if_pos rfl] at finished ⊢
        rw [after] at finished ⊢
        have moved : state.index + 1 + remaining = count := by omega
        refine (ih { state.swept bodies [state.index] with index := state.index + 1 }
          moved start finished).trans ?_
        have split := @sweep_cons bodies state.signatures state.index
          (List.range' (state.index + 1) remaining) (certificates state.signatures)
        unfold EffectState.swept
        rw [List.range'_succ, split]
        simp only [certificates_withCertificates, Bool.or_assoc]
        rfl

/-- Every function of the table can be analyzed. -/
def Analyzable (bodies : Nat → Option HirArena) (count : Nat) (signatures : Nat → CallSummary) :
    Prop :=
  ∀ index < count, (signatures index).imported = false → (bodies index).isSome = true

/-- A pass whose analyses succeed does not fail. -/
theorem visitSignatures_infer_phase : ∀ (remaining : Nat) (state : EffectState),
    Analyzable bodies count state.signatures → state.phase = 0 →
      (visitSignatures count (nativeInferFunctionEffect bodies) remaining state).phase = 0 := by
  intro remaining
  induction remaining with
  | zero =>
      intro state _ start
      exact start
  | succ remaining ih =>
      intro state analyzable start
      unfold visitSignatures
      split
      · rename_i pending
        have within := (of_decide_eq_true pending).2
        rcases nativeInferFunctionEffect_cases bodies state with
          ⟨_, _, missing, internal⟩ | ⟨works, after⟩
        · have present := analyzable state.index within internal
          rw [missing] at present
          cases present
        · unfold nativeNextSignature
          rw [works, after]
          exact ih _ analyzable start
      · exact start

/-- A pass that has not failed is one sweep over the table. -/
theorem nativeInferEffectPass_eq {state : EffectState} (start : state.phase = 0)
    (finished : (nativeInferEffectPass bodies count state).phase = 0) :
    (nativeInferEffectPass bodies count state).signatures = withCertificates state.signatures
      (sweep bodies state.signatures (List.range' 0 count) (certificates state.signatures)).1 ∧
    (nativeInferEffectPass bodies count state).effectsChanged =
      (sweep bodies state.signatures (List.range' 0 count) (certificates state.signatures)).2 := by
  have pass := visitSignatures_infer count { state with index := 0, effectsChanged := false }
    (Nat.zero_add count) start finished
  unfold nativeInferEffectPass
  rw [pass]
  exact ⟨rfl, Bool.false_or _⟩

/-- The number of certificates in the table. -/
def certificateCount (count : Nat) (signatures : Nat → CallSummary) : Nat :=
  (List.range' 0 count).countP (certificates signatures)

/-- A pass that has changed something without failing leaves fewer certificates. -/
theorem certificateCount_lt {state : EffectState} (start : state.phase = 0)
    (finished : (nativeInferEffectPass bodies count state).phase = 0)
    (changed : (nativeInferEffectPass bodies count state).effectsChanged = true) :
    certificateCount count (nativeInferEffectPass bodies count state).signatures <
      certificateCount count state.signatures := by
  obtain ⟨table, flag⟩ := nativeInferEffectPass_eq start finished
  rw [flag] at changed
  rw [table]
  exact countP_lt_countP (fun _ => withdraw_le _ _) (withdraw_changed _ _ changed)

variable (bodies count)

/-- Passes until one fails or changes nothing. -/
def nativeInferEffects (state : EffectState) : EffectState :=
  if state.phase = 0 ∧ state.effectsChanged = true then
    let after := nativeInferEffectPass bodies count state
    if after.phase = 0 ∧ after.effectsChanged = true then nativeInferEffects after else after
  else state
termination_by certificateCount count state.signatures
decreasing_by
  rename_i running again
  exact certificateCount_lt running.1 again.1 again.2

/-- Certify the functions of a unit and check its regions; the answer says whether all passed. -/
def nativeCertifyEffects (state : EffectState) : EffectState × Bool :=
  let inferred := nativeInferEffects bodies count { state with effectsChanged := true }
  if inferred.phase = 0 then
    let checked := nativeCheckUnitRegions bodies count (nativeFinishEffects count inferred)
    (checked, decide (checked.phase = 0))
  else (inferred, false)

variable {bodies count}

/-- The passes leave the certificates that repeated sweeps leave. -/
theorem nativeInferEffects_eq {state : EffectState} (start : state.phase = 0)
    (running : state.effectsChanged = true)
    (analyzable : Analyzable bodies count state.signatures) :
    (nativeInferEffects bodies count state).phase = 0 ∧
      (nativeInferEffects bodies count state).signatures = withCertificates state.signatures
        (settle id (calleesPass (calledBy bodies state.signatures) undecided) (List.range' 0 count)
          (certificates state.signatures)) := by
  fun_induction nativeInferEffects bodies count state with
  | case1 state _ after again ih =>
      obtain ⟨table, flag⟩ := nativeInferEffectPass_eq start again.1
      have analyzableAfter : Analyzable bodies count after.signatures := by
        unfold after
        rw [table]
        exact analyzable
      obtain ⟨fine, same⟩ := ih again.1 again.2 analyzableAfter
      refine ⟨fine, same.trans ?_⟩
      rw [settle_of_changed (flag.symm.trans again.2)]
      unfold after
      rw [table]
      rfl
  | case2 state _ after stop =>
      have fine : after.phase = 0 := visitSignatures_infer_phase count
        { state with index := 0, effectsChanged := false } analyzable start
      obtain ⟨table, flag⟩ := nativeInferEffectPass_eq start fine
      have unchanged : after.effectsChanged = false :=
        Bool.eq_false_iff.mpr fun changed => stop ⟨fine, changed⟩
      refine ⟨fine, ?_⟩
      rw [settle_of_unchanged (flag.symm.trans unchanged)]
      exact table
  | case3 state idle => exact (idle ⟨start, running⟩).elim

/-- A visit of the region check passes on when the walk finds nothing, and else reports. -/
theorem nativeCheckFunctionRegions_cases {state : EffectState} (within : state.index < count)
    (analyzable : Analyzable bodies count state.signatures) :
    (nativeCheckFunctionRegions bodies state = (state, true) ∧
      ((state.signatures state.index).imported = false → ∀ arena, bodies state.index = some arena →
        hirRegionsUnsafeCall state.signatures arena 1 = 0)) ∨
    ∃ failed, nativeCheckFunctionRegions bodies state = (failed, false) ∧ failed.phase = 9 ∧
      failed.signatures = state.signatures ∧ (state.signatures state.index).imported = false ∧
      ∃ arena, bodies state.index = some arena ∧
        hirRegionsUnsafeCall state.signatures arena 1 ≠ 0 := by
  unfold nativeCheckFunctionRegions
  by_cases imported : (state.signatures state.index).imported = true
  · left
    refine ⟨if_pos imported, fun internal => ?_⟩
    rw [imported] at internal
    cases internal
  · have internal := Bool.eq_false_iff.mpr imported
    obtain ⟨arena, body⟩ := Option.isSome_iff_exists.mp (analyzable state.index within internal)
    rw [if_neg imported]
    simp only [body]
    by_cases clean : hirRegionsUnsafeCall state.signatures arena 1 = 0
    · left
      refine ⟨if_pos clean, fun _ other found => ?_⟩
      cases found
      exact clean
    · right
      rw [if_neg clean]
      exact ⟨_, rfl, rfl, rfl, internal, arena, rfl, clean⟩

/-- A failed check stays as it is. -/
theorem visitSignatures_failed {visit : EffectState → EffectState × Bool} {failed : EffectState}
    (phase : failed.phase ≠ 0) (remaining : Nat) :
    visitSignatures count visit remaining failed = failed := by
  cases remaining with
  | zero => rfl
  | succ remaining =>
      unfold visitSignatures
      exact if_neg fun pending => phase (of_decide_eq_true pending).1

/-- Checking the regions passes exactly when the walk finds nothing in any function. -/
theorem visitSignatures_regions : ∀ (remaining : Nat) (state : EffectState),
    state.index + remaining = count → Analyzable bodies count state.signatures → state.phase = 0 →
    ((visitSignatures count (nativeCheckFunctionRegions bodies) remaining state).phase = 0 ↔
      ∀ index, state.index ≤ index → index < count →
        (state.signatures index).imported = false → ∀ arena, bodies index = some arena →
        hirRegionsUnsafeCall state.signatures arena 1 = 0) ∧
    (visitSignatures count (nativeCheckFunctionRegions bodies) remaining state).signatures =
      state.signatures := by
  intro remaining
  induction remaining with
  | zero =>
      intro state ends _ start
      refine ⟨⟨fun _ index from_ within => ?_, fun _ => start⟩, rfl⟩
      omega
  | succ remaining ih =>
      intro state ends analyzable start
      have within : state.index < count := by omega
      have moved : state.index + 1 + remaining = count := by omega
      have pending : nativeUnitPendingP state count = true := decide_eq_true ⟨start, within⟩
      unfold visitSignatures
      rw [if_pos pending]
      rcases nativeCheckFunctionRegions_cases within analyzable with
        ⟨same, clean⟩ | ⟨failed, reports, phase, table, internal, arena, body, dirty⟩
      · have next := ih { state with index := state.index + 1 } moved analyzable start
        rw [same]
        exact ⟨next.1.trans (forall_from_succ_iff fun _ => clean), next.2⟩
      · rw [reports]
        unfold nativeNextSignature
        rw [if_neg Bool.false_ne_true, visitSignatures_failed (by rw [phase]; decide)]
        refine ⟨⟨fun zero => ?_, fun all => ?_⟩, table⟩
        · rw [phase] at zero
          cases zero
        · exact (dirty (all state.index le_rfl within internal arena body)).elim

end Certify

/-! ## Units -/

/-- A unit whose functions have been analyzed. Calls name signatures of the table, as HIR
verification checks, and never a generated closure, which has no name to resolve. A function
starts with a certificate unless it is a generated closure. -/
structure EffectUnit where
  count : Nat
  signatures : Nat → CallSummary
  bodies : Nat → Option HirArena
  analyzable : Analyzable bodies count signatures
  known : ∀ {index : Nat} {arena : HirArena}, bodies index = some arena → ∀ reference,
    (arena.nodes reference).kind = .call → (arena.nodes reference).target ≤ count ∧
      (signatures ((arena.nodes reference).target - 1)).generated = false
  started : ∀ index < count, (signatures index).imported = false →
    (signatures index).allocationFree = !(signatures index).generated

namespace EffectUnit

variable (unit : EffectUnit)

def outcome : EffectState × Bool :=
  nativeCertifyEffects unit.bodies unit.count { signatures := unit.signatures }

/-- The certificate of a signature in the end. -/
def certified (index : Nat) : Bool :=
  (unit.outcome.1.signatures index).allocationFree

def Accepted : Prop :=
  unit.outcome.2 = true

/-- A function of the unit contains a call. -/
def Calls (caller callee : Nat) : Prop :=
  caller < unit.count ∧ callee ∈ calledBy unit.bodies unit.signatures caller

/-- An import without the declaration that it does not allocate. -/
def MayAllocate (index : Nat) : Prop :=
  (unit.signatures index).imported = true ∧ (unit.signatures index).allocationFree = false

/-- A chain of calls leads from the function to an import that may allocate. -/
def ReachesAllocation : Nat → Prop :=
  Tainted unit.Calls unit.MayAllocate

/-- A node of the body of a function that is the root of a WITHOUT-ALLOCATION region. -/
def Region (index : Nat) (arena : HirArena) (reference : Nat) : Prop :=
  index < unit.count ∧ (unit.signatures index).imported = false ∧
    unit.bodies index = some arena ∧ 1 ≤ reference ∧ reference ≤ arena.count ∧
    (arena.nodes reference).allocationRegion ≠ 0

variable {unit}

theorem mem_calledBy {caller callee : Nat} :
    callee ∈ calledBy unit.bodies unit.signatures caller ↔
      (unit.signatures caller).imported = false ∧ ∃ arena, unit.bodies caller = some arena ∧
        ∃ reference, 1 ≤ reference ∧ reference ≤ arena.count ∧
          (arena.nodes reference).kind = .call ∧ (arena.nodes reference).target = callee + 1 := by
  unfold calledBy HirArena.calledSignatures
  cases (unit.signatures caller).imported with
  | true =>
      simp only [↓reduceIte, List.not_mem_nil, Bool.true_eq_false, false_and]
  | false =>
      cases unit.bodies caller with
      | none =>
          simp only [Bool.false_eq_true, ↓reduceIte, Option.map_none, Option.getD_none,
            List.not_mem_nil, reduceCtorEq, false_and, exists_false, and_false]
      | some arena =>
          simp only [Bool.false_eq_true, ↓reduceIte, Option.map_some, Option.getD_some,
            List.mem_map, List.mem_filter, List.mem_range'_1, decide_eq_true_eq,
            Option.some.injEq, exists_eq_left', true_and]
          constructor
          · rintro ⟨reference, ⟨⟨from_, within⟩, isCall⟩, named⟩
            have nonzero := arena.call_target reference isCall
            exact ⟨reference, from_, by omega, isCall, by omega⟩
          · rintro ⟨reference, from_, within, isCall, named⟩
            exact ⟨reference, ⟨⟨from_, by omega⟩, isCall⟩, by omega⟩

/-- A called signature is in the table and not a generated closure. -/
theorem Calls.known {caller callee : Nat} (calls : unit.Calls caller callee) :
    callee < unit.count ∧ (unit.signatures callee).generated = false := by
  obtain ⟨-, arena, body, reference, -, -, isCall, named⟩ := mem_calledBy.mp calls.2
  obtain ⟨within, named'⟩ := unit.known body reference isCall
  rw [named] at within named'
  exact ⟨within, named'⟩

/-- The signature table after inference, with its effects ready. -/
def finished (unit : EffectUnit) : EffectState :=
  nativeFinishEffects unit.count
    (nativeInferEffects unit.bodies unit.count
      { signatures := unit.signatures, effectsChanged := true })

theorem finished_eq : unit.finished.phase = 0 ∧
    (∀ index, (unit.finished.signatures index).imported = (unit.signatures index).imported) ∧
    (∀ index, (unit.finished.signatures index).allocationFree = settle id
      (calleesPass (calledBy unit.bodies unit.signatures) undecided) (List.range' 0 unit.count)
      (certificates unit.signatures) index) ∧
    ∀ index < unit.count, (unit.finished.signatures index).effectReady = true := by
  obtain ⟨fine, table⟩ := @nativeInferEffects_eq unit.bodies unit.count
    { signatures := unit.signatures, effectsChanged := true } rfl rfl unit.analyzable
  unfold finished nativeFinishEffects
  rw [table]
  refine ⟨fine, fun index => ?_, fun index => ?_, fun index within => ?_⟩
  · simp only
    split
    · rfl
    · rfl
  · simp only
    split
    · rfl
    · rfl
  · simp only [within, ↓reduceIte]

theorem outcome_eq :
    unit.outcome = (nativeCheckUnitRegions unit.bodies unit.count unit.finished,
      decide ((nativeCheckUnitRegions unit.bodies unit.count unit.finished).phase = 0)) := by
  have fine := (@finished_eq unit).1
  unfold finished nativeFinishEffects at fine
  unfold outcome nativeCertifyEffects
  exact if_pos fine

theorem analyzable_finished : Analyzable unit.bodies unit.count unit.finished.signatures := by
  intro index within internal
  rw [(@finished_eq unit).2.1] at internal
  exact unit.analyzable index within internal

theorem certified_eq : unit.certified = settle id
    (calleesPass (calledBy unit.bodies unit.signatures) undecided) (List.range' 0 unit.count)
    (certificates unit.signatures) := by
  funext index
  unfold certified
  rw [outcome_eq]
  unfold nativeCheckUnitRegions
  rw [(visitSignatures_regions unit.count { unit.finished with index := 0 }
    (Nat.zero_add unit.count) analyzable_finished (@finished_eq unit).1).2]
  exact (@finished_eq unit).2.2.1 index

/-- A unit is accepted exactly when the calls of every region are certified. -/
theorem accepted_iff : unit.Accepted ↔ ∀ index arena reference, unit.Region index arena reference →
    ∀ target, arena.CallsBelow reference target → unit.certified (target - 1) = true := by
  have check := (visitSignatures_regions unit.count { unit.finished with index := 0 }
    (Nat.zero_add unit.count) analyzable_finished (@finished_eq unit).1).1
  have free {index : Nat} {arena : HirArena} (body : unit.bodies index = some arena)
      {reference target : Nat} (below : arena.CallsBelow reference target) :
      hirCallAllocationFreeP unit.finished.signatures target true = unit.certified (target - 1) := by
    obtain ⟨node, -, isCall, named⟩ := below
    have within := (unit.known body node isCall).1
    have nonzero := arena.call_target node isCall
    rw [named] at within nonzero
    unfold hirCallAllocationFreeP
    rw [(@finished_eq unit).2.2.2 (target - 1) (by omega), (@finished_eq unit).2.2.1, certified_eq]
    simp only [↓reduceIte, Bool.if_false_right, Bool.and_true, Bool.decide_eq_true]
  unfold Accepted
  rw [outcome_eq]
  simp only [decide_eq_true_eq]
  apply check.trans
  constructor
  · rintro all index arena reference ⟨within, internal, body, from_, upTo, marked⟩ target below
    rw [← (@finished_eq unit).2.1] at internal
    have clean := (hirRegionsUnsafeCall_eq_zero_iff 1).mp
      (all index (Nat.zero_le index) within internal arena body) reference from_ upTo marked
    rw [← free body below]
    exact (hirRegionUnsafeCall_eq_zero_iff reference (by omega)).mp clean target below
  · intro all index _ within internal arena body
    rw [(@finished_eq unit).2.1] at internal
    apply (hirRegionsUnsafeCall_eq_zero_iff 1).mpr
    intro reference from_ upTo marked
    apply (hirRegionUnsafeCall_eq_zero_iff reference (by omega)).mpr
    intro target below
    rw [free body below]
    exact all index arena reference ⟨within, internal, body, from_, upTo, marked⟩ target below

/-- A chain of calls reaches a signature without a certificate from a generated closure, or when
it reaches an import that may allocate. -/
theorem tainted_iff {index : Nat} (within : index < unit.count) :
    Tainted unit.Calls (fun other => (unit.signatures other).allocationFree = false) index ↔
      (unit.signatures index).imported = false ∧ (unit.signatures index).generated = true ∨
      unit.ReachesAllocation index := by
  constructor
  · rintro ⟨other, chain, uncertified⟩
    by_cases imported : (unit.signatures other).imported = true
    · exact .inr ⟨other, chain, imported, uncertified⟩
    · left
      have internal := Bool.eq_false_iff.mpr imported
      rcases Relation.ReflTransGen.cases_tail chain with rfl | ⟨caller, -, call⟩
      · rw [unit.started _ within internal, Bool.not_eq_false'] at uncertified
        exact ⟨internal, uncertified⟩
      · rw [unit.started _ call.known.1 internal, call.known.2] at uncertified
        cases uncertified
  · rintro (⟨internal, generated⟩ | ⟨other, chain, imported, uncertified⟩)
    · refine .of_bad ?_
      rw [unit.started index within internal, generated]
      rfl
    · exact ⟨other, chain, uncertified⟩

/-- A certificate remains exactly when the function is not a generated closure and no chain of
calls from it reaches an import that may allocate. -/
theorem certified_iff {index : Nat} (within : index < unit.count) :
    unit.certified index = true ↔
      ¬((unit.signatures index).imported = false ∧ (unit.signatures index).generated = true) ∧
        ¬unit.ReachesAllocation index := by
  have calls : ItemCalls id (calledBy unit.bodies unit.signatures) undecided
      (List.range' 0 unit.count) = unit.Calls := by
    funext caller callee
    apply propext
    constructor
    · rintro ⟨-, item, member, rfl, called⟩
      have inside := List.mem_range'_1.mp member
      rw [Nat.zero_add] at inside
      exact ⟨inside.2, called⟩
    · rintro ⟨inside, called⟩
      exact ⟨rfl, caller, List.mem_range'_1.mpr ⟨Nat.zero_le _, by omega⟩, rfl, called⟩
  have exact_ := @settle_passes_iff Nat Nat _ id (calledBy unit.bodies unit.signatures) undecided
    (List.range' 0 unit.count) (certificates unit.signatures) index
  rw [calls, passes_undecided, ← certified_eq] at exact_
  rw [exact_, ← not_or, ← tainted_iff within]
  rfl

/-- Calls are certified exactly when they cannot reach an import that may allocate. -/
theorem certified_iff_of_known {index : Nat} (within : index < unit.count)
    (named : (unit.signatures index).generated = false) :
    unit.certified index = true ↔ ¬unit.ReachesAllocation index := by
  rw [certified_iff within, named]
  simp only [Bool.false_eq_true, and_false, not_false_eq_true, true_and]

/-- The calls that run in a region of an accepted unit cannot reach an import that may allocate. -/
theorem Accepted.region_calls (accepted : unit.Accepted) {index reference node : Nat}
    {arena : HirArena} (region : unit.Region index arena reference)
    (runs : Relation.ReflTransGen arena.Lowers reference node)
    (isCall : (arena.nodes node).kind = .call) :
    ¬unit.ReachesAllocation ((arena.nodes node).target - 1) := by
  obtain ⟨within, named⟩ := unit.known region.2.2.1 node isCall
  have nonzero := arena.call_target node isCall
  rw [← certified_iff_of_known (by omega) named]
  have linked : Relation.ReflTransGen arena.Linked reference node :=
    runs.lift id fun _ _ => HirArena.Lowers.linked
  exact accepted_iff.mp accepted index arena reference region _ ⟨node, linked, isCall, rfl⟩

end EffectUnit

/-! ## Agreement with Stage 0 -/

/-- Two analyzed forms of one unit: the same signatures under the same names, the same calls in
each function, and regions with the same calls. -/
structure Corresponds (unit : Stage0.AnalyzedUnit) (native : EffectUnit) (name : Nat → String) :
    Prop where
  distinct : ∀ index < native.count, ∀ other < native.count, name index = name other →
    index = other
  imports : ∀ index < native.count, (native.signatures index).imported = true →
    ∃ signature, unit.signatures (name index) = some signature ∧ signature.externalP = true ∧
      (signature.effect = .none ↔ (native.signatures index).allocationFree = true)
  functions : ∀ index < native.count, (native.signatures index).imported = false →
    ∃ function ∈ unit.functions, function.signature.name = name index
  defined : ∀ function ∈ unit.functions, ∃ index < native.count,
    (native.signatures index).imported = false ∧ name index = function.signature.name
  calls : ∀ index < native.count, (native.signatures index).imported = false → ∀ callee,
    unit.Calls (name index) callee ↔ ∃ other, native.Calls index other ∧ name other = callee
  region : ∀ region ∈ unit.allocationRegions, ∃ index arena reference,
    native.Region index arena reference ∧ ∀ callee, callee ∈ region.callNames ↔
      ∃ target, arena.CallsBelow reference target ∧ name (target - 1) = callee
  nativeRegion : ∀ index arena reference, native.Region index arena reference →
    ∃ region ∈ unit.allocationRegions, ∀ callee, callee ∈ region.callNames ↔
      ∃ target, arena.CallsBelow reference target ∧ name (target - 1) = callee

namespace Corresponds

variable {unit : Stage0.AnalyzedUnit} {native : EffectUnit} {name : Nat → String}

/-- An import does not occur among the functions of the unit. -/
theorem internal_of_named (same : Corresponds unit native name) {index : Nat}
    (within : index < native.count) {function : Stage0.FunctionDef}
    (member : function ∈ unit.functions) (named : function.signature.name = name index) :
    (native.signatures index).imported = false := by
  by_contra imported
  obtain ⟨signature, found, external, -⟩ :=
    same.imports index within (Bool.not_eq_false _ ▸ imported)
  rw [← named, unit.registered function member] at found
  cases found
  rw [unit.internal function member] at external
  cases external

theorem mayAllocate_iff (same : Corresponds unit native name) {index : Nat}
    (within : index < native.count) :
    unit.MayAllocate (name index) ↔ native.MayAllocate index := by
  unfold Stage0.AnalyzedUnit.MayAllocate EffectUnit.MayAllocate
  by_cases imported : (native.signatures index).imported = true
  · obtain ⟨signature, found, external, effect⟩ := same.imports index within imported
    rw [found]
    constructor
    · rintro (⟨_, ⟨⟩, -, allocates⟩ | ⟨inside, -⟩)
      · exact ⟨imported, Bool.eq_false_iff.mpr fun free => allocates (effect.mpr free)⟩
      · rw [inside signature rfl] at external
        cases external
    · rintro ⟨-, uncertified⟩
      refine .inl ⟨signature, rfl, external, fun free => ?_⟩
      rw [effect.mp free] at uncertified
      cases uncertified
  · obtain ⟨function, member, named⟩ :=
      same.functions index within (Bool.eq_false_iff.mpr imported)
    constructor
    · rintro (⟨signature, found, external, -⟩ | ⟨-, absent⟩)
      · rw [← named, unit.registered function member] at found
        cases found
        rw [unit.internal function member] at external
        cases external
      · exact (absent function member named).elim
    · rintro ⟨isImport, -⟩
      exact (imported isImport).elim

theorem chain_iff (same : Corresponds unit native name) {index : Nat}
    (within : index < native.count) :
    unit.ReachesAllocation (name index) ↔ native.ReachesAllocation index := by
  constructor
  · rintro ⟨last, chain, allocates⟩
    have reached : ∃ other < native.count, name other = last ∧
        Relation.ReflTransGen native.Calls index other := by
      clear allocates
      induction chain with
      | refl => exact ⟨index, within, rfl, .refl⟩
      | tail _ call ih =>
          obtain ⟨other, inside, rfl, path⟩ := ih
          have internal : (native.signatures other).imported = false := by
            obtain ⟨function, member, named, -⟩ := call
            exact same.internal_of_named inside member named
          obtain ⟨next, calls, rfl⟩ := (same.calls other inside internal _).mp call
          exact ⟨next, calls.known.1, rfl, path.tail calls⟩
    obtain ⟨other, inside, rfl, path⟩ := reached
    exact ⟨other, path, (same.mayAllocate_iff inside).mp allocates⟩
  · rintro ⟨last, chain, allocates⟩
    have reached : last < native.count ∧
        Relation.ReflTransGen unit.Calls (name index) (name last) := by
      clear allocates
      induction chain with
      | refl => exact ⟨within, .refl⟩
      | tail _ call ih =>
          have internal := (EffectUnit.mem_calledBy.mp call.2).1
          exact ⟨call.known.1, ih.2.tail ((same.calls _ ih.1 internal _).mpr ⟨_, call, rfl⟩)⟩
    exact ⟨name last, reached.2, (same.mayAllocate_iff reached.1).mpr allocates⟩

theorem accepted_iff (same : Corresponds unit native name) : unit.Accepted ↔ native.Accepted := by
  have region_iff {region : Stage0.Hir} {index reference : Nat} {arena : HirArena}
      (isRegion : native.Region index arena reference)
      (alike : ∀ callee, callee ∈ region.callNames ↔
        ∃ target, arena.CallsBelow reference target ∧ name (target - 1) = callee) :
      (∀ callee ∈ region.callNames, ¬unit.ReachesAllocation callee) ↔
        ∀ target, arena.CallsBelow reference target → native.certified (target - 1) = true := by
    have each {target : Nat} (below : arena.CallsBelow reference target) :
        ¬unit.ReachesAllocation (name (target - 1)) ↔ native.certified (target - 1) = true := by
      obtain ⟨node, -, isCall, rfl⟩ := below
      obtain ⟨within, named⟩ := native.known isRegion.2.2.1 node isCall
      have nonzero := arena.call_target node isCall
      rw [EffectUnit.certified_iff_of_known (by omega) named, same.chain_iff (by omega)]
    constructor
    · intro clean target below
      exact (each below).mp (clean _ ((alike _).mpr ⟨target, below, rfl⟩))
    · intro clean callee called
      obtain ⟨target, below, rfl⟩ := (alike callee).mp called
      exact (each below).mpr (clean target below)
  rw [Stage0.AnalyzedUnit.accepted_iff, EffectUnit.accepted_iff]
  constructor
  · intro clean index arena reference isRegion
    obtain ⟨region, member, alike⟩ := same.nativeRegion index arena reference isRegion
    exact (region_iff isRegion alike).mp (clean region member)
  · intro clean region member
    obtain ⟨index, arena, reference, isRegion, alike⟩ := same.region region member
    exact (region_iff isRegion alike).mpr (clean index arena reference isRegion)

end Corresponds

/-- Both compilers certify exactly the functions that no chain of calls leads to an allocation,
except that the native compiler certifies no generated closure; what runs in an accepted region
cannot reach an allocation; and corresponding units get the same certificates and answers. -/
theorem allocation_certification :
    (∀ unit : Stage0.AnalyzedUnit,
      (∀ function ∈ unit.functions, unit.safeFunctions function.signature.name = true ↔
        ¬unit.ReachesAllocation function.signature.name) ∧
      (unit.Accepted → ∀ region ∈ unit.allocationRegions, ∀ (Value World : Type)
        (meaning : Interpretation Stage0.Operation Value World) (fuel : Nat)
        (environment : List (String × Value))
        (before : Surroundings Stage0.Operation Value World),
        ∃ events, (Stage0.evaluate meaning fuel environment region before).surroundings.trace =
            before.trace ++ events ∧
          ∀ event ∈ events, ∀ callee, event.1.code = .call callee →
            ¬unit.ReachesAllocation callee)) ∧
    (∀ native : EffectUnit,
      (∀ index < native.count, (native.signatures index).imported = false →
        (native.certified index = true ↔ (native.signatures index).generated = false ∧
          ¬native.ReachesAllocation index)) ∧
      (native.Accepted → ∀ index arena reference, native.Region index arena reference →
        ∀ node, Relation.ReflTransGen arena.Lowers reference node →
          (arena.nodes node).kind = .call →
          ¬native.ReachesAllocation ((arena.nodes node).target - 1))) ∧
    ∀ (unit : Stage0.AnalyzedUnit) (native : EffectUnit) (name : Nat → String),
      Corresponds unit native name →
      (∀ index < native.count, (native.signatures index).imported = false →
        (native.signatures index).generated = false →
        (unit.safeFunctions (name index) = true ↔ native.certified index = true)) ∧
      (unit.Accepted ↔ native.Accepted) := by
  refine ⟨fun unit => ⟨?_, ?_⟩, fun native => ⟨?_, ?_⟩, fun unit native name same => ⟨?_, ?_⟩⟩
  · intro function member
    exact Stage0.AnalyzedUnit.safeFunctions_iff member
  · intro accepted region member Value World meaning fuel environment before
    exact accepted.region_performs member meaning fuel environment before
  · intro index within internal
    rw [EffectUnit.certified_iff within, internal]
    simp only [true_and, Bool.not_eq_true]
  · intro accepted index arena reference region node runs isCall
    exact accepted.region_calls region runs isCall
  · intro index within internal named
    obtain ⟨function, member, sameName⟩ := same.functions index within internal
    rw [EffectUnit.certified_iff_of_known within named, ← same.chain_iff within, ← sameName]
    exact Stage0.AnalyzedUnit.safeFunctions_iff member
  · exact same.accepted_iff

/-! ## A generated closure and a certified import -/

/-- An arena with one node, which links to no other. -/
def singleNode (node : HirNode) (left : node.left = 0) (right : node.right = 0)
    (target : node.kind ≠ .conditional) (call : node.kind = .call → node.target ≠ 0) : HirArena where
  nodes reference := if reference = 1 then node else {}
  count := 1
  left_before reference nonzero := by
    split at nonzero
    · exact (nonzero left).elim
    · exact (nonzero rfl).elim
  right_before reference nonzero := by
    split at nonzero
    · exact (nonzero right).elim
    · exact (nonzero rfl).elim
  target_before reference conditional := by
    split at conditional
    · exact (target conditional).elim
    · cases conditional
  call_target reference isCall := by
    split at isCall
    · rename_i first
      rw [if_pos first]
      exact call isCall
    · cases isCall

/-- A closure that returns its argument, as Stage 0 generates it. -/
def closureUnit : Stage0.AnalyzedUnit where
  functions := [⟨⟨"psl_lambda_0", [.value, .value], .value, false, .unknown, true⟩,
    [("environment", .value), ("x", .value)], .node (.variable "x") .value [] []⟩]
  signatures name :=
    if name = "psl_lambda_0" then
      some ⟨"psl_lambda_0", [.value, .value], .value, false, .unknown, true⟩
    else none
  allocationRegions := []
  registered := by
    intro function member
    rw [List.mem_singleton.mp member]
    rfl
  internal := by
    intro function member
    rw [List.mem_singleton.mp member]

/-- The same closure in the native signature table. -/
def closureTable : EffectUnit where
  count := 1
  signatures _ := { generated := true }
  bodies _ := some (singleNode { kind := .parameter, value := 2 } rfl rfl (by decide) (by decide))
  analyzable _ _ _ := rfl
  known := by
    rintro _ _ ⟨⟩ reference isCall
    unfold singleNode at isCall
    simp only at isCall
    split at isCall
    · cases isCall
    · cases isCall
  started _ _ _ := rfl

/-- Stage 0 certifies a closure whose native counterpart stays uncertified, although no call of
either can allocate. -/
theorem closure_certified_differently :
    Corresponds closureUnit closureTable (fun _ => "psl_lambda_0") ∧
      ¬closureTable.ReachesAllocation 0 ∧
      closureUnit.safeFunctions "psl_lambda_0" = true ∧ closureTable.certified 0 = false := by
  have calls : ∀ caller callee, ¬closureUnit.Calls caller callee := by
    rintro caller callee ⟨function, member, -, called⟩
    rw [List.mem_singleton.mp member] at called
    exact List.not_mem_nil called
  have nativeCalls : ∀ caller callee, ¬closureTable.Calls caller callee := by
    rintro caller callee calls
    obtain ⟨-, arena, ⟨⟩, reference, -, -, isCall, -⟩ := EffectUnit.mem_calledBy.mp calls.2
    unfold singleNode at isCall
    simp only at isCall
    split at isCall
    · cases isCall
    · cases isCall
  have same : Corresponds closureUnit closureTable (fun _ => "psl_lambda_0") :=
    { distinct := fun index within other also _ => by
        have first : index < 1 := within
        have second : other < 1 := also
        omega
      imports := fun _ _ imported => by cases imported
      functions := fun _ _ _ => ⟨_, List.mem_singleton.mpr rfl, rfl⟩
      defined := fun function member => by
        rw [List.mem_singleton.mp member]
        exact ⟨0, Nat.zero_lt_one, rfl, rfl⟩
      calls := fun index _ _ callee =>
        ⟨fun call => (calls _ _ call).elim, fun ⟨other, call, _⟩ => (nativeCalls _ _ call).elim⟩
      region := fun region member => (List.not_mem_nil member).elim
      nativeRegion := by
        rintro index arena reference ⟨-, -, ⟨⟩, -, -, marked⟩
        unfold singleNode at marked
        simp only at marked
        split at marked
        · exact (marked rfl).elim
        · exact (marked rfl).elim }
  have clean : ¬closureTable.ReachesAllocation 0 := by
    rintro ⟨other, -, imported, -⟩
    cases imported
  refine ⟨same, clean, ?_, ?_⟩
  · have certified := @Stage0.AnalyzedUnit.safeFunctions_iff closureUnit _
      (List.mem_singleton.mpr rfl)
    exact certified.mpr ((same.chain_iff Nat.zero_lt_one).not.mpr clean)
  · rw [← Bool.not_eq_true, EffectUnit.certified_iff Nat.zero_lt_one]
    exact fun certified => certified.1 ⟨rfl, rfl⟩

end Native
