import PslCompiler.Flow.Certification
import PslCompiler.Native.Syntax
import Mathlib.Data.List.Range

/-! # Allocation effects in the native compiler

The driver infers which functions of a unit cannot allocate by sweeps over the signature table and
then checks every WITHOUT-ALLOCATION region. The HIR of a function is rebuilt for each check; here
`bodies` is what `analyze_verified_scalar_function` builds for a signature, and `none` when it
fails. The `depth` arguments are passed down and never read.
-/

namespace Native

open Flow

/-! ## HIR arenas -/

structure HirNode extends ScalarOp where
  typeCode : Nat := 0
  allocationRegion : Nat := 0
  deriving DecidableEq, Repr, Inhabited

/-- An arena of HIR nodes. References point only to earlier nodes; the target of a conditional is
a reference, and the target of a call names a signature. -/
structure HirArena where
  nodes : Nat → HirNode
  count : Nat
  left_before : ∀ reference, (nodes reference).left ≠ 0 → (nodes reference).left < reference
  right_before : ∀ reference, (nodes reference).right ≠ 0 → (nodes reference).right < reference
  target_before : ∀ reference, (nodes reference).kind = .conditional →
    (nodes reference).target ≠ 0 → (nodes reference).target < reference
  call_target : ∀ reference, (nodes reference).kind = .call → (nodes reference).target ≠ 0

/-- What the effect passes read and write of a signature. -/
structure CallSummary where
  name : Nat := 0
  imported : Bool := false
  generated : Bool := false
  allocationFree : Bool := false
  effectReady : Bool := false
  deriving DecidableEq, Repr, Inhabited

/-! ## Unsafe calls -/

section UnsafeCalls

variable (signatures : Nat → CallSummary)

def hirCallAllocationFreeP (target : Nat) (requireReady : Bool) : Bool :=
  if (signatures (target - 1)).allocationFree then
    if requireReady then (signatures (target - 1)).effectReady else true
  else false

variable (arena : HirArena)

def hirFunctionUnsafeCall (index : Nat) : Nat :=
  if arena.count < index then 0
  else if (arena.nodes index).kind = .call then
    if hirCallAllocationFreeP signatures (arena.nodes index).target false = false then
      (arena.nodes index).target
    else hirFunctionUnsafeCall (index + 1)
  else hirFunctionUnsafeCall (index + 1)
termination_by arena.count + 1 - index

mutual

def hirRegionUnsafeCall (reference : Nat) : Nat :=
  if zero : reference = 0 then 0
  else if (arena.nodes reference).kind = .call then
    if hirCallAllocationFreeP signatures (arena.nodes reference).target true = false then
      (arena.nodes reference).target
    else hirRegionChildrenUnsafeCall reference (Nat.pos_of_ne_zero zero)
  else hirRegionChildrenUnsafeCall reference (Nat.pos_of_ne_zero zero)
termination_by 2 * reference + 1

/-- The children of a node: its left and right links, and the target of a conditional. -/
def hirRegionChildrenUnsafeCall (reference : Nat) (_positive : 0 < reference) : Nat :=
  let left := hirRegionUnsafeCall (arena.nodes reference).left
  if left = 0 then
    let right := hirRegionUnsafeCall (arena.nodes reference).right
    if right = 0 then
      if (arena.nodes reference).kind = .conditional then
        hirRegionUnsafeCall (arena.nodes reference).target
      else 0
    else right
  else left
termination_by 2 * reference
decreasing_by
  · have before := arena.left_before reference
    omega
  · have before := arena.right_before reference
    omega
  · have before := arena.target_before reference ‹_›
    omega

end

def hirRegionsUnsafeCall (index : Nat) : Nat :=
  if arena.count < index then 0
  else if (arena.nodes index).allocationRegion = 0 then hirRegionsUnsafeCall (index + 1)
  else
    let found := hirRegionUnsafeCall signatures arena index
    if found = 0 then hirRegionsUnsafeCall (index + 1) else found
termination_by arena.count + 1 - index

end UnsafeCalls

/-! ## Inference -/

/-- The signature table with the flag of the running pass, and the driver's unit result. -/
structure EffectState where
  signatures : Nat → CallSummary
  effectsChanged : Bool := false
  phase : Nat := 0
  index : Nat := 0
  form : Nat := 0

def nativeUnitFail (state : EffectState) (phase : Nat) : EffectState × Bool :=
  ({ state with phase }, false)

def nativeUnitPendingP (state : EffectState) (count : Nat) : Bool :=
  decide (state.phase = 0 ∧ state.index < count)

/-- Go to the next signature after a success; a failure has set the phase. -/
def nativeNextSignature (outcome : EffectState × Bool) : EffectState :=
  if outcome.2 then { outcome.1 with index := outcome.1.index + 1 } else outcome.1

section Certify

variable (bodies : Nat → Option HirArena)

def nativeInferFunctionEffect (state : EffectState) : EffectState × Bool :=
  let signature := state.signatures state.index
  if signature.imported then (state, true)
  else if signature.allocationFree = false then (state, true)
  else
    match bodies state.index with
    | none => nativeUnitFail state 6
    | some arena =>
        if hirFunctionUnsafeCall state.signatures arena 1 = 0 then (state, true)
        else
          ({ state with
              effectsChanged := true
              signatures := Function.update state.signatures state.index
                { signature with allocationFree := false } }, true)

def nativeReportUnsafeCall (state : EffectState) (callee : Nat) : EffectState × Bool :=
  let signature := state.signatures (callee - 1)
  nativeUnitFail
    { state with
      form := signature.name
      index := if signature.name = 0 then callee - 1 else state.index } 9

def nativeCheckFunctionRegions (state : EffectState) : EffectState × Bool :=
  if (state.signatures state.index).imported then (state, true)
  else
    match bodies state.index with
    | none => nativeUnitFail state 6
    | some arena =>
        let callee := hirRegionsUnsafeCall state.signatures arena 1
        if callee = 0 then (state, true) else nativeReportUnsafeCall state callee

variable (count : Nat)

/-- The loop of the passes: visit each signature from the current index on. -/
def visitSignatures (visit : EffectState → EffectState × Bool) : Nat → EffectState → EffectState
  | 0, state => state
  | remaining + 1, state =>
      if nativeUnitPendingP state count then
        visitSignatures visit remaining (nativeNextSignature (visit state))
      else state

def nativeInferEffectPass (state : EffectState) : EffectState :=
  visitSignatures count (nativeInferFunctionEffect bodies) count
    { state with index := 0, effectsChanged := false }

def nativeCheckUnitRegions (state : EffectState) : EffectState :=
  visitSignatures count (nativeCheckFunctionRegions bodies) count { state with index := 0 }

def nativeFinishEffects (state : EffectState) : EffectState :=
  { state with signatures := fun index =>
      if index < count then { state.signatures index with effectReady := true }
      else state.signatures index }

end Certify

/-! ## Tables that differ in their certificates -/

def certificates (signatures : Nat → CallSummary) (index : Nat) : Bool :=
  (signatures index).allocationFree

def withCertificates (signatures : Nat → CallSummary) (free : Nat → Bool) (index : Nat) :
    CallSummary :=
  { signatures index with allocationFree := free index }

section Certificates

variable (signatures : Nat → CallSummary)

theorem withCertificates_self : withCertificates signatures (certificates signatures) = signatures :=
  rfl

theorem certificates_withCertificates (free : Nat → Bool) :
    certificates (withCertificates signatures free) = free :=
  rfl

theorem update_eq_withCertificates (index : Nat) :
    Function.update signatures index { signatures index with allocationFree := false } =
      withCertificates signatures (Function.update (certificates signatures) index false) := by
  funext other
  unfold withCertificates
  by_cases same : other = index
  · subst same
    rw [Function.update_self, Function.update_self]
  · rw [Function.update_of_ne same, Function.update_of_ne same]
    rfl

end Certificates

/-! ## What the scans find -/

section Scans

variable {signatures : Nat → CallSummary} {arena : HirArena}

/-- A scan that has passed one index holds from there on exactly when it holds from the next. -/
theorem forall_from_succ_iff {property : Nat → Prop} {index : Nat} (here : property index) :
    (∀ reference, index + 1 ≤ reference → property reference) ↔
      ∀ reference, index ≤ reference → property reference := by
  constructor
  · intro later reference from_
    rcases Nat.eq_or_lt_of_le from_ with rfl | beyond
    · exact here
    · exact later reference beyond
  · intro all reference from_
    exact all reference (Nat.le_of_succ_le from_)

/-- The scan of a function finds nothing exactly when every call in the arena is certified. -/
theorem hirFunctionUnsafeCall_eq_zero_iff (index : Nat) :
    hirFunctionUnsafeCall signatures arena index = 0 ↔ ∀ reference, index ≤ reference →
      reference ≤ arena.count → (arena.nodes reference).kind = .call →
      certificates signatures ((arena.nodes reference).target - 1) = true := by
  fun_induction hirFunctionUnsafeCall signatures arena index with
  | case1 index ended =>
      refine ⟨fun _ reference from_ within => ?_, fun _ => rfl⟩
      omega
  | case2 index within isCall uncertified =>
      constructor
      · intro zero
        exact (arena.call_target index isCall zero).elim
      · intro all
        have certified := all index le_rfl (Nat.le_of_not_lt within) isCall
        unfold certificates at certified
        unfold hirCallAllocationFreeP at uncertified
        simp only [certified, ↓reduceIte, Bool.false_eq_true] at uncertified
        cases uncertified
  | case3 index within isCall certified ih =>
      apply ih.trans
      apply forall_from_succ_iff
      intro _ _
      unfold hirCallAllocationFreeP at certified
      unfold certificates
      by_contra refused
      simp only [refused, ↓reduceIte, not_true_eq_false] at certified
  | case4 index within other ih =>
      exact ih.trans (forall_from_succ_iff fun _ isCall => (other isCall).elim)

/-- A link that the walk through a region follows. -/
def HirArena.Linked (arena : HirArena) (parent child : Nat) : Prop :=
  child ≠ 0 ∧ (child = (arena.nodes parent).left ∨ child = (arena.nodes parent).right ∨
    (arena.nodes parent).kind = .conditional ∧ child = (arena.nodes parent).target)

/-- The nodes that lowering visits from a node, those whose code runs when the node is evaluated.
The links of an argument list are visited like nodes. -/
def HirArena.Lowers (arena : HirArena) (parent child : Nat) : Prop :=
  child ≠ 0 ∧
    match (arena.nodes parent).kind with
    | .conditional => child = (arena.nodes parent).left ∨ child = (arena.nodes parent).right ∨
        child = (arena.nodes parent).target
    | .localRead => False
    | .call | .localBinding => child = (arena.nodes parent).left
    | _ => child = (arena.nodes parent).left ∨ child = (arena.nodes parent).right

/-- The walk through a region follows every link that lowering does. -/
theorem HirArena.Lowers.linked {parent child : Nat} (lowers : arena.Lowers parent child) :
    arena.Linked parent child := by
  obtain ⟨nonzero, link⟩ := lowers
  refine ⟨nonzero, ?_⟩
  cases kind : (arena.nodes parent).kind with
  | conditional =>
      rw [kind] at link
      rcases link with left | right | target
      · exact .inl left
      · exact .inr (.inl right)
      · exact .inr (.inr ⟨rfl, target⟩)
  | localRead =>
      rw [kind] at link
      exact link.elim
  | call | localBinding =>
      rw [kind] at link
      exact .inl link
  | _ =>
      rw [kind] at link
      rcases link with left | right
      · exact .inl left
      · exact .inr (.inl right)

/-- A call to a signature below a node. -/
def HirArena.CallsBelow (arena : HirArena) (reference target : Nat) : Prop :=
  ∃ node, Relation.ReflTransGen arena.Linked reference node ∧
    (arena.nodes node).kind = .call ∧ (arena.nodes node).target = target

/-- The calls below a node are its own and those below the nodes it links to. -/
theorem HirArena.callsBelow_iff {reference target : Nat} :
    arena.CallsBelow reference target ↔
      (arena.nodes reference).kind = .call ∧ (arena.nodes reference).target = target ∨
      ∃ child, arena.Linked reference child ∧ arena.CallsBelow child target := by
  constructor
  · rintro ⟨node, path, isCall, named⟩
    rcases Relation.ReflTransGen.cases_head path with rfl | ⟨child, link, rest⟩
    · exact .inl ⟨isCall, named⟩
    · exact .inr ⟨child, link, node, rest, isCall, named⟩
  · rintro (⟨isCall, named⟩ | ⟨child, link, node, path, isCall, named⟩)
    · exact ⟨reference, .refl, isCall, named⟩
    · exact ⟨node, .head link path, isCall, named⟩

/-- The calls below the nodes that a node links to are all certified and ready. -/
theorem hirRegionChildrenUnsafeCall_eq_zero_iff {reference : Nat} (positive : 0 < reference) :
    hirRegionChildrenUnsafeCall signatures arena reference positive = 0 ↔
      ∀ child, arena.Linked reference child → hirRegionUnsafeCall signatures arena child = 0 := by
  have none : hirRegionUnsafeCall signatures arena 0 = 0 := by
    rw [hirRegionUnsafeCall, dif_pos rfl]
  have parts : hirRegionChildrenUnsafeCall signatures arena reference positive = 0 ↔
      hirRegionUnsafeCall signatures arena (arena.nodes reference).left = 0 ∧
      hirRegionUnsafeCall signatures arena (arena.nodes reference).right = 0 ∧
      ((arena.nodes reference).kind = .conditional →
        hirRegionUnsafeCall signatures arena (arena.nodes reference).target = 0) := by
    rw [hirRegionChildrenUnsafeCall]
    by_cases left : hirRegionUnsafeCall signatures arena (arena.nodes reference).left = 0
    · by_cases right : hirRegionUnsafeCall signatures arena (arena.nodes reference).right = 0
      · by_cases conditional : (arena.nodes reference).kind = .conditional
        · simp only [left, right, conditional, ↓reduceIte, true_and, forall_const]
        · simp only [left, right, conditional, ↓reduceIte, true_and, false_implies]
      · simp only [left, right, ↓reduceIte, false_and, and_false]
    · simp only [left, ↓reduceIte, false_and]
  rw [parts]
  constructor
  · rintro ⟨left, right, target⟩ child ⟨_, rfl | rfl | ⟨conditional, rfl⟩⟩
    · exact left
    · exact right
    · exact target conditional
  · intro all
    have reached {child : Nat} (isLink : child ≠ 0 → arena.Linked reference child) :
        hirRegionUnsafeCall signatures arena child = 0 := by
      by_cases zero : child = 0
      · rw [zero, none]
      · exact all child (isLink zero)
    refine ⟨reached fun nonzero => ⟨nonzero, .inl rfl⟩,
      reached fun nonzero => ⟨nonzero, .inr (.inl rfl)⟩, fun conditional => ?_⟩
    exact reached fun nonzero => ⟨nonzero, .inr (.inr ⟨conditional, rfl⟩)⟩

/-- The walk through a region finds nothing exactly when every call below is certified. -/
theorem hirRegionUnsafeCall_eq_zero_iff (reference : Nat) (positive : reference ≠ 0) :
    hirRegionUnsafeCall signatures arena reference = 0 ↔ ∀ target,
      arena.CallsBelow reference target → hirCallAllocationFreeP signatures target true = true := by
  induction reference using Nat.strong_induction_on with
  | _ reference ih =>
      have earlier {child : Nat} (link : arena.Linked reference child) : child < reference := by
        obtain ⟨nonzero, rfl | rfl | ⟨conditional, rfl⟩⟩ := link
        · exact arena.left_before reference nonzero
        · exact arena.right_before reference nonzero
        · exact arena.target_before reference conditional nonzero
      have below : hirRegionChildrenUnsafeCall signatures arena reference
          (Nat.pos_of_ne_zero positive) = 0 ↔ ∀ target child, arena.Linked reference child →
          arena.CallsBelow child target →
          hirCallAllocationFreeP signatures target true = true := by
        rw [hirRegionChildrenUnsafeCall_eq_zero_iff]
        constructor
        · intro clean target child link
          exact (ih child (earlier link) link.1).mp (clean child link) target
        · intro all child link
          exact (ih child (earlier link) link.1).mpr fun target => all target child link
      rw [hirRegionUnsafeCall, dif_neg positive]
      split
      · rename_i isCall
        split
        · rename_i uncertified
          constructor
          · intro zero
            exact (arena.call_target reference isCall zero).elim
          · intro all
            rw [all _ ⟨reference, .refl, isCall, rfl⟩] at uncertified
            cases uncertified
        · rename_i certified
          rw [below]
          constructor
          · intro all target called
            rcases HirArena.callsBelow_iff.mp called with ⟨_, rfl⟩ | ⟨child, link, inside⟩
            · exact Bool.not_eq_false _ ▸ certified
            · exact all target child link inside
          · intro all target child link inside
            exact all target (HirArena.callsBelow_iff.mpr (.inr ⟨child, link, inside⟩))
      · rename_i other
        rw [below]
        constructor
        · intro all target called
          rcases HirArena.callsBelow_iff.mp called with ⟨isCall, _⟩ | ⟨child, link, inside⟩
          · exact (other isCall).elim
          · exact all target child link inside
        · intro all target child link inside
          exact all target (HirArena.callsBelow_iff.mpr (.inr ⟨child, link, inside⟩))

/-- No region of the arena has an unsafe call exactly when the walk through each finds none. -/
theorem hirRegionsUnsafeCall_eq_zero_iff (index : Nat) :
    hirRegionsUnsafeCall signatures arena index = 0 ↔ ∀ reference, index ≤ reference →
      reference ≤ arena.count → (arena.nodes reference).allocationRegion ≠ 0 →
      hirRegionUnsafeCall signatures arena reference = 0 := by
  fun_induction hirRegionsUnsafeCall signatures arena index with
  | case1 index ended =>
      refine ⟨fun _ reference from_ within => ?_, fun _ => rfl⟩
      omega
  | case2 index within unmarked ih =>
      exact ih.trans (forall_from_succ_iff fun _ marked => (marked unmarked).elim)
  | case3 index within marked found clean ih =>
      exact ih.trans (forall_from_succ_iff fun _ _ => clean)
  | case4 index within marked found dirty =>
      constructor
      · intro zero
        exact (dirty zero).elim
      · intro all
        exact (dirty (all index le_rfl (Nat.le_of_not_lt within) marked)).elim

end Scans

end Native
