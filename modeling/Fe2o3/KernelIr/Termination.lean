import Fe2o3.KernelIr.ControlFlow

/-!
# The analysis ends

Every round of a loop charges the meter or takes an entry off a stack, and nothing is
pushed without a charge: the units that the meter has left bound the rounds.  The fuel is
above that bound, so the analysis never fails for want of it.
-/

namespace Fe2o3.KernelIr.ControlFlow

open Lib List

def WorkMeter.left (meter : WorkMeter) : Nat := meter.limit - meter.total

variable {α β : Type} {left fuel : Nat}

/-- With `left` units the computation does not diverge; `Q` holds of its result and the
    units that are left then. -/
def Settles (left : Nat) (x : Metered α) (Q : α → Nat → Prop) : Prop :=
  ∀ meter : WorkMeter, meter.left = left →
    Ensures (· ≠ .diverged) (x.run meter) fun result => Q result.1 result.2.left

section

variable {Q : β → Nat → Prop}

theorem settles_pure {b : β} (h : Q b left) : Settles left (pure b) Q := by
  rintro meter rfl
  exact h

theorem Settles.bind {x : Metered α} {f : α → Metered β} {R : α → Nat → Prop}
    (h : Settles left x R) (hf : ∀ a left, R a left → Settles left (f a) Q) :
    Settles left (x >>= f) Q := by
  intro meter hmeter
  rw [StateT.run_bind, ensures_bind]
  exact ensures_mono (h meter hmeter) fun result hresult => hf _ _ hresult result.2 rfl

theorem Settles.mono {x : Metered β} {R : β → Nat → Prop} (h : Settles left x R)
    (hQ : ∀ b left, R b left → Q b left) : Settles left x Q :=
  fun meter hmeter => ensures_mono (h meter hmeter) fun result => hQ result.1 result.2.left

theorem settles_charge {units : Nat} {f : Unit → Metered β}
    (hf : ∀ later, later + units = left → Settles later (f ()) Q) :
    Settles left (charge units >>= f) Q := by
  refine Settles.bind (R := fun _ later => later + units = left) ?_ fun _ => hf
  rintro meter rfl
  simp only [charge, checked, checkLimit, failIf, StateT.run_bind, StateT.run_get,
    StateT.run_monadLift, monadLift_self, ensures_bind, pure_bind]
  split
  · rw [ensures_ok]
    show Ensures _ (if decide (meter.total + units > meter.limit) = true then _ else _) _
    split
    case isTrue => simp
    case isFalse hwithin =>
      show meter.limit - (meter.total + units) + units = meter.limit - meter.total
      rw [decide_eq_true_iff] at hwithin
      omega
  · simp

theorem settles_rounds {f : Nat → Metered β}
    (hf : ∀ fuel, 2 * left + 1 < fuel → Settles left (f fuel) Q) :
    Settles left (rounds >>= f) Q := by
  rintro meter rfl
  refine hf (2 * meter.limit + 2) ?_ meter rfl
  rw [WorkMeter.left]
  omega

/-- What every step keeps holds after all of them. -/
theorem settles_foldlM {f : β → α → Metered β} {xs : List α} {init : β}
    (hstep : ∀ x ∈ xs, ∀ state left, Q state left → Settles left (f state x) Q)
    (hinit : Q init left) : Settles left (xs.foldlM f init) Q := by
  induction xs generalizing init left with
  | nil => exact settles_pure hinit
  | cons x xs ih =>
    rw [foldlM_cons]
    refine (hstep x mem_cons_self init left hinit).bind fun state left hstate => ?_
    exact ih (fun y hy => hstep y (mem_cons_of_mem x hy)) hstate

end

/-! ### Reachable blocks and their order -/

variable {successors : List (List Nat)} {reachable : List Bool} {blocks : Nat}

theorem settles_reachableLoop {pending : List Nat} (hfuel : pending.length + left < fuel)
    (hlength : reachable.length = blocks) :
    Settles left (reachableLoop successors fuel pending reachable)
      fun reachable _ => reachable.length = blocks := by
  induction fuel generalizing pending reachable left with
  | zero => omega
  | succ fuel ih =>
    cases pending with
    | nil => exact settles_pure hlength
    | cons block pending =>
      have hrest : pending.length + left < fuel := by
        rw [length_cons] at hfuel
        omega
      refine (settles_foldlM (Q := fun state left =>
        state.2.length = blocks ∧ state.1.length + left < fuel) ?_ ⟨hlength, hrest⟩).bind
        fun state left hstate => ih hstate.2 hstate.1
      rintro successor - state left ⟨hlength, hfuel⟩
      refine settles_charge fun later hleft => ?_
      split
      · exact settles_pure ⟨hlength, by omega⟩
      · exact settles_pure ⟨length_set.trans hlength, by rw [length_cons]; omega⟩

/-- Every block on the stack comes into the order, which lists nothing but blocks. -/
theorem settles_postorderLoop {stack : List (Nat × Nat)} {visited : List Bool}
    {postorder : List Nat} (hfuel : stack.length + 2 * left < fuel)
    (hreachable : reachable.length = blocks)
    (hblocks : ∀ block ∈ stack.map Prod.fst ++ postorder, block < blocks) :
    Settles left (postorderLoop successors reachable fuel stack visited postorder)
      fun order _ => (∀ block ∈ order, block < blocks) ∧
        ∀ block ∈ stack.map Prod.fst ++ postorder, block ∈ order := by
  induction fuel generalizing stack visited postorder left with
  | zero => omega
  | succ fuel ih =>
    cases stack with
    | nil => exact settles_pure ⟨hblocks, fun _ hblock => hblock⟩
    | cons top stack =>
      rw [length_cons] at hfuel
      rw [postorderLoop]
      split
      · have hsame : ∀ block, block ∈ stack.map Prod.fst ++ (postorder ++ [top.1]) ↔
            block ∈ (top :: stack).map Prod.fst ++ postorder := by
          intro block
          simp only [map_cons, cons_append, mem_cons, mem_append, not_mem_nil, or_false]
          tauto
        simp only [← hsame] at hblocks ⊢
        exact ih (by omega) hblocks
      · refine settles_charge fun later hleft => ?_
        split
        case isTrue hnew =>
          simp only [Bool.and_eq_true, getD_eq_getElem?_getD] at hnew
          refine (ih (by simp only [length_cons]; omega) ?_).mono fun order _ horder =>
            ⟨horder.1, fun block hblock => horder.2 block (mem_cons_of_mem _ hblock)⟩
          refine forall_mem_cons.mpr ⟨?_, hblocks⟩
          by_contra hout
          rw [getElem?_eq_none (by omega)] at hnew
          simp at hnew
        case isFalse => exact ih (by rw [length_cons]; omega) hblocks

/-! ### Immediate dominators -/

section

variable {order listed : List Nat} {dominators : List (Option Nat)}

/-- Every dominator that is known is a listed block's, and is listed. -/
def Rooted (listed : List Nat) (dominators : List (Option Nat)) : Prop :=
  ∀ block dominator, dominators.getD block none = some dominator →
    block ∈ listed ∧ dominator ∈ listed

variable (hzero : 0 ∈ listed) (hrooted : Rooted listed dominators)
include hzero hrooted

/-- A finger that does not stay where it is has been charged for. -/
theorem settles_climb {finger other : Nat} (hfuel : left < fuel) (hfinger : finger ∈ listed) :
    Settles left (climb order dominators fuel finger other) fun result later =>
      result ∈ listed ∧ (later < left ∨ later = left ∧ result = finger ∧
        order.getD finger 0 ≤ order.getD other 0) := by
  induction fuel generalizing finger left with
  | zero => omega
  | succ fuel ih =>
    rw [climb]
    split
    case isTrue hle => exact settles_pure ⟨hfinger, .inr ⟨rfl, rfl, hle⟩⟩
    case isFalse =>
      refine settles_charge fun later hleft => ?_
      have hnext : (dominators.getD finger none).getD 0 ∈ listed := by
        cases hfound : dominators.getD finger none with
        | none => exact hzero
        | some dominator => exact (hrooted finger dominator hfound).2
      exact (ih (by omega) hnext).mono fun result later h => ⟨h.1, .inl (by omega)⟩

variable (hinjective : ∀ block ∈ listed, ∀ other ∈ listed,
  order.getD block 0 = order.getD other 0 → block = other)
include hinjective

theorem settles_intersectDominators {turns first second : Nat} (hfuel : left < fuel)
    (hturns : left < turns) (hfirst : first ∈ listed) (hsecond : second ∈ listed) :
    Settles left (intersectDominators order dominators fuel turns first second)
      fun result later => result ∈ listed ∧ later ≤ left := by
  induction turns generalizing first second left with
  | zero => omega
  | succ turns ih =>
    rw [intersectDominators]
    split
    case isTrue => exact settles_pure ⟨hfirst, le_refl left⟩
    case isFalse hne =>
      refine (settles_climb hzero hrooted hfuel hfirst).bind fun first' later hclimb => ?_
      refine (settles_climb hzero hrooted (by omega) hsecond).bind fun second' last hclimb' => ?_
      -- if neither finger moved, both are at the same place of the order
      have hless : last < left := by
        rcases hclimb.2 with hless | ⟨rfl, rfl, hle⟩
        · omega
        · rcases hclimb'.2 with hless | ⟨-, -, hge⟩
          · exact hless
          · exact absurd (hinjective _ hfirst _ hsecond (le_antisymm hle hge)) hne
      exact (ih (by omega) (by omega) hclimb.1 hclimb'.1).mono fun result later h =>
        ⟨h.1, h.2.trans hless.le⟩

theorem settles_mergePredecessors {next : Option Nat} {predecessors : List Nat}
    (hfuel : left < fuel) (hnext : ∀ block ∈ next, block ∈ listed) :
    Settles left (mergePredecessors order dominators fuel reachable next predecessors)
      fun result later => (∀ block ∈ result, block ∈ listed) ∧
        (later < left ∨ later = left ∧ result = next) := by
  induction predecessors generalizing next left with
  | nil => exact settles_pure ⟨hnext, .inr ⟨rfl, rfl⟩⟩
  | cons predecessor predecessors ih =>
    rw [mergePredecessors]
    split
    · exact ih hfuel hnext
    case isFalse hknown =>
      refine settles_charge fun later hleft => ?_
      have hpredecessor : predecessor ∈ listed := by
        cases hfound : dominators.getD predecessor none with
        | none =>
          rw [hfound] at hknown
          simp at hknown
        | some dominator => exact (hrooted predecessor dominator hfound).1
      have hrest : ∀ merged last, merged ∈ listed ∧ last ≤ later → Settles last
          (if merged = 0 then pure (some merged)
            else mergePredecessors order dominators fuel reachable (some merged) predecessors)
          fun result last => (∀ block ∈ result, block ∈ listed) ∧ last < left := by
        rintro merged last ⟨hmerged, hlast⟩
        have hsome : ∀ block ∈ some merged, block ∈ listed := by simp [hmerged]
        split
        · exact settles_pure ⟨hsome, by omega⟩
        · exact (ih (by omega) hsome).mono fun result later h => ⟨h.1, by omega⟩
      refine Settles.mono (R := fun result last => (∀ block ∈ result, block ∈ listed) ∧ last < left)
        ?_ fun result last h => ⟨h.1, .inl h.2⟩
      cases next with
      | none => exact hrest predecessor later ⟨hpredecessor, le_refl later⟩
      | some previous =>
        exact (settles_intersectDominators hzero hrooted hinjective (by omega) (by omega)
          (hnext previous rfl) hpredecessor).bind hrest

omit hrooted

/-- A round that changes a dominator has been charged for. -/
theorem settles_dominatorLoop {predecessors : List (List Nat)} (hfuel : left < fuel)
    (hrooted : Rooted listed dominators) :
    Settles left (dominatorLoop order predecessors reachable listed fuel dominators)
      fun _ _ => True := by
  induction fuel generalizing dominators left with
  | zero => omega
  | succ fuel ih =>
    rw [dominatorLoop]
    refine (settles_foldlM (Q := fun state later => Rooted listed state.1 ∧ later ≤ left ∧
      (state.2 = true → later < left)) ?_ ⟨hrooted, le_refl left, by simp⟩).bind
      fun state later hstate => ?_
    · rintro block hblock ⟨dominators, changed⟩ left' ⟨hrooted, hle, hchanged⟩
      rw [updateDominator]
      refine (settles_mergePredecessors hzero hrooted hinjective (by omega) (by simp)).bind
        fun next later hnext => ?_
      split
      case isTrue =>
        refine settles_pure ⟨hrooted, by omega, fun h => ?_⟩
        have := hchanged h
        omega
      case isFalse hnew =>
        simp only [Bool.or_eq_true, decide_eq_true_iff, not_or] at hnew
        have hless : later < left := by
          rcases hnext.2 with hless | ⟨-, rfl⟩
          · omega
          · exact absurd rfl hnew.1
        refine settles_pure ⟨fun b dominator hfound => ?_, hless.le, fun _ => hless⟩
        rw [getD_set] at hfound
        split at hfound
        case isTrue hsame =>
          exact ⟨hsame.1 ▸ mem_of_mem_drop hblock, hnext.1 dominator hfound⟩
        case isFalse => exact hrooted b dominator hfound
    · obtain ⟨dominators, changed⟩ := state
      cases changed with
      | true =>
        refine ih ?_ hstate.1
        have := hstate.2.2 rfl
        omega
      | false => exact settles_pure trivial

end

theorem settles_computeImmediateDominators {predecessors : List (List Nat)} {listed : List Nat}
    (hblocks : ∀ block ∈ listed, block < predecessors.length) (hzero : 0 ∈ listed) :
    Settles left (computeImmediateDominators predecessors reachable listed) fun _ _ => True := by
  refine settles_rounds fun fuel hfuel => ?_
  refine (settles_dominatorLoop hzero (fun block hblock other hother hsame => ?_) (by omega)
    fun block dominator hfound => ?_).bind fun _ _ _ => settles_pure trivial
  · have hfound : listed[_]? = listed[_]? := congrArg (listed[·]?) hsame
    rw [getElem?_rank hblock (hblocks block hblock),
      getElem?_rank hother (hblocks other hother)] at hfound
    exact Option.some.inj hfound
  · rw [getD_set] at hfound
    split at hfound
    case isTrue hsame =>
      obtain rfl := Option.some.inj hfound
      exact ⟨hsame.1 ▸ hzero, hzero⟩
    case isFalse =>
      rw [getD_eq_getElem?_getD, getElem?_replicate] at hfound
      split at hfound <;> cases hfound

/-! ### Intervals and irreducible blocks -/

theorem settles_intervalLoop {children : Nat → List Nat} {stack : List (Nat × Bool)} {clock : Nat}
    {intervals : Dominance} (hfuel : left < fuel) :
    Settles left (intervalLoop children fuel stack clock intervals) fun _ _ => True := by
  induction fuel generalizing stack clock intervals left with
  | zero => omega
  | succ fuel ih =>
    cases stack with
    | nil => exact settles_pure trivial
    | cons entry stack =>
      refine settles_charge fun later hleft => ?_
      split <;> exact ih (by omega)

theorem settles_eliminationLoop {forward : Nat → List Nat} {turns cursor : Nat}
    {state : Elimination} :
    Settles left (eliminationLoop forward turns cursor state) fun _ _ => True := by
  induction turns generalizing cursor state left with
  | zero => exact settles_pure trivial
  | succ turns ih =>
    rw [eliminationLoop]
    split
    · exact settles_pure trivial
    · exact settles_charge fun _ _ => ih

theorem settles_forM_charge {xs : List Nat} :
    Settles left (xs.forM fun _ => charge 1) fun _ _ => True := by
  induction xs generalizing left with
  | nil => exact settles_pure trivial
  | cons x xs ih => exact settles_charge fun _ _ => ih

theorem settles_analyzeSuccessors {blockIds : List BlockId} {indexUnits : Nat}
    (hblocks : 0 < successors.length) :
    Settles left (analyzeSuccessors blockIds successors indexUnits) fun _ _ => True := by
  refine settles_charge fun left _ => ?_
  refine Settles.bind (R := fun reachable _ => reachable.length = successors.length) ?_
    fun reachable left hreachable => ?_
  · refine settles_rounds fun fuel hfuel => settles_reachableLoop ?_ (by simp)
    rw [length_singleton]
    omega
  refine Settles.bind (R := fun order _ => (∀ block ∈ order, block < successors.length) ∧
    0 ∈ order) ?_ fun order left horder => ?_
  · refine settles_rounds fun fuel hfuel => ?_
    refine (settles_postorderLoop ?_ hreachable (by simpa using hblocks)).bind
      fun postorder _ h => settles_pure ?_
    · rw [length_singleton]
      omega
    · simpa using h
  refine (settles_computeImmediateDominators (by simpa [predecessorRows] using horder.1)
    horder.2).bind fun dominators left _ => ?_
  refine Settles.bind (R := fun _ _ => True) ?_ fun dominance left _ => ?_
  · rw [computeDominatorIntervals]
    split
    · rintro meter -
      exact ControlFlowError.noConfusion
    · exact settles_rounds fun fuel hfuel => settles_intervalLoop (by omega)
  refine Settles.bind (R := fun _ _ => True) ?_ fun _ _ _ => settles_pure trivial
  refine settles_forM_charge.bind fun _ _ _ => ?_
  exact settles_eliminationLoop.bind fun _ _ _ => settles_pure trivial

/-! ### The analysis -/

theorem ensures_checked {resource : ControlFlowResource} {value : Nat} {Q : Nat → Prop}
    (h : Q value) : Ensures (· ≠ .diverged) (checked resource value) Q := by
  rw [checked]
  split
  · exact h
  · exact ControlFlowError.noConfusion

theorem ensures_checkLimit {resource : ControlFlowResource} {actual limit : Nat} {Q : Unit → Prop}
    (h : Q ()) : Ensures (· ≠ .diverged) (checkLimit resource actual limit) Q :=
  ensures_failIf.mpr ⟨fun _ => ControlFlowError.noConfusion, fun _ => h⟩

/-- Whatever the function and the limits are, the fuel of the loops suffices. -/
theorem analyzeControlFlowWithLimits_ne_diverged (body : Option (List BasicBlock))
    (limits : ControlFlowLimits) :
    analyzeControlFlowWithLimits body limits ≠ .error .diverged := by
  suffices h : Ensures (· ≠ .diverged) (analyzeControlFlowWithLimits body limits) fun _ => True by
    intro hdiverged
    rw [hdiverged] at h
    exact h rfl
  have hposition : ∀ blockIds source target, Ensures (· ≠ .diverged)
      (targetPosition blockIds source target) fun _ => True :=
    fun _ _ _ => ensures_okOr.mpr ⟨fun _ => ControlFlowError.noConfusion, fun _ _ => trivial⟩
  simp only [analyzeControlFlowWithLimits, ensures_bind, ensures_okOr, ensures_failIf]
  refine ⟨fun _ => ControlFlowError.noConfusion, fun blocks _ => ensures_checkLimit
    ⟨fun _ => ControlFlowError.noConfusion, fun hblocks => ensures_forM (fun position _ => ?_) ?_⟩⟩
  · rw [checkBlocks]
    split
    · exact trivial
    · simp [ensures_failIf]
  refine ensures_mono (ensures_foldlM (I := fun _ => True) (fun block _ counts _ => ?_) trivial)
    fun counts _ => ?_
  · refine ensures_foldlM (fun edge _ counts _ => ?_) trivial
    simp only [countEdge, ensures_bind]
    exact ensures_checked (ensures_checked (ensures_mono (hposition ..) fun _ _ => trivial))
  refine ensures_checkLimit (ensures_checkLimit ?_)
  refine ensures_mono (ensures_foldlM (I := fun _ => True) (fun entry _ total _ => ?_) trivial)
    fun phiInputs _ => ensures_checkLimit ?_
  · simp only [countPhiInputs, ensures_bind]
    exact ensures_checked (ensures_checked trivial)
  refine ensures_mono (ensures_mapM fun block _ => ?_) fun successors hsuccessors => ?_
  · simp only [successorRow, ensures_bind]
    exact ensures_mono (ensures_mapM fun edge _ => hposition ..) fun _ _ => trivial
  have hlength : 0 < successors.length := by
    rw [hsuccessors, length_pos_iff]
    simpa using hblocks
  exact ensures_mono (settles_analyzeSuccessors hlength _ rfl) fun _ _ => trivial

end Fe2o3.KernelIr.ControlFlow
