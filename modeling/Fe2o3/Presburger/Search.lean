import Fe2o3.Lib.Scan
import Fe2o3.Presburger.Model

/-!
# The depth-first search over a Presburger set

The search keeps one point buffer, fixes one coordinate per level, and leaves a branch
as soon as the interval of some constraint rules it out.  `visit_ok` says what this
comes to: a search that succeeds is a scan of the points of the set in lexicographic
order.
-/

namespace Fe2o3.Presburger

open Lib List
open PresburgerAffineExpr (intervalStep evaluate_ok)

/-! ### Pruning -/

variable {coefficient coordinate lower upper : Int} {coefficients coordinates : List Int}
  {sides : List (Int × Int)} {answer stop : Bool} {constraint : PresburgerConstraint}
  {constraints : List PresburgerConstraint} {expression : PresburgerAffineExpr}

section Intervals

variable {assigned : Nat} {bounds result : Int × Int}

variable {dimension : Nat}

/-- Fixed coordinates give their own term. -/
theorem intervalStep_fixed (hfixed : dimension < assigned)
    (h : intervalStep assigned bounds
      ((coefficient, coordinate, lower, upper), dimension) = .ok result) :
    result = (bounds.1 + coefficient * coordinate, bounds.2 + coefficient * coordinate) := by
  simp only [intervalStep, if_pos hfixed, bind_eq_ok] at h
  obtain ⟨_, ⟨⟩, minimum, hminimum, maximum, hmaximum, ⟨⟩⟩ := h
  rw [checkedTerm_ok hminimum, checkedTerm_ok hmaximum]

/-- A free coordinate gives at least the smallest and at most the largest term of its side. -/
theorem intervalStep_free {candidate : Int} (hfree : ¬dimension < assigned)
    (hside : lower ≤ candidate ∧ candidate < upper)
    (h : intervalStep assigned bounds
      ((coefficient, coordinate, lower, upper), dimension) = .ok result) :
    result.1 ≤ bounds.1 + coefficient * candidate ∧
      bounds.2 + coefficient * candidate ≤ result.2 := by
  simp only [intervalStep, if_neg hfree, bind_eq_ok] at h
  obtain ⟨last, hlast, _, ⟨⟩, minimum, hminimum, maximum, hmaximum, ⟨⟩⟩ := h
  rw [checkedTerm_ok hminimum, checkedTerm_ok hmaximum]
  have hupper : candidate ≤ last := by
    rw [checkedSub_ok hlast]
    omega
  split
  · rename_i hsign
    exact ⟨Int.add_le_add_left (Int.mul_le_mul_of_nonneg_left hside.1 hsign) _,
      Int.add_le_add_left (Int.mul_le_mul_of_nonneg_left hupper hsign) _⟩
  · have hnegative : coefficient ≤ 0 := by omega
    exact ⟨Int.add_le_add_left (Int.mul_le_mul_of_nonpos_left hnegative hupper) _,
      Int.add_le_add_left (Int.mul_le_mul_of_nonpos_left hnegative hside.1) _⟩

/-- The bounds enclose the value at every point of the box that agrees with the buffer in the
    coordinates fixed so far. -/
theorem foldlM_intervalStep_encloses {candidate : List Int} {sum : Int}
    (hlength : coefficients.length = sides.length) (hbuffer : coordinates.length = sides.length)
    (hbox : InBox sides candidate)
    (hagree : candidate.take (assigned - dimension) = coordinates.take (assigned - dimension))
    (hsum : bounds.1 ≤ sum ∧ sum ≤ bounds.2)
    (h : ((coefficients.zip (coordinates.zip sides)).zipIdx dimension).foldlM
      (intervalStep assigned) bounds = .ok result) :
    result.1 ≤ sum + linearValue coefficients candidate ∧
      sum + linearValue coefficients candidate ≤ result.2 := by
  induction hbox generalizing coefficients coordinates dimension bounds sum with
  | nil =>
    obtain rfl := length_eq_zero_iff.mp hlength
    cases h
    simpa [linearValue] using hsum
  | @cons side x sides candidate hside _ ih =>
    obtain ⟨coefficient, coefficients, rfl⟩ := exists_cons_of_length_eq_add_one hlength
    obtain ⟨coordinate, coordinates, rfl⟩ := exists_cons_of_length_eq_add_one hbuffer
    obtain ⟨next, hnext, hrest⟩ := bind_eq_ok.mp h
    rw [linearValue_cons, ← Int.add_assoc]
    have hlength' : coefficients.length = sides.length := Nat.succ.inj hlength
    have hbuffer' : coordinates.length = sides.length := Nat.succ.inj hbuffer
    by_cases hfixed : dimension < assigned
    · have hsplit : assigned - dimension = assigned - (dimension + 1) + 1 := by omega
      rw [hsplit, take_succ_cons, take_succ_cons] at hagree
      obtain ⟨hhead, htail⟩ := List.cons.inj hagree
      subst hhead
      refine ih hlength' hbuffer' htail ?_ hrest
      rw [intervalStep_fixed hfixed hnext]
      exact ⟨Int.add_le_add_right hsum.1 _, Int.add_le_add_right hsum.2 _⟩
    · have hnone : assigned - (dimension + 1) = 0 := by omega
      obtain ⟨hlow, hhigh⟩ := intervalStep_free hfixed hside hnext
      refine ih hlength' hbuffer' (by rw [hnone]; rfl) ?_ hrest
      exact ⟨Int.le_trans hlow (Int.add_le_add_right hsum.1 _),
        Int.le_trans (Int.add_le_add_right hsum.2 _) hhigh⟩

/-- Once every coordinate is fixed the bounds meet in the value. -/
theorem foldlM_intervalStep_fixed (hlength : coefficients.length = sides.length)
    (hbuffer : coordinates.length = sides.length) (hfixed : dimension + sides.length ≤ assigned)
    (h : ((coefficients.zip (coordinates.zip sides)).zipIdx dimension).foldlM
      (intervalStep assigned) bounds = .ok result) :
    result = (bounds.1 + linearValue coefficients coordinates,
      bounds.2 + linearValue coefficients coordinates) := by
  induction sides generalizing coefficients coordinates dimension bounds with
  | nil =>
    obtain rfl := length_eq_zero_iff.mp hlength
    cases h
    simp [linearValue]
  | cons side sides ih =>
    obtain ⟨coefficient, coefficients, rfl⟩ := exists_cons_of_length_eq_add_one hlength
    obtain ⟨coordinate, coordinates, rfl⟩ := exists_cons_of_length_eq_add_one hbuffer
    obtain ⟨next, hnext, hrest⟩ := bind_eq_ok.mp h
    rw [length_cons] at hfixed
    rw [ih (Nat.succ.inj hlength) (Nat.succ.inj hbuffer) (by omega) hrest,
      intervalStep_fixed (by omega) hnext, linearValue_cons, Int.add_assoc, Int.add_assoc]

end Intervals

section Constraints

variable {domain : PresburgerBox} {point candidate : List Int} {assigned : Nat}

variable {result : Int × Int}

theorem interval_encloses (hbox : InBox domain.sides candidate)
    (hagree : candidate.take assigned = point.take assigned)
    (h : expression.interval point assigned domain = .ok result) :
    result.1 ≤ expression.value candidate ∧ expression.value candidate ≤ result.2 := by
  obtain ⟨hranks, h⟩ := check_eq_ok.mp h
  rw [not_or, not_not, not_not, ← domain.length_sides] at hranks
  have hagree' : candidate.take (assigned - 0) = point.take (assigned - 0) := hagree
  exact foldlM_intervalStep_encloses hranks.1 hranks.2 hbox hagree'
    ⟨Int.le_refl _, Int.le_refl _⟩ h

theorem interval_fixed (h : expression.interval point domain.rank domain = .ok result) :
    result = (expression.value point, expression.value point) := by
  obtain ⟨hranks, h⟩ := check_eq_ok.mp h
  rw [not_or, not_not, not_not, ← domain.length_sides] at hranks
  apply foldlM_intervalStep_fixed hranks.1 hranks.2 _ h
  rw [domain.length_sides, Nat.zero_add]

/-- A constraint that is given up holds nowhere below the branch. -/
theorem PresburgerConstraint.possible_of_holds (hpoint : point.length = domain.rank)
    (hbox : InBox domain.sides candidate) (hagree : candidate.take assigned = point.take assigned)
    (hholds : constraint.holds candidate = true)
    (h : constraint.possible domain point assigned = .ok answer) : answer = true := by
  cases constraint with
  | lessEqualZero expression =>
    obtain ⟨result, hinterval, h⟩ := bind_eq_ok.mp h
    have hencloses := interval_encloses hbox hagree hinterval
    have hvalue : expression.value candidate ≤ 0 := of_decide_eq_true hholds
    cases h
    simp only [decide_eq_true_eq]
    omega
  | equalZero expression =>
    obtain ⟨result, hinterval, h⟩ := bind_eq_ok.mp h
    have hencloses := interval_encloses hbox hagree hinterval
    have hvalue : expression.value candidate = 0 := of_decide_eq_true hholds
    cases h
    simp only [Bool.and_eq_true, decide_eq_true_eq]
    omega
  | congruentZero expression modulus =>
    rw [possible] at h
    split at h
    · -- nothing is free any more, so the candidate is the buffer
      have hlength := PresburgerBox.length_of_inBox hbox
      rw [take_of_length_le (by omega), take_of_length_le (by omega)] at hagree
      subst hagree
      obtain ⟨value, hvalue, h⟩ := bind_eq_ok.mp h
      have hdivides : modulus ∣ expression.value candidate := of_decide_eq_true hholds
      cases h
      rw [evaluate_ok hvalue, beq_iff_eq]
      exact Int.emod_eq_zero_of_dvd hdivides
    · cases h
      rfl

/-- At a leaf, a constraint that is still possible holds. -/
theorem PresburgerConstraint.holds_of_possible
    (h : constraint.possible domain point domain.rank = .ok true) :
    constraint.holds point = true := by
  cases constraint with
  | lessEqualZero expression =>
    obtain ⟨result, hinterval, h⟩ := bind_eq_ok.mp h
    rw [interval_fixed hinterval] at h
    exact Except.ok.inj h
  | equalZero expression =>
    obtain ⟨result, hinterval, h⟩ := bind_eq_ok.mp h
    rw [interval_fixed hinterval] at h
    have hbounds := Except.ok.inj h
    simp only [Bool.and_eq_true, decide_eq_true_eq] at hbounds
    exact decide_eq_true (Int.le_antisymm hbounds.1 hbounds.2)
  | congruentZero expression modulus =>
    rw [possible, if_pos rfl] at h
    obtain ⟨value, hvalue, h⟩ := bind_eq_ok.mp h
    have hzero := beq_iff_eq.mp (Except.ok.inj h)
    rw [evaluate_ok hvalue] at hzero
    exact decide_eq_true (Int.dvd_of_emod_eq_zero hzero)

theorem PresburgerSet.allPossible_of_holds (hpoint : point.length = domain.rank)
    (hbox : InBox domain.sides candidate) (hagree : candidate.take assigned = point.take assigned)
    (hholds : constraints.all (PresburgerConstraint.holds candidate) = true)
    (h : allPossible domain point assigned constraints = .ok answer) : answer = true := by
  induction constraints with
  | nil => exact (Except.ok.inj h).symm
  | cons constraint rest ih =>
    rw [all_cons, Bool.and_eq_true] at hholds
    obtain ⟨possible, hpossible, h⟩ := bind_eq_ok.mp h
    obtain rfl := PresburgerConstraint.possible_of_holds hpoint hbox hagree hholds.1 hpossible
    exact ih hholds.2 h

theorem PresburgerSet.holds_of_allPossible
    (h : allPossible domain point domain.rank constraints = .ok true) :
    constraints.all (PresburgerConstraint.holds point) = true := by
  induction constraints with
  | nil => rfl
  | cons constraint rest ih =>
    obtain ⟨possible, hpossible, h⟩ := bind_eq_ok.mp h
    cases possible with
    | false => nomatch h
    | true =>
      rw [all_cons, Bool.and_eq_true]
      exact ⟨PresburgerConstraint.holds_of_possible hpossible, ih h⟩

end Constraints

/-! ### The descent -/

/-- What a query carries down the search: the point buffer, the work charged so far, and the
    variables that the visitor writes. -/
structure Descent (σ : Type) where
  point : List Int
  work : Nat
  state : σ

variable {σ : Type}

def Descent.charge (descent : Descent σ) (amount : Nat) : Except PresburgerFailure (Descent σ) :=
  let actual := descent.work + amount
  if actual > maxPresburgerWorkUnits then .error (.resourceLimit maxPresburgerWorkUnits actual)
  else .ok { descent with work := actual }

/-- The loop over the coordinates of one dimension.  The fuel is the length of the side. -/
def sweep (step : Int → Descent σ → Except PresburgerFailure (Bool × Descent σ)) (upper : Int) :
    Nat → Int → Descent σ → Except PresburgerFailure (Bool × Descent σ)
  | 0, _, descent => .ok (false, descent)
  | fuel + 1, coordinate, descent =>
    if coordinate < upper then do
      let (stop, descent) ← step coordinate descent
      if stop then .ok (true, descent)
      else do
        let next ← checkedAdd coordinate 1
        sweep step upper fuel next descent
    else .ok (false, descent)

namespace PresburgerSet

/-- The head of `visit`: charge one unit, and leave the branch if no point is left in it. -/
def enter (set : PresburgerSet) (dimension : Nat)
    (body : Descent σ → Except PresburgerFailure (Bool × Descent σ)) (descent : Descent σ) :
    Except PresburgerFailure (Bool × Descent σ) := do
  let descent ← descent.charge 1
  let possible ← set.partialConstraintsPossible descent.point dimension
  if !possible then .ok (false, descent) else body descent

/-- The recursion over the dimensions; the first argument counts those that are left. -/
def visit (set : PresburgerSet) (visitor : List Int → σ → Except PresburgerFailure (Bool × σ)) :
    Nat → Nat → Descent σ → Except PresburgerFailure (Bool × Descent σ)
  | 0, dimension =>
    set.enter dimension fun descent => do
      let (stop, state) ← visitor descent.point descent.state
      .ok (stop, { descent with state })
  | remaining + 1, dimension =>
    set.enter dimension fun descent =>
      let lower := set.domain.lower.getD dimension 0
      let upper := set.domain.upperExclusive.getD dimension 0
      sweep
        (fun coordinate descent =>
          visit set visitor remaining (dimension + 1)
            { descent with point := descent.point.set dimension coordinate })
        upper (upper - lower).toNat lower descent

def visitPoints (set : PresburgerSet) (visitor : List Int → σ → Except PresburgerFailure (Bool × σ))
    (state : σ) : Except PresburgerFailure σ :=
  if set.domain.isEmpty then .ok state
  else do
    let (_, descent) ← set.visit visitor set.domain.rank 0 ⟨set.domain.lower, 0, state⟩
    .ok descent.state

end PresburgerSet

/-! ### The descent is a scan -/

variable {visitor : List Int → σ → Except PresburgerFailure (Bool × σ)}

variable {before after : Descent σ}

/-- A loop whose every turn scans the leaves below its coordinate scans the leaves of the side. -/
theorem sweep_ok {step : Int → Descent σ → Except PresburgerFailure (Bool × Descent σ)}
    {leaves : Int → List (List Int)} {I : Descent σ → Prop}
    (hstep : ∀ coordinate before stop after, lower ≤ coordinate ∧ coordinate < upper → I before →
      step coordinate before = .ok (stop, after) →
      scan visitor (leaves coordinate) before.state = .ok (stop, after.state) ∧ I after)
    {fuel : Nat} (hfuel : fuel = (upper - coordinate).toNat) (hlower : lower ≤ coordinate)
    (hI : I before) (h : sweep step upper fuel coordinate before = .ok (stop, after)) :
    scan visitor ((intervalPoints coordinate upper).flatMap leaves) before.state =
      .ok (stop, after.state) ∧ I after := by
  induction fuel generalizing coordinate before with
  | zero =>
    cases h
    rw [intervalPoints_of_le (by omega)]
    exact ⟨rfl, hI⟩
  | succ fuel ih =>
    have hlt : coordinate < upper := by omega
    rw [sweep, if_pos hlt] at h
    obtain ⟨⟨stopped, next⟩, hturn, h⟩ := bind_eq_ok.mp h
    obtain ⟨hscan, hnext⟩ := hstep coordinate before stopped next ⟨hlower, hlt⟩ hI hturn
    rw [intervalPoints_of_lt hlt, flatMap_cons]
    cases stopped with
    | true =>
      cases h
      exact ⟨scan_append_of_stop hscan, hnext⟩
    | false =>
      obtain ⟨successor, hsuccessor, h⟩ := bind_eq_ok.mp h
      obtain rfl := checkedAdd_ok hsuccessor
      rw [scan_append_of_go hscan]
      exact ih (by omega) (by omega) hnext h

namespace PresburgerSet

/-- The points of the set that begin like the buffer. -/
def completions (set : PresburgerSet) (dimension : Nat) (point : List Int) : List (List Int) :=
  ((boxPoints (set.domain.sides.drop dimension)).map (point.take dimension ++ ·)).filter set.holds

variable {set : PresburgerSet} {dimension : Nat} {point : List Int}

/-- A branch that is left holds no point of the set. -/
theorem completions_eq_nil (hpoint : point.length = set.domain.rank)
    (hdimension : dimension ≤ set.domain.rank)
    (hfixed : InBox (set.domain.sides.take dimension) (point.take dimension))
    (h : set.partialConstraintsPossible point dimension = .ok false) :
    set.completions dimension point = [] := by
  apply eq_nil_iff_forall_not_mem.mpr
  intro candidate hcandidate
  obtain ⟨hbox, hholds⟩ := mem_filter.mp hcandidate
  obtain ⟨rest, hrest, rfl⟩ := mem_map.mp hbox
  have hinside : InBox set.domain.sides (point.take dimension ++ rest) := by
    rw [← take_append_drop dimension set.domain.sides]
    exact rel_append hfixed (mem_boxPoints.mp hrest)
  have hagree : (point.take dimension ++ rest).take dimension = point.take dimension :=
    take_left' (length_take_of_le (by omega))
  exact Bool.noConfusion (allPossible_of_holds hpoint hinside hagree hholds h)

/-- At a leaf the buffer is the one point left. -/
theorem completions_leaf (hpoint : point.length = set.domain.rank)
    (h : set.partialConstraintsPossible point set.domain.rank = .ok true) :
    set.completions set.domain.rank point = [point] := by
  have hholds : set.holds point = true := holds_of_allPossible h
  unfold completions
  rw [drop_of_length_le (by rw [set.domain.length_sides]),
    take_of_length_le (by omega)]
  simp [boxPoints, hholds]

/-- The bounds that the loop over a dimension reads are those of its side. -/
theorem getElem?_sides (hdimension : dimension < set.domain.rank) :
    set.domain.sides[dimension]? =
      some (set.domain.lower.getD dimension 0, set.domain.upperExclusive.getD dimension 0) := by
  have hlower : dimension < set.domain.lower.length := hdimension
  have hupper : dimension < set.domain.upperExclusive.length := set.domain.ranks ▸ hlower
  unfold PresburgerBox.sides
  simp [hlower, hupper]

theorem take_set_succ (h : dimension < point.length) :
    (point.set dimension coordinate).take (dimension + 1) = point.take dimension ++
    [coordinate] := by
  rw [take_add_one, take_set_of_le (Nat.le_refl _), getElem?_set_self h]
  rfl

/-- Above the leaves, the points below a branch are those below its coordinates, in order. -/
theorem completions_split (hpoint : point.length = set.domain.rank)
    (hdimension : dimension < set.domain.rank) :
    set.completions dimension point =
      (intervalPoints (set.domain.lower.getD dimension 0)
        (set.domain.upperExclusive.getD dimension 0)).flatMap fun coordinate =>
          set.completions (dimension + 1) (point.set dimension coordinate) := by
  obtain ⟨hbound, hside⟩ := List.getElem?_eq_some_iff.mp (getElem?_sides hdimension)
  unfold completions
  rw [drop_eq_getElem_cons hbound, hside, boxPoints, map_flatMap, filter_flatMap]
  apply flatMap_congr
  intro coordinate _
  rw [take_set_succ (by omega), map_map]
  congr 1
  apply map_congr_left
  intro rest _
  rw [Function.comp_apply, append_assoc]
  rfl

/-- A successful `enter` either leaves an empty branch or runs its body. -/
theorem enter_ok {body : Descent σ → Except PresburgerFailure (Bool × Descent σ)}
    (h : set.enter dimension body before = .ok (stop, after)) :
    ∃ work, (set.partialConstraintsPossible before.point dimension = .ok false ∧ stop = false ∧
        after = { before with work := work }) ∨
      (set.partialConstraintsPossible before.point dimension = .ok true ∧
        body { before with work := work } = .ok (stop, after)) := by
  obtain ⟨charged, hcharge, h⟩ := bind_eq_ok.mp h
  obtain ⟨-, hcharge⟩ := check_eq_ok.mp hcharge
  cases hcharge
  obtain ⟨possible, hpossible, h⟩ := bind_eq_ok.mp h
  refine ⟨before.work + 1, ?_⟩
  cases possible with
  | false =>
    cases h
    exact .inl ⟨hpossible, rfl, rfl⟩
  | true => exact .inr ⟨hpossible, h⟩

/-- What a descent does with its buffer: the coordinates above its dimension stay. -/
structure KeepsFixed (set : PresburgerSet) (dimension : Nat) (point : List Int)
    (descent : Descent σ) : Prop where
  length : descent.point.length = set.domain.rank
  fixed : descent.point.take dimension = point.take dimension

/-- A descent below a buffer whose first coordinates are fixed scans the points of the set that
    begin with them, and leaves them as they are. -/
theorem visit_ok {remaining : Nat} (hremaining : dimension + remaining = set.domain.rank)
    (hpoint : before.point.length = set.domain.rank)
    (hfixed : InBox (set.domain.sides.take dimension) (before.point.take dimension))
    (h : set.visit visitor remaining dimension before = .ok (stop, after)) :
    scan visitor (set.completions dimension before.point) before.state = .ok (stop, after.state) ∧
      KeepsFixed set dimension before.point after := by
  induction remaining generalizing dimension before after stop with
  | zero =>
    obtain rfl : dimension = set.domain.rank := hremaining
    obtain ⟨work, ⟨hempty, rfl, rfl⟩ | ⟨hpossible, h⟩⟩ := enter_ok h
    · rw [completions_eq_nil hpoint (Nat.le_refl _) hfixed hempty]
      exact ⟨rfl, hpoint, rfl⟩
    · obtain ⟨⟨stopped, state⟩, hvisitor, h⟩ := bind_eq_ok.mp h
      cases h
      rw [completions_leaf hpoint hpossible, scan_singleton]
      exact ⟨hvisitor, hpoint, rfl⟩
  | succ remaining ih =>
    have hdimension : dimension < set.domain.rank := by omega
    obtain ⟨work, ⟨hempty, rfl, rfl⟩ | ⟨hpossible, h⟩⟩ := enter_ok h
    · rw [completions_eq_nil hpoint (Nat.le_of_lt hdimension) hfixed hempty]
      exact ⟨rfl, hpoint, rfl⟩
    · -- the loop keeps the coordinates above its dimension
      rw [completions_split hpoint hdimension]
      have hturn : ∀ coordinate turn stopped next,
          set.domain.lower.getD dimension 0 ≤ coordinate ∧
            coordinate < set.domain.upperExclusive.getD dimension 0 →
          KeepsFixed set dimension before.point turn →
          set.visit visitor remaining (dimension + 1)
            { turn with point := turn.point.set dimension coordinate } = .ok (stopped, next) →
          scan visitor (set.completions (dimension + 1) (before.point.set dimension coordinate))
            turn.state = .ok (stopped, next.state) ∧
              KeepsFixed set dimension before.point next := by
        intro coordinate turn stopped next hbounds hturn hvisit
        have hbuffer : (turn.point.set dimension coordinate).take (dimension + 1) =
            before.point.take dimension ++ [coordinate] := by
          rw [take_set_succ (hturn.length ▸ hdimension), hturn.fixed]
        have hsame : set.completions (dimension + 1) (before.point.set dimension coordinate) =
            set.completions (dimension + 1) (turn.point.set dimension coordinate) := by
          unfold completions
          rw [hbuffer, take_set_succ (hpoint ▸ hdimension)]
        have hinside : InBox (set.domain.sides.take (dimension + 1))
            ((turn.point.set dimension coordinate).take (dimension + 1)) := by
          rw [hbuffer, take_add_one, getElem?_sides hdimension]
          exact rel_append hfixed (.cons hbounds .nil)
        have hlength : (turn.point.set dimension coordinate).length = set.domain.rank := by
          rw [length_set, hturn.length]
        obtain ⟨hscan, hkeeps⟩ := ih (by omega) hlength hinside hvisit
        refine ⟨hsame ▸ hscan, hkeeps.length, ?_⟩
        have hshorter := congrArg (List.take dimension) hkeeps.fixed
        rw [hbuffer, take_take, Nat.min_eq_left (Nat.le_succ _)] at hshorter
        rw [hshorter, take_left' (length_take_of_le (by omega))]
      have hstart : KeepsFixed set dimension before.point { before with work := work } :=
        ⟨hpoint, rfl⟩
      have hloop := sweep_ok hturn rfl (Int.le_refl _) hstart h
      exact hloop

/-- A query that succeeds has scanned the points of the set in lexicographic order. -/
theorem visitPoints_ok {before after : σ} (h : set.visitPoints visitor before = .ok after) :
    ∃ stop, scan visitor set.points before = .ok (stop, after) := by
  unfold visitPoints at h
  split at h
  · rename_i hempty
    cases h
    unfold points
    rw [PresburgerBox.boxPoints_of_isEmpty hempty]
    exact ⟨false, rfl⟩
  · obtain ⟨⟨stop, last⟩, hvisit, h⟩ := bind_eq_ok.mp h
    cases h
    have hscan := (visit_ok (Nat.zero_add _) rfl .nil hvisit).1
    refine ⟨stop, ?_⟩
    simpa [completions, points] using hscan

end PresburgerSet

end Fe2o3.Presburger
