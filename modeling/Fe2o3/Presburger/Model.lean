import Fe2o3.Lib.IntBox
import Fe2o3.Lib.Outcome

/-!
# Presburger sets and maps

Finite integer boxes, affine expressions in checked 128-bit arithmetic, conjunctions of
affine constraints and congruences, and affine or remainder maps.  A value that the
constructors would refuse cannot be built: the limits and the agreement of the ranks are
fields.
-/

namespace Fe2o3.Presburger

open Lib List

def maxPresburgerVariables : Nat := 16
def maxPresburgerConstraints : Nat := 256
def maxPresburgerOutputs : Nat := 16
def maxPresburgerWorkUnits : Nat := 1048576

inductive PresburgerFailure where
  | invalidModel (detail : String)
  | unsupported (detail : String)
  | machineIntegerOverflow (bits : Nat) (signed : Bool)
  | arithmeticOverflow
  | resourceLimit (limit actual : Nat)
  deriving DecidableEq, Repr

/-! ### Signed 128-bit arithmetic -/

/-- A result, if it fits into a signed 128-bit integer. -/
def fitting (value : Int) : Option Int :=
  if -2 ^ 127 ≤ value ∧ value < 2 ^ 127 then some value else none

def checkedAdd (left right : Int) : Except PresburgerFailure Int :=
  okOr .arithmeticOverflow (fitting (left + right))

def checkedSub (left right : Int) : Except PresburgerFailure Int :=
  okOr .arithmeticOverflow (fitting (left - right))

def checkedMul (left right : Int) : Except PresburgerFailure Int :=
  okOr .arithmeticOverflow (fitting (left * right))

/-- `left - right` without a check of the code's own: an overflow panics if the build has
    overflow checks, and wraps around if not. -/
def plainSub (overflowChecks : Bool) (left right : Int) : Option Int :=
  (fitting (left - right)).or
    (if overflowChecks then none else some ((left - right).bmod (2 ^ 128)))

/-- `1_i128 << shift`, where bit 127 is the sign. -/
def bit (shift : Nat) : Int := if shift = 127 then -2 ^ 127 else 2 ^ shift

theorem fitting_eq_some {value result : Int} (h : fitting value = some result) :
    result = value := by
  unfold fitting at h
  split at h
  · exact (Option.some.inj h).symm
  · nomatch h

variable {left right result : Int}

theorem checkedAdd_ok (h : checkedAdd left right = .ok result) : result = left + right :=
  fitting_eq_some (okOr_eq_ok.mp h)

theorem checkedSub_ok (h : checkedSub left right = .ok result) : result = left - right :=
  fitting_eq_some (okOr_eq_ok.mp h)

theorem checkedMul_ok (h : checkedMul left right = .ok result) : result = left * right :=
  fitting_eq_some (okOr_eq_ok.mp h)

/-- One term of an affine sum: `sum + coefficient * coordinate`, checked twice. -/
def checkedTerm (sum coefficient coordinate : Int) : Except PresburgerFailure Int := do
  let product ← checkedMul coefficient coordinate
  checkedAdd sum product

theorem checkedTerm_ok {sum coefficient coordinate result : Int}
    (h : checkedTerm sum coefficient coordinate = .ok result) :
    result = sum + coefficient * coordinate := by
  obtain ⟨product, hproduct, hsum⟩ := bind_eq_ok.mp h
  rw [checkedAdd_ok hsum, checkedMul_ok hproduct]

/-! ### Boxes -/

structure PresburgerBox where
  lower : List Int
  upperExclusive : List Int
  ranks : lower.length = upperExclusive.length
  limited : lower.length ≤ maxPresburgerVariables
  deriving DecidableEq

variable {point : List Int}

namespace PresburgerBox

def new (lower upperExclusive : List Int) : Except PresburgerFailure PresburgerBox :=
  if ranks : lower.length = upperExclusive.length then
    if limited : lower.length ≤ maxPresburgerVariables then
      .ok ⟨lower, upperExclusive, ranks, limited⟩
    else .error (.invalidModel "box rank exceeds the Presburger variable limit")
  else .error (.invalidModel "box bound vectors have different ranks")

def zeroBased (extents : List Nat) : Except PresburgerFailure PresburgerBox :=
  new (List.replicate extents.length 0) (extents.map Int.ofNat)

variable (domain : PresburgerBox)

def rank : Nat :=
  domain.lower.length

/-- The bounds of each dimension. -/
def sides : List (Int × Int) :=
  domain.lower.zip domain.upperExclusive

def isEmpty : Bool :=
  domain.sides.any fun side => side.1 ≥ side.2

theorem length_sides : domain.sides.length = domain.rank := by
  unfold sides rank
  rw [length_zip, ← domain.ranks, Nat.min_self]

theorem boxPoints_of_isEmpty {domain : PresburgerBox} (h : domain.isEmpty = true) :
    boxPoints domain.sides = [] := by
  obtain ⟨side, hside, hempty⟩ := any_eq_true.mp h
  exact boxPoints_eq_nil ⟨side, hside, of_decide_eq_true hempty⟩

theorem length_of_inBox {domain : PresburgerBox} (h : InBox domain.sides point) :
    point.length = domain.rank := by
  rw [← h.length_eq, domain.length_sides]

end PresburgerBox

/-! ### Affine expressions -/

structure PresburgerAffineExpr where
  constant : Int
  coefficients : List Int
  limited : coefficients.length ≤ maxPresburgerVariables
  deriving DecidableEq

namespace PresburgerAffineExpr

def new (constant : Int) (coefficients : List Int) :
    Except PresburgerFailure PresburgerAffineExpr :=
  if limited : coefficients.length ≤ maxPresburgerVariables then
    .ok ⟨constant, coefficients, limited⟩
  else .error (.invalidModel "affine expression rank exceeds the Presburger variable limit")

def evaluate (expression : PresburgerAffineExpr) (point : List Int) :
    Except PresburgerFailure Int :=
  if point.length ≠ expression.coefficients.length then
    .error (.invalidModel "point rank differs from affine expression rank")
  else
    (expression.coefficients.zip point).foldlM
      (fun value term => checkedTerm value term.1 term.2) expression.constant

/-- One turn of the loop of `interval`: the dimension's coefficient, its coordinate in the
    point buffer, and its bounds. -/
def intervalStep (assigned : Nat) (bounds : Int × Int) (row : (Int × Int × Int × Int) × Nat) :
    Except PresburgerFailure (Int × Int) := do
  let ((coefficient, coordinate, lower, upperExclusive), dimension) := row
  let (low, high) ←
    if dimension < assigned then .ok (coordinate, coordinate)
    else do
      let upper ← checkedSub upperExclusive 1
      .ok (if coefficient ≥ 0 then (lower, upper) else (upper, lower))
  let minimum ← checkedTerm bounds.1 coefficient low
  let maximum ← checkedTerm bounds.2 coefficient high
  .ok (minimum, maximum)

/-- Bounds of the expression over the points of the domain that agree with `point` in the first
    `assigned` dimensions. -/
def interval (expression : PresburgerAffineExpr) (point : List Int) (assigned : Nat)
    (domain : PresburgerBox) : Except PresburgerFailure (Int × Int) :=
  if expression.coefficients.length ≠ domain.rank ∨ point.length ≠ domain.rank then
    .error (.invalidModel "constraint expression rank differs from its domain")
  else
    (expression.coefficients.zip (point.zip domain.sides)).zipIdx.foldlM (intervalStep assigned)
      (expression.constant, expression.constant)

end PresburgerAffineExpr

/-! ### Sets -/

inductive PresburgerConstraint where
  | lessEqualZero (expression : PresburgerAffineExpr)
  | equalZero (expression : PresburgerAffineExpr)
  | congruentZero (expression : PresburgerAffineExpr) (modulus : Int)
  deriving DecidableEq

namespace PresburgerConstraint

/-- The check that `PresburgerSet.new` makes of one constraint. -/
def wellFormed (rank : Nat) : PresburgerConstraint → Bool
  | .lessEqualZero expression => expression.coefficients.length == rank
  | .equalZero expression => expression.coefficients.length == rank
  | .congruentZero expression modulus =>
    expression.coefficients.length == rank && decide (modulus > 0)

/-- Whether the constraint may still hold once the first `assigned` coordinates are fixed. -/
def possible (domain : PresburgerBox) (point : List Int) (assigned : Nat) :
    PresburgerConstraint → Except PresburgerFailure Bool
  | .lessEqualZero expression => do
    let (minimum, _) ← expression.interval point assigned domain
    .ok (decide (minimum ≤ 0))
  | .equalZero expression => do
    let (minimum, maximum) ← expression.interval point assigned domain
    .ok (decide (minimum ≤ 0) && decide (maximum ≥ 0))
  | .congruentZero expression modulus =>
    if assigned = domain.rank then do
      let value ← expression.evaluate point
      .ok (value % modulus == 0)
    else .ok true

end PresburgerConstraint

structure PresburgerSet where
  domain : PresburgerBox
  constraints : List PresburgerConstraint
  limited : constraints.length ≤ maxPresburgerConstraints
  wellFormed : constraints.all (PresburgerConstraint.wellFormed domain.rank) = true
  deriving DecidableEq

namespace PresburgerSet

def new (domain : PresburgerBox) (constraints : List PresburgerConstraint) :
    Except PresburgerFailure PresburgerSet :=
  if limited : constraints.length ≤ maxPresburgerConstraints then
    if wellFormed : constraints.all (PresburgerConstraint.wellFormed domain.rank) = true then
      .ok ⟨domain, constraints, limited, wellFormed⟩
    else .error (.invalidModel "constraint rank or modulus is invalid")
  else .error (.invalidModel "constraint count exceeds the Presburger limit")

def boxOnly (domain : PresburgerBox) : PresburgerSet :=
  ⟨domain, [], Nat.zero_le _, rfl⟩

/-- The loop over the constraints, which ends at the first that cannot hold. -/
def allPossible (domain : PresburgerBox) (point : List Int) (assigned : Nat) :
    List PresburgerConstraint → Except PresburgerFailure Bool
  | [] => .ok true
  | constraint :: rest => do
    let possible ← constraint.possible domain point assigned
    if !possible then .ok false else allPossible domain point assigned rest

def partialConstraintsPossible (set : PresburgerSet) (point : List Int) (assigned : Nat) :
    Except PresburgerFailure Bool :=
  allPossible set.domain point assigned set.constraints

end PresburgerSet

/-! ### Maps -/

inductive PresburgerMapExpr where
  | affine (expression : PresburgerAffineExpr)
  | remainder (dividend : PresburgerAffineExpr) (modulus : Int)
  deriving DecidableEq

namespace PresburgerMapExpr

def evaluate (point : List Int) : PresburgerMapExpr → Except PresburgerFailure Int
  | .affine expression => expression.evaluate point
  | .remainder dividend modulus =>
    if modulus > 0 then do
      let value ← dividend.evaluate point
      .ok (value % modulus)
    else .error (.invalidModel "remainder map modulus must be positive")

def rank : PresburgerMapExpr → Nat
  | .affine expression => expression.coefficients.length
  | .remainder dividend _ => dividend.coefficients.length

end PresburgerMapExpr

structure PresburgerMap where
  domain : PresburgerSet
  outputs : List PresburgerMapExpr
  limited : outputs.length ≤ maxPresburgerOutputs
  ranked : outputs.all (fun output => output.rank == domain.domain.rank) = true
  deriving DecidableEq

namespace PresburgerMap

def new (domain : PresburgerSet) (outputs : List PresburgerMapExpr) :
    Except PresburgerFailure PresburgerMap :=
  if accepted : outputs.length ≤ maxPresburgerOutputs ∧
      outputs.all (fun output => output.rank == domain.domain.rank) = true then
    .ok ⟨domain, outputs, accepted.1, accepted.2⟩
  else .error (.invalidModel "map result count or expression rank is invalid")

def evaluate (map : PresburgerMap) (point : List Int) : Except PresburgerFailure (List Int) :=
  map.outputs.mapM (PresburgerMapExpr.evaluate point)

end PresburgerMap

structure PresburgerMachineIntSemantics where
  bits : Nat
  signed : Bool
  width : 0 < bits ∧ bits ≤ 127
  deriving DecidableEq

namespace PresburgerMachineIntSemantics

def new (bits : Nat) (signed : Bool) : Except PresburgerFailure PresburgerMachineIntSemantics :=
  if width : 0 < bits ∧ bits ≤ 127 then .ok ⟨bits, signed, width⟩
  else .error (.invalidModel "machine-integer width must be between 1 and 127 bits")

/-- The ends of the range, in plain 128-bit arithmetic. -/
def bounds (overflowChecks : Bool) (semantics : PresburgerMachineIntSemantics) :
    Option (Int × Int) :=
  if semantics.signed then do
    let magnitude := bit (semantics.bits - 1)
    some (← plainSub overflowChecks 0 magnitude, ← plainSub overflowChecks magnitude 1)
  else do
    some (0, ← plainSub overflowChecks (bit semantics.bits) 1)

end PresburgerMachineIntSemantics

/-! ### What the expressions mean

The exact integers, without a width. -/

/-- The linear part of an affine expression. -/
def linearValue (coefficients point : List Int) : Int :=
  ((coefficients.zip point).map fun term => term.1 * term.2).sum

theorem linearValue_cons (coefficient coordinate : Int) (coefficients point : List Int) :
    linearValue (coefficient :: coefficients) (coordinate :: point) =
      coefficient * coordinate + linearValue coefficients point := by
  simp [linearValue]

def PresburgerAffineExpr.value (expression : PresburgerAffineExpr) (point : List Int) : Int :=
  expression.constant + linearValue expression.coefficients point

def PresburgerConstraint.holds (point : List Int) : PresburgerConstraint → Bool
  | .lessEqualZero expression => decide (expression.value point ≤ 0)
  | .equalZero expression => decide (expression.value point = 0)
  | .congruentZero expression modulus => decide (modulus ∣ expression.value point)

def PresburgerSet.holds (set : PresburgerSet) (point : List Int) : Bool :=
  set.constraints.all (PresburgerConstraint.holds point)

/-- An integer point of the box that satisfies all constraints. -/
def PresburgerSet.Member (set : PresburgerSet) (point : List Int) : Prop :=
  InBox set.domain.sides point ∧ set.holds point = true

/-- The points of the set, in lexicographic order. -/
def PresburgerSet.points (set : PresburgerSet) : List (List Int) :=
  (boxPoints set.domain.sides).filter set.holds

theorem PresburgerSet.mem_points {set : PresburgerSet} : point ∈ set.points ↔ set.Member point := by
  unfold points Member
  rw [mem_filter, mem_boxPoints]

theorem PresburgerSet.points_ascending (set : PresburgerSet) : set.points.Pairwise (· < ·) :=
  (boxPoints_ascending set.domain.sides).filter _

def PresburgerMapExpr.value (point : List Int) : PresburgerMapExpr → Int
  | .affine expression => expression.value point
  | .remainder dividend modulus => dividend.value point % modulus

/-- The image of a point under a map. -/
def PresburgerMap.image (map : PresburgerMap) (point : List Int) : List Int :=
  map.outputs.map (PresburgerMapExpr.value point)

/-! ### Evaluation is exact -/

theorem foldlM_checkedTerm_ok {terms : List (Int × Int)} {sum result : Int}
    (h : terms.foldlM (fun value term => checkedTerm value term.1 term.2) sum = .ok result) :
    result = sum + (terms.map fun term => term.1 * term.2).sum := by
  induction terms generalizing sum with
  | nil =>
    cases h
    simp
  | cons term terms ih =>
    obtain ⟨next, hnext, hrest⟩ := bind_eq_ok.mp h
    rw [ih hrest, checkedTerm_ok hnext, map_cons, sum_cons, Int.add_assoc]

theorem PresburgerAffineExpr.evaluate_ok {expression : PresburgerAffineExpr} {value : Int}
    (h : expression.evaluate point = .ok value) : value = expression.value point := by
  obtain ⟨-, h⟩ := check_eq_ok.mp h
  exact foldlM_checkedTerm_ok h

theorem PresburgerMapExpr.evaluate_ok {output : PresburgerMapExpr} {value : Int}
    (h : output.evaluate point = .ok value) : value = output.value point := by
  cases output with
  | affine expression => exact PresburgerAffineExpr.evaluate_ok h
  | remainder dividend modulus =>
    rw [evaluate] at h
    split at h
    · obtain ⟨exact, hexact, hvalue⟩ := bind_eq_ok.mp h
      cases hvalue
      rw [PresburgerAffineExpr.evaluate_ok hexact]
      rfl
    · nomatch h

/-- What follows an evaluation goes on with the image. -/
theorem PresburgerMap.of_evaluate {map : PresburgerMap} {point : List Int} {α : Type}
    {f : List Int → Except PresburgerFailure α} {result : α}
    (h : (map.evaluate point >>= f) = .ok result) : f (map.image point) = .ok result := by
  obtain ⟨range, hrange, h⟩ := bind_eq_ok.mp h
  have himage : range = map.outputs.map (PresburgerMapExpr.value point) := by
    have hvalues := mapM_eq_ok hrange
    clear hrange h
    generalize map.outputs = outputs at hvalues ⊢
    induction hvalues with
    | nil => rfl
    | cons hfirst _ ih => rw [map_cons, PresburgerMapExpr.evaluate_ok hfirst, ih]
  rwa [himage] at h

end Fe2o3.Presburger
