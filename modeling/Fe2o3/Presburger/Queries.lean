import Fe2o3.Presburger.Search

/-!
# The Presburger queries

Every query walks through the points of a set with a visitor of its own, and turns what
the visitor found into a decision.
-/

namespace Fe2o3.Presburger

open Lib

/-! ### Decisions -/

inductive PresburgerSetDecision where
  | empty
  | witness (point : List Int)
  | incomplete (failure : PresburgerFailure)
  deriving DecidableEq

inductive PresburgerMachineRangeDecision where
  | proved
  | counterexample (domain range : List Int) (output : Nat) (value minimum maximum : Int)
    (semantics : PresburgerMachineIntSemantics)
  | incomplete (failure : PresburgerFailure)
  deriving DecidableEq

inductive PresburgerRangeDecision where
  | proved
  | counterexample (domain range : List Int)
  | incomplete (failure : PresburgerFailure)
  deriving DecidableEq

inductive PresburgerCollisionDecision where
  | proved
  | counterexample (first second range : List Int)
  | incomplete (failure : PresburgerFailure)
  deriving DecidableEq

inductive PresburgerCoverageDecision where
  | proved
  | hole (point : List Int)
  | incomplete (failure : PresburgerFailure)
  deriving DecidableEq

inductive PresburgerEquivalenceDecision where
  | proved
  | counterexample (domain first second : List Int)
  | incomplete (failure : PresburgerFailure)
  deriving DecidableEq

/-! ### Queries about one set -/

namespace PresburgerSet

/-- The frame that the queries share: walk through the set until a point passes the test, and
    turn what was found into an answer. -/
def query {β D : Type} (set : PresburgerSet) (test : List Int → Except PresburgerFailure (Option β))
    (found : β → D) (proved : D) (incomplete : PresburgerFailure → D) : D :=
  match set.visitPoints (probe test) none with
  | .ok (some b) => found b
  | .ok none => proved
  | .error failure => incomplete failure

/-- The search for a point is the walk that stops at the first point it is shown. -/
def findWitness (set : PresburgerSet) : PresburgerSetDecision :=
  set.query (fun point => .ok (some point)) .witness .empty .incomplete

end PresburgerSet

/-! ### Queries about maps -/

namespace PresburgerMap

variable (map : PresburgerMap)

/-- No answer is a panic in the computation of the bounds. -/
def findMachineOverflow (overflowChecks : Bool) (semantics : PresburgerMachineIntSemantics) :
    Option PresburgerMachineRangeDecision := do
  let (minimum, maximum) ← semantics.bounds overflowChecks
  some (map.domain.query
    (fun point => do
      let range ← map.evaluate point
      .ok ((range.zipIdx.find? fun entry => entry.1 < minimum || entry.1 > maximum).map
        fun entry => (point, range, entry.2, entry.1)))
    (fun (domain, range, output, value) =>
      .counterexample domain range output value minimum maximum semantics)
    .proved .incomplete)

def findOutOfBounds (extents : List Nat) : PresburgerRangeDecision :=
  if extents.length ≠ map.outputs.length then
    .incomplete (.invalidModel "range extent rank differs from map result rank")
  else
    map.domain.query
      (fun point => do
        let range ← map.evaluate point
        .ok (if (range.zip extents).any fun side => side.1 < 0 || side.1 ≥ side.2 then
          some (point, range) else none))
      (fun (domain, range) => .counterexample domain range) .proved .incomplete

/-- The owners of the images seen so far, the newest entry of an image first. -/
abbrev Owners (α : Type) := List (List Int × α)

def collisionVisitor (point : List Int)
    (state : Owners (List Int) × Option (List Int × List Int × List Int)) :
    Except PresburgerFailure
      (Bool × Owners (List Int) × Option (List Int × List Int × List Int)) := do
  let (owners, collision) := state
  let range ← map.evaluate point
  match owners.lookup range with
  | some first =>
    if first ≠ point then .ok (true, owners, some (first, point, range))
    else .ok (false, (range, point) :: owners, collision)
  | none => .ok (false, (range, point) :: owners, collision)

def findCollision : PresburgerCollisionDecision :=
  match map.domain.visitPoints map.collisionVisitor ([], none) with
  | .ok (_, some (first, second, range)) => .counterexample first second range
  | .ok (_, none) => .proved
  | .error failure => .incomplete failure

/-- The first pass of `findCrossCollision` keeps two owners of every image. -/
def ownersVisitor (point : List Int) (owners : Owners (List Int × Option (List Int))) :
    Except PresburgerFailure (Bool × Owners (List Int × Option (List Int))) := do
  let range ← map.evaluate point
  match owners.lookup range with
  | none => .ok (false, (range, point, none) :: owners)
  | some (first, second) =>
    if first ≠ point ∧ second = none then .ok (false, (range, first, some point) :: owners)
    else .ok (false, owners)

/-- The owner that the second pass of `findCrossCollision` takes for a collision. -/
def collidingOwner (requireDistinctPoints : Bool) (point : List Int) :
    List Int × Option (List Int) → Option (List Int)
  | (first, alternate) =>
    if !requireDistinctPoints || first ≠ point then some first else alternate

def findCrossCollision (map other : PresburgerMap) (requireDistinctPoints : Bool) :
    PresburgerCollisionDecision :=
  if map.outputs.length ≠ other.outputs.length then
    .incomplete (.invalidModel "collision maps have different result ranks")
  else
    match map.domain.visitPoints map.ownersVisitor [] with
    | .error failure => .incomplete failure
    | .ok owners =>
      other.domain.query
        (fun point => do
          let range ← other.evaluate point
          .ok (((owners.lookup range).bind (collidingOwner requireDistinctPoints point)).map
            fun first => (first, point, range)))
        (fun (first, second, range) => .counterexample first second range) .proved .incomplete

def findMismatch (map other : PresburgerMap) : PresburgerEquivalenceDecision :=
  if map.domain ≠ other.domain ∨ map.outputs.length ≠ other.outputs.length then
    .incomplete
      (.invalidModel "pointwise map comparison requires identical domains and result ranks")
  else
    map.domain.query
      (fun point => do
        let first ← map.evaluate point
        let second ← other.evaluate point
        .ok (if first ≠ second then some (point, first, second) else none))
      (fun (domain, first, second) => .counterexample domain first second) .proved .incomplete

end PresburgerMap

/-- A finite image, with points of one rank. -/
structure PresburgerFiniteImage where
  rank : Nat
  points : List (List Int)
  limited : rank ≤ maxPresburgerOutputs
  ranked : points.all (fun point => point.length == rank) = true

namespace PresburgerFiniteImage

def new (rank : Nat) (points : List (List Int)) : Except PresburgerFailure PresburgerFiniteImage :=
  if limited : rank ≤ maxPresburgerOutputs then
    if ranked : points.all (fun point => point.length == rank) = true then
      .ok ⟨rank, points, limited, ranked⟩
    else .error (.invalidModel "finite image point rank is inconsistent")
  else .error (.invalidModel "finite image rank exceeds the Presburger output limit")

def findUncovered (image : PresburgerFiniteImage) (extents : List Nat) :
    PresburgerCoverageDecision :=
  if extents.length ≠ image.rank then
    .incomplete (.invalidModel "coverage extent rank differs from finite image rank")
  else
    match PresburgerBox.zeroBased extents with
    | .error failure => .incomplete failure
    | .ok range =>
      (PresburgerSet.boxOnly range).query
        (fun point => .ok (if !image.points.contains point then some point else none))
        .hole .proved .incomplete

end PresburgerFiniteImage

namespace PresburgerMap

def imageVisitor (map : PresburgerMap) (extents : List Nat) (point : List Int)
    (image : List (List Int)) : Except PresburgerFailure (Bool × List (List Int)) := do
  let range ← map.evaluate point
  if (range.zip extents).all fun side => side.1 ≥ 0 && side.1 < side.2 then
    .ok (false, range :: image)
  else .ok (false, image)

def findUncovered (map : PresburgerMap) (extents : List Nat) : PresburgerCoverageDecision :=
  if extents.length ≠ map.outputs.length then
    .incomplete (.invalidModel "coverage extent rank differs from map result rank")
  else
    match map.domain.visitPoints (map.imageVisitor extents) [] with
    | .error failure => .incomplete failure
    | .ok image =>
      match PresburgerFiniteImage.new extents.length image with
      | .ok image => image.findUncovered extents
      | .error failure => .incomplete failure

end PresburgerMap

end Fe2o3.Presburger
