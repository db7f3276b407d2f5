import Fe2o3.Presburger.Collisions

/-!
# Coverage, and all queries together
-/

namespace Fe2o3.Presburger

open Lib

/-! ### Coverage -/

variable {point : List Int}

theorem PresburgerSet.member_boxOnly {domain : PresburgerBox} :
    (boxOnly domain).Member point ↔ InBox domain.sides point :=
  and_iff_left rfl

theorem PresburgerFiniteImage.new_points {rank : Nat} {points : List (List Int)}
    {image : PresburgerFiniteImage} (h : new rank points = .ok image) : image.points = points := by
  unfold new at h
  split at h
  · split at h
    · cases h
      rfl
    · nomatch h
  · nomatch h

theorem PresburgerFiniteImage.findUncovered_exact (image : PresburgerFiniteImage)
    (extents : List Nat) :
    (∃ failure, image.findUncovered extents = .incomplete failure) ∨
      Exact .proved (∀ point, InExtents extents point → point ∈ image.points)
        (PresburgerCoverageDecision.Real (· ∈ image.points) extents)
        (image.findUncovered extents) := by
  unfold findUncovered
  split
  · exact .inl ⟨_, rfl⟩
  cases hrange : PresburgerBox.zeroBased extents with
  | error failure => exact .inl ⟨failure, rfl⟩
  | ok range =>
    have hmember : ∀ point, (PresburgerSet.boxOnly range).Member point ↔
        InExtents extents point := by
      intro point
      rw [PresburgerSet.member_boxOnly, inBox_zeroBased hrange]
    apply PresburgerSet.query_exact
    · intro hall point hpoint
      have htest := Except.ok.inj (hall point ((hmember point).mpr hpoint))
      by_contra hhole
      simp [hhole] at htest
    · intro point hole hpoint htest
      split at htest
      · rename_i hhole
        cases htest
        have hreal : point ∉ image.points := by simpa using hhole
        have hinside := (hmember point).mp hpoint
        exact ⟨nofun, ⟨hinside, hreal⟩, fun hall => hreal (hall point hinside)⟩
      · nomatch htest

namespace PresburgerMap

/-- The walk keeps the images inside the extents. -/
def ImagesOf (map : PresburgerMap) (extents : List Nat) (seen image : List (List Int)) : Prop :=
  ∀ range, range ∈ image ↔
    InExtents extents range ∧ ∃ source ∈ seen, map.image source = range

theorem ImagesOf.step {map : PresburgerMap} {extents : List Nat}
    {seen before after : List (List Int)} {stop : Bool}
    (hranks : extents.length = map.outputs.length) (h : map.ImagesOf extents seen before)
    (hvisit : map.imageVisitor extents point before = .ok (stop, after)) :
    stop = false ∧ map.ImagesOf extents (seen ++ [point]) after := by
  have hvisit := of_evaluate hvisit
  have hlength : extents.length = (map.image point).length := by rw [length_image, hranks]
  have hsources : ∀ range, (∃ source ∈ seen ++ [point], map.image source = range) ↔
      (∃ source ∈ seen, map.image source = range) ∨ map.image point = range := by
    simp [or_and_right, exists_or]
  split at hvisit
  · rename_i hall
    have hinside := (inExtents_iff_all hlength).mpr hall
    cases hvisit
    refine ⟨rfl, fun range => ?_⟩
    rw [List.mem_cons, h range, hsources]
    constructor
    · rintro (rfl | ⟨hrange, hsource⟩)
      · exact ⟨hinside, .inr rfl⟩
      · exact ⟨hrange, .inl hsource⟩
    · rintro ⟨hrange, hsource | hsame⟩
      · exact .inr ⟨hrange, hsource⟩
      · exact .inl hsame.symm
  · rename_i hall
    have houtside := mt (inExtents_iff_all hlength).mp hall
    cases hvisit
    refine ⟨rfl, fun range => ?_⟩
    rw [h range, hsources]
    constructor
    · rintro ⟨hrange, hsource⟩
      exact ⟨hrange, .inl hsource⟩
    · rintro ⟨hrange, hsource | rfl⟩
      · exact ⟨hrange, hsource⟩
      · exact absurd hrange houtside

theorem findUncovered_exact (map : PresburgerMap) (extents : List Nat) :
    (∃ failure, map.findUncovered extents = .incomplete failure) ∨
      Exact .proved
        (∀ point, InExtents extents point →
          ∃ source, map.domain.Member source ∧ map.image source = point)
        (PresburgerCoverageDecision.Real
          (fun point => ∃ source, map.domain.Member source ∧ map.image source = point) extents)
        (map.findUncovered extents) := by
  unfold findUncovered
  split
  · exact .inl ⟨_, rfl⟩
  rename_i hranks
  cases hvisit : map.domain.visitPoints (map.imageVisitor extents) [] with
  | error failure => exact .inl ⟨failure, rfl⟩
  | ok points =>
    dsimp only
    cases hnew : PresburgerFiniteImage.new extents.length points with
    | error failure => exact .inl ⟨failure, rfl⟩
    | ok image =>
      obtain ⟨stop, hscan⟩ := PresburgerSet.visitPoints_ok hvisit
      have hstart : map.ImagesOf extents [] [] := fun range => by simp
      have hend := scan_cases (map.ImagesOf extents) hstart
        (fun _ _ _ _ _ _ h hvisit => (h.step (not_not.mp hranks) hvisit).2) hscan
      obtain ⟨-, himages⟩ | ⟨-, seen, point, rest, before, -, hbefore, hstop⟩ := hend
      · have hcovered : ∀ point, InExtents extents point → (point ∈ image.points ↔
            ∃ source, map.domain.Member source ∧ map.image source = point) := by
          intro point hpoint
          rw [PresburgerFiniteImage.new_points hnew, himages point, and_iff_right hpoint]
          simp only [PresburgerSet.mem_points]
        refine (image.findUncovered_exact extents).imp_right fun hexact => ?_
        refine hexact.congr (forall₂_congr hcovered) fun decision hreal => ?_
        cases decision with
        | proved => exact hreal
        | incomplete failure => exact hreal
        | hole point => exact ⟨hreal.1, mt (hcovered point hreal.1).mpr hreal.2⟩
      · nomatch (hbefore.step (not_not.mp hranks) hstop).1

end PresburgerMap

/-- **The Presburger queries are exact decisions.**  Unless an answer is incomplete, the search
    for a point says "empty" precisely when the set has no point and otherwise gives the least
    one, every other query says "proved" precisely when its property holds of all points, and
    what it reports instead is a real counterexample with its exact images.  The search for an
    overflow is exact wherever its bounds can be computed. -/
theorem presburger_queries_exact (set : PresburgerSet) (map other : PresburgerMap)
    (image : PresburgerFiniteImage) (extents : List Nat) (distinct overflowChecks : Bool)
    (semantics : PresburgerMachineIntSemantics) :
    ((∃ failure, set.findWitness = .incomplete failure) ∨
      (set.findWitness = .empty ↔ ∀ point, ¬set.Member point) ∧
        ∀ point, set.findWitness = .witness point ↔
          IsLeast {point | set.Member point} point) ∧
    ((overflowChecks = true → semantics.signed = false → semantics.bits < 127) →
      ∃ answer, map.findMachineOverflow overflowChecks semantics = some answer ∧
        ((∃ failure, answer = .incomplete failure) ∨
          Exact .proved
            (∀ point, map.domain.Member point → ∀ value ∈ map.image point,
              value ∈ semantics.range)
            (PresburgerMachineRangeDecision.Real map semantics) answer)) ∧
    ((∃ failure, map.findOutOfBounds extents = .incomplete failure) ∨
      Exact .proved (∀ point, map.domain.Member point → InExtents extents (map.image point))
        (PresburgerRangeDecision.Real map extents) (map.findOutOfBounds extents)) ∧
    ((∃ failure, map.findCollision = .incomplete failure) ∨
      Exact .proved
        (∀ first second, map.domain.Member first → map.domain.Member second → first ≠ second →
          map.image first ≠ map.image second)
        (PresburgerCollisionDecision.Real map map true) map.findCollision) ∧
    ((∃ failure, map.findCrossCollision other distinct = .incomplete failure) ∨
      Exact .proved
        (∀ first second, map.domain.Member first → other.domain.Member second →
          (distinct = true → first ≠ second) → map.image first ≠ other.image second)
        (PresburgerCollisionDecision.Real map other distinct)
        (map.findCrossCollision other distinct)) ∧
    ((∃ failure, map.findMismatch other = .incomplete failure) ∨
      Exact .proved (∀ point, map.domain.Member point → map.image point = other.image point)
        (PresburgerEquivalenceDecision.Real map other) (map.findMismatch other)) ∧
    ((∃ failure, map.findUncovered extents = .incomplete failure) ∨
      Exact .proved
        (∀ point, InExtents extents point →
          ∃ source, map.domain.Member source ∧ map.image source = point)
        (PresburgerCoverageDecision.Real
          (fun point => ∃ source, map.domain.Member source ∧ map.image source = point) extents)
        (map.findUncovered extents)) ∧
    ((∃ failure, image.findUncovered extents = .incomplete failure) ∨
      Exact .proved (∀ point, InExtents extents point → point ∈ image.points)
        (PresburgerCoverageDecision.Real (· ∈ image.points) extents)
        (image.findUncovered extents)) :=
  ⟨set.findWitness_exact, map.findMachineOverflow_exact, map.findOutOfBounds_exact extents,
    map.findCollision_exact, map.findCrossCollision_exact other distinct,
    map.findMismatch_exact other, map.findUncovered_exact extents,
      image.findUncovered_exact extents⟩

/-- The points from 0 to 3 and their doubles: every query has an answer. -/
theorem presburger_queries_exact_doubling :
    ∃ (map : PresburgerMap) (word : PresburgerMachineIntSemantics), word.bits = 64 ∧
      map.domain.findWitness = .witness [0] ∧ map.findMachineOverflow true word = some .proved ∧
      map.findMachineOverflow true ⟨2, false, by decide⟩ =
        some (.counterexample [2] [4] 0 4 0 3 ⟨2, false, by decide⟩) ∧
      map.findOutOfBounds [7] = .proved ∧ map.findCollision = .proved ∧
      map.findCrossCollision map false = .counterexample [0] [0] [0] ∧
      map.findMismatch map = .proved ∧ map.findUncovered [7] = .hole [1] ∧
      ∀ point, map.domain.Member point → ∀ value ∈ map.image point, value ∈ word.range := by
  let map : PresburgerMap := ⟨.boxOnly ⟨[0], [4], rfl, by decide⟩,
    [.affine ⟨0, [2], by decide⟩], by decide, by decide⟩
  let word : PresburgerMachineIntSemantics := ⟨64, false, by decide⟩
  have hproved : map.findMachineOverflow true word = some .proved := by decide +kernel
  refine ⟨map, word, rfl, by decide +kernel, hproved, by decide +kernel, by decide +kernel,
    by decide +kernel, by decide +kernel, by decide +kernel, by decide +kernel, ?_⟩
  rcases (presburger_queries_exact map.domain map map ⟨1, [], by decide, rfl⟩ [7] true true
    word).2.1 (fun _ _ => by decide) with ⟨answer, hanswer, hexact⟩
  cases hproved.symm.trans hanswer
  rcases hexact with ⟨failure, hfailure⟩ | hexact
  · cases hfailure
  · exact hexact.1.mp rfl

/-- `new` accepts unsigned integers of 127 bits, and the search for one that overflows panics. -/
theorem unsigned_bounds_overflow :
    ∃ semantics, PresburgerMachineIntSemantics.new 127 false = .ok semantics ∧
      ∀ map : PresburgerMap, map.findMachineOverflow true semantics = none :=
  ⟨⟨127, false, by decide⟩, rfl, fun _ => rfl⟩

end Fe2o3.Presburger
