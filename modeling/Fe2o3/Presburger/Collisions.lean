import Fe2o3.Presburger.Exactness

/-!
# The collision queries are exact

The walk remembers who owns an image.  For one map the first owner is enough; across two
maps a second owner stands in when the first is the very point that is looked at.
-/

namespace Fe2o3.Presburger

open Lib List

variable {range first : List Int} {distinct : Bool}

namespace PresburgerMap

variable (map other : PresburgerMap)

/-! ### Collisions -/

theorem lookup_insert {α : Type} {owners : Owners α} {other : List Int} {owner : α} :
    List.lookup other ((range, owner) :: owners) =
      if other = range then some owner else owners.lookup other := by
  rw [List.lookup_cons]
  by_cases hsame : other = range
  · simp [hsame]
  · simp [hsame, beq_eq_false_iff_ne.mpr hsame]

/-- While no collision is found, every point seen owns its image alone. -/
structure OwnedAlone (seen : List (List Int))
    (state : Owners (List Int) × Option (List Int × List Int × List Int)) : Prop where
  quiet : state.2 = none
  owned : ∀ point ∈ seen, state.1.lookup (map.image point) = some point
  owner : ∀ range owner, state.1.lookup range = some owner → owner ∈ seen ∧ map.image owner = range

section Collisions

variable {map} {seen : List (List Int)} {point : List Int}

/-- A new owner is entered only where there was none, or the point itself. -/
theorem OwnedAlone.insert {owners : Owners (List Int)}
    {collision : Option (List Int × List Int × List Int)}
    (h : map.OwnedAlone seen (owners, collision))
    (hfree : ∀ first, owners.lookup (map.image point) = some first → first = point) :
    map.OwnedAlone (seen ++ [point]) ((map.image point, point) :: owners, collision) where
  quiet := h.quiet
  owned := by
    intro other hother
    rw [lookup_insert]
    split
    · rename_i hsame
      obtain hseen | hnew := mem_append.mp hother
      · rw [hfree other (hsame ▸ h.owned other hseen)]
      · rw [mem_singleton.mp hnew]
    · rename_i hdiffers
      obtain hseen | hnew := mem_append.mp hother
      · exact h.owned other hseen
      · exact absurd (congrArg map.image (mem_singleton.mp hnew)) hdiffers
  owner := by
    intro range owner hlookup
    rw [lookup_insert] at hlookup
    split at hlookup
    · rename_i hsame
      cases hlookup
      exact ⟨mem_append_right _ (mem_singleton_self _), hsame.symm⟩
    · obtain ⟨hseen, himage⟩ := h.owner range owner hlookup
      exact ⟨mem_append_left _ hseen, himage⟩

variable {before after : Owners (List Int) × Option (List Int × List Int × List Int)}

theorem OwnedAlone.step (h : map.OwnedAlone seen before)
    (hvisit : map.collisionVisitor point before = .ok (false, after)) :
    map.OwnedAlone (seen ++ [point]) after := by
  have hvisit := of_evaluate hvisit
  split at hvisit
  · rename_i first hlookup
    split at hvisit
    · nomatch hvisit
    · rename_i hsame
      cases hvisit
      refine h.insert fun owner howner => ?_
      rw [hlookup] at howner
      rw [← Option.some.inj howner]
      exact not_not.mp hsame
  · rename_i hlookup
    cases hvisit
    refine h.insert fun owner howner => ?_
    nomatch hlookup.symm.trans howner

theorem OwnedAlone.stop (h : map.OwnedAlone seen before)
    (hvisit : map.collisionVisitor point before = .ok (true, after)) :
    ∃ first ∈ seen, first ≠ point ∧ map.image first = map.image point ∧
      after.2 = some (first, point, map.image point) := by
  have hvisit := of_evaluate hvisit
  split at hvisit
  · rename_i first hlookup
    split at hvisit
    · rename_i hne
      cases hvisit
      obtain ⟨hseen, himage⟩ := h.owner _ _ hlookup
      exact ⟨first, hseen, hne, himage, rfl⟩
    · nomatch hvisit
  · nomatch hvisit

end Collisions

theorem findCollision_exact :
    (∃ failure, map.findCollision = .incomplete failure) ∨
      Exact .proved
        (∀ first second, map.domain.Member first → map.domain.Member second → first ≠ second →
          map.image first ≠ map.image second)
        (PresburgerCollisionDecision.Real map map true) map.findCollision := by
  unfold findCollision
  cases hvisit : map.domain.visitPoints map.collisionVisitor ([], none) with
  | error failure => exact .inl ⟨failure, rfl⟩
  | ok last =>
    obtain ⟨owners, collision⟩ := last
    obtain ⟨stop, hscan⟩ := PresburgerSet.visitPoints_ok hvisit
    have hstart : map.OwnedAlone [] ([], none) := ⟨rfl, nofun, nofun⟩
    have hend := scan_cases map.OwnedAlone hstart (fun _ _ _ _ _ _ => OwnedAlone.step) hscan
    obtain ⟨-, halone⟩ | ⟨-, seen, point, rest, before, hpoints, hbefore, hstop⟩ := hend
    · obtain rfl : collision = none := halone.quiet
      refine .inr (exact_of_property rfl fun first second hfirst hsecond hne hsame => hne ?_)
      have howner := halone.owned first (PresburgerSet.mem_points.mpr hfirst)
      rw [hsame, halone.owned second (PresburgerSet.mem_points.mpr hsecond)] at howner
      exact (Option.some.inj howner).symm
    · obtain ⟨first, hseen, hne, himage, hcollision⟩ := hbefore.stop hstop
      obtain rfl : collision = some (first, point, map.image point) := hcollision
      have hmember : ∀ other ∈ seen ++ [point], map.domain.Member other := by
        intro other hother
        apply PresburgerSet.mem_points.mp
        rw [hpoints, append_cons]
        exact mem_append_left _ hother
      have hfirst := hmember first (mem_append_left _ hseen)
      have hpoint := hmember point (mem_append_right _ (mem_singleton_self _))
      refine .inr (exact_of_real nofun ⟨hfirst, hpoint, fun _ => hne, himage.symm, rfl⟩ ?_)
      exact fun hall => hall first point hfirst hpoint hne himage

example : (do
    let domain ← PresburgerBox.zeroBased [3]
    let x ← PresburgerAffineExpr.new 0 [1]
    let map ← PresburgerMap.new (.boxOnly domain) [.remainder x 2]
    .ok map.findCollision) = .ok (PresburgerCollisionDecision.counterexample [0] [2] [0]) := by
  rfl

/-- What the first pass keeps of the points seen so far: an owner of each image, and a second
    one unless the first is the only point. -/
structure OwnersOf (seen : List (List Int)) (owners : Owners (List Int × Option (List Int))) :
    Prop where
  owned : ∀ point ∈ seen, ∃ first alternate,
    owners.lookup (map.image point) = some (first, alternate) ∧
      (point = first ∨ alternate.isSome = true)
  first : ∀ range first alternate, owners.lookup range = some (first, alternate) →
    first ∈ seen ∧ map.image first = range
  alternate : ∀ range first alternate, owners.lookup range = some (first, some alternate) →
    alternate ∈ seen ∧ map.image alternate = range ∧ alternate ≠ first

section CrossCollisions

variable {map} {seen : List (List Int)} {point : List Int}
  {before after : Owners (List Int × Option (List Int))} {stop : Bool}

section

variable (h : map.OwnersOf seen before)
include h

/-- An entry for the image of the point keeps the table good if it names owners among the points
    seen, and a second one unless the point is the first. -/
theorem OwnersOf.insert {alternate : Option (List Int)}
    (hnew : point = first ∨ alternate.isSome = true)
    (hseen : ∀ other ∈ seen, map.image other = map.image point →
      other = first ∨ alternate.isSome = true)
    (hfirst : first ∈ seen ++ [point] ∧ map.image first = map.image point)
    (halternate : ∀ second, alternate = some second →
      second ∈ seen ++ [point] ∧ map.image second = map.image point ∧ second ≠ first) :
    map.OwnersOf (seen ++ [point]) ((map.image point, first, alternate) :: before) where
  owned := by
    intro other hother
    rw [lookup_insert]
    split
    · rename_i hsame
      refine ⟨first, alternate, rfl, ?_⟩
      obtain hother | hother := mem_append.mp hother
      · exact hseen other hother hsame
      · rw [mem_singleton.mp hother]
        exact hnew
    · rename_i hdiffers
      obtain hother | hother := mem_append.mp hother
      · exact h.owned other hother
      · exact absurd (congrArg map.image (mem_singleton.mp hother)) hdiffers
  first := by
    intro range owner second hlookup
    rw [lookup_insert] at hlookup
    split at hlookup
    · rename_i hsame
      cases hlookup
      exact ⟨hfirst.1, hfirst.2.trans hsame.symm⟩
    · obtain ⟨howner, himage⟩ := h.first range owner second hlookup
      exact ⟨mem_append_left _ howner, himage⟩
  alternate := by
    intro range owner second hlookup
    rw [lookup_insert] at hlookup
    split at hlookup
    · rename_i hsame
      cases hlookup
      obtain ⟨hsecond, himage, hne⟩ := halternate second rfl
      exact ⟨hsecond, himage.trans hsame.symm, hne⟩
    · obtain ⟨hsecond, himage, hne⟩ := h.alternate range owner second hlookup
      exact ⟨mem_append_left _ hsecond, himage, hne⟩

theorem OwnersOf.step (hvisit : map.ownersVisitor point before = .ok (stop, after)) : stop = false ∧
    map.OwnersOf (seen ++ [point]) after := by
  have hself : point ∈ seen ++ [point] := mem_append_right _ (mem_singleton_self _)
  have hvisit := of_evaluate hvisit
  split at hvisit
  · rename_i hlookup
    cases hvisit
    refine ⟨rfl, h.insert (.inl rfl) (fun other hother hsame => ?_) ⟨hself, rfl⟩ nofun⟩
    obtain ⟨_, _, howned, -⟩ := h.owned other hother
    rw [hsame, hlookup] at howned
    nomatch howned
  · rename_i first second hlookup
    obtain ⟨hfirst, himage⟩ := h.first _ _ _ hlookup
    split at hvisit
    · rename_i hsecond
      cases hvisit
      refine ⟨rfl, h.insert (.inr rfl) (fun _ _ _ => .inr rfl)
        ⟨mem_append_left _ hfirst, himage⟩ fun other hother => ?_⟩
      cases hother
      exact ⟨hself, rfl, hsecond.1.symm⟩
    · rename_i hkept
      cases hvisit
      refine ⟨rfl, fun other hother => ?_, fun range owner alternate hother => ?_,
        fun range owner alternate hother => ?_⟩
      · obtain hother | hother := mem_append.mp hother
        · exact h.owned other hother
        · rw [mem_singleton.mp hother]
          refine ⟨first, second, hlookup, ?_⟩
          rw [not_and_or, not_not] at hkept
          exact hkept.imp Eq.symm Option.isSome_iff_ne_none.mpr
      · obtain ⟨howner, hsame⟩ := h.first range owner alternate hother
        exact ⟨mem_append_left _ howner, hsame⟩
      · obtain ⟨hsecond, hsame, hne⟩ := h.alternate range owner alternate hother
        exact ⟨mem_append_left _ hsecond, hsame, hne⟩

/-- No owner is taken for a collision only if no point seen collides. -/
theorem OwnersOf.collidingOwner_none
    (hnone : (before.lookup range).bind (collidingOwner distinct point) = none)
    (hfirst : first ∈ seen) (hdistinct : distinct = true → first ≠ point) :
    map.image first ≠ range := by
  rintro rfl
  obtain ⟨owner, alternate, hlookup, howned⟩ := h.owned first hfirst
  rw [hlookup, Option.bind_some, collidingOwner] at hnone
  split at hnone
  · nomatch hnone
  · rename_i hcondition
    subst hnone
    simp only [Bool.or_eq_true, Bool.not_eq_true', decide_eq_true_eq, not_or, not_not,
      Bool.not_eq_false] at hcondition
    obtain hsame | hsome := howned
    · exact hdistinct hcondition.1 (hsame.trans hcondition.2)
    · nomatch hsome

/-- An owner that is taken for a collision is one. -/
theorem OwnersOf.collidingOwner_some
    (hsome : (before.lookup range).bind (collidingOwner distinct point) = some first) :
    first ∈ seen ∧ map.image first = range ∧ (distinct = true → first ≠ point) := by
  obtain ⟨⟨owner, alternate⟩, hlookup, howner⟩ := Option.bind_eq_some_iff.mp hsome
  rw [collidingOwner] at howner
  split at howner
  · rename_i hcondition
    obtain rfl := Option.some.inj howner
    obtain ⟨hseen, himage⟩ := h.first range owner alternate hlookup
    refine ⟨hseen, himage, fun hdistinct => ?_⟩
    simpa [hdistinct] using hcondition
  · rename_i hcondition
    subst howner
    obtain ⟨hseen, himage, hne⟩ := h.alternate range owner first hlookup
    refine ⟨hseen, himage, fun hdistinct => ?_⟩
    have hpoint : owner = point := by simpa [hdistinct] using hcondition
    exact hpoint ▸ hne

end

end CrossCollisions

theorem findCrossCollision_exact (distinct : Bool) :
    (∃ failure, map.findCrossCollision other distinct = .incomplete failure) ∨
      Exact .proved
        (∀ first second, map.domain.Member first → other.domain.Member second →
          (distinct = true → first ≠ second) → map.image first ≠ other.image second)
        (PresburgerCollisionDecision.Real map other distinct)
        (map.findCrossCollision other distinct) := by
  unfold findCrossCollision
  split
  · exact .inl ⟨_, rfl⟩
  cases hvisit : map.domain.visitPoints map.ownersVisitor [] with
  | error failure => exact .inl ⟨failure, rfl⟩
  | ok owners =>
    obtain ⟨stop, hscan⟩ := PresburgerSet.visitPoints_ok hvisit
    have hstart : map.OwnersOf [] [] := ⟨nofun, nofun, nofun⟩
    have hend := scan_cases map.OwnersOf hstart
      (fun _ _ _ _ _ _ h hvisit => (h.step hvisit).2) hscan
    obtain ⟨-, howners⟩ | ⟨-, seen, point, rest, before, -, hbefore, hstop⟩ := hend
    · apply PresburgerSet.query_exact
      · intro hall first second hfirst hsecond hdistinct
        have htest := of_evaluate (hall second hsecond)
        have hnone := Option.map_eq_none_iff.mp (Except.ok.inj htest)
        exact howners.collidingOwner_none hnone (PresburgerSet.mem_points.mpr hfirst) hdistinct
      · intro point report hpoint htest
        have htest := of_evaluate htest
        obtain ⟨first, hsome, rfl⟩ := Option.map_eq_some_iff.mp (Except.ok.inj htest)
        obtain ⟨hseen, himage, hdistinct⟩ := howners.collidingOwner_some hsome
        have hfirst := PresburgerSet.mem_points.mp hseen
        refine ⟨nofun, ⟨hfirst, hpoint, hdistinct, himage.symm, rfl⟩, ?_⟩
        exact fun hall => hall first point hfirst hpoint hdistinct himage
    · nomatch (hbefore.step hstop).1

end PresburgerMap

end Fe2o3.Presburger
