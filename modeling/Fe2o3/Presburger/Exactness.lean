import Fe2o3.Presburger.Queries

/-!
# Exact answers

An answer is exact if "proved" is given precisely when the property holds of all integer
points, and everything else is a real counterexample.
-/

namespace Fe2o3.Presburger

open Lib List

/-! ### Walks that look for one point -/

section Probes

variable {set : PresburgerSet} {β : Type}

/-- A walk that looks for a point shows that none passes the test, or finds the least that does. -/
theorem PresburgerSet.visitPoints_probe {test : List Int → Except PresburgerFailure (Option β)}
    {found : Option β} (h : set.visitPoints (probe test) none = .ok found) :
    (found = none ∧ ∀ point, set.Member point → test point = .ok none) ∨
      ∃ point b, found = some b ∧ set.Member point ∧ test point = .ok (some b) ∧
        ∀ earlier, set.Member earlier → earlier < point → test earlier = .ok none := by
  obtain ⟨stop, hscan⟩ := visitPoints_ok h
  obtain ⟨hnone, hall⟩ | ⟨seen, point, rest, b, hpoints, hseen, htest, hfound⟩ := scan_probe hscan
  · exact .inl ⟨hnone, fun point hpoint => hall point (mem_points.mpr hpoint)⟩
  · refine .inr ⟨point, b, hfound, ?_, htest, ?_⟩
    · apply mem_points.mp
      rw [hpoints]
      exact mem_append_right _ (mem_cons_self ..)
    · intro earlier hearlier hlt
      apply hseen earlier
      have hascending := set.points_ascending
      have hmem := mem_points.mpr hearlier
      rw [hpoints] at hascending hmem
      -- whatever the walk shows later is larger
      obtain hmem | hmem := mem_append.mp hmem
      · exact hmem
      · obtain rfl | hmem := mem_cons.mp hmem
        · exact absurd hlt (lt_irrefl _)
        · have hafter := (pairwise_cons.mp (pairwise_append.mp hascending).2.1).1
          exact absurd hlt (lt_asymm (hafter earlier hmem))

end Probes

/-! ### Exact answers -/

/-- An answer is exact if it is "proved" precisely when the property holds, and otherwise a real
    counterexample. -/
def Exact {D : Type} (proved : D) (property : Prop) (real : D → Prop) (answer : D) : Prop :=
  (answer = proved ↔ property) ∧ (answer ≠ proved → real answer)

theorem exact_of_property {D : Type} {proved answer : D} {property : Prop} {real : D → Prop}
    (hanswer : answer = proved) (hproperty : property) : Exact proved property real answer :=
  ⟨iff_of_true hanswer hproperty, fun hne => absurd hanswer hne⟩

theorem exact_of_real {D : Type} {proved answer : D} {property : Prop} {real : D → Prop}
    (hne : answer ≠ proved) (hreal : real answer) (hfails : ¬property) :
    Exact proved property real answer :=
  ⟨iff_of_false hne hfails, fun _ => hreal⟩

theorem Exact.congr {D : Type} {proved answer : D} {property property' : Prop}
    {real real' : D → Prop} (h : Exact proved property real answer)
    (hproperty : property ↔ property') (hreal : ∀ decision, real decision → real' decision) :
    Exact proved property' real' answer :=
  ⟨h.1.trans hproperty, fun hne => hreal answer (h.2 hne)⟩

/-- Every coordinate lies between zero and its extent. -/
def InExtents (extents : List Nat) (point : List Int) : Prop :=
  List.Forall₂ (fun (extent : Nat) (x : Int) => 0 ≤ x ∧ x < extent) extents point

/-- The integers that a machine integer can be. -/
def PresburgerMachineIntSemantics.range (semantics : PresburgerMachineIntSemantics) : Set Int :=
  if semantics.signed then Set.Ico (-2 ^ (semantics.bits - 1)) (2 ^ (semantics.bits - 1))
  else Set.Ico 0 (2 ^ semantics.bits)

theorem plainSub_eq_some {overflowChecks : Bool} {left right : Int}
    (h : -2 ^ 127 ≤ left - right ∧ left - right < 2 ^ 127) :
    plainSub overflowChecks left right = some (left - right) := by
  rw [plainSub, fitting, if_pos h, Option.some_or]

/-- The bounds are the ends of the range, unless `2 ^ 127 - 1` is computed with checks. -/
theorem PresburgerMachineIntSemantics.bounds_eq {overflowChecks : Bool}
    (semantics : PresburgerMachineIntSemantics)
    (h : overflowChecks = true → semantics.signed = false → semantics.bits < 127) :
    ∃ minimum maximum, semantics.bounds overflowChecks = some (minimum, maximum) ∧
      semantics.range = Set.Icc minimum maximum ∧ minimum ≤ maximum := by
  rcases semantics with ⟨bits, signed, hpos, hle⟩
  have hpow : ∀ k ≤ 126, bit k = 2 ^ k ∧ 1 ≤ (2 : Int) ^ k ∧ (2 : Int) ^ k ≤ 2 ^ 126 := fun k hk =>
    ⟨if_neg (by omega), one_le_pow₀ (by decide), pow_le_pow_right₀ (by decide) hk⟩
  have hends : ∀ low high : Int, Set.Ico low high = Set.Icc low (high - 1) := by
    intro low high
    ext value
    simp only [Set.mem_Ico, Set.mem_Icc]
    omega
  cases signed with
  | true =>
    rcases hpow (bits - 1) (by omega) with ⟨hbit, hone, hmax⟩
    refine ⟨0 - 2 ^ (bits - 1), 2 ^ (bits - 1) - 1, ?_, ?_, by omega⟩
    · simp only [bounds, hbit, if_true]
      rw [plainSub_eq_some (by omega), plainSub_eq_some (by omega)]
      rfl
    · rw [range, if_pos rfl, hends, zero_sub]
  | false =>
    by_cases hbits : bits = 127
    · subst hbits
      cases overflowChecks with
      | true => exact absurd (h rfl rfl) (Nat.lt_irrefl 127)
      | false => exact ⟨0, 2 ^ 127 - 1, rfl, hends 0 (2 ^ 127), by decide⟩
    · rcases hpow bits (by omega) with ⟨hbit, hone, hmax⟩
      refine ⟨0, 2 ^ bits - 1, ?_, hends 0 (2 ^ bits), by omega⟩
      simp only [bounds, hbit, Bool.false_eq_true, if_false]
      rw [plainSub_eq_some (by omega)]
      rfl

/-- A value outside the range, with the ends of the range. -/
def PresburgerMachineRangeDecision.Real (map : PresburgerMap)
    (semantics : PresburgerMachineIntSemantics) : PresburgerMachineRangeDecision → Prop
  | .counterexample domain range output value minimum maximum reported =>
    map.domain.Member domain ∧ range = map.image domain ∧ range[output]? = some value ∧
      value ∉ semantics.range ∧ IsLeast semantics.range minimum ∧
      IsGreatest semantics.range maximum ∧ reported = semantics
  | _ => False

def PresburgerRangeDecision.Real (map : PresburgerMap) (extents : List Nat) :
    PresburgerRangeDecision → Prop
  | .counterexample domain range =>
    map.domain.Member domain ∧ range = map.image domain ∧ ¬InExtents extents range
  | _ => False

/-- Two points, distinct ones if that is required, that the maps send to the same image. -/
def PresburgerCollisionDecision.Real (map other : PresburgerMap) (distinct : Bool) :
    PresburgerCollisionDecision → Prop
  | .counterexample first second range =>
    map.domain.Member first ∧ other.domain.Member second ∧ (distinct = true → first ≠ second) ∧
      range = map.image first ∧ range = other.image second
  | _ => False

def PresburgerEquivalenceDecision.Real (map other : PresburgerMap) :
    PresburgerEquivalenceDecision → Prop
  | .counterexample domain first second =>
    map.domain.Member domain ∧ first = map.image domain ∧ second = other.image domain ∧
      first ≠ second
  | _ => False

/-- A point of the extents box outside the image. -/
def PresburgerCoverageDecision.Real (image : List Int → Prop) (extents : List Nat) :
    PresburgerCoverageDecision → Prop
  | .hole point => InExtents extents point ∧ ¬image point
  | _ => False

/-- A query is exact if no point passing means that the property holds, and a point that passes
    is reported as a real counterexample. -/
theorem PresburgerSet.query_exact {β D : Type} {set : PresburgerSet}
    {test : List Int → Except PresburgerFailure (Option β)} {found : β → D} {proved : D}
    {incomplete : PresburgerFailure → D} {property : Prop} {real : D → Prop}
    (hproperty : (∀ point, set.Member point → test point = .ok none) → property)
    (hreal : ∀ point b, set.Member point → test point = .ok (some b) →
      found b ≠ proved ∧ real (found b) ∧ ¬property) :
    (∃ failure, set.query test found proved incomplete = incomplete failure) ∨
      Exact proved property real (set.query test found proved incomplete) := by
  unfold query
  cases hvisit : set.visitPoints (probe test) none with
  | error failure => exact .inl ⟨failure, rfl⟩
  | ok answer =>
    right
    obtain ⟨rfl, hall⟩ | ⟨point, b, rfl, hmember, htest, -⟩ := visitPoints_probe hvisit
    · exact exact_of_property rfl (hproperty hall)
    · obtain ⟨hne, hcounterexample, hfails⟩ := hreal point b hmember htest
      exact exact_of_real hne hcounterexample hfails

theorem PresburgerSet.findWitness_exact (set : PresburgerSet) :
    (∃ failure, set.findWitness = .incomplete failure) ∨
      (set.findWitness = .empty ↔ ∀ point, ¬set.Member point) ∧
        ∀ point, set.findWitness = .witness point ↔ IsLeast {point | set.Member point} point := by
  unfold findWitness query
  cases hvisit : set.visitPoints (probe fun point => .ok (some point)) none with
  | error failure => exact .inl ⟨failure, rfl⟩
  | ok found =>
    right
    obtain ⟨rfl, hall⟩ | ⟨point, b, rfl, hmember, htest, hfirst⟩ := visitPoints_probe hvisit
    · have hnone : ∀ point, ¬set.Member point := fun point hpoint => nomatch hall point hpoint
      refine ⟨iff_of_true rfl hnone, fun point => iff_of_false nofun fun hleast => ?_⟩
      exact hnone point hleast.1
    · cases htest
      have hleast : IsLeast {point | set.Member point} point := by
        refine ⟨hmember, fun other hother => ?_⟩
        by_contra hlt
        nomatch hfirst other hother (not_le.mp hlt)
      refine ⟨iff_of_false nofun fun hnone => hnone point hmember, fun other => ?_⟩
      constructor
      · intro hsame
        cases hsame
        exact hleast
      · intro hother
        rw [hleast.unique hother]

/-! ### Ranges -/

section Extents

variable {extents : List Nat} {point : List Int}

theorem inExtents_iff_all (hlength : extents.length = point.length) :
    InExtents extents point ↔
      (point.zip extents).all (fun side => side.1 ≥ 0 && side.1 < side.2) = true := by
  unfold InExtents
  induction extents generalizing point with
  | nil =>
    obtain rfl := length_eq_zero_iff.mp hlength.symm
    simp
  | cons extent extents ih =>
    obtain ⟨x, point, rfl⟩ := exists_cons_of_length_eq_add_one hlength.symm
    rw [forall₂_cons, ih (Nat.succ.inj hlength)]
    simp

theorem not_inExtents_iff_any (hlength : extents.length = point.length) :
    ¬InExtents extents point ↔
      (point.zip extents).any (fun side => side.1 < 0 || side.1 ≥ side.2) = true := by
  rw [inExtents_iff_all hlength, all_eq_true, any_eq_true]
  push Not
  apply exists_congr
  intro side
  apply and_congr_right
  intro _
  simp only [ne_eq, Bool.and_eq_true, Bool.or_eq_true, decide_eq_true_eq, not_and_or,
    not_le, not_lt]

theorem inBox_zeroBased {range : PresburgerBox} (h : PresburgerBox.zeroBased extents = .ok range) :
    InBox range.sides point ↔ InExtents extents point := by
  unfold PresburgerBox.zeroBased PresburgerBox.new at h
  split at h
  · split at h
    · cases h
      unfold InBox InExtents PresburgerBox.sides
      dsimp only
      clear * -
      induction extents generalizing point with
      | nil => simp
      | cons extent extents ih =>
        cases point with
        | nil => simp [replicate_succ]
        | cons x point => simp [replicate_succ, ih]
    · nomatch h
  · nomatch h

end Extents

namespace PresburgerMap

theorem length_image (map : PresburgerMap) (point : List Int) :
    (map.image point).length = map.outputs.length := length_map _

variable (map other : PresburgerMap)

theorem findMachineOverflow_exact {overflowChecks : Bool}
    {semantics : PresburgerMachineIntSemantics}
    (h : overflowChecks = true → semantics.signed = false → semantics.bits < 127) :
    ∃ answer, map.findMachineOverflow overflowChecks semantics = some answer ∧
      ((∃ failure, answer = .incomplete failure) ∨
        Exact .proved
          (∀ point, map.domain.Member point → ∀ value ∈ map.image point, value ∈ semantics.range)
          (PresburgerMachineRangeDecision.Real map semantics) answer) := by
  obtain ⟨minimum, maximum, hbounds, hrange, hle⟩ := semantics.bounds_eq h
  refine ⟨_, by rw [findMachineOverflow, hbounds]; rfl, ?_⟩
  apply PresburgerSet.query_exact
  · intro hall point hpoint value hvalue
    have htest := of_evaluate (hall point hpoint)
    have hnone := find?_eq_none.mp (Option.map_eq_none_iff.mp (Except.ok.inj htest))
    obtain ⟨i, hi⟩ := getElem?_of_mem hvalue
    have hin := hnone (value, i) (mem_zipIdx_iff_getElem?.mpr hi)
    simp only [Bool.or_eq_true, decide_eq_true_eq, not_or, not_lt] at hin
    rw [hrange]
    exact hin
  · intro point report hpoint htest
    have htest := of_evaluate htest
    obtain ⟨⟨value, i⟩, hfind, hreport⟩ := Option.map_eq_some_iff.mp (Except.ok.inj htest)
    obtain rfl := hreport
    have hat := mem_zipIdx_iff_getElem?.mp (mem_of_find?_eq_some hfind)
    have hflag := find?_some hfind
    simp only [Bool.or_eq_true, decide_eq_true_eq] at hflag
    have hout : value ∉ semantics.range := by
      rw [hrange, Set.mem_Icc]
      omega
    refine ⟨nofun, ⟨hpoint, rfl, hat, hout, ?_, ?_, rfl⟩, fun hall => ?_⟩
    · rw [hrange]
      exact isLeast_Icc hle
    · rw [hrange]
      exact isGreatest_Icc hle
    · exact hout (hall point hpoint value (mem_of_getElem? hat))

theorem findOutOfBounds_exact (extents : List Nat) :
    (∃ failure, map.findOutOfBounds extents = .incomplete failure) ∨
      Exact .proved (∀ point, map.domain.Member point → InExtents extents (map.image point))
        (PresburgerRangeDecision.Real map extents) (map.findOutOfBounds extents) := by
  unfold findOutOfBounds
  split
  · exact .inl ⟨_, rfl⟩
  · rename_i hranks
    have hlength : ∀ point, extents.length = (map.image point).length := by
      intro point
      rw [length_image]
      exact not_not.mp hranks
    apply PresburgerSet.query_exact
    · intro hall point hpoint
      have htest := of_evaluate (hall point hpoint)
      by_contra hout
      rw [if_pos ((not_inExtents_iff_any (hlength point)).mp hout)] at htest
      nomatch htest
    · intro point report hpoint htest
      have htest := of_evaluate htest
      split at htest
      · rename_i hout
        cases htest
        have hreal := (not_inExtents_iff_any (hlength point)).mpr hout
        exact ⟨nofun, ⟨hpoint, rfl, hreal⟩, fun hall => hreal (hall point hpoint)⟩
      · nomatch htest

theorem findMismatch_exact :
    (∃ failure, map.findMismatch other = .incomplete failure) ∨
      Exact .proved (∀ point, map.domain.Member point → map.image point = other.image point)
        (PresburgerEquivalenceDecision.Real map other) (map.findMismatch other) := by
  unfold findMismatch
  split
  · exact .inl ⟨_, rfl⟩
  · apply PresburgerSet.query_exact
    · intro hall point hpoint
      have htest := of_evaluate (of_evaluate (hall point hpoint))
      by_contra hne
      rw [if_pos hne] at htest
      nomatch htest
    · intro point report hpoint htest
      have htest := of_evaluate (of_evaluate htest)
      split at htest
      · rename_i hne
        cases htest
        exact ⟨nofun, ⟨hpoint, rfl, rfl, hne⟩, fun hall => hne (hall point hpoint)⟩
      · nomatch htest

end PresburgerMap

end Fe2o3.Presburger
