import Mathlib

/-!
# The integer points of a box, in lexicographic order
-/

namespace Fe2o3.Lib

open List

/-- The integers from `low` up to, and without, `high`. -/
def intervalPoints (low high : Int) : List Int :=
  (List.range (high - low).toNat).map fun offset : Nat => low + (offset : Int)

theorem mem_intervalPoints {low high x : Int} : x ∈ intervalPoints low high ↔ low ≤ x ∧
    x < high := by
  unfold intervalPoints
  rw [mem_map]
  constructor
  · rintro ⟨offset, hoffset, rfl⟩
    rw [mem_range] at hoffset
    omega
  · intro h
    refine ⟨(x - low).toNat, mem_range.mpr ?_, ?_⟩
    · omega
    · omega

theorem intervalPoints_of_le {low high : Int} (h : high ≤ low) : intervalPoints low high = [] := by
  apply eq_nil_iff_forall_not_mem.mpr
  intro x hx
  have hbounds := mem_intervalPoints.mp hx
  omega

theorem intervalPoints_of_lt {low high : Int} (h : low < high) :
    intervalPoints low high = low :: intervalPoints (low + 1) high := by
  have hlength : (high - low).toNat = (high - (low + 1)).toNat + 1 := by omega
  unfold intervalPoints
  rw [hlength, range_succ_eq_map, map_cons, map_map]
  congr 1
  · simp
  · apply map_congr_left
    simp only [Function.comp_apply, Nat.succ_eq_add_one]
    omega

theorem intervalPoints_ascending (low high : Int) : (intervalPoints low high).Pairwise (· < ·) := by
  apply pairwise_map.mpr
  apply pairwise_lt_range.imp
  omega

/-- The points of a box that is given by its sides, the first coordinate varying slowest. -/
def boxPoints : List (Int × Int) → List (List Int)
  | [] => [[]]
  | side :: sides =>
    (intervalPoints side.1 side.2).flatMap fun x => (boxPoints sides).map fun point => x :: point

/-- Every coordinate lies between the bounds of its side. -/
def InBox (sides : List (Int × Int)) (point : List Int) : Prop :=
  List.Forall₂ (fun side x => side.1 ≤ x ∧ x < side.2) sides point

theorem mem_boxPoints {sides : List (Int × Int)} {point : List Int} :
    point ∈ boxPoints sides ↔ InBox sides point := by
  induction sides generalizing point with
  | nil => simp [boxPoints, InBox]
  | cons side sides ih =>
    simp only [boxPoints, mem_flatMap, mem_map, mem_intervalPoints, ih]
    constructor
    · rintro ⟨x, hx, rest, hrest, rfl⟩
      exact .cons hx hrest
    · intro h
      cases h with
      | cons hx hrest => exact ⟨_, hx, _, hrest, rfl⟩

theorem boxPoints_ascending (sides : List (Int × Int)) : (boxPoints sides).Pairwise (· < ·) := by
  induction sides with
  | nil => exact pairwise_singleton _ _
  | cons side sides ih =>
    rw [boxPoints, pairwise_flatMap]
    constructor
    · intro x _
      apply pairwise_map.mpr
      apply ih.imp
      intro first second hlt
      exact cons_lt_cons_iff.mpr (.inr ⟨rfl, hlt⟩)
    · apply (intervalPoints_ascending side.1 side.2).imp
      intro x y hlt first hfirst second hsecond
      obtain ⟨rest, -, rfl⟩ := mem_map.mp hfirst
      obtain ⟨rest', -, rfl⟩ := mem_map.mp hsecond
      exact cons_lt_cons_iff.mpr (.inl hlt)

/-- A box with an empty side has no points. -/
theorem boxPoints_eq_nil {sides : List (Int × Int)} (h : ∃ side ∈ sides, side.2 ≤ side.1) :
    boxPoints sides = [] := by
  obtain ⟨side, hside, hempty⟩ := h
  induction sides with
  | nil => nomatch hside
  | cons first sides ih =>
    unfold boxPoints
    obtain rfl | hside := mem_cons.mp hside
    · rw [intervalPoints_of_le hempty]
      rfl
    · rw [ih hside]
      simp

end Fe2o3.Lib
