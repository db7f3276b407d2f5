import Mathlib

/-!
**Arithmetic of 64-bit words**, as numbers below `2 ^ 64`: sums that may not fit, ranges
between a start and an end, and rounding to a power of two.
-/

namespace Fe2o3.Lib.Words

def checkedAdd (left right : Nat) : Option Nat :=
  if left + right < 2 ^ 64 then some (left + right) else none

theorem checkedAdd_eq_some {left right sum : Nat} :
    checkedAdd left right = some sum ↔ left + right = sum ∧ sum < 2 ^ 64 := by
  rw [checkedAdd]
  split
  · rename_i hlt
    simp only [Option.some.injEq]
    exact ⟨fun h => ⟨h, h ▸ hlt⟩, And.left⟩
  · rename_i hge
    refine iff_of_false nofun ?_
    rintro ⟨rfl, hlt⟩
    exact hge hlt

theorem checkedAdd_eq_none {left right : Nat} :
    checkedAdd left right = none ↔ 2 ^ 64 ≤ left + right := by
  simp [checkedAdd]

def checkedSub (left right : Nat) : Option Nat := if right ≤ left then some (left - right) else none

theorem checkedSub_eq_some {left right difference : Nat} :
    checkedSub left right = some difference ↔ left = right + difference := by
  rw [checkedSub]
  split
  · simp only [Option.some.injEq]
    omega
  · exact iff_of_false nofun (by omega)

def isPowerOfTwo (value : Nat) : Bool := 2 ^ value.log2 == value

theorem dvd_of_isPowerOfTwo {left right : Nat} (hleft : isPowerOfTwo left = true)
    (hright : isPowerOfTwo right = true) (h : left ≤ right) : left ∣ right := by
  rw [isPowerOfTwo, beq_iff_eq] at hleft hright
  rw [← hleft, ← hright] at h ⊢
  exact Nat.pow_dvd_pow 2 ((Nat.pow_le_pow_iff_right (by decide)).mp h)

def rangesOverlap (leftStart leftEnd rightStart rightEnd : Nat) : Bool :=
  leftStart < rightEnd && rightStart < leftEnd

theorem rangesOverlap_eq_false {leftStart leftEnd rightStart rightEnd : Nat} :
    rangesOverlap leftStart leftEnd rightStart rightEnd = false ↔
      rightEnd ≤ leftStart ∨ leftEnd ≤ rightStart := by
  simp [rangesOverlap, Decidable.imp_iff_not_or]

/-- The alignment is a power of two, so clearing its low bits rounds down. -/
def alignDown (value alignment : Nat) : Nat := value / alignment * alignment

def alignUp (value alignment : Nat) : Option Nat :=
  (checkedAdd value (alignment - 1)).map (alignDown · alignment)

theorem le_alignDown (value : Nat) {alignment : Nat} (h : isPowerOfTwo alignment = true) :
    value ≤ alignDown (value + (alignment - 1)) alignment := by
  have hpositive : 0 < alignment := Nat.pos_of_ne_zero (by rintro rfl; cases h)
  have hdiv := Nat.div_add_mod' (value + (alignment - 1)) alignment
  have hmod := Nat.mod_lt (value + (alignment - 1)) hpositive
  rw [alignDown]
  omega

theorem alignUp_eq_some {value alignment rounded : Nat} :
    alignUp value alignment = some rounded ↔
      value + (alignment - 1) < 2 ^ 64 ∧ alignDown (value + (alignment - 1)) alignment =
        rounded := by
  rw [alignUp, Option.map_eq_some_iff]
  constructor
  · rintro ⟨sum, hsum, rfl⟩
    obtain ⟨rfl, hlt⟩ := checkedAdd_eq_some.mp hsum
    exact ⟨hlt, rfl⟩
  · rintro ⟨hlt, rfl⟩
    exact ⟨_, checkedAdd_eq_some.mpr ⟨rfl, hlt⟩, rfl⟩

end Fe2o3.Lib.Words
