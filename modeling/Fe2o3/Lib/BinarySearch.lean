import Fe2o3.Lib.SearchTree

/-!
**Binary search** in a list that a comparison splits into a part below, a match and a
part above.
-/

namespace Fe2o3.Lib

open List
open Keyed (orderKey)

/-- Where a search ended: at a match, or at the position where one would be inserted. -/
inductive Sought where
  | found (index : Nat)
  | missing (index : Nat)
  deriving DecidableEq, Repr

def Sought.found? : Sought → Option Nat
  | found index => some index
  | missing _ => none

variable {α : Type}

/-- The search between `left` and `right`, with as much fuel as there are positions. -/
def searchBetween (compare : α → Ordering) (xs : List α) : Nat → Nat → Nat → Sought
  | 0, left, _ => .missing left
  | fuel + 1, left, right =>
    if left < right then
      let middle := left + (right - left) / 2
      match xs[middle]? with
      | none => .missing left
      | some x =>
        match compare x with
        | .lt => searchBetween compare xs fuel (middle + 1) right
        | .gt => searchBetween compare xs fuel left middle
        | .eq => .found middle
    else .missing left

variable (compare : α → Ordering)

def binarySearchBy (xs : List α) : Sought :=
  searchBetween compare xs xs.length 0 xs.length

/-- What comes after an element above is above, and what comes before one below is below. -/
def Splits (xs : List α) : Prop :=
  xs.Pairwise fun earlier later =>
    (compare later = .lt → compare earlier = .lt) ∧ (compare earlier = .gt → compare later = .gt)

/-- The end of a search is a match, or the border between below and above. -/
def Ends (xs : List α) : Sought → Prop
  | .found index => ∃ x, xs[index]? = some x ∧ compare x = .eq
  | .missing index => index ≤ xs.length ∧
      (∀ j x, j < index → xs[j]? = some x → compare x = .lt) ∧
      ∀ j x, index ≤ j → xs[j]? = some x → compare x = .gt

variable {compare : α → Ordering} {xs : List α}

theorem Splits.at {x y : α} {i j : Nat} (h : Splits compare xs) (hlt : i < j)
    (hi : xs[i]? = some x) (hj : xs[j]? = some y) :
    (compare y = .lt → compare x = .lt) ∧ (compare x = .gt → compare y = .gt) := by
  obtain ⟨hilen, rfl⟩ := List.getElem?_eq_some_iff.mp hi
  obtain ⟨hjlen, rfl⟩ := List.getElem?_eq_some_iff.mp hj
  exact pairwise_iff_getElem.mp h i j hilen hjlen hlt

theorem ends_searchBetween (hsplits : Splits compare xs) {fuel left right : Nat}
    (hfuel : right - left ≤ fuel) (hle : left ≤ right) (hright : right ≤ xs.length)
    (hbelow : ∀ j x, j < left → xs[j]? = some x → compare x = .lt)
    (habove : ∀ j x, right ≤ j → xs[j]? = some x → compare x = .gt) :
    Ends compare xs (searchBetween compare xs fuel left right) := by
  induction fuel generalizing left right with
  | zero =>
    have hmeet : left = right := by omega
    exact ⟨hmeet ▸ hright, hbelow, hmeet ▸ habove⟩
  | succ fuel ih =>
    unfold searchBetween
    by_cases hlt : left < right
    · rw [if_pos hlt]
      have hmiddle : left + (right - left) / 2 < xs.length := by omega
      obtain ⟨x, hx⟩ : ∃ x, xs[left + (right - left) / 2]? = some x :=
        ⟨_, getElem?_eq_getElem hmiddle⟩
      simp only [hx]
      cases hcompare : compare x with
      | lt =>
        -- everything up to the middle is below
        apply ih (by omega) (by omega) hright _ habove
        intro j y hj hy
        obtain hj | rfl : j < left + (right - left) / 2 ∨ j = left + (right - left) / 2 := by omega
        · exact (hsplits.at hj hy hx).1 hcompare
        · rw [Option.mem_unique hy hx]
          exact hcompare
      | gt =>
        apply ih (by omega) (by omega) (by omega) hbelow
        intro j y hj hy
        obtain hj | rfl : left + (right - left) / 2 < j ∨ j = left + (right - left) / 2 := by omega
        · exact (hsplits.at hj hx hy).2 hcompare
        · rw [Option.mem_unique hy hx]
          exact hcompare
      | eq => exact ⟨x, hx, hcompare⟩
    · rw [if_neg hlt]
      have hmeet : left = right := by omega
      exact ⟨hmeet ▸ hright, hbelow, hmeet ▸ habove⟩

theorem ends_binarySearchBy (hsplits : Splits compare xs) :
    Ends compare xs (binarySearchBy compare xs) := by
  apply ends_searchBetween hsplits (by omega) (Nat.zero_le _) (Nat.le_refl _)
  · omega
  · intro j x hj hx
    have hlt := (List.getElem?_eq_some_iff.mp hx).1
    omega

/-- Without a match no element compares as equal. -/
theorem Ends.ne_of_missing {index : Nat} (h : Ends compare xs (.missing index)) {x : α}
    (hx : x ∈ xs) : compare x ≠ .eq := by
  obtain ⟨-, hbelow, habove⟩ := h
  obtain ⟨j, hj⟩ := getElem?_of_mem hx
  intro heq
  obtain hlt | hge := Nat.lt_or_ge j index
  · rw [hbelow j x hlt hj] at heq
    nomatch heq
  · rw [habove j x hge hj] at heq
    nomatch heq

/-! ### Insertion -/

theorem insertIdx_eq_take_drop {new : α} {i : Nat} (h : i ≤ xs.length) :
    xs.insertIdx i new = xs.take i ++ new :: xs.drop i := by
  induction i generalizing xs with
  | zero => rfl
  | succ i ih =>
    cases xs with
    | nil => nomatch h
    | cons x xs =>
      rw [insertIdx_succ_cons, ih (Nat.le_of_succ_le_succ h)]
      rfl

/-- A relation that holds of all pairs still does with an element between what is below it and
    what is above it. -/
theorem pairwise_insertIdx {R : α → α → Prop} {new : α} {i : Nat} (h : xs.Pairwise R)
    (hle : i ≤ xs.length) (hbelow : ∀ j x, j < i → xs[j]? = some x → R x new)
    (habove : ∀ j x, i ≤ j → xs[j]? = some x → R new x) : (xs.insertIdx i new).Pairwise R := by
  rw [insertIdx_eq_take_drop hle]
  rw [← take_append_drop i xs] at h
  obtain ⟨hbefore, hafter, hacross⟩ := pairwise_append.mp h
  apply pairwise_append.mpr
  refine ⟨hbefore, pairwise_cons.mpr ⟨fun x hx => ?_, hafter⟩, fun x hx y hy => ?_⟩
  · obtain ⟨j, hj⟩ := getElem?_of_mem hx
    rw [getElem?_drop] at hj
    exact habove (i + j) x (Nat.le_add_right i j) hj
  · obtain rfl | hy := mem_cons.mp hy
    · obtain ⟨j, hj⟩ := getElem?_of_mem hx
      rw [getElem?_take] at hj
      split at hj
      · next hlt => exact hbelow j x hlt hj
      · nomatch hj
    · exact hacross x hx y hy

/-! ### Search by a key -/

variable {κ : Type}

def compareKeys [Keyed κ] (left right : κ) : Ordering :=
  if orderKey left < orderKey right then .lt
  else if orderKey right < orderKey left then .gt
  else .eq

variable [LinearKey κ]

theorem compareKeys_eq_lt {left right : κ} :
    compareKeys left right = .lt ↔ orderKey left < orderKey right := by
  unfold compareKeys
  split
  · next h => simp [h]
  · next h =>
    split
    · simp [h]
    · simp [h]

theorem compareKeys_eq_gt {left right : κ} :
    compareKeys left right = .gt ↔ orderKey right < orderKey left := by
  unfold compareKeys
  split
  · next h => simp [lt_asymm h]
  · split
    · next h => simp [h]
    · next h => simp [h]

theorem compareKeys_eq_eq {left right : κ} : compareKeys left right = .eq ↔ left = right := by
  unfold compareKeys
  split
  · next h =>
    simp only [reduceCtorEq, false_iff]
    rintro rfl
    exact lt_irrefl _ h
  · next hlt =>
    split
    · next h =>
      simp only [reduceCtorEq, false_iff]
      rintro rfl
      exact lt_irrefl _ h
    · next hgt =>
      simp only [true_iff]
      exact LinearKey.injective (le_antisymm (not_lt.mp hgt) (not_lt.mp hlt))

/-- Ascending keys are split by the comparison with any key. -/
theorem splits_of_ascending {key : α → κ} {k : κ}
    (h : xs.Pairwise fun earlier later => orderKey (key earlier) < orderKey (key later)) :
    Splits (fun x => compareKeys (key x) k) xs := by
  apply h.imp
  intro earlier later hlt
  constructor
  · intro hlater
    rw [compareKeys_eq_lt] at hlater ⊢
    exact lt_trans hlt hlater
  · intro hearlier
    rw [compareKeys_eq_gt] at hearlier ⊢
    exact lt_trans hearlier hlt

end Fe2o3.Lib
