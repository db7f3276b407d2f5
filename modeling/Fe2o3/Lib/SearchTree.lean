import Mathlib

/-!
**Height-balanced search trees** from keys to values.

A key is ordered by its list of numbers.  The meaning of a tree is the list of its
entries from left to right: rotations leave that list alone, and a search only
depends on it being ordered.
-/

namespace Fe2o3.Lib

open List

/-- A type whose values are ordered by a list of numbers. -/
class Keyed (α : Type) where
  orderKey : α → List Nat

open Keyed (orderKey)
open scoped List

/-- A key that its order determines. -/
class LinearKey (κ : Type) extends Keyed κ where
  injective : Function.Injective (orderKey : κ → List Nat)

inductive SearchTree (κ ν : Type) where
  | leaf
  | node (left : SearchTree κ ν) (key : κ) (value : ν) (right : SearchTree κ ν) (height : Nat)
  deriving DecidableEq, Repr

namespace SearchTree

variable {κ ν : Type}

def height : SearchTree κ ν → Nat
  | leaf => 0
  | node _ _ _ _ height => height

def branch (left : SearchTree κ ν) (key : κ) (value : ν) (right : SearchTree κ ν) :
    SearchTree κ ν :=
  node left key value right (1 + max left.height right.height)

/-- Only ever applied to a tree whose right part is not empty. -/
def rotateLeft : SearchTree κ ν → SearchTree κ ν
  | node left key value (node inner pivot pivotValue right _) _ =>
    branch (branch left key value inner) pivot pivotValue right
  | tree => tree

/-- Only ever applied to a tree whose left part is not empty. -/
def rotateRight : SearchTree κ ν → SearchTree κ ν
  | node (node left pivot pivotValue inner _) key value right _ =>
    branch left pivot pivotValue (branch inner key value right)
  | tree => tree

def leansLeft : SearchTree κ ν → Bool
  | leaf => false
  | node left _ _ right _ => decide (right.height < left.height)

def leansRight : SearchTree κ ν → Bool
  | leaf => false
  | node left _ _ right _ => decide (left.height < right.height)

def balance : SearchTree κ ν → SearchTree κ ν
  | leaf => leaf
  | node left key value right height =>
    if right.height + 1 < left.height then
      rotateRight (if left.leansRight then branch left.rotateLeft key value right
        else node left key value right height)
    else if left.height + 1 < right.height then
      rotateLeft (if right.leansLeft then branch left key value right.rotateRight
        else node left key value right height)
    else node left key value right height

/-- The number of entries, counted. -/
def length : SearchTree κ ν → Nat
  | leaf => 0
  | node left _ _ right _ => 1 + left.length + right.length

/-- The entries from left to right. -/
def entries : SearchTree κ ν → List (κ × ν)
  | leaf => []
  | node left key value right _ => left.entries ++ (key, value) :: right.entries

section Search

variable [Keyed κ]

def find (key : κ) : SearchTree κ ν → Option ν
  | leaf => none
  | node left current value right _ =>
    if orderKey key < orderKey current then left.find key
    else if orderKey current < orderKey key then right.find key
    else some value

/-- The tree with the entry, and whether it is new: an entry with the same key stays. -/
def insert (key : κ) (value : ν) : SearchTree κ ν → SearchTree κ ν × Bool
  | leaf => (branch leaf key value leaf, true)
  | node left current found right height =>
    if orderKey key < orderKey current then
      (balance (branch (left.insert key value).1 current found right), (left.insert key value).2)
    else if orderKey current < orderKey key then
      (balance (branch left current found (right.insert key value).1), (right.insert key value).2)
    else (balance (node left current found right height), false)

end Search

/-! ### Entries -/

theorem length_entries (tree : SearchTree κ ν) : tree.entries.length = tree.length := by
  induction tree with
  | leaf => rfl
  | node left key value right height ihleft ihright =>
    rw [entries, length_append, length_cons, ihleft, ihright, length]
    omega

@[simp]
theorem entries_branch {left right : SearchTree κ ν} {key : κ} {value : ν} :
    (branch left key value right).entries = left.entries ++ (key, value) :: right.entries := rfl

@[simp]
theorem entries_rotateLeft (tree : SearchTree κ ν) : tree.rotateLeft.entries = tree.entries := by
  unfold rotateLeft
  split
  · simp [entries]
  · rfl

@[simp]
theorem entries_rotateRight (tree : SearchTree κ ν) : tree.rotateRight.entries = tree.entries := by
  unfold rotateRight
  split
  · simp [entries]
  · rfl

@[simp]
theorem entries_balance (tree : SearchTree κ ν) : tree.balance.entries = tree.entries := by
  cases tree with
  | leaf => rfl
  | node left key value right height =>
    rw [balance]
    split
    · rw [entries_rotateRight]
      split
      · rw [entries_branch, entries_rotateLeft, entries]
      · rfl
    · split
      · rw [entries_rotateLeft]
        split
        · rw [entries_branch, entries_rotateRight, entries]
        · rfl
      · rfl

/-! ### Search -/

variable [LinearKey κ]

/-- The keys ascend from left to right. -/
def Ordered (tree : SearchTree κ ν) : Prop :=
  tree.entries.Pairwise fun earlier later =>
    orderKey earlier.1 < orderKey later.1

/-- The order of a node: both parts, and the root between them. -/
theorem ordered_node {left right : SearchTree κ ν} {key : κ} {value : ν} {height : Nat} :
    (node left key value right height).Ordered ↔
      left.Ordered ∧ right.Ordered ∧
        (∀ entry ∈ left.entries, orderKey entry.1 < orderKey key) ∧
        ∀ entry ∈ right.entries, orderKey key < orderKey entry.1 := by
  unfold Ordered
  rw [entries, pairwise_append, pairwise_cons]
  constructor
  · rintro ⟨hleft, ⟨hroot, hright⟩, hacross⟩
    exact ⟨hleft, hright, fun entry h => hacross entry h (key, value) (mem_cons_self ..), hroot⟩
  · rintro ⟨hleft, hright, hbelow, habove⟩
    refine ⟨hleft, ⟨habove, hright⟩, fun lower hlower upper hupper => ?_⟩
    obtain rfl | hupper := mem_cons.mp hupper
    · exact hbelow lower hlower
    · exact lt_trans (hbelow lower hlower) (habove upper hupper)

theorem find_eq_some {tree : SearchTree κ ν} (hordered : tree.Ordered) {key : κ} {value : ν} :
    tree.find key = some value ↔ (key, value) ∈ tree.entries := by
  induction tree with
  | leaf => simp [find, entries]
  | node left current found right height ihleft ihright =>
    obtain ⟨hleft, hright, hbelow, habove⟩ := ordered_node.mp hordered
    rw [find, entries, mem_append, mem_cons]
    by_cases hlt : orderKey key < orderKey current
    · rw [if_pos hlt, ihleft hleft]
      constructor
      · exact .inl
      · rintro (hmem | heq | hmem)
        · exact hmem
        · obtain ⟨rfl, -⟩ := Prod.mk.inj heq
          exact absurd hlt (lt_irrefl _)
        · exact absurd (habove _ hmem) (lt_asymm hlt)
    · rw [if_neg hlt]
      by_cases hgt : orderKey current < orderKey key
      · rw [if_pos hgt, ihright hright]
        constructor
        · exact fun hmem => .inr (.inr hmem)
        · rintro (hmem | heq | hmem)
          · exact absurd (hbelow _ hmem) (lt_asymm hgt)
          · obtain ⟨rfl, -⟩ := Prod.mk.inj heq
            exact absurd hgt (lt_irrefl _)
          · exact hmem
      · rw [if_neg hgt]
        have hkey : key = current :=
          LinearKey.injective (le_antisymm (not_lt.mp hgt) (not_lt.mp hlt))
        subst hkey
        constructor
        · rintro h
          exact .inr (.inl (by rw [Option.some.inj h]))
        · rintro (hmem | heq | hmem)
          · exact absurd (hbelow _ hmem) (lt_irrefl _)
          · rw [(Prod.mk.inj heq).2]
          · exact absurd (habove _ hmem) (lt_irrefl _)

/-! ### Insertion -/

/-- A new key is added to the entries, and the tree stays ordered. -/
theorem insert_new {tree : SearchTree κ ν} (hordered : tree.Ordered) {key : κ} (value : ν)
    (hnew : ∀ entry ∈ tree.entries, entry.1 ≠ key) :
    (tree.insert key value).2 = true ∧ (tree.insert key value).1.Ordered ∧
      (tree.insert key value).1.entries.Perm ((key, value) :: tree.entries) := by
  induction tree with
  | leaf => exact ⟨rfl, pairwise_singleton _ _, .refl _⟩
  | node left current found right height ihleft ihright =>
    obtain ⟨hleft, hright, hbelow, habove⟩ := ordered_node.mp hordered
    rw [insert]
    by_cases hlt : orderKey key < orderKey current
    · rw [if_pos hlt]
      obtain ⟨hinserted, hpart, hperm⟩ :=
        ihleft hleft fun entry hmem => hnew entry (mem_append_left _ hmem)
      refine ⟨hinserted, ?_, ?_⟩
      · unfold Ordered
        rw [entries_balance]
        refine ordered_node.mpr ⟨hpart, hright, fun entry hmem => ?_, habove⟩
        obtain rfl | hmem := mem_cons.mp (hperm.mem_iff.mp hmem)
        · exact hlt
        · exact hbelow entry hmem
      · rw [entries_balance, entries_branch, entries]
        exact hperm.append_right _
    · rw [if_neg hlt]
      by_cases hgt : orderKey current < orderKey key
      · rw [if_pos hgt]
        obtain ⟨hinserted, hpart, hperm⟩ := ihright hright fun entry hmem =>
          hnew entry (mem_append_right _ (mem_cons_of_mem _ hmem))
        refine ⟨hinserted, ?_, ?_⟩
        · unfold Ordered
          rw [entries_balance]
          refine ordered_node.mpr ⟨hleft, hpart, hbelow, fun entry hmem => ?_⟩
          obtain rfl | hmem := mem_cons.mp (hperm.mem_iff.mp hmem)
          · exact hgt
          · exact habove entry hmem
        · rw [entries_balance, entries_branch, entries]
          calc
            _ ~ left.entries ++ (current, found) :: (key, value) :: right.entries :=
              (hperm.cons _).append_left _
            _ ~ left.entries ++ (key, value) :: (current, found) :: right.entries :=
              (List.Perm.swap ..).append_left _
            _ ~ (key, value) :: (left.entries ++ (current, found) :: right.entries) :=
              perm_middle
      · have hkey : key = current :=
          LinearKey.injective (le_antisymm (not_lt.mp hgt) (not_lt.mp hlt))
        refine absurd hkey.symm (hnew (current, found) ?_)
        exact mem_append_right _ (mem_cons_self ..)

end SearchTree

end Fe2o3.Lib
