import Fe2o3.Lib.RowIndex

/-!
# Removing the nodes of a graph along its edges

A table of counters holds the number of edges that come to each node from nodes not yet
removed, and a node enters the work list when its counter reaches zero.  `Counts` is the
invariant, whatever the order in which the work list is kept.
-/

namespace Fe2o3.Lib

open List

variable {n : Nat} {succs : Nat → List Nat} {removed targets counters entered : List Nat}

/-- The ends of the edges from nodes that are not removed. -/
def openTargets (n : Nat) (succs : Nat → List Nat) (removed : List Nat) : List Nat :=
  ((List.range n).filter (· ∉ removed)).flatMap succs

theorem mem_openTargets {t : Nat} :
    t ∈ openTargets n succs removed ↔ ∃ s < n, s ∉ removed ∧ t ∈ succs s := by
  simp [openTargets, and_assoc]

theorem openTargets_perm {i : Nat} (hi : i < n) (hnew : i ∉ removed) :
    (openTargets n succs removed).Perm (succs i ++ openTargets n succs (removed ++ [i])) := by
  have hnodes : ((List.range n).filter (· ∉ removed)).Perm
      (i :: (List.range n).filter (· ∉ removed ++ [i])) := by
    refine (perm_ext_iff_of_nodup (nodup_range.filter _)
      (nodup_cons.mpr ⟨by simp, nodup_range.filter _⟩)).mpr fun t => ?_
    by_cases hti : t = i
    · simp [hti, hi, hnew]
    · simp [hti]
  exact hnodes.flatMap_right succs

/-- The counters and the nodes that have entered, when `targets` are the ends of the edges
    that still count. -/
structure Counts (n : Nat) (targets counters entered : List Nat) : Prop where
  length : counters.length = n
  count : ∀ t < n, counters.getD t 0 = targets.count t
  mem : ∀ t, t ∈ entered ↔ t < n ∧ t ∉ targets
  nodup : entered.Nodup

theorem Counts.perm {targets' entered' : List Nat} (h : Counts n targets counters entered)
    (htargets : targets.Perm targets') (hentered : entered.Perm entered') :
    Counts n targets' counters entered' where
  length := h.length
  count t ht := (h.count t ht).trans (htargets.count_eq t)
  mem t := by rw [← hentered.mem_iff, h.mem t, htargets.mem_iff]
  nodup := hentered.nodup_iff.mp h.nodup

/-- One edge is gone; its end enters if it was the last one. -/
theorem Counts.release {s : Nat} (h : Counts n (s :: targets) counters entered) (hs : s < n) :
    Counts n targets (counters.set s (counters.getD s 0 - 1))
      (if counters.getD s 0 - 1 = 0 then s :: entered else entered) := by
  have hcount : counters.getD s 0 - 1 = targets.count s := by
    rw [h.count s hs, count_cons_self, Nat.add_sub_cancel]
  have hold : s ∉ entered := fun hmem => ((h.mem s).mp hmem).2 mem_cons_self
  rw [hcount]
  refine ⟨by rw [length_set, h.length], fun t ht => ?_, fun t => ?_, ?_⟩
  · rw [getD_set]
    by_cases hst : s = t
    · rw [if_pos ⟨hst, by rw [h.length]; exact hs⟩, hst]
    · rw [if_neg fun both => hst both.1, h.count t ht, count_cons_of_ne hst]
  · simp only [count_eq_zero]
    by_cases hts : t = s
    · by_cases hmem : s ∈ targets
      · simp [hts, hmem, hold]
      · simp [hts, hmem, hs]
    · by_cases hmem : s ∈ targets
      · simp [hts, hmem, h.mem t]
      · simp [hts, hmem, h.mem t]
  · split
    · exact nodup_cons.mpr ⟨hold, h.nodup⟩
    · exact h.nodup

/-- The edges to an entered node come from removed nodes. -/
theorem Counts.removed_of_entered (h : Counts n (openTargets n succs removed) counters entered)
    {s t : Nat} (ht : t ∈ entered) (hs : s < n) (hst : t ∈ succs s) : s ∈ removed := by
  by_contra hopen
  exact ((h.mem t).mp ht).2 (mem_openTargets.mpr ⟨s, hs, hopen, hst⟩)

theorem perm_range {nodes : List Nat} (hnodup : nodes.Nodup) (hbound : ∀ i ∈ nodes, i < n)
    (hlength : n ≤ nodes.length) : nodes.Perm (List.range n) := by
  have hsub : nodes.Subperm (List.range n) :=
    hnodup.subperm fun i hi => mem_range.mpr (hbound i hi)
  exact hsub.perm_of_length_le (by rwa [length_range])

end Fe2o3.Lib
