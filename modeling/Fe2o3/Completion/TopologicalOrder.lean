import Fe2o3.Completion.Graph
import Fe2o3.Lib.Elimination
import Fe2o3.Lib.Sequence

/-!
# The topological order of a completion graph

`OrderInv` is the invariant of the ready-set loop: the indegree of a node counts its
dependencies that are not yet in the order, the nodes of indegree zero are exactly those
that are ready or ordered, and the order lists every node after all its dependencies.
From it follow that the fuel of the loop is never what stops it, and that ranks decrease
along dependencies when all nodes were ordered.
-/

namespace Fe2o3.Completion

open Lib List

/-! ### One round -/

variable {nodes : List CompletionNode} {ready : List Nat}

variable {i : Nat}

theorem perm_insertReady (h : i ∉ ready) : (insertReady nodes i ready).Perm (i :: ready) := by
  rw [insertReady, if_neg h]
  exact perm_orderedInsert _ i ready

theorem mem_insertReady {x : Nat} : x ∈ insertReady nodes i ready ↔ x = i ∨ x ∈ ready := by
  by_cases hmem : i ∈ ready
  · rw [insertReady, if_pos hmem]
    exact (or_iff_right_of_imp fun h => h ▸ hmem).symm
  · rw [(perm_insertReady hmem).mem_iff, mem_cons]

theorem nodup_insertReady (i : Nat) (h : ready.Nodup) : (insertReady nodes i ready).Nodup := by
  by_cases hmem : i ∈ ready
  · rwa [insertReady, if_pos hmem]
  · exact (perm_insertReady hmem).nodup_iff.mpr (nodup_cons.mpr ⟨hmem, h⟩)

/-- Relaxing a row takes its edges out of the counters. -/
theorem counts_relax {n : Nat} {row targets : List Nat}
    {state : TopologicalState} (hrow : ∀ s ∈ row, s < n)
    (h : Counts n (row ++ targets) state.indegrees (state.order ++ state.ready)) :
    Counts n targets (row.foldl (relaxSuccessor nodes) state).indegrees
      ((row.foldl (relaxSuccessor nodes) state).order ++
        (row.foldl (relaxSuccessor nodes) state).ready) := by
  induction row generalizing state with
  | nil => exact h
  | cons s row ih =>
    refine ih (fun t ht => hrow t (mem_cons_of_mem _ ht)) ?_
    have hnew : s ∉ state.ready := fun hmem =>
      ((h.mem s).mp (mem_append_right _ hmem)).2 mem_cons_self
    refine (h.release (hrow s mem_cons_self)).perm (.refl _) ?_
    simp only [relaxSuccessor]
    split
    · exact perm_middle.symm.trans ((perm_insertReady hnew).symm.append_left state.order)
    · exact .refl _

/-! ### The invariant of the loop -/

variable {indices : List Nat} {p : Nat → Prop}

section

variable (nodes) (deps succs : Nat → List Nat)

/-- The dependency rows `deps` and the successor rows `succs` of the same graph
    on the indices below `n`. -/
structure Rows (n : Nat) : Prop where
  bound : ∀ {s j}, j ∈ deps s → s < n ∧ j < n
  nodup : ∀ s, (deps s).Nodup
  mem_succs : ∀ {i s}, i < n → (s ∈ succs i ↔ i ∈ deps s)
  nodup_succs : ∀ {i}, i < n → (succs i).Nodup

structure OrderInv (n : Nat) (state : TopologicalState) : Prop where
  bound : ∀ i ∈ state.order ++ state.ready, i < n
  nodup : (state.order ++ state.ready).Nodup
  length : state.indegrees.length = n
  indegree : ∀ s < n, state.indegrees.getD s 0 = (deps s).countP (· ∉ state.order)
  ready : ∀ s < n, s ∈ state.order ++ state.ready ↔ state.indegrees.getD s 0 = 0
  ordered : ∀ front i back, state.order = front ++ i :: back → ∀ j ∈ deps i, j ∈ front

variable {nodes deps succs}

variable {n : Nat} {state : TopologicalState}

theorem count_flatMap_of_nodup (h : ∀ i ∈ indices, (succs i).Nodup) (s : Nat) :
    (indices.flatMap succs).count s = indices.countP (s ∈ succs ·) := by
  induction indices with
  | nil => rfl
  | cons i indices ih =>
    rw [flatMap_cons, count_append, countP_cons, (h i mem_cons_self).count,
      ih fun j hj => h j (mem_cons_of_mem _ hj), Nat.add_comm]
    simp

theorem order_round (state : TopologicalState) (i : Nat) (rest row : List Nat) :
    (row.foldl (relaxSuccessor nodes)
      { state with ready := rest, order := state.order ++ [i] }).order = state.order ++ [i] := by
  generalize hstart : ({ state with ready := rest, order := state.order ++ [i] } :
    TopologicalState) = start
  have horder : start.order = state.order ++ [i] := by rw [← hstart]
  clear hstart
  induction row generalizing start with
  | nil => exact horder
  | cons first row ih => exact ih (relaxSuccessor nodes start first) horder

theorem length_le_of_bound {xs : List Nat} (nodup : xs.Nodup) (bound : ∀ x ∈ xs, x < n) :
    xs.length ≤ n := by
  have hsub : List.Subperm xs (List.range n) :=
    nodup.subperm fun x hx => mem_range.mpr (bound x hx)
  simpa using hsub.length_le

section

variable (rows : Rows deps succs n)
include rows

/-- The edges from nodes that are not ordered, as open dependencies. -/
theorem count_openTargets (order : List Nat) (s : Nat) :
    (openTargets n succs order).count s = (deps s).countP (· ∉ order) := by
  rw [openTargets, count_flatMap_of_nodup fun i hi =>
      rows.nodup_succs (mem_range.mp (mem_of_mem_filter hi)),
    countP_eq_length_filter, countP_eq_length_filter]
  refine ((perm_ext_iff_of_nodup ((nodup_range.filter _).filter _)
    ((rows.nodup s).filter _)).mpr fun i => ?_).length_eq
  simp only [mem_filter, mem_range, decide_eq_true_eq]
  constructor
  · rintro ⟨⟨hi, hopen⟩, hmem⟩
    exact ⟨(rows.mem_succs hi).mp hmem, hopen⟩
  · rintro ⟨hmem, hopen⟩
    have hi := (rows.bound hmem).2
    exact ⟨⟨hi, hopen⟩, (rows.mem_succs hi).mpr hmem⟩

theorem orderInv_iff : OrderInv deps n state ↔
    Counts n (openTargets n succs state.order) state.indegrees (state.order ++ state.ready) ∧
      ∀ front i back, state.order = front ++ i :: back → ∀ j ∈ deps i, j ∈ front := by
  have hcount := count_openTargets rows state.order
  constructor
  · intro inv
    refine ⟨⟨inv.length, fun s hs => (inv.indegree s hs).trans (hcount s).symm, fun s => ?_,
      inv.nodup⟩, inv.ordered⟩
    rw [← count_eq_zero, hcount]
    constructor
    · intro hs
      have hlt := inv.bound s hs
      exact ⟨hlt, (inv.indegree s hlt).symm.trans ((inv.ready s hlt).mp hs)⟩
    · rintro ⟨hlt, hzero⟩
      exact (inv.ready s hlt).mpr ((inv.indegree s hlt).trans hzero)
  · rintro ⟨counts, hordered⟩
    refine ⟨fun s hs => ((counts.mem s).mp hs).1, counts.nodup, counts.length,
      fun s hs => (counts.count s hs).trans (hcount s), fun s hs => ?_, hordered⟩
    rw [counts.mem, counts.count s hs, count_eq_zero]
    exact and_iff_right hs

theorem OrderInv.round (inv : OrderInv deps n state) {rest : List Nat}
    (hready : state.ready = i :: rest) :
    OrderInv deps n ((succs i).foldl (relaxSuccessor nodes)
      { state with ready := rest, order := state.order ++ [i] }) := by
  obtain ⟨counts, hordered⟩ := (orderInv_iff rows).mp inv
  rw [hready] at counts
  have hmem : i ∈ state.order ++ i :: rest := mem_append_right _ mem_cons_self
  have hi : i < n := ((counts.mem i).mp hmem).1
  have hnew : i ∉ state.order := fun h =>
    (nodup_append.mp counts.nodup).2.2 i h i mem_cons_self rfl
  refine (orderInv_iff rows).mpr ⟨?_, fun front j back hsplit => ?_⟩
  · rw [order_round]
    have hrelaxed := @counts_relax nodes n (succs i) _
      { state with ready := rest, order := state.order ++ [i] }
      (fun s hs => (rows.bound ((rows.mem_succs hi).mp hs)).1)
      (counts.perm (openTargets_perm hi hnew) (by simp))
    rwa [order_round] at hrelaxed
  · rw [order_round] at hsplit
    obtain ⟨rfl, rfl⟩ | ⟨back', horder⟩ := snoc_eq_append_cons hsplit
    · intro k hk
      have hlt := (rows.bound hk).2
      exact counts.removed_of_entered hmem hlt ((rows.mem_succs hlt).mpr hk)
    · exact hordered front j back' horder

/-! ### The whole loop -/

theorem topologicalLoop_inv (fuel : Nat) (inv : OrderInv deps n state) :
    OrderInv deps n (topologicalLoop nodes succs fuel state) := by
  induction fuel generalizing state with
  | zero => exact inv
  | succ fuel ih =>
    rw [topologicalLoop]
    split
    · exact inv
    · rename_i hready
      exact ih (inv.round rows hready)

/-- With as many rounds as there are nodes left, the loop ends because the ready
    set is empty. -/
theorem topologicalLoop_ready (fuel : Nat)
    (inv : OrderInv deps n state) (hfuel : n ≤ state.order.length + fuel) :
    (topologicalLoop nodes succs fuel state).ready = [] := by
  induction fuel generalizing state with
  | zero =>
    rw [topologicalLoop]
    have hlength := length_le_of_bound inv.nodup inv.bound
    rw [length_append] at hlength
    exact length_eq_zero_iff.mp (by omega)
  | succ fuel ih =>
    rw [topologicalLoop]
    split
    · assumption
    · rename_i i rest hready
      refine ih (inv.round rows hready) ?_
      rw [order_round, length_append, length_singleton]
      omega

end

theorem mem_foldl_insertReady [DecidablePred p] (indices ready : List Nat) (x : Nat) :
    x ∈ indices.foldl (fun ready i => if p i then insertReady nodes i ready else ready) ready ↔
      x ∈ ready ∨ (x ∈ indices ∧ p x) := by
  induction indices generalizing ready with
  | nil => simp
  | cons i indices ih =>
    rw [foldl_cons, ih]
    by_cases hi : p i
    · rw [if_pos hi, mem_insertReady]
      by_cases hx : x = i
      · subst hx; simp [hi]
      · simp [hx]
    · rw [if_neg hi]
      by_cases hx : x = i
      · subst hx; simp [hi]
      · simp [hx]

theorem nodup_foldl_insertReady [DecidablePred p] (indices : List Nat) (h : ready.Nodup) :
    (indices.foldl (fun ready i => if p i then insertReady nodes i ready else ready)
      ready).Nodup := by
  induction indices generalizing ready with
  | nil => exact h
  | cons i indices ih =>
    rw [foldl_cons]
    split
    · exact ih (nodup_insertReady i h)
    · exact ih h

end

variable {dependencies : List (List Nat)}

/-- The state before the first round. -/
theorem topologicalStart_inv (hlength : dependencies.length = nodes.length) :
    OrderInv (fun s => dependencies.getD s []) nodes.length
      (topologicalStart nodes dependencies) := by
  have hindegree : ∀ s, (dependencies.map (·.length)).getD s 0 =
      (dependencies.getD s []).length := by
    intro s
    rw [getD_eq_getElem?_getD, getD_eq_getElem?_getD, getElem?_map]
    cases dependencies[s]? <;> rfl
  have hmem : ∀ x, x ∈ (topologicalStart nodes dependencies).ready ↔
      x < nodes.length ∧ (dependencies.map (·.length)).getD x 0 = 0 := by
    intro x
    have := @mem_foldl_insertReady nodes
      (fun i => (dependencies.map (·.length)).getD i 0 = 0) _ (List.range nodes.length) [] x
    exact this.trans (by simp)
  refine ⟨?_, ?_, ?_, ?_, ?_, ?_⟩
  · intro i hi
    exact ((hmem i).mp (by simpa [topologicalStart] using hi)).1
  · exact nodup_foldl_insertReady _ nodup_nil
  · rw [← hlength]; exact length_map _
  · intro s _
    show (dependencies.map (·.length)).getD s 0 = _
    rw [hindegree]
    simp [topologicalStart]
  · intro s hs
    exact (hmem s).trans ⟨fun h => h.2, fun h => ⟨hs, h⟩⟩
  · intro front i back hsplit
    simp [topologicalStart] at hsplit

/-- A successful topological order lists every index once, each after its
    dependencies. -/
theorem deterministicTopologicalOrder_ok {offsets order : List Nat}
    (hlength : dependencies.length = nodes.length)
    (rows : Rows (fun s => dependencies.getD s []) (rowSlice offsets indices) nodes.length)
    (h : deterministicTopologicalOrder nodes dependencies offsets indices = .ok order) :
    order.Perm (List.range nodes.length) ∧
      ∀ front i back, order = front ++ i :: back → ∀ j ∈ dependencies.getD i [], j ∈ front := by
  rw [deterministicTopologicalOrder] at h
  have inv := @topologicalLoop_inv nodes _ _ _ _ rows nodes.length (topologicalStart_inv hlength)
  simp only [ne_eq, ite_not] at h
  split at h
  · rename_i hfull
    cases h
    refine ⟨?_, inv.ordered⟩
    exact perm_range (nodup_append.mp inv.nodup).1
      (fun i hi => inv.bound i (mem_append_left _ hi)) (Nat.le_of_eq hfull.symm)
  · cases h

end Fe2o3.Completion
