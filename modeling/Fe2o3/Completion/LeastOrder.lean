import Fe2o3.Completion.GraphFacts

/-!
# The order that the ready set produces

The ready set is kept in ascending id order, so every round takes the least node all of
whose dependencies are ordered (`Greedy`).  Read as nodes, a complete order is a
sequence that respects all references, and the loop completes exactly when no node waits
for itself.
-/

namespace Fe2o3.Completion

open Lib List

/-! ### The ready set is sorted -/

variable {i : Nat}

section Ready

variable {nodes : List CompletionNode} {deps succs : Nat → List Nat} {n : Nat}
  {state : TopologicalState}

instance readyLe_total : Std.Total (readyLe nodes) :=
  ⟨fun left right => by
    simp only [readyLe, UInt32.lt_iff_toNat_lt, ← UInt32.toNat_inj]
    omega⟩

instance readyLe_trans : IsTrans Nat (readyLe nodes) :=
  ⟨fun left middle right => by
    simp only [readyLe, UInt32.lt_iff_toNat_lt, ← UInt32.toNat_inj]
    omega⟩

theorem sorted_insertReady {ready : List Nat} (i : Nat) (h : ready.Pairwise (readyLe nodes)) :
    (insertReady nodes i ready).Pairwise (readyLe nodes) := by
  rw [insertReady]
  split
  · exact h
  · exact h.orderedInsert i ready

theorem sorted_relax (row : List Nat) (h : state.ready.Pairwise (readyLe nodes)) :
    (row.foldl (relaxSuccessor nodes) state).ready.Pairwise (readyLe nodes) := by
  induction row generalizing state with
  | nil => exact h
  | cons first row ih =>
    have hfirst : (relaxSuccessor nodes state first).ready.Pairwise (readyLe nodes) := by
      simp only [relaxSuccessor]
      split
      · exact sorted_insertReady first h
      · exact h
    exact ih hfirst

theorem sorted_topologicalStart (dependencies : List (List Nat)) :
    (topologicalStart nodes dependencies).ready.Pairwise (readyLe nodes) := by
  refine List.foldlRecOn _ _ List.Pairwise.nil fun ready hready i _ => ?_
  split
  · exact sorted_insertReady i hready
  · exact hready

/-- Every ordered node was least among those whose dependencies were ordered. -/
structure Greedy (nodes : List CompletionNode) (deps : Nat → List Nat) (n : Nat)
    (state : TopologicalState) : Prop where
  sorted : state.ready.Pairwise (readyLe nodes)
  least : ∀ front i back, state.order = front ++ i :: back → ∀ k < n, k ∉ front →
    (∀ j ∈ deps k, j ∈ front) → readyLe nodes i k

/-- A node whose dependencies are ordered is ordered or ready. -/
theorem OrderInv.mem_of_dependencies (inv : OrderInv deps n state) {k : Nat} (hk : k < n)
    (hdeps : ∀ j ∈ deps k, j ∈ state.order) : k ∈ state.order ++ state.ready := by
  rw [inv.ready k hk, inv.indegree k hk, countP_eq_zero]
  intro j hj
  simpa using hdeps j hj

theorem Greedy.round (inv : OrderInv deps n state) (greedy : Greedy nodes deps n state)
    {rest : List Nat} (hready : state.ready = i :: rest) :
    Greedy nodes deps n ((succs i).foldl (relaxSuccessor nodes)
      { state with ready := rest, order := state.order ++ [i] }) := by
  have hsorted := greedy.sorted
  rw [hready] at hsorted
  obtain ⟨hfirst, hrest⟩ := pairwise_cons.mp hsorted
  refine ⟨sorted_relax _ hrest, fun front j back hsplit => ?_⟩
  rw [order_round] at hsplit
  obtain ⟨rfl, rfl⟩ | ⟨back', horder⟩ := snoc_eq_append_cons hsplit
  · intro k hk hfresh hdeps
    have hmem := (mem_append.mp (inv.mem_of_dependencies hk hdeps)).resolve_left hfresh
    rw [hready] at hmem
    obtain rfl | hmem := mem_cons.mp hmem
    · exact Or.inr ⟨rfl, le_refl k⟩
    · exact hfirst k hmem
  · exact greedy.least front j back' horder

theorem topologicalLoop_greedy (rows : Rows deps succs n) (fuel : Nat)
    (inv : OrderInv deps n state) (greedy : Greedy nodes deps n state) :
    Greedy nodes deps n (topologicalLoop nodes succs fuel state) := by
  induction fuel generalizing state with
  | zero => exact greedy
  | succ fuel ih =>
    rw [topologicalLoop]
    split
    · exact greedy
    · rename_i hready
      exact ih (inv.round rows hready) (greedy.round inv hready)

end Ready

/-! ### Orders read as sequences of nodes -/

/-- A node waits for another: as its stream predecessor or as the record of its event. -/
def Waits (nodes : List CompletionNode) (node other : CompletionNode) : Prop :=
  node ∈ nodes ∧ other ∈ nodes ∧ other.id ∈ node.references

/-- A sequence of all nodes in which every node stands after those it waits for. -/
structure Respects (nodes sequence : List CompletionNode) : Prop where
  perm : sequence.Perm nodes
  earlier : ∀ front node back, sequence = front ++ node :: back → ∀ other, Waits nodes node other →
    other ∈ front

variable {node other : CompletionNode} {sequence : List CompletionNode}

section Sequences

variable {nodes : List CompletionNode} {order : List Nat}

/-- The call that the constructor makes. -/
def topologicalIndices (nodes : List CompletionNode) : Except CompletionGraphError (List Nat) :=
  deterministicTopologicalOrder nodes (dependencyIndices nodes)
    (successorIndex (dependencyIndices nodes)).1 (successorIndex (dependencyIndices nodes)).2

theorem mem_dependencies_iff (ids : (nodes.map (·.id)).Nodup) {j : Nat}
    (hnode : nodes[i]? = some node) (hother : nodes[j]? = some other) :
    j ∈ (dependencyIndices nodes).getD i [] ↔ Waits nodes node other := by
  rw [mem_dependencyIndices ids]
  constructor
  · rintro ⟨node', other', hnode', hother', hmem⟩
    rw [hnode] at hnode'
    rw [hother] at hother'
    cases hnode'
    cases hother'
    exact ⟨mem_of_getElem? hnode, mem_of_getElem? hother, hmem⟩
  · rintro ⟨-, -, hmem⟩
    exact ⟨node, other, hnode, hother, hmem⟩

/-- A complete order lists the nodes after what they wait for, and takes the node of
    least id whenever it has a choice. -/
theorem topologicalIndices_ok (ids : (nodes.map (·.id)).Nodup)
    (h : topologicalIndices nodes = .ok order) :
    Respects nodes (order.filterMap (nodes[·]?)) ∧
      ∀ front node back, order.filterMap (nodes[·]?) = front ++ node :: back → ∀ other ∈ nodes,
        other ∉ front → (∀ dependency, Waits nodes other dependency → dependency ∈ front) →
        node.id.get ≤ other.id.get := by
  have rows := rows_of_dependencyIndices nodes
  have hlength := length_dependencyIndices nodes
  obtain ⟨hperm, hordered⟩ := deterministicTopologicalOrder_ok hlength rows h
  have hgreedy := @topologicalLoop_greedy nodes _ _ _ _ rows nodes.length
    (topologicalStart_inv hlength)
    ⟨sorted_topologicalStart _, fun front i back hsplit => by simp [topologicalStart] at hsplit⟩
  have horder : (topologicalLoop nodes (rowSlice (successorIndex (dependencyIndices nodes)).1
      (successorIndex (dependencyIndices nodes)).2) nodes.length
      (topologicalStart nodes (dependencyIndices nodes))).order = order := by
    simpa using (check_eq_ok.mp h).2
  refine ⟨⟨?_, fun front node back hsplit other hwaits => ?_⟩,
    fun front node back hsplit other hother hfresh hdeps => ?_⟩
  · have := hperm.filterMap (nodes[·]?)
    rwa [filterMap_range_getElem?] at this
  · obtain ⟨before, i, after, rfl, hi, rfl⟩ := filterMap_split hsplit
    obtain ⟨j, hj⟩ := getElem?_of_mem hwaits.2.1
    exact (mem_filterMap_getElem? ids.of_map hj).mpr
      (hordered before i after rfl j ((mem_dependencies_iff ids hi hj).mpr hwaits))
  · obtain ⟨before, i, after, rfl, hi, rfl⟩ := filterMap_split hsplit
    obtain ⟨k, hk⟩ := getElem?_of_mem hother
    have hle := hgreedy.least before i after horder k (List.getElem?_eq_some_iff.mp hk).1
      (fun h => hfresh ((mem_filterMap_getElem? ids.of_map hk).mpr h)) (fun j hj => by
        have hj' := getElem?_eq_getElem (rows.bound hj).2
        exact (mem_filterMap_getElem? ids.of_map hj').mp
          (hdeps _ ((mem_dependencies_iff ids hk hj').mp hj)))
    rw [readyLe, hi, hk] at hle
    exact hle.elim UInt32.le_of_lt fun h => UInt32.le_of_eq h.1

theorem Respects.idxOf_lt (h : Respects nodes sequence) (hwaits : Waits nodes node other) :
    sequence.idxOf other < sequence.idxOf node := by
  obtain ⟨front, back, hsplit, hfirst⟩ := eq_append_cons_of_mem (h.perm.mem_iff.mpr hwaits.1)
  have hother := h.earlier front node back hsplit other hwaits
  rw [hsplit, idxOf_append_of_mem hother, idxOf_append_of_notMem hfirst,
    idxOf_cons_self]
  exact idxOf_lt_length_of_mem hother

theorem Respects.acyclic (h : Respects nodes sequence) (node : CompletionNode) :
    ¬Relation.TransGen (Waits nodes) node node := by
  have hlt : ∀ other, Relation.TransGen (Waits nodes) node other →
      sequence.idxOf other < sequence.idxOf node := by
    intro other hother
    induction hother with
    | single hwaits => exact h.idxOf_lt hwaits
    | tail _ hwaits ih => exact (h.idxOf_lt hwaits).trans ih
  exact fun hcycle => lt_irrefl _ (hlt node hcycle)

/-- Without a cycle the loop orders every node: an index that never becomes ready waits
    for another one. -/
theorem exists_topologicalIndices (ids : (nodes.map (·.id)).Nodup)
    (acyclic : ∀ node, ¬Relation.TransGen (Waits nodes) node node) :
    ∃ order, topologicalIndices nodes = .ok order := by
  have rows := rows_of_dependencyIndices nodes
  have hlength := length_dependencyIndices nodes
  have hready := @topologicalLoop_ready nodes _ _ _ _ rows nodes.length
    (topologicalStart_inv hlength) (Nat.le_add_left _ _)
  have inv := @topologicalLoop_inv nodes _ _ _ _ rows nodes.length (topologicalStart_inv hlength)
  rw [topologicalIndices, deterministicTopologicalOrder]
  generalize topologicalLoop nodes _ nodes.length _ = final at hready inv
  let before (j i : Fin nodes.length) : Prop := j.1 ∈ (dependencyIndices nodes).getD i.1 []
  have hwaits : ∀ j i, before j i → Waits nodes nodes[i] nodes[j] := fun j i h =>
    (mem_dependencies_iff ids (getElem?_eq_getElem i.2) (getElem?_eq_getElem j.2)).mp h
  have hirrefl : Std.Irrefl (Relation.TransGen before) := ⟨fun i hcycle => acyclic nodes[i] <|
    Relation.transGen_swap.mp (hcycle.lift (fun i => nodes[i]) hwaits)⟩
  have hwf : WellFounded before := Subrelation.wf Relation.TransGen.single
    (Finite.wellFounded_of_trans_of_irrefl (Relation.TransGen before))
  have hall : ∀ i : Fin nodes.length, i.1 ∈ final.order := by
    intro i
    induction i using hwf.induction with
    | h i ih =>
      have hmem := inv.mem_of_dependencies i.2 fun j hj => ih ⟨j, (rows.bound hj).2⟩ hj
      rwa [hready, append_nil] at hmem
  have hle : nodes.length ≤ final.order.length := by
    have hsub := nodup_range.subperm fun i hi => hall ⟨i, mem_range.mp hi⟩
    simpa using hsub.length_le
  have hge := length_le_of_bound inv.nodup inv.bound
  rw [hready, append_nil] at hge
  exact ⟨final.order, if_neg (not_not.mpr (Nat.le_antisymm hge hle))⟩

end Sequences

end Fe2o3.Completion
