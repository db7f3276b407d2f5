import Fe2o3.Completion.TopologicalOrder
import Fe2o3.Lib.Outcome

/-!
# What an accepted completion graph guarantees

`WellFormed` collects the facts that the authority relies on: node ids are distinct, the
dependency rows are the references of the node records, the successor rows are their
exact inverse, and the topological rank decreases along every dependency, so the graph
is acyclic.  This module reads off the rows; `new_wellFormed` in the module about the
constructor then derives all of the facts from a successful call.
-/

namespace Fe2o3.Completion

open Lib List

/-! ### References of the node records -/

/-- The node ids that a node record names as what it waits for. -/
def CompletionNode.references (node : CompletionNode) : List CompletionNodeId :=
  node.streamPredecessor.toList ++ node.kind.recordedBy.toList

/-- Node `i` of the graph names node `j` as its stream predecessor or as the
    record of the event it waits for. -/
def CompletionGraph.dependsOn (graph : CompletionGraph) (i j : Nat) : Prop :=
  ∃ node other, graph.nodes[i]? = some node ∧ graph.nodes[j]? = some other ∧
    other.id ∈ node.references

/-- What the authority relies on about its graph. -/
structure WellFormed (graph : CompletionGraph) : Prop where
  ids : (graph.nodes.map (·.id)).Nodup
  rows : graph.dependencyIndices.length = graph.nodes.length
  mem_dependencies : ∀ {i j}, j ∈ graph.dependencies i ↔ graph.dependsOn i j
  nodup_dependencies : ∀ i, (graph.dependencies i).Nodup
  mem_successors : ∀ {i s}, i < graph.nodes.length →
    (s ∈ graph.successors i ↔ i ∈ graph.dependencies s)
  nodup_successors : ∀ {i}, i < graph.nodes.length → (graph.successors i).Nodup
  rank_lt : ∀ {i j}, j ∈ graph.dependencies i → graph.topologicalRank j < graph.topologicalRank i

variable {graph : CompletionGraph}

variable {j i : Nat}

theorem dependsOn_lt (h : graph.dependsOn i j) :
    i < graph.nodes.length ∧ j < graph.nodes.length := by
  obtain ⟨node, other, hi, hj, _⟩ := h
  exact ⟨(List.getElem?_eq_some_iff.mp hi).1, (List.getElem?_eq_some_iff.mp hj).1⟩

/-! ### Node ids -/

theorem nodeId_ext {left right : CompletionNodeId} (h : left.get = right.get) : left = right := by
  cases left; cases right; cases h; rfl

/-- In a sorted list, equal elements are adjacent. -/
theorem adjacentDuplicate_eq_none {α : Type} [DecidableEq α] {le : α → α → Prop} {l : List α}
    (antisymm : ∀ a b, le a b → le b a → a = b) (sorted : l.Pairwise le) :
    adjacentDuplicate l = none ↔ l.Nodup := by
  induction l with
  | nil => exact iff_of_true rfl nodup_nil
  | cons first rest ih =>
    cases rest with
    | nil => exact iff_of_true rfl (nodup_singleton first)
    | cons second rest =>
      obtain ⟨hfirst, hrest⟩ := pairwise_cons.mp sorted
      rw [adjacentDuplicate, nodup_cons, ← ih hrest]
      by_cases heq : first = second
      · simp [heq]
      · rw [if_neg heq]
        refine (and_iff_right fun hmem => heq ?_).symm
        obtain heq | hlater := mem_cons.mp hmem
        · exact heq
        · exact antisymm _ _ (hfirst second mem_cons_self)
            ((pairwise_cons.mp hrest).1 first hlater)

theorem sorted_nodes (nodes : List CompletionNode) :
    (nodes.insertionSort (fun left right => left.id.get ≤ right.id.get)).Pairwise
      (fun left right => left.id.get ≤ right.id.get) := by
  exact pairwise_insertionSort _ nodes

variable {nodes : List CompletionNode}

theorem checkNodeIds_eq_ok
    (sorted : nodes.Pairwise (fun left right => left.id.get ≤ right.id.get)) :
    checkNodeIds nodes = .ok () ↔ (nodes.map (·.id)).Nodup := by
  rw [← adjacentDuplicate_eq_none (fun _ _ hforth hback => nodeId_ext
    (UInt32.le_antisymm hforth hback)) (pairwise_map.mpr sorted), checkNodeIds]
  cases adjacentDuplicate (nodes.map (·.id)) with
  | none => exact iff_of_true rfl rfl
  | some id => exact iff_of_false nofun nofun

/-- With distinct ids, the index lookup is the inverse of reading an id. -/
theorem nodeIndex_eq_some (ids : (nodes.map (·.id)).Nodup) {id : CompletionNodeId} :
    nodeIndex nodes id = some i ↔ ∃ node, nodes[i]? = some node ∧ node.id = id := by
  rw [nodeIndex, findIdx?_eq_some_iff_getElem]
  constructor
  · rintro ⟨hi, hid, _⟩
    exact ⟨nodes[i], getElem?_eq_getElem hi, by simpa using hid⟩
  · rintro ⟨node, hnode, hid⟩
    obtain ⟨hi, rfl⟩ := List.getElem?_eq_some_iff.mp hnode
    refine ⟨hi, by simpa using hid, fun j hji hj => ?_⟩
    have hj' : nodes[j].id = nodes[i].id := by simpa [hid] using hj
    have hin : i < (nodes.map (·.id)).length := by simpa using hi
    have hsame : (nodes.map (·.id))[j] = (nodes.map (·.id))[i] := by
      simpa using hj'
    exact absurd (ids.getElem_inj_iff.mp hsame) (Nat.ne_of_lt hji)

/-! ### Dependency rows -/

variable {indices : List Nat}

theorem mem_pushDistinct {index : Option Nat} :
    j ∈ pushDistinct indices index ↔ j ∈ indices ∨ index = some j := by
  cases index with
  | none => simp [pushDistinct]
  | some index =>
    rw [pushDistinct]
    split
    · rename_i hmem
      constructor
      · exact Or.inl
      · rintro (h | h)
        · exact h
        · cases h; exact hmem
    · simp [eq_comm]

theorem nodup_pushDistinct (h : indices.Nodup) (index : Option Nat) :
    (pushDistinct indices index).Nodup := by
  cases index with
  | none => exact h
  | some index =>
    rw [pushDistinct]
    split
    · exact h
    · rename_i hmem
      exact h.append (nodup_singleton index) (by simpa using hmem)

theorem mem_nodeDependencies {node : CompletionNode} :
    j ∈ nodeDependencies nodes node ↔ ∃ id ∈ node.references, nodeIndex nodes id = some j := by
  rw [nodeDependencies, mem_insertionSort, mem_pushDistinct, CompletionNode.references]
  constructor
  · rintro (h | h)
    · obtain ⟨id, hid, hindex⟩ := Option.bind_eq_some_iff.mp (Option.mem_toList.mp h)
      exact ⟨id, by simp [hid], hindex⟩
    · obtain ⟨id, hid, hindex⟩ := Option.bind_eq_some_iff.mp h
      exact ⟨id, by simp [hid], hindex⟩
  · rintro ⟨id, hid, hindex⟩
    rcases mem_append.mp hid with h | h
    · exact .inl (Option.mem_toList.mpr
        (Option.bind_eq_some_iff.mpr ⟨id, Option.mem_toList.mp h, hindex⟩))
    · exact .inr (Option.bind_eq_some_iff.mpr ⟨id, Option.mem_toList.mp h, hindex⟩)

theorem nodup_nodeDependencies (nodes : List CompletionNode) (node : CompletionNode) :
    (nodeDependencies nodes node).Nodup := by
  rw [nodeDependencies, (perm_insertionSort _ _).nodup_iff]
  refine nodup_pushDistinct ?_ _
  cases node.streamPredecessor.bind (nodeIndex nodes) <;> simp

theorem length_dependencyIndices (nodes : List CompletionNode) :
    (dependencyIndices nodes).length = nodes.length :=
  length_map _

theorem mem_dependencyIndices (ids : (nodes.map (·.id)).Nodup) :
    j ∈ (dependencyIndices nodes).getD i [] ↔
      ∃ node other, nodes[i]? = some node ∧ nodes[j]? = some other ∧
        other.id ∈ node.references := by
  rw [dependencyIndices, getD_eq_getElem?_getD, getElem?_map]
  cases hnode : nodes[i]? with
  | none => simp
  | some node =>
    simp only [Option.map_some, Option.getD_some, mem_nodeDependencies, nodeIndex_eq_some ids]
    constructor
    · rintro ⟨id, hid, other, hother, rfl⟩
      exact ⟨node, other, rfl, hother, hid⟩
    · rintro ⟨node', other, hnode', hother, hid⟩
      cases hnode'
      exact ⟨other.id, hid, other, hother, rfl⟩

/-! ### Successor rows -/

variable {dependencies : List (List Nat)}

theorem mem_dependencyEdges {p s : Nat} :
    (p, s) ∈ dependencyEdges dependencies ↔ p ∈ dependencies.getD s [] := by
  simp only [dependencyEdges, mem_flatMap, mem_map, Prod.mk.injEq, Prod.exists,
    mem_zipIdx_iff_getElem?]
  constructor
  · rintro ⟨row, index, hrow, predecessor, hmem, rfl, rfl⟩
    simpa [getD_eq_getElem?_getD, hrow] using hmem
  · intro hmem
    cases hrow : dependencies[s]? with
    | none => simp [getD_eq_getElem?_getD, hrow] at hmem
    | some row =>
      simpa [getD_eq_getElem?_getD, hrow] using hmem

/-- One dependency row contributes its successor at most once to a successor row. -/
theorem row_map_pair {predecessors : List Nat} (nodup : predecessors.Nodup) (s p : Nat) :
    row (predecessors.map (fun predecessor => (predecessor, s))) p =
      if p ∈ predecessors then [s] else [] := by
  induction predecessors with
  | nil => rfl
  | cons first rest ih =>
    obtain ⟨hfirst, hrest⟩ := nodup_cons.mp nodup
    rw [map_cons, ← singleton_append, row_append, row_singleton, ih hrest]
    by_cases hp : first = p
    · subst hp
      simp [hfirst]
    · simp [hp, Ne.symm hp]

theorem nodup_row_dependencyEdges (nodup : ∀ predecessors ∈ dependencies, predecessors.Nodup)
    (p : Nat) : (row (dependencyEdges dependencies) p).Nodup := by
  have hgeneral : ∀ rows : List (List Nat × Nat), (rows.map (·.2)).Nodup →
      (∀ entry ∈ rows, entry.1.Nodup) →
      (row (rows.flatMap (fun entry => entry.1.map (fun predecessor => (predecessor, entry.2))))
        p).Nodup := by
    intro rows
    induction rows with
    | nil => intro _ _; exact nodup_nil
    | cons entry rest ih =>
      intro hvalues hrows
      obtain ⟨hfresh, hrest⟩ := nodup_cons.mp hvalues
      rw [flatMap_cons, row_append, row_map_pair (hrows entry mem_cons_self)]
      refine List.Nodup.append ?_ (ih hrest fun e he => hrows e (mem_cons_of_mem _ he)) ?_
      · split
        · exact nodup_singleton _
        · exact nodup_nil
      · intro x hx hx'
        have hxs : x = entry.2 := by
          by_cases hp : p ∈ entry.1
          · simpa [hp] using hx
          · simp [hp] at hx
        rw [mem_row, mem_flatMap] at hx'
        obtain ⟨other, hother, hpair⟩ := hx'
        obtain ⟨_, _, heq⟩ := mem_map.mp hpair
        have : other.2 = x := congrArg Prod.snd heq
        exact hfresh (mem_map.mpr ⟨other, hother, this.trans hxs⟩)
  refine hgeneral dependencies.zipIdx ?_ fun entry hentry => ?_
  · rw [zipIdx_map_snd]
    exact nodup_range' 1
  · exact nodup entry.1 (fst_mem_of_mem_zipIdx hentry)

theorem rows_of_dependencyIndices (nodes : List CompletionNode) :
    Rows (fun s => (dependencyIndices nodes).getD s [])
      (rowSlice (successorIndex (dependencyIndices nodes)).1
        (successorIndex (dependencyIndices nodes)).2) nodes.length := by
  have hget : ∀ s, (dependencyIndices nodes).getD s [] =
      (nodes[s]?.map (nodeDependencies nodes)).getD [] := by
    intro s
    rw [dependencyIndices, getD_eq_getElem?_getD, getElem?_map]
  have hlength := length_dependencyIndices nodes
  have hbound : ∀ {s j}, j ∈ (dependencyIndices nodes).getD s [] →
      s < nodes.length ∧ j < nodes.length := by
    intro s j hj
    rw [hget] at hj
    cases hnode : nodes[s]? with
    | none => simp [hnode] at hj
    | some node =>
      refine ⟨(List.getElem?_eq_some_iff.mp hnode).1, ?_⟩
      rw [hnode] at hj
      obtain ⟨id, _, hindex⟩ := mem_nodeDependencies.mp hj
      rw [nodeIndex, findIdx?_eq_some_iff_getElem] at hindex
      exact hindex.1
  have hedges : ∀ entry ∈ dependencyEdges (dependencyIndices nodes),
      entry.1 < (dependencyIndices nodes).length := by
    rintro ⟨p, s⟩ hmem
    rw [hlength]
    exact (hbound (mem_dependencyEdges.mp hmem)).2
  have hslice : ∀ {i}, i < nodes.length →
      rowSlice (successorIndex (dependencyIndices nodes)).1
        (successorIndex (dependencyIndices nodes)).2 i =
      row (dependencyEdges (dependencyIndices nodes)) i :=
    fun hi => rowSlice_fillRows hedges 0 (by rw [hlength]; exact hi)
  have hnodup : ∀ predecessors ∈ dependencyIndices nodes, predecessors.Nodup := by
    intro predecessors hmem
    obtain ⟨node, _, rfl⟩ := mem_map.mp hmem
    exact nodup_nodeDependencies nodes node
  refine ⟨hbound, ?_, ?_, ?_⟩
  · intro s
    rw [hget]
    cases nodes[s]? with
    | none => exact nodup_nil
    | some node => exact nodup_nodeDependencies nodes node
  · intro i s hi
    rw [hslice hi, mem_row]
    exact mem_dependencyEdges
  · intro i hi
    rw [hslice hi]
    exact nodup_row_dependencyEdges hnodup i

end Fe2o3.Completion
