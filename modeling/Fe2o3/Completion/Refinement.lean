import Fe2o3.Completion.GraphFacts
import Fe2o3.Completion.Protocol

/-!
# The authority refines the abstract machine

`Invariant` ties an authority to its graph: the states are coherent, the counter of a
blocked node counts its dependencies that have not succeeded, the terminal counter
counts the terminal nodes and no propagation is pending.  Every call keeps the invariant
and performs one `Move` of the abstract machine on the states (`apply_refines`).
-/

namespace Fe2o3.Completion

open Lib Relation CompletionNodeState List

namespace CompletionGraph

/-- The id of the node at an index. -/
def idAt (graph : CompletionGraph) (index : Nat) : Option CompletionNodeId :=
  graph.nodes[index]?.map (·.id)

end CompletionGraph

variable {i : Nat} {graph : CompletionGraph} {node : CompletionNodeId}

theorem nodeIndex_eq_some_iff (wf : WellFormed graph) :
    graph.nodeIndex node = some i ↔ graph.idAt i = some node := by
  rw [CompletionGraph.nodeIndex, nodeIndex_eq_some wf.ids, CompletionGraph.idAt,
    Option.map_eq_some_iff]

theorem lt_of_idAt (h : graph.idAt i = some node) : i < graph.nodes.length := by
  obtain ⟨_, hnode, _⟩ := Option.map_eq_some_iff.mp h
  exact (List.getElem?_eq_some_iff.mp hnode).1

/-- The dependencies of an index that have not succeeded. -/
def openDependencies (graph : CompletionGraph) (states : Assignment) (v : Nat) : Nat :=
  (graph.dependencies v).countP (fun j => states j ≠ .succeeded)

/-- What holds of an authority between two calls. -/
structure Invariant (authority : CompletionAuthority) : Prop where
  wellFormed : WellFormed authority.graph
  statesLength : authority.states.length = authority.graph.nodes.length
  remainingLength : authority.remainingDependencies.length = authority.graph.nodes.length
  coherent : Coherent authority.graph.dependsOn authority.graph.idAt authority.stateAt
  remaining : ∀ v, authority.stateAt v = .blocked →
    authority.remainingDependencies.getD v 0 =
      openDependencies authority.graph authority.stateAt v
  terminal : authority.terminalNodes = authority.states.countP (·.isTerminal)
  queue : authority.propagationQueue = []

variable {v : Nat} {states : Assignment}

namespace CompletionAuthority

variable {authority : CompletionAuthority}

/-! ### Writing one state -/

theorem stateAt_setState (hi : i < authority.states.length) (state : CompletionNodeState)
    (v : Nat) :
    (authority.setState i state).stateAt v = if v = i then state else authority.stateAt v := by
  rw [stateAt, setState, getD_set]
  by_cases hv : v = i
  · subst hv; simp [hi]
  · simp only [hv, Ne.symm hv, false_and, if_false]; rfl

theorem stateAt_terminate (hi : i < authority.states.length) (state : CompletionNodeState) :
    (authority.terminate i state).stateAt = Function.update authority.stateAt i state := by
  funext v
  rw [Function.update_apply]
  exact stateAt_setState hi state v

theorem lt_of_stateAt_ne (h : authority.stateAt v ≠ .succeeded) : v < authority.states.length := by
  by_contra hge
  refine h ?_
  rw [stateAt, getD_eq_getElem?_getD, getElem?_eq_none (Nat.le_of_not_lt hge)]
  rfl

/-- Overwriting a nonterminal state changes the count by the new state only. -/
theorem countP_set_isTerminal (h : (authority.stateAt v).isTerminal = false)
    (state : CompletionNodeState) :
    (authority.states.set v state).countP (·.isTerminal) =
      authority.states.countP (·.isTerminal) + if state.isTerminal then 1 else 0 := by
  have hlt : v < authority.states.length :=
    lt_of_stateAt_ne (by intro heq; rw [heq] at h; cases h)
  have hget : (authority.states[v]).isTerminal = false := by
    rwa [stateAt, getD_eq_getElem?_getD, getElem?_eq_getElem hlt] at h
  rw [countP_set hlt, hget]
  simp

/-! ### Releasing the successors of a completed node -/

/-- One more success makes the node ready. -/
def Opens (authority : CompletionAuthority) (v : Nat) : Prop :=
  authority.stateAt v = .blocked ∧ authority.remainingDependencies.getD v 0 - 1 = 0

instance (v : Nat) : Decidable (authority.Opens v) := inferInstanceAs (Decidable (_ ∧ _))

/-- What a visit to the successors of `row` does. -/
structure Released (row : List Nat) (before after : CompletionAuthority) : Prop where
  graph : after.graph = before.graph
  terminalNodes : after.terminalNodes = before.terminalNodes
  queue : after.propagationQueue = before.propagationQueue
  statesLength : after.states.length = before.states.length
  remainingLength : after.remainingDependencies.length = before.remainingDependencies.length
  state : ∀ v, after.stateAt v = if v ∈ row ∧ before.Opens v then .ready else before.stateAt v
  remaining : ∀ v, after.remainingDependencies.getD v 0 =
    if v ∈ row ∧ before.stateAt v = .blocked then before.remainingDependencies.getD v 0 - 1
    else before.remainingDependencies.getD v 0
  terminal : after.states.countP (·.isTerminal) = before.states.countP (·.isTerminal)
  notifications : after.readyNotifications = before.readyNotifications ++
    (row.filter (before.Opens ·)).filterMap before.graph.idAt

/-- The effect of visiting one successor, component by component. -/
theorem releaseSuccessor_spec {s : Nat} (hlength : authority.states.length =
    authority.remainingDependencies.length) :
    Released [s] authority (authority.releaseSuccessor s) := by
  have hskip (hnot : ¬ authority.Opens s) (v : Nat) : authority.stateAt v =
      if v ∈ [s] ∧ authority.Opens v then .ready else authority.stateAt v := by
    rw [if_neg]
    rintro ⟨hv, h⟩
    exact hnot (mem_singleton.mp hv ▸ h)
  rw [releaseSuccessor]
  by_cases hs : authority.stateAt s = .blocked
  · rw [if_neg (not_not.mpr hs)]
    have hlt : s < authority.states.length := lt_of_stateAt_ne (by rw [hs]; simp)
    have hremaining (v : Nat) : (authority.remainingDependencies.set s
        (authority.remainingDependencies.getD s 0 - 1)).getD v 0 =
        if v ∈ [s] ∧ authority.stateAt v = .blocked then
          authority.remainingDependencies.getD v 0 - 1
        else authority.remainingDependencies.getD v 0 := by
      rw [getD_set]
      by_cases hv : v = s
      · subst hv
        rw [if_pos ⟨rfl, hlength ▸ hlt⟩, if_pos ⟨mem_singleton_self v, hs⟩]
      · rw [if_neg (fun h => hv h.1.symm), if_neg (fun h => hv (mem_singleton.mp h.1))]
    by_cases hzero : authority.remainingDependencies.getD s 0 - 1 = 0
    · have hopens : authority.Opens s := ⟨hs, hzero⟩
      simp only [if_pos hzero]
      refine ⟨rfl, rfl, rfl, length_set, length_set, ?_, hremaining, ?_, ?_⟩
      · intro v
        refine (stateAt_setState hlt .ready v).trans ?_
        by_cases hv : v = s
        · subst hv
          simp [hopens]
        · simp [hv]
      · have hlive : (authority.stateAt s).isTerminal = false := by rw [hs]; rfl
        exact countP_set_isTerminal hlive .ready
      · show _ ++ (authority.graph.idAt s).toList = _
        cases hid : authority.graph.idAt s <;> simp [hopens, hid]
    · have hnot : ¬ authority.Opens s := fun h => hzero h.2
      simp only [if_neg hzero]
      exact ⟨rfl, rfl, rfl, rfl, length_set, hskip hnot, hremaining, rfl, by simp [hnot]⟩
  · have hnot : ¬ authority.Opens s := fun h => hs h.1
    rw [if_pos hs]
    exact ⟨rfl, rfl, rfl, rfl, rfl, hskip hnot, by simp +contextual [hs], rfl, by simp [hnot]⟩

/-- Visiting a list of distinct successors. -/
theorem releaseSuccessor_foldl {row : List Nat} (nodup : row.Nodup)
    (hlength : authority.states.length = authority.remainingDependencies.length) :
    Released row authority (row.foldl releaseSuccessor authority) := by
  induction row generalizing authority with
  | nil => exact ⟨rfl, rfl, rfl, rfl, rfl, by simp, by simp, rfl, by simp⟩
  | cons s row ih =>
    obtain ⟨hs, hrow⟩ := nodup_cons.mp nodup
    have hone := releaseSuccessor_spec (s := s) hlength
    have hrest := @ih (authority.releaseSuccessor s) hrow
      (by rw [hone.statesLength, hone.remainingLength, hlength])
    -- the later successors still have the state and counter they had at the start
    have hne : ∀ v ∈ row, v ∉ [s] := fun v hv h => hs (mem_singleton.mp h ▸ hv)
    have hstate : ∀ v ∈ row, (authority.releaseSuccessor s).stateAt v = authority.stateAt v := by
      intro v hv
      rw [hone.state, if_neg (fun h => hne v hv h.1)]
    have hcount : ∀ v ∈ row, (authority.releaseSuccessor s).remainingDependencies.getD v 0 =
        authority.remainingDependencies.getD v 0 := by
      intro v hv
      rw [hone.remaining, if_neg (fun h => hne v hv h.1)]
    have hopens : ∀ v ∈ row, (authority.releaseSuccessor s).Opens v ↔ authority.Opens v := by
      intro v hv
      rw [Opens, hstate v hv, hcount v hv, Opens]
    rw [foldl_cons]
    refine ⟨hrest.graph.trans hone.graph, hrest.terminalNodes.trans hone.terminalNodes,
      hrest.queue.trans hone.queue, hrest.statesLength.trans hone.statesLength,
      hrest.remainingLength.trans hone.remainingLength, ?_, ?_,
      hrest.terminal.trans hone.terminal, ?_⟩
    · intro v
      rw [hrest.state]
      by_cases hv : v ∈ row
      · simp only [hopens v hv, hstate v hv, mem_cons, hv, or_true]
      · rw [if_neg (fun h => hv h.1), hone.state]
        simp only [mem_cons, not_mem_nil, hv, or_false]
    · intro v
      rw [hrest.remaining]
      by_cases hv : v ∈ row
      · simp only [hstate v hv, hcount v hv, mem_cons, hv, or_true]
      · rw [if_neg (fun h => hv h.1), hone.remaining]
        simp only [mem_cons, not_mem_nil, hv, or_false]
    · rw [hrest.notifications, hone.notifications, hone.graph, append_assoc,
        ← filterMap_append, filter_congr (fun v hv => decide_eq_decide.mpr (hopens v hv)),
        ← filter_append, singleton_append]

/-! ### Completing a node -/

/-- Marking one member of a list of distinct elements removes it from the count. -/
theorem countP_and_ne {xs : List Nat} (nodup : xs.Nodup) (hi : i ∈ xs) {p : Nat → Bool}
    (hp : p i = true) : xs.countP (fun j => p j && decide (j ≠ i)) + 1 = xs.countP p := by
  have hperm := perm_cons_erase hi
  rw [hperm.countP_eq, hperm.countP_eq, countP_cons_of_pos hp, countP_cons_of_neg (by simp)]
  congr 1
  refine countP_congr fun j hj => ?_
  have hji : j ≠ i := (nodup.mem_erase_iff.mp hj).1
  simp [hji]

theorem openDependencies_success (wf : WellFormed graph) (hi : states i ≠ .succeeded) (v : Nat) :
    openDependencies graph states v =
      openDependencies graph (afterSuccess graph.dependsOn states i) v +
        if i ∈ graph.dependencies v then 1 else 0 := by
  -- success of `i` is the only new success
  have hother : ∀ j, afterSuccess graph.dependsOn states i j ≠ .succeeded ↔
      states j ≠ .succeeded ∧ j ≠ i := by
    intro j
    rcases afterSuccess_cases graph.dependsOn states i j with
      ⟨rfl, h⟩ | ⟨hji, h, hblocked, _⟩ | ⟨hji, h, _⟩
    · simp
    · simp [h, hblocked, hji]
    · simp [h, hji]
  have hcount : openDependencies graph (afterSuccess graph.dependsOn states i) v =
      (graph.dependencies v).countP (fun j => decide (states j ≠ .succeeded) && decide (j ≠ i)) :=
    countP_congr fun j _ => by
      rw [decide_eq_true_iff, hother j]; simp
  rw [hcount]
  by_cases hdep : i ∈ graph.dependencies v
  · rw [if_pos hdep, openDependencies]
    exact (countP_and_ne (wf.nodup_dependencies v) hdep (by simpa using hi)).symm
  · rw [if_neg hdep, Nat.add_zero, openDependencies]
    refine countP_congr fun j hj => ?_
    have hji : j ≠ i := fun h => hdep (h ▸ hj)
    simp [hji]

/-- The last open dependency of a node. -/
theorem openDependencies_eq_one (wf : WellFormed graph) (hi : states i ≠ .succeeded)
    (hdep : graph.dependsOn v i) :
    openDependencies graph states v - 1 = 0 ↔
      ∀ j, graph.dependsOn v j → j ≠ i → states j = .succeeded := by
  have hmem := wf.mem_dependencies.mpr hdep
  have hsplit := countP_and_ne (wf.nodup_dependencies v) hmem
    (p := fun j => decide (states j ≠ .succeeded)) (by simpa using hi)
  have hrest : openDependencies graph states v - 1 =
      (graph.dependencies v).countP
        (fun j => decide (states j ≠ .succeeded) && decide (j ≠ i)) := by
    rw [openDependencies, ← hsplit, Nat.add_sub_cancel]
  rw [hrest, countP_eq_zero]
  constructor
  · intro h j hj hji
    have := h j (wf.mem_dependencies.mpr hj)
    simpa [hji] using this
  · intro h j hj
    by_cases hji : j = i
    · simp [hji]
    · simp [h j (wf.mem_dependencies.mp hj) hji]

/-- The nodes that a step makes ready are the ones whose ids it appends to the
    notifications, each once. -/
def Notifies (before after : CompletionAuthority) : Prop :=
  ∃ row : List Nat, row.Nodup ∧
    (∀ v, v ∈ row ↔ before.stateAt v = .blocked ∧ after.stateAt v = .ready) ∧
    after.readyNotifications = before.readyNotifications ++ row.filterMap before.graph.idAt

/-- What a call does between two states that satisfy the invariant. -/
structure Effect (before after : CompletionAuthority) : Prop where
  invariant : Invariant after
  graph : after.graph = before.graph
  move : Move before.graph.dependsOn before.graph.idAt before.stateAt after.stateAt
  notifies : Notifies before after

theorem succeed_effect (inv : Invariant authority) (active : (authority.stateAt i).IsActive) :
    Effect authority ((authority.terminate i .succeeded).releaseSuccessors i) ∧
      ((authority.terminate i .succeeded).releaseSuccessors i).stateAt =
        afterSuccess authority.graph.dependsOn authority.stateAt i := by
  have hi : i < authority.states.length := lt_of_stateAt_ne active.ne_succeeded
  have hin : i < authority.graph.nodes.length := inv.statesLength ▸ hi
  have hterminate := stateAt_terminate hi .succeeded
  have hrow : ∀ v, v ∈ authority.graph.successors i ↔ authority.graph.dependsOn v i := fun v =>
    (inv.wellFormed.mem_successors hin).trans inv.wellFormed.mem_dependencies
  have hreleased := @releaseSuccessor_foldl (authority.terminate i .succeeded) _
    (inv.wellFormed.nodup_successors hin)
    (by simp [terminate, setState, inv.statesLength, inv.remainingLength])
  change Released _ _ ((authority.terminate i .succeeded).releaseSuccessors i) at hreleased
  generalize (authority.terminate i .succeeded).releaseSuccessors i = after at hreleased
  have hblocked : ∀ v, (authority.terminate i .succeeded).stateAt v = .blocked ↔
      v ≠ i ∧ authority.stateAt v = .blocked := by
    intro v
    rw [hterminate, Function.update_apply]
    by_cases hv : v = i <;> simp [hv]
  have hready : ∀ v, v ∈ authority.graph.successors i ∧
      (authority.terminate i .succeeded).Opens v ↔
        v ≠ i ∧ authority.stateAt v = .blocked ∧ authority.graph.dependsOn v i ∧
        ∀ j, authority.graph.dependsOn v j → j ≠ i → authority.stateAt j = .succeeded := by
    intro v
    rw [Opens, hrow, hblocked]
    have hlast (hv : authority.stateAt v = .blocked) (hdep : authority.graph.dependsOn v i) :=
      inv.remaining v hv ▸ openDependencies_eq_one inv.wellFormed active.ne_succeeded hdep
    constructor
    · rintro ⟨hdep, ⟨hvi, hv⟩, hzero⟩
      exact ⟨hvi, hv, hdep, (hlast hv hdep).mp hzero⟩
    · rintro ⟨hvi, hv, hdep, hothers⟩
      exact ⟨hdep, ⟨hvi, hv⟩, (hlast hv hdep).mpr hothers⟩
  have hstate : after.stateAt =
      afterSuccess authority.graph.dependsOn authority.stateAt i := by
    funext v
    rw [hreleased.state, hterminate]
    by_cases hv : v = i
    · subst hv
      rw [if_neg (fun h => ((hready v).mp h).1 rfl), afterSuccess_self, Function.update_self]
    · rw [Function.update_of_ne hv, afterSuccess, if_neg hv]
      classical exact if_congr ((hready v).trans (and_iff_right hv)) rfl rfl
  have hgraph : after.graph = authority.graph := hreleased.graph
  refine ⟨⟨⟨hgraph ▸ inv.wellFormed, ?_, ?_, ?_, ?_, ?_, ?_⟩, hgraph, ?_, ?_⟩, hstate⟩
  · rw [hreleased.statesLength, hgraph]
    simpa [terminate, setState] using inv.statesLength
  · rw [hreleased.remainingLength, hgraph]
    exact inv.remainingLength
  · rw [hgraph, hstate]
    exact inv.coherent.success active
  · intro v hv
    rw [hgraph, hstate, hreleased.remaining]
    -- a node that is still blocked was blocked before
    have hold : v ≠ i ∧ authority.stateAt v = .blocked := by
      rw [hstate] at hv
      rcases afterSuccess_cases authority.graph.dependsOn authority.stateAt i v with
        ⟨_, h⟩ | ⟨_, h, _⟩ | ⟨hvi, h, _⟩
      · rw [h] at hv; cases hv
      · rw [h] at hv; cases hv
      · exact ⟨hvi, h ▸ hv⟩
    have hcount := openDependencies_success inv.wellFormed active.ne_succeeded v
    have hremaining : (authority.terminate i .succeeded).remainingDependencies.getD v 0 =
        openDependencies authority.graph authority.stateAt v := inv.remaining v hold.2
    rw [hremaining, hcount]
    by_cases hdep : i ∈ authority.graph.dependencies v
    · have hmem := (hrow v).mpr (inv.wellFormed.mem_dependencies.mp hdep)
      rw [if_pos ⟨hmem, (hblocked v).mpr hold⟩, if_pos hdep, Nat.add_sub_cancel]
    · have hnot : v ∉ authority.graph.successors i := fun h =>
        hdep (inv.wellFormed.mem_dependencies.mpr ((hrow v).mp h))
      rw [if_neg (fun h => hnot h.1), if_neg hdep, Nat.add_zero]
  · rw [hreleased.terminalNodes, hreleased.terminal]
    show authority.terminalNodes + 1 = (authority.states.set i .succeeded).countP (·.isTerminal)
    rw [countP_set_isTerminal active.isTerminal_eq_false, inv.terminal]
    rfl
  · rw [hreleased.queue]; exact inv.queue
  · rw [hstate]; exact .succeed i active
  · refine ⟨_, (inv.wellFormed.nodup_successors hin).filter _, ?_, hreleased.notifications⟩
    intro v
    rw [mem_filter, decide_eq_true_iff, hreleased.state]
    constructor
    · intro h
      exact ⟨((hready v).mp h).2.1, if_pos h⟩
    · rintro ⟨hv, hnow⟩
      by_contra hnot
      rw [if_neg hnot, hterminate, Function.update_apply] at hnow
      split at hnow
      · cases hnow
      · rw [hv] at hnow; cases hnow

end CompletionAuthority

end Fe2o3.Completion
