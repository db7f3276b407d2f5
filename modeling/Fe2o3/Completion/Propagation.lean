import Fe2o3.Completion.Refinement

/-!
# Propagation of a terminal cause

The loop pops indices from a queue and re-enqueues the successors of every node it
stops.  `Spread` is its invariant: a node either keeps its state or was blocked below
the stopped node and carries the inherited cause, and a blocked dependent of a stopped
node is still queued. A potential that every popped entry decreases bounds the number of
rounds, so the queue is empty at the end and the states are those of the abstract stop.
-/

namespace Fe2o3.Completion

open Lib Relation CompletionNodeState List

variable {v : Nat} {cause : CompletionNodeState} {authority : CompletionAuthority}
  {entry : Nat × Nat} {rest : List (Nat × Nat)}

namespace CompletionAuthority

/-! ### The queue -/

theorem mem_queue_foldl (rank : Nat → Nat) (row : List Nat) (queue : List (Nat × Nat)) (v : Nat) :
    v ∈ (row.foldl (fun queue s => queue.orderedInsert queueLe (rank s, s)) queue).map (·.2) ↔
      v ∈ row ∨ v ∈ queue.map (·.2) := by
  induction row generalizing queue with
  | nil => simp
  | cons s row ih =>
    rw [foldl_cons, ih]
    have hperm := (perm_orderedInsert queueLe (rank s, s) queue).map (·.2)
    rw [hperm.mem_iff, map_cons, mem_cons, mem_cons]
    tauto

theorem length_queue_foldl (rank : Nat → Nat) (row : List Nat) (queue : List (Nat × Nat)) :
    (row.foldl (fun queue s => queue.orderedInsert queueLe (rank s, s)) queue).length =
      queue.length + row.length := by
  induction row generalizing queue with
  | nil => rfl
  | cons s row ih =>
    rw [foldl_cons, ih, orderedInsert_length, length_cons]
    omega

/-- Node `v` stopped for a cause, with its successors queued. -/
def halt (authority : CompletionAuthority) (v : Nat) (cause : CompletionNodeState) :
    CompletionAuthority :=
  (authority.terminate v cause).enqueueSuccessors v

theorem stateAt_halt (hv : v < authority.states.length) :
    (authority.halt v cause).stateAt = Function.update authority.stateAt v cause :=
  stateAt_terminate hv cause

theorem mem_queue_halt (u : Nat) : u ∈ (authority.halt v cause).propagationQueue.map (·.2) ↔
    u ∈ authority.graph.successors v ∨ u ∈ authority.propagationQueue.map (·.2) :=
  mem_queue_foldl ..

theorem length_queue_halt : (authority.halt v cause).propagationQueue.length =
    authority.propagationQueue.length + (authority.graph.successors v).length :=
  length_queue_foldl ..

theorem length_successors_le (graph : CompletionGraph) (v : Nat) :
    (graph.successors v).length ≤ graph.successorIndices.length := by
  rw [CompletionGraph.successors, rowSlice, length_take, length_drop]
  omega

/-! ### The invariant of the loop -/

/-- Node `i` of `start` was stopped in `state`, and `now` is a later state of the
    propagation. -/
structure Spread (start : CompletionAuthority) (i : Nat) (state : CompletionNodeState)
    (now : CompletionAuthority) : Prop where
  graph : now.graph = start.graph
  statesLength : now.states.length = start.states.length
  remaining : now.remainingDependencies = start.remainingDependencies
  notifications : now.readyNotifications = start.readyNotifications
  self : now.stateAt i = state
  other : ∀ v, v ≠ i → now.stateAt v = start.stateAt v ∨
    (now.stateAt v = state.inherited ∧ start.stateAt v = .blocked ∧
      TransGen start.graph.dependsOn v i)
  pending : ∀ u v, (u = i ∨ (start.stateAt u = .blocked ∧ now.stateAt u ≠ .blocked)) →
    start.graph.dependsOn v u → now.stateAt v = .blocked →
    v ∈ now.propagationQueue.map (·.2)
  terminal : now.terminalNodes = now.states.countP (·.isTerminal)

/-- Queued entries, and the successors that blocked nodes may still enqueue. -/
def potential (authority : CompletionAuthority) : Nat :=
  authority.propagationQueue.length +
    ∑ v ∈ Finset.range authority.graph.nodes.length,
      if authority.stateAt v = .blocked then (authority.graph.successors v).length else 0

variable {start now : CompletionAuthority} {i : Nat} {state : CompletionNodeState}

/-- A node that is blocked has been so from the start. -/
theorem Spread.blocked_before (spread : Spread start i state now) (failing : state.IsFailing)
    (hv : now.stateAt v = .blocked) : v ≠ i ∧ start.stateAt v = .blocked := by
  have hvi : v ≠ i := by
    rintro rfl
    exact failing.ne_blocked (spread.self.symm.trans hv)
  rcases spread.other v hvi with h | ⟨h, hblocked, _⟩
  · exact ⟨hvi, h ▸ hv⟩
  · exact ⟨hvi, hblocked⟩

/-- A node that the propagation has stopped hands on the inherited cause. -/
theorem Spread.cause_of_stopped (spread : Spread start i state now) (failing : state.IsFailing)
    {u : Nat} (hu : u = i ∨ (start.stateAt u = .blocked ∧ now.stateAt u ≠ .blocked)) :
    dependencyCause (now.stateAt u) = some state.inherited := by
  by_cases hui : u = i
  · rw [hui, spread.self]; exact dependencyCause_eq_inherited failing
  · obtain ⟨hblocked, hnow⟩ := hu.resolve_left hui
    rcases spread.other u hui with h | ⟨h, _⟩
    · exact absurd (h.trans hblocked) hnow
    · rw [h]; exact dependencyCause_inherited failing

/-- The cause found at a blocked node is the one that is being propagated, since a
    blocked node had no failing dependency at the start. -/
theorem Spread.cause_eq (spread : Spread start i state now) (inv : Invariant start)
    (failing : state.IsFailing) (hv : now.stateAt v = .blocked)
    (hfound : (start.graph.dependencies v).findSome?
      (fun j => dependencyCause (now.stateAt j)) = some cause) :
    v ≠ i ∧ start.stateAt v = .blocked ∧ cause = state.inherited ∧
      TransGen start.graph.dependsOn v i := by
  obtain ⟨hvi, hstart⟩ := spread.blocked_before failing hv
  obtain ⟨j, hmem, hj⟩ := exists_of_findSome?_eq_some hfound
  have hdep := inv.wellFormed.mem_dependencies.mp hmem
  by_cases hji : j = i
  · subst hji
    rw [spread.self, dependencyCause_eq_inherited failing] at hj
    exact ⟨hvi, hstart, (Option.some.inj hj).symm, .single hdep⟩
  · rcases spread.other j hji with h | ⟨h, _, hreach⟩
    · -- a cause from before the stop contradicts that `v` was blocked
      rw [h] at hj
      exact absurd (by rw [IsFailing, hj]; rfl) ((inv.coherent.blocked v hstart).1 j hdep)
    · rw [h, dependencyCause_inherited failing] at hj
      exact ⟨hvi, hstart, (Option.some.inj hj).symm, .head hdep hreach⟩

/-- A popped index does nothing, or stops a blocked node for which a cause is found. -/
theorem propagateEntry_cases (authority : CompletionAuthority) (v : Nat) :
    (authority.propagateEntry v = authority ∧ (authority.stateAt v = .blocked →
      (authority.graph.dependencies v).findSome?
        (fun j => dependencyCause (authority.stateAt j)) = none)) ∨
    (∃ cause, authority.stateAt v = .blocked ∧ (authority.graph.dependencies v).findSome?
        (fun j => dependencyCause (authority.stateAt j)) = some cause ∧
      authority.propagateEntry v = authority.halt v cause) := by
  rw [propagateEntry]
  by_cases hv : authority.stateAt v = .blocked
  · rw [if_neg (not_not.mpr hv)]
    cases hfound : (authority.graph.dependencies v).findSome?
        (fun j => dependencyCause (authority.stateAt j)) with
    | none => exact .inl ⟨rfl, fun _ => rfl⟩
    | some cause => exact .inr ⟨cause, hv, rfl, rfl⟩
  · exact .inl ⟨if_pos hv, fun h => absurd h hv⟩

/-- Stopping a blocked node moves its share of the potential to the queue. -/
theorem potential_halt (hv : authority.stateAt v = .blocked)
    (hlength : authority.states.length = authority.graph.nodes.length) (hcause : cause ≠ .blocked) :
    (authority.halt v cause).potential = authority.potential := by
  have hlt : v < authority.states.length := lt_of_stateAt_ne (by rw [hv]; simp)
  have hmem : v ∈ Finset.range authority.graph.nodes.length :=
    Finset.mem_range.mpr (hlength ▸ hlt)
  have hgraph : (authority.halt v cause).graph = authority.graph := rfl
  rw [potential, potential, length_queue_halt, stateAt_halt hlt, hgraph,
    ← Finset.add_sum_erase _ _ hmem, ← Finset.add_sum_erase _ _ hmem, Function.update_self,
    if_neg hcause, hv, if_pos rfl, Nat.zero_add, Nat.add_assoc]
  congr 2
  refine Finset.sum_congr rfl fun u hu => ?_
  rw [Function.update_of_ne (Finset.ne_of_mem_erase hu)]

/-- One round, which pops an entry, keeps the invariant and decreases the potential. -/
theorem Spread.round
    (spread : Spread start i state { now with propagationQueue := entry :: now.propagationQueue })
    (inv : Invariant start) (failing : state.IsFailing) :
    Spread start i state (now.propagateEntry entry.2) ∧
      (now.propagateEntry entry.2).potential = now.potential := by
  -- a queued index other than the popped one stays queued
  have hkeep : ∀ v, v ≠ entry.2 → v ∈ (entry :: now.propagationQueue).map (·.2) →
      v ∈ now.propagationQueue.map (·.2) := by
    intro v hv hmem
    rw [map_cons, mem_cons] at hmem
    exact hmem.resolve_left hv
  have hgraph : now.graph = start.graph := spread.graph
  rcases propagateEntry_cases now entry.2 with ⟨heq, hnone⟩ | ⟨cause, hblocked, hfound, heq⟩
  · rw [heq]
    refine ⟨⟨spread.graph, spread.statesLength, spread.remaining, spread.notifications,
      spread.self, spread.other, fun u v hu hdep hv => ?_, spread.terminal⟩, rfl⟩
    refine hkeep v ?_ (spread.pending u v hu hdep hv)
    -- the popped index has no stopped dependency, or its cause would have been found
    rintro rfl
    have hmem : u ∈ now.graph.dependencies entry.2 := by
      rw [hgraph]; exact inv.wellFormed.mem_dependencies.mpr hdep
    have hcause : dependencyCause (now.stateAt u) = _ := spread.cause_of_stopped failing hu
    rw [findSome?_eq_none_iff.mp (hnone hv) u hmem] at hcause
    cases hcause
  · rw [hgraph] at hfound
    obtain ⟨hvi, hstart, rfl, hreach⟩ := spread.cause_eq inv failing hblocked hfound
    have hlt : entry.2 < now.states.length := lt_of_stateAt_ne (by rw [hblocked]; simp)
    have hstate := @stateAt_halt entry.2 state.inherited now hlt
    have hnow : ∀ v, v ≠ entry.2 →
        (now.halt entry.2 state.inherited).stateAt v = now.stateAt v :=
      fun v hv => by rw [hstate, Function.update_of_ne hv]
    have hlength : now.states.length = now.graph.nodes.length := by
      rw [hgraph, ← inv.statesLength]
      exact spread.statesLength
    rw [heq]
    refine ⟨⟨spread.graph, ?_, spread.remaining, spread.notifications, ?_, ?_, ?_, ?_⟩,
      potential_halt hblocked hlength failing.inherited.ne_blocked⟩
    · exact (length_set ..).trans spread.statesLength
    · rw [hnow i (Ne.symm hvi)]; exact spread.self
    · intro v hv
      by_cases hve : v = entry.2
      · rw [hve, hstate, Function.update_self]
        exact .inr ⟨rfl, hstart, hreach⟩
      · rw [hnow v hve]; exact spread.other v hv
    · intro u v hu hdep hv
      have hve : v ≠ entry.2 := by
        rintro rfl
        rw [hstate, Function.update_self] at hv
        exact failing.inherited.ne_blocked hv
      rw [mem_queue_halt]
      by_cases hue : u = entry.2
      · -- the dependents of the node just stopped were enqueued now
        rw [hlength, hgraph] at hlt
        rw [hgraph]
        exact .inl ((inv.wellFormed.mem_successors hlt).mpr
          (inv.wellFormed.mem_dependencies.mpr (hue ▸ hdep)))
      · rw [hnow v hve] at hv
        rw [hnow u hue] at hu
        exact .inr (hkeep v hve (spread.pending u v hu hdep hv))
    · have hopen : (now.stateAt entry.2).isTerminal = false := by rw [hblocked]; rfl
      refine Eq.trans ?_ (countP_set_isTerminal hopen state.inherited).symm
      rw [failing.inherited.isTerminal]
      exact congrArg (· + 1) spread.terminal

/-- With enough fuel the loop ends because the queue is empty. -/
theorem Spread.loop (inv : Invariant start) (failing : state.IsFailing) (fuel : Nat)
    (spread : Spread start i state now) (hfuel : now.potential ≤ fuel) :
    Spread start i state (propagateLoop fuel now) ∧
      (propagateLoop fuel now).propagationQueue = [] := by
  induction fuel generalizing now with
  | zero =>
    refine ⟨spread, length_eq_zero_iff.mp ?_⟩
    rw [potential] at hfuel
    show now.propagationQueue.length = 0
    omega
  | succ fuel ih =>
    cases hqueue : now.propagationQueue with
    | nil =>
      rw [propagateLoop, hqueue]
      exact ⟨spread, hqueue⟩
    | cons entry rest =>
      rw [propagateLoop, hqueue]
      have hnow : now = { now with propagationQueue := entry :: rest } := by rw [← hqueue]
      rw [hnow] at spread hfuel
      obtain ⟨hspread, hpotential⟩ :=
        @Spread.round entry start { now with propagationQueue := rest } i state spread inv failing
      rw [potential, length_cons, Nat.add_right_comm] at hfuel
      exact ih hspread (hpotential.le.trans (Nat.le_of_succ_le_succ hfuel))

/-! ### Stopping a node -/

theorem Spread.halt (inv : Invariant start) (failing : state.IsFailing)
    (hi : i < start.graph.nodes.length) (hopen : (start.stateAt i).isTerminal = false) :
    Spread start i state (start.halt i state) := by
  have hstate := @stateAt_halt i state start (inv.statesLength ▸ hi)
  refine ⟨rfl, length_set .., rfl, rfl, ?_, ?_, ?_, ?_⟩
  · rw [hstate, Function.update_self]
  · intro v hv
    rw [hstate, Function.update_of_ne hv]
    exact .inl rfl
  · intro u v hu hdep _
    have hui : u = i := by
      by_contra hne
      obtain ⟨hblocked, hnow⟩ := hu.resolve_left hne
      rw [hstate, Function.update_of_ne hne] at hnow
      exact hnow hblocked
    exact (mem_queue_halt v).mpr (.inl ((inv.wellFormed.mem_successors hi).mpr
      (inv.wellFormed.mem_dependencies.mpr (hui ▸ hdep))))
  · refine Eq.trans ?_ (countP_set_isTerminal hopen state).symm
    rw [failing.isTerminal, ← inv.terminal]
    rfl

theorem potential_halt_le (inv : Invariant start) :
    (start.halt i state).potential ≤ start.propagationFuel := by
  have hsum := Finset.sum_le_card_nsmul (Finset.range start.graph.nodes.length)
    (fun v => if (start.halt i state).stateAt v = .blocked
      then (start.graph.successors v).length else 0) start.graph.successorIndices.length
    (fun v _ => by
      split
      · exact length_successors_le start.graph v
      · exact Nat.zero_le _)
  have hfirst := length_successors_le start.graph i
  have hgraph : (start.halt i state).graph = start.graph := rfl
  rw [Finset.card_range, smul_eq_mul] at hsum
  rw [potential, length_queue_halt, inv.queue, propagationFuel, hgraph, Nat.add_mul, Nat.one_mul,
    length_nil]
  omega

/-- The end of the propagation is the abstract stop. -/
theorem Spread.eq_afterStop (spread : Spread start i state now) (inv : Invariant start)
    (hi : start.stateAt i ≠ .succeeded) (hqueue : now.propagationQueue = []) :
    now.stateAt = afterStop start.graph.dependsOn start.stateAt i state := by
  have hnone : ∀ u v, (u = i ∨ (start.stateAt u = .blocked ∧ now.stateAt u ≠ .blocked)) →
      start.graph.dependsOn v u → now.stateAt v ≠ .blocked := by
    intro u v hu hdep hv
    have := spread.pending u v hu hdep hv
    rw [hqueue] at this
    cases this
  -- by induction along the path, every blocked dependent has been stopped
  have hreached : ∀ v, TransGen start.graph.dependsOn v i → start.stateAt v = .blocked →
      now.stateAt v ≠ .blocked := by
    intro v hreach
    induction hreach using TransGen.head_induction_on with
    | single hdep => intro _; exact hnone i _ (.inl rfl) hdep
    | head hdep hreach ih =>
      intro hv
      have hj := inv.coherent.blocked_between hv hdep hreach hi
      exact hnone _ _ (.inr ⟨hj, ih hj⟩) hdep
  funext v
  rcases afterStop_cases start.graph.dependsOn start.stateAt i v state with
    ⟨rfl, h⟩ | ⟨hvi, h, hblocked, hreach⟩ | ⟨hvi, h, hfar⟩
  · rw [h]; exact spread.self
  · rw [h]
    rcases spread.other v hvi with hsame | ⟨hnew, _⟩
    · exact absurd (hsame.trans hblocked) (hreached v hreach hblocked)
    · exact hnew
  · rw [h]
    rcases spread.other v hvi with hsame | ⟨_, hblocked, hreach⟩
    · exact hsame
    · exact absurd ⟨hblocked, hreach⟩ hfar

theorem stop_effect (inv : Invariant start)
    (stops : Stops start.graph.idAt start.stateAt i state) :
    Effect start ((start.terminate i state).propagateTerminalCauseFrom i) ∧
      ((start.terminate i state).propagateTerminalCauseFrom i).stateAt =
        afterStop start.graph.dependsOn start.stateAt i state := by
  have hin : i < start.graph.nodes.length := by
    cases stops <;> exact lt_of_idAt ‹_›
  obtain ⟨spread, hqueue⟩ := Spread.loop inv stops.isFailing
    (start.terminate i state).propagationFuel
    (Spread.halt inv stops.isFailing hin stops.isTerminal_eq_false) (potential_halt_le inv)
  change Spread start i state ((start.terminate i state).propagateTerminalCauseFrom i) at spread
  change ((start.terminate i state).propagateTerminalCauseFrom i).propagationQueue = [] at hqueue
  generalize (start.terminate i state).propagateTerminalCauseFrom i = now at spread hqueue
  have hstate := spread.eq_afterStop inv stops.ne_succeeded hqueue
  -- a node that is blocked afterwards was blocked before, with the same open dependencies
  have hsucceeded : ∀ j, now.stateAt j ≠ .succeeded ↔ start.stateAt j ≠ .succeeded := by
    intro j
    by_cases hji : j = i
    · rw [hji, spread.self]
      exact ⟨fun _ => stops.ne_succeeded, fun _ => stops.isFailing.ne_succeeded⟩
    · rcases spread.other j hji with h | ⟨h, hblocked, _⟩
      · rw [h]
      · rw [h, hblocked]
        exact ⟨fun _ => by simp, fun _ => stops.isFailing.inherited.ne_succeeded⟩
  refine ⟨⟨⟨spread.graph ▸ inv.wellFormed, ?_, ?_, ?_, ?_, spread.terminal, hqueue⟩, spread.graph,
    ?_, ?_⟩, hstate⟩
  · rw [spread.statesLength, spread.graph, inv.statesLength]
  · rw [spread.remaining, spread.graph, inv.remainingLength]
  · rw [spread.graph, hstate]; exact inv.coherent.stop stops
  · intro v hv
    have hold := (spread.blocked_before stops.isFailing hv).2
    rw [spread.remaining, spread.graph, inv.remaining v hold]
    exact countP_congr fun j _ => by
      rw [decide_eq_true_iff, decide_eq_true_iff]; exact (hsucceeded j).symm
  · rw [hstate]; exact .stop i state stops
  · refine ⟨[], nodup_nil, fun v => ?_, ?_⟩
    · refine ⟨fun h => absurd h not_mem_nil, fun ⟨hv, hready⟩ => ?_⟩
      by_cases hvi : v = i
      · exact absurd (spread.self.symm.trans (hvi ▸ hready)) stops.isFailing.ne_ready
      · rcases spread.other v hvi with h | ⟨h, _⟩
        · rw [h, hv] at hready; cases hready
        · exact absurd (h.symm.trans hready) stops.isFailing.inherited.ne_ready
    · rw [spread.notifications]; simp

end CompletionAuthority

end Fe2o3.Completion
