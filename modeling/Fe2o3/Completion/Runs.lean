import Fe2o3.Completion.Acceptance
import Fe2o3.Completion.Propagation

/-!
# Runs of the completion authority

Every call, accepted or rejected, keeps `Invariant` and performs one move of the
abstract machine; by induction over the sequence of calls this holds in every reachable
state.  Four results are about whole runs: the relation between states, counters and
dependencies, the exact attribution of failures, the absence of stuck graphs and of lost
readiness notifications, and the agreement of all schedules in which every node succeeds.
-/

namespace Fe2o3.Completion

open Lib Relation CompletionNodeState List

variable {i v : Nat} {reason : CancellationCode}

variable {graph : CompletionGraph} {authority : CompletionAuthority}

namespace CompletionAuthority

variable {authority : CompletionAuthority}

/-! ### The initial authority -/

theorem stateAt_new (wf : WellFormed graph) (v : Nat) :
    (new graph).stateAt v =
      if v < graph.nodes.length then
        if graph.dependencies v = [] then .ready else .blocked
      else .succeeded := by
  rw [stateAt, new, CompletionGraph.dependencies, getD_eq_getElem?_getD,
    getD_eq_getElem?_getD, getElem?_map, getElem?_map]
  by_cases hv : v < graph.nodes.length
  · have hrow : v < graph.dependencyIndices.length := wf.rows ▸ hv
    rw [if_pos hv, getElem?_eq_getElem hrow]
    simp [length_eq_zero_iff]
  · have hrow : ¬ v < graph.dependencyIndices.length := wf.rows ▸ hv
    rw [if_neg hv, getElem?_eq_none (Nat.le_of_not_lt hrow)]
    rfl

theorem new_invariant (wf : WellFormed graph) : Invariant (new graph) := by
  have hstate := stateAt_new wf
  have hopen : ∀ j, j < graph.nodes.length → (new graph).stateAt j ≠ .succeeded := by
    intro j hj
    rw [hstate, if_pos hj]
    split <;> simp
  have hcases : ∀ v, (new graph).stateAt v = .ready ∨ (new graph).stateAt v = .blocked ∨
      (new graph).stateAt v = .succeeded := by
    intro v
    rw [hstate]
    split_ifs <;> simp
  have hblocked : ∀ v, (new graph).stateAt v = .blocked → graph.dependencies v ≠ [] := by
    intro v hv
    rw [hstate] at hv
    split_ifs at hv
    assumption
  refine ⟨wf, ?_, ?_, ⟨?_, fun v => ⟨?_, ?_, ?_⟩⟩, ?_, ?_, rfl⟩
  · simpa [new] using wf.rows
  · simpa [new] using wf.rows
  · intro v hv
    refine ⟨fun j _ => ?_, ?_⟩
    · rcases hcases j with h | h | h <;> rw [h] <;> simp
    · obtain ⟨j, hj⟩ := exists_mem_of_ne_nil _ (hblocked v hv)
      have hdep := wf.mem_dependencies.mp hj
      exact ⟨j, hdep, hopen j (dependsOn_lt hdep).2⟩
  · -- a released node has no dependencies yet
    intro hv j hdep
    have hmem := wf.mem_dependencies.mpr hdep
    have hlt : v < graph.nodes.length := (dependsOn_lt hdep).1
    rw [hstate, if_pos hlt, if_neg (ne_nil_of_mem hmem)] at hv
    exact hv.elim
  -- no node has stopped yet
  · rcases hcases v with h | h | h <;> simp [h, dependencyCause]
  · rcases hcases v with h | h | h <;> simp [h, owner]
  · intro v _
    have hall : openDependencies graph (new graph).stateAt v = (graph.dependencies v).length := by
      rw [openDependencies, countP_eq_length]
      intro j hj
      simpa using hopen j (dependsOn_lt (wf.mem_dependencies.mp hj)).2
    show _ = openDependencies graph (new graph).stateAt v
    rw [hall]
    show (graph.dependencyIndices.map (·.length)).getD v 0 =
      (graph.dependencyIndices.getD v []).length
    rw [getD_eq_getElem?_getD, getD_eq_getElem?_getD, getElem?_map]
    cases graph.dependencyIndices[v]? <;> rfl
  · show 0 = _
    symm
    rw [countP_eq_zero]
    intro state hmem
    simp only [new, List.map_map, mem_map, Function.comp] at hmem
    obtain ⟨row, _, rfl⟩ := hmem
    split <;> simp [CompletionNodeState.isTerminal]

/-! ### One call -/

theorem Effect.refl (inv : Invariant authority) : Effect authority authority :=
  ⟨inv, rfl, .stay, [], nodup_nil,
    fun v => ⟨fun h => absurd h not_mem_nil, fun ⟨hb, hr⟩ => by rw [hb] at hr; cases hr⟩,
    by simp⟩

theorem request_effect (inv : Invariant authority) (hready : authority.stateAt i = .ready) :
    Effect authority (authority.setState i (.cancelRequested reason)) := by
  have hlt : i < authority.states.length := lt_of_stateAt_ne (by rw [hready]; simp)
  have hstate : (authority.setState i (.cancelRequested reason)).stateAt =
      Function.update authority.stateAt i (.cancelRequested reason) :=
    funext fun v => by rw [stateAt_setState hlt, Function.update_apply]
  have hkeep : ∀ v, v ≠ i → (authority.setState i (.cancelRequested reason)).stateAt v =
      authority.stateAt v := fun v hv => by rw [hstate, Function.update_of_ne hv]
  have hself : (authority.setState i (.cancelRequested reason)).stateAt i =
      .cancelRequested reason := by rw [hstate, Function.update_self]
  refine ⟨⟨inv.wellFormed, ?_, inv.remainingLength, ?_, ?_, ?_, inv.queue⟩, rfl, ?_, ?_⟩
  · exact (length_set ..).trans inv.statesLength
  · rw [hstate]; exact inv.coherent.request reason hready
  · intro v hv
    have hvi : v ≠ i := by rintro rfl; rw [hself] at hv; cases hv
    rw [hkeep v hvi] at hv
    refine (inv.remaining v hv).trans (countP_congr fun j _ => ?_)
    by_cases hji : j = i
    · rw [hji, hself, hready]; simp
    · rw [hkeep j hji]
  · show authority.terminalNodes = (authority.states.set i _).countP (·.isTerminal)
    rw [countP_set_isTerminal (by rw [hready]; rfl), inv.terminal]
    rfl
  · rw [hstate]; exact .request i reason hready
  · refine ⟨[], nodup_nil, fun v => ⟨fun h => absurd h not_mem_nil, ?_⟩, by
      simp [setState]⟩
    rintro ⟨hb, hr⟩
    by_cases hvi : v = i
    · rw [hvi, hready] at hb; cases hb
    · rw [hkeep v hvi, hb] at hr; cases hr

/-- Everything a call can do: leave the authority as it is, deliver a notification,
    or act on one known node in the one state that the operation accepts. -/
inductive Acts (authority : CompletionAuthority) : Call → CompletionAuthority → Prop where
  | rejected (call : Call) : Acts authority call authority
  | delivered (node : CompletionNodeId) (rest : List CompletionNodeId)
      (h : authority.readyNotifications = node :: rest) :
      Acts authority .popReadyNotification { authority with readyNotifications := rest }
  | requested (node : CompletionNodeId) (reason : CancellationCode) (i : Nat)
      (hid : authority.graph.idAt i = some node) (h : authority.stateAt i = .ready) :
      Acts authority (.requestCancel node reason)
        (authority.setState i (.cancelRequested reason))
  | cancelledBlocked (node : CompletionNodeId) (reason : CancellationCode) (i : Nat)
      (hid : authority.graph.idAt i = some node) (h : authority.stateAt i = .blocked) :
      Acts authority (.cancelBlocked node reason)
        ((authority.terminate i (.cancelled node reason)).propagateTerminalCauseFrom i)
  | succeeded (node : CompletionNodeId) (i : Nat) (hid : authority.graph.idAt i = some node)
      (h : (authority.stateAt i).IsActive) :
      Acts authority (.markSucceeded node)
        ((authority.terminate i .succeeded).releaseSuccessors i)
  | failed (node : CompletionNodeId) (error : FailureCode) (i : Nat)
      (hid : authority.graph.idAt i = some node) (h : (authority.stateAt i).IsActive) :
      Acts authority (.markFailed node error)
        ((authority.terminate i (.failed node error)).propagateTerminalCauseFrom i)
  | cancelled (node : CompletionNodeId) (reason : CancellationCode) (i : Nat)
      (hid : authority.graph.idAt i = some node)
      (h : authority.stateAt i = .cancelRequested reason) :
      Acts authority (.markCancelled node)
        ((authority.terminate i (.cancelled node reason)).propagateTerminalCauseFrom i)

theorem apply_acts (wf : WellFormed authority.graph) (call : Call) :
    Acts authority call (authority.apply call) := by
  have hindex : ∀ {node i}, authority.graph.nodeIndex node = some i →
      authority.graph.idAt i = some node := fun h => (nodeIndex_eq_some_iff wf).mp h
  cases call with
  | popReadyNotification =>
    rw [apply, popReadyNotification]
    split
    · exact .rejected _
    · exact .delivered _ _ (by assumption)
  | requestCancel node reason =>
    rw [apply, requestCancel]
    split
    · exact .rejected _
    · rename_i i hi
      split
      · exact .requested node reason i (hindex hi) (by assumption)
      · split <;> exact .rejected _
      · split <;> exact .rejected _
  | cancelBlocked node reason =>
    rw [apply, cancelBlocked]
    split
    · exact .rejected _
    · rename_i i hi
      split
      · exact .cancelledBlocked node reason i (hindex hi) (by assumption)
      · split <;> exact .rejected _
  | markSucceeded node =>
    rw [apply, markSucceeded]
    split
    · exact .rejected _
    · rename_i i hi
      split
      iterate 2
        · rename_i hstate
          exact .succeeded node i (hindex hi) (by rw [hstate]; exact trivial)
      · split <;> exact .rejected _
  | markFailed node error =>
    rw [apply, markFailed]
    split
    · exact .rejected _
    · rename_i i hi
      split
      iterate 2
        · rename_i hstate
          exact .failed node error i (hindex hi) (by rw [hstate]; exact trivial)
      · split <;> exact .rejected _
  | markCancelled node =>
    rw [apply, markCancelled]
    split
    · exact .rejected _
    · rename_i i hi
      split
      · exact .cancelled node _ i (hindex hi) (by assumption)
      · split <;> exact .rejected _

/-- A call either pops a notification, or it delivers none, keeps the invariant and
    refines one move of the abstract machine. -/
theorem apply_refines (inv : Invariant authority) (call : Call) :
    (Effect authority (authority.apply call) ∧ authority.delivers call = []) ∨
      ∃ node rest, authority.readyNotifications = node :: rest ∧
        authority.delivers call = [node] ∧
        authority.apply call = { authority with readyNotifications := rest } := by
  by_cases hpop : call = .popReadyNotification
  · subst hpop
    cases hqueue : authority.readyNotifications with
    | nil =>
      refine .inl ⟨?_, by simp [delivers, popReadyNotification, hqueue]⟩
      simpa [apply, popReadyNotification, hqueue] using Effect.refl inv
    | cons node rest =>
      exact .inr ⟨node, rest, rfl, by simp [delivers, popReadyNotification, hqueue],
        by simp [apply, popReadyNotification, hqueue]⟩
  · have hdelivers : authority.delivers call = [] := by
      cases call <;> first | rfl | exact absurd rfl hpop
    refine .inl ⟨?_, hdelivers⟩
    have hacts := apply_acts inv.wellFormed call
    generalize authority.apply call = after at hacts
    cases hacts with
    | rejected => exact .refl inv
    | delivered node rest h => exact absurd rfl hpop
    | requested node reason i hid h => exact request_effect inv h
    | cancelledBlocked node reason i hid h =>
      exact (stop_effect inv (.cancelledBlocked reason hid h)).1
    | succeeded node i hid h => exact (succeed_effect inv h).1
    | failed node error i hid h => exact (stop_effect inv (.failed error hid h)).1
    | cancelled node reason i hid h => exact (stop_effect inv (.cancelled reason hid h)).1

/-- The part of a step that does not depend on which call it was. -/
theorem apply_step (inv : Invariant authority) (call : Call) :
    Invariant (authority.apply call) ∧ (authority.apply call).graph = authority.graph ∧
      Move authority.graph.dependsOn authority.graph.idAt authority.stateAt
        (authority.apply call).stateAt := by
  rcases apply_refines inv call with ⟨h, _⟩ | ⟨node, rest, _, _, h⟩
  · exact ⟨h.invariant, h.graph, h.move⟩
  · rw [h]
    exact ⟨⟨inv.wellFormed, inv.statesLength, inv.remainingLength, inv.coherent, inv.remaining,
      inv.terminal, inv.queue⟩, rfl, .stay⟩

/-! ### Whole runs -/

section

variable {graph : CompletionGraph} (wf : WellFormed graph)

include wf

theorem run_invariant (calls : List Call) :
    Invariant (run graph calls) ∧ (run graph calls).graph = graph := by
  induction calls using List.reverseRecOn with
  | nil => exact ⟨new_invariant wf, rfl⟩
  | append_singleton calls call ih =>
    rw [run_concat]
    obtain ⟨hinv, hgraph, _⟩ := apply_step ih.1 call
    exact ⟨hinv, hgraph.trans ih.2⟩

theorem run_coherent (calls : List Call) :
    Coherent graph.dependsOn graph.idAt (run graph calls).stateAt := by
  obtain ⟨hinv, hgraph⟩ := run_invariant wf calls
  have := hinv.coherent
  rwa [hgraph] at this

theorem run_move (calls : List Call) (call : Call) :
    Move graph.dependsOn graph.idAt (run graph calls).stateAt
      (run graph (calls ++ [call])).stateAt := by
  obtain ⟨hinv, hgraph⟩ := run_invariant wf calls
  rw [run_concat]
  have := (apply_step hinv call).2.2
  rwa [hgraph] at this

/-- A terminal state is kept by every continuation of the run. -/
theorem run_terminal {front back : List Call}
    (h : ((run graph front).stateAt v).isTerminal = true) :
    (run graph (front ++ back)).stateAt v = (run graph front).stateAt v := by
  induction back using List.reverseRecOn with
  | nil => rw [append_nil]
  | append_singleton back call ih =>
    rw [← append_assoc]
    rw [(run_move wf (front ++ back) call).terminal (by rw [ih]; exact h), ih]

end

end CompletionAuthority

/-! ### States, counters and dependencies -/

/-- Some call of the sequence cancelled node `i` while it was blocked. -/
def CancelledWhileBlocked (graph : CompletionGraph) (calls : List Call) (i : Nat) : Prop :=
  ∃ front node reason back, calls = front ++ Call.cancelBlocked node reason :: back ∧
    graph.nodeIndex node = some i ∧ (CompletionAuthority.run graph front).stateAt i = .blocked

open CompletionAuthority

variable {calls : List Call}

section

variable {graph : CompletionGraph} (wf : WellFormed graph)

include wf

theorem stateAt_of_cancelledWhileBlocked (h : CancelledWhileBlocked graph calls i) :
    (run graph calls).stateAt i ≠ .blocked := by
  obtain ⟨front, node, reason, back, rfl, hindex, hblocked⟩ := h
  obtain ⟨hinv, hgraph⟩ := run_invariant wf front
  have hid : (run graph front).graph.idAt i = some node := by
    rw [hgraph]; exact (nodeIndex_eq_some_iff wf).mp hindex
  have hstate : (run graph (front ++ [Call.cancelBlocked node reason])).stateAt i =
      .cancelled node reason := by
    rw [run_concat, apply, cancelBlocked, hgraph, hindex]
    simp only [hblocked]
    rw [(stop_effect hinv (.cancelledBlocked reason hid hblocked)).2, afterStop_self]
  rw [show front ++ Call.cancelBlocked node reason :: back =
      (front ++ [Call.cancelBlocked node reason]) ++ back by simp,
    run_terminal wf (by rw [hstate]; rfl), hstate]
  simp

/-- A cancelled node was cancelled while it was blocked, or all its dependencies
    have succeeded. -/
theorem cancelled_cases {origin : CompletionNodeId}
    (h : (run graph calls).stateAt i = .cancelled origin reason) :
    CancelledWhileBlocked graph calls i ∨
      ∀ j, graph.dependsOn i j → (run graph calls).stateAt j = .succeeded := by
  induction calls using List.reverseRecOn with
  | nil =>
    have := stateAt_new wf i
    rw [show run graph [] = new graph from rfl, this] at h
    split at h
    · split at h <;> cases h
    · cases h
  | append_singleton calls call ih =>
    obtain ⟨hinv, hgraph⟩ := run_invariant wf calls
    -- dependencies that have succeeded stay so
    have hkept : (∀ j, graph.dependsOn i j → (run graph calls).stateAt j = .succeeded) →
        ∀ j, graph.dependsOn i j → (run graph (calls ++ [call])).stateAt j = .succeeded :=
      fun hall j hj => by
        rw [(run_move wf calls call).terminal (by rw [hall j hj]; rfl), hall j hj]
    by_cases hbefore : (run graph calls).stateAt i = .cancelled origin reason
    · rcases ih hbefore with ⟨front, node, reason', back, hsplit, hindex, hblocked⟩ | hall
      · exact .inl ⟨front, node, reason', back ++ [call], by rw [hsplit]; simp, hindex, hblocked⟩
      · exact .inr (hkept hall)
    · -- the last call stopped the node
      rw [run_concat] at h
      have hacts := apply_acts hinv.wellFormed call
      generalize (run graph calls).apply call = after at hacts h
      -- a stop yields a cancelled state only at its own node
      have hself : ∀ k state,
          Stops (run graph calls).graph.idAt (run graph calls).stateAt k state →
          afterStop (run graph calls).graph.dependsOn (run graph calls).stateAt k state i =
            .cancelled origin reason → i = k ∧ state = .cancelled origin reason := by
        intro k state _ heq
        rcases afterStop_cases (run graph calls).graph.dependsOn (run graph calls).stateAt k i state
          with ⟨hik, hown⟩ | ⟨_, hnew, _⟩ | ⟨_, hsame, _⟩
        · exact ⟨hik, hown.symm.trans heq⟩
        · have hnone := owner_inherited state
          rw [← hnew, heq] at hnone
          cases hnone
        · exact absurd (hsame.symm.trans heq) hbefore
      cases hacts with
      | rejected | delivered node rest hqueue => exact absurd h hbefore
      | requested node reason' k hid hk =>
        have hlt := lt_of_stateAt_ne (by rw [hk]; simp : (run graph calls).stateAt k ≠ .succeeded)
        rw [stateAt_setState hlt] at h
        split at h
        · cases h
        · exact absurd h hbefore
      | succeeded node k hid hk =>
        rw [(succeed_effect hinv hk).2, hgraph] at h
        rcases afterSuccess_cases graph.dependsOn (run graph calls).stateAt k i with
          ⟨_, hnew⟩ | ⟨_, hnew, _⟩ | ⟨_, hsame, _⟩
        · rw [hnew] at h; cases h
        · rw [hnew] at h; cases h
        · exact absurd (hsame ▸ h) hbefore
      | failed node error k hid hk =>
        rw [(stop_effect hinv (.failed error hid hk)).2] at h
        cases (hself k _ (.failed error hid hk) h).2
      | cancelledBlocked node reason' k hid hk =>
        rw [(stop_effect hinv (.cancelledBlocked reason' hid hk)).2] at h
        obtain ⟨rfl, -⟩ := hself k _ (.cancelledBlocked reason' hid hk) h
        rw [hgraph] at hid
        exact .inl ⟨calls, node, reason', [], rfl, (nodeIndex_eq_some_iff wf).mpr hid, hk⟩
      | cancelled node reason' k hid hk =>
        rw [(stop_effect hinv (.cancelled reason' hid hk)).2] at h
        obtain ⟨rfl, -⟩ := hself k _ (.cancelled reason' hid hk) h
        -- a requested cancellation is confirmed only after all dependencies succeeded
        refine .inr (hkept (((run_coherent wf calls).justified i).released ?_))
        rw [hk]
        exact trivial

end

/-! ### Counting -/

/-- Counting along a list of distinct elements is the size of a set. -/
theorem ncard_eq_countP {xs : List Nat} (nodup : xs.Nodup) (p : Nat → Prop) [DecidablePred p] :
    Set.ncard {j | j ∈ xs ∧ p j} = xs.countP (fun j => p j) := by
  have hset : {j | j ∈ xs ∧ p j} = ((xs.filter (fun j => p j)).toFinset : Set Nat) := by
    ext j; simp
  rw [hset, Set.ncard_coe_finset, toFinset_card_of_nodup (nodup.filter _),
    countP_eq_length_filter]

theorem countP_states (authority : CompletionAuthority) :
    authority.states.countP (·.isTerminal) =
      (List.range authority.states.length).countP (fun i => (authority.stateAt i).isTerminal) := by
  have hmap : (List.range authority.states.length).map authority.stateAt = authority.states := by
    refine ext_getElem (by simp) fun i h₁ h₂ => ?_
    simp [stateAt, getElem?_eq_getElem h₂]
  conv_lhs => rw [← hmap]
  rw [countP_map]
  rfl

theorem remaining_eq_ncard (inv : Invariant authority) (hi : i < authority.graph.nodes.length)
    (h : authority.stateAt i = .blocked) :
    authority.remainingDependencies[i]? =
      some (Set.ncard {j | authority.graph.dependsOn i j ∧ authority.stateAt j ≠ .succeeded}) := by
  have hset : {j | authority.graph.dependsOn i j ∧ authority.stateAt j ≠ .succeeded} =
      {j | j ∈ authority.graph.dependencies i ∧ authority.stateAt j ≠ .succeeded} := by
    simp only [inv.wellFormed.mem_dependencies]
  have hcount := inv.remaining i h
  have hlt : i < authority.remainingDependencies.length := inv.remainingLength ▸ hi
  rw [getD_eq_getElem?_getD, getElem?_eq_getElem hlt, Option.getD_some] at hcount
  rw [getElem?_eq_getElem hlt, hcount, hset,
    ncard_eq_countP (inv.wellFormed.nodup_dependencies i)]
  rfl

theorem terminalNodes_eq_ncard (inv : Invariant authority) :
    authority.terminalNodes = Set.ncard
      {i | i < authority.graph.nodes.length ∧ (authority.stateAt i).isTerminal = true} := by
  have hset : {i | i < authority.graph.nodes.length ∧ (authority.stateAt i).isTerminal = true} =
      {i | i ∈ List.range authority.states.length ∧ (authority.stateAt i).isTerminal = true} := by
    simp only [mem_range, inv.statesLength]
  rw [inv.terminal, countP_states, hset, ncard_eq_countP nodup_range]
  simp

/-! ### Results about whole runs -/

section

variable {context : ContextIdentity} {streams : List StreamIdentity} {nodes : List CompletionNode}
  {graph : CompletionGraph} (h : CompletionGraph.new context streams nodes = .ok graph)
  (calls : List Call)

include h in
/-- In every state that a run can reach, the state of each node, its dependency
    counter and the terminal counter are tied to the states of its dependencies. -/
theorem completion_authority_invariant :
    (∀ i < graph.nodes.length,
      ((run graph calls).stateAt i = .blocked ↔
        ¬ CancelledWhileBlocked graph calls i ∧
        (∀ j, graph.dependsOn i j → ¬ ((run graph calls).stateAt j).IsFailing) ∧
        ∃ j, graph.dependsOn i j ∧ (run graph calls).stateAt j ≠ .succeeded) ∧
      (((run graph calls).stateAt i).IsReleased →
        ∀ j, graph.dependsOn i j → (run graph calls).stateAt j = .succeeded) ∧
      ((∃ origin error, (run graph calls).stateAt i = .dependencyFailed origin error) ∨
        (∃ origin reason, (run graph calls).stateAt i = .dependencyCancelled origin reason) →
        ∃ j, graph.dependsOn i j ∧ ((run graph calls).stateAt j).IsFailing) ∧
      ((run graph calls).stateAt i = .blocked →
        (run graph calls).remainingDependencies[i]? = some (Set.ncard
          {j | graph.dependsOn i j ∧ (run graph calls).stateAt j ≠ .succeeded}))) ∧
    (run graph calls).terminalNodes = Set.ncard
      {i | i < graph.nodes.length ∧ ((run graph calls).stateAt i).isTerminal = true} := by
  have wf := new_wellFormed h
  obtain ⟨inv, hgraph⟩ := run_invariant wf calls
  have coherent := run_coherent wf calls
  have hfailing : ∀ i, (∃ origin error,
        (run graph calls).stateAt i = .dependencyFailed origin error) ∨
      (∃ origin reason, (run graph calls).stateAt i = .dependencyCancelled origin reason) →
      ∃ j, graph.dependsOn i j ∧ ((run graph calls).stateAt j).IsFailing := by
    intro i hi
    have hinherited : dependencyCause ((run graph calls).stateAt i) =
        some ((run graph calls).stateAt i) := by
      rcases hi with ⟨_, _, hi⟩ | ⟨_, _, hi⟩ <;> rw [hi] <;> rfl
    obtain ⟨j, hdep, hcause⟩ := (coherent.justified i).inherited hinherited
    exact ⟨j, hdep, isFailing_of_cause hcause⟩
  refine ⟨fun i hi => ⟨⟨fun hblocked => ?_, ?_⟩, (coherent.justified i).released,
    hfailing i, ?_⟩, ?_⟩
  · exact ⟨fun hcancelled => stateAt_of_cancelledWhileBlocked wf hcancelled hblocked,
      coherent.blocked i hblocked⟩
  · rintro ⟨hcancelled, hnone, j, hdep, hj⟩
    -- every other state contradicts one of the three conditions
    have hreleased : ¬ ((run graph calls).stateAt i).IsReleased :=
      fun hr => hj ((coherent.justified i).released hr j hdep)
    cases hstate : (run graph calls).stateAt i with
    | blocked => rfl
    | ready | cancelRequested reason | succeeded | failed origin error =>
      rw [hstate] at hreleased
      exact absurd trivial hreleased
    | cancelled origin reason =>
      rcases cancelled_cases wf hstate with hearlier | hall
      · exact absurd hearlier hcancelled
      · exact absurd (hall j hdep) hj
    | dependencyFailed origin error =>
      obtain ⟨k, hk, hfail⟩ := hfailing i (.inl ⟨origin, error, hstate⟩)
      exact absurd hfail (hnone k hk)
    | dependencyCancelled origin reason =>
      obtain ⟨k, hk, hfail⟩ := hfailing i (.inr ⟨origin, reason, hstate⟩)
      exact absurd hfail (hnone k hk)
  · intro hblocked
    have := remaining_eq_ncard inv (by rw [hgraph]; exact hi) hblocked
    rwa [hgraph] at this
  · have := terminalNodes_eq_ncard inv
    rwa [hgraph] at this

theorem completion_authority_invariant_join :
    ∃ graph, CompletionGraph.new joinContext [joinStream 2, joinStream 1] joinNodes = .ok graph ∧
      (run graph [.markSucceeded (joinId 1),
        .cancelBlocked (joinId 3) ⟨8, by decide⟩]).terminalNodes
        = Set.ncard {i | i < graph.nodes.length ∧
          ((run graph [.markSucceeded (joinId 1),
            .cancelBlocked (joinId 3) ⟨8, by decide⟩]).stateAt i).isTerminal = true} :=
  ⟨_, rfl, (@completion_authority_invariant joinContext [joinStream 2, joinStream 1] joinNodes _
    rfl _).2⟩

/-- The call changed node `node` to `own` and exactly the blocked transitive
    dependents of it to `handed`. -/
def Attributed (before after : CompletionAuthority) (node : CompletionNodeId)
    (own handed : CompletionNodeState) : Prop :=
  ∃ i, before.graph.nodeIndex node = some i ∧ after.stateAt i = own ∧ before.stateAt i ≠ own ∧
    ∀ v < before.graph.nodes.length, v ≠ i →
      (before.stateAt v = .blocked ∧ TransGen before.graph.dependsOn v i →
        after.stateAt v = handed) ∧
      (¬ (before.stateAt v = .blocked ∧ TransGen before.graph.dependsOn v i) →
        after.stateAt v = before.stateAt v)

theorem attributed_of_stops {before : CompletionAuthority} (inv : Invariant before)
    {node : CompletionNodeId} {state : CompletionNodeState}
    (hid : before.graph.idAt i = some node)
    (stops : Stops before.graph.idAt before.stateAt i state) :
    Attributed before ((before.terminate i state).propagateTerminalCauseFrom i) node state
      state.inherited := by
  have hstate := (stop_effect inv stops).2
  refine ⟨i, (nodeIndex_eq_some_iff inv.wellFormed).mpr hid, by rw [hstate, afterStop_self],
    fun heq => ?_, fun v _ hvi => ?_⟩
  · have := stops.not_isFailing
    rw [heq] at this
    exact this stops.isFailing
  · rw [hstate]
    rcases afterStop_cases before.graph.dependsOn before.stateAt i v state with
      ⟨h, _⟩ | ⟨_, hnew, hreach⟩ | ⟨_, hsame, hfar⟩
    · exact absurd h hvi
    · exact ⟨fun _ => hnew, fun hnot => absurd hreach hnot⟩
    · exact ⟨fun hreach => absurd hreach hfar, fun _ => hsame⟩

include h in
/-- A stop changes exactly the stopped node and its blocked transitive dependents,
    which take over its code with the node as origin; and in every reachable state
    an inherited cause names an ancestor in the matching state. -/
theorem failure_attribution :
    (∀ node reason after, (run graph calls).cancelBlocked node reason = (.ok (), after) →
      Attributed (run graph calls) after node (.cancelled node reason)
        (.dependencyCancelled node reason)) ∧
    (∀ node error after, (run graph calls).markFailed node error = (.ok (), after) →
      Attributed (run graph calls) after node (.failed node error)
        (.dependencyFailed node error)) ∧
    (∀ node after, (run graph calls).markCancelled node = (.ok (), after) →
      ∃ reason, (run graph calls).state node = .ok (.cancelRequested reason) ∧
        Attributed (run graph calls) after node (.cancelled node reason)
          (.dependencyCancelled node reason)) ∧
    (∀ v origin error, (run graph calls).stateAt v = .dependencyFailed origin error →
      ∃ u, TransGen graph.dependsOn v u ∧ graph.nodeIndex origin = some u ∧
        (run graph calls).stateAt u = .failed origin error) ∧
    (∀ v origin reason, (run graph calls).stateAt v = .dependencyCancelled origin reason →
      ∃ u, TransGen graph.dependsOn v u ∧ graph.nodeIndex origin = some u ∧
        (run graph calls).stateAt u = .cancelled origin reason) := by
  have wf := new_wellFormed h
  obtain ⟨inv, hgraph⟩ := run_invariant wf calls
  have hsource : ∀ v, _ := (run_coherent wf calls).attribution graph.topologicalRank
    fun hdep => wf.rank_lt (wf.mem_dependencies.mpr hdep)
  have hindex : ∀ {node i}, (run graph calls).graph.nodeIndex node = some i →
      (run graph calls).graph.idAt i = some node :=
    fun hi => (nodeIndex_eq_some_iff inv.wellFormed).mp hi
  refine ⟨?_, ?_, ?_, ?_, ?_⟩
  · intro node reason after hcall
    rw [cancelBlocked] at hcall
    split at hcall
    · cases hcall
    · rename_i i hi
      split at hcall
      · rename_i hstate
        cases hcall
        exact attributed_of_stops inv (hindex hi) (.cancelledBlocked reason (hindex hi) hstate)
      · split at hcall <;> cases hcall
  · intro node error after hcall
    rw [markFailed] at hcall
    split at hcall
    · cases hcall
    · rename_i i hi
      split at hcall
      iterate 2
        · rename_i hstate
          cases hcall
          exact attributed_of_stops inv (hindex hi)
            (.failed error (hindex hi) (by rw [hstate]; exact trivial))
      · split at hcall <;> cases hcall
  · intro node after hcall
    rw [markCancelled] at hcall
    split at hcall
    · cases hcall
    · rename_i i hi
      split at hcall
      · rename_i reason hstate
        cases hcall
        refine ⟨reason, ?_, attributed_of_stops inv (hindex hi)
          (.cancelled reason (hindex hi) hstate)⟩
        rw [state, hi, ← hstate]
      · split at hcall <;> cases hcall
  · intro v origin error hv
    obtain ⟨u, named, hreach, hid, howner, hcause⟩ := hsource v (by rw [hv]; rfl)
    rw [hv] at hcause
    obtain ⟨hu, rfl⟩ := eq_failed_of_cause howner hcause
    exact ⟨u, hreach, (nodeIndex_eq_some_iff wf).mpr hid, hu⟩
  · intro v origin reason hv
    obtain ⟨u, named, hreach, hid, howner, hcause⟩ := hsource v (by rw [hv]; rfl)
    rw [hv] at hcause
    obtain ⟨hu, rfl⟩ := eq_cancelled_of_cause howner hcause
    exact ⟨u, hreach, (nodeIndex_eq_some_iff wf).mpr hid, hu⟩

theorem failure_attribution_join :
    ∃ graph after, CompletionGraph.new joinContext [joinStream 2, joinStream 1] joinNodes =
        .ok graph ∧
      (run graph []).markFailed (joinId 2) ⟨6, by decide⟩ = (.ok (), after) ∧
      after.stateAt 3 = .dependencyFailed (joinId 2) ⟨6, by decide⟩ ∧
      Attributed (run graph []) after (joinId 2) (.failed (joinId 2) ⟨6, by decide⟩)
        (.dependencyFailed (joinId 2) ⟨6, by decide⟩) :=
  ⟨_, _, rfl, rfl, rfl, (@failure_attribution joinContext [joinStream 2, joinStream 1] joinNodes _
    rfl []).2.1 _ _ _ rfl⟩

end

/-! ### Readiness notifications -/

/-- The notifications that the calls of a run delivered, oldest first. -/
def delivered (authority : CompletionAuthority) : List Call → List CompletionNodeId
  | [] => []
  | call :: calls => authority.delivers call ++ delivered (authority.apply call) calls

/-- Everything pushed to the notification queue since it was created, in the order
    of the pushes: the queue is appended to at its back and popped from its front,
    so this is what was delivered followed by what is still queued. -/
def pushed (graph : CompletionGraph) (calls : List Call) : List CompletionNodeId :=
  delivered (new graph) calls ++ (run graph calls).readyNotifications

/-- Node `v` was ready after some initial part of the run. -/
def WasReady (graph : CompletionGraph) (calls : List Call) (v : Nat) : Prop :=
  ∃ front, front <+: calls ∧ (run graph front).stateAt v = .ready

theorem delivered_concat (authority : CompletionAuthority) (calls : List Call) (call : Call) :
    delivered authority (calls ++ [call]) = delivered authority calls ++
      (calls.foldl CompletionAuthority.apply authority).delivers call := by
  induction calls generalizing authority with
  | nil => simp [delivered]
  | cons first calls ih =>
    rw [cons_append, delivered, delivered, ih, append_assoc, foldl_cons]

theorem wasReady_concat {call : Call} :
    WasReady graph (calls ++ [call]) v ↔
      WasReady graph calls v ∨ (run graph (calls ++ [call])).stateAt v = .ready := by
  constructor
  · rintro ⟨front, hfront, hready⟩
    rcases prefix_concat_iff.mp hfront with rfl | hfront
    · exact .inr hready
    · exact .inl ⟨front, hfront, hready⟩
  · rintro (⟨front, hfront, hready⟩ | hready)
    · exact ⟨front, hfront.trans (prefix_append _ _), hready⟩
    · exact ⟨_, prefix_rfl, hready⟩

section

variable {graph : CompletionGraph} (wf : WellFormed graph)

include wf

/-- A blocked node has never been ready. -/
theorem not_wasReady_of_blocked (h : (run graph calls).stateAt v = .blocked) :
    ¬ WasReady graph calls v := by
  induction calls using List.reverseRecOn with
  | nil =>
    rintro ⟨front, hfront, hready⟩
    rw [prefix_nil.mp hfront, h] at hready
    cases hready
  | append_singleton calls call ih =>
    rw [wasReady_concat]
    rintro (hearlier | hnow)
    · exact ih ((run_move wf calls call).blocked h) hearlier
    · rw [h] at hnow; cases hnow

theorem idAt_injective {w : Nat} {id : CompletionNodeId} (hv : graph.idAt v = some id)
    (hw : graph.idAt w = some id) : v = w := by
  rw [← nodeIndex_eq_some_iff wf] at hv hw
  exact Option.mem_unique hv hw

theorem nodup_filterMap_idAt {row : List Nat} (nodup : row.Nodup) :
    (row.filterMap graph.idAt).Nodup :=
  nodup.filterMap fun _ _ _ hv hw => idAt_injective wf hv hw

/-- At the start, the ids of the nodes without dependencies are pushed. -/
theorem notifications_new :
    (new graph).readyNotifications.Nodup ∧
      ∀ v id, graph.idAt v = some id →
        (id ∈ (new graph).readyNotifications ↔ graph.dependencies v = []) := by
  have hlength : graph.nodes.length = (graph.dependencyIndices.map (·.length)).length := by
    rw [length_map, wf.rows]
  constructor
  · have hsub : List.Sublist (new graph).readyNotifications
        ((graph.nodes.zip (graph.dependencyIndices.map (·.length))).map (·.1.id)) := by
      rw [new]
      generalize graph.nodes.zip (graph.dependencyIndices.map (·.length)) = entries
      induction entries with
      | nil => exact .slnil
      | cons entry entries ih =>
        by_cases hzero : entry.2 = 0
        · simpa [hzero] using ih
        · simpa [hzero] using ih.cons _
    refine hsub.nodup ?_
    have hids : (graph.nodes.zip (graph.dependencyIndices.map (·.length))).map (·.1.id) =
        graph.nodes.map (·.id) := by
      conv_rhs => rw [← map_fst_zip (Nat.le_of_eq hlength)]
      rw [List.map_map]
      rfl
    rw [hids]
    exact wf.ids
  · intro v id hid
    obtain ⟨node, hnode, rfl⟩ := Option.map_eq_some_iff.mp hid
    have hlt := lt_of_idAt hid
    have hrow : v < graph.dependencyIndices.length := wf.rows ▸ hlt
    have hget : (graph.dependencyIndices.map (·.length))[v]? =
        some (graph.dependencies v).length := by
      rw [getElem?_map, CompletionGraph.dependencies, getD_eq_getElem?_getD,
        getElem?_eq_getElem hrow]
      rfl
    rw [new, mem_filterMap]
    constructor
    · rintro ⟨⟨other, remaining⟩, hentry, hsome⟩
      obtain ⟨w, hw⟩ := mem_iff_getElem?.mp hentry
      obtain ⟨hother, hremaining⟩ := getElem?_zip_eq_some.mp hw
      split at hsome
      · rename_i hzero
        have hidw : graph.idAt w = some node.id := by
          rw [CompletionGraph.idAt, hother]; exact hsome
        rw [idAt_injective wf hidw hid, hget] at hremaining
        exact length_eq_zero_iff.mp ((Option.some.inj hremaining).trans hzero)
      · cases hsome
    · intro hnone
      refine ⟨(node, 0), mem_iff_getElem?.mpr ⟨v, getElem?_zip_eq_some.mpr ⟨hnode, ?_⟩⟩, rfl⟩
      rw [hget, hnone]
      rfl

/-- What has been pushed: no id twice, and exactly the nodes that have been ready. -/
theorem pushed_spec (calls : List Call) :
    (pushed graph calls).Nodup ∧
      ∀ v id, graph.idAt v = some id → (id ∈ pushed graph calls ↔ WasReady graph calls v) := by
  induction calls using List.reverseRecOn with
  | nil =>
    obtain ⟨hnodup, hmem⟩ := notifications_new wf
    refine ⟨hnodup, fun v id hid => (hmem v id hid).trans ?_⟩
    have hstate := stateAt_new wf v
    rw [if_pos (lt_of_idAt hid)] at hstate
    constructor
    · intro hnone
      exact ⟨[], prefix_rfl, by rw [if_pos hnone] at hstate; exact hstate⟩
    · rintro ⟨front, hfront, hready⟩
      rw [prefix_nil.mp hfront, show run graph [] = new graph from rfl, hstate] at hready
      split at hready
      · assumption
      · cases hready
  | append_singleton calls call ih =>
    obtain ⟨hnodup, hmem⟩ := ih
    obtain ⟨inv, hgraph⟩ := run_invariant wf calls
    have hconcat : pushed graph (calls ++ [call]) = delivered (new graph) calls ++
        (run graph calls).delivers call ++ ((run graph calls).apply call).readyNotifications := by
      rw [pushed, delivered_concat, run_concat]; rfl
    rcases apply_refines inv call with ⟨heffect, hnone⟩ | ⟨node, rest, hqueue, hone, happly⟩
    · obtain ⟨row, hrow, hready, hnotify⟩ := heffect.notifies
      rw [hgraph] at hnotify
      have hpushed : pushed graph (calls ++ [call]) =
          pushed graph calls ++ row.filterMap graph.idAt := by
        rw [hconcat, hnone, hnotify, pushed]; simp
      -- a node that becomes ready now was blocked, so it had not been pushed
      have hfresh : ∀ v ∈ row, ∀ id, graph.idAt v = some id → id ∉ pushed graph calls := by
        intro v hv id hid hin
        exact not_wasReady_of_blocked wf ((hready v).mp hv).1 ((hmem v id hid).mp hin)
      rw [hpushed]
      refine ⟨nodup_append.mpr ⟨hnodup, nodup_filterMap_idAt wf hrow, ?_⟩, ?_⟩
      · rintro id hin other hother rfl
        obtain ⟨v, hv, hid⟩ := mem_filterMap.mp hother
        exact hfresh v hv id hid hin
      · intro v id hid
        rw [mem_append, hmem v id hid, wasReady_concat, run_concat]
        refine ⟨Or.imp_right fun hin => ?_, ?_⟩
        · obtain ⟨w, hw, hidw⟩ := mem_filterMap.mp hin
          rw [idAt_injective wf hid hidw]
          exact ((hready w).mp hw).2
        · rintro (hearlier | hnow)
          · exact .inl hearlier
          · rcases heffect.move.ready hnow with hbefore | hbefore
            · exact .inl ⟨calls, prefix_rfl, hbefore⟩
            · exact .inr (mem_filterMap.mpr ⟨v, (hready v).mpr ⟨hbefore, hnow⟩, hid⟩)
    · have hpushed : pushed graph (calls ++ [call]) = pushed graph calls := by
        rw [hconcat, hone, happly, pushed, hqueue]; simp
      have hstate : (run graph (calls ++ [call])).stateAt = (run graph calls).stateAt := by
        rw [run_concat, happly]; rfl
      rw [hpushed]
      refine ⟨hnodup, fun v id hid => (hmem v id hid).trans ?_⟩
      rw [wasReady_concat, hstate]
      exact ⟨.inl, fun h => h.elim (fun h => h) fun h => ⟨calls, prefix_rfl, h⟩⟩

end

/-- A graph that is not finished has a node that can be completed, and over a whole
    run every node is announced at most once, and exactly when it has been ready. -/
theorem no_stuck_graph {context : ContextIdentity}
    {streams : List StreamIdentity} {nodes : List CompletionNode} {graph : CompletionGraph}
    (h : CompletionGraph.new context streams nodes = .ok graph) (calls : List Call) :
    ((run graph calls).isTerminal = true ∨
      ∃ i < graph.nodes.length, (run graph calls).stateAt i = .ready ∨
        ∃ reason, (run graph calls).stateAt i = .cancelRequested reason) ∧
    (pushed graph calls).Nodup ∧
    ∀ i id, graph.nodeIndex id = some i → (id ∈ pushed graph calls ↔ WasReady graph calls i) := by
  have wf := new_wellFormed h
  obtain ⟨inv, hgraph⟩ := run_invariant wf calls
  obtain ⟨hnodup, hmem⟩ := pushed_spec wf calls
  refine ⟨?_, hnodup, fun i id hi => hmem i id ((nodeIndex_eq_some_iff wf).mp hi)⟩
  by_cases hterminal : (run graph calls).isTerminal = true
  · exact .inl hterminal
  · -- some node is not terminal, and below it there is one that can be completed
    refine .inr ?_
    rw [CompletionAuthority.isTerminal, decide_eq_true_iff, inv.terminal, countP_eq_length]
      at hterminal
    simp only [not_forall] at hterminal
    obtain ⟨state, hstate, hopen⟩ := hterminal
    obtain ⟨v, hv⟩ := mem_iff_getElem?.mp hstate
    have hat : (run graph calls).stateAt v = state := by
      rw [stateAt, getD_eq_getElem?_getD, hv]; rfl
    obtain ⟨u, _, hactive⟩ := (run_coherent wf calls).exists_active graph.topologicalRank
      (fun hdep => wf.rank_lt (wf.mem_dependencies.mpr hdep)) v (by rw [hat]; simpa using hopen)
    refine ⟨u, ?_, ?_⟩
    · rw [← hgraph, ← inv.statesLength]
      exact lt_of_stateAt_ne hactive.ne_succeeded
    · cases hu : (run graph calls).stateAt u with
      | ready => exact .inl rfl
      | cancelRequested reason => exact .inr ⟨reason, rfl⟩
      | _ => rw [hu] at hactive; exact hactive.elim

theorem no_stuck_graph_join :
    ∃ graph, CompletionGraph.new joinContext [joinStream 2, joinStream 1] joinNodes = .ok graph ∧
      pushed graph [.popReadyNotification, .markSucceeded (joinId 1),
        .markSucceeded (joinId 2)] = [joinId 1, joinId 2, joinId 3] ∧
      (pushed graph [.popReadyNotification, .markSucceeded (joinId 1),
        .markSucceeded (joinId 2)]).Nodup :=
  ⟨_, rfl, rfl, (@no_stuck_graph joinContext [joinStream 2, joinStream 1] joinNodes _
    rfl _).2.1⟩

/-! ### Successful runs in any order -/

/-- A call that completes a node successfully or takes a notification. -/
def Call.Succeeds : Call → Prop
  | .markSucceeded _ | .popReadyNotification => True
  | _ => False

section

variable (wf : WellFormed graph)
  (hcalls : ∀ call ∈ calls, call.Succeeds) (v : Nat)

include wf hcalls

/-- Without failures and cancellations a node is blocked, ready or succeeded. -/
theorem stateAt_of_succeeds : (run graph calls).stateAt v = .blocked ∨
    (run graph calls).stateAt v = .ready ∨ (run graph calls).stateAt v = .succeeded := by
  induction calls using List.reverseRecOn with
  | nil =>
    rw [show run graph [] = new graph from rfl, stateAt_new wf]
    split_ifs <;> simp
  | append_singleton calls call ih =>
    have hcall := hcalls call (by simp)
    replace ih := ih fun call hin => hcalls call (mem_append_left _ hin)
    rcases run_invariant wf calls with ⟨inv, hgraph⟩
    have hacts := apply_acts (hgraph ▸ wf) call
    rw [run_concat]
    generalize (run graph calls).apply call = after at hacts ⊢
    cases hacts with
    | rejected => exact ih
    | delivered => exact ih
    | succeeded node i hid active =>
      rw [(succeed_effect inv active).2]
      rcases afterSuccess_cases (run graph calls).graph.dependsOn (run graph calls).stateAt i v with
        ⟨_, h⟩ | ⟨_, h, _⟩ | ⟨_, h, _⟩
      · simp [h]
      · simp [h]
      · rwa [h]
    | _ => exact hcall.elim

/-- In such a run the nodes that have succeeded determine which ones are blocked. -/
theorem blocked_iff_of_succeeds : (run graph calls).stateAt v = .blocked ↔
    ∃ j, graph.dependsOn v j ∧ (run graph calls).stateAt j ≠ .succeeded := by
  have coherent := run_coherent wf calls
  constructor
  · intro hblocked
    exact (coherent.blocked v hblocked).2
  · rintro ⟨j, hdep, hopen⟩
    by_contra hblocked
    refine hopen ((coherent.justified v).released ?_ j hdep)
    rcases (stateAt_of_succeeds wf hcalls v).resolve_left hblocked with h | h <;> rw [h] <;> trivial

end

/-- Runs in which every completion is a success, in whatever order: when the same nodes have
    succeeded, every node is in the same state. -/
theorem success_schedules_agree {context : ContextIdentity}
    {streams : List StreamIdentity} {nodes : List CompletionNode}
    (h : CompletionGraph.new context streams nodes = .ok graph) {others : List Call}
    (hcalls : ∀ call ∈ calls, call.Succeeds) (hothers : ∀ call ∈ others, call.Succeeds)
    (hsame : ∀ v, (run graph calls).stateAt v = .succeeded ↔
      (run graph others).stateAt v = .succeeded) (v : Nat) :
    (run graph calls).stateAt v = (run graph others).stateAt v := by
  have wf := new_wellFormed h
  have hblocked : (run graph calls).stateAt v = .blocked ↔
      (run graph others).stateAt v = .blocked := by
    simp only [blocked_iff_of_succeeds wf hcalls, blocked_iff_of_succeeds wf hothers, ne_eq, hsame]
  have hdone := hsame v
  rcases stateAt_of_succeeds wf hcalls v with h | h | h <;>
    rcases stateAt_of_succeeds wf hothers v with h' | h' | h' <;> simp_all

theorem success_schedules_agree_join :
    ∃ graph, CompletionGraph.new joinContext [joinStream 2, joinStream 1] joinNodes = .ok graph ∧
      (run graph [.markSucceeded (joinId 1), .markSucceeded (joinId 2)]).stateAt 2 =
        (run graph [.markSucceeded (joinId 2), .markSucceeded (joinId 1)]).stateAt 2 := by
  refine ⟨_, rfl, @success_schedules_agree _ _ joinContext [joinStream 2, joinStream 1] joinNodes
    rfl _ (by simp [Call.Succeeds]) (by simp [Call.Succeeds]) ?_ 2⟩
  rintro (_ | _ | _ | _ | v) <;> exact Iff.rfl

end Fe2o3.Completion
