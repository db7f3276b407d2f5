import Fe2o3.KernelIr.ControlFlow
import Fe2o3.Lib.Cycles
import Fe2o3.Lib.Elimination

/-!
# The reducibility test

The elimination of `compute_irreducible_blocks` removes the blocks that no cycle of
forward edges reaches: its counters hold the edges from blocks not yet removed, so a
block is ready when all its predecessors are removed, and what remains at the end has
predecessors that remain.
-/

namespace Fe2o3.KernelIr.ControlFlow

open Lib Relation List

variable {meter : WorkMeter}

theorem run_bind_eq_ok {α β : Type} {x : Metered α} {f : α → Metered β} {result : β × WorkMeter} :
    (x >>= f).run meter = .ok result ↔
      ∃ a meter', x.run meter = .ok (a, meter') ∧ (f a).run meter' = .ok result := by
  rw [StateT.run_bind, bind_eq_ok, Prod.exists]

/-! ### The elimination -/

variable {row : List Nat} {meter' : WorkMeter}

section

variable {forward : Nat → List Nat} {blocks : Nat} {removed targets : List Nat}
  {state : Elimination}

theorem counts_release (hrow : ∀ s ∈ row, s < blocks)
    (h : Counts blocks (row ++ targets) state.indegrees state.ready) :
    Counts blocks targets (row.foldl releaseForward state).indegrees
      (row.foldl releaseForward state).ready := by
  induction row generalizing state with
  | nil => exact h
  | cons s row ih =>
    refine ih (fun t ht => hrow t (mem_cons_of_mem _ ht)) ?_
    refine (h.release (hrow s mem_cons_self)).perm (.refl _) ?_
    simp only [releaseForward]
    split
    · exact (perm_append_singleton s state.ready).symm
    · exact .refl _

/-- Releasing a row only adds to the work list. -/
theorem release_frame (row : List Nat) (state : Elimination) :
    (row.foldl releaseForward state).visited = state.visited ∧
      state.ready <+: (row.foldl releaseForward state).ready := by
  induction row generalizing state with
  | nil => exact ⟨rfl, prefix_rfl⟩
  | cons s row ih =>
    obtain ⟨hvisited, hready⟩ := ih (releaseForward state s)
    refine ⟨hvisited, List.IsPrefix.trans ?_ hready⟩
    simp only [releaseForward]
    split
    · exact prefix_append ..
    · exact prefix_rfl

/-- The cursor stands after the blocks `removed`, and none of them comes from a cycle. -/
structure Removed (forward : Nat → List Nat) (blocks : Nat) (removed : List Nat)
    (state : Elimination) : Prop where
  ready : removed <+: state.ready
  counts : Counts blocks (openTargets blocks forward removed) state.indegrees state.ready
  visited : state.visited = (List.range blocks).map fun t => decide (t ∈ removed)
  clear : ∀ t ∈ removed, ¬FromCycle (fun s t => t ∈ forward s) t

variable (hforward : ∀ s t, t ∈ forward s → s < blocks ∧ t < blocks)
include hforward

theorem Removed.start : Removed forward blocks [] (eliminationStart forward blocks) := by
  have htargets : openTargets blocks forward [] = (List.range blocks).flatMap forward := by
    simp [openTargets]
  have hcount : ∀ t < blocks, (eliminationStart forward blocks).indegrees.getD t 0 =
      ((List.range blocks).flatMap forward).count t := by
    intro t ht
    refine (getD_foldl_increment id _ _ t fun u hu => ?_).trans ?_
    · obtain ⟨s, -, hsu⟩ := mem_flatMap.mp hu
      rw [length_replicate]
      exact (hforward s u hsu).2
    · rw [getD_eq_getElem?_getD, getElem?_replicate_of_lt ht, Option.getD_some,
        Nat.zero_add]
      exact countP_congr fun u _ => by simp
  refine ⟨ nil_prefix, ?_, by simp [eliminationStart], by simp⟩
  rw [htargets]
  refine ⟨?_, hcount, fun t => ?_, nodup_range.filter _⟩
  · exact (length_foldl_increment id _ _).trans (length_replicate ..)
  · simp only [eliminationStart, mem_filter, mem_range, decide_eq_true_eq]
    exact and_congr_right fun ht => by rw [← count_eq_zero, ← hcount t ht]; rfl

theorem Removed.step {block : Nat} (h : Removed forward blocks removed state)
    (hblock : state.ready[removed.length]? = some block) :
    Removed forward blocks (removed ++ [block]) ((forward block).foldl releaseForward
      { state with visited := state.visited.set block true }) := by
  obtain ⟨pending, hready⟩ := h.ready
  obtain ⟨pending, rfl⟩ : ∃ later, pending = block :: later := by
    rw [← hready, getElem?_append_right (Nat.le_refl _), Nat.sub_self] at hblock
    cases pending with
    | nil => nomatch hblock
    | cons first later => exact ⟨later, by rw [Option.some.inj hblock]⟩
  have hmem : block ∈ state.ready := by rw [← hready]; simp
  have hlt : block < blocks := ((h.counts.mem block).mp hmem).1
  have hnew : block ∉ removed := by
    have hnodup := h.counts.nodup
    rw [← hready] at hnodup
    exact fun hin => (nodup_append.mp hnodup).2.2 block hin block mem_cons_self rfl
  obtain ⟨hvisited, hlonger⟩ := release_frame (forward block)
    { state with visited := state.visited.set block true }
  refine ⟨List.IsPrefix.trans ⟨pending, ?_⟩ hlonger, ?_, ?_, fun t ht => ?_⟩
  · rw [← hready, append_assoc, singleton_append]
  · exact counts_release (fun t ht => (hforward block t ht).2)
      (h.counts.perm (openTargets_perm hlt hnew) (.refl _))
  · rw [hvisited, h.visited]
    refine ext_getElem (by simp) fun t ht _ => ?_
    by_cases hbt : block = t
    · simp [hbt]
    · simp [hbt, getElem_set_ne, Ne.symm hbt]
  · obtain ht | ht := mem_append.mp ht
    · exact h.clear t ht
    -- all predecessors of a ready block are removed
    · obtain rfl := mem_singleton.mp ht
      intro hcycle
      obtain ⟨s, hst, hcycle⟩ := hcycle.exists_pred
      exact h.clear s (h.counts.removed_of_entered hmem (hforward s t hst).1 hst) hcycle

/-- What is left when no block is ready comes from a cycle. -/
theorem Removed.visited_iff (h : Removed forward blocks removed state)
    (hdone : ∀ t ∈ state.ready, t ∈ removed) (t : Nat) :
    state.visited[t]? = some false ↔ FromCycle (fun s t => t ∈ forward s) t := by
  have hvisited : state.visited[t]? = some false ↔ t < blocks ∧ t ∉ removed := by
    rw [h.visited, getElem?_map]
    by_cases ht : t < blocks
    · simp [ht]
    · simp [ht]
  rw [hvisited]
  constructor
  · refine FromCycle.of_preds (S := {u | u < blocks ∧ u ∉ removed})
      ((Set.finite_lt_nat blocks).subset fun u hu => hu.1) ?_
    rintro u ⟨hu, hleft⟩
    have htarget : u ∈ openTargets blocks forward removed := by
      by_contra hnone
      exact hleft (hdone u ((h.counts.mem u).mpr ⟨hu, hnone⟩))
    obtain ⟨s, hs, hopen, hsu⟩ := mem_openTargets.mp htarget
    exact ⟨s, ⟨hs, hopen⟩, hsu⟩
  · intro hcycle
    obtain ⟨s, hst, -⟩ := hcycle.exists_pred
    exact ⟨(hforward s t hst).2, fun hin => h.clear t hin hcycle⟩

theorem eliminationLoop_visited {rounds : Nat} {final : Elimination}
    (h : Removed forward blocks removed state) (hrounds : blocks ≤ removed.length + rounds)
    (hrun : (eliminationLoop forward rounds removed.length state).run meter = .ok (final, meter'))
    (t : Nat) : final.visited[t]? = some false ↔ FromCycle (fun s t => t ∈ forward s) t := by
  induction rounds generalizing removed state meter with
  | zero =>
    cases hrun
    refine h.visited_iff hforward (fun u hu => ?_) t
    have hbound := fun i hi => ((h.counts.mem i).mp (h.ready.subset hi)).1
    rw [(perm_range (h.ready.sublist.nodup h.counts.nodup) hbound hrounds).mem_iff]
    exact mem_range.mpr ((h.counts.mem u).mp hu).1
  | succ rounds ih =>
    rw [eliminationLoop] at hrun
    split at hrun
    · rename_i hnone
      cases hrun
      refine h.visited_iff hforward (fun u hu => ?_) t
      rwa [h.ready.eq_of_length_le (List.getElem?_eq_none_iff.mp hnone)]
    · rename_i block hblock
      obtain ⟨-, meter, -, hrun⟩ := run_bind_eq_ok.mp hrun
      rw [← length_concat, concat_eq_append] at hrun
      refine ih (h.step hforward hblock) ?_ hrun
      rw [length_append, length_singleton]
      omega

end

variable {blockIds : List BlockId}

theorem mem_computeIrreducibleBlocks {successors : List (List Nat)} {dominance : Dominance}
    {irreducible : List BlockId} (hforward : ∀ s t, t ∈ forwardRow successors dominance s →
      s < successors.length ∧ t < successors.length)
    (h : (computeIrreducibleBlocks blockIds successors dominance).run meter =
      .ok (irreducible, meter')) (block : BlockId) :
    block ∈ irreducible ↔ ∃ i, blockIds[i]? = some block ∧
      FromCycle (fun s t => t ∈ forwardRow successors dominance s) i := by
  obtain ⟨-, meter, -, h⟩ := run_bind_eq_ok.mp h
  obtain ⟨final, meter, hloop, h⟩ := run_bind_eq_ok.mp h
  cases h
  have hvisited := eliminationLoop_visited hforward (Removed.start hforward)
    (Nat.le_add_left ..) hloop
  simp only [mem_insertionSort, mem_map, mem_filter, ← hvisited]
  constructor
  · rintro ⟨⟨_, visited⟩, ⟨hmem, hopen⟩, rfl⟩
    obtain ⟨i, hi⟩ := mem_iff_getElem?.mp hmem
    obtain ⟨hid, hvis⟩ := getElem?_zip_eq_some.mp hi
    exact ⟨i, hid, by rw [hvis]; simpa using hopen⟩
  · rintro ⟨i, hid, hvis⟩
    refine ⟨(block, false), ⟨?_, rfl⟩, rfl⟩
    exact mem_of_getElem? (getElem?_zip_eq_some.mpr ⟨hid, hvis⟩)

/-! ### Positions and identities -/

def HasEdge (blocks : List BasicBlock) (source target : BlockId) : Prop :=
  ∃ block ∈ blocks, block.id = source ∧ ∃ edge ∈ block.edges, edge.1 = target

/-- An edge whose target does not dominate its source. -/
def IndexedControlFlow.Forward (flow : IndexedControlFlow) (blocks : List BasicBlock)
    (source target : BlockId) : Prop :=
  HasEdge blocks source target ∧ flow.dominates target source = false

variable {i : Nat}

theorem idxOf?_eq_some {ids : List BlockId} (hnodup : ids.Nodup) {id : BlockId} :
    ids.idxOf? id = some i ↔ ids[i]? = some id := by
  rw [idxOf?_eq_some_iff, List.getElem?_eq_some_iff]
  refine exists_congr fun hi => and_iff_left_of_imp fun hat j hj hearlier => ?_
  exact hj.ne (hnodup.getElem_inj_iff.mp (hearlier.trans hat.symm))

theorem nodup_of_checkBlocks {blocks : List BasicBlock}
    (h : (List.range blocks.length).forM (checkBlocks blocks) = .ok ()) :
    (blocks.map BasicBlock.id).Nodup := by
  refine pairwise_iff_getElem.mpr fun i j hi hj hij heq => ?_
  rw [length_map] at hi hj
  have hcheck := forM_eq_ok.mp h j (mem_range.mpr hj)
  rw [checkBlocks, getElem?_eq_getElem hj] at hcheck
  have hnew := failIf_eq_ok.mp (seq_eq_ok.mp hcheck).1
  rw [decide_eq_false_iff_not] at hnew
  refine hnew (mem_map.mpr ⟨blocks[i], ?_, by simpa using heq⟩)
  exact mem_take_iff_getElem.mpr ⟨i, by omega, rfl⟩

variable {block : BasicBlock} {j : Nat} {source target : BlockId}

section

variable {blocks : List BasicBlock} {successors : List (List Nat)} {limits : ControlFlowLimits}
  {flow : IndexedControlFlow}

theorem analyzeControlFlowWithLimits_eq_ok
    (h : analyzeControlFlowWithLimits (some blocks) limits = .ok flow) :
    flow.blockIds.Nodup ∧ flow.blockIds = blocks.map BasicBlock.id ∧
      ∃ successors, blocks.mapM (successorRow flow.blockIds) = .ok successors ∧
      ∃ meter meter', (computeIrreducibleBlocks flow.blockIds successors flow.dominance).run meter =
        .ok (flow.irreducibleBlocks, meter') := by
  simp only [analyzeControlFlowWithLimits, bind_eq_ok] at h
  obtain ⟨blocks, ⟨⟩, _, -, _, -, _, hchecked, counts, -, _, -, _, -, phiInputs, -, _,
    -, successors, hsuccessors, ⟨_, last⟩, hrun, ⟨⟩⟩ := h
  -- the phases of the meter
  simp only [analyzeSuccessors, run_bind_eq_ok] at hrun
  obtain ⟨-, _, -, _, _, -, _, _, -, _, _, -, dominance, meter, -, irreducible, meter',
    hirreducible, ⟨⟩⟩ := hrun
  exact ⟨nodup_of_checkBlocks hchecked, rfl, successors, hsuccessors, meter, _, hirreducible⟩

theorem mem_successorRow (h : successorRow blockIds block = .ok row) :
    (∀ edge ∈ block.edges, ∃ j ∈ row, blockIds.idxOf? edge.1 = some j) ∧
      ∀ j ∈ row, ∃ edge ∈ block.edges, blockIds.idxOf? edge.1 = some j := by
  obtain ⟨targets, htargets, h⟩ := bind_eq_ok.mp h
  cases h
  simp only [mem_dedup, mem_insertionSort]
  have hrow := (mapM_eq_ok htargets).imp fun edge j => okOr_eq_ok.mp
  exact ⟨fun edge => exists_right_of_forall₂ hrow, fun j => exists_left_of_forall₂ hrow⟩

section

variable (hnodup : flow.blockIds.Nodup) (hids : flow.blockIds = blocks.map BasicBlock.id)
  (hrows : blocks.mapM (successorRow flow.blockIds) = .ok successors)

include hids in
theorem getElem?_blockIds (hblock : blocks[i]? = some block) :
    flow.blockIds[i]? = some block.id := by
  rw [hids, getElem?_map, hblock, Option.map_some]

include hnodup in
theorem dominates_eq (hi : flow.blockIds[i]? = some source) (hj : flow.blockIds[j]? = some target) :
    flow.dominates target source = dominatesPositions flow.dominance j i := by
  rw [← idxOf?_eq_some hnodup] at hi hj
  simp only [IndexedControlFlow.dominates, IndexedControlFlow.blockPosition, hi, hj]

include hnodup hids hrows

theorem forward_of_mem (h : j ∈ forwardRow successors flow.dominance i) :
    ∃ source target, flow.blockIds[i]? = some source ∧ flow.blockIds[j]? = some target ∧
      flow.Forward blocks source target := by
  obtain ⟨hmem, hdominates⟩ := mem_filter.mp h
  rw [getD_eq_getElem?_getD] at hmem
  cases hrow : successors[i]? with
  | none => simp [hrow] at hmem
  | some row =>
    rw [hrow, Option.getD_some] at hmem
    obtain ⟨block, hblock, hresolved⟩ := getElem?_of_forall₂ (mapM_eq_ok hrows).flip hrow
    obtain ⟨edge, hedge, hposition⟩ := (mem_successorRow hresolved).2 j hmem
    have hsource := getElem?_blockIds hids hblock
    have htarget := (idxOf?_eq_some hnodup).mp hposition
    refine ⟨block.id, edge.1, hsource, htarget,
      ⟨block, mem_of_getElem? hblock, rfl, edge, hedge, rfl⟩, ?_⟩
    rw [dominates_eq hnodup hsource htarget]
    simpa using hdominates

theorem mem_of_forward (h : flow.Forward blocks source target) :
    ∃ i j, flow.blockIds[i]? = some source ∧ flow.blockIds[j]? = some target ∧
      j ∈ forwardRow successors flow.dominance i := by
  obtain ⟨⟨block, hmem, rfl, edge, hedge, rfl⟩, hdominates⟩ := h
  obtain ⟨i, hblock⟩ := mem_iff_getElem?.mp hmem
  obtain ⟨row, hrow, hresolved⟩ := getElem?_of_forall₂ (mapM_eq_ok hrows) hblock
  obtain ⟨j, hj, hposition⟩ := (mem_successorRow hresolved).1 edge hedge
  have hsource := getElem?_blockIds hids hblock
  have htarget := (idxOf?_eq_some hnodup).mp hposition
  refine ⟨i, j, hsource, htarget, mem_filter.mpr ⟨?_, ?_⟩⟩
  · rw [getD_eq_getElem?_getD, hrow, Option.getD_some]
    exact hj
  · rw [← dominates_eq hnodup hsource htarget, hdominates]
    rfl

theorem fromCycle_forward {block : BlockId} :
    FromCycle (flow.Forward blocks) block ↔ ∃ i, flow.blockIds[i]? = some block ∧
      FromCycle (fun s t => t ∈ forwardRow successors flow.dominance s) i := by
  constructor
  · intro h
    obtain ⟨_, hforward, -⟩ := h.exists_pred
    obtain ⟨-, i, -, hi, -⟩ := mem_of_forward hnodup hids hrows hforward
    have hlift := h.lift (f := fun id => (flow.blockIds.idxOf? id).getD 0)
      (S := fun s t => t ∈ forwardRow successors flow.dominance s) fun a b hab => by
        obtain ⟨j, k, hj, hk, hmem⟩ := mem_of_forward hnodup hids hrows hab
        rw [← idxOf?_eq_some hnodup] at hj hk
        rwa [hj, hk]
    rw [(idxOf?_eq_some hnodup).mpr hi] at hlift
    exact ⟨i, hi, hlift⟩
  · rintro ⟨i, hi, h⟩
    have hlift := h.lift (f := fun i => flow.blockIds[i]?.getD 0) (S := flow.Forward blocks)
      fun j k hjk => by
        obtain ⟨a, b, ha, hb, hforward⟩ := forward_of_mem hnodup hids hrows hjk
        rwa [ha, hb]
    rwa [hi] at hlift

end

/-- **The reducibility test is exact**: the irreducible blocks are those reached along
    forward edges from a cycle of forward edges. -/
theorem irreducible_blocks_exact
    (h : analyzeControlFlowWithLimits (some blocks) limits = .ok flow) :
    (∀ block, block ∈ flow.irreducibleBlocks ↔
      ∃ cycle, TransGen (flow.Forward blocks) cycle cycle ∧
        ReflTransGen (flow.Forward blocks) cycle block) ∧
    (flow.isReducible = true ↔ ¬∃ cycle, TransGen (flow.Forward blocks) cycle cycle) := by
  obtain ⟨hnodup, hids, successors, hrows, meter, meter', hrun⟩ :=
    analyzeControlFlowWithLimits_eq_ok h
  have hlength : successors.length = flow.blockIds.length := by
    rw [hids, length_map, (mapM_eq_ok hrows).length_eq]
  have hexact : ∀ block, block ∈ flow.irreducibleBlocks ↔
      FromCycle (flow.Forward blocks) block := by
    intro block
    rw [fromCycle_forward hnodup hids hrows]
    refine mem_computeIrreducibleBlocks (fun i j hij => ?_) hrun block
    obtain ⟨_, _, hi, hj, -⟩ := forward_of_mem hnodup hids hrows hij
    rw [hlength]
    exact ⟨(List.getElem?_eq_some_iff.mp hi).1, (List.getElem?_eq_some_iff.mp hj).1⟩
  refine ⟨hexact, ?_⟩
  rw [IndexedControlFlow.isReducible, List.isEmpty_iff, eq_nil_iff_forall_not_mem]
  constructor
  · rintro hnone ⟨cycle, hcycle⟩
    exact hnone cycle ((hexact cycle).mpr ⟨cycle, hcycle, .refl⟩)
  · intro hnone block hblock
    obtain ⟨cycle, hcycle, -⟩ := (hexact block).mp hblock
    exact hnone ⟨cycle, hcycle⟩

end

/-- A loop that is entered at both its blocks. -/
def twoEntries : List BasicBlock :=
  [⟨0, 0, some (.conditionalBranch 1 0 2 0)⟩, ⟨1, 0, some (.branch 2 0)⟩,
    ⟨2, 0, some (.branch 1 0)⟩]

theorem two_entries_irreducible : ∃ flow,
    analyzeControlFlowWithLimits (some twoEntries) {} = .ok flow ∧
    flow.irreducibleBlocks = [1, 2] ∧ ∃ cycle, TransGen (flow.Forward twoEntries) cycle cycle ∧
      ReflTransGen (flow.Forward twoEntries) cycle 1 := by
  have hrun : analyzeControlFlowWithLimits (some twoEntries) {} =
      .ok ⟨[0, 1, 2], ⟨[true, true, true], [0, 1, 3], [5, 2, 4]⟩, [1, 2]⟩ := by
    decide +kernel
  exact ⟨_, hrun, rfl, ((irreducible_blocks_exact hrun).1 1).mp (by decide)⟩

end Fe2o3.KernelIr.ControlFlow
