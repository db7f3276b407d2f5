import Fe2o3.Completion.Checks

/-!
# Which graphs the constructor accepts

`Admissible` says what a completion graph is, with no reference to the order in which
its streams and nodes are listed: in particular that the nodes of every stream form one
chain.  The constructor checks no chains.  It counts heads, refuses two nodes with one
predecessor and finds cycles in the topological sort; a sequence that respects all
dependencies then lists the nodes of a stream in the order of its chain.
-/

namespace Fe2o3.Completion

open Lib
open List hiding chains

/-! ### Admissible graphs -/

/-- One linear chain: each node's stream predecessor is the node immediately before it. -/
def IsStreamChain (chain : List CompletionNode) : Prop :=
  (∀ first ∈ chain.head?, first.streamPredecessor = none) ∧
    chain.IsChain fun before after => after.streamPredecessor = some before.id

structure Admissible (context : ContextIdentity) (streams : List StreamIdentity)
    (nodes : List CompletionNode) : Prop where
  someStream : streams ≠ []
  someNode : nodes ≠ []
  distinctStreams : streams.Nodup
  ids : (nodes.map (·.id)).Nodup
  streamContext : ∀ stream ∈ streams, stream.context = context
  eventContext : ∀ node ∈ nodes, ∀ event, node.recordedEvent = some event ∨
    node.awaitedEvent = some event → event.context = context
  declared : ∀ node ∈ nodes, node.stream ∈ streams
  used : ∀ stream ∈ streams, ∃ node ∈ nodes, node.stream = stream
  futures : (nodes.filterMap (·.future)).Nodup
  records : (nodes.filterMap (·.recordedEvent)).Nodup
  chains : ∀ stream ∈ streams, ∃ chain : List CompletionNode,
    chain.Perm (nodes.filter fun node => node.stream = stream) ∧ IsStreamChain chain
  waits : ∀ node ∈ nodes, ∀ event recordedBy, node.awaitedEvent = some event →
    node.kind.recordedBy = some recordedBy →
    ∃ record ∈ nodes, record.id = recordedBy ∧ record.recordedEvent = some event
  acyclic : ∀ node, ¬Relation.TransGen (Waits nodes) node node

variable {sequence : List CompletionNode} {node : CompletionNode}

section Chains

variable {context : ContextIdentity} {streams : List StreamIdentity}
  {nodes : List CompletionNode}

theorem isStreamChain_iff {chain : List CompletionNode} :
    IsStreamChain chain ↔
      chain.map (·.streamPredecessor) <+: none :: chain.map (fun node => some node.id) :=
  isChain_naming_iff

variable {id : CompletionNodeId}

theorem find_id_iff (ids : (nodes.map (·.id)).Nodup) {found : CompletionNode} :
    nodes.find? (fun other => other.id = id) = some found ↔ found ∈ nodes ∧ found.id = id := by
  constructor
  · intro h
    exact ⟨mem_of_find?_eq_some h, by simpa using find?_some h⟩
  · rintro ⟨hmem, rfl⟩
    cases hfind : nodes.find? fun other => other.id = found.id with
    | none => simpa using find?_eq_none.mp hfind found hmem
    | some other =>
      have hid : other.id = found.id := by simpa using find?_some hfind
      rw [inj_on_of_nodup_map ids (mem_of_find?_eq_some hfind) hmem hid]

theorem pairwise_apart_iff : nodes.Pairwise Apart ↔ (nodes.filterMap (·.future)).Nodup ∧
    (nodes.filterMap (·.recordedEvent)).Nodup ∧ (nodes.filterMap (·.streamPredecessor)).Nodup := by
  have hdistinct : ∀ {β : Type} {x y : Option β},
      (∀ b, x = some b → ∀ b', y = some b' → b ≠ b') ↔ ∀ b, x = some b → y ≠ some b := by
    exact ⟨fun h b hb hb' => h b hb b hb' rfl, fun h b hb b' hb' heq => h b hb (heq ▸ hb')⟩
  simp only [List.Nodup, pairwise_filterMap, ← pairwise_and_iff, hdistinct]
  exact List.Pairwise.iff fun _ _ => ⟨fun h => ⟨h.future, h.record, h.predecessor⟩,
    fun ⟨hfuture, hrecord, hpredecessor⟩ => ⟨hfuture, hrecord, hpredecessor⟩⟩

/-- A sequence that respects all dependencies lists every stream in the order of its chain. -/
theorem Checked.chain (h : Checked context streams nodes) (hsequence : Respects nodes sequence)
    {stream : StreamIdentity} (hstream : stream ∈ streams) :
    IsStreamChain (sequence.filter fun node => node.stream = stream) := by
  rw [isStreamChain_iff]
  refine map_names_of_nodup (fun front node back hsplit => ?_) (nodup_map_of_filterMap ?_ ?_)
  · obtain ⟨before, after, hbefore, hnode, rfl⟩ := filter_split hsplit
    have hmem : node ∈ nodes := hsequence.perm.mem_iff.mp (by rw [hbefore]; simp)
    cases hpredecessor : node.streamPredecessor with
    | none => exact mem_cons_self
    | some id =>
      obtain ⟨found, hfind, hsame⟩ := (h.placed node hmem).predecessor id hpredecessor
      obtain ⟨hfound, rfl⟩ := (find_id_iff h.ids).mp hfind
      refine mem_cons_of_mem _ (mem_map.mpr ⟨found, mem_filter.mpr ⟨?_, ?_⟩, rfl⟩)
      · refine hsequence.earlier before node after hbefore found ⟨hmem, hfound, ?_⟩
        simp [CompletionNode.references, hpredecessor]
      · rwa [hsame]
  · have hpredecessors := (pairwise_apart_iff.mp h.apart).2.2
    exact ((hsequence.perm.filterMap _).nodup_iff.mpr hpredecessors).sublist
      (filter_sublist.filterMap _)
  · rw [countP_filter, hsequence.perm.countP_eq]
    refine (Nat.le_of_eq ?_).trans (Nat.le_of_eq (h.heads stream hstream))
    simp [and_comm]

theorem Checked.admissible (h : Checked context streams nodes) (hstreams : streams ≠ [])
    (hnodes : nodes ≠ []) (hsequence : Respects nodes sequence) :
    Admissible context streams nodes where
  someStream := hstreams
  someNode := hnodes
  distinctStreams := h.distinctStreams
  ids := h.ids
  streamContext := h.streamContext
  eventContext := fun node hmem => (h.placed node hmem).eventContext
  declared := fun node hmem => (h.placed node hmem).declared
  used := h.used
  futures := (pairwise_apart_iff.mp h.apart).1
  records := (pairwise_apart_iff.mp h.apart).2.1
  chains := fun stream hmem => ⟨_, hsequence.perm.filter _, h.chain hsequence hmem⟩
  waits := by
    intro node hmem event recordedBy hevent hrecord
    obtain ⟨record, hfind, hsame⟩ := h.waits node hmem event recordedBy hevent hrecord
    obtain ⟨hfound, hid⟩ := (find_id_iff h.ids).mp hfind
    exact ⟨record, hfound, hid, hsame⟩
  acyclic := hsequence.acyclic

section

variable (h : Admissible context streams nodes)
include h

/-- The chain that a node stands in. -/
theorem Admissible.chain_of_mem (hmem : node ∈ nodes) :
    ∃ chain : List CompletionNode,
      chain.Perm (nodes.filter fun other => other.stream = node.stream) ∧ node ∈ chain ∧
      chain.map (·.streamPredecessor) <+: none :: chain.map (fun node => some node.id) ∧
      (chain.map (·.streamPredecessor)).Nodup := by
  obtain ⟨chain, hperm, hchain⟩ := h.chains node.stream (h.declared node hmem)
  rw [isStreamChain_iff] at hchain
  refine ⟨chain, hperm, hperm.mem_iff.mpr (by simp [hmem]), hchain, ?_⟩
  have hids : (chain.map (·.id)).Nodup :=
    ((hperm.map _).nodup_iff).mpr (h.ids.sublist (filter_sublist.map _))
  have hnamed := hids.map (Option.some_injective _)
  rw [map_map] at hnamed
  exact (nodup_cons.mpr ⟨by simp, hnamed⟩).sublist hchain.sublist

theorem Admissible.predecessor (hmem : node ∈ nodes) (hid : node.streamPredecessor = some id) :
    ∃ found ∈ nodes, found.id = id ∧ found.stream = node.stream := by
  obtain ⟨chain, hperm, hnode, hnames, -⟩ := h.chain_of_mem hmem
  have hnamed := hnames.subset (mem_map.mpr ⟨node, hnode, hid⟩)
  rw [mem_cons, or_iff_right nofun] at hnamed
  obtain ⟨found, hfound, hsame⟩ := mem_map.mp hnamed
  obtain ⟨hfound, hstream⟩ := mem_filter.mp (hperm.mem_iff.mp hfound)
  exact ⟨found, hfound, Option.some.inj hsame, of_decide_eq_true hstream⟩

theorem Admissible.eq_of_predecessor {other : CompletionNode} (hnode : node ∈ nodes)
    (hother : other ∈ nodes) (hid : node.streamPredecessor = some id)
    (hid' : other.streamPredecessor = some id) : node = other := by
  obtain ⟨found, hfound, hsame, hstream⟩ := h.predecessor hnode hid
  obtain ⟨found', hfound', hsame', hstream'⟩ := h.predecessor hother hid'
  cases inj_on_of_nodup_map h.ids hfound hfound' (hsame.trans hsame'.symm)
  obtain ⟨chain, hperm, hmem, -, hdistinct⟩ := h.chain_of_mem hnode
  refine inj_on_of_nodup_map hdistinct hmem (hperm.mem_iff.mpr ?_) (hid.trans hid'.symm)
  exact mem_filter.mpr ⟨hother, decide_eq_true (hstream'.symm.trans hstream)⟩

/-- A chain has one head. -/
theorem Admissible.heads (hmem : node ∈ nodes) :
    nodes.countP (fun other => other.stream = node.stream ∧ other.streamPredecessor = none) =
    1 := by
  obtain ⟨chain, hperm, hnode, hnames, hdistinct⟩ := h.chain_of_mem hmem
  have hnone : none ∈ chain.map (·.streamPredecessor) := by
    cases chain with
    | nil => nomatch hnode
    | cons first rest =>
      rw [map_cons, map_cons, cons_prefix_cons] at hnames
      exact hnames.1 ▸ mem_cons_self
  calc nodes.countP (fun other => other.stream = node.stream ∧ other.streamPredecessor = none)
      = (nodes.filter fun other => other.stream = node.stream).countP
          (fun other => other.streamPredecessor = none) := by
        rw [countP_filter]
        exact countP_congr fun other _ => by simp [and_comm]
    _ = chain.countP (fun other => other.streamPredecessor = none) := (hperm.countP_eq _).symm
    _ = (chain.map (·.streamPredecessor)).count none := by
        rw [List.count, countP_map]
        exact countP_congr fun other _ => by simp
    _ = 1 := count_eq_one_of_mem hdistinct hnone

theorem Admissible.checked : Checked context streams nodes where
  distinctStreams := h.distinctStreams
  streamContext := h.streamContext
  ids := h.ids
  placed := by
    intro node hmem
    refine ⟨h.streamContext _ (h.declared node hmem), h.declared node hmem,
      h.eventContext node hmem, fun id hid => ?_⟩
    obtain ⟨found, hfound, hsame, hstream⟩ := h.predecessor hmem hid
    exact ⟨found, (find_id_iff h.ids).mpr ⟨hfound, hsame⟩, hstream⟩
  apart := by
    refine pairwise_apart_iff.mpr ⟨h.futures, h.records, pairwise_filterMap.mpr ?_⟩
    refine h.ids.of_map.imp_of_mem fun hnode hother hne id hid id' hid' heq => hne ?_
    exact h.eq_of_predecessor hnode hother hid (heq ▸ hid')
  used := h.used
  heads := by
    intro stream hstream
    obtain ⟨node, hmem, rfl⟩ := h.used stream hstream
    exact h.heads hmem
  waits := by
    intro node hmem event recordedBy hevent hrecord
    obtain ⟨record, hfound, hid, hsame⟩ := h.waits node hmem event recordedBy hevent hrecord
    exact ⟨record, (find_id_iff h.ids).mpr ⟨hfound, hid⟩, hsame⟩

end

end Chains

/-! ### The constructor -/

variable {ids : List CompletionNodeId}

section Constructor

variable {context : ContextIdentity} {streams streams' : List StreamIdentity}
  {nodes nodes' : List CompletionNode} {graph : CompletionGraph}

theorem waits_perm (hnodes : nodes.Perm nodes') : Waits nodes = Waits nodes' := by
  funext node other
  rw [Waits, Waits, hnodes.mem_iff, hnodes.mem_iff]

theorem Admissible.perm (h : Admissible context streams nodes) (hstreams : streams.Perm streams')
    (hnodes : nodes.Perm nodes') : Admissible context streams' nodes' where
  someStream := fun hnil => h.someStream (hnil ▸ hstreams).eq_nil
  someNode := fun hnil => h.someNode (hnil ▸ hnodes).eq_nil
  distinctStreams := hstreams.nodup_iff.mp h.distinctStreams
  ids := (hnodes.map _).nodup_iff.mp h.ids
  streamContext := fun stream hmem => h.streamContext stream (hstreams.mem_iff.mpr hmem)
  eventContext := fun node hmem => h.eventContext node (hnodes.mem_iff.mpr hmem)
  declared := fun node hmem => hstreams.mem_iff.mp (h.declared node (hnodes.mem_iff.mpr hmem))
  used := by
    intro stream hmem
    obtain ⟨node, hnode, hstream⟩ := h.used stream (hstreams.mem_iff.mpr hmem)
    exact ⟨node, hnodes.mem_iff.mp hnode, hstream⟩
  futures := (hnodes.filterMap _).nodup_iff.mp h.futures
  records := (hnodes.filterMap _).nodup_iff.mp h.records
  chains := by
    intro stream hmem
    obtain ⟨chain, hperm, hchain⟩ := h.chains stream (hstreams.mem_iff.mpr hmem)
    exact ⟨chain, hperm.trans (hnodes.filter _), hchain⟩
  waits := by
    intro node hmem event recordedBy hevent hrecord
    obtain ⟨record, hfound, hsame⟩ :=
      h.waits node (hnodes.mem_iff.mpr hmem) event recordedBy hevent hrecord
    exact ⟨record, hnodes.mem_iff.mp hfound, hsame⟩
  acyclic := waits_perm hnodes ▸ h.acyclic

/-- The graph that the constructor returns for sorted arguments and their order. -/
def assembled (context : ContextIdentity) (streams : List StreamIdentity)
    (nodes : List CompletionNode) (order : List Nat) : CompletionGraph where
  context
  streams
  nodes
  topologicalOrder := order.filterMap (fun index => nodes[index]?.map (·.id))
  dependencyIndices := dependencyIndices nodes
  successorOffsets := (successorIndex (dependencyIndices nodes)).1
  successorIndices := (successorIndex (dependencyIndices nodes)).2
  topologicalRanks := order.zipIdx.foldl (fun ranks entry => ranks.set entry.1 entry.2)
    (List.replicate nodes.length 0)

theorem checkExtents_eq_ok (hstreams : streams.length ≤ maxCompletionGraphStreams)
    (hnodes : nodes.length ≤ maxCompletionGraphNodes) :
    checkExtents streams nodes = .ok () ↔ streams ≠ [] ∧ nodes ≠ [] := by
  simp only [checkExtents, check_eq_ok, List.isEmpty_iff, not_lt, hstreams, hnodes, true_and,
    and_true, ne_eq, gt_iff_lt]

/-- Within the limits, a call succeeds when the sorted arguments pass the checks and
    can be ordered. -/
theorem new_eq_ok_iff (hstreams : streams.length ≤ maxCompletionGraphStreams)
    (hnodes : nodes.length ≤ maxCompletionGraphNodes) :
    CompletionGraph.new context streams nodes = .ok graph ↔
      (streams ≠ [] ∧ nodes ≠ []) ∧ Checked context (sortedStreams streams) (sortedNodes nodes) ∧
      ∃ order, topologicalIndices (sortedNodes nodes) = .ok order ∧
        assembled context (sortedStreams streams) (sortedNodes nodes) order = graph := by
  have hedges : ¬((dependencyIndices (sortedNodes nodes)).map (·.length)).sum >
      maxCompletionGraphEdges := by
    have hcount : ((dependencyIndices (sortedNodes nodes)).map (·.length)).sum ≤
        2 * (sortedNodes nodes).length := edgeCount_le
    rw [sortedNodes, length_insertionSort] at hcount
    exact not_lt.mpr (hcount.trans (Nat.mul_le_mul_left 2 hnodes))
  rw [← checkExtents_eq_ok hstreams hnodes,
    ← checked_iff (pairwise_sortedStreams streams)
      (show (sortedNodes nodes).Pairwise _ from sorted_nodes nodes)]
  simp only [CompletionGraph.new, bind_eq_ok, check_eq_ok]
  constructor
  · rintro ⟨_, hextents, _, hstreams, _, hids, scan, hscan, _, hheads, _, hwaits, -, order, horder,
      hgraph⟩
    exact ⟨hextents, ⟨hstreams, hids, scan, hscan, hheads, hwaits⟩, order, horder,
      Except.ok.inj hgraph⟩
  · rintro ⟨hextents, ⟨hstreams, hids, scan, hscan, hheads, hwaits⟩, order, horder, rfl⟩
    exact ⟨(), hextents, (), hstreams, (), hids, scan, hscan, (), hheads, (), hwaits, hedges, order,
      horder, rfl⟩

theorem sortedStreams_perm (streams : List StreamIdentity) : (sortedStreams streams).Perm streams :=
  perm_insertionSort _ _

theorem sortedNodes_perm (nodes : List CompletionNode) : (sortedNodes nodes).Perm nodes :=
  perm_insertionSort _ _

theorem sortedStreams_eq_of_perm (h : streams'.Perm streams) :
    sortedStreams streams' = sortedStreams streams := by
  refine List.Perm.eq_of_pairwise (fun _ _ _ _ hforth hback => ?_) (pairwise_sortedStreams streams')
    (pairwise_sortedStreams streams)
    ((sortedStreams_perm streams').trans (h.trans (sortedStreams_perm streams).symm))
  exact orderKey_injective (le_antisymm hforth hback)

theorem sortedNodes_eq_of_perm (ids : (nodes.map (·.id)).Nodup) (h : nodes'.Perm nodes) :
    sortedNodes nodes' = sortedNodes nodes := by
  refine List.Perm.eq_of_pairwise (fun node other hnode hother hforth hback => ?_)
    (sorted_nodes nodes') (sorted_nodes nodes)
    ((sortedNodes_perm nodes').trans (h.trans (sortedNodes_perm nodes).symm))
  exact inj_on_of_nodup_map ids (h.mem_iff.mp ((sortedNodes_perm nodes').mem_iff.mp hnode))
    ((sortedNodes_perm nodes).mem_iff.mp hother) (nodeId_ext (UInt32.le_antisymm hforth hback))

section

variable (h : CompletionGraph.new context streams nodes = .ok graph)
include h

theorem limits_of_new_eq_ok :
    streams.length ≤ maxCompletionGraphStreams ∧ nodes.length ≤ maxCompletionGraphNodes := by
  have hextents := (seq_eq_ok.mp h).1
  simp only [checkExtents, check_eq_ok, gt_iff_lt, not_lt] at hextents
  exact ⟨hextents.2.1, hextents.2.2.2.1⟩

/-- The result of an accepted call does not depend on the order of its arguments. -/
theorem new_eq_ok_of_perm (hstreams : streams'.Perm streams) (hnodes : nodes'.Perm nodes) :
    CompletionGraph.new context streams' nodes' = .ok graph := by
  obtain ⟨hstreamCount, hnodeCount⟩ := limits_of_new_eq_ok h
  obtain ⟨⟨hstream, hnode⟩, hchecked, horder⟩ := (new_eq_ok_iff hstreamCount hnodeCount).mp h
  have hids := ((sortedNodes_perm nodes).map _).nodup_iff.mp hchecked.ids
  rw [new_eq_ok_iff (hstreams.length_eq.trans_le hstreamCount)
    (hnodes.length_eq.trans_le hnodeCount), sortedStreams_eq_of_perm hstreams,
      sortedNodes_eq_of_perm hids hnodes]
  refine ⟨⟨fun hnil => hstream ?_, fun hnil => hnode ?_⟩, hchecked, horder⟩
  · exact (hnil ▸ hstreams).nil_eq.symm
  · exact (hnil ▸ hnodes).nil_eq.symm

theorem checked_of_new : graph.context = context ∧ Checked graph.context graph.streams graph.nodes ∧
      graph.streams.Perm streams ∧ graph.nodes.Perm nodes := by
  obtain ⟨hstreams, hnodes⟩ := limits_of_new_eq_ok h
  obtain ⟨-, hchecked, order, -, rfl⟩ := (new_eq_ok_iff hstreams hnodes).mp h
  exact ⟨rfl, hchecked, sortedStreams_perm streams, sortedNodes_perm nodes⟩

/-- Every graph that the constructor accepts is well formed. -/
theorem new_wellFormed : WellFormed graph := by
  obtain ⟨hstreams, hnodes⟩ := limits_of_new_eq_ok h
  obtain ⟨-, hchecked, order, horder, rfl⟩ := (new_eq_ok_iff hstreams hnodes).mp h
  have hlength := length_dependencyIndices (sortedNodes nodes)
  have rows := rows_of_dependencyIndices (sortedNodes nodes)
  obtain ⟨hperm, hafter⟩ := deterministicTopologicalOrder_ok hlength rows horder
  have hrank : ∀ {front i back}, order = front ++ i :: back → (assembled context
      (sortedStreams streams) (sortedNodes nodes) order).topologicalRank i = front.length := by
    rintro front i back rfl
    have hi : i < (sortedNodes nodes).length := mem_range.mp (hperm.mem_iff.mp (by simp))
    have hnodup := hperm.nodup_iff.mpr nodup_range
    exact rank_eq_length (nodup_cons.mp (nodup_append.mp hnodup).2.1).1 hi
  refine ⟨hchecked.ids, hlength, mem_dependencyIndices hchecked.ids, rows.nodup, rows.mem_succs,
    rows.nodup_succs, fun {i j} hj => ?_⟩
  obtain ⟨front, back, hsplit⟩ :=
    append_of_mem (hperm.mem_iff.mpr (mem_range.mpr (rows.bound hj).1))
  obtain ⟨front', back', hsplit'⟩ := append_of_mem (hafter front i back hsplit j hj)
  have hsplitj : order = front' ++ j :: (back' ++ i :: back) := by
    rw [hsplit, hsplit']; simp
  rw [hrank hsplit, hrank hsplitj, hsplit']
  simp

end

/-- The ids of the nodes in an order that lists every node after what it waits for. -/
structure DependencyOrder (nodes : List CompletionNode) (ids : List CompletionNodeId) : Prop where
  perm : ids.Perm (nodes.map (·.id))
  earlier : ∀ front node back, ids = front ++ node.id :: back → node ∈ nodes →
    ∀ reference ∈ node.references, reference ∈ front

theorem DependencyOrder.perm_nodes (h : DependencyOrder nodes ids) (hnodes : nodes.Perm nodes') :
    DependencyOrder nodes' ids where
  perm := h.perm.trans (hnodes.map _)
  earlier := fun front node back hsplit hmem =>
    h.earlier front node back hsplit (hnodes.mem_iff.mpr hmem)

/-- Every reference of a node names a node. -/
theorem Checked.reference (h : Checked context streams nodes) (hmem : node ∈ nodes)
    {reference : CompletionNodeId} (href : reference ∈ node.references) :
    ∃ other, Waits nodes node other ∧ other.id = reference := by
  suffices hfound : ∃ other, nodes.find? (fun other => other.id = reference) = some other by
    obtain ⟨other, hfind⟩ := hfound
    obtain ⟨hother, rfl⟩ := (find_id_iff h.ids).mp hfind
    exact ⟨other, ⟨hmem, hother, href⟩, rfl⟩
  obtain hpredecessor | hrecord := mem_append.mp href
  · obtain ⟨found, hfind, -⟩ := (h.placed node hmem).predecessor reference
      (Option.mem_toList.mp hpredecessor)
    exact ⟨found, hfind⟩
  · have hrecord : node.kind.recordedBy = some reference := Option.mem_toList.mp hrecord
    cases hkind : node.kind with
    | future identity | eventRecord stream event =>
      simp [hkind, CompletionNodeKind.recordedBy] at hrecord
    | eventWait stream event recordedBy =>
      obtain ⟨record, hfind, -⟩ := h.waits node hmem event reference
        (by simp [CompletionNode.awaitedEvent, hkind]) hrecord
      exact ⟨record, hfind⟩

theorem Checked.dependencyOrder (h : Checked context streams nodes)
    (hsequence : Respects nodes sequence) : DependencyOrder nodes (sequence.map (·.id)) where
  perm := hsequence.perm.map _
  earlier := by
    intro front node back hsplit hmem reference href
    obtain ⟨before, rest, hbefore, rfl, hrest⟩ := map_eq_append_iff.mp hsplit
    obtain ⟨node', after, rfl, hid, -⟩ := map_eq_cons_iff.mp hrest
    have hmem' : node' ∈ nodes := hsequence.perm.mem_iff.mp (by rw [hbefore]; simp)
    cases inj_on_of_nodup_map h.ids hmem' hmem hid
    obtain ⟨other, hwaits, rfl⟩ := h.reference hmem href
    exact mem_map_of_mem (hsequence.earlier before node after hbefore other hwaits)

/-- A sequence that always takes the least id is the least dependency order. -/
theorem DependencyOrder.least (hids : (nodes.map (·.id)).Nodup)
    (hsequence : Respects nodes sequence)
    (hgreedy : ∀ front node back, sequence = front ++ node :: back → ∀ other ∈ nodes,
      other ∉ front → (∀ dependency, Waits nodes other dependency → dependency ∈ front) →
        node.id.get ≤ other.id.get)
    (h : DependencyOrder nodes ids) :
    (sequence.map (·.id)).map (·.get.toNat) ≤ ids.map (·.get.toNat) := by
  refine le_of_greedy ?_ fun front a b back back' hsplit hsplit' => ?_
  · simp [h.perm.length_eq, hsequence.perm.length_eq]
  obtain ⟨before, rest, hbefore, hfront, hrest⟩ := map_eq_append_iff.mp hsplit'
  obtain ⟨id, after, rfl, rfl, -⟩ := map_eq_cons_iff.mp hrest
  rw [map_map] at hsplit
  obtain ⟨chosen, rest', hchosen, hfront', hrest'⟩ := map_eq_append_iff.mp hsplit
  obtain ⟨node, after', rfl, rfl, -⟩ := map_eq_cons_iff.mp hrest'
  -- Both orders agree up to here: what the other one has listed are the ids of `chosen`.
  have hsame : before = chosen.map (·.id) := by
    have hinjective : Function.Injective fun id : CompletionNodeId => id.get.toNat :=
      fun _ _ heq => nodeId_ext (UInt32.toNat_inj.mp heq)
    refine map_injective_iff.mpr hinjective ?_
    rw [hfront, ← hfront', map_map]
  have hid : id ∈ nodes.map (·.id) := h.perm.mem_iff.mp (by rw [hbefore]; simp)
  obtain ⟨other, hother, rfl⟩ := mem_map.mp hid
  refine UInt32.le_iff_toNat_le.mp (hgreedy chosen node after' hchosen other hother ?_ ?_)
  · intro hmem
    have hnodup : (before ++ other.id :: after).Nodup := hbefore ▸ h.perm.nodup_iff.mpr hids
    refine (nodup_append.mp hnodup).2.2 other.id ?_ other.id mem_cons_self rfl
    exact hsame ▸ mem_map_of_mem hmem
  · intro dependency hwaits
    have hlisted := h.earlier before other after hbefore hother dependency.id hwaits.2.2
    rw [hsame] at hlisted
    obtain ⟨dependency', hmem, hid⟩ := mem_map.mp hlisted
    have hmem' : dependency' ∈ nodes := hsequence.perm.mem_iff.mp (by rw [hchosen]; simp [hmem])
    exact inj_on_of_nodup_map hids hmem' hwaits.2.1 hid ▸ hmem

/-- The constructor accepts exactly the admissible graphs.  It returns their least
    dependency order, whatever the order of its arguments. -/
theorem new_accepts_exactly (context : ContextIdentity) (streams : List StreamIdentity)
    (nodes : List CompletionNode) (hstreams : streams.length ≤ maxCompletionGraphStreams)
    (hnodes : nodes.length ≤ maxCompletionGraphNodes) :
    ((∃ graph, CompletionGraph.new context streams nodes = .ok graph) ↔
      Admissible context streams nodes) ∧
    ∀ graph, CompletionGraph.new context streams nodes = .ok graph →
      (DependencyOrder nodes graph.topologicalOrder ∧
        ∀ ids, DependencyOrder nodes ids →
          graph.topologicalOrder.map (·.get.toNat) ≤ ids.map (·.get.toNat)) ∧
      ∀ streams' nodes', streams'.Perm streams → nodes'.Perm nodes →
        CompletionGraph.new context streams' nodes' = .ok graph := by
  have hstreamsPerm := sortedStreams_perm streams
  have hnodesPerm := sortedNodes_perm nodes
  refine ⟨⟨?_, ?_⟩, ?_⟩
  · rintro ⟨graph, h⟩
    obtain ⟨⟨hstream, hnode⟩, hchecked, order, horder, -⟩ := (new_eq_ok_iff hstreams hnodes).mp h
    refine (hchecked.admissible ?_ ?_ (topologicalIndices_ok hchecked.ids horder).1).perm
      hstreamsPerm hnodesPerm
    · exact fun hnil => hstream (hnil ▸ hstreamsPerm).nil_eq.symm
    · exact fun hnil => hnode (hnil ▸ hnodesPerm).nil_eq.symm
  · intro h
    have hsorted := h.perm hstreamsPerm.symm hnodesPerm.symm
    obtain ⟨order, horder⟩ := exists_topologicalIndices hsorted.ids hsorted.acyclic
    exact ⟨_, (new_eq_ok_iff hstreams hnodes).mpr
      ⟨⟨h.someStream, h.someNode⟩, hsorted.checked, order, horder, rfl⟩⟩
  · intro graph h
    refine ⟨?_, fun streams' nodes' => new_eq_ok_of_perm h⟩
    obtain ⟨-, hchecked, order, horder, rfl⟩ := (new_eq_ok_iff hstreams hnodes).mp h
    obtain ⟨hsequence, hgreedy⟩ := topologicalIndices_ok hchecked.ids horder
    have horder : (assembled context (sortedStreams streams) (sortedNodes nodes)
        order).topologicalOrder = (order.filterMap ((sortedNodes nodes)[·]?)).map (·.id) :=
      map_filterMap.symm
    rw [horder]
    exact ⟨(hchecked.dependencyOrder hsequence).perm_nodes hnodesPerm, fun ids hother =>
      (hother.perm_nodes hnodesPerm.symm).least hchecked.ids hsequence hgreedy⟩

theorem new_accepts_exactly_join : Admissible joinContext [joinStream 2, joinStream 1] joinNodes :=
  (new_accepts_exactly joinContext [joinStream 2, joinStream 1] joinNodes (by decide)
    (by decide)).1.mp ⟨_, rfl⟩

end Constructor

end Fe2o3.Completion
