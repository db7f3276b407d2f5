import Fe2o3.Completion.LeastOrder

/-!
# What the constructor checks before it orders the nodes

The maps that the scan fills say which streams, predecessors, events and futures the
nodes seen so far have (`Scanned`); so each node is accepted exactly when it is well
placed and apart from every node before it.  `checked_iff` collects all checks on the
sorted arguments.
-/

namespace Fe2o3.Completion

open Lib List

/-! ### Parts of a node -/

namespace CompletionNode

def future (node : CompletionNode) : Option FutureIdentity :=
  match node.kind with
  | .future identity => some identity
  | _ => none

/-- The event that the node records. -/
def recordedEvent (node : CompletionNode) : Option EventIdentity :=
  match node.kind with
  | .eventRecord _ event => some event
  | _ => none

/-- The event that the node waits for. -/
def awaitedEvent (node : CompletionNode) : Option EventIdentity :=
  match node.kind with
  | .eventWait _ event _ => some event
  | _ => none

end CompletionNode

/-! ### The scan over the nodes -/

/-- Two nodes with different identities, events and predecessors. -/
structure Apart (node other : CompletionNode) : Prop where
  future : ∀ identity, node.future = some identity → other.future ≠ some identity
  record : ∀ event, node.recordedEvent = some event → other.recordedEvent ≠ some event
  predecessor : ∀ id, node.streamPredecessor = some id → other.streamPredecessor ≠ some id

/-- What the scan asks of a single node. -/
structure Placed (context : ContextIdentity) (streams : List StreamIdentity)
    (nodes : List CompletionNode) (node : CompletionNode) : Prop where
  streamContext : node.stream.context = context
  declared : node.stream ∈ streams
  eventContext : ∀ event, node.recordedEvent = some event ∨ node.awaitedEvent = some event →
    event.context = context
  predecessor : ∀ id, node.streamPredecessor = some id →
    ∃ found, nodes.find? (fun other => other.id = id) = some found ∧ found.stream = node.stream

/-- What the maps of the scan say about the nodes already seen. -/
structure Scanned (seen : List CompletionNode) (scan : ScanState) : Prop where
  counted : ∀ stream, (scan.streamNodeCounts.lookup stream).isSome = true ↔
    ∃ node ∈ seen, node.stream = stream
  heads : ∀ stream, (scan.streamHeadCounts.lookup stream).getD 0 =
    seen.countP fun node => node.stream = stream ∧ node.streamPredecessor = none
  successors : ∀ id, (scan.streamSuccessors.lookup id).isSome = true ↔
    ∃ node ∈ seen, node.streamPredecessor = some id
  records : ∀ event, (scan.eventRecords.lookup event).isSome = true ↔
    ∃ node ∈ seen, node.recordedEvent = some event
  futures : ∀ identity, (scan.futures.lookup identity).isSome = true ↔
    ∃ node ∈ seen, node.future = some identity

/-- The maps after a node that was accepted. -/
def scanned (scan : ScanState) (node : CompletionNode) : ScanState where
  streamNodeCounts := bump scan.streamNodeCounts node.stream
  streamHeadCounts :=
    if node.streamPredecessor = none then bump scan.streamHeadCounts node.stream
    else scan.streamHeadCounts
  streamSuccessors := (node.streamPredecessor.map (·, node.id)).toList ++ scan.streamSuccessors
  eventRecords := (node.recordedEvent.map (·, node.id)).toList ++ scan.eventRecords
  futures := (node.future.map (·, node.id)).toList ++ scan.futures

section Lookup

variable {κ ν : Type} [DecidableEq κ]

theorem isSome_lookup_toList_append {key : Option κ} {value : ν} {entries : List (κ × ν)} {k : κ} :
    (((key.map (·, value)).toList ++ entries).lookup k).isSome = true ↔
      key = some k ∨ (entries.lookup k).isSome = true := by
  cases key with
  | none => simp
  | some key =>
    by_cases hk : k = key
    · simp [hk]
    · simp [List.lookup_cons, beq_eq_false_iff_ne.mpr hk, Ne.symm hk]

theorem lookup_bump {counts : List (StreamIdentity × Nat)} {stream other : StreamIdentity} :
    (bump counts stream).lookup other =
      if other = stream then some ((counts.lookup stream).getD 0 + 1) else counts.lookup other := by
  by_cases h : other = stream
  · simp [bump, h]
  · simp [bump, List.lookup_cons, beq_eq_false_iff_ne.mpr h, h]

end Lookup

variable {rest : List CompletionNode}

section Scan

variable {context : ContextIdentity} {streams : List StreamIdentity}
  {nodes seen : List CompletionNode} {node : CompletionNode} {scan next : ScanState}

theorem exists_mem_append_singleton {P : CompletionNode → Prop} :
    (∃ other ∈ seen ++ [node], P other) ↔ P node ∨ ∃ other ∈ seen, P other := by
  simp only [mem_append, mem_singleton, or_and_right, exists_or, exists_eq_left]
  exact or_comm

theorem Scanned.push (h : Scanned seen scan) : Scanned (seen ++ [node]) (scanned scan node) where
  counted := by
    intro stream
    rw [exists_mem_append_singleton, ← h.counted, scanned, lookup_bump]
    by_cases hs : stream = node.stream
    · simp [hs]
    · simp [hs, Ne.symm hs]
  heads := by
    intro stream
    rw [countP_append, countP_singleton, ← h.heads, scanned]
    by_cases hp : node.streamPredecessor = none
    · rw [if_pos hp, lookup_bump]
      by_cases hs : stream = node.stream
      · simp [hs, hp]
      · simp [hs, Ne.symm hs]
    · simp [hp]
  successors := fun id => by
    rw [exists_mem_append_singleton, ← h.successors]
    exact isSome_lookup_toList_append
  records := fun event => by
    rw [exists_mem_append_singleton, ← h.records]
    exact isSome_lookup_toList_append
  futures := fun identity => by
    rw [exists_mem_append_singleton, ← h.futures]
    exact isSome_lookup_toList_append

theorem scanKind_eq_ok :
    scanKind context node scan = .ok next ↔
      ((∀ event, node.recordedEvent = some event ∨ node.awaitedEvent = some event →
          event.context = context) ∧
        (∀ identity, node.future = some identity → scan.futures.lookup identity = none) ∧
        (∀ event, node.recordedEvent = some event → scan.eventRecords.lookup event = none)) ∧
      next = { scan with
        eventRecords := (node.recordedEvent.map (·, node.id)).toList ++ scan.eventRecords
        futures := (node.future.map (·, node.id)).toList ++ scan.futures } := by
  obtain ⟨id, predecessor, kind⟩ := node
  cases kind with
  | future identity =>
    cases hfound : scan.futures.lookup identity with
    | none =>
      simp only [scanKind, hfound, Except.ok.injEq]
      rw [eq_comm (b := next)]
      refine (and_iff_right ⟨fun event h => ?_, fun other h => ?_, nofun⟩).symm
      · obtain h | h := h <;> nomatch h
      · cases h
        exact hfound
    | some first =>
      simp only [scanKind, hfound]
      refine iff_of_false nofun fun h => ?_
      rw [h.1.2.1 identity rfl] at hfound
      nomatch hfound
  | eventRecord stream event =>
    simp only [scanKind, check_eq_ok, ne_eq, not_not]
    cases hfound : scan.eventRecords.lookup event with
    | none =>
      rw [Except.ok.injEq, eq_comm (b := next)]
      refine and_congr_left' ⟨fun hcontext => ⟨fun other h => ?_, nofun, fun other h => ?_⟩,
        fun h => h.1 event (Or.inl rfl)⟩
      · obtain h | h := h
        · cases h
          exact hcontext
        · nomatch h
      · cases h
        exact hfound
    | some first =>
      refine iff_of_false (fun h => nomatch h.2) fun h => ?_
      rw [h.1.2.2 event rfl] at hfound
      nomatch hfound
  | eventWait stream event recordedBy =>
    simp only [scanKind, check_eq_ok, ne_eq, not_not, Except.ok.injEq]
    rw [eq_comm (b := next)]
    refine and_congr_left' ⟨fun hcontext => ⟨fun other h => ?_, nofun, nofun⟩,
      fun h => h.1 event (Or.inr rfl)⟩
    obtain h | h := h
    · nomatch h
    · cases h
      exact hcontext

theorem scanPredecessor_eq_ok :
    scanPredecessor nodes node scan = .ok next ↔
      ((∀ id, node.streamPredecessor = some id →
          ∃ found, nodes.find? (fun other => other.id = id) = some found ∧
            found.stream = node.stream) ∧
        ∀ id, node.streamPredecessor = some id → scan.streamSuccessors.lookup id = none) ∧
      next = { scan with
        streamHeadCounts :=
          if node.streamPredecessor = none then bump scan.streamHeadCounts node.stream
          else scan.streamHeadCounts
        streamSuccessors :=
          (node.streamPredecessor.map (·, node.id)).toList ++ scan.streamSuccessors } := by
  unfold scanPredecessor
  cases node.streamPredecessor with
  | none =>
    rw [Except.ok.injEq, eq_comm (b := next)]
    exact (and_iff_right ⟨nofun, nofun⟩).symm
  | some predecessor =>
    cases hfind : nodes.find? fun other => other.id = predecessor with
    | none =>
      simp only [hfind]
      refine iff_of_false nofun fun h => ?_
      obtain ⟨found, hfound, -⟩ := h.1.1 predecessor rfl
      nomatch hfind.symm.trans hfound
    | some found =>
      simp only [hfind, check_eq_ok, ne_eq, not_not]
      cases hfound : scan.streamSuccessors.lookup predecessor with
      | none =>
        rw [Except.ok.injEq, eq_comm (b := next)]
        refine and_congr_left' ⟨fun hstream => ⟨fun id h => ?_, fun id h => ?_⟩, fun h => ?_⟩
        · cases h
          exact ⟨found, hfind, hstream⟩
        · cases h
          exact hfound
        · obtain ⟨found', hfound', hstream⟩ := h.1 predecessor rfl
          rw [hfind] at hfound'
          cases hfound'
          exact hstream
      | some first =>
        refine iff_of_false (fun h => nomatch h.2) fun h => ?_
        rw [h.1.2 predecessor rfl] at hfound
        nomatch hfound

/-- When a node is accepted, and what the maps are then. -/
theorem scanNode_eq_ok :
    scanNode context streams nodes scan node = .ok next ↔
      (Placed context streams nodes node ∧
        (∀ identity, node.future = some identity → scan.futures.lookup identity = none) ∧
        (∀ event, node.recordedEvent = some event → scan.eventRecords.lookup event = none) ∧
        ∀ id, node.streamPredecessor = some id → scan.streamSuccessors.lookup id = none) ∧
      next = scanned scan node := by
  unfold scanNode
  rw [check_eq_ok, check_eq_ok, bind_eq_ok]
  simp only [scanKind_eq_ok, scanPredecessor_eq_ok, not_not, ne_eq]
  constructor
  · rintro ⟨hcontext, hdeclared, _, ⟨⟨hevents, hfutures, hrecords⟩, rfl⟩, ⟨hfound, hfree⟩, rfl⟩
    exact ⟨⟨⟨hcontext, hdeclared, hevents, hfound⟩, hfutures, hrecords, hfree⟩, rfl⟩
  · rintro ⟨⟨⟨hcontext, hdeclared, hevents, hfound⟩, hfutures, hrecords, hfree⟩, rfl⟩
    exact ⟨hcontext, hdeclared, _, ⟨⟨hevents, hfutures, hrecords⟩, rfl⟩, ⟨hfound, hfree⟩, rfl⟩

/-- A node is accepted when it is placed and apart from all nodes seen before. -/
theorem Scanned.scanNode_eq_ok (h : Scanned seen scan) :
    scanNode context streams nodes scan node = .ok next ↔
      (Placed context streams nodes node ∧ ∀ earlier ∈ seen, Apart earlier node) ∧
        next = scanned scan node := by
  have hfree : ∀ {o : Option CompletionNodeId} {P : Prop}, (o.isSome = true ↔ P) →
      (o = none ↔ ¬P) := by
    intro o P hiff
    rw [← hiff, Option.isSome_iff_ne_none, not_not]
  rw [Completion.scanNode_eq_ok]
  simp only [hfree (h.futures _), hfree (h.records _), hfree (h.successors _), not_exists, not_and]
  constructor
  · rintro ⟨⟨hplaced, hfutures, hrecords, hfrees⟩, rfl⟩
    refine ⟨⟨hplaced, fun earlier hmem => ⟨?_, ?_, ?_⟩⟩, rfl⟩
    · exact fun identity hearlier hsame => hfutures identity hsame earlier hmem hearlier
    · exact fun event hearlier hsame => hrecords event hsame earlier hmem hearlier
    · exact fun id hearlier hsame => hfrees id hsame earlier hmem hearlier
  · rintro ⟨⟨hplaced, hapart⟩, rfl⟩
    refine ⟨⟨hplaced, ?_, ?_, ?_⟩, rfl⟩
    · exact fun identity hsame earlier hmem hearlier =>
        (hapart earlier hmem).future identity hearlier hsame
    · exact fun event hsame earlier hmem hearlier =>
        (hapart earlier hmem).record event hearlier hsame
    · exact fun id hsame earlier hmem hearlier =>
        (hapart earlier hmem).predecessor id hearlier hsame

/-- The scan of the nodes after `seen`. -/
theorem Scanned.foldlM_eq_ok (h : Scanned seen scan) {final : ScanState}
    (hfinal : rest.foldlM (scanNode context streams nodes) scan = .ok final) :
    Scanned (seen ++ rest) final ∧ (∀ node ∈ rest, Placed context streams nodes node) ∧
      (∀ earlier ∈ seen, ∀ node ∈ rest, Apart earlier node) ∧ rest.Pairwise Apart := by
  induction rest generalizing seen scan with
  | nil =>
    cases hfinal
    simpa using h
  | cons node rest ih =>
    obtain ⟨next, hnext, hrest⟩ := bind_eq_ok.mp hfinal
    obtain ⟨⟨hplaced, hapart⟩, rfl⟩ := h.scanNode_eq_ok.mp hnext
    obtain ⟨hscanned, hall, hbetween, hpairs⟩ := ih h.push hrest
    rw [append_assoc] at hscanned
    refine ⟨hscanned, forall_mem_cons.mpr ⟨hplaced, hall⟩, fun earlier hmem => ?_,
      pairwise_cons.mpr ⟨hbetween node (by simp), hpairs⟩⟩
    exact forall_mem_cons.mpr ⟨hapart earlier hmem, hbetween earlier (by simp [hmem])⟩

theorem Scanned.exists_foldlM (h : Scanned seen scan)
    (hplaced : ∀ node ∈ rest, Placed context streams nodes node)
    (hbetween : ∀ earlier ∈ seen, ∀ node ∈ rest, Apart earlier node)
    (hpairs : rest.Pairwise Apart) :
    ∃ final, rest.foldlM (scanNode context streams nodes) scan = .ok final := by
  induction rest generalizing seen scan with
  | nil => exact ⟨scan, rfl⟩
  | cons node rest ih =>
    obtain ⟨hnode, hrest⟩ := forall_mem_cons.mp hplaced
    obtain ⟨hfirst, hpairs⟩ := pairwise_cons.mp hpairs
    have hpush : Scanned (seen ++ [node]) (scanned scan node) := h.push
    obtain ⟨final, hfinal⟩ := ih hpush hrest (by
      intro earlier hmem other hother
      obtain hmem | hmem := mem_append.mp hmem
      · exact hbetween earlier hmem other (mem_cons_of_mem _ hother)
      · exact mem_singleton.mp hmem ▸ hfirst other hother) hpairs
    refine ⟨final, ?_⟩
    rw [foldlM_cons, h.scanNode_eq_ok.mpr ⟨⟨hnode, fun earlier hmem =>
      hbetween earlier hmem node mem_cons_self⟩, rfl⟩]
    exact hfinal

end Scan

/-! ### The checks together -/

/-- The arguments in the order in which the constructor keeps them. -/
def sortedStreams (streams : List StreamIdentity) : List StreamIdentity :=
  streams.insertionSort (fun left right => left.orderKey ≤ right.orderKey)

def sortedNodes (nodes : List CompletionNode) : List CompletionNode :=
  nodes.insertionSort (fun left right => left.id.get ≤ right.id.get)

/-- What the constructor checks of its sorted arguments before it orders the nodes. -/
structure Checked (context : ContextIdentity) (streams : List StreamIdentity)
    (nodes : List CompletionNode) : Prop where
  distinctStreams : streams.Nodup
  streamContext : ∀ stream ∈ streams, stream.context = context
  ids : (nodes.map (·.id)).Nodup
  placed : ∀ node ∈ nodes, Placed context streams nodes node
  apart : nodes.Pairwise Apart
  used : ∀ stream ∈ streams, ∃ node ∈ nodes, node.stream = stream
  heads : ∀ stream ∈ streams, nodes.countP (fun node => node.stream = stream ∧
    node.streamPredecessor = none) = 1
  waits : ∀ node ∈ nodes, ∀ event recordedBy, node.awaitedEvent = some event →
    node.kind.recordedBy = some recordedBy →
    ∃ record, nodes.find? (fun other => other.id = recordedBy) = some record ∧
      record.recordedEvent = some event

section Checks

variable {context : ContextIdentity} {streams : List StreamIdentity}
  {nodes : List CompletionNode}

theorem orderKey_injective : Function.Injective StreamIdentity.orderKey := by
  rintro ⟨⟨⟨device⟩, middle⟩, last⟩ ⟨⟨⟨device'⟩, middle'⟩, last'⟩ h
  simp only [StreamIdentity.orderKey, List.cons.injEq, BitVec.toNat_inj] at h
  obtain ⟨rfl, rfl, rfl, -⟩ := h
  rfl

theorem pairwise_sortedStreams (streams : List StreamIdentity) :
    (sortedStreams streams).Pairwise (fun left right => left.orderKey ≤ right.orderKey) := by
  exact pairwise_insertionSort _ streams

theorem checkStreams_eq_ok
    (sorted : streams.Pairwise (fun left right => left.orderKey ≤ right.orderKey)) :
    checkStreams context streams = .ok () ↔
      streams.Nodup ∧ ∀ stream ∈ streams, stream.context = context := by
  rw [← adjacentDuplicate_eq_none
    (fun _ _ hforth hback => orderKey_injective (le_antisymm hforth hback)) sorted, checkStreams]
  cases adjacentDuplicate streams with
  | some stream => exact iff_of_false nofun fun h => nomatch h.1
  | none =>
    rw [and_iff_right rfl]
    cases hfind : streams.find? (fun stream => stream.context ≠ context) with
    | some stream =>
      refine iff_of_false nofun fun hall => ?_
      have hne := find?_some hfind
      exact of_decide_eq_true hne (hall stream (mem_of_find?_eq_some hfind))
    | none =>
      refine iff_of_true rfl fun stream hmem => ?_
      simpa using find?_eq_none.mp hfind stream hmem

theorem checkStreamHeads_eq_ok {scan : ScanState} (h : Scanned nodes scan) :
    checkStreamHeads scan streams = .ok () ↔ ∀ stream ∈ streams,
      (∃ node ∈ nodes, node.stream = stream) ∧ nodes.countP (fun node => node.stream = stream ∧
        node.streamPredecessor = none) = 1 := by
  induction streams with
  | nil => simp [checkStreamHeads]
  | cons stream rest ih =>
    rw [checkStreamHeads, check_eq_ok, check_eq_ok, ih, forall_mem_cons, ← h.counted,
      ← h.heads, not_not, and_assoc, Option.isNone_iff_eq_none, ← ne_eq,
      ← Option.isSome_iff_ne_none]

theorem checkEventWait_eq_ok {node : CompletionNode} :
    checkEventWait nodes node = .ok () ↔ ∀ event recordedBy, node.awaitedEvent = some event →
      node.kind.recordedBy = some recordedBy →
      ∃ record, nodes.find? (fun other => other.id = recordedBy) = some record ∧
        record.recordedEvent = some event := by
  obtain ⟨id, predecessor, kind⟩ := node
  cases kind with
  | future identity | eventRecord stream event => exact iff_of_true rfl nofun
  | eventWait stream event recordedBy =>
    cases hfind : nodes.find? fun other => other.id = recordedBy with
    | none =>
      simp only [checkEventWait, hfind]
      refine iff_of_false nofun fun h => ?_
      obtain ⟨record, hfound, -⟩ := h event recordedBy rfl rfl
      nomatch hfind.symm.trans hfound
    | some record =>
      have hrecord : checkEventWait nodes ⟨id, predecessor, .eventWait stream event recordedBy⟩ =
          .ok () ↔ record.recordedEvent = some event := by
        obtain ⟨id', predecessor', kind'⟩ := record
        cases kind' <;> simp [checkEventWait, hfind, CompletionNode.recordedEvent]
      rw [hrecord]
      constructor
      · rintro h _ _ ⟨⟩ ⟨⟩
        exact ⟨record, hfind, h⟩
      · intro h
        obtain ⟨record', hfound, hevent⟩ := h event recordedBy rfl rfl
        rw [hfind] at hfound
        cases hfound
        exact hevent

/-- The checks before the order, on sorted arguments. -/
theorem checked_iff (hstreams : streams.Pairwise (fun left right => left.orderKey ≤ right.orderKey))
    (hnodes : nodes.Pairwise (fun left right => left.id.get ≤ right.id.get)) :
    (checkStreams context streams = .ok () ∧ checkNodeIds nodes = .ok () ∧
      ∃ scan, nodes.foldlM (scanNode context streams nodes) {} = .ok scan ∧
        checkStreamHeads scan streams = .ok () ∧ nodes.forM (checkEventWait nodes) = .ok ()) ↔
      Checked context streams nodes := by
  have hstart : Scanned [] {} := by constructor <;> simp
  rw [checkStreams_eq_ok hstreams, checkNodeIds_eq_ok hnodes, forM_eq_ok]
  simp only [checkEventWait_eq_ok]
  constructor
  · rintro ⟨⟨hdistinct, hcontext⟩, hids, scan, hscan, hheads, hwaits⟩
    obtain ⟨hscanned, hplaced, -, hapart⟩ := hstart.foldlM_eq_ok hscan
    have hheads := (checkStreamHeads_eq_ok hscanned).mp hheads
    exact ⟨hdistinct, hcontext, hids, hplaced, hapart, fun stream hmem => (hheads stream hmem).1,
      fun stream hmem => (hheads stream hmem).2, hwaits⟩
  · intro h
    obtain ⟨scan, hscan⟩ := hstart.exists_foldlM h.placed nofun h.apart
    have hscanned := (hstart.foldlM_eq_ok hscan).1
    refine ⟨⟨h.distinctStreams, h.streamContext⟩, h.ids, scan, hscan, ?_, h.waits⟩
    exact (checkStreamHeads_eq_ok hscanned).mpr fun stream hmem =>
      ⟨h.used stream hmem, h.heads stream hmem⟩

theorem length_nodeDependencies (node : CompletionNode) :
    (nodeDependencies nodes node).length ≤ 2 := by
  rw [nodeDependencies, length_insertionSort]
  cases node.streamPredecessor.bind (nodeIndex nodes) <;>
    cases node.kind.recordedBy.bind (nodeIndex nodes) <;> simp [pushDistinct]
  split <;> simp

theorem edgeCount_le : ((dependencyIndices nodes).map (·.length)).sum ≤ 2 * nodes.length := by
  have hsum : ∀ some : List CompletionNode,
      ((some.map (nodeDependencies nodes)).map (·.length)).sum ≤ 2 * some.length := by
    intro some
    induction some with
    | nil => exact Nat.le_refl 0
    | cons node rest ih =>
      have hnode : (nodeDependencies nodes node).length ≤ 2 := length_nodeDependencies node
      simp only [map_cons, sum_cons, length_cons]
      omega
  exact hsum nodes

end Checks

end Fe2o3.Completion
