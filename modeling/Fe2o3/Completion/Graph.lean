import Fe2o3.Lib.RowIndex

/-!
# The completion graph of `fe2o3-completion`

Identities, nodes, and the constructor `CompletionGraph::new` with every check it
makes, in its order.

A graph is a set of streams and of nodes on them.  A node names its immediate
predecessor on its own stream, and an event wait names the node that recorded
the event; these two references are its dependencies.  The constructor sorts
both lists, validates them, turns references into indices, inverts the
dependency rows into compressed successor rows and finally computes a
deterministic topological order, which is where a cycle is rejected.

Byte strings of 32 bytes are bit vectors read big-endian, so that the order of
the numbers is the lexicographic order of the bytes.  The ordered maps of the
scan are association lists: only insertion and lookup are used.
-/

namespace Fe2o3.Completion

open Lib

/-! ### Identities -/

def maxCompletionGraphStreams : Nat := 4096
def maxCompletionGraphNodes : Nat := 65536
def maxCompletionGraphEdges : Nat := 131072

structure DeviceIdentity where
  bytes : BitVec 256
deriving DecidableEq

structure ContextIdentity where
  device : DeviceIdentity
  localBytes : BitVec 256
deriving DecidableEq

structure StreamIdentity where
  context : ContextIdentity
  localBytes : BitVec 256
deriving DecidableEq

structure EventIdentity where
  context : ContextIdentity
  localBytes : BitVec 256
deriving DecidableEq

structure FutureIdentity where
  stream : StreamIdentity
  localBytes : BitVec 256
deriving DecidableEq

/-- The fields of a stream identity in declaration order: the derived order is
    the lexicographic order of this list. -/
def StreamIdentity.orderKey (stream : StreamIdentity) : List Nat :=
  [stream.context.device.bytes.toNat, stream.context.localBytes.toNat, stream.localBytes.toNat]

/-- A nonzero graph-local node identity; the constructor of the source refuses
    zero, so the value carries the fact. -/
structure CompletionNodeId where
  get : UInt32
  nonzero : get ≠ 0
deriving DecidableEq

structure CancellationCode where
  get : UInt32
  nonzero : get ≠ 0
deriving DecidableEq

structure FailureCode where
  get : UInt32
  nonzero : get ≠ 0
deriving DecidableEq

/-! ### Nodes -/

inductive CompletionNodeKind where
  | future (identity : FutureIdentity)
  | eventRecord (stream : StreamIdentity) (event : EventIdentity)
  | eventWait (stream : StreamIdentity) (event : EventIdentity)
      (recordedBy : CompletionNodeId)
deriving DecidableEq

def CompletionNodeKind.stream : CompletionNodeKind → StreamIdentity
  | .future identity => identity.stream
  | .eventRecord stream _ => stream
  | .eventWait stream _ _ => stream

/-- The record node that an event wait names. -/
def CompletionNodeKind.recordedBy : CompletionNodeKind → Option CompletionNodeId
  | .eventWait _ _ recordedBy => some recordedBy
  | _ => none

structure CompletionNode where
  id : CompletionNodeId
  streamPredecessor : Option CompletionNodeId
  kind : CompletionNodeKind
deriving DecidableEq

def CompletionNode.stream (node : CompletionNode) : StreamIdentity :=
  node.kind.stream

inductive CompletionGraphError where
  | emptyStreams
  | emptyNodes
  | tooManyStreams (actual maximum : Nat)
  | tooManyNodes (actual maximum : Nat)
  | tooManyEdges (actual maximum : Nat)
  | duplicateStream (stream : StreamIdentity)
  | foreignStreamContext (stream : StreamIdentity)
  | foreignEventContext (event : EventIdentity)
  | undeclaredStream (stream : StreamIdentity)
  | unusedStream (stream : StreamIdentity)
  | duplicateNode (node : CompletionNodeId)
  | missingNode (node : CompletionNodeId)
  | duplicateFuture (first duplicate : CompletionNodeId)
  | duplicateEventRecord (event : EventIdentity) (first duplicate : CompletionNodeId)
  | crossStreamPredecessor (node predecessor : CompletionNodeId)
  | streamFork (predecessor first second : CompletionNodeId)
  | invalidStreamHeadCount (stream : StreamIdentity) (actual : Nat)
  | eventRecordMismatch (wait recordedBy : CompletionNodeId)
  | cycle
deriving DecidableEq

/-! ### Validation -/

/-- The first element of the list that is equal to the one after it. -/
def adjacentDuplicate {α : Type} [DecidableEq α] : List α → Option α
  | first :: second :: rest =>
    if first = second then some first else adjacentDuplicate (second :: rest)
  | _ => none

variable (nodes : List CompletionNode)

/-- The index of a node id: a binary search of the sorted nodes in the source,
    whose ids are pairwise distinct. -/
def nodeIndex (id : CompletionNodeId) : Option Nat :=
  nodes.findIdx? (fun node => node.id = id)

def checkExtents (streams : List StreamIdentity) (nodes : List CompletionNode) :
    Except CompletionGraphError Unit :=
  if streams.isEmpty then .error .emptyStreams
  else if streams.length > maxCompletionGraphStreams then
    .error (.tooManyStreams streams.length maxCompletionGraphStreams)
  else if nodes.isEmpty then .error .emptyNodes
  else if nodes.length > maxCompletionGraphNodes then
    .error (.tooManyNodes nodes.length maxCompletionGraphNodes)
  else .ok ()

variable (context : ContextIdentity)

def checkStreams (streams : List StreamIdentity) : Except CompletionGraphError Unit :=
  match adjacentDuplicate streams with
  | some stream => .error (.duplicateStream stream)
  | none =>
    match streams.find? (fun stream => stream.context ≠ context) with
    | some stream => .error (.foreignStreamContext stream)
    | none => .ok ()

def checkNodeIds : Except CompletionGraphError Unit :=
  match adjacentDuplicate (nodes.map (·.id)) with
  | some id => .error (.duplicateNode id)
  | none => .ok ()

/-- The ordered maps that the scan over the nodes fills. -/
structure ScanState where
  streamNodeCounts : List (StreamIdentity × Nat) := []
  streamHeadCounts : List (StreamIdentity × Nat) := []
  streamSuccessors : List (CompletionNodeId × CompletionNodeId) := []
  eventRecords : List (EventIdentity × CompletionNodeId) := []
  futures : List (FutureIdentity × CompletionNodeId) := []

/-- `*map.entry(stream).or_default() += 1`. -/
def bump (counts : List (StreamIdentity × Nat)) (stream : StreamIdentity) :
    List (StreamIdentity × Nat) :=
  (stream, (counts.lookup stream).getD 0 + 1) :: counts

def scanKind (node : CompletionNode) (scan : ScanState) : Except CompletionGraphError ScanState :=
  match node.kind with
  | .future future =>
    match scan.futures.lookup future with
    | some first => .error (.duplicateFuture first node.id)
    | none => .ok { scan with futures := (future, node.id) :: scan.futures }
  | .eventRecord _ event =>
    if event.context ≠ context then .error (.foreignEventContext event)
    else
      match scan.eventRecords.lookup event with
      | some first => .error (.duplicateEventRecord event first node.id)
      | none => .ok { scan with eventRecords := (event, node.id) :: scan.eventRecords }
  | .eventWait _ event _ =>
    if event.context ≠ context then .error (.foreignEventContext event) else .ok scan

def scanPredecessor (node : CompletionNode) (scan : ScanState) :
    Except CompletionGraphError ScanState :=
  match node.streamPredecessor with
  | none => .ok { scan with streamHeadCounts := bump scan.streamHeadCounts node.stream }
  | some predecessor =>
    match nodes.find? (fun other => other.id = predecessor) with
    | none => .error (.missingNode predecessor)
    | some found =>
      if found.stream ≠ node.stream then .error (.crossStreamPredecessor node.id predecessor)
      else
        match scan.streamSuccessors.lookup predecessor with
        | some first => .error (.streamFork predecessor first node.id)
        | none =>
          .ok { scan with streamSuccessors := (predecessor, node.id) :: scan.streamSuccessors }

def scanNode (streams : List StreamIdentity) (nodes : List CompletionNode) (scan : ScanState)
    (node : CompletionNode) : Except CompletionGraphError ScanState :=
  if node.stream.context ≠ context then .error (.foreignStreamContext node.stream)
  else if node.stream ∉ streams then .error (.undeclaredStream node.stream)
  else do
    let scan ← scanKind context node
      { scan with streamNodeCounts := bump scan.streamNodeCounts node.stream }
    scanPredecessor nodes node scan

def checkStreamHeads (scan : ScanState) : List StreamIdentity → Except CompletionGraphError Unit
  | [] => .ok ()
  | stream :: rest =>
    if (scan.streamNodeCounts.lookup stream).isNone then .error (.unusedStream stream)
    else if (scan.streamHeadCounts.lookup stream).getD 0 ≠ 1 then
      .error (.invalidStreamHeadCount stream ((scan.streamHeadCounts.lookup stream).getD 0))
    else checkStreamHeads scan rest

/-- An event wait must name a node that records exactly the awaited event. -/
def checkEventWait (node : CompletionNode) : Except CompletionGraphError Unit :=
  match node.kind with
  | .eventWait _ event recordedBy =>
    match nodes.find? (fun other => other.id = recordedBy) with
    | none => .error (.missingNode recordedBy)
    | some record =>
      match record.kind with
      | .eventRecord _ recordedEvent =>
        if recordedEvent = event then .ok () else .error (.eventRecordMismatch node.id recordedBy)
      | _ => .error (.eventRecordMismatch node.id recordedBy)
  | _ => .ok ()

/-! ### Dependency and successor rows -/

/-- Appends an index unless the list already has it. -/
def pushDistinct (indices : List Nat) : Option Nat → List Nat
  | some index => if index ∈ indices then indices else indices ++ [index]
  | none => indices

/-- The dependencies of one node as indices in ascending id order: its stream
    predecessor, then the record of an awaited event.  Both lookups succeed on the
    lists that reach this point (`scanPredecessor`, `checkEventWait`). -/
def nodeDependencies (node : CompletionNode) : List Nat :=
  (pushDistinct (node.streamPredecessor.bind (nodeIndex nodes)).toList
    (node.kind.recordedBy.bind (nodeIndex nodes))).insertionSort (fun left right =>
      (nodes[left]?.map (·.id.get)).getD 0 ≤ (nodes[right]?.map (·.id.get)).getD 0)

def dependencyIndices : List (List Nat) :=
  nodes.map (nodeDependencies nodes)

/-- The dependency edges `(predecessor, successor)` in the order in which the
    nested loops of `successor_index` visit them. -/
def dependencyEdges (dependencies : List (List Nat)) : List (Nat × Nat) :=
  dependencies.zipIdx.flatMap (fun row => row.1.map (fun predecessor => (predecessor, row.2)))

/-- Row offsets and concatenated successor rows. -/
def successorIndex (dependencies : List (List Nat)) : List Nat × List Nat :=
  let edges := dependencyEdges dependencies
  let offsets := rowOffsets dependencies.length edges
  (offsets, fillRows 0 dependencies.length offsets edges)

/-! ### Topological order -/

/-- `ready` holds the entries `(id, index)` of the ordered set; the index alone
    determines the entry. -/
structure TopologicalState where
  indegrees : List Nat
  ready : List Nat
  order : List Nat

/-- The order of the entries `(nodes[index].id(), index)`. -/
def readyLe (left right : Nat) : Prop :=
  (nodes[left]?.map (·.id.get)).getD 0 < (nodes[right]?.map (·.id.get)).getD 0 ∨
    ((nodes[left]?.map (·.id.get)).getD 0 = (nodes[right]?.map (·.id.get)).getD 0 ∧ left ≤ right)

instance (nodes : List CompletionNode) : DecidableRel (readyLe nodes) :=
  fun _ _ => inferInstanceAs (Decidable (_ ∨ _))

def insertReady (index : Nat) (ready : List Nat) : List Nat :=
  if index ∈ ready then ready else ready.orderedInsert (readyLe nodes) index

def relaxSuccessor (state : TopologicalState) (successor : Nat) : TopologicalState :=
  let indegree := state.indegrees.getD successor 0 - 1
  { state with
    indegrees := state.indegrees.set successor indegree
    ready := if indegree = 0 then insertReady nodes successor state.ready else state.ready }

/-- The `while let Some(..) = ready.pop_first()` loop.  Every round moves one node
    to the order, so as many rounds as there are nodes are enough. -/
def topologicalLoop (nodes : List CompletionNode) (successors : Nat → List Nat) :
    Nat → TopologicalState → TopologicalState
  | 0, state => state
  | fuel + 1, state =>
    match state.ready with
    | [] => state
    | index :: rest =>
      topologicalLoop nodes successors fuel
        ((successors index).foldl (relaxSuccessor nodes)
          { state with ready := rest, order := state.order ++ [index] })

def topologicalStart (dependencies : List (List Nat)) : TopologicalState :=
  let indegrees := dependencies.map (·.length)
  { indegrees
    ready := (List.range nodes.length).foldl
      (fun ready index =>
        if indegrees.getD index 0 = 0 then insertReady nodes index ready else ready) []
    order := [] }

def deterministicTopologicalOrder (dependencies : List (List Nat))
    (successorOffsets successorIndices : List Nat) : Except CompletionGraphError (List Nat) :=
  let final := topologicalLoop nodes (rowSlice successorOffsets successorIndices) nodes.length
    (topologicalStart nodes dependencies)
  if final.order.length ≠ nodes.length then .error .cycle else .ok final.order

/-! ### The graph -/

structure CompletionGraph where
  context : ContextIdentity
  streams : List StreamIdentity
  nodes : List CompletionNode
  topologicalOrder : List CompletionNodeId
  dependencyIndices : List (List Nat)
  successorOffsets : List Nat
  successorIndices : List Nat
  topologicalRanks : List Nat

def CompletionGraph.new (streams : List StreamIdentity)
    (nodes : List CompletionNode) : Except CompletionGraphError CompletionGraph := do
  checkExtents streams nodes
  let streams := streams.insertionSort (fun left right => left.orderKey ≤ right.orderKey)
  checkStreams context streams
  let nodes := nodes.insertionSort (fun left right => left.id.get ≤ right.id.get)
  checkNodeIds nodes
  let scan ← nodes.foldlM (scanNode context streams nodes) {}
  checkStreamHeads scan streams
  nodes.forM (checkEventWait nodes)
  let dependencies := Completion.dependencyIndices nodes
  let edgeCount := (dependencies.map (·.length)).sum
  if edgeCount > maxCompletionGraphEdges then
    .error (.tooManyEdges edgeCount maxCompletionGraphEdges)
  else do
    let (successorOffsets, successorIndices) := successorIndex dependencies
    let order ← deterministicTopologicalOrder nodes dependencies successorOffsets successorIndices
    .ok
      { context, streams, nodes
        topologicalOrder := order.filterMap (fun index => nodes[index]?.map (·.id))
        dependencyIndices := dependencies
        successorOffsets, successorIndices
        topologicalRanks := order.zipIdx.foldl (fun ranks entry => ranks.set entry.1 entry.2)
          (List.replicate nodes.length 0) }

namespace CompletionGraph

variable (graph : CompletionGraph)

def nodeIndex (id : CompletionNodeId) : Option Nat := Completion.nodeIndex graph.nodes id

def dependencies (index : Nat) : List Nat := graph.dependencyIndices.getD index []

def successors (index : Nat) : List Nat :=
  rowSlice graph.successorOffsets graph.successorIndices index

def topologicalRank (index : Nat) : Nat := graph.topologicalRanks.getD index 0

end CompletionGraph

/-! ### A join of two streams

Node 1 runs on the first stream and node 2 records an event on the second one;
node 3 waits for both, and node 4 follows it. -/

def joinContext : ContextIdentity := ⟨⟨1⟩, 2⟩

def joinStream (bytes : BitVec 256) : StreamIdentity := ⟨joinContext, bytes⟩

def joinId (get : UInt32) (nonzero : get ≠ 0 := by decide) : CompletionNodeId := ⟨get, nonzero⟩

def joinNodes : List CompletionNode :=
  [⟨joinId 4, some (joinId 3), .future ⟨joinStream 1, 9⟩⟩,
    ⟨joinId 3, some (joinId 1), .eventWait (joinStream 1) ⟨joinContext, 5⟩ (joinId 2)⟩,
    ⟨joinId 1, none, .future ⟨joinStream 1, 7⟩⟩,
    ⟨joinId 2, none, .eventRecord (joinStream 2) ⟨joinContext, 5⟩⟩]

end Fe2o3.Completion
