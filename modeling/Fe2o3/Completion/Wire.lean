import Fe2o3.Completion.Acceptance
import Fe2o3.Lib.Reader

/-!
**The canonical encoding of a completion graph** (`wire.rs`).

The writer emits only local identities: streams, events and futures lose their
context, an absent predecessor and the record of a node that waits for nothing are
zeros.  What the reader puts back is right because an accepted graph has one context;
and the constructor that the reader calls returns the same graph because the lists it
gets are those of the graph in their sorted order.

`push_u32` panics on a value of more than 32 bits; the sizes and counts of accepted
graphs are far below that, and here it writes the low four bytes.
-/

namespace Fe2o3.Completion

open Lib List

/-! ### Sizes and tags -/

/-- `FE2O3/COMPLETION-GRAPH/V1` and a zero byte. -/
def completionGraphWireDomain : List UInt8 :=
  ['F', 'E', '2', 'O', '3', '/', 'C', 'O', 'M', 'P', 'L', 'E', 'T', 'I', 'O', 'N', '-', 'G', 'R',
    'A', 'P', 'H', '/', 'V', '1', '\x00'].map fun char => UInt8.ofNat char.toNat

def graphHeaderBytes : Nat := completionGraphWireDomain.length + 4 + 4 + 32 + 32 + 4 + 4
def streamWireBytes : Nat := 32
def nodeWireBytes : Nat := 4 + 1 + 1 + 2 + 4 + 32 + 32 + 4

def maxCompletionGraphBytes : Nat :=
  graphHeaderBytes + maxCompletionGraphStreams * streamWireBytes +
    maxCompletionGraphNodes * nodeWireBytes

def futureTag : UInt8 := 1
def eventRecordTag : UInt8 := 2
def eventWaitTag : UInt8 := 3

inductive CompletionGraphDecodeError where
  | tooLarge (actual maximum : Nat)
  | truncated
  | invalidDomain
  | declaredLengthMismatch (declared actual : Nat)
  | unsupportedFlags (flags : UInt32)
  | countBoundExceeded (field : String) (actual maximum : Nat)
  | invalidTag (field : String) (actual : UInt8)
  | nonzeroReserved (field : String)
  | invalidNodeId (field : String)
  | invalidGraph (error : CompletionGraphError)
  | nonCanonical
deriving DecidableEq

/-! ### The writer -/

def pushU32 (value : Nat) : List UInt8 := leBytes 4 value

/-- The 32 bytes of an identity; the bit vector reads them big-endian. -/
def identityBytes (identity : BitVec 256) : List UInt8 := (leBytes 32 identity.toNat).reverse

def CompletionNodeKind.tag : CompletionNodeKind → UInt8
  | .future _ => futureTag
  | .eventRecord _ _ => eventRecordTag
  | .eventWait _ _ _ => eventWaitTag

/-- The local identity of a future or an event, and the record that a wait names. -/
def CompletionNodeKind.payload : CompletionNodeKind → BitVec 256 × UInt32
  | .future identity => (identity.localBytes, 0)
  | .eventRecord _ event => (event.localBytes, 0)
  | .eventWait _ event recordedBy => (event.localBytes, recordedBy.get)

def encodeNode (node : CompletionNode) : List UInt8 :=
  List.flatten [pushU32 node.id.get.toNat, [node.kind.tag],
    [if node.streamPredecessor.isSome then 1 else 0], leBytes 2 0,
    pushU32 ((node.streamPredecessor.map CompletionNodeId.get).getD 0).toNat,
    identityBytes node.stream.localBytes, identityBytes node.kind.payload.1,
    pushU32 node.kind.payload.2.toNat]

def encodeGraph (graph : CompletionGraph) : List UInt8 :=
  let exactSize := graphHeaderBytes + graph.streams.length * streamWireBytes +
    graph.nodes.length * nodeWireBytes
  List.flatten [completionGraphWireDomain, pushU32 exactSize, pushU32 0,
    identityBytes graph.context.device.bytes, identityBytes graph.context.localBytes,
    pushU32 graph.streams.length, pushU32 graph.nodes.length,
    graph.streams.flatMap (fun stream => identityBytes stream.localBytes),
    graph.nodes.flatMap encodeNode]

def CompletionGraph.canonicalBytes (graph : CompletionGraph) : List UInt8 := encodeGraph graph

/-! ### The reader -/

abbrev WireReader (α : Type) : Type := Reader CompletionGraphDecodeError α

def readIdentity : WireReader (BitVec 256) := do
  let bytes ← readFixed 32 .truncated
  pure (BitVec.ofNat 256 (ofLeBytes bytes.reverse))

/-- A little-endian word of `width` bytes. -/
def readWord {α : Type} (width : Nat) (ofNat : Nat → α) : WireReader α := do
  let bytes ← readFixed width .truncated
  pure (ofNat (ofLeBytes bytes))

def readU8 : WireReader UInt8 := readWord 1 UInt8.ofNat

def readU16 : WireReader UInt16 := readWord 2 UInt16.ofNat

def readU32 : WireReader UInt32 := readWord 4 UInt32.ofNat

def boundedCount (field : String) (maximum : Nat) : WireReader Nat := do
  let actual ← readU32
  reject (actual.toNat > maximum) (.countBoundExceeded field actual.toNat maximum)
  pure actual.toNat

def decodeNodeId (raw : UInt32) (field : String) : WireReader CompletionNodeId :=
  if nonzero : raw ≠ 0 then pure ⟨raw, nonzero⟩ else throw (.invalidNodeId field)

def decodePredecessor (tag : UInt8) (raw : UInt32) : WireReader (Option CompletionNodeId) :=
  if tag = 0 then
    if raw = 0 then pure none else throw (.nonzeroReserved "absent stream predecessor")
  else if tag = 1 then do
    let predecessor ← decodeNodeId raw "stream predecessor"
    pure (some predecessor)
  else throw (.invalidTag "stream predecessor" tag)

def decodeKind (context : ContextIdentity) (kind : UInt8) (stream : StreamIdentity)
    (payload : BitVec 256) (recordRaw : UInt32) : WireReader CompletionNodeKind :=
  if kind = futureTag ∧ recordRaw = 0 then pure (.future ⟨stream, payload⟩)
  else if kind = eventRecordTag ∧ recordRaw = 0 then
    pure (.eventRecord stream ⟨context, payload⟩)
  else if kind = eventWaitTag then do
    let recordedBy ← decodeNodeId recordRaw "event record"
    pure (.eventWait stream ⟨context, payload⟩ recordedBy)
  else if kind = futureTag ∨ kind = eventRecordTag then
    throw (.nonzeroReserved "non-wait event record")
  else throw (.invalidTag "node kind" kind)

def decodeStream (context : ContextIdentity) : WireReader StreamIdentity := do
  let localBytes ← readIdentity
  pure ⟨context, localBytes⟩

def decodeNode (context : ContextIdentity) : WireReader CompletionNode := do
  let rawId ← readU32
  let id ← decodeNodeId rawId "node identity"
  let kind ← readU8
  let predecessorTag ← readU8
  let flags ← readU16
  reject (flags ≠ 0) (.nonzeroReserved "node flags")
  let predecessorRaw ← readU32
  let predecessor ← decodePredecessor predecessorTag predecessorRaw
  let stream ← decodeStream context
  let payload ← readIdentity
  let recordRaw ← readU32
  let kind ← decodeKind context kind stream payload recordRaw
  pure ⟨id, predecessor, kind⟩

/-- The reader of an input of `length` bytes.  The sums of the source cannot overflow:
    both counts are bounded. -/
def decodeBody (length : Nat) :
    WireReader (ContextIdentity × List StreamIdentity × List CompletionNode) := do
  let domain ← readFixed completionGraphWireDomain.length .truncated
  reject (domain ≠ completionGraphWireDomain) .invalidDomain
  let declared ← readU32
  reject (declared.toNat ≠ length) (.declaredLengthMismatch declared.toNat length)
  let flags ← readU32
  reject (flags ≠ 0) (.unsupportedFlags flags)
  let device ← readIdentity
  let localBytes ← readIdentity
  let context : ContextIdentity := ⟨⟨device⟩, localBytes⟩
  let streamCount ← boundedCount "stream" maxCompletionGraphStreams
  let nodeCount ← boundedCount "node" maxCompletionGraphNodes
  let expectedSize :=
    graphHeaderBytes + streamCount * streamWireBytes + nodeCount * nodeWireBytes
  reject (expectedSize ≠ length) (.declaredLengthMismatch expectedSize length)
  let streams ← readMany (decodeStream context) streamCount
  let nodes ← readMany (decodeNode context) nodeCount
  pure (context, streams, nodes)

def decodeGraph (bytes : List UInt8) : Except CompletionGraphDecodeError CompletionGraph :=
  if bytes.length > maxCompletionGraphBytes then
    .error (.tooLarge bytes.length maxCompletionGraphBytes)
  else do
    let ((context, streams, nodes), remaining) ← (decodeBody bytes.length).run bytes
    if remaining ≠ [] then
      .error (.declaredLengthMismatch (bytes.length - remaining.length) bytes.length)
    else do
      let graph ← (CompletionGraph.new context streams nodes).mapError .invalidGraph
      if graph.canonicalBytes ≠ bytes then .error .nonCanonical else .ok graph

def CompletionGraph.decodeCanonical (bytes : List UInt8) :
    Except CompletionGraphDecodeError CompletionGraph :=
  decodeGraph bytes

/-! ### Reading back what was written -/

theorem reads_identity (identity : BitVec 256) :
    Reads readIdentity (identityBytes identity) identity := by
  have hlength : (identityBytes identity).length = 32 := by simp [identityBytes]
  have hread := (Reads.fixed hlength CompletionGraphDecodeError.truncated).bind
    (f := fun bytes => pure (BitVec.ofNat 256 (ofLeBytes bytes.reverse))) (Reads.pure _)
  rw [append_nil, identityBytes, reverse_reverse, ofLeBytes_leBytes identity.isLt,
    BitVec.ofNat_toNat, BitVec.setWidth_eq] at hread
  exact hread

variable {value : Nat}

theorem reads_word {α : Type} (width : Nat) (ofNat : Nat → α) (h : value < 256 ^ width) :
    Reads (readWord width ofNat) (leBytes width value) (ofNat value) := by
  have hread := (Reads.fixed (ε := CompletionGraphDecodeError) (length_leBytes width value)
    .truncated).bind (f := fun bytes => pure (ofNat (ofLeBytes bytes))) (Reads.pure _)
  rwa [append_nil, ofLeBytes_leBytes h] at hread

theorem reads_u8 (value : UInt8) : Reads readU8 [value] value := by
  have hread := reads_word 1 UInt8.ofNat value.toNat_lt
  rwa [leBytes, leBytes, UInt8.ofNat_toNat] at hread

theorem reads_u32 (value : UInt32) : Reads readU32 (pushU32 value.toNat) value := by
  have hread := reads_word 4 UInt32.ofNat value.toNat_lt
  rwa [UInt32.ofNat_toNat] at hread

theorem reads_size (h : value < 2 ^ 32) :
    ∃ word : UInt32, word.toNat = value ∧ Reads readU32 (pushU32 value) word :=
  ⟨UInt32.ofNat value, UInt32.toNat_ofNat_of_lt' h, reads_word 4 UInt32.ofNat h⟩

theorem reads_boundedCount {count maximum : Nat} (field : String) (h : count ≤ maximum)
    (hmaximum : maximum < 2 ^ 32) : Reads (boundedCount field maximum) (pushU32 count) count := by
  obtain ⟨word, rfl, hword⟩ := reads_size (h.trans_lt hmaximum)
  exact hword.bind ((Reads.reject (not_lt.mpr h) _).skip (Reads.pure _))

theorem reads_decodeNodeId (id : CompletionNodeId) (field : String) :
    Reads (decodeNodeId id.get field) [] id := by
  rw [decodeNodeId, dif_pos id.nonzero]
  exact Reads.pure id

theorem reads_decodePredecessor (predecessor : Option CompletionNodeId) :
    Reads (decodePredecessor (if predecessor.isSome then 1 else 0)
      ((predecessor.map CompletionNodeId.get).getD 0)) [] predecessor := by
  cases predecessor with
  | none => exact Reads.pure none
  | some id => exact (reads_decodeNodeId id _).skip (Reads.pure (some id))

variable {node : CompletionNode}

section

variable {context : ContextIdentity}

theorem reads_decodeKind
    (hevent : ∀ event, node.recordedEvent = some event ∨ node.awaitedEvent = some event →
      event.context = context) :
    Reads (decodeKind context node.kind.tag node.stream node.kind.payload.1 node.kind.payload.2) []
      node.kind := by
  obtain ⟨id, predecessor, kind⟩ := node
  cases kind with
  | future identity =>
    exact Reads.pure _
  | eventRecord stream event =>
    cases hevent event (Or.inl rfl)
    have htag : eventRecordTag ≠ futureTag := by decide
    exact Reads.pure _
  | eventWait stream event recordedBy =>
    cases hevent event (Or.inr rfl)
    have hfuture : eventWaitTag ≠ futureTag := by decide
    have hrecord : eventWaitTag ≠ eventRecordTag := by decide
    rw [decodeKind, if_neg fun h => hfuture h.1, if_neg fun h => hrecord h.1]
    show Reads (if eventWaitTag = eventWaitTag then _ else _) _ _
    exact (reads_decodeNodeId recordedBy _).skip (Reads.pure _)

theorem reads_decodeStream {stream : StreamIdentity} (h : stream.context = context) :
    Reads (decodeStream context) (identityBytes stream.localBytes) stream := by
  subst h
  have hread := (reads_identity stream.localBytes).bind
    (f := fun localBytes => pure (⟨stream.context, localBytes⟩ : StreamIdentity)) (Reads.pure _)
  rwa [append_nil] at hread

theorem reads_decodeNode (hstream : node.stream.context = context)
    (hevent : ∀ event, node.recordedEvent = some event ∨ node.awaitedEvent = some event →
      event.context = context) : Reads (decodeNode context) (encodeNode node) node := by
  refine (reads_u32 node.id.get).next ((reads_decodeNodeId node.id _).skip ?_)
  refine (reads_u8 node.kind.tag).next ((reads_u8 _).next ?_)
  refine (reads_word 2 UInt16.ofNat (Nat.pow_pos (by decide))).next ((Reads.reject ?_ _).skip ?_)
  · decide
  refine (reads_u32 _).next ((reads_decodePredecessor node.streamPredecessor).skip ?_)
  refine (reads_decodeStream hstream).next ((reads_identity _).next ((reads_u32 _).next ?_))
  exact (reads_decodeKind hevent).skip (Reads.pure node)

theorem length_encodeNode (node : CompletionNode) : (encodeNode node).length = nodeWireBytes := by
  simp [encodeNode, pushU32, identityBytes, nodeWireBytes]

theorem length_encodeGraph (graph : CompletionGraph) :
    (encodeGraph graph).length = graphHeaderBytes + graph.streams.length * streamWireBytes +
      graph.nodes.length * nodeWireBytes := by
  simp [encodeGraph, pushU32, identityBytes, length_encodeNode, graphHeaderBytes,
    streamWireBytes]
  omega

/-- The reader takes an accepted graph back from its encoding. -/
theorem reads_decodeBody {graph : CompletionGraph}
    (hchecked : Checked graph.context graph.streams graph.nodes)
    (hstreams : graph.streams.length ≤ maxCompletionGraphStreams)
    (hnodes : graph.nodes.length ≤ maxCompletionGraphNodes)
    (hlength : (encodeGraph graph).length < 2 ^ 32) :
    Reads (decodeBody (encodeGraph graph).length) (encodeGraph graph)
      (graph.context, graph.streams, graph.nodes) := by
  obtain ⟨declared, hdeclared, hreads⟩ := reads_size hlength
  rw [length_encodeGraph] at hdeclared hreads
  have hstreamRecords : Reads (readMany (decodeStream graph.context) graph.streams.length)
      (graph.streams.flatMap fun stream => identityBytes stream.localBytes) graph.streams :=
    Reads.many fun stream hmem => reads_decodeStream (hchecked.streamContext stream hmem)
  have hnodeRecords : Reads (readMany (decodeNode graph.context) graph.nodes.length)
      (graph.nodes.flatMap encodeNode) graph.nodes :=
    Reads.many fun node hmem => reads_decodeNode (hchecked.placed node hmem).streamContext
      (hchecked.placed node hmem).eventContext
  rw [length_encodeGraph]
  refine (Reads.fixed rfl _).next ((Reads.reject (not_not.mpr rfl) _).skip ?_)
  refine hreads.next ((Reads.reject (not_not.mpr hdeclared) _).skip ?_)
  refine (reads_u32 0).next ((Reads.reject (not_not.mpr rfl) _).skip ?_)
  refine (reads_identity _).next ((reads_identity _).next ?_)
  refine (reads_boundedCount "stream" hstreams (by decide)).next ?_
  refine (reads_boundedCount "node" hnodes (by decide)).next ?_
  refine (Reads.reject (not_not.mpr rfl) _).skip ?_
  exact hstreamRecords.next (hnodeRecords.next (Reads.pure _))

end

/-- Decoding inverts encoding on accepted graphs, and only canonical bytes decode. -/
theorem canonical_codec :
    (∀ context streams nodes graph, CompletionGraph.new context streams nodes = .ok graph →
      CompletionGraph.decodeCanonical graph.canonicalBytes = .ok graph) ∧
    ∀ bytes graph, CompletionGraph.decodeCanonical bytes = .ok graph →
      graph.canonicalBytes = bytes := by
  constructor
  · intro context streams nodes graph h
    obtain ⟨hstreams, hnodes⟩ := limits_of_new_eq_ok h
    obtain ⟨rfl, hchecked, hstreamsPerm, hnodesPerm⟩ := checked_of_new h
    rw [← hstreamsPerm.length_eq] at hstreams
    rw [← hnodesPerm.length_eq] at hnodes
    have hlength : (encodeGraph graph).length ≤ maxCompletionGraphBytes := by
      rw [length_encodeGraph, maxCompletionGraphBytes]
      exact Nat.add_le_add (Nat.add_le_add_left (Nat.mul_le_mul_right _ hstreams) _)
        (Nat.mul_le_mul_right _ hnodes)
    have hbody := reads_decodeBody hchecked hstreams hnodes (hlength.trans_lt (by decide)) []
    rw [append_nil] at hbody
    refine check_eq_ok.mpr ⟨not_lt.mpr hlength, bind_eq_ok.mpr ⟨_, hbody, ?_⟩⟩
    refine check_eq_ok.mpr ⟨not_not.mpr rfl, bind_eq_ok.mpr ⟨graph, ?_, ?_⟩⟩
    · rw [new_eq_ok_of_perm h hstreamsPerm hnodesPerm]
      rfl
    · exact check_eq_ok.mpr ⟨not_not.mpr rfl, rfl⟩
  · intro bytes graph h
    rw [CompletionGraph.decodeCanonical, decodeGraph, check_eq_ok] at h
    obtain ⟨⟨⟨context, streams, nodes⟩, remaining⟩, -, h⟩ := bind_eq_ok.mp h.2
    obtain ⟨graph', -, h⟩ := bind_eq_ok.mp (check_eq_ok.mp h).2
    obtain ⟨hsame, hgraph⟩ := check_eq_ok.mp h
    cases hgraph
    exact not_not.mp hsame

theorem canonical_codec_join : ∃ graph,
    CompletionGraph.new joinContext [joinStream 2, joinStream 1] joinNodes = .ok graph ∧
      CompletionGraph.decodeCanonical graph.canonicalBytes = .ok graph :=
  ⟨_, rfl, canonical_codec.1 joinContext [joinStream 2, joinStream 1] joinNodes _ rfl⟩

end Fe2o3.Completion
