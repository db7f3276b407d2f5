import Fe2o3.Completion.Graph

/-!
# The completion authority of `fe2o3-completion`

The linear state machine that drives one accepted graph.

Each public operation returns its result together with the authority after the
call, because a method on `&mut self` can change the state whatever it returns.
The binary heap of the propagation is kept as its ascending listing: entries
`(rank, index)` are totally ordered, so popping the least one is deterministic.
-/

namespace Fe2o3.Completion

/-! ### Node states -/

inductive CompletionNodeState where
  | blocked
  | ready
  | cancelRequested (reason : CancellationCode)
  | succeeded
  | failed (origin : CompletionNodeId) (error : FailureCode)
  | cancelled (origin : CompletionNodeId) (reason : CancellationCode)
  | dependencyFailed (origin : CompletionNodeId) (error : FailureCode)
  | dependencyCancelled (origin : CompletionNodeId) (reason : CancellationCode)
deriving DecidableEq

def CompletionNodeState.isTerminal : CompletionNodeState → Bool
  | .succeeded | .failed _ _ | .cancelled _ _ | .dependencyFailed _ _
  | .dependencyCancelled _ _ => true
  | .blocked | .ready | .cancelRequested _ => false

/-- The state that a blocked dependent of a node in the given state takes over. -/
def dependencyCause : CompletionNodeState → Option CompletionNodeState
  | .failed origin error | .dependencyFailed origin error => some (.dependencyFailed origin error)
  | .cancelled origin reason | .dependencyCancelled origin reason =>
    some (.dependencyCancelled origin reason)
  | _ => none

inductive CompletionTransitionError where
  | unknownNode (node : CompletionNodeId)
  | notReady (node : CompletionNodeId) (state : CompletionNodeState)
  | notBlocked (node : CompletionNodeId) (state : CompletionNodeState)
  | cancellationNotRequested (node : CompletionNodeId) (state : CompletionNodeState)
  | cancellationReasonSubstitution (node : CompletionNodeId)
      (expected actual : CancellationCode)
  | terminal (node : CompletionNodeId) (state : CompletionNodeState)
deriving DecidableEq

/-! ### The authority -/

structure CompletionAuthority where
  graph : CompletionGraph
  states : List CompletionNodeState
  remainingDependencies : List Nat
  terminalNodes : Nat
  propagationQueue : List (Nat × Nat)
  readyNotifications : List CompletionNodeId

namespace CompletionAuthority

def new (graph : CompletionGraph) : CompletionAuthority :=
  let remainingDependencies := graph.dependencyIndices.map (·.length)
  { graph
    states := remainingDependencies.map
      (fun remaining => if remaining = 0 then .ready else .blocked)
    remainingDependencies
    terminalNodes := 0
    propagationQueue := []
    readyNotifications := (graph.nodes.zip remainingDependencies).filterMap (fun entry =>
      if entry.2 = 0 then some entry.1.id else none) }

variable (authority : CompletionAuthority)

/-- The state at an index.  Indices of the graph are in range; the default is
    never read by the operations. -/
def stateAt (index : Nat) : CompletionNodeState := authority.states.getD index .succeeded

def setState (index : Nat) (state : CompletionNodeState) : CompletionAuthority :=
  { authority with states := authority.states.set index state }

/-- Records a terminal state and counts it. -/
def terminate (index : Nat) (state : CompletionNodeState) : CompletionAuthority :=
  { authority.setState index state with terminalNodes := authority.terminalNodes + 1 }

/-! ### Releasing successors -/

def releaseSuccessor (successor : Nat) : CompletionAuthority :=
  if authority.stateAt successor ≠ .blocked then authority
  else
    let remaining := authority.remainingDependencies.getD successor 0 - 1
    let authority :=
      { authority with
        remainingDependencies := authority.remainingDependencies.set successor remaining }
    if remaining = 0 then
      { authority.setState successor .ready with
        readyNotifications := authority.readyNotifications ++
          (authority.graph.nodes[successor]?.map (·.id)).toList }
    else authority

def releaseSuccessors (completedIndex : Nat) : CompletionAuthority :=
  (authority.graph.successors completedIndex).foldl releaseSuccessor authority

/-! ### Propagating a terminal cause -/

def queueLe (left right : Nat × Nat) : Prop :=
  left.1 < right.1 ∨ (left.1 = right.1 ∧ left.2 ≤ right.2)

instance : DecidableRel queueLe := fun _ _ => inferInstanceAs (Decidable (_ ∨ _))

def enqueueSuccessors (index : Nat) : CompletionAuthority :=
  { authority with
    propagationQueue := (authority.graph.successors index).foldl
      (fun queue successor =>
        queue.orderedInsert queueLe (authority.graph.topologicalRank successor, successor))
      authority.propagationQueue }

/-- The body of the propagation loop for one popped index. -/
def propagateEntry (index : Nat) : CompletionAuthority :=
  if authority.stateAt index ≠ .blocked then authority
  else
    match (authority.graph.dependencies index).findSome?
      (fun dependency => dependencyCause (authority.stateAt dependency)) with
    | some cause => (authority.terminate index cause).enqueueSuccessors index
    | none => authority

def propagateLoop : Nat → CompletionAuthority → CompletionAuthority
  | 0, authority => authority
  | fuel + 1, authority =>
    match authority.propagationQueue with
    | [] => authority
    | (_, index) :: rest =>
      propagateLoop fuel ({ authority with propagationQueue := rest }.propagateEntry index)

/-- Every node enqueues its successors at most once, so this many entries are
    ever popped. -/
def propagationFuel : Nat :=
  (authority.graph.nodes.length + 1) * authority.graph.successorIndices.length

def propagateTerminalCauseFrom (terminalIndex : Nat) : CompletionAuthority :=
  propagateLoop authority.propagationFuel (authority.enqueueSuccessors terminalIndex)

/-! ### Public operations -/

def popReadyNotification : Option CompletionNodeId × CompletionAuthority :=
  match authority.readyNotifications with
  | [] => (none, authority)
  | node :: rest => (some node, { authority with readyNotifications := rest })

def state (node : CompletionNodeId) : Except CompletionTransitionError CompletionNodeState :=
  match authority.graph.nodeIndex node with
  | some index => .ok (authority.stateAt index)
  | none => .error (.unknownNode node)

def requestCancel (node : CompletionNodeId) (reason : CancellationCode) :
    Except CompletionTransitionError Bool × CompletionAuthority :=
  match authority.graph.nodeIndex node with
  | none => (.error (.unknownNode node), authority)
  | some index =>
    match authority.stateAt index with
    | .ready => (.ok true, authority.setState index (.cancelRequested reason))
    | .cancelRequested existing =>
      if existing = reason then (.ok false, authority)
      else (.error (.cancellationReasonSubstitution node existing reason), authority)
    | state =>
      if state.isTerminal then (.error (.terminal node state), authority)
      else (.error (.notReady node state), authority)

def cancelBlocked (node : CompletionNodeId) (reason : CancellationCode) :
    Except CompletionTransitionError Unit × CompletionAuthority :=
  match authority.graph.nodeIndex node with
  | none => (.error (.unknownNode node), authority)
  | some index =>
    match authority.stateAt index with
    | .blocked =>
      (.ok (), (authority.terminate index (.cancelled node reason)).propagateTerminalCauseFrom
        index)
    | state =>
      if state.isTerminal then (.error (.terminal node state), authority)
      else (.error (.notBlocked node state), authority)

def markSucceeded (node : CompletionNodeId) :
    Except CompletionTransitionError Unit × CompletionAuthority :=
  match authority.graph.nodeIndex node with
  | none => (.error (.unknownNode node), authority)
  | some index =>
    match authority.stateAt index with
    | .ready | .cancelRequested _ =>
      (.ok (), (authority.terminate index .succeeded).releaseSuccessors index)
    | state =>
      if state.isTerminal then (.error (.terminal node state), authority)
      else (.error (.notReady node state), authority)

def markFailed (node : CompletionNodeId) (error : FailureCode) :
    Except CompletionTransitionError Unit × CompletionAuthority :=
  match authority.graph.nodeIndex node with
  | none => (.error (.unknownNode node), authority)
  | some index =>
    match authority.stateAt index with
    | .ready | .cancelRequested _ =>
      (.ok (), (authority.terminate index (.failed node error)).propagateTerminalCauseFrom index)
    | state =>
      if state.isTerminal then (.error (.terminal node state), authority)
      else (.error (.notReady node state), authority)

def markCancelled (node : CompletionNodeId) :
    Except CompletionTransitionError Unit × CompletionAuthority :=
  match authority.graph.nodeIndex node with
  | none => (.error (.unknownNode node), authority)
  | some index =>
    match authority.stateAt index with
    | .cancelRequested reason =>
      (.ok (), (authority.terminate index (.cancelled node reason)).propagateTerminalCauseFrom
        index)
    | state =>
      if state.isTerminal then (.error (.terminal node state), authority)
      else (.error (.cancellationNotRequested node state), authority)

def isTerminal : Bool := authority.terminalNodes = authority.states.length

end CompletionAuthority

/-! ### Runs -/

/-- One call of the mutating interface. -/
inductive Call where
  | requestCancel (node : CompletionNodeId) (reason : CancellationCode)
  | cancelBlocked (node : CompletionNodeId) (reason : CancellationCode)
  | markSucceeded (node : CompletionNodeId)
  | markFailed (node : CompletionNodeId) (error : FailureCode)
  | markCancelled (node : CompletionNodeId)
  | popReadyNotification

/-- The authority after a call, whether the call succeeded or was rejected. -/
def CompletionAuthority.apply (authority : CompletionAuthority) :
    Call → CompletionAuthority
  | .requestCancel node reason => (authority.requestCancel node reason).2
  | .cancelBlocked node reason => (authority.cancelBlocked node reason).2
  | .markSucceeded node => (authority.markSucceeded node).2
  | .markFailed node error => (authority.markFailed node error).2
  | .markCancelled node => (authority.markCancelled node).2
  | .popReadyNotification => authority.popReadyNotification.2

/-- The notification that a call hands to its caller. -/
def CompletionAuthority.delivers (authority : CompletionAuthority) :
    Call → List CompletionNodeId
  | .popReadyNotification => authority.popReadyNotification.1.toList
  | _ => []

/-- The authority of a graph after a sequence of calls. -/
def CompletionAuthority.run (graph : CompletionGraph) (calls : List Call) : CompletionAuthority :=
  calls.foldl CompletionAuthority.apply (.new graph)

theorem CompletionAuthority.run_concat (graph : CompletionGraph) (calls : List Call)
    (call : Call) : run graph (calls ++ [call]) = (run graph calls).apply call := by
  simp [run]

end Fe2o3.Completion
