import Fe2o3.Lib.Outcome
import Fe2o3.Lib.RowIndex

/-!
**Control-flow analysis of one function** (`control_flow.rs`,
`control_flow_build_v1.rs`, `control_flow_analysis_v1.rs`): the successors of every
block, the reachable blocks, the dominator tree as preorder and postorder intervals, and
the blocks behind irreducible cycles.

Vectors are lists and stacks have their top first.  Of a terminator and a block only the
edges and the numbers of arguments and parameters are kept.  The entry point passes no
verification budget, so the charges of `ControlFlowResources` do nothing; the meter
keeps its total.  A loop has fuel and fails with `diverged` without it; what the meter
allows never uses it up.
-/

namespace Fe2o3.KernelIr.ControlFlow

open Lib

/-! ### Functions -/

abbrev BlockId := Nat

inductive Terminator where
  | branch (target : BlockId) (arguments : Nat)
  | conditionalBranch (thenTarget : BlockId) (thenArguments : Nat) (elseTarget : BlockId)
      (elseArguments : Nat)
  | switch (cases : List (BlockId × Nat)) (defaultTarget : BlockId) (defaultArguments : Nat)
  | integerSwitch (cases : List (BlockId × Nat)) (defaultTarget : BlockId)
      (defaultArguments : Nat)
  | returnValues
  | unreachable

/-- The edges in the order of `for_each_terminator_edge`. -/
def Terminator.edges : Terminator → List (BlockId × Nat)
  | .branch target arguments => [(target, arguments)]
  | .conditionalBranch thenTarget thenArguments elseTarget elseArguments =>
    [(thenTarget, thenArguments), (elseTarget, elseArguments)]
  | .switch cases target arguments => cases ++ [(target, arguments)]
  | .integerSwitch cases target arguments => cases ++ [(target, arguments)]
  | .returnValues => []
  | .unreachable => []

structure BasicBlock where
  id : BlockId
  parameters : Nat
  terminator : Option Terminator

def BasicBlock.edges (block : BasicBlock) : List (BlockId × Nat) :=
  (block.terminator.map Terminator.edges).getD []

/-! ### Limits and errors -/

structure ControlFlowLimits where
  blocks : Nat := 65536
  edges : Nat := 1048576
  edgeArguments : Nat := 1048576
  phiInputs : Nat := 1048576
  analysisWork : Nat := 16777216

inductive ControlFlowResource where
  | blocks
  | edges
  | edgeArguments
  | phiInputs
  | analysisWork
deriving DecidableEq

inductive ControlFlowError where
  | emptyFunction
  | duplicateBlock (block : BlockId)
  | missingTerminator (block : BlockId)
  | unknownSuccessor (source target : BlockId)
  | resourceLimit (resource : ControlFlowResource) (limit actual : Nat)
  | arithmeticOverflow (resource : ControlFlowResource)
  | diverged
deriving DecidableEq

abbrev Checked := Except ControlFlowError

def checkLimit (resource : ControlFlowResource) (actual limit : Nat) : Checked Unit :=
  failIf (actual > limit) (.resourceLimit resource limit actual)

/-- The result of `checked_add` or `checked_mul`. -/
def checked (resource : ControlFlowResource) (value : Nat) : Checked Nat :=
  if value < 2 ^ 64 then .ok value else .error (.arithmeticOverflow resource)

structure WorkMeter where
  limit : Nat
  total : Nat

abbrev Metered := StateT WorkMeter Checked

def charge (units : Nat) : Metered Unit := do
  let meter ← get
  let total ← checked .analysisWork (meter.total + units)
  checkLimit .analysisWork total meter.limit
  set { meter with total }

/-- Fuel for a loop, above twice the units of the meter. -/
def rounds : Metered Nat := return 2 * (← get).limit + 2

/-! ### Reachable blocks -/

def visitSuccessor (state : List Nat × List Bool) (successor : Nat) :
    Metered (List Nat × List Bool) := do
  charge 1
  if state.2.getD successor false then return state
  else return (successor :: state.1, state.2.set successor true)

def reachableLoop (successors : List (List Nat)) :
    Nat → List Nat → List Bool → Metered (List Bool)
  | 0, _, _ => throw .diverged
  | _ + 1, [], reachable => return reachable
  | fuel + 1, block :: pending, reachable => do
    let (pending, reachable) ←
      (successors.getD block []).foldlM visitSuccessor (pending, reachable)
    reachableLoop successors fuel pending reachable

def computeReachable (successors : List (List Nat)) : Metered (List Bool) := do
  reachableLoop successors (← rounds) [0]
    ((List.replicate successors.length false).set 0 true)

/-! ### Reverse postorder -/

def postorderLoop (successors : List (List Nat)) (reachable : List Bool) :
    Nat → List (Nat × Nat) → List Bool → List Nat → Metered (List Nat)
  | 0, _, _, _ => throw .diverged
  | _ + 1, [], _, postorder => return postorder
  | fuel + 1, (block, nextSuccessor) :: stack, visited, postorder =>
    match (successors.getD block [])[nextSuccessor]? with
    | none => postorderLoop successors reachable fuel stack visited (postorder ++ [block])
    | some successor => do
      let stack := (block, nextSuccessor + 1) :: stack
      charge 1
      if reachable.getD successor false && !visited.getD successor false then
        postorderLoop successors reachable fuel ((successor, 0) :: stack)
          (visited.set successor true) postorder
      else postorderLoop successors reachable fuel stack visited postorder

def computeReversePostorder (successors : List (List Nat)) (reachable : List Bool) :
    Metered (List Nat) := do
  let postorder ← postorderLoop successors reachable (← rounds) [(0, 0)]
    ((List.replicate successors.length false).set 0 true) []
  return postorder.reverse

/-! ### Immediate dominators -/

section

variable (order : List Nat) (dominators : List (Option Nat)) (fuel : Nat)

/-- One finger climbs until it is not behind the other. -/
def climb : Nat → Nat → Nat → Metered Nat
  | 0, _, _ => throw .diverged
  | fuel + 1, finger, other =>
    if order.getD finger 0 ≤ order.getD other 0 then return finger
    else do
      charge 1
      climb fuel ((dominators.getD finger none).getD 0) other

def intersectDominators : Nat → Nat → Nat → Metered Nat
  | 0, _, _ => throw .diverged
  | rounds + 1, left, right =>
    if left = right then return left
    else do
      let left ← climb order dominators fuel left right
      let right ← climb order dominators fuel right left
      intersectDominators rounds left right

/-- The intersection over the predecessors that have a dominator already; the entry
    absorbs the rest. -/
def mergePredecessors (reachable : List Bool) : Option Nat → List Nat → Metered (Option Nat)
  | next, [] => return next
  | next, predecessor :: predecessors =>
    if !reachable.getD predecessor false || (dominators.getD predecessor none).isNone then
      mergePredecessors reachable next predecessors
    else do
      charge 1
      let merged ← match next with
        | none => pure predecessor
        | some previous => intersectDominators order dominators fuel fuel previous predecessor
      if merged = 0 then return some merged
      else mergePredecessors reachable (some merged) predecessors

end

def updateDominator (order : List Nat) (fuel : Nat) (predecessors : List (List Nat))
    (reachable : List Bool) (state : List (Option Nat) × Bool) (block : Nat) :
    Metered (List (Option Nat) × Bool) := do
  let next ← mergePredecessors order state.1 fuel reachable none (predecessors.getD block [])
  if next = none || state.1.getD block none = next then return state
  else return (state.1.set block next, true)

def dominatorLoop (order : List Nat) (predecessors : List (List Nat)) (reachable : List Bool)
    (reversePostorder : List Nat) : Nat → List (Option Nat) → Metered (List (Option Nat))
  | 0, _ => throw .diverged
  | fuel + 1, dominators => do
    let (dominators, changed) ← (reversePostorder.drop 1).foldlM
      (updateDominator order (fuel + 1) predecessors reachable) (dominators, false)
    if changed then dominatorLoop order predecessors reachable reversePostorder fuel dominators
    else return dominators

def computeImmediateDominators (predecessors : List (List Nat)) (reachable : List Bool)
    (reversePostorder : List Nat) : Metered (List (Option Nat)) := do
  let order := reversePostorder.zipIdx.foldl (fun order entry => order.set entry.1 entry.2)
    (List.replicate predecessors.length (2 ^ 64 - 1))
  let dominators ← dominatorLoop order predecessors reachable reversePostorder
    (← rounds) ((List.replicate predecessors.length none).set 0 (some 0))
  return dominators.set 0 none

/-! ### Dominator intervals -/

structure Dominance where
  reachable : List Bool
  preorder : List Nat
  postorder : List Nat
deriving DecidableEq

def intervalLoop (children : Nat → List Nat) :
    Nat → List (Nat × Bool) → Nat → Dominance → Metered Dominance
  | 0, _, _, _ => throw .diverged
  | _ + 1, [], _, intervals => return intervals
  | fuel + 1, (block, exiting) :: stack, clock, intervals => do
    charge 1
    let next := min (clock + 1) (2 ^ 32 - 1)
    if exiting then
      intervalLoop children fuel stack next
        { intervals with postorder := intervals.postorder.set block clock }
    else
      intervalLoop children fuel ((children block).map (·, false) ++ (block, true) :: stack) next
        { intervals with preorder := intervals.preorder.set block clock }

/-- A reachable block without a dominator is the accounting error, which the entry point
    turns into an overflow. -/
def computeDominatorIntervals (immediateDominators : List (Option Nat)) (reachable : List Bool) :
    Metered Dominance := do
  let blocks := immediateDominators.length
  let owned := (List.range blocks).tail.filter (reachable.getD · false)
  let parent block := immediateDominators.getD block none
  if owned.any fun block => (parent block).isNone then throw (.arithmeticOverflow .analysisWork)
  intervalLoop (fun block => owned.filter (parent · = some block)) (← rounds)
    [(0, false)] 0 ⟨reachable, List.replicate blocks 0, List.replicate blocks 0⟩

/-- An unreachable block is dominated by itself only. -/
def dominatesPositions (dominance : Dominance) (definition useBlock : Nat) : Bool :=
  if !dominance.reachable.getD useBlock false then definition = useBlock
  else dominance.reachable.getD definition false &&
    dominance.preorder.getD definition 0 ≤ dominance.preorder.getD useBlock 0 &&
    dominance.postorder.getD useBlock 0 ≤ dominance.postorder.getD definition 0

/-! ### Irreducible blocks -/

structure Elimination where
  indegrees : List Nat
  ready : List Nat
  visited : List Bool

/-- The edges of a block that do not go back to a dominator of it. -/
def forwardRow (successors : List (List Nat)) (dominance : Dominance) (source : Nat) : List Nat :=
  (successors.getD source []).filter fun target => !dominatesPositions dominance target source

def releaseForward (state : Elimination) (successor : Nat) : Elimination :=
  let count := state.indegrees.getD successor 0 - 1
  { state with
    indegrees := state.indegrees.set successor count
    ready := if count = 0 then state.ready ++ [successor] else state.ready }

def eliminationLoop (forward : Nat → List Nat) : Nat → Nat → Elimination → Metered Elimination
  | 0, _, state => return state
  | rounds + 1, cursor, state =>
    match state.ready[cursor]? with
    | none => return state
    | some block => do
      charge 1
      eliminationLoop forward rounds (cursor + 1) ((forward block).foldl releaseForward
        { state with visited := state.visited.set block true })

def eliminationStart (forward : Nat → List Nat) (blocks : Nat) : Elimination :=
  let indegrees := ((List.range blocks).flatMap forward).foldl increment (List.replicate blocks 0)
  { indegrees
    ready := (List.range blocks).filter fun block => indegrees.getD block 0 = 0
    visited := List.replicate blocks false }

variable (blockIds : List BlockId)

def computeIrreducibleBlocks (successors : List (List Nat))
    (dominance : Dominance) : Metered (List BlockId) := do
  let blocks := successors.length
  let forward := forwardRow successors dominance
  successors.flatten.forM fun _ => charge 1
  let state ← eliminationLoop forward blocks 0 (eliminationStart forward blocks)
  let irreducible := (blockIds.zip state.visited).filter fun entry => !entry.2
  return (irreducible.map Prod.fst).insertionSort (· ≤ ·)

/-! ### The analysis -/

structure IndexedControlFlow where
  blockIds : List BlockId
  dominance : Dominance
  irreducibleBlocks : List BlockId
deriving DecidableEq

/-- Identities are distinct, so the sorted table and the direct probe find the position. -/
def IndexedControlFlow.blockPosition (flow : IndexedControlFlow) (block : BlockId) : Option Nat :=
  flow.blockIds.idxOf? block

def IndexedControlFlow.dominates (flow : IndexedControlFlow) (definition useBlock : BlockId) :
    Bool :=
  match flow.blockPosition definition, flow.blockPosition useBlock with
  | some definition, some useBlock => dominatesPositions flow.dominance definition useBlock
  | _, _ => false

def IndexedControlFlow.isReducible (flow : IndexedControlFlow) : Bool :=
  flow.irreducibleBlocks.isEmpty

/-- A duplicate is reported at its second place, before a terminator that is missing there. -/
def checkBlocks (blocks : List BasicBlock) (position : Nat) : Checked Unit :=
  match blocks[position]? with
  | none => .ok ()
  | some block => do
    failIf (block.id ∈ (blocks.take position).map BasicBlock.id) (.duplicateBlock block.id)
    failIf block.terminator.isNone (.missingTerminator block.id)

def targetPosition (source target : BlockId) : Checked Nat :=
  okOr (.unknownSuccessor source target) (blockIds.idxOf? target)

structure EdgeCounts where
  edges : Nat
  arguments : Nat
  incoming : List Nat

def countEdge (source : BlockId) (counts : EdgeCounts)
    (edge : BlockId × Nat) : Checked EdgeCounts := do
  let edges ← checked .edges (counts.edges + 1)
  let arguments ← checked .edgeArguments (counts.arguments + edge.2)
  let target ← targetPosition blockIds source edge.1
  return ⟨edges, arguments, increment counts.incoming target⟩

def countPhiInputs (total : Nat) (entry : BasicBlock × Nat) : Checked Nat := do
  let inputs ← checked .phiInputs (entry.1.parameters * entry.2)
  checked .phiInputs (total + inputs)

def successorRow (block : BasicBlock) : Checked (List Nat) := do
  let targets ← block.edges.mapM fun edge => targetPosition blockIds block.id edge.1
  return (targets.insertionSort (· ≤ ·)).dedup

def predecessorRows (successors : List (List Nat)) : List (List Nat) :=
  (List.range successors.length).map fun target =>
    (List.range successors.length).filter fun source => target ∈ successors.getD source []

def analyzeSuccessors (successors : List (List Nat))
    (indexUnits : Nat) : Metered IndexedControlFlow := do
  charge (min indexUnits (2 ^ 64 - 1))
  let reachable ← computeReachable successors
  let reversePostorder ← computeReversePostorder successors reachable
  let immediateDominators ←
    computeImmediateDominators (predecessorRows successors) reachable reversePostorder
  let dominance ← computeDominatorIntervals immediateDominators reachable
  let irreducibleBlocks ← computeIrreducibleBlocks blockIds successors dominance
  return ⟨blockIds, dominance, irreducibleBlocks⟩

def analyzeControlFlowWithLimits (body : Option (List BasicBlock)) (limits : ControlFlowLimits) :
    Checked IndexedControlFlow := do
  let blocks ← okOr .emptyFunction body
  checkLimit .blocks blocks.length limits.blocks
  failIf blocks.isEmpty .emptyFunction
  (List.range blocks.length).forM (checkBlocks blocks)
  let blockIds := blocks.map BasicBlock.id
  let counts ← blocks.foldlM
    (fun counts block => block.edges.foldlM (countEdge blockIds block.id) counts)
    ⟨0, 0, List.replicate blocks.length 0⟩
  checkLimit .edges counts.edges limits.edges
  checkLimit .edgeArguments counts.arguments limits.edgeArguments
  let phiInputs ← (blocks.zip counts.incoming).foldlM countPhiInputs 0
  checkLimit .phiInputs phiInputs limits.phiInputs
  let successors ← blocks.mapM (successorRow blockIds)
  let indexUnits := blocks.length + 2 * counts.edges + phiInputs
  let (flow, _) ← (analyzeSuccessors blockIds successors indexUnits).run ⟨limits.analysisWork, 0⟩
  return flow

end Fe2o3.KernelIr.ControlFlow
