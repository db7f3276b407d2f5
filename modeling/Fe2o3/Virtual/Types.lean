import Fe2o3.KernelIr.Types
import Fe2o3.RuntimeModel.State

/-!
**The data of the virtual runtime** (`fe2o3-virtual-runtime`, `lib.rs`): limits,
configuration, handles, arguments and requests, completion states, results and errors,
and the part of `fe2o3-kir-sim` that a dispatch passes through.

The simulator itself is not modelled.  It is part of the environment of a call and
answers a request with an error or with an execution: numbers to report, and
writes into the shared buffers it was given.  It allocates those buffers from the
request and copies them back, so their number and their lengths do not change, and
every byte a store writes becomes initialized.  Whether a reservation of memory
succeeds and how much a vector reserves is the environment's choice as well.
Lengths and 64-bit counters are natural numbers with checked arithmetic.
-/

namespace Fe2o3.Virtual

open Lib KernelIr RuntimeModel

def firstUserAllocationId : Nat := 1024
def firstSyntheticVa : Nat := 0x10000
def vaAlignment : Nat := 0x10000
def hardMaxArgumentsPerDispatch : Nat := 65536
def hardMaxRetainedDispatchBytes : Nat := 2 ^ 30

/-! ### Handles -/

inductive HandleKind where
  | buffer
  | module
  | queue
  | completion
  deriving DecidableEq

/-- The four handle types of the source have the same two fields. -/
structure Handle (kind : HandleKind) where
  runtimeIdentity : IdentityDigest
  ordinal : Nat
  deriving DecidableEq

abbrev VirtualBufferHandle := Handle .buffer
abbrev VirtualModuleHandle := Handle .module
abbrev VirtualQueueHandle := Handle .queue
abbrev VirtualCompletionHandle := Handle .completion

/-- The derived order: by identity, then by ordinal. -/
def Handle.atMost {kind : HandleKind} (left right : Handle kind) : Bool :=
  decide (left.runtimeIdentity < right.runtimeIdentity) ||
    (left.runtimeIdentity == right.runtimeIdentity && decide (left.ordinal ≤ right.ordinal))

/-! ### Configuration -/

inductive VirtualTargetProfile where
  | amdgpu64TargetNeutral
  | gfx942XnackMinus
  | gfx950XnackMinus
  deriving DecidableEq

def VirtualTargetProfile.label : VirtualTargetProfile → String
  | amdgpu64TargetNeutral => "amdgpu64-target-neutral"
  | gfx942XnackMinus => "gfx942:xnack-"
  | gfx950XnackMinus => "gfx950:xnack-"

structure VirtualRuntimeLimits where
  maxUserAllocations : Nat
  maxTotalUserBytes : Nat
  maxModules : Nat
  maxQueues : Nat
  maxDispatches : Nat
  maxArgumentsPerDispatch : Nat
  maxDependenciesPerDispatch : Nat
  maxRetainedDispatchBytes : Nat
  maxScheduleDecisions : Nat
  deriving DecidableEq

def VirtualRuntimeLimits.default : VirtualRuntimeLimits where
  maxUserAllocations := 1024
  maxTotalUserBytes := 2 ^ 30
  maxModules := 64
  maxQueues := 64
  maxDispatches := 8192
  maxArgumentsPerDispatch := 65536
  maxDependenciesPerDispatch := 256
  maxRetainedDispatchBytes := 2 ^ 26
  maxScheduleDecisions := 2 ^ 20

structure SimulationLimits where
  maxCanonicalBytes : Nat
  maxReachableFunctions : Nat
  maxReachableOperations : Nat
  maxInvocations : Nat
  maxWorkgroups : Nat
  maxScheduledSlots : Nat
  maxSteps : Nat
  maxCallDepth : Nat
  maxSsaValues : Nat
  maxAllocations : Nat
  maxAllocationBytes : Nat
  maxTotalBytes : Nat
  maxResidentBytes : Nat
  maxEvents : Nat
  maxMemoryAccessRecords : Nat
  deriving DecidableEq

def SimulationLimits.default : SimulationLimits where
  maxCanonicalBytes := 2 ^ 24
  maxReachableFunctions := 4096
  maxReachableOperations := 2 ^ 20
  maxInvocations := 2 ^ 20
  maxWorkgroups := 2 ^ 20
  maxScheduledSlots := 2 ^ 22
  maxSteps := 2 ^ 28
  maxCallDepth := 128
  maxSsaValues := 65536
  maxAllocations := 65536
  maxAllocationBytes := 2 ^ 30
  maxTotalBytes := 2 ^ 30
  maxResidentBytes := 2 ^ 32
  maxEvents := 2 ^ 24
  maxMemoryAccessRecords := 65536

inductive SimulationLimitsError where
  | zero (field : String)
  | aboveHardCap (field : String)
  deriving DecidableEq

/-- One limit: nonzero and at most its hard cap. -/
def SimulationLimits.checkField (entry : String × Nat × Nat) : Except SimulationLimitsError Unit :=
  if entry.2.1 = 0 then .error (.zero entry.1)
  else if entry.2.2 < entry.2.1 then .error (.aboveHardCap entry.1)
  else .ok ()

def SimulationLimits.fields (limits : SimulationLimits) : List (String × Nat × Nat) :=
  [("max_canonical_bytes", limits.maxCanonicalBytes, 2 ^ 24),
   ("max_reachable_functions", limits.maxReachableFunctions, 16384),
   ("max_reachable_operations", limits.maxReachableOperations, 2 ^ 22),
   ("max_invocations", limits.maxInvocations, 2 ^ 32),
   ("max_workgroups", limits.maxWorkgroups, 2 ^ 32),
   ("max_scheduled_slots", limits.maxScheduledSlots, 2 ^ 32),
   ("max_steps", limits.maxSteps, 2 ^ 40),
   ("max_call_depth", limits.maxCallDepth, 1024),
   ("max_ssa_values", limits.maxSsaValues, 2 ^ 20),
   ("max_allocations", limits.maxAllocations, 2 ^ 20),
   ("max_allocation_bytes", limits.maxAllocationBytes, 2 ^ 32),
   ("max_total_bytes", limits.maxTotalBytes, 2 ^ 32),
   ("max_resident_bytes", limits.maxResidentBytes, 2 ^ 34),
   ("max_events", limits.maxEvents, 2 ^ 40),
   ("max_memory_access_records", limits.maxMemoryAccessRecords, 2 ^ 20)]

def SimulationLimits.validate (limits : SimulationLimits) :
    Except SimulationLimitsError SimulationLimits := do
  limits.fields.forM checkField
  return limits

structure VirtualRuntimeConfig where
  runtimeIdentity : IdentityDigest
  target : VirtualTargetProfile
  runtimeLimits : VirtualRuntimeLimits
  simulationLimits : SimulationLimits
  deriving DecidableEq

/-! ### Buffers, arguments and requests -/

inductive VirtualBufferAccess where
  | readOnly
  | readWrite
  deriving DecidableEq

def VirtualBufferAccess.permits : VirtualBufferAccess → AccessMode → Bool
  | readOnly, .readOnly => true
  | readWrite, .readOnly => true
  | readWrite, .writeOnly => true
  | readWrite, .readWrite => true
  | _, _ => false

def VirtualBufferAccess.modelAccess : VirtualBufferAccess → MemoryAccess
  | readOnly => .read
  | readWrite => .readWrite

structure ScalarBits where
  ty : ScalarType
  bits : Nat
  deriving DecidableEq

/-- The fields of a buffer argument. -/
structure BufferView where
  buffer : VirtualBufferHandle
  element : ScalarType
  access : AccessMode
  alignment : Nat
  byteOffset : Nat
  elements : Nat
  deriving DecidableEq

inductive VirtualArgument where
  | scalar (value : ScalarBits)
  | buffer (view : BufferView)
  deriving DecidableEq

/-- The view of a buffer argument. -/
def VirtualArgument.view? : VirtualArgument → Option BufferView
  | scalar _ => none
  | buffer view => some view

/-- A grid or a workgroup. -/
structure Extent where
  x : Nat
  y : Nat
  z : Nat
  deriving DecidableEq

structure VirtualDispatchRequest where
  kernel : String
  grid : Extent
  workgroup : Extent
  arguments : List VirtualArgument
  dependencies : List VirtualCompletionHandle
  deriving DecidableEq

structure DynamicWorkgroupMemoryRequest where
  byteExtent : Nat
  deriving DecidableEq

/-- The bytes of one element; an index has 64 bits. -/
def virtualScalarBytes (element : ScalarType) : Option Nat :=
  (if element = .index then some 64 else element.bitWidth).map fun bits =>
    if bits = 1 then 1 else bits / 8

/-- Where a view of `elements` elements ends. -/
def viewEnd (byteOffset elements elementBytes : Nat) : Option Nat :=
  (checkedMul elements elementBytes).bind fun bytes => checkedAdd byteOffset bytes

/-! ### Modules -/

structure KernelIrIdentity where
  wireVersion : Nat
  digest : IdentityDigest
  canonicalLength : Nat
  deriving DecidableEq

/-- An admitted module: its identity and the capabilities it declares. -/
structure AdmittedModule where
  identity : KernelIrIdentity
  effectiveCapabilities : List TargetCapability
  deriving DecidableEq

def amdgpuExactTargetCapabilityNamespace : String := "fe2o3.amdgpu.target"

/-! ### What a simulation is asked and answers -/

/-- A buffer as the simulator receives it. -/
structure BufferArgument where
  element : ScalarType
  access : AccessMode
  alignment : Nat
  bytes : List UInt8
  initialized : List Bool
  deriving DecidableEq

inductive SimulationArgument where
  | scalar (value : ScalarBits)
  | bufferView (backing : Nat) (element : ScalarType) (access : AccessMode)
      (alignment byteOffset elements : Nat)
  deriving DecidableEq

/-- The shared buffers carry their positions as backing ids. -/
structure SharedBuffer where
  id : Nat
  buffer : BufferArgument
  deriving DecidableEq

structure SimulationRequest where
  kernel : String
  grid : Extent
  workgroup : Extent
  arguments : List SimulationArgument
  sharedBuffers : List SharedBuffer
  deriving DecidableEq

structure SimulationError where
  text : String
  deriving DecidableEq

inductive SimulationScheduleIdentity where
  | workgroupMajorLocalZyxSerial
  | workgroupMajorLocalZyxCooperative
  | workgroupMajorSeededRunnableCooperative
  deriving DecidableEq

inductive VirtualConflictState where
  | noneObserved
  | observed
  | incomplete
  deriving DecidableEq

inductive VirtualRaceState where
  | noneObserved
  | observed
  | incomplete
  deriving DecidableEq

/-- One store of a simulation into a backing. -/
structure BackingWrite where
  backing : Nat
  offset : Nat
  bytes : List UInt8
  deriving DecidableEq

/-- A finished simulation: what it reports, and its stores in order. -/
structure Execution where
  identity : KernelIrIdentity
  invocationsExecuted : Nat
  workgroupsVisited : Nat
  scheduledSlotsVisited : Nat
  stepsExecuted : Nat
  schedule : SimulationScheduleIdentity
  scheduleTranscriptIdentity : IdentityDigest
  scheduleDecisions : Nat
  scheduleBarrierReleases : Nat
  conflictAssessment : VirtualConflictState
  raceAssessment : VirtualRaceState
  writes : List BackingWrite
  deriving DecidableEq

/-- Replaces the elements from an offset on; nothing past the end is touched. -/
def overwrite {α : Type} (offset : Nat) (new old : List α) : List α :=
  old.mapIdx fun i x => if offset ≤ i then (new[i - offset]?).getD x else x

/-- A store into one shared buffer, if it is its backing. -/
def BackingWrite.touch (entry : SharedBuffer) (write : BackingWrite) : SharedBuffer :=
  if entry.id = write.backing then
    { entry with buffer := { entry.buffer with
        bytes := overwrite write.offset write.bytes entry.buffer.bytes
        initialized :=
          overwrite write.offset (write.bytes.map fun _ => true) entry.buffer.initialized } }
  else entry

def BackingWrite.apply (shared : List SharedBuffer) (write : BackingWrite) : List SharedBuffer :=
  shared.map write.touch

/-- The shared buffers after a simulation. -/
def Execution.outputs (execution : Execution) (shared : List SharedBuffer) : List SharedBuffer :=
  execution.writes.foldl BackingWrite.apply shared

/-! ### Completions and results -/

inductive VirtualCompletionState where
  | prepared
  | cancelled
  | completed
  | abortedDependency
  | abortedSimulation
  | ambiguous
  | failedQuiescent
  deriving DecidableEq

inductive VirtualCompletionAmbiguity where
  | publicationOutcomeUnknown
  | waitDeadlineExpired
  deriving DecidableEq

structure VirtualSimulationSummary where
  kirIdentity : KernelIrIdentity
  target : VirtualTargetProfile
  dynamicWorkgroupMemory : Option DynamicWorkgroupMemoryRequest
  invocationsExecuted : Nat
  workgroupsVisited : Nat
  scheduledSlotsVisited : Nat
  stepsExecuted : Nat
  schedule : SimulationScheduleIdentity
  scheduleTranscriptIdentity : IdentityDigest
  scheduleDecisions : Nat
  scheduleBarrierReleases : Nat
  conflictState : VirtualConflictState
  raceState : VirtualRaceState
  deriving DecidableEq

structure VirtualResetSummary where
  previousRuntimeIdentity : IdentityDigest
  replacementRuntimeIdentity : IdentityDigest
  cancelledPreparedDispatches : Nat
  settledAmbiguousDispatches : Nat
  releasedBuffers : Nat
  releasedModules : Nat
  releasedQueues : Nat
  deriving DecidableEq

inductive VirtualRunProgress where
  | completed (completion : VirtualCompletionHandle) (summary : VirtualSimulationSummary)
  | abortedDependency (completion dependency : VirtualCompletionHandle)
  | blocked
  | idle
  deriving DecidableEq

inductive VirtualRuntimeError where
  | invalidRuntimeIdentity
  | reusedResetIdentity
  | invalidLimit (field : String)
  | capacityExceeded (kind : String)
  | byteLengthOverflow
  | invalidBufferRange
  | uninitializedHostRead (offset : Nat)
  | foreignHandle (kind : HandleKind)
  | unknownHandle (kind : HandleKind) (ordinal : Nat)
  | releasedHandle (kind : HandleKind) (ordinal : Nat)
  | invalidBufferAccess (ordinal : Nat)
  | hostAccessWhileRetained (ordinal : Nat)
  | duplicateDependency (ordinal : Nat)
  | forwardDependency (ordinal : Nat)
  | completionNotPrepared (ordinal : Nat)
  | completionNotAmbiguous (ordinal : Nat)
  | queueNotQuiescent (ordinal : Nat)
  | queueHasPreparedDispatch (queue completion : Nat)
  | exactTargetMismatch (moduleTarget runtimeTarget : String)
  | multipleExactTargets (first second : String)
  | model (error : TransitionError)
  | simulation (completion : VirtualCompletionHandle) (source : SimulationError)
  | simulatorBuffer (detail : String)
  deriving DecidableEq

/-- The errors about the buffer. -/
inductive VirtualHostLifetimeCaptureError where
  | foreignBuffer
  | unknownBuffer
  | releasedBuffer
  | bufferNotRetained
  | inconsistentRetention
  deriving DecidableEq

/-! ### The environment of a call -/

/-- The places where memory is reserved, with a position where a loop reserves. -/
inductive Reservation where
  | allocationBytes
  | initializationBytes
  | dispatchStorage
  | dispatchBuffers (argument : Nat)
  | dispatchResources
  | simulatorHandles
  | simulatorShared
  | simulatorBytes (backing : Nat)
  | simulatorInitialized (backing : Nat)
  | simulatorArguments
  | copyback
  | copybackBytes (backing : Nat)
  | copybackInitialized (backing : Nat)
  | writableRanges
  | resetTransitions
  deriving DecidableEq

/-- Sizes of the layout, and the capacities that a request's vectors happen to have. -/
structure RequestStorage where
  sizeOfRequest : Nat
  sizeOfArgument : Nat
  kernelBytes : Nat
  argumentCapacity : Nat
  dependencyCapacity : Nat
  retainedBufferCapacity : Nat
  deriving DecidableEq

/-- The answers that a call gets from outside: memory, and the simulator of a module. -/
structure Environment where
  reserves : Reservation → Bool
  storage : RequestStorage
  simulate : AdmittedModule → SimulationRequest → Option DynamicWorkgroupMemoryRequest →
    SimulationLimits → Nat → Except SimulationError Execution

/-! ### Checks of the limits -/

def VirtualRuntimeLimits.fields (limits : VirtualRuntimeLimits) : List (String × Nat) :=
  [("max_user_allocations", limits.maxUserAllocations),
   ("max_total_user_bytes", limits.maxTotalUserBytes),
   ("max_modules", limits.maxModules),
   ("max_queues", limits.maxQueues),
   ("max_dispatches", limits.maxDispatches),
   ("max_arguments_per_dispatch", limits.maxArgumentsPerDispatch),
   ("max_dependencies_per_dispatch", limits.maxDependenciesPerDispatch),
   ("max_retained_dispatch_bytes", limits.maxRetainedDispatchBytes),
   ("max_schedule_decisions", limits.maxScheduleDecisions)]

/-- Fails when a limit exceeds its cap. -/
def VirtualRuntimeLimits.cap (value maximum : Nat) (field : String) :
    Except VirtualRuntimeError Unit :=
  if maximum < value then .error (.invalidLimit field) else .ok ()

def VirtualRuntimeLimits.validate (limits : VirtualRuntimeLimits) :
    Except VirtualRuntimeError VirtualRuntimeLimits := do
  match limits.fields.find? (fun field => field.2 == 0) with
  | some (field, _) => .error (.invalidLimit field)
  | none =>
    cap limits.maxUserAllocations maxAllocations "max_user_allocations"
    cap limits.maxModules maxLoadedCode "max_modules"
    cap limits.maxQueues RuntimeModel.maxQueues "max_queues"
    cap limits.maxDispatches RuntimeModel.maxDispatches "max_dispatches"
    cap limits.maxArgumentsPerDispatch hardMaxArgumentsPerDispatch "max_arguments_per_dispatch"
    cap limits.maxRetainedDispatchBytes hardMaxRetainedDispatchBytes "max_retained_dispatch_bytes"
    let aggregateAllocations ← okOr (.invalidLimit "aggregate model allocations")
      ((checkedAdd limits.maxUserAllocations limits.maxModules).bind fun count =>
        checkedAdd count limits.maxQueues)
    cap aggregateAllocations (min maxAllocations maxMappings) "aggregate model allocations"
    return limits

end Fe2o3.Virtual
