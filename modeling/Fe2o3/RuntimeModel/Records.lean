import Fe2o3.Lib.Words

/-!
# The records of the runtime model

Keys, lifecycle states, records, transitions and errors of `fe2o3-runtime-model`
(`identity.rs`, `model.rs`).

A key names its parents: a mapping lies in an allocation, an allocation in a VM
and a VM on one incarnation of a device.  The 64-bit identities are natural
numbers; a digest of 32 bytes is the number it spells in big-endian order, which
keeps equality and the order of digests.
-/

namespace Fe2o3.RuntimeModel

/-! ### Bounds -/

def maxDevices : Nat := 16
def maxVms : Nat := 64
def maxAllocations : Nat := 4096
def maxMappings : Nat := 4096
def maxLoadedCode : Nat := 256
def maxQueues : Nat := 256
def maxDispatches : Nat := 32768
def maxCompletions : Nat := maxDispatches
def maxDispatchResources : Nat := 256
def maxQueueCapacity : Nat := 16384
def aqlPacketBytes : Nat := 64

/-! ### Keys -/

abbrev IdentityDigest := Nat

/-- One incarnation of a physical device. -/
structure DeviceKey where
  physical : Nat
  generation : Nat
  deriving DecidableEq, Repr

structure VmKey where
  device : DeviceKey
  id : Nat
  deriving DecidableEq, Repr

structure AllocationKey where
  vm : VmKey
  id : Nat
  deriving DecidableEq, Repr

structure MappingKey where
  allocation : AllocationKey
  id : Nat
  deriving DecidableEq, Repr

structure LoadedCodeKey where
  vm : VmKey
  id : Nat
  deriving DecidableEq, Repr

structure QueueKey where
  vm : VmKey
  id : Nat
  generation : Nat
  deriving DecidableEq, Repr

structure DispatchKey where
  queue : QueueKey
  id : Nat
  deriving DecidableEq, Repr

structure CompletionKey where
  dispatch : DispatchKey
  id : Nat
  deriving DecidableEq, Repr

/-- The numbers of a mapping key, in the order in which keys are compared. -/
def MappingKey.numbers (key : MappingKey) : List Nat :=
  [key.allocation.vm.device.physical, key.allocation.vm.device.generation, key.allocation.vm.id,
    key.allocation.id, key.id]

/-- The derived lexicographic order of mapping keys. -/
def MappingKey.precedes (left right : MappingKey) : Bool := decide (left.numbers < right.numbers)

/-! ### Lifecycle states -/

inductive DeviceState where
  | ready
  | mayStillAccess
  | quiescent
  | released
  deriving DecidableEq, Repr

inductive VmState where
  | active
  | mayStillAccess
  | quiescent
  | released
  deriving DecidableEq, Repr

inductive ResourceState where
  | live
  | released
  deriving DecidableEq, Repr

inductive QueueState where
  | ready
  | mayStillAccess
  | quiescent
  | released
  deriving DecidableEq, Repr

inductive DispatchState where
  | prepared
  | published
  | ambiguous
  | completed
  | failedQuiescent
  | abortedBeforePublication
  deriving DecidableEq, Repr

def DispatchState.retainsResources : DispatchState → Bool
  | prepared | published | ambiguous => true
  | _ => false

inductive CompletionState where
  | armed
  | ambiguous
  | observed
  | quiescedFailure
  | cancelledBeforePublication
  deriving DecidableEq, Repr

inductive MemoryAccess where
  | read
  | readWrite
  | readExecute
  deriving DecidableEq, Repr

def MemoryAccess.permits : MemoryAccess → MemoryAccess → Bool
  | .read, .read | .readWrite, .read | .readWrite, .readWrite | .readExecute, .read
  | .readExecute, .readExecute => true
  | _, _ => false

def completionMatches : DispatchState → CompletionState → Bool
  | .prepared, .armed | .published, .armed | .ambiguous, .ambiguous | .completed, .observed
  | .failedQuiescent, .quiescedFailure
  | .abortedBeforePublication, .cancelledBeforePublication => true
  | _, _ => false

/-! ### Records -/

structure DispatchResource where
  mapping : MappingKey
  requiredAccess : MemoryAccess
  deriving DecidableEq, Repr

structure DeviceRecord where
  key : DeviceKey
  state : DeviceState
  deriving DecidableEq, Repr

structure VmRecord where
  key : VmKey
  state : VmState
  deriving DecidableEq, Repr

structure AllocationRecord where
  key : AllocationKey
  byteLen : Nat
  state : ResourceState
  deriving DecidableEq, Repr

structure MappingRecord where
  key : MappingKey
  allocationOffset : Nat
  gpuVa : Nat
  byteLen : Nat
  access : MemoryAccess
  state : ResourceState
  deriving DecidableEq, Repr

structure LoadedCodeRecord where
  key : LoadedCodeKey
  loadPlanId : IdentityDigest
  artifactId : IdentityDigest
  executableMapping : MappingKey
  entryOffset : Nat
  state : ResourceState
  deriving DecidableEq, Repr

structure QueueRecord where
  key : QueueKey
  planId : IdentityDigest
  ringMapping : MappingKey
  capacity : Nat
  state : QueueState
  deriving DecidableEq, Repr

structure DispatchRecord where
  key : DispatchKey
  code : LoadedCodeKey
  completion : CompletionKey
  resources : List DispatchResource
  state : DispatchState
  deriving DecidableEq, Repr

structure CompletionRecord where
  key : CompletionKey
  state : CompletionState
  deriving DecidableEq, Repr

/-! ### Errors -/

inductive RecordKind where
  | device
  | vm
  | allocation
  | mapping
  | loadedCode
  | queue
  | dispatch
  | completion
  | dispatchResource
  deriving DecidableEq, Repr

inductive RecordRef where
  | device (key : DeviceKey)
  | vm (key : VmKey)
  | allocation (key : AllocationKey)
  | mapping (key : MappingKey)
  | loadedCode (key : LoadedCodeKey)
  | queue (key : QueueKey)
  | dispatch (key : DispatchKey)
  | completion (key : CompletionKey)
  deriving DecidableEq, Repr

inductive InvariantViolation where
  | capacityExceeded (kind : RecordKind)
  | duplicate (record : RecordRef)
  | missingParent (record : RecordRef)
  | bindingMismatch (record : RecordRef)
  | invalidRange (record : RecordRef)
  | invalidAccess (record : RecordRef)
  | invalidGeneration (device : DeviceKey)
  | invalidState (record : RecordRef)
  | addressOverlap (earlier later : MappingKey)
  | nonCanonicalResources (dispatch : DispatchKey)
  | completionMismatch (dispatch : DispatchKey)
  | earlyRelease (record : RecordRef)
  | queueOversubscribed (queue : QueueKey)
  deriving DecidableEq, Repr

inductive TransitionError where
  | sourceInvariant (violation : InvariantViolation)
  | nextInvariant (violation : InvariantViolation)
  | capacityExceeded (kind : RecordKind) (maximum : Nat)
  | notFound (record : RecordRef)
  | alreadyExists (record : RecordRef)
  | illegalState (record : RecordRef)
  | bindingMismatch (record : RecordRef)
  | generationNotMonotonic (device : DeviceKey)
  | invalidRange (record : RecordRef)
  | invalidAccess (record : RecordRef)
  | addressConflict (mapping : MappingKey)
  | nonCanonicalResources (dispatch : DispatchKey)
  | resourceInUse (record : RecordRef)
  | queueFull (queue : QueueKey)
  | completionMismatch (dispatch : DispatchKey)
  | notQuiescent (record : RecordRef)
  deriving DecidableEq, Repr

/-! ### Transitions -/

inductive RuntimeTransition where
  | addDevice (key : DeviceKey)
  | beginDeviceFailure (key : DeviceKey)
  | establishDeviceQuiescence (key : DeviceKey)
  | releaseDevice (key : DeviceKey)
  | createVm (key : VmKey)
  | beginVmFailure (key : VmKey)
  | establishVmQuiescence (key : VmKey)
  | releaseVm (key : VmKey)
  | allocate (key : AllocationKey) (byteLen : Nat)
  | releaseAllocation (key : AllocationKey)
  | map (key : MappingKey) (allocationOffset gpuVa byteLen : Nat) (access : MemoryAccess)
  | unmap (key : MappingKey)
  | loadCode (key : LoadedCodeKey) (loadPlanId artifactId : IdentityDigest)
      (executableMapping : MappingKey) (entryOffset : Nat)
  | unloadCode (key : LoadedCodeKey)
  | createQueue (key : QueueKey) (planId : IdentityDigest) (ringMapping : MappingKey)
      (capacity : Nat)
  | beginQueueFailure (key : QueueKey)
  | establishQueueQuiescence (key : QueueKey)
  | releaseQueue (key : QueueKey)
  | prepareDispatch (key : DispatchKey) (code : LoadedCodeKey) (completion : CompletionKey)
      (resources : List DispatchResource)
  | abortPrepared (completion : CompletionKey)
  | publishDispatch (completion : CompletionKey)
  | markDispatchAmbiguous (completion : CompletionKey)
  | observeCompletion (completion : CompletionKey)
  | settleAfterQuiescence (completion : CompletionKey)
  deriving DecidableEq, Repr

/-! ### Arithmetic of the source -/

export Lib.Words (checkedAdd checkedAdd_eq_some checkedAdd_eq_none checkedSub isPowerOfTwo)

/-- `u64::checked_mul`. -/
def checkedMul (left right : Nat) : Option Nat :=
  if left * right < 2 ^ 64 then some (left * right) else none

/-- Overlap of two half-open ranges; the ends wrap around like unchecked `u64` sums. -/
def rangesOverlap (leftStart leftLen rightStart rightLen : Nat) : Bool :=
  let leftEnd := (leftStart + leftLen) % 2 ^ 64
  let rightEnd := (rightStart + rightLen) % 2 ^ 64
  decide (leftStart < rightEnd) && decide (rightStart < leftEnd)

/-- A range that is empty, leaves its allocation or wraps around in the address space. -/
def invalidMappingRange (allocationOffset gpuVa byteLen allocationLen : Nat) : Bool :=
  byteLen == 0 || (checkedAdd allocationOffset byteLen).all
    (fun stop => decide (allocationLen < stop))
    || (checkedAdd gpuVa byteLen).isNone

/-- A ring that is empty, too long or not a power of two. -/
def invalidQueueCapacity (capacity : Nat) : Bool :=
  capacity == 0 || decide (maxQueueCapacity < capacity) || !isPowerOfTwo capacity

/-- Two neighbours whose mappings do not ascend. -/
def unorderedResources : List DispatchResource → Bool
  | first :: second :: rest =>
    !first.mapping.precedes second.mapping || unorderedResources (second :: rest)
  | _ => false

end Fe2o3.RuntimeModel
