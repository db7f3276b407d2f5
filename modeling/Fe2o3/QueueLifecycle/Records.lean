import Fe2o3.MemoryLifecycle.Validation

/-!
**Plans, phases and records of compute-AQL queues**, from
`fe2o3-runtime-model/src/queue_lifecycle.rs`.

A plan binds a queue to the mapped resources that it needs and to the publications
that keep them mapped.  The record of a queue is its plan, which never changes, and a
status, which transitions replace.
-/

namespace Fe2o3.QueueLifecycle

open Lib
open MemoryLifecycle
open RuntimeModel (DeviceKey VmKey QueueKey MemoryAccess IdentityDigest)

/-! ### Bounds -/

def queueLifecycleSchemaVersion : Nat := 1
def maxComputeAqlQueues : Nat := 16
def maxQueueHistoryEntries : Nat := 256
def createQueueIdSentinel : Nat := 2 ^ 32 - 1

/-! ### Keys of queues -/

def queueNumbers (key : QueueKey) : List Nat := vmNumbers key.vm ++ [key.id, key.generation]

theorem queueNumbers_injective : Function.Injective queueNumbers := by
  rintro ⟨vm, id, generation⟩ ⟨vm', id', generation'⟩ h
  obtain ⟨hvm, hrest⟩ := List.append_inj h rfl
  obtain rfl : vm = vm' := vmNumbers_injective hvm
  obtain ⟨rfl, rfl⟩ := hrest
  rfl

instance : LinearKey QueueKey where
  orderKey := queueNumbers
  injective := queueNumbers_injective

/-! ### Identities of devices -/

inductive DeviceAdmissionTargetProfile where
  | gfx942XnackMinusSpxNps1Kfd118Drm3640
  | gfx950XnackMinusSpxNps1Kfd118Drm3640
  deriving DecidableEq, Repr

/-- A device as it was observed.  `observed` stands for the identity, the epoch and the nodes,
    which are compared and not read. -/
structure ModelCorrelatedDevice where
  profileId : IdentityDigest
  targetProfile : DeviceAdmissionTargetProfile
  observed : IdentityDigest
  deriving DecidableEq, Repr

/-- The admission of a device with the observation that it rests on. -/
structure CorrelatedDeviceAdmission extends ModelDeviceAdmission where
  correlation : ModelCorrelatedDevice
  deriving DecidableEq, Repr

inductive ModelAdmissionStatus where
  | active
  | retired
  deriving DecidableEq, Repr

structure ModelDeviceAdmissionRecord where
  key : DeviceKey
  domainId : IdentityDigest
  profileId : IdentityDigest
  correlation : ModelCorrelatedDevice
  status : ModelAdmissionStatus
  deriving DecidableEq, Repr

structure ModelVmAdmissionRecord where
  key : VmKey
  domainId : IdentityDigest
  status : ModelAdmissionStatus
  deriving DecidableEq, Repr

/-- A snapshot of the devices and VMs that are admitted. -/
structure DeviceIdentityState where
  domainId : IdentityDigest
  devices : List ModelDeviceAdmissionRecord
  vms : List ModelVmAdmissionRecord
  deriving DecidableEq, Repr

/-! ### Plans -/

inductive ComputeAqlTargetProfile where
  | gfx942XnackMinusSpxNps1Kfd118
  | gfx950XnackMinusSpxNps1Kfd118
  deriving DecidableEq, Repr

def ComputeAqlTargetProfile.deviceTargetProfile :
    ComputeAqlTargetProfile → DeviceAdmissionTargetProfile
  | gfx942XnackMinusSpxNps1Kfd118 => .gfx942XnackMinusSpxNps1Kfd118Drm3640
  | gfx950XnackMinusSpxNps1Kfd118 => .gfx950XnackMinusSpxNps1Kfd118Drm3640

inductive ComputeAqlResourceRole where
  | ring
  | control
  | endOfPipe
  | contextSave
  | privateScratch
  deriving DecidableEq, Repr

/-- A mapped resource and the publication that retains it. -/
structure ComputeAqlResourceBinding where
  mapping : MemoryMappingKey
  publication : MemoryPublicationKey
  expectedKind : MemoryKind
  expectedCoherence : MemoryCoherence
  expectedAccess : MemoryAccess
  deriving DecidableEq, Repr

structure ComputeAqlQueueResources where
  ring : ComputeAqlResourceBinding
  control : ComputeAqlResourceBinding
  eop : ComputeAqlResourceBinding
  contextSave : ComputeAqlResourceBinding
  privateScratch : Option ComputeAqlResourceBinding
  deriving DecidableEq, Repr

namespace ComputeAqlQueueResources

def ordered (resources : ComputeAqlQueueResources) :
    List (ComputeAqlResourceRole × ComputeAqlResourceBinding) :=
  [(.ring, resources.ring), (.control, resources.control), (.endOfPipe, resources.eop),
    (.contextSave, resources.contextSave)] ++
    (resources.privateScratch.map fun scratch =>
      (ComputeAqlResourceRole.privateScratch, scratch)).toList

/-- The publications that retain the resources. -/
def publications (resources : ComputeAqlQueueResources) : List MemoryPublicationKey :=
  resources.ordered.map fun entry => entry.2.publication

def sharesMappingWith (resources other : ComputeAqlQueueResources) : Bool :=
  resources.ordered.any fun left => other.ordered.any fun right =>
    left.2.mapping == right.2.mapping || left.2.mapping.allocation == right.2.mapping.allocation

end ComputeAqlQueueResources

structure ComputeAqlQueuePlan where
  schemaVersion : Nat
  target : ComputeAqlTargetProfile
  domainId : IdentityDigest
  planId : IdentityDigest
  currentDevice : CorrelatedDeviceAdmission
  queue : QueueKey
  initialConfiguration : IdentityDigest
  resources : ComputeAqlQueueResources
  deriving DecidableEq, Repr

/-! ### Observations of system calls -/

inductive CreateQueueIdFieldObservation where
  | sentinelUnchanged
  | returned (queueId : Nat)
  deriving DecidableEq, Repr

inductive QueueSyscallStatus where
  | succeeded
  | failedNoEffect
  | indeterminate
  deriving DecidableEq, Repr

structure QueueCreateObservation where
  status : QueueSyscallStatus
  queueIdField : CreateQueueIdFieldObservation
  deriving DecidableEq, Repr

/-- The identifier that the kernel returned, if it wrote one. -/
def QueueCreateObservation.queueId (observation : QueueCreateObservation) : Option Nat :=
  match observation.queueIdField with
  | .sentinelUnchanged => none
  | .returned queueId => if queueId ≠ createQueueIdSentinel then some queueId else none

/-! ### Phases -/

inductive ComputeAqlQueuePhase where
  | planned
  | createPending
  | active
  | updatePending
  | disablePending
  | disabled
  | destroyPending
  | cancelledBeforeCreate
  | destroyed
  | ambiguous
  deriving DecidableEq, Repr

namespace ComputeAqlQueuePhase

def retainsResources : ComputeAqlQueuePhase → Bool
  | cancelledBeforeCreate | destroyed => false
  | _ => true

def hasExclusiveNativeQueueId : ComputeAqlQueuePhase → Bool
  | active | updatePending | disablePending | disabled | destroyPending => true
  | _ => false

end ComputeAqlQueuePhase

/-! ### History -/

inductive QueueHistoryEventKind where
  | planAdmitted
  | planCancelled
  | createBegan
  | createSucceeded
  | createFailedNoEffect
  | createAmbiguous
  | updateBegan
  | updateSucceeded
  | updateFailedNoEffect
  | updateAmbiguous
  | disableBegan
  | disableSucceeded
  | disableFailedNoEffect
  | disableAmbiguous
  | destroyBegan
  | destroySucceeded
  | destroyFailedNoEffect
  | destroyAmbiguous
  | currentnessLost
  deriving DecidableEq, Repr

structure QueueHistoryEntry where
  sequence : Nat
  queue : QueueKey
  event : QueueHistoryEventKind
  before : ComputeAqlQueuePhase
  after : ComputeAqlQueuePhase
  queueId : Option Nat
  configuration : IdentityDigest
  deriving DecidableEq, Repr

/-- The phases that an event leads from and to. -/
def historyEdgeIsValid (entry : QueueHistoryEntry) : Bool :=
  match entry.event, entry.before, entry.after with
  | .planAdmitted, .planned, .planned => true
  | .planCancelled, .planned, .cancelledBeforeCreate => true
  | .createBegan, .planned, .createPending => true
  | .createSucceeded, .createPending, .active => true
  | .createFailedNoEffect, .createPending, .planned => true
  | .createAmbiguous, .createPending, .ambiguous => true
  | .updateBegan, .active, .updatePending => true
  | .updateBegan, .disabled, .updatePending => true
  | .updateSucceeded, .updatePending, .active => true
  | .updateFailedNoEffect, .updatePending, .active => true
  | .updateFailedNoEffect, .updatePending, .disabled => true
  | .updateAmbiguous, .updatePending, .ambiguous => true
  | .disableBegan, .active, .disablePending => true
  | .disableSucceeded, .disablePending, .disabled => true
  | .disableFailedNoEffect, .disablePending, .active => true
  | .disableAmbiguous, .disablePending, .ambiguous => true
  | .destroyBegan, .active, .destroyPending => true
  | .destroyBegan, .disabled, .destroyPending => true
  | .destroySucceeded, .destroyPending, .destroyed => true
  | .destroyFailedNoEffect, .destroyPending, .active => true
  | .destroyFailedNoEffect, .destroyPending, .disabled => true
  | .destroyAmbiguous, .destroyPending, .ambiguous => true
  | .currentnessLost, before, .ambiguous => before.retainsResources
  | _, _, _ => false

/-! ### Records -/

/-- The part of a record that transitions change. -/
structure QueueStatus where
  phase : ComputeAqlQueuePhase
  queueId : Option Nat
  configuration : IdentityDigest
  pendingConfiguration : Option IdentityDigest
  resumePhase : Option ComputeAqlQueuePhase
  deriving DecidableEq, Repr

structure ComputeAqlQueueRecord extends QueueStatus where
  plan : ComputeAqlQueuePlan
  deriving DecidableEq, Repr

namespace QueueStatus

def reservesKnownQueueId (status : QueueStatus) (candidate : Nat) : Bool :=
  (status.phase.hasExclusiveNativeQueueId || status.phase == .ambiguous) &&
    status.queueId == some candidate

def hasUnresolvedPossiblyNativeIdentity (status : QueueStatus) : Bool :=
  (status.phase == .createPending || status.phase == .ambiguous) && status.queueId.isNone

end QueueStatus

namespace ComputeAqlQueueRecord

/-- `queue_record_key_v1`. -/
def key (record : ComputeAqlQueueRecord) : QueueKey := record.plan.queue

/-- The record of a plan that was just admitted. -/
def planned (plan : ComputeAqlQueuePlan) : ComputeAqlQueueRecord :=
  ⟨⟨.planned, none, plan.initialConfiguration, none, none⟩, plan⟩

def become (status : QueueStatus) (record : ComputeAqlQueueRecord) : ComputeAqlQueueRecord :=
  { record with toQueueStatus := status }

end ComputeAqlQueueRecord

/-! ### Transitions and errors -/

inductive QueueTransition where
  | cancelPlan (queue : QueueKey)
  | beginCreate (queue : QueueKey)
  | observeCreate (queue : QueueKey) (observation : QueueCreateObservation)
  | beginUpdate (queue : QueueKey) (configuration : IdentityDigest)
  | observeUpdate (queue : QueueKey) (status : QueueSyscallStatus)
  | beginDisable (queue : QueueKey)
  | observeDisable (queue : QueueKey) (status : QueueSyscallStatus)
  | beginDestroy (queue : QueueKey)
  | observeDestroy (queue : QueueKey) (status : QueueSyscallStatus)
  | observeCurrentnessLost (queue : QueueKey)
  deriving DecidableEq, Repr

def QueueTransition.queue : QueueTransition → QueueKey
  | cancelPlan queue | beginCreate queue | observeCreate queue _ | beginUpdate queue _
  | observeUpdate queue _ | beginDisable queue | observeDisable queue _ | beginDestroy queue
  | observeDestroy queue _ | observeCurrentnessLost queue => queue

inductive QueueRecordKind where
  | queue
  | history
  deriving DecidableEq, Repr

inductive QueueInvariantViolation where
  | capacityExceeded (kind : QueueRecordKind)
  | domainMismatch (queue : QueueKey)
  | targetProfileMismatch (queue : QueueKey)
  | duplicateQueue (queue : QueueKey)
  | invalidIdentity (queue : QueueKey)
  | staleQueueGeneration (queue : QueueKey)
  | deviceNotCurrent (queue : QueueKey)
  | vmNotCurrent (queue : QueueKey)
  | missingResource (queue : QueueKey) (role : ComputeAqlResourceRole)
  | resourceBindingMismatch (queue : QueueKey) (role : ComputeAqlResourceRole)
  | resourceAlias (queue : QueueKey)
  | resourceReleasedEarly (queue : QueueKey) (role : ComputeAqlResourceRole)
  | queueIdCollision (queue : QueueKey)
  | concurrentCreatePending (queue : QueueKey)
  | invalidPhase (queue : QueueKey)
  | invalidHistory (queue : QueueKey)
  deriving DecidableEq, Repr

inductive QueueTransitionError where
  | sourceInvariant (violation : QueueInvariantViolation)
  | memory (error : MemoryTransitionError)
  | capacityExceeded (kind : QueueRecordKind) (maximum : Nat)
  | notFound (queue : QueueKey)
  | invalidPlan (violation : QueueInvariantViolation)
  | illegalState (queue : QueueKey) (phase : ComputeAqlQueuePhase)
  | invalidConfiguration (queue : QueueKey)
  | queueCreationPoisoned (queue : QueueKey)
  deriving DecidableEq, Repr

end Fe2o3.QueueLifecycle
