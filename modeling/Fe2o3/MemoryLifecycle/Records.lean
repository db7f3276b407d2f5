import Fe2o3.Lib.SearchTree
import Fe2o3.RuntimeModel.Records

/-!
**The records of the memory lifecycle** (`memory_lifecycle.rs`, and the peer-transfer
identities of `multi_device.rs`): keys and their order, lifecycle states, records,
transitions and errors.

A publication lies on a mapping, a mapping on an allocation, and an allocation and
its address reservation in a VM.  Keys are compared field by field, so the order of
a key is the lexicographic order of its numbers.  As in the runtime model, 64-bit
numbers and digests are natural numbers.
-/

namespace Fe2o3.MemoryLifecycle

open Lib List
open RuntimeModel (DeviceKey VmKey QueueKey MemoryAccess IdentityDigest)
open Lib.Words (checkedAdd isPowerOfTwo)

/-! ### Bounds -/

def memoryPageBytes : Nat := 4096
def maxMemoryVms : Nat := 64
def maxVaReservations : Nat := 512
def maxMemoryAllocations : Nat := 512
def maxMemoryMappings : Nat := 1024
def maxMemoryPublications : Nat := 2048
def maxMemoryMappingDevices : Nat := 16
def maxMemoryIssuedIdHighWatermarks : Nat :=
  maxMemoryVms * 2 + maxMemoryAllocations + maxMemoryMappings

/-! ### Keys -/

structure VaReservationKey where
  vm : VmKey
  id : Nat
  deriving DecidableEq, Repr

structure MemoryAllocationKey where
  vm : VmKey
  id : Nat
  generation : Nat
  deriving DecidableEq, Repr

structure MemoryMappingKey where
  allocation : MemoryAllocationKey
  id : Nat
  deriving DecidableEq, Repr

structure MemoryPublicationKey where
  mapping : MemoryMappingKey
  id : Nat
  deriving DecidableEq, Repr

/-- The scope in which an identity is issued. -/
inductive MemoryIssuedIdScope where
  | vaReservation (vm : VmKey)
  | allocation (vm : VmKey)
  | mapping (allocation : MemoryAllocationKey)
  | publication (mapping : MemoryMappingKey)
  deriving DecidableEq, Repr

/-! ### The order of keys -/

def deviceNumbers (key : DeviceKey) : List Nat := [key.physical, key.generation]

def vmNumbers (key : VmKey) : List Nat := deviceNumbers key.device ++ [key.id]

def VaReservationKey.numbers (key : VaReservationKey) : List Nat := vmNumbers key.vm ++ [key.id]

def MemoryAllocationKey.numbers (key : MemoryAllocationKey) : List Nat :=
  vmNumbers key.vm ++ [key.id, key.generation]

def MemoryMappingKey.numbers (key : MemoryMappingKey) : List Nat :=
  key.allocation.numbers ++ [key.id]

def MemoryPublicationKey.numbers (key : MemoryPublicationKey) : List Nat :=
  key.mapping.numbers ++ [key.id]

def MemoryIssuedIdScope.numbers : MemoryIssuedIdScope → List Nat
  | vaReservation vm => 0 :: vmNumbers vm
  | allocation vm => 1 :: vmNumbers vm
  | mapping key => 2 :: key.numbers
  | publication key => 3 :: key.numbers

theorem vmNumbers_injective : Function.Injective vmNumbers := by
  rintro ⟨⟨physical, generation⟩, id⟩ ⟨⟨physical', generation'⟩, id'⟩ h
  obtain ⟨rfl, rfl, rfl, -⟩ := h
  rfl

theorem VaReservationKey.numbers_injective : Function.Injective numbers := by
  rintro ⟨vm, id⟩ ⟨vm', id'⟩ h
  obtain ⟨hvm, hid⟩ := append_inj h rfl
  obtain rfl : vm = vm' := vmNumbers_injective hvm
  obtain rfl : id = id' := singleton_inj.mp hid
  rfl

theorem MemoryAllocationKey.numbers_injective : Function.Injective numbers := by
  rintro ⟨vm, id, generation⟩ ⟨vm', id', generation'⟩ h
  obtain ⟨hvm, hrest⟩ := append_inj h rfl
  obtain rfl : vm = vm' := vmNumbers_injective hvm
  obtain ⟨rfl, rfl⟩ := hrest
  rfl

theorem MemoryMappingKey.numbers_injective : Function.Injective numbers := by
  rintro ⟨allocation, id⟩ ⟨allocation', id'⟩ h
  obtain ⟨hallocation, hid⟩ := append_inj h rfl
  obtain rfl : allocation = allocation' := MemoryAllocationKey.numbers_injective hallocation
  obtain rfl : id = id' := singleton_inj.mp hid
  rfl

theorem MemoryPublicationKey.numbers_injective : Function.Injective numbers := by
  rintro ⟨mapping, id⟩ ⟨mapping', id'⟩ h
  obtain ⟨hmapping, hid⟩ := append_inj h rfl
  obtain rfl : mapping = mapping' := MemoryMappingKey.numbers_injective hmapping
  obtain rfl : id = id' := singleton_inj.mp hid
  rfl

theorem MemoryIssuedIdScope.numbers_injective : Function.Injective numbers := by
  intro scope other h
  cases scope <;> cases other <;> obtain ⟨htag, hrest⟩ := List.cons.inj h <;>
    first
    | exact absurd htag (by decide)
    | exact congrArg vaReservation (vmNumbers_injective hrest)
    | exact congrArg MemoryIssuedIdScope.allocation (vmNumbers_injective hrest)
    | exact congrArg mapping (MemoryAllocationKey.numbers_injective hrest)
    | exact congrArg publication (MemoryMappingKey.numbers_injective hrest)

instance : LinearKey VmKey where
  orderKey := vmNumbers
  injective := vmNumbers_injective

instance : LinearKey VaReservationKey where
  orderKey := VaReservationKey.numbers
  injective := VaReservationKey.numbers_injective

instance : LinearKey MemoryAllocationKey where
  orderKey := MemoryAllocationKey.numbers
  injective := MemoryAllocationKey.numbers_injective

instance : LinearKey MemoryMappingKey where
  orderKey := MemoryMappingKey.numbers
  injective := MemoryMappingKey.numbers_injective

instance : LinearKey MemoryPublicationKey where
  orderKey := MemoryPublicationKey.numbers
  injective := MemoryPublicationKey.numbers_injective

instance : LinearKey MemoryIssuedIdScope where
  orderKey := MemoryIssuedIdScope.numbers
  injective := MemoryIssuedIdScope.numbers_injective

/-! ### Admissions and peer transfers -/

structure ModelDeviceAdmission where
  domainId : IdentityDigest
  modelKey : DeviceKey
  deriving DecidableEq, Repr

structure ModelVmAdmission where
  domainId : IdentityDigest
  modelKey : VmKey
  deriving DecidableEq, Repr

def digestIsZero (digest : IdentityDigest) : Bool := digest == 0

/-- The identity of one peer transfer, as the owner of its publications. -/
structure PeerTransferPublicationOwner where
  registryIncarnation : IdentityDigest
  transferId : Nat
  topologyId : IdentityDigest
  completion : IdentityDigest
  deriving DecidableEq, Repr

def PeerTransferPublicationOwner.hasValidIdentity (owner : PeerTransferPublicationOwner) : Bool :=
  owner.transferId != 0 && !digestIsZero owner.registryIncarnation &&
    !digestIsZero owner.topologyId && !digestIsZero owner.completion

structure PeerTransferRetention where
  source : MemoryPublicationKey
  destination : MemoryPublicationKey
  deriving DecidableEq, Repr

structure PeerTransferBinding where
  registryIncarnation : IdentityDigest
  transferId : Nat
  topologyId : IdentityDigest
  completion : IdentityDigest
  retention : PeerTransferRetention
  deriving DecidableEq, Repr

namespace PeerTransferBinding

def publicationOwner (binding : PeerTransferBinding) : PeerTransferPublicationOwner :=
  ⟨binding.registryIncarnation, binding.transferId, binding.topologyId, binding.completion⟩

def retainsPublication (binding : PeerTransferBinding) (key : MemoryPublicationKey) : Bool :=
  key.id != 0 && (key == binding.retention.source || key == binding.retention.destination) &&
    binding.retention.source != binding.retention.destination && binding.transferId != 0 &&
    !digestIsZero binding.registryIncarnation && !digestIsZero binding.topologyId &&
    !digestIsZero binding.completion

end PeerTransferBinding

/-! ### Lifecycle states -/

/-- The addresses from `base` up to, and without, `base + byteLen`. -/
structure GpuVaRange where
  base : Nat
  byteLen : Nat
  deriving DecidableEq, Repr

def GpuVaRange.checkedEnd (range : GpuVaRange) : Option Nat := checkedAdd range.base range.byteLen

inductive MemoryKind where
  | hostVisibleCoherent
  | deviceLocal
  | queueStorage
  | kernarg
  | executable
  | scratchContextSave
  deriving DecidableEq, Repr

inductive MemoryCoherence where
  | hostCoherent
  | explicitVisibility
  deriving DecidableEq, Repr

structure MemoryAllocationSpec where
  byteLen : Nat
  alignment : Nat
  kind : MemoryKind
  coherence : MemoryCoherence
  deriving DecidableEq, Repr

inductive MemoryVmState where
  | active
  | retired
  deriving DecidableEq, Repr

inductive VaReservationState where
  | reserved
  | released
  deriving DecidableEq, Repr

inductive MemoryAllocationState where
  | live
  | released
  deriving DecidableEq, Repr

inductive MemoryMappingState where
  | mapPending
  | mapFailed
  | mapped
  | unmapPending
  | unmapFailed
  | unmapped
  | ambiguous
  | released
  deriving DecidableEq, Repr

inductive MemoryPublicationState where
  | live
  | released
  deriving DecidableEq, Repr

/-- Who keeps a mapping published. -/
inductive MemoryPublicationOwner where
  | generic
  | computeAqlQueue (queue : QueueKey)
  | peerTransfer (owner : PeerTransferPublicationOwner)
  deriving DecidableEq, Repr

inductive PartialOperationStatus where
  | succeeded
  | failed
  | indeterminate
  deriving DecidableEq, Repr

/-- What a map or unmap call over a list of devices reports. -/
structure PartialProgressObservation where
  nSuccess : Nat
  status : PartialOperationStatus
  deriving DecidableEq, Repr

/-! ### Records -/

structure MemoryVmRecord where
  admission : ModelVmAdmission
  mappingDevices : List ModelDeviceAdmission
  handle : Nat
  aperture : GpuVaRange
  state : MemoryVmState
  deriving DecidableEq, Repr

structure VaReservationRecord where
  key : VaReservationKey
  range : GpuVaRange
  alignment : Nat
  state : VaReservationState
  deriving DecidableEq, Repr

structure MemoryAllocationRecord where
  key : MemoryAllocationKey
  reservation : VaReservationKey
  handle : Nat
  spec : MemoryAllocationSpec
  state : MemoryAllocationState
  deriving DecidableEq, Repr

/-- The devices of `targetDevices` from `mappedStart` up to `mappedEnd` may still be mapped. -/
structure MemoryMappingRecord where
  key : MemoryMappingKey
  targetDevices : List DeviceKey
  access : MemoryAccess
  mappedStart : Nat
  mappedEnd : Nat
  state : MemoryMappingState
  deriving DecidableEq, Repr

/-- The slice of devices retained against unmapping and release, unless its bounds are out of
    order or beyond the devices, where the source panics. -/
def MemoryMappingRecord.retainedDeviceSuperset (mapping : MemoryMappingRecord) :
    Option (List DeviceKey) :=
  if mapping.mappedStart ≤ mapping.mappedEnd ∧ mapping.mappedEnd ≤ mapping.targetDevices.length then
    some ((mapping.targetDevices.take mapping.mappedEnd).drop mapping.mappedStart)
  else none

/-- The devices that may be mapped, as the state of the mapping wants them. -/
def MemoryMappingRecord.rangeIsValid (mapping : MemoryMappingRecord) : Bool :=
  match mapping.state with
  | .mapPending => mapping.mappedStart == 0 && mapping.mappedEnd == 0
  | .mapFailed => mapping.mappedStart == 0
  | .mapped => mapping.mappedStart == 0 && mapping.mappedEnd == mapping.targetDevices.length
  | .unmapPending => decide (mapping.mappedStart < mapping.mappedEnd)
  | .unmapFailed | .ambiguous => true
  | .unmapped => mapping.mappedStart == mapping.mappedEnd
  | .released => mapping.mappedStart == mapping.mappedEnd

structure MemoryPublicationRecord where
  key : MemoryPublicationKey
  owner : MemoryPublicationOwner
  state : MemoryPublicationState
  deriving DecidableEq, Repr

inductive MemoryIdentityDiscipline where
  | reusableGenerations
  | monotonicNonReusable
  deriving DecidableEq, Repr

/-- The greatest identity issued in a scope. -/
structure MemoryIssuedIdHighWatermark where
  scope : MemoryIssuedIdScope
  lastId : Nat
  deriving DecidableEq, Repr

def MemoryVmRecord.key (record : MemoryVmRecord) : VmKey := record.admission.modelKey

def MemoryVmRecord.retire (record : MemoryVmRecord) : MemoryVmRecord :=
  { record with state := .retired }

def VaReservationRecord.release (record : VaReservationRecord) : VaReservationRecord :=
  { record with state := .released }

def MemoryAllocationRecord.release (record : MemoryAllocationRecord) : MemoryAllocationRecord :=
  { record with state := .released }

def MemoryMappingRecord.enter (state : MemoryMappingState) (record : MemoryMappingRecord) :
    MemoryMappingRecord :=
  { record with state := state }

def MemoryPublicationRecord.release (record : MemoryPublicationRecord) : MemoryPublicationRecord :=
  { record with state := .released }

/-! ### Errors -/

inductive MemoryRecordKind where
  | vm
  | vaReservation
  | allocation
  | mapping
  | publication
  | issuedIdHighWatermark
  deriving DecidableEq, Repr

inductive MemoryRecordRef where
  | vm (key : VmKey)
  | vaReservation (key : VaReservationKey)
  | allocation (key : MemoryAllocationKey)
  | mapping (key : MemoryMappingKey)
  | publication (key : MemoryPublicationKey)
  deriving DecidableEq, Repr

inductive MemoryInvariantViolation where
  | capacityExceeded (kind : MemoryRecordKind)
  | domainMismatch (record : MemoryRecordRef)
  | duplicate (record : MemoryRecordRef)
  | missingParent (record : MemoryRecordRef)
  | bindingMismatch (record : MemoryRecordRef)
  | invalidIdentity (record : MemoryRecordRef)
  | invalidRange (record : MemoryRecordRef)
  | invalidAlignment (record : MemoryRecordRef)
  | deviceSetMismatch (record : MemoryRecordRef)
  | handleCollision (record : MemoryRecordRef)
  | staleGeneration (allocation : MemoryAllocationKey)
  | addressOverlap (earlier later : VaReservationKey)
  | invalidState (record : MemoryRecordRef)
  | earlyRelease (record : MemoryRecordRef)
  | invalidIssuedIdHighWatermark (watermark : MemoryIssuedIdHighWatermark)
  | journalIndexMismatch (kind : MemoryRecordKind)
  deriving DecidableEq, Repr

inductive MemoryTransitionError where
  | sourceInvariant (violation : MemoryInvariantViolation)
  | nextInvariant (violation : MemoryInvariantViolation)
  | capacityExceeded (kind : MemoryRecordKind) (maximum : Nat)
  | notFound (record : MemoryRecordRef)
  | alreadyExists (record : MemoryRecordRef)
  | observationDomainMismatch
  | invalidIdentity (record : MemoryRecordRef)
  | invalidRange (record : MemoryRecordRef)
  | invalidAlignment (record : MemoryRecordRef)
  | bindingMismatch (record : MemoryRecordRef)
  | deviceSetMismatch (record : MemoryRecordRef)
  | handleCollision (record : MemoryRecordRef)
  | staleGeneration (allocation : MemoryAllocationKey)
  | nonMonotonicIdentity (record : MemoryRecordRef)
  | addressConflict (reservation : VaReservationKey)
  | illegalState (record : MemoryRecordRef)
  | resourceInUse (record : MemoryRecordRef)
  | checkpointRequiresMonotonicIdentities
  deriving DecidableEq, Repr

/-! ### Transitions -/

inductive MemoryTransition where
  | acquireVm (admission : ModelVmAdmission) (mappingDevices : List ModelDeviceAdmission)
      (handle : Nat) (aperture : GpuVaRange)
  | retireVm (key : VmKey)
  | reserveVa (key : VaReservationKey) (range : GpuVaRange) (alignment : Nat)
  | releaseVaReservation (key : VaReservationKey)
  | allocate (key : MemoryAllocationKey) (reservation : VaReservationKey) (handle : Nat)
      (spec : MemoryAllocationSpec)
  | releaseAllocation (key : MemoryAllocationKey)
  | beginMap (key : MemoryMappingKey) (targetDevices : List DeviceKey) (access : MemoryAccess)
  | observeMap (key : MemoryMappingKey) (progress : PartialProgressObservation)
  | beginUnmap (key : MemoryMappingKey)
  | observeUnmap (key : MemoryMappingKey) (progress : PartialProgressObservation)
  | releaseMapping (key : MemoryMappingKey)
  | publishMapping (key : MemoryPublicationKey)
  | releasePublication (key : MemoryPublicationKey)
  deriving DecidableEq, Repr

/-! ### Ranges, alignments and devices -/

def validAlignment (alignment : Nat) : Bool :=
  decide (memoryPageBytes ≤ alignment) && isPowerOfTwo alignment

/-- `u64::is_multiple_of`. -/
def isMultipleOf (value factor : Nat) : Bool := value % factor == 0

def validPageRange (range : GpuVaRange) : Bool :=
  range.byteLen != 0 && isMultipleOf range.base memoryPageBytes &&
    isMultipleOf range.byteLen memoryPageBytes && range.checkedEnd.isSome

def rangeWithin (inner outer : GpuVaRange) : Bool :=
  match inner.checkedEnd, outer.checkedEnd with
  | some innerEnd, some outerEnd => decide (outer.base ≤ inner.base) && decide (innerEnd ≤ outerEnd)
  | _, _ => false

def rangesOverlap (left right : GpuVaRange) : Bool :=
  match left.checkedEnd, right.checkedEnd with
  | some leftEnd, some rightEnd => decide (left.base < rightEnd) && decide (right.base < leftEnd)
  | _, _ => true

/-- Every two neighbours ascend. -/
def ascendingDevices : List ModelDeviceAdmission → Bool
  | first :: second :: rest =>
    decide (deviceNumbers first.modelKey < deviceNumbers second.modelKey) &&
      ascendingDevices (second :: rest)
  | _ => true

/-- No two admissions are of one physical device. -/
def distinctDevices (earlier : List ModelDeviceAdmission) : List ModelDeviceAdmission → Bool
  | [] => true
  | admission :: rest =>
    earlier.all (fun old => old.modelKey.physical != admission.modelKey.physical) &&
      distinctDevices (earlier ++ [admission]) rest

def validMappingAdmissions (admissions : List ModelDeviceAdmission) (primary : DeviceKey) : Bool :=
  !admissions.isEmpty && decide (admissions.length ≤ maxMemoryMappingDevices) &&
    ascendingDevices admissions && distinctDevices [] admissions &&
    admissions.any fun admission => admission.modelKey == primary

def deviceKeysEqualAdmissions (keys : List DeviceKey) (admissions : List ModelDeviceAdmission) :
    Bool :=
  keys.length == admissions.length &&
    (keys.zip admissions).all fun pair => pair.1 == pair.2.modelKey

def validAllocationSpec (spec : MemoryAllocationSpec) (reservation : VaReservationRecord) : Bool :=
  spec.byteLen != 0 && decide (spec.byteLen ≤ reservation.range.byteLen) &&
    isMultipleOf spec.byteLen memoryPageBytes && validAlignment spec.alignment &&
    isMultipleOf reservation.range.base spec.alignment &&
    decide (spec.alignment ≤ reservation.alignment)

end Fe2o3.MemoryLifecycle
