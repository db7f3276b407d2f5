import Fe2o3.MemoryLifecycle.State

/-!
**The checks on a whole memory state**, the removal of released records, and runs of
calls.
-/

namespace Fe2o3.MemoryLifecycle

open Lib
open Lib.Command (read update expect lift refuse)
open RuntimeModel (QueueKey)

namespace MemoryLifecycleState

/-! ### Journals, bounds and virtual machines -/

variable (state : MemoryLifecycleState)

def validateJournalIndexes : Except MemoryInvariantViolation Unit :=
  [(MemoryRecordKind.vm, state.vms.indexIsCoherent),
    (.vaReservation, state.reservations.indexIsCoherent),
    (.allocation, state.allocations.indexIsCoherent),
    (.mapping, state.mappings.indexIsCoherent),
    (.publication, state.publications.indexIsCoherent)].forM fun row =>
      failIf (!row.2) (.journalIndexMismatch row.1)

def validateCapacities : Except MemoryInvariantViolation Unit :=
  [(state.vms.records.length, maxMemoryVms, MemoryRecordKind.vm),
    (state.reservations.records.length, maxVaReservations, .vaReservation),
    (state.allocations.records.length, maxMemoryAllocations, .allocation),
    (state.mappings.records.length, maxMemoryMappings, .mapping),
    (state.publications.records.length, maxMemoryPublications, .publication),
    (state.issuedIdHighWatermarks.length, maxMemoryIssuedIdHighWatermarks,
      .issuedIdHighWatermark)].forM fun row =>
        failIf (decide (row.2.1 < row.1)) (.capacityExceeded row.2.2)

def validateVm (earlier : List MemoryVmRecord)
    (vm : MemoryVmRecord) : Except MemoryInvariantViolation Unit := do
  let reference := MemoryRecordRef.vm vm.key
  failIf (vm.admission.domainId != state.domainId ||
    vm.mappingDevices.any fun device => device.domainId != state.domainId)
    (.domainMismatch reference)
  failIf (vm.key.id == 0 || vm.handle == 0) (.invalidIdentity reference)
  failIf (!validMappingAdmissions vm.mappingDevices vm.key.device) (.deviceSetMismatch reference)
  failIf (!validPageRange vm.aperture) (.invalidRange reference)
  earlier.forM fun old => do
    failIf (old.key == vm.key) (.duplicate reference)
    failIf (vm.state == .active && old.state == .active && old.handle == vm.handle)
      (.handleCollision reference)

/-! ### Reservations and allocations -/

def validateReservation (earlier : List VaReservationRecord)
    (reservation : VaReservationRecord) : Except MemoryInvariantViolation Unit := do
  let reference := MemoryRecordRef.vaReservation reservation.key
  let vm ← okOr (.missingParent reference) (state.vms.get reservation.key.vm)
  failIf (reservation.key.id == 0) (.invalidIdentity reference)
  failIf (!validAlignment reservation.alignment ||
    !isMultipleOf reservation.range.base reservation.alignment) (.invalidAlignment reference)
  failIf (!validPageRange reservation.range || !rangeWithin reservation.range vm.aperture)
    (.invalidRange reference)
  failIf (reservation.state == .reserved && vm.state != .active) (.invalidState reference)
  earlier.forM fun old => do
    failIf (old.key == reservation.key) (.duplicate reference)
    failIf (old.key.vm == reservation.key.vm && old.state == .reserved &&
      reservation.state == .reserved && rangesOverlap old.range reservation.range)
      (.addressOverlap old.key reservation.key)

def validateAllocation (earlier : List MemoryAllocationRecord)
    (allocation : MemoryAllocationRecord) : Except MemoryInvariantViolation Unit := do
  let reference := MemoryRecordRef.allocation allocation.key
  let vm ← okOr (.missingParent reference) (state.vms.get allocation.key.vm)
  let reservation ← okOr (.missingParent reference) (state.reservations.get allocation.reservation)
  failIf (allocation.key.vm != allocation.reservation.vm) (.bindingMismatch reference)
  failIf (allocation.key.id == 0 || allocation.key.generation == 0 || allocation.handle == 0)
    (.invalidIdentity reference)
  failIf (!validAllocationSpec allocation.spec reservation) (.invalidRange reference)
  failIf (allocation.state == .live && (vm.state != .active || reservation.state != .reserved))
    (.invalidState reference)
  earlier.forM fun old => do
    failIf (old.key == allocation.key) (.duplicate reference)
    if old.key.vm = allocation.key.vm ∧ old.key.id = allocation.key.id then
      failIf (decide (allocation.key.generation ≤ old.key.generation))
        (.staleGeneration allocation.key)
      failIf (old.state != .released) (.earlyRelease reference)
    failIf (allocation.state == .live && old.state == .live &&
      (old.handle == allocation.handle || old.reservation == allocation.reservation))
      (.handleCollision reference)

/-! ### Mappings and publications -/

def validateMapping (earlier : List MemoryMappingRecord)
    (mapping : MemoryMappingRecord) : Except MemoryInvariantViolation Unit := do
  let reference := MemoryRecordRef.mapping mapping.key
  let allocation ← okOr (.missingParent reference) (state.allocations.get mapping.key.allocation)
  let vm ← okOr (.missingParent reference) (state.vms.get mapping.key.allocation.vm)
  failIf (mapping.key.id == 0) (.invalidIdentity reference)
  failIf (!deviceKeysEqualAdmissions mapping.targetDevices vm.mappingDevices)
    (.deviceSetMismatch reference)
  failIf (decide (mapping.mappedEnd < mapping.mappedStart) ||
    decide (mapping.targetDevices.length < mapping.mappedEnd)) (.invalidRange reference)
  failIf (!mapping.rangeIsValid) (.invalidState reference)
  failIf (mapping.state != .released && allocation.state != .live) (.earlyRelease reference)
  failIf (earlier.any fun old => old.key == mapping.key) (.duplicate reference)

/-- Whether the owner of a publication has no valid identity. -/
def invalidOwner (publication : MemoryPublicationRecord) : Bool :=
  match publication.owner with
  | .generic => false
  | .computeAqlQueue queue => foreignQueue publication.key queue
  | .peerTransfer owner => !owner.hasValidIdentity

def validatePublication (earlier : List MemoryPublicationRecord)
    (publication : MemoryPublicationRecord) : Except MemoryInvariantViolation Unit := do
  let reference := MemoryRecordRef.publication publication.key
  let mapping ← okOr (.missingParent reference) (state.mappings.get publication.key.mapping)
  failIf (publication.key.id == 0) (.invalidIdentity reference)
  failIf (invalidOwner publication) (.bindingMismatch reference)
  failIf (publication.state == .live && mapping.state != .mapped) (.earlyRelease reference)
  failIf (earlier.any fun old => old.key == publication.key) (.duplicate reference)

/-! ### Release order -/

def validateReleaseOrder : Except MemoryInvariantViolation Unit := do
  state.allocations.records.forM fun allocation =>
    failIf (allocation.state == .released &&
      ((state.mappings.records.any fun mapping =>
          mapping.key.allocation == allocation.key && mapping.state != .released) ||
        state.publications.records.any fun publication =>
          publication.key.mapping.allocation == allocation.key && publication.state != .released))
      (.earlyRelease (.allocation allocation.key))
  state.reservations.records.forM fun reservation =>
    failIf (reservation.state == .released && state.allocations.records.any fun allocation =>
      allocation.reservation == reservation.key && allocation.state != .released)
      (.earlyRelease (.vaReservation reservation.key))
  state.vms.records.forM fun vm =>
    failIf (vm.state == .retired && state.vmInUse vm.key) (.earlyRelease (.vm vm.key))

/-! ### Issued identities -/

/-- Whether the scope of a watermark still has its record. -/
def parentExists : MemoryIssuedIdScope → Bool
  | .vaReservation vm => (state.vms.get vm).isSome
  | .allocation vm => (state.vms.get vm).isSome
  | .mapping allocation => (state.allocations.get allocation).isSome
  | .publication mapping => (state.mappings.get mapping).isSome

def validateWatermark (earlier : List MemoryIssuedIdHighWatermark)
    (watermark : MemoryIssuedIdHighWatermark) : Except MemoryInvariantViolation Unit := do
  failIf (watermark.lastId == 0 ||
    earlier.any fun old => compareKeys old.scope watermark.scope != .lt)
    (.invalidIssuedIdHighWatermark watermark)
  failIf (!state.parentExists watermark.scope) (.invalidIssuedIdHighWatermark watermark)

def validateIssuedId (scope : MemoryIssuedIdScope) (id : Nat) :
    Except MemoryInvariantViolation Unit :=
  failIf (!reached state.issuedIdHighWatermarks scope id)
    (.invalidIssuedIdHighWatermark ⟨scope, id⟩)

def validateIssuedIdHighWatermarks : Except MemoryInvariantViolation Unit :=
  match state.identityDiscipline with
  | .reusableGenerations =>
    match state.issuedIdHighWatermarks with
    | watermark :: _ => .error (.invalidIssuedIdHighWatermark watermark)
    | [] => .ok ()
  | .monotonicNonReusable => do
    checkRows state.validateWatermark [] state.issuedIdHighWatermarks
    state.reservations.records.forM fun record =>
      state.validateIssuedId (.vaReservation record.key.vm) record.key.id
    state.allocations.records.forM fun record =>
      state.validateIssuedId (.allocation record.key.vm) record.key.id
    state.mappings.records.forM fun record =>
      state.validateIssuedId (.mapping record.key.allocation) record.key.id
    state.publications.records.forM fun record =>
      state.validateIssuedId (.publication record.key.mapping) record.key.id

def validateGlobalInvariants : Except MemoryInvariantViolation Unit := do
  state.validateJournalIndexes
  state.validateCapacities
  checkRows state.validateVm [] state.vms.records
  checkRows state.validateReservation [] state.reservations.records
  checkRows state.validateAllocation [] state.allocations.records
  checkRows state.validateMapping [] state.mappings.records
  checkRows state.validatePublication [] state.publications.records
  state.validateReleaseOrder
  state.validateIssuedIdHighWatermarks

/-! ### Checkpoints -/

def compactAllocations : List MemoryAllocationKey :=
  (state.allocations.records.filter fun record => record.state == .released).map
    MemoryAllocationRecord.key

def compactMappings : List MemoryMappingKey :=
  (state.mappings.records.filter fun record => record.state == .released).map
    MemoryMappingRecord.key

def compactPublications : List MemoryPublicationKey :=
  (state.publications.records.filter fun record => record.state == .released).map
    MemoryPublicationRecord.key

/-- A released reservation goes when every allocation on it goes. -/
def compactReservations : List VaReservationKey :=
  (state.reservations.records.filter fun record =>
    record.state == .released && state.allocations.records.all fun allocation =>
      allocation.reservation != record.key ||
        state.compactAllocations.contains allocation.key).map VaReservationRecord.key

/-- Whether the watermark's scope belongs to a record that is kept. -/
def keepsWatermark (retainedAllocations : List MemoryAllocationKey)
    (retainedMappings : List MemoryMappingKey) (watermark : MemoryIssuedIdHighWatermark) : Bool :=
  match watermark.scope with
  | .mapping allocation => retainedAllocations.contains allocation
  | .publication mapping => retainedMappings.contains mapping
  | .vaReservation _ => true
  | .allocation _ => true

/-- The journals without the given keys, and the watermarks whose records are left. -/
def compact (publicationKeys : List MemoryPublicationKey) (mappingKeys : List MemoryMappingKey)
    (allocationKeys : List MemoryAllocationKey) (reservationKeys : List VaReservationKey) :
    Action Unit := do
  let publications ←
    expect ((← read).publications.retain fun record => !publicationKeys.contains record.key)
  let mappings ← expect ((← read).mappings.retain fun record => !mappingKeys.contains record.key)
  let allocations ←
    expect ((← read).allocations.retain fun record => !allocationKeys.contains record.key)
  let reservations ←
    expect ((← read).reservations.retain fun record => !reservationKeys.contains record.key)
  update fun state =>
    { state with
      publications := publications
      mappings := mappings
      allocations := allocations
      reservations := reservations
      issuedIdHighWatermarks := state.issuedIdHighWatermarks.filter
        (keepsWatermark (allocations.records.map MemoryAllocationRecord.key)
          (mappings.records.map MemoryMappingRecord.key)) }

def checkpointReleased : Action Unit := do
  let state ← read
  lift (state.validateGlobalInvariants.mapError .sourceInvariant)
  refuse (state.identityDiscipline != .monotonicNonReusable) .checkpointRequiresMonotonicIdentities
  if state.compactAllocations.isEmpty && state.compactMappings.isEmpty &&
      state.compactPublications.isEmpty && state.compactReservations.isEmpty then return ()
  compact state.compactPublications state.compactMappings state.compactAllocations
    state.compactReservations
  lift ((← read).validateGlobalInvariants.mapError .nextInvariant)

end MemoryLifecycleState

/-! ### Runs -/

inductive MemoryCall where
  | next (transition : MemoryTransition)
  | publishComputeAqlQueueMappings (keys : List MemoryPublicationKey) (queue : QueueKey)
  | releaseComputeAqlQueuePublications (keys : List MemoryPublicationKey) (queue : QueueKey)
  | publishPeerTransferMapping (key : MemoryPublicationKey) (binding : PeerTransferBinding)
  | releasePeerTransferPublication (key : MemoryPublicationKey) (binding : PeerTransferBinding)
  | checkpointReleased

namespace MemoryLifecycleState

def perform : MemoryCall → Action Unit
  | .next transition => apply transition
  | .publishComputeAqlQueueMappings keys queue => publishComputeAqlQueueMappings keys queue
  | .releaseComputeAqlQueuePublications keys queue => releaseComputeAqlQueuePublications keys queue
  | .publishPeerTransferMapping key binding => publishPeerTransferMapping key binding
  | .releasePeerTransferPublication key binding => releasePeerTransferPublication key binding
  | .checkpointReleased => checkpointReleased

/-- The state after a sequence of calls, unless one of them panics.  A call that fails leaves the
    state it was made on. -/
def run (state : MemoryLifecycleState) : List MemoryCall → Option MemoryLifecycleState
  | [] => some state
  | call :: calls =>
    match perform call state with
    | .done _ next => next.run calls
    | .failed _ _ => state.run calls
    | .panicked => none

end MemoryLifecycleState

end Fe2o3.MemoryLifecycle
