import Fe2o3.Lib.BinarySearch
import Fe2o3.Lib.Command
import Fe2o3.MemoryLifecycle.Journal
import Fe2o3.MemoryLifecycle.Records

/-!
**The memory lifecycle** of `fe2o3-runtime-model/src/memory_lifecycle.rs`.

A state holds five journals and the high-watermarks of issued identities.  The
transitions check their own preconditions only; `validateGlobalInvariants` checks a
whole state and is called by `checkpointReleased`, before and after it removes the
records that are released.  Every call of the source works on a copy, so a call that
fails changes nothing; the assertions of the journals can panic.
-/

namespace Fe2o3.MemoryLifecycle

open Lib
open Lib.Command (read update expect lift refuse)
open RuntimeModel (DeviceKey VmKey QueueKey MemoryAccess IdentityDigest)

structure MemoryLifecycleState where
  domainId : IdentityDigest
  identityDiscipline : MemoryIdentityDiscipline
  vms : IndexedJournal MemoryVmRecord.key
  reservations : IndexedJournal VaReservationRecord.key
  allocations : IndexedJournal MemoryAllocationRecord.key
  mappings : IndexedJournal MemoryMappingRecord.key
  publications : IndexedJournal MemoryPublicationRecord.key
  issuedIdHighWatermarks : List MemoryIssuedIdHighWatermark

namespace MemoryLifecycleState

def empty (domainId : IdentityDigest) (discipline : MemoryIdentityDiscipline) :
    MemoryLifecycleState :=
  ⟨domainId, discipline, .new, .new, .new, .new, .new, []⟩

def new (domainId : IdentityDigest) : MemoryLifecycleState := empty domainId .reusableGenerations

def newMonotonicNonReusable (domainId : IdentityDigest) : MemoryLifecycleState :=
  empty domainId .monotonicNonReusable

/-! ### Access to records -/

variable (state : MemoryLifecycleState)

def vm (key : VmKey) : Except MemoryTransitionError MemoryVmRecord :=
  okOr (.notFound (.vm key)) (state.vms.get key)

def reservation (key : VaReservationKey) : Except MemoryTransitionError VaReservationRecord :=
  okOr (.notFound (.vaReservation key)) (state.reservations.get key)

def allocation (key : MemoryAllocationKey) : Except MemoryTransitionError MemoryAllocationRecord :=
  okOr (.notFound (.allocation key)) (state.allocations.get key)

def mapping (key : MemoryMappingKey) : Except MemoryTransitionError MemoryMappingRecord :=
  okOr (.notFound (.mapping key)) (state.mappings.get key)

def publication (key : MemoryPublicationKey) :
    Except MemoryTransitionError MemoryPublicationRecord :=
  okOr (.notFound (.publication key)) (state.publications.get key)

abbrev Action := Command MemoryLifecycleState MemoryTransitionError

/-- One journal of a state. -/
structure JournalField {ρ κ : Type} (key : ρ → κ) where
  get : MemoryLifecycleState → IndexedJournal key
  set : MemoryLifecycleState → IndexedJournal key → MemoryLifecycleState

namespace JournalField

variable {ρ κ : Type} {key : ρ → κ} [LinearKey κ]

def push (field : JournalField key) (record : ρ) : Action Unit := do
  let journal ← expect ((field.get (← read)).push record)
  update fun state => field.set state journal

/-- An assignment to the record with a key. -/
def assign (field : JournalField key) (reference : MemoryRecordRef) (k : κ) (f : ρ → ρ) :
    Action Unit := do
  let journal ← lift (okOr (.notFound reference) ((field.get (← read)).getMut k f))
  update fun state => field.set state journal

end JournalField

def vmsField : JournalField MemoryVmRecord.key :=
  ⟨(·.vms), fun state journal => { state with vms := journal }⟩

def reservationsField : JournalField VaReservationRecord.key :=
  ⟨(·.reservations), fun state journal => { state with reservations := journal }⟩

def allocationsField : JournalField MemoryAllocationRecord.key :=
  ⟨(·.allocations), fun state journal => { state with allocations := journal }⟩

def mappingsField : JournalField MemoryMappingRecord.key :=
  ⟨(·.mappings), fun state journal => { state with mappings := journal }⟩

def publicationsField : JournalField MemoryPublicationRecord.key :=
  ⟨(·.publications), fun state journal => { state with publications := journal }⟩

def vmMut (key : VmKey) (f : MemoryVmRecord → MemoryVmRecord) : Action Unit :=
  vmsField.assign (.vm key) key f

def reservationMut (key : VaReservationKey) (f : VaReservationRecord → VaReservationRecord) :
    Action Unit :=
  reservationsField.assign (.vaReservation key) key f

def allocationMut (key : MemoryAllocationKey)
    (f : MemoryAllocationRecord → MemoryAllocationRecord) : Action Unit :=
  allocationsField.assign (.allocation key) key f

def mappingMut (key : MemoryMappingKey) (f : MemoryMappingRecord → MemoryMappingRecord) :
    Action Unit :=
  mappingsField.assign (.mapping key) key f

def publicationMut (key : MemoryPublicationKey)
    (f : MemoryPublicationRecord → MemoryPublicationRecord) : Action Unit :=
  publicationsField.assign (.publication key) key f

/-! ### Issued identities -/

/-- Whether the watermark of the scope has reached the identity. -/
def reached (watermarks : List MemoryIssuedIdHighWatermark) (scope : MemoryIssuedIdScope)
    (id : Nat) : Bool :=
  let sought := binarySearchBy (fun watermark => compareKeys watermark.scope scope) watermarks
  (sought.found?.bind fun index => watermarks[index]?).any fun watermark =>
    decide (id ≤ watermark.lastId)

def requireNextIssuedId (scope : MemoryIssuedIdScope) (id : Nat)
    (reference : MemoryRecordRef) : Except MemoryTransitionError Unit :=
  if state.identityDiscipline = .monotonicNonReusable ∧
      reached state.issuedIdHighWatermarks scope id = true then
    .error (.nonMonotonicIdentity reference)
  else .ok ()

def raise (watermarks : List MemoryIssuedIdHighWatermark) (scope : MemoryIssuedIdScope) (id : Nat) :
    List MemoryIssuedIdHighWatermark :=
  match binarySearchBy (fun watermark => compareKeys watermark.scope scope) watermarks with
  | .found index => watermarks.modify index fun watermark => { watermark with lastId := id }
  | .missing index => watermarks.insertIdx index ⟨scope, id⟩

def recordIssuedId (scope : MemoryIssuedIdScope) (id : Nat) : Action Unit :=
  update fun state =>
    if state.identityDiscipline ≠ .monotonicNonReusable then state
    else { state with issuedIdHighWatermarks := raise state.issuedIdHighWatermarks scope id }

/-! ### Virtual machines and address reservations -/

def ensureMemoryRoom (actual maximum : Nat) (kind : MemoryRecordKind) :
    Except MemoryTransitionError Unit :=
  if maximum ≤ actual then .error (.capacityExceeded kind maximum) else .ok ()

def requireVmActive (key : VmKey) : Except MemoryTransitionError Unit := do
  let vm ← state.vm key
  if vm.state ≠ .active then .error (.illegalState (.vm key)) else .ok ()

def acquireVm (admission : ModelVmAdmission) (mappingDevices : List ModelDeviceAdmission)
    (handle : Nat) (aperture : GpuVaRange) : Action Unit := do
  let state ← read
  lift (ensureMemoryRoom state.vms.records.length maxMemoryVms .vm)
  let key := admission.modelKey
  refuse (admission.domainId != state.domainId ||
    mappingDevices.any fun device => device.domainId != state.domainId) .observationDomainMismatch
  refuse (key.id == 0 || handle == 0) (.invalidIdentity (.vm key))
  refuse (state.vms.records.any fun record => record.key == key) (.alreadyExists (.vm key))
  refuse (state.vms.records.any fun record => record.state == .active && record.handle == handle)
    (.handleCollision (.vm key))
  refuse (!validMappingAdmissions mappingDevices key.device) (.deviceSetMismatch (.vm key))
  refuse (!validPageRange aperture) (.invalidRange (.vm key))
  vmsField.push ⟨admission, mappingDevices, handle, aperture, .active⟩

/-- Whether a record of the VM is not released. -/
def vmInUse (key : VmKey) : Bool :=
  (state.reservations.records.any fun record =>
    record.key.vm == key && record.state != .released) ||
    (state.allocations.records.any fun record =>
      record.key.vm == key && record.state != .released) ||
    (state.mappings.records.any fun record =>
      record.key.allocation.vm == key && record.state != .released) ||
    state.publications.records.any fun record =>
      record.key.mapping.allocation.vm == key && record.state != .released

def retireVm (key : VmKey) : Action Unit := do
  let state ← read
  let vm ← lift (state.vm key)
  refuse (vm.state != .active) (.illegalState (.vm key))
  refuse (state.vmInUse key) (.resourceInUse (.vm key))
  vmMut key MemoryVmRecord.retire

def reserveVa (key : VaReservationKey) (range : GpuVaRange) (alignment : Nat) : Action Unit := do
  let state ← read
  lift (ensureMemoryRoom state.reservations.records.length maxVaReservations .vaReservation)
  lift (state.requireVmActive key.vm)
  refuse (key.id == 0) (.invalidIdentity (.vaReservation key))
  refuse (state.reservations.records.any fun record => record.key == key)
    (.alreadyExists (.vaReservation key))
  lift (state.requireNextIssuedId (.vaReservation key.vm) key.id (.vaReservation key))
  refuse (!validAlignment alignment || !isMultipleOf range.base alignment)
    (.invalidAlignment (.vaReservation key))
  let vm ← lift (state.vm key.vm)
  refuse (!validPageRange range || !rangeWithin range vm.aperture)
    (.invalidRange (.vaReservation key))
  refuse (state.reservations.records.any fun record =>
    record.key.vm == key.vm && record.state == .reserved && rangesOverlap record.range range)
    (.addressConflict key)
  reservationsField.push ⟨key, range, alignment, .reserved⟩
  recordIssuedId (.vaReservation key.vm) key.id

def releaseReservation (key : VaReservationKey) : Action Unit := do
  let state ← read
  let reservation ← lift (state.reservation key)
  refuse (reservation.state != .reserved) (.illegalState (.vaReservation key))
  refuse (state.allocations.records.any fun record =>
    record.reservation == key && record.state != .released) (.resourceInUse (.vaReservation key))
  reservationMut key VaReservationRecord.release

/-! ### Allocations -/

/-- Every earlier generation of the allocation is released and older. -/
def requireLaterGeneration (key : MemoryAllocationKey) : Except MemoryTransitionError Unit :=
  (state.allocations.records.filter fun record =>
    record.key.vm == key.vm && record.key.id == key.id).forM fun old =>
      if old.state ≠ .released then .error (.resourceInUse (.allocation old.key))
      else if key.generation ≤ old.key.generation then .error (.staleGeneration key)
      else .ok ()

def allocate (key : MemoryAllocationKey) (reservationKey : VaReservationKey) (handle : Nat)
    (spec : MemoryAllocationSpec) : Action Unit := do
  let state ← read
  lift (ensureMemoryRoom state.allocations.records.length maxMemoryAllocations .allocation)
  lift (state.requireVmActive key.vm)
  refuse (key.vm != reservationKey.vm) (.bindingMismatch (.allocation key))
  refuse (key.id == 0 || key.generation == 0 || handle == 0) (.invalidIdentity (.allocation key))
  refuse (state.allocations.records.any fun record => record.key == key)
    (.alreadyExists (.allocation key))
  lift (state.requireNextIssuedId (.allocation key.vm) key.id (.allocation key))
  let reservation ← lift (state.reservation reservationKey)
  refuse (reservation.state != .reserved) (.illegalState (.vaReservation reservationKey))
  refuse (!validAlignment spec.alignment || !isMultipleOf reservation.range.base spec.alignment ||
    decide (reservation.alignment < spec.alignment)) (.invalidAlignment (.allocation key))
  refuse (!validAllocationSpec spec reservation) (.invalidRange (.allocation key))
  lift (state.requireLaterGeneration key)
  refuse (state.allocations.records.any fun record =>
    record.state == .live && (record.reservation == reservationKey || record.handle == handle))
    (.handleCollision (.allocation key))
  allocationsField.push ⟨key, reservationKey, handle, spec, .live⟩
  recordIssuedId (.allocation key.vm) key.id

def releaseAllocation (key : MemoryAllocationKey) : Action Unit := do
  let state ← read
  let allocation ← lift (state.allocation key)
  refuse (allocation.state != .live) (.illegalState (.allocation key))
  refuse ((state.mappings.records.any fun record =>
      record.key.allocation == key && record.state != .released) ||
    state.publications.records.any fun record =>
      record.key.mapping.allocation == key && record.state != .released)
    (.resourceInUse (.allocation key))
  allocationMut key MemoryAllocationRecord.release

/-! ### Mappings -/

def beginMap (key : MemoryMappingKey) (targetDevices : List DeviceKey) (access : MemoryAccess) :
    Action Unit := do
  let state ← read
  lift (ensureMemoryRoom state.mappings.records.length maxMemoryMappings .mapping)
  lift (state.requireVmActive key.allocation.vm)
  refuse (key.id == 0) (.invalidIdentity (.mapping key))
  refuse (state.mappings.records.any fun record => record.key == key)
    (.alreadyExists (.mapping key))
  lift (state.requireNextIssuedId (.mapping key.allocation) key.id (.mapping key))
  let allocation ← lift (state.allocation key.allocation)
  refuse (allocation.state != .live) (.illegalState (.allocation key.allocation))
  let vm ← lift (state.vm key.allocation.vm)
  refuse (!deviceKeysEqualAdmissions targetDevices vm.mappingDevices)
    (.deviceSetMismatch (.mapping key))
  mappingsField.push ⟨key, targetDevices, access, 0, 0, .mapPending⟩
  recordIssuedId (.mapping key.allocation) key.id

/-- The mapping after the report on a map call. -/
def mapObserved (progress : PartialProgressObservation) (mapping : MemoryMappingRecord) :
    MemoryMappingRecord :=
  let count := mapping.targetDevices.length
  let ambiguous := { mapping with mappedStart := 0, mappedEnd := count, state := .ambiguous }
  match progress.status with
  | .succeeded =>
    if progress.nSuccess = count then { mapping with mappedEnd := count, state := .mapped }
    else ambiguous
  | .failed =>
    if progress.nSuccess ≤ count then
      { mapping with mappedEnd := progress.nSuccess, state := .mapFailed }
    else ambiguous
  | .indeterminate => ambiguous

def observeMap (key : MemoryMappingKey) (progress : PartialProgressObservation) : Action Unit := do
  let mapping ← lift ((← read).mapping key)
  refuse (mapping.state != .mapPending) (.illegalState (.mapping key))
  mappingMut key (mapObserved progress)

/-- Whether a live publication holds the mapping. -/
def published (key : MemoryMappingKey) : Bool :=
  state.publications.records.any fun publication =>
    publication.key.mapping == key && publication.state == .live

def beginUnmap (key : MemoryMappingKey) : Action Unit := do
  let state ← read
  refuse (state.published key) (.resourceInUse (.mapping key))
  let mapping ← lift (state.mapping key)
  refuse (!(mapping.state == .mapped || mapping.state == .mapFailed ||
    mapping.state == .unmapFailed) || mapping.mappedStart == mapping.mappedEnd)
    (.illegalState (.mapping key))
  mappingMut key (MemoryMappingRecord.enter .unmapPending)

/-- The mapping after the report on an unmap call, whose count includes the devices unmapped
    by earlier calls. -/
def unmapObserved (progress : PartialProgressObservation) (mapping : MemoryMappingRecord) :
    MemoryMappingRecord :=
  match progress.status with
  | .succeeded =>
    if progress.nSuccess = mapping.mappedEnd then
      { mapping with mappedStart := mapping.mappedEnd, state := .unmapped }
    else { mapping with state := .ambiguous }
  | .failed =>
    if mapping.mappedStart ≤ progress.nSuccess ∧ progress.nSuccess < mapping.mappedEnd then
      { mapping with mappedStart := progress.nSuccess, state := .unmapFailed }
    else { mapping with state := .ambiguous }
  | .indeterminate => { mapping with state := .ambiguous }

def observeUnmap (key : MemoryMappingKey) (progress : PartialProgressObservation) :
    Action Unit := do
  let mapping ← lift ((← read).mapping key)
  refuse (mapping.state != .unmapPending) (.illegalState (.mapping key))
  mappingMut key (unmapObserved progress)

def releaseMapping (key : MemoryMappingKey) : Action Unit := do
  let state ← read
  refuse (state.published key) (.resourceInUse (.mapping key))
  let mapping ← lift (state.mapping key)
  refuse (!(mapping.state == .mapFailed || mapping.state == .unmapFailed ||
    mapping.state == .unmapped) || mapping.mappedStart != mapping.mappedEnd)
    (.illegalState (.mapping key))
  mappingMut key (MemoryMappingRecord.enter .released)

/-! ### Publications -/

/-- A queue that does not belong to the mapping's VM, or has no identity. -/
def foreignQueue (key : MemoryPublicationKey) (queue : QueueKey) : Bool :=
  queue.vm != key.mapping.allocation.vm || queue.id == 0 || queue.generation == 0

def publishMapping (key : MemoryPublicationKey) (owner : MemoryPublicationOwner) : Action Unit := do
  let state ← read
  lift (ensureMemoryRoom state.publications.records.length maxMemoryPublications .publication)
  refuse (key.id == 0) (.invalidIdentity (.publication key))
  refuse (state.publications.records.any fun record => record.key == key)
    (.alreadyExists (.publication key))
  lift (state.requireNextIssuedId (.publication key.mapping) key.id (.publication key))
  let mapping ← lift (state.mapping key.mapping)
  refuse (mapping.state != .mapped) (.illegalState (.mapping key.mapping))
  match owner with
  | .computeAqlQueue queue => refuse (foreignQueue key queue) (.bindingMismatch (.publication key))
  | _ => pure ()
  publicationsField.push ⟨key, owner, .live⟩
  recordIssuedId (.publication key.mapping) key.id

def releasePublication (key : MemoryPublicationKey) : Action Unit := do
  let publication ← lift ((← read).publication key)
  refuse (publication.owner != .generic) (.resourceInUse (.publication key))
  refuse (publication.state != .live) (.illegalState (.publication key))
  publicationMut key MemoryPublicationRecord.release

/-- The release of a publication by the owner that holds it. -/
def releaseOwned (owner : MemoryPublicationOwner) (key : MemoryPublicationKey) : Action Unit := do
  let publication ← lift ((← read).publication key)
  refuse (publication.owner != owner) (.bindingMismatch (.publication key))
  refuse (publication.state != .live) (.illegalState (.publication key))
  publicationMut key MemoryPublicationRecord.release

def releaseQueuePublication (key : MemoryPublicationKey) (queue : QueueKey) : Action Unit :=
  releaseOwned (.computeAqlQueue queue) key

def releasePeerPublication (key : MemoryPublicationKey) (binding : PeerTransferBinding) :
    Action Unit :=
  releaseOwned (.peerTransfer binding.publicationOwner) key

/-! ### Calls -/

def apply : MemoryTransition → Action Unit
  | .acquireVm admission mappingDevices handle aperture =>
    acquireVm admission mappingDevices handle aperture
  | .retireVm key => retireVm key
  | .reserveVa key range alignment => reserveVa key range alignment
  | .releaseVaReservation key => releaseReservation key
  | .allocate key reservation handle spec => allocate key reservation handle spec
  | .releaseAllocation key => releaseAllocation key
  | .beginMap key targetDevices access => beginMap key targetDevices access
  | .observeMap key progress => observeMap key progress
  | .beginUnmap key => beginUnmap key
  | .observeUnmap key progress => observeUnmap key progress
  | .releaseMapping key => releaseMapping key
  | .publishMapping key => publishMapping key .generic
  | .releasePublication key => releasePublication key

def publishComputeAqlQueueMappings (keys : List MemoryPublicationKey) (queue : QueueKey) :
    Action Unit :=
  keys.forM fun key => publishMapping key (.computeAqlQueue queue)

def releaseComputeAqlQueuePublications (keys : List MemoryPublicationKey) (queue : QueueKey) :
    Action Unit :=
  keys.forM fun key => releaseQueuePublication key queue

def publishPeerTransferMapping (key : MemoryPublicationKey) (binding : PeerTransferBinding) :
    Action Unit := do
  refuse (!binding.retainsPublication key) (.bindingMismatch (.publication key))
  publishMapping key (.peerTransfer binding.publicationOwner)

def releasePeerTransferPublication (key : MemoryPublicationKey) (binding : PeerTransferBinding) :
    Action Unit := do
  refuse (!binding.retainsPublication key) (.bindingMismatch (.publication key))
  releasePeerPublication key binding

end MemoryLifecycleState

end Fe2o3.MemoryLifecycle
