import Fe2o3.QueueLifecycle.Records

/-!
**The queue lifecycle** of `fe2o3-runtime-model/src/queue_lifecycle.rs`, next to the
memory state whose mappings its queues use.

A plan is admitted against a snapshot of the identities and the current memory state,
and publishes the mappings it binds.  Transitions look at the memory state and change
only the queues; a queue that can no longer exist may withdraw its publications.  Calls
work on copies, so one that fails changes nothing; the assertions of the journals can
panic.
-/

namespace Fe2o3.QueueLifecycle

open Lib
open Lib.Command (read update expect lift)
open MemoryLifecycle
open RuntimeModel (DeviceKey VmKey QueueKey IdentityDigest)

structure QueueLifecycleState where
  domainId : IdentityDigest
  queues : IndexedJournal ComputeAqlQueueRecord.key
  history : List QueueHistoryEntry

namespace QueueLifecycleState

def new (domainId : IdentityDigest) : QueueLifecycleState := ⟨domainId, .new, []⟩

variable (state : QueueLifecycleState)

def queue (key : QueueKey) : Except QueueTransitionError ComputeAqlQueueRecord :=
  okOr (.notFound key) (state.queues.get key)

/-! ### Plans -/

/-- A binding that does not belong to the queue, or whose publication is of another mapping. -/
def foreignBinding (queue : QueueKey) (resource : ComputeAqlResourceBinding) : Bool :=
  resource.mapping.allocation.vm != queue.vm || resource.mapping.id == 0 ||
    resource.publication.mapping != resource.mapping || resource.publication.id == 0

/-- Two bindings that share a mapping, an allocation or a publication. -/
def aliased (left right : ComputeAqlResourceBinding) : Bool :=
  left.mapping == right.mapping || left.mapping.allocation == right.mapping.allocation ||
    left.publication == right.publication

def validatePlanShape (domainId : IdentityDigest) (plan : ComputeAqlQueuePlan) :
    Except QueueInvariantViolation Unit := do
  let queue := plan.queue
  failIf (plan.schemaVersion != queueLifecycleSchemaVersion || plan.domainId != domainId ||
    plan.currentDevice.domainId != domainId || queue.vm.device != plan.currentDevice.modelKey)
    (.domainMismatch queue)
  failIf (plan.target.deviceTargetProfile != plan.currentDevice.correlation.targetProfile)
    (.targetProfileMismatch queue)
  failIf (queue.vm.id == 0 || queue.id == 0 || queue.generation == 0 || plan.planId == 0 ||
    plan.initialConfiguration == 0) (.invalidIdentity queue)
  plan.resources.ordered.forM fun entry =>
    failIf (foreignBinding queue entry.2) (.resourceBindingMismatch queue entry.1)
  failIf (!decide (plan.resources.ordered.Pairwise fun left right =>
    aliased left.2 right.2 = false))
    (.resourceAlias queue)

/-- The resource is mapped as the binding expects it. -/
def heldAsExpected (queue : QueueKey) (resource : ComputeAqlResourceBinding)
    (mapping : MemoryMappingRecord) (allocation : MemoryAllocationRecord) : Bool :=
  mapping.state == .mapped && mapping.access == resource.expectedAccess &&
    mapping.mappedStart == 0 && mapping.mappedEnd == 1 &&
    mapping.targetDevices == [queue.vm.device] && allocation.state == .live &&
    allocation.spec.kind == resource.expectedKind &&
    allocation.spec.coherence == resource.expectedCoherence

def validatePublication (queue : QueueKey) (role : ComputeAqlResourceRole) :
    Bool → Option MemoryPublicationRecord → Except QueueInvariantViolation Unit
  | true, some publication =>
    failIf (!(publication.state == .live && publication.owner == .computeAqlQueue queue))
      (.resourceBindingMismatch queue role)
  | false, none => .ok ()
  | true, none => .error (.missingResource queue role)
  | false, some _ => .error (.resourceBindingMismatch queue role)

def validateContext (identity : DeviceIdentityState)
    (memory : MemoryLifecycleState) (plan : ComputeAqlQueuePlan) (publicationRequired : Bool) :
    Except QueueInvariantViolation Unit := do
  let queue := plan.queue
  failIf (identity.domainId != state.domainId || memory.domainId != state.domainId)
    (.domainMismatch queue)
  let current ← okOr (.deviceNotCurrent queue) <|
    (lookup ModelDeviceAdmissionRecord.key queue.vm.device identity.devices).filter fun candidate =>
      candidate.status == .active && candidate.domainId == state.domainId &&
        candidate.profileId == plan.currentDevice.correlation.profileId &&
        candidate.correlation == plan.currentDevice.correlation
  failIf (current.key != plan.currentDevice.modelKey) (.deviceNotCurrent queue)
  failIf (!identity.vms.any fun candidate => candidate.key == queue.vm &&
    candidate.domainId == state.domainId && candidate.status == .active) (.vmNotCurrent queue)
  failIf (!memory.vms.records.any fun candidate => candidate.key == queue.vm &&
    candidate.state == .active) (.vmNotCurrent queue)
  plan.resources.ordered.forM fun (role, resource) => do
    let mapping ← okOr (.missingResource queue role)
      (lookup MemoryMappingRecord.key resource.mapping memory.mappings.records)
    let allocation ← okOr (.missingResource queue role)
      (lookup MemoryAllocationRecord.key resource.mapping.allocation memory.allocations.records)
    failIf (!heldAsExpected queue resource mapping allocation) (.resourceReleasedEarly queue role)
    validatePublication queue role publicationRequired
      (lookup MemoryPublicationRecord.key resource.publication memory.publications.records)

def validateExternalContexts (identity : DeviceIdentityState)
    (memory : MemoryLifecycleState) : Except QueueInvariantViolation Unit :=
  state.queues.records.forM fun record =>
    if record.phase.retainsResources then state.validateContext identity memory record.plan true
    else .ok ()

/-- The records of earlier generations of a queue. -/
def generations (queue : QueueKey) : List ComputeAqlQueueRecord :=
  state.queues.records.filter fun record =>
    record.plan.queue.vm == queue.vm && record.plan.queue.id == queue.id

/-- `max_by_key`, which takes the last of equals. -/
def newest (queue : QueueKey) : Option ComputeAqlQueueRecord :=
  (state.generations queue).reverse.argmax fun record => record.plan.queue.generation

/-- The newest generation still retains resources, or is not the one before the queue's. -/
def staleGeneration (queue : QueueKey) : Bool :=
  match state.newest queue with
  | some newest =>
    newest.phase.retainsResources || newest.plan.queue.generation + 1 != queue.generation
  | none => false

def validateNewPlan (identity : DeviceIdentityState) (memory : MemoryLifecycleState)
    (plan : ComputeAqlQueuePlan) : Except QueueInvariantViolation Unit := do
  validatePlanShape state.domainId plan
  failIf (state.queues.records.any fun record => record.plan.queue == plan.queue)
    (.duplicateQueue plan.queue)
  failIf (state.queues.records.any fun record => record.phase.retainsResources &&
    record.plan.resources.sharesMappingWith plan.resources) (.resourceAlias plan.queue)
  failIf (state.staleGeneration plan.queue) (.staleQueueGeneration plan.queue)
  state.validateContext identity memory plan false

/-! ### Internal invariants -/

/-- What `validate_phase` asks of a record. -/
def validPhase (status : QueueStatus) : Bool :=
  match status.phase with
  | .planned | .createPending | .cancelledBeforeCreate =>
    status.queueId.isNone && status.pendingConfiguration.isNone && status.resumePhase.isNone
  | .active | .disabled | .destroyed =>
    status.queueId.isSome && status.pendingConfiguration.isNone && status.resumePhase.isNone
  | .updatePending =>
    status.queueId.isSome &&
      status.pendingConfiguration.any (fun candidate =>
        candidate != 0 && candidate != status.configuration) &&
      (status.resumePhase == some .active || status.resumePhase == some .disabled)
  | .disablePending =>
    status.queueId.isSome && status.pendingConfiguration.isNone &&
      status.resumePhase == some .active
  | .destroyPending =>
    status.queueId.isSome && status.pendingConfiguration.isNone &&
      (status.resumePhase == some .active || status.resumePhase == some .disabled)
  | .ambiguous => true

/-- The record holds a native identifier that an earlier record reserves. -/
def collides (earlier : List ComputeAqlQueueRecord) (record : ComputeAqlQueueRecord) : Bool :=
  match record.queueId with
  | some queueId =>
    (record.phase.hasExclusiveNativeQueueId || record.phase == .ambiguous) &&
      earlier.any fun other => other.reservesKnownQueueId queueId
  | none => false

def validateQueue (earlier : List ComputeAqlQueueRecord)
    (record : ComputeAqlQueueRecord) : Except QueueInvariantViolation Unit := do
  let queue := record.plan.queue
  validatePlanShape state.domainId record.plan
  failIf (earlier.any fun other => other.plan.queue == queue) (.duplicateQueue queue)
  earlier.forM fun older =>
    failIf (older.plan.queue.vm == queue.vm && older.plan.queue.id == queue.id &&
      (decide (queue.generation ≤ older.plan.queue.generation) || older.phase.retainsResources))
      (.staleQueueGeneration queue)
  failIf (!validPhase record.toQueueStatus) (.invalidPhase queue)
  failIf (record.phase.retainsResources && earlier.any fun other => other.phase.retainsResources &&
    other.plan.resources.sharesMappingWith record.plan.resources) (.resourceAlias queue)
  failIf (record.phase == .createPending && earlier.any fun other => other.phase == .createPending)
    (.concurrentCreatePending queue)
  failIf (collides earlier record) (.queueIdCollision queue)

/-- The last entry about a queue. -/
def lastEntry (history : List QueueHistoryEntry) (queue : QueueKey) : Option QueueHistoryEntry :=
  (history.filter fun entry => entry.queue == queue).getLast?

/-- Whether an entry goes on from the one before it about the same queue. -/
def linked (entry : QueueHistoryEntry) : Option QueueHistoryEntry → Bool
  | none => entry.event == .planAdmitted
  | some previous => entry.event != .planAdmitted && previous.after == entry.before

def validateHistoryEntry (earlier : List QueueHistoryEntry) (entry : QueueHistoryEntry) :
    Except QueueInvariantViolation Unit := do
  failIf (entry.sequence != earlier.length + 1 || !historyEdgeIsValid entry)
    (.invalidHistory entry.queue)
  failIf (!linked entry (lastEntry earlier entry.queue)) (.invalidHistory entry.queue)

def validateHistory : Except QueueInvariantViolation Unit := do
  checkRows validateHistoryEntry [] state.history
  state.queues.records.forM fun record => do
    let last ← okOr (.invalidHistory record.plan.queue) (lastEntry state.history record.plan.queue)
    failIf (last.after != record.phase || last.queueId != record.queueId ||
      last.configuration != record.configuration) (.invalidHistory record.plan.queue)

def validateInternalInvariants : Except QueueInvariantViolation Unit := do
  failIf (decide (maxComputeAqlQueues < state.queues.records.length)) (.capacityExceeded .queue)
  failIf (decide (maxQueueHistoryEntries < state.history.length)) (.capacityExceeded .history)
  checkRows state.validateQueue [] state.queues.records
  state.validateHistory

/-! ### Transitions -/

def requireQueuePhase (queue : QueueKey) (before : QueueStatus)
    (allowed : List ComputeAqlQueuePhase) : Except QueueTransitionError Unit :=
  failIf (!allowed.contains before.phase) (.illegalState queue before.phase)

/-- Another queue may exist without a known native identifier. -/
def unresolvedOther (key : QueueKey) : Bool :=
  state.queues.records.any fun other =>
    other.plan.queue != key && other.hasUnresolvedPossiblyNativeIdentity

def collision (key : QueueKey) : Option Nat → Bool
  | some candidate => state.queues.records.any fun other =>
    other.plan.queue != key && other.reservesKnownQueueId candidate
  | none => false

def observeCreate (key : QueueKey) (before : QueueStatus)
    (observation : QueueCreateObservation) : QueueStatus × QueueHistoryEventKind :=
  let queueId := observation.queueId
  let collision := state.collision key queueId
  let unresolvedOther := state.unresolvedOther key
  if observation.status = .succeeded ∧ queueId.isSome ∧ collision = false ∧
      unresolvedOther = false then
    ({ before with queueId := queueId, phase := .active }, .createSucceeded)
  else if observation.status = .failedNoEffect ∧
      observation.queueIdField = .sentinelUnchanged then
    ({ before with phase := .planned }, .createFailedNoEffect)
  else
    ({ before with
        queueId := if collision || unresolvedOther then none else queueId
        phase := .ambiguous }, .createAmbiguous)

/-- The status of a queue after a transition, and the event that records it. -/
def advance (before : QueueStatus) :
    QueueTransition → Except QueueTransitionError (QueueStatus × QueueHistoryEventKind)
  | .cancelPlan key => do
    requireQueuePhase key before [.planned]
    return ({ before with phase := .cancelledBeforeCreate }, .planCancelled)
  | .beginCreate key => do
    requireQueuePhase key before [.planned]
    failIf (state.unresolvedOther key) (.queueCreationPoisoned key)
    return ({ before with phase := .createPending }, .createBegan)
  | .observeCreate key observation => do
    requireQueuePhase key before [.createPending]
    return state.observeCreate key before observation
  | .beginUpdate key configuration => do
    requireQueuePhase key before [.active, .disabled]
    failIf (configuration == 0 || configuration == before.configuration)
      (.invalidConfiguration key)
    return ({ before with
      pendingConfiguration := some configuration
      resumePhase := some before.phase
      phase := .updatePending }, .updateBegan)
  | .observeUpdate key status => do
    requireQueuePhase key before [.updatePending]
    match status with
    | .succeeded =>
      let configuration ← okOr (.invalidConfiguration key) before.pendingConfiguration
      return ({ before with
        configuration := configuration
        pendingConfiguration := none
        resumePhase := none
        phase := .active }, .updateSucceeded)
    | .failedNoEffect =>
      let phase ← okOr (.invalidConfiguration key) before.resumePhase
      return ({ before with
        pendingConfiguration := none
        phase := phase
        resumePhase := none }, .updateFailedNoEffect)
    | .indeterminate => return ({ before with phase := .ambiguous }, .updateAmbiguous)
  | .beginDisable key => do
    requireQueuePhase key before [.active]
    return ({ before with resumePhase := some before.phase, phase := .disablePending },
      .disableBegan)
  | .observeDisable key status => do
    requireQueuePhase key before [.disablePending]
    match status with
    | .succeeded =>
      return ({ before with resumePhase := none, phase := .disabled }, .disableSucceeded)
    | .failedNoEffect =>
      return ({ before with resumePhase := none, phase := .active }, .disableFailedNoEffect)
    | .indeterminate => return ({ before with phase := .ambiguous }, .disableAmbiguous)
  | .beginDestroy key => do
    requireQueuePhase key before [.active, .disabled]
    return ({ before with resumePhase := some before.phase, phase := .destroyPending },
      .destroyBegan)
  | .observeDestroy key status => do
    requireQueuePhase key before [.destroyPending]
    match status with
    | .succeeded =>
      return ({ before with resumePhase := none, phase := .destroyed }, .destroySucceeded)
    | .failedNoEffect =>
      let phase ← okOr (.illegalState key before.phase) before.resumePhase
      return ({ before with resumePhase := none, phase := phase }, .destroyFailedNoEffect)
    | .indeterminate => return ({ before with phase := .ambiguous }, .destroyAmbiguous)
  | .observeCurrentnessLost key => do
    failIf (!before.phase.retainsResources) (.illegalState key before.phase)
    return ({ before with phase := .ambiguous }, .currentnessLost)

end QueueLifecycleState

/-! ### Calls -/

def ensureQueueRoom (actual maximum : Nat) (kind : QueueRecordKind) :
    Except QueueTransitionError Unit :=
  failIf (decide (maximum ≤ actual)) (.capacityExceeded kind maximum)

/-- The queues and the memory state that they share with everything else. -/
structure QueueSystem where
  queues : QueueLifecycleState
  memory : MemoryLifecycleState

abbrev Action (α : Type) := Command QueueSystem QueueTransitionError α

namespace QueueSystem

/-- A call on the memory state, whose errors are those of the memory. -/
def onMemory (call : MemoryCall) : Action Unit := fun system =>
  match MemoryLifecycleState.perform call system.memory with
  | .done _ memory => .done () { system with memory := memory }
  | .failed error _ => .failed (.memory error) system
  | .panicked => .panicked

def ensureHistoryRoom (system : QueueSystem) : Except QueueTransitionError Unit :=
  ensureQueueRoom system.queues.history.length maxQueueHistoryEntries .history

def pushHistory (record : ComputeAqlQueueRecord) (event : QueueHistoryEventKind)
    (before : ComputeAqlQueuePhase) : Action Unit := do
  let system ← read
  lift system.ensureHistoryRoom
  let entry : QueueHistoryEntry :=
    { sequence := system.queues.history.length + 1
      queue := record.plan.queue
      event := event
      before := before
      after := record.phase
      queueId := record.queueId
      configuration := record.configuration }
  update fun system =>
    { system with queues := { system.queues with history := system.queues.history ++ [entry] } }

def setQueues (queues : IndexedJournal ComputeAqlQueueRecord.key) : Action Unit :=
  update fun system => { system with queues := { system.queues with queues := queues } }

def admitComputeAqlPlan (identity : DeviceIdentityState) (plan : ComputeAqlQueuePlan) :
    Action Unit := do
  let system ← read
  lift ((system.queues.validateExternalContexts identity system.memory).mapError .sourceInvariant)
  lift (ensureQueueRoom system.queues.queues.records.length maxComputeAqlQueues .queue)
  lift system.ensureHistoryRoom
  lift ((system.queues.validateNewPlan identity system.memory plan).mapError .invalidPlan)
  onMemory (.publishComputeAqlQueueMappings plan.resources.publications plan.queue)
  setQueues (← expect (system.queues.queues.push (.planned plan)))
  pushHistory (.planned plan) .planAdmitted .planned

def apply (transition : QueueTransition) : Action Unit := do
  let state := (← read).queues
  let before ← lift (state.queue transition.queue)
  let (after, event) ← lift (state.advance before.toQueueStatus transition)
  setQueues (← expect (state.queues.getMut transition.queue (.become after)))
  pushHistory (before.become after) event before.phase

def next (identity : DeviceIdentityState) (transition : QueueTransition) : Action Unit := do
  let system ← read
  lift ((system.queues.validateExternalContexts identity system.memory).mapError .sourceInvariant)
  lift system.ensureHistoryRoom
  apply transition

def quarantineCurrentnessLoss (queue : QueueKey) : Action Unit := do
  lift (← read).ensureHistoryRoom
  apply (.observeCurrentnessLost queue)

def releaseResourcePublications (queue : QueueKey) : Action Unit := do
  let record ← lift ((← read).queues.queue queue)
  lift (failIf record.phase.retainsResources (.illegalState queue record.phase))
  onMemory (.releaseComputeAqlQueuePublications record.plan.resources.publications queue)

end QueueSystem

/-! ### Runs -/

/-- The calls on the two states.  The publications of queues are not published or released other
    than through the queues. -/
inductive QueueSystemCall where
  | memoryNext (transition : MemoryTransition)
  | checkpointReleased
  | publishPeerTransferMapping (key : MemoryPublicationKey) (binding : PeerTransferBinding)
  | releasePeerTransferPublication (key : MemoryPublicationKey) (binding : PeerTransferBinding)
  | admitComputeAqlPlan (identity : DeviceIdentityState) (plan : ComputeAqlQueuePlan)
  | next (identity : DeviceIdentityState) (transition : QueueTransition)
  | quarantineCurrentnessLoss (queue : QueueKey)
  | releaseResourcePublications (queue : QueueKey)

namespace QueueSystem

def perform : QueueSystemCall → Action Unit
  | .memoryNext transition => onMemory (.next transition)
  | .checkpointReleased => onMemory .checkpointReleased
  | .publishPeerTransferMapping key binding => onMemory (.publishPeerTransferMapping key binding)
  | .releasePeerTransferPublication key binding =>
    onMemory (.releasePeerTransferPublication key binding)
  | .admitComputeAqlPlan identity plan => admitComputeAqlPlan identity plan
  | .next identity transition => next identity transition
  | .quarantineCurrentnessLoss queue => quarantineCurrentnessLoss queue
  | .releaseResourcePublications queue => releaseResourcePublications queue

/-- The states after a sequence of calls, unless one of them panics.  A call that fails leaves the
    states it was made on. -/
def run (system : QueueSystem) : List QueueSystemCall → Option QueueSystem
  | [] => some system
  | call :: calls =>
    match perform call system with
    | .done _ next => next.run calls
    | .failed _ _ => system.run calls
    | .panicked => none

end QueueSystem

end Fe2o3.QueueLifecycle
