import Fe2o3.Lib.KeyedTable
import Fe2o3.ServiceModel.Records

/-!
**The service state and its two validators** (`fe2o3-service-model/src/state.rs`).

`validateGlobalInvariants` collects the violations of one state in the order of the
source's pushes; `pushViolation` then cuts the report off at its limit.
`validateTransitionTo` checks both states and compares them family by family:
`checkEach` follows every old record to its successor, `checkAdded` looks at the new
ones.

A task tag is looked up by membership where the source searches the sorted list of
admitted tags; when the list is not sorted the configuration is refused already.  The
same holds of a zero modulus, by which the source would divide.
-/

namespace Fe2o3.ServiceModel

open Lib

def maxQueueCapacity : Nat := 16384
def maxTaskVariants : Nat := 32
def maxModelTasks : Nat := 32768
def maxModelLeases : Nat := 32768
def maxModelWorkers : Nat := 4096
def maxModelDependencies : Nat := 65536
def maxModelPhaseRegions : Nat := 8192
def maxModelCompletions : Nat := 32768
def maxInvariantViolations : Nat := 256

inductive DeliveryPolicy where
  | atMostOnce
  | exactlyOnce
deriving DecidableEq

inductive InvariantViolation where
  | invalidConfiguration
  | modelBoundExceeded (field : String)
  | duplicateSlot (slot : SlotId)
  | missingSlot (slot : SlotId)
  | slotOutOfBounds (slot : SlotId)
  | generationEncodingMismatch (slot : SlotId)
  | generationStateMismatch (slot : SlotId)
  | generationExhausted (slot : SlotId)
  | abaWrapRisk (slot : SlotId)
  | duplicateTask (task : TaskId)
  | unknownTaskTag (task : TaskId)
  | duplicateLease (lease : LeaseId)
  | duplicateWorker (worker : WorkerId)
  | duplicateDependency (epoch : DependencyEpoch)
  | duplicatePhaseRegion (region : RegionId)
  | duplicateCompletion (record : CompletionRecordId)
  | slotTaskMismatch (slot : SlotId)
  | taskSlotMismatch (task : TaskId)
  | leaseMismatch (lease : LeaseId)
  | duplicateLiveLease (task : TaskId)
  | workerLeaseMismatch (worker : WorkerId)
  | dependencyUnsatisfied (task : TaskId)
  | duplicateTaskDependency (task : TaskId)
  | phaseOwnershipMismatch (region : RegionId)
  | completionMismatch (record : CompletionRecordId)
  | admissionCutoffMismatch
  | failureRecordMismatch
  | stoppedButNotQuiescent
  | violationLimitReached
deriving DecidableEq

structure InvariantReport where
  violations : List InvariantViolation
deriving DecidableEq

inductive TransitionError where
  | currentStateInvalid (report : InvariantReport)
  | nextStateInvalid (report : InvariantReport)
  | immutableConfigurationChanged
  | removedTask (task : TaskId)
  | removedLease (lease : LeaseId)
  | addedTaskInInvalidState (task : TaskId)
  | addedLeaseInInvalidState (lease : LeaseId)
  | illegalLifecycleTransition
  | illegalSlotTransition (slot : SlotId)
  | illegalTaskTransition (task : TaskId)
  | illegalLeaseTransition (lease : LeaseId)
  | illegalWorkerTransition (worker : WorkerId)
  | illegalDependencyTransition (epoch : DependencyEpoch)
  | illegalPhaseTransition (region : RegionId)
  | illegalCompletionTransition (record : CompletionRecordId)
deriving DecidableEq

structure ServiceModelConfig where
  runId : IdentityDigest
  serviceEpoch : Nat
  queueIdentity : IdentityDigest
  taskSchemaId : IdentityDigest
  schedulerModelId : IdentityDigest
  admittedTaskTags : List Nat
  queueCapacity : Nat
  generationModulus : Nat
  maximumLiveGenerationSpan : Nat
  deliveryPolicy : DeliveryPolicy
  failureModelId : IdentityDigest
deriving DecidableEq

namespace ServiceModelConfig

def validate (config : ServiceModelConfig) : Except InvariantViolation Unit := do
  failIf (config.queueCapacity == 0 || maxQueueCapacity < config.queueCapacity)
    .invalidConfiguration
  failIf (config.generationModulus < 2 ||
      config.generationModulus ≤ config.maximumLiveGenerationSpan) .invalidConfiguration
  let tags := config.admittedTaskTags
  failIf (tags.isEmpty || maxTaskVariants < tags.length ||
      (tags.zip tags.tail).any fun pair => pair.2 ≤ pair.1) .invalidConfiguration

def slotKey (config : ServiceModelConfig) (slotId : SlotId) (logicalGeneration : Nat) : SlotKey :=
  ⟨config.runId, config.serviceEpoch, config.queueIdentity, slotId, logicalGeneration⟩

end ServiceModelConfig

structure ServiceState where
  config : ServiceModelConfig
  lifecycle : LifecycleState
  admissionCutoff : Option Nat
  slots : List QueueSlotRecord
  tasks : List TaskRecord
  leases : List LeaseRecord
  workers : List WorkerRecord
  dependencies : List DependencyRecord
  phaseRegions : List PhaseRegionRecord
  completionRecords : List CompletionRecord
  failure : Option FailureRecord
deriving DecidableEq

namespace ServiceState

variable (state : ServiceState)

def slot (id : SlotId) : Option QueueSlotRecord := lookup QueueSlotRecord.slotId id state.slots
def task (id : TaskId) : Option TaskRecord := lookup TaskRecord.taskId id state.tasks
def lease (id : LeaseId) : Option LeaseRecord := lookup LeaseRecord.leaseId id state.leases
def worker (id : WorkerId) : Option WorkerRecord := lookup WorkerRecord.workerId id state.workers
def dependency (epoch : DependencyEpoch) : Option DependencyRecord :=
  lookup DependencyRecord.epoch epoch state.dependencies

def isQuiescent : Bool :=
  state.slots.all (·.state.isEmpty) && state.tasks.all (·.state.isTerminal) &&
    state.leases.all (!·.state.isLive) && state.workers.all (·.state.isGone) &&
    state.completionRecords.all (·.visible)

def validSlotBrand (key : SlotKey) : Bool :=
  key.runId == state.config.runId && key.serviceEpoch == state.config.serviceEpoch &&
    key.queueIdentity == state.config.queueIdentity && key.slotId < state.config.queueCapacity

end ServiceState

/-! ### Violations of one state -/

def flag (condition : Bool) (violation : InvariantViolation) : List InvariantViolation :=
  if condition then [violation] else []

@[simp]
theorem flag_eq_nil {condition : Bool} {violation : InvariantViolation} :
    flag condition violation = [] ↔ condition = false := by
  cases condition <;> simp [flag]

def checkBound (field : String) (actual maximum : Nat) : List InvariantViolation :=
  flag (maximum < actual) (.modelBoundExceeded field)

/-- Every record that clashes with an earlier one. -/
def checkUnique {ρ : Type} (clashes : ρ → ρ → Bool) (violation : ρ → InvariantViolation)
    (records : List ρ) : List InvariantViolation :=
  records.zipIdx.flatMap fun (record, index) =>
    flag ((records.take index).any (clashes record)) (violation record)

def pushViolation (violations : List InvariantViolation) (violation : InvariantViolation) :
    List InvariantViolation :=
  if violations.length < maxInvariantViolations then violations ++ [violation]
  else if violations.getLast? ≠ some .violationLimitReached then
    violations.set (maxInvariantViolations - 1) .violationLimitReached
  else violations

/-- A completion record says what the terminal state of its task says. -/
def CompletionRecord.matchesTask (completion : CompletionRecord) : TaskState → Bool
  | .completed slot recordId =>
    completion.outcome == .succeeded && slot == completion.slot && recordId == completion.recordId
  | .cancelled slot _ recordId =>
    completion.outcome == .cancelled && slot == completion.slot && recordId == completion.recordId
  | .failed (some slot) (some recordId) =>
    completion.outcome == .failed && slot == completion.slot && recordId == completion.recordId
  | _ => false

namespace ServiceState

variable (state : ServiceState)

def checkSlotTask (slot : QueueSlotRecord) (taskId : TaskId) : List InvariantViolation :=
  match state.task taskId with
  | none => [.slotTaskMismatch slot.slotId]
  | some task =>
    let expectedKey := state.config.slotKey slot.slotId slot.state.generation
    flag (task.state.slotKey != some expectedKey || !slot.state.taskPhaseMatches task.state)
        (.slotTaskMismatch slot.slotId) ++
      match slot.state.liveLease with
      | some leaseId => flag (task.state.liveLease != some leaseId) (.leaseMismatch leaseId)
      | none => []

def slotViolations (slot : QueueSlotRecord) (index : Nat) : List InvariantViolation :=
  let counter := slot.generation.counter
  flag ((state.slots.take index).any (·.slotId == slot.slotId)) (.duplicateSlot slot.slotId) ++
    flag (state.config.queueCapacity ≤ slot.slotId) (.slotOutOfBounds slot.slotId) ++
    flag (counter.encoded != counter.logical % state.config.generationModulus)
      (.generationEncodingMismatch slot.slotId) ++
    flag (slot.state.generation != counter.logical) (.generationStateMismatch slot.slotId) ++
    flag slot.generation.isExhausted (.generationExhausted slot.slotId) ++
    flag (!slot.aba.isAdmissible counter.logical state.config.maximumLiveGenerationSpan)
      (.abaWrapRisk slot.slotId) ++
    match slot.state.taskId with
    | some taskId => state.checkSlotTask slot taskId
    | none => []

def checkUniqueRecords : List InvariantViolation :=
  checkUnique (·.taskId == ·.taskId) (.duplicateTask ·.taskId) state.tasks ++
    checkUnique (·.leaseId == ·.leaseId) (.duplicateLease ·.leaseId) state.leases ++
    checkUnique (·.workerId == ·.workerId) (.duplicateWorker ·.workerId) state.workers ++
    checkUnique (·.epoch == ·.epoch) (.duplicateDependency ·.epoch) state.dependencies ++
    checkUnique (·.regionId == ·.regionId) (.duplicatePhaseRegion ·.regionId)
      state.phaseRegions ++
    checkUnique (fun completion other =>
        other.recordId == completion.recordId || other.taskId == completion.taskId)
      (.duplicateCompletion ·.recordId) state.completionRecords

def taskViolations (task : TaskRecord) : List InvariantViolation :=
  flag (!state.config.admittedTaskTags.contains task.canonicalTag) (.unknownTaskTag task.taskId) ++
    flag (task.dependencies.zipIdx.any fun (epoch, index) =>
        (task.dependencies.take index).contains epoch) (.duplicateTaskDependency task.taskId) ++
    (match task.state.slotKey with
      | some slotKey =>
        flag (!state.validSlotBrand slotKey) (.taskSlotMismatch task.taskId) ++
          flag (!task.state.isTerminal && !(state.slot slotKey.slotId).any fun slot =>
              slot.state.taskId == some task.taskId &&
                slot.state.generation == slotKey.logicalGeneration)
            (.taskSlotMismatch task.taskId)
      | none => []) ++
    -- exactly the states with a live lease need their dependencies
    (if task.state.liveLease.isSome then
      task.dependencies.flatMap fun epoch =>
        flag (!(state.dependency epoch).any (·.state.isVisibleSatisfied))
          (.dependencyUnsatisfied task.taskId)
      else []) ++
    match task.state.liveLease with
    | some leaseId =>
      flag (!(state.lease leaseId).any fun lease =>
        lease.state.isLive && lease.state.key.taskId == task.taskId) (.leaseMismatch leaseId)
    | none => []

def leaseViolations (lease : LeaseRecord) (index : Nat) : List InvariantViolation :=
  let key := lease.state.key
  flag (!state.validSlotBrand key.slot || (state.task key.taskId).isNone ||
      (state.worker key.workerId).isNone) (.leaseMismatch lease.leaseId) ++
    flag (lease.state.isLive && (state.leases.take index).any fun other =>
        other.state.isLive &&
          (other.state.key.taskId == key.taskId || other.state.key.slot == key.slot))
      (.duplicateLiveLease key.taskId)

def workerViolations (worker : WorkerRecord) : List InvariantViolation :=
  match worker.state with
  | .running taskId leaseId phaseId =>
    let leaseMatches := (state.lease leaseId).any fun lease =>
      match lease.state with
      | .executing key => key.workerId == worker.workerId && key.taskId == taskId
      | _ => false
    let taskMatches := (state.task taskId).any fun task =>
      match task.state with
      | .executing _ current currentPhase => current == leaseId && currentPhase == phaseId
      | .completionPending _ current _ => current == leaseId
      | _ => false
    flag (!leaseMatches || !taskMatches) (.workerLeaseMismatch worker.workerId) ++
      flag (!state.phaseRegions.any fun region =>
          match region.state with
          | .active _ current (.worker owner) => current == phaseId && owner == worker.workerId
          | _ => false) (.workerLeaseMismatch worker.workerId)
  | _ => []

def phaseViolations (phase : PhaseRegionRecord) : List InvariantViolation :=
  match phase.state with
  | .active _ _ (.worker worker) =>
    flag (!(state.worker worker).any (·.state.isRunning)) (.phaseOwnershipMismatch phase.regionId)
  | _ => []

def completionViolations (completion : CompletionRecord) : List InvariantViolation :=
  flag (!(state.task completion.taskId).any (fun task => completion.matchesTask task.state) ||
    !state.validSlotBrand completion.slot) (.completionMismatch completion.recordId)

def taskRecordViolations (task : TaskRecord) : List InvariantViolation :=
  match task.state.recordId with
  | some recordId =>
    flag (!state.completionRecords.any fun record =>
      record.recordId == recordId && record.taskId == task.taskId) (.completionMismatch recordId)
  | none => []

def slotRecordViolations (slot : QueueSlotRecord) : List InvariantViolation :=
  match slot.state with
  | .reclaimable _ _ _ recordId =>
    flag (!state.completionRecords.any fun record => record.recordId == recordId && record.visible)
      (.completionMismatch recordId)
  | _ => []

def leaseRecordViolations (lease : LeaseRecord) : List InvariantViolation :=
  match lease.state with
  | .consumed key outcome recordId =>
    flag (!state.completionRecords.any fun record =>
        record.recordId == recordId && record.taskId == key.taskId && record.slot == key.slot &&
          record.outcome == outcome)
      (.completionMismatch recordId)
  | _ => []

def lifecycleViolations : List InvariantViolation :=
  (match state.lifecycle with
    | .draining | .stopping | .stopped =>
      flag (state.admissionCutoff.isNone || state.tasks.any fun task =>
        state.admissionCutoff.any (· < task.submissionSequence)) .admissionCutoffMismatch
    | .starting | .running => flag state.admissionCutoff.isSome .admissionCutoffMismatch
    | .failed _ => []) ++
    (match state.lifecycle, state.failure with
    | .failed disposition, some record =>
      flag (!(record.disposition == disposition &&
        record.failureModelId == state.config.failureModelId)) .failureRecordMismatch
    | .failed _, none => [.failureRecordMismatch]
    | _, some _ => [.failureRecordMismatch]
    | _, none => []) ++
    flag (state.lifecycle == .stopped && !state.isQuiescent) .stoppedButNotQuiescent

/-- All violations, in the order in which they are pushed. -/
def foundViolations : List InvariantViolation :=
  (match state.config.validate with
    | .error violation => [violation]
    | .ok () => []) ++
    checkBound "slots" state.slots.length state.config.queueCapacity ++
    (if state.slots.length ≠ state.config.queueCapacity then
      (List.range state.config.queueCapacity).flatMap fun id =>
        flag (!state.slots.any (·.slotId == id)) (.missingSlot id)
      else []) ++
    checkBound "tasks" state.tasks.length maxModelTasks ++
    checkBound "leases" state.leases.length maxModelLeases ++
    checkBound "workers" state.workers.length maxModelWorkers ++
    checkBound "dependencies" state.dependencies.length maxModelDependencies ++
    checkBound "phase regions" state.phaseRegions.length maxModelPhaseRegions ++
    checkBound "completions" state.completionRecords.length maxModelCompletions ++
    state.slots.zipIdx.flatMap (fun (slot, index) => state.slotViolations slot index) ++
    state.checkUniqueRecords ++
    state.tasks.flatMap state.taskViolations ++
    state.leases.zipIdx.flatMap (fun (lease, index) => state.leaseViolations lease index) ++
    state.workers.flatMap state.workerViolations ++
    state.phaseRegions.flatMap state.phaseViolations ++
    state.completionRecords.flatMap state.completionViolations ++
    state.tasks.flatMap state.taskRecordViolations ++
    state.slots.flatMap state.slotRecordViolations ++
    state.leases.flatMap state.leaseRecordViolations ++
    state.lifecycleViolations

def validateGlobalInvariants : Except InvariantReport Unit :=
  let violations := state.foundViolations.foldl pushViolation []
  if violations.isEmpty then .ok () else .error ⟨violations⟩

end ServiceState

/-! ### Transitions between two states -/

section Families

variable {ρ κ : Type} [DecidableEq κ] (key : ρ → κ)

/-- Every record of `before` is still there, and its change is legal. -/
def checkEach (missing illegal : κ → TransitionError) (legal : ρ → ρ → Bool)
    (before after : List ρ) : Except TransitionError Unit :=
  before.forM fun record => do
    let next ← okOr (missing (key record)) (lookup key (key record) after)
    failIf (!legal record next) (illegal (key record))

/-- Every record of `after` that is not in `before` is in an initial state. -/
def checkAdded (illegal : κ → TransitionError) (initial : ρ → Bool) (before after : List ρ) :
    Except TransitionError Unit :=
  after.forM fun record =>
    failIf ((lookup key (key record) before).isNone && !initial record) (illegal (key record))

end Families

/-- Only the visibility of a completion record may change. -/
def CompletionRecord.legalChange (completion next : CompletionRecord) : Bool :=
  completion.recordId == next.recordId && completion.taskId == next.taskId &&
    completion.slot == next.slot && completion.outcome == next.outcome &&
    !(completion.visible && !next.visible)

def TaskRecord.legalChange (task next : TaskRecord) : Bool :=
  task.taskId == next.taskId && task.canonicalTag == next.canonicalTag &&
    task.payloadIdentity == next.payloadIdentity &&
    task.submissionSequence == next.submissionSequence &&
    task.dependencies == next.dependencies && task.state.canTransitionTo next.state

def TaskState.isReserved : TaskState → Bool
  | reserved _ => true
  | _ => false

namespace ServiceState

/-- The three checks of a slot's change. -/
def legalSlotChange (self next : ServiceState) (slot nextSlot : QueueSlotRecord) : Bool :=
  (slot.state.canTransitionTo nextSlot.state &&
      generationTransitionValid slot nextSlot self.config.generationModulus &&
      slot.aba.canTransitionTo nextSlot.aba nextSlot.generation.counter.logical
        self.config.maximumLiveGenerationSpan) &&
    !(slot.state.isEmpty && nextSlot.state.isReserved &&
      (self.lifecycle != .running || next.lifecycle != .running)) &&
    !(slot.state.isPublished && nextSlot.state.isAcquired &&
      !(self.lifecycle == .running || self.lifecycle == .draining))

def validateTransitionTo (self next : ServiceState) : Except TransitionError Unit := do
  self.validateGlobalInvariants.mapError .currentStateInvalid
  next.validateGlobalInvariants.mapError .nextStateInvalid
  failIf (self.config != next.config) .immutableConfigurationChanged
  failIf (!self.lifecycle.canTransitionTo next.lifecycle) .illegalLifecycleTransition
  checkEach QueueSlotRecord.slotId .illegalSlotTransition .illegalSlotTransition
    (self.legalSlotChange next) self.slots next.slots
  checkEach TaskRecord.taskId .removedTask .illegalTaskTransition TaskRecord.legalChange
    self.tasks next.tasks
  checkAdded TaskRecord.taskId .addedTaskInInvalidState (·.state.isReserved) self.tasks next.tasks
  checkEach LeaseRecord.leaseId .removedLease .illegalLeaseTransition
    (fun lease nextLease => lease.state.canTransitionTo nextLease.state) self.leases next.leases
  checkAdded LeaseRecord.leaseId .addedLeaseInInvalidState (·.state.isIssued) self.leases
    next.leases
  checkEach WorkerRecord.workerId .illegalWorkerTransition .illegalWorkerTransition
    (fun worker nextWorker => worker.state.canTransitionTo nextWorker.state) self.workers
    next.workers
  checkEach DependencyRecord.epoch .illegalDependencyTransition .illegalDependencyTransition
    (fun dependency nextDependency => dependency.state.canTransitionTo nextDependency.state)
    self.dependencies next.dependencies
  checkAdded DependencyRecord.epoch .illegalDependencyTransition (·.state == .pending)
    self.dependencies next.dependencies
  checkEach PhaseRegionRecord.regionId .illegalPhaseTransition .illegalPhaseTransition
    (fun phase nextPhase => phase.state.canTransitionTo nextPhase.state) self.phaseRegions
    next.phaseRegions
  failIf (self.slots.length != next.slots.length) (.illegalSlotTransition (2 ^ 16 - 1))
  failIf (self.workers.length != next.workers.length) (.illegalWorkerTransition (2 ^ 16 - 1))
  failIf (self.phaseRegions.length != next.phaseRegions.length)
    (.illegalPhaseTransition (2 ^ 16 - 1))
  checkEach CompletionRecord.recordId .illegalCompletionTransition .illegalCompletionTransition
    CompletionRecord.legalChange self.completionRecords next.completionRecords

end ServiceState

end Fe2o3.ServiceModel
