import Fe2o3.Lib.KeyedTable
import Fe2o3.RuntimeModel.Records

/-!
**The runtime transition system** of `fe2o3-runtime-model/src/model.rs`.

A state holds eight tables.  `apply` is one transition, `validateGlobalInvariants`
the checks on a whole state, and `nextAll` a batch: every state of the batch is
checked, and a rejected batch leaves the source state as it was.  Records are
never removed; `amend` is the source's assignment through `iter_mut().find(..)`.
-/

namespace Fe2o3.RuntimeModel

open Lib

structure RuntimeState where
  devices : List DeviceRecord
  vms : List VmRecord
  allocations : List AllocationRecord
  mappings : List MappingRecord
  loadedCode : List LoadedCodeRecord
  queues : List QueueRecord
  dispatches : List DispatchRecord
  completions : List CompletionRecord
  deriving DecidableEq, Repr

namespace RuntimeState

def new : RuntimeState := ⟨[], [], [], [], [], [], [], []⟩

/-! ### Access to records -/

variable (state : RuntimeState)

def device (key : DeviceKey) : Except TransitionError DeviceRecord :=
  okOr (.notFound (.device key)) (lookup DeviceRecord.key key state.devices)

def vm (key : VmKey) : Except TransitionError VmRecord :=
  okOr (.notFound (.vm key)) (lookup VmRecord.key key state.vms)

def allocation (key : AllocationKey) : Except TransitionError AllocationRecord :=
  okOr (.notFound (.allocation key)) (lookup AllocationRecord.key key state.allocations)

def mapping (key : MappingKey) : Except TransitionError MappingRecord :=
  okOr (.notFound (.mapping key)) (lookup MappingRecord.key key state.mappings)

def code (key : LoadedCodeKey) : Except TransitionError LoadedCodeRecord :=
  okOr (.notFound (.loadedCode key)) (lookup LoadedCodeRecord.key key state.loadedCode)

def queue (key : QueueKey) : Except TransitionError QueueRecord :=
  okOr (.notFound (.queue key)) (lookup QueueRecord.key key state.queues)

def dispatch (key : DispatchKey) : Except TransitionError DispatchRecord :=
  okOr (.notFound (.dispatch key)) (lookup DispatchRecord.key key state.dispatches)

def completion (key : CompletionKey) : Except TransitionError CompletionRecord :=
  okOr (.notFound (.completion key)) (lookup CompletionRecord.key key state.completions)

/-! ### Assignments of a lifecycle state -/

def setDevice (key : DeviceKey) (value : DeviceState) : RuntimeState :=
  { state with
    devices := amend DeviceRecord.key key (fun r => { r with state := value }) state.devices }

def setVm (key : VmKey) (value : VmState) : RuntimeState :=
  { state with
    vms := amend VmRecord.key key (fun r => { r with state := value }) state.vms }

def setAllocation (key : AllocationKey) (value : ResourceState) : RuntimeState :=
  { state with
    allocations := amend AllocationRecord.key key (fun r => { r with state := value })
      state.allocations }

def setMapping (key : MappingKey) (value : ResourceState) : RuntimeState :=
  { state with
    mappings := amend MappingRecord.key key (fun r => { r with state := value }) state.mappings }

def setCode (key : LoadedCodeKey) (value : ResourceState) : RuntimeState :=
  { state with
    loadedCode := amend LoadedCodeRecord.key key (fun r => { r with state := value })
      state.loadedCode }

def setQueue (key : QueueKey) (value : QueueState) : RuntimeState :=
  { state with
    queues := amend QueueRecord.key key (fun r => { r with state := value }) state.queues }

def setDispatch (key : DispatchKey) (value : DispatchState) : RuntimeState :=
  { state with
    dispatches := amend DispatchRecord.key key (fun r => { r with state := value })
      state.dispatches }

def setCompletion (key : CompletionKey) (value : CompletionState) : RuntimeState :=
  { state with
    completions := amend CompletionRecord.key key (fun r => { r with state := value })
      state.completions }

/-! ### Guards -/

def requireState (condition : Bool) (record : RecordRef) : Except TransitionError Unit :=
  if condition then .ok () else .error (.illegalState record)

def ensureRoom (actual maximum : Nat) (kind : RecordKind) : Except TransitionError Unit :=
  if actual < maximum then .ok () else .error (.capacityExceeded kind maximum)

def requireVmActive (key : VmKey) : Except TransitionError Unit := do
  requireState ((← state.vm key).state == .active) (.vm key)
  requireState ((← state.device key.device).state == .ready) (.device key.device)

/-- The queue, its VM or its device is quiescent; a later level is read only when needed. -/
def queueIsEffectivelyQuiescent (key : QueueKey) : Except TransitionError Bool := do
  let queue ← state.queue key
  if queue.state == .quiescent then .ok true else
    let vm ← state.vm key.vm
    if vm.state == .quiescent then .ok true else
      let device ← state.device key.vm.device
      .ok (device.state == .quiescent)

/-! ### Devices and VMs -/

def addDevice (key : DeviceKey) : Except TransitionError RuntimeState := do
  ensureRoom state.devices.length maxDevices .device
  failIf (state.devices.any (fun record => record.key == key)) (.alreadyExists (.device key))
  (state.devices.filter fun record => record.key.physical == key.physical).forM fun record => do
    failIf (record.state != .released) (.resourceInUse (.device record.key))
    failIf (decide (key.generation ≤ record.key.generation)) (.generationNotMonotonic key)
  return { state with devices := state.devices ++ [⟨key, .ready⟩] }

/-- A device that is in the expected state takes the next one. -/
def moveDevice (key : DeviceKey) (expected next : DeviceState) :
    Except TransitionError RuntimeState := do
  let record ← state.device key
  requireState (record.state == expected) (.device key)
  return state.setDevice key next

def releaseDevice (key : DeviceKey) : Except TransitionError RuntimeState := do
  let current := (← state.device key).state
  requireState (current == .ready || current == .quiescent) (.device key)
  failIf (state.vms.any fun record => record.key.device == key && record.state != .released)
    (.resourceInUse (.device key))
  return state.setDevice key .released

def createVm (key : VmKey) : Except TransitionError RuntimeState := do
  ensureRoom state.vms.length maxVms .vm
  failIf (state.vms.any (fun record => record.key == key)) (.alreadyExists (.vm key))
  requireState ((← state.device key.device).state == .ready) (.device key.device)
  return { state with vms := state.vms ++ [⟨key, .active⟩] }

def moveVm (key : VmKey) (expected next : VmState) : Except TransitionError RuntimeState := do
  let record ← state.vm key
  requireState (record.state == expected) (.vm key)
  return state.setVm key next

def releaseVm (key : VmKey) : Except TransitionError RuntimeState := do
  let current := (← state.vm key).state
  requireState (current == .active || current == .quiescent) (.vm key)
  let resourcesLive :=
    state.allocations.any (fun record => record.key.vm == key && record.state != .released)
      || state.loadedCode.any (fun record => record.key.vm == key && record.state != .released)
      || state.queues.any (fun record => record.key.vm == key && record.state != .released)
  failIf resourcesLive (.resourceInUse (.vm key))
  return state.setVm key .released

/-! ### Memory -/

def allocate (key : AllocationKey) (byteLen : Nat) : Except TransitionError RuntimeState := do
  ensureRoom state.allocations.length maxAllocations .allocation
  failIf (state.allocations.any (fun record => record.key == key))
    (.alreadyExists (.allocation key))
  failIf (byteLen == 0) (.invalidRange (.allocation key))
  state.requireVmActive key.vm
  return { state with allocations := state.allocations ++ [⟨key, byteLen, .live⟩] }

def releaseAllocation (key : AllocationKey) : Except TransitionError RuntimeState := do
  requireState ((← state.allocation key).state == .live) (.allocation key)
  failIf (state.mappings.any fun record => record.key.allocation == key && record.state == .live)
    (.resourceInUse (.allocation key))
  return state.setAllocation key .released

def map (key : MappingKey) (allocationOffset gpuVa byteLen : Nat)
    (access : MemoryAccess) : Except TransitionError RuntimeState := do
  ensureRoom state.mappings.length maxMappings .mapping
  failIf (state.mappings.any (fun record => record.key == key)) (.alreadyExists (.mapping key))
  state.requireVmActive key.allocation.vm
  let allocation ← state.allocation key.allocation
  requireState (allocation.state == .live) (.allocation key.allocation)
  failIf (invalidMappingRange allocationOffset gpuVa byteLen allocation.byteLen)
    (.invalidRange (.mapping key))
  failIf ((state.mappings.filter fun record =>
      record.state == .live && record.key.allocation.vm == key.allocation.vm).any fun record =>
        rangesOverlap gpuVa byteLen record.gpuVa record.byteLen) (.addressConflict key)
  return { state with
    mappings := state.mappings ++ [⟨key, allocationOffset, gpuVa, byteLen, access, .live⟩] }

def unmap (key : MappingKey) : Except TransitionError RuntimeState := do
  requireState ((← state.mapping key).state == .live) (.mapping key)
  failIf
    (state.loadedCode.any (fun record => record.executableMapping == key && record.state == .live)
      || state.queues.any (fun record => record.ringMapping == key && record.state != .released)
      || state.dispatches.any fun record => record.state.retainsResources &&
          record.resources.any fun resource => resource.mapping == key)
    (.resourceInUse (.mapping key))
  return state.setMapping key .released

/-! ### Code and queues -/

def loadCode (key : LoadedCodeKey) (loadPlanId artifactId : IdentityDigest)
    (executableMapping : MappingKey) (entryOffset : Nat) : Except TransitionError RuntimeState := do
  ensureRoom state.loadedCode.length maxLoadedCode .loadedCode
  failIf (state.loadedCode.any (fun record => record.key == key))
    (.alreadyExists (.loadedCode key))
  state.requireVmActive key.vm
  let mapping ← state.mapping executableMapping
  failIf (executableMapping.allocation.vm != key.vm) (.bindingMismatch (.loadedCode key))
  failIf (mapping.state != .live || mapping.access != .readExecute)
    (.invalidAccess (.mapping executableMapping))
  failIf (decide (mapping.byteLen ≤ entryOffset)) (.invalidRange (.loadedCode key))
  return { state with loadedCode :=
    state.loadedCode ++ [⟨key, loadPlanId, artifactId, executableMapping, entryOffset, .live⟩] }

def unloadCode (key : LoadedCodeKey) : Except TransitionError RuntimeState := do
  requireState ((← state.code key).state == .live) (.loadedCode key)
  failIf (state.dispatches.any fun record => record.code == key && record.state.retainsResources)
    (.resourceInUse (.loadedCode key))
  return state.setCode key .released

def createQueue (key : QueueKey) (planId : IdentityDigest)
    (ringMapping : MappingKey) (capacity : Nat) : Except TransitionError RuntimeState := do
  ensureRoom state.queues.length maxQueues .queue
  failIf (state.queues.any (fun record => record.key == key)) (.alreadyExists (.queue key))
  state.requireVmActive key.vm
  failIf (invalidQueueCapacity capacity) (.invalidRange (.queue key))
  let mapping ← state.mapping ringMapping
  let requiredBytes ← okOr (.invalidRange (.queue key)) (checkedMul capacity aqlPacketBytes)
  failIf (ringMapping.allocation.vm != key.vm) (.bindingMismatch (.queue key))
  failIf (mapping.state != .live || mapping.access != .readWrite
      || decide (mapping.byteLen < requiredBytes)) (.invalidAccess (.mapping ringMapping))
  (state.queues.filter fun record => record.key.vm == key.vm && record.key.id == key.id).forM
    fun record => do
      failIf (record.state != .released) (.resourceInUse (.queue record.key))
      failIf (decide (key.generation ≤ record.key.generation)) (.illegalState (.queue key))
  return { state with queues := state.queues ++ [⟨key, planId, ringMapping, capacity, .ready⟩] }

def moveQueue (key : QueueKey) (expected next : QueueState) :
    Except TransitionError RuntimeState := do
  let record ← state.queue key
  requireState (record.state == expected) (.queue key)
  return state.setQueue key next

/-- A failing queue is released only after it came to rest. -/
def requireRest (key : QueueKey) (current : QueueState) : Except TransitionError Unit :=
  if current == .mayStillAccess then do
    let quiescent ← state.queueIsEffectivelyQuiescent key
    failIf (!quiescent) (.notQuiescent (.queue key))
  else
    .ok ()

def releaseQueue (key : QueueKey) : Except TransitionError RuntimeState := do
  let current := (← state.queue key).state
  state.requireRest key current
  requireState (current != .released) (.queue key)
  failIf (state.dispatches.any fun record =>
      record.key.queue == key && record.state.retainsResources) (.resourceInUse (.queue key))
  return state.setQueue key .released

/-! ### Dispatches -/

/-- The dispatches of a queue that still retain resources. -/
def active (queue : QueueKey) : Nat :=
  (state.dispatches.filter fun record =>
    record.key.queue == queue && record.state.retainsResources).length

def prepareDispatch (key : DispatchKey) (code : LoadedCodeKey) (completion : CompletionKey)
    (resources : List DispatchResource) : Except TransitionError RuntimeState := do
  ensureRoom state.dispatches.length maxDispatches .dispatch
  ensureRoom state.completions.length maxCompletions .completion
  failIf (state.dispatches.any (fun record => record.key == key)) (.alreadyExists (.dispatch key))
  failIf (state.completions.any (fun record => record.key == completion))
    (.alreadyExists (.completion completion))
  failIf (completion.dispatch != key) (.completionMismatch key)
  failIf (decide (maxDispatchResources < resources.length))
    (.capacityExceeded .dispatchResource maxDispatchResources)
  failIf (unorderedResources resources) (.nonCanonicalResources key)
  state.requireVmActive key.queue.vm
  let queue ← state.queue key.queue
  requireState (queue.state == .ready) (.queue key.queue)
  failIf (decide (queue.capacity ≤ state.active key.queue)) (.queueFull key.queue)
  let loaded ← state.code code
  failIf (code.vm != key.queue.vm) (.bindingMismatch (.dispatch key))
  requireState (loaded.state == .live) (.loadedCode code)
  resources.forM fun resource => do
    let mapping ← state.mapping resource.mapping
    failIf (resource.mapping.allocation.vm != key.queue.vm)
      (.bindingMismatch (.mapping resource.mapping))
    failIf (mapping.state != .live || !mapping.access.permits resource.requiredAccess)
      (.invalidAccess (.mapping resource.mapping))
  return { state with
    dispatches := state.dispatches ++ [⟨key, code, completion, resources, .prepared⟩]
    completions := state.completions ++ [⟨completion, .armed⟩] }

/-- The checks that every transition of a dispatch starts with. -/
def requireDispatch (completion : CompletionKey) (fromDispatch : DispatchState)
    (fromCompletion : CompletionState) : Except TransitionError Unit := do
  let dispatch ← state.dispatch completion.dispatch
  failIf (dispatch.completion != completion) (.completionMismatch completion.dispatch)
  requireState (dispatch.state == fromDispatch) (.dispatch completion.dispatch)
  requireState ((← state.completion completion).state == fromCompletion) (.completion completion)

def publishDispatch (completion : CompletionKey) : Except TransitionError RuntimeState := do
  state.requireDispatch completion .prepared .armed
  state.requireVmActive completion.dispatch.queue.vm
  requireState ((← state.queue completion.dispatch.queue).state == .ready)
    (.queue completion.dispatch.queue)
  return state.setDispatch completion.dispatch .published

def observeCompletion (completion : CompletionKey) : Except TransitionError RuntimeState := do
  state.requireDispatch completion .published .armed
  state.requireVmActive completion.dispatch.queue.vm
  requireState ((← state.queue completion.dispatch.queue).state == .ready)
    (.queue completion.dispatch.queue)
  return (state.setDispatch completion.dispatch .completed).setCompletion completion .observed

def settleAfterQuiescence (completion : CompletionKey) : Except TransitionError RuntimeState := do
  state.requireDispatch completion .ambiguous .ambiguous
  failIf (!(← state.queueIsEffectivelyQuiescent completion.dispatch.queue))
    (.notQuiescent (.queue completion.dispatch.queue))
  return (state.setDispatch completion.dispatch .failedQuiescent).setCompletion completion
    .quiescedFailure

def transitionDispatch (completion : CompletionKey) (fromDispatch toDispatch : DispatchState)
    (fromCompletion toCompletion : CompletionState) : Except TransitionError RuntimeState := do
  state.requireDispatch completion fromDispatch fromCompletion
  return (state.setDispatch completion.dispatch toDispatch).setCompletion completion toCompletion

/-! ### Transitions -/

def apply : RuntimeTransition → Except TransitionError RuntimeState
  | .addDevice key => state.addDevice key
  | .beginDeviceFailure key => state.moveDevice key .ready .mayStillAccess
  | .establishDeviceQuiescence key => state.moveDevice key .mayStillAccess .quiescent
  | .releaseDevice key => state.releaseDevice key
  | .createVm key => state.createVm key
  | .beginVmFailure key => state.moveVm key .active .mayStillAccess
  | .establishVmQuiescence key => state.moveVm key .mayStillAccess .quiescent
  | .releaseVm key => state.releaseVm key
  | .allocate key byteLen => state.allocate key byteLen
  | .releaseAllocation key => state.releaseAllocation key
  | .map key allocationOffset gpuVa byteLen access =>
    state.map key allocationOffset gpuVa byteLen access
  | .unmap key => state.unmap key
  | .loadCode key loadPlanId artifactId executableMapping entryOffset =>
    state.loadCode key loadPlanId artifactId executableMapping entryOffset
  | .unloadCode key => state.unloadCode key
  | .createQueue key planId ringMapping capacity =>
    state.createQueue key planId ringMapping capacity
  | .beginQueueFailure key => state.moveQueue key .ready .mayStillAccess
  | .establishQueueQuiescence key => state.moveQueue key .mayStillAccess .quiescent
  | .releaseQueue key => state.releaseQueue key
  | .prepareDispatch key code completion resources =>
    state.prepareDispatch key code completion resources
  | .abortPrepared completion =>
    state.transitionDispatch completion .prepared .abortedBeforePublication .armed
      .cancelledBeforePublication
  | .publishDispatch completion => state.publishDispatch completion
  | .markDispatchAmbiguous completion =>
    state.transitionDispatch completion .published .ambiguous .armed .ambiguous
  | .observeCompletion completion => state.observeCompletion completion
  | .settleAfterQuiescence completion => state.settleAfterQuiescence completion

/-! ### The checks of a whole state -/

/-- Rejects a state in which `condition` holds. -/
def violates (condition : Bool) (violation : InvariantViolation) : Except InvariantViolation Unit :=
  if condition then .error violation else .ok ()

def validateCapacities : Except InvariantViolation Unit :=
  [(state.devices.length, maxDevices, RecordKind.device),
    (state.vms.length, maxVms, .vm),
    (state.allocations.length, maxAllocations, .allocation),
    (state.mappings.length, maxMappings, .mapping),
    (state.loadedCode.length, maxLoadedCode, .loadedCode),
    (state.queues.length, maxQueues, .queue),
    (state.dispatches.length, maxDispatches, .dispatch),
    (state.completions.length, maxCompletions, .completion)].forM
    fun (actual, maximum, kind) => violates (decide (maximum < actual)) (.capacityExceeded kind)

def validateDevices : Except InvariantViolation Unit :=
  checkRows (fun earlier device => do
    violates (earlier.any fun other => other.key == device.key) (.duplicate (.device device.key))
    (state.devices.filter fun other => other.key.physical == device.key.physical
        && decide (other.key.generation < device.key.generation)).forM fun other =>
      violates (other.state != .released) (.invalidGeneration device.key)) [] state.devices

def validateVm (earlier : List VmRecord) (vm : VmRecord) : Except InvariantViolation Unit := do
  violates (earlier.any fun other => other.key == vm.key) (.duplicate (.vm vm.key))
  let device ← okOr (.missingParent (.vm vm.key))
    (lookup DeviceRecord.key vm.key.device state.devices)
  violates (device.state == .released && vm.state != .released)
    (.earlyRelease (.device device.key))

def validateAllocation (earlier : List AllocationRecord)
    (allocation : AllocationRecord) : Except InvariantViolation Unit := do
  violates (earlier.any fun other => other.key == allocation.key)
    (.duplicate (.allocation allocation.key))
  let vm ← okOr (.missingParent (.allocation allocation.key))
    (lookup VmRecord.key allocation.key.vm state.vms)
  violates (allocation.byteLen == 0) (.invalidRange (.allocation allocation.key))
  violates (vm.state == .released && allocation.state != .released) (.earlyRelease (.vm vm.key))

/-- A live mapping is compared with the live ones of its VM before it. -/
def validateOverlaps (earlier : List MappingRecord) (mapping : MappingRecord) :
    Except InvariantViolation Unit :=
  if mapping.state == .live then
    (earlier.filter fun other => other.state == .live
        && other.key.allocation.vm == mapping.key.allocation.vm).forM fun other =>
      violates (rangesOverlap mapping.gpuVa mapping.byteLen other.gpuVa other.byteLen)
        (.addressOverlap other.key mapping.key)
  else
    .ok ()

def validateMapping (earlier : List MappingRecord)
    (mapping : MappingRecord) : Except InvariantViolation Unit := do
  violates (earlier.any fun other => other.key == mapping.key) (.duplicate (.mapping mapping.key))
  let allocation ← okOr (.missingParent (.mapping mapping.key))
    (lookup AllocationRecord.key mapping.key.allocation state.allocations)
  violates (invalidMappingRange mapping.allocationOffset mapping.gpuVa mapping.byteLen
    allocation.byteLen) (.invalidRange (.mapping mapping.key))
  violates (allocation.state == .released && mapping.state != .released)
    (.earlyRelease (.allocation allocation.key))
  validateOverlaps earlier mapping

def validateVmsAndMemory : Except InvariantViolation Unit := do
  checkRows state.validateVm [] state.vms
  checkRows state.validateAllocation [] state.allocations
  checkRows state.validateMapping [] state.mappings

def validateCode (earlier : List LoadedCodeRecord)
    (code : LoadedCodeRecord) : Except InvariantViolation Unit := do
  violates (earlier.any fun other => other.key == code.key) (.duplicate (.loadedCode code.key))
  let mapping ← okOr (.missingParent (.loadedCode code.key))
    (lookup MappingRecord.key code.executableMapping state.mappings)
  violates (code.executableMapping.allocation.vm != code.key.vm)
    (.bindingMismatch (.loadedCode code.key))
  violates (decide (mapping.byteLen ≤ code.entryOffset)) (.invalidRange (.loadedCode code.key))
  violates (code.state == .live && (mapping.state != .live || mapping.access != .readExecute))
    (.invalidAccess (.loadedCode code.key))

def validateQueue (earlier : List QueueRecord) (queue : QueueRecord) :
    Except InvariantViolation Unit := do
  violates (earlier.any fun other => other.key == queue.key) (.duplicate (.queue queue.key))
  let mapping ← okOr (.missingParent (.queue queue.key))
    (lookup MappingRecord.key queue.ringMapping state.mappings)
  let required ← okOr (.invalidRange (.queue queue.key))
    (checkedMul queue.capacity aqlPacketBytes)
  violates (queue.ringMapping.allocation.vm != queue.key.vm) (.bindingMismatch (.queue queue.key))
  violates (invalidQueueCapacity queue.capacity || decide (mapping.byteLen < required))
    (.invalidRange (.queue queue.key))
  violates (queue.state != .released && (mapping.state != .live || mapping.access != .readWrite))
    (.invalidAccess (.queue queue.key))

def validateCodeAndQueues : Except InvariantViolation Unit := do
  checkRows state.validateCode [] state.loadedCode
  checkRows state.validateQueue [] state.queues

/-- What a dispatch that retains its resources needs of its queue, code and mappings. -/
def validateRetained (dispatch : DispatchRecord) (queue : QueueRecord)
    (code : LoadedCodeRecord) : Except InvariantViolation Unit :=
  if dispatch.state.retainsResources then do
    violates (queue.state == .released || code.state != .live)
      (.earlyRelease (.dispatch dispatch.key))
    dispatch.resources.forM fun resource => do
      let mapping ← okOr (.missingParent (.mapping resource.mapping))
        (lookup MappingRecord.key resource.mapping state.mappings)
      violates (resource.mapping.allocation.vm != dispatch.key.queue.vm)
        (.bindingMismatch (.mapping resource.mapping))
      violates (mapping.state != .live || !mapping.access.permits resource.requiredAccess)
        (.earlyRelease (.mapping resource.mapping))
  else
    .ok ()

def validateDispatch (earlier : List DispatchRecord)
    (dispatch : DispatchRecord) : Except InvariantViolation Unit := do
  violates (earlier.any fun other => other.key == dispatch.key)
    (.duplicate (.dispatch dispatch.key))
  let queue ← okOr (.missingParent (.dispatch dispatch.key))
    (lookup QueueRecord.key dispatch.key.queue state.queues)
  let code ← okOr (.missingParent (.dispatch dispatch.key))
    (lookup LoadedCodeRecord.key dispatch.code state.loadedCode)
  let completion ← okOr (.missingParent (.dispatch dispatch.key))
    (lookup CompletionRecord.key dispatch.completion state.completions)
  violates (dispatch.code.vm != dispatch.key.queue.vm) (.bindingMismatch (.dispatch dispatch.key))
  violates (dispatch.completion.dispatch != dispatch.key
    || !completionMatches dispatch.state completion.state) (.completionMismatch dispatch.key)
  violates (decide (maxDispatchResources < dispatch.resources.length)
    || unorderedResources dispatch.resources) (.nonCanonicalResources dispatch.key)
  state.validateRetained dispatch queue code

def validateCompletion (earlier : List CompletionRecord)
    (completion : CompletionRecord) : Except InvariantViolation Unit := do
  violates (earlier.any fun other => other.key == completion.key)
    (.duplicate (.completion completion.key))
  violates (!state.dispatches.any fun record => record.key == completion.key.dispatch
    && record.completion == completion.key) (.missingParent (.completion completion.key))

def validateDispatchesAndCompletions : Except InvariantViolation Unit := do
  checkRows state.validateDispatch [] state.dispatches
  checkRows state.validateCompletion [] state.completions
  state.queues.forM fun queue =>
    violates (decide (queue.capacity < state.active queue.key)) (.queueOversubscribed queue.key)

def validateGlobalInvariants : Except InvariantViolation Unit := do
  state.validateCapacities
  state.validateDevices
  state.validateVmsAndMemory
  state.validateCodeAndQueues
  state.validateDispatchesAndCompletions

/-! ### Batches -/

/-- One transition of a batch with the check of the state it leads to. -/
def advance (transition : RuntimeTransition) : Except TransitionError RuntimeState := do
  let next ← state.apply transition
  next.validateGlobalInvariants.mapError .nextInvariant
  return next

def nextAll (transitions : List RuntimeTransition) : Except TransitionError RuntimeState := do
  state.validateGlobalInvariants.mapError .sourceInvariant
  transitions.foldlM advance state

def next (transition : RuntimeTransition) : Except TransitionError RuntimeState :=
  state.nextAll [transition]

end RuntimeState

end Fe2o3.RuntimeModel
