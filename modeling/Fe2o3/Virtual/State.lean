import Fe2o3.Lib.Command
import Fe2o3.Virtual.Types

/-!
# The virtual runtime

Its tables and its calls, as commands on the state.

A call that fails keeps what it changed before: the ordinal of a handle stays
taken, and a dispatch whose simulation failed is aborted.  The points where the
source indexes, subtracts or expects are panics here.
-/

namespace Fe2o3.Virtual

open Lib KernelIr RuntimeModel

/-! ### Tables -/

structure BufferRecord where
  handle : VirtualBufferHandle
  allocation : AllocationKey
  mapping : MappingKey
  access : VirtualBufferAccess
  bytes : List UInt8
  initialized : List Bool
  retainedDispatches : Nat
  released : Bool
  deriving DecidableEq

structure ModuleRecord where
  handle : VirtualModuleHandle
  allocation : AllocationKey
  mapping : MappingKey
  code : LoadedCodeKey
  module : AdmittedModule
  released : Bool
  deriving DecidableEq

structure QueueRecord where
  handle : VirtualQueueHandle
  allocation : AllocationKey
  mapping : MappingKey
  queue : QueueKey
  quiescent : Bool
  released : Bool
  deriving DecidableEq

structure DispatchRecordLocal where
  completion : VirtualCompletionHandle
  modelCompletion : CompletionKey
  queue : VirtualQueueHandle
  module : VirtualModuleHandle
  request : VirtualDispatchRequest
  dynamicWorkgroupMemory : Option DynamicWorkgroupMemoryRequest
  retainedBuffers : List Nat
  state : VirtualCompletionState
  ambiguity : Option VirtualCompletionAmbiguity
  summary : Option VirtualSimulationSummary
  deriving DecidableEq

structure VirtualRuntime where
  config : VirtualRuntimeConfig
  model : RuntimeState
  vm : VmKey
  nextOrdinal : Nat
  nextAllocationId : Nat
  nextVa : Nat
  totalUserBytes : Nat
  retainedDispatchBytes : Nat
  buffers : List BufferRecord
  modules : List ModuleRecord
  queues : List QueueRecord
  dispatches : List DispatchRecordLocal

/-- The calls of the runtime. -/
abbrev Action (α : Type) := Command VirtualRuntime VirtualRuntimeError α

open Command

namespace VirtualRuntime

/-- A transition of the model; its error is wrapped. -/
def fromModel (result : Except TransitionError RuntimeState) :
    Except VirtualRuntimeError RuntimeState :=
  result.mapError .model

/-- Several transitions, one after the other. -/
def nextEach (model : RuntimeState) (transitions : List RuntimeTransition) :
    Except TransitionError RuntimeState :=
  transitions.foldlM RuntimeState.next model

def new (config : VirtualRuntimeConfig) : Except VirtualRuntimeError VirtualRuntime := do
  if config.runtimeIdentity = 0 then .error .invalidRuntimeIdentity
  else
    let runtimeLimits ← config.runtimeLimits.validate
    let simulationLimits ←
      config.simulationLimits.validate.mapError fun _ => .invalidLimit "simulation_limits"
    let device : DeviceKey := ⟨0, 1⟩
    let vm : VmKey := ⟨device, 1⟩
    let model ← fromModel (nextEach RuntimeState.new [.addDevice device, .createVm vm])
    return {
      config := { config with runtimeLimits := runtimeLimits, simulationLimits := simulationLimits }
      model := model
      vm := vm
      nextOrdinal := 1
      nextAllocationId := firstUserAllocationId
      nextVa := firstSyntheticVa
      totalUserBytes := 0
      retainedDispatchBytes := 0
      buffers := []
      modules := []
      queues := []
      dispatches := [] }

/-! ### Handles and indices -/

def takeOrdinal : Action Nat := do
  let runtime ← read
  let next ← expect (checkedAdd runtime.nextOrdinal 1)
  update fun runtime => { runtime with nextOrdinal := next }
  return runtime.nextOrdinal

def newHandle (kind : HandleKind) : Action (Handle kind) := do
  let ordinal ← takeOrdinal
  let runtime ← read
  return ⟨runtime.config.runtimeIdentity, ordinal⟩

variable (runtime : VirtualRuntime)

def validateHandle (kind : HandleKind) (identity : IdentityDigest) :
    Except VirtualRuntimeError Unit :=
  if identity ≠ runtime.config.runtimeIdentity then .error (.foreignHandle kind) else .ok ()

/-- The position of a handle in its table. -/
def indexOf {kind : HandleKind} (runtime : VirtualRuntime) (handles : List (Handle kind))
    (handle : Handle kind) : Except VirtualRuntimeError Nat := do
  runtime.validateHandle kind handle.runtimeIdentity
  okOr (.unknownHandle kind handle.ordinal) (handles.findIdx? (· == handle))

def bufferIndex (handle : VirtualBufferHandle) : Except VirtualRuntimeError Nat :=
  runtime.indexOf (runtime.buffers.map BufferRecord.handle) handle

def moduleIndex (handle : VirtualModuleHandle) : Except VirtualRuntimeError Nat :=
  runtime.indexOf (runtime.modules.map ModuleRecord.handle) handle

def queueIndex (handle : VirtualQueueHandle) : Except VirtualRuntimeError Nat :=
  runtime.indexOf (runtime.queues.map QueueRecord.handle) handle

def dispatchIndex (completion : VirtualCompletionHandle) : Except VirtualRuntimeError Nat :=
  runtime.indexOf (runtime.dispatches.map DispatchRecordLocal.completion) completion

/-- The record at a position of a table. -/
def recordAt {ρ : Type} (table : VirtualRuntime → List ρ) (index : Nat) : Action ρ := do
  let runtime ← read
  expect (table runtime)[index]?

abbrev bufferAt : Nat → Action BufferRecord := recordAt buffers

abbrev moduleAt : Nat → Action ModuleRecord := recordAt modules

abbrev queueAt : Nat → Action QueueRecord := recordAt queues

abbrev dispatchAt : Nat → Action DispatchRecordLocal := recordAt dispatches

def setBuffer (index : Nat) (f : BufferRecord → BufferRecord) : VirtualRuntime :=
  { runtime with buffers := runtime.buffers.modify index f }

def setModule (index : Nat) (f : ModuleRecord → ModuleRecord) : VirtualRuntime :=
  { runtime with modules := runtime.modules.modify index f }

def setQueue (index : Nat) (f : QueueRecord → QueueRecord) : VirtualRuntime :=
  { runtime with queues := runtime.queues.modify index f }

def setDispatch (index : Nat) (f : DispatchRecordLocal → DispatchRecordLocal) : VirtualRuntime :=
  { runtime with dispatches := runtime.dispatches.modify index f }

/-- The index of an unreleased buffer. -/
def bufferMut (handle : VirtualBufferHandle) : Action Nat := do
  let runtime ← read
  let index ← lift (runtime.bufferIndex handle)
  let record ← bufferAt index
  refuse record.released (.releasedHandle .buffer handle.ordinal)
  return index

def hostAccessibleBufferIndex (handle : VirtualBufferHandle) : Action Nat := do
  let runtime ← read
  let index ← lift (runtime.bufferIndex handle)
  let record ← bufferAt index
  refuse record.released (.releasedHandle .buffer handle.ordinal)
  refuse (record.retainedDispatches != 0) (.hostAccessWhileRetained handle.ordinal)
  return index

def requireLiveModule (index : Nat) : Action Unit := do
  let record ← moduleAt index
  refuse record.released (.releasedHandle .module record.handle.ordinal)

def requireLiveQueue (index : Nat) : Action Unit := do
  let record ← queueAt index
  refuse (record.released || record.quiescent) (.releasedHandle .queue record.handle.ordinal)

/-- Applies transitions to the model. -/
def advanceModel (transitions : List RuntimeTransition) : Action Unit := do
  let runtime ← read
  let next ← lift (fromModel (nextEach runtime.model transitions))
  update fun runtime => { runtime with model := next }

/-! ### Provisioning -/

/-- Rounds up to a multiple of the alignment, which is a power of two. -/
def alignUp (value alignment : Nat) : Except VirtualRuntimeError Nat :=
  okOr .byteLengthOverflow
    ((checkedAdd value (alignment - 1)).map fun value => value - value % alignment)

structure Provision where
  allocation : AllocationKey
  mapping : MappingKey
  model : RuntimeState
  nextVa : Nat

def provisionMapping (byteLen : Nat) (access : MemoryAccess)
    (allocationId : Nat) : Except VirtualRuntimeError Provision := do
  let allocation : AllocationKey := ⟨runtime.vm, allocationId⟩
  let mapping : MappingKey := ⟨allocation, allocationId⟩
  let stop ← okOr .byteLengthOverflow (checkedAdd runtime.nextVa byteLen)
  let nextVa ← alignUp stop vaAlignment
  let next ← fromModel (nextEach runtime.model
    [.allocate allocation byteLen, .map mapping 0 runtime.nextVa byteLen access])
  return ⟨allocation, mapping, next, nextVa⟩

/-- Takes over the model and the counters of a provision. -/
def commitProvision (provision : Provision) (model : RuntimeState) : Action Unit := do
  let runtime ← read
  let nextAllocationId ← expect (checkedAdd runtime.nextAllocationId 1)
  update fun runtime => { runtime with
    model := model
    nextVa := provision.nextVa
    nextAllocationId := nextAllocationId }

/-! ### Buffers -/

variable (environment : Environment)

def allocateBuffer (byteLen : Nat) (access : VirtualBufferAccess) : Action VirtualBufferHandle := do
  let runtime ← read
  refuse (byteLen == 0) .invalidBufferRange
  refuse (decide (runtime.config.runtimeLimits.maxUserAllocations ≤ runtime.buffers.length))
    (.capacityExceeded "allocation")
  let total ← lift (okOr .byteLengthOverflow (checkedAdd runtime.totalUserBytes byteLen))
  refuse (decide (runtime.config.runtimeLimits.maxTotalUserBytes < total))
    (.capacityExceeded "allocation bytes")
  let handle ← newHandle .buffer
  let runtime ← read
  let provision ←
    lift (runtime.provisionMapping byteLen access.modelAccess runtime.nextAllocationId)
  refuse (!environment.reserves .allocationBytes) (.capacityExceeded "allocation bytes")
  refuse (!environment.reserves .initializationBytes) (.capacityExceeded "initialization bytes")
  commitProvision provision provision.model
  update fun runtime => { runtime with
    totalUserBytes := total
    buffers := runtime.buffers ++ [{
      handle := handle
      allocation := provision.allocation
      mapping := provision.mapping
      access := access
      bytes := List.replicate byteLen 0
      initialized := List.replicate byteLen false
      retainedDispatches := 0
      released := false }] }
  return handle

/-- Writes bytes with their initialization into a buffer the host may access. -/
def writeFromHost (handle : VirtualBufferHandle) (offset : Nat) (source : List UInt8)
    (initialized : List Bool) : Action Unit := do
  let index ← hostAccessibleBufferIndex handle
  let record ← bufferAt index
  let stop ← lift (okOr .invalidBufferRange (checkedAdd offset source.length))
  refuse (decide (record.bytes.length < stop)) .invalidBufferRange
  -- Slicing the initialization bits panics past their end.
  expect (if stop ≤ record.initialized.length then some () else none)
  update fun runtime => runtime.setBuffer index fun record => { record with
    bytes := overwrite offset source record.bytes
    initialized := overwrite offset initialized record.initialized }

def copyFromHost (handle : VirtualBufferHandle) (offset : Nat) (source : List UInt8) :
    Action Unit :=
  writeFromHost handle offset source (source.map fun _ => true)

def copyFromHostWithInitialization (handle : VirtualBufferHandle) (offset : Nat)
    (source : List UInt8) (initialized : List Bool) : Action Unit := do
  refuse (source.length != initialized.length) .invalidBufferRange
  writeFromHost handle offset source initialized

/-- The bytes of a destination of the given length. -/
def copyToHost (handle : VirtualBufferHandle) (offset length : Nat) : Action (List UInt8) := do
  let index ← hostAccessibleBufferIndex handle
  let record ← bufferAt index
  let stop ← lift (okOr .invalidBufferRange (checkedAdd offset length))
  refuse (decide (record.bytes.length < stop)) .invalidBufferRange
  expect (if stop ≤ record.initialized.length then some () else none)
  match ((record.initialized.drop offset).take length).findIdx? (!·) with
  | some relative => fail (.uninitializedHostRead (offset + relative))
  | none => return (record.bytes.drop offset).take length

def bufferSnapshot (handle : VirtualBufferHandle) : Action (List UInt8 × List Bool) := do
  let index ← hostAccessibleBufferIndex handle
  let record ← bufferAt index
  return (record.bytes, record.initialized)

def releaseBuffer (handle : VirtualBufferHandle) : Action Unit := do
  let runtime ← read
  let index ← lift (runtime.bufferIndex handle)
  let record ← bufferAt index
  refuse record.released (.releasedHandle .buffer handle.ordinal)
  advanceModel [.unmap record.mapping, .releaseAllocation record.allocation]
  let runtime ← read
  let total ← expect (checkedSub runtime.totalUserBytes record.bytes.length)
  update fun runtime => { runtime.setBuffer index fun record =>
    { record with bytes := [], initialized := [], released := true } with totalUserBytes := total }

/-! ### Modules -/

/-- The exact targets among the capabilities of a module. -/
def exactTargets (module : AdmittedModule) : List String :=
  module.effectiveCapabilities.filterMap fun
    | .extension ns name => if ns = amdgpuExactTargetCapabilityNamespace then some name else none
    | _ => none

def validateModuleTarget (module : AdmittedModule) : Except VirtualRuntimeError Unit :=
  match exactTargets module with
  | [] => .ok ()
  | first :: second :: _ => .error (.multipleExactTargets first second)
  | [target] =>
    if target ≠ runtime.config.target.label then
      .error (.exactTargetMismatch target runtime.config.target.label)
    else .ok ()

def registerModule (module : AdmittedModule) : Action VirtualModuleHandle := do
  let runtime ← read
  refuse (decide (runtime.config.runtimeLimits.maxModules ≤ runtime.modules.length))
    (.capacityExceeded "module")
  lift (runtime.validateModuleTarget module)
  let handle ← newHandle .module
  let runtime ← read
  let byteLen := max module.identity.canonicalLength 1
  let provision ←
    lift (runtime.provisionMapping byteLen .readExecute runtime.nextAllocationId)
  let code : LoadedCodeKey := ⟨runtime.vm, handle.ordinal⟩
  let digest := module.identity.digest
  let next ← lift (fromModel
    (provision.model.next (.loadCode code digest digest provision.mapping 0)))
  commitProvision provision next
  update fun runtime => { runtime with modules := runtime.modules ++ [{
    handle := handle
    allocation := provision.allocation
    mapping := provision.mapping
    code := code
    module := module
    released := false }] }
  return handle

def releaseModule (handle : VirtualModuleHandle) : Action Unit := do
  let runtime ← read
  let index ← lift (runtime.moduleIndex handle)
  let record ← moduleAt index
  refuse record.released (.releasedHandle .module handle.ordinal)
  advanceModel [.unloadCode record.code, .unmap record.mapping,
    .releaseAllocation record.allocation]
  update fun runtime => runtime.setModule index fun record => { record with released := true }

/-! ### Queues -/

def createQueue (capacity : Nat) : Action VirtualQueueHandle := do
  let runtime ← read
  refuse (decide (runtime.config.runtimeLimits.maxQueues ≤ runtime.queues.length))
    (.capacityExceeded "queue")
  refuse (invalidQueueCapacity capacity) (.invalidLimit "queue capacity")
  let handle ← newHandle .queue
  let runtime ← read
  let ringBytes ← lift (okOr .byteLengthOverflow (checkedMul capacity aqlPacketBytes))
  let provision ←
    lift (runtime.provisionMapping ringBytes .readWrite runtime.nextAllocationId)
  let queue : QueueKey := ⟨runtime.vm, handle.ordinal, 1⟩
  let next ← lift (fromModel (provision.model.next
    (.createQueue queue runtime.config.runtimeIdentity provision.mapping capacity)))
  commitProvision provision next
  update fun runtime => { runtime with queues := runtime.queues ++ [{
    handle := handle
    allocation := provision.allocation
    mapping := provision.mapping
    queue := queue
    quiescent := false
    released := false }] }
  return handle

def releaseQueue (handle : VirtualQueueHandle) : Action Unit := do
  let runtime ← read
  let index ← lift (runtime.queueIndex handle)
  let record ← queueAt index
  refuse record.released (.releasedHandle .queue handle.ordinal)
  advanceModel [.releaseQueue record.queue, .unmap record.mapping,
    .releaseAllocation record.allocation]
  update fun runtime => runtime.setQueue index fun record => { record with released := true }

/-! ### Submission -/

/-- What is known of a buffer while the arguments are scanned. -/
structure BufferLayout where
  buffer : VirtualBufferHandle
  index : Nat
  element : ScalarType
  access : MemoryAccess

/-- The `Debug` text of an element type. -/
def elementText : ScalarType → String
  | .bool => "Bool"
  | .i8 => "I8"
  | .i16 => "I16"
  | .i32 => "I32"
  | .i64 => "I64"
  | .i128 => "I128"
  | .u8 => "U8"
  | .u16 => "U16"
  | .u32 => "U32"
  | .u64 => "U64"
  | .u128 => "U128"
  | .index => "Index"
  | .f16 => "F16"
  | .bf16 => "BF16"
  | .f32 => "F32"
  | .f64 => "F64"

/-- A view that the buffer cannot hold at this alignment. -/
def invalidAlignment (alignment byteOffset : Nat) : Bool :=
  alignment == 0 || !isPowerOfTwo alignment || byteOffset % alignment != 0

/-- The checks of one buffer argument against the record it names. -/
def checkView (record : BufferRecord) (view : BufferView) : Except VirtualRuntimeError Unit := do
  let ordinal := view.buffer.ordinal
  if record.released then .error (.releasedHandle .buffer ordinal)
  else if !record.access.permits view.access then .error (.invalidBufferAccess ordinal)
  else
    match virtualScalarBytes view.element with
    | none => .error (.simulatorBuffer
        s!"buffer {ordinal} uses unsupported element {elementText view.element}")
    | some elementBytes =>
      if invalidAlignment view.alignment view.byteOffset then
        .error (.simulatorBuffer
          (s!"buffer {ordinal} view alignment {view.alignment} is invalid" ++
            s!" at byte offset {view.byteOffset}"))
      else if record.bytes.length % elementBytes != 0 then
        .error (.simulatorBuffer
          (s!"buffer {ordinal} byte length {record.bytes.length} is not a multiple of" ++
            s!" {elementBytes}"))
      else do
        let stop ← okOr .byteLengthOverflow (viewEnd view.byteOffset view.elements elementBytes)
        if record.bytes.length < stop then .error .invalidBufferRange else .ok ()

/-- The access that a view requires of its mapping. -/
def requiredAccess : AccessMode → MemoryAccess
  | .readOnly => .read
  | .writeOnly | .readWrite => .readWrite

/-- Adds the layout of one argument to those seen so far. -/
def noteLayout (argument : Nat) (layouts : List BufferLayout)
    (index : Nat) (view : BufferView) : Except VirtualRuntimeError (List BufferLayout) :=
  match layouts.find? (fun layout => layout.buffer == view.buffer) with
  | some layout =>
    if layout.element ≠ view.element then
      .error (.simulatorBuffer
        (s!"buffer {view.buffer.ordinal} cannot mix {elementText layout.element} and" ++
          s!" {elementText view.element} views"))
    else .ok (layouts.map fun other =>
      if other.buffer == view.buffer && requiredAccess view.access == .readWrite then
        { other with access := .readWrite }
      else other)
  | none =>
    if maxDispatchResources ≤ layouts.length then
      .error (.capacityExceeded "dispatch resources")
    else if !environment.reserves (.dispatchBuffers argument) then
      .error (.capacityExceeded "dispatch buffers")
    else .ok (layouts ++ [⟨view.buffer, index, view.element, requiredAccess view.access⟩])

/-- Scans the arguments; scalars name no buffer. -/
def collectArguments (environment : Environment) (layouts : List BufferLayout) :
    List (VirtualArgument × Nat) → Action (List BufferLayout)
  | [] => pure layouts
  | (.scalar _, _) :: arguments => collectArguments environment layouts arguments
  | (.buffer view, argument) :: arguments => do
    let runtime ← read
    let index ← lift (runtime.bufferIndex view.buffer)
    let record ← bufferAt index
    lift (checkView record view)
    let layouts ← lift (noteLayout environment argument layouts index view)
    collectArguments environment layouts arguments

/-- The mappings of the collected buffers, with the access that was found for them. -/
def collectResources (layouts : List BufferLayout) : List Nat → Action (List DispatchResource)
  | [] => pure []
  | index :: indices => do
    let record ← bufferAt index
    let layout ← expect (layouts.find? fun layout => layout.buffer == record.handle)
    let resources ← collectResources layouts indices
    return ⟨record.mapping, layout.access⟩ :: resources

def validateAndCollectResources (arguments : List VirtualArgument) :
    Action (List DispatchResource × List Nat) := do
  let layouts ← collectArguments environment [] arguments.zipIdx
  let bufferIndices := (layouts.map BufferLayout.index).insertionSort (· ≤ ·)
  refuse (!environment.reserves .dispatchResources) (.capacityExceeded "dispatch resources")
  let resources ← collectResources layouts bufferIndices
  return (resources, bufferIndices)

def retainedDispatchRequestBytes (storage : RequestStorage) : Except VirtualRuntimeError Nat :=
  okOr .byteLengthOverflow <|
    (checkedAdd storage.sizeOfRequest storage.kernelBytes).bind fun bytes =>
    (checkedMul storage.argumentCapacity storage.sizeOfArgument).bind fun arguments =>
    (checkedAdd bytes arguments).bind fun bytes =>
    (checkedMul storage.dependencyCapacity 40).bind fun dependencies =>
    (checkedAdd bytes dependencies).bind fun bytes =>
    (checkedMul storage.retainedBufferCapacity 8).bind fun buffers =>
    checkedAdd bytes buffers

/-- The first of two equal neighbours. -/
def firstDuplicate : List VirtualCompletionHandle → Option VirtualCompletionHandle
  | first :: second :: rest =>
    if first = second then some first else firstDuplicate (second :: rest)
  | _ => none

/-- A dependency is an earlier dispatch of this runtime. -/
def checkDependency (futureOrdinal : Nat)
    (dependency : VirtualCompletionHandle) : Except VirtualRuntimeError Unit := do
  runtime.validateHandle .completion dependency.runtimeIdentity
  if decide (futureOrdinal ≤ dependency.ordinal) ||
      !runtime.dispatches.any (fun record => record.completion == dependency) then
    .error (.forwardDependency dependency.ordinal)
  else .ok ()

/-- One more dispatch holds the buffer. -/
def retainBuffer (index : Nat) : Action Unit := do
  let record ← bufferAt index
  let count ← expect (checkedAdd record.retainedDispatches 1)
  update fun runtime => runtime.setBuffer index fun record =>
    { record with retainedDispatches := count }

def submitConfigured (queue : VirtualQueueHandle)
    (module : VirtualModuleHandle) (request : VirtualDispatchRequest)
    (dynamicWorkgroupMemory : Option DynamicWorkgroupMemoryRequest) :
    Action VirtualCompletionHandle := do
  let runtime ← read
  refuse (decide (runtime.config.runtimeLimits.maxDispatches ≤ runtime.dispatches.length))
    (.capacityExceeded "dispatch")
  let queueIndex ← lift (runtime.queueIndex queue)
  let moduleIndex ← lift (runtime.moduleIndex module)
  requireLiveQueue queueIndex
  requireLiveModule moduleIndex
  refuse (decide (runtime.config.runtimeLimits.maxArgumentsPerDispatch < request.arguments.length))
    (.capacityExceeded "dispatch arguments")
  refuse (decide
      (runtime.config.runtimeLimits.maxDependenciesPerDispatch < request.dependencies.length))
    (.capacityExceeded "dispatch dependency")
  let futureOrdinal := runtime.nextOrdinal
  let request := { request with
    dependencies := request.dependencies.insertionSort fun left right => left.atMost right }
  match firstDuplicate request.dependencies with
  | some handle => fail (.duplicateDependency handle.ordinal)
  | none =>
    lift (request.dependencies.forM (runtime.checkDependency futureOrdinal))
    let (resources, retainedBuffers) ←
      validateAndCollectResources environment request.arguments
    let retainedBytes ← lift (retainedDispatchRequestBytes environment.storage)
    let nextRetainedBytes ←
      lift (okOr .byteLengthOverflow (checkedAdd runtime.retainedDispatchBytes retainedBytes))
    refuse (decide (runtime.config.runtimeLimits.maxRetainedDispatchBytes < nextRetainedBytes))
      (.capacityExceeded "retained dispatch bytes")
    refuse (!environment.reserves .dispatchStorage) (.capacityExceeded "dispatch storage")
    let completion ← newHandle .completion
    let queueRecord ← queueAt queueIndex
    let moduleRecord ← moduleAt moduleIndex
    let dispatchKey : DispatchKey := ⟨queueRecord.queue, completion.ordinal⟩
    let modelCompletion : CompletionKey := ⟨dispatchKey, completion.ordinal⟩
    advanceModel [.prepareDispatch dispatchKey moduleRecord.code modelCompletion resources]
    retainedBuffers.forM retainBuffer
    update fun runtime => { runtime with
      retainedDispatchBytes := nextRetainedBytes
      dispatches := runtime.dispatches ++ [{
        completion := completion
        modelCompletion := modelCompletion
        queue := queue
        module := module
        request := request
        dynamicWorkgroupMemory := dynamicWorkgroupMemory
        retainedBuffers := retainedBuffers
        state := .prepared
        ambiguity := none
        summary := none }] }
    return completion

def submit (queue : VirtualQueueHandle) (module : VirtualModuleHandle)
    (request : VirtualDispatchRequest) : Action VirtualCompletionHandle :=
  submitConfigured environment queue module request none

def submitWithDynamicWorkgroupMemory (queue : VirtualQueueHandle)
    (module : VirtualModuleHandle) (request : VirtualDispatchRequest)
    (dynamic : DynamicWorkgroupMemoryRequest) : Action VirtualCompletionHandle :=
  submitConfigured environment queue module request (some dynamic)

/-! ### Ends of a dispatch -/

/-- One dispatch less holds the buffer. -/
def releaseBufferRetention (index : Nat) : Action Unit := do
  let record ← bufferAt index
  let count ← expect (checkedSub record.retainedDispatches 1)
  update fun runtime => runtime.setBuffer index fun record =>
    { record with retainedDispatches := count }

def releaseDispatchBufferRetention (index : Nat) : Action Unit := do
  let dispatch ← dispatchAt index
  dispatch.retainedBuffers.forM releaseBufferRetention

/-- Aborts a prepared dispatch, which then has the given state. -/
def abandonPrepared (index : Nat) (state : VirtualCompletionState) : Action Unit := do
  let dispatch ← dispatchAt index
  advanceModel [.abortPrepared dispatch.modelCompletion]
  update fun runtime => runtime.setDispatch index fun dispatch => { dispatch with state := state }
  releaseDispatchBufferRetention index

def abortPreparedDispatch (index : Nat) : Action Unit :=
  abandonPrepared index .abortedSimulation

/-- Cancels work that was not published. -/
def cancelCompletion (completion : VirtualCompletionHandle) : Action Unit := do
  let runtime ← read
  let index ← lift (runtime.dispatchIndex completion)
  let dispatch ← dispatchAt index
  refuse (dispatch.state != .prepared) (.completionNotPrepared completion.ordinal)
  abandonPrepared index .cancelled

/-! ### Ambiguity and settlement -/

def preparedCompletionOnQueue (queue : VirtualQueueHandle)
    (except : Option VirtualCompletionHandle) : Option VirtualCompletionHandle :=
  (runtime.dispatches.find? fun record =>
    record.queue == queue && record.state == .prepared &&
      some record.completion != except).map DispatchRecordLocal.completion

/-- The range that one argument of a dispatch may write. -/
def writableRange (dispatch : DispatchRecordLocal) (argument : VirtualArgument) :
    Action (Option (Nat × Nat × Nat)) :=
  match argument with
  | .scalar _ => pure none
  | .buffer view =>
    if view.access = .readOnly then pure none
    else do
      let elementBytes ← expect (virtualScalarBytes view.element)
      let stop ← expect (viewEnd view.byteOffset view.elements elementBytes)
      let runtime ← read
      let bufferIndex ← expect (dispatch.retainedBuffers.find? fun index =>
        runtime.buffers[index]?.map BufferRecord.handle == some view.buffer)
      return some (bufferIndex, view.byteOffset, stop)

/-- Collects the ranges of the arguments in order. -/
def collectRanges (dispatch : DispatchRecordLocal) :
    List VirtualArgument → Action (List (Nat × Nat × Nat))
  | [] => pure []
  | argument :: arguments => do
    let range ← writableRange dispatch argument
    let ranges ← collectRanges dispatch arguments
    return range.toList ++ ranges

def dispatchWritableRanges (index : Nat) : Action (List (Nat × Nat × Nat)) := do
  let dispatch ← dispatchAt index
  refuse (!environment.reserves .writableRanges) (.capacityExceeded "dispatch ranges")
  -- The table of handles is built by indexing every retained buffer.
  dispatch.retainedBuffers.forM fun buffer => do
    let _ ← bufferAt buffer
  collectRanges dispatch dispatch.request.arguments

/-- The bytes of a range are no longer initialized. -/
def forgetRange (range : Nat × Nat × Nat) : Action Unit := do
  let record ← bufferAt range.1
  expect (if range.2.1 ≤ range.2.2 ∧ range.2.2 ≤ record.initialized.length then some () else none)
  update fun runtime => runtime.setBuffer range.1 fun record => { record with
    initialized :=
      overwrite range.2.1 (List.replicate (range.2.2 - range.2.1) false) record.initialized }

def transitionToAmbiguous (completion : VirtualCompletionHandle)
    (reason : VirtualCompletionAmbiguity) : Action Unit := do
  let runtime ← read
  let index ← lift (runtime.dispatchIndex completion)
  let dispatch ← dispatchAt index
  refuse (dispatch.state != .prepared) (.completionNotPrepared completion.ordinal)
  match runtime.preparedCompletionOnQueue dispatch.queue (some dispatch.completion) with
  | some sibling => fail (.queueHasPreparedDispatch dispatch.queue.ordinal sibling.ordinal)
  | none =>
    let writableRanges ← dispatchWritableRanges environment index
    advanceModel [.publishDispatch dispatch.modelCompletion,
      .markDispatchAmbiguous dispatch.modelCompletion]
    update fun runtime => runtime.setDispatch index fun dispatch =>
      { dispatch with state := .ambiguous, ambiguity := some reason }
    writableRanges.forM forgetRange

def markCompletionAmbiguous (completion : VirtualCompletionHandle) : Action Unit :=
  transitionToAmbiguous environment completion .publicationOutcomeUnknown

def observeCompletionTimeout (completion : VirtualCompletionHandle) : Action Unit :=
  transitionToAmbiguous environment completion .waitDeadlineExpired

def quiesceQueue (queue : VirtualQueueHandle) : Action Unit := do
  let runtime ← read
  let index ← lift (runtime.queueIndex queue)
  requireLiveQueue index
  match runtime.preparedCompletionOnQueue queue none with
  | some completion => fail (.queueHasPreparedDispatch queue.ordinal completion.ordinal)
  | none =>
    let record ← queueAt index
    advanceModel [.beginQueueFailure record.queue, .establishQueueQuiescence record.queue]
    update fun runtime => runtime.setQueue index fun record => { record with quiescent := true }

def settleAmbiguousCompletion (completion : VirtualCompletionHandle) : Action Unit := do
  let runtime ← read
  let index ← lift (runtime.dispatchIndex completion)
  let dispatch ← dispatchAt index
  refuse (dispatch.state != .ambiguous) (.completionNotAmbiguous completion.ordinal)
  let queueIndex ← lift (runtime.queueIndex dispatch.queue)
  let queue ← queueAt queueIndex
  refuse (!queue.quiescent) (.queueNotQuiescent dispatch.queue.ordinal)
  advanceModel [.settleAfterQuiescence dispatch.modelCompletion]
  update fun runtime => runtime.setDispatch index fun dispatch =>
    { dispatch with state := .failedQuiescent }
  releaseDispatchBufferRetention index

/-! ### Execution -/

/-- The texts of the simulator's own checks. -/
def simulationBufferError (detail : String) : VirtualRuntimeError :=
  .simulatorBuffer ("invalid simulation buffer: " ++ detail)

def newBufferArgument (element : ScalarType) (access : AccessMode) (alignment : Nat)
    (bytes : List UInt8) (initialized : List Bool) : Except VirtualRuntimeError BufferArgument :=
  match virtualScalarBytes element with
  | none => .error (simulationBufferError s!"UnsupportedElement({elementText element})")
  | some elementBytes =>
    if alignment == 0 || !isPowerOfTwo alignment then
      .error (simulationBufferError s!"InvalidAlignment({alignment})")
    else if bytes.length != initialized.length then
      .error (simulationBufferError ("InitializationLength \x7b bytes: " ++ toString bytes.length ++
        ", initialized: " ++ toString initialized.length ++ " \x7d"))
    else if bytes.length % elementBytes != 0 then
      .error (simulationBufferError ("PartialElement \x7b bytes: " ++ toString bytes.length ++
        ", element_bytes: " ++ toString elementBytes ++ " \x7d"))
    else .ok ⟨element, access, alignment, bytes, initialized⟩

def newBufferView (backing : Nat) (view : BufferView) :
    Except VirtualRuntimeError SimulationArgument :=
  if invalidAlignment view.alignment view.byteOffset then
    .error (simulationBufferError s!"InvalidAlignment({view.alignment})")
  else
    match virtualScalarBytes view.element with
    | none => .error (simulationBufferError s!"UnsupportedElement({elementText view.element})")
    | some elementBytes =>
      if (viewEnd view.byteOffset view.elements elementBytes).isNone then
        .error (simulationBufferError "ByteLengthOverflow")
      else .ok (.bufferView backing view.element view.access view.alignment view.byteOffset
        view.elements)

/-- The element, access and alignment of a backing so far. -/
structure BackingLayout where
  element : ScalarType
  access : AccessMode
  alignment : Nat

/-- A backing is read-only until a view may write it. -/
def backingAccess (access : AccessMode) : AccessMode :=
  if access = .readOnly then .readOnly else .readWrite

/-- One more view of a backing. -/
def joinView (ordinal : Nat) (layout : BackingLayout) (view : BufferView) :
    Except VirtualRuntimeError BackingLayout :=
  if view.element ≠ layout.element then
    .error (.simulatorBuffer
      s!"buffer {ordinal} cannot be viewed with multiple scalar element types")
  else .ok {
    layout with
    alignment := max layout.alignment view.alignment
    access := if view.access ≠ .readOnly then .readWrite else layout.access }

/-- The shared buffer of one retained buffer. -/
def shareBuffer (request : VirtualDispatchRequest) (backing : Nat × Nat) : Action SharedBuffer := do
  let record ← bufferAt backing.1
  match (request.arguments.filterMap VirtualArgument.view?).filter
      (fun view => view.buffer == record.handle) with
  | [] => expect none
  | first :: views =>
    let layout ← lift (views.foldlM (joinView record.handle.ordinal)
      ⟨first.element, backingAccess first.access, first.alignment⟩)
    refuse (!environment.reserves (.simulatorBytes backing.2))
      (.capacityExceeded "dispatch buffer bytes")
    refuse (!environment.reserves (.simulatorInitialized backing.2))
      (.capacityExceeded "dispatch initialization bytes")
    let buffer ← lift (newBufferArgument layout.element layout.access layout.alignment record.bytes
      record.initialized)
    return ⟨backing.2, buffer⟩

/-- Collects the shared buffers in order. -/
def shareBuffers (environment : Environment) (request : VirtualDispatchRequest) :
    List (Nat × Nat) → Action (List SharedBuffer)
  | [] => pure []
  | backing :: backings => do
    let shared ← shareBuffer environment request backing
    let rest ← shareBuffers environment request backings
    return shared :: rest

/-- The handles of retained buffers. -/
def collectHandles : List Nat → Action (List VirtualBufferHandle)
  | [] => pure []
  | index :: indices => do
    let record ← bufferAt index
    let handles ← collectHandles indices
    return record.handle :: handles

/-- Translates the arguments; a view names its backing by position. -/
def translateArguments (handles : List VirtualBufferHandle) :
    List VirtualArgument → Action (List SimulationArgument)
  | [] => pure []
  | .scalar value :: arguments => do
    let rest ← translateArguments handles arguments
    return .scalar value :: rest
  | .buffer view :: arguments => do
    let backing ← expect (handles.findIdx? (· == view.buffer))
    let argument ← lift (newBufferView backing view)
    let rest ← translateArguments handles arguments
    return argument :: rest

def buildSimulationRequest (index : Nat) :
    Action (SimulationRequest × List VirtualBufferHandle) := do
  let dispatch ← dispatchAt index
  refuse (!environment.reserves .simulatorHandles) (.capacityExceeded "dispatch buffers")
  let handles ← collectHandles dispatch.retainedBuffers
  refuse (!environment.reserves .simulatorShared) (.capacityExceeded "dispatch buffers")
  let shared ← shareBuffers environment dispatch.request dispatch.retainedBuffers.zipIdx
  refuse (!environment.reserves .simulatorArguments) (.capacityExceeded "dispatch arguments")
  let arguments ← translateArguments handles dispatch.request.arguments
  return ({
    kernel := dispatch.request.kernel
    grid := dispatch.request.grid
    workgroup := dispatch.request.workgroup
    arguments := arguments
    sharedBuffers := shared }, handles)

def summarize (target : VirtualTargetProfile) (dynamic : Option DynamicWorkgroupMemoryRequest)
    (execution : Execution) : VirtualSimulationSummary where
  kirIdentity := execution.identity
  target := target
  dynamicWorkgroupMemory := dynamic
  invocationsExecuted := execution.invocationsExecuted
  workgroupsVisited := execution.workgroupsVisited
  scheduledSlotsVisited := execution.scheduledSlotsVisited
  stepsExecuted := execution.stepsExecuted
  schedule := execution.schedule
  scheduleTranscriptIdentity := execution.scheduleTranscriptIdentity
  scheduleDecisions := execution.scheduleDecisions
  scheduleBarrierReleases := execution.scheduleBarrierReleases
  conflictState := execution.conflictAssessment
  raceState := execution.raceAssessment

/-- Copies the outputs before the model is asked. -/
def collectCopybacks (outputs : List ((VirtualBufferHandle × SharedBuffer) × Nat)) :
    Except VirtualRuntimeError (List (VirtualBufferHandle × List UInt8 × List Bool)) :=
  if !environment.reserves .copyback then .error (.capacityExceeded "dispatch copyback")
  else outputs.mapM fun output =>
    if !environment.reserves (.copybackBytes output.2) then
      .error (.capacityExceeded "dispatch copyback bytes")
    else if !environment.reserves (.copybackInitialized output.2) then
      .error (.capacityExceeded "dispatch copyback initialization")
    else .ok (output.1.1, output.1.2.buffer.bytes, output.1.2.buffer.initialized)

/-- Installs the contents of one output. -/
def copyBack (entry : VirtualBufferHandle × List UInt8 × List Bool) : Action Unit := do
  let index ← bufferMut entry.1
  update fun runtime => runtime.setBuffer index fun record =>
    { record with bytes := entry.2.1, initialized := entry.2.2 }

/-- Gives up the dispatch for an error met before its publication. -/
def giveUp {α : Type} (index : Nat) (error : VirtualRuntimeError) : Action α := do
  abortPreparedDispatch index
  fail error

def executeDispatch (index : Nat) : Action VirtualRunProgress := do
  let runtime ← read
  let dispatch ← dispatchAt index
  let moduleIndex ← lift (runtime.moduleIndex dispatch.module)
  let (request, backingHandles) ←
    recover (buildSimulationRequest environment index) (giveUp index)
  let moduleRecord ← moduleAt moduleIndex
  match environment.simulate moduleRecord.module request dispatch.dynamicWorkgroupMemory
      runtime.config.simulationLimits runtime.config.runtimeLimits.maxScheduleDecisions with
  | .error source => giveUp index (.simulation dispatch.completion source)
  | .ok execution =>
    let summary := summarize runtime.config.target dispatch.dynamicWorkgroupMemory execution
    let outputs := execution.outputs request.sharedBuffers
    if outputs.length != backingHandles.length then
      giveUp index (.simulatorBuffer "simulator output backing count changed")
    else
      match collectCopybacks environment (backingHandles.zip outputs).zipIdx with
      | .error error => giveUp index error
      | .ok copybacks =>
        match nextEach runtime.model [.publishDispatch dispatch.modelCompletion,
            .observeCompletion dispatch.modelCompletion] with
        | .error error => giveUp index (.model error)
        | .ok next =>
          update fun runtime => { runtime with model := next }
          copybacks.forM copyBack
          update fun runtime => runtime.setDispatch index fun dispatch =>
            { dispatch with state := .completed, summary := some summary }
          releaseDispatchBufferRetention index
          return .completed dispatch.completion summary

/-! ### Scheduling -/

inductive DependencyReadiness where
  | ready
  | blocked
  | failed (dependency : VirtualCompletionHandle)
  deriving DecidableEq

/-- The readiness that the dependencies from here on decide. -/
def readinessFrom : List VirtualCompletionHandle → Action DependencyReadiness
  | [] => pure .ready
  | dependency :: dependencies => do
    let runtime ← read
    let index ← expect (runtime.dispatchIndex dependency).toOption
    let record ← dispatchAt index
    match record.state with
    | .completed => readinessFrom dependencies
    | .cancelled | .abortedDependency | .abortedSimulation | .failedQuiescent =>
      return .failed dependency
    | .prepared | .ambiguous => return .blocked

def dependencyReadiness (index : Nat) : Action DependencyReadiness := do
  let dispatch ← dispatchAt index
  readinessFrom dispatch.request.dependencies

/-- The scan of `runNext` over the remaining indices. -/
def runFrom (environment : Environment) (blocked : Bool) :
    List Nat → Action VirtualRunProgress
  | [] => return if blocked then .blocked else .idle
  | index :: indices => do
    let dispatch ← dispatchAt index
    if dispatch.state ≠ .prepared then runFrom environment blocked indices
    else
      match ← dependencyReadiness index with
      | .blocked => runFrom environment true indices
      | .failed dependency =>
        abandonPrepared index .abortedDependency
        return .abortedDependency dispatch.completion dependency
      | .ready => executeDispatch environment index

def runNext : Action VirtualRunProgress := do
  let runtime ← read
  runFrom environment false (List.range runtime.dispatches.length)

/-! ### Observers -/

def dispatch (completion : VirtualCompletionHandle) : Action DispatchRecordLocal := do
  let runtime ← read
  let index ← lift (runtime.dispatchIndex completion)
  dispatchAt index

def completionState (completion : VirtualCompletionHandle) : Action VirtualCompletionState := do
  let record ← dispatch completion
  return record.state

def completionSummary (completion : VirtualCompletionHandle) :
    Action (Option VirtualSimulationSummary) := do
  let record ← dispatch completion
  return record.summary

def completionAmbiguity (completion : VirtualCompletionHandle) :
    Action (Option VirtualCompletionAmbiguity) := do
  let record ← dispatch completion
  return record.ambiguity

/-- The dispatches that keep the host from a buffer, in the order of their completions.  What is
    hashed of them, within the limits of the caller, is not modelled. -/
def captureHostLifetimeEvidence (buffer : VirtualBufferHandle) :
    Except VirtualHostLifetimeCaptureError (List DispatchRecordLocal) := do
  if buffer.runtimeIdentity ≠ runtime.config.runtimeIdentity then throw .foreignBuffer
  let (record, index) ← okOr .unknownBuffer
    (runtime.buffers.zipIdx.find? fun entry => entry.1.handle == buffer)
  if record.released then throw .releasedBuffer
  if record.retainedDispatches = 0 then throw .bufferNotRetained
  let matching := (runtime.dispatches.filter fun dispatch =>
    dispatch.retainedBuffers.contains index &&
      (dispatch.state == .prepared || dispatch.state == .ambiguous)).insertionSort
    fun left right => left.completion.ordinal ≤ right.completion.ordinal
  if matching.length ≠ record.retainedDispatches then throw .inconsistentRetention
  return matching

/-! ### Reset -/

/-- The transitions that the reset reserves room for. -/
def transitionCapacity : Option Nat :=
  (checkedMul runtime.dispatches.length 2).bind fun dispatches =>
  (checkedMul runtime.queues.length 5).bind fun queues =>
  (checkedAdd dispatches queues).bind fun count =>
  (checkedMul runtime.modules.length 3).bind fun modules =>
  (checkedAdd count modules).bind fun count =>
  (checkedMul runtime.buffers.length 2).bind fun buffers =>
  (checkedAdd count buffers).bind fun count =>
  checkedAdd count 6

def preparedDispatches : List DispatchRecordLocal :=
  runtime.dispatches.filter fun dispatch => dispatch.state == .prepared

/-- The ambiguous dispatches of a queue. -/
def ambiguousOn (queue : QueueRecord) : List DispatchRecordLocal :=
  runtime.dispatches.filter fun dispatch =>
    dispatch.queue == queue.handle && dispatch.state == .ambiguous

def liveQueues : List QueueRecord :=
  runtime.queues.filter fun queue => !queue.released

def liveModules : List ModuleRecord :=
  runtime.modules.filter fun module => !module.released

def liveBuffers : List BufferRecord :=
  runtime.buffers.filter fun buffer => !buffer.released

def resetQueue (queue : QueueRecord) : List RuntimeTransition :=
  (if queue.quiescent then [] else
    [.beginQueueFailure queue.queue, .establishQueueQuiescence queue.queue]) ++
  (runtime.ambiguousOn queue).map (fun dispatch =>
    .settleAfterQuiescence dispatch.modelCompletion) ++
  [.releaseQueue queue.queue, .unmap queue.mapping, .releaseAllocation queue.allocation]

def resetModule (module : ModuleRecord) : List RuntimeTransition :=
  [.unloadCode module.code, .unmap module.mapping, .releaseAllocation module.allocation]

def resetBuffer (buffer : BufferRecord) : List RuntimeTransition :=
  [.unmap buffer.mapping, .releaseAllocation buffer.allocation]

def resetTransitions : List RuntimeTransition :=
  runtime.preparedDispatches.map (fun dispatch => .abortPrepared dispatch.modelCompletion) ++
  runtime.liveQueues.flatMap runtime.resetQueue ++
  runtime.liveModules.flatMap resetModule ++
  runtime.liveBuffers.flatMap resetBuffer ++
  [.beginVmFailure runtime.vm, .establishVmQuiescence runtime.vm, .releaseVm runtime.vm,
    .beginDeviceFailure runtime.vm.device, .establishDeviceQuiescence runtime.vm.device,
    .releaseDevice runtime.vm.device]

def resetGeneration (replacementRuntimeIdentity : IdentityDigest) : Action VirtualResetSummary := do
  let runtime ← read
  refuse (replacementRuntimeIdentity == runtime.config.runtimeIdentity) .reusedResetIdentity
  let replacement ←
    lift (new { runtime.config with runtimeIdentity := replacementRuntimeIdentity })
  let _ ← lift (okOr (.capacityExceeded "reset transitions") runtime.transitionCapacity)
  refuse (!environment.reserves .resetTransitions) (.capacityExceeded "reset transitions")
  let _ ← lift (fromModel (runtime.model.nextAll runtime.resetTransitions))
  update fun _ => replacement
  return {
    previousRuntimeIdentity := runtime.config.runtimeIdentity
    replacementRuntimeIdentity := replacementRuntimeIdentity
    cancelledPreparedDispatches := runtime.preparedDispatches.length
    settledAmbiguousDispatches :=
      (runtime.liveQueues.flatMap runtime.ambiguousOn).length
    releasedBuffers := runtime.liveBuffers.length
    releasedModules := runtime.liveModules.length
    releasedQueues := runtime.liveQueues.length }

end VirtualRuntime

end Fe2o3.Virtual
