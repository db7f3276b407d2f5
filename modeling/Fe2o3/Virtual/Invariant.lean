import Fe2o3.Virtual.Calls
import Fe2o3.Virtual.Holdings

/-!
# How the tables of the runtime and of the model belong together

`Coherent` relates the two: every buffer, module and queue holds its allocation and
mapping in the state its flags say, every dispatch is in the model in the state that
matches its own, and the model has nothing else.  Buffers enter only through their
outlines, which no write and no retention changes.  `Inv` adds that each buffer counts
the unresolved dispatches that hold it.
-/

namespace Fe2o3.Virtual

open Lib KernelIr RuntimeModel

/-! ### The states of the model -/

/-- The state in which the model holds a dispatch. -/
def VirtualCompletionState.modelState : VirtualCompletionState → DispatchState
  | prepared => .prepared
  | cancelled | abortedDependency | abortedSimulation => .abortedBeforePublication
  | completed => .completed
  | ambiguous => .ambiguous
  | failedQuiescent => .failedQuiescent

/-- A dispatch that still holds its buffers. -/
def VirtualCompletionState.unresolved : VirtualCompletionState → Bool
  | prepared | ambiguous => true
  | _ => false

theorem retainsResources_modelState (state : VirtualCompletionState) :
    state.modelState.retainsResources = state.unresolved := by
  cases state <;> rfl

def QueueRecord.modelState (queue : QueueRecord) : QueueState :=
  if queue.released then .released else if queue.quiescent then .quiescent else .ready

/-! ### Holdings -/

/-- What no write and no retention changes in a buffer. -/
structure Outline where
  handle : VirtualBufferHandle
  allocation : AllocationKey
  mapping : MappingKey
  released : Bool
  byteLen : Nat
  initializedLen : Nat

def BufferRecord.outline (buffer : BufferRecord) : Outline :=
  ⟨buffer.handle, buffer.allocation, buffer.mapping, buffer.released, buffer.bytes.length,
    buffer.initialized.length⟩

def Outline.holding (outline : Outline) : Holding :=
  ⟨outline.allocation, outline.mapping, resourceState outline.released⟩

def ModuleRecord.holding (module : ModuleRecord) : Holding :=
  ⟨module.allocation, module.mapping, resourceState module.released⟩

def QueueRecord.holding (queue : QueueRecord) : Holding :=
  ⟨queue.allocation, queue.mapping, resourceState queue.released⟩

def holdingsOf (buffers : List Outline) (modules : List ModuleRecord) (queues : List QueueRecord) :
    List Holding :=
  buffers.map Outline.holding ++ modules.map ModuleRecord.holding ++ queues.map QueueRecord.holding

/-! ### Records that fit -/

/-- The handle was issued in this generation. -/
def Issued {kind : HandleKind} (identity : IdentityDigest) (nextOrdinal : Nat)
    (handle : Handle kind) : Prop :=
  handle.runtimeIdentity = identity ∧ handle.ordinal < nextOrdinal

/-- A table of records with handles of this generation, no two of them the same. -/
structure Registered {α : Type} {kind : HandleKind} (identity : IdentityDigest) (nextOrdinal : Nat)
    (handle : α → Handle kind) (table : List α) : Prop where
  issued : ∀ record ∈ table, Issued identity nextOrdinal (handle record)
  distinct : DistinctKeys handle table

structure ModuleFits (vm : VmKey) (module : ModuleRecord) (record : LoadedCodeRecord) : Prop where
  key : module.code = ⟨vm, module.handle.ordinal⟩
  mapping : record.executableMapping = module.mapping
  state : record.state = resourceState module.released

structure QueueFits (vm : VmKey) (queue : QueueRecord) (record : RuntimeModel.QueueRecord) :
    Prop where
  key : queue.queue = ⟨vm, queue.handle.ordinal, 1⟩
  mapping : record.ringMapping = queue.mapping
  state : record.state = queue.modelState

abbrev DispatchRecordLocal.key (dispatch : DispatchRecordLocal) : DispatchKey :=
  dispatch.modelCompletion.dispatch

/-- A dispatch and its record in the model. -/
structure DispatchFits (buffers : List Outline) (modules : List ModuleRecord)
    (queues : List QueueRecord) (dispatch : DispatchRecordLocal) (record : DispatchRecord) :
    Prop where
  completion : record.completion = dispatch.modelCompletion
  state : record.state = dispatch.state.modelState
  ordinal : dispatch.key.id = dispatch.completion.ordinal
  queue : ∃ queue ∈ queues, queue.handle = dispatch.queue ∧ queue.queue = dispatch.key.queue
  module : ∃ module ∈ modules, module.handle = dispatch.module ∧ module.code = record.code
  resources : ∀ resource ∈ record.resources, ∃ index ∈ dispatch.retainedBuffers, ∃ buffer,
    buffers[index]? = some buffer ∧ buffer.mapping = resource.mapping
  retained : ∀ index ∈ dispatch.retainedBuffers, ∃ buffer, buffers[index]? = some buffer ∧
    ∃ resource ∈ record.resources, resource.mapping = buffer.mapping

/-- An argument of the dispatch is a view of the buffer. -/
def DispatchRecordLocal.Names (dispatch : DispatchRecordLocal) (handle : VirtualBufferHandle) :
    Prop :=
  ∃ view, VirtualArgument.buffer view ∈ dispatch.request.arguments ∧ view.buffer = handle

/-- A view of a buffer that was in range when the dispatch was submitted. -/
def ViewFits (buffers : List Outline) (view : BufferView) : Prop :=
  ∃ (index : Nat) (buffer : Outline) (elementBytes stop : Nat),
    buffers[index]? = some buffer ∧ buffer.handle = view.buffer ∧
      virtualScalarBytes view.element = some elementBytes ∧
      viewEnd view.byteOffset view.elements elementBytes = some stop ∧
      (buffer.released = false → stop ≤ buffer.byteLen)

/-- The retained buffers are those that the arguments name. -/
structure ArgumentsFit (buffers : List Outline) (dispatch : DispatchRecordLocal) : Prop where
  nodup : dispatch.retainedBuffers.Nodup
  named : ∀ index (buffer : Outline), buffers[index]? = some buffer →
    (index ∈ dispatch.retainedBuffers ↔ dispatch.Names buffer.handle)
  views : ∀ view, VirtualArgument.buffer view ∈ dispatch.request.arguments → ViewFits buffers view

/-- The dependencies of a dispatch are dispatches with smaller ordinals, in ascending order. -/
structure DependenciesFit (dispatches : List DispatchRecordLocal)
    (dispatch : DispatchRecordLocal) : Prop where
  earlier : ∀ dependency ∈ dispatch.request.dependencies,
    dependency.ordinal < dispatch.completion.ordinal ∧
      dependency ∈ dispatches.map DispatchRecordLocal.completion
  ascending : dispatch.request.dependencies.Pairwise fun left right => left.ordinal ≤ right.ordinal

/-! ### Coherence -/

/-- The configuration that a runtime was created with. -/
structure ConfigFits (config : VirtualRuntimeConfig) : Prop where
  identity : config.runtimeIdentity ≠ 0
  runtimeLimits : config.runtimeLimits.validate = .ok config.runtimeLimits
  simulationLimits : config.simulationLimits.validate = .ok config.simulationLimits

structure HandlesFit (identity : IdentityDigest) (nextOrdinal : Nat) (buffers : List Outline)
    (modules : List ModuleRecord) (queues : List QueueRecord)
    (dispatches : List DispatchRecordLocal) : Prop where
  buffers : Registered identity nextOrdinal Outline.handle buffers
  modules : Registered identity nextOrdinal ModuleRecord.handle modules
  queues : Registered identity nextOrdinal QueueRecord.handle queues
  dispatches : Registered identity nextOrdinal DispatchRecordLocal.completion dispatches

structure Coherent (config : VirtualRuntimeConfig) (model : RuntimeState) (vm : VmKey)
    (nextOrdinal nextAllocationId totalUserBytes : Nat) (buffers : List Outline)
    (modules : List ModuleRecord) (queues : List QueueRecord)
    (dispatches : List DispatchRecordLocal) : Prop where
  configFits : ConfigFits config
  vmKey : vm = ⟨⟨0, 1⟩, 1⟩
  valid : model.Valid
  devices : model.devices = [⟨vm.device, .ready⟩]
  vms : model.vms = [⟨vm, .active⟩]
  handles : HandlesFit config.runtimeIdentity nextOrdinal buffers modules queues dispatches
  holdings : HoldingsFit vm nextAllocationId model.allocations model.mappings
    (holdingsOf buffers modules queues)
  contents : ∀ buffer ∈ buffers, buffer.initializedLen = buffer.byteLen ∧
    (buffer.released = true → buffer.byteLen = 0)
  total : totalUserBytes = (buffers.map Outline.byteLen).sum
  modulesFit : Paired ModuleRecord.code LoadedCodeRecord.key (ModuleFits vm) modules
    model.loadedCode
  queuesFit : Paired QueueRecord.queue RuntimeModel.QueueRecord.key (QueueFits vm) queues
    model.queues
  dispatchesFit : Paired DispatchRecordLocal.key DispatchRecord.key
    (DispatchFits buffers modules queues) dispatches model.dispatches
  ready : ∀ dispatch ∈ dispatches, dispatch.state = .prepared → ∀ queue ∈ queues,
    queue.handle = dispatch.queue → queue.released = false ∧ queue.quiescent = false
  arguments : ∀ dispatch ∈ dispatches, ArgumentsFit buffers dispatch
  dependencies : ∀ dispatch ∈ dispatches, DependenciesFit dispatches dispatch
  fewDispatches : dispatches.length ≤ maxDispatches

namespace VirtualRuntime

def outlines (runtime : VirtualRuntime) : List Outline := runtime.buffers.map BufferRecord.outline

theorem getElem?_outlines {runtime : VirtualRuntime} {i : Nat} {outline : Outline} :
    runtime.outlines[i]? = some outline ↔
      ∃ buffer, runtime.buffers[i]? = some buffer ∧ buffer.outline = outline := by
  rw [outlines, List.getElem?_map, Option.map_eq_some_iff]

/-- How many unresolved dispatches hold the buffer at a position. -/
def holders (dispatches : List DispatchRecordLocal) (index : Nat) : Nat :=
  dispatches.countP fun dispatch =>
    dispatch.state.unresolved && dispatch.retainedBuffers.contains index

/-- The invariant of the runtime. -/
structure Inv (runtime : VirtualRuntime) : Prop where
  coherent : Coherent runtime.config runtime.model runtime.vm runtime.nextOrdinal
    runtime.nextAllocationId runtime.totalUserBytes runtime.outlines runtime.modules runtime.queues
    runtime.dispatches
  retained : ∀ (index : Nat) (buffer : BufferRecord), runtime.buffers[index]? = some buffer →
    buffer.retainedDispatches = holders runtime.dispatches index

end VirtualRuntime

end Fe2o3.Virtual
