import Fe2o3.RuntimeModel.State

/-!
**When a transition is accepted**, and which state it leads to.

There is one lemma for each transition function.  It states the guards over the
tables and the resulting state, so that no later proof opens the function again.
-/

namespace Fe2o3.RuntimeModel

open Lib

variable {condition : Bool} {byteLen : Nat} {fromDispatch : DispatchState}
  {fromCompletion : CompletionState}

namespace RuntimeState

variable {state next : RuntimeState}

attribute [local simp] bind_eq_ok pure_eq_ok
attribute [-simp] bind_pure_comp

/-! ### Single guards -/

variable {u : Unit}

@[simp]
theorem requireState_eq_ok {record : RecordRef} :
    requireState condition record = .ok u ↔ condition = true := by
  cases condition <;> simp [requireState]

@[simp]
theorem ensureRoom_eq_ok {actual maximum : Nat} {kind : RecordKind} :
    ensureRoom actual maximum kind = .ok u ↔ actual < maximum := by
  by_cases h : actual < maximum <;> simp [ensureRoom, h]

/-- The VM is active on a ready device. -/
def VmActive (state : RuntimeState) (key : VmKey) : Prop :=
  (∃ vm, lookup VmRecord.key key state.vms = some vm ∧ vm.state = .active) ∧
    ∃ device, lookup DeviceRecord.key key.device state.devices = some device ∧ device.state = .ready

theorem requireVmActive_eq_ok {key : VmKey} :
    state.requireVmActive key = .ok u ↔ state.VmActive key := by
  simp only [requireVmActive, vm, device, bind_eq_ok, okOr_eq_ok, requireState_eq_ok, beq_iff_eq,
    VmActive]
  grind

/-- The queue is quiescent by itself, through its VM or through its device. -/
def AtRest (state : RuntimeState) (key : QueueKey) : Prop :=
  ∃ queue, lookup QueueRecord.key key state.queues = some queue ∧ (queue.state = .quiescent ∨
    ∃ vm, lookup VmRecord.key key.vm state.vms = some vm ∧ (vm.state = .quiescent ∨
      ∃ device, lookup DeviceRecord.key key.vm.device state.devices = some device ∧
        device.state = .quiescent))

variable {key : QueueKey}

theorem queueIsEffectivelyQuiescent_eq_true :
    state.queueIsEffectivelyQuiescent key = .ok true ↔ state.AtRest key := by
  unfold queueIsEffectivelyQuiescent AtRest
  simp only [queue, bind_eq_ok, okOr_eq_ok]
  refine exists_congr fun queue => and_congr_right fun _ => ?_
  by_cases hqueue : queue.state = .quiescent
  · simp [hqueue]
  rw [if_neg (by simpa using hqueue), or_iff_right hqueue, bind_eq_ok]
  simp only [vm, okOr_eq_ok]
  refine exists_congr fun vm => and_congr_right fun _ => ?_
  by_cases hvm : vm.state = .quiescent
  · simp [hvm]
  · rw [if_neg (by simpa using hvm), or_iff_right hvm]
    simp [device]

/-! ### Devices and VMs -/

theorem addDevice_eq_ok {key : DeviceKey} :
    state.addDevice key = .ok next ↔
      state.devices.length < maxDevices ∧ (∀ record ∈ state.devices, record.key ≠ key) ∧
      (∀ record ∈ state.devices, record.key.physical = key.physical →
        record.state = .released ∧ record.key.generation < key.generation) ∧
      { state with devices := state.devices ++ [⟨key, .ready⟩] } = next := by
  simp only [addDevice, bind_eq_ok, pure_eq_ok, failIf_eq_ok,
    ensureRoom_eq_ok, forM_eq_ok, exists_const]
  simp

theorem moveDevice_eq_ok {key : DeviceKey} {expected value : DeviceState} :
    state.moveDevice key expected value = .ok next ↔
      (∃ record, lookup DeviceRecord.key key state.devices = some record ∧
        record.state = expected) ∧
      state.setDevice key value = next := by
  simp [moveDevice, device]
  grind

theorem releaseDevice_eq_ok {key : DeviceKey} :
    state.releaseDevice key = .ok next ↔
      (∃ record, lookup DeviceRecord.key key state.devices = some record ∧
        (record.state = .ready ∨ record.state = .quiescent)) ∧
      (∀ vm ∈ state.vms, vm.key.device = key → vm.state = .released) ∧
      state.setDevice key .released = next := by
  simp [releaseDevice, device]
  grind

theorem createVm_eq_ok {key : VmKey} :
    state.createVm key = .ok next ↔
      state.vms.length < maxVms ∧ (∀ record ∈ state.vms, record.key ≠ key) ∧
      (∃ device, lookup DeviceRecord.key key.device state.devices = some device ∧
        device.state = .ready) ∧
      { state with vms := state.vms ++ [⟨key, .active⟩] } = next := by
  simp [createVm, device]
  grind

theorem moveVm_eq_ok {key : VmKey} {expected value : VmState} :
    state.moveVm key expected value = .ok next ↔
      (∃ record, lookup VmRecord.key key state.vms = some record ∧ record.state = expected) ∧
      state.setVm key value = next := by
  simp [moveVm, vm]
  grind

theorem releaseVm_eq_ok {key : VmKey} :
    state.releaseVm key = .ok next ↔
      (∃ record, lookup VmRecord.key key state.vms = some record ∧
        (record.state = .active ∨ record.state = .quiescent)) ∧
      (∀ record ∈ state.allocations, record.key.vm = key → record.state = .released) ∧
      (∀ record ∈ state.loadedCode, record.key.vm = key → record.state = .released) ∧
      (∀ record ∈ state.queues, record.key.vm = key → record.state = .released) ∧
      state.setVm key .released = next := by
  simp [releaseVm, vm]
  grind

/-! ### Memory -/

theorem allocate_eq_ok {key : AllocationKey} :
    state.allocate key byteLen = .ok next ↔
      state.allocations.length < maxAllocations ∧
      (∀ record ∈ state.allocations, record.key ≠ key) ∧ byteLen ≠ 0 ∧ state.VmActive key.vm ∧
      { state with allocations := state.allocations ++ [⟨key, byteLen, .live⟩] } = next := by
  simp [allocate, requireVmActive_eq_ok]

theorem releaseAllocation_eq_ok {key : AllocationKey} :
    state.releaseAllocation key = .ok next ↔
      (∃ record, lookup AllocationRecord.key key state.allocations = some record ∧
        record.state = .live) ∧
      (∀ mapping ∈ state.mappings, mapping.key.allocation = key → mapping.state ≠ .live) ∧
      state.setAllocation key .released = next := by
  simp [releaseAllocation, allocation]
  grind

theorem map_eq_ok {key : MappingKey} {allocationOffset gpuVa : Nat} {access : MemoryAccess} :
    state.map key allocationOffset gpuVa byteLen access = .ok next ↔
      state.mappings.length < maxMappings ∧ (∀ record ∈ state.mappings, record.key ≠ key) ∧
      state.VmActive key.allocation.vm ∧
      (∃ allocation, lookup AllocationRecord.key key.allocation state.allocations =
        some allocation ∧ allocation.state = .live ∧
        invalidMappingRange allocationOffset gpuVa byteLen allocation.byteLen = false) ∧
      (∀ record ∈ state.mappings, record.state = .live →
        record.key.allocation.vm = key.allocation.vm →
        rangesOverlap gpuVa byteLen record.gpuVa record.byteLen = false) ∧
      { state with mappings :=
          state.mappings ++ [⟨key, allocationOffset, gpuVa, byteLen, access, .live⟩] } = next := by
  simp [map, allocation, requireVmActive_eq_ok]
  grind

theorem unmap_eq_ok {key : MappingKey} :
    state.unmap key = .ok next ↔
      (∃ record, lookup MappingRecord.key key state.mappings = some record ∧ record.state = .live) ∧
      (∀ code ∈ state.loadedCode, code.executableMapping = key → code.state ≠ .live) ∧
      (∀ queue ∈ state.queues, queue.ringMapping = key → queue.state = .released) ∧
      (∀ dispatch ∈ state.dispatches, dispatch.state.retainsResources = true →
        ∀ resource ∈ dispatch.resources, resource.mapping ≠ key) ∧
      state.setMapping key .released = next := by
  simp [unmap, mapping, Bool.or_eq_false_iff, List.any_eq_false]
  grind

/-! ### Code and queues -/

theorem loadCode_eq_ok {key : LoadedCodeKey} {loadPlanId artifactId : IdentityDigest}
    {executableMapping : MappingKey} {entryOffset : Nat} :
    state.loadCode key loadPlanId artifactId executableMapping entryOffset = .ok next ↔
      state.loadedCode.length < maxLoadedCode ∧
      (∀ record ∈ state.loadedCode, record.key ≠ key) ∧ state.VmActive key.vm ∧
      (∃ mapping, lookup MappingRecord.key executableMapping state.mappings = some mapping ∧
        mapping.state = .live ∧ mapping.access = .readExecute ∧ entryOffset < mapping.byteLen) ∧
      executableMapping.allocation.vm = key.vm ∧
      { state with loadedCode := state.loadedCode ++
          [⟨key, loadPlanId, artifactId, executableMapping, entryOffset, .live⟩] } = next := by
  simp [loadCode, mapping, requireVmActive_eq_ok]
  grind

theorem unloadCode_eq_ok {key : LoadedCodeKey} :
    state.unloadCode key = .ok next ↔
      (∃ record, lookup LoadedCodeRecord.key key state.loadedCode = some record ∧
        record.state = .live) ∧
      (∀ dispatch ∈ state.dispatches, dispatch.code = key →
        dispatch.state.retainsResources = false) ∧
      state.setCode key .released = next := by
  simp [unloadCode, code]
  grind

theorem createQueue_eq_ok {planId : IdentityDigest} {ringMapping : MappingKey} {capacity : Nat} :
    state.createQueue key planId ringMapping capacity = .ok next ↔
      state.queues.length < maxQueues ∧ (∀ record ∈ state.queues, record.key ≠ key) ∧
      state.VmActive key.vm ∧ invalidQueueCapacity capacity = false ∧
      (∃ mapping required, lookup MappingRecord.key ringMapping state.mappings = some mapping ∧
        checkedMul capacity aqlPacketBytes = some required ∧ mapping.state = .live ∧
        mapping.access = .readWrite ∧ required ≤ mapping.byteLen) ∧
      ringMapping.allocation.vm = key.vm ∧
      (∀ record ∈ state.queues, record.key.vm = key.vm → record.key.id = key.id →
        record.state = .released ∧ record.key.generation < key.generation) ∧
      { state with
          queues := state.queues ++ [⟨key, planId, ringMapping, capacity, .ready⟩] } = next := by
  simp only [createQueue, mapping, requireVmActive_eq_ok, bind_eq_ok, pure_eq_ok, okOr_eq_ok,
    failIf_eq_ok, ensureRoom_eq_ok, forM_eq_ok, exists_const]
  simp
  grind

theorem moveQueue_eq_ok {expected value : QueueState} :
    state.moveQueue key expected value = .ok next ↔
      (∃ record, lookup QueueRecord.key key state.queues = some record ∧ record.state = expected) ∧
      state.setQueue key value = next := by
  simp [moveQueue, queue]
  grind

theorem requireRest_eq_ok {current : QueueState} :
    state.requireRest key current = .ok u ↔ (current = .mayStillAccess → state.AtRest key) := by
  unfold requireRest
  by_cases hcurrent : current = .mayStillAccess
  · simp [hcurrent, queueIsEffectivelyQuiescent_eq_true]
  · simp [hcurrent]

theorem releaseQueue_eq_ok :
    state.releaseQueue key = .ok next ↔
      (∃ record, lookup QueueRecord.key key state.queues = some record ∧ record.state ≠ .released ∧
        (record.state = .mayStillAccess → state.AtRest key)) ∧
      (∀ dispatch ∈ state.dispatches, dispatch.key.queue = key →
        dispatch.state.retainsResources = false) ∧
      state.setQueue key .released = next := by
  simp [releaseQueue, queue, requireRest_eq_ok]
  grind

/-! ### Dispatches -/

variable {completion : CompletionKey}

theorem prepareDispatch_eq_ok {key : DispatchKey} {code : LoadedCodeKey}
    {resources : List DispatchResource} :
    state.prepareDispatch key code completion resources = .ok next ↔
      state.dispatches.length < maxDispatches ∧ state.completions.length < maxCompletions ∧
      (∀ record ∈ state.dispatches, record.key ≠ key) ∧
      (∀ record ∈ state.completions, record.key ≠ completion) ∧ completion.dispatch = key ∧
      resources.length ≤ maxDispatchResources ∧ unorderedResources resources = false ∧
      state.VmActive key.queue.vm ∧
      (∃ queue, lookup QueueRecord.key key.queue state.queues = some queue ∧ queue.state = .ready ∧
        state.active key.queue < queue.capacity) ∧
      (∃ loaded, lookup LoadedCodeRecord.key code state.loadedCode = some loaded ∧
        loaded.state = .live) ∧
      code.vm = key.queue.vm ∧
      (∀ resource ∈ resources, ∃ mapping,
        lookup MappingRecord.key resource.mapping state.mappings = some mapping ∧
        resource.mapping.allocation.vm = key.queue.vm ∧ mapping.state = .live ∧
        mapping.access.permits resource.requiredAccess = true) ∧
      { state with
          dispatches := state.dispatches ++ [⟨key, code, completion, resources, .prepared⟩]
          completions := state.completions ++ [⟨completion, .armed⟩] } = next := by
  simp only [prepareDispatch, queue, RuntimeState.code, mapping, requireVmActive_eq_ok,
    bind_eq_ok, pure_eq_ok, okOr_eq_ok, requireState_eq_ok, failIf_eq_ok, ensureRoom_eq_ok,
    forM_eq_ok, exists_const]
  grind

/-- The dispatch of a completion and the completion are in the given states. -/
def Awaits (state : RuntimeState) (completion : CompletionKey) (fromDispatch : DispatchState)
    (fromCompletion : CompletionState) : Prop :=
  (∃ dispatch, lookup DispatchRecord.key completion.dispatch state.dispatches = some dispatch ∧
    dispatch.completion = completion ∧ dispatch.state = fromDispatch) ∧
  ∃ record, lookup CompletionRecord.key completion state.completions = some record ∧
    record.state = fromCompletion

theorem requireDispatch_eq_ok :
    state.requireDispatch completion fromDispatch fromCompletion = .ok u ↔
      state.Awaits completion fromDispatch fromCompletion := by
  simp [requireDispatch, dispatch, RuntimeState.completion, Awaits]
  grind

/-- The queue accepts and completes dispatches. -/
def QueueReady (state : RuntimeState) (key : QueueKey) : Prop :=
  state.VmActive key.vm ∧
    ∃ queue, lookup QueueRecord.key key state.queues = some queue ∧ queue.state = .ready

theorem publishDispatch_eq_ok :
    state.publishDispatch completion = .ok next ↔
      state.Awaits completion .prepared .armed ∧ state.QueueReady completion.dispatch.queue ∧
      state.setDispatch completion.dispatch .published = next := by
  simp [publishDispatch, queue, requireDispatch_eq_ok, requireVmActive_eq_ok, QueueReady]
  grind

theorem observeCompletion_eq_ok :
    state.observeCompletion completion = .ok next ↔
      state.Awaits completion .published .armed ∧ state.QueueReady completion.dispatch.queue ∧
      (state.setDispatch completion.dispatch .completed).setCompletion completion .observed
        = next := by
  simp [observeCompletion, queue, requireDispatch_eq_ok, requireVmActive_eq_ok, QueueReady]
  grind

theorem settleAfterQuiescence_eq_ok :
    state.settleAfterQuiescence completion = .ok next ↔
      state.Awaits completion .ambiguous .ambiguous ∧ state.AtRest completion.dispatch.queue ∧
      (state.setDispatch completion.dispatch .failedQuiescent).setCompletion completion
        .quiescedFailure = next := by
  simp [settleAfterQuiescence, requireDispatch_eq_ok, ← queueIsEffectivelyQuiescent_eq_true]

theorem transitionDispatch_eq_ok {toDispatch : DispatchState} {toCompletion : CompletionState} :
    state.transitionDispatch completion fromDispatch toDispatch fromCompletion toCompletion
        = .ok next ↔
      state.Awaits completion fromDispatch fromCompletion ∧
      (state.setDispatch completion.dispatch toDispatch).setCompletion completion toCompletion
        = next := by
  simp [transitionDispatch, requireDispatch_eq_ok]

end RuntimeState

end Fe2o3.RuntimeModel
