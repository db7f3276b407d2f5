import Fe2o3.RuntimeModel.State

/-!
**What a valid state is**, without the order of the checks.

Each predicate says when one record fits the tables it refers to; `Valid` asks it
of every record, together with distinct keys, the bounds of the tables and the
disjointness of live mappings.  `validateGlobalInvariants` accepts exactly the
valid states.
-/

namespace Fe2o3.RuntimeModel

open Lib

namespace RuntimeState

variable {state : RuntimeState}

/-! ### Records that fit their state -/

/-- Every older incarnation of the device is released. -/
def DeviceFits (devices : List DeviceRecord) (device : DeviceRecord) : Prop :=
  ∀ other ∈ devices, other.key.physical = device.key.physical →
    other.key.generation < device.key.generation → other.state = .released

structure VmFits (devices : List DeviceRecord) (vm : VmRecord) (device : DeviceRecord) : Prop where
  found : lookup DeviceRecord.key vm.key.device devices = some device
  outlived : device.state = .released → vm.state = .released

structure AllocationFits (vms : List VmRecord) (allocation : AllocationRecord) (vm : VmRecord) :
    Prop where
  found : lookup VmRecord.key allocation.key.vm vms = some vm
  nonempty : allocation.byteLen ≠ 0
  outlived : vm.state = .released → allocation.state = .released

structure MappingFits (allocations : List AllocationRecord) (mapping : MappingRecord)
    (allocation : AllocationRecord) : Prop where
  found : lookup AllocationRecord.key mapping.key.allocation allocations = some allocation
  range : invalidMappingRange mapping.allocationOffset mapping.gpuVa mapping.byteLen
    allocation.byteLen = false
  outlived : allocation.state = .released → mapping.state = .released

/-- Two live mappings of one VM do not overlap. -/
def Apart (earlier later : MappingRecord) : Prop :=
  later.state = .live → earlier.state = .live →
    earlier.key.allocation.vm = later.key.allocation.vm →
    rangesOverlap later.gpuVa later.byteLen earlier.gpuVa earlier.byteLen = false

structure CodeFits (mappings : List MappingRecord) (code : LoadedCodeRecord)
    (mapping : MappingRecord) : Prop where
  found : lookup MappingRecord.key code.executableMapping mappings = some mapping
  bound : code.executableMapping.allocation.vm = code.key.vm
  entry : code.entryOffset < mapping.byteLen
  executable : code.state = .live → mapping.state = .live ∧ mapping.access = .readExecute

structure QueueFits (mappings : List MappingRecord) (queue : QueueRecord)
    (mapping : MappingRecord) : Prop where
  found : lookup MappingRecord.key queue.ringMapping mappings = some mapping
  bound : queue.ringMapping.allocation.vm = queue.key.vm
  capacity : invalidQueueCapacity queue.capacity = false
  ring : ∃ required, checkedMul queue.capacity aqlPacketBytes = some required ∧
    required ≤ mapping.byteLen
  writable : queue.state ≠ .released → mapping.state = .live ∧ mapping.access = .readWrite

structure ResourceFits (mappings : List MappingRecord) (dispatch : DispatchRecord)
    (resource : DispatchResource) (mapping : MappingRecord) : Prop where
  found : lookup MappingRecord.key resource.mapping mappings = some mapping
  bound : resource.mapping.allocation.vm = dispatch.key.queue.vm
  live : mapping.state = .live
  permits : mapping.access.permits resource.requiredAccess = true

/-- A dispatch, with the tables that hold its mappings, code, queue and completion. -/
structure DispatchFits (mappings : List MappingRecord) (loadedCode : List LoadedCodeRecord)
    (queues : List QueueRecord) (completions : List CompletionRecord) (dispatch : DispatchRecord)
    (queue : QueueRecord) (code : LoadedCodeRecord) (completion : CompletionRecord) : Prop where
  queueFound : lookup QueueRecord.key dispatch.key.queue queues = some queue
  codeFound : lookup LoadedCodeRecord.key dispatch.code loadedCode = some code
  completionFound : lookup CompletionRecord.key dispatch.completion completions = some completion
  bound : dispatch.code.vm = dispatch.key.queue.vm
  owner : dispatch.completion.dispatch = dispatch.key
  agrees : completionMatches dispatch.state completion.state = true
  fewResources : dispatch.resources.length ≤ maxDispatchResources
  ordered : unorderedResources dispatch.resources = false
  queueKept : dispatch.state.retainsResources = true → queue.state ≠ .released
  codeKept : dispatch.state.retainsResources = true → code.state = .live
  resourcesKept : dispatch.state.retainsResources = true → ∀ resource ∈ dispatch.resources,
    ∃ mapping, ResourceFits mappings dispatch resource mapping

def CompletionFits (dispatches : List DispatchRecord) (completion : CompletionRecord) : Prop :=
  ∃ dispatch ∈ dispatches, dispatch.key = completion.key.dispatch ∧
    dispatch.completion = completion.key

/-- No table exceeds its bound. -/
structure Bounded (state : RuntimeState) : Prop where
  devices : state.devices.length ≤ maxDevices
  vms : state.vms.length ≤ maxVms
  allocations : state.allocations.length ≤ maxAllocations
  mappings : state.mappings.length ≤ maxMappings
  loadedCode : state.loadedCode.length ≤ maxLoadedCode
  queues : state.queues.length ≤ maxQueues
  dispatches : state.dispatches.length ≤ maxDispatches
  completions : state.completions.length ≤ maxCompletions

structure Valid (state : RuntimeState) : Prop where
  bounded : state.Bounded
  deviceKeys : DistinctKeys DeviceRecord.key state.devices
  devices : ∀ device ∈ state.devices, DeviceFits state.devices device
  vmKeys : DistinctKeys VmRecord.key state.vms
  vms : ∀ vm ∈ state.vms, ∃ device, VmFits state.devices vm device
  allocationKeys : DistinctKeys AllocationRecord.key state.allocations
  allocations : ∀ allocation ∈ state.allocations, ∃ vm, AllocationFits state.vms allocation vm
  mappingKeys : DistinctKeys MappingRecord.key state.mappings
  mappings : ∀ mapping ∈ state.mappings, ∃ allocation,
    MappingFits state.allocations mapping allocation
  apart : state.mappings.Pairwise Apart
  codeKeys : DistinctKeys LoadedCodeRecord.key state.loadedCode
  loadedCode : ∀ code ∈ state.loadedCode, ∃ mapping, CodeFits state.mappings code mapping
  queueKeys : DistinctKeys QueueRecord.key state.queues
  queues : ∀ queue ∈ state.queues, ∃ mapping, QueueFits state.mappings queue mapping
  dispatchKeys : DistinctKeys DispatchRecord.key state.dispatches
  dispatches : ∀ dispatch ∈ state.dispatches, ∃ queue code completion,
    DispatchFits state.mappings state.loadedCode state.queues state.completions dispatch queue code
      completion
  completionKeys : DistinctKeys CompletionRecord.key state.completions
  completions : ∀ completion ∈ state.completions, CompletionFits state.dispatches completion
  subscribed : ∀ queue ∈ state.queues, state.active queue.key ≤ queue.capacity

/-! ### Single checks -/

@[simp]
theorem violates_eq_ok {condition : Bool} {violation : InvariantViolation} {u : Unit} :
    violates condition violation = .ok u ↔ condition = false := by
  cases condition <;> simp [violates]

attribute [mk_iff] VmFits AllocationFits MappingFits CodeFits Bounded
attribute [local simp] bind_eq_ok forM_eq_ok vmFits_iff allocationFits_iff mappingFits_iff
  codeFits_iff

theorem validateCapacities_eq_ok : state.validateCapacities = .ok () ↔ state.Bounded := by
  simp [validateCapacities, bounded_iff]

/-- A scan for a record with the same key among the earlier ones. -/
theorem none_earlier {ρ κ : Type} [DecidableEq κ] {key : ρ → κ} {earlier : List ρ} {k : κ} :
    (earlier.any fun other => key other == k) = false ↔ ∀ other ∈ earlier, key other ≠ k := by
  simp

theorem validateDevices_eq_ok : state.validateDevices = .ok () ↔
    (∀ device ∈ state.devices, DeviceFits state.devices device) ∧
      DistinctKeys DeviceRecord.key state.devices := by
  apply checkRows_eq_ok
  intro earlier device
  simp only [bind_eq_ok, violates_eq_ok, forM_eq_ok, none_earlier, DeviceFits, List.mem_filter,
    Bool.and_eq_true, beq_iff_eq, decide_eq_true_eq, bne_eq_false_iff_eq]
  constructor
  · rintro ⟨_, hkeys, hothers⟩
    exact ⟨fun other hother hphysical hlt => hothers other ⟨hother, hphysical, hlt⟩, hkeys⟩
  · rintro ⟨hothers, hkeys⟩
    exact ⟨(), hkeys, fun other hother => hothers other hother.1 hother.2.1 hother.2.2⟩

theorem validateVm_eq_ok (earlier : List VmRecord) (vm : VmRecord) :
    state.validateVm earlier vm = .ok () ↔
      (∃ device, VmFits state.devices vm device) ∧ ∀ other ∈ earlier, other.key ≠ vm.key := by
  simp [validateVm]
  grind

theorem validateAllocation_eq_ok (earlier : List AllocationRecord)
    (allocation : AllocationRecord) :
    state.validateAllocation earlier allocation = .ok () ↔
      (∃ vm, AllocationFits state.vms allocation vm) ∧
        ∀ other ∈ earlier, other.key ≠ allocation.key := by
  simp [validateAllocation]
  grind

theorem validateOverlaps_eq_ok (earlier : List MappingRecord) (mapping : MappingRecord) :
    validateOverlaps earlier mapping = .ok () ↔ ∀ other ∈ earlier, Apart other mapping := by
  unfold validateOverlaps
  by_cases hlive : mapping.state = .live
  · rw [if_pos (by simpa using hlive), forM_eq_ok]
    simp [Apart, hlive]
  · simp [Apart, hlive]

theorem validateMapping_eq_ok (earlier : List MappingRecord) (mapping : MappingRecord) :
    state.validateMapping earlier mapping = .ok () ↔
      (∃ allocation, MappingFits state.allocations mapping allocation) ∧
        ∀ other ∈ earlier, other.key ≠ mapping.key ∧ Apart other mapping := by
  simp [validateMapping, validateOverlaps_eq_ok]
  grind

theorem validateCode_eq_ok (earlier : List LoadedCodeRecord) (code : LoadedCodeRecord) :
    state.validateCode earlier code = .ok () ↔
      (∃ mapping, CodeFits state.mappings code mapping) ∧ ∀ other ∈ earlier,
        other.key ≠ code.key := by
  simp [validateCode]
  grind

theorem validateQueue_eq_ok (earlier : List QueueRecord) (queue : QueueRecord) :
    state.validateQueue earlier queue = .ok () ↔
      (∃ mapping, QueueFits state.mappings queue mapping) ∧ ∀ other ∈ earlier,
        other.key ≠ queue.key := by
  simp only [validateQueue, bind_eq_ok, violates_eq_ok, okOr_eq_ok, none_earlier]
  constructor
  · rintro ⟨_, hkeys, mapping, hfound, required, hrequired, _, hbound, _, hcapacity, hlive⟩
    obtain ⟨hcapacity, hring⟩ := Bool.or_eq_false_iff.mp hcapacity
    refine ⟨⟨mapping, hfound, by simpa using hbound, hcapacity, ?_, ?_⟩, hkeys⟩
    · exact ⟨required, hrequired, by simpa using hring⟩
    · simpa using hlive
  · rintro ⟨⟨mapping, hfound, hbound, hcapacity, ⟨required, hrequired, hring⟩, hlive⟩, hkeys⟩
    refine ⟨(), hkeys, mapping, hfound, required, hrequired, (), by simpa using hbound, (),
      Bool.or_eq_false_iff.mpr ⟨hcapacity, by simpa using hring⟩, ?_⟩
    simpa using hlive

theorem validateRetained_eq_ok (dispatch : DispatchRecord) (queue : QueueRecord)
    (code : LoadedCodeRecord) :
    state.validateRetained dispatch queue code = .ok () ↔
      (dispatch.state.retainsResources = true → queue.state ≠ .released ∧ code.state = .live ∧
        ∀ resource ∈ dispatch.resources, ∃ mapping,
          ResourceFits state.mappings dispatch resource mapping) := by
  unfold validateRetained
  by_cases hretains : dispatch.state.retainsResources = true
  · rw [if_pos hretains]
    simp only [bind_eq_ok, violates_eq_ok, okOr_eq_ok, forM_eq_ok]
    constructor
    · rintro ⟨_, hkept, hresources⟩ _
      simp only [Bool.or_eq_false_iff, beq_eq_false_iff_ne, bne_eq_false_iff_eq] at hkept
      refine ⟨hkept.1, hkept.2, fun resource hresource => ?_⟩
      obtain ⟨mapping, hfound, _, hbound, hlive⟩ := hresources resource hresource
      simp only [Bool.or_eq_false_iff, bne_eq_false_iff_eq, Bool.not_eq_false'] at hlive
      exact ⟨mapping, hfound, by simpa using hbound, hlive.1, hlive.2⟩
    · intro hkept
      obtain ⟨hqueue, hcode, hresources⟩ := hkept hretains
      refine ⟨(), by simp [hqueue, hcode], fun resource hresource => ?_⟩
      obtain ⟨mapping, hfound, hbound, hlive, hpermits⟩ := hresources resource hresource
      exact ⟨mapping, hfound, (), by simpa using hbound, by simp [hlive, hpermits]⟩
  · simp [hretains]

theorem validateDispatch_eq_ok (earlier : List DispatchRecord) (dispatch : DispatchRecord) :
    state.validateDispatch earlier dispatch = .ok () ↔
      (∃ queue code completion, DispatchFits state.mappings state.loadedCode state.queues
        state.completions dispatch queue code completion) ∧
        ∀ other ∈ earlier, other.key ≠ dispatch.key := by
  simp only [validateDispatch, bind_eq_ok, violates_eq_ok, okOr_eq_ok, none_earlier]
  constructor
  · rintro ⟨_, hkeys, queue, hqueue, code, hcode, completion, hcompletion, _, hbound, _, hagrees, _,
      hresources, hrest⟩
    simp only [Bool.or_eq_false_iff, bne_eq_false_iff_eq, Bool.not_eq_false'] at hagrees
    simp only [Bool.or_eq_false_iff, decide_eq_false_iff_not, Nat.not_lt] at hresources
    have hretained := (validateRetained_eq_ok dispatch queue code).mp hrest
    refine ⟨⟨queue, code, completion, ?_⟩, hkeys⟩
    exact ⟨hqueue, hcode, hcompletion, by simpa using hbound, hagrees.1, hagrees.2, hresources.1,
      hresources.2, fun h => (hretained h).1, fun h => (hretained h).2.1,
      fun h => (hretained h).2.2⟩
  · rintro ⟨⟨queue, code, completion, hfits⟩, hkeys⟩
    refine ⟨(), hkeys, queue, hfits.queueFound, code, hfits.codeFound, completion,
      hfits.completionFound, (), by simpa using hfits.bound, (), ?_, (), ?_, ?_⟩
    · simp [hfits.owner, hfits.agrees]
    · simp [hfits.fewResources, hfits.ordered]
    · apply (validateRetained_eq_ok dispatch queue code).mpr
      exact fun h => ⟨hfits.queueKept h, hfits.codeKept h, hfits.resourcesKept h⟩

theorem validateCompletion_eq_ok (earlier : List CompletionRecord)
    (completion : CompletionRecord) :
    state.validateCompletion earlier completion = .ok () ↔
      CompletionFits state.dispatches completion ∧ ∀ other ∈ earlier,
        other.key ≠ completion.key := by
  simp only [validateCompletion, bind_eq_ok, violates_eq_ok, none_earlier, CompletionFits]
  simp
  exact and_comm

/-! ### The whole state -/

theorem validateGlobalInvariants_eq_ok : state.validateGlobalInvariants = .ok () ↔ state.Valid := by
  simp only [validateGlobalInvariants, validateVmsAndMemory, validateCodeAndQueues,
    validateDispatchesAndCompletions, seq_eq_ok, validateCapacities_eq_ok, validateDevices_eq_ok,
    checkRows_eq_ok state.validateVm_eq_ok, checkRows_eq_ok state.validateAllocation_eq_ok,
    checkRows_eq_ok state.validateMapping_eq_ok, checkRows_eq_ok state.validateCode_eq_ok,
    checkRows_eq_ok state.validateQueue_eq_ok, checkRows_eq_ok state.validateDispatch_eq_ok,
    checkRows_eq_ok state.validateCompletion_eq_ok, forM_eq_ok, violates_eq_ok,
    decide_eq_false_iff_not, Nat.not_lt, List.pairwise_and_iff]
  constructor
  · rintro ⟨hbounded, ⟨hdevices, hdeviceKeys⟩, ⟨⟨hvms, hvmKeys⟩, ⟨hallocations, hallocationKeys⟩,
      hmappings, hmappingKeys, hapart⟩, ⟨⟨hcode, hcodeKeys⟩, hqueues, hqueueKeys⟩,
      ⟨hdispatches, hdispatchKeys⟩, ⟨hcompletions, hcompletionKeys⟩, hsubscribed⟩
    exact ⟨hbounded, hdeviceKeys, hdevices, hvmKeys, hvms, hallocationKeys, hallocations,
      hmappingKeys, hmappings, hapart, hcodeKeys, hcode, hqueueKeys, hqueues, hdispatchKeys,
      hdispatches, hcompletionKeys, hcompletions, hsubscribed⟩
  · intro h
    exact ⟨h.bounded, ⟨h.devices, h.deviceKeys⟩, ⟨⟨h.vms, h.vmKeys⟩,
      ⟨h.allocations, h.allocationKeys⟩, h.mappings, h.mappingKeys, h.apart⟩,
      ⟨⟨h.loadedCode, h.codeKeys⟩, h.queues, h.queueKeys⟩, ⟨h.dispatches, h.dispatchKeys⟩,
      ⟨h.completions, h.completionKeys⟩, h.subscribed⟩

theorem new_valid : new.Valid := by
  rw [← validateGlobalInvariants_eq_ok]
  rfl

end RuntimeState

end Fe2o3.RuntimeModel
