import Fe2o3.RuntimeModel.Preservation

/-!
# Runs of the runtime model

Records are never removed and their lifecycle states only move on: `Evolution` says so
for one transition, and so for a run.  A dispatch that was published and not yet
observed or settled is `InFlight`; the tables of a valid state then keep everything it
uses: its queue and code, the mappings of these and of its resources, their allocations,
the VM and the device.
-/

namespace Fe2o3.RuntimeModel

open Lib

/-! ### Lifecycle states only move on -/

def DeviceState.stage : DeviceState → Nat
  | ready => 0
  | mayStillAccess => 1
  | quiescent => 2
  | released => 3

def VmState.stage : VmState → Nat
  | active => 0
  | mayStillAccess => 1
  | quiescent => 2
  | released => 3

def ResourceState.stage : ResourceState → Nat
  | live => 0
  | released => 1

theorem ResourceState.stage_le_released (state : ResourceState) : state.stage ≤ released.stage := by
  cases state <;> decide

def QueueState.stage : QueueState → Nat
  | ready => 0
  | mayStillAccess => 1
  | quiescent => 2
  | released => 3

theorem DeviceState.eq_released {state : DeviceState} (h : released.stage ≤ state.stage) :
    state = released := by
  cases state <;> first | rfl | exact absurd h (by decide)

theorem VmState.eq_released {state : VmState} (h : released.stage ≤ state.stage) :
    state = released := by
  cases state <;> first | rfl | exact absurd h (by decide)

theorem QueueState.eq_released {state : QueueState} (h : released.stage ≤ state.stage) :
    state = released := by
  cases state <;> first | rfl | exact absurd h (by decide)

theorem ResourceState.eq_released {state : ResourceState} (h : released.stage ≤ state.stage) :
    state = released := by
  cases state <;> first | rfl | exact absurd h (by decide)

/-- A later form of a device record. -/
def DeviceRecord.Later (before after : DeviceRecord) : Prop :=
  after = { before with state := after.state } ∧ before.state.stage ≤ after.state.stage

def VmRecord.Later (before after : VmRecord) : Prop :=
  after = { before with state := after.state } ∧ before.state.stage ≤ after.state.stage

def AllocationRecord.Later (before after : AllocationRecord) : Prop :=
  after = { before with state := after.state } ∧ before.state.stage ≤ after.state.stage

def MappingRecord.Later (before after : MappingRecord) : Prop :=
  after = { before with state := after.state } ∧ before.state.stage ≤ after.state.stage

def LoadedCodeRecord.Later (before after : LoadedCodeRecord) : Prop :=
  after = { before with state := after.state } ∧ before.state.stage ≤ after.state.stage

def QueueRecord.Later (before after : QueueRecord) : Prop :=
  after = { before with state := after.state } ∧ before.state.stage ≤ after.state.stage

/-- A dispatch keeps its queue, code, completion and resources. -/
def DispatchRecord.Later (before after : DispatchRecord) : Prop :=
  after = { before with state := after.state }

variable {record : RecordRef} {value : DispatchState} {κ ρ : Type}

variable {fromDispatch : DispatchState} {fromCompletion : CompletionState}

namespace RuntimeState

variable {state next later : RuntimeState}

/-- What holds between a state and any later one. -/
structure Evolution (before after : RuntimeState) : Prop where
  devices : Evolves DeviceRecord.key DeviceRecord.Later before.devices after.devices
  vms : Evolves VmRecord.key VmRecord.Later before.vms after.vms
  allocations :
    Evolves AllocationRecord.key AllocationRecord.Later before.allocations after.allocations
  mappings : Evolves MappingRecord.key MappingRecord.Later before.mappings after.mappings
  loadedCode :
    Evolves LoadedCodeRecord.key LoadedCodeRecord.Later before.loadedCode after.loadedCode
  queues : Evolves QueueRecord.key QueueRecord.Later before.queues after.queues
  dispatches : Evolves DispatchRecord.key DispatchRecord.Later before.dispatches after.dispatches

theorem Evolution.refl (state : RuntimeState) : Evolution state state := by
  constructor <;> apply Evolves.refl
  case dispatches => exact fun _ => rfl
  all_goals exact fun _ => ⟨rfl, le_refl _⟩

theorem Evolution.trans {first second third : RuntimeState} (h : Evolution first second)
    (h' : Evolution second third) : Evolution first third := by
  refine ⟨h.devices.trans ?_ h'.devices, h.vms.trans ?_ h'.vms,
    h.allocations.trans ?_ h'.allocations, h.mappings.trans ?_ h'.mappings,
      h.loadedCode.trans ?_ h'.loadedCode, h.queues.trans ?_ h'.queues,
    h.dispatches.trans (fun a b c (hab : b = _) (hbc : c = _) => ?_) h'.dispatches⟩
  case refine_7 => exact hbc.trans (hab ▸ rfl)
  all_goals exact fun a b c hab hbc => ⟨by rw [hbc.1, hab.1], le_trans hab.2 hbc.2⟩

/-! ### One transition -/

theorem Evolution.setDevice {key : DeviceKey} {value : DeviceState}
    (h : ∀ record, lookup DeviceRecord.key key state.devices = some record →
      record.state.stage ≤ value.stage) : Evolution state (state.setDevice key value) :=
  { Evolution.refl state with
    devices := .amend (fun _ => rfl) (fun _ => ⟨rfl, le_refl _⟩) fun record hfound =>
      ⟨rfl, h record hfound⟩ }

theorem Evolution.setVm {key : VmKey} {value : VmState}
    (h : ∀ record, lookup VmRecord.key key state.vms = some record →
      record.state.stage ≤ value.stage) : Evolution state (state.setVm key value) :=
  { Evolution.refl state with
    vms := .amend (fun _ => rfl) (fun _ => ⟨rfl, le_refl _⟩) fun record hfound =>
      ⟨rfl, h record hfound⟩ }

theorem Evolution.setQueue {key : QueueKey} {value : QueueState}
    (h : ∀ record, lookup QueueRecord.key key state.queues = some record →
      record.state.stage ≤ value.stage) : Evolution state (state.setQueue key value) :=
  { Evolution.refl state with
    queues := .amend (fun _ => rfl) (fun _ => ⟨rfl, le_refl _⟩) fun record hfound =>
      ⟨rfl, h record hfound⟩ }

theorem Evolution.setDispatch {key : DispatchKey} : Evolution state (state.setDispatch key value) :=
  { Evolution.refl state with
    dispatches := .amend (fun _ => rfl) (fun _ => rfl) fun _ _ => rfl }

theorem Evolution.setCompletion {key : CompletionKey} {value : CompletionState} :
    Evolution state (state.setCompletion key value) :=
  { Evolution.refl state with }

/-- The stage of a state that is known. -/
theorem stage_le_of_found [DecidableEq κ] {key : ρ → κ} {k : κ} {table : List ρ} {stage : ρ → Nat}
    {bound : Nat} {record : ρ} (hfound : lookup key k table = some record)
    (hstage : stage record ≤ bound) :
    ∀ other, lookup key k table = some other → stage other ≤ bound := by
  intro other hother
  cases hfound.symm.trans hother
  exact hstage

/-! ### What a dispatch in flight uses -/

/-- The dispatch of the completion was published, and neither observed nor settled. -/
def InFlight (state : RuntimeState) (completion : CompletionKey) : Prop :=
  ∃ dispatch, lookup DispatchRecord.key completion.dispatch state.dispatches = some dispatch ∧
    dispatch.completion = completion ∧ (dispatch.state = .published ∨ dispatch.state = .ambiguous)

/-- The mappings of a dispatch: its queue's ring, its code's and its resources'. -/
inductive UsesMapping (state : RuntimeState) (completion : CompletionKey) : MappingKey → Prop
  | ring {queue : QueueRecord} :
      lookup QueueRecord.key completion.dispatch.queue state.queues = some queue →
      UsesMapping state completion queue.ringMapping
  | executable {dispatch : DispatchRecord} {code : LoadedCodeRecord} :
      lookup DispatchRecord.key completion.dispatch state.dispatches = some dispatch →
      lookup LoadedCodeRecord.key dispatch.code state.loadedCode = some code →
      UsesMapping state completion code.executableMapping
  | resource {dispatch : DispatchRecord} {resource : DispatchResource} :
      lookup DispatchRecord.key completion.dispatch state.dispatches = some dispatch →
      resource ∈ dispatch.resources → UsesMapping state completion resource.mapping

/-- The records that the dispatch of a completion relies on. -/
inductive Uses (state : RuntimeState) (completion : CompletionKey) : RecordRef → Prop
  | queue : Uses state completion (.queue completion.dispatch.queue)
  | code {dispatch : DispatchRecord} :
      lookup DispatchRecord.key completion.dispatch state.dispatches = some dispatch →
      Uses state completion (.loadedCode dispatch.code)
  | mapping {key : MappingKey} : UsesMapping state completion key →
      Uses state completion (.mapping key)
  | allocation {key : MappingKey} : UsesMapping state completion key →
      Uses state completion (.allocation key.allocation)
  | vm : Uses state completion (.vm completion.dispatch.queue.vm)
  | device : Uses state completion (.device completion.dispatch.queue.vm.device)

/-- The record with this key was released.  Dispatches and completions are not. -/
def Released (state : RuntimeState) : RecordRef → Prop
  | .device key => ∃ record, lookup DeviceRecord.key key state.devices = some record ∧
      record.state = .released
  | .vm key => ∃ record, lookup VmRecord.key key state.vms = some record ∧
      record.state = .released
  | .allocation key => ∃ record,
      lookup AllocationRecord.key key state.allocations = some record ∧ record.state = .released
  | .mapping key => ∃ record, lookup MappingRecord.key key state.mappings = some record ∧
      record.state = .released
  | .loadedCode key => ∃ record,
      lookup LoadedCodeRecord.key key state.loadedCode = some record ∧ record.state = .released
  | .queue key => ∃ record, lookup QueueRecord.key key state.queues = some record ∧
      record.state = .released
  | .dispatch _ | .completion _ => False

/-! ### In a valid state nothing in use is released -/

variable {key : MappingKey}

/-- A live mapping keeps its allocation, that the VM, and that the device. -/
theorem Valid.chain_kept {mapping : MappingRecord} (h : state.Valid)
    (hfound : lookup MappingRecord.key key state.mappings = some mapping)
    (hlive : mapping.state = .live) :
    (∃ allocation, lookup AllocationRecord.key key.allocation state.allocations = some allocation ∧
      allocation.state ≠ .released) ∧
    (∃ vm, lookup VmRecord.key key.allocation.vm state.vms = some vm ∧ vm.state ≠ .released) ∧
    ∃ device, lookup DeviceRecord.key key.allocation.vm.device state.devices = some device ∧
      device.state ≠ .released := by
  have hkey := lookup_key hfound
  obtain ⟨allocation, hallocation⟩ := h.mappings mapping (lookup_mem hfound)
  have hkept : allocation.state ≠ .released := fun hreleased => by
    rw [hallocation.outlived hreleased] at hlive
    exact nomatch hlive
  obtain ⟨vm, hvm⟩ := h.allocations allocation (lookup_mem hallocation.found)
  have hvmKept : vm.state ≠ .released := fun hreleased => hkept (hvm.outlived hreleased)
  obtain ⟨device, hdevice⟩ := h.vms vm (lookup_mem hvm.found)
  have hdeviceKept : device.state ≠ .released := fun hreleased =>
    hvmKept (hdevice.outlived hreleased)
  have hallocationKey := lookup_key hallocation.found
  have hvmKey := lookup_key hvm.found
  refine ⟨⟨allocation, ?_, hkept⟩, ⟨vm, ?_, hvmKept⟩, device, ?_, hdeviceKept⟩
  · rw [← hkey]
    exact hallocation.found
  · rw [← hkey, ← hallocationKey]
    exact hvm.found
  · rw [← hkey, ← hallocationKey, ← hvmKey]
    exact hdevice.found

variable {completion : CompletionKey}

/-- The dispatch in flight, with the records it refers to. -/
theorem Valid.inFlight_fits (h : state.Valid) (hflight : state.InFlight completion) :
    ∃ dispatch queue code, lookup DispatchRecord.key completion.dispatch state.dispatches
        = some dispatch ∧
      lookup QueueRecord.key completion.dispatch.queue state.queues = some queue ∧
      queue.state ≠ .released ∧
      lookup LoadedCodeRecord.key dispatch.code state.loadedCode = some code ∧
      code.state = .live ∧
      ∀ resource ∈ dispatch.resources, ∃ mapping,
        lookup MappingRecord.key resource.mapping state.mappings = some mapping ∧
        mapping.state = .live := by
  obtain ⟨dispatch, hfound, -, hstate⟩ := hflight
  have hretains : dispatch.state.retainsResources = true := by
    obtain hstate | hstate := hstate <;> rw [hstate] <;> rfl
  obtain ⟨queue, code, record, hfits⟩ := h.dispatches dispatch (lookup_mem hfound)
  refine ⟨dispatch, queue, code, hfound, ?_, hfits.queueKept hretains, hfits.codeFound,
    hfits.codeKept hretains, fun resource hresource => ?_⟩
  · rw [← lookup_key hfound]
    exact hfits.queueFound
  · obtain ⟨mapping, hmapping⟩ := hfits.resourcesKept hretains resource hresource
    exact ⟨mapping, hmapping.found, hmapping.live⟩

theorem Valid.usesMapping_live (h : state.Valid) (hflight : state.InFlight completion)
    (huses : UsesMapping state completion key) :
    ∃ mapping, lookup MappingRecord.key key state.mappings = some mapping ∧
      mapping.state = .live := by
  obtain ⟨dispatch, queue, code, hdispatch, hqueue, hkept, hcode, hlive, hresources⟩ :=
    h.inFlight_fits hflight
  cases huses with
  | ring hfound =>
    cases hqueue.symm.trans hfound
    obtain ⟨mapping, hmapping⟩ := h.queues queue (lookup_mem hqueue)
    exact ⟨mapping, hmapping.found, (hmapping.writable hkept).1⟩
  | executable hfound hloaded =>
    cases hdispatch.symm.trans hfound
    cases hcode.symm.trans hloaded
    obtain ⟨mapping, hmapping⟩ := h.loadedCode code (lookup_mem hcode)
    exact ⟨mapping, hmapping.found, (hmapping.executable hlive).1⟩
  | resource hfound hresource =>
    cases hdispatch.symm.trans hfound
    exact hresources _ hresource

/-- A record that is found in a state other than the released one was not released. -/
theorem not_released_of_found {σ : Type} [DecidableEq κ] {key : ρ → κ} {k : κ} {table : List ρ}
    {stateOf : ρ → σ} {released : σ}
    (h : ∃ record, lookup key k table = some record ∧ stateOf record ≠ released) :
    ¬ ∃ record, lookup key k table = some record ∧ stateOf record = released := by
  obtain ⟨record, hfound, hkept⟩ := h
  rintro ⟨other, hother, hreleased⟩
  cases hfound.symm.trans hother
  exact hkept hreleased

theorem Valid.not_released_of_uses (h : state.Valid) (hflight : state.InFlight completion)
    (huses : Uses state completion record) : ¬ Released state record := by
  obtain ⟨dispatch, queue, code, hdispatch, hqueue, hkept, hcode, hlive, -⟩ :=
    h.inFlight_fits hflight
  -- The VM and the device are those of the ring mapping's allocation.
  obtain ⟨ring, hring⟩ := h.queues queue (lookup_mem hqueue)
  obtain ⟨-, hvm, hdevice⟩ := h.chain_kept hring.found (hring.writable hkept).1
  rw [hring.bound, lookup_key hqueue] at hvm hdevice
  cases huses with
  | queue => exact not_released_of_found ⟨queue, hqueue, hkept⟩
  | code hfound =>
    cases hdispatch.symm.trans hfound
    exact not_released_of_found ⟨code, hcode, by rw [hlive]; decide⟩
  | mapping hmapping =>
    obtain ⟨mapping, hfound, hstate⟩ := h.usesMapping_live hflight hmapping
    exact not_released_of_found ⟨mapping, hfound, by rw [hstate]; decide⟩
  | allocation hmapping =>
    obtain ⟨mapping, hfound, hstate⟩ := h.usesMapping_live hflight hmapping
    exact not_released_of_found (h.chain_kept hfound hstate).1
  | vm => exact not_released_of_found hvm
  | device => exact not_released_of_found hdevice

/-! ### What stays along an evolution -/

theorem Evolution.usesMapping (h : Evolution state later)
    (huses : UsesMapping state completion key) : UsesMapping later completion key := by
  cases huses with
  | ring hqueue =>
    obtain ⟨queue, hfound, hlater⟩ := h.queues _ _ hqueue
    have hsame := congrArg QueueRecord.ringMapping hlater.1
    exact hsame ▸ UsesMapping.ring hfound
  | executable hdispatch hcode =>
    obtain ⟨dispatch, hfound, hlater⟩ := h.dispatches _ _ hdispatch
    obtain ⟨code, hloaded, hcodeLater⟩ := h.loadedCode _ _ hcode
    have hsame := congrArg LoadedCodeRecord.executableMapping hcodeLater.1
    have hcodeKey := congrArg DispatchRecord.code hlater
    exact hsame ▸ UsesMapping.executable hfound (hcodeKey ▸ hloaded)
  | resource hdispatch hresource =>
    obtain ⟨dispatch, hfound, hlater⟩ := h.dispatches _ _ hdispatch
    have hsame := congrArg DispatchRecord.resources hlater
    exact UsesMapping.resource hfound (hsame ▸ hresource)

theorem Evolution.uses (h : Evolution state later) (huses : Uses state completion record) :
    Uses later completion record := by
  cases huses with
  | queue => exact .queue
  | code hdispatch =>
    obtain ⟨dispatch, hfound, hlater⟩ := h.dispatches _ _ hdispatch
    have hsame := congrArg DispatchRecord.code hlater
    exact hsame ▸ Uses.code hfound
  | mapping hmapping => exact .mapping (h.usesMapping hmapping)
  | allocation hmapping => exact .allocation (h.usesMapping hmapping)
  | vm => exact .vm
  | device => exact .device

theorem Evolution.released (h : Evolution state later) (hreleased : Released state record) :
    Released later record := by
  cases record with
  | device key =>
    exact h.devices.keeps (fun _ _ hlater hstate => DeviceState.eq_released (hstate ▸ hlater.2))
      hreleased
  | vm key =>
    exact h.vms.keeps (fun _ _ hlater hstate => VmState.eq_released (hstate ▸ hlater.2)) hreleased
  | allocation key =>
    exact h.allocations.keeps (fun _ _ hlater hstate => ResourceState.eq_released
      (hstate ▸ hlater.2)) hreleased
  | mapping key =>
    exact h.mappings.keeps (fun _ _ hlater hstate => ResourceState.eq_released (hstate ▸ hlater.2))
      hreleased
  | loadedCode key =>
    exact h.loadedCode.keeps (fun _ _ hlater hstate => ResourceState.eq_released
      (hstate ▸ hlater.2)) hreleased
  | queue key =>
    exact h.queues.keeps (fun _ _ hlater hstate => QueueState.eq_released (hstate ▸ hlater.2))
      hreleased
  | dispatch key | completion key => exact hreleased

/-! ### A dispatch stays in flight until it is observed or settled -/

/-- An accepted move of another dispatch, or of this one within its flight. -/
theorem InFlight.moveDispatch {moved : CompletionKey} (h : state.InFlight completion)
    (hawaits : state.Awaits moved fromDispatch fromCompletion)
    (hsame : moved = completion → (fromDispatch = .published ∨ fromDispatch = .ambiguous) →
      value = .published ∨ value = .ambiguous) :
    (state.setDispatch moved.dispatch value).InFlight completion := by
  obtain ⟨dispatch, hfound, hcompletion, hstate⟩ := h
  obtain ⟨⟨other, hother, hmoved, hfrom⟩, -⟩ := hawaits
  by_cases hkey : completion.dispatch = moved.dispatch
  · rw [hkey] at hfound
    cases hfound.symm.trans hother
    refine ⟨{ dispatch with state := value }, ?_, hcompletion, ?_⟩
    · rw [hkey]
      exact lookup_amend_self (fun _ => rfl) hfound
    · apply hsame (hmoved.symm.trans hcompletion)
      rw [← hfrom]
      exact hstate
  · refine ⟨dispatch, ?_, hcompletion, hstate⟩
    rw [← hfound]
    exact lookup_amend_of_ne (fun _ => rfl) hkey

variable {transition : RuntimeTransition}

/-- Lifecycle states move on, and the flight of a dispatch ends only when it is observed or
    settled. -/
def Moves (transition : RuntimeTransition) (state next : RuntimeState) : Prop :=
  Evolution state next ∧ ∀ completion, state.InFlight completion →
    transition ≠ .observeCompletion completion →
    transition ≠ .settleAfterQuiescence completion → next.InFlight completion

theorem Evolution.moves (h : Evolution state next) (hsame : next.dispatches = state.dispatches) :
    Moves transition state next := by
  refine ⟨h, fun completion hflight _ _ => ?_⟩
  rwa [InFlight, hsame]

theorem apply_moves (h : state.apply transition = .ok next) : Moves transition state next := by
  cases transition with
  | addDevice key =>
    obtain ⟨-, -, -, rfl⟩ := addDevice_eq_ok.mp h
    exact Evolution.moves
      { Evolution.refl state with devices := .append fun _ => ⟨rfl, le_refl _⟩ } rfl
  | beginDeviceFailure key | establishDeviceQuiescence key =>
    obtain ⟨⟨record, hfound, hstate⟩, rfl⟩ := moveDevice_eq_ok.mp h
    exact Evolution.moves (.setDevice (stage_le_of_found hfound (by rw [hstate]; decide))) rfl
  | releaseDevice key =>
    obtain ⟨-, -, rfl⟩ := releaseDevice_eq_ok.mp h
    exact Evolution.moves (.setDevice fun record _ => by cases record.state <;> decide) rfl
  | createVm key =>
    obtain ⟨-, -, -, rfl⟩ := createVm_eq_ok.mp h
    exact Evolution.moves { Evolution.refl state with vms := .append fun _ => ⟨rfl, le_refl _⟩ } rfl
  | beginVmFailure key | establishVmQuiescence key =>
    obtain ⟨⟨record, hfound, hstate⟩, rfl⟩ := moveVm_eq_ok.mp h
    exact Evolution.moves (.setVm (stage_le_of_found hfound (by rw [hstate]; decide))) rfl
  | releaseVm key =>
    obtain ⟨-, -, -, -, rfl⟩ := releaseVm_eq_ok.mp h
    exact Evolution.moves (.setVm fun record _ => by cases record.state <;> decide) rfl
  | allocate key byteLen =>
    obtain ⟨-, -, -, -, rfl⟩ := allocate_eq_ok.mp h
    exact Evolution.moves
      { Evolution.refl state with allocations := .append fun _ => ⟨rfl, le_refl _⟩ } rfl
  | releaseAllocation key =>
    obtain ⟨-, -, rfl⟩ := releaseAllocation_eq_ok.mp h
    exact Evolution.moves { Evolution.refl state with
      allocations := .amend (fun _ => rfl) (fun _ => ⟨rfl, le_refl _⟩) fun record _ =>
        ⟨rfl, record.state.stage_le_released⟩ } rfl
  | map key allocationOffset gpuVa byteLen access =>
    obtain ⟨-, -, -, -, -, rfl⟩ := map_eq_ok.mp h
    exact Evolution.moves
      { Evolution.refl state with mappings := .append fun _ => ⟨rfl, le_refl _⟩ } rfl
  | unmap key =>
    obtain ⟨-, -, -, -, rfl⟩ := unmap_eq_ok.mp h
    exact Evolution.moves { Evolution.refl state with
      mappings := .amend (fun _ => rfl) (fun _ => ⟨rfl, le_refl _⟩) fun record _ =>
        ⟨rfl, record.state.stage_le_released⟩ } rfl
  | loadCode key loadPlanId artifactId executableMapping entryOffset =>
    obtain ⟨-, -, -, -, -, rfl⟩ := loadCode_eq_ok.mp h
    exact Evolution.moves
      { Evolution.refl state with loadedCode := .append fun _ => ⟨rfl, le_refl _⟩ } rfl
  | unloadCode key =>
    obtain ⟨-, -, rfl⟩ := unloadCode_eq_ok.mp h
    exact Evolution.moves { Evolution.refl state with
      loadedCode := .amend (fun _ => rfl) (fun _ => ⟨rfl, le_refl _⟩) fun record _ =>
        ⟨rfl, record.state.stage_le_released⟩ } rfl
  | createQueue key planId ringMapping capacity =>
    obtain ⟨-, -, -, -, -, -, -, rfl⟩ := createQueue_eq_ok.mp h
    exact Evolution.moves
      { Evolution.refl state with queues := .append fun _ => ⟨rfl, le_refl _⟩ } rfl
  | beginQueueFailure key | establishQueueQuiescence key =>
    obtain ⟨⟨record, hfound, hstate⟩, rfl⟩ := moveQueue_eq_ok.mp h
    exact Evolution.moves (.setQueue (stage_le_of_found hfound (by rw [hstate]; decide))) rfl
  | releaseQueue key =>
    obtain ⟨-, -, rfl⟩ := releaseQueue_eq_ok.mp h
    exact Evolution.moves (.setQueue fun record _ => by cases record.state <;> decide) rfl
  | prepareDispatch key code other resources =>
    obtain ⟨-, -, -, -, -, -, -, -, -, -, -, -, rfl⟩ := prepareDispatch_eq_ok.mp h
    refine ⟨{ Evolution.refl state with dispatches := .append fun _ => rfl }, ?_⟩
    rintro completion ⟨dispatch, hfound, hrest⟩ - -
    exact ⟨dispatch, lookup_append_of_some hfound, hrest⟩
  | abortPrepared other =>
    obtain ⟨hawaits, rfl⟩ := transitionDispatch_eq_ok.mp h
    refine ⟨Evolution.setDispatch.trans .setCompletion, fun completion hflight _ _ => ?_⟩
    exact hflight.moveDispatch hawaits fun _ hprepared => by simp at hprepared
  | publishDispatch other =>
    obtain ⟨hawaits, -, rfl⟩ := publishDispatch_eq_ok.mp h
    refine ⟨.setDispatch, fun completion hflight _ _ => ?_⟩
    exact hflight.moveDispatch hawaits fun _ hprepared => by simp at hprepared
  | markDispatchAmbiguous other =>
    obtain ⟨hawaits, rfl⟩ := transitionDispatch_eq_ok.mp h
    refine ⟨Evolution.setDispatch.trans .setCompletion, fun completion hflight _ _ => ?_⟩
    exact hflight.moveDispatch hawaits fun _ _ => .inr rfl
  | observeCompletion other =>
    obtain ⟨hawaits, -, rfl⟩ := observeCompletion_eq_ok.mp h
    refine ⟨Evolution.setDispatch.trans .setCompletion, fun completion hflight hobserve _ => ?_⟩
    exact hflight.moveDispatch hawaits fun hsame => absurd (congrArg _ hsame) hobserve
  | settleAfterQuiescence other =>
    obtain ⟨hawaits, -, rfl⟩ := settleAfterQuiescence_eq_ok.mp h
    refine ⟨Evolution.setDispatch.trans .setCompletion, fun completion hflight _ hsettle => ?_⟩
    exact hflight.moveDispatch hawaits fun hsame => absurd (congrArg _ hsame) hsettle

theorem inFlight_of_publish (hstep : state.apply (.publishDispatch completion) = .ok next) :
    next.InFlight completion := by
  obtain ⟨⟨⟨dispatch, hfound, hcompletion, -⟩, -⟩, -, rfl⟩ := publishDispatch_eq_ok.mp hstep
  exact ⟨{ dispatch with state := .published }, lookup_amend_self (fun _ => rfl) hfound,
    hcompletion, .inl rfl⟩

/-! ### Runs -/

/-- A transition that is rejected leaves the state as it was. -/
def attempt (state : RuntimeState) (transition : RuntimeTransition) : RuntimeState :=
  match state.next transition with
  | .ok next => next
  | .error _ => state

/-- The state after a sequence of transitions, each accepted or rejected. -/
def run (state : RuntimeState) (transitions : List RuntimeTransition) : RuntimeState :=
  transitions.foldl attempt state

/-- One attempt is an accepted transition, or nothing. -/
theorem Valid.attempt_cases (h : state.Valid) (transition : RuntimeTransition) :
    state.apply transition = .ok (state.attempt transition) ∨
      state.attempt transition = state ∧ ∀ next, state.next transition ≠ .ok next := by
  rw [attempt, h.next_eq_apply]
  cases happly : state.apply transition with
  | ok next => exact .inl rfl
  | error error => exact .inr ⟨rfl, fun next hnext => nomatch hnext⟩

theorem Valid.attempt (h : state.Valid) (transition : RuntimeTransition) :
    (state.attempt transition).Valid ∧ Evolution state (state.attempt transition) := by
  obtain hstep | ⟨hsame, -⟩ := h.attempt_cases transition
  · exact ⟨h.apply hstep, (apply_moves hstep).1⟩
  · rw [hsame]
    exact ⟨h, .refl state⟩

theorem Valid.run (h : state.Valid) (transitions : List RuntimeTransition) :
    (state.run transitions).Valid ∧ Evolution state (state.run transitions) := by
  induction transitions generalizing state with
  | nil => exact ⟨h, .refl state⟩
  | cons transition transitions ih =>
    obtain ⟨hvalid, hstep⟩ := h.attempt transition
    obtain ⟨hlast, hrest⟩ := ih hvalid
    exact ⟨hlast, hstep.trans hrest⟩

/-- No attempt in the run observed or settled the completion. -/
def Unsettled (state : RuntimeState) (completion : CompletionKey)
    (transitions : List RuntimeTransition) : Prop :=
  ∀ before transition after, transitions = before ++ transition :: after →
    transition = .observeCompletion completion ∨ transition = .settleAfterQuiescence completion →
    ∀ next, (state.run before).next transition ≠ .ok next

theorem InFlight.run {transitions : List RuntimeTransition} (hvalid : state.Valid)
    (h : state.InFlight completion) (hunsettled : Unsettled state completion transitions) :
    (state.run transitions).InFlight completion := by
  induction transitions generalizing state with
  | nil => exact h
  | cons transition transitions ih =>
    have hstep : (state.attempt transition).InFlight completion := by
      obtain hstep | ⟨hsame, -⟩ := hvalid.attempt_cases transition
      · have hrejected := hunsettled [] transition transitions rfl
        have hnext := hvalid.next_eq_apply.trans hstep
        exact (apply_moves hstep).2 _ h (fun heq => hrejected (.inl heq) _ hnext)
          (fun heq => hrejected (.inr heq) _ hnext)
      · rw [hsame]
        exact h
    refine ih (hvalid.attempt transition).1 hstep fun before next after hsplit => ?_
    exact hunsettled (transition :: before) next after (by rw [hsplit]; rfl)

/-! ### No observation after a failure -/

/-- The transition begins a failure of the queue, of its VM or of its device. -/
def BeginsFailure (queue : QueueKey) (transition : RuntimeTransition) : Prop :=
  transition = .beginQueueFailure queue ∨ transition = .beginVmFailure queue.vm ∨
    transition = .beginDeviceFailure queue.vm.device

/-- The queue, its VM or its device is past its first state. -/
def Failed (state : RuntimeState) (key : QueueKey) : Prop :=
  (∃ queue, lookup QueueRecord.key key state.queues = some queue ∧ 1 ≤ queue.state.stage) ∨
  (∃ vm, lookup VmRecord.key key.vm state.vms = some vm ∧ 1 ≤ vm.state.stage) ∨
  ∃ device, lookup DeviceRecord.key key.vm.device state.devices = some device ∧
    1 ≤ device.state.stage

theorem Failed.evolution {key : QueueKey} (h : state.Failed key) (hlater : Evolution state later) :
    later.Failed key := by
  obtain hqueue | hvm | hdevice := h
  · exact .inl (hlater.queues.keeps (fun _ _ hmoved hstage => le_trans hstage hmoved.2) hqueue)
  · exact .inr (.inl (hlater.vms.keeps (fun _ _ hmoved hstage => le_trans hstage hmoved.2) hvm))
  · exact .inr (.inr (hlater.devices.keeps (fun _ _ hmoved hstage => le_trans hstage hmoved.2)
      hdevice))

theorem Failed.not_queueReady {key : QueueKey} (h : state.Failed key) : ¬ state.QueueReady key := by
  rintro ⟨⟨⟨vm, hvm, hactive⟩, device, hdevice, hready⟩, queue, hqueue, hqueueReady⟩
  obtain ⟨other, hfound, hstage⟩ | ⟨other, hfound, hstage⟩ | ⟨other, hfound, hstage⟩ := h
  · cases hqueue.symm.trans hfound
    rw [hqueueReady] at hstage
    exact absurd hstage (by decide)
  · cases hvm.symm.trans hfound
    rw [hactive] at hstage
    exact absurd hstage (by decide)
  · cases hdevice.symm.trans hfound
    rw [hready] at hstage
    exact absurd hstage (by decide)

theorem failed_of_beginsFailure {key : QueueKey} (hbegins : BeginsFailure key transition)
    (hstep : state.apply transition = .ok next) : next.Failed key := by
  obtain rfl | rfl | rfl := hbegins
  · obtain ⟨⟨queue, hfound, -⟩, rfl⟩ := moveQueue_eq_ok.mp hstep
    exact .inl ⟨_, lookup_amend_self (fun _ => rfl) hfound, le_refl 1⟩
  · obtain ⟨⟨vm, hfound, -⟩, rfl⟩ := moveVm_eq_ok.mp hstep
    exact .inr (.inl ⟨_, lookup_amend_self (fun _ => rfl) hfound, le_refl 1⟩)
  · obtain ⟨⟨device, hfound, -⟩, rfl⟩ := moveDevice_eq_ok.mp hstep
    exact .inr (.inr ⟨_, lookup_amend_self (fun _ => rfl) hfound, le_refl 1⟩)

/-- **No release under possible device access**, in every run from the empty state.
    From its publication until it is observed or settled, nothing that a dispatch uses
    is released.  It is settled only while its queue, VM or device is quiescent, and not
    observed once a failure of one of them has begun.  What was released stays so. -/
theorem no_release_under_access (before : List RuntimeTransition) (completion : CompletionKey) :
    (∀ published during record,
      (new.run before).next (.publishDispatch completion) = .ok published →
      Unsettled published completion during → Uses published completion record →
      ¬ Released (published.run during) record) ∧
    (∀ settled, (new.run before).next (.settleAfterQuiescence completion) = .ok settled →
      (new.run before).AtRest completion.dispatch.queue) ∧
    (∀ transition failed after observed, BeginsFailure completion.dispatch.queue transition →
      (new.run before).next transition = .ok failed →
      (failed.run after).next (.observeCompletion completion) ≠ .ok observed) ∧
    ∀ after record, Released (new.run before) record →
      Released ((new.run before).run after) record := by
  have hvalid := (new_valid.run before).1
  refine ⟨fun published during record hpublish hunsettled huses => ?_, fun settled hsettle => ?_,
    fun transition failed after observed hbegins hstep hobserve => ?_,
    fun after record hreleased => ?_⟩
  · rw [hvalid.next_eq_apply] at hpublish
    obtain ⟨hlast, hevolution⟩ := (hvalid.apply hpublish).run during
    have hflight := (inFlight_of_publish hpublish).run (hvalid.apply hpublish) hunsettled
    exact hlast.not_released_of_uses hflight (hevolution.uses huses)
  · rw [hvalid.next_eq_apply] at hsettle
    exact (settleAfterQuiescence_eq_ok.mp hsettle).2.1
  · rw [hvalid.next_eq_apply] at hstep
    obtain ⟨hlast, hevolution⟩ := (hvalid.apply hstep).run after
    rw [hlast.next_eq_apply] at hobserve
    have hfailed := (failed_of_beginsFailure hbegins hstep).evolution hevolution
    exact hfailed.not_queueReady (observeCompletion_eq_ok.mp hobserve).2.1
  · exact (hvalid.run after).2.released hreleased

/-- The ring of the published dispatch cannot be unmapped. -/
theorem no_release_under_access_launch : let vm : VmKey := ⟨⟨7, 1⟩, 10⟩
    let completion : CompletionKey := ⟨⟨⟨vm, 3, 1⟩, 0⟩, 9⟩
    ∃ published, (new.run launch).next (.publishDispatch completion) = .ok published ∧
      ¬ Released (published.run [.unmap ⟨⟨vm, 0⟩, 0⟩]) (.mapping ⟨⟨vm, 0⟩, 0⟩) := by
  intro vm completion
  let published := (new.run launch).setDispatch completion.dispatch .published
  have hqueue : lookup QueueRecord.key completion.dispatch.queue published.queues =
    some ⟨⟨vm, 3, 1⟩, 1, ⟨⟨vm, 0⟩, 0⟩, 2, .ready⟩ := rfl
  refine ⟨published, rfl, ?_⟩
  refine (no_release_under_access launch completion).1 published _ _ rfl ?_
    (.mapping (.ring hqueue))
  intro before transition after hsplit hends
  cases before with
  | nil =>
    rw [List.nil_append, List.cons.injEq] at hsplit
    obtain rfl | rfl := hends <;> exact nomatch hsplit.1
  | cons first rest =>
    rw [List.cons_append, List.cons.injEq] at hsplit
    exact absurd hsplit.2.symm (by simp)

/-! ### A dispatch ends once -/

/-- The transition prepares, moves or ends the dispatch of the completion. -/
def Concerns (completion : CompletionKey) (transition : RuntimeTransition) : Prop :=
  transition = .abortPrepared completion ∨ transition = .publishDispatch completion ∨
    transition = .markDispatchAmbiguous completion ∨ transition = .observeCompletion completion ∨
    transition = .settleAfterQuiescence completion ∨
    ∃ code other resources, transition = .prepareDispatch completion.dispatch code other resources

section

variable {dispatch : DispatchRecord} {key : DispatchKey}
  (hfound : lookup DispatchRecord.key key state.dispatches = some dispatch)
  (hended : dispatch.state.retainsResources = false)
include hfound hended

/-- Only dispatches that have not ended are awaited. -/
theorem Awaits.ne_of_ended (h : state.Awaits completion fromDispatch fromCompletion)
    (hretains : fromDispatch.retainsResources = true) : key ≠ completion.dispatch := by
  rintro rfl
  rcases h with ⟨⟨other, hother, _, rfl⟩, _⟩
  cases hfound.symm.trans hother
  cases hretains.symm.trans hended

theorem apply_ne_ok_of_ended (hconcerns : Concerns completion transition)
    (hkey : key = completion.dispatch) : state.apply transition ≠ .ok next := by
  intro h
  rcases hconcerns with rfl | rfl | rfl | rfl | rfl | ⟨code, other, resources, rfl⟩
  · exact (transitionDispatch_eq_ok.mp h).1.ne_of_ended hfound hended rfl hkey
  · exact (publishDispatch_eq_ok.mp h).1.ne_of_ended hfound hended rfl hkey
  · exact (transitionDispatch_eq_ok.mp h).1.ne_of_ended hfound hended rfl hkey
  · exact (observeCompletion_eq_ok.mp h).1.ne_of_ended hfound hended rfl hkey
  · exact (settleAfterQuiescence_eq_ok.mp h).1.ne_of_ended hfound hended rfl hkey
  · exact (prepareDispatch_eq_ok.mp h).2.2.1 dispatch (lookup_mem hfound)
      ((lookup_key hfound).trans hkey)

theorem apply_keeps_ended (h : state.apply transition = .ok next) :
    lookup DispatchRecord.key key next.dispatches = some dispatch := by
  rw [← hfound]
  cases transition with
  | prepareDispatch =>
    rcases prepareDispatch_eq_ok.mp h with ⟨_, _, _, _, _, _, _, _, _, _, _, _, rfl⟩
    rw [hfound]
    exact lookup_append_of_some hfound
  | abortPrepared | markDispatchAmbiguous =>
    rcases transitionDispatch_eq_ok.mp h with ⟨hawaits, rfl⟩
    exact lookup_amend_of_ne (fun _ => rfl) (hawaits.ne_of_ended hfound hended rfl)
  | publishDispatch | observeCompletion | settleAfterQuiescence =>
    simp only [RuntimeState.apply, publishDispatch_eq_ok, observeCompletion_eq_ok,
      settleAfterQuiescence_eq_ok] at h
    rcases h with ⟨hawaits, _, rfl⟩
    exact lookup_amend_of_ne (fun _ => rfl) (hawaits.ne_of_ended hfound hended rfl)
  | _ =>
    -- the other transitions leave the dispatches alone
    simp only [RuntimeState.apply, addDevice_eq_ok, moveDevice_eq_ok, releaseDevice_eq_ok,
      createVm_eq_ok, moveVm_eq_ok, releaseVm_eq_ok, allocate_eq_ok, releaseAllocation_eq_ok,
      map_eq_ok, unmap_eq_ok, loadCode_eq_ok, unloadCode_eq_ok, createQueue_eq_ok, moveQueue_eq_ok,
      releaseQueue_eq_ok] at h
    grind [setDevice, setVm, setAllocation, setMapping, setCode, setQueue]

theorem Valid.run_keeps_ended (hvalid : state.Valid) (transitions : List RuntimeTransition) :
    lookup DispatchRecord.key key (state.run transitions).dispatches = some dispatch := by
  induction transitions generalizing state with
  | nil => exact hfound
  | cons transition transitions ih =>
    refine ih ?_ (hvalid.attempt transition).1
    rcases hvalid.attempt_cases transition with hstep | ⟨hsame, _⟩
    · exact apply_keeps_ended hfound hended hstep
    · rwa [hsame]

end

/-- In every run, the record of a dispatch that was completed, settled or aborted stays as it is,
    and nothing that prepares, publishes, marks or ends the dispatch is accepted any more. -/
theorem ended_dispatch_final (before after : List RuntimeTransition) {dispatch : DispatchRecord}
    (hfound : lookup DispatchRecord.key completion.dispatch (new.run before).dispatches =
      some dispatch) (hended : dispatch.state.retainsResources = false) :
    lookup DispatchRecord.key completion.dispatch ((new.run before).run after).dispatches =
        some dispatch ∧
      ∀ transition, Concerns completion transition →
        ∀ next, ((new.run before).run after).next transition ≠ .ok next := by
  have hvalid := (new_valid.run before).1
  have hlast := hvalid.run_keeps_ended hfound hended after
  refine ⟨hlast, ?_⟩
  intro transition hconcerns next
  rw [(hvalid.run after).1.next_eq_apply]
  exact apply_ne_ok_of_ended hlast hended hconcerns rfl

def launched : CompletionKey := ⟨⟨⟨⟨⟨7, 1⟩, 10⟩, 3, 1⟩, 0⟩, 9⟩

/-- A publication after the abort is rejected and leaves the record as it was. -/
theorem ended_dispatch_final_launch :
    lookup DispatchRecord.key launched.dispatch
      ((new.run (launch ++ [.abortPrepared launched])).run [.publishDispatch launched]).dispatches =
        some ⟨launched.dispatch, ⟨⟨⟨7, 1⟩, 10⟩, 5⟩, launched, [], .abortedBeforePublication⟩ :=
  And.left (ended_dispatch_final _ _ (by decide +kernel) rfl)

end RuntimeState

end Fe2o3.RuntimeModel
