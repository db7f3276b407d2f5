import Fe2o3.Virtual.Scheduling

/-!
# Every run keeps the two states together

A new runtime satisfies the invariant, every call keeps it, accepted or rejected, and no
call panics as long as an ordinal is left.  What the invariant says of the tables is put
in their own words in `Agrees`.
-/

namespace Fe2o3.Virtual

open Lib KernelIr RuntimeModel Command
open List hiding lookup

/-- A call that starts another generation. -/
def Call.resets : Call → Bool
  | resetGeneration .. => true
  | _ => false

/-- The buffer that the host reads or writes by a call.  Initialization bits in another number
    than the bytes are refused before the buffer is looked at. -/
def Call.hostAccess? : Call → Option VirtualBufferHandle
  | copyFromHost handle .. | copyToHost handle .. | bufferSnapshot handle => some handle
  | copyFromHostWithInitialization handle _ source initialized =>
    if source.length = initialized.length then some handle else none
  | _ => none

/-- The host asks for a range of the buffer, and reads initialized bytes only. -/
def Call.Within (buffer : BufferRecord) : Call → Prop
  | copyFromHost _ offset source | copyFromHostWithInitialization _ offset source _ =>
    offset + source.length ≤ min buffer.bytes.length (2 ^ 64 - 1)
  | copyToHost _ offset length =>
    offset + length ≤ min buffer.bytes.length (2 ^ 64 - 1) ∧
      ∀ p, offset ≤ p → p < offset + length → buffer.initialized[p]? = some true
  | _ => True

/-- An argument of the dispatch is a view of the buffer, as a test. -/
def DispatchRecordLocal.names (dispatch : DispatchRecordLocal) (handle : VirtualBufferHandle) :
    Bool :=
  (dispatch.request.arguments.filterMap VirtualArgument.view?).any fun view => view.buffer == handle

theorem names_eq_true {dispatch : DispatchRecordLocal} {handle : VirtualBufferHandle} :
    dispatch.names handle = true ↔ dispatch.Names handle := by
  simp only [DispatchRecordLocal.names, any_eq_true, VirtualRuntime.mem_views, beq_iff_eq]
  exact Iff.rfl

theorem SimulationLimits.validate_eq_ok {limits checked : SimulationLimits}
    (h : limits.validate = .ok checked) : checked = limits := by
  obtain ⟨-, h⟩ := seq_eq_ok.mp h
  exact (pure_eq_ok.mp h).symm

variable {call : Call} {calls : List Call} {config : VirtualRuntimeConfig}
  {I : VirtualRuntime → Prop} {i : Nat} {buffer : BufferRecord}

namespace VirtualRuntime

variable {runtime next : VirtualRuntime}

/-! ### New runtimes -/

/-- A model with one ready device and one active VM. -/
def firstModel : RuntimeState :=
  { RuntimeState.new with devices := [⟨⟨0, 1⟩, .ready⟩], vms := [⟨⟨⟨0, 1⟩, 1⟩, .active⟩] }

theorem accepts_firstModel :
    Accepts RuntimeState.new [.addDevice ⟨0, 1⟩, .createVm ⟨⟨0, 1⟩, 1⟩] firstModel :=
  rfl

/-- The runtime that a configuration starts with. -/
def fresh (config : VirtualRuntimeConfig) : VirtualRuntime :=
  ⟨config, firstModel, ⟨⟨0, 1⟩, 1⟩, 1, firstUserAllocationId, firstSyntheticVa, 0, 0,
    [], [], [], []⟩

theorem new_eq_ok : new config = .ok runtime ↔ ConfigFits config ∧ runtime = fresh config := by
  have hmodel : fromModel (nextEach RuntimeState.new
      [.addDevice ⟨0, 1⟩, .createVm ⟨⟨0, 1⟩, 1⟩]) = .ok firstModel := by
    rw [fromModel_eq_ok, nextEach_eq_foldlM RuntimeState.new_valid]
    exact accepts_firstModel
  constructor
  · intro h
    unfold new at h
    simp only [check_eq_ok, bind_eq_ok, mapError_eq_ok, hmodel, pure_eq_ok] at h
    obtain ⟨hidentity, runtimeLimits, hruntime, simulationLimits, hsimulation, _, ⟨⟩, rfl⟩ := h
    obtain ⟨rfl, -⟩ := VirtualRuntimeLimits.validate_eq_ok hruntime
    obtain rfl := SimulationLimits.validate_eq_ok hsimulation
    exact ⟨⟨hidentity, hruntime, hsimulation⟩, rfl⟩
  · rintro ⟨⟨hidentity, hruntime, hsimulation⟩, rfl⟩
    refine check_eq_ok.mpr ⟨hidentity, bind_eq_ok.mpr ⟨_, hruntime, bind_eq_ok.mpr ⟨_, ?_,
      bind_eq_ok.mpr ⟨_, hmodel, rfl⟩⟩⟩⟩
    rw [hsimulation]
    rfl

theorem fresh_inv (h : ConfigFits config) : (fresh config).Inv where
  coherent := {
    configFits := h
    vmKey := rfl
    valid := Accepts.valid accepts_firstModel RuntimeState.new_valid
    devices := rfl
    vms := rfl
    handles := ⟨⟨forall_mem_nil _, .nil⟩, ⟨forall_mem_nil _, .nil⟩, ⟨forall_mem_nil _, .nil⟩,
      ⟨forall_mem_nil _, .nil⟩⟩
    holdings := {
      ids := rfl
      distinct := .nil
      shape := forall_mem_nil _
      allocated := .nil
      mapped := .nil }
    contents := forall_mem_nil _
    total := rfl
    modulesFit := .nil
    queuesFit := .nil
    dispatchesFit := .nil
    ready := forall_mem_nil _
    arguments := forall_mem_nil _
    dependencies := forall_mem_nil _
    fewDispatches := Nat.zero_le _ }
  retained := nofun

/-! ### Calls -/

/-- The positions that a call writes if it succeeds. -/
def Wrote (runtime : VirtualRuntime) : Call → Nat → Nat → Prop
  | .copyFromHost handle offset source => runtime.inRange handle offset source.length
  | .copyFromHostWithInitialization handle offset source _ =>
    runtime.inRange handle offset source.length
  | .runNext environment => RunWrites environment runtime
  | _ => nowhere

/-- The reply of a call does not matter for what it guarantees. -/
theorem Serves.map {α β : Type} {wrote : Nat → Nat → Prop} {call : Action α} {f : α → β}
    (h : Serves wrote call runtime) : Serves wrote (f <$> call) runtime := by
  unfold Serves at h ⊢
  rw [meets_map]
  exact h

theorem perform_serves (h : runtime.Inv) (call : Call) (hcall : call.resets = false) :
    Serves (runtime.Wrote call) (perform call) runtime := by
  cases call with
  | allocateBuffer environment byteLen access =>
    exact (allocateBuffer_issues h environment byteLen access).serves.map
  | copyFromHost handle offset source => exact (copyFromHost_serves h handle offset source).map
  | copyFromHostWithInitialization handle offset source initialized =>
    exact (copyFromHostWithInitialization_serves h handle offset source initialized).map
  | copyToHost handle offset length => exact (copyToHost_serves h handle offset length).map
  | bufferSnapshot handle => exact (bufferSnapshot_serves h handle).map
  | releaseBuffer handle => exact (releaseBuffer_serves h handle).map
  | registerModule module => exact (registerModule_issues h module).serves.map
  | releaseModule handle => exact (releaseModule_serves h handle).map
  | createQueue capacity => exact (createQueue_issues h capacity).serves.map
  | submit environment queue module request =>
    exact (submitConfigured_issues h environment queue module request none).serves.map
  | submitWithDynamicWorkgroupMemory environment queue module request dynamic =>
    exact (submitConfigured_issues h environment queue module request (some dynamic)).serves.map
  | releaseQueue handle => exact (releaseQueue_serves h handle).map
  | runNext environment => exact (runNext_serves h environment).map
  | completionState completion =>
    exact (observe_serves h completion DispatchRecordLocal.state).map
  | completionSummary completion =>
    exact (observe_serves h completion DispatchRecordLocal.summary).map
  | completionAmbiguity completion =>
    exact (observe_serves h completion DispatchRecordLocal.ambiguity).map
  | resetGeneration environment identity => nomatch hcall
  | cancelCompletion completion => exact (cancelCompletion_serves h completion).map
  | markCompletionAmbiguous environment completion =>
    exact (transitionToAmbiguous_serves h environment completion _).map
  | observeCompletionTimeout environment completion =>
    exact (transitionToAmbiguous_serves h environment completion _).map
  | quiesceQueue queue => exact (quiesceQueue_serves h queue).map
  | settleAmbiguousCompletion completion =>
    exact (settleAmbiguousCompletion_serves h completion).map

/-- A reset leaves everything as it is, or starts a generation under another identity. -/
theorem meets_resetGeneration (environment : Environment) (identity : IdentityDigest) :
    Meets (resetGeneration environment identity)
      (fun _ next => identity ≠ runtime.config.runtimeIdentity ∧
        new { runtime.config with runtimeIdentity := identity } = .ok next)
      (fun _ next => next = runtime) False runtime := by
  unfold resetGeneration
  refine meets_bind_refuse (fun _ => rfl) fun hother => ?_
  refine meets_bind_lift (fun replacement hreplacement => ?_) fun _ _ => rfl
  refine meets_bind_lift (fun _ _ => ?_) fun _ _ => rfl
  refine meets_bind_refuse (fun _ => rfl) fun _ => ?_
  refine meets_bind_lift (fun _ _ => ?_) fun _ _ => rfl
  exact ⟨by simpa using hother, hreplacement⟩

/-- A reset changes nothing, or everything. -/
theorem meets_reset (hcall : call.resets = true) (hsame : I runtime)
    (hfresh : ∀ config, ConfigFits config → I (fresh config)) :
    Meets (perform call) (fun _ next => I next) (fun _ next => I next) False runtime := by
  cases call with
  | resetGeneration environment identity =>
    rw [perform, meets_map]
    refine (meets_resetGeneration environment identity).mono (fun _ next hnext => ?_)
      (fun _ next hnext => hnext ▸ hsame) False.elim
    obtain ⟨hconfig, rfl⟩ := new_eq_ok.mp hnext.2
    exact hfresh _ hconfig
  | _ => nomatch hcall

theorem perform_inv (h : runtime.Inv) (call : Call) :
    Meets (perform call) (fun _ next => next.Inv) (fun _ next => next.Inv)
      (2 ^ 64 ≤ runtime.nextOrdinal + 1) runtime := by
  cases hcall : call.resets with
  | false =>
    exact (perform_serves h call hcall).mono (fun _ _ hnext => hnext.1) (fun _ _ hnext => hnext.1)
      fun hpanic => hpanic
  | true =>
    exact (meets_reset hcall h fun _ => fresh_inv).mono (fun _ _ hnext => hnext)
      (fun _ _ hnext => hnext) False.elim

/-- A guarantee of all outcomes holds of the state after the call. -/
theorem state_of_meets {α : Type} {call : Action α} {P : Prop}
    (h : Meets call (fun _ next => I next) (fun _ next => I next) P runtime)
    (hnext : (call runtime).state? = some next) : I next := by
  unfold Meets at h
  cases houtcome : call runtime with
  | done value state | failed error state =>
    rw [houtcome] at h hnext
    exact Option.some.inj hnext ▸ h
  | panicked =>
    rw [houtcome] at hnext
    nomatch hnext

/-- Calls other than resets continue the generation. -/
theorem perform_kept (h : runtime.Inv) (hcall : call.resets = false)
    (hnext : (perform call runtime).state? = some next) : Kept (runtime.Wrote call) runtime next :=
  state_of_meets ((perform_serves h call hcall).mono (fun _ _ hkept => hkept)
    (fun _ _ hkept => hkept.mono fun _ _ => False.elim) fun hpanic => hpanic) hnext

theorem perform_reset (hcall : call.resets = true)
    (hnext : (perform call runtime).state? = some next) :
    next = runtime ∨ ∃ config, next = fresh config := by
  refine state_of_meets (I := fun next => next = runtime ∨ ∃ config, next = fresh config)
    (meets_reset hcall ?_ ?_) hnext
  · exact .inl rfl
  · exact fun config _ => .inr ⟨config, rfl⟩

theorem Inv.run {calls : List Call} (h : runtime.Inv) (hrun : runtime.run calls = some next) :
    next.Inv := by
  induction calls generalizing runtime with
  | nil => exact Option.some.inj hrun ▸ h
  | cons call calls ih =>
    obtain ⟨middle, hcall, hrest⟩ := Option.bind_eq_some_iff.mp hrun
    exact ih (state_of_meets (perform_inv h call) hcall) hrest

theorem Reachable.inv (h : Reachable runtime) : runtime.Inv := by
  induction h with
  | new hnew =>
    obtain ⟨hconfig, rfl⟩ := new_eq_ok.mp hnew
    exact fresh_inv hconfig
  | call _ hcall ih => exact state_of_meets (perform_inv ih _) hcall

/-! ### Agreement with the model -/

/-- What holds a buffer: prepared and ambiguous dispatches that name it. -/
def holdersOf (runtime : VirtualRuntime) (buffer : BufferRecord) : List DispatchRecordLocal :=
  runtime.dispatches.filter fun dispatch =>
    dispatch.state.unresolved && dispatch.names buffer.handle

/-- The runtime and its model say the same. -/
structure Agrees (runtime : VirtualRuntime) : Prop where
  dispatches : ∀ dispatch ∈ runtime.dispatches, ∃ record,
    lookup DispatchRecord.key dispatch.modelCompletion.dispatch runtime.model.dispatches =
      some record ∧ record.completion = dispatch.modelCompletion ∧
      record.state = dispatch.state.modelState
  retained : ∀ buffer ∈ runtime.buffers,
    buffer.retainedDispatches = (runtime.holdersOf buffer).length
  access : ∀ buffer ∈ runtime.buffers, ∀ call : Call, call.hostAccess? = some buffer.handle →
    (perform call runtime = .failed (.hostAccessWhileRetained buffer.handle.ordinal) runtime ↔
      runtime.holdersOf buffer ≠ []) ∧
    ((perform call runtime).succeeded = true ↔
      buffer.released = false ∧ runtime.holdersOf buffer = [] ∧ call.Within buffer)
  buffers : ∀ buffer ∈ runtime.buffers,
    (∃ record, lookup AllocationRecord.key buffer.allocation runtime.model.allocations =
      some record ∧ record.state = resourceState buffer.released) ∧
    ∃ record, lookup MappingRecord.key buffer.mapping runtime.model.mappings = some record ∧
      record.state = resourceState buffer.released
  modules : ∀ module ∈ runtime.modules, ∃ record,
    lookup LoadedCodeRecord.key module.code runtime.model.loadedCode = some record ∧
      record.state = resourceState module.released
  queues : ∀ queue ∈ runtime.queues, ∃ record,
    lookup RuntimeModel.QueueRecord.key queue.queue runtime.model.queues = some record ∧
      record.state = queue.modelState
  total : runtime.totalUserBytes =
    (runtime.liveBuffers.map fun buffer => buffer.bytes.length).sum

/-- Released buffers have no bytes, so only the others count. -/
theorem Inv.total_live (h : runtime.Inv) : runtime.totalUserBytes =
    (runtime.liveBuffers.map fun buffer => buffer.bytes.length).sum := by
  have hempty : ∀ buffer ∈ runtime.buffers, buffer.released = true → buffer.bytes.length = 0 :=
    fun buffer hmem => (h.coherent.contents buffer.outline (mem_map_of_mem hmem)).2
  rw [h.coherent.total, outlines, map_map, liveBuffers]
  generalize runtime.buffers = buffers at hempty
  induction buffers with
  | nil => rfl
  | cons buffer buffers ih =>
    have hrest := ih fun other hother => hempty other (mem_cons_of_mem _ hother)
    rw [map_cons, sum_cons, hrest]
    cases hreleased : buffer.released with
    | true =>
      rw [filter_cons_of_neg (by simp [hreleased])]
      have hzero := hempty buffer (mem_cons_self ..) hreleased
      simpa [BufferRecord.outline] using hzero
    | false =>
      rw [filter_cons_of_pos (by simp [hreleased]), map_cons, sum_cons]
      rfl

theorem Inv.retained_eq (h : runtime.Inv) (hbuffer : runtime.buffers[i]? = some buffer) :
    buffer.retainedDispatches = (runtime.holdersOf buffer).length := by
  have houtline : runtime.outlines[i]? = some buffer.outline :=
    getElem?_outlines.mpr ⟨buffer, hbuffer, rfl⟩
  rw [h.retained i buffer hbuffer, holders, holdersOf, countP_eq_length_filter]
  refine congrArg List.length (filter_congr fun dispatch hmem => congrArg _ ?_)
  have hnamed := (h.coherent.arguments dispatch hmem).named i buffer.outline houtline
  rw [Bool.eq_iff_iff, contains_iff_mem, names_eq_true]
  exact hnamed

/-- What a command of the host does with a buffer: it is done with a live one that no dispatch
    holds, and refused for retention exactly if a dispatch holds a live one. -/
def Accesses {α : Type} (x : Action α) (buffer : BufferRecord) (within : Prop)
    (runtime : VirtualRuntime) : Prop :=
  Meets x (fun _ _ => buffer.released = false ∧ buffer.retainedDispatches = 0 ∧ within)
    (fun error next => next = runtime ∧
      (error = .hostAccessWhileRetained buffer.handle.ordinal ↔
        buffer.released = false ∧ buffer.retainedDispatches ≠ 0) ∧
      ¬ (buffer.released = false ∧ buffer.retainedDispatches = 0 ∧ within)) False runtime

section

variable (h : runtime.Inv) (hbuffer : runtime.buffers[i]? = some buffer)
include h hbuffer

/-- What follows the look at the buffer has errors of its own. -/
theorem Inv.accesses_bind {α : Type} {rest : Nat → Action α} {within : Prop}
    (hrest : Meets (rest i) (fun _ _ => within) (fun error next => next = runtime ∧
      error ≠ .hostAccessWhileRetained buffer.handle.ordinal ∧ ¬ within) False runtime) :
    Accesses (hostAccessibleBufferIndex buffer.handle >>= rest) buffer within runtime := by
  unfold Accesses hostAccessibleBufferIndex
  rw [meets_bind, meets_bind, meets_read, h.bufferIndex_eq hbuffer, meets_bind, meets_lift_ok,
    meets_bind, meets_recordAt hbuffer]
  refine meets_bind_refuse (fun hreleased => ⟨rfl, by simp [hreleased]⟩) fun hlive => ?_
  refine meets_bind_refuse (fun hheld => ?_) fun hfree => ?_
  · rw [bne_iff_ne] at hheld
    exact ⟨rfl, by simp [hlive, hheld]⟩
  · rw [bne_eq_false_iff_eq] at hfree
    refine hrest.mono (fun _ _ hwithin => ⟨hlive, hfree, hwithin⟩) (fun _ _ hother => ?_) id
    exact ⟨hother.1, by simp [hother.2, hfree]⟩

theorem Inv.accesses_writeFromHost (offset : Nat) (source : List UInt8)
    (initialized : List Bool) :
    Accesses (writeFromHost buffer.handle offset source initialized) buffer
      (offset + source.length ≤ min buffer.bytes.length (2 ^ 64 - 1)) runtime := by
  refine h.accesses_bind hbuffer (h.meets_hostRange hbuffer (fun hfits => ?_) fun hpast => ?_)
  · exact hfits
  · exact ⟨rfl, by simp, hpast⟩

theorem Inv.accesses (hcall : call.hostAccess? = some buffer.handle) :
    Accesses (perform call) buffer (call.Within buffer) runtime := by
  cases call with
  | copyFromHost _ offset source =>
    cases hcall
    exact meets_map.mpr (h.accesses_writeFromHost hbuffer offset source _)
  | copyFromHostWithInitialization handle offset source initialized =>
    simp only [Call.hostAccess?, Option.ite_none_right_eq_some, Option.some.injEq] at hcall
    rcases hcall with ⟨hlength, rfl⟩
    rw [perform, copyFromHostWithInitialization, hlength, bne_self_eq_false]
    exact meets_map.mpr (h.accesses_writeFromHost hbuffer offset source initialized)
  | copyToHost _ offset length =>
    cases hcall
    refine meets_map.mpr (h.accesses_bind hbuffer (h.meets_hostRange hbuffer (fun hfits => ?_)
      fun hpast => ⟨rfl, by simp, mt And.left hpast⟩))
    have hscan := @findIdx?_uninitialized buffer.initialized offset length
      (by rw [h.lengths (mem_of_getElem? hbuffer)]; omega)
    split
    case h_1 relative hfound =>
      refine ⟨rfl, by simp, fun hwithin => ?_⟩
      cases hfound.symm.trans (hscan.mpr hwithin.2)
    case h_2 hnone => exact ⟨hfits, hscan.mp hnone⟩
  | bufferSnapshot =>
    cases hcall
    refine meets_map.mpr (h.accesses_bind hbuffer ?_)
    rw [meets_bind, meets_recordAt hbuffer]
    trivial
  | _ => cases hcall

/-- A dispatch holds only what is not released. -/
theorem Inv.holders_ne_nil_iff :
    runtime.holdersOf buffer ≠ [] ↔ buffer.released = false ∧ buffer.retainedDispatches ≠ 0 := by
  rw [h.retained_eq hbuffer, Ne, ← length_eq_zero_iff]
  refine ⟨fun hheld => ⟨?_, hheld⟩, And.right⟩
  rcases exists_mem_of_length_pos (Nat.pos_of_ne_zero hheld) with ⟨dispatch, hdispatch⟩
  rcases mem_filter.mp hdispatch with ⟨hdispatch, hholds⟩
  rcases Bool.and_eq_true_iff.mp hholds with ⟨hunresolved, hnames⟩
  have houtline : runtime.outlines[i]? = some buffer.outline :=
    getElem?_outlines.mpr ⟨buffer, hbuffer, rfl⟩
  have hretains := ((h.coherent.arguments dispatch hdispatch).named i buffer.outline houtline).mpr
    (names_eq_true.mp hnames)
  rcases h.held hdispatch hunresolved hretains with ⟨held, hheld, hlive, -⟩
  cases hbuffer.symm.trans hheld
  exact hlive

end

theorem Inv.agrees (h : runtime.Inv) : runtime.Agrees where
  dispatches := by
    intro dispatch hmem
    obtain ⟨record, hfound, hfits⟩ := h.coherent.dispatchesFit.found dispatch hmem
    exact ⟨record, hfound, hfits.completion, hfits.state⟩
  retained := by
    intro buffer hmem
    obtain ⟨i, hbuffer⟩ := getElem?_of_mem hmem
    exact h.retained_eq hbuffer
  access := by
    intro buffer hmem call hcall
    rcases getElem?_of_mem hmem with ⟨i, hbuffer⟩
    have hheld := h.holders_ne_nil_iff hbuffer
    have hfree : runtime.holdersOf buffer = [] ↔ buffer.retainedDispatches = 0 := by
      rw [h.retained_eq hbuffer, length_eq_zero_iff]
    rw [hheld, hfree]
    rcases (h.accesses hbuffer hcall).outcomes with ⟨_, _, hdone, hall⟩ |
      ⟨error, _, hfailed, rfl, herror, hnot⟩ | ⟨_, hfalse⟩
    · simp [hdone, hall, Outcome.succeeded]
    · simp [hfailed, herror, hnot, Outcome.succeeded]
    · exact hfalse.elim
  buffers := by
    intro buffer hmem
    have hholding : buffer.outline.holding ∈ holdingsOf runtime.outlines runtime.modules
        runtime.queues :=
      mem_append_left _ (mem_append_left _
        (mem_map_of_mem (mem_map_of_mem hmem)))
    exact ⟨h.coherent.holdings.allocated.found _ hholding,
      h.coherent.holdings.mapped.found _ hholding⟩
  modules := by
    intro module hmem
    obtain ⟨record, hfound, hfits⟩ := h.coherent.modulesFit.found module hmem
    exact ⟨record, hfound, hfits.state⟩
  queues := by
    intro queue hmem
    obtain ⟨record, hfound, hfits⟩ := h.coherent.queuesFit.found queue hmem
    exact ⟨record, hfound, hfits.state⟩
  total := h.total_live

/-- After any calls the runtime agrees with its model, and while an ordinal is left no
    further call panics. -/
theorem reachable_agrees (h : Reachable runtime) :
    runtime.Agrees ∧
      (runtime.nextOrdinal + 1 < 2 ^ 64 → ∀ call, perform call runtime ≠ .panicked) := by
  refine ⟨h.inv.agrees, fun hleft call => ?_⟩
  exact (perform_inv h.inv call).not_panicked (Nat.not_le.mpr hleft)

/-- The default limits under an identity. -/
def sampleConfig (identity : IdentityDigest) : VirtualRuntimeConfig where
  runtimeIdentity := identity
  target := .amdgpu64TargetNeutral
  runtimeLimits := .default
  simulationLimits := .default

/-- An environment in which every reservation succeeds and no simulation does. -/
def bareEnvironment : Environment where
  reserves := fun _ => true
  storage := ⟨0, 0, 0, 0, 0, 0⟩
  simulate := fun _ _ _ _ _ => .error ⟨"unsupported"⟩

/-- The state that calls lead to from a new runtime, if none of them panics. -/
def after (config : VirtualRuntimeConfig) (calls : List Call) : VirtualRuntime :=
  ((fresh config).run calls).getD (fresh config)

theorem run_eq_after (hcalls : ((fresh config).run calls).isSome = true) :
    (fresh config).run calls = some (after config calls) := by
  obtain ⟨last, hlast⟩ := Option.isSome_iff_exists.mp hcalls
  unfold after
  rw [hlast]
  rfl

theorem reachable_after (hconfig : ConfigFits config)
    (hcalls : ((fresh config).run calls).isSome = true) : Reachable (after config calls) :=
  .run (.new (new_eq_ok.mpr ⟨hconfig, rfl⟩)) (run_eq_after hcalls)

/-- A request without arguments. -/
def plainRequest (dependencies : List VirtualCompletionHandle) : VirtualDispatchRequest where
  kernel := "kernel"
  grid := ⟨1, 1, 1⟩
  workgroup := ⟨1, 1, 1⟩
  arguments := []
  dependencies := dependencies

def sampleModule : AdmittedModule := ⟨⟨1, 7, 16⟩, []⟩

/-- A view of the one byte of the third object of the runtime. -/
def byteView : BufferView := ⟨⟨1, 3⟩, .u8, .readWrite, 1, 0, 1⟩

def byteRequest : VirtualDispatchRequest := { plainRequest [] with arguments := [.buffer byteView] }

/-- A dispatch that may write the byte. -/
def oneWriter : List Call :=
  [.createQueue 2, .registerModule sampleModule, .allocateBuffer bareEnvironment 1 .readWrite,
    .submit bareEnvironment ⟨1, 1⟩ ⟨1, 2⟩ byteRequest]

/-- The dispatch holds the byte, and no call of the host reaches it. -/
theorem reachable_agrees_held : let runtime := after (sampleConfig 1) oneWriter
    runtime.Agrees ∧ (∀ call, perform call runtime ≠ .panicked) ∧
      (∃ buffer ∈ runtime.buffers, buffer.handle = ⟨1, 3⟩ ∧ runtime.holdersOf buffer ≠ []) ∧
      ∀ call : Call, call.hostAccess? = some ⟨1, 3⟩ →
        perform call runtime = .failed (.hostAccessWhileRetained 3) runtime := by
  intro runtime
  have hreachable : Reachable runtime := reachable_after ⟨by decide, rfl, rfl⟩ (by decide +kernel)
  rcases reachable_agrees hreachable with ⟨hagrees, hpanics⟩
  have hheld : ∃ buffer ∈ runtime.buffers, buffer.handle = ⟨1, 3⟩ ∧
      runtime.holdersOf buffer ≠ [] := by
    decide +kernel
  refine ⟨hagrees, hpanics (by decide +kernel), hheld, fun call hcall => ?_⟩
  rcases hheld with ⟨buffer, hmem, hhandle, hheld⟩
  rw [← hhandle] at hcall
  have hrefused := (hagrees.access buffer hmem call hcall).1.mpr hheld
  rwa [hhandle] at hrefused

/-! ### Running out of ordinals -/

/-- A configuration without a bound on the bytes of buffers. -/
def wideConfig : VirtualRuntimeConfig :=
  { sampleConfig 1 with
    runtimeLimits := { VirtualRuntimeLimits.default with maxTotalUserBytes := 2 ^ 64 - 1 } }

theorem wideConfig_fits : ConfigFits wideConfig := ⟨by decide, rfl, rfl⟩

/-- A request for a buffer that no address range can hold. -/
def hugeBuffer : Call := .allocateBuffer bareEnvironment (2 ^ 64 - 1) .readWrite

/-- A runtime in which only ordinals were used. -/
def spent (n : Nat) : VirtualRuntime := { fresh wideConfig with nextOrdinal := n }

/-- The request fails after it has taken an ordinal. -/
theorem hugeBuffer_outcome (n : Nat) :
    (n + 1 < 2 ^ 64 ∧ ∃ error, perform hugeBuffer (spent n) = .failed error (spent (n + 1))) ∨
      2 ^ 64 ≤ n + 1 ∧ perform hugeBuffer (spent n) = .panicked := by
  have hwayout : ∀ {x : Outcome VirtualRuntime VirtualRuntimeError Reply},
      ((∃ reply next, x = .done reply next ∧ False) ∨
        (∃ error next, x = .failed error next ∧ n + 1 < 2 ^ 64 ∧ next = spent (n + 1)) ∨
        x = .panicked ∧ 2 ^ 64 ≤ n + 1) →
      (n + 1 < 2 ^ 64 ∧ ∃ error, x = .failed error (spent (n + 1))) ∨
        2 ^ 64 ≤ n + 1 ∧ x = .panicked := by
    rintro x (⟨_, _, _, hfalse⟩ | ⟨error, next, hx, hlt, rfl⟩ | ⟨hx, hpanic⟩)
    · exact hfalse.elim
    · exact .inl ⟨hlt, error, hx⟩
    · exact .inr ⟨hpanic, hx⟩
  refine hwayout (Meets.outcomes ?_)
  have hfits : checkedAdd (spent n).totalUserBytes (2 ^ 64 - 1) = some (2 ^ 64 - 1) :=
    checkedAdd_eq_some.mpr ⟨Nat.zero_add _, by decide⟩
  have hoverflows : checkedAdd firstSyntheticVa (2 ^ 64 - 1) = none :=
    checkedAdd_eq_none.mpr (by unfold firstSyntheticVa; omega)
  unfold hugeBuffer
  rw [perform, meets_map]
  unfold allocateBuffer
  rw [meets_bind, meets_read, meets_bind, meets_refuse]
  refine ⟨nofun, fun _ => ?_⟩
  rw [meets_bind, meets_refuse]
  refine ⟨nofun, fun _ => ?_⟩
  rw [meets_bind, hfits, meets_lift]
  refine ⟨fun total htotal => ?_, fun error herror => (nomatch herror)⟩
  cases htotal
  rw [meets_bind, meets_refuse]
  refine ⟨nofun, fun _ => ?_⟩
  rw [meets_bind]
  refine meets_newHandle (fun hlt => ?_) fun hpanic => hpanic
  rw [meets_bind, meets_read, meets_bind, meets_lift]
  refine ⟨fun provision hprovision => ?_, fun _ _ => ⟨hlt, rfl⟩⟩
  obtain ⟨stop, hstop, -⟩ := bind_eq_ok.mp hprovision
  nomatch hoverflows.symm.trans (okOr_eq_ok.mp hstop)

theorem run_hugeBuffers (k n : Nat) (h : n + k < 2 ^ 64) :
    (spent n).run (List.replicate k hugeBuffer) = some (spent (n + k)) := by
  induction k generalizing n with
  | zero => rfl
  | succ k ih =>
    obtain ⟨-, error, hcall⟩ | ⟨hpanic, -⟩ := hugeBuffer_outcome n
    · rw [replicate_succ, run, hcall]
      show (spent (n + 1)).run (List.replicate k hugeBuffer) = _
      rw [ih (n + 1) (by omega), Nat.add_right_comm]
      rfl
    · omega

/-- Rejected calls use up the ordinals; the next handle then panics. -/
theorem rejected_calls_exhaust_ordinals :
    new wideConfig = .ok (fresh wideConfig) ∧
      (fresh wideConfig).run (List.replicate (2 ^ 64 - 2) hugeBuffer) = some (spent (2 ^ 64 - 1)) ∧
      perform hugeBuffer (spent (2 ^ 64 - 1)) = .panicked := by
  refine ⟨new_eq_ok.mpr ⟨wideConfig_fits, rfl⟩, run_hugeBuffers (2 ^ 64 - 2) 1 (by decide), ?_⟩
  obtain ⟨hlt, -⟩ | ⟨-, hpanic⟩ := hugeBuffer_outcome (2 ^ 64 - 1)
  · omega
  · exact hpanic

end VirtualRuntime

end Fe2o3.Virtual
