import Fe2o3.Virtual.Coherence

/-!
**Which transitions the model accepts** from a coherent pair of tables, and where the
accepted ones lead.
-/

namespace Fe2o3.Virtual

open Lib KernelIr RuntimeModel RuntimeState List

/-- The model accepts the transitions one after the other. -/
def Accepts (model : RuntimeState) (transitions : List RuntimeTransition) (next : RuntimeState) :
    Prop :=
  transitions.foldlM RuntimeState.apply model = .ok next

variable {mapping : MappingKey} {queue : QueueRecord} {transition : RuntimeTransition}

section

variable {config : VirtualRuntimeConfig} {model next : RuntimeState} {vm : VmKey}
  {nextOrdinal nextAllocationId total : Nat} {buffers : List Outline}
  {modules : List ModuleRecord} {queues : List QueueRecord}
  {dispatches : List DispatchRecordLocal} {dispatch : DispatchRecordLocal}

variable {transitions : List RuntimeTransition}

theorem nextEach_eq_foldlM (h : model.Valid) :
    VirtualRuntime.nextEach model transitions = transitions.foldlM RuntimeState.apply model := by
  unfold VirtualRuntime.nextEach
  induction transitions generalizing model with
  | nil => rfl
  | cons transition transitions ih =>
    rw [foldlM_cons, foldlM_cons, h.next_eq_apply]
    cases happly : model.apply transition with
    | error error => rfl
    | ok next => exact ih (h.apply happly)

theorem fromModel_eq_ok {result : Except TransitionError RuntimeState} :
    VirtualRuntime.fromModel result = .ok next ↔ result = .ok next :=
  mapError_eq_ok

theorem accepts_nil : Accepts model [] next ↔ model = next := by
  constructor
  · intro h
    exact Except.ok.inj h
  · rintro rfl
    rfl

theorem accepts_cons :
    Accepts model (transition :: transitions) next ↔
      ∃ middle, model.apply transition = .ok middle ∧ Accepts middle transitions next := by
  unfold Accepts
  exact bind_eq_ok

theorem accepts_one : Accepts model [transition] next ↔ model.apply transition = .ok next := by
  rw [accepts_cons]
  constructor
  · rintro ⟨middle, happly, hrest⟩
    rw [← accepts_nil.mp hrest]
    exact happly
  · intro happly
    exact ⟨next, happly, accepts_nil.mpr rfl⟩

theorem accepts_append {first second : List RuntimeTransition} :
    Accepts model (first ++ second) next ↔
      ∃ middle, Accepts model first middle ∧ Accepts middle second next := by
  unfold Accepts
  rw [foldlM_append]
  exact bind_eq_ok

theorem Accepts.valid (h : Accepts model transitions next) (hvalid : model.Valid) : next.Valid :=
  hvalid.foldlM_apply h

/-! ### Where accepted transitions lead -/

variable {allocation : AllocationKey}

theorem accepts_releaseBuffer
    (h : Accepts model [.unmap mapping, .releaseAllocation allocation] next) :
    next = (model.setMapping mapping .released).setAllocation allocation .released := by
  obtain ⟨middle, hunmap, hrelease⟩ := accepts_cons.mp h
  obtain ⟨-, -, -, -, rfl⟩ := unmap_eq_ok.mp hunmap
  obtain ⟨-, -, rfl⟩ := releaseAllocation_eq_ok.mp (accepts_one.mp hrelease)
  rfl

theorem accepts_releaseModule {code : LoadedCodeKey}
    (h : Accepts model [.unloadCode code, .unmap mapping, .releaseAllocation allocation] next) :
    next = ((model.setCode code .released).setMapping mapping .released).setAllocation allocation
      .released := by
  obtain ⟨middle, hunload, hrelease⟩ := accepts_cons.mp h
  obtain ⟨-, -, rfl⟩ := unloadCode_eq_ok.mp hunload
  exact accepts_releaseBuffer hrelease

theorem accepts_releaseQueue {queue : QueueKey}
    (h : Accepts model [.releaseQueue queue, .unmap mapping, .releaseAllocation allocation] next) :
    (∀ dispatch ∈ model.dispatches, dispatch.key.queue = queue →
      dispatch.state.retainsResources = false) ∧
    next = ((model.setQueue queue .released).setMapping mapping .released).setAllocation allocation
      .released := by
  obtain ⟨middle, hqueue, hrelease⟩ := accepts_cons.mp h
  obtain ⟨-, hidle, rfl⟩ := releaseQueue_eq_ok.mp hqueue
  exact ⟨hidle, accepts_releaseBuffer hrelease⟩

theorem accepts_quiesceQueue {queue : QueueKey}
    (h : Accepts model [.beginQueueFailure queue, .establishQueueQuiescence queue] next) :
    next = model.setQueue queue .quiescent := by
  obtain ⟨middle, hbegin, hestablish⟩ := accepts_cons.mp h
  obtain ⟨-, rfl⟩ := moveQueue_eq_ok.mp hbegin
  obtain ⟨-, rfl⟩ := moveQueue_eq_ok.mp (accepts_one.mp hestablish)
  refine congrArg (fun queues => { model with queues := queues }) ?_
  exact amend_amend fun _ => rfl

/-- Two moves of one dispatch, its completion left alone by the first. -/
theorem setDispatch_setDispatch {key : DispatchKey} {first second : DispatchState} :
    (model.setDispatch key first).setDispatch key second = model.setDispatch key second := by
  refine congrArg (fun dispatches => { model with dispatches := dispatches }) ?_
  exact amend_amend fun _ => rfl

variable {completion : CompletionKey}

theorem accepts_abort (hvalid : model.Valid) (h : Accepts model [.abortPrepared completion] next) :
    Moves model completion .abortedBeforePublication next := by
  refine ⟨h.valid hvalid, ?_⟩
  obtain ⟨-, rfl⟩ := transitionDispatch_eq_ok.mp (accepts_one.mp h)
  exact ⟨_, rfl⟩

theorem accepts_settle (hvalid : model.Valid)
    (h : Accepts model [.settleAfterQuiescence completion] next) :
    Moves model completion .failedQuiescent next := by
  refine ⟨h.valid hvalid, ?_⟩
  obtain ⟨-, -, rfl⟩ := settleAfterQuiescence_eq_ok.mp (accepts_one.mp h)
  exact ⟨_, rfl⟩

theorem accepts_ambiguous (hvalid : model.Valid)
    (h : Accepts model [.publishDispatch completion, .markDispatchAmbiguous completion] next) :
    Moves model completion .ambiguous next := by
  refine ⟨h.valid hvalid, ?_⟩
  obtain ⟨middle, hpublish, hmark⟩ := accepts_cons.mp h
  obtain ⟨-, -, rfl⟩ := publishDispatch_eq_ok.mp hpublish
  obtain ⟨-, rfl⟩ := transitionDispatch_eq_ok.mp (accepts_one.mp hmark)
  rw [setDispatch_setDispatch]
  exact ⟨_, rfl⟩

theorem accepts_observe (hvalid : model.Valid)
    (h : Accepts model [.publishDispatch completion, .observeCompletion completion] next) :
    Moves model completion .completed next := by
  refine ⟨h.valid hvalid, ?_⟩
  obtain ⟨middle, hpublish, hobserve⟩ := accepts_cons.mp h
  obtain ⟨-, -, rfl⟩ := publishDispatch_eq_ok.mp hpublish
  obtain ⟨-, -, rfl⟩ := observeCompletion_eq_ok.mp (accepts_one.mp hobserve)
  rw [setDispatch_setDispatch]
  exact ⟨_, rfl⟩

/-! ### Which transitions are accepted -/

/-- The allocation and the mapping of a live holding that nothing uses can be released. -/
theorem accepts_releaseHolding {holdings : List Holding} (holding : Holding) (hvalid : model.Valid)
    (hfit : HoldingsFit vm nextAllocationId model.allocations model.mappings holdings)
    (hmem : holding ∈ holdings) (hlive : holding.state = .live)
    (hcode : ∀ code ∈ model.loadedCode, code.executableMapping = holding.mapping →
      code.state ≠ .live)
    (hqueue : ∀ queue ∈ model.queues, queue.ringMapping = holding.mapping →
      queue.state = .released)
    (hdispatch : ∀ dispatch ∈ model.dispatches, dispatch.state.retainsResources = true →
      ∀ resource ∈ dispatch.resources, resource.mapping ≠ holding.mapping) :
    ∃ next, Accepts model [.unmap holding.mapping, .releaseAllocation holding.allocation] next := by
  obtain ⟨mapping, hmapping, hmapped⟩ := hfit.mapped.found holding hmem
  obtain ⟨allocation, hallocation, hallocated⟩ := hfit.allocated.found holding hmem
  refine ⟨_, accepts_cons.mpr ⟨_, unmap_eq_ok.mpr ⟨⟨mapping, hmapping, hmapped.trans hlive⟩, hcode,
    hqueue, hdispatch, rfl⟩, accepts_one.mpr (releaseAllocation_eq_ok.mpr
      ⟨⟨allocation, hallocation, hallocated.trans hlive⟩, ?_, rfl⟩)⟩⟩
  intro other hother hkey hstate
  obtain ⟨hold, hne⟩ | ⟨old, -, rfl⟩ := mem_amend hvalid.mappingKeys hother
  · exact hne (hfit.mapping_of_allocation hmem hold hkey)
  · exact nomatch hstate

namespace Coherent

variable (h : Coherent config model vm nextOrdinal nextAllocationId total buffers modules queues
  dispatches)
include h

/-- A prepared dispatch can be aborted. -/
theorem accepts_abort (hmem : dispatch ∈ dispatches) (hstate : dispatch.state = .prepared) :
    ∃ next, Accepts model [.abortPrepared dispatch.modelCompletion] next := by
  obtain ⟨completion, hmatches, hawaits⟩ := h.awaits hmem
  rw [hstate] at hmatches hawaits
  have harmed : completion = .armed := by
    cases completion <;> first | rfl | exact nomatch hmatches
  subst harmed
  exact ⟨_, accepts_one.mpr (transitionDispatch_eq_ok.mpr ⟨hawaits, rfl⟩)⟩

/-- An unresolved dispatch keeps its queue from being released. -/
theorem queue_live (hmem : dispatch ∈ dispatches)
    (hunresolved : dispatch.state.unresolved = true) :
    ∃ queue ∈ queues, queue.handle = dispatch.queue ∧
      queue.queue = dispatch.modelCompletion.dispatch.queue ∧ queue.released = false := by
  obtain ⟨record, hrecord, hfits⟩ := h.dispatchesFit.found dispatch hmem
  obtain ⟨queue, hqueue, hhandle, hkey⟩ := hfits.queue
  refine ⟨queue, hqueue, hhandle, hkey, ?_⟩
  obtain ⟨found, hfound, hqueueFits⟩ := h.queuesFit.found queue hqueue
  obtain ⟨kept, code, completion, hvalid⟩ := h.valid.dispatches record (lookup_mem hrecord)
  have hretains : record.state.retainsResources = true := by
    rw [hfits.state, retainsResources_modelState]
    exact hunresolved
  have hkept := hvalid.queueKept hretains
  have hkeptFound := hvalid.queueFound
  rw [lookup_key hrecord, ← hkey] at hkeptFound
  cases hfound.symm.trans hkeptFound
  rw [hqueueFits.state] at hkept
  cases hreleased : queue.released with
  | false => rfl
  | true =>
    rw [QueueRecord.modelState, hreleased] at hkept
    exact absurd rfl hkept

/-- An ambiguous dispatch of a quiescent queue can be settled. -/
theorem accepts_settle (hmem : dispatch ∈ dispatches) (hstate : dispatch.state = .ambiguous)
    (hqueue : queue ∈ queues) (hsame : queue.handle = dispatch.queue)
    (hquiescent : queue.quiescent = true) :
    ∃ next, Accepts model [.settleAfterQuiescence dispatch.modelCompletion] next := by
  obtain ⟨completion, hmatches, hawaits⟩ := h.awaits hmem
  rw [hstate] at hmatches hawaits
  have hambiguous : completion = .ambiguous := by
    cases completion <;> first | rfl | exact nomatch hmatches
  subst hambiguous
  -- The queue of an unresolved dispatch is not released, so the model has it quiescent.
  obtain ⟨other, hother, hhandle, hkey, hlive⟩ := h.queue_live hmem (by rw [hstate]; rfl)
  obtain rfl := eq_of_same_key h.handles.queues.distinct hother hqueue (hhandle.trans hsame.symm)
  obtain ⟨found, hfound, hfits⟩ := h.queuesFit.found other hother
  have hrest : found.state = .quiescent := by
    simp [hfits.state, QueueRecord.modelState, hlive, hquiescent]
  refine ⟨_, accepts_one.mpr (settleAfterQuiescence_eq_ok.mpr ⟨hawaits,
    ⟨found, ?_, .inl hrest⟩, rfl⟩)⟩
  rw [← hkey]
  exact hfound

/-- A live queue can be brought to rest. -/
theorem accepts_quiesceQueue (hqueue : queue ∈ queues) (hreleased : queue.released = false)
    (hquiescent : queue.quiescent = false) :
    ∃ next, Accepts model
      [.beginQueueFailure queue.queue, .establishQueueQuiescence queue.queue] next := by
  obtain ⟨record, hfound, hfits⟩ := h.queuesFit.found queue hqueue
  have hready : record.state = .ready := by
    simp [hfits.state, QueueRecord.modelState, hreleased, hquiescent]
  refine ⟨_, accepts_cons.mpr ⟨_, moveQueue_eq_ok.mpr ⟨⟨record, hfound, hready⟩, rfl⟩,
    accepts_one.mpr (moveQueue_eq_ok.mpr ⟨⟨{ record with state := .mayStillAccess }, ?_, rfl⟩,
      rfl⟩)⟩⟩
  exact lookup_amend_self (fun _ => rfl) hfound

/-! #### Releases -/

/-- No two records share a mapping, within a table or across tables. -/
theorem mappings_apart : DistinctKeys Outline.mapping buffers ∧
    DistinctKeys ModuleRecord.mapping modules ∧ DistinctKeys QueueRecord.mapping queues ∧
    (∀ buffer ∈ buffers, ∀ module ∈ modules, buffer.mapping ≠ module.mapping) ∧
    (∀ buffer ∈ buffers, ∀ queue ∈ queues, buffer.mapping ≠ queue.mapping) ∧
    ∀ module ∈ modules, ∀ queue ∈ queues, module.mapping ≠ queue.mapping := by
  have hdistinct : DistinctKeys Holding.mapping (holdingsOf buffers modules queues) := by
    refine h.holdings.distinct.imp_of_mem fun hleft hright hne hmapping => hne ?_
    have hkey := congrArg MappingKey.allocation hmapping
    rwa [(h.holdings.shape _ hleft).2.2, (h.holdings.shape _ hright).2.2] at hkey
  obtain ⟨hfirst, hqueues, hcross⟩ := pairwise_append.mp hdistinct
  obtain ⟨hbuffers, hmodules, hcross'⟩ := pairwise_append.mp hfirst
  rw [pairwise_map] at hbuffers hmodules hqueues
  refine ⟨hbuffers, hmodules, hqueues, ?_, ?_, ?_⟩
  · intro buffer hleft module hright
    exact hcross' buffer.holding (mem_map_of_mem hleft) module.holding
      (mem_map_of_mem hright)
  · intro buffer hleft queue hright
    exact hcross buffer.holding (mem_append_left _ (mem_map_of_mem hleft)) queue.holding
      (mem_map_of_mem hright)
  · intro module hleft queue hright
    exact hcross module.holding (mem_append_right _ (mem_map_of_mem hleft)) queue.holding
      (mem_map_of_mem hright)

/-- Dispatches use the mappings of buffers only. -/
theorem resource_ne {key : MappingKey} (hapart : ∀ buffer ∈ buffers, buffer.mapping ≠ key) :
    ∀ record ∈ model.dispatches, record.state.retainsResources = true →
      ∀ resource ∈ record.resources, resource.mapping ≠ key := by
  intro record hrecord _ resource hresource hmapping
  obtain ⟨dispatch, hdispatch, -, hfits⟩ := h.dispatchesFit.fits h.valid.dispatchKeys hrecord
  obtain ⟨index, -, other, hother, hsame⟩ := hfits.resources resource hresource
  exact hapart other (mem_of_getElem? hother) (hsame.trans hmapping)

/-- A live buffer that no unresolved dispatch holds can be released. -/
theorem accepts_releaseBuffer {i : Nat} {buffer : Outline}
    (hbuffer : buffers[i]? = some buffer) (hreleased : buffer.released = false)
    (hidle : ∀ dispatch ∈ dispatches, dispatch.state.unresolved = true →
      i ∉ dispatch.retainedBuffers) :
    ∃ next, Accepts model [.unmap buffer.mapping, .releaseAllocation buffer.allocation] next := by
  obtain ⟨hbuffers, -, -, hmodules, hqueues, -⟩ := h.mappings_apart
  have hmem := mem_of_getElem? hbuffer
  refine accepts_releaseHolding buffer.holding h.valid h.holdings
    (mem_append_left _ (mem_append_left _ (mem_map_of_mem hmem))) ?_ ?_ ?_ ?_
  · simp [Outline.holding, resourceState, hreleased]
  · intro code hcode hmapping
    obtain ⟨module, hmodule, -, hfits⟩ := h.modulesFit.fits h.valid.codeKeys hcode
    exact absurd (hmapping.symm.trans hfits.mapping) (hmodules buffer hmem module hmodule)
  · intro record hrecord hmapping
    obtain ⟨queue, hqueue, -, hfits⟩ := h.queuesFit.fits h.valid.queueKeys hrecord
    exact absurd (hmapping.symm.trans hfits.mapping) (hqueues buffer hmem queue hqueue)
  · intro record hrecord hretains resource hresource hmapping
    obtain ⟨dispatch, hdispatch, -, hfits⟩ := h.dispatchesFit.fits h.valid.dispatchKeys hrecord
    obtain ⟨index, hindex, other, hother, hsame⟩ := hfits.resources resource hresource
    have hposition := position_unique hbuffers hother hbuffer (hsame.trans hmapping)
    subst hposition
    refine hidle dispatch hdispatch ?_ hindex
    rw [← retainsResources_modelState, ← hfits.state]
    exact hretains

/-- A live module that no unresolved dispatch uses can be released. -/
theorem accepts_releaseModule {module : ModuleRecord} (hmem : module ∈ modules)
    (hreleased : module.released = false)
    (hidle : ∀ dispatch ∈ dispatches, dispatch.state.unresolved = true →
      dispatch.module ≠ module.handle) :
    ∃ next, Accepts model [.unloadCode module.code, .unmap module.mapping,
      .releaseAllocation module.allocation] next := by
  obtain ⟨-, hmodules, -, hbuffers, -, hqueues⟩ := h.mappings_apart
  obtain ⟨code, hcode, hfits⟩ := h.modulesFit.found module hmem
  have hlive : code.state = .live := by
    simp [hfits.state, resourceState, hreleased]
  have hunload : model.apply (.unloadCode module.code) =
      .ok (model.setCode module.code .released) := by
    refine unloadCode_eq_ok.mpr ⟨⟨code, hcode, hlive⟩, fun record hrecord hused => ?_, rfl⟩
    obtain ⟨dispatch, hdispatch, -, hfits⟩ := h.dispatchesFit.fits h.valid.dispatchKeys hrecord
    obtain ⟨owner, howner, hhandle, hsame⟩ := hfits.module
    have howned := eq_of_same_key h.codes_distinct howner hmem (hsame.trans hused)
    rw [hfits.state, retainsResources_modelState]
    by_contra hunresolved
    refine hidle dispatch hdispatch (by simpa using hunresolved) ?_
    rw [← hhandle, howned]
  obtain ⟨next, haccepts⟩ := accepts_releaseHolding module.holding
    (h.valid.apply hunload) h.holdings
    (mem_append_left _ (mem_append_right _ (mem_map_of_mem hmem)))
    (by simp [ModuleRecord.holding, resourceState, hreleased])
    (by
      intro record hrecord hmapping hrecordLive
      obtain ⟨hold, hne⟩ | ⟨old, -, rfl⟩ := mem_amend h.valid.codeKeys hrecord
      · obtain ⟨owner, howner, hkey, hfits⟩ := h.modulesFit.fits h.valid.codeKeys hold
        have hsame := eq_of_same_key hmodules howner hmem (hfits.mapping.symm.trans hmapping)
        rw [hsame] at hkey
        exact hne hkey.symm
      · exact nomatch hrecordLive)
    (by
      intro record hrecord hmapping
      obtain ⟨queue, hqueue, -, hfits⟩ := h.queuesFit.fits h.valid.queueKeys hrecord
      exact absurd (hmapping.symm.trans hfits.mapping) (hqueues module hmem queue hqueue))
    (h.resource_ne fun buffer hbuffer => hbuffers buffer hbuffer module hmem)
  exact ⟨next, accepts_cons.mpr ⟨_, hunload, haccepts⟩⟩

/-- A queue with no unresolved dispatch can be released. -/
theorem accepts_releaseQueue (hmem : queue ∈ queues) (hreleased : queue.released = false)
    (hidle : ∀ dispatch ∈ dispatches, dispatch.state.unresolved = true →
      dispatch.queue ≠ queue.handle) :
    ∃ next, Accepts model [.releaseQueue queue.queue, .unmap queue.mapping,
      .releaseAllocation queue.allocation] next := by
  obtain ⟨-, -, hqueues, -, hbuffers, hmodules⟩ := h.mappings_apart
  obtain ⟨found, hfound, hfits⟩ := h.queuesFit.found queue hmem
  have hlive : found.state ≠ .released ∧ found.state ≠ .mayStillAccess := by
    rw [hfits.state]
    unfold QueueRecord.modelState
    rw [hreleased]
    cases queue.quiescent <;> exact ⟨nofun, nofun⟩
  have hrelease : model.apply (.releaseQueue queue.queue) =
      .ok (model.setQueue queue.queue .released) := by
    refine releaseQueue_eq_ok.mpr ⟨⟨found, hfound, hlive.1, fun hmay => absurd hmay hlive.2⟩,
      fun record hrecord hused => ?_, rfl⟩
    obtain ⟨dispatch, hdispatch, hkey, hfits⟩ := h.dispatchesFit.fits h.valid.dispatchKeys hrecord
    obtain ⟨owner, howner, hhandle, hsame⟩ := hfits.queue
    have howned := eq_of_same_key h.queues_distinct howner hmem (by rw [hsame, hkey, hused])
    rw [hfits.state, retainsResources_modelState]
    by_contra hunresolved
    refine hidle dispatch hdispatch (by simpa using hunresolved) ?_
    rw [← hhandle, howned]
  obtain ⟨next, haccepts⟩ := accepts_releaseHolding queue.holding
    (h.valid.apply hrelease) h.holdings (mem_append_right _ (mem_map_of_mem hmem))
    (by simp [QueueRecord.holding, resourceState, hreleased])
    (by
      intro record hrecord hmapping
      obtain ⟨module, hmodule, -, hfits⟩ := h.modulesFit.fits h.valid.codeKeys hrecord
      exact absurd (hfits.mapping.symm.trans hmapping) (hmodules module hmodule queue hmem))
    (by
      intro record hrecord hmapping
      obtain ⟨hold, hne⟩ | ⟨old, -, rfl⟩ := mem_amend h.valid.queueKeys hrecord
      · obtain ⟨owner, howner, hkey, hfits⟩ := h.queuesFit.fits h.valid.queueKeys hold
        have hsame := eq_of_same_key hqueues howner hmem (hfits.mapping.symm.trans hmapping)
        rw [hsame] at hkey
        exact absurd hkey.symm hne
      · rfl)
    (h.resource_ne fun buffer hbuffer => hbuffers buffer hbuffer queue hmem)
  exact ⟨next, accepts_cons.mpr ⟨_, hrelease, haccepts⟩⟩

end Coherent

end

end Fe2o3.Virtual
