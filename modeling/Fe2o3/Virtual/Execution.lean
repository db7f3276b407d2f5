import Fe2o3.Virtual.Submission

/-!
# Executing a dispatch

The request for the simulator shows the held buffers as shared ones; the simulator's
stores come back into the same buffers.  Whatever the simulator answers, the dispatch
leaves the prepared state: it completes, or it is aborted with all contents as before.
-/

namespace Fe2o3.Virtual

open Lib KernelIr RuntimeModel Command List

/-! ### The stores of a simulation -/

/-- A store covers a byte of a backing. -/
def BackingWrite.Covers (write : BackingWrite) (backing p : Nat) : Prop :=
  write.backing = backing ∧ write.offset ≤ p ∧ p < write.offset + write.bytes.length

/-- The stores of an execution reach a byte of the buffer at a position. -/
def Execution.Hits (execution : Execution) (dispatch : DispatchRecordLocal) (j p : Nat) : Prop :=
  ∃ write ∈ execution.writes, ∃ backing, dispatch.retainedBuffers[backing]? = some j ∧
    write.Covers backing p

/-- What stores leave of a shared buffer. -/
structure Stored (writes : List BackingWrite) (before after : SharedBuffer) : Prop where
  id : after.id = before.id
  bytes : after.buffer.bytes.length = before.buffer.bytes.length
  length : after.buffer.initialized.length = before.buffer.initialized.length
  initialized : ∀ p, after.buffer.initialized[p]? = some true →
    before.buffer.initialized[p]? = some true ∨ ∃ write ∈ writes, write.Covers before.id p

theorem stored_touch (entry : SharedBuffer) (write : BackingWrite) :
    Stored [write] entry (write.touch entry) := by
  unfold BackingWrite.touch
  by_cases hid : entry.id = write.backing
  · rw [if_pos hid]
    refine ⟨rfl, VirtualRuntime.length_overwrite, VirtualRuntime.length_overwrite, fun p hp => ?_⟩
    obtain hp | ⟨hle, hp⟩ := VirtualRuntime.getElem?_overwrite hp
    · exact .inl hp
    · obtain ⟨hlt, -⟩ := List.getElem?_eq_some_iff.mp hp
      rw [length_map] at hlt
      exact .inr ⟨write, mem_singleton_self _, hid.symm, hle, by omega⟩
  · rw [if_neg hid]
    exact ⟨rfl, rfl, rfl, fun p hp => .inl hp⟩

theorem stored_foldl (writes : List BackingWrite) (entry : SharedBuffer) :
    Stored writes entry (writes.foldl (fun entry write => write.touch entry) entry) := by
  induction writes generalizing entry with
  | nil => exact ⟨rfl, rfl, rfl, fun p hp => .inl hp⟩
  | cons write writes ih =>
    have hfirst := stored_touch entry write
    have hrest := ih (write.touch entry)
    refine ⟨hrest.id.trans hfirst.id, hrest.bytes.trans hfirst.bytes,
      hrest.length.trans hfirst.length, fun p hp => ?_⟩
    obtain hp | ⟨later, hlater, hcovers⟩ := hrest.initialized p hp
    · obtain hp | ⟨first, hmem, hcovers⟩ := hfirst.initialized p hp
      · exact .inl hp
      · obtain rfl := mem_singleton.mp hmem
        exact .inr ⟨first, mem_cons_self .., hcovers⟩
    · exact .inr ⟨later, mem_cons_of_mem _ hlater, hfirst.id ▸ hcovers⟩

/-- The outputs of a simulation, one for each shared buffer. -/
theorem outputs_eq_map (execution : Execution) (shared : List SharedBuffer) :
    execution.outputs shared =
      shared.map (execution.writes.foldl fun entry write => write.touch entry) := by
  unfold Execution.outputs
  induction execution.writes generalizing shared with
  | nil => exact (map_id shared).symm
  | cons write writes ih =>
    rw [foldl_cons, ih]
    exact map_map

variable {request : VirtualDispatchRequest} {handles : List VirtualBufferHandle}
  {execution : Execution} {copybacks : List (VirtualBufferHandle × List UInt8 × List Bool)}

namespace VirtualRuntime

variable {runtime : VirtualRuntime} {wrote : Nat → Nat → Prop} {environment : Environment} {i : Nat}
  {dispatch : DispatchRecordLocal}

/-! ### The request -/

/-- The handle of the buffer at a position. -/
def HandleOf (runtime : VirtualRuntime) (index : Nat) (handle : VirtualBufferHandle) : Prop :=
  ∃ buffer, runtime.buffers[index]? = some buffer ∧ buffer.handle = handle

/-- The shared buffer of a position, with its backing id. -/
def SharedOf (runtime : VirtualRuntime) (backing : Nat × Nat) (shared : SharedBuffer) : Prop :=
  shared.id = backing.2 ∧ ∃ buffer, runtime.buffers[backing.1]? = some buffer ∧
    shared.buffer.bytes = buffer.bytes ∧ shared.buffer.initialized = buffer.initialized

theorem meets_collectHandles {indices : List Nat}
    (h : ∀ index ∈ indices, ∃ buffer, runtime.buffers[index]? = some buffer) :
    Meets (collectHandles indices)
      (fun handles next => next = runtime ∧ List.Forall₂ runtime.HandleOf indices handles)
      (fun _ _ => False) False runtime := by
  induction indices with
  | nil => exact ⟨rfl, .nil⟩
  | cons index indices ih =>
    obtain ⟨buffer, hbuffer⟩ := h index (mem_cons_self ..)
    rw [collectHandles, meets_bind, meets_recordAt hbuffer]
    refine (ih fun index hindex => h index (mem_cons_of_mem _ hindex)).bind ?_
    rintro handles _ ⟨rfl, hhandles⟩
    exact ⟨rfl, .cons ⟨buffer, hbuffer, rfl⟩ hhandles⟩

theorem newBufferArgument_eq_ok {element : ScalarType} {access : AccessMode} {alignment : Nat}
    {bytes : List UInt8} {initialized : List Bool} {buffer : BufferArgument}
    (h : newBufferArgument element access alignment bytes initialized = .ok buffer) :
    buffer.bytes = bytes ∧ buffer.initialized = initialized := by
  unfold newBufferArgument at h
  split at h
  · nomatch h
  · simp only [check_eq_ok, Except.ok.injEq] at h
    obtain ⟨-, -, -, rfl⟩ := h
    exact ⟨rfl, rfl⟩

theorem meets_shareBuffer {backing : Nat × Nat} {buffer : BufferRecord}
    (hbuffer : runtime.buffers[backing.1]? = some buffer)
    (hnamed : Mentions request.arguments buffer.handle) :
    Meets (shareBuffer environment request backing)
      (fun shared next => next = runtime ∧ runtime.SharedOf backing shared)
      (fun _ next => next = runtime) False runtime := by
  unfold shareBuffer
  rw [meets_bind, meets_recordAt hbuffer]
  cases hviews : (request.arguments.filterMap VirtualArgument.view?).filter
      (fun view => view.buffer == buffer.handle) with
  | nil =>
    obtain ⟨view, hview, hsame⟩ := hnamed
    exact absurd (beq_iff_eq.mpr hsame) (filter_eq_nil_iff.mp hviews view (mem_views.mpr hview))
  | cons first views =>
    refine meets_bind_lift (fun layout _ => ?_) fun _ _ => rfl
    refine meets_bind_refuse (fun _ => rfl) fun _ => ?_
    refine meets_bind_refuse (fun _ => rfl) fun _ => ?_
    refine meets_bind_lift (fun argument hargument => ?_) fun _ _ => rfl
    obtain ⟨hbytes, hinitialized⟩ := newBufferArgument_eq_ok hargument
    exact ⟨rfl, rfl, buffer, hbuffer, hbytes, hinitialized⟩

theorem meets_shareBuffers {backings : List (Nat × Nat)}
    (h : ∀ backing ∈ backings, ∃ buffer, runtime.buffers[backing.1]? = some buffer ∧
      Mentions request.arguments buffer.handle) :
    Meets (shareBuffers environment request backings)
      (fun shared next => next = runtime ∧ List.Forall₂ runtime.SharedOf backings shared)
      (fun _ next => next = runtime) False runtime := by
  induction backings with
  | nil => exact ⟨rfl, .nil⟩
  | cons backing backings ih =>
    obtain ⟨buffer, hbuffer, hnamed⟩ := h backing (mem_cons_self ..)
    refine (meets_shareBuffer hbuffer hnamed).bind ?_
    rintro shared next ⟨rfl, hshared⟩
    refine (ih fun backing hbacking => h backing (mem_cons_of_mem _ hbacking)).bind ?_
    rintro rest _ ⟨rfl, hrest⟩
    exact ⟨rfl, .cons hshared hrest⟩

theorem meets_translateArguments {arguments : List VirtualArgument}
    (h : ∀ view, VirtualArgument.buffer view ∈ arguments → view.buffer ∈ handles) :
    Meets (translateArguments handles arguments) (fun _ next => next = runtime)
      (fun _ next => next = runtime) False runtime := by
  induction arguments with
  | nil => exact rfl
  | cons argument arguments ih =>
    have hrest : Meets (translateArguments handles arguments) (fun _ next => next = runtime)
        (fun _ next => next = runtime) False runtime :=
      ih fun view hview => h view (mem_cons_of_mem _ hview)
    cases argument with
    | scalar value =>
      rw [translateArguments, meets_bind]
      exact hrest
    | buffer view =>
      rw [translateArguments, meets_bind, meets_expect]
      refine ⟨fun backing _ => ?_, fun hnone => ?_⟩
      · refine meets_bind_lift (fun argument _ => ?_) fun _ _ => rfl
        rw [meets_bind]
        exact hrest
      · have hmissing := findIdx?_eq_none_iff.mp hnone view.buffer
          (h view (mem_cons_self ..))
        exact absurd hmissing (by simp)

/-- What a built request shows of the held buffers. -/
structure RequestFits (runtime : VirtualRuntime) (dispatch : DispatchRecordLocal)
    (request : SimulationRequest) (handles : List VirtualBufferHandle) : Prop where
  handles : List.Forall₂ runtime.HandleOf dispatch.retainedBuffers handles
  shared : List.Forall₂ runtime.SharedOf dispatch.retainedBuffers.zipIdx request.sharedBuffers

theorem meets_buildSimulationRequest (h : runtime.Inv)
    (hdispatch : runtime.dispatches[i]? = some dispatch)
    (hunresolved : dispatch.state.unresolved = true) :
    Meets (buildSimulationRequest environment i)
      (fun result next => next = runtime ∧ RequestFits runtime dispatch result.1 result.2)
      (fun _ next => next = runtime) False runtime := by
  have hmem := mem_of_getElem? hdispatch
  have hheld : ∀ index ∈ dispatch.retainedBuffers, ∃ buffer,
      runtime.buffers[index]? = some buffer ∧
        Mentions dispatch.request.arguments buffer.handle := by
    intro index hindex
    obtain ⟨buffer, hbuffer, -⟩ := h.held hmem hunresolved hindex
    refine ⟨buffer, hbuffer, ?_⟩
    exact ((h.coherent.arguments dispatch hmem).named index buffer.outline
      (getElem?_outlines.mpr ⟨buffer, hbuffer, rfl⟩)).mp hindex
  unfold buildSimulationRequest
  rw [meets_bind, meets_recordAt hdispatch]
  refine meets_bind_refuse (fun _ => rfl) fun _ => ?_
  refine (meets_collectHandles fun index hindex => ?_).bind ?_ fun _ _ => False.elim
  · obtain ⟨buffer, hbuffer, -⟩ := hheld index hindex
    exact ⟨buffer, hbuffer⟩
  rintro handles next ⟨hsame, hhandles⟩
  rw [hsame, meets_bind, meets_refuse]
  refine ⟨fun _ => rfl, fun _ => ?_⟩
  refine (meets_shareBuffers fun backing hbacking => ?_).bind ?_
  · exact hheld backing.1 (fst_mem_of_mem_zipIdx hbacking)
  rintro shared next ⟨hsame, hshared⟩
  rw [hsame, meets_bind, meets_refuse]
  refine ⟨fun _ => rfl, fun _ => ?_⟩
  refine (meets_translateArguments fun view hview => ?_).bind ?_
  · obtain ⟨index, buffer, -, -, hindex, hbuffer, hhandle, -⟩ := h.view_held hmem hunresolved hview
    obtain ⟨handle, hin, other, hother, rfl⟩ := exists_right_of_forall₂ hhandles hindex
    cases hbuffer.symm.trans hother
    exact hhandle ▸ hin
  · rintro arguments _ rfl
    exact ⟨rfl, hhandles, hshared⟩

/-! ### Copying back -/

/-- Contents to install: for a held buffer, and initialized where stores or the buffer are. -/
def CopybackFits (runtime : VirtualRuntime) (dispatch : DispatchRecordLocal) (execution : Execution)
    (entry : VirtualBufferHandle × List UInt8 × List Bool) : Prop :=
  ∃ j ∈ dispatch.retainedBuffers, ∃ buffer, runtime.buffers[j]? = some buffer ∧
    buffer.handle = entry.1 ∧ entry.2.1.length = buffer.bytes.length ∧
    entry.2.2.length = buffer.initialized.length ∧
    ∀ p, entry.2.2[p]? = some true →
      buffer.initialized[p]? = some true ∨ execution.Hits dispatch j p

theorem copybacks_fit {request : SimulationRequest}
    (h : RequestFits runtime dispatch request handles) (hcopybacks : collectCopybacks environment
      (handles.zip (execution.outputs request.sharedBuffers)).zipIdx = .ok copybacks) :
    ∀ entry ∈ copybacks, CopybackFits runtime dispatch execution entry := by
  intro entry hentry
  obtain ⟨-, hcopybacks⟩ := check_eq_ok.mp hcopybacks
  obtain ⟨pair, hpair, position, hok⟩ :=
    exists_left_of_forall₂ (mapM_zipIdx_eq_ok hcopybacks) hentry
  obtain ⟨-, hok⟩ := check_eq_ok.mp hok
  obtain ⟨-, hok⟩ := check_eq_ok.mp hok
  cases hok
  obtain ⟨k, hk⟩ := getElem?_of_mem hpair
  obtain ⟨hhandle, houtput⟩ := getElem?_zip_eq_some.mp hk
  have hflipped : List.Forall₂ (fun handle index => runtime.HandleOf index handle) handles
      dispatch.retainedBuffers := h.handles.flip
  obtain ⟨j, hj, buffer, hbuffer, hsame⟩ := getElem?_of_forall₂ hflipped hhandle
  rw [outputs_eq_map, getElem?_map, Option.map_eq_some_iff] at houtput
  obtain ⟨shared, hshared, hfolded⟩ := houtput
  have hzip : dispatch.retainedBuffers.zipIdx[k]? = some (j, k) := by
    rw [getElem?_zipIdx, hj]
    simp
  obtain ⟨other, hother, hid, found, hfound, hbytes, hinitialized⟩ :=
    getElem?_of_forall₂ h.shared hzip
  cases hshared.symm.trans hother
  cases hbuffer.symm.trans hfound
  have hstored := stored_foldl execution.writes shared
  rw [hfolded] at hstored
  refine ⟨j, mem_of_getElem? hj, buffer, hbuffer, hsame, hstored.bytes.trans (by rw [hbytes]),
    hstored.length.trans (by rw [hinitialized]), fun p hp => ?_⟩
  obtain hp | ⟨write, hwrite, hcovers⟩ := hstored.initialized p hp
  · exact .inl (hinitialized ▸ hp)
  · rw [hid] at hcovers
    exact .inr ⟨write, hwrite, k, hj, hcovers⟩

/-- The loop that installs contents never fails. -/
theorem meets_copyBacks {Q : Unit → VirtualRuntime → Prop}
    {E : VirtualRuntimeError → VirtualRuntime → Prop} {P : Prop} {model : RuntimeState}
    (h : runtime.Inv) (hmem : dispatch ∈ runtime.dispatches)
    (hunresolved : dispatch.state.unresolved = true)
    (hfits : ∀ entry ∈ copybacks, CopybackFits runtime dispatch execution entry)
    (hdone : ∀ buffers, Rewritten (execution.Hits dispatch) runtime.buffers buffers →
      Q () { runtime with model := model, buffers := buffers }) :
    Meets (copybacks.forM copyBack) Q E P { runtime with model := model } := by
  refine meets_forM (fun _ next => ∃ buffers, next = { runtime with
    model := model, buffers := buffers } ∧
    Rewritten (execution.Hits dispatch) runtime.buffers buffers) ?_ ?_ ?_
  · exact ⟨runtime.buffers, rfl, .refl⟩
  · rintro seen entry rest _ rfl ⟨buffers, rfl, hrewritten⟩
    obtain ⟨j, hj, buffer, hbuffer, hhandle, hbytes, hlength, hinitialized⟩ :=
      hfits entry (mem_append_right _ (mem_cons_self ..))
    obtain ⟨held, hheld, hlive, -⟩ := h.held hmem hunresolved hj
    cases hbuffer.symm.trans hheld
    obtain ⟨later, hlater, houtline⟩ := hrewritten.exists_later hbuffer
    have hlaterHandle : later.handle = entry.1 :=
      (congrArg Outline.handle houtline).trans hhandle
    have hindex := (h.rewrite hrewritten).bufferIndex_eq hlater
    rw [hlaterHandle] at hindex
    unfold copyBack bufferMut
    rw [meets_bind, meets_bind, meets_read]
    refine meets_bind_lift (fun index hfound => ?_) fun error herror => ?_
    · obtain rfl := Except.ok.inj (hindex.symm.trans hfound)
      have hreleased : later.released = false :=
        (congrArg Outline.released houtline).trans hlive
      rw [meets_bind, meets_recordAt hlater]
      refine meets_bind_refuse (fun hrefused => ?_) fun _ => ?_
      · nomatch hreleased.symm.trans hrefused
      · refine ⟨_, rfl, hrewritten.modify hbuffer hlater (fun _ => rfl) ?_ ?_ fun p hp =>
          (hinitialized p hp).imp_right .inr⟩
        · exact hbytes.trans (congrArg Outline.byteLen houtline).symm
        · exact hlength.trans (congrArg Outline.initializedLen houtline).symm
    · nomatch hindex.symm.trans herror
  · rintro _ ⟨buffers, rfl, hrewritten⟩
    exact hdone buffers hrewritten

/-! ### Executions -/

/-- The simulation of a dispatch in a state, and what it answered. -/
def Executes (environment : Environment) (runtime : VirtualRuntime) (i : Nat)
    (dispatch : DispatchRecordLocal) (execution : Execution) : Prop :=
  ∃ module ∈ runtime.modules, module.handle = dispatch.module ∧ ∃ request handles,
    buildSimulationRequest environment i runtime = .done (request, handles) runtime ∧
    environment.simulate module.module request dispatch.dynamicWorkgroupMemory
      runtime.config.simulationLimits runtime.config.runtimeLimits.maxScheduleDecisions =
      .ok execution

/-- A dispatch that was given up. -/
def GivenUp (i : Nat) (before after : VirtualRuntime) : Prop :=
  Kept nowhere before after ∧ Ends i .abortedSimulation before after ∧ Untouched before after

theorem meets_giveUp {α : Type} {error : VirtualRuntimeError} {Q : α → VirtualRuntime → Prop}
    (h : runtime.Inv) (hdispatch : runtime.dispatches[i]? = some dispatch)
    (hprepared : dispatch.state = .prepared) :
    Meets (giveUp i error) Q (fun _ next => GivenUp i runtime next) False runtime := by
  unfold giveUp abortPreparedDispatch
  rw [meets_bind]
  exact (meets_abandonPrepared h hdispatch hprepared rfl).mono (fun _ _ hnext => hnext)
    (fun _ _ => False.elim) False.elim

theorem meets_executeDispatch (environment : Environment) (h : runtime.Inv)
    (hdispatch : runtime.dispatches[i]? = some dispatch) (hprepared : dispatch.state = .prepared) :
    Meets (executeDispatch environment i)
      (fun progress next => (∃ summary, progress = .completed dispatch.completion summary) ∧
        Ends i .completed runtime next ∧
        ∃ execution, Executes environment runtime i dispatch execution ∧
          Kept (execution.Hits dispatch) runtime next)
      (fun _ next => GivenUp i runtime next) False runtime := by
  have hmem := mem_of_getElem? hdispatch
  have hunresolved : dispatch.state.unresolved = true := by
    rw [hprepared]
    rfl
  unfold executeDispatch
  rw [meets_bind, meets_read, meets_bind, meets_recordAt hdispatch]
  refine meets_bind_lift (fun moduleIndex hmoduleIndex => ?_) fun error herror => ?_
  · obtain ⟨module, hmodule, hhandle⟩ := record_of_indexOf hmoduleIndex
    rw [meets_bind, meets_recover]
    refine (meets_buildSimulationRequest h hdispatch hunresolved).and_outcome.mono ?_ ?_ False.elim
    · rintro ⟨request, handles⟩ next ⟨⟨hsame, hrequest⟩, hbuilt⟩
      rw [hsame] at hbuilt ⊢
      rw [meets_bind, meets_recordAt hmodule]
      cases hanswer : environment.simulate module.module request dispatch.dynamicWorkgroupMemory
          runtime.config.simulationLimits runtime.config.runtimeLimits.maxScheduleDecisions with
      | error source => exact meets_giveUp h hdispatch hprepared
      | ok execution =>
        dsimp only
        split
        · exact meets_giveUp h hdispatch hprepared
        cases hcopybacks : collectCopybacks environment
            (handles.zip (execution.outputs request.sharedBuffers)).zipIdx with
        | error error => exact meets_giveUp h hdispatch hprepared
        | ok copybacks =>
          cases hmodel : nextEach runtime.model [.publishDispatch dispatch.modelCompletion,
              .observeCompletion dispatch.modelCompletion] with
          | error error => exact meets_giveUp h hdispatch hprepared
          | ok model =>
            rw [nextEach_eq_foldlM h.coherent.valid] at hmodel
            have hmoves := accepts_observe h.coherent.valid hmodel
            rw [meets_bind, meets_update, meets_bind]
            refine meets_copyBacks h hmem hunresolved (copybacks_fit hrequest hcopybacks)
              fun buffers hrewritten => ?_
            have hrewrite := Kept.rewrite h hrewritten
            rw [meets_bind, meets_update, meets_bind]
            refine meets_finish hrewrite.1 hdispatch hunresolved rfl (fun _ => rfl) ?_
            refine ⟨⟨_, rfl⟩, ⟨_, fun _ => rfl, rfl⟩, execution, ⟨module,
              mem_of_getElem? hmodule, hhandle, request, handles, hbuilt, hanswer⟩, ?_⟩
            have hresolved : VirtualCompletionState.completed.unresolved = false := rfl
            exact hrewrite.trans (.finish hrewrite.1 hdispatch hunresolved (fun _ => rfl) hresolved
              (.inr (.inl hprepared)) hmoves)
    · rintro error next ⟨hsame, -⟩
      rw [hsame]
      exact meets_giveUp h hdispatch hprepared
  · obtain ⟨record, -, hfits⟩ := h.coherent.dispatchesFit.found dispatch hmem
    obtain ⟨module, hmodule, hhandle, -⟩ := hfits.module
    have hfound : ∃ index, runtime.moduleIndex dispatch.module = .ok index :=
      exists_indexOf (hhandle ▸ (h.coherent.handles.modules.issued module hmodule).1)
        (hhandle ▸ mem_map_of_mem hmodule)
    obtain ⟨index, hindex⟩ := hfound
    nomatch hindex.symm.trans herror

end VirtualRuntime

end Fe2o3.Virtual
