import Fe2o3.Virtual.Endings

/-!
# Submitting a dispatch

The scan over the arguments collects each named buffer once, with its position; sorted,
the positions are the buffers that the dispatch will hold, and the mappings of those
buffers are the resources in the model.
-/

namespace Fe2o3.Virtual

open Lib KernelIr RuntimeModel Command List

/-- Limits that pass their check are returned as they are, and within the cap of the model. -/
theorem VirtualRuntimeLimits.validate_eq_ok {limits checked : VirtualRuntimeLimits}
    (h : limits.validate = .ok checked) :
    checked = limits ∧ limits.maxDispatches ≤ RuntimeModel.maxDispatches := by
  unfold VirtualRuntimeLimits.validate at h
  split at h
  · nomatch h
  · simp only [bind_eq_ok, pure_eq_ok] at h
    obtain ⟨_, -, _, -, _, -, _, hcap, _, -, _, -, _, -, _, -, rfl⟩ := h
    exact ⟨rfl, Nat.not_lt.mp (check_eq_ok.mp hcap).1⟩

variable {view : BufferView} {index : Nat} {buffer : BufferRecord} {u : Unit} {kind : HandleKind}

namespace VirtualRuntime

variable {runtime : VirtualRuntime} {wrote : Nat → Nat → Prop} {environment : Environment}

/-! ### The scan over the arguments -/

/-- Some argument is a view of the buffer. -/
def Mentions (arguments : List VirtualArgument) (handle : VirtualBufferHandle) : Prop :=
  ∃ view, VirtualArgument.buffer view ∈ arguments ∧ view.buffer = handle

/-- The layouts that a scan over some views has collected. -/
structure LayoutsFit (runtime : VirtualRuntime) (views : List BufferView)
    (layouts : List BufferLayout) : Prop where
  recorded : ∀ layout ∈ layouts, ∃ buffer, runtime.buffers[layout.index]? = some buffer ∧
    buffer.handle = layout.buffer
  distinct : DistinctKeys BufferLayout.buffer layouts
  named : ∀ handle, handle ∈ layouts.map BufferLayout.buffer ↔ handle ∈ views.map BufferView.buffer
  fits : ∀ view ∈ views, ViewFits runtime.outlines view

theorem checkView_eq_ok {record : BufferRecord} (h : checkView record view = .ok u) :
    ∃ elementBytes stop, virtualScalarBytes view.element = some elementBytes ∧
      viewEnd view.byteOffset view.elements elementBytes = some stop ∧
      stop ≤ record.bytes.length := by
  simp only [checkView, check_eq_ok] at h
  obtain ⟨-, -, h⟩ := h
  split at h
  · nomatch h
  · next elementBytes hbytes =>
    simp only [check_eq_ok, bind_eq_ok, okOr_eq_ok] at h
    obtain ⟨-, -, stop, hstop, hfits, -⟩ := h
    exact ⟨elementBytes, stop, hbytes, hstop, Nat.not_lt.mp hfits⟩

variable {arguments : List VirtualArgument}

theorem mem_views :
    view ∈ arguments.filterMap VirtualArgument.view? ↔ .buffer view ∈ arguments := by
  rw [mem_filterMap]
  refine ⟨?_, fun hmem => ⟨_, hmem, rfl⟩⟩
  rintro ⟨_ | found, hmem, hview⟩
  · nomatch hview
  · rwa [Option.some.inj hview] at hmem

variable {views : List BufferView} {layouts : List BufferLayout}

/-- One more view is noted. -/
theorem LayoutsFit.note {next : List BufferLayout} {position : Nat}
    (h : LayoutsFit runtime views layouts) (hbuffer : runtime.buffers[index]? = some buffer)
    (hhandle : buffer.handle = view.buffer) (hview : ViewFits runtime.outlines view)
    (hnext : noteLayout environment position layouts index view = .ok next) :
    LayoutsFit runtime (views ++ [view]) next := by
  unfold noteLayout at hnext
  cases hfound : layouts.find? (fun layout => layout.buffer == view.buffer) with
  | some layout =>
    rw [hfound] at hnext
    obtain ⟨-, hnext⟩ := check_eq_ok.mp hnext
    obtain ⟨raised, rfl, hbuffers⟩ : ∃ raised : BufferLayout → BufferLayout,
      next = layouts.map raised ∧
        ∀ other, (raised other).buffer = other.buffer ∧ (raised other).index = other.index := by
      refine ⟨_, (Except.ok.inj hnext).symm, fun other => ?_⟩
      split <;> exact ⟨rfl, rfl⟩
    have hsame : (layouts.map raised).map BufferLayout.buffer =
      layouts.map BufferLayout.buffer := by
      rw [map_map]
      exact map_congr_left fun other _ => (hbuffers other).1
    refine ⟨fun other hother => ?_, ?_, fun handle => ?_, forall_mem_append_new h.fits hview⟩
    · obtain ⟨old, hold, rfl⟩ := mem_map.mp hother
      rw [(hbuffers old).1, (hbuffers old).2]
      exact h.recorded old hold
    · rw [distinctKeys_iff_map_nodup, hsame, ← distinctKeys_iff_map_nodup]
      exact h.distinct
    · rw [hsame, h.named, map_append, mem_append]
      refine (or_iff_left_of_imp fun hlast => ?_).symm
      rw [mem_singleton.mp hlast, ← h.named]
      have hfits := find?_some hfound
      exact eq_of_beq hfits ▸ mem_map_of_mem (mem_of_find?_eq_some hfound)
  | none =>
    rw [hfound] at hnext
    obtain ⟨-, hnext⟩ := check_eq_ok.mp hnext
    obtain ⟨-, hnext⟩ := check_eq_ok.mp hnext
    cases hnext
    refine ⟨forall_mem_append_new h.recorded ⟨buffer, hbuffer, hhandle⟩,
      distinctKeys_append h.distinct fun other hother => ?_, fun handle => ?_,
      forall_mem_append_new h.fits hview⟩
    · simpa using find?_eq_none.mp hfound other hother
    · rw [map_append, map_append, mem_append, mem_append, h.named]
      rfl

theorem meets_collectArguments {arguments : List (VirtualArgument × Nat)}
    (h : LayoutsFit runtime views layouts) :
    Meets (collectArguments environment layouts arguments)
      (fun result next => next = runtime ∧ LayoutsFit runtime
        (views ++ (arguments.map Prod.fst).filterMap VirtualArgument.view?) result)
      (fun _ next => next = runtime) False runtime := by
  induction arguments generalizing views layouts with
  | nil =>
    refine ⟨rfl, ?_⟩
    rw [map_nil, filterMap_nil, append_nil]
    exact h
  | cons argument arguments ih =>
    obtain ⟨argument, position⟩ := argument
    cases argument with
    | scalar value => exact ih h
    | buffer view =>
      simp only [map_cons, filterMap_cons, VirtualArgument.view?]
      rw [append_cons, collectArguments, meets_bind, meets_read]
      refine meets_bind_recordAt (fun index buffer hbuffer hhandle => ?_) fun _ => rfl
      refine meets_bind_lift (fun _ hcheck => ?_) fun _ _ => rfl
      obtain ⟨elementBytes, stop, hbytes, hstop, hfits⟩ := checkView_eq_ok hcheck
      refine meets_bind_lift (fun noted hnoted => ?_) fun _ _ => rfl
      exact ih (h.note hbuffer hhandle ⟨index, buffer.outline, elementBytes, stop,
        getElem?_outlines.mpr ⟨buffer, hbuffer, rfl⟩, hhandle, hbytes, hstop,
          fun _ => hfits⟩ hnoted)

/-! ### The resources -/

/-- The resource of a position is the mapping of its buffer. -/
def ResourceOf (runtime : VirtualRuntime) (index : Nat) (resource : DispatchResource) : Prop :=
  ∃ buffer, runtime.buffers[index]? = some buffer ∧ resource.mapping = buffer.mapping

theorem meets_collectResources {indices : List Nat} (h : LayoutsFit runtime views layouts)
    (hindices : ∀ index ∈ indices, index ∈ layouts.map BufferLayout.index) :
    Meets (collectResources layouts indices)
      (fun resources next => next = runtime ∧ List.Forall₂ runtime.ResourceOf indices resources)
      (fun _ next => next = runtime) False runtime := by
  induction indices with
  | nil => exact ⟨rfl, .nil⟩
  | cons index indices ih =>
    obtain ⟨layout, hlayout, rfl⟩ := mem_map.mp (hindices _ (mem_cons_self ..))
    obtain ⟨buffer, hbuffer, hhandle⟩ := h.recorded layout hlayout
    rw [collectResources, meets_bind, meets_recordAt hbuffer, meets_bind, meets_expect]
    refine ⟨fun found _ => ?_, fun hnone => ?_⟩
    · refine (ih fun index hindex => hindices index (mem_cons_of_mem _ hindex)).bind ?_
      rintro resources _ ⟨rfl, hresources⟩
      exact ⟨rfl, .cons ⟨buffer, hbuffer, rfl⟩ hresources⟩
    · exact absurd (beq_iff_eq.mpr hhandle.symm) (find?_eq_none.mp hnone layout hlayout)

/-- What the validation of the arguments returns. -/
structure Collected (runtime : VirtualRuntime) (arguments : List VirtualArgument)
    (resources : List DispatchResource) (retained : List Nat) : Prop where
  nodup : retained.Nodup
  named : ∀ (index : Nat) (buffer : BufferRecord), runtime.buffers[index]? = some buffer →
    (index ∈ retained ↔ Mentions arguments buffer.handle)
  views : ∀ view, VirtualArgument.buffer view ∈ arguments → ViewFits runtime.outlines view
  resources : List.Forall₂ runtime.ResourceOf retained resources

/-- Different layouts have different positions. -/
theorem LayoutsFit.index_nodup (h : LayoutsFit runtime views layouts) :
    (layouts.map BufferLayout.index).Nodup := by
  rw [← distinctKeys_iff_map_nodup]
  refine h.distinct.imp_of_mem fun {first second} hfirst hsecond hne heq => hne ?_
  obtain ⟨buffer, hbuffer, hhandle⟩ := h.recorded first hfirst
  obtain ⟨other, hother, hhandle'⟩ := h.recorded second hsecond
  rw [heq, hother] at hbuffer
  cases hbuffer
  exact hhandle.symm.trans hhandle'

theorem LayoutsFit.mem_index (h : runtime.Inv) (hlayouts : LayoutsFit runtime views layouts)
    (hbuffer : runtime.buffers[index]? = some buffer) :
    index ∈ layouts.map BufferLayout.index ↔ buffer.handle ∈ views.map BufferView.buffer := by
  rw [← hlayouts.named]
  constructor
  · intro hindex
    obtain ⟨layout, hlayout, rfl⟩ := mem_map.mp hindex
    obtain ⟨other, hother, hhandle⟩ := hlayouts.recorded layout hlayout
    cases hbuffer.symm.trans hother
    exact hhandle ▸ mem_map_of_mem hlayout
  · intro hhandle
    obtain ⟨layout, hlayout, hsame⟩ := mem_map.mp hhandle
    obtain ⟨other, hother, hother'⟩ := hlayouts.recorded layout hlayout
    rw [← h.buffer_position hother hbuffer (hother'.trans hsame)]
    exact mem_map_of_mem hlayout

theorem meets_validateAndCollectResources (h : runtime.Inv) (arguments : List VirtualArgument) :
    Meets (validateAndCollectResources environment arguments)
      (fun result next => next = runtime ∧ Collected runtime arguments result.1 result.2)
      (fun _ next => next = runtime) False runtime := by
  have hempty : LayoutsFit runtime [] [] := ⟨nofun, .nil, fun _ => Iff.rfl, nofun⟩
  refine (meets_collectArguments hempty).bind ?_
  rintro layouts _ ⟨rfl, hlayouts⟩
  rw [nil_append, zipIdx_map_fst] at hlayouts
  refine meets_bind_refuse (fun _ => rfl) fun _ => ?_
  have hperm := perm_insertionSort (· ≤ ·) (layouts.map BufferLayout.index)
  refine (meets_collectResources hlayouts fun index hindex => hperm.mem_iff.mp hindex).bind ?_
  rintro resources _ ⟨rfl, hresources⟩
  refine ⟨rfl, hperm.nodup_iff.mpr hlayouts.index_nodup, fun index buffer hbuffer => ?_,
    fun view hview => hlayouts.fits view (mem_views.mpr hview), hresources⟩
  rw [hperm.mem_iff, hlayouts.mem_index h hbuffer]
  simp only [mem_map, mem_views, Mentions]

/-! ### The dependencies -/

theorem atMost_total (left right : Handle kind) :
    left.atMost right = true ∨ right.atMost left = true := by
  simp only [Handle.atMost, Bool.or_eq_true, Bool.and_eq_true, decide_eq_true_eq, beq_iff_eq]
  obtain hlt | heq | hgt := Nat.lt_trichotomy left.runtimeIdentity right.runtimeIdentity
  · exact .inl (.inl hlt)
  · obtain hle | hle := Nat.le_total left.ordinal right.ordinal
    · exact .inl (.inr ⟨heq, hle⟩)
    · exact .inr (.inr ⟨heq.symm, hle⟩)
  · exact .inr (.inl hgt)

theorem atMost_trans {first second third : Handle kind} (h : first.atMost second = true)
    (h' : second.atMost third = true) : first.atMost third = true := by
  simp only [Handle.atMost, Bool.or_eq_true, Bool.and_eq_true, decide_eq_true_eq,
    beq_iff_eq] at h h' ⊢
  obtain hlt | ⟨heq, hle⟩ := h
  · obtain hlt' | ⟨heq', -⟩ := h'
    · exact .inl (Nat.lt_trans hlt hlt')
    · exact .inl (heq' ▸ hlt)
  · obtain hlt' | ⟨heq', hle'⟩ := h'
    · exact .inl (heq.symm ▸ hlt')
    · exact .inr ⟨heq.trans heq', Nat.le_trans hle hle'⟩

theorem checkDependency_eq_ok {ordinal : Nat} {dependency : VirtualCompletionHandle}
    (h : runtime.checkDependency ordinal dependency = .ok u) :
    dependency.runtimeIdentity = runtime.config.runtimeIdentity ∧ dependency.ordinal < ordinal ∧
      dependency ∈ runtime.dispatches.map DispatchRecordLocal.completion := by
  obtain ⟨hidentity, h⟩ := seq_eq_ok.mp h
  obtain ⟨hidentity, -⟩ := check_eq_ok.mp hidentity
  obtain ⟨hchecks, -⟩ := check_eq_ok.mp h
  simp only [Bool.or_eq_true, decide_eq_true_eq, Bool.not_eq_true', not_or, Nat.not_le,
    Bool.not_eq_false, any_eq_true, beq_iff_eq] at hchecks
  obtain ⟨hlt, record, hrecord, rfl⟩ := hchecks
  exact ⟨not_not.mp hidentity, hlt, mem_map_of_mem hrecord⟩

/-- Sorted dependencies of one runtime are in the order of their ordinals. -/
theorem ascending_dependencies {dependencies : List VirtualCompletionHandle}
    {identity : IdentityDigest}
    (h : ∀ dependency ∈ dependencies.insertionSort fun left right => left.atMost right,
      dependency.runtimeIdentity = identity) :
    (dependencies.insertionSort fun left right => left.atMost right).Pairwise
      fun left right => left.ordinal ≤ right.ordinal := by
  have : Std.Total fun left right : VirtualCompletionHandle => left.atMost right = true :=
    ⟨atMost_total⟩
  have : IsTrans VirtualCompletionHandle fun left right => left.atMost right = true :=
    ⟨fun _ _ _ => atMost_trans⟩
  have hsorted := pairwise_insertionSort
    (fun left right : VirtualCompletionHandle => left.atMost right = true) dependencies
  refine hsorted.imp_of_mem fun {left right} hleft hright hle => ?_
  simp only [Handle.atMost, h left hleft, h right hright, Bool.or_eq_true, Bool.and_eq_true,
    decide_eq_true_eq, beq_iff_eq, Nat.lt_irrefl, false_or, true_and] at hle
  exact hle

/-! ### Submission -/

/-- The counters of retentions do not overflow. -/
theorem Inv.retained_lt (h : runtime.Inv) (hbuffer : runtime.buffers[index]? = some buffer) :
    buffer.retainedDispatches + 1 < 2 ^ 64 := by
  have hfew := h.coherent.fewDispatches
  have hcount : holders runtime.dispatches index ≤ runtime.dispatches.length :=
    countP_le_length
  rw [h.retained index buffer hbuffer]
  simp only [maxDispatches] at hfew
  omega

/-- A submitted dispatch is prepared and holds its buffers. -/
theorem Kept.submit (h : runtime.Inv) {queue : QueueRecord} {module : ModuleRecord}
    {new : DispatchRecordLocal} {resources : List DispatchResource} {model : RuntimeState}
    {retained : List Nat}
    (hmodel : runtime.model.apply (.prepareDispatch ⟨queue.queue, runtime.nextOrdinal⟩ module.code
      ⟨⟨queue.queue, runtime.nextOrdinal⟩, runtime.nextOrdinal⟩ resources) = .ok model)
    (hnew : Admitted runtime.config.runtimeIdentity runtime.nextOrdinal runtime.modules
      runtime.queues runtime.dispatches queue module new)
    (hretained : new.retainedBuffers = retained)
    (hcollected : Collected runtime new.request.arguments resources retained) (bytes : Nat) :
    Kept wrote runtime { runtime with
      nextOrdinal := runtime.nextOrdinal + 1
      model := model
      buffers := modifyAll retained BufferRecord.retain runtime.buffers
      retainedDispatchBytes := bytes
      dispatches := runtime.dispatches ++ [new] } := by
  subst hretained
  refine ⟨⟨?_, fun j later hlater => ?_⟩, rfl, fun j buffer hbuffer => ?_,
    fun _ _ hlater hnew => absurd hnew (not_added length_modifyAll hlater),
    fun j dispatch hdispatch =>
      ⟨dispatch, getElem?_append_of_some hdispatch, rfl, rfl, rfl, .inl rfl⟩⟩
  · show Coherent _ _ _ _ _ _ ((modifyAll _ _ _).map BufferRecord.outline) _ _ _
    rw [map_modifyAll_of_eq (f := BufferRecord.retain) fun _ => rfl]
    refine h.coherent.submit hmodel (h.coherent.valid.apply hmodel) hnew
      (fun resource hresource => ?_) (fun index hindex => ?_)
      ⟨hcollected.nodup, fun index outline houtlined => ?_, hcollected.views⟩
    · obtain ⟨index, hindex, buffer, hbuffer, hmapping⟩ :=
        exists_left_of_forall₂ hcollected.resources hresource
      exact ⟨index, hindex, buffer.outline, getElem?_outlines.mpr ⟨buffer, hbuffer, rfl⟩,
        hmapping.symm⟩
    · obtain ⟨resource, hresource, buffer, hbuffer, hmapping⟩ :=
        exists_right_of_forall₂ hcollected.resources hindex
      exact ⟨buffer.outline, getElem?_outlines.mpr ⟨buffer, hbuffer, rfl⟩, resource, hresource,
        hmapping⟩
    · obtain ⟨buffer, hbuffer, rfl⟩ := getElem?_outlines.mp houtlined
      exact hcollected.named index buffer hbuffer
  · have hunresolved : new.state.unresolved = true := by
      rw [hnew.state]
      rfl
    rw [show (_ : VirtualRuntime).buffers = modifyAll new.retainedBuffers BufferRecord.retain
      runtime.buffers from rfl, getElem?_modifyAll, Option.map_eq_some_iff] at hlater
    obtain ⟨old, hold, rfl⟩ := hlater
    rw [holders_append hunresolved, ← h.retained j old hold]
    by_cases hmem : j ∈ new.retainedBuffers
    · rw [if_pos hmem, if_pos hmem]
      rfl
    · rw [if_neg hmem, if_neg hmem]
      rfl
  · obtain ⟨later, hlater, hhandle, hinitialized⟩ :=
      exists_modifyAll new.retainedBuffers (f := BufferRecord.retain)
        (fun _ => ⟨rfl, rfl⟩) hbuffer
    exact ⟨later, hlater, hhandle, fun p hp => .inl (hinitialized ▸ hp)⟩

theorem submitConfigured_issues (h : runtime.Inv) (environment : Environment)
    (queue : VirtualQueueHandle) (module : VirtualModuleHandle) (request : VirtualDispatchRequest)
    (dynamic : Option DynamicWorkgroupMemoryRequest) :
    Issues (submitConfigured environment queue module request dynamic) runtime := by
  unfold Issues submitConfigured
  refine meets_bind_refuse (fun _ => .refl h) fun hroom => ?_
  have hfew : runtime.dispatches.length < maxDispatches :=
    Nat.lt_of_lt_of_le (Nat.not_le.mp (of_decide_eq_false hroom))
      (VirtualRuntimeLimits.validate_eq_ok h.coherent.configFits.runtimeLimits).2
  refine meets_bind_lift (fun queueIndex hqueueIndex => ?_) fun _ _ => .refl h
  obtain ⟨queueRecord, hqueue, hqueueHandle⟩ := record_of_indexOf hqueueIndex
  refine meets_bind_lift (fun moduleIndex hmoduleIndex => ?_) fun _ _ => .refl h
  obtain ⟨moduleRecord, hmodule, hmoduleHandle⟩ := record_of_indexOf hmoduleIndex
  unfold requireLiveQueue requireLiveModule
  rw [meets_bind, meets_bind, meets_recordAt hqueue, meets_refuse]
  refine ⟨fun _ => .refl h, fun hlive => ?_⟩
  rw [meets_bind, meets_bind, meets_recordAt hmodule, meets_refuse]
  refine ⟨fun _ => .refl h, fun _ => ?_⟩
  refine meets_bind_refuse (fun _ => .refl h) fun _ => ?_
  refine meets_bind_refuse (fun _ => .refl h) fun _ => ?_
  dsimp only
  cases firstDuplicate
    (request.dependencies.insertionSort fun left right => left.atMost right) with
  | some handle => exact .refl h
  | none =>
    refine meets_bind_lift (fun _ hchecked => ?_) fun _ _ => .refl h
    have hdependencies := fun dependency hmem =>
      checkDependency_eq_ok (forM_eq_ok.mp hchecked dependency hmem)
    refine (meets_validateAndCollectResources h request.arguments).bind ?_
      fun _ _ hnext => hnext.symm ▸ .refl h
    rintro ⟨resources, retained⟩ next ⟨hsame, hcollected⟩
    rw [hsame, meets_bind, meets_lift]
    refine ⟨fun retainedBytes _ => ?_, fun _ _ => .refl h⟩
    refine meets_bind_lift (fun bytes _ => ?_) fun _ _ => .refl h
    refine meets_bind_refuse (fun _ => .refl h) fun _ => ?_
    refine meets_bind_refuse (fun _ => .refl h) fun _ => ?_
    rw [meets_bind]
    refine meets_newHandle (fun _ => ?_) fun hpanic => hpanic
    have htables : ({ runtime with nextOrdinal := runtime.nextOrdinal + 1 } :
        VirtualRuntime).queues[queueIndex]? = some queueRecord ∧
        ({ runtime with nextOrdinal := runtime.nextOrdinal + 1 } :
          VirtualRuntime).modules[moduleIndex]? = some moduleRecord := ⟨hqueue, hmodule⟩
    rw [meets_bind, meets_recordAt htables.1, meets_bind, meets_recordAt htables.2, meets_bind]
    refine meets_advanceModel h.coherent.valid (fun model hmodel => ?_) fun _ _ => .ordinal h
    rw [accepts_one] at hmodel
    rw [meets_bind]
    refine meets_recount (checkedAdd · 1) (f := .retain) (fun _ => rfl) hcollected.nodup
      (fun index hindex => ?_) ?_
    · obtain ⟨resource, -, buffer, hbuffer, -⟩ :=
        exists_right_of_forall₂ hcollected.resources hindex
      exact ⟨buffer, hbuffer, checkedAdd_eq_some.mpr ⟨rfl, h.retained_lt hbuffer⟩⟩
    · refine ⟨rfl, .submit h hmodel (.mk ?_ ?_ ?_ ⟨mem_of_getElem? hqueue, ?_⟩
        (Bool.or_eq_false_iff.mp hlive) ⟨mem_of_getElem? hmodule, ?_⟩ ?_ ?_ hfew) ?_ ?_ bytes⟩
      · exact rfl
      · exact rfl
      · exact rfl
      · exact hqueueHandle
      · exact hmoduleHandle
      · exact fun dependency hmem => (hdependencies dependency hmem).2
      · exact ascending_dependencies fun dependency hmem => (hdependencies dependency hmem).1
      · exact rfl
      · exact hcollected

end VirtualRuntime

end Fe2o3.Virtual
