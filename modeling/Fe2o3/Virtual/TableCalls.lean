import Fe2o3.Virtual.Evolution

/-!
**Calls on buffers, modules and queues** keep the invariant, and panic only when the
ordinals run out.
-/

namespace Fe2o3.Virtual

open Lib KernelIr RuntimeModel Command List

namespace VirtualRuntime

/-- What every call guarantees: the generation goes on, a failed call writes nothing, and
    only an exhausted counter of ordinals panics. -/
def Serves {α : Type} (wrote : Nat → Nat → Prop) (call : Action α) (runtime : VirtualRuntime) :
    Prop :=
  Meets call (fun _ next => Kept wrote runtime next) (fun _ next => Kept nowhere runtime next)
    (2 ^ 64 ≤ runtime.nextOrdinal + 1) runtime

/-- A call that issues a handle also binds it to the generation. -/
def Issues {kind : HandleKind} (call : Action (Handle kind)) (runtime : VirtualRuntime) : Prop :=
  Meets call
    (fun handle next =>
      handle.runtimeIdentity = runtime.config.runtimeIdentity ∧ Kept nowhere runtime next)
    (fun _ next => Kept nowhere runtime next) (2 ^ 64 ≤ runtime.nextOrdinal + 1) runtime

variable {runtime : VirtualRuntime} {wrote : Nat → Nat → Prop} {i : Nat}

/-- The positions of a range of a buffer. -/
def inRange (runtime : VirtualRuntime) (handle : VirtualBufferHandle) (offset length : Nat)
    (i p : Nat) : Prop :=
  (∃ buffer, runtime.buffers[i]? = some buffer ∧ buffer.handle = handle) ∧
    offset ≤ p ∧ p < offset + length

/-- No dispatch of the queue is prepared. -/
theorem preparedCompletionOnQueue_eq_none {queue : VirtualQueueHandle}
    {except : Option VirtualCompletionHandle} :
    runtime.preparedCompletionOnQueue queue except = none ↔
      ∀ dispatch ∈ runtime.dispatches, dispatch.queue = queue → dispatch.state = .prepared →
        some dispatch.completion = except := by
  unfold preparedCompletionOnQueue
  rw [Option.map_eq_none_iff, find?_eq_none]
  constructor
  · intro hnone dispatch hmem hqueue hprepared
    have hfails := hnone dispatch hmem
    simpa [hqueue, hprepared] using hfails
  · intro hall dispatch hmem hholds
    simp only [Bool.and_eq_true, beq_iff_eq, bne_iff_ne] at hholds
    exact hholds.2 (hall dispatch hmem hholds.1.1 hholds.1.2)

theorem Issues.serves {kind : HandleKind} {call : Action (Handle kind)}
    (h : Issues call runtime) : Serves nowhere call runtime :=
  Meets.mono h (fun _ _ hnext => hnext.2) (fun _ _ hnext => hnext) fun hpanic => hpanic

/-- The bytes that the host reads are initialized. -/
theorem findIdx?_uninitialized {bits : List Bool} {offset length : Nat}
    (hlength : offset + length ≤ bits.length) :
    ((bits.drop offset).take length).findIdx? (!·) = none ↔
      ∀ p, offset ≤ p → p < offset + length → bits[p]? = some true := by
  simp only [findIdx?_eq_none_iff, mem_iff_getElem?, getElem?_take, getElem?_drop]
  constructor
  · intro h p hle hlt
    have hp := h bits[p] ⟨p - offset, by grind⟩
    grind
  · rintro h bit ⟨p, hp⟩
    grind

section

variable (h : runtime.Inv)
include h

/-! ### Provisions -/

/-- A call that takes an ordinal and then fails. -/
theorem Kept.ordinal : Kept wrote runtime { runtime with nextOrdinal := runtime.nextOrdinal + 1 } :=
  ⟨⟨{ h.coherent with handles := h.coherent.handles.advance }, h.retained⟩, .of_same rfl rfl rfl⟩

/-- Nothing holds a buffer that is not there. -/
theorem Inv.holders_new : holders runtime.dispatches runtime.buffers.length = 0 := by
  apply countP_eq_zero.mpr
  intro dispatch hmem hholds
  obtain ⟨-, hcontains⟩ := Bool.and_eq_true_iff.mp hholds
  have hlt := h.coherent.retained_lt hmem _ (contains_iff_mem.mp hcontains)
  rw [outlines, length_map] at hlt
  exact Nat.lt_irrefl _ hlt

theorem allocateBuffer_issues (environment : Environment) (byteLen : Nat)
    (access : VirtualBufferAccess) :
    Issues (allocateBuffer environment byteLen access) runtime := by
  unfold Issues allocateBuffer
  refine meets_bind_refuse (fun _ => .refl h) fun _ => ?_
  refine meets_bind_refuse (fun _ => .refl h) fun _ => ?_
  refine meets_bind_lift (fun total htotal => ?_) fun _ _ => .refl h
  obtain ⟨rfl, -⟩ := checkedAdd_eq_some.mp (okOr_eq_ok.mp htotal)
  refine meets_bind_refuse (fun _ => .refl h) fun _ => ?_
  rw [meets_bind]
  refine meets_newHandle (fun hlt => ?_) fun hpanic => hpanic
  refine meets_bind_lift (fun provision hprovision => ?_) fun _ _ => .ordinal h
  obtain ⟨hallocation, hmapping, hprovisions, hvalid⟩ :=
    provisionMapping_eq_ok h.coherent.valid hprovision
  refine meets_bind_refuse (fun _ => .ordinal h) fun _ => ?_
  refine meets_bind_refuse (fun _ => .ordinal h) fun _ => ?_
  rw [meets_bind]
  refine meets_commitProvision h.nextAllocationId_lt ?_
  refine ⟨rfl, ⟨?_, ?_⟩, .of_append [_] [] rfl rfl (fun buffer hmem => ?_)
    (append_nil _).symm⟩
  · have hcoherent := h.coherent.addBuffer hprovisions hvalid byteLen
    rw [hallocation, hmapping]
    simpa [outlines, BufferRecord.outline] using hcoherent
  · intro index buffer hbuffer
    obtain hold | ⟨rfl, rfl⟩ := getElem?_append_one hbuffer
    · exact h.retained index buffer hold
    · exact h.holders_new.symm
  · obtain rfl := mem_singleton.mp hmem
    exact fun htrue => by cases eq_of_mem_replicate htrue

theorem registerModule_issues (module : AdmittedModule) :
    Issues (registerModule module) runtime := by
  unfold Issues registerModule
  refine meets_bind_refuse (fun _ => .refl h) fun _ => ?_
  refine meets_bind_lift (fun _ _ => ?_) fun _ _ => .refl h
  rw [meets_bind]
  refine meets_newHandle (fun _ => ?_) fun hpanic => hpanic
  refine meets_bind_lift (fun provision hprovision => ?_) fun _ _ => .ordinal h
  obtain ⟨hallocation, hmapping, hprovisions, hvalid⟩ :=
    provisionMapping_eq_ok h.coherent.valid hprovision
  refine meets_bind_lift (fun next hnext => ?_) fun _ _ => .ordinal h
  rw [fromModel_eq_ok, hvalid.next_eq_apply, hmapping] at hnext
  rw [meets_bind]
  refine meets_commitProvision h.nextAllocationId_lt ?_
  refine ⟨rfl, ⟨?_, h.retained⟩, .of_same rfl rfl rfl⟩
  exact h.coherent.addModule hprovisions hnext (hvalid.apply hnext) (by rw [hallocation, hmapping])

theorem createQueue_issues (capacity : Nat) : Issues (createQueue capacity) runtime := by
  unfold Issues createQueue
  refine meets_bind_refuse (fun _ => .refl h) fun _ => ?_
  refine meets_bind_refuse (fun _ => .refl h) fun _ => ?_
  rw [meets_bind]
  refine meets_newHandle (fun _ => ?_) fun hpanic => hpanic
  refine meets_bind_lift (fun ringBytes _ => ?_) fun _ _ => .ordinal h
  refine meets_bind_lift (fun provision hprovision => ?_) fun _ _ => .ordinal h
  obtain ⟨hallocation, hmapping, hprovisions, hvalid⟩ :=
    provisionMapping_eq_ok h.coherent.valid hprovision
  refine meets_bind_lift (fun next hnext => ?_) fun _ _ => .ordinal h
  rw [fromModel_eq_ok, hvalid.next_eq_apply, hmapping] at hnext
  rw [meets_bind]
  refine meets_commitProvision h.nextAllocationId_lt ?_
  refine ⟨rfl, ⟨?_, h.retained⟩, .of_same rfl rfl rfl⟩
  exact h.coherent.addQueue hprovisions hnext (hvalid.apply hnext) (by rw [hallocation, hmapping])

/-! ### The host and the contents of buffers -/

theorem Inv.lengths {buffer : BufferRecord} (hmem : buffer ∈ runtime.buffers) :
    buffer.initialized.length = buffer.bytes.length :=
  (h.coherent.contents buffer.outline (mem_map_of_mem hmem)).1

/-- The look at a range of a buffer that the host may access. -/
theorem Inv.meets_hostRange {α : Type} {buffer : BufferRecord} {offset length : Nat}
    {rest : BufferRecord → Action α} (hbuffer : runtime.buffers[i]? = some buffer)
    {Q : α → VirtualRuntime → Prop} {E : VirtualRuntimeError → VirtualRuntime → Prop} {P : Prop}
    (hrest : offset + length ≤ min buffer.bytes.length (2 ^ 64 - 1) →
      Meets (rest buffer) Q E P runtime)
    (hE : ¬ offset + length ≤ min buffer.bytes.length (2 ^ 64 - 1) →
      E .invalidBufferRange runtime) :
    Meets (do
      let record ← bufferAt i
      let stop ← lift (okOr .invalidBufferRange (checkedAdd offset length))
      refuse (decide (record.bytes.length < stop)) .invalidBufferRange
      expect (if stop ≤ record.initialized.length then some () else none)
      rest record) Q E P runtime := by
  rw [meets_bind, meets_recordAt hbuffer, meets_bind]
  refine meets_lift_okOr (fun hnone => hE ?_) fun stop hstop => ?_
  · have hlarge := checkedAdd_eq_none.mp hnone
    omega
  · rcases checkedAdd_eq_some.mp hstop with ⟨rfl, hsmall⟩
    refine meets_bind_refuse (fun hpast => hE ?_) fun hfits => ?_
    · have hpast := of_decide_eq_true hpast
      omega
    · have hfits := of_decide_eq_false hfits
      rw [h.lengths (mem_of_getElem? hbuffer), if_pos (by omega)]
      exact hrest (by omega)

section

variable (handle : VirtualBufferHandle)

theorem writeFromHost_serves (offset : Nat)
    (source : List UInt8) (initialized : List Bool) (hlength : initialized.length = source.length) :
    Serves (runtime.inRange handle offset source.length)
      (writeFromHost handle offset source initialized) runtime := by
  unfold Serves writeFromHost
  rw [meets_bind]
  refine meets_hostAccessibleBufferIndex (fun i buffer hbuffer hhandle _ _ => ?_) fun _ => .refl h
  refine h.meets_hostRange hbuffer (fun _ => ?_) fun _ => .refl h
  refine .rewrite h (Rewritten.refl.modify hbuffer hbuffer (fun _ => rfl) length_overwrite
    length_overwrite fun p hp => ?_)
  obtain hp | ⟨hle, hp⟩ := getElem?_overwrite hp
  · exact .inl hp
  · obtain ⟨hlt, -⟩ := List.getElem?_eq_some_iff.mp hp
    exact .inr (.inr ⟨⟨buffer, hbuffer, hhandle⟩, hle, by omega⟩)

theorem copyFromHost_serves (offset : Nat)
    (source : List UInt8) :
    Serves (runtime.inRange handle offset source.length) (copyFromHost handle offset source)
      runtime :=
  writeFromHost_serves h handle offset source _ (length_map _)

theorem copyFromHostWithInitialization_serves
    (offset : Nat) (source : List UInt8) (initialized : List Bool) :
    Serves (runtime.inRange handle offset source.length)
      (copyFromHostWithInitialization handle offset source initialized) runtime := by
  refine meets_bind_refuse (fun _ => .refl h) fun hlength => ?_
  exact writeFromHost_serves h handle offset source initialized
    (by simpa using Eq.symm (bne_eq_false_iff_eq.mp hlength))

/-- What a host read returns: bytes of a buffer that is not held, all of them initialized. -/
theorem meets_copyToHost (offset length : Nat) :
    Meets (copyToHost handle offset length)
      (fun bytes next => next = runtime ∧ ∃ (i : Nat) (buffer : BufferRecord),
        runtime.buffers[i]? = some buffer ∧ buffer.handle = handle ∧ buffer.released = false ∧
        buffer.retainedDispatches = 0 ∧ offset + length ≤ buffer.bytes.length ∧
        bytes = (buffer.bytes.drop offset).take length ∧
        ∀ p, offset ≤ p → p < offset + length → buffer.initialized[p]? = some true)
      (fun _ next => next = runtime) False runtime := by
  unfold copyToHost
  rw [meets_bind]
  refine meets_hostAccessibleBufferIndex (fun i buffer hbuffer hhandle hlive hfree => ?_)
    fun _ => rfl
  refine h.meets_hostRange hbuffer (fun hfits => ?_) fun _ => rfl
  have hbytes : offset + length ≤ buffer.bytes.length := le_trans hfits (min_le_left _ _)
  cases hscan : ((buffer.initialized.drop offset).take length).findIdx? (!·) with
  | some relative => exact rfl
  | none =>
    rw [findIdx?_uninitialized (by rwa [h.lengths (mem_of_getElem? hbuffer)])] at hscan
    exact ⟨rfl, i, buffer, hbuffer, hhandle, hlive, hfree, hbytes, rfl, hscan⟩

theorem copyToHost_serves (offset length : Nat) :
    Serves wrote (copyToHost handle offset length) runtime :=
  (meets_copyToHost h handle offset length).mono (fun _ _ hnext => hnext.1.symm ▸ .refl h)
    (fun _ _ hnext => hnext.symm ▸ .refl h) False.elim

theorem bufferSnapshot_serves : Serves wrote (bufferSnapshot handle) runtime := by
  unfold Serves bufferSnapshot
  rw [meets_bind]
  refine meets_hostAccessibleBufferIndex (fun i buffer hbuffer _ _ _ => ?_) fun _ => .refl h
  rw [meets_bind, meets_recordAt hbuffer]
  exact .refl h

/-! ### Releases -/

theorem releaseBuffer_serves : Serves wrote (releaseBuffer handle) runtime := by
  unfold Serves releaseBuffer
  refine meets_bind_recordAt (fun i buffer hbuffer _ => ?_) fun _ => .refl h
  refine meets_bind_refuse (fun _ => .refl h) fun hlive => ?_
  rw [meets_bind]
  refine meets_advanceModel h.coherent.valid (fun next hnext => ?_) fun _ _ => .refl h
  have houtline : runtime.outlines[i]? = some buffer.outline :=
    getElem?_outlines.mpr ⟨buffer, hbuffer, rfl⟩
  have hle : buffer.bytes.length ≤ runtime.totalUserBytes := by
    rw [h.coherent.total]
    exact le_sum_of_mem
      (mem_map_of_mem (f := Outline.byteLen) (mem_of_getElem? houtline))
  rw [meets_bind, meets_read, meets_bind, meets_expect, checkedSub, if_pos hle]
  refine ⟨fun total htotal => ?_, fun hnone => by cases hnone⟩
  cases htotal
  refine ⟨⟨?_, fun j later hlater => ?_⟩, rfl, fun j old hold => ?_,
    fun _ _ hlater hnew => absurd hnew (not_added (length_modify ..) hlater),
    fun j dispatch hdispatch => ⟨dispatch, hdispatch, rfl, rfl, rfl, .inl rfl⟩⟩
  · have hcoherent := h.coherent.releaseBuffer houtline (hnext.valid h.coherent.valid)
      (accepts_releaseBuffer hnext)
    have houtlines : (runtime.buffers.modify i fun record =>
        { record with bytes := [], initialized := [], released := true }).map BufferRecord.outline =
        runtime.outlines.modify i Outline.release := map_modify fun _ => rfl
    rw [← houtlines] at hcoherent
    exact hcoherent
  · obtain ⟨old, hold, rfl | ⟨rfl, rfl⟩⟩ := getElem?_modify_cases hlater
    · exact h.retained j later hold
    · exact h.retained i old hold
  · obtain ⟨later, hlater, rfl | ⟨rfl, rfl⟩⟩ := exists_getElem?_modify
      (f := fun record : BufferRecord =>
        { record with bytes := [], initialized := [], released := true }) hold i
    · exact ⟨later, hlater, rfl, fun p hp => .inl hp⟩
    · exact ⟨_, hlater, rfl, fun p hp => by cases hp⟩

end

theorem releaseModule_serves (handle : VirtualModuleHandle) :
    Serves wrote (releaseModule handle) runtime := by
  unfold Serves releaseModule
  refine meets_bind_recordAt (fun i module hmodule _ => ?_) fun _ => .refl h
  refine meets_bind_refuse (fun _ => .refl h) fun _ => ?_
  rw [meets_bind]
  refine meets_advanceModel h.coherent.valid (fun next hnext => ?_) fun _ _ => .refl h
  exact ⟨⟨h.coherent.releaseModule hmodule (hnext.valid h.coherent.valid)
    (accepts_releaseModule hnext), h.retained⟩, .of_same rfl rfl rfl⟩

/-- The model accepts the release of a queue only without prepared dispatches. -/
theorem Inv.idle_of_release {queue : QueueRecord} (hmem : queue ∈ runtime.queues)
    (hidle : ∀ record ∈ runtime.model.dispatches, record.key.queue = queue.queue →
      record.state.retainsResources = false) :
    ∀ dispatch ∈ runtime.dispatches, dispatch.queue = queue.handle →
    dispatch.state ≠ .prepared := by
  intro dispatch hdispatch hsame hprepared
  obtain ⟨record, hfound, hfits⟩ := h.coherent.dispatchesFit.found dispatch hdispatch
  obtain ⟨other, hother, hhandle, hkey⟩ := hfits.queue
  obtain rfl := eq_of_same_key h.coherent.handles.queues.distinct hother hmem (hhandle.trans hsame)
  have hretains := hidle record (lookup_mem hfound) (by rw [lookup_key hfound, hkey])
  rw [hfits.state, retainsResources_modelState, hprepared] at hretains
  nomatch hretains

theorem releaseQueue_serves (handle : VirtualQueueHandle) :
    Serves wrote (releaseQueue handle) runtime := by
  unfold Serves releaseQueue
  refine meets_bind_recordAt (fun i queue hqueue _ => ?_) fun _ => .refl h
  refine meets_bind_refuse (fun _ => .refl h) fun _ => ?_
  rw [meets_bind]
  refine meets_advanceModel h.coherent.valid (fun next hnext => ?_) fun _ _ => .refl h
  obtain ⟨hidle, hsame⟩ := accepts_releaseQueue hnext
  refine ⟨⟨h.coherent.releaseQueue hqueue ?_ (hnext.valid h.coherent.valid) hsame, h.retained⟩,
    .of_same rfl rfl rfl⟩
  exact h.idle_of_release (mem_of_getElem? hqueue) hidle

theorem quiesceQueue_serves (handle : VirtualQueueHandle) :
    Serves wrote (quiesceQueue handle) runtime := by
  unfold Serves quiesceQueue
  refine meets_bind_lift (fun i hindex => ?_) fun _ _ => .refl h
  obtain ⟨queue, hqueue, rfl⟩ := record_of_indexOf hindex
  unfold requireLiveQueue
  rw [meets_bind, meets_bind, meets_recordAt hqueue, meets_refuse]
  refine ⟨fun _ => .refl h, fun hlive => ?_⟩
  cases hprepared : runtime.preparedCompletionOnQueue queue.handle none with
  | some completion => exact .refl h
  | none =>
    rw [meets_bind, meets_recordAt hqueue, meets_bind]
    refine meets_advanceModel h.coherent.valid (fun next hnext => ?_) fun _ _ => .refl h
    have hidle : ∀ dispatch ∈ runtime.dispatches, dispatch.queue = queue.handle →
        dispatch.state ≠ .prepared := by
      intro dispatch hmem hsame hstate
      nomatch preparedCompletionOnQueue_eq_none.mp hprepared dispatch hmem hsame hstate
    exact ⟨⟨h.coherent.quiesceQueue hqueue (Bool.or_eq_false_iff.mp hlive).1 hidle
      (hnext.valid h.coherent.valid) (accepts_quiesceQueue hnext), h.retained⟩,
        .of_same rfl rfl rfl⟩

/-! ### Observers -/

/-- An observer of a completion changes nothing. -/
theorem observe_serves {α : Type} (completion : VirtualCompletionHandle)
    (f : DispatchRecordLocal → α) : Serves wrote (do return f (← dispatch completion)) runtime := by
  unfold Serves dispatch
  rw [meets_bind, meets_bind, meets_read]
  refine meets_bind_lift (fun i hindex => ?_) fun _ _ => .refl h
  obtain ⟨record, hrecord, -⟩ := record_of_indexOf hindex
  rw [meets_recordAt hrecord]
  exact .refl h

end

end VirtualRuntime

end Fe2o3.Virtual
