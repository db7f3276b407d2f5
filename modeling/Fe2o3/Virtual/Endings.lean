import Fe2o3.Virtual.TableCalls

/-!
# How dispatches leave the prepared state without running

They are abandoned, become ambiguous, or are settled after ambiguity.  Becoming
ambiguous forgets the bytes that the dispatch may write.
-/

namespace Fe2o3.Virtual

open Lib KernelIr RuntimeModel Command List

/-- A byte of a buffer that a dispatch may write. -/
def DispatchRecordLocal.Writable (dispatch : DispatchRecordLocal) (handle : VirtualBufferHandle)
    (p : Nat) : Prop :=
  ∃ view elementBytes stop, VirtualArgument.buffer view ∈ dispatch.request.arguments ∧
    view.access ≠ .readOnly ∧ view.buffer = handle ∧
    virtualScalarBytes view.element = some elementBytes ∧
    viewEnd view.byteOffset view.elements elementBytes = some stop ∧ view.byteOffset ≤ p ∧ p < stop

/-- What the host can see of a buffer. -/
def BufferRecord.contents (buffer : BufferRecord) : List UInt8 × List Bool :=
  (buffer.bytes, buffer.initialized)

/-- The bytes of a range are no longer initialized. -/
def BufferRecord.forget (start stop : Nat) (buffer : BufferRecord) : BufferRecord :=
  { buffer with
    initialized := overwrite start (List.replicate (stop - start) false) buffer.initialized }

variable {buffer : BufferRecord} {stop j start p : Nat}
  {f : DispatchRecordLocal → DispatchRecordLocal}

namespace VirtualRuntime

/-- No buffer has other contents. -/
def Untouched (before after : VirtualRuntime) : Prop :=
  after.buffers.map BufferRecord.contents = before.buffers.map BufferRecord.contents

variable {runtime : VirtualRuntime} {wrote : Nat → Nat → Prop} {model : RuntimeState} {i : Nat}
  {dispatch : DispatchRecordLocal} {state : VirtualCompletionState}
  {E : VirtualRuntimeError → VirtualRuntime → Prop} {P : Prop} {Q : Unit → VirtualRuntime → Prop}

/-! ### Ends -/

section

variable (h : runtime.Inv)
include h

/-- The last step of a dispatch, once the model and its record have moved. -/
theorem meets_finish {start : VirtualRuntime} (hdispatch : runtime.dispatches[i]? = some dispatch)
    (hunresolved : dispatch.state.unresolved = true) (hstart : start = { runtime with
      model := model, dispatches := runtime.dispatches.modify i f }) (hf : ∀ d, f d = { d with
      state := state, ambiguity := (f d).ambiguity, summary := (f d).summary })
    (hdone : Q () { runtime with
      model := model
      dispatches := runtime.dispatches.modify i f
      buffers := modifyAll dispatch.retainedBuffers BufferRecord.unretain runtime.buffers }) :
    Meets (releaseDispatchBufferRetention i) Q E P start := by
  subst hstart
  have hmem := mem_of_getElem? hdispatch
  have hmodified : (runtime.dispatches.modify i f)[i]? = some (f dispatch) :=
    getElem?_modify_self hdispatch
  have hretained : (f dispatch).retainedBuffers = dispatch.retainedBuffers := by rw [hf]
  unfold releaseDispatchBufferRetention
  rw [meets_bind, meets_recordAt hmodified, hretained]
  refine meets_recount (checkedSub · 1) (f := .unretain) (fun _ => rfl)
    (h.coherent.arguments dispatch hmem).nodup (fun j hj => ?_) ?_
  · obtain ⟨buffer, hbuffer, -, hpos⟩ := h.held hmem hunresolved hj
    exact ⟨buffer, hbuffer, if_pos hpos⟩
  · exact hdone

omit h in
theorem untouched_finish :
    Untouched runtime { runtime with
      model := model
      dispatches := runtime.dispatches.modify i f
      buffers := modifyAll dispatch.retainedBuffers BufferRecord.unretain runtime.buffers } :=
  map_modifyAll_of_eq (f := BufferRecord.unretain) fun _ => rfl

/-- A prepared dispatch can always be abandoned. -/
theorem meets_abandonPrepared (hdispatch : runtime.dispatches[i]? = some dispatch)
    (hprepared : dispatch.state = .prepared)
    (hstate : state.modelState = .abortedBeforePublication) : Meets (abandonPrepared i state)
      (fun _ next => Kept nowhere runtime next ∧ Ends i state runtime next ∧ Untouched runtime next)
      (fun _ _ => False) False runtime := by
  have hunresolved : dispatch.state.unresolved = true := by
    rw [hprepared]
    rfl
  have hresolved : state.unresolved = false := by
    rw [← retainsResources_modelState, hstate]
    rfl
  unfold abandonPrepared
  rw [meets_bind, meets_recordAt hdispatch, meets_bind]
  refine meets_advanceModel h.coherent.valid (fun next hnext => ?_) fun hnever => ?_
  · have hmoves := Virtual.accepts_abort h.coherent.valid hnext
    rw [← hstate] at hmoves
    refine meets_finish h hdispatch hunresolved rfl (fun _ => rfl) ⟨?_, ⟨_, fun _ => rfl, rfl⟩,
      untouched_finish⟩
    exact .finish h hdispatch hunresolved (fun _ => rfl) hresolved (.inr (.inl hprepared)) hmoves
  · obtain ⟨next, hnext⟩ := h.coherent.accepts_abort (mem_of_getElem? hdispatch) hprepared
    exact absurd hnext (hnever next)

theorem cancelCompletion_serves (completion : VirtualCompletionHandle) :
    Serves wrote (cancelCompletion completion) runtime := by
  unfold Serves cancelCompletion
  refine meets_bind_recordAt (fun i dispatch hdispatch _ => ?_) fun _ => .refl h
  refine meets_bind_refuse (fun _ => .refl h) fun hprepared => ?_
  exact (meets_abandonPrepared h hdispatch (by simpa using hprepared) rfl).mono
    (fun _ _ hnext => hnext.1.mono fun _ _ => False.elim) (fun _ _ => False.elim) False.elim

theorem settleAmbiguousCompletion_serves (completion : VirtualCompletionHandle) :
    Serves wrote (settleAmbiguousCompletion completion) runtime := by
  unfold Serves settleAmbiguousCompletion
  refine meets_bind_recordAt (fun i dispatch hdispatch _ => ?_) fun _ => .refl h
  refine meets_bind_refuse (fun _ => .refl h) fun hstate => ?_
  have hambiguous : dispatch.state = .ambiguous := by simpa using hstate
  have hunresolved : dispatch.state.unresolved = true := by
    rw [hambiguous]
    rfl
  refine meets_bind_recordAt (fun j queue hqueue _ => ?_) fun _ => .refl h
  refine meets_bind_refuse (fun _ => .refl h) fun _ => ?_
  rw [meets_bind]
  refine meets_advanceModel h.coherent.valid (fun next hnext => ?_) fun _ _ => .refl h
  have hmoves := Virtual.accepts_settle h.coherent.valid hnext
  have hresolved : VirtualCompletionState.failedQuiescent.unresolved = false := rfl
  refine meets_finish h hdispatch hunresolved rfl (fun _ => rfl) ?_
  exact .finish h hdispatch hunresolved (fun _ => rfl) hresolved (.inr (.inr ⟨hambiguous, rfl⟩))
    hmoves

/-! ### Ambiguity -/

/-- A view of a dispatch has its buffer among those the dispatch holds. -/
theorem Inv.view_held (hmem : dispatch ∈ runtime.dispatches)
    (hunresolved : dispatch.state.unresolved = true) {view : BufferView}
    (hview : VirtualArgument.buffer view ∈ dispatch.request.arguments) :
    ∃ (j : Nat) (buffer : BufferRecord) (elementBytes stop : Nat),
      j ∈ dispatch.retainedBuffers ∧ runtime.buffers[j]? = some buffer ∧
      buffer.handle = view.buffer ∧ virtualScalarBytes view.element = some elementBytes ∧
      viewEnd view.byteOffset view.elements elementBytes = some stop ∧
      stop ≤ buffer.bytes.length := by
  obtain ⟨hnodup, hnamed, hviews⟩ := h.coherent.arguments dispatch hmem
  obtain ⟨j, outline, elementBytes, stop, houtline, hhandle, hbytes, hstop, hfits⟩ :=
    hviews view hview
  have hheld : j ∈ dispatch.retainedBuffers :=
    (hnamed j outline houtline).mpr ⟨view, hview, hhandle.symm⟩
  obtain ⟨buffer, hbuffer, hlive, -⟩ := h.held hmem hunresolved hheld
  obtain ⟨found, hfound, rfl⟩ := getElem?_outlines.mp houtline
  cases hbuffer.symm.trans hfound
  exact ⟨j, buffer, elementBytes, stop, hheld, hbuffer, hhandle, hbytes, hstop, hfits hlive⟩

omit h in
theorem viewEnd_eq_some {byteOffset elements elementBytes : Nat}
    (h : viewEnd byteOffset elements elementBytes = some stop) : byteOffset ≤ stop := by
  obtain ⟨bytes, -, hstop⟩ := Option.bind_eq_some_iff.mp h
  obtain ⟨rfl, -⟩ := checkedAdd_eq_some.mp hstop
  exact Nat.le_add_right _ _

/-- A range of an existing buffer. -/
def RangeFits (runtime : VirtualRuntime) (range : Nat × Nat × Nat) : Prop :=
  ∃ buffer, runtime.buffers[range.1]? = some buffer ∧ range.2.1 ≤ range.2.2 ∧
    range.2.2 ≤ buffer.initialized.length

/-- The ranges cover the bytes that some arguments may write. -/
def Covers (runtime : VirtualRuntime) (arguments : List VirtualArgument)
    (ranges : List (Nat × Nat × Nat)) : Prop :=
  ∀ view, VirtualArgument.buffer view ∈ arguments → view.access ≠ .readOnly →
    ∀ elementBytes stop, virtualScalarBytes view.element = some elementBytes →
      viewEnd view.byteOffset view.elements elementBytes = some stop →
      ∃ j buffer, runtime.buffers[j]? = some buffer ∧ buffer.handle = view.buffer ∧
        (j, view.byteOffset, stop) ∈ ranges

theorem Inv.buffer_position {k : Nat} {other : BufferRecord}
    (hj : runtime.buffers[j]? = some buffer) (hk : runtime.buffers[k]? = some other)
    (hsame : buffer.handle = other.handle) : j = k :=
  position_unique h.coherent.handles.buffers.distinct (getElem?_outlines.mpr ⟨buffer, hj, rfl⟩)
    (getElem?_outlines.mpr ⟨other, hk, rfl⟩) hsame

/-- The handle of a buffer finds its position. -/
theorem Inv.bufferIndex_eq (hbuffer : runtime.buffers[j]? = some buffer) :
    runtime.bufferIndex buffer.handle = .ok j := by
  have hmem := mem_of_getElem? hbuffer
  have hissued := h.coherent.handles.buffers.issued buffer.outline (mem_map_of_mem hmem)
  obtain ⟨k, hindex⟩ : ∃ k, runtime.bufferIndex buffer.handle = .ok k :=
    exists_indexOf hissued.1 (mem_map_of_mem hmem)
  obtain ⟨found, hfound, hhandle⟩ := record_of_indexOf hindex
  obtain rfl := h.buffer_position hfound hbuffer hhandle
  exact hindex

/-- One argument of an unresolved dispatch. -/
theorem meets_writableRange (hmem : dispatch ∈ runtime.dispatches)
    (hunresolved : dispatch.state.unresolved = true) {argument : VirtualArgument}
    (hargument : argument ∈ dispatch.request.arguments) : Meets (writableRange dispatch argument)
      (fun range next => next = runtime ∧ (∀ r, range = some r → runtime.RangeFits r) ∧
        runtime.Covers [argument] range.toList)
      (fun _ _ => False) False runtime := by
  cases argument with
  | scalar value =>
    refine ⟨rfl, fun r hr => (nomatch hr), fun view hview => ?_⟩
    nomatch mem_singleton.mp hview
  | buffer view =>
    dsimp only [writableRange]
    by_cases hread : view.access = .readOnly
    · rw [if_pos hread]
      refine ⟨rfl, fun r hr => (nomatch hr), fun other hother haccess => ?_⟩
      obtain rfl := VirtualArgument.buffer.inj (mem_singleton.mp hother)
      exact absurd hread haccess
    · rw [if_neg hread]
      obtain ⟨j, buffer, elementBytes, stop, hheld, hbuffer, hhandle, hbytes, hstop, hfits⟩ :=
        h.view_held hmem hunresolved hargument
      rw [meets_bind, meets_expect, hbytes]
      refine ⟨fun count hcount => ?_, nofun⟩
      cases hcount
      rw [meets_bind, meets_expect, hstop]
      refine ⟨fun last hlast => ?_, nofun⟩
      cases hlast
      rw [meets_bind, meets_read, meets_bind, meets_expect]
      refine ⟨fun k hk => ?_, fun hnone => ?_⟩
      · have hfound := find?_some hk
        have hsome := eq_of_beq hfound
        obtain ⟨other, hother, hsame⟩ := Option.map_eq_some_iff.mp hsome
        obtain rfl := h.buffer_position hother hbuffer (hsame.trans hhandle.symm)
        refine ⟨rfl, fun r hr => ?_, fun found hview _ count last hcount hlast => ?_⟩
        · cases hr
          refine ⟨buffer, hbuffer, viewEnd_eq_some hstop, ?_⟩
          rw [h.lengths (mem_of_getElem? hbuffer)]
          exact hfits
        · obtain rfl := VirtualArgument.buffer.inj (mem_singleton.mp hview)
          cases hbytes.symm.trans hcount
          cases hstop.symm.trans hlast
          exact ⟨k, buffer, hbuffer, hhandle, mem_singleton_self _⟩
      · have hnot := find?_eq_none.mp hnone j hheld
        exact absurd (by simp [hbuffer, hhandle]) hnot

theorem meets_collectRanges (hmem : dispatch ∈ runtime.dispatches)
    (hunresolved : dispatch.state.unresolved = true) {arguments : List VirtualArgument}
    (harguments : ∀ argument ∈ arguments, argument ∈ dispatch.request.arguments) :
    Meets (collectRanges dispatch arguments)
      (fun ranges next => next = runtime ∧ (∀ range ∈ ranges, runtime.RangeFits range) ∧
        runtime.Covers arguments ranges)
      (fun _ _ => False) False runtime := by
  induction arguments with
  | nil => exact ⟨rfl, nofun, nofun⟩
  | cons argument arguments ih =>
    refine (meets_writableRange h hmem hunresolved
      (harguments argument (mem_cons_self ..))).bind ?_ fun _ _ => False.elim
    rintro range _ ⟨rfl, hrange, hcovers⟩
    refine (ih fun argument hargument =>
      harguments argument (mem_cons_of_mem _ hargument)).bind ?_ fun _ _ => False.elim
    rintro ranges _ ⟨rfl, hranges, hrest⟩
    refine ⟨rfl, fun r hr => ?_, fun view hview haccess elementBytes stop hbytes hstop => ?_⟩
    · obtain hr | hr := mem_append.mp hr
      · exact hrange r (Option.mem_toList.mp hr)
      · exact hranges r hr
    · obtain rfl | hview := mem_cons.mp hview
      · obtain ⟨j, buffer, hbuffer, hhandle, hin⟩ :=
          hcovers view (mem_singleton_self _) haccess elementBytes stop hbytes hstop
        exact ⟨j, buffer, hbuffer, hhandle, mem_append_left _ hin⟩
      · obtain ⟨j, buffer, hbuffer, hhandle, hin⟩ :=
          hrest view hview haccess elementBytes stop hbytes hstop
        exact ⟨j, buffer, hbuffer, hhandle, mem_append_right _ hin⟩

theorem meets_dispatchWritableRanges (environment : Environment)
    (hdispatch : runtime.dispatches[i]? = some dispatch)
    (hunresolved : dispatch.state.unresolved = true) : Meets (dispatchWritableRanges environment i)
      (fun ranges next => next = runtime ∧ (∀ range ∈ ranges, runtime.RangeFits range) ∧
        runtime.Covers dispatch.request.arguments ranges)
      (fun _ next => next = runtime) False runtime := by
  have hmem := mem_of_getElem? hdispatch
  unfold dispatchWritableRanges
  rw [meets_bind, meets_recordAt hdispatch]
  refine meets_bind_refuse (fun _ => rfl) fun _ => ?_
  rw [meets_bind]
  refine meets_forM (fun _ next => next = runtime) rfl ?_ ?_
  · rintro seen j rest _ hsplit rfl
    obtain ⟨buffer, hbuffer, -⟩ := h.held hmem hunresolved
      (hsplit ▸ mem_append_right seen (mem_cons_self ..))
    rw [meets_bind, meets_recordAt hbuffer]
    exact rfl
  · rintro _ rfl
    exact (meets_collectRanges h hmem hunresolved fun _ hargument => hargument).mono
      (fun _ _ hranges => hranges) (fun _ _ => False.elim) False.elim

omit h in
/-- Forgetting initializes nothing. -/
theorem of_initialized_forget (h : (buffer.forget start stop).initialized[p]? = some true) :
    buffer.initialized[p]? = some true := by
  obtain hp | ⟨-, hp⟩ := getElem?_overwrite h
  · exact hp
  · nomatch eq_of_mem_replicate (mem_of_getElem? hp)

omit h in
theorem initialized_forget (hlow : start ≤ p) (hhigh : p < stop)
    (hlength : stop ≤ buffer.initialized.length) :
    (buffer.forget start stop).initialized[p]? ≠ some true := by
  have hnew : (List.replicate (stop - start) false)[p - start]? = some false := by
    rw [getElem?_replicate, if_pos (by omega)]
  have hfalse : (buffer.forget start stop).initialized[p]? = some false := by
    rw [BufferRecord.forget, overwrite, getElem?_mapIdx,
      getElem?_eq_getElem (show p < buffer.initialized.length by omega), Option.map_some,
      if_pos hlow, hnew]
    rfl
  intro hp
  nomatch hfalse.symm.trans hp

omit h in
/-- The loop that forgets ranges. -/
theorem meets_forgetRanges {ranges : List (Nat × Nat × Nat)}
    (hfits : ∀ range ∈ ranges, runtime.RangeFits range)
    (hdone : ∀ buffers, Rewritten nowhere runtime.buffers buffers →
      (∀ range ∈ ranges, ∀ later, buffers[range.1]? = some later →
        ∀ p, range.2.1 ≤ p → p < range.2.2 → later.initialized[p]? ≠ some true) →
      Q () { runtime with buffers := buffers }) :
    Meets (ranges.forM forgetRange) Q E P runtime := by
  refine meets_forM (fun seen next => ∃ buffers, next = { runtime with buffers := buffers } ∧
    Rewritten nowhere runtime.buffers buffers ∧
    ∀ range ∈ seen, ∀ later, buffers[range.1]? = some later →
      ∀ p, range.2.1 ≤ p → p < range.2.2 → later.initialized[p]? ≠ some true) ?_ ?_ ?_
  · exact ⟨runtime.buffers, rfl, .refl, nofun⟩
  · rintro seen range rest _ rfl ⟨buffers, rfl, hrewritten, hforgot⟩
    obtain ⟨buffer, hbuffer, hle, hlength⟩ :=
      hfits range (mem_append_right _ (mem_cons_self ..))
    obtain ⟨later, hlater, houtline⟩ := hrewritten.exists_later hbuffer
    have hsame : later.initialized.length = buffer.initialized.length :=
      congrArg Outline.initializedLen houtline
    unfold forgetRange
    rw [meets_bind, meets_recordAt hlater, if_pos ⟨hle, hsame ▸ hlength⟩, meets_bind, meets_expect]
    refine ⟨fun _ _ => ?_, nofun⟩
    refine ⟨_, rfl, hrewritten.modify (f := BufferRecord.forget range.2.1 range.2.2) hbuffer hlater
      (fun _ => rfl) rfl length_overwrite fun p hp => .inr (.inl (of_initialized_forget hp)), ?_⟩
    intro other hother final hfinal p hlow hhigh hp
    obtain ⟨middle, hmiddle, hcases⟩ :=
      getElem?_modify_cases (f := BufferRecord.forget range.2.1 range.2.2) hfinal
    obtain hother | hother := mem_append.mp hother
    · obtain rfl | ⟨-, rfl⟩ := hcases
      · exact hforgot other hother final hmiddle p hlow hhigh hp
      · exact hforgot other hother middle hmiddle p hlow hhigh (of_initialized_forget hp)
    · obtain rfl := mem_singleton.mp hother
      have hself := getElem?_modify_self (f := BufferRecord.forget other.2.1 other.2.2) hlater
      cases hself.symm.trans hfinal
      exact initialized_forget hlow hhigh (hsame ▸ hlength) hp
  · rintro _ ⟨buffers, rfl, hrewritten, hforgot⟩
    exact hdone buffers hrewritten hforgot

/-- A dispatch that becomes ambiguous: no byte it may write is initialized. -/
theorem meets_transitionToAmbiguous (environment : Environment)
    (completion : VirtualCompletionHandle) (reason : VirtualCompletionAmbiguity) :
    Meets (transitionToAmbiguous environment completion reason)
      (fun _ next => Kept nowhere runtime next ∧ ∃ i dispatch,
        runtime.dispatches[i]? = some dispatch ∧ dispatch.completion = completion ∧
        dispatch.state = .prepared ∧ Ends i .ambiguous runtime next ∧
        ∀ (j : Nat) (later : BufferRecord), next.buffers[j]? = some later →
          ∀ p, dispatch.Writable later.handle p → later.initialized[p]? ≠ some true)
      (fun _ next => next = runtime) False runtime := by
  unfold transitionToAmbiguous
  refine meets_bind_recordAt (fun i dispatch hdispatch hcompletion => ?_) fun _ => rfl
  refine meets_bind_refuse (fun _ => rfl) fun hstate => ?_
  have hprepared : dispatch.state = .prepared := by simpa using hstate
  cases runtime.preparedCompletionOnQueue dispatch.queue (some dispatch.completion) with
  | some sibling => exact rfl
  | none =>
    rw [meets_bind]
    refine (meets_dispatchWritableRanges h environment hdispatch (by rw [hprepared]; rfl)).mono ?_
      (fun _ _ hnext => hnext) False.elim
    rintro ranges _ ⟨rfl, hfits, hcovers⟩
    rw [meets_bind]
    refine meets_advanceModel h.coherent.valid (fun model hmodel => ?_) fun _ _ => rfl
    have hmoves := accepts_ambiguous h.coherent.valid hmodel
    refine meets_forgetRanges hfits fun buffers hrewritten hforgot => ?_
    have hrewrite : Kept nowhere _ _ := .rewrite h hrewritten
    refine ⟨?_, i, dispatch, hdispatch, hcompletion, hprepared, ⟨_, fun _ => rfl, rfl⟩,
      fun j later hlater p hwritable => ?_⟩
    · exact hrewrite.trans (.ambiguous hrewrite.1 hdispatch hprepared (fun _ => rfl) hmoves)
    · obtain ⟨view, elementBytes, stop, hview, haccess, hsame, hbytes, hstop, hlow, hhigh⟩ :=
        hwritable
      obtain ⟨k, buffer, hbuffer, hhandle, hin⟩ :=
        hcovers view hview haccess elementBytes stop hbytes hstop
      obtain ⟨image, himage, houtline⟩ := hrewritten.exists_later hbuffer
      have hposition : k = j := by
        refine hrewrite.1.buffer_position himage hlater ?_
        rw [← hsame, ← hhandle]
        exact congrArg Outline.handle houtline
      subst hposition
      exact hforgot _ hin later hlater p hlow hhigh

theorem transitionToAmbiguous_serves (environment : Environment)
    (completion : VirtualCompletionHandle) (reason : VirtualCompletionAmbiguity) :
    Serves wrote (transitionToAmbiguous environment completion reason) runtime :=
  (meets_transitionToAmbiguous h environment completion reason).mono
    (fun _ _ hnext => hnext.1.mono fun _ _ => False.elim)
    (fun _ _ hnext => hnext.symm ▸ .refl h) False.elim

end

end VirtualRuntime

end Fe2o3.Virtual
