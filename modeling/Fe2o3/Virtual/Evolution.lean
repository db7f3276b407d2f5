import Fe2o3.Virtual.Rules

/-!
# What one call may change

Buffers keep their positions and handles, and a byte becomes initialized only where
something was written; dispatches keep their requests, and only a prepared one changes
its state freely.  The lemmas here combine this with the invariant for the changes that
the calls are made of: rewritten contents, a dispatch that ends, one that becomes
ambiguous, one that is added, and the loops over the buffers that a dispatch holds.
-/

namespace Fe2o3.Virtual

open Lib KernelIr RuntimeModel Command List

/-- The states a dispatch may have later. -/
def VirtualCompletionState.Precedes (before after : VirtualCompletionState) : Prop :=
  after = before ∨ before = .prepared ∨ before = .ambiguous ∧ after = .failedQuiescent

theorem VirtualCompletionState.Precedes.trans {first second third : VirtualCompletionState}
    (h : first.Precedes second) (h' : second.Precedes third) : first.Precedes third := by
  obtain rfl | rfl | ⟨rfl, rfl⟩ := h
  · exact h'
  · exact .inr (.inl rfl)
  · obtain rfl | h' | ⟨h', -⟩ := h'
    · exact .inr (.inr ⟨rfl, rfl⟩)
    · nomatch h'
    · nomatch h'

def BufferRecord.retain (buffer : BufferRecord) : BufferRecord :=
  { buffer with retainedDispatches := buffer.retainedDispatches + 1 }

def BufferRecord.unretain (buffer : BufferRecord) : BufferRecord :=
  { buffer with retainedDispatches := buffer.retainedDispatches - 1 }

variable {buffer later : BufferRecord} {buffers new old : List BufferRecord}
  {dispatches : List DispatchRecordLocal} {j : Nat} {wrote' : Nat → Nat → Prop}

namespace VirtualRuntime

/-- One generation goes on; `wrote` are the positions that were written. -/
structure Evolution (wrote : Nat → Nat → Prop) (before after : VirtualRuntime) : Prop where
  config : after.config = before.config
  buffers : ∀ (i : Nat) (buffer : BufferRecord), before.buffers[i]? = some buffer →
    ∃ later, after.buffers[i]? = some later ∧ later.handle = buffer.handle ∧
      ∀ p, later.initialized[p]? = some true → buffer.initialized[p]? = some true ∨ wrote i p
  added : ∀ (i : Nat) (later : BufferRecord), after.buffers[i]? = some later →
    before.buffers.length ≤ i → ∀ p, later.initialized[p]? = some true → wrote i p
  dispatches : ∀ (i : Nat) (dispatch : DispatchRecordLocal), before.dispatches[i]? = some dispatch →
    ∃ later, after.dispatches[i]? = some later ∧ later.completion = dispatch.completion ∧
      later.request = dispatch.request ∧ later.retainedBuffers = dispatch.retainedBuffers ∧
      dispatch.state.Precedes later.state

/-- Nothing was written. -/
def nowhere (_ _ : Nat) : Prop := False

/-- The invariant is kept while the generation goes on. -/
def Kept (wrote : Nat → Nat → Prop) (before after : VirtualRuntime) : Prop :=
  after.Inv ∧ Evolution wrote before after

/-- The dispatch at a position has taken another state, and no other dispatch changed. -/
def Ends (i : Nat) (state : VirtualCompletionState) (before after : VirtualRuntime) : Prop :=
  ∃ f : DispatchRecordLocal → DispatchRecordLocal,
    (∀ d, f d = { d with
      state := state, ambiguity := (f d).ambiguity, summary := (f d).summary }) ∧
    after.dispatches = before.dispatches.modify i f

variable {runtime next last : VirtualRuntime} {wrote : Nat → Nat → Prop} {model : RuntimeState}
  {i : Nat} {dispatch : DispatchRecordLocal} {state : VirtualCompletionState}

/-! ### Evolutions -/

/-- Without new buffers there is nothing to say about them. -/
theorem not_added {before after : List BufferRecord} (hlength : after.length = before.length)
    (hlater : after[i]? = some later) : ¬ before.length ≤ i := by
  intro hle
  obtain ⟨hlt, -⟩ := List.getElem?_eq_some_iff.mp hlater
  exact Nat.lt_irrefl _ (Nat.lt_of_lt_of_le (hlength ▸ hlt) hle)

/-- The tables of buffers and dispatches only grow, and new buffers are not initialized. -/
theorem Evolution.of_append (extra : List BufferRecord) (extraDispatches : List DispatchRecordLocal)
    (hconfig : next.config = runtime.config) (hbuffers : next.buffers = runtime.buffers ++ extra)
    (hextra : ∀ buffer ∈ extra, true ∉ buffer.initialized)
    (hdispatches : next.dispatches = runtime.dispatches ++ extraDispatches) :
    Evolution wrote runtime next where
  config := hconfig
  buffers := by
    intro i buffer hbuffer
    refine ⟨buffer, ?_, rfl, fun p hp => .inl hp⟩
    rw [hbuffers]
    exact getElem?_append_of_some hbuffer
  added := by
    intro i later hlater hle p hp
    rw [hbuffers, getElem?_append_right hle] at hlater
    exact absurd (mem_of_getElem? hp) (hextra later (mem_of_getElem? hlater))
  dispatches := by
    intro i dispatch hdispatch
    refine ⟨dispatch, ?_, rfl, rfl, rfl, .inl rfl⟩
    rw [hdispatches]
    exact getElem?_append_of_some hdispatch

theorem Evolution.of_same (hconfig : next.config = runtime.config)
    (hbuffers : next.buffers = runtime.buffers)
    (hdispatches : next.dispatches = runtime.dispatches) : Evolution wrote runtime next :=
  .of_append [] [] hconfig (by rw [hbuffers, append_nil]) nofun
    (by rw [hdispatches, append_nil])

theorem Evolution.mono (h : Evolution wrote runtime next) (hle : ∀ i p, wrote i p → wrote' i p) :
    Evolution wrote' runtime next := by
  refine { h with
    buffers := fun i buffer hbuffer => ?_
    added := fun i later hlater hnew p hp => ?_ }
  · obtain ⟨later, hlater, hhandle, hwrote⟩ := h.buffers i buffer hbuffer
    exact ⟨later, hlater, hhandle, fun p hp => (hwrote p hp).imp_right (hle i p)⟩
  · exact hle i p (h.added i later hlater hnew p hp)

theorem Evolution.trans (h : Evolution wrote runtime next) (h' : Evolution wrote next last) :
    Evolution wrote runtime last where
  config := h'.config.trans h.config
  buffers := by
    intro i buffer hbuffer
    obtain ⟨later, hlater, hhandle, hwrote⟩ := h.buffers i buffer hbuffer
    obtain ⟨final, hfinal, hhandle', hwrote'⟩ := h'.buffers i later hlater
    refine ⟨final, hfinal, hhandle'.trans hhandle, fun p hp => ?_⟩
    obtain hp | hp := hwrote' p hp
    · exact hwrote p hp
    · exact .inr hp
  added := by
    intro i final hfinal hnew p hp
    cases hmiddle : next.buffers[i]? with
    | none => exact h'.added i final hfinal (List.getElem?_eq_none_iff.mp hmiddle) p hp
    | some later =>
      obtain ⟨image, himage, -, hwrote⟩ := h'.buffers i later hmiddle
      cases hfinal.symm.trans himage
      obtain hp | hp := hwrote p hp
      · exact h.added i later hmiddle hnew p hp
      · exact hp
  dispatches := by
    intro i dispatch hdispatch
    obtain ⟨later, hlater, hcompletion, hrequest, hretained, hstate⟩ :=
      h.dispatches i dispatch hdispatch
    obtain ⟨final, hfinal, hcompletion', hrequest', hretained', hstate'⟩ :=
      h'.dispatches i later hlater
    exact ⟨final, hfinal, hcompletion'.trans hcompletion, hrequest'.trans hrequest,
      hretained'.trans hretained, hstate.trans hstate'⟩

theorem Kept.refl (h : runtime.Inv) : Kept wrote runtime runtime :=
  ⟨h, .of_same rfl rfl rfl⟩

theorem Kept.trans (h : Kept wrote runtime next) (h' : Kept wrote next last) :
    Kept wrote runtime last :=
  ⟨h'.1, h.2.trans h'.2⟩

theorem Kept.mono (h : Kept wrote runtime next) (hle : ∀ i p, wrote i p → wrote' i p) :
    Kept wrote' runtime next :=
  ⟨h.1, h.2.mono hle⟩

/-- One dispatch moves on, under buffers that keep their contents. -/
theorem Evolution.of_dispatch {f : DispatchRecordLocal → DispatchRecordLocal}
    (hconfig : next.config = runtime.config)
    (hdispatches : next.dispatches = runtime.dispatches.modify i f)
    (hbuffers : ∀ (j : Nat) (buffer : BufferRecord), runtime.buffers[j]? = some buffer →
      ∃ later, next.buffers[j]? = some later ∧ later.handle = buffer.handle ∧
        later.initialized = buffer.initialized)
    (hlength : next.buffers.length = runtime.buffers.length)
    (hdispatch : runtime.dispatches[i]? = some dispatch)
    (hf : ∀ d, f d = { d with
      state := state, ambiguity := (f d).ambiguity, summary := (f d).summary })
    (hstate : dispatch.state.Precedes state) : Evolution wrote runtime next where
  config := hconfig
  buffers := by
    intro j buffer hbuffer
    obtain ⟨later, hlater, hhandle, hsame⟩ := hbuffers j buffer hbuffer
    exact ⟨later, hlater, hhandle, fun p hp => .inl (hsame ▸ hp)⟩
  added := fun _ _ hlater hnew => absurd hnew (not_added hlength hlater)
  dispatches := by
    intro j other hother
    rw [hdispatches]
    obtain ⟨image, himage, rfl | ⟨rfl, rfl⟩⟩ := exists_getElem?_modify (f := f) hother i
    · exact ⟨image, himage, rfl, rfl, rfl, .inl rfl⟩
    · cases hdispatch.symm.trans hother
      refine ⟨f dispatch, himage, ?_, ?_, ?_, ?_⟩ <;> rw [hf]
      exact hstate

/-! ### Rewritten contents -/

/-- The contents of buffers changed, and nothing else about them. -/
structure Rewritten (wrote : Nat → Nat → Prop) (old new : List BufferRecord) : Prop where
  outlines : new.map BufferRecord.outline = old.map BufferRecord.outline
  retained : new.map BufferRecord.retainedDispatches = old.map BufferRecord.retainedDispatches
  initialized : ∀ (i : Nat) (buffer later : BufferRecord), old[i]? = some buffer →
    new[i]? = some later → ∀ p, later.initialized[p]? = some true →
      buffer.initialized[p]? = some true ∨ wrote i p

theorem Rewritten.refl : Rewritten wrote buffers buffers where
  outlines := rfl
  retained := rfl
  initialized := by
    intro i buffer later hbuffer hlater p hp
    cases hbuffer.symm.trans hlater
    exact .inl hp

/-- A buffer keeps its place, its handle and its lengths. -/
theorem Rewritten.exists_later (h : Rewritten wrote old new) (hbuffer : old[i]? = some buffer) :
    ∃ later, new[i]? = some later ∧ later.outline = buffer.outline := by
  have houtline : (new.map BufferRecord.outline)[i]? = some buffer.outline := by
    rw [h.outlines, getElem?_map, hbuffer]
    rfl
  rw [getElem?_map, Option.map_eq_some_iff] at houtline
  exact houtline

/-- One more buffer gets other contents of the same length. -/
theorem Rewritten.modify {f : BufferRecord → BufferRecord} (h : Rewritten wrote old new)
    (hbuffer : old[i]? = some buffer) (hlater : new[i]? = some later)
    (hf : ∀ record, f record = { record with
      bytes := (f record).bytes, initialized := (f record).initialized })
    (hbytes : (f later).bytes.length = later.bytes.length)
    (hlength : (f later).initialized.length = later.initialized.length)
    (hwrote : ∀ p, (f later).initialized[p]? = some true →
      buffer.initialized[p]? = some true ∨ later.initialized[p]? = some true ∨ wrote i p) :
    Rewritten wrote old (new.modify i f) where
  outlines := by
    rw [← h.outlines]
    obtain ⟨before, after, hsplit, hmodify⟩ := modify_split hlater
    have houtline : (f later).outline = later.outline := by
      unfold BufferRecord.outline
      rw [hbytes, hlength, hf]
    rw [hmodify, hsplit, map_append, map_append, map_cons, map_cons, houtline]
  retained := by
    rw [← h.retained]
    exact map_modify_of_eq fun record => by rw [hf]
  initialized := by
    intro j original final horiginal hfinal p hp
    obtain ⟨middle, hmiddle, rfl | ⟨rfl, rfl⟩⟩ := getElem?_modify_cases hfinal
    · exact h.initialized j original final horiginal hmiddle p hp
    · cases hbuffer.symm.trans horiginal
      cases hlater.symm.trans hmiddle
      obtain hp | hp | hp := hwrote p hp
      · exact .inl hp
      · exact h.initialized i buffer later hbuffer hlater p hp
      · exact .inr hp

/-- The invariant does not depend on contents. -/
theorem Inv.rewrite (h : runtime.Inv) (hrewritten : Rewritten wrote runtime.buffers buffers) :
    ({ runtime with buffers := buffers } : VirtualRuntime).Inv where
  coherent := by
    show Coherent _ _ _ _ _ _ (buffers.map BufferRecord.outline) _ _ _
    rw [hrewritten.outlines]
    exact h.coherent
  retained := by
    intro i buffer hbuffer
    have hcount : (buffers.map BufferRecord.retainedDispatches)[i]? =
        some buffer.retainedDispatches := by
      rw [getElem?_map]
      exact congrArg (Option.map BufferRecord.retainedDispatches) hbuffer
    rw [hrewritten.retained, getElem?_map, Option.map_eq_some_iff] at hcount
    obtain ⟨old, hold, hsame⟩ := hcount
    rw [← hsame]
    exact h.retained i old hold

theorem Kept.rewrite (h : runtime.Inv) (hrewritten : Rewritten wrote runtime.buffers buffers) :
    Kept wrote runtime { runtime with buffers := buffers } := by
  have hlength : buffers.length = runtime.buffers.length := by
    simpa using congrArg List.length hrewritten.outlines
  refine ⟨h.rewrite hrewritten, rfl, fun i buffer hbuffer => ?_,
    fun _ _ hlater hnew => absurd hnew (not_added hlength hlater), fun i dispatch hdispatch => ?_⟩
  · obtain ⟨later, hlater, houtline⟩ := hrewritten.exists_later hbuffer
    exact ⟨later, hlater, congrArg Outline.handle houtline,
      hrewritten.initialized i buffer later hbuffer hlater⟩
  · exact ⟨dispatch, hdispatch, rfl, rfl, rfl, .inl rfl⟩

/-! ### Retentions -/

theorem holders_append {new : DispatchRecordLocal} (hstate : new.state.unresolved = true) :
    holders (dispatches ++ [new]) i =
      holders dispatches i + if i ∈ new.retainedBuffers then 1 else 0 := by
  unfold holders
  simp [hstate]

/-- What holds a buffer when an unresolved dispatch moves to another state. -/
theorem holders_modify {f : DispatchRecordLocal → DispatchRecordLocal}
    (h : dispatches[j]? = some dispatch) (hunresolved : dispatch.state.unresolved = true)
    (hf : (f dispatch).retainedBuffers = dispatch.retainedBuffers) :
    holders (dispatches.modify j f) i + (if i ∈ dispatch.retainedBuffers then 1 else 0) =
      holders dispatches i +
        if (f dispatch).state.unresolved = true ∧ i ∈ dispatch.retainedBuffers then 1 else 0 := by
  have hcount := countP_modify (f := f) (p := fun dispatch =>
    dispatch.state.unresolved && dispatch.retainedBuffers.contains i) h
  unfold holders
  simpa [hunresolved, hf] using hcount

/-- A buffer that an unresolved dispatch holds is live and counted. -/
theorem Inv.held (h : runtime.Inv) (hmem : dispatch ∈ runtime.dispatches)
    (hunresolved : dispatch.state.unresolved = true) (hi : i ∈ dispatch.retainedBuffers) :
    ∃ buffer, runtime.buffers[i]? = some buffer ∧ buffer.released = false ∧
      0 < buffer.retainedDispatches := by
  obtain ⟨outline, houtline, hreleased⟩ := h.coherent.retained_live hmem hunresolved hi
  obtain ⟨buffer, hbuffer, rfl⟩ := getElem?_outlines.mp houtline
  refine ⟨buffer, hbuffer, hreleased, ?_⟩
  rw [h.retained i buffer hbuffer]
  apply countP_pos_iff.mpr
  exact ⟨dispatch, hmem, by simp [hunresolved, hi]⟩

/-- Counting retentions touches no contents. -/
theorem exists_modifyAll (positions : List Nat) {f : BufferRecord → BufferRecord}
    (hf : ∀ record, (f record).handle = record.handle ∧ (f record).initialized = record.initialized)
    (hbuffer : runtime.buffers[j]? = some buffer) :
    ∃ later, (modifyAll positions f runtime.buffers)[j]? = some later ∧
      later.handle = buffer.handle ∧ later.initialized = buffer.initialized := by
  rw [getElem?_modifyAll, hbuffer]
  by_cases hmem : j ∈ positions
  · exact ⟨f buffer, by simp [hmem], (hf buffer).1, (hf buffer).2⟩
  · exact ⟨buffer, by simp [hmem], rfl, rfl⟩

variable {f : DispatchRecordLocal → DispatchRecordLocal}

/-- An unresolved dispatch ends and gives its buffers back. -/
theorem Kept.finish (h : runtime.Inv) (hdispatch : runtime.dispatches[i]? = some dispatch)
    (hunresolved : dispatch.state.unresolved = true)
    (hf : ∀ d, f d = { d with
      state := state, ambiguity := (f d).ambiguity, summary := (f d).summary })
    (hresolved : state.unresolved = false) (hstate : dispatch.state.Precedes state)
    (hmodel : Moves runtime.model dispatch.modelCompletion state.modelState model) :
    Kept wrote runtime { runtime with
      model := model
      dispatches := runtime.dispatches.modify i f
      buffers := modifyAll dispatch.retainedBuffers BufferRecord.unretain runtime.buffers } := by
  refine ⟨⟨?_, fun j buffer hbuffer => ?_⟩,
    .of_dispatch rfl rfl (fun _ _ hbuffer => exists_modifyAll _ (fun _ => ⟨rfl, rfl⟩) hbuffer)
      length_modifyAll hdispatch hf hstate⟩
  · show Coherent _ _ _ _ _ _ ((modifyAll _ _ _).map BufferRecord.outline) _ _ _
    rw [map_modifyAll_of_eq (f := BufferRecord.unretain) fun _ => rfl]
    refine h.coherent.moveDispatch hdispatch hf (fun hprepared => ?_) hmodel
    rw [hprepared] at hresolved
    nomatch hresolved
  · have hcount := holders_modify (i := j) (f := f) hdispatch hunresolved (by rw [hf])
    have hstate : (f dispatch).state.unresolved = false := by
      rw [hf]
      exact hresolved
    rw [hstate] at hcount
    simp only [Bool.false_eq_true, false_and, if_false, Nat.add_zero] at hcount
    rw [show (_ : VirtualRuntime).buffers = modifyAll dispatch.retainedBuffers BufferRecord.unretain
      runtime.buffers from rfl, getElem?_modifyAll, Option.map_eq_some_iff] at hbuffer
    obtain ⟨old, hold, rfl⟩ := hbuffer
    have hretained := h.retained j old hold
    by_cases hmem : j ∈ dispatch.retainedBuffers
    · rw [if_pos hmem] at hcount ⊢
      show old.retainedDispatches - 1 = holders (runtime.dispatches.modify i f) j
      omega
    · rw [if_neg hmem] at hcount ⊢
      show old.retainedDispatches = holders (runtime.dispatches.modify i f) j
      omega

/-- A prepared dispatch becomes ambiguous and keeps its buffers. -/
theorem Kept.ambiguous (h : runtime.Inv) (hdispatch : runtime.dispatches[i]? = some dispatch)
    (hprepared : dispatch.state = .prepared)
    (hf : ∀ d, f d = { d with
      state := .ambiguous, ambiguity := (f d).ambiguity, summary := (f d).summary })
    (hmodel : Moves runtime.model dispatch.modelCompletion .ambiguous model) :
    Kept wrote runtime { runtime with
      model := model
      dispatches := runtime.dispatches.modify i f } := by
  refine ⟨⟨h.coherent.moveDispatch hdispatch hf (by decide) hmodel, fun j buffer hbuffer => ?_⟩,
    .of_dispatch rfl rfl (fun _ buffer hbuffer => ⟨buffer, hbuffer, rfl, rfl⟩) rfl hdispatch hf
      (.inr (.inl hprepared))⟩
  have hunresolved : dispatch.state.unresolved = true := by
    rw [hprepared]
    rfl
  have hcount := holders_modify (i := j) (f := f) hdispatch hunresolved (by rw [hf])
  have hstate : (f dispatch).state.unresolved = true := by
    rw [hf]
    rfl
  simp only [hstate, true_and, Nat.add_right_cancel_iff] at hcount
  exact (h.retained j buffer hbuffer).trans hcount.symm

/-! ### The loops over held buffers -/

section

variable {E : VirtualRuntimeError → VirtualRuntime → Prop} {P : Prop}
  {Q : Unit → VirtualRuntime → Prop} {positions : List Nat}

/-- A position that was not visited is as before. -/
theorem getElem?_modifyAll_of_notMem {f : BufferRecord → BufferRecord} (h : i ∉ positions) :
    (modifyAll positions f buffers)[i]? = buffers[i]? := by
  rw [getElem?_modifyAll]
  simp [h]

/-- A loop that counts the dispatches of buffers anew. -/
theorem meets_recount (count : Nat → Option Nat) {f : BufferRecord → BufferRecord}
    (hf : ∀ buffer, { buffer with retainedDispatches := (f buffer).retainedDispatches } = f buffer)
    (hnodup : positions.Nodup)
    (hcount : ∀ index ∈ positions, ∃ buffer, runtime.buffers[index]? = some buffer ∧
      count buffer.retainedDispatches = some (f buffer).retainedDispatches)
    (hdone : Q () { runtime with buffers := modifyAll positions f runtime.buffers }) :
    Meets (positions.forM fun index => do
      let record ← bufferAt index
      let count ← expect (count record.retainedDispatches)
      update fun runtime => runtime.setBuffer index fun record =>
        { record with retainedDispatches := count }) Q E P runtime := by
  refine meets_forM (fun seen t => t = { runtime with
    buffers := modifyAll seen f runtime.buffers }) ?_ ?_ ?_
  · rw [modifyAll_nil]
  · rintro seen index rest _ rfl rfl
    have hnew : index ∉ seen := by
      intro hmem
      exact (nodup_append.mp hnodup).2.2 index hmem index (mem_cons_self ..) rfl
    rcases hcount index (mem_append_right _ (mem_cons_self ..)) with ⟨buffer, hbuffer, hcount⟩
    rw [meets_bind, meets_recordAt ((getElem?_modifyAll_of_notMem hnew).trans hbuffer), hcount,
      meets_bind, meets_expect_some]
    exact congrArg (fun buffers => ({ runtime with buffers := buffers } : VirtualRuntime))
      (modify_modifyAll hnew hbuffer (hf buffer))
  · rintro _ rfl
    exact hdone

end

end VirtualRuntime

end Fe2o3.Virtual
