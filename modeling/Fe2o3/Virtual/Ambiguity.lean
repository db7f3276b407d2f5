import Fe2o3.Virtual.Progress

/-!
# Bytes that an ambiguous dispatch may have written

When a dispatch becomes ambiguous, the bytes it may write lose their initialization, and
the host cannot reach the buffers it holds until it is settled.  So the host reads such
a byte only if it was written again after the settlement, unless another dispatch that
shares the buffer runs in the meantime: its stores initialize the bytes again while the
ambiguous dispatch may still be writing them.
-/

namespace Fe2o3.Virtual

open Lib KernelIr RuntimeModel Command List

variable {buffer : BufferRecord}

namespace VirtualRuntime

/-- The completion is ambiguous. -/
def ambiguous (runtime : VirtualRuntime) (completion : VirtualCompletionHandle) : Bool :=
  runtime.dispatches.any fun dispatch =>
    dispatch.completion == completion && dispatch.state == .ambiguous

/-- The call succeeds and writes a byte of the buffer. -/
def Writes (runtime : VirtualRuntime) (call : Call) (handle : VirtualBufferHandle) (p : Nat) :
    Prop :=
  (perform call runtime).succeeded = true ∧ ∃ j buffer, runtime.buffers[j]? = some buffer ∧
    buffer.handle = handle ∧ runtime.Wrote call j p

/-- A byte of a buffer is not initialized. -/
def Unset (runtime : VirtualRuntime) (handle : VirtualBufferHandle) (p : Nat) : Prop :=
  ∀ (j : Nat) (buffer : BufferRecord), runtime.buffers[j]? = some buffer → buffer.handle = handle →
    buffer.initialized[p]? ≠ some true

variable {runtime next last : VirtualRuntime} {call : Call} {calls : List Call}
  {handle : VirtualBufferHandle} {completion : VirtualCompletionHandle} {p j : Nat}
  {dispatch : DispatchRecordLocal}

/-! ### Writes -/

/-- Only buffers that exist are written. -/
theorem Wrote.exists_buffer (h : runtime.Inv) (hwrote : runtime.Wrote call j p) :
    ∃ buffer, runtime.buffers[j]? = some buffer := by
  cases call with
  | copyFromHost | copyFromHostWithInitialization =>
    obtain ⟨⟨buffer, hbuffer, -⟩, -⟩ := hwrote
    exact ⟨buffer, hbuffer⟩
  | runNext environment =>
    obtain ⟨i, dispatch, execution, _, _, hdispatch, hprepared, -, -, write, -, backing,
      hbacking, -⟩ :=
      hwrote
    have hunresolved : dispatch.state.unresolved = true := by
      rw [hprepared]
      rfl
    obtain ⟨buffer, hbuffer, -⟩ := h.held (mem_of_getElem? hdispatch) hunresolved
      (mem_of_getElem? hbacking)
    exact ⟨buffer, hbuffer⟩
  | _ => exact hwrote.elim

/-- An evolution initializes a byte only by writing it. -/
theorem Evolution.wrote {wrote : Nat → Nat → Prop} (h : Evolution wrote runtime next)
    (hunset : runtime.Unset handle p) (hset : ¬ next.Unset handle p) :
    ∃ j, wrote j p ∧ ∀ buffer, runtime.buffers[j]? = some buffer → buffer.handle = handle := by
  simp only [Unset, not_forall, not_not] at hset
  obtain ⟨j, later, hlater, hhandle, hp⟩ := hset
  cases hbuffer : runtime.buffers[j]? with
  | none =>
    exact ⟨j, h.added j later hlater (List.getElem?_eq_none_iff.mp hbuffer) p hp,
      fun _ hsome => (nomatch hbuffer.symm.trans hsome)⟩
  | some buffer =>
    obtain ⟨image, himage, hsame, hwrote⟩ := h.buffers j buffer hbuffer
    cases hlater.symm.trans himage
    have hold : buffer.handle = handle := hsame.symm.trans hhandle
    refine ⟨j, (hwrote p hp).resolve_left (hunset j buffer hbuffer hold), fun found hfound => ?_⟩
    cases hbuffer.symm.trans hfound
    exact hold

/-- A byte that is initialized after a call was written by it. -/
theorem writes_of_set (h : runtime.Inv) (hunset : runtime.Unset handle p)
    (hcall : (perform call runtime).state? = some next) (hset : ¬ next.Unset handle p) :
    runtime.Writes call handle p := by
  cases hresets : call.resets with
  | true =>
    obtain rfl | ⟨config, rfl⟩ := perform_reset hresets hcall
    · exact absurd hunset hset
    · exact absurd nofun hset
  | false =>
    have hserves := perform_serves h call hresets
    unfold Serves Meets at hserves
    unfold Writes
    cases houtcome : perform call runtime with
    | done reply state =>
      rw [houtcome] at hserves hcall
      cases hcall
      obtain ⟨j, hwrote, hhandle⟩ := hserves.2.wrote hunset hset
      obtain ⟨buffer, hbuffer⟩ := Wrote.exists_buffer h hwrote
      exact ⟨rfl, j, buffer, hbuffer, hhandle buffer hbuffer, hwrote⟩
    | failed error state =>
      rw [houtcome] at hserves hcall
      cases hcall
      obtain ⟨_, hnowhere, _⟩ := hserves.2.wrote hunset hset
      exact hnowhere.elim
    | panicked =>
      rw [houtcome] at hcall
      nomatch hcall

/-- A byte that is initialized after a run was written during it. -/
theorem run_writes (h : runtime.Inv) (hunset : runtime.Unset handle p)
    (hrun : runtime.run calls = some last) (hset : ¬ last.Unset handle p) :
    ∃ first call rest state, calls = first ++ call :: rest ∧ runtime.run first = some state ∧
      state.Writes call handle p := by
  induction calls generalizing runtime with
  | nil =>
    cases hrun
    exact absurd hunset hset
  | cons call calls ih =>
    obtain ⟨next, hcall, hrest⟩ := Option.bind_eq_some_iff.mp hrun
    by_cases hnext : next.Unset handle p
    · obtain ⟨first, write, rest, state, rfl, hfirst, hwrites⟩ :=
        ih (state_of_meets (perform_inv h call) hcall) hnext hrest
      refine ⟨call :: first, write, rest, state, rfl, ?_, hwrites⟩
      rw [VirtualRuntime.run, hcall]
      exact hfirst
    · exact ⟨[], call, calls, runtime, rfl, rfl, writes_of_set h hunset hcall hnext⟩

/-! ### While a dispatch is ambiguous -/

/-- The dispatch is ambiguous, and a byte it may write is not initialized. -/
structure Open (dispatch : DispatchRecordLocal) (handle : VirtualBufferHandle) (p : Nat)
    (runtime : VirtualRuntime) : Prop where
  inv : runtime.Inv
  record : ∃ later ∈ runtime.dispatches, later.completion = dispatch.completion ∧
    later.request = dispatch.request ∧ later.state = .ambiguous
  unset : runtime.Unset handle p

section

variable (h : Open dispatch handle p runtime)
include h

section

variable (hwritable : dispatch.Writable handle p)
include hwritable

theorem Open.held (hhandle : buffer.handle = handle) : runtime.holdersOf buffer ≠ [] := by
  obtain ⟨later, hmem, -, hrequest, hambiguous⟩ := h.record
  obtain ⟨view, _, _, hview, -, hsame, -⟩ := hwritable
  apply ne_nil_of_mem (a := later)
  refine mem_filter.mpr ⟨hmem, Bool.and_eq_true_iff.mpr ⟨by rw [hambiguous]; rfl, ?_⟩⟩
  exact names_eq_true.mpr ⟨view, hrequest ▸ hview, hsame.trans hhandle.symm⟩

/-- The host does not reach a buffer that the dispatch may write. -/
theorem Open.not_succeeded (hmem : buffer ∈ runtime.buffers) (hhandle : buffer.handle = handle)
    (hcall : call.hostAccess? = some handle) : (perform call runtime).succeeded ≠ true := by
  intro hdone
  have haccess := h.inv.agrees.access buffer hmem call (by rw [hhandle, hcall])
  exact h.held hwritable hhandle (haccess.2.mp hdone).2.1

/-- While the dispatch is ambiguous, only an execution can write the byte. -/
theorem Open.writes
    (hwrites : runtime.Writes call handle p) :
    ∃ environment, call = .runNext environment ∧ ∃ j buffer, runtime.buffers[j]? = some buffer ∧
      buffer.handle = handle ∧ RunWrites environment runtime j p := by
  obtain ⟨hdone, j, buffer, hbuffer, hhandle, hwrote⟩ := hwrites
  have hmem := mem_of_getElem? hbuffer
  cases call with
  | copyFromHost found offset source =>
    obtain ⟨⟨other, hother, hsame⟩, -⟩ := hwrote
    cases hbuffer.symm.trans hother
    obtain rfl := hsame.symm.trans hhandle
    exact absurd hdone (h.not_succeeded hwritable hmem hhandle rfl)
  | copyFromHostWithInitialization found offset source initialized =>
    obtain ⟨⟨other, hother, hsame⟩, -⟩ := hwrote
    cases hbuffer.symm.trans hother
    obtain rfl := hsame.symm.trans hhandle
    by_cases hlength : source.length = initialized.length
    · exact absurd hdone (h.not_succeeded hwritable hmem hhandle (if_pos hlength))
    · rw [perform, copyFromHostWithInitialization, bne_iff_ne.mpr hlength] at hdone
      cases hdone
  | runNext environment => exact ⟨environment, rfl, j, buffer, hbuffer, hhandle, hwrote⟩
  | _ => exact hwrote.elim

/-- A call after which the dispatch is still ambiguous leaves the byte as it is, unless an
    execution stores to it; so does the one that settles it. -/
theorem Open.step
    (hshared : ∀ environment, call = .runNext environment → ∀ j buffer,
      runtime.buffers[j]? = some buffer → buffer.handle = handle →
      ¬ RunWrites environment runtime j p)
    (hcall : (perform call runtime).state? = some next) :
    Open dispatch handle p next ∨
      next.ambiguous dispatch.completion = false ∧ next.Inv ∧ next.Unset handle p := by
  have hinv : next.Inv := state_of_meets (perform_inv h.inv call) hcall
  have hunset : next.Unset handle p := by
    by_contra hset
    obtain ⟨environment, hrun, j, buffer, hbuffer, hhandle, hwrites⟩ :=
      h.writes hwritable (writes_of_set h.inv h.unset hcall hset)
    exact hshared environment hrun j buffer hbuffer hhandle hwrites
  cases hambiguous : next.ambiguous dispatch.completion with
  | false => exact .inr ⟨rfl, hinv, hunset⟩
  | true =>
    refine .inl ⟨hinv, ?_, hunset⟩
    obtain ⟨found, hfound, hboth⟩ := any_eq_true.mp hambiguous
    obtain ⟨hcompletion, hstate⟩ := Bool.and_eq_true_iff.mp hboth
    obtain ⟨record, hmem, hsame, hrequest, hopen⟩ := h.record
    cases hresets : call.resets with
    | true =>
      obtain rfl | ⟨config, rfl⟩ := perform_reset hresets hcall
      · exact h.record
      · nomatch hfound
    | false =>
      obtain ⟨i, hrecord⟩ := getElem?_of_mem hmem
      obtain ⟨later, hlater, hkeeps, hasks, -⟩ :=
        (perform_kept h.inv hresets hcall).2.dispatches i record hrecord
      have hin := mem_of_getElem? hlater
      -- Completions are pairwise different, so the ambiguous one is the same dispatch.
      obtain rfl := eq_of_same_key hinv.coherent.handles.dispatches.distinct hfound hin
        ((eq_of_beq hcompletion).trans (hkeeps.trans hsame).symm)
      exact ⟨found, hfound, eq_of_beq hcompletion, hasks.trans hrequest, eq_of_beq hstate⟩

/-- In a run that starts while the dispatch is ambiguous, a byte it may write becomes
    initialized only after the settlement. -/
theorem Open.run
    (hshared : ∀ first environment rest state, calls = first ++ .runNext environment :: rest →
      runtime.run first = some state → state.ambiguous dispatch.completion = true →
      ∀ j buffer, state.buffers[j]? = some buffer → buffer.handle = handle →
      ¬ RunWrites environment state j p)
    (hrun : runtime.run calls = some last) (hset : ¬ last.Unset handle p) :
    ∃ first middle call rest settled state, calls = first ++ (middle ++ call :: rest) ∧
      runtime.run first = some settled ∧ settled.ambiguous dispatch.completion = false ∧
      settled.run middle = some state ∧ state.Writes call handle p := by
  induction calls generalizing runtime with
  | nil =>
    cases hrun
    exact absurd h.unset hset
  | cons call calls ih =>
    obtain ⟨next, hcall, hrest⟩ := Option.bind_eq_some_iff.mp hrun
    have hstep : ∀ first, runtime.run (call :: first) = next.run first := by
      intro first
      rw [VirtualRuntime.run, hcall]
      rfl
    have hambiguous : runtime.ambiguous dispatch.completion = true := by
      obtain ⟨record, hmem, hcompletion, -, hstate⟩ := h.record
      exact any_eq_true.mpr ⟨record, hmem, by simp [hcompletion, hstate]⟩
    have hhere : ∀ environment, call = .runNext environment → ∀ j buffer,
        runtime.buffers[j]? = some buffer → buffer.handle = handle →
        ¬ RunWrites environment runtime j p := by
      rintro environment rfl
      exact hshared [] environment calls runtime rfl rfl hambiguous
    obtain hopen | ⟨hsettled, hinv, hunset⟩ := h.step hwritable hhere hcall
    · have hlater := fun first environment rest state hsplit hfirst =>
        hshared (call :: first) environment rest state (congrArg (call :: ·) hsplit)
          ((hstep first).trans hfirst)
      obtain ⟨first, middle, write, rest, settled, state, rfl, hfirst, hrest⟩ :=
        ih hopen hlater hrest
      exact ⟨call :: first, middle, write, rest, settled, state, rfl, (hstep first).trans hfirst,
        hrest⟩
    · obtain ⟨middle, write, rest, state, rfl, hmiddle, hwrites⟩ :=
        run_writes hinv hunset hrest hset
      exact ⟨[call], middle, write, rest, next, state, rfl, hstep [], hsettled, hmiddle, hwrites⟩

end

end

/-! ### Host reads -/

/-- Once a dispatch is ambiguous, the host reads a byte that it may write only if a call
    has written it after the settlement, provided that no execution stores to such bytes
    while the dispatch is ambiguous. -/
theorem ambiguous_bytes_unread {marked : VirtualRuntime} {environment : Environment}
    {reason : VirtualCompletionAmbiguity} {offset length : Nat} {bytes : List UInt8}
    (h : Reachable runtime)
    (hmark : transitionToAmbiguous environment completion reason runtime = .done () marked)
    (hdispatch : dispatch ∈ runtime.dispatches) (hcompletion : dispatch.completion = completion)
    (hrun : marked.run calls = some last)
    (hshared : ∀ first environment rest state, calls = first ++ .runNext environment :: rest →
      marked.run first = some state → state.ambiguous completion = true →
      ∀ j buffer p, state.buffers[j]? = some buffer → dispatch.Writable buffer.handle p →
      ¬ RunWrites environment state j p)
    (hread : copyToHost handle offset length last = .done bytes next)
    (hlow : offset ≤ p) (hhigh : p < offset + length) (hwritable : dispatch.Writable handle p) :
    ∃ first middle call rest settled state, calls = first ++ (middle ++ call :: rest) ∧
      marked.run first = some settled ∧ settled.ambiguous completion = false ∧
      settled.run middle = some state ∧ state.Writes call handle p := by
  obtain ⟨hkept, i, found, hfound, hsame, -, ⟨f, hf, hends⟩, hforgot⟩ :=
    (meets_transitionToAmbiguous h.inv environment completion reason).of_done hmark
  obtain rfl := eq_of_same_key h.inv.coherent.handles.dispatches.distinct hdispatch
    (mem_of_getElem? hfound) (hcompletion.trans hsame.symm)
  subst hcompletion
  have hrecord : marked.dispatches[i]? = some (f dispatch) := by
    rw [hends]
    exact getElem?_modify_self hfound
  have hopen : Open dispatch handle p marked := by
    refine ⟨hkept.1, ⟨f dispatch, mem_of_getElem? hrecord, ?_, ?_, ?_⟩, ?_⟩
    · rw [hf]
    · rw [hf]
    · rw [hf]
    · rintro j later hlater rfl
      exact hforgot j later hlater p hwritable
  obtain ⟨-, j, buffer, hbuffer, hhandle, -, -, -, -, hinitialized⟩ :=
    (meets_copyToHost (hkept.1.run hrun) handle offset length).of_done hread
  refine hopen.run hwritable ?_ hrun fun hunset => ?_
  · rintro first environment rest state hsplit hfirst hambiguous j buffer hbuffer rfl
    exact hshared first environment rest state hsplit hfirst hambiguous j buffer p hbuffer hwritable
  · exact hunset j buffer hbuffer hhandle (hinitialized p hlow hhigh)

theorem byteView_writable (hbytes : dispatch.request.arguments = [.buffer byteView]) :
    dispatch.Writable ⟨1, 3⟩ 0 := by
  refine ⟨byteView, 1, 1, ?_, by decide, rfl, rfl, by decide, by decide, by decide⟩
  rw [hbytes]
  exact mem_singleton_self _

/-- The dispatch is settled and the host writes the byte before it reads it. -/
theorem ambiguous_bytes_unread_rewritten : ∃ marked last next bytes,
    transitionToAmbiguous bareEnvironment ⟨1, 4⟩ .publicationOutcomeUnknown
      (after (sampleConfig 1) oneWriter) = .done () marked ∧
    marked.run [.quiesceQueue ⟨1, 1⟩, .settleAmbiguousCompletion ⟨1, 4⟩,
      .copyFromHost ⟨1, 3⟩ 0 [7]] = some last ∧
    copyToHost ⟨1, 3⟩ 0 1 last = .done bytes next ∧
    ∃ first middle call rest settled state,
      [.quiesceQueue ⟨1, 1⟩, .settleAmbiguousCompletion ⟨1, 4⟩, .copyFromHost ⟨1, 3⟩ 0 [7]] =
        first ++ (middle ++ call :: rest) ∧
      marked.run first = some settled ∧ settled.ambiguous ⟨1, 4⟩ = false ∧
      settled.run middle = some state ∧ state.Writes call ⟨1, 3⟩ 0 := by
  have hmark : (transitionToAmbiguous bareEnvironment ⟨1, 4⟩ .publicationOutcomeUnknown
      (after (sampleConfig 1) oneWriter)).succeeded = true := by
    decide +kernel
  have hread : (transitionToAmbiguous bareEnvironment ⟨1, 4⟩ .publicationOutcomeUnknown
      (after (sampleConfig 1) oneWriter)).state?.bind (fun marked =>
        (marked.run [.quiesceQueue ⟨1, 1⟩, .settleAmbiguousCompletion ⟨1, 4⟩,
          .copyFromHost ⟨1, 3⟩ 0 [7]]).map fun last =>
            (copyToHost ⟨1, 3⟩ 0 1 last).succeeded) = some true := by
    decide +kernel
  obtain ⟨dispatch, hdispatch, hcompletion, harguments⟩ :
      ∃ dispatch ∈ (after (sampleConfig 1) oneWriter).dispatches, dispatch.completion = ⟨1, 4⟩ ∧
        dispatch.request.arguments = [.buffer byteView] := by
    decide +kernel
  obtain ⟨_, marked, hmarked⟩ := Outcome.exists_done hmark
  rw [hmarked] at hread
  obtain ⟨last, hlast, hread⟩ := Option.map_eq_some_iff.mp hread
  obtain ⟨bytes, next, hread⟩ := Outcome.exists_done hread
  refine ⟨marked, last, next, bytes, hmarked, hlast, hread, ?_⟩
  refine ambiguous_bytes_unread (reachable_after ⟨by decide, rfl, rfl⟩ (by decide +kernel)) hmarked
    hdispatch hcompletion hlast ?_ hread (Nat.zero_le 0) (by decide) (byteView_writable harguments)
  intro first environment rest state hsplit
  have hmem : Call.runNext environment ∈ first ++ .runNext environment :: rest :=
    mem_append_right _ (mem_cons_self ..)
  rw [← hsplit] at hmem
  simp at hmem

/-- An environment in which every simulation stores one byte. -/
def storingEnvironment : Environment where
  reserves := fun _ => true
  storage := ⟨0, 0, 0, 0, 0, 0⟩
  simulate := fun _ _ _ _ _ => .ok {
    identity := ⟨1, 7, 16⟩
    invocationsExecuted := 1
    workgroupsVisited := 1
    scheduledSlotsVisited := 1
    stepsExecuted := 1
    schedule := .workgroupMajorLocalZyxSerial
    scheduleTranscriptIdentity := 0
    scheduleDecisions := 0
    scheduleBarrierReleases := 0
    conflictAssessment := .noneObserved
    raceAssessment := .noneObserved
    writes := [⟨0, 0, [1]⟩] }

/-- A second dispatch on another queue may write the same byte; it runs while the first
    one is ambiguous. -/
def twoWriters : List Call :=
  oneWriter ++ [.createQueue 2, .submit bareEnvironment ⟨1, 5⟩ ⟨1, 2⟩ byteRequest,
    .markCompletionAmbiguous bareEnvironment ⟨1, 4⟩, .runNext storingEnvironment,
    .quiesceQueue ⟨1, 1⟩]

/-- The host reads the byte right after the settlement. -/
theorem shared_byte_read_after_ambiguity :
    ConfigFits (sampleConfig 1) ∧
      (∃ dispatch ∈ (after (sampleConfig 1) twoWriters).dispatches,
        dispatch.completion = ⟨1, 4⟩ ∧ dispatch.state = .ambiguous ∧
        dispatch.request.arguments = [.buffer byteView]) ∧
      (perform (.settleAmbiguousCompletion ⟨1, 4⟩)
        (after (sampleConfig 1) twoWriters)).succeeded = true ∧
      (perform (.copyToHost ⟨1, 3⟩ 0 1) (after (sampleConfig 1)
        (twoWriters ++ [.settleAmbiguousCompletion ⟨1, 4⟩]))).value? = some (.bytes [1]) :=
  ⟨⟨by decide, rfl, rfl⟩, by decide +kernel, by decide +kernel, by decide +kernel⟩

end VirtualRuntime

end Fe2o3.Virtual
